import AIEngine.Cache
import AIEngine.Library.Directory
import AIEngine.Library.Pcap
import AIEngine.Library.Transition
import Mathlib.Algebra.Group.Int.Defs

/-!
# Evidence files (`EvidenceManager.cc`)

Packets that are evidence go to a file of a fixed size that is mapped into memory. When a record does
not fit any more the file is closed, cut to what was written, and another one is opened. The name of a
file is made of the process and of the second in which it is opened.
-/

namespace AIEngine

open Pcap (Bytes)

/-- A `memcpy` into the mapped pages. -/
def poke (data : Bytes) (offset : Nat) (bytes : Bytes) : Except Fault Bytes :=
  if offset + bytes.length ≤ data.length then
    .ok (data.take offset ++ bytes ++ data.drop (offset + bytes.length))
  else .error .outOfBounds

structure EvidenceManager (N : Type) where
  totalSize : Nat
  totalFiles : Nat := 0
  totalWritePackets : Nat := 0
  evidenceOffset : Nat := 0
  /-- `filename_` and the mapped pages, while `evidence_file_` is open -/
  evidenceFile : Option (N × Bytes) := none
  /-- the files in the order of their creation -/
  disk : List (N × Bytes) := []

namespace EvidenceManager

variable {N : Type} [DecidableEq N] (fileName : Int → N)

/-- `pheader` -/
def pcapHeader : Pcap.FileHeader where
  versionMajor := 2
  versionMinor := 4
  thiszone := 0
  sigfigs := 0
  snaplen := 1500
  linktype := 1

/-- `now` is what `std::time` answers, if it is asked. The new file has its size at once. -/
def enable (m : EvidenceManager N) (now : Int) : Except Fault (EvidenceManager N) :=
  match m.evidenceFile with
  | some _ => .ok m
  | none =>
    match poke (List.replicate m.totalSize 0) 0 pcapHeader.bytes with
    | .ok data => .ok { m with
      disk := Directory.put m.disk (fileName now) (List.replicate m.totalSize 0)
      evidenceFile := some (fileName now, data)
      evidenceOffset := 24
      totalFiles := m.totalFiles + 1 }
    | .error e => .error e

/-- The pages reach the file when it is closed; then it is truncated. -/
def disable (m : EvidenceManager N) : EvidenceManager N :=
  match m.evidenceFile with
  | some (name, data) => { m with
    disk := Directory.put m.disk name (data.take m.evidenceOffset)
    evidenceFile := none
    evidenceOffset := 0 }
  | none => m

/-- `evidence_offset_ + length + sizeof(pcap_header_writeable) > total_size_`: the first sum is one of
ints, the second one of `std::size_t`. -/
def Exceeds (offset length totalSize : Nat) : Prop :=
  (totalSize : Int) < (((offset + length : Nat) : Int).bmod (2 ^ 32) % 2 ^ 64 + 16) % 2 ^ 64

instance (offset length totalSize : Nat) : Decidable (Exceeds offset length totalSize) :=
  inferInstanceAs (Decidable (_ < _))

/-- `pcap_header_writeable` -/
def recordHeader (length : Nat) : Bytes :=
  Pcap.le32 0 ++ (Pcap.le32 0 ++ (Pcap.le32 (BitVec.ofNat 32 length) ++
    Pcap.le32 (BitVec.ofNat 32 length)))

/-- Header and payload behind what is there. -/
def append (m : EvidenceManager N) (packet : Bytes) : Except Fault (EvidenceManager N) :=
  match m.evidenceFile with
  | none => .error .nullDereference
  | some (name, data) =>
    match poke data m.evidenceOffset (recordHeader packet.length) with
    | .error e => .error e
    | .ok data =>
      match poke data (m.evidenceOffset + 16) packet with
      | .error e => .error e
      | .ok data => .ok { m with
        evidenceFile := some (name, data)
        evidenceOffset := m.evidenceOffset + 16 + packet.length
        totalWritePackets := m.totalWritePackets + 1 }

def write (m : EvidenceManager N) (packet : Bytes) (now : Int) :
    Except Fault (EvidenceManager N) :=
  if Exceeds m.evidenceOffset packet.length m.totalSize then
    match m.disable.enable fileName now with
    | .ok m => m.append packet
    | .error e => .error e
  else m.append packet

/-! ### Sessions -/

/-- Packets between `enable` and `disable`, each with the clock reading at its `write`. -/
structure Session where
  totalSize : Nat
  int32 : totalSize < 2 ^ 31
  start : Int
  writes : List (Bytes × Int)
  room : 24 + 16 ≤ totalSize
  fits : ∀ w ∈ writes, 24 + 16 + w.1.length ≤ totalSize

def opened (s : Session) : Except Fault (EvidenceManager N) :=
  enable fileName { totalSize := s.totalSize } s.start

/-- A fault stays one. -/
def step : Except Fault (EvidenceManager N) → Bytes × Int →
    Option (Except Fault (EvidenceManager N))
  | .ok m, w => some (m.write fileName w.1 w.2)
  | .error e, _ => some (.error e)

/-- The records of all files, in the order of their creation. -/
def decodeFiles : List (N × Bytes) → Option (List Pcap.Record)
  | [] => some []
  | f :: rest =>
    match Pcap.decode f.2 with
    | some rs => (decodeFiles rest).map (rs ++ ·)
    | none => none

/-- The offset is inside of the mapped file. -/
def Bounded (x : Except Fault (EvidenceManager N)) : Prop :=
  ∃ m ∈ x.toOption, ∃ f ∈ m.evidenceFile, m.evidenceOffset ≤ f.2.length

/-- What lies on the disk in the end are the packets written, with their lengths. -/
def Decodes (x : Except Fault (EvidenceManager N)) (packets : List Bytes) : Prop :=
  ∃ m ∈ x.toOption, ∃ rs ∈ decodeFiles m.disable.disk,
    rs.map (fun r => (r.len.toNat, r.data)) = packets.map fun p => (p.length, p)

structure RoundTrips (s : Session) : Prop where
  bounded : Transition.Always (step fileName) Bounded (opened fileName s) s.writes
  decoded : ∃ x ∈ Transition.run (step fileName) (opened fileName s) s.writes,
    Decodes x (s.writes.map Prod.fst)

/-- The clock readings at which `write` opens a file, when the open one is written up to `offset`. -/
def openings (totalSize : Nat) : Nat → List (Bytes × Int) → List Int
  | _, [] => []
  | offset, (packet, now) :: rest =>
    if totalSize < offset + packet.length + 16 then
      now :: openings totalSize (24 + 16 + packet.length) rest
    else openings totalSize (offset + 16 + packet.length) rest

end EvidenceManager

end AIEngine
