import AIEngine.Cache
import Mathlib.Algebra.Group.Nat.Defs

/-!
# The read loops (`PacketDispatcher.cc`)

A capture is read by `do_read`, once for each event of a device, or by `run_pcap`, which loops over a
file. Both take whatever `pcap_next_ex` answers. What it answers on a timeout leaves the pointers to
the header and the data as they were.
-/

namespace AIEngine

/-- `len` is the length off the wire, `caplen` that of the portion present. -/
structure PcapHeader where
  sec : Int
  caplen : BitVec 32
  len : BitVec 32
  deriving DecidableEq, Repr

structure PcapPacket where
  header : PcapHeader
  data : List (BitVec 8)
  captured : data.length = header.caplen.toNat
  deriving DecidableEq, Repr

/-- A result of `pcap_next_ex`. -/
inductive NextEx where
  | packet (p : PcapPacket)
  | timeout
  /-- an error or the end of the file -/
  | negative (n : Nat)
  deriving DecidableEq, Repr

def NextEx.code : NextEx → Int
  | .packet _ => 1
  | .timeout => 0
  | .negative n => Int.negSucc n

/-- What `forward_raw_packet` sets in `current_packet_`: the payload points at the captured bytes, of
which the stack is to read `length`. -/
structure CurrentPacket where
  payload : List (BitVec 8)
  length : Int
  prevHeaderSize : Int
  packetTime : Int
  evidence : Bool
  deriving DecidableEq, Repr

structure PacketDispatcher where
  /-- `header_` and `pkt_data_`, null before the first packet -/
  next : Option PcapPacket := none
  totalPackets : Int := 0
  totalBytes : Int := 0
  /-- the packets given to the multiplexer of the stack, in order -/
  handed : List CurrentPacket := []
  deriving DecidableEq, Repr

namespace PacketDispatcher

/-- The packets go to the stack that `setStack` has set. -/
def forwardRawPacket (d : PacketDispatcher) (packet : List (BitVec 8)) (length : Int)
    (packetTime : Int) : PacketDispatcher :=
  { d with
    totalPackets := d.totalPackets + 1
    totalBytes := d.totalBytes + length
    handed := d.handed ++
      [{ payload := packet
         length := length
         prevHeaderSize := 0
         packetTime := packetTime
         evidence := false }] }

/-- What `pcap_next_ex` does to `header_` and `pkt_data_`. -/
def nextEx (d : PacketDispatcher) : NextEx → PacketDispatcher
  | .packet p => { d with next := some p }
  | .timeout => d
  | .negative _ => d

/-- The word of the header becomes the `int` parameter. -/
def forwardNext (d : PacketDispatcher) (length : PcapHeader → BitVec 32) :
    Except Fault PacketDispatcher :=
  match d.next with
  | some p => .ok (d.forwardRawPacket p.data (length p.header).toInt p.header.sec)
  | none => .error .nullDereference

/-- A result of 0 passes the test as well. -/
def doRead (d : PacketDispatcher) (r : NextEx) : Except Fault PacketDispatcher :=
  if 0 ≤ r.code then (d.nextEx r).forwardNext PcapHeader.len else .ok (d.nextEx r)

/-- The device is read again whatever the result was. -/
def doReads (d : PacketDispatcher) : List NextEx → Except Fault PacketDispatcher
  | [] => .ok d
  | r :: rest =>
    match d.doRead r with
    | .ok d => d.doReads rest
    | .error e => .error e

def runPcap (d : PacketDispatcher) : List NextEx → Except Fault PacketDispatcher
  | [] => .ok d
  | r :: rest =>
    if 0 ≤ r.code then
      match (d.nextEx r).forwardNext PcapHeader.caplen with
      | .ok d => d.runPcap rest
      | .error e => .error e
    else .ok (d.nextEx r)

/-! ### What the loops have to hand over -/

/-- A packet with its captured bytes. -/
def CurrentPacket.whole (p : PcapPacket) : CurrentPacket where
  payload := p.data
  length := p.data.length
  prevHeaderSize := 0
  packetTime := p.header.sec
  evidence := false

def delivered (rs : List NextEx) : List PcapPacket :=
  rs.filterMap fun r =>
    match r with
    | .packet p => some p
    | _ => none

/-- The results up to the first negative one, which are those `run_pcap` asks for. -/
def asked (rs : List NextEx) : List NextEx := rs.takeWhile fun r => decide (0 ≤ r.code)

def Feeds (x : Except Fault PacketDispatcher) (ps : List PcapPacket) : Prop :=
  ∃ d ∈ x.toOption, d.handed = ps.map CurrentPacket.whole

instance (x : Except Fault PacketDispatcher) (ps : List PcapPacket) : Decidable (Feeds x ps) := by
  unfold Feeds
  infer_instance

/-- Both loops hand over the packets they got, and the same ones when no result comes behind a
negative one. -/
structure Faithful (rs : List NextEx) : Prop where
  device : Feeds (doReads {} rs) (delivered rs)
  file : Feeds (runPcap {} rs) (delivered (asked rs))
  agree : asked rs = rs → ∃ d ∈ (doReads {} rs).toOption, ∃ d' ∈ (runPcap {} rs).toOption,
    d.handed = d'.handed

/-! ### A loop with either length -/

/-- A packet as a loop hands it over. -/
def current (length : PcapHeader → BitVec 32) (p : PcapPacket) : CurrentPacket where
  payload := p.data
  length := (length p.header).toInt
  prevHeaderSize := 0
  packetTime := p.header.sec
  evidence := false

theorem current_eq_whole_iff (length : PcapHeader → BitVec 32) (p : PcapPacket) :
    current length p = CurrentPacket.whole p ↔ (length p.header).toInt = p.data.length := by
  simp [current, CurrentPacket.whole]

/-- Reading on over all results: a packet is handed over, a timeout hands the last one over once
more and a negative result nothing. -/
def reads (length : PcapHeader → BitVec 32) (d : PacketDispatcher) :
    List NextEx → Except Fault PacketDispatcher
  | [] => .ok d
  | .packet p :: rest =>
    reads length ({ d with next := some p }.forwardRawPacket p.data (length p.header).toInt
      p.header.sec) rest
  | .timeout :: rest =>
    match d.forwardNext length with
    | .ok d => reads length d rest
    | .error e => .error e
  | .negative _ :: rest => reads length d rest

theorem doReads_eq (d : PacketDispatcher) (rs : List NextEx) :
    d.doReads rs = reads PcapHeader.len d rs := by
  induction rs generalizing d with
  | nil => rfl
  | cons r rest ih =>
    cases r with
    | packet p => exact ih _
    | negative n => exact ih d
    | timeout =>
      show (match d.forwardNext PcapHeader.len with
        | .ok d => d.doReads rest
        | .error e => .error e) = _
      unfold reads
      cases d.forwardNext PcapHeader.len with
      | error e => rfl
      | ok d => exact ih d

theorem runPcap_eq (d : PacketDispatcher) (rs : List NextEx) :
    d.runPcap rs = reads PcapHeader.caplen d (asked rs) := by
  induction rs generalizing d with
  | nil => rfl
  | cons r rest ih =>
    cases r with
    | packet p => exact ih _
    | negative n => rfl
    | timeout =>
      show (match d.forwardNext PcapHeader.caplen with
        | .ok d => d.runPcap rest
        | .error e => .error e) = reads PcapHeader.caplen d (.timeout :: asked rest)
      unfold reads
      cases d.forwardNext PcapHeader.caplen with
      | error e => rfl
      | ok d => exact ih d

/-- Without timeouts every packet is handed over as the loop sees it. -/
theorem reads_packets (length : PcapHeader → BitVec 32) (d : PacketDispatcher) {rs : List NextEx}
    (busy : .timeout ∉ rs) :
    ∃ d', reads length d rs = .ok d' ∧
      d'.handed = d.handed ++ (delivered rs).map (current length) := by
  induction rs generalizing d with
  | nil => exact ⟨d, rfl, by simp [delivered]⟩
  | cons r rest ih =>
    have later : .timeout ∉ rest := fun member => busy (List.mem_cons_of_mem r member)
    cases r with
    | timeout => exact absurd List.mem_cons_self busy
    | negative n => exact ih d later
    | packet p =>
      obtain ⟨d', ran, handed⟩ := ih _ later
      refine ⟨d', ran, handed.trans ?_⟩
      show (d.handed ++ [current length p]) ++ (delivered rest).map (current length) =
        d.handed ++ (delivered (.packet p :: rest)).map (current length)
      rw [List.append_assoc]
      rfl

/-- A timeout makes a packet more. -/
theorem reads_length (length : PcapHeader → BitVec 32) {d d' : PacketDispatcher} {rs : List NextEx}
    (h : reads length d rs = .ok d') :
    d'.handed.length = d.handed.length + (delivered rs).length + rs.count .timeout := by
  induction rs generalizing d with
  | nil =>
    obtain rfl := Except.ok.inj h
    simp [delivered]
  | cons r rest ih =>
    cases r with
    | negative n =>
      have count := ih h
      rw [List.count_cons_of_ne (by simp)]
      exact count
    | packet p =>
      have count := ih h
      have one : (delivered (.packet p :: rest)).length = (delivered rest).length + 1 := rfl
      rw [List.count_cons_of_ne (by simp), one]
      simp only [forwardRawPacket, List.length_append, List.length_singleton] at count
      omega
    | timeout =>
      have none : delivered (.timeout :: rest) = delivered rest := rfl
      rw [List.count_cons_self, none]
      unfold reads at h
      split at h
      · rename_i d₁ forwarded
        have count := ih h
        unfold forwardNext at forwarded
        split at forwarded
        · obtain rfl := Except.ok.inj forwarded
          simp only [forwardRawPacket, List.length_append, List.length_singleton] at count
          omega
        · exact absurd forwarded (by simp)
      · exact absurd h (by simp)

theorem reads_feeds_iff (length : PcapHeader → BitVec 32) (rs : List NextEx) :
    Feeds (reads length {} rs) (delivered rs) ↔
      .timeout ∉ rs ∧ ∀ p ∈ delivered rs, (length p.header).toInt = p.data.length := by
  constructor
  · rintro ⟨d, ran, handed⟩
    have read := toOption_some ran
    have count := reads_length length read
    rw [handed, List.length_map] at count
    have busy : .timeout ∉ rs := by
      refine List.count_eq_zero.mp ?_
      have start : ({} : PacketDispatcher).handed.length = 0 := rfl
      omega
    refine ⟨busy, fun p member => ?_⟩
    obtain ⟨d', ran', handed'⟩ := reads_packets length {} busy
    obtain rfl := Except.ok.inj (read.symm.trans ran')
    have same : (delivered rs).map (current length) = (delivered rs).map CurrentPacket.whole :=
      handed'.symm.trans handed
    exact (current_eq_whole_iff length p).mp (List.map_inj_left.mp same p member)
  · rintro ⟨busy, fits⟩
    obtain ⟨d, ran, handed⟩ := reads_packets length {} busy
    refine ⟨d, by rw [ran]; rfl, handed.trans ?_⟩
    show [] ++ _ = _
    rw [List.nil_append]
    exact List.map_congr_left fun p member => (current_eq_whole_iff length p).mpr (fits p member)

theorem asked_sublist (rs : List NextEx) : (asked rs).Sublist rs := List.takeWhile_sublist _

/-- A length that is captured whole is one `caplen` as an int as well. -/
theorem caplen_of_len (p : PcapPacket) (whole : p.header.len.toInt = p.data.length) :
    p.header.caplen.toInt = p.data.length := by
  have small : (p.header.len.toInt : Int) < 2 ^ 31 := BitVec.toInt_lt
  have size : p.header.caplen.toNat < 2 ^ 31 := by
    rw [← p.captured]
    omega
  rw [BitVec.toInt_eq_toNat_of_lt (by omega), p.captured]

/-- The feed is faithful exactly when there is no timeout and every packet is captured whole. -/
theorem faithful_iff (rs : List NextEx) :
    Faithful rs ↔
      .timeout ∉ rs ∧ ∀ p ∈ delivered rs, p.header.len.toInt = p.header.caplen.toNat := by
  have lengths : (∀ p ∈ delivered rs, p.header.len.toInt = p.header.caplen.toNat) ↔
      ∀ p ∈ delivered rs, p.header.len.toInt = p.data.length :=
    forall₂_congr fun p _ => by rw [p.captured]
  rw [lengths, ← reads_feeds_iff, ← doReads_eq]
  refine ⟨Faithful.device, fun device => ?_⟩
  obtain ⟨busy, whole⟩ := (reads_feeds_iff PcapHeader.len rs).mp (doReads_eq {} rs ▸ device)
  have sub : (delivered (asked rs)).Sublist (delivered rs) := (asked_sublist rs).filterMap _
  have file : Feeds (runPcap {} rs) (delivered (asked rs)) := by
    rw [runPcap_eq, reads_feeds_iff]
    refine ⟨fun member => busy ((asked_sublist rs).subset member), fun p member => ?_⟩
    exact caplen_of_len p (whole p (sub.subset member))
  refine ⟨device, file, fun all => ?_⟩
  obtain ⟨d, read, handed⟩ := device
  obtain ⟨d', read', handed'⟩ := file
  rw [all] at handed'
  exact ⟨d, read, d', read', handed.trans handed'.symm⟩

/-- A packet of 60 bytes on the wire, of which two are captured, and then a timeout. -/
theorem not_faithful :
    ¬∀ rs, Faithful rs := by
  intro h
  have feed := (h [
    .packet { header := { sec := 1, caplen := 2, len := 60 }, data := [0, 1], captured := by decide },
    .timeout]).device
  exact absurd feed (by decide)

end PacketDispatcher

end AIEngine
