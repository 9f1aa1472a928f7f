import AIEngine.Evidence.EvidenceManager

/-!
# Which packets are on the disk

The files of a session are lists of records, written one after the other. Each is complete when it is
closed, and holds a packet unless it is the only one, so all that can be lost is a file whose name a
later one takes.
-/

namespace AIEngine

open Pcap (Bytes Record)
open Directory (put putAll contents)

theorem poke_spec (data bytes : Bytes) (offset : Nat) (room : offset + bytes.length ≤ data.length) :
    ∃ data', poke data offset bytes = .ok data' ∧ data'.length = data.length ∧
      data'.take (offset + bytes.length) = data.take offset ++ bytes := by
  refine ⟨_, if_pos room, ?_, ?_⟩
  · simp only [List.length_append, List.length_take, List.length_drop]
    omega
  · have size : (data.take offset ++ bytes).length = offset + bytes.length := by
      rw [List.length_append, List.length_take]
      omega
    rw [← size, List.take_left']
    rfl

namespace EvidenceManager

theorem exceeds_iff {offset length totalSize : Nat} (int32 : totalSize < 2 ^ 31)
    (written : offset ≤ totalSize) (fits : length + 40 ≤ totalSize) :
    Exceeds offset length totalSize ↔ totalSize < offset + length + 16 := by
  unfold Exceeds
  rw [Int.bmod_def]
  split <;> omega

variable {N : Type} [DecidableEq N] {fileName : Int → N} {totalSize : Nat}

/-! ### One file -/

/-- The bytes of a file with these records. -/
def fileBytes (rs : List Record) : Bytes := Pcap.encode pcapHeader rs

theorem fileBytes_nil_length : (fileBytes []).length = 24 := rfl

theorem fileBytes_append_length (rs : List Record) (r : Record) :
    (fileBytes (rs ++ [r])).length = (fileBytes rs).length + 16 + r.data.length := by
  unfold fileBytes
  rw [Pcap.encode_append, List.length_append, r.bytes_length]
  omega

def Written (r : Record) (packet : Bytes) : Prop := r.len.toNat = packet.length ∧ r.data = packet

/-- `closed` are the files that were closed, and the file `name` is open with the records `rs`. -/
structure Holds (m : EvidenceManager N) (totalSize : Nat) (closed : List (N × List Record))
    (name : N) (rs : List Record) : Prop where
  size : m.totalSize = totalSize
  offset : m.evidenceOffset = (fileBytes rs).length
  file : ∃ data, m.evidenceFile = some (name, data) ∧ data.length = totalSize ∧
    data.take m.evidenceOffset = fileBytes rs
  disk : ∃ rest, m.disk = put ((putAll [] closed).map fun f => (f.1, fileBytes f.2)) name rest

theorem Holds.offset_le {m : EvidenceManager N} {closed : List (N × List Record)} {name : N}
    {rs : List Record} (holds : Holds m totalSize closed name rs) :
    m.evidenceOffset ≤ totalSize := by
  obtain ⟨data, -, size, front⟩ := holds.file
  have length := congrArg List.length front
  rw [List.length_take, ← holds.offset] at length
  omega

theorem Holds.bounded {m : EvidenceManager N} {closed : List (N × List Record)} {name : N}
    {rs : List Record} (holds : Holds m totalSize closed name rs) : Bounded (.ok m) := by
  have inside := holds.offset_le
  obtain ⟨data, file, size, -⟩ := holds.file
  refine ⟨m, rfl, (name, data), file, ?_⟩
  rw [size]
  exact inside

theorem append_spec {m : EvidenceManager N} {closed : List (N × List Record)} {name : N}
    {rs : List Record} (packet : Bytes) (holds : Holds m totalSize closed name rs)
    (int32 : totalSize < 2 ^ 31) (room : m.evidenceOffset + packet.length + 16 ≤ totalSize) :
    ∃ m' r, m.append packet = .ok m' ∧ Written r packet ∧
      Holds m' totalSize closed name (rs ++ [r]) := by
  obtain ⟨size, offset, ⟨data, file, length, front⟩, disk⟩ := holds
  let r : Record :=
    { sec := 0
      usec := 0
      len := BitVec.ofNat 32 packet.length
      data := packet
      fits := by omega }
  have written : Written r packet := by
    refine ⟨?_, rfl⟩
    show (BitVec.ofNat 32 packet.length).toNat = packet.length
    rw [BitVec.toNat_ofNat]
    exact Nat.mod_eq_of_lt (by omega)
  have header : (recordHeader packet.length).length = 16 := rfl
  obtain ⟨data₁, first, length₁, front₁⟩ :=
    poke_spec data (recordHeader packet.length) m.evidenceOffset (by omega)
  obtain ⟨data₂, second, length₂, front₂⟩ :=
    poke_spec data₁ packet (m.evidenceOffset + 16) (by omega)
  refine ⟨{ m with
    evidenceFile := some (name, data₂)
    evidenceOffset := m.evidenceOffset + 16 + packet.length
    totalWritePackets := m.totalWritePackets + 1 }, r, ?_, written, size, ?_,
    ⟨data₂, rfl, by omega, ?_⟩, disk⟩
  · unfold append
    rw [file]
    simp only [first, second]
  · rw [fileBytes_append_length, ← offset]
  · rw [header] at front₁
    have bytes : r.bytes = recordHeader packet.length ++ packet := by
      simp [Record.bytes, recordHeader, r]
    show data₂.take (m.evidenceOffset + 16 + packet.length) = _
    rw [front₂, front₁, front, fileBytes, fileBytes, Pcap.encode_append, bytes,
      List.append_assoc]

theorem enable_spec {m : EvidenceManager N} {closed : List (N × List Record)}
    (fileName : Int → N) (now : Int)
    (size : m.totalSize = totalSize) (room : 24 ≤ totalSize) (shut : m.evidenceFile = none)
    (disk : m.disk = (putAll [] closed).map fun f => (f.1, fileBytes f.2)) :
    ∃ m', m.enable fileName now = .ok m' ∧ Holds m' totalSize closed (fileName now) [] := by
  have header : pcapHeader.bytes.length = 24 := pcapHeader.bytes_length
  obtain ⟨data, poked, length, front⟩ :=
    poke_spec (List.replicate m.totalSize 0) pcapHeader.bytes 0
      (by rw [List.length_replicate]; omega)
  rw [List.length_replicate] at length
  refine ⟨{ m with
    disk := put m.disk (fileName now) (List.replicate m.totalSize 0)
    evidenceFile := some (fileName now, data)
    evidenceOffset := 24
    totalFiles := m.totalFiles + 1 }, ?_, size, rfl, ⟨data, rfl, by omega, ?_⟩,
    List.replicate m.totalSize 0, ?_⟩
  · unfold enable
    rw [shut, poked]
  · rw [header] at front
    show data.take 24 = _
    rw [show 24 = 0 + 24 from rfl, front]
    rfl
  · rw [disk]

theorem disable_spec {m : EvidenceManager N} {closed : List (N × List Record)} {name : N}
    {rs : List Record} (holds : Holds m totalSize closed name rs) :
    m.disable.totalSize = totalSize ∧ m.disable.evidenceFile = none ∧ m.disable.disk =
      (putAll [] (closed ++ [(name, rs)])).map fun f => (f.1, fileBytes f.2) := by
  obtain ⟨size, offset, ⟨data, file, length, front⟩, rest, disk⟩ := holds
  unfold disable
  rw [file]
  refine ⟨size, rfl, ?_⟩
  show put m.disk name (data.take m.evidenceOffset) = _
  rw [disk, front, Directory.put_put, Directory.putAll_append, Directory.put_map]

/-- A packet goes to the open file when it fits, and else to a new one. -/
theorem write_spec {m : EvidenceManager N} {closed : List (N × List Record)} {name : N}
    {rs : List Record} {packet : Bytes} (fileName : Int → N) (now : Int)
    (holds : Holds m totalSize closed name rs)
    (int32 : totalSize < 2 ^ 31) (fits : 24 + 16 + packet.length ≤ totalSize) :
    ∃ m' r, m.write fileName packet now = .ok m' ∧ Written r packet ∧
      ((totalSize < m.evidenceOffset + packet.length + 16 ∧
          Holds m' totalSize (closed ++ [(name, rs)]) (fileName now) [r]) ∨
        (¬totalSize < m.evidenceOffset + packet.length + 16 ∧
          Holds m' totalSize closed name (rs ++ [r]))) := by
  have test : Exceeds m.evidenceOffset packet.length m.totalSize ↔
      totalSize < m.evidenceOffset + packet.length + 16 := by
    rw [holds.size]
    exact exceeds_iff int32 holds.offset_le (by omega)
  unfold write
  by_cases full : totalSize < m.evidenceOffset + packet.length + 16
  · rw [if_pos (test.mpr full)]
    obtain ⟨size, shut, disk⟩ := disable_spec holds
    obtain ⟨m₁, opened, holds₁⟩ := enable_spec fileName now size (by omega) shut disk
    have start : m₁.evidenceOffset = 24 := holds₁.offset.trans fileBytes_nil_length
    obtain ⟨m₂, r, appended, written, holds₂⟩ := append_spec packet holds₁ int32 (by omega)
    rw [opened]
    exact ⟨m₂, r, appended, written, Or.inl ⟨full, holds₂⟩⟩
  · rw [if_neg (fun exceeds => full (test.mp exceeds))]
    obtain ⟨m₂, r, appended, written, holds₂⟩ := append_spec packet holds int32 (by omega)
    exact ⟨m₂, r, appended, written, Or.inr ⟨full, holds₂⟩⟩

/-! ### Sessions -/

/-- The files that a session leaves when it ends here. -/
def segments (closed : List (N × List Record)) (name : N) (rs : List Record) :
    List (N × List Record) := closed ++ [(name, rs)]

/-- A file is closed only for a packet that would fit into an empty one. -/
def Filled (files : List (N × List Record)) : Prop :=
  files.length ≤ 1 ∨ ∀ f ∈ files, f.2 ≠ []

theorem filled_rotate {m : EvidenceManager N} {closed : List (N × List Record)} {name : N}
    {rs : List Record} {n : Nat} (name' : N) (r : Record) (holds : Holds m totalSize closed name rs)
    (filled : Filled (segments closed name rs)) (full : totalSize < m.evidenceOffset + n + 16)
    (fits : 24 + 16 + n ≤ totalSize) :
    Filled (segments (closed ++ [(name, rs)]) name' [r]) := by
  have busy : rs ≠ [] := by
    intro empty
    have offset := holds.offset
    rw [empty, fileBytes_nil_length] at offset
    omega
  refine Or.inr fun f member => ?_
  rcases List.mem_append.mp member with old | new
  · rcases filled with short | all
    · cases closed with
      | nil =>
        rw [List.mem_singleton.mp old]
        exact busy
      | cons g rest => exact absurd short (by simp [segments])
    · exact all f old
  · rw [List.mem_singleton.mp new]
    simp

omit [DecidableEq N] in
theorem filled_append {closed : List (N × List Record)} {name : N} {rs : List Record}
    (filled : Filled (segments closed name rs)) (r : Record) :
    Filled (segments closed name (rs ++ [r])) := by
  rcases filled with short | all
  · left
    simpa [segments] using short
  · right
    intro f member
    rcases List.mem_append.mp member with old | new
    · exact all f (List.mem_append_left _ old)
    · rw [List.mem_singleton.mp new]
      simp

/-- What a run leaves of the writes `ws`: the names of the files it opened, and the records. -/
structure Ends (fileName : Int → N) (totalSize : Nat) (before : List (N × List Record))
    (times : List Int) (ws : List (Bytes × Int)) (x : Except Fault (EvidenceManager N))
    (after : List (N × List Record)) : Prop where
  disk : ∃ m, x = .ok m ∧
    m.disable.disk = (putAll [] after).map fun f => (f.1, fileBytes f.2)
  filled : Filled after
  names : after.map Prod.fst = before.map Prod.fst ++ times.map fileName
  records : ∃ rs, contents after = contents before ++ rs ∧
    List.Forall₂ Written rs (ws.map Prod.fst)

theorem run_spec {m : EvidenceManager N} {closed : List (N × List Record)} {name : N}
    {rs : List Record} {ws : List (Bytes × Int)} (holds : Holds m totalSize closed name rs)
    (int32 : totalSize < 2 ^ 31) (fits : ∀ w ∈ ws, 24 + 16 + w.1.length ≤ totalSize)
    (filled : Filled (segments closed name rs)) :
    Transition.Always (step fileName) Bounded (.ok m) ws ∧
      ∃ x, Transition.run (step fileName) (.ok m) ws = some x ∧
        ∃ after, Ends fileName totalSize (segments closed name rs)
          (openings totalSize m.evidenceOffset ws) ws x after := by
  induction ws generalizing m closed name rs with
  | nil =>
    refine ⟨holds.bounded, _, rfl, segments closed name rs, ⟨m, rfl, (disable_spec holds).2.2⟩,
      filled, ?_, [], ?_, .nil⟩
    · simp [openings]
    · simp
  | cons w rest ih =>
    obtain ⟨packet, now⟩ := w
    have fit : 24 + 16 + packet.length ≤ totalSize := fits _ List.mem_cons_self
    have later : ∀ w ∈ rest, 24 + 16 + w.1.length ≤ totalSize :=
      fun w member => fits w (List.mem_cons_of_mem _ member)
    obtain ⟨m', r, ran, written, way⟩ := write_spec fileName now holds int32 fit
    have stepped : step fileName (.ok m) (packet, now) = some (.ok m') := congrArg some ran
    have run : Transition.run (step fileName) (.ok m) ((packet, now) :: rest) =
        Transition.run (step fileName) (.ok m') rest := by
      rw [Transition.run_cons, stepped]
      rfl
    rw [run]
    have bounded : Transition.Always (step fileName) Bounded (.ok m') rest →
        Transition.Always (step fileName) Bounded (.ok m) ((packet, now) :: rest) := by
      intro always
      refine ⟨holds.bounded, fun t reached => ?_⟩
      obtain rfl := Option.some.inj (stepped.symm.trans reached)
      exact always
    have data : r.data.length = packet.length := congrArg List.length written.2
    unfold openings
    rcases way with ⟨full, holds'⟩ | ⟨room, holds'⟩
    · have filled' := filled_rotate (fileName now) r holds filled full fit
      obtain ⟨always, x, reached, after, ends⟩ := ih holds' later filled'
      have offset : m'.evidenceOffset = 24 + 16 + packet.length := by
        rw [holds'.offset, ← data]
        exact fileBytes_append_length [] r
      rw [if_pos full, ← offset]
      refine ⟨bounded always, x, reached, after, ends.disk, ends.filled, ?_, ?_⟩
      · rw [ends.names]
        simp [segments]
      · obtain ⟨more, same, each⟩ := ends.records
        refine ⟨r :: more, ?_, .cons written each⟩
        rw [same]
        simp [segments, contents]
    · have filled' := filled_append filled r
      obtain ⟨always, x, reached, after, ends⟩ := ih holds' later filled'
      have offset : m'.evidenceOffset = m.evidenceOffset + 16 + packet.length := by
        rw [holds'.offset, holds.offset, ← data]
        exact fileBytes_append_length rs r
      rw [if_neg room, ← offset]
      refine ⟨bounded always, x, reached, after, ends.disk, ends.filled, ?_, ?_⟩
      · rw [ends.names]
        simp [segments]
      · obtain ⟨more, same, each⟩ := ends.records
        refine ⟨r :: more, ?_, .cons written each⟩
        rw [same]
        simp [segments, contents]

omit [DecidableEq N] in
theorem decodeFiles_map (files : List (N × List Record)) :
    decodeFiles (files.map fun f => (f.1, fileBytes f.2)) = some (contents files) := by
  induction files with
  | nil => rfl
  | cons f rest ih =>
    have decoded : Pcap.decode (fileBytes f.2) = some f.2 := Pcap.decode_encode pcapHeader f.2
    rw [List.map_cons]
    unfold decodeFiles
    rw [decoded, ih]
    rfl

theorem written_map {rs : List Record} {packets : List Bytes}
    (each : List.Forall₂ Written rs packets) :
    rs.map (fun r => (r.len.toNat, r.data)) = packets.map fun p => (p.length, p) := by
  induction each with
  | nil => rfl
  | cons written _ ih =>
    obtain ⟨len, data⟩ := written
    rw [List.map_cons, List.map_cons, ih, len, data]

/-- The packets of a session can be read back exactly when its files have different names. -/
theorem roundTrips_iff (fileName : Int → N) (s : Session) :
    RoundTrips fileName s ↔
      ((s.start :: openings s.totalSize 24 s.writes).map fileName).Nodup := by
  have room : 24 ≤ s.totalSize := Nat.le_trans (by decide) s.room
  have empty : ({ totalSize := s.totalSize } : EvidenceManager N).disk =
      (putAll [] []).map fun f => (f.1, fileBytes f.2) := rfl
  obtain ⟨m, opens, holds⟩ := enable_spec fileName s.start rfl room rfl empty
  obtain ⟨always, x, reached, after, ends⟩ :=
    run_spec holds s.int32 s.fits (Or.inl (Nat.le_refl 1))
  have start : opened fileName s = .ok m := opens
  have offset : m.evidenceOffset = 24 := holds.offset.trans fileBytes_nil_length
  obtain ⟨m', rfl, disk⟩ := ends.disk
  obtain ⟨rs, records, each⟩ := ends.records
  have names : after.map Prod.fst =
      (s.start :: openings s.totalSize 24 s.writes).map fileName := by
    rw [ends.names, offset]
    rfl
  have kept : contents after = rs := records.trans (List.nil_append rs)
  have decoded : decodeFiles m'.disable.disk = some (contents (putAll [] after)) := by
    rw [disk, decodeFiles_map]
  rw [← names, ← Directory.putAll_complete_iff ends.filled]
  constructor
  · rintro ⟨-, y, reached', m'', same, rs', decoded', equal⟩
    rw [start] at reached'
    obtain rfl := Option.some.inj (reached.symm.trans reached')
    obtain rfl := Option.some.inj same
    obtain rfl := Option.some.inj (decoded.symm.trans decoded')
    have length := congrArg List.length (equal.trans (written_map each).symm)
    rw [List.length_map, List.length_map] at length
    rw [kept]
    exact length
  · intro complete
    have nodup := (Directory.putAll_complete_iff ends.filled).mp complete
    refine ⟨start ▸ always, _, start ▸ reached, m', rfl, _, decoded, ?_⟩
    rw [Directory.putAll_of_nodup (by simpa using nodup), List.nil_append, kept]
    exact written_map each

/-- Two packets that do not fit into one file, within one second. -/
theorem not_roundTrips : ¬∀ s, RoundTrips (id : Int → Int) s := by
  intro h
  have decoded := (h
    { totalSize := 42
      int32 := by decide
      start := 0
      writes := [([1, 2], 0), ([3, 4], 0)]
      room := by decide
      fits := by decide }).decoded
  obtain ⟨x, reached, m, same, rs, read, equal⟩ := decoded
  obtain rfl := Option.some.inj reached
  obtain rfl := Option.some.inj same
  obtain rfl := Option.some.inj read
  exact absurd equal (by decide +kernel)

end EvidenceManager

end AIEngine
