import AIEngine.Http.Body
import AIEngine.Http.HeaderBlocks

/-!
# The accounts of the data

In every state of every run: what the regexes are given lies inside the packet, the octets that are
counted are octets of the packet, and no more data is awaited than was announced, unless a header ends
outside of its packet.
-/

namespace AIEngine

/-- An `int16_t` holds the place, and it lies in the packet. -/
def EndsInside (place length : Nat) : Prop := place % 65536 < 32768 ∧ place % 65536 ≤ length

instance (place length : Nat) : Decidable (EndsInside place length) :=
  inferInstanceAs (Decidable (_ ∧ _))

namespace HTTPProtocol

theorem int16_inside_iff (place length : Nat) :
    (0 ≤ int16 place ∧ int16 place ≤ length) ↔ EndsInside place length := by
  unfold int16 EndsInside
  rw [Int.bmod_def]
  split <;> omega

variable {p : HttpPacket}

theorem headerSize_bounds (ban : Option (Bytes → Bool)) (p : HttpPacket) :
    -32768 ≤ headerSize ban p ∧ headerSize ban p ≤ 32767 := by
  unfold headerSize int16
  rw [Int.bmod_def]
  split <;> omega

theorem headerEnd_le (ban : Option (Bytes → Bool)) (inside : headerStart p ≤ p.payload.length) :
    headerEnd ban p ≤ p.payload.length := by
  unfold headerEnd
  split
  · rename_i both
    have found := headerLines_long both.1 both.2
    rw [← (HTTPHeader.scan_text (p.payload.drop (headerStart p))).2]
    have rest : (p.payload.drop (headerStart p)).length = p.payload.length - headerStart p :=
      List.length_drop
    have all : HTTPHeader.size (p.payload.drop (headerStart p)) {} (p.payload.drop (headerStart p)) ≤
        0 + (p.payload.drop (headerStart p)).length := HTTPHeader.size_le _ _
    cases banned : bannedAt ban (headerLines p) with
    | none =>
      simp only [Option.getD_none, Nat.zero_add] at all ⊢
      omega
    | some k =>
      obtain ⟨l, stopped, rfl⟩ := Option.map_eq_some_iff.mp banned
      have member : l ∈ headerLines p := List.mem_of_find?_eq_some stopped
      rw [found] at member
      have place := HTTPHeader.lines_le _ _ l member
      simp only [Option.getD_some, Nat.zero_add] at place ⊢
      omega
  · exact inside

theorem headerStart_le (p : HttpPacket) : headerStart p ≤ p.payload.length + 3 := by
  unfold headerStart
  split
  · split
    · rename_i k lineEnd
      have bound := Octets.find_le lineEnd
      have two : (Octets.ascii "\r\n").length = 2 := by decide
      omega
    · exact Nat.zero_le _
  · split
    · split
      · rename_i k version
        have bound := Octets.find_le version
        have seven : (Octets.ascii "HTTP/1.").length = 7 := by decide
        omega
      · exact Nat.zero_le _
    · exact Nat.zero_le _

/-- The header of a packet that is not too long leaves the packet only if the version of a request is
cut off. -/
theorem endsInside_short (ban : Option (Bytes → Bool)) (short : p.payload.length < 32768) :
    EndsInside (headerEnd ban p) p.payload.length ↔ headerStart p ≤ p.payload.length := by
  unfold EndsInside
  by_cases inside : headerStart p ≤ p.payload.length
  · have before := headerEnd_le ban inside
    refine iff_of_true ?_ inside
    omega
  · have start := headerStart_le p
    have last : headerEnd ban p = headerStart p := if_neg fun both => inside (by omega)
    rw [last]
    refine iff_of_false ?_ inside
    omega

end HTTPProtocol

namespace Body

open HTTPProtocol

variable {b : Body} {ban : Option (Bytes → Bool)} {p : HttpPacket}

/-- Some data is still to come, and an `int` tells how much; or there is none. -/
structure Awaits (b : Body) : Prop where
  some : b.haveData = true → 0 < b.dataChunkLength ∧ b.dataChunkLength ≤ 2147483647
  none : b.haveData = false → b.dataChunkLength = 0

theorem awaits_fresh : Awaits { direction := .none, haveData := false, dataChunkLength := 0 } :=
  ⟨fun no => absurd no (by simp), fun _ => rfl⟩

theorem awaits_take (data : b.haveData = true) (n : Int) : (b.take n).Awaits := by
  unfold take
  split
  · rename_i more
    exact ⟨fun _ => ⟨more, (Counter.int32_bounds _).2⟩, fun no => absurd (data.symm.trans no) (by simp)⟩
  · exact ⟨fun no => absurd no (by simp), fun _ => rfl⟩

theorem awaits_turn (direction : FlowDirection) (awaits : b.Awaits) : (b.turn direction).Awaits :=
  ⟨awaits.some, awaits.none⟩

theorem awaits_afterHeader (p : HttpPacket) (headerSize : Int)
    (idle : b.haveData = false → b.dataChunkLength = 0) :
    (b.afterHeader p headerSize).body.Awaits := by
  unfold afterHeader
  split
  · rename_i data
    exact awaits_turn _ (awaits_take data _)
  · rename_i noData
    exact ⟨fun data => absurd data noData, idle⟩

theorem awaits_packet (awaits : b.Awaits) : (b.packet ban p).body.Awaits := by
  unfold packet
  split
  · split
    · rename_i data
      exact awaits_turn _ (awaits_take data _)
    · exact awaits
  · refine awaits_afterHeader p _ fun idle => ?_
    cases length : announced ban (headerLines p) with
    | none =>
      rw [length] at idle
      exact awaits.none idle
    | some n =>
      rw [length] at idle
      exact absurd idle (by simp [announce])

/-- What is still to come after some of the data has come. -/
theorem pending_take (data : b.haveData = true) (n : Int) :
    (b.take n).pending = max 0 (Counter.int32 (b.dataChunkLength - n)) := by
  unfold take
  split
  · rename_i more
    simp only [pending, data, if_true]
    omega
  · simp only [pending, Bool.false_eq_true, if_false]
    omega

theorem announce_none (b : Body) : b.announce none = b := rfl

/-- Data that comes is taken off what is still to come. -/
theorem pending_taken (awaits : b.Awaits) (data : b.haveData = true) {n : Int} (some : 0 ≤ n)
    (few : n ≤ 2147483647) : (b.take n).pending ≤ b.pending := by
  obtain ⟨positive, fits⟩ := awaits.some data
  have before : b.pending = b.dataChunkLength := if_pos data
  rw [pending_take data, Counter.int32_of_fits (by omega) (by unfold Counter.top; omega)]
  omega

/-- A packet without an announced length never adds to what is still to come, if no more octets are
counted than there are. -/
theorem pending_afterHeader {headerSize : Int} (awaits : b.Awaits)
    (counted : 0 ≤ (b.afterHeader p headerSize).count) :
    (b.afterHeader p headerSize).body.pending ≤ b.pending := by
  unfold afterHeader at counted ⊢
  split
  · rename_i data
    rw [if_pos data] at counted
    exact pending_taken awaits data counted (Counter.int32_bounds _).2
  · exact Int.le_refl _

theorem pending_packet (awaits : b.Awaits) (measured : p.Measured)
    (counted : 0 ≤ (b.packet ban p).count)
    (grows : b.pending < (b.packet ban p).body.pending) :
    b.direction ≠ p.direction ∧ (announced ban (headerLines p)).isSome = true := by
  by_cases same : b.direction = p.direction
  · exfalso
    by_cases data : b.haveData = true
    · rw [packet_data same data] at grows
      have taken := pending_taken awaits data (Int.natCast_nonneg p.payload.length)
        (by unfold HttpPacket.Measured at measured; omega)
      exact absurd grows (Int.not_lt.mpr taken)
    · rw [packet_noData same data] at grows
      exact absurd grows (Int.lt_irrefl _)
  · refine ⟨same, ?_⟩
    unfold packet at counted grows
    rw [if_neg same] at counted grows
    cases length : announced ban (headerLines p) with
    | some n => rfl
    | none =>
      rw [length, announce_none] at counted grows
      exact absurd grows (Int.not_lt.mpr (pending_afterHeader awaits counted))

end Body

/-- What is counted and given away lies inside the packet. -/
structure Passed.Inside (passed : Passed) (length : Nat) : Prop where
  slices : ∀ sl ∈ passed.slices, 0 ≤ sl.start ∧ 0 ≤ sl.length ∧ sl.start + sl.length ≤ length
  counted : 0 ≤ passed.count ∧ passed.count ≤ length

namespace Body

open HTTPProtocol

variable {b : Body} {ban : Option (Bytes → Bool)} {p : HttpPacket}

/-- The octets behind a header that ends outside the packet are too many or less than none, whether
the difference fits into an `int` or not. -/
theorem counted_iff {length : Nat} (measured : length < 2147483648) {headerSize : Int}
    (low : -32768 ≤ headerSize) (high : headerSize ≤ 32767) :
    (0 ≤ Counter.int32 (length - headerSize) ∧ Counter.int32 (length - headerSize) ≤ length) ↔
      0 ≤ headerSize ∧ headerSize ≤ length := by
  unfold Counter.int32
  rw [Int.bmod_def]
  split <;> omega

theorem inside_afterHeader (b : Body) (measured : p.Measured) {headerSize : Int}
    (low : -32768 ≤ headerSize) (high : headerSize ≤ 32767) :
    (b.afterHeader p headerSize).Inside p.payload.length ↔
      (b.haveData = true → 0 ≤ headerSize ∧ headerSize ≤ p.payload.length) := by
  rw [← counted_iff measured low high]
  unfold afterHeader
  by_cases data : b.haveData = true
  · rw [if_pos data]
    constructor
    · rintro ⟨-, counted⟩ -
      exact counted
    · intro inside
      refine ⟨fun sl member => ?_, inside data⟩
      have bounds := (counted_iff measured low high).mp (inside data)
      have exactly : Counter.int32 (p.payload.length - headerSize) = p.payload.length - headerSize :=
        Counter.int32_of_fits (by omega) (by
          unfold HttpPacket.Measured at measured
          unfold Counter.top
          omega)
      simp only [exactly] at member
      split at member
      · obtain rfl := List.mem_singleton.mp member
        simp only
        omega
      · exact absurd member (by simp)
  · rw [if_neg data]
    refine iff_of_true ⟨fun sl member => absurd member (by simp), ?_⟩ fun also => absurd also data
    simp only
    omega

/-- Data behind a header that does not end inside its packet. -/
def Strays (b : Body) (ban : Option (Bytes → Bool)) (p : HttpPacket) : Prop :=
  b.direction ≠ p.direction ∧
    (b.haveData = true ∨ (announced ban (headerLines p)).isSome = true) ∧
    ¬EndsInside (headerEnd ban p) p.payload.length

theorem announce_data (b : Body) (n : Option Int) :
    (b.announce n).haveData = true ↔ b.haveData = true ∨ n.isSome = true := by
  cases n with
  | none => simp [announce]
  | some n => simp [announce]

theorem inside_packet (b : Body) (ban : Option (Bytes → Bool)) (measured : p.Measured) :
    (b.packet ban p).Inside p.payload.length ↔ ¬b.Strays ban p := by
  unfold Strays
  by_cases same : b.direction = p.direction
  · refine iff_of_true ?_ fun strays => strays.1 same
    by_cases data : b.haveData = true
    · rw [packet_data same data]
      refine ⟨fun sl member => ?_, by simp only; omega⟩
      obtain rfl := List.mem_singleton.mp member
      simp only
      omega
    · rw [packet_noData same data]
      exact ⟨fun sl member => absurd member (by simp), by simp only; omega⟩
  · have packet : (b.packet ban p).Inside p.payload.length ↔
        ((b.announce (announced ban (headerLines p))).afterHeader p (headerSize ban p)).Inside
          p.payload.length := by
      unfold packet
      rw [if_neg same]
      exact ⟨fun inside => ⟨inside.1, inside.2⟩, fun inside => ⟨inside.1, inside.2⟩⟩
    obtain ⟨low, high⟩ := headerSize_bounds ban p
    rw [packet, inside_afterHeader _ measured low high, announce_data]
    unfold headerSize
    rw [int16_inside_iff]
    constructor
    · rintro inside ⟨-, data, strays⟩
      exact strays (inside data)
    · intro fine data
      by_contra strays
      exact fine ⟨same, data, strays⟩

end Body

namespace HTTPProtocol

variable {s t : HTTPProtocol} {a : Obj} {p : HttpPacket} {b : Body}

/-! ### One packet -/

/-- The data that the flow still waits for. -/
def pendingData (s : HTTPProtocol) (a : Obj) : Int := ((s.tracked a).map fun k => k.body.pending).getD 0

/-- The packet is parsed, and one of its lines announces a length. -/
def Announces (s : HTTPProtocol) (a : Obj) (p : HttpPacket) : Prop :=
  ∃ b, s.tracked a = some { banned := false, body := b } ∧ b.direction ≠ p.direction ∧
    (announced s.banDomains (headerLines p)).isSome = true

structure Accounts (a : Obj) (p : HttpPacket) (s t : HTTPProtocol) : Prop where
  slices : ∃ given : List (Obj × Slice), t.payloads7 = given ++ s.payloads7 ∧
    ∀ x ∈ given, 0 ≤ x.2.start ∧ 0 ≤ x.2.length ∧ x.2.start + x.2.length ≤ p.payload.length
  counted : 0 ≤ t.totalL7Bytes - s.totalL7Bytes ∧
    t.totalL7Bytes - s.totalL7Bytes ≤ p.payload.length
  grows : s.pendingData a < t.pendingData a → s.Announces a p

/-- The flow of the packet has data to come, announced before or by the packet, and the header of the
packet does not end inside it. -/
def StraysData (s : HTTPProtocol) (a : Obj) (p : HttpPacket) : Prop :=
  ∃ b, s.tracked a = some { banned := false, body := b } ∧ b.Strays s.banDomains p

/-- Every info that has data to come waits for at least one octet, and for no more than an `int` can
tell. -/
def Awaiting (s : HTTPProtocol) : Prop := ∀ i, (s.infos i).body.Awaits

theorem tracked_awaits {k : Tracked} (awaiting : s.Awaiting) (known : s.tracked a = some k) :
    k.body.Awaits := by
  unfold tracked infoState at known
  split at known
  · rename_i i locked
    obtain rfl := Option.some.inj known
    exact awaiting i
  · split at known
    · obtain rfl := Option.some.inj known
      exact Body.awaits_fresh
    · exact absurd known (by simp)

theorem accounts_iff (awaiting : s.Awaiting) (measured : p.Measured) (h : s.processFlow a p = .ok t) :
    Accounts a p s t ↔ ¬s.StraysData a p := by
  by_cases listened : ∃ b, s.tracked a = some { banned := false, body := b }
  · obtain ⟨b, known⟩ := listened
    obtain ⟨after, total, payloads⟩ := processFlow_tracked h known
    have awaits : b.Awaits := tracked_awaits awaiting known
    have strays : s.StraysData a p ↔ b.Strays s.banDomains p := by
      constructor
      · rintro ⟨b', known', strays⟩
        obtain ⟨-, rfl⟩ := Tracked.mk.inj (Option.some.inj (known.symm.trans known'))
        exact strays
      · exact fun strays => ⟨b, known, strays⟩
    rw [strays, ← Body.inside_packet b s.banDomains measured]
    have before : s.pendingData a = b.pending := by
      unfold pendingData
      rw [known]
      rfl
    have later : t.pendingData a = (b.packet s.banDomains p).body.pending := by
      unfold pendingData
      rw [after]
      rfl
    constructor
    · rintro ⟨⟨given, same, inside⟩, counted, -⟩
      obtain rfl := List.append_cancel_right (payloads.symm.trans same)
      refine ⟨fun sl member => ?_, by omega⟩
      exact inside (a, sl) (List.mem_map_of_mem member)
    · rintro ⟨inside, counted⟩
      refine ⟨⟨_, payloads, fun x member => ?_⟩, by omega, fun grows => ?_⟩
      · obtain ⟨sl, handed, rfl⟩ := List.mem_map.mp member
        exact inside sl handed
      · rw [before, later] at grows
        exact ⟨b, known, Body.pending_packet awaits measured counted.1 grows⟩
  · have idle : ∀ b, s.tracked a ≠ some { banned := false, body := b } :=
      fun b known => listened ⟨b, known⟩
    obtain ⟨after, total, payloads⟩ := processFlow_untracked h idle
    refine iff_of_true ⟨⟨[], payloads, fun x no => absurd no (by simp)⟩, ?_, fun grows => ?_⟩ ?_
    · omega
    · unfold pendingData at grows
      rw [after] at grows
      exact absurd grows (Int.lt_irrefl _)
    · rintro ⟨b, known, -⟩
      exact idle b known

/-! ### Runs -/

theorem attachInfo_awaiting {r : Option Obj} (awaiting : s.Awaiting)
    (h : s.attachInfo a = .ok (r, t)) : t.Awaiting := by
  obtain ⟨-, infos, shape, -, each⟩ := attachInfo_keeps h
  rw [shape]
  intro j
  show (infos j).body.Awaits
  rcases each j with same | fresh
  · rw [same]
    exact awaiting j
  · rw [fresh]
    exact Body.awaits_fresh

theorem processFlow_awaiting (awaiting : s.Awaiting) (h : s.processFlow a p = .ok t) :
    t.Awaiting := by
  obtain ⟨r, u, attached, cases⟩ := processFlow_cases h
  have before : u.Awaiting := attachInfo_awaiting (s := { s with httpHeaderSize := 0 }) awaiting attached
  rcases cases with ⟨rfl, -⟩ | ⟨i, -, -, follows⟩
  · exact before
  · intro j
    by_cases same : j = i
    · rw [same, follows.body]
      exact Body.awaits_packet (before i)
    · rw [follows.others j same]
      exact before j

theorem step_awaiting {e : Event} (awaiting : s.Awaiting) (h : s.step e = some t) : t.Awaiting := by
  cases e with
  | openFlow a layer =>
    simp only [step] at h
    split at h
    · exact absurd h (by simp)
    · obtain ⟨w, -, rfl⟩ := Option.map_eq_some_iff.mp h
      exact awaiting
  | packet a p =>
    simp only [step] at h
    split at h
    · exact processFlow_awaiting awaiting (toOption_some h)
    · exact absurd h (by simp)
  | expire a =>
    simp only [step] at h
    split at h
    · obtain rfl := Option.some.inj h
      exact awaiting
    · exact absurd h (by simp)
  | releaseCache =>
    obtain rfl := Option.some.inj h
    exact awaiting
  | managers ban domains names =>
    obtain rfl := Option.some.inj h
    exact awaiting
  | memory sight =>
    obtain rfl := Option.some.inj h
    exact awaiting

theorem always_awaiting (objects : CacheId → Nat) (layer : Option Nat) (events : List Event) :
    Transition.Always step Awaiting (start objects layer) events :=
  Transition.always_of_inv (fun _ _ _ => step_awaiting) fun _ => Body.awaits_fresh

/-- In every state of every run, the next packet is accounted for exactly when no data strays. -/
theorem always_accounts_iff (objects : CacheId → Nat) (layer : Option Nat) (events : List Event) :
    Transition.Always step
      (fun s => ∀ a p t, p.Measured → s.processFlow a p = .ok t →
        (Accounts a p s t ↔ ¬s.StraysData a p))
      (start objects layer) events :=
  Transition.always_mono
    (fun _ awaiting _ _ _ measured returned => accounts_iff awaiting measured returned)
    (always_awaiting objects layer events)

/-- A response waits for a hundred octets when a request comes whose version is cut off. -/
theorem not_always_accounts :
    ¬∀ objects layer events, Transition.Always step
      (fun s => ∀ a p t, p.Measured → s.processFlow a p = .ok t → Accounts a p s t)
      (start objects layer) events := by
  intro h
  have counted : ((Transition.run step (start (fun _ => 1) (some 0))
      [.openFlow ⟨.flow 0, 0⟩ 0, .packet ⟨.flow 0, 0⟩
        { payload := Octets.ascii "HTTP/1.1 200 OK\r\nContent-Length: 100\r\n\r\n"
          direction := .backward }]).bind fun s =>
      (s.processFlow ⟨.flow 0, 0⟩
        { payload := Octets.ascii "GET / HTTP/1.", direction := .forward }).toOption.map
          fun t => t.totalL7Bytes - s.totalL7Bytes) = some (-3) := by decide +kernel
  obtain ⟨s, reached, returned⟩ := Option.bind_eq_some_iff.mp counted
  obtain ⟨t, returned, fewer⟩ := Option.map_eq_some_iff.mp returned
  have accounts := Transition.always_final (h _ _ _) reached _ _ _ (by
    unfold HttpPacket.Measured
    decide) (toOption_some returned)
  have positive := accounts.counted.1
  omega

end HTTPProtocol

end AIEngine
