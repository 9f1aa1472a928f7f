import AIEngine.Http.BodyRuns
import AIEngine.Http.Messages
import AIEngine.Http.OtherFlows
import AIEngine.Http.RequestRuns

/-!
# Following the data of a message

The packet with a header says how much data its message has. From there on the packets of that
direction bring the data, and between them come the packets of other flows.
-/

namespace AIEngine

/-- So much data is missing. -/
def Body.awaited (direction : FlowDirection) (missing : Int) : Body where
  direction := direction
  haveData := decide (0 < missing)
  dataChunkLength := max 0 missing

theorem Body.awaited_more {d : FlowDirection} {missing : Int} (more : 0 < missing) :
    awaited d missing = { direction := d, haveData := true, dataChunkLength := missing } := by
  unfold awaited
  rw [decide_eq_true more, Int.max_eq_right (Int.le_of_lt more)]

theorem Body.awaited_complete {d : FlowDirection} {missing : Int} (complete : ¬0 < missing) :
    awaited d missing = { direction := d, haveData := false, dataChunkLength := 0 } := by
  unfold awaited
  rw [decide_eq_false complete, Int.max_eq_left (Int.not_lt.mp complete)]

theorem Body.awaited_congr {m n : Int} (d : FlowDirection) (same : max 0 m = max 0 n) :
    awaited d m = awaited d n := by
  have both : 0 < m ↔ 0 < n := by omega
  unfold awaited
  rw [same, decide_eq_decide.mpr both]

theorem Body.take_awaited {b : Body} (data : b.haveData = true) (d : FlowDirection) (n : Int) :
    (b.take n).turn d = awaited d (Counter.int32 (b.dataChunkLength - n)) := by
  unfold take turn
  by_cases more : 0 < Counter.int32 (b.dataChunkLength - n)
  · rw [if_pos more, awaited_more more, data]
  · rw [if_neg more, awaited_complete more]

namespace HTTPProtocol

open HTTPHeader World

variable {s t : HTTPProtocol} {a i : Obj} {p q : HttpPacket} {m : MessageHeader} {e : Event}
  {ban : Option (Bytes → Bool)} {ls : List Line} {d : FlowDirection} {missing : Int}

/-! ### The length that a header announces -/

theorem lengthOf_other {l : Line} (other : l.2.1 ≠ .contentLength) : lengthOf l = none := by
  unfold lengthOf
  cases q : l.2.1 with
  | contentLength => exact absurd q other
  | _ => rfl

theorem announced_same {n : Int} (kept : ¬∃ l ∈ ls, BannedHost ban l)
    (same : ∀ l ∈ ls, l.2.1 = .contentLength → stoi l.2.2 = .ok n) :
    announced ban ls = if ∃ l ∈ ls, l.2.1 = .contentLength then some n else none := by
  induction ls with
  | nil => simp [announced]
  | cons l rest ih =>
    have allowed : ¬BannedHost ban l := fun banned => kept ⟨l, List.mem_cons_self, banned⟩
    have kept' : ¬∃ l ∈ rest, BannedHost ban l := by
      rintro ⟨l', member, banned⟩
      exact kept ⟨l', List.mem_cons_of_mem _ member, banned⟩
    have later := ih kept' fun l' member => same l' (List.mem_cons_of_mem _ member)
    rw [announced, if_neg allowed, later]
    by_cases length : l.2.1 = .contentLength
    · have some_length : ∃ l' ∈ l :: rest, l'.2.1 = .contentLength := ⟨l, List.mem_cons_self, length⟩
      have mine : lengthOf l = some n := by
        unfold lengthOf
        rw [length, same l List.mem_cons_self length]
      rw [mine, if_pos some_length]
      split <;> rfl
    · have rest_length : (∃ l' ∈ l :: rest, l'.2.1 = .contentLength) ↔
          ∃ l' ∈ rest, l'.2.1 = .contentLength := by simp [length]
      simp only [rest_length, lengthOf_other length, Option.or_none]

theorem read_announces (read : Read ban p m) (kept : ¬∃ l ∈ headerLines p, BannedHost ban l)
    (fits : m.length < 2147483648) : announced ban (headerLines p) = some (m.length : Int) := by
  have number : intOf m.length = .ok (m.length : Int) := if_pos (by omega)
  rw [announced_same kept fun l member length => (read.lengths l member length).trans number,
    if_pos read.some_length]

theorem overflowing_read (read : Read ban p m) (kept : ¬∃ l ∈ headerLines p, BannedHost ban l) :
    Overflowing ban (headerLines p) ↔ 2147483648 ≤ m.length := by
  constructor
  · rintro ⟨pre, l, post, split, overflows, -⟩
    obtain ⟨length, threw⟩ := overflows_iff.mp overflows
    have member : l ∈ headerLines p := split ▸ List.mem_append_right _ List.mem_cons_self
    have number := (read.lengths l member length).symm.trans threw
    by_contra small
    rw [intOf, if_pos (by omega)] at number
    exact absurd number (by simp)
  · intro large
    obtain ⟨l, member, length⟩ := read.some_length
    obtain ⟨pre, post, split⟩ := List.append_of_mem member
    refine ⟨pre, l, post, split, overflows_iff.mpr ⟨length, ?_⟩, fun l earlier banned => kept ⟨l, ?_, banned⟩⟩
    · rw [read.lengths l member length, intOf, if_neg (by omega)]
    · rw [split]
      exact List.mem_append_left _ earlier

/-- What is left of the announced length behind the end of the header. -/
def leftBehind (ban : Option (Bytes → Bool)) (p : HttpPacket) : Int :=
  match announced ban (headerLines p) with
  | none => 0
  | some n => Counter.int32 (n - Counter.int32 (p.payload.length - headerSize ban p))

theorem leftBehind_le (ban : Option (Bytes → Bool)) (p : HttpPacket) :
    leftBehind ban p ≤ 2147483647 := by
  unfold leftBehind
  split
  · decide
  · exact (Counter.int32_bounds _).2

/-- What a packet has done to an info that was ready for it. -/
theorem packet_ready (ban : Option (Bytes → Bool)) {b : Body} (idle : b.haveData = false) (nothing : b.dataChunkLength = 0)
    (other : b.direction ≠ p.direction) :
    (b.packet ban p).body = .awaited p.direction (leftBehind ban p) ∧
      (b.packet ban p).banned = (bannedAt ban (headerLines p)).isSome ∧
      (b.packet ban p).slices =
        if 0 < leftBehind ban p then
          [{ start := headerSize ban p
             length := Counter.int32 (p.payload.length - headerSize ban p) }]
        else [] := by
  unfold Body.packet leftBehind
  rw [if_neg other]
  cases length : announced ban (headerLines p) with
  | none =>
    unfold Body.afterHeader
    rw [Body.announce_none, if_neg (by simp [idle])]
    refine ⟨?_, rfl, rfl⟩
    simp only [Body.awaited, Body.turn, idle, nothing]
    rfl
  | some n =>
    have data : (b.announce (some n)).haveData = true := rfl
    unfold Body.afterHeader
    rw [if_pos data]
    exact ⟨Body.take_awaited data _ _, rfl, rfl⟩

/-- A packet of the same direction brings data, as long as some is missing. -/
theorem packet_awaited (ban : Option (Bytes → Bool)) (fits : missing ≤ 2147483647)
    (measured : p.Measured) (same : p.direction = d) :
    ((Body.awaited d missing).packet ban p).banned = false ∧
      ((Body.awaited d missing).packet ban p).body = .awaited d (missing - p.payload.length) ∧
      ((Body.awaited d missing).packet ban p).slices =
        if 0 < missing then [{ start := 0, length := p.payload.length }] else [] := by
  have direction : (Body.awaited d missing).direction = p.direction := same.symm
  by_cases more : 0 < missing
  · have data : (Body.awaited d missing).haveData = true := decide_eq_true more
    have exactly : Counter.int32 (missing - p.payload.length) = missing - p.payload.length :=
      Counter.int32_of_fits (by unfold HttpPacket.Measured at measured; omega)
        (by unfold Counter.top; omega)
    rw [Body.packet_data direction data, if_pos more, Body.take_awaited data, same]
    refine ⟨rfl, ?_, rfl⟩
    rw [Body.awaited_more more]
    exact congrArg (Body.awaited d) exactly
  · have noData : ¬(Body.awaited d missing).haveData = true := by simp [Body.awaited, more]
    rw [Body.packet_noData direction noData, if_neg more, Body.awaited_complete more,
      Body.awaited_complete (by omega)]
    exact ⟨rfl, rfl, rfl⟩

/-! ### Packets -/

/-- The flow is open, its info waits for this much, and packets are looked at unless it has been
banned. -/
structure Waits (a i : Obj) (d : FlowDirection) (banned : Bool) (missing : Int)
    (s : HTTPProtocol) : Prop where
  live : a ∈ s.world.table
  locked : s.world.lockInfo .http (s.world.flows a) = some i
  banned : (s.world.infos i).isBanned = banned
  body : (s.infos i).body = .awaited d missing
  fits : missing ≤ 2147483647

/-- How many of the octets that come are taken. -/
def taken (banned : Bool) (n : Nat) : Nat := if banned then 0 else n

/-- The data that the packets of a flow are given away for. -/
def leftFor (banned : Bool) (missing : Int) : Nat := if banned then 0 else missing.toNat

theorem attachInfo_same (locked : s.world.lockInfo .http (s.world.flows a) = some i) :
    s.attachInfo a = .ok (some i, s) := by
  unfold attachInfo World.attachInfo
  rw [locked]
  rfl

theorem follows_waits {passed : Passed} {u : HTTPProtocol} (live : a ∈ u.world.table)
    (locked : u.world.lockInfo .http (u.world.flows a) = some i)
    (free : (u.world.infos i).isBanned = false) (follows : Follows a i passed u t)
    (body : passed.body = .awaited d missing) (fits : missing ≤ 2147483647) :
    Waits a i d passed.banned missing t := by
  refine ⟨?_, (keepsInfo_locked follows.kept).trans locked, ?_, follows.body.trans body, fits⟩
  · rw [follows.kept.table]
    exact live
  · rw [follows.kept.banned, free, Bool.false_or]

/-- A packet of the direction of the last one is never refused. -/
theorem processFlow_waits {banned : Bool} (waits : Waits a i d banned missing s)
    (same : p.direction = d) (measured : p.Measured) :
    ∃ t, s.processFlow a p = .ok t ∧
      Waits a i d banned (missing - taken banned p.payload.length) t ∧
      t.payloads7 =
        (if 0 < leftFor banned missing then [(a, { start := 0, length := p.payload.length })] else []) ++
          s.payloads7 := by
  have attached : { s with httpHeaderSize := 0 }.attachInfo a =
      .ok (some i, { s with httpHeaderSize := 0 }) := attachInfo_same waits.locked
  have direction : (s.infos i).direction = p.direction :=
    (congrArg Body.direction waits.body).trans same.symm
  cases banned with
  | true =>
    refine ⟨{ s with httpHeaderSize := 0 }, ?_, ?_, rfl⟩
    · unfold processFlow
      rw [attached]
      exact if_pos waits.banned
    · show Waits a i d true (missing - (0 : Nat)) { s with httpHeaderSize := 0 }
      rw [Int.natCast_zero, Int.sub_zero]
      exact ⟨waits.live, waits.locked, waits.banned, waits.body, waits.fits⟩
  | false =>
    have returns : ∃ t, s.processFlow a p = .ok t := by
      unfold processFlow
      rw [attached]
      simp only [waits.banned, direction, Bool.false_eq_true, if_false, if_true]
      split
      · exact ⟨_, rfl⟩
      · exact ⟨_, rfl⟩
    obtain ⟨t, returned⟩ := returns
    obtain ⟨r, u, got, cases⟩ := processFlow_cases returned
    obtain ⟨rfl, rfl⟩ := Prod.mk.inj (Except.ok.inj (attached.symm.trans got))
    refine ⟨t, returned, ?_⟩
    rcases cases with ⟨-, banned⟩ | ⟨j, mine, -, follows⟩
    · exact absurd (waits.banned.symm.trans (banned i rfl)) (by simp)
    · obtain rfl := Option.some.inj mine
      have body : (({ s with httpHeaderSize := 0 } : HTTPProtocol).infos i).body =
          .awaited d missing := waits.body
      rw [body] at follows
      obtain ⟨unbanned, after, slices⟩ := packet_awaited s.banDomains waits.fits measured same
      have fits := waits.fits
      have after := follows_waits (u := { s with httpHeaderSize := 0 }) waits.live waits.locked
        waits.banned follows after (by omega)
      rw [unbanned] at after
      refine ⟨after, ?_⟩
      have same : 0 < leftFor false missing ↔ 0 < missing := by
        show 0 < missing.toNat ↔ 0 < missing
        omega
      rw [follows.payloads, slices]
      simp only [same]
      split <;> rfl

/-- The info of the flow is not banned, waits for no data, and saw the other direction last. -/
def Ready (s : HTTPProtocol) (a : Obj) (d : FlowDirection) : Prop :=
  ∃ b, s.tracked a = some { banned := false, body := b } ∧ b.haveData = false ∧ b.direction ≠ d

/-- What is left behind a header that is read. -/
theorem left_read {body : Bytes} (read : Read ban p m) (kept : ¬∃ l ∈ headerLines p, BannedHost ban l)
    (fits : m.length < 2147483648) (measured : p.Measured) (short : m.octets.length < 32768)
    (payload : p.payload = m.octets ++ body) :
    headerSize ban p = m.octets.length ∧ leftBehind ban p = m.length - body.length := by
  have size : headerSize ban p = m.octets.length := by
    unfold headerSize
    rw [read.ending]
    exact (int16_fits_iff _).mpr (by omega)
  have whole := congrArg List.length payload
  rw [List.length_append] at whole
  unfold HttpPacket.Measured at measured
  refine ⟨size, ?_⟩
  unfold leftBehind
  rw [read_announces read kept fits, size]
  simp only
  rw [Counter.int32_of_fits (n := (p.payload.length : Int) - m.octets.length) (by omega)
    (by unfold Counter.top; omega), Counter.int32_of_fits (by omega) (by unfold Counter.top; omega)]
  omega

theorem bans_iff : (bannedAt s.banDomains (headerLines p)).isSome = decide (s.Bans p) := by
  refine Bool.eq_iff_iff.mpr ?_
  rw [decide_eq_true_iff, ← Option.ne_none_iff_isSome, ne_eq, bannedAt_none_iff, not_not]
  rfl

/-- What the first packet of a message does to a flow that is ready for it. -/
theorem first_cases (rooted : s.world.HttpRooted) (awaiting : s.Awaiting) (live : a ∈ s.world.table)
    (ready : s.Ready a p.direction) :
    ((∃ t, s.processFlow a p = .ok t) ↔
        ¬Overflowing s.banDomains (headerLines p) ∧ ¬s.LooksUpNothing a p) ∧
      ∀ t, s.processFlow a p = .ok t →
        (∃ i, Waits a i p.direction (decide (s.Bans p)) (leftBehind s.banDomains p) t) ∧
          t.payloads7 =
            (if 0 < leftBehind s.banDomains p then
              [(a, { start := headerSize s.banDomains p
                     length := Counter.int32 (p.payload.length - headerSize s.banDomains p) })]
            else []) ++ s.payloads7 := by
  obtain ⟨b, known, idle, other⟩ := ready
  have nothing : b.dataChunkLength = 0 := (tracked_awaits awaiting known).none idle
  obtain ⟨⟨info, http⟩, state, same⟩ := Option.map_eq_some_iff.mp known
  obtain ⟨i, u, attached, rfl, rfl⟩ :=
    attachInfo_of_state (s := { s with httpHeaderSize := 0 }) state
  obtain ⟨free, rfl⟩ := Tracked.mk.inj same
  have got := attachInfo_ok attached
  have rooted' := rooted_attachInfo rooted got
  have locked := attachInfo_locked got
  have own := rooted_info rooted' locked
  have ban : u.banDomains = s.banDomains := (attachInfo_infoFor attached).2
  obtain ⟨-, payloads, -, -, -⟩ := attachInfo_accounts attached
  have returns : (∃ t, s.processFlow a p = .ok t) ↔
      ¬Overflowing s.banDomains (headerLines p) ∧ ¬s.LooksUpNothing a p := by
    have null := attached_null (p := p) attached own rooted'.stocked rooted'.homed
    rw [← null, processFlow_parsed attached free other, afterInfo_returns_iff rooted'.stocked, ban]
  refine ⟨returns, fun t returned => ?_⟩
  obtain ⟨r, u', got', cases⟩ := processFlow_cases returned
  obtain ⟨rfl, rfl⟩ := Prod.mk.inj (Except.ok.inj (attached.symm.trans got'))
  rcases cases with ⟨-, banned⟩ | ⟨j, mine, -, follows⟩
  · exact absurd (free.symm.trans (banned i rfl)) (by simp)
  · obtain rfl := Option.some.inj mine
    obtain ⟨body, bans, slices⟩ := packet_ready s.banDomains idle nothing other
    rw [ban] at follows
    have live' : a ∈ u.world.table := by
      rw [(attachInfo_spares got).table]
      exact live
    have waits := follows_waits live' locked free follows body (leftBehind_le _ _)
    rw [bans, bans_iff] at waits
    refine ⟨⟨i, waits⟩, ?_⟩
    rw [follows.payloads, payloads, slices]
    split <;> rfl

/-! ### Runs -/

def arriving (a : Obj) : Event → Option HttpPacket
  | .packet b p => if b = a then some p else none
  | _ => none

/-- The octets that come of the flow. -/
def stream (a : Obj) (events : List Event) : Bytes :=
  (events.filterMap (arriving a)).flatMap HttpPacket.payload

/-- How many of them each packet brings. -/
def sizes (a : Obj) (events : List Event) : List Nat :=
  (events.filterMap (arriving a)).map fun p => p.payload.length

/-- The flow goes on in this direction, or something that can happen comes of another flow. -/
def GoesOn (s : HTTPProtocol) (a : Obj) (d : FlowDirection) (e : Event) : Prop :=
  match arriving a e with
  | some p => p.direction = d ∧ p.Measured
  | none => s.Elsewhere a e ∧ ∃ t, s.step e = some t

def Continues (a : Obj) (d : FlowDirection) : HTTPProtocol → List Event → Prop
  | _, [] => True
  | s, e :: later => s.GoesOn a d e ∧ ∀ t, s.step e = some t → Continues a d t later

theorem arriving_some (arrives : arriving a e = some p) : e = .packet a p := by
  cases e with
  | packet b q =>
    by_cases same : b = a
    · have arrives : (if b = a then some q else none) = some p := arrives
      rw [if_pos same] at arrives
      rw [same, Option.some.inj arrives]
    · exact absurd arrives (by simp [arriving, same])
  | _ => exact absurd arrives (by simp [arriving])

theorem stream_cons (a : Obj) (e : Event) (later : List Event) :
    stream a (e :: later) = ((arriving a e).map HttpPacket.payload).getD [] ++ stream a later := by
  unfold stream
  cases arrives : arriving a e with
  | none => rw [List.filterMap_cons_none arrives]; rfl
  | some p => rw [List.filterMap_cons_some arrives]; rfl

section Runs

variable {banned : Bool} {left : Int}

theorem waits_elsewhere (apart : s.world.HttpApart) (waits : Waits a i d banned left s)
    (elsewhere : s.Elsewhere a e) (h : s.step e = some t) : Waits a i d banned left t := by
  obtain ⟨live, locked, info, http⟩ := step_elsewhere apart waits.live waits.locked elsewhere h
  exact ⟨live, locked, by rw [info]; exact waits.banned, by rw [http]; exact waits.body, waits.fits⟩

theorem step_packet (live : a ∈ s.world.table) : s.step (.packet a p) = (s.processFlow a p).toOption :=
  if_pos live

theorem step_waits (apart : s.world.HttpApart) (waits : Waits a i d banned left s)
    (goesOn : s.GoesOn a d e) (h : s.step e = some t) :
    Waits a i d banned
      (left - taken banned (((arriving a e).map HttpPacket.payload).getD []).length) t := by
  unfold GoesOn at goesOn
  cases arrives : arriving a e with
  | none =>
    rw [arrives] at goesOn
    have after := waits_elsewhere apart waits goesOn.1 h
    have nothing : taken banned 0 = 0 := by cases banned <;> rfl
    show Waits a i d banned (left - taken banned 0) t
    rw [nothing, Int.natCast_zero, Int.sub_zero]
    exact after
  | some p =>
    rw [arrives] at goesOn
    obtain rfl := arriving_some arrives
    rw [step_packet waits.live] at h
    obtain ⟨u, returned, after, -⟩ := processFlow_waits waits goesOn.1 goesOn.2
    obtain rfl := Except.ok.inj (returned.symm.trans (toOption_some h))
    exact after

theorem taken_add (banned : Bool) (m n : Nat) : taken banned (m + n) = taken banned m + taken banned n := by
  cases banned <;> rfl

/-- What arrives is no longer missing. -/
theorem run_waits {events : List Event} (apart : s.world.HttpApart) (waits : Waits a i d banned left s)
    (continues : Continues a d s events)
    (reached : Transition.run step s events = some t) :
    Waits a i d banned (left - taken banned (stream a events).length) t := by
  induction events generalizing s left with
  | nil =>
    obtain rfl := Option.some.inj reached
    have nothing : taken banned 0 = 0 := by cases banned <;> rfl
    show Waits a i d banned (left - taken banned 0) _
    rw [nothing, Int.natCast_zero, Int.sub_zero]
    exact waits
  | cons e later ih =>
    obtain ⟨u, stepped, reached⟩ := Option.bind_eq_some_iff.mp reached
    obtain ⟨here, there⟩ := continues
    have after := ih (step_apart apart stepped) (step_waits apart waits here stepped)
      (there u stepped) reached
    rw [stream_cons, List.length_append, taken_add]
    convert after using 1
    omega

/-- The info says how much is missing. -/
def Reports (s : HTTPProtocol) (a : Obj) (missing : Int) : Prop :=
  ∃ k, s.tracked a = some k ∧ (k.body.haveData = true ↔ 0 < missing) ∧
    k.body.dataChunkLength = max 0 missing

theorem reports_iff (waits : Waits a i d banned left s) :
    s.Reports a missing ↔ max 0 left = max 0 missing := by
  have known := tracked_locked waits.locked
  rw [waits.body] at known
  constructor
  · rintro ⟨k, found, -, chunk⟩
    obtain rfl := Option.some.inj (known.symm.trans found)
    exact chunk
  · intro same
    refine ⟨_, known, ?_, same⟩
    rw [Body.awaited_congr d same]
    exact decide_eq_true_iff

/-- However the flow goes on in this direction: its packets are processed, and the info says how much
is missing. -/
def Tracks (s : HTTPProtocol) (a : Obj) (d : FlowDirection) (missing : Int) : Prop :=
  ∀ later t, Continues a d s later →
    Transition.run step s later = some t →
      t.Reports a (missing - (stream a later).length) ∧
        ∀ p, p.direction = d → p.Measured → ∃ u, t.processFlow a p = .ok u

/-- What is missing is tracked when the info waits for it, except by a flow that is banned and still
waits for data. -/
theorem tracks_iff (apart : s.world.HttpApart) (waits : Waits a i d banned left s) :
    s.Tracks a d missing ↔ max 0 left = max 0 missing ∧ (banned = true → missing ≤ 0) := by
  constructor
  · intro tracks
    have now := (reports_iff waits).mp (tracks [] s trivial rfl).1
    have now : max 0 left = max 0 missing := by simpa [stream] using now
    refine ⟨now, fun stopped => ?_⟩
    subst stopped
    -- A packet of one octet changes nothing.
    let q : HttpPacket := { payload := [0], direction := d }
    have measured : q.Measured := Nat.lt_of_sub_pos (Nat.zero_lt_succ _)
    obtain ⟨t, returned, after, -⟩ := processFlow_waits waits (p := q) rfl measured
    have stepped : s.step (.packet a q) = some t := by
      rw [step_packet waits.live, returned]
      rfl
    have arrives : arriving a (.packet a q) = some q := if_pos rfl
    have goesOn : s.GoesOn a d (.packet a q) := by
      unfold GoesOn
      rw [arrives]
      exact ⟨rfl, measured⟩
    have reports := (tracks [.packet a q] t ⟨goesOn, fun _ _ => trivial⟩
      (by rw [Transition.run, stepped]; rfl)).1
    have later := (reports_iff after).mp reports
    have one : (stream a [.packet a q]).length = 1 := by
      rw [stream_cons, arrives]
      rfl
    rw [one] at later
    have still : (left : Int) - taken true q.payload.length = left := Int.sub_zero left
    rw [still] at later
    omega
  · rintro ⟨same, stopped⟩ later t continues reached
    have after := run_waits apart waits continues reached
    refine ⟨(reports_iff after).mpr ?_, fun p direction measured => ?_⟩
    · cases banned with
      | true =>
        have complete := stopped rfl
        have still : taken true (stream a later).length = 0 := rfl
        rw [still]
        omega
      | false =>
        have all : taken false (stream a later).length = (stream a later).length := rfl
        rw [all]
        omega
    · obtain ⟨u, returned, -⟩ := processFlow_waits after direction measured
      exact ⟨u, returned⟩

end Runs

/-- The lines leave as much as is missing, and if they ban the flow nothing is missing. -/
def Leaves (s : HTTPProtocol) (p : HttpPacket) (missing : Int) : Prop :=
  max 0 (leftBehind s.banDomains p) = max 0 missing ∧ (s.Bans p → missing ≤ 0)

/-- A header without the traps of the scan leaves what is missing, if its length fits. -/
theorem leaves_readable {body : Bytes} (readable : m.Readable) (kept : ¬s.Bans p)
    (payload : p.payload = m.octets ++ body) (measured : p.Measured)
    (short : m.octets.length < 32768) :
    (¬Overflowing s.banDomains (headerLines p) ∧ s.Leaves p ((m.length : Int) - body.length)) ↔
      m.length < 2147483648 := by
  have read : Read s.banDomains p m := header_read readable payload kept
  rw [overflowing_read read kept, Nat.not_le]
  refine and_iff_left_of_imp fun fits => ⟨?_, fun bans => absurd bans kept⟩
  rw [(left_read read kept fits measured short payload).2]

def largeHeader : MessageHeader where
  first := .request
    { method := Octets.ascii "GET", target := Octets.ascii "/", minor := 0x31
      registered := by decide, filled := by decide, unspaced := by decide }
  fields :=
    [{ name := contentLength, value := Octets.ascii " 2147483648"
       named := by decide, colonless := by decide
       unbrokenName := by decide, unbrokenValue := by decide }]
  length := 2147483648
  declared := ⟨_, List.mem_cons_self, rfl⟩
  agreed f member _ := by
    obtain rfl := List.mem_singleton.mp member
    exact ⟨{ before := Octets.ascii " ", digits := Octets.ascii "2147483648", after := []
             whole := by decide, decimal := by decide, filled := by decide
             number := by decide, blank := by decide }⟩

/-- The calls of `process_payloadl7` between two states. -/
def newCalls (s t : HTTPProtocol) : List (Obj × Slice) :=
  t.payloads7.take (t.payloads7.length - s.payloads7.length)

theorem newCalls_append {new : List (Obj × Slice)} (payloads : t.payloads7 = new ++ s.payloads7) :
    newCalls s t = new := by
  unfold newCalls
  rw [payloads, List.length_append, Nat.add_sub_cancel, List.take_left]

/-- The octet at `k` of the packet is in the slice. -/
def covers (a : Obj) (k : Nat) (call : Obj × Slice) : Bool :=
  decide (call.1 = a ∧ call.2.start ≤ k ∧ (k : Int) < call.2.start + call.2.length)

/-- The packets of the flow are processed, and what stands behind the first `header` octets that come
is given to `process_payloadl7` once. -/
def Inspects (a : Obj) : HTTPProtocol → Nat → List Event → Prop
  | _, _, [] => True
  | s, header, e :: later =>
    match arriving a e with
    | some p => ∃ t, s.processFlow a p = .ok t ∧
        (∀ k, header ≤ k → k < p.payload.length → (newCalls s t).countP (covers a k) = 1) ∧
          Inspects a t (header - p.payload.length) later
    | none => ∀ t, s.step e = some t → Inspects a t header later

theorem covers_whole {k : Nat} {start length : Int} (behind : start ≤ k)
    (before : (k : Int) < start + length) :
    [(a, ({ start := start, length := length } : Slice))].countP (covers a k) = 1 := by
  rw [List.countP_singleton, covers, if_pos (decide_eq_true ⟨rfl, behind, before⟩)]

/-- Behind the first `header` octets, all octets of these packets come while some data is left. -/
def Within : Nat → Nat → List Nat → Prop
  | _, _, [] => True
  | header, left, n :: later => (header < n → 0 < left) ∧ Within (header - n) (left - n) later

theorem sizes_cons (a : Obj) (e : Event) (later : List Event) :
    sizes a (e :: later) =
      ((arriving a e).map fun p => p.payload.length).toList ++ sizes a later := by
  unfold sizes
  cases arrives : arriving a e with
  | none => rw [List.filterMap_cons_none arrives]; rfl
  | some p => rw [List.filterMap_cons_some arrives]; rfl

theorem leftFor_taken (banned : Bool) (left : Int) (n : Nat) :
    leftFor banned (left - taken banned n) = leftFor banned left - n := by
  cases banned with
  | true => exact (Nat.zero_sub n).symm
  | false =>
    show (left - (n : Int)).toNat = left.toNat - n
    omega

theorem sizes_sum (a : Obj) (events : List Event) : (sizes a events).sum = (stream a events).length := by
  induction events with
  | nil => rfl
  | cons e later ih =>
    rw [sizes_cons, stream_cons, List.sum_append, List.length_append, ih]
    cases arriving a e <;> simp

theorem within_enough {left : Nat} {ns : List Nat} (enough : ns.sum ≤ left) : Within 0 left ns := by
  induction ns generalizing left with
  | nil => trivial
  | cons n later ih =>
    rw [List.sum_cons] at enough
    rw [Within, Nat.zero_sub]
    exact ⟨fun some => by omega, ih (by omega)⟩

/-- Data is given away whole, as long as some is left. -/
theorem waits_inspects {banned : Bool} {left : Int} (header : Nat) {events : List Event}
    (apart : s.world.HttpApart) (waits : Waits a i d banned left s)
    (continues : Continues a d s events) :
    Inspects a s header events ↔ Within header (leftFor banned left) (sizes a events) := by
  induction events generalizing s left header with
  | nil => exact Iff.rfl
  | cons e later ih =>
    obtain ⟨here, there⟩ := continues
    have rest : ∀ n t, s.step e = some t → (Inspects a t n later ↔ Within n (leftFor banned
        (left - taken banned (((arriving a e).map HttpPacket.payload).getD []).length))
          (sizes a later)) := fun n t stepped =>
      ih n (step_apart apart stepped) (step_waits apart waits here stepped) (there t stepped)
    rw [sizes_cons]
    unfold Inspects
    unfold GoesOn at here
    cases arrives : arriving a e with
    | none =>
      rw [arrives] at here rest
      obtain ⟨-, t, stepped⟩ := here
      have nothing : taken banned 0 = 0 := by cases banned <;> rfl
      have after := rest header t stepped
      rw [show (((none : Option HttpPacket).map HttpPacket.payload).getD []).length = 0 from rfl,
        nothing, Int.natCast_zero, Int.sub_zero] at after
      simp only [Option.map_none, Option.toList_none, List.nil_append]
      rw [← after]
      constructor
      · exact fun inspects => inspects t stepped
      · intro inspects u stepped'
        obtain rfl := Option.some.inj (stepped.symm.trans stepped')
        exact inspects
    | some p =>
      obtain rfl := arriving_some arrives
      rw [arrives] at here rest
      obtain ⟨t, returned, -, payloads⟩ := processFlow_waits waits here.1 here.2
      have after := rest (header - p.payload.length) t (by
        rw [step_packet waits.live, returned]
        rfl)
      rw [show ((some p).map HttpPacket.payload).getD [] = p.payload from rfl, leftFor_taken] at after
      simp only [Option.map_some, Option.toList_some, List.singleton_append]
      rw [Within, ← after]
      constructor
      · rintro ⟨u, returned', once, inspects⟩
        obtain rfl := Except.ok.inj (returned.symm.trans returned')
        refine ⟨fun behind => ?_, inspects⟩
        by_contra none
        have first := once header (Nat.le_refl _) behind
        rw [newCalls_append payloads, if_neg none] at first
        exact absurd first (by simp)
      · rintro ⟨some_left, inspects⟩
        refine ⟨t, returned, fun k behind before => ?_, inspects⟩
        rw [newCalls_append payloads, if_pos (some_left (by omega))]
        exact covers_whole (by omega) (by omega)

/-- The first packet gives its data away, and so do the others as long as data is left. -/
def Delivers (s : HTTPProtocol) (a : Obj) (p : HttpPacket) (header : Nat) (later : List Event) : Prop :=
  (header < p.payload.length → 0 < leftBehind s.banDomains p ∧ headerSize s.banDomains p ≤ header ∧
      p.payload.length - headerSize s.banDomains p ≤ 2147483647) ∧
    Within (header - p.payload.length)
      (leftFor (decide (s.Bans p)) (leftBehind s.banDomains p)) (sizes a later)

/-- The slice of the first packet has all that is behind the header. -/
theorem covers_first {header : Nat} (p : HttpPacket) (size left : Int) :
    (∀ k, header ≤ k → k < p.payload.length →
        (if 0 < left then
          [(a, ({ start := size, length := Counter.int32 (p.payload.length - size) } : Slice))]
        else []).countP (covers a k) = 1) ↔
      (header < p.payload.length →
        0 < left ∧ size ≤ header ∧ p.payload.length - size ≤ 2147483647) := by
  by_cases more : 0 < left
  · rw [if_pos more]
    constructor
    · intro once behind
      have first := once header (Nat.le_refl _) behind
      have last := once (p.payload.length - 1) (by omega) (by omega)
      rw [List.countP_singleton, covers] at first last
      have bounds := Counter.int32_bounds (p.payload.length - size)
      unfold Counter.top at bounds
      simp only [true_and, decide_eq_true_eq] at first last
      refine ⟨more, ?_, ?_⟩
      · by_contra past
        rw [if_neg fun both => past both.1] at first
        exact absurd first (by simp)
      · by_contra past
        rw [if_neg fun both => past (by omega)] at last
        exact absurd last (by simp)
    · intro all k behind before
      obtain ⟨-, start, fits⟩ := all (by omega)
      rw [Counter.int32_of_fits (by omega) (by unfold Counter.top; omega)]
      exact covers_whole (by omega) (by omega)
  · rw [if_neg more]
    constructor
    · intro once behind
      exact absurd (once header (Nat.le_refl _) behind) (by simp)
    · intro all k behind before
      exact absurd (all (by omega)).1 more

/-- A header without the traps of the scan, whole in the first packet, loses the data of a message that
ends there, and only that. -/
theorem delivers_readable {later : List Event} {front : Bytes} (readable : m.Readable)
    (kept : ¬s.Bans p) (payload : p.payload = m.octets ++ front) (measured : p.Measured)
    (short : m.octets.length < 32768) (fits : m.length < 2147483648)
    (whole : front.length + (stream a later).length = m.length) :
    s.Delivers a p m.octets.length later ↔ m.length = 0 ∨ front.length < m.length := by
  have read : Read s.banDomains p m := header_read readable payload kept
  obtain ⟨size, left⟩ := left_read read kept fits measured short payload
  have split := congrArg List.length payload
  rw [List.length_append] at split
  unfold HttpPacket.Measured at measured
  unfold Delivers
  rw [size, left, decide_eq_false kept, Nat.sub_eq_zero_of_le (by omega),
    and_iff_left (within_enough (by
      rw [sizes_sum]
      show _ ≤ ((m.length : Int) - front.length).toNat
      omega))]
  omega

def smallHeader : MessageHeader where
  first := .request
    { method := Octets.ascii "POST", target := Octets.ascii "/", minor := 0x31
      registered := by decide, filled := by decide, unspaced := by decide }
  fields :=
    [{ name := contentLength, value := Octets.ascii " 2"
       named := by decide, colonless := by decide
       unbrokenName := by decide, unbrokenValue := by decide }]
  length := 2
  declared := ⟨_, List.mem_cons_self, rfl⟩
  agreed f member _ := by
    obtain rfl := List.mem_singleton.mp member
    exact ⟨{ before := Octets.ascii " ", digits := Octets.ascii "2", after := []
             whole := by decide, decimal := by decide, filled := by decide
             number := by decide, blank := by decide }⟩

def wholeMessage : HttpPacket where
  payload := smallHeader.octets ++ Octets.ascii "ab"
  direction := .forward

end HTTPProtocol

end AIEngine
