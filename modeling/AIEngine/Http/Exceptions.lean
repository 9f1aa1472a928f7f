import AIEngine.Http.HeaderText
import AIEngine.Http.Stock

/-!
# What `HTTPProtocol::processFlow` throws

No position is out of range in a `substr`, and of the conversions only one throws what nobody
catches: a `Content-Length` whose numeral does not fit into an `int`.
-/

namespace AIEngine.HTTPProtocol

open HTTPHeader

/-! ### The lines that a packet is parsed into -/

/-- Where the header lines start, or zero. -/
def headerStart (p : HttpPacket) : Nat :=
  if p.startsWith (Octets.ascii "HTTP/1") then
    match Octets.find (Octets.ascii "\r\n") p.payload with
    | some (k + 1) => k + 3
    | _ => 0
  else if (methods.find? p.startsWith).isSome then
    match Octets.find (Octets.ascii "HTTP/1.") p.payload with
    | some (k + 1) => k + 11
    | _ => 0
  else 0

/-- The registered lines of the packet, one after the other. Less than five octets are not looked
at. -/
def headerLines (p : HttpPacket) : List Line :=
  if 0 < headerStart p ∧ headerStart p + 4 < p.payload.length then
    seenLines 0 .fresh (heeded (stretches (textLines (p.payload.drop (headerStart p)))))
  else []

theorem headerLines_long {p : HttpPacket} (positive : 0 < headerStart p)
    (long : headerStart p + 4 < p.payload.length) : headerLines p =
      lines (p.payload.drop (headerStart p)) {} (p.payload.drop (headerStart p)) :=
  (if_pos ⟨positive, long⟩).trans (scan_text _).1.symm

theorem headerLines_short {p : HttpPacket} (short : p.payload.length ≤ headerStart p + 4) :
    headerLines p = [] := if_neg fun both => by omega

theorem headerLines_missing {p : HttpPacket} (missing : headerStart p = 0) : headerLines p = [] :=
  if_neg fun both => by omega

/-- A host that the ban manager knows. -/
def BannedHost (ban : Option (Bytes → Bool)) (l : Line) : Prop :=
  l.2.1 = .host ∧ ban.any (fun banned => banned l.2.2) = true

/-- A length whose numeral is no value of an `int`. -/
def Overflows (l : Line) : Prop :=
  l.2.1 = .contentLength ∧ ∃ n, Octets.Numeral l.2.2 n ∧ (n < -2147483648 ∨ 2147483647 < n)

theorem overflows_iff {l : Line} :
    Overflows l ↔ l.2.1 = .contentLength ∧ stoi l.2.2 = .error .outOfRange := by
  refine and_congr_right fun _ => ?_
  unfold stoi
  constructor
  · rintro ⟨n, read, outside⟩
    rw [Octets.strtol_iff.mpr read]
    exact if_neg (by omega)
  · intro failed
    cases read : Octets.strtol l.2.2 with
    | none =>
      rw [read] at failed
      exact absurd failed (by simp)
    | some n =>
      rw [read] at failed
      refine ⟨n, Octets.strtol_iff.mp read, ?_⟩
      by_contra fits
      simp only [if_pos (show -2147483648 ≤ n ∧ n ≤ 2147483647 by omega)] at failed
      exact absurd failed (by simp)

/-- No host that is banned stands before a length that does not fit. -/
def Overflowing (ban : Option (Bytes → Bool)) (ls : List Line) : Prop :=
  ∃ pre l post, ls = pre ++ l :: post ∧ Overflows l ∧ ∀ m ∈ pre, ¬BannedHost ban m

theorem overflowing_nil (ban : Option (Bytes → Bool)) : ¬Overflowing ban [] := by
  rintro ⟨pre, l, post, same, -⟩
  exact absurd same.symm (by simp)

theorem overflowing_cons {ban : Option (Bytes → Bool)} {l : Line} {ls : List Line} :
    Overflowing ban (l :: ls) ↔ Overflows l ∨ (¬BannedHost ban l ∧ Overflowing ban ls) := by
  constructor
  · rintro ⟨pre, m, post, same, overflows, allowed⟩
    cases pre with
    | nil =>
      obtain ⟨rfl, -⟩ := List.cons.inj same
      exact Or.inl overflows
    | cons k pre =>
      obtain ⟨rfl, rfl⟩ := List.cons.inj same
      refine Or.inr ⟨allowed l List.mem_cons_self, pre, m, post, rfl, overflows, ?_⟩
      exact fun j member => allowed j (List.mem_cons_of_mem _ member)
  · rintro (overflows | ⟨allowed, pre, m, post, rfl, overflows, before⟩)
    · exact ⟨[], l, ls, rfl, overflows, fun _ none => absurd none (by simp)⟩
    · refine ⟨l :: pre, m, post, rfl, overflows, fun j member => ?_⟩
      rcases List.mem_cons.mp member with rfl | later
      · exact allowed
      · exact before j later

/-! ### The handlers -/

variable {s : HTTPProtocol} {i : Obj}

theorem onWorld_stocked {r : Except Fault World} (ok : ∃ w, r = .ok w ∧ w.Stocked) :
    ∃ t, s.onWorld r = .ok t ∧ t.world.Stocked ∧ t.banDomains = s.banDomains := by
  obtain ⟨w, rfl, stocked⟩ := ok
  exact ⟨_, rfl, stocked, rfl⟩

/-- A line throws, bans the flow, or lets the loop go on. -/
theorem processParameter_cases (l : Line) (stocked : s.world.Stocked) :
    (Overflows l ∧ processParameter i s l.2.1 l.2.2 = .error (.thrown .outOfRange)) ∨
    (BannedHost s.banDomains l ∧ ∃ t, processParameter i s l.2.1 l.2.2 = .ok (false, t)) ∨
    (¬Overflows l ∧ ¬BannedHost s.banDomains l ∧
      ∃ t, processParameter i s l.2.1 l.2.2 = .ok (true, t) ∧ t.world.Stocked ∧
        t.banDomains = s.banDomains) := by
  obtain ⟨n, q, v⟩ := l
  cases q with
  | host =>
    simp only [processParameter, processHostParameter]
    by_cases banned : s.banDomains.any (fun banned => banned v) = true
    · rw [if_pos banned]
      exact Or.inr (Or.inl ⟨⟨rfl, banned⟩, _, rfl⟩)
    · rw [if_neg banned]
      obtain ⟨t, attached, after, same⟩ := onWorld_stocked
        (s := { s with totalAllowHosts := s.totalAllowHosts + 1 })
        (r := World.Http.attachHost s.world i v)
        (World.intern_stocked .host false true i v stocked)
      refine Or.inr (Or.inr ⟨fun no => absurd no.1 (by simp), fun no => banned no.2, t, ?_, after,
        same⟩)
      rw [attached]
  | userAgent =>
    simp only [processParameter, processUaParameter]
    obtain ⟨t, attached, after, same⟩ := onWorld_stocked (s := s)
      (r := World.Http.attachUseragent s.world i v)
      (World.intern_stocked .ua false true i v stocked)
    refine Or.inr (Or.inr ⟨fun no => absurd no.1 (by simp), fun no => absurd no.1 (by simp), t, ?_,
      after, same⟩)
    rw [attached]
  | contentLength =>
    simp only [processParameter, processContentLengthParameter]
    cases length : stoi v with
    | ok n' =>
      refine Or.inr (Or.inr ⟨fun no => ?_, fun no => absurd no.1 (by simp), _, rfl, stocked, rfl⟩)
      exact absurd (length.symm.trans (overflows_iff.mp no).2) (by simp)
    | error e =>
      cases e with
      | invalidArgument =>
        refine Or.inr (Or.inr ⟨fun no => ?_, fun no => absurd no.1 (by simp), s, rfl, stocked, rfl⟩)
        exact absurd (length.symm.trans (overflows_iff.mp no).2) (by simp)
      | outOfRange => exact Or.inl ⟨overflows_iff.mpr ⟨rfl, length⟩, rfl⟩

/-- The lines throw, or they come to an end in a world that is as well stocked. -/
theorem runLines_cases (ls : List Line) (stocked : s.world.Stocked) :
    (Overflowing s.banDomains ls ∧
      runLines (processParameter i) s ls = .error (.thrown .outOfRange)) ∨
    (¬Overflowing s.banDomains ls ∧ ∃ t r, runLines (processParameter i) s ls = .ok (t, r)) := by
  induction ls generalizing s with
  | nil => exact Or.inr ⟨overflowing_nil _, s, none, rfl⟩
  | cons l rest ih =>
    rw [overflowing_cons]
    rcases processParameter_cases (i := i) l stocked with ⟨overflows, threw⟩ |
      ⟨banned, t, stopped⟩ | ⟨fits, allowed, t, called, after, same⟩
    · refine Or.inl ⟨Or.inl overflows, ?_⟩
      simp only [runLines, threw]
    · refine Or.inr ⟨?_, t, some l.1, ?_⟩
      · rintro (overflows | ⟨allowed, -⟩)
        · exact absurd (banned.1.symm.trans overflows.1) (by simp)
        · exact allowed banned
      · simp only [runLines, stopped]
    · have step : runLines (processParameter i) s (l :: rest) =
          runLines (processParameter i) t rest := by simp only [runLines, called]
      rw [step]
      rw [← same]
      rcases ih after with ⟨overflowing, threw⟩ | ⟨fine, ended⟩
      · exact Or.inl ⟨Or.inr ⟨same ▸ allowed, overflowing⟩, threw⟩
      · refine Or.inr ⟨?_, ended⟩
        rintro (overflows | ⟨-, overflowing⟩)
        · exact fits overflows
        · exact fine overflowing

/-! ### The first line -/

theorem method_length {m : Bytes} (member : m ∈ methods) : m.length ≤ 7 := by
  revert m
  decide

theorem noteResponseCode_banDomains (s : HTTPProtocol) (i : Obj) (code : Int) :
    (s.noteResponseCode i code).banDomains = s.banDomains := by
  unfold noteResponseCode
  split <;> rfl

/-- The first line never throws: what is cut out of it begins behind the method, and the line has at
least the octets of a method and of the version. -/
theorem extractUri_returns {p : HttpPacket} (stocked : s.world.Stocked) :
    ∃ t, s.extractUri i p = .ok (headerStart p, t) ∧ t.world.Stocked ∧
      t.banDomains = s.banDomains := by
  unfold extractUri headerStart
  by_cases response : p.startsWith (Octets.ascii "HTTP/1") = true
  · rw [if_pos response, if_pos response]
    have world := noteResponseCode_world (s.incTotalResponses i) i
      (atoi ((p.payload ++ p.beyond).drop 8))
    have ban := noteResponseCode_banDomains (s.incTotalResponses i) i
      (atoi ((p.payload ++ p.beyond).drop 8))
    have after : ((s.incTotalResponses i).noteResponseCode i
        (atoi ((p.payload ++ p.beyond).drop 8))).world.Stocked := by
      rw [world]
      exact stocked
    cases lineEnd : Octets.find (Octets.ascii "\r\n") p.payload with
    | none => exact ⟨_, rfl, after, ban⟩
    | some k =>
      cases k with
      | zero => exact ⟨_, rfl, after, ban⟩
      | succ k => exact ⟨_, rfl, after, ban⟩
  · rw [if_neg response, if_neg response]
    cases found : methods.find? p.startsWith with
    | none => exact ⟨s, rfl, stocked, rfl⟩
    | some m =>
      have short := method_length (List.mem_of_find?_eq_some found)
      simp only [Option.isSome_some, if_true]
      cases version : Octets.find (Octets.ascii "HTTP/1.") p.payload with
      | none => exact ⟨s, rfl, stocked, rfl⟩
      | some k =>
        cases k with
        | zero => exact ⟨s, rfl, stocked, rfl⟩
        | succ k =>
          have bound := Octets.find_le version
          have seven : (Octets.ascii "HTTP/1.").length = 7 := by decide
          rw [seven] at bound
          have inside : m.length + 1 ≤ p.payload.length := by omega
          have cut := Octets.substr_of_le inside ((k : Int) + 1 - (m.length + 1 : Nat) - 1)
          generalize (if 0 ≤ (k : Int) + 1 - (m.length + 1 : Nat) - 1 then _ else _) = uri at cut
          obtain ⟨t, attached, after, same⟩ := onWorld_stocked (s := s.incTotalRequests i)
            (r := World.Http.attachUri s.world i uri)
            (World.intern_stocked .uri true false i uri stocked)
          refine ⟨t, ?_, after, same⟩
          simp only [substr, cut]
          rw [show (s.incTotalRequests i).world = s.world from rfl, attached]

/-! ### The packet -/

theorem parseHeader_cases (header : Bytes) (stocked : s.world.Stocked) :
    (Overflowing s.banDomains (lines header {} header) ∧
      s.parseHeader i header = .error (.thrown .outOfRange)) ∨
    (¬Overflowing s.banDomains (lines header {} header) ∧ ∃ t, s.parseHeader i header = .ok t) := by
  unfold parseHeader
  rw [HTTPHeader.parseHeader_eq]
  rcases runLines_cases (i := i) (lines header {} header) stocked with ⟨overflowing, threw⟩ |
    ⟨fine, t, r, ended⟩
  · rw [threw]
    exact Or.inl ⟨overflowing, rfl⟩
  · rw [ended]
    cases r with
    | none => exact Or.inr ⟨fine, _, rfl⟩
    | some k => exact Or.inr ⟨fine, _, rfl⟩

theorem processRequestsAndResponses_cases {p : HttpPacket} (stocked : s.world.Stocked) :
    (Overflowing s.banDomains (headerLines p) ∧
      s.processRequestsAndResponses i p = .error (.thrown .outOfRange)) ∨
    (¬Overflowing s.banDomains (headerLines p) ∧
      ∃ offset t, s.processRequestsAndResponses i p = .ok (offset, t)) := by
  obtain ⟨u, extracted, after, same⟩ := extractUri_returns (i := i) (p := p) stocked
  unfold processRequestsAndResponses
  rw [extracted]
  simp only
  by_cases positive : 0 < headerStart p
  · rw [if_pos positive]
    by_cases long : headerStart p + 4 < p.payload.length
    · rw [headerLines_long positive long, if_pos (by omega)]
      rw [HTTPHeader.substr_rest (by omega), ← same]
      rcases parseHeader_cases (i := i) (s := { u with httpHeaderSize := int16 (headerStart p) })
        (p.payload.drop (headerStart p)) after with ⟨overflowing, threw⟩ | ⟨fine, t, parsed⟩
      · exact Or.inl ⟨overflowing, by simp only [threw]⟩
      · exact Or.inr ⟨fine, headerStart p, t, by simp only [parsed]⟩
    · rw [headerLines_short (by omega), if_neg (by omega)]
      exact Or.inr ⟨overflowing_nil _, _, _, rfl⟩
  · rw [if_neg positive, headerLines_missing (by omega)]
    exact Or.inr ⟨overflowing_nil _, _, _, rfl⟩

/-- The ban and the data direction of the info that a packet of the flow is processed with. -/
def infoFor (s : HTTPProtocol) (a : Obj) : Option (Bool × FlowDirection) :=
  match s.world.lockInfo .http (s.world.flows a) with
  | some i => some ((s.world.infos i).isBanned, (s.infos i).direction)
  | none =>
    match (s.world.cache (.info .http)).acquire with
    | .ok (some _, _) => some (false, .none)
    | _ => none

/-- The packet is taken for a request or a response: its flow gets an info that is not banned, and
the data of the last packet went the other way. -/
def Parses (s : HTTPProtocol) (a : Obj) (p : HttpPacket) : Prop :=
  ∃ d, s.infoFor a = some (false, d) ∧ d ≠ p.direction

/-- What an info is when a packet gets it: the one that the flow had, or a new one, or none. -/
theorem attachInfo_gets {t : HTTPProtocol} {a : Obj} {r : Option Obj}
    (h : s.attachInfo a = .ok (r, t)) :
    (∃ i, r = some i ∧ s.world.lockInfo .http (s.world.flows a) = some i ∧
      t.world.infos i = s.world.infos i ∧ t.infos i = s.infos i) ∨
    (∃ i c, r = some i ∧ s.world.lockInfo .http (s.world.flows a) = none ∧
      (s.world.cache (.info .http)).acquire = .ok (some i, c) ∧
      t.world.infos i = {} ∧ t.infos i = {}) ∨
    ∃ c, r = none ∧ s.world.lockInfo .http (s.world.flows a) = none ∧
      (s.world.cache (.info .http)).acquire = .ok (none, c) := by
  unfold attachInfo at h
  cases attached : s.world.attachInfo .http a with
  | error e =>
    rw [attached] at h
    exact absurd h (by simp)
  | ok result =>
    obtain ⟨r', w⟩ := result
    rw [attached] at h
    rcases World.attachInfo_cases attached with ⟨i, rfl, locked, rfl⟩ |
      ⟨i, c, rfl, expired, acquired, rfl⟩ | ⟨c, rfl, failed, rfl⟩
    · rw [locked] at h
      obtain ⟨rfl, rfl⟩ := Prod.mk.inj (Except.ok.inj h)
      exact Or.inl ⟨i, rfl, locked, rfl, rfl⟩
    · rw [expired] at h
      obtain ⟨rfl, rfl⟩ := Prod.mk.inj (Except.ok.inj h)
      refine Or.inr (Or.inl ⟨i, c, rfl, expired, acquired, ?_, ?_⟩)
      · simp [World.setFlow, World.setInfo, setInfo]
      · simp [setInfo, HTTPInfo.reset]
    · obtain ⟨rfl, rfl⟩ := Prod.mk.inj (Except.ok.inj h)
      exact Or.inr (Or.inr ⟨c, rfl, World.attachInfo_expired attached, failed⟩)

theorem attachInfo_infoFor {t : HTTPProtocol} {a : Obj} {r : Option Obj}
    (h : s.attachInfo a = .ok (r, t)) :
    s.infoFor a = r.map (fun i => ((t.world.infos i).isBanned, (t.infos i).direction)) ∧
      t.banDomains = s.banDomains := by
  obtain ⟨-, infos, shape, -⟩ := attachInfo_keeps h
  refine ⟨?_, by rw [shape]⟩
  unfold infoFor
  rcases attachInfo_gets h with ⟨i, rfl, locked, world, info⟩ |
    ⟨i, c, rfl, expired, acquired, world, info⟩ | ⟨c, rfl, expired, failed⟩
  · rw [locked, Option.map_some, world, info]
  · rw [expired, acquired, Option.map_some, world, info]
  · rw [expired, failed, Option.map_none]

theorem attachInfo_fault {a : Obj} {e : Failure} (h : s.attachInfo a = .error e) :
    (∃ f, e = .fault f) ∧ s.infoFor a = none := by
  unfold attachInfo at h
  split at h
  · rename_i f failed
    refine ⟨⟨f, (Except.error.inj h).symm⟩, ?_⟩
    obtain ⟨expired, acquired⟩ := World.attachInfo_fails failed
    unfold infoFor
    rw [expired, acquired]
  · exact absurd h (by simp)
  · split at h
    · exact absurd h (by simp)
    · exact absurd h (by simp)

theorem lookupDomain_error {d : FlowDirection} {offset : Nat} {e : Failure}
    (h : s.lookupDomain i d offset = .error e) : e = .fault .nullDereference := by
  unfold lookupDomain lookupUri at h
  split at h
  · split at h
    · exact absurd h (by simp)
    · split at h
      · split at h
        · exact absurd h (by simp)
        · exact (Except.error.inj h).symm
      · exact absurd h (by simp)
  · exact absurd h (by simp)

/-- With an info the packet is taken for one when that is not banned and has seen the other way. -/
theorem parses_iff {u : HTTPProtocol} {a i : Obj} {p : HttpPacket}
    (attached : { s with httpHeaderSize := 0 }.attachInfo a = .ok (some i, u)) :
    s.Parses a p ↔ (u.world.infos i).isBanned = false ∧ (u.infos i).direction ≠ p.direction := by
  have known : s.infoFor a = some ((u.world.infos i).isBanned, (u.infos i).direction) :=
    (attachInfo_infoFor attached).1
  unfold Parses
  rw [known]
  constructor
  · rintro ⟨d, same, other⟩
    obtain ⟨free, rfl⟩ := Prod.mk.inj (Option.some.inj same)
    exact ⟨free, other⟩
  · rintro ⟨free, other⟩
    exact ⟨_, by rw [free], other⟩

theorem not_parses {a : Obj} {p : HttpPacket} (missing : s.infoFor a = none) : ¬s.Parses a p := by
  rintro ⟨d, found, -⟩
  exact absurd (missing.symm.trans found) (by simp)

theorem not_throws (t : HTTPProtocol) :
    ¬∃ e, (.ok t : Except Failure HTTPProtocol) = .error (.thrown e) := by
  rintro ⟨e, threw⟩
  cases threw

/-- A packet throws exactly when it is taken for a request or a response and has a length that does
not fit into an `int`, before the first banned host if it has one. -/
theorem throws_iff {a : Obj} {p : HttpPacket} (stocked : s.world.Stocked) :
    (∃ e, s.processFlow a p = .error (.thrown e)) ↔
      s.Parses a p ∧ Overflowing s.banDomains (headerLines p) := by
  have sameInfo : { s with httpHeaderSize := 0 }.infoFor a = s.infoFor a := rfl
  unfold processFlow
  cases attached : { s with httpHeaderSize := 0 }.attachInfo a with
  | error e =>
    obtain ⟨⟨f, rfl⟩, missing⟩ := attachInfo_fault attached
    refine iff_of_false ?_ fun both => not_parses (sameInfo.symm.trans missing) both.1
    rintro ⟨e, threw⟩
    exact absurd threw (by simp)
  | ok result =>
    obtain ⟨r, u⟩ := result
    obtain ⟨known, ban⟩ := attachInfo_infoFor attached
    have got := attachInfo_ok attached
    have after : u.world.Stocked := World.stocked_attachInfo stocked got
    cases r with
    | none =>
      exact iff_of_false (not_throws u) fun both => not_parses (sameInfo.symm.trans known) both.1
    | some i =>
      rw [parses_iff attached, ← show u.banDomains = s.banDomains from ban]
      simp only
      by_cases banned : (u.world.infos i).isBanned = true
      · rw [if_pos banned]
        refine iff_of_false (not_throws u) ?_
        rintro ⟨⟨free, -⟩, -⟩
        exact absurd (banned.symm.trans free) (by simp)
      · rw [if_neg banned]
        by_cases data : (u.infos i).direction = p.direction
        · rw [if_pos data]
          refine iff_of_false ?_ fun both => both.1.2 data
          split
          · exact not_throws _
          · exact not_throws _
        · rw [if_neg data, and_iff_right ⟨Bool.eq_false_iff.mpr banned, data⟩]
          rcases processRequestsAndResponses_cases (i := i) (p := p) after with
            ⟨overflowing, threw⟩ | ⟨fine, offset, t, returned⟩
          · refine iff_of_true ⟨.outOfRange, ?_⟩ overflowing
            simp only [threw]
          · refine iff_of_false ?_ fine
            rintro ⟨e, threw⟩
            simp only [returned] at threw
            cases looked : t.lookupDomain i p.direction offset with
            | error e' =>
              obtain rfl := lookupDomain_error looked
              rw [looked] at threw
              exact absurd threw (by simp)
            | ok v =>
              rw [looked] at threw
              exact absurd threw (by simp)

/-! ### Every run -/

/-- Caches with some objects each, and no domain manager. -/
def start (objects : CacheId → Nat) (layer : Option Nat) : HTTPProtocol where
  world := World.start objects layer

/-- Whether an exception has left the function. -/
def hasThrown {α : Type} : Except Failure α → Bool
  | .error (.thrown _) => true
  | _ => false

theorem hasThrown_iff {α : Type} (r : Except Failure α) :
    hasThrown r = true ↔ ∃ e, r = .error (.thrown e) := by
  constructor
  · intro h
    cases r with
    | ok a => exact absurd h (by simp [hasThrown])
    | error f =>
      cases f with
      | thrown e => exact ⟨e, rfl⟩
      | fault f => exact absurd h (by simp [hasThrown])
  · rintro ⟨e, rfl⟩
    rfl

end AIEngine.HTTPProtocol
