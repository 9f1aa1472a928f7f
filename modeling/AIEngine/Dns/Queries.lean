import AIEngine.Applications.Keyed
import AIEngine.Dns.Bounds

/-!
# Queries of several flows

The flows share the map of the names. What a query leaves with its flow is compared with what it
leaves when it is the first one.
-/

namespace AIEngine

open Ending World

namespace DNSProtocol

variable {s t u : DNSProtocol} {a i : Obj} {p : L7Packet} {domain : Bytes} {qtype : Nat}

def step (s : DNSProtocol) (e : Obj × L7Packet) : Option DNSProtocol :=
  (processFlow s e.1 e.2).toOption

theorem step_keyed {e : Obj × L7Packet} (keyed : Keyed .dns s.world) (stepped : s.step e = some t) :
    Keyed .dns t.world := by
  have handled := ends_value (processFlow_handled (a := e.1) e.2 keyed.filled)
    (toOption_some stepped)
  exact keyed_handled keyed rfl handled

structure IsQuery (p : L7Packet) : Prop where
  long : headerSize < p.payload.length
  flags : p.wordAt 2 = standardQuery ∨ p.wordAt 2 = dynamicUpdate
  questions : 0 < p.wordAt 4
  question : QuestionInside p

def queryType (p : L7Packet) : Nat := p.wordAt (12 + typeOffset p + 1)

/-- The name and the type that the info of a flow has. -/
def view (s : DNSProtocol) (a : Obj) : Option (Bytes × Nat) := do
  let i ← s.world.lockInfo .dns (s.world.flows a)
  let name ← attachedName s i
  some (cString (s.world.names name), (s.infos i).qtype)

def sees (s : DNSProtocol) (a : Obj) (p : L7Packet) : Option (Bytes × Nat) :=
  (s.step (a, p)).bind fun t => t.view a

def Unnamed (s : DNSProtocol) (a : Obj) : Prop :=
  ∀ i, s.world.lockInfo .dns (s.world.flows a) = some i → attachedName s i = none

/-- No flow has asked for the name. -/
def Unseen (s : DNSProtocol) (domain : Bytes) : Prop :=
  find (s.world.maps .dns .name) domain = none

instance (s : DNSProtocol) (domain : Bytes) : Decidable (Unseen s domain) :=
  inferInstanceAs (Decidable (_ = none))

/-- The type that the info of the flow has before. -/
def typeBefore (s : DNSProtocol) (a : Obj) : Nat :=
  match s.world.lockInfo .dns (s.world.flows a) with
  | some i => (s.infos i).qtype
  | none => 0

def NotExhausted (s : DNSProtocol) : Prop :=
  0 < (s.world.cache (.info .dns)).total ∧ 0 < (s.world.cache (.string .dns .name)).total

instance (s : DNSProtocol) : Decidable (NotExhausted s) := inferInstanceAs (Decidable (_ ∧ _))

/-- The same protocol before its first packet. -/
def anew (s : DNSProtocol) (objects : CacheId → Nat) : DNSProtocol :=
  { s with world := World.start objects none, infos := fun _ => {} }

/-! ### One query -/

theorem nameOctets_nonzero (left : Nat) (octets : Bytes) : ∀ b ∈ nameOctets left octets, b ≠ 0 := by
  fun_induction nameOctets left octets with
  | case1 | case2 | case4 => simp
  | case3 b rest goes => simpa using goes
  | case5 left b rest goes ih =>
    intro c member
    rcases List.mem_cons.mp member with rfl | later
    · exact goes
    · exact ih c later

theorem nameText_nonzero (p : L7Packet) : ∀ b ∈ nameText p, b ≠ 0 := by
  unfold nameText
  split
  · decide
  · intro b member
    obtain ⟨c, inName, rfl⟩ := List.mem_map.mp member
    unfold dotted
    split
    · decide
    · exact nameOctets_nonzero _ _ c inName

structure Starts (s : DNSProtocol) (a i : Obj) (t : DNSProtocol) : Prop where
  locked : t.world.lockInfo .dns (t.world.flows a) = some i
  unnamed : attachedName t i = none
  qtype : (t.infos i).qtype = typeBefore s a
  keyed : Keyed .dns t.world
  names : t.world.cache (.string .dns .name) = s.world.cache (.string .dns .name)
  maps : t.world.maps .dns .name = s.world.maps .dns .name
  bans : t.banDomains = s.banDomains

theorem attachInfo_starts (keyed : Keyed .dns s.world) (unnamed : Unnamed s a)
    (infos : 0 < (s.world.cache (.info .dns)).total) :
    ∃ i t, s.attachInfo .dns {} a = .ok (some i, t) ∧ Starts s a i t := by
  obtain ⟨i, t, attached, takes⟩ :=
    Inspector.attachInfo_takes {} keyed.filled fun _ => infos
  refine ⟨i, t, attached, attachInfo_locked takes.attached, ?_, ?_,
    keyed_attachInfo keyed takes.attached, takes.strings .name, by rw [takes.maps], takes.bans⟩
  · cases locked : s.world.lockInfo .dns (s.world.flows a) with
    | none =>
      unfold attachedName
      rw [(takes.fresh locked).1]
      rfl
    | some j =>
      obtain ⟨rfl, same⟩ := takes.held j locked
      rw [same]
      exact unnamed j locked
  · unfold typeBefore
    cases locked : s.world.lockInfo .dns (s.world.flows a) with
    | none => rw [(takes.fresh locked).2]
    | some j =>
      obtain ⟨rfl, same⟩ := takes.held j locked
      rw [same]

structure Leaves (s : DNSProtocol) (i : Obj) (domain : Bytes) (qtype : Nat) (t : DNSProtocol) :
    Prop where
  named : ∃ name, attachedName t i = some name ∧ cString (t.world.names name) = domain
  qtype : (t.infos i).qtype = qtype
  infos : KeepsInfos .dns i s.world t.world

/-- Only the first query for a name leaves its type. -/
theorem attachDnsToFlow_leaves (qtype : Nat) (keyed : Keyed .dns s.world) (unnamed : attachedName s i = none)
    (room : 0 < (s.world.cache (.string .dns .name)).total) (goes : ∀ b ∈ domain, b ≠ 0) :
    ∃ t, attachDnsToFlow s i domain qtype = .ok t ∧
      Leaves s i domain (if Unseen s domain then qtype else (s.infos i).qtype) t := by
  obtain ⟨w, name, interned, pointer, alive, text⟩ :=
    intern_names (x := .name) (i := i) (v := domain) true keyed unnamed fun _ => room
  rw [cString_nonzero goes] at text
  have named : w.lockString .dns ((w.infos i).strings .name) = some name := by
    rw [pointer]
    exact lockString_of_alive alive
  have acquires : acquiresName s i domain = decide (Unseen s domain) := by
    unfold attachedName at unnamed
    unfold acquiresName
    rw [unnamed, Option.isNone_none, decide_eq_true room, Bool.and_true, Bool.true_and]
    exact Bool.eq_iff_iff.mpr (Option.isNone_iff_eq_none.trans decide_eq_true_iff.symm)
  unfold attachDnsToFlow Dns.attachDnsToFlow
  rw [interned, acquires]
  by_cases unseen : Unseen s domain
  · rw [if_pos unseen]
    refine ⟨_, if_pos (decide_eq_true unseen), ⟨name, named, text⟩, ?_, intern_keepsInfos interned⟩
    simp [Inspector.setInfo]
  · rw [if_neg unseen]
    exact ⟨_, if_neg (by simp [unseen]), ⟨name, named, text⟩, rfl, intern_keepsInfos interned⟩

/-- Only marks on flows differ. -/
structure Marked (s t : DNSProtocol) : Prop where
  infos : t.infos = s.infos
  bans : t.banDomains = s.banDomains
  cache : t.world.cache = s.world.cache
  maps : t.world.maps = s.world.maps
  names : t.world.names = s.world.names
  disordered : t.world.disordered = s.world.disordered
  strings : t.world.infos = s.world.infos
  pointers : ∀ b q, (t.world.flows b).info q = (s.world.flows b).info q

theorem noteAnomaly_marked (s : DNSProtocol) (a : Obj) (pa : PacketAnomalyType) :
    Marked s (s.noteAnomaly a pa) := by
  unfold Inspector.noteAnomaly
  split
  · refine ⟨rfl, rfl, rfl, rfl, rfl, rfl, rfl, fun b q => ?_⟩
    by_cases same : b = a
    · rw [same]
      cases q <;> simp [setFlow] <;> rfl
    · simp [setFlow, same]
  · exact ⟨rfl, rfl, rfl, rfl, rfl, rfl, rfl, fun _ _ => rfl⟩

theorem marked_trans (first : Marked s t) (second : Marked t u) : Marked s u :=
  ⟨second.infos.trans first.infos, second.bans.trans first.bans, second.cache.trans first.cache,
    second.maps.trans first.maps, second.names.trans first.names,
    second.disordered.trans first.disordered, second.strings.trans first.strings,
    fun b q => (second.pointers b q).trans (first.pointers b q)⟩

theorem noteQuery_marked (s : DNSProtocol) (a : Obj) (p : L7Packet) :
    Marked s (noteQuery s a p) := by
  have named : Marked s (if (nameOf p).length = 127 then s.noteAnomaly a .dnsLongName else s) := by
    split
    · exact noteAnomaly_marked s a _
    · exact ⟨rfl, rfl, rfl, rfl, rfl, rfl, rfl, fun _ _ => rfl⟩
  unfold noteQuery
  simp only
  split
  · exact marked_trans named (noteAnomaly_marked _ a _)
  · exact named

/-- Marks do not matter for a query. -/
theorem starts_marked (starts : Starts s a i t) (marked : Marked t u) : Starts s a i u := by
  have locks (f : Flow) : u.world.lockInfo .dns f = t.world.lockInfo .dns f := by
    unfold lockInfo
    rw [marked.cache]
  have alive (q : Option Obj) : u.world.lockString .dns q = t.world.lockString .dns q :=
    lockString_congr (fun _ => stringAlive_congr fun y => by rw [marked.cache, marked.maps]) q
  refine ⟨?_, ?_, ?_, ?_, ?_, ?_, marked.bans.trans starts.bans⟩
  · rw [locks]
    unfold lockInfo
    rw [marked.pointers]
    exact starts.locked
  · unfold attachedName
    rw [alive, marked.strings]
    exact starts.unnamed
  · rw [marked.infos]
    exact starts.qtype
  · refine keyed_same starts.keyed (filled_same starts.keyed.filled fun id => ?_) (fun x => ?_) ?_
      marked.names (congrFun marked.disordered .dns)
    · rw [marked.cache]
    · rw [marked.cache]
    · rw [marked.maps]
  · rw [marked.cache]
    exact starts.names
  · rw [marked.maps]
    exact starts.maps

theorem processMessage_query (t : DNSProtocol) (a i : Obj) (query : IsQuery p) :
    processMessage a p t i = handleStandardQuery t a i p := by
  have question := query.question
  unfold QuestionInside at question
  unfold processMessage
  rw [HttpPacket.word_inside (k := 2) (by omega), HttpPacket.word_inside (k := 4) (by omega)]
  simp only [bind, Except.bind]
  rw [if_pos query.flags, if_pos query.questions]

theorem sees_query (keyed : Keyed .dns s.world) (query : IsQuery p)
    (allowed : s.isBanDomain (nameText p) = false) (unnamed : Unnamed s a)
    (pools : NotExhausted s) :
    sees s a p = some (nameText p,
      if Unseen s (nameText p) then queryType p else typeBefore s a) := by
  obtain ⟨i, t, attached, starts⟩ := attachInfo_starts keyed unnamed pools.1
  have starts : Starts s a i (noteQuery t a p).countAllow := by
    have marked := starts_marked starts (noteQuery_marked t a p)
    exact ⟨marked.locked, marked.unnamed, marked.qtype, marked.keyed, marked.names, marked.maps,
      marked.bans⟩
  have question := query.question
  have read := HttpPacket.word_inside (p := p) (k := 12 + typeOffset p + 1)
    (by unfold QuestionInside at question; omega)
  have passes : (noteQuery t a p).isBanDomain (nameText p) = false := by
    have bans : (noteQuery t a p).banDomains = s.banDomains := starts.bans
    unfold Inspector.isBanDomain at allowed ⊢
    rw [bans]
    exact allowed
  obtain ⟨u, leaves, left⟩ := attachDnsToFlow_leaves (queryType p) starts.keyed
    starts.unnamed (by rw [starts.names]; exact pools.2) (nameText_nonzero p)
  have stepped : s.step (a, p) = some u := by
    unfold step processFlow
    rw [if_pos query.long]
    unfold Inspector.withInfo
    rw [attached]
    simp only
    rw [processMessage_query t a i query, handleStandardQuery_eq t a i (nameInside_of_question question) read,
      if_neg (by rw [passes]; decide)]
    exact congrArg Except.toOption leaves
  obtain ⟨name, named, text⟩ := left.named
  have locked : u.world.lockInfo .dns (u.world.flows a) = some i := by
    unfold lockInfo
    rw [left.infos.pools, left.infos.pointers]
    exact starts.locked
  have unseen : Unseen (noteQuery t a p).countAllow (nameText p) ↔ Unseen s (nameText p) := by
    unfold Unseen
    rw [starts.maps]
  unfold sees
  rw [stepped, Option.bind_some]
  unfold view
  simp only [locked, named, text, left.qtype, starts.qtype, unseen, Option.bind_eq_bind,
    Option.bind_some]

/-! ### After other queries -/

/-- The protocol with its domain managers, before its first packet. -/
def plugged (objects : CacheId → Nat) (ban domains : Option (Bytes → Bool)) : DNSProtocol :=
  { new objects with banDomains := ban, domains := domains }

/-- The packets of other flows give a flow no name. -/
theorem always_unnamed {history : List (Obj × L7Packet)} (others : ∀ e ∈ history, e.1 ≠ a)
    (keyed : Keyed .dns s.world) (fresh : (s.world.flows a).info .dns = none) :
    Transition.Always step (fun s => Unnamed s a) s history := by
  have unnamed (s : DNSProtocol) (fresh : (s.world.flows a).info .dns = none) : Unnamed s a := by
    intro i locked
    obtain ⟨pointer, -⟩ := lockInfo_some locked
    rw [fresh] at pointer
    exact absurd pointer (by simp)
  induction history generalizing s with
  | nil => exact unnamed s fresh
  | cons e history ih =>
    refine ⟨unnamed s fresh, fun t stepped => ?_⟩
    have handled := ends_value (processFlow_handled (a := e.1) e.2 keyed.filled)
      (toOption_some stepped)
    have other : a ≠ e.1 := (others e (by simp)).symm
    apply ih (fun e' member => others e' (by simp [member])) (step_keyed keyed stepped)
    rw [(handled_spares handled).pointers a .dns fun both => other both.1]
    exact fresh

theorem sees_anew {few : CacheId → Nat} (query : IsQuery p)
    (allowed : s.isBanDomain (nameText p) = false) (pools : NotExhausted (anew s few)) :
    sees (anew s few) a p = some (nameText p, queryType p) := by
  rw [sees_query (s := anew s few) (keyed_start few none) query allowed
    (fun _ locked => by cases locked) pools]
  exact congrArg (fun q => some (nameText p, q)) (if_pos rfl)

/-- The type of a query is lost when the name is known, unless the info has that type already. -/
theorem always_sees_question_iff (objects : CacheId → Nat) (ban domains : Option (Bytes → Bool))
    (history : List (Obj × L7Packet)) :
    Transition.Always step (fun s => ∀ (a : Obj) (p : L7Packet) (few : CacheId → Nat), IsQuery p →
        s.isBanDomain (nameText p) = false → Unnamed s a → NotExhausted s →
        NotExhausted (anew s few) →
        sees (anew s few) a p = some (nameText p, queryType p) ∧
        (sees s a p = sees (anew s few) a p ↔ Unseen s (nameText p) ∨ typeBefore s a = queryType p))
      (plugged objects ban domains) history := by
  have keyed : Transition.Always step (fun s => Keyed .dns s.world) (plugged objects ban domains)
      history :=
    Transition.always_of_inv (fun _ _ _ keyed stepped => step_keyed keyed stepped)
      (keyed_start objects none)
  apply Transition.always_mono _ keyed
  intro s keyed a p few query allowed unnamed pools fewPools
  have first := sees_anew (a := a) query allowed fewPools
  refine ⟨first, ?_⟩
  rw [first, sees_query keyed query allowed unnamed pools]
  simp only [Option.some.injEq, Prod.mk.injEq, true_and]
  by_cases unseen : Unseen s (nameText p)
  · simp [unseen]
  · simp [unseen]

def letterQuery (qtype : BitVec 8) : L7Packet where
  payload := [0, 1, 1, 0, 0, 1, 0, 0, 0, 0, 0, 0, 1, 0x61, 0, 0, qtype, 0, 1]
  direction := .forward

/-- The second flow asks for the other type of address. -/
theorem not_always_sees_question :
    ¬∀ (objects : CacheId → Nat) (ban domains : Option (Bytes → Bool))
      (history : List (Obj × L7Packet)),
      Transition.Always step (fun s => ∀ (a : Obj) (p : L7Packet) (few : CacheId → Nat),
          (∀ e ∈ history, e.1 ≠ a) → IsQuery p → s.isBanDomain (nameText p) = false →
          Unnamed s a → NotExhausted s → NotExhausted (anew s few) →
          sees s a p = sees (anew s few) a p)
        (plugged objects ban domains) history := by
  intro all
  have always := all (fun _ => 2) none none [(⟨.flow 0, 0⟩, letterQuery 1)]
  cases reached : Transition.run step (plugged (fun _ => 2) none none)
      [(⟨.flow 0, 0⟩, letterQuery 1)] with
  | none => exact absurd reached (by decide +kernel)
  | some t =>
    have loses : ((Transition.run step (plugged (fun _ => 2) none none)
        [(⟨.flow 0, 0⟩, letterQuery 1)]).any fun t =>
          decide (NotExhausted t ∧ NotExhausted (anew t fun _ => 1) ∧ t.banDomains.isNone = true ∧
            (t.world.flows ⟨.flow 0, 1⟩).info .dns = none ∧
            sees t ⟨.flow 0, 1⟩ (letterQuery 0x1c) ≠
              sees (anew t fun _ => 1) ⟨.flow 0, 1⟩ (letterQuery 0x1c))) = true := by
      decide +kernel
    rw [reached, Option.any_some, decide_eq_true_eq] at loses
    obtain ⟨pools, fewPools, free, fresh, apart⟩ := loses
    apply apart
    apply Transition.always_final always reached ⟨.flow 0, 1⟩ (letterQuery 0x1c) (fun _ => 1)
      (by decide) ⟨by decide, by decide, by decide, by decide⟩ _ _ pools fewPools
    · unfold Inspector.isBanDomain
      rw [Option.isNone_iff_eq_none.mp free, Option.any_none]
    · intro i locked
      rw [(lockInfo_some locked).1] at fresh
      exact absurd fresh (by simp)

end DNSProtocol

end AIEngine
