import AIEngine.Library.Transition
import AIEngine.Regex.ChainRuns

/-!
# HTTP payloads and the payloads of other flows

`process_payloadl7` is meant to do with a flow what the generic protocols do. It neither rejects a
flow nor asks for evidence, and without a regex it goes back to the manager of the domain.
-/

namespace AIEngine

namespace Regexs

/-- What the two paths are compared on. -/
structure Effect where
  regex : Option Nat
  regexMng : Option Nat
  haveEvidence : Bool
  reject : Bool
  totalMatchs : Nat → BitVec 32
  totalMatchedSignatures : Nat → BitVec 32

def effect (t : Regexs × Flow) : Effect where
  regex := t.2.regex
  regexMng := t.2.regexMng
  haveEvidence := t.2.haveEvidence
  reject := t.2.reject
  totalMatchs := fun r => (t.1.regexs r).totalMatchs
  totalMatchedSignatures := fun m => (t.1.managers m).totalMatchedSignatures

/-- The path of a flow whose domain has the manager. -/
def httpStep (manager : Nat) (t : Regexs × Flow) (data : Bytes) : Regexs × Flow :=
  t.1.processPayloadl7 (some { regexManager := some manager }) t.2 data

def genericStep (t : Regexs × Flow) (data : Bytes) : Regexs × Flow :=
  TCPGenericProtocol.processFlow t.1 t.2 data

/-- What is found when the set is asked, or what follows the regex of the flow. -/
def foundIn (t : Regexs × Flow) (manager : Nat) (data : Bytes) : Option Nat :=
  t.1.chain.found ⟨manager, t.1.lockRegex t.2.regex⟩ data

/-- Nothing is found on either path; or the same regex is found on both, by the same manager if one is
asked, and the flow has all the marks of the regex already. -/
def Agrees (manager : Nat) (t : Regexs × Flow) (data : Bytes) : Prop :=
  (foundIn t manager data = none ∧
    ∀ own, t.1.lockManager t.2.regexMng = some own → foundIn t own data = none) ∨
  ∃ own r, t.1.lockManager t.2.regexMng = some own ∧ foundIn t manager data = some r ∧
    foundIn t own data = some r ∧ (t.1.lockRegex t.2.regex = none → own = manager) ∧
    ((t.1.regexs r).rejectConnection = true → t.2.reject = true) ∧
    ((t.1.regexs r).haveEvidence = true → t.2.haveEvidence = true)

/-! ### One payload -/

section Step

variable {h u : Regexs} {f : Flow} {data : Bytes} {manager : Nat}

theorem processPayloadl7_spec (h : Regexs) (f : Flow) (manager : Nat) (data : Bytes) :
    ∃ u, Counted (h.chain.tried ⟨manager, h.lockRegex f.regex⟩ data)
        (foundIn (h, f) manager data) (countedBy ⟨manager, h.lockRegex f.regex⟩) h u ∧
      httpStep manager (h, f) data = (u,
        match foundIn (h, f) manager data with
        | some r => u.attach f r
        | none => f) := by
  obtain ⟨u, next, counted, attempt, known⟩ := attempt_spec h ⟨manager, h.lockRegex f.regex⟩ data
  refine ⟨u, counted, ?_⟩
  unfold httpStep processPayloadl7 foundIn
  simp only
  rw [attempt]
  cases found : h.chain.found ⟨manager, h.lockRegex f.regex⟩ data with
  | none => rfl
  | some r =>
    obtain rfl := known r found
    rfl

/-- The two ways to count a match. -/
theorem effect_counted {tried : List Nat} {found by' : Option Nat} (g : Flow)
    (counted : Counted tried found by' h u) :
    effect (u, g) =
      { effect (h, g) with
        totalMatchs := fun r =>
          (h.regexs r).totalMatchs + BitVec.ofNat 32 (found.toList.count r)
        totalMatchedSignatures := fun m => (h.managers m).totalMatchedSignatures +
          if found.isSome ∧ by' = some m then 1 else 0 } := by
  unfold effect
  congr 1
  · funext r
    exact counted.totalMatchs r
  · funext m
    exact counted.totalMatchedSignatures m

theorem effect_missed {tried : List Nat} {by' : Option Nat} (g : Flow)
    (counted : Counted tried none by' h u) : effect (u, g) = effect (h, g) := by
  rw [effect_counted g counted]
  simp [effect]

theorem add_one_ne (n : BitVec 32) : n + 1 ≠ n := by
  intro same
  bv_omega

/-- Equal effects have found equal regexes. -/
theorem found_eq {tried tried' : List Nat} {found found' by' by'' : Option Nat} {u u' : Regexs}
    {g g' : Flow} (counted : Counted tried found by' h u) (counted' : Counted tried' found' by'' h u')
    (same : effect (u, g) = effect (u', g')) : found = found' := by
  have totals : ∀ r, (h.regexs r).totalMatchs + BitVec.ofNat 32 (found.toList.count r) =
      (h.regexs r).totalMatchs + BitVec.ofNat 32 (found'.toList.count r) := by
    intro r
    rw [← counted.totalMatchs, ← counted'.totalMatchs]
    exact congrFun (congrArg Effect.totalMatchs same) r
  cases found with
  | none =>
    cases found' with
    | none => rfl
    | some r' =>
      have total := totals r'
      simp only [Option.toList_none, List.count_nil, Option.toList_some, List.count_singleton_self]
        at total
      exact absurd (total.symm.trans (BitVec.add_zero _)) (add_one_ne _)
  | some r =>
    have total := totals r
    by_cases equal : found' = some r
    · exact equal.symm
    · have others : found'.toList.count r = 0 := by
        cases found' with
        | none => rfl
        | some r' =>
          have different : r' ≠ r := fun no => equal (congrArg some no)
          simp [different]
      rw [others] at total
      simp only [Option.toList_some, List.count_singleton_self] at total
      exact absurd (total.trans (BitVec.add_zero _)) (add_one_ne _)

theorem attach_fields (h : Regexs) (f : Flow) (r : Nat) :
    (h.attach f r).regex = (if (h.regexs r).regexMng.isSome then none else some r) ∧
      (h.attach f r).regexMng = (h.regexs r).regexMng.or f.regexMng ∧
      (h.attach f r).reject = f.reject ∧ (h.attach f r).haveEvidence = f.haveEvidence := by
  unfold attach
  cases (h.regexs r).regexMng with
  | none => exact ⟨rfl, rfl, rfl, rfl⟩
  | some m => exact ⟨rfl, rfl, rfl, rfl⟩

theorem mark_flags (h : Regexs) (g : Flow) (r : Nat) :
    (h.mark g r).reject = ((h.regexs r).rejectConnection || g.reject) ∧
      (h.mark g r).haveEvidence = ((h.regexs r).haveEvidence || g.haveEvidence) := by
  unfold mark
  cases (h.regexs r).rejectConnection <;> cases (h.regexs r).haveEvidence <;> exact ⟨rfl, rfl⟩

/-- The managers that count a match show in their totals. -/
theorem countedBy_eq {by' by'' : Option Nat} {totals : Nat → BitVec 32}
    (same : ∀ m, totals m + (if by' = some m then 1 else 0) =
      totals m + if by'' = some m then 1 else 0) : by' = by'' := by
  cases by' with
  | none =>
    cases by'' with
    | none => rfl
    | some m =>
      have total := same m
      simp only [reduceCtorEq, if_false, if_true] at total
      exact absurd (total.symm.trans (BitVec.add_zero _)) (add_one_ne _)
  | some m =>
    have total := same m
    by_cases equal : by'' = some m
    · exact equal.symm
    · simp only [equal, if_false, if_true] at total
      exact absurd (total.trans (BitVec.add_zero _)) (add_one_ne _)

theorem orFlag {asks flag : Bool} : (flag = (asks || flag)) ↔ (asks = true → flag = true) := by
  cases asks <;> cases flag <;> decide

/-- The same regex is found on both paths. -/
theorem matched_effects {tried tried' : List Nat} {by' by'' : Option Nat} {v : Regexs} {r : Nat}
    (f : Flow) (counted : Counted tried (some r) by' h u)
    (counted' : Counted tried' (some r) by'' h v) :
    effect (u, u.attach f r) = effect (v, v.mark (v.attach (notePacket f) r) r) ↔
      by' = by'' ∧ ((h.regexs r).rejectConnection = true → f.reject = true) ∧
        ((h.regexs r).haveEvidence = true → f.haveEvidence = true) := by
  obtain ⟨regex, regexMng, reject, evidence⟩ := attach_fields u f r
  obtain ⟨regex', regexMng', reject', evidence'⟩ := attach_fields v (notePacket f) r
  obtain ⟨rejects, evidences⟩ := mark_flags v (v.attach (notePacket f) r) r
  rw [counted.plugged.regexMng] at regex regexMng
  rw [counted'.plugged.regexMng] at regex' regexMng'
  rw [reject', counted'.plugged.rejectConnection] at rejects
  rw [evidence', counted'.plugged.haveEvidence] at evidences
  have rejects : _ = ((h.regexs r).rejectConnection || f.reject) := rejects
  have evidences : _ = ((h.regexs r).haveEvidence || f.haveEvidence) := evidences
  rw [effect_counted _ counted, effect_counted _ counted']
  simp only [effect, mark_regex, mark_regexMng, regex, regex', regexMng, regexMng', reject, evidence,
    rejects, evidences, Effect.mk.injEq, orFlag, Option.isSome_some, true_and]
  constructor
  · rintro ⟨-, asksEvidence, asksReject, managers⟩
    exact ⟨countedBy_eq (fun m => congrFun managers m), asksReject, asksEvidence⟩
  · rintro ⟨rfl, asksReject, asksEvidence⟩
    exact ⟨rfl, asksEvidence, asksReject, rfl⟩

theorem countedBy_iff {own : Nat} (current : Option Nat) :
    countedBy ⟨manager, current⟩ = countedBy ⟨own, current⟩ ↔ (current = none → own = manager) := by
  cases current with
  | none => simp [countedBy, eq_comm]
  | some r => simp [countedBy]

/-- A payload has the same effect on both paths exactly if they agree on it. -/
theorem effect_eq_iff (t : Regexs × Flow) (manager : Nat) (data : Bytes) :
    effect (httpStep manager t data) = effect (genericStep t data) ↔ Agrees manager t data := by
  obtain ⟨h, f⟩ := t
  obtain ⟨u, counted, http⟩ := processPayloadl7_spec h f manager data
  cases locked : h.lockManager f.regexMng with
  | none =>
    have generic : genericStep (h, f) data = (h, notePacket f) := by
      unfold genericStep TCPGenericProtocol.processFlow processFlow
      simp only [locked]
    rw [http, generic]
    constructor
    · intro same
      exact Or.inl ⟨found_eq counted (counted_refl h none) same,
        fun own no => absurd (locked.symm.trans no) (by simp)⟩
    · rintro (⟨none, -⟩ | ⟨own, r, no, -⟩)
      · rw [none] at counted ⊢
        exact effect_missed f counted
      · exact absurd (locked.symm.trans no) (by simp)
  | some own =>
    obtain ⟨v, counted', generic⟩ := processFlow_spec data locked
    have same : genericStep (h, f) data = (v,
        match foundIn (h, f) own data with
        | some r => v.mark (v.attach (notePacket f) r) r
        | none => notePacket f) := generic
    have counted' : Counted _ (foundIn (h, f) own data) _ h v := counted'
    rw [http, same]
    constructor
    · intro same
      have equal := found_eq counted counted' same
      cases found : foundIn (h, f) manager data with
      | none =>
        refine Or.inl ⟨found, fun own' other => ?_⟩
        obtain rfl := Option.some.inj (locked.symm.trans other)
        exact equal.symm.trans found
      | some r =>
        have found' : foundIn (h, f) own data = some r := equal.symm.trans found
        rw [found] at counted same
        rw [found'] at counted' same
        obtain ⟨managers, asksReject, asksEvidence⟩ := (matched_effects f counted counted').mp same
        exact Or.inr ⟨own, r, locked, found, found', (countedBy_iff _).mp managers, asksReject,
          asksEvidence⟩
    · rintro (⟨none, missed⟩ | ⟨own', r, locked', found, found', managers, asksReject, asksEvidence⟩)
      · rw [none] at counted ⊢
        rw [missed own locked] at counted' ⊢
        exact (effect_missed f counted).trans (effect_missed (notePacket f) counted').symm
      · obtain rfl := Option.some.inj (locked.symm.trans locked')
        rw [found] at counted ⊢
        rw [found'] at counted' ⊢
        exact (matched_effects f counted counted').mpr
          ⟨(countedBy_iff _).mpr managers, asksReject, asksEvidence⟩

end Step

/-! ### Every run of payloads -/

section Runs

variable {s t : Regexs × Flow} {manager : Nat}

theorem plugged_http (manager : Nat) (t : Regexs × Flow) (data : Bytes) :
    Plugged t.1 (httpStep manager t data).1 := by
  obtain ⟨u, counted, http⟩ := processPayloadl7_spec t.1 t.2 manager data
  rw [http]
  exact counted.plugged

theorem plugged_generic (t : Regexs × Flow) (data : Bytes) : Plugged t.1 (genericStep t data).1 := by
  cases locked : t.1.lockManager t.2.regexMng with
  | none =>
    have generic : genericStep t data = (t.1, notePacket t.2) := by
      unfold genericStep TCPGenericProtocol.processFlow processFlow
      simp only [locked]
    rw [generic]
    exact plugged_refl t.1
  | some own =>
    obtain ⟨v, counted, generic⟩ := processFlow_spec data locked
    have generic : genericStep t data = _ := generic
    rw [generic]
    exact counted.plugged

/-- Two states with the same regexes, and with nothing to be seen apart. -/
structure Alike (s t : Regexs × Flow) : Prop where
  plugged : Plugged t.1 s.1
  effect : effect s = effect t

/-- The counters of evaluations and the last match of a manager do not matter for what comes next. -/
theorem effect_http (manager : Nat) (alike : Alike s t) (data : Bytes) :
    effect (httpStep manager s data) = effect (httpStep manager t data) := by
  obtain ⟨u, counted, http⟩ := processPayloadl7_spec s.1 s.2 manager data
  obtain ⟨v, counted', http'⟩ := processPayloadl7_spec t.1 t.2 manager data
  have regex : s.2.regex = t.2.regex := congrArg Effect.regex alike.effect
  have locked : s.1.lockRegex s.2.regex = t.1.lockRegex t.2.regex := by
    rw [regex, alike.plugged.lockRegex]
  have found : foundIn (s.1, s.2) manager data = foundIn (t.1, t.2) manager data := by
    unfold foundIn
    simp only [locked, alike.plugged.chain]
  have totals : ∀ r, (s.1.regexs r).totalMatchs = (t.1.regexs r).totalMatchs :=
    congrFun (congrArg Effect.totalMatchs alike.effect)
  have managers : ∀ m, (s.1.managers m).totalMatchedSignatures =
      (t.1.managers m).totalMatchedSignatures :=
    congrFun (congrArg Effect.totalMatchedSignatures alike.effect)
  have regexMng : s.2.regexMng = t.2.regexMng := congrArg Effect.regexMng alike.effect
  have reject : s.2.reject = t.2.reject := congrArg Effect.reject alike.effect
  have evidence : s.2.haveEvidence = t.2.haveEvidence := congrArg Effect.haveEvidence alike.effect
  rw [locked, found] at counted
  rw [http, http', found, effect_counted _ counted, effect_counted _ counted']
  cases known : foundIn (t.1, t.2) manager data with
  | none => simp only [effect, regex, regexMng, reject, evidence, totals, managers]
  | some r =>
    obtain ⟨regex₁, regexMng₁, reject₁, evidence₁⟩ := attach_fields u s.2 r
    obtain ⟨regex₂, regexMng₂, reject₂, evidence₂⟩ := attach_fields v t.2 r
    rw [counted.plugged.regexMng, alike.plugged.regexMng] at regex₁ regexMng₁
    rw [counted'.plugged.regexMng] at regex₂ regexMng₂
    simp only [effect, regex₁, regex₂, regexMng₁, regexMng₂, reject₁, reject₂, evidence₁, evidence₂,
      regexMng, reject, evidence, totals, managers]

theorem runs_agree (alike : Alike s t) (payloads : List Bytes) :
    (∀ done, done <+: payloads →
      effect (done.foldl (httpStep manager) s) = effect (done.foldl genericStep t)) ↔
    Transition.Along (fun t data => some (genericStep t data)) (fun t data _ => Agrees manager t data)
      t payloads := by
  induction payloads generalizing s t with
  | nil =>
    refine iff_of_true (fun done inside => ?_) trivial
    obtain rfl := List.prefix_nil.mp inside
    exact alike.effect
  | cons data rest ih =>
    have http := effect_http manager alike data
    have next : effect (httpStep manager s data) = effect (genericStep t data) →
        Alike (httpStep manager s data) (genericStep t data) := by
      intro same
      refine ⟨?_, same⟩
      exact plugged_trans (plugged_symm (plugged_generic t data))
        (plugged_trans alike.plugged (plugged_http manager s data))
    constructor
    · intro agree u stepped
      obtain rfl := Option.some.inj stepped
      have first : effect (httpStep manager s data) = effect (genericStep t data) :=
        agree [data] ⟨rest, rfl⟩
      refine ⟨(effect_eq_iff t manager data).mp (http.symm.trans first), (ih (next first)).mp ?_⟩
      intro done inside
      exact agree (data :: done) (List.cons_prefix_cons.mpr ⟨rfl, inside⟩)
    · intro along done inside
      obtain ⟨agrees, later⟩ := along (genericStep t data) rfl
      have first := http.trans ((effect_eq_iff t manager data).mpr agrees)
      cases done with
      | nil => exact alike.effect
      | cons d done =>
        obtain ⟨rfl, below⟩ := List.cons_prefix_cons.mp inside
        exact (ih (next first)).mpr later done below

/-- On every run of payloads, the two paths have the same effect at every moment exactly if they agree
on every payload. -/
theorem payloads_agree_iff (manager : Nat) (t : Regexs × Flow) (payloads : List Bytes) :
    (∀ done, done <+: payloads →
      effect (done.foldl (httpStep manager) t) = effect (done.foldl genericStep t)) ↔
    Transition.Along (fun t data => some (genericStep t data)) (fun t data _ => Agrees manager t data)
      t payloads :=
  runs_agree ⟨plugged_refl t.1, rfl⟩ payloads

/-- A regex that rejects the connection, on the flow of a domain with its manager. -/
theorem not_always_agree :
    ¬∀ (manager : Nat) (h : Regexs) (f : Flow) (data : Bytes), f.regexMng = some manager →
      effect (httpStep manager (h, f) data) = effect (genericStep (h, f) data) := by
  intro agree
  have same := agree 0
    { regexs := fun _ => { exec := fun _ => true, rejectConnection := true }
      managers := fun _ => { signatures := [0] } }
    { Flow.new with regexMng := some 0 } [] rfl
  exact absurd (congrArg Effect.reject same) (by decide)

end Runs

end Regexs

end AIEngine
