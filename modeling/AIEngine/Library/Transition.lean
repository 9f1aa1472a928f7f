import Mathlib.Data.List.Basic

/-!
# Runs of a partial step function

A system is a step function `step : σ → ι → Option σ`; `none` means that the label is refused in
that state and the run ends there. `Always` speaks about the states of a run, `Along` about its
steps. The rules below turn one lemma about a step into a statement about every run.
-/

namespace Transition

variable {σ ι : Type*} (step : σ → ι → Option σ)

/-- The state after the labels `is`, if none of them is refused. -/
def run : σ → List ι → Option σ
  | s, [] => some s
  | s, i :: rest => (step s i).bind fun t => run t rest

/-- `P` holds in every state of the run, the first one included. -/
def Always (P : σ → Prop) : σ → List ι → Prop
  | s, [] => P s
  | s, i :: rest => P s ∧ ∀ t, step s i = some t → Always P t rest

/-- `Q` holds of every step the run takes. -/
def Along (Q : σ → ι → σ → Prop) : σ → List ι → Prop
  | _, [] => True
  | s, i :: rest => ∀ t, step s i = some t → Q s i t ∧ Along Q t rest

variable {step}

@[simp] theorem run_nil (s : σ) : run step s [] = some s := rfl

theorem run_cons (s : σ) (i : ι) (rest : List ι) :
    run step s (i :: rest) = (step s i).bind fun t => run step t rest := rfl

theorem run_append (s : σ) (is js : List ι) :
    run step s (is ++ js) = (run step s is).bind fun t => run step t js := by
  induction is generalizing s with
  | nil => rfl
  | cons i rest ih =>
    simp only [List.cons_append, run_cons]
    cases step s i with
    | none => rfl
    | some t => simpa using ih t

theorem always_start {P : σ → Prop} {s : σ} {is : List ι} (h : Always step P s is) : P s := by
  cases is with
  | nil => exact h
  | cons i rest => exact h.1

/-- A run passes through the state any of its prefixes reaches. -/
theorem always_run {P : σ → Prop} {s t : σ} {is js : List ι} (h : Always step P s (is ++ js))
    (reached : run step s is = some t) : Always step P t js := by
  induction is generalizing s with
  | nil =>
    obtain rfl := Option.some.inj reached
    exact h
  | cons i rest ih =>
    simp only [run_cons, Option.bind_eq_some_iff] at reached
    obtain ⟨u, stepped, reached⟩ := reached
    exact ih (h.2 u stepped) reached

theorem always_final {P : σ → Prop} {s t : σ} {is : List ι} (h : Always step P s is)
    (reached : run step s is = some t) : P t := by
  have whole : Always step P s (is ++ []) := by simpa using h
  exact always_start (always_run whole reached)

/-- Evaluation refutes `Always`: the run goes through and ends in a state without `P`. -/
theorem not_always_of_run {P : σ → Prop} [DecidablePred P] {s : σ} {is : List ι}
    (bad : ((run step s is).any fun t => !decide (P t)) = true) : ¬Always step P s is := by
  intro h
  cases reached : run step s is with
  | none =>
    rw [reached] at bad
    exact absurd bad (by simp)
  | some t =>
    have held := always_final h reached
    rw [reached] at bad
    simp [held] at bad

theorem along_cons {Q : σ → ι → σ → Prop} {s t : σ} {i : ι} {rest : List ι}
    (stepped : step s i = some t) (met : Q s i t) (later : Along step Q t rest) :
    Along step Q s (i :: rest) := by
  intro u reached
  obtain rfl := Option.some.inj (stepped.symm.trans reached)
  exact ⟨met, later⟩

theorem always_mono {P P' : σ → Prop} {s : σ} {is : List ι} (sub : ∀ t, P t → P' t)
    (h : Always step P s is) : Always step P' s is := by
  induction is generalizing s with
  | nil => exact sub s h
  | cons i rest ih => exact ⟨sub s h.1, fun t stepped => ih (h.2 t stepped)⟩

/-- The invariant rule, for runs whose steps all meet `Q`. -/
theorem always_of_along {Inv : σ → Prop} {Q : σ → ι → σ → Prop} {s : σ} {is : List ι}
    (keep : ∀ s i t, Inv s → step s i = some t → Q s i t → Inv t)
    (start : Inv s) (guarded : Along step Q s is) : Always step Inv s is := by
  induction is generalizing s with
  | nil => exact start
  | cons i rest ih =>
    refine ⟨start, fun t stepped => ?_⟩
    obtain ⟨met, guarded⟩ := guarded t stepped
    exact ih (keep s i t start stepped met) guarded

/-- The invariant rule, for every run. -/
theorem always_of_inv {Inv : σ → Prop} {s : σ} {is : List ι}
    (keep : ∀ s i t, Inv s → step s i = some t → Inv t) (start : Inv s) : Always step Inv s is := by
  induction is generalizing s with
  | nil => exact start
  | cons i rest ih => exact ⟨start, fun t stepped => ih (keep s i t start stepped)⟩

/-- Two runs with the same labels stay related, when a step with one of them keeps states related. -/
theorem run_rel {R : σ → σ → Prop} (each : ∀ s t i, R s t → Option.Rel R (step s i) (step t i)) {s t : σ}
    (start : R s t) (is : List ι) : Option.Rel R (run step s is) (run step t is) := by
  induction is generalizing s t with
  | nil => exact .some start
  | cons i rest ih =>
    have stepped := each s t i start
    rw [run_cons, run_cons]
    generalize step s i = first at stepped ⊢
    generalize step t i = second at stepped ⊢
    cases stepped with
    | none => exact .none
    | some related => exact ih related

/-- What holds of a step between two states of the run holds of all its steps. -/
theorem along_of_always {P : σ → Prop} {Q : σ → ι → σ → Prop} {s : σ} {is : List ι}
    (each : ∀ s i t, P s → P t → step s i = some t → Q s i t)
    (h : Always step P s is) : Along step Q s is := by
  induction is generalizing s with
  | nil => trivial
  | cons i rest ih =>
    intro t stepped
    have after := h.2 t stepped
    exact ⟨each s i t h.1 (always_start after) stepped, ih after⟩

theorem always_and {P P' : σ → Prop} {s : σ} {is : List ι} (left : Always step P s is)
    (right : Always step P' s is) : Always step (fun s => P s ∧ P' s) s is := by
  induction is generalizing s with
  | nil => exact ⟨left, right⟩
  | cons i rest ih =>
    exact ⟨⟨left.1, right.1⟩, fun t stepped => ih (left.2 t stepped) (right.2 t stepped)⟩

/-- One step condition gives another where an invariant of the run holds. -/
theorem along_mono {P : σ → Prop} {Q Q' : σ → ι → σ → Prop} {s : σ} {is : List ι}
    (each : ∀ s i t, P s → step s i = some t → Q s i t → Q' s i t) (inv : Always step P s is)
    (h : Along step Q s is) : Along step Q' s is := by
  induction is generalizing s with
  | nil => trivial
  | cons i rest ih =>
    intro t stepped
    obtain ⟨met, later⟩ := h t stepped
    exact ⟨each s i t inv.1 stepped met, ih (inv.2 t stepped) later⟩

/-- Two conditions on steps agree on runs when they agree as long as one of them has held. -/
theorem along_iff {Good : σ → Prop} {Q Q' : σ → ι → σ → Prop} {s : σ} {is : List ι}
    (keep : ∀ s i t, Good s → step s i = some t → Q' s i t → Good t)
    (exact : ∀ s i t, Good s → step s i = some t → (Q s i t ↔ Q' s i t)) (start : Good s) :
    Along step Q s is ↔ Along step Q' s is := by
  induction is generalizing s with
  | nil => exact Iff.rfl
  | cons i rest ih =>
    constructor
    · intro h t stepped
      obtain ⟨met, later⟩ := h t stepped
      have same := (exact s i t start stepped).mp met
      exact ⟨same, (ih (keep s i t start stepped same)).mp later⟩
    · intro h t stepped
      obtain ⟨met, later⟩ := h t stepped
      exact ⟨(exact s i t start stepped).mpr met, (ih (keep s i t start stepped met)).mpr later⟩

/-- The last step of a run that goes through meets the condition. -/
theorem along_last {Q : σ → ι → σ → Prop} {s u t : σ} {i : ι} {is : List ι}
    (h : Along step Q s (is ++ [i])) (reached : run step s is = some u)
    (stepped : step u i = some t) : Q u i t := by
  induction is generalizing s with
  | nil =>
    obtain rfl := Option.some.inj reached
    exact (h t stepped).1
  | cons j rest ih =>
    obtain ⟨v, moved, reached⟩ := Option.bind_eq_some_iff.mp reached
    exact ih (h v moved).2 reached

/-- Evaluation refutes `Along`: the run goes through, and its last step ends without `P`. -/
theorem not_along_of_run {Q : σ → ι → σ → Prop} {P : σ → σ → Prop} [DecidableRel P] {s : σ} {i : ι}
    {is : List ι} (each : ∀ u t, Q u i t → P u t)
    (bad : ((run step s is).any fun u => (step u i).any fun t => !decide (P u t)) = true) :
    ¬Along step Q s (is ++ [i]) := by
  intro h
  obtain ⟨u, reached, last⟩ := (Option.any_eq_true _ _).mp bad
  obtain ⟨t, stepped, without⟩ := (Option.any_eq_true _ _).mp last
  have met := each u t (along_last h reached stepped)
  simp [met] at without

/-- When `Q` decides whether a step keeps `P`, it decides whether a run does. `Good` is what is known
of a state as long as `P` has held. -/
theorem always_iff_along_good {Good P : σ → Prop} {Q : σ → ι → σ → Prop} {s : σ} {is : List ι}
    (sub : ∀ s, Good s → P s) (keep : ∀ s i t, Good s → step s i = some t → P t → Good t)
    (exact : ∀ s i t, Good s → step s i = some t → (P t ↔ Q s i t)) (start : Good s) :
    Always step P s is ↔ Along step Q s is := by
  induction is generalizing s with
  | nil => exact iff_of_true (sub s start) trivial
  | cons i rest ih =>
    constructor
    · intro h t stepped
      have after := h.2 t stepped
      have held := always_start after
      exact ⟨(exact s i t start stepped).mp held, (ih (keep s i t start stepped held)).mp after⟩
    · intro h
      refine ⟨sub s start, fun t stepped => ?_⟩
      have held := (exact s i t start stepped).mpr (h t stepped).1
      exact (ih (keep s i t start stepped held)).mpr (h t stepped).2

/-- `J` is an invariant of every run that the step lemma may use. -/
theorem always_iff_along {J P : σ → Prop} {Q : σ → ι → σ → Prop} {s : σ} {is : List ι}
    (keep : ∀ s i t, J s → step s i = some t → J t)
    (exact : ∀ s i t, J s → P s → step s i = some t → (P t ↔ Q s i t))
    (inv : J s) (start : P s) : Always step P s is ↔ Along step Q s is := by
  refine @always_iff_along_good _ _ _ (fun s => J s ∧ P s) _ _ _ _ ?_ ?_ ?_ ?_
  · exact fun s good => good.2
  · exact fun s i t good stepped held => ⟨keep s i t good.1 stepped, held⟩
  · exact fun s i t good stepped => exact s i t good.1 good.2 stepped
  · exact ⟨inv, start⟩

end Transition
