import Mathlib.Data.List.Basic
import Mathlib.Logic.Relation

/-!
# Chains of patterns

Patterns are tried on a stream of inputs. A set of patterns is tried in its order until one of them
matches. A pattern that has matched may be followed by one pattern, which alone is tried on later
inputs, or by another set; after a terminal pattern nothing is tried any more.
-/

/-- `R` are the patterns, `M` the sets of patterns, `P` the inputs. -/
structure Chain (R M P : Type) where
  hits : R → P → Bool
  patterns : M → List R
  terminal : R → Bool
  successor : R → Option R
  follower : R → Option M

namespace Chain

variable {R M P : Type}

/-- The current set, and the current pattern if there is one. -/
structure Position (R M : Type) where
  set : M
  current : Option R
  deriving DecidableEq, Repr

/-- The patterns up to the first one that matches. -/
def asked (c : Chain R M P) (p : P) : List R → List R
  | [] => []
  | r :: rest => if c.hits r p then [r] else r :: c.asked p rest

/-- What is tried on an input. -/
def tried (c : Chain R M P) (pos : Position R M) (p : P) : List R :=
  match pos.current with
  | none => c.asked p (c.patterns pos.set)
  | some r => if c.terminal r then [] else (c.successor r).toList

def found (c : Chain R M P) (pos : Position R M) (p : P) : Option R :=
  (c.tried pos p).find? fun r => c.hits r p

/-- Another set is next, or the pattern becomes the current one. -/
def accept (c : Chain R M P) (pos : Position R M) (r : R) : Position R M :=
  match c.follower r with
  | some m => { set := m, current := none }
  | none => { pos with current := some r }

def next (c : Chain R M P) (pos : Position R M) (p : P) : Position R M :=
  match c.found pos p with
  | some r => c.accept pos r
  | none => pos

def final (c : Chain R M P) (pos : Position R M) (ps : List P) : Position R M :=
  ps.foldl c.next pos

/-- The trials that succeed, in their order. -/
def successes (c : Chain R M P) : Position R M → List P → List R
  | _, [] => []
  | pos, p :: ps => (c.tried pos p).filter (fun r => c.hits r p) ++ c.successes (c.next pos p) ps

/-- Every pattern that is tried, as often as it is. -/
def trials (c : Chain R M P) : Position R M → List P → List R
  | _, [] => []
  | pos, p :: ps => c.tried pos p ++ c.trials (c.next pos p) ps

variable {c : Chain R M P} {pos : Position R M} {p : P}

theorem find_asked (rs : List R) :
    (c.asked p rs).find? (fun r => c.hits r p) = rs.find? fun r => c.hits r p := by
  induction rs with
  | nil => rfl
  | cons r rest ih =>
    unfold asked
    by_cases hit : c.hits r p = true
    · simp [hit]
    · simp [hit, ih]

/-- Without a current pattern, the first of the set that matches is found. -/
theorem found_set (none : pos.current = none) :
    c.found pos p = (c.patterns pos.set).find? fun r => c.hits r p := by
  unfold found tried
  rw [none]
  exact find_asked _

theorem found_terminal {r : R} (some : pos.current = some r) (terminal : c.terminal r = true) :
    c.found pos p = none := by
  simp [found, tried, some, terminal]

theorem found_successor {r : R} (some : pos.current = some r) (more : c.terminal r = false) :
    c.found pos p = (c.successor r).filter fun n => c.hits n p := by
  unfold found tried
  rw [some]
  simp only [more, Bool.false_eq_true, if_false]
  cases c.successor r with
  | none => rfl
  | some n =>
    cases hit : c.hits n p with
    | false => simp [hit, Option.filter]
    | true => simp [hit, Option.filter]

/-- The trial that succeeds is the match, and there is no other. -/
theorem filter_asked (rs : List R) :
    (c.asked p rs).filter (fun r => c.hits r p) = (rs.find? fun r => c.hits r p).toList := by
  induction rs with
  | nil => rfl
  | cons r rest ih =>
    unfold asked
    by_cases hit : c.hits r p = true
    · simp [hit]
    · simp [hit, ih]

theorem filter_tried (pos : Position R M) (p : P) :
    (c.tried pos p).filter (fun r => c.hits r p) = (c.found pos p).toList := by
  cases current : pos.current with
  | none =>
    rw [found_set current]
    unfold tried
    rw [current]
    exact filter_asked _
  | some r =>
    cases terminal : c.terminal r with
    | true =>
      rw [found_terminal current terminal]
      simp [tried, current, terminal]
    | false =>
      rw [found_successor current terminal]
      unfold tried
      rw [current]
      simp only [terminal, Bool.false_eq_true, if_false]
      cases c.successor r with
      | none => rfl
      | some n =>
        cases hit : c.hits n p with
        | false => simp [hit, Option.filter]
        | true => simp [hit, Option.filter]

/-- An input that leads back to the same position succeeds every time. -/
theorem count_successes_loop [DecidableEq R] {r : R} (back : c.next pos p = pos)
    (hit : c.found pos p = some r) (n : Nat) :
    (c.successes pos (List.replicate n p)).count r = n := by
  induction n with
  | zero => rfl
  | succ n ih =>
    rw [List.replicate_succ, successes, List.count_append, back, ih, filter_tried, hit]
    simp [Nat.add_comm]

/-! ### What can be reached -/

/-- What a set or a pattern leads to. -/
inductive Linked (c : Chain R M P) : M ⊕ R → M ⊕ R → Prop where
  | pattern {m : M} {r : R} (member : r ∈ c.patterns m) : Linked c (.inl m) (.inr r)
  | successor {r n : R} (next : c.successor r = some n) : Linked c (.inr r) (.inr n)
  | follower {r : R} {m : M} (next : c.follower r = some m) : Linked c (.inr r) (.inl m)

def Reaches (c : Chain R M P) (pos : Position R M) (x : M ⊕ R) : Prop :=
  Relation.ReflTransGen c.Linked (.inl pos.set) x ∨
    ∃ r, pos.current = some r ∧ Relation.ReflTransGen c.Linked (.inr r) x

theorem reaches_found {r : R} (h : c.found pos p = some r) : c.Reaches pos (.inr r) := by
  cases current : pos.current with
  | none =>
    rw [found_set current] at h
    exact Or.inl (.single (.pattern (List.mem_of_find?_eq_some h)))
  | some r' =>
    cases terminal : c.terminal r' with
    | true =>
      rw [found_terminal current terminal] at h
      exact absurd h (by simp)
    | false =>
      rw [found_successor current terminal] at h
      obtain ⟨next, -⟩ := Option.filter_eq_some_iff.mp h
      exact Or.inr ⟨r', current, .single (.successor next)⟩

theorem reaches_trans {x y : M ⊕ R} (first : c.Reaches pos x)
    (second : Relation.ReflTransGen c.Linked x y) : c.Reaches pos y := by
  rcases first with set | ⟨r, current, from'⟩
  · exact Or.inl (set.trans second)
  · exact Or.inr ⟨r, current, from'.trans second⟩

/-- A step reaches nothing that could not be reached before. -/
theorem reaches_next {x : M ⊕ R} (h : c.Reaches (c.next pos p) x) : c.Reaches pos x := by
  unfold next at h
  split at h
  · rename_i r hit
    have there := reaches_found hit
    unfold accept at h
    split at h
    · rename_i m follows
      rcases h with set | ⟨r', current, -⟩
      · exact reaches_trans there (.head (.follower follows) set)
      · exact absurd current (by simp)
    · rcases h with set | ⟨r', current, from'⟩
      · exact Or.inl set
      · obtain rfl := Option.some.inj current
        exact reaches_trans there from'
  · exact h

end Chain
