import Mathlib.Data.List.Dedup
import Mathlib.Data.List.Induction
import Mathlib.Data.List.Perm.Subperm

/-!
# Interning under keys that lose something

A value is looked for under itself, and kept under the key `stored` makes of it. When `stored` is
idempotent, a value that it changes is never found again, and it may stand in the way of the value it
is changed to.
-/

namespace LossyKeys

variable {V : Type*} [DecidableEq V] (stored : V → V)

/-- The first of the values that is kept under this key. -/
def find (taken : List V) (v : V) : Option V := taken.find? fun u => decide (stored u = v)

/-- The values that an object has been taken for, and one more if `v` is not found. -/
def take (taken : List V) (v : V) : List V :=
  if (find stored taken v).isSome then taken else taken ++ [v]

def takeAll (vs : List V) : List V := vs.foldl (take stored) []

/-- What stands in the object that `v` gets. -/
def given (taken : List V) (v : V) : V := (find stored taken v).getD v

/-- A value that `stored` changes comes once, and another one before those that are changed to it. -/
def Canonical (vs : List V) : Prop :=
  ∀ v ∈ vs, if stored v = v then find stored vs v = some v else vs.count v = 1

instance (vs : List V) : Decidable (Canonical stored vs) :=
  inferInstanceAs (Decidable (∀ v ∈ vs, if stored v = v then find stored vs v = some v else
    vs.count v = 1))

variable {stored} {vs pre taken : List V} {u v w : V}

theorem find_some (found : find stored taken v = some u) : u ∈ taken ∧ stored u = v :=
  ⟨List.mem_of_find?_eq_some found, by simpa using List.find?_some found⟩

theorem find_append (taken more : List V) (v : V) :
    find stored (taken ++ more) v = (find stored taken v).or (find stored more v) :=
  List.find?_append

theorem find_single (w v : V) : find stored [w] v = if stored w = v then some w else none := by
  unfold find
  by_cases same : stored w = v
  · simp [same]
  · simp [same]

theorem takeAll_append (vs : List V) (v : V) :
    takeAll stored (vs ++ [v]) = take stored (takeAll stored vs) v := by
  rw [takeAll, List.foldl_append]
  rfl

/-- A value that `stored` changes is never found. -/
theorem find_changed (idem : ∀ v, stored (stored v) = stored v) (changed : stored v ≠ v)
    (taken : List V) : find stored taken v = none := by
  cases found : find stored taken v with
  | none => rfl
  | some u =>
    have key := (find_some found).2
    exact absurd (by rw [← key, idem]) changed

/-- The first value of a key has always been taken. -/
theorem find_takeAll (idem : ∀ v, stored (stored v) = stored v) (vs : List V) (v : V) :
    find stored (takeAll stored vs) v = find stored vs v := by
  induction vs using List.reverseRecOn with
  | nil => rfl
  | append_singleton vs w ih =>
    rw [takeAll_append, take, find_append, find_single]
    by_cases known : (find stored (takeAll stored vs) w).isSome = true
    · rw [if_pos known, ih]
      by_cases key : stored w = v
      · -- `w` is found, so it is its own key
        have own : stored w = w := by
          by_contra changed
          rw [find_changed idem changed] at known
          exact absurd known (by simp)
        obtain rfl : w = v := own.symm.trans key
        obtain ⟨u, found⟩ := Option.isSome_iff_exists.mp known
        rw [← ih, found]
        rfl
      · rw [if_neg key, Option.or_none]
    · rw [if_neg known, find_append, find_single, ih]

/-- An object is taken for each value that `stored` changes. -/
theorem count_takeAll (idem : ∀ v, stored (stored v) = stored v) (changed : stored v ≠ v)
    (vs : List V) : (takeAll stored vs).count v = vs.count v := by
  induction vs using List.reverseRecOn with
  | nil => rfl
  | append_singleton vs w ih =>
    rw [takeAll_append, take, List.count_append]
    by_cases known : (find stored (takeAll stored vs) w).isSome = true
    · have other : w ≠ v := by
        rintro rfl
        rw [find_changed idem changed] at known
        exact absurd known (by simp)
      rw [if_pos known, ih, List.count_singleton, beq_false_of_ne other]
      rfl
    · rw [if_neg known, List.count_append, ih]

/-- A value that is its own key is taken once. -/
theorem count_takeAll_le (same : stored v = v) (vs : List V) : (takeAll stored vs).count v ≤ 1 := by
  induction vs using List.reverseRecOn with
  | nil => exact Nat.zero_le 1
  | append_singleton vs w ih =>
    rw [takeAll_append, take]
    by_cases known : (find stored (takeAll stored vs) w).isSome = true
    · rw [if_pos known]
      exact ih
    · rw [if_neg known, List.count_append]
      by_cases other : w = v
      · subst other
        have absent : w ∉ takeAll stored vs := by
          intro member
          refine known (List.find?_isSome.mpr ⟨w, member, decide_eq_true same⟩)
        rw [List.count_eq_zero_of_not_mem absent]
        exact Nat.le_trans (Nat.le_of_eq (Nat.zero_add _)) (List.count_le_length (l := [w]))
      · rw [List.count_singleton, beq_false_of_ne other]
        exact ih

theorem takeAll_subset (vs : List V) : takeAll stored vs ⊆ vs := by
  induction vs using List.reverseRecOn with
  | nil => exact List.Subset.refl []
  | append_singleton vs w ih =>
    rw [takeAll_append, take]
    split
    · exact List.subset_append_of_subset_left _ ih
    · exact List.append_subset.mpr ⟨List.subset_append_of_subset_left _ ih,
        List.subset_append_right _ _⟩

/-! ### When nothing is lost -/

/-- Each value gets an object of its own. -/
def Exact (stored : V → V) (vs : List V) : Prop :=
  ∀ pre v post, vs = pre ++ v :: post → given stored (takeAll stored pre) v = v

theorem exact_iff (idem : ∀ v, stored (stored v) = stored v) :
    Exact stored vs ↔ ∀ v ∈ vs, stored v = v → find stored vs v = some v := by
  constructor
  · intro exact v member same
    obtain ⟨pre, post, split⟩ := List.append_of_mem member
    have here := exact pre v post split
    rw [given, find_takeAll idem] at here
    have own : find stored (v :: post) v = some v := by
      simp [find, same]
    rw [split, find_append, own]
    cases found : find stored pre v with
    | none => rfl
    | some u =>
      rw [found] at here
      exact congrArg some here
  · rintro first pre v post rfl
    rw [given, find_takeAll idem]
    cases found : find stored pre v with
    | none => rfl
    | some u =>
      by_cases same : stored v = v
      · have whole := first v (by simp) same
        rw [find_append, found] at whole
        exact Option.some.inj whole
      · exact absurd (found.symm.trans (find_changed idem same pre)) (by simp)

theorem mem_takeAll (idem : ∀ v, stored (stored v) = stored v) (exact : Exact stored vs)
    (member : v ∈ vs) : v ∈ takeAll stored vs := by
  by_cases same : stored v = v
  · have found := (exact_iff idem).mp exact v member same
    rw [← find_takeAll idem] at found
    exact (find_some found).1
  · rw [← List.count_pos_iff, count_takeAll idem same]
    exact List.count_pos_iff.mpr member

theorem nodup_takeAll (idem : ∀ v, stored (stored v) = stored v) (canonical : Canonical stored vs) :
    (takeAll stored vs).Nodup := by
  rw [List.nodup_iff_count_le_one]
  intro v
  by_cases same : stored v = v
  · exact count_takeAll_le same vs
  · rw [count_takeAll idem same]
    by_cases member : v ∈ vs
    · have here := canonical v member
      rw [if_neg same] at here
      omega
    · rw [List.count_eq_zero_of_not_mem member]
      exact Nat.zero_le 1

/-- Nothing is lost, and no more objects are taken than there are values, exactly for the canonical
lists. -/
theorem canonical_iff (idem : ∀ v, stored (stored v) = stored v) :
    Canonical stored vs ↔
      Exact stored vs ∧ (takeAll stored vs).length = vs.dedup.length := by
  constructor
  · intro canonical
    have exact : Exact stored vs := (exact_iff idem).mpr fun v member same => by
      have here := canonical v member
      rwa [if_pos same] at here
    have once := nodup_takeAll idem canonical
    refine ⟨exact, ((List.perm_ext_iff_of_nodup once (List.nodup_dedup vs)).mpr fun v => ?_).length_eq⟩
    rw [List.mem_dedup]
    exact ⟨fun member => takeAll_subset vs member, mem_takeAll idem exact⟩
  · rintro ⟨exact, counted⟩ v member
    by_cases same : stored v = v
    · rw [if_pos same]
      exact (exact_iff idem).mp exact v member same
    · rw [if_neg same, ← count_takeAll idem same]
      have inside : vs.dedup ⊆ takeAll stored vs := fun w inside =>
        mem_takeAll idem exact (List.mem_dedup.mp inside)
      have sub := List.subperm_of_subset (List.nodup_dedup vs) inside
      have perm := sub.perm_of_length_le (Nat.le_of_eq counted)
      rw [← perm.count_eq, List.count_eq_one_of_mem (List.nodup_dedup vs)
        (List.mem_dedup.mpr member)]

end LossyKeys
