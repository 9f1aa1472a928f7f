import Mathlib.Data.List.Basic
import Mathlib.Data.List.Nodup

/-!
# Slots of a vector

Membership in a list after one slot is overwritten or a block of slots is cut out, in terms of the
slots of the list before.
-/

namespace Slots

variable {α : Type*}

theorem mem_set_iff {xs : List α} {i : Nat} {x y : α} :
    y ∈ xs.set i x ↔ (i < xs.length ∧ y = x) ∨ ∃ j, j ≠ i ∧ xs[j]? = some y := by
  simp only [List.mem_iff_getElem?, List.getElem?_set]
  constructor
  · rintro ⟨j, h⟩
    split at h
    · split at h
      · exact Or.inl ⟨‹_›, (Option.some.inj h).symm⟩
      · exact absurd h (by simp)
    · exact Or.inr ⟨j, fun e => by simp_all, h⟩
  · rintro (⟨bound, rfl⟩ | ⟨j, other, h⟩)
    · exact ⟨i, by simp [bound]⟩
    · exact ⟨j, by simp [Ne.symm other, h]⟩

theorem mem_take_iff {xs : List α} {m : Nat} {y : α} :
    y ∈ xs.take m ↔ ∃ j, j < m ∧ xs[j]? = some y := by
  simp only [List.mem_iff_getElem?, List.getElem?_take]
  constructor
  · rintro ⟨j, h⟩
    split at h
    · exact ⟨j, ‹_›, h⟩
    · exact absurd h (by simp)
  · rintro ⟨j, bound, h⟩
    exact ⟨j, by simp [bound, h]⟩

theorem mem_drop_iff {xs : List α} {m : Nat} {y : α} :
    y ∈ xs.drop m ↔ ∃ j, m ≤ j ∧ xs[j]? = some y := by
  simp only [List.mem_iff_getElem?, List.getElem?_drop]
  constructor
  · rintro ⟨j, h⟩
    exact ⟨m + j, by omega, h⟩
  · rintro ⟨j, bound, h⟩
    exact ⟨j - m, by rw [show m + (j - m) = j by omega]; exact h⟩

/-- What is left after the block `[m, n)` is cut out. -/
theorem mem_cut_iff {xs : List α} {m n : Nat} {y : α} :
    y ∈ xs.take m ++ xs.drop n ↔ ∃ j, (j < m ∨ n ≤ j) ∧ xs[j]? = some y := by
  simp only [List.mem_append, mem_take_iff, mem_drop_iff]
  constructor
  · rintro (⟨j, bound, h⟩ | ⟨j, bound, h⟩)
    · exact ⟨j, Or.inl bound, h⟩
    · exact ⟨j, Or.inr bound, h⟩
  · rintro ⟨j, bound | bound, h⟩
    · exact Or.inl ⟨j, bound, h⟩
    · exact Or.inr ⟨j, bound, h⟩

/-- Writing the slot just above a prefix extends the prefix by the new element. -/
theorem take_set_succ {xs : List α} {m : Nat} {x : α} (bound : m < xs.length) :
    (xs.set m x).take (m + 1) = xs.take m ++ [x] := by
  apply List.ext_getElem?
  intro j
  simp only [List.getElem?_take, List.getElem?_set, List.getElem?_append, List.length_take]
  rw [Nat.min_eq_left (by omega)]
  rcases Nat.lt_trichotomy j m with h | rfl | h
  · simp [h, show j < m + 1 by omega, show m ≠ j by omega]
  · simp [bound]
  · simp [show ¬j < m by omega, show ¬j < m + 1 by omega, show j - m ≠ 0 by omega]

/-- The last slot of a nonempty prefix. -/
theorem take_eq_append_last {xs : List α} {m : Nat} {x : α} (pos : 0 < m)
    (last : xs[m - 1]? = some x) : xs.take m = xs.take (m - 1) ++ [x] := by
  obtain ⟨k, rfl⟩ : ∃ k, m = k + 1 := ⟨m - 1, by omega⟩
  rw [List.take_add_one, show k + 1 - 1 = k from rfl]
  simp only [show k + 1 - 1 = k from rfl] at last
  rw [last]
  rfl

end Slots
