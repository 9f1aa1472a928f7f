import Mathlib.Data.List.Nodup
import Mathlib.Data.List.Perm.Subperm

/-!
# Objects that go back to their slots

Slots up to a mark are filled; the ones behind it still have what was in them when it was taken out.
What comes back is written at the mark, as long as there is a slot, and drops what stood there. So a
thing that comes back late may be gone by then, unless somebody else keeps it.
-/

namespace Refilling

variable {α : Type*} [DecidableEq α] (kept : α → Prop) [DecidablePred kept]

/-- The filled slots after some things have come back, those that are gone left out. -/
def refill : List α → List α → List α → List α
  | filled, _, [] => filled
  | filled, behind, a :: more =>
    if a ∈ filled ∨ a ∈ behind ∨ kept a then
      match behind with
      | [] => refill filled [] more
      | _ :: behind => refill (filled ++ [a]) behind more
    else refill filled behind more

/-- Everything that is out comes back in time, and once: the first things are different ones, as many
as the slots, and each is there when its turn comes. -/
structure Returns (behind back : List α) : Prop where
  enough : behind.length ≤ back.length
  once : (back.take behind.length).Nodup
  there : ∀ j a, j < behind.length → back[j]? = some a → a ∈ behind.drop j ∨ kept a

variable {kept} {filled behind back : List α} {a : α}

theorem refill_full (filled back : List α) : refill kept filled [] back = filled := by
  induction back with
  | nil => rfl
  | cons a more ih =>
    unfold refill
    split
    · exact ih
    · exact ih

theorem refill_there {b : α} (there : a ∈ filled ∨ a ∈ b :: behind ∨ kept a) (more : List α) :
    refill kept filled (b :: behind) (a :: more) = refill kept (filled ++ [a]) behind more := by
  rw [refill, if_pos there]

theorem refill_gone (gone : ¬(a ∈ filled ∨ a ∈ behind ∨ kept a)) (more : List α) :
    refill kept filled behind (a :: more) = refill kept filled behind more := by
  cases behind with
  | nil => rw [refill, if_neg gone]
  | cons b behind => rw [refill, if_neg gone]

theorem refill_extends (filled behind back : List α) :
    filled <+: refill kept filled behind back := by
  induction back generalizing filled behind with
  | nil => exact List.prefix_rfl
  | cons a more ih =>
    cases behind with
    | nil =>
      have full : refill kept filled [] (a :: more) = filled := refill_full ..
      exact full.symm ▸ List.prefix_rfl
    | cons b behind =>
      by_cases there : a ∈ filled ∨ a ∈ b :: behind ∨ kept a
      · rw [refill_there there]
        exact (List.prefix_append filled [a]).trans (ih (filled ++ [a]) behind)
      · rw [refill_gone there]
        exact ih filled (b :: behind)

/-- Nothing comes back to life. -/
theorem refill_there_before {c : α} (present : c ∈ refill kept filled behind back) :
    c ∈ filled ∨ c ∈ behind ∨ kept c := by
  induction back generalizing filled behind with
  | nil => exact .inl present
  | cons a more ih =>
    cases behind with
    | nil =>
      rw [refill_full] at present
      exact .inl present
    | cons b behind =>
      by_cases there : a ∈ filled ∨ a ∈ b :: behind ∨ kept a
      · rw [refill_there there] at present
        rcases ih present with old | still | out
        · rcases List.mem_append.mp old with before | new
          · exact .inl before
          · rw [List.mem_singleton.mp new]
            exact there
        · exact .inr (.inl (List.mem_cons_of_mem b still))
        · exact .inr (.inr out)
      · rw [refill_gone there] at present
        exact ih present

theorem refill_of_there
    (there : ∀ j a, j < behind.length → back[j]? = some a → a ∈ behind.drop j ∨ kept a) :
    refill kept filled behind back = filled ++ back.take behind.length := by
  induction back generalizing filled behind with
  | nil =>
    rw [List.take_nil, List.append_nil]
    rfl
  | cons a more ih =>
    cases behind with
    | nil => rw [refill_full, List.length_nil, List.take_zero, List.append_nil]
    | cons b behind =>
      have first : a ∈ b :: behind ∨ kept a := there 0 a (by simp) rfl
      rw [refill_there (.inr first), ih, List.length_cons, List.take_succ_cons, List.append_assoc]
      · rfl
      · intro j c inside slot
        exact there (j + 1) c (by simpa using inside) slot

/-- When all slots are filled and nothing is gone or there twice, everything was there at its turn. -/
theorem there_of_refill (nodup : (refill kept filled behind back).Nodup)
    (size : (refill kept filled behind back).length = filled.length + behind.length)
    (all : ∀ a ∈ back, a ∈ refill kept filled behind back) :
    behind.length ≤ back.length ∧
      ∀ j a, j < behind.length → back[j]? = some a → a ∈ behind.drop j ∨ kept a := by
  induction back generalizing filled behind with
  | nil =>
    change filled.length = _ at size
    have empty : behind.length = 0 := by omega
    exact ⟨by simp [empty], fun j a inside _ => by omega⟩
  | cons a more ih =>
    cases behind with
    | nil => exact ⟨by simp, fun j c inside _ => absurd inside (by simp)⟩
    | cons b behind =>
      by_cases there : a ∈ filled ∨ a ∈ b :: behind ∨ kept a
      · rw [refill_there there] at nodup size all
        obtain ⟨enough, later⟩ := ih nodup (by simp at size ⊢; omega)
          fun c member => all c (List.mem_cons_of_mem a member)
        refine ⟨by simpa using enough, fun j c inside slot => ?_⟩
        cases j with
        | zero =>
          obtain rfl := Option.some.inj slot
          have apart : (filled ++ [a]).Nodup :=
            nodup.sublist (refill_extends (filled ++ [a]) behind more).sublist
          have fresh : a ∉ filled := fun old =>
            (List.nodup_append.mp apart).2.2 a old a (List.mem_singleton.mpr rfl) rfl
          exact there.resolve_left fresh
        | succ j => exact later j c (by simpa using inside) slot
      · rw [refill_gone there] at all
        exact absurd (refill_there_before (all a List.mem_cons_self)) there

/-- The slots are filled with what was in them exactly when everything returns. -/
theorem refill_perm_iff (distinct : (filled ++ behind).Nodup) (out : ∀ a ∈ back, a ∈ behind) :
    (refill kept filled behind back).Perm (filled ++ behind) ↔ Returns kept behind back := by
  constructor
  · intro perm
    have nodup := perm.nodup_iff.mpr distinct
    obtain ⟨enough, there⟩ := there_of_refill nodup (by rw [perm.length_eq, List.length_append])
      fun a member => perm.mem_iff.mpr (List.mem_append_right filled (out a member))
    refine ⟨enough, ?_, there⟩
    rw [refill_of_there there] at nodup
    exact (List.nodup_append.mp nodup).2.1
  · rintro ⟨enough, once, there⟩
    rw [refill_of_there there]
    apply List.Perm.append_left
    have inside : ∀ a ∈ back.take behind.length, a ∈ behind := fun a member =>
      out a (List.mem_of_mem_take member)
    exact (once.subperm inside).perm_of_length_le (by rw [List.length_take]; omega)

end Refilling
