import AIEngine.Pool.Client

/-!
# Outstanding objects and their owners

`acquire` only moves the index and leaves the owning slot in place; `release` overwrites whichever
slot stands at the index. When objects come back in another order than LIFO, that slot can be the
only owner of an object some client still holds, and its weak pointer expires.
-/

namespace AIEngine.Pool

/-- Every outstanding object is still strongly owned by the cache. -/
def Owned (s : Client) : Prop := ∀ a ∈ s.outstanding, s.cache.Owns a

instance (s : Client) : Decidable (Owned s) := inferInstanceAs (Decidable (∀ a ∈ _, _))

/-- The slots whose owner the operation drops. -/
def Drops (c : Cache) : Op → Nat → Prop
  | .release _, j => j = c.total
  | .destroy n, j => c.total - c.realItems n ≤ j ∧ j < c.total
  | .create _, _ => False
  | .acquire, _ => False

/-- No dropped slot is the only owner of an outstanding object, the released one apart. -/
def KeepsOwners (s : Client) (op : Op) : Prop :=
  ∀ a ∈ s.outstanding, op ≠ .release a →
    ∃ j, ¬Drops s.cache op j ∧ s.cache.items[j]? = some (some a)

theorem release_owned_iff {s : Client} {a : Obj} (owned : Owned s) (member : a ∈ s.outstanding) :
    Owned { cache := s.cache.release (some a), outstanding := s.outstanding.erase a } ↔
      KeepsOwners s (.release a) := by
  have other : ∀ b ∈ s.outstanding, Op.release a ≠ .release b → b ∈ s.outstanding.erase a := by
    intro b held different
    exact (List.mem_erase_of_ne (fun same => different (by rw [same]))).mpr held
  by_cases room : s.cache.total < s.cache.items.length
  · have owns : ∀ b, (s.cache.release (some a)).Owns b ↔
        b = a ∨ ∃ j, j ≠ s.cache.total ∧ s.cache.items[j]? = some (some b) := by
      intro b
      rw [Cache.release_room _ room, Cache.Owns, Slots.mem_set_iff]
      simp [room]
    constructor
    · intro after b held different
      rcases (owns b).mp (after b (other b held different)) with rfl | ⟨j, kept, slot⟩
      · exact absurd rfl different
      · exact ⟨j, kept, slot⟩
    · intro keeps b held
      by_cases same : b = a
      · exact (owns b).mpr (Or.inl same)
      · obtain ⟨j, kept, slot⟩ := keeps b (List.mem_of_mem_erase held)
          (fun equal => same (by cases equal; rfl))
        exact (owns b).mpr (Or.inr ⟨j, kept, slot⟩)
  · rw [Cache.release_full _ room]
    refine iff_of_true (fun b held => owned b (List.mem_of_mem_erase held)) ?_
    intro b held _
    obtain ⟨j, slot⟩ := List.mem_iff_getElem?.mp (owned b held)
    have inside : j < s.cache.items.length := (List.getElem?_eq_some_iff.mp slot).1
    exact ⟨j, by simp only [Drops]; omega, slot⟩

theorem destroy_owned_iff {s : Client} (n : Int) :
    Owned { s with cache := s.cache.destroy n } ↔ KeepsOwners s (.destroy n) := by
  have owns : ∀ a, (s.cache.destroy n).Owns a ↔
      ∃ j, ¬Drops s.cache (.destroy n) j ∧ s.cache.items[j]? = some (some a) := by
    intro a
    rw [Cache.destroy_eq, Cache.Owns, Slots.mem_cut_iff]
    refine exists_congr fun j => and_congr_left fun _ => ?_
    simp only [Drops, not_and, Nat.not_lt]
    omega
  refine forall_congr' fun a => forall_congr' fun _ => ?_
  rw [owns a]
  exact ⟨fun h _ => h, fun h => h (by simp)⟩

theorem step_owned_iff {s t : Client} {op : Op} (owned : Owned s) (h : step s op = some t) :
    Owned t ↔ KeepsOwners s op := by
  have kept : ∀ op', (∀ j, ¬Drops s.cache op' j) → KeepsOwners s op' := by
    intro op' none a held _
    obtain ⟨j, slot⟩ := List.mem_iff_getElem?.mp (owned a held)
    exact ⟨j, none j, slot⟩
  rcases step_cases h with ⟨n, rfl, rfl⟩ | ⟨a, c, rfl, acquired, rfl⟩ | ⟨c, rfl, failed, rfl⟩ |
    ⟨a, rfl, member, rfl⟩ | ⟨n, rfl, rfl⟩
  · refine iff_of_true (fun a held => ?_) (kept _ fun _ => id)
    rw [Cache.create_eq]
    exact List.mem_append_left _ (owned a held)
  · obtain ⟨-, slot, rfl⟩ := Cache.acquire_some acquired
    refine iff_of_true (fun b held => ?_) (kept _ fun _ => id)
    rcases List.mem_cons.mp held with rfl | old
    · exact List.mem_of_getElem? slot
    · exact owned b old
  · obtain ⟨-, rfl⟩ := Cache.acquire_none failed
    exact iff_of_true owned (kept _ fun _ => id)
  · exact release_owned_iff owned member
  · exact destroy_owned_iff n

/-- A run never loses an outstanding object exactly when each of its steps keeps the owners. -/
theorem always_owned_iff (id : CacheId) (ops : List Op) :
    Transition.Always step Owned (start id) ops ↔
      Transition.Along step (fun s op _ => KeepsOwners s op) (start id) ops := by
  have empty : Owned (start id) := by simp [Owned, start]
  exact Transition.always_iff_along (J := fun _ => True) (fun _ _ _ _ _ => trivial)
    (fun _ _ _ _ owned h => step_owned_iff owned h) trivial empty

/-- Two objects released in the order they were acquired: the first release overwrites the slot of
the second object. -/
theorem not_always_owned :
    ¬∀ ops, Transition.Always step Owned (start (.info .http)) ops := by
  intro h
  have owned := Transition.always_final
    (h [.create 2, .acquire, .acquire, .release ⟨.info .http, 1⟩]) rfl
  revert owned
  decide

end AIEngine.Pool
