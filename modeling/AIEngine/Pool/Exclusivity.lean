import AIEngine.Pool.Client

/-!
# The free part and the outstanding objects

The free part is a prefix of the vector, but `create` appends at its end: when objects are
outstanding, growing the pool moves the index over stale slots, whose owners may be objects that
clients still hold.
-/

namespace AIEngine.Pool

/-- The free part holds distinct objects, none of them outstanding. -/
structure Exclusive (s : Client) : Prop where
  distinct : s.cache.free.Nodup
  disjoint : ∀ a ∈ s.outstanding, some a ∉ s.cache.free

/-- The stale slots that `create` turns into free ones hold distinct objects that are neither free
already nor outstanding. -/
def ExposesNoHolder (s : Client) : Op → Prop
  | .create n => (s.cache.free ++ s.cache.stale n).Nodup ∧
      ∀ a ∈ s.outstanding, some a ∉ s.cache.stale n
  | _ => True

/-- The objects `create` constructs, as far as they land in the free part. -/
theorem fresh_mem {c : Cache} {n m : Nat} {x : Option Obj}
    (member : x ∈ ((List.range n).map fun k => some (⟨c.id, c.made + k⟩ : Obj)).take m) :
    ∃ k, c.made ≤ k ∧ x = some ⟨c.id, k⟩ := by
  obtain ⟨k, -, same⟩ := List.mem_map.mp (List.mem_of_mem_take member)
  exact ⟨c.made + k, Nat.le_add_right _ _, same.symm⟩

theorem fresh_nodup (c : Cache) (n m : Nat) :
    (((List.range n).map fun k => some (⟨c.id, c.made + k⟩ : Obj)).take m).Nodup := by
  refine (List.take_sublist _ _).nodup (List.nodup_range.map ?_)
  intro i j same
  simpa using same

theorem create_exclusive_iff {s : Client} (n : Int) (wf : Wf s) (exclusive : Exclusive s) :
    Exclusive { s with cache := s.cache.create n } ↔ ExposesNoHolder s (.create n) := by
  have free := Cache.create_free s.cache n wf.bound
  have old : ∀ x ∈ s.cache.free ++ s.cache.stale n, x ∈ s.cache.items := by
    intro x member
    rcases List.mem_append.mp member with low | high
    · exact List.mem_of_mem_take low
    · exact List.mem_of_mem_drop (List.mem_of_mem_take high)
  constructor
  · rintro ⟨distinct, disjoint⟩
    rw [free] at distinct disjoint
    refine ⟨(List.nodup_append.mp distinct).1, fun a held exposed => ?_⟩
    exact disjoint a held (List.mem_append_left _ (List.mem_append_right _ exposed))
  · rintro ⟨distinct, disjoint⟩
    refine ⟨?_, fun a held member => ?_⟩
    · rw [free, List.nodup_append]
      refine ⟨distinct, fresh_nodup _ _ _, fun x known y new same => ?_⟩
      obtain ⟨k, below, rfl⟩ := wf.filled x (old x known)
      obtain ⟨l, above, rfl⟩ := fresh_mem new
      simp only [Option.some.injEq, Obj.mk.injEq, true_and] at same
      omega
    · rw [free] at member
      rcases List.mem_append.mp member with known | new
      · rcases List.mem_append.mp known with low | exposed
        · exact exclusive.disjoint a held low
        · exact disjoint a held exposed
      · obtain ⟨k, below, rfl⟩ := wf.held a held
        obtain ⟨l, above, same⟩ := fresh_mem new
        simp only [Option.some.injEq, Obj.mk.injEq, true_and] at same
        omega

/-- The object handed out is no longer free, and nobody held it. -/
theorem acquire_exclusive {s : Client} {a : Obj} {c : Cache} (exclusive : Exclusive s)
    (h : s.cache.acquire = .ok (some a, c)) :
    Exclusive { cache := c, outstanding := a :: s.outstanding } ∧ a ∉ s.outstanding := by
  obtain ⟨distinct, disjoint⟩ := exclusive
  have free := Cache.acquire_free h
  rw [free] at distinct disjoint
  rw [List.nodup_append] at distinct
  obtain ⟨rest, -, apart⟩ := distinct
  refine ⟨⟨rest, fun b held member => ?_⟩, fun held => ?_⟩
  · rcases List.mem_cons.mp held with rfl | old
    · exact apart _ member _ List.mem_cons_self rfl
    · exact disjoint b old (List.mem_append_left _ member)
  · exact disjoint a held (List.mem_append_right _ List.mem_cons_self)

theorem release_exclusive {s : Client} {a : Obj} (nodup : s.outstanding.Nodup)
    (exclusive : Exclusive s) (member : a ∈ s.outstanding) :
    Exclusive { cache := s.cache.release (some a), outstanding := s.outstanding.erase a } := by
  obtain ⟨distinct, disjoint⟩ := exclusive
  by_cases room : s.cache.total < s.cache.items.length
  · have free := Cache.release_free (some a) room
    refine ⟨?_, fun b held free' => ?_⟩
    · rw [free, List.nodup_append]
      refine ⟨distinct, by simp, fun x old y new same => ?_⟩
      obtain rfl := List.mem_singleton.mp new
      exact disjoint a member (same ▸ old)
    · rw [free] at free'
      rcases List.mem_append.mp free' with old | new
      · exact disjoint b (List.mem_of_mem_erase held) old
      · obtain rfl := Option.some.inj (List.mem_singleton.mp new)
        exact (nodup.mem_erase_iff.mp held).1 rfl
  · rw [Cache.release_full _ room]
    exact ⟨distinct, fun b held => disjoint b (List.mem_of_mem_erase held)⟩

theorem destroy_exclusive {s : Client} (n : Int) (exclusive : Exclusive s) :
    Exclusive { s with cache := s.cache.destroy n } := by
  have sub : (s.cache.destroy n).free.Sublist s.cache.free := by
    rw [Cache.destroy_free]
    exact List.take_sublist_take_left (Nat.sub_le _ _)
  exact ⟨sub.nodup exclusive.distinct,
    fun a held member => exclusive.disjoint a held (sub.subset member)⟩

/-- With nothing stale in the vector, growing the pool is always safe. -/
theorem exposes_of_full {s : Client} (n : Int) (exclusive : Exclusive s)
    (full : s.cache.items.length ≤ s.cache.total) : ExposesNoHolder s (.create n) := by
  have none : s.cache.stale n = [] := by simp [Cache.stale, List.drop_of_length_le full]
  rw [ExposesNoHolder, none]
  exact ⟨by simpa using exclusive.distinct, by simp⟩

/-- A pool right after its first `create`. -/
theorem start_create_exclusive (id : CacheId) (n : Int) :
    Exclusive { cache := Cache.create { id := id } n } := by
  have exclusive : Exclusive (start id) := ⟨by simp [start, Cache.free], by simp [start]⟩
  have exposes := exposes_of_full n exclusive (by simp [start])
  exact (create_exclusive_iff n (wf_start id) exclusive).mpr exposes

theorem step_exclusive_iff {s t : Client} {op : Op} (wf : Wf s) (nodup : s.outstanding.Nodup)
    (exclusive : Exclusive s) (h : step s op = some t) : Exclusive t ↔ ExposesNoHolder s op := by
  rcases step_cases h with ⟨n, rfl, rfl⟩ | ⟨a, c, rfl, acquired, rfl⟩ | ⟨c, rfl, failed, rfl⟩ |
    ⟨a, rfl, member, rfl⟩ | ⟨n, rfl, rfl⟩
  · exact create_exclusive_iff n wf exclusive
  · exact iff_of_true (acquire_exclusive exclusive acquired).1 trivial
  · obtain ⟨-, rfl⟩ := Cache.acquire_none failed
    exact iff_of_true ⟨exclusive.distinct, exclusive.disjoint⟩ trivial
  · exact iff_of_true (release_exclusive nodup exclusive member) trivial
  · exact iff_of_true (destroy_exclusive n exclusive) trivial

/-- Out of an exclusive state no object is handed out twice. -/
theorem step_nodup {s t : Client} {op : Op} (nodup : s.outstanding.Nodup)
    (exclusive : Exclusive s) (h : step s op = some t) : t.outstanding.Nodup := by
  rcases step_cases h with ⟨n, rfl, rfl⟩ | ⟨a, c, rfl, acquired, rfl⟩ | ⟨c, rfl, failed, rfl⟩ |
    ⟨a, rfl, member, rfl⟩ | ⟨n, rfl, rfl⟩
  · exact nodup
  · exact List.nodup_cons.mpr ⟨(acquire_exclusive exclusive acquired).2, nodup⟩
  · exact nodup
  · exact nodup.erase a
  · exact nodup

/-- Exclusivity of the pool and of the hands: one client holds an object at a time. -/
def Sole (s : Client) : Prop := s.outstanding.Nodup ∧ Exclusive s

theorem always_sole {s : Client} {ops : List Op} (nodup : s.outstanding.Nodup)
    (h : Transition.Always step Exclusive s ops) : Transition.Always step Sole s ops := by
  induction ops generalizing s with
  | nil => exact ⟨nodup, h⟩
  | cons op rest ih =>
    obtain ⟨exclusive, after⟩ := h
    exact ⟨⟨nodup, exclusive⟩,
      fun t stepped => ih (step_nodup nodup exclusive stepped) (after t stepped)⟩

/-- The object an `acquire` returns is not in the hands of another client. -/
def HandsOutUnheld (s : Client) (op : Op) (t : Client) : Prop :=
  op = .acquire → ∀ a, t.outstanding = a :: s.outstanding → a ∉ s.outstanding

theorem step_hands_out_unheld {s t : Client} {op : Op} (exclusive : Exclusive s)
    (h : step s op = some t) : HandsOutUnheld s op t := by
  intro acquires a handed
  rcases step_cases h with ⟨n, rfl, rfl⟩ | ⟨b, c, rfl, acquired, rfl⟩ | ⟨c, rfl, failed, rfl⟩ |
    ⟨b, rfl, member, rfl⟩ | ⟨n, rfl, rfl⟩
  · exact absurd acquires (by simp)
  · obtain ⟨rfl, -⟩ := List.cons.inj handed
    exact (acquire_exclusive exclusive acquired).2
  · exact absurd handed.symm (List.cons_ne_self a _)
  · exact absurd acquires (by simp)
  · exact absurd acquires (by simp)

/-- The pool stays exclusive exactly when no `create` exposes a slot of an object somebody holds,
and then `acquire` only hands out objects that nobody holds. -/
theorem always_exclusive_iff (id : CacheId) (ops : List Op) :
    (Transition.Always step Exclusive (start id) ops ↔
      Transition.Along step (fun s op _ => ExposesNoHolder s op) (start id) ops) ∧
    (Transition.Always step Exclusive (start id) ops →
      Transition.Along step HandsOutUnheld (start id) ops) := by
  have sole : Sole (start id) := ⟨by simp [start], ⟨by simp [start, Cache.free], by simp [start]⟩⟩
  have exact : Transition.Always step Sole (start id) ops ↔
      Transition.Along step (fun s op _ => ExposesNoHolder s op) (start id) ops := by
    refine Transition.always_iff_along (fun _ _ _ wf h => wf_step wf h) ?_ (wf_start id) sole
    intro s op t wf sole h
    obtain ⟨nodup, exclusive⟩ := sole
    rw [← step_exclusive_iff wf nodup exclusive h]
    exact and_iff_right (step_nodup nodup exclusive h)
  refine ⟨⟨fun h => exact.mp (always_sole sole.1 h),
    fun h => Transition.always_mono (fun _ both => both.2) (exact.mpr h)⟩, fun h => ?_⟩
  exact Transition.along_of_always (fun _ _ _ exclusive _ h => step_hands_out_unheld exclusive h) h

/-- The pool is grown while its only object is outstanding: the next `acquire` hands it out again. -/
theorem not_always_exclusive :
    ¬∀ ops, Transition.Always step Exclusive (start (.flow 0)) ops := by
  intro h
  have exclusive := Transition.always_final (h [.create 1, .acquire, .create 1]) rfl
  exact exclusive.disjoint ⟨.flow 0, 0⟩ (by decide) (by decide)

end AIEngine.Pool
