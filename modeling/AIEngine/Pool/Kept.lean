import AIEngine.Pool.Exclusivity
import AIEngine.Pool.Ownership

/-!
# Pools that are only acquired from and released to

Once a pool has been created and only `acquire` and `release` follow, every slot has its object either
in the free part or in the hands of one client, in whatever order the objects come back.
-/

namespace AIEngine.Pool

structure Kept (s : Client) : Prop where
  wf : Wf s
  sole : Sole s
  counted : s.cache.total + s.outstanding.length = s.cache.items.length

theorem kept_create (id : CacheId) (n : Nat) : Kept { cache := Cache.create { id := id } n } := by
  have grown : step (start id) (.create n) = some { cache := Cache.create { id := id } n } := rfl
  refine ⟨wf_step (wf_start id) grown, ⟨List.nodup_nil, start_create_exclusive _ _⟩, ?_⟩
  rw [Cache.create_eq]
  simp

theorem kept_acquire {s : Client} {a : Obj} {c : Cache} (kept : Kept s)
    (h : s.cache.acquire = .ok (some a, c)) :
    Kept { cache := c, outstanding := a :: s.outstanding } ∧ a ∉ s.outstanding := by
  have stepped : step s .acquire = some { cache := c, outstanding := a :: s.outstanding } := by
    unfold step
    simp only [h]
  obtain ⟨exclusive, fresh⟩ := acquire_exclusive kept.sole.2 h
  refine ⟨⟨wf_step kept.wf stepped, ⟨step_nodup kept.sole.1 kept.sole.2 stepped, exclusive⟩, ?_⟩,
    fresh⟩
  obtain ⟨pos, -, rfl⟩ := Cache.acquire_some h
  have counted := kept.counted
  simp only [List.length_cons]
  omega

theorem kept_fail {s : Client} {c : Cache} (kept : Kept s) (h : s.cache.acquire = .ok (none, c)) :
    Kept { s with cache := c } := by
  obtain ⟨-, rfl⟩ := Cache.acquire_none h
  obtain ⟨⟨bound, filled, hands⟩, ⟨nodup, distinct, disjoint⟩, counted⟩ := kept
  exact ⟨⟨bound, filled, hands⟩, ⟨nodup, distinct, disjoint⟩, counted⟩

/-- There is room for everything that is outstanding. -/
theorem kept_room {s : Client} {a : Obj} (kept : Kept s) (member : a ∈ s.outstanding) :
    s.cache.total < s.cache.items.length := by
  have nonempty : 0 < s.outstanding.length := List.length_pos_of_mem member
  have counted := kept.counted
  omega

theorem kept_release {s : Client} {a : Obj} (kept : Kept s) (member : a ∈ s.outstanding) :
    Kept { cache := s.cache.release (some a), outstanding := s.outstanding.erase a } := by
  have room := kept_room kept member
  have exclusive := release_exclusive kept.sole.1 kept.sole.2 member
  refine ⟨wf_release kept.wf member, ⟨kept.sole.1.erase a, exclusive⟩, ?_⟩
  have nonempty : 0 < s.outstanding.length := List.length_pos_of_mem member
  have counted := kept.counted
  rw [Cache.release_room _ room, List.length_erase_of_mem member]
  simp only [List.length_set]
  omega

theorem kept_perm {s : Client} {held : List Obj} (kept : Kept s) (perm : held.Perm s.outstanding) :
    Kept { s with outstanding := held } := by
  obtain ⟨⟨bound, filled, hands⟩, ⟨nodup, distinct, disjoint⟩, counted⟩ := kept
  refine ⟨⟨bound, filled, fun a member => hands a (perm.mem_iff.mp member)⟩,
    ⟨perm.nodup_iff.mpr nodup, distinct, fun a member => disjoint a (perm.mem_iff.mp member)⟩, ?_⟩
  rw [perm.length_eq]
  exact counted

/-! ### Accounts -/

/-- What one step of a system does to a pool and to the objects that are out. An object that is given
back must not cost another one its owner where the clients rely on it (`guarded`). -/
inductive Move (guarded : Prop) (s t : Client) : Prop where
  | same (cache : t.cache = s.cache) (perm : t.outstanding.Perm s.outstanding)
  | acquired (a : Obj) (taken : s.cache.acquire = .ok (some a, t.cache))
      (perm : t.outstanding.Perm (a :: s.outstanding))
  | failed (failed : s.cache.acquire = .ok (none, t.cache))
      (perm : t.outstanding.Perm s.outstanding)
  | released (a : Obj) (member : a ∈ s.outstanding) (given : t.cache = s.cache.release (some a))
      (keeps : guarded → KeepsOwners s (.release a))
      (perm : t.outstanding.Perm (s.outstanding.erase a))

/-- The pool has `n` slots and is in order; where the clients rely on it, what is out is owned. -/
structure Account (guarded : Prop) (id : CacheId) (n : Nat) (s : Client) : Prop where
  kept : Kept s
  named : s.cache.id = id
  size : s.cache.items.length = n
  owned : guarded → Owned s

theorem account_move {guarded : Prop} {id : CacheId} {n : Nat} {s t : Client}
    (account : Account guarded id n s) (move : Move guarded s t) : Account guarded id n t := by
  obtain ⟨kept, named, size, owned⟩ := account
  cases move with
  | same cache perm =>
    have after := kept_perm kept perm
    rw [← cache] at after named size
    refine ⟨after, named, size, fun wanted a member => ?_⟩
    rw [cache]
    exact owned wanted a (perm.mem_iff.mp member)
  | acquired a taken perm =>
    have after := kept_perm (kept_acquire kept taken).1 perm
    obtain ⟨-, slot, cache⟩ := Cache.acquire_some taken
    refine ⟨after, by rw [cache]; exact named, by rw [cache]; exact size,
      fun wanted b member => ?_⟩
    rw [cache]
    rcases List.mem_cons.mp (perm.mem_iff.mp member) with rfl | old
    · exact List.mem_of_getElem? slot
    · exact owned wanted b old
  | failed failed perm =>
    have after := kept_perm (kept_fail kept failed) perm
    obtain ⟨-, cache⟩ := Cache.acquire_none failed
    refine ⟨after, by rw [cache]; exact named, by rw [cache]; exact size,
      fun wanted b member => ?_⟩
    rw [cache]
    exact owned wanted b (perm.mem_iff.mp member)
  | released a member given keeps perm =>
    have after := kept_perm (kept_release kept member) perm
    rw [← given] at after
    have room := Cache.release_room (some a) (kept_room kept member)
    refine ⟨after, by rw [given, room]; exact named, by rw [given, room]; simpa using size,
      fun wanted b out => ?_⟩
    rw [given]
    exact (release_owned_iff (owned wanted) member).mpr (keeps wanted) b (perm.mem_iff.mp out)

/-- The free objects and those that are out are always as many as the slots. -/
theorem account_total {guarded : Prop} {id : CacheId} {n : Nat} {s : Client}
    (account : Account guarded id n s) : s.cache.total + s.outstanding.length = n :=
  account.kept.counted.trans account.size

/-- An object that is out was made by this pool. -/
theorem account_home {guarded : Prop} {id : CacheId} {n : Nat} {s : Client} {a : Obj}
    (account : Account guarded id n s) (member : a ∈ s.outstanding) : a.home = id := by
  obtain ⟨k, -, rfl⟩ := account.kept.wf.held a member
  exact account.named

end AIEngine.Pool
