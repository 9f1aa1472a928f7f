import AIEngine.Pool.Kept

/-!
# Pooled objects that live clients refer to

Every client of a table may refer to one object of the pool. As long as objects are acquired for a
client and given back when it leaves, no two live clients refer to the same object.
-/

namespace AIEngine.Pool

/-- `refers` is what each client refers to, `held` what the pool has handed out. -/
structure Assigned (cache : Cache) (table : List Obj) (refers : Obj → Option Obj)
    (held : List Obj) : Prop where
  pool : Kept { cache := cache, outstanding := held }
  nodup : table.Nodup
  member : ∀ a ∈ table, ∀ i, refers a = some i → i ∈ held
  apart : ∀ a ∈ table, ∀ b ∈ table, ∀ i, refers a = some i → refers b = some i → a = b

variable {c c' : Cache} {table held : List Obj} {refers refers' : Obj → Option Obj} {a i : Obj}

theorem assigned_start (id : CacheId) (n : Nat) (refers : Obj → Option Obj) :
    Assigned (Cache.create { id := id } n) [] refers [] :=
  ⟨kept_create id n, List.nodup_nil, fun _ live => absurd live (by simp),
    fun _ live => absurd live (by simp)⟩

/-- What goes on outside the table does not matter. -/
theorem assigned_congr (h : Assigned c table refers held)
    (same : ∀ b ∈ table, refers' b = refers b) : Assigned c table refers' held := by
  refine ⟨h.pool, h.nodup, fun b live j at' => ?_, fun b live d live' j at' also => ?_⟩
  · rw [same b live] at at'
    exact h.member b live j at'
  · rw [same b live] at at'
    rw [same d live'] at also
    exact h.apart b live d live' j at' also

/-- What comes fresh out of the pool is assigned to one client. -/
theorem assigned_acquire (h : Assigned c table refers held) (taken : c.acquire = .ok (some i, c'))
    (new : refers' a = some i) (others : ∀ b, b ≠ a → refers' b = refers b) :
    Assigned c' table refers' (i :: held) ∧ ∀ b ∈ table, refers b ≠ some i := by
  obtain ⟨pool, fresh⟩ := kept_acquire h.pool taken
  have old : ∀ b ∈ table, refers b ≠ some i := fun b live at' => fresh (h.member b live i at')
  have known : ∀ b ∈ table, ∀ j, refers' b = some j → (b = a ∧ j = i) ∨ refers b = some j := by
    intro b live j at'
    by_cases same : b = a
    · rw [same, new] at at'
      exact Or.inl ⟨same, (Option.some.inj at').symm⟩
    · rw [others b same] at at'
      exact Or.inr at'
  refine ⟨⟨pool, h.nodup, fun b live j at' => ?_, fun b live d live' j at' also => ?_⟩, old⟩
  · rcases known b live j at' with ⟨-, rfl⟩ | before
    · exact List.mem_cons_self
    · exact List.mem_cons_of_mem _ (h.member b live j before)
  · rcases known b live j at' with ⟨rfl, rfl⟩ | before
    · rcases known d live' j also with ⟨rfl, -⟩ | before'
      · rfl
      · exact absurd before' (old d live')
    · rcases known d live' j also with ⟨rfl, rfl⟩ | before'
      · exact absurd before (old b live)
      · exact h.apart b live d live' j before before'

theorem assigned_fail (h : Assigned c table refers held) (failed : c.acquire = .ok (none, c')) :
    Assigned c' table refers held := ⟨kept_fail h.pool failed, h.nodup, h.member, h.apart⟩

/-- A new client refers to nothing. -/
theorem assigned_open (h : Assigned c table refers held) (fresh : a ∉ table)
    (new : refers' a = none) (others : ∀ b, b ≠ a → refers' b = refers b) :
    Assigned c (a :: table) refers' held := by
  have known : ∀ b ∈ a :: table, ∀ j, refers' b = some j → b ∈ table ∧ refers b = some j := by
    intro b live j at'
    have different : b ≠ a := by
      rintro rfl
      exact absurd (new.symm.trans at') (by simp)
    rw [others b different] at at'
    exact ⟨(List.mem_cons.mp live).resolve_left different, at'⟩
  refine ⟨h.pool, List.nodup_cons.mpr ⟨fresh, h.nodup⟩, fun b live j at' => ?_,
    fun b live d live' j at' also => ?_⟩
  · obtain ⟨live, at'⟩ := known b live j at'
    exact h.member b live j at'
  · obtain ⟨live, at'⟩ := known b live j at'
    obtain ⟨live', also⟩ := known d live' j also
    exact h.apart b live d live' j at' also

theorem erase_live (h : Assigned c table refers held) {b : Obj} (live : b ∈ table.erase a) :
    b ∈ table ∧ b ≠ a := by
  obtain ⟨different, live⟩ := h.nodup.mem_erase_iff.mp live
  exact ⟨live, different⟩

/-- A client leaves, and what it referred to is not given back. -/
theorem assigned_leave (h : Assigned c table refers held) :
    Assigned c (table.erase a) refers held :=
  ⟨h.pool, h.nodup.erase a, fun b live => h.member b (erase_live h live).1,
    fun b live d live' => h.apart b (erase_live h live).1 d (erase_live h live').1⟩

/-- What a client gives back when it leaves is not what another one refers to. -/
theorem assigned_release (h : Assigned c table refers held) (live : a ∈ table)
    (at' : refers a = some i) :
    Assigned (c.release (some i)) (table.erase a) refers (held.erase i) := by
  have left : Assigned c (table.erase a) refers held := assigned_leave h
  refine ⟨kept_release h.pool (h.member a live i at'), left.nodup, fun b alive j also => ?_,
    left.apart⟩
  have other : j ≠ i := by
    rintro rfl
    obtain ⟨alive, different⟩ := erase_live h alive
    exact different (h.apart b alive a live j also at')
  exact (List.mem_erase_of_ne other).mpr (left.member b alive j also)

end AIEngine.Pool
