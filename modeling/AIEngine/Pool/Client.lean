import AIEngine.Cache
import AIEngine.Library.Transition

/-!
# A pool and the objects its clients hold

A client run is any sequence of `create`, `acquire`, `release` and `destroy` on one `Cache` in
which only objects that are acquired and not yet released are released. Releases may come in any
order.
-/

namespace AIEngine.Pool

inductive Op where
  | create (number : Int)
  | acquire
  | release (a : Obj)
  | destroy (number : Int)
  deriving DecidableEq, Repr

structure Client where
  cache : Cache
  /-- acquired and not yet released -/
  outstanding : List Obj := []
  deriving DecidableEq, Repr

/-- A newly constructed `Cache`. -/
def start (id : CacheId) : Client := { cache := { id := id } }

def step (s : Client) : Op → Option Client
  | .create number => some { s with cache := s.cache.create number }
  | .acquire =>
    match s.cache.acquire with
    | .ok (some a, c) => some { cache := c, outstanding := a :: s.outstanding }
    | .ok (none, c) => some { s with cache := c }
    | .error _ => none
  | .release a =>
    if a ∈ s.outstanding then
      some { cache := s.cache.release (some a), outstanding := s.outstanding.erase a }
    else none
  | .destroy number => some { s with cache := s.cache.destroy number }

/-- Everything a step can do. -/
theorem step_cases {s t : Client} {op : Op} (h : step s op = some t) :
    (∃ n, op = .create n ∧ t = { s with cache := s.cache.create n }) ∨
    (∃ a c, op = .acquire ∧ s.cache.acquire = .ok (some a, c) ∧
      t = { cache := c, outstanding := a :: s.outstanding }) ∨
    (∃ c, op = .acquire ∧ s.cache.acquire = .ok (none, c) ∧ t = { s with cache := c }) ∨
    (∃ a, op = .release a ∧ a ∈ s.outstanding ∧
      t = { cache := s.cache.release (some a), outstanding := s.outstanding.erase a }) ∨
    (∃ n, op = .destroy n ∧ t = { s with cache := s.cache.destroy n }) := by
  cases op with
  | create n => exact Or.inl ⟨n, rfl, (Option.some.inj h).symm⟩
  | acquire =>
    simp only [step] at h
    split at h
    · exact Or.inr (Or.inl ⟨_, _, rfl, ‹_›, (Option.some.inj h).symm⟩)
    · exact Or.inr (Or.inr (Or.inl ⟨_, rfl, ‹_›, (Option.some.inj h).symm⟩))
    · exact absurd h (by simp)
  | release a =>
    simp only [step] at h
    split at h
    · exact Or.inr (Or.inr (Or.inr (Or.inl ⟨a, rfl, ‹_›, (Option.some.inj h).symm⟩)))
    · exact absurd h (by simp)
  | destroy n => exact Or.inr (Or.inr (Or.inr (Or.inr ⟨n, rfl, (Option.some.inj h).symm⟩)))

/-! ### What holds in every run -/

/-- The free part fits in the vector, no slot is empty, and every object there or in a client's
hands was constructed by this cache. -/
structure Wf (s : Client) : Prop where
  bound : s.cache.total ≤ s.cache.items.length
  filled : ∀ x ∈ s.cache.items, ∃ k < s.cache.made, x = some ⟨s.cache.id, k⟩
  held : ∀ a ∈ s.outstanding, ∃ k < s.cache.made, a = ⟨s.cache.id, k⟩

theorem wf_start (id : CacheId) : Wf (start id) :=
  ⟨by simp [start], by simp [start], by simp [start]⟩

theorem wf_create {s : Client} (n : Int) (wf : Wf s) :
    Wf { s with cache := s.cache.create n } := by
  obtain ⟨bound, filled, held⟩ := wf
  rw [Cache.create_eq]
  refine ⟨by simpa using bound, ?_, ?_⟩
  · intro x member
    rcases List.mem_append.mp member with old | fresh
    · obtain ⟨k, below, same⟩ := filled x old
      exact ⟨k, Nat.lt_add_right _ below, same⟩
    · obtain ⟨k, range, same⟩ := List.mem_map.mp fresh
      have below := List.mem_range.mp range
      exact ⟨s.cache.made + k, Nat.add_lt_add_left below _, same.symm⟩
  · intro a member
    obtain ⟨k, below, same⟩ := held a member
    exact ⟨k, Nat.lt_add_right _ below, same⟩

theorem wf_acquire {s : Client} {a : Obj} {c : Cache} (wf : Wf s)
    (h : s.cache.acquire = .ok (some a, c)) :
    Wf { cache := c, outstanding := a :: s.outstanding } := by
  obtain ⟨bound, filled, held⟩ := wf
  obtain ⟨pos, slot, rfl⟩ := Cache.acquire_some h
  refine ⟨by simp only; omega, filled, ?_⟩
  intro b member
  rcases List.mem_cons.mp member with rfl | old
  · obtain ⟨k, below, same⟩ := filled _ (List.mem_of_getElem? slot)
    exact ⟨k, below, Option.some.inj same⟩
  · exact held b old

theorem wf_release {s : Client} {a : Obj} (wf : Wf s) (member : a ∈ s.outstanding) :
    Wf { cache := s.cache.release (some a), outstanding := s.outstanding.erase a } := by
  obtain ⟨bound, filled, held⟩ := wf
  by_cases room : s.cache.total < s.cache.items.length
  · rw [Cache.release_room _ room]
    refine ⟨by simp only [List.length_set]; omega, ?_, fun b kept => held b (List.mem_of_mem_erase kept)⟩
    intro x present
    rcases List.mem_or_eq_of_mem_set present with old | rfl
    · exact filled x old
    · obtain ⟨k, below, rfl⟩ := held a member
      exact ⟨k, below, rfl⟩
  · rw [Cache.release_full _ room]
    exact ⟨bound, filled, fun b kept => held b (List.mem_of_mem_erase kept)⟩

theorem wf_destroy {s : Client} (n : Int) (wf : Wf s) :
    Wf { s with cache := s.cache.destroy n } := by
  obtain ⟨bound, filled, held⟩ := wf
  rw [Cache.destroy_eq]
  refine ⟨?_, ?_, held⟩
  · simp only [List.length_append, List.length_take, List.length_drop]
    omega
  · intro x member
    rcases List.mem_append.mp member with low | high
    · exact filled x (List.mem_of_mem_take low)
    · exact filled x (List.mem_of_mem_drop high)

theorem wf_step {s t : Client} {op : Op} (wf : Wf s) (h : step s op = some t) : Wf t := by
  rcases step_cases h with ⟨n, -, rfl⟩ | ⟨a, c, -, acquired, rfl⟩ | ⟨c, -, failed, rfl⟩ |
    ⟨a, -, member, rfl⟩ | ⟨n, -, rfl⟩
  · exact wf_create n wf
  · exact wf_acquire wf acquired
  · obtain ⟨-, rfl⟩ := Cache.acquire_none failed
    exact ⟨wf.bound, wf.filled, wf.held⟩
  · exact wf_release wf member
  · exact wf_destroy n wf

end AIEngine.Pool
