import AIEngine.Pool.Client

/-!
# The accounts of a pool

What is not free is in somebody's hands: every operation moves the index, the vector and the counters
so that they keep saying how many handles are out. The counters are `int32_t` and say it modulo
`2 ^ 32`.
-/

namespace AIEngine

/-- The places that the turns of the loop of `destroy` reset and erase. -/
def Cache.destroySlots (c : Cache) : Nat → List Nat
  | 0 => []
  | n + 1 => (c.total - 1) :: Cache.destroySlots (Cache.destroyOne c) n

theorem Cache.destroySlots_free {c : Cache} {n : Nat} (bound : n ≤ c.total) :
    ∀ slot ∈ c.destroySlots n, slot < c.total := by
  induction n generalizing c with
  | zero => exact fun slot no => absurd no (by simp [destroySlots])
  | succ n ih =>
    intro slot member
    rcases List.mem_cons.mp member with rfl | later
    · omega
    · have below := ih (c := c.destroyOne) (by simp only [destroyOne]; omega) slot later
      simp only [destroyOne] at below
      omega

/-- What is above the index stays there, whatever is destroyed below it. -/
theorem Cache.destroy_above {c : Cache} (bound : c.total ≤ c.items.length) (number : Int) :
    (c.destroy number).items.drop (c.destroy number).total = c.items.drop c.total := by
  have fewer : c.total - c.realItems number ≤ c.items.length := by omega
  rw [destroy_eq]
  simp only
  rw [List.drop_left' (List.length_take_of_le fewer)]

namespace Pool

/-- The handles that are out, from the index and from the counters. -/
structure Balanced (s : Client) : Prop where
  wf : Wf s
  handles : s.cache.total + s.outstanding.length = s.cache.items.length
  balance : s.cache.totalAcquires = s.cache.totalReleases + BitVec.ofNat 32 s.outstanding.length

theorem balanced_start (id : CacheId) : Balanced (start id) := ⟨wf_start id, rfl, rfl⟩

theorem balanced_step {s t : Client} {op : Op} (balanced : Balanced s) (h : step s op = some t) :
    Balanced t := by
  have wf := wf_step balanced.wf h
  obtain ⟨-, handles, balance⟩ := balanced
  rcases step_cases h with ⟨n, rfl, rfl⟩ | ⟨a, c, rfl, acquired, rfl⟩ | ⟨c, rfl, failed, rfl⟩ |
    ⟨a, rfl, member, rfl⟩ | ⟨n, rfl, rfl⟩
  · refine ⟨wf, ?_, ?_⟩ <;> rw [Cache.create_eq]
    · simp
      omega
    · exact balance
  · obtain ⟨pos, -, rfl⟩ := Cache.acquire_some acquired
    refine ⟨wf, ?_, ?_⟩ <;> simp only [List.length_cons]
    · omega
    · rw [balance, BitVec.ofNat_add, BitVec.add_assoc]
      rfl
  · obtain ⟨-, rfl⟩ := Cache.acquire_none failed
    exact ⟨wf, handles, balance⟩
  · have out := List.length_pos_of_mem member
    have one : s.outstanding.length = s.outstanding.length - 1 + 1 := by omega
    refine ⟨wf, ?_, ?_⟩ <;>
      rw [Cache.release_room _ (by omega), List.length_erase_of_mem member] <;>
      simp only [List.length_set]
    · omega
    · rw [balance, one, BitVec.ofNat_add, BitVec.add_comm (BitVec.ofNat 32 _), ← BitVec.add_assoc]
      rfl
  · have real := s.cache.realItems_le n
    refine ⟨wf, ?_, ?_⟩ <;> rw [Cache.destroy_eq]
    · simp only [List.length_append, List.length_take, List.length_drop]
      omega
    · exact balance

/-- Everything goes through but the release of what is not out. -/
theorem step_accepts {s : Client} (wf : Wf s) {op : Op}
    (held : ∀ a, op = .release a → a ∈ s.outstanding) : (step s op).isSome = true := by
  cases op with
  | create n => rfl
  | destroy n => rfl
  | release a => simp [step, held a rfl]
  | acquire =>
    unfold step Cache.acquire
    by_cases pos : 0 < s.cache.total
    · have inside : s.cache.total - 1 < s.cache.items.length := by
        have bound := wf.bound
        omega
      obtain ⟨k, -, slot⟩ := wf.filled _ (List.getElem_mem inside)
      simp [pos, List.getElem?_eq_getElem inside, slot]
    · simp [pos]

/-- The state of a pool in a run: its index and its counters fit the handles, `destroy` works below
the index, and an empty pool only counts a failure. -/
structure Accounts (s : Client) : Prop where
  index : s.cache.total ≤ s.cache.items.length
  handles : (s.cache.items.length : Int) - s.cache.total = s.outstanding.length
  balance : (s.cache.totalAcquires.toInt - s.cache.totalReleases.toInt).bmod 4294967296 =
    (s.outstanding.length : Int).bmod 4294967296
  destroys : ∀ number, (∀ slot ∈ s.cache.destroySlots (s.cache.realItems number),
      slot < s.cache.total) ∧
    (s.cache.destroy number).items.drop (s.cache.destroy number).total =
      s.cache.items.drop s.cache.total
  empty : s.cache.total = 0 → step s .acquire =
    some { s with cache := { s.cache with totalFails := s.cache.totalFails + 1 } }
  accepts : ∀ op, (∀ a, op = .release a → a ∈ s.outstanding) → (step s op).isSome = true

theorem accounts_of_balanced {s : Client} (balanced : Balanced s) : Accounts s where
  index := balanced.wf.bound
  handles := by
    have handles := balanced.handles
    omega
  balance := by
    have cancel : ∀ m n : Int, m + n - m = n := by
      intro m n
      omega
    rw [balanced.balance, BitVec.toInt_add, BitVec.toInt_ofNat', Int.bmod_sub_bmod, cancel,
      Int.bmod_bmod]
  destroys number :=
    ⟨Cache.destroySlots_free (s.cache.realItems_le number), Cache.destroy_above balanced.wf.bound number⟩
  empty none := by simp [step, Cache.acquire, none]
  accepts _ held := step_accepts balanced.wf held

/-- In whatever order pools are created, destroyed, acquired from and released to. -/
theorem always_accounts (id : CacheId) (ops : List Op) :
    Transition.Always step Accounts (start id) ops := by
  refine Transition.always_mono (fun s => accounts_of_balanced (s := s)) ?_
  exact Transition.always_of_inv (fun s op t => balanced_step) (balanced_start id)

/-- The object is acquired and released again and again. -/
theorem run_pairs (id : CacheId) (n : Nat) (ops : List Op) (acquires releases : BitVec 32) :
    Transition.run step
        ⟨{ id := id, items := [some ⟨id, 0⟩], total := 1, totalAcquires := acquires,
           totalReleases := releases, made := 1 }, []⟩
        ((List.replicate n [Op.acquire, .release ⟨id, 0⟩]).flatten ++ ops) =
      Transition.run step
        ⟨{ id := id, items := [some ⟨id, 0⟩], total := 1,
           totalAcquires := acquires + BitVec.ofNat 32 n,
           totalReleases := releases + BitVec.ofNat 32 n, made := 1 }, []⟩ ops := by
  induction n generalizing acquires releases with
  | zero => simp
  | succ n ih =>
    have one : BitVec.ofNat 32 (n + 1) = 1 + BitVec.ofNat 32 n := by
      rw [Nat.add_comm, BitVec.ofNat_add]
      rfl
    rw [List.replicate_succ, List.flatten_cons, List.append_assoc, one, ← BitVec.add_assoc,
      ← BitVec.add_assoc, ← ih]
    simp [Transition.run_cons, step, Cache.acquire, Cache.release]

/-- After 2147483648 acquires the counter has overflowed. -/
theorem not_always_balanced : ¬∀ id ops, Transition.Always step
    (fun s => s.cache.totalAcquires.toInt - s.cache.totalReleases.toInt = s.outstanding.length)
    (start id) ops := by
  intro h
  have next : ∀ n, (0 + BitVec.ofNat 32 n + 1).toInt - (0 + BitVec.ofNat 32 n).toInt = 1 := by
    intro n
    have whole := h (.flow 0)
      (.create 1 :: ((List.replicate n [Op.acquire, .release ⟨.flow 0, 0⟩]).flatten ++ [.acquire]))
    have reached := run_pairs (.flow 0) n [.acquire] 0 0
    have balanced := Transition.always_final (whole.2 _ rfl) (reached.trans rfl)
    exact balanced
  exact absurd (next 2147483647) (by decide)

end Pool

end AIEngine
