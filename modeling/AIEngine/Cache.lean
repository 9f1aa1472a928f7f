import AIEngine.Library.Slots

/-!
# The object pool (`Cache.h`)

`Cache<A_Type>` is a vector of owning pointers whose first `total_` slots are the free part. The
model keeps the identity of the objects; an empty pointer is `none`. A handed out object is named
by a weak pointer, which locks as long as some slot still owns the object.
-/

namespace AIEngine

/-- The protocols that attach an info object to a flow. -/
inductive L7Protocol where
  | http | ssl | smtp | imap | pop | dns | sip | ssdp | gprs
  deriving DecidableEq, Repr

/-- The string members of the info objects. -/
inductive StringField where
  | uri | host | ua | name | fromAddr | toAddr | via | userName
  deriving DecidableEq, Repr

/-- The pools of the engine. Transports and frequency protocols exist once per stack layer. -/
inductive CacheId where
  | flow (layer : Nat)
  | tcpInfo (layer : Nat)
  | info (p : L7Protocol)
  | string (p : L7Protocol) (x : StringField)
  | frequencies (layer : Nat)
  | packetFrequencies (layer : Nat)
  deriving DecidableEq, Repr

/-- The identity of a pooled object: the cache whose `create` made it, and its serial number. -/
structure Obj where
  home : CacheId
  serial : Nat
  deriving DecidableEq, Repr

/-- What the source leaves undefined. -/
inductive Fault where
  | nullDereference
  | outOfBounds
  deriving DecidableEq, Repr

theorem toOption_some {ε α : Type} {x : Except ε α} {a : α} (h : x.toOption = some a) :
    x = .ok a := by
  cases x with
  | error e => cases h
  | ok b => rw [Option.some.inj h]

structure Cache where
  id : CacheId
  items : List (Option Obj) := []
  total : Nat := 0
  totalAcquires : BitVec 32 := 0
  totalReleases : BitVec 32 := 0
  totalFails : BitVec 32 := 0
  /-- objects constructed so far; the next one gets this serial number -/
  made : Nat := 0
  deriving DecidableEq, Repr

namespace Cache

def release (c : Cache) (a : Option Obj) : Cache :=
  if c.total < c.items.length then
    { c with
      totalReleases := c.totalReleases + 1
      total := c.total + 1
      items := c.items.set c.total a }
  else c

/-- The object handed out, if any. Resetting it through an empty slot dereferences a null pointer. -/
def acquire (c : Cache) : Except Fault (Option Obj × Cache) :=
  if 0 < c.total then
    match (c.items[c.total - 1]?).join with
    | some a => .ok (some a, { c with totalAcquires := c.totalAcquires + 1, total := c.total - 1 })
    | none => .error .nullDereference
  else .ok (none, { c with totalFails := c.totalFails + 1 })

/-- One turn of the loop of `create`. -/
def createOne (c : Cache) : Cache :=
  { c with items := c.items ++ [some ⟨c.id, c.made⟩], total := c.total + 1, made := c.made + 1 }

def createLoop (c : Cache) : Nat → Cache
  | 0 => c
  | n + 1 => createLoop (createOne c) n

def create (c : Cache) (number : Int) : Cache := createLoop c number.toNat

/-- One turn of the loop of `destroy`. -/
def destroyOne (c : Cache) : Cache :=
  { c with items := c.items.eraseIdx (c.total - 1), total := c.total - 1 }

def destroyLoop (c : Cache) : Nat → Cache
  | 0 => c
  | n + 1 => destroyLoop (destroyOne c) n

/-- The turns for `real_items`: a negative `number` is a huge `std::size_t`, and `total_` becomes an
`int`. -/
def realItems (c : Cache) (number : Int) : Nat :=
  if number < 0 ∨ c.total < number.toNat then ((c.total : Int).bmod 4294967296).toNat
  else number.toNat

def destroy (c : Cache) (number : Int) : Cache := destroyLoop c (c.realItems number)

/-- The free part of the pool: the slots below `total_`. -/
def free (c : Cache) : List (Option Obj) := c.items.take c.total

/-- Some slot of the vector still owns the object, so a weak pointer to it locks. -/
def Owns (c : Cache) (a : Obj) : Prop := some a ∈ c.items

instance (c : Cache) (a : Obj) : Decidable (c.Owns a) := inferInstanceAs (Decidable (_ ∈ _))

/-! ### Closed forms of the loops -/

theorem createLoop_eq (c : Cache) (n : Nat) :
    createLoop c n =
      { c with
        items := c.items ++ (List.range n).map fun k => some ⟨c.id, c.made + k⟩
        total := c.total + n
        made := c.made + n } := by
  induction n generalizing c with
  | zero => simp [createLoop]
  | succ n ih =>
    rw [createLoop, ih]
    simp only [createOne, List.range_succ_eq_map, List.map_cons, List.map_map, Nat.add_zero,
      List.append_assoc, List.singleton_append, Function.comp_def, Cache.mk.injEq, true_and]
    refine ⟨?_, by omega, by omega⟩
    congr 2
    apply List.map_congr_left
    intro k _
    simp only [Option.some.injEq, Obj.mk.injEq, true_and]
    omega

theorem realItems_le (c : Cache) (number : Int) : c.realItems number ≤ c.total := by
  unfold realItems
  have narrow : (c.total : Int).bmod 4294967296 ≤ c.total := by
    rw [Int.bmod_def]
    split <;> omega
  split <;> omega

theorem destroyLoop_eq (c : Cache) (n : Nat) (bound : n ≤ c.total) :
    destroyLoop c n =
      { c with
        items := c.items.take (c.total - n) ++ c.items.drop c.total
        total := c.total - n } := by
  induction n generalizing c with
  | zero => simp [destroyLoop]
  | succ n ih =>
    rw [destroyLoop, ih _ (by simp only [destroyOne]; omega)]
    simp only [destroyOne, Cache.mk.injEq, true_and]
    refine ⟨?_, by omega, by trivial⟩
    have pos : c.total - 1 + 1 = c.total := by omega
    rw [List.eraseIdx_eq_take_drop_succ, pos, List.take_append, List.drop_append, List.take_take,
      List.drop_take, List.length_take]
    have inner : min (c.total - 1 - n) (c.total - 1) = c.total - (n + 1) := by omega
    have cut : c.total - 1 - (c.total - 1) = 0 := by omega
    rw [inner, cut, List.take_zero, List.nil_append, List.drop_drop]
    rcases Nat.lt_or_ge c.items.length (c.total - 1) with short | long
    · have past : c.items.length ≤ c.total := by omega
      rw [List.drop_of_length_le past, List.take_nil, List.drop_of_length_le (by omega),
        List.append_nil]
    · rw [Nat.min_eq_left long]
      have : c.total - 1 - n - (c.total - 1) = 0 := by omega
      simp [this]

theorem create_eq (c : Cache) (number : Int) :
    c.create number =
      { c with
        items := c.items ++ (List.range number.toNat).map fun k => some ⟨c.id, c.made + k⟩
        total := c.total + number.toNat
        made := c.made + number.toNat } := createLoop_eq c _

theorem destroy_eq (c : Cache) (number : Int) :
    c.destroy number =
      { c with
        items := c.items.take (c.total - c.realItems number) ++ c.items.drop c.total
        total := c.total - c.realItems number } := destroyLoop_eq c _ (c.realItems_le number)

/-! ### What each operation does to the free part -/

theorem acquire_some {c c' : Cache} {a : Obj} (h : c.acquire = .ok (some a, c')) :
    0 < c.total ∧ c.items[c.total - 1]? = some (some a) ∧
      c' = { c with totalAcquires := c.totalAcquires + 1, total := c.total - 1 } := by
  unfold acquire at h
  split at h
  · rename_i pos
    split at h
    · rename_i b slot
      simp only [Except.ok.injEq, Prod.mk.injEq, Option.some.injEq] at h
      obtain ⟨rfl, rfl⟩ := h
      exact ⟨pos, Option.join_eq_some_iff.mp slot, rfl⟩
    · exact absurd h (by simp)
  · exact absurd h (by simp)

theorem acquire_none {c c' : Cache} (h : c.acquire = .ok (none, c')) :
    c.total = 0 ∧ c' = { c with totalFails := c.totalFails + 1 } := by
  unfold acquire at h
  split at h
  · split at h <;> exact absurd h (by simp)
  · simp only [Except.ok.injEq, Prod.mk.injEq, true_and] at h
    exact ⟨by omega, h.symm⟩

/-- The object handed out was the last free slot. -/
theorem acquire_free {c c' : Cache} {a : Obj} (h : c.acquire = .ok (some a, c')) :
    c.free = c'.free ++ [some a] := by
  obtain ⟨pos, slot, rfl⟩ := acquire_some h
  exact Slots.take_eq_append_last pos slot

theorem release_room {c : Cache} (a : Option Obj) (room : c.total < c.items.length) :
    c.release a =
      { c with
        totalReleases := c.totalReleases + 1
        total := c.total + 1
        items := c.items.set c.total a } := if_pos room

theorem release_full {c : Cache} (a : Option Obj) (full : ¬c.total < c.items.length) :
    c.release a = c := if_neg full

theorem release_free {c : Cache} (a : Option Obj) (room : c.total < c.items.length) :
    (c.release a).free = c.free ++ [a] := by
  rw [release_room a room]
  exact Slots.take_set_succ room

theorem destroy_free (c : Cache) (number : Int) :
    (c.destroy number).free = c.items.take (c.total - c.realItems number) := by
  rw [destroy_eq, free]
  simp only
  rw [List.take_append, List.take_take, Nat.min_self, List.length_take]
  rcases Nat.lt_or_ge c.items.length (c.total - c.realItems number) with short | long
  · rw [List.drop_of_length_le (by omega), List.take_nil, List.append_nil]
  · rw [Nat.min_eq_left long, Nat.sub_self, List.take_zero, List.append_nil]

/-- The slots that `create number` turns from stale into free. -/
def stale (c : Cache) (number : Int) : List (Option Obj) :=
  (c.items.drop c.total).take number.toNat

theorem create_free (c : Cache) (number : Int) (bound : c.total ≤ c.items.length) :
    (c.create number).free = c.free ++ c.stale number ++
      ((List.range number.toNat).map fun k => some (⟨c.id, c.made + k⟩ : Obj)).take
        (number.toNat - (c.items.length - c.total)) := by
  rw [create_eq, free, free, stale]
  simp only
  rw [List.take_append, List.take_add]
  congr 2
  omega

end Cache

end AIEngine
