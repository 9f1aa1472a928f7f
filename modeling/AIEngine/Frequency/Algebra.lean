import AIEngine.Frequency

/-!
# The algebra of frequencies (`Frequencies.h`)

Counting, sums, quotients and comparisons are loops of their own over one array. The loop that counts
reaches all its 256 entries, and the other four stop one short of them.
-/

namespace AIEngine.Frequencies

/-- `for (int i = 0; i < 255; ++i) freqs[i] = ...` on a new object. -/
def fill (value : BitVec 8 → BitVec 32) : Frequencies where
  freqs := fun b => if b.toNat < 255 then value b else reset.freqs b

/-- `operator+` -/
def add (f g : Frequencies) : Frequencies := fill fun b => f.freqs b + g.freqs b

/-- `operator/`, of a divisor other than 0 -/
def div (f : Frequencies) (value : BitVec 32) : Frequencies := fill fun b => (f.freqs b).sdiv value

/-- `operator==` returns at the first difference. -/
def equal (f g : Frequencies) : Bool :=
  (List.range 255).all fun i => f.freqs (BitVec.ofNat 8 i) = g.freqs (BitVec.ofNat 8 i)

/-- `operator!=` -/
def different (f g : Frequencies) : Bool :=
  (List.range 255).any fun i => f.freqs (BitVec.ofNat 8 i) ≠ g.freqs (BitVec.ofNat 8 i)

/-- The value that the loops do not reach. -/
def last : BitVec 8 := 0xff

theorem ext_freqs {f g : Frequencies} (same : ∀ b, f.freqs b = g.freqs b) : f = g := by
  cases f
  cases g
  exact congrArg Frequencies.mk (funext same)

/-! ### The loops -/

theorem toNat_lt_iff (b : BitVec 8) : b.toNat < 255 ↔ b ≠ last := by
  have bound := b.isLt
  have value : last.toNat = 255 := rfl
  rw [ne_eq, ← BitVec.toNat_inj, value]
  omega

theorem fill_last (value : BitVec 8 → BitVec 32) : (fill value).freqs last = 0 := rfl

theorem fill_other (value : BitVec 8 → BitVec 32) {b : BitVec 8} (other : b ≠ last) :
    (fill value).freqs b = value b := if_pos ((toNat_lt_iff b).mpr other)

@[simp] theorem add_last (f g : Frequencies) : (f.add g).freqs last = 0 := fill_last _

theorem add_other (f g : Frequencies) {b : BitVec 8} (other : b ≠ last) :
    (f.add g).freqs b = f.freqs b + g.freqs b := fill_other _ other

@[simp] theorem div_last (f : Frequencies) (n : BitVec 32) : (f.div n).freqs last = 0 := fill_last _

theorem div_other (f : Frequencies) (n : BitVec 32) {b : BitVec 8} (other : b ≠ last) :
    (f.div n).freqs b = (f.freqs b).sdiv n := fill_other _ other

/-- What holds of the indices of a loop holds of all values but one. -/
theorem forall_index {p : BitVec 8 → Prop} :
    (∀ i ∈ List.range 255, p (BitVec.ofNat 8 i)) ↔ ∀ b, b ≠ last → p b := by
  constructor
  · intro each b other
    have index := each b.toNat (List.mem_range.mpr ((toNat_lt_iff b).mpr other))
    rwa [BitVec.ofNat_toNat, BitVec.setWidth_eq] at index
  · intro all i inside
    have small : i < 255 := List.mem_range.mp inside
    refine all _ ((toNat_lt_iff _).mp ?_)
    rw [BitVec.toNat_ofNat]
    omega

theorem equal_iff (f g : Frequencies) :
    f.equal g = true ↔ ∀ b, b ≠ last → f.freqs b = g.freqs b := by
  unfold equal
  rw [List.all_eq_true, ← forall_index]
  simp only [decide_eq_true_iff]

theorem different_iff (f g : Frequencies) : f.different g = true ↔ ¬f.equal g = true := by
  unfold different equal
  simp only [List.any_eq_true, List.all_eq_true, decide_eq_true_iff, ne_eq, not_forall, exists_prop]

/-! ### Counting -/

/-- Every value is counted as often as it occurs. -/
theorem freqs_addPayload (f : Frequencies) (payload : Payload) (b : BitVec 8) :
    (f.addPayload payload).freqs b = f.freqs b + BitVec.ofNat 32 (payload.count b) := by
  induction payload generalizing f with
  | nil => simp [addPayload]
  | cons byte rest ih =>
    unfold addPayload
    rw [ih, List.count_cons]
    simp only
    by_cases same : b = byte
    · subst same
      rw [if_pos rfl, if_pos (beq_self_eq_true b), Nat.add_comm, BitVec.ofNat_add, BitVec.add_assoc]
      rfl
    · rw [if_neg same, if_neg (by simpa using Ne.symm same)]
      rfl

theorem freqs_reset_addPayload (payload : Payload) (b : BitVec 8) :
    (reset.addPayload payload).freqs b = BitVec.ofNat 32 (payload.count b) := by
  rw [freqs_addPayload]
  exact BitVec.zero_add _

/-- The octet that the loops leave out occurs so often that the word that counts it is 0 again, or
not at all. -/
def Unseen (payload : Payload) : Prop := payload.count last % 4294967296 = 0

instance (payload : Payload) : Decidable (Unseen payload) := inferInstanceAs (Decidable (_ = _))

theorem payloads_iff (a b : Payload) :
    (reset.addPayload a).addPayload b = (reset.addPayload a).add (reset.addPayload b) ↔
      Unseen (a ++ b) := by
  have sum : ∀ c, ((reset.addPayload a).addPayload b).freqs c =
      BitVec.ofNat 32 (a.count c) + BitVec.ofNat 32 (b.count c) := by
    intro c
    rw [freqs_addPayload, freqs_reset_addPayload]
  have zero : BitVec.ofNat 32 (a.count last) + BitVec.ofNat 32 (b.count last) = 0 ↔
      Unseen (a ++ b) := by
    unfold Unseen
    rw [← BitVec.ofNat_add, List.count_append, ← BitVec.toNat_inj, BitVec.toNat_ofNat]
    exact Iff.rfl
  rw [← zero, ← sum]
  constructor
  · intro same
    rw [same, add_last]
  · intro none
    refine ext_freqs fun c => ?_
    by_cases limit : c = last
    · rw [limit, none, add_last]
    · rw [sum, add_other _ _ limit, freqs_reset_addPayload, freqs_reset_addPayload]

/-! ### Sums -/

theorem add_commutes (f g : Frequencies) : f.add g = g.add f := by
  refine ext_freqs fun b => ?_
  by_cases limit : b = last
  · rw [limit, add_last, add_last]
  · rw [add_other _ _ limit, add_other _ _ limit, BitVec.add_comm]

theorem add_associates (f g h : Frequencies) : (f.add g).add h = f.add (g.add h) := by
  refine ext_freqs fun b => ?_
  by_cases limit : b = last
  · rw [limit, add_last, add_last]
  · rw [add_other _ _ limit, add_other _ _ limit, add_other _ _ limit, add_other _ _ limit,
      BitVec.add_assoc]

theorem add_reset_iff (f : Frequencies) : f.add reset = f ↔ f.freqs last = 0 := by
  constructor
  · intro unit
    rw [← unit, add_last]
  · intro none
    refine ext_freqs fun b => ?_
    by_cases limit : b = last
    · rw [limit, add_last, none]
    · rw [add_other _ _ limit]
      exact BitVec.add_zero _

theorem equal_exact_iff (f g : Frequencies) :
    (f.equal g = true ↔ ∀ b, f.freqs b = g.freqs b) ↔
      (f.freqs last = g.freqs last ∨ ∃ b, b ≠ last ∧ f.freqs b ≠ g.freqs b) := by
  rw [equal_iff]
  constructor
  · intro told
    by_cases front : ∀ b, b ≠ last → f.freqs b = g.freqs b
    · exact Or.inl (told.mp front last)
    · simp only [not_forall, exists_prop] at front
      exact Or.inr front
  · rintro (same | ⟨b, other, apart⟩)
    · refine ⟨fun front b => ?_, fun all b _ => all b⟩
      by_cases limit : b = last
      · rw [limit, same]
      · exact front b limit
    · exact iff_of_false (fun front => apart (front b other)) fun all => apart (all b)

/-! ### The monoid -/

/-- What an additive monoid of counts would do, for two payloads and three vectors. -/
structure Additive (a b : Payload) (f g h : Frequencies) : Prop where
  payloads : (reset.addPayload a).addPayload b = (reset.addPayload a).add (reset.addPayload b)
  comm : f.add g = g.add f
  assoc : (f.add g).add h = f.add (g.add h)
  right_unit : f.add reset = f
  left_unit : reset.add f = f
  equal : f.equal g = true ↔ ∀ b, f.freqs b = g.freqs b
  different : f.different g = true ↔ ¬∀ b, f.freqs b = g.freqs b

/-- The laws hold exactly as long as nothing depends on the value that the loops leave out. -/
theorem additive_iff (a b : Payload) (f g h : Frequencies) :
    Additive a b f g h ↔ Unseen (a ++ b) ∧ f.freqs last = 0 ∧
      (f.freqs last = g.freqs last ∨ ∃ b, b ≠ last ∧ f.freqs b ≠ g.freqs b) := by
  constructor
  · intro laws
    exact ⟨(payloads_iff a b).mp laws.payloads, (add_reset_iff f).mp laws.right_unit,
      (equal_exact_iff f g).mp laws.equal⟩
  · rintro ⟨absent, none, told⟩
    have unit := (add_reset_iff f).mpr none
    have equal := (equal_exact_iff f g).mpr told
    exact ⟨(payloads_iff a b).mpr absent, add_commutes f g, add_associates f g h, unit,
      (add_commutes reset f).trans unit, equal, (different_iff f g).trans (not_congr equal)⟩

/-- One octet 0xff, added to nothing. -/
theorem not_always_additive : ¬∀ a b f g h, Additive a b f g h := by
  intro all
  have laws := all [last] [] reset reset reset
  exact absurd ((payloads_iff _ _).mp laws.payloads) (by decide)

end AIEngine.Frequencies
