import Mathlib.Data.Int.DivMod
import Mathlib.Data.BitVec

/-!
# Counters of 32 bits

An `int` that is counted up starts again at the least number behind the greatest. What it has counted
is known modulo `2 ^ 32`, and exactly as long as no step was taken at the top.
-/

namespace Counter

/-- The greatest number. -/
def top : Int := 2147483647

/-- What a signed word of 32 bits holds of a number. -/
def int32 (n : Int) : Int := n.bmod 4294967296

variable (n : BitVec 32)

theorem toInt_bounds : -2147483648 ≤ n.toInt ∧ n.toInt ≤ top := by
  have low := BitVec.le_toInt n
  have high := BitVec.toInt_lt (x := n)
  unfold top
  omega

theorem toInt_succ : (n + 1).toInt = if n.toInt = top then -2147483648 else n.toInt + 1 := by
  obtain ⟨low, high⟩ := toInt_bounds n
  rw [BitVec.toInt_add]
  unfold top at *
  have one : (1 : BitVec 32).toInt = 1 := rfl
  rw [one, Int.bmod_def]
  split <;> omega

/-- A count that was right is right after a step, except at the top. -/
theorem toInt_succ_iff {k : Nat} (counted : n.toInt = k) :
    (n + 1).toInt = ((k + 1 : Nat) : Int) ↔ n.toInt ≠ top := by
  rw [toInt_succ]
  split
  · rename_i full
    exact iff_of_false (by omega) (not_not_intro full)
  · rename_i room
    exact iff_of_true (by omega) room

/-! ### Sums and quotients -/

theorem toInt_ofInt (n : Int) : (BitVec.ofInt 32 n).toInt = int32 n := by
  rw [BitVec.toInt_ofInt]
  rfl

theorem int32_bounds (n : Int) : -2147483648 ≤ int32 n ∧ int32 n ≤ top := by
  unfold int32 top
  rw [Int.bmod_def]
  split <;> omega

theorem int32_of_fits {n : Int} (low : -2147483648 ≤ n) (high : n ≤ top) : int32 n = n := by
  unfold top at high
  unfold int32
  rw [Int.bmod_def]
  split <;> omega

/-- A number and its word are whole turns apart. -/
theorem int32_turns (n : Int) : ∃ turns, n = int32 n + 4294967296 * turns := by
  refine ⟨n.bdiv 4294967296, ?_⟩
  have split := Int.bmod_eq_self_sub_mul_bdiv n 4294967296
  unfold int32
  omega

/-- The quotient of a word is the floor of the quotient of the number exactly when the word holds the
number and nothing is cut off below zero. -/
theorem tdiv_int32_iff {n sum : Int} (some : 0 < n) (few : n ≤ top) :
    (int32 sum).tdiv n = sum / n ↔
      (-2147483648 ≤ sum ∧ sum ≤ top) ∧ (0 ≤ sum ∨ n ∣ sum) := by
  obtain ⟨low, high⟩ := int32_bounds sum
  obtain ⟨turns, whole⟩ := int32_turns sum
  have sign : n.sign = 1 := Int.sign_eq_one_of_pos some
  rw [Int.tdiv_eq_ediv, sign]
  generalize int32 sum = held at low high whole ⊢
  subst whole
  unfold top at *
  rcases Int.lt_trichotomy turns 0 with less | rfl | more
  · have below : (held + 4294967296 * turns) / n ≤ (held + n * -2) / n := by
      refine Int.ediv_le_ediv some ?_
      omega
    rw [Int.add_mul_ediv_left _ _ (by omega)] at below
    refine iff_of_false (fun same => ?_) fun fits => ?_
    · split at same <;> omega
    · omega
  · simp only [Int.mul_zero, Int.add_zero]
    rw [and_iff_right ⟨low, high⟩]
    split
    · rename_i exact
      exact iff_of_true (by omega) exact
    · rename_i cut
      exact iff_of_false (by omega) cut
  · have above : (held + n * 2) / n ≤ (held + 4294967296 * turns) / n := by
      refine Int.ediv_le_ediv some ?_
      omega
    rw [Int.add_mul_ediv_left _ _ (by omega)] at above
    refine iff_of_false (fun same => ?_) fun fits => ?_
    · split at same <;> omega
    · omega

/-- A quotient is a word, except for the one that is greater than the greatest. -/
theorem toInt_sdiv {a b : BitVec 32} (defined : b.toInt = -1 → a.toInt ≠ -2147483648) :
    (a.sdiv b).toInt = a.toInt.tdiv b.toInt := by
  refine BitVec.toInt_sdiv_of_ne_or_ne a b ?_
  by_cases turn : b = -1
  · refine Or.inl fun least => ?_
    subst turn least
    exact defined (by decide) (by decide)
  · exact Or.inr turn

end Counter
