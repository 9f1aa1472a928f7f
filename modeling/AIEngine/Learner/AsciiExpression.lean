import AIEngine.Learner.LearnerEngine

/-!
# The raw expression as text

`compute` writes an octet as two hexadecimal digits, and `getAsciiExpression` reads two digits at a
time. Its arithmetic knows the letters in the second digit only.
-/

namespace AIEngine.LearnerEngine

open Patterns

/-- `char(a+b-48)` and `char(a+b-55)`. -/
def asciiOctet (high low : Char) : BitVec 8 :=
  let a : Int := ((high.toNat : Int) - 48) * 16
  let b : Int := low.toNat
  let b := if 97 ≤ b ∧ b ≤ 102 then b - 32 else b
  if b < 65 then BitVec.ofInt 8 (a + b - 48) else BitVec.ofInt 8 (a + b - 55)

/-- The loop, two characters a turn. Behind the last character of a string there is a null. -/
def asciiOctets : List Char → List (BitVec 8)
  | [] => []
  | [high] => [asciiOctet high (Char.ofNat 0)]
  | high :: low :: rest => asciiOctet high low :: asciiOctets rest

def getAsciiExpression (e : LearnerEngine) : List (BitVec 8) := asciiOctets e.rawExpression

/-- The octets that `compute` asks for, in their order. -/
def chosen (e : LearnerEngine) (it : Iteration) : List (BitVec 8) := (e.places it).reduceOption

/-! ### Digits -/

/-- The first digit counts for itself up to nine, and a letter for 39 more. -/
theorem digitChar_high : ∀ n : Nat, n < 16 →
    ((n.digitChar.toNat : Int) - 48) = if n < 10 then (n : Int) else n + 39 := by
  decide

theorem asciiOctet_low (high : Char) {n : Nat} (small : n < 16) :
    asciiOctet high n.digitChar = BitVec.ofInt 8 (((high.toNat : Int) - 48) * 16 + n) := by
  have digit := digitChar_high n small
  unfold asciiOctet
  simp only
  by_cases decimal : n < 10
  · rw [if_pos decimal] at digit
    rw [if_neg (by omega : ¬(97 ≤ (n.digitChar.toNat : Int) ∧ (n.digitChar.toNat : Int) ≤ 102)),
      if_pos (by omega)]
    congr 1
    omega
  · rw [if_neg decimal] at digit
    rw [if_pos (by omega : 97 ≤ (n.digitChar.toNat : Int) ∧ (n.digitChar.toNat : Int) ≤ 102),
      if_neg (by omega)]
    congr 1
    omega

/-- What two digits of an octet are read as: from `a0` on it is `90` too small. -/
def readBack (b : BitVec 8) : BitVec 8 := if b.toNat < 0xa0 then b else b - 0x90

theorem toNat_shifted (b : BitVec 8) : (b - 0x90).toNat = (b.toNat + 112) % 256 := by
  rw [BitVec.toNat_sub, Nat.add_comm]
  rfl

theorem readBack_eq_iff {b : BitVec 8} : readBack b = b ↔ b.toNat < 0xa0 := by
  unfold readBack
  by_cases small : b.toNat < 0xa0
  · rw [if_pos small]
    exact iff_of_true rfl small
  · rw [if_neg small]
    refine iff_of_false (fun same => ?_) small
    have shift := congrArg BitVec.toNat same
    have bound := b.isLt
    rw [toNat_shifted] at shift
    omega

theorem asciiOctet_hex (b : BitVec 8) :
    asciiOctet (b.toNat / 16).digitChar (b.toNat % 16).digitChar = readBack b := by
  have bound := b.isLt
  rw [asciiOctet_low _ (by omega), digitChar_high _ (by omega)]
  unfold readBack
  apply BitVec.eq_of_toNat_eq
  by_cases small : b.toNat < 0xa0
  · rw [if_pos (by omega), if_pos small, BitVec.toNat_ofInt]
    omega
  · rw [if_neg (by omega), if_neg small, BitVec.toNat_ofInt, toNat_shifted]
    omega

/-! ### The expression -/

theorem asciiOctets_hex (bs : List (BitVec 8)) : asciiOctets (bs.flatMap hex) = bs.map readBack := by
  induction bs with
  | nil => rfl
  | cons b bs ih =>
    show asciiOctet (b.toNat / 16).digitChar (b.toNat % 16).digitChar ::
      asciiOctets (bs.flatMap hex) = _
    rw [asciiOctet_hex, ih]
    rfl

theorem rawExpression_compute (e : LearnerEngine) (it : Iteration) :
    (e.compute it).rawExpression = (e.chosen it).flatMap hex := by
  show (e.places it).flatMap rawToken = _
  unfold chosen
  induction e.places it with
  | nil => rfl
  | cons place places ih =>
    cases place with
    | none => exact ih
    | some b => exact congrArg (hex b ++ ·) ih

/-- The octets that were chosen are written as two digits each, and come back exactly when all of
them are below `a0`. -/
theorem getAsciiExpression_iff (e : LearnerEngine) (it : Iteration) :
    (e.compute it).rawExpression = (e.chosen it).flatMap hex ∧
      ((e.compute it).getAsciiExpression = e.chosen it ↔ ∀ b ∈ e.chosen it, b.toNat < 0xa0) := by
  refine ⟨rawExpression_compute e it, ?_⟩
  unfold getAsciiExpression
  rw [rawExpression_compute, asciiOctets_hex]
  constructor
  · intro same b member
    obtain ⟨i, inside, rfl⟩ := List.getElem_of_mem member
    have here := congrArg (·[i]?) same
    simp only [List.getElem?_map, List.getElem?_eq_getElem inside, Option.map_some,
      Option.some.injEq] at here
    exact readBack_eq_iff.mp here
  · intro small
    have each : ∀ b ∈ e.chosen it, readBack b = id b := fun b member =>
      readBack_eq_iff.mpr (small b member)
    rw [List.map_congr_left each, List.map_id]

/-- A packet of the single octet `aa` comes back as `1a`. -/
theorem not_always_getAsciiExpression :
    ¬∀ (packets : List PacketFrequencies) (it : Iteration),
      ((({} : LearnerEngine).learn packets).compute it).getAsciiExpression =
        (({} : LearnerEngine).learn packets).chosen it := by
  intro h
  have same := h [PacketFrequencies.reset.addPayload [0xaa]] ⟨id, fun _ => List.Perm.refl _⟩
  exact absurd same (by decide)

end AIEngine.LearnerEngine
