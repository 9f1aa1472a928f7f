import Mathlib.Algebra.Group.Nat.Defs
import Mathlib.Data.List.Basic

/-!
# Ones-complement sums

The sum of 16 bit words with end-around carry, and the checksums made from it. A sum is all ones when
the plain total of the words is a positive multiple of 65535; in this form nothing depends on when the
carries are folded in, nor on the order of the two octets of a word.
-/

namespace OnesComplement

/-- A carry comes back in at the low end. -/
def add (a b : BitVec 16) : BitVec 16 := a + b + if a.toNat + b.toNat < 65536 then 0#16 else 1#16

def sum (ws : List (BitVec 16)) : BitVec 16 := ws.foldr add 0

/-- The sum of the words as numbers. -/
def total : List (BitVec 16) → Nat
  | [] => 0
  | w :: ws => w.toNat + total ws

@[simp] theorem total_nil : total [] = 0 := rfl

@[simp] theorem total_cons (w : BitVec 16) (ws : List (BitVec 16)) :
    total (w :: ws) = w.toNat + total ws := rfl

@[simp] theorem total_append (vs ws : List (BitVec 16)) : total (vs ++ ws) = total vs + total ws := by
  induction vs with
  | nil => exact (Nat.zero_add _).symm
  | cons v vs ih => rw [List.cons_append, total_cons, ih, total_cons, Nat.add_assoc]

theorem total_le (ws : List (BitVec 16)) : total ws ≤ 65535 * ws.length := by
  induction ws with
  | nil => simp
  | cons w ws ih =>
    have bound := w.isLt
    rw [total_cons, List.length_cons]
    omega

/-! ### Sums with the carries folded in -/

/-- What remains of a number when its carries are folded into 16 bits. -/
structure Folded (n f : Nat) : Prop where
  le : f ≤ 65535
  mod : f % 65535 = n % 65535
  zero : f = 0 ↔ n = 0

theorem Folded.add {a b f g h : Nat} (left : Folded a f) (right : Folded b g)
    (folded : Folded (f + g) h) : Folded (a + b) h where
  le := folded.le
  mod := by
    have first := left.mod
    have second := right.mod
    have both := folded.mod
    omega
  zero := by
    rw [folded.zero, Nat.add_eq_zero_iff, Nat.add_eq_zero_iff, left.zero, right.zero]

theorem add_folded (a b : BitVec 16) : Folded (a.toNat + b.toNat) (add a b).toNat := by
  have first := a.isLt
  have second := b.isLt
  have value : (add a b).toNat =
      if a.toNat + b.toNat < 65536 then a.toNat + b.toNat else a.toNat + b.toNat - 65535 := by
    unfold add
    rw [BitVec.toNat_add, BitVec.toNat_add]
    split
    · rw [BitVec.toNat_ofNat]
      omega
    · rw [BitVec.toNat_ofNat]
      omega
  constructor <;> rw [value] <;> split <;> omega

theorem self_folded (w : BitVec 16) : Folded w.toNat w.toNat :=
  ⟨by have bound := w.isLt; omega, rfl, Iff.rfl⟩

theorem sum_folded (ws : List (BitVec 16)) : Folded (total ws) (sum ws).toNat := by
  induction ws with
  | nil => exact ⟨by decide, rfl, by decide⟩
  | cons w ws ih => exact (self_folded w).add ih (add_folded w (sum ws))

theorem sum_ones_iff (ws : List (BitVec 16)) :
    sum ws = 0xffff ↔ 65535 ∣ total ws ∧ total ws ≠ 0 := by
  obtain ⟨le, mod, zero⟩ := sum_folded ws
  have ones : sum ws = 0xffff ↔ (sum ws).toNat = 65535 := BitVec.toNat_inj.symm
  rw [ones]
  constructor
  · intro all
    exact ⟨Nat.dvd_of_mod_eq_zero (by omega), fun none => by have empty := zero.mpr none; omega⟩
  · rintro ⟨⟨q, multiple⟩, filled⟩
    have apart : (sum ws).toNat ≠ 0 := fun none => filled (zero.mp none)
    omega

/-! ### Checksums -/

/-- The step of a checksum: the carries of a larger sum are added to its low word. -/
def fold (n : Nat) : Nat := n % 65536 + n / 65536

theorem fold_step (n : Nat) : fold n % 65535 = n % 65535 ∧ (fold n = 0 ↔ n = 0) := by
  unfold fold
  omega

theorem fold_fold {n : Nat} (bound : n < 2 ^ 32) : Folded n (fold (fold n)) := by
  unfold fold
  constructor <;> omega

def foldAll (n : Nat) : Nat := if n < 65536 then n else foldAll (fold n)
termination_by n
decreasing_by
  unfold fold
  omega

theorem foldAll_folded (n : Nat) : Folded n (foldAll n) := by
  fun_induction foldAll n with
  | case1 n small => exact ⟨by omega, rfl, Iff.rfl⟩
  | case2 n large ih =>
    obtain ⟨mod, zero⟩ := fold_step n
    exact ⟨ih.le, ih.mod.trans mod, ih.zero.trans zero⟩

theorem complement_completes {n f c : Nat} (folded : Folded n f) (complement : c = 65535 - f) :
    65535 ∣ n + c ∧ n + c ≠ 0 := by
  obtain ⟨le, mod, zero⟩ := folded
  refine ⟨Nat.dvd_of_mod_eq_zero (by omega), fun none => ?_⟩
  have empty : n = 0 := by omega
  have small := zero.mpr empty
  omega

/-! ### The words of an octet string -/

/-- The words with their first octet high, as they are numbered on the wire; an odd octet is followed
by a zero. -/
def words : List (BitVec 8) → List (BitVec 16)
  | [] => []
  | [a] => [a ++ 0#8]
  | a :: b :: rest => (a ++ b) :: words rest

/-- The words as a little-endian machine reads them from memory. -/
def hostWords : List (BitVec 8) → List (BitVec 16)
  | [] => []
  | [a] => [0#8 ++ a]
  | a :: b :: rest => (b ++ a) :: hostWords rest

theorem words_append {xs : List (BitVec 8)} (even : 2 ∣ xs.length) (ys : List (BitVec 8)) :
    words (xs ++ ys) = words xs ++ words ys := by
  fun_induction words xs with
  | case1 => rfl
  | case2 a => exact absurd even (by simp)
  | case3 a b rest ih =>
    have shorter : 2 ∣ rest.length := by
      simp only [List.length_cons] at even
      omega
    rw [List.cons_append, List.cons_append, words, ih shorter, List.cons_append]

theorem hostWords_append {xs : List (BitVec 8)} (even : 2 ∣ xs.length) (ys : List (BitVec 8)) :
    hostWords (xs ++ ys) = hostWords xs ++ hostWords ys := by
  fun_induction hostWords xs with
  | case1 => rfl
  | case2 a => exact absurd even (by simp)
  | case3 a b rest ih =>
    have shorter : 2 ∣ rest.length := by
      simp only [List.length_cons] at even
      omega
    rw [List.cons_append, List.cons_append, hostWords, ih shorter, List.cons_append]

theorem length_words (xs : List (BitVec 8)) : (words xs).length = (xs.length + 1) / 2 := by
  fun_induction words xs with
  | case1 => rfl
  | case2 a => simp
  | case3 a b rest ih =>
    rw [List.length_cons, ih, List.length_cons, List.length_cons]
    omega

theorem length_hostWords (xs : List (BitVec 8)) : (hostWords xs).length = (xs.length + 1) / 2 := by
  fun_induction hostWords xs with
  | case1 => rfl
  | case2 a => simp
  | case3 a b rest ih =>
    rw [List.length_cons, ih, List.length_cons, List.length_cons]
    omega

theorem total_host_append {xs : List (BitVec 8)} (even : 2 ∣ xs.length) (ys : List (BitVec 8)) :
    total (hostWords (xs ++ ys)) = total (hostWords xs) + total (hostWords ys) := by
  rw [hostWords_append even, total_append]

/-- A zero behind an odd octet is what the sum assumes there anyway. -/
theorem total_padded (xs : List (BitVec 8)) :
    total (hostWords (xs ++ List.replicate (xs.length % 2) 0)) = total (hostWords xs) := by
  fun_induction hostWords xs with
  | case1 => rfl
  | case2 a => rfl
  | case3 a b rest ih =>
    have parity : (a :: b :: rest).length % 2 = rest.length % 2 := by
      simp only [List.length_cons]
      omega
    rw [parity, List.cons_append, List.cons_append, hostWords, total_cons, ih, total_cons]

theorem toNat_octets (a b : BitVec 8) : (a ++ b).toNat = 256 * a.toNat + b.toNat := by
  have bound := b.isLt
  rw [BitVec.toNat_append, ← Nat.shiftLeft_add_eq_or_of_lt bound, Nat.shiftLeft_eq]
  omega

/-- The order of the octets is a factor of 256, which does not matter to 65535. -/
theorem swapped_total (xs : List (BitVec 8)) :
    (256 * total (words xs)) % 65535 = total (hostWords xs) % 65535 ∧
      (total (words xs) = 0 ↔ total (hostWords xs) = 0) := by
  fun_induction words xs with
  | case1 => simp [hostWords]
  | case2 a =>
    simp only [hostWords, total_cons, total_nil, toNat_octets, BitVec.toNat_ofNat]
    omega
  | case3 a b rest ih =>
    simp only [hostWords, total_cons, toNat_octets]
    omega

theorem sum_words_ones_iff (xs : List (BitVec 8)) :
    sum (words xs) = 0xffff ↔ sum (hostWords xs) = 0xffff := by
  obtain ⟨mod, zero⟩ := swapped_total xs
  rw [sum_ones_iff, sum_ones_iff]
  omega

/-- An octet string that carries a right checksum. -/
def Verifies (xs : List (BitVec 8)) : Prop := sum (words xs) = 0xffff

instance (xs : List (BitVec 8)) : Decidable (Verifies xs) := inferInstanceAs (Decidable (_ = _))

theorem verifies_iff (xs : List (BitVec 8)) :
    Verifies xs ↔ 65535 ∣ total (words xs) ∧ total (words xs) ≠ 0 := sum_ones_iff _

theorem verifies_iff_host (xs : List (BitVec 8)) :
    Verifies xs ↔ 65535 ∣ total (hostWords xs) ∧ total (hostWords xs) ≠ 0 :=
  (sum_words_ones_iff xs).trans (sum_ones_iff _)

end OnesComplement
