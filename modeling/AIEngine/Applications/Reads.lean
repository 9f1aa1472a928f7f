import AIEngine.Applications.Inspector

/-!
# What can be read of a packet

A read returns what stands there or leaves the memory.
-/

namespace AIEngine

def ReadsInside {α : Type} (r : Except Failure α) : Prop := r ≠ .error (.fault .outOfBounds)

theorem readsInside_ok {α : Type} (x : α) : ReadsInside (.ok x : Except Failure α) := by
  simp [ReadsInside]

theorem not_readsInside {α : Type} :
    ¬ReadsInside (.error (.fault .outOfBounds) : Except Failure α) := fun inside => inside rfl

namespace HttpPacket

variable {p : L7Packet} {k n : Nat}

/-- The two octets as a number; what is not there counts as zero. -/
def wordAt (p : L7Packet) (k : Nat) : Nat :=
  256 * (p.memory.getD k 0).toNat + (p.memory.getD (k + 1) 0).toNat

theorem payload_le_memory (p : L7Packet) : p.payload.length ≤ p.memory.length := by
  unfold memory
  rw [List.length_append]
  omega

theorem memory_bare (bare : p.beyond = []) : p.memory = p.payload := by
  unfold memory
  rw [bare, List.append_nil]

def octetAt (p : L7Packet) (k : Nat) : BitVec 8 := p.memory.getD k 0

theorem byte_of_drop {b : BitVec 8} {rest : Bytes} (stands : p.memory.drop k = b :: rest) :
    p.byte k = .ok b := by
  have found : p.memory[k]? = some b := by
    rw [← List.head?_drop, stands, List.head?_cons]
  unfold byte
  rw [found]

theorem byte_outside (outside : p.memory.length ≤ k) : p.byte k = .error (.fault .outOfBounds) := by
  unfold byte
  rw [List.getElem?_eq_none outside]

theorem byte_inside (inside : k < p.memory.length) : p.byte k = .ok (p.octetAt k) := by
  unfold byte octetAt
  rw [List.getD_eq_getElem?_getD, List.getElem?_eq_getElem inside, Option.getD_some]

theorem word_inside (inside : k + 2 ≤ p.memory.length) : p.word k = .ok (p.wordAt k) := by
  unfold word
  rw [byte_inside (by omega), byte_inside (by omega)]
  rfl

theorem word_outside (outside : p.memory.length < k + 2) :
    p.word k = .error (.fault .outOfBounds) := by
  unfold word
  by_cases first : k < p.memory.length
  · rw [byte_inside first, byte_outside (by omega)]
    rfl
  · rw [byte_outside (by omega)]
    rfl

theorem slice_inside (inside : k + n ≤ p.memory.length) :
    p.slice k n = .ok ((p.memory.drop k).take n) := if_pos inside

theorem slice_outside (outside : p.memory.length < k + n) :
    p.slice k n = .error (.fault .outOfBounds) := if_neg (by omega)

/-! ### Encoded numbers -/

/-- In network order. -/
def octets16 (x : BitVec 16) : Bytes := [x.extractLsb' 8 8, x.extractLsb' 0 8]

theorem wordAt_drop (p : L7Packet) (k j : Nat) : p.wordAt (k + j) =
    256 * ((p.memory.drop k).getD j 0).toNat + ((p.memory.drop k).getD (j + 1) 0).toNat := by
  unfold wordAt
  simp only [List.getD_eq_getElem?_getD, List.getElem?_drop, Nat.add_assoc]

theorem octets16_toNat (x : BitVec 16) :
    256 * (x.extractLsb' 8 8).toNat + (x.extractLsb' 0 8).toNat = x.toNat := by
  have short := x.isLt
  simp only [BitVec.extractLsb'_toNat, Nat.shiftRight_eq_div_pow]
  omega

/-- A field that stands at a place, whatever stands behind it. -/
theorem wordAt_of_drop {x : BitVec 16} {rest : Bytes} (stands : p.memory.drop k = octets16 x ++ rest) :
    p.wordAt k = x.toNat := by
  have read := wordAt_drop p k 0
  rw [stands] at read
  exact read.trans (octets16_toNat x)

theorem octetAt_of_drop {b : BitVec 8} {rest : Bytes} (stands : p.memory.drop k = b :: rest) :
    p.octetAt k = b := by
  unfold octetAt
  rw [List.getD_eq_getElem?_getD, ← List.head?_drop, stands]
  rfl

theorem drop_field {field rest : Bytes} (stands : p.memory.drop k = field ++ rest) :
    p.memory.drop (k + field.length) = rest := by
  rw [← List.drop_drop, stands, List.drop_left]

theorem drop_octet {b : BitVec 8} {rest : Bytes} (stands : p.memory.drop k = b :: rest) :
    p.memory.drop (k + 1) = rest := by
  rw [← List.drop_drop, stands]
  rfl

theorem drop_word {x : BitVec 16} {rest : Bytes} (stands : p.memory.drop k = octets16 x ++ rest) :
    p.memory.drop (k + 2) = rest :=
  drop_field stands

/-- A field of some octets ends inside. -/
theorem field_inside {field rest : Bytes} (stands : p.memory.drop k = field ++ rest)
    (some : field ≠ []) : k + field.length ≤ p.memory.length := by
  have lengths := congrArg List.length stands
  have positive := List.length_pos_of_ne_nil some
  rw [List.length_drop, List.length_append] at lengths
  omega

/-! ### What is read before something else -/

section

variable {α : Type}

theorem readsInside_byte {f : BitVec 8 → Except Failure α} :
    ReadsInside (p.byte k >>= f) ↔ k < p.memory.length ∧ ReadsInside (f (p.octetAt k)) := by
  by_cases inside : k < p.memory.length
  · rw [byte_inside inside, and_iff_right inside]
    exact Iff.rfl
  · rw [byte_outside (by omega)]
    exact iff_of_false not_readsInside fun both => inside both.1

theorem readsInside_word {f : Nat → Except Failure α} :
    ReadsInside (p.word k >>= f) ↔ k + 2 ≤ p.memory.length ∧ ReadsInside (f (p.wordAt k)) := by
  by_cases inside : k + 2 ≤ p.memory.length
  · rw [word_inside inside, and_iff_right inside]
    exact Iff.rfl
  · rw [word_outside (by omega)]
    exact iff_of_false not_readsInside fun both => inside both.1

theorem readsInside_slice {f : Bytes → Except Failure α} :
    ReadsInside (p.slice k n >>= f) ↔
      k + n ≤ p.memory.length ∧ ReadsInside (f ((p.memory.drop k).take n)) := by
  by_cases inside : k + n ≤ p.memory.length
  · rw [slice_inside inside, and_iff_right inside]
    exact Iff.rfl
  · rw [slice_outside (by omega)]
    exact iff_of_false not_readsInside fun both => inside both.1

end

end HttpPacket

end AIEngine
