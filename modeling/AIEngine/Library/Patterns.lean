import Mathlib.Data.List.Basic

/-!
# Patterns of octets and wildcards

A small language of anchored patterns, its texts, and what they match. A dot stands for any octet, line
ends included, and a pattern need not reach the end of what it matches.
-/

namespace Patterns

/-- `\xHH`, `.?` and `.{n}` -/
inductive Item where
  | octet (b : BitVec 8)
  | optional
  | exactly (n : Nat)
  deriving DecidableEq, Repr

/-! ### Texts -/

/-- The two hexadecimal digits of an octet. -/
def hex (b : BitVec 8) : List Char := [(b.toNat / 16).digitChar, (b.toNat % 16).digitChar]

def decimal (n : Nat) : List Char := Nat.toDigits 10 n

def hexValue (c : Char) : Option Nat :=
  if c.isDigit then some (c.toNat - 48)
  else if 'a' ≤ c ∧ c ≤ 'f' then some (c.toNat - 87)
  else none

def Item.text : Item → List Char
  | .octet b => '\\' :: 'x' :: hex b
  | .optional => ['.', '?']
  | .exactly n => '.' :: '{' :: (decimal n ++ ['}'])

def text (items : List Item) : List Char := items.flatMap Item.text

/-- The largest number of repetitions that can be asked for. -/
def maxRepeat : Nat := 65535

/-- The items of a text. With a number, the text is inside of the braces of a repetition, and the
number is what its digits make so far. -/
def parseItems : Option Nat → List Char → Option (List Item)
  | none, [] => some []
  | none, '\\' :: 'x' :: a :: b :: rest => do
    let high ← hexValue a
    let low ← hexValue b
    let items ← parseItems none rest
    some (.octet (BitVec.ofNat 8 (16 * high + low)) :: items)
  | none, '.' :: '?' :: rest => (parseItems none rest).map (.optional :: ·)
  | none, '.' :: '{' :: d :: rest =>
    if d.isDigit then parseItems (some (d.toNat - 48)) rest else none
  | some n, d :: rest =>
    if d = '}' then
      if n ≤ maxRepeat then (parseItems none rest).map (.exactly n :: ·) else none
    else if d.isDigit then parseItems (some (10 * n + (d.toNat - 48))) rest
    else none
  | _, _ => none

/-- A pattern is anchored. -/
def parse : List Char → Option (List Item)
  | '^' :: rest => parseItems none rest
  | _ => none

/-! ### Matching -/

/-- The items match what some text begins with. -/
def Matches : List Item → List (BitVec 8) → Prop
  | [], _ => True
  | .octet b :: items, c :: rest => c = b ∧ Matches items rest
  | .octet _ :: _, [] => False
  | .optional :: items, c :: rest => Matches items rest ∨ Matches items (c :: rest)
  | .optional :: items, [] => Matches items []
  | .exactly n :: items, s => n ≤ s.length ∧ Matches items (s.drop n)

def decideMatches : (items : List Item) → (s : List (BitVec 8)) → Decidable (Matches items s)
  | [], _ => isTrue trivial
  | .octet b :: items, c :: rest =>
    have := decideMatches items rest
    inferInstanceAs (Decidable (c = b ∧ Matches items rest))
  | .octet _ :: _, [] => isFalse id
  | .optional :: items, c :: rest =>
    have := decideMatches items rest
    have := decideMatches items (c :: rest)
    inferInstanceAs (Decidable (Matches items rest ∨ Matches items (c :: rest)))
  | .optional :: items, [] => decideMatches items []
  | .exactly n :: items, s =>
    have := decideMatches items (s.drop n)
    inferInstanceAs (Decidable (n ≤ s.length ∧ Matches items (s.drop n)))

instance (items : List Item) (s : List (BitVec 8)) : Decidable (Matches items s) :=
  decideMatches items s

/-! ### What is written is read -/

theorem hexValue_digit {n : Nat} (digit : n < 16) : hexValue n.digitChar = some n := by
  revert n
  decide

theorem parse_octet (b : BitVec 8) (rest : List Char) :
    parseItems none ((Item.octet b).text ++ rest) = (parseItems none rest).map (.octet b :: ·) := by
  have bound := b.isLt
  have value : BitVec.ofNat 8 (16 * (b.toNat / 16) + b.toNat % 16) = b := by
    rw [Nat.div_add_mod, BitVec.ofNat_toNat, BitVec.setWidth_eq]
  show parseItems none ('\\' :: 'x' :: _ :: _ :: rest) = _
  rw [parseItems, hexValue_digit (by omega), hexValue_digit (by omega)]
  show ((parseItems none rest).bind fun items => _) = _
  rw [value, Option.map_eq_bind]
  rfl

/-- The digits behind the first are added to what the first makes. -/
theorem parse_digits {digits : List Char} (all : ∀ d ∈ digits, d.isDigit = true) (n : Nat)
    (rest : List Char) : parseItems (some n) (digits ++ '}' :: rest) =
      parseItems (some (Nat.ofDigitChars 10 digits n)) ('}' :: rest) := by
  induction digits generalizing n with
  | nil => rw [Nat.ofDigitChars_nil, List.nil_append]
  | cons d digits ih =>
    have digit : d.isDigit = true := all d List.mem_cons_self
    have other : d ≠ '}' := by
      rintro rfl
      exact absurd digit (by decide)
    rw [List.cons_append, parseItems, if_neg other, if_pos digit, Nat.ofDigitChars_cons]
    exact ih (fun e member => all e (List.mem_cons_of_mem d member)) _

theorem parse_exactly {n : Nat} (small : n ≤ maxRepeat) (rest : List Char) :
    parseItems none ((Item.exactly n).text ++ rest) =
      (parseItems none rest).map (.exactly n :: ·) := by
  obtain ⟨d, digits, shape⟩ : ∃ d digits, decimal n = d :: digits :=
    List.exists_cons_of_ne_nil Nat.toDigits_ne_nil
  have all : ∀ e ∈ d :: digits, e.isDigit = true := fun e member =>
    Nat.isDigit_of_mem_toDigits (by decide) (Nat.le_refl 10) (shape ▸ member)
  have value : Nat.ofDigitChars 10 digits (d.toNat - 48) = n := by
    have whole : Nat.ofDigitChars 10 (d :: digits) 0 = n := by
      rw [← shape]
      exact Nat.ofDigitChars_ten_toDigits
    rwa [Nat.ofDigitChars_cons, Nat.mul_zero, Nat.zero_add] at whole
  show parseItems none ('.' :: '{' :: ((decimal n ++ ['}']) ++ rest)) = _
  rw [shape, List.cons_append, List.cons_append, List.append_assoc, parseItems,
    if_pos (all d List.mem_cons_self)]
  show parseItems (some (d.toNat - 48)) (digits ++ '}' :: rest) = _
  rw [parse_digits (fun e member => all e (List.mem_cons_of_mem d member)), value, parseItems,
    if_pos rfl, if_pos small]

/-- A text is read back, when no repetition is too long. -/
theorem parse_text {items : List Item} (small : ∀ n, .exactly n ∈ items → n ≤ maxRepeat) :
    parse ('^' :: text items) = some items := by
  show parseItems none (text items) = some items
  induction items with
  | nil => rfl
  | cons item items ih =>
    have rest := ih fun n member => small n (List.mem_cons_of_mem item member)
    show parseItems none (item.text ++ text items) = _
    cases item with
    | octet b => rw [parse_octet, rest, Option.map_some]
    | optional =>
      show (parseItems none (text items)).map _ = _
      rw [rest, Option.map_some]
    | exactly n => rw [parse_exactly (small n List.mem_cons_self), rest, Option.map_some]

/-! ### Compaction

A sequence of octets and wildcards, one for each place, has an item for each octet and one for each
run of wildcards. -/

/-- The item of a run of wildcards. -/
def wildcards : Nat → List Item
  | 0 => []
  | 1 => [.optional]
  | n => [.exactly n]

/-- The items behind a run of wildcards. -/
def compact : Nat → List (Option (BitVec 8)) → List Item
  | n, [] => wildcards n
  | n, none :: places => compact (n + 1) places
  | n, some b :: places => wildcards n ++ .octet b :: compact 0 places

theorem exactly_mem_wildcards {n m : Nat} (member : Item.exactly m ∈ wildcards n) : m = n := by
  match n, member with
  | 0, member => cases member
  | 1, member => simp [wildcards] at member
  | n + 2, member => simpa [wildcards] using member

/-- No run is longer than all places. -/
theorem exactly_mem_compact {n m : Nat} {places : List (Option (BitVec 8))}
    (member : Item.exactly m ∈ compact n places) : m ≤ n + places.length := by
  induction places generalizing n with
  | nil => exact Nat.le_of_eq (exactly_mem_wildcards member)
  | cons place places ih =>
    rw [List.length_cons]
    cases place with
    | none =>
      have bound := ih member
      omega
    | some b =>
      rcases List.mem_append.mp member with run | later
      · have bound := exactly_mem_wildcards run
        omega
      · rcases List.mem_cons.mp later with octet | later
        · cases octet
        · have bound := ih later
          omega

theorem matches_wildcards {n : Nat} {items : List Item} {s : List (BitVec 8)} (room : n ≤ s.length)
    (behind : Matches items (s.drop n)) : Matches (wildcards n ++ items) s := by
  match n, room, behind with
  | 0, _, behind => exact behind
  | 1, room, behind =>
    cases s with
    | nil => exact behind
    | cons c rest => exact Or.inl behind
  | n + 2, room, behind => exact ⟨room, behind⟩

/-- A text with the octets at their places is matched by the items of the places. -/
theorem matches_compact {n : Nat} {places : List (Option (BitVec 8))} {s : List (BitVec 8)}
    (room : n + places.length ≤ s.length)
    (agree : ∀ i b, places[i]? = some (some b) → s[n + i]? = some b) :
    Matches (compact n places) s := by
  induction places generalizing n s with
  | nil =>
    have run : Matches (wildcards n ++ []) s := matches_wildcards room trivial
    rwa [List.append_nil] at run
  | cons place places ih =>
    rw [List.length_cons] at room
    cases place with
    | none =>
      refine ih (by omega) fun i b here => ?_
      have there := agree (i + 1) b here
      rwa [← Nat.add_assoc, Nat.add_right_comm] at there
    | some b =>
      refine matches_wildcards (by omega) ?_
      have first : s[n]? = some b := agree 0 b rfl
      rw [List.drop_eq_getElem_cons (by omega : n < s.length)]
      refine ⟨(List.getElem_eq_iff _).mpr first, ih ?_ fun i c here => ?_⟩
      · rw [List.length_drop]
        omega
      · rw [List.getElem?_drop, Nat.zero_add, Nat.add_right_comm]
        exact agree (i + 1) c here

end Patterns
