import Mathlib.Data.List.Basic

/-!
# Octet strings

The operations of a string reference that a C++ parser works with, and the numeral that `strtol`
reads. Positions are counted from zero; a count may be negative, which is a huge unsigned number.
-/

namespace Octets

/-- The characters of an ASCII literal. -/
def ascii (s : String) : List (BitVec 8) := s.toList.map fun c => BitVec.ofNat 8 c.toNat

/-- The first place at which `text` stands. -/
def find (text : List (BitVec 8)) : List (BitVec 8) → Option Nat
  | [] => if text = [] then some 0 else none
  | b :: rest => if text.isPrefixOf (b :: rest) then some 0 else (find text rest).map (· + 1)

/-- The last place at which the octet stands. -/
def rfind (b : BitVec 8) : List (BitVec 8) → Option Nat
  | [] => none
  | c :: rest =>
    match rfind b rest with
    | some k => some (k + 1)
    | none => if c = b then some 0 else none

/-- At most `n` octets from `pos` on; a position behind the end is out of range. -/
def substr (s : List (BitVec 8)) (pos : Nat) (n : Int) : Option (List (BitVec 8)) :=
  if pos ≤ s.length then some (if 0 ≤ n then (s.drop pos).take n.toNat else s.drop pos) else none

theorem substr_of_le {s : List (BitVec 8)} {pos : Nat} (bound : pos ≤ s.length) (n : Int) :
    substr s pos n = some (if 0 ≤ n then (s.drop pos).take n.toNat else s.drop pos) := if_pos bound

theorem find_isPrefixOf {text s : List (BitVec 8)} {k : Nat} (h : find text s = some k) :
    text.isPrefixOf (s.drop k) = true := by
  induction s generalizing k with
  | nil =>
    unfold find at h
    split at h
    · rename_i empty
      rw [empty]
      rfl
    · exact absurd h (by simp)
  | cons b rest ih =>
    unfold find at h
    split at h
    · rename_i here
      obtain rfl := Option.some.inj h
      exact here
    · obtain ⟨j, later, rfl⟩ := Option.map_eq_some_iff.mp h
      exact ih later

/-- A text that is found lies within the string. -/
theorem find_le {text s : List (BitVec 8)} {k : Nat} (h : find text s = some k) :
    k + text.length ≤ s.length := by
  induction s generalizing k with
  | nil =>
    unfold find at h
    split at h
    · rename_i empty
      obtain rfl := Option.some.inj h
      simp [empty]
    · exact absurd h (by simp)
  | cons b rest ih =>
    unfold find at h
    split at h
    · rename_i here
      obtain rfl := Option.some.inj h
      have sub := (List.isPrefixOf_iff_prefix.mp here).length_le
      omega
    · obtain ⟨j, later, rfl⟩ := Option.map_eq_some_iff.mp h
      have bound := ih later
      simp only [List.length_cons]
      omega

/-! ### The first place of a text -/

section First

variable {text : List (BitVec 8)}

theorem find_eq_none (s : List (BitVec 8)) (filled : text ≠ []) :
    find text s = none ↔ ¬text <:+: s := by
  induction s with
  | nil => simp [find, filled]
  | cons b rest ih =>
    unfold find
    rw [List.infix_cons_iff]
    by_cases here : text.isPrefixOf (b :: rest) = true
    · rw [if_pos here]
      exact iff_of_false (by simp) fun no => no (Or.inl (List.isPrefixOf_iff_prefix.mp here))
    · rw [if_neg here, Option.map_eq_none_iff, ih, not_or]
      exact ⟨fun later => ⟨fun first => here (List.isPrefixOf_iff_prefix.mpr first), later⟩,
        fun both => both.2⟩

/-- What is behind the string does not matter to a text that is found in it. -/
theorem find_append {s : List (BitVec 8)} {k : Nat} (more : List (BitVec 8))
    (h : find text s = some k) : find text (s ++ more) = some k := by
  induction s generalizing k with
  | nil =>
    unfold find at h
    split at h
    · rename_i empty
      subst empty
      obtain rfl := Option.some.inj h
      cases more <;> rfl
    · exact absurd h (by simp)
  | cons b rest ih =>
    have bound := find_le h
    unfold find at h
    rw [List.cons_append]
    unfold find
    by_cases here : text.isPrefixOf (b :: rest) = true
    · rw [if_pos here] at h
      have also : text.isPrefixOf (b :: (rest ++ more)) = true :=
        List.isPrefixOf_iff_prefix.mpr
          ((List.isPrefixOf_iff_prefix.mp here).trans (List.prefix_append (b :: rest) more))
      rw [if_pos also]
      exact h
    · rw [if_neg here] at h
      obtain ⟨j, later, rfl⟩ := Option.map_eq_some_iff.mp h
      have neither : ¬text.isPrefixOf (b :: (rest ++ more)) = true := by
        intro also
        refine here (List.isPrefixOf_iff_prefix.mpr (List.prefix_of_prefix_length_le
          (List.isPrefixOf_iff_prefix.mp also) (List.prefix_append (b :: rest) more) ?_))
        omega
      rw [if_neg neither, ih later]
      rfl

/-- A text does not reach over an octet that it does not have. -/
theorem find_skip {c : BitVec 8} (s more : List (BitVec 8)) (without : c ∉ text) (filled : text ≠ [])
    (absent : ¬text <:+: s) :
    find text (s ++ c :: more) = (find text more).map (· + (s.length + 1)) := by
  have crosses : ∀ front : List (BitVec 8), text <+: front ++ c :: more → text <+: front := by
    intro front first
    have whole : front ++ [c] <+: front ++ c :: more := ⟨more, by simp⟩
    rcases List.prefix_or_prefix_of_prefix first whole with inside | beyond
    · rcases List.prefix_concat_iff.mp inside with same | inside
      · exact absurd (same ▸ List.mem_append_right front List.mem_cons_self) without
      · exact inside
    · exact absurd (beyond.subset (List.mem_append_right front List.mem_cons_self)) without
  induction s with
  | nil =>
    have no : ¬text.isPrefixOf (c :: more) = true := fun first =>
      filled (List.prefix_nil.mp (crosses [] (List.isPrefixOf_iff_prefix.mp first)))
    rw [List.nil_append, find, if_neg no]
    rfl
  | cons b rest ih =>
    rw [List.infix_cons_iff, not_or] at absent
    have no : ¬text.isPrefixOf (b :: (rest ++ c :: more)) = true := fun first =>
      absent.1 (crosses (b :: rest) (List.isPrefixOf_iff_prefix.mp first))
    rw [List.cons_append, find, if_neg no, ih absent.2, Option.map_map]
    congr 1

theorem find_start (s : List (BitVec 8)) : find text (text ++ s) = some 0 := by
  cases whole : text ++ s with
  | nil =>
    rw [List.append_eq_nil_iff] at whole
    rw [find, if_pos whole.1]
  | cons b rest =>
    have here : text.isPrefixOf (b :: rest) = true := by
      rw [← whole]
      exact List.isPrefixOf_iff_prefix.mpr (List.prefix_append text s)
    rw [find, if_pos here]

end First

/-- One octet is found at its first place. -/
theorem find_octet {b : BitVec 8} {s : List (BitVec 8)} (absent : b ∉ s) (more : List (BitVec 8)) :
    find [b] (s ++ b :: more) = some s.length := by
  induction s with
  | nil => exact find_start more
  | cons c rest ih =>
    obtain ⟨other, later⟩ := not_or.mp fun either => absent (List.mem_cons.mpr either)
    have no : ¬[b].isPrefixOf (c :: (rest ++ b :: more)) = true := fun first =>
      other (List.cons_prefix_cons.mp (List.isPrefixOf_iff_prefix.mp first)).1
    rw [List.cons_append, find, if_neg no, ih later]
    rfl

theorem find_octet_eq_none {b : BitVec 8} {s : List (BitVec 8)} : find [b] s = none ↔ b ∉ s := by
  rw [find_eq_none s (List.cons_ne_nil b [])]
  refine not_congr ⟨fun inside => inside.subset List.mem_cons_self, fun member => ?_⟩
  obtain ⟨before, after, whole⟩ := List.append_of_mem member
  exact ⟨before, after, by rw [whole, List.append_assoc]; rfl⟩

/-! ### The last place of an octet -/

theorem rfind_cons (b c : BitVec 8) (rest : List (BitVec 8)) : rfind b (c :: rest) =
    match rfind b rest with
    | some k => some (k + 1)
    | none => if c = b then some 0 else none := rfl

theorem rfind_eq_none {b : BitVec 8} {s : List (BitVec 8)} : rfind b s = none ↔ b ∉ s := by
  induction s with
  | nil => simp [rfind]
  | cons c rest ih =>
    rw [List.mem_cons, not_or, ← ih, rfind_cons]
    cases rfind b rest with
    | some k => simp
    | none => simp [eq_comm (a := b)]

theorem rfind_octet {b : BitVec 8} {more : List (BitVec 8)} (absent : b ∉ more)
    (s : List (BitVec 8)) : rfind b (s ++ b :: more) = some s.length := by
  induction s with
  | nil =>
    rw [List.nil_append, rfind_cons, rfind_eq_none.mpr absent]
    exact if_pos rfl
  | cons c rest ih =>
    rw [List.cons_append, rfind_cons, ih]
    rfl

/-- What is behind an octet that does not have it does not matter. -/
theorem rfind_append {b : BitVec 8} {more : List (BitVec 8)} (absent : b ∉ more)
    (s : List (BitVec 8)) : rfind b (s ++ more) = rfind b s := by
  induction s with
  | nil => exact (rfind_eq_none.mpr absent).trans rfl
  | cons c rest ih =>
    rw [List.cons_append, rfind_cons, ih]
    rfl

theorem rfind_lt {b : BitVec 8} {s : List (BitVec 8)} {k : Nat} (h : rfind b s = some k) :
    k < s.length := by
  induction s generalizing k with
  | nil => cases h
  | cons c rest ih =>
    rw [List.length_cons]
    rw [rfind_cons] at h
    split at h
    · rename_i j later
      obtain rfl := Option.some.inj h
      have bound := ih later
      omega
    · split at h
      · obtain rfl := Option.some.inj h
        omega
      · cases h

/-! ### Around an octet -/

/-- Behind the first place. -/
def behind (b : BitVec 8) (s : List (BitVec 8)) : List (BitVec 8) :=
  (s.dropWhile fun c => decide (c ≠ b)).tail

/-- Before the last place, or everything. -/
def beforeLast (b : BitVec 8) (s : List (BitVec 8)) : List (BitVec 8) :=
  if b ∈ s then (behind b s.reverse).reverse else s

theorem behind_octet {b : BitVec 8} {front : List (BitVec 8)} (absent : b ∉ front)
    (back : List (BitVec 8)) : behind b (front ++ b :: back) = back := by
  have skipped : ∀ c ∈ front, decide (c ≠ b) = true := fun c member =>
    decide_eq_true fun same => absent (same ▸ member)
  unfold behind
  rw [List.dropWhile_append_of_pos skipped, List.dropWhile_cons_of_neg (by simp)]
  rfl

theorem beforeLast_octet {b : BitVec 8} {back : List (BitVec 8)} (absent : b ∉ back)
    (front : List (BitVec 8)) : beforeLast b (front ++ b :: back) = front := by
  have turned : (front ++ b :: back).reverse = back.reverse ++ b :: front.reverse := by simp
  unfold beforeLast
  rw [if_pos (by simp), turned, behind_octet (by simpa using absent), List.reverse_reverse]

theorem first_octet {b : BitVec 8} {s : List (BitVec 8)} (member : b ∈ s) :
    ∃ front back, s = front ++ b :: back ∧ b ∉ front := List.eq_append_cons_of_mem member

theorem last_octet {b : BitVec 8} {s : List (BitVec 8)} (member : b ∈ s) :
    ∃ front back, s = front ++ b :: back ∧ b ∉ back := by
  obtain ⟨front, back, turned, absent⟩ := first_octet (List.mem_reverse.mpr member)
  refine ⟨back.reverse, front.reverse, ?_, by simpa using absent⟩
  rw [← List.reverse_reverse s, turned]
  simp

/-! ### Numerals -/

def isSpace (b : BitVec 8) : Bool := decide (b = 0x20 ∨ (9 ≤ b.toNat ∧ b.toNat ≤ 13))

def isDigit (b : BitVec 8) : Bool := decide (48 ≤ b.toNat ∧ b.toNat ≤ 57)

def number (ds : List (BitVec 8)) : Nat := ds.foldl (fun n d => 10 * n + (d.toNat - 48)) 0

/-- The number that `strtol` finds in base 10 before it is cut to a `long`: blanks, a sign, digits.
Without a digit there is no conversion. -/
def strtol (s : List (BitVec 8)) : Option Int :=
  match s.dropWhile isSpace with
  | [] => none
  | b :: rest =>
    let digits := (if b = 0x2d ∨ b = 0x2b then rest else b :: rest).takeWhile isDigit
    if digits = [] then none
    else some (if b = 0x2d then -(number digits : Int) else number digits)

theorem digit_plain {d : BitVec 8} (digit : isDigit d = true) :
    isSpace d = false ∧ d ≠ 0x2d ∧ d ≠ 0x2b := by
  have bounds := of_decide_eq_true digit
  refine ⟨decide_eq_false ?_, ?_, ?_⟩
  · rintro (rfl | white)
    · exact absurd bounds (by decide)
    · omega
  · rintro rfl
    exact absurd bounds (by decide)
  · rintro rfl
    exact absurd bounds (by decide)

theorem takeWhile_digits {ds tail : List (BitVec 8)} (digits : ∀ d ∈ ds, isDigit d = true)
    (stops : ∀ b ∈ tail.head?, isDigit b = false) : (ds ++ tail).takeWhile isDigit = ds := by
  have after : tail.takeWhile isDigit = [] := by
    cases tail with
    | nil => rfl
    | cons b rest => rw [List.takeWhile_cons_of_neg (by simp [stops b rfl])]
  rw [List.takeWhile_append_of_pos digits, after, List.append_nil]

theorem dropWhile_blanks {blanks more : List (BitVec 8)} {b : BitVec 8}
    (blank : ∀ b ∈ blanks, isSpace b = true) (filled : isSpace b = false) :
    (blanks ++ b :: more).dropWhile isSpace = b :: more := by
  rw [List.dropWhile_append_of_pos blank, List.dropWhile_cons_of_neg (by simp [filled])]

/-- Blanks, digits, and something that is no digit. -/
theorem strtol_numeral {blanks ds tail : List (BitVec 8)} (blank : ∀ b ∈ blanks, isSpace b = true)
    (digits : ∀ d ∈ ds, isDigit d = true) (some_digit : ds ≠ [])
    (stops : ∀ b ∈ tail.head?, isDigit b = false) :
    strtol (blanks ++ (ds ++ tail)) = some (number ds : Int) := by
  obtain ⟨d, more, rfl⟩ := List.exists_cons_of_ne_nil some_digit
  obtain ⟨plain, minus, plus⟩ := digit_plain (digits d List.mem_cons_self)
  unfold strtol
  rw [List.cons_append, dropWhile_blanks blank plain]
  simp only [minus, plus, or_self, if_false]
  rw [← List.cons_append, takeWhile_digits digits stops, if_neg (List.cons_ne_nil d more)]

/-- Blanks, a sign or none, and a decimal numeral of this value that no more digits follow. -/
def Numeral (s : List (BitVec 8)) (n : Int) : Prop :=
  ∃ blanks sign ds tail, s = blanks ++ (sign ++ (ds ++ tail)) ∧
    (∀ b ∈ blanks, isSpace b = true) ∧ (sign = [] ∨ sign = [0x2d] ∨ sign = [0x2b]) ∧
    (ds ≠ [] ∧ ∀ d ∈ ds, isDigit d = true) ∧ (∀ b ∈ tail.head?, isDigit b = false) ∧
    n = if sign = [0x2d] then -(number ds : Int) else number ds

/-- The digits that a text begins with, as `strtol` takes them. -/
theorem digits_split (s : List (BitVec 8)) :
    s = s.takeWhile isDigit ++ s.dropWhile isDigit ∧
      (∀ d ∈ s.takeWhile isDigit, isDigit d = true) ∧
      ∀ b ∈ (s.dropWhile isDigit).head?, isDigit b = false := by
  refine ⟨List.takeWhile_append_dropWhile.symm,
    fun d => List.all_eq_true.mp List.all_takeWhile d, fun b first => ?_⟩
  have stop := List.head?_dropWhile_not isDigit s
  rw [Option.mem_def.mp first] at stop
  simpa using stop

/-- `strtol` reads the numeral that the text begins with. -/
theorem strtol_iff {s : List (BitVec 8)} {n : Int} : strtol s = some n ↔ Numeral s n := by
  constructor
  · intro read
    have blank : ∀ b ∈ s.takeWhile isSpace, isSpace b = true :=
      fun b => List.all_eq_true.mp List.all_takeWhile b
    have split := List.takeWhile_append_dropWhile (p := isSpace) (l := s)
    unfold strtol at read
    cases behind : s.dropWhile isSpace with
    | nil =>
      rw [behind] at read
      exact absurd read (by simp)
    | cons b rest =>
      rw [behind] at read split
      simp only at read
      by_cases signed : b = 0x2d ∨ b = 0x2b
      · rw [if_pos signed] at read
        obtain ⟨parts, digits, stops⟩ := digits_split rest
        split at read
        · exact absurd read (by simp)
        · rename_i some_digit
          refine ⟨_, [b], _, _, ?_, blank, ?_, ⟨some_digit, digits⟩, stops, ?_⟩
          · rw [← parts]
            exact split.symm
          · rcases signed with rfl | rfl
            · exact Or.inr (Or.inl rfl)
            · exact Or.inr (Or.inr rfl)
          · rw [← Option.some.inj read]
            simp
      · rw [if_neg signed, if_neg fun minus => signed (Or.inl minus)] at read
        obtain ⟨parts, digits, stops⟩ := digits_split (b :: rest)
        split at read
        · exact absurd read (by simp)
        · rename_i some_digit
          refine ⟨_, [], _, _, ?_, blank, Or.inl rfl, ⟨some_digit, digits⟩, stops, ?_⟩
          · rw [← parts]
            exact split.symm
          · exact (Option.some.inj read).symm
  · rintro ⟨blanks, sign, ds, tail, rfl, blank, signs, ⟨some_digit, digits⟩, stops, rfl⟩
    rcases signs with rfl | rfl | rfl
    · exact strtol_numeral blank digits some_digit stops
    · unfold strtol
      rw [List.singleton_append, dropWhile_blanks blank (by decide)]
      simp only [true_or, if_true]
      rw [takeWhile_digits digits stops, if_neg some_digit]
    · unfold strtol
      rw [List.singleton_append, dropWhile_blanks blank (by decide)]
      simp only [or_true, if_true]
      rw [takeWhile_digits digits stops, if_neg some_digit]
      rfl

end Octets
