import AIEngine.Http.Lines

/-!
# Blocks of header lines

Lines that end in CR LF each, and an empty line behind them. The loop of `parse_header` carries the
start of a field, a colon that it has seen and the octet behind it from line to line; here is what it
makes of a whole block.
-/

namespace AIEngine.HTTPHeader

def crlf : Bytes := [0x0d, 0x0a]

/-- The lines with their ends. -/
def joined (ls : List Bytes) : Bytes := ls.flatMap fun l => l ++ crlf

def Unbroken (l : Bytes) : Prop := ¬crlf <:+: l

/-- Lines of a header, none of them empty. -/
structure HeaderBlock where
  lines : List Bytes
  unbroken : ∀ l ∈ lines, Unbroken l
  filled : ∀ l ∈ lines, l ≠ []

/-- The block as it stands in a packet. -/
def HeaderBlock.octets (b : HeaderBlock) : Bytes := joined b.lines ++ crlf

/-- What stands before the first colon and behind it. -/
def splitColon : Bytes → Option (Bytes × Bytes)
  | [] => none
  | b :: rest =>
    if b = 0x3a then some ([], rest)
    else (splitColon rest).map fun parts => (b :: parts.1, parts.2)

/-! ### What the scan makes of the lines -/

/-- Where the scan takes the field of a line to start: at the line, or somewhere before it. -/
inductive Place where
  | fresh | muted
  deriving DecidableEq, Repr

namespace Place

/-- A field that starts before its line has a line end in it, and is not registered. -/
def parameter : Place → Bytes → Option HttpParameter
  | .fresh, name => parameters name
  | .muted, _ => none

/-- Only a line with a field makes the next one start afresh. -/
def after (place : Place) (l : Bytes) : Place :=
  match splitColon l with
  | none => .muted
  | some (name, _) => if place = .fresh ∧ name = [] then .muted else .fresh

end Place

/-- A line, and the one behind it where the first colon is its last octet: the scan takes that for a
part of the value. -/
structure Stretch where
  line : Bytes
  swallowed : Option Bytes := none

def Stretch.text (s : Stretch) : Bytes :=
  match s.swallowed with
  | none => s.line
  | some next => s.line ++ crlf ++ next

def bare (l : Bytes) : Bool := (splitColon l).any fun parts => decide (parts.2 = [])

def stretches : List Bytes → List Stretch
  | [] => []
  | [l] => [{ line := l }]
  | l :: next :: rest =>
    if bare l then { line := l, swallowed := some next } :: stretches rest
    else { line := l } :: stretches (next :: rest)

/-- The line that a stretch from `i` on is taken for. The octet behind the colon is skipped,
whatever it is. -/
def seen (i : Nat) (place : Place) (text : Bytes) : List Line :=
  match splitColon text with
  | some (name, _ :: value) => ((place.parameter name).map fun p => (i + text.length, p, value)).toList
  | _ => []

def seenLines : Nat → Place → List Stretch → List Line
  | _, _, [] => []
  | i, place, s :: rest =>
    seen i place s.text ++ seenLines (i + s.text.length + 2) (place.after s.text) rest

/-- The last stretch has a line end of its own before the empty line. -/
def SeesEnd (ls : List Bytes) : Prop := ls ≠ [] ∧ ∀ s ∈ stretches ls, bare s.text = false

theorem splitColon_append {l name value : Bytes} (more : Bytes)
    (h : splitColon l = some (name, value)) : splitColon (l ++ more) = some (name, value ++ more) := by
  induction l generalizing name with
  | nil => exact absurd h (by simp [splitColon])
  | cons b rest ih =>
    rw [List.cons_append]
    unfold splitColon at h ⊢
    by_cases colon : b = 0x3a
    · rw [if_pos colon] at h ⊢
      obtain ⟨rfl, rfl⟩ := Prod.mk.inj (Option.some.inj h)
      rfl
    · rw [if_neg colon] at h ⊢
      obtain ⟨parts, found, same⟩ := Option.map_eq_some_iff.mp h
      obtain ⟨rfl, rfl⟩ := Prod.mk.inj same
      rw [ih found]
      rfl

theorem splitColon_some {l name value : Bytes} (h : splitColon l = some (name, value)) :
    l = name ++ 0x3a :: value ∧ 0x3a ∉ name := by
  induction l generalizing name with
  | nil => exact absurd h (by simp [splitColon])
  | cons b rest ih =>
    unfold splitColon at h
    by_cases colon : b = 0x3a
    · rw [if_pos colon] at h
      obtain ⟨rfl, rfl⟩ := Prod.mk.inj (Option.some.inj h)
      exact ⟨by rw [colon]; rfl, by simp⟩
    · rw [if_neg colon] at h
      obtain ⟨parts, found, same⟩ := Option.map_eq_some_iff.mp h
      obtain ⟨rfl, rfl⟩ := Prod.mk.inj same
      obtain ⟨split, without⟩ := ih found
      refine ⟨by rw [split]; rfl, fun inside => ?_⟩
      rcases List.mem_cons.mp inside with same | inside
      · exact colon same.symm
      · exact without inside

theorem splitColon_none {l : Bytes} : splitColon l = none ↔ 0x3a ∉ l := by
  induction l with
  | nil => simp [splitColon]
  | cons b rest ih =>
    unfold splitColon
    by_cases colon : b = 0x3a
    · rw [if_pos colon, colon]
      exact iff_of_false (by simp) fun no => no List.mem_cons_self
    · rw [if_neg colon, Option.map_eq_none_iff, ih, List.mem_cons, not_or]
      exact ⟨fun later => ⟨Ne.symm colon, later⟩, fun both => both.2⟩

theorem splitColon_colon {name value : Bytes} (without : 0x3a ∉ name) :
    splitColon (name ++ 0x3a :: value) = some (name, value) := by
  induction name with
  | nil => simp [splitColon]
  | cons b rest ih =>
    simp only [List.mem_cons, not_or] at without
    rw [List.cons_append, splitColon, if_neg (Ne.symm without.1), ih without.2]
    rfl

theorem joined_stretches (ls : List Bytes) :
    joined ls = (stretches ls).flatMap fun s => s.text ++ crlf := by
  induction ls using stretches.induct with
  | case1 => rfl
  | case2 l => simp [joined, stretches, Stretch.text]
  | case3 l next rest colon ih =>
    rw [stretches, if_pos colon, List.flatMap_cons, ← ih]
    simp [joined, Stretch.text]
  | case4 l next rest other ih =>
    rw [stretches, if_neg other, List.flatMap_cons, ← ih]
    simp [joined, Stretch.text]

/-! ### Steps of the scan -/

/-- From one place of the scan to another, with the registered lines between them. -/
structure Advances (header : Bytes) (c : Cursor) (text : Bytes) (found : List Line) (c' : Cursor)
    (text' : Bytes) : Prop where
  lines : HTTPHeader.lines header c text = found ++ HTTPHeader.lines header c' text'
  size : HTTPHeader.size header c text = HTTPHeader.size header c' text'

section Steps

variable {header text text' text'' : Bytes} {c c' c'' : Cursor} {found found' : List Line}

theorem advances_refl : Advances header c text [] c text := ⟨rfl, rfl⟩

theorem advances_trans (first : Advances header c text found c' text')
    (second : Advances header c' text' found' c'' text'') :
    Advances header c text (found ++ found') c'' text'' := by
  refine ⟨?_, first.size.trans second.size⟩
  rw [first.lines, second.lines, List.append_assoc]

theorem advances_next (header : Bytes) (c : Cursor) {b : BitVec 8} (long : 3 ≤ text.length)
    (inLine : ¬(b = 0x0d ∧ text.head? = some 0x0a)) (plain : ¬(b = 0x3a ∧ c.haveToken = false)) :
    Advances header c (b :: text) [] c.next text := by
  rcases text with _ | ⟨b₁, _ | ⟨b₂, _ | ⟨b₃, rest⟩⟩⟩
  · simp at long
  · simp at long
  · simp at long
  · have inLine : ¬(b = 0x0d ∧ b₁ = 0x0a) := by simpa using inLine
    constructor
    · rw [HTTPHeader.lines, if_neg inLine, if_neg plain]
      rfl
    · rw [HTTPHeader.size, if_neg inLine, if_neg plain]

theorem advances_colon (header : Bytes) (c : Cursor) {b : BitVec 8} (long : 2 ≤ text.length) (first : c.haveToken = false) :
    Advances header c (0x3a :: b :: text) [] (c.colon (cut header c.fieldIndex c.i)) text := by
  rcases text with _ | ⟨b₂, _ | ⟨b₃, rest⟩⟩
  · simp at long
  · simp at long
  · have inLine : ¬((0x3a : BitVec 8) = 0x0d ∧ b = 0x0a) := fun no => absurd no.1 (by decide)
    constructor
    · rw [HTTPHeader.lines, if_neg inLine, if_pos ⟨rfl, first⟩]
      rfl
    · rw [HTTPHeader.size, if_neg inLine, if_pos ⟨rfl, first⟩]

theorem advances_lineEnd (header : Bytes) (c : Cursor) (long : 2 ≤ text.length) (more : ¬crlf <+: text) :
    Advances header c (crlf ++ text) (c.line header).toList c.nextLine text := by
  rcases text with _ | ⟨b₂, _ | ⟨b₃, rest⟩⟩
  · simp at long
  · simp at long
  · have more : ¬(b₂ = 0x0d ∧ b₃ = 0x0a) := by
      rintro ⟨rfl, rfl⟩
      exact more ⟨rest, rfl⟩
    constructor
    · show HTTPHeader.lines header c (0x0d :: 0x0a :: b₂ :: b₃ :: rest) = _
      rw [HTTPHeader.lines, if_pos ⟨rfl, rfl⟩, if_neg more]
    · show HTTPHeader.size header c (0x0d :: 0x0a :: b₂ :: b₃ :: rest) = _
      rw [HTTPHeader.size, if_pos ⟨rfl, rfl⟩, if_neg more]

theorem scan_end (header : Bytes) (c : Cursor) (rest : Bytes) :
    HTTPHeader.lines header c (crlf ++ (crlf ++ rest)) = (c.line header).toList ∧
      HTTPHeader.size header c (crlf ++ (crlf ++ rest)) = c.i + 4 := by
  constructor
  · show HTTPHeader.lines header c (0x0d :: 0x0a :: 0x0d :: 0x0a :: rest) = _
    rw [HTTPHeader.lines, if_pos ⟨rfl, rfl⟩, if_pos ⟨rfl, rfl⟩, List.append_nil]
  · show HTTPHeader.size header c (0x0d :: 0x0a :: 0x0d :: 0x0a :: rest) = _
    rw [HTTPHeader.size, if_pos ⟨rfl, rfl⟩, if_pos ⟨rfl, rfl⟩]

/-- Octets without a line end, and without a colon that counts. -/
theorem advances_text (w : Bytes) (unbroken : ¬crlf <:+: w ++ text.take 1) (long : 3 ≤ text.length)
    (plain : c.haveToken = false → 0x3a ∉ w) :
    Advances header c (w ++ text) [] { c with i := c.i + w.length } text := by
  induction w generalizing c with
  | nil => exact advances_refl
  | cons b rest ih =>
    have step : Advances header c (b :: (rest ++ text)) [] c.next (rest ++ text) := by
      refine advances_next header c (by rw [List.length_append]; omega) ?_ ?_
      · rintro ⟨rfl, lineFeed⟩
        refine unbroken ⟨[], (rest ++ text.take 1).drop 1, ?_⟩
        cases rest with
        | nil =>
          cases text with
          | nil => simp at long
          | cons b₁ text =>
            obtain rfl : b₁ = 0x0a := by simpa using lineFeed
            rfl
        | cons b₁ rest =>
          obtain rfl : b₁ = 0x0a := by simpa using lineFeed
          rfl
      · rintro ⟨rfl, first⟩
        exact plain first List.mem_cons_self
    have shorter : ¬crlf <:+: rest ++ text.take 1 := fun inside =>
      unbroken (inside.trans (List.suffix_cons b _).isInfix)
    have later := ih (c := c.next) shorter fun first inside =>
      plain first (List.mem_cons_of_mem _ inside)
    have stop : { c.next with i := c.next.i + rest.length } =
        { c with i := c.i + (b :: rest).length } := by
      simp only [Cursor.next, List.length_cons, Cursor.mk.injEq, and_true]
      omega
    rw [stop] at later
    exact advances_trans step later

end Steps

/-! ### Lines without a line end in them -/

theorem unbroken_concat {w : Bytes} {b : BitVec 8} (unbroken : Unbroken w) (other : b ≠ 0x0a) :
    ¬crlf <:+: w ++ [b] := by
  rintro ⟨front, back, same⟩
  rcases List.eq_nil_or_concat back with rfl | ⟨back, last, rfl⟩
  · have ends := congrArg List.getLast? same
    simp [crlf] at ends
    exact other ends.symm
  · rw [List.concat_eq_append, ← List.append_assoc] at same
    obtain ⟨same, -⟩ := List.append_inj' same rfl
    exact unbroken ⟨front, back, same⟩

theorem unbroken_lineFeed {w : Bytes} (unbroken : Unbroken w) : Unbroken (0x0a :: w) := by
  rintro ⟨front, back, same⟩
  cases front with
  | nil => exact absurd (List.cons.inj same).1 (by decide)
  | cons b front => exact unbroken ⟨front, back, (List.cons.inj same).2⟩

theorem unbroken_of_notMem {l : Bytes} (without : 0x0d ∉ l) : Unbroken l := by
  rintro ⟨front, back, rfl⟩
  exact without (by simp [crlf])

theorem unbroken_within {w l : Bytes} (inside : w <:+: l) (unbroken : Unbroken l) : Unbroken w :=
  fun crosses => unbroken (crosses.trans inside)

/-- What the scan passes without coming to a line end. -/
structure Scans (u : Bytes) : Prop where
  whole : splitColon u = none → Unbroken u
  parts : ∀ name b value, splitColon u = some (name, b :: value) → Unbroken name ∧ Unbroken value
  name : ∀ name, splitColon u = some (name, []) → Unbroken name
  filled : ¬crlf <+: u ++ crlf

theorem line_filled {l : Bytes} (more : Bytes) (unbroken : Unbroken l) (filled : l ≠ []) :
    ¬crlf <+: l ++ crlf ++ more := by
  rcases l with _ | ⟨b, _ | ⟨b', l⟩⟩
  · exact absurd rfl filled
  · rintro ⟨rest, same⟩
    exact absurd (List.cons.inj (List.cons.inj same).2).1 (by decide)
  · rintro ⟨rest, same⟩
    obtain ⟨first, same⟩ := List.cons.inj same
    obtain ⟨second, -⟩ := List.cons.inj same
    exact unbroken ⟨[], l, by rw [← first, ← second]; rfl⟩

theorem scans_line {l : Bytes} (unbroken : Unbroken l) (filled : l ≠ []) : Scans l := by
  refine ⟨fun _ => unbroken, fun name b value split => ?_, fun name split => ?_, ?_⟩
  · obtain ⟨same, -⟩ := splitColon_some split
    refine ⟨unbroken_within ?_ unbroken, unbroken_within ?_ unbroken⟩
    · rw [same]
      exact List.infix_append' [] name _
    · rw [same]
      exact ⟨name ++ [0x3a, b], [], by simp⟩
  · obtain ⟨same, -⟩ := splitColon_some split
    refine unbroken_within ?_ unbroken
    rw [same]
    exact List.infix_append' [] name _
  · simpa using line_filled [] unbroken filled

theorem bare_iff {l : Bytes} : bare l = true ↔ ∃ name, splitColon l = some (name, []) := by
  unfold bare
  cases splitColon l with
  | none => simp
  | some parts =>
    obtain ⟨name, value⟩ := parts
    simp

theorem scans_swallowed {l next : Bytes} (unbroken : Unbroken l) (filled : l ≠ [])
    (colon : bare l = true) (unbroken' : Unbroken next) : Scans (l ++ crlf ++ next) := by
  obtain ⟨name, split⟩ := bare_iff.mp colon
  have whole : splitColon (l ++ crlf ++ next) = some (name, 0x0d :: 0x0a :: next) := by
    rw [List.append_assoc]
    exact splitColon_append _ split
  refine ⟨fun no => ?_, fun name' b value split' => ?_, fun name' split' => ?_, ?_⟩
  · exact absurd (whole.symm.trans no) (by simp)
  · obtain ⟨rfl, same⟩ := Prod.mk.inj (Option.some.inj (whole.symm.trans split'))
    obtain ⟨rfl, rfl⟩ := List.cons.inj same
    exact ⟨(scans_line unbroken filled).name name split, unbroken_lineFeed unbroken'⟩
  · exact absurd (whole.symm.trans split') (by simp)
  · rw [List.append_assoc]
    exact line_filled _ unbroken filled

theorem scans_stretches {ls : List Bytes} (unbroken : ∀ l ∈ ls, Unbroken l)
    (filled : ∀ l ∈ ls, l ≠ []) : ∀ s ∈ stretches ls, Scans s.text := by
  induction ls using stretches.induct with
  | case1 => exact fun s member => absurd member (by simp [stretches])
  | case2 l =>
    intro s member
    obtain rfl := List.mem_singleton.mp member
    exact scans_line (unbroken l List.mem_cons_self) (filled l List.mem_cons_self)
  | case3 l next rest colon ih =>
    intro s member
    rw [stretches, if_pos colon] at member
    rcases List.mem_cons.mp member with rfl | later
    · exact scans_swallowed (unbroken l List.mem_cons_self) (filled l List.mem_cons_self) colon
        (unbroken next (by simp))
    · exact ih (fun m inside => unbroken m (by simp [inside]))
        (fun m inside => filled m (by simp [inside])) s later
  | case4 l next rest other ih =>
    intro s member
    rw [stretches, if_neg other] at member
    rcases List.mem_cons.mp member with rfl | later
    · exact scans_line (unbroken l List.mem_cons_self) (filled l List.mem_cons_self)
    · exact ih (fun m inside => unbroken m (List.mem_cons_of_mem _ inside))
        (fun m inside => filled m (List.mem_cons_of_mem _ inside)) s later

/-- Only the last stretch may end in its first colon. -/
theorem bare_last (ls : List Bytes) : ∀ s ∈ (stretches ls).dropLast, bare s.text = false := by
  induction ls using stretches.induct with
  | case1 => exact fun s member => absurd member (by simp [stretches])
  | case2 l => exact fun s member => absurd member (by simp [stretches])
  | case3 l next rest colon ih =>
    intro s member
    rw [stretches, if_pos colon] at member
    obtain ⟨name, split⟩ := bare_iff.mp colon
    have merged : bare (l ++ crlf ++ next) = false := by
      rw [List.append_assoc]
      unfold bare
      rw [splitColon_append _ split]
      simp [crlf]
    cases later : stretches rest with
    | nil =>
      rw [later] at member
      exact absurd member (by simp)
    | cons t ts =>
      rw [later, List.dropLast_cons_of_ne_nil (by simp)] at member
      rcases List.mem_cons.mp member with rfl | below
      · exact merged
      · exact ih s (by rw [later]; exact below)
  | case4 l next rest other ih =>
    intro s member
    rw [stretches, if_neg other] at member
    cases later : stretches (next :: rest) with
    | nil =>
      rw [later] at member
      exact absurd member (by simp)
    | cons t ts =>
      rw [later, List.dropLast_cons_of_ne_nil (by simp)] at member
      rcases List.mem_cons.mp member with rfl | below
      · exact Bool.eq_false_iff.mpr other
      · exact ih s (by rw [later]; exact below)

/-! ### A line after the other -/

/-- The scan at the start of a line. -/
structure Start (header : Bytes) (place : Place) (c : Cursor) : Prop where
  haveToken : c.haveToken = false
  headerField : c.headerField = []
  ordered : c.fieldIndex ≤ c.i
  fresh : place = .fresh → c.fieldIndex = c.i
  muted : place = .muted → 0x0a ∈ cut header c.fieldIndex c.i

section Scan

variable {header text tail u : Bytes} {c : Cursor} {place : Place}

theorem cut_extend {start stop : Nat} {w more : Bytes} (ordered : start ≤ stop)
    (within : header.drop stop = w ++ more) (bound : stop ≤ header.length) :
    cut header start (stop + w.length) = cut header start stop ++ w := by
  unfold cut
  have parts : header.drop start = (header.drop start).take (stop - start) ++ (w ++ more) := by
    rw [← within]
    have behind : (header.drop start).drop (stop - start) = header.drop stop := by
      rw [List.drop_drop, Nat.add_sub_cancel' ordered]
    rw [← behind, List.take_append_drop]
  have size : ((header.drop start).take (stop - start)).length = stop - start := by
    rw [List.length_take, List.length_drop]
    omega
  conv_lhs => rw [parts]
  rw [show stop + w.length - start = (stop - start) + w.length by omega,
    List.take_append, size, List.take_of_length_le (by omega), Nat.add_sub_cancel_left,
    List.take_left]

theorem drop_add (w more : Bytes) {i : Nat} (within : header.drop i = w ++ more) :
    header.drop (i + w.length) = more := by
  rw [← List.drop_drop, within, List.drop_left]

theorem parameters_lineFeed {name : Bytes} (inside : 0x0a ∈ name) : parameters name = none := by
  unfold parameters
  have none : ∀ field, 0x0a ∉ field → name ≠ field := by
    rintro field without rfl
    exact without inside
  rw [if_neg (none _ (by decide)), if_neg (none _ (by decide)), if_neg (none _ (by decide))]

theorem line_at (c : Cursor) : ∀ l ∈ (c.line header).toList, l.1 = c.i := by
  intro l member
  unfold Cursor.line at member
  by_cases empty : c.headerField = []
  · rw [if_pos empty] at member
    exact absurd member (by simp)
  · rw [if_neg empty, Option.mem_toList, Option.map_eq_some_iff] at member
    obtain ⟨p, -, rfl⟩ := member
    rfl

theorem lines_le (c : Cursor) (text : Bytes) :
    ∀ l ∈ lines header c text, l.1 ≤ c.i + text.length := by
  induction c, text using lines.induct with
  | header => exact header
  | case1 c b₀ b₁ b₂ b₃ rest lineEnd ih =>
    intro l member
    rw [lines, if_pos lineEnd] at member
    simp only [List.length_cons]
    rcases List.mem_append.mp member with here | later
    · have place := line_at c l here
      omega
    · by_cases blank : b₂ = 0x0d ∧ b₃ = 0x0a
      · rw [if_pos blank] at later
        exact absurd later (by simp)
      · rw [if_neg blank] at later
        have before := ih l later
        rw [nextLine_i] at before
        simp only [List.length_cons] at before
        omega
  | case2 c b₀ b₁ b₂ b₃ rest inLine colon ih =>
    intro l member
    rw [lines, if_neg inLine, if_pos colon] at member
    have before : l.1 ≤ c.i + 2 + (b₂ :: b₃ :: rest).length := ih l member
    simp only [List.length_cons] at before ⊢
    omega
  | case3 c b₀ b₁ b₂ b₃ rest inLine plain ih =>
    intro l member
    rw [lines, if_neg inLine, if_neg plain] at member
    have before : l.1 ≤ c.i + 1 + (b₁ :: b₂ :: b₃ :: rest).length := ih l member
    simp only [List.length_cons] at before ⊢
    omega
  | case4 rest c short =>
    intro l member
    rw [lines] at member
    · exact absurd member (by simp)
    · exact short

theorem size_le (c : Cursor) (text : Bytes) : size header c text ≤ c.i + text.length := by
  induction c, text using size.induct with
  | header => exact header
  | case1 c b₀ b₁ b₂ b₃ rest lineEnd blank =>
    rw [size, if_pos lineEnd, if_pos blank]
    simp only [List.length_cons]
    omega
  | case2 c b₀ b₁ b₂ b₃ rest lineEnd more ih =>
    rw [size, if_pos lineEnd, if_neg more]
    rw [nextLine_i] at ih
    simp only [List.length_cons] at ih ⊢
    omega
  | case3 c b₀ b₁ b₂ b₃ rest inLine colon ih =>
    rw [size, if_neg inLine, if_pos colon]
    have before : _ ≤ c.i + 2 + (b₂ :: b₃ :: rest).length := ih
    simp only [List.length_cons] at before ⊢
    omega
  | case4 c b₀ b₁ b₂ b₃ rest inLine plain ih =>
    rw [size, if_neg inLine, if_neg plain]
    have before : _ ≤ c.i + 1 + (b₁ :: b₂ :: b₃ :: rest).length := ih
    simp only [List.length_cons] at before ⊢
    omega
  | case5 rest c short =>
    rw [size]
    · exact Nat.le_add_right _ _
    · exact short

/-- The scan behind the first colon of a line, and behind the octet that it skips. -/
structure InValue (header : Bytes) (place : Place) (name : Bytes) (start : Nat) (c : Cursor) :
    Prop where
  i : c.i = start + name.length + 2
  fieldIndex : c.fieldIndex = start + name.length + 1
  parameterIndex : c.parameterIndex = c.i
  haveToken : c.haveToken = true
  fresh : place = .fresh → c.headerField = name
  muted : place = .muted → 0x0a ∈ c.headerField

theorem inValue_line {name : Bytes} {start : Nat} (value : InValue header place name start c)
    (stop : Nat) : ({ c with i := stop } : Cursor).line header =
      (place.parameter name).map fun p => (stop, p, cut header c.i stop) := by
  unfold Cursor.line
  cases place with
  | fresh =>
    rw [value.fresh rfl, value.parameterIndex]
    by_cases empty : name = []
    · rw [if_pos empty, empty]
      rfl
    · rw [if_neg empty]
      rfl
  | muted =>
    have inside := value.muted rfl
    rw [if_neg (List.ne_nil_of_mem inside), parameters_lineFeed inside]
    rfl

theorem inValue_start {name octets : Bytes} {start : Nat} (stop : Nat)
    (value : InValue header place name start c) (split : ∃ rest, splitColon octets = some (name, rest))
    (behind : c.fieldIndex ≤ stop) (lineEnd : 0x0a ∈ cut header c.fieldIndex (stop + 2)) :
    Start header (place.after octets) ({ c with i := stop } : Cursor).nextLine := by
  obtain ⟨rest, split⟩ := split
  have named : place.after octets = if place = .fresh ∧ name = [] then .muted else .fresh := by
    unfold Place.after
    rw [split]
  by_cases empty : c.headerField = []
  · have next : ({ c with i := stop } : Cursor).nextLine =
        { c with haveToken := false, i := stop + 2 } := if_pos empty
    have muted : place.after octets = .muted := by
      cases place with
      | fresh => rw [named, if_pos ⟨rfl, (value.fresh rfl).symm.trans empty⟩]
      | muted => exact absurd empty (List.ne_nil_of_mem (value.muted rfl))
    rw [next, muted]
    exact ⟨rfl, empty, by show c.fieldIndex ≤ stop + 2; omega, nofun, fun _ => lineEnd⟩
  · have next : ({ c with i := stop } : Cursor).nextLine =
        { c with haveToken := false, i := stop + 2, headerField := [], fieldIndex := stop + 2 } :=
      if_neg empty
    have fresh : place.after octets = .fresh := by
      rw [named]
      refine if_neg fun both => empty ?_
      rw [value.fresh both.1, both.2]
    rw [next, fresh]
    exact ⟨rfl, rfl, Nat.le_refl _, fun _ => rfl, nofun⟩

/-- Up to the first colon of a line. -/
theorem colon_scan {name : Bytes} {b : BitVec 8} (tail : Bytes) (start : Start header place c)
    (within : header.drop c.i = name ++ 0x3a :: b :: tail) (bound : c.i ≤ header.length)
    (unbroken : Unbroken name) (without : 0x3a ∉ name) (long : 2 ≤ tail.length) :
    ∃ c', Advances header c (name ++ 0x3a :: b :: tail) [] c' tail ∧
      InValue header place name c.i c' := by
  have passed : Advances header c (name ++ 0x3a :: b :: tail) []
      { c with i := c.i + name.length } (0x3a :: b :: tail) :=
    advances_text name (unbroken_concat unbroken (by decide)) (by simp; omega) fun _ => without
  have colon := advances_colon header { c with i := c.i + name.length } (b := b) long
    start.haveToken
  refine ⟨_, advances_trans passed colon, rfl, rfl, rfl, rfl, fun isFresh => ?_, fun isMuted => ?_⟩
  · show cut header c.fieldIndex (c.i + name.length) = name
    rw [start.fresh isFresh, cut_extend (Nat.le_refl _) within bound]
    simp [cut]
  · show 0x0a ∈ cut header c.fieldIndex (c.i + name.length)
    rw [cut_extend start.ordered within bound]
    exact List.mem_append_left _ (start.muted isMuted)

theorem crlf_long (long : 2 ≤ tail.length) : 3 ≤ (crlf ++ tail).length := by
  rw [List.length_append]
  show 3 ≤ 2 + tail.length
  omega

theorem crlf_length (u : Bytes) : (u ++ crlf).length = u.length + 2 := by
  rw [List.length_append]
  rfl

/-- Up to the end of a stretch without a colon. -/
theorem plain_scan (start : Start header place c)
    (within : header.drop c.i = u ++ (crlf ++ tail)) (bound : c.i ≤ header.length)
    (scans : Scans u) (split : splitColon u = none) (long : 2 ≤ tail.length) :
    ∃ c', Advances header c (u ++ (crlf ++ tail)) [] c' (crlf ++ tail) ∧ c'.i = c.i + u.length ∧
      (c'.line header).toList = seen c.i place u ∧ Start header (place.after u) c'.nextLine := by
  have lineEnd : header.drop c.i = (u ++ crlf) ++ tail := by rw [within, List.append_assoc]
  have stop := crlf_length u
  have without := splitColon_none.mp split
  have passed : Advances header c (u ++ (crlf ++ tail)) [] { c with i := c.i + u.length }
      (crlf ++ tail) :=
    advances_text u (unbroken_concat (scans.whole split) (by decide)) (crlf_long long)
      fun _ => without
  have next : ({ c with i := c.i + u.length } : Cursor).nextLine =
      { c with haveToken := false, i := c.i + u.length + 2 } := if_pos start.headerField
  have muted : place.after u = .muted := by
    unfold Place.after
    rw [split]
  unfold seen
  rw [split]
  refine ⟨_, passed, rfl, ?_, ?_⟩
  · rw [Cursor.line, if_pos start.headerField]
    rfl
  · rw [next, muted]
    refine ⟨rfl, start.headerField, ?_, nofun, fun _ => ?_⟩
    · have ordered := start.ordered
      show c.fieldIndex ≤ c.i + u.length + 2
      omega
    · show 0x0a ∈ cut header c.fieldIndex (c.i + u.length + 2)
      rw [show c.i + u.length + 2 = c.i + (u ++ crlf).length by omega,
        cut_extend start.ordered lineEnd bound]
      simp [crlf]

/-- Up to the end of a stretch with a name and a value. -/
theorem value_scan {name value : Bytes} {b : BitVec 8} (start : Start header place c)
    (within : header.drop c.i = u ++ (crlf ++ tail)) (bound : c.i ≤ header.length)
    (scans : Scans u) (split : splitColon u = some (name, b :: value)) (long : 2 ≤ tail.length) :
    ∃ c', Advances header c (u ++ (crlf ++ tail)) [] c' (crlf ++ tail) ∧ c'.i = c.i + u.length ∧
      (c'.line header).toList = seen c.i place u ∧ Start header (place.after u) c'.nextLine := by
  obtain ⟨octets, without⟩ := splitColon_some split
  obtain ⟨unbroken, unbroken'⟩ := scans.parts name b value split
  have arranged : u ++ (crlf ++ tail) = name ++ 0x3a :: b :: (value ++ (crlf ++ tail)) := by
    rw [octets]
    simp
  have size : u.length = name.length + 2 + value.length := by
    rw [octets]
    simp
    omega
  have longer := crlf_long long
  obtain ⟨c', colon, inValue⟩ := colon_scan (value ++ (crlf ++ tail)) start
    (within.trans arranged) bound unbroken without (by rw [List.length_append]; omega)
  have passed : Advances header c' (value ++ (crlf ++ tail)) []
      { c' with i := c'.i + value.length } (crlf ++ tail) := by
    refine advances_text value (unbroken_concat unbroken' (by decide)) longer fun first => ?_
    exact absurd (inValue.haveToken.symm.trans first) (by simp)
  have here : c'.i = c.i + name.length + 2 := inValue.i
  have ends : c'.i + value.length = c.i + u.length := by omega
  have inside : header.drop c'.i = value ++ (crlf ++ tail) := by
    have skipped := drop_add (name ++ [0x3a, b]) (value ++ (crlf ++ tail))
      ((within.trans arranged).trans (by simp))
    rw [← skipped, here]
    simp
    rfl
  have within' : c'.i ≤ header.length := by
    have total := congrArg List.length within
    simp only [List.length_drop, List.length_append] at total
    omega
  unfold seen
  rw [split]
  refine ⟨_, arranged ▸ advances_trans colon passed, ends, ?_, ?_⟩
  · rw [inValue_line inValue, ends, ← ends, cut_extend (Nat.le_refl _) inside within']
    simp [cut]
  · refine inValue_start _ inValue ⟨_, split⟩ ?_ ?_
    · rw [inValue.fieldIndex]
      omega
    · have field : header.drop c'.fieldIndex = ([b] ++ value ++ crlf) ++ tail := by
        have skipped := drop_add (name ++ [0x3a]) (b :: (value ++ (crlf ++ tail)))
          ((within.trans arranged).trans (by simp))
        rw [inValue.fieldIndex, show c.i + name.length + 1 = c.i + (name ++ [0x3a]).length by
          simp; omega, skipped]
        simp
      have fieldBound : c'.fieldIndex ≤ header.length := by
        rw [inValue.fieldIndex]
        omega
      have count : c'.i + value.length + 2 =
          c'.fieldIndex + ([b] ++ value ++ crlf).length := by
        rw [inValue.fieldIndex]
        simp [crlf]
        omega
      rw [count, cut_extend (Nat.le_refl _) field fieldBound]
      simp [crlf]

/-- Up to the end of a stretch. -/
theorem stretch_scan (start : Start header place c)
    (within : header.drop c.i = u ++ (crlf ++ tail)) (bound : c.i ≤ header.length)
    (scans : Scans u) (whole : bare u = false) (long : 2 ≤ tail.length) :
    ∃ c', Advances header c (u ++ (crlf ++ tail)) [] c' (crlf ++ tail) ∧ c'.i = c.i + u.length ∧
      (c'.line header).toList = seen c.i place u ∧ Start header (place.after u) c'.nextLine := by
  cases split : splitColon u with
  | none => exact plain_scan start within bound scans split long
  | some parts =>
    obtain ⟨name, _ | ⟨b, value⟩⟩ := parts
    · have isBare : bare u = true := bare_iff.mpr ⟨name, split⟩
      exact absurd (whole.symm.trans isBare) (by simp)
    · exact value_scan start within bound scans split long

end Scan

end AIEngine.HTTPHeader
