import AIEngine.Http.LineWise

/-!
# The lines of any text

What `parse_header` hands on of a text that need not be a block: the text is cut into lines first,
and then the lines are read one after the other.
-/

namespace AIEngine.HTTPHeader

/-- The lines of a text. Behind the end of a line stand two octets or more, or it is none. -/
def textLines : Bytes → List Bytes
  | b₀ :: b₁ :: b₂ :: b₃ :: rest =>
    if b₀ = 0x0d ∧ b₁ = 0x0a then [] :: textLines (b₂ :: b₃ :: rest)
    else
      match textLines (b₁ :: b₂ :: b₃ :: rest) with
      | [] => []
      | l :: ls => (b₀ :: l) :: ls
  | _ => []

/-- Up to the empty line. -/
def beforeEmpty (ss : List Stretch) : List Stretch := ss.takeWhile fun s => !s.text.isEmpty

/-- At the very start, or swallowed by the line before it, an empty line does not end the header. -/
def heeded : List Stretch → List Stretch
  | [] => []
  | s :: rest => s :: beforeEmpty rest

/-- Behind the last line end the scan stops three octets before the end of the text, or two if the
first colon there makes it step over the third. -/
def tailEnd (text : Bytes) : Nat :=
  text.length - if (splitColon text).any (fun parts => parts.2.length = 3) then 2 else 3

/-- Where the header ends: behind the empty line, if the lines come to one. A line that ends in its
first colon takes the rest of the text with it. -/
def endOf : List Stretch → Bytes → Nat
  | [], text => tailEnd text
  | s :: rest, text =>
    if bare s.text then text.length - 3
    else if crlf <+: text.drop (s.text.length + 2) then s.text.length + 4
    else s.text.length + 2 + endOf rest (text.drop (s.text.length + 2))

theorem beforeEmpty_cons {s : Stretch} (filled : s.text ≠ []) (rest : List Stretch) :
    beforeEmpty (s :: rest) = s :: beforeEmpty rest :=
  List.takeWhile_cons_of_pos (by simp [filled])

/-! ### Texts and their lines -/

theorem textLines_short {text : Bytes} (short : text.length < 4) : textLines text = [] := by
  rcases text with _ | ⟨b₀, _ | ⟨b₁, _ | ⟨b₂, _ | ⟨b₃, rest⟩⟩⟩⟩
  · rfl
  · rfl
  · rfl
  · rfl
  · simp only [List.length_cons] at short
    omega

theorem textLines_crlf {more : Bytes} (long : 2 ≤ more.length) :
    textLines (crlf ++ more) = [] :: textLines more := by
  rcases more with _ | ⟨b₂, _ | ⟨b₃, rest⟩⟩
  · simp at long
  · simp at long
  · show textLines (0x0d :: 0x0a :: b₂ :: b₃ :: rest) = _
    rw [textLines, if_pos ⟨rfl, rfl⟩]

/-- Without an octet in front, the text has no more lines. -/
theorem textLines_tail {b : BitVec 8} {text : Bytes} (none : textLines (b :: text) = []) :
    textLines text = [] := by
  rcases text with _ | ⟨b₁, _ | ⟨b₂, _ | ⟨b₃, rest⟩⟩⟩
  · rfl
  · rfl
  · rfl
  · rw [textLines] at none
    by_cases lineEnd : b = 0x0d ∧ b₁ = 0x0a
    · rw [if_pos lineEnd] at none
      exact absurd none (by simp)
    · rw [if_neg lineEnd] at none
      cases lines : textLines (b₁ :: b₂ :: b₃ :: rest) with
      | nil => rfl
      | cons l ls =>
        rw [lines] at none
        exact absurd none (by simp)

theorem textLines_inLine {b : BitVec 8} {text : Bytes} (none : textLines text = [])
    (inLine : ¬(b = 0x0d ∧ text.head? = some 0x0a)) : textLines (b :: text) = [] := by
  rcases text with _ | ⟨b₁, _ | ⟨b₂, _ | ⟨b₃, rest⟩⟩⟩
  · rfl
  · rfl
  · rfl
  · have inLine : ¬(b = 0x0d ∧ b₁ = 0x0a) := by simpa using inLine
    rw [textLines, if_neg inLine, none]

theorem unbroken_cons {b : BitVec 8} {l : Bytes} (unbroken : Unbroken l)
    (inLine : ¬(b = 0x0d ∧ l.head? = some 0x0a)) : Unbroken (b :: l) := by
  rintro ⟨front, back, same⟩
  cases front with
  | nil =>
    obtain ⟨rfl, rest⟩ := List.cons.inj same
    refine inLine ⟨rfl, ?_⟩
    rw [← rest]
    rfl
  | cons _ front => exact unbroken ⟨front, back, (List.cons.inj same).2⟩

/-- The first line, its end, and the text behind it. -/
theorem textLines_cons {text l : Bytes} {ls : List Bytes} (found : textLines text = l :: ls) :
    ∃ more, text = l ++ (crlf ++ more) ∧ Unbroken l ∧ 2 ≤ more.length ∧ textLines more = ls := by
  induction text using textLines.induct generalizing l ls with
  | case1 b₀ b₁ b₂ b₃ rest lineEnd ih =>
    rw [textLines, if_pos lineEnd] at found
    obtain ⟨rfl, rfl⟩ := List.cons.inj found
    obtain ⟨rfl, rfl⟩ := lineEnd
    exact ⟨b₂ :: b₃ :: rest, rfl, unbroken_of_notMem (by simp), by simp, rfl⟩
  | case2 b₀ b₁ b₂ b₃ rest inLine none ih =>
    rw [textLines, if_neg inLine, none] at found
    exact absurd found (by simp)
  | case3 b₀ b₁ b₂ b₃ rest inLine l' ls' first ih =>
    rw [textLines, if_neg inLine, first] at found
    obtain ⟨rfl, rfl⟩ := List.cons.inj found
    obtain ⟨more, same, unbroken, long, behind⟩ := ih first
    refine ⟨more, by rw [same]; rfl, unbroken_cons unbroken ?_, long, behind⟩
    rintro ⟨rfl, lineFeed⟩
    cases l' with
    | nil => exact absurd lineFeed (by simp)
    | cons b l' =>
      obtain rfl := (List.cons.inj same).1
      exact inLine ⟨rfl, by simpa using lineFeed⟩
  | case4 text short =>
    rw [textLines] at found
    · exact absurd found (by simp)
    · exact short

/-! ### What the scan finds in a text -/

section Scan

variable {header text more : Bytes} {c : Cursor} {place : Place} {u : Bytes}

theorem length_few
    (short : ∀ b₀ b₁ b₂ b₃ rest, text = b₀ :: b₁ :: b₂ :: b₃ :: rest → False) : text.length < 4 := by
  rcases text with _ | ⟨b₀, _ | ⟨b₁, _ | ⟨b₂, _ | ⟨b₃, rest⟩⟩⟩⟩
  · simp
  · simp
  · simp
  · simp
  · exact absurd rfl (short b₀ b₁ b₂ b₃ rest)

theorem tailEnd_few (few : text.length < 4) : tailEnd text = 0 := by
  have none : (splitColon text).any (fun parts => parts.2.length = 3) = false := by
    cases split : splitColon text with
    | none => rfl
    | some parts =>
      have total := congrArg List.length (splitColon_some split).1
      rw [List.length_append, List.length_cons] at total
      exact decide_eq_false (by omega)
  rw [tailEnd, none, if_neg (by simp)]
  omega

theorem tailEnd_cons {b : BitVec 8} (other : b ≠ 0x3a) (long : 3 ≤ text.length) :
    tailEnd (b :: text) = tailEnd text + 1 := by
  have same : (splitColon (b :: text)).any (fun parts => parts.2.length = 3) =
      (splitColon text).any fun parts => parts.2.length = 3 := by
    rw [splitColon, if_neg other]
    cases splitColon text <;> rfl
  rw [tailEnd, tailEnd, same, List.length_cons]
  split <;> omega

/-- Behind a colon nothing stops the scan but the end of the text. -/
theorem size_token (c : Cursor) (token : c.haveToken = true) (none : textLines text = []) :
    size header c text = c.i + (text.length - 3) := by
  induction c, text using size.induct with
  | header => exact header
  | case1 c b₀ b₁ b₂ b₃ rest lineEnd blank =>
    rw [textLines, if_pos lineEnd] at none
    exact absurd none (by simp)
  | case2 c b₀ b₁ b₂ b₃ rest lineEnd more ih =>
    rw [textLines, if_pos lineEnd] at none
    exact absurd none (by simp)
  | case3 c b₀ b₁ b₂ b₃ rest inLine colon ih =>
    exact absurd (token.symm.trans colon.2) (by simp)
  | case4 c b₀ b₁ b₂ b₃ rest inLine plain ih =>
    rw [size, if_neg inLine, if_neg plain, ih token (textLines_tail none)]
    simp only [Cursor.next, List.length_cons]
    omega
  | case5 text c short =>
    have few := length_few short
    rw [size]
    · omega
    · exact short

/-- Without the end of a line nothing is found, and the scan goes to the end of the text. -/
theorem scan_none (header : Bytes) (c : Cursor) (none : textLines text = []) :
    lines header c text = [] ∧
      (c.haveToken = false → size header c text = c.i + tailEnd text) := by
  induction c, text using lines.induct with
  | header => exact header
  | case1 c b₀ b₁ b₂ b₃ rest lineEnd ih =>
    rw [textLines, if_pos lineEnd] at none
    exact absurd none (by simp)
  | case2 c b₀ b₁ b₂ b₃ rest inLine colon ih =>
    have behind := textLines_tail (textLines_tail none)
    obtain ⟨rfl, first⟩ := colon
    rw [lines, if_neg inLine, if_pos ⟨rfl, first⟩, size, if_neg inLine, if_pos ⟨rfl, first⟩]
    refine ⟨(ih behind).1, fun _ => ?_⟩
    rw [size_token _ rfl behind, tailEnd, splitColon, if_pos rfl]
    simp only [Cursor.colon, List.length_cons, Option.any_some, decide_eq_true_eq]
    split <;> omega
  | case3 c b₀ b₁ b₂ b₃ rest inLine plain ih =>
    obtain ⟨found, ending⟩ := ih (textLines_tail none)
    rw [lines, if_neg inLine, if_neg plain, size, if_neg inLine, if_neg plain]
    refine ⟨found, fun first => ?_⟩
    have other : ¬b₀ = 0x3a := fun colon => plain ⟨colon, first⟩
    rw [ending first, tailEnd_cons other (by simp)]
    simp only [Cursor.next]
    omega
  | case4 text c short =>
    have few := length_few short
    rw [lines, size]
    · exact ⟨rfl, fun _ => by rw [tailEnd_few few, Nat.add_zero]⟩
    · exact short
    · exact short

/-- An empty line behind a line ends the header. -/
theorem beforeEmpty_crlf (empty : crlf <+: more) :
    beforeEmpty (stretches (textLines more)) = [] := by
  obtain ⟨rest, rfl⟩ := empty
  by_cases long : 2 ≤ rest.length
  · rw [textLines_crlf long]
    cases textLines rest with
    | nil => rfl
    | cons l ls =>
      rw [stretches, if_neg (by decide)]
      rfl
  · rw [textLines_short (by rw [List.length_append, length_crlf]; omega)]
    rfl

/-- What the scan makes of a text from the start of a line on. -/
structure Scanned (header : Bytes) (place : Place) (c : Cursor) (text : Bytes) : Prop where
  lines : HTTPHeader.lines header c text =
    seenLines c.i place (beforeEmpty (stretches (textLines text)))
  size : HTTPHeader.size header c text = c.i + endOf (stretches (textLines text)) text

/-- At the end of a line the header ends too, or the scan goes on with the next one. -/
theorem lineEnd_scan (c : Cursor) (long : 2 ≤ more.length)
    (next : ¬crlf <+: more → Scanned header place c.nextLine more) :
    lines header c (crlf ++ more) = (c.line header).toList ++
        seenLines (c.i + 2) place (beforeEmpty (stretches (textLines more))) ∧
      size header c (crlf ++ more) =
        c.i + if crlf <+: more then 4 else 2 + endOf (stretches (textLines more)) more := by
  by_cases empty : crlf <+: more
  · rw [beforeEmpty_crlf empty, if_pos empty]
    obtain ⟨rest, rfl⟩ := empty
    obtain ⟨found, ending⟩ := scan_end header c rest
    exact ⟨found.trans (List.append_nil _).symm, ending⟩
  · have step := advances_lineEnd header c long empty
    have later := next empty
    rw [step.lines, step.size, later.lines, later.size, nextLine_i, if_neg empty, Nat.add_assoc]
    exact ⟨rfl, rfl⟩

theorem endOf_cons {s : Stretch} {rest : List Stretch} (whole : bare s.text = false)
    (split : text = s.text ++ (crlf ++ more)) :
    endOf (s :: rest) text =
      s.text.length + if crlf <+: more then 4 else 2 + endOf rest more := by
  have behind : text.drop (s.text.length + 2) = more := by
    rw [split, ← List.append_assoc, ← crlf_length, List.drop_left]
  rw [endOf, whole, if_neg (by simp), behind]
  split
  · rfl
  · rw [Nat.add_assoc]

/-- A stretch that does not end in its first colon, if what stands behind it is scanned line by line. -/
theorem stretch_scanned {s : Stretch} {rest : List Stretch} (start : Start header place c)
    (within : header.drop c.i = text) (bound : c.i ≤ header.length)
    (first : stretches (textLines text) = s :: rest) (behind : stretches (textLines more) = rest)
    (arranged : text = s.text ++ (crlf ++ more)) (some : s.text ≠ []) (scans : Scans s.text)
    (whole : bare s.text = false) (long : 2 ≤ more.length)
    (later : ∀ {c' place'}, Start header place' c' → header.drop c'.i = more → c'.i ≤ header.length →
      ¬crlf <+: more → Scanned header place' c' more) : Scanned header place c text := by
  obtain ⟨c', scan, here, line, next⟩ := stretch_scan start (within.trans arranged) bound scans whole long
  have after : c'.nextLine.i = c.i + (s.text ++ crlf).length := by
    rw [nextLine_i, here, crlf_length]
    omega
  have within' : header.drop c'.nextLine.i = more := by
    rw [after]
    refine drop_add _ _ ?_
    rw [within, arranged, List.append_assoc]
  have bound' : c'.nextLine.i ≤ header.length := by
    have total := congrArg List.length (within.trans arranged)
    simp only [List.length_drop, List.length_append] at total
    rw [after, List.length_append]
    omega
  obtain ⟨found, ending⟩ := lineEnd_scan c' long (later next within' bound')
  rw [behind] at found ending
  constructor
  · rw [first, beforeEmpty_cons some, seenLines, arranged, scan.lines, List.nil_append, found, line, here]
  · rw [first, endOf_cons whole arranged, arranged, scan.size, ending, here, Nat.add_assoc]

/-- A line that ends in its first colon swallows what is no line any more: no end of it is found. -/
theorem bare_scanned {l : Bytes} (start : Start header place c) (within : header.drop c.i = text)
    (bound : c.i ≤ header.length) (found : textLines text = [l]) (arranged : text = l ++ (crlf ++ more))
    (some : l ≠ []) (scans : Scans l) (colon : bare l = true) (long : 2 ≤ more.length)
    (rest : textLines more = []) : Scanned header place c text := by
  obtain ⟨name, split⟩ := bare_iff.mp colon
  obtain ⟨octets, without⟩ := splitColon_some split
  have arranged' : text = name ++ 0x3a :: 0x0d :: 0x0a :: more := by
    rw [arranged, octets]
    simp [crlf]
  obtain ⟨c', scan, value⟩ := colon_scan (0x0a :: more) start (within.trans arranged') bound
    (scans.name name split) without (by rw [List.length_cons]; omega)
  have nothing : textLines (0x0a :: more) = [] := textLines_inLine rest fun no => absurd no.1 (by decide)
  have only : stretches (textLines text) = [{ line := l }] := by
    rw [found]
    rfl
  constructor
  · rw [only, beforeEmpty_cons (s := { line := l }) some, arranged', scan.lines, (scan_none _ c' nothing).1,
      seenLines]
    show [] = seen c.i place l ++ []
    unfold seen
    rw [split]
    rfl
  · have here := value.i
    rw [only, endOf, show bare (Stretch.text { line := l }) = true from colon, if_pos rfl, arranged', scan.size,
      size_token c' value.haveToken nothing]
    simp only [List.length_append, List.length_cons]
    omega

/-- The lines from the start of one of them on. -/
theorem rest_scan (start : Start header place c) (within : header.drop c.i = text)
    (bound : c.i ≤ header.length) (filled : ¬crlf <+: text) : Scanned header place c text := by
  -- By the length of the text: each step takes a stretch and its end away.
  induction size : text.length using Nat.strongRecOn generalizing c place text with
  | ind n ih =>
    have later {more front : Bytes} (arranged : text = front ++ (crlf ++ more)) {c' : Cursor} {place' : Place}
        (start : Start header place' c') (within : header.drop c'.i = more) (bound : c'.i ≤ header.length)
        (filled : ¬crlf <+: more) : Scanned header place' c' more := by
      refine ih more.length ?_ start within bound filled rfl
      rw [← size, arranged, List.length_append, List.length_append, length_crlf]
      omega
    cases found : textLines text with
    | nil =>
      obtain ⟨nothing, ending⟩ := scan_none header c found
      refine ⟨?_, ?_⟩
      · rw [nothing, found]
        rfl
      · rw [ending start.haveToken, found]
        rfl
    | cons l ls =>
      obtain ⟨more, arranged, unbroken, long, rest⟩ := textLines_cons found
      have some : l ≠ [] := by
        rintro rfl
        exact filled ⟨more, arranged.symm⟩
      by_cases colon : bare l = true
      · cases ls with
        | nil => exact bare_scanned start within bound found arranged some (scans_line unbroken some) colon long rest
        | cons next ls =>
          obtain ⟨more', behind, unbroken', long', rest'⟩ := textLines_cons rest
          obtain ⟨name, split⟩ := bare_iff.mp colon
          have merged : splitColon (l ++ crlf ++ next) = Option.some (name, 0x0d :: 0x0a :: next) := by
            rw [List.append_assoc]
            exact splitColon_append _ split
          have whole : bare (l ++ crlf ++ next) = false := by
            unfold bare
            rw [merged]
            rfl
          have arranged' : text = (l ++ crlf ++ next) ++ (crlf ++ more') := by
            rw [arranged, behind]
            simp
          have first : stretches (textLines text) = { line := l, swallowed := Option.some next } :: stretches ls := by
            rw [found, stretches, if_pos colon]
          exact stretch_scanned start within bound first (congrArg stretches rest') arranged'
            (by simp [Stretch.text, crlf]) (scans_swallowed unbroken some colon unbroken') whole long' (later arranged')
      · have first : stretches (textLines text) = { line := l } :: stretches ls := by
          rw [found]
          cases ls with
          | nil => rfl
          | cons next ls => rw [stretches, if_neg colon]
        exact stretch_scanned start within bound first (congrArg stretches rest) arranged some
          (scans_line unbroken some) (Bool.eq_false_iff.mpr colon) long (later arranged)

theorem stretches_filled {l : Bytes} (some : l ≠ []) (ls : List Bytes) :
    ∃ s rest, stretches (l :: ls) = s :: rest ∧ s.text ≠ [] := by
  cases ls with
  | nil => exact ⟨_, _, rfl, some⟩
  | cons next rest =>
    rw [stretches]
    split
    · exact ⟨_, _, rfl, by simp [Stretch.text, crlf]⟩
    · exact ⟨_, _, rfl, some⟩

end Scan

/-- The lines that the loop hands on, and where it ends: the lines are read one after the other. -/
theorem scan_text (header : Bytes) :
    lines header {} header = seenLines 0 .fresh (heeded (stretches (textLines header))) ∧
      size header {} header = endOf (stretches (textLines header)) header := by
  by_cases empty : crlf <+: header
  · obtain ⟨more, rfl⟩ := empty
    by_cases long : 2 ≤ more.length
    · have next : Start (crlf ++ more) .muted ({} : Cursor).nextLine :=
        ⟨rfl, rfl, Nat.zero_le _, nofun, fun _ => by simp [cut, crlf, Cursor.nextLine]⟩
      obtain ⟨found, ending⟩ := lineEnd_scan {} long fun filled =>
        rest_scan next rfl (by simp [Cursor.nextLine, crlf]) filled
      have first : stretches (textLines (crlf ++ more)) = { line := [] } :: stretches (textLines more) := by
        rw [textLines_crlf long]
        cases textLines more with
        | nil => rfl
        | cons l ls => rfl
      rw [found, ending, first]
      refine ⟨rfl, ?_⟩
      exact (endOf_cons (s := { line := [] }) rfl rfl).symm
    · have few : (crlf ++ more).length < 4 := by
        rw [List.length_append, length_crlf]
        omega
      obtain ⟨found, ending⟩ := scan_none (crlf ++ more) {} (textLines_short few)
      rw [found, ending rfl, textLines_short few]
      exact ⟨rfl, Nat.zero_add _⟩
  · have within : header.drop ({} : Cursor).i = header := rfl
    obtain ⟨found, ending⟩ := rest_scan (start_scan header) within (Nat.zero_le _) empty
    refine ⟨found.trans ?_, ending.trans (Nat.zero_add _)⟩
    cases lines : textLines header with
    | nil => rfl
    | cons l ls =>
      obtain ⟨more, arranged, -⟩ := textLines_cons lines
      have some : l ≠ [] := by
        rintro rfl
        exact empty ⟨more, arranged.symm⟩
      obtain ⟨s, rest, split, filled⟩ := stretches_filled some ls
      rw [split, beforeEmpty_cons filled]
      rfl

end AIEngine.HTTPHeader
