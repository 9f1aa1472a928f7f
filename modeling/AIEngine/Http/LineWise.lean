import AIEngine.Http.HeaderBlocks

/-!
# One line at a time

`parse_header` over a whole block of lines: which lines it hands on, where it ends, and when each
line is read as if it stood alone.
-/

namespace AIEngine.HTTPHeader

/-- The stretches with their ends. -/
def flat (ss : List Stretch) : Bytes := ss.flatMap fun s => s.text ++ crlf

/-- How the line behind some stretches is read. -/
def placeAfter (place : Place) (ss : List Stretch) : Place :=
  ss.foldl (fun place s => place.after s.text) place

section Blocks

variable {header rest tail : Bytes} {c : Cursor} {place : Place} {ss ts : List Stretch} {s : Stretch}

theorem flat_cons : flat (s :: ss) = s.text ++ (crlf ++ flat ss) := by
  simp [flat]

theorem flat_append : flat (ss ++ ts) = flat ss ++ flat ts := List.flatMap_append

theorem length_crlf : crlf.length = 2 := rfl

theorem length_flat_cons : (flat (s :: ss)).length = s.text.length + 2 + (flat ss).length := by
  rw [flat_cons, List.length_append, List.length_append, length_crlf]
  omega

theorem seenLines_append (i : Nat) (place : Place) (ss ts : List Stretch) :
    seenLines i place (ss ++ ts) =
      seenLines i place ss ++ seenLines (i + (flat ss).length) (placeAfter place ss) ts := by
  induction ss generalizing i place with
  | nil => rfl
  | cons s ss ih =>
    rw [List.cons_append, seenLines, ih, seenLines, List.append_assoc, length_flat_cons]
    rw [show i + s.text.length + 2 + (flat ss).length = i + (s.text.length + 2 + (flat ss).length) by
      omega]
    rfl

theorem not_crlf_append {w more : Bytes} (filled : ¬crlf <+: w) (long : 2 ≤ w.length) :
    ¬crlf <+: w ++ more := fun inside =>
  filled (List.prefix_of_prefix_length_le inside (List.prefix_append w more) long)

theorem flat_filled (scans : ∀ s ∈ ss, Scans s.text) (filled : ¬crlf <+: tail)
    (long : 2 ≤ tail.length) : ¬crlf <+: flat ss ++ tail ∧ 2 ≤ (flat ss ++ tail).length := by
  cases ss with
  | nil => exact ⟨filled, long⟩
  | cons s ss =>
    have longer : 2 ≤ (s.text ++ crlf).length := by
      rw [List.length_append, length_crlf]
      omega
    have split : flat (s :: ss) ++ tail = s.text ++ crlf ++ (flat ss ++ tail) := by
      rw [flat_cons]
      simp
    rw [split]
    refine ⟨not_crlf_append (scans s List.mem_cons_self).filled longer, ?_⟩
    rw [List.length_append]
    omega

/-- Over stretches with a line end of their own, up to what follows them. -/
theorem run_scan (ss : List Stretch) (start : Start header place c) (within : header.drop c.i = flat ss ++ tail)
    (bound : c.i ≤ header.length) (scans : ∀ s ∈ ss, Scans s.text)
    (whole : ∀ s ∈ ss, bare s.text = false) (filled : ¬crlf <+: tail) (long : 2 ≤ tail.length) :
    ∃ c', Advances header c (flat ss ++ tail) (seenLines c.i place ss) c' tail ∧
      c'.i = c.i + (flat ss).length ∧ Start header (placeAfter place ss) c' := by
  induction ss generalizing c place with
  | nil => exact ⟨c, advances_refl, rfl, start⟩
  | cons s ss ih =>
    have split : flat (s :: ss) ++ tail = s.text ++ (crlf ++ (flat ss ++ tail)) := by
      rw [flat_cons]
      simp
    obtain ⟨filled', long'⟩ := flat_filled (fun t member => scans t (List.mem_cons_of_mem _ member))
      filled long
    obtain ⟨c₁, first, here, line, next⟩ := stretch_scan start (within.trans split) bound
      (scans s List.mem_cons_self) (whole s List.mem_cons_self) long'
    have lineEnd := advances_lineEnd header c₁ long' filled'
    have after : c₁.nextLine.i = c.i + (s.text ++ crlf).length := by
      rw [nextLine_i, here, List.length_append, length_crlf]
      omega
    have within' : header.drop c₁.nextLine.i = flat ss ++ tail := by
      rw [after]
      refine drop_add _ _ ?_
      rw [within, split]
      simp
    have bound' : c₁.nextLine.i ≤ header.length := by
      have total := congrArg List.length (within.trans split)
      simp only [List.length_drop, List.length_append] at total
      rw [after, List.length_append]
      omega
    obtain ⟨c', later, there, start'⟩ := ih next within' bound'
      (fun t member => scans t (List.mem_cons_of_mem _ member))
      (fun t member => whole t (List.mem_cons_of_mem _ member))
    have place' : c₁.nextLine.i = c.i + s.text.length + 2 := by
      rw [nextLine_i, here]
    refine ⟨c', ?_, ?_, start'⟩
    · rw [split]
      have both := advances_trans (advances_trans first lineEnd) later
      rw [List.nil_append, line, place'] at both
      exact both
    · rw [there, place', length_flat_cons]
      omega

/-- The whole block, and the empty line that ends it. -/
theorem block_scan (rest : Bytes) (start : Start header place c)
    (within : header.drop c.i = flat ss ++ (crlf ++ rest)) (bound : c.i ≤ header.length)
    (scans : ∀ s ∈ ss, Scans s.text) (whole : ∀ s ∈ ss, bare s.text = false) (some : ss ≠ []) :
    lines header c (flat ss ++ (crlf ++ rest)) = seenLines c.i place ss ∧
      size header c (flat ss ++ (crlf ++ rest)) = c.i + (flat ss).length + 2 := by
  obtain ⟨init, last, rfl⟩ := List.eq_nil_or_concat' ss |>.resolve_left some
  have split : flat (init ++ [last]) ++ (crlf ++ rest) =
      flat init ++ (last.text ++ (crlf ++ (crlf ++ rest))) := by
    rw [flat_append]
    simp [flat]
  have long : 2 ≤ (last.text ++ (crlf ++ (crlf ++ rest))).length := by
    simp only [List.length_append, length_crlf]
    omega
  have filled : ¬crlf <+: last.text ++ (crlf ++ (crlf ++ rest)) := by
    rw [← List.append_assoc]
    refine not_crlf_append (scans last (by simp)).filled ?_
    rw [List.length_append, length_crlf]
    omega
  obtain ⟨c₁, first, here, start₁⟩ := run_scan init start (within.trans split) bound
    (fun s member => scans s (List.mem_append_left _ member))
    (fun s member => whole s (List.mem_append_left _ member)) filled long
  have within₁ : header.drop c₁.i = last.text ++ (crlf ++ (crlf ++ rest)) := by
    rw [here]
    exact drop_add _ _ (within.trans split)
  have bound₁ : c₁.i ≤ header.length := by
    have total := congrArg List.length (within.trans split)
    simp only [List.length_drop, List.length_append] at total
    rw [here]
    omega
  obtain ⟨c₂, second, there, line, -⟩ := stretch_scan start₁ within₁ bound₁ (scans last (by simp))
    (whole last (by simp)) (by simp only [List.length_append, length_crlf]; omega)
  have both := advances_trans first second
  have lineEnd := scan_end header c₂ rest
  constructor
  · rw [split, both.lines, lineEnd.1, line, seenLines_append, here]
    simp [seenLines]
  · rw [split, both.size, lineEnd.2, there, here, flat_append]
    simp [flat, length_crlf]
    omega

/-- A last line that ends in its first colon hides one octet of the empty line. -/
theorem bare_scan {u name : Bytes} (start : Start header place c)
    (within : header.drop c.i = u ++ (crlf ++ (crlf ++ rest))) (bound : c.i ≤ header.length)
    (unbroken : Unbroken name) (split : splitColon u = some (name, [])) :
    ∃ c', Advances header c (u ++ (crlf ++ (crlf ++ rest))) [] c' (0x0a :: (crlf ++ rest)) ∧
      InValue header place name c.i c' ∧ c'.i = c.i + u.length + 1 := by
  obtain ⟨octets, without⟩ := splitColon_some split
  have arranged : u ++ (crlf ++ (crlf ++ rest)) = name ++ 0x3a :: 0x0d :: 0x0a :: (crlf ++ rest) := by
    rw [octets]
    simp [crlf]
  obtain ⟨c', scan, inValue⟩ := colon_scan (0x0a :: (crlf ++ rest)) start
    (within.trans arranged) bound unbroken without (by simp [crlf])
  refine ⟨c', arranged ▸ scan, inValue, ?_⟩
  rw [inValue.i, octets]
  simp
  omega

end Blocks

/-! ### Lines that stand alone -/

/-- What a line gives that has no other line before it. -/
def handed (l : Bytes) : Option (HttpParameter × Bytes) :=
  match splitColon l with
  | some (name, _ :: value) => (parameters name).map fun p => (p, value)
  | _ => none

theorem handed_shorter {l value : Bytes} {p : HttpParameter} (found : handed l = some (p, value)) :
    value.length < l.length := by
  unfold handed at found
  cases split : splitColon l with
  | none => simp [split] at found
  | some parts =>
    obtain ⟨name, _ | ⟨b, rest⟩⟩ := parts
    · simp [split] at found
    · rw [split] at found
      obtain ⟨q, -, same⟩ := Option.map_eq_some_iff.mp found
      obtain ⟨-, rfl⟩ := Prod.mk.inj same
      rw [(splitColon_some split).1]
      simp
      omega

/-- The lines from `i` on, each read as if it stood alone. -/
def wanted : Nat → List Bytes → List Line
  | _, [] => []
  | i, l :: ls =>
    ((handed l).map fun found => (i + l.length, found)).toList ++ wanted (i + l.length + 2) ls

/-- The handlers see each line as if it stood alone, whatever they do. -/
def ReadsLineWise (b : HeaderBlock) (rest : Bytes) : Prop :=
  ∃ size, ∀ (σ : Type) (call : σ → HttpParameter → Bytes → Except Failure (Bool × σ)) (s : σ),
    parseHeader call (b.octets ++ rest) s = outcome size (runLines call s (wanted 0 b.lines))

/-- The line that gives the value of a stretch, where all is well. -/
def Stretch.lastLine (s : Stretch) : Bytes := s.swallowed.getD s.line

/-- No handler misses a line of the stretch, or takes two for one. -/
def Stretch.Alone (place : Place) (s : Stretch) : Prop :=
  match s.swallowed with
  | none => place = .fresh ∨ handed s.line = none
  | some next =>
    handed next = none ∧ ∀ name, splitColon s.line = some (name, []) → place.parameter name = none

def LineWise : Place → List Stretch → Prop
  | _, [] => True
  | place, s :: rest => s.Alone place ∧ LineWise (place.after s.text) rest

/-! ### Handlers that tell the lines -/

/-- Handlers that ask for a ban at one call, and keep what they were called with. -/
def probe : Nat × Option (HttpParameter × Bytes) → HttpParameter → Bytes →
    Except Failure (Bool × Nat × Option (HttpParameter × Bytes))
  | (0, _), p, v => .ok (false, 0, some (p, v))
  | (n + 1, found), _, _ => .ok (true, n, found)

theorem runLines_probe (n : Nat) (found : List Line) :
    runLines probe (n, none) found =
      match found[n]? with
      | some (i, p, v) => .ok ((0, some (p, v)), some i)
      | none => .ok ((n - found.length, none), none) := by
  induction found generalizing n with
  | nil => rfl
  | cons l rest ih =>
    obtain ⟨i, p, v⟩ := l
    cases n with
    | zero => rfl
    | succ n =>
      have step : runLines probe (n + 1, none) ((i, p, v) :: rest) = runLines probe (n, none) rest := rfl
      rw [step, ih, List.getElem?_cons_succ, List.length_cons, Nat.add_sub_add_right]

theorem lines_of_probes (size size' : Nat) {found found' : List Line}
    (same : ∀ n, outcome size (runLines probe (n, none) found) =
      outcome size' (runLines probe (n, none) found')) : found = found' := by
  refine List.ext_getElem? fun n => ?_
  have here := same n
  rw [runLines_probe, runLines_probe] at here
  cases first : found[n]? with
  | none =>
    cases second : found'[n]? with
    | none => rfl
    | some l =>
      rw [first, second] at here
      simp [outcome] at here
  | some l =>
    cases second : found'[n]? with
    | none =>
      rw [first, second] at here
      simp [outcome] at here
    | some l' =>
      obtain ⟨i, p, v⟩ := l
      obtain ⟨i', p', v'⟩ := l'
      rw [first, second] at here
      simp only [outcome, Except.ok.injEq, Prod.mk.injEq, Option.some.injEq, true_and, and_true]
        at here
      obtain ⟨⟨rfl, rfl⟩, rfl⟩ := here
      rfl

theorem reads_iff_lines {b : HeaderBlock} {rest : Bytes} :
    ReadsLineWise b rest ↔
      lines (b.octets ++ rest) {} (b.octets ++ rest) = wanted 0 b.lines := by
  constructor
  · rintro ⟨stop, reads⟩
    refine lines_of_probes (size (b.octets ++ rest) {} (b.octets ++ rest)) stop fun n => ?_
    rw [← reads, parseHeader_eq]
  · intro same
    refine ⟨size (b.octets ++ rest) {} (b.octets ++ rest), fun σ call s => ?_⟩
    rw [parseHeader_eq, same]

/-! ### Stretches against lines -/

theorem stretch_bare {ls : List Bytes} : ∀ s ∈ stretches ls, ∀ next, s.swallowed = some next →
    bare s.line = true := by
  induction ls using stretches.induct with
  | case1 => exact fun s member => absurd member (by simp [stretches])
  | case2 l =>
    intro s member next swallows
    obtain rfl := List.mem_singleton.mp member
    exact absurd swallows (by simp)
  | case3 l next rest colon ih =>
    intro s member
    rw [stretches, if_pos colon] at member
    rcases List.mem_cons.mp member with rfl | later
    · exact fun _ _ => colon
    · exact ih s later
  | case4 l next rest other ih =>
    intro s member next' swallows
    rw [stretches, if_neg other] at member
    rcases List.mem_cons.mp member with rfl | later
    · exact absurd swallows (by simp)
    · exact ih s later next' swallows

/-- The lines of the stretches, each as if it stood alone. -/
def alone : Nat → List Stretch → List Line
  | _, [] => []
  | i, s :: rest =>
    ((handed s.lastLine).map fun found => (i + s.text.length, found)).toList ++
      alone (i + s.text.length + 2) rest

theorem handed_bare {l : Bytes} (colon : bare l = true) : handed l = none := by
  obtain ⟨name, split⟩ := bare_iff.mp colon
  unfold handed
  rw [split]

theorem wanted_stretches (i : Nat) (ls : List Bytes) : wanted i ls = alone i (stretches ls) := by
  induction ls using stretches.induct generalizing i with
  | case1 => rfl
  | case2 l => rfl
  | case3 l next rest colon ih =>
    have size : i + l.length + 2 + next.length = i + (l ++ crlf ++ next).length := by
      rw [List.length_append, List.length_append, length_crlf]
      omega
    rw [stretches, if_pos colon, alone, ← ih, wanted, wanted, handed_bare colon, size]
    rfl
  | case4 l next rest other ih =>
    rw [stretches, if_neg other, alone, ← ih, wanted]
    rfl

theorem alone_ge (i : Nat) (ss : List Stretch) : ∀ l ∈ alone i ss, i ≤ l.1 := by
  induction ss generalizing i with
  | nil => exact fun l member => absurd member (by simp [alone])
  | cons s rest ih =>
    intro l member
    rcases List.mem_append.mp member with here | later
    · rw [Option.mem_toList, Option.map_eq_some_iff] at here
      obtain ⟨found, -, rfl⟩ := here
      exact Nat.le_add_right i _
    · have behind := ih _ l later
      omega

theorem seenLines_ge (i : Nat) (place : Place) (ss : List Stretch) :
    ∀ l ∈ seenLines i place ss, i ≤ l.1 := by
  induction ss generalizing i place with
  | nil => exact fun l member => absurd member (by simp [seenLines])
  | cons s rest ih =>
    intro l member
    rcases List.mem_append.mp member with here | later
    · unfold seen at here
      split at here
      · rw [Option.mem_toList, Option.map_eq_some_iff] at here
        obtain ⟨found, -, rfl⟩ := here
        exact Nat.le_add_right i _
      · exact absurd here (by simp)
    · have behind := ih _ _ l later
      omega

theorem alone_lt (i : Nat) (ss : List Stretch) : ∀ l ∈ alone i ss, l.1 < i + (flat ss).length := by
  induction ss generalizing i with
  | nil => exact fun l member => absurd member (by simp [alone])
  | cons s rest ih =>
    intro l member
    rw [length_flat_cons]
    rcases List.mem_append.mp member with here | later
    · rw [Option.mem_toList, Option.map_eq_some_iff] at here
      obtain ⟨found, -, rfl⟩ := here
      show i + s.text.length < _
      omega
    · have below := ih _ l later
      omega

theorem seen_le (i : Nat) (place : Place) (text : Bytes) :
    ∀ l ∈ seen i place text, l.1 ≤ i + text.length := by
  intro l member
  unfold seen at member
  split at member
  · rw [Option.mem_toList, Option.map_eq_some_iff] at member
    obtain ⟨found, -, rfl⟩ := member
    exact Nat.le_refl _
  · exact absurd member (by simp)

/-- Lists of lines that agree, agree on both sides of a place. -/
theorem lines_part {k : Nat} {xs xs' ys ys' : List Line} (before : ∀ l ∈ xs, l.1 ≤ k)
    (before' : ∀ l ∈ xs', l.1 ≤ k) (behind : ∀ l ∈ ys, k < l.1) (behind' : ∀ l ∈ ys', k < l.1)
    (same : xs ++ ys = xs' ++ ys') : xs = xs' ∧ ys = ys' := by
  have upTo : ∀ {zs ws : List Line}, (∀ l ∈ zs, l.1 ≤ k) → (∀ l ∈ ws, k < l.1) →
      (zs ++ ws).filter (fun l => l.1 ≤ k) = zs := by
    intro zs ws low high
    have all : zs.filter (fun l => l.1 ≤ k) = zs :=
      List.filter_eq_self.mpr fun l member => decide_eq_true (low l member)
    have none : ws.filter (fun l => l.1 ≤ k) = [] :=
      List.filter_eq_nil_iff.mpr fun l member => by
        have above := high l member
        simp only [decide_eq_true_eq]
        omega
    rw [List.filter_append, all, none, List.append_nil]
  have first : xs = xs' := by
    rw [← upTo before behind, same, upTo before' behind']
  subst first
  exact ⟨rfl, List.append_cancel_left same⟩

theorem seen_alone (place : Place) {s : Stretch} (colon : ∀ next, s.swallowed = some next →
    bare s.line = true) (i : Nat) :
    seen i place s.text =
        ((handed s.lastLine).map fun found => (i + s.text.length, found)).toList ↔
      s.Alone place := by
  obtain ⟨line, _ | next⟩ := s
  · show seen i place line = ((handed line).map fun found => (i + line.length, found)).toList ↔
      (place = .fresh ∨ handed line = none)
    unfold seen handed
    cases splitColon line with
    | none => simp
    | some parts =>
      obtain ⟨name, _ | ⟨b, value⟩⟩ := parts
      · simp
      · cases place with
        | fresh => simp [Place.parameter, Option.map_map, Function.comp_def]
        | muted =>
          cases found : parameters name with
          | none => simp [Place.parameter, found]
          | some p => simp [Place.parameter, found]
  · obtain ⟨name, split⟩ := bare_iff.mp (colon next rfl)
    have whole : splitColon (line ++ crlf ++ next) = some (name, 0x0d :: 0x0a :: next) := by
      rw [List.append_assoc]
      exact splitColon_append _ split
    show seen i place (line ++ crlf ++ next) =
        ((handed next).map fun found => (i + (line ++ crlf ++ next).length, found)).toList ↔
      (handed next = none ∧
        ∀ name, splitColon line = some (name, []) → place.parameter name = none)
    have only : (∀ name, splitColon line = some (name, []) → place.parameter name = none) ↔
        place.parameter name = none := by
      constructor
      · exact fun all => all name split
      · intro here name' split'
        obtain ⟨rfl, -⟩ := Prod.mk.inj (Option.some.inj (split.symm.trans split'))
        exact here
    have taken : seen i place (line ++ crlf ++ next) = ((place.parameter name).map fun p =>
        (i + (line ++ crlf ++ next).length, p, 0x0a :: next)).toList := by
      unfold seen
      rw [whole]
    rw [only, taken]
    cases place.parameter name with
    | none => cases handed next <;> simp
    | some p =>
      cases found : handed next with
      | none => simp
      | some pair =>
        obtain ⟨p', value⟩ := pair
        have shorter := handed_shorter found
        have other : (0x0a :: next : Bytes) ≠ value := by
          rintro rfl
          simp only [List.length_cons] at shorter
          omega
        simp only [Option.map_some, Option.toList_some, reduceCtorEq, false_and, iff_false]
        intro same
        exact other (Prod.mk.inj (Prod.mk.inj (List.cons.inj same).1).2).2

theorem seenLines_alone (place : Place) {ss : List Stretch} (colon : ∀ s ∈ ss, ∀ next,
    s.swallowed = some next → bare s.line = true) (i : Nat) :
    seenLines i place ss = alone i ss ↔ LineWise place ss := by
  induction ss generalizing i place with
  | nil => exact iff_of_true rfl trivial
  | cons s rest ih =>
    have here := seen_alone place (colon s List.mem_cons_self) i
    have later := ih (place.after s.text)
      (fun t member => colon t (List.mem_cons_of_mem _ member)) (i + s.text.length + 2)
    rw [LineWise, ← here, ← later]
    constructor
    · refine lines_part (seen_le i place s.text) ?_ ?_ ?_
      · intro l member
        rw [Option.mem_toList, Option.map_eq_some_iff] at member
        obtain ⟨found, -, rfl⟩ := member
        exact Nat.le_refl _
      · intro l member
        have behind := seenLines_ge _ _ _ l member
        omega
      · intro l member
        have behind := alone_ge _ _ l member
        omega
    · rintro ⟨first, second⟩
      rw [seenLines, alone, first, second]

/-! ### The block -/

theorem start_scan (header : Bytes) : Start header .fresh {} :=
  ⟨rfl, rfl, Nat.le_refl 0, fun _ => rfl, nofun⟩

/-- A block whose last line ends in its first colon: the scan goes on behind the empty line. -/
theorem block_bare (b : HeaderBlock) (rest : Bytes) (some : b.lines ≠ []) (hidden : ¬SeesEnd b.lines) :
    ∃ c place name text, splitColon text = Option.some (name, []) ∧
      Advances (b.octets ++ rest) {} (b.octets ++ rest) (seenLines 0 .fresh (stretches b.lines)) c
        (0x0a :: (crlf ++ rest)) ∧
      InValue (b.octets ++ rest) place name (c.i - 2 - name.length) c ∧
      c.i + 1 = (joined b.lines).length ∧ c.fieldIndex + 1 = c.i := by
  have scans := scans_stretches b.unbroken b.filled
  have arranged : b.octets ++ rest = flat (stretches b.lines) ++ (crlf ++ rest) := by
    rw [HeaderBlock.octets, joined_stretches, flat, List.append_assoc]
  rcases List.eq_nil_or_concat' (stretches b.lines) with none | ⟨init, last, split⟩
  · have empty := joined_stretches b.lines
    obtain ⟨l, ls, more⟩ := List.exists_cons_of_ne_nil some
    rw [none, more] at empty
    exact absurd empty (by simp [joined, crlf])
  · have whole : ∀ s ∈ init, bare s.text = false := by
      intro s member
      refine bare_last b.lines s ?_
      rw [split, List.dropLast_concat]
      exact member
    have isBare : bare last.text = true := by
      by_contra other
      refine hidden ⟨some, fun s member => ?_⟩
      rw [split] at member
      rcases List.mem_append.mp member with inside | here
      · exact whole s inside
      · rw [List.mem_singleton.mp here]
        exact Bool.eq_false_iff.mpr other
    have scansLast : Scans last.text := scans last (by rw [split]; simp)
    have after : flat (init ++ [last]) ++ (crlf ++ rest) =
        flat init ++ (last.text ++ (crlf ++ (crlf ++ rest))) := by
      rw [flat_append]
      simp [flat]
    have filled : ¬crlf <+: last.text ++ (crlf ++ (crlf ++ rest)) := by
      rw [← List.append_assoc]
      refine not_crlf_append scansLast.filled ?_
      rw [List.length_append, length_crlf]
      omega
    rw [arranged, split]
    obtain ⟨c₁, first, here, start₁⟩ := run_scan init (start_scan _) after (Nat.zero_le _)
      (fun s member => scans s (by rw [split]; exact List.mem_append_left _ member)) whole filled
      (by simp only [List.length_append, length_crlf]; omega)
    have within₁ := drop_add _ _ (i := 0) after
    rw [← here] at within₁
    have bound₁ : c₁.i ≤ (flat (init ++ [last]) ++ (crlf ++ rest)).length := by
      rw [here, after, List.length_append]
      exact Nat.le_trans (Nat.le_of_eq (Nat.zero_add _)) (Nat.le_add_right _ _)
    obtain ⟨name, colon⟩ := bare_iff.mp isBare
    obtain ⟨c₂, second, value, there⟩ :=
      bare_scan start₁ within₁ bound₁ (scansLast.name name colon) colon
    have nothing : seen (0 + (flat init).length) (placeAfter .fresh init) last.text = [] := by
      unfold seen
      rw [colon]
    have all : seenLines 0 .fresh (init ++ [last]) = seenLines 0 .fresh init := by
      rw [seenLines_append, seenLines, nothing, seenLines]
      simp
    have both := advances_trans first second
    rw [← after, List.append_nil] at both
    have i := value.i
    have fieldIndex := value.fieldIndex
    have back : c₂.i - 2 - name.length = c₁.i := by omega
    have zero : ({} : Cursor).i = 0 := rfl
    refine ⟨c₂, placeAfter .fresh init, name, last.text, colon, all ▸ both, back ▸ value, ?_, by omega⟩
    have total : (joined b.lines).length = (flat init).length + (last.text.length + 2) := by
      rw [joined_stretches, split, ← flat, flat_append, List.length_append, length_flat_cons]
      rfl
    omega

/-- A block whose last line has an end that the scan sees is read up to its empty line. -/
theorem block_read (b : HeaderBlock) (rest : Bytes) (sees : SeesEnd b.lines) :
    lines (b.octets ++ rest) {} (b.octets ++ rest) = seenLines 0 .fresh (stretches b.lines) ∧
      size (b.octets ++ rest) {} (b.octets ++ rest) = b.octets.length := by
  have whole : b.octets = flat (stretches b.lines) ++ crlf := by
    rw [HeaderBlock.octets, joined_stretches, flat]
  have arranged : b.octets ++ rest = flat (stretches b.lines) ++ (crlf ++ rest) := by
    rw [whole, List.append_assoc]
  have some : stretches b.lines ≠ [] := by
    intro none
    have empty := joined_stretches b.lines
    obtain ⟨l, ls, more⟩ := List.exists_cons_of_ne_nil sees.1
    rw [none, more] at empty
    simp [joined, crlf] at empty
  obtain ⟨found, ending⟩ := block_scan rest (start_scan (b.octets ++ rest)) arranged (Nat.zero_le _)
    (scans_stretches b.unbroken b.filled) sees.2 some
  rw [← arranged] at found ending
  refine ⟨found, ending.trans ?_⟩
  rw [whole, List.length_append, length_crlf]
  exact congrArg (· + 2) (Nat.zero_add _)

/-- The lines of a block, if its last line has an end that the scan sees or if the packet ends
there. -/
theorem lines_block (b : HeaderBlock) (rest : Bytes) (ends : SeesEnd b.lines ∨ rest = []) :
    lines (b.octets ++ rest) {} (b.octets ++ rest) = seenLines 0 .fresh (stretches b.lines) := by
  by_cases sees : SeesEnd b.lines
  · exact (block_read b rest sees).1
  · obtain rfl := ends.resolve_left sees
    by_cases some : b.lines = []
    · have octets : b.octets ++ [] = crlf := by
        rw [HeaderBlock.octets, some]
        rfl
      rw [octets, some]
      rfl
    · obtain ⟨c, place, name, text, -, scan, -⟩ := block_bare b [] some sees
      rw [scan.lines]
      exact List.append_nil _

/-- Lines in the data behind a header. -/
def intruder : Bytes := flat [{ line := Octets.ascii "y: " }, { line := Octets.ascii "Host: a" }] ++ crlf

theorem intruder_scan (header : Bytes) (place : Place) {c : Cursor} (start : Start header place c)
    (within : header.drop c.i = intruder) :
    ∃ l ∈ lines header c intruder, c.i ≤ l.1 := by
  have bound : c.i ≤ header.length := by
    by_contra past
    rw [List.drop_eq_nil_of_le (by omega)] at within
    exact absurd within (by decide)
  have scans : ∀ s ∈ ([{ line := Octets.ascii "y: " }, { line := Octets.ascii "Host: a" }] :
      List Stretch), Scans s.text := by
    intro s member
    rcases List.mem_cons.mp member with rfl | member
    · exact scans_line (l := Octets.ascii "y: ") (unbroken_of_notMem (by decide)) (by decide)
    · obtain rfl := List.mem_singleton.mp member
      exact scans_line (l := Octets.ascii "Host: a") (unbroken_of_notMem (by decide)) (by decide)
  have found := (block_scan [] start (by rw [List.append_nil]; exact within) bound scans
    (by decide) (by simp)).1
  rw [List.append_nil, seenLines, seenLines] at found
  have lineAfter : place.after (Stretch.text { line := Octets.ascii "y: " }) = .fresh := by
    cases place <;> decide
  refine ⟨(c.i + 12, .host, Octets.ascii "a"), ?_, Nat.le_add_right _ _⟩
  rw [lineAfter] at found
  rw [intruder, found]
  exact List.mem_append_right _ (List.mem_append_left _ List.mem_cons_self)

theorem mem_cut {header : Bytes} {start stop k : Nat} {b : BitVec 8} (at_k : header[k]? = some b)
    (after : start ≤ k) (before : k < stop) : b ∈ cut header start stop := by
  refine List.mem_iff_getElem?.mpr ⟨k - start, ?_⟩
  rw [cut, List.getElem?_take, if_pos (by omega), List.getElem?_drop, Nat.add_sub_cancel' after,
    at_k]

/-- Without an end that the scan sees, it takes lines out of the data behind the block. -/
theorem intruder_found (b : HeaderBlock) (hidden : ¬SeesEnd b.lines) :
    ∃ l ∈ lines (b.octets ++ intruder) {} (b.octets ++ intruder), (joined b.lines).length ≤ l.1 := by
  have long : 2 ≤ intruder.length := by decide
  have filled : ¬crlf <+: intruder := by decide
  by_cases some : b.lines = []
  · have octets : b.octets ++ intruder = crlf ++ intruder := by
      rw [HeaderBlock.octets, some]
      rfl
    have scan := advances_lineEnd (crlf ++ intruder) {} long filled
    obtain ⟨l, found, -⟩ := intruder_scan (crlf ++ intruder) .muted
      (c := ({} : Cursor).nextLine) ⟨rfl, rfl, Nat.zero_le _, nofun, fun _ => by decide⟩ rfl
    rw [octets, some]
    exact ⟨l, scan.lines ▸ List.mem_append_right _ found, Nat.zero_le _⟩
  · obtain ⟨c, place, name, text, split, scan, value, ends, field⟩ := block_bare b intruder some hidden
    have skip := advances_next (b.octets ++ intruder) c (b := 0x0a) (show 3 ≤ (crlf ++ intruder).length by
      decide) (by decide) fun no => absurd no.1 (by decide)
    have lineEnd := advances_lineEnd (b.octets ++ intruder) c.next long filled
    have all := advances_trans scan (advances_trans skip lineEnd)
    have whole : (b.octets ++ intruder).length = (joined b.lines).length + 2 + intruder.length := by
      rw [HeaderBlock.octets, List.length_append, List.length_append, length_crlf]
    have behind : (b.octets ++ intruder).drop (c.i + 3) = intruder := by
      rw [show c.i + 3 = b.octets.length by
        rw [HeaderBlock.octets, List.length_append, length_crlf]
        omega]
      exact List.drop_left
    have start : Start (b.octets ++ intruder) (place.after text) c.next.nextLine := by
      refine inValue_start (c.i + 1) value ⟨_, split⟩ (by omega) ?_
      refine mem_cut (k := c.i + 2) ?_ (by omega) (by omega)
      rw [HeaderBlock.octets, List.append_assoc, List.getElem?_append_right (by omega),
        show c.i + 2 - (joined b.lines).length = 1 by omega]
      rfl
    have here : c.next.nextLine.i = c.i + 3 := nextLine_i c.next
    obtain ⟨l, found, below⟩ := intruder_scan _ _ start (by rw [here]; exact behind)
    exact ⟨l, all.lines ▸ List.mem_append_right _ found, by omega⟩

theorem reads_iff_stretches (b : HeaderBlock) (rest : Bytes) (ends : SeesEnd b.lines ∨ rest = []) :
    ReadsLineWise b rest ↔ LineWise .fresh (stretches b.lines) := by
  rw [reads_iff_lines, lines_block b rest ends, wanted_stretches,
    seenLines_alone .fresh stretch_bare]

/-- When a block is read line by line: in a packet that ends with it, and whatever follows it. -/
theorem reads_lineWise_iff (b : HeaderBlock) :
    (ReadsLineWise b [] ↔ LineWise .fresh (stretches b.lines)) ∧
      ((∀ rest, ReadsLineWise b rest) ↔
        LineWise .fresh (stretches b.lines) ∧ SeesEnd b.lines) := by
  refine ⟨reads_iff_stretches b [] (.inr rfl), ?_, ?_⟩
  · intro always
    refine ⟨(reads_iff_stretches b [] (.inr rfl)).mp (always []), ?_⟩
    by_contra hidden
    obtain ⟨l, found, behind⟩ := intruder_found b hidden
    rw [reads_iff_lines.mp (always intruder), wanted_stretches] at found
    have before := alone_lt 0 (stretches b.lines) l found
    rw [joined_stretches, ← flat] at behind
    omega
  · rintro ⟨alone, sees⟩ rest
    exact (reads_iff_stretches b rest (.inl sees)).mpr alone

/-- A line without a colon takes the host with it. -/
theorem not_always_lineWise : ¬∀ (b : HeaderBlock) (rest : Bytes), ReadsLineWise b rest := by
  intro always
  have lost := reads_iff_lines.mp (always
    { lines := [Octets.ascii "nocolon", Octets.ascii "Host: a"]
      unbroken := by
        intro l member
        rcases List.mem_cons.mp member with rfl | member
        · exact unbroken_of_notMem (by decide)
        · rw [List.mem_singleton.mp member]
          exact unbroken_of_notMem (by decide)
      filled := by decide } [])
  exact absurd lost (by decide)

end AIEngine.HTTPHeader
