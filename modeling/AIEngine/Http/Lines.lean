import AIEngine.Http.HTTPHeader

/-!
# A header as a list of lines

Which registered lines a header has does not depend on what the handlers do: the loop of
`parse_header` runs the handlers over these lines until one of them asks for a ban, and none of its
positions is out of range.
-/

namespace AIEngine.HTTPHeader

/-- A registered line: the place of its end, the parameter and the value. -/
abbrev Line := Nat × HttpParameter × Bytes

def cut (header : Bytes) (start stop : Nat) : Bytes := (header.drop start).take (stop - start)

/-- The line that ends at the cursor, if its field is registered. -/
def Cursor.line (header : Bytes) (c : Cursor) : Option Line :=
  if c.headerField = [] then none
  else (parameters c.headerField).map fun p => (c.i, p, cut header c.parameterIndex c.i)

variable (header : Bytes)

def lines : Cursor → Bytes → List Line
  | c, b₀ :: b₁ :: b₂ :: b₃ :: rest =>
    if b₀ = 0x0d ∧ b₁ = 0x0a then
      (c.line header).toList ++
        if b₂ = 0x0d ∧ b₃ = 0x0a then [] else lines c.nextLine (b₂ :: b₃ :: rest)
    else if b₀ = 0x3a ∧ c.haveToken = false then
      lines (c.colon (cut header c.fieldIndex c.i)) (b₂ :: b₃ :: rest)
    else lines c.next (b₁ :: b₂ :: b₃ :: rest)
  | _, _ => []

/-- What `http_header_size_` grows by when no handler asks for a ban. -/
def size : Cursor → Bytes → Nat
  | c, b₀ :: b₁ :: b₂ :: b₃ :: rest =>
    if b₀ = 0x0d ∧ b₁ = 0x0a then
      if b₂ = 0x0d ∧ b₃ = 0x0a then c.i + 4 else size c.nextLine (b₂ :: b₃ :: rest)
    else if b₀ = 0x3a ∧ c.haveToken = false then
      size (c.colon (cut header c.fieldIndex c.i)) (b₂ :: b₃ :: rest)
    else size c.next (b₁ :: b₂ :: b₃ :: rest)
  | c, _ => c.i

variable {σ : Type} (call : σ → HttpParameter → Bytes → Except Failure (Bool × σ))

/-- The handlers, one line after the other. The result tells where a ban was asked for. -/
def runLines : σ → List Line → Except Failure (σ × Option Nat)
  | s, [] => .ok (s, none)
  | s, (i, p, v) :: rest =>
    match call s p v with
    | .error e => .error e
    | .ok (false, s) => .ok (s, some i)
    | .ok (true, s) => runLines s rest

variable {header call}

/-- The first line asks for a ban and is the last one, or the others follow. -/
theorem runLines_cons {s t : σ} {i : Nat} {p : HttpParameter} {v : Bytes} {rest : List Line}
    {stop : Option Nat} (h : runLines call s ((i, p, v) :: rest) = .ok (t, stop)) :
    (call s p v = .ok (false, t) ∧ stop = some i) ∨
      ∃ u, call s p v = .ok (true, u) ∧ runLines call u rest = .ok (t, stop) := by
  rw [runLines] at h
  split at h
  · exact absurd h (by simp)
  · rename_i u stopped
    obtain ⟨rfl, rfl⟩ := Prod.mk.inj (Except.ok.inj h)
    exact Or.inl ⟨stopped, rfl⟩
  · rename_i u called
    exact Or.inr ⟨u, called, h⟩

/-! ### The positions of the loop -/

/-- The positions do not run ahead of the loop, and the loop stays within the header. -/
structure Cursor.Wf (header : Bytes) (c : Cursor) (rest : Bytes) : Prop where
  field : c.fieldIndex ≤ c.i
  parameter : c.parameterIndex ≤ c.i
  within : c.i + rest.length = header.length

theorem wf_start (header : Bytes) : Cursor.Wf header {} header :=
  ⟨Nat.le_refl 0, Nat.le_refl 0, Nat.zero_add _⟩

theorem substr_cut {start stop : Nat} (ordered : start ≤ stop) (within : stop ≤ header.length) :
    substr header start ((stop : Int) - start) = .ok (cut header start stop) := by
  have bound : start ≤ header.length := by omega
  have positive : (0 : Int) ≤ (stop : Int) - start := by omega
  have count : ((stop : Int) - start).toNat = stop - start := by omega
  rw [substr, Octets.substr_of_le bound, if_pos positive, count]
  rfl

theorem substr_rest {start : Nat} (within : start ≤ header.length) :
    substr header start ((header.length : Int) - start) = .ok (header.drop start) := by
  rw [substr_cut within (Nat.le_refl _), cut, List.take_of_length_le (Nat.le_of_eq List.length_drop)]

/-- Running the line that ends at the cursor is calling its handler. -/
theorem runLines_line {s : σ} {c : Cursor} {rest : Bytes} (wf : c.Wf header rest)
    (later : List Line) : runLines call s ((c.line header).toList ++ later) =
      match callback call header s c with
      | .error e => .error e
      | .ok (false, s) => .ok (s, some c.i)
      | .ok (true, s) => runLines call s later := by
  have within := wf.within
  unfold callback Cursor.line
  by_cases empty : c.headerField = []
  · rw [if_pos empty, if_pos empty]
    rfl
  · rw [if_neg empty, if_neg empty, substr_cut wf.parameter (by omega)]
    cases parameters c.headerField with
    | none => rfl
    | some p => rfl

theorem nextLine_i (c : Cursor) : c.nextLine.i = c.i + 2 := by
  unfold Cursor.nextLine
  split <;> rfl

theorem wf_nextLine {c : Cursor} {b₀ b₁ : BitVec 8} {rest : Bytes}
    (wf : c.Wf header (b₀ :: b₁ :: rest)) : c.nextLine.Wf header rest := by
  obtain ⟨field, parameter, within⟩ := wf
  simp only [List.length_cons] at within
  refine ⟨?_, ?_, ?_⟩
  · rw [nextLine_i]
    unfold Cursor.nextLine
    split
    · show c.fieldIndex ≤ c.i + 2
      omega
    · exact Nat.le_refl _
  · rw [nextLine_i]
    unfold Cursor.nextLine
    split
    · show c.parameterIndex ≤ c.i + 2
      omega
    · show c.parameterIndex ≤ c.i + 2
      omega
  · rw [nextLine_i]
    omega

theorem wf_colon {c : Cursor} {b₀ b₁ : BitVec 8} {rest field : Bytes}
    (wf : c.Wf header (b₀ :: b₁ :: rest)) : (c.colon field).Wf header rest := by
  have within := wf.within
  simp only [List.length_cons] at within
  refine ⟨?_, Nat.le_refl _, ?_⟩
  · show c.i + 1 ≤ c.i + 2
    omega
  · show c.i + 2 + rest.length = header.length
    omega

theorem wf_next {c : Cursor} {b : BitVec 8} {rest : Bytes} (wf : c.Wf header (b :: rest)) :
    c.next.Wf header rest := by
  obtain ⟨field, parameter, within⟩ := wf
  simp only [List.length_cons] at within
  refine ⟨?_, ?_, ?_⟩
  · show c.fieldIndex ≤ c.i + 1
    omega
  · show c.parameterIndex ≤ c.i + 1
    omega
  · show c.i + 1 + rest.length = header.length
    omega

/-- Where the loop ends: at the ban, or behind the lines. -/
def outcome (size : Nat) : Except Failure (σ × Option Nat) → Except Failure (σ × Nat × Bool)
  | .error e => .error e
  | .ok (s, some i) => .ok (s, i, true)
  | .ok (s, none) => .ok (s, size, false)

/-- The loop is the handlers over the lines. -/
theorem loop_eq (s : σ) (c : Cursor) (rest : Bytes) (wf : c.Wf header rest) :
    loop call header s c rest =
      outcome (size header c rest) (runLines call s (lines header c rest)) := by
  induction s, c, rest using loop.induct call header with
  | case1 s c b₀ b₁ b₂ b₃ rest lineEnd e failed =>
    rw [loop, if_pos lineEnd, lines, if_pos lineEnd, runLines_line wf, failed]
    rfl
  | case2 s c b₀ b₁ b₂ b₃ rest lineEnd t banned =>
    rw [loop, if_pos lineEnd, lines, if_pos lineEnd, runLines_line wf, banned]
    rfl
  | case3 s c b₀ b₁ b₂ b₃ rest lineEnd t called blank =>
    rw [loop, if_pos lineEnd, lines, if_pos lineEnd, runLines_line wf, called, size,
      if_pos lineEnd, if_pos blank]
    simp only [if_pos blank]
    rfl
  | case4 s c b₀ b₁ b₂ b₃ rest lineEnd t called more ih =>
    rw [loop, if_pos lineEnd, lines, if_pos lineEnd, runLines_line wf, called, size,
      if_pos lineEnd, if_neg more]
    simp only [if_neg more]
    exact ih (wf_nextLine wf)
  | case5 s c b₀ b₁ b₂ b₃ rest text colon field found ih =>
    have within := wf.within
    have known := substr_cut wf.field (by omega : c.i ≤ header.length)
    obtain rfl := Except.ok.inj (known.symm.trans found)
    rw [loop, if_neg text, if_pos colon, found, lines, if_neg text, if_pos colon, size,
      if_neg text, if_pos colon]
    exact ih (wf_colon wf)
  | case6 s c b₀ b₁ b₂ b₃ rest text colon e failed =>
    have within := wf.within
    have known := substr_cut wf.field (by omega : c.i ≤ header.length)
    exact absurd (known.symm.trans failed) (by simp)
  | case7 s c b₀ b₁ b₂ b₃ rest text other ih =>
    rw [loop, if_neg text, if_neg other, lines, if_neg text, if_neg other, size, if_neg text,
      if_neg other]
    exact ih (wf_next wf)
  | case8 rest s c short =>
    rcases rest with _ | ⟨b₀, _ | ⟨b₁, _ | ⟨b₂, _ | ⟨b₃, rest⟩⟩⟩⟩
    · rfl
    · rfl
    · rfl
    · rfl
    · exact absurd rfl (short b₀ b₁ b₂ b₃ rest)

theorem parseHeader_eq (s : σ) (header : Bytes) :
    parseHeader call header s =
      outcome (size header {} header) (runLines call s (lines header {} header)) :=
  loop_eq s {} header (wf_start header)

end AIEngine.HTTPHeader
