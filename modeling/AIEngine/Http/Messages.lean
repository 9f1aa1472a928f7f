import AIEngine.Http.Body
import AIEngine.Http.LineWise
import AIEngine.Http.RequestLine

/-!
# Headers with a Content-Length

The header of a message with data: a request or a status line, fields, and an empty line. What the
scan announces and where it ends, when no field gets in its way.
-/

namespace AIEngine.HTTPProtocol

open HTTPHeader

/-- The value has the blanks around it. -/
structure HeaderField where
  name : Bytes
  value : Bytes
  named : name ≠ []
  colonless : 0x3a ∉ name
  unbrokenName : 0x0d ∉ name
  unbrokenValue : 0x0d ∉ value

def HeaderField.octets (f : HeaderField) : Bytes := f.name ++ 0x3a :: f.value

/-- A decimal number with blanks around it. -/
structure Numeral (value : Bytes) (n : Nat) where
  before : Bytes
  digits : Bytes
  after : Bytes
  whole : value = before ++ (digits ++ after)
  decimal : ∀ d ∈ digits, Octets.isDigit d = true
  filled : digits ≠ []
  number : Octets.number digits = n
  blank : ∀ b ∈ before ++ after, b = 0x20 ∨ b = 0x09

inductive StartLine where
  | request (r : RequestLine)
  | status (line : Bytes) (version : Octets.ascii "HTTP/1" <+: line) (unbroken : 0x0d ∉ line)

def StartLine.octets : StartLine → Bytes
  | .request r => r.octets
  | .status line _ _ => line ++ crlf

def contentLength : Bytes := Octets.ascii "Content-Length"

/-- All fields of that name declare one length. -/
structure MessageHeader where
  first : StartLine
  fields : List HeaderField
  length : Nat
  declared : ∃ f ∈ fields, f.name = contentLength
  agreed : ∀ f ∈ fields, f.name = contentLength → Nonempty (Numeral f.value length)

variable {p : HttpPacket} {m : MessageHeader} {body : Bytes} {f : HeaderField}

theorem field_split (f : HeaderField) : splitColon f.octets = some (f.name, f.value) :=
  splitColon_colon f.colonless

theorem field_filled (f : HeaderField) : f.octets ≠ [] := by
  simp [HeaderField.octets]

theorem field_unbroken (f : HeaderField) : Unbroken f.octets := by
  refine unbroken_of_notMem fun inside => ?_
  rcases List.mem_append.mp inside with name | value
  · exact f.unbrokenName name
  · rcases List.mem_cons.mp value with colon | value
    · exact absurd colon (by decide)
    · exact f.unbrokenValue value

def MessageHeader.block (m : MessageHeader) : HeaderBlock where
  lines := m.fields.map HeaderField.octets
  unbroken l member := by
    obtain ⟨f, -, rfl⟩ := List.mem_map.mp member
    exact field_unbroken f
  filled l member := by
    obtain ⟨f, -, rfl⟩ := List.mem_map.mp member
    exact field_filled f

def MessageHeader.octets (m : MessageHeader) : Bytes := m.first.octets ++ m.block.octets

/-! ### The first line -/

theorem find_lineEnd {l : Bytes} (unbroken : 0x0d ∉ l) (more : Bytes) :
    Octets.find crlf (l ++ (crlf ++ more)) = some l.length := by
  induction l with
  | nil => exact Octets.find_start more
  | cons b rest ih =>
    simp only [List.mem_cons, not_or] at unbroken
    have other : ¬crlf.isPrefixOf (b :: (rest ++ (crlf ++ more))) = true := fun first =>
      unbroken.1 (List.cons_prefix_cons.mp (List.isPrefixOf_iff_prefix.mp first)).1
    rw [List.cons_append, Octets.find, if_neg other, ih unbroken.2]
    rfl

/-- The target of a request has no version in it. -/
def StartLine.Clear : StartLine → Prop
  | .request r => ¬marker <:+: r.target
  | .status _ _ _ => True

theorem first_headerStart {first : StartLine} {more : Bytes} (clear : first.Clear)
    (payload : p.payload = first.octets ++ more) : headerStart p = first.octets.length := by
  unfold headerStart
  cases first with
  | request r =>
    have payload : p.payload = r.octets ++ more := payload
    have starts : r.method <+: p.payload := by
      rw [payload, RequestLine.octets, List.append_assoc]
      exact List.prefix_append _ _
    obtain ⟨request, found⟩ := method_found r.registered starts
    have place := find_target r more
    rw [← payload, (Octets.find_eq_none r.target marker_filled).mpr clear] at place
    have version : Octets.find (Octets.ascii "HTTP/1.") p.payload =
        some (r.method.length + r.target.length + 1 + 1) := by
      refine place.trans (congrArg some ?_)
      omega
    rw [if_neg (by simp [request]), found, Option.isSome_some, if_pos rfl, version]
    show r.method.length + r.target.length + 1 + 11 = r.octets.length
    rw [length_octets]
    omega
  | status line version unbroken =>
    have payload : p.payload = line ++ crlf ++ more := payload
    have response : p.startsWith (Octets.ascii "HTTP/1") = true := by
      rw [startsWith_iff, payload, List.append_assoc, List.append_assoc]
      exact version.trans (List.prefix_append _ _)
    obtain ⟨k, length⟩ : ∃ k, line.length = k + 1 := by
      have bound := version.length_le
      have six : (Octets.ascii "HTTP/1").length = 6 := by decide
      exact ⟨line.length - 1, by omega⟩
    have lineEnd : Octets.find (Octets.ascii "\r\n") p.payload = some (k + 1) := by
      rw [payload, List.append_assoc, ← length]
      exact find_lineEnd unbroken more
    rw [if_pos response, lineEnd]
    show k + 3 = (line ++ crlf).length
    rw [List.length_append, length]
    rfl

theorem first_filled (first : StartLine) : 0 < first.octets.length := by
  cases first with
  | request r =>
    show 0 < r.octets.length
    rw [length_octets]
    omega
  | status line version unbroken =>
    show 0 < (line ++ crlf).length
    rw [List.length_append, length_crlf]
    omega

/-! ### The fields -/

theorem length_block (m : MessageHeader) : 4 < m.block.octets.length := by
  obtain ⟨f, member, -⟩ := m.declared
  have part : f.octets ++ crlf <:+: joined m.block.lines := by
    obtain ⟨front, back, split⟩ := List.append_of_mem member
    refine ⟨joined (front.map HeaderField.octets), joined (back.map HeaderField.octets), ?_⟩
    simp [joined, MessageHeader.block, split]
  have bound := part.length_le
  have filled := List.length_pos_iff.mpr (field_filled f)
  rw [List.length_append, length_crlf] at bound
  rw [HeaderBlock.octets, List.length_append, length_crlf]
  have colon : 1 < f.octets.length := by
    have name := List.length_pos_iff.mpr f.named
    rw [HeaderField.octets, List.length_append, List.length_cons]
    omega
  omega

theorem stretch_line {ls : List Bytes} : ∀ s ∈ stretches ls, s.line ∈ ls := by
  induction ls using stretches.induct with
  | case1 => exact fun s member => absurd member (by simp [stretches])
  | case2 l =>
    intro s member
    obtain rfl := List.mem_singleton.mp member
    exact List.mem_cons_self
  | case3 l next rest colon ih =>
    intro s member
    rw [stretches, if_pos colon] at member
    rcases List.mem_cons.mp member with rfl | later
    · exact List.mem_cons_self
    · exact List.mem_cons_of_mem _ (List.mem_cons_of_mem _ (ih s later))
  | case4 l next rest other ih =>
    intro s member
    rw [stretches, if_neg other] at member
    rcases List.mem_cons.mp member with rfl | later
    · exact List.mem_cons_self
    · exact List.mem_cons_of_mem _ (ih s later)

/-- The field of a stretch, and what the stretch has for its value. -/
theorem stretch_field {s : Stretch} (member : s ∈ stretches m.block.lines) :
    ∃ f ∈ m.fields, s.line = f.octets ∧
      splitColon s.text =
        some (f.name, f.value ++ (s.swallowed.map fun next => crlf ++ next).getD []) := by
  obtain ⟨f, field, same⟩ := List.mem_map.mp (stretch_line s member)
  refine ⟨f, field, same.symm, ?_⟩
  have split := field_split f
  unfold Stretch.text
  rw [← same]
  cases s.swallowed with
  | none => simpa using split
  | some next =>
    simp only [Option.map_some, Option.getD_some]
    rw [List.append_assoc]
    exact splitColon_append _ split

theorem place_fresh {s : Stretch} {name value : Bytes} (split : splitColon s.text = some (name, value))
    (named : name ≠ []) : Place.after .fresh s.text = .fresh := by
  unfold Place.after
  rw [split]
  exact if_neg fun both => named both.2

section Fresh

variable {ss : List Stretch}
  (named : ∀ s ∈ ss, ∃ name value, splitColon s.text = some (name, value) ∧ name ≠ [])

include named

/-- Where all stretches have a field with a name, each is read afresh. -/
theorem seenLines_mem (i : Nat) {l : Line} (member : l ∈ seenLines i .fresh ss) :
    ∃ s ∈ ss, ∃ j, l ∈ seen j .fresh s.text := by
  induction ss generalizing i with
  | nil => exact absurd member (by simp [seenLines])
  | cons s rest ih =>
    obtain ⟨name, value, split, filled⟩ := named s List.mem_cons_self
    rw [seenLines, place_fresh split filled] at member
    rcases List.mem_append.mp member with here | later
    · exact ⟨s, List.mem_cons_self, i, here⟩
    · obtain ⟨t, inside, j, found⟩ :=
        ih (fun t inside => named t (List.mem_cons_of_mem _ inside)) _ later
      exact ⟨t, List.mem_cons_of_mem _ inside, j, found⟩

theorem mem_seenLines (i : Nat) {s : Stretch} {q : HttpParameter} {value : Bytes} (member : s ∈ ss)
    (found : ∀ j, ∃ k, (k, q, value) ∈ seen j .fresh s.text) :
    ∃ k, (k, q, value) ∈ seenLines i .fresh ss := by
  induction ss generalizing i with
  | nil => exact absurd member (by simp)
  | cons t rest ih =>
    obtain ⟨name, value', split, filled⟩ := named t List.mem_cons_self
    rw [seenLines, place_fresh split filled]
    rcases List.mem_cons.mp member with rfl | inside
    · obtain ⟨k, here⟩ := found i
      exact ⟨k, List.mem_append_left _ here⟩
    · obtain ⟨k, later⟩ := ih (fun t inside => named t (List.mem_cons_of_mem _ inside))
        (i + t.text.length + 2) inside
      exact ⟨k, List.mem_append_right _ later⟩

end Fresh

theorem parameters_contentLength {name : Bytes} :
    parameters name = some .contentLength ↔ name = contentLength := by
  unfold parameters
  constructor
  · intro registered
    split at registered
    · exact absurd registered (by simp)
    · split at registered
      · exact absurd registered (by simp)
      · split at registered
        · assumption
        · exact absurd registered (by simp)
  · rintro rfl
    decide

/-! ### The declared length -/

/-- A blank stands between the colon and the value. -/
def Spaced (value : Bytes) : Prop := ∃ b rest, value = b :: rest ∧ (b = 0x20 ∨ b = 0x09)

theorem blank_space {b : BitVec 8} (blank : b = 0x20 ∨ b = 0x09) : Octets.isSpace b = true := by
  rcases blank with rfl | rfl <;> decide

theorem blank_not_digit {b : BitVec 8} (blank : b = 0x20 ∨ b = 0x09) : Octets.isDigit b = false := by
  rcases blank with rfl | rfl <;> decide

/-- What `std::stoi` makes of a length. -/
def intOf (n : Nat) : Except StdException Int :=
  if n ≤ 2147483647 then .ok n else .error .outOfRange

theorem numeral_stoi {value : Bytes} {n : Nat} {b : BitVec 8} (numeral : Numeral (b :: value) n)
    (blank : b = 0x20 ∨ b = 0x09) : stoi value = intOf n := by
  obtain ⟨before, digits, after, whole, decimal, filled, rfl, blanks⟩ := numeral
  cases before with
  | nil =>
    obtain ⟨d, ds, rfl⟩ := List.exists_cons_of_ne_nil filled
    obtain ⟨rfl, -⟩ := List.cons.inj whole
    exact absurd ((decimal b List.mem_cons_self).symm.trans (blank_not_digit blank)) (by simp)
  | cons b' before =>
    have rest : value = before ++ (digits ++ after) := (List.cons.inj whole).2
    have stops : ∀ c ∈ after.head?, Octets.isDigit c = false := by
      intro c first
      refine blank_not_digit (blanks c (List.mem_append_right _ ?_))
      exact List.mem_of_mem_head? first
    have read : Octets.strtol (before ++ (digits ++ after)) = some (Octets.number digits : Int) :=
      Octets.strtol_numeral
        (fun c inside => blank_space (blanks c (List.mem_append_left _ (List.mem_cons_of_mem _ inside))))
        decimal filled stops
    unfold stoi intOf
    rw [rest, read]
    simp only
    by_cases fits : Octets.number digits ≤ 2147483647
    · rw [if_pos fits, if_pos (by omega)]
    · rw [if_neg fits, if_neg (by omega)]

/-- What keeps the scan from missing the length or the end of the header. -/
structure MessageHeader.Readable (m : MessageHeader) : Prop where
  clear : m.first.Clear
  ends : SeesEnd m.block.lines
  spaced : ∀ f ∈ m.fields, f.name = contentLength → Spaced f.value
  alone : ∃ s ∈ stretches m.block.lines, s.swallowed = none ∧
    ∃ f ∈ m.fields, f.name = contentLength ∧ s.line = f.octets

/-- A line with a length that the scan sees has the declared one. -/
theorem seen_length {s : Stretch} (readable : m.Readable) (member : s ∈ stretches m.block.lines)
    {j : Nat} {l : Line} (found : l ∈ seen j .fresh s.text) (length : l.2.1 = .contentLength) :
    stoi l.2.2 = intOf m.length := by
  obtain ⟨f, field, line, split⟩ := stretch_field member
  unfold seen at found
  rw [split] at found
  cases whole : f.value ++ (s.swallowed.map fun next => crlf ++ next).getD [] with
  | nil =>
    rw [whole] at found
    exact absurd found (by simp)
  | cons b value =>
    rw [whole, Option.mem_toList, Option.map_eq_some_iff] at found
    obtain ⟨q, registered, rfl⟩ := found
    obtain rfl : q = .contentLength := length
    have named : f.name = contentLength := parameters_contentLength.mp registered
    obtain ⟨blank, rest, start, isBlank⟩ := readable.spaced f field named
    obtain ⟨numeral⟩ := m.agreed f field named
    have single : s.swallowed = none := by
      cases swallows : s.swallowed with
      | none => rfl
      | some next =>
        obtain ⟨name, isBare⟩ := bare_iff.mp (stretch_bare s member next swallows)
        rw [line, field_split, start] at isBare
        exact absurd (Prod.mk.inj (Option.some.inj isBare)).2 (by simp)
    rw [single] at whole
    simp only [Option.map_none, Option.getD_none, List.append_nil] at whole
    obtain ⟨rfl, rfl⟩ := List.cons.inj (start.symm.trans whole)
    exact numeral_stoi (whole ▸ numeral) isBlank

theorem alone_seen (readable : m.Readable) :
    ∃ s ∈ stretches m.block.lines, ∃ value, ∀ j, ∃ k,
      (k, HttpParameter.contentLength, value) ∈ seen j .fresh s.text := by
  obtain ⟨s, member, single, f, field, named, line⟩ := readable.alone
  obtain ⟨b, value, start, -⟩ := readable.spaced f field named
  refine ⟨s, member, value, fun j => ⟨j + s.text.length, ?_⟩⟩
  have split : splitColon s.text = some (f.name, b :: value) := by
    have text : s.text = f.octets := by
      unfold Stretch.text
      rw [single]
      exact line
    rw [text, field_split, start]
  have registered : Place.parameter .fresh f.name = some .contentLength :=
    parameters_contentLength.mpr named
  unfold seen
  rw [split]
  simp only
  rw [registered]
  exact List.mem_cons_self

/-- The header as the scan takes it. -/
structure Read (ban : Option (Bytes → Bool)) (p : HttpPacket) (m : MessageHeader) : Prop where
  start : 0 < headerStart p
  ending : headerEnd ban p = m.octets.length
  lengths : ∀ l ∈ headerLines p, l.2.1 = .contentLength → stoi l.2.2 = intOf m.length
  some_length : ∃ l ∈ headerLines p, l.2.1 = .contentLength

theorem header_read {ban : Option (Bytes → Bool)} (readable : m.Readable)
    (payload : p.payload = m.octets ++ body) (kept : ¬∃ l ∈ headerLines p, BannedHost ban l) :
    Read ban p m := by
  have split : p.payload = m.first.octets ++ (m.block.octets ++ body) := by
    rw [payload, MessageHeader.octets, List.append_assoc]
  have start := first_headerStart readable.clear split
  have long := length_block m
  have whole : p.payload.length = m.first.octets.length + (m.block.octets.length + body.length) := by
    rw [split, List.length_append, List.length_append]
  have positive : 0 < headerStart p := by
    rw [start]
    exact first_filled m.first
  have both : 0 < headerStart p ∧ headerStart p + 4 < p.payload.length := ⟨positive, by omega⟩
  have rest : p.payload.drop (headerStart p) = m.block.octets ++ body := by
    rw [start, split, List.drop_left]
  have found : headerLines p = seenLines 0 .fresh (stretches m.block.lines) := by
    rw [headerLines_long both.1 both.2, rest]
    exact lines_block m.block body (Or.inl readable.ends)
  have named : ∀ s ∈ stretches m.block.lines,
      ∃ name value, splitColon s.text = some (name, value) ∧ name ≠ [] := by
    intro s member
    obtain ⟨f, -, -, split⟩ := stretch_field member
    exact ⟨_, _, split, f.named⟩
  refine ⟨positive, ?_, ?_, ?_⟩
  · unfold headerEnd
    rw [if_pos both, (bannedAt_none_iff ban _).mpr kept, rest, start, ← (scan_text _).2,
      (block_read m.block body readable.ends).2, Option.getD_none, MessageHeader.octets,
      List.length_append]
  · intro l member length
    rw [found] at member
    obtain ⟨s, inside, j, seen⟩ := seenLines_mem named 0 member
    exact seen_length readable inside seen length
  · obtain ⟨s, inside, value, seen⟩ := alone_seen readable
    obtain ⟨k, member⟩ := mem_seenLines named 0 inside seen
    rw [found]
    exact ⟨_, member, rfl⟩

end AIEngine.HTTPProtocol
