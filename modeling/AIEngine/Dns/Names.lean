import AIEngine.Applications.DNSProtocol
import AIEngine.Applications.Reads

/-!
# Names of DNS messages

What the loop of `extract_domain_name` makes of the octets behind the header, and for which labels this
is their text with dots.
-/

namespace AIEngine

open Octets (ascii)

namespace DNSProtocol

variable {s : DNSProtocol} {a i : Obj} {p : L7Packet} {left offset : Nat}

def dotted (b : BitVec 8) : BitVec 8 := if b.toNat < 0x20 then 0x2e else b

/-- The octets in front of the first zero, when `left` more fit behind the first one. -/
def nameOctets : Nat → Bytes → Bytes
  | _, [] => []
  | 0, b :: _ => if b = 0 then [] else [b]
  | left + 1, b :: rest => if b = 0 then [] else b :: nameOctets left rest

theorem nameOctets_last {b : BitVec 8} (goes : b ≠ 0) (rest : Bytes) :
    nameOctets 0 (b :: rest) = [b] := if_neg goes

theorem nameOctets_cons {b : BitVec 8} (goes : b ≠ 0) (left : Nat) (rest : Bytes) :
    nameOctets (left + 1) (b :: rest) = b :: nameOctets left rest := if_neg goes

theorem nameOctets_stop (left : Nat) (rest : Bytes) : nameOctets left (0 :: rest) = [] := by
  cases left <;> rfl

theorem nameOctets_length (left : Nat) (octets : Bytes) :
    (nameOctets left octets).length ≤ left + 1 := by
  fun_induction nameOctets left octets with
  | case1 | case2 | case3 | case4 => simp
  | case5 left b rest goes ih =>
    rw [List.length_cons]
    omega

theorem nameOctets_append {body : Bytes} (goes : ∀ b ∈ body, b ≠ 0) (left : Nat) (rest : Bytes) :
    nameOctets left (body ++ 0 :: rest) = body.take (left + 1) := by
  induction body generalizing left with
  | nil => exact nameOctets_stop left rest
  | cons b body ih =>
    have first := goes b (by simp)
    cases left with
    | zero => exact nameOctets_last first _
    | succ left =>
      rw [List.cons_append, nameOctets_cons first, ih (fun c member => goes c (by simp [member]))]
      rfl

/-- What the loop returns, by the octets it has taken. -/
def nameEnd (left offset : Nat) (name octets : Bytes) : Except Failure (Bytes × Nat × Bool) :=
  if name.length = left + 1 then .ok (name.map dotted, offset + left + 1, true)
  else if name.length < octets.length then .ok (name.map dotted, offset + name.length, false)
  else .error (.fault .outOfBounds)

theorem nameEnd_cons (left offset : Nat) (b : BitVec 8) (name octets : Bytes) :
    nameEnd (left + 1) offset (b :: name) (b :: octets) = (do
      let (rest, last, long) ← nameEnd left (offset + 1) name octets
      .ok (dotted b :: rest, last, long)) := by
  unfold nameEnd
  simp only [List.length_cons, Nat.add_right_cancel_iff, Nat.add_lt_add_iff_right, List.map_cons]
  have full : offset + (left + 1) + 1 = offset + 1 + left + 1 := by omega
  have stop : offset + (name.length + 1) = offset + 1 + name.length := by omega
  rw [full, stop]
  split
  · rfl
  · split <;> rfl

/-- The loop stops behind the last octet that fits, or at a zero octet. -/
theorem nameLoop_eq (p : L7Packet) (left offset : Nat) {octets : Bytes}
    (behind : p.memory.drop (12 + offset) = octets) :
    nameLoop p left offset = nameEnd left offset (nameOctets left octets) octets := by
  induction left generalizing offset octets with
  | zero =>
    unfold nameLoop
    cases octets with
    | nil =>
      have short : p.memory.length ≤ 12 + offset := List.drop_eq_nil_iff.mp behind
      rw [headerSize, HttpPacket.byte_outside short]
      rfl
    | cons b rest =>
      rw [headerSize, HttpPacket.byte_of_drop behind]
      simp only [bind, Except.bind]
      by_cases stop : b = 0
      · subst stop
        rfl
      · rw [if_neg stop, nameOctets_last stop]
        rfl
  | succ left ih =>
    unfold nameLoop
    cases octets with
    | nil =>
      have short : p.memory.length ≤ 12 + offset := List.drop_eq_nil_iff.mp behind
      rw [headerSize, HttpPacket.byte_outside short]
      rfl
    | cons b rest =>
      rw [headerSize, HttpPacket.byte_of_drop behind]
      by_cases stop : b = 0
      · subst stop
        rfl
      · have next : p.memory.drop (12 + (offset + 1)) = rest := by
          rw [← Nat.add_assoc, ← List.drop_drop, behind, List.drop_one, List.tail_cons]
        rw [nameOctets_cons stop, nameEnd_cons, ← ih (offset + 1) next]
        simp only [bind, Except.bind]
        rw [if_neg stop]
        rfl

theorem skipName_nameLoop (p : L7Packet) (left offset : Nat) :
    skipName p left offset =
      (nameLoop p left offset).map fun r => if r.2.2 then none else some r.2.1 := by
  induction left generalizing offset with
  | zero =>
    unfold skipName nameLoop
    cases p.byte (headerSize + offset) with
    | error e => rfl
    | ok b =>
      simp only [bind, Except.bind]
      by_cases stop : b = 0
      · rw [if_pos stop, if_pos stop]
        rfl
      · rw [if_neg stop, if_neg stop]
        rfl
  | succ left ih =>
    unfold skipName nameLoop
    cases p.byte (headerSize + offset) with
    | error e => rfl
    | ok b =>
      simp only [bind, Except.bind]
      by_cases stop : b = 0
      · rw [if_pos stop, if_pos stop]
        rfl
      · rw [if_neg stop, if_neg stop, ih]
        cases nameLoop p left (offset + 1) <;> rfl

/-! ### The name of a message -/

def nameOf (p : L7Packet) : Bytes := nameOctets 126 (p.memory.drop 13)

/-- They are there, and so is the zero behind them when more would fit. -/
def NameInside (p : L7Packet) : Prop :=
  (nameOf p).length = 127 ∨ 13 + (nameOf p).length < p.memory.length

instance (p : L7Packet) : Decidable (NameInside p) := inferInstanceAs (Decidable (_ ∨ _))

theorem nameOf_length (p : L7Packet) : (nameOf p).length ≤ 127 := nameOctets_length 126 _

theorem name_inside (inside : NameInside p) :
    nameLoop p (maxDnsBufferName - 2) 1 =
      .ok ((nameOf p).map dotted, 1 + (nameOf p).length, decide ((nameOf p).length = 127)) := by
  rw [nameLoop_eq p _ 1 rfl]
  change nameEnd 126 1 (nameOf p) (p.memory.drop 13) = _
  unfold nameEnd
  by_cases full : (nameOf p).length = 127
  · rw [if_pos full, decide_eq_true full, full]
  · have later : 13 + (nameOf p).length < p.memory.length := inside.resolve_left full
    rw [if_neg full, if_pos (by rw [List.length_drop]; omega), decide_eq_false full]

theorem name_outside (outside : ¬NameInside p) :
    nameLoop p (maxDnsBufferName - 2) 1 = .error (.fault .outOfBounds) := by
  obtain ⟨short, missing⟩ := not_or.mp outside
  rw [nameLoop_eq p _ 1 rfl]
  change nameEnd 126 1 (nameOf p) (p.memory.drop 13) = _
  unfold nameEnd
  rw [if_neg short, if_neg (by rw [List.length_drop]; omega)]

theorem extractDomainName_inside (s : DNSProtocol) (a : Obj) (inside : NameInside p) :
    extractDomainName s a p = .ok ((nameOf p).map dotted, 1 + (nameOf p).length,
      if (nameOf p).length = 127 then s.noteAnomaly a .dnsLongName else s) := by
  unfold extractDomainName
  rw [name_inside inside]
  simp only [bind, Except.bind, decide_eq_true_eq]

theorem extractDomainName_outside (s : DNSProtocol) (a : Obj) (outside : ¬NameInside p) :
    extractDomainName s a p = .error (.fault .outOfBounds) := by
  unfold extractDomainName
  rw [name_outside outside]
  rfl

def nameText (p : L7Packet) : Bytes :=
  if (nameOf p).length = 0 then ascii "<Root>" else (nameOf p).map dotted

/-- Where the type of the query is looked for. -/
def typeOffset (p : L7Packet) : Nat :=
  if (nameOf p).length = 0 then 0 else 1 + (nameOf p).length

theorem question_eq (p : L7Packet) :
    question p ((nameOf p).map dotted) (1 + (nameOf p).length) = (do
      let qtype ← p.word (12 + typeOffset p + 1)
      .ok (nameText p, typeOffset p, qtype)) := by
  unfold question nameText typeOffset
  by_cases root : (nameOf p).length = 0
  · simp only [root, if_true]
    rfl
  · have other : 1 + (nameOf p).length ≠ 1 := by omega
    simp only [root, other, if_false]
    rw [if_neg (by omega)]
    rfl

/-- The domain that `handle_standard_query` goes on with. -/
def queryDomain (s : DNSProtocol) (a : Obj) (p : L7Packet) : Except Failure Bytes := do
  let (name, offset, _) ← extractDomainName s a p
  let (domain, _, _) ← question p name offset
  .ok domain

theorem queryDomain_inside (s : DNSProtocol) (a : Obj) (inside : NameInside p)
    (type : 15 + typeOffset p ≤ p.memory.length) : queryDomain s a p = .ok (nameText p) := by
  have read := HttpPacket.word_inside (p := p) (k := 12 + typeOffset p + 1) (by omega)
  unfold queryDomain
  rw [extractDomainName_inside s a inside]
  simp only [bind, Except.bind, question_eq, read]

theorem queryDomain_ok {d : Bytes} (found : queryDomain s a p = .ok d) : d = nameText p := by
  by_cases inside : NameInside p
  · unfold queryDomain at found
    rw [extractDomainName_inside s a inside] at found
    simp only [bind, Except.bind, question_eq] at found
    cases read : p.word (12 + typeOffset p + 1) with
    | error e =>
      rw [read] at found
      exact absurd found (by simp)
    | ok qtype =>
      rw [read] at found
      exact (Except.ok.inj found).symm
  · unfold queryDomain at found
    rw [extractDomainName_outside s a inside] at found
    exact absurd found (by simp [bind, Except.bind])

/-- The anomalies that a query leaves with the flow. -/
def noteQuery (s : DNSProtocol) (a : Obj) (p : L7Packet) : DNSProtocol :=
  let s := if (nameOf p).length = 127 then s.noteAnomaly a .dnsLongName else s
  if p.payload.length < 12 + typeOffset p then s.noteAnomaly a .dnsBogusHeader else s

theorem handleStandardQuery_eq {qtype : Nat} (s : DNSProtocol) (a i : Obj) (inside : NameInside p)
    (read : p.word (12 + typeOffset p + 1) = .ok qtype) :
    handleStandardQuery s a i p =
      if (noteQuery s a p).isBanDomain (nameText p) then .ok (noteQuery s a p).countBan
      else attachDnsToFlow (noteQuery s a p).countAllow i (nameText p) qtype := by
  unfold handleStandardQuery
  rw [extractDomainName_inside s a inside]
  simp only [bind, Except.bind, question_eq, read]
  rfl

theorem handleStandardQuery_outside (s : DNSProtocol) (a i : Obj)
    (outside : ¬(NameInside p ∧ 15 + typeOffset p ≤ p.memory.length)) :
    handleStandardQuery s a i p = .error (.fault .outOfBounds) := by
  unfold handleStandardQuery
  by_cases inside : NameInside p
  · have short : p.memory.length < 12 + typeOffset p + 1 + 2 := by
      have type := not_and.mp outside inside
      omega
    rw [extractDomainName_inside s a inside]
    simp only [bind, Except.bind, question_eq, HttpPacket.word_outside short]
  · rw [extractDomainName_outside s a inside]
    rfl

/-! ### Labels -/

def IsHostOctet (b : BitVec 8) : Prop :=
  (0x61 ≤ b ∧ b ≤ 0x7a) ∨ (0x41 ≤ b ∧ b ≤ 0x5a) ∨ (0x30 ≤ b ∧ b ≤ 0x39) ∨ b = 0x2d ∨ b = 0x5f

instance (b : BitVec 8) : Decidable (IsHostOctet b) := inferInstanceAs (Decidable (_ ∨ _))

structure Label where
  text : Bytes
  nonempty : 1 ≤ text.length
  short : text.length ≤ 63
  octets : ∀ b ∈ text, IsHostOctet b

def Label.lengthOctet (l : Label) : BitVec 8 := BitVec.ofNat 8 l.text.length

def encodeLabels : List Label → Bytes
  | [] => []
  | l :: labels => l.lengthOctet :: (l.text ++ encodeLabels labels)

def joined : List Label → Bytes
  | [] => []
  | [l] => l.text
  | l :: m :: labels => l.text ++ 0x2e :: joined (m :: labels)

/-- A message with a question for these labels. -/
structure Asks (p : L7Packet) (labels : List Label) : Prop where
  encoded : ∃ header rest, header.length = 12 ∧ 4 ≤ rest.length ∧
    p.payload = header ++ (encodeLabels labels ++ 0 :: rest)

theorem hostOctet_printable {b : BitVec 8} (host : IsHostOctet b) : 0x20 ≤ b.toNat := by
  unfold IsHostOctet at host
  simp only [BitVec.le_def] at host
  rcases host with ⟨low, -⟩ | ⟨low, -⟩ | ⟨low, -⟩ | rfl | rfl
  · exact Nat.le_trans (by decide) low
  · exact Nat.le_trans (by decide) low
  · exact Nat.le_trans (by decide) low
  · decide
  · decide

theorem dotted_host {b : BitVec 8} (host : IsHostOctet b) : dotted b = b := by
  have printable := hostOctet_printable host
  exact if_neg (by omega)

theorem Label.lengthOctet_toNat (l : Label) : l.lengthOctet.toNat = l.text.length := by
  have short := l.short
  unfold Label.lengthOctet
  rw [BitVec.toNat_ofNat]
  omega

/-- The length of a label is taken for a dot when it is no character, and when it is a dot. -/
theorem dotted_lengthOctet (l : Label) :
    dotted l.lengthOctet = 0x2e ↔ l.text.length < 32 ∨ l.text.length = 46 := by
  have value := l.lengthOctet_toNat
  unfold dotted
  by_cases control : l.lengthOctet.toNat < 0x20
  · rw [if_pos control]
    exact iff_of_true rfl (.inl (by omega))
  · rw [if_neg control]
    constructor
    · intro dot
      rw [dot] at value
      exact .inr value.symm
    · intro either
      apply BitVec.eq_of_toNat_eq
      change _ = 46
      omega

theorem Label.dotted_text (l : Label) : l.text.map dotted = l.text := by
  conv_rhs => rw [← List.map_id l.text]
  exact List.map_congr_left fun b member => dotted_host (l.octets b member)

theorem encodeLabels_nonzero (labels : List Label) : ∀ b ∈ encodeLabels labels, b ≠ 0 := by
  induction labels with
  | nil => simp [encodeLabels]
  | cons l labels ih =>
    intro b member
    rw [encodeLabels, List.mem_cons, List.mem_append] at member
    rcases member with rfl | inText | later
    · intro zero
      have value := l.lengthOctet_toNat
      have nonempty := l.nonempty
      rw [zero] at value
      simp at value
      omega
    · intro zero
      have printable := hostOctet_printable (l.octets b inText)
      rw [zero] at printable
      exact absurd printable (by decide)
    · exact ih b later

theorem joined_length (l : Label) (labels : List Label) :
    (joined (l :: labels)).length = (l.text ++ encodeLabels labels).length := by
  induction labels generalizing l with
  | nil => simp [joined, encodeLabels]
  | cons m labels ih =>
    simp only [joined, encodeLabels, List.length_append, List.length_cons] at ih ⊢
    rw [ih m]

theorem dotted_joined (l : Label) (labels : List Label) :
    (l.text ++ encodeLabels labels).map dotted = joined (l :: labels) ↔
      ∀ m ∈ labels, m.text.length < 32 ∨ m.text.length = 46 := by
  induction labels generalizing l with
  | nil => simp [joined, encodeLabels, l.dotted_text]
  | cons m labels ih =>
    rw [joined, encodeLabels, List.map_append, l.dotted_text, List.append_cancel_left_eq,
      List.map_cons, List.cons.injEq, ih m, dotted_lengthOctet]
    simp

theorem nameText_nonempty (p : L7Packet) : nameText p ≠ [] := by
  unfold nameText
  split
  · decide
  · rename_i some
    intro none
    rw [List.map_eq_nil_iff] at none
    rw [none] at some
    exact some rfl

theorem memory_labels {l : Label} {labels : List Label} (asks : Asks p (l :: labels)) :
    nameOf p = (l.text ++ encodeLabels labels).take 127 ∧
      17 + (l.text ++ encodeLabels labels).length < p.memory.length := by
  obtain ⟨header, rest, twelve, four, encoded⟩ := asks.encoded
  have goes : ∀ b ∈ l.text ++ encodeLabels labels, b ≠ 0 := by
    intro b member
    apply encodeLabels_nonzero (l :: labels)
    rw [encodeLabels]
    exact List.mem_cons_of_mem _ member
  have memory : p.memory = header ++ (l.lengthOctet ::
      ((l.text ++ encodeLabels labels) ++ 0 :: (rest ++ p.beyond))) := by
    unfold HttpPacket.memory
    rw [encoded, encodeLabels]
    simp only [List.append_assoc, List.cons_append]
  constructor
  · unfold nameOf
    have behind : p.memory.drop 13 = (l.text ++ encodeLabels labels) ++ 0 :: (rest ++ p.beyond) := by
      have place : 13 = header.length + 1 := by omega
      rw [memory, place, List.drop_length_add_append, List.drop_one, List.tail_cons]
    rw [behind, nameOctets_append goes]
  · rw [memory]
    simp only [List.length_append, List.length_cons]
    omega

/-- A name is understood when no label behind the first has a length that is a character, unless it
is the dot. -/
theorem queryDomain_iff {labels : List Label} (asks : Asks p labels) :
    queryDomain s a p = .ok (joined labels) ↔ labels ≠ [] ∧ (joined labels).length ≤ 127 ∧
      ∀ l ∈ labels.tail, l.text.length < 32 ∨ l.text.length = 46 := by
  cases labels with
  | nil =>
    refine iff_of_false (fun found => ?_) fun h => h.1 rfl
    exact nameText_nonempty p (queryDomain_ok found).symm
  | cons l labels =>
    obtain ⟨name, long⟩ := memory_labels asks
    have nonempty := l.nonempty
    have total := joined_length l labels
    rw [and_iff_right (by simp), List.tail_cons, ← dotted_joined l labels, total]
    have some : 1 ≤ (l.text ++ encodeLabels labels).length := by
      rw [List.length_append]
      omega
    generalize l.text ++ encodeLabels labels = octets at name long total some
    have taken : (nameOf p).length = min 127 octets.length := by
      rw [name, List.length_take]
    have text : nameText p = (octets.take 127).map dotted := by
      unfold nameText
      rw [if_neg (by omega), name]
    by_cases fits : octets.length ≤ 127
    · have inside : NameInside p := by
        unfold NameInside
        omega
      have type : 15 + typeOffset p ≤ p.memory.length := by
        unfold typeOffset
        rw [if_neg (by omega)]
        omega
      rw [queryDomain_inside s a inside type, text, List.take_of_length_le fits,
        and_iff_right fits]
      exact ⟨Except.ok.inj, congrArg Except.ok⟩
    · refine iff_of_false (fun found => ?_) fun h => fits h.1
      have lengths := congrArg List.length ((queryDomain_ok found).trans text)
      rw [total, List.length_map, List.length_take] at lengths
      omega

def longLabels : List Label :=
  [{ text := ascii "a", nonempty := by decide, short := by decide, octets := by decide },
    { text := List.replicate 32 0x78, nonempty := by decide, short := by decide,
      octets := by decide }]

def longLabelQuery : L7Packet where
  payload := [0, 1, 1, 0, 0, 1, 0, 0, 0, 0, 0, 0] ++ (encodeLabels longLabels ++ 0 :: [0, 1, 0, 1])
  direction := .forward

theorem asks_longLabels : Asks longLabelQuery longLabels :=
  ⟨_, _, rfl, by decide, rfl⟩

/-- The protocol before its first packet. -/
def new (objects : CacheId → Nat) : DNSProtocol :=
  { world := World.start objects none, infos := fun _ => {}, own := () }

theorem queryDomain_iff_longLabels :
    queryDomain (new fun _ => 0) ⟨.info .dns, 0⟩ longLabelQuery = .ok (joined longLabels) ↔
      longLabels ≠ [] ∧ (joined longLabels).length ≤ 127 ∧
        ∀ l ∈ longLabels.tail, l.text.length < 32 ∨ l.text.length = 46 :=
  queryDomain_iff asks_longLabels

theorem not_queryDomain :
    ¬∀ (s : DNSProtocol) (a : Obj) (p : L7Packet) (labels : List Label), labels ≠ [] →
      Asks p labels → (joined labels).length < 128 → queryDomain s a p = .ok (joined labels) := by
  intro all
  have found := all (new fun _ => 0) ⟨.info .dns, 0⟩ longLabelQuery longLabels
    (by simp [longLabels]) asks_longLabels (by decide)
  have text := queryDomain_ok found
  exact absurd text (by decide)

end DNSProtocol

end AIEngine
