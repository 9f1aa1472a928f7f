import AIEngine.Applications.Infos
import AIEngine.Dns.Bounds

/-!
# Responses with answers

For which responses the addresses that are left with the info are those of the answers.
-/

namespace AIEngine

open HttpPacket (octets16 octets16_toNat wordAt_drop)

open Ending World

namespace DNSProtocol

variable {s t : DNSProtocol} {a i : Obj} {p : L7Packet} {ptr k : Nat} {labels : List Label}

/-- Labels, and behind them a pointer to other ones or the zero octet. -/
structure Owner where
  labels : List Label
  pointer : Option (BitVec 14)

def Owner.encode (o : Owner) : Bytes :=
  encodeLabels o.labels ++
    match o.pointer with
    | some place => octets16 ((3 : BitVec 2) ++ place)
    | none => [0]

structure Answer where
  owner : Owner
  type : BitVec 16
  classType : BitVec 16
  ttl : BitVec 32
  data : Bytes
  short : data.length < 2 ^ 16
  four : classType = 1 → type = 1 → data.length = 4
  sixteen : classType = 1 → type = 0x1c → data.length = 16

namespace Answer

variable {r : Answer} {answers : List Answer}

def fields (r : Answer) : Bytes :=
  octets16 r.type ++ octets16 r.classType ++ octets16 (r.ttl.extractLsb' 16 16) ++
    octets16 (r.ttl.extractLsb' 0 16) ++ octets16 (BitVec.ofNat 16 r.data.length)

def encode (r : Answer) : Bytes := r.owner.encode ++ (r.fields ++ r.data)

def encodeAll : List Answer → Bytes
  | [] => []
  | r :: answers => r.encode ++ encodeAll answers

def IsAddress (r : Answer) : Prop := r.classType = 1 ∧ (r.type = 1 ∨ r.type = 0x1c)

instance (r : Answer) : Decidable r.IsAddress := inferInstanceAs (Decidable (_ ∧ _))

def addresses : List Answer → List Bytes
  | [] => []
  | r :: answers => (if r.IsAddress then [r.data] else []) ++ addresses answers

end Answer

open Answer (encodeAll addresses)

/-- A response with one question and these answers. -/
structure Responds (p : L7Packet) (labels : List Label) (answers : List Answer) : Prop where
  response : 0x8000 ≤ p.wordAt 2
  questions : p.wordAt 4 = 1
  counted : answers.length < 2 ^ 16
  encoded : ∃ header question rest, header.length = 12 ∧ question.length = 4 ∧
    (header.drop 6).take 2 = octets16 (BitVec.ofNat 16 answers.length) ∧
    p.payload = header ++ (encodeLabels labels ++ 0 :: (question ++ (encodeAll answers ++ rest)))

/-- There are labels, and the owners take two octets: pointers. -/
def Synchronised (labels : List Label) (answers : List Answer) : Prop :=
  labels ≠ [] ∧ ∀ r ∈ answers, r.owner.encode.length = 2

/-- The addresses of the info that the flow has. -/
def ipsOf (s : DNSProtocol) (a : Obj) : List Bytes :=
  match s.world.lockInfo .dns (s.world.flows a) with
  | some i => (s.infos i).ips
  | none => []

/-- The name that is looked for among the domains. -/
def flowName (s : DNSProtocol) (a : Obj) (p : L7Packet) : Bytes :=
  match s.world.lockInfo .dns (s.world.flows a) with
  | some i => responseText s i p
  | none => nameText p

def AddsAddresses (s : DNSProtocol) (a : Obj) (p : L7Packet) (answers : List Answer) : Prop :=
  ∃ t, processFlow s a p = .ok t ∧ ipsOf t a = ipsOf s a ++ addresses answers

/-- What `handle_standard_response` has to do for it. -/
def LeavesAddresses (s : DNSProtocol) (a i : Obj) (p : L7Packet) (answers : List Answer) : Prop :=
  ∃ t, handleStandardResponse s a i p = .ok t ∧
    (t.infos i).ips = (s.infos i).ips ++ addresses answers

/-- The answers of the response are walked over: the flow has an info or can get one, the response is
one to a recursive query from a server that recurses, and the name is not taken for too long. -/
def Walked (s : DNSProtocol) (a : Obj) (p : L7Packet) (labels : List Label)
    (answers : List Answer) : Prop :=
  Inspector.Informs .dns s a ∧ p.wordAt 2 &&& standardResponse = standardResponse ∧
    answers ≠ [] ∧ (joined labels).length ≤ 126

/-- A walk has to be synchronised, and without one there must be no address. -/
def Extracts (s : DNSProtocol) (a : Obj) (p : L7Packet) (labels : List Label)
    (answers : List Answer) : Prop :=
  (Walked s a p labels answers → Synchronised labels answers) ∧
    (¬Walked s a p labels answers → addresses answers = [])

/-! ### One answer -/

/-- The fields of an answer whose owner takes two octets. -/
theorem answer_fields {r : Answer} {rest : Bytes} (two : r.owner.encode.length = 2)
    (stands : p.memory.drop ptr = r.encode ++ rest) :
    p.wordAt (ptr + 2) = r.type.toNat ∧ p.wordAt (ptr + 4) = r.classType.toNat ∧
      p.wordAt (ptr + 10) = r.data.length ∧ p.memory.drop (ptr + 12) = r.data ++ rest := by
  obtain ⟨x, y, owner⟩ := List.length_eq_two.mp two
  have short := r.short
  have stands : p.memory.drop ptr = x :: y :: (r.fields ++ (r.data ++ rest)) := by
    rw [stands, Answer.encode, owner]
    simp
  refine ⟨?_, ?_, ?_, ?_⟩
  · rw [wordAt_drop, stands]
    exact octets16_toNat r.type
  · rw [wordAt_drop, stands]
    exact octets16_toNat r.classType
  · rw [wordAt_drop, stands]
    have length := octets16_toNat (BitVec.ofNat 16 r.data.length)
    rw [BitVec.toNat_ofNat, Nat.mod_eq_of_lt short] at length
    exact length
  · rw [← List.drop_drop, stands]
    rfl

theorem hasAddress_iff {r : Answer} {rest : Bytes} (two : r.owner.encode.length = 2)
    (stands : p.memory.drop ptr = r.encode ++ rest) : HasAddress p ptr ↔ r.IsAddress := by
  obtain ⟨type, classType, length, -⟩ := answer_fields two stands
  have value (x : BitVec 16) (n : Nat) (small : n < 2 ^ 16) :
      x.toNat = n ↔ x = BitVec.ofNat 16 n := by
    rw [BitVec.toNat_eq, BitVec.toNat_ofNat, Nat.mod_eq_of_lt small]
  unfold HasAddress Answer.IsAddress
  rw [type, classType, length, value _ 1 (by decide), value _ 1 (by decide),
    value _ 0x1c (by decide)]
  constructor
  · rintro ⟨inClass, ⟨first, -⟩ | ⟨second, -⟩⟩
    · exact ⟨inClass, .inl first⟩
    · exact ⟨inClass, .inr second⟩
  · rintro ⟨inClass, first | second⟩
    · exact ⟨inClass, .inl ⟨first, r.four inClass first⟩⟩
    · exact ⟨inClass, .inr ⟨second, r.sixteen inClass second⟩⟩

/-- The walk goes from answer to answer. -/
theorem answers_synchronised {answers : List Answer} {rest : Bytes}
    (two : ∀ r ∈ answers, r.owner.encode.length = 2)
    (stands : p.memory.drop ptr = encodeAll answers ++ rest) (inside : ptr ≤ p.memory.length) :
    AnswersInside p answers.length ptr ∧
      answerAddresses p answers.length ptr = addresses answers := by
  induction answers generalizing ptr with
  | nil => exact ⟨trivial, rfl⟩
  | cons r answers ih =>
    have first := two r (by simp)
    rw [encodeAll, List.append_assoc] at stands
    obtain ⟨-, -, length, data⟩ := answer_fields first stands
    have has := hasAddress_iff first stands
    have whole : ptr + 12 + r.data.length ≤ p.memory.length := by
      have lengths := congrArg List.length stands
      simp only [List.length_drop, List.length_append, Answer.encode, Answer.fields, octets16,
        List.length_cons, List.length_nil, first] at lengths
      omega
    have behind : p.memory.drop (ptr + 12 + r.data.length) = encodeAll answers ++ rest := by
      rw [← List.drop_drop, data, List.drop_left]
    obtain ⟨later, found⟩ := ih (fun q member => two q (by simp [member])) behind whole
    constructor
    · refine ⟨by omega, fun _ => ?_, ?_⟩
      · rw [length]
        exact whole
      · rw [length]
        exact later
    · rw [List.length_cons, answerAddresses, length, found, data, List.take_left, addresses]
      by_cases address : r.IsAddress
      · rw [if_pos (has.mpr address), if_pos address]
      · rw [if_neg fun h => address (has.mp h), if_neg address]

/-! ### The whole response -/

theorem asks_of_responds {answers : List Answer} (responds : Responds p labels answers) :
    Asks p labels := by
  obtain ⟨header, question, rest, twelve, four, -, encoded⟩ := responds.encoded
  refine ⟨header, question ++ (encodeAll answers ++ rest), twelve, ?_, encoded⟩
  rw [List.length_append]
  omega

theorem answers_count {answers : List Answer} (responds : Responds p labels answers) :
    p.wordAt 6 = answers.length := by
  obtain ⟨header, question, rest, twelve, -, count, encoded⟩ := responds.encoded
  have counted := responds.counted
  have counts : p.memory.drop 6 = octets16 (BitVec.ofNat 16 answers.length) ++
      (header.drop 8 ++ (p.memory.drop 12)) := by
    have first : header.drop 6 = octets16 (BitVec.ofNat 16 answers.length) ++ header.drop 8 := by
      rw [← count]
      exact (List.take_append_drop 2 (header.drop 6)).symm.trans
        (by rw [List.drop_drop])
    unfold HttpPacket.memory
    rw [encoded]
    simp only [List.append_assoc]
    rw [List.drop_append_of_le_length (by omega), first, ← twelve, List.drop_left, List.append_assoc]
  rw [wordAt_drop p 6 0, counts]
  have value := octets16_toNat (BitVec.ofNat 16 answers.length)
  rw [BitVec.toNat_ofNat, Nat.mod_eq_of_lt counted] at value
  exact value

theorem answers_start {answers : List Answer} (responds : Responds p labels answers)
    (name : (nameOf p).length + 1 = (encodeLabels labels).length) :
    18 + (nameOf p).length ≤ p.memory.length ∧
      ∃ rest, p.memory.drop (18 + (nameOf p).length) = encodeAll answers ++ rest := by
  obtain ⟨header, question, rest, twelve, four, -, encoded⟩ := responds.encoded
  have memory : p.memory = (header ++ encodeLabels labels ++ 0 :: question) ++
      (encodeAll answers ++ (rest ++ p.beyond)) := by
    unfold HttpPacket.memory
    rw [encoded]
    simp only [List.append_assoc, List.cons_append]
  have place : 18 + (nameOf p).length = (header ++ encodeLabels labels ++ 0 :: question).length := by
    simp only [List.length_append, List.length_cons]
    omega
  refine ⟨?_, rest ++ p.beyond, ?_⟩
  · rw [place, memory]
    exact (List.prefix_append _ _).length_le
  · rw [place, memory, List.drop_left]

theorem name_of_labels {answers : List Answer} (responds : Responds p labels answers)
    (some : labels ≠ []) :
    (nameOf p).length = min 127 (joined labels).length ∧
      (joined labels).length + 1 = (encodeLabels labels).length := by
  cases labels with
  | nil => exact absurd rfl some
  | cons l labels =>
    obtain ⟨name, -⟩ := memory_labels (asks_of_responds responds)
    rw [joined_length l labels, name, List.length_take, encodeLabels, List.length_cons]
    exact ⟨rfl, rfl⟩

/-- The two walks over a name that fits, and the answers behind it. -/
theorem leavesAddresses {answers : List Answer} (a : Obj) (filled : s.world.Filled)
    (responds : Responds p labels answers) (known : Known s (responseText s i p))
    (short : (joined labels).length ≤ 126) (synchronised : Synchronised labels answers) :
    LeavesAddresses s a i p answers := by
  obtain ⟨some, two⟩ := synchronised
  obtain ⟨name, encoded⟩ := name_of_labels responds some
  have count := answers_count responds
  obtain ⟨inside, rest, stands⟩ := answers_start responds (by omega)
  obtain ⟨walk, found⟩ := answers_synchronised two stands inside
  have question : QuestionInside p := by
    unfold QuestionInside typeOffset
    split <;> omega
  obtain ⟨t, named, domains, ips⟩ := responseName_ok a filled fun _ => question
  rw [← count] at walk found
  obtain ⟨u, walked, -, -, added⟩ := answerLoop_inside i t _ walk
  refine ⟨u, ?_, ?_⟩
  · unfold handleStandardResponse
    rw [named]
    simp only [bind, Except.bind]
    unfold Known at known
    rw [domains, if_pos known, extractAddresses_eq t a i (by omega) (nameInside_of_question question),
      if_neg (by omega), walked]
  · rw [added, ips, found]

theorem noteAnomaly_infos (s : DNSProtocol) (a : Obj) (pa : PacketAnomalyType) :
    (s.noteAnomaly a pa).infos = s.infos := by
  unfold Inspector.noteAnomaly
  split <;> rfl

/-- Behind a name of 127 octets or more there is no walk. -/
theorem leavesAddresses_long {answers : List Answer} (a : Obj) (filled : s.world.Filled)
    (responds : Responds p labels answers) (known : Known s (responseText s i p))
    (long : 127 ≤ (joined labels).length) :
    LeavesAddresses s a i p answers ↔ addresses answers = [] := by
  have some : labels ≠ [] := by
    rintro rfl
    exact absurd long (by decide)
  obtain ⟨name, encoded⟩ := name_of_labels responds some
  have full : (nameOf p).length = 127 := by omega
  have question : QuestionInside p := by
    obtain ⟨header, question, rest, twelve, four, -, encoded'⟩ := responds.encoded
    have memory := congrArg List.length encoded'
    have inside := HttpPacket.payload_le_memory p
    simp only [List.length_append, List.length_cons] at memory
    unfold QuestionInside typeOffset
    split <;> omega
  have inside := nameInside_of_question question
  have eight : 8 ≤ p.memory.length := by
    unfold QuestionInside at question
    omega
  obtain ⟨t, named, domains, ips⟩ := responseName_ok a filled fun _ => question
  have handled : handleStandardResponse s a i p = .ok (t.noteAnomaly a .dnsLongName) := by
    unfold handleStandardResponse
    rw [named]
    simp only [bind, Except.bind]
    unfold Known at known
    rw [domains, if_pos known, extractAddresses_eq t a i eight inside, if_pos full]
  unfold LeavesAddresses
  rw [handled]
  simp only [Except.ok.injEq, exists_eq_left', noteAnomaly_infos, ips, List.self_eq_append_right]

/-! ### Other owners -/

theorem encodeLabels_head (l : Label) (labels : List Label) :
    ∃ b rest, encodeLabels (l :: labels) = b :: rest ∧ b ≠ 0 :=
  ⟨_, _, rfl, encodeLabels_nonzero (l :: labels) _ (by simp [encodeLabels])⟩

/-- Such an owner is the root, or a single letter, or has no zero in its third octet. -/
theorem owner_octets {o : Owner} (other : o.encode.length ≠ 2) :
    o.encode = [0] ∨ (∃ x y, o.encode = [x, y, 0]) ∨
      ∃ x y z rest, o.encode = x :: y :: z :: rest ∧ z ≠ 0 := by
  obtain ⟨labels, pointer⟩ := o
  unfold Owner.encode at other ⊢
  cases labels with
  | nil =>
    cases pointer with
    | none => exact .inl rfl
    | some place => exact absurd rfl other
  | cons l labels =>
    have nonzero := encodeLabels_nonzero (l :: labels)
    have nonempty := l.nonempty
    rw [encodeLabels] at nonzero ⊢
    cases text : l.text with
    | nil =>
      rw [text] at nonempty
      exact absurd nonempty (by simp)
    | cons b more =>
      rw [text] at nonzero
      cases more with
      | cons c more => exact .inr (.inr ⟨_, _, _, _, rfl, nonzero c (by simp)⟩)
      | nil =>
        cases labels with
        | cons m labels =>
          obtain ⟨c, rest, head, goes⟩ := encodeLabels_head m labels
          rw [head]
          exact .inr (.inr ⟨_, _, _, _, rfl, goes⟩)
        | nil =>
          cases pointer with
          | none => exact .inr (.inl ⟨_, _, rfl⟩)
          | some place =>
            refine .inr (.inr ⟨_, _, _, _, rfl, fun zero => ?_⟩)
            have top : (((3 : BitVec 2) ++ place).extractLsb' 8 8).getLsbD 7 = true := by
              rw [BitVec.getLsbD_extractLsb', BitVec.getLsbD_append]
              rfl
            rw [zero] at top
            exact absurd top (by decide)

/-- An address behind such an owner is not seen. -/
theorem not_hasAddress {r : Answer} {rest : Bytes} (address : r.IsAddress)
    (other : r.owner.encode.length ≠ 2) (stands : p.memory.drop ptr = r.encode ++ rest) :
    ¬HasAddress p ptr := by
  rintro ⟨-, type⟩
  have type : p.wordAt (ptr + 2) = 1 ∨ p.wordAt (ptr + 2) = 0x1c := by omega
  rw [wordAt_drop, stands, Answer.encode] at type
  obtain ⟨inClass, either⟩ := address
  rcases owner_octets other with root | ⟨x, y, letter⟩ | ⟨x, y, z, more, octets, goes⟩
  · rw [root, Answer.fields, inClass] at type
    rcases either with one | two
    · rw [one] at type
      exact absurd (show 256 = 1 ∨ 256 = 0x1c from type) (by decide)
    · rw [two] at type
      exact absurd (show 7168 = 1 ∨ 7168 = 0x1c from type) (by decide)
  · rw [letter, Answer.fields] at type
    rcases either with one | two
    · rw [one] at type
      exact absurd (show 0 = 1 ∨ 0 = 0x1c from type) (by decide)
    · rw [two] at type
      exact absurd (show 0 = 1 ∨ 0 = 0x1c from type) (by decide)
  · rw [octets] at type
    change 256 * z.toNat + _ = 1 ∨ 256 * z.toNat + _ = 0x1c at type
    have positive : z.toNat ≠ 0 := fun zero => goes (BitVec.eq_of_toNat_eq zero)
    omega

theorem answerAddresses_length (p : L7Packet) (n ptr : Nat) :
    (answerAddresses p n ptr).length ≤ n := by
  induction n generalizing ptr with
  | zero => exact Nat.le_refl 0
  | succ n ih =>
    have later := ih (ptr + 12 + p.wordAt (ptr + 10))
    rw [answerAddresses, List.length_append]
    split
    · simp only [List.length_cons, List.length_nil]
      omega
    · simp only [List.length_nil]
      omega

theorem addresses_length {answers : List Answer} (all : ∀ r ∈ answers, r.IsAddress) :
    (addresses answers).length = answers.length := by
  induction answers with
  | nil => rfl
  | cons r answers ih =>
    rw [addresses, if_pos (all r (by simp)), List.length_append,
      ih fun q member => all q (by simp [member]), List.length_cons, List.length_cons,
      List.length_nil]
    omega

/-- The walk loses an address at the first such owner. -/
theorem answers_lost {answers : List Answer} {rest : Bytes} (all : ∀ r ∈ answers, r.IsAddress)
    (stands : p.memory.drop ptr = encodeAll answers ++ rest)
    (inside : AnswersInside p answers.length ptr)
    (other : ∃ r ∈ answers, r.owner.encode.length ≠ 2) :
    (answerAddresses p answers.length ptr).length < answers.length := by
  induction answers generalizing ptr with
  | nil =>
    obtain ⟨r, member, -⟩ := other
    exact absurd member (by simp)
  | cons r answers ih =>
    have address := all r (by simp)
    rw [encodeAll, List.append_assoc] at stands
    rw [List.length_cons, answerAddresses, List.length_append]
    by_cases two : r.owner.encode.length = 2
    · obtain ⟨-, -, length, data⟩ := answer_fields two stands
      have behind : p.memory.drop (ptr + 12 + p.wordAt (ptr + 10)) = encodeAll answers ++ rest := by
        rw [length, ← List.drop_drop, data, List.drop_left]
      have later : ∃ q ∈ answers, q.owner.encode.length ≠ 2 := by
        obtain ⟨q, member, wrong⟩ := other
        rcases List.mem_cons.mp member with rfl | member
        · exact absurd two wrong
        · exact ⟨q, member, wrong⟩
      have lost := ih (fun q member => all q (by simp [member])) behind inside.2.2 later
      rw [if_pos ((hasAddress_iff two stands).mpr address), List.length_cons, List.length_nil]
      omega
    · have short := answerAddresses_length p answers.length (ptr + 12 + p.wordAt (ptr + 10))
      rw [if_neg (not_hasAddress address two stands), List.length_nil]
      omega

/-- When all answers are addresses, they have to be synchronised. -/
theorem synchronised_of_leaves {answers : List Answer} (filled : s.world.Filled)
    (responds : Responds p labels answers) (known : Known s (responseText s i p))
    (some : labels ≠ []) (short : (joined labels).length ≤ 126) (all : ∀ r ∈ answers, r.IsAddress)
    (leaves : LeavesAddresses s a i p answers) : Synchronised labels answers := by
  obtain ⟨t, handled, added⟩ := leaves
  have reads : ReadsInside (handleStandardResponse s a i p) := by
    rw [handled]
    exact readsInside_ok _
  have long : 8 ≤ p.memory.length := by
    obtain ⟨header, question, rest, twelve, four, -, encoded⟩ := responds.encoded
    unfold HttpPacket.memory
    rw [encoded]
    simp only [List.length_append]
    omega
  obtain ⟨question, inside⟩ := (handleStandardResponse_reads a i filled long).mp reads
  obtain ⟨u, named, domains, ips⟩ := responseName_ok a filled question
  have walked : extractAddresses u a i p = .ok t := by
    unfold handleStandardResponse at handled
    unfold Known at known
    rw [named] at handled
    simp only [bind, Except.bind] at handled
    rwa [domains, if_pos known] at handled
  have count := congrArg List.length added
  rw [List.length_append, addresses_length all] at count
  obtain ⟨name, encoded⟩ := name_of_labels responds some
  rw [extractAddresses_eq u a i long (inside known).1, if_neg (by omega)] at walked
  refine ⟨some, ?_⟩
  have number := answers_count responds
  obtain ⟨-, rest, stands⟩ := answers_start responds (by omega)
  have inside := (inside known).2 (by omega)
  obtain ⟨t', looped, -, -, appended⟩ := answerLoop_inside i u _ inside
  obtain rfl := Except.ok.inj (looped.symm.trans walked)
  rw [appended, List.length_append, ips] at count
  by_contra wrong
  simp only [not_forall] at wrong
  obtain ⟨r, member, other⟩ := wrong
  rw [number] at inside count
  have lost := answers_lost all stands inside ⟨r, member, other⟩
  omega

/-! ### The packet -/

theorem responds_long {answers : List Answer} (responds : Responds p labels answers) :
    headerSize < p.payload.length := by
  obtain ⟨header, question, rest, twelve, -, -, encoded⟩ := responds.encoded
  rw [encoded, headerSize]
  simp only [List.length_append, List.length_cons]
  omega

theorem processMessage_response {answers : List Answer} (t : DNSProtocol) (i : Obj)
    (responds : Responds p labels answers) :
    processMessage a p t i =
      if p.wordAt 2 &&& standardResponse = standardResponse ∧ answers ≠ [] then
        handleStandardResponse t a i p
      else .ok t := by
  have long := responds_long responds
  have inside := HttpPacket.payload_le_memory p
  have response := responds.response
  unfold headerSize at long
  have noQuery : ¬(p.wordAt 2 = standardQuery ∨ p.wordAt 2 = dynamicUpdate) := by
    unfold standardQuery dynamicUpdate
    omega
  unfold processMessage
  rw [HttpPacket.word_inside (k := 2) (by omega), HttpPacket.word_inside (k := 6) (by omega),
    answers_count responds]
  simp only [bind, Except.bind, if_neg noQuery, List.length_pos_iff]
  split
  · rename_i flags
    simp only [flags, true_and]
  · rename_i flags
    simp only [flags, false_and, if_false]

/-- A packet without an info leaves everything. -/
theorem addsAddresses_uninformed {answers : List Answer} (responds : Responds p labels answers)
    (uninformed : ¬Inspector.Informs .dns s a) :
    AddsAddresses s a p answers ↔ addresses answers = [] := by
  obtain ⟨w, missed, expired⟩ := Inspector.attachInfo_misses ({} : DNSInfo) uninformed
  have before := (Classical.not_imp.mp uninformed).1
  have processed : processFlow s a p = .ok { s with world := w } := by
    unfold processFlow Inspector.withInfo
    rw [if_pos (responds_long responds), missed]
  unfold AddsAddresses ipsOf
  rw [processed, before]
  simp only [Except.ok.injEq, exists_eq_left', expired, List.nil_append]
  exact eq_comm

theorem ipsOf_locked (locked : s.world.lockInfo .dns (s.world.flows a) = some i) :
    ipsOf s a = (s.infos i).ips := by
  unfold ipsOf
  rw [locked]

/-- A packet with an info is as good as what is done with the info. -/
theorem addsAddresses_informed {answers : List Answer} (filled : s.world.Filled)
    (responds : Responds p labels answers) (known : Known s (flowName s a p))
    (informed : Inspector.Informs .dns s a) :
    ∃ i t, t.world.Filled ∧ Known t (responseText t i p) ∧
      (AddsAddresses s a p answers ↔
        if p.wordAt 2 &&& standardResponse = standardResponse ∧ answers ≠ [] then
          LeavesAddresses t a i p answers
        else addresses answers = []) := by
  obtain ⟨i, t, attached, takes⟩ := Inspector.attachInfo_takes ({} : DNSInfo) filled informed
  have after : t.world.Filled := filled_attachInfo filled takes.attached
  have locked := attachInfo_locked takes.attached
  have same : (t.infos i).ips = ipsOf s a ∧ flowName s a p = responseText t i p := by
    unfold ipsOf flowName
    cases held : s.world.lockInfo .dns (s.world.flows a) with
    | some j =>
      obtain ⟨rfl, rfl⟩ := takes.held j held
      exact ⟨rfl, rfl⟩
    | none =>
      obtain ⟨strings, info⟩ := takes.fresh held
      have unnamed : attachedName t i = none := by
        unfold attachedName
        rw [strings]
        rfl
      rw [info, responseText_none unnamed]
      exact ⟨rfl, rfl⟩
  have processed : processFlow s a p = processMessage a p t i := by
    unfold processFlow Inspector.withInfo
    rw [if_pos (responds_long responds), attached]
  refine ⟨i, t, after, ?_, ?_⟩
  · unfold Known at known ⊢
    rwa [takes.domains, ← same.2]
  · unfold AddsAddresses
    rw [processed, processMessage_response t i responds, ← same.1]
    split
    · unfold LeavesAddresses
      refine exists_congr fun u => and_congr_right fun handled => ?_
      have works := ends_value (handleStandardResponse_works (a := a) p after) handled
      have keeps := touches_keepsInfos works.touches
      have still : u.world.lockInfo .dns (u.world.flows a) = some i := by
        unfold lockInfo at locked ⊢
        rw [keeps.pools, keeps.pointers]
        exact locked
      rw [ipsOf_locked still]
    · simp only [Except.ok.injEq, exists_eq_left', ipsOf_locked locked, List.self_eq_append_right]

/-- A response that is not walked over adds nothing. -/
theorem addsAddresses_unwalked {answers : List Answer} (filled : s.world.Filled)
    (responds : Responds p labels answers) (known : Known s (flowName s a p))
    (unwalked : ¬Walked s a p labels answers) :
    AddsAddresses s a p answers ↔ addresses answers = [] := by
  by_cases informed : Inspector.Informs .dns s a
  · obtain ⟨i, t, after, known', adds⟩ := addsAddresses_informed filled responds known informed
    rw [adds]
    split
    · rename_i handled
      refine leavesAddresses_long a after responds known' ?_
      by_contra short
      exact unwalked ⟨informed, handled.1, handled.2, by omega⟩
    · exact Iff.rfl
  · exact addsAddresses_uninformed responds informed

theorem addsAddresses_walked {answers : List Answer} (filled : s.world.Filled)
    (responds : Responds p labels answers) (known : Known s (flowName s a p))
    (walked : Walked s a p labels answers) (synchronised : Synchronised labels answers) :
    AddsAddresses s a p answers := by
  obtain ⟨informed, flags, some, short⟩ := walked
  obtain ⟨i, t, after, known', adds⟩ := addsAddresses_informed filled responds known informed
  rw [adds, if_pos ⟨flags, some⟩]
  exact leavesAddresses a after responds known' short synchronised

theorem synchronised_of_adds {answers : List Answer} (adds : AddsAddresses s a p answers)
    (filled : s.world.Filled) (responds : Responds p labels answers)
    (known : Known s (flowName s a p)) (walked : Walked s a p labels answers) (named : labels ≠ [])
    (all : ∀ r ∈ answers, r.IsAddress) : Synchronised labels answers := by
  obtain ⟨informed, flags, some, short⟩ := walked
  obtain ⟨i, t, after, known', same⟩ := addsAddresses_informed filled responds known informed
  rw [same, if_pos ⟨flags, some⟩] at adds
  exact synchronised_of_leaves after responds known' named short all adds

end DNSProtocol

namespace Engine

open DNSProtocol

/-- In every state: a walk that is synchronised adds the addresses of the answers, and where the answers
are all addresses it has to be; a response without a walk is right exactly when it has no addresses. -/
theorem always_addsAddresses (objects : CacheId → Nat) (layer : Option Nat)
    (expressions : SIPExpressions) (events : List Event) :
    Transition.Always step (fun e => ∀ (a : Obj) (p : L7Packet) (labels : List Label)
        (answers : List Answer), Responds p labels answers →
        Known e.dnsProtocol (flowName e.dnsProtocol a p) →
        (Extracts e.dnsProtocol a p labels answers → AddsAddresses e.dnsProtocol a p answers) ∧
        (¬Walked e.dnsProtocol a p labels answers ∨
            (labels ≠ [] ∧ ∀ r ∈ answers, r.IsAddress) →
          AddsAddresses e.dnsProtocol a p answers → Extracts e.dnsProtocol a p labels answers))
      (start objects layer expressions) events := by
  apply Transition.always_mono _ (always_sound objects layer expressions events)
  intro e sound a p labels answers responds known
  have filled : e.dnsProtocol.world.Filled := sound.pooled.filled
  by_cases walked : Walked e.dnsProtocol a p labels answers
  · refine ⟨fun extracts => addsAddresses_walked filled responds known walked (extracts.1 walked),
      fun either adds => ?_⟩
    obtain ⟨some, all⟩ := either.resolve_left (not_not_intro walked)
    exact ⟨fun _ => synchronised_of_adds adds filled responds known walked some all,
      fun unwalked => absurd walked unwalked⟩
  · have adds := addsAddresses_unwalked filled responds known walked
    exact ⟨fun extracts => adds.mpr (extracts.2 walked),
      fun _ added => ⟨fun is => absurd is walked, fun _ => adds.mp added⟩⟩

def letter : Label where
  text := [0x61]
  nonempty := by decide
  short := by decide
  octets := by decide

/-- An address of the name itself, which is written out. -/
def writtenOut : Answer where
  owner := { labels := [letter], pointer := none }
  type := 1
  classType := 1
  ttl := 60
  data := [10, 0, 0, 1]
  short := by decide
  four := fun _ _ => rfl
  sixteen := by decide

def writtenOutResponse : L7Packet where
  payload := [0, 1, 0x81, 0x80, 0, 1, 0, 1, 0, 0, 0, 0] ++ (encodeLabels [letter] ++ 0 ::
    ([0, 1, 0, 1] ++ Answer.encodeAll [writtenOut]))
  direction := .backward

theorem responds_writtenOut : Responds writtenOutResponse [letter] [writtenOut] where
  response := by decide
  questions := by decide
  counted := by decide
  encoded := ⟨_, _, [], rfl, rfl, rfl, by rw [List.append_nil]; rfl⟩

theorem not_always_addsAddresses :
    ¬∀ objects layer expressions events,
      Transition.Always step (fun e => ∀ (a : Obj) (p : L7Packet) (labels : List Label)
          (answers : List Answer), labels ≠ [] → Responds p labels answers →
          Inspector.Informs .dns e.dnsProtocol a →
          Known e.dnsProtocol (flowName e.dnsProtocol a p) →
          AddsAddresses e.dnsProtocol a p answers)
        (start objects layer expressions) events := by
  intro all
  have always := all (fun _ => 1) none
    ⟨⟨fun _ => none, []⟩, ⟨fun _ => none, []⟩, ⟨fun _ => none, []⟩⟩
    [.managers .dns none (some fun _ => true)]
  have adds := Transition.always_final always rfl ⟨.flow 0, 0⟩ writtenOutResponse [letter]
    [writtenOut] (by simp) responds_writtenOut (by decide) rfl
  have synchronised := synchronised_of_adds adds (World.filled_start _ _) responds_writtenOut rfl
    ⟨by decide, by decide, by simp, by decide⟩ (by simp) (by decide)
  exact absurd (synchronised.2 writtenOut (by simp)) (by decide)

end Engine

end AIEngine
