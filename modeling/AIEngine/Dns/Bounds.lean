import AIEngine.Applications.EngineRuns
import AIEngine.Dns.Answers

/-!
# What the DNS parser reads

The conditions on a message under which each function stays inside, in every state that a run of the
engine gets to.
-/

namespace AIEngine

open World

namespace DNSProtocol

variable {s t : DNSProtocol} {a i : Obj} {p : L7Packet}

def QuestionInside (p : L7Packet) : Prop := 15 + typeOffset p ≤ p.memory.length

instance (p : L7Packet) : Decidable (QuestionInside p) := inferInstanceAs (Decidable (_ ≤ _))

theorem nameInside_of_question (question : QuestionInside p) : NameInside p := by
  unfold QuestionInside typeOffset at question
  unfold NameInside
  split at question <;> omega

theorem extractDomainName_reads (s : DNSProtocol) (a : Obj) (p : L7Packet) :
    ReadsInside (extractDomainName s a p) ↔ NameInside p := by
  by_cases inside : NameInside p
  · rw [extractDomainName_inside s a inside]
    exact iff_of_true (readsInside_ok _) inside
  · rw [extractDomainName_outside s a inside]
    exact iff_of_false not_readsInside inside

/-- The buffer has room for one octet more than is ever written. -/
theorem extractDomainName_writes {name : Bytes} {offset : Nat}
    (extracted : extractDomainName s a p = .ok (name, offset, t)) :
    name.length < maxDnsBufferName := by
  by_cases inside : NameInside p
  · rw [extractDomainName_inside s a inside] at extracted
    obtain ⟨rfl, -⟩ := Prod.mk.inj (Except.ok.inj extracted)
    have short := nameOf_length p
    rw [List.length_map, maxDnsBufferName]
    omega
  · rw [extractDomainName_outside s a inside] at extracted
    exact absurd extracted (by simp)

theorem noteAnomaly_filled (filled : s.world.Filled) (pa : PacketAnomalyType) :
    (s.noteAnomaly a pa).world.Filled := by
  unfold Inspector.noteAnomaly
  split
  · exact filled_same filled fun _ => rfl
  · exact filled

theorem attachDnsToFlow_ok (domain : Bytes) (qtype : Nat) (filled : s.world.Filled) :
    ∃ t, attachDnsToFlow s i domain qtype = .ok t ∧ t.domains = s.domains ∧
      (t.infos i).ips = (s.infos i).ips := by
  obtain ⟨w, attached⟩ := intern_filled (p := .dns) (i := i) .name false true domain filled
  unfold attachDnsToFlow Dns.attachDnsToFlow
  rw [attached]
  simp only [Inspector.onWorld, bind, Except.bind]
  split
  · exact ⟨_, rfl, rfl, by simp [Inspector.setInfo]⟩
  · exact ⟨_, rfl, rfl, rfl⟩

theorem noteQuery_filled (filled : s.world.Filled) : (noteQuery s a p).world.Filled := by
  have named : (if (nameOf p).length = 127 then s.noteAnomaly a .dnsLongName else s).world.Filled := by
    split
    · exact noteAnomaly_filled filled _
    · exact filled
  unfold noteQuery
  simp only
  split
  · exact noteAnomaly_filled named _
  · exact named

theorem handleStandardQuery_reads (a i : Obj) (p : L7Packet) (filled : s.world.Filled) :
    ReadsInside (handleStandardQuery s a i p) ↔ QuestionInside p := by
  by_cases question : QuestionInside p
  · refine iff_of_true ?_ question
    have read := HttpPacket.word_inside (p := p) (k := 12 + typeOffset p + 1)
      (by unfold QuestionInside at question; omega)
    rw [handleStandardQuery_eq s a i (nameInside_of_question question) read]
    split
    · exact readsInside_ok _
    · have allowed : (noteQuery s a p).countAllow.world.Filled := noteQuery_filled filled
      obtain ⟨t, attached, -⟩ := attachDnsToFlow_ok (i := i) (nameText p)
        (p.wordAt (12 + typeOffset p + 1)) allowed
      rw [attached]
      exact readsInside_ok _
  · rw [handleStandardQuery_outside s a i fun both => question both.2]
    exact iff_of_false not_readsInside question

/-! ### Responses -/

def attachedName (s : DNSProtocol) (i : Obj) : Option Obj :=
  s.world.lockString .dns ((s.world.infos i).strings .name)

def responseText (s : DNSProtocol) (i : Obj) (p : L7Packet) : Bytes :=
  match attachedName s i with
  | some name => cString (s.world.names name)
  | none => nameText p

def Known (s : DNSProtocol) (domain : Bytes) : Prop :=
  (s.domains.any fun known => known domain) = true

instance (s : DNSProtocol) (domain : Bytes) : Decidable (Known s domain) :=
  inferInstanceAs (Decidable (_ = true))

/-- The addresses are looked for behind a name that fits. -/
def AddressesInside (p : L7Packet) : Prop :=
  NameInside p ∧
    ((nameOf p).length < 127 → AnswersInside p (p.wordAt 6) (18 + (nameOf p).length))

def ResponseInside (s : DNSProtocol) (i : Obj) (p : L7Packet) : Prop :=
  (attachedName s i = none → QuestionInside p) ∧
    (Known s (responseText s i p) → AddressesInside p)

/-- The second walk ends where the first one does. -/
theorem extractAddresses_eq (s : DNSProtocol) (a i : Obj) (long : 8 ≤ p.memory.length)
    (inside : NameInside p) :
    extractAddresses s a i p =
      if (nameOf p).length = 127 then .ok (s.noteAnomaly a .dnsLongName)
      else answerLoop i p (p.wordAt 6) s (18 + (nameOf p).length) := by
  unfold extractAddresses
  rw [skipName_nameLoop, name_inside inside]
  by_cases full : (nameOf p).length = 127
  · simp only [Except.map, full, bind, Except.bind, if_true]
    rfl
  · have place : headerSize + (1 + (nameOf p).length) + 5 = 18 + (nameOf p).length := by
      rw [headerSize]
      omega
    simp only [Except.map, full, bind, Except.bind, decide_false, if_false,
      HttpPacket.word_inside (p := p) (k := 6) (by omega)]
    rw [← place]
    rfl

theorem extractAddresses_reads (s : DNSProtocol) (a i : Obj) (long : 8 ≤ p.memory.length) :
    ReadsInside (extractAddresses s a i p) ↔ AddressesInside p := by
  by_cases inside : NameInside p
  · unfold AddressesInside
    rw [extractAddresses_eq s a i long inside, and_iff_right inside]
    have short := nameOf_length p
    split
    · exact iff_of_true (readsInside_ok _) fun less => by omega
    · rw [imp_iff_right (by omega)]
      by_cases answers : AnswersInside p (p.wordAt 6) (18 + (nameOf p).length)
      · obtain ⟨t, walked, -⟩ := answerLoop_inside i s _ answers
        rw [walked]
        exact iff_of_true (readsInside_ok _) answers
      · rw [answerLoop_outside i s _ answers]
        exact iff_of_false not_readsInside answers
  · have failed : extractAddresses s a i p = .error (.fault .outOfBounds) := by
      unfold extractAddresses
      rw [skipName_nameLoop, name_outside inside]
      rfl
    rw [failed]
    exact iff_of_false not_readsInside fun all => inside all.1

theorem responseText_attached {name : Obj} (attached : attachedName s i = some name) :
    responseText s i p = cString (s.world.names name) := by
  unfold responseText
  rw [attached]

theorem responseText_none (unnamed : attachedName s i = none) : responseText s i p = nameText p := by
  unfold responseText
  rw [unnamed]

/-- A flow that has no name gets the one of the response. -/
theorem responseName_none (a : Obj) (unnamed : attachedName s i = none) (inside : NameInside p) :
    responseName s a i p = (do
      let qtype ← p.word (12 + typeOffset p + 1)
      let t ← attachDnsToFlow
        (if (nameOf p).length = 127 then s.noteAnomaly a .dnsLongName else s) i (nameText p) qtype
      .ok (nameText p, t)) := by
  unfold attachedName at unnamed
  unfold responseName
  rw [unnamed]
  simp only
  rw [extractDomainName_inside s a inside]
  simp only [bind, Except.bind, question_eq]
  cases p.word (12 + typeOffset p + 1) <;> rfl

theorem responseName_ok (a : Obj) (filled : s.world.Filled)
    (question : attachedName s i = none → QuestionInside p) :
    ∃ t, responseName s a i p = .ok (responseText s i p, t) ∧ t.domains = s.domains ∧
      (t.infos i).ips = (s.infos i).ips := by
  cases attached : attachedName s i with
  | some name =>
    rw [responseText_attached attached]
    unfold attachedName at attached
    unfold responseName
    rw [attached]
    exact ⟨s, rfl, rfl, rfl⟩
  | none =>
    have question := question attached
    have read := HttpPacket.word_inside (p := p) (k := 12 + typeOffset p + 1)
      (by unfold QuestionInside at question; omega)
    rw [responseName_none a attached (nameInside_of_question question), read,
      responseText_none attached]
    have noted : (if (nameOf p).length = 127 then s.noteAnomaly a .dnsLongName
        else s).world.Filled := by
      split
      · exact noteAnomaly_filled filled _
      · exact filled
    have same : (if (nameOf p).length = 127 then s.noteAnomaly a .dnsLongName else s).domains =
          s.domains ∧
        (if (nameOf p).length = 127 then s.noteAnomaly a .dnsLongName else s).infos = s.infos := by
      split
      · unfold Inspector.noteAnomaly
        split <;> exact ⟨rfl, rfl⟩
      · exact ⟨rfl, rfl⟩
    obtain ⟨t, attaches, domains, ips⟩ := attachDnsToFlow_ok (i := i) (nameText p)
      (p.wordAt (12 + typeOffset p + 1)) noted
    simp only [bind, Except.bind, attaches]
    refine ⟨t, rfl, domains.trans same.1, ?_⟩
    rw [ips, same.2]

theorem responseName_outside (a : Obj) (unnamed : attachedName s i = none)
    (outside : ¬QuestionInside p) :
    responseName s a i p = .error (.fault .outOfBounds) := by
  by_cases inside : NameInside p
  · rw [responseName_none a unnamed inside,
      HttpPacket.word_outside (by unfold QuestionInside at outside; omega)]
    rfl
  · unfold attachedName at unnamed
    unfold responseName
    rw [unnamed]
    simp only
    rw [extractDomainName_outside s a inside]
    rfl

theorem handleStandardResponse_reads (a i : Obj) (filled : s.world.Filled)
    (long : 8 ≤ p.memory.length) :
    ReadsInside (handleStandardResponse s a i p) ↔ ResponseInside s i p := by
  unfold ResponseInside
  by_cases question : attachedName s i = none → QuestionInside p
  · obtain ⟨t, named, domains, -⟩ := responseName_ok a filled question
    rw [and_iff_right question]
    unfold handleStandardResponse Known
    rw [named]
    simp only [bind, Except.bind]
    rw [domains]
    by_cases known : (s.domains.any fun known => known (responseText s i p)) = true
    · rw [if_pos known, imp_iff_right known]
      exact extractAddresses_reads t a i long
    · rw [if_neg known]
      exact iff_of_true (readsInside_ok _) fun found => absurd found known
  · obtain ⟨unnamed, outside⟩ := Classical.not_imp.mp question
    unfold handleStandardResponse
    rw [responseName_outside a unnamed outside]
    exact iff_of_false not_readsInside fun all => question all.1

end DNSProtocol

namespace Engine

/-- DNS, with the world that all share. -/
def dnsProtocol (e : Engine) : DNSProtocol := { e.dns with world := e.world }

open DNSProtocol

/-- What the three functions read of a message that ends where its memory does. -/
theorem always_dns_reads_iff (objects : CacheId → Nat) (layer : Option Nat)
    (expressions : SIPExpressions) (events : List Event) :
    Transition.Always step (fun e => ∀ (a i : Obj) (p : L7Packet), p.beyond = [] →
        headerSize < p.payload.length →
        (ReadsInside (extractDomainName e.dnsProtocol a p) ↔ NameInside p) ∧
        (ReadsInside (handleStandardQuery e.dnsProtocol a i p) ↔ QuestionInside p) ∧
        (ReadsInside (handleStandardResponse e.dnsProtocol a i p) ↔
          ResponseInside e.dnsProtocol i p) ∧
        ∀ name offset t, extractDomainName e.dnsProtocol a p = .ok (name, offset, t) →
          name.length < maxDnsBufferName)
      (start objects layer expressions) events := by
  apply Transition.always_mono _ (always_sound objects layer expressions events)
  intro e sound a i p strict long
  have filled : e.dnsProtocol.world.Filled := sound.pooled.filled
  have memory : 8 ≤ p.memory.length := by
    have inside := HttpPacket.payload_le_memory p
    unfold headerSize at long
    omega
  exact ⟨extractDomainName_reads _ a p, handleStandardQuery_reads a i p filled,
    handleStandardResponse_reads a i filled memory, fun _ _ _ => extractDomainName_writes⟩

def truncatedQuery : L7Packet where
  payload := [0, 1, 1, 0, 0, 1, 0, 0, 0, 0, 0, 0, 0]
  direction := .forward

theorem not_always_dns_reads :
    ¬∀ objects layer expressions events,
      Transition.Always step (fun e => ∀ (a i : Obj) (p : L7Packet), p.beyond = [] →
          headerSize < p.payload.length →
          ReadsInside (extractDomainName e.dnsProtocol a p) ∧
          ReadsInside (handleStandardQuery e.dnsProtocol a i p) ∧
          ReadsInside (handleStandardResponse e.dnsProtocol a i p))
        (start objects layer expressions) events := by
  intro all
  have always := all (fun _ => 0) none
    ⟨⟨fun _ => none, []⟩, ⟨fun _ => none, []⟩, ⟨fun _ => none, []⟩⟩ []
  have reads := (Transition.always_start always ⟨.info .dns, 0⟩ ⟨.info .dns, 0⟩ truncatedQuery rfl
    (by decide)).1
  rw [extractDomainName_reads] at reads
  exact absurd reads (by decide)

end Engine

end AIEngine
