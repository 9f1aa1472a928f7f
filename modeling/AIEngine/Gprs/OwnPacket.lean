import AIEngine.Gprs.GPRSProtocol
import AIEngine.Library.Transition
import AIEngine.Pool.Kept

/-!
# GTP packets and the header they are handled by

The protocol handles a packet by whatever stands behind `gprs_header_`. What the packet then does is
one case distinction: its message is counted, and a request is parsed.
-/

namespace AIEngine

/-! ### Reading more octets -/

namespace GtpHeader

/-- `read'` reads whatever `read` reads. -/
def Extends (read read' : Reader) : Prop := ∀ i b, read i = some b → read' i = some b

variable {read read' : Reader}

theorem word64_mono (more : Extends read read') {i : Nat} {v : BitVec 64}
    (h : word64 read i = some v) : word64 read' i = some v := by
  simp only [word64, Option.bind_eq_bind, Option.bind_eq_some_iff] at h ⊢
  obtain ⟨b0, r0, b1, r1, b2, r2, b3, r3, b4, r4, b5, r5, b6, r6, b7, r7, value⟩ := h
  exact ⟨b0, more _ _ r0, b1, more _ _ r1, b2, more _ _ r2, b3, more _ _ r3, b4, more _ _ r4,
    b5, more _ _ r5, b6, more _ _ r6, b7, more _ _ r7, value⟩

theorem imsi_mono (more : Extends read read') {r : Option (BitVec 64) × Nat}
    (h : imsi read = some r) : imsi read' = some r := by
  simp only [imsi, Option.bind_eq_bind, Option.bind_eq_some_iff] at h ⊢
  obtain ⟨presence, known, h⟩ := h
  refine ⟨presence, more _ _ known, ?_⟩
  split at h
  · rename_i regular
    obtain ⟨v, word, value⟩ := Option.bind_eq_some_iff.mp h
    rw [if_pos regular]
    exact Option.bind_eq_some_iff.mpr ⟨v, word64_mono more word, value⟩
  · rename_i irregular
    rw [if_neg irregular]
    split at h
    · rename_i extended
      obtain ⟨v, word, value⟩ := Option.bind_eq_some_iff.mp h
      rw [if_pos extended]
      exact Option.bind_eq_some_iff.mpr ⟨v, word64_mono more word, value⟩
    · rename_i plain
      rw [if_neg plain]
      exact h

theorem skip_mono (more : Extends read read') {token : BitVec 8} {size : Nat}
    {x y : Nat × BitVec 8} (h : skip read token size x = some y) :
    skip read' token size x = some y := by
  unfold skip at h ⊢
  split at h
  · rename_i here
    obtain ⟨next, known, value⟩ := Option.bind_eq_some_iff.mp h
    rw [if_pos here]
    exact Option.bind_eq_some_iff.mpr ⟨next, more _ _ known, value⟩
  · rename_i absent
    rw [if_neg absent]
    exact h

theorem endUserAddress_mono (more : Extends read read') {ext : Nat} {token : BitVec 8}
    {r : Option (BitVec 8)} (h : endUserAddress read ext token = some r) :
    endUserAddress read' ext token = some r := by
  unfold endUserAddress at h ⊢
  split at h
  · rename_i here
    rw [if_pos here]
    simp only [Option.bind_eq_bind, Option.bind_eq_some_iff] at h ⊢
    obtain ⟨high, first, low, second, h⟩ := h
    refine ⟨high, more _ _ first, low, more _ _ second, ?_⟩
    split at h
    · rename_i two
      obtain ⟨type, known, value⟩ := Option.bind_eq_some_iff.mp h
      rw [if_pos two]
      exact Option.bind_eq_some_iff.mpr ⟨type, more _ _ known, value⟩
    · rename_i other
      rw [if_neg other]
      exact h
  · rename_i absent
    rw [if_neg absent]
    exact h

theorem pdpType_mono (more : Extends read read') {x : Nat × BitVec 8} {r : Option (BitVec 8)}
    (h : pdpType read x = some r) : pdpType read' x = some r := by
  unfold pdpType at h ⊢
  split at h
  · rename_i here
    rw [if_pos here]
    simp only [Option.bind_eq_bind, Option.bind_eq_some_iff] at h ⊢
    obtain ⟨token, known, h⟩ := h
    refine ⟨token, more _ _ known, ?_⟩
    split at h
    · rename_i charging
      obtain ⟨next, behind, value⟩ := Option.bind_eq_some_iff.mp h
      rw [if_pos charging]
      exact Option.bind_eq_some_iff.mpr ⟨next, more _ _ behind, endUserAddress_mono more value⟩
    · rename_i other
      rw [if_neg other]
      exact endUserAddress_mono more h
  · rename_i absent
    rw [if_neg absent]
    exact h

theorem createPdpContext_mono (more : Extends read read') {c : PdpContext}
    (h : createPdpContext read = some c) : createPdpContext read' = some c := by
  simp only [createPdpContext, Option.bind_eq_bind, Option.bind_eq_some_iff] at h ⊢
  obtain ⟨x, first, token, known, routing, skipped, recovery, skipped', type, found, value⟩ := h
  exact ⟨x, imsi_mono more first, token, more _ _ known, routing, skip_mono more skipped,
    recovery, skip_mono more skipped', type, pdpType_mono more found, value⟩

end GtpHeader

namespace GtpPacket

theorem octets_extends (p : GtpPacket) : GtpHeader.Extends p.octets (p.behind p.address) := by
  intro i b read
  unfold octets at read
  split at read
  · exact read
  · exact absurd read (by simp)

/-- The message that the packet's own type octet means. -/
def message (p : GtpPacket) : Option GtpMessage := (p.octets 1).bind GtpMessage.ofType

/-- The PDP context that the packet requests by its own octets. -/
def request (p : GtpPacket) : Option GtpHeader.PdpContext :=
  if p.message = some .createPdpContextRequest then GtpHeader.createPdpContext p.octets else none

end GtpPacket

namespace GPRSProtocol

/-! ### The header a packet is handled by -/

/-- The flow has its forwarder, or the checker takes the packet. -/
def Accepts (s : GPRSProtocol) (a : Obj) (p : GtpPacket) : Prop :=
  (s.flows a).forwarder ≠ none ∨ (8 ≤ p.length ∧ p.memory p.address &&& 0x30 ≠ 0)

instance (s : GPRSProtocol) (a : Obj) (p : GtpPacket) : Decidable (s.Accepts a p) :=
  inferInstanceAs (Decidable (_ ∨ _))

/-- The address in `gprs_header_` when `processFlow` reads it: the packet's own only when the flow
has no forwarder yet. -/
def headerFor (s : GPRSProtocol) (a : Obj) (p : GtpPacket) : Option Nat :=
  if (s.flows a).forwarder = none then some p.address else s.header

/-- `processFlow` looks at the packet. -/
def Handled (s : GPRSProtocol) (a : Obj) (p : GtpPacket) : Prop :=
  s.Accepts a p ∧ s.mux = true ∧ 0 < p.length

instance (s : GPRSProtocol) (a : Obj) (p : GtpPacket) : Decidable (s.Handled a p) :=
  inferInstanceAs (Decidable (_ ∧ _))

/-- The message on which `processFlow` acts. -/
def messageFor (s : GPRSProtocol) (a : Obj) (p : GtpPacket) : Option GtpMessage :=
  if s.Handled a p then
    (s.headerFor a p).bind fun h => GtpMessage.ofType (p.memory (h + 1))
  else none

/-- The octet behind the header means the message that the packet's type octet means, and for a
request the header is that of the packet, which has all the octets it announces. -/
def Own (s : GPRSProtocol) (a : Obj) (p : GtpPacket) : Prop :=
  s.Handled a p → ∀ h ∈ s.headerFor a p,
    GtpMessage.ofType (p.memory (h + 1)) = p.message ∧
      (p.message = some .createPdpContextRequest →
        h = p.address ∧ (GtpHeader.createPdpContext p.octets).isSome = true)

instance (s : GPRSProtocol) (a : Obj) (p : GtpPacket) : Decidable (s.Own a p) := by
  unfold Own
  infer_instance

/-! ### What a packet changes -/

/-- Nothing is attached or stored. -/
structure Alike (s t : GPRSProtocol) : Prop where
  infoCache : t.infoCache = s.infoCache
  infos : t.infos = s.infos
  table : t.table = s.table
  pointer : ∀ a, (t.flows a).gprsInfo = (s.flows a).gprsInfo

theorem Alike.trans {s t u : GPRSProtocol} (first : Alike s t) (second : Alike t u) : Alike s u :=
  ⟨second.infoCache.trans first.infoCache, second.infos.trans first.infos,
    second.table.trans first.table, fun a => (second.pointer a).trans (first.pointer a)⟩

/-- One more of a message, in numbers or in the words of the counters. -/
def counted {ν : Type} [Add ν] [OfNat ν 1] (totals : GtpMessage → ν) (m : Option GtpMessage) : GtpMessage → ν :=
  fun n => if m = some n then totals n + 1 else totals n

theorem counted_none {ν : Type} [Add ν] [OfNat ν 1] (totals : GtpMessage → ν) : counted totals none = totals := by
  funext n
  exact if_neg (by simp)

theorem counted_ofNat (messages : GtpMessage → Nat) (m : Option GtpMessage) :
    counted (fun n => BitVec.ofNat 32 (messages n)) m = fun n => BitVec.ofNat 32 (counted messages m n) := by
  funext n
  unfold counted
  split
  · exact (BitVec.ofNat_add ..).symm
  · rfl

theorem count_totals (s : GPRSProtocol) (m : GtpMessage) :
    (s.count m).totals = counted s.totals (some m) := by
  funext n
  simp only [count, counted, Option.some.injEq]
  by_cases same : n = m
  · rw [if_pos same, if_pos same.symm]
  · rw [if_neg same, if_neg (Ne.symm same)]

/-- The info of the flow, attached if there is none: nothing else but the pool changes. -/
theorem attachInfo_cases {s t : GPRSProtocol} {a : Obj} {i : Option Obj}
    (h : s.attachInfo a = .ok (i, t)) :
    t.totals = s.totals ∧ t.table = s.table ∧
    ((∃ b, i = some b ∧ s.infoCache.lock (s.flows a).gprsInfo = some b ∧ t = s) ∨
     (∃ b c, i = some b ∧ s.infoCache.acquire = .ok (some b, c) ∧
        t = ({ s with infoCache := c }.setGPRSInfo b (s.infos b).reset).setFlow a
          { s.flows a with gprsInfo := some b }) ∨
     (∃ c, i = none ∧ s.infoCache.acquire = .ok (none, c) ∧ t = { s with infoCache := c })) := by
  unfold attachInfo at h
  split at h
  · rename_i b locked
    simp only [Except.ok.injEq, Prod.mk.injEq] at h
    obtain ⟨rfl, rfl⟩ := h
    exact ⟨rfl, rfl, Or.inl ⟨b, rfl, locked, rfl⟩⟩
  · split at h
    · rename_i b c acquired
      simp only [Except.ok.injEq, Prod.mk.injEq] at h
      obtain ⟨rfl, rfl⟩ := h
      exact ⟨rfl, rfl, Or.inr (Or.inl ⟨b, c, rfl, acquired, rfl⟩)⟩
    · rename_i c failed
      simp only [Except.ok.injEq, Prod.mk.injEq] at h
      obtain ⟨rfl, rfl⟩ := h
      exact ⟨rfl, rfl, Or.inr (Or.inr ⟨c, rfl, failed, rfl⟩)⟩
    · exact absurd h (by simp)

theorem processCreatePdpContext_totals {s t : GPRSProtocol} {a : Obj} {p : GtpPacket} {h : Nat}
    (ran : s.processCreatePdpContext a p h = .ok t) : t.totals = s.totals := by
  unfold processCreatePdpContext at ran
  split at ran
  · rename_i i s₁ attached
    split at ran
    · obtain rfl := Except.ok.inj ran
      exact (attachInfo_cases attached).1
    · exact absurd ran (by simp)
  · rename_i s₁ attached
    obtain rfl := Except.ok.inj ran
    exact (attachInfo_cases attached).1
  · exact absurd ran (by simp)

/-- A request that is parsed by the octets behind the header `h`, between steps that attach and
store nothing. -/
def Parsed (s : GPRSProtocol) (a : Obj) (p : GtpPacket) (h : Nat) (t : GPRSProtocol) : Prop :=
  ∃ s₁ u, Alike s s₁ ∧ s₁.processCreatePdpContext a p h = .ok u ∧ Alike u t

theorem dispatch_cases {s t : GPRSProtocol} {a : Obj} {p : GtpPacket} {h : Nat}
    (ran : s.dispatch a p h = .ok t) :
    t.totals = counted s.totals (GtpMessage.ofType (p.memory (h + 1))) ∧
    (Alike s t ∨ (GtpMessage.ofType (p.memory (h + 1)) = some .createPdpContextRequest ∧
      Parsed s a p h t)) := by
  unfold dispatch at ran
  split at ran
  · rename_i create
    split at ran
    · rename_i u parsed
      obtain rfl := Except.ok.inj ran
      refine ⟨?_, Or.inr ⟨create, s, u, ⟨rfl, rfl, rfl, fun _ => rfl⟩, parsed,
        ⟨rfl, rfl, rfl, fun _ => rfl⟩⟩⟩
      rw [count_totals, processCreatePdpContext_totals parsed, create]
    · exact absurd ran (by simp)
  · rename_i m other known
    obtain rfl := Except.ok.inj ran
    refine ⟨?_, Or.inl ⟨rfl, rfl, rfl, fun _ => rfl⟩⟩
    rw [count_totals, known]
  · rename_i unknown
    obtain rfl := Except.ok.inj ran
    refine ⟨?_, Or.inl ⟨rfl, rfl, rfl, fun _ => rfl⟩⟩
    rw [unknown, counted_none]

/-- What `processFlow` does by the header that stands in `gprs_header_`. -/
theorem processFlow_cases {s t : GPRSProtocol} {a : Obj} {p : GtpPacket}
    (ran : s.processFlow a p = .ok t) :
    (¬(s.mux = true ∧ 0 < p.length) ∧ t.totals = s.totals ∧ Alike s t) ∨
    ((s.mux = true ∧ 0 < p.length) ∧ ∃ h, s.header = some h ∧
      t.totals = counted s.totals (GtpMessage.ofType (p.memory (h + 1))) ∧
      (Alike s t ∨ (GtpMessage.ofType (p.memory (h + 1)) = some .createPdpContextRequest ∧
        Parsed s a p h t))) := by
  unfold processFlow at ran
  split at ran
  · rename_i busy
    split at ran
    · rename_i h known
      obtain ⟨totals, alike | ⟨create, s₁, u, before, parsed, after⟩⟩ := dispatch_cases ran
      · exact Or.inr ⟨busy, h, known, totals, Or.inl ⟨alike.infoCache, alike.infos, alike.table,
          alike.pointer⟩⟩
      · exact Or.inr ⟨busy, h, known, totals, Or.inr ⟨create, s₁, u, ⟨before.infoCache,
          before.infos, before.table, before.pointer⟩, parsed, after⟩⟩
    · exact absurd ran (by simp)
  · rename_i idle
    obtain rfl := Except.ok.inj ran
    exact Or.inl ⟨idle, rfl, rfl, rfl, rfl, fun _ => rfl⟩

theorem gprsChecker_cases {s t : GPRSProtocol} {p : GtpPacket} {taken : Bool}
    (checked : s.gprsChecker p = (taken, t)) :
    Alike s t ∧ t.totals = s.totals ∧ t.mux = s.mux ∧ t.flows = s.flows ∧
    (taken = true → t.header = some p.address ∧ 8 ≤ p.length ∧
      p.memory p.address &&& 0x30 ≠ 0) ∧
    (taken = false → ¬(8 ≤ p.length ∧ p.memory p.address &&& 0x30 ≠ 0)) := by
  unfold gprsChecker at checked
  simp only at checked
  split at checked
  · rename_i long
    split at checked
    · rename_i flags
      obtain ⟨rfl, rfl⟩ := Prod.mk.inj checked
      exact ⟨⟨rfl, rfl, rfl, fun _ => rfl⟩, rfl, rfl, rfl, fun _ => ⟨rfl, long, flags⟩,
        fun no => absurd no (by simp)⟩
    · rename_i flags
      obtain ⟨rfl, rfl⟩ := Prod.mk.inj checked
      exact ⟨⟨rfl, rfl, rfl, fun _ => rfl⟩, rfl, rfl, rfl, fun no => absurd no (by simp),
        fun _ both => flags both.2⟩
  · rename_i short
    obtain ⟨rfl, rfl⟩ := Prod.mk.inj checked
    exact ⟨⟨rfl, rfl, rfl, fun _ => rfl⟩, rfl, rfl, rfl, fun no => absurd no (by simp),
      fun _ both => short both.1⟩

/-- What the packet of a flow does: the message on which the protocol acts is counted, and only a
request is parsed. -/
theorem forwardFlow_cases {s t : GPRSProtocol} {a : Obj} {p : GtpPacket}
    (ran : s.forwardFlow a p = .ok t) :
    t.totals = counted s.totals (s.messageFor a p) ∧
    (Alike s t ∨ ∃ h, s.headerFor a p = some h ∧ s.Handled a p ∧
      GtpMessage.ofType (p.memory (h + 1)) = some .createPdpContextRequest ∧ Parsed s a p h t) := by
  unfold forwardFlow at ran
  split at ran
  · rename_i ff known
    have accepted : s.Accepts a p := Or.inl (by simp [known])
    have header : s.headerFor a p = s.header := if_neg (by simp [known])
    rcases processFlow_cases ran with ⟨idle, totals, alike⟩ | ⟨busy, h, at', totals, effect⟩
    · refine ⟨?_, Or.inl alike⟩
      rw [totals, messageFor, if_neg (fun handled => idle handled.2), counted_none]
    · refine ⟨?_, ?_⟩
      · rw [totals, messageFor, if_pos ⟨accepted, busy⟩, header, at']
        rfl
      · rcases effect with alike | ⟨create, parsed⟩
        · exact Or.inl alike
        · exact Or.inr ⟨h, header.trans at', ⟨accepted, busy⟩, create, parsed⟩
  · rename_i unknown
    have header : s.headerFor a p = some p.address := if_pos unknown
    split at ran
    · rename_i s₀ checked
      obtain ⟨alike, totals, mux, flows, taken, -⟩ := gprsChecker_cases checked
      obtain ⟨at₀, long, flags⟩ := taken rfl
      have accepted : s.Accepts a p := Or.inr ⟨long, flags⟩
      have before : Alike s (s₀.setFlow a { s₀.flows a with forwarder := some ffGprs }) := by
        refine alike.trans ⟨rfl, rfl, rfl, fun b => ?_⟩
        by_cases same : b = a
        · rw [same, flows_setFlow_same]
        · rw [flows_setFlow_other same]
      rcases processFlow_cases ran with ⟨idle, same, after⟩ | ⟨busy, h, at', same, effect⟩
      · refine ⟨?_, Or.inl (before.trans after)⟩
        have quiet : ¬s.Handled a p := by
          intro handled
          apply idle
          show s₀.mux = true ∧ 0 < p.length
          rw [mux]
          exact handled.2
        rw [messageFor, if_neg quiet, counted_none]
        exact same.trans totals
      · obtain rfl := Option.some.inj (at₀.symm.trans at')
        have handled : s.Handled a p := by
          refine ⟨accepted, ?_⟩
          rw [← mux]
          exact busy
        refine ⟨?_, ?_⟩
        · rw [messageFor, if_pos handled, header, same]
          show counted s₀.totals _ = _
          rw [totals]
          rfl
        · rcases effect with after | ⟨create, s₁, u, first, parsed, last⟩
          · exact Or.inl (before.trans after)
          · exact Or.inr ⟨p.address, header, handled, create, s₁, u, before.trans first, parsed,
              last⟩
    · rename_i s₀ refused
      obtain rfl := Except.ok.inj ran
      obtain ⟨alike, totals, -, -, -, rejected⟩ := gprsChecker_cases refused
      refine ⟨?_, Or.inl alike⟩
      have quiet : ¬s.Handled a p := by
        rintro ⟨known | checked, -⟩
        · exact known unknown
        · exact rejected rfl checked
      rw [totals, messageFor, if_neg quiet, counted_none]

end GPRSProtocol

end AIEngine
