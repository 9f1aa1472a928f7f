import AIEngine.Transport.Handover

/-!
# The two halves of `processPacket` (`TCPProtocol.cc`, `UDPProtocol.cc`)

What is done in front of `forwardFlow`, and what is done behind it. Between the halves a protocol on top of
the transport may do anything, another pass through a stack too.
-/

namespace AIEngine

namespace Transport

/-- Where the first half leaves a packet. -/
inductive Entered where
  /-- no flow hears it, or it has closed its flow -/
  | ended
  /-- there is nothing to forward -/
  | finishing (a : Obj)
  /-- `forwardFlow` is called -/
  | handing (a : Obj)
  deriving DecidableEq, Repr

end Transport

open Transport (Entered)

namespace TCPProtocol

open Transport

def enterFlow (s : Transport) (a i : Obj) (p : Packet) (o : Outside) :
    Except Fault (Transport × Entered) := do
  let bytes := p.totalLength - p.headerSize - p.tcpHdrLength
  let s := (s.notePacket a bytes).noteAnomaly a p.anomaly
  let s ← computeState s a i p.tcp bytes
  let s := s.lookupIPSet a o
  if s.forwards ∧ 0 < bytes then .ok (s, .handing a)
  else if (s.tcpInfos i).statePrev = Tcp.TcpState.closed.code ∧
      (s.tcpInfos i).stateCurr = Tcp.TcpState.closed.code then do
    let s ← closeFlow s a
    .ok (s, .ended)
  else .ok (s, .finishing a)

def enter (s : Transport) (p : Packet) (o : Outside) : Except Fault (Transport × Entered) := do
  let (found, s) ← (s.begin p).getFlow .tcp p o.hint
  let s := { s with currentFlow := found }
  match found with
  | none => .ok (s, .ended)
  | some a =>
    match s.lockTcpInfo a with
    | none => .ok (s, .ended)
    | some i => enterFlow s a i p o

end TCPProtocol

namespace UDPProtocol

open Transport

def enterFlow (s : Transport) (a : Obj) (p : Packet) (o : Outside) : Transport × Entered :=
  let (bytes, s) := checkLength (s.noteAnomaly a p.anomaly) a p
  let s := (s.notePacket a bytes).lookupIPSet a o
  (s, if s.forwards ∧ 0 < bytes then .handing a else .finishing a)

def enter (s : Transport) (p : Packet) (o : Outside) : Except Fault (Transport × Entered) := do
  let (found, s) ← (s.begin p).getFlow .udp p o.hint
  let s := { s with currentFlow := found }
  match found with
  | none => .ok (s, .ended)
  | some a => .ok (enterFlow s a p o)

end UDPProtocol

namespace Transport

def enter (s : Transport) : Kind → Packet → Outside → Except Fault (Transport × Entered)
  | .tcp => TCPProtocol.enter s
  | .udp => UDPProtocol.enter s

/-- The second half, with what the protocol on top did. -/
def complete (kind : Kind) (o : Outside) : Transport × Entered → Except Fault Transport
  | (s, .ended) => .ok s
  | (s, .finishing a) => s.finish a o.hint kind
  | (s, .handing a) => do
    let s ← s.forwardFlow a o
    s.finish a o.hint kind

variable {s t : Transport} {kind : Kind} {p : Packet} {o : Outside}

theorem tcp_processFlowPacket_halves (s : Transport) (a i : Obj) (p : Packet) (o : Outside) :
    TCPProtocol.processFlowPacket s a i p o = TCPProtocol.enterFlow s a i p o >>= complete .tcp o := by
  unfold TCPProtocol.processFlowPacket TCPProtocol.enterFlow
  simp only
  cases TCPProtocol.computeState _ a i p.tcp _ with
  | error e => rfl
  | ok u =>
    simp only [bind, Except.bind]
    split
    · rfl
    · split
      · cases TCPProtocol.closeFlow _ a <;> rfl
      · rfl

theorem udp_processFlowPacket_halves (s : Transport) (a : Obj) (p : Packet) (o : Outside) :
    UDPProtocol.processFlowPacket s a p o = complete .udp o (UDPProtocol.enterFlow s a p o) := by
  unfold UDPProtocol.processFlowPacket UDPProtocol.enterFlow
  simp only
  split <;> rfl

/-- Nothing of `processPacket` is left out between the halves. -/
theorem processPacket_halves (s : Transport) (kind : Kind) (p : Packet) (o : Outside) :
    s.processPacket kind p o = s.enter kind p o >>= complete kind o := by
  cases kind with
  | tcp =>
    unfold processPacket enter TCPProtocol.processPacket TCPProtocol.enter
    simp only
    cases (s.begin p).getFlow .tcp p o.hint with
    | error e => rfl
    | ok r =>
      obtain ⟨found, u⟩ := r
      cases found with
      | none => rfl
      | some a =>
        simp only [bind, Except.bind]
        generalize { u with currentFlow := some a } = v
        cases v.lockTcpInfo a with
        | none => rfl
        | some i => exact tcp_processFlowPacket_halves v a i p o
  | udp =>
    unfold processPacket enter UDPProtocol.processPacket UDPProtocol.enter
    simp only
    cases (s.begin p).getFlow .udp p o.hint with
    | error e => rfl
    | ok r =>
      obtain ⟨found, u⟩ := r
      cases found with
      | none => rfl
      | some a => exact udp_processFlowPacket_halves _ a p o

/-! ### The first half -/

/-- Where the first half comes to with the flow `a`. -/
inductive Entry (s₁ : Transport) (kind : Kind) (a : Obj) : Transport → Entered → Prop where
  | ignored (silent : s₁.Ignored kind a) : Entry s₁ kind a s₁ .ended
  | closed {s₂ t : Transport} (same : Same s₁ s₂) (shut : TCPProtocol.closeFlow s₂ a = .ok t) :
      Entry s₁ kind a t .ended
  | finishing {t : Transport} (same : Same s₁ t) : Entry s₁ kind a t (.finishing a)
  | handing {t : Transport} (same : Same s₁ t) : Entry s₁ kind a t (.handing a)

theorem tcp_enterFlow_entry {a i : Obj} {e : Entered} (h : TCPProtocol.enterFlow s a i p o = .ok (t, e)) :
    Entry s .tcp a t e := by
  unfold TCPProtocol.enterFlow at h
  simp only at h
  obtain ⟨s₁, computed, h⟩ := Ending.bind_ok h
  have noted := (same_notePacket s a (p.totalLength - p.headerSize - p.tcpHdrLength)).trans
    (same_noteAnomaly _ a p.anomaly)
  have looked := (noted.trans (same_computeState computed)).trans (same_lookupIPSet s₁ a o)
  split at h
  · obtain ⟨rfl, rfl⟩ := by simpa using h
    exact .handing looked
  · split at h
    · obtain ⟨u, shut, h⟩ := Ending.bind_ok h
      obtain ⟨rfl, rfl⟩ := by simpa using h
      exact .closed looked shut
    · obtain ⟨rfl, rfl⟩ := by simpa using h
      exact .finishing looked

theorem udp_enterFlow_entry (s : Transport) (a : Obj) (p : Packet) (o : Outside) :
    Entry s .udp a (UDPProtocol.enterFlow s a p o).1 (UDPProtocol.enterFlow s a p o).2 := by
  have checked := (same_noteAnomaly s a p.anomaly).trans (same_checkLength _ a p)
  unfold UDPProtocol.enterFlow
  generalize UDPProtocol.checkLength (s.noteAnomaly a p.anomaly) a p = lengths at checked
  obtain ⟨bytes, s₀⟩ := lengths
  simp only at checked ⊢
  have looked := (checked.trans (same_notePacket s₀ a bytes)).trans (same_lookupIPSet _ a o)
  split
  · exact .handing looked
  · exact .finishing looked

theorem enter_cases {e : Entered} (h : s.enter kind p o = .ok (t, e)) :
    ∃ found s₁, (s.begin p).getFlow kind p o.hint = .ok (found, s₁) ∧
      ((found = none ∧ t = { s₁ with currentFlow := none } ∧ e = .ended) ∨
        ∃ a, found = some a ∧ Entry { s₁ with currentFlow := some a } kind a t e) := by
  cases kind with
  | tcp =>
    obtain ⟨⟨found, s₁⟩, got, h⟩ := Ending.bind_ok h
    refine ⟨found, s₁, got, ?_⟩
    cases found with
    | none =>
      obtain ⟨rfl, rfl⟩ := by simpa using h
      exact Or.inl ⟨rfl, rfl, rfl⟩
    | some a =>
      refine Or.inr ⟨a, rfl, ?_⟩
      simp only at h
      split at h
      · rename_i expired
        obtain ⟨rfl, rfl⟩ := by simpa using h
        exact .ignored ⟨rfl, expired⟩
      · exact tcp_enterFlow_entry h
  | udp =>
    obtain ⟨⟨found, s₁⟩, got, h⟩ := Ending.bind_ok h
    refine ⟨found, s₁, got, ?_⟩
    cases found with
    | none =>
      obtain ⟨rfl, rfl⟩ := by simpa using h
      exact Or.inl ⟨rfl, rfl, rfl⟩
    | some a =>
      have both := Except.ok.inj h
      have entry := udp_enterFlow_entry { s₁ with currentFlow := some a } a p o
      rw [both] at entry
      exact Or.inr ⟨a, rfl, entry⟩

/-! ### The flow that a packet is for -/

theorem sweep_currentFlow (time : Int) (xs : List Obj) (s : Transport) :
    (s.sweep time xs).currentFlow = s.currentFlow := by
  induction xs generalizing s with
  | nil => rfl
  | cons a rest ih =>
    unfold sweep
    split
    · rw [ih]
      rfl
    · rfl

theorem checkTimers_currentFlow {a : Obj} {refresh : Bool} {hint : Nat}
    (h : s.checkTimers a refresh hint = .ok t) : t.currentFlow = s.currentFlow := by
  rcases checkTimers_cases h with ⟨-, rfl⟩ | ⟨-, ⟨b, s₁, -, rfl, rfl⟩ | rfl⟩
  · exact sweep_currentFlow _ _ _
  · rfl
  · rfl

theorem finish_currentFlow {a : Obj} {hint : Nat} (h : s.finish a hint kind = .ok t) :
    t.currentFlow = s.currentFlow := by
  cases kind with
  | tcp => exact (checkTimers_currentFlow h).trans (congrArg Members.currentFlow (same_tcpCheckReject s a).members)
  | udp => exact (checkTimers_currentFlow h).trans (congrArg Members.currentFlow (same_udpCheckReject s a).members)

theorem complete_currentFlow {e : Entered} (h : complete kind o (s, e) = .ok t) :
    t.currentFlow = s.currentFlow := by
  cases e with
  | ended =>
    obtain rfl := Except.ok.inj h
    rfl
  | finishing a => exact finish_currentFlow h
  | handing a =>
    obtain ⟨u, forwarded, h⟩ := Ending.bind_ok h
    exact (finish_currentFlow h).trans (congrArg Members.currentFlow (same_forwardFlow forwarded).members)

end Transport

end AIEngine
