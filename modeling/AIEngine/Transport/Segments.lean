import AIEngine.Tcp.Sequences
import AIEngine.Transport.Direction

/-!
# The connection behind a flow

`Tcp.Connection` follows one connection by itself. A transport processes its segments among all the
others: what it does to the flow and to its `TCPInfo` is what the connection does.
-/

namespace AIEngine.Transport

open Tcp (Connection Sent TCPInfo)

/-! ### Who writes a `TCPInfo` -/

/-- The parts of a transport that only the opening and the close of a flow and `computeState` write. -/
structure TcpPart where
  infos : Obj → TCPInfo
  forwards : Bool
  closed : Bool

def tcpPart (s : Transport) : TcpPart := ⟨s.tcpInfos, s.forwards, s.closed⟩

theorem tcpPart_noteAnomaly (s : Transport) (a : Obj) (pa : PacketAnomalyType) :
    (s.noteAnomaly a pa).tcpPart = s.tcpPart := by
  unfold noteAnomaly
  split <;> rfl

theorem tcpPart_lookupIPSet (s : Transport) (a : Obj) (o : Outside) :
    (s.lookupIPSet a o).tcpPart = s.tcpPart := by
  unfold lookupIPSet
  split
  · split <;> rfl
  · rfl

theorem tcpPart_forwardFlow {s t : Transport} {a : Obj} {o : Outside}
    (h : s.forwardFlow a o = .ok t) : t.tcpPart = s.tcpPart := by
  unfold forwardFlow at h
  split at h
  · obtain rfl := Except.ok.inj h
    rfl
  · exact absurd h (by simp)

theorem tcpPart_sweep (time : Int) (xs : List Obj) (s : Transport) :
    (s.sweep time xs).tcpPart = s.tcpPart := by
  induction xs generalizing s with
  | nil => rfl
  | cons a rest ih =>
    unfold sweep
    split
    · exact ih (s.expire a)
    · rfl

theorem tcpPart_finish {s t : Transport} {a : Obj} {hint : Nat}
    (h : TCPProtocol.finish s a hint = .ok t) : t.tcpPart = s.tcpPart := by
  have rejected : (TCPProtocol.checkReject s a).tcpPart = s.tcpPart := by
    unfold TCPProtocol.checkReject
    simp only
    split <;> rfl
  unfold TCPProtocol.finish at h
  rcases checkTimers_cases h with ⟨-, rfl⟩ | ⟨-, ⟨b, s₁, -, rfl, rfl⟩ | rfl⟩
  · exact (tcpPart_sweep _ _ _).trans rejected
  · exact rejected
  · exact rejected

theorem closeFlow_left {s t : Transport} {a : Obj} (h : TCPProtocol.closeFlow s a = .ok t) :
    t.tcpPart = { s.tcpPart with closed := true } := by
  unfold TCPProtocol.closeFlow removeFlow at h
  split at h
  · rename_i u removed
    split at removed
    · obtain rfl := Except.ok.inj removed
      obtain rfl := Except.ok.inj h
      rfl
    · exact absurd removed (by simp)
  · exact absurd h (by simp)

/-! ### One segment -/

/-- The flow and its `TCPInfo` stand where the connection does. -/
structure Follows (s : Transport) (a i : Obj) (c : Connection) : Prop where
  info : s.tcpInfos i = c.machine.info
  source : (s.flow a).sourcePort = c.machine.flow.sourcePort
  dest : (s.flow a).destPort = c.machine.flow.destPort
  forwards : s.forwards = c.forwards

/-- The packet carries the segment, in the fields `processPacket` reads. -/
structure Carries (p : Packet) (c : Connection) (x : Sent) : Prop where
  port : p.sourcePort = c.port x.side
  tcp : p.tcp = x.tcp
  bytes : p.totalLength - p.headerSize - p.tcpHdrLength = x.payload

/-- `computeState` reads nothing of the flow but its direction, and nothing of the flag totals. -/
theorem computeState_info {totals totals' totals₂ : Tcp.FlagTotals} {flow flow' flow₂ : Flow}
    {info info' : TCPInfo} {tcp : Tcp.TcpHeader} {bytes : Int}
    (h : Tcp.computeState totals flow info tcp bytes = .ok (totals', flow', info'))
    (directed : flow₂.direction = flow.direction) :
    Tcp.computeState totals₂ flow₂ info tcp bytes =
      .ok (totals₂.count tcp, Tcp.badFlagsAnomaly flow₂ tcp, info') := by
  unfold Tcp.computeState at h ⊢
  obtain ⟨noted, first, h⟩ := Ending.bind_ok h
  obtain ⟨written, second, h⟩ := Ending.bind_ok h
  obtain ⟨newstate, third, h⟩ := Ending.bind_ok h
  simp only [Except.ok.injEq, Prod.mk.injEq] at h
  obtain ⟨-, -, rfl⟩ := h
  simp only [directed, first, second, third, bind, Except.bind]

theorem computeState_left {s t : Transport} {a i : Obj} {tcp : Tcp.TcpHeader} {bytes : Int}
    (h : TCPProtocol.computeState s a i tcp bytes = .ok t) :
    ∃ totals f, Tcp.computeState s.totals (s.flow a) (s.tcpInfos i) tcp bytes =
        .ok (totals, f, t.tcpInfos i) ∧ t.forwards = s.forwards ∧ t.closed = s.closed := by
  unfold TCPProtocol.computeState at h
  split at h
  · rename_i totals f info computed
    obtain rfl := Except.ok.inj h
    refine ⟨totals, f, ?_, rfl, rfl⟩
    simpa [setFlow] using computed
  · exact absurd h (by simp)

/-- What `processPacket` does to the `TCPInfo` of the flow, and when it closes the flow. -/
theorem processFlowPacket_info {s t : Transport} {a i : Obj} {p : Packet} {o : Outside}
    (h : TCPProtocol.processFlowPacket s a i p o = .ok t) (opened : s.closed = false) :
    ∃ totals flow flow', flow.direction = (s.flow a).direction ∧
      Tcp.computeState s.totals flow (s.tcpInfos i) p.tcp
        (p.totalLength - p.headerSize - p.tcpHdrLength) = .ok (totals, flow', t.tcpInfos i) ∧
      t.forwards = s.forwards ∧
      (t.closed = true ↔
        ¬(s.forwards = true ∧ 0 < p.totalLength - p.headerSize - p.tcpHdrLength) ∧
        (t.tcpInfos i).statePrev = Tcp.TcpState.closed.code ∧
        (t.tcpInfos i).stateCurr = Tcp.TcpState.closed.code) := by
  unfold TCPProtocol.processFlowPacket at h
  simp only at h
  generalize p.totalLength - p.headerSize - p.tcpHdrLength = bytes at h ⊢
  have noted : ((s.notePacket a bytes).noteAnomaly a p.anomaly).tcpPart = s.tcpPart :=
    tcpPart_noteAnomaly _ a p.anomaly
  have infos : ((s.notePacket a bytes).noteAnomaly a p.anomaly).tcpInfos = s.tcpInfos :=
    congrArg TcpPart.infos noted
  have totals : ((s.notePacket a bytes).noteAnomaly a p.anomaly).totals = s.totals := by
    unfold noteAnomaly
    split <;> rfl
  have directed : (((s.notePacket a bytes).noteAnomaly a p.anomaly).flow a).direction =
      (s.flow a).direction := by
    unfold noteAnomaly
    split <;> simp [notePacket, Flow.setPacketAnomaly]
  obtain ⟨s₁, computed, h⟩ := Ending.bind_ok h
  obtain ⟨totals', flow', ran, forwards, closed⟩ := computeState_left computed
  rw [infos, totals] at ran
  have before : s₁.forwards = s.forwards ∧ s₁.closed = false :=
    ⟨forwards.trans (congrArg TcpPart.forwards noted),
      (closed.trans (congrArg TcpPart.closed noted)).trans opened⟩
  have looked : (s₁.lookupIPSet a o).tcpPart = s₁.tcpPart := tcpPart_lookupIPSet s₁ a o
  have known : (s₁.lookupIPSet a o).forwards = s.forwards :=
    (congrArg TcpPart.forwards looked).trans before.1
  -- the rest leaves the numbers alone
  have ends : ∀ {u : Transport}, u.tcpPart = (s₁.lookupIPSet a o).tcpPart →
      u.tcpInfos i = s₁.tcpInfos i ∧ u.forwards = s.forwards ∧ u.closed = false := by
    intro u same
    have whole := same.trans looked
    exact ⟨congrFun (congrArg TcpPart.infos whole) i,
      (congrArg TcpPart.forwards whole).trans before.1,
      (congrArg TcpPart.closed whole).trans before.2⟩
  have read : ((s₁.lookupIPSet a o).tcpInfos i) = s₁.tcpInfos i := (ends rfl).1
  refine ⟨totals', _, flow', directed, ?_⟩
  rw [known] at h
  split at h
  · rename_i payload
    obtain ⟨s₂, forwarded, h⟩ := Ending.bind_ok h
    obtain ⟨info, same, stays⟩ := ends ((tcpPart_finish h).trans (tcpPart_forwardFlow forwarded))
    rw [info]
    exact ⟨ran, same, iff_of_false (by simp [stays]) fun both => both.1 payload⟩
  · rename_i nothing
    rw [read] at h
    split at h
    · rename_i shut
      have left := closeFlow_left h
      have info : t.tcpInfos i = s₁.tcpInfos i :=
        (congrFun (congrArg TcpPart.infos left) i).trans read
      rw [info]
      exact ⟨ran, (congrArg TcpPart.forwards left).trans known,
        iff_of_true (congrArg TcpPart.closed left) ⟨nothing, shut⟩⟩
    · rename_i busy
      obtain ⟨info, same, stays⟩ := ends (tcpPart_finish h)
      rw [info]
      exact ⟨ran, same, iff_of_false (by simp [stays]) fun both => busy both.2⟩

/-- What `processPacket` does with a packet of the flow behind `getFlow` is what the connection does with
its segment. -/
theorem follows_processed {s t : Transport} {a i : Obj} {c : Connection} {x : Sent} {p : Packet}
    {o : Outside} (follows : Follows s a i c) (opened : s.closed = false)
    (directed : (s.flow a).direction = (c.label x.side).dir)
    (carries : Carries p c x) (listed : c.listed = true) (order : c.InOrder x)
    (h : TCPProtocol.processFlowPacket s a i p o = .ok t)
    (name : (t.flow a).name = (s.flow a).name) :
    ∃ c', c.step x = some c' ∧ Follows t a i c' ∧ (t.closed = true ↔ c'.listed = false) := by
  have source : (t.flow a).sourcePort = (s.flow a).sourcePort := congrArg FlowIdent.sourcePort name
  have dest : (t.flow a).destPort = (s.flow a).destPort := congrArg FlowIdent.destPort name
  obtain ⟨totals, flow, flow', same, computed, forwards, closed⟩ := processFlowPacket_info h opened
  rw [follows.info, carries.tcp, carries.bytes] at computed
  let labelled := c.machine.flow.setFlowDirection (c.label x.side).dir
  have direction : labelled.direction = flow.direction := (same.trans directed).symm
  let m : Tcp.Machine :=
    { totals := c.machine.totals.count x.tcp
      flow := Tcp.badFlagsAnomaly labelled x.tcp
      info := t.tcpInfos i }
  have moved : c.machine.step ⟨c.label x.side, x.tcp, x.payload⟩ = some m := by
    unfold Tcp.Machine.step
    rw [computeState_info computed direction]
  refine ⟨{ c with
      machine := m
      listed := !c.closes m.info x
      next := Function.update c.next x.side (some x.next)
      last := some x.side }, ?_, ?_, ?_⟩
  · unfold Connection.step
    rw [if_pos ⟨listed, order⟩, moved]
    rfl
  · obtain ⟨sources, dests⟩ := Connection.badFlagsAnomaly_ports labelled x.tcp
    exact ⟨rfl, (source.trans follows.source).trans sources.symm,
      (dest.trans follows.dest).trans dests.symm, forwards.trans follows.forwards⟩
  · rw [closed, carries.bytes, follows.forwards]
    simp only [Connection.closes, Bool.not_eq_false', decide_eq_true_eq, Int.natCast_pos, m]

/-! ### Segments of a flow in the table, and the one that opens it -/

theorem lockTcpInfo_setFlow {s : Transport} {a : Obj} {f : Flow}
    (same : f.tcpInfo = (s.flow a).tcpInfo) : (s.setFlow a f).lockTcpInfo a = s.lockTcpInfo a := by
  unfold lockTcpInfo
  rw [flow_setFlow_same, same]
  rfl

/-- `processPacket` behind a `getFlow` that answered a flow with a live `TCPInfo`. -/
theorem processPacket_got {s s₁ t : Transport} {a i : Obj} {p : Packet} {o : Outside}
    (got : (s.begin p).getFlow .tcp p o.hint = .ok (some a, s₁)) (alive : s₁.lockTcpInfo a = some i)
    (h : s.processPacket .tcp p o = .ok t) :
    TCPProtocol.processFlowPacket { s₁ with currentFlow := some a } a i p o = .ok t := by
  simp only [processPacket, TCPProtocol.processPacket] at h
  obtain ⟨⟨found, s₂⟩, got', h⟩ := Ending.bind_ok h
  obtain ⟨rfl, rfl⟩ := Prod.mk.inj (Except.ok.inj (got'.symm.trans got))
  have locked : lockTcpInfo { s₂ with currentFlow := some a } a = some i := alive
  simp only [locked] at h
  exact h

/-- The transport does with a packet that finds the flow what the connection does. -/
theorem follows_step {s t : Transport} {a i : Obj} {c : Connection} {x : Sent} {p : Packet}
    {o : Outside} (sound : Sound s) (follows : Follows s a i c)
    (known : s.findFlow (p.hash1 .tcp) (p.hash2 .tcp) = some a) (alive : s.lockTcpInfo a = some i)
    (carries : Carries p c x) (listed : c.listed = true) (order : c.InOrder x)
    (h : s.processPacket .tcp p o = .ok t) :
    ∃ c', c.step x = some c' ∧ Follows t a i c' ∧ (t.closed = true ↔ c'.listed = false) := by
  obtain ⟨found, s₁, processed⟩ := processPacket_spec sound h
  have there : (s.begin p).findFlow (p.hash1 .tcp) (p.hash2 .tcp) = some a := known
  obtain ⟨b, rfl, known', rfl⟩ | ⟨unknown, -⟩ := getFlow_ran processed.got
  case inr => exact absurd (unknown.symm.trans there) (by simp)
  obtain rfl := Option.some.inj (there.symm.trans known')
  have same := lockTcpInfo_setFlow (s := s.begin p) (a := a) (f := ((s.begin p).flow a).setFlowDirection
    (if p.sourcePort = ((s.begin p).flow a).sourcePort then .forward else .backward)) rfl
  have ran := processPacket_got processed.got (same.trans alive) h
  refine follows_processed ?_ rfl ?_ carries listed order ran ((processed.outcome a rfl).names a)
  · refine ⟨follows.info, ?_, ?_, follows.forwards⟩
    · exact (congrArg Flow.sourcePort (flow_setFlow_same _ a _)).trans follows.source
    · exact (congrArg Flow.destPort (flow_setFlow_same _ a _)).trans follows.dest
  · refine (congrArg Flow.direction (flow_setFlow_same _ a _)).trans ?_
    show (if p.sourcePort = (s.flow a).sourcePort then FlowDirection.forward else .backward) = _
    rw [carries.port, follows.source]
    unfold Connection.label
    split <;> rfl

theorem describe_tcpInfo (s : Transport) (kind : Kind) (p : Packet) (f : Flow) :
    (s.describe kind p f).tcpInfo = f.tcpInfo := by
  unfold describe
  cases p.tag <;> simp only <;> split <;>
    simp only [Flow.setFiveTuple, Flow.setFiveTuple6, Flow.setArriveTime, Flow.setLastPacketTime,
      Flow.setTag]

/-- The `TCPInfo` of a new flow is reset, and attaching it changes nothing else of the flow. -/
theorem attachTcpInfo_left {s t : Transport} {a i : Obj} (h : s.attachTcpInfo a = .ok t)
    (bare : (s.flow a).tcpInfo = none) (attached : (t.flow a).tcpInfo = some i) :
    t.tcpInfos i = {} ∧ t.flow a = { s.flow a with tcpInfo := some i } := by
  unfold attachTcpInfo at h
  split at h
  · rename_i j c acquired
    obtain rfl := Except.ok.inj h
    rw [flow_setFlow_same] at attached ⊢
    obtain rfl := Option.some.inj attached
    exact ⟨if_pos rfl, rfl⟩
  · rename_i c failed
    obtain rfl := Except.ok.inj h
    exact absurd (bare.symm.trans attached) (by simp)
  · exact absurd h (by simp)

/-- A flow that `getFlow` opens with a `TCPInfo` is a connection before its first segment. -/
theorem opened_follows {s s₁ : Transport} {a i : Obj} {p : Packet} {hint : Nat}
    (unknown : s.findFlow (p.hash1 .tcp) (p.hash2 .tcp) = none)
    (got : s.getFlow .tcp p hint = .ok (some a, s₁)) (attached : (s₁.flow a).tcpInfo = some i) :
    Follows s₁ a i (Connection.start ⟨s₁.totals, s₁.flow a, s₁.tcpInfos i⟩ s₁.forwards) ∧
      (s₁.flow a).sourcePort = p.sourcePort ∧ (s₁.flow a).destPort = p.destinationPort ∧
      (s₁.flow a).direction = .forward := by
  rcases getFlow_direction got with ⟨known, -⟩ | ⟨-, forward⟩
  · exact absurd (unknown.symm.trans known) (by simp)
  rcases getFlow_ran got with ⟨b, -, known, -⟩ | ⟨-, new⟩
  · exact absurd (unknown.symm.trans known) (by simp)
  rcases newFlow_cases new with ⟨c, -, missed, -⟩ | ⟨b, c, acquired, found, taken⟩
  · exact absurd missed (by simp)
  obtain rfl := Option.some.inj found
  obtain ⟨f, described⟩ := admitted_flow acquired .tcp p hint
  simp only [attach] at taken
  generalize (s.admitted c .tcp p a).addFlow a hint = u at described taken
  have route := describe_route s .tcp p f
  have bare := describe_tcpInfo s .tcp p f.reset
  rw [← described] at route bare
  obtain ⟨reset, same⟩ := attachTcpInfo_left taken bare attached
  have sender : (s₁.flow a).sourcePort = p.sourcePort := by
    rw [same]
    exact congrArg (fun r : Route => r.sender.port) route
  have receiver : (s₁.flow a).destPort = p.destinationPort := by
    rw [same]
    exact congrArg (fun r : Route => r.receiver.port) route
  exact ⟨⟨reset, rfl, rfl, rfl⟩, sender, receiver, forward⟩

end AIEngine.Transport
