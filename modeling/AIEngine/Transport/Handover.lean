import AIEngine.Transport.FlowBytes

/-!
# The hand-over of a payload

A packet whose flow has a live `TCPInfo`, or needs none, is counted at the flow, and its payload goes to
`forwardFlow` when there is a forwarder and the bytes are positive.
-/

namespace AIEngine

/-- What the application layer does with a payload, in another way. -/
def Outside.answering (o : Outside) (x : Application) (m : Marks) (k : Nat) : Outside :=
  { o with application := x, marks := m, packet := k }

namespace Transport

/-! ### Which flow hears a packet -/

/-- `lock()` answers the object. -/
def TcpInfoAlive (s : Transport) (i : Obj) : Prop :=
  (s.world.cache i.home).Owns i ∨ ∃ k ∈ s.world.tcpInfoCache, (s.world.cache (.tcpInfo k)).Owns i

/-- A new flow comes from its cache, and with TCP a live `TCPInfo` from another. -/
def Opens (s : Transport) (kind : Kind) : Prop :=
  (∃ a c, s.flowCache.acquireFlow = .ok (some a, c)) ∧
    (kind = .tcp → ∃ i c, (s.world.cache (.tcpInfo s.layer)).acquire = .ok (some i, c) ∧
      s.TcpInfoAlive i)

/-- A flow hears the packet: one of the table, or a new one. -/
def Hears (s : Transport) (kind : Kind) (p : Packet) : Prop :=
  (∃ a, s.findFlow (p.hash1 kind) (p.hash2 kind) = some a ∧ ¬s.Ignored kind a) ∨
    s.findFlow (p.hash1 kind) (p.hash2 kind) = none ∧ s.Opens kind

/-- The payload of the packet goes to `forwardFlow`. -/
def Calls (s : Transport) (kind : Kind) (p : Packet) : Prop :=
  s.Hears kind p ∧ s.forwards = true ∧ 0 < p.bytes kind

/-- The flow with which `processPacket` calls `forwardFlow`. -/
def handsTo (s : Transport) (kind : Kind) (p : Packet) (hint : Nat) : Option Obj :=
  match (s.begin p).getFlow kind p hint with
  | .ok (some a, s₁) =>
    if ¬s₁.Ignored kind a ∧ s₁.forwards = true ∧ 0 < p.bytes kind then some a else none
  | _ => none

theorem lockTcpInfo_some {s : Transport} {a i : Obj} (attached : (s.flow a).tcpInfo = some i) :
    s.lockTcpInfo a = none ↔ ¬s.TcpInfoAlive i := by
  unfold lockTcpInfo TcpInfoAlive
  rw [attached, Option.filter_eq_none_iff]
  simp

section Taken

variable {s : Transport} {kind : Kind} {p : Packet} {hint : Nat}

theorem alive_setCache {k : CacheId} {c : Cache} (items : c.items = (s.world.cache k).items)
    {t : Transport} (cache : t.world.cache = (s.world.setCache k c).cache)
    (registered : t.world.tcpInfoCache = s.world.tcpInfoCache) (i : Obj) :
    t.TcpInfoAlive i ↔ s.TcpInfoAlive i := by
  have owns : ∀ id, (t.world.cache id).Owns i ↔ (s.world.cache id).Owns i := by
    intro id
    unfold Cache.Owns
    rw [cache]
    by_cases same : id = k
    · rw [same, World.cache_setCache_same, items]
    · rw [World.cache_setCache_other same]
  unfold TcpInfoAlive
  simp only [owns, registered]

/-- The new flow in front of its `TCPInfo`. -/
def entered (s : Transport) (kind : Kind) (p : Packet) (hint : Nat) (a : Obj) (c : FlowCache) :
    Transport :=
  ((s.setFlowCache c).setFlow a ((s.setFlowCache c).describe kind p ((s.setFlowCache c).flow a))).addFlow
    a hint

theorem newFlow_acquired {a : Obj} {c : FlowCache}
    (acquired : s.flowCache.acquireFlow = .ok (some a, c)) :
    s.newFlow kind p hint = match (s.entered kind p hint a c).attach kind a with
      | .ok t => .ok (some a, t)
      | .error e => .error e := by
  unfold newFlow acquireFlow
  rw [acquired]
  rfl

theorem entered_left (kind : Kind) (p : Packet) (hint : Nat) {a : Obj} {c : FlowCache}
    (acquired : s.flowCache.acquireFlow = .ok (some a, c)) :
    (s.entered kind p hint a c).layer = s.layer ∧
      (s.entered kind p hint a c).world.cache =
        (s.world.setCache (.flow s.layer) c.fc).cache ∧
      (s.entered kind p hint a c).world.tcpInfoCache = s.world.tcpInfoCache ∧
      (s.entered kind p hint a c).forwards = s.forwards ∧
      (∃ f : Flow, (s.entered kind p hint a c).flow a = s.describe kind p f.reset) ∧
      ∀ b, b ≠ a → (s.entered kind p hint a c).flow b = s.flow b := by
  obtain ⟨fc, -, rfl⟩ := FlowCache.acquireFlow_some acquired
  generalize handed : ({ s.flowCache with fc := fc } : FlowCache).setFlow a
    (s.flowCache.flows a).reset = c at *
  have contents : c.flows a = (s.flow a).reset := by
    rw [← handed, FlowCache.setFlow_same]
    rfl
  have others : ∀ b, b ≠ a → c.flows b = s.flow b := by
    intro b other
    rw [← handed, FlowCache.setFlow_other other]
    rfl
  have flows : (s.entered kind p hint a c).flow =
      ((s.setFlowCache c).setFlow a ((s.setFlowCache c).describe kind p (c.flows a))).flow := by
    unfold entered addFlow
    split <;> rfl
  refine ⟨?_, ?_, ?_, ?_, ⟨s.flow a, ?_⟩, ?_⟩
  · unfold entered addFlow
    split <;> rfl
  · unfold entered addFlow
    split <;> rfl
  · unfold entered addFlow
    split <;> rfl
  · unfold entered addFlow
    split <;> rfl
  · rw [flows, flow_setFlow_same, contents]
    rfl
  · intro b other
    rw [flows, flow_setFlow_other other]
    exact others b other

/-- A flow without `TCPInfo` gets a live one exactly when the cache has one. -/
theorem attachTcpInfo_alive {u : Transport} {a : Obj} (bare : (u.flow a).tcpInfo = none) :
    (∃ i c, (u.world.cache (.tcpInfo u.layer)).acquire = .ok (some i, c) ∧ u.TcpInfoAlive i) ↔
      ∃ t, u.attachTcpInfo a = .ok t ∧ t.lockTcpInfo a ≠ none := by
  unfold attachTcpInfo
  cases acquired : (u.world.cache (.tcpInfo u.layer)).acquire with
  | error e => simp
  | ok answer =>
    obtain ⟨r, c⟩ := answer
    have items := Cache.acquire_items acquired
    cases r with
    | none =>
      have expired : ∀ t : Transport, (t.flow a).tcpInfo = none → t.lockTcpInfo a = none := by
        intro t empty
        unfold lockTcpInfo
        rw [empty]
        rfl
      simp only [Except.ok.injEq, Prod.mk.injEq, exists_eq_left', reduceCtorEq, false_and,
        exists_false, false_iff, not_not]
      refine expired _ ?_
      exact (congrArg Flow.tcpInfo (congrFun (World.setCache_flows u.world (.tcpInfo u.layer) c) a)).trans bare
    | some i =>
      have attached : ∀ t : Transport, (t.flow a).tcpInfo = some i →
          t.world.cache = (u.world.setCache (.tcpInfo u.layer) c).cache →
          t.world.tcpInfoCache = u.world.tcpInfoCache →
          (t.lockTcpInfo a ≠ none ↔ u.TcpInfoAlive i) := by
        intro t pointer caches registered
        rw [ne_eq, lockTcpInfo_some pointer, not_not]
        exact alive_setCache items caches registered i
      constructor
      · rintro ⟨j, d, same, alive⟩
        obtain ⟨found, -⟩ := Prod.mk.inj (Except.ok.inj same)
        obtain rfl := Option.some.inj found
        refine ⟨_, rfl, ?_⟩
        refine (attached _ ?_ ?_ ?_).mpr alive
        · rw [flow_setFlow_same]
        · rfl
        · rfl
      · rintro ⟨t, same, locks⟩
        obtain rfl := Except.ok.inj same
        refine ⟨i, c, rfl, (attached _ ?_ ?_ ?_).mp locks⟩
        · rw [flow_setFlow_same]
        · rfl
        · rfl

theorem attach_hears {a : Obj} {c : FlowCache}
    (acquired : s.flowCache.acquireFlow = .ok (some a, c)) :
    (kind = .tcp → ∃ i d, (s.world.cache (.tcpInfo s.layer)).acquire = .ok (some i, d) ∧
      s.TcpInfoAlive i) ↔
      ∃ t, (s.entered kind p hint a c).attach kind a = .ok t ∧ ¬t.Ignored kind a := by
  cases kind with
  | udp =>
    refine iff_of_true (fun tcp => absurd tcp (by simp)) ⟨_, rfl, ?_⟩
    rintro ⟨tcp, -⟩
    exact absurd tcp (by simp)
  | tcp =>
    obtain ⟨layer, caches, registered, -, ⟨f, flow⟩, -⟩ := entered_left .tcp p hint acquired
    have pool : (s.entered .tcp p hint a c).world.cache (.tcpInfo s.layer) =
        s.world.cache (.tcpInfo s.layer) := by
      rw [caches]
      exact World.cache_setCache_other (by simp)
    have bare : ((s.entered .tcp p hint a c).flow a).tcpInfo = none := by
      rw [flow, describe_tcpInfo]
      rfl
    have answers := attachTcpInfo_alive bare
    rw [layer, pool] at answers
    obtain ⟨fc, taken, rfl⟩ := FlowCache.acquireFlow_some acquired
    have alive : ∀ i, (s.entered .tcp p hint a _).TcpInfoAlive i ↔ s.TcpInfoAlive i :=
      alive_setCache (Cache.acquire_items taken) caches registered
    simp only [alive] at answers
    constructor
    · intro opens
      obtain ⟨t, attached, locks⟩ := answers.mp (opens rfl)
      exact ⟨t, attached, fun ignored => locks ignored.2⟩
    · rintro ⟨t, attached, heard⟩ _
      exact answers.mpr ⟨t, attached, fun expired => heard ⟨rfl, expired⟩⟩

theorem newFlow_opens : s.Opens kind ↔
    ∃ a t, s.newFlow kind p hint = .ok (some a, t) ∧ ¬t.Ignored kind a := by
  constructor
  · rintro ⟨⟨a, c, acquired⟩, tcp⟩
    obtain ⟨t, attached, heard⟩ := (attach_hears acquired).mp tcp
    refine ⟨a, t, ?_, heard⟩
    rw [newFlow_acquired acquired, attached]
  · rintro ⟨a, t, new, heard⟩
    rcases newFlow_cases new with ⟨c, -, missed, -⟩ | ⟨b, c, acquired, found, attached⟩
    · exact absurd missed (by simp)
    · obtain rfl := Option.some.inj found
      exact ⟨⟨a, c, acquired⟩, (attach_hears acquired).mpr ⟨t, attached, heard⟩⟩

theorem getFlow_hears (hint : Nat) :
    s.Hears kind p ↔ ∃ a t, s.getFlow kind p hint = .ok (some a, t) ∧ ¬t.Ignored kind a := by
  unfold Hears getFlow
  cases looked : s.findFlow (p.hash1 kind) (p.hash2 kind) with
  | none =>
    simp only [reduceCtorEq, false_and, exists_false, false_or, true_and]
    exact newFlow_opens
  | some a =>
    have same : ∀ d, (s.setFlow a ((s.flow a).setFlowDirection d)).Ignored kind a ↔
        s.Ignored kind a := by
      intro d
      have locks := lockTcpInfo_setFlow (s := s) (a := a) (f := (s.flow a).setFlowDirection d) rfl
      unfold Ignored
      rw [locks]
    constructor
    · rintro (⟨b, known, heard⟩ | ⟨unknown, -⟩)
      · obtain rfl := Option.some.inj known
        exact ⟨_, _, rfl, fun ignored => heard ((same _).mp ignored)⟩
      · exact absurd unknown (by simp)
    · rintro ⟨b, t, got, heard⟩
      simp only [Except.ok.injEq, Prod.mk.injEq, Option.some.injEq] at got
      obtain ⟨rfl, rfl⟩ := got
      exact Or.inl ⟨_, rfl, fun ignored => heard ((same _).mpr ignored)⟩

theorem getFlow_forwards {t : Transport} {found : Option Obj}
    (got : s.getFlow kind p hint = .ok (found, t)) : t.forwards = s.forwards := by
  rcases getFlow_ran got with ⟨b, -, -, rfl⟩ | ⟨-, new⟩
  · rfl
  · rcases newFlow_cases new with ⟨c, -, -, rfl⟩ | ⟨a, c, acquired, -, attached⟩
    · rfl
    · obtain ⟨-, -, -, forwards, -⟩ := entered_left kind p hint acquired
      exact (sameBytes_attach attached).forwards.trans forwards

theorem handsTo_some_iff {a : Obj} : s.handsTo kind p hint = some a ↔
    ∃ t, (s.begin p).getFlow kind p hint = .ok (some a, t) ∧ ¬t.Ignored kind a ∧
      t.forwards = true ∧ 0 < p.bytes kind := by
  unfold handsTo
  split
  · rename_i b t got
    constructor
    · intro hands
      split at hands
      · rename_i calls
        obtain rfl := Option.some.inj hands
        exact ⟨t, got, calls⟩
      · exact absurd hands (by simp)
    · rintro ⟨t', same, calls⟩
      obtain ⟨found, rfl⟩ := Prod.mk.inj (Except.ok.inj (got.symm.trans same))
      obtain rfl := Option.some.inj found
      rw [if_pos calls]
  · rename_i silent
    refine iff_of_false (by simp) fun ⟨t, got, _⟩ => silent a t got

theorem handsTo_isSome_iff (hint : Nat) : (s.handsTo kind p hint).isSome ↔ s.Calls kind p := by
  have begun : (s.begin p).Hears kind p ↔ s.Hears kind p := Iff.rfl
  have forwards : (s.begin p).forwards = s.forwards := rfl
  unfold Calls
  rw [← begun, getFlow_hears hint, Option.isSome_iff_exists]
  constructor
  · rintro ⟨a, hands⟩
    obtain ⟨t, got, heard, plugged, more⟩ := handsTo_some_iff.mp hands
    exact ⟨⟨a, t, got, heard⟩, (getFlow_forwards got).symm.trans plugged, more⟩
  · rintro ⟨⟨a, t, got, heard⟩, plugged, more⟩
    exact ⟨a, handsTo_some_iff.mpr ⟨t, got, heard, (getFlow_forwards got).trans plugged, more⟩⟩

end Taken

/-! ### The call of `forwardFlow` -/

section Call

variable {s t : Transport} {kind : Kind} {p : Packet} {o : Outside} {a i : Obj}

/-- The counts, the state of the connection and the look at the IP sets come before the forwarding. -/
theorem tcp_processFlowPacket_eq (s : Transport) (a i : Obj) (p : Packet) (o : Outside) :
    (∃ e, ∀ x m k, TCPProtocol.processFlowPacket s a i p (o.answering x m k) = .error e) ∨
      ∃ u, Prepared s u a p.tcpBytes ∧ ∀ x m k,
        TCPProtocol.processFlowPacket s a i p (o.answering x m k) =
          if s.forwards = true ∧ 0 < p.tcpBytes then
            (u.forwardFlow a (o.answering x m k)).bind fun v => v.finish a o.hint .tcp
          else if (u.tcpInfos i).statePrev = Tcp.TcpState.closed.code ∧
              (u.tcpInfos i).stateCurr = Tcp.TcpState.closed.code then TCPProtocol.closeFlow u a
          else u.finish a o.hint .tcp := by
  unfold TCPProtocol.processFlowPacket
  simp only
  cases computed : TCPProtocol.computeState ((s.notePacket a p.tcpBytes).noteAnomaly a p.anomaly) a i
      p.tcp p.tcpBytes with
  | error e =>
    refine Or.inl ⟨e, fun x m k => ?_⟩
    unfold Packet.tcpBytes at computed
    rw [computed]
    rfl
  | ok u =>
    have prepared : Prepared s (u.lookupIPSet a o) a p.tcpBytes :=
      (prepared_notePacket s a p.tcpBytes).then (((sameBytes_noteAnomaly _ a p.anomaly).trans
        (sameBytes_computeState computed)).trans (sameBytes_lookupIPSet u a o))
    refine Or.inr ⟨u.lookupIPSet a o, prepared, fun x m k => ?_⟩
    have looked : u.lookupIPSet a (o.answering x m k) = u.lookupIPSet a o := rfl
    have forwards := prepared.forwards
    unfold Packet.tcpBytes at computed ⊢
    rw [computed]
    simp only [bind, Except.bind]
    rw [looked, forwards]
    rfl

theorem udp_processFlowPacket_eq (s : Transport) (a : Obj) (p : Packet) (o : Outside) :
    ∃ u, Prepared s u a p.udpBytes ∧ ∀ x m k,
      UDPProtocol.processFlowPacket s a p (o.answering x m k) =
        if s.forwards = true ∧ 0 < p.udpBytes then
          (u.forwardFlow a (o.answering x m k)).bind fun v => v.finish a o.hint .udp
        else u.finish a o.hint .udp := by
  obtain ⟨v, checked, same⟩ : ∃ v, UDPProtocol.checkLength (s.noteAnomaly a p.anomaly) a p =
      (p.udpBytes, v) ∧ SameBytes s v := by
    unfold UDPProtocol.checkLength Packet.udpBytes
    simp only
    split
    · exact ⟨_, rfl, (sameBytes_noteAnomaly s a _).trans (sameBytes_noteAnomaly _ a _)⟩
    · exact ⟨_, rfl, sameBytes_noteAnomaly s a _⟩
  have prepared : Prepared s ((v.notePacket a p.udpBytes).lookupIPSet a o) a p.udpBytes :=
    .after same ((prepared_notePacket v a p.udpBytes).then (sameBytes_lookupIPSet _ a o))
  refine ⟨(v.notePacket a p.udpBytes).lookupIPSet a o, prepared, fun x m k => ?_⟩
  have looked : (v.notePacket a p.udpBytes).lookupIPSet a (o.answering x m k) =
      (v.notePacket a p.udpBytes).lookupIPSet a o := rfl
  have forwards := prepared.forwards
  unfold UDPProtocol.processFlowPacket
  rw [checked]
  simp only
  rw [looked, forwards]
  rfl

/-- What `processPacket` does behind a `getFlow` whose flow hears the packet: it prepares the flow, and
then forwards the payload or does something else. -/
theorem processPacket_taken {s₁ : Transport}
    (got : (s.begin p).getFlow kind p o.hint = .ok (some a, s₁)) (heard : ¬s₁.Ignored kind a) :
    (∃ e, ∀ x m k, s.processPacket kind p (o.answering x m k) = .error e) ∨
      ∃ u r, Prepared s₁ u a (p.bytes kind) ∧ (∀ t, r = .ok t → SameBytes u t) ∧
        ∀ x m k, s.processPacket kind p (o.answering x m k) =
          if s₁.forwards = true ∧ 0 < p.bytes kind then
            (u.forwardFlow a (o.answering x m k)).bind fun v => v.finish a o.hint kind
          else r := by
  cases kind with
  | tcp =>
    obtain ⟨i, alive⟩ := Option.ne_none_iff_exists'.mp fun expired => heard ⟨rfl, expired⟩
    have locked : lockTcpInfo { s₁ with currentFlow := some a } a = some i := alive
    have runs : ∀ x m k, s.processPacket .tcp p (o.answering x m k) =
        TCPProtocol.processFlowPacket { s₁ with currentFlow := some a } a i p (o.answering x m k) := by
      intro x m k
      simp only [processPacket, TCPProtocol.processPacket]
      rw [show (o.answering x m k).hint = o.hint from rfl, got]
      simp only [bind, Except.bind]
      rw [locked]
    simp only [runs]
    rcases tcp_processFlowPacket_eq { s₁ with currentFlow := some a } a i p o with fault |
      ⟨u, prepared, does⟩
    · exact Or.inl fault
    · refine Or.inr ⟨u, _, ⟨prepared.forwards, prepared.bytes⟩, ?_, does⟩
      intro t rest
      split at rest
      · exact sameBytes_closeFlow rest
      · exact sameBytes_finish rest
  | udp =>
    have runs : ∀ x m k, s.processPacket .udp p (o.answering x m k) =
        UDPProtocol.processFlowPacket { s₁ with currentFlow := some a } a p (o.answering x m k) := by
      intro x m k
      simp only [processPacket, UDPProtocol.processPacket]
      rw [show (o.answering x m k).hint = o.hint from rfl, got]
      rfl
    simp only [runs]
    obtain ⟨u, prepared, does⟩ := udp_processFlowPacket_eq { s₁ with currentFlow := some a } a p o
    refine Or.inr ⟨u, _, ⟨prepared.forwards, prepared.bytes⟩, ?_, does⟩
    exact fun t rest => sameBytes_finish rest

/-- Without such a flow a packet does not get further than `getFlow`. -/
theorem processPacket_untaken {s₁ : Transport} {found : Option Obj}
    (got : (s.begin p).getFlow kind p o.hint = .ok (found, s₁))
    (ignored : ∀ a, found = some a → s₁.Ignored kind a) (x : Application) (m : Marks) (k : Nat) :
    s.processPacket kind p (o.answering x m k) = .ok { s₁ with currentFlow := found } := by
  cases kind with
  | tcp =>
    simp only [processPacket, TCPProtocol.processPacket]
    rw [show (o.answering x m k).hint = o.hint from rfl, got]
    simp only [bind, Except.bind]
    cases found with
    | none => rfl
    | some a =>
      have expired : lockTcpInfo { s₁ with currentFlow := some a } a = none := (ignored a rfl).2
      simp only
      rw [expired]
  | udp =>
    simp only [processPacket, UDPProtocol.processPacket]
    rw [show (o.answering x m k).hint = o.hint from rfl, got]
    simp only [bind, Except.bind]
    cases found with
    | none => rfl
    | some a => exact absurd (ignored a rfl).1 (by simp)

theorem processPacket_failed {e : Fault} (failed : (s.begin p).getFlow kind p o.hint = .error e)
    (x : Application) (m : Marks) (k : Nat) :
    s.processPacket kind p (o.answering x m k) = .error e := by
  cases kind with
  | tcp =>
    simp only [processPacket, TCPProtocol.processPacket]
    rw [show (o.answering x m k).hint = o.hint from rfl, failed]
    rfl
  | udp =>
    simp only [processPacket, UDPProtocol.processPacket]
    rw [show (o.answering x m k).hint = o.hint from rfl, failed]
    rfl

/-- The application layer has no part in a packet whose payload is handed to nobody. -/
theorem processPacket_silent (silent : s.handsTo kind p o.hint = none) (x : Application) (m : Marks)
    (k : Nat) : s.processPacket kind p (o.answering x m k) = s.processPacket kind p o := by
  have itself : o.answering o.application o.marks o.packet = o := rfl
  have alike : (∃ r, ∀ x m k, s.processPacket kind p (o.answering x m k) = r) →
      s.processPacket kind p (o.answering x m k) = s.processPacket kind p o := by
    rintro ⟨r, all⟩
    rw [all x m k, ← all o.application o.marks o.packet, itself]
  refine alike ?_
  cases got : (s.begin p).getFlow kind p o.hint with
  | error e => exact ⟨_, processPacket_failed got⟩
  | ok answer =>
    obtain ⟨found, s₁⟩ := answer
    by_cases taken : ∃ a, found = some a ∧ ¬s₁.Ignored kind a
    · obtain ⟨a, rfl, heard⟩ := taken
      rcases processPacket_taken got heard with ⟨e, fault⟩ | ⟨u, r, -, -, does⟩
      · exact ⟨_, fault⟩
      · have quiet : ¬(s₁.forwards = true ∧ 0 < p.bytes kind) := by
          intro calls
          have hands := handsTo_some_iff.mpr ⟨s₁, got, heard, calls⟩
          exact absurd (silent.symm.trans hands) (by simp)
        exact ⟨r, fun x m k => (does x m k).trans (if_neg quiet)⟩
    · refine ⟨_, processPacket_untaken got fun a same => ?_⟩
      by_contra heard
      exact taken ⟨a, same, heard⟩

/-- Otherwise the payload goes to `forwardFlow` of one flow, and what is left is the end of the packet. -/
theorem processPacket_hands (hands : s.handsTo kind p o.hint = some a) :
    (∃ e, ∀ x m k, s.processPacket kind p (o.answering x m k) = .error e) ∨
      ∃ u : Transport, ∀ x m k, s.processPacket kind p (o.answering x m k) =
        (u.forwardFlow a (o.answering x m k)).bind fun v => v.finish a o.hint kind := by
  obtain ⟨s₁, got, heard, calls⟩ := handsTo_some_iff.mp hands
  rcases processPacket_taken got heard with fault | ⟨u, r, -, -, does⟩
  · exact Or.inl fault
  · exact Or.inr ⟨u, fun x m k => (does x m k).trans (if_pos calls)⟩

/-- A packet adds its bytes to the flow that hears it, and nothing to any other. -/
theorem processPacket_bytes (h : s.processPacket kind p o = .ok t) :
    ∃ found s₁, (s.begin p).getFlow kind p o.hint = .ok (found, s₁) ∧ ∀ b,
      t.world.bytes b =
        s₁.world.bytes b + if found = some b ∧ ¬s₁.Ignored kind b then p.bytes kind else 0 := by
  have itself : o.answering o.application o.marks o.packet = o := rfl
  rw [← itself] at h
  cases got : (s.begin p).getFlow kind p o.hint with
  | error e => exact absurd ((processPacket_failed got _ _ _).symm.trans h) (by simp)
  | ok answer =>
    obtain ⟨found, s₁⟩ := answer
    refine ⟨found, s₁, rfl, fun b => ?_⟩
    by_cases taken : ∃ a, found = some a ∧ ¬s₁.Ignored kind a
    · obtain ⟨a, rfl, heard⟩ := taken
      rcases processPacket_taken got heard with ⟨e, fault⟩ | ⟨u, r, prepared, rest, does⟩
      · exact absurd ((fault _ _ _).symm.trans h) (by simp)
      · have same : SameBytes u t := by
          rw [does] at h
          split at h
          · obtain ⟨v, forwarded, finished⟩ := Ending.bind_ok h
            exact (sameBytes_forwardFlow forwarded).trans (sameBytes_finish finished)
          · exact rest t h
        rw [same.bytes, prepared.bytes]
        by_cases chosen : b = a
        · rw [chosen, Function.update_self, if_pos ⟨rfl, heard⟩]
        · rw [Function.update_of_ne chosen, if_neg, add_zero]
          rintro ⟨equal, -⟩
          exact chosen (Option.some.inj equal).symm
    · have untaken := processPacket_untaken got (fun a same => by
        by_contra heard
        exact taken ⟨a, same, heard⟩) o.application o.marks o.packet
      obtain rfl := Except.ok.inj (untaken.symm.trans h)
      rw [if_neg, add_zero]
      exact fun both => taken ⟨b, both⟩

theorem getFlow_bytes {hint : Nat} {found : Option Obj} (sound : Sound s)
    (got : s.getFlow kind p hint = .ok (found, t)) :
    (∀ b ∈ s.table, t.world.bytes b = s.world.bytes b) ∧
      ∀ b, found = some b → b ∉ s.table → t.world.bytes b = 0 := by
  rcases getFlow_ran got with ⟨b, rfl, known, rfl⟩ | ⟨-, new⟩
  · have written := sameBytes_setFlow s (a := b) (f := (s.flow b).setFlowDirection
      (if p.sourcePort = (s.flow b).sourcePort then .forward else .backward)) rfl
    refine ⟨fun c _ => congrFun written.bytes c, fun c same fresh => ?_⟩
    obtain rfl := Option.some.inj same
    exact absurd (findFlow_some known).1 fresh
  · rcases newFlow_cases new with ⟨c, acquired, rfl, rfl⟩ | ⟨a, c, acquired, rfl, attached⟩
    · obtain ⟨fc, -, rfl⟩ := FlowCache.acquireFlow_none acquired
      exact ⟨fun b _ => rfl, fun b none => absurd none (by simp)⟩
    · obtain ⟨-, fresh⟩ := FlowCache.kept_acquire sound.kept acquired
      obtain ⟨-, -, -, -, ⟨f, flow⟩, others⟩ := entered_left kind p hint acquired
      have same := (sameBytes_attach attached).bytes
      refine ⟨fun b member => ?_, fun b chosen _ => ?_⟩
      · have other : b ≠ a := fun equal => fresh (equal ▸ member)
        exact (congrFun same b).trans (congrArg Flow.totalBytes (others b other))
      · obtain rfl := Option.some.inj chosen
        refine (congrFun same _).trans ((congrArg Flow.totalBytes flow).trans ?_)
        exact describe_bytes s kind p f.reset

theorem hears_of_current (sound : Sound s) (h : s.processPacket .udp p o = .ok t)
    (current : t.currentFlow = some a) : s.Hears .udp p := by
  obtain ⟨found, s₁, processed⟩ := processPacket_spec sound h
  obtain rfl : found = some a := processed.current.symm.trans current
  have heard : ¬s₁.Ignored .udp a := fun ignored => absurd ignored.1 (by simp)
  have begun : (s.begin p).Hears .udp p := (getFlow_hears o.hint).mpr ⟨a, s₁, processed.got, heard⟩
  exact begun

/-- The bytes of no flow go down, and a new flow starts with no less than none. -/
def GoesForward (s t : Transport) : Prop :=
  (∀ a ∈ s.table, (s.flow a).totalBytes ≤ (t.flow a).totalBytes) ∧
    ∀ a, t.currentFlow = some a → a ∉ s.table → 0 ≤ (t.flow a).totalBytes

theorem goesForward_iff (sound : Sound s) (h : s.processPacket kind p o = .ok t) :
    GoesForward s t ↔ (s.Hears kind p → 0 ≤ p.bytes kind) := by
  obtain ⟨found, s₁, got, counted⟩ := processPacket_bytes h
  obtain ⟨found', s₂, processed⟩ := processPacket_spec sound h
  obtain ⟨rfl, rfl⟩ := Prod.mk.inj (Except.ok.inj (processed.got.symm.trans got))
  obtain ⟨old, fresh⟩ := getFlow_bytes (begin_sound sound p) got
  have before : ∀ b ∈ s.table, s₂.world.bytes b = (s.flow b).totalBytes := old
  have none : ∀ b, found' = some b → b ∉ s.table → s₂.world.bytes b = 0 := fresh
  have after : ∀ b, (t.flow b).totalBytes =
      s₂.world.bytes b + if found' = some b ∧ ¬s₂.Ignored kind b then p.bytes kind else 0 := counted
  have hears : s.Hears kind p ↔ ∃ a, found' = some a ∧ ¬s₂.Ignored kind a := by
    have begun : s.Hears kind p ↔ (s.begin p).Hears kind p := Iff.rfl
    rw [begun, getFlow_hears o.hint]
    constructor
    · rintro ⟨a, u, same, heard⟩
      obtain ⟨rfl, rfl⟩ := Prod.mk.inj (Except.ok.inj (got.symm.trans same))
      exact ⟨a, rfl, heard⟩
    · rintro ⟨a, rfl, heard⟩
      exact ⟨a, s₂, got, heard⟩
  unfold GoesForward
  rw [hears]
  constructor
  · rintro ⟨flows, opened⟩ ⟨a, rfl, heard⟩
    have sum := after a
    rw [if_pos ⟨rfl, heard⟩] at sum
    by_cases member : a ∈ s.table
    · have more := flows a member
      rw [sum, before a member] at more
      omega
    · have more := opened a processed.current member
      rw [sum, none a rfl member] at more
      omega
  · intro positive
    have grows : ∀ b, s₂.world.bytes b ≤ (t.flow b).totalBytes := by
      intro b
      rw [after b]
      split
      · rename_i both
        have more := positive ⟨b, both⟩
        omega
      · omega
    refine ⟨fun a member => ?_, fun a current fresh => ?_⟩
    · rw [← before a member]
      exact grows a
    · rw [← none a (processed.current.symm.trans current) fresh]
      exact grows a

end Call

end Transport

end AIEngine
