import AIEngine.Transport.Packets

/-!
# What a packet can do to a transport

Most parts of `processPacket` write into the flow without touching the table or its order. The case
lemmas below leave `getFlow`, the end of a TCP flow and the timers, which the runs are about.
-/

namespace AIEngine

namespace World

theorem sameTable_releaseFirst {layer : Nat} (f : Flow) (order : List L7Protocol) (w : World) :
    SameTable layer w (w.releaseFirst f order) := by
  induction order with
  | nil => exact .refl w
  | cons p rest ih =>
    unfold releaseFirst
    split
    · exact sameTable_releaseTo w _ (by simp)
    · exact ih

theorem sameTable_releaseTcpInfo {layer : Nat} (f : Flow) (w : World) :
    SameTable layer w (w.releaseTcpInfo f) := by
  unfold releaseTcpInfo
  split
  · split
    · exact sameTable_releaseTo w _ (by simp)
    · exact .refl w
  · exact .refl w

theorem sameTable_releaseFlow {layer : Nat} (f : Flow) (w : World) :
    SameTable layer w (w.releaseFlow f) := by
  unfold releaseFlow
  split
  · exact (sameTable_releaseTcpInfo f w).trans (sameTable_releaseFirst f _ _)
  · exact (sameTable_releaseFirst f _ w).trans (sameTable_releaseFirst f _ _)

end World

namespace Transport

/-- The members of a transport that only the frame of `processPacket` writes. -/
structure Members where
  layer : Nat
  timeout : Int
  lastTimeout : Int
  packetTime : Int
  currentFlow : Option Obj
  released : List Obj
  closed : Bool
  swept : Bool

def members (s : Transport) : Members where
  layer := s.layer
  timeout := s.timeout
  lastTimeout := s.lastTimeout
  packetTime := s.packetTime
  currentFlow := s.currentFlow
  released := s.released
  closed := s.closed
  swept := s.swept

/-- The table, what orders it and the members are the same. -/
structure Same (s s' : Transport) : Prop where
  world : World.SameTable s.layer s.world s'.world
  members : s'.members = s.members

theorem same_of_world {s : Transport} {w : World} (h : World.SameTable s.layer s.world w)
    (infos : Obj → Tcp.TCPInfo) (totals : Tcp.FlagTotals) :
    Same s { s with world := w, tcpInfos := infos, totals := totals } := ⟨h, rfl⟩

namespace Same

variable {s s' s'' : Transport}

theorem layer (same : Same s s') : s'.layer = s.layer := congrArg Members.layer same.members

theorem table (same : Same s s') : s'.table = s.table := same.world.table

theorem ident (same : Same s s') (a : Obj) : (s'.flow a).ident = (s.flow a).ident :=
  same.world.flows a

theorem fc (same : Same s s') : s'.flowCache.fc = s.flowCache.fc := by
  unfold flowCache
  rw [same.layer]
  exact same.world.cache

theorem refl (s : Transport) : Same s s := ⟨.refl _, rfl⟩

theorem trans (first : Same s s') (second : Same s' s'') : Same s s'' :=
  ⟨first.world.trans (first.layer ▸ second.world), second.members.trans first.members⟩

end Same

/-- Only the fields that name a flow and order the table matter to its key and its id. -/
theorem lastTime_of_ident {s s' : Transport} {a : Obj}
    (same : (s'.flow a).ident = (s.flow a).ident) : s'.lastTime a = s.lastTime a := by
  have time := congrArg FlowIdent.currentTime same
  unfold lastTime Flow.getLastPacketTime
  exact congrArg (Int.bmod · (2 ^ 32)) time

theorem getId_of_ident {s s' : Transport} {a : Obj}
    (same : (s'.flow a).ident = (s.flow a).ident) : s'.getId a = s.getId a :=
  congrArg FlowIdent.hash same

@[simp] theorem flow_setFlow_same (s : Transport) (a : Obj) (f : Flow) :
    (s.setFlow a f).flow a = f := if_pos rfl

theorem flow_setFlow_other {s : Transport} {a b : Obj} {f : Flow} (different : b ≠ a) :
    (s.setFlow a f).flow b = s.flow b := if_neg different

/-! ### The parts that leave the table alone -/

theorem same_setFlow (s : Transport) {a : Obj} {f : Flow} (same : f.ident = (s.flow a).ident) :
    Same s (s.setFlow a f) := same_of_world (World.sameTable_setFlow s.world same) _ _

theorem same_notePacket (s : Transport) (a : Obj) (bytes : Int) : Same s (s.notePacket a bytes) :=
  same_setFlow s rfl

theorem same_noteAnomaly (s : Transport) (a : Obj) (pa : PacketAnomalyType) :
    Same s (s.noteAnomaly a pa) := by
  unfold noteAnomaly
  split
  · exact same_setFlow s rfl
  · exact .refl s

theorem same_lookupIPSet (s : Transport) (a : Obj) (o : Outside) : Same s (s.lookupIPSet a o) := by
  unfold lookupIPSet
  split
  · split
    · exact same_setFlow s rfl
    · exact same_setFlow s rfl
    · exact .refl s
  · exact .refl s

theorem same_forwardFlow {s s' : Transport} {a : Obj} {o : Outside}
    (h : s.forwardFlow a o = .ok s') : Same s s' := by
  unfold forwardFlow at h
  split at h
  · rename_i w ran
    obtain rfl := Except.ok.inj h
    have pointed : World.SameTable s.layer s.world
        (s.world.setFlow a { s.flow a with packet := some o.packet }) :=
      World.sameTable_setFlow s.world rfl
    have applied := pointed.trans (World.sameTable_runApplication ran)
    have marked : World.SameTable s.layer w (w.setFlow a (o.marks.write (w.flows a))) :=
      World.sameTable_setFlow w rfl
    exact same_of_world (applied.trans marked) _ _
  · exact absurd h (by simp)

theorem same_attach {s s' : Transport} {kind : Kind} {a : Obj} (h : s.attach kind a = .ok s') :
    Same s s' := by
  cases kind with
  | udp =>
    obtain rfl := Except.ok.inj h
    exact .refl s
  | tcp =>
    simp only [attach, attachTcpInfo] at h
    split at h
    · rename_i i c acquired
      obtain rfl := Except.ok.inj h
      have taken : World.SameTable s.layer s.world (s.world.setCache (.tcpInfo s.layer) c) :=
        World.sameTable_setCache s.world c (by simp)
      refine same_of_world (taken.trans (World.sameTable_setFlow _ ?_)) _ _
      simp [flow, Flow.ident]
    · rename_i c failed
      obtain rfl := Except.ok.inj h
      exact same_of_world (World.sameTable_setCache s.world c (by simp)) _ _
    · exact absurd h (by simp)

theorem same_computeState {s s' : Transport} {a i : Obj} {tcp : Tcp.TcpHeader} {bytes : Int}
    (h : TCPProtocol.computeState s a i tcp bytes = .ok s') : Same s s' := by
  unfold TCPProtocol.computeState at h
  split at h
  · rename_i totals f info computed
    obtain rfl := Except.ok.inj h
    have ident : f.ident = (s.flow a).ident := by
      rw [Tcp.computeState_flow computed]
      unfold Tcp.badFlagsAnomaly
      split <;> rfl
    exact same_of_world (World.sameTable_setFlow s.world ident) _ _
  · exact absurd h (by simp)

theorem same_tcpCheckReject (s : Transport) (a : Obj) : Same s (TCPProtocol.checkReject s a) := by
  unfold TCPProtocol.checkReject
  simp only
  split
  · exact same_setFlow s rfl
  · exact .refl s

theorem same_udpCheckReject (s : Transport) (a : Obj) : Same s (UDPProtocol.checkReject s a) := by
  unfold UDPProtocol.checkReject
  simp only
  split
  · split <;> exact same_setFlow s rfl
  · exact .refl s

theorem same_checkLength (s : Transport) (a : Obj) (p : Packet) :
    Same s (UDPProtocol.checkLength s a p).2 := by
  unfold UDPProtocol.checkLength
  simp only
  split
  · exact same_noteAnomaly s a _
  · exact .refl s

/-! ### The paths through `processPacket` -/

/-- TCP does nothing with a packet whose flow has no live `TCPInfo`. -/
def Ignored (s : Transport) (kind : Kind) (a : Obj) : Prop :=
  kind = .tcp ∧ s.lockTcpInfo a = none

instance (s : Transport) (kind : Kind) (a : Obj) : Decidable (s.Ignored kind a) :=
  inferInstanceAs (Decidable (_ ∧ _))

/-- Behind the parts that leave the table alone comes the close of a TCP flow or the timers. -/
def Ends (s₁ : Transport) (kind : Kind) (a : Obj) (hint : Nat) (t : Transport) : Prop :=
  ∃ s₂, Same s₁ s₂ ∧ ((kind = .tcp ∧ TCPProtocol.closeFlow s₂ a = .ok t) ∨
    ∃ refresh, s₂.checkTimers a refresh hint = .ok t)

theorem tcp_finish_ends {s₁ s₂ t : Transport} {a : Obj} {hint : Nat} (same : Same s₁ s₂)
    (h : TCPProtocol.finish s₂ a hint = .ok t) : Ends s₁ .tcp a hint t :=
  ⟨_, same.trans (same_tcpCheckReject s₂ a), Or.inr ⟨_, h⟩⟩

theorem udp_finish_ends {s₁ s₂ t : Transport} {a : Obj} {hint : Nat} (same : Same s₁ s₂)
    (h : UDPProtocol.finish s₂ a hint = .ok t) : Ends s₁ .udp a hint t :=
  ⟨_, same.trans (same_udpCheckReject s₂ a), Or.inr ⟨_, h⟩⟩

theorem tcp_processFlowPacket_ends {s t : Transport} {a i : Obj} {p : Packet} {o : Outside}
    (h : TCPProtocol.processFlowPacket s a i p o = .ok t) : Ends s .tcp a o.hint t := by
  unfold TCPProtocol.processFlowPacket at h
  simp only at h
  obtain ⟨s₁, computed, h⟩ := Ending.bind_ok h
  have noted := (same_notePacket s a (p.totalLength - p.headerSize - p.tcpHdrLength)).trans
    (same_noteAnomaly _ a p.anomaly)
  have looked := (noted.trans (same_computeState computed)).trans (same_lookupIPSet s₁ a o)
  split at h
  · obtain ⟨s₂, forwarded, h⟩ := Ending.bind_ok h
    exact tcp_finish_ends (looked.trans (same_forwardFlow forwarded)) h
  · split at h
    · exact ⟨_, looked, Or.inl ⟨rfl, h⟩⟩
    · exact tcp_finish_ends looked h

theorem udp_processFlowPacket_ends {s t : Transport} {a : Obj} {p : Packet} {o : Outside}
    (h : UDPProtocol.processFlowPacket s a p o = .ok t) : Ends s .udp a o.hint t := by
  have checked := (same_noteAnomaly s a p.anomaly).trans (same_checkLength _ a p)
  unfold UDPProtocol.processFlowPacket at h
  generalize UDPProtocol.checkLength (s.noteAnomaly a p.anomaly) a p = lengths at h checked
  obtain ⟨bytes, s₀⟩ := lengths
  simp only at h checked
  have looked := (checked.trans (same_notePacket s₀ a bytes)).trans (same_lookupIPSet _ a o)
  split at h
  · obtain ⟨s₂, forwarded, h⟩ := Ending.bind_ok h
    exact udp_finish_ends (looked.trans (same_forwardFlow forwarded)) h
  · exact udp_finish_ends looked h

theorem processPacket_cases {s t : Transport} {kind : Kind} {p : Packet} {o : Outside}
    (h : s.processPacket kind p o = .ok t) :
    ∃ found s₁, (s.begin p).getFlow kind p o.hint = .ok (found, s₁) ∧
      ((found = none ∧ t = { s₁ with currentFlow := none }) ∨
        ∃ a, found = some a ∧
          ((s₁.Ignored kind a ∧ t = { s₁ with currentFlow := some a }) ∨
            (¬s₁.Ignored kind a ∧ Ends { s₁ with currentFlow := some a } kind a o.hint t))) := by
  cases kind with
  | tcp =>
    simp only [processPacket, TCPProtocol.processPacket] at h
    obtain ⟨⟨found, s₁⟩, got, h⟩ := Ending.bind_ok h
    refine ⟨found, s₁, got, ?_⟩
    cases found with
    | none => exact Or.inl ⟨rfl, (Except.ok.inj h).symm⟩
    | some a =>
      refine Or.inr ⟨a, rfl, ?_⟩
      simp only at h
      split at h
      · rename_i expired
        exact Or.inl ⟨⟨rfl, expired⟩, (Except.ok.inj h).symm⟩
      · rename_i i alive
        refine Or.inr ⟨fun ignored => ?_, tcp_processFlowPacket_ends h⟩
        have expired : lockTcpInfo { s₁ with currentFlow := some a } a = none := ignored.2
        rw [expired] at alive
        exact absurd alive (by simp)
  | udp =>
    simp only [processPacket, UDPProtocol.processPacket] at h
    obtain ⟨⟨found, s₁⟩, got, h⟩ := Ending.bind_ok h
    refine ⟨found, s₁, got, ?_⟩
    cases found with
    | none => exact Or.inl ⟨rfl, (Except.ok.inj h).symm⟩
    | some a =>
      exact Or.inr ⟨a, rfl, Or.inr ⟨by simp [Ignored], udp_processFlowPacket_ends h⟩⟩

theorem findId_some {s : Transport} {id : BitVec 64} {a : Obj} (h : s.findId id = some a) :
    a ∈ s.table ∧ s.getId a = id := by
  unfold findId at h
  have same := List.find?_some h
  exact ⟨List.mem_of_find?_eq_some h, of_decide_eq_true same⟩

theorem findId_none {s : Transport} {id : BitVec 64} (h : s.findId id = none) :
    ∀ a ∈ s.table, s.getId a ≠ id := by
  intro a member same
  exact List.find?_eq_none.mp h a member (decide_eq_true same)

/-- The flow with a new id, in the table at its place. -/
def admitted (s : Transport) (c : FlowCache) (kind : Kind) (p : Packet) (a : Obj) : Transport :=
  (s.setFlowCache c).setFlow a (s.describe kind p (c.flows a))

theorem admitted_flow {s : Transport} {c : FlowCache} {a : Obj}
    (acquired : s.flowCache.acquireFlow = .ok (some a, c)) (kind : Kind) (p : Packet) (hint : Nat) :
    ∃ f : Flow, ((s.admitted c kind p a).addFlow a hint).flow a = s.describe kind p f.reset := by
  obtain ⟨fc, -, rfl⟩ := FlowCache.acquireFlow_some acquired
  refine ⟨s.flowCache.flows a, ?_⟩
  unfold addFlow admitted
  rw [FlowCache.setFlow_same]
  split <;> exact flow_setFlow_same _ a _

theorem newFlow_cases {s t : Transport} {kind : Kind} {p : Packet} {hint : Nat} {found : Option Obj}
    (h : s.newFlow kind p hint = .ok (found, t)) :
    (∃ c, s.flowCache.acquireFlow = .ok (none, c) ∧ found = none ∧ t = s.setFlowCache c) ∨
    ∃ a c, s.flowCache.acquireFlow = .ok (some a, c) ∧ found = some a ∧
      ((s.admitted c kind p a).addFlow a hint).attach kind a = .ok t := by
  unfold newFlow acquireFlow at h
  cases acquired : s.flowCache.acquireFlow with
  | error e =>
    rw [acquired] at h
    exact absurd h (by simp)
  | ok answer =>
    obtain ⟨r, c⟩ := answer
    rw [acquired] at h
    cases r with
    | none =>
      simp only [Except.ok.injEq, Prod.mk.injEq] at h
      obtain ⟨rfl, rfl⟩ := h
      exact Or.inl ⟨c, rfl, rfl, rfl⟩
    | some a =>
      simp only at h
      split at h
      · rename_i u attached
        simp only [Except.ok.injEq, Prod.mk.injEq] at h
        obtain ⟨rfl, rfl⟩ := h
        exact Or.inr ⟨a, c, rfl, rfl, attached⟩
      · exact absurd h (by simp)

/-- A flow of the table gets the direction of the packet. A packet without one opens a new flow. -/
theorem getFlow_ran {s t : Transport} {kind : Kind} {p : Packet} {hint : Nat} {found : Option Obj}
    (h : s.getFlow kind p hint = .ok (found, t)) :
    (∃ a, found = some a ∧ s.findFlow (p.hash1 kind) (p.hash2 kind) = some a ∧
      t = s.setFlow a ((s.flow a).setFlowDirection
        (if p.sourcePort = (s.flow a).sourcePort then .forward else .backward))) ∨
    (s.findFlow (p.hash1 kind) (p.hash2 kind) = none ∧ s.newFlow kind p hint = .ok (found, t)) := by
  unfold getFlow at h
  split at h
  · rename_i a known
    simp only [Except.ok.injEq, Prod.mk.injEq] at h
    obtain ⟨rfl, rfl⟩ := h
    exact Or.inl ⟨a, rfl, known, rfl⟩
  · rename_i unknown
    exact Or.inr ⟨unknown, h⟩

theorem getFlow_cases {s s₁ : Transport} {kind : Kind} {p : Packet} {hint : Nat}
    {found : Option Obj} (h : s.getFlow kind p hint = .ok (found, s₁)) :
    (∃ a, found = some a ∧ s.findFlow (p.hash1 kind) (p.hash2 kind) = some a ∧ Same s s₁) ∨
    (s.findFlow (p.hash1 kind) (p.hash2 kind) = none ∧ ∃ c,
      ((found = none ∧ s.flowCache.acquireFlow = .ok (none, c) ∧ s₁ = s.setFlowCache c) ∨
        ∃ a, found = some a ∧ s.flowCache.acquireFlow = .ok (some a, c) ∧
          Same ((s.admitted c kind p a).addFlow a hint) s₁)) := by
  rcases getFlow_ran h with ⟨a, rfl, known, rfl⟩ | ⟨unknown, new⟩
  · exact Or.inl ⟨a, rfl, known, same_setFlow s rfl⟩
  · refine Or.inr ⟨unknown, ?_⟩
    rcases newFlow_cases new with ⟨c, acquired, rfl, rfl⟩ | ⟨a, c, acquired, rfl, attached⟩
    · exact ⟨c, Or.inl ⟨rfl, acquired, rfl⟩⟩
    · exact ⟨c, Or.inr ⟨a, rfl, acquired, same_attach attached⟩⟩

theorem checkTimers_cases {s t : Transport} {a : Obj} {refresh : Bool} {hint : Nat}
    (h : s.checkTimers a refresh hint = .ok t) :
    (s.lastTimeout < s.packetTime - s.timeout ∧
      t = { s with lastTimeout := s.packetTime, swept := true }.updateTimers s.packetTime) ∨
    (¬s.lastTimeout < s.packetTime - s.timeout ∧
      ((∃ b s₁, s.findId (s.getId a) = some b ∧ s₁ = s.setLastPacketTime b s.packetTime ∧
          t = s₁.setTable (OrderedIndex.modify s₁.lastTime s.table hint b)) ∨
        t = s.setLastPacketTime a s.packetTime)) := by
  unfold checkTimers at h
  split at h
  · rename_i due
    exact Or.inl ⟨due, (Except.ok.inj h).symm⟩
  · rename_i early
    refine Or.inr ⟨early, ?_⟩
    split at h
    · unfold updateFlowTime at h
      split at h
      · rename_i b known
        exact Or.inl ⟨b, _, known, rfl, (Except.ok.inj h).symm⟩
      · exact absurd h (by simp)
    · exact Or.inr (Except.ok.inj h).symm

end Transport

end AIEngine
