import AIEngine.Transport.Segments

/-!
# Segments with RST

`computeState` leaves both states of the `TCPInfo` closed behind an RST, whatever they were, but the
close of the flow stands in the branch for segments that are not forwarded.
-/

namespace AIEngine

theorem Tcp.computeState_reset {totals totals' : Tcp.FlagTotals} {flow flow' : Flow}
    {info info' : Tcp.TCPInfo} {tcp : Tcp.TcpHeader} {bytes : Int} (rst : tcp.rst = true)
    (h : Tcp.computeState totals flow info tcp bytes = .ok (totals', flow', info')) :
    info'.statePrev = Tcp.TcpState.closed.code ∧ info'.stateCurr = Tcp.TcpState.closed.code := by
  unfold Tcp.computeState at h
  obtain ⟨noted, -, h⟩ := Ending.bind_ok h
  obtain ⟨written, -, h⟩ := Ending.bind_ok h
  obtain ⟨newstate, -, h⟩ := Ending.bind_ok h
  simp only [Except.ok.injEq, Prod.mk.injEq] at h
  obtain ⟨-, -, rfl⟩ := h
  unfold Tcp.TCPInfo.move
  rw [if_pos rst]
  exact ⟨rfl, rfl⟩

/-- What a flow refers to of the pools, and what `CacheManager::releaseFlow` chooses by. -/
def Flow.links (f : Flow) : Option Obj × (L7Protocol → Option Obj) × BitVec 16 :=
  (f.tcpInfo, f.info, f.protocol)

namespace Transport

/-! ### Every `TCPInfo` stays in the table of the states -/

def InRange (s : Transport) : Prop := ∀ j, ∃ st, Tcp.InRange (s.tcpInfos j) st

theorem InRange.congr {s t : Transport} (range : InRange s) (same : t.tcpInfos = s.tcpInfos) :
    InRange t := by
  intro j
  rw [same]
  exact range j

theorem InRange.set {s t : Transport} {i : Obj} {st : Tcp.TcpState} (range : InRange s)
    (fresh : Tcp.InRange (t.tcpInfos i) st) (others : ∀ j, j ≠ i → t.tcpInfos j = s.tcpInfos j) :
    InRange t := by
  intro j
  by_cases same : j = i
  · rw [same]
    exact ⟨st, fresh⟩
  · rw [others j same]
    exact range j

theorem inRange_attach {s t : Transport} {kind : Kind} {a : Obj} (range : InRange s)
    (h : s.attach kind a = .ok t) : InRange t := by
  cases kind with
  | udp =>
    obtain rfl := Except.ok.inj h
    exact range
  | tcp =>
    simp only [attach, attachTcpInfo] at h
    split at h
    · rename_i i c acquired
      obtain rfl := Except.ok.inj h
      refine range.set (i := i) (?_ : Tcp.InRange _ .closed) fun j other => if_neg other
      simpa [setFlow] using Tcp.reset_inRange (s.tcpInfos i)
    · obtain rfl := Except.ok.inj h
      exact range
    · exact absurd h (by simp)

theorem inRange_getFlow {s t : Transport} {kind : Kind} {p : Packet} {hint : Nat}
    {found : Option Obj} (range : InRange s) (h : s.getFlow kind p hint = .ok (found, t)) :
    InRange t := by
  rcases getFlow_ran h with ⟨a, -, -, rfl⟩ | ⟨-, new⟩
  · exact range
  · rcases newFlow_cases new with ⟨c, -, -, rfl⟩ | ⟨a, c, -, -, attached⟩
    · exact range
    · refine inRange_attach (range.congr ?_) attached
      unfold addFlow
      split <;> rfl

/-- The parts of `processPacket` behind `computeState` leave the numbers alone. -/
theorem processFlowPacket_infos {s t : Transport} {a i : Obj} {p : Packet} {o : Outside}
    (h : TCPProtocol.processFlowPacket s a i p o = .ok t) :
    ∀ j, j ≠ i → t.tcpInfos j = s.tcpInfos j := by
  intro j other
  unfold TCPProtocol.processFlowPacket at h
  simp only at h
  generalize p.totalLength - p.headerSize - p.tcpHdrLength = bytes at h
  obtain ⟨u, computed, h⟩ := Ending.bind_ok h
  have noted : ((s.notePacket a bytes).noteAnomaly a p.anomaly).tcpInfos = s.tcpInfos :=
    congrArg TcpPart.infos (tcpPart_noteAnomaly _ a p.anomaly)
  have moved : u.tcpInfos j = s.tcpInfos j := by
    unfold TCPProtocol.computeState at computed
    split at computed
    · obtain rfl := Except.ok.inj computed
      exact (if_neg other).trans (congrFun noted j)
    · exact absurd computed (by simp)
  have looked : (u.lookupIPSet a o).tcpInfos = u.tcpInfos :=
    congrArg TcpPart.infos (tcpPart_lookupIPSet u a o)
  have ends : t.tcpInfos = (u.lookupIPSet a o).tcpInfos := by
    split at h
    · obtain ⟨v, forwarded, h⟩ := Ending.bind_ok h
      exact congrArg TcpPart.infos ((tcpPart_finish h).trans (tcpPart_forwardFlow forwarded))
    · split at h
      · exact congrArg TcpPart.infos (closeFlow_left h)
      · exact congrArg TcpPart.infos (tcpPart_finish h)
  rw [ends, looked]
  exact moved

/-- `getFlow` leaves the flow with one of the two directions the table of the states has. -/
theorem getFlow_side {s t : Transport} {kind : Kind} {p : Packet} {hint : Nat} {a : Obj}
    (h : s.getFlow kind p hint = .ok (some a, t)) : ∃ d : Tcp.Side, (t.flow a).direction = d.dir := by
  rcases getFlow_direction h with ⟨-, direction⟩ | ⟨-, direction⟩
  · split at direction
    · exact ⟨.originator, direction⟩
    · exact ⟨.responder, direction⟩
  · exact ⟨.originator, direction⟩

theorem inRange_processPacket {s t : Transport} {p : Packet} {o : Outside} (sound : Sound s)
    (range : InRange s) (h : s.processPacket .tcp p o = .ok t) : InRange t := by
  obtain ⟨found, s₁, got, paths⟩ := processPacket_cases h
  have begun : InRange (s.begin p) := range
  have held := inRange_getFlow begun got
  rcases paths with ⟨rfl, rfl⟩ | ⟨a, rfl, ⟨-, rfl⟩ | ⟨heard, -⟩⟩
  · exact held
  · exact held
  · obtain ⟨i, alive⟩ := Option.ne_none_iff_exists'.mp fun expired => heard ⟨rfl, expired⟩
    have ran := processPacket_got got alive h
    have others := processFlowPacket_infos ran
    have opened : s₁.closed = false :=
      congrArg Members.closed (getFlow_spec (begin_sound sound p) got).2.members
    obtain ⟨d, direction⟩ := getFlow_side got
    obtain ⟨st, before⟩ := held i
    obtain ⟨totals, flow, flow', same, computed, -⟩ := processFlowPacket_info ran opened
    have directed : flow.direction = d.dir := same.trans direction
    generalize p.totalLength - p.headerSize - p.tcpHdrLength = bytes at computed
    obtain ⟨info, moved, after⟩ :=
      Tcp.computeState_inRange before directed s₁.totals p.tcp bytes
    have equal := Except.ok.inj (computed.symm.trans moved)
    simp only [Prod.mk.injEq] at equal
    obtain ⟨-, -, rfl⟩ := equal
    exact held.set after others

theorem inRange_step {s t : Transport} {e : Event} (sound : Sound s) (range : InRange s)
    (h : step .tcp s e = some t) : InRange t := by
  cases e with
  | packet p o => exact inRange_processPacket sound range (toOption_some h)
  | elsewhere w =>
    obtain rfl := Option.some.inj h
    exact range

/-! ### Every flow in the table of TCP is a TCP flow -/

def TcpFlows (s : Transport) : Prop := ∀ a ∈ s.table, (s.flow a).protocol = World.ipprotoTcp

theorem describe_protocol (s : Transport) (kind : Kind) (p : Packet) (f : Flow) :
    (s.describe kind p f).protocol = kind.ipproto := by
  unfold describe
  simp only
  split <;> split <;> rfl

theorem tcpFlows_step {s t : Transport} {e : Event} (sound : Sound s) (flows : TcpFlows s)
    (h : step .tcp s e = some t) : TcpFlows t := by
  cases e with
  | packet p o =>
    obtain ⟨found, s₁, processed⟩ := processPacket_spec sound (toOption_some h)
    intro b member
    rcases processed.listed member with ⟨old, name⟩ | ⟨-, -, name⟩
    · exact (congrArg FlowIdent.protocol name).trans (flows b old)
    · exact (congrArg FlowIdent.protocol name).trans (describe_protocol _ .tcp p _)
  | elsewhere w =>
    obtain rfl := Option.some.inj h
    exact flows

/-! ### What a flow has of the pools -/

/-- The caches, and what the flows refer to of them, are the same. -/
structure SamePools (s s' : Transport) : Prop where
  cache : s'.world.cache = s.world.cache
  registered : s'.world.tcpInfoCache = s.world.tcpInfoCache
  links : ∀ b, (s'.flow b).links = (s.flow b).links

namespace SamePools

variable {s s' s'' : Transport}

theorem refl (s : Transport) : SamePools s s := ⟨rfl, rfl, fun _ => rfl⟩

theorem trans (first : SamePools s s') (second : SamePools s' s'') : SamePools s s'' :=
  ⟨second.cache.trans first.cache, second.registered.trans first.registered,
    fun b => (second.links b).trans (first.links b)⟩

theorem lockInfo (same : SamePools s s') (p : L7Protocol) (a : Obj) :
    s'.world.lockInfo p (s'.flow a) = s.world.lockInfo p (s.flow a) := by
  have pointer : (s'.flow a).info p = (s.flow a).info p :=
    congrFun (congrArg (fun l => l.2.1) (same.links a)) p
  unfold World.lockInfo
  rw [same.cache, pointer]

theorem lockTcpInfo (same : SamePools s s') (a : Obj) : s'.lockTcpInfo a = s.lockTcpInfo a := by
  have pointer : (s'.flow a).tcpInfo = (s.flow a).tcpInfo := congrArg Prod.fst (same.links a)
  unfold Transport.lockTcpInfo
  rw [same.cache, same.registered, pointer]

theorem protocol (same : SamePools s s') (a : Obj) :
    (s'.flow a).protocol = (s.flow a).protocol := congrArg (fun l => l.2.2) (same.links a)

end SamePools

theorem samePools_setFlow (s : Transport) {a : Obj} {f : Flow}
    (same : f.links = (s.flow a).links) : SamePools s (s.setFlow a f) := by
  refine ⟨rfl, rfl, fun b => ?_⟩
  by_cases chosen : b = a
  · rw [chosen, flow_setFlow_same]
    exact same
  · rw [flow_setFlow_other chosen]

theorem samePools_noteAnomaly (s : Transport) (a : Obj) (pa : PacketAnomalyType) :
    SamePools s (s.noteAnomaly a pa) := by
  unfold noteAnomaly
  split
  · exact samePools_setFlow s rfl
  · exact .refl s

theorem samePools_lookupIPSet (s : Transport) (a : Obj) (o : Outside) :
    SamePools s (s.lookupIPSet a o) := by
  unfold lookupIPSet
  split
  · split
    · exact samePools_setFlow s rfl
    · exact samePools_setFlow s rfl
    · exact .refl s
  · exact .refl s

theorem samePools_computeState {s t : Transport} {a i : Obj} {tcp : Tcp.TcpHeader} {bytes : Int}
    (h : TCPProtocol.computeState s a i tcp bytes = .ok t) : SamePools s t := by
  unfold TCPProtocol.computeState at h
  split at h
  · rename_i totals f info computed
    obtain rfl := Except.ok.inj h
    have links : f.links = (s.flow a).links := by
      rw [Tcp.computeState_flow computed]
      unfold Tcp.badFlagsAnomaly
      split <;> rfl
    have written := samePools_setFlow s links
    exact ⟨written.cache, written.registered, written.links⟩
  · exact absurd h (by simp)

/-- The live infos of a flow, each with its cache. -/
inductive Attached (s : Transport) (a : Obj) : CacheId → Obj → Prop where
  | tcpInfo (i : Obj) (alive : s.lockTcpInfo a = some i) : Attached s a i.home i
  | info (p : L7Protocol) (i : Obj) (alive : s.world.lockInfo p (s.flow a) = some i) :
    Attached s a (.info p) i

/-- `CacheManager::releaseFlow` finds all infos of the flow: the registered cache is the one of its
`TCPInfo`, and no other info stands behind the first one of its case analysis. -/
structure Returnable (s : Transport) (a : Obj) : Prop where
  registered : ∀ i, s.lockTcpInfo a = some i →
    ∃ k, s.world.tcpInfoCache = some k ∧ i.home = .tcpInfo k
  first : ∀ p i, s.world.lockInfo p (s.flow a) = some i →
    [L7Protocol.http, .ssl, .smtp, .pop, .imap].find?
      (fun q => (s.world.lockInfo q (s.flow a)).isSome) = some p
  room : ∀ id x, Attached s a id x → (s.world.cache id).total < (s.world.cache id).items.length

theorem SamePools.attached {s s' : Transport} (same : SamePools s s') {a : Obj} {id : CacheId}
    {x : Obj} (attached : Attached s a id x) : Attached s' a id x := by
  cases attached with
  | tcpInfo i alive => exact .tcpInfo x ((same.lockTcpInfo a).trans alive)
  | info p i alive => exact .info p x ((same.lockInfo p a).trans alive)

theorem SamePools.symm {s s' : Transport} (same : SamePools s s') : SamePools s' s :=
  ⟨same.cache.symm, same.registered.symm, fun b => (same.links b).symm⟩

theorem Returnable.same {s s' : Transport} {a : Obj} (returnable : Returnable s a)
    (same : SamePools s s') : Returnable s' a where
  registered := fun i alive => by
    rw [same.registered]
    exact returnable.registered i ((same.lockTcpInfo a).symm.trans alive)
  first := fun p i alive => by
    simp only [same.lockInfo] at alive ⊢
    exact returnable.first p i alive
  room := fun id x attached => by
    rw [same.cache]
    exact returnable.room id x (same.symm.attached attached)

/-! ### `CacheManager::releaseFlow` -/

theorem releaseFirst_found {w : World} {f : Flow} {ps : List L7Protocol} {p : L7Protocol} {i : Obj}
    (first : ps.find? (fun q => (w.lockInfo q f).isSome) = some p)
    (alive : w.lockInfo p f = some i) :
    w.releaseFirst f ps = w.releaseTo (.info p) (some i) := by
  induction ps with
  | nil => exact absurd first (by simp)
  | cons q rest ih =>
    unfold World.releaseFirst
    cases locked : w.lockInfo q f with
    | some j =>
      rw [List.find?_cons_of_pos (by simp [locked])] at first
      obtain rfl := Option.some.inj first
      rw [alive] at locked
      rw [Option.some.inj locked]
    | none =>
      rw [List.find?_cons_of_neg (by simp [locked])] at first
      exact ih first

theorem releaseFirst_tcpInfo (w : World) (f : Flow) (ps : List L7Protocol) (k : Nat) :
    (w.releaseFirst f ps).cache (.tcpInfo k) = w.cache (.tcpInfo k) := by
  induction ps with
  | nil => rfl
  | cons q rest ih =>
    unfold World.releaseFirst
    split
    · exact World.cache_setCache_other (by simp)
    · exact ih

theorem releaseFlow_attached {s : Transport} {a : Obj} {id : CacheId} {x : Obj}
    (tcp : (s.flow a).protocol = World.ipprotoTcp) (returnable : Returnable s a)
    (attached : Attached s a id x) :
    (s.world.releaseFlow (s.flow a)).cache id = (s.world.cache id).release (some x) := by
  unfold World.releaseFlow
  rw [if_pos tcp]
  cases attached with
  | tcpInfo _ alive =>
    obtain ⟨k, registered, home⟩ := returnable.registered x alive
    obtain ⟨pointer, owns⟩ := Option.filter_eq_some_iff.mp alive
    have locks : (s.world.cache x.home).Owns x ∨ (s.world.cache (.tcpInfo k)).Owns x := by
      rw [home] at owns ⊢
      simpa [registered] using owns
    rw [home, releaseFirst_tcpInfo]
    unfold World.releaseTcpInfo
    rw [pointer, registered]
    simp only
    rw [if_pos locks]
    exact World.cache_setCache_same _ _ _
  | info p _ alive =>
    have kept : ∀ q, (s.world.releaseTcpInfo (s.flow a)).lockInfo q (s.flow a) =
        s.world.lockInfo q (s.flow a) := by
      intro q
      unfold World.lockInfo
      rw [World.releaseTcpInfo_infoPool]
    have first := returnable.first p x alive
    simp only [← kept] at first
    rw [releaseFirst_found first ((kept p).trans alive)]
    unfold World.releaseTo
    rw [World.cache_setCache_same, World.releaseTcpInfo_infoPool]

/-! ### The segment -/

/-- The segment goes to the forwarder, and not to the close of the flow. -/
def Forwarded (s : Transport) (p : Packet) : Prop :=
  s.forwards = true ∧ 0 < p.totalLength - p.headerSize - p.tcpHdrLength

instance (s : Transport) (p : Packet) : Decidable (s.Forwarded p) :=
  inferInstanceAs (Decidable (_ ∧ _))

theorem closeFlow_total {s : Transport} {a : Obj} (sound : Sound s) (member : a ∈ s.table) :
    ∃ t, TCPProtocol.closeFlow s a = .ok t := by
  have given := gave_releaseObjects s a
  have table := releaseObjects_table s a
  have id : (s.releaseObjects a).getId a = s.getId a := getId_of_ident (given.flows a)
  have before := sound.congr (releaseObjects_fc s a)
    (fun b _ => getId_of_ident (given.flows b)) (.of_eq table)
  unfold TCPProtocol.closeFlow removeFlow
  rw [before.findId (table ▸ member)]
  exact ⟨_, rfl⟩

/-- The close gives every info of the flow to its cache. -/
theorem closeFlow_attached {s t : Transport} {a : Obj} {id : CacheId} {x : Obj}
    (tcp : (s.flow a).protocol = World.ipprotoTcp) (returnable : Returnable s a)
    (attached : Attached s a id x) (h : TCPProtocol.closeFlow s a = .ok t) :
    some x ∈ (t.world.cache id).free := by
  have other : id ≠ .flow s.layer := by
    cases attached with
    | tcpInfo _ alive =>
      obtain ⟨k, -, home⟩ := returnable.registered x alive
      rw [home]
      simp
    | info p _ alive => simp
  have cache : t.world.cache id = (s.world.releaseFlow (s.flow a)).cache id := by
    unfold TCPProtocol.closeFlow removeFlow at h
    split at h
    · rename_i u removed
      split at removed
      · obtain rfl := Except.ok.inj removed
        obtain rfl := Except.ok.inj h
        exact World.cache_setCache_other other
      · exact absurd removed (by simp)
    · exact absurd h (by simp)
  rw [cache, releaseFlow_attached tcp returnable attached,
    Cache.release_free _ (returnable.room id x attached)]
  exact List.mem_append_right _ List.mem_cons_self

theorem processFlowPacket_closes {s : Transport} {a i : Obj} {p : Packet} {o : Outside}
    {d : Tcp.Side} {st : Tcp.TcpState} (range : Tcp.InRange (s.tcpInfos i) st)
    (directed : (s.flow a).direction = d.dir) (rst : p.tcp.rst = true) (quiet : ¬s.Forwarded p) :
    ∃ v, Same s v ∧ SamePools s v ∧
      TCPProtocol.processFlowPacket s a i p o = TCPProtocol.closeFlow v a := by
  unfold Forwarded at quiet
  unfold TCPProtocol.processFlowPacket
  simp only
  generalize p.totalLength - p.headerSize - p.tcpHdrLength = bytes at quiet ⊢
  have same := (same_notePacket s a bytes).trans (same_noteAnomaly _ a p.anomaly)
  have counted : SamePools s (s.notePacket a bytes) := samePools_setFlow s rfl
  have pools := counted.trans (samePools_noteAnomaly _ a p.anomaly)
  have part : ((s.notePacket a bytes).noteAnomaly a p.anomaly).tcpPart = s.tcpPart :=
    tcpPart_noteAnomaly _ a p.anomaly
  have direction : (((s.notePacket a bytes).noteAnomaly a p.anomaly).flow a).direction = d.dir := by
    rw [← directed]
    unfold noteAnomaly
    split <;> simp [notePacket, Flow.setPacketAnomaly]
  generalize (s.notePacket a bytes).noteAnomaly a p.anomaly = u at same pools part direction ⊢
  have infos : u.tcpInfos = s.tcpInfos := congrArg TcpPart.infos part
  have plugged : u.forwards = s.forwards := congrArg TcpPart.forwards part
  have before : Tcp.InRange (u.tcpInfos i) st := infos ▸ range
  obtain ⟨info, ran, -⟩ := Tcp.computeState_inRange before direction u.totals p.tcp bytes
  obtain ⟨w, computed⟩ : ∃ w, TCPProtocol.computeState u a i p.tcp bytes = .ok w := by
    unfold TCPProtocol.computeState
    rw [ran]
    exact ⟨_, rfl⟩
  obtain ⟨totals, f, moved, forwards, -⟩ := computeState_left computed
  have shut := Tcp.computeState_reset rst moved
  have looked := tcpPart_lookupIPSet w a o
  have read : (w.lookupIPSet a o).tcpInfos = w.tcpInfos := congrArg TcpPart.infos looked
  have kept : (w.lookupIPSet a o).forwards = w.forwards := congrArg TcpPart.forwards looked
  have off : ¬((w.lookupIPSet a o).forwards = true ∧ 0 < bytes) := by
    rw [kept, forwards, plugged]
    exact quiet
  have closed : ((w.lookupIPSet a o).tcpInfos i).statePrev = Tcp.TcpState.closed.code ∧
      ((w.lookupIPSet a o).tcpInfos i).stateCurr = Tcp.TcpState.closed.code := by
    rw [read]
    exact shut
  refine ⟨w.lookupIPSet a o, (same.trans (same_computeState computed)).trans (same_lookupIPSet w a o),
    (pools.trans (samePools_computeState computed)).trans (samePools_lookupIPSet w a o), ?_⟩
  rw [computed]
  simp only [bind, Except.bind]
  rw [if_neg off, if_pos closed]

/-- The flow is gone, and every info it had is back in the free part of its cache. -/
def GivenUp (s : Transport) (a : Obj) (t : Transport) : Prop :=
  a ∉ t.table ∧ ∀ id x, Attached s a id x → some x ∈ (t.world.cache id).free

section Segment

variable {s : Transport} {a : Obj} {p : Packet} {o : Outside}

theorem getFlow_known (hint : Nat) (known : s.findFlow (p.hash1 .tcp) (p.hash2 .tcp) = some a) :
    ∃ s₁, (s.begin p).getFlow .tcp p hint = .ok (some a, s₁) ∧ Same (s.begin p) s₁ ∧
      SamePools s s₁ ∧ s₁.tcpInfos = s.tcpInfos ∧ s₁.forwards = s.forwards := by
  have there : (s.begin p).findFlow (p.hash1 .tcp) (p.hash2 .tcp) = some a := known
  have pools : SamePools s (s.begin p) := ⟨rfl, rfl, fun _ => rfl⟩
  unfold getFlow
  rw [there]
  exact ⟨_, rfl, same_setFlow _ rfl, pools.trans (samePools_setFlow _ rfl), rfl, rfl⟩

theorem reset_closes (sound : Sound s) (range : InRange s) (flows : TcpFlows s)
    (known : s.findFlow (p.hash1 .tcp) (p.hash2 .tcp) = some a) (rst : p.tcp.rst = true)
    (alive : (s.lockTcpInfo a).isSome) (quiet : ¬s.Forwarded p) (returnable : Returnable s a) :
    ∃ t, s.processPacket .tcp p o = .ok t ∧ GivenUp s a t := by
  obtain ⟨i, locked⟩ := Option.isSome_iff_exists.mp alive
  obtain ⟨s₁, got, same, pools, infos, forwards⟩ := getFlow_known o.hint known
  obtain ⟨d, direction⟩ := getFlow_side got
  obtain ⟨st, before⟩ := range i
  have current : SamePools s { s₁ with currentFlow := some a } := pools.trans ⟨rfl, rfl, fun _ => rfl⟩
  have stays : ¬Forwarded { s₁ with currentFlow := some a } p := by
    intro both
    exact quiet ⟨forwards ▸ both.1, both.2⟩
  have numbers : Tcp.InRange (Transport.tcpInfos { s₁ with currentFlow := some a } i) st := by
    show Tcp.InRange (s₁.tcpInfos i) st
    rw [infos]
    exact before
  obtain ⟨v, kept, given, closes⟩ :=
    processFlowPacket_closes (o := o) numbers direction rst stays
  have held : Sound v := by
    have begun := (begin_sound sound p).same same
    have marked : Sound { s₁ with currentFlow := some a } :=
      begun.congr rfl (fun _ _ => rfl) (.of_eq rfl)
    exact marked.same kept
  have member : a ∈ v.table := by
    rw [kept.table]
    show a ∈ s₁.table
    rw [same.table]
    exact (findFlow_some known).1
  have whole := current.trans given
  obtain ⟨t, closed⟩ := closeFlow_total held member
  have ran : s.processPacket .tcp p o = .ok t := by
    have locks : lockTcpInfo { s₁ with currentFlow := some a } a = some i :=
      (current.lockTcpInfo a).trans locked
    simp only [processPacket, TCPProtocol.processPacket]
    rw [got]
    simp only [bind, Except.bind]
    rw [locks]
    exact closes.trans closed
  obtain ⟨-, table, -⟩ := closeFlow_spec held member closed
  refine ⟨t, ran, ?_, fun id x attached => ?_⟩
  · rw [table]
    exact held.nodup.not_mem_erase
  · have tcp : (v.flow a).protocol = World.ipprotoTcp :=
      (whole.protocol a).trans (flows a (findFlow_some known).1)
    exact closeFlow_attached tcp (returnable.same whole) (whole.attached attached) closed

/-- The packet runs the timers, and the sweep reaches the flow. -/
def SweptBy (s : Transport) (a : Obj) (p : Packet) : Prop :=
  s.lastTimeout < p.time - s.timeout ∧
    a ∈ s.table.takeWhile fun b => decide (s.Expired p.time b)

/-- When a segment with RST takes the flow out of the table: by the close, or, as any other segment
would, by the timers. -/
theorem reset_leaves_iff {t : Transport} (sound : Sound s)
    (known : s.findFlow (p.hash1 .tcp) (p.hash2 .tcp) = some a) (rst : p.tcp.rst = true)
    (h : s.processPacket .tcp p o = .ok t) :
    a ∉ t.table ↔ (s.lockTcpInfo a).isSome ∧ (¬s.Forwarded p ∨ SweptBy s a p) := by
  obtain ⟨found, s₁, processed⟩ := processPacket_spec sound h
  obtain ⟨s₂, got, same, pools, -, forwards⟩ := getFlow_known o.hint known
  obtain ⟨rfl, rfl⟩ := Prod.mk.inj (Except.ok.inj (processed.got.symm.trans got))
  have table : s₁.table = s.table := same.table
  have time : s₁.packetTime = p.time := congrArg Members.packetTime same.members
  have last : s₁.lastTimeout = s.lastTimeout := congrArg Members.lastTimeout same.members
  have timeout : s₁.timeout = s.timeout := congrArg Members.timeout same.members
  have opened : s₁.closed = false := congrArg Members.closed same.members
  have expired : (fun b => decide (s₁.Expired s₁.packetTime b)) =
      fun b => decide (s.Expired p.time b) := by
    funext b
    have same := expired_eq (s := s) same.ident timeout
    simp only [same, time]
  have member : a ∈ s.table := (findFlow_some known).1
  have locks : s₁.lockTcpInfo a = s.lockTcpInfo a := pools.lockTcpInfo a
  have outcome := processed.outcome a rfl
  cases locked : s.lockTcpInfo a with
  | none =>
    -- without its `TCPInfo` the packet does nothing
    have silent : s₁.Ignored .tcp a := ⟨rfl, locks.trans locked⟩
    cases outcome with
    | ignored _ flows kept => simp [kept, table, member]
    | closed heard => exact absurd silent heard
    | swept heard => exact absurd silent heard
    | timed heard => exact absurd silent heard
  | some i =>
    have alive := locks.trans locked
    have ran := processPacket_got got alive h
    have shut : t.closed = true ↔ ¬s.Forwarded p := by
      obtain ⟨totals, flow, flow', -, computed, -, closed⟩ := processFlowPacket_info ran opened
      rw [closed, and_iff_left (Tcp.computeState_reset rst computed)]
      unfold Forwarded
      rw [forwards]
    have noisy : t.closed = s₁.closed → s.Forwarded p := by
      intro kept
      by_contra quiet
      have closed := shut.mpr quiet
      rw [kept, opened] at closed
      exact absurd closed (by simp)
    simp only [Option.isSome_some, true_and]
    cases outcome with
    | ignored silent => exact absurd (alive.symm.trans silent.2) (by simp)
    | closed heard flows left closed =>
      refine iff_of_true ?_ (Or.inl (shut.mp closed))
      rw [left]
      exact processed.sound.nodup.not_mem_erase
    | swept heard due flows left released closed swept =>
      rw [or_iff_right (not_not.mpr (noisy closed)), left, table, expired]
      rw [last, time, timeout] at due
      exact (OrderedIndex.not_mem_dropWhile_iff sound.nodup member).trans (and_iff_right due).symm
    | timed heard early flows now left released closed =>
      rw [last, time, timeout] at early
      refine iff_of_false ?_ ?_
      · rw [not_not, left.mem_iff, table]
        exact member
      · rintro (quiet | ⟨due, -⟩)
        · exact quiet (noisy closed)
        · exact early due

end Segment

/-! ### Runs -/

/-- Whatever segment with RST comes for a flow of the table gives the flow up. -/
def ResetsClose (s : Transport) : Prop :=
  ∀ a p o, s.findFlow (p.hash1 .tcp) (p.hash2 .tcp) = some a → p.tcp.rst = true →
    ∃ t, s.processPacket .tcp p o = .ok t ∧ GivenUp s a t

/-- In every run, with or without a forwarder at the transport, a segment with RST gives its flow up
when the `TCPInfo` of the flow is alive, the segment is not forwarded and `releaseFlow` finds the infos;
and unless the timers take the flow, only such a segment takes it out of the table. -/
theorem always_gives_up (layer : Nat) (objects : CacheId → Nat) (registered : Option Nat)
    (timeout : Int) (forwards : Bool) (events : List Event) :
    Transition.Always (step .tcp)
      (fun s => ∀ a p o, s.findFlow (p.hash1 .tcp) (p.hash2 .tcp) = some a → p.tcp.rst = true →
        ((s.lockTcpInfo a).isSome → ¬s.Forwarded p → Returnable s a →
          ∃ t, s.processPacket .tcp p o = .ok t ∧ GivenUp s a t) ∧
        ∀ t, s.processPacket .tcp p o = .ok t →
          (a ∉ t.table ↔ (s.lockTcpInfo a).isSome ∧ (¬s.Forwarded p ∨ SweptBy s a p)))
      { start layer objects registered timeout with forwards := forwards } events := by
  have begun : Sound { start layer objects registered timeout with forwards := forwards } :=
    (sound_start layer objects registered timeout).congr rfl (fun _ _ => rfl) (.of_eq rfl)
  have keeps : Transition.Always (step .tcp) (fun s => Sound s ∧ InRange s ∧ TcpFlows s)
      { start layer objects registered timeout with forwards := forwards } events := by
    refine Transition.always_of_inv ?_ ⟨begun, fun j => ⟨.closed, Tcp.reset_inRange {}⟩, ?_⟩
    · intro s e t held h
      obtain ⟨sound, range, flows⟩ := held
      exact ⟨sound_step sound h, inRange_step sound range h, tcpFlows_step sound flows h⟩
    · intro a member
      exact absurd member (by simp [start, World.start, Transport.table])
  refine Transition.always_mono (fun s held a p o known rst => ?_) keeps
  obtain ⟨sound, range, flows⟩ := held
  exact ⟨fun alive quiet returnable => reset_closes sound range flows known rst alive quiet returnable,
    fun t h => reset_leaves_iff sound known rst h⟩

/-- A segment with RST and one octet of payload: TCP forwards it and the flow stays. -/
def resetWithPayload : Packet :=
  { (probe 2 1000).1 with tcp := { rst := true }, totalLength := 41 }

theorem not_always_gives_up :
    ¬∀ events, Transition.Always (step .tcp) ResetsClose (start 0 (fun _ => 1) (some 0) 180) events := by
  intro h
  have run := h [.packet (probe 1 1000).1 {}]
  have stays : ((Transition.run (step .tcp) (start 0 (fun _ => 1) (some 0) 180)
      [.packet (probe 1 1000).1 {}]).any fun s =>
        decide (s.findFlow (resetWithPayload.hash1 .tcp) (resetWithPayload.hash2 .tcp) =
          some ⟨.flow 0, 0⟩) &&
        (s.processPacket .tcp resetWithPayload {}).toOption.any
          fun t => decide ((⟨.flow 0, 0⟩ : Obj) ∈ t.table)) = true := by decide +kernel
  cases reached : Transition.run (step .tcp) (start 0 (fun _ => 1) (some 0) 180)
      [.packet (probe 1 1000).1 {}] with
  | none =>
    rw [reached] at stays
    exact absurd stays (by simp)
  | some s =>
    rw [reached, Option.any_some, Bool.and_eq_true, decide_eq_true_iff] at stays
    obtain ⟨known, stays⟩ := stays
    obtain ⟨t, ran, gone, -⟩ :=
      Transition.always_final run reached ⟨.flow 0, 0⟩ resetWithPayload {} known rfl
    rw [ran] at stays
    exact gone (of_decide_eq_true stays)

end Transport

end AIEngine
