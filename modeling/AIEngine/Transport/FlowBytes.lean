import AIEngine.Resources.ReleaseCache
import AIEngine.Transport.Segments

/-!
# The bytes of the flows

`processPacket` adds to `total_bytes` of the flow what it takes for the length of the payload. Nothing
else of it, and nothing above the transport, writes this field.
-/

namespace AIEngine

/-- `bytes` in `TCPProtocol::processPacket` -/
def Packet.tcpBytes (p : Packet) : Int := p.totalLength - p.headerSize - p.tcpHdrLength

/-- `bytes` in `UDPProtocol::processPacket`, behind the check against the packet -/
def Packet.udpBytes (p : Packet) : Int :=
  if p.length < p.udpLength.toNat - UDPProtocol.headerLength then p.length
  else p.udpLength.toNat - UDPProtocol.headerLength

def Packet.bytes (p : Packet) : Kind → Int
  | .tcp => p.tcpBytes
  | .udp => p.udpBytes

/-! ### No application writes the bytes of a flow -/

namespace FrequencyProtocol

theorem attachFrequencies_bytes {p p' : FrequencyProtocol} {f f' : Flow} {r : Option Obj}
    (h : p.attachFrequencies f = .ok (r, p', f')) : f'.totalBytes = f.totalBytes := by
  unfold attachFrequencies at h
  split at h
  · cases h
    rfl
  · split at h <;> cases h <;> rfl

theorem attachPacketFrequencies_bytes {p p' : FrequencyProtocol} {f f' : Flow} {r : Option Obj}
    (h : p.attachPacketFrequencies f = .ok (r, p', f')) : f'.totalBytes = f.totalBytes := by
  unfold attachPacketFrequencies at h
  split at h
  · cases h
    rfl
  · split at h <;> cases h <;> rfl

theorem processFlow_bytes {p p' : FrequencyProtocol} {f f' : Flow} {payload : Payload}
    (h : p.processFlow f payload = .ok (p', f')) : f'.totalBytes = f.totalBytes := by
  unfold processFlow at h
  simp only at h
  split at h
  · obtain ⟨⟨_, p₁, f₁⟩, first, h⟩ := Ending.bind_ok h
    obtain ⟨⟨_, p₂, f₂⟩, second, h⟩ := Ending.bind_ok h
    obtain ⟨p₃, -, h⟩ := Ending.bind_ok h
    cases h
    have same := attachFrequencies_bytes first
    rw [attachPacketFrequencies_bytes second, same]
  · cases h
    rfl

end FrequencyProtocol

namespace World

/-- `total_bytes` of the flows. -/
def bytes (w : World) : Obj → Int := fun b => (w.flows b).totalBytes

theorem bytes_setFlow (w : World) {a : Obj} {f : Flow} (same : f.totalBytes = (w.flows a).totalBytes) :
    (w.setFlow a f).bytes = w.bytes := by
  funext b
  by_cases chosen : b = a
  · simp [bytes, setFlow, chosen, same]
  · simp [bytes, setFlow, chosen]

theorem bytes_of_flows {w w' : World} (same : w'.flows = w.flows) : w'.bytes = w.bytes := by
  unfold bytes
  rw [same]

theorem setInfo_bytes (f : Flow) (p : L7Protocol) (i : Option Obj) :
    (f.setInfo p i).totalBytes = f.totalBytes := by cases p <;> rfl

theorem dropHit_flows (w : World) (p : L7Protocol) (x : StringField) (i : Obj) :
    (w.dropHit p x i).flows = w.flows := by
  unfold dropHit
  split <;> rfl

theorem ban_flows (w : World) (p : L7Protocol) (i : Obj) : (w.ban p i).flows = w.flows := by
  cases p with
  | http => simp [ban, Http.releaseHttpInfoCache, Http.releaseHttpInfo, dropHit_flows, setBanned, setInfo]
  | _ => rfl

theorem runActions_flows {p : L7Protocol} {i : Obj} (actions : List AppAction) {w w' : World}
    (h : w.runActions p i actions = .ok w') : w'.flows = w.flows := by
  induction actions generalizing w with
  | nil =>
    obtain rfl := Except.ok.inj h
    rfl
  | cons action rest ih =>
    cases action with
    | ban =>
      obtain rfl := Except.ok.inj h
      exact ban_flows w p i
    | string x value =>
      simp only [runActions] at h
      split at h
      · exact ih h
      · rename_i attach known
        obtain ⟨countHit, rfl⟩ := attachString_intern known
        split at h
        · rename_i w₁ attached
          exact (ih h).trans (intern_flows attached)
        · exact absurd h (by simp)

theorem attachInfo_bytes {w w' : World} {p : L7Protocol} {a : Obj} {r : Option Obj}
    (h : w.attachInfo p a = .ok (r, w')) : w'.bytes = w.bytes := by
  rcases attachInfo_cases h with ⟨_, _, _, rfl⟩ | ⟨i, c, _, _, _, rfl⟩ | ⟨c, _, _, rfl⟩
  · rfl
  · have taken := bytes_of_flows (setCache_flows w (.info p) c)
    refine (bytes_setFlow ((w.setCache (.info p) c).setInfo i {}) ?_).trans taken
    rw [setInfo_bytes]
    exact (congrFun taken a).symm
  · exact bytes_of_flows (setCache_flows w (.info p) c)

theorem runApplication_bytes {w w' : World} {a : Obj} {x : Application}
    (h : w.runApplication a x = .ok w') : w'.bytes = w.bytes := by
  cases x with
  | nothing =>
    obtain rfl := Except.ok.inj h
    rfl
  | protocol p found =>
    obtain ⟨r, w₁, attached, rfl | ⟨i, -, -, ran⟩⟩ := processFlow_cases h
    · exact attachInfo_bytes attached
    · exact (bytes_of_flows (runActions_flows found ran)).trans (attachInfo_bytes attached)
  | frequency k payload =>
    simp only [runApplication] at h
    split at h
    · rename_i q f processed
      obtain rfl := Except.ok.inj h
      exact bytes_setFlow (w.setFrequency k q) (FrequencyProtocol.processFlow_bytes processed)
    · exact absurd h (by simp)

theorem releaseFirst_flows (w : World) (f : Flow) (ps : List L7Protocol) :
    (w.releaseFirst f ps).flows = w.flows := by
  induction ps with
  | nil => rfl
  | cons p rest ih =>
    unfold releaseFirst
    split
    · exact releaseTo_flows ..
    · exact ih

theorem releaseFlow_flows (w : World) (f : Flow) : (w.releaseFlow f).flows = w.flows := by
  have tcpInfo : (w.releaseTcpInfo f).flows = w.flows := by
    unfold releaseTcpInfo
    split
    · split
      · exact releaseTo_flows ..
      · rfl
    · rfl
  unfold releaseFlow
  split
  · rw [releaseFirst_flows, tcpInfo]
  · rw [releaseFirst_flows, releaseFirst_flows]

end World

namespace Transport

/-- Behind the forwarding. -/
def finish (s : Transport) (a : Obj) (hint : Nat) : Kind → Except Fault Transport
  | .tcp => TCPProtocol.finish s a hint
  | .udp => UDPProtocol.finish s a hint

section Frame

variable {s t : Transport} {kind : Kind} {o : Outside} {a i : Obj}

/-- The packet is counted at its flow. -/
structure Prepared (s u : Transport) (a : Obj) (bytes : Int) : Prop where
  forwards : u.forwards = s.forwards
  bytes : u.world.bytes = Function.update s.world.bytes a (s.world.bytes a + bytes)

theorem prepared_notePacket (s : Transport) (a : Obj) (bytes : Int) :
    Prepared s (s.notePacket a bytes) a bytes := by
  refine ⟨rfl, ?_⟩
  funext b
  by_cases chosen : b = a
  · rw [chosen, Function.update_self]
    exact congrArg Flow.totalBytes (flow_setFlow_same s a _)
  · rw [Function.update_of_ne chosen]
    exact congrArg Flow.totalBytes (flow_setFlow_other chosen)

/-- Nothing but the bytes of the flows and the forwarder counts. -/
structure SameBytes (s u : Transport) : Prop where
  forwards : u.forwards = s.forwards
  bytes : u.world.bytes = s.world.bytes

theorem SameBytes.trans {s u v : Transport} (first : SameBytes s u) (second : SameBytes u v) :
    SameBytes s v := ⟨second.forwards.trans first.forwards, second.bytes.trans first.bytes⟩

theorem SameBytes.refl (s : Transport) : SameBytes s s := ⟨rfl, rfl⟩

theorem Prepared.then {s u v : Transport} {bytes : Int} (prepared : Prepared s u a bytes)
    (same : SameBytes u v) : Prepared s v a bytes :=
  ⟨same.forwards.trans prepared.forwards, same.bytes.trans prepared.bytes⟩

theorem Prepared.after {s u v : Transport} {bytes : Int} (same : SameBytes s u)
    (prepared : Prepared u v a bytes) : Prepared s v a bytes :=
  ⟨prepared.forwards.trans same.forwards, by rw [prepared.bytes, same.bytes]⟩

theorem sameBytes_setFlow (s : Transport) {a : Obj} {f : Flow}
    (same : f.totalBytes = (s.flow a).totalBytes) : SameBytes s (s.setFlow a f) :=
  ⟨rfl, World.bytes_setFlow s.world same⟩

theorem sameBytes_noteAnomaly (s : Transport) (a : Obj) (pa : PacketAnomalyType) :
    SameBytes s (s.noteAnomaly a pa) := by
  unfold noteAnomaly
  split
  · exact sameBytes_setFlow s rfl
  · exact .refl s

theorem sameBytes_lookupIPSet (s : Transport) (a : Obj) (o : Outside) :
    SameBytes s (s.lookupIPSet a o) := by
  unfold lookupIPSet
  split
  · split
    · exact sameBytes_setFlow s rfl
    · exact sameBytes_setFlow s rfl
    · exact .refl s
  · exact .refl s

theorem sameBytes_computeState {bytes : Int} {tcp : Tcp.TcpHeader}
    (h : TCPProtocol.computeState s a i tcp bytes = .ok t) : SameBytes s t := by
  unfold TCPProtocol.computeState at h
  split at h
  · rename_i totals f info computed
    obtain rfl := Except.ok.inj h
    have same : f.totalBytes = (s.flow a).totalBytes := by
      rw [Tcp.computeState_flow computed]
      unfold Tcp.badFlagsAnomaly
      split <;> rfl
    have written := sameBytes_setFlow s same
    exact ⟨written.forwards, written.bytes⟩
  · exact absurd h (by simp)

theorem sameBytes_forwardFlow (h : s.forwardFlow a o = .ok t) : SameBytes s t := by
  unfold forwardFlow at h
  split at h
  · rename_i w ran
    obtain rfl := Except.ok.inj h
    have pointed : (s.world.setFlow a { s.flow a with packet := some o.packet }).bytes =
        s.world.bytes := World.bytes_setFlow s.world rfl
    have marked : (w.setFlow a (o.marks.write (w.flows a))).bytes = w.bytes :=
      World.bytes_setFlow w rfl
    exact ⟨rfl, marked.trans ((World.runApplication_bytes ran).trans pointed)⟩
  · exact absurd h (by simp)

theorem sameBytes_expire (s : Transport) (a : Obj) : SameBytes s (s.expire a) := by
  refine ⟨rfl, World.bytes_of_flows ?_⟩
  exact World.releaseFlow_flows (s.setTable (s.table.erase a)).world _

theorem sameBytes_sweep (time : Int) (xs : List Obj) (s : Transport) :
    SameBytes s (s.sweep time xs) := by
  induction xs generalizing s with
  | nil => exact .refl s
  | cons a rest ih =>
    unfold sweep
    split
    · exact (sameBytes_expire s a).trans (ih (s.expire a))
    · exact .refl s

theorem sameBytes_closeFlow (h : TCPProtocol.closeFlow s a = .ok t) : SameBytes s t := by
  unfold TCPProtocol.closeFlow removeFlow at h
  split at h
  · rename_i u removed
    split at removed
    · obtain rfl := Except.ok.inj removed
      obtain rfl := Except.ok.inj h
      exact ⟨rfl, World.bytes_of_flows (World.releaseFlow_flows s.world _)⟩
    · exact absurd removed (by simp)
  · exact absurd h (by simp)

theorem sameBytes_checkTimers {refresh : Bool} {hint : Nat}
    (h : s.checkTimers a refresh hint = .ok t) : SameBytes s t := by
  rcases checkTimers_cases h with ⟨-, rfl⟩ | ⟨-, ⟨b, u, -, rfl, rfl⟩ | rfl⟩
  · have swept := sameBytes_sweep s.packetTime s.table
      { s with lastTimeout := s.packetTime, swept := true }
    exact ⟨swept.forwards, swept.bytes⟩
  · have written : SameBytes s (s.setLastPacketTime b s.packetTime) := sameBytes_setFlow s rfl
    exact ⟨written.forwards, written.bytes⟩
  · exact sameBytes_setFlow s rfl

theorem sameBytes_finish {hint : Nat} (h : s.finish a hint kind = .ok t) : SameBytes s t := by
  cases kind with
  | tcp =>
    have rejected : SameBytes s (TCPProtocol.checkReject s a) := by
      unfold TCPProtocol.checkReject
      simp only
      split
      · exact sameBytes_setFlow s rfl
      · exact .refl s
    exact rejected.trans (sameBytes_checkTimers h)
  | udp =>
    have rejected : SameBytes s (UDPProtocol.checkReject s a) := by
      unfold UDPProtocol.checkReject
      simp only
      split
      · split <;> exact sameBytes_setFlow s rfl
      · exact .refl s
    exact rejected.trans (sameBytes_checkTimers h)

theorem describe_bytes (s : Transport) (kind : Kind) (p : Packet) (f : Flow) :
    (s.describe kind p f).totalBytes = f.totalBytes := by
  unfold describe
  cases p.tag <;> simp only <;> split <;>
    simp only [Flow.setFiveTuple, Flow.setFiveTuple6, Flow.setArriveTime, Flow.setLastPacketTime,
      Flow.setTag]

theorem sameBytes_attach (h : s.attach kind a = .ok t) : SameBytes s t := by
  cases kind with
  | udp =>
    obtain rfl := Except.ok.inj h
    exact .refl s
  | tcp =>
    simp only [attach, attachTcpInfo] at h
    split at h
    · rename_i i c acquired
      obtain rfl := Except.ok.inj h
      have pooled := World.bytes_of_flows (World.setCache_flows s.world (.tcpInfo s.layer) c)
      refine ⟨rfl, (World.bytes_setFlow _ ?_).trans pooled⟩
      exact (congrFun pooled a).symm
    · rename_i c failed
      obtain rfl := Except.ok.inj h
      exact ⟨rfl, World.bytes_of_flows (World.setCache_flows s.world (.tcpInfo s.layer) c)⟩
    · exact absurd h (by simp)

end Frame

end Transport

end AIEngine
