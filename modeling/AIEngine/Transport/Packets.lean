import AIEngine.Resources.Application
import AIEngine.Transport.FlowManager

/-!
# Packets (`TCPProtocol.cc`, `UDPProtocol.cc`)

`getFlow` and `processPacket` of the two transports. What lies outside of them comes with the packet:
the place the duration index finds for a flow, the match of its address in the IP sets and what the
application layer does with the payload.
-/

namespace AIEngine

inductive Kind where
  | tcp | udp
  deriving DecidableEq, Repr

def Kind.ipproto : Kind → BitVec 16
  | .tcp => World.ipprotoTcp
  | .udp => World.ipprotoUdp

/-- What the transport reads of a packet, of its own header and of the multiplexer below. -/
structure Packet where
  time : Int
  address : IPAddress
  sourcePort : BitVec 16
  destinationPort : BitVec 16
  /-- `getTag`, when `haveTag` -/
  tag : Option (BitVec 32) := none
  anomaly : PacketAnomalyType := .none
  length : Int := 0
  /-- `total_length` and `getHeaderSize` of the multiplexer -/
  totalLength : Int := 40
  headerSize : Int := 20
  tcp : Tcp.TcpHeader := {}
  tcpHdrLength : Int := 20
  udpLength : BitVec 16 := 8
  deriving DecidableEq, Repr

/-- The fields of a flow that the application layer writes besides its objects. -/
structure Marks where
  totalPacketsL7 : BitVec 32 := 0
  regex : Option Nat := none
  forwarder : Option Nat := none
  regexMng : Option Nat := none
  frequencyEngineInspected : Bool := false
  reject : Bool := false
  partialReject : Bool := false
  haveEvidence : Bool := false
  pa : PacketAnomalyType := .none
  deriving DecidableEq, Repr

def Marks.write (m : Marks) (f : Flow) : Flow :=
  { f with
    totalPacketsL7 := m.totalPacketsL7
    regex := m.regex
    forwarder := m.forwarder
    regexMng := m.regexMng
    frequencyEngineInspected := m.frequencyEngineInspected
    reject := m.reject
    partialReject := m.partialReject
    haveEvidence := m.haveEvidence
    pa := m.pa }

structure Outside where
  hint : Nat := 0
  /-- a set of the manager that holds the destination address, and its regex manager -/
  ipset : Option (Nat × Option Nat) := none
  packet : Nat := 0
  application : Application := .nothing
  marks : Marks := {}
  deriving DecidableEq, Repr

def xorTag (tag : Option (BitVec 32)) (h : BitVec 64) : BitVec 64 :=
  match tag with
  | some t => h ^^^ t.setWidth 64
  | none => h

def Packet.hash1 (p : Packet) (kind : Kind) : BitVec 64 :=
  xorTag p.tag (p.address.getHash p.sourcePort kind.ipproto p.destinationPort)

def Packet.hash2 (p : Packet) (kind : Kind) : BitVec 64 :=
  xorTag p.tag (p.address.getHash p.destinationPort kind.ipproto p.sourcePort)

namespace Transport

/-! ### `getFlow` -/

/-- What `getFlow` writes into the flow it has just acquired. -/
def describe (s : Transport) (kind : Kind) (p : Packet) (f : Flow) : Flow :=
  let f := { f with hash := p.hash1 kind, regexMng := s.sigs }
  let f := match p.tag with
    | some t => f.setTag t
    | none => f
  let f := (f.setArriveTime s.packetTime).setLastPacketTime s.packetTime
  if p.address.type = 4 then
    f.setFiveTuple p.address.ip4Src p.sourcePort kind.ipproto p.address.ip4Dst p.destinationPort
  else
    f.setFiveTuple6 p.address.ip6Src p.sourcePort kind.ipproto p.address.ip6Dst p.destinationPort

def attachTcpInfo (s : Transport) (a : Obj) : Except Fault Transport :=
  match (s.world.cache (.tcpInfo s.layer)).acquire with
  | .ok (some i, c) =>
    let s := { s with
      world := s.world.setCache (.tcpInfo s.layer) c
      tcpInfos := fun j => if j = i then (s.tcpInfos j).reset else s.tcpInfos j }
    .ok (s.setFlow a { s.flow a with tcpInfo := some i })
  | .ok (none, c) => .ok { s with world := s.world.setCache (.tcpInfo s.layer) c }
  | .error e => .error e

/-- Only TCP flows get more than the flow itself. -/
def attach (s : Transport) (kind : Kind) (a : Obj) : Except Fault Transport :=
  match kind with
  | .tcp => s.attachTcpInfo a
  | .udp => .ok s

def newFlow (s : Transport) (kind : Kind) (p : Packet) (hint : Nat) :
    Except Fault (Option Obj × Transport) :=
  match s.acquireFlow with
  | .ok (some a, s) =>
    match ((s.setFlow a (s.describe kind p (s.flow a))).addFlow a hint).attach kind a with
    | .ok s => .ok (some a, s)
    | .error e => .error e
  | .ok (none, s) => .ok (none, s)
  | .error e => .error e

def getFlow (s : Transport) (kind : Kind) (p : Packet) (hint : Nat) :
    Except Fault (Option Obj × Transport) :=
  match s.findFlow (p.hash1 kind) (p.hash2 kind) with
  | some a =>
    let dir := if p.sourcePort = (s.flow a).sourcePort then FlowDirection.forward else .backward
    .ok (some a, s.setFlow a ((s.flow a).setFlowDirection dir))
  | none => s.newFlow kind p hint

/-! ### The parts of `processPacket` -/

/-- `tcp_info.lock()`: a slot of its own cache or of the registered one owns the object. -/
def lockTcpInfo (s : Transport) (a : Obj) : Option Obj :=
  (s.flow a).tcpInfo.filter fun i =>
    decide ((s.world.cache i.home).Owns i ∨
      ∃ k ∈ s.world.tcpInfoCache, (s.world.cache (.tcpInfo k)).Owns i)

def notePacket (s : Transport) (a : Obj) (bytes : Int) : Transport :=
  let f := s.flow a
  s.setFlow a { f with totalBytes := f.totalBytes + bytes, totalPackets := f.totalPackets + 1 }

/-- A flow keeps the first anomaly. -/
def noteAnomaly (s : Transport) (a : Obj) (pa : PacketAnomalyType) : Transport :=
  if (s.flow a).pa = .none then s.setFlow a ((s.flow a).setPacketAnomaly pa) else s

/-- Once per flow. -/
def lookupIPSet (s : Transport) (a : Obj) (o : Outside) : Transport :=
  if (s.flow a).totalPackets = 1 then
    match o.ipset with
    | some (set, some mng) => s.setFlow a { s.flow a with ipset := some set, regexMng := some mng }
    | some (set, none) => s.setFlow a { s.flow a with ipset := some set }
    | none => s
  else s

def forwardFlow (s : Transport) (a : Obj) (o : Outside) : Except Fault Transport :=
  match (s.world.setFlow a { s.flow a with packet := some o.packet }).runApplication a
      o.application with
  | .ok w => .ok { s with world := w.setFlow a (o.marks.write (w.flows a)) }
  | .error e => .error e

def flowTimeRefreshRate : BitVec 32 := 64

/-- The end of `processPacket`: the timers, or the time of the flow. -/
def checkTimers (s : Transport) (a : Obj) (refresh : Bool) (hint : Nat) : Except Fault Transport :=
  if s.lastTimeout < s.packetTime - s.timeout then
    .ok ({ s with lastTimeout := s.packetTime, swept := true }.updateTimers s.packetTime)
  else if refresh then s.updateFlowTime a s.packetTime hint
  else .ok (s.setLastPacketTime a s.packetTime)

/-- The members that one packet starts with. -/
def begin (s : Transport) (p : Packet) : Transport :=
  { s with packetTime := p.time, released := [], closed := false, swept := false }

end Transport

/-! ### TCP -/

namespace TCPProtocol

open Transport

def computeState (s : Transport) (a i : Obj) (tcp : Tcp.TcpHeader) (bytes : Int) :
    Except Fault Transport :=
  match Tcp.computeState s.totals (s.flow a) (s.tcpInfos i) tcp bytes with
  | .ok (totals, f, info) =>
    .ok ({ s with
      totals := totals
      tcpInfos := fun j => if j = i then info else s.tcpInfos j }.setFlow a f)
  | .error e => .error e

def checkReject (s : Transport) (a : Obj) : Transport :=
  let f := s.flow a
  if f.reject then s.setFlow a { f with reject := false, partialReject := true } else s

/-- The bitwise and is never 1. -/
def refresh (totalPackets : BitVec 32) : Bool := decide (totalPackets &&& flowTimeRefreshRate = 1)

/-- A flow that was closed before and still is leaves the table. -/
def closeFlow (s : Transport) (a : Obj) : Except Fault Transport :=
  match (s.releaseObjects a).removeFlow a with
  | .ok s => .ok { s.returnFlow a with closed := true }
  | .error e => .error e

def finish (s : Transport) (a : Obj) (hint : Nat) : Except Fault Transport :=
  let s := checkReject s a
  s.checkTimers a (refresh (s.flow a).totalPackets) hint

def processFlowPacket (s : Transport) (a i : Obj) (p : Packet) (o : Outside) :
    Except Fault Transport := do
  let bytes := p.totalLength - p.headerSize - p.tcpHdrLength
  let s := (s.notePacket a bytes).noteAnomaly a p.anomaly
  let s ← computeState s a i p.tcp bytes
  let s := s.lookupIPSet a o
  if s.forwards ∧ 0 < bytes then
    let s ← s.forwardFlow a o
    finish s a o.hint
  else if (s.tcpInfos i).statePrev = Tcp.TcpState.closed.code ∧
      (s.tcpInfos i).stateCurr = Tcp.TcpState.closed.code then
    closeFlow s a
  else finish s a o.hint

def processPacket (s : Transport) (p : Packet) (o : Outside) : Except Fault Transport := do
  let (found, s) ← (s.begin p).getFlow .tcp p o.hint
  let s := { s with currentFlow := found }
  match found with
  | none => .ok s
  | some a =>
    match s.lockTcpInfo a with
    | none => .ok s
    | some i => processFlowPacket s a i p o

end TCPProtocol

/-! ### UDP -/

namespace UDPProtocol

open Transport

def headerLength : Int := 8

/-- A length field beyond the packet is cut to the packet, and is an anomaly. -/
def checkLength (s : Transport) (a : Obj) (p : Packet) : Int × Transport :=
  let bytes := p.udpLength.toNat - headerLength
  if p.length < bytes then (p.length, s.noteAnomaly a .udpBogusHeader) else (bytes, s)

/-- The second reject is the last one. -/
def checkReject (s : Transport) (a : Obj) : Transport :=
  let f := s.flow a
  if f.reject then
    if f.partialReject then s.setFlow a { f with reject := false }
    else s.setFlow a { f with partialReject := true }
  else s

def refresh (totalPackets : BitVec 32) : Bool := decide (totalPackets.srem flowTimeRefreshRate = 1)

def finish (s : Transport) (a : Obj) (hint : Nat) : Except Fault Transport :=
  let s := checkReject s a
  s.checkTimers a (refresh (s.flow a).totalPackets) hint

def processFlowPacket (s : Transport) (a : Obj) (p : Packet) (o : Outside) :
    Except Fault Transport := do
  let (bytes, s) := checkLength (s.noteAnomaly a p.anomaly) a p
  let s := (s.notePacket a bytes).lookupIPSet a o
  if s.forwards ∧ 0 < bytes then
    let s ← s.forwardFlow a o
    finish s a o.hint
  else finish s a o.hint

def processPacket (s : Transport) (p : Packet) (o : Outside) : Except Fault Transport := do
  let (found, s) ← (s.begin p).getFlow .udp p o.hint
  let s := { s with currentFlow := found }
  match found with
  | none => .ok s
  | some a => processFlowPacket s a p o

end UDPProtocol

namespace Transport

def processPacket (s : Transport) : Kind → Packet → Outside → Except Fault Transport
  | .tcp => TCPProtocol.processPacket s
  | .udp => UDPProtocol.processPacket s

/-- A packet of this transport, or anything that happens elsewhere: other protocols, other layers
and the calls of the user may change everything but the flow cache, the table and the transport's
part of the flows. -/
inductive Event where
  | packet (p : Packet) (o : Outside)
  | elsewhere (w : World)

def restoreIdent (f g : Flow) : Flow :=
  { g with
    hash := f.hash
    address := f.address
    sourcePort := f.sourcePort
    destPort := f.destPort
    protocol := f.protocol
    tag := f.tag
    haveTag := f.haveTag
    tcpInfo := f.tcpInfo
    arriveTime := f.arriveTime
    currentTime := f.currentTime }

def elsewhere (s : Transport) (w : World) : Transport :=
  { s with
    world := { w.setCache (.flow s.layer) (s.world.cache (.flow s.layer)) with
      table := s.world.table
      flows := fun a => restoreIdent (s.world.flows a) (w.flows a) } }

def step (kind : Kind) (s : Transport) : Event → Option Transport
  | .packet p o => (s.processPacket kind p o).toOption
  | .elsewhere w => some (s.elsewhere w)

/-- Before the first packet. -/
def start (layer : Nat) (objects : CacheId → Nat) (registered : Option Nat) (timeout : Int) :
    Transport where
  layer := layer
  world := World.start objects registered
  timeout := timeout

end Transport

end AIEngine
