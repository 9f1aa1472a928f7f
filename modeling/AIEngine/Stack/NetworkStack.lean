import AIEngine.Gprs.GPRSProtocol
import AIEngine.Stack.LinkLayers

/-!
# Network stacks (`Multiplexer.cc`, `NetworkStack.cc`, `StackLan.cc`, `StackLanIPv6.cc`, `StackMobile.cc`, `StackVirtual.cc`, `StackOpenFlow.cc`)

A stack is a set of multiplexers and the links between them. Three of the five stacks have a tunnel: a
protocol on top of a transport that hands what it carries to a multiplexer of its own, with further layers
above. The transports, and the application protocols on top of them, are a parameter here; they are models of
their own.
-/

namespace AIEngine

open Stack (Frame)

inductive StackKind where
  | lan | lanIPv6 | mobile | virtual | openFlow
  deriving DecidableEq, Repr

/-- The multiplexers of all stacks. `ip` is that of IPv6 in `StackLanIPv6`; `tunnel` is that of GPRS, VXLAN
or OpenFlow, and the ones below it in this list are those above the tunnel. -/
inductive Mux where
  | eth | vlan | mpls | ip | gre | udp | tcp | icmp
  | tunnel | ethVir | ipVir | udpVir | tcpVir | icmpVir
  deriving DecidableEq, Repr

namespace Mux

/-- The height in the stack. -/
def rank : Mux → Nat
  | .eth => 0
  | .vlan | .mpls => 1
  | .ip => 2
  | .gre | .udp | .tcp | .icmp => 3
  | .tunnel => 4
  | .ethVir => 5
  | .ipVir => 6
  | .udpVir | .tcpVir | .icmpVir => 7

/-- `getDownMultiplexer` of a transport or of ICMP -/
def down : Mux → Option Mux
  | .udp | .tcp | .icmp => some .ip
  | .udpVir | .tcpVir | .icmpVir => some .ipVir
  | _ => none

end Mux

/-- An entry of `muxUpMap_`. A packet only goes up, and a transport gets its packets from its own IP. -/
structure Link where
  source : Mux
  target : Mux
  key : BitVec 16
  rises : source.rank < target.rank := by decide
  below : ∀ d ∈ target.down, source = d := by decide
  deriving DecidableEq, Repr

/-- A multiplexer with its counters; the links of a stack are kept apart. -/
structure Relay where
  registers : Multiplexer := {}
  totalReceivedPackets : Nat := 0
  totalForwardPackets : Nat := 0
  totalFailPackets : Nat := 0
  deriving DecidableEq, Repr

/-- Where a payload is in memory, and what stands around it by now. -/
structure Surroundings where
  address : Nat := 0
  octets : Nat → BitVec 8 := fun _ => 0

/-- The octet at a place of the memory: one of the payload, or one of its surroundings. -/
def Surroundings.look (around : Surroundings) (p : Stack.Packet) (at' : Nat) : BitVec 8 :=
  if around.address ≤ at' ∧ at' < around.address + p.curr.memory.length then
    p.curr.octet (at' - around.address)
  else around.octets at'

/-- A flow whose packet goes to `forwardFlow`. -/
structure Handed where
  /-- `forwarder` is set -/
  attached : Bool
  around : Surroundings := {}

/-- What `forwardFlow` leaves at the flow. -/
structure Handback where
  attached : Bool := true
  evidence : Bool := false
  /-- what a request has for the info of the flow -/
  context : Option GtpHeader.PdpContext := none
  deriving DecidableEq, Repr

/-- What a tunnel finds in a packet: one to forward, or a context. -/
inductive Content where
  | packet (inner : Frame)
  | context (found : GtpHeader.PdpContext)
  | nothing

def Content.ofInner : Option Frame → Content
  | some inner => .packet inner
  | none => .nothing

/-- The transports and ICMP of a stack, with everything above them but the tunnel. The transport below the
tunnel is called in two parts, up to `forwardFlow` and behind it. `checks` counts the answers of the checkers:
the validated packets and the malformed ones. -/
structure Transports (τ : Type) where
  check : Mux → τ → Frame → Except Fault (Bool × τ × Frame)
  process : Mux → τ → Multiplexer → Frame → Except Fault (τ × Frame)
  before : Mux → τ → Multiplexer → Frame → Except Fault (τ × Frame × Option Handed)
  after : Mux → τ → Frame → Option Handback → Except Fault (τ × Frame)
  checks : τ → Mux → Bool → Nat
  check_checks : ∀ {m u p b u' p'}, check m u p = .ok (b, u', p') →
    ∀ k c, checks u' k c = checks u k c + if k = m ∧ c = b then 1 else 0
  process_checks : ∀ {m u d p u' p'}, process m u d p = .ok (u', p') → checks u' = checks u
  before_checks : ∀ {m u d p u' p' h}, before m u d p = .ok (u', p', h) → checks u' = checks u
  after_checks : ∀ {m u p h u' p'}, after m u p h = .ok (u', p') → checks u' = checks u

/-- The infos of GPRS are at the flows of the transport below. -/
structure GprsTunnel where
  totals : LayerTotals := {}
  messages : GtpMessage → BitVec 32 := fun _ => 0
  /-- `gprs_header_`, which only the checker moves -/
  header : Option Nat := none

namespace GprsTunnel

def headerSize : Nat := 8

def gprsChecker (gprs : GprsTunnel) (address : Nat) (p : Stack.Packet) : Except Fault (Bool × GprsTunnel) :=
  if headerSize ≤ p.length then do
    let flags ← p.byte 0
    let accepted := decide (flags &&& 0x30 ≠ 0)
    .ok (accepted, { gprs with totals := gprs.totals.check accepted, header := some address })
  else .ok (false, { gprs with totals := gprs.totals.check false })

def count (gprs : GprsTunnel) (m : GtpMessage) : GprsTunnel :=
  { gprs with messages := fun n => if n = m then gprs.messages n + 1 else gprs.messages n }

/-- `process_create_pdp_context` -/
def processCreatePdpContext (read : Reader) : Except Fault Content :=
  match GtpHeader.createPdpContext read with
  | some found => .ok (.context found)
  | none => .error .outOfBounds

/-- What the message behind the header pointer asks for. -/
def dispatch (gprs : GprsTunnel) (m : Multiplexer) (memory : Nat → BitVec 8) (p : Frame) :
    Except Fault (GprsTunnel × Multiplexer × Content) :=
  match GtpMessage.ofType (memory 1) with
  | some .tPdu =>
    .ok (gprs.count .tPdu, { m with nextProtocolId := EthernetProtocol.ethertypeIp },
      .packet { p with prevHeaderSize := headerSize })
  | some .createPdpContextRequest => do
    let content ← processCreatePdpContext fun i => some (memory i)
    .ok (gprs.count .createPdpContextRequest, m, content)
  | some message => .ok (gprs.count message, m, .nothing)
  | none => .ok (gprs, m, .nothing)

def processFlow (gprs : GprsTunnel) (m : Multiplexer) (around : Surroundings) (p : Frame) :
    Except Fault (GprsTunnel × Multiplexer × Content) :=
  let gprs := { gprs with totals := gprs.totals.countPacket p.length }
  if 0 < p.length then
    match gprs.header with
    | some header => gprs.dispatch m (fun i => around.look p.toPacket (header + i)) p
    | none => .error .nullDereference
  else .ok (gprs, m, .nothing)

end GprsTunnel

structure NetworkStack (τ : Type) where
  kind : StackKind
  /-- the newest link first -/
  links : List Link
  relay : Mux → Relay
  ethernet : LayerTotals := {}
  vlan : LayerTotals := {}
  mpls : MPLSProtocol := {}
  ip : IPProtocol := {}
  ip6 : IPv6Protocol := {}
  gre : LayerTotals := {}
  ethernetVir : LayerTotals := {}
  ipVir : IPProtocol := {}
  gprs : GprsTunnel := {}
  vxlan : LayerTotals := {}
  openFlow : OpenFlowProtocol := {}
  upper : τ

namespace StackKind

/-- `ETHERTYPE_IPV6` -/
def ethertypeIpv6 : BitVec 16 := 0x86dd

/-- `ETHERTYPE_MPLS` -/
def ethertypeMpls : BitVec 16 := 0x8847

/-- `IPPROTO_GRE` -/
def ipprotoGre : BitVec 16 := 47

/-- The calls of `addUpMultiplexer` in the constructor. -/
def links : StackKind → List Link
  | .lan =>
    [{ source := .eth, target := .ip, key := 0x0800 },
      { source := .ip, target := .udp, key := 17 },
      { source := .ip, target := .tcp, key := 6 },
      { source := .ip, target := .icmp, key := 1 }]
  | .lanIPv6 =>
    [{ source := .eth, target := .ip, key := ethertypeIpv6 },
      { source := .ip, target := .udp, key := 17 },
      { source := .ip, target := .tcp, key := 6 },
      { source := .ip, target := .icmp, key := 58 }]
  | .mobile =>
    [{ source := .eth, target := .ip, key := 0x0800 },
      { source := .ip, target := .udp, key := 17 },
      { source := .tunnel, target := .ipVir, key := 0x0800 },
      { source := .ipVir, target := .icmpVir, key := 1 },
      { source := .ipVir, target := .tcpVir, key := 6 },
      { source := .ipVir, target := .udpVir, key := 17 }]
  | .virtual =>
    [{ source := .eth, target := .ip, key := 0x0800 },
      { source := .ip, target := .udp, key := 17 },
      { source := .ip, target := .gre, key := ipprotoGre },
      { source := .gre, target := .ethVir, key := 0 },
      { source := .tunnel, target := .ethVir, key := 0 },
      { source := .ethVir, target := .ipVir, key := 0x0800 },
      { source := .ipVir, target := .icmpVir, key := 1 },
      { source := .ipVir, target := .udpVir, key := 17 },
      { source := .ipVir, target := .tcpVir, key := 6 }]
  | .openFlow =>
    [{ source := .eth, target := .ip, key := 0x0800 },
      { source := .ip, target := .tcp, key := 6 },
      { source := .tunnel, target := .ethVir, key := 0 },
      { source := .ethVir, target := .ipVir, key := 0x0800 },
      { source := .ipVir, target := .icmpVir, key := 1 },
      { source := .ipVir, target := .udpVir, key := 17 },
      { source := .ipVir, target := .tcpVir, key := 6 }]

/-- The transport below the tunnel. -/
def carrier : StackKind → Option Mux
  | .mobile | .virtual => some .udp
  | .openFlow => some .tcp
  | .lan | .lanIPv6 => none

/-- `setHeaderSize` of the constructor, with the size of the protocol. -/
def headerSize (kind : StackKind) : Mux → Nat
  | .eth | .ethVir => EthernetProtocol.headerSize
  | .vlan => VLanProtocol.headerSize
  | .mpls => MPLSProtocol.headerSize
  | .ip => if kind = .lanIPv6 then IPv6Protocol.headerSize else IPProtocol.headerSize
  | .gre => GREProtocol.headerSize
  | .udp | .udpVir => Kind.udp.headerSize
  | .tcp | .tcpVir => Kind.tcp.headerSize
  | .icmp | .icmpVir | .tunnel => 8
  | .ipVir => IPProtocol.headerSize

/-- The links that `enableLinkLayerTagging` makes. -/
def taggingLinks : List Link :=
  [{ source := .eth, target := .vlan, key := VLanProtocol.ethertypeVlan },
    { source := .vlan, target := .ip, key := 0x0800 },
    { source := .eth, target := .mpls, key := ethertypeMpls },
    { source := .mpls, target := .ip, key := 0x0800 }]

end StackKind

namespace NetworkStack

variable {τ : Type}

/-- The constructor of a stack. -/
def new (kind : StackKind) (upper : τ) : NetworkStack τ where
  kind := kind
  links := kind.links.reverse
  relay := fun m => { registers := { headerSize := kind.headerSize m } }
  upper := upper

def addUpMultiplexer (s : NetworkStack τ) (l : Link) : NetworkStack τ :=
  { s with links := l :: s.links }

/-- Every stack tags IPv4, whatever its `mux_ip` is. -/
def enableLinkLayerTagging (s : NetworkStack τ) (type : String) : NetworkStack τ :=
  if type = "vlan" then
    (s.addUpMultiplexer { source := .eth, target := .vlan, key := VLanProtocol.ethertypeVlan }).addUpMultiplexer
      { source := .vlan, target := .ip, key := 0x0800 }
  else if type = "mpls" then
    (s.addUpMultiplexer { source := .eth, target := .mpls, key := StackKind.ethertypeMpls }).addUpMultiplexer
      { source := .mpls, target := .ip, key := 0x0800 }
  else s

/-- The newest entry of a key is the one of the map. -/
def getUpMultiplexer (s : NetworkStack τ) (m : Mux) (key : BitVec 16) : Option Mux :=
  (s.links.find? fun l => decide (l.source = m ∧ l.key = key)).map Link.target

def setRelay (s : NetworkStack τ) (m : Mux) (r : Relay) : NetworkStack τ :=
  { s with relay := fun n => if n = m then r else s.relay n }

def setRegisters (s : NetworkStack τ) (m : Mux) (r : Multiplexer) : NetworkStack τ :=
  s.setRelay m { s.relay m with registers := r }

def countReceived (s : NetworkStack τ) (m : Mux) : NetworkStack τ :=
  s.setRelay m { s.relay m with totalReceivedPackets := (s.relay m).totalReceivedPackets + 1 }

def countForward (s : NetworkStack τ) (m : Mux) : NetworkStack τ :=
  s.setRelay m { s.relay m with totalForwardPackets := (s.relay m).totalForwardPackets + 1 }

def countFail (s : NetworkStack τ) (m : Mux) : NetworkStack τ :=
  s.setRelay m { s.relay m with totalFailPackets := (s.relay m).totalFailPackets + 1 }

/-- `pkt_candidate`: the packet behind the header of the multiplexer. -/
def candidate (s : NetworkStack τ) (m : Mux) (p : Frame) : Frame :=
  { p with curr := p.curr.advance (s.relay m).registers.headerSize }

/-- `check_func_` of the multiplexer of IP -/
def checkIP (s : NetworkStack τ) (p : Frame) : Except Fault (Bool × NetworkStack τ × Frame) :=
  if s.kind = .lanIPv6 then do
    let (accepted, ip6) ← s.ip6.ip6Checker p.toPacket
    .ok (accepted, { s with ip6 := ip6 }, p)
  else do
    let (accepted, ip) ← s.ip.ipChecker p.toPacket
    .ok (accepted, { s with ip := ip }, p)

/-- `acceptPacket`; a multiplexer that no checker was given to accepts everything. -/
def acceptPacket (s : NetworkStack τ) (T : Transports τ) (m : Mux) (p : Frame) :
    Except Fault (Bool × NetworkStack τ × Frame) :=
  match m with
  | .eth =>
    let (accepted, eth, q) := EthernetProtocol.check s.ethernet p.toPacket
    .ok (accepted, { s with ethernet := eth }, { p with toPacket := q })
  | .vlan =>
    let (accepted, vlan) := VLanProtocol.vlanChecker s.vlan p.toPacket
    .ok (accepted, { s with vlan := vlan }, p)
  | .mpls =>
    let (accepted, mpls) := s.mpls.mplsChecker p.toPacket
    .ok (accepted, { s with mpls := mpls }, p)
  | .ip => s.checkIP p
  | .gre => do
    let (accepted, gre) ← GREProtocol.greChecker s.gre p.toPacket
    .ok (accepted, { s with gre := gre }, p)
  | .ethVir =>
    let (accepted, eth, q) := EthernetProtocol.check s.ethernetVir p.toPacket
    .ok (accepted, { s with ethernetVir := eth }, { p with toPacket := q })
  | .ipVir => do
    let (accepted, ip) ← s.ipVir.ipChecker p.toPacket
    .ok (accepted, { s with ipVir := ip }, p)
  | .tunnel => .ok (true, s, p)
  | .udp | .tcp | .icmp | .udpVir | .tcpVir | .icmpVir => do
    let (accepted, upper, p) ← T.check m s.upper p
    .ok (accepted, { s with upper := upper }, p)

/-! ### The tunnel -/

/-- The checker of the forwarder above the carrier. -/
def tunnelChecker (s : NetworkStack τ) (address : Nat) (p : Frame) : Except Fault (Bool × NetworkStack τ) :=
  match s.kind with
  | .mobile => do
    let (accepted, gprs) ← s.gprs.gprsChecker address p.toPacket
    .ok (accepted, { s with gprs := gprs })
  | .virtual => do
    let (accepted, vxlan) ← VxLanProtocol.vxlanChecker s.vxlan p.toPacket
    .ok (accepted, { s with vxlan := vxlan })
  | .openFlow => do
    let (accepted, of) ← s.openFlow.openflowChecker p.toPacket
    .ok (accepted, { s with openFlow := of })
  | .lan | .lanIPv6 => .ok (false, s)

/-- `processFlow` of the tunnel up to `forwardPacket`. -/
def openTunnel (s : NetworkStack τ) (h : Handed) (p : Frame) :
    Except Fault (NetworkStack τ × Content) :=
  let m := (s.relay .tunnel).registers
  match s.kind with
  | .mobile => do
    let (gprs, m, content) ← s.gprs.processFlow m h.around p
    .ok ({ s with gprs := gprs }.setRegisters .tunnel m, content)
  | .virtual => do
    let (vxlan, m, inner) ← VxLanProtocol.processFlow s.vxlan m p
    .ok ({ s with vxlan := vxlan }.setRegisters .tunnel m, .ofInner inner)
  | .openFlow => do
    let (of, m, inner) ← s.openFlow.processFlow m p
    .ok ({ s with openFlow := of }.setRegisters .tunnel m, .ofInner inner)
  | .lan | .lanIPv6 => .ok (s, .nothing)

/-- Evidence of a packet in the tunnel: GPRS marks the packet that carries it, VXLAN the flow of that packet,
OpenFlow neither. -/
def noteEvidence (kind : StackKind) (inner : Frame) (p : Frame) : Frame × Handback :=
  if inner.evidence then
    match kind with
    | .mobile => ({ p with evidence := true }, {})
    | .virtual => (p, { evidence := true })
    | _ => (p, {})
  else (p, {})

/-- `processFlow` of the tunnel. -/
def runTunnel (s : NetworkStack τ) (forward : NetworkStack τ → Mux → Frame → Except Fault (NetworkStack τ × Frame))
    (h : Handed) (p : Frame) : Except Fault (NetworkStack τ × Frame × Handback) := do
  let (s, content) ← s.openTunnel h p
  match content with
  | .nothing => .ok (s, p, {})
  | .context found => .ok (s, p, { context := some found })
  | .packet inner => do
    let (s, inner) ← forward s .tunnel inner
    .ok (s, noteEvidence s.kind inner p)

/-- `FlowForwarder::forwardFlow` of the carrier -/
def forwardFlow (s : NetworkStack τ) (forward : NetworkStack τ → Mux → Frame → Except Fault (NetworkStack τ × Frame))
    (h : Handed) (p : Frame) : Except Fault (NetworkStack τ × Frame × Handback) :=
  if h.attached then s.runTunnel forward h p
  else do
    let (accepted, s) ← s.tunnelChecker h.around.address p
    if accepted then s.runTunnel forward h p
    else .ok (s, p, { attached := false })

/-- `processPacket` of the carrier -/
def processCarrier (s : NetworkStack τ) (T : Transports τ)
    (forward : NetworkStack τ → Mux → Frame → Except Fault (NetworkStack τ × Frame))
    (m : Mux) (down : Multiplexer) (p : Frame) : Except Fault (NetworkStack τ × Frame) := do
  let (upper, p, handed) ← T.before m s.upper down p
  let s := { s with upper := upper }
  match handed with
  | none => do
    let (upper, p) ← T.after m s.upper p none
    .ok ({ s with upper := upper }, p)
  | some h => do
    let (s, p, back) ← s.forwardFlow forward h p
    let (upper, p) ← T.after m s.upper p (some back)
    .ok ({ s with upper := upper }, p)

def processTransport (s : NetworkStack τ) (T : Transports τ)
    (forward : NetworkStack τ → Mux → Frame → Except Fault (NetworkStack τ × Frame))
    (m : Mux) (p : Frame) : Except Fault (NetworkStack τ × Frame) :=
  let down := match m.down with
    | some d => (s.relay d).registers
    | none => {}
  if s.kind.carrier = some m then s.processCarrier T forward m down p
  else do
    let (upper, p) ← T.process m s.upper down p
    .ok ({ s with upper := upper }, p)

/-! ### The layers -/

def processIP (s : NetworkStack τ) (p : Frame) : Except Fault (Bool × NetworkStack τ × Frame) :=
  if s.kind = .lanIPv6 then do
    let (goes, ip6, m, q) ← s.ip6.processPacket (s.relay .ip).registers p.toPacket
    .ok (goes, { s with ip6 := ip6 }.setRegisters .ip m, { p with toPacket := q })
  else do
    let (goes, ip, m, q) ← s.ip.processPacket (s.relay .ip).registers p.toPacket
    .ok (goes, { s with ip := ip }.setRegisters .ip m, { p with toPacket := q })

/-- `packet_func_` -/
def packetFunc (s : NetworkStack τ) (T : Transports τ)
    (forward : NetworkStack τ → Mux → Frame → Except Fault (NetworkStack τ × Frame))
    (m : Mux) (p : Frame) : Except Fault (Bool × NetworkStack τ × Frame) :=
  match m with
  | .eth | .tunnel => .ok (true, s, p)
  | .vlan => do
    let (vlan, r, q) ← VLanProtocol.processPacket s.vlan (s.relay .vlan).registers p.toPacket
    .ok (true, { s with vlan := vlan }.setRegisters .vlan r, { p with toPacket := q })
  | .mpls => do
    let (goes, mpls, r, q) ← s.mpls.processPacket (some (s.relay .mpls).registers) p.toPacket
    .ok (goes, { s with mpls := mpls }.setRegisters .mpls (r.getD {}), { p with toPacket := q })
  | .ip => s.processIP p
  | .gre =>
    let (gre, r, q) := GREProtocol.processPacket s.gre (s.relay .gre).registers p.toPacket
    .ok (true, { s with gre := gre }.setRegisters .gre r, { p with toPacket := q })
  | .ethVir => do
    let (eth, r, q) ← EthernetProtocol.processPacket s.ethernetVir (s.relay .ethVir).registers p.toPacket
    .ok (true, { s with ethernetVir := eth }.setRegisters .ethVir r, { p with toPacket := q })
  | .ipVir => do
    let (goes, ip, r, q) ← s.ipVir.processPacket (s.relay .ipVir).registers p.toPacket
    .ok (goes, { s with ipVir := ip }.setRegisters .ipVir r, { p with toPacket := q })
  | .udp | .tcp | .icmp | .udpVir | .tcpVir | .icmpVir => do
    let (s, p) ← s.processTransport T forward m p
    .ok (true, s, p)

/-- `Multiplexer::forwardPacket`, with the calls that may still be nested in it. -/
def forwardPacket (T : Transports τ) : Nat → NetworkStack τ → Mux → Frame →
    Except Fault (NetworkStack τ × Frame)
  | 0, s, _, p => .ok (s, p)
  | n + 1, s, m, p =>
    let s := s.countReceived m
    match s.getUpMultiplexer m (s.relay m).registers.nextProtocolId with
    | none => .ok (s.countFail m, p)
    | some up => do
      let (accepted, s, q) ← s.acceptPacket T up (s.candidate m p)
      if accepted then do
        let (goes, s, q) ← s.packetFunc T (forwardPacket T n) up q
        if goes then do
          let (s, q) ← forwardPacket T n (s.countForward m) up q
          .ok (s, if q.evidence then { p with evidence := true } else p)
        else .ok (s, p)
      else .ok (s, p)

/-- More calls than there are heights are never nested. -/
def depth : Nat := 8

theorem nothing_held : (0 : Int) ≤ (([] : Bytes).length : Nat) := Int.le_refl 0

/-- `PacketDispatcher::forward_raw_packet`: the packet of the dispatcher has neither a tag nor, yet,
evidence. -/
def forwardRawPacket (s : NetworkStack τ) (T : Transports τ) (raw : RawPacket) (time : Int) :
    Except Fault (NetworkStack τ × Frame) := do
  let packet : Frame :=
    { curr := raw
      net := { memory := [], length := 0, held := nothing_held }
      time := time }
  let (accepted, s, p) ← s.acceptPacket T .eth packet
  if accepted then do
    let type ← EthernetProtocol.getEthernetType p.toPacket
    forwardPacket T depth
      (s.setRegisters .eth { (s.relay .eth).registers with nextProtocolId := type }) .eth p
  else .ok (s, p)

/-- What happens to a stack: a frame, or a layer is put below IP. -/
inductive Call where
  | frame (raw : RawPacket) (time : Int)
  | enableLinkLayerTagging (type : String)
  deriving DecidableEq, Repr

def call (T : Transports τ) (s : NetworkStack τ) : Call → Except Fault (NetworkStack τ)
  | .frame raw time => do
    let (s, _) ← s.forwardRawPacket T raw time
    .ok s
  | .enableLinkLayerTagging type => .ok (s.enableLinkLayerTagging type)

def step (T : Transports τ) (s : NetworkStack τ) (c : Call) : Option (NetworkStack τ) :=
  (s.call T c).toOption

end NetworkStack

end AIEngine
