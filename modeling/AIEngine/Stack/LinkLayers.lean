import AIEngine.Stack.IPv6Protocol
import AIEngine.Stack.MPLSProtocol
import AIEngine.Stack.TransportLayers

/-!
# The layers around IP (`EthernetProtocol.cc`, `VLanProtocol.cc`, `GREProtocol.cc`, `VxLanProtocol.cc`, `OpenFlowProtocol.cc`)

Ethernet, with a tag or without, stands below IP. GRE, VXLAN and OpenFlow carry another Ethernet frame, and
GTP another datagram. The checker of a layer leaves its header pointer at the packet it is asked about,
so `processPacket` reads the packet it is given.
-/

namespace AIEngine

namespace Stack

/-- A packet with what goes along with it through all layers. -/
structure Frame extends Packet where
  time : Int := 0
  /-- `getTag`, when `haveTag` -/
  tag : Option (BitVec 32) := none
  evidence : Bool := false
  deriving DecidableEq, Repr

end Stack

open Stack (Frame)

/-- The counters that these layers have in common. -/
structure LayerTotals where
  packets : Nat := 0
  validatedPackets : Nat := 0
  malformedPackets : Nat := 0
  bytes : Int := 0
  deriving DecidableEq, Repr

namespace LayerTotals

/-- The answer of a checker. -/
def check (t : LayerTotals) (accepted : Bool) : LayerTotals :=
  if accepted then { t with validatedPackets := t.validatedPackets + 1 }
  else { t with malformedPackets := t.malformedPackets + 1 }

def countPacket (t : LayerTotals) (length : Int) : LayerTotals :=
  { t with packets := t.packets + 1, bytes := t.bytes + length }

end LayerTotals

namespace EthernetProtocol

/-- `ethernetChecker` with its counters; the bytes are counted here and not by `processPacket`. -/
def check (eth : LayerTotals) (p : Stack.Packet) : Bool × LayerTotals × Stack.Packet :=
  let (accepted, p) := ethernetChecker p
  let eth := eth.check accepted
  (accepted, if accepted then { eth with bytes := eth.bytes + p.length } else eth, p)

/-- Only an Ethernet in the middle of a stack is called. -/
def processPacket (eth : LayerTotals) (m : Multiplexer) (p : Stack.Packet) :
    Except Fault (LayerTotals × Multiplexer × Stack.Packet) := do
  let type ← getEthernetType p
  .ok ({ eth with packets := eth.packets + 1 },
    { m with nextProtocolId := type, headerSize := headerSize },
    { p with prevHeaderSize := headerSize })

end EthernetProtocol

namespace VLanProtocol

/-- `VLAN_TAG_LEN` -/
def headerSize : Nat := 4

/-- `ETHERTYPE_VLAN` -/
def ethertypeVlan : BitVec 16 := 0x8100

def vlanChecker (vlan : LayerTotals) (p : Stack.Packet) : Bool × LayerTotals :=
  let accepted := decide ((headerSize : Int) ≤ p.length)
  (accepted, vlan.check accepted)

/-- The header of Ethernet ends in front of the tag, so `vlan_tci` is the type behind it. -/
def getEthernetType (p : Stack.Packet) : Except Fault (BitVec 16) := do
  let tci ← p.curr.half 2
  .ok (ntohs tci)

def processPacket (vlan : LayerTotals) (m : Multiplexer) (p : Stack.Packet) :
    Except Fault (LayerTotals × Multiplexer × Stack.Packet) := do
  let type ← getEthernetType p
  .ok (vlan.countPacket p.length, { m with nextProtocolId := type, headerSize := headerSize },
    { p with prevHeaderSize := headerSize })

end VLanProtocol

namespace GREProtocol

def headerSize : Nat := 4

/-- `ETH_P_TEB`: a whole Ethernet frame -/
def ethPTeb : BitVec 16 := 0x6558

def getProtocol (p : Stack.Packet) : Except Fault (BitVec 16) := do
  let protocol ← p.curr.half 2
  .ok (ntohs protocol)

def greChecker (gre : LayerTotals) (p : Stack.Packet) : Except Fault (Bool × LayerTotals) :=
  if headerSize ≤ p.length then do
    let protocol ← getProtocol p
    .ok (decide (protocol = ethPTeb), gre.check (decide (protocol = ethPTeb)))
  else .ok (false, gre.check false)

def processPacket (gre : LayerTotals) (m : Multiplexer) (p : Stack.Packet) :
    LayerTotals × Multiplexer × Stack.Packet :=
  (gre.countPacket p.length, { m with nextProtocolId := 0, headerSize := headerSize },
    { p with prevHeaderSize := headerSize })

end GREProtocol

/-! ### Tunnels on top of a transport -/

namespace VxLanProtocol

def headerSize : Nat := 8

/-- The flag that there is a VNI. -/
def vxlanChecker (vxlan : LayerTotals) (p : Stack.Packet) : Except Fault (Bool × LayerTotals) :=
  if headerSize ≤ p.length then do
    let flags ← p.byte 0
    .ok (flags.getLsbD 3, vxlan.check (flags.getLsbD 3))
  else .ok (false, vxlan.check false)

/-- The three octets are put into a word in this order to be swapped by `ntohl`. -/
def getVni (p : Stack.Packet) : Except Fault (BitVec 32) := do
  let vni0 ← p.byte 4
  let vni1 ← p.byte 5
  let vni2 ← p.byte 6
  .ok (ntohl (vni2 ++ vni1 ++ vni0 ++ (0 : BitVec 8)))

/-- What goes to the multiplexer, if anything does. -/
def processFlow (vxlan : LayerTotals) (m : Multiplexer) (p : Frame) :
    Except Fault (LayerTotals × Multiplexer × Option Frame) :=
  let vxlan := vxlan.countPacket p.length
  if 0 < p.length then do
    let vni ← getVni p.toPacket
    .ok (vxlan, { m with nextProtocolId := 0 }, some { p with tag := some vni })
  else .ok (vxlan, m, none)

end VxLanProtocol

/-- The types of message that are counted. -/
inductive OfpMessage where
  | hello | featureRequest | featureReply | setConfig | packetIn | packetOut
  deriving DecidableEq, Repr

/-- The tests on the type octet, in their order. -/
def OfpMessage.ofType (type : BitVec 8) : Option OfpMessage :=
  if type = 0x0a then some .packetIn
  else if type = 0x0d then some .packetOut
  else if type = 0x00 then some .hello
  else if type = 0x05 then some .featureRequest
  else if type = 0x06 then some .featureReply
  else if type = 0x09 then some .setConfig
  else none

structure OpenFlowProtocol where
  totals : LayerTotals := {}
  messages : OfpMessage → Nat := fun _ => 0

namespace OpenFlowProtocol

def headerSize : Nat := 8

/-- `sizeof(openflow_pktin_hdr)` -/
def pktinHeaderSize : Nat := 18

/-- Version 1.0 -/
def openflowChecker (of : OpenFlowProtocol) (p : Stack.Packet) : Except Fault (Bool × OpenFlowProtocol) :=
  if headerSize ≤ p.length then do
    let version ← p.byte 0
    .ok (decide (version = 1), { of with totals := of.totals.check (decide (version = 1)) })
  else .ok (false, { of with totals := of.totals.check false })

def count (of : OpenFlowProtocol) (m : OfpMessage) : OpenFlowProtocol :=
  { of with messages := fun n => if n = m then of.messages n + 1 else of.messages n }

def processFlow (of : OpenFlowProtocol) (m : Multiplexer) (p : Frame) :
    Except Fault (OpenFlowProtocol × Multiplexer × Option Frame) :=
  let of := { of with totals := of.totals.countPacket p.length }
  if 0 < p.length then do
    let type ← p.byte 1
    match OfpMessage.ofType type with
    | some .packetIn =>
      .ok (of.count .packetIn, { m with headerSize := pktinHeaderSize, nextProtocolId := 0 },
        some { p with prevHeaderSize := pktinHeaderSize })
    | some message => .ok (of.count message, m, none)
    | none => .ok (of, m, none)
  else .ok (of, m, none)

end OpenFlowProtocol

end AIEngine
