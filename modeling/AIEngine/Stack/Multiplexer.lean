import AIEngine.Flow
import AIEngine.Resources.World

/-!
# Multiplexers (`Packet.h`, `RawPacket.h`, `Multiplexer.cc`)

A multiplexer belongs to the protocol of one layer. It steps over the header of this protocol and hands
the packet to the multiplexer of the next one. The counters and the members of a packet that these
layers do not look at are left out.
-/

namespace AIEngine

/-- `ntohs` on a little-endian host. -/
def ntohs (x : BitVec 16) : BitVec 16 := x.extractLsb' 0 8 ++ x.extractLsb' 8 8

/-- A pointer into a frame: `start` is its place, and `memory` what can be read from there on. -/
structure RawPacket where
  start : Nat := 0
  memory : Bytes
  length : Int
  held : length ≤ memory.length
  deriving DecidableEq, Repr

namespace RawPacket

def byte (p : RawPacket) (k : Nat) : Except Fault (BitVec 8) :=
  match p.memory[k]? with
  | some b => .ok b
  | none => .error .outOfBounds

/-- Two octets, as a little-endian host reads them. -/
def half (p : RawPacket) (k : Nat) : Except Fault (BitVec 16) := do
  let first ← p.byte k
  let second ← p.byte (k + 1)
  .ok (second ++ first)

def quad (p : RawPacket) (k : Nat) : Except Fault (BitVec 32) := do
  let low ← p.half k
  let high ← p.half (k + 2)
  .ok (high ++ low)

def in6Addr (p : RawPacket) (k : Nat) : Except Fault In6Addr := do
  let w0 ← p.quad k
  let w1 ← p.quad (k + 4)
  let w2 ← p.quad (k + 8)
  let w3 ← p.quad (k + 12)
  .ok { w0 := w0, w1 := w1, w2 := w2, w3 := w3 }

/-- `&payload[n]`, and so much less of it. -/
def advance (p : RawPacket) (n : Nat) : RawPacket where
  start := p.start + n
  memory := p.memory.drop n
  length := p.length - n
  held := by
    have held := p.held
    rw [List.length_drop]
    omega

/-- An octet of the packet; what is not there counts as zero. -/
def octet (p : RawPacket) (k : Nat) : BitVec 8 := p.memory.getD k 0

variable {p : RawPacket} {k : Nat}

theorem byte_of_lt (inside : k < p.memory.length) : p.byte k = .ok p.memory[k] := by
  unfold byte
  rw [List.getElem?_eq_getElem inside]

theorem byte_octet (inside : k < p.memory.length) : p.byte k = .ok (p.octet k) := by
  rw [byte_of_lt inside, octet, List.getD_eq_getElem?_getD, List.getElem?_eq_getElem inside,
    Option.getD_some]

theorem byte_outside (outside : p.memory.length ≤ k) : p.byte k = .error .outOfBounds := by
  unfold byte
  rw [List.getElem?_eq_none outside]

theorem half_of_lt (inside : k + 1 < p.memory.length) : ∃ x, p.half k = .ok x := by
  unfold half
  rw [byte_of_lt (by omega), byte_of_lt inside]
  exact ⟨_, rfl⟩

theorem quad_of_lt (inside : k + 3 < p.memory.length) : ∃ x, p.quad k = .ok x := by
  obtain ⟨low, first⟩ := half_of_lt (p := p) (k := k) (by omega)
  obtain ⟨high, second⟩ := half_of_lt (p := p) (k := k + 2) (by omega)
  unfold quad
  rw [first, second]
  exact ⟨_, rfl⟩

theorem in6Addr_of_lt (inside : k + 15 < p.memory.length) : ∃ x, p.in6Addr k = .ok x := by
  obtain ⟨w0, first⟩ := quad_of_lt (p := p) (k := k) (by omega)
  obtain ⟨w1, second⟩ := quad_of_lt (p := p) (k := k + 4) (by omega)
  obtain ⟨w2, third⟩ := quad_of_lt (p := p) (k := k + 8) (by omega)
  obtain ⟨w3, fourth⟩ := quad_of_lt (p := p) (k := k + 12) (by omega)
  unfold in6Addr
  rw [first, second, third, fourth]
  exact ⟨_, rfl⟩

theorem advance_inj (p : RawPacket) {m n : Nat} : p.advance m = p.advance n ↔ m = n := by
  constructor
  · intro same
    have starts : p.start + m = p.start + n := congrArg RawPacket.start same
    omega
  · rintro rfl
    rfl

end RawPacket

namespace Stack

structure Packet where
  curr : RawPacket
  net : RawPacket
  prevHeaderSize : Int := 0
  anomaly : PacketAnomalyType := .none
  deriving DecidableEq, Repr

/-- `getPayload`: what the pointer points at -/
def Packet.byte (p : Packet) (k : Nat) : Except Fault (BitVec 8) := p.curr.byte k

def Packet.length (p : Packet) : Int := p.curr.length

end Stack

/-- The protocols that the layers of IP hand their packets to. -/
inductive TransportProtocol where
  | tcp | udp | icmp | icmp6
  deriving DecidableEq, Repr

/-- The protocol number. -/
def TransportProtocol.number : TransportProtocol → BitVec 8
  | .tcp => 6
  | .udp => 17
  | .icmp => 1
  | .icmp6 => 58

structure Multiplexer where
  address : IPAddress := {}
  totalLength : BitVec 16 := 0
  headerSize : Nat := 0
  /-- `NO_PROTOCOL_SELECTED` -/
  nextProtocolId : BitVec 16 := 0xffff
  /-- `muxUpMap_` -/
  up : List (BitVec 16 × TransportProtocol) := []
  deriving DecidableEq, Repr

namespace Multiplexer

def getUpMultiplexer (m : Multiplexer) (key : BitVec 16) : Option TransportProtocol :=
  (m.up.find? fun entry => decide (entry.1 = key)).map Prod.snd

/-- `pkt_candidate` -/
def candidate (m : Multiplexer) (p : Stack.Packet) : Stack.Packet :=
  { p with curr := p.curr.advance m.headerSize }

/-- What the checker of the next multiplexer is asked about, and then its protocol. -/
def forwardPacket (m : Multiplexer) (p : Stack.Packet) :
    Option (TransportProtocol × Stack.Packet) :=
  (m.getUpMultiplexer m.nextProtocolId).map fun next => (next, m.candidate p)

end Multiplexer

end AIEngine
