import AIEngine.Stack.StackCounts
import AIEngine.Transport.Halves

/-!
# The transports of a LAN stack (`ICMPProtocol.h`, `ICMPv6Protocol.h`, `StackLan.cc`, `StackLanIPv6.cc`)

TCP, UDP and ICMP on top of IP, where no tunnel starts.
-/

namespace AIEngine

open Ending (bind_ok)
open Stack (Frame)

/-- The messages that are counted. -/
inductive IcmpMessage where
  | echoRequest | echoReply | destinationUnreachable | sourceQuench | redirect | routerAdvertisment
  | routerSolicitation | ttlExceeded
  deriving DecidableEq, Repr

namespace IcmpMessage

/-- The tests on the type, in their order. -/
def ofType (type : BitVec 8) : Option IcmpMessage :=
  if type = 8 then some .echoRequest
  else if type = 0 then some .echoReply
  else if type = 3 then some .destinationUnreachable
  else if type = 4 then some .sourceQuench
  else if type = 5 then some .redirect
  else if type = 9 then some .routerAdvertisment
  else if type = 10 then some .routerSolicitation
  else if type = 11 then some .ttlExceeded
  else none

/-- The tests of `ICMPv6Protocol` -/
def ofType6 (type : BitVec 8) : Option IcmpMessage :=
  if type = 128 then some .echoRequest
  else if type = 129 then some .echoReply
  else if type = 1 then some .destinationUnreachable
  else if type = 137 then some .redirect
  else if type = 134 then some .routerAdvertisment
  else if type = 133 then some .routerSolicitation
  else if type = 3 then some .ttlExceeded
  else none

end IcmpMessage

structure IcmpProtocol where
  totals : LayerTotals := {}
  messages : IcmpMessage → Nat := fun _ => 0

namespace IcmpProtocol

def headerSize : Nat := 8

def icmpChecker (icmp : IcmpProtocol) (p : Stack.Packet) : Bool × IcmpProtocol :=
  let accepted := decide ((headerSize : Int) ≤ p.length)
  (accepted, { icmp with totals := icmp.totals.check accepted })

/-- The packets are counted, and not their bytes. -/
def processPacket (icmp : IcmpProtocol) (six : Bool) (p : Stack.Packet) : Except Fault IcmpProtocol := do
  let type ← p.byte 0
  let icmp := { icmp with totals := { icmp.totals with packets := icmp.totals.packets + 1 } }
  match if six then IcmpMessage.ofType6 type else IcmpMessage.ofType type with
  | some message =>
    .ok { icmp with messages := fun n => if n = message then icmp.messages n + 1 else icmp.messages n }
  | none => .ok icmp

theorem icmpChecker_answers (icmp : IcmpProtocol) (p : Stack.Packet) (c : Bool) :
    (icmp.icmpChecker p).2.totals.answers c =
      icmp.totals.answers c + if c = (icmp.icmpChecker p).1 then 1 else 0 :=
  LayerTotals.check_answers icmp.totals _ c

theorem processPacket_answers {icmp icmp' : IcmpProtocol} {six : Bool} {p : Stack.Packet}
    (processed : icmp.processPacket six p = .ok icmp') : icmp'.totals.answers = icmp.totals.answers := by
  obtain ⟨type, -, processed⟩ := bind_ok processed
  dsimp only at processed
  split at processed <;> obtain rfl := Except.ok.inj processed
  · rfl
  · rfl

end IcmpProtocol

namespace TransportLayer

open Transport (Entered)

/-- The checker. -/
def check (s : TransportLayer) (kind : Kind) (p : Frame) : Except Fault (Bool × TransportLayer × Frame) :=
  match kind with
  | .tcp => do
    let (accepted, s, q) ← TCPProtocol.tcpChecker s p.toPacket
    .ok (accepted, s, { p with toPacket := q })
  | .udp =>
    let (accepted, s) := UDPProtocol.udpChecker s p.toPacket
    .ok (accepted, s, p)

/-- What `processPacket` reads. -/
def segment (kind : Kind) (down : Multiplexer) (p : Frame) : Except Fault Packet :=
  match kind with
  | .tcp => do
    let h ← TCPProtocol.readHeader p.toPacket
    .ok (TCPProtocol.segment h down p.toPacket p.time p.tag)
  | .udp => do
    let h ← UDPProtocol.readHeader p.toPacket
    .ok (UDPProtocol.segment h down p.toPacket p.time p.tag)

/-- UDP counts its bytes when it has found a flow. -/
def addBytes (s : TransportLayer) (kind : Kind) (x : Packet) (t : Transport) : TransportLayer :=
  { s with
    transport := t
    totalBytes :=
      match kind with
      | .tcp => s.totalBytes
      | .udp => if t.currentFlow.isSome then s.totalBytes + x.udpBytes else s.totalBytes }

/-- `processPacket` up to `forwardFlow`, which gets the packet without the header. -/
def before (s : TransportLayer) (kind : Kind) (down : Multiplexer) (p : Frame) (o : Outside) :
    Except Fault (TransportLayer × Frame × Entered) := do
  let x ← segment kind down p
  let (t, e) ← s.transport.enter kind x o
  let s := s.addBytes kind x t
  match e with
  | .handing a =>
    .ok (s, { p with curr := p.curr.advance (stepped kind x), prevHeaderSize := stepped kind x }, .handing a)
  | e => .ok (s, p, e)

/-- `processPacket` behind it: the packet gets the mark of its flow. -/
def after (s : TransportLayer) (kind : Kind) (a : Obj) (hint : Nat) (p : Frame) :
    Except Fault (TransportLayer × Frame) := do
  let p := if (s.transport.flow a).haveEvidence then { p with evidence := true } else p
  let t ← s.transport.finish a hint kind
  .ok ({ s with transport := t }, p)

/-- What the application layer does comes with the packet. -/
def process (s : TransportLayer) (kind : Kind) (down : Multiplexer) (p : Frame) (o : Outside) :
    Except Fault (TransportLayer × Frame) := do
  let (s, p, e) ← s.before kind down p o
  match e with
  | .ended => .ok (s, p)
  | .finishing a => s.after kind a o.hint p
  | .handing a => do
    let t ← s.transport.forwardFlow a o
    { s with transport := t }.after kind a o.hint p

def answers (s : TransportLayer) (accepted : Bool) : Nat :=
  if accepted then s.totalValidatedPackets else s.totalMalformedPackets

variable {s s' : TransportLayer} {kind : Kind} {down : Multiplexer} {p q : Frame} {o : Outside}

theorem check_answers {b : Bool} (checked : s.check kind p = .ok (b, s', q)) (c : Bool) :
    s'.answers c = s.answers c + if c = b then 1 else 0 := by
  cases kind with
  | tcp =>
    obtain ⟨⟨b', t, q'⟩, accepts, checked⟩ := bind_ok checked
    obtain ⟨rfl, rfl, -⟩ := by simpa using checked
    unfold TCPProtocol.tcpChecker at accepts
    split at accepts
    · obtain ⟨h, -, accepts⟩ := bind_ok accepts
      obtain ⟨rfl, rfl, -⟩ := by simpa using accepts
      cases c <;> rfl
    · obtain ⟨rfl, rfl, -⟩ := by simpa using accepts
      cases c <;> rfl
  | udp =>
    obtain ⟨rfl, rfl, -⟩ := by simpa [check] using checked
    unfold UDPProtocol.udpChecker
    split <;> cases c <;> rfl

theorem before_answers {e : Entered} (entered : s.before kind down p o = .ok (s', q, e)) :
    s'.answers = s.answers := by
  obtain ⟨x, -, entered⟩ := bind_ok entered
  obtain ⟨⟨t, e'⟩, -, entered⟩ := bind_ok entered
  dsimp only at entered
  split at entered <;> obtain ⟨rfl, -, -⟩ := by simpa using entered
  · rfl
  · rfl

theorem after_answers {a : Obj} {hint : Nat} (finished : s.after kind a hint p = .ok (s', q)) :
    s'.answers = s.answers := by
  obtain ⟨t, -, finished⟩ := bind_ok finished
  obtain ⟨rfl, -⟩ := by simpa using finished
  rfl

theorem process_answers (processed : s.process kind down p o = .ok (s', q)) : s'.answers = s.answers := by
  obtain ⟨⟨t, q', e⟩, entered, processed⟩ := bind_ok processed
  have same := before_answers entered
  cases e with
  | ended =>
    obtain ⟨rfl, -⟩ := by simpa using processed
    exact same
  | finishing a => exact (after_answers processed).trans same
  | handing a =>
    obtain ⟨v, -, finished⟩ := bind_ok processed
    exact (after_answers finished).trans same

end TransportLayer

def Kind.mux : Kind → Mux
  | .tcp => .tcp
  | .udp => .udp

structure LanTransports where
  tcp : TransportLayer
  udp : TransportLayer
  icmp : IcmpProtocol := {}

namespace LanTransports

/-- One of the two that have flows. -/
def layer (u : LanTransports) : Kind → TransportLayer
  | .tcp => u.tcp
  | .udp => u.udp

/-- As the constructor of the stack sets them up. -/
def new (objects : CacheId → Nat) (registered : Option Nat) (timeout : Int) : LanTransports where
  tcp := { transport := Transport.start 0 objects registered timeout }
  udp := { transport := Transport.start 1 objects registered timeout }

def check (m : Mux) (u : LanTransports) (p : Frame) : Except Fault (Bool × LanTransports × Frame) :=
  match m with
  | .tcp => do
    let (accepted, tcp, p) ← u.tcp.check .tcp p
    .ok (accepted, { u with tcp := tcp }, p)
  | .udp => do
    let (accepted, udp, p) ← u.udp.check .udp p
    .ok (accepted, { u with udp := udp }, p)
  | .icmp =>
    let (accepted, icmp) := u.icmp.icmpChecker p.toPacket
    .ok (accepted, { u with icmp := icmp }, p)
  | _ => .error .nullDereference

def process (six : Bool) (outside : Frame → Outside) (m : Mux) (u : LanTransports) (down : Multiplexer)
    (p : Frame) : Except Fault (LanTransports × Frame) :=
  match m with
  | .tcp => do
    let (tcp, q) ← u.tcp.process .tcp down p (outside p)
    .ok ({ u with tcp := tcp }, q)
  | .udp => do
    let (udp, q) ← u.udp.process .udp down p (outside p)
    .ok ({ u with udp := udp }, q)
  | .icmp => do
    let icmp ← u.icmp.processPacket six p.toPacket
    .ok ({ u with icmp := icmp }, p)
  | _ => .error .nullDereference

def checks (u : LanTransports) : Mux → Bool → Nat
  | .tcp => u.tcp.answers
  | .udp => u.udp.answers
  | .icmp => u.icmp.totals.answers
  | _ => fun _ => 0

/-- No checker has been asked yet. -/
theorem checks_new (objects : CacheId → Nat) (registered : Option Nat) (timeout : Int) :
    (new objects registered timeout).checks = fun _ _ => 0 := by
  funext m c
  cases m <;> cases c <;> rfl

theorem check_checks {m : Mux} {u u' : LanTransports} {p q : Frame} {b : Bool}
    (checked : check m u p = .ok (b, u', q)) (k : Mux) (c : Bool) :
    u'.checks k c = u.checks k c + if k = m ∧ c = b then 1 else 0 := by
  cases m with
  | tcp =>
    obtain ⟨⟨b', tcp, q'⟩, accepts, checked⟩ := bind_ok checked
    obtain ⟨rfl, rfl, -⟩ := by simpa using checked
    have counted := TransportLayer.check_answers accepts c
    cases k <;> first | rfl | simpa [checks] using counted
  | udp =>
    obtain ⟨⟨b', udp, q'⟩, accepts, checked⟩ := bind_ok checked
    obtain ⟨rfl, rfl, -⟩ := by simpa using checked
    have counted := TransportLayer.check_answers accepts c
    cases k <;> first | rfl | simpa [checks] using counted
  | icmp =>
    obtain ⟨rfl, rfl, -⟩ := by simpa [check] using checked
    have counted := u.icmp.icmpChecker_answers p.toPacket c
    cases k <;> first | rfl | simpa [checks] using counted
  | _ => exact absurd checked (by simp [check])

theorem process_checks {six : Bool} {outside : Frame → Outside} {m : Mux} {u u' : LanTransports}
    {down : Multiplexer} {p q : Frame} (processed : process six outside m u down p = .ok (u', q)) :
    u'.checks = u.checks := by
  funext k
  cases m with
  | tcp =>
    obtain ⟨⟨tcp, q'⟩, counted, processed⟩ := bind_ok processed
    obtain ⟨rfl, -⟩ := by simpa using processed
    have counts := TransportLayer.process_answers counted
    cases k <;> first | rfl | exact counts
  | udp =>
    obtain ⟨⟨udp, q'⟩, counted, processed⟩ := bind_ok processed
    obtain ⟨rfl, -⟩ := by simpa using processed
    have counts := TransportLayer.process_answers counted
    cases k <;> first | rfl | exact counts
  | icmp =>
    obtain ⟨icmp, counted, processed⟩ := bind_ok processed
    obtain ⟨rfl, -⟩ := by simpa using processed
    have counts := IcmpProtocol.processPacket_answers counted
    cases k <;> first | rfl | exact counts
  | _ => exact absurd processed (by simp [process])

end LanTransports

/-- The transports of `StackLan`, or of `StackLanIPv6`. There is no tunnel that would ask for the two parts
of `processPacket`. -/
def lanTransports (six : Bool) (outside : Frame → Outside) : Transports LanTransports where
  check := LanTransports.check
  process := LanTransports.process six outside
  before _ _ _ _ := .error .nullDereference
  after _ _ _ _ := .error .nullDereference
  checks := LanTransports.checks
  check_checks := LanTransports.check_checks
  process_checks := LanTransports.process_checks
  before_checks failed := absurd failed (by simp)
  after_checks failed := absurd failed (by simp)

/-- The transports of a LAN with nothing above them. -/
def quiet : Transports LanTransports := lanTransports false fun _ => {}

/-- A stack in front of them, with room for one flow. -/
def quietStack (kind : StackKind) : NetworkStack LanTransports :=
  .new kind (LanTransports.new (fun _ => 1) none 180)

/-- A packet without an octet, which no checker accepts. -/
def noPacket : RawPacket where
  memory := []
  length := 0
  held := NetworkStack.nothing_held

/-- A datagram of UDP with two octets of payload in a frame, with four octets of padding. -/
def udpFrame : RawPacket where
  memory := List.replicate 12 1 ++ [8, 0, 0x45, 0, 0, 30, 0, 0, 0, 0, 64, 17, 0, 0, 10, 0, 0, 1, 10, 0, 0, 2] ++
    [4, 0, 0, 53, 0, 10, 0, 0, 1, 2, 0, 0, 0, 0]
  length := 48
  held := by decide

end AIEngine
