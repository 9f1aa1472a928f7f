import AIEngine.Stack.IPProtocol
import AIEngine.Transport.Handover

/-!
# TCP and UDP on IPv4 (`TCPProtocol.h`, `UDPProtocol.h`, `EthernetProtocol.h`)

The layers between a frame and a transport. A transport reads its own header where the multiplexer of IP
puts it, and takes the length of the datagram from this multiplexer.
-/

namespace AIEngine

def ntohl (x : BitVec 32) : BitVec 32 := ntohs (x.extractLsb' 0 16) ++ ntohs (x.extractLsb' 16 16)

def Kind.protocol : Kind → TransportProtocol
  | .tcp => .tcp
  | .udp => .udp

/-- `header_size` of the protocol, which its checker asks for. -/
def Kind.headerSize : Kind → Nat
  | .tcp => 20
  | .udp => 8

/-- A transport as a layer of the stack, with its counters. -/
structure TransportLayer where
  transport : Transport
  totalBytes : Int := 0
  totalValidatedPackets : Nat := 0
  totalMalformedPackets : Nat := 0

/-! ### TCP -/

namespace TCPProtocol

/-- What is read of `struct tcphdr`, whose flags are single bits of one octet. -/
structure Header where
  source : BitVec 16
  dest : BitVec 16
  seq : BitVec 32
  doff : BitVec 4
  flags : BitVec 8
  deriving DecidableEq, Repr

def readHeader (p : Stack.Packet) : Except Fault Header := do
  let source ← p.curr.half 0
  let dest ← p.curr.half 2
  let seq ← p.curr.quad 4
  let offset ← p.byte 12
  let flags ← p.byte 13
  .ok { source := source, dest := dest, seq := seq, doff := offset.extractLsb' 4 4, flags := flags }

def getTcpHdrLength (h : Header) : Nat := h.doff.toNat * 4

/-- There may be less behind the smallest header than the header asks for. -/
def checked (h : Header) (p : Stack.Packet) : Stack.Packet :=
  if p.length < getTcpHdrLength h then { p with anomaly := .tcpBogusHeader } else p

def tcpChecker (s : TransportLayer) (p : Stack.Packet) :
    Except Fault (Bool × TransportLayer × Stack.Packet) :=
  if Kind.tcp.headerSize ≤ p.length then do
    let h ← readHeader p
    .ok (true,
      { s with
        totalValidatedPackets := s.totalValidatedPackets + 1
        totalBytes := s.totalBytes + p.length }, checked h p)
  else .ok (false, { s with totalMalformedPackets := s.totalMalformedPackets + 1 }, p)

/-- What `processPacket` reads of the packet, of its header and of the multiplexer of IP. -/
def segment (h : Header) (down : Multiplexer) (p : Stack.Packet) (time : Int)
    (tag : Option (BitVec 32)) : Packet where
  time := time
  address := down.address
  sourcePort := ntohs h.source
  destinationPort := ntohs h.dest
  tag := tag
  anomaly := p.anomaly
  length := p.length
  totalLength := down.totalLength.toNat
  headerSize := down.headerSize
  tcp :=
    { fin := h.flags.getLsbD 0
      syn := h.flags.getLsbD 1
      rst := h.flags.getLsbD 2
      psh := h.flags.getLsbD 3
      ack := h.flags.getLsbD 4
      seq := ntohl h.seq }
  tcpHdrLength := getTcpHdrLength h

end TCPProtocol

/-! ### UDP -/

namespace UDPProtocol

structure Header where
  source : BitVec 16
  dest : BitVec 16
  len : BitVec 16
  deriving DecidableEq, Repr

def readHeader (p : Stack.Packet) : Except Fault Header := do
  let source ← p.curr.half 0
  let dest ← p.curr.half 2
  let len ← p.curr.half 4
  .ok { source := source, dest := dest, len := len }

def getLength (h : Header) : BitVec 16 := ntohs h.len

def udpChecker (s : TransportLayer) (p : Stack.Packet) : Bool × TransportLayer :=
  if Kind.udp.headerSize ≤ p.length then
    (true, { s with totalValidatedPackets := s.totalValidatedPackets + 1 })
  else (false, { s with totalMalformedPackets := s.totalMalformedPackets + 1 })

def segment (h : Header) (down : Multiplexer) (p : Stack.Packet) (time : Int)
    (tag : Option (BitVec 32)) : Packet where
  time := time
  address := down.address
  sourcePort := ntohs h.source
  destinationPort := ntohs h.dest
  tag := tag
  anomaly := p.anomaly
  length := p.length
  totalLength := down.totalLength.toNat
  headerSize := down.headerSize
  udpLength := getLength h

end UDPProtocol

/-! ### The layers -/

namespace TransportLayer

/-- `&packet.getPayload()[n]`, and so much less of it, when `forwardFlow` is called. -/
def given (s : TransportLayer) (kind : Kind) (x : Packet) (hint : Nat) (p : Stack.Packet) (n : Nat) :
    Option RawPacket :=
  (s.transport.handsTo kind x hint).map fun _ => p.curr.advance n

/-- The checker of the transport, and `processPacket` behind it. The last part is what the application
layer is given as payload. -/
def receive (s : TransportLayer) (kind : Kind) (down : Multiplexer) (p : Stack.Packet) (time : Int)
    (tag : Option (BitVec 32)) (o : Outside) : Except Fault (TransportLayer × Option RawPacket) :=
  match kind with
  | .tcp => do
    let (accepted, s, p) ← TCPProtocol.tcpChecker s p
    if accepted then do
      let h ← TCPProtocol.readHeader p
      let x := TCPProtocol.segment h down p time tag
      let t ← s.transport.processPacket .tcp x o
      .ok ({ s with transport := t }, s.given .tcp x o.hint p (TCPProtocol.getTcpHdrLength h))
    else .ok (s, none)
  | .udp => do
    let (accepted, s) := UDPProtocol.udpChecker s p
    if accepted then do
      let h ← UDPProtocol.readHeader p
      let x := UDPProtocol.segment h down p time tag
      let t ← s.transport.processPacket .udp x o
      let counted := if t.currentFlow.isSome then s.totalBytes + x.udpBytes else s.totalBytes
      .ok ({ s with transport := t, totalBytes := counted },
        s.given .udp x o.hint p Kind.udp.headerSize)
    else .ok (s, none)

end TransportLayer

namespace IPProtocol

/-- `total_bytes_`, which `processPacket` adds the bytes of the datagram to. -/
def countBytes (ip : IPProtocol) (total : Int) (p : Stack.Packet) : Except Fault Int := do
  let (accepted, _) ← ip.ipChecker p
  if accepted then do
    let h ← readHeader p
    .ok (total + bytes h p)
  else .ok total

end IPProtocol

namespace EthernetProtocol

def headerSize : Nat := 14

/-- `ETHER_MAX_LEN` -/
def etherMaxLen : Int := 1518

/-- `ETHERTYPE_IP` -/
def ethertypeIp : BitVec 16 := 0x0800

/-- A packet has no anomaly at first. -/
def ethernetChecker (p : Stack.Packet) : Bool × Stack.Packet :=
  if 40 ≤ p.length ∧ p.length ≤ etherMaxLen then (true, { p with anomaly := .none }) else (false, p)

def getEthernetType (p : Stack.Packet) : Except Fault (BitVec 16) := do
  let type ← p.curr.half 12
  .ok (ntohs type)

end EthernetProtocol

/-- IPv4 with one of its transports; whatever the other layers do happens elsewhere. -/
structure Lan where
  ip : IPLayer := IPLayer.new
  ipBytes : Int := 0
  layer : TransportLayer

namespace Lan

/-- A datagram at the layer of IP. -/
def receive (s : Lan) (kind : Kind) (p : Stack.Packet) (time : Int) (tag : Option (BitVec 32))
    (o : Outside) : Except Fault (Lan × Option RawPacket) := do
  let total ← s.ip.ip.countBytes s.ipBytes p
  let (ip, out) ← s.ip.receive p
  match out with
  | some (next, q) =>
    if next = kind.protocol then do
      let (layer, payload) ← s.layer.receive kind ip.mux q time tag o
      .ok ({ ip := ip, ipBytes := total, layer := layer }, payload)
    else .ok ({ s with ip := ip, ipBytes := total }, none)
  | none => .ok ({ s with ip := ip, ipBytes := total }, none)

/-- An Ethernet frame, without a tag. -/
def receiveFrame (s : Lan) (kind : Kind) (frame : Stack.Packet) (time : Int) (o : Outside) :
    Except Fault (Lan × Option RawPacket) :=
  let (accepted, p) := EthernetProtocol.ethernetChecker frame
  if accepted then do
    let type ← EthernetProtocol.getEthernetType p
    if type = EthernetProtocol.ethertypeIp then
      s.receive kind { p with curr := p.curr.advance EthernetProtocol.headerSize } time none o
    else .ok (s, none)
  else .ok (s, none)

end Lan

/-! ### What a transport reads -/

namespace RawPacket

variable {p : RawPacket} {k : Nat}

theorem half_octets (inside : k + 1 < p.memory.length) :
    p.half k = .ok (p.octet (k + 1) ++ p.octet k) := by
  unfold half
  rw [byte_octet (by omega), byte_octet inside]
  rfl

theorem octet_advance (p : RawPacket) (n k : Nat) : (p.advance n).octet k = p.octet (n + k) := by
  unfold octet advance
  rw [List.getD_eq_getElem?_getD, List.getD_eq_getElem?_getD, List.getElem?_drop]

@[simp] theorem advance_length (p : RawPacket) (n : Nat) : (p.advance n).length = p.length - n := rfl

end RawPacket

/-- The length of the header at a place, as its data offset has it. -/
def TCPProtocol.offsetAt (p : RawPacket) (k : Nat) : Nat :=
  ((p.octet (k + 12)).extractLsb' 4 4).toNat * 4

/-- The length field of the header at a place. -/
def UDPProtocol.lengthAt (p : RawPacket) (k : Nat) : BitVec 16 :=
  ntohs (p.octet (k + 5) ++ p.octet (k + 4))

namespace TransportLayer

/-- The packet as `processPacket` sees it, when the checker accepts it. -/
def read (kind : Kind) (down : Multiplexer) (p : Stack.Packet) (time : Int)
    (tag : Option (BitVec 32)) : Except Fault (Option Packet) :=
  if kind.headerSize ≤ p.length then
    match kind with
    | .tcp => do
      let h ← TCPProtocol.readHeader p
      .ok (some (TCPProtocol.segment h down (TCPProtocol.checked h p) time tag))
    | .udp => do
      let h ← UDPProtocol.readHeader p
      .ok (some (UDPProtocol.segment h down p time tag))
  else .ok none

/-- What `processPacket` steps over. -/
def stepped (kind : Kind) (x : Packet) : Nat :=
  match kind with
  | .tcp => x.tcpHdrLength.toNat
  | .udp => Kind.udp.headerSize

/-- `total_bytes_` behind a packet: TCP counts it in the checker, and UDP when it has found a flow. -/
def counted (s : TransportLayer) (kind : Kind) (p : Stack.Packet) (x : Packet) (t : Transport) : Int :=
  match kind with
  | .tcp => s.totalBytes + p.length
  | .udp => if t.currentFlow.isSome then s.totalBytes + x.udpBytes else s.totalBytes

/-- What a packet that is read has of the header and of the multiplexer. -/
structure Fields (kind : Kind) (down : Multiplexer) (p : Stack.Packet) (x : Packet) : Prop where
  length : x.length = p.length
  totalLength : x.totalLength = down.totalLength.toNat
  headerSize : x.headerSize = down.headerSize
  tcp : kind = .tcp → x.tcpHdrLength = TCPProtocol.offsetAt p.curr 0
  udp : kind = .udp → x.udpLength = UDPProtocol.lengthAt p.curr 0

section Read

variable {kind : Kind} {down : Multiplexer} {p : Stack.Packet} {time : Int} {tag : Option (BitVec 32)}
  {s : TransportLayer} {o : Outside}

theorem checked_curr (h : TCPProtocol.Header) (p : Stack.Packet) :
    (TCPProtocol.checked h p).curr = p.curr := by
  unfold TCPProtocol.checked
  split <;> rfl

theorem tcp_readHeader (long : Kind.tcp.headerSize ≤ p.length) :
    ∃ h, TCPProtocol.readHeader p = .ok h ∧
      TCPProtocol.getTcpHdrLength h = TCPProtocol.offsetAt p.curr 0 := by
  have held : p.length ≤ p.curr.memory.length := p.curr.held
  have long : (20 : Int) ≤ p.length := long
  have offset := RawPacket.byte_octet (p := p.curr) (k := 12) (by omega)
  have flags := RawPacket.byte_octet (p := p.curr) (k := 13) (by omega)
  obtain ⟨source, sourceRead⟩ := RawPacket.half_of_lt (p := p.curr) (k := 0) (by omega)
  obtain ⟨dest, destRead⟩ := RawPacket.half_of_lt (p := p.curr) (k := 2) (by omega)
  obtain ⟨seq, seqRead⟩ := RawPacket.quad_of_lt (p := p.curr) (k := 4) (by omega)
  unfold TCPProtocol.readHeader Stack.Packet.byte
  rw [sourceRead, destRead, seqRead, offset, flags]
  exact ⟨_, rfl, rfl⟩

theorem udp_readHeader (long : Kind.udp.headerSize ≤ p.length) :
    ∃ h, UDPProtocol.readHeader p = .ok h ∧
      UDPProtocol.getLength h = UDPProtocol.lengthAt p.curr 0 := by
  have held : p.length ≤ p.curr.memory.length := p.curr.held
  have long : (8 : Int) ≤ p.length := long
  have len := RawPacket.half_octets (p := p.curr) (k := 4) (by omega)
  obtain ⟨source, sourceRead⟩ := RawPacket.half_of_lt (p := p.curr) (k := 0) (by omega)
  obtain ⟨dest, destRead⟩ := RawPacket.half_of_lt (p := p.curr) (k := 2) (by omega)
  unfold UDPProtocol.readHeader
  rw [sourceRead, destRead, len]
  exact ⟨_, rfl, rfl⟩

theorem read_short (short : ¬kind.headerSize ≤ p.length) : read kind down p time tag = .ok none :=
  if_neg short

theorem receive_long (s : TransportLayer) (down : Multiplexer) (time : Int)
    (tag : Option (BitVec 32)) (o : Outside) (long : kind.headerSize ≤ p.length) :
    ∃ x, read kind down p time tag = .ok (some x) ∧ Fields kind down p x ∧
      s.receive kind down p time tag o =
        (s.transport.processPacket kind x o).map fun t =>
          ({ s with
            transport := t
            totalValidatedPackets := s.totalValidatedPackets + 1
            totalBytes := s.counted kind p x t },
          s.given kind x o.hint p (stepped kind x)) := by
  cases kind with
  | tcp =>
    obtain ⟨h, header, offset⟩ := tcp_readHeader long
    have again : TCPProtocol.readHeader (TCPProtocol.checked h p) = .ok h := by
      rw [← header]
      unfold TCPProtocol.readHeader Stack.Packet.byte
      rw [checked_curr]
    have length : (TCPProtocol.checked h p).length = p.length :=
      congrArg RawPacket.length (checked_curr h p)
    refine ⟨TCPProtocol.segment h down (TCPProtocol.checked h p) time tag, ?_, ?_, ?_⟩
    · unfold read
      rw [if_pos long]
      simp only
      rw [header]
      rfl
    · exact ⟨length, rfl, rfl, fun _ => congrArg Nat.cast offset, fun udp => absurd udp (by simp)⟩
    · unfold receive TCPProtocol.tcpChecker
      rw [if_pos long]
      simp only
      rw [header]
      simp only [bind, Except.bind, if_true]
      rw [again]
      simp only
      cases s.transport.processPacket .tcp
        (TCPProtocol.segment h down (TCPProtocol.checked h p) time tag) o with
      | error e => rfl
      | ok t =>
        simp only [Except.map]
        unfold given stepped
        rw [checked_curr]
        rfl
  | udp =>
    obtain ⟨h, header, len⟩ := udp_readHeader long
    refine ⟨UDPProtocol.segment h down p time tag, ?_, ?_, ?_⟩
    · unfold read
      rw [if_pos long]
      simp only
      rw [header]
      rfl
    · exact ⟨rfl, rfl, rfl, fun tcp => absurd tcp (by simp), fun _ => len⟩
    · unfold receive UDPProtocol.udpChecker
      rw [if_pos long]
      simp only
      rw [header]
      simp only [bind, Except.bind, if_true]
      cases s.transport.processPacket .udp (UDPProtocol.segment h down p time tag) o <;> rfl

theorem receive_short (s : TransportLayer) (down : Multiplexer) (time : Int)
    (tag : Option (BitVec 32)) (o : Outside) (short : ¬kind.headerSize ≤ p.length) :
    s.receive kind down p time tag o =
      .ok ({ s with totalMalformedPackets := s.totalMalformedPackets + 1 }, none) := by
  cases kind with
  | tcp =>
    unfold receive TCPProtocol.tcpChecker
    rw [if_neg short]
    rfl
  | udp =>
    unfold receive UDPProtocol.udpChecker
    rw [if_neg short]
    rfl

end Read

end TransportLayer

namespace IPProtocol

theorem bytes_toNat {h : IPHeader} {p : Stack.Packet} (held : 0 ≤ p.length) :
    ((BitVec.ofInt 16 (bytes h p)).toNat : Int) = bytes h p := by
  have word := (ntohs h.length).isLt
  rw [BitVec.toNat_ofInt]
  unfold bytes
  split <;> omega

end IPProtocol

theorem IPLayer.receive_out {s t : IPLayer} {p q : Stack.Packet} {next : TransportProtocol}
    (setUp : s.SetUp) (received : s.receive p = .ok (t, some (next, q))) :
    ∃ h, IPProtocol.readHeader p = .ok h ∧ 20 ≤ p.length ∧
      (t.mux.totalLength.toNat : Int) = IPProtocol.bytes h p ∧ t.mux.headerSize = 20 ∧
        q.curr = p.curr.advance 20 := by
  unfold receive at received
  obtain ⟨⟨accepted, ip⟩, checked, received⟩ := Ending.bind_ok received
  cases accepted with
  | false => exact absurd received (by simp)
  | true =>
    have long := IPProtocol.ipChecker_accepts checked
    simp only [if_true] at received
    obtain ⟨⟨forward, ip', m, p'⟩, processed, received⟩ := Ending.bind_ok received
    simp only [Except.ok.injEq, Prod.mk.injEq] at received
    obtain ⟨rfl, out⟩ := received
    unfold IPProtocol.processPacket at processed
    obtain ⟨h, read, processed⟩ := Ending.bind_ok processed
    have known : m.totalLength = BitVec.ofInt 16 (IPProtocol.bytes h p) ∧
        m.headerSize = s.mux.headerSize ∧ p'.curr = p.curr := by
      simp only at processed
      split at processed <;>
      · simp only [Except.ok.injEq, Prod.mk.injEq] at processed
        obtain ⟨-, -, rfl, rfl⟩ := processed
        exact ⟨rfl, rfl, rfl⟩
    obtain ⟨total, size, curr⟩ := known
    refine ⟨h, read, long, ?_, size.trans setUp.headerSize, ?_⟩
    · rw [total]
      exact IPProtocol.bytes_toNat (by omega)
    · split at out
      · unfold Multiplexer.forwardPacket at out
        obtain ⟨next', -, same⟩ := Option.map_eq_some_iff.mp out
        obtain ⟨-, rfl⟩ := Prod.mk.inj same
        show p'.curr.advance m.headerSize = _
        rw [size, setUp.headerSize, curr]
      · exact absurd out (by simp)

namespace Lan

/-- The packet that a datagram becomes for the transport, and where it stands. -/
def reads (s : Lan) (kind : Kind) (p : Stack.Packet) (time : Int) (tag : Option (BitVec 32)) :
    Option (Stack.Packet × Packet) :=
  match s.ip.receive p with
  | .ok (ip, some (next, q)) =>
    if next = kind.protocol then
      match TransportLayer.read kind ip.mux q time tag with
      | .ok (some x) => some (q, x)
      | _ => none
    else none
  | _ => none

/-- The payload that the application layer is given of a datagram. -/
def gives (s : Lan) (kind : Kind) (p : Stack.Packet) (time : Int) (tag : Option (BitVec 32))
    (hint : Nat) : Option RawPacket :=
  (s.reads kind p time tag).bind fun r =>
    s.layer.given kind r.2 hint r.1 (TransportLayer.stepped kind r.2)

/-- The lengths that a transport goes by. -/
structure Lengths (kind : Kind) (p q : Stack.Packet) (h : IPHeader) (x : Packet) : Prop where
  datagram : 20 ≤ p.length
  accepted : kind.headerSize ≤ q.length
  place : q.curr = p.curr.advance 20
  length : x.length = q.length
  totalLength : x.totalLength = IPProtocol.bytes h p
  headerSize : x.headerSize = 20
  tcp : kind = .tcp → x.tcpHdrLength = TCPProtocol.offsetAt p.curr 20
  udp : kind = .udp → x.udpLength = UDPProtocol.lengthAt p.curr 20

theorem Lengths.rest {kind : Kind} {p q : Stack.Packet} {h : IPHeader} {x : Packet}
    (lengths : Lengths kind p q h x) : q.length = p.length - 20 :=
  congrArg RawPacket.length lengths.place

section Receive

variable {s t : Lan} {kind : Kind} {p q : Stack.Packet} {time : Int} {tag : Option (BitVec 32)}
  {o : Outside} {x : Packet} {r : Option RawPacket}

theorem reads_lengths (setUp : s.ip.SetUp) (reads : s.reads kind p time tag = some (q, x)) :
    ∃ h, IPProtocol.readHeader p = .ok h ∧ Lengths kind p q h x := by
  unfold Lan.reads at reads
  split at reads
  · rename_i ip next q' received
    split at reads
    · split at reads
      · rename_i x' read
        simp only [Option.some.injEq, Prod.mk.injEq] at reads
        obtain ⟨rfl, rfl⟩ := reads
        obtain ⟨h, header, datagram, total, size, place⟩ := IPLayer.receive_out setUp received
        by_cases long : kind.headerSize ≤ q'.length
        · obtain ⟨x, same, fields, -⟩ :=
            TransportLayer.receive_long s.layer ip.mux time tag {} long
          obtain rfl := Option.some.inj (Except.ok.inj (same.symm.trans read))
          refine ⟨h, header, datagram, long, place, fields.length, fields.totalLength.trans total, ?_,
            fun tcp => ?_, fun udp => ?_⟩
          · rw [fields.headerSize, size]
            rfl
          · rw [fields.tcp tcp, place]
            unfold TCPProtocol.offsetAt
            rw [RawPacket.octet_advance]
          · rw [fields.udp udp, place]
            unfold UDPProtocol.lengthAt
            rw [RawPacket.octet_advance, RawPacket.octet_advance]
        · rw [TransportLayer.read_short long] at read
          exact absurd read (by simp)
      · exact absurd reads (by simp)
    · exact absurd reads (by simp)
  · exact absurd reads (by simp)

/-- What a datagram changes: the transport processes what is read of it, and is left alone otherwise. -/
structure Received (s t : Lan) (kind : Kind) (p : Stack.Packet) (time : Int)
    (tag : Option (BitVec 32)) (o : Outside) : Prop where
  counted : s.ip.ip.countBytes s.ipBytes p = .ok t.ipBytes
  ip : ∃ out, s.ip.receive p = .ok (t.ip, out)
  silent : s.reads kind p time tag = none →
    t.layer.transport = s.layer.transport ∧ t.layer.totalBytes = s.layer.totalBytes
  processed : ∀ q x, s.reads kind p time tag = some (q, x) →
    s.layer.transport.processPacket kind x o = .ok t.layer.transport ∧
      t.layer.totalBytes = s.layer.counted kind q x t.layer.transport

theorem gives_silent {hint : Nat} (silent : s.reads kind p time tag = none) :
    s.gives kind p time tag hint = none := by
  unfold gives
  rw [silent]
  rfl

theorem reads_of_receive (kind : Kind) (time : Int) (tag : Option (BitVec 32)) {ip : IPLayer}
    {out : Option (TransportProtocol × Stack.Packet)}
    (received : s.ip.receive p = .ok (ip, out)) :
    s.reads kind p time tag = out.bind fun next =>
      if next.1 = kind.protocol then
        (TransportLayer.read kind ip.mux next.2 time tag).toOption.join.map fun x => (next.2, x)
      else none := by
  unfold Lan.reads
  rw [received]
  cases out with
  | none => rfl
  | some next =>
    obtain ⟨next, q⟩ := next
    simp only [Option.bind_some]
    split
    · cases TransportLayer.read kind ip.mux q time tag with
      | error e => rfl
      | ok x => cases x <;> rfl
    · rfl

theorem received_silent {out : Option (TransportProtocol × Stack.Packet)}
    (silent : s.reads kind p time tag = none)
    (counted : s.ip.ip.countBytes s.ipBytes p = .ok t.ipBytes) (ip : s.ip.receive p = .ok (t.ip, out))
    (transport : t.layer.transport = s.layer.transport)
    (bytes : t.layer.totalBytes = s.layer.totalBytes) :
    none = s.gives kind p time tag o.hint ∧ Received s t kind p time tag o :=
  ⟨(gives_silent silent).symm, counted, ⟨out, ip⟩, fun _ => ⟨transport, bytes⟩, fun q x reads =>
    absurd (silent.symm.trans reads) (by simp)⟩

theorem received_read {out : Option (TransportProtocol × Stack.Packet)}
    (reads : s.reads kind p time tag = some (q, x))
    (counted : s.ip.ip.countBytes s.ipBytes p = .ok t.ipBytes) (ip : s.ip.receive p = .ok (t.ip, out))
    (processed : s.layer.transport.processPacket kind x o = .ok t.layer.transport)
    (bytes : t.layer.totalBytes = s.layer.counted kind q x t.layer.transport) :
    Received s t kind p time tag o := by
  refine ⟨counted, ⟨out, ip⟩, fun silent => absurd (reads.symm.trans silent) (by simp),
    fun q' x' again => ?_⟩
  obtain ⟨rfl, rfl⟩ := Prod.mk.inj (Option.some.inj (reads.symm.trans again))
  exact ⟨processed, bytes⟩

theorem receive_spec (received : s.receive kind p time tag o = .ok (t, r)) :
    r = s.gives kind p time tag o.hint ∧ Received s t kind p time tag o := by
  unfold receive at received
  obtain ⟨total, counted, received⟩ := Ending.bind_ok received
  obtain ⟨⟨ip, out⟩, ipReceived, received⟩ := Ending.bind_ok received
  have readsOf := reads_of_receive kind time tag ipReceived
  cases out with
  | none =>
    simp only [Except.ok.injEq, Prod.mk.injEq] at received
    obtain ⟨rfl, rfl⟩ := received
    exact received_silent readsOf counted ipReceived rfl rfl
  | some found =>
    obtain ⟨next, q⟩ := found
    simp only [Option.bind_some] at received readsOf
    split at received
    · rename_i same
      rw [if_pos same] at readsOf
      obtain ⟨⟨layer, payload⟩, given, received⟩ := Ending.bind_ok received
      simp only [Except.ok.injEq, Prod.mk.injEq] at received
      obtain ⟨rfl, rfl⟩ := received
      by_cases long : kind.headerSize ≤ q.length
      · obtain ⟨x, read, -, whole⟩ :=
          TransportLayer.receive_long s.layer ip.mux time tag o long
        rw [read] at readsOf
        have reads : s.reads kind p time tag = some (q, x) := readsOf
        rw [whole] at given
        cases processed : s.layer.transport.processPacket kind x o with
        | error e =>
          rw [processed] at given
          exact absurd given (by simp [Except.map])
        | ok u =>
          rw [processed] at given
          simp only [Except.map, Except.ok.injEq, Prod.mk.injEq] at given
          obtain ⟨rfl, rfl⟩ := given
          refine ⟨?_, received_read reads counted ipReceived processed rfl⟩
          unfold gives
          rw [reads]
          rfl
      · rw [TransportLayer.receive_short s.layer ip.mux time tag o long] at given
        simp only [Except.ok.injEq, Prod.mk.injEq] at given
        obtain ⟨rfl, rfl⟩ := given
        rw [TransportLayer.read_short long] at readsOf
        exact received_silent readsOf counted ipReceived rfl rfl
    · rename_i other
      rw [if_neg other] at readsOf
      simp only [Except.ok.injEq, Prod.mk.injEq] at received
      obtain ⟨rfl, rfl⟩ := received
      exact received_silent readsOf counted ipReceived rfl rfl

end Receive

end Lan

end AIEngine
