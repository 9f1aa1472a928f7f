import AIEngine.Library.Endings
import AIEngine.Stack.Multiplexer

/-!
# IPv6 (`IPv6Protocol.cc`, `IPv6Protocol.h`)

Behind the header of 40 octets stands a chain of extension headers. The layer looks for its end, to step
over the chain and to know the transport.
-/

namespace AIEngine

open Stack (Packet)

structure IPv6Protocol where
  totalValidatedPackets : Nat := 0
  totalMalformedPackets : Nat := 0
  totalFragPackets : BitVec 32 := 0
  totalNoHeaderPackets : BitVec 32 := 0
  totalExtensionHeaderPackets : BitVec 32 := 0
  totalOtherExtensionHeaderPackets : BitVec 32 := 0
  deriving DecidableEq, Repr

/-- The cases of the `switch`. -/
inductive NextHeader where
  | generic | authentication | upper | fragment | none | other
  deriving DecidableEq, Repr

namespace NextHeader

def ofProtocol (n : BitVec 8) : NextHeader :=
  if n = 60 ∨ n = 43 ∨ n = 0 then .generic
  else if n = 51 then .authentication
  else if n = 17 ∨ n = 6 ∨ n = 58 then .upper
  else if n = 44 then .fragment
  else if n = 59 then .none
  else .other

end NextHeader

namespace IPv6Protocol

def headerSize : Nat := 40

def isIPver6 (p : Packet) : Except Fault Bool := do
  let b ← p.byte 0
  .ok (decide (b.extractLsb' 4 4 = 6))

def ip6Checker (ip : IPv6Protocol) (p : Packet) : Except Fault (Bool × IPv6Protocol) :=
  if headerSize ≤ p.length then do
    let six ← isIPver6 p
    if six then .ok (true, { ip with totalValidatedPackets := ip.totalValidatedPackets + 1 })
    else .ok (false, { ip with totalMalformedPackets := ip.totalMalformedPackets + 1 })
  else .ok (false, { ip with totalMalformedPackets := ip.totalMalformedPackets + 1 })

/-- The local variables of the loop; `ipv6pkt` is a place in the packet. -/
structure Scan where
  nextProto : BitVec 8
  ipv6pkt : Nat := headerSize
  extensionLength : Nat := 0
  haveExtensionHdr : Bool := false
  deriving DecidableEq, Repr

/-- How an iteration ends: `break`, `return true` or `return false`. -/
inductive Outcome where
  | again | forward | stop
  deriving DecidableEq, Repr

/-- A second extension header is an anomaly. -/
def loopAnomaly (p : Packet) (w : Scan) : Packet :=
  if w.haveExtensionHdr then { p with anomaly := .ipv6LoopExtensionHeaders } else p

/-- One iteration of the loop. -/
def visit (ip : IPv6Protocol) (p : Packet) (w : Scan) :
    Except Fault (Outcome × IPv6Protocol × Packet × Scan) :=
  match NextHeader.ofProtocol w.nextProto with
  | .generic => do
    let ipv6pkt := w.ipv6pkt + w.extensionLength
    let next ← p.byte ipv6pkt
    let len ← p.byte (ipv6pkt + 1)
    .ok (.again,
      { ip with totalExtensionHeaderPackets := ip.totalExtensionHeaderPackets + 1 }, loopAnomaly p w,
      { nextProto := next
        ipv6pkt := ipv6pkt
        extensionLength := w.extensionLength + (len.toNat + 1) * 8
        haveExtensionHdr := true })
  | .authentication => do
    let next ← p.byte w.ipv6pkt
    let len ← p.byte (w.ipv6pkt + 1)
    .ok (.again,
      { ip with totalExtensionHeaderPackets := ip.totalExtensionHeaderPackets + 1 }, loopAnomaly p w,
      { nextProto := next
        ipv6pkt := w.ipv6pkt
        extensionLength := len.toNat * 6
        haveExtensionHdr := true })
  | .upper => .ok (.forward, ip, p, w)
  | .fragment =>
    .ok (.stop, { ip with totalFragPackets := ip.totalFragPackets + 1 },
      { p with anomaly := .ipv6Fragmentation }, w)
  | .none => .ok (.stop, { ip with totalNoHeaderPackets := ip.totalNoHeaderPackets + 1 }, p, w)
  | .other =>
    .ok (.again,
      { ip with totalOtherExtensionHeaderPackets := ip.totalOtherExtensionHeaderPackets + 1 }, p, w)

/-- The loop, with the iterations that are left. -/
def loop (ip : IPv6Protocol) (p : Packet) (w : Scan) :
    Nat → Except Fault (Outcome × IPv6Protocol × Packet × Scan)
  | 0 => .ok (.again, ip, p, w)
  | n + 1 => do
    let (out, ip, p, w) ← visit ip p w
    match out with
    | .again => loop ip p w n
    | .forward | .stop => .ok (out, ip, p, w)

/-- Whether the packet goes on, and what the layer leaves behind. -/
def processPacket (ip : IPv6Protocol) (m : Multiplexer) (p : Packet) :
    Except Fault (Bool × IPv6Protocol × Multiplexer × Packet) := do
  let nextProto ← p.byte 6
  let source ← p.curr.in6Addr 8
  let destination ← p.curr.in6Addr 24
  let m := { m with
    address := (m.address.setSourceAddress6 source).setDestinationAddress6 destination
    totalLength := BitVec.ofInt 16 p.length }
  let (out, ip, p, w) ← loop ip p { nextProto := nextProto } 3
  match out with
  | .forward =>
    .ok (true, ip,
      { m with
        headerSize := headerSize + w.extensionLength
        nextProtocolId := w.nextProto.setWidth 16 },
      { p with net := p.curr, prevHeaderSize := headerSize + w.extensionLength })
  | .stop => .ok (false, ip, m, p)
  | .again =>
    .ok (false, ip, { m with headerSize := headerSize + w.extensionLength, nextProtocolId := 0 }, p)

/-! ### The loop without what it counts -/

variable {p : Packet}

/-- What an iteration reads, and where it leaves the local variables. -/
def look (p : RawPacket) (w : Scan) : Except Fault (Outcome × Scan) :=
  match NextHeader.ofProtocol w.nextProto with
  | .generic => do
    let next ← p.byte (w.ipv6pkt + w.extensionLength)
    let len ← p.byte (w.ipv6pkt + w.extensionLength + 1)
    .ok (.again, ⟨next, w.ipv6pkt + w.extensionLength,
      w.extensionLength + (len.toNat + 1) * 8, true⟩)
  | .authentication => do
    let next ← p.byte w.ipv6pkt
    let len ← p.byte (w.ipv6pkt + 1)
    .ok (.again, ⟨next, w.ipv6pkt, len.toNat * 6, true⟩)
  | .upper => .ok (.forward, w)
  | .fragment | .none => .ok (.stop, w)
  | .other => .ok (.again, w)

def walk (p : RawPacket) : Nat → Scan → Except Fault (Outcome × Scan)
  | 0, w => .ok (.again, w)
  | n + 1, w => do
    let (out, w) ← look p w
    match out with
    | .again => walk p n w
    | .forward | .stop => .ok (out, w)

@[simp] theorem loopAnomaly_curr (p : Packet) (w : Scan) : (loopAnomaly p w).curr = p.curr := by
  unfold loopAnomaly
  split <;> rfl

/-- The counters and the anomalies do not change what an iteration does. -/
theorem visit_look (ip : IPv6Protocol) (p : Packet) (w : Scan) :
    (∃ e, visit ip p w = .error e ∧ look p.curr w = .error e) ∨
      ∃ out ip' p' w', visit ip p w = .ok (out, ip', p', w') ∧ p'.curr = p.curr ∧
        look p.curr w = .ok (out, w') := by
  unfold visit look Packet.byte
  cases NextHeader.ofProtocol w.nextProto with
  | upper | fragment | none | other => exact .inr ⟨_, _, _, _, rfl, rfl, rfl⟩
  | generic =>
    dsimp only
    cases next : p.curr.byte (w.ipv6pkt + w.extensionLength) with
    | error e => exact .inl ⟨e, rfl, rfl⟩
    | ok b =>
      cases len : p.curr.byte (w.ipv6pkt + w.extensionLength + 1) with
      | error e => exact .inl ⟨e, rfl, rfl⟩
      | ok l => exact .inr ⟨_, _, _, _, rfl, loopAnomaly_curr p w, rfl⟩
  | authentication =>
    cases next : p.curr.byte w.ipv6pkt with
    | error e => exact .inl ⟨e, rfl, rfl⟩
    | ok b =>
      cases len : p.curr.byte (w.ipv6pkt + 1) with
      | error e => exact .inl ⟨e, rfl, rfl⟩
      | ok l => exact .inr ⟨_, _, _, _, rfl, loopAnomaly_curr p w, rfl⟩

theorem loop_walk (ip : IPv6Protocol) (p : Packet) (w : Scan) (n : Nat) :
    (∃ e, loop ip p w n = .error e ∧ walk p.curr n w = .error e) ∨
      ∃ out ip' p' w', loop ip p w n = .ok (out, ip', p', w') ∧ p'.curr = p.curr ∧
        walk p.curr n w = .ok (out, w') := by
  induction n generalizing ip p w with
  | zero => exact .inr ⟨_, _, _, _, rfl, rfl, rfl⟩
  | succ n ih =>
    unfold loop walk
    rcases visit_look ip p w with
      ⟨e, failed, same⟩ | ⟨out, ip', p', w', visited, curr, same⟩
    · rw [failed, same]
      exact .inl ⟨e, rfl, rfl⟩
    · rw [visited, same]
      simp only [bind, Except.bind]
      cases out with
      | again =>
        have rest := ih ip' p' w'
        rw [curr] at rest
        exact rest
      | forward | stop => exact .inr ⟨_, _, _, _, rfl, curr, rfl⟩

/-- What `processPacket` does, by what the loop finds. -/
theorem processPacket_walk (ip : IPv6Protocol) (m : Multiplexer) {next : BitVec 8} (long : 40 ≤ p.length) (first : p.byte 6 = .ok next) :
    (∃ e, ip.processPacket m p = .error e ∧ walk p.curr 3 { nextProto := next } = .error e) ∨
      ∃ out w ip' m' p', ip.processPacket m p = .ok (decide (out = .forward), ip', m', p') ∧
        walk p.curr 3 { nextProto := next } = .ok (out, w) ∧
        (out = .forward → m'.headerSize = 40 + w.extensionLength ∧
          m'.nextProtocolId = w.nextProto.setWidth 16) := by
  have held : p.length ≤ p.curr.memory.length := p.curr.held
  obtain ⟨source, sourceRead⟩ := RawPacket.in6Addr_of_lt (p := p.curr) (k := 8) (by omega)
  obtain ⟨destination, destinationRead⟩ :=
    RawPacket.in6Addr_of_lt (p := p.curr) (k := 24) (by omega)
  unfold processPacket
  rw [first, sourceRead, destinationRead]
  simp only [bind, Except.bind]
  rcases loop_walk ip p { nextProto := next } 3 with
    ⟨e, failed, same⟩ | ⟨out, ip', p', w, looped, -, same⟩
  · rw [failed]
    exact .inl ⟨e, rfl, same⟩
  · rw [looped]
    refine .inr ⟨out, w, ?_⟩
    cases out with
    | forward => exact ⟨_, _, _, rfl, same, fun _ => ⟨rfl, rfl⟩⟩
    | again | stop => exact ⟨_, _, _, rfl, same, fun forwarded => absurd forwarded (by simp)⟩

end IPv6Protocol

end AIEngine
