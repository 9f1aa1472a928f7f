import AIEngine.Library.Endings
import AIEngine.Library.Transition
import AIEngine.Stack.Multiplexer

/-!
# IPv4 (`IPProtocol.cc`, `IPProtocol.h`)

The layer checks a packet, leaves its addresses and its length with the multiplexer, and lets it go on
unless it takes it for a fragment. The size of the header that is stepped over is set once, when the
stack is built.
-/

namespace AIEngine

open Stack (Packet)

/-- The fields of `struct ip`, as a little-endian host reads them. -/
structure IPHeader where
  version : BitVec 4
  headerLength : BitVec 4
  length : BitVec 16
  offset : BitVec 16
  protocol : BitVec 8
  source : BitVec 32
  destination : BitVec 32
  deriving DecidableEq, Repr

structure IPProtocol where
  totalValidatedPackets : Nat := 0
  totalMalformedPackets : Nat := 0
  totalFragPackets : BitVec 32 := 0
  deriving DecidableEq, Repr

namespace IPProtocol

def headerSize : Nat := 20

/-- `IP_MF` -/
def moreFragments : BitVec 16 := 0x2000

def isIPver4 (p : Packet) : Except Fault Bool := do
  let b ← p.byte 0
  .ok (decide (b.extractLsb' 4 4 = 4))

def readHeader (p : Packet) : Except Fault IPHeader := do
  let first ← p.byte 0
  let length ← p.curr.half 2
  let offset ← p.curr.half 6
  let protocol ← p.byte 9
  let source ← p.curr.quad 12
  let destination ← p.curr.quad 16
  .ok { version := first.extractLsb' 4 4
        headerLength := first.extractLsb' 0 4
        length := length
        offset := offset
        protocol := protocol
        source := source
        destination := destination }

def ipChecker (ip : IPProtocol) (p : Packet) : Except Fault (Bool × IPProtocol) :=
  if headerSize ≤ p.length then do
    let four ← isIPver4 p
    if four then .ok (true, { ip with totalValidatedPackets := ip.totalValidatedPackets + 1 })
    else .ok (false, { ip with totalMalformedPackets := ip.totalMalformedPackets + 1 })
  else .ok (false, { ip with totalMalformedPackets := ip.totalMalformedPackets + 1 })

def isFragment (h : IPHeader) : Bool := decide (h.offset &&& moreFragments ≠ 0)

/-- What is behind the length of the datagram is padding. -/
def bytes (h : IPHeader) (p : Packet) : Int :=
  if ((ntohs h.length).toNat : Int) < p.length then (ntohs h.length).toNat else p.length

theorem bytes_held (h : IPHeader) (p : Packet) : bytes h p ≤ p.curr.memory.length := by
  have held : p.length ≤ p.curr.memory.length := p.curr.held
  unfold bytes
  split <;> omega

/-- Whether the packet goes on, and what the layer leaves behind. -/
def processPacket (ip : IPProtocol) (m : Multiplexer) (p : Packet) :
    Except Fault (Bool × IPProtocol × Multiplexer × Packet) := do
  let h ← readHeader p
  let m := { m with
    address := (m.address.setSourceAddress h.source).setDestinationAddress h.destination
    totalLength := BitVec.ofInt 16 (bytes h p)
    nextProtocolId := h.protocol.setWidth 16 }
  let net : RawPacket := { p.curr with length := bytes h p, held := bytes_held h p }
  let p := { p with net := net, prevHeaderSize := headerSize }
  if isFragment h then
    .ok (false, { ip with totalFragPackets := ip.totalFragPackets + 1 }, m,
      { p with anomaly := .ipv4Fragmentation })
  else .ok (true, ip, m, p)

end IPProtocol

/-- The layer of IPv4 in a stack. -/
structure IPLayer where
  ip : IPProtocol := {}
  mux : Multiplexer
  deriving DecidableEq, Repr

namespace IPLayer

/-- As `StackLan` sets it up. -/
def new : IPLayer where
  mux :=
    { headerSize := IPProtocol.headerSize
      up := [(17, .udp), (6, .tcp), (1, .icmp)] }

/-- `forwardPacket` of the layer below: a packet that is accepted is processed, and goes on. The last
part is what goes to the transport. -/
def receive (s : IPLayer) (p : Packet) :
    Except Fault (IPLayer × Option (TransportProtocol × Packet)) := do
  let (accepted, ip) ← s.ip.ipChecker p
  if accepted then do
    let (forward, ip, mux, p) ← ip.processPacket s.mux p
    .ok ({ ip := ip, mux := mux }, if forward then mux.forwardPacket p else none)
  else .ok ({ s with ip := ip }, none)

def step (s : IPLayer) (p : Packet) : Option IPLayer := (s.receive p).toOption.map Prod.fst

end IPLayer

namespace IPHeader

/-- The three bits and the offset that share a field, in network order. -/
def moreFragments (h : IPHeader) : Bool := (ntohs h.offset).getLsbD 13

def fragmentOffset (h : IPHeader) : BitVec 13 := (ntohs h.offset).setWidth 13

/-- The packet is no fragment of a datagram. -/
def Whole (h : IPHeader) : Prop := h.moreFragments = false ∧ h.fragmentOffset = 0

instance (h : IPHeader) : Decidable h.Whole := inferInstanceAs (Decidable (_ ∧ _))

/-- The bit that is looked at, without `ntohs`, belongs to the offset. -/
theorem isFragment_iff (h : IPHeader) :
    IPProtocol.isFragment h = true ↔ h.fragmentOffset.getLsbD 5 = true := by
  have mask : IPProtocol.moreFragments = BitVec.twoPow 16 13 := by decide
  have bit : h.fragmentOffset.getLsbD 5 = h.offset.getLsbD 13 := by
    simp only [fragmentOffset, ntohs, BitVec.getLsbD_setWidth, BitVec.getLsbD_append,
      BitVec.getLsbD_extractLsb']
    rfl
  unfold IPProtocol.isFragment
  rw [decide_eq_true_iff, mask, BitVec.and_twoPow, bit]
  by_cases set : h.offset.getLsbD 13 = true
  · rw [if_pos set]
    exact iff_of_true (by decide) set
  · rw [if_neg set]
    exact iff_of_false (by simp) set

end IPHeader

namespace IPProtocol

variable {ip ip' : IPProtocol} {m : Multiplexer} {p : Packet} {h : IPHeader}

theorem ipChecker_accepts (accepted : ip.ipChecker p = .ok (true, ip')) : 20 ≤ p.length := by
  unfold ipChecker at accepted
  split at accepted
  · assumption
  · exact absurd accepted (by simp)

theorem readHeader_of_length (long : 20 ≤ p.length) : ∃ h, readHeader p = .ok h := by
  have held : p.length ≤ p.curr.memory.length := p.curr.held
  have first := RawPacket.byte_of_lt (p := p.curr) (k := 0) (by omega)
  have protocol := RawPacket.byte_of_lt (p := p.curr) (k := 9) (by omega)
  obtain ⟨length, lengthRead⟩ := RawPacket.half_of_lt (p := p.curr) (k := 2) (by omega)
  obtain ⟨offset, offsetRead⟩ := RawPacket.half_of_lt (p := p.curr) (k := 6) (by omega)
  obtain ⟨source, sourceRead⟩ := RawPacket.quad_of_lt (p := p.curr) (k := 12) (by omega)
  obtain ⟨destination, destinationRead⟩ := RawPacket.quad_of_lt (p := p.curr) (k := 16) (by omega)
  unfold readHeader Packet.byte
  rw [first, lengthRead, offsetRead, protocol, sourceRead, destinationRead]
  exact ⟨_, rfl⟩

/-- What `processPacket` does with a header. -/
theorem processPacket_eq (ip : IPProtocol) (m : Multiplexer) (read : readHeader p = .ok h) :
    ∃ ip' m' p', ip.processPacket m p = .ok (!isFragment h, ip', m', p') ∧
      ip'.totalFragPackets = ip.totalFragPackets + (if isFragment h then 1 else 0) ∧
      m'.headerSize = m.headerSize ∧ m'.up = m.up ∧
      m'.nextProtocolId = h.protocol.setWidth 16 ∧ p'.curr = p.curr := by
  unfold processPacket
  rw [read]
  simp only [bind, Except.bind]
  cases fragment : isFragment h with
  | true => exact ⟨_, _, _, rfl, rfl, rfl, rfl, rfl, rfl⟩
  | false => exact ⟨_, _, _, rfl, (BitVec.add_zero _).symm, rfl, rfl, rfl, rfl⟩

/-- A packet goes on exactly when it is no fragment, and every other one is counted. -/
def SortsOut (ip : IPProtocol) (m : Multiplexer) (p : Packet) (h : IPHeader) : Prop :=
  ∃ forward ip' m' p', ip.processPacket m p = .ok (forward, ip', m', p') ∧
    (forward = true ↔ h.Whole) ∧
      ip'.totalFragPackets = ip.totalFragPackets + (if forward then 0 else 1)

/-- A fragment is taken for one exactly when its offset has the bit 5. -/
theorem sortsOut_iff (accepted : ip.ipChecker p = .ok (true, ip')) :
    ∃ h, readHeader p = .ok h ∧
      (ip'.SortsOut m p h ↔ h.Whole ∨ h.fragmentOffset.getLsbD 5 = true) := by
  obtain ⟨h, read⟩ := readHeader_of_length (ipChecker_accepts accepted)
  refine ⟨h, read, ?_⟩
  obtain ⟨ip'', m', p', processed, counted, -⟩ := processPacket_eq ip' m read
  have counts : ip''.totalFragPackets = ip'.totalFragPackets + (if !isFragment h then 0 else 1) := by
    rw [counted]
    cases isFragment h <;> rfl
  have sorts : ip'.SortsOut m p h ↔ (isFragment h = false ↔ h.Whole) := by
    unfold SortsOut
    constructor
    · rintro ⟨forward, _, _, _, same, goes, -⟩
      obtain ⟨rfl, -⟩ := Prod.mk.inj (Except.ok.inj (processed.symm.trans same))
      simpa using goes
    · intro goes
      exact ⟨_, _, _, _, processed, by simpa using goes, counts⟩
  rw [sorts, ← IPHeader.isFragment_iff]
  constructor
  · intro goes
    cases fragment : isFragment h with
    | true => exact Or.inr rfl
    | false => exact Or.inl (goes.mp fragment)
  · rintro (whole | fragment)
    · refine iff_of_true ?_ whole
      have none : ¬h.fragmentOffset.getLsbD 5 = true := by simp [whole.2]
      rw [← IPHeader.isFragment_iff] at none
      exact Bool.eq_false_iff.mpr none
    · refine iff_of_false (by simp [fragment]) fun whole => ?_
      rw [IPHeader.isFragment_iff, whole.2] at fragment
      exact absurd fragment (by simp)

/-- The first fragment of a datagram. -/
def firstFragment : Packet :=
  let octets : Bytes := [0x45, 0, 0, 40, 0, 1, 0x20, 0, 64, 17, 0, 0, 10, 0, 0, 1, 10, 0, 0, 2] ++
    List.replicate 20 0
  { curr := { memory := octets, length := 40, held := by decide }
    net := { memory := octets, length := 40, held := by decide } }

theorem sortsOut_iff_firstFragment :
    ∃ h, readHeader firstFragment = .ok h ∧
      (({ totalValidatedPackets := 1 } : IPProtocol).SortsOut IPLayer.new.mux firstFragment h ↔
        h.Whole ∨ h.fragmentOffset.getLsbD 5 = true) := by
  have accepted : ({} : IPProtocol).ipChecker firstFragment =
      .ok (true, { totalValidatedPackets := 1 }) := rfl
  exact sortsOut_iff accepted

theorem not_sortsOut :
    ¬∀ (ip ip' : IPProtocol) (m : Multiplexer) (p : Packet), ip.ipChecker p = .ok (true, ip') →
      ∃ h, readHeader p = .ok h ∧ ip'.SortsOut m p h := by
  intro all
  obtain ⟨h, read, forward, _, _, _, processed, goes, -⟩ :=
    all {} { totalValidatedPackets := 1 } IPLayer.new.mux firstFragment rfl
  have known : (readHeader firstFragment).toOption.map (fun h => (isFragment h, decide h.Whole)) =
      some (false, false) := by decide +kernel
  rw [read] at known
  obtain ⟨goesOn, notWhole⟩ := Prod.mk.inj (Option.some.inj known)
  obtain ⟨_, _, _, same, -⟩ := processPacket_eq { totalValidatedPackets := 1 }
    IPLayer.new.mux read
  obtain ⟨rfl, -⟩ := Prod.mk.inj (Except.ok.inj (processed.symm.trans same))
  rw [goesOn] at goes
  exact of_decide_eq_false notWhole (goes.mp rfl)

end IPProtocol

namespace IPLayer

variable {s t : IPLayer} {p : Packet} {h : IPHeader} {next : TransportProtocol} {n : Nat}

/-- What is set up once stays. -/
structure SetUp (s : IPLayer) : Prop where
  headerSize : s.mux.headerSize = 20
  up : s.mux.up = new.mux.up

theorem setUp_new : SetUp new := ⟨rfl, rfl⟩

theorem isIPver4_of_read (read : IPProtocol.readHeader p = .ok h) :
    IPProtocol.isIPver4 p = .ok (decide (h.version = 4)) := by
  unfold IPProtocol.readHeader at read
  unfold IPProtocol.isIPver4
  obtain ⟨first, byteRead, read⟩ := Ending.bind_ok read
  obtain ⟨_, -, read⟩ := Ending.bind_ok read
  obtain ⟨_, -, read⟩ := Ending.bind_ok read
  obtain ⟨_, -, read⟩ := Ending.bind_ok read
  obtain ⟨_, -, read⟩ := Ending.bind_ok read
  obtain ⟨_, -, read⟩ := Ending.bind_ok read
  obtain rfl := Except.ok.inj read
  rw [byteRead]
  rfl

theorem ipChecker_of_read (long : 20 ≤ p.length) (read : IPProtocol.readHeader p = .ok h)
    (ip : IPProtocol) :
    ∃ ip', ip.ipChecker p = .ok (decide (h.version = 4), ip') := by
  unfold IPProtocol.ipChecker
  rw [if_pos (by exact long), isIPver4_of_read read]
  simp only [bind, Except.bind]
  by_cases four : h.version = 4
  · exact ⟨_, by rw [if_pos (by simpa using four), decide_eq_true four]⟩
  · exact ⟨_, by rw [if_neg (by simpa using four), decide_eq_false four]⟩

/-- What `receive` does with a packet of version 4. -/
theorem receive_of_read (long : 20 ≤ p.length) (read : IPProtocol.readHeader p = .ok h)
    (four : h.version = 4) :
    ∃ ip' m' p', s.receive p =
        .ok ({ ip := ip', mux := m' },
          if IPProtocol.isFragment h then none else m'.forwardPacket p') ∧
      m'.headerSize = s.mux.headerSize ∧ m'.up = s.mux.up ∧
        m'.nextProtocolId = h.protocol.setWidth 16 ∧ p'.curr = p.curr := by
  obtain ⟨ip, checked⟩ := ipChecker_of_read long read s.ip
  rw [decide_eq_true four] at checked
  obtain ⟨ip', m', p', processed, -, same⟩ :=
    IPProtocol.processPacket_eq ip s.mux read
  refine ⟨ip', m', p', ?_, same⟩
  unfold receive
  rw [checked]
  simp only [bind, Except.bind]
  rw [if_pos trivial, processed]
  cases IPProtocol.isFragment h <;> rfl

theorem receive_setUp {out : Option (TransportProtocol × Packet)} (setUp : s.SetUp)
    (received : s.receive p = .ok (t, out)) : t.SetUp := by
  by_cases long : 20 ≤ p.length
  · obtain ⟨h, read⟩ := IPProtocol.readHeader_of_length long
    by_cases four : h.version = 4
    · obtain ⟨_, _, _, whole, headerSize, up, -⟩ := receive_of_read (s := s) long read four
      obtain ⟨rfl, -⟩ := Prod.mk.inj (Except.ok.inj (whole.symm.trans received))
      exact ⟨headerSize.trans setUp.headerSize, up.trans setUp.up⟩
    · obtain ⟨_, checked⟩ := ipChecker_of_read long read s.ip
      rw [decide_eq_false four] at checked
      unfold receive at received
      rw [checked] at received
      obtain ⟨rfl, -⟩ := Prod.mk.inj (Except.ok.inj received)
      exact ⟨setUp.headerSize, setUp.up⟩
  · unfold receive IPProtocol.ipChecker at received
    rw [if_neg (by exact long)] at received
    obtain ⟨rfl, -⟩ := Prod.mk.inj (Except.ok.inj received)
    exact ⟨setUp.headerSize, setUp.up⟩

theorem step_setUp (setUp : s.SetUp) (stepped : s.step p = some t) : t.SetUp := by
  unfold step at stepped
  cases received : s.receive p with
  | error e =>
    rw [received] at stepped
    exact absurd stepped (by simp [Except.toOption])
  | ok r =>
    obtain ⟨u, out⟩ := r
    rw [received] at stepped
    obtain rfl : u = t := by simpa [Except.toOption] using stepped
    exact receive_setUp setUp received

theorem always_setUp (packets : List Packet) : Transition.Always step SetUp new packets := by
  apply Transition.always_of_inv _ setUp_new
  exact fun s p t => step_setUp

/-- The transport gets what is behind the first `n` octets. -/
def HandsOver (s : IPLayer) (p : Packet) (next : TransportProtocol) (n : Nat) : Prop :=
  ∃ t q, s.receive p = .ok (t, some (next, q)) ∧ q.curr = p.curr.advance n

/-- The three transports of this stack are the ones that its protocol numbers name. -/
theorem up_number (setUp : s.SetUp) (known : next ≠ .icmp6) :
    s.mux.getUpMultiplexer (next.number.setWidth 16) = some next := by
  unfold Multiplexer.getUpMultiplexer
  rw [setUp.up]
  cases next with
  | icmp6 => exact absurd rfl known
  | tcp | udp | icmp => decide

theorem handsOver_iff (setUp : s.SetUp) (long : 20 ≤ p.length)
    (read : IPProtocol.readHeader p = .ok h) (four : h.version = 4)
    (goesOn : IPProtocol.isFragment h = false) (known : next ≠ .icmp6)
    (carries : h.protocol = next.number) : s.HandsOver p next n ↔ n = 20 := by
  obtain ⟨ip', m', p', received, headerSize, up, nextId, curr⟩ :=
    receive_of_read (s := s) long read four
  have known : m'.forwardPacket p' = some (next, m'.candidate p') := by
    unfold Multiplexer.forwardPacket
    have found := up_number setUp known
    unfold Multiplexer.getUpMultiplexer at found ⊢
    rw [nextId, up, carries, found]
    rfl
  have place : (m'.candidate p').curr = p.curr.advance 20 := by
    unfold Multiplexer.candidate
    rw [headerSize, setUp.headerSize, curr]
  rw [goesOn, if_neg (by simp), known] at received
  unfold HandsOver
  constructor
  · rintro ⟨t, q, same, there⟩
    obtain ⟨-, out⟩ := Prod.mk.inj (Except.ok.inj (received.symm.trans same))
    obtain ⟨-, rfl⟩ := Prod.mk.inj (Option.some.inj out)
    exact (RawPacket.advance_inj p.curr).mp (there.symm.trans place)
  · rintro rfl
    exact ⟨_, _, received, place⟩

/-- In every state, options are stepped over exactly when there are none. -/
theorem always_handsOver_iff (packets : List Packet) :
    Transition.Always step (fun s => ∀ p h next, IPProtocol.readHeader p = .ok h → 20 ≤ p.length →
      h.version = 4 → IPProtocol.isFragment h = false → next ≠ .icmp6 → h.protocol = next.number →
        (s.HandsOver p next (4 * h.headerLength.toNat) ↔ h.headerLength = 5)) new packets := by
  apply Transition.always_mono _ (always_setUp packets)
  intro s setUp p h next read long four goesOn known carries
  rw [handsOver_iff setUp long read four goesOn known carries]
  constructor
  · intro size
    exact BitVec.eq_of_toNat_eq (by change _ = 5; omega)
  · intro five
    rw [five]
    rfl

/-- A datagram with four octets of options. -/
def withOptions : Packet :=
  let octets : Bytes := [0x46, 0, 0, 32, 0, 1, 0, 0, 64, 17, 0, 0, 10, 0, 0, 1, 10, 0, 0, 2,
    1, 1, 1, 0, 0, 53, 0, 53, 0, 8, 0, 0]
  { curr := { memory := octets, length := 32, held := by decide }
    net := { memory := octets, length := 32, held := by decide } }

theorem not_always_handsOver :
    ¬∀ packets, Transition.Always step (fun s => ∀ p h next, IPProtocol.readHeader p = .ok h →
      20 ≤ p.length → h.version = 4 → 5 ≤ h.headerLength.toNat → h.Whole → next ≠ .icmp6 →
        h.protocol = next.number → s.HandsOver p next (4 * h.headerLength.toNat)) new packets := by
  intro all
  obtain ⟨h, read⟩ := IPProtocol.readHeader_of_length (p := withOptions) (by decide)
  have known : (IPProtocol.readHeader withOptions).toOption.map (fun h =>
      (h.version, h.headerLength, h.protocol, decide h.Whole)) = some (4, 6, 17, true) := by
    decide +kernel
  rw [read] at known
  obtain ⟨four, known⟩ := Prod.mk.inj (Option.some.inj known)
  obtain ⟨six, known⟩ := Prod.mk.inj known
  obtain ⟨udp, whole⟩ := Prod.mk.inj known
  have whole := of_decide_eq_true whole
  have goesOn : IPProtocol.isFragment h = false := by
    rw [Bool.eq_false_iff, ne_eq, IPHeader.isFragment_iff, whole.2]
    simp
  have carried := all [] withOptions h .udp read (by decide) four (by rw [six]; decide) whole
    (by simp) udp
  have udp : h.protocol = TransportProtocol.udp.number := udp
  rw [handsOver_iff setUp_new (by decide) read four goesOn (by simp) udp,
    six] at carried
  exact absurd carried (by decide)

end IPLayer

end AIEngine
