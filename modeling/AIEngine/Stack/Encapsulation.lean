import AIEngine.Reject.Headers
import AIEngine.Stack.Hops

/-!
# What a frame carries

Frames that are put together as a sender does it: the addresses of Ethernet, a tag or labels, a datagram and
what fills up the frame. The layers below a transport give it the same segment, whatever it was wrapped in.
-/

namespace AIEngine

open Stack (Frame)
open StackKind (Wired)

namespace RawPacket

/-- All that was captured. -/
def whole (start : Nat) (memory : Bytes) : RawPacket where
  start := start
  memory := memory
  length := memory.length
  held := Int.le_refl _

theorem advance_whole (start : Nat) (front rest : Bytes) :
    (whole start (front ++ rest)).advance front.length = whole (start + front.length) rest := by
  have memory : (front ++ rest).drop front.length = rest := List.drop_left
  have length : ((front ++ rest).length : Int) - front.length = rest.length := by
    rw [List.length_append]
    omega
  unfold advance whole
  simp only [memory, length]

/-- A word behind what is stepped over. -/
theorem half_memory16 (start : Nat) (front rest : Bytes) (w : BitVec 16) :
    (whole start (front ++ (memory16 w ++ rest))).half front.length = .ok w := by
  have first : (whole start (front ++ (memory16 w ++ rest))).byte front.length = .ok (w.extractLsb' 0 8) := by
    unfold byte whole
    simp [memory16]
  have second : (whole start (front ++ (memory16 w ++ rest))).byte (front.length + 1) =
      .ok (w.extractLsb' 8 8) := by
    unfold byte whole
    simp [memory16]
  unfold half
  rw [first, second]
  exact congrArg Except.ok (joined (m := 8) (n := 8) w)

theorem quad_memory32 (start : Nat) (front rest : Bytes) (w : BitVec 32) :
    (whole start (front ++ (memory32 w ++ rest))).quad front.length = .ok w := by
  have low := half_memory16 start front (memory16 (w.extractLsb' 16 16) ++ rest) (w.extractLsb' 0 16)
  have high := half_memory16 start (front ++ memory16 (w.extractLsb' 0 16)) rest (w.extractLsb' 16 16)
  rw [List.length_append, length_memory16, List.append_assoc] at high
  unfold quad memory32
  rw [List.append_assoc, low, high]
  exact congrArg Except.ok (joined (m := 16) (n := 16) w)

end RawPacket

/-- A datagram of IPv4 without options that is no fragment. The words are those of `struct ip`. -/
structure Datagram where
  tos : BitVec 8 := 0
  identification : BitVec 16 := 0
  dontFragment : Bool := false
  ttl : BitVec 8 := 64
  protocol : BitVec 8
  checksum : BitVec 16 := 0
  source : BitVec 32
  destination : BitVec 32
  segment : Bytes
  short : 20 + segment.length < 2 ^ 16 := by decide

namespace Datagram

def length (d : Datagram) : BitVec 16 := BitVec.ofNat 16 (20 + d.segment.length)

/-- `IP_DF`, as a little-endian host has it -/
def offset (d : Datagram) : BitVec 16 := if d.dontFragment then 0x0040 else 0

def octets (d : Datagram) : Bytes :=
  [0x45, d.tos] ++ memory16 (htons d.length) ++ memory16 d.identification ++ memory16 d.offset ++
    [d.ttl, d.protocol] ++ memory16 d.checksum ++ memory32 d.source ++ memory32 d.destination ++ d.segment

/-- What `readHeader` finds. -/
def header (d : Datagram) : IPHeader where
  version := 4
  headerLength := 5
  length := htons d.length
  offset := d.offset
  protocol := d.protocol
  source := d.source
  destination := d.destination

/-- To the port of the echo service, from the port above it. -/
def echo : Datagram where
  protocol := 17
  source := 0x0100000a
  destination := 0x0200000a
  segment := [0, 8, 0, 7, 0, 20, 0, 0] ++ List.replicate 12 65

variable {d : Datagram} {p : Stack.Packet} {start : Nat} {more : Bytes}

theorem length_octets (d : Datagram) : d.octets.length = 20 + d.segment.length := by
  simp [octets]
  omega

theorem readHeader_octets (here : p.curr = RawPacket.whole start (d.octets ++ more)) :
    IPProtocol.readHeader p = .ok d.header := by
  have first : p.byte 0 = .ok 0x45 := by
    unfold Stack.Packet.byte
    rw [here]
    rfl
  have length : p.curr.half 2 = .ok (htons d.length) := by
    rw [here]
    exact RawPacket.half_memory16 start [0x45, d.tos] (memory16 d.identification ++ memory16 d.offset ++
      [d.ttl, d.protocol] ++ memory16 d.checksum ++ memory32 d.source ++ memory32 d.destination ++
      (d.segment ++ more)) (htons d.length)
  have offset : p.curr.half 6 = .ok d.offset := by
    rw [here]
    exact RawPacket.half_memory16 start ([0x45, d.tos] ++ memory16 (htons d.length) ++
      memory16 d.identification) ([d.ttl, d.protocol] ++ memory16 d.checksum ++ memory32 d.source ++
      memory32 d.destination ++ (d.segment ++ more)) d.offset
  have protocol : p.byte 9 = .ok d.protocol := by
    unfold Stack.Packet.byte
    rw [here]
    rfl
  have source : p.curr.quad 12 = .ok d.source := by
    rw [here]
    exact RawPacket.quad_memory32 start ([0x45, d.tos] ++ memory16 (htons d.length) ++
      memory16 d.identification ++ memory16 d.offset ++ [d.ttl, d.protocol] ++ memory16 d.checksum)
      (memory32 d.destination ++ (d.segment ++ more)) d.source
  have destination : p.curr.quad 16 = .ok d.destination := by
    rw [here]
    exact RawPacket.quad_memory32 start ([0x45, d.tos] ++ memory16 (htons d.length) ++
      memory16 d.identification ++ memory16 d.offset ++ [d.ttl, d.protocol] ++ memory16 d.checksum ++
      memory32 d.source) (d.segment ++ more) d.destination
  unfold IPProtocol.readHeader
  rw [first, length, offset, protocol, source, destination]
  rfl

/-- The layer takes the datagram without what is behind it. -/
theorem bytes_octets (here : p.curr = RawPacket.whole start (d.octets ++ more)) :
    IPProtocol.bytes d.header p = 20 + d.segment.length := by
  have known : (ntohs d.header.length).toNat = 20 + d.segment.length := by
    show (ntohs (htons d.length)).toNat = _
    rw [ntohs_htons, length, BitVec.toNat_ofNat, Nat.mod_eq_of_lt d.short]
  have long : p.length = 20 + d.segment.length + more.length := by
    unfold Stack.Packet.length
    rw [here]
    show (((d.octets ++ more).length : Nat) : Int) = _
    rw [List.length_append, length_octets]
    omega
  unfold IPProtocol.bytes
  rw [known, long]
  split <;> omega

theorem isFragment_header (d : Datagram) : IPProtocol.isFragment d.header = false := by
  show decide (d.offset &&& IPProtocol.moreFragments ≠ 0) = false
  unfold offset
  cases d.dontFragment <;> decide

/-- What the multiplexer of IP is told about the datagram. -/
def registers (d : Datagram) : Multiplexer where
  address := ((({} : IPAddress).setSourceAddress d.source).setDestinationAddress d.destination)
  totalLength := d.length
  headerSize := 20
  nextProtocolId := d.protocol.setWidth 16

theorem told_registers {r : Multiplexer} (here : p.curr = RawPacket.whole start (d.octets ++ more))
    (wiped : StackKind.wipe .lan .ipVir r = StackKind.wipe .lan .ipVir { headerSize := 20 }) :
    IPProtocol.told r d.header p = d.registers := by
  have replaced := congrArg (fun w : Multiplexer => { w with
    address := (w.address.setSourceAddress d.source).setDestinationAddress d.destination
    totalLength := BitVec.ofInt 16 (IPProtocol.bytes d.header p)
    nextProtocolId := d.protocol.setWidth 16 }) wiped
  have total : BitVec.ofInt 16 (IPProtocol.bytes d.header p) = d.length := by
    rw [bytes_octets here]
    exact BitVec.ofInt_natCast 16 (20 + d.segment.length)
  rw [total] at replaced
  unfold IPProtocol.told
  rw [show BitVec.ofInt 16 (IPProtocol.bytes d.header p) = d.length from total]
  exact replaced

/-- The packet that a transport is given of the datagram, which stands at `start`. -/
def given (d : Datagram) (start : Nat) (more : Bytes) (time : Int) : Frame where
  curr := RawPacket.whole (start + 20) (d.segment ++ more)
  net :=
    { start := start
      memory := d.octets ++ more
      length := 20 + d.segment.length
      held := by
        rw [List.length_append, length_octets]
        omega }
  prevHeaderSize := 20
  time := time

/-- What is in front of the segment. -/
theorem octets_split (d : Datagram) : ∃ front, front.length = 20 ∧ d.octets = front ++ d.segment :=
  ⟨_, rfl, rfl⟩

theorem advance_octets (d : Datagram) (start : Nat) (more : Bytes) :
    (RawPacket.whole start (d.octets ++ more)).advance 20 = RawPacket.whole (start + 20) (d.segment ++ more) := by
  obtain ⟨front, twenty, split⟩ := d.octets_split
  rw [split, List.append_assoc, ← twenty]
  exact RawPacket.advance_whole start front (d.segment ++ more)

end Datagram

/-- A label, with its traffic class and its time to live; the lowest label has the mark. -/
structure LabelEntry where
  high : BitVec 8
  middle : BitVec 8
  low : BitVec 7
  ttl : BitVec 8
  deriving DecidableEq, Repr

def LabelEntry.octets (l : LabelEntry) (bottom : Bool) : Bytes :=
  [l.high, l.middle, l.low ++ BitVec.ofBool bottom, l.ttl]

/-- What stands between the addresses of Ethernet and the datagram. -/
inductive LinkHeader where
  | untagged
  | tagged (tci : BitVec 16)
  | labelled (above : List LabelEntry) (bottom : LabelEntry) (few : above.length ≤ 2)

namespace LinkHeader

def octets : LinkHeader → Bytes
  | untagged => memory16 (htons EthernetProtocol.ethertypeIp)
  | tagged tci =>
    memory16 (htons VLanProtocol.ethertypeVlan) ++ (memory16 tci ++ memory16 (htons EthernetProtocol.ethertypeIp))
  | labelled above bottom _ =>
    memory16 (htons StackKind.ethertypeMpls) ++ (above.flatMap (LabelEntry.octets · false) ++ bottom.octets true)

/-- The layer that has to be enabled. -/
def layer : LinkHeader → Option String
  | untagged => none
  | tagged _ => some "vlan"
  | labelled .. => some "mpls"

end LinkHeader

namespace MPLSProtocol

theorem marked_low (low : BitVec 7) (bottom : Bool) :
    (low ++ BitVec.ofBool bottom : BitVec 8).getLsbD 0 = bottom := by
  rw [BitVec.getLsbD_append]
  cases bottom <;> rfl

/-- The loop finds the label at the bottom. -/
theorem loop_labels {p : Stack.Packet} {start : Nat} {above : List LabelEntry} {bottom : LabelEntry} {more : Bytes}
    (few : above.length ≤ 2)
    (here : p.curr =
      RawPacket.whole start (above.flatMap (LabelEntry.octets · false) ++ bottom.octets true ++ more)) :
    ∃ w, loop p {} 3 = .ok w ∧ w.mplsHeaderSize = 4 * (above.length + 1) := by
  have inside : 4 * above.length + 3 ≤ p.curr.memory.length := by
    rw [here]
    show _ ≤ (above.flatMap (LabelEntry.octets · false) ++ bottom.octets true ++ more).length
    simp [LabelEntry.octets, List.length_flatMap]
    omega
  have last : Last p 0 above.length := by
    refine ⟨Nat.zero_le _, few, fun j _ before => ?_, Or.inl ?_⟩
    · unfold Marked
      rw [here]
      rcases above with _ | ⟨a, _ | ⟨b, _ | ⟨c, rest⟩⟩⟩
      · exact absurd before (by simp)
      · obtain rfl : j = 0 := by simpa using before
        exact Bool.eq_false_iff.mp (marked_low a.low false)
      · obtain rfl | rfl : j = 0 ∨ j = 1 := by
          have bound : j < 2 := before
          omega
        · exact Bool.eq_false_iff.mp (marked_low a.low false)
        · exact Bool.eq_false_iff.mp (marked_low b.low false)
      · exact absurd few (by simp)
    · unfold Marked
      rw [here]
      rcases above with _ | ⟨a, _ | ⟨b, _ | ⟨c, rest⟩⟩⟩
      · exact marked_low bottom.low true
      · exact marked_low bottom.low true
      · exact marked_low bottom.low true
      · exact absurd few (by simp)
  obtain ⟨w, looped, -, size, -⟩ := loop_last start_at last inside (n := 3) (by have := last.limit; omega)
  exact ⟨w, looped, size⟩

end MPLSProtocol

namespace NetworkStack

variable {τ : Type} {T : Transports τ} {s t : NetworkStack τ} {m up : Mux} {p q : Frame} {d : Datagram}
  {start : Nat} {more : Bytes} {time : Int}

/-- A frame on its way, of which nothing but its place is known. -/
structure Stands (p : Frame) (curr : RawPacket) (time : Int) : Prop where
  curr : p.curr = curr
  time : p.time = time
  tag : p.tag = none
  anomaly : p.anomaly = .none
  evidence : p.evidence = false

theorem outcome_handBack (evidence : p.evidence = false) (x : Except Fault (NetworkStack τ × Frame)) :
    (x.map (handBack p)).map outcome = x.map outcome := by
  cases x with
  | error e => rfl
  | ok r =>
    refine congrArg Except.ok (Prod.ext rfl ?_)
    show (if r.2.evidence then { p with evidence := true } else p).evidence = r.2.evidence
    cases marked : r.2.evidence with
    | true => rfl
    | false => exact evidence

/-- The datagram as IP leaves it. -/
theorem ahead_delivered {a : Frame} (stands : Stands a (RawPacket.whole start (d.octets ++ more)) time)
    (size : (t.relay m).registers.headerSize = 20) :
    t.ahead m { a with toPacket := IPProtocol.delivered d.header a.toPacket } = d.given start more time := by
  have bytes := Datagram.bytes_octets (p := a.toPacket) stands.curr
  obtain ⟨⟨curr, net, prev, anomaly⟩, time', tag, evidence⟩ := a
  obtain ⟨here, rfl, rfl, rfl, rfl⟩ := stands
  obtain rfl : curr = _ := here
  unfold ahead IPProtocol.delivered Datagram.given
  simp only [size, bytes, Datagram.advance_octets]
  rfl

/-- A datagram stands in front of the multiplexer `m` of a layer of IP. -/
structure DatagramAt (s t : NetworkStack τ) (m : Mux) (q : Frame) (d : Datagram) (start : Nat) (more : Bytes)
    (time : Int) : Prop where
  same : Same s t
  upper : t.upper = s.upper
  prepared : t.Prepared
  registers : (t.relay m).registers = d.registers
  ahead : t.ahead m q = d.given start more time
  silent : q.evidence = false

/-- A datagram that a multiplexer hands to IP is taken apart there. -/
theorem ip_leads (prepared : s.Prepared) (four : s.kind ≠ .lanIPv6)
    (found : s.getUpMultiplexer m (s.relay m).registers.nextProtocolId = some .ip)
    (stands : Stands (s.ahead m p) (RawPacket.whole start (d.octets ++ more)) time) :
    ∃ t q, DatagramAt s t .ip q d start more time ∧
      ∀ n, (forwardPacket T (n + 1) s m p).map outcome = (forwardPacket T n t .ip q).map outcome := by
  have long : 20 ≤ (s.ahead m p).length := by
    unfold Stack.Packet.length
    rw [stands.curr]
    show (20 : Int) ≤ ((d.octets ++ more).length : Nat)
    rw [List.length_append, Datagram.length_octets]
    omega
  obtain ⟨t, leads⟩ := leads_ip (T := T) four found long (Datagram.readHeader_octets stands.curr) rfl
    (Datagram.isFragment_header d)
  have wiped : StackKind.wipe .lan .ipVir (s.relay .ip).registers =
      StackKind.wipe .lan .ipVir { headerSize := 20 } := by
    have reset := prepared .ip
    simp only [StackKind.wipe, StackKind.headerSize, if_neg four] at reset
    exact reset
  have told : (t.relay .ip).registers = d.registers :=
    leads.registers.trans (Datagram.told_registers stands.curr wiped)
  refine ⟨t, _, ⟨⟨leads.kind, leads.links⟩, leads.upper, leads.prepared prepared, told,
    ahead_delivered stands (congrArg Multiplexer.headerSize told), stands.evidence⟩, fun n => ?_⟩
  have silent : p.evidence = false := stands.evidence
  rw [leads.forwards, outcome_handBack silent]

/-- The same behind a tunnel. -/
theorem ipVir_leads (prepared : s.Prepared)
    (found : s.getUpMultiplexer m (s.relay m).registers.nextProtocolId = some .ipVir)
    (stands : Stands (s.ahead m p) (RawPacket.whole start (d.octets ++ more)) time) :
    ∃ t q, DatagramAt s t .ipVir q d start more time ∧
      ∀ n, (forwardPacket T (n + 1) s m p).map outcome = (forwardPacket T n t .ipVir q).map outcome := by
  have long : 20 ≤ (s.ahead m p).length := by
    unfold Stack.Packet.length
    rw [stands.curr]
    show (20 : Int) ≤ ((d.octets ++ more).length : Nat)
    rw [List.length_append, Datagram.length_octets]
    omega
  obtain ⟨t, leads⟩ := leads_ipVir (T := T) found long (Datagram.readHeader_octets stands.curr) rfl
    (Datagram.isFragment_header d)
  have told : (t.relay .ipVir).registers = d.registers :=
    leads.registers.trans (Datagram.told_registers stands.curr (prepared .ipVir))
  refine ⟨t, _, ⟨⟨leads.kind, leads.links⟩, leads.upper, leads.prepared prepared, told,
    ahead_delivered stands (congrArg Multiplexer.headerSize told), stands.evidence⟩, fun n => ?_⟩
  have silent : p.evidence = false := stands.evidence
  rw [leads.forwards, outcome_handBack silent]

/-- The transport of a datagram is given its segment. -/
theorem DatagramAt.delivers {u : NetworkStack τ} (at' : DatagramAt s u m q d start more time)
    (wired : Wired s.kind s.links) (top : up.down = some m) (plain : s.kind.carrier ≠ some up)
    (linked : s.getUpMultiplexer m (d.protocol.setWidth 16) = some up) (n : Nat) :
    (forwardPacket T (n + 1) u m q).map outcome =
      deliver T up s.upper d.registers (d.given start more time) := by
  have delivers := forwardPacket_deliver (T := T) (s := u) (m := m) (p := q)
    (by rw [at'.same.kind, at'.same.links]; exact wired) top (by rw [at'.same.kind]; exact plain)
    (by rw [at'.registers, getUpMultiplexer_links at'.same.links]; exact linked) n
  rw [delivers, at'.upper, at'.registers, at'.ahead, at'.silent]
  simp only [Bool.false_or]
  cases deliver T up s.upper d.registers (d.given start more time) <;> rfl

/-! ### The links of a stack -/

/-- A key of a multiplexer has one link. -/
theorem links_apart (kind : StackKind) : ∀ l ∈ kind.links ++ StackKind.taggingLinks,
    ∀ k ∈ kind.links ++ StackKind.taggingLinks, k.source = l.source → k.key = l.key → k.target = l.target := by
  cases kind <;> decide

theorem getUpMultiplexer_of_mem {l : Link} (wired : Wired s.kind s.links) (linked : l ∈ s.links) :
    s.getUpMultiplexer l.source l.key = some l.target := by
  unfold getUpMultiplexer
  cases found : s.links.find? fun k => decide (k.source = l.source ∧ k.key = l.key) with
  | none =>
    have refused := List.find?_eq_none.mp found l linked
    exact absurd refused (by simp)
  | some k =>
    have matching := List.find?_some found
    obtain ⟨source, key⟩ := of_decide_eq_true matching
    have same := links_apart s.kind l (wired l linked) k (wired k (List.mem_of_find?_eq_some found)) source key
    exact congrArg some same

/-- The links that enabling a layer makes. -/
def layerLinks (type : String) : List Link :=
  if type = "vlan" then StackKind.taggingLinks.take 2
  else if type = "mpls" then StackKind.taggingLinks.drop 2
  else []

theorem links_step {c : Call} (wired : Wired s.kind s.links) (stepped : step T s c = some t) :
    s.links ⊆ t.links ∧ ∀ type, c = .enableLinkLayerTagging type → layerLinks type ⊆ t.links := by
  rcases step_cases stepped with ⟨raw, time, q, rfl, forwarded⟩ | ⟨type, rfl, rfl⟩
  · obtain ⟨-, same⟩ := forwardRawPacket_accounts wired forwarded
    rw [same.links]
    exact ⟨List.Subset.refl _, fun type other => absurd other (by simp)⟩
  · refine ⟨?_, fun type' same => ?_⟩
    · unfold enableLinkLayerTagging addUpMultiplexer
      split
      · exact fun l linked => List.mem_cons_of_mem _ (List.mem_cons_of_mem _ linked)
      · split
        · exact fun l linked => List.mem_cons_of_mem _ (List.mem_cons_of_mem _ linked)
        · exact List.Subset.refl _
    · obtain rfl : type = type' := by simpa using same
      unfold layerLinks enableLinkLayerTagging addUpMultiplexer
      split
      · simp [StackKind.taggingLinks]
      · split
        · simp [StackKind.taggingLinks]
        · exact List.nil_subset _

/-- The links of a layer that was enabled some time ago. -/
theorem links_run {past : List Call} (wired : Wired s.kind s.links)
    (reached : Transition.run (step T) s past = some t) :
    s.links ⊆ t.links ∧ ∀ type, .enableLinkLayerTagging type ∈ past → layerLinks type ⊆ t.links := by
  induction past generalizing s with
  | nil =>
    obtain rfl := Option.some.inj reached
    exact ⟨List.Subset.refl _, fun type member => absurd member (by simp)⟩
  | cons c rest ih =>
    obtain ⟨u, stepped, reached⟩ := Option.bind_eq_some_iff.mp reached
    obtain ⟨grown, made⟩ := links_step wired stepped
    obtain ⟨later, since⟩ := ih (wired_step wired stepped) reached
    refine ⟨fun l linked => later (grown linked), fun type member => ?_⟩
    rcases List.mem_cons.mp member with now | before
    · exact fun l linked => later (made type now.symm linked)
    · exact since type before

/-! ### Frames -/

/-- Ethernet lets a frame of the right size in, and reads its type. -/
theorem ethernet_opens {raw : RawPacket} {type : BitVec 16} (prepared : s.Prepared) (long : 40 ≤ raw.length)
    (short : raw.length ≤ 1518) (read : raw.half 12 = .ok type) (time : Int) :
    ∃ t p, s.forwardRawPacket T raw time = forwardPacket T depth t .eth p ∧ Same s t ∧ t.upper = s.upper ∧
      t.Prepared ∧ (t.relay .eth).registers.nextProtocolId = ntohs type ∧
        (t.relay .eth).registers.headerSize = 14 ∧ Stands p raw time := by
  have size : (s.relay .eth).registers.headerSize = 14 := congrArg Multiplexer.headerSize (prepared .eth)
  let packet : Stack.Packet :=
    { curr := raw, net := { memory := [], length := 0, held := Int.le_refl 0 } }
  have checked : EthernetProtocol.check s.ethernet packet =
      (true, { s.ethernet.check true with bytes := (s.ethernet.check true).bytes + raw.length }, packet) := by
    unfold EthernetProtocol.check EthernetProtocol.ethernetChecker
    rw [if_pos ⟨long, short⟩]
    rfl
  have typed : EthernetProtocol.getEthernetType packet = .ok (ntohs type) := by
    unfold EthernetProtocol.getEthernetType
    rw [show packet.curr = raw from rfl, read]
    rfl
  let entered : NetworkStack τ := { s with
    ethernet := { s.ethernet.check true with bytes := (s.ethernet.check true).bytes + raw.length } }
  let told : Multiplexer := { (s.relay .eth).registers with nextProtocolId := ntohs type }
  refine ⟨entered.setRegisters .eth told, { packet with time := time }, ?_, ⟨rfl, rfl⟩, rfl, ?_, ?_, ?_,
    rfl, rfl, rfl, rfl, rfl⟩
  · have accepts : s.acceptPacket T .eth { packet with time := time } =
        .ok (true, entered, { packet with time := time }) := by
      unfold acceptPacket
      simp only [checked]
      rfl
    show (s.acceptPacket T .eth { packet with time := time } >>= _) = _
    rw [accepts]
    simp only [bind, Except.bind, if_true, typed]
    rfl
  · exact prepared_setRegisters (show entered.Prepared from prepared) rfl
  · rw [setRegisters_registers]
  · rw [setRegisters_registers]
    exact size

/-- What is at the next multiplexer, when the header in front of it has the size that is stepped over. -/
theorem ahead_stands {front rest : Bytes} (stands : Stands p (RawPacket.whole start (front ++ rest)) time)
    (size : (s.relay m).registers.headerSize = front.length) :
    Stands (s.ahead m p) (RawPacket.whole (start + front.length) rest) time where
  curr := by
    show p.curr.advance (s.relay m).registers.headerSize = _
    rw [stands.curr, size, RawPacket.advance_whole]
  time := stands.time
  tag := stands.tag
  anomaly := stands.anomaly
  evidence := stands.evidence

/-- A frame is stepped over up to its type. -/
theorem frame_opens {macs rest : Bytes} {type : BitVec 16} (prepared : s.Prepared) (twelve : macs.length = 12)
    (long : 40 ≤ (macs ++ (memory16 (htons type) ++ rest)).length)
    (short : (macs ++ (memory16 (htons type) ++ rest)).length ≤ 1518) (time : Int) :
    ∃ t p, s.forwardRawPacket T (RawPacket.whole 0 (macs ++ (memory16 (htons type) ++ rest))) time =
        forwardPacket T depth t .eth p ∧ Same s t ∧ t.upper = s.upper ∧ t.Prepared ∧
      (t.relay .eth).registers.nextProtocolId = type ∧ Stands p p.curr time ∧
        Stands (t.ahead .eth p) (RawPacket.whole 14 rest) time := by
  have read : (RawPacket.whole 0 (macs ++ (memory16 (htons type) ++ rest))).half 12 = .ok (htons type) := by
    rw [← twelve]
    exact RawPacket.half_memory16 0 macs rest _
  obtain ⟨t, p, opens, same, upper, told, next, size, stands⟩ := ethernet_opens (T := T) prepared
    (Int.ofNat_le.mpr long) (Int.ofNat_le.mpr short) read time
  rw [ntohs_htons] at next
  have whole := stands
  rw [← List.append_assoc] at stands
  have fourteen : (macs ++ memory16 (htons type)).length = 14 := by
    rw [List.length_append, twelve, length_memory16]
  have ahead := ahead_stands (s := t) (m := .eth) stands (by rw [size, fourteen])
  rw [fourteen] at ahead
  exact ⟨t, p, opens, same, upper, told, next, ⟨rfl, whole.time, whole.tag, whole.anomaly, whole.evidence⟩,
    ahead⟩

/-- Behind the tag. -/
theorem tag_leads {tci type : BitVec 16} {rest : Bytes}
    (found : s.getUpMultiplexer .eth (s.relay .eth).registers.nextProtocolId = some .vlan)
    (stands : Stands (s.ahead .eth p)
      (RawPacket.whole 14 (memory16 tci ++ (memory16 (htons type) ++ rest))) time) :
    ∃ t, Leads T s .eth p t .vlan
        { (s.relay .vlan).registers with nextProtocolId := type, headerSize := 4 }
        { s.ahead .eth p with prevHeaderSize := 4 } ∧
      Stands (t.ahead .vlan { s.ahead .eth p with prevHeaderSize := 4 }) (RawPacket.whole 18 rest) time := by
  have read : (s.ahead .eth p).curr.half 2 = .ok (htons type) := by
    rw [stands.curr]
    exact RawPacket.half_memory16 14 (memory16 tci) rest _
  have room : 4 ≤ (s.ahead .eth p).length := by
    unfold Stack.Packet.length
    rw [stands.curr]
    show (4 : Int) ≤ ((memory16 tci ++ (memory16 _ ++ rest)).length : Nat)
    simp only [List.length_append, length_memory16]
    omega
  obtain ⟨t, leads⟩ := leads_vlan (T := T) found room read
  rw [ntohs_htons] at leads
  have within : Stands { s.ahead .eth p with prevHeaderSize := 4 } (RawPacket.whole 14
      ((memory16 tci ++ memory16 (htons type)) ++ rest)) time :=
    ⟨by rw [List.append_assoc]; exact stands.curr, stands.time, stands.tag, stands.anomaly, stands.evidence⟩
  exact ⟨t, leads, ahead_stands (s := t) (m := .vlan) within (by rw [leads.registers]; rfl)⟩

/-- A frame as it was sent. -/
def sent (macs : Bytes) (e : LinkHeader) (d : Datagram) (more : Bytes) : Bytes :=
  macs ++ (e.octets ++ (d.octets ++ more))

theorem ip_transports : ∀ l ∈ StackKind.lan.links, l.source = .ip → l.target.down = some .ip := by
  decide

/-- The datagram in a frame comes to IP, behind a tag or labels or without them. -/
theorem frame_leads {kind : StackKind} {past : List Call} {upper : τ}
    (reached : Transition.run (step T) (new kind upper) past = some s) (four : kind ≠ .lanIPv6)
    (macs : Bytes) (twelve : macs.length = 12) (e : LinkHeader)
    (enabled : ∀ type ∈ e.layer, Call.enableLinkLayerTagging type ∈ past)
    (long : 40 ≤ (sent macs e d more).length) (short : (sent macs e d more).length ≤ 1518) (time : Int) :
    ∃ t q n, DatagramAt s t .ip q d (12 + e.octets.length) more time ∧ 6 ≤ n ∧
      (s.forwardRawPacket T (RawPacket.whole 0 (sent macs e d more)) time).map outcome =
        (forwardPacket T n t .ip q).map outcome := by
  obtain ⟨kind', wired, prepared⟩ := reached_prepared reached
  obtain ⟨grown, made⟩ := links_run (wired_new kind upper) reached
  have six : s.kind ≠ .lanIPv6 := kind'.symm ▸ four
  -- every layer below IP hands over what is at `start`
  have reaches {t : NetworkStack τ} {m : Mux} {p : Frame} {start : Nat} (same : Same s t)
      (upper' : t.upper = s.upper) (prepared' : t.Prepared)
      (found : s.getUpMultiplexer m (t.relay m).registers.nextProtocolId = some .ip)
      (stands : Stands (t.ahead m p) (RawPacket.whole start (d.octets ++ more)) time) :
      ∃ u q, DatagramAt s u .ip q d start more time ∧
        ∀ n, (forwardPacket T (n + 1) t m p).map outcome = (forwardPacket T n u .ip q).map outcome := by
    obtain ⟨u, q, at', goes⟩ := ip_leads (T := T) prepared' (by rw [same.kind]; exact six)
      (by rw [getUpMultiplexer_links same.links]; exact found) stands
    exact ⟨u, q, ⟨same.trans at'.same, at'.upper.trans upper', at'.prepared, at'.registers, at'.ahead,
      at'.silent⟩, goes⟩
  cases e with
  | untagged =>
    obtain ⟨t, p, opens, same, upper', prepared', next, -, stands⟩ :=
      frame_opens (T := T) prepared twelve long short time
    have linked : ({ source := .eth, target := .ip, key := 0x0800 } : Link) ∈ s.links := by
      refine grown (List.mem_reverse.mpr ?_)
      cases kind with
      | lanIPv6 => exact absurd rfl four
      | lan | mobile | virtual | openFlow => exact List.mem_cons_self
    have found : s.getUpMultiplexer .eth EthernetProtocol.ethertypeIp = some .ip :=
      getUpMultiplexer_of_mem wired linked
    obtain ⟨u, q, at', goes⟩ := reaches same upper' prepared' (by rw [next]; exact found) stands
    exact ⟨u, q, 7, at', by omega, (congrArg (Except.map outcome) opens).trans (goes 7)⟩
  | tagged tci =>
    have frame : sent macs (.tagged tci) d more =
        macs ++ (memory16 (htons VLanProtocol.ethertypeVlan) ++
          (memory16 tci ++ (memory16 (htons EthernetProtocol.ethertypeIp) ++ (d.octets ++ more)))) := by
      simp only [sent, LinkHeader.octets, List.append_assoc]
    have vlan := made "vlan" (enabled "vlan" rfl)
    rw [frame] at long short ⊢
    obtain ⟨t, p, opens, same, upper', prepared', next, first, stands⟩ :=
      frame_opens (T := T) prepared twelve long short time
    have found : t.getUpMultiplexer .eth (t.relay .eth).registers.nextProtocolId = some .vlan := by
      rw [next, getUpMultiplexer_links same.links]
      exact getUpMultiplexer_of_mem (l := { source := .eth, target := .vlan, key := VLanProtocol.ethertypeVlan })
        wired (vlan (by decide))
    obtain ⟨u, leads, onward⟩ := tag_leads (T := T) found stands
    have toIp : s.getUpMultiplexer .vlan (u.relay .vlan).registers.nextProtocolId = some .ip := by
      rw [leads.registers]
      exact getUpMultiplexer_of_mem (l := { source := .vlan, target := .ip, key := 0x0800 }) wired
        (vlan (by decide))
    obtain ⟨v, q, at', goes⟩ := reaches (same.trans ⟨leads.kind, leads.links⟩) (leads.upper.trans upper')
      (leads.prepared prepared') toIp onward
    refine ⟨v, q, 6, at', by omega, ?_⟩
    rw [opens, show depth = 7 + 1 from rfl, leads.forwards, outcome_handBack first.evidence]
    exact goes 6
  | labelled above bottom few =>
    have frame : sent macs (.labelled above bottom few) d more =
        macs ++ (memory16 (htons StackKind.ethertypeMpls) ++
          ((above.flatMap (LabelEntry.octets · false) ++ bottom.octets true) ++ (d.octets ++ more))) := by
      simp only [sent, LinkHeader.octets, List.append_assoc]
    have mpls := made "mpls" (enabled "mpls" rfl)
    have size : (above.flatMap (LabelEntry.octets · false) ++ bottom.octets true).length =
        4 * (above.length + 1) := by
      simp [LabelEntry.octets, List.length_flatMap]
      omega
    rw [frame] at long short ⊢
    obtain ⟨t, p, opens, same, upper', prepared', next, first, stands⟩ :=
      frame_opens (T := T) prepared twelve long short time
    have found : t.getUpMultiplexer .eth (t.relay .eth).registers.nextProtocolId = some .mpls := by
      rw [next, getUpMultiplexer_links same.links]
      exact getUpMultiplexer_of_mem (l := { source := .eth, target := .mpls, key := StackKind.ethertypeMpls })
        wired (mpls (by decide))
    have room : 4 ≤ (t.ahead .eth p).length := by
      unfold Stack.Packet.length
      rw [stands.curr]
      show (4 : Int) ≤ ((_ ++ (d.octets ++ more) : Bytes).length : Nat)
      rw [List.length_append, size]
      omega
    obtain ⟨w, scanned, stepped⟩ := MPLSProtocol.loop_labels few stands.curr
    obtain ⟨u, leads⟩ := leads_mpls (T := T) found room scanned
    have within : Stands { t.ahead .eth p with prevHeaderSize := (w.mplsHeaderSize : Int) } (RawPacket.whole 14
        ((above.flatMap (LabelEntry.octets · false) ++ bottom.octets true) ++ (d.octets ++ more))) time :=
      ⟨stands.curr, stands.time, stands.tag, stands.anomaly, stands.evidence⟩
    have onward := ahead_stands (s := u) (m := .mpls) within (by rw [leads.registers, size]; exact stepped)
    have toIp : s.getUpMultiplexer .mpls (u.relay .mpls).registers.nextProtocolId = some .ip := by
      rw [leads.registers]
      exact getUpMultiplexer_of_mem (l := { source := .mpls, target := .ip, key := 0x0800 }) wired
        (mpls (by decide))
    obtain ⟨v, q, at', goes⟩ := reaches (same.trans ⟨leads.kind, leads.links⟩) (leads.upper.trans upper')
      (leads.prepared prepared') toIp onward
    have place : 14 + (above.flatMap (LabelEntry.octets · false) ++ bottom.octets true).length =
        12 + (LinkHeader.labelled above bottom few).octets.length := by
      simp only [LinkHeader.octets, List.length_append, length_memory16]
      omega
    rw [place] at at'
    refine ⟨v, q, 6, at', by omega, ?_⟩
    rw [opens, show depth = 7 + 1 from rfl, leads.forwards, outcome_handBack first.evidence]
    exact goes 6

/-- A transport is given the segment that was sent, behind a tag or labels or without them. -/
theorem frame_delivers {past : List Call} {upper : τ} {l : Link}
    (reached : Transition.run (step T) (new .lan upper) past = some s)
    (carried : l ∈ StackKind.lan.links) (source : l.source = .ip) (key : l.key = d.protocol.setWidth 16)
    (macs : Bytes) (twelve : macs.length = 12) (e : LinkHeader)
    (enabled : ∀ type ∈ e.layer, Call.enableLinkLayerTagging type ∈ past)
    (long : 40 ≤ (sent macs e d more).length) (short : (sent macs e d more).length ≤ 1518) (time : Int) :
    (s.forwardRawPacket T (RawPacket.whole 0 (sent macs e d more)) time).map outcome =
      deliver T l.target s.upper d.registers (d.given (12 + e.octets.length) more time) := by
  obtain ⟨kind, wired, -⟩ := reached_prepared reached
  obtain ⟨t, q, n, at', enough, leads⟩ :=
    frame_leads reached (by decide) macs twelve e enabled long short time
  have linked := getUpMultiplexer_of_mem wired
    ((links_run (wired_new .lan upper) reached).1 (List.mem_reverse.mpr carried))
  rw [source, key] at linked
  obtain ⟨n, rfl⟩ : ∃ k, n = k + 1 := ⟨n - 1, by omega⟩
  rw [leads]
  exact at'.delivers wired (ip_transports l carried source) (by rw [kind]; exact nofun) linked n

/-- A segment of UDP of twenty octets, and two octets behind it. -/
theorem frame_delivers_tagged :
    ((((quietStack .lan).enableLinkLayerTagging "vlan").forwardRawPacket quiet
        (RawPacket.whole 0 (sent (List.replicate 12 1) (.tagged 7) Datagram.echo [0, 0])) 5).map outcome) =
      deliver quiet .udp (quietStack .lan).upper Datagram.echo.registers (Datagram.echo.given 18 [0, 0] 5) := by
  have reached : Transition.run (step quiet) (quietStack .lan) [.enableLinkLayerTagging "vlan"] =
      some ((quietStack .lan).enableLinkLayerTagging "vlan") := rfl
  exact frame_delivers (l := { source := .ip, target := .udp, key := 17 }) reached (by decide) rfl (by decide)
    _ rfl _ (by simp [LinkHeader.layer]) (by decide) (by decide) 5

end NetworkStack

end AIEngine
