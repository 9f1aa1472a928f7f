import AIEngine.Stack.TransportLayers

/-!
# The byte counters

The layer of IP counts the length of the datagram, TCP what it has of a packet, and UDP and the flows
what they take for the length of the payload. The last comes from the length fields of the headers, which
nothing compares with each other.
-/

namespace AIEngine

namespace Lan

/-- A datagram, or anything that happens elsewhere. -/
inductive Event where
  | datagram (p : Stack.Packet) (time : Int) (tag : Option (BitVec 32)) (o : Outside)
  | elsewhere (w : World)

def elsewhere (s : Lan) (w : World) : Lan :=
  { s with layer := { s.layer with transport := s.layer.transport.elsewhere w } }

def step (kind : Kind) (s : Lan) : Event → Option Lan
  | .datagram p time tag o => (s.receive kind p time tag o).toOption.map Prod.fst
  | .elsewhere w => some (s.elsewhere w)

/-- Before the first datagram, with or without a forwarder at the transport. -/
def start (layer : Nat) (objects : CacheId → Nat) (registered : Option Nat) (timeout : Int)
    (forwards : Bool) : Lan where
  layer :=
    { transport := { Transport.start layer objects registered timeout with forwards := forwards } }

/-- The octets of the header of a transport: TCP has twenty, whatever its data offset says. -/
def headerLength (kind : Kind) (p : RawPacket) : Nat :=
  match kind with
  | .tcp => max kind.headerSize (TCPProtocol.offsetAt p 20)
  | .udp => kind.headerSize

/-- No counter goes down with a datagram, and a payload has an octet and lies behind the headers. -/
structure Forward (kind : Kind) (s t : Lan) (p : Stack.Packet) (time : Int) (tag : Option (BitVec 32))
    (payload : Option RawPacket) : Prop where
  ip : s.ipBytes ≤ t.ipBytes
  protocol : s.layer.totalBytes ≤ t.layer.totalBytes
  flows : (s.reads kind p time tag).isSome →
    Transport.GoesForward s.layer.transport t.layer.transport
  payload : ∀ r, payload = some r →
    1 ≤ r.length ∧ r.length ≤ p.length - 20 - headerLength kind p.curr

/-- The length fields leave room for the headers. -/
def Fits : Kind → Packet → Prop
  | .tcp, x => 20 + x.tcpHdrLength ≤ x.totalLength
  | .udp, x => 8 ≤ x.udpLength.toNat

/-- TCP does not step into its own header, and UDP not over the end of the packet. -/
def Wide : Kind → Packet → Prop
  | .tcp, x => 20 ≤ x.tcpHdrLength
  | .udp, x => 8 < x.length

/-- The lengths of a datagram agree as far as the transport relies on it: those of a packet that a flow
hears, and of one whose payload is handed over. -/
def Consistent (kind : Kind) (s : Lan) (p : Stack.Packet) (time : Int) (tag : Option (BitVec 32)) :
    Prop :=
  ∀ q x, s.reads kind p time tag = some (q, x) →
    (s.layer.transport.Hears kind x → Fits kind x) ∧ (s.layer.transport.Calls kind x → Wide kind x)

structure Good (s : Lan) : Prop where
  setUp : s.ip.SetUp
  sound : Transport.Sound s.layer.transport

theorem good_start (layer : Nat) (objects : CacheId → Nat) (registered : Option Nat) (timeout : Int)
    (forwards : Bool) : Good (start layer objects registered timeout forwards) :=
  ⟨IPLayer.setUp_new, (Transport.sound_start layer objects registered timeout).congr rfl
    (fun _ _ => rfl) (.of_eq rfl)⟩

section Receive

variable {s t : Lan} {kind : Kind} {p q : Stack.Packet} {h : IPHeader} {x : Packet} {time : Int}
  {tag : Option (BitVec 32)} {o : Outside}

theorem good_received (good : Good s) (received : Received s t kind p time tag o) : Good t := by
  obtain ⟨out, ip⟩ := received.ip
  refine ⟨IPLayer.receive_setUp good.setUp ip, ?_⟩
  cases reads : s.reads kind p time tag with
  | none =>
    rw [(received.silent reads).1]
    exact good.sound
  | some r =>
    obtain ⟨q, x⟩ := r
    obtain ⟨_, _, processed⟩ :=
      Transport.processPacket_spec good.sound (received.processed q x reads).1
    exact processed.after

theorem receive_of_step (stepped : step kind s (.datagram p time tag o) = some t) :
    ∃ r, s.receive kind p time tag o = .ok (t, r) := by
  unfold step at stepped
  obtain ⟨⟨t', r⟩, received, rfl⟩ := Option.map_eq_some_iff.mp stepped
  exact ⟨r, toOption_some received⟩

theorem good_step {e : Event} (good : Good s) (stepped : step kind s e = some t) : Good t := by
  cases e with
  | datagram p time tag o =>
    obtain ⟨r, received⟩ := receive_of_step stepped
    exact good_received good (receive_spec received).2
  | elsewhere w =>
    obtain rfl := Option.some.inj stepped
    exact ⟨good.setUp, Transport.sound_elsewhere good.sound w⟩

/-! ### The lengths -/

theorem bytes_bounds {p : Stack.Packet} (held : 0 ≤ p.length) :
    0 ≤ IPProtocol.bytes h p ∧ IPProtocol.bytes h p ≤ p.length := by
  unfold IPProtocol.bytes
  split <;> omega

theorem fits_iff (lengths : Lengths kind p q h x) : Fits kind x ↔ 0 ≤ x.bytes kind := by
  have length := lengths.length
  cases kind with
  | tcp =>
    have size := lengths.headerSize
    show _ ↔ 0 ≤ x.tcpBytes
    unfold Fits Packet.tcpBytes
    omega
  | udp =>
    have long : (8 : Int) ≤ q.length := lengths.accepted
    show _ ↔ 0 ≤ x.udpBytes
    unfold Fits Packet.udpBytes
    have header : UDPProtocol.headerLength = 8 := rfl
    rw [header]
    constructor
    · intro fits
      split <;> omega
    · intro positive
      split at positive <;> omega

/-- What TCP hands over has an octet, as the datagram is no longer than what was captured. -/
theorem tcp_given_pos (lengths : Lengths .tcp p q h x) (more : 0 < x.tcpBytes) :
    1 ≤ (q.curr.advance (TransportLayer.stepped .tcp x)).length := by
  have rest : q.length = p.length - 20 := lengths.rest
  have offset := lengths.tcp rfl
  have total := lengths.totalLength
  have size := lengths.headerSize
  have bounds := bytes_bounds (h := h) (p := p) (by have := lengths.datagram; omega)
  have behind : (q.curr.advance (TransportLayer.stepped .tcp x)).length =
      q.length - x.tcpHdrLength.toNat := rfl
  unfold Packet.tcpBytes at more
  rw [behind, offset, Int.toNat_natCast]
  rw [offset, total, size] at more
  omega

theorem wide_iff (lengths : Lengths kind p q h x) (more : 0 < x.bytes kind) :
    Wide kind x ↔ 1 ≤ (q.curr.advance (TransportLayer.stepped kind x)).length ∧
      (q.curr.advance (TransportLayer.stepped kind x)).length ≤
        p.length - 20 - headerLength kind p.curr := by
  have rest : q.length = p.length - 20 := lengths.rest
  have length := lengths.length
  have behind : (q.curr.advance (TransportLayer.stepped kind x)).length =
      q.length - TransportLayer.stepped kind x := rfl
  cases kind with
  | tcp =>
    have positive := tcp_given_pos lengths more
    have offset := lengths.tcp rfl
    have least : Kind.tcp.headerSize = 20 := rfl
    rw [behind] at positive ⊢
    unfold Wide TransportLayer.stepped headerLength at *
    simp only [offset, Int.toNat_natCast] at positive ⊢
    omega
  | udp =>
    have accepted : (8 : Int) ≤ q.length := lengths.accepted
    have least : Kind.udp.headerSize = 8 := rfl
    rw [behind]
    unfold Wide TransportLayer.stepped headerLength
    simp only [least]
    omega

/-! ### The datagrams -/

theorem gives_iff {hint : Nat} {r : RawPacket} (reads : s.reads kind p time tag = some (q, x)) :
    s.gives kind p time tag hint = some r ↔
      s.layer.transport.Calls kind x ∧ q.curr.advance (TransportLayer.stepped kind x) = r := by
  unfold gives TransportLayer.given
  rw [reads, ← Transport.handsTo_isSome_iff hint, Option.isSome_iff_exists]
  simp only [Option.bind_some, Option.map_eq_some_iff, exists_and_right]

theorem countBytes_le {ip : IPProtocol} {total total' : Int}
    (counted : ip.countBytes total p = .ok total') : total ≤ total' := by
  unfold IPProtocol.countBytes at counted
  obtain ⟨⟨accepted, ip'⟩, checked, counted⟩ := Ending.bind_ok counted
  cases accepted with
  | false => exact (Except.ok.inj counted).le
  | true =>
    have long := IPProtocol.ipChecker_accepts checked
    simp only [if_true] at counted
    obtain ⟨h, -, counted⟩ := Ending.bind_ok counted
    have positive := (bytes_bounds (h := h) (p := p) (by omega)).1
    have sum : total + IPProtocol.bytes h p = total' := Except.ok.inj counted
    omega

/-- The counter of a transport goes down with no packet whose flow does not. -/
theorem counted_le {u : Transport} (sound : Transport.Sound s.layer.transport)
    (accepted : kind.headerSize ≤ q.length)
    (processed : s.layer.transport.processPacket kind x o = .ok u)
    (positive : s.layer.transport.Hears kind x → 0 ≤ x.bytes kind) :
    s.layer.totalBytes ≤ s.layer.counted kind q x u := by
  cases kind with
  | tcp =>
    have long : (20 : Int) ≤ q.length := accepted
    show _ ≤ s.layer.totalBytes + q.length
    omega
  | udp =>
    show _ ≤ if u.currentFlow.isSome then s.layer.totalBytes + x.udpBytes else s.layer.totalBytes
    split
    · rename_i found
      obtain ⟨a, current⟩ := Option.isSome_iff_exists.mp found
      have more : 0 ≤ x.udpBytes := positive (Transport.hears_of_current sound processed current)
      omega
    · exact le_refl _

theorem forward_iff {r : Option RawPacket} (good : Good s)
    (received : s.receive kind p time tag o = .ok (t, r)) :
    Forward kind s t p time tag r ↔ Consistent kind s p time tag := by
  obtain ⟨rfl, spec⟩ := receive_spec received
  cases reads : s.reads kind p time tag with
  | none =>
    refine iff_of_true ⟨countBytes_le spec.counted, (spec.silent reads).2.ge, fun read => ?_,
      fun r given => ?_⟩ fun q x again => absurd (reads.symm.trans again) (by simp)
    · rw [reads] at read
      exact absurd read (by simp)
    · exact absurd ((gives_silent reads).symm.trans given) (by simp)
  | some found =>
    obtain ⟨q, x⟩ := found
    obtain ⟨h, -, lengths⟩ := reads_lengths good.setUp reads
    obtain ⟨processed, total⟩ := spec.processed q x reads
    have flows := Transport.goesForward_iff good.sound processed
    constructor
    · intro forward q' x' again
      obtain ⟨rfl, rfl⟩ := Prod.mk.inj (Option.some.inj (reads.symm.trans again))
      refine ⟨fun heard => (fits_iff lengths).mpr ?_, fun calls => (wide_iff lengths calls.2.2).mpr ?_⟩
      · exact flows.mp (forward.flows (by rw [reads]; rfl)) heard
      · exact forward.payload _ ((gives_iff reads).mpr ⟨calls, rfl⟩)
    · intro consistent
      obtain ⟨fits, wide⟩ := consistent q x reads
      have positive := fun heard => (fits_iff lengths).mp (fits heard)
      refine ⟨countBytes_le spec.counted, ?_, fun _ => flows.mpr positive, fun r hands => ?_⟩
      · rw [total]
        exact counted_le good.sound lengths.accepted processed positive
      · obtain ⟨calls, rfl⟩ := (gives_iff reads).mp hands
        exact (wide_iff lengths calls.2.2).mp (wide calls)

end Receive

/-! ### Runs -/

def CountsForward (kind : Kind) (s : Lan) (e : Event) (t : Lan) : Prop :=
  ∀ p time tag o r, e = .datagram p time tag o → s.receive kind p time tag o = .ok (t, r) →
    Forward kind s t p time tag r

def Agrees (kind : Kind) (s : Lan) (e : Event) : Prop :=
  ∀ p time tag o, e = .datagram p time tag o → Consistent kind s p time tag

theorem countsForward_iff {kind : Kind} {s t : Lan} {e : Event} (good : Good s)
    (stepped : step kind s e = some t) : CountsForward kind s e t ↔ Agrees kind s e := by
  cases e with
  | datagram p time tag o =>
    obtain ⟨r, received⟩ := receive_of_step stepped
    constructor
    · rintro counts _ _ _ _ ⟨⟩
      exact (forward_iff good received).mp (counts p time tag o r rfl received)
    · rintro agrees _ _ _ _ r' ⟨⟩ received'
      exact (forward_iff good received').mpr (agrees p time tag o rfl)
  | elsewhere w =>
    exact iff_of_true (fun _ _ _ _ _ same => absurd same (by simp))
      fun _ _ _ _ same => absurd same (by simp)

/-- In every run the counters go forward exactly when every datagram is consistent. -/
theorem always_forward_iff (kind : Kind) (layer : Nat) (objects : CacheId → Nat)
    (registered : Option Nat) (timeout : Int) (forwards : Bool) (events : List Event) :
    Transition.Along (step kind) (CountsForward kind)
        (start layer objects registered timeout forwards) events ↔
      Transition.Along (step kind) (fun s e _ => Agrees kind s e)
        (start layer objects registered timeout forwards) events :=
  Transition.along_iff (fun _ _ _ good stepped _ => good_step good stepped)
    (fun _ _ _ good stepped => countsForward_iff good stepped)
    (good_start layer objects registered timeout forwards)

def segment (offset : BitVec 4) : Stack.Packet :=
  let raw : RawPacket :=
    { memory := [0x45, 0, 0, 60, 0, 0, 0, 0, 64, 6, 0, 0, 10, 0, 0, 1, 10, 0, 0, 2] ++
        [3, 232, 0, 80, 0, 0, 0, 0, 0, 0, 0, 0, offset ++ (0 : BitVec 4), 2, 0, 0, 0, 0, 0, 0] ++
        List.replicate 20 0
      length := 60
      held := by simp }
  { curr := raw, net := raw }

/-- The first segment has twenty octets of payload. The second asks for a header of sixty, and takes
twenty octets from what its flow has. -/
theorem not_always_forward :
    ¬∀ kind forwards events, Transition.Along (step kind) (CountsForward kind)
      (start 0 (fun _ => 1) (some 0) 180 forwards) events := by
  intro h
  have run := h .tcp false [.datagram (segment 5) 0 none {}, .datagram (segment 15) 1 none {}]
  have goesDown : (step .tcp (start 0 (fun _ => 1) (some 0) 180 false)
      (.datagram (segment 5) 0 none {})).any (fun s =>
        ((s.receive .tcp (segment 15) 1 none {}).toOption.any fun t =>
          decide ((t.1.layer.transport.flow ⟨.flow 0, 0⟩).totalBytes <
            (s.layer.transport.flow ⟨.flow 0, 0⟩).totalBytes)) &&
          decide ((⟨.flow 0, 0⟩ : Obj) ∈ s.layer.transport.table) &&
          (s.reads .tcp (segment 15) 1 none).isSome) = true := by decide +kernel
  obtain ⟨s, first, down⟩ := (Option.any_eq_true _ _).mp goesDown
  simp only [Bool.and_eq_true, decide_eq_true_iff] at down
  obtain ⟨⟨second, member⟩, read⟩ := down
  obtain ⟨⟨t, r⟩, received, less⟩ := (Option.any_eq_true _ _).mp second
  have stepped : step .tcp s (.datagram (segment 15) 1 none {}) = some t := by
    simp only [step, received, Option.map_some]
  have forward := ((run s first).2 t stepped).1 _ _ _ _ r rfl (toOption_some received)
  have more := (forward.flows read).1 _ member
  exact absurd (of_decide_eq_true less) (not_lt.mpr more)

end Lan

end AIEngine
