import AIEngine.Stack.ByteCounters

/-!
# The padding of a frame

Ethernet fills a short frame up. The layer of IP leaves the length of the datagram with its multiplexer,
and the transport asks this length whether there is a payload; how long the payload is it takes from what
was captured.
-/

namespace AIEngine

def Kind.number : Kind → BitVec 8
  | .tcp => 6
  | .udp => 17

namespace EthernetProtocol

/-- The datagram in a frame that the checker accepts. -/
def carried (frame : Stack.Packet) : Option Stack.Packet :=
  let (accepted, p) := ethernetChecker frame
  if accepted then
    match getEthernetType p with
    | .ok type => if type = ethertypeIp then some { p with curr := p.curr.advance headerSize } else none
    | .error _ => none
  else none

theorem carried_curr {frame p : Stack.Packet} (inside : carried frame = some p) :
    p.curr = frame.curr.advance headerSize := by
  have same : (ethernetChecker frame).2.curr = frame.curr := by
    unfold ethernetChecker
    split <;> rfl
  unfold carried at inside
  simp only at inside
  split at inside
  · split at inside
    · split at inside
      · obtain rfl := Option.some.inj inside
        show (ethernetChecker frame).2.curr.advance headerSize = _
        rw [same]
      · exact absurd inside (by simp)
    · exact absurd inside (by simp)
  · exact absurd inside (by simp)

end EthernetProtocol

namespace Lan

/-- The payload that the application layer is given of a frame. -/
def givesOfFrame (s : Lan) (kind : Kind) (frame : Stack.Packet) (time : Int) (hint : Nat) :
    Option RawPacket :=
  (EthernetProtocol.carried frame).bind fun p => s.gives kind p time none hint

theorem receiveFrame_gives {s t : Lan} {kind : Kind} {frame : Stack.Packet} {time : Int} {o : Outside}
    {r : Option RawPacket} (received : s.receiveFrame kind frame time o = .ok (t, r)) :
    r = s.givesOfFrame kind frame time o.hint := by
  unfold receiveFrame at received
  unfold givesOfFrame EthernetProtocol.carried
  simp only at received ⊢
  split at received
  · rename_i accepted
    obtain ⟨type, known, received⟩ := Ending.bind_ok received
    rw [if_pos accepted, known]
    simp only
    split at received
    · rename_i ip
      rw [if_pos ip]
      exact (receive_spec received).1
    · rename_i other
      rw [if_neg other]
      exact (Prod.mk.inj (Except.ok.inj received)).2.symm
  · rename_i refused
    rw [if_neg refused]
    exact (Prod.mk.inj (Except.ok.inj received)).2.symm

/-! ### Padded frames -/

def transportLength (kind : Kind) (p : RawPacket) (h : IPHeader) : Nat :=
  match kind with
  | .tcp => TCPProtocol.offsetAt p (4 * h.headerLength.toNat)
  | .udp => Kind.udp.headerSize

/-- What the length of the datagram leaves behind both headers. -/
def payloadLength (kind : Kind) (p : RawPacket) (h : IPHeader) : Int :=
  (ntohs h.length).toNat - 4 * h.headerLength.toNat - transportLength kind p h

/-- A frame with a datagram of IPv4 whose headers agree, and something behind the datagram. -/
structure Padded (kind : Kind) (frame : Stack.Packet) (h : IPHeader) : Prop where
  type : EthernetProtocol.getEthernetType frame = .ok EthernetProtocol.ethertypeIp
  header : IPProtocol.readHeader { frame with curr := frame.curr.advance 14 } = .ok h
  version : h.version = 4
  protocol : h.protocol = kind.number
  options : 5 ≤ h.headerLength.toNat
  tcp : kind = .tcp → 20 ≤ transportLength kind (frame.curr.advance 14) h
  udp : kind = .udp → (UDPProtocol.lengthAt (frame.curr.advance 14) (4 * h.headerLength.toNat)).toNat =
    (ntohs h.length).toNat - 4 * h.headerLength.toNat
  room : 0 ≤ payloadLength kind (frame.curr.advance 14) h
  padded : (ntohs h.length).toNat < frame.length - 14

/-- No padding goes to the application layer, and nothing when there is nothing but padding. -/
def ExcludesPadding (s : Lan) (kind : Kind) (frame : Stack.Packet) (h : IPHeader) (time : Int) : Prop :=
  ∀ hint,
    (∀ r, s.givesOfFrame kind frame time hint = some r →
      r.length = payloadLength kind (frame.curr.advance 14) h) ∧
    (payloadLength kind (frame.curr.advance 14) h = 0 → s.givesOfFrame kind frame time hint = none)

/-- With options of IP, TCP reads its data offset in the wrong place, and may find there a header that
is longer than its own by the options and the padding. -/
def Coincides (kind : Kind) (frame : Stack.Packet) (h : IPHeader) : Prop :=
  kind = .tcp ∧
    (TCPProtocol.offsetAt (frame.curr.advance 14) 20 : Int) =
      (4 * h.headerLength.toNat - 20) + transportLength kind (frame.curr.advance 14) h +
        (frame.length - 14 - (ntohs h.length).toNat)

section Frame

variable {s : Lan} {kind : Kind} {frame p q : Stack.Packet} {h : IPHeader} {x : Packet} {time : Int}
  {tag : Option (BitVec 32)}

/-- The transport gives what is captured behind the twenty octets of IP and the header it reads there. -/
theorem gives_payloadLength_iff (padded : Padded kind frame h)
    (place : p.curr = frame.curr.advance 14) (lengths : Lengths kind p q h x) :
    (q.curr.advance (TransportLayer.stepped kind x)).length =
      payloadLength kind (frame.curr.advance 14) h ↔ Coincides kind frame h := by
  have options := padded.options
  have more := padded.padded
  have rest : q.length = p.length - 20 := lengths.rest
  have frameLength : p.length = frame.length - 14 := congrArg RawPacket.length place
  have behind : (q.curr.advance (TransportLayer.stepped kind x)).length =
      q.length - TransportLayer.stepped kind x := rfl
  rw [behind]
  unfold payloadLength Coincides
  cases kind with
  | tcp =>
    have offset : x.tcpHdrLength = TCPProtocol.offsetAt (frame.curr.advance 14) 20 :=
      place ▸ lengths.tcp rfl
    unfold TransportLayer.stepped
    simp only [offset, Int.toNat_natCast, true_and]
    omega
  | udp =>
    have header : Kind.udp.headerSize = 8 := rfl
    unfold TransportLayer.stepped transportLength
    simp only [header, reduceCtorEq, false_and, iff_false]
    omega

theorem excludesPadding_iff (good : Good s) (padded : Padded kind frame h) :
    ExcludesPadding s kind frame h time ↔
      ∀ p q x, EthernetProtocol.carried frame = some p → s.reads kind p time none = some (q, x) →
        s.layer.transport.Calls kind x → Coincides kind frame h := by
  have agree : ∀ p q x, EthernetProtocol.carried frame = some p →
      s.reads kind p time none = some (q, x) →
        p.curr = frame.curr.advance 14 ∧ Lengths kind p q h x := by
    intro p q x inside reads
    have place := EthernetProtocol.carried_curr inside
    obtain ⟨h', header, lengths⟩ := reads_lengths good.setUp reads
    have same : IPProtocol.readHeader p =
        IPProtocol.readHeader { frame with curr := frame.curr.advance 14 } := by
      unfold IPProtocol.readHeader Stack.Packet.byte
      rw [place]
      rfl
    obtain rfl := Except.ok.inj (header.symm.trans (same.trans padded.header))
    exact ⟨place, lengths⟩
  constructor
  · intro excludes p q x inside reads calls
    obtain ⟨place, lengths⟩ := agree p q x inside reads
    refine (gives_payloadLength_iff padded place lengths).mp ((excludes 0).1 _ ?_)
    unfold givesOfFrame
    rw [inside]
    exact (gives_iff reads).mpr ⟨calls, rfl⟩
  · intro coincides hint
    have given : ∀ r, s.givesOfFrame kind frame time hint = some r →
        r.length = payloadLength kind (frame.curr.advance 14) h ∧ r.length ≠ 0 := by
      intro r hands
      obtain ⟨p, inside, hands⟩ := Option.bind_eq_some_iff.mp hands
      cases reads : s.reads kind p time none with
      | none => exact absurd ((gives_silent reads).symm.trans hands) (by simp)
      | some found =>
        obtain ⟨q, x⟩ := found
        obtain ⟨calls, rfl⟩ := (gives_iff reads).mp hands
        obtain ⟨place, lengths⟩ := agree p q x inside reads
        have met := coincides p q x inside reads calls
        refine ⟨(gives_payloadLength_iff padded place lengths).mpr met, ?_⟩
        obtain ⟨rfl, -⟩ := met
        have positive := tcp_given_pos lengths calls.2.2
        omega
    refine ⟨fun r hands => (given r hands).1, fun empty => ?_⟩
    rw [Option.eq_none_iff_forall_ne_some]
    intro r hands
    obtain ⟨length, positive⟩ := given r hands
    exact positive (length.trans empty)

end Frame

/-! ### Runs -/

/-- Whatever happened before, padding goes to no protocol exactly when the frame is given to none, or
the lengths coincide. -/
theorem always_excludesPadding_iff (kind : Kind) (layer : Nat) (objects : CacheId → Nat)
    (registered : Option Nat) (timeout : Int) (forwards : Bool) (events : List Event) :
    Transition.Always (step kind)
      (fun s => ∀ frame h time, Padded kind frame h →
        (ExcludesPadding s kind frame h time ↔
          ∀ p q x, EthernetProtocol.carried frame = some p → s.reads kind p time none = some (q, x) →
            s.layer.transport.Calls kind x → Coincides kind frame h))
      (start layer objects registered timeout forwards) events := by
  have keeps : Transition.Always (step kind) Good
      (start layer objects registered timeout forwards) events :=
    Transition.always_of_inv (fun _ _ _ good stepped => good_step good stepped)
      (good_start layer objects registered timeout forwards)
  exact Transition.always_mono (fun s good frame h time padded => excludesPadding_iff good padded) keeps

/-- A segment with one octet of payload, and five octets of padding behind it. -/
def shortFrame : Stack.Packet :=
  let raw : RawPacket :=
    { memory := List.replicate 12 0 ++ [8, 0] ++
        [0x45, 0, 0, 41, 0, 0, 0, 0, 64, 6, 0, 0, 10, 0, 0, 1, 10, 0, 0, 2] ++
        [3, 232, 0, 80, 0, 0, 0, 0, 0, 0, 0, 0, 0x50, 0x10, 0, 0, 0, 0, 0, 0] ++ [65] ++
        List.replicate 5 0
      length := 60
      held := by simp }
  { curr := raw, net := raw }

def shortHeader : IPHeader where
  version := 4
  headerLength := 5
  length := 0x2900
  offset := 0
  protocol := 6
  source := 0x0100000a
  destination := 0x0200000a

theorem padded_short : Padded .tcp shortFrame shortHeader where
  type := by decide +kernel
  header := by decide +kernel
  version := rfl
  protocol := rfl
  options := by decide
  tcp := by decide +kernel
  udp := by decide
  room := by decide +kernel
  padded := by decide +kernel

/-- The application layer is given six octets for the one of the segment. -/
theorem not_always_excludesPadding :
    ¬∀ kind layer objects registered timeout forwards events, Transition.Always (step kind)
      (fun s => ∀ frame h time, Padded kind frame h → ExcludesPadding s kind frame h time)
      (start layer objects registered timeout forwards) events := by
  intro all
  have fresh := Transition.always_final (all .tcp 0 (fun _ => 1) (some 0) 180 true [])
    (Transition.run_nil _)
  have six : (((start 0 (fun _ => 1) (some 0) 180 true).givesOfFrame .tcp shortFrame 0 0).any
      fun r => decide (r.length = 6)) = true := by decide +kernel
  obtain ⟨r, given, length⟩ := (Option.any_eq_true _ _).mp six
  have one : payloadLength .tcp (shortFrame.curr.advance 14) shortHeader = 1 := by decide +kernel
  have same := (fresh shortFrame shortHeader 0 padded_short 0).1 r given
  rw [of_decide_eq_true length, one] at same
  exact absurd same (by decide)

end Lan

end AIEngine
