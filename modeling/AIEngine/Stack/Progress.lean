import AIEngine.Stack.Hops
import AIEngine.Stack.TunnelTransports
import AIEngine.Transport.Progress

/-!
# A stack goes on

No layer below a transport reads anything but the packet that it has accepted, so a frame can only be stopped
by a transport. What the transports have to promise for that is collected in `Rules`.
-/

namespace AIEngine

open Ending (Ends ends_bind ends_bind_ok ends_mono)
open Stack (Frame)
open StackKind (Wired)

namespace RawPacket

variable {p : RawPacket} {k : Nat}

theorem half_inside (inside : (k + 2 : Int) ≤ p.length) : ∃ x, p.half k = .ok x := by
  have held : p.length ≤ p.memory.length := p.held
  exact half_of_lt (by omega)

theorem byte_inside (inside : (k + 1 : Int) ≤ p.length) : ∃ x, p.byte k = .ok x := by
  have held : p.length ≤ p.memory.length := p.held
  exact ⟨_, byte_octet (by omega)⟩

end RawPacket

section Layers

variable {E : Fault → Prop} {p : Stack.Packet}

/-- A checker that asks for a length before it reads. -/
theorem ends_guarded {α : Type} {n : Int} {b : Bool} {x : α} {read : Except Fault (Bool × α)}
    (reads : n ≤ p.length → ∃ r, read = .ok r) (refuses : b = false) :
    Ends E (fun r => r.1 = true → n ≤ p.length) (if n ≤ p.length then read else .ok (b, x)) := by
  split
  · rename_i fits
    obtain ⟨r, done⟩ := reads fits
    rw [done]
    exact fun _ => fits
  · exact fun accepted => absurd (refuses.symm.trans accepted) (by simp)

theorem IPProtocol.ipChecker_ends (ip : IPProtocol) :
    Ends E (fun r => r.1 = true → 20 ≤ p.length) (ip.ipChecker p) := by
  refine ends_guarded (fun fits => ?_) rfl
  obtain ⟨x, read⟩ := RawPacket.byte_inside (p := p.curr) (k := 0) (by unfold Stack.Packet.length at fits; omega)
  unfold isIPver4 Stack.Packet.byte
  rw [read]
  simp only [bind, Except.bind]
  split <;> exact ⟨_, rfl⟩

theorem IPProtocol.processPacket_ends (ip : IPProtocol) (m : Multiplexer) (fits : 20 ≤ p.length) :
    Ends E (fun r => r.2.2.1.address.type = 4) (ip.processPacket m p) := by
  obtain ⟨h, read⟩ := readHeader_of_length fits
  unfold processPacket
  rw [read]
  simp only [bind, Except.bind]
  split
  · exact rfl
  · exact rfl

theorem GREProtocol.greChecker_ends (gre : LayerTotals) :
    Ends E (fun r => r.1 = true → 4 ≤ p.length) (greChecker gre p) := by
  refine ends_guarded (fun fits => ?_) rfl
  obtain ⟨x, read⟩ := RawPacket.half_inside (p := p.curr) (k := 2) fits
  unfold getProtocol
  rw [read]
  exact ⟨_, rfl⟩

theorem GprsTunnel.gprsChecker_ends (gprs : GprsTunnel) (address : Nat) :
    Ends E (fun r => r.1 = true → 8 ≤ p.length) (gprs.gprsChecker address p) := by
  refine ends_guarded (fun fits => ?_) rfl
  obtain ⟨x, read⟩ := RawPacket.byte_inside (p := p.curr) (k := 0) (by unfold Stack.Packet.length at fits; omega)
  unfold Stack.Packet.byte
  rw [read]
  exact ⟨_, rfl⟩

theorem VxLanProtocol.vxlanChecker_ends (vxlan : LayerTotals) :
    Ends E (fun r => r.1 = true → 8 ≤ p.length) (vxlanChecker vxlan p) := by
  refine ends_guarded (fun fits => ?_) rfl
  obtain ⟨x, read⟩ := RawPacket.byte_inside (p := p.curr) (k := 0) (by unfold Stack.Packet.length at fits; omega)
  unfold Stack.Packet.byte
  rw [read]
  exact ⟨_, rfl⟩

theorem OpenFlowProtocol.openflowChecker_ends (of : OpenFlowProtocol) :
    Ends E (fun r => r.1 = true → 8 ≤ p.length) (of.openflowChecker p) := by
  refine ends_guarded (fun fits => ?_) rfl
  obtain ⟨x, read⟩ := RawPacket.byte_inside (p := p.curr) (k := 0) (by unfold Stack.Packet.length at fits; omega)
  unfold Stack.Packet.byte
  rw [read]
  exact ⟨_, rfl⟩

/-- The tunnel may read this much of a packet that is not empty. -/
def StackKind.reach : StackKind → Int
  | .virtual => 7
  | .openFlow => 2
  | .lan | .lanIPv6 | .mobile => 0

def StackKind.Readable (kind : StackKind) (p : Stack.Packet) : Prop := p.length ≤ 0 ∨ kind.reach ≤ p.length

theorem StackKind.readable_of_length {kind : StackKind} (long : 8 ≤ p.length) : kind.Readable p := by
  refine Or.inr ?_
  cases kind <;> simp only [reach] <;> omega

theorem VxLanProtocol.processFlow_ends {vxlan : LayerTotals} {m : Multiplexer} {p : Frame}
    (readable : StackKind.Readable .virtual p.toPacket) : Ends E (fun _ => True) (processFlow vxlan m p) := by
  unfold processFlow
  dsimp only
  split
  · rename_i some
    have long : 7 ≤ p.curr.length := readable.resolve_left (by omega)
    obtain ⟨vni0, read0⟩ := RawPacket.byte_inside (p := p.curr) (k := 4) (by omega)
    obtain ⟨vni1, read1⟩ := RawPacket.byte_inside (p := p.curr) (k := 5) (by omega)
    obtain ⟨vni2, read2⟩ := RawPacket.byte_inside (p := p.curr) (k := 6) (by omega)
    unfold getVni Stack.Packet.byte
    rw [read0, read1, read2]
    trivial
  · trivial

theorem OpenFlowProtocol.processFlow_ends {of : OpenFlowProtocol} {m : Multiplexer} {p : Frame}
    (readable : StackKind.Readable .openFlow p.toPacket) : Ends E (fun _ => True) (of.processFlow m p) := by
  unfold processFlow
  dsimp only
  split
  · rename_i some
    have long : 2 ≤ p.curr.length := readable.resolve_left (by omega)
    obtain ⟨type, read⟩ := RawPacket.byte_inside (p := p.curr) (k := 1) (by omega)
    unfold Stack.Packet.byte
    rw [read]
    simp only [bind, Except.bind]
    split <;> trivial
  · trivial

/-- Three entries are all that the loop looks at. -/
theorem MPLSProtocol.loop_ends {w : Scan} {k n : Nat} (here : w.At k)
    (inside : 4 * (k + n) ≤ p.curr.memory.length) : Ends E (fun _ => True) (loop p w n) := by
  induction n generalizing w k with
  | zero => trivial
  | succ n ih =>
    obtain ⟨w', visited, next⟩ := visit_inside (p := p) here (by omega)
    unfold loop
    rw [visited]
    simp only [bind, Except.bind]
    split
    · exact ih next (by omega)
    · trivial

end Layers

namespace NetworkStack

variable {τ : Type} {T : Transports τ} {E : Fault → Prop} {s t : NetworkStack τ} {m up : Mux} {p q : Frame}
  {forward : NetworkStack τ → Mux → Frame → Except Fault (NetworkStack τ × Frame)}

/-- The header of a layer fits into the packet. -/
def Fits : Mux → Frame → Prop
  | .vlan, p | .gre, p => 4 ≤ p.length
  | .mpls, p => 12 ≤ p.length
  | .ip, p | .ipVir, p => 20 ≤ p.length
  | .ethVir, p => 40 ≤ p.length
  | _, _ => True

/-- Nothing but a layer below the transports has changed. -/
structure Below (s t : NetworkStack τ) : Prop extends Same s t where
  upper : t.upper = s.upper
  relay : t.relay = s.relay

theorem checkIP_ends (four : s.kind ≠ .lanIPv6) :
    Ends E (fun r => Below s r.2.1 ∧ r.2.2.tag = p.tag ∧ (r.1 = true → 20 ≤ r.2.2.length)) (s.checkIP p) := by
  unfold checkIP
  rw [if_neg four]
  exact ends_bind (IPProtocol.ipChecker_ends s.ip) fun r fits => ⟨⟨⟨rfl, rfl⟩, rfl, rfl⟩, rfl, fits⟩

theorem acceptPacket_ends (layer : up.down = none) (four : s.kind ≠ .lanIPv6) (labels : up = .mpls → 12 ≤ p.length) :
    Ends E (fun r => Below s r.2.1 ∧ r.2.2.tag = p.tag ∧ (r.1 = true → Fits up r.2.2)) (s.acceptPacket T up p) := by
  cases up with
  | udp | tcp | icmp | udpVir | tcpVir | icmpVir => exact absurd layer (by simp [Mux.down])
  | eth | tunnel => exact ⟨⟨⟨rfl, rfl⟩, rfl, rfl⟩, rfl, fun _ => trivial⟩
  | vlan =>
    refine ⟨⟨⟨rfl, rfl⟩, rfl, rfl⟩, rfl, fun fits => ?_⟩
    have accepted : decide ((VLanProtocol.headerSize : Int) ≤ p.length) = true := fits
    have fits : (4 : Int) ≤ p.length := of_decide_eq_true accepted
    exact fits
  | mpls => exact ⟨⟨⟨rfl, rfl⟩, rfl, rfl⟩, rfl, fun _ => labels rfl⟩
  | ethVir =>
    unfold acceptPacket EthernetProtocol.check EthernetProtocol.ethernetChecker
    dsimp only
    split
    · rename_i fits
      exact ⟨⟨⟨rfl, rfl⟩, rfl, rfl⟩, rfl, fun _ => fits.1⟩
    · exact ⟨⟨⟨rfl, rfl⟩, rfl, rfl⟩, rfl, fun no => absurd no (by simp)⟩
  | gre => exact ends_bind (GREProtocol.greChecker_ends s.gre) fun r fits => ⟨⟨⟨rfl, rfl⟩, rfl, rfl⟩, rfl, fits⟩
  | ip => exact checkIP_ends four
  | ipVir =>
    exact ends_bind (IPProtocol.ipChecker_ends s.ipVir) fun r fits => ⟨⟨⟨rfl, rfl⟩, rfl, rfl⟩, rfl, fits⟩

/-- A layer of IPv4 has told its multiplexer the addresses. -/
def Told (m : Mux) (s : NetworkStack τ) : Prop := m = .ip ∨ m = .ipVir → (s.relay m).registers.address.type = 4

theorem processIP_ends (four : s.kind ≠ .lanIPv6) (fits : 20 ≤ p.length) :
    Ends E (fun r => (Same s r.2.1 ∧ r.2.1.upper = s.upper) ∧ r.2.2.tag = p.tag ∧ Told .ip r.2.1) (s.processIP p) := by
  unfold processIP
  rw [if_neg four]
  refine ends_bind (IPProtocol.processPacket_ends s.ip _ fits) fun r told => ⟨⟨⟨rfl, rfl⟩, rfl⟩, rfl, fun _ => ?_⟩
  rw [setRegisters_registers]
  exact told

/-- A layer below the transports works on what it has accepted. -/
theorem packetFunc_ends (layer : up.down = none) (four : s.kind ≠ .lanIPv6) (fits : Fits up p) :
    Ends E (fun r => (Same s r.2.1 ∧ r.2.1.upper = s.upper) ∧ r.2.2.tag = p.tag ∧ Told up r.2.1)
      (s.packetFunc T forward up p) := by
  cases up with
  | udp | tcp | icmp | udpVir | tcpVir | icmpVir => exact absurd layer (by simp [Mux.down])
  | eth | tunnel | gre => exact ⟨⟨⟨rfl, rfl⟩, rfl⟩, rfl, fun no => absurd no (by simp)⟩
  | vlan =>
    obtain ⟨x, read⟩ := RawPacket.half_inside (p := p.curr) (k := 2) fits
    unfold packetFunc VLanProtocol.processPacket VLanProtocol.getEthernetType
    rw [read]
    exact ⟨⟨⟨rfl, rfl⟩, rfl⟩, rfl, fun no => absurd no (by simp)⟩
  | mpls =>
    have fits : 12 ≤ p.curr.length := fits
    have held : p.curr.length ≤ p.curr.memory.length := p.curr.held
    have looped : Ends E (fun _ => True) (MPLSProtocol.loop p.toPacket {} 3) :=
      MPLSProtocol.loop_ends MPLSProtocol.start_at (by omega)
    have processed : Ends E (fun _ => True) (s.mpls.processPacket (some (s.relay .mpls).registers) p.toPacket) :=
      ends_bind looped fun _ _ => trivial
    exact ends_bind processed fun r _ => ⟨⟨⟨rfl, rfl⟩, rfl⟩, rfl, fun no => absurd no (by simp)⟩
  | ethVir =>
    have fits : 40 ≤ p.curr.length := fits
    obtain ⟨x, read⟩ := RawPacket.half_inside (p := p.curr) (k := 12) (by omega)
    unfold packetFunc EthernetProtocol.processPacket EthernetProtocol.getEthernetType
    rw [read]
    exact ⟨⟨⟨rfl, rfl⟩, rfl⟩, rfl, fun no => absurd no (by simp)⟩
  | ip => exact processIP_ends four fits
  | ipVir =>
    refine ends_bind (IPProtocol.processPacket_ends s.ipVir _ fits) fun r told => ⟨⟨⟨rfl, rfl⟩, rfl⟩, rfl, fun _ => ?_⟩
    rw [setRegisters_registers]
    exact told

/-! ### The way of a frame -/

/-- `forwardFlow` comes to the tunnel: the flow has its forwarder, or the checker accepts the packet. -/
inductive Enters (s : NetworkStack τ) (h : Handed) (p : Frame) : NetworkStack τ → Prop where
  | attached (attached : h.attached = true) : Enters s h p s
  | checked {t : NetworkStack τ} (new : h.attached = false)
    (accepts : s.tunnelChecker h.around.address p = .ok (true, t)) : Enters s h p t

/-- What is at a multiplexer comes to the checker of a transport as the packet `r`, with these registers below it;
that may be a packet that it carries. -/
inductive Arrives (T : Transports τ) (top : Mux) (down : Multiplexer) (r : Frame) :
    NetworkStack τ → Mux → Frame → Prop where
  | here {s : NetworkStack τ} {m : Mux} {p : Frame}
    (found : s.getUpMultiplexer m (s.relay m).registers.nextProtocolId = some top) (transport : top.down = some m)
    (registers : (s.relay m).registers = down) (packet : s.ahead m p = r) : Arrives T top down r s m p
  | higher {s t u : NetworkStack τ} {m up : Mux} {p q v : Frame}
    {forward : NetworkStack τ → Mux → Frame → Except Fault (NetworkStack τ × Frame)}
    (found : s.getUpMultiplexer m (s.relay m).registers.nextProtocolId = some up) (layer : up.down = none)
    (accepts : (s.countReceived m).acceptPacket T up (s.ahead m p) = .ok (true, t, q))
    (processes : t.packetFunc T forward up q = .ok (true, u, v))
    (rest : Arrives T top down r (u.countForward m) up v) : Arrives T top down r s m p
  | carried {s v t : NetworkStack τ} {m up : Mux} {p q q' inner : Frame} {u u' : τ} {h : Handed}
    (found : s.getUpMultiplexer m (s.relay m).registers.nextProtocolId = some up) (carrier : s.kind.carrier = some up)
    (accepts : T.check up s.upper (s.ahead m p) = .ok (true, u, q))
    (hands : T.before up u (s.relay m).registers q = .ok (u', q', some h))
    (enters : Enters ((s.countReceived m).withUpper u') h q' v) (opens : v.openTunnel h q' = .ok (t, .packet inner))
    (rest : Arrives T top down r t .tunnel inner) : Arrives T top down r s m p

/-- The captured frame comes to a transport so. -/
def Brings (T : Transports τ) (s : NetworkStack τ) (raw : RawPacket) (time : Int) (top : Mux) (down : Multiplexer)
    (r : Frame) : Prop :=
  ∃ t p type, s.acceptPacket T .eth
      { curr := raw, net := { memory := [], length := 0, held := nothing_held }, time := time } = .ok (true, t, p) ∧
    EthernetProtocol.getEthernetType p.toPacket = .ok type ∧
    Arrives T top down r (t.setRegisters .eth { (t.relay .eth).registers with nextProtocolId := type }) .eth p

/-! ### What the transports promise -/

/-- Pre- and postconditions of the transports, below the tunnel (`false`) and in it: `I` holds before a packet
comes to them, `J` behind it, and `C` for a packet that a checker has accepted. The packets are those that `W` says
come to them, of IPv4, and below the tunnel without a tag. A tunnel of GPRS is none of those meant here: it reads
where its header pointer is. -/
structure Rules (T : Transports τ) (kind : StackKind) (W : Mux → Multiplexer → Frame → Prop) (E : Fault → Prop)
    (I J : Bool → τ → Prop) (C : Bool → Mux → Multiplexer → τ → Frame → Prop) : Prop where
  ethernet : kind ≠ .mobile
  idle : ∀ {inside u}, I inside u → J inside u
  check : ∀ {inside l d u down p}, l ∈ kind.links → l.target.down = some d →
    (inside = true → kind.carrier ≠ some l.target) → (inside = false → p.tag = none) → W l.target down p → I inside u →
      Ends E (fun r => if r.1 then C inside l.target down r.2.1 r.2.2 else J inside r.2.1) (T.check l.target u p)
  process : ∀ {inside m u d p}, kind.carrier ≠ some m → d.address.type = 4 → C inside m d u p →
    Ends E (fun r => J inside r.1) (T.process m u d p)
  before : ∀ {m u d p}, kind.carrier = some m → d.address.type = 4 → C false m d u p →
    Ends E (fun r =>
      if let some h := r.2.2 then
        I true r.1 ∧ (h.attached = true → kind.Readable r.2.1.toPacket ∨ ∀ e, E e)
      else J false r.1) (T.before m u d p)
  after : ∀ {m u p back}, kind.carrier = some m → J back.isSome u → Ends E (fun r => J false r.1) (T.after m u p back)

theorem tunnelChecker_ends {address : Nat} :
    Ends E (fun r => (Same s r.2 ∧ r.2.upper = s.upper) ∧ (r.1 = true → 8 ≤ p.length))
      (s.tunnelChecker address p) := by
  unfold tunnelChecker
  split
  · exact ends_bind (GprsTunnel.gprsChecker_ends s.gprs address) fun r fits => ⟨⟨⟨rfl, rfl⟩, rfl⟩, fits⟩
  · exact ends_bind (VxLanProtocol.vxlanChecker_ends s.vxlan) fun r fits => ⟨⟨⟨rfl, rfl⟩, rfl⟩, fits⟩
  · exact ends_bind (OpenFlowProtocol.openflowChecker_ends s.openFlow) fun r fits => ⟨⟨⟨rfl, rfl⟩, rfl⟩, fits⟩
  · exact ⟨⟨⟨rfl, rfl⟩, rfl⟩, fun no => absurd no (by simp)⟩
  · exact ⟨⟨⟨rfl, rfl⟩, rfl⟩, fun no => absurd no (by simp)⟩

theorem openTunnel_ends {h : Handed} (ethernet : s.kind ≠ .mobile) (readable : s.kind.Readable p.toPacket ∨ ∀ e, E e) :
    Ends E (fun r => Same s r.1 ∧ r.1.upper = s.upper) (s.openTunnel h p) := by
  have ends {α : Type} {r : Except Fault α} (long : s.kind.Readable p.toPacket → Ends E (fun _ => True) r) :
      Ends E (fun _ => True) r := by
    rcases readable with readable | any
    · exact long readable
    · cases r with
      | ok a => trivial
      | error e => exact any e
  unfold openTunnel
  dsimp only
  split
  · rename_i kind
    exact absurd kind ethernet
  · rename_i kind
    refine ends_bind (ends fun long => ?_) fun r _ => ⟨⟨rfl, rfl⟩, rfl⟩
    exact VxLanProtocol.processFlow_ends (kind ▸ long)
  · rename_i kind
    refine ends_bind (ends fun long => ?_) fun r _ => ⟨⟨rfl, rfl⟩, rfl⟩
    exact OpenFlowProtocol.processFlow_ends (kind ▸ long)
  · exact ⟨⟨rfl, rfl⟩, rfl⟩
  · exact ⟨⟨rfl, rfl⟩, rfl⟩

section Carrier

variable {W : Mux → Multiplexer → Frame → Prop} {I J : Bool → τ → Prop}
  {C : Bool → Mux → Multiplexer → τ → Frame → Prop}
  (inner : ∀ (t : NetworkStack τ) q, Same s t → I true t.upper →
    (∀ top down r, Arrives T top down r t .tunnel q → W top down r) →
      Ends E (fun r => Same t r.1 ∧ J true r.1.upper) (forward t .tunnel q))

include inner

theorem runTunnel_ends {h : Handed} (ethernet : t.kind ≠ .mobile) (same : Same s t) (idle : ∀ {u}, I true u → J true u) (inv : I true t.upper)
    (readable : t.kind.Readable p.toPacket ∨ ∀ e, E e)
    (way : ∀ {v q}, t.openTunnel h p = .ok (v, .packet q) →
      ∀ top down r, Arrives T top down r v .tunnel q → W top down r) :
    Ends E (fun r => Same s r.1 ∧ J true r.1.upper) (t.runTunnel forward h p) := by
  refine ends_bind_ok (openTunnel_ends ethernet readable) ?_
  rintro ⟨v, content⟩ opens ⟨kept, upper⟩
  have upper : v.upper = t.upper := upper
  have whole := same.trans kept
  cases content with
  | nothing | context => exact ⟨whole, idle (upper ▸ inv)⟩
  | packet q =>
    refine ends_bind (inner v q whole (upper ▸ inv) (way opens)) ?_
    rintro ⟨w, r⟩ ⟨last, done⟩
    exact ⟨whole.trans last, done⟩

theorem forwardFlow_ends {h : Handed} (ethernet : t.kind ≠ .mobile) (same : Same s t) (idle : ∀ {u}, I true u → J true u) (inv : I true t.upper)
    (readable : h.attached = true → t.kind.Readable p.toPacket ∨ ∀ e, E e)
    (way : ∀ {v w q}, Enters t h p v → v.openTunnel h p = .ok (w, .packet q) →
      ∀ top down r, Arrives T top down r w .tunnel q → W top down r) :
    Ends E (fun r => Same s r.1 ∧ J true r.1.upper) (t.forwardFlow forward h p) := by
  unfold forwardFlow
  split
  · rename_i attached
    exact runTunnel_ends inner ethernet same idle inv (readable attached) (way (.attached attached))
  · rename_i new
    refine ends_bind_ok tunnelChecker_ends ?_
    rintro ⟨accepted, v⟩ checks ⟨⟨kept, upper⟩, fits⟩
    have upper : v.upper = t.upper := upper
    have whole := same.trans kept
    cases accepted with
    | false => exact ⟨whole, idle (upper ▸ inv)⟩
    | true =>
      have fits : 8 ≤ p.curr.length := fits rfl
      exact runTunnel_ends inner (kept.kind ▸ ethernet) whole idle (upper ▸ inv)
        (Or.inl (StackKind.readable_of_length fits)) (way (.checked (Bool.eq_false_iff.mpr new) checks))

theorem processCarrier_ends {down : Multiplexer} (rules : Rules T s.kind W E I J C) (same : Same s t)
    (carrier : s.kind.carrier = some up) (told : down.address.type = 4) (checked : C false up down t.upper p)
    (way : ∀ {u q h v w r}, T.before up t.upper down p = .ok (u, q, some h) → Enters (t.withUpper u) h q v →
      v.openTunnel h q = .ok (w, .packet r) → ∀ top d x, Arrives T top d x w .tunnel r → W top d x) :
    Ends E (fun r => Same s r.1 ∧ J false r.1.upper) (t.processCarrier T forward up down p) := by
  refine ends_bind_ok (rules.before carrier told checked) ?_
  rintro ⟨u, q, handed⟩ hands held
  cases handed with
  | none => exact ends_bind (rules.after carrier held) fun r done => ⟨⟨same.kind, same.links⟩, done⟩
  | some h =>
    obtain ⟨inv, readable⟩ := held
    have here : Same s (t.withUpper u) := ⟨same.kind, same.links⟩
    have forwarded := forwardFlow_ends (h := h) (p := q) inner (here.kind ▸ rules.ethernet) here rules.idle inv
      (same.kind ▸ readable) (fun enters opens => way hands enters opens)
    refine ends_bind forwarded ?_
    rintro ⟨v, r, back⟩ ⟨kept, done⟩
    exact ends_bind (rules.after carrier done) fun r done => ⟨⟨kept.kind, kept.links⟩, done⟩

end Carrier

/-- A transport works on what its checker has accepted. -/
theorem transport_ends {W : Mux → Multiplexer → Frame → Prop} {I J : Bool → τ → Prop}
    {C : Bool → Mux → Multiplexer → τ → Frame → Prop} {d : Mux} {inside : Bool}
    (rules : Rules T s.kind W E I J C) (same : Same s t) (top : up.down = some d)
    (told : (t.relay d).registers.address.type = 4) (checked : C inside up (t.relay d).registers t.upper p)
    (inner : s.kind.carrier = some up → inside = false ∧ ∀ (t : NetworkStack τ) q, Same s t → I true t.upper →
      (∀ top down r, Arrives T top down r t .tunnel q → W top down r) →
        Ends E (fun r => Same t r.1 ∧ J true r.1.upper) (forward t .tunnel q))
    (way : ∀ {u q h v w r}, s.kind.carrier = some up →
      T.before up t.upper (t.relay d).registers p = .ok (u, q, some h) → Enters (t.withUpper u) h q v →
        v.openTunnel h q = .ok (w, .packet r) → ∀ top d x, Arrives T top d x w .tunnel r → W top d x) :
    Ends E (fun r => Same s r.2.1 ∧ J inside r.2.1.upper) (t.packetFunc T forward up p) := by
  by_cases carrier : s.kind.carrier = some up
  · obtain ⟨rfl, nested⟩ := inner carrier
    have processed : Ends E (fun r => Same s r.1 ∧ J false r.1.upper) (t.processTransport T forward up p) := by
      unfold processTransport
      dsimp only
      rw [if_pos (same.kind ▸ carrier), top]
      exact processCarrier_ends nested rules same carrier told checked (way carrier)
    cases up with
    | udp | tcp | icmp | udpVir | tcpVir | icmpVir => exact ends_bind processed fun _ done => done
    | _ => exact absurd top (by simp [Mux.down])
  · rw [packetFunc_top top (same.kind ▸ carrier)]
    have processed := rules.process (d := (t.relay d).registers) carrier told checked
    cases does : T.process up t.upper (t.relay d).registers p with
    | error e =>
      have allowed : E e := Ending.ends_error processed does
      exact allowed
    | ok r =>
      have done := Ending.ends_value processed does
      exact ⟨⟨same.kind, same.links⟩, done⟩

theorem top_ip {d : Mux} (top : up.down = some d) : d = .ip ∨ d = .ipVir := by
  cases up with
  | udp | tcp | icmp => exact Or.inl (Option.some.inj top).symm
  | udpVir | tcpVir | icmpVir => exact Or.inr (Option.some.inj top).symm
  | _ => exact absurd top (by simp [Mux.down])

theorem layer_links (kind : StackKind) :
    ∀ l ∈ kind.links ++ StackKind.taggingLinks,
      (l.target = .mpls → l.source = .eth) ∧ (l.target.down ≠ none → l ∈ kind.links) := by
  cases kind <;> decide

/-- A layer below the transports hands on what it lets go. -/
theorem layer_goes {I J : Bool → τ → Prop} {inside : Bool} {n : Nat} (idle : ∀ {u}, I inside u → J inside u)
    (four : s.kind ≠ .lanIPv6) (found : s.getUpMultiplexer m (s.relay m).registers.nextProtocolId = some up)
    (layer : up.down = none) (labels : up = .mpls → 12 ≤ (s.ahead m p).length) (inv : I inside s.upper)
    (rest : ∀ {t u q v}, Same s u → (s.countReceived m).acceptPacket T up (s.ahead m p) = .ok (true, t, q) →
      t.packetFunc T (forwardPacket T n) up q = .ok (true, u, v) → v.tag = p.tag → Told up (u.countForward m) →
        I inside u.upper →
          Ends E (fun r => Same (u.countForward m) r.1 ∧ J inside r.1.upper) (forwardPacket T n (u.countForward m) up v)) :
    Ends E (fun r => Same s r.1 ∧ J inside r.1.upper) (forwardPacket T (n + 1) s m p) := by
  rw [← registers_countReceived (m := m) (s := s)] at found
  have found : (s.countReceived m).getUpMultiplexer m ((s.countReceived m).relay m).registers.nextProtocolId =
    some up := found
  rw [forwardPacket]
  dsimp only
  rw [candidate_countReceived, found]
  dsimp only
  refine ends_bind_ok (acceptPacket_ends (s := s.countReceived m) layer four labels) ?_
  rintro ⟨accepted, t, q⟩ accepts ⟨below, tag, fits⟩
  have kind : t.kind = s.kind := below.kind
  have upper : t.upper = s.upper := below.upper
  have held : I inside t.upper := by rw [upper]; exact inv
  cases accepted with
  | false => exact ⟨⟨kind, below.links⟩, idle held⟩
  | true =>
    refine ends_bind_ok (packetFunc_ends (s := t) layer (kind ▸ four) (fits rfl)) ?_
    rintro ⟨goes, u, v⟩ processes ⟨⟨same, upper'⟩, tag', told⟩
    have whole : Same s u := ⟨same.kind.trans below.kind, same.links.trans below.links⟩
    have held' : I inside u.upper := by rw [show u.upper = t.upper from upper']; exact held
    cases goes with
    | false => exact ⟨whole, idle held'⟩
    | true =>
      have told' : Told up (u.countForward m) := fun four =>
        (congrArg (fun r : Multiplexer => r.address.type) (registers_countForward up)).trans (told four)
      refine ends_bind (rest whole accepts processes (tag'.trans tag) told' held') ?_
      rintro ⟨w, r⟩ ⟨last, done⟩
      exact ⟨whole.trans ⟨last.kind, last.links⟩, done⟩

/-- A packet ends at a transport, when that keeps to its rules. -/
theorem transport_goes {W : Mux → Multiplexer → Frame → Prop} {I J : Bool → τ → Prop}
    {C : Bool → Mux → Multiplexer → τ → Frame → Prop} {inside : Bool} {l : Link} {n : Nat}
    (rules : Rules T s.kind W E I J C) (wired : Wired s.kind s.links)
    (found : s.getUpMultiplexer l.source (s.relay l.source).registers.nextProtocolId = some l.target)
    (linked : l ∈ s.kind.links) (top : l.target.down = some l.source)
    (told : (s.relay l.source).registers.address.type = 4) (untagged : inside = false → p.tag = none)
    (outside : s.kind.carrier = some l.target → inside = false)
    (way : ∀ top down r, Arrives T top down r s l.source p → W top down r) (inv : I inside s.upper)
    (inner : ∀ (t : NetworkStack τ) (q : Frame), Same s t → I true t.upper →
      (∀ top down r, Arrives T top down r t .tunnel q → W top down r) →
        Ends E (fun r => Same t r.1 ∧ J true r.1.upper) (forwardPacket T n t .tunnel q)) :
    Ends E (fun r => Same s r.1 ∧ J inside r.1.upper) (forwardPacket T (n + 1) s l.source p) := by
  have arrives : W l.target (s.relay l.source).registers (s.ahead l.source p) := way _ _ _ (.here found top rfl rfl)
  have checked := rules.check (p := s.ahead l.source p) linked top
    (fun deep carrier => absurd (deep.symm.trans (outside carrier)) (by simp)) untagged arrives inv
  rw [forwardPacket]
  dsimp only
  rw [candidate_countReceived, registers_countReceived,
    show (s.countReceived l.source).getUpMultiplexer l.source (s.relay l.source).registers.nextProtocolId =
      some l.target from found]
  dsimp only
  rw [acceptPacket_top top, show (s.countReceived l.source).upper = s.upper from rfl]
  cases checks : T.check l.target s.upper (s.ahead l.source p) with
  | error e =>
    have allowed : E e := Ending.ends_error checked checks
    exact allowed
  | ok r =>
    obtain ⟨accepted, u, q⟩ := r
    have held := Ending.ends_value checked checks
    cases accepted with
    | false => exact ⟨⟨rfl, rfl⟩, held⟩
    | true =>
      have same : Same s ((s.countReceived l.source).withUpper u) := ⟨rfl, rfl⟩
      have registers : (((s.countReceived l.source).withUpper u).relay l.source).registers =
          (s.relay l.source).registers := registers_countReceived l.source
      refine ends_bind (Q := fun r => r = (true, (s.countReceived l.source).withUpper u, q)) rfl ?_
      rintro _ rfl
      refine ends_bind (transport_ends rules same top (registers.symm ▸ told) (registers.symm ▸ held)
        (fun carrier => ⟨outside carrier, inner⟩)
        fun carrier hands enters opens top d x rest => way _ _ _ ?_) ?_
      · rw [registers] at hands
        exact .carried found carrier checks hands enters opens rest
      rintro ⟨goes, t, r⟩ ⟨whole, done⟩
      cases goes with
      | false => exact ⟨whole, done⟩
      | true =>
        have wired' : Wired t.kind t.links := whole.links ▸ whole.kind ▸ wired
        obtain ⟨relay, leaves, -⟩ := forwardPacket_leaf (T := T) (q := r) (s := t.countForward l.source) wired' top n
        dsimp only
        simp only [if_true]
        rw [leaves]
        exact ⟨⟨whole.kind, whole.links⟩, done⟩

/-- A packet goes its whole way, when the transports keep to their rules. -/
theorem forwardPacket_ends {W : Mux → Multiplexer → Frame → Prop} {I J : Bool → τ → Prop}
    {C : Bool → Mux → Multiplexer → τ → Frame → Prop} {inside : Bool} (rules : Rules T s.kind W E I J C)
    (four : s.kind ≠ .lanIPv6) (wired : Wired s.kind s.links) (labels : m = .eth → 12 ≤ (s.ahead m p).length)
    (deep : inside = true → 4 ≤ m.rank) (told : Told m s) (untagged : inside = false → p.tag = none)
    (way : ∀ top down r, Arrives T top down r s m p → W top down r) (inv : I inside s.upper) (n : Nat) :
    Ends E (fun r => Same s r.1 ∧ J inside r.1.upper) (forwardPacket T n s m p) := by
  induction n generalizing s m p inside with
  | zero => exact ⟨Same.refl s, rules.idle inv⟩
  | succ n ih =>
    cases found : s.getUpMultiplexer m (s.relay m).registers.nextProtocolId with
    | none =>
      rw [forwardPacket]
      dsimp only
      rw [registers_countReceived,
        show (s.countReceived m).getUpMultiplexer m (s.relay m).registers.nextProtocolId = none from found]
      exact ⟨⟨rfl, rfl⟩, rules.idle inv⟩
    | some up =>
      obtain ⟨l, linked, rfl, -, rfl⟩ := getUpMultiplexer_linked found
      have linked := wired l linked
      obtain ⟨untunnelled, raised, -, middle⟩ := StackKind.known_links s.kind l linked
      obtain ⟨labelled, own⟩ := layer_links s.kind l linked
      cases top : l.target.down with
      | none =>
        refine layer_goes rules.idle four found top (fun mpls => labels (labelled mpls)) inv ?_
        intro t u q v whole accepts processes tag told held
        exact ih (s := u.countForward l.source) (m := l.target) (p := v) (whole.kind ▸ rules) (whole.kind ▸ four)
          (whole.links ▸ whole.kind ▸ wired) (fun eth => absurd eth raised) (fun deeper => (deep deeper).trans l.rises.le)
          told (fun lower => tag.trans (untagged lower))
          (fun _ _ _ rest => way _ _ _ (.higher found top accepts processes rest)) held
      | some d =>
        obtain rfl : l.source = d := l.below d top
        have outside (carrier : s.kind.carrier = some l.target) : inside = false := by
          refine Bool.eq_false_iff.mpr fun deeper => ?_
          have higher := (deep deeper).trans_lt l.rises
          have low := middle carrier
          omega
        refine transport_goes rules wired found (own (by rw [top]; exact Option.some_ne_none l.source)) top
          (told (top_ip top)) untagged outside way inv ?_
        intro t q kept inv way
        exact ih (m := .tunnel) (kept.kind ▸ rules) (kept.kind ▸ four) (kept.links ▸ kept.kind ▸ wired)
          (fun no => absurd no (by simp)) (fun _ => Nat.le_refl 4) (fun no => absurd no (by simp))
          (fun no => absurd no (by simp)) way inv

/-- The checker of Ethernet. -/
theorem eth_ends : Ends E (fun r => Below s r.2.1 ∧ r.2.2.tag = p.tag ∧ (r.1 = true → 40 ≤ r.2.2.length))
    (s.acceptPacket T .eth p) := by
  unfold acceptPacket EthernetProtocol.check EthernetProtocol.ethernetChecker
  dsimp only
  split
  · rename_i fits
    exact ⟨⟨⟨rfl, rfl⟩, rfl, rfl⟩, rfl, fun _ => fits.1⟩
  · exact ⟨⟨⟨rfl, rfl⟩, rfl, rfl⟩, rfl, fun no => absurd no (by simp)⟩

/-- A frame goes its whole way. -/
theorem forwardRawPacket_ends {W : Mux → Multiplexer → Frame → Prop} {I J : Bool → τ → Prop}
    {C : Bool → Mux → Multiplexer → τ → Frame → Prop} (rules : Rules T s.kind W E I J C)
    (four : s.kind ≠ .lanIPv6) (wired : Wired s.kind s.links) (prepared : s.Prepared) (inv : I false s.upper)
    (raw : RawPacket) (time : Int) (way : ∀ top down r, s.Brings T raw time top down r → W top down r) :
    Ends E (fun r => Same s r.1 ∧ J false r.1.upper) (s.forwardRawPacket T raw time) := by
  have size : (s.relay .eth).registers.headerSize = 14 := congrArg Multiplexer.headerSize (prepared .eth)
  refine ends_bind_ok eth_ends ?_
  rintro ⟨accepted, t, p⟩ accepts ⟨below, tag, fits⟩
  have same : Same s t := ⟨below.kind, below.links⟩
  have upper : t.upper = s.upper := below.upper
  have held : I false t.upper := upper ▸ inv
  cases accepted with
  | false => exact ⟨same, rules.idle held⟩
  | true =>
    have long : 40 ≤ p.curr.length := fits rfl
    obtain ⟨octets, there⟩ := RawPacket.half_inside (p := p.curr) (k := 12) (by omega)
    have reads : Ends E (fun _ => True) (EthernetProtocol.getEthernetType p.toPacket) := by
      unfold EthernetProtocol.getEthernetType
      rw [there]
      trivial
    dsimp only
    simp only [if_true]
    refine ends_bind_ok reads fun type read _ => ?_
    have inside : 12 ≤ ((t.setRegisters .eth { (t.relay .eth).registers with nextProtocolId := type }).ahead
        .eth p).length := by
      show (12 : Int) ≤ p.length - _
      rw [setRegisters_registers, show t.relay = s.relay from below.relay, size]
      show (12 : Int) ≤ p.curr.length - 14
      omega
    have forwards := forwardPacket_ends (m := .eth) (p := p)
      (s := t.setRegisters .eth { (t.relay .eth).registers with nextProtocolId := type })
      (same.kind ▸ rules) (same.kind ▸ four) (same.links ▸ same.kind ▸ wired) (fun _ => inside)
      (fun deep => absurd deep (by simp)) (fun no => absurd no (by simp)) (fun _ => tag)
      (fun top down r rest => way top down r ⟨t, p, type, accepts, read, rest⟩) held depth
    exact Ending.ends_weaken forwards fun r done => ⟨same.trans ⟨done.1.kind, done.1.links⟩, done.2⟩

theorem call_ends {W : Mux → Multiplexer → Frame → Prop} {I J : Bool → τ → Prop}
    {C : Bool → Mux → Multiplexer → τ → Frame → Prop} (rules : Rules T s.kind W E I J C) (four : s.kind ≠ .lanIPv6)
    (wired : Wired s.kind s.links) (prepared : s.Prepared) (inv : I false s.upper) (c : Call)
    (way : ∀ raw time top down r, s.Brings T raw time top down r → W top down r) :
    Ends E (fun t => J false t.upper) (s.call T c) := by
  cases c with
  | frame raw time =>
    exact ends_bind (forwardRawPacket_ends rules four wired prepared inv raw time (way raw time)) fun r done => done.2
  | enableLinkLayerTagging type =>
    have upper : (s.enableLinkLayerTagging type).upper = s.upper := by
      unfold enableLinkLayerTagging addUpMultiplexer
      split
      · rfl
      · split <;> rfl
    exact rules.idle (upper.symm ▸ inv)

/-- Transports that keep to the rules from every state in `Inv`, whatever comes to them, up to what `Stuck` says of a
packet that does. -/
def Keeps (T : Transports τ) (kind : StackKind) (Inv : τ → Prop) (Stuck : τ → Mux → Multiplexer → Frame → Prop) :
    Prop :=
  ∀ (W : Mux → Multiplexer → Frame → Prop) u, Inv u →
    ∃ I J C, Rules T kind W (fun _ => ∃ top down r, W top down r ∧ Stuck u top down r) I J C ∧ I false u ∧
      ∀ v, J false v → Inv v

/-- What the transports keep, they keep in a stack. -/
theorem reached_keeps {kind : StackKind} {upper : τ} {Inv : τ → Prop}
    {Stuck : τ → Mux → Multiplexer → Frame → Prop} {past : List Call}
    (keeps : Keeps T kind Inv Stuck) (four : kind ≠ .lanIPv6) (start : Inv upper)
    (reached : Transition.run (step T) (new kind upper) past = some s) : Inv s.upper := by
  have kept : Transition.Always (step T)
      (fun s => (s.kind = kind ∧ Wired s.kind s.links ∧ s.Prepared) ∧ Inv s.upper) (new kind upper) past := by
    refine Transition.always_of_inv (fun s c t inv stepped => ?_)
      ⟨⟨rfl, wired_new kind upper, prepared_new kind upper⟩, start⟩
    obtain ⟨⟨same, wired, prepared⟩, inv⟩ := inv
    obtain ⟨I, J, C, rules, held, back⟩ := keeps (fun _ _ _ => True) s.upper inv
    obtain ⟨again, after⟩ := prepared_step wired prepared stepped
    have ends := call_ends (same ▸ rules) (same ▸ four) wired prepared held c fun _ _ _ _ _ _ => trivial
    rw [toOption_some stepped] at ends
    exact ⟨⟨again.trans same, after⟩, back _ ends⟩
  exact (Transition.always_final kept reached).2

/-- Nothing below the transports reads behind the end of a packet: a frame that does not go its whole way comes to a
transport as a packet that gets stuck there. -/
theorem reached_goes {kind : StackKind} {upper : τ} {Inv : τ → Prop} {Stuck : τ → Mux → Multiplexer → Frame → Prop}
    {past : List Call} (keeps : Keeps T kind Inv Stuck) (four : kind ≠ .lanIPv6) (start : Inv upper)
    (reached : Transition.run (step T) (new kind upper) past = some s) (raw : RawPacket) (time : Int) :
    (∃ r, s.forwardRawPacket T raw time = .ok r) ∨
      ∃ top down r, s.Brings T raw time top down r ∧ Stuck s.upper top down r := by
  obtain ⟨same, wired, prepared⟩ := reached_prepared reached
  obtain ⟨I, J, C, rules, held, -⟩ := keeps (s.Brings T raw time) s.upper (reached_keeps keeps four start reached)
  have ends := forwardRawPacket_ends (same ▸ rules) (same ▸ four) wired prepared held raw time fun _ _ _ brings => brings
  cases ran : s.forwardRawPacket T raw time with
  | ok r => exact Or.inl ⟨r, rfl⟩
  | error e =>
    rw [ran] at ends
    exact Or.inr ends

end NetworkStack

end AIEngine
