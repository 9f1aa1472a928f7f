import AIEngine.Library.Agreement
import AIEngine.Stack.Balance

/-!
# What a stack keeps of a packet

A multiplexer is told by its layer what to do with a packet, and keeps it. Whatever is kept is replaced before
it is looked at again, so the packets before have no part in what happens to a frame, unless by what the
transports know of them.
-/

namespace AIEngine

open Agreement
open Ending (bind_ok)
open Stack (Frame)
open StackKind (Wired known_links)

/-! ### Counters are not looked at -/

theorem GREProtocol.greChecker_agree (gre gre' : LayerTotals) (p : Stack.Packet) :
    Agree (fun a b => a.1 = b.1) (greChecker gre p) (greChecker gre' p) := by
  unfold greChecker
  split
  · exact agree_bind_same fun protocol => rfl
  · exact rfl

theorem IPProtocol.ipChecker_agree (ip ip' : IPProtocol) (p : Stack.Packet) :
    Agree (fun a b => a.1 = b.1) (ip.ipChecker p) (ip'.ipChecker p) := by
  unfold ipChecker
  split
  · refine agree_bind_same fun four => ?_
    cases four <;> exact rfl
  · exact rfl

theorem IPv6Protocol.ip6Checker_agree (ip ip' : IPv6Protocol) (p : Stack.Packet) :
    Agree (fun a b => a.1 = b.1) (ip.ip6Checker p) (ip'.ip6Checker p) := by
  unfold ip6Checker
  split
  · refine agree_bind_same fun six => ?_
    cases six <;> exact rfl
  · exact rfl

/-- A packet that is too short leaves the pointer where it was. -/
theorem GprsTunnel.gprsChecker_agree {gprs gprs' : GprsTunnel} (header : gprs.header = gprs'.header) (address : Nat)
    (p : Stack.Packet) :
    Agree (fun a b => a.1 = b.1 ∧ a.2.header = b.2.header) (gprs.gprsChecker address p)
      (gprs'.gprsChecker address p) := by
  unfold gprsChecker
  split
  · exact agree_bind_same fun flags => ⟨rfl, rfl⟩
  · exact ⟨rfl, header⟩

theorem VxLanProtocol.vxlanChecker_agree (vxlan vxlan' : LayerTotals) (p : Stack.Packet) :
    Agree (fun a b => a.1 = b.1) (vxlanChecker vxlan p) (vxlanChecker vxlan' p) := by
  unfold vxlanChecker
  split
  · exact agree_bind_same fun flags => rfl
  · exact rfl

theorem OpenFlowProtocol.openflowChecker_agree (of of' : OpenFlowProtocol) (p : Stack.Packet) :
    Agree (fun a b => a.1 = b.1) (of.openflowChecker p) (of'.openflowChecker p) := by
  unfold openflowChecker
  split
  · exact agree_bind_same fun version => rfl
  · exact rfl

theorem MPLSProtocol.mplsChecker_fst (mpls mpls' : MPLSProtocol) (p : Stack.Packet) :
    (mpls.mplsChecker p).1 = (mpls'.mplsChecker p).1 := by
  unfold mplsChecker
  split <;> rfl

namespace IPv6Protocol

variable {p : Stack.Packet}

theorem visit_agree (ip ip' : IPv6Protocol) (p : Stack.Packet) (w : Scan) :
    Agree (fun a b => a.1 = b.1 ∧ a.2.2 = b.2.2) (visit ip p w) (visit ip' p w) := by
  unfold visit
  split
  · exact agree_bind_same fun next => agree_bind_same fun len => ⟨rfl, rfl⟩
  · exact agree_bind_same fun next => agree_bind_same fun len => ⟨rfl, rfl⟩
  all_goals exact ⟨rfl, rfl⟩

theorem loop_agree (ip ip' : IPv6Protocol) (p : Stack.Packet) (w : Scan) (n : Nat) :
    Agree (fun a b => a.1 = b.1 ∧ a.2.2 = b.2.2) (loop ip p w n) (loop ip' p w n) := by
  induction n generalizing ip ip' p w with
  | zero => exact ⟨rfl, rfl⟩
  | succ n ih =>
    unfold loop
    refine agree_bind (visit_agree ip ip' p w) ?_
    rintro ⟨out, ip₁, p₁, w₁⟩ ⟨out', ip₂, p₂, w₂⟩ ⟨rfl, same⟩
    obtain ⟨rfl, rfl⟩ := Prod.mk.inj same
    cases out with
    | again => exact ih ip₁ ip₂ p₁ w₁
    | forward | stop => exact ⟨rfl, rfl⟩

end IPv6Protocol

/-! ### The registers of a multiplexer -/

namespace IPAddress

/-- Without the addresses of IPv4. -/
def wipe (a : IPAddress) : IPAddress := (a.setSourceAddress 0).setDestinationAddress 0

def wipe6 (a : IPAddress) : IPAddress := (a.setSourceAddress6 {}).setDestinationAddress6 {}

end IPAddress

namespace StackKind

/-- What is in the registers before a packet comes and will be there for it: the rest is replaced. -/
def wipe (kind : StackKind) (m : Mux) (r : Multiplexer) : Multiplexer :=
  match m with
  | .eth => { r with nextProtocolId := 0 }
  | .vlan | .mpls | .gre | .ethVir => { r with headerSize := 0, nextProtocolId := 0 }
  | .ip =>
    if kind = .lanIPv6 then
      { r with address := r.address.wipe6, totalLength := 0, headerSize := 0, nextProtocolId := 0 }
    else { r with address := r.address.wipe, totalLength := 0, nextProtocolId := 0 }
  | .ipVir => { r with address := r.address.wipe, totalLength := 0, nextProtocolId := 0 }
  | .tunnel => { r with headerSize := if kind = .openFlow then 0 else r.headerSize, nextProtocolId := 0 }
  | .udp | .tcp | .icmp | .udpVir | .tcpVir | .icmpVir => r

end StackKind

section Layers

variable {kind : StackKind} {r r' : Multiplexer}

theorem VLanProtocol.processPacket_agree (vlan vlan' : LayerTotals) (p : Stack.Packet)
    (same : kind.wipe .vlan r = kind.wipe .vlan r') :
    Agree (fun a b => a.2 = b.2 ∧ kind.wipe .vlan a.2.1 = kind.wipe .vlan r)
      (processPacket vlan r p) (processPacket vlan' r' p) := by
  refine agree_bind_same fun type => ⟨?_, rfl⟩
  have replaced := congrArg (fun w : Multiplexer =>
    { w with nextProtocolId := type, headerSize := headerSize }) same
  exact congrArg (fun w : Multiplexer => (w, { p with prevHeaderSize := headerSize })) replaced

theorem MPLSProtocol.processPacket_agree (mpls mpls' : MPLSProtocol) (p : Stack.Packet)
    (same : kind.wipe .mpls r = kind.wipe .mpls r') :
    Agree (fun a b => a.1 = b.1 ∧ a.2.2 = b.2.2 ∧ kind.wipe .mpls (a.2.2.1.getD {}) = kind.wipe .mpls r)
      (mpls.processPacket (some r) p) (mpls'.processPacket (some r') p) := by
  refine agree_bind_same fun w => ⟨rfl, ?_, rfl⟩
  have replaced := congrArg (fun m : Multiplexer =>
    { m with headerSize := w.mplsHeaderSize, nextProtocolId := ethertypeIp }) same
  exact congrArg (fun m : Multiplexer => (some m, { p with prevHeaderSize := w.mplsHeaderSize })) replaced

theorem GREProtocol.processPacket_agree (gre gre' : LayerTotals) (p : Stack.Packet)
    (same : kind.wipe .gre r = kind.wipe .gre r') :
    (processPacket gre r p).2 = (processPacket gre' r' p).2 ∧
      kind.wipe .gre (processPacket gre r p).2.1 = kind.wipe .gre r := by
  have replaced := congrArg (fun w : Multiplexer =>
    { w with nextProtocolId := 0, headerSize := headerSize }) same
  exact ⟨congrArg (fun w : Multiplexer => (w, { p with prevHeaderSize := headerSize })) replaced, rfl⟩

theorem EthernetProtocol.processPacket_agree (eth eth' : LayerTotals) (p : Stack.Packet)
    (same : kind.wipe .ethVir r = kind.wipe .ethVir r') :
    Agree (fun a b => a.2 = b.2 ∧ kind.wipe .ethVir a.2.1 = kind.wipe .ethVir r)
      (processPacket eth r p) (processPacket eth' r' p) := by
  refine agree_bind_same fun type => ⟨?_, rfl⟩
  have replaced := congrArg (fun w : Multiplexer =>
    { w with nextProtocolId := type, headerSize := headerSize }) same
  exact congrArg (fun w : Multiplexer => (w, { p with prevHeaderSize := headerSize })) replaced

theorem IPProtocol.processPacket_agree (ip ip' : IPProtocol) (p : Stack.Packet)
    (same : kind.wipe .ipVir r = kind.wipe .ipVir r') :
    Agree (fun a b => a.1 = b.1 ∧ a.2.2 = b.2.2 ∧ kind.wipe .ipVir a.2.2.1 = kind.wipe .ipVir r)
      (ip.processPacket r p) (ip'.processPacket r' p) := by
  unfold processPacket
  refine agree_bind_same fun h => ?_
  have replaced := congrArg (fun w : Multiplexer => { w with
    address := (w.address.setSourceAddress h.source).setDestinationAddress h.destination
    totalLength := BitVec.ofInt 16 (bytes h p)
    nextProtocolId := h.protocol.setWidth 16 }) same
  dsimp only
  split
  · exact ⟨rfl, congrArg (fun w : Multiplexer => (w, _)) replaced, rfl⟩
  · exact ⟨rfl, congrArg (fun w : Multiplexer => (w, _)) replaced, rfl⟩

/-- A packet that stays may leave the size of the header as it was. -/
theorem IPv6Protocol.processPacket_agree (ip ip' : IPv6Protocol) (p : Stack.Packet)
    (six : kind = .lanIPv6) (same : kind.wipe .ip r = kind.wipe .ip r') :
    Agree (fun a b => a.1 = b.1 ∧ (a.1 = true → a.2.2 = b.2.2) ∧
        kind.wipe .ip a.2.2.1 = kind.wipe .ip r ∧ kind.wipe .ip b.2.2.1 = kind.wipe .ip r)
      (ip.processPacket r p) (ip'.processPacket r' p) := by
  subst six
  unfold processPacket
  refine agree_bind_same fun next => agree_bind_same fun source => agree_bind_same fun destination => ?_
  refine agree_bind (loop_agree ip ip' p { nextProto := next } 3) ?_
  rintro ⟨out, ip₁, p₁, w⟩ ⟨out', ip₂, p₂, w'⟩ ⟨rfl, rest⟩
  obtain ⟨rfl, rfl⟩ := Prod.mk.inj rest
  cases out with
  | forward =>
    have replaced := congrArg (fun m : Multiplexer => { m with
      address := (m.address.setSourceAddress6 source).setDestinationAddress6 destination
      totalLength := BitVec.ofInt 16 p.length
      headerSize := headerSize + w.extensionLength
      nextProtocolId := w.nextProto.setWidth 16 }) same
    exact ⟨rfl, fun _ => congrArg (fun m : Multiplexer => (m, _)) replaced, rfl, same.symm⟩
  | stop => exact ⟨rfl, fun goes => absurd goes (by simp), rfl, same.symm⟩
  | again => exact ⟨rfl, fun goes => absurd goes (by simp), rfl, same.symm⟩

/-- The packet to forward. -/
def Content.inner : Content → Option Frame
  | .packet q => some q
  | _ => none

/-- What two tunnels leave behind, for the same packet if there is one in it. -/
structure SameInner (kind : StackKind) (r : Multiplexer) (a b : Multiplexer × Content) : Prop where
  content : a.2 = b.2
  registers : a.2.inner.isSome → a.1 = b.1
  left : kind.wipe .tunnel a.1 = kind.wipe .tunnel r
  right : kind.wipe .tunnel b.1 = kind.wipe .tunnel r

/-- No packet is in the tunnel. -/
theorem sameInner_kept {content : Content} (same : kind.wipe .tunnel r = kind.wipe .tunnel r')
    (none : content.inner = none) : SameInner kind r (r, content) (r', content) :=
  ⟨rfl, fun some => absurd some (by simp [none]), rfl, same.symm⟩

theorem GprsTunnel.dispatch_agree {gprs gprs' : GprsTunnel} (header : gprs.header = gprs'.header)
    (memory : Nat → BitVec 8) (p : Frame) (mobile : kind = .mobile)
    (same : kind.wipe .tunnel r = kind.wipe .tunnel r') :
    Agree (fun a b => a.1.header = b.1.header ∧ SameInner kind r a.2 b.2) (gprs.dispatch r memory p)
      (gprs'.dispatch r' memory p) := by
  have nothing : SameInner kind r (r, .nothing) (r', .nothing) := sameInner_kept same rfl
  unfold dispatch
  cases GtpMessage.ofType (memory 1) with
  | none => exact ⟨header, nothing⟩
  | some message =>
    cases message with
    | tPdu =>
      subst mobile
      have replaced := congrArg (fun m : Multiplexer =>
        { m with nextProtocolId := EthernetProtocol.ethertypeIp }) same
      exact ⟨header, rfl, fun _ => replaced, rfl, same.symm⟩
    | createPdpContextRequest =>
      dsimp only
      unfold processCreatePdpContext
      cases GtpHeader.createPdpContext fun i => some (memory i) with
      | none => exact rfl
      | some found => exact ⟨header, sameInner_kept same rfl⟩
    | _ => exact ⟨header, nothing⟩

theorem GprsTunnel.processFlow_agree {gprs gprs' : GprsTunnel} (header : gprs.header = gprs'.header)
    (around : Surroundings) (p : Frame) (mobile : kind = .mobile)
    (same : kind.wipe .tunnel r = kind.wipe .tunnel r') :
    Agree (fun a b => a.1.header = b.1.header ∧ SameInner kind r a.2 b.2) (gprs.processFlow r around p)
      (gprs'.processFlow r' around p) := by
  unfold processFlow
  dsimp only
  split
  · rw [← header]
    cases gprs.header with
    | none => exact rfl
    | some place => exact dispatch_agree (by rfl) _ p mobile same
  · exact ⟨header, sameInner_kept same rfl⟩

theorem VxLanProtocol.processFlow_agree (vxlan vxlan' : LayerTotals) (p : Frame)
    (virtual : kind = .virtual) (same : kind.wipe .tunnel r = kind.wipe .tunnel r') :
    Agree (fun a b => SameInner kind r (a.2.1, .ofInner a.2.2) (b.2.1, .ofInner b.2.2)) (processFlow vxlan r p)
      (processFlow vxlan' r' p) := by
  unfold processFlow
  dsimp only
  split
  · subst virtual
    have replaced := congrArg (fun m : Multiplexer => { m with nextProtocolId := 0 }) same
    exact agree_bind_same fun vni => ⟨rfl, fun _ => replaced, rfl, same.symm⟩
  · exact sameInner_kept same rfl

theorem OpenFlowProtocol.processFlow_agree (of of' : OpenFlowProtocol) (p : Frame)
    (openFlow : kind = .openFlow) (same : kind.wipe .tunnel r = kind.wipe .tunnel r') :
    Agree (fun a b => SameInner kind r (a.2.1, .ofInner a.2.2) (b.2.1, .ofInner b.2.2)) (of.processFlow r p)
      (of'.processFlow r' p) := by
  have nothing : SameInner kind r (r, .nothing) (r', .nothing) := sameInner_kept same rfl
  unfold processFlow
  dsimp only
  split
  · refine agree_bind_same fun type => ?_
    cases OfpMessage.ofType type with
    | none => exact nothing
    | some message =>
      cases message with
      | packetIn =>
        subst openFlow
        have replaced := congrArg (fun m : Multiplexer =>
          { m with headerSize := pktinHeaderSize, nextProtocolId := 0 }) same
        exact ⟨rfl, fun _ => replaced, rfl, same.symm⟩
      | _ => exact nothing
  · exact nothing

end Layers

/-! ### Two stacks with the same transports -/

namespace NetworkStack

variable {τ : Type} {T : Transports τ} {s s' t t' : NetworkStack τ} {m up : Mux} {p : Frame}
  {forward : NetworkStack τ → Mux → Frame → Except Fault (NetworkStack τ × Frame)}

/-- The registers are those of the constructor, up to what is replaced. -/
def Prepared (s : NetworkStack τ) : Prop :=
  ∀ m, s.kind.wipe m (s.relay m).registers = s.kind.wipe m { headerSize := s.kind.headerSize m }

/-- Two stacks that differ in their counters, and in what is replaced. -/
structure Alike (s t : NetworkStack τ) : Prop where
  kind : s.kind = t.kind
  links : s.links = t.links
  upper : s.upper = t.upper
  header : s.gprs.header = t.gprs.header
  wired : Wired s.kind s.links
  left : s.Prepared
  right : t.Prepared

/-- A packet is at the same place in both. -/
structure AlikeAt (m : Mux) (s t : NetworkStack τ) : Prop extends Alike s t where
  here : (s.relay m).registers = (t.relay m).registers

theorem Alike.wiped (alike : Alike s t) (m : Mux) :
    s.kind.wipe m (s.relay m).registers = s.kind.wipe m (t.relay m).registers := by
  rw [alike.left m, alike.kind, alike.right m]

/-- Where nothing is replaced, the registers are the same. -/
theorem Alike.unwiped (alike : Alike s t) (kept : ∀ (kind : StackKind) r, kind.wipe m r = r) :
    (s.relay m).registers = (t.relay m).registers := by
  have wiped := alike.wiped m
  rwa [kept, kept] at wiped

@[simp] theorem setRegisters_registers (r : Multiplexer) : ((s.setRegisters m r).relay m).registers = r := by
  simp [setRegisters, setRelay]

theorem prepared_setRegisters {r : Multiplexer} (prepared : s.Prepared)
    (renewed : s.kind.wipe m r = s.kind.wipe m (s.relay m).registers) : (s.setRegisters m r).Prepared := by
  intro k
  by_cases same : k = m
  · subst same
    rw [setRegisters_registers]
    exact renewed.trans (prepared k)
  · have untouched : (s.setRegisters m r).relay k = s.relay k := if_neg same
    rw [untouched]
    exact prepared k

theorem alike_setRegisters {r : Multiplexer} (alike : Alike s t)
    (renewed : s.kind.wipe m r = s.kind.wipe m (s.relay m).registers) :
    AlikeAt m (s.setRegisters m r) (t.setRegisters m r) where
  kind := alike.kind
  links := alike.links
  upper := alike.upper
  header := alike.header
  wired := alike.wired
  left := prepared_setRegisters alike.left renewed
  right := prepared_setRegisters alike.right (by rw [← alike.kind, renewed, alike.wiped])
  here := by rw [setRegisters_registers, setRegisters_registers]

theorem alike_setRegisters_apart {r r' : Multiplexer} (alike : Alike s t)
    (left : s.kind.wipe m r = s.kind.wipe m (s.relay m).registers)
    (right : s.kind.wipe m r' = s.kind.wipe m (s.relay m).registers) :
    Alike (s.setRegisters m r) (t.setRegisters m r') where
  kind := alike.kind
  links := alike.links
  upper := alike.upper
  header := alike.header
  wired := alike.wired
  left := prepared_setRegisters alike.left left
  right := prepared_setRegisters alike.right (by rw [← alike.kind, right, alike.wiped])

/-- What becomes of one packet in both. -/
structure Answered (s t : NetworkStack τ) (a b : Bool × NetworkStack τ × Frame) : Prop where
  answer : a.1 = b.1
  alike : Alike a.2.1 b.2.1
  left : a.2.1.relay = s.relay
  right : b.2.1.relay = t.relay
  packet : a.2.2 = b.2.2

theorem acceptPacket_agree (alike : Alike s t) (m : Mux) (p : Frame) :
    Agree (Answered s t) (s.acceptPacket T m p) (t.acceptPacket T m p) := by
  have still : Alike s t := alike
  obtain ⟨kind, links, upper, header, wired, left, right⟩ := alike
  cases m with
  | eth | vlan | ethVir => exact ⟨rfl, ⟨kind, links, upper, header, wired, left, right⟩, rfl, rfl, rfl⟩
  | tunnel => exact ⟨rfl, still, rfl, rfl, rfl⟩
  | mpls =>
    exact ⟨MPLSProtocol.mplsChecker_fst _ _ _, ⟨kind, links, upper, header, wired, left, right⟩, rfl, rfl, rfl⟩
  | ip =>
    unfold acceptPacket checkIP
    by_cases six : s.kind = .lanIPv6
    · dsimp only
      rw [if_pos six, if_pos (kind ▸ six)]
      refine agree_bind (IPv6Protocol.ip6Checker_agree s.ip6 t.ip6 p.toPacket) ?_
      rintro ⟨b, ip⟩ ⟨_, ip'⟩ rfl
      exact ⟨rfl, ⟨kind, links, upper, header, wired, left, right⟩, rfl, rfl, rfl⟩
    · dsimp only
      rw [if_neg six, if_neg (kind ▸ six)]
      refine agree_bind (IPProtocol.ipChecker_agree s.ip t.ip p.toPacket) ?_
      rintro ⟨b, ip⟩ ⟨_, ip'⟩ rfl
      exact ⟨rfl, ⟨kind, links, upper, header, wired, left, right⟩, rfl, rfl, rfl⟩
  | gre =>
    refine agree_bind (GREProtocol.greChecker_agree s.gre t.gre p.toPacket) ?_
    rintro ⟨b, gre⟩ ⟨_, gre'⟩ rfl
    exact ⟨rfl, ⟨kind, links, upper, header, wired, left, right⟩, rfl, rfl, rfl⟩
  | ipVir =>
    refine agree_bind (IPProtocol.ipChecker_agree s.ipVir t.ipVir p.toPacket) ?_
    rintro ⟨b, ip⟩ ⟨_, ip'⟩ rfl
    exact ⟨rfl, ⟨kind, links, upper, header, wired, left, right⟩, rfl, rfl, rfl⟩
  | udp | tcp | icmp | udpVir | tcpVir | icmpVir =>
    unfold acceptPacket
    dsimp only
    rw [upper]
    refine agree_bind_same fun ⟨b, u, q⟩ => ⟨rfl, ⟨kind, links, rfl, header, wired, left, right⟩, rfl, rfl, rfl⟩

theorem tunnelChecker_agree (alike : Alike s t) (address : Nat) (p : Frame) :
    Agree (fun a b => a.1 = b.1 ∧ Alike a.2 b.2) (s.tunnelChecker address p) (t.tunnelChecker address p) := by
  rcases s with ⟨kind⟩
  rcases t with ⟨kind'⟩
  obtain rfl : kind = kind' := alike.kind
  cases kind with
  | lan | lanIPv6 => exact ⟨rfl, alike⟩
  | mobile =>
    refine agree_bind (GprsTunnel.gprsChecker_agree alike.header address p.toPacket) ?_
    rintro ⟨b, gprs⟩ ⟨_, gprs'⟩ ⟨rfl, header⟩
    exact ⟨rfl, rfl, alike.links, alike.upper, header, alike.wired, alike.left, alike.right⟩
  | virtual =>
    refine agree_bind (VxLanProtocol.vxlanChecker_agree _ _ p.toPacket) ?_
    rintro ⟨b, vxlan⟩ ⟨_, vxlan'⟩ rfl
    exact ⟨rfl, rfl, alike.links, alike.upper, alike.header, alike.wired, alike.left, alike.right⟩
  | openFlow =>
    refine agree_bind (OpenFlowProtocol.openflowChecker_agree _ _ p.toPacket) ?_
    rintro ⟨b, of⟩ ⟨_, of'⟩ rfl
    exact ⟨rfl, rfl, alike.links, alike.upper, alike.header, alike.wired, alike.left, alike.right⟩

/-- The same packet is in both tunnels, if there is one. -/
structure AlikeInner (a b : NetworkStack τ × Content) : Prop where
  alike : Alike a.1 b.1
  content : a.2 = b.2
  here : a.2.inner.isSome → (a.1.relay .tunnel).registers = (b.1.relay .tunnel).registers

theorem alike_opened {r r' : Multiplexer} {content content' : Content} (alike : Alike s t)
    (same : SameInner s.kind (s.relay .tunnel).registers (r, content) (r', content')) :
    AlikeInner (s.setRegisters .tunnel r, content) (t.setRegisters .tunnel r', content') where
  alike := alike_setRegisters_apart alike same.left same.right
  content := same.content
  here some := by
    rw [setRegisters_registers, setRegisters_registers]
    exact same.registers some

theorem openTunnel_agree (alike : Alike s t) (h : Handed) (p : Frame) :
    Agree AlikeInner (s.openTunnel h p) (t.openTunnel h p) := by
  rcases s with ⟨kind⟩
  rcases t with ⟨kind'⟩
  obtain rfl : kind = kind' := alike.kind
  have wiped := alike.wiped .tunnel
  cases kind with
  | lan | lanIPv6 => exact ⟨alike, rfl, fun some => absurd some (by simp [Content.inner])⟩
  | mobile =>
    refine agree_bind (GprsTunnel.processFlow_agree alike.header h.around p rfl wiped) ?_
    rintro ⟨gprs, r, content⟩ ⟨gprs', r', content'⟩ ⟨header, same⟩
    exact alike_opened ⟨rfl, alike.links, alike.upper, header, alike.wired, alike.left, alike.right⟩ same
  | virtual =>
    refine agree_bind (VxLanProtocol.processFlow_agree _ _ p rfl wiped) ?_
    rintro ⟨vxlan, r, inner⟩ ⟨vxlan', r', inner'⟩ same
    exact alike_opened ⟨rfl, alike.links, alike.upper, alike.header, alike.wired, alike.left, alike.right⟩ same
  | openFlow =>
    refine agree_bind (OpenFlowProtocol.processFlow_agree _ _ p rfl wiped) ?_
    rintro ⟨of, r, inner⟩ ⟨of', r', inner'⟩ same
    exact alike_opened ⟨rfl, alike.links, alike.upper, alike.header, alike.wired, alike.left, alike.right⟩ same

/-- What goes on from a multiplexer does so alike. -/
def GoesAlike (forward : NetworkStack τ → Mux → Frame → Except Fault (NetworkStack τ × Frame)) (m : Mux) :
    Prop :=
  ∀ s t p, AlikeAt m s t → Agree (fun a b => Alike a.1 b.1 ∧ a.2 = b.2) (forward s m p) (forward t m p)

theorem runTunnel_agree (alike : Alike s t) (goes : GoesAlike forward .tunnel) (h : Handed) (p : Frame) :
    Agree (fun a b => Alike a.1 b.1 ∧ a.2 = b.2) (s.runTunnel forward h p) (t.runTunnel forward h p) := by
  unfold runTunnel
  refine agree_bind (openTunnel_agree alike h p) ?_
  rintro ⟨s', content⟩ ⟨t', content'⟩ opened
  obtain ⟨alike', rfl, here⟩ := opened
  cases content with
  | nothing | context => exact ⟨alike', rfl⟩
  | packet inner =>
    refine agree_bind (goes s' t' inner ⟨alike', here rfl⟩) ?_
    rintro ⟨s'', q⟩ ⟨t'', _⟩ ⟨alike'', rfl⟩
    exact ⟨alike'', by rw [show s''.kind = t''.kind from alike''.kind]⟩

theorem forwardFlow_agree (alike : Alike s t) (goes : GoesAlike forward .tunnel) (h : Handed) (p : Frame) :
    Agree (fun a b => Alike a.1 b.1 ∧ a.2 = b.2) (s.forwardFlow forward h p) (t.forwardFlow forward h p) := by
  unfold forwardFlow
  split
  · exact runTunnel_agree alike goes h p
  · refine agree_bind (tunnelChecker_agree alike h.around.address p) ?_
    rintro ⟨accepted, s'⟩ ⟨_, t'⟩ ⟨rfl, alike'⟩
    cases accepted with
    | true => exact runTunnel_agree alike' goes h p
    | false => exact ⟨alike', rfl⟩

theorem Alike.process (alike : Alike s t) (u : τ) : Alike { s with upper := u } { t with upper := u } :=
  ⟨alike.kind, alike.links, rfl, alike.header, alike.wired, alike.left, alike.right⟩

theorem processCarrier_agree (alike : Alike s t) (goes : GoesAlike forward .tunnel) (down : Multiplexer)
    (p : Frame) :
    Agree (fun a b => Alike a.1 b.1 ∧ a.2 = b.2) (s.processCarrier T forward up down p)
      (t.processCarrier T forward up down p) := by
  unfold processCarrier
  rw [alike.upper]
  refine agree_bind_same fun ⟨u, q, handed⟩ => ?_
  cases handed with
  | none => exact agree_bind_same fun ⟨u', q'⟩ => ⟨alike.process u', rfl⟩
  | some h =>
    refine agree_bind (forwardFlow_agree (alike.process u) goes h q) ?_
    rintro ⟨s', q', back⟩ ⟨t', _⟩ ⟨alike', rfl⟩
    dsimp only
    rw [alike'.upper]
    exact agree_bind_same fun ⟨u', q''⟩ => ⟨alike'.process u', rfl⟩

/-- A transport looks at the multiplexer that gave it the packet. -/
theorem processTransport_agree (alike : AlikeAt m s t) (below : ∀ d ∈ up.down, m = d)
    (goes : GoesAlike forward .tunnel) (p : Frame) :
    Agree (fun a b => Alike a.1 b.1 ∧ a.2 = b.2) (s.processTransport T forward up p)
      (t.processTransport T forward up p) := by
  have same (down : Multiplexer) : Agree (fun a b => Alike a.1 b.1 ∧ a.2 = b.2)
      (if s.kind.carrier = some up then s.processCarrier T forward up down p
        else T.process up s.upper down p >>= fun r => .ok ({ s with upper := r.1 }, r.2))
      (if t.kind.carrier = some up then t.processCarrier T forward up down p
        else T.process up t.upper down p >>= fun r => .ok ({ t with upper := r.1 }, r.2)) := by
    by_cases carrier : s.kind.carrier = some up
    · rw [if_pos carrier, if_pos (alike.kind ▸ carrier)]
      exact processCarrier_agree alike.toAlike goes down p
    · rw [if_neg carrier, if_neg (alike.kind ▸ carrier), alike.upper]
      exact agree_bind_same fun r => ⟨alike.process r.1, rfl⟩
  unfold processTransport
  cases found : up.down with
  | none => exact same {}
  | some d =>
    obtain rfl := below d found
    dsimp only
    rw [alike.here]
    exact same _

/-- What becomes of one packet in both, when a layer lets it go on or not. -/
structure Onward (up : Mux) (a b : Bool × NetworkStack τ × Frame) : Prop where
  goes : a.1 = b.1
  alike : Alike a.2.1 b.2.1
  here : a.1 = true → (a.2.1.relay up).registers = (b.2.1.relay up).registers
  packet : a.1 = true → a.2.2 = b.2.2

theorem processIP_agree (alike : Alike s t) (p : Frame) :
    Agree (Onward .ip) (s.processIP p) (t.processIP p) := by
  have wiped := alike.wiped .ip
  obtain ⟨kind, links, upper, header, wired, left, right⟩ := alike
  unfold processIP
  by_cases six : s.kind = .lanIPv6
  · rw [if_pos six, if_pos (kind ▸ six)]
    refine agree_bind (IPv6Protocol.processPacket_agree s.ip6 t.ip6 p.toPacket six wiped) ?_
    rintro ⟨g, ip, r, q⟩ ⟨_, ip', r', q'⟩ ⟨rfl, rest, renewed, renewed'⟩
    have same : Alike ({ s with ip6 := ip }.setRegisters .ip r) ({ t with ip6 := ip' }.setRegisters .ip r') :=
      alike_setRegisters_apart ⟨kind, links, upper, header, wired, left, right⟩ renewed renewed'
    refine ⟨rfl, same, fun goes => ?_, fun goes => ?_⟩
    · rw [setRegisters_registers, setRegisters_registers]
      exact congrArg Prod.fst (rest goes)
    · exact congrArg (fun q => ({ p with toPacket := q } : Frame)) (congrArg Prod.snd (rest goes))
  · rw [if_neg six, if_neg (kind ▸ six)]
    have wiped4 : s.kind.wipe .ipVir (s.relay .ip).registers = s.kind.wipe .ipVir (t.relay .ip).registers := by
      simpa [StackKind.wipe, six] using wiped
    refine agree_bind (IPProtocol.processPacket_agree s.ip t.ip p.toPacket wiped4) ?_
    rintro ⟨g, ip, r, q⟩ ⟨_, ip', r', q'⟩ ⟨rfl, rest, renewed⟩
    obtain ⟨rfl, rfl⟩ := Prod.mk.inj rest
    have renewed4 : s.kind.wipe .ip r = s.kind.wipe .ip (s.relay .ip).registers := by
      simpa [StackKind.wipe, six] using renewed
    have same : AlikeAt .ip ({ s with ip := ip }.setRegisters .ip r)
        ({ t with ip := ip' }.setRegisters .ip r) :=
      alike_setRegisters ⟨kind, links, upper, header, wired, left, right⟩ renewed4
    exact ⟨rfl, same.toAlike, fun _ => same.here, fun _ => rfl⟩

theorem packetFunc_agree (alike : AlikeAt m s t) (below : ∀ d ∈ up.down, m = d) (inside : up ≠ .tunnel)
    (above : up ≠ .eth) (goes : GoesAlike forward .tunnel) (p : Frame) :
    Agree (Onward up) (s.packetFunc T forward up p) (t.packetFunc T forward up p) := by
  have wiped := alike.wiped up
  have still := alike.toAlike
  obtain ⟨kind, links, upper, header, wired, left, right⟩ := still
  cases up with
  | eth => exact absurd rfl above
  | tunnel => exact absurd rfl inside
  | vlan =>
    refine agree_bind (VLanProtocol.processPacket_agree s.vlan t.vlan p.toPacket wiped) ?_
    rintro ⟨vlan, r, q⟩ ⟨vlan', _⟩ ⟨rfl, renewed⟩
    have same : AlikeAt .vlan ({ s with vlan := vlan }.setRegisters .vlan r)
        ({ t with vlan := vlan' }.setRegisters .vlan r) :=
      alike_setRegisters ⟨kind, links, upper, header, wired, left, right⟩ renewed
    exact ⟨rfl, same.toAlike, fun _ => same.here, fun _ => rfl⟩
  | mpls =>
    refine agree_bind (MPLSProtocol.processPacket_agree s.mpls t.mpls p.toPacket wiped) ?_
    rintro ⟨g, mpls, r, q⟩ ⟨_, mpls', r', q'⟩ ⟨rfl, rest, renewed⟩
    obtain ⟨rfl, rfl⟩ := Prod.mk.inj rest
    have same : AlikeAt .mpls ({ s with mpls := mpls }.setRegisters .mpls (r.getD {}))
        ({ t with mpls := mpls' }.setRegisters .mpls (r.getD {})) :=
      alike_setRegisters ⟨kind, links, upper, header, wired, left, right⟩ renewed
    exact ⟨rfl, same.toAlike, fun _ => same.here, fun _ => rfl⟩
  | ip => exact processIP_agree alike.toAlike p
  | gre =>
    obtain ⟨rest, renewed⟩ := GREProtocol.processPacket_agree s.gre t.gre p.toPacket wiped
    unfold packetFunc
    dsimp only
    generalize GREProtocol.processPacket s.gre (s.relay .gre).registers p.toPacket = a at rest renewed ⊢
    generalize GREProtocol.processPacket t.gre (t.relay .gre).registers p.toPacket = b at rest ⊢
    obtain ⟨gre, r, q⟩ := a
    obtain ⟨gre', r', q'⟩ := b
    obtain ⟨rfl, rfl⟩ := Prod.mk.inj rest
    have same : AlikeAt .gre ({ s with gre := gre }.setRegisters .gre r)
        ({ t with gre := gre' }.setRegisters .gre r) :=
      alike_setRegisters ⟨kind, links, upper, header, wired, left, right⟩ renewed
    exact ⟨rfl, same.toAlike, fun _ => same.here, fun _ => rfl⟩
  | ethVir =>
    refine agree_bind (EthernetProtocol.processPacket_agree s.ethernetVir t.ethernetVir p.toPacket wiped) ?_
    rintro ⟨eth, r, q⟩ ⟨eth', _⟩ ⟨rfl, renewed⟩
    have same : AlikeAt .ethVir ({ s with ethernetVir := eth }.setRegisters .ethVir r)
        ({ t with ethernetVir := eth' }.setRegisters .ethVir r) :=
      alike_setRegisters ⟨kind, links, upper, header, wired, left, right⟩ renewed
    exact ⟨rfl, same.toAlike, fun _ => same.here, fun _ => rfl⟩
  | ipVir =>
    refine agree_bind (IPProtocol.processPacket_agree s.ipVir t.ipVir p.toPacket wiped) ?_
    rintro ⟨g, ip, r, q⟩ ⟨_, ip', r', q'⟩ ⟨rfl, rest, renewed⟩
    obtain ⟨rfl, rfl⟩ := Prod.mk.inj rest
    have same : AlikeAt .ipVir ({ s with ipVir := ip }.setRegisters .ipVir r)
        ({ t with ipVir := ip' }.setRegisters .ipVir r) :=
      alike_setRegisters ⟨kind, links, upper, header, wired, left, right⟩ renewed
    exact ⟨rfl, same.toAlike, fun _ => same.here, fun _ => rfl⟩
  | udp | tcp | icmp | udpVir | tcpVir | icmpVir =>
    refine agree_bind (processTransport_agree alike below goes p) ?_
    rintro ⟨s', q⟩ ⟨t', _⟩ ⟨alike', rfl⟩
    exact ⟨rfl, alike', fun _ => alike'.unwiped fun _ _ => rfl, fun _ => rfl⟩

/-! ### The counters of a multiplexer -/

theorem registers_countReceived (k : Mux) :
    ((s.countReceived m).relay k).registers = (s.relay k).registers := by
  by_cases same : k = m
  · simp [countReceived, setRelay, same]
  · simp [countReceived, setRelay, same]

theorem registers_countForward (k : Mux) :
    ((s.countForward m).relay k).registers = (s.relay k).registers := by
  by_cases same : k = m
  · simp [countForward, setRelay, same]
  · simp [countForward, setRelay, same]

theorem registers_countFail (k : Mux) : ((s.countFail m).relay k).registers = (s.relay k).registers := by
  by_cases same : k = m
  · simp [countFail, setRelay, same]
  · simp [countFail, setRelay, same]

/-- Counters that change leave two stacks alike. -/
theorem Alike.counted (alike : Alike s t) {s' t' : NetworkStack τ} (left : Same s s') (right : Same t t')
    (upper : s'.upper = t'.upper) (header : s'.gprs.header = t'.gprs.header) (registers : ∀ k, (s'.relay k).registers = (s.relay k).registers)
    (registers' : ∀ k, (t'.relay k).registers = (t.relay k).registers) : Alike s' t' where
  kind := by rw [left.kind, right.kind, alike.kind]
  links := by rw [left.links, right.links, alike.links]
  upper := upper
  header := header
  wired := by
    rw [left.kind, left.links]
    exact alike.wired
  left := by
    intro k
    rw [registers k, left.kind]
    exact alike.left k
  right := by
    intro k
    rw [registers' k, right.kind]
    exact alike.right k

theorem forwardPacket_agree (n : Nat) (m : Mux) : GoesAlike (forwardPacket T n) m := by
  induction n generalizing m with
  | zero => exact fun s t p alike => ⟨alike.toAlike, rfl⟩
  | succ n ih =>
    intro s t p alike
    have received : AlikeAt m (s.countReceived m) (t.countReceived m) :=
      ⟨alike.counted ⟨rfl, rfl⟩ ⟨rfl, rfl⟩ alike.upper alike.header registers_countReceived registers_countReceived,
        by rw [registers_countReceived, registers_countReceived, alike.here]⟩
    have found : (s.countReceived m).getUpMultiplexer m
          ((s.countReceived m).relay m).registers.nextProtocolId =
        (t.countReceived m).getUpMultiplexer m ((t.countReceived m).relay m).registers.nextProtocolId := by
      unfold getUpMultiplexer
      rw [received.links, received.here]
    have candidate : (s.countReceived m).candidate m p = (t.countReceived m).candidate m p := by
      unfold NetworkStack.candidate
      rw [received.here]
    rw [forwardPacket, forwardPacket]
    dsimp only
    rw [← found, ← candidate]
    cases next : (s.countReceived m).getUpMultiplexer m
        ((s.countReceived m).relay m).registers.nextProtocolId with
    | none =>
      exact ⟨received.counted ⟨rfl, rfl⟩ ⟨rfl, rfl⟩ received.upper received.header registers_countFail registers_countFail, rfl⟩
    | some up =>
      obtain ⟨l, linked, rfl, -, rfl⟩ := getUpMultiplexer_linked next
      obtain ⟨inside, above, -⟩ := known_links _ l (received.wired l linked)
      refine agree_bind (acceptPacket_agree received.toAlike l.target _) ?_
      rintro ⟨accepted, s', q⟩ ⟨_, t', _⟩ ⟨rfl, alike', left, right, rfl⟩
      have at' : AlikeAt l.source s' t' :=
        ⟨alike', by rw [show s'.relay = _ from left, show t'.relay = _ from right, received.here]⟩
      cases accepted with
      | false => exact ⟨alike', rfl⟩
      | true =>
        refine agree_bind (packetFunc_agree at' l.below inside above (ih .tunnel) q) ?_
        rintro ⟨goes, s'', q'⟩ ⟨_, t'', q''⟩ ⟨rfl, alike'', here, packet⟩
        cases goes with
        | false => exact ⟨alike'', rfl⟩
        | true =>
          obtain rfl : q' = q'' := packet rfl
          have onward : AlikeAt l.target (s''.countForward l.source) (t''.countForward l.source) :=
            ⟨alike''.counted ⟨rfl, rfl⟩ ⟨rfl, rfl⟩ alike''.upper alike''.header registers_countForward registers_countForward,
              by rw [registers_countForward, registers_countForward]; exact here rfl⟩
          refine agree_bind (ih l.target _ _ q' onward) ?_
          rintro ⟨s₃, q₃⟩ ⟨t₃, _⟩ ⟨alike₃, rfl⟩
          exact ⟨alike₃, rfl⟩

/-- A frame, whose type Ethernet has read before. -/
theorem forwardRawPacket_agree (alike : Alike s t) (raw : RawPacket) (time : Int) :
    Agree (fun a b => Alike a.1 b.1 ∧ a.2 = b.2) (s.forwardRawPacket T raw time)
      (t.forwardRawPacket T raw time) := by
  unfold forwardRawPacket
  refine agree_bind (acceptPacket_agree alike .eth _) ?_
  rintro ⟨accepted, s', p⟩ ⟨_, t', _⟩ ⟨rfl, alike', left, right, rfl⟩
  cases accepted with
  | false => exact ⟨alike', rfl⟩
  | true =>
    refine agree_bind_same fun type => ?_
    have typed : ({ (s'.relay .eth).registers with nextProtocolId := type } : Multiplexer) =
        { (t'.relay .eth).registers with nextProtocolId := type } :=
      congrArg (fun m : Multiplexer => { m with nextProtocolId := type }) (alike'.wiped .eth)
    refine forwardPacket_agree depth .eth _ _ p ?_
    dsimp only
    rw [← typed]
    exact alike_setRegisters alike' rfl

theorem call_agree (alike : Alike s t) (c : Call) : Agree Alike (s.call T c) (t.call T c) := by
  cases c with
  | frame raw time =>
    refine agree_bind (forwardRawPacket_agree alike raw time) ?_
    rintro ⟨s', p⟩ ⟨t', _⟩ ⟨alike', -⟩
    exact alike'
  | enableLinkLayerTagging type =>
    have wired := wired_enableLinkLayerTagging alike.wired type
    obtain ⟨kind, links, upper, header, -, left, right⟩ := alike
    show Alike (s.enableLinkLayerTagging type) (t.enableLinkLayerTagging type)
    unfold enableLinkLayerTagging addUpMultiplexer at wired ⊢
    by_cases vlan : type = "vlan"
    · simp only [if_pos vlan] at wired ⊢
      exact ⟨kind, congrArg (fun ls => _ :: _ :: ls) links, upper, header, wired, left, right⟩
    · simp only [if_neg vlan] at wired ⊢
      by_cases mpls : type = "mpls"
      · simp only [if_pos mpls] at wired ⊢
        exact ⟨kind, congrArg (fun ls => _ :: _ :: ls) links, upper, header, wired, left, right⟩
      · simp only [if_neg mpls] at wired ⊢
        exact ⟨kind, links, upper, header, wired, left, right⟩

theorem prepared_new (kind : StackKind) (upper : τ) : (new kind upper).Prepared := fun _ => rfl

theorem step_agree (s t : NetworkStack τ) (c : Call) (alike : Alike s t) :
    Option.Rel Alike (step T s c) (step T t c) :=
  agree_toOption (call_agree alike c)

theorem prepared_step {c : Call} (wired : Wired s.kind s.links) (prepared : s.Prepared)
    (stepped : step T s c = some t) : t.kind = s.kind ∧ Wired t.kind t.links ∧ t.Prepared := by
  have self := step_agree (T := T) s s c ⟨rfl, rfl, rfl, rfl, wired, prepared, prepared⟩
  rw [stepped] at self
  cases self with
  | some alike => exact ⟨kind_step wired stepped, alike.wired, alike.left⟩

/-- What a stack is made for does not change, and its registers are always ready for a frame. -/
theorem reached_prepared {kind : StackKind} {upper : τ} {past : List Call}
    (reached : Transition.run (step T) (new kind upper) past = some s) :
    s.kind = kind ∧ Wired s.kind s.links ∧ s.Prepared := by
  have kept : Transition.Always (step T)
      (fun s => s.kind = kind ∧ Wired s.kind s.links ∧ s.Prepared) (new kind upper) past := by
    refine Transition.always_of_inv (fun s c t inv stepped => ?_)
      ⟨rfl, wired_new kind upper, prepared_new kind upper⟩
    obtain ⟨same, wired, prepared⟩ := inv
    obtain ⟨kept, after⟩ := prepared_step wired prepared stepped
    exact ⟨kept.trans same, after⟩
  have final := Transition.always_final kept reached
  exact final

/-- What the transports are, and what comes back to the dispatcher, when a frame follows some calls. -/
def observe (T : Transports τ) (s : NetworkStack τ) (future : List Call) (raw : RawPacket) (time : Int) :
    Option (Except Fault (τ × Frame)) :=
  (Transition.run (step T) s future).map fun t =>
    (t.forwardRawPacket T raw time).map fun (t', p) => (t'.upper, p)

/-- Stacks of one kind that have been through different calls do the same with whatever comes, as soon as
they have the same links and the same transports, and the header pointer of GPRS is at the same place. -/
theorem observe_eq {kind : StackKind} {upper upper' : τ} {past past' : List Call}
    (reached : Transition.run (step T) (new kind upper) past = some s)
    (reached' : Transition.run (step T) (new kind upper') past' = some t)
    (links : s.links = t.links) (known : s.upper = t.upper) (pointer : s.gprs.header = t.gprs.header) (future : List Call) (raw : RawPacket)
    (time : Int) : observe T s future raw time = observe T t future raw time := by
  obtain ⟨kinds, wired, left⟩ := reached_prepared reached
  obtain ⟨kinds', -, right⟩ := reached_prepared reached'
  have alike : Alike s t := ⟨kinds.trans kinds'.symm, links, known, pointer, wired, left, right⟩
  have later := Transition.run_rel (step_agree (T := T)) alike future
  unfold observe
  generalize Transition.run (step T) s future = r at later ⊢
  generalize Transition.run (step T) t future = r' at later ⊢
  cases later with
  | none => rfl
  | some alike =>
    refine congrArg some (agree_map_eq (forwardRawPacket_agree alike raw time) ?_)
    rintro ⟨s', p⟩ ⟨t', _⟩ ⟨alike', rfl⟩
    exact congrArg (fun u => (u, p)) alike'.upper

/-- The frame that is refused leaves its trace in Ethernet alone. -/
theorem observe_eq_refused :
    ∃ s t, Transition.run (step quiet) (quietStack .lan) [.frame noPacket 0, .frame udpFrame 1] = some s ∧
      Transition.run (step quiet) (quietStack .lan) [.frame udpFrame 1] = some t ∧
      (s.ethernet.malformedPackets, s.answers quiet .udp true) = (1, 1) ∧
      (t.ethernet.malformedPackets, t.answers quiet .udp true) = (0, 1) ∧
      observe quiet s [.enableLinkLayerTagging "mpls"] udpFrame 7 =
        observe quiet t [.enableLinkLayerTagging "mpls"] udpFrame 7 := by
  let refused : NetworkStack LanTransports := { quietStack .lan with ethernet := { malformedPackets := 1 } }
  let counts (s : NetworkStack LanTransports) := (s.ethernet.malformedPackets, s.answers quiet .udp true)
  have counted : (step quiet refused (.frame udpFrame 1)).map counts = some (1, 1) := by decide +kernel
  have counted' : (step quiet (quietStack .lan) (.frame udpFrame 1)).map counts = some (0, 1) := by decide +kernel
  obtain ⟨s, stepped, first⟩ := Option.map_eq_some_iff.mp counted
  obtain ⟨t, stepped', second⟩ := Option.map_eq_some_iff.mp counted'
  have alike : Alike refused (quietStack .lan) :=
    have prepared := prepared_new .lan (quietStack .lan).upper
    ⟨rfl, rfl, rfl, rfl, wired_new .lan (quietStack .lan).upper, prepared, prepared⟩
  have after := step_agree (T := quiet) _ _ (.frame udpFrame 1) alike
  rw [stepped, stepped'] at after
  have run : Transition.run (step quiet) (quietStack .lan) [.frame noPacket 0, .frame udpFrame 1] = some s := by
    have refuses : step quiet (quietStack .lan) (.frame noPacket 0) = some refused := rfl
    rw [Transition.run_cons, refuses, Option.bind_some, Transition.run_cons, stepped]
    rfl
  have run' : Transition.run (step quiet) (quietStack .lan) [.frame udpFrame 1] = some t := by
    rw [Transition.run_cons, stepped']
    rfl
  cases after with
  | some after =>
    exact ⟨s, t, run, run', first, second, observe_eq run run' after.links after.upper after.header _ _ _⟩

end NetworkStack

end AIEngine
