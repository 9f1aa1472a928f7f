import AIEngine.Stack.Progress
import AIEngine.Stack.Projection

/-!
# The stacks of the engine go on

The transports of a stack keep to the rules, up to what can get in their way: an application above them that
cannot work on its payload and, below a tunnel, a payload that is too short for it.
-/

namespace AIEngine

open Ending (Ends ends_bind)
open Stack (Frame)
open NetworkStack (Rules Call step forwardRawPacket)

namespace TransportLayer

open Transport (Entered Steady)

variable {E : Fault → Prop} {s : TransportLayer} {kind : Kind} {down : Multiplexer} {p : Frame} {o : Outside}
  {a : Obj} {hint : Nat}

theorem check_ends :
    Ends E (fun r => r.2.1.transport = s.transport ∧ (r.1 = true → (kind.headerSize : Int) ≤ r.2.2.length))
      (s.check kind p) := by
  cases kind with
  | tcp =>
    unfold check TCPProtocol.tcpChecker
    dsimp only
    split
    · rename_i long
      obtain ⟨h, header, -⟩ := TransportLayer.tcp_readHeader long
      rw [header]
      refine ⟨rfl, fun _ => ?_⟩
      have same : (TCPProtocol.checked h p.toPacket).length = p.length :=
        congrArg RawPacket.length (checked_curr h p.toPacket)
      exact long.trans_eq same.symm
    · exact ⟨rfl, fun no => absurd no (by simp)⟩
  | udp =>
    unfold check UDPProtocol.udpChecker
    dsimp only
    split
    · rename_i long
      exact ⟨rfl, fun _ => long⟩
    · exact ⟨rfl, fun no => absurd no (by simp)⟩

theorem segment_read (down : Multiplexer) (long : kind.headerSize ≤ p.length) : ∃ x, segment kind down p = .ok x := by
  cases kind with
  | tcp =>
    obtain ⟨h, header, -⟩ := TransportLayer.tcp_readHeader (p := p.toPacket) long
    unfold segment
    rw [header]
    exact ⟨_, rfl⟩
  | udp =>
    obtain ⟨h, header, -⟩ := TransportLayer.udp_readHeader (p := p.toPacket) long
    unfold segment
    rw [header]
    exact ⟨_, rfl⟩

theorem before_ends (steady : Steady kind s.transport) (long : kind.headerSize ≤ p.length) (down : Multiplexer)
    (o : Outside) :
    Ends E (fun r => Steady kind r.1.transport ∧ r.1.transport.Ready r.2.2) (s.before kind down p o) := by
  obtain ⟨x, read⟩ := segment_read down long
  unfold before
  rw [read]
  refine ends_bind (Q := fun y => y = x) rfl ?_
  rintro _ rfl
  refine ends_bind (Transport.enter_keeps steady) ?_
  rintro ⟨t, e⟩ left
  cases e with
  | ended | finishing a | handing a => exact left

theorem after_ends (steady : Steady kind s.transport) (member : a ∈ s.transport.table) :
    Ends E (fun r => Steady kind r.1.transport) (s.after kind a hint p) :=
  ends_bind (Transport.finish_ends steady member) fun _ done => done

/-- The payload of a packet is handed to an application that cannot work on it. -/
def Starves (s : TransportLayer) (kind : Kind) (down : Multiplexer) (p : Frame) (o : Outside) : Prop :=
  ∃ l q a, s.before kind down p o = .ok (l, q, .handing a) ∧ l.transport.Starves a o

theorem process_ends (steady : Steady kind s.transport) (long : kind.headerSize ≤ p.length) :
    Ends (fun _ => s.Starves kind down p o) (fun r => Steady kind r.1.transport) (s.process kind down p o) := by
  have enters := before_ends (E := fun _ => s.Starves kind down p o) steady long down o
  unfold process
  cases entered : s.before kind down p o with
  | error e =>
    rw [entered] at enters
    exact enters
  | ok r =>
    obtain ⟨l, q, e⟩ := r
    obtain ⟨steady, ready⟩ := Ending.ends_value enters entered
    cases e with
    | ended => exact steady
    | finishing a => exact after_ends steady (ready a (Or.inl rfl)).2
    | handing a =>
      have forwards := Transport.forwardFlow_ends (a := a) (o := o) steady.filled
      show Ends _ _ (l.transport.forwardFlow a o >>= fun t => { l with transport := t }.after kind a o.hint q)
      cases forwarded : l.transport.forwardFlow a o with
      | error e =>
        rw [forwarded] at forwards
        exact ⟨l, q, a, entered, forwards⟩
      | ok t =>
        have member : a ∈ t.table := (Transport.same_forwardFlow forwarded).table ▸ (ready a (Or.inr rfl)).2
        exact after_ends (s := { l with transport := t }) (Transport.forwardFlow_steady steady forwarded) member

end TransportLayer

namespace LanTransports

variable {E : Fault → Prop} {u v : LanTransports} {m : Mux} {p q : Frame} {down : Multiplexer} {six : Bool}
  {outside : Frame → Outside}

def Holds (P : Kind → Transport → Prop) (u : LanTransports) : Prop := ∀ kind, P kind (u.layer kind).transport

def Steady (u : LanTransports) : Prop := u.Holds Transport.Steady

/-- What comes to the checker of a transport is accepted, and gets to an application that cannot work on it. -/
def Starves (outside : Frame → Outside) (u : LanTransports) (top : Mux) (down : Multiplexer) (p : Frame) : Prop :=
  ∃ kind l q, top = kind.mux ∧ (u.layer kind).check kind p = .ok (true, l, q) ∧ l.Starves kind down q (outside q)

theorem steady_new (objects : CacheId → Nat) (registered : Option Nat) (timeout : Int) :
    (new objects registered timeout).Steady := by
  intro kind
  cases kind with
  | tcp => exact Transport.steady_start .tcp 0 objects registered timeout
  | udp => exact Transport.steady_start .udp 1 objects registered timeout

theorem Steady.of_transports (steady : u.Steady) (tcp : v.tcp.transport = u.tcp.transport)
    (udp : v.udp.transport = u.udp.transport) : v.Steady := by
  intro kind
  cases kind with
  | tcp => exact tcp.symm ▸ steady .tcp
  | udp => exact udp.symm ▸ steady .udp

theorem check_ends (top : m.down = some .ip) (steady : u.Steady) :
    Ends E (fun r => r.2.1.Steady) (check m u p) := by
  cases m with
  | tcp => exact ends_bind TransportLayer.check_ends fun r done => steady.of_transports done.1 rfl
  | udp => exact ends_bind TransportLayer.check_ends fun r done => steady.of_transports rfl done.1
  | icmp => exact steady.of_transports rfl rfl
  | _ => exact absurd top (by simp [Mux.down])

/-- A packet that was accepted is processed to its end. -/
theorem process_ends (steady : u.Steady) (checked : check m u p = .ok (true, v, q)) :
    Ends (fun _ => u.Starves outside m down p) (fun r => r.1.Steady) (process six outside m v down q) := by
  have transport (kind : Kind) {l : TransportLayer} (here : m = kind.mux)
      (accepts : (u.layer kind).check kind p = .ok (true, l, q)) :
      Ends (fun _ => u.Starves outside m down p) (fun r => Transport.Steady kind r.1.transport)
        (l.process kind down q (outside q)) := by
    have before : Ends (fun _ => False) _ ((u.layer kind).check kind p) := TransportLayer.check_ends
    rw [accepts] at before
    obtain ⟨same, long⟩ := before
    refine Ending.ends_mono (TransportLayer.process_ends (same.symm ▸ steady kind) (long rfl)) (fun _ => id) ?_
    exact fun _ starves => ⟨kind, l, q, here, accepts, starves⟩
  cases m with
  | tcp =>
    obtain ⟨⟨b, tcp, q'⟩, accepts, checked⟩ := Ending.bind_ok checked
    obtain ⟨rfl, rfl, rfl⟩ := by simpa using checked
    refine ends_bind (transport .tcp rfl accepts) fun r done => ?_
    intro kind
    cases kind with
    | tcp => exact done
    | udp => exact steady .udp
  | udp =>
    obtain ⟨⟨b, udp, q'⟩, accepts, checked⟩ := Ending.bind_ok checked
    obtain ⟨rfl, rfl, rfl⟩ := by simpa using checked
    refine ends_bind (transport .udp rfl accepts) fun r done => ?_
    intro kind
    cases kind with
    | tcp => exact steady .tcp
    | udp => exact done
  | icmp =>
    obtain ⟨accepted, rfl, rfl⟩ := by simpa [check, IcmpProtocol.icmpChecker] using checked
    have long : (8 : Int) ≤ p.curr.length := accepted
    obtain ⟨type, read⟩ := RawPacket.byte_inside (p := p.curr) (k := 0) (by omega)
    unfold process IcmpProtocol.processPacket Stack.Packet.byte
    rw [read]
    simp only [bind, Except.bind]
    generalize (if six then IcmpMessage.ofType6 type else IcmpMessage.ofType type) = message
    cases message with
    | none | some message => exact steady.of_transports rfl rfl
  | _ => exact absurd checked (by simp [check])

/-- What an untagged packet on IPv4 keeps. -/
def Kept (P : Kind → Transport → Prop) : Prop :=
  ∀ {kind s x o t}, Transport.Steady kind s → P kind s → x.address.type = 4 → x.tag = none →
    s.processPacket kind x o = .ok t → P kind t

theorem check_tag {b : Bool} {s l : TransportLayer} {kind : Kind} (checked : s.check kind p = .ok (b, l, q)) :
    q.tag = p.tag := by
  cases kind with
  | tcp =>
    obtain ⟨⟨b', t, q'⟩, -, checked⟩ := Ending.bind_ok checked
    obtain ⟨-, -, rfl⟩ := by simpa using checked
    rfl
  | udp =>
    obtain ⟨-, -, rfl⟩ := by simpa [TransportLayer.check] using checked
    rfl

theorem segment_fields {kind : Kind} {x : Packet} (read : TransportLayer.segment kind down p = .ok x) :
    x.address = down.address ∧ x.tag = p.tag := by
  cases kind with
  | tcp | udp =>
    obtain ⟨h, -, read⟩ := Ending.bind_ok read
    obtain rfl := Except.ok.inj read
    exact ⟨rfl, rfl⟩

variable {P : Kind → Transport → Prop} {w : LanTransports} {r : Frame}

theorem check_holds {b : Bool} (holds : u.Holds P) (checked : check m u p = .ok (b, v, q)) : v.Holds P := by
  intro kind
  obtain ⟨own, others⟩ := check_layer checked kind
  by_cases here : m = kind.mux
  · have fits : Ends (fun _ => False) _ ((u.layer kind).check kind p) := TransportLayer.check_ends
    rw [own here] at fits
    exact fits.1.symm ▸ holds kind
  · rw [others here]
    exact holds kind

theorem process_holds (kept : Kept P) (steady : u.Steady) (holds : u.Holds P) (four : down.address.type = 4)
    (untagged : p.tag = none) (checked : check m u p = .ok (true, v, q))
    (processed : process six outside m v down q = .ok (w, r)) : w.Holds P := by
  intro kind
  obtain ⟨own, others⟩ := check_layer checked kind
  obtain ⟨does, elsewhere⟩ := process_layer processed kind
  by_cases here : m = kind.mux
  · have fits : Ends (fun _ => False) _ ((u.layer kind).check kind p) := TransportLayer.check_ends
    rw [own here] at fits
    have same : (v.layer kind).transport = (u.layer kind).transport := fits.1
    obtain ⟨x, t, read, ran, after⟩ := TransportLayer.process_transport (does here)
    obtain ⟨address, tag⟩ := segment_fields read
    rw [same] at ran
    have done := kept (steady kind) (holds kind) (by rw [address]; exact four)
      (by rw [tag, check_tag (own here)]; exact untagged) ran
    rw [after]
    exact done
  · rw [elsewhere here, others here]
    exact holds kind

end LanTransports

theorem lan_links : ∀ l ∈ StackKind.lan.links, ∀ d ∈ l.target.down, d = .ip := by
  decide

theorem lan_rules {W : Mux → Multiplexer → Frame → Prop} {P : Kind → Transport → Prop} {u₀ : LanTransports}
    {outside : Frame → Outside} (kept : LanTransports.Kept P) (steady : u₀.Steady) (holds : u₀.Holds P) :
    Rules (lanTransports false outside) .lan W
      (fun _ => ∃ top down r, W top down r ∧ u₀.Starves outside top down r) (fun inside u => inside = false ∧ u = u₀)
      (fun _ u => u.Steady ∧ u.Holds P)
      (fun _ m d u p => ∃ q, q.tag = none ∧ W m d q ∧ LanTransports.check m u₀ q = .ok (true, u, p)) where
  ethernet := nofun
  idle same := same.2 ▸ ⟨steady, holds⟩
  check linked top lower untagged arrives same := by
    rename_i inside l d u down p
    obtain ⟨outer, rfl⟩ := same
    obtain rfl := lan_links l linked d top
    have ends := LanTransports.check_ends (E := fun _ => ∃ top down r, W top down r ∧ u.Starves outside top down r)
      (p := p) top steady
    show Ends _ _ (LanTransports.check l.target u p)
    cases checked : LanTransports.check l.target u p with
    | error e =>
      rw [checked] at ends
      exact ends
    | ok r =>
      obtain ⟨accepted, v, q⟩ := r
      cases accepted with
      | false =>
        have after := Ending.ends_value ends checked
        exact ⟨after, LanTransports.check_holds holds checked⟩
      | true => exact ⟨p, untagged outer, arrives, checked⟩
  process other four accepted := by
    rename_i inside m u d p
    obtain ⟨q, untagged, arrives, checked⟩ := accepted
    have ends : Ends (fun _ => u₀.Starves outside m d q) _ (LanTransports.process false outside m u d p) :=
      LanTransports.process_ends steady checked
    show Ends _ _ (LanTransports.process false outside m u d p)
    cases processed : LanTransports.process false outside m u d p with
    | error e =>
      rw [processed] at ends
      exact ⟨m, d, q, arrives, ends⟩
    | ok r =>
      have after := Ending.ends_value ends processed
      exact ⟨after, LanTransports.process_holds kept steady holds four untagged checked processed⟩
  before carrier := absurd carrier nofun
  after carrier := absurd carrier nofun

namespace NetworkStack

end NetworkStack

namespace TunnelTransports

variable {E : Fault → Prop} {c : Kind} {u v : TunnelTransports} {m : Mux} {p q : Frame} {down : Multiplexer}
  {outside : Frame → Outside} {around : Frame → Surroundings}

structure Steady (c : Kind) (u : TunnelTransports) : Prop where
  carrier : Transport.Steady c u.carrier.transport
  above : u.above.Steady

/-- What comes to the carrier is a packet of a flow that has its tunnel, with a payload that the tunnel reads behind
the end of. -/
def Short (kind : StackKind) (c : Kind) (outside : Frame → Outside) (u : TunnelTransports) (top : Mux)
    (down : Multiplexer) (p : Frame) : Prop :=
  top = c.mux ∧ ∃ l q l' q' a, u.carrier.check c p = .ok (true, l, q) ∧
    l.before c down q (outside q) = .ok (l', q', .handing a) ∧ (l'.transport.flow a).forwarder.isSome ∧
      0 < q'.length ∧ q'.length < kind.reach

/-- What comes to a transport above the tunnel gets to an application that cannot work on it. -/
def Starves (outside : Frame → Outside) (u : TunnelTransports) (top : Mux) (down : Multiplexer) (p : Frame) : Prop :=
  ∃ m, top.lowered = some m ∧ u.above.Starves outside m down p

theorem steady_new (c : Kind) (objects : CacheId → Nat) (registered : Option Nat) (timeout : Int) :
    (new objects registered timeout).Steady c where
  carrier := Transport.steady_start c 2 objects registered timeout
  above := LanTransports.steady_new objects registered timeout

/-- The packet that the tunnel has been given is still at its flow. -/
def Waiting (u : TunnelTransports) : Prop :=
  ∀ a, u.carrier.transport.currentFlow = some a → a ∈ u.carrier.transport.table

/-- Before a packet, and in the tunnel. -/
def Idle (c : Kind) (u₀ : TunnelTransports) : Bool → TunnelTransports → Prop
  | false, u => u = u₀
  | true, u => u.above = u₀.above ∧ Transport.Steady c u.carrier.transport ∧ u.Waiting

def Busy (c : Kind) : Bool → TunnelTransports → Prop
  | false, u => u.Steady c
  | true, u => u.Steady c ∧ u.Waiting

theorem Idle.busy {u₀ : TunnelTransports} {inside : Bool} (steady : u₀.Steady c) (idle : Idle c u₀ inside u) :
    Busy c inside u := by
  cases inside with
  | false => exact idle ▸ steady
  | true =>
    obtain ⟨above, carrier, waiting⟩ := idle
    exact ⟨⟨carrier, above ▸ steady.above⟩, waiting⟩

theorem check_carrier {b : Bool} (checked : check c c.mux u p = .ok (b, v, q)) :
    u.carrier.check c p = .ok (b, v.carrier, q) ∧ v.above = u.above := by
  unfold check at checked
  rw [if_pos rfl] at checked
  obtain ⟨⟨b', layer, q'⟩, accepts, checked⟩ := Ending.bind_ok checked
  obtain ⟨rfl, rfl, rfl⟩ := by simpa using checked
  exact ⟨accepts, rfl⟩

theorem check_above {b : Bool} (other : m ≠ c.mux) (checked : check c m u p = .ok (b, v, q)) :
    ∃ m', m.lowered = some m' ∧ LanTransports.check m' u.above p = .ok (b, v.above, q) ∧ v.carrier = u.carrier := by
  unfold check at checked
  rw [if_neg other] at checked
  cases lower : m.lowered with
  | none =>
    rw [lower] at checked
    exact absurd checked (by simp)
  | some m' =>
    rw [lower] at checked
    obtain ⟨⟨b', above, q'⟩, accepts, checked⟩ := Ending.bind_ok checked
    obtain ⟨rfl, rfl, rfl⟩ := by simpa using checked
    exact ⟨m', rfl, accepts, rfl⟩

theorem marked_steady {s : TransportLayer} {a : Obj} (steady : Transport.Steady c s.transport) (back : Handback) :
    Transport.Steady c (marked s a back).transport where
  sound := steady.sound.same (Transport.same_setFlow s.transport rfl)
  range tcp := steady.range tcp
  filled := Transport.setFlow_filled steady.filled _

section Rules

variable {kind : StackKind} {u₀ : TunnelTransports} {inside : Bool} (steady : u₀.Steady c)

include steady

theorem check_ends (top : m = c.mux ∨ ∃ m', m.lowered = some m' ∧ m'.down = some .ip)
    (outer : inside = true → m ≠ c.mux) (idle : Idle c u₀ inside u) :
    Ends E (fun r => Busy c inside r.2.1) (check c m u p) := by
  by_cases carrier : m = c.mux
  · subst carrier
    obtain rfl : inside = false := Bool.eq_false_iff.mpr fun deep => outer deep rfl
    obtain rfl : u = u₀ := idle
    unfold check
    rw [if_pos rfl]
    exact ends_bind TransportLayer.check_ends fun r done => ⟨done.1.symm ▸ steady.carrier, steady.above⟩
  · obtain ⟨m', lower, top⟩ := top.resolve_left carrier
    have busy := idle.busy steady
    unfold check
    rw [if_neg carrier, lower]
    have above : u.above.Steady := by
      cases inside with
      | false => exact busy.above
      | true => exact busy.1.above
    refine ends_bind (LanTransports.check_ends top above) fun r done => ?_
    cases inside with
    | false => exact ⟨busy.carrier, done⟩
    | true => exact ⟨⟨busy.1.carrier, done⟩, busy.2⟩

theorem process_ends (other : m ≠ c.mux) (idle : Idle c u₀ inside u) (checked : check c m u p = .ok (true, v, q)) :
    Ends (fun _ => u₀.Starves outside m down p) (fun r => Busy c inside r.1) (process outside m v down q) := by
  obtain ⟨m', lower, accepts, same⟩ := check_above other checked
  have unmoved : u.above = u₀.above := by
    cases inside with
    | false => exact congrArg TunnelTransports.above idle
    | true => exact idle.1
  rw [unmoved] at accepts
  unfold process
  rw [lower]
  have processed : Ends (fun _ => u₀.above.Starves outside m' down p) (fun r => r.1.Steady)
      (LanTransports.process false outside m' v.above down q) := LanTransports.process_ends steady.above accepts
  have ends := Ending.ends_mono processed (fun _ => id)
    fun _ starves => (⟨m', lower, starves⟩ : u₀.Starves outside m down p)
  refine ends_bind ends fun r done => ?_
  have busy := idle.busy steady
  unfold Busy at busy ⊢
  cases inside with
  | false => exact ⟨same.symm ▸ busy.carrier, done⟩
  | true =>
    refine ⟨⟨same.symm ▸ busy.1.carrier, done⟩, fun a current => ?_⟩
    have waiting := busy.2
    unfold Waiting at waiting
    rw [← same] at waiting
    exact waiting a current

theorem before_ends (checked : check c c.mux u₀ p = .ok (true, v, q)) :
    Ends (fun _ => u₀.Short kind c outside c.mux down p)
      (fun r =>
        if let some h := r.2.2 then
          Idle c u₀ true r.1 ∧ (h.attached = true → kind.Readable r.2.1.toPacket ∨
            ∀ _ : Fault, u₀.Short kind c outside c.mux down p)
        else Busy c false r.1) (before c outside around v down q) := by
  obtain ⟨accepts, above⟩ := check_carrier checked
  have fits : Ends (fun _ => False) _ (u₀.carrier.check c p) := TransportLayer.check_ends
  rw [accepts] at fits
  obtain ⟨same, long⟩ := fits
  have enters := TransportLayer.before_ends (E := fun _ => u₀.Short kind c outside c.mux down p)
    (same.symm ▸ steady.carrier) (long rfl) down (outside q)
  unfold before
  cases entered : v.carrier.before c down q (outside q) with
  | error e =>
    rw [entered] at enters
    exact enters
  | ok r =>
    obtain ⟨l, q', e⟩ := r
    obtain ⟨carrier, ready⟩ := Ending.ends_value enters entered
    refine ends_bind (Q := fun r => r = (l, q', e)) rfl ?_
    rintro _ rfl
    cases e with
    | ended => exact ⟨carrier, above ▸ steady.above⟩
    | finishing a =>
      exact ends_bind (TransportLayer.after_ends carrier (ready a (Or.inl rfl)).2)
        fun r done => ⟨done, above ▸ steady.above⟩
    | handing a =>
      obtain ⟨current, member⟩ := ready a (Or.inr rfl)
      refine ⟨⟨above, carrier, fun b known => ?_⟩, fun attached => ?_⟩
      · obtain rfl := Option.some.inj (current.symm.trans known)
        exact member
      · by_cases readable : kind.Readable q'.toPacket
        · exact Or.inl readable
        · have short : 0 < q'.length ∧ q'.length < kind.reach := by
            unfold StackKind.Readable at readable
            omega
          exact Or.inr fun _ => ⟨rfl, v.carrier, q, l, q', a, accepts, entered, attached, short⟩

omit steady in
theorem after_ends {back : Option Handback} (busy : Busy c back.isSome u) :
    Ends E (fun r => Busy c false r.1) (after c outside u p back) := by
  cases back with
  | none => exact busy
  | some back =>
    unfold after
    split
    · rename_i known a one current
      obtain rfl := Option.some.inj one
      have marked : Transport.Steady c (marked u.carrier a back).transport := marked_steady busy.1.carrier back
      exact ends_bind (TransportLayer.after_ends marked (busy.2 a current)) fun r done => ⟨done, busy.1.above⟩
    · exact busy.1

end Rules

end TunnelTransports

theorem tunnel_links (kind : StackKind) (c : Kind) (carrier : kind.carrier = some c.mux) :
    ∀ l ∈ kind.links, l.target.down ≠ none →
      l.target = c.mux ∨ ∃ m, l.target.lowered = some m ∧ m.down = some .ip := by
  revert carrier
  cases kind <;> cases c <;> decide

theorem tunnel_rules {W : Mux → Multiplexer → Frame → Prop} {kind : StackKind} {c : Kind} {u₀ : TunnelTransports}
    {outside : Frame → Outside} {around : Frame → Surroundings} (carrier : kind.carrier = some c.mux)
    (ethernet : kind ≠ .mobile) (steady : u₀.Steady c) :
    Rules (tunnelTransports c outside around) kind W
      (fun _ => ∃ top down r, W top down r ∧
        (u₀.Starves outside top down r ∨ u₀.Short kind c outside top down r))
      (TunnelTransports.Idle c u₀) (TunnelTransports.Busy c)
      (fun inside m d u p => ∃ v q, TunnelTransports.Idle c u₀ inside v ∧ W m d q ∧
        TunnelTransports.check c m v q = .ok (true, u, p)) where
  ethernet := ethernet
  idle idle := idle.busy steady
  check linked top lower untagged arrives idle := by
    rename_i inside l d u down p
    have ends := TunnelTransports.check_ends
      (E := fun _ => ∃ top down r, W top down r ∧
        (u₀.Starves outside top down r ∨ u₀.Short kind c outside top down r))
      (p := p) steady (tunnel_links kind c carrier l linked (by rw [top]; exact nofun))
      (fun deep same => lower deep (same ▸ carrier)) idle
    show Ends _ _ (TunnelTransports.check c l.target u p)
    cases checked : TunnelTransports.check c l.target u p with
    | error e =>
      rw [checked] at ends
      exact ends
    | ok r =>
      obtain ⟨accepted, v, q⟩ := r
      cases accepted with
      | false =>
        have after := Ending.ends_value ends checked
        exact after
      | true => exact ⟨u, p, idle, arrives, checked⟩
  process other _ accepted := by
    obtain ⟨v, q, idle, arrives, checked⟩ := accepted
    refine Ending.ends_mono (TunnelTransports.process_ends steady ?_ idle checked) (fun _ => id)
      fun _ starves => ⟨_, _, q, arrives, Or.inl starves⟩
    rintro rfl
    exact other carrier
  before same _ accepted := by
    obtain rfl := Option.some.inj (carrier.symm.trans same)
    obtain ⟨v, q, rfl, arrives, checked⟩ := accepted
    refine Ending.ends_mono (TunnelTransports.before_ends steady checked) (fun r held => ?_)
      fun _ (short : v.Short kind c outside c.mux _ q) => ⟨_, _, q, arrives, Or.inr short⟩
    cases handed : r.2.2 with
    | none =>
      rw [handed] at held
      exact held
    | some h =>
      rw [handed] at held
      refine ⟨held.1, fun attached => ?_⟩
      rcases held.2 attached with readable | short
      · exact Or.inl readable
      · exact Or.inr fun e => ⟨_, _, q, arrives, Or.inr (short e)⟩
  after _ busy := TunnelTransports.after_ends busy

namespace NetworkStack

end NetworkStack

end AIEngine
