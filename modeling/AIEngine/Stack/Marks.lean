import AIEngine.Stack.Completion
import AIEngine.Stack.Evidence

/-!
# What a frame of a LAN is to the transports

A frame is one packet of one transport, or none at all. It comes back marked if the flow that heard the packet has
evidence by then.
-/

namespace AIEngine

open Ending (Ends bind_ok)
open Stack (Frame)
open StackKind (Wired)

/-- The flow has evidence when `processPacket` looks at it. -/
def Transport.evident (o : Outside) : Transport × Transport.Entered → Bool
  | (_, .ended) => false
  | (s, .finishing a) => (s.flow a).haveEvidence
  | (s, .handing a) =>
    match s.forwardFlow a o with
    | .ok s => (s.flow a).haveEvidence
    | .error _ => false

namespace NetworkStack

variable {τ : Type} {T : Transports τ} {s t : NetworkStack τ} {m up : Mux} {p q : Frame} {b : Bool}
  {raw : RawPacket} {time : Int}

/-- The layers below the transports neither know them nor mark a packet. -/
structure Beneath (s : NetworkStack τ) (p : Frame) (t : NetworkStack τ) (q : Frame) : Prop extends Same s t where
  upper : t.upper = s.upper
  evidence : q.evidence = p.evidence
  time : q.time = p.time

theorem acceptPacket_beneath (layer : up.down = none) (accepts : s.acceptPacket T up p = .ok (b, t, q)) :
    Beneath s p t q := by
  cases up with
  | udp | tcp | icmp | udpVir | tcpVir | icmpVir => exact absurd layer (by simp [Mux.down])
  | eth | vlan | mpls | ethVir | tunnel =>
    obtain ⟨-, rfl, rfl⟩ := by simpa [acceptPacket] using accepts
    exact ⟨⟨rfl, rfl⟩, rfl, rfl, rfl⟩
  | gre | ipVir =>
    obtain ⟨r, -, accepts⟩ := bind_ok accepts
    obtain ⟨-, rfl, rfl⟩ := by simpa using accepts
    exact ⟨⟨rfl, rfl⟩, rfl, rfl, rfl⟩
  | ip =>
    unfold acceptPacket checkIP at accepts
    dsimp only at accepts
    split at accepts
    · obtain ⟨r, -, accepts⟩ := bind_ok accepts
      obtain ⟨-, rfl, rfl⟩ := by simpa using accepts
      exact ⟨⟨rfl, rfl⟩, rfl, rfl, rfl⟩
    · obtain ⟨r, -, accepts⟩ := bind_ok accepts
      obtain ⟨-, rfl, rfl⟩ := by simpa using accepts
      exact ⟨⟨rfl, rfl⟩, rfl, rfl, rfl⟩

theorem packetFunc_beneath {forward : NetworkStack τ → Mux → Frame → Except Fault (NetworkStack τ × Frame)}
    (layer : up.down = none) (ran : s.packetFunc T forward up p = .ok (b, t, q)) : Beneath s p t q := by
  cases up with
  | udp | tcp | icmp | udpVir | tcpVir | icmpVir => exact absurd layer (by simp [Mux.down])
  | eth | tunnel | gre =>
    obtain ⟨-, rfl, rfl⟩ := by simpa [packetFunc] using ran
    exact ⟨⟨rfl, rfl⟩, rfl, rfl, rfl⟩
  | vlan | mpls | ethVir | ipVir =>
    obtain ⟨r, -, ran⟩ := bind_ok ran
    obtain ⟨-, rfl, rfl⟩ := by simpa using ran
    exact ⟨⟨rfl, rfl⟩, rfl, rfl, rfl⟩
  | ip =>
    unfold packetFunc processIP at ran
    dsimp only at ran
    split at ran
    · obtain ⟨r, -, ran⟩ := bind_ok ran
      obtain ⟨-, rfl, rfl⟩ := by simpa using ran
      exact ⟨⟨rfl, rfl⟩, rfl, rfl, rfl⟩
    · obtain ⟨r, -, ran⟩ := bind_ok ran
      obtain ⟨-, rfl, rfl⟩ := by simpa using ran
      exact ⟨⟨rfl, rfl⟩, rfl, rfl, rfl⟩

/-- Nothing, or one packet for one transport. -/
inductive Delivers (T : Transports τ) (time : Int) (u : τ) : τ → Bool → Prop where
  | nothing : Delivers T time u u false
  | packet {up d : Mux} {down : Multiplexer} {p : Frame} {u' : τ} {b : Bool} (top : up.down = some d)
      (now : p.time = time) (unmarked : p.evidence = false) (delivers : deliver T up u down p = .ok (u', b)) :
      Delivers T time u u' b

theorem evidence_back (unmarked : p.evidence = false) :
    (if q.evidence then { p with evidence := true } else p).evidence = q.evidence := by
  cases marked : q.evidence with
  | true => rfl
  | false => simpa using unmarked

theorem delivers_top {n : Nat} {d : Mux} (wired : Wired s.kind s.links) (plain : s.kind.carrier = none)
    (unmarked : p.evidence = false)
    (found : (s.countReceived m).getUpMultiplexer m ((s.countReceived m).relay m).registers.nextProtocolId = some up)
    (top : up.down = some d) (ran : forwardPacket T (n + 1) s m p = .ok (t, q)) :
    Delivers T p.time s.upper t.upper q.evidence := by
  obtain ⟨l, linked, rfl, -, rfl⟩ := getUpMultiplexer_linked found
  obtain rfl := l.below d top
  rw [registers_countReceived] at found
  have whole := forwardPacket_deliver (T := T) (p := p) wired top (by rw [plain]; simp) found n
  rw [ran, unmarked] at whole
  have clean : (s.ahead l.source p).evidence = false := unmarked
  have now : (s.ahead l.source p).time = p.time := rfl
  cases delivers : deliver T l.target s.upper (s.relay l.source).registers (s.ahead l.source p) with
  | error f =>
    rw [delivers] at whole
    exact absurd whole (by simp [Except.map])
  | ok r =>
    rw [delivers] at whole
    have same : (t.upper, q.evidence) = (r.1, false || r.2) := Except.ok.inj whole
    rw [Bool.false_or] at same
    obtain rfl : r = (t.upper, q.evidence) := same.symm
    exact .packet top now clean delivers

/-- The mark of the packet that was carried up goes down to the one it came from. -/
theorem forwardPacket_delivers {n : Nat} (wired : Wired s.kind s.links) (plain : s.kind.carrier = none)
    (unmarked : p.evidence = false) (ran : forwardPacket T n s m p = .ok (t, q)) :
    Delivers T p.time s.upper t.upper q.evidence := by
  induction n generalizing s m p t q with
  | zero =>
    obtain ⟨rfl, rfl⟩ := by simpa [forwardPacket] using ran
    rw [unmarked]
    exact .nothing
  | succ n ih =>
    have forwarded := ran
    rw [forwardPacket] at ran
    dsimp only at ran
    split at ran
    · obtain ⟨rfl, rfl⟩ := by simpa using ran
      rw [unmarked]
      exact .nothing
    · rename_i up found
      obtain ⟨⟨accepted, s₁, p₁⟩, accepts, ran⟩ := bind_ok ran
      cases top : up.down with
      | none =>
        have below := acceptPacket_beneath top accepts
        cases accepted with
        | false =>
          obtain ⟨rfl, rfl⟩ := by simpa using ran
          rw [unmarked, below.upper]
          exact .nothing
        | true =>
          obtain ⟨⟨goes, s₂, p₂⟩, processes, ran⟩ := bind_ok ran
          have above := packetFunc_beneath top processes
          have upper : s₂.upper = s.upper := above.upper.trans below.upper
          cases goes with
          | false =>
            obtain ⟨rfl, rfl⟩ := by simpa using ran
            rw [unmarked, upper]
            exact .nothing
          | true =>
            obtain ⟨⟨t', q'⟩, forwards, ran⟩ := bind_ok ran
            obtain ⟨rfl, rfl⟩ := by simpa using ran
            have kind : (s₂.countForward m).kind = s.kind := above.kind.trans below.kind
            have links : (s₂.countForward m).links = s.links := above.links.trans below.links
            have carried := ih (s := s₂.countForward m) (by rw [kind, links]; exact wired)
              (by rw [kind]; exact plain) (above.evidence.trans (below.evidence.trans unmarked)) forwards
            have now : p₂.time = p.time := above.time.trans below.time
            rw [show (s₂.countForward m).upper = s.upper from upper, now] at carried
            rw [evidence_back unmarked]
            exact carried
      | some d => exact delivers_top wired plain unmarked found top forwarded

theorem forwardRawPacket_delivers (wired : Wired s.kind s.links) (plain : s.kind.carrier = none)
    (ran : s.forwardRawPacket T raw time = .ok (t, q)) :
    Delivers T time s.upper t.upper q.evidence := by
  unfold forwardRawPacket at ran
  obtain ⟨⟨accepted, s₁, p⟩, accepts, ran⟩ := bind_ok ran
  have below := acceptPacket_beneath rfl accepts
  cases accepted with
  | false =>
    obtain ⟨rfl, rfl⟩ := by simpa using ran
    rw [below.evidence, below.upper]
    exact .nothing
  | true =>
    obtain ⟨type, -, ran⟩ := bind_ok ran
    have now : p.time = time := below.time
    rw [← below.upper, ← now]
    exact forwardPacket_delivers (s := s₁.setRegisters .eth _)
      (by rw [show (s₁.setRegisters .eth _).kind = s.kind from below.kind,
            show (s₁.setRegisters .eth _).links = s.links from below.links]; exact wired)
      (below.kind ▸ plain) below.evidence ran

end NetworkStack

namespace TransportLayer

variable {s s' : TransportLayer} {kind : Kind} {down : Multiplexer} {p q : Frame} {o : Outside}

theorem check_transport {b : Bool} (checked : s.check kind p = .ok (b, s', q)) :
    s'.transport = s.transport ∧ q.evidence = p.evidence ∧ q.time = p.time := by
  have fits : Ends (fun _ => False) _ (s.check kind p) := check_ends
  rw [checked] at fits
  refine ⟨fits.1, ?_⟩
  cases kind with
  | tcp =>
    obtain ⟨r, -, checked⟩ := bind_ok checked
    obtain ⟨-, -, rfl⟩ := by simpa using checked
    exact ⟨rfl, rfl⟩
  | udp =>
    obtain ⟨-, -, rfl⟩ := by simpa [check] using checked
    exact ⟨rfl, rfl⟩

theorem after_evidence {a : Obj} {hint : Nat} (unmarked : p.evidence = false)
    (finished : s.after kind a hint p = .ok (s', q)) : q.evidence = (s.transport.flow a).haveEvidence := by
  obtain ⟨t, -, finished⟩ := bind_ok finished
  obtain ⟨-, rfl⟩ := by simpa using finished
  cases marked : (s.transport.flow a).haveEvidence with
  | true => rfl
  | false => simpa using unmarked

/-- The packet gets the mark of its flow, between the two halves. -/
theorem process_marks (unmarked : p.evidence = false) (processed : s.process kind down p o = .ok (s', q)) :
    ∃ x t e, segment kind down p = .ok x ∧ s.transport.enter kind x o = .ok (t, e) ∧
      Transport.complete kind o (t, e) = .ok s'.transport ∧ q.evidence = Transport.evident o (t, e) := by
  obtain ⟨⟨s₁, p₁, e⟩, entered, processed⟩ := bind_ok processed
  obtain ⟨x, read, entered⟩ := bind_ok entered
  obtain ⟨⟨t, e'⟩, enters, entered⟩ := bind_ok entered
  have left : s₁ = s.addBytes kind x t ∧ e = e' ∧ p₁.evidence = false := by
    dsimp only at entered
    split at entered <;> obtain ⟨rfl, rfl, rfl⟩ := by simpa using entered
    · exact ⟨rfl, rfl, unmarked⟩
    · exact ⟨rfl, rfl, unmarked⟩
  obtain ⟨rfl, rfl, unmarked⟩ := left
  refine ⟨x, t, e, read, enters, ?_⟩
  cases e with
  | ended =>
    obtain ⟨rfl, rfl⟩ := by simpa using processed
    exact ⟨rfl, unmarked⟩
  | finishing a =>
    obtain ⟨v, finished, rfl⟩ := after_transport processed
    exact ⟨finished, after_evidence unmarked processed⟩
  | handing a =>
    obtain ⟨w, forwarded, processed⟩ := bind_ok processed
    have forwarded : t.forwardFlow a o = .ok w := forwarded
    obtain ⟨v, finished, rfl⟩ := after_transport processed
    have marks := after_evidence unmarked processed
    constructor
    · show (t.forwardFlow a o >>= fun w => w.finish a o.hint kind) = .ok v
      rw [forwarded]
      exact finished
    · unfold Transport.evident
      dsimp only
      rw [forwarded]
      exact marks

end TransportLayer

namespace LanTransports

variable {outside : Frame → Outside} {six : Bool} {u u' : LanTransports} {b : Bool}

/-- What a frame has been to the transports: nothing, or one packet of one of them, which was unmarked; with the
mark that comes back. -/
inductive Heard (outside : Frame → Outside) (time : Int) (u u' : LanTransports) : Bool → Prop where
  | nothing (same : ∀ k, (u'.layer k).transport = (u.layer k).transport) : Heard outside time u u' false
  | packet {kind : Kind} {down : Multiplexer} {p : Frame} {x : Packet} {t : Transport} {e : Transport.Entered}
      (now : p.time = time) (reads : TransportLayer.segment kind down p = .ok x)
      (enters : (u.layer kind).transport.enter kind x (outside p) = .ok (t, e))
      (completes : Transport.complete kind (outside p) (t, e) = .ok (u'.layer kind).transport)
      (others : ∀ k, k ≠ kind → u'.layer k = u.layer k) :
      Heard outside time u u' (Transport.evident (outside p) (t, e))

theorem mux_inj {k kind : Kind} (same : k.mux = kind.mux) : k = kind := by
  cases k <;> cases kind <;> first | rfl | exact absurd same (by decide)

/-- A checker leaves the flows alone. -/
theorem check_kept {m : Mux} {p q : Frame} (checked : check m u p = .ok (b, u', q)) (kind : Kind) :
    (u'.layer kind).transport = (u.layer kind).transport ∧ (m ≠ kind.mux → u'.layer kind = u.layer kind) := by
  obtain ⟨own, others⟩ := check_layer checked kind
  by_cases here : m = kind.mux
  · exact ⟨(TransportLayer.check_transport (own here)).1, others⟩
  · exact ⟨congrArg TransportLayer.transport (others here), others⟩

theorem check_evidence {m : Mux} {p q : Frame} (checked : check m u p = .ok (b, u', q)) :
    q.evidence = p.evidence ∧ q.time = p.time := by
  cases m with
  | tcp => exact (TransportLayer.check_transport ((check_layer checked .tcp).1 rfl)).2
  | udp => exact (TransportLayer.check_transport ((check_layer checked .udp).1 rfl)).2
  | icmp =>
    obtain ⟨-, -, rfl⟩ := by simpa [check] using checked
    exact ⟨rfl, rfl⟩
  | _ => exact absurd checked (by simp [check])

/-- ICMP has no flows. -/
theorem process_apart {m : Mux} {down : Multiplexer} {p q : Frame}
    (processed : process six outside m u down p = .ok (u', q)) (apart : ∀ kind : Kind, m ≠ kind.mux) : q = p := by
  cases m with
  | tcp => exact absurd rfl (apart .tcp)
  | udp => exact absurd rfl (apart .udp)
  | icmp =>
    obtain ⟨icmp, -, processed⟩ := bind_ok processed
    obtain ⟨-, rfl⟩ := by simpa using processed
    rfl
  | _ => exact absurd processed (by simp [process])

theorem heard_of_deliver {m : Mux} {down : Multiplexer} {p : Frame} (unmarked : p.evidence = false)
    (delivers : NetworkStack.deliver (lanTransports six outside) m u down p = .ok (u', b)) :
    Heard outside p.time u u' b := by
  obtain ⟨⟨accepted, u₁, p₁⟩, checked, delivers⟩ := bind_ok delivers
  have checked : check m u p = .ok (accepted, u₁, p₁) := checked
  have kept := check_kept checked
  obtain ⟨evidence, now⟩ := check_evidence checked
  have clean : p₁.evidence = false := evidence.trans unmarked
  cases accepted with
  | false =>
    obtain ⟨rfl, rfl⟩ := by simpa using delivers
    exact .nothing fun k => (kept k).1
  | true =>
    obtain ⟨⟨u₂, q⟩, processed, delivers⟩ := bind_ok delivers
    have processed : process six outside m u₁ down p₁ = .ok (u₂, q) := processed
    obtain ⟨rfl, rfl⟩ := by simpa using delivers
    have others (k : Kind) (apart : m ≠ k.mux) : u₂.layer k = u.layer k :=
      ((process_layer processed k).2 apart).trans ((kept k).2 apart)
    by_cases flows : ∃ kind : Kind, m = kind.mux
    · obtain ⟨kind, rfl⟩ := flows
      obtain ⟨x, t, e, read, enters, completes, marks⟩ :=
        TransportLayer.process_marks clean ((process_layer processed kind).1 rfl)
      rw [(kept kind).1] at enters
      rw [marks]
      exact .packet now read enters completes fun k other => others k fun same => other (mux_inj same).symm
    · have apart (k : Kind) : m ≠ k.mux := fun same => flows ⟨k, same⟩
      rw [process_apart processed apart, clean]
      exact .nothing fun k => congrArg TransportLayer.transport (others k (apart k))

theorem heard_of_delivers {time : Int} (delivered : NetworkStack.Delivers (lanTransports six outside) time u u' b) :
    Heard outside time u u' b := by
  cases delivered with
  | nothing => exact .nothing fun _ => rfl
  | packet top now unmarked delivers => exact now ▸ heard_of_deliver unmarked delivers

end LanTransports

namespace NetworkStack

open LanTransports (Heard heard_of_delivers)

/-- In every run of a LAN, whatever layers are put below IP, a frame is one packet of one transport at most, and
comes back marked exactly if the flow that heard it has evidence by then. -/
theorem always_heard (kind : StackKind) (six : Bool) (outside : Frame → Outside) (upper : LanTransports)
    (plain : kind.carrier = none) (calls : List Call) :
    Transition.Always (step (lanTransports six outside))
      (fun s => ∀ raw time t q, s.forwardRawPacket (lanTransports six outside) raw time = .ok (t, q) →
        Heard outside time s.upper t.upper q.evidence)
      (new kind upper) calls := by
  have kept : Transition.Always (step (lanTransports six outside))
      (fun s => s.kind = kind ∧ Wired s.kind s.links) (new kind upper) calls := by
    refine Transition.always_of_inv (fun s c t inv stepped => ?_) ⟨rfl, wired_new kind upper⟩
    exact ⟨(kind_step inv.2 stepped).trans inv.1, wired_step inv.2 stepped⟩
  refine Transition.always_mono (fun s kept raw time t q ran => ?_) kept
  obtain ⟨rfl, wired⟩ := kept
  exact heard_of_delivers (forwardRawPacket_delivers wired plain ran)

/-- The second frame of a flow that the application layer has marked comes back marked. -/
theorem always_heard_marked :
    let outside : Frame → Outside := fun _ => { marks := { haveEvidence := true } }
    let T := lanTransports false outside
    let calls : List Call := [.enableLinkLayerTagging "vlan", .frame Docket.frame 1]
    (Transition.run (step T) (quietStack .lan) calls).any
        (fun s => Dispatcher.marks T s Docket.frame 2) = true ∧
      Transition.Always (step T)
        (fun s => ∀ raw time t q, s.forwardRawPacket T raw time = .ok (t, q) →
          Heard outside time s.upper t.upper q.evidence)
        (quietStack .lan) calls :=
  ⟨by decide +kernel, always_heard .lan false _ _ rfl _⟩

end NetworkStack

end AIEngine
