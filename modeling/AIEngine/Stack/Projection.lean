import AIEngine.Stack.Hops
import AIEngine.Stack.Padding

/-!
# A stack of a LAN and its transports

What a frame without a tag does to IPv4 and to one of the transports of the stack does not depend on
the others: it is what `Lan` does with it, which has the one transport alone.
-/

namespace AIEngine

open Ending (bind_ok)
open Stack (Frame)
open StackKind (Wired)

namespace TransportLayer

open Transport (Entered)

variable {s s' u u₁ u₂ : TransportLayer} {kind : Kind} {down : Multiplexer} {p p₁ q : Frame} {o : Outside}

theorem addBytes_congr {t t' : Transport} (same : t'.currentFlow = t.currentFlow) (x : Packet) :
    { s.addBytes kind x t with transport := t' } = s.addBytes kind x t' := by
  unfold addBytes
  rw [same]

theorem after_transport {a : Obj} {hint : Nat} (finished : s.after kind a hint p = .ok (s', q)) :
    ∃ t, s.transport.finish a hint kind = .ok t ∧ s' = { s with transport := t } := by
  obtain ⟨t, done, finished⟩ := bind_ok finished
  obtain ⟨rfl, -⟩ := by simpa using finished
  exact ⟨t, done, rfl⟩

/-- Both halves together are `processPacket` of the transport. -/
theorem process_transport (processed : s.process kind down p o = .ok (s', q)) :
    ∃ x t, segment kind down p = .ok x ∧ s.transport.processPacket kind x o = .ok t ∧
      s' = s.addBytes kind x t := by
  obtain ⟨⟨s₁, p₁, e⟩, entered, processed⟩ := bind_ok processed
  obtain ⟨x, read, entered⟩ := bind_ok entered
  obtain ⟨⟨t, e'⟩, enters, entered⟩ := bind_ok entered
  have left : s₁ = s.addBytes kind x t ∧ e = e' := by
    dsimp only at entered
    split at entered <;> obtain ⟨rfl, -, rfl⟩ := by simpa using entered
    · exact ⟨rfl, rfl⟩
    · exact ⟨rfl, rfl⟩
  obtain ⟨rfl, rfl⟩ := left
  have completes {v : Transport} (completed : Transport.complete kind o (t, e) = .ok v) :
      s.transport.processPacket kind x o = .ok v := by
    rw [Transport.processPacket_halves, enters]
    exact completed
  cases e with
  | ended =>
    obtain ⟨rfl, -⟩ := by simpa using processed
    exact ⟨x, t, read, completes rfl, rfl⟩
  | finishing a =>
    obtain ⟨v, finished, rfl⟩ := after_transport processed
    exact ⟨x, v, read, completes finished, addBytes_congr (Transport.finish_currentFlow finished) x⟩
  | handing a =>
    obtain ⟨w, forwarded, processed⟩ := bind_ok processed
    obtain ⟨v, finished, rfl⟩ := after_transport processed
    have completed : Transport.complete kind o (t, .handing a) = .ok v := by
      show (t.forwardFlow a o >>= fun w => w.finish a o.hint kind) = .ok v
      rw [show t.forwardFlow a o = .ok w from forwarded]
      exact finished
    exact ⟨x, v, read, completes completed, addBytes_congr (Transport.complete_currentFlow completed) x⟩

/-- The checker and `processPacket` of a layer in the stack are those of the layer alone. -/
theorem receive_of_process {b : Bool} (down : Multiplexer) (checked : u.check kind p = .ok (b, u₁, p₁))
    (processed : b = true → u₁.process kind down p₁ o = .ok (u₂, q)) (refused : b = false → u₂ = u₁) :
    ∃ r, u.receive kind down p.toPacket p.time p.tag o = .ok (u₂, r) := by
  cases kind with
  | tcp =>
    obtain ⟨⟨b', t, q'⟩, accepts, checked⟩ := bind_ok checked
    obtain ⟨rfl, rfl, rfl⟩ := by simpa using checked
    unfold receive
    simp only
    rw [accepts]
    cases b' with
    | false => exact ⟨none, by rw [refused rfl]; rfl⟩
    | true =>
      obtain ⟨x, v, read, processes, rfl⟩ := process_transport (processed rfl)
      obtain ⟨h, header, read⟩ := bind_ok read
      obtain rfl := Except.ok.inj read
      have header : TCPProtocol.readHeader q' = .ok h := header
      simp only [bind, Except.bind, if_true]
      rw [header]
      simp only
      rw [show t.transport.processPacket .tcp (TCPProtocol.segment h down q' p.time p.tag) o = .ok v from processes]
      exact ⟨_, rfl⟩
  | udp =>
    obtain ⟨rfl, rfl, rfl⟩ := by simpa [check] using checked
    unfold receive
    simp only
    cases accepted : (UDPProtocol.udpChecker u p.toPacket).1 with
    | false =>
      rw [refused accepted]
      exact ⟨none, by simp⟩
    | true =>
      obtain ⟨x, v, read, processes, rfl⟩ := process_transport (processed accepted)
      obtain ⟨h, header, read⟩ := bind_ok read
      obtain rfl := Except.ok.inj read
      simp only [bind, Except.bind, if_true]
      rw [header]
      simp only
      rw [processes]
      exact ⟨_, rfl⟩

end TransportLayer

namespace NetworkStack

section Top

variable {τ : Type} {T : Transports τ} {s t : NetworkStack τ} {m up : Mux} {p q : Frame} {n : Nat}

/-- Besides the counters of the multiplexers, nothing but the transports is touched. -/
structure Touches (s t : NetworkStack τ) : Prop where
  rest : t = { s with upper := t.upper, relay := t.relay }
  registers : ∀ k, (t.relay k).registers = (s.relay k).registers

theorem forwardPacket_none (found : s.getUpMultiplexer m (s.relay m).registers.nextProtocolId = none)
    (ran : forwardPacket T (n + 1) s m p = .ok (t, q)) : Touches s t ∧ t.upper = s.upper := by
  have found' : (s.countReceived m).getUpMultiplexer m
      ((s.countReceived m).relay m).registers.nextProtocolId = none := by
    rw [registers_countReceived]
    exact found
  rw [forwardPacket] at ran
  dsimp only at ran
  rw [found'] at ran
  obtain ⟨rfl, -⟩ := by simpa using ran
  exact ⟨⟨rfl, fun k => by rw [registers_countFail, registers_countReceived]⟩, rfl⟩

/-- A transport of the stack checks the packet, and processes it if it accepts it. -/
theorem forwardPacket_reaches (wired : Wired s.kind s.links) (top : up.down = some m)
    (plain : s.kind.carrier ≠ some up)
    (found : s.getUpMultiplexer m (s.relay m).registers.nextProtocolId = some up)
    (ran : forwardPacket T (n + 1) s m p = .ok (t, q)) :
    Touches s t ∧ ∃ accepted u p₁, T.check up s.upper (s.ahead m p) = .ok (accepted, u, p₁) ∧
      (accepted = false → t.upper = u) ∧
      (accepted = true → ∃ q₁, T.process up u (s.relay m).registers p₁ = .ok (t.upper, q₁)) := by
  have found' : (s.countReceived m).getUpMultiplexer m
      ((s.countReceived m).relay m).registers.nextProtocolId = some up := by
    rw [registers_countReceived]
    exact found
  rw [forwardPacket] at ran
  dsimp only at ran
  rw [found', candidate_countReceived] at ran
  dsimp only at ran
  rw [acceptPacket_top top] at ran
  obtain ⟨⟨accepted, s₁, p₁⟩, checks, ran⟩ := bind_ok ran
  have known : (s.countReceived m).upper = s.upper := rfl
  rw [known] at checks
  cases checked : T.check up s.upper (s.ahead m p) with
  | error e =>
    rw [checked] at checks
    exact absurd checks (by simp [Except.map])
  | ok r =>
    rw [checked] at checks
    obtain ⟨rfl, rfl, rfl⟩ := by simpa [Except.map] using checks
    obtain ⟨accepted, u, p₁⟩ := r
    cases accepted with
    | false =>
      obtain ⟨rfl, -⟩ := by simpa using ran
      exact ⟨⟨rfl, registers_countReceived⟩, false, u, p₁, rfl, fun _ => rfl, fun no => absurd no (by simp)⟩
    | true =>
      obtain ⟨⟨goes, s₂, q₁⟩, processes, ran⟩ := bind_ok ran
      dsimp only at processes
      have does := packetFunc_top (T := T) (s := (s.countReceived m).withUpper u) top plain (forwardPacket T n) p₁
      have registers : (((s.countReceived m).withUpper u).relay m).registers = (s.relay m).registers :=
        registers_countReceived m
      rw [registers, show ((s.countReceived m).withUpper u).upper = u from rfl] at does
      rw [does] at processes
      cases processed : T.process up u (s.relay m).registers p₁ with
      | error e =>
        rw [processed] at processes
        exact absurd processes (by simp [Except.map])
      | ok r =>
        rw [processed] at processes
        obtain ⟨rfl, rfl, rfl⟩ := by simpa [Except.map] using processes
        obtain ⟨u', q₁⟩ := r
        obtain ⟨relay, leaves, same⟩ := forwardPacket_leaf (T := T) (q := q₁)
          (s := (((s.countReceived m).withUpper u).withUpper u').countForward m) wired top n
        simp only [if_true] at ran
        rw [leaves] at ran
        obtain ⟨rfl, -⟩ := by simpa using ran
        refine ⟨⟨rfl, fun k => ?_⟩, true, u, p₁, rfl, fun no => absurd no (by simp), fun _ => ⟨q₁, processed⟩⟩
        rw [same, registers_countForward]
        exact registers_countReceived k

end Top

end NetworkStack

namespace LanTransports

variable {u u' : LanTransports} {m : Mux} {p q : Frame} {kind : Kind}

theorem check_layer {b : Bool} (checked : check m u p = .ok (b, u', q)) (kind : Kind) :
    (m = kind.mux → (u.layer kind).check kind p = .ok (b, u'.layer kind, q)) ∧
      (m ≠ kind.mux → u'.layer kind = u.layer kind) := by
  cases m with
  | tcp =>
    obtain ⟨⟨b', tcp, q'⟩, accepts, checked⟩ := bind_ok checked
    obtain ⟨rfl, rfl, rfl⟩ := by simpa using checked
    cases kind with
    | tcp => exact ⟨fun _ => accepts, fun other => absurd rfl other⟩
    | udp => exact ⟨fun same => absurd same (by decide), fun _ => rfl⟩
  | udp =>
    obtain ⟨⟨b', udp, q'⟩, accepts, checked⟩ := bind_ok checked
    obtain ⟨rfl, rfl, rfl⟩ := by simpa using checked
    cases kind with
    | udp => exact ⟨fun _ => accepts, fun other => absurd rfl other⟩
    | tcp => exact ⟨fun same => absurd same (by decide), fun _ => rfl⟩
  | icmp =>
    obtain ⟨-, rfl, -⟩ := by simpa [check] using checked
    cases kind with
    | tcp | udp => exact ⟨fun same => absurd same (by decide), fun _ => rfl⟩
  | _ => exact absurd checked (by simp [check])

theorem process_layer {six : Bool} {outside : Frame → Outside} {down : Multiplexer}
    (processed : process six outside m u down p = .ok (u', q)) (kind : Kind) :
    (m = kind.mux → (u.layer kind).process kind down p (outside p) = .ok (u'.layer kind, q)) ∧
      (m ≠ kind.mux → u'.layer kind = u.layer kind) := by
  cases m with
  | tcp =>
    obtain ⟨⟨tcp, q'⟩, does, processed⟩ := bind_ok processed
    obtain ⟨rfl, rfl⟩ := by simpa using processed
    cases kind with
    | tcp => exact ⟨fun _ => does, fun other => absurd rfl other⟩
    | udp => exact ⟨fun same => absurd same (by decide), fun _ => rfl⟩
  | udp =>
    obtain ⟨⟨udp, q'⟩, does, processed⟩ := bind_ok processed
    obtain ⟨rfl, rfl⟩ := by simpa using processed
    cases kind with
    | udp => exact ⟨fun _ => does, fun other => absurd rfl other⟩
    | tcp => exact ⟨fun same => absurd same (by decide), fun _ => rfl⟩
  | icmp =>
    obtain ⟨icmp, -, processed⟩ := bind_ok processed
    obtain ⟨rfl, -⟩ := by simpa using processed
    cases kind with
    | tcp | udp => exact ⟨fun same => absurd same (by decide), fun _ => rfl⟩
  | _ => exact absurd processed (by simp [process])

end LanTransports

/-- The transport that a protocol number is linked to. -/
def TransportProtocol.mux : TransportProtocol → Mux
  | .tcp => .tcp
  | .udp => .udp
  | .icmp | .icmp6 => .icmp

namespace NetworkStack

section Lan

variable {outside : Frame → Outside} {s t : NetworkStack LanTransports} {p q : Frame} {n : Nat} {kind : Kind}

/-- The multiplexer of IP, with its links as `Lan` keeps them. -/
def ipMux (s : NetworkStack LanTransports) : Multiplexer :=
  { (s.relay .ip).registers with up := IPLayer.new.mux.up }

structure Projects (kind : Kind) (s : NetworkStack LanTransports) (l : Lan) : Prop where
  ip : l.ip = { ip := s.ip, mux := s.ipMux }
  layer : l.layer = s.upper.layer kind

/-- The links as the constructor leaves them. -/
structure Plain (s : NetworkStack LanTransports) : Prop where
  kind : s.kind = .lan
  links : s.links = StackKind.lan.links.reverse

theorem Plain.wired (plain : s.Plain) : Wired s.kind s.links := by
  rw [plain.kind, plain.links]
  exact wired_new .lan ()

theorem plain_keys : ∀ l ∈ StackKind.lan.links.reverse, l.source = .ip → l.key = 17 ∨ l.key = 6 ∨ l.key = 1 := by
  decide

theorem plain_numbers : ∀ entry ∈ IPLayer.new.mux.up, entry.1 = 17 ∨ entry.1 = 6 ∨ entry.1 = 1 := by
  decide

theorem Plain.next (plain : s.Plain) (key : BitVec 16) :
    s.getUpMultiplexer .ip key =
      ((IPLayer.new.mux.up.find? fun entry => decide (entry.1 = key)).map Prod.snd).map TransportProtocol.mux := by
  unfold getUpMultiplexer
  rw [plain.links]
  by_cases known : key = 17 ∨ key = 6 ∨ key = 1
  · rcases known with rfl | rfl | rfl
    · rfl
    · rfl
    · rfl
  · have none : (StackKind.lan.links.reverse.find? fun l => decide (l.source = .ip ∧ l.key = key)) = none := by
      rw [List.find?_eq_none]
      rintro l member matching
      obtain ⟨source, rfl⟩ := of_decide_eq_true matching
      exact known (plain_keys l member source)
    have none' : (IPLayer.new.mux.up.find? fun entry => decide (entry.1 = key)) = .none := by
      rw [List.find?_eq_none]
      rintro entry member matching
      obtain rfl := of_decide_eq_true matching
      exact known (plain_numbers entry member)
    rw [none, none']
    rfl

/-- What is behind IP, seen from one transport. -/
def Received (kind : Kind) (s t : NetworkStack LanTransports) (p : Frame) :
    Option (TransportProtocol × Stack.Packet) → Prop
  | none => t.upper.layer kind = s.upper.layer kind
  | some (next, x) =>
    if next = kind.protocol then
      ∃ o r, (s.upper.layer kind).receive kind s.ipMux x p.time p.tag o = .ok (t.upper.layer kind, r)
    else t.upper.layer kind = s.upper.layer kind

theorem protocol_mux (next : TransportProtocol) (kind : Kind) : next.mux = kind.mux ↔ next = kind.protocol := by
  cases next <;> cases kind <;> decide

theorem down_mux (next : TransportProtocol) : next.mux.down = some .ip := by
  cases next <;> rfl

theorem transports_project (plain : s.Plain)
    (ran : forwardPacket (lanTransports false outside) (n + 1) s .ip p = .ok (t, q)) (kind : Kind) :
    Touches s t ∧ Received kind s t p (s.ipMux.forwardPacket p.toPacket) := by
  have next := plain.next (s.relay .ip).registers.nextProtocolId
  unfold Multiplexer.forwardPacket Multiplexer.getUpMultiplexer
  rw [show s.ipMux.up = IPLayer.new.mux.up from rfl,
    show s.ipMux.nextProtocolId = (s.relay .ip).registers.nextProtocolId from rfl]
  cases linked : (IPLayer.new.mux.up.find? fun entry =>
      decide (entry.1 = (s.relay .ip).registers.nextProtocolId)).map Prod.snd with
  | none =>
    rw [linked] at next
    obtain ⟨touches, upper⟩ := forwardPacket_none next ran
    exact ⟨touches, congrArg (LanTransports.layer · kind) upper⟩
  | some found =>
    rw [linked] at next
    obtain ⟨touches, accepted, u, p₁, checked, refused, processed⟩ :=
      forwardPacket_reaches plain.wired (down_mux found) (by rw [plain.kind]; exact nofun) next ran
    refine ⟨touches, ?_⟩
    obtain ⟨own, others⟩ := LanTransports.check_layer checked kind
    show if found = kind.protocol then _ else _
    split
    · rename_i same
      have here := (protocol_mux found kind).mpr same
      refine ⟨outside p₁, ?_⟩
      cases accepted with
      | false =>
        rw [refused rfl]
        exact TransportLayer.receive_of_process s.ipMux (own here) (q := p)
          (fun no => absurd no (by simp)) (fun _ => rfl)
      | true =>
        obtain ⟨q₁, does⟩ := processed rfl
        exact TransportLayer.receive_of_process s.ipMux (own here)
          (fun _ => (LanTransports.process_layer does kind).1 here) (fun no => absurd no (by simp))
    · rename_i other
      have elsewhere := fun same => other ((protocol_mux found kind).mp same)
      cases accepted with
      | false => rw [refused rfl, others elsewhere]
      | true =>
        obtain ⟨q₁, does⟩ := processed rfl
        rw [(LanTransports.process_layer does kind).2 elsewhere, others elsewhere]

/-- The packet that the dispatcher makes of what was captured. -/
def dispatched (raw : RawPacket) : Stack.Packet where
  curr := raw
  net := { memory := [], length := 0, held := nothing_held }

theorem processPacket_up {ip ip' : IPProtocol} {r r' : Multiplexer} {x x' : Stack.Packet} {goes : Bool}
    (processed : ip.processPacket r x = .ok (goes, ip', r', x')) (up : List (BitVec 16 × TransportProtocol)) :
    ip.processPacket { r with up := up } x = .ok (goes, ip', { r' with up := up }, x') ∧
      ∃ h, IPProtocol.readHeader x = .ok h := by
  unfold IPProtocol.processPacket at processed ⊢
  obtain ⟨h, read, processed⟩ := bind_ok processed
  rw [read]
  refine ⟨?_, h, rfl⟩
  simp only [bind, Except.bind]
  cases fragment : IPProtocol.isFragment h with
  | true =>
    simp only [fragment, if_true] at processed ⊢
    obtain ⟨rfl, rfl, rfl, rfl⟩ := by simpa using processed
    rfl
  | false =>
    simp only [fragment] at processed ⊢
    obtain ⟨rfl, rfl, rfl, rfl⟩ := by simpa using processed
    rfl

theorem step_of_receive {l l' : Lan} {x : Stack.Packet} {time : Int} {tag : Option (BitVec 32)} {o : Outside}
    {r : Option RawPacket} (received : l.receive kind x time tag o = .ok (l', r)) :
    Lan.step kind l (.datagram x time tag o) = some l' := by
  unfold Lan.step
  simp only [received]
  rfl

/-- A datagram that the layer of IP is asked about. -/
theorem datagram_projects {l : Lan} {ip : IPProtocol} {accepted : Bool} {x : Stack.Packet} {time : Int}
    (projects : Projects kind s l) (checked : s.ip.ipChecker x = .ok (accepted, ip))
    (refused : accepted = false → t.ip = ip ∧ t.ipMux = s.ipMux ∧ t.upper.layer kind = s.upper.layer kind)
    (passed : accepted = true → ∃ goes ip' r x', ip.processPacket (s.relay .ip).registers x =
        .ok (goes, ip', r, x') ∧ t.ip = ip' ∧ t.ipMux = { r with up := IPLayer.new.mux.up } ∧
      (goes = false → t.upper.layer kind = s.upper.layer kind) ∧
      (goes = true → ∃ s' p, s'.upper = s.upper ∧ s'.ipMux = t.ipMux ∧ p.time = time ∧ p.tag = none ∧
        Received kind s' t p (t.ipMux.forwardPacket x'))) :
    ∃ o l', Lan.step kind l (.datagram x time none o) = some l' ∧ Projects kind t l' := by
  cases accepted with
  | false =>
    obtain ⟨ip', mux, layer⟩ := refused rfl
    refine ⟨{}, { ip := { ip := ip, mux := s.ipMux }, ipBytes := l.ipBytes, layer := l.layer }, ?_,
      ⟨by rw [ip', mux], by rw [layer]; exact projects.layer⟩⟩
    unfold Lan.step Lan.receive IPProtocol.countBytes IPLayer.receive
    rw [projects.ip]
    simp only [checked, bind, Except.bind]
    rfl
  | true =>
    obtain ⟨goes, ip', r, x', processed, ip_t, mux, stays, reaches⟩ := passed rfl
    obtain ⟨processed', h, read⟩ := processPacket_up processed IPLayer.new.mux.up
    have counted : s.ip.countBytes l.ipBytes x = .ok (l.ipBytes + IPProtocol.bytes h x) := by
      unfold IPProtocol.countBytes
      simp only [checked, bind, Except.bind, read]
      rfl
    have received (o : Outside) : l.receive kind x time none o =
        (if goes then t.ipMux.forwardPacket x' else none).elim
          (.ok (Lan.mk { ip := ip', mux := t.ipMux } (l.ipBytes + IPProtocol.bytes h x) l.layer, none))
          fun found =>
            if found.1 = kind.protocol then
              (l.layer.receive kind t.ipMux found.2 time none o).map fun r =>
                (Lan.mk { ip := ip', mux := t.ipMux } (l.ipBytes + IPProtocol.bytes h x) r.1, r.2)
            else .ok (Lan.mk { ip := ip', mux := t.ipMux } (l.ipBytes + IPProtocol.bytes h x) l.layer, none) := by
      unfold Lan.receive IPLayer.receive
      rw [projects.ip]
      simp only [counted, checked, bind, Except.bind, if_true]
      rw [show ip.processPacket s.ipMux x = _ from processed']
      simp only [← mux]
      generalize (if goes then t.ipMux.forwardPacket x' else none) = out
      cases out with
      | none => rfl
      | some found =>
        simp only [Option.elim]
        split
        · cases l.layer.receive kind t.ipMux found.2 time none o <;> rfl
        · rfl
    have done (bytes : Int) : Projects kind t
        { ip := { ip := ip', mux := t.ipMux }, ipBytes := bytes, layer := t.upper.layer kind } :=
      ⟨by rw [ip_t], rfl⟩
    have kept (same : t.upper.layer kind = s.upper.layer kind) (bytes : Int) : Projects kind t
        { l with ip := { ip := ip', mux := t.ipMux }, ipBytes := bytes } :=
      ⟨by rw [ip_t], projects.layer.trans same.symm⟩
    cases goes with
    | false =>
      have stepped : l.receive kind x time none {} = .ok (_, none) := received {}
      exact ⟨{}, _, step_of_receive stepped, kept (stays rfl) (l.ipBytes + IPProtocol.bytes h x)⟩
    | true =>
      obtain ⟨s', p, upper, mux', rfl, tag, behind⟩ := reaches rfl
      simp only [if_true] at received
      cases out : t.ipMux.forwardPacket x' with
      | none =>
        rw [out] at behind received
        exact ⟨{}, _, step_of_receive (received {}),
          kept (behind.trans (by rw [upper])) (l.ipBytes + IPProtocol.bytes h x)⟩
      | some found =>
        obtain ⟨next, q⟩ := found
        rw [out] at behind received
        unfold Received at behind
        simp only at behind received
        split at behind
        · rename_i same
          obtain ⟨o, r, delivered⟩ := behind
          rw [upper, mux', tag, ← projects.layer] at delivered
          have stepped := received o
          simp only [Option.elim, if_pos same, delivered] at stepped
          exact ⟨o, _, step_of_receive stepped, done (l.ipBytes + IPProtocol.bytes h x)⟩
        · rename_i other
          have stepped := received {}
          simp only [Option.elim, if_neg other] at stepped
          exact ⟨{}, _, step_of_receive stepped,
            kept (behind.trans (by rw [upper])) (l.ipBytes + IPProtocol.bytes h x)⟩

theorem Projects.kept {l : Lan} (projects : Projects kind s l) (ip : t.ip = s.ip)
    (registers : (t.relay .ip).registers = (s.relay .ip).registers)
    (layer : t.upper.layer kind = s.upper.layer kind) : Projects kind t l where
  ip := by
    rw [projects.ip, ip]
    unfold ipMux
    rw [registers]
  layer := projects.layer.trans layer.symm

theorem ip_projects {r : Multiplexer}
    (ran : forwardPacket (lanTransports false outside) (n + 1) s .ip p = .ok (t, q)) (plain : s.Plain)
    (told : (s.relay .ip).registers = r) (untagged : p.tag = none) (kind : Kind) :
    t.ip = s.ip ∧ t.ipMux = { r with up := IPLayer.new.mux.up } ∧
      ∃ (s' : NetworkStack LanTransports) (p' : Frame), s'.upper = s.upper ∧ s'.ipMux = t.ipMux ∧
        p'.time = p.time ∧ p'.tag = none ∧ Received kind s' t p' (t.ipMux.forwardPacket p.toPacket) := by
  obtain ⟨touches, received⟩ := transports_project plain ran kind
  have same : t.ipMux = s.ipMux := by
    unfold ipMux
    rw [touches.registers]
  refine ⟨by rw [touches.rest], ?_, s, p, rfl, same.symm, rfl, untagged, ?_⟩
  · rw [same]
    unfold ipMux
    rw [told]
  · rw [same]
    exact received

theorem plain_types : ∀ l ∈ StackKind.lan.links.reverse, l.source = .eth → l.key = EthernetProtocol.ethertypeIp := by
  decide

/-- Behind Ethernet. -/
theorem forwardPacket_projects {l : Lan} {type : BitVec 16} (plain : s.Plain) (projects : Projects kind s l)
    (next : (s.relay .eth).registers.nextProtocolId = type) (size : (s.relay .eth).registers.headerSize = 14)
    (untagged : p.tag = none)
    (ran : forwardPacket (lanTransports false outside) (n + 2) s .eth p = .ok (t, q)) :
    if type = EthernetProtocol.ethertypeIp then
      ∃ o l', Lan.step kind l (.datagram { p.toPacket with curr := p.curr.advance 14 } p.time none o) = some l' ∧
        Projects kind t l'
    else Projects kind t l := by
  split
  · rename_i ip
    have found : (s.countReceived .eth).getUpMultiplexer .eth
        ((s.countReceived .eth).relay .eth).registers.nextProtocolId = some .ip := by
      rw [registers_countReceived, next, ip]
      unfold getUpMultiplexer
      rw [show (s.countReceived .eth).links = s.links from rfl, plain.links]
      rfl
    have four : (s.countReceived .eth).kind ≠ .lanIPv6 := by
      rw [show (s.countReceived .eth).kind = s.kind from rfl, plain.kind]
      decide
    have place : (s.ahead .eth p).toPacket = { p.toPacket with curr := p.curr.advance 14 } := by
      unfold ahead
      rw [size]
    rw [forwardPacket] at ran
    dsimp only at ran
    rw [found, candidate_countReceived] at ran
    obtain ⟨⟨accepted, s₁, p₁⟩, accepts, ran⟩ := bind_ok ran
    unfold acceptPacket checkIP at accepts
    dsimp only at accepts
    rw [if_neg four] at accepts
    obtain ⟨⟨accepted', ip₁⟩, checked, accepts⟩ := bind_ok accepts
    obtain ⟨rfl, rfl, rfl⟩ := by simpa using accepts
    have registers : ((s.countReceived .eth).relay .ip).registers = (s.relay .ip).registers :=
      registers_countReceived .ip
    rw [← place]
    refine datagram_projects projects checked ?_ ?_
    · rintro rfl
      obtain ⟨rfl, -⟩ := by simpa using ran
      refine ⟨rfl, ?_, rfl⟩
      unfold ipMux
      rw [← registers]
    · rintro rfl
      simp only [if_true] at ran
      obtain ⟨⟨goes, s₂, q₁⟩, processes, ran⟩ := bind_ok ran
      unfold packetFunc processIP at processes
      dsimp only at processes
      rw [if_neg four, registers] at processes
      obtain ⟨⟨goes', ip₂, r, x'⟩, processed, processes⟩ := bind_ok processes
      obtain ⟨rfl, rfl, rfl⟩ := by simpa using processes
      have told (u : NetworkStack LanTransports) : ((u.setRegisters .ip r).relay .ip).registers = r := by
        rw [setRegisters_registers]
      refine ⟨goes', ip₂, r, x', processed, ?_⟩
      cases goes' with
      | false =>
        obtain ⟨rfl, -⟩ := by simpa using ran
        refine ⟨rfl, ?_, fun _ => rfl, fun no => absurd no (by simp)⟩
        unfold ipMux
        rw [told]
      | true =>
        simp only [if_true] at ran
        obtain ⟨⟨t', q'⟩, forwarded, ran⟩ := bind_ok ran
        obtain ⟨rfl, -⟩ := by simpa using ran
        obtain ⟨ip', mux, reached⟩ := ip_projects forwarded ⟨plain.kind, plain.links⟩
          (by rw [registers_countForward, told]) untagged kind
        exact ⟨ip', mux, fun no => absurd no (by simp), fun _ => reached⟩
  · rename_i other
    have found : s.getUpMultiplexer .eth (s.relay .eth).registers.nextProtocolId = none := by
      rw [next, Option.eq_none_iff_forall_ne_some]
      intro m found
      obtain ⟨k, linked, source, key, -⟩ := getUpMultiplexer_linked found
      rw [plain.links] at linked
      exact other (key.symm.trans (plain_types k linked source))
    obtain ⟨touches, upper⟩ := forwardPacket_none found ran
    exact projects.kept (by rw [touches.rest]) (touches.registers .ip)
      (congrArg (LanTransports.layer · kind) upper)

/-- What a frame without a tag brings to IP. -/
theorem frame_projects {l : Lan} {raw : RawPacket} {time : Int} (plain : s.Plain) (prepared : s.Prepared)
    (projects : Projects kind s l)
    (ran : s.forwardRawPacket (lanTransports false outside) raw time = .ok (t, q)) :
    match EthernetProtocol.carried (dispatched raw) with
    | none => Projects kind t l
    | some x => ∃ o l', Lan.step kind l (.datagram x time none o) = some l' ∧ Projects kind t l' := by
  have size : (s.relay .eth).registers.headerSize = 14 := congrArg Multiplexer.headerSize (prepared .eth)
  have checked (eth : LayerTotals) : ∃ eth', EthernetProtocol.check eth (dispatched raw) =
      ((EthernetProtocol.ethernetChecker (dispatched raw)).1, eth',
        (EthernetProtocol.ethernetChecker (dispatched raw)).2) := ⟨_, rfl⟩
  obtain ⟨eth, checks⟩ := checked s.ethernet
  unfold forwardRawPacket at ran
  obtain ⟨⟨accepted, s₁, p⟩, accepts, ran⟩ := bind_ok ran
  unfold acceptPacket at accepts
  dsimp only at accepts
  rw [show EthernetProtocol.check s.ethernet { curr := raw, net := _ } = _ from checks] at accepts
  unfold EthernetProtocol.carried
  generalize EthernetProtocol.ethernetChecker (dispatched raw) = answer at accepts
  obtain ⟨accepted', x⟩ := answer
  obtain ⟨rfl, rfl, rfl⟩ := by simpa using accepts
  cases accepted' with
  | false =>
    obtain ⟨rfl, -⟩ := by simpa using ran
    exact projects.kept rfl rfl rfl
  | true =>
    simp only [if_true] at ran ⊢
    obtain ⟨type, typed, ran⟩ := bind_ok ran
    have typed : EthernetProtocol.getEthernetType x = .ok type := typed
    rw [typed]
    simp only
    have entered := forwardPacket_projects (by exact ⟨plain.kind, plain.links⟩)
      (by exact projects.kept rfl rfl rfl : Projects kind _ l) (by rw [setRegisters_registers]) (by rw [setRegisters_registers]; exact size)
      rfl ran
    split at entered
    · rename_i ip
      rw [if_pos ip]
      exact entered
    · rename_i other
      rw [if_neg other]
      exact entered

/-- A frame, and when it was captured. -/
abbrev Capture := RawPacket × Int

def Capture.call (c : Capture) : Call := .frame c.1 c.2

/-- What the frames bring to IP. -/
def datagrams (captures : List Capture) : List (Stack.Packet × Int) :=
  captures.filterMap fun c => (EthernetProtocol.carried (dispatched c.1)).map fun x => (x, c.2)

/-- The event of `Lan` for a datagram without a tag. -/
def arrived (x : Stack.Packet × Int) (o : Outside) : Lan.Event := .datagram x.1 x.2 none o

theorem plain_frame {raw : RawPacket} {time : Int} (plain : s.Plain) (prepared : s.Prepared)
    (ran : s.forwardRawPacket (lanTransports false outside) raw time = .ok (t, q)) : t.Plain ∧ t.Prepared := by
  have wired := plain.wired
  obtain ⟨-, same⟩ := forwardRawPacket_accounts wired ran
  have self := forwardRawPacket_agree (T := lanTransports false outside)
    (⟨rfl, rfl, rfl, rfl, wired, prepared, prepared⟩ : Alike s s) raw time
  rw [ran] at self
  obtain ⟨alike, -⟩ := self
  exact ⟨⟨same.kind.trans plain.kind, same.links.trans plain.links⟩, alike.left⟩

theorem run_projects {l : Lan} {captures : List Capture} (plain : s.Plain) (prepared : s.Prepared)
    (projects : Projects kind s l)
    (ran : Transition.run (step (lanTransports false outside)) s (captures.map Capture.call) = some t) :
    ∃ answers l', answers.length = (datagrams captures).length ∧
      Transition.run (Lan.step kind) l (List.zipWith arrived (datagrams captures) answers) = some l' ∧
        Projects kind t l' := by
  induction captures generalizing s l with
  | nil =>
    obtain rfl := Option.some.inj ran
    exact ⟨[], l, rfl, rfl, projects⟩
  | cons c rest ih =>
    obtain ⟨raw, time⟩ := c
    obtain ⟨u, stepped, ran⟩ := Option.bind_eq_some_iff.mp ran
    rcases step_cases stepped with ⟨raw', time', q, same, forwarded⟩ | ⟨type, other, -⟩
    · obtain ⟨rfl, rfl⟩ := Call.frame.inj same
      obtain ⟨plain', prepared'⟩ := plain_frame plain prepared forwarded
      have brought := frame_projects plain prepared projects forwarded
      unfold datagrams
      cases carried : EthernetProtocol.carried (dispatched raw) with
      | none =>
        rw [carried] at brought
        obtain ⟨answers, l', long, ran', projects'⟩ := ih plain' prepared' brought ran
        rw [List.filterMap_cons_none (by rw [carried]; rfl)]
        exact ⟨answers, l', long, ran', projects'⟩
      | some x =>
        rw [carried] at brought
        obtain ⟨o, l₁, stepped', projects₁⟩ := brought
        obtain ⟨answers, l', long, ran', projects'⟩ := ih plain' prepared' projects₁ ran
        rw [List.filterMap_cons_some (by rw [carried]; rfl)]
        refine ⟨o :: answers, l', congrArg Nat.succ long, ?_, projects'⟩
        rw [List.zipWith_cons_cons, Transition.run_cons, show Lan.step kind l (arrived (x, time) o) = _ from stepped']
        exact ran'
    · exact absurd other (by simp [Capture.call])

/-- Whatever a LAN captures, each of its transports goes through a run of its own: the datagrams for IPv4 in
their order and nothing else, with some answers of the application layer. -/
theorem reached_projects {objects : CacheId → Nat} {registered : Option Nat} {timeout : Int}
    {captures : List Capture}
    (ran : Transition.run (step (lanTransports false outside))
      (new .lan (LanTransports.new objects registered timeout)) (captures.map Capture.call) = some s)
    (kind : Kind) :
    ∃ answers l, answers.length = (datagrams captures).length ∧
      Transition.run (Lan.step kind)
          (Lan.start (match kind with | .tcp => 0 | .udp => 1) objects registered timeout true)
          (List.zipWith arrived (datagrams captures) answers) = some l ∧
        Projects kind s l := by
  refine run_projects ⟨rfl, rfl⟩ (fun _ => rfl) ⟨rfl, ?_⟩ ran
  cases kind <;> rfl

/-- Two frames, of which the first is too short. -/
theorem reached_projects_quiet :
    ∃ s answers l, answers.length = (datagrams [(noPacket, 3), (Lan.shortFrame.curr, 4)]).length ∧
      Transition.run (Lan.step .tcp) (Lan.start 0 (fun _ => 1) none 180 true)
          (List.zipWith arrived (datagrams [(noPacket, 3), (Lan.shortFrame.curr, 4)]) answers) = some l ∧
        Projects .tcp s l := by
  have runs : (Transition.run (step (lanTransports false fun _ => {}))
      (new .lan (LanTransports.new (fun _ => 1) none 180))
      ([(noPacket, 3), (Lan.shortFrame.curr, 4)].map Capture.call)).isSome = true := by decide +kernel
  obtain ⟨s, ran⟩ := Option.isSome_iff_exists.mp runs
  exact ⟨s, reached_projects ran .tcp⟩

end Lan

end NetworkStack

end AIEngine
