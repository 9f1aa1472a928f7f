import Mathlib.Data.BitVec
import AIEngine.Library.Endings
import AIEngine.Library.Transition
import AIEngine.Stack.Passages

/-!
# The counters of a network stack

A frame changes the counters as a `Passage` may. So the sums of a run come out even: each packet that
Ethernet lets in, or a tunnel brings, ends in one place.
-/

namespace AIEngine

open Ending (bind_ok)
open Stack (Frame)

def LayerTotals.answers (t : LayerTotals) (accepted : Bool) : Nat :=
  if accepted then t.validatedPackets else t.malformedPackets

def MPLSProtocol.answers (mpls : MPLSProtocol) (accepted : Bool) : Nat :=
  if accepted then mpls.totalValidatedPackets else mpls.totalMalformedPackets

def IPProtocol.answers (ip : IPProtocol) (accepted : Bool) : Nat :=
  if accepted then ip.totalValidatedPackets else ip.totalMalformedPackets

def IPv6Protocol.answers (ip : IPv6Protocol) (accepted : Bool) : Nat :=
  if accepted then ip.totalValidatedPackets else ip.totalMalformedPackets

/-- What the loop is left for before there is a transport. -/
def IPv6Protocol.stopped (ip : IPv6Protocol) : BitVec 32 := ip.totalFragPackets + ip.totalNoHeaderPackets

/-! ### The layers -/

theorem LayerTotals.check_answers (t : LayerTotals) (accepted c : Bool) :
    (t.check accepted).answers c = t.answers c + if c = accepted then 1 else 0 := by
  cases accepted <;> cases c <;> rfl

theorem EthernetProtocol.check_answers (eth : LayerTotals) (p : Stack.Packet) (c : Bool) :
    (check eth p).2.1.answers c = eth.answers c + if c = (check eth p).1 then 1 else 0 := by
  have checked : (check eth p).2.1.answers c = (eth.check (check eth p).1).answers c := by
    unfold check
    cases answer : ethernetChecker p with
    | mk accepted q => cases accepted <;> rfl
  rw [checked, LayerTotals.check_answers]

theorem MPLSProtocol.mplsChecker_answers (mpls : MPLSProtocol) (p : Stack.Packet) (c : Bool) :
    (mpls.mplsChecker p).2.answers c =
      mpls.answers c + if c = (mpls.mplsChecker p).1 then 1 else 0 := by
  unfold mplsChecker
  split <;> cases c <;> rfl

theorem GREProtocol.greChecker_answers {gre gre' : LayerTotals} {p : Stack.Packet} {b : Bool}
    (checked : greChecker gre p = .ok (b, gre')) (c : Bool) :
    gre'.answers c = gre.answers c + if c = b then 1 else 0 := by
  unfold greChecker at checked
  split at checked
  · obtain ⟨protocol, -, checked⟩ := bind_ok checked
    obtain ⟨rfl, rfl⟩ := Prod.mk.inj (Except.ok.inj checked)
    exact LayerTotals.check_answers gre _ c
  · obtain ⟨rfl, rfl⟩ := Prod.mk.inj (Except.ok.inj checked)
    exact LayerTotals.check_answers gre false c

theorem IPProtocol.ipChecker_answers {ip ip' : IPProtocol} {p : Stack.Packet} {b : Bool}
    (checked : ip.ipChecker p = .ok (b, ip')) :
    (∀ c, ip'.answers c = ip.answers c + if c = b then 1 else 0) ∧
      ip'.totalFragPackets = ip.totalFragPackets := by
  unfold ipChecker at checked
  split at checked
  · obtain ⟨accepts, -, checked⟩ := bind_ok checked
    cases accepts <;> obtain ⟨rfl, rfl⟩ := Prod.mk.inj (Except.ok.inj checked) <;>
      exact ⟨fun c => by cases c <;> rfl, rfl⟩
  · obtain ⟨rfl, rfl⟩ := Prod.mk.inj (Except.ok.inj checked)
    exact ⟨fun c => by cases c <;> rfl, rfl⟩

theorem IPv6Protocol.ip6Checker_answers {ip ip' : IPv6Protocol} {p : Stack.Packet} {b : Bool}
    (checked : ip.ip6Checker p = .ok (b, ip')) :
    (∀ c, ip'.answers c = ip.answers c + if c = b then 1 else 0) ∧ ip'.stopped = ip.stopped := by
  unfold ip6Checker at checked
  split at checked
  · obtain ⟨accepts, -, checked⟩ := bind_ok checked
    cases accepts <;> obtain ⟨rfl, rfl⟩ := Prod.mk.inj (Except.ok.inj checked) <;>
      exact ⟨fun c => by cases c <;> rfl, rfl⟩
  · obtain ⟨rfl, rfl⟩ := Prod.mk.inj (Except.ok.inj checked)
    exact ⟨fun c => by cases c <;> rfl, rfl⟩

/-- A packet goes on, or it is counted as a fragment. -/
theorem IPProtocol.processPacket_counts {ip ip' : IPProtocol} {m m' : Multiplexer} {p q : Stack.Packet}
    {goes : Bool} (processed : ip.processPacket m p = .ok (goes, ip', m', q)) :
    ip'.answers = ip.answers ∧ ip'.totalFragPackets = ip.totalFragPackets + (if goes then 0 else 1) := by
  unfold processPacket at processed
  obtain ⟨h, -, processed⟩ := bind_ok processed
  dsimp only at processed
  split at processed <;> obtain ⟨rfl, rfl, -⟩ := by simpa using processed
  · exact ⟨rfl, rfl⟩
  · exact ⟨rfl, (add_zero _).symm⟩

namespace IPv6Protocol

variable {ip ip' : IPv6Protocol} {m m' : Multiplexer} {p q : Stack.Packet} {w w' : Scan} {out : Outcome}
  {goes : Bool} {n : Nat}

/-- Only an iteration that stops the packet is counted as a stop. -/
theorem visit_counts (visited : visit ip p w = .ok (out, ip', q, w')) :
    ip'.answers = ip.answers ∧ ip'.stopped = ip.stopped + if out = .stop then 1 else 0 := by
  unfold visit at visited
  split at visited
  · obtain ⟨next, -, visited⟩ := bind_ok visited
    obtain ⟨len, -, visited⟩ := bind_ok visited
    obtain ⟨rfl, rfl, -⟩ := by simpa using visited
    exact ⟨rfl, (add_zero _).symm⟩
  · obtain ⟨next, -, visited⟩ := bind_ok visited
    obtain ⟨len, -, visited⟩ := bind_ok visited
    obtain ⟨rfl, rfl, -⟩ := by simpa using visited
    exact ⟨rfl, (add_zero _).symm⟩
  · obtain ⟨rfl, rfl, -⟩ := by simpa using visited
    exact ⟨rfl, (add_zero _).symm⟩
  · obtain ⟨rfl, rfl, -⟩ := by simpa using visited
    exact ⟨rfl, add_right_comm _ _ _⟩
  · obtain ⟨rfl, rfl, -⟩ := by simpa using visited
    exact ⟨rfl, (add_assoc _ _ _).symm⟩
  · obtain ⟨rfl, rfl, -⟩ := by simpa using visited
    exact ⟨rfl, (add_zero _).symm⟩

theorem loop_counts (looped : loop ip p w n = .ok (out, ip', q, w')) :
    ip'.answers = ip.answers ∧ ip'.stopped = ip.stopped + if out = .stop then 1 else 0 := by
  induction n generalizing ip p w with
  | zero =>
    obtain ⟨rfl, rfl, -⟩ := by simpa [loop] using looped
    exact ⟨rfl, (add_zero _).symm⟩
  | succ n ih =>
    unfold loop at looped
    obtain ⟨⟨first, ip₁, p₁, w₁⟩, visited, looped⟩ := bind_ok looped
    obtain ⟨answers, stopped⟩ := visit_counts visited
    cases first with
    | again =>
      obtain ⟨later, rest⟩ := ih looped
      rw [stopped, if_neg nofun, add_zero] at rest
      exact ⟨later.trans answers, rest⟩
    | forward | stop =>
      obtain ⟨rfl, rfl, -⟩ := by simpa using looped
      exact ⟨answers, stopped⟩

/-- A packet that stays is counted, or its chain of headers is too long for the loop. -/
theorem processPacket_counts (processed : ip.processPacket m p = .ok (goes, ip', m', q)) :
    ip'.answers = ip.answers ∧
      (ip'.stopped = ip.stopped ∨ goes = false ∧ ip'.stopped = ip.stopped + 1) := by
  unfold processPacket at processed
  obtain ⟨next, -, processed⟩ := bind_ok processed
  obtain ⟨source, -, processed⟩ := bind_ok processed
  obtain ⟨destination, -, processed⟩ := bind_ok processed
  obtain ⟨⟨out, ip₁, p₁, w⟩, looped, processed⟩ := bind_ok processed
  obtain ⟨answers, stopped⟩ := loop_counts looped
  cases out with
  | forward | again =>
    obtain ⟨-, rfl, -⟩ := by simpa using processed
    rw [if_neg nofun, add_zero] at stopped
    exact ⟨answers, Or.inl stopped⟩
  | stop =>
    obtain ⟨rfl, rfl, -⟩ := by simpa using processed
    exact ⟨answers, Or.inr ⟨rfl, stopped⟩⟩

end IPv6Protocol

/-! ### The stack -/

namespace NetworkStack

open StackKind (Wired known_links)

variable {τ : Type} {T : Transports τ} {s s' t : NetworkStack τ} {m : Mux} {p q : Frame} {b goes : Bool}
  {n : Nat} {forward : NetworkStack τ → Mux → Frame → Except Fault (NetworkStack τ × Frame)}

def answers (T : Transports τ) (s : NetworkStack τ) : Mux → Bool → Nat
  | .eth => s.ethernet.answers
  | .vlan => s.vlan.answers
  | .mpls => s.mpls.answers
  | .ip => if s.kind = .lanIPv6 then s.ip6.answers else s.ip.answers
  | .gre => s.gre.answers
  | .tunnel => fun _ => 0
  | .ethVir => s.ethernetVir.answers
  | .ipVir => s.ipVir.answers
  | m => T.checks s.upper m

/-- What IP has kept. -/
def stopped (s : NetworkStack τ) : Mux → BitVec 32
  | .ip => if s.kind = .lanIPv6 then s.ip6.stopped else s.ip.totalFragPackets
  | .ipVir => s.ipVir.totalFragPackets
  | _ => 0

def accounts (T : Transports τ) (s : NetworkStack τ) : Accounts where
  received k := (s.relay k).totalReceivedPackets
  forwarded k := (s.relay k).totalForwardPackets
  failed k := (s.relay k).totalFailPackets
  checks := s.answers T
  stopped := s.stopped

/-- The stack is still the same one. -/
structure Same (s s' : NetworkStack τ) : Prop where
  kind : s'.kind = s.kind
  links : s'.links = s.links

theorem Same.refl (s : NetworkStack τ) : Same s s := ⟨rfl, rfl⟩

theorem Same.trans (one : Same s s') (two : Same s' t) : Same s t :=
  ⟨two.kind.trans one.kind, two.links.trans one.links⟩

theorem bump_relay (f : Relay → Nat) (r : Relay) (more : f r = f (s.relay m) + 1) :
    (fun k => f ((s.setRelay m r).relay k)) = Accounts.bump (fun k => f (s.relay k)) m := by
  funext k
  by_cases here : k = m
  · simpa [setRelay, Accounts.bump, here] using more
  · simp [setRelay, Accounts.bump, here]

theorem keep_relay (f : Relay → Nat) (r : Relay) (same : f r = f (s.relay m)) :
    (fun k => f ((s.setRelay m r).relay k)) = fun k => f (s.relay k) := by
  funext k
  by_cases here : k = m
  · simpa [setRelay, here] using same
  · simp [setRelay, here]

@[simp] theorem accounts_setRegisters (r : Multiplexer) :
    (s.setRegisters m r).accounts T = s.accounts T :=
  Accounts.ext (keep_relay Relay.totalReceivedPackets _ rfl) (keep_relay Relay.totalForwardPackets _ rfl)
    (keep_relay Relay.totalFailPackets _ rfl) rfl rfl

theorem accounts_countReceived : (s.countReceived m).accounts T = (s.accounts T).receive m :=
  Accounts.ext (bump_relay Relay.totalReceivedPackets _ rfl) (keep_relay Relay.totalForwardPackets _ rfl)
    (keep_relay Relay.totalFailPackets _ rfl) rfl rfl

theorem accounts_countForward : (s.countForward m).accounts T = (s.accounts T).forward m :=
  Accounts.ext (keep_relay Relay.totalReceivedPackets _ rfl) (bump_relay Relay.totalForwardPackets _ rfl)
    (keep_relay Relay.totalFailPackets _ rfl) rfl rfl

theorem accounts_countFail : (s.countFail m).accounts T = (s.accounts T).fail m :=
  Accounts.ext (keep_relay Relay.totalReceivedPackets _ rfl) (keep_relay Relay.totalForwardPackets _ rfl)
    (bump_relay Relay.totalFailPackets _ rfl) rfl rfl

theorem accounts_answer (relay : s'.relay = s.relay) (stopped : s'.stopped = s.stopped)
    (here : ∀ c, s'.answers T m c = s.answers T m c + if c = b then 1 else 0)
    (others : ∀ k, k ≠ m → s'.answers T k = s.answers T k) :
    s'.accounts T = (s.accounts T).answer m b := by
  have checks : s'.answers T =
      fun k c => s.answers T k c + if k = m ∧ c = b then 1 else 0 := by
    funext k c
    by_cases same : k = m
    · simpa [same] using here c
    · simp [same, others k same]
  unfold accounts
  rw [relay, stopped, checks]
  rfl

theorem accounts_upper {u : τ} (layer : ∀ u, ({ s with upper := u }).answers T m = T.checks u m)
    (counted : ∀ k c, T.checks u k c = T.checks s.upper k c + if k = m ∧ c = b then 1 else 0) :
    ({ s with upper := u }).accounts T = (s.accounts T).answer m b := by
  have others (k : Mux) (other : k ≠ m) : T.checks u k = T.checks s.upper k := by
    funext c
    simpa [other] using counted k c
  refine accounts_answer rfl rfl (fun c => ?_)
    (fun k other => by cases k <;> first | rfl | exact others _ other)
  rw [layer u]
  exact (counted m c).trans (by rw [← layer s.upper]; simp)

/-- One checker answers, once. -/
theorem acceptPacket_accounts (layer : m ≠ .tunnel) (accepts : s.acceptPacket T m p = .ok (b, s', q)) :
    s'.accounts T = (s.accounts T).answer m b ∧ Same s s' := by
  cases m with
  | tunnel => exact absurd rfl layer
  | eth =>
    obtain ⟨rfl, rfl, -⟩ := by simpa [acceptPacket] using accepts
    exact ⟨accounts_answer rfl rfl (EthernetProtocol.check_answers s.ethernet p.toPacket)
      (fun k other => by cases k <;> first | rfl | exact absurd rfl other), rfl, rfl⟩
  | vlan =>
    obtain ⟨rfl, rfl, -⟩ := by simpa [acceptPacket] using accepts
    exact ⟨accounts_answer rfl rfl (LayerTotals.check_answers s.vlan _)
      (fun k other => by cases k <;> first | rfl | exact absurd rfl other), rfl, rfl⟩
  | mpls =>
    obtain ⟨rfl, rfl, -⟩ := by simpa [acceptPacket] using accepts
    exact ⟨accounts_answer rfl rfl (MPLSProtocol.mplsChecker_answers s.mpls p.toPacket)
      (fun k other => by cases k <;> first | rfl | exact absurd rfl other), rfl, rfl⟩
  | ip =>
    have accepts : s.checkIP p = .ok (b, s', q) := accepts
    unfold checkIP at accepts
    by_cases six : s.kind = .lanIPv6
    · rw [if_pos six] at accepts
      obtain ⟨⟨b', ip6⟩, checked, accepts⟩ := bind_ok accepts
      obtain ⟨rfl, rfl, -⟩ := by simpa using accepts
      obtain ⟨answers, stopped⟩ := IPv6Protocol.ip6Checker_answers checked
      exact ⟨accounts_answer rfl (by funext k; cases k <;> simp [NetworkStack.stopped, six, stopped])
        (by simpa [NetworkStack.answers, six] using answers)
        (fun k other => by cases k <;> first | rfl | exact absurd rfl other), rfl, rfl⟩
    · rw [if_neg six] at accepts
      obtain ⟨⟨b', ip⟩, checked, accepts⟩ := bind_ok accepts
      obtain ⟨rfl, rfl, -⟩ := by simpa using accepts
      obtain ⟨answers, stopped⟩ := IPProtocol.ipChecker_answers checked
      exact ⟨accounts_answer rfl (by funext k; cases k <;> simp [NetworkStack.stopped, six, stopped])
        (by simpa [NetworkStack.answers, six] using answers)
        (fun k other => by cases k <;> first | rfl | exact absurd rfl other), rfl, rfl⟩
  | gre =>
    obtain ⟨⟨b', gre⟩, checked, accepts⟩ := bind_ok accepts
    obtain ⟨rfl, rfl, -⟩ := by simpa using accepts
    exact ⟨accounts_answer rfl rfl (GREProtocol.greChecker_answers checked)
      (fun k other => by cases k <;> first | rfl | exact absurd rfl other), rfl, rfl⟩
  | ethVir =>
    obtain ⟨rfl, rfl, -⟩ := by simpa [acceptPacket] using accepts
    exact ⟨accounts_answer rfl rfl (EthernetProtocol.check_answers s.ethernetVir p.toPacket)
      (fun k other => by cases k <;> first | rfl | exact absurd rfl other), rfl, rfl⟩
  | ipVir =>
    obtain ⟨⟨b', ip⟩, checked, accepts⟩ := bind_ok accepts
    obtain ⟨rfl, rfl, -⟩ := by simpa using accepts
    obtain ⟨answers, stopped⟩ := IPProtocol.ipChecker_answers checked
    exact ⟨accounts_answer rfl (by funext k; cases k <;> simp [NetworkStack.stopped, stopped]) answers
      (fun k other => by cases k <;> first | rfl | exact absurd rfl other), rfl, rfl⟩
  | udp | tcp | icmp | udpVir | tcpVir | icmpVir =>
    obtain ⟨⟨b', upper, p'⟩, checked, accepts⟩ := bind_ok accepts
    obtain ⟨rfl, rfl, -⟩ := by simpa using accepts
    exact ⟨accounts_upper (fun u => rfl) (T.check_checks checked), rfl, rfl⟩

/-- What `packet_func_` of a multiplexer does to the accounts. -/
inductive Handling (kind : StackKind) (links : List Link) (m : Mux) (a : Accounts) : Bool → Accounts → Prop
  | kept : Handling kind links m a true a
  | carried {b : Accounts} (carrier : kind.carrier = some m) (inner : Passage kind links .tunnel a b) :
    Handling kind links m a true b
  | stopped : Handling kind links m a false (a.stop m)
  | lost (ip6 : kind = .lanIPv6) (ip : m = .ip) : Handling kind links m a false a

/-- Calls from a multiplexer on change the accounts as a packet may. -/
def Passes (T : Transports τ) (forward : NetworkStack τ → Mux → Frame → Except Fault (NetworkStack τ × Frame))
    (m : Mux) : Prop :=
  ∀ s s' p q, Wired s.kind s.links → forward s m p = .ok (s', q) →
    Passage s.kind s.links m (s.accounts T) (s'.accounts T) ∧ Same s s'

theorem accounts_eq (relay : s'.relay = s.relay) (answers : s'.answers T = s.answers T)
    (stopped : s'.stopped = s.stopped) : s'.accounts T = s.accounts T := by
  unfold accounts
  rw [relay, answers, stopped]

theorem accounts_processed {u : τ} (checks : T.checks u = T.checks s.upper) :
    ({ s with upper := u }).accounts T = s.accounts T :=
  accounts_eq rfl (by funext k; cases k <;> first | rfl | exact congrFun checks _) rfl

theorem openTunnel_accounts {h : Handed} {content : Content} (opens : s.openTunnel h p = .ok (s', content)) :
    s'.accounts T = s.accounts T ∧ Same s s' := by
  unfold openTunnel at opens
  split at opens
  · obtain ⟨⟨gprs, r, content⟩, -, opens⟩ := bind_ok opens
    obtain ⟨rfl, -⟩ := by simpa using opens
    exact ⟨accounts_setRegisters _, rfl, rfl⟩
  · obtain ⟨⟨vxlan, r, inner⟩, -, opens⟩ := bind_ok opens
    obtain ⟨rfl, -⟩ := by simpa using opens
    exact ⟨accounts_setRegisters _, rfl, rfl⟩
  · obtain ⟨⟨of, r, inner⟩, -, opens⟩ := bind_ok opens
    obtain ⟨rfl, -⟩ := by simpa using opens
    exact ⟨accounts_setRegisters _, rfl, rfl⟩
  · obtain ⟨rfl, -⟩ := by simpa using opens
    exact ⟨rfl, Same.refl _⟩
  · obtain ⟨rfl, -⟩ := by simpa using opens
    exact ⟨rfl, Same.refl _⟩

/-- Nothing is in the tunnel, or one packet. -/
theorem runTunnel_accounts {h : Handed} {back : Handback} (wired : Wired s.kind s.links)
    (passes : Passes T forward .tunnel) (ran : s.runTunnel forward h p = .ok (s', q, back)) :
    (s'.accounts T = s.accounts T ∨
      Passage s.kind s.links .tunnel (s.accounts T) (s'.accounts T)) ∧ Same s s' := by
  unfold runTunnel at ran
  obtain ⟨⟨t, content⟩, opens, ran⟩ := bind_ok ran
  obtain ⟨opened, same⟩ := openTunnel_accounts (T := T) opens
  cases content with
  | nothing | context =>
    obtain ⟨rfl, -⟩ := by simpa using ran
    exact ⟨Or.inl opened, same⟩
  | packet inner =>
    obtain ⟨⟨t', inner'⟩, forwarded, ran⟩ := bind_ok ran
    obtain ⟨rfl, -⟩ := by simpa using ran
    obtain ⟨passage, same'⟩ := passes _ _ _ _ (by rw [same.kind, same.links]; exact wired) forwarded
    rw [opened, same.kind, same.links] at passage
    exact ⟨Or.inr passage, same.trans same'⟩

theorem tunnelChecker_accounts {address : Nat} (checked : s.tunnelChecker address p = .ok (b, s')) :
    s'.accounts T = s.accounts T ∧ Same s s' := by
  unfold tunnelChecker at checked
  split at checked
  · obtain ⟨⟨b', gprs⟩, -, checked⟩ := bind_ok checked
    obtain ⟨-, rfl⟩ := by simpa using checked
    exact ⟨rfl, rfl, rfl⟩
  · obtain ⟨⟨b', vxlan⟩, -, checked⟩ := bind_ok checked
    obtain ⟨-, rfl⟩ := by simpa using checked
    exact ⟨rfl, rfl, rfl⟩
  · obtain ⟨⟨b', of⟩, -, checked⟩ := bind_ok checked
    obtain ⟨-, rfl⟩ := by simpa using checked
    exact ⟨rfl, rfl, rfl⟩
  · obtain ⟨-, rfl⟩ := by simpa using checked
    exact ⟨rfl, Same.refl _⟩
  · obtain ⟨-, rfl⟩ := by simpa using checked
    exact ⟨rfl, Same.refl _⟩

theorem forwardFlow_accounts {h : Handed} {back : Handback} (wired : Wired s.kind s.links)
    (passes : Passes T forward .tunnel) (ran : s.forwardFlow forward h p = .ok (s', q, back)) :
    (s'.accounts T = s.accounts T ∨
      Passage s.kind s.links .tunnel (s.accounts T) (s'.accounts T)) ∧ Same s s' := by
  unfold forwardFlow at ran
  split at ran
  · exact runTunnel_accounts wired passes ran
  · obtain ⟨⟨accepted, t⟩, checked, ran⟩ := bind_ok ran
    obtain ⟨unchanged, same⟩ := tunnelChecker_accounts (T := T) checked
    dsimp only at ran
    split at ran
    · obtain ⟨inner, same'⟩ := runTunnel_accounts (by rw [same.kind, same.links]; exact wired) passes ran
      rw [unchanged, same.kind, same.links] at inner
      exact ⟨inner, same.trans same'⟩
    · obtain ⟨rfl, -⟩ := by simpa using ran
      exact ⟨Or.inl unchanged, same⟩

theorem processTransport_handling (wired : Wired s.kind s.links)
    (passes : s.kind.carrier = some m → Passes T forward .tunnel)
    (processed : s.processTransport T forward m p = .ok (s', q)) :
    Handling s.kind s.links m (s.accounts T) true (s'.accounts T) ∧ Same s s' := by
  unfold processTransport at processed
  dsimp only at processed
  split at processed
  · rename_i carrier
    unfold processCarrier at processed
    obtain ⟨⟨u, p', handed⟩, before, processed⟩ := bind_ok processed
    have first := accounts_processed (s := s) (T.before_checks before)
    cases handed with
    | none =>
      obtain ⟨⟨u', q'⟩, after, processed⟩ := bind_ok processed
      obtain ⟨rfl, -⟩ := by simpa using processed
      have second := accounts_processed (s := { s with upper := u }) (T.after_checks after)
      exact ⟨second.trans first ▸ .kept, rfl, rfl⟩
    | some h =>
      obtain ⟨⟨t, q', back⟩, ran, processed⟩ := bind_ok processed
      obtain ⟨⟨u', q''⟩, after, processed⟩ := bind_ok processed
      obtain ⟨rfl, -⟩ := by simpa using processed
      obtain ⟨inner, same⟩ := forwardFlow_accounts (s := { s with upper := u }) wired (passes carrier) ran
      have second := accounts_processed (s := t) (T.after_checks after)
      rw [second]
      refine ⟨?_, same.kind, same.links⟩
      rw [first] at inner
      rcases inner with unchanged | passage
      · rw [unchanged]
        exact .kept
      · exact .carried carrier passage
  · obtain ⟨⟨u, q'⟩, processes, processed⟩ := bind_ok processed
    obtain ⟨rfl, -⟩ := by simpa using processed
    exact ⟨accounts_processed (s := s) (T.process_checks processes) ▸ .kept, rfl, rfl⟩

theorem accounts_stop (relay : s'.relay = s.relay) (answers : s'.answers T = s.answers T)
    (stopped : s'.stopped = fun k => s.stopped k + if k = m then 1 else 0) :
    s'.accounts T = (s.accounts T).stop m := by
  unfold accounts
  rw [relay, answers, stopped]
  rfl

theorem processIP_handling (processed : s.processIP p = .ok (goes, s', q)) :
    Handling s.kind s.links .ip (s.accounts T) goes (s'.accounts T) ∧ Same s s' := by
  unfold processIP at processed
  by_cases six : s.kind = .lanIPv6
  · rw [if_pos six] at processed
    obtain ⟨⟨goes', ip6, r, q'⟩, ran, processed⟩ := bind_ok processed
    obtain ⟨rfl, rfl, -⟩ := by simpa using processed
    obtain ⟨checks, stops⟩ := IPv6Protocol.processPacket_counts ran
    have answers : ({ s with ip6 := ip6 }).answers T = s.answers T := by
      funext k
      cases k <;> simp [NetworkStack.answers, checks]
    rw [accounts_setRegisters]
    refine ⟨?_, rfl, rfl⟩
    rcases stops with same | ⟨rfl, more⟩
    · have stopped : ({ s with ip6 := ip6 }).stopped = s.stopped := by
        funext k
        cases k <;> simp [NetworkStack.stopped, same]
      have unchanged : ({ s with ip6 := ip6 }).accounts T = s.accounts T := accounts_eq rfl answers stopped
      rw [unchanged]
      cases goes' with
      | true => exact .kept
      | false => exact .lost six rfl
    · have counted : ({ s with ip6 := ip6 }).accounts T = (s.accounts T).stop .ip :=
        accounts_stop rfl answers
          (by funext k; cases k <;> simp [NetworkStack.stopped, six, more])
      rw [counted]
      exact .stopped
  · rw [if_neg six] at processed
    obtain ⟨⟨goes', ip, r, q'⟩, ran, processed⟩ := bind_ok processed
    obtain ⟨rfl, rfl, -⟩ := by simpa using processed
    obtain ⟨checks, stops⟩ := IPProtocol.processPacket_counts ran
    have answers : ({ s with ip := ip }).answers T = s.answers T := by
      funext k
      cases k <;> simp [NetworkStack.answers, checks]
    rw [accounts_setRegisters]
    refine ⟨?_, rfl, rfl⟩
    cases goes' with
    | true =>
      have unchanged : ({ s with ip := ip }).accounts T = s.accounts T :=
        accounts_eq rfl answers (by funext k; cases k <;> simp [NetworkStack.stopped, stops])
      rw [unchanged]
      exact .kept
    | false =>
      have counted : ({ s with ip := ip }).accounts T = (s.accounts T).stop .ip :=
        accounts_stop rfl answers
          (by funext k; cases k <;> simp [NetworkStack.stopped, six, stops])
      rw [counted]
      exact .stopped

theorem packetFunc_handling (wired : Wired s.kind s.links)
    (passes : s.kind.carrier = some m → Passes T forward .tunnel)
    (ran : s.packetFunc T forward m p = .ok (goes, s', q)) :
    Handling s.kind s.links m (s.accounts T) goes (s'.accounts T) ∧ Same s s' := by
  cases m with
  | eth | tunnel =>
    obtain ⟨rfl, rfl, -⟩ := by simpa [packetFunc] using ran
    exact ⟨.kept, Same.refl _⟩
  | vlan =>
    obtain ⟨⟨vlan, r, q'⟩, processed, ran⟩ := bind_ok ran
    obtain ⟨rfl, rfl, -⟩ := by simpa using ran
    obtain ⟨type, -, processed⟩ := bind_ok processed
    obtain ⟨rfl, -⟩ := by simpa using processed
    rw [accounts_setRegisters]
    exact ⟨.kept, rfl, rfl⟩
  | mpls =>
    obtain ⟨⟨goes', mpls, r, q'⟩, processed, ran⟩ := bind_ok ran
    obtain ⟨rfl, rfl, -⟩ := by simpa using ran
    obtain ⟨w, -, processed⟩ := bind_ok processed
    obtain ⟨rfl, rfl, -⟩ := by simpa using processed
    rw [accounts_setRegisters]
    exact ⟨.kept, rfl, rfl⟩
  | ip => exact processIP_handling ran
  | gre =>
    obtain ⟨rfl, rfl, -⟩ := by simpa [packetFunc] using ran
    rw [accounts_setRegisters]
    exact ⟨.kept, rfl, rfl⟩
  | ethVir =>
    obtain ⟨⟨eth, r, q'⟩, processed, ran⟩ := bind_ok ran
    obtain ⟨rfl, rfl, -⟩ := by simpa using ran
    obtain ⟨type, -, processed⟩ := bind_ok processed
    obtain ⟨rfl, -⟩ := by simpa using processed
    rw [accounts_setRegisters]
    exact ⟨.kept, rfl, rfl⟩
  | ipVir =>
    obtain ⟨⟨goes', ip, r, q'⟩, processed, ran⟩ := bind_ok ran
    obtain ⟨rfl, rfl, -⟩ := by simpa using ran
    obtain ⟨checks, stops⟩ := IPProtocol.processPacket_counts processed
    have answers : ({ s with ipVir := ip }).answers T = s.answers T := by
      funext k
      cases k <;> simp [NetworkStack.answers, checks]
    rw [accounts_setRegisters]
    refine ⟨?_, rfl, rfl⟩
    cases goes' with
    | true =>
      have unchanged : ({ s with ipVir := ip }).accounts T = s.accounts T :=
        accounts_eq rfl answers (by funext k; cases k <;> simp [NetworkStack.stopped, stops])
      rw [unchanged]
      exact .kept
    | false =>
      have counted : ({ s with ipVir := ip }).accounts T = (s.accounts T).stop .ipVir :=
        accounts_stop rfl answers
          (by funext k; cases k <;> simp [NetworkStack.stopped, stops])
      rw [counted]
      exact .stopped
  | udp | tcp | icmp | udpVir | tcpVir | icmpVir =>
    obtain ⟨⟨t, q'⟩, processed, ran⟩ := bind_ok ran
    obtain ⟨rfl, rfl, -⟩ := by simpa using ran
    exact processTransport_handling wired passes processed

theorem getUpMultiplexer_linked {up : Mux} {key : BitVec 16} (found : s.getUpMultiplexer m key = some up) :
    ∃ l ∈ s.links, l.source = m ∧ l.key = key ∧ l.target = up := by
  unfold getUpMultiplexer at found
  obtain ⟨l, first, rfl⟩ := Option.map_eq_some_iff.mp found
  have matching := List.find?_some first
  exact ⟨l, List.mem_of_find?_eq_some first, (of_decide_eq_true matching).1, (of_decide_eq_true matching).2, rfl⟩

/-- The whole way of a packet from a multiplexer on, when enough calls may be nested. -/
theorem forwardPacket_passes (enough : 8 ≤ n + m.rank) : Passes T (forwardPacket T n) m := by
  induction n generalizing m with
  | zero =>
    exfalso
    cases m <;> simp [Mux.rank] at enough
  | succ n ih =>
    intro s s' p q wired forwarded
    unfold forwardPacket at forwarded
    dsimp only at forwarded
    cases found : (s.countReceived m).getUpMultiplexer m
        ((s.countReceived m).relay m).registers.nextProtocolId with
    | none =>
      rw [found] at forwarded
      obtain ⟨rfl, -⟩ := by simpa using forwarded
      rw [accounts_countFail, accounts_countReceived]
      exact ⟨.fails m _, rfl, rfl⟩
    | some up =>
      rw [found] at forwarded
      obtain ⟨⟨accepted, t, p₁⟩, accepts, forwarded⟩ := bind_ok forwarded
      obtain ⟨l, linked, rfl, -, rfl⟩ := getUpMultiplexer_linked found
      have linked : l ∈ s.links := linked
      have known := known_links s.kind l (wired l linked)
      obtain ⟨answered, same⟩ := acceptPacket_accounts known.1 accepts
      rw [accounts_countReceived] at answered
      have same : Same s t := ⟨same.kind, same.links⟩
      dsimp only at forwarded
      split at forwarded
      · rename_i yes
        subst yes
        have higher := l.rises
        obtain ⟨⟨goes, t', p₂⟩, ran, forwarded⟩ := bind_ok forwarded
        have wired' : Wired t.kind t.links := by
          rw [same.kind, same.links]
          exact wired
        -- a tunnel is above the transport that carries it
        have nested : t.kind.carrier = some l.target → Passes T (forwardPacket T n) .tunnel := by
          intro carrier
          rw [same.kind] at carrier
          have middle := known.2.2.2 carrier
          have low : 8 ≤ n + Mux.tunnel.rank := by
            show 8 ≤ n + 4
            omega
          exact ih low
        obtain ⟨handling, same'⟩ := packetFunc_handling wired' nested ran
        have both := same.trans same'
        rw [answered, same.kind, same.links] at handling
        have onward : goes = true → Passage s.kind s.links l.target
            ((t'.accounts T).forward l.source) (s'.accounts T) ∧ Same s s' := by
          rintro rfl
          obtain ⟨⟨t'', p₃⟩, later, forwarded⟩ := bind_ok forwarded
          obtain ⟨rfl, -⟩ := by simpa using forwarded
          have kind : (t'.countForward l.source).kind = s.kind := both.kind
          have links : (t'.countForward l.source).links = s.links := both.links
          obtain ⟨rest, same''⟩ := ih (m := l.target) (by omega) _ _ _ _
            (by rw [kind, links]; exact wired) later
          rw [kind, links, accounts_countForward] at rest
          exact ⟨rest, same''.kind.trans kind, same''.links.trans links⟩
        have stays : goes = false → s' = t' := by
          rintro rfl
          exact (by simpa using forwarded : t' = s' ∧ _).1.symm
        cases goes with
        | true =>
          obtain ⟨rest, whole⟩ := onward rfl
          refine ⟨?_, whole⟩
          generalize t'.accounts T = b at handling rest
          cases handling with
          | kept => exact .goes linked rest
          | carried carrier inner => exact .carries linked carrier inner rest
        | false =>
          rw [stays rfl]
          refine ⟨?_, both⟩
          generalize t'.accounts T = b at handling ⊢
          cases handling with
          | stopped => exact .stopped linked
          | lost ip6 ip => exact .lost linked ip6 ip
      · rename_i no
        obtain rfl : accepted = false := by simpa using no
        obtain ⟨rfl, -⟩ := by simpa using forwarded
        rw [answered]
        exact ⟨.rejected linked, same⟩

/-- A frame is refused at the door, or goes its way. -/
theorem forwardRawPacket_accounts {raw : RawPacket} {time : Int} (wired : Wired s.kind s.links)
    (forwarded : s.forwardRawPacket T raw time = .ok (s', q)) :
    (s'.accounts T = (s.accounts T).answer .eth false ∨
      Passage s.kind s.links .eth ((s.accounts T).answer .eth true) (s'.accounts T)) ∧ Same s s' := by
  unfold forwardRawPacket at forwarded
  obtain ⟨⟨accepted, t, p⟩, accepts, forwarded⟩ := bind_ok forwarded
  obtain ⟨answered, same⟩ := acceptPacket_accounts (by decide) accepts
  dsimp only at forwarded
  cases accepted with
  | false =>
    obtain ⟨rfl, -⟩ := by simpa using forwarded
    exact ⟨Or.inl answered, same⟩
  | true =>
    obtain ⟨type, -, forwarded⟩ := bind_ok forwarded
    obtain ⟨passage, same'⟩ := forwardPacket_passes (by decide) _ _ _ _
      (by rw [show (t.setRegisters .eth _).kind = s.kind from same.kind,
            show (t.setRegisters .eth _).links = s.links from same.links]; exact wired) forwarded
    rw [accounts_setRegisters, answered, show (t.setRegisters .eth _).kind = s.kind from same.kind,
      show (t.setRegisters .eth _).links = s.links from same.links] at passage
    exact ⟨Or.inr passage, same'.kind.trans same.kind, same'.links.trans same.links⟩

end NetworkStack

end AIEngine
