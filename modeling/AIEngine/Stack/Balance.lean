import Mathlib.Algebra.BigOperators.ModEq
import Mathlib.Algebra.Order.BigOperators.Group.Finset
import AIEngine.Stack.LanTransports

/-!
# The balance of a network stack

What the counters of a stack add up to over a whole run, with frames of any kind and layers that are enabled
on the way.
-/

namespace AIEngine

open Accounts (bump total)
open Ending (bind_ok)
open Stack (Frame)
open StackKind (Wired known_links)

namespace Accounts

/-- The malformed packets of all layers. -/
def malformed (a : Accounts) : Nat := total fun k => a.checks k false

/-- What has come to an end: there is no layer for it, a layer has stopped it, or it is malformed. -/
def ended (a : Accounts) : Nat := total a.failed + (total fun k => (a.stopped k).toNat) + a.malformed

/-- What has come in: the frames that Ethernet is asked about, and the packets that a tunnel brings. -/
def begun (a : Accounts) : Nat := a.asked .eth + a.received .tunnel

/-- The books of a stack. -/
structure Balanced (kind : StackKind) (a : Accounts) : Prop where
  /-- what a layer has validated, its multiplexer has received, unless the layer has stopped it; the stops
  are counted modulo `2 ^ 32` -/
  layers : ∀ k, k ≠ .tunnel → (kind = .lanIPv6 → k ≠ .ip) →
    a.checks k true % 4294967296 = (a.received k + (a.stopped k).toNat) % 4294967296
  validated : ∀ k, k ≠ .tunnel → a.received k + (a.stopped k).toNat ≤ a.checks k true
  /-- what is forwarded is received, once -/
  handed : total a.forwarded + a.received .eth + a.received .tunnel = total a.received
  hops : total a.received + a.asked .eth = total a.failed + total a.asked

variable {kind : StackKind} {links : List Link} {a b : Accounts}

theorem balanced_empty (kind : StackKind) : Balanced kind {} where
  layers _ _ _ := rfl
  validated _ _ := Nat.le_refl _
  handed := by simp [total]
  hops := by simp [total, asked]

theorem total_asked (a : Accounts) : total a.asked = (total fun k => a.checks k true) + a.malformed := by
  unfold malformed total asked
  exact Finset.sum_add_distrib

/-- The two sides of a layer, the tunnel apart, summed over all layers. -/
theorem layers_total (f g : Mux → Nat) :
    (total fun k => f k + if k = .tunnel then g k else 0) = total f + g .tunnel := by
  unfold total
  rw [Finset.sum_add_distrib, Finset.sum_ite_eq' Finset.univ Mux.tunnel, if_pos (Finset.mem_univ _)]

theorem received_stopped_total (a : Accounts) :
    (total fun k => a.received k + (a.stopped k).toNat) =
      total a.received + total fun k => (a.stopped k).toNat :=
  Finset.sum_add_distrib

/-- Nothing ends that has not begun. -/
theorem Balanced.ended_le (balanced : Balanced kind a) (kept : a.stopped .tunnel = 0) :
    a.ended ≤ a.begun := by
  have each (k : Mux) : a.received k + (a.stopped k).toNat ≤
      a.checks k true + if k = .tunnel then a.received k else 0 := by
    by_cases tunnel : k = .tunnel
    · simp [tunnel, kept]
    · simpa [tunnel] using balanced.validated k tunnel
  have sums : (total fun k => a.received k + (a.stopped k).toNat) ≤
      total fun k => a.checks k true + if k = .tunnel then a.received k else 0 :=
    Finset.sum_le_sum fun k _ => each k
  rw [layers_total, received_stopped_total] at sums
  have hops := balanced.hops
  rw [total_asked] at hops
  unfold ended begun
  omega

/-- With IPv4, each packet that has begun has ended, up to whole turns of the counters of stops. -/
theorem Balanced.ended_eq (balanced : Balanced kind a) (unchecked : a.checks .tunnel true = 0)
    (kept : a.stopped .tunnel = 0) (four : kind ≠ .lanIPv6) :
    a.ended % 4294967296 = a.begun % 4294967296 := by
  have each (k : Mux) : a.received k + (a.stopped k).toNat ≡
      a.checks k true + (if k = .tunnel then a.received k else 0) [MOD 4294967296] := by
    by_cases tunnel : k = .tunnel
    · simp [tunnel, kept, unchecked, Nat.ModEq.refl]
    · rw [if_neg tunnel]
      exact (balanced.layers k tunnel fun six => absurd six four).symm
  have sums : (total fun k => a.received k + (a.stopped k).toNat) ≡
      (total fun k => a.checks k true + if k = .tunnel then a.received k else 0) [MOD 4294967296] :=
    Nat.ModEq.sum fun k _ => each k
  rw [layers_total, received_stopped_total] at sums
  have sums : (total a.received + total fun k => (a.stopped k).toNat) % 4294967296 =
      ((total fun k => a.checks k true) + a.received .tunnel) % 4294967296 := sums
  have hops := balanced.hops
  rw [total_asked] at hops
  unfold ended begun
  omega

theorem Balanced.refuse (balanced : Balanced kind a) : Balanced kind (a.answer .eth false) where
  layers k tunnel lossless := by simpa using balanced.layers k tunnel lossless
  validated k tunnel := by simpa using balanced.validated k tunnel
  handed := by simpa using balanced.handed
  hops := by
    have hops := balanced.hops
    simp [asked_answer, bump]
    omega

/-- The balance after a frame. -/
theorem Balanced.passage (balanced : Balanced kind a) (wired : Wired kind links)
    (passage : Passage kind links .eth (a.answer .eth true) b) : Balanced kind b where
  layers k tunnel lossless := by
    have before := balanced.layers k tunnel lossless
    have across := passage.validated tunnel lossless
    simp only [answer_checks, answer_received, answer_stopped, and_true] at across
    omega
  validated k tunnel := by
    have before := balanced.validated k tunnel
    have across := passage.validated_le (k := k) tunnel
    simp at across
    omega
  handed := by
    have before := balanced.handed
    have across := passage.handed wired
    obtain ⟨first, -⟩ := passage.bottom wired
    simp at across first
    omega
  hops := by
    have before := balanced.hops
    have across := passage.hops
    obtain ⟨-, first⟩ := passage.bottom wired
    simp at across
    simp [asked_answer, bump] at first
    omega

end Accounts

namespace NetworkStack

variable {τ : Type} {T : Transports τ} {s s' t : NetworkStack τ}

/-- The books are in order, and with IPv4 each packet has come to exactly one end; as the stops are counted in
words of 32 bits, an equation with them holds modulo `2 ^ 32`. -/
structure Settled (T : Transports τ) (s : NetworkStack τ) : Prop where
  balanced : Accounts.Balanced s.kind (s.accounts T)
  ended_le : (s.accounts T).ended ≤ (s.accounts T).begun
  ended_eq : s.kind ≠ .lanIPv6 → (s.accounts T).ended % 4294967296 = (s.accounts T).begun % 4294967296

theorem wired_enableLinkLayerTagging (wired : Wired s.kind s.links) (type : String) :
    Wired (s.enableLinkLayerTagging type).kind (s.enableLinkLayerTagging type).links := by
  have tagging {l : Link} (known : l ∈ StackKind.taggingLinks) : l ∈ s.kind.links ++ StackKind.taggingLinks :=
    List.mem_append_right _ known
  unfold enableLinkLayerTagging addUpMultiplexer
  split
  · intro l linked
    rcases List.mem_cons.mp linked with rfl | linked
    · exact tagging (by simp [StackKind.taggingLinks])
    · rcases List.mem_cons.mp linked with rfl | linked
      · exact tagging (by simp [StackKind.taggingLinks])
      · exact wired l linked
  · split
    · intro l linked
      rcases List.mem_cons.mp linked with rfl | linked
      · exact tagging (by simp [StackKind.taggingLinks])
      · rcases List.mem_cons.mp linked with rfl | linked
        · exact tagging (by simp [StackKind.taggingLinks])
        · exact wired l linked
    · exact wired

theorem accounts_enableLinkLayerTagging (type : String) :
    (s.enableLinkLayerTagging type).accounts T = s.accounts T ∧
      (s.enableLinkLayerTagging type).kind = s.kind := by
  unfold enableLinkLayerTagging
  split
  · exact ⟨rfl, rfl⟩
  · split <;> exact ⟨rfl, rfl⟩

theorem wired_new (kind : StackKind) (upper : τ) : Wired (new kind upper).kind (new kind upper).links :=
  fun _ linked => List.mem_append_left _ (List.mem_reverse.mp linked)

/-- A call that returns. -/
theorem step_cases {c : Call} (stepped : step T s c = some t) :
    (∃ raw time q, c = .frame raw time ∧ s.forwardRawPacket T raw time = .ok (t, q)) ∨
      ∃ type, c = .enableLinkLayerTagging type ∧ t = s.enableLinkLayerTagging type := by
  unfold step at stepped
  cases called : s.call T c with
  | error e =>
    rw [called] at stepped
    exact absurd stepped (by simp [Except.toOption])
  | ok t' =>
    rw [called] at stepped
    obtain rfl := Option.some.inj stepped
    cases c with
    | frame raw time =>
      obtain ⟨⟨t, q⟩, forwarded, rest⟩ := bind_ok called
      obtain rfl := Except.ok.inj rest
      exact Or.inl ⟨raw, time, q, rfl, forwarded⟩
    | enableLinkLayerTagging type => exact Or.inr ⟨type, rfl, (Except.ok.inj called).symm⟩

theorem wired_step {c : Call} (wired : Wired s.kind s.links) (stepped : step T s c = some t) :
    Wired t.kind t.links := by
  rcases step_cases stepped with ⟨raw, time, q, -, forwarded⟩ | ⟨type, -, rfl⟩
  · obtain ⟨-, same⟩ := forwardRawPacket_accounts wired forwarded
    rw [same.kind, same.links]
    exact wired
  · exact wired_enableLinkLayerTagging wired type

theorem kind_step {c : Call} (wired : Wired s.kind s.links) (stepped : step T s c = some t) :
    t.kind = s.kind := by
  rcases step_cases stepped with ⟨raw, time, q, -, forwarded⟩ | ⟨type, -, rfl⟩
  · exact (forwardRawPacket_accounts wired forwarded).2.kind
  · exact (accounts_enableLinkLayerTagging (T := T) type).2

theorem balanced_step {c : Call} (wired : Wired s.kind s.links)
    (balanced : Accounts.Balanced s.kind (s.accounts T)) (stepped : step T s c = some t) :
    Accounts.Balanced t.kind (t.accounts T) := by
  rcases step_cases stepped with ⟨raw, time, q, -, forwarded⟩ | ⟨type, -, rfl⟩
  · obtain ⟨refused | passage, same⟩ := forwardRawPacket_accounts wired forwarded
    · rw [same.kind, refused]
      exact balanced.refuse
    · rw [same.kind]
      exact balanced.passage wired passage
  · obtain ⟨unchanged, kind⟩ := accounts_enableLinkLayerTagging (T := T) (s := s) type
    rw [unchanged, kind]
    exact balanced

/-- No counter of a new stack has counted anything. -/
theorem accounts_new (kind : StackKind) {upper : τ} (fresh : T.checks upper = fun _ _ => 0) :
    (new kind upper).accounts T = {} := by
  have answers : (new kind upper).answers T = fun _ _ => 0 := by
    funext k c
    cases k with
    | ip =>
      unfold NetworkStack.answers
      split <;> cases c <;> rfl
    | udp | tcp | icmp | udpVir | tcpVir | icmpVir => exact congrFun (congrFun fresh _) c
    | tunnel => rfl
    | eth | vlan | mpls | gre | ethVir | ipVir => cases c <;> rfl
  have stopped : (new kind upper).stopped = fun _ => 0 := by
    funext k
    cases k with
    | ip => exact ite_self 0
    | _ => rfl
  exact Accounts.ext rfl rfl rfl answers stopped

/-- In every run each packet that comes in ends once: no layer loses one or counts one twice. -/
theorem always_settled (kind : StackKind) {upper : τ} (fresh : T.checks upper = fun _ _ => 0)
    (calls : List Call) : Transition.Always (step T) (Settled T) (new kind upper) calls := by
  have kept : Transition.Always (step T)
      (fun s => Wired s.kind s.links ∧ Accounts.Balanced s.kind (s.accounts T)) (new kind upper) calls :=
    Transition.always_of_inv
      (fun s c t inv stepped => ⟨wired_step inv.1 stepped, balanced_step inv.1 inv.2 stepped⟩)
      ⟨wired_new kind upper, accounts_new kind fresh ▸ Accounts.balanced_empty _⟩
  exact Transition.always_mono
    (fun s inv => ⟨inv.2, inv.2.ended_le rfl, inv.2.ended_eq rfl rfl⟩) kept

/-- A frame that is refused, and one that UDP validates. -/
theorem always_settled_quiet :
    let calls : List Call := [.enableLinkLayerTagging "vlan", .frame noPacket 0, .frame udpFrame 1]
    (Transition.run (step quiet) (quietStack .lan) calls).any
        (fun s => decide ((s.accounts quiet).begun = 2 ∧ s.answers quiet .udp true = 1)) = true ∧
      Transition.Always (step quiet) (Settled quiet) (quietStack .lan) calls :=
  ⟨by decide +kernel, always_settled .lan (LanTransports.checks_new _ _ _) _⟩

end NetworkStack

end AIEngine
