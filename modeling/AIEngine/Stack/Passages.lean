import Mathlib.Algebra.BigOperators.Group.Finset.Piecewise
import Mathlib.Data.Fintype.Basic
import Mathlib.Tactic.Simps.Basic
import AIEngine.Stack.NetworkStack

/-!
# The way of a packet through a stack, in numbers

What a packet does to the counters of a stack, and nothing else of it: the multiplexers count what they
receive, forward and have no use for, the checkers what they validate and what they do not, and the layers of
IP what they stop. `Passage` says how one packet may change them; the laws of the counters follow from it.
-/

namespace AIEngine

instance : Fintype Mux where
  elems :=
    {.eth, .vlan, .mpls, .ip, .gre, .udp, .tcp, .icmp, .tunnel, .ethVir, .ipVir, .udpVir, .tcpVir, .icmpVir}
  complete m := by cases m <;> decide

@[ext] structure Accounts where
  received : Mux → Nat := fun _ => 0
  forwarded : Mux → Nat := fun _ => 0
  failed : Mux → Nat := fun _ => 0
  /-- the answers of the checkers -/
  checks : Mux → Bool → Nat := fun _ _ => 0
  /-- what a layer has validated and then kept, in words of 32 bits -/
  stopped : Mux → BitVec 32 := fun _ => 0

namespace Accounts

def bump (f : Mux → Nat) (m : Mux) : Mux → Nat := fun k => f k + if k = m then 1 else 0

@[simps -fullyApplied] def receive (a : Accounts) (m : Mux) : Accounts := { a with received := bump a.received m }

@[simps -fullyApplied] def forward (a : Accounts) (m : Mux) : Accounts := { a with forwarded := bump a.forwarded m }

@[simps -fullyApplied] def fail (a : Accounts) (m : Mux) : Accounts := { a with failed := bump a.failed m }

@[simps -fullyApplied] def answer (a : Accounts) (m : Mux) (accepted : Bool) : Accounts :=
  { a with checks := fun k c => a.checks k c + if k = m ∧ c = accepted then 1 else 0 }

@[simps -fullyApplied] def stop (a : Accounts) (m : Mux) : Accounts :=
  { a with stopped := fun k => a.stopped k + if k = m then 1 else 0 }

def total (f : Mux → Nat) : Nat := ∑ k, f k

/-- The packets that a checker was asked about. -/
def asked (a : Accounts) (k : Mux) : Nat := a.checks k true + a.checks k false

@[simp] theorem total_bump (f : Mux → Nat) (m : Mux) : total (bump f m) = total f + 1 := by
  unfold total bump
  rw [Finset.sum_add_distrib, Finset.sum_ite_eq' Finset.univ m, if_pos (Finset.mem_univ m)]

theorem asked_answer (a : Accounts) (m : Mux) (accepted : Bool) :
    (a.answer m accepted).asked = bump a.asked m := by
  funext k
  unfold asked answer bump
  cases accepted <;> simp <;> omega

@[simp] theorem total_answer (a : Accounts) (m : Mux) (accepted : Bool) :
    total (a.answer m accepted).asked = total a.asked + 1 := by
  rw [asked_answer, total_bump]

@[simp] theorem asked_receive (a : Accounts) (m : Mux) : (a.receive m).asked = a.asked := rfl

@[simp] theorem asked_forward (a : Accounts) (m : Mux) : (a.forward m).asked = a.asked := rfl

@[simp] theorem asked_fail (a : Accounts) (m : Mux) : (a.fail m).asked = a.asked := rfl

@[simp] theorem asked_stop (a : Accounts) (m : Mux) : (a.stop m).asked = a.asked := rfl

/-- A word starts again at zero behind the greatest. -/
theorem toNat_counted (n : BitVec 32) (stops : Prop) [Decidable stops] :
    (n + if stops then 1 else 0).toNat = (n.toNat + if stops then 1 else 0) % 4294967296 := by
  rw [BitVec.toNat_add]
  split <;> rfl

end Accounts

open Accounts (bump total)

/-- What a packet that is at a multiplexer does to the counters from there on. -/
inductive Passage (kind : StackKind) (links : List Link) : Mux → Accounts → Accounts → Prop
  | fails (m : Mux) (a : Accounts) : Passage kind links m a ((a.receive m).fail m)
  | rejected {l : Link} {a : Accounts} (linked : l ∈ links) :
    Passage kind links l.source a ((a.receive l.source).answer l.target false)
  | stopped {l : Link} {a : Accounts} (linked : l ∈ links) :
    Passage kind links l.source a (((a.receive l.source).answer l.target true).stop l.target)
  /-- a chain of extension headers that is too long -/
  | lost {l : Link} {a : Accounts} (linked : l ∈ links) (ip6 : kind = .lanIPv6) (ip : l.target = .ip) :
    Passage kind links l.source a ((a.receive l.source).answer l.target true)
  | goes {l : Link} {a b : Accounts} (linked : l ∈ links)
    (rest : Passage kind links l.target
      (((a.receive l.source).answer l.target true).forward l.source) b) :
    Passage kind links l.source a b
  /-- the packet carries another one -/
  | carries {l : Link} {a b c : Accounts} (linked : l ∈ links) (carrier : kind.carrier = some l.target)
    (inner : Passage kind links .tunnel ((a.receive l.source).answer l.target true) b)
    (rest : Passage kind links l.target (b.forward l.source) c) : Passage kind links l.source a c

namespace StackKind

/-- There are no other links in a stack. -/
def Wired (kind : StackKind) (links : List Link) : Prop := ∀ l ∈ links, l ∈ kind.links ++ taggingLinks

variable {kind : StackKind} {links : List Link}

theorem known_links (kind : StackKind) :
    ∀ l ∈ kind.links ++ taggingLinks,
      l.target ≠ .tunnel ∧ l.target ≠ .eth ∧ kind.carrier ≠ some l.source ∧
        (kind.carrier = some l.target → l.target.rank = 3) := by
  cases kind <;> decide

end StackKind

namespace Passage

open StackKind (Wired known_links)

variable {kind : StackKind} {links : List Link} {m k : Mux} {a b : Accounts}

/-- A layer lets go on what it has validated and does not stop, up to whole turns of the counter of stops. -/
theorem validated (passage : Passage kind links m a b) (layer : k ≠ .tunnel)
    (lossless : kind = .lanIPv6 → k ≠ .ip) :
    (b.checks k true + a.received k + (a.stopped k).toNat + (if k = m then 1 else 0)) % 4294967296 =
      (a.checks k true + b.received k + (b.stopped k).toNat) % 4294967296 := by
  induction passage with
  | fails m a => simp only [Accounts.receive, Accounts.fail, bump]; omega
  | rejected linked => simp [Accounts.receive, Accounts.answer, bump]; omega
  | stopped linked =>
    simp only [Accounts.receive, Accounts.answer, Accounts.stop, bump, Accounts.toNat_counted, and_true]
    omega
  | lost linked ip6 ip =>
    have other : ¬k = .ip := lossless ip6
    simp [Accounts.receive, Accounts.answer, bump, ip, other]
    omega
  | goes linked rest ih =>
    simp only [Accounts.receive, Accounts.answer, Accounts.forward, bump, and_true] at ih
    omega
  | carries linked carrier inner rest ihInner ih =>
    simp only [Accounts.receive, Accounts.answer, Accounts.forward, bump, and_true, layer,
      if_false] at ihInner ih
    omega

/-- What IPv6 has validated may also get lost, and a word never holds more than it has counted. -/
theorem validated_le (passage : Passage kind links m a b) (layer : k ≠ .tunnel) :
    a.checks k true + b.received k + (b.stopped k).toNat ≤
      b.checks k true + a.received k + (a.stopped k).toNat + if k = m then 1 else 0 := by
  induction passage with
  | fails m a => simp only [Accounts.receive, Accounts.fail, bump]; omega
  | rejected linked => simp [Accounts.receive, Accounts.answer, bump]; omega
  | stopped linked =>
    simp only [Accounts.receive, Accounts.answer, Accounts.stop, bump, Accounts.toNat_counted, and_true]
    omega
  | lost linked ip6 ip => simp only [Accounts.receive, Accounts.answer, bump]; omega
  | goes linked rest ih =>
    simp only [Accounts.receive, Accounts.answer, Accounts.forward, bump, and_true] at ih
    omega
  | carries linked carrier inner rest ihInner ih =>
    simp only [Accounts.receive, Accounts.answer, Accounts.forward, bump, and_true, layer,
      if_false] at ihInner ih
    omega

/-- For a packet that a multiplexer has received there is no layer, or one checker is asked about it. -/
theorem hops (passage : Passage kind links m a b) :
    total b.received + total a.failed + total a.asked =
      total a.received + total b.failed + total b.asked := by
  induction passage with
  | fails m a => simp; omega
  | rejected linked => simp; omega
  | stopped linked => simp; omega
  | lost linked ip6 ip => simp; omega
  | goes linked rest ih =>
    simp at ih
    omega
  | carries linked carrier inner rest ihInner ih =>
    simp at ihInner ih
    omega

/-- What is forwarded is received by the next multiplexer, where nothing else is received. -/
theorem handed (wired : Wired kind links) (passage : Passage kind links m a b) :
    total b.forwarded + b.received .tunnel + total a.received + (if Mux.tunnel = m then 0 else 1) =
      total a.forwarded + a.received .tunnel + total b.received := by
  have onward {l : Link} (linked : l ∈ links) : ¬Mux.tunnel = l.target :=
    (known_links kind l (wired l linked)).1.symm
  induction passage with
  | fails m a => simp [bump]; split <;> omega
  | rejected linked => simp [bump]; split <;> omega
  | stopped linked => simp [bump]; split <;> omega
  | lost linked ip6 ip => simp [bump]; split <;> omega
  | goes linked rest ih =>
    simp [bump, onward linked] at ih
    split at ih <;> simp_all <;> omega
  | carries linked carrier inner rest ihInner ih =>
    simp [bump, onward linked] at ihInner ih
    split at ihInner <;> simp_all <;> omega

/-- Only the dispatcher gives packets to Ethernet. -/
theorem bottom (wired : Wired kind links) (passage : Passage kind links m a b) :
    b.received .eth = a.received .eth + (if Mux.eth = m then 1 else 0) ∧ b.asked .eth = a.asked .eth := by
  have onward {l : Link} (linked : l ∈ links) : ¬Mux.eth = l.target :=
    (known_links kind l (wired l linked)).2.1.symm
  induction passage with
  | fails m a => exact ⟨rfl, rfl⟩
  | rejected linked => simp [bump, Accounts.asked_answer, onward linked]
  | stopped linked => simp [bump, Accounts.asked_answer, onward linked]
  | lost linked ip6 ip => simp [bump, Accounts.asked_answer, onward linked]
  | goes linked rest ih =>
    simp [bump, Accounts.asked_answer, onward linked] at ih
    exact ih
  | carries linked carrier inner rest ihInner ih =>
    simp [bump, Accounts.asked_answer, onward linked] at ihInner ih
    exact ⟨ih.1.trans ihInner.1, ih.2.trans ihInner.2⟩

/-- Nothing is linked to the multiplexer of the transport below a tunnel. -/
theorem of_carrier (wired : Wired kind links) (carrier : kind.carrier = some m)
    (passage : Passage kind links m a b) : b = (a.receive m).fail m := by
  have none {l : Link} (linked : l ∈ links) : kind.carrier ≠ some l.source :=
    (known_links kind l (wired l linked)).2.2.1
  cases passage with
  | fails => rfl
  | rejected linked => exact absurd carrier (none linked)
  | stopped linked => exact absurd carrier (none linked)
  | lost linked => exact absurd carrier (none linked)
  | goes linked => exact absurd carrier (none linked)
  | carries linked => exact absurd carrier (none linked)

/-- At a multiplexer, or higher up. -/
theorem once_le (k : Mux) {m : Mux} {r : Nat} (higher : m.rank < r) :
    (if k = m then 1 else 0) + (if r ≤ k.rank then 1 else 0) ≤ if m.rank ≤ k.rank then 1 else 0 := by
  by_cases same : k = m
  · have lower : ¬r ≤ k.rank := by
      rw [same]
      omega
    simp [same, same ▸ lower]
  · rw [if_neg same]
    split_ifs <;> omega

/-- No multiplexer receives a packet twice, and none below the first one receives it. -/
theorem received_le (wired : Wired kind links) (passage : Passage kind links m a b) (k : Mux) :
    b.received k ≤ a.received k + if m.rank ≤ k.rank then 1 else 0 := by
  have alone (m : Mux) : (if k = m then 1 else 0) ≤ if m.rank ≤ k.rank then 1 else 0 :=
    Nat.le_trans (Nat.le_add_right _ _) (once_le k (Nat.lt_succ_self m.rank))
  induction passage with
  | fails m a => simpa [bump] using alone m
  | @rejected l a linked => simpa [bump] using alone l.source
  | @stopped l a linked => simpa [bump] using alone l.source
  | @lost l a linked ip6 ip => simpa [bump] using alone l.source
  | @goes l a b linked rest ih =>
    have once := once_le k l.rises
    simp only [Accounts.forward_received, Accounts.answer_received, Accounts.receive_received,
      bump] at ih
    omega
  | @carries l a b c linked carrier inner rest ihInner ih =>
    have middle := (known_links kind l (wired l linked)).2.2.2 carrier
    have below := once_le k l.rises
    have above := once_le k (m := l.target) (r := Mux.tunnel.rank) (by rw [middle]; decide)
    have last : c.received k = b.received k + if k = l.target then 1 else 0 := by
      rw [of_carrier wired carrier rest]
      rfl
    simp only [Accounts.answer_received, Accounts.receive_received, bump] at ihInner
    omega

end Passage

end AIEngine
