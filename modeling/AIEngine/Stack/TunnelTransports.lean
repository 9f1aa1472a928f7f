import AIEngine.Stack.LanTransports

/-!
# The transports of a stack with a tunnel (`StackMobile.cc`, `StackVirtual.cc`, `StackOpenFlow.cc`)

One transport carries the tunnel, and above the tunnel there are those of a LAN once more.
-/

namespace AIEngine

open Ending (bind_ok)
open Stack (Frame)

/-- The transport above the tunnel that is `m` below it. -/
def Mux.lowered : Mux → Option Mux
  | .udpVir => some .udp
  | .tcpVir => some .tcp
  | .icmpVir => some .icmp
  | _ => none

theorem Mux.lowered_inj {k m n : Mux} (one : k.lowered = some n) (other : m.lowered = some n) : k = m := by
  have injective : ∀ k m : Mux, k.lowered.isSome → k.lowered = m.lowered → k = m := by decide
  exact injective k m (by rw [one]; rfl) (one.trans other.symm)

structure TunnelTransports where
  carrier : TransportLayer
  above : LanTransports

namespace TunnelTransports

def new (objects : CacheId → Nat) (registered : Option Nat) (timeout : Int) : TunnelTransports where
  carrier := { transport := Transport.start 2 objects registered timeout }
  above := LanTransports.new objects registered timeout

/-- The only forwarder on top of the carrier. -/
def forwarder : Nat := 0

def check (kind : Kind) (m : Mux) (u : TunnelTransports) (p : Frame) :
    Except Fault (Bool × TunnelTransports × Frame) :=
  if m = kind.mux then do
    let (accepted, carrier, p) ← u.carrier.check kind p
    .ok (accepted, { u with carrier := carrier }, p)
  else
    match m.lowered with
    | some m => do
      let (accepted, above, p) ← LanTransports.check m u.above p
      .ok (accepted, { u with above := above }, p)
    | none => .error .nullDereference

def process (outside : Frame → Outside) (m : Mux) (u : TunnelTransports) (down : Multiplexer) (p : Frame) :
    Except Fault (TunnelTransports × Frame) :=
  match m.lowered with
  | some m => do
    let (above, p) ← LanTransports.process false outside m u.above down p
    .ok ({ u with above := above }, p)
  | none => .error .nullDereference

def before (kind : Kind) (outside : Frame → Outside) (around : Frame → Surroundings) (u : TunnelTransports)
    (down : Multiplexer) (p : Frame) : Except Fault (TunnelTransports × Frame × Option Handed) := do
  let (carrier, q, e) ← u.carrier.before kind down p (outside p)
  match e with
  | .ended => .ok ({ u with carrier := carrier }, q, none)
  | .finishing a => do
    let (carrier, q) ← carrier.after kind a (outside p).hint q
    .ok ({ u with carrier := carrier }, q, none)
  | .handing a =>
    .ok ({ u with carrier := carrier }, q,
      some { attached := (carrier.transport.flow a).forwarder.isSome, around := around q })

/-- What the tunnel leaves at the flow it was called with; an info of GPRS is not looked at here. -/
def marked (s : TransportLayer) (a : Obj) (back : Handback) : TransportLayer :=
  let f := s.transport.flow a
  { s with
    transport := s.transport.setFlow a { f with
      forwarder := if back.attached then some forwarder else f.forwarder
      haveEvidence := f.haveEvidence || back.evidence } }

def after (kind : Kind) (outside : Frame → Outside) (u : TunnelTransports) (p : Frame) (back : Option Handback) :
    Except Fault (TunnelTransports × Frame) :=
  match back, u.carrier.transport.currentFlow with
  | some back, some a => do
    let (carrier, q) ← (marked u.carrier a back).after kind a (outside p).hint p
    .ok ({ u with carrier := carrier }, q)
  | _, _ => .ok (u, p)

def checks (kind : Kind) (u : TunnelTransports) (m : Mux) (b : Bool) : Nat :=
  if m = kind.mux then u.carrier.answers b
  else
    match m.lowered with
    | some m => u.above.checks m b
    | none => 0

theorem checks_new (kind : Kind) (objects : CacheId → Nat) (registered : Option Nat) (timeout : Int) :
    (new objects registered timeout).checks kind = fun _ _ => 0 := by
  funext m b
  unfold checks
  split
  · cases b <;> rfl
  · split
    · exact congrFun (congrFun (LanTransports.checks_new objects registered timeout) _) b
    · rfl

variable {kind : Kind} {u u' : TunnelTransports} {p q : Frame} {down : Multiplexer} {outside : Frame → Outside}

theorem checks_of_carrier (same : u'.carrier.answers = u.carrier.answers) (above : u'.above = u.above) :
    u'.checks kind = u.checks kind := by
  funext m b
  unfold checks
  rw [same, above]

theorem check_checks {m : Mux} {b : Bool} (checked : check kind m u p = .ok (b, u', q)) (k : Mux) (c : Bool) :
    u'.checks kind k c = u.checks kind k c + if k = m ∧ c = b then 1 else 0 := by
  unfold check at checked
  split at checked
  · rename_i carrier
    obtain ⟨⟨b', layer, q'⟩, accepts, checked⟩ := bind_ok checked
    obtain ⟨rfl, rfl, -⟩ := by simpa using checked
    have counted := TransportLayer.check_answers accepts c
    unfold checks
    by_cases here : k = kind.mux
    · rw [if_pos here, if_pos here, counted]
      simp only [here, carrier, true_and]
    · have other : k ≠ m := fun same => here (same.trans carrier)
      simp only [if_neg here, other, false_and, if_false, Nat.add_zero]
  · rename_i notCarrier
    cases lower : m.lowered with
    | none =>
      rw [lower] at checked
      exact absurd checked (by simp)
    | some m' =>
      rw [lower] at checked
      obtain ⟨⟨b', above, q'⟩, accepts, checked⟩ := bind_ok checked
      obtain ⟨rfl, rfl, -⟩ := by simpa using checked
      unfold checks
      by_cases here : k = kind.mux
      · have other : k ≠ m := fun same => notCarrier (same.symm.trans here)
        simp only [if_pos here, other, false_and, if_false, Nat.add_zero]
      · rw [if_neg here, if_neg here]
        cases lower' : k.lowered with
        | none =>
          have other : k ≠ m := by
            rintro rfl
            exact absurd (lower'.symm.trans lower) (by simp)
          simp only [other, false_and, if_false, Nat.add_zero]
        | some k' =>
          have counted := LanTransports.check_checks accepts k' c
          have same : k' = m' ↔ k = m := by
            constructor
            · rintro rfl
              exact Mux.lowered_inj lower' lower
            · rintro rfl
              exact Option.some.inj (lower'.symm.trans lower)
          simp only [counted, same]

theorem process_checks {m : Mux} (processed : process outside m u down p = .ok (u', q)) :
    u'.checks kind = u.checks kind := by
  unfold process at processed
  cases lower : m.lowered with
  | none =>
    rw [lower] at processed
    exact absurd processed (by simp)
  | some m' =>
    rw [lower] at processed
    obtain ⟨⟨above, q'⟩, does, processed⟩ := bind_ok processed
    obtain ⟨rfl, -⟩ := by simpa using processed
    have same := LanTransports.process_checks does
    funext k b
    unfold checks
    rw [same]

theorem before_checks {around : Frame → Surroundings} {h : Option Handed}
    (entered : before kind outside around u down p = .ok (u', q, h)) : u'.checks kind = u.checks kind := by
  obtain ⟨⟨carrier, q', e⟩, does, entered⟩ := bind_ok entered
  have same := TransportLayer.before_answers does
  cases e with
  | ended | handing a =>
    obtain ⟨rfl, -, -⟩ := by simpa using entered
    exact checks_of_carrier same rfl
  | finishing a =>
    obtain ⟨⟨carrier', q''⟩, finished, entered⟩ := bind_ok entered
    obtain ⟨rfl, -, -⟩ := by simpa using entered
    exact checks_of_carrier ((TransportLayer.after_answers finished).trans same) rfl

theorem after_checks {back : Option Handback} (left : after kind outside u p back = .ok (u', q)) :
    u'.checks kind = u.checks kind := by
  unfold after at left
  split at left
  · rename_i back a known
    obtain ⟨⟨carrier, q'⟩, finished, left⟩ := bind_ok left
    have same : carrier.answers = (marked u.carrier a back).answers := TransportLayer.after_answers finished
    obtain rfl := congrArg Prod.fst (Except.ok.inj left)
    exact checks_of_carrier same rfl
  · obtain rfl := congrArg Prod.fst (Except.ok.inj left)
    rfl

end TunnelTransports

/-- `kind` is the transport of the carrier, and `around` where its payloads are in memory. -/
def tunnelTransports (kind : Kind) (outside : Frame → Outside) (around : Frame → Surroundings) :
    Transports TunnelTransports where
  check := TunnelTransports.check kind
  process := TunnelTransports.process outside
  before _ := TunnelTransports.before kind outside around
  after _ := TunnelTransports.after kind outside
  checks := TunnelTransports.checks kind
  check_checks := TunnelTransports.check_checks
  process_checks := TunnelTransports.process_checks
  before_checks := TunnelTransports.before_checks
  after_checks := TunnelTransports.after_checks

/-- The transports of `StackVirtual` with nothing above them, in an empty memory. -/
def quietTunnel : Transports TunnelTransports := tunnelTransports .udp (fun _ => {}) fun _ => {}

def quietVirtual : NetworkStack TunnelTransports :=
  .new .virtual (TunnelTransports.new (fun _ => 1) none 180)

end AIEngine
