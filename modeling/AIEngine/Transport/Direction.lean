import AIEngine.Transport.Conversations

/-!
# The direction of a packet

`getFlow` tells the two ends of a flow apart by its source port alone. A flow between two hosts that
use the same port has both directions under one label.
-/

namespace AIEngine

def IPAddress.sender (a : IPAddress) (sourcePort : BitVec 16) : Endpoint := ⟨a.source, sourcePort⟩

def IPAddress.receiver (a : IPAddress) (destinationPort : BitVec 16) : Endpoint :=
  ⟨a.destination, destinationPort⟩

/-- Sender and receiver of a packet, or of the packet a flow was described by. -/
structure Route where
  sender : Endpoint
  receiver : Endpoint
  deriving DecidableEq

def Packet.route (p : Packet) : Route where
  sender := p.address.sender p.sourcePort
  receiver := p.address.receiver p.destinationPort

def FlowIdent.route (i : FlowIdent) : Route where
  sender := i.address.sender i.sourcePort
  receiver := i.address.receiver i.destPort

def Flow.route (f : Flow) : Route := f.ident.route

theorem Flow.route_of_name {f g : Flow} (same : f.name = g.name) : f.route = g.route := by
  have named := congrArg FlowIdent.route same
  exact named

namespace Transport

theorem describe_route (s : Transport) (kind : Kind) (p : Packet) (f : Flow) :
    (s.describe kind p f.reset).route = p.route := by
  unfold describe
  simp only
  by_cases v4 : p.address.type = 4
  · rw [if_pos v4]
    cases p.tag <;>
      simp [Flow.route, Flow.ident, FlowIdent.route, Packet.route, IPAddress.sender,
        IPAddress.receiver, IPAddress.source, IPAddress.destination, Flow.setFiveTuple,
        IPAddress.setSourceAddress, IPAddress.setDestinationAddress, v4]
  · rw [if_neg v4]
    cases p.tag <;>
      simp [Flow.route, Flow.ident, FlowIdent.route, Packet.route, IPAddress.sender,
        IPAddress.receiver, IPAddress.source, IPAddress.destination, Flow.setFiveTuple6,
        IPAddress.setSourceAddress6, IPAddress.setDestinationAddress6, v4]

theorem describe_direction (s : Transport) (kind : Kind) (p : Packet) (f : Flow) :
    (s.describe kind p f).direction = f.direction := by
  unfold describe
  cases p.tag <;> simp only <;> split <;>
    simp only [Flow.setFiveTuple, Flow.setFiveTuple6, Flow.setArriveTime, Flow.setLastPacketTime,
      Flow.setTag]

theorem attach_direction {s t : Transport} {kind : Kind} {a : Obj} (h : s.attach kind a = .ok t) :
    (t.flow a).direction = (s.flow a).direction := by
  cases kind with
  | udp =>
    obtain rfl := Except.ok.inj h
    rfl
  | tcp =>
    simp only [attach, attachTcpInfo] at h
    split at h
    · obtain rfl := Except.ok.inj h
      rw [flow_setFlow_same]
      rfl
    · obtain rfl := Except.ok.inj h
      rfl
    · exact absurd h (by simp)

/-- The label a packet gets: its port against the source port of the flow it finds. -/
theorem getFlow_direction {s t : Transport} {kind : Kind} {p : Packet} {hint : Nat} {a : Obj}
    (h : s.getFlow kind p hint = .ok (some a, t)) :
    (s.findFlow (p.hash1 kind) (p.hash2 kind) = some a ∧ (t.flow a).direction =
      if p.sourcePort = (s.flow a).sourcePort then .forward else .backward) ∨
    (s.findFlow (p.hash1 kind) (p.hash2 kind) = none ∧ (t.flow a).direction = .forward) := by
  rcases getFlow_ran h with ⟨b, same, known, rfl⟩ | ⟨unknown, new⟩
  · obtain rfl := Option.some.inj same
    refine Or.inl ⟨known, ?_⟩
    rw [flow_setFlow_same]
    rfl
  · refine Or.inr ⟨unknown, ?_⟩
    rcases newFlow_cases new with ⟨c, -, missed, -⟩ | ⟨b, c, acquired, found, attached⟩
    · exact absurd missed (by simp)
    · obtain rfl := Option.some.inj found
      obtain ⟨f, entered⟩ := admitted_flow acquired kind p hint
      rw [attach_direction attached, entered, describe_direction]
      rfl

/-- The flow of a packet, and its direction when the packet goes on from `getFlow`. -/
def label (s : Transport) (kind : Kind) (p : Packet) (hint : Nat) : Option (Obj × FlowDirection) :=
  match (s.begin p).getFlow kind p hint with
  | .ok (some a, t) => some (a, (t.flow a).direction)
  | _ => none

end Transport

/-! ### Runs with a record of who opened which flow -/

structure Labels where
  transport : Transport
  /-- the route of the first packet of a flow -/
  first : Obj → Option Route := fun _ => none
  /-- the sender of the last packet, its flow and its label -/
  last : Option (Endpoint × Obj × FlowDirection) := none

namespace Labels

open Transport

def table (h : Labels) : List Obj := h.transport.table

def step (kind : Kind) (h : Labels) : Event → Option Labels
  | .packet p o =>
    match h.transport.processPacket kind p o with
    | .ok t => some
      { transport := t
        first := fun a =>
          if t.currentFlow = some a ∧ a ∉ h.table then some p.route else h.first a
        last := (h.transport.label kind p o.hint).map fun l => (p.route.sender, l) }
    | .error _ => none
  | .elsewhere w => some { h with transport := h.transport.elsewhere w }

/-- When the ends of the flow differ, the end that sent its first packet is the one ahead. -/
def Right (sender : Endpoint) (direction : FlowDirection) (first : Route) : Prop :=
  first.sender ≠ first.receiver →
    (sender = first.sender → direction = .forward) ∧
    (sender = first.receiver → direction = .backward)

instance (sender : Endpoint) (direction : FlowDirection) (first : Route) :
    Decidable (Right sender direction first) := inferInstanceAs (Decidable (_ → _))

/-- The label of the last packet is right. -/
def Labelled (h : Labels) : Prop :=
  ∀ l ∈ h.last, ∃ first ∈ h.first l.2.1, Right l.1 l.2.2 first

instance (h : Labels) : Decidable (Labelled h) := by
  unfold Labelled
  infer_instance

/-- No packet of the second end comes to a flow whose ends have one port. -/
def PortsTellApart (kind : Kind) (h : Labels) (e : Event) : Prop :=
  ∀ p o, e = .packet p o → ∀ a,
    h.transport.findFlow (p.hash1 kind) (p.hash2 kind) = some a →
    (h.transport.flow a).route.sender ≠ (h.transport.flow a).route.receiver →
    p.route.sender = (h.transport.flow a).route.receiver →
    (h.transport.flow a).sourcePort ≠ (h.transport.flow a).destPort

structure Recorded (h : Labels) : Prop where
  sound : Sound h.transport
  first : ∀ a ∈ h.table, h.first a = some (h.transport.flow a).route

theorem step_packet {kind : Kind} {h h' : Labels} {p : Packet} {o : Outside}
    (stepped : step kind h (.packet p o) = some h') :
    h.transport.processPacket kind p o = .ok h'.transport ∧
      (∀ a, h'.first a = if h'.transport.currentFlow = some a ∧ a ∉ h.table then some p.route
        else h.first a) ∧
      h'.last = (h.transport.label kind p o.hint).map fun l => (p.route.sender, l) := by
  unfold step at stepped
  simp only at stepped
  split at stepped
  · rename_i t processed
    obtain rfl := Option.some.inj stepped
    exact ⟨processed, fun _ => rfl, rfl⟩
  · exact absurd stepped (by simp)

theorem recorded_step {kind : Kind} {h h' : Labels} {e : Event} (recorded : Recorded h)
    (stepped : step kind h e = some h') : Recorded h' := by
  obtain ⟨sound, first⟩ := recorded
  cases e with
  | elsewhere w =>
    obtain rfl := Option.some.inj stepped
    exact ⟨sound_elsewhere sound w, first⟩
  | packet p o =>
    obtain ⟨ran, firsts, -⟩ := step_packet stepped
    obtain ⟨found, s₁, processed⟩ := processPacket_spec sound ran
    refine ⟨processed.after, fun b member => ?_⟩
    rw [firsts b, processed.current]
    rcases processed.listed member with ⟨before, name⟩ | ⟨fresh, opened, name⟩
    · rw [if_neg (fun both => both.2 before), first b before, Flow.route_of_name name]
    · rw [if_pos ⟨opened, fresh⟩, Flow.route_of_name name, describe_route]

/-- A packet that finds a flow is labelled by its port. -/
theorem right_iff (f : Flow) (p : Packet) :
    Right p.route.sender (if p.sourcePort = f.sourcePort then .forward else .backward) f.route ↔
      (f.route.sender ≠ f.route.receiver → p.route.sender = f.route.receiver →
        f.sourcePort ≠ f.destPort) := by
  refine imp_congr_right fun apart => ?_
  constructor
  · rintro ⟨-, back⟩ second same
    have port : p.sourcePort = f.destPort := congrArg Endpoint.port second
    have backward := back second
    rw [if_pos (port.trans same.symm)] at backward
    exact absurd backward (by decide)
  · intro ports
    refine ⟨fun ahead => ?_, fun second => ?_⟩
    · have port : p.sourcePort = f.sourcePort := congrArg Endpoint.port ahead
      exact if_pos port
    · have port : p.sourcePort = f.destPort := congrArg Endpoint.port second
      refine if_neg fun same => ?_
      exact ports second (same.symm.trans port)

theorem labelled_iff {kind : Kind} {h h' : Labels} {p : Packet} {o : Outside}
    (recorded : Recorded h) (stepped : step kind h (.packet p o) = some h') :
    Labelled h' ↔ PortsTellApart kind h (.packet p o) := by
  obtain ⟨sound, first⟩ := recorded
  obtain ⟨ran, firsts, last⟩ := step_packet stepped
  obtain ⟨found, s₁, processed⟩ := processPacket_spec sound ran
  have labelled : h.transport.label kind p o.hint =
      found.map fun a => (a, (s₁.flow a).direction) := by
    unfold label
    rw [processed.got]
    cases found <;> rfl
  unfold Labelled
  rw [last, labelled]
  have tells : PortsTellApart kind h (.packet p o) ↔ ∀ a,
      h.transport.findFlow (p.hash1 kind) (p.hash2 kind) = some a →
      (h.transport.flow a).route.sender ≠ (h.transport.flow a).route.receiver →
      p.route.sender = (h.transport.flow a).route.receiver →
      (h.transport.flow a).sourcePort ≠ (h.transport.flow a).destPort :=
    ⟨fun all => all p o rfl, fun all q o' same => by cases same; exact all⟩
  rw [tells]
  cases found with
  | none =>
    refine iff_of_true (fun l none => absurd none (by simp)) fun a known => ?_
    cases processed.looked with
    | failed unknown table flows members =>
      exact absurd (unknown.symm.trans known) (by simp)
  | some a =>
    have entry : (∀ l ∈ ((some a).map fun a => (a, (s₁.flow a).direction)).map
        fun l => (p.route.sender, l), ∃ first ∈ h'.first l.2.1, Right l.1 l.2.2 first) ↔
        ∃ first ∈ h'.first a, Right p.route.sender (s₁.flow a).direction first := by simp
    rw [entry, firsts a, processed.current]
    rcases getFlow_direction processed.got with ⟨known, direction⟩ | ⟨unknown, direction⟩
    · -- the flow was there: its own tuple is the route of its first packet
      have member : a ∈ h.table := (findFlow_some known).1
      rw [if_neg (fun both => both.2 member), first a member, direction]
      have only : (∀ b, h.transport.findFlow (p.hash1 kind) (p.hash2 kind) = some b →
          (h.transport.flow b).route.sender ≠ (h.transport.flow b).route.receiver →
          p.route.sender = (h.transport.flow b).route.receiver →
          (h.transport.flow b).sourcePort ≠ (h.transport.flow b).destPort) ↔
          ((h.transport.flow a).route.sender ≠ (h.transport.flow a).route.receiver →
          p.route.sender = (h.transport.flow a).route.receiver →
          (h.transport.flow a).sourcePort ≠ (h.transport.flow a).destPort) := by
        constructor
        · exact fun all => all a known
        · intro one b other
          obtain rfl := Option.some.inj (known.symm.trans other)
          exact one
      rw [only, ← right_iff (h.transport.flow a) p]
      constructor
      · rintro ⟨route, same, right⟩
        obtain rfl := Option.some.inj same
        exact right
      · exact fun right => ⟨_, rfl, right⟩
    · -- the packet opened the flow, which makes it the first
      have fresh : a ∉ h.table := by
        cases processed.looked with
        | found _ known same => exact absurd (unknown.symm.trans known) (by simp)
        | opened _ unknown opened => exact opened.fresh
      rw [if_pos ⟨rfl, fresh⟩, direction]
      have right : Right p.route.sender .forward p.route :=
        fun apart => ⟨fun _ => rfl, fun second => absurd second apart⟩
      refine iff_of_true ⟨p.route, rfl, right⟩ fun b known => ?_
      exact absurd (unknown.symm.trans known) (by simp)

def start (layer : Nat) (objects : CacheId → Nat) (registered : Option Nat) (timeout : Int) :
    Labels where
  transport := Transport.start layer objects registered timeout

/-- A run labels its packets right exactly when no packet of a flow's second end comes while the
flow's ends have one port. -/
theorem always_labelled_iff (kind : Kind) (layer : Nat) (objects : CacheId → Nat)
    (registered : Option Nat) (timeout : Int) (events : List Event) :
    Transition.Always (step kind) Labelled (start layer objects registered timeout) events ↔
      Transition.Along (step kind) (fun h e _ => PortsTellApart kind h e)
        (start layer objects registered timeout) events := by
  have empty : Recorded (start layer objects registered timeout) :=
    ⟨sound_start layer objects registered timeout,
      fun a member => absurd member (by
        simp [start, Labels.table, Transport.start, World.start, Transport.table])⟩
  have silent : Labelled (start layer objects registered timeout) :=
    fun l none => absurd none (by simp [start])
  refine Transition.always_iff_along (fun _ _ _ recorded h => recorded_step recorded h) ?_ empty
    silent
  intro h e h' recorded labelled stepped
  cases e with
  | packet p o => exact labelled_iff recorded stepped
  | elsewhere w =>
    obtain rfl := Option.some.inj stepped
    exact iff_of_true labelled (fun p o same => absurd same (by simp))

/-- Two hosts with the same port, as in NTP: the answer is labelled as if it were a request. -/
theorem not_always_labelled :
    ¬∃ kind, ∀ ps, Transition.Always (step kind) Labelled
      (start 0 (fun _ => 2) (some 0) 180) (packets ps) := by
  intro ⟨kind, h⟩
  have run := h [
    ({ time := 1
       address := { ip4Src := 0x0a000001, ip4Dst := 0x0a000002 }
       sourcePort := 123
       destinationPort := 123
       tcp := { syn := true } }, {}),
    ({ time := 2
       address := { ip4Src := 0x0a000002, ip4Dst := 0x0a000001 }
       sourcePort := 123
       destinationPort := 123
       tcp := { syn := true } }, {})]
  revert run
  cases kind with
  | tcp => exact Transition.not_always_of_run (by decide +kernel)
  | udp => exact Transition.not_always_of_run (by decide +kernel)

end Labels

end AIEngine
