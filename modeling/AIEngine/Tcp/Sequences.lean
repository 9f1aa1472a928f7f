import Mathlib.Logic.Function.Basic
import AIEngine.Tcp.Handshake

/-!
# The sequence numbers of `TCPInfo`

A connection is followed from its SYN. Each segment starts where the last one of its end stopped, and
`processPacket` feeds it to `computeState` as long as the flow is in the table. Next to the `TCPInfo`
stands the number that is really expected of each end.
-/

namespace AIEngine.Tcp

open Transition

/-! ### What `computeState` writes -/

/-- The number a segment leaves in its direction; the other direction and the rest stay. -/
theorem writeSeq_written {info info' : TCPInfo} {dir : FlowDirection} {value : BitVec 32}
    (h : info.writeSeq dir value = .ok info') :
    dir.index < info.seqNum.length ∧ info' = { info with seqNum := info.seqNum.set dir.index value } := by
  unfold TCPInfo.writeSeq at h
  by_cases bound : dir.index < info.seqNum.length
  · rw [if_pos bound] at h
    exact ⟨bound, (Except.ok.inj h).symm⟩
  · rw [if_neg bound] at h
    exact absurd h (by simp)

/-- The write for a SYN is overwritten by the one behind it. -/
theorem computeState_written {totals totals' : FlagTotals} {flow flow' : Flow} {info info' : TCPInfo}
    {tcp : TcpHeader} {bytes : Int}
    (h : computeState totals flow info tcp bytes = .ok (totals', flow', info')) :
    flow.direction.index < info.seqNum.length ∧
      info'.seqNum = info.seqNum.set flow.direction.index (tcp.seqNum + BitVec.ofInt 32 bytes) := by
  unfold computeState at h
  obtain ⟨noted, first, h⟩ := Ending.bind_ok h
  obtain ⟨written, second, h⟩ := Ending.bind_ok h
  obtain ⟨newstate, -, h⟩ := Ending.bind_ok h
  simp only [Except.ok.injEq, Prod.mk.injEq] at h
  obtain ⟨-, -, rfl⟩ := h
  obtain ⟨bound, rfl⟩ := writeSeq_written second
  have moved : ∀ (i : TCPInfo) v, (i.move v tcp.rst).seqNum = i.seqNum := by
    intro i v
    unfold TCPInfo.move
    split <;> rfl
  rw [moved]
  unfold TCPInfo.noteSyn at first
  by_cases syn : tcp.syn
  · rw [if_pos syn] at first
    obtain ⟨there, rfl⟩ := writeSeq_written first
    exact ⟨there, List.set_set ..⟩
  · rw [if_neg syn] at first
    obtain rfl := Except.ok.inj first
    exact ⟨bound, rfl⟩

/-! ### Segments and what they take -/

/-- A segment as its sender counts it. -/
structure Sent where
  side : Side
  tcp : TcpHeader
  payload : Nat
  deriving DecidableEq, Repr

/-- SYN and FIN take one number each, and every octet of the payload takes one. -/
def Sent.taken (x : Sent) : BitVec 32 :=
  (if x.tcp.syn then 1 else 0) + (if x.tcp.fin then 1 else 0) + BitVec.ofNat 32 x.payload

def Sent.next (x : Sent) : BitVec 32 := x.tcp.seq + x.taken

/-- The number `computeState` leaves is the next one unless a SYN/ACK or a FIN went uncounted. -/
theorem seqNum_eq_next (x : Sent) :
    x.tcp.seqNum + BitVec.ofInt 32 x.payload = x.next ↔
      (x.tcp.syn && x.tcp.ack) = false ∧ x.tcp.fin = false := by
  unfold TcpHeader.seqNum Sent.next Sent.taken
  rw [BitVec.ofInt_natCast]
  cases x.tcp.syn <;> cases x.tcp.ack <;> cases x.tcp.fin <;> simp <;> bv_omega

/-! ### A connection -/

/-- The flow that the first SYN opened, with its source port the originator's. -/
structure Connection where
  machine : Machine
  /-- `flow_forwarder_` is there -/
  forwards : Bool
  /-- the flow is still in the table -/
  listed : Bool := true
  /-- what is expected of an end that has sent a segment -/
  next : Side → Option (BitVec 32) := fun _ => none
  last : Option Side := none

namespace Connection

def port (c : Connection) : Side → BitVec 16
  | .originator => c.machine.flow.sourcePort
  | .responder => c.machine.flow.destPort

/-- The end `getFlow` takes for the sender: it compares the port with the source port of the flow. -/
def label (c : Connection) (side : Side) : Side :=
  if c.port side = c.machine.flow.sourcePort then .originator else .responder

/-- The first segment is the SYN of the originator. An end opens with a SYN or refuses the connection;
then each of its segments starts where the last one stopped. -/
def InOrder (c : Connection) (x : Sent) : Prop :=
  (c.last = none → x.side = .originator ∧ x.tcp.syn = true ∧ x.tcp.ack = false) ∧
    match c.next x.side with
    | none => x.tcp.syn = true ∨ x.tcp.rst = true
    | some n => x.tcp.seq = n

instance (c : Connection) (x : Sent) : Decidable (c.InOrder x) := by
  unfold InOrder
  cases c.next x.side <;> infer_instance

/-- The close path of `processPacket`, which payload for the next layer keeps away. -/
def closes (c : Connection) (info : TCPInfo) (x : Sent) : Bool :=
  decide (¬(c.forwards = true ∧ 0 < x.payload) ∧ info.statePrev = TcpState.closed.code ∧
    info.stateCurr = TcpState.closed.code)

def step (c : Connection) (x : Sent) : Option Connection :=
  if c.listed = true ∧ c.InOrder x then
    (c.machine.step ⟨c.label x.side, x.tcp, x.payload⟩).map fun m =>
      { c with
        machine := m
        listed := !c.closes m.info x
        next := Function.update c.next x.side (some x.next)
        last := some x.side }
  else none

/-- Before the SYN. -/
def start (m : Machine) (forwards : Bool) : Connection where
  machine := m.fresh
  forwards := forwards

/-- The number kept for the sender of the last segment is the one expected of it. -/
def Tracks (c : Connection) : Prop :=
  ∀ side ∈ c.last, c.machine.info.seqNum[side.dir.index]? = c.next side

instance (c : Connection) : Decidable c.Tracks := by
  unfold Tracks
  infer_instance

/-- A segment is counted right: one that `getFlow` labels with its sender has no SYN/ACK and no FIN.
In a connection between equal ports the responder has no label of its own, and its number stays 0. -/
def Counts (c : Connection) (x : Sent) : Prop :=
  if c.label x.side = x.side then (x.tcp.syn && x.tcp.ack) = false ∧ x.tcp.fin = false
  else x.next = 0

/-! ### One segment -/

theorem step_machine {c c' : Connection} {x : Sent} (h : c.step x = some c') :
    ∃ m, c.machine.step ⟨c.label x.side, x.tcp, x.payload⟩ = some m ∧ c'.machine = m ∧
      c'.next = Function.update c.next x.side (some x.next) ∧ c'.last = some x.side := by
  unfold step at h
  split at h
  · obtain ⟨m, moved, rfl⟩ := Option.map_eq_some_iff.mp h
    exact ⟨m, moved, rfl, rfl, rfl⟩
  · exact absurd h (by simp)

theorem machine_step {m m' : Machine} {x : Segment} (h : m.step x = some m') :
    m'.flow = badFlagsAnomaly (m.flow.setFlowDirection x.side.dir) x.tcp ∧
      x.side.dir.index < m.info.seqNum.length ∧
      m'.info.seqNum =
        m.info.seqNum.set x.side.dir.index (x.tcp.seqNum + BitVec.ofInt 32 x.bytes) := by
  unfold Machine.step at h
  split at h
  · rename_i totals flow info computed
    obtain rfl := Option.some.inj h
    obtain ⟨bound, written⟩ := computeState_written computed
    exact ⟨computeState_flow computed, bound, written⟩
  · exact absurd h (by simp)

theorem badFlagsAnomaly_ports (f : Flow) (tcp : TcpHeader) :
    (badFlagsAnomaly f tcp).sourcePort = f.sourcePort ∧
      (badFlagsAnomaly f tcp).destPort = f.destPort := by
  unfold badFlagsAnomaly
  split <;> exact ⟨rfl, rfl⟩

theorem originator_label (c : Connection) : c.label .originator = .originator := if_pos rfl

/-- Only a responder with the port of the originator is labelled wrong. -/
theorem label_ne {c : Connection} {side : Side} (wrong : c.label side ≠ side) :
    side = .responder ∧ c.label .responder = .originator ∧
      c.machine.flow.destPort = c.machine.flow.sourcePort := by
  cases side with
  | originator => exact absurd c.originator_label wrong
  | responder =>
    by_cases same : c.port .responder = c.machine.flow.sourcePort
    · exact ⟨rfl, if_pos same, same⟩
    · exact absurd (if_neg same) wrong

/-- Between equal ports nothing is written for the responder. -/
def Quiet (c : Connection) : Prop :=
  c.machine.flow.destPort = c.machine.flow.sourcePort → c.machine.info.seqNum[1]? = some 0

theorem quiet_step {c c' : Connection} {x : Sent} (quiet : c.Quiet) (h : c.step x = some c') :
    c'.Quiet := by
  obtain ⟨m, moved, rfl, -, -⟩ := step_machine h
  obtain ⟨flow, -, written⟩ := machine_step moved
  obtain ⟨sources, dests⟩ := badFlagsAnomaly_ports
    (c.machine.flow.setFlowDirection (c.label x.side).dir) x.tcp
  intro same
  rw [flow, sources, dests] at same
  have ports : c.machine.flow.destPort = c.machine.flow.sourcePort := same
  have ahead : c.label x.side = .originator := by
    refine if_pos ?_
    cases x.side with
    | originator => rfl
    | responder => exact ports
  rw [written, ahead]
  have other : (0 : Nat) ≠ 1 := by decide
  exact (List.getElem?_set_ne other).trans (quiet ports)

theorem tracks_iff {c c' : Connection} {x : Sent} (quiet : c.Quiet) (h : c.step x = some c') :
    c'.Tracks ↔ c.Counts x := by
  obtain ⟨m, moved, rfl, expected, last⟩ := step_machine h
  obtain ⟨-, bound, written⟩ := machine_step moved
  simp only at bound written
  have now : c'.Tracks ↔ c'.machine.info.seqNum[x.side.dir.index]? = some x.next := by
    unfold Tracks
    rw [last, expected]
    simp
  rw [now, written]
  unfold Counts
  by_cases right : c.label x.side = x.side
  · rw [right] at bound
    rw [if_pos right, right, List.getElem?_set_self bound, Option.some.injEq]
    exact seqNum_eq_next x
  · rw [if_neg right]
    obtain ⟨responder, ahead, ports⟩ := label_ne right
    rw [responder, ahead]
    have other : Side.originator.dir.index ≠ Side.responder.dir.index := by decide
    have zero : c.machine.info.seqNum[Side.responder.dir.index]? = some 0 := quiet ports
    rw [List.getElem?_set_ne other, zero, Option.some.injEq]
    exact eq_comm

/-! ### Every run -/

theorem step_runs {c : Connection} {s : TcpState} {x : Sent} (inRange : InRange c.machine.info s)
    (listed : c.listed = true) (order : c.InOrder x) :
    ∃ c' t, c.step x = some c' ∧ InRange c'.machine.info t := by
  have directed : (c.machine.flow.setFlowDirection (c.label x.side).dir).direction =
    (c.label x.side).dir := rfl
  obtain ⟨info, computed, after⟩ :=
    computeState_inRange inRange directed c.machine.totals x.tcp x.payload
  unfold step
  rw [if_pos ⟨listed, order⟩]
  unfold Machine.step
  rw [computed]
  exact ⟨_, _, rfl, after⟩

/-- No segment in order is refused: every lookup of every run is in bounds. -/
theorem always_accepts (m : Machine) (forwards : Bool) (xs : List Sent) :
    Always step (fun c => c.listed = true → ∀ x, c.InOrder x → (c.step x).isSome = true)
      (start m forwards) xs := by
  have inRange : Always step (fun c => ∃ s, InRange c.machine.info s) (start m forwards) xs := by
    refine always_of_inv ?_ ⟨.closed, reset_inRange m.info⟩
    rintro c x c' ⟨s, held⟩ h
    have taken : c.listed = true ∧ c.InOrder x := by
      by_contra refused
      rw [step, if_neg refused] at h
      exact absurd h (by simp)
    obtain ⟨d, t, same, after⟩ := step_runs held taken.1 taken.2
    obtain rfl := Option.some.inj (same.symm.trans h)
    exact ⟨t, after⟩
  refine always_mono ?_ inRange
  rintro c ⟨s, held⟩ listed x order
  obtain ⟨c', t, same, -⟩ := step_runs held listed order
  rw [same]
  rfl

/-- In every run in order, the numbers are the expected ones exactly when every segment is counted
right. -/
theorem always_expects_iff (m : Machine) (forwards : Bool) (xs : List Sent) :
    Always step Tracks (start m forwards) xs ↔
      Along step (fun c x _ => c.Counts x) (start m forwards) xs := by
  refine always_iff_along (fun _ _ _ quiet h => quiet_step quiet h) ?_ (fun _ => rfl) ?_
  · exact fun c x c' quiet _ h => tracks_iff quiet h
  · exact fun side first => absurd first (by simp [start])

/-- The SYN is answered by a SYN/ACK, which takes a number that is not counted. -/
theorem not_always_expects :
    ¬∀ (m : Machine) (forwards : Bool) (xs : List Sent), Always step Tracks (start m forwards) xs := by
  intro h
  have run := h ⟨{}, { Flow.new with sourcePort := 49152, destPort := 80 }, {}⟩ true
    [⟨.originator, { syn := true, seq := 1000 }, 0⟩,
      ⟨.responder, { syn := true, ack := true, seq := 2000 }, 0⟩]
  revert run
  exact not_always_of_run (by decide +kernel)

end Connection

end AIEngine.Tcp
