import AIEngine.Library.Endings
import AIEngine.Tcp.States

/-!
# `TCPProtocol::computeState`

The flag counters of `TCPInfo` are 16 bit words, the sequence numbers 32 bit words, and the two
states are the integer codes of the table.
-/

namespace AIEngine.Tcp

structure TCPInfo where
  statePrev : Int := TcpState.closed.code
  stateCurr : Int := TcpState.closed.code
  syn : BitVec 16 := 0
  synAck : BitVec 16 := 0
  ack : BitVec 16 := 0
  fin : BitVec 16 := 0
  rst : BitVec 16 := 0
  push : BitVec 16 := 0
  /-- 0 for upstream and 1 for downstream -/
  seqNum : List (BitVec 32) := [0, 0]
  deriving DecidableEq, Repr

def TCPInfo.reset (_ : TCPInfo) : TCPInfo := {}

/-- What `computeState` reads of the header. -/
structure TcpHeader where
  syn : Bool := false
  ack : Bool := false
  fin : Bool := false
  rst : Bool := false
  psh : Bool := false
  seq : BitVec 32 := 0
  deriving DecidableEq, Repr

/-- The flag counters of the protocol and the hits of the bad flags anomaly. -/
structure FlagTotals where
  syn : Nat := 0
  synack : Nat := 0
  ack : Nat := 0
  rst : Nat := 0
  fin : Nat := 0
  tcpBadFlags : Nat := 0
  deriving DecidableEq, Repr

def TcpHeader.flags (tcp : TcpHeader) : TcpFlags :=
  if tcp.syn then
    if tcp.ack then .synack else .syn
  else if tcp.ack && tcp.fin then .fin
  else if tcp.fin then .fin
  else .ack

/-- A SYN must not come with FIN or RST. -/
def TcpHeader.badFlags (tcp : TcpHeader) : Bool := tcp.syn && (tcp.fin || tcp.rst)

def bump (w : BitVec 16) (on : Bool) : BitVec 16 := if on then w + 1 else w

def bumpTotal (n : Nat) (on : Bool) : Nat := if on then n + 1 else n

/-- FIN is counted with and without SYN; ACK and PSH only without it. -/
def TCPInfo.count (info : TCPInfo) (tcp : TcpHeader) : TCPInfo :=
  { info with
    syn := bump info.syn (tcp.syn && !tcp.ack)
    synAck := bump info.synAck (tcp.syn && tcp.ack)
    fin := bump info.fin tcp.fin
    ack := bump info.ack (!tcp.syn && !tcp.fin)
    push := bump info.push (!tcp.syn && tcp.psh)
    rst := bump info.rst tcp.rst }

def FlagTotals.count (totals : FlagTotals) (tcp : TcpHeader) : FlagTotals where
  syn := bumpTotal totals.syn (tcp.syn && !tcp.ack)
  synack := bumpTotal totals.synack (tcp.syn && tcp.ack)
  fin := bumpTotal totals.fin tcp.fin
  ack := bumpTotal totals.ack (!tcp.syn && !tcp.fin)
  rst := bumpTotal totals.rst tcp.rst
  tcpBadFlags := bumpTotal totals.tcpBadFlags tcp.badFlags

/-- `info->seq_num[flowdir] = value` -/
def TCPInfo.writeSeq (info : TCPInfo) (flowdir : FlowDirection) (value : BitVec 32) :
    Except Fault TCPInfo :=
  if flowdir.index < info.seqNum.length then
    .ok { info with seqNum := info.seqNum.set flowdir.index value }
  else .error .outOfBounds

/-- The move of the machine, with the hard reset of an RST after it. -/
def TCPInfo.move (info : TCPInfo) (newstate : Int) (rst : Bool) : TCPInfo :=
  if rst then
    { info with statePrev := TcpState.closed.code, stateCurr := TcpState.closed.code }
  else
    { info with
      statePrev := info.stateCurr
      stateCurr := if newstate = TcpState.ok then info.stateCurr else newstate }

/-- The sequence number a segment leaves behind: a plain SYN takes one number. -/
def TcpHeader.seqNum (tcp : TcpHeader) : BitVec 32 :=
  if tcp.syn && !tcp.ack then tcp.seq + 1 else tcp.seq

/-- A SYN sets the sequence number of its direction. -/
def TCPInfo.noteSyn (info : TCPInfo) (flowdir : FlowDirection) (tcp : TcpHeader) :
    Except Fault TCPInfo :=
  if tcp.syn then info.writeSeq flowdir tcp.seqNum else .ok info

def badFlagsAnomaly (flow : Flow) (tcp : TcpHeader) : Flow :=
  if tcp.badFlags ∧ flow.pa = .none then flow.setPacketAnomaly .tcpBadFlags else flow

def computeState (totals : FlagTotals) (flow : Flow) (info : TCPInfo) (tcp : TcpHeader)
    (bytes : Int) : Except Fault (FlagTotals × Flow × TCPInfo) := do
  let noted ← (info.count tcp).noteSyn flow.direction tcp
  let written ← noted.writeSeq flow.direction (tcp.seqNum + BitVec.ofInt 32 bytes)
  let newstate ← lookup written.stateCurr flow.direction tcp.flags
  .ok (totals.count tcp, badFlagsAnomaly flow tcp, written.move newstate tcp.rst)

/-! ### What one segment does -/

/-- A `TCPInfo` whose indices are all in range. -/
structure InRange (info : TCPInfo) (s : TcpState) : Prop where
  curr : info.stateCurr = s.code
  seqs : info.seqNum.length = 2

theorem reset_inRange (info : TCPInfo) : InRange info.reset .closed := ⟨rfl, rfl⟩

theorem writeSeq_inRange {info : TCPInfo} {s : TcpState} (inRange : InRange info s) (d : Side)
    (value : BitVec 32) : ∃ i, info.writeSeq d.dir value = .ok i ∧ InRange i s := by
  have bound : d.dir.index < info.seqNum.length := by
    rw [inRange.seqs]
    cases d <;> decide
  refine ⟨_, if_pos bound, inRange.curr, ?_⟩
  simpa using inRange.seqs

theorem noteSyn_inRange {info : TCPInfo} {s : TcpState} (inRange : InRange info s) (d : Side)
    (tcp : TcpHeader) : ∃ i, info.noteSyn d.dir tcp = .ok i ∧ InRange i s := by
  unfold TCPInfo.noteSyn
  by_cases syn : tcp.syn
  · rw [if_pos syn]
    exact writeSeq_inRange inRange d tcp.seqNum
  · exact ⟨info, if_neg syn, inRange⟩

theorem move_inRange {info : TCPInfo} {s t : TcpState} {v : Int} (inRange : InRange info s)
    (entry : v = t.code ∨ v = TcpState.ok ∧ t = s) (rst : Bool) :
    InRange (info.move v rst) (if rst then .closed else t) := by
  unfold TCPInfo.move
  cases rst with
  | true => exact ⟨rfl, inRange.seqs⟩
  | false =>
    refine ⟨?_, inRange.seqs⟩
    rcases entry with rfl | ⟨rfl, rfl⟩
    · simp [code_ne_ok]
    · simpa using inRange.curr

/-- No lookup is out of bounds, and the machine makes the transition the table stands for. -/
theorem computeState_inRange {info : TCPInfo} {s : TcpState} {flow : Flow} {d : Side}
    (inRange : InRange info s) (dir : flow.direction = d.dir) (totals : FlagTotals)
    (tcp : TcpHeader) (bytes : Int) :
    ∃ i, computeState totals flow info tcp bytes =
        .ok (totals.count tcp, badFlagsAnomaly flow tcp, i) ∧
      InRange i (if tcp.rst then .closed else next s d tcp.flags) := by
  have counted : InRange (info.count tcp) s := ⟨inRange.curr, inRange.seqs⟩
  obtain ⟨i, firstWrite, held⟩ := noteSyn_inRange counted d tcp
  obtain ⟨j, secondWrite, held⟩ := writeSeq_inRange held d (tcp.seqNum + BitVec.ofInt 32 bytes)
  have looked : ∃ v, lookup j.stateCurr d.dir tcp.flags = .ok v ∧
      (v = (next s d tcp.flags).code ∨ v = TcpState.ok ∧ next s d tcp.flags = s) := by
    rw [held.curr]
    rcases lookup_next s d tcp.flags with moves | ⟨stays, same⟩
    · exact ⟨_, moves, Or.inl rfl⟩
    · exact ⟨_, stays, Or.inr ⟨rfl, same⟩⟩
  obtain ⟨v, read, entry⟩ := looked
  refine ⟨j.move v tcp.rst, ?_, move_inRange held entry tcp.rst⟩
  unfold computeState
  simp only [dir, firstWrite, secondWrite, read, bind, Except.bind]

/-- `computeState` writes nothing of the flow but its anomaly. -/
theorem computeState_flow {totals totals' : FlagTotals} {flow flow' : Flow} {info info' : TCPInfo}
    {tcp : TcpHeader} {bytes : Int}
    (h : computeState totals flow info tcp bytes = .ok (totals', flow', info')) :
    flow' = badFlagsAnomaly flow tcp := by
  unfold computeState at h
  obtain ⟨noted, -, h⟩ := Ending.bind_ok h
  obtain ⟨written, -, h⟩ := Ending.bind_ok h
  obtain ⟨newstate, -, h⟩ := Ending.bind_ok h
  simp only [Except.ok.injEq, Prod.mk.injEq] at h
  exact h.2.1.symm

end AIEngine.Tcp
