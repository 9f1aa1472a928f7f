import AIEngine.Flow

/-!
# The transition table (`TCPStates.h`)

The table is kept as the source writes it, with its integer codes; `lookup` is the one expression
that reads it, and the lemmas below say from where each state of the handshake can be entered.
-/

namespace AIEngine.Tcp

inductive TcpState where
  | closed | synSent | simsynSent | synReceived | established | finSeen
  | closeWait | finWait | closing | lastAck | timeWait
  deriving DecidableEq, Repr

namespace TcpState

def code : TcpState → Int
  | .closed => 0
  | .synSent => 1
  | .simsynSent => 2
  | .synReceived => 3
  | .established => 4
  | .finSeen => 5
  | .closeWait => 6
  | .finWait => 7
  | .closing => 8
  | .lastAck => 9
  | .timeWait => 10

/-- `TcpState::OK`: stay in the current state. -/
def ok : Int := -1

end TcpState

inductive TcpFlags where
  | invalid | syn | synack | ack | fin
  deriving DecidableEq, Repr

def TcpFlags.index : TcpFlags → Nat
  | .invalid => 0
  | .syn => 1
  | .synack => 2
  | .ack => 3
  | .fin => 4

/-- `ST_TcpFlags`: INVALID, SYN, SYNACK, ACK, FIN. -/
abbrev StTcpFlags := List Int

structure TCPState where
  name : String
  /-- 0 for FORWARD, 1 for BACKWARD -/
  dir : List StTcpFlags
  deriving DecidableEq, Repr

open TcpState

def stTCPStateClosed : TCPState :=
  ⟨"CLOSE",
    [[0, synSent.code, 0, 0, 0],
     [0, 0, 0, 0, 0]]⟩

def stTCPStateSynSent : TCPState :=
  ⟨"SYN_SENT",
    [[0, ok, 0, 0, 0],
     [0, simsynSent.code, synReceived.code, 0, 0]]⟩

def stTCPStateSimSynSent : TCPState :=
  ⟨"SIMSYN_SENT",
    [[0, ok, synReceived.code, 0, 0],
     [0, ok, synReceived.code, 0, finSeen.code]]⟩

def stTCPStateSynReceived : TCPState :=
  ⟨"SYN_RECEIVED",
    [[0, 0, 0, established.code, finSeen.code],
     [0, 0, ok, ok, finSeen.code]]⟩

def stTCPStateEstablished : TCPState :=
  ⟨"ESTABLISHED",
    [[0, 0, 0, ok, finSeen.code],
     [0, 0, ok, ok, finSeen.code]]⟩

def stTCPStateFinSeen : TCPState :=
  ⟨"FIN_SEEN",
    [[0, 0, 0, closeWait.code, closing.code],
     [0, 0, 0, finWait.code, closing.code]]⟩

def stTCPStateCloseWait : TCPState :=
  ⟨"CLOSE_WAIT",
    [[0, 0, 0, ok, lastAck.code],
     [0, 0, 0, ok, lastAck.code]]⟩

def stTCPStateFinWait : TCPState :=
  ⟨"FIN_WAIT",
    [[0, 0, 0, ok, lastAck.code],
     [0, 0, 0, ok, lastAck.code]]⟩

def stTCPStateClosing : TCPState :=
  ⟨"CLOSING",
    [[0, 0, 0, lastAck.code, 0],
     [0, 0, 0, lastAck.code, 0]]⟩

def stTCPStateLastAck : TCPState :=
  ⟨"LAST_ACK",
    [[0, 0, 0, timeWait.code, 0],
     [0, 0, 0, timeWait.code, 0]]⟩

def stTCPStateTimeWait : TCPState :=
  ⟨"TIMEWAIT",
    [[0, synSent.code, 0, 0, 0],
     [0, 0, 0, 0, 0]]⟩

def tcpStates : List TCPState :=
  [stTCPStateClosed, stTCPStateSynSent, stTCPStateSimSynSent, stTCPStateSynReceived,
    stTCPStateEstablished, stTCPStateFinSeen, stTCPStateCloseWait, stTCPStateFinWait,
    stTCPStateClosing, stTCPStateLastAck, stTCPStateTimeWait]

/-- An array access; the source does not check the index. -/
def index {α : Type} (xs : List α) (i : Int) : Except Fault α :=
  if 0 ≤ i then
    match xs[i.toNat]? with
    | some x => .ok x
    | none => .error .outOfBounds
  else .error .outOfBounds

/-- `tcp_states[state].state->dir[flowdir].flags[flags]` -/
def lookup (state : Int) (flowdir : FlowDirection) (flags : TcpFlags) : Except Fault Int := do
  let st ← index tcpStates state
  let byFlags ← index st.dir flowdir.index
  index byFlags flags.index

/-- The two directions a flow can have when a segment is processed. -/
inductive Side where
  | originator | responder
  deriving DecidableEq, Repr

def Side.dir : Side → FlowDirection
  | .originator => .forward
  | .responder => .backward

/-- The transition the table stands for. -/
def next (s : TcpState) (from_ : Side) (flags : TcpFlags) : TcpState :=
  match s, from_, flags with
  | .closed, .originator, .syn => .synSent
  | .synSent, .originator, .syn => .synSent
  | .synSent, .responder, .syn => .simsynSent
  | .synSent, .responder, .synack => .synReceived
  | .simsynSent, _, .syn => .simsynSent
  | .simsynSent, _, .synack => .synReceived
  | .simsynSent, .responder, .fin => .finSeen
  | .synReceived, .originator, .ack => .established
  | .synReceived, .responder, .synack => .synReceived
  | .synReceived, .responder, .ack => .synReceived
  | .synReceived, _, .fin => .finSeen
  | .established, .responder, .synack => .established
  | .established, _, .ack => .established
  | .established, _, .fin => .finSeen
  | .finSeen, .originator, .ack => .closeWait
  | .finSeen, .responder, .ack => .finWait
  | .finSeen, _, .fin => .closing
  | .closeWait, _, .ack => .closeWait
  | .closeWait, _, .fin => .lastAck
  | .finWait, _, .ack => .finWait
  | .finWait, _, .fin => .lastAck
  | .closing, _, .ack => .lastAck
  | .lastAck, _, .ack => .timeWait
  | .timeWait, .originator, .syn => .synSent
  | _, _, _ => .closed

/-- The table implements `next`; its `OK` entries are the transitions to the same state. -/
theorem lookup_next (s : TcpState) (d : Side) (f : TcpFlags) :
    lookup s.code d.dir f = .ok (next s d f).code ∨
      lookup s.code d.dir f = .ok ok ∧ next s d f = s := by
  cases s <;> cases d <;> cases f <;> decide

theorem code_bounds (s : TcpState) : 0 ≤ s.code ∧ s.code < tcpStates.length := by
  cases s <;> decide

theorem code_injective {s t : TcpState} (same : s.code = t.code) : s = t := by
  cases s <;> cases t <;> first | rfl | exact absurd same (by decide)

theorem code_ne_ok (s : TcpState) : s.code ≠ ok := by
  cases s <;> decide

/-! ### From where the states of the handshake are entered -/

theorem next_synSent {s : TcpState} {d : Side} {f : TcpFlags} (h : next s d f = .synSent) :
    s = .synSent ∨ f = .syn ∧ d = .originator := by
  cases s <;> cases d <;> cases f <;> simp [next] at h ⊢

theorem next_simsynSent {s : TcpState} {d : Side} {f : TcpFlags} (h : next s d f = .simsynSent) :
    s = .simsynSent ∨ s = .synSent ∧ f = .syn ∧ d = .responder := by
  cases s <;> cases d <;> cases f <;> simp [next] at h ⊢

theorem next_synReceived {s : TcpState} {d : Side} {f : TcpFlags} (h : next s d f = .synReceived) :
    s = .synReceived ∨ s = .synSent ∧ f = .synack ∧ d = .responder ∨
      s = .simsynSent ∧ f = .synack := by
  cases s <;> cases d <;> cases f <;> simp [next] at h ⊢

theorem next_established {s : TcpState} {d : Side} {f : TcpFlags} (h : next s d f = .established) :
    s = .established ∨ s = .synReceived ∧ f = .ack ∧ d = .originator := by
  cases s <;> cases d <;> cases f <;> simp [next] at h ⊢

end AIEngine.Tcp
