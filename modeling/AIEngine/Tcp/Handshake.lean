import Mathlib.Data.List.Induction
import AIEngine.Library.Transition
import AIEngine.Tcp.ComputeState

/-!
# The handshake behind `ESTABLISHED`

A run feeds segments of either direction to `computeState`, from a freshly reset `TCPInfo`. The
history invariant says, state by state, which segments the run contains since the machine was last
in `CLOSED` or `TIME_WAIT`.
-/

namespace AIEngine.Tcp

structure Segment where
  side : Side
  tcp : TcpHeader
  bytes : Int
  deriving DecidableEq, Repr

/-- The arguments `computeState` works on. -/
structure Machine where
  totals : FlagTotals
  flow : Flow
  info : TCPInfo
  deriving DecidableEq, Repr

namespace Machine

/-- `getFlow` sets the direction of the flow before the segment is processed. -/
def step (m : Machine) (x : Segment) : Option Machine :=
  match computeState m.totals (m.flow.setFlowDirection x.side.dir) m.info x.tcp x.bytes with
  | .ok (totals, flow, info) => some { totals := totals, flow := flow, info := info }
  | .error _ => none

/-- The machine before the first segment. -/
def fresh (m : Machine) : Machine := { m with info := m.info.reset }

end Machine

/-! ### What a run contains -/

/-- The sender and the flag class of a segment. -/
abbrev Kind := Side × TcpFlags

def Segment.kind (x : Segment) : Kind := (x.side, x.tcp.flags)

/-- The segments of these kinds occur, in this order. -/
def Contains (post : List Segment) (kinds : List Kind) : Prop :=
  kinds.Sublist (post.map Segment.kind)

theorem contains_nil (post : List Segment) : Contains post [] := List.nil_sublist _

theorem contains_skip {post : List Segment} {kinds : List Kind} (x : Segment)
    (h : Contains post kinds) : Contains (post ++ [x]) kinds := by
  unfold Contains
  rw [List.map_append]
  exact List.Sublist.trans h (List.sublist_append_left _ _)

theorem contains_add {post : List Segment} {kinds : List Kind} {x : Segment} {k : Kind}
    (h : Contains post kinds) (same : x.kind = k) : Contains (post ++ [x]) (kinds ++ [k]) := by
  unfold Contains
  rw [List.map_append]
  have last : [k].Sublist ([x].map Segment.kind) := by
    rw [List.map_singleton, same]
  exact List.Sublist.append h last

/-- SYN from the originator, answered by the responder's SYN/ACK, or by its own SYN and a SYN/ACK
from either side. -/
def SynAnswered (post : List Segment) : Prop :=
  Contains post [(.originator, .syn), (.responder, .synack)] ∨
    ∃ side, Contains post [(.originator, .syn), (.responder, .syn), (side, .synack)]

/-- As `SynAnswered`, with the ACK from the originator after it. -/
def Handshake (post : List Segment) : Prop :=
  Contains post [(.originator, .syn), (.responder, .synack), (.originator, .ack)] ∨
    ∃ side, Contains post
      [(.originator, .syn), (.responder, .syn), (side, .synack), (.originator, .ack)]

/-- What has been seen when the machine is in a state. -/
def Seen : TcpState → List Segment → Prop
  | .synSent, post => Contains post [(.originator, .syn)]
  | .simsynSent, post => Contains post [(.originator, .syn), (.responder, .syn)]
  | .synReceived, post => SynAnswered post
  | .established, post => Handshake post
  | _, _ => True

theorem synAnswered_skip {post : List Segment} (x : Segment) (h : SynAnswered post) :
    SynAnswered (post ++ [x]) := by
  rcases h with direct | ⟨side, simultaneous⟩
  · exact Or.inl (contains_skip x direct)
  · exact Or.inr ⟨side, contains_skip x simultaneous⟩

theorem handshake_skip {post : List Segment} (x : Segment) (h : Handshake post) :
    Handshake (post ++ [x]) := by
  rcases h with direct | ⟨side, simultaneous⟩
  · exact Or.inl (contains_skip x direct)
  · exact Or.inr ⟨side, contains_skip x simultaneous⟩

theorem seen_skip {s : TcpState} {post : List Segment} (x : Segment) (h : Seen s post) :
    Seen s (post ++ [x]) := by
  cases s with
  | synSent => exact contains_skip x h
  | simsynSent => exact contains_skip x h
  | synReceived => exact synAnswered_skip x h
  | established => exact handshake_skip x h
  | _ => trivial

theorem handshake_of_ack {post : List Segment} {x : Segment} (h : SynAnswered post)
    (ack : x.kind = (.originator, .ack)) : Handshake (post ++ [x]) := by
  rcases h with direct | ⟨side, simultaneous⟩
  · exact Or.inl (contains_add direct ack)
  · exact Or.inr ⟨side, contains_add simultaneous ack⟩

/-- The history invariant is kept by every flag class from either side, in every state. -/
theorem seen_next {s : TcpState} {post : List Segment} (x : Segment) (h : Seen s post) :
    Seen (next s x.side x.tcp.flags) (post ++ [x]) := by
  cases entered : next s x.side x.tcp.flags with
  | synSent =>
    rcases next_synSent entered with rfl | ⟨syn, side⟩
    · exact seen_skip x h
    · exact contains_add (contains_nil post) (by rw [Segment.kind, syn, side])
  | simsynSent =>
    rcases next_simsynSent entered with rfl | ⟨rfl, syn, side⟩
    · exact seen_skip x h
    · have first : Contains post [(.originator, .syn)] := h
      exact contains_add first (by rw [Segment.kind, syn, side])
  | synReceived =>
    rcases next_synReceived entered with rfl | ⟨rfl, synack, side⟩ | ⟨rfl, synack⟩
    · exact seen_skip x h
    · have first : Contains post [(.originator, .syn)] := h
      exact Or.inl (contains_add first (by rw [Segment.kind, synack, side]))
    · have both : Contains post [(.originator, .syn), (.responder, .syn)] := h
      exact Or.inr ⟨x.side, contains_add both (by rw [Segment.kind, synack])⟩
  | established =>
    rcases next_established entered with rfl | ⟨rfl, ack, side⟩
    · exact seen_skip x h
    · exact handshake_of_ack h (by rw [Segment.kind, ack, side])
  | _ => trivial

/-! ### The run since the machine was last idle -/

/-- `CLOSED` or `TIME_WAIT`. -/
def Idle (s : TcpState) : Prop := s = .closed ∨ s = .timeWait

instance (s : TcpState) : Decidable (Idle s) := inferInstanceAs (Decidable (_ ∨ _))

/-- The run reaches a state of the table, every index in range. -/
def Reaches (m : Machine) (xs : List Segment) (s : TcpState) : Prop :=
  ∃ m', Transition.run Machine.step m xs = some m' ∧ InRange m'.info s

theorem reaches_unique {m : Machine} {xs : List Segment} {s t : TcpState} (left : Reaches m xs s)
    (right : Reaches m xs t) : s = t := by
  obtain ⟨m₁, run₁, range₁⟩ := left
  obtain ⟨m₂, run₂, range₂⟩ := right
  have same : m₁ = m₂ := Option.some.inj (run₁.symm.trans run₂)
  have codes : s.code = t.code := by rw [← range₁.curr, ← range₂.curr, same]
  exact code_injective codes

theorem reaches_snoc {m : Machine} {xs : List Segment} {s : TcpState} (h : Reaches m xs s)
    (x : Segment) :
    Reaches m (xs ++ [x]) (if x.tcp.rst then .closed else next s x.side x.tcp.flags) := by
  obtain ⟨m', reached, inRange⟩ := h
  have directed : (m'.flow.setFlowDirection x.side.dir).direction = x.side.dir := rfl
  obtain ⟨info, computed, after⟩ := computeState_inRange inRange directed m'.totals x.tcp x.bytes
  let moved : Machine :=
    { totals := m'.totals.count x.tcp
      flow := badFlagsAnomaly (m'.flow.setFlowDirection x.side.dir) x.tcp
      info := info }
  have stepped : m'.step x = some moved := by
    unfold Machine.step
    rw [computed]
  refine ⟨moved, ?_, after⟩
  rw [Transition.run_append, reached, Option.bind_some, Transition.run_cons, stepped]
  rfl

/-- The run splits where the machine was last idle; `post` is what came since. -/
structure Since (m : Machine) (pre post : List Segment) (s : TcpState) : Prop where
  idle : ∃ t, Reaches m pre t ∧ Idle t
  busy : ∀ q, q ≠ [] → q <+: post → ∀ t, Reaches m (pre ++ q) t → ¬Idle t
  noReset : ∀ x ∈ post, x.tcp.rst = false
  seen : Seen s post

theorem since_idle {m : Machine} {xs : List Segment} {s : TcpState} (h : Reaches m xs s)
    (idle : Idle s) : Since m xs [] s := by
  refine ⟨⟨s, h, idle⟩, ?_, by simp, ?_⟩
  · intro q nonempty inside
    exact absurd (List.prefix_nil.mp inside) nonempty
  · rcases idle with rfl | rfl <;> trivial

theorem since_busy {m : Machine} {pre post : List Segment} {s : TcpState} {x : Segment}
    (since : Since m pre post s) (reached : Reaches m (pre ++ post) s) (rst : x.tcp.rst = false)
    (notIdle : ¬Idle (next s x.side x.tcp.flags)) :
    Since m pre (post ++ [x]) (next s x.side x.tcp.flags) := by
  have after := reaches_snoc reached x
  rw [rst, if_neg (by simp)] at after
  refine ⟨since.idle, ?_, ?_, seen_next x since.seen⟩
  · intro q nonempty inside t reachedT
    rcases List.prefix_concat_iff.mp inside with whole | shorter
    · subst whole
      rw [← List.append_assoc] at reachedT
      rw [reaches_unique reachedT after]
      exact notIdle
    · exact since.busy q nonempty shorter t reachedT
  · intro y member
    rcases List.mem_append.mp member with old | new
    · exact since.noReset y old
    · obtain rfl := List.mem_singleton.mp new
      exact rst

/-- Every run stays in range, and the history invariant holds at its end. -/
theorem history (m : Machine) (xs : List Segment) :
    ∃ s, Reaches m.fresh xs s ∧ ∃ pre post, xs = pre ++ post ∧ Since m.fresh pre post s := by
  induction xs using List.reverseRecOn with
  | nil =>
    have start : Reaches m.fresh [] .closed := ⟨m.fresh, rfl, reset_inRange m.info⟩
    exact ⟨.closed, start, [], [], rfl, since_idle start (Or.inl rfl)⟩
  | append_singleton xs x ih =>
    obtain ⟨s, reached, pre, post, rfl, since⟩ := ih
    have after := reaches_snoc reached x
    by_cases rst : x.tcp.rst
    · rw [if_pos rst] at after
      exact ⟨.closed, after, _, [], (List.append_nil _).symm, since_idle after (Or.inl rfl)⟩
    · rw [if_neg rst] at after
      by_cases idle : Idle (next s x.side x.tcp.flags)
      · exact ⟨_, after, _, [], (List.append_nil _).symm, since_idle after idle⟩
      · have quiet : x.tcp.rst = false := by simpa using rst
        exact ⟨_, after, pre, post ++ [x], List.append_assoc .., since_busy since reached quiet idle⟩

/-- In every run from a reset `TCPInfo`, no lookup is out of bounds and the state is an index of
`tcp_states`; when it is `ESTABLISHED`, the run since the machine was last `CLOSED` or `TIME_WAIT`
contains the handshake, and no RST. -/
theorem computeState_sound (m : Machine) (xs : List Segment) :
    ∃ m', Transition.run Machine.step m.fresh xs = some m' ∧
      0 ≤ m'.info.stateCurr ∧ m'.info.stateCurr < tcpStates.length ∧
      (m'.info.stateCurr = TcpState.established.code →
        ∃ pre post, xs = pre ++ post ∧
          (∃ t, Reaches m.fresh pre t ∧ Idle t) ∧
          (∀ q, q ≠ [] → q <+: post → ∀ t, Reaches m.fresh (pre ++ q) t → ¬Idle t) ∧
          Handshake post ∧ ∀ x ∈ post, x.tcp.rst = false) := by
  obtain ⟨s, ⟨m', reached, inRange⟩, pre, post, split, since⟩ := history m xs
  refine ⟨m', reached, ?_, ?_, ?_⟩
  · rw [inRange.curr]
    exact (code_bounds s).1
  · rw [inRange.curr]
    exact (code_bounds s).2
  · intro established
    rw [inRange.curr] at established
    obtain rfl := code_injective established
    exact ⟨pre, post, split, since.idle, since.busy, since.seen, since.noReset⟩

end AIEngine.Tcp
