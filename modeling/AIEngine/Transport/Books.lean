import AIEngine.Library.Counters
import AIEngine.Transport.Conversations
import AIEngine.Transport.Handover

/-!
# The books of the flows

A flow is counted under its id for as long as it is in the table. Whatever packets come in whatever order,
`total_bytes` is the sum of the lengths of the packets with this id that it has heard since it came into the
table, as far as a word of 32 bits holds it. The lengths are those that the transport computes from the headers,
and may be negative.
-/

namespace AIEngine

/-- What a packet adds to the flow that it finds or opens. TCP adds nothing to a flow without its `TCPInfo`. -/
def Transport.counts (s : Transport) (kind : Kind) (p : Packet) (hint : Nat) : Int :=
  match (s.begin p).getFlow kind p hint with
  | .ok (some a, s₁) => if s₁.Ignored kind a then 0 else p.bytes kind
  | _ => 0

structure Books where
  transport : Transport
  /-- the packets under the ids that were in the table when the last one came, and that one -/
  entries : List (BitVec 64 × Int) := []

namespace Books

open Transport

def table (b : Books) : List Obj := b.transport.table

/-- What stands under an id. -/
def sum : List (BitVec 64 × Int) → BitVec 64 → Int
  | [], _ => 0
  | e :: rest, id => (if e.1 = id then e.2 else 0) + sum rest id

/-- The entries of the flows that are still there. -/
def current (b : Books) : List (BitVec 64 × Int) :=
  b.entries.filter fun e => decide (∃ a ∈ b.table, b.transport.getId a = e.1)

/-- Elsewhere nothing is written to the bytes of a flow. -/
def elsewhere (b : Books) (w : World) : Books :=
  { b with
    transport := b.transport.elsewhere
      { w with flows := fun a => { w.flows a with totalBytes := (b.transport.flow a).totalBytes } } }

def step (kind : Kind) (b : Books) : Event → Option Books
  | .packet p o =>
    match b.transport.processPacket kind p o with
    | .ok t => some
      { transport := t
        entries := (p.hash1 kind, b.transport.counts kind p o.hint) :: b.current }
    | .error _ => none
  | .elsewhere w => some (b.elsewhere w)

def start (layer : Nat) (objects : CacheId → Nat) (registered : Option Nat) (timeout : Int) : Books where
  transport := Transport.start layer objects registered timeout

/-- Nothing is lost, and nothing counted twice or at another flow. -/
def Exact (b : Books) : Prop :=
  ∀ a ∈ b.table, (b.transport.flow a).totalBytes = sum b.entries (b.transport.getId a)

/-- What the counters show, and of a sum that a signed word can hold, the sum itself. -/
def Shown (b : Books) : Prop :=
  ∀ a ∈ b.table,
    (b.transport.flow a).getTotalBytes = BitVec.ofInt 32 (sum b.entries (b.transport.getId a)) ∧
      (-2147483648 ≤ sum b.entries (b.transport.getId a) ∧ sum b.entries (b.transport.getId a) ≤ Counter.top →
        (b.transport.flow a).getTotalBytes.toInt = sum b.entries (b.transport.getId a))

theorem sum_cons (e : BitVec 64 × Int) (entries : List (BitVec 64 × Int)) (id : BitVec 64) :
    sum (e :: entries) id = (if e.1 = id then e.2 else 0) + sum entries id := rfl

/-- What is taken out under other ids is not missed. -/
theorem sum_filter {keep : BitVec 64 × Int → Bool} {id : BitVec 64} (entries : List (BitVec 64 × Int))
    (kept : ∀ e ∈ entries, e.1 = id → keep e = true) : sum (entries.filter keep) id = sum entries id := by
  induction entries with
  | nil => rfl
  | cons e rest ih =>
    have before := ih fun e member => kept e (List.mem_cons_of_mem _ member)
    rw [List.filter_cons, sum_cons, ← before]
    by_cases same : e.1 = id
    · rw [if_pos (kept e List.mem_cons_self same), sum_cons]
    · rw [if_neg same, Int.zero_add]
      split
      · rw [sum_cons, if_neg same, Int.zero_add]
      · rfl

theorem sum_other {id : BitVec 64} {entries : List (BitVec 64 × Int)} (other : ∀ e ∈ entries, e.1 ≠ id) :
    sum entries id = 0 := by
  induction entries with
  | nil => rfl
  | cons e rest ih =>
    rw [sum_cons, if_neg (other e List.mem_cons_self), Int.zero_add]
    exact ih fun e member => other e (List.mem_cons_of_mem _ member)

variable {b : Books} {kind : Kind} {p : Packet} {o : Outside}

theorem sum_current {a : Obj} (member : a ∈ b.table) :
    sum b.current (b.transport.getId a) = sum b.entries (b.transport.getId a) :=
  sum_filter b.entries fun _ _ same => decide_eq_true ⟨a, member, same.symm⟩

theorem sum_absent {id : BitVec 64} (absent : ∀ a ∈ b.table, b.transport.getId a ≠ id) :
    sum b.current id = 0 := by
  refine sum_other fun e member same => ?_
  obtain ⟨a, listed, named⟩ := of_decide_eq_true (List.mem_filter.mp member).2
  exact absent a listed (named.trans same)

theorem counts_some {s s₁ : Transport} {hint : Nat} {a : Obj}
    (got : (s.begin p).getFlow kind p hint = .ok (some a, s₁)) :
    s.counts kind p hint = if ¬s₁.Ignored kind a then p.bytes kind else 0 := by
  unfold Transport.counts
  rw [got]
  by_cases ignored : s₁.Ignored kind a
  · rw [if_neg (not_not_intro ignored)]
    exact if_pos ignored
  · rw [if_pos ignored]
    exact if_neg ignored

theorem step_packet {b' : Books} (stepped : step kind b (.packet p o) = some b') :
    b.transport.processPacket kind p o = .ok b'.transport ∧
      b'.entries = (p.hash1 kind, b.transport.counts kind p o.hint) :: b.current := by
  unfold step at stepped
  simp only at stepped
  split at stepped
  · rename_i t processed
    obtain rfl := Option.some.inj stepped
    exact ⟨processed, rfl⟩
  · exact absurd stepped (by simp)

/-- The packet finds this flow, or one of another id. -/
theorem found_iff {s s₁ : Transport} {hint : Nat} {found : Option Obj} {a : Obj} (sound : Sound s)
    (looked : Looked (s.begin p) s₁ kind p hint found) (member : a ∈ s.table) :
    found = some a ↔ p.hash1 kind = s.getId a := by
  constructor
  · rintro rfl
    cases looked with
    | found _ known same =>
      rw [findFlow_eq] at known
      exact (findId_some known).2.symm
    | opened _ unknown opened => exact absurd member opened.fresh
  · intro same
    have known : (s.begin p).findFlow (p.hash1 kind) (p.hash2 kind) = some a := by
      rw [findFlow_eq, same]
      exact sound.findId member
    cases looked with
    | found c known' _ => exact known'.symm.trans known
    | failed unknown => exact absurd (unknown.symm.trans known) (by simp)
    | opened c unknown => exact absurd (unknown.symm.trans known) (by simp)

theorem exact_packet {b' : Books} (sound : Sound b.transport) (exact' : Exact b)
    (stepped : step kind b (.packet p o) = some b') : Exact b' := by
  obtain ⟨ran, entries⟩ := step_packet stepped
  obtain ⟨found, s₁, got, counted⟩ := processPacket_bytes ran
  obtain ⟨found', s₂, processed⟩ := processPacket_spec sound ran
  obtain ⟨rfl, rfl⟩ := Prod.mk.inj (Except.ok.inj (processed.got.symm.trans got))
  obtain ⟨old, fresh⟩ := getFlow_bytes (begin_sound sound p) got
  intro a member
  have total : (b'.transport.flow a).totalBytes =
      s₂.world.bytes a + if found' = some a ∧ ¬s₂.Ignored kind a then p.bytes kind else 0 := counted a
  rw [total, entries, sum_cons]
  rcases processed.listed member with ⟨before, name⟩ | ⟨absent, rfl, name⟩
  · have id : b'.transport.getId a = b.transport.getId a := congrArg FlowIdent.hash name
    have earlier : s₂.world.bytes a = (b.transport.flow a).totalBytes := old a before
    rw [id, sum_current before, earlier, exact' a before, Int.add_comm]
    congr 1
    have finds := found_iff sound processed.looked before
    by_cases same : found' = some a
    · subst same
      simp only [counts_some got, true_and, if_pos (finds.mp rfl)]
    · rw [if_neg (fun both => same both.1), if_neg (fun equal => same (finds.mpr equal))]
  · have id : b'.transport.getId a = p.hash1 kind :=
      (congrArg FlowIdent.hash name).trans (describe_ident (b.transport.begin p) kind p _).1
    have empty : s₂.world.bytes a = 0 := fresh a rfl absent
    have unknown : ∀ c ∈ b.table, b.transport.getId c ≠ p.hash1 kind := by
      intro c listed same
      have other := (found_iff sound processed.looked listed).mpr same.symm
      exact absent (Option.some.inj other ▸ listed)
    rw [id, sum_absent unknown, empty, counts_some got]
    simp only [true_and, if_true, Int.zero_add, Int.add_zero]

theorem exact_step {b' : Books} {e : Event} (sound : Sound b.transport) (exact' : Exact b)
    (stepped : step kind b e = some b') : Exact b' := by
  cases e with
  | packet p o => exact exact_packet sound exact' stepped
  | elsewhere w =>
    obtain rfl := Option.some.inj stepped
    intro a member
    exact exact' a member

theorem sound_step {b' : Books} {e : Event} (sound : Sound b.transport)
    (stepped : step kind b e = some b') : Sound b'.transport := by
  cases e with
  | packet p o =>
    obtain ⟨found, s₁, processed⟩ := processPacket_spec sound (step_packet stepped).1
    exact processed.after
  | elsewhere w =>
    obtain rfl := Option.some.inj stepped
    exact sound_elsewhere sound _

theorem Exact.shown (exact' : Exact b) : Shown b := by
  intro a member
  have word : (b.transport.flow a).getTotalBytes = BitVec.ofInt 32 (sum b.entries (b.transport.getId a)) :=
    congrArg (BitVec.ofInt 32) (exact' a member)
  refine ⟨word, fun fits => ?_⟩
  rw [word, Counter.toInt_ofInt]
  exact Counter.int32_of_fits fits.1 fits.2

/-- In every run each flow of the table has counted its packets and no others. -/
theorem always_accounted (kind : Kind) (layer : Nat) (objects : CacheId → Nat) (registered : Option Nat)
    (timeout : Int) (events : List Event) :
    Transition.Always (step kind) Shown (start layer objects registered timeout) events := by
  have kept : Transition.Always (step kind) (fun b => Sound b.transport ∧ Exact b)
      (start layer objects registered timeout) events := by
    refine Transition.always_of_inv
      (fun b e b' inv stepped => ⟨sound_step inv.1 stepped, exact_step inv.1 inv.2 stepped⟩) ?_
    refine ⟨sound_start layer objects registered timeout, fun a member => ?_⟩
    exact absurd member (by simp [start, Books.table, Transport.start, World.start, Transport.table])
  exact Transition.always_mono (fun b inv => inv.2.shown) kept

end Books

end AIEngine
