import AIEngine.Transport.Expiry

/-!
# The flow of the current packet

The timers run instead of the update of the flow's time, and nothing keeps the sweep from taking the
very flow whose packet started it.
-/

namespace AIEngine.Transport

/-- The flow of the last packet, unless it was closed, is in the table with its objects, and its
time is the time of the packet. -/
def Survives (s : Transport) : Prop :=
  ∀ a ∈ s.currentFlow, s.closed = false →
    a ∈ s.table ∧ a ∉ s.released ∧ s.lastTime a = s.packetTime

instance (s : Transport) : Decidable (Survives s) := inferInstanceAs (Decidable (∀ _ ∈ _, _))

/-- The sweep at `time` takes the flow. -/
def Takes (s : Transport) (time : Int) (a : Obj) : Prop :=
  a ∈ s.table.takeWhile fun b => decide (s.Expired time b)

/-- What `getFlow` must leave for the flow of a packet: the right time already when the rest of
`processPacket` does not write it, and a place the sweep does not reach when there is one. -/
def Spared (s₁ : Transport) (kind : Kind) (time : Int) (a : Obj) : Prop :=
  if s₁.Ignored kind a then s₁.lastTime a = time
  else if s₁.lastTimeout < time - s₁.timeout then s₁.lastTime a = time ∧ ¬s₁.Takes time a
  else time.bmod (2 ^ 32) = time

def SparesCurrent (kind : Kind) (s : Transport) (e : Event) (t : Transport) : Prop :=
  ∀ p o, e = .packet p o → ∀ a s₁, (s.begin p).getFlow kind p o.hint = .ok (some a, s₁) →
    t.closed = false → s₁.Spared kind p.time a

theorem outcome_survives_iff {s₁ t : Transport} {kind : Kind} {a : Obj} (member : a ∈ s₁.table)
    (none : s₁.released = []) (outcome : Outcome s₁ t kind a) (opened : t.closed = false) :
    (a ∈ t.table ∧ a ∉ t.released ∧ t.lastTime a = s₁.packetTime) ↔
      s₁.Spared kind s₁.packetTime a := by
  unfold Spared
  cases outcome with
  | ignored silent flows table released closed swept =>
    have time : t.lastTime a = s₁.lastTime a := lastTime_of_ident (congrArg Flow.ident (flows a))
    rw [if_pos silent, table, released, none, time]
    simp [member]
  | closed heard flows table closed swept =>
    rw [closed] at opened
    exact absurd opened (by decide)
  | swept heard due flows table released closed swept =>
    have parted : s₁.Takes s₁.packetTime a ∨ a ∈ t.table := by
      unfold Takes
      rw [table, ← List.mem_append, List.takeWhile_append_dropWhile]
      exact member
    have given : a ∈ t.released ↔ s₁.Takes s₁.packetTime a := by
      rw [released, none, List.append_nil, List.mem_reverse]
      exact Iff.rfl
    rw [if_neg heard, if_pos due, given, lastTime_of_ident (flows a)]
    constructor
    · intro ⟨_, spared, time⟩
      exact ⟨time, spared⟩
    · intro ⟨time, spared⟩
      exact ⟨parted.resolve_left spared, spared, time⟩
  | timed heard early flows time table released closed swept =>
    have written : t.lastTime a = s₁.packetTime.bmod (2 ^ 32) := by
      unfold lastTime Flow.getLastPacketTime
      rw [time]
    rw [if_neg heard, if_neg early, table.mem_iff, released, none, written]
    simp [member]

theorem survives_iff {s t : Transport} {kind : Kind} {p : Packet} {o : Outside} (sound : Sound s)
    (h : s.processPacket kind p o = .ok t) :
    Survives t ↔ ∀ a s₁, (s.begin p).getFlow kind p o.hint = .ok (some a, s₁) →
      t.closed = false → s₁.Spared kind p.time a := by
  obtain ⟨found, s₁, processed⟩ := processPacket_spec sound h
  unfold Survives
  rw [processed.current, processed.packetTime]
  have time : s₁.packetTime = p.time := congrArg Members.packetTime processed.looked.members
  have none : s₁.released = [] := congrArg Members.released processed.looked.members
  cases found with
  | none =>
    refine iff_of_true (fun a known => absurd known (by simp)) fun a s₂ got => ?_
    rw [processed.got] at got
    exact absurd got (by simp)
  | some a =>
    have decided := outcome_survives_iff processed.looked.mem none (processed.outcome a rfl)
    rw [time] at decided
    constructor
    · intro survives b s₂ got opened
      rw [processed.got] at got
      cases got
      exact (decided opened).mp (survives a rfl opened)
    · intro spared b known opened
      obtain rfl := Option.some.inj known
      exact (decided opened).mpr (spared a s₁ processed.got opened)

end AIEngine.Transport
