import AIEngine.Library.Transition
import AIEngine.Transport.Outcome

/-!
# Old flows and the sweep

The sweep stops at the first flow that is not old, so it finds all old flows only when none of them
stands behind a younger one in the duration index. The index is in order after an insertion and after
`updateFlowTime`, but not after `setLastPacketTime`, which most packets use.
-/

namespace AIEngine.Transport

/-- The sweep of the last packet, if it ran one, left no old flow in the table. -/
def Complete (s : Transport) : Prop :=
  s.swept = true → ∀ a ∈ s.table, ¬s.Expired s.packetTime a

instance (s : Transport) : Decidable (Complete s) := inferInstanceAs (Decidable (_ → _))

/-- When the packet runs the timers, no old flow stood behind a younger one before it. -/
def SweepsInOrder (s : Transport) (e : Event) (t : Transport) : Prop :=
  ∀ p o, e = .packet p o → t.swept = true → OrderedIndex.Ahead (s.Expired p.time) s.table

theorem expired_down (s : Transport) (time : Int) (x y : Obj) (le : s.lastTime x ≤ s.lastTime y)
    (old : s.Expired time y) : s.Expired time x := by
  unfold Expired at old ⊢
  omega

/-- `getFlow` neither brings order into the index nor takes it away. -/
theorem looked_ahead_iff {s s₁ : Transport} {kind : Kind} {p : Packet} {hint : Nat} {a : Obj}
    (looked : Looked s s₁ kind p hint (some a)) (time : Int) :
    OrderedIndex.Ahead (s₁.Expired time) s₁.table ↔ OrderedIndex.Ahead (s.Expired time) s.table := by
  cases looked with
  | found _ known same =>
    have timeout : s₁.timeout = s.timeout := congrArg Members.timeout same.members
    rw [expired_eq same.ident timeout, same.table]
  | opened _ unknown opened =>
    have timeout : s₁.timeout = s.timeout := congrArg Members.timeout opened.members
    rw [opened.table, OrderedIndex.insert_ahead_iff (expired_down s₁ time)]
    have others : ∀ b ∈ s.table, (s₁.Expired time b ↔ s.Expired time b) := by
      intro b member
      have other : b ≠ a := fun same => opened.fresh (same ▸ member)
      unfold Expired
      rw [lastTime_of_ident (opened.others b other), timeout]
    exact List.Pairwise.iff_of_mem fun left right =>
      imp_congr (others _ right) (others _ left)

theorem complete_iff {s t : Transport} {kind : Kind} {p : Packet} {o : Outside} (sound : Sound s)
    (h : s.processPacket kind p o = .ok t) :
    Complete t ↔ (t.swept = true → OrderedIndex.Ahead (s.Expired p.time) s.table) := by
  obtain ⟨found, s₁, processed⟩ := processPacket_spec sound h
  have quiet : s₁.swept = false := congrArg Members.swept processed.looked.members
  have still : t.swept = false →
      (Complete t ↔ (t.swept = true → OrderedIndex.Ahead (s.Expired p.time) s.table)) := by
    intro off
    simp [Complete, off]
  cases found with
  | none => exact still (processed.missed rfl).2.2
  | some a =>
    cases processed.outcome a rfl with
    | ignored _ _ _ _ _ swept => exact still (swept.trans quiet)
    | closed _ _ _ _ swept => exact still (swept.trans quiet)
    | timed _ _ _ _ _ _ _ swept => exact still (swept.trans quiet)
    | swept heard due flows table released closed swept =>
      have time : s₁.packetTime = p.time := congrArg Members.packetTime processed.looked.members
      have timeout : t.timeout = s₁.timeout :=
        processed.timeout.trans (congrArg Members.timeout processed.looked.members).symm
      refine imp_congr_right fun _ => ?_
      rw [table, expired_eq flows timeout, processed.packetTime, time,
        OrderedIndex.dropWhile_none_iff]
      exact looked_ahead_iff processed.looked p.time

/-- The packets of a run, with what lies outside of the transport. -/
def packets (ps : List (Packet × Outside)) : List Event := ps.map fun p => .packet p.1 p.2

def Chronological (ps : List (Packet × Outside)) : Prop :=
  (ps.map fun p => p.1.time).Pairwise (· ≤ ·)

instance (ps : List (Packet × Outside)) : Decidable (Chronological ps) :=
  inferInstanceAs (Decidable (List.Pairwise _ _))

/-- A packet between two hosts that differs from others in its time and its source port. -/
def probe (time : Int) (sourcePort : BitVec 16) : Packet × Outside :=
  ({ time := time
     address := { ip4Src := 0x0a000001, ip4Dst := 0x0a000002 }
     sourcePort := sourcePort
     destinationPort := 80
     tcp := { syn := true } }, {})

end AIEngine.Transport
