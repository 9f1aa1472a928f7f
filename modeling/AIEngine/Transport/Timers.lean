import AIEngine.Library.Transition
import AIEngine.Transport.Sound
import Mathlib.Algebra.Group.Int.Defs

/-!
# The flow manager under its own calls

When a flow's time changes only through `updateFlowTime`, the duration index stays in order, and the
early stop of the sweep loses nothing. The transports do not keep to this; see `Expiry`.
-/

namespace AIEngine

/-- The counters are `int32_t`. -/
structure FlowManager where
  transport : Transport
  totalProcessFlows : BitVec 32 := 0
  totalTimeoutFlows : BitVec 32 := 0

namespace FlowManager

def addFlow (m : FlowManager) (a : Obj) (hint : Nat) : FlowManager :=
  { m with
    totalProcessFlows := m.totalProcessFlows + 1
    transport := m.transport.addFlow a hint }

def removeFlow (m : FlowManager) (a : Obj) : Except Fault FlowManager :=
  match m.transport.removeFlow a with
  | .ok s => .ok { m with transport := s }
  | .error e => .error e

def updateFlowTime (m : FlowManager) (a : Obj) (time : Int) (hint : Nat) :
    Except Fault FlowManager :=
  match m.transport.updateFlowTime a time hint with
  | .ok s => .ok { m with transport := s }
  | .error e => .error e

def sweep (m : FlowManager) (time : Int) : List Obj → FlowManager
  | [] => m
  | a :: rest =>
    if m.transport.Expired time a then
      { m with
        totalTimeoutFlows := m.totalTimeoutFlows + 1
        transport := m.transport.expire a }.sweep time rest
    else m

def updateTimers (m : FlowManager) (time : Int) : FlowManager := m.sweep time m.transport.table

theorem sweep_transport (time : Int) (xs : List Obj) (m : FlowManager) :
    (m.sweep time xs).transport = m.transport.sweep time xs := by
  induction xs generalizing m with
  | nil => rfl
  | cons a rest ih =>
    unfold sweep Transport.sweep
    split
    · exact ih _
    · rfl

theorem sweep_totalTimeoutFlows (time : Int) (xs : List Obj) (m : FlowManager) :
    (m.sweep time xs).totalTimeoutFlows = m.totalTimeoutFlows +
      BitVec.ofNat 32 (xs.takeWhile fun a => decide (m.transport.Expired time a)).length := by
  induction xs generalizing m with
  | nil => simp [sweep]
  | cons a rest ih =>
    unfold sweep
    by_cases old : m.transport.Expired time a
    · have same := (Transport.expire_left m.transport a).2.expired time
      rw [if_pos old, ih, List.takeWhile_cons_of_pos (by simpa using old), List.length_cons]
      simp only [same]
      rw [BitVec.add_assoc, BitVec.ofNat_add, BitVec.add_comm 1]
      rfl
    · rw [if_neg old, List.takeWhile_cons_of_neg (by simpa using old)]
      simp

end FlowManager

/-! ### Calls -/

namespace Transport

/-- The test of the sweep adds two ints; the sum has no value outside of their range. -/
def DeadlinesFit (s : Transport) : Prop :=
  ∀ a ∈ s.table, -2 ^ 31 ≤ s.lastTime a + s.timeout ∧ s.lastTime a + s.timeout < 2 ^ 31

instance (s : Transport) : Decidable s.DeadlinesFit :=
  inferInstanceAs (Decidable (∀ a ∈ s.table, _))

/-- Flows outside of the table may change in any way, and those in it keep their id and time. -/
def Spares (s : Transport) (w : World) : Prop :=
  w.table = s.table ∧ ∀ a ∈ s.table, (w.flows a).hash = (s.flow a).hash ∧
    (w.flows a).currentTime = (s.flow a).currentTime

instance (s : Transport) (w : World) : Decidable (s.Spares w) :=
  inferInstanceAs (Decidable (_ ∧ _))

end Transport

namespace FlowManager

inductive Call where
  | addFlow (a : Obj) (hint : Nat)
  | removeFlow (a : Obj)
  | updateFlowTime (a : Obj) (time : Int) (hint : Nat)
  | updateTimers (time : Int)
  | elsewhere (w : World)

/-- A call for a flow whose id is not in the table has no meaning, nor has a deadline that is no
int. A second flow with an id of the table is not taken in. -/
def step (m : FlowManager) : Call → Option FlowManager
  | .addFlow a hint => some (m.addFlow a hint)
  | .removeFlow a => (m.removeFlow a).toOption
  | .updateFlowTime a time hint => (m.updateFlowTime a time hint).toOption
  | .updateTimers time => if m.transport.DeadlinesFit then some (m.updateTimers time) else none
  | .elsewhere w =>
    if m.transport.Spares w then some { m with transport := { m.transport with world := w } }
    else none

def start (layer : Nat) (objects : CacheId → Nat) (registered : Option Nat) (timeout : Int) :
    FlowManager where
  transport := Transport.start layer objects registered timeout

end FlowManager

namespace Transport

/-! ### The order of the index -/

structure InOrder (s : Transport) : Prop where
  ids : (s.table.map s.getId).Nodup
  sorted : OrderedIndex.Sorted s.lastTime s.table

theorem InOrder.nodup {s : Transport} (ordered : InOrder s) : s.table.Nodup :=
  List.Nodup.of_map s.getId ordered.ids

/-- Ids and times of the flows in the table are all that counts. -/
theorem InOrder.congr {s t : Transport} (ordered : InOrder s) (table : t.table.Sublist s.table)
    (ids : ∀ a ∈ s.table, t.getId a = s.getId a)
    (times : ∀ a ∈ s.table, t.lastTime a = s.lastTime a) : InOrder t := by
  refine ⟨?_, ?_⟩
  · rw [List.map_congr_left fun a member => ids a (table.subset member)]
    exact (table.map s.getId).nodup ordered.ids
  · refine List.Pairwise.imp_of_mem ?_ (ordered.sorted.sublist table)
    intro a b left right le
    rw [times a (table.subset left), times b (table.subset right)]
    exact le

theorem inOrder_addFlow {s : Transport} (ordered : InOrder s) (a : Obj) (hint : Nat) :
    InOrder (s.addFlow a hint) := by
  unfold addFlow
  split
  · exact ordered
  · rename_i free
    have perm : (OrderedIndex.insert s.lastTime s.table hint a).Perm (a :: s.table) :=
      OrderedIndex.insert_perm s.table hint a
    refine ⟨?_, OrderedIndex.sorted_insert hint a ordered.sorted⟩
    refine ((perm.map s.getId).nodup_iff).mpr ?_
    rw [List.map_cons]
    refine List.nodup_cons.mpr ⟨fun member => ?_, ordered.ids⟩
    obtain ⟨b, known, same⟩ := List.mem_map.mp member
    exact findId_none free b known same

theorem inOrder_removeFlow {s t : Transport} {a : Obj} (ordered : InOrder s)
    (h : s.removeFlow a = .ok t) : InOrder t := by
  unfold removeFlow at h
  split at h
  · obtain rfl := Except.ok.inj h
    exact ordered.congr List.erase_sublist (fun _ _ => rfl) (fun _ _ => rfl)
  · exact absurd h (by simp)

theorem setLastPacketTime_lastTime {s : Transport} {a b : Obj} (time : Int) (other : b ≠ a) :
    (s.setLastPacketTime a time).lastTime b = s.lastTime b := by
  unfold lastTime setLastPacketTime
  rw [flow_setFlow_other other]

theorem inOrder_updateFlowTime {s t : Transport} {a : Obj} {time : Int} {hint : Nat}
    (ordered : InOrder s) (h : s.updateFlowTime a time hint = .ok t) : InOrder t := by
  unfold updateFlowTime at h
  split at h
  · rename_i b known
    obtain rfl := Except.ok.inj h
    have member : b ∈ s.table := (findId_some known).1
    have perm : (OrderedIndex.modify (s.setLastPacketTime b time).lastTime s.table hint b).Perm
        s.table := OrderedIndex.modify_perm hint member
    refine ⟨?_, ?_⟩
    · have ids : (s.setLastPacketTime b time).getId = s.getId :=
        funext fun c => setLastPacketTime_getId s b c time
      refine ((perm.map _).nodup_iff).mpr ?_
      show (s.table.map (s.setLastPacketTime b time).getId).Nodup
      rw [ids]
      exact ordered.ids
    · refine OrderedIndex.sorted_modify hint member ?_
      refine List.Pairwise.imp_of_mem ?_ (ordered.sorted.sublist List.erase_sublist)
      intro x y left right le
      have leftSame : (s.setLastPacketTime b time).lastTime x = s.lastTime x :=
        setLastPacketTime_lastTime time (ordered.nodup.mem_erase_iff.mp left).1
      have rightSame : (s.setLastPacketTime b time).lastTime y = s.lastTime y :=
        setLastPacketTime_lastTime time (ordered.nodup.mem_erase_iff.mp right).1
      show (s.setLastPacketTime b time).lastTime x ≤ (s.setLastPacketTime b time).lastTime y
      rw [leftSame, rightSame]
      exact le
  · exact absurd h (by simp)

theorem inOrder_updateTimers {s : Transport} (ordered : InOrder s) (time : Int) :
    InOrder (s.updateTimers time) := by
  obtain ⟨table, gave, -⟩ := sweep_left time s.table (s := s) rfl
  refine ordered.congr ?_ (fun a _ => getId_of_ident (gave.flows a))
    (fun a _ => lastTime_of_ident (gave.flows a))
  unfold updateTimers
  rw [table]
  exact List.dropWhile_sublist _

theorem inOrder_spares {s : Transport} {w : World} (ordered : InOrder s) (spares : s.Spares w) :
    InOrder { s with world := w } := by
  obtain ⟨table, flows⟩ := spares
  refine ordered.congr (table ▸ List.Sublist.refl w.table) (fun a member => (flows a member).1) ?_
  intro a member
  exact congrArg (Int.bmod · (2 ^ 32)) (flows a member).2

/-- `findFlow` prefers the first id. -/
structure Finds (s : Transport) : Prop where
  first : ∀ a ∈ s.table, ∀ hash2, s.findFlow (s.getId a) hash2 = some a
  second : ∀ a ∈ s.table, ∀ hash1, (∀ b ∈ s.table, s.getId b ≠ hash1) →
    s.findFlow hash1 (s.getId a) = some a
  neither : ∀ hash1 hash2, (∀ b ∈ s.table, s.getId b ≠ hash1) →
    (∀ b ∈ s.table, s.getId b ≠ hash2) → s.findFlow hash1 hash2 = none

theorem findId_of_absent {s : Transport} {id : BitVec 64} (absent : ∀ b ∈ s.table, s.getId b ≠ id) :
    s.findId id = none :=
  List.find?_eq_none.mpr fun b member => by simpa using absent b member

theorem InOrder.finds {s : Transport} (ordered : InOrder s) : Finds s where
  first := fun a member hash2 => by
    unfold findFlow
    rw [findId_of_ids ordered.ids member]
    rfl
  second := fun a member hash1 absent => by
    unfold findFlow
    rw [findId_of_absent absent, findId_of_ids ordered.ids member]
    rfl
  neither := fun hash1 hash2 left right => by
    unfold findFlow
    rw [findId_of_absent left, findId_of_absent right]
    rfl

/-- The old flows, in the order of the index. -/
def old (s : Transport) (time : Int) : List Obj :=
  s.table.filter fun a => decide (s.lastTime a + s.timeout ≤ time)

end Transport

namespace FlowManager

/-- `m'` is `m` without its old flows, each of which went to `CacheManager::releaseFlow` and back to
the flow cache once. -/
structure Swept (m : FlowManager) (time : Int) (m' : FlowManager) : Prop where
  table : ∀ a, a ∈ m'.transport.table ↔
    a ∈ m.transport.table ∧ ¬m.transport.lastTime a + m.transport.timeout ≤ time
  nodup : m'.transport.table.Nodup
  released : m'.transport.released = (m.transport.old time).reverse ++ m.transport.released
  returned : m'.transport.flowCache.fc =
    (m.transport.old time).foldl (fun c a => c.release (some a)) m.transport.flowCache.fc
  counted : m'.totalTimeoutFlows =
    m.totalTimeoutFlows + BitVec.ofNat 32 (m.transport.old time).length

theorem updateTimers_swept {m : FlowManager} (ordered : m.transport.InOrder) (time : Int) :
    Swept m time (m.updateTimers time) := by
  have ahead : OrderedIndex.Ahead (m.transport.Expired time) m.transport.table := by
    refine ordered.sorted.imp fun le old => ?_
    unfold Transport.Expired at old ⊢
    omega
  have old : (m.transport.table.takeWhile fun a => decide (m.transport.Expired time a)) =
      m.transport.old time := OrderedIndex.takeWhile_eq_filter ahead
  obtain ⟨table, gave, fc⟩ := Transport.sweep_left time m.transport.table (s := m.transport) rfl
  have after : (m.updateTimers time).transport = m.transport.sweep time m.transport.table :=
    sweep_transport time m.transport.table m
  rw [old] at gave fc
  refine ⟨fun a => ?_, ?_, ?_, ?_, ?_⟩
  · rw [after, table]
    exact OrderedIndex.mem_dropWhile_iff ahead a
  · rw [after, table]
    exact (List.dropWhile_sublist _).nodup ordered.nodup
  · rw [after]
    exact gave.released
  · rw [after]
    exact fc
  · rw [← old]
    exact sweep_totalTimeoutFlows time m.transport.table m

theorem inOrder_step {m m' : FlowManager} {c : Call} (ordered : m.transport.InOrder)
    (h : m.step c = some m') : m'.transport.InOrder := by
  cases c with
  | addFlow a hint =>
    obtain rfl := Option.some.inj h
    exact Transport.inOrder_addFlow ordered a hint
  | removeFlow a =>
    have removed := toOption_some h
    unfold removeFlow at removed
    split at removed
    · rename_i s ran
      obtain rfl := Except.ok.inj removed
      exact Transport.inOrder_removeFlow ordered ran
    · exact absurd removed (by simp)
  | updateFlowTime a time hint =>
    have updated := toOption_some h
    unfold updateFlowTime at updated
    split at updated
    · rename_i s ran
      obtain rfl := Except.ok.inj updated
      exact Transport.inOrder_updateFlowTime ordered ran
    · exact absurd updated (by simp)
  | updateTimers time =>
    obtain ⟨-, ran⟩ := Option.ite_none_right_eq_some.mp h
    obtain rfl := Option.some.inj ran
    have after : (m.updateTimers time).transport = m.transport.updateTimers time :=
      sweep_transport time m.transport.table m
    rw [after]
    exact Transport.inOrder_updateTimers ordered time
  | elsewhere w =>
    obtain ⟨spares, ran⟩ := Option.ite_none_right_eq_some.mp h
    obtain rfl := Option.some.inj ran
    exact Transport.inOrder_spares ordered spares

/-- Every sweep of the step takes exactly the old flows. -/
def SweepsExactly (m : FlowManager) (c : Call) (m' : FlowManager) : Prop :=
  ∀ time, c = .updateTimers time → Swept m time m'

theorem inOrder_start (layer : Nat) (objects : CacheId → Nat) (registered : Option Nat)
    (timeout : Int) : (start layer objects registered timeout).transport.InOrder :=
  ⟨List.nodup_nil, List.Pairwise.nil⟩

theorem always_exact (layer : Nat) (objects : CacheId → Nat) (registered : Option Nat)
    (timeout : Int) (calls : List Call) :
    Transition.Along step SweepsExactly (start layer objects registered timeout) calls ∧
      Transition.Always step (fun m => m.transport.Finds) (start layer objects registered timeout)
        calls := by
  have ordered : Transition.Always step (fun m => m.transport.InOrder)
      (start layer objects registered timeout) calls :=
    Transition.always_of_inv (fun _ _ _ before h => inOrder_step before h)
      (inOrder_start layer objects registered timeout)
  refine ⟨Transition.along_of_always ?_ ordered, Transition.always_mono ?_ ordered⟩
  · intro m c m' before _ h time same
    rw [same] at h
    obtain ⟨-, ran⟩ := Option.ite_none_right_eq_some.mp h
    obtain rfl := Option.some.inj ran
    exact updateTimers_swept before time
  · intro m before
    exact before.finds

end FlowManager

end AIEngine
