import AIEngine.Gprs.OwnPacket
import AIEngine.Pool.Assigned
import AIEngine.Resources.Spec

/-!
# What is filed under a flow

A flow that is alive shares its info with no other one, because the pool hands out only what nobody
holds. So what may stand in an info is a matter of its flow, and a request writes to that flow alone.
-/

namespace AIEngine.GPRSProtocol

/-- The info that a flow refers to. -/
def pointer (s : GPRSProtocol) (a : Obj) : Option Obj := (s.flows a).gprsInfo

/-- `source a info` says what may stand in the info of the flow `a`, and `held` are the infos that
the pool has handed out. -/
structure Filed (source : Obj → GPRSInfo → Prop) (held : List Obj) (s : GPRSProtocol) : Prop where
  assigned : Pool.Assigned s.infoCache s.table s.pointer held
  filed : ∀ a ∈ s.table, ∀ i, s.pointer a = some i → source a (s.infos i)

variable {source : Obj → GPRSInfo → Prop} {held : List Obj} {s t : GPRSProtocol} {a i : Obj}

theorem filed_mono {source' : Obj → GPRSInfo → Prop} (sub : ∀ a info, source a info → source' a info)
    (h : Filed source held s) : Filed source' held s :=
  ⟨h.assigned, fun b live j at' => sub _ _ (h.filed b live j at')⟩

theorem filed_alike (alike : Alike s t) (h : Filed source held s) : Filed source held t := by
  obtain ⟨cache, infos, table, pointer⟩ := alike
  constructor
  · rw [cache, table]
    exact Pool.assigned_congr h.assigned fun b _ => pointer b
  · intro b live j at'
    rw [table] at live
    rw [infos]
    exact h.filed b live j ((pointer b).symm.trans at')

theorem pointer_setFlow_same (s : GPRSProtocol) (a : Obj) (f : Flow) :
    (s.setFlow a f).pointer a = f.gprsInfo := by
  unfold pointer
  rw [flows_setFlow_same]

theorem pointer_setFlow_other {b : Obj} {f : Flow} (different : b ≠ a) :
    (s.setFlow a f).pointer b = s.pointer b := by
  unfold pointer
  rw [flows_setFlow_other different]

/-- An info that comes fresh out of the pool. -/
theorem filed_acquire {c : Cache} (empty : ∀ a, source a {}) (h : Filed source held s)
    (taken : s.infoCache.acquire = .ok (some i, c)) :
    Filed source (i :: held)
      (({ s with infoCache := c }.setGPRSInfo i (s.infos i).reset).setFlow a
        { s.flows a with gprsInfo := some i }) := by
  have others : ∀ b, b ≠ a → (({ s with infoCache := c }.setGPRSInfo i (s.infos i).reset).setFlow a
      { s.flows a with gprsInfo := some i }).pointer b = s.pointer b :=
    fun b different => pointer_setFlow_other different
  have assigned := (Pool.assigned_acquire h.assigned taken (pointer_setFlow_same _ a _) others).1
  refine ⟨assigned, fun b live j at' => ?_⟩
  show source b (if j = i then (s.infos i).reset else s.infos j)
  by_cases new : j = i
  · rw [if_pos new]
    exact empty b
  · rw [if_neg new]
    by_cases same : b = a
    · rw [same, pointer_setFlow_same] at at'
      exact absurd (Option.some.inj at').symm new
    · rw [others b same] at at'
      exact h.filed b live j at'

theorem filed_attachInfo {r : Option Obj} (empty : ∀ a, source a {}) (h : Filed source held s)
    (attached : s.attachInfo a = .ok (r, t)) :
    (∃ held', Filed source held' t) ∧ t.table = s.table ∧
      ∀ i, r = some i → (t.flows a).gprsInfo = some i := by
  obtain ⟨-, table, ⟨b, rfl, locked, rfl⟩ | ⟨b, c, rfl, taken, rfl⟩ | ⟨c, rfl, failed, rfl⟩⟩ :=
    attachInfo_cases attached
  · refine ⟨⟨held, h⟩, table, fun i same => ?_⟩
    obtain rfl := Option.some.inj same
    exact (Cache.lock_some locked).1
  · refine ⟨⟨b :: held, filed_acquire empty h taken⟩, table, fun i same => ?_⟩
    rw [flows_setFlow_same]
    exact same
  · exact ⟨⟨held, Pool.assigned_fail h.assigned failed, h.filed⟩, table,
      fun i no => absurd no (by simp)⟩

theorem filed_store {c : GtpHeader.PdpContext} (h : Filed source held s) (live : a ∈ s.table)
    (at' : s.pointer a = some i) (stored : source a ((s.store i c).infos i)) :
    Filed source held (s.store i c) := by
  refine ⟨h.assigned, fun b alive j at'' => ?_⟩
  by_cases same : j = i
  · subst same
    obtain rfl := h.assigned.apart a live b alive j at' at''
    exact stored
  · show source b (if j = i then _ else s.infos j)
    rw [if_neg same]
    exact h.filed b alive j at''

theorem pointer_openFlow (s : GPRSProtocol) (a : Obj) : (s.openFlow a).pointer a = none :=
  pointer_setFlow_same s a (s.flows a).reset

theorem filed_openFlow (h : Filed source held s) (fresh : a ∉ s.table) :
    Filed source held (s.openFlow a) := by
  have others : ∀ b, b ≠ a → (s.openFlow a).pointer b = s.pointer b :=
    fun b different => pointer_setFlow_other different
  refine ⟨Pool.assigned_open h.assigned fresh (pointer_openFlow s a) others, fun b live j at' => ?_⟩
  have different : b ≠ a := by
    rintro rfl
    exact absurd ((pointer_openFlow s b).symm.trans at') (by simp)
  rw [others b different] at at'
  exact h.filed b ((List.mem_cons.mp live).resolve_left different) j at'

/-- The info that goes back to the pool is not the one of another flow. -/
theorem filed_endFlow (h : Filed source held s) (live : a ∈ s.table) :
    ∃ held', Filed source held' (s.endFlow a) := by
  have filed : ∀ b ∈ (s.endFlow a).table, ∀ j, s.pointer b = some j → source b (s.infos j) :=
    fun b alive => h.filed b (Pool.erase_live h.assigned alive).1
  cases locked : s.infoCache.lock (s.flows a).gprsInfo with
  | none =>
    have cache : (s.endFlow a).infoCache = s.infoCache := by simp only [endFlow, locked]
    refine ⟨held, ?_, filed⟩
    rw [cache]
    exact Pool.assigned_leave h.assigned
  | some i =>
    have cache : (s.endFlow a).infoCache = s.infoCache.release (some i) := by
      simp only [endFlow, locked]
    refine ⟨held.erase i, ?_, filed⟩
    rw [cache]
    exact Pool.assigned_release h.assigned live (Cache.lock_some locked).1

end AIEngine.GPRSProtocol
