import AIEngine.Flow
import AIEngine.Pool.Kept

/-!
# The cache of flows (`FlowCache.h`)

`acquire` resets the object it hands out, so the contents of a pooled flow change when it is
acquired, not when it is released.
-/

namespace AIEngine

structure FlowCache where
  fc : Cache
  /-- the contents of the flow objects -/
  flows : Obj → Flow

namespace FlowCache

/-- A cache with `number` flows, all of them just constructed. -/
def createFlows (layer number : Nat) : FlowCache where
  fc := Cache.create { id := .flow layer } number
  flows := fun _ => Flow.new

def setFlow (c : FlowCache) (a : Obj) (f : Flow) : FlowCache :=
  { c with flows := fun b => if b = a then f else c.flows b }

def acquireFlow (c : FlowCache) : Except Fault (Option Obj × FlowCache) :=
  match c.fc.acquire with
  | .ok (some a, fc) => .ok (some a, { c with fc := fc }.setFlow a (c.flows a).reset)
  | .ok (none, fc) => .ok (none, { c with fc := fc })
  | .error e => .error e

def releaseFlow (c : FlowCache) (a : Obj) : FlowCache := { c with fc := c.fc.release (some a) }

/-- The pool as its clients see it, with the flows they hold. -/
def client (c : FlowCache) (held : List Obj) : Pool.Client := { cache := c.fc, outstanding := held }

@[simp] theorem setFlow_fc (c : FlowCache) (a : Obj) (f : Flow) : (c.setFlow a f).fc = c.fc := rfl

@[simp] theorem setFlow_same (c : FlowCache) (a : Obj) (f : Flow) :
    (c.setFlow a f).flows a = f := if_pos rfl

theorem setFlow_other {c : FlowCache} {a b : Obj} {f : Flow} (different : b ≠ a) :
    (c.setFlow a f).flows b = c.flows b := if_neg different

@[simp] theorem releaseFlow_flows (c : FlowCache) (a : Obj) :
    (c.releaseFlow a).flows = c.flows := rfl

theorem acquireFlow_some {c c' : FlowCache} {a : Obj} (h : c.acquireFlow = .ok (some a, c')) :
    ∃ fc, c.fc.acquire = .ok (some a, fc) ∧
      c' = { c with fc := fc }.setFlow a (c.flows a).reset := by
  unfold acquireFlow at h
  split at h
  · rename_i b fc acquired
    simp only [Except.ok.injEq, Prod.mk.injEq, Option.some.injEq] at h
    obtain ⟨rfl, rfl⟩ := h
    exact ⟨fc, acquired, rfl⟩
  · exact absurd h (by simp)
  · exact absurd h (by simp)

theorem acquireFlow_none {c c' : FlowCache} (h : c.acquireFlow = .ok (none, c')) :
    ∃ fc, c.fc.acquire = .ok (none, fc) ∧ c' = { c with fc := fc } := by
  unfold acquireFlow at h
  split at h
  · exact absurd h (by simp)
  · rename_i fc acquired
    simp only [Except.ok.injEq, Prod.mk.injEq, true_and] at h
    exact ⟨fc, acquired, h.symm⟩
  · exact absurd h (by simp)

/-! ### A cache from which flows are only acquired and released -/

/-- Every flow of the pool is free or in the hands of one client. -/
def Kept (c : FlowCache) (held : List Obj) : Prop := Pool.Kept (c.client held)

theorem kept_createFlows (layer number : Nat) : Kept (createFlows layer number) [] :=
  Pool.kept_create (.flow layer) number

theorem kept_setFlow {c : FlowCache} {held : List Obj} (kept : Kept c held) (a : Obj) (f : Flow) :
    Kept (c.setFlow a f) held := kept

/-- The flow handed out was free, so nobody held it. -/
theorem kept_acquire {c c' : FlowCache} {held : List Obj} {a : Obj} (kept : Kept c held)
    (h : c.acquireFlow = .ok (some a, c')) : Kept c' (a :: held) ∧ a ∉ held := by
  obtain ⟨fc, acquired, rfl⟩ := acquireFlow_some h
  exact Pool.kept_acquire kept acquired

theorem kept_fail {c c' : FlowCache} {held : List Obj} (kept : Kept c held)
    (h : c.acquireFlow = .ok (none, c')) : Kept c' held := by
  obtain ⟨fc, failed, rfl⟩ := acquireFlow_none h
  exact Pool.kept_fail kept failed

theorem kept_release {c : FlowCache} {held : List Obj} {a : Obj} (kept : Kept c held)
    (member : a ∈ held) : Kept (c.releaseFlow a) (held.erase a) := Pool.kept_release kept member

theorem kept_room {c : FlowCache} {held : List Obj} {a : Obj} (kept : Kept c held)
    (member : a ∈ held) : c.fc.total < c.fc.items.length := Pool.kept_room kept member

theorem kept_congr {c c' : FlowCache} {held : List Obj} (kept : Kept c held) (same : c'.fc = c.fc) :
    Kept c' held := by
  unfold Kept client at kept ⊢
  rw [same]
  exact kept

theorem kept_perm {c : FlowCache} {held held' : List Obj} (kept : Kept c held)
    (perm : held'.Perm held) : Kept c held' := Pool.kept_perm kept perm

end FlowCache

end AIEngine
