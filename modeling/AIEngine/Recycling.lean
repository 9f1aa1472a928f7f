import AIEngine.FlowCache
import AIEngine.Frequency

/-!
# Recycled flows

A run of flows that come from the cache, are processed and go back. Every protocol may write any
field of a flow it processes; the weak pointer to the packet frequencies is written by the frequency
protocol alone.
-/

namespace AIEngine.Recycling

structure Engine where
  cache : FlowCache
  /-- acquired and not yet released -/
  live : List Obj
  frequency : FrequencyProtocol

inductive Event where
  | acquire
  | process (a : Obj) (after : Flow)
  | frequency (a : Obj) (payload : Payload)
  | release (a : Obj)

/-- The flow after a protocol other than the frequency protocol wrote it. -/
def written (before after : Flow) : Flow :=
  { after with packetFrequencies := before.packetFrequencies }

def step (e : Engine) : Event → Option Engine
  | .acquire =>
    match e.cache.acquireFlow with
    | .ok (some a, cache) => some { e with cache := cache, live := a :: e.live }
    | .ok (none, cache) => some { e with cache := cache }
    | .error _ => none
  | .process a after =>
    if a ∈ e.live then
      some { e with cache := e.cache.setFlow a (written (e.cache.flows a) after) }
    else none
  | .frequency a payload =>
    if a ∈ e.live then
      match e.frequency.processFlow (e.cache.flows a) payload with
      | .ok (frequency, flow) =>
        some { e with cache := e.cache.setFlow a flow, frequency := frequency }
      | .error _ => none
    else none
  | .release a =>
    if a ∈ e.live then
      some { e with cache := e.cache.releaseFlow a, live := e.live.erase a }
    else none

/-- A cache of new flows, with any number of objects in the caches of the frequency protocol. -/
def start (layer flows frequencies : Nat) : Engine where
  cache := FlowCache.createFlows layer flows
  live := []
  frequency :=
    { freqsCache := Cache.create { id := .frequencies layer } frequencies
      packetFreqsCache := Cache.create { id := .packetFrequencies layer } frequencies }

/-- What a step can do: the cache changes by an acquire or a release, or a live flow is written. -/
theorem step_cases {e e' : Engine} {x : Event} (h : step e x = some e') :
    (∃ a cache, x = .acquire ∧ e.cache.acquireFlow = .ok (some a, cache) ∧
      e' = { e with cache := cache, live := a :: e.live }) ∨
    (∃ cache, x = .acquire ∧ e.cache.acquireFlow = .ok (none, cache) ∧
      e' = { e with cache := cache }) ∨
    (∃ a flow frequency, (∀ b, x ≠ .release b) ∧ a ∈ e.live ∧
      e' = { e with cache := e.cache.setFlow a flow, frequency := frequency }) ∨
    (∃ a, x = .release a ∧ a ∈ e.live ∧
      e' = { e with cache := e.cache.releaseFlow a, live := e.live.erase a }) := by
  cases x with
  | acquire =>
    simp only [step] at h
    split at h
    · exact Or.inl ⟨_, _, rfl, ‹_›, (Option.some.inj h).symm⟩
    · exact Or.inr (Or.inl ⟨_, rfl, ‹_›, (Option.some.inj h).symm⟩)
    · exact absurd h (by simp)
  | process a after =>
    simp only [step] at h
    split at h
    · exact Or.inr (Or.inr (Or.inl ⟨a, _, e.frequency, by simp, ‹_›, (Option.some.inj h).symm⟩))
    · exact absurd h (by simp)
  | frequency a payload =>
    simp only [step] at h
    split at h
    · rename_i member
      split at h
      · exact Or.inr (Or.inr (Or.inl ⟨a, _, _, by simp, member, (Option.some.inj h).symm⟩))
      · exact absurd h (by simp)
    · exact absurd h (by simp)
  | release a =>
    simp only [step] at h
    split at h
    · exact Or.inr (Or.inr (Or.inr ⟨a, rfl, ‹_›, (Option.some.inj h).symm⟩))
    · exact absurd h (by simp)

/-- Flows are never in two hands, nor free and in use. -/
def Kept (e : Engine) : Prop := e.cache.Kept e.live

theorem kept_step {e e' : Engine} {x : Event} (kept : Kept e) (h : step e x = some e') :
    Kept e' := by
  rcases step_cases h with ⟨a, cache, -, acquired, rfl⟩ | ⟨cache, -, failed, rfl⟩ |
    ⟨a, flow, frequency, -, member, rfl⟩ | ⟨a, -, member, rfl⟩
  · exact (FlowCache.kept_acquire kept acquired).1
  · exact FlowCache.kept_fail kept failed
  · exact FlowCache.kept_setFlow kept a flow
  · exact FlowCache.kept_release kept member

/-- Whichever flow an acquire would hand out next equals a freshly constructed one. -/
def HandsOutNew (e : Engine) : Prop :=
  ∀ a cache, e.cache.acquireFlow = .ok (some a, cache) → cache.flows a = Flow.new

/-- A flow that goes back to the cache has no packet frequencies attached. -/
def ReleasesDetached (e : Engine) (x : Event) (_ : Engine) : Prop :=
  ∀ a, x = .release a → (e.cache.flows a).packetFrequencies = none

/-- No flow in the free part refers to packet frequencies. -/
def Detached (e : Engine) : Prop :=
  ∀ a, some a ∈ e.cache.fc.free → (e.cache.flows a).packetFrequencies = none

theorem detached_handsOutNew {e : Engine} (detached : Detached e) : HandsOutNew e := by
  intro a cache h
  obtain ⟨fc, acquired, rfl⟩ := FlowCache.acquireFlow_some h
  have free : some a ∈ e.cache.fc.free := by
    rw [Cache.acquire_free acquired]
    exact List.mem_append_right _ List.mem_cons_self
  rw [FlowCache.setFlow_same]
  exact (Flow.reset_eq_new_iff _).mpr (detached a free)

theorem detached_acquire {e : Engine} {a : Obj} {cache : FlowCache} (kept : Kept e)
    (detached : Detached e) (h : e.cache.acquireFlow = .ok (some a, cache)) :
    Detached { e with cache := cache, live := a :: e.live } := by
  have disjoint := (FlowCache.kept_acquire kept h).1.sole.2.disjoint a List.mem_cons_self
  obtain ⟨fc, acquired, rfl⟩ := FlowCache.acquireFlow_some h
  intro b free
  have different : b ≠ a := fun same => disjoint (same ▸ free)
  have before : some b ∈ e.cache.fc.free := by
    rw [Cache.acquire_free acquired]
    exact List.mem_append_left _ free
  have unchanged := FlowCache.setFlow_other (c := { e.cache with fc := fc })
    (f := (e.cache.flows a).reset) different
  rw [unchanged]
  exact detached b before

/-- Only a release can bring a reference into the free part. -/
theorem detached_step_iff {e e' : Engine} {x : Event} (kept : Kept e) (detached : Detached e)
    (h : step e x = some e') : Detached e' ↔ ReleasesDetached e x e' := by
  rcases step_cases h with ⟨a, cache, rfl, acquired, rfl⟩ | ⟨cache, rfl, failed, rfl⟩ |
    ⟨a, flow, frequency, other, member, rfl⟩ | ⟨a, rfl, member, rfl⟩
  · refine iff_of_true (detached_acquire kept detached acquired) ?_
    intro b release
    cases release
  · obtain ⟨fc, empty, rfl⟩ := FlowCache.acquireFlow_none failed
    obtain ⟨-, rfl⟩ := Cache.acquire_none empty
    refine iff_of_true (fun b free => detached b free) ?_
    intro b release
    cases release
  · refine iff_of_true ?_ (fun b release => absurd release (other b))
    intro b free
    have different : b ≠ a := fun same => kept.sole.2.disjoint a member (same ▸ free)
    have unchanged := FlowCache.setFlow_other (c := e.cache) (f := flow) different
    rw [unchanged]
    exact detached b free
  · have room := FlowCache.kept_room kept member
    have free := Cache.release_free (some a) room
    constructor
    · intro after b release
      cases release
      have back : some a ∈ (e.cache.fc.release (some a)).free := by
        rw [free]
        exact List.mem_append_right _ List.mem_cons_self
      exact after a back
    · intro clean b back
      have back' : some b ∈ (e.cache.fc.release (some a)).free := back
      rw [free] at back'
      rcases List.mem_append.mp back' with old | new
      · exact detached b old
      · obtain rfl := Option.some.inj (List.mem_singleton.mp new)
        exact clean b rfl

/-- The flow released last is the one acquired next. -/
theorem acquire_after_release {c : FlowCache} {a : Obj} (room : c.fc.total < c.fc.items.length) :
    ∃ c', (c.releaseFlow a).acquireFlow = .ok (some a, c') ∧ c'.flows a = (c.flows a).reset := by
  have acquired : ∃ fc, (c.fc.release (some a)).acquire = .ok (some a, fc) := by
    rw [Cache.release_room _ room]
    simp [Cache.acquire, room]
  obtain ⟨fc, acquired⟩ := acquired
  refine ⟨{ c with fc := fc }.setFlow a (c.flows a).reset, ?_, FlowCache.setFlow_same _ _ _⟩
  unfold FlowCache.acquireFlow
  simp only [FlowCache.releaseFlow, acquired]

theorem detached_of_handsOutNew {e e' : Engine} {x : Event} (kept : Kept e)
    (new : HandsOutNew e') (h : step e x = some e') : ReleasesDetached e x e' := by
  intro a release
  subst release
  rcases step_cases h with ⟨_, _, acquire, _⟩ | ⟨_, acquire, _⟩ | ⟨_, _, _, other, _⟩ |
    ⟨b, same, member, rfl⟩
  · cases acquire
  · cases acquire
  · exact absurd rfl (other a)
  · cases same
    obtain ⟨c', acquired, flow⟩ := acquire_after_release (a := a) (FlowCache.kept_room kept member)
    have handed := new a c' acquired
    rw [flow] at handed
    exact (Flow.reset_eq_new_iff _).mp handed

/-- The cache hands out flows equal to new ones all along a run exactly when no flow of the run is
released with packet frequencies attached. -/
theorem always_handsOutNew_iff (layer flows frequencies : Nat) (es : List Event) :
    Transition.Always step HandsOutNew (start layer flows frequencies) es ↔
      Transition.Along step ReleasesDetached (start layer flows frequencies) es := by
  have kept : Kept (start layer flows frequencies) := FlowCache.kept_createFlows layer flows
  have keeps : Transition.Always step Kept (start layer flows frequencies) es :=
    Transition.always_of_inv (fun _ _ _ kept h => kept_step kept h) kept
  have clean : Detached (start layer flows frequencies) := fun _ _ => rfl
  constructor
  · intro new
    refine Transition.along_of_always ?_ (Transition.always_and keeps new)
    intro e x e' before after h
    exact detached_of_handsOutNew before.1 after.2 h
  · intro released
    have detached := (Transition.always_iff_along (P := Detached)
      (fun _ _ _ kept h => kept_step kept h)
      (fun _ _ _ kept detached h => detached_step_iff kept detached h) kept clean).mpr released
    exact Transition.always_mono (fun _ => detached_handsOutNew) detached

/-- A flow the frequency engine has inspected goes back to the cache and is acquired again. -/
theorem not_always_handsOutNew :
    ¬∀ es, Transition.Always step HandsOutNew (start 0 1 1) es := by
  intro h
  have new := Transition.always_final
    (h [.acquire, .frequency ⟨.flow 0, 0⟩ [], .release ⟨.flow 0, 0⟩]) rfl
  have handed := new ⟨.flow 0, 0⟩ _ rfl
  have field := congrArg Flow.packetFrequencies handed
  revert field
  decide

end AIEngine.Recycling
