import AIEngine.Applications.Reads
import AIEngine.Resources.Spec

/-!
# Flows whose packets are processed

A packet is looked at when its flow has or gets an info that is not banned. An empty pool and a
missing object are no reads outside.
-/

namespace AIEngine

section

variable {α β : Type}

theorem readsInside_bind {x : Except Failure α} {f : α → Except Failure β} (first : ReadsInside x)
    (next : ∀ y, x = .ok y → ReadsInside (f y)) : ReadsInside (x >>= f) := by
  cases x with
  | error e =>
    intro outside
    exact first (congrArg Except.error (Except.error.inj outside))
  | ok y => exact next y rfl

/-- Where nothing is missing later, the first part decides. -/
theorem readsInside_first {x : Except Failure α} {f : α → Except Failure β}
    (next : ∀ y, x = .ok y → ReadsInside (f y)) : ReadsInside (x >>= f) ↔ ReadsInside x := by
  refine ⟨fun whole outside => whole ?_, fun first => readsInside_bind first next⟩
  rw [outside]
  rfl

theorem readsInside_substr (text : Bytes) (place : Nat) (n : Int) :
    ReadsInside (substr text place n) := by
  unfold substr
  split <;> simp [ReadsInside]

theorem substr_quiet (text : Bytes) {place : Nat} (within : place ≤ text.length) (n : Int) :
    ∃ cut, substr text place n = .ok cut := by
  unfold substr
  rw [Octets.substr_of_le within]
  exact ⟨_, rfl⟩

end

theorem Cache.acquire_error {c : Cache} {f : Fault} (failed : c.acquire = .error f) :
    f = .nullDereference := by
  unfold Cache.acquire at failed
  split at failed
  · split at failed <;> cases failed
    rfl
  · cases failed

theorem World.intern_error {w : World} {p : L7Protocol} {x : StringField} {always countHit : Bool}
    {i : Obj} {value : Bytes} {f : Fault} (failed : w.intern p x always countHit i value = .error f) :
    f = .nullDereference := by
  unfold World.intern at failed
  split at failed
  · cases failed
  · split at failed
    · unfold World.internNew at failed
      split at failed
      · cases failed
      · cases failed
      · rename_i e acquired
        obtain rfl := Except.error.inj failed
        exact Cache.acquire_error acquired
    · cases failed

theorem World.attachInfo_error {w : World} {p : L7Protocol} {a : Obj} {f : Fault}
    (failed : w.attachInfo p a = .error f) : f = .nullDereference :=
  Cache.acquire_error (World.attachInfo_fails failed).2

namespace Inspector

variable {ι κ : Type} {s : Inspector ι κ} {p : L7Protocol} {new : ι} {a : Obj}

theorem attachInfo_error {e : Failure} (failed : s.attachInfo p new a = .error e) :
    e = .fault .nullDereference := by
  unfold attachInfo at failed
  split at failed
  · rename_i f attached
    obtain rfl := Except.error.inj failed
    rw [World.attachInfo_error attached]
  · cases failed
  · split at failed <;> cases failed

theorem onWorld_error {q : L7Protocol} {x : StringField} {always countHit : Bool} {i : Obj}
    {value : Bytes} {w : World} {e : Failure}
    (failed : s.onWorld (w.intern q x always countHit i value) = .error e) :
    e = .fault .nullDereference := by
  cases attached : w.intern q x always countHit i value with
  | ok w' =>
    rw [attached] at failed
    cases failed
  | error f =>
    rw [attached] at failed
    obtain rfl := Except.error.inj failed
    rw [World.intern_error attached]

theorem readsInside_onWorld {q : L7Protocol} {x : StringField} {always countHit : Bool} {i : Obj}
    {value : Bytes} {w : World} :
    ReadsInside (s.onWorld (w.intern q x always countHit i value)) := by
  intro outside
  exact absurd (onWorld_error outside) (by simp)

/-- The flow has or gets an info that is not banned. -/
def Unbanned (p : L7Protocol) (new : ι) (s : Inspector ι κ) (a : Obj) : Prop :=
  ∃ i t, s.attachInfo p new a = .ok (some i, t) ∧ (t.world.infos i).isBanned = false

/-- Without such an info nothing is looked at; with it the packet is processed. -/
theorem withInfo_unbanned {process : Inspector ι κ → Obj → Except Failure (Inspector ι κ)}
    {Good : Except Failure (Inspector ι κ) → Prop} {c : Prop} (good : ∀ t, Good (.ok t))
    (null : Good (.error (.fault .nullDereference))) (works : ∀ t i, Good (process t i) ↔ c) :
    Good (s.withInfo p new a (unlessBanned process)) ↔ (Unbanned p new s a → c) := by
  unfold withInfo
  cases attached : s.attachInfo p new a with
  | error e =>
    rw [attachInfo_error attached]
    refine iff_of_true null ?_
    rintro ⟨i, t, found, -⟩
    rw [attached] at found
    cases found
  | ok r =>
    obtain ⟨info, t⟩ := r
    cases info with
    | none =>
      refine iff_of_true (good t) ?_
      rintro ⟨i, t, found, -⟩
      rw [attached] at found
      cases found
    | some i =>
      show Good (unlessBanned process t i) ↔ _
      unfold unlessBanned
      cases banned : (t.world.infos i).isBanned with
      | true =>
        refine iff_of_true (good t) ?_
        rintro ⟨j, u, found, free⟩
        rw [attached] at found
        cases found
        rw [banned] at free
        cases free
      | false =>
        rw [if_neg Bool.false_ne_true, works t i]
        exact ⟨fun holds _ => holds, fun holds => holds ⟨i, t, attached, banned⟩⟩

end Inspector

end AIEngine
