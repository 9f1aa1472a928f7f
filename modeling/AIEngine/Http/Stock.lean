import AIEngine.Http.Strings

/-!
# The string pools of HTTP have no empty slot

An info that `releaseCache` gives back leaves an empty slot in its pool. The strings are given back
as what they are, so that a string can always be acquired or the pool says that it has none.
-/

namespace AIEngine

namespace Cache

/-- Every slot has an object. -/
structure Stocked (c : Cache) : Prop where
  bound : c.total ≤ c.items.length
  full : none ∉ c.items

theorem stocked_create (id : CacheId) (n : Nat) : Stocked (Cache.create { id := id } n) := by
  rw [create_eq]
  constructor
  · simp
  · simp

theorem stocked_release {c : Cache} {a : Obj} (stocked : Stocked c) :
    Stocked (c.release (some a)) := by
  refine ⟨?_, fun empty => ?_⟩
  · by_cases room : c.total < c.items.length
    · rw [release_room _ room]
      show c.total + 1 ≤ (c.items.set c.total (some a)).length
      rw [List.length_set]
      omega
    · rw [release_full _ room]
      exact stocked.bound
  · rcases release_items empty with new | old
    · exact absurd new (by simp)
    · exact stocked.full old

theorem stocked_acquire {c : Cache} (stocked : Stocked c) :
    ∃ r c', c.acquire = .ok (r, c') ∧ Stocked c' := by
  have bound := stocked.bound
  unfold acquire
  by_cases pos : 0 < c.total
  · rw [if_pos pos]
    have inside : c.total - 1 < c.items.length := by omega
    cases slot : c.items[c.total - 1] with
    | none => exact absurd (slot ▸ List.getElem_mem inside) stocked.full
    | some a =>
      have found : c.items[c.total - 1]? = some (some a) := by
        rw [List.getElem?_eq_getElem inside, slot]
      rw [found]
      exact ⟨some a, _, rfl, Nat.le_trans (Nat.sub_le _ _) bound, stocked.full⟩
  · rw [if_neg pos]
    exact ⟨none, _, rfl, bound, stocked.full⟩

theorem stocked_of_acquire {c c' : Cache} {r : Option Obj} (stocked : Stocked c)
    (h : c.acquire = .ok (r, c')) : Stocked c' := by
  obtain ⟨r', d, acquired, after⟩ := stocked_acquire stocked
  obtain ⟨-, rfl⟩ := Prod.mk.inj (Except.ok.inj (acquired.symm.trans h))
  exact after

end Cache

namespace World

def Stocked (w : World) : Prop := ∀ x, (w.httpStrings x).Stocked

theorem stocked_same {w w' : World} (stocked : w.Stocked)
    (same : ∀ x, w'.httpStrings x = w.httpStrings x) : w'.Stocked := by
  intro x
  rw [same]
  exact stocked x

theorem stocked_start (objects : CacheId → Nat) (layer : Option Nat) :
    (start objects layer).Stocked := by
  intro x
  rw [httpStrings, start_cache]
  exact Cache.stocked_create _ _

theorem stocked_setCache {w : World} {x : StringField} {c : Cache} (stocked : w.Stocked)
    (cache : c.Stocked) : (w.setCache (.string .http x) c).Stocked := by
  intro y
  by_cases same : y = x
  · subst same
    rw [httpStrings, cache_setCache_same]
    exact cache
  · rw [httpStrings, cache_setCache_other (by simp [same])]
    exact stocked y

/-- A string is attached, or it is not; nothing is dereferenced that is not there. -/
theorem intern_stocked {w : World} (x : StringField) (always countHit : Bool) (i : Obj)
    (value : Bytes) (stocked : w.Stocked) :
    ∃ w', w.intern .http x always countHit i value = .ok w' ∧ w'.Stocked := by
  unfold intern
  split
  · exact ⟨w, rfl, stocked⟩
  · split
    · obtain ⟨r, c, acquired, after⟩ := Cache.stocked_acquire (stocked x)
      have rest := stocked_setCache (x := x) stocked after
      unfold internNew
      rw [show (w.cache (.string .http x)).acquire = _ from acquired]
      cases r with
      | none => exact ⟨_, rfl, rest⟩
      | some s => exact ⟨_, rfl, rest⟩
    · exact ⟨_, rfl, stocked⟩

theorem stocked_intern {w w' : World} {x : StringField} {always countHit : Bool} {i : Obj}
    {value : Bytes} (stocked : w.Stocked) (h : w.intern .http x always countHit i value = .ok w') :
    w'.Stocked := by
  obtain ⟨u, attached, after⟩ := intern_stocked x always countHit i value stocked
  obtain rfl := Except.ok.inj (attached.symm.trans h)
  exact after

theorem stocked_attachInfo {w w' : World} {a : Obj} {r : Option Obj} (stocked : w.Stocked)
    (h : w.attachInfo .http a = .ok (r, w')) : w'.Stocked := by
  refine stocked_same stocked fun x => ?_
  rcases attachInfo_cases h with ⟨i, -, -, rfl⟩ | ⟨i, c, -, -, -, rfl⟩ | ⟨c, -, -, rfl⟩
  · rfl
  · show (w.setCache (.info .http) c).cache (.string .http x) = _
    exact cache_setCache_other (by simp)
  · exact cache_setCache_other (by simp)

theorem stocked_returned {w w' : World} {i : Obj} (stocked : w.Stocked)
    (returned : ∀ x, Returned w w' i x) : w'.Stocked := by
  intro x
  rcases returned x with same | ⟨t, -, given⟩
  · rw [same]
    exact stocked x
  · rw [given]
    exact Cache.stocked_release (stocked x)

theorem stocked_releaseHttpInfoCache {w : World} (i : Obj) (stocked : w.Stocked) :
    (Http.releaseHttpInfoCache w i).Stocked := by
  have drops := AIEngine.Http.dropsHits_trans (AIEngine.Http.dropHit_drops w .ua i)
    (AIEngine.Http.dropHit_drops (w.dropHit .http .ua i) .uri i)
  have hits : ((w.dropHit .http .ua i).dropHit .http .uri i).Stocked :=
    stocked_same stocked fun x => congrFun drops.cache (.string .http x)
  exact stocked_returned hits (releaseHttpInfo_spec _ i).2.2

theorem stocked_detach {w : World} {a : Obj} (stocked : w.Stocked) :
    (w.detach .http a).Stocked := by
  cases locked : w.lockInfo .http (w.flows a) with
  | none =>
    rw [detach_none locked]
    exact stocked
  | some i =>
    rw [detach_eq locked]
    have released : (Http.releaseHttpInfo w i).Stocked :=
      stocked_returned stocked (releaseHttpInfo_spec w i).2.2
    refine stocked_same released fun x => ?_
    rw [httpStrings, releaseTo, cache_setCache_other (by simp)]
    rfl

theorem stocked_releaseCache {w : World} (ft : List Obj) (stocked : w.Stocked) :
    (w.releaseCache .http ft).Stocked := by
  have all : (w.detachAll .http ft).Stocked := by
    induction ft generalizing w with
    | nil => exact stocked
    | cons a rest ih => exact ih (stocked_detach stocked)
  exact stocked_same all fun _ => rfl

theorem stocked_step {w w' : World} {e : Http.Event} (stocked : w.Stocked)
    (h : AIEngine.Http.step w e = some w') : w'.Stocked := by
  cases e with
  | openFlow a layer =>
    simp only [Http.step] at h
    split at h
    · exact absurd h (by simp)
    · have same := (AIEngine.Http.openTcpFlow_spec (toOption_some h)).1
      exact stocked_same stocked fun x => same _ (by simp)
  | packet a found =>
    simp only [Http.step] at h
    split at h
    · obtain ⟨r, w₁, attached, rfl | ⟨i, -, -, ran⟩⟩ := processFlow_cases (toOption_some h)
      · exact stocked_attachInfo stocked attached
      · refine runActions_rule ?_ found (stocked_attachInfo stocked attached) ran
        exact fun u u' x always countHit value before interned => stocked_intern before interned
    · exact absurd h (by simp)
  | ban a =>
    simp only [Http.step] at h
    split at h
    · obtain ⟨r, w₁, attached, rfl | ⟨i, -, -, rfl⟩⟩ :=
        AIEngine.Http.ban_cases (toOption_some h)
      · exact stocked_attachInfo stocked attached
      · refine stocked_releaseHttpInfoCache i ?_
        exact stocked_same (stocked_attachInfo stocked attached) fun _ => rfl
    · exact absurd h (by simp)
  | expire a =>
    simp only [Http.step] at h
    split at h
    · obtain rfl := Option.some.inj h
      exact stocked_same stocked
        (AIEngine.Http.releaseFlow_returnsInfos w (w.flows a)).strings
    · exact absurd h (by simp)
  | releaseCache =>
    obtain rfl := Option.some.inj h
    exact stocked_releaseCache w.table stocked
  | memory sight =>
    obtain rfl := Option.some.inj h
    exact stocked_same stocked fun _ => rfl

theorem stocked_run {w w' : World} {es : List Http.Event} (stocked : w.Stocked)
    (h : Transition.run AIEngine.Http.step w es = some w') : w'.Stocked := by
  have always : Transition.Always AIEngine.Http.step Stocked w es :=
    Transition.always_of_inv (fun _ _ _ before stepped => stocked_step before stepped) stocked
  exact Transition.always_final always h

end World

end AIEngine
