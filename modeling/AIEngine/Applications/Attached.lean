import AIEngine.Resources.Spec

/-!
# Attached strings

Attaching a string brings none to life and lets none die: a new pointer goes to a string that a slot
or a map has owned before.
-/

namespace AIEngine.World

variable {w w' : World} {p : L7Protocol} {x : StringField} {i : Obj}

/-- What is alive depends on the slots and the objects of the maps. -/
theorem stringAlive_congr {s : Obj}
    (same : ∀ y, ((w'.cache (.string p y)).Owns s ∨ s ∈ (w'.maps p y).map MapEntry.object) ↔
      ((w.cache (.string p y)).Owns s ∨ s ∈ (w.maps p y).map MapEntry.object)) :
    w'.StringAlive p s ↔ w.StringAlive p s := by
  constructor
  · rintro ⟨y, listed, owned⟩
    exact ⟨y, listed, (same y).mp owned⟩
  · rintro ⟨y, listed, owned⟩
    exact ⟨y, listed, (same y).mpr owned⟩

theorem lockString_congr (alive : ∀ s, w'.StringAlive p s ↔ w.StringAlive p s)
    (pointer : Option Obj) : w'.lockString p pointer = w.lockString p pointer := by
  unfold lockString
  congr 1
  funext s
  exact decide_eq_decide.mpr (alive s)

theorem stringField_listed (x : StringField) : x ∈ stringFields := by
  cases x <;> decide

/-- What a map holds is alive, and so is what a pool gives. -/
theorem stringAlive_of_find {w : World} {p : L7Protocol} {x : StringField} {value : Bytes}
    {e : MapEntry} (found : find (w.maps p x) value = some e) : w.StringAlive p e.object :=
  ⟨x, stringField_listed x, Or.inr (List.mem_map_of_mem (find_some found).1)⟩

theorem stringAlive_of_acquire {w : World} {p : L7Protocol} {x : StringField} {s : Obj} {c : Cache}
    (acquired : (w.cache (.string p x)).acquire = .ok (some s, c)) : w.StringAlive p s :=
  ⟨x, stringField_listed x, Or.inl (List.mem_of_getElem? (Cache.acquire_some acquired).2.1)⟩

theorem strings_apart (w : World) (p : L7Protocol) (c : Cache) {x y : StringField} (other : y ≠ x) :
    (w.setCache (.string p x) c).cache (.string p y) = w.cache (.string p y) :=
  cache_setCache_other (by simp [other])

/-- The slots stay when a string is acquired. -/
theorem owns_acquired {c : Cache} {r : Option Obj} {s : Obj} (y : StringField)
    (acquired : (w.cache (.string p x)).acquire = .ok (r, c)) :
    ((w.setCache (.string p x) c).cache (.string p y)).Owns s ↔ (w.cache (.string p y)).Owns s := by
  by_cases same : y = x
  · subst same
    rw [cache_setCache_same]
    unfold Cache.Owns
    rw [Cache.acquire_items acquired]
  · rw [strings_apart w p c same]

/-- The objects of a map, with a new one that some slot owns. -/
theorem objects_insert {m : List MapEntry} {e : MapEntry} {owned : Prop} {s : Obj}
    (slot : s = e.object → owned) :
    (owned ∨ s ∈ (insert m e).map MapEntry.object) ↔ (owned ∨ s ∈ m.map MapEntry.object) := by
  unfold insert
  split
  · exact Iff.rfl
  · simp only [List.map_cons, List.mem_cons]
    constructor
    · rintro (before | new | entry)
      · exact Or.inl before
      · exact Or.inl (slot new)
      · exact Or.inr entry
    · rintro (before | entry)
      · exact Or.inl before
      · exact Or.inr (Or.inr entry)

theorem intern_alive {always countHit : Bool} {value : Bytes}
    (h : w.intern p x always countHit i value = .ok w') (s : Obj) :
    w'.StringAlive p s ↔ w.StringAlive p s := by
  rcases intern_cases h with ⟨-, -, rfl⟩ | ⟨e, n, -, -, -, rfl⟩ | ⟨t, c, acquired, -, -, rfl⟩ |
    ⟨c, failed, -, -, rfl⟩
  · exact Iff.rfl
  · refine stringAlive_congr fun y => ?_
    by_cases same : y = x
    · subst same
      simp only [setString, setInfo, setMap, and_self, if_true, settle_objects, addHits_objects]
      exact Iff.rfl
    · simp only [setString, setInfo, setMap, same, and_false, if_false]
      exact Iff.rfl
  · obtain ⟨-, slot, -⟩ := Cache.acquire_some acquired
    have slot : (w.cache (.string p x)).Owns t := List.mem_of_getElem? slot
    refine stringAlive_congr fun y => ?_
    have owns : (((((w.setCache (.string p x) c).setName t value).setString i x (some t)).setMap p x
        (insert ((w.setName t value).maps p x)
          { key := cString value, object := t, hits := 1 })).cache (.string p y)).Owns s ↔ (w.cache (.string p y)).Owns s := owns_acquired y acquired
    rw [owns]
    by_cases same : y = x
    · subst same
      rw [setMap_same, settle_objects]
      refine (objects_insert fun new => ?_).trans (by rw [setName_objects])
      rw [new]
      exact slot
    · rw [setMap_other fun both => same both.2]
      exact or_congr Iff.rfl (by rw [← setName_objects w t value p y]; exact Iff.rfl)
  · refine stringAlive_congr fun y => ?_
    rw [owns_acquired y failed, setCache_maps]

/-- A pointer of the info is old, or goes to a string that is there. -/
theorem intern_pointer {always countHit : Bool} {value : Bytes}
    (h : w.intern p x always countHit i value = .ok w') {y : StringField} {s : Obj}
    (pointer : (w'.infos i).strings y = some s) :
    (w.infos i).strings y = some s ∨ w'.StringAlive p s := by
  rw [intern_alive h]
  rcases intern_cases h with ⟨-, -, rfl⟩ | ⟨e, n, found, -, -, rfl⟩ | ⟨t, c, acquired, -, -, rfl⟩ |
    ⟨c, failed, -, -, rfl⟩
  · exact Or.inl pointer
  · rcases setString_pointer pointer with old | ⟨-, rfl⟩
    · exact Or.inl old
    · exact Or.inr (stringAlive_of_find found)
  · have pointer : ((((w.setCache (.string p x) c).setName t value).setString i x
        (some t)).infos i).strings y = some s := pointer
    rcases setString_pointer pointer with old | ⟨-, rfl⟩
    · have old : ((w.setCache (.string p x) c).infos i).strings y = some s := old
      rw [setCache_infos] at old
      exact Or.inl old
    · exact Or.inr (stringAlive_of_acquire acquired)
  · rw [setCache_infos] at pointer
    exact Or.inl pointer

end AIEngine.World
