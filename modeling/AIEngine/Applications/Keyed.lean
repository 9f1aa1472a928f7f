import AIEngine.Applications.Attached
import AIEngine.Applications.Infos
import AIEngine.Applications.InfoPools
import Mathlib.Data.List.TakeWhile

/-!
# Keys of the maps

A map of strings finds an object under the text it has. An attached value is found again with the
same text.
-/

namespace AIEngine.World

open Ending

variable {w w' : World} {p : L7Protocol} {a i : Obj}

/-- The keys of the maps are the names of their objects, which are out of their pools, and stay in their
order. -/
structure Keyed (p : L7Protocol) (w : World) : Prop where
  filled : w.Filled
  named : ∀ x, (w.cache (.string p x)).id = .string p x
  kept : ∀ x, ∃ held, Pool.Kept { cache := w.cache (.string p x), outstanding := held } ∧
    ∀ e ∈ w.maps p x, e.object ∈ held
  text : ∀ x, ∀ e ∈ w.maps p x, cString (w.names e.object) = e.key
  ordered : ∀ x, w.disordered p x = false

theorem keyed_start (objects : CacheId → Nat) (layer : Option Nat) :
    Keyed p (start objects layer) := by
  refine ⟨filled_start objects layer, fun x => ?_, fun x => ⟨[], ?_, ?_⟩, ?_, fun _ => rfl⟩
  · rw [start_cache, Cache.create_eq]
  · rw [start_cache]
    exact Pool.kept_create _ _
  · intro e member
    exact absurd member (by simp [start])
  · intro x e member
    exact absurd member (by simp [start])

/-- Everything but the strings may change. -/
theorem keyed_same (keyed : Keyed p w) (filled : w'.Filled)
    (caches : ∀ x, w'.cache (.string p x) = w.cache (.string p x)) (maps : w'.maps p = w.maps p)
    (names : w'.names = w.names) (disordered : w'.disordered p = w.disordered p) : Keyed p w' := by
  refine ⟨filled, fun x => ?_, fun x => ?_, fun x e member => ?_, fun x => ?_⟩
  · rw [caches]
    exact keyed.named x
  · rw [caches, maps]
    exact keyed.kept x
  · rw [maps] at member
    rw [names]
    exact keyed.text x e member
  · rw [disordered]
    exact keyed.ordered x

theorem keyed_home (keyed : Keyed p w) {x : StringField} {e : MapEntry} (member : e ∈ w.maps p x) :
    e.object.home = .string p x := by
  obtain ⟨held, kept, out⟩ := keyed.kept x
  obtain ⟨k, -, same⟩ := kept.wf.held e.object (out e member)
  rw [same]
  exact keyed.named x

theorem entry_hit {x y : StringField} {value : Bytes} {n : Int} {e : MapEntry}
    (ordered : w.disordered p y = false)
    (member : e ∈ (w.setMap p x (addHits (w.maps p x) value n)).maps p y) :
    ∃ e₀ ∈ w.maps p y, e₀.key = e.key ∧ e₀.object = e.object := by
  by_cases same : y = x
  · subst same
    rw [setMap_same, settle_clean ordered] at member
    exact mem_addHits member
  · rw [setMap_other fun both => same both.2] at member
    exact ⟨e, member, rfl, rfl⟩

theorem entry_new {w₀ : World} {x y : StringField} {new e : MapEntry}
    (maps : w₀.maps p y = w.maps p y) (ordered : w₀.disordered p y = false)
    (member : e ∈ (w₀.setMap p x (insert (w.maps p x) new)).maps p y) :
    (y = x ∧ e = new) ∨ e ∈ w.maps p y := by
  by_cases same : y = x
  · subst same
    rw [setMap_same, settle_clean ordered] at member
    rcases mem_insert member with rfl | old
    · exact .inl ⟨rfl, rfl⟩
    · exact .inr old
  · rw [setMap_other fun both => same both.2, maps] at member
    exact .inr member

theorem string_setCache (w : World) (c : Cache) {x y : StringField} :
    (w.setCache (.string p x) c).cache (.string p y) =
      if y = x then c else w.cache (.string p y) := by
  by_cases chosen : y = x
  · rw [if_pos chosen, chosen, cache_setCache_same]
  · rw [if_neg chosen, cache_setCache_other (by simp [chosen])]

theorem keyed_found {x : StringField} {value : Bytes} {n : Int} {e : MapEntry} (keyed : Keyed p w)
    (stored : w' = (w.setMap p x (addHits (w.maps p x) value n)).setString i x (some e.object))
    (filled : w'.Filled) : Keyed p w' := by
  subst stored
  refine ⟨filled, keyed.named, fun y => ?_, fun y e' member => ?_, keyed.ordered⟩
  · obtain ⟨held, kept, out⟩ := keyed.kept y
    refine ⟨held, kept, fun e' member => ?_⟩
    obtain ⟨e₀, old, -, object⟩ := entry_hit (keyed.ordered y) member
    rw [← object]
    exact out e₀ old
  · obtain ⟨e₀, old, key, object⟩ := entry_hit (keyed.ordered y) member
    rw [← key, ← object]
    exact keyed.text y e₀ old

/-- A string out of the pool is no object of a map. -/
theorem keyed_fresh {s : Obj} {x y : StringField} {c : Cache} {e : MapEntry} (keyed : Keyed p w)
    (acquired : (w.cache (.string p x)).acquire = .ok (some s, c)) (old : e ∈ w.maps p y) :
    e.object ≠ s := by
  rintro rfl
  have home := keyed_home keyed old
  obtain ⟨held, kept, out⟩ := keyed.kept x
  obtain ⟨after, fresh⟩ := Pool.kept_acquire kept acquired
  by_cases chosen : y = x
  · subst chosen
    exact fresh (out e old)
  · obtain ⟨k, -, place⟩ := after.wf.held e.object List.mem_cons_self
    obtain ⟨-, -, same⟩ := Cache.acquire_some acquired
    have id : c.id = .string p x := by
      rw [same]
      exact keyed.named x
    rw [place] at home
    have fields := id.symm.trans home
    exact chosen (by simpa using fields.symm)

theorem keyed_new {s : Obj} {x : StringField} {value : Bytes} {c : Cache} (keyed : Keyed p w)
    (acquired : (w.cache (.string p x)).acquire = .ok (some s, c))
    (stored : w' = (((w.setCache (.string p x) c).setName s value).setString i x (some s)).setMap p x
      (insert ((w.setName s value).maps p x) { key := cString value, object := s, hits := 1 }))
    (filled : w'.Filled) : Keyed p w' := by
  have unmapped (y : StringField) : s ∉ (w.maps p y).map MapEntry.object :=
    unmapped_of_ne fun _ => keyed_fresh keyed acquired
  have called := fun y => setName_clean (unmapped y) value
  rw [(called x).1] at stored
  subst stored
  have caches (y : StringField) : ((((w.setCache (.string p x) c).setName s value).setString i x
      (some s)).setMap p x (insert (w.maps p x) ⟨cString value, s, 1⟩)).cache (.string p y) =
        if y = x then c else w.cache (.string p y) := string_setCache w c
  have maps (y : StringField) : (((w.setCache (.string p x) c).setName s value).setString i x
      (some s)).maps p y = w.maps p y := (called y).1
  have order (y : StringField) : (((w.setCache (.string p x) c).setName s value).setString i x
      (some s)).disordered p y = false := (called y).2.trans (keyed.ordered y)
  refine ⟨filled, fun y => ?_, fun y => ?_, fun y e member => ?_, order⟩
  · rw [caches]
    split
    · rename_i chosen
      obtain ⟨-, -, same⟩ := Cache.acquire_some acquired
      rw [same, chosen]
      exact keyed.named x
    · exact keyed.named y
  · rw [caches]
    obtain ⟨held, kept, out⟩ := keyed.kept y
    by_cases chosen : y = x
    · subst chosen
      obtain ⟨after, -⟩ := Pool.kept_acquire kept acquired
      refine ⟨s :: held, by rwa [if_pos rfl], fun e member => ?_⟩
      rcases entry_new (maps y) (order y) member with ⟨-, rfl⟩ | old
      · exact List.mem_cons_self
      · exact List.mem_cons_of_mem _ (out e old)
    · refine ⟨held, by rwa [if_neg chosen], fun e member => ?_⟩
      rcases entry_new (maps y) (order y) member with ⟨same, -⟩ | old
      · exact absurd same chosen
      · exact out e old
  · change cString (if e.object = s then value else (w.setCache (.string p x) c).names e.object) = _
    rcases entry_new (maps y) (order y) member with ⟨-, rfl⟩ | old
    · rw [if_pos rfl]
    · rw [if_neg (keyed_fresh keyed acquired old), setCache_names]
      exact keyed.text y e old

theorem keyed_missed {x : StringField} {c : Cache} (keyed : Keyed p w)
    (failed : (w.cache (.string p x)).acquire = .ok (none, c))
    (filled : (w.setCache (.string p x) c).Filled) : Keyed p (w.setCache (.string p x) c) := by
  refine ⟨filled, fun y => ?_, fun y => ?_, fun y e member => ?_, keyed.ordered⟩
  · rw [string_setCache]
    split
    · rename_i chosen
      obtain ⟨-, same⟩ := Cache.acquire_none failed
      rw [same, chosen]
      exact keyed.named x
    · exact keyed.named y
  · rw [string_setCache, setCache_maps]
    obtain ⟨held, kept, out⟩ := keyed.kept y
    refine ⟨held, ?_, out⟩
    by_cases chosen : y = x
    · subst chosen
      rw [if_pos rfl]
      exact Pool.kept_fail kept failed
    · rwa [if_neg chosen]
  · rw [setCache_maps] at member
    rw [setCache_names]
    exact keyed.text y e member

theorem keyed_intern {x : StringField} {always countHit : Bool} {value : Bytes} (keyed : Keyed p w)
    (h : w.intern p x always countHit i value = .ok w') : Keyed p w' := by
  have filled := filled_intern keyed.filled h
  rcases intern_cases h with ⟨-, -, rfl⟩ | ⟨e, n, -, -, -, stored⟩ |
    ⟨s, c, acquired, -, -, stored⟩ |
    ⟨c, failed, -, -, rfl⟩
  · exact keyed
  · exact keyed_found keyed stored filled
  · exact keyed_new keyed acquired stored filled
  · exact keyed_missed keyed failed filled

theorem keyed_touches (keyed : Keyed p w) (unmarked : marksBans p = false)
    (h : Touches p a i w w') : Keyed p w' := by
  refine touches_rule (fun u u' inv touch => ?_) keyed h
  cases touch with
  | string x always countHit value attached => exact keyed_intern inv attached
  | anomaly pa noted =>
    rw [noted]
    exact keyed_same inv (filled_same inv.filled fun _ => rfl) (fun _ => rfl) rfl rfl rfl
  | ban marks banned =>
    rw [unmarked] at marks
    exact absurd marks (by simp)

theorem keyed_attachInfo {r : Option Obj} (keyed : Keyed p w)
    (h : w.attachInfo p a = .ok (r, w')) : Keyed p w' := by
  have filled := filled_attachInfo keyed.filled h
  rcases attachInfo_cases h with ⟨j, -, -, rfl⟩ | ⟨j, c, -, -, acquired, rfl⟩ | ⟨c, -, failed, rfl⟩
  · exact keyed
  · refine keyed_same keyed filled (fun x => ?_) ?_ ?_ rfl
    · change (w.setCache (.info p) c).cache (.string p x) = _
      exact cache_setCache_other (by simp)
    · simp [setFlow, setInfo]
    · simp [setFlow, setInfo]
  · exact keyed_same keyed filled (fun x => cache_setCache_other (by simp)) (by simp) (by simp)
      (by simp)

theorem keyed_handled {grew : Prop} (keyed : Keyed p w) (unmarked : marksBans p = false)
    (h : Handled p a grew w w') : Keyed p w' := by
  have marked (f : Flow) : Keyed p (w.setFlow a f) :=
    keyed_same keyed (filled_same keyed.filled fun _ => rfl) (fun _ => rfl) rfl rfl rfl
  cases h with
  | noted f pointers written kept =>
    rw [written]
    exact marked f
  | without f pointers failed kept => exact keyed_attachInfo (marked f) failed
  | worked f pointers i w₁ attached touches counted =>
    exact keyed_touches (keyed_attachInfo (marked f) attached) unmarked touches

theorem cString_nonzero {v : Bytes} (goes : ∀ b ∈ v, b ≠ 0) : cString v = v := by
  apply List.takeWhile_eq_self_iff.mpr
  intro b member
  exact decide_eq_true (goes b member)

/-- An info without a string gets one with this text, from the map or from the pool. -/
theorem intern_names {x : StringField} {v : Bytes} (countHit : Bool) (keyed : Keyed p w)
    (unnamed : w.lockString p ((w.infos i).strings x) = none)
    (room : find (w.maps p x) v = none → 0 < (w.cache (.string p x)).total) :
    ∃ w' s, w.intern p x false countHit i v = .ok w' ∧ (w'.infos i).strings x = some s ∧
      w'.StringAlive p s ∧ cString (w'.names s) = cString v := by
  have passes : ¬(false = false ∧ (w.lockString p ((w.infos i).strings x)).isSome = true) := by
    simp [unnamed]
  cases found : find (w.maps p x) v with
  | some e =>
    have opened : w.intern p x false countHit i v =
        .ok ((w.setMap p x (addHits (w.maps p x) v (if countHit then 1 else 0))).setString i x
          (some e.object)) := by
      unfold intern
      rw [if_neg passes, found]
    obtain ⟨member, key⟩ := find_some found
    refine ⟨_, e.object, opened, by simp [setString, setInfo], ?_, ?_⟩
    · exact (intern_alive opened e.object).mpr (stringAlive_of_find found)
    · change cString (w.names e.object) = _
      rw [← key, ← keyed.text x e member]
      exact List.takeWhile_idem.symm
  | none =>
    obtain ⟨s, c, acquired⟩ := acquire_of_total (keyed.filled _) (room found)
    have opened : w.intern p x false countHit i v =
        .ok ((((w.setCache (.string p x) c).setName s v).setString i x (some s)).setMap p x
          (insert ((w.setName s v).maps p x) ⟨cString v, s, 1⟩)) := by
      unfold intern
      rw [if_neg passes, found]
      unfold internNew
      simp only [acquired]
      rfl
    refine ⟨_, s, opened, ?_, ?_, ?_⟩
    · simp [setMap, setString, setInfo]
    · exact (intern_alive opened s).mpr (stringAlive_of_acquire acquired)
    · simp [setMap, setString, setInfo, setName]

theorem intern_misses {x : StringField} {v : Bytes} (countHit : Bool) (filled : w.Filled)
    (unnamed : w.lockString p ((w.infos i).strings x) = none)
    (absent : find (w.maps p x) v = none) (empty : (w.cache (.string p x)).total = 0) :
    ∃ w', w.intern p x false countHit i v = .ok w' ∧
      w'.lockString p ((w'.infos i).strings x) = none ∧ KeepsInfos p i w w' := by
  obtain ⟨w', interned⟩ := intern_filled (p := p) (i := i) x false countHit v filled
  refine ⟨w', interned, ?_, intern_keepsInfos interned⟩
  have same : w'.infos = w.infos := by
    rcases intern_cases interned with ⟨-, -, rfl⟩ | ⟨e, n, found, -⟩ | ⟨s, c, acquired, -⟩ |
      ⟨c, -, -, -, rfl⟩
    · rfl
    · rw [absent] at found
      exact absurd found (by simp)
    · have positive := (Cache.acquire_some acquired).1
      omega
    · rw [setCache_infos]
  rw [lockString_congr (intern_alive interned), same]
  exact unnamed

end AIEngine.World
