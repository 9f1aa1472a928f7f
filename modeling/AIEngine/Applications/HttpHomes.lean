import AIEngine.Applications.InfoPools

/-!
# Where the strings of HTTP come from

`Resources.Interning` has this for runs of HTTP alone. Here other protocols attach strings too, to
infos that are none of HTTP.
-/

namespace AIEngine.World

/-- Strings never leave the cache of HTTP that made them. -/
structure HttpHomed (w : World) : Prop where
  slots : ∀ x s, some s ∈ (w.httpStrings x).items → s.home = .string .http x
  entries : ∀ x, ∀ e ∈ w.maps .http x, e.object.home = .string .http x
  pointers : ∀ i, i.home = .info .http → ∀ x s, (w.infos i).strings x = some s →
    s.home = .string .http x

variable {w w' : World} {p : L7Protocol} {a i : Obj}

theorem httpHomed_start (objects : CacheId → Nat) (layer : Option Nat) :
    (start objects layer).HttpHomed := by
  refine ⟨fun x s slot => ?_, fun x e entry => ?_, fun i _ x s pointer => ?_⟩
  · rw [httpStrings, start_cache, Cache.create_eq] at slot
    obtain ⟨k, -, same⟩ := List.mem_map.mp ((List.mem_append.mp slot).resolve_left (by simp))
    exact (Option.some.inj same) ▸ rfl
  · exact absurd entry (by simp [start])
  · exact absurd pointer (by simp [start])

/-- What touches neither the strings nor the maps of HTTP, and leaves no info of HTTP a new pointer. -/
theorem httpHomed_same (homed : w.HttpHomed)
    (slots : ∀ x s, some s ∈ (w'.httpStrings x).items → some s ∈ (w.httpStrings x).items)
    (maps : ∀ x, (w'.maps .http x).map MapEntry.object = (w.maps .http x).map MapEntry.object)
    (pointers : ∀ i, i.home = .info .http → ∀ x s, (w'.infos i).strings x = some s →
      (w.infos i).strings x = some s) : w'.HttpHomed := by
  refine ⟨fun x s slot => homed.slots x s (slots x s slot), fun x e entry => ?_,
    fun i home x s pointer => homed.pointers i home x s (pointers i home x s pointer)⟩
  have mapped : e.object ∈ (w'.maps .http x).map MapEntry.object := List.mem_map_of_mem entry
  rw [maps] at mapped
  obtain ⟨e₀, old, same⟩ := List.mem_map.mp mapped
  exact same ▸ homed.entries x e₀ old

theorem httpHomed_overwrite (homed : w.HttpHomed) (sight : Nat → MapEntry → Bytes) :
    (w.overwrite sight).HttpHomed :=
  httpHomed_same homed (fun _ _ => id) (fun x => overwrite_objects w sight .http x) fun _ _ _ _ => id

/-- A string that another protocol attaches. -/
theorem httpHomed_foreign {x : StringField} {always countHit : Bool} {value : Bytes}
    (other : p ≠ .http) (own : i.home = .info p) (homed : w.HttpHomed)
    (h : w.intern p x always countHit i value = .ok w') : w'.HttpHomed := by
  have apart : ∀ y, CacheId.string .http y ≠ .string p x := by
    intro y same
    exact other (CacheId.string.inj same).1.symm
  have elsewhere : ∀ j : Obj, j.home = .info .http → j ≠ i := by
    rintro j home rfl
    exact other (CacheId.info.inj (own.symm.trans home))
  have maps : ∀ (w : World) (m : List MapEntry) y,
      (w.setMap p x m).maps .http y = w.maps .http y := by
    intro w m y
    exact if_neg fun both => other both.1.symm
  refine httpHomed_same homed ?_ ?_ ?_
  · intro y s slot
    rcases intern_cases h with ⟨-, -, rfl⟩ | ⟨e, n, -, -, -, rfl⟩ | ⟨t, c, -, -, -, rfl⟩ |
      ⟨c, -, -, -, rfl⟩
    · exact slot
    · exact slot
    · have same : ((((w.setCache (.string p x) c).setName t value).setString i x (some t)).setMap p x
          (insert ((w.setName t value).maps p x)
            { key := cString value, object := t, hits := 1 })).httpStrings y =
            w.httpStrings y := cache_setCache_other (w := w) (c := c) (apart y)
      rwa [same] at slot
    · rwa [httpStrings, cache_setCache_other (apart y)] at slot
  · intro y
    rcases intern_cases h with ⟨-, -, rfl⟩ | ⟨e, n, -, -, -, rfl⟩ | ⟨t, c, -, -, -, rfl⟩ |
      ⟨c, -, -, -, rfl⟩
    · rfl
    · exact congrArg (List.map MapEntry.object) (maps _ _ y)
    · rw [maps]
      exact setName_objects w t value .http y
    · rw [setCache_maps]
  · intro j home y s pointer
    rwa [intern_infos h (elsewhere j home)] at pointer

/-- A string that HTTP attaches. -/
theorem httpHomed_intern {x : StringField} {always countHit : Bool} {value : Bytes}
    (homed : w.HttpHomed) (h : w.intern .http x always countHit i value = .ok w') :
    w'.HttpHomed := by
  rcases intern_cases h with ⟨-, -, rfl⟩ | ⟨e, n, found, -, -, rfl⟩ | ⟨t, c, acquired, -, -, rfl⟩ |
    ⟨c, failed, -, -, rfl⟩
  · exact homed
  · have known := homed.entries x e (find_some found).1
    refine ⟨homed.slots, fun y e' entry => ?_, fun j home y s pointer => ?_⟩
    · by_cases same : y = x
      · subst same
        have entry : e' ∈ w.settle .http y (addHits (w.maps .http y) value n) := by
          simpa [setString, setInfo, setMap] using entry
        obtain ⟨e₁, hit, object₁, -⟩ := mem_settle entry
        obtain ⟨e₀, old, -, object⟩ := mem_addHits hit
        rw [← object₁, ← object]
        exact homed.entries y e₀ old
      · have entry : e' ∈ w.maps .http y := by
          simpa [setString, setInfo, setMap, same] using entry
        exact homed.entries y e' entry
    · rcases setString_pointer pointer with old | ⟨rfl, rfl⟩
      · exact homed.pointers j home y s old
      · exact known
  · obtain ⟨-, slot, -⟩ := Cache.acquire_some acquired
    have fresh : t.home = .string .http x := homed.slots x t (List.mem_of_getElem? slot)
    have taken : ∀ y s, some s ∈ ((w.setCache (.string .http x) c).httpStrings y).items →
        s.home = .string .http y := by
      intro y s slot
      by_cases same : y = x
      · subst same
        rw [httpStrings, cache_setCache_same, Cache.acquire_items acquired] at slot
        exact homed.slots y s slot
      · rw [httpStrings, cache_setCache_other (by simp [same])] at slot
        exact homed.slots y s slot
    refine ⟨taken, fun y e' entry => ?_, fun j home y s pointer => ?_⟩
    · have named : ∀ e₁ ∈ (w.setName t value).maps .http y, e₁.object.home = .string .http y := by
        intro e₁ mid
        obtain ⟨e₀, old, object, -⟩ := mem_setName mid
        rw [← object]
        exact homed.entries y e₀ old
      by_cases same : y = x
      · subst same
        rw [setMap_same] at entry
        obtain ⟨e₁, inserted, object₁, -⟩ := mem_settle entry
        rw [← object₁]
        rcases mem_insert inserted with rfl | old
        · exact fresh
        · exact named e₁ old
      · rw [setMap_other fun both => same both.2] at entry
        exact named e' entry
    · have pointer : ((((w.setCache (.string .http x) c).setName t value).setString i x
          (some t)).infos j).strings y = some s := pointer
      rcases setString_pointer pointer with old | ⟨rfl, rfl⟩
      · have old : ((w.setCache (.string .http x) c).infos j).strings y = some s := old
        rw [setCache_infos] at old
        exact homed.pointers j home y s old
      · exact fresh
  · refine httpHomed_same homed (fun y s slot => ?_) (fun y => by rw [setCache_maps]) ?_
    · by_cases same : y = x
      · subst same
        rwa [httpStrings, cache_setCache_same, Cache.acquire_items failed] at slot
      · rwa [httpStrings, cache_setCache_other (by simp [same])] at slot
    · intro j home y s pointer
      rwa [setCache_infos] at pointer

theorem httpHomed_release (own : i.home = .info .http) (homed : w.HttpHomed) :
    (Http.releaseHttpInfo w i).HttpHomed := by
  obtain ⟨rest, infos, returned⟩ := releaseHttpInfo_spec w i
  refine ⟨fun x s slot => ?_, fun x e entry => ?_, fun j home x s pointer => ?_⟩
  · rcases returned x with same | ⟨t, locked, given⟩
    · rw [same] at slot
      exact homed.slots x s slot
    · rw [given] at slot
      rcases Cache.release_items slot with new | old
      · obtain rfl := Option.some.inj new
        exact homed.pointers i own x s (lockString_some locked).1
      · exact homed.slots x s old
  · rw [rest.maps] at entry
    exact homed.entries x e entry
  · rw [infos] at pointer
    by_cases same : j = i
    · simp [setInfo, same] at pointer
    · simp [setInfo, same] at pointer
      exact homed.pointers j home x s pointer

theorem httpHomed_dropHit (x : StringField) (homed : w.HttpHomed) :
    (w.dropHit .http x i).HttpHomed := by
  refine ⟨fun y s slot => ?_, fun y e entry => ?_, fun j home y s pointer => ?_⟩
  · have same : (w.dropHit .http x i).httpStrings y = w.httpStrings y := by
      unfold dropHit
      split <;> rfl
    rw [same] at slot
    exact homed.slots y s slot
  · unfold dropHit at entry
    split at entry
    · exact homed.entries y e entry
    · rename_i t locked
      by_cases same : y = x
      · subst same
        rw [setMap_same] at entry
        obtain ⟨e₁, dropped, object₁, -⟩ := mem_settle entry
        obtain ⟨e₀, old, -, object⟩ := mem_removeHit dropped
        rw [← object₁, ← object]
        exact homed.entries y e₀ old
      · have entry : e ∈ w.maps .http y := by simpa [setMap, same] using entry
        exact homed.entries y e entry
  · rw [dropHit_infos] at pointer
    exact homed.pointers j home y s pointer

theorem httpHomed_setBanned (i : Obj) (homed : w.HttpHomed) : (w.setBanned i).HttpHomed := by
  refine httpHomed_same homed (fun _ _ => id) (fun _ => rfl) fun j _ x s pointer => ?_
  by_cases same : j = i
  · simpa [setBanned, setInfo, same] using pointer
  · simpa [setBanned, setInfo, same] using pointer

theorem httpHomed_touch (own : i.home = .info p) (homed : w.HttpHomed) (touch : Touch p a i w w') :
    w'.HttpHomed := by
  cases touch with
  | string x always countHit value attached =>
    by_cases http : p = .http
    · subst http
      exact httpHomed_intern homed attached
    · exact httpHomed_foreign http own homed attached
  | anomaly pa noted =>
    rw [noted]
    exact httpHomed_same homed (fun _ _ => id) (fun _ => rfl) fun _ _ _ _ => id
  | ban marks banned =>
    rw [banned]
    have marked := httpHomed_setBanned i homed
    cases p with
    | http => exact httpHomed_release own (httpHomed_dropHit .uri (httpHomed_dropHit .ua marked))
    | smtp => exact marked
    | pop => exact marked
    | imap => exact marked
    | _ => exact homed

theorem httpHomed_attachInfo {r : Option Obj} (homed : w.HttpHomed)
    (h : w.attachInfo p a = .ok (r, w')) : w'.HttpHomed := by
  rcases attachInfo_cases h with ⟨j, -, -, rfl⟩ | ⟨j, c, -, -, -, rfl⟩ | ⟨c, -, -, rfl⟩
  · exact homed
  · refine httpHomed_same homed (fun x s slot => ?_) (fun x => ?_) fun k _ x s pointer => ?_
    · have same : ((w.setCache (.info p) c).cache (.string .http x)) = w.httpStrings x :=
        cache_setCache_other (by simp)
      exact same ▸ slot
    · show ((w.setCache (.info p) c).maps .http x).map MapEntry.object = _
      rw [setCache_maps]
    · by_cases new : k = j
      · simp [setInfo, setFlow, new] at pointer
      · simpa [setInfo, setFlow, new] using pointer
  · refine httpHomed_same homed (fun x s slot => ?_) (fun x => by rw [setCache_maps]) ?_
    · rwa [httpStrings, cache_setCache_other (by simp)] at slot
    · intro k _ x s pointer
      rwa [setCache_infos] at pointer

theorem httpHomed_handled {grew : Prop} (pooled : w.Pooled) (live : a ∈ w.table)
    (homed : w.HttpHomed) (h : Handled p a grew w w') : w'.HttpHomed := by
  have marked : ∀ f : Flow, (w.setFlow a f).HttpHomed := fun f =>
    httpHomed_same homed (fun _ _ => id) (fun _ => rfl) fun _ _ _ _ => id
  cases h with
  | noted f pointers written kept =>
    rw [written]
    exact marked f
  | without f pointers failed kept => exact httpHomed_attachInfo (marked f) failed
  | worked f pointers i w₁ attached touches counted =>
    have pooled₁ := pooled_attachInfo (pooled_setFlow pooled pointers) attached
    have live₁ : a ∈ w₁.table := by
      rw [(attachInfo_spares attached).table]
      exact live
    have own := pooled_home pooled₁ live₁ (lockInfo_some (attachInfo_locked attached)).1
    exact touches_rule (fun _ _ => httpHomed_touch own) (httpHomed_attachInfo (marked f) attached)
      touches

theorem httpHomed_openTcpFlow {layer : Nat} (homed : w.HttpHomed)
    (h : w.openTcpFlow a layer = .ok w') : w'.HttpHomed := by
  obtain ⟨caches, maps, -, infos, -⟩ := AIEngine.Http.openTcpFlow_spec h
  refine httpHomed_same homed (fun x s slot => ?_) (fun x => by rw [maps]) fun j _ x s pointer => ?_
  · rwa [httpStrings, caches _ (by simp)] at slot
  · rwa [infos] at pointer

theorem httpHomed_endFlow (homed : w.HttpHomed) : (w.endFlow a).HttpHomed := by
  have returns := AIEngine.Http.releaseFlow_returnsInfos w (w.flows a)
  refine httpHomed_same homed (fun x s slot => ?_) (fun x => ?_) fun j _ x s pointer => ?_
  · have same : (w.endFlow a).httpStrings x = w.httpStrings x := returns.strings x
    rwa [same] at slot
  · exact congrArg (fun maps => (maps .http x).map MapEntry.object) returns.maps
  · have same : (w.endFlow a).infos = w.infos := returns.infos
    rwa [same] at pointer

end AIEngine.World
