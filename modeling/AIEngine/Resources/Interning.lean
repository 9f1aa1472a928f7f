import AIEngine.Resources.HttpRelease
import AIEngine.Resources.ReleaseCache

/-!
# Interned strings of the HTTP protocol

The maps and any number of flows share a `StringCache`. The invariant says that no string somebody
refers to is free; attaching keeps it, and a release keeps it when the string belongs to nobody else.
-/

namespace AIEngine.Http

open World

/-! ### The invariant -/

/-- The `HTTPInfo` of a live flow refers to the string. -/
def Refers (w : World) (x : StringField) (s : Obj) : Prop :=
  ∃ a ∈ w.table, ∃ i, w.lockInfo .http (w.flows a) = some i ∧ (w.infos i).strings x = some s

/-- No string somebody refers to is free, none is free twice, and every key is the name of its string
and in its place. -/
structure Interned (w : World) : Prop where
  mapped : ∀ x, ∀ e ∈ w.maps .http x, some e.object ∉ (w.httpStrings x).free
  attached : ∀ x s, Refers w x s → some s ∉ (w.httpStrings x).free
  once : ∀ x, (w.httpStrings x).free.Nodup
  keys : ∀ x, ∀ e ∈ w.maps .http x, e.key = cString (w.names e.object)
  ordered : ∀ x, w.disordered .http x = false

/-- Strings never leave the cache that made them. -/
structure Homes (w : World) : Prop where
  slots : ∀ x s, some s ∈ (w.httpStrings x).items → s.home = .string .http x
  entries : ∀ x, ∀ e ∈ w.maps .http x, e.object.home = .string .http x
  pointers : ∀ i x s, (w.infos i).strings x = some s → s.home = .string .http x

/-! ### Steps that attach no string -/

/-- The strings, the maps and the pools are as before, and no reference is new. -/
structure SameStrings (w w' : World) : Prop where
  free : ∀ x, (w'.httpStrings x).free = (w.httpStrings x).free
  items : ∀ x, (w'.httpStrings x).items = (w.httpStrings x).items
  maps : w'.maps = w.maps
  names : w'.names = w.names
  infos : ∀ i x s, (w'.infos i).strings x = some s → (w.infos i).strings x = some s
  refers : ∀ x s, Refers w' x s → Refers w x s
  disordered : w'.disordered = w.disordered

theorem sameStrings_refl (w : World) : SameStrings w w :=
  ⟨fun _ => rfl, fun _ => rfl, rfl, rfl, fun _ _ _ => id, fun _ _ => id, rfl⟩

theorem homes_same {w w' : World} (homes : Homes w) (same : SameStrings w w') : Homes w' := by
  refine ⟨?_, ?_, fun i x s pointer => homes.pointers i x s (same.infos i x s pointer)⟩
  · intro x s slot
    rw [same.items] at slot
    exact homes.slots x s slot
  · intro x e entry
    rw [same.maps] at entry
    exact homes.entries x e entry

theorem interned_same {w w' : World} (interned : Interned w) (same : SameStrings w w') :
    Interned w' := by
  refine ⟨?_, ?_, ?_, ?_, fun x => same.disordered ▸ interned.ordered x⟩
  · intro x e entry
    rw [same.maps] at entry
    rw [same.free]
    exact interned.mapped x e entry
  · intro x s referred
    rw [same.free]
    exact interned.attached x s (same.refers x s referred)
  · intro x
    rw [same.free]
    exact interned.once x
  · intro x e entry
    rw [same.maps] at entry
    rw [same.names]
    exact interned.keys x e entry

/-- When no info comes to life, a reference is old if the flow and the info had it before. -/
theorem refers_back {w w' : World} {x : StringField} {s : Obj}
    (owns : ∀ i, (w'.cache (.info .http)).Owns i → (w.cache (.info .http)).Owns i)
    (each : ∀ b ∈ w'.table, ∀ i, (w'.flows b).info .http = some i →
      (w'.infos i).strings x = some s →
      b ∈ w.table ∧ (w.flows b).info .http = some i ∧ (w.infos i).strings x = some s)
    (h : Refers w' x s) : Refers w x s := by
  obtain ⟨b, member, i, locked, pointer⟩ := h
  obtain ⟨attached, owned⟩ := lockInfo_some locked
  obtain ⟨member, attached, pointer⟩ := each b member i attached pointer
  have living : w.lockInfo .http (w.flows b) = some i := by
    rw [lockInfo, attached]
    exact Cache.lock_of_owns (owns i owned)
  exact ⟨b, member, i, living, pointer⟩

/-- A new flow has no infos, and only the TCP info cache of its layer changes. -/
theorem openTcpFlow_spec {w w' : World} {a : Obj} {layer : Nat}
    (h : w.openTcpFlow a layer = .ok w') :
    (∀ id, id ≠ .tcpInfo layer → w'.cache id = w.cache id) ∧ w'.maps = w.maps ∧
      w'.names = w.names ∧ w'.infos = w.infos ∧ w'.table = a :: w.table ∧
      (∀ p, (w'.flows a).info p = none) ∧ (∀ b, b ≠ a → w'.flows b = w.flows b) ∧
      w'.disordered = w.disordered := by
  unfold openTcpFlow at h
  simp only at h
  split at h
  · rename_i i c acquired
    obtain rfl := Except.ok.inj h
    refine ⟨fun id other => ?_, rfl, rfl, rfl, rfl, ?_, ?_, rfl⟩
    · rw [setFlow_cache, cache_setCache_other other]
      rfl
    · intro p
      cases p <;> simp [setFlow, setCache, openFlow, Flow.reset, Flow.info]
    · intro b different
      simp [setFlow, setCache, openFlow, different]
  · rename_i c failed
    obtain rfl := Except.ok.inj h
    refine ⟨fun id other => ?_, rfl, rfl, rfl, rfl, ?_, ?_, rfl⟩
    · rw [cache_setCache_other other]
      rfl
    · intro p
      cases p <;> simp [setFlow, setCache, openFlow, Flow.reset, Flow.info]
    · intro b different
      simp [setFlow, setCache, openFlow, different]
  · exact absurd h (by simp)

theorem openTcpFlow_same {w w' : World} {a : Obj} {layer : Nat}
    (h : w.openTcpFlow a layer = .ok w') : SameStrings w w' := by
  obtain ⟨caches, maps, names, infos, table, fresh, others, order⟩ := openTcpFlow_spec h
  have strings : ∀ x, w'.httpStrings x = w.httpStrings x := fun x => caches _ (by simp)
  have info := caches (.info .http) (by simp)
  refine ⟨fun x => by rw [strings], fun x => by rw [strings], maps, names, ?_, ?_, order⟩
  · intro i x s pointer
    rwa [infos] at pointer
  · intro x s referred
    refine refers_back (fun i owns => info ▸ owns) ?_ referred
    intro b member i attached pointer
    rw [infos] at pointer
    by_cases opened : b = a
    · subst opened
      exact absurd (attached.symm.trans (fresh .http)) (by simp)
    · rw [table] at member
      rw [others b opened] at attached
      exact ⟨(List.mem_cons.mp member).resolve_left opened, attached, pointer⟩

theorem attachInfo_same {w w' : World} {a : Obj} {r : Option Obj}
    (h : w.attachInfo .http a = .ok (r, w')) : SameStrings w w' := by
  rcases attachInfo_cases h with ⟨i, -, -, rfl⟩ | ⟨i, c, -, -, acquired, rfl⟩ | ⟨c, -, failed, rfl⟩
  · exact sameStrings_refl _
  · have items := Cache.acquire_items acquired
    have pointers : ∀ j x s, ((((w.setCache (.info .http) c).setInfo i {}).setFlow a
        ((w.flows a).setInfo .http (some i))).infos j).strings x = some s →
        j ≠ i ∧ (w.infos j).strings x = some s := by
      intro j x s pointer
      by_cases new : j = i
      · simp [setInfo, setFlow, new] at pointer
      · exact ⟨new, by simpa [setInfo, setFlow, new] using pointer⟩
    refine ⟨fun x => rfl, fun x => rfl, rfl, rfl, fun j x s h => (pointers j x s h).2, ?_, rfl⟩
    intro x s referred
    refine refers_back (fun j owns => ?_) ?_ referred
    · simp only [setFlow_cache, setInfo_cache, cache_setCache_same, Cache.Owns, items] at owns
      exact owns
    · intro b member j attached pointer
      obtain ⟨old, pointer⟩ := pointers j x s pointer
      by_cases turn : b = a
      · subst turn
        simp only [setFlow, ↓reduceIte, setInfo_info, Option.some.injEq] at attached
        exact absurd attached.symm old
      · refine ⟨member, ?_, pointer⟩
        simpa [setFlow, setInfo, turn] using attached
  · have items := Cache.acquire_items failed
    refine ⟨fun x => rfl, fun x => rfl, rfl, rfl, fun _ _ _ => id, ?_, rfl⟩
    intro x s referred
    refine refers_back ?_ ?_ referred
    · intro j owns
      simp only [cache_setCache_same, Cache.Owns, items] at owns
      exact owns
    · intro b member j attached pointer
      exact ⟨member, attached, pointer⟩

/-! ### Attaching a string -/

/-- The info `i` refers to `s` in a field where it may have referred to another string. The string
was free or in the map, and nothing else refers to more than before. -/
structure Attaches (w w' : World) (x : StringField) (i s : Obj) : Prop where
  infoCache : w'.cache (.info .http) = w.cache (.info .http)
  flows : w'.flows = w.flows
  table : w'.table = w.table
  infos : w'.infos = (w.setString i x (some s)).infos
  free : ∀ y, (w'.httpStrings y).free.Sublist (w.httpStrings y).free
  items : ∀ y, (w'.httpStrings y).items = (w.httpStrings y).items
  taken : some s ∉ (w'.httpStrings x).free
  home : s.home = .string .http x
  entries : ∀ y, ∀ e ∈ w'.maps .http y,
    (∃ e₀ ∈ w.maps .http y, e₀.key = e.key ∧ e₀.object = e.object) ∨
      (y = x ∧ e.object = s ∧ e.key = cString (w'.names s))
  names : w'.names = w.names ∨
    (some s ∈ (w.httpStrings x).free ∧ ∀ t, t ≠ s → w'.names t = w.names t)
  ordered : ∀ y, w'.disordered .http y = false

section
variable {w w' : World} {x : StringField} {i : Obj} {value : Bytes}

/-- The string is in the map: only the hits of its entry may be others. -/
theorem found_attaches {e : MapEntry} {n : Int} (homes : Homes w) (interned : Interned w)
    (found : find (w.maps .http x) value = some e) :
    Attaches w ((w.setMap .http x (addHits (w.maps .http x) value n)).setString i x (some e.object))
      x i e.object := by
  obtain ⟨member, -⟩ := find_some found
  refine ⟨rfl, rfl, rfl, rfl, fun _ => List.Sublist.refl _, fun _ => rfl,
    interned.mapped x e member, homes.entries x e member, ?_, Or.inl rfl, interned.ordered⟩
  intro y e' entry
  left
  by_cases field : y = x
  · subst field
    simp only [setString, setInfo, setMap, true_and, ↓reduceIte,
      settle_clean (interned.ordered y)] at entry
    exact mem_addHits entry
  · simp only [setString, setInfo, setMap, field, and_false, ↓reduceIte] at entry
    exact ⟨e', entry, rfl, rfl⟩

/-- A new string is the last one of the pool. -/
theorem acquired_attaches {s : Obj} {c : Cache} {n : Int} (homes : Homes w)
    (interned : Interned w) (acquired : (w.cache (.string .http x)).acquire = .ok (some s, c)) :
    Attaches w ((((w.setCache (.string .http x) c).setName s value).setString i x (some s)).setMap
      .http x (World.insert ((w.setName s value).maps .http x)
        { key := cString value, object := s, hits := n })) x i s := by
  obtain ⟨-, slot, -⟩ := Cache.acquire_some acquired
  have before : (w.httpStrings x).free = c.free ++ [some s] := Cache.acquire_free acquired
  have kept : ∀ y, y ≠ x → (w.setCache (.string .http x) c).httpStrings y = w.httpStrings y := by
    intro y field
    have apart : CacheId.string .http y ≠ .string .http x := by simp [field]
    exact cache_setCache_other apart
  have own : (w.setCache (.string .http x) c).httpStrings x = c := cache_setCache_same ..
  have home := homes.slots x s (List.mem_of_getElem? slot)
  have unmapped : ∀ y, s ∉ (w.maps .http y).map MapEntry.object := by
    refine fun y => unmapped_of_ne fun e entry same => ?_
    have other := homes.entries y e entry
    rw [same, home] at other
    obtain rfl : x = y := by simpa using other
    refine interned.mapped x e entry ?_
    rw [same, before]
    exact List.mem_append_right _ List.mem_cons_self
  have maps := fun y => (setName_clean (unmapped y) value).1
  have order : ∀ y, (w.setName s value).disordered .http y = false := fun y =>
    (setName_clean (unmapped y) value).2.trans (interned.ordered y)
  refine ⟨?_, setCache_flows .., setCache_table .., ?_, ?_, ?_, ?_, home, ?_, Or.inr ⟨?_, ?_⟩, order⟩
  · have infoCache : (w.setCache (.string .http x) c).cache (.info .http) =
        w.cache (.info .http) := cache_setCache_other (by simp)
    exact infoCache
  · simp [setString, setInfo, setName, setMap]
  · intro y
    by_cases field : y = x
    · subst field
      have sub : c.free.Sublist (w.httpStrings y).free := before ▸ List.sublist_append_left _ _
      exact own.symm ▸ sub
    · exact (kept y field).symm ▸ List.Sublist.refl _
  · intro y
    by_cases field : y = x
    · subst field
      exact (congrArg Cache.items own).trans (Cache.acquire_items acquired)
    · exact congrArg Cache.items (kept y field)
  · have distinct := interned.once x
    rw [before, List.nodup_append] at distinct
    intro free
    have free' : some s ∈ c.free := own ▸ free
    exact distinct.2.2 _ free' _ List.mem_cons_self rfl
  · intro y e entry
    by_cases field : y = x
    · subst field
      have clean : (((w.setCache (.string .http y) c).setName s value).setString i y
          (some s)).disordered .http y = false := order y
      rw [setMap_same, settle_clean clean, maps] at entry
      rcases mem_insert entry with rfl | old
      · right
        simp [setMap, setString, setInfo, setName]
      · exact Or.inl ⟨e, old, rfl, rfl⟩
    · rw [setMap_other fun both => field both.2] at entry
      exact Or.inl ⟨e, maps y ▸ entry, rfl, rfl⟩
  · rw [before]
    exact List.mem_append_right _ List.mem_cons_self
  · intro t different
    simp [setMap, setString, setInfo, setName, different]

/-- An empty pool gives nothing and stays as it is. -/
theorem failed_sameStrings {c : Cache}
    (failed : (w.cache (.string .http x)).acquire = .ok (none, c)) :
    SameStrings w (w.setCache (.string .http x) c) := by
  have failedEq := (Cache.acquire_none failed).2
  have same : ∀ y, ((w.setCache (.string .http x) c).httpStrings y).free =
      (w.httpStrings y).free ∧ ((w.setCache (.string .http x) c).httpStrings y).items =
        (w.httpStrings y).items := by
    intro y
    by_cases field : y = x
    · subst field
      rw [httpStrings, cache_setCache_same, failedEq]
      exact ⟨rfl, rfl⟩
    · rw [httpStrings, cache_setCache_other (by simp [field])]
      exact ⟨rfl, rfl⟩
  refine ⟨fun y => (same y).1, fun y => (same y).2, setCache_maps .., setCache_names .., ?_, ?_,
    setCache_disordered ..⟩
  · intro j y t pointer
    rwa [setCache_infos] at pointer
  · intro y t referred
    refine refers_back ?_ ?_ referred
    · exact fun j owns => owns
    · intro b member j attached pointer
      exact ⟨member, attached, pointer⟩

theorem intern_attaches {always countHit : Bool} (homes : Homes w) (interned : Interned w)
    (h : w.intern .http x always countHit i value = .ok w') :
    SameStrings w w' ∨ ∃ s, Attaches w w' x i s := by
  rcases intern_cases h with ⟨-, -, rfl⟩ | ⟨e, n, found, -, -, rfl⟩ | ⟨s, c, acquired, -, -, rfl⟩ |
    ⟨c, failed, -, -, rfl⟩
  · exact Or.inl (sameStrings_refl _)
  · exact Or.inr ⟨e.object, found_attaches homes interned found⟩
  · exact Or.inr ⟨s, acquired_attaches homes interned acquired⟩
  · exact Or.inl (failed_sameStrings failed)

end

theorem attaches_homes {w w' : World} {x : StringField} {i s : Obj} (homes : Homes w)
    (attaches : Attaches w w' x i s) : Homes w' := by
  refine ⟨?_, ?_, ?_⟩
  · intro y t slot
    rw [attaches.items] at slot
    exact homes.slots y t slot
  · intro y e entry
    rcases attaches.entries y e entry with ⟨e₀, old, -, object⟩ | ⟨rfl, rfl, -⟩
    · rw [← object]
      exact homes.entries y e₀ old
    · exact attaches.home
  · intro j y t pointer
    rw [attaches.infos] at pointer
    rcases setString_pointer pointer with old | ⟨rfl, rfl⟩
    · exact homes.pointers j y t old
    · exact attaches.home

theorem attaches_refers {w w' : World} {x y : StringField} {i s t : Obj}
    (attaches : Attaches w w' x i s) (h : Refers w' y t) : Refers w y t ∨ y = x ∧ t = s := by
  obtain ⟨a, member, j, locked, pointer⟩ := h
  rw [attaches.table] at member
  rw [lockInfo, attaches.infoCache, attaches.flows] at locked
  rw [attaches.infos] at pointer
  rcases setString_pointer pointer with old | new
  · exact Or.inl ⟨a, member, j, locked, old⟩
  · exact Or.inr new

/-- A new string was free, so nobody refers to it; a known one is in the map already. -/
theorem attaches_interned {w w' : World} {x : StringField} {i s : Obj} (homes : Homes w)
    (interned : Interned w) (attaches : Attaches w w' x i s) : Interned w' := by
  refine ⟨?_, ?_, ?_, ?_, attaches.ordered⟩
  · intro y e entry
    rcases attaches.entries y e entry with ⟨e₀, old, -, object⟩ | ⟨rfl, rfl, -⟩
    · intro free
      rw [← object] at free
      exact interned.mapped y e₀ old ((attaches.free y).subset free)
    · exact attaches.taken
  · intro y t referred
    rcases attaches_refers attaches referred with old | ⟨rfl, rfl⟩
    · exact fun free => interned.attached y t old ((attaches.free y).subset free)
    · exact attaches.taken
  · intro y
    exact (attaches.free y).nodup (interned.once y)
  · intro y e entry
    rcases attaches.entries y e entry with ⟨e₀, old, key, object⟩ | ⟨rfl, rfl, key⟩
    · rw [← key, ← object, interned.keys y e₀ old]
      rcases attaches.names with same | ⟨free, same⟩
      · rw [same]
      · have apart : e₀.object ≠ s := by
          intro equal
          have home := homes.entries y e₀ old
          rw [equal, attaches.home] at home
          obtain rfl : x = y := by simpa using home
          exact interned.mapped x e₀ old (equal ▸ free)
        rw [same _ apart]
    · exact key

/-! ### Flows that end -/

theorem release_owns {c : Cache} {i j : Obj} (owns : c.Owns i)
    (after : (c.release (some i)).Owns j) : c.Owns j := by
  rcases Cache.release_items after with new | old
  · obtain rfl := Option.some.inj new
    exact owns
  · exact old

theorem release_none_owns {c : Cache} {j : Obj} (after : (c.release none).Owns j) : c.Owns j := by
  rcases Cache.release_items after with new | old
  · exact absurd new (by simp)
  · exact old

/-- Infos go back to their caches; a cache that gets one back owns no other info than before. -/
structure ReturnsInfos (w w' : World) : Prop where
  strings : ∀ x, w'.httpStrings x = w.httpStrings x
  owns : ∀ j, (w'.cache (.info .http)).Owns j → (w.cache (.info .http)).Owns j
  maps : w'.maps = w.maps
  names : w'.names = w.names
  infos : w'.infos = w.infos
  flows : w'.flows = w.flows
  table : w'.table = w.table
  disordered : w'.disordered = w.disordered

theorem returnsInfos_refl (w : World) : ReturnsInfos w w :=
  ⟨fun _ => rfl, fun _ => id, rfl, rfl, rfl, rfl, rfl, rfl⟩

theorem returnsInfos_trans {w₁ w₂ w₃ : World} (first : ReturnsInfos w₁ w₂)
    (second : ReturnsInfos w₂ w₃) : ReturnsInfos w₁ w₃ :=
  ⟨fun x => (second.strings x).trans (first.strings x), fun j owns => first.owns j (second.owns j owns),
    second.maps.trans first.maps, second.names.trans first.names, second.infos.trans first.infos,
    second.flows.trans first.flows, second.table.trans first.table,
    second.disordered.trans first.disordered⟩

theorem releaseTo_returnsInfos {w : World} {id : CacheId} {i : Obj}
    (other : ∀ x, id ≠ .string .http x)
    (owns : id = .info .http → (w.cache (.info .http)).Owns i) :
    ReturnsInfos w (w.releaseTo id (some i)) := by
  refine ⟨fun x => cache_setCache_other (other x).symm, ?_, setCache_maps .., setCache_names ..,
    setCache_infos .., setCache_flows .., setCache_table .., setCache_disordered ..⟩
  intro j after
  by_cases info : id = .info .http
  · subst info
    rw [releaseTo, cache_setCache_same] at after
    exact release_owns (owns rfl) after
  · rw [releaseTo, cache_setCache_other (Ne.symm info)] at after
    exact after

theorem releaseFirst_returnsInfos (w : World) (f : Flow) (ps : List L7Protocol) :
    ReturnsInfos w (w.releaseFirst f ps) := by
  induction ps with
  | nil => exact returnsInfos_refl w
  | cons p rest ih =>
    unfold releaseFirst
    split
    · rename_i i locked
      refine releaseTo_returnsInfos (by simp) ?_
      intro info
      obtain rfl : p = .http := by simpa using info
      exact (lockInfo_some locked).2
    · exact ih

theorem releaseFlow_returnsInfos (w : World) (f : Flow) : ReturnsInfos w (w.releaseFlow f) := by
  unfold releaseFlow
  split
  · refine returnsInfos_trans ?_ (releaseFirst_returnsInfos _ f _)
    unfold releaseTcpInfo
    split
    · split
      · exact releaseTo_returnsInfos (by simp) (by simp)
      · exact returnsInfos_refl w
    · exact returnsInfos_refl w
  · exact returnsInfos_trans (releaseFirst_returnsInfos w f _) (releaseFirst_returnsInfos _ f _)

theorem endFlow_same (w : World) (a : Obj) : SameStrings w (w.endFlow a) := by
  have returns := releaseFlow_returnsInfos w (w.flows a)
  refine ⟨fun x => congrArg Cache.free (returns.strings x),
    fun x => congrArg Cache.items (returns.strings x), returns.maps, returns.names, ?_, ?_,
    returns.disordered⟩
  · intro i x s pointer
    have pointer' : ((w.releaseFlow (w.flows a)).infos i).strings x = some s := pointer
    rwa [returns.infos] at pointer'
  · intro x s referred
    refine refers_back ?_ ?_ referred
    · exact fun j owns => returns.owns j owns
    · intro b member j attached pointer
      have attached' : ((w.releaseFlow (w.flows a)).flows b).info .http = some j := attached
      have pointer' : ((w.releaseFlow (w.flows a)).infos j).strings x = some s := pointer
      rw [returns.flows] at attached'
      rw [returns.infos] at pointer'
      exact ⟨List.mem_of_mem_erase member, attached', pointer'⟩

/-! ### Strings that go back to their pools -/

theorem returned_free {w w' : World} {i : Obj} {x : StringField} {s : Obj}
    (returned : Returned w w' i x) (free : some s ∈ (w'.httpStrings x).free) :
    some s ∈ (w.httpStrings x).free ∨ w.lockString .http ((w.infos i).strings x) = some s := by
  rcases returned with same | ⟨t, locked, given⟩
  · exact Or.inl (same ▸ free)
  · rw [given] at free
    rcases Cache.release_free_cases (w.httpStrings x) (some t) with kept | added
    · exact Or.inl (kept ▸ free)
    · rw [added] at free
      rcases List.mem_append.mp free with old | new
      · exact Or.inl old
      · obtain rfl := Option.some.inj (List.mem_singleton.mp new)
        exact Or.inr locked

theorem returned_once {w w' : World} {i : Obj} {x : StringField}
    (returned : Returned w w' i x) (once : (w.httpStrings x).free.Nodup)
    (held : ∀ t, w.lockString .http ((w.infos i).strings x) = some t →
      some t ∉ (w.httpStrings x).free) : (w'.httpStrings x).free.Nodup := by
  rcases returned with same | ⟨t, locked, given⟩
  · exact same ▸ once
  · rw [given]
    rcases Cache.release_free_cases (w.httpStrings x) (some t) with kept | added
    · exact kept ▸ once
    · rw [added, List.nodup_append]
      refine ⟨once, List.nodup_singleton _, ?_⟩
      intro y old z new same
      rw [List.mem_singleton.mp new] at same
      exact held t locked (same ▸ old)

theorem returned_items {w w' : World} {i : Obj} {x : StringField} {s : Obj}
    (returned : Returned w w' i x) (slot : some s ∈ (w'.httpStrings x).items) :
    some s ∈ (w.httpStrings x).items ∨ (w.infos i).strings x = some s := by
  rcases returned with same | ⟨t, locked, given⟩
  · exact Or.inl (same ▸ slot)
  · rw [given] at slot
    rcases Cache.release_items slot with new | old
    · obtain rfl := Option.some.inj new
      exact Or.inr (lockString_some locked).1
    · exact Or.inl old

theorem reset_pointer {w : World} {i j : Obj} {x : StringField} {s : Obj}
    (h : ((w.setInfo i { w.infos i with strings := fun _ => none }).infos j).strings x = some s) :
    j ≠ i ∧ (w.infos j).strings x = some s := by
  by_cases same : j = i
  · simp [setInfo, same] at h
  · exact ⟨same, by simpa [setInfo, same] using h⟩

theorem homes_release {w : World} {i : Obj} (homes : Homes w) :
    Homes (World.Http.releaseHttpInfo w i) := by
  obtain ⟨rest, infos, returned⟩ := releaseHttpInfo_spec w i
  refine ⟨?_, ?_, ?_⟩
  · intro x s slot
    rcases returned_items (returned x) slot with old | pointer
    · exact homes.slots x s old
    · exact homes.pointers i x s pointer
  · intro x e entry
    rw [rest.maps] at entry
    exact homes.entries x e entry
  · intro j x s pointer
    rw [infos] at pointer
    exact homes.pointers j x s (reset_pointer pointer).2

/-- The strings of the info belong to it alone: no entry and no other live info refers to them. -/
structure Alone (w : World) (i : Obj) : Prop where
  held : ∀ x t, w.lockString .http ((w.infos i).strings x) = some t →
    some t ∉ (w.httpStrings x).free
  unmapped : ∀ x t, w.lockString .http ((w.infos i).strings x) = some t →
    ∀ e ∈ w.maps .http x, e.object ≠ t
  unshared : ∀ x t, w.lockString .http ((w.infos i).strings x) = some t →
    ∀ b ∈ w.table, ∀ j, w.lockInfo .http (w.flows b) = some j → j ≠ i →
      (w.infos j).strings x ≠ some t

theorem interned_release {w : World} {i : Obj} (interned : Interned w) (alone : Alone w i) :
    Interned (World.Http.releaseHttpInfo w i) := by
  obtain ⟨rest, infos, returned⟩ := releaseHttpInfo_spec w i
  refine ⟨?_, ?_, ?_, ?_, fun x => rest.disordered ▸ interned.ordered x⟩
  · intro x e entry free
    rw [rest.maps] at entry
    rcases returned_free (returned x) free with old | locked
    · exact interned.mapped x e entry old
    · exact alone.unmapped x _ locked e entry rfl
  · intro x s ⟨b, member, j, locked, pointer⟩ free
    rw [rest.table] at member
    rw [lockInfo, rest.infoCaches, rest.flows] at locked
    rw [infos] at pointer
    obtain ⟨other, pointer⟩ := reset_pointer pointer
    rcases returned_free (returned x) free with old | released
    · exact interned.attached x s ⟨b, member, j, locked, pointer⟩ old
    · exact alone.unshared x s released b member j locked other pointer
  · intro x
    exact returned_once (returned x) (interned.once x) (alone.held x)
  · intro x e entry
    rw [rest.maps] at entry
    rw [rest.names]
    exact interned.keys x e entry

/-! ### Bans -/

/-- Hits go down and entries go with their last hit; everything else stays. -/
structure DropsHits (w w' : World) : Prop where
  cache : w'.cache = w.cache
  names : w'.names = w.names
  infos : w'.infos = w.infos
  flows : w'.flows = w.flows
  table : w'.table = w.table
  disordered : w'.disordered = w.disordered
  entries : ∀ y, ∀ e ∈ w'.maps .http y,
    ∃ e₀ ∈ w.maps .http y, (w.disordered .http y = false → e₀.key = e.key) ∧ e₀.object = e.object

theorem dropsHits_trans {w₁ w₂ w₃ : World} (first : DropsHits w₁ w₂) (second : DropsHits w₂ w₃) :
    DropsHits w₁ w₃ := by
  refine ⟨second.cache.trans first.cache, second.names.trans first.names,
    second.infos.trans first.infos, second.flows.trans first.flows,
    second.table.trans first.table, second.disordered.trans first.disordered, ?_⟩
  intro y e entry
  obtain ⟨e₁, mid, key₁, object₁⟩ := second.entries y e entry
  obtain ⟨e₀, old, key₀, object₀⟩ := first.entries y e₁ mid
  rw [first.disordered] at key₁
  exact ⟨e₀, old, fun clean => (key₀ clean).trans (key₁ clean), object₀.trans object₁⟩

theorem dropsHits_alive {w w' : World} (drops : DropsHits w w') {q : Option Obj} {t : Obj}
    (locked : w'.lockString .http q = some t) : w.lockString .http q = some t := by
  obtain ⟨rfl, x, listed, owned⟩ := lockString_some locked
  refine lockString_of_alive ⟨x, listed, ?_⟩
  rw [drops.cache] at owned
  rcases owned with slot | entry
  · exact Or.inl slot
  · obtain ⟨e, member, object⟩ := List.mem_map.mp entry
    obtain ⟨e₀, old, -, same⟩ := drops.entries x e member
    exact Or.inr (List.mem_map.mpr ⟨e₀, old, same.trans object⟩)

theorem dropHit_drops (w : World) (x : StringField) (i : Obj) :
    DropsHits w (w.dropHit .http x i) := by
  unfold dropHit
  split
  · exact ⟨rfl, rfl, rfl, rfl, rfl, rfl, fun y e entry => ⟨e, entry, fun _ => rfl, rfl⟩⟩
  · refine ⟨rfl, rfl, rfl, rfl, rfl, rfl, ?_⟩
    intro y e entry
    by_cases field : y = x
    · subst field
      rw [setMap_same] at entry
      by_cases clean : w.disordered .http y = false
      · rw [settle_clean clean] at entry
        obtain ⟨e₀, old, key, object⟩ := mem_removeHit entry
        exact ⟨e₀, old, fun _ => key, object⟩
      · obtain ⟨e₁, mid, object₁, -⟩ := mem_settle entry
        obtain ⟨e₀, old, -, object₀⟩ := mem_removeHit mid
        exact ⟨e₀, old, fun no => absurd no clean, object₀.trans object₁⟩
    · rw [setMap_other fun both => field both.2] at entry
      exact ⟨e, entry, fun _ => rfl, rfl⟩

/-- The entry of a string with one hit is gone after `dropHit`. -/
theorem dropHit_last {w : World} {x : StringField} {i t : Obj} (interned : Interned w)
    (locked : w.lockString .http ((w.infos i).strings x) = some t)
    (last : ∀ e, find (w.maps .http x) (cString (w.names t)) = some e → e.hits ≤ 1) :
    ∀ e ∈ (w.dropHit .http x i).maps .http x, e.object ≠ t := by
  intro e entry same
  obtain ⟨e₀, old, key, object⟩ := (dropHit_drops w x i).entries x e entry
  have name : e.key = cString (w.names t) := by
    rw [← key (interned.ordered x), interned.keys x e₀ old, object, same]
  unfold dropHit at entry
  rw [locked] at entry
  simp only [setMap, true_and, ↓reduceIte, settle_clean (interned.ordered x)] at entry
  exact removeHit_last last e entry name

theorem interned_drops {w w' : World} (interned : Interned w) (drops : DropsHits w w') :
    Interned w' := by
  have strings : ∀ x, w'.httpStrings x = w.httpStrings x :=
    fun x => congrFun drops.cache (.string .http x)
  refine ⟨?_, ?_, ?_, ?_, fun x => drops.disordered ▸ interned.ordered x⟩
  · intro x e entry
    obtain ⟨e₀, old, -, object⟩ := drops.entries x e entry
    rw [strings, ← object]
    exact interned.mapped x e₀ old
  · intro x s ⟨b, member, j, locked, pointer⟩
    rw [drops.table] at member
    rw [lockInfo, drops.cache, drops.flows] at locked
    rw [drops.infos] at pointer
    rw [strings]
    exact interned.attached x s ⟨b, member, j, locked, pointer⟩
  · intro x
    rw [strings]
    exact interned.once x
  · intro x e entry
    obtain ⟨e₀, old, key, object⟩ := drops.entries x e entry
    rw [← key (interned.ordered x), ← object, drops.names]
    exact interned.keys x e₀ old

theorem homes_drops {w w' : World} (homes : Homes w) (drops : DropsHits w w') : Homes w' := by
  refine ⟨?_, ?_, ?_⟩
  · intro x s slot
    have strings : w'.httpStrings x = w.httpStrings x := congrFun drops.cache (.string .http x)
    exact homes.slots x s (strings ▸ slot)
  · intro x e entry
    obtain ⟨e₀, old, -, object⟩ := drops.entries x e entry
    rw [← object]
    exact homes.entries x e₀ old
  · intro i x s pointer
    rw [drops.infos] at pointer
    exact homes.pointers i x s pointer

theorem setBanned_strings (w : World) (i j : Obj) :
    ((w.setBanned i).infos j).strings = (w.infos j).strings := by
  by_cases same : j = i <;> simp [setBanned, setInfo, same]

theorem setBanned_same (w : World) (i : Obj) : SameStrings w (w.setBanned i) := by
  refine ⟨fun _ => rfl, fun _ => rfl, rfl, rfl, ?_, ?_, rfl⟩
  · intro j x s pointer
    rwa [setBanned_strings] at pointer
  · intro x s ⟨b, member, j, locked, pointer⟩
    rw [setBanned_strings] at pointer
    exact ⟨b, member, j, locked, pointer⟩

/-! ### Memory -/

theorem homes_overwrite {w : World} (homes : Homes w) (sight : Nat → MapEntry → Bytes) :
    Homes (w.overwrite sight) := by
  refine ⟨homes.slots, ?_, homes.pointers⟩
  intro x e entry
  obtain ⟨e₀, old, object, -⟩ := mem_settle entry
  rw [← object]
  exact homes.entries x e₀ old

/-- The keys of a map in order refer to strings that are in use. -/
theorem interned_overwrite {w : World} (interned : Interned w) (sight : Nat → MapEntry → Bytes) :
    Interned (w.overwrite sight) := by
  have maps : ∀ x, (w.overwrite sight).maps .http x = w.maps .http x := fun x =>
    overwrite_clean (interned.ordered x) sight
  refine ⟨?_, interned.attached, interned.once, ?_, interned.ordered⟩
  · intro x e entry
    exact interned.mapped x e (maps x ▸ entry)
  · intro x e entry
    exact interned.keys x e (maps x ▸ entry)

/-- When the flow is banned, each string of its info that is alive has the last hit of its entry
(for the host, no entry at all), and no other live info refers to it. -/
def BansAlone (w : World) (a : Obj) : Prop :=
  ∀ i, w.lockInfo .http (w.flows a) = some i → (w.infos i).isBanned = false →
    ∀ x t, w.lockString .http ((w.infos i).strings x) = some t →
      (if x = .ua ∨ x = .uri then
        ∀ e, find (w.maps .http x) (cString (w.names t)) = some e → e.hits ≤ 1
      else ∀ e ∈ w.maps .http x, e.object ≠ t) ∧
      ∀ b ∈ w.table, ∀ j, w.lockInfo .http (w.flows b) = some j → j ≠ i →
        (w.infos j).strings x ≠ some t

theorem releaseHttpInfoCache_interned {w : World} {a i : Obj} (interned : Interned w)
    (member : a ∈ w.table) (locked : w.lockInfo .http (w.flows a) = some i)
    (alone : ∀ x t, w.lockString .http ((w.infos i).strings x) = some t →
      (if x = .ua ∨ x = .uri then
        ∀ e, find (w.maps .http x) (cString (w.names t)) = some e → e.hits ≤ 1
      else ∀ e ∈ w.maps .http x, e.object ≠ t) ∧
      ∀ b ∈ w.table, ∀ j, w.lockInfo .http (w.flows b) = some j → j ≠ i →
        (w.infos j).strings x ≠ some t) :
    Interned (World.Http.releaseHttpInfoCache w i) := by
  have dropsUa := dropHit_drops w .ua i
  have dropsUri := dropHit_drops (w.dropHit .http .ua i) .uri i
  have drops := dropsHits_trans dropsUa dropsUri
  have interned₁ := interned_drops interned dropsUa
  have interned₂ := interned_drops interned drops
  have whole : World.Http.releaseHttpInfoCache w i =
      World.Http.releaseHttpInfo ((w.dropHit .http .ua i).dropHit .http .uri i) i := rfl
  have maps : ∀ y, y ≠ .ua → (w.dropHit .http .ua i).maps .http y = w.maps .http y := by
    intro y field
    unfold dropHit
    split
    · rfl
    · simp [setMap, field]
  rw [whole]
  refine interned_release interned₂ ⟨?_, ?_, ?_⟩
  · intro x t released
    have before := dropsHits_alive drops released
    rw [drops.infos] at before
    have pointer := (lockString_some before).1
    rw [httpStrings, drops.cache]
    exact interned.attached x t ⟨a, member, i, locked, pointer⟩
  · intro x t released e entry
    have mid := dropsHits_alive dropsUri released
    have before := dropsHits_alive dropsUa mid
    rw [dropsUri.infos] at mid before
    rw [dropsUa.infos] at before
    have few := (alone x t before).1
    by_cases isUri : x = .uri
    · subst isUri
      rw [if_pos (Or.inr rfl)] at few
      have few' : ∀ e, find ((w.dropHit .http .ua i).maps .http .uri)
          (cString ((w.dropHit .http .ua i).names t)) = some e → e.hits ≤ 1 := by
        rw [maps _ (by simp), dropsUa.names]
        exact few
      exact dropHit_last interned₁ mid few' e entry
    · obtain ⟨e₁, entry₁, -, object⟩ := dropsUri.entries x e entry
      rw [← object]
      by_cases isUa : x = .ua
      · subst isUa
        rw [if_pos (Or.inl rfl)] at few
        exact dropHit_last interned before few e₁ entry₁
      · rw [if_neg (by simp [isUa, isUri])] at few
        rw [maps x isUa] at entry₁
        exact few e₁ entry₁
  · intro x t released b listed j living other
    have before := dropsHits_alive drops released
    rw [drops.infos] at before
    rw [drops.table] at listed
    rw [lockInfo, drops.cache, drops.flows] at living
    rw [drops.infos]
    exact (alone x t before).2 b listed j living other

end AIEngine.Http
