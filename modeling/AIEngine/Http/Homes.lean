import AIEngine.Applications.HttpHomes
import AIEngine.Http.Exceptions

/-!
# Infos and strings in the runs of HTTP

`releaseCache` gives an empty pointer back for every info that it takes from a flow. Whatever the
pools still own comes from them, though, and so does every string that an info refers to.
-/

namespace AIEngine

namespace World

structure HttpRooted (w : World) : Prop where
  stocked : w.Stocked
  homed : w.HttpHomed
  infos : ∀ i, (w.cache (.info .http)).Owns i → i.home = .info .http

variable {w w' : World} {a i : Obj}

theorem rooted_start (objects : CacheId → Nat) (layer : Option Nat) :
    (start objects layer).HttpRooted := by
  refine ⟨stocked_start objects layer, httpHomed_start objects layer, fun i owned => ?_⟩
  rw [start_cache, Cache.create_eq] at owned
  obtain ⟨k, -, same⟩ := List.mem_map.mp ((List.mem_append.mp owned).resolve_left (by simp))
  exact (Option.some.inj same) ▸ rfl

theorem rooted_info (rooted : w.HttpRooted) (locked : w.lockInfo .http (w.flows a) = some i) :
    i.home = .info .http := rooted.infos i (lockInfo_some locked).2

theorem rooted_attachInfo {r : Option Obj} (rooted : w.HttpRooted)
    (h : w.attachInfo .http a = .ok (r, w')) : w'.HttpRooted := by
  refine ⟨stocked_attachInfo rooted.stocked h, httpHomed_attachInfo rooted.homed h, fun i owned => ?_⟩
  refine rooted.infos i ?_
  rcases attachInfo_cases h with ⟨j, -, -, rfl⟩ | ⟨j, c, -, -, acquired, rfl⟩ | ⟨c, -, failed, rfl⟩
  · exact owned
  · have slots : ((w.setCache (.info .http) c).cache (.info .http)).Owns i := owned
    rw [cache_setCache_same, Cache.Owns, Cache.acquire_items acquired] at slots
    exact slots
  · rw [cache_setCache_same, Cache.Owns, Cache.acquire_items failed] at owned
    exact owned

theorem rooted_intern {x : StringField} {always countHit : Bool} {value : Bytes}
    (rooted : w.HttpRooted) (h : w.intern .http x always countHit i value = .ok w') :
    w'.HttpRooted := by
  refine ⟨stocked_intern rooted.stocked h, httpHomed_intern rooted.homed h, ?_⟩
  rw [(HTTPProtocol.intern_keeps (i := i) h).infoCache]
  exact rooted.infos

theorem rooted_release (own : i.home = .info .http) (rooted : w.HttpRooted) :
    (Http.releaseHttpInfo w i).HttpRooted := by
  have spec := releaseHttpInfo_spec w i
  refine ⟨stocked_returned rooted.stocked spec.2.2, httpHomed_release own rooted.homed, ?_⟩
  rw [spec.1.infoCaches]
  exact rooted.infos

theorem rooted_ban (own : i.home = .info .http) (rooted : w.HttpRooted) :
    (Http.releaseHttpInfoCache (w.setBanned i) i).HttpRooted := by
  have drops := AIEngine.Http.dropsHits_trans (AIEngine.Http.dropHit_drops (w.setBanned i) .ua i)
    (AIEngine.Http.dropHit_drops ((w.setBanned i).dropHit .http .ua i) .uri i)
  refine rooted_release own ⟨?_, ?_, ?_⟩
  · exact stocked_same rooted.stocked fun x => congrFun drops.cache (.string .http x)
  · exact httpHomed_dropHit .uri (httpHomed_dropHit .ua (httpHomed_setBanned i rooted.homed))
  · have same := congrFun drops.cache (.info .http)
    intro j owned
    rw [same] at owned
    exact rooted.infos j owned

theorem rooted_detach (rooted : w.HttpRooted) : (w.detach .http a).HttpRooted := by
  cases locked : w.lockInfo .http (w.flows a) with
  | none =>
    rw [detach_none locked]
    exact rooted
  | some i =>
    have released : (Http.releaseHttpInfo w i).HttpRooted :=
      rooted_release (rooted_info rooted locked) rooted
    refine ⟨stocked_detach rooted.stocked, ?_, fun j owned => ?_⟩
    · rw [detach_eq locked]
      refine httpHomed_same released.homed (fun x s slot => ?_) (fun x => ?_) ?_
      · rw [httpStrings, releaseTo, cache_setCache_other (by simp)] at slot
        exact slot
      · rw [releaseTo, setCache_maps]
        rfl
      · intro j _ x s pointer
        rw [releaseTo, setCache_infos] at pointer
        exact pointer
    · rw [(detach_some locked).1] at owned
      exact rooted.infos j (AIEngine.Http.release_none_owns owned)

theorem rooted_releaseCache (ft : List Obj) (rooted : w.HttpRooted) :
    (w.releaseCache .http ft).HttpRooted := by
  have all : (w.detachAll .http ft).HttpRooted := by
    induction ft generalizing w with
    | nil => exact rooted
    | cons a rest ih => exact ih (rooted_detach rooted)
  refine ⟨stocked_releaseCache ft rooted.stocked, ⟨all.homed.slots, fun x e entry => ?_,
    all.homed.pointers⟩, all.infos⟩
  exact absurd entry (by simp [releaseCache, clearMaps])

theorem rooted_step {e : Http.Event} (rooted : w.HttpRooted)
    (h : AIEngine.Http.step w e = some w') : w'.HttpRooted := by
  cases e with
  | openFlow a layer =>
    simp only [Http.step] at h
    split at h
    · exact absurd h (by simp)
    · have opened := toOption_some h
      have caches := (AIEngine.Http.openTcpFlow_spec opened).1
      refine ⟨stocked_same rooted.stocked fun x => caches _ (by simp),
        httpHomed_openTcpFlow rooted.homed opened, ?_⟩
      rw [caches _ (by simp)]
      exact rooted.infos
  | packet a found =>
    simp only [Http.step] at h
    split at h
    · obtain ⟨r, w₁, attached, rfl | ⟨i, -, -, ran⟩⟩ := processFlow_cases (toOption_some h)
      · exact rooted_attachInfo rooted attached
      · exact runActions_rule (fun _ _ _ _ _ _ => rooted_intern) found
          (rooted_attachInfo rooted attached) ran
    · exact absurd h (by simp)
  | ban a =>
    simp only [Http.step] at h
    split at h
    · obtain ⟨r, w₁, attached, rfl | ⟨i, rfl, -, rfl⟩⟩ := AIEngine.Http.ban_cases (toOption_some h)
      · exact rooted_attachInfo rooted attached
      · have before := rooted_attachInfo rooted attached
        exact rooted_ban (rooted_info before (attachInfo_locked attached)) before
    · exact absurd h (by simp)
  | expire a =>
    simp only [Http.step] at h
    split at h
    · obtain rfl := Option.some.inj h
      have returns := AIEngine.Http.releaseFlow_returnsInfos w (w.flows a)
      exact ⟨stocked_same rooted.stocked returns.strings, httpHomed_endFlow rooted.homed,
        fun i owned => rooted.infos i (returns.owns i owned)⟩
    · exact absurd h (by simp)
  | releaseCache =>
    obtain rfl := Option.some.inj h
    exact rooted_releaseCache w.table rooted
  | memory sight =>
    obtain rfl := Option.some.inj h
    exact ⟨stocked_same rooted.stocked fun _ => rfl, httpHomed_overwrite rooted.homed sight,
      rooted.infos⟩

end World

namespace HTTPProtocol

/-- This holds in every state of every run. -/
theorem always_rooted (objects : CacheId → Nat) (layer : Option Nat) (events : List Event) :
    Transition.Always step (fun s => s.world.HttpRooted) (start objects layer) events := by
  refine Transition.always_of_inv ?_ (World.rooted_start objects layer)
  intro s e t before stepped
  obtain ⟨es, ran⟩ := step_run stepped
  have always : Transition.Always Http.step World.HttpRooted s.world es :=
    Transition.always_of_inv (fun _ _ _ rooted => World.rooted_step rooted) before
  exact Transition.always_final always ran

end HTTPProtocol

end AIEngine
