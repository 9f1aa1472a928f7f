import AIEngine.Applications.ParserWorks
import AIEngine.Sip.ReleaseCache

/-!
# `releaseCache` of SIP, after every run

Packets of any flows keep the strings that are attached or mapped above the free part of their pool.
-/

namespace AIEngine

open Ending World
open Octets (ascii)

theorem Cache.behind_acquire {c c' : Cache} {s : Obj} (h : c.acquire = .ok (some s, c')) :
    c'.behind = some s :: c.behind := by
  obtain ⟨positive, slot, rfl⟩ := Cache.acquire_some h
  have inside : c.total - 1 < c.items.length := (List.getElem?_eq_some_iff.mp slot).1
  have above : c.total - 1 + 1 = c.total := by omega
  change c.items.drop (c.total - 1) = some s :: c.items.drop c.total
  rw [List.drop_eq_getElem_cons inside, (List.getElem?_eq_some_iff.mp slot).2, above]

namespace SIPProtocol

variable {objects : CacheId → Nat} {w w' : World} {s t : SIPProtocol} {a i : Obj}

theorem lent_start (objects : CacheId → Nat) (layer : Option Nat) :
    Lent objects (World.start objects layer) := by
  have same (x : StringField) :
      (World.start objects layer).cache (.string .sip x) = pool objects x := start_cache ..
  refine ⟨pooled_start objects layer, fun x => by rw [same], fun x => ?_, fun j x o pointer => ?_,
    fun x e member => ?_⟩
  · rw [same]
    unfold pool
    rw [Cache.create_eq]
    simp
  · exact absurd pointer (by simp [World.start])
  · exact absurd member (by simp [World.start])

/-- Nothing that concerns the strings may change. -/
theorem lent_same (lent : Lent objects w) (pooled : w'.Pooled)
    (caches : ∀ x, w'.cache (.string .sip x) = w.cache (.string .sip x))
    (maps : w'.maps .sip = w.maps .sip)
    (infos : ∀ j x o, (w'.infos j).strings x = some o → (w.infos j).strings x = some o) :
    Lent objects w' := by
  refine ⟨pooled, fun x => ?_, fun x => ?_, fun j x o pointer => ?_, fun x e member => ?_⟩
  · rw [caches]
    exact lent.items x
  · rw [caches]
    exact lent.bound x
  · rw [caches]
    exact lent.pointers j x o (infos j x o pointer)
  · rw [maps] at member
    rw [caches]
    exact lent.maps x e member

/-- The pool of one field has handed out more, to an info or a map. -/
theorem lent_taken {y : StringField} {c : Cache} {o : Obj} (lent : Lent objects w)
    (pooled : w'.Pooled) (acquired : (w.cache (.string .sip y)).acquire = .ok (some o, c))
    (cache : w'.cache (.string .sip y) = c)
    (others : ∀ x, x ≠ y → w'.cache (.string .sip x) = w.cache (.string .sip x))
    (pointers : ∀ j x q, (w'.infos j).strings x = some q →
      (w.infos j).strings x = some q ∨ x = y ∧ q = o)
    (maps : ∀ x, ∀ e ∈ w'.maps .sip x, (x = y ∧ e.object = o) ∨
      ∃ e₀ ∈ w.maps .sip x, e₀.object = e.object) :
    Lent objects w' := by
  have behind := Cache.behind_acquire acquired
  obtain ⟨-, -, same⟩ := Cache.acquire_some acquired
  have grows {x : StringField} {r : Option Obj} (old : r ∈ (w.cache (.string .sip x)).behind) :
      r ∈ (w'.cache (.string .sip x)).behind := by
    by_cases chosen : x = y
    · subst chosen
      rw [cache, behind]
      exact List.mem_cons_of_mem _ old
    · rw [others x chosen]
      exact old
  have first : some o ∈ (w'.cache (.string .sip y)).behind := by
    rw [cache, behind]
    exact List.mem_cons_self
  refine ⟨pooled, fun x => ?_, fun x => ?_, fun j x q pointer => ?_, fun x e member => ?_⟩
  · by_cases chosen : x = y
    · rw [chosen, cache, same]
      exact lent.items y
    · rw [others x chosen]
      exact lent.items x
  · by_cases chosen : x = y
    · have bound := lent.bound y
      rw [chosen, cache, same]
      exact (Nat.sub_le _ 1).trans bound
    · rw [others x chosen]
      exact lent.bound x
  · rcases pointers j x q pointer with old | ⟨rfl, rfl⟩
    · exact grows (lent.pointers j x q old)
    · exact first
  · rcases maps x e member with ⟨rfl, new⟩ | ⟨e₀, old, object⟩
    · rw [new]
      exact first
    · rw [← object]
      exact grows (lent.maps x e₀ old)

theorem object_hit {x y : StringField} {value : Bytes} {n : Int} {e : MapEntry}
    (member : e ∈ (w.setMap .sip y (addHits (w.maps .sip y) value n)).maps .sip x) :
    ∃ e₀ ∈ w.maps .sip x, e₀.object = e.object := by
  by_cases same : x = y
  · subst same
    rw [setMap_same] at member
    obtain ⟨e₁, hit, object₁, -⟩ := mem_settle member
    obtain ⟨e₀, old, -, object⟩ := mem_addHits hit
    exact ⟨e₀, old, object.trans object₁⟩
  · rw [setMap_other fun both => same both.2] at member
    exact ⟨e, member, rfl⟩

theorem object_new {w₀ : World} {x y : StringField} {value : Bytes} {o : Obj} {new e : MapEntry}
    (maps : w₀.maps = (w.setName o value).maps)
    (member : e ∈ (w₀.setMap .sip y (insert ((w.setName o value).maps .sip y) new)).maps .sip x) :
    (x = y ∧ e.object = new.object) ∨ ∃ e₀ ∈ w.maps .sip x, e₀.object = e.object := by
  by_cases same : x = y
  · subst same
    rw [setMap_same] at member
    obtain ⟨e₁, inserted, object₁, -⟩ := mem_settle member
    rcases mem_insert inserted with rfl | named
    · exact .inl ⟨rfl, object₁.symm⟩
    · obtain ⟨e₀, old, object, -⟩ := mem_setName named
      exact .inr ⟨e₀, old, object.trans object₁⟩
  · rw [setMap_other fun both => same both.2, maps] at member
    obtain ⟨e₀, old, object, -⟩ := mem_setName member
    exact .inr ⟨e₀, old, object⟩

theorem lent_found {y : StringField} {value : Bytes} {n : Int} {e : MapEntry}
    (lent : Lent objects w) (found : e ∈ w.maps .sip y)
    (stored : w' = (w.setMap .sip y (addHits (w.maps .sip y) value n)).setString i y (some e.object))
    (pooled : w'.Pooled) : Lent objects w' := by
  subst stored
  refine ⟨pooled, lent.items, lent.bound, fun j x q pointer => ?_, fun x e' member => ?_⟩
  · rcases setString_pointer pointer with old | ⟨rfl, rfl⟩
    · exact lent.pointers j x q old
    · exact lent.maps x e found
  · obtain ⟨e₀, old, object⟩ := object_hit member
    rw [← object]
    exact lent.maps x e₀ old

theorem lent_intern {y : StringField} {always countHit : Bool} {value : Bytes}
    (lent : Lent objects w) (h : w.intern .sip y always countHit i value = .ok w') :
    Lent objects w' := by
  have pooled : w'.Pooled :=
    pooled_touches lent.pooled (touches_one (a := i) (.string y always countHit value h))
  rcases intern_cases h with ⟨-, -, rfl⟩ | ⟨e, n, found, -, -, stored⟩ |
    ⟨o, c, acquired, -, -, rfl⟩ |
    ⟨c, failed, -, -, rfl⟩
  · exact lent
  · exact lent_found lent (find_some found).1 stored pooled
  · refine lent_taken lent pooled acquired ?_ (fun x other => ?_) (fun j x q pointer => ?_)
      fun x e member => ?_
    · exact (string_setCache w c).trans (if_pos rfl)
    · exact (string_setCache w c).trans (if_neg other)
    · rcases setString_pointer pointer with old | new
      · change ((w.setCache (.string .sip y) c).infos j).strings x = some q at old
        rw [setCache_infos] at old
        exact .inl old
      · exact .inr new
    · have maps : (((w.setCache (.string .sip y) c).setName o value).setString i y (some o)).maps =
          (w.setName o value).maps := rfl
      exact object_new maps member
  · obtain ⟨-, same⟩ := Cache.acquire_none failed
    have parts (x : StringField) :
        ((w.setCache (.string .sip y) c).cache (.string .sip x)).items =
          (w.cache (.string .sip x)).items ∧
        ((w.setCache (.string .sip y) c).cache (.string .sip x)).total =
          (w.cache (.string .sip x)).total := by
      rw [string_setCache]
      split
      · rename_i chosen
        rw [same, chosen]
        exact ⟨rfl, rfl⟩
      · exact ⟨rfl, rfl⟩
    have behind (x : StringField) : ((w.setCache (.string .sip y) c).cache (.string .sip x)).behind =
        (w.cache (.string .sip x)).behind := by
      unfold Cache.behind
      rw [(parts x).1, (parts x).2]
    refine ⟨pooled, fun x => ?_, fun x => ?_, fun j x q pointer => ?_, fun x e member => ?_⟩
    · rw [(parts x).1]
      exact lent.items x
    · rw [(parts x).1, (parts x).2]
      exact lent.bound x
    · rw [setCache_infos] at pointer
      rw [behind]
      exact lent.pointers j x q pointer
    · rw [setCache_maps] at member
      rw [behind]
      exact lent.maps x e member

theorem lent_touches (lent : Lent objects w) (h : Touches .sip a i w w') : Lent objects w' := by
  refine touches_rule (fun u u' inv touch => ?_) lent h
  cases touch with
  | string x always countHit value attached => exact lent_intern inv attached
  | anomaly pa noted =>
    have pooled : u'.Pooled :=
      pooled_touches inv.pooled (touches_one (p := .sip) (i := i) (.anomaly pa noted))
    rw [noted] at pooled ⊢
    exact lent_same inv pooled (fun _ => rfl) rfl fun _ _ _ pointer => pointer
  | ban marks banned => exact absurd marks (by decide)

theorem lent_attachInfo {r : Option Obj} (lent : Lent objects w)
    (h : w.attachInfo .sip a = .ok (r, w')) : Lent objects w' := by
  have pooled := pooled_attachInfo lent.pooled h
  rcases attachInfo_cases h with ⟨j, -, -, rfl⟩ | ⟨j, c, -, -, -, rfl⟩ | ⟨c, -, -, rfl⟩
  · exact lent
  · refine lent_same lent pooled (fun x => ?_) ?_ fun k x o pointer => ?_
    · change (w.setCache (.info .sip) c).cache (.string .sip x) = _
      exact cache_setCache_other (by simp)
    · simp [setFlow, setInfo]
    · change ((if k = j then ({} : Info) else (w.setCache (.info .sip) c).infos k).strings x) = some o
        at pointer
      split at pointer
      · exact absurd pointer (by simp)
      · rw [setCache_infos] at pointer
        exact pointer
  · refine lent_same lent pooled (fun x => cache_setCache_other (by simp)) (by simp)
      fun k x o pointer => ?_
    rw [setCache_infos] at pointer
    exact pointer

theorem lent_handled {grew : Prop} (lent : Lent objects w) (h : Handled .sip a grew w w') :
    Lent objects w' := by
  have marked (f : Flow) (pointers : ∀ q, f.info q = (w.flows a).info q) :
      Lent objects (w.setFlow a f) :=
    lent_same lent (pooled_setFlow lent.pooled pointers) (fun _ => rfl) rfl fun _ _ _ pointer => pointer
  cases h with
  | noted f pointers written kept =>
    rw [written]
    exact marked f pointers
  | without f pointers failed kept => exact lent_attachInfo (marked f pointers) failed
  | worked f pointers j w₁ attached touches counted =>
    exact lent_touches (lent_attachInfo (marked f pointers) attached) touches

theorem lent_step {e : Event} (lent : Lent objects s.world) (stepped : s.step e = some t) :
    Lent objects t.world := by
  cases e with
  | openFlow a =>
    simp only [step] at stepped
    split at stepped
    · exact absurd stepped (by simp)
    · rename_i fresh
      obtain rfl := Option.some.inj stepped
      exact lent_same lent (pooled_openUdpFlow lent.pooled fresh) (fun _ => rfl) rfl
        fun _ _ _ pointer => pointer
  | packet a packet =>
    simp only [step] at stepped
    split at stepped
    · have handled := ends_value (processFlow_handled (a := a) packet lent.pooled.filled)
        (toOption_some stepped)
      exact lent_handled lent handled
    · exact absurd stepped (by simp)
  | endFlow a =>
    simp only [step] at stepped
    split at stepped
    · rename_i live
      obtain rfl := Option.some.inj stepped
      have returned := AIEngine.Http.releaseFlow_returnsInfos s.world (s.world.flows a)
      refine lent_same lent (pooled_endFlow lent.pooled live) (fun x => releaseFlow_strings ..)
        (congrFun returned.maps .sip) fun j x o pointer => ?_
      change ((s.world.releaseFlow (s.world.flows a)).infos j).strings x = some o at pointer
      rw [returned.infos] at pointer
      exact pointer
    · exact absurd stepped (by simp)

/-- The pools are restored when no via is out and the strings of the other fields come back from the
flows one by one, whatever the order of the flow table. -/
theorem always_restores_iff (objects : CacheId → Nat) (exec : Header → Bytes → Option Bytes)
    (events : List Event) :
    Transition.Always step (fun s => ∀ ft : List Obj, ft.Perm s.world.table →
        (Restores objects (s.world.releaseCache .sip ft) ↔ Returnable s.world ft))
      (plugged objects exec) events := by
  have lent : Transition.Always step (fun s => Lent objects s.world) (plugged objects exec) events :=
    Transition.always_of_inv (fun _ _ _ lent stepped => lent_step lent stepped)
      (lent_start objects none)
  exact Transition.always_mono (fun s lent ft listed => restores_iff lent listed) lent

/-- A flow with a via: it is given to the cache of `to`. -/
theorem not_always_restores :
    ¬∀ (objects : CacheId → Nat) (exec : Header → Bytes → Option Bytes) (events : List Event),
      Transition.Always step (fun s => ∀ ft : List Obj, ft.Perm s.world.table →
          Restores objects (s.world.releaseCache .sip ft))
        (plugged objects exec) events := by
  intro all
  have always := all (fun _ => 1) (fun x => lineOf x.name)
    [.openFlow ⟨.flow 0, 0⟩, .packet ⟨.flow 0, 0⟩ (request [0x61])]
  have lost : ((Transition.run step (plugged (fun _ => 1) fun x => lineOf x.name)
      [.openFlow ⟨.flow 0, 0⟩, .packet ⟨.flow 0, 0⟩ (request [0x61])]).any fun s =>
        decide (s.world.table = [⟨.flow 0, 0⟩] ∧
          ((s.world.releaseCache .sip [⟨.flow 0, 0⟩]).cache (.string .sip .via)).free = [])) =
            true := by
    decide +kernel
  obtain ⟨s, reached, found⟩ := (Option.any_eq_true _ _).mp lost
  obtain ⟨table, free⟩ := of_decide_eq_true found
  have restores := Transition.always_final always reached [⟨.flow 0, 0⟩] (by rw [table])
  have size := (restores .via (by decide)).length_eq
  rw [free] at size
  exact absurd size (by decide)

end SIPProtocol

end AIEngine
