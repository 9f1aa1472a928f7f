import AIEngine.Resources.HttpHits

/-!
# Bans and flows that end, and the hit counters

A ban drops the hits of the user agent and of the uri, and forgets the one of the host. A flow that
ends drops none. Every run in which that costs no reference of a mapped string keeps exact counters.
-/

namespace AIEngine.Http

open World

/-! ### Bans -/

/-- The info of a flow that is banned has no string of the map of hosts, and its user agent and its
uri, when they are alive, are what the maps have under their names. -/
def BanCounts (w : World) (i : Obj) : Prop :=
  (∀ x, x ≠ .ua → x ≠ .uri → ∀ e ∈ w.maps .http x, (w.infos i).strings x ≠ some e.object) ∧
  ∀ x, x = .ua ∨ x = .uri → ∀ s, w.lockString .http ((w.infos i).strings x) = some s →
    ∀ e, find (w.maps .http x) (cString (w.names s)) = some e → e.object = s

/-- The entries of a map after one hit less on a key. -/
theorem removeHit_spec (m : List MapEntry) (key : Bytes) :
    (((m.map MapEntry.key).Nodup → ((removeHit m key).map MapEntry.key).Nodup) ∧
      ((m.map MapEntry.object).Nodup → ((removeHit m key).map MapEntry.object).Nodup)) ∧
    ∀ e ∈ removeHit m key, ∃ e₀ ∈ m, e.key = e₀.key ∧ e.object = e₀.object ∧
      e.hits = e₀.hits + if e₀.key = key then -1 else 0 := by
  unfold removeHit
  split
  · rename_i absent
    refine ⟨⟨id, id⟩, fun e entry => ⟨e, entry, rfl, rfl, ?_⟩⟩
    rw [if_neg (find_none absent e entry), Int.add_zero]
  · split
    · have sub : (erase m key).Sublist m := List.filter_sublist
      refine ⟨⟨(sub.map _).nodup, (sub.map _).nodup⟩, fun e entry => ?_⟩
      obtain ⟨old, other⟩ := List.mem_filter.mp entry
      refine ⟨e, old, rfl, rfl, ?_⟩
      rw [if_neg (of_decide_eq_true other), Int.add_zero]
    · obtain ⟨keys, objects, hits⟩ := addHits_spec m key (-1)
      refine ⟨⟨fun nodup => ?_, fun nodup => ?_⟩, hits⟩
      · rw [keys]
        exact nodup
      · rw [objects]
        exact nodup

/-- The hit that is dropped is the one of the string that the info refers to. -/
theorem dropHit_spec {w : World} {i : Obj} {x : StringField}
    (keys : ((w.maps .http x).map MapEntry.key).Nodup) (ordered : w.disordered .http x = false)
    (named : ∀ e ∈ w.maps .http x, e.key = cString (w.names e.object))
    (own : ∀ s, w.lockString .http ((w.infos i).strings x) = some s →
      ∀ e, find (w.maps .http x) (cString (w.names s)) = some e → e.object = s) :
    ∀ e ∈ (w.dropHit .http x i).maps .http x, ∃ e₀ ∈ w.maps .http x, e.key = e₀.key ∧
      e.object = e₀.object ∧
      e.hits = e₀.hits + if (w.infos i).strings x = some e₀.object then -1 else 0 := by
  intro e entry
  unfold dropHit at entry
  split at entry
  · rename_i expired
    refine ⟨e, entry, rfl, rfl, ?_⟩
    rw [if_neg (expired_unmapped expired e entry), Int.add_zero]
  · rename_i s locked
    have pointer := (lockString_some locked).1
    rw [setMap_same, settle_clean ordered] at entry
    obtain ⟨e₀, old, key, object, hits⟩ := (removeHit_spec _ _).2 e entry
    refine ⟨e₀, old, key, object, ?_⟩
    have same : e₀.key = cString (w.names s) ↔ (w.infos i).strings x = some e₀.object := by
      rw [pointer, Option.some.injEq]
      constructor
      · intro name
        cases found : find (w.maps .http x) (cString (w.names s)) with
        | none => exact absurd name (find_none found e₀ old)
        | some e₁ =>
          obtain ⟨known, name₁⟩ := find_some found
          rw [same_of_key keys old known (name.trans name₁.symm)]
          exact (own s locked e₁ found).symm
      · intro object
        rw [object]
        exact named e₀ old
    rw [hits]
    by_cases name : e₀.key = cString (w.names s)
    · rw [if_pos name, if_pos (same.mp name)]
    · rw [if_neg name, if_neg (fun pointer => name (same.mpr pointer))]

theorem dropHit_nodup {w : World} {i : Obj} {x y : StringField}
    (ordered : w.disordered .http y = false)
    (keys : ((w.maps .http y).map MapEntry.key).Nodup)
    (objects : ((w.maps .http y).map MapEntry.object).Nodup) :
    (((w.dropHit .http x i).maps .http y).map MapEntry.key).Nodup ∧
      (((w.dropHit .http x i).maps .http y).map MapEntry.object).Nodup := by
  unfold dropHit
  split
  · exact ⟨keys, objects⟩
  · by_cases field : y = x
    · subst field
      rw [setMap_same, settle_clean ordered]
      obtain ⟨⟨removed, removed'⟩, -⟩ := removeHit_spec (w.maps .http y) (cString (w.names ‹Obj›))
      exact ⟨removed keys, removed' objects⟩
    · simp only [setMap, field, and_false, if_false]
      exact ⟨keys, objects⟩

theorem dropHit_other {w : World} {i : Obj} {x y : StringField} (field : y ≠ x) :
    (w.dropHit .http x i).maps .http y = w.maps .http y := by
  unfold dropHit
  split
  · rfl
  · simp [setMap, field]

/-- What a ban does to the maps of HTTP: nothing to the hosts, and one hit less for the user agent and
the uri of the info. -/
theorem releaseHttpInfoCache_maps {w : World} {i : Obj} {held : List Obj}
    (counted : Counted w held) (counts : BanCounts w i) (y : StringField) :
    (((World.Http.releaseHttpInfoCache (w.setBanned i) i).maps .http y).map MapEntry.key).Nodup ∧
    (((World.Http.releaseHttpInfoCache (w.setBanned i) i).maps .http y).map
      MapEntry.object).Nodup ∧
    ∀ e ∈ (World.Http.releaseHttpInfoCache (w.setBanned i) i).maps .http y,
      ∃ e₀ ∈ w.maps .http y, e.key = e₀.key ∧ e.object = e₀.object ∧
        e.hits = e₀.hits + if (w.infos i).strings y = some e₀.object then -1 else 0 := by
  have strings : ∀ x, ((w.setBanned i).infos i).strings x = (w.infos i).strings x := by
    intro x
    rw [setBanned_strings]
  have dropsUa := dropHit_drops (w.setBanned i) .ua i
  have whole : (World.Http.releaseHttpInfoCache (w.setBanned i) i).maps =
      (((w.setBanned i).dropHit .http .ua i).dropHit .http .uri i).maps :=
    (releaseHttpInfo_spec _ i).1.maps
  rw [whole]
  have ordered : ∀ x, ((w.setBanned i).dropHit .http .ua i).disordered .http x = false := by
    intro x
    rw [dropsUa.disordered]
    exact counted.ordered x
  have mid := dropHit_nodup (w := w.setBanned i) (i := i) (x := .ua) (counted.ordered y)
    (counted.keys y) (counted.objects y)
  obtain ⟨keys, objects⟩ := dropHit_nodup (i := i) (x := .uri) (ordered y) mid.1 mid.2
  refine ⟨keys, objects, ?_⟩
  by_cases isUri : y = .uri
  · subst isUri
    have maps : ((w.setBanned i).dropHit .http .ua i).maps .http .uri = w.maps .http .uri :=
      dropHit_other (by simp)
    have own : ∀ s, ((w.setBanned i).dropHit .http .ua i).lockString .http
        ((((w.setBanned i).dropHit .http .ua i).infos i).strings .uri) = some s →
        ∀ e, find (((w.setBanned i).dropHit .http .ua i).maps .http .uri)
          (cString (((w.setBanned i).dropHit .http .ua i).names s)) = some e → e.object = s := by
      intro s locked e found
      have locked₀ := dropsHits_alive dropsUa locked
      rw [dropsUa.infos, strings] at locked₀
      rw [maps, dropsUa.names] at found
      exact counts.2 .uri (Or.inr rfl) s locked₀ e found
    have dropped := dropHit_spec (by rw [maps]; exact counted.keys .uri) (ordered .uri)
      (by rw [maps, dropsUa.names]; exact counted.named .uri) own
    rw [maps, dropsUa.infos, strings] at dropped
    exact dropped
  · rw [dropHit_other isUri]
    by_cases isUa : y = .ua
    · subst isUa
      have own : ∀ s, (w.setBanned i).lockString .http
          (((w.setBanned i).infos i).strings .ua) = some s →
          ∀ e, find (w.maps .http .ua) (cString (w.names s)) = some e → e.object = s := by
        intro s locked e found
        rw [strings] at locked
        exact counts.2 .ua (Or.inl rfl) s locked e found
      have dropped := dropHit_spec (w := w.setBanned i) (counted.keys .ua) (counted.ordered .ua)
        (counted.named .ua) own
      rw [strings] at dropped
      exact dropped
    · rw [dropHit_other isUa]
      intro e entry
      have entry₀ : e ∈ w.maps .http y := entry
      refine ⟨e, entry₀, rfl, rfl, ?_⟩
      rw [if_neg (counts.1 y isUa isUri e entry₀), Int.add_zero]

/-- When an info forgets its strings, each of them has one reference less. -/
theorem forget_count {w w' : World} {a i s : Obj} {y : StringField} {held : List Obj}
    (assigned : Assigned w held) (live : a ∈ w.table)
    (locked : w.lockInfo .http (w.flows a) = some i)
    (lock : ∀ b, w'.lockInfo .http (w'.flows b) = w.lockInfo .http (w.flows b))
    (own : (w'.infos i).strings y = none)
    (other : ∀ j, j ≠ i → (w'.infos j).strings = (w.infos j).strings) :
    (w.table.countP (uses w' y s) : Int) =
      w.table.countP (uses w y s) + if (w.infos i).strings y = some s then -1 else 0 := by
  have others : ∀ b ∈ w.table, b ≠ a → uses w' y s b = uses w y s b := by
    intro b live' different
    unfold uses
    rw [lock]
    cases locked' : w.lockInfo .http (w.flows b) with
    | none => rfl
    | some j =>
      have apart : j ≠ i := by
        rintro rfl
        exact different
          (assigned.apart b live' a live j (lockInfo_pointer locked') (lockInfo_pointer locked))
      simp only [Option.any_some, other j apart]
  have agree := countP_agree (p := uses w' y s) (q := uses w y s) assigned.nodup live others
  have after : uses w' y s a = false := by
    unfold uses
    rw [lock, locked]
    simp [own]
  have before : uses w y s a = decide ((w.infos i).strings y = some s) := by
    unfold uses
    rw [locked]
    rfl
  rw [after, before] at agree
  by_cases same : (w.infos i).strings y = some s
  · simp only [same, decide_true, if_true, Bool.false_eq_true, if_false] at agree ⊢
    omega
  · simp only [same, decide_false, if_false, Bool.false_eq_true] at agree ⊢
    omega

/-- After the ban the info refers to nothing, and the others refer to what they did. -/
theorem ban_counted {w : World} {a i : Obj} {held : List Obj} (counted : Counted w held)
    (live : a ∈ w.table) (locked : w.lockInfo .http (w.flows a) = some i)
    (counts : BanCounts w i) :
    Counted (World.Http.releaseHttpInfoCache (w.setBanned i) i) held := by
  have drops := dropsHits_trans (dropHit_drops (w.setBanned i) .ua i)
    (dropHit_drops ((w.setBanned i).dropHit .http .ua i) .uri i)
  obtain ⟨rest, reset, -⟩ := releaseHttpInfo_spec
    (((w.setBanned i).dropHit .http .ua i).dropHit .http .uri i) i
  have maps := releaseHttpInfoCache_maps counted counts
  have cache : (World.Http.releaseHttpInfoCache (w.setBanned i) i).cache (.info .http) =
      w.cache (.info .http) := (rest.infoCaches .http).trans (congrFun drops.cache _)
  have flows : (World.Http.releaseHttpInfoCache (w.setBanned i) i).flows = w.flows :=
    rest.flows.trans drops.flows
  have table : (World.Http.releaseHttpInfoCache (w.setBanned i) i).table = w.table :=
    rest.table.trans drops.table
  have names : (World.Http.releaseHttpInfoCache (w.setBanned i) i).names = w.names :=
    rest.names.trans drops.names
  have ordered : ∀ x, (World.Http.releaseHttpInfoCache (w.setBanned i) i).disordered .http x =
      false := by
    intro x
    rw [show (World.Http.releaseHttpInfoCache (w.setBanned i) i).disordered = w.disordered from
      rest.disordered.trans drops.disordered]
    exact counted.ordered x
  have own : ∀ x, ((World.Http.releaseHttpInfoCache (w.setBanned i) i).infos i).strings x =
      none := by
    intro x
    rw [show (World.Http.releaseHttpInfoCache (w.setBanned i) i).infos = _ from reset]
    simp [setInfo]
  have other : ∀ j, j ≠ i →
      ((World.Http.releaseHttpInfoCache (w.setBanned i) i).infos j).strings =
        (w.infos j).strings := by
    intro j different
    rw [show (World.Http.releaseHttpInfoCache (w.setBanned i) i).infos = _ from reset]
    rw [← setBanned_strings w i j, ← drops.infos]
    simp [setInfo, different]
  generalize World.Http.releaseHttpInfoCache (w.setBanned i) i = w' at *
  have lock : ∀ b, w'.lockInfo .http (w'.flows b) = w.lockInfo .http (w.flows b) := by
    intro b
    unfold lockInfo
    rw [cache, flows]
  refine ⟨?_, fun y => (maps y).1, fun y => (maps y).2.1, ?_, ?_, ordered⟩
  · show Pool.Assigned (w'.cache (.info .http)) w'.table (pointer w') held
    rw [cache, table]
    refine Pool.assigned_congr counted.assigned fun b _ => ?_
    unfold pointer
    rw [flows]
  · intro y e entry
    obtain ⟨e₀, old, key, object, -⟩ := (maps y).2.2 e entry
    rw [key, object, names]
    exact counted.named y e₀ old
  · intro y e entry
    obtain ⟨e₀, old, -, object, hits⟩ := (maps y).2.2 e entry
    rw [hits, object, table, counted.hits y e₀ old]
    exact (forget_count counted.assigned live locked lock (own y) other).symm

/-! ### Flows that end -/

/-- An info that the end of the flow takes away from a live flow, its own or one whose slot the
release overwrites, refers to no string of a map. -/
def ExpireCounts (w : World) (a : Obj) : Prop :=
  ∀ b ∈ w.table, ∀ j, w.lockInfo .http (w.flows b) = some j →
    (b = a ∨ ∃ i, w.lockInfo .http (w.flows a) = some i ∧
      ¬((w.cache (.info .http)).release (some i)).Owns j) →
    ∀ x, ∀ e ∈ w.maps .http x, (w.infos j).strings x ≠ some e.object

theorem endFlow_owns {w : World} (a : Obj) {j : Obj} (owned : (w.cache (.info .http)).Owns j) :
    ((w.endFlow a).cache (.info .http)).Owns j ∨ ∃ i, w.lockInfo .http (w.flows a) = some i ∧
      ¬((w.cache (.info .http)).release (some i)).Owns j := by
  rcases releaseFlow_returns w (w.flows a) .http with same | ⟨i, locked, given⟩
  · refine Or.inl ?_
    show ((w.releaseFlow (w.flows a)).cache (.info .http)).Owns j
    rw [same]
    exact owned
  · by_cases kept : ((w.cache (.info .http)).release (some i)).Owns j
    · refine Or.inl ?_
      show ((w.releaseFlow (w.flows a)).cache (.info .http)).Owns j
      rw [given]
      exact kept
    · exact Or.inr ⟨i, locked, kept⟩

theorem endFlow_assigned {w : World} {a : Obj} {held : List Obj} (assigned : Assigned w held)
    (live : a ∈ w.table) : ∃ held', Assigned (w.endFlow a) held' := by
  have returns := releaseFlow_returnsInfos w (w.flows a)
  have flows : ∀ b ∈ w.table.erase a, pointer (w.endFlow a) b = pointer w b := by
    intro b _
    unfold pointer
    rw [show (w.endFlow a).flows = w.flows from returns.flows]
  rcases releaseFlow_returns w (w.flows a) .http with same | ⟨i, locked, given⟩
  · refine ⟨held, ?_⟩
    show Pool.Assigned ((w.releaseFlow (w.flows a)).cache (.info .http)) (w.table.erase a) _ held
    rw [same]
    exact Pool.assigned_congr (Pool.assigned_leave assigned) flows
  · refine ⟨held.erase i, ?_⟩
    show Pool.Assigned ((w.releaseFlow (w.flows a)).cache (.info .http)) (w.table.erase a) _ _
    rw [given]
    exact Pool.assigned_congr (Pool.assigned_release assigned live (lockInfo_pointer locked)) flows

theorem endFlow_counted {w : World} {a : Obj} {held : List Obj} (counted : Counted w held)
    (live : a ∈ w.table) (counts : ExpireCounts w a) : ∃ held', Counted (w.endFlow a) held' := by
  have returns := releaseFlow_returnsInfos w (w.flows a)
  obtain ⟨held', assigned⟩ := endFlow_assigned counted.assigned live
  have maps : (w.endFlow a).maps = w.maps := returns.maps
  have names : (w.endFlow a).names = w.names := returns.names
  have flows : (w.endFlow a).flows = w.flows := returns.flows
  have infos : (w.endFlow a).infos = w.infos := returns.infos
  refine ⟨held', assigned, ?_, ?_, ?_, ?_, fun x => returns.disordered ▸ counted.ordered x⟩
  · rw [maps]
    exact counted.keys
  · rw [maps]
    exact counted.objects
  · rw [maps, names]
    exact counted.named
  · intro x e entry
    rw [maps] at entry
    have unused : uses w x e.object a = false := by
      apply Bool.eq_false_iff.mpr
      intro used
      obtain ⟨i, locked, refers⟩ := uses_iff.mp used
      exact counts a live i locked (Or.inl rfl) x e entry refers
    have kept : ∀ b ∈ w.table.erase a, (uses (w.endFlow a) x e.object b = true ↔
        uses w x e.object b = true) := by
      intro b left
      obtain ⟨live', different⟩ := Pool.erase_live counted.assigned left
      rw [uses_iff, uses_iff, flows, infos]
      constructor
      · rintro ⟨j, locked, refers⟩
        obtain ⟨at', owned⟩ := lockInfo_some locked
        refine ⟨j, ?_, refers⟩
        rw [lockInfo, at']
        exact Cache.lock_of_owns (returns.owns j owned)
      · rintro ⟨j, locked, refers⟩
        obtain ⟨at', owned⟩ := lockInfo_some locked
        rcases endFlow_owns a owned with still | lost
        · refine ⟨j, ?_, refers⟩
          rw [lockInfo, at']
          exact Cache.lock_of_owns still
        · exact absurd refers (counts b live' j locked (Or.inr lost) x e entry)
    have perm := List.perm_cons_erase live
    rw [counted.hits x e entry, perm.countP_eq, List.countP_cons, unused]
    show ((_ : Nat) : Int) = ((w.table.erase a).countP _ : Nat)
    rw [List.countP_congr kept]
    simp

/-! ### Every run -/

/-- The step changes counters and references alike. A run of packets, bans and expiries has no
`releaseCache`. -/
def Counts (w : World) : Event → World → Prop
  | .openFlow _ _, _ => True
  | .packet a found, _ => ∀ i w₁, w.attachInfo .http a = .ok (some i, w₁) →
      (w₁.infos i).isBanned = false → EachCounts i w₁ found
  | .ban a, _ => ∀ i w₁, w.attachInfo .http a = .ok (some i, w₁) →
      (w₁.infos i).isBanned = false → BanCounts w₁ i
  | .expire a, _ => ExpireCounts w a
  | .releaseCache, _ => False
  | .memory _, _ => True

/-- The keys of a map in order do not change with freed memory. -/
theorem overwrite_counted {w : World} {held : List Obj} (counted : Counted w held)
    (sight : Nat → MapEntry → Bytes) : Counted (w.overwrite sight) held := by
  have maps : ∀ x, (w.overwrite sight).maps .http x = w.maps .http x := fun x =>
    overwrite_clean (counted.ordered x) sight
  refine ⟨counted.assigned, ?_, ?_, ?_, ?_, counted.ordered⟩
  · intro x
    rw [maps]
    exact counted.keys x
  · intro x
    rw [maps]
    exact counted.objects x
  · intro x e entry
    exact counted.named x e (maps x ▸ entry)
  · intro x e entry
    exact counted.hits x e (maps x ▸ entry)

theorem attachInfo_live {w w' : World} {a : Obj} {r : Option Obj} (live : a ∈ w.table)
    (h : w.attachInfo .http a = .ok (r, w')) : a ∈ w'.table := by
  rcases attachInfo_cases h with ⟨i, -, -, rfl⟩ | ⟨i, c, -, -, -, rfl⟩ | ⟨c, -, -, rfl⟩
  · exact live
  · exact live
  · rw [setCache_table]
    exact live

theorem counted_step {w w' : World} {e : Event} (counted : ∃ held, Counted w held)
    (h : step w e = some w') (counts : Counts w e w') : ∃ held, Counted w' held := by
  obtain ⟨held, counted⟩ := counted
  cases e with
  | openFlow a layer =>
    simp only [step] at h
    split at h
    · exact absurd h (by simp)
    · rename_i fresh
      exact ⟨held, openTcpFlow_counted counted fresh (toOption_some h)⟩
  | packet a found =>
    simp only [step] at h
    split at h
    · rename_i live
      obtain ⟨r, w₁, attached, rest⟩ := processFlow_cases (toOption_some h)
      obtain ⟨held', counted'⟩ := attachInfo_counted counted attached
      rcases rest with rfl | ⟨i, rfl, notBanned, ran⟩
      · exact ⟨held', counted'⟩
      · exact ⟨held', runActions_counted counted' (attachInfo_live live attached)
          (attachInfo_locked attached) (counts i w₁ attached notBanned) ran⟩
    · exact absurd h (by simp)
  | ban a =>
    simp only [step] at h
    split at h
    · rename_i live
      obtain ⟨r, w₁, attached, rest⟩ := ban_cases (toOption_some h)
      obtain ⟨held', counted'⟩ := attachInfo_counted counted attached
      rcases rest with rfl | ⟨i, rfl, notBanned, rfl⟩
      · exact ⟨held', counted'⟩
      · exact ⟨held', ban_counted counted' (attachInfo_live live attached)
          (attachInfo_locked attached) (counts i w₁ attached notBanned)⟩
    · exact absurd h (by simp)
  | expire a =>
    simp only [step] at h
    split at h
    · rename_i live
      obtain rfl := Option.some.inj h
      exact endFlow_counted counted live counts
    · exact absurd h (by simp)
  | releaseCache => exact absurd counts id
  | memory sight =>
    obtain rfl := Option.some.inj h
    exact ⟨held, overwrite_counted counted sight⟩

theorem counted_start (objects : CacheId → Nat) (layer : Option Nat) :
    Counted (World.start objects layer) [] := by
  refine ⟨?_, fun _ => List.nodup_nil, fun _ => List.nodup_nil, fun _ _ entry => ?_,
    fun _ _ entry => ?_, fun _ => rfl⟩
  · show Pool.Assigned ((World.start objects layer).cache (.info .http)) [] _ []
    rw [start_cache]
    exact Pool.assigned_start _ _ _
  · exact absurd entry (by simp [World.start])
  · exact absurd entry (by simp [World.start])

/-- As long as every step changes counters and references alike, the counters are exact. -/
theorem always_hits_exact (objects : CacheId → Nat) (layer : Option Nat) (es : List Event)
    (counts : Transition.Along step Counts (World.start objects layer) es) :
    Transition.Always step HitsExact (World.start objects layer) es := by
  have counted : Transition.Always step (fun w => ∃ held, Counted w held)
      (World.start objects layer) es :=
    Transition.always_of_along (fun _ _ _ before stepped met => counted_step before stepped met)
      ⟨[], counted_start objects layer⟩ counts
  refine Transition.always_mono (fun w before => ?_) counted
  obtain ⟨held, before⟩ := before
  exact counted_exact before

/-- Two flows send one user agent, the second of them is banned and expires, and the first goes on
referring to the string. -/
theorem always_hits_exact_ua :
    Transition.Always step HitsExact (World.start (fun _ => 2) (some 0))
      [.openFlow ⟨.flow 0, 0⟩ 0, .openFlow ⟨.flow 0, 1⟩ 0, .packet ⟨.flow 0, 0⟩ [(.ua, [65])],
        .packet ⟨.flow 0, 1⟩ [(.ua, [65])], .ban ⟨.flow 0, 1⟩, .expire ⟨.flow 0, 1⟩] := by
  apply always_hits_exact
  refine Transition.along_cons rfl trivial (Transition.along_cons rfl trivial
    (Transition.along_cons rfl ?_ (Transition.along_cons rfl ?_ (Transition.along_cons rfl ?_
      (Transition.along_cons rfl ?_ trivial)))))
  -- the pool gives a new string
  · intro i w₁ attached _
    obtain ⟨same, rfl⟩ := Prod.mk.inj (Except.ok.inj (attached.symm.trans rfl))
    obtain rfl := Option.some.inj same
    refine ⟨fun s c acquired _ => ⟨fun no => absurd no (by simp), fun y e entry => ?_, ?_⟩,
      fun _ _ => trivial⟩
    · exact absurd entry (List.not_mem_nil)
    · rintro ⟨b, live, j, locked, refers⟩
      rcases List.mem_cons.mp live with rfl | live
      · exact absurd (locked.symm.trans (rfl : _ = (none : Option Obj))) (by simp)
      · obtain rfl := List.mem_singleton.mp live
        obtain rfl := Option.some.inj (locked.symm.trans rfl)
        exact absurd refers (by simp [setFlow, setInfo])
  -- the entry of the map is used again
  · intro i w₁ attached _
    obtain ⟨same, rfl⟩ := Prod.mk.inj (Except.ok.inj (attached.symm.trans rfl))
    exact ⟨fun uri => absurd uri (by simp), fun _ _ => trivial⟩
  -- the map has the user agent under its name, and no uri
  · intro i w₁ attached _
    obtain ⟨same, rfl⟩ := Prod.mk.inj (Except.ok.inj (attached.symm.trans rfl))
    obtain rfl := Option.some.inj same
    refine ⟨fun x notUa notUri e entry => ?_, ?_⟩
    · cases x <;> first | exact absurd rfl notUa | exact absurd entry List.not_mem_nil
    · rintro x (rfl | rfl) s locked e found
      · obtain rfl := Option.some.inj (locked.symm.trans rfl)
        obtain rfl := Option.some.inj (found.symm.trans rfl)
        rfl
      · exact absurd (locked.symm.trans (rfl : _ = (none : Option Obj))) (by simp)
  -- the ban has left nothing that the flow could lose, and the info of the other one stays
  · intro b live j locked lost x e entry refers
    rcases List.mem_cons.mp live with rfl | live
    · obtain rfl := Option.some.inj (locked.symm.trans rfl)
      cases refers
    · obtain rfl := List.mem_singleton.mp live
      rcases lost with other | ⟨i, banned, gone⟩
      · exact absurd other (by decide)
      · obtain rfl := Option.some.inj (locked.symm.trans rfl)
        obtain rfl := Option.some.inj (banned.symm.trans rfl)
        exact gone (by decide)

/-- Two flows request one uri: its counter stays at one. -/
theorem not_always_hits_exact :
    ¬∀ es, Transition.Always step HitsExact (World.start (fun _ => 2) (some 0)) es := by
  intro h
  exact Transition.not_always_of_run (by decide +kernel)
    (h [.openFlow ⟨.flow 0, 0⟩ 0, .openFlow ⟨.flow 0, 1⟩ 0, .packet ⟨.flow 0, 0⟩ [(.uri, [47])],
      .packet ⟨.flow 0, 1⟩ [(.uri, [47])]])

end AIEngine.Http
