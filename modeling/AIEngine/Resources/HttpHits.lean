import AIEngine.Pool.Assigned
import AIEngine.Resources.HttpRuns
import Mathlib.Data.List.Dedup

/-!
# Hit counters of the HTTP maps

The counter of an entry is meant to be the number of live infos that refer to its string. Attaching a
host or a user agent and dropping a hit keep it so; replacing a uri, a ban with a host and a flow that
ends change the references and not the counters.
-/

namespace AIEngine.Http

open World

/-! ### Counting -/

/-- Two predicates that differ at one place only. -/
theorem countP_agree {α : Type} [DecidableEq α] {l : List α} {p q : α → Bool} {a : α}
    (nodup : l.Nodup) (member : a ∈ l) (others : ∀ b ∈ l, b ≠ a → p b = q b) :
    l.countP p + (if q a then 1 else 0) = l.countP q + (if p a then 1 else 0) := by
  have perm := List.perm_cons_erase member
  have rest : (l.erase a).countP p = (l.erase a).countP q := by
    apply List.countP_congr
    intro b left
    obtain ⟨different, old⟩ := nodup.mem_erase_iff.mp left
    rw [others b old different]
  rw [perm.countP_eq p, perm.countP_eq q, List.countP_cons, List.countP_cons, rest]
  omega

/-- The live `HTTPInfo` objects. -/
def liveInfos (w : World) : List Obj :=
  (w.table.filterMap fun a => w.lockInfo .http (w.flows a)).dedup

/-- The number of live infos that refer to the string. -/
def references (w : World) (x : StringField) (s : Obj) : Nat :=
  (liveInfos w).countP fun i => decide ((w.infos i).strings x = some s)

/-- Every counter is the number of live infos that refer to the string of its entry. -/
def HitsExact (w : World) : Prop :=
  ∀ x ∈ [StringField.host, .ua, .uri], ∀ e ∈ w.maps .http x, e.hits = references w x e.object

instance (w : World) : Decidable (HitsExact w) := by
  unfold HitsExact
  infer_instance

/-- The flow has a live info that refers to the string. -/
def uses (w : World) (x : StringField) (s : Obj) (a : Obj) : Bool :=
  (w.lockInfo .http (w.flows a)).any fun i => decide ((w.infos i).strings x = some s)

theorem uses_iff {w : World} {x : StringField} {s a : Obj} :
    uses w x s a = true ↔
      ∃ i, w.lockInfo .http (w.flows a) = some i ∧ (w.infos i).strings x = some s := by
  unfold uses
  rw [Option.any_eq_true]
  constructor
  · rintro ⟨i, locked, pointer⟩
    exact ⟨i, locked, of_decide_eq_true pointer⟩
  · rintro ⟨i, locked, pointer⟩
    exact ⟨i, locked, decide_eq_true pointer⟩

/-- The info that a flow refers to. -/
def pointer (w : World) (a : Obj) : Option Obj := (w.flows a).httpInfo

theorem lockInfo_pointer {w : World} {a i : Obj} (locked : w.lockInfo .http (w.flows a) = some i) :
    pointer w a = some i := (lockInfo_some locked).1

abbrev Assigned (w : World) (held : List Obj) : Prop :=
  Pool.Assigned (w.cache (.info .http)) w.table (pointer w) held

/-- No two live flows have one info, so that the infos can be counted by their flows. -/
theorem references_eq {w : World} {held : List Obj} (assigned : Assigned w held) (x : StringField)
    (s : Obj) : references w x s = w.table.countP (uses w x s) := by
  have nodup : (w.table.filterMap fun a => w.lockInfo .http (w.flows a)).Nodup := by
    apply List.Pairwise.filterMap (R := fun a b => a ∈ w.table ∧ b ∈ w.table ∧ a ≠ b)
    · rintro a b ⟨live, live', different⟩ i locked j locked' same
      subst same
      exact different
        (assigned.apart a live b live' i (lockInfo_pointer locked) (lockInfo_pointer locked'))
    · exact assigned.nodup.imp_of_mem fun live live' different => ⟨live, live', different⟩
  unfold references liveInfos
  rw [nodup.dedup, List.countP_filterMap]
  apply List.countP_congr
  intro a _
  unfold uses
  cases w.lockInfo .http (w.flows a) with
  | none => rfl
  | some i => rfl

/-! ### The invariant -/

/-- Each entry has a key and a string of its own, the key is the name of the string and in its place,
and the counter is exact. -/
structure Counted (w : World) (held : List Obj) : Prop where
  assigned : Assigned w held
  keys : ∀ x, ((w.maps .http x).map MapEntry.key).Nodup
  objects : ∀ x, ((w.maps .http x).map MapEntry.object).Nodup
  named : ∀ x, ∀ e ∈ w.maps .http x, e.key = cString (w.names e.object)
  hits : ∀ x, ∀ e ∈ w.maps .http x, e.hits = (w.table.countP (uses w x e.object) : Int)
  ordered : ∀ x, w.disordered .http x = false

theorem counted_exact {w : World} {held : List Obj} (counted : Counted w held) : HitsExact w := by
  intro x _ e entry
  rw [references_eq counted.assigned, counted.hits x e entry]

theorem same_of_key {m : List MapEntry} {e e' : MapEntry} (nodup : (m.map MapEntry.key).Nodup)
    (entry : e ∈ m) (entry' : e' ∈ m) (same : e.key = e'.key) : e = e' :=
  List.inj_on_of_nodup_map nodup entry entry' same

theorem same_of_object {m : List MapEntry} {e e' : MapEntry}
    (nodup : (m.map MapEntry.object).Nodup) (entry : e ∈ m) (entry' : e' ∈ m)
    (same : e.object = e'.object) : e = e' :=
  List.inj_on_of_nodup_map nodup entry entry' same

/-! ### Steps that leave the maps and the references alone -/

/-- The same flows use the same strings. -/
structure SameUses (w w' : World) : Prop where
  table : w'.table = w.table
  maps : w'.maps = w.maps
  names : w'.names = w.names
  uses : ∀ a ∈ w.table, ∀ x s, uses w' x s a = uses w x s a
  disordered : ∀ x, w'.disordered .http x = w.disordered .http x

theorem counted_same {w w' : World} {held held' : List Obj} (counted : Counted w held)
    (same : SameUses w w') (assigned : Assigned w' held') : Counted w' held' := by
  refine ⟨assigned, ?_, ?_, ?_, ?_, fun x => (same.disordered x).trans (counted.ordered x)⟩
  · rw [same.maps]
    exact counted.keys
  · rw [same.maps]
    exact counted.objects
  · rw [same.maps, same.names]
    exact counted.named
  · intro x e entry
    rw [same.maps] at entry
    rw [counted.hits x e entry, same.table]
    congr 1
    apply List.countP_congr
    intro a live
    rw [same.uses a live x e.object]

theorem openTcpFlow_counted {w w' : World} {a : Obj} {layer : Nat} {held : List Obj}
    (counted : Counted w held) (fresh : a ∉ w.table) (h : w.openTcpFlow a layer = .ok w') :
    Counted w' held := by
  obtain ⟨caches, maps, names, infos, table, new, others, order⟩ := openTcpFlow_spec h
  have info : w'.cache (.info .http) = w.cache (.info .http) := caches _ (by simp)
  have unused : ∀ x s, uses w' x s a = false := by
    intro x s
    apply Bool.eq_false_iff.mpr
    intro used
    obtain ⟨i, locked, -⟩ := uses_iff.mp used
    exact absurd ((new .http).symm.trans (lockInfo_pointer locked)) (by simp)
  have kept : ∀ b ∈ w.table, ∀ x s, uses w' x s b = uses w x s b := by
    intro b live x s
    have different : b ≠ a := by
      rintro rfl
      exact fresh live
    unfold uses lockInfo
    rw [info, infos, others b different]
  refine ⟨?_, ?_, ?_, ?_, ?_, fun x => order ▸ counted.ordered x⟩
  · show Pool.Assigned (w'.cache (.info .http)) w'.table (pointer w') held
    rw [info, table]
    refine Pool.assigned_open counted.assigned fresh (new .http) fun b different => ?_
    unfold pointer
    rw [others b different]
  · rw [maps]
    exact counted.keys
  · rw [maps]
    exact counted.objects
  · rw [maps, names]
    exact counted.named
  · intro x e entry
    rw [maps] at entry
    rw [counted.hits x e entry, table, List.countP_cons, unused]
    congr 1
    have same := List.countP_congr (p := uses w' x e.object) (q := uses w x e.object) (l := w.table)
      fun b live => by rw [kept b live]
    simp [same]

/-- An info that comes fresh out of the pool refers to nothing. -/
theorem attachInfo_counted {w w' : World} {a : Obj} {r : Option Obj} {held : List Obj}
    (counted : Counted w held) (h : w.attachInfo .http a = .ok (r, w')) :
    ∃ held', Counted w' held' := by
  rcases attachInfo_cases h with ⟨i, -, -, rfl⟩ | ⟨i, c, -, expired, acquired, rfl⟩ |
    ⟨c, -, failed, rfl⟩
  · exact ⟨held, counted⟩
  · have items := Cache.acquire_items acquired
    have new : pointer (((w.setCache (.info .http) c).setInfo i {}).setFlow a
        ((w.flows a).setInfo .http (some i))) a = some i := by
      simp [pointer, setFlow, Flow.setInfo]
    have others : ∀ b, b ≠ a → pointer (((w.setCache (.info .http) c).setInfo i {}).setFlow a
        ((w.flows a).setInfo .http (some i))) b = pointer w b := by
      intro b different
      simp [pointer, setFlow, setInfo, different]
    obtain ⟨assigned, old⟩ := Pool.assigned_acquire counted.assigned acquired new others
    refine ⟨i :: held, counted_same counted ⟨rfl, rfl, rfl, ?_, fun _ => rfl⟩ assigned⟩
    intro b live x s
    by_cases same : b = a
    · subst same
      have before : uses w x s b = false := by
        unfold uses
        rw [expired]
        rfl
      rw [before]
      apply Bool.eq_false_iff.mpr
      intro used
      obtain ⟨j, locked, pointer⟩ := uses_iff.mp used
      have attached := lockInfo_pointer locked
      simp only [Http.pointer, setFlow, if_true, Flow.setInfo, Option.some.injEq] at attached
      subst attached
      simp [setFlow, setInfo] at pointer
    · have flow : (((w.setCache (.info .http) c).setInfo i {}).setFlow a
          ((w.flows a).setInfo .http (some i))).flows b = w.flows b := by
        simp [setFlow, setInfo, same]
      have lock : (((w.setCache (.info .http) c).setInfo i {}).setFlow a
          ((w.flows a).setInfo .http (some i))).lockInfo .http (w.flows b) =
            w.lockInfo .http (w.flows b) := by
        unfold lockInfo
        rw [setFlow_cache, setInfo_cache, cache_setCache_same]
        exact Cache.lock_congr items _
      unfold uses
      rw [flow, lock]
      cases locked : w.lockInfo .http (w.flows b) with
      | none => rfl
      | some j =>
        have other : j ≠ i := by
          rintro rfl
          exact old b live (lockInfo_pointer locked)
        simp [setFlow, setInfo, other]
  · have items := Cache.acquire_items failed
    have assigned : Assigned (w.setCache (.info .http) c) held := by
      show Pool.Assigned ((w.setCache (.info .http) c).cache (.info .http)) _ _ held
      rw [cache_setCache_same]
      exact Pool.assigned_fail counted.assigned failed
    refine ⟨held, counted_same counted ⟨rfl, rfl, rfl, ?_, fun _ => rfl⟩ assigned⟩
    intro b live x s
    have lock : (w.setCache (.info .http) c).lockInfo .http (w.flows b) =
        w.lockInfo .http (w.flows b) := by
      unfold lockInfo
      rw [cache_setCache_same]
      exact Cache.lock_congr items _
    unfold uses
    rw [setCache_flows, lock, setCache_infos]

/-! ### Attaching a string -/

/-- The info `i` now refers to `s`; its flow and all the others are as before. -/
structure Points (w w' : World) (i : Obj) (x : StringField) (s : Obj) : Prop where
  infoCache : w'.cache (.info .http) = w.cache (.info .http)
  flows : w'.flows = w.flows
  table : w'.table = w.table
  infos : w'.infos = (w.setString i x (some s)).infos

section
variable {w w' : World} {a i s : Obj} {x : StringField} {held : List Obj}

theorem points_lockInfo (points : Points w w' i x s) (b : Obj) :
    w'.lockInfo .http (w'.flows b) = w.lockInfo .http (w.flows b) := by
  unfold lockInfo
  rw [points.infoCache, points.flows]

theorem points_uses_other (points : Points w w' i x s) {y : StringField} (field : y ≠ x)
    (t b : Obj) : uses w' y t b = uses w y t b := by
  unfold uses
  rw [points_lockInfo points, points.infos]
  cases w.lockInfo .http (w.flows b) with
  | none => rfl
  | some j => by_cases same : j = i <;> simp [setString, setInfo, same, field]

theorem points_uses_flow (points : Points w w' i x s) (assigned : Assigned w held)
    (live : a ∈ w.table) (locked : w.lockInfo .http (w.flows a) = some i) (t : Obj) {b : Obj}
    (live' : b ∈ w.table) (different : b ≠ a) : uses w' x t b = uses w x t b := by
  unfold uses
  rw [points_lockInfo points, points.infos]
  cases locked' : w.lockInfo .http (w.flows b) with
  | none => rfl
  | some j =>
    have other : j ≠ i := by
      rintro rfl
      exact different
        (assigned.apart b live' a live j (lockInfo_pointer locked') (lockInfo_pointer locked))
    simp [setString, setInfo, other]

/-- The new reference is one more for its string, unless the old one was to the same. -/
theorem points_count (points : Points w w' i x s) (assigned : Assigned w held) (live : a ∈ w.table)
    (locked : w.lockInfo .http (w.flows a) = some i) (t : Obj)
    (old : (w.infos i).strings x ≠ some t) :
    (w'.table.countP (uses w' x t) : Int) =
      w.table.countP (uses w x t) + if s = t then 1 else 0 := by
  have agree := countP_agree (p := uses w' x t) (q := uses w x t) assigned.nodup live
    fun b live' different => points_uses_flow points assigned live locked t live' different
  have before : uses w x t a = false := by
    unfold uses
    rw [locked]
    exact decide_eq_false old
  have after : uses w' x t a = decide (s = t) := by
    unfold uses
    rw [points_lockInfo points, points.infos, locked]
    simp [setString, setInfo]
  rw [before, after] at agree
  rw [points.table]
  by_cases same : s = t
  · simp only [same, decide_true, if_true, Bool.false_eq_true, if_false] at agree ⊢
    omega
  · simp only [same, decide_false, Bool.false_eq_true, if_false] at agree ⊢
    omega

end

/-- The entries of a map after `n` hits more on one key. -/
theorem addHits_spec (m : List MapEntry) (key : Bytes) (n : Int) :
    (addHits m key n).map MapEntry.key = m.map MapEntry.key ∧
    (addHits m key n).map MapEntry.object = m.map MapEntry.object ∧
    ∀ e ∈ addHits m key n, ∃ e₀ ∈ m, e.key = e₀.key ∧ e.object = e₀.object ∧
      e.hits = e₀.hits + if e₀.key = key then n else 0 := by
  refine ⟨?_, ?_, ?_⟩
  · unfold addHits
    rw [List.map_map]
    apply List.map_congr_left
    intro e _
    simp only [Function.comp_apply]
    split <;> rfl
  · unfold addHits
    rw [List.map_map]
    apply List.map_congr_left
    intro e _
    simp only [Function.comp_apply]
    split <;> rfl
  · intro e entry
    obtain ⟨e₀, old, rfl⟩ := List.mem_map.mp entry
    refine ⟨e₀, old, ?_⟩
    split
    · exact ⟨rfl, rfl, rfl⟩
    · exact ⟨rfl, rfl, (Int.add_zero _).symm⟩

/-- A string that no entry owns may be inserted. -/
theorem insert_nodup {m : List MapEntry} {e : MapEntry} (keys : (m.map MapEntry.key).Nodup)
    (objects : (m.map MapEntry.object).Nodup) (new : ∀ e₀ ∈ m, e₀.object ≠ e.object) :
    ((World.insert m e).map MapEntry.key).Nodup ∧ ((World.insert m e).map MapEntry.object).Nodup := by
  unfold World.insert
  split
  · exact ⟨keys, objects⟩
  · rename_i unknown
    have absent : find m e.key = none := by simpa using unknown
    constructor
    · rw [List.map_cons, List.nodup_cons]
      refine ⟨fun member => ?_, keys⟩
      obtain ⟨e₀, old, same⟩ := List.mem_map.mp member
      exact find_none absent e₀ old same
    · rw [List.map_cons, List.nodup_cons]
      refine ⟨fun member => ?_, objects⟩
      obtain ⟨e₀, old, same⟩ := List.mem_map.mp member
      exact new e₀ old same

/-- A uri is attached only where it is new, and the info does not refer to another entry, or where it
is the one the info has. A string that comes out of the pool is nobody's. -/
def AttachCounts (w : World) (i : Obj) (x : StringField) (v : Bytes) : Prop :=
  match find (w.maps .http x) v with
  | some e => x = .uri → (w.infos i).strings x = some e.object
  | none => ∀ s c, (w.cache (.string .http x)).acquire = .ok (some s, c) →
      (x = .uri ∨ w.lockString .http ((w.infos i).strings x) = none) →
      (x = .uri → ∀ e ∈ w.maps .http x, (w.infos i).strings x ≠ some e.object) ∧
        (∀ y, ∀ e ∈ w.maps .http y, e.object ≠ s) ∧ ¬Refers w x s

theorem mem_stringFields (x : StringField) : x ∈ stringFields := by
  cases x <;> decide

/-- A pointer that has expired is to no string of a map. -/
theorem expired_unmapped {w : World} {x : StringField} {q : Option Obj}
    (expired : w.lockString .http q = none) : ∀ e ∈ w.maps .http x, q ≠ some e.object := by
  rintro e entry rfl
  have alive : w.StringAlive .http e.object :=
    ⟨x, mem_stringFields x, Or.inr (List.mem_map_of_mem entry)⟩
  exact absurd ((lockString_of_alive alive).symm.trans expired) (by simp)

section
variable {w w' : World} {a i : Obj} {x : StringField} {v : Bytes} {held : List Obj}

theorem points_assigned {s : Obj} (points : Points w w' i x s) (assigned : Assigned w held) :
    Assigned w' held := by
  show Pool.Assigned (w'.cache (.info .http)) w'.table (pointer w') held
  rw [points.infoCache, points.table]
  refine Pool.assigned_congr assigned fun b _ => ?_
  unfold pointer
  rw [points.flows]

/-- Only the map of the field is another one, and only its entries have to be counted again. -/
theorem counted_points {s : Obj} (counted : Counted w held) (points : Points w w' i x s)
    (rest : ∀ y, y ≠ x → w'.maps .http y = w.maps .http y)
    (names : ∀ y, ∀ e ∈ w.maps .http y, w'.names e.object = w.names e.object)
    (keys : ((w'.maps .http x).map MapEntry.key).Nodup)
    (objects : ((w'.maps .http x).map MapEntry.object).Nodup)
    (named : ∀ e ∈ w'.maps .http x, e.key = cString (w'.names e.object))
    (hits : ∀ e ∈ w'.maps .http x, e.hits = (w'.table.countP (uses w' x e.object) : Int))
    (ordered : ∀ y, w'.disordered .http y = w.disordered .http y) : Counted w' held := by
  refine ⟨points_assigned points counted.assigned, ?_, ?_, ?_, ?_,
    fun y => (ordered y).trans (counted.ordered y)⟩
  · intro y
    by_cases field : y = x
    · subst field
      exact keys
    · rw [rest y field]
      exact counted.keys y
  · intro y
    by_cases field : y = x
    · subst field
      exact objects
    · rw [rest y field]
      exact counted.objects y
  · intro y e entry
    by_cases field : y = x
    · subst field
      exact named e entry
    · rw [rest y field] at entry
      rw [names y e entry]
      exact counted.named y e entry
  · intro y e entry
    by_cases field : y = x
    · subst field
      exact hits e entry
    · rw [rest y field] at entry
      rw [counted.hits y e entry, points.table]
      congr 1
      apply List.countP_congr
      intro b _
      rw [points_uses_other points field]

/-- An info that already refers to the string counts as before. -/
theorem points_again {s : Obj} (points : Points w w' i x s)
    (same : (w.infos i).strings x = some s) (t : Obj) :
    w'.table.countP (uses w' x t) = w.table.countP (uses w x t) := by
  have infos : w'.infos = w.infos := by
    rw [points.infos]
    funext j
    by_cases turn : j = i
    · subst turn
      simp only [setString, setInfo, if_true]
      congr 1
      funext z
      by_cases field : z = x
      · rw [if_pos field, field, same]
      · rw [if_neg field]
    · simp [setString, setInfo, turn]
  rw [points.table]
  apply List.countP_congr
  intro b _
  unfold uses
  rw [points_lockInfo points, infos]

/-- The entry of the string counts the new reference. -/
theorem found_counted {e : MapEntry} {n : Int} (counted : Counted w held) (live : a ∈ w.table)
    (locked : w.lockInfo .http (w.flows a) = some i) (found : find (w.maps .http x) v = some e)
    (change : (n = 0 ∧ (w.infos i).strings x = some e.object) ∨
      (n = 1 ∧ ∀ e ∈ w.maps .http x, (w.infos i).strings x ≠ some e.object)) :
    Counted ((w.setMap .http x (addHits (w.maps .http x) v n)).setString i x (some e.object))
      held := by
  obtain ⟨entry, key⟩ := find_some found
  obtain ⟨keys, objects, hits⟩ := addHits_spec (w.maps .http x) v n
  have points : Points w ((w.setMap .http x (addHits (w.maps .http x) v n)).setString i x
      (some e.object)) i x e.object := ⟨rfl, rfl, rfl, rfl⟩
  generalize after : (w.setMap .http x (addHits (w.maps .http x) v n)).setString i x
    (some e.object) = w' at points ⊢
  have own : w'.maps .http x = addHits (w.maps .http x) v n := by
    rw [← after]
    exact (setMap_same ..).trans (settle_clean (counted.ordered x) _)
  have names : w'.names = w.names := by
    rw [← after]
    rfl
  refine counted_points counted points ?_ (fun _ _ _ => by rw [names]) ?_ ?_ ?_ ?_ ?_
  · intro y field
    rw [← after]
    simp [setMap, setString, setInfo, field]
  · rw [own, keys]
    exact counted.keys x
  · rw [own, objects]
    exact counted.objects x
  · intro e' entry'
    rw [own] at entry'
    obtain ⟨e₀, old, key', object', -⟩ := hits e' entry'
    rw [names, key', object']
    exact counted.named x e₀ old
  · intro e' entry'
    rw [own] at entry'
    obtain ⟨e₀, old, -, object', hits'⟩ := hits e' entry'
    have own₀ : e₀.key = v ↔ e.object = e₀.object := by
      constructor
      · intro same
        rw [same_of_key (counted.keys x) old entry (same.trans key.symm)]
      · intro same
        rw [same_of_object (counted.objects x) old entry same.symm]
        exact key
    rw [hits', object', counted.hits x e₀ old]
    rcases change with ⟨rfl, same⟩ | ⟨rfl, unmapped⟩
    · rw [points_again points same]
      split <;> omega
    · rw [points_count points counted.assigned live locked e₀.object (unmapped e₀ old)]
      by_cases same : e₀.key = v
      · rw [if_pos same, if_pos (own₀.mp same)]
      · rw [if_neg same, if_neg (fun equal => same (own₀.mpr equal))]
  · intro y
    rw [← after]
    rfl

/-- The first reference to a new string is counted as one. -/
theorem new_counted {s : Obj} {c : Cache} (counted : Counted w held) (live : a ∈ w.table)
    (locked : w.lockInfo .http (w.flows a) = some i)
    (old : ∀ e ∈ w.maps .http x, (w.infos i).strings x ≠ some e.object)
    (new : ∀ y, ∀ e ∈ w.maps .http y, e.object ≠ s) (unused : ¬Refers w x s) :
    Counted ((((w.setCache (.string .http x) c).setName s v).setString i x (some s)).setMap .http x
      (World.insert ((w.setName s v).maps .http x) { key := cString v, object := s, hits := 1 }))
      held := by
  have unmapped : ∀ y, s ∉ (w.maps .http y).map MapEntry.object := fun y => unmapped_of_ne (new y)
  have named := fun y => setName_clean (unmapped y) v
  rw [(named x).1]
  have points : Points w ((((w.setCache (.string .http x) c).setName s v).setString i x
      (some s)).setMap .http x
        (World.insert (w.maps .http x) { key := cString v, object := s, hits := 1 })) i x s := by
    refine ⟨?_, setCache_flows .., setCache_table .., ?_⟩
    · show (w.setCache (.string .http x) c).cache (.info .http) = _
      exact cache_setCache_other (by simp)
    · simp [setString, setInfo, setName, setMap]
  generalize after : (((w.setCache (.string .http x) c).setName s v).setString i x
    (some s)).setMap .http x (World.insert (w.maps .http x) { key := cString v, object := s, hits := 1 }) =
      w' at points ⊢
  have own : w'.maps .http x =
      World.insert (w.maps .http x) { key := cString v, object := s, hits := 1 } := by
    have clean : (((w.setCache (.string .http x) c).setName s v).setString i x
        (some s)).disordered .http x = false := (named x).2.trans (counted.ordered x)
    rw [← after, setMap_same, settle_clean clean]
  have name : w'.names s = v := by
    rw [← after]
    simp [setMap, setString, setInfo, setName]
  have names : ∀ y, ∀ e ∈ w.maps .http y, w'.names e.object = w.names e.object := by
    intro y e entry
    rw [← after]
    simp [setMap, setString, setInfo, setName, new y e entry]
  obtain ⟨keys, objects⟩ := insert_nodup (e := { key := cString v, object := s, hits := 1 })
    (counted.keys x) (counted.objects x) (new x)
  refine counted_points counted points ?_ names (own ▸ keys) (own ▸ objects) ?_ ?_ ?_
  · intro y field
    rw [← after, setMap_other fun both => field both.2]
    exact (named y).1
  · intro e' entry'
    rw [own] at entry'
    rcases mem_insert entry' with rfl | old'
    · exact (congrArg cString name).symm
    · rw [names x e' old']
      exact counted.named x e' old'
  · intro e' entry'
    rw [own] at entry'
    rcases mem_insert entry' with rfl | old'
    · have free : (w.infos i).strings x ≠ some s :=
        fun same => unused ⟨a, live, i, locked, same⟩
      rw [points_count points counted.assigned live locked s free, if_pos rfl]
      have none : w.table.countP (uses w x s) = 0 := by
        apply List.countP_eq_zero.mpr
        intro b live' used
        obtain ⟨j, locked', pointer⟩ := uses_iff.mp used
        exact unused ⟨b, live', j, locked', pointer⟩
      rw [none]
      rfl
    · rw [points_count points counted.assigned live locked e'.object (old e' old'),
        if_neg (Ne.symm (new x e' old')), counted.hits x e' old', Int.add_zero]
  · intro y
    rw [← after]
    exact (named y).2

end

/-! ### Packets -/

/-- The condition holds of each string of the packet when its turn comes. -/
def EachCounts (i : Obj) : World → List (StringField × Bytes) → Prop
  | _, [] => True
  | w, f :: rest =>
    match attachString .http f.1 with
    | none => EachCounts i w rest
    | some attach =>
      AttachCounts w i f.1 f.2 ∧ ∀ w', attach w i f.2 = .ok w' → EachCounts i w' rest

/-- The attach functions of HTTP. The one for a uri always attaches and counts no hit. -/
theorem attachString_http {x : StringField} {attach : World → Obj → Bytes → Except Fault World}
    (known : attachString .http x = some attach) :
    attach = fun w => w.intern .http x (decide (x = .uri)) (decide (x ≠ .uri)) := by
  cases x <;> simp only [attachString, reduceCtorEq, Option.some.injEq] at known <;>
    subst known <;> rfl

theorem attach_counted {w w' : World} {a i : Obj} {x : StringField} {v : Bytes} {held : List Obj}
    (counted : Counted w held) (live : a ∈ w.table)
    (locked : w.lockInfo .http (w.flows a) = some i) (counts : AttachCounts w i x v)
    (h : w.intern .http x (decide (x = .uri)) (decide (x ≠ .uri)) i v = .ok w') :
    Counted w' held ∧ w'.table = w.table ∧ w'.lockInfo .http (w'.flows a) = some i := by
  unfold AttachCounts at counts
  rcases intern_cases h with ⟨-, -, rfl⟩ | ⟨e, n, found, hit, missing, rfl⟩ |
    ⟨s, c, acquired, absent, missing, rfl⟩ | ⟨c, failed, -, -, rfl⟩
  · exact ⟨counted, rfl, locked⟩
  · rw [found] at counts
    refine ⟨found_counted counted live locked found ?_, rfl, locked⟩
    by_cases uri : x = .uri
    · refine Or.inl ⟨?_, counts uri⟩
      simpa [uri] using hit
    · refine Or.inr ⟨by simpa [uri] using hit, ?_⟩
      exact expired_unmapped (missing.resolve_left (by simpa using uri))
  · rw [absent] at counts
    have expired : x = .uri ∨ w.lockString .http ((w.infos i).strings x) = none :=
      missing.imp_left of_decide_eq_true
    obtain ⟨only, new, unused⟩ := counts s c acquired expired
    have old : ∀ e ∈ w.maps .http x, (w.infos i).strings x ≠ some e.object := by
      rcases expired with uri | expired
      · exact only uri
      · exact expired_unmapped expired
    refine ⟨new_counted counted live locked old new unused, setCache_table .., ?_⟩
    show (w.setCache (.string .http x) c).lockInfo .http (_ : Flow) = some i
    rw [← locked]
    unfold lockInfo
    rw [cache_setCache_other (by simp)]
    simp [setMap, setString, setInfo, setName]
  · have cache : (w.setCache (.string .http x) c).cache (.info .http) = w.cache (.info .http) :=
      cache_setCache_other (by simp)
    have lock : ∀ f, (w.setCache (.string .http x) c).lockInfo .http f = w.lockInfo .http f := by
      intro f
      unfold lockInfo
      rw [cache]
    refine ⟨counted_same counted ⟨setCache_table .., setCache_maps .., setCache_names .., ?_,
      fun _ => rfl⟩ ?_,
      setCache_table .., ?_⟩
    · intro b _ y t
      unfold uses
      rw [setCache_flows, lock, setCache_infos]
    · show Pool.Assigned ((w.setCache (.string .http x) c).cache (.info .http)) _ _ held
      rw [cache, setCache_table]
      refine Pool.assigned_congr counted.assigned fun b _ => ?_
      unfold pointer
      rw [setCache_flows]
    · rw [setCache_flows, lock]
      exact locked

theorem runActions_counted {w w' : World} {a i : Obj} {found : List (StringField × Bytes)}
    {held : List Obj} (counted : Counted w held) (live : a ∈ w.table)
    (locked : w.lockInfo .http (w.flows a) = some i) (counts : EachCounts i w found)
    (h : w.runActions .http i (found.map fun f => .string f.1 f.2) = .ok w') : Counted w' held := by
  induction found generalizing w with
  | nil =>
    obtain rfl := Except.ok.inj h
    exact counted
  | cons f rest ih =>
    unfold EachCounts at counts
    simp only [List.map_cons, runActions] at h
    cases known : attachString .http f.1 with
    | none =>
      rw [known] at counts h
      exact ih counted live locked counts h
    | some attach =>
      rw [known] at counts h
      simp only at h
      split at h
      · rename_i w₁ attached
        obtain ⟨own, later⟩ := counts
        have after := later w₁ attached
        rw [attachString_http known] at attached
        obtain ⟨counted₁, table, locked₁⟩ := attach_counted counted live locked own attached
        exact ih counted₁ (table ▸ live) locked₁ after h
      · exact absurd h (by simp)

end AIEngine.Http
