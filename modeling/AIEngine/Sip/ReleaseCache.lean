import AIEngine.Library.Refilling
import AIEngine.Resources.ReleaseCache
import AIEngine.Sip.ExtractionRuns

/-!
# Strings that `releaseCache` gives back

The loop over the flows releases the uri, from and to of each info to their caches, and the via to
the cache of `to`. Infos and strings that stand in an overwritten slot are gone when their turn comes.
-/

namespace AIEngine

open World

/-- The slots behind the free part. -/
def Cache.behind (c : Cache) : List (Option Obj) := c.items.drop c.total

namespace SIPProtocol

variable {w w' : World} {a i s : Obj} {x y : StringField} {ft : List Obj}

/-! ### One cache -/

def mapped (m : List MapEntry) : List (Option Obj) := m.map fun e => some e.object

/-- A string that is still there goes to the cache. -/
def takeBack (m : List MapEntry) (c : Cache) (s : Obj) : Cache :=
  if c.Owns s ∨ some s ∈ mapped m then c.release (some s) else c

theorem owns_iff (c : Cache) (s : Obj) : c.Owns s ↔ some s ∈ c.free ∨ some s ∈ c.behind := by
  unfold Cache.Owns Cache.free Cache.behind
  rw [← List.mem_append, List.take_append_drop]

theorem behind_release (c : Cache) (r : Option Obj) : (c.release r).behind = c.behind.tail := by
  by_cases room : c.total < c.items.length
  · rw [Cache.release_room _ room]
    unfold Cache.behind
    rw [List.tail_drop]
    exact List.drop_set_of_lt (Nat.lt_succ_self c.total)
  · rw [Cache.release_full _ room]
    have empty : c.behind = [] := List.drop_of_length_le (by omega)
    rw [empty, List.tail_nil]

theorem refill_takeBack (m : List MapEntry) (c : Cache) (s : Obj) (more : List (Option Obj)) :
    Refilling.refill (· ∈ mapped m) c.free c.behind (some s :: more) =
      Refilling.refill (· ∈ mapped m) (takeBack m c s).free (takeBack m c s).behind more := by
  have owned : (c.Owns s ∨ some s ∈ mapped m) ↔
      (some s ∈ c.free ∨ some s ∈ c.behind ∨ some s ∈ mapped m) := by
    rw [owns_iff, or_assoc]
  unfold takeBack
  by_cases there : some s ∈ c.free ∨ some s ∈ c.behind ∨ some s ∈ mapped m
  · rw [if_pos (owned.mpr there), behind_release]
    by_cases room : c.total < c.items.length
    · rw [Cache.release_free _ room]
      cases behind : c.behind with
      | nil =>
        have long : c.items.length ≤ c.total := List.drop_eq_nil_iff.mp behind
        omega
      | cons b rest =>
        rw [behind] at there
        exact Refilling.refill_there there more
    · have empty : c.behind = [] := List.drop_of_length_le (by omega)
      rw [Cache.release_full _ room, empty, List.tail_nil, Refilling.refill_full,
        Refilling.refill_full]
  · rw [if_neg fun owns => there (owned.mp owns), Refilling.refill_gone there]

theorem free_takeBack (m : List MapEntry) (c : Cache) (back : List Obj) :
    (back.foldl (takeBack m) c).free =
      Refilling.refill (· ∈ mapped m) c.free c.behind (back.map some) := by
  induction back generalizing c with
  | nil => rfl
  | cons s rest ih => rw [List.foldl_cons, ih, List.map_cons, refill_takeBack]

/-! ### One info -/

/-- Strings, with their pointers and the entries of the maps, keep to the pool of their field. -/
structure Placed (w : World) : Prop where
  homed : Homed w
  slots : ∀ x s, (w.cache (.string .sip x)).Owns s → s.home = .string .sip x
  maps : ∀ x, ∀ e ∈ w.maps .sip x, e.object.home = .string .sip x

theorem alive_iff (placed : Placed w) (home : s.home = .string .sip x) :
    w.StringAlive .sip s ↔
      (w.cache (.string .sip x)).Owns s ∨ some s ∈ mapped (w.maps .sip x) := by
  have entries (y : StringField) :
      s ∈ (w.maps .sip y).map MapEntry.object ↔ some s ∈ mapped (w.maps .sip y) := by
    simp [mapped]
  constructor
  · rintro ⟨y, -, owned⟩
    have same : y = x := by
      rcases owned with owns | entry
      · exact (CacheId.string.inj ((placed.slots y s owns).symm.trans home)).2
      · obtain ⟨e, member, rfl⟩ := List.mem_map.mp entry
        exact (CacheId.string.inj ((placed.maps y e member).symm.trans home)).2
    rw [same, entries] at owned
    exact owned
  · intro owned
    rw [← entries] at owned
    exact ⟨x, stringField_listed x, owned⟩

theorem releaseString_cases (w : World) (x target : StringField) (i : Obj) :
    (w.lockString .sip ((w.infos i).strings x) = none ∧
        w.releaseString .sip x target true i = w) ∨
      ∃ s, w.lockString .sip ((w.infos i).strings x) = some s ∧
        w.releaseString .sip x target true i =
          (w.setString i x none).releaseTo (.string .sip target) (some s) := by
  unfold releaseString
  cases locked : w.lockString .sip ((w.infos i).strings x) with
  | none => exact .inl ⟨rfl, rfl⟩
  | some s => exact .inr ⟨s, rfl, rfl⟩

theorem releaseString_elsewhere (target : StringField) (other : y ≠ target) :
    (w.releaseString .sip x target true i).cache (.string .sip y) = w.cache (.string .sip y) := by
  rcases releaseString_cases w x target i with ⟨-, same⟩ | ⟨s, -, released⟩
  · rw [same]
  · rw [released]
    exact cache_setCache_other (by simp [other])

theorem releaseString_maps (target : StringField) :
    (w.releaseString .sip x target true i).maps = w.maps := by
  rcases releaseString_cases w x target i with ⟨-, same⟩ | ⟨s, -, released⟩
  · rw [same]
  · rw [released]
    exact setCache_maps ..

theorem releaseString_infos (target : StringField) {j : Obj} (other : j ≠ i ∨ y ≠ x) :
    ((w.releaseString .sip x target true i).infos j).strings y = (w.infos j).strings y := by
  rcases releaseString_cases w x target i with ⟨-, same⟩ | ⟨s, -, released⟩
  · rw [same]
  · rw [released]
    unfold releaseTo
    rw [setCache_infos]
    by_cases chosen : j = i
    · simp [setString, setInfo, chosen, other.resolve_left (not_not.mpr chosen)]
    · simp [setString, setInfo, chosen]

theorem releaseString_pool (placed : Placed w) (x : StringField) (i : Obj) :
    (w.releaseString .sip x x true i).cache (.string .sip x) =
      ((w.infos i).strings x).toList.foldl (takeBack (w.maps .sip x))
        (w.cache (.string .sip x)) := by
  cases pointer : (w.infos i).strings x with
  | none =>
    unfold releaseString
    rw [pointer]
    rfl
  | some s =>
    have alive := alive_iff placed (placed.homed i x s pointer)
    change _ = takeBack (w.maps .sip x) (w.cache (.string .sip x)) s
    unfold takeBack releaseString
    rw [pointer]
    by_cases there : w.StringAlive .sip s
    · rw [if_pos (alive.mp there), lockString_of_alive there]
      exact cache_setCache_same ..
    · have gone : w.lockString .sip (some s) = none := by simp [lockString, there]
      rw [if_neg (fun owned => there (alive.mpr owned)), gone]

theorem placed_releaseString (placed : Placed w) (x : StringField) (i : Obj) :
    Placed (w.releaseString .sip x x true i) := by
  refine ⟨fun j y s pointer => ?_, fun y s owns => ?_, fun y e member => ?_⟩
  · by_cases other : j ≠ i ∨ y ≠ x
    · rw [releaseString_infos x other] at pointer
      exact placed.homed j y s pointer
    · obtain ⟨rfl, rfl⟩ := (not_or.mp other).imp not_not.mp not_not.mp
      rcases releaseString_cases w y y j with ⟨-, same⟩ | ⟨o, -, released⟩
      · rw [same] at pointer
        exact placed.homed j y s pointer
      · rw [released] at pointer
        unfold releaseTo at pointer
        rw [setCache_infos] at pointer
        exact absurd pointer (by simp [setString, setInfo])
  · by_cases other : y = x
    · subst other
      rw [releaseString_pool placed] at owns
      cases pointer : (w.infos i).strings y with
      | none =>
        rw [pointer] at owns
        exact placed.slots y s owns
      | some o =>
        rw [pointer] at owns
        change (takeBack (w.maps .sip y) (w.cache (.string .sip y)) o).Owns s at owns
        unfold takeBack at owns
        split at owns
        · rcases Cache.release_items owns with same | old
          · obtain rfl := Option.some.inj same
            exact placed.homed i y s pointer
          · exact placed.slots y s old
        · exact placed.slots y s owns
    · rw [releaseString_elsewhere x other] at owns
      exact placed.slots y s owns
  · rw [releaseString_maps] at member
    exact placed.maps y e member

/-- The strings of one info, when it has no via. -/
structure Gives (w w' : World) (i : Obj) : Prop where
  placed : Placed w'
  maps : w'.maps = w.maps
  infos : ∀ j, j ≠ i → ∀ y, (w'.infos j).strings y = (w.infos j).strings y
  pools : ∀ x ∈ [StringField.uri, .fromAddr, .toAddr],
    w'.cache (.string .sip x) = ((w.infos i).strings x).toList.foldl (takeBack (w.maps .sip x))
      (w.cache (.string .sip x))

theorem releaseSipInfo_gives (placed : Placed w) (vialess : (w.infos i).strings .via = none) :
    Gives w (Sip.releaseSipInfo w i) i := by
  have uris := placed_releaseString placed .uri i
  have froms := placed_releaseString uris .fromAddr i
  have tos := placed_releaseString froms .toAddr i
  unfold Sip.releaseSipInfo
  simp only
  -- the first three releases, named as the source orders them
  generalize one : w.releaseString .sip .uri .uri true i = w₁ at uris froms tos
  generalize two : w₁.releaseString .sip .fromAddr .fromAddr true i = w₂ at froms tos
  generalize three : w₂.releaseString .sip .toAddr .toAddr true i = w₃ at tos
  have maps₁ : w₁.maps = w.maps := by rw [← one, releaseString_maps]
  have maps₂ : w₂.maps = w.maps := by rw [← two, releaseString_maps, maps₁]
  have maps₃ : w₃.maps = w.maps := by rw [← three, releaseString_maps, maps₂]
  have kept₁ {j : Obj} {y : StringField} (other : j ≠ i ∨ y ≠ .uri) :
      (w₁.infos j).strings y = (w.infos j).strings y := by rw [← one, releaseString_infos _ other]
  have kept₂ {j : Obj} {y : StringField} (other : j ≠ i ∨ y ≠ .fromAddr) :
      (w₂.infos j).strings y = (w₁.infos j).strings y := by rw [← two, releaseString_infos _ other]
  have kept₃ {j : Obj} {y : StringField} (other : j ≠ i ∨ y ≠ .toAddr) :
      (w₃.infos j).strings y = (w₂.infos j).strings y := by rw [← three, releaseString_infos _ other]
  have none : (w₃.infos i).strings .via = none := by
    rw [kept₃ (.inr (by decide)), kept₂ (.inr (by decide)), kept₁ (.inr (by decide)), vialess]
  have last : w₃.releaseString .sip .via .toAddr true i = w₃ := by
    unfold releaseString
    rw [none]
    rfl
  rw [last]
  refine ⟨tos, maps₃, fun j other y => ?_, fun x listed => ?_⟩
  · rw [kept₃ (.inl other), kept₂ (.inl other), kept₁ (.inl other)]
  · rcases List.mem_cons.mp listed with rfl | listed
    · rw [← three, releaseString_elsewhere _ (by decide), ← two,
        releaseString_elsewhere _ (by decide), ← one, releaseString_pool placed]
    · rcases List.mem_cons.mp listed with rfl | listed
      · rw [← three, releaseString_elsewhere _ (by decide), ← two, releaseString_pool uris, maps₁,
          kept₁ (.inr (by decide)), ← one, releaseString_elsewhere _ (by decide)]
      · obtain rfl := List.mem_singleton.mp listed
        rw [← three, releaseString_pool froms, maps₂, kept₂ (.inr (by decide)),
          kept₁ (.inr (by decide)), ← two, releaseString_elsewhere _ (by decide), ← one,
          releaseString_elsewhere _ (by decide)]

/-! ### One flow -/

/-- What the loop finds in the flows that are left. -/
structure Releasing (w : World) (ft : List Obj) : Prop where
  placed : Placed w
  nodup : ft.Nodup
  apart : ∀ a ∈ ft, ∀ b ∈ ft, ∀ i, (w.flows a).info .sip = some i → (w.flows b).info .sip = some i →
    a = b
  taken : ∀ a ∈ ft, ∀ i, (w.flows a).info .sip = some i → some i ∉ (w.cache (.info .sip)).free
  vialess : ∀ a ∈ ft, ∀ i, (w.flows a).info .sip = some i → (w.infos i).strings .via = none

theorem lockInfo_iff (releasing : Releasing w (a :: ft)) (at' : (w.flows a).info .sip = some i) :
    w.lockInfo .sip (w.flows a) = if some i ∈ (w.cache (.info .sip)).behind then some i else none := by
  have free := releasing.taken a List.mem_cons_self i at'
  unfold lockInfo
  rw [at']
  by_cases there : some i ∈ (w.cache (.info .sip)).behind
  · rw [if_pos there, Cache.lock_of_owns ((owns_iff _ i).mpr (.inr there))]
  · have gone : ¬(w.cache (.info .sip)).Owns i := by
      rw [owns_iff]
      exact fun owned => there (owned.resolve_left free)
    rw [if_neg there, Cache.lock_none_of_expired gone]

/-- One turn: the strings of the info go back, and an empty pointer to the cache of infos. -/
structure Turned (w w' : World) (a i : Obj) : Prop where
  gives : Gives w w' i
  infos : w'.cache (.info .sip) = (w.cache (.info .sip)).release none
  others : ∀ b, b ≠ a → w'.flows b = w.flows b

theorem detach_turned (releasing : Releasing w (a :: ft)) (at' : (w.flows a).info .sip = some i)
    (there : some i ∈ (w.cache (.info .sip)).behind) : Turned w (w.detach .sip a) a i := by
  have locked : w.lockInfo .sip (w.flows a) = some i := by
    rw [lockInfo_iff releasing at', if_pos there]
  have gives := releaseSipInfo_gives releasing.placed
    (releasing.vialess a List.mem_cons_self i at')
  obtain ⟨cache, flows⟩ := detach_some locked
  have pools (x : StringField) : (w.detach .sip a).cache (.string .sip x) =
      (Sip.releaseSipInfo w i).cache (.string .sip x) := by
    rw [detach_eq locked]
    exact cache_setCache_other (by simp)
  have contents : (w.detach .sip a).infos = (Sip.releaseSipInfo w i).infos ∧
      (w.detach .sip a).maps = (Sip.releaseSipInfo w i).maps := by
    rw [detach_eq locked]
    exact ⟨setCache_infos .., setCache_maps ..⟩
  refine ⟨⟨⟨?_, ?_, ?_⟩, ?_, ?_, ?_⟩, cache, fun b other => ?_⟩
  · unfold Homed
    rw [contents.1]
    exact gives.placed.homed
  · intro x
    rw [pools]
    exact gives.placed.slots x
  · rw [contents.2]
    exact gives.placed.maps
  · rw [contents.2, gives.maps]
  · rw [contents.1]
    exact gives.infos
  · intro x listed
    rw [pools, gives.pools x listed]
  · rw [flows]
    simp [setFlow, other]

theorem detach_gone (releasing : Releasing w (a :: ft))
    (gone : ∀ i, (w.flows a).info .sip = some i → some i ∉ (w.cache (.info .sip)).behind) :
    w.detach .sip a = w := by
  apply detach_none
  cases at' : (w.flows a).info .sip with
  | none =>
    unfold lockInfo
    rw [at']
    rfl
  | some i => rw [lockInfo_iff releasing at', if_neg (gone i at')]

theorem releasing_rest (releasing : Releasing w (a :: ft)) : Releasing w ft := by
  have later {b : Obj} (member : b ∈ ft) : b ∈ a :: ft := List.mem_cons_of_mem a member
  exact ⟨releasing.placed, releasing.nodup.of_cons,
    fun b inside c also => releasing.apart b (later inside) c (later also),
    fun b inside => releasing.taken b (later inside),
    fun b inside => releasing.vialess b (later inside)⟩

/-- The flows behind the one whose turn it was, and their infos, are as before. -/
theorem turned_spares (releasing : Releasing w (a :: ft)) (at' : (w.flows a).info .sip = some i)
    (turned : Turned w w' a i) :
    ∀ b ∈ ft, w'.flows b = w.flows b ∧ ∀ j, (w.flows b).info .sip = some j → j ≠ i := by
  intro b member
  have different : b ≠ a := by
    rintro rfl
    exact (List.nodup_cons.mp releasing.nodup).1 member
  refine ⟨turned.others b different, fun j also => ?_⟩
  rintro rfl
  exact different (releasing.apart b (List.mem_cons_of_mem a member) a List.mem_cons_self j also at')

theorem releasing_turned (releasing : Releasing w (a :: ft)) (at' : (w.flows a).info .sip = some i)
    (turned : Turned w w' a i) : Releasing w' ft := by
  have spares := turned_spares releasing at' turned
  have rest := releasing_rest releasing
  refine ⟨turned.gives.placed, rest.nodup, fun b inside c also j => ?_, fun b inside j points => ?_,
    fun b inside j points => ?_⟩
  · rw [(spares b inside).1, (spares c also).1]
    exact rest.apart b inside c also j
  · rw [(spares b inside).1] at points
    rw [turned.infos]
    intro free
    rcases Cache.release_free_cases (w.cache (.info .sip)) none with same | longer
    · rw [same] at free
      exact rest.taken b inside j points free
    · rw [longer] at free
      rcases List.mem_append.mp free with old | new
      · exact rest.taken b inside j points old
      · exact absurd (List.mem_singleton.mp new) (by simp)
  · rw [(spares b inside).1] at points
    rw [turned.gives.infos j ((spares b inside).2 j points)]
    exact rest.vialess b inside j points

/-! ### The loop -/

/-- The infos that are still in a slot when the turn of their flow comes. Every turn empties one slot
more. -/
def served (info : Obj → Option Obj) : List (Option Obj) → List Obj → List Obj
  | _, [] => []
  | slots, a :: ft =>
    match info a with
    | none => served info slots ft
    | some i => if some i ∈ slots then i :: served info slots.tail ft else served info slots ft

def given (w : World) (ft : List Obj) (x : StringField) : List Obj :=
  (served (fun a => (w.flows a).info .sip) (w.cache (.info .sip)).behind ft).filterMap
    fun i => (w.infos i).strings x

theorem served_congr {info info' : Obj → Option Obj} {slots : List (Option Obj)}
    (same : ∀ a ∈ ft, info' a = info a) : served info' slots ft = served info slots ft := by
  induction ft generalizing slots with
  | nil => rfl
  | cons a rest ih =>
    have later (slots : List (Option Obj)) : served info' slots rest = served info slots rest :=
      ih fun b member => same b (List.mem_cons_of_mem a member)
    unfold served
    rw [same a List.mem_cons_self]
    simp only [later]

theorem mem_served {info : Obj → Option Obj} {slots : List (Option Obj)}
    (member : i ∈ served info slots ft) : ∃ a ∈ ft, info a = some i := by
  induction ft generalizing slots with
  | nil => exact absurd member (by simp [served])
  | cons a rest ih =>
    have later {slots : List (Option Obj)} (behind : i ∈ served info slots rest) :
        ∃ b ∈ a :: rest, info b = some i := by
      obtain ⟨b, inside, at'⟩ := ih behind
      exact ⟨b, List.mem_cons_of_mem a inside, at'⟩
    unfold served at member
    cases at' : info a with
    | none =>
      rw [at'] at member
      exact later member
    | some j =>
      rw [at'] at member
      simp only at member
      split at member
      · rcases List.mem_cons.mp member with rfl | behind
        · exact ⟨a, List.mem_cons_self, at'⟩
        · exact later behind
      · exact later member

theorem given_gone (gone : ∀ i, (w.flows a).info .sip = some i →
    some i ∉ (w.cache (.info .sip)).behind) : given w (a :: ft) x = given w ft x := by
  unfold given
  rw [served]
  cases at' : (w.flows a).info .sip with
  | none => rfl
  | some i => simp only [if_neg (gone i at')]

theorem given_turned (releasing : Releasing w (a :: ft)) (at' : (w.flows a).info .sip = some i)
    (there : some i ∈ (w.cache (.info .sip)).behind) (turned : Turned w w' a i) :
    given w (a :: ft) x = ((w.infos i).strings x).toList ++ given w' ft x := by
  have spares := turned_spares releasing at' turned
  have rest : given w' ft x = (served (fun a => (w.flows a).info .sip)
      (w.cache (.info .sip)).behind.tail ft).filterMap fun j => (w.infos j).strings x := by
    unfold given
    rw [turned.infos, behind_release,
      served_congr fun b member => by rw [(spares b member).1]]
    apply List.filterMap_congr
    intro j member
    obtain ⟨b, inside, points⟩ := mem_served member
    exact turned.gives.infos j ((spares b inside).2 j points) x
  rw [rest]
  unfold given
  rw [served]
  simp only [at', if_pos there, List.filterMap_cons]
  cases (w.infos i).strings x <;> rfl

theorem detachAll_pool (releasing : Releasing w ft)
    (listed : x ∈ [StringField.uri, .fromAddr, .toAddr]) :
    (w.detachAll .sip ft).cache (.string .sip x) =
      (given w ft x).foldl (takeBack (w.maps .sip x)) (w.cache (.string .sip x)) := by
  induction ft generalizing w with
  | nil => rfl
  | cons a rest ih =>
    have same : w.detachAll .sip (a :: rest) = (w.detach .sip a).detachAll .sip rest := rfl
    rw [same]
    by_cases alive : ∃ i, (w.flows a).info .sip = some i ∧ some i ∈ (w.cache (.info .sip)).behind
    · obtain ⟨i, at', there⟩ := alive
      have turned := detach_turned releasing at' there
      rw [ih (releasing_turned releasing at' turned), turned.gives.maps, turned.gives.pools x listed,
        given_turned releasing at' there turned, List.foldl_append]
    · have gone : ∀ i, (w.flows a).info .sip = some i → some i ∉ (w.cache (.info .sip)).behind :=
        fun i at' there => alive ⟨i, at', there⟩
      rw [detach_gone releasing gone, ih (releasing_rest releasing), given_gone gone]

/-- Nothing goes to the cache of the vias. -/
theorem detachAll_vias (w : World) (ft : List Obj) :
    (w.detachAll .sip ft).cache (.string .sip .via) = w.cache (.string .sip .via) := by
  induction ft generalizing w with
  | nil => rfl
  | cons a rest ih =>
    have same : w.detachAll .sip (a :: rest) = (w.detach .sip a).detachAll .sip rest := rfl
    rw [same, ih]
    cases locked : w.lockInfo .sip (w.flows a) with
    | none => rw [detach_none locked]
    | some i =>
      rw [detach_eq locked]
      refine (cache_setCache_other (by simp)).trans ?_
      change (Sip.releaseSipInfo w i).cache (.string .sip .via) = _
      unfold Sip.releaseSipInfo
      simp only
      rw [releaseString_elsewhere _ (by decide), releaseString_elsewhere _ (by decide),
        releaseString_elsewhere _ (by decide), releaseString_elsewhere _ (by decide)]

/-! ### Before the release -/

/-- The pool of a field before the first flow. -/
def pool (objects : CacheId → Nat) (x : StringField) : Cache :=
  Cache.create { id := .string .sip x } (objects (.string .sip x))

theorem pool_items (objects : CacheId → Nat) (x : StringField) :
    (pool objects x).items =
      (List.range (objects (.string .sip x))).map fun k => some ⟨.string .sip x, k⟩ := by
  unfold pool
  rw [Cache.create_eq]
  simp

theorem pool_nodup (objects : CacheId → Nat) (x : StringField) : (pool objects x).items.Nodup := by
  rw [pool_items]
  exact List.nodup_range.map fun j k same => by simpa using same

theorem pool_home {objects : CacheId → Nat} (member : some s ∈ (pool objects x).items) :
    s.home = .string .sip x := by
  rw [pool_items] at member
  obtain ⟨k, -, same⟩ := List.mem_map.mp member
  rw [← Option.some.inj same]

theorem pool_free (objects : CacheId → Nat) (x : StringField) :
    (pool objects x).free = (pool objects x).items := by
  unfold pool Cache.free
  rw [Cache.create_eq]
  exact List.take_of_length_le (by simp)

/-- Until a cache is released, the strings that infos and maps have are those above the free part. -/
structure Lent (objects : CacheId → Nat) (w : World) : Prop where
  pooled : w.Pooled
  items : ∀ x, (w.cache (.string .sip x)).items = (pool objects x).items
  bound : ∀ x, (w.cache (.string .sip x)).total ≤ (w.cache (.string .sip x)).items.length
  pointers : ∀ i x s, (w.infos i).strings x = some s → some s ∈ (w.cache (.string .sip x)).behind
  maps : ∀ x, ∀ e ∈ w.maps .sip x, some e.object ∈ (w.cache (.string .sip x)).behind

theorem placed_lent {objects : CacheId → Nat} (lent : Lent objects w) : Placed w := by
  have inside {x : StringField} {s : Obj} (behind : some s ∈ (w.cache (.string .sip x)).behind) :
      s.home = .string .sip x := by
    have member := List.mem_of_mem_drop behind
    rw [lent.items] at member
    exact pool_home member
  refine ⟨fun i x s pointer => inside (lent.pointers i x s pointer), fun x s owns => ?_,
    fun x e member => inside (lent.maps x e member)⟩
  unfold Cache.Owns at owns
  rw [lent.items] at owns
  exact pool_home owns

/-! ### After the release -/

/-- The free part of each pool is what it was before the first flow. -/
def Restores (objects : CacheId → Nat) (w : World) : Prop :=
  ∀ x ∈ [StringField.uri, .fromAddr, .toAddr, .via],
    (w.cache (.string .sip x)).free.Perm (pool objects x).free

/-- No via is out, and the uris, froms and tos that are out come back in time, and once. -/
structure Returnable (w : World) (ft : List Obj) : Prop where
  vias : (w.cache (.string .sip .via)).behind = []
  others : ∀ x ∈ [StringField.uri, .fromAddr, .toAddr],
    Refilling.Returns (· ∈ mapped (w.maps .sip x)) (w.cache (.string .sip x)).behind
      ((given w ft x).map some)

theorem releasing_lent {objects : CacheId → Nat} (lent : Lent objects w) (listed : ft.Perm w.table)
    (vias : (w.cache (.string .sip .via)).behind = []) : Releasing w ft := by
  obtain ⟨held, assigned⟩ := lent.pooled.assigned .sip
  have live {b : Obj} (member : b ∈ ft) : b ∈ w.table := listed.mem_iff.mp member
  refine ⟨placed_lent lent, listed.nodup_iff.mpr assigned.nodup, ?_, ?_, ?_⟩
  · intro b inside c also i
    exact assigned.apart b (live inside) c (live also) i
  · intro b inside i points
    exact assigned.pool.sole.2.2 i (assigned.member b (live inside) i points)
  · intro b inside i points
    cases pointer : (w.infos i).strings .via with
    | none => rfl
    | some s =>
      have behind := lent.pointers i .via s pointer
      rw [vias] at behind
      exact absurd behind (by simp)

theorem restores_iff {objects : CacheId → Nat} (lent : Lent objects w) (listed : ft.Perm w.table) :
    Restores objects (w.releaseCache .sip ft) ↔ Returnable w ft := by
  have whole (x : StringField) : (w.cache (.string .sip x)).free ++ (w.cache (.string .sip x)).behind =
      (pool objects x).items := by
    rw [← lent.items]
    exact List.take_append_drop ..
  have vias : (w.releaseCache .sip ft).cache (.string .sip .via) = w.cache (.string .sip .via) :=
    detachAll_vias w ft
  by_cases none : (w.cache (.string .sip .via)).behind = []
  · have releasing := releasing_lent lent listed none
    have exact {x : StringField} (field : x ∈ [StringField.uri, .fromAddr, .toAddr]) :
        ((w.releaseCache .sip ft).cache (.string .sip x)).free.Perm (pool objects x).free ↔
          Refilling.Returns (· ∈ mapped (w.maps .sip x)) (w.cache (.string .sip x)).behind
            ((given w ft x).map some) := by
      have loop : (w.releaseCache .sip ft).cache (.string .sip x) = _ :=
        detachAll_pool releasing field
      rw [loop, free_takeBack, pool_free, ← whole]
      apply Refilling.refill_perm_iff
      · rw [whole]
        exact pool_nodup objects x
      · intro r member
        obtain ⟨s, back, rfl⟩ := List.mem_map.mp member
        obtain ⟨i, -, pointer⟩ := List.mem_filterMap.mp back
        exact lent.pointers i x s pointer
    constructor
    · intro restores
      refine ⟨none, fun x field => (exact field).mp (restores x ?_)⟩
      exact List.mem_append_left [StringField.via] field
    · rintro ⟨-, others⟩ x field
      rcases List.mem_append.mp (show x ∈ [StringField.uri, .fromAddr, .toAddr] ++ [.via] from field)
        with inside | last
      · exact (exact inside).mpr (others x inside)
      · obtain rfl := List.mem_singleton.mp last
        have all := whole .via
        rw [none, List.append_nil] at all
        rw [vias, all, pool_free]
  · refine iff_of_false (fun restores => ?_) fun returnable => none returnable.vias
    have perm := (restores .via (by decide)).length_eq
    rw [vias, pool_free, ← whole, List.length_append] at perm
    exact none (List.eq_nil_of_length_eq_zero (by omega))

end SIPProtocol

end AIEngine
