import Mathlib.Data.List.TakeWhile
import AIEngine.Applications.EmptyUri
import AIEngine.Library.LossyKeys

/-!
# The attach functions, call after call

`attach_host`, `attach_useragent` and `attach_uri` look for the octets of the packet in their map, and
keep a new string there under its C string. Which values that loses is a matter of lists of values,
see `Library.LossyKeys`; here the calls are brought to that form.
-/

namespace AIEngine

theorem cString_idem (v : Bytes) : cString (cString v) = cString v := List.takeWhile_idem

namespace World

/-- Hits do not matter to what is found. -/
theorem find_addHits (m : List MapEntry) (value : Bytes) (n : Int) (key : Bytes) :
    (find (addHits m value n) key).map MapEntry.object = (find m key).map MapEntry.object := by
  unfold find addHits
  rw [List.find?_map]
  have same : ((fun e : MapEntry => decide (e.key = key)) ∘
      fun e : MapEntry => if e.key = value then { e with hits := e.hits + n } else e) =
      fun e => decide (e.key = key) := by
    funext e
    simp only [Function.comp_apply]
    split <;> rfl
  rw [same, Option.map_map]
  congr 1
  funext e
  simp only [Function.comp_apply]
  split <;> rfl

/-- A key that is there keeps its entry. -/
theorem find_insert (m : List MapEntry) (e : MapEntry) (key : Bytes) :
    find (insert m e) key = (find m key).or (if e.key = key then some e else none) := by
  unfold insert
  by_cases there : (find m e.key).isSome = true
  · rw [if_pos there]
    by_cases same : e.key = key
    · obtain ⟨e', found⟩ := Option.isSome_iff_exists.mp there
      rw [← same, found]
      rfl
    · rw [if_neg same, Option.or_none]
  · rw [if_neg there]
    by_cases same : e.key = key
    · have absent : find m key = none := by simpa [same] using there
      rw [absent]
      simp [find, same]
    · rw [if_neg same, Option.or_none]
      unfold find
      rw [List.find?_cons_of_neg (by simpa using same)]

end World

/-- A call of `attach_host`, `attach_useragent` or `attach_uri`. -/
structure Call where
  field : StringField
  info : Obj
  value : Bytes
  deriving DecidableEq, Repr

/-- What a call has attached. -/
structure Attachment where
  field : StringField
  value : Bytes
  object : Option Obj
  deriving DecidableEq, Repr

/-- The pools and maps, and what has been attached so far. -/
structure Attaching where
  world : World
  attached : List Attachment := []

namespace Attaching

open World

/-- The functions for the host and the user agent leave an info alone that has one. -/
def Attaches (d : Attaching) (c : Call) : Prop :=
  c.field = .uri ∨ d.world.lockString .http ((d.world.infos c.info).strings c.field) = none

instance (d : Attaching) (c : Call) : Decidable (d.Attaches c) :=
  inferInstanceAs (Decidable (_ ∨ _))

/-- A call with a pool that is not empty. -/
def step (d : Attaching) (c : Call) : Option Attaching :=
  match World.attachString .http c.field with
  | none => none
  | some attach =>
    if 0 < (d.world.httpStrings c.field).total then
      match attach d.world c.info c.value with
      | .error _ => none
      | .ok w => some
        { world := w
          attached := d.attached ++
            if d.Attaches c then
              [{ field := c.field, value := c.value, object := (w.infos c.info).strings c.field }]
            else [] }
    else none

def start (objects : CacheId → Nat) (layer : Option Nat) : Attaching where
  world := World.start objects layer

def attachedTo (d : Attaching) (x : StringField) : List Attachment :=
  d.attached.filter fun e => decide (e.field = x)

def values (d : Attaching) (x : StringField) : List Bytes := (d.attachedTo x).map Attachment.value

/-- Each string attached holds the octets given, equal ones share a string whose entry is in the map,
and each pool has given a string for each value. -/
structure Canonical (first : World) (d : Attaching) : Prop where
  holds : ∀ e ∈ d.attached, ∃ o, e.object = some o ∧ d.world.names o = e.value
  shared : d.attached.Pairwise fun e e' => e.field = e'.field → e.value = e'.value →
    (∃ m ∈ d.world.maps .http e.field, e.object = some m.object) → e'.object = e.object
  counted : ∀ x ∈ [StringField.host, .ua, .uri], (first.httpStrings x).total =
    (d.world.httpStrings x).total + (d.values x).dedup.length

/-- The values that the calls attach: each uri, and the first host and user agent of an info. -/
def valuesAfter (x : StringField) : List Call → List Call → List Bytes
  | _, [] => []
  | before, c :: rest =>
    (if c.field = x ∧ (x = .uri ∨ ∀ b ∈ before, b.field = x → b.info ≠ c.info) then [c.value]
      else []) ++ valuesAfter x (before ++ [c]) rest

/-! ### One call -/

section Intern

variable {w w' : World} {x y : StringField} {always countHit : Bool} {i : Obj} {value : Bytes}

theorem intern_elsewhere (h : w.intern .http x always countHit i value = .ok w') (other : y ≠ x) :
    w'.httpStrings y = w.httpStrings y := by
  rcases intern_cases h with ⟨-, -, rfl⟩ | ⟨e, n, -, -, -, rfl⟩ | ⟨t, c, -, -, -, rfl⟩ |
    ⟨c, -, -, -, rfl⟩
  · rfl
  · rfl
  · exact strings_apart w .http c other
  · exact strings_apart w .http c other

/-- A call that attaches: it finds the value, or takes the last free string of the pool. -/
theorem intern_attached (h : w.intern .http x always countHit i value = .ok w')
    (missing : always = true ∨ w.lockString .http ((w.infos i).strings x) = none)
    (room : 0 < (w.httpStrings x).total) (ordered : w.disordered .http x = false)
    (unmapped : ∀ s ∈ (w.maps .http x).map MapEntry.object, some s ∉ (w.httpStrings x).free) :
    ((∃ e, World.find (w.maps .http x) value = some e ∧ (w'.infos i).strings x = some e.object ∧
      w'.names = w.names ∧ w'.httpStrings x = w.httpStrings x ∧
      (w'.maps .http x).map MapEntry.object = (w.maps .http x).map MapEntry.object ∧
      ∀ key, (World.find (w'.maps .http x) key).map MapEntry.object =
        (World.find (w.maps .http x) key).map MapEntry.object) ∨
    (∃ s, World.find (w.maps .http x) value = none ∧ (w'.infos i).strings x = some s ∧
      w'.names = (w.setName s value).names ∧
      (w.httpStrings x).free = (w'.httpStrings x).free ++ [some s] ∧
      (w.httpStrings x).total = (w'.httpStrings x).total + 1 ∧
      (w'.httpStrings x).items = (w.httpStrings x).items ∧
      w'.maps .http x = World.insert (w.maps .http x)
        { key := cString value, object := s, hits := 1 })) ∧ w'.disordered .http x = false := by
  rcases intern_cases h with ⟨conditional, locked, -⟩ | ⟨e, n, found, -, -, rfl⟩ |
    ⟨s, c, acquired, absent, -, rfl⟩ | ⟨c, failed, -, -, -⟩
  · rcases missing with unconditional | none
    · exact absurd (unconditional.symm.trans conditional) (by simp)
    · rw [none] at locked
      exact absurd locked (by simp)
  · have maps : (w.setMap .http x (addHits (w.maps .http x) value n)).maps .http x =
        addHits (w.maps .http x) value n := by rw [setMap_same, settle_clean ordered]
    refine ⟨Or.inl ⟨e, found, setString_same _ i x (some e.object), rfl, rfl, ?_, fun key => ?_⟩,
      ordered⟩
    · show ((w.setMap .http x _).maps .http x).map MapEntry.object = _
      rw [maps, addHits_objects]
    · show Option.map _ (World.find ((w.setMap .http x _).maps .http x) key) = _
      rw [maps]
      exact find_addHits _ _ _ key
  · have own : (w.setCache (.string .http x) c).httpStrings x = c := cache_setCache_same ..
    obtain ⟨-, -, taken⟩ := Cache.acquire_some acquired
    have before : (w.httpStrings x).free = c.free ++ [some s] := Cache.acquire_free acquired
    have fresh : s ∉ (w.maps .http x).map MapEntry.object := by
      intro mapped
      refine unmapped s mapped ?_
      rw [before]
      exact List.mem_append_right _ List.mem_cons_self
    obtain ⟨map, order⟩ := setName_clean fresh value
    have clean : (((w.setCache (.string .http x) c).setName s value).setString i x
        (some s)).disordered .http x = false := order.trans ordered
    refine ⟨Or.inr ⟨s, absent, setString_same _ i x (some s), ?_, ?_, ?_, ?_, ?_⟩, clean⟩
    · simp [setMap, setString, setInfo, setName]
    · exact before.trans (congrArg (·.free ++ [some s]) own.symm)
    · refine Eq.trans ?_ (congrArg (·.total + 1) own.symm)
      rw [taken]
      show (w.httpStrings x).total = (w.httpStrings x).total - 1 + 1
      omega
    · exact (congrArg Cache.items own).trans (Cache.acquire_items acquired)
    · rw [setMap_same, settle_clean clean, map]
  · have empty : (w.httpStrings x).total = 0 := (Cache.acquire_none failed).1
    omega

end Intern

/-! ### What a step does -/

section Steps

variable {d d' : Attaching} {c : Call} {first : World} {x : StringField} {before : List Call}
  {os : List Obj}

theorem attachString_intern {y : StringField} {attach : World → Obj → Bytes → Except Fault World}
    (known : World.attachString .http y = some attach) :
    y ∈ [StringField.host, .ua, .uri] ∧ ∃ countHit, ∀ w i v,
      attach w i v = w.intern .http y (decide (y = .uri)) countHit i v := by
  cases y with
  | host =>
    obtain rfl := Option.some.inj known
    exact ⟨by decide, true, fun _ _ _ => rfl⟩
  | ua =>
    obtain rfl := Option.some.inj known
    exact ⟨by decide, true, fun _ _ _ => rfl⟩
  | uri =>
    obtain rfl := Option.some.inj known
    exact ⟨by decide, false, fun _ _ _ => rfl⟩
  | name => exact absurd known (by simp [World.attachString])
  | fromAddr => exact absurd known (by simp [World.attachString])
  | toAddr => exact absurd known (by simp [World.attachString])
  | via => exact absurd known (by simp [World.attachString])
  | userName => exact absurd known (by simp [World.attachString])

theorem step_cases (h : d.step c = some d') :
    c.field ∈ [StringField.host, .ua, .uri] ∧ 0 < (d.world.httpStrings c.field).total ∧
      ∃ countHit, d.world.intern .http c.field (decide (c.field = .uri)) countHit c.info c.value =
          .ok d'.world ∧
        d'.attached = d.attached ++
          if d.Attaches c then
            [{ field := c.field, value := c.value,
               object := (d'.world.infos c.info).strings c.field }]
          else [] := by
  unfold step at h
  split at h
  · exact absurd h (by simp)
  · rename_i attach known
    obtain ⟨member, countHit, same⟩ := attachString_intern known
    split at h
    · rename_i room
      split at h
      · exact absurd h (by simp)
      · rename_i w ran
        obtain rfl := Option.some.inj h
        exact ⟨member, room, countHit, (same d.world c.info c.value).symm.trans ran, rfl⟩
    · exact absurd h (by simp)

/-- A pool after some calls, its map, and the objects `os` that it has given, in their order. -/
structure Held (first : World) (x : StringField) (before : List Call) (d : Attaching)
    (os : List Obj) : Prop where
  items : (d.world.httpStrings x).items = (first.httpStrings x).items
  free : (first.httpStrings x).free = (d.world.httpStrings x).free ++ os.reverse.map some
  total : (first.httpStrings x).total = (d.world.httpStrings x).total + os.length
  names : os.map d.world.names = LossyKeys.takeAll cString (d.values x)
  map : ∀ key, (World.find (d.world.maps .http x) key).map MapEntry.object =
    os.find? fun o => decide (cString (d.world.names o) = key)
  pointers : ∀ i, d.world.lockString .http ((d.world.infos i).strings x) = none ↔
    ∀ b ∈ before, b.field = x → b.info ≠ i
  objects : ∀ pre e post, d.attachedTo x = pre ++ e :: post → ∃ o ∈ os, e.object = some o ∧
    d.world.names o =
      LossyKeys.given cString (LossyKeys.takeAll cString (pre.map Attachment.value)) e.value
  ordered : d.world.disordered .http x = false
  mapped : ∀ o ∈ (d.world.maps .http x).map MapEntry.object, o ∈ os

theorem held_slots (held : Held first x before d os) : ∀ o ∈ os, (d.world.httpStrings x).Owns o := by
  intro o member
  have free : some o ∈ (first.httpStrings x).free := by
    rw [held.free]
    exact List.mem_append_right _ (List.mem_map.mpr ⟨o, List.mem_reverse.mpr member, rfl⟩)
  show some o ∈ (d.world.httpStrings x).items
  rw [held.items]
  exact List.mem_of_mem_take free

theorem find_named {f g : Obj → Bytes} {key : Bytes} (same : ∀ o ∈ os, f o = g o) :
    os.find? (fun o => decide (cString (f o) = key)) =
      os.find? fun o => decide (cString (g o) = key) := by
  induction os with
  | nil => rfl
  | cons o rest ih =>
    rw [List.find?_cons, List.find?_cons, same o List.mem_cons_self,
      ih fun o' member => same o' (List.mem_cons_of_mem _ member)]

/-- A call for another field. -/
theorem held_elsewhere (homed : d.world.HttpHomed) (held : Held first x before d os)
    (h : d.step c = some d') (other : c.field ≠ x) : Held first x (before ++ [c]) d' os := by
  obtain ⟨-, -, countHit, ran, attached⟩ := step_cases h
  have others := intern_others homed ran
  have pool := intern_elsewhere ran (Ne.symm other)
  have names : ∀ o ∈ os, d'.world.names o = d.world.names o := by
    intro o member
    refine others.names o ?_
    rw [homed.slots x o (held_slots held o member)]
    simp [Ne.symm other]
  have list : d'.attachedTo x = d.attachedTo x := by
    unfold attachedTo
    rw [attached, List.filter_append]
    split
    · simp [other]
    · simp
  have given : d'.values x = d.values x := congrArg _ list
  refine ⟨pool ▸ held.items, pool ▸ held.free, pool ▸ held.total, ?_, fun key => ?_, fun i => ?_,
    fun pre e post split => ?_, (others.disordered x (Ne.symm other)).trans held.ordered, ?_⟩
  · rw [given, ← held.names]
    exact List.map_congr_left names
  · rw [others.maps x (Ne.symm other), held.map, find_named names]
  · have pointer : (d'.world.infos i).strings x = (d.world.infos i).strings x := by
      by_cases own : i = c.info
      · rw [own]
        exact others.pointers x (Ne.symm other)
      · rw [intern_infos ran own]
    rw [pointer, lockString_congr others.alive, held.pointers]
    constructor
    · intro before' b member field
      rcases List.mem_append.mp member with old | new
      · exact before' b old field
      · rw [List.mem_singleton.mp new] at field
        exact absurd field other
    · exact fun all b member => all b (List.mem_append_left _ member)
  · rw [list] at split
    obtain ⟨o, member, object, name⟩ := held.objects pre e post split
    exact ⟨o, member, object, (names o member).trans name⟩
  · rw [others.maps x (Ne.symm other)]
    exact held.mapped

/-- A call for an info that has a string. -/
theorem held_idle (held : Held first x before d os) (h : d.step c = some d') (field : c.field = x)
    (idle : ¬d.Attaches c) : Held first x (before ++ [c]) d' os := by
  obtain ⟨-, -, countHit, ran, attached⟩ := step_cases h
  obtain ⟨notUri, locked⟩ := not_or.mp idle
  have world : d'.world = d.world := by
    unfold World.intern at ran
    rw [if_pos ⟨by simp [notUri], Option.isSome_iff_ne_none.mpr locked⟩] at ran
    exact (Except.ok.inj ran).symm
  rw [if_neg idle, List.append_nil] at attached
  have list : d'.attachedTo x = d.attachedTo x := by
    unfold attachedTo
    rw [attached]
  have given : d'.values x = d.values x := congrArg _ list
  refine ⟨world ▸ held.items, world ▸ held.free, world ▸ held.total, ?_, ?_, fun i => ?_, ?_,
    world ▸ held.ordered, world ▸ held.mapped⟩
  · rw [world, given]
    exact held.names
  · rw [world]
    exact held.map
  · rw [world, held.pointers]
    constructor
    · intro before' b member match_
      rcases List.mem_append.mp member with old | new
      · exact before' b old match_
      · rw [List.mem_singleton.mp new]
        rintro rfl
        rw [field] at locked
        exact locked ((held.pointers c.info).mpr before')
    · exact fun all b member => all b (List.mem_append_left _ member)
  · rw [world, list]
    exact held.objects

theorem lossy_find {names : Obj → Bytes} (value : Bytes) :
    LossyKeys.find cString (os.map names) value =
      (os.find? fun o => decide (cString (names o) = value)).map names := by
  unfold LossyKeys.find
  rw [List.find?_map]
  rfl

theorem values_attached {e : Attachment} (field : e.field = x)
    (attached : d'.attached = d.attached ++ [e]) :
    d'.attachedTo x = d.attachedTo x ++ [e] ∧ d'.values x = d.values x ++ [e.value] := by
  have list : d'.attachedTo x = d.attachedTo x ++ [e] := by
    unfold attachedTo
    rw [attached, List.filter_append]
    simp [field]
  refine ⟨list, ?_⟩
  unfold values
  rw [list, List.map_append]
  rfl

theorem append_singleton_split {α : Type} {l pre post : List α} {e new : α}
    (split : l ++ [new] = pre ++ e :: post) :
    (post = [] ∧ l = pre ∧ new = e) ∨ ∃ post', post = post' ++ [new] ∧ l = pre ++ e :: post' := by
  rcases List.eq_nil_or_concat' post with rfl | ⟨post', last, rfl⟩
  · obtain ⟨rfl, same⟩ := List.append_inj' split rfl
    exact Or.inl ⟨rfl, rfl, List.singleton_inj.mp same⟩
  · have arranged : l ++ [new] = (pre ++ e :: post') ++ [last] := by
      rw [split]
      simp
    obtain ⟨rfl, same⟩ := List.append_inj' arranged rfl
    rw [List.singleton_inj.mp same]
    exact Or.inr ⟨post', rfl, rfl⟩

/-- The call gives a string to its info, and to no other one. -/
theorem attaches_pointers {o : Obj} (held : Held first c.field before d os)
    (ran : d.world.intern .http c.field always countHit c.info c.value = .ok d'.world)
    (pointer : (d'.world.infos c.info).strings c.field = some o)
    (owned : (d.world.httpStrings c.field).Owns o) (i : Obj) :
    d'.world.lockString .http ((d'.world.infos i).strings c.field) = none ↔
      ∀ b ∈ before ++ [c], b.field = c.field → b.info ≠ i := by
  rw [lockString_congr (intern_alive ran)]
  by_cases own : i = c.info
  · subst own
    rw [pointer, lockString_of_alive ⟨c.field, stringField_listed c.field, Or.inl owned⟩]
    exact iff_of_false (by simp) fun all => all c (by simp) rfl rfl
  · rw [intern_infos ran own, held.pointers]
    constructor
    · intro before' b inside field
      rcases List.mem_append.mp inside with old | new
      · exact before' b old field
      · rw [List.mem_singleton.mp new]
        exact fun same => own same.symm
    · exact fun all b inside => all b (List.mem_append_left _ inside)

theorem held_hit {e : MapEntry} (held : Held first c.field before d os)
    (list : d'.attachedTo c.field = d.attachedTo c.field ++
      [⟨c.field, c.value, (d'.world.infos c.info).strings c.field⟩])
    (values : d'.values c.field = d.values c.field ++ [c.value])
    (ran : d.world.intern .http c.field always countHit c.info c.value = .ok d'.world)
    (found : World.find (d.world.maps .http c.field) c.value = some e)
    (pointer : (d'.world.infos c.info).strings c.field = some e.object)
    (names : d'.world.names = d.world.names)
    (pool : d'.world.httpStrings c.field = d.world.httpStrings c.field)
    (objects : (d'.world.maps .http c.field).map MapEntry.object =
      (d.world.maps .http c.field).map MapEntry.object)
    (maps : ∀ key, (World.find (d'.world.maps .http c.field) key).map MapEntry.object =
      (World.find (d.world.maps .http c.field) key).map MapEntry.object)
    (ordered : d'.world.disordered .http c.field = false) :
    Held first c.field (before ++ [c]) d' os := by
  have entry := held.map c.value
  rw [found] at entry
  have known : os.find? (fun o => decide (cString (d.world.names o) = c.value)) = some e.object :=
    entry.symm
  have inside := List.mem_of_find?_eq_some known
  have lossy : LossyKeys.find cString (LossyKeys.takeAll cString (d.values c.field)) c.value =
      some (d.world.names e.object) := by
    rw [← held.names, lossy_find, known]
    rfl
  refine ⟨pool ▸ held.items, pool ▸ held.free, pool ▸ held.total, ?_, fun key => ?_,
    attaches_pointers held ran pointer (held_slots held e.object inside), fun pre e' post split => ?_,
    ordered, objects ▸ held.mapped⟩
  · rw [values, names, held.names, LossyKeys.takeAll_append, LossyKeys.take, if_pos]
    rw [lossy]
    rfl
  · rw [maps, held.map, names]
  · rw [list] at split
    rcases append_singleton_split split with ⟨-, rfl, rfl⟩ | ⟨post', -, before'⟩
    · refine ⟨e.object, inside, pointer, ?_⟩
      rw [names, LossyKeys.given]
      show _ = (LossyKeys.find cString (LossyKeys.takeAll cString (d.values c.field)) c.value).getD _
      rw [lossy]
      rfl
    · rw [names]
      exact held.objects pre e' post' before'

theorem held_miss {s : Obj} (once : (first.httpStrings c.field).free.Nodup)
    (held : Held first c.field before d os)
    (list : d'.attachedTo c.field = d.attachedTo c.field ++
      [⟨c.field, c.value, (d'.world.infos c.info).strings c.field⟩])
    (values : d'.values c.field = d.values c.field ++ [c.value])
    (ran : d.world.intern .http c.field always countHit c.info c.value = .ok d'.world)
    (absent : World.find (d.world.maps .http c.field) c.value = none)
    (pointer : (d'.world.infos c.info).strings c.field = some s)
    (names : d'.world.names = (d.world.setName s c.value).names)
    (free : (d.world.httpStrings c.field).free = (d'.world.httpStrings c.field).free ++ [some s])
    (total : (d.world.httpStrings c.field).total = (d'.world.httpStrings c.field).total + 1)
    (items : (d'.world.httpStrings c.field).items = (d.world.httpStrings c.field).items)
    (maps : d'.world.maps .http c.field = World.insert (d.world.maps .http c.field)
      { key := cString c.value, object := s, hits := 1 })
    (ordered : d'.world.disordered .http c.field = false) :
    Held first c.field (before ++ [c]) d' (os ++ [s]) := by
  have absent' : os.find? (fun o => decide (cString (d.world.names o) = c.value)) = none := by
    rw [← held.map, absent]
    rfl
  have lossy : LossyKeys.find cString (LossyKeys.takeAll cString (d.values c.field)) c.value =
      none := by
    rw [← held.names, lossy_find, absent']
    rfl
  have fresh : s ∉ os := by
    intro inside
    rw [held.free, free, List.append_assoc, List.nodup_append] at once
    refine (List.nodup_append.mp once.2.1).2.2 (some s) List.mem_cons_self (some s) ?_ rfl
    exact List.mem_map.mpr ⟨s, List.mem_reverse.mpr inside, rfl⟩
  have kept : ∀ o ∈ os, d'.world.names o = d.world.names o := by
    intro o inside
    have other : o ≠ s := by
      rintro rfl
      exact fresh inside
    rw [names]
    exact if_neg other
  have new : d'.world.names s = c.value := by
    rw [names]
    exact if_pos rfl
  have slot : (d.world.httpStrings c.field).Owns s := by
    have free' : some s ∈ (d.world.httpStrings c.field).free := by
      rw [free]
      simp
    exact List.mem_of_mem_take free'
  refine ⟨?_, ?_, ?_, ?_, fun key => ?_, attaches_pointers held ran pointer slot,
    fun pre e' post split => ?_, ordered, fun o mapped => ?_⟩
  · exact items.trans held.items
  · rw [held.free, free]
    simp
  · rw [held.total, total, List.length_append]
    simp
    omega
  · rw [values, LossyKeys.takeAll_append, LossyKeys.take, if_neg (by rw [lossy]; simp),
      List.map_append, List.map_congr_left kept, held.names, List.map_singleton, new]
  · rw [maps, find_insert, List.find?_append, find_named kept, ← held.map, Option.map_or]
    congr 1
    by_cases key' : cString c.value = key <;> simp [new, key']
  · rw [list] at split
    rcases append_singleton_split split with ⟨-, rfl, rfl⟩ | ⟨post', -, before'⟩
    · refine ⟨s, by simp, pointer, ?_⟩
      rw [new, LossyKeys.given]
      show _ = (LossyKeys.find cString (LossyKeys.takeAll cString (d.values c.field)) c.value).getD _
      rw [lossy]
      rfl
    · obtain ⟨o, inside, object, name⟩ := held.objects pre e' post' before'
      exact ⟨o, List.mem_append_left _ inside, object, (kept o inside).trans name⟩
  · rw [maps] at mapped
    obtain ⟨e, entry, rfl⟩ := List.mem_map.mp mapped
    rcases mem_insert entry with rfl | old
    · exact List.mem_append_right _ List.mem_cons_self
    · exact List.mem_append_left _ (held.mapped _ (List.mem_map_of_mem old))

/-- A call that attaches. -/
theorem held_attaches (once : (first.httpStrings x).free.Nodup) (held : Held first x before d os)
    (h : d.step c = some d') (field : c.field = x) (attaches : d.Attaches c) :
    ∃ os', Held first x (before ++ [c]) d' os' := by
  obtain ⟨member, room, countHit, ran, attached⟩ := step_cases h
  rw [if_pos attaches] at attached
  subst field
  have missing : decide (c.field = .uri) = true ∨
      d.world.lockString .http ((d.world.infos c.info).strings c.field) = none :=
    attaches.imp decide_eq_true id
  obtain ⟨list, values⟩ := values_attached (x := c.field) rfl attached
  have unmapped : ∀ s ∈ (d.world.maps .http c.field).map MapEntry.object,
      some s ∉ (d.world.httpStrings c.field).free := by
    intro s mapped free
    rw [held.free, List.nodup_append] at once
    refine once.2.2 (some s) free (some s) ?_ rfl
    exact List.mem_map.mpr ⟨s, List.mem_reverse.mpr (held.mapped s mapped), rfl⟩
  obtain ⟨cases, ordered⟩ := intern_attached ran missing room held.ordered unmapped
  rcases cases with ⟨e, found, pointer, names, pool, objects, maps⟩ |
    ⟨s, absent, pointer, names, free, total, items, maps⟩
  · exact ⟨os, held_hit held list values ran found pointer names pool objects maps ordered⟩
  · exact ⟨os ++ [s],
      held_miss once held list values ran absent pointer names free total items maps ordered⟩

/-! ### Every run -/

theorem held_start (objects : CacheId → Nat) (layer : Option Nat) (x : StringField) :
    Held (World.start objects layer) x [] (start objects layer) [] := by
  refine ⟨rfl, (List.append_nil _).symm, rfl, rfl, fun _ => rfl, fun _ => ?_,
    fun pre e post split => ?_, rfl, fun o mapped => absurd mapped (by simp [start, World.start])⟩
  · exact iff_of_true rfl fun b none => absurd none (by simp)
  · exact absurd split.symm (by simp [start, attachedTo])

theorem held_step (once : (first.httpStrings x).free.Nodup) (homed : d.world.HttpHomed)
    (held : Held first x before d os) (h : d.step c = some d') :
    (∃ os', Held first x (before ++ [c]) d' os') ∧ d'.world.HttpHomed ∧
      d'.values x = d.values x ++
        if c.field = x ∧ (x = .uri ∨ ∀ b ∈ before, b.field = x → b.info ≠ c.info) then [c.value]
        else [] := by
  obtain ⟨-, -, countHit, ran, attached⟩ := step_cases h
  have homed' := httpHomed_intern homed ran
  by_cases field : c.field = x
  · have attaches_iff : d.Attaches c ↔
        (x = .uri ∨ ∀ b ∈ before, b.field = x → b.info ≠ c.info) := by
      unfold Attaches
      rw [field, held.pointers]
    by_cases attaches : d.Attaches c
    · rw [if_pos attaches] at attached
      rw [if_pos ⟨field, attaches_iff.mp attaches⟩]
      exact ⟨held_attaches once held h field attaches, homed',
        (values_attached (e := ⟨c.field, c.value, _⟩) field attached).2⟩
    · rw [if_neg attaches, List.append_nil] at attached
      rw [if_neg fun both => attaches (attaches_iff.mpr both.2), List.append_nil]
      refine ⟨⟨os, held_idle held h field attaches⟩, homed', ?_⟩
      unfold values attachedTo
      rw [attached]
  · rw [if_neg fun both => field both.1, List.append_nil]
    refine ⟨⟨os, held_elsewhere homed held h field⟩, homed', ?_⟩
    unfold values attachedTo
    rw [attached, List.filter_append]
    split
    · simp [field]
    · simp

theorem held_run {calls : List Call} (once : (first.httpStrings x).free.Nodup)
    (homed : d.world.HttpHomed) (held : Held first x before d os)
    (ran : Transition.run step d calls = some d') :
    (∃ os', Held first x (before ++ calls) d' os') ∧
      d'.values x = d.values x ++ valuesAfter x before calls := by
  induction calls generalizing d before os with
  | nil =>
    obtain rfl := Option.some.inj ran
    refine ⟨⟨os, ?_⟩, ?_⟩
    · rw [List.append_nil]
      exact held
    · rw [valuesAfter, List.append_nil]
  | cons c rest ih =>
    obtain ⟨d₁, stepped, later⟩ := Option.bind_eq_some_iff.mp ran
    obtain ⟨⟨os₁, held₁⟩, homed₁, values₁⟩ := held_step once homed held stepped
    obtain ⟨⟨os', held'⟩, values'⟩ := ih homed₁ held₁ later
    refine ⟨⟨os', ?_⟩, ?_⟩
    · rw [List.append_assoc] at held'
      exact held'
    · rw [values', values₁, valuesAfter, List.append_assoc]

theorem fields_run {calls : List Call}
    (known : ∀ e ∈ d.attached, e.field ∈ [StringField.host, .ua, .uri])
    (ran : Transition.run step d calls = some d') :
    ∀ e ∈ d'.attached, e.field ∈ [StringField.host, .ua, .uri] := by
  induction calls generalizing d with
  | nil =>
    obtain rfl := Option.some.inj ran
    exact known
  | cons c rest ih =>
    obtain ⟨d₁, stepped, later⟩ := Option.bind_eq_some_iff.mp ran
    obtain ⟨member, -, countHit, -, attached⟩ := step_cases stepped
    refine ih (fun e inside => ?_) later
    rw [attached] at inside
    rcases List.mem_append.mp inside with old | new
    · exact known e old
    · split at new
      · rw [List.mem_singleton.mp new]
        exact member
      · exact absurd new (by simp)

theorem length_taken (held : Held first x before d os) :
    os.length = (LossyKeys.takeAll cString (d.values x)).length := by
  rw [← held.names, List.length_map]

/-- What a call has attached holds what the list of values says. -/
theorem held_object (held : Held first x before d os) {e : Attachment} (field : e.field = x)
    (member : e ∈ d.attached) : ∃ pre post o, d.values x = pre ++ e.value :: post ∧ o ∈ os ∧
      e.object = some o ∧
      d.world.names o = LossyKeys.given cString (LossyKeys.takeAll cString pre) e.value := by
  have inside : e ∈ d.attachedTo x := List.mem_filter.mpr ⟨member, decide_eq_true field⟩
  obtain ⟨pre, post, split⟩ := List.append_of_mem inside
  obtain ⟨o, listed, object, name⟩ := held.objects pre e post split
  refine ⟨pre.map Attachment.value, post.map Attachment.value, o, ?_, listed, object, name⟩
  unfold values
  rw [split, List.map_append, List.map_cons]

theorem canonical_of_held (held : ∀ x, ∃ before os, Held first x before d os)
    (known : ∀ e ∈ d.attached, e.field ∈ [StringField.host, .ua, .uri]) :
    Canonical first d ↔
      ∀ x ∈ [StringField.host, .ua, .uri], LossyKeys.Canonical cString (d.values x) := by
  constructor
  · intro canonical x listed
    obtain ⟨before, os, held⟩ := held x
    refine (LossyKeys.canonical_iff cString_idem).mpr ⟨fun pre v post split => ?_, ?_⟩
    · obtain ⟨pre', tail, split', rfl, cons⟩ := List.map_eq_append_iff.mp split
      obtain ⟨e, post', rfl, rfl, -⟩ := List.map_eq_cons_iff.mp cons
      obtain ⟨o, -, object, name⟩ := held.objects pre' e post' split'
      have member : e ∈ d.attachedTo x := by
        rw [split']
        simp
      obtain ⟨o', object', name'⟩ := canonical.holds e (List.mem_of_mem_filter member)
      obtain rfl := Option.some.inj (object.symm.trans object')
      exact name.symm.trans name'
    · have counted := canonical.counted x listed
      rw [held.total] at counted
      rw [← length_taken held]
      omega
  · intro lists
    refine ⟨fun e member => ?_, ?_, fun x listed => ?_⟩
    · obtain ⟨before, os, held⟩ := held e.field
      obtain ⟨exact, -⟩ := (LossyKeys.canonical_iff cString_idem).mp (lists e.field (known e member))
      obtain ⟨pre, post, o, split, -, object, name⟩ := held_object held rfl member
      exact ⟨o, object, name.trans (exact pre _ post split)⟩
    · refine List.pairwise_iff_forall_sublist.mpr fun {e e'} sub field value _ => ?_
      have member := sub.subset List.mem_cons_self
      have member' := sub.subset (List.mem_cons_of_mem _ List.mem_cons_self)
      obtain ⟨before, os, held⟩ := held e.field
      have canonical := lists e.field (known e member)
      obtain ⟨exact, -⟩ := (LossyKeys.canonical_iff cString_idem).mp canonical
      have distinct := LossyKeys.nodup_takeAll cString_idem canonical
      rw [← held.names] at distinct
      obtain ⟨pre, post, o, split, listed, object, name⟩ := held_object held rfl member
      obtain ⟨pre', post', o', split', listed', object', name'⟩ := held_object held field.symm member'
      rw [object, object']
      refine congrArg some (List.inj_on_of_nodup_map distinct listed' listed ?_)
      rw [name, name', exact pre _ post split, exact pre' _ post' split', value]
    · obtain ⟨before, os, held⟩ := held x
      obtain ⟨-, counted⟩ := (LossyKeys.canonical_iff cString_idem).mp (lists x listed)
      rw [held.total, length_taken held, counted]

end Steps

/-- Whatever is attached in whatever order, with no pool empty: interning is canonical exactly when
in the values attached to each kind of pointer one with a NUL in it comes once, and one without it
before those that have it and are the same up to their first NUL. -/
theorem attached_canonical_iff (objects : CacheId → Nat) (layer : Option Nat) (calls : List Call)
    (d : Attaching) (ran : Transition.run step (start objects layer) calls = some d) :
    Canonical (World.start objects layer) d ↔ ∀ x ∈ [StringField.host, .ua, .uri],
      LossyKeys.Canonical cString (valuesAfter x [] calls) := by
  have homed := httpHomed_start objects layer
  have runs : ∀ x, (∃ os', Held (World.start objects layer) x ([] ++ calls) d os') ∧
      d.values x = valuesAfter x [] calls := by
    intro x
    have once : ((World.start objects layer).httpStrings x).free.Nodup :=
      (Http.start_interned objects layer).2.once x
    obtain ⟨held, values⟩ := held_run once homed (held_start objects layer x) ran
    exact ⟨held, values⟩
  rw [canonical_of_held (fun x => ⟨_, (runs x).1⟩) (fields_run (fun e none => absurd none (by
    simp [start])) ran)]
  simp only [(runs _).2]

/-- Two infos with the same uri. -/
theorem canonical_twice : ∃ d, Transition.run step (start (fun _ => 2) none)
      [⟨.uri, ⟨.info .http, 0⟩, [0x61]⟩, ⟨.uri, ⟨.info .http, 1⟩, [0x61]⟩] = some d ∧
    Canonical (World.start (fun _ => 2) none) d :=
  ⟨_, rfl, (attached_canonical_iff (fun _ => 2) none
    [⟨.uri, ⟨.info .http, 0⟩, [0x61]⟩, ⟨.uri, ⟨.info .http, 1⟩, [0x61]⟩] _ rfl).mpr (by decide)⟩

/-- The second uri is the first one up to its NUL. -/
theorem not_always_canonical : ¬∀ objects layer calls d,
    Transition.run step (start objects layer) calls = some d →
      Canonical (World.start objects layer) d := by
  intro always
  have ran : Transition.run step (start (fun _ => 2) none)
      [⟨.uri, ⟨.info .http, 0⟩, [0x61, 0x00, 0x62]⟩, ⟨.uri, ⟨.info .http, 1⟩, [0x61]⟩] =
        some _ := rfl
  obtain ⟨o, object, name⟩ := (always _ _ _ _ ran).holds
    ⟨.uri, [0x61], some ⟨.string .http .uri, 1⟩⟩ (by decide)
  obtain rfl := Option.some.inj object
  exact absurd name (by decide)

end Attaching

end AIEngine
