import AIEngine.Resources.LedgerSteps

/-!
# Payloads that keep the ledger

What a protocol finds in a payload, up to a ban, and what the frequency engine attaches. A ban takes
strings out of their maps and gives them back; the ledger survives when both happen to the same
strings.
-/

namespace AIEngine.World

variable {objects : CacheId → Nat} {w w' : World}

/-- The ledger only looks at caches, maps and pointers. -/
theorem Ledger.congr (ledger : Ledger objects w) (cache : ∀ id, w'.cache id = w.cache id)
    (table : w'.table = w.table) (flows : w'.flows = w.flows) (maps : w'.maps = w.maps)
    (names : w'.names = w.names) (disordered : w'.disordered = w.disordered)
    (strings : ∀ i, (w'.infos i).strings = (w.infos i).strings) : Ledger objects w' := by
  obtain ⟨nodup, flowShape, idle, interned, keys, named, ordered⟩ := ledger.shape
  have shape : Shape w' := by
    refine ⟨table ▸ nodup, ?_, ?_, ?_, ?_, ?_, disordered ▸ ordered⟩
    · rw [table, flows]
      exact flowShape
    · rw [table, flows]
      exact idle
    · intro a live p i attached x s pointer
      rw [table] at live
      rw [flows] at attached
      rw [strings] at pointer
      rw [maps]
      exact interned a live p i attached x s pointer
    · rw [maps]
      exact keys
    · rw [maps, names]
      exact named
  exact ledger_moves ledger shape (moves_same (fun id _ => cache id)
    (out_same table maps fun a _ id => by rw [flows]))

/-! ### Taking a string out of its map -/

theorem removeHit_cases (m : List MapEntry) (key : Bytes) :
    removeHit m key = erase m key ∨
      (removeHit m key).map MapEntry.object = m.map MapEntry.object ∧
        (removeHit m key).map MapEntry.key = m.map MapEntry.key := by
  unfold removeHit
  split
  · exact Or.inr ⟨rfl, rfl⟩
  · split
    · exact Or.inl rfl
    · exact Or.inr ⟨addHits_objects _ _ _, addHits_keys _ _ _⟩

theorem removeHit_keys_nodup {m : List MapEntry} (key : Bytes)
    (nodup : (m.map MapEntry.key).Nodup) : ((removeHit m key).map MapEntry.key).Nodup := by
  rcases removeHit_cases m key with erased | ⟨-, keys⟩
  · rw [erased]
    exact ((List.filter_sublist (l := m)).map MapEntry.key).nodup nodup
  · rw [keys]
    exact nodup

/-- When the string has left the map, nothing else has. -/
theorem removeHit_objects {m : List MapEntry} {names : Obj → Bytes} {s : Obj}
    (keys : (m.map MapEntry.key).Nodup) (named : ∀ e ∈ m, e.key = cString (names e.object))
    (distinct : (m.map MapEntry.object).Nodup) (before : s ∈ m.map MapEntry.object)
    (after : s ∉ (removeHit m (cString (names s))).map MapEntry.object) :
    ((removeHit m (cString (names s))).map MapEntry.object).Perm
      ((m.map MapEntry.object).erase s) := by
  rcases removeHit_cases m (cString (names s)) with erased | ⟨objects, -⟩
  · rw [erased] at after ⊢
    refine (List.perm_ext_iff_of_nodup
      (((List.filter_sublist (l := m)).map MapEntry.object).nodup distinct)
      (distinct.erase s)).mpr fun t => ?_
    rw [distinct.mem_erase_iff]
    constructor
    · intro member
      refine ⟨fun same => after (same ▸ member), ?_⟩
      obtain ⟨e, kept, rfl⟩ := List.mem_map.mp member
      exact List.mem_map_of_mem (List.mem_of_mem_filter kept)
    · intro ⟨other, member⟩
      obtain ⟨e, entry, rfl⟩ := List.mem_map.mp member
      obtain ⟨e', entry', rfl⟩ := List.mem_map.mp before
      -- an entry under the key of the string is the entry of the string
      have apart : e.key ≠ cString (names e'.object) := by
        intro same
        rw [← named e' entry'] at same
        exact other (congrArg MapEntry.object (List.inj_on_of_nodup_map keys entry entry' same))
      exact List.mem_map_of_mem (List.mem_filter.mpr ⟨entry, decide_eq_true apart⟩)
  · rw [objects] at after
    exact absurd before after

/-! ### Bans -/

/-- The map after one hit less for the string of the info. -/
def withoutHit (w : World) (p : L7Protocol) (x : StringField) (i : Obj) : List MapEntry :=
  match (w.infos i).strings x with
  | none => w.maps p x
  | some s => removeHit (w.maps p x) (cString (w.names s))

/-- The cache after the string of the info has come back. -/
def withString (w : World) (p : L7Protocol) (x : StringField) (i : Obj) : Cache :=
  match (w.infos i).strings x with
  | none => w.cache (.string p x)
  | some s => (w.cache (.string p x)).release (some s)

theorem alive_of_owns {p : L7Protocol} {x : StringField} {s : Obj}
    (owned : (w.cache (.string p x)).Owns s) : w.StringAlive p s :=
  ⟨x, mem_stringFields x, Or.inl owned⟩

theorem setCache_self (w : World) (p : L7Protocol) (x : StringField) :
    w.setCache (.string p x) (w.cache (.string p x)) = w := by
  have same : (fun id => if id = .string p x then w.cache (.string p x) else w.caches id) =
      w.caches := by
    funext id
    split
    · rename_i chosen
      rw [chosen]
      rfl
    · rfl
  unfold setCache
  simp only [same]

theorem withoutHit_congr {p : L7Protocol} {x : StringField} {i : Obj}
    (strings : (w'.infos i).strings = (w.infos i).strings) (maps : w'.maps p x = w.maps p x)
    (names : w'.names = w.names) : w'.withoutHit p x i = w.withoutHit p x i := by
  unfold withoutHit
  rw [strings, maps, names]

theorem withString_congr {p : L7Protocol} {x : StringField} {i : Obj}
    (strings : (w'.infos i).strings = (w.infos i).strings)
    (cache : w'.cache (.string p x) = w.cache (.string p x)) :
    w'.withString p x i = w.withString p x i := by
  unfold withString
  rw [strings, cache]

/-- Only the map of the field is another one, and in its order. -/
structure AfterHit (w : World) (p : L7Protocol) (x : StringField) (i : Obj) (w' : World) : Prop where
  cache : w'.cache = w.cache
  table : w'.table = w.table
  flows : w'.flows = w.flows
  names : w'.names = w.names
  infos : w'.infos = w.infos
  disordered : w'.disordered = w.disordered
  hit : w'.maps p x = w.withoutHit p x i
  maps : ∀ q y, ¬(q = p ∧ y = x) → w'.maps q y = w.maps q y

theorem dropHit_after (w : World) {p : L7Protocol} {x : StringField} {i : Obj}
    (owned : ∀ s, (w.infos i).strings x = some s → (w.cache (.string p x)).Owns s)
    (ordered : w.disordered p x = false) : AfterHit w p x i (w.dropHit p x i) := by
  unfold dropHit
  cases pointer : (w.infos i).strings x with
  | none =>
    refine ⟨rfl, rfl, rfl, rfl, rfl, rfl, ?_, fun _ _ _ => rfl⟩
    simp only [withoutHit, pointer]
    rfl
  | some s =>
    rw [lockString_of_alive (alive_of_owns (owned s pointer))]
    refine ⟨rfl, rfl, rfl, rfl, rfl, rfl, ?_, fun q y other => setMap_other other⟩
    simp only [setMap_same, settle_clean ordered, withoutHit, pointer]

theorem releaseString_eq (w : World) {p : L7Protocol} {x : StringField} {i : Obj}
    (owned : ∀ s, (w.infos i).strings x = some s → (w.cache (.string p x)).Owns s) :
    w.releaseString p x x false i = w.setCache (.string p x) (w.withString p x i) := by
  unfold releaseString withString
  cases pointer : (w.infos i).strings x with
  | none => exact (setCache_self w p x).symm
  | some s =>
    rw [lockString_of_alive (alive_of_owns (owned s pointer))]
    rfl

/-- The strings a ban takes. -/
def Banned (x : StringField) : Prop := x = .host ∨ x = .ua ∨ x = .uri

/-- What a ban in HTTP leaves, when the caches still own the strings. -/
structure AfterBan (w : World) (i : Obj) (w' : World) : Prop where
  table : w'.table = w.table
  flows : w'.flows = w.flows
  names : w'.names = w.names
  disordered : w'.disordered = w.disordered
  strings : ∀ j, (w'.infos j).strings = if j = i then fun _ => none else (w.infos j).strings
  hits : ∀ x, x = .ua ∨ x = .uri → w'.maps .http x = w.withoutHit .http x i
  maps : ∀ p x, ¬(p = .http ∧ (x = .ua ∨ x = .uri)) → w'.maps p x = w.maps p x
  given : ∀ x, Banned x → w'.cache (.string .http x) = w.withString .http x i
  caches : ∀ id, (∀ x, Banned x → id ≠ .string .http x) → w'.cache id = w.cache id

theorem releaseHttpInfo_eq {i : Obj} (owned : ∀ x, Banned x → ∀ s,
    (w.infos i).strings x = some s → (w.cache (.string .http x)).Owns s) :
    Http.releaseHttpInfo w i =
      (((w.setCache (.string .http .host) (w.withString .http .host i)).setCache
        (.string .http .ua) (w.withString .http .ua i)).setCache
        (.string .http .uri) (w.withString .http .uri i)).resetStrings i := by
  unfold Http.releaseHttpInfo
  rw [releaseString_eq w (owned .host (Or.inl rfl))]
  generalize first : w.setCache (.string .http .host) (w.withString .http .host i) = w₁
  have strings₁ : w₁.infos = w.infos := by rw [← first, setCache_infos]
  have others₁ : ∀ x, x ≠ .host → w₁.cache (.string .http x) = w.cache (.string .http x) := by
    intro x other
    rw [← first, cache_setCache_other (by simpa using other)]
  have ua : ∀ s, (w₁.infos i).strings .ua = some s → (w₁.cache (.string .http .ua)).Owns s := by
    rw [strings₁, others₁ .ua (by decide)]
    exact owned .ua (Or.inr (Or.inl rfl))
  simp only
  rw [releaseString_eq w₁ ua, withString_congr (w := w) (by rw [strings₁]) (others₁ .ua (by decide))]
  generalize second : w₁.setCache (.string .http .ua) (w.withString .http .ua i) = w₂
  have strings₂ : w₂.infos = w.infos := by rw [← second, setCache_infos, strings₁]
  have other₂ : w₂.cache (.string .http .uri) = w.cache (.string .http .uri) := by
    rw [← second, cache_setCache_other (by decide), others₁ .uri (by decide)]
  have uri : ∀ s, (w₂.infos i).strings .uri = some s → (w₂.cache (.string .http .uri)).Owns s := by
    rw [strings₂, other₂]
    exact owned .uri (Or.inr (Or.inr rfl))
  rw [releaseString_eq w₂ uri, withString_congr (w := w) (by rw [strings₂]) other₂]

theorem ban_http {i : Obj} (ordered : ∀ x, w.disordered .http x = false)
    (owned : ∀ x, Banned x → ∀ s, (w.infos i).strings x = some s →
      (w.cache (.string .http x)).Owns s) : AfterBan w i (w.ban .http i) := by
  have marked : ((w.setBanned i).infos i).strings = (w.infos i).strings := by
    simp [setBanned, setInfo]
  -- the hits go first; the strings stay where they are
  have first := dropHit_after (w.setBanned i) (x := .ua)
    (marked ▸ owned .ua (Or.inr (Or.inl rfl))) (ordered .ua)
  unfold ban Http.releaseHttpInfoCache
  simp only
  generalize (w.setBanned i).dropHit .http .ua i = w₁ at first ⊢
  have strings₁ : (w₁.infos i).strings = (w.infos i).strings := by rw [first.infos, marked]
  have cache₁ : w₁.cache = w.cache := first.cache
  have second := dropHit_after w₁ (x := .uri) (i := i)
    (by rw [strings₁, cache₁]; exact owned .uri (Or.inr (Or.inr rfl)))
    (by rw [first.disordered]; exact ordered .uri)
  have uri : w₁.withoutHit .http .uri i = w.withoutHit .http .uri i :=
    withoutHit_congr strings₁ (first.maps _ _ (by simp)) first.names
  generalize w₁.dropHit .http .uri i = w₂ at second ⊢
  have strings₂ : ∀ j, (w₂.infos j).strings = (w.infos j).strings := by
    intro j
    rw [second.infos, first.infos]
    by_cases chosen : j = i <;> simp [setBanned, setInfo, chosen]
  have cache₂ : w₂.cache = w.cache := second.cache.trans cache₁
  have given : ∀ x, w₂.withString .http x i = w.withString .http x i :=
    fun x => withString_congr (strings₂ i) (by rw [cache₂])
  rw [releaseHttpInfo_eq (w := w₂) (by rw [strings₂, cache₂]; exact owned), given, given, given]
  refine ⟨second.table.trans first.table, second.flows.trans first.flows,
    second.names.trans first.names, second.disordered.trans first.disordered, ?_, ?_, ?_, ?_, ?_⟩
  · intro j
    by_cases chosen : j = i
    · simp [resetStrings, setInfo, chosen]
    · simp [resetStrings, setInfo, chosen, strings₂]
  · rintro x (rfl | rfl)
    · exact (second.maps .http .ua (by simp)).trans
        (first.hit.trans (withoutHit_congr marked rfl rfl))
    · exact second.hit.trans uri
  · intro p x other
    have apart : ¬(p = .http ∧ x = .ua) ∧ ¬(p = .http ∧ x = .uri) := by tauto
    exact (second.maps p x apart.2).trans (first.maps p x apart.1)
  · intro x chosen
    rw [resetStrings_cache]
    rcases chosen with rfl | rfl | rfl
    · rw [cache_setCache_other (by decide), cache_setCache_other (by decide), cache_setCache_same]
    · rw [cache_setCache_other (by decide), cache_setCache_same]
    · rw [cache_setCache_same]
  · intro id other
    rw [resetStrings_cache, cache_setCache_other (other .uri (Or.inr (Or.inr rfl))),
      cache_setCache_other (other .ua (Or.inr (Or.inl rfl))),
      cache_setCache_other (other .host (Or.inl rfl)), cache₂]

/-- The objects of a map after a ban: the string of the banned info has left, and nothing else. -/
theorem withoutHit_objects {x : StringField} {i s : Obj} (ledger : Ledger objects w)
    (pointer : (w.infos i).strings x = some s)
    (before : s ∈ (w.maps .http x).map MapEntry.object)
    (after : s ∉ (removeHit (w.maps .http x) (cString (w.names s))).map MapEntry.object) :
    ((w.withoutHit .http x i).map MapEntry.object).Perm
      (((w.maps .http x).map MapEntry.object).erase s) := by
  unfold withoutHit
  rw [pointer]
  exact removeHit_objects (ledger.shape.keys .http x) (ledger.shape.names .http x)
    (ledger.accounts (.string .http x) rfl).kept.sole.1 before after

theorem withoutHit_keys {p : L7Protocol} {x : StringField} {i : Obj} (shape : Shape w) :
    ((w.withoutHit p x i).map MapEntry.key).Nodup := by
  unfold withoutHit
  split
  · exact shape.keys p x
  · exact removeHit_keys_nodup _ (shape.keys p x)

theorem withoutHit_named {p : L7Protocol} {x : StringField} {i : Obj} (shape : Shape w) :
    ∀ e ∈ w.withoutHit p x i, e.key = cString (w.names e.object) := by
  intro e member
  unfold withoutHit at member
  split at member
  · exact shape.names p x e member
  · obtain ⟨e₀, old, key, object⟩ := mem_removeHit member
    rw [← key, ← object]
    exact shape.names p x e₀ old

section
variable {a i : Obj} {x : StringField}

theorem clean_host (ledger : Ledger objects w) (member : a ∈ w.table)
    (attached : (w.flows a).info .http = some i) (clean : w.BansClean i) :
    (w.infos i).strings .host = none := by
  cases pointer : (w.infos i).strings .host with
  | none => rfl
  | some s =>
    -- no hit of a host is dropped, so it cannot have left the map
    have stays := (clean .host (Or.inl rfl) s pointer).2.1
    exact absurd (ledger.shape.strings a member .http i attached .host s pointer) stays

/-- A clean ban takes the string of the info out of the map. -/
theorem clean_objects (ledger : Ledger objects w) (member : a ∈ w.table)
    (attached : (w.flows a).info .http = some i) (clean : w.BansClean i)
    (chosen : x = .ua ∨ x = .uri) {s : Obj} (pointer : (w.infos i).strings x = some s) :
    ((w.withoutHit .http x i).map MapEntry.object).Perm
      (((w.maps .http x).map MapEntry.object).erase s) := by
  have interned := ledger.shape.strings a member .http i attached x s pointer
  refine withoutHit_objects ledger pointer interned ?_
  have gone := (clean x (Or.inr chosen) s pointer).2.1
  rcases chosen with rfl | rfl <;> exact gone

/-- The string that leaves the map is the one that comes back to the pool. -/
theorem afterBan_moved (ledger : Ledger objects w) (member : a ∈ w.table)
    (attached : (w.flows a).info .http = some i) (clean : w.BansClean i) (left : AfterBan w i w')
    (chosen : x = .ua ∨ x = .uri) : Pool.Move ((CacheId.string .http x).isString = false)
      (w.client (.string .http x)) (w'.client (.string .http x)) := by
  have cache := left.given x (Or.inr chosen)
  have listed : w'.out (.string .http x) = (w.withoutHit .http x i).map MapEntry.object := by
    simp only [out, left.hits x chosen]
  cases pointer : (w.infos i).strings x with
  | none =>
    refine .same ?_ (.of_eq ?_)
    · simp only [client, cache, withString, pointer]
    · simp only [client, listed, withoutHit, pointer]
      rfl
  | some s =>
    refine .released s (ledger.shape.strings a member .http i attached x s pointer) ?_
      (fun guarded => absurd guarded (by simp [CacheId.isString])) ?_
    · simp only [client, cache, withString, pointer]
    · simp only [client, listed]
      exact clean_objects ledger member attached clean chosen pointer

/-- Nobody else refers to a string that has left its map. -/
theorem afterBan_strings (ledger : Ledger objects w) (member : a ∈ w.table)
    (attached : (w.flows a).info .http = some i) (clean : w.BansClean i) (left : AfterBan w i w')
    {b : Obj} (live : b ∈ w.table) {q : L7Protocol} {j : Obj} (known : (w.flows b).info q = some j)
    {y : StringField} {t : Obj} (pointer : (w'.infos j).strings y = some t) :
    t ∈ (w'.maps q y).map MapEntry.object := by
  rw [left.strings] at pointer
  split at pointer
  · exact absurd pointer (by simp)
  · rename_i other
    have before := ledger.shape.strings b live q j known y t pointer
    by_cases chosen : q = .http ∧ (y = .ua ∨ y = .uri)
    · obtain ⟨rfl, field⟩ := chosen
      rw [left.hits y field]
      cases dropped : (w.infos i).strings y with
      | none =>
        simp only [withoutHit, dropped]
        exact before
      | some s =>
        have apart : t ≠ s := by
          intro same
          rw [same] at pointer
          exact (clean y (Or.inr field) s dropped).2.2 b live j known other pointer
        have objects := clean_objects ledger member attached clean field dropped
        exact objects.mem_iff.mpr ((List.mem_erase_of_ne apart).mpr before)
    · rw [left.maps q y chosen]
      exact before

theorem afterBan_shape (ledger : Ledger objects w) (member : a ∈ w.table)
    (attached : (w.flows a).info .http = some i) (clean : w.BansClean i)
    (left : AfterBan w i w') : Shape w' := by
  refine ⟨left.table ▸ ledger.shape.nodup, ?_, ?_, ?_, ?_, ?_,
    left.disordered ▸ ledger.shape.ordered⟩
  · rw [left.table, left.flows]
    exact ledger.shape.flows
  · rw [left.table, left.flows]
    exact ledger.shape.idle
  · intro b live q j known y t pointer
    rw [left.table] at live
    rw [left.flows] at known
    exact afterBan_strings ledger member attached clean left live known pointer
  · intro q y
    by_cases chosen : q = .http ∧ (y = .ua ∨ y = .uri)
    · obtain ⟨rfl, field⟩ := chosen
      rw [left.hits y field]
      exact withoutHit_keys ledger.shape
    · rw [left.maps q y chosen]
      exact ledger.shape.keys q y
  · intro q y
    rw [left.names]
    by_cases chosen : q = .http ∧ (y = .ua ∨ y = .uri)
    · obtain ⟨rfl, field⟩ := chosen
      rw [left.hits y field]
      exact withoutHit_named ledger.shape
    · rw [left.maps q y chosen]
      exact ledger.shape.names q y

theorem ledger_banHttp (ledger : Ledger objects w) (member : a ∈ w.table)
    (attached : (w.flows a).info .http = some i) (clean : w.BansClean i) :
    Ledger objects (w.ban .http i) := by
  have left := ban_http (ledger.shape.ordered .http) (i := i)
    fun x chosen s known => (clean x chosen s known).1
  have noHost := clean_host ledger member attached clean
  generalize w.ban .http i = w' at left
  refine ledger_moves ledger (afterBan_shape ledger member attached clean left) ?_
  intro id pooled
  cases string : id.isString with
  | false =>
    refine .same (left.caches id fun x _ same => ?_) (.of_eq ?_)
    · rw [same] at string
      exact absurd string (by simp [CacheId.isString])
    · simp only [client]
      rw [out_direct w' string, out_direct w string, left.table, left.flows]
  | true =>
    cases id with
    | string q y =>
      by_cases chosen : q = .http ∧ (y = .ua ∨ y = .uri)
      · obtain ⟨rfl, field⟩ := chosen
        exact string ▸ afterBan_moved ledger member attached clean left field
      · have listed : w'.out (.string q y) = w.out (.string q y) := by
          simp only [out, left.maps q y chosen]
        refine .same ?_ (.of_eq listed)
        simp only [client]
        by_cases host : q = .http ∧ y = .host
        · obtain ⟨rfl, rfl⟩ := host
          rw [left.given .host (Or.inl rfl), withString, noHost]
        · refine left.caches _ fun x field same => ?_
          obtain ⟨sameProtocol, sameField⟩ := CacheId.string.inj same
          rcases field with rfl | banned
          · exact host ⟨sameProtocol, sameField⟩
          · exact chosen ⟨sameProtocol, sameField ▸ banned⟩
    | _ => exact absurd string (by simp [CacheId.isString])

end

theorem ledger_setBanned {i : Obj} (ledger : Ledger objects w) : Ledger objects (w.setBanned i) := by
  refine ledger.congr (fun _ => rfl) rfl rfl rfl rfl rfl fun j => ?_
  by_cases chosen : j = i <;> simp [setBanned, setInfo, chosen]

theorem ledger_ban {a i : Obj} {p : L7Protocol} (ledger : Ledger objects w) (member : a ∈ w.table)
    (attached : (w.flows a).info p = some i) (clean : p = .http → w.BansClean i) :
    Ledger objects (w.ban p i) := by
  cases p with
  | http => exact ledger_banHttp ledger member attached (clean rfl)
  | smtp => exact ledger_setBanned ledger
  | pop => exact ledger_setBanned ledger
  | imap => exact ledger_setBanned ledger
  | _ => exact ledger

/-! ### Protocols -/

theorem ledger_runActions {a i : Obj} {p : L7Protocol} (actions : List AppAction) {w w' : World}
    (ledger : Ledger objects w) (member : a ∈ w.table) (attached : (w.flows a).info p = some i)
    (clean : w.ActionsClean p i actions) (h : w.runActions p i actions = .ok w') :
    Ledger objects w' := by
  induction actions generalizing w with
  | nil =>
    obtain rfl := Except.ok.inj h
    exact ledger
  | cons action rest ih =>
    cases action with
    | ban =>
      obtain rfl := Except.ok.inj h
      exact ledger_ban ledger member attached clean
    | string x value =>
      simp only [runActions] at h
      simp only [ActionsClean] at clean
      split at h
      · rename_i unknown
        rw [unknown] at clean
        exact ih ledger member attached clean h
      · rename_i attach known
        rw [known] at clean
        obtain ⟨fresh, later⟩ := clean
        split at h
        · rename_i w₁ ran
          have after := later w₁ ran
          obtain ⟨countHit, rfl⟩ := attachString_intern known
          obtain ⟨interned, table, flows⟩ := ledger_intern ledger member attached fresh ran
          refine ih interned ?_ ?_ after h
          · rw [table]
            exact member
          · rw [flows]
            exact attached
        · exact absurd h (by simp)

theorem ledger_protocol {a : Obj} {p : L7Protocol} {found : List AppAction}
    (ledger : Ledger objects w) (member : a ∈ w.table)
    (forwarder : (w.flows a).forwarder = some p.index)
    (clean : ∀ i w₁, w.attachInfo p a = .ok (some i, w₁) → (w₁.infos i).isBanned = false →
      w₁.ActionsClean p i found)
    (h : w.processFlow p a found = .ok w') : Ledger objects w' := by
  obtain ⟨r, w₁, attached, rfl | ⟨i, rfl, notBanned, ran⟩⟩ := processFlow_cases h
  · exact (ledger_attachInfo ledger member forwarder attached).1
  · obtain ⟨after, live, info⟩ := ledger_attachInfo ledger member forwarder attached
    exact ledger_runActions found after live (info i rfl) (clean i w₁ attached notBanned) ran

/-! ### The frequency engine -/

/-- A flow whose pointers are the same is written. -/
theorem ledger_rewrite {a : Obj} {f : Flow} (ledger : Ledger objects w) (member : a ∈ w.table)
    (shape : FlowShape f) (pointers : ∀ id, f.pointer id = (w.flows a).pointer id) :
    Ledger objects (w.setFlow a f) := by
  refine ledger_moves ledger (shape_setFlow ledger.shape member shape fun p i known => ?_)
    (moves_same (fun _ _ => rfl) (out_same rfl rfl fun b _ id => ?_))
  · exact ledger.shape.strings a member p i ((pointers (.info p)).symm.trans known)
  · by_cases same : b = a
    · simp only [setFlow, same, ↓reduceIte]
      exact slot_same (pointers id)
    · simp only [setFlow, same, ↓reduceIte]

/-- The ledger does not look into the objects of the engine. -/
theorem ledger_setFrequency {k : Nat} {q : FrequencyProtocol} (ledger : Ledger objects w)
    (freqs : q.freqsCache = (w.frequency k).freqsCache)
    (packetFreqs : q.packetFreqsCache = (w.frequency k).packetFreqsCache) :
    Ledger objects (w.setFrequency k q) := by
  refine ledger.congr (fun id => ?_) rfl rfl rfl rfl rfl fun _ => rfl
  cases id with
  | frequencies j =>
    by_cases same : j = k
    · simp [cache, setFrequency, same, freqs]
    · simp [cache, setFrequency, same]
  | packetFrequencies j =>
    by_cases same : j = k
    · simp [cache, setFrequency, same, packetFreqs]
    · simp [cache, setFrequency, same]
  | _ => rfl

theorem setFrequency_twice (w : World) (k : Nat) (q q' : FrequencyProtocol) :
    (w.setFrequency k q).setFrequency k q' = w.setFrequency k q' := by
  unfold setFrequency
  congr 1
  funext j
  by_cases same : j = k <;> simp [same]

/-- One of the two caches of the engine hands out an object, which the flow gets. -/
theorem ledger_engine {k : Nat} {id : CacheId} {a o : Obj} {c : Cache} {q : FrequencyProtocol}
    {f : Flow} (ledger : Ledger objects w) (member : a ∈ w.table)
    (engine : id = .frequencies k ∨ id = .packetFrequencies k)
    (homes : ∀ o, (w.flows a).pointer id = some o → o.home = id)
    (expired : (w.cache id).lock ((w.flows a).pointer id) = none)
    (acquired : (w.cache id).acquire = .ok (some o, c)) (pointer : f.pointer id = some o)
    (rest : ∀ id', f.pointer id' = (w.flows a).pointer id' ∨
      f.pointer id' = some o ∧ (w.flows a).pointer id' = (w.flows a).pointer id)
    (shape : o.home = id → FlowShape f) (info : ∀ p, f.info p = (w.flows a).info p)
    (freqs : q.freqsCache = ((w.setCache id c).frequency k).freqsCache)
    (packetFreqs : q.packetFreqsCache = ((w.setCache id c).frequency k).packetFreqsCache) :
    Ledger objects ((w.setFrequency k q).setFlow a f) := by
  have kinds : id.isFlow = false ∧ id.isString = false := by
    rcases engine with rfl | rfl <;> exact ⟨rfl, rfl⟩
  have empty := ledger.pointer_none member kinds.1 kinds.2 homes expired
  obtain ⟨home, -⟩ := ledger.acquired kinds.1 acquired
  have attached : Ledger objects ((w.setCache id c).setFlow a f) := by
    refine ledger_attached ledger member kinds.2 acquired home empty pointer ?_ (shape home) ?_
    · intro id'
      rw [← empty]
      exact rest id'
    · intro p i known
      exact ledger.shape.strings a member p i ((info p).symm.trans known)
  have written : Ledger objects (((w.setCache id c).setFrequency k q).setFlow a f) :=
    ledger_setFrequency attached freqs packetFreqs
  have overwritten : (w.setCache id c).setFrequency k q = w.setFrequency k q := by
    rcases engine with rfl | rfl <;> exact setFrequency_twice w k _ q
  rw [overwritten] at written
  exact written

theorem ledger_attachFrequencies {k : Nat} {a : Obj} {r : Option Obj} {q : FrequencyProtocol}
    {f : Flow} (ledger : Ledger objects w) (member : a ∈ w.table)
    (forwarder : (w.flows a).forwarder = some (9 + k))
    (h : (w.frequency k).attachFrequencies (w.flows a) = .ok (r, q, f)) :
    Ledger objects ((w.setFrequency k q).setFlow a f) ∧ f.forwarder = some (9 + k) := by
  have shape := ledger.shape.flows a member
  rcases FrequencyProtocol.attachFrequencies_cases h with ⟨rfl, rfl⟩ |
    ⟨o, c, g, expired, acquired, rfl, rfl⟩ | ⟨c, failed, rfl, rfl⟩
  · exact ⟨ledger_rewrite (ledger_setFrequency ledger rfl rfl) member shape fun _ => rfl, forwarder⟩
  · have info : ∀ p, { w.flows a with frequencies := some o }.info p = (w.flows a).info p := by
      intro p
      cases p <;> rfl
    refine ⟨ledger_engine ledger member (Or.inl rfl) ?_ expired acquired rfl
      ?_ ?_ info (by simp [setCache, setFrequency]) (by simp [setCache, setFrequency]), forwarder⟩
    · intro o' known
      obtain ⟨j, home, forwarded⟩ := shape.frequencies o' known
      have code := Option.some.inj (forwarder.symm.trans forwarded)
      have same : j = k := by omega
      rw [home, same]
    · intro id
      cases id with
      | frequencies j => exact Or.inr ⟨rfl, rfl⟩
      | info p => exact Or.inl (info p)
      | _ => exact Or.inl rfl
    · intro home
      refine ⟨shape.tcp, ?_, ?_, shape.packetFrequencies, shape.matched⟩
      · intro p i known
        exact shape.info p i ((info p).symm.trans known)
      · intro o' known
        obtain rfl := Option.some.inj known
        exact ⟨k, home, forwarder⟩
  · have kept : Ledger objects (w.setCache (.frequencies k) c) := ledger_failed ledger failed
    exact ⟨ledger_rewrite kept member shape fun _ => rfl, forwarder⟩

theorem ledger_attachPacketFrequencies {k : Nat} {a : Obj} {r : Option Obj}
    {q : FrequencyProtocol} {f : Flow} (ledger : Ledger objects w) (member : a ∈ w.table)
    (forwarder : (w.flows a).forwarder = some (9 + k))
    (h : (w.frequency k).attachPacketFrequencies (w.flows a) = .ok (r, q, f)) :
    Ledger objects ((w.setFrequency k q).setFlow a f) := by
  have shape := ledger.shape.flows a member
  rcases FrequencyProtocol.attachPacketFrequencies_cases h with ⟨rfl, rfl⟩ |
    ⟨o, c, g, expired, acquired, rfl, rfl⟩ | ⟨c, failed, rfl, rfl⟩
  · exact ledger_rewrite (ledger_setFrequency ledger rfl rfl) member shape fun _ => rfl
  · have info : ∀ p, { w.flows a with packetFrequencies := some o }.info p =
        (w.flows a).info p := by
      intro p
      cases p <;> rfl
    refine ledger_engine ledger member (Or.inr rfl) ?_ expired acquired
      rfl ?_ ?_ info (by simp [setCache, setFrequency]) (by simp [setCache, setFrequency])
    · intro o' known
      obtain ⟨j, home, forwarded⟩ := shape.packetFrequencies o' known
      have code := Option.some.inj (forwarder.symm.trans forwarded)
      have same : j = k := by omega
      rw [home, same]
    · intro id
      cases id with
      | packetFrequencies j => exact Or.inr ⟨rfl, rfl⟩
      | info p => exact Or.inl (info p)
      | _ => exact Or.inl rfl
    · intro home
      refine ⟨shape.tcp, ?_, shape.frequencies, ?_, shape.matched⟩
      · intro p i known
        exact shape.info p i ((info p).symm.trans known)
      · intro o' known
        obtain rfl := Option.some.inj known
        exact ⟨k, home, forwarder⟩
  · have kept : Ledger objects (w.setCache (.packetFrequencies k) c) := ledger_failed ledger failed
    exact ledger_rewrite kept member shape fun _ => rfl

theorem write_again (w : World) (k : Nat) (a : Obj) (q q' : FrequencyProtocol) (f f' : Flow) :
    (((w.setFrequency k q).setFlow a f).setFrequency k q').setFlow a f' =
      (w.setFrequency k q').setFlow a f' := by
  unfold setFrequency setFlow
  congr 1
  · funext j
    by_cases same : j = k <;> simp [same]
  · funext b
    by_cases same : b = a <;> simp [same]

theorem written_frequency (w : World) (k : Nat) (a : Obj) (q : FrequencyProtocol) (f : Flow) :
    ((w.setFrequency k q).setFlow a f).frequency k = q := by simp [setFrequency, setFlow]

theorem written_flow (w : World) (k : Nat) (a : Obj) (q : FrequencyProtocol) (f : Flow) :
    ((w.setFrequency k q).setFlow a f).flows a = f := by simp [setFlow]

theorem ledger_frequency {k : Nat} {a : Obj} {payload : Payload} {q : FrequencyProtocol} {f : Flow}
    (ledger : Ledger objects w) (member : a ∈ w.table)
    (forwarder : (w.flows a).forwarder = some (9 + k))
    (h : (w.frequency k).processFlow (w.flows a) payload = .ok (q, f)) :
    Ledger objects ((w.setFrequency k q).setFlow a f) := by
  unfold FrequencyProtocol.processFlow at h
  simp only at h
  generalize engine : ({ w.frequency k with
    totalPackets := (w.frequency k).totalPackets + 1
    totalBytes := (w.frequency k).totalBytes + payload.length } : FrequencyProtocol) = p₀ at h
  generalize counted : ({ w.flows a with
    totalPacketsL7 := (w.flows a).totalPacketsL7 + 1 } : Flow) = f₀ at h
  have start : Ledger objects ((w.setFrequency k p₀).setFlow a f₀) ∧ f₀.forwarder = some (9 + k) := by
    obtain ⟨tcp, info, frequencies, packetFrequencies, matched⟩ := ledger.shape.flows a member
    have same : ∀ p, f₀.info p = (w.flows a).info p := by
      intro p
      rw [← counted]
      cases p <;> rfl
    have pointers : ∀ id, f₀.pointer id = (w.flows a).pointer id := by
      intro id
      cases id with
      | info p => exact same p
      | _ => rw [← counted]; rfl
    have engineLedger : Ledger objects (w.setFrequency k p₀) :=
      ledger_setFrequency ledger (by rw [← engine]) (by rw [← engine])
    have shape : FlowShape f₀ := by
      refine ⟨?_, ?_, ?_, ?_, ?_⟩
      · rw [← counted]
        exact tcp
      · intro p i known
        rw [← counted]
        exact info p i ((same p).symm.trans known)
      · rw [← counted]
        exact frequencies
      · rw [← counted]
        exact packetFrequencies
      · rw [← counted]
        exact matched
    refine ⟨ledger_rewrite engineLedger member shape pointers, ?_⟩
    rw [← counted]
    exact forwarder
  obtain ⟨counting, forwarder₀⟩ := start
  split at h
  · obtain ⟨⟨freq, p₁, f₁⟩, first, h⟩ := Ending.bind_ok h
    obtain ⟨⟨pktFreq, p₂, f₂⟩, second, h⟩ := Ending.bind_ok h
    obtain ⟨p₃, added, h⟩ := Ending.bind_ok h
    cases h
    have attached := ledger_attachFrequencies (k := k) (a := a) counting member
      (by rw [written_flow]; exact forwarder₀) (by rw [written_frequency, written_flow]; exact first)
    rw [write_again] at attached
    obtain ⟨firstLedger, forwarder₁⟩ := attached
    have secondLedger := ledger_attachPacketFrequencies (k := k) (a := a) firstLedger member
      (by rw [written_flow]; exact forwarder₁) (by rw [written_frequency, written_flow]; exact second)
    rw [write_again] at secondLedger
    obtain ⟨freqs, packetFreqs⟩ := FrequencyProtocol.addPayloads_caches added
    have final := ledger_setFrequency (k := k) (q := q) secondLedger
      (by rw [written_frequency]; exact freqs) (by rw [written_frequency]; exact packetFreqs)
    have last : ((w.setFrequency k p₂).setFlow a f₂).setFrequency k q =
        (w.setFrequency k q).setFlow a f₂ :=
      congrArg (fun u => u.setFlow a f₂) (setFrequency_twice w k p₂ q)
    rw [last] at final
    exact final
  · cases h
    exact counting

/-! ### A forwarded payload -/

theorem ledger_payload {a : Obj} {x : Application} (ledger : Ledger objects w)
    (member : a ∈ w.table) (clean : w.PayloadClean a x) (h : w.forward a x = some w') :
    Ledger objects w' := by
  unfold forward at h
  split at h
  · rename_i allowed
    have forwarded := ledger_forwardTo ledger member allowed
    have forwarder : ((w.forwardTo a x).flows a).forwarder = x.forwarder := by
      simp [forwardTo, setFlow]
    have ran : (w.forwardTo a x).runApplication a x = .ok w' := by
      cases result : (w.forwardTo a x).runApplication a x with
      | ok w₁ =>
        rw [result] at h
        exact congrArg Except.ok (Option.some.inj h)
      | error e =>
        rw [result] at h
        exact absurd h (by simp [Except.toOption])
    cases x with
    | nothing =>
      obtain rfl := Except.ok.inj ran
      exact forwarded
    | protocol p found => exact ledger_protocol forwarded member forwarder clean ran
    | frequency k payload =>
      simp only [runApplication] at ran
      split at ran
      · rename_i q f processed
        obtain rfl := Except.ok.inj ran
        exact ledger_frequency forwarded member forwarder processed
      · exact absurd ran (by simp)
  · exact absurd h (by simp)

end AIEngine.World
