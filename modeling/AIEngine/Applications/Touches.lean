import AIEngine.Applications.Inspector
import AIEngine.Http.Stock
import AIEngine.Pool.Assigned
import Mathlib.Logic.Relation

/-!
# What a protocol does to the world

A protocol that works on the info of a flow attaches strings, marks the flow with an anomaly and bans
the info; nothing else. What these leave alone is proved once, for all protocols.
-/

namespace AIEngine.World

/-- The protocols that mark a banned info. -/
def marksBans : L7Protocol → Bool
  | .http => true
  | .smtp => true
  | .pop => true
  | .imap => true
  | _ => false

/-- One thing the protocol `p` does with the flow `a` and its info `i`. -/
inductive Touch (p : L7Protocol) (a i : Obj) (w w' : World) : Prop where
  | string (x : StringField) (always countHit : Bool) (value : Bytes)
      (attached : w.intern p x always countHit i value = .ok w')
  | anomaly (pa : PacketAnomalyType)
      (noted : w' = w.setFlow a ((w.flows a).setPacketAnomaly pa))
  | ban (marks : marksBans p = true) (banned : w' = w.ban p i)

def Touches (p : L7Protocol) (a i : Obj) : World → World → Prop :=
  Relation.ReflTransGen (Touch p a i)

variable {w w' : World} {p : L7Protocol} {a i : Obj}

theorem touches_refl (w : World) : Touches p a i w w := .refl

theorem touches_one (h : Touch p a i w w') : Touches p a i w w' := .single h

theorem touches_trans {w'' : World} (first : Touches p a i w w') (second : Touches p a i w' w'') :
    Touches p a i w w'' := .trans first second

/-- An invariant of everything a protocol does. -/
theorem touches_rule {Inv : World → Prop} (keep : ∀ w w', Inv w → Touch p a i w w' → Inv w')
    (inv : Inv w) (h : Touches p a i w w') : Inv w' := by
  induction h with
  | refl => exact inv
  | tail _ touch ih => exact keep _ _ ih touch

/-! ### What stays -/

/-- Pools of infos, the table and the pointers of the flows to their infos stay; no ban is lifted, and
only the info that is worked on can be banned, by a protocol that marks it. -/
structure KeepsInfos (p : L7Protocol) (i : Obj) (w w' : World) : Prop where
  pools : ∀ q, w'.cache (.info q) = w.cache (.info q)
  table : w'.table = w.table
  pointers : ∀ b q, (w'.flows b).info q = (w.flows b).info q
  banned : ∀ j, (w.infos j).isBanned = true → (w'.infos j).isBanned = true
  marked : ∀ j, (w'.infos j).isBanned = true →
    (w.infos j).isBanned = true ∨ j = i ∧ marksBans p = true

theorem keepsInfos_refl (w : World) : KeepsInfos p i w w :=
  ⟨fun _ => rfl, rfl, fun _ _ => rfl, fun _ => id, fun _ => Or.inl⟩

theorem keepsInfos_trans {w'' : World} (first : KeepsInfos p i w w')
    (second : KeepsInfos p i w' w'') : KeepsInfos p i w w'' := by
  refine ⟨fun q => (second.pools q).trans (first.pools q), second.table.trans first.table,
    fun b q => (second.pointers b q).trans (first.pointers b q),
    fun j mark => second.banned j (first.banned j mark), fun j mark => ?_⟩
  rcases second.marked j mark with before | this
  · exact first.marked j before
  · exact Or.inr this

/-- What only looks at other things than the infos. -/
theorem keepsInfos_of_same (pools : ∀ q, w'.cache (.info q) = w.cache (.info q))
    (table : w'.table = w.table) (pointers : ∀ b q, (w'.flows b).info q = (w.flows b).info q)
    (marks : ∀ j, (w'.infos j).isBanned = (w.infos j).isBanned) : KeepsInfos p i w w' := by
  refine ⟨pools, table, pointers, fun j mark => ?_, fun j mark => Or.inl ?_⟩
  · rw [marks j]
    exact mark
  · rw [← marks j]
    exact mark

theorem setString_isBanned (w : World) (i j : Obj) (x : StringField) (s : Option Obj) :
    ((w.setString i x s).infos j).isBanned = (w.infos j).isBanned := by
  by_cases same : j = i
  · simp [setString, setInfo, same]
  · simp [setString, setInfo, same]

theorem intern_keepsInfos {q : L7Protocol} {x : StringField} {always countHit : Bool} {value : Bytes}
    (h : w.intern q x always countHit i value = .ok w') : KeepsInfos p i w w' := by
  rcases intern_cases h with ⟨-, -, rfl⟩ | ⟨e, n, -, -, -, rfl⟩ | ⟨s, c, -, -, -, rfl⟩ |
    ⟨c, -, -, -, rfl⟩
  · exact keepsInfos_refl w'
  · exact keepsInfos_of_same (fun _ => rfl) rfl (fun _ _ => rfl)
      fun j => setString_isBanned _ i j x _
  · refine keepsInfos_of_same (fun r => ?_) (setCache_table ..) (fun b r => ?_) fun j => ?_
    · show (w.setCache (.string q x) c).cache (.info r) = _
      exact cache_setCache_other (by simp)
    · show ((w.setCache (.string q x) c).flows b).info r = _
      rw [setCache_flows]
    · refine (setString_isBanned _ i j x _).trans ?_
      show ((w.setCache (.string q x) c).infos j).isBanned = _
      rw [setCache_infos]
  · refine keepsInfos_of_same (fun r => cache_setCache_other (by simp)) (setCache_table ..)
      (fun b r => ?_) fun j => ?_
    · rw [setCache_flows]
    · rw [setCache_infos]

/-- Marks on a flow do not move its infos. -/
theorem setFlow_keepsInfos {f : Flow} (pointers : ∀ q, f.info q = (w.flows a).info q) :
    KeepsInfos p i w (w.setFlow a f) := by
  refine keepsInfos_of_same (fun _ => rfl) rfl (fun b q => ?_) fun _ => rfl
  by_cases same : b = a
  · rw [same]
    simpa [setFlow] using pointers q
  · simp [setFlow, same]

theorem setBanned_keepsInfos (marks : marksBans p = true) : KeepsInfos p i w (w.setBanned i) := by
  refine ⟨fun _ => rfl, rfl, fun _ _ => rfl, fun j mark => ?_, fun j mark => ?_⟩
  · by_cases same : j = i
    · simp [setBanned, setInfo, same]
    · simpa [setBanned, setInfo, same] using mark
  · by_cases same : j = i
    · exact Or.inr ⟨same, marks⟩
    · exact Or.inl (by simpa [setBanned, setInfo, same] using mark)

theorem dropHit_keepsInfos (x : StringField) : KeepsInfos p i w (w.dropHit .http x i) := by
  unfold dropHit
  split
  · exact keepsInfos_refl w
  · exact keepsInfos_of_same (fun _ => rfl) rfl (fun _ _ => rfl) fun _ => rfl

theorem releaseHttpInfoCache_keepsInfos : KeepsInfos p i w (Http.releaseHttpInfoCache w i) := by
  have ua : KeepsInfos p i w (w.dropHit .http .ua i) := dropHit_keepsInfos .ua
  have hits := keepsInfos_trans ua (dropHit_keepsInfos (w := w.dropHit .http .ua i) .uri)
  refine keepsInfos_trans hits ?_
  obtain ⟨rest, infos, -⟩ := releaseHttpInfo_spec ((w.dropHit .http .ua i).dropHit .http .uri i) i
  refine keepsInfos_of_same rest.infoCaches rest.table (fun b q => ?_) fun j => ?_
  · exact congrArg (fun flows => (flows b).info q) rest.flows
  · refine (congrArg (fun infos => (infos j).isBanned) infos).trans ?_
    by_cases same : j = i
    · simp [setInfo, same]
    · simp [setInfo, same]

theorem ban_keepsInfos (marks : marksBans p = true) : KeepsInfos p i w (w.ban p i) := by
  have marked : KeepsInfos p i w (w.setBanned i) := setBanned_keepsInfos marks
  cases p with
  | http => exact keepsInfos_trans marked releaseHttpInfoCache_keepsInfos
  | smtp => exact marked
  | pop => exact marked
  | imap => exact marked
  | _ => exact absurd marks (by decide)

theorem touches_keepsInfos (h : Touches p a i w w') : KeepsInfos p i w w' := by
  refine @touches_rule _ _ _ _ _ (KeepsInfos p i w) ?_ (keepsInfos_refl w) h
  intro u u' kept touch
  refine keepsInfos_trans kept ?_
  cases touch with
  | string x always countHit value attached => exact intern_keepsInfos attached
  | anomaly pa noted =>
    rw [noted]
    refine setFlow_keepsInfos fun q => ?_
    cases q <;> rfl
  | ban marks banned =>
    rw [banned]
    exact ban_keepsInfos marks

/-- A ban leaves the info banned. -/
theorem ban_isBanned (marks : marksBans p = true) : ((w.ban p i).infos i).isBanned = true := by
  have marked : ((w.setBanned i).infos i).isBanned = true := by simp [setBanned, setInfo]
  cases p with
  | http =>
    have kept : KeepsInfos .http i _ _ := releaseHttpInfoCache_keepsInfos (w := w.setBanned i)
    exact kept.banned i marked
  | smtp => exact marked
  | pop => exact marked
  | imap => exact marked
  | _ => exact absurd marks (by decide)

/-! ### Pools without an empty slot -/

/-- No pool has an empty slot. -/
def Filled (w : World) : Prop := ∀ id, (w.cache id).Stocked

theorem filled_same (filled : w.Filled) (same : ∀ id, w'.cache id = w.cache id) : w'.Filled := by
  intro id
  rw [same]
  exact filled id

theorem filled_setCache {id : CacheId} {c : Cache} (filled : w.Filled) (stocked : c.Stocked) :
    (w.setCache id c).Filled := by
  intro id'
  by_cases same : id' = id
  · rw [same, cache_setCache_same]
    exact stocked
  · rw [cache_setCache_other same]
    exact filled id'

theorem filled_releaseTo {id : CacheId} {s : Obj} (filled : w.Filled) :
    (w.releaseTo id (some s)).Filled := filled_setCache filled (Cache.stocked_release (filled id))

theorem filled_start (objects : CacheId → Nat) (layer : Option Nat) :
    (start objects layer).Filled := by
  intro id
  rw [start_cache]
  exact Cache.stocked_create _ _

theorem filled_attachInfo {r : Option Obj} (filled : w.Filled)
    (h : w.attachInfo p a = .ok (r, w')) : w'.Filled := by
  rcases attachInfo_cases h with ⟨j, -, -, rfl⟩ | ⟨j, c, -, -, acquired, rfl⟩ | ⟨c, -, failed, rfl⟩
  · exact filled
  · have taken : (w.setCache (.info p) c).Filled :=
      filled_setCache filled (Cache.stocked_of_acquire (filled (.info p)) acquired)
    exact filled_same taken fun _ => rfl
  · exact filled_setCache filled (Cache.stocked_of_acquire (filled (.info p)) failed)

/-- An info can be acquired, or the pool says that it has none. -/
theorem attachInfo_filled (filled : w.Filled) :
    ∃ r w', w.attachInfo p a = .ok (r, w') := by
  unfold attachInfo
  split
  · exact ⟨_, _, rfl⟩
  · obtain ⟨r, c, acquired, -⟩ := Cache.stocked_acquire (filled (.info p))
    rw [acquired]
    cases r with
    | none => exact ⟨_, _, rfl⟩
    | some j => exact ⟨_, _, rfl⟩

theorem filled_intern {x : StringField} {always countHit : Bool} {value : Bytes} (filled : w.Filled)
    (h : w.intern p x always countHit i value = .ok w') : w'.Filled := by
  rcases intern_cases h with ⟨-, -, rfl⟩ | ⟨e, n, -, -, -, rfl⟩ | ⟨s, c, acquired, -, -, rfl⟩ |
    ⟨c, failed, -, -, rfl⟩
  · exact filled
  · exact filled_same filled fun _ => rfl
  · have taken : (w.setCache (.string p x) c).Filled :=
      filled_setCache filled (Cache.stocked_of_acquire (filled (.string p x)) acquired)
    exact filled_same taken fun _ => rfl
  · exact filled_setCache filled (Cache.stocked_of_acquire (filled (.string p x)) failed)

/-- So can a string. -/
theorem intern_filled (x : StringField) (always countHit : Bool) (value : Bytes)
    (filled : w.Filled) : ∃ w', w.intern p x always countHit i value = .ok w' := by
  unfold intern
  split
  · exact ⟨_, rfl⟩
  · split
    · obtain ⟨r, c, acquired, -⟩ := Cache.stocked_acquire (filled (.string p x))
      unfold internNew
      rw [acquired]
      cases r with
      | none => exact ⟨_, rfl⟩
      | some s => exact ⟨_, rfl⟩
    · exact ⟨_, rfl⟩

theorem filled_releaseString {x target : StringField} (filled : w.Filled) :
    (w.releaseString p x target false i).Filled := by
  unfold releaseString
  split
  · exact filled
  · exact filled_releaseTo filled

theorem filled_dropHit {x : StringField} (filled : w.Filled) : (w.dropHit p x i).Filled := by
  unfold dropHit
  split
  · exact filled
  · exact filled_same filled fun _ => rfl

theorem filled_ban (filled : w.Filled) : (w.ban p i).Filled := by
  have marked : (w.setBanned i).Filled := filled_same filled fun _ => rfl
  cases p with
  | http =>
    have hits : (((w.setBanned i).dropHit .http .ua i).dropHit .http .uri i).Filled :=
      filled_dropHit (filled_dropHit marked)
    refine filled_same ?_ fun _ => rfl
    exact filled_releaseString (x := .uri) (filled_releaseString (x := .ua)
      (filled_releaseString (x := .host) hits))
  | smtp => exact marked
  | pop => exact marked
  | imap => exact marked
  | _ => exact filled

theorem filled_touches (filled : w.Filled) (h : Touches p a i w w') : w'.Filled := by
  refine @touches_rule _ _ _ _ _ Filled ?_ filled h
  intro u u' before touch
  cases touch with
  | string x always countHit value attached => exact filled_intern before attached
  | anomaly pa noted =>
    rw [noted]
    exact filled_same before fun _ => rfl
  | ban marks banned =>
    rw [banned]
    exact filled_ban before

end AIEngine.World
