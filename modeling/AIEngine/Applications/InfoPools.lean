import AIEngine.Applications.FrequencyWorks
import AIEngine.Applications.Works
import AIEngine.Resources.Application
import AIEngine.Resources.Interning

/-!
# The infos of the live flows

As long as nobody calls `releaseCache`, the pools of infos are only acquired from and released to:
two live flows never refer to one info, and no two protocols share one. So whatever a packet does to
the info of its flow, the infos of the other flows stay what they are.
-/

namespace AIEngine

theorem Cache.acquire_id {c c' : Cache} {r : Option Obj} (h : c.acquire = .ok (r, c')) :
    c'.id = c.id := by
  cases r with
  | none =>
    obtain ⟨-, rfl⟩ := acquire_none h
    rfl
  | some a =>
    obtain ⟨-, -, rfl⟩ := acquire_some h
    rfl

theorem Cache.release_id (c : Cache) (a : Option Obj) : (c.release a).id = c.id := by
  unfold release
  split <;> rfl

namespace World

/-- Every info that a live flow refers to has been handed out to that flow. -/
structure Pooled (w : World) : Prop where
  filled : w.Filled
  assigned : ∀ p, ∃ held,
    Pool.Assigned (w.cache (.info p)) w.table (fun a => (w.flows a).info p) held
  named : ∀ p, (w.cache (.info p)).id = .info p

variable {w w' : World} {p q : L7Protocol} {a b i j : Obj}

theorem pooled_start (objects : CacheId → Nat) (layer : Option Nat) :
    (start objects layer).Pooled := by
  refine ⟨filled_start objects layer, fun p => ⟨[], ?_⟩, fun p => ?_⟩
  · rw [start_cache]
    exact Pool.assigned_start _ _ _
  · rw [start_cache, Cache.create_eq]

/-- The infos of one protocol all come out of its pool. -/
theorem pooled_home (pooled : w.Pooled) (live : a ∈ w.table) (at' : (w.flows a).info p = some i) :
    i.home = .info p := by
  obtain ⟨held, assigned⟩ := pooled.assigned p
  obtain ⟨k, -, rfl⟩ := assigned.pool.wf.held i (assigned.member a live i at')
  exact pooled.named p

/-- An info has one flow and one protocol. -/
theorem pooled_apart (pooled : w.Pooled) (live : a ∈ w.table) (live' : b ∈ w.table)
    (at' : (w.flows a).info p = some i) (also : (w.flows b).info q = some i) : a = b ∧ p = q := by
  have same : p = q := by
    have home := (pooled_home pooled live at').symm.trans (pooled_home pooled live' also)
    exact CacheId.info.inj home
  obtain ⟨held, assigned⟩ := pooled.assigned p
  rw [← same] at also
  exact ⟨assigned.apart a live b live' i at' also, same⟩

/-- What only looks at other things than the pools of infos. -/
theorem pooled_same (pooled : w.Pooled) (filled : w'.Filled)
    (pools : ∀ p, w'.cache (.info p) = w.cache (.info p)) (table : w'.table = w.table)
    (pointers : ∀ b p, (w'.flows b).info p = (w.flows b).info p) : w'.Pooled := by
  refine ⟨filled, fun p => ?_, fun p => ?_⟩
  · obtain ⟨held, assigned⟩ := pooled.assigned p
    rw [pools, table]
    exact ⟨held, Pool.assigned_congr assigned fun b _ => pointers b p⟩
  · rw [pools]
    exact pooled.named p

theorem pooled_overwrite (pooled : w.Pooled) (sight : Nat → MapEntry → Bytes) :
    (w.overwrite sight).Pooled :=
  pooled_same pooled (filled_same pooled.filled fun _ => rfl) (fun _ => rfl) rfl fun _ _ => rfl

theorem pooled_setFlow {f : Flow} (pooled : w.Pooled)
    (pointers : ∀ q, f.info q = (w.flows a).info q) : (w.setFlow a f).Pooled := by
  refine pooled_same pooled (filled_same pooled.filled fun _ => rfl) (fun _ => rfl) rfl ?_
  exact (setFlow_keepsInfos (p := .gprs) (i := a) pointers).pointers

theorem pooled_touches (pooled : w.Pooled) (h : Touches p a i w w') : w'.Pooled := by
  have kept := touches_keepsInfos h
  exact pooled_same pooled (filled_touches pooled.filled h) kept.pools kept.table kept.pointers

theorem setInfo_apart (f : Flow) {p q : L7Protocol} (i : Option Obj) (other : q ≠ p) :
    (f.setInfo p i).info q = f.info q := by
  cases p <;> cases q <;> first | rfl | exact absurd rfl other

theorem named_setCache {c : Cache} (pooled : w.Pooled) (same : c.id = (w.cache (.info p)).id)
    (q : L7Protocol) : ((w.setCache (.info p) c).cache (.info q)).id = .info q := by
  by_cases chosen : q = p
  · rw [chosen, cache_setCache_same, same]
    exact pooled.named p
  · rw [infoPools_apart w c chosen]
    exact pooled.named q

theorem pooled_taken {c : Cache} (pooled : w.Pooled)
    (taken : (w.cache (.info p)).acquire = .ok (some j, c)) :
    (((w.setCache (.info p) c).setInfo j {}).setFlow a
      ((w.flows a).setInfo p (some j))).Pooled := by
  have stocked : (w.setCache (.info p) c).Filled :=
    filled_setCache pooled.filled (Cache.stocked_of_acquire (pooled.filled (.info p)) taken)
  refine ⟨filled_same stocked fun _ => rfl, fun q => ?_, fun q => ?_⟩
  · obtain ⟨held, assigned⟩ := pooled.assigned q
    by_cases same : q = p
    · subst same
      refine ⟨j :: held, ?_⟩
      rw [setFlow_cache, setInfo_cache, cache_setCache_same]
      refine (Pool.assigned_acquire (a := a) assigned taken ?_ fun b other => ?_).1
      · simp [setFlow, setInfo_info]
      · simp only [setFlow, if_neg other]
        rfl
    · refine ⟨held, ?_⟩
      rw [setFlow_cache, setInfo_cache, infoPools_apart w c same]
      refine Pool.assigned_congr assigned fun b _ => ?_
      by_cases chosen : b = a
      · subst chosen
        simp only [setFlow, if_true]
        exact setInfo_apart _ _ same
      · simp only [setFlow, if_neg chosen]
        rfl
  · exact named_setCache pooled (Cache.acquire_id taken) q

theorem pooled_missed {c : Cache} (pooled : w.Pooled)
    (failed : (w.cache (.info p)).acquire = .ok (none, c)) : (w.setCache (.info p) c).Pooled := by
  have stocked : (w.setCache (.info p) c).Filled :=
    filled_setCache pooled.filled (Cache.stocked_of_acquire (pooled.filled (.info p)) failed)
  refine ⟨stocked, fun q => ?_, fun q => ?_⟩
  · obtain ⟨held, assigned⟩ := pooled.assigned q
    refine ⟨held, ?_⟩
    rw [setCache_table, setCache_flows]
    by_cases same : q = p
    · subst same
      rw [cache_setCache_same]
      exact Pool.assigned_fail assigned failed
    · rw [infoPools_apart w c same]
      exact assigned
  · exact named_setCache pooled (Cache.acquire_id failed) q

/-- An attached info is new, or the flow has had it. -/
theorem pooled_attachInfo {r : Option Obj} (pooled : w.Pooled)
    (h : w.attachInfo p a = .ok (r, w')) : w'.Pooled := by
  rcases attachInfo_cases h with ⟨j, -, -, rfl⟩ | ⟨j, c, -, -, acquired, rfl⟩ | ⟨c, -, failed, rfl⟩
  · exact pooled
  · exact pooled_taken pooled acquired
  · exact pooled_missed pooled failed

/-! ### What a packet leaves alone -/

theorem intern_infos {x : StringField} {always countHit : Bool} {value : Bytes}
    (h : w.intern p x always countHit i value = .ok w') (other : j ≠ i) :
    w'.infos j = w.infos j := by
  rcases intern_cases h with ⟨-, -, rfl⟩ | ⟨e, n, -, -, -, rfl⟩ | ⟨s, c, -, -, -, rfl⟩ |
    ⟨c, -, -, -, rfl⟩
  · rfl
  · simp [setString, setInfo, setMap, other]
  · simp [setString, setInfo, setMap, setName, other]
  · rw [setCache_infos]

theorem setBanned_infos (w : World) (other : j ≠ i) : (w.setBanned i).infos j = w.infos j := by
  simp [setBanned, setInfo, other]

theorem dropHit_infos (w : World) (x : StringField) (i : Obj) :
    (w.dropHit p x i).infos = w.infos := by
  unfold dropHit
  split <;> rfl

theorem ban_infos (w : World) (other : j ≠ i) : (w.ban p i).infos j = w.infos j := by
  have marked := setBanned_infos w other
  cases p with
  | http =>
    refine Eq.trans ?_ marked
    obtain ⟨-, infos, -⟩ := releaseHttpInfo_spec
      (((w.setBanned i).dropHit .http .ua i).dropHit .http .uri i) i
    refine (congrFun infos j).trans ?_
    simp only [setInfo, if_neg other, dropHit_infos]
  | smtp => exact marked
  | pop => exact marked
  | imap => exact marked
  | _ => rfl

theorem touches_infos (h : Touches p a i w w') (other : j ≠ i) : w'.infos j = w.infos j := by
  refine @touches_rule _ _ _ _ _ (fun u => u.infos j = w.infos j) ?_ rfl h
  intro u u' same touch
  refine Eq.trans ?_ same
  cases touch with
  | string x always countHit value attached => exact intern_infos attached other
  | anomaly pa noted =>
    rw [noted]
    rfl
  | ban marks banned =>
    rw [banned]
    exact ban_infos u other

/-- Everything but the pool of the protocol, the pointer of the flow to its info, and that info. -/
structure Spares (p : L7Protocol) (a : Obj) (w w' : World) : Prop where
  table : w'.table = w.table
  pools : ∀ q, q ≠ p → w'.cache (.info q) = w.cache (.info q)
  pointers : ∀ b q, ¬(b = a ∧ q = p) → (w'.flows b).info q = (w.flows b).info q
  infos : ∀ j, (w'.flows a).info p ≠ some j → w'.infos j = w.infos j

/-- Marks on the flow, and then more. -/
theorem spares_marked {w'' : World} {f : Flow} (pointers : ∀ q, f.info q = (w.flows a).info q)
    (after : Spares p a (w.setFlow a f) w'') : Spares p a w w'' := by
  have marked := (setFlow_keepsInfos (p := p) (i := a) pointers).pointers
  exact ⟨after.table, after.pools, fun b q other => (after.pointers b q other).trans (marked b q),
    after.infos⟩

theorem spares_trans {w'' : World} (first : Spares p a w w') (second : Spares p a w' w'')
    (same : (w''.flows a).info p = (w'.flows a).info p) : Spares p a w w'' := by
  refine ⟨second.table.trans first.table,
    fun q other => (second.pools q other).trans (first.pools q other),
    fun b q other => (second.pointers b q other).trans (first.pointers b q other), fun j other => ?_⟩
  rw [second.infos j other]
  rw [same] at other
  exact first.infos j other

theorem setFlow_spares {f : Flow} (pointers : ∀ q, f.info q = (w.flows a).info q) :
    Spares p a w (w.setFlow a f) :=
  ⟨rfl, fun _ _ => rfl, fun b q _ => (setFlow_keepsInfos (p := p) (i := a) pointers).pointers b q,
    fun _ _ => rfl⟩

theorem attachInfo_spares {r : Option Obj} (h : w.attachInfo p a = .ok (r, w')) :
    Spares p a w w' := by
  rcases attachInfo_cases h with ⟨j, -, -, rfl⟩ | ⟨j, c, -, -, acquired, rfl⟩ | ⟨c, -, -, rfl⟩
  · exact ⟨rfl, fun _ _ => rfl, fun _ _ _ => rfl, fun _ _ => rfl⟩
  · refine ⟨rfl, fun q other => infoPools_apart w c other, fun b q other => ?_, fun k other => ?_⟩
    · by_cases chosen : b = a
      · subst chosen
        simp only [setFlow, if_true]
        exact setInfo_apart _ _ fun same => other ⟨rfl, same⟩
      · simp only [setFlow, if_neg chosen]
        rfl
    · have different : k ≠ j := by
        rintro rfl
        exact other (by simp [setFlow, setInfo_info])
      show (if k = j then ({} : Info) else w.infos k) = w.infos k
      exact if_neg different
  · exact ⟨setCache_table .., fun q other => infoPools_apart w c other,
      fun b q _ => by rw [setCache_flows], fun j _ => by rw [setCache_infos]⟩

theorem touches_spares (attached : (w.flows a).info p = some i) (h : Touches p a i w w') :
    Spares p a w w' ∧ (w'.flows a).info p = some i := by
  have kept := touches_keepsInfos h
  have pointer : (w'.flows a).info p = some i := (kept.pointers a p).trans attached
  refine ⟨⟨kept.table, fun q _ => kept.pools q, fun b q _ => kept.pointers b q, fun j other => ?_⟩,
    pointer⟩
  exact touches_infos h fun same => other (by rw [same]; exact pointer)

theorem handled_spares {grew : Prop} (h : Handled p a grew w w') : Spares p a w w' := by
  cases h with
  | noted f pointers written kept =>
    rw [written]
    exact setFlow_spares pointers
  | without f pointers failed kept => exact spares_marked pointers (attachInfo_spares failed)
  | worked f pointers i w₁ attached touches counted =>
    obtain ⟨at', -⟩ := lockInfo_some (attachInfo_locked attached)
    obtain ⟨worked, same⟩ := touches_spares at' touches
    exact spares_marked pointers (spares_trans (attachInfo_spares attached) worked (same.trans at'.symm))

theorem handled_pooled {grew : Prop} (pooled : w.Pooled) (h : Handled p a grew w w') :
    w'.Pooled := by
  cases h with
  | noted f pointers written kept =>
    rw [written]
    exact pooled_setFlow pooled pointers
  | without f pointers failed kept => exact pooled_attachInfo (pooled_setFlow pooled pointers) failed
  | worked f pointers i w₁ attached touches counted =>
    exact pooled_touches (pooled_attachInfo (pooled_setFlow pooled pointers) attached) touches

/-- The infos of other flows, and those of other protocols of the flow. -/
theorem handled_others {grew : Prop} (pooled : w.Pooled) (h : Handled p a grew w w')
    (live : a ∈ w.table) (live' : b ∈ w.table) (at' : (w.flows b).info q = some j)
    (other : ¬(b = a ∧ q = p)) :
    (w'.flows b).info q = some j ∧ w'.infos j = w.infos j := by
  have spares := handled_spares h
  have after := handled_pooled pooled h
  have pointer : (w'.flows b).info q = some j := (spares.pointers b q other).trans at'
  refine ⟨pointer, spares.infos j fun same => other ?_⟩
  rw [← spares.table] at live live'
  exact pooled_apart after live' live pointer same

/-- A flow that a ban was counted for has an info that is banned. -/
theorem handled_banned {grew : Prop} (h : Handled p a grew w w') (counted : grew) :
    ∃ i, (w'.flows a).info p = some i ∧ (marksBans p = true → (w'.infos i).isBanned = true) := by
  cases h with
  | noted f pointers written kept => exact absurd counted kept
  | without f pointers failed kept => exact absurd counted kept
  | worked f pointers i w₁ attached touches banned =>
    obtain ⟨at', -⟩ := lockInfo_some (attachInfo_locked attached)
    obtain ⟨-, same⟩ := touches_spares at' touches
    exact ⟨i, same, fun marks => banned marks counted⟩

/-- An info that is banned after a packet was so before, or the protocol marks bans. -/
theorem handled_marked {grew : Prop} (h : Handled p a grew w w')
    (at' : (w'.flows a).info p = some i) (banned : (w'.infos i).isBanned = true) :
    ((w.flows a).info p = some i ∧ (w.infos i).isBanned = true) ∨ marksBans p = true := by
  have marked : ∀ f : Flow, (∀ q, f.info q = (w.flows a).info q) →
      ((w.setFlow a f).flows a).info p = (w.flows a).info p := fun f pointers =>
    (setFlow_keepsInfos (p := p) (i := a) pointers).pointers a p
  cases h with
  | noted f pointers written kept =>
    rw [written] at at' banned
    exact Or.inl ⟨(marked f pointers).symm.trans at', banned⟩
  | without f pointers failed kept =>
    rcases attachInfo_cases failed with ⟨j, none, -, -⟩ | ⟨j, c, none, -, -, -⟩ | ⟨c, -, -, rfl⟩
    · exact absurd none (by simp)
    · exact absurd none (by simp)
    · rw [setCache_flows] at at'
      rw [setCache_infos] at banned
      exact Or.inl ⟨(marked f pointers).symm.trans at', banned⟩
  | worked f pointers j w₁ attached touches counted =>
    obtain ⟨pointer, -⟩ := lockInfo_some (attachInfo_locked attached)
    obtain ⟨-, same⟩ := touches_spares pointer touches
    obtain rfl := Option.some.inj (same.symm.trans at')
    rcases (touches_keepsInfos touches).marked j banned with before | ⟨-, marks⟩
    · rcases attachInfo_cases attached with ⟨k, -, -, rfl⟩ | ⟨k, c, some, -, -, rfl⟩ | ⟨c, none, -, -⟩
      · exact Or.inl ⟨(marked f pointers).symm.trans pointer, before⟩
      · obtain rfl := Option.some.inj some
        simp [setFlow, setInfo] at before
      · exact absurd none (by simp)
    · exact Or.inr marks

/-! ### What else happens to the flows -/

theorem pooled_open {w' : World} (pooled : w.Pooled) (fresh : a ∉ w.table) (filled : w'.Filled)
    (pools : ∀ p, w'.cache (.info p) = w.cache (.info p)) (table : w'.table = a :: w.table)
    (new : ∀ p, (w'.flows a).info p = none) (others : ∀ b, b ≠ a → w'.flows b = w.flows b) :
    w'.Pooled := by
  refine ⟨filled, fun p => ?_, fun p => ?_⟩
  · obtain ⟨held, assigned⟩ := pooled.assigned p
    refine ⟨held, ?_⟩
    rw [pools, table]
    exact Pool.assigned_open assigned fresh (new p) fun b other => by rw [others b other]
  · rw [pools]
    exact pooled.named p

theorem filled_openTcpFlow {layer : Nat} (filled : w.Filled)
    (h : w.openTcpFlow a layer = .ok w') : w'.Filled := by
  have opened : (w.openFlow a ipprotoTcp).Filled := filled_same filled fun _ => rfl
  unfold openTcpFlow at h
  simp only at h
  split at h
  · rename_i i c acquired
    obtain rfl := Except.ok.inj h
    have taken : ((w.openFlow a ipprotoTcp).setCache (.tcpInfo layer) c).Filled :=
      filled_setCache opened (Cache.stocked_of_acquire (opened (.tcpInfo layer)) acquired)
    exact filled_same taken fun _ => rfl
  · rename_i c failed
    obtain rfl := Except.ok.inj h
    exact filled_setCache opened (Cache.stocked_of_acquire (opened _) failed)
  · exact absurd h (by simp)

theorem pooled_openTcpFlow {layer : Nat} (pooled : w.Pooled) (fresh : a ∉ w.table)
    (h : w.openTcpFlow a layer = .ok w') : w'.Pooled := by
  obtain ⟨caches, -, -, -, table, new, others, -⟩ := AIEngine.Http.openTcpFlow_spec h
  exact pooled_open pooled fresh (filled_openTcpFlow pooled.filled h)
    (fun p => caches (.info p) (by simp)) table new others

theorem pooled_openUdpFlow (pooled : w.Pooled) (fresh : a ∉ w.table) :
    (w.openFlow a ipprotoUdp).Pooled := by
  refine pooled_open pooled fresh (filled_same pooled.filled fun _ => rfl) (fun _ => rfl) rfl
    (fun p => ?_) fun b other => ?_
  · cases p <;> simp [openFlow, setFlow, Flow.reset, Flow.info]
  · simp [openFlow, setFlow, other]

/-! ### The end of a flow -/

theorem filled_releaseFirst (f : Flow) (ps : List L7Protocol) (filled : w.Filled) :
    (w.releaseFirst f ps).Filled := by
  induction ps with
  | nil => exact filled
  | cons p rest ih =>
    unfold releaseFirst
    split
    · exact filled_releaseTo filled
    · exact ih

theorem filled_releaseTcpInfo (f : Flow) (filled : w.Filled) : (w.releaseTcpInfo f).Filled := by
  unfold releaseTcpInfo
  split
  · split
    · exact filled_releaseTo filled
    · exact filled
  · exact filled

theorem filled_releaseFlow (f : Flow) (filled : w.Filled) : (w.releaseFlow f).Filled := by
  unfold releaseFlow
  split
  · exact filled_releaseFirst f _ (filled_releaseTcpInfo f filled)
  · exact filled_releaseFirst f _ (filled_releaseFirst f _ filled)

theorem pooled_endFlow (pooled : w.Pooled) (live : a ∈ w.table) : (w.endFlow a).Pooled := by
  have flows : (w.endFlow a).flows = w.flows :=
    (AIEngine.Http.releaseFlow_returnsInfos w (w.flows a)).flows
  have table : (w.endFlow a).table = w.table.erase a := rfl
  refine ⟨filled_same (filled_releaseFlow _ pooled.filled) fun _ => rfl, fun p => ?_, fun p => ?_⟩
  · obtain ⟨held, assigned⟩ := pooled.assigned p
    rw [flows, table]
    rcases releaseFlow_returns w (w.flows a) p with same | ⟨i, locked, given⟩
    · exact ⟨held, same ▸ Pool.assigned_leave assigned⟩
    · have at' := (lockInfo_some locked).1
      exact ⟨held.erase i, given ▸ Pool.assigned_release assigned live at'⟩
  · rcases releaseFlow_returns w (w.flows a) p with same | ⟨i, -, given⟩
    · exact (congrArg Cache.id same).trans (pooled.named p)
    · refine (congrArg Cache.id given).trans ?_
      rw [Cache.release_id]
      exact pooled.named p

/-! ### The frequency engine -/

theorem filled_frequency (filled : w.Filled) (layer : Nat) : (w.frequency layer).Stocked :=
  ⟨filled (.frequencies layer), filled (.packetFrequencies layer)⟩

theorem pooled_frequency {layer : Nat} {engine : FrequencyProtocol} {f : Flow} (pooled : w.Pooled)
    (stocked : engine.Stocked) (pointers : ∀ q, f.info q = (w.flows a).info q) :
    ((w.setFrequency layer engine).setFlow a f).Pooled := by
  have filled : (w.setFrequency layer engine).Filled := by
    intro id
    cases id with
    | frequencies k =>
      by_cases same : k = layer
      · simpa [cache, setFrequency, same] using stocked.freqs
      · simpa [cache, setFrequency, same] using pooled.filled (.frequencies k)
    | packetFrequencies k =>
      by_cases same : k = layer
      · simpa [cache, setFrequency, same] using stocked.packetFreqs
      · simpa [cache, setFrequency, same] using pooled.filled (.packetFrequencies k)
    | flow k => exact pooled.filled (.flow k)
    | tcpInfo k => exact pooled.filled (.tcpInfo k)
    | info p => exact pooled.filled (.info p)
    | string p x => exact pooled.filled (.string p x)
  have written : (w.setFrequency layer engine).Pooled :=
    pooled_same pooled filled (fun _ => rfl) rfl fun _ _ => rfl
  exact pooled_setFlow written pointers

end World

end AIEngine
