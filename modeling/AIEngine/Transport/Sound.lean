import AIEngine.Transport.Spec

/-!
# The table between packets

In every run the flows in the table have different ids, and they are exactly the flows the cache has
handed out. Whatever order the duration index is in, these two facts survive every packet.
-/

namespace AIEngine

namespace Transport

structure Sound (s : Transport) : Prop where
  kept : FlowCache.Kept s.flowCache s.table
  ids : (s.table.map s.getId).Nodup

theorem Sound.nodup {s : Transport} (sound : Sound s) : s.table.Nodup := sound.kept.sole.1

theorem sound_start (layer : Nat) (objects : CacheId → Nat) (registered : Option Nat)
    (timeout : Int) : Sound (start layer objects registered timeout) := by
  refine ⟨?_, List.nodup_nil⟩
  have fresh := FlowCache.kept_createFlows layer (objects (.flow layer))
  refine FlowCache.kept_congr fresh ?_
  exact World.start_cache objects registered (.flow layer)

/-- Nothing but the ids, the flow cache and the table counts, and the table only up to its order. -/
theorem Sound.congr {s s' : Transport} (sound : Sound s) (fc : s'.flowCache.fc = s.flowCache.fc)
    (ids : ∀ a ∈ s.table, s'.getId a = s.getId a) (perm : s'.table.Perm s.table) : Sound s' := by
  refine ⟨FlowCache.kept_perm (FlowCache.kept_congr sound.kept fc) perm, ?_⟩
  rw [(perm.map s'.getId).nodup_iff, List.map_congr_left ids]
  exact sound.ids

theorem Sound.same {s s' : Transport} (sound : Sound s) (same : Same s s') : Sound s' :=
  sound.congr same.fc (fun a _ => getId_of_ident (same.ident a)) (.of_eq same.table)

theorem sound_elsewhere {s : Transport} (sound : Sound s) (w : World) : Sound (s.elsewhere w) := by
  refine sound.congr ?_ (fun _ _ => rfl) (.of_eq rfl)
  exact World.cache_setCache_same w (.flow s.layer) (s.world.cache (.flow s.layer))

theorem Sound.eq_of_id {s : Transport} (sound : Sound s) {a b : Obj} (left : a ∈ s.table)
    (right : b ∈ s.table) (same : s.getId a = s.getId b) : a = b :=
  List.inj_on_of_nodup_map sound.ids left right same

theorem findId_of_ids {s : Transport} (ids : (s.table.map s.getId).Nodup) {a : Obj}
    (member : a ∈ s.table) : s.findId (s.getId a) = some a := by
  cases found : s.findId (s.getId a) with
  | none => exact absurd rfl (findId_none found a member)
  | some b =>
    obtain ⟨known, same⟩ := findId_some found
    rw [List.inj_on_of_nodup_map ids known member same]

theorem Sound.findId {s : Transport} (sound : Sound s) {a : Obj} (member : a ∈ s.table) :
    s.findId (s.getId a) = some a := findId_of_ids sound.ids member

theorem findFlow_some {s : Transport} {h1 h2 : BitVec 64} {a : Obj} (h : s.findFlow h1 h2 = some a) :
    a ∈ s.table ∧ (s.getId a = h1 ∨ s.getId a = h2) := by
  rcases Option.or_eq_some_iff.mp h with first | ⟨-, second⟩
  · obtain ⟨member, same⟩ := findId_some first
    exact ⟨member, Or.inl same⟩
  · obtain ⟨member, same⟩ := findId_some second
    exact ⟨member, Or.inr same⟩

theorem findFlow_none {s : Transport} {h1 h2 : BitVec 64} (h : s.findFlow h1 h2 = none) :
    ∀ a ∈ s.table, s.getId a ≠ h1 ∧ s.getId a ≠ h2 := by
  obtain ⟨first, second⟩ := Option.or_eq_none_iff.mp h
  exact fun a member => ⟨findId_none first a member, findId_none second a member⟩

/-! ### A new flow -/

@[simp] theorem flowCache_setFlowCache (s : Transport) (c : FlowCache) :
    (s.setFlowCache c).flowCache.fc = c.fc :=
  World.cache_setCache_same s.world (.flow s.layer) c.fc

theorem describe_ident (s : Transport) (kind : Kind) (p : Packet) (f : Flow) :
    (s.describe kind p f).hash = p.hash1 kind ∧
      (s.describe kind p f).currentTime = s.packetTime := by
  unfold describe
  simp only
  split <;> split <;> exact ⟨rfl, rfl⟩

/-- The flow `a` came from the cache, got the id of the packet and was placed in the table. -/
structure Opened (s s' : Transport) (kind : Kind) (p : Packet) (hint : Nat) (a : Obj) : Prop where
  fresh : a ∉ s.table
  table : s'.table = OrderedIndex.insert s'.lastTime s.table hint a
  others : ∀ b, b ≠ a → (s'.flow b).ident = (s.flow b).ident
  flow : (s'.flow a).ident = (s.describe kind p (s.flow a).reset).ident
  members : s'.members = s.members

theorem Opened.same {s s' s'' : Transport} {kind : Kind} {p : Packet} {hint : Nat} {a : Obj}
    (opened : Opened s s' kind p hint a) (same : Same s' s'') : Opened s s'' kind p hint a where
  fresh := opened.fresh
  table := by
    have key : s''.lastTime = s'.lastTime := funext fun b => lastTime_of_ident (same.ident b)
    rw [same.table, key]
    exact opened.table
  others := fun b other => (same.ident b).trans (opened.others b other)
  flow := (same.ident a).trans opened.flow
  members := same.members.trans opened.members

theorem opened_addFlow {s : Transport} {kind : Kind} {p : Packet} {hint : Nat} {a : Obj}
    {c : FlowCache} (sound : Sound s)
    (unknown : s.findFlow (p.hash1 kind) (p.hash2 kind) = none)
    (acquired : s.flowCache.acquireFlow = .ok (some a, c)) :
    Opened s ((s.admitted c kind p a).addFlow a hint) kind p hint a ∧
      Sound ((s.admitted c kind p a).addFlow a hint) := by
  obtain ⟨kept, fresh⟩ := FlowCache.kept_acquire sound.kept acquired
  obtain ⟨fc, -, rfl⟩ := FlowCache.acquireFlow_some acquired
  generalize handed : ({ s.flowCache with fc := fc } : FlowCache).setFlow a
    (s.flowCache.flows a).reset = c at *
  have contents : c.flows a = (s.flow a).reset := by
    rw [← handed, FlowCache.setFlow_same]
    rfl
  have others : ∀ b, b ≠ a → (s.admitted c kind p a).flow b = s.flow b := by
    intro b other
    refine (flow_setFlow_other other).trans ?_
    change c.flows b = _
    rw [← handed, FlowCache.setFlow_other other]
    rfl
  have named : (s.admitted c kind p a).flow a = s.describe kind p (s.flow a).reset := by
    rw [← contents]
    exact flow_setFlow_same _ a _
  have id : (s.admitted c kind p a).getId a = p.hash1 kind := by
    unfold getId
    rw [named]
    exact (describe_ident s kind p _).1
  have same : ∀ b ∈ s.table, (s.admitted c kind p a).getId b = s.getId b := by
    intro b member
    have other : b ≠ a := fun equal => fresh (equal ▸ member)
    unfold getId
    rw [others b other]
  have free : (s.admitted c kind p a).findId ((s.admitted c kind p a).getId a) = none := by
    rw [id]
    refine List.find?_eq_none.mpr fun b member => ?_
    have apart := (findFlow_none unknown b member).1
    simpa [same b member] using apart
  unfold addFlow
  simp only [free]
  refine ⟨⟨fresh, rfl, fun b other => ?_, ?_, rfl⟩, ?_⟩
  · exact congrArg Flow.ident (others b other)
  · exact congrArg Flow.ident named
  · have perm : (OrderedIndex.insert (s.admitted c kind p a).lastTime s.table hint a).Perm
        (a :: s.table) := OrderedIndex.insert_perm s.table hint a
    refine ⟨?_, ?_⟩
    · exact FlowCache.kept_congr (FlowCache.kept_perm kept perm) (flowCache_setFlowCache s c)
    · refine ((perm.map (s.admitted c kind p a).getId).nodup_iff).mpr ?_
      rw [List.map_cons, List.map_congr_left same, id]
      refine List.nodup_cons.mpr ⟨fun member => ?_, sound.ids⟩
      obtain ⟨b, known, equal⟩ := List.mem_map.mp member
      exact (findFlow_none unknown b known).1 equal

/-- What a failed `getFlow` leaves: a count in the flow cache. -/
theorem sound_failed {s : Transport} {c : FlowCache} (sound : Sound s)
    (failed : s.flowCache.acquireFlow = .ok (none, c)) :
    Sound (s.setFlowCache c) ∧ ∀ b, (s.setFlowCache c).flow b = s.flow b := by
  have kept := FlowCache.kept_fail sound.kept failed
  obtain ⟨fc, -, rfl⟩ := FlowCache.acquireFlow_none failed
  exact ⟨⟨FlowCache.kept_congr kept (flowCache_setFlowCache s _), sound.ids⟩, fun b => rfl⟩

/-! ### Flows that leave -/

/-- The flows of `gone` went back to their cache; the others are as they were. -/
structure Gave (s s' : Transport) (gone : List Obj) : Prop where
  flows : ∀ b, (s'.flow b).ident = (s.flow b).ident
  released : s'.released = gone.reverse ++ s.released
  members : s'.members = { s.members with released := s'.released }

theorem Gave.timeout {s s' : Transport} {gone : List Obj} (gave : Gave s s' gone) :
    s'.timeout = s.timeout := congrArg Members.timeout gave.members

theorem Gave.trans {s s' s'' : Transport} {gone gone' : List Obj} (first : Gave s s' gone)
    (second : Gave s' s'' gone') : Gave s s'' (gone ++ gone') where
  flows := fun b => (second.flows b).trans (first.flows b)
  released := by
    rw [second.released, first.released, List.reverse_append, List.append_assoc]
  members := by
    rw [second.members, first.members]

theorem sameTable_releaseObjects (s : Transport) (a : Obj) :
    World.SameTable s.layer s.world (s.releaseObjects a).world :=
  World.sameTable_releaseFlow (s.flow a) s.world

theorem gave_releaseObjects (s : Transport) (a : Obj) : Gave s (s.releaseObjects a) [a] :=
  ⟨(sameTable_releaseObjects s a).flows, rfl, rfl⟩

theorem gave_returnFlow (s : Transport) (a : Obj) : Gave s (s.returnFlow a) [] :=
  ⟨fun _ => rfl, rfl, rfl⟩

theorem gave_setTable (s : Transport) (xs : List Obj) : Gave s (s.setTable xs) [] :=
  ⟨fun _ => rfl, rfl, rfl⟩

/-- A flow of the table that is given back and erased leaves the table sound. -/
theorem sound_return {s s₁ : Transport} {a : Obj} (sound : Sound s) (member : a ∈ s.table)
    (fc : s₁.flowCache.fc = s.flowCache.fc) (flows : ∀ b, (s₁.flow b).ident = (s.flow b).ident)
    (table : s₁.table = s.table.erase a) : Sound (s₁.returnFlow a) := by
  have back : (s₁.returnFlow a).flowCache.fc = (s.flowCache.releaseFlow a).fc := by
    have written := flowCache_setFlowCache s₁ (s₁.flowCache.releaseFlow a)
    have released : (s₁.flowCache.releaseFlow a).fc = (s.flowCache.releaseFlow a).fc :=
      congrArg (Cache.release · (some a)) fc
    exact written.trans released
  refine ⟨?_, ?_⟩
  · have kept := FlowCache.kept_congr (FlowCache.kept_release sound.kept member) back
    rw [← table] at kept
    exact kept
  · have ids : (s₁.returnFlow a).getId = s.getId := funext fun b => getId_of_ident (flows b)
    have sub : (s₁.table.map s.getId).Sublist (s.table.map s.getId) := by
      rw [table]
      exact List.erase_sublist.map _
    rw [ids]
    exact sub.nodup sound.ids

theorem releaseObjects_fc (s : Transport) (a : Obj) :
    (s.releaseObjects a).flowCache.fc = s.flowCache.fc := (sameTable_releaseObjects s a).cache

theorem releaseObjects_table (s : Transport) (a : Obj) : (s.releaseObjects a).table = s.table :=
  (sameTable_releaseObjects s a).table

theorem expire_left (s : Transport) (a : Obj) :
    (s.expire a).table = s.table.erase a ∧ Gave s (s.expire a) [a] := by
  have table : ((s.setTable (s.table.erase a)).releaseObjects a).table = s.table.erase a :=
    releaseObjects_table (s.setTable (s.table.erase a)) a
  have gave : Gave s ((s.setTable (s.table.erase a)).releaseObjects a) [a] :=
    (gave_setTable s _).trans (gave_releaseObjects _ a)
  exact ⟨table, gave.trans (gave_returnFlow _ a)⟩

theorem expire_fc (s : Transport) (a : Obj) :
    (s.expire a).flowCache.fc = s.flowCache.fc.release (some a) := by
  have fc : ((s.setTable (s.table.erase a)).releaseObjects a).flowCache.fc = s.flowCache.fc :=
    releaseObjects_fc (s.setTable (s.table.erase a)) a
  have back := flowCache_setFlowCache ((s.setTable (s.table.erase a)).releaseObjects a)
    (((s.setTable (s.table.erase a)).releaseObjects a).flowCache.releaseFlow a)
  exact back.trans (congrArg (Cache.release · (some a)) fc)

theorem sound_expire {s : Transport} {a : Obj} (sound : Sound s) (member : a ∈ s.table) :
    Sound (s.expire a) := by
  have gave : Gave s ((s.setTable (s.table.erase a)).releaseObjects a) [a] :=
    (gave_setTable s _).trans (gave_releaseObjects _ a)
  exact sound_return sound member (releaseObjects_fc _ a) gave.flows
    (releaseObjects_table (s.setTable (s.table.erase a)) a)

theorem closeFlow_spec {s t : Transport} {a : Obj} (sound : Sound s) (member : a ∈ s.table)
    (h : TCPProtocol.closeFlow s a = .ok t) :
    Sound t ∧ t.table = s.table.erase a ∧ (∀ b, (t.flow b).ident = (s.flow b).ident) ∧
      t.closed = true ∧ t.swept = s.swept ∧ t.packetTime = s.packetTime ∧
      t.currentFlow = s.currentFlow ∧ t.timeout = s.timeout := by
  have given := gave_releaseObjects s a
  have table := releaseObjects_table s a
  have id : (s.releaseObjects a).getId a = s.getId a := getId_of_ident (given.flows a)
  have before := sound.congr (releaseObjects_fc s a)
    (fun b _ => getId_of_ident (given.flows b)) (.of_eq table)
  unfold TCPProtocol.closeFlow removeFlow at h
  rw [before.findId (table ▸ member)] at h
  obtain rfl := Except.ok.inj h
  rw [table]
  refine ⟨?_, rfl, given.flows, rfl, rfl, rfl, rfl, rfl⟩
  have left : Sound (((s.releaseObjects a).setTable (s.table.erase a)).returnFlow a) :=
    sound_return sound member (releaseObjects_fc s a) given.flows rfl
  exact ⟨left.kept, left.ids⟩

/-! ### The timers -/

theorem Gave.expired {s s' : Transport} {gone : List Obj} (gave : Gave s s' gone) (time : Int) :
    s'.Expired time = s.Expired time := by
  funext b
  unfold Expired
  rw [lastTime_of_ident (gave.flows b), gave.timeout]

/-- The sweep takes the flows at the front of the index up to the first that is not old. -/
theorem sweep_left (time : Int) (xs : List Obj) {s : Transport} (whole : s.table = xs) :
    (s.sweep time xs).table = xs.dropWhile (fun a => decide (s.Expired time a)) ∧
      Gave s (s.sweep time xs) (xs.takeWhile fun a => decide (s.Expired time a)) ∧
      (s.sweep time xs).flowCache.fc = (xs.takeWhile fun a => decide (s.Expired time a)).foldl
        (fun c a => c.release (some a)) s.flowCache.fc := by
  induction xs generalizing s with
  | nil => exact ⟨whole, ⟨fun _ => rfl, rfl, rfl⟩, rfl⟩
  | cons a rest ih =>
    unfold sweep
    by_cases old : s.Expired time a
    · obtain ⟨table, gave⟩ := expire_left s a
      have left : (s.expire a).table = rest := by
        rw [table, whole]
        exact List.erase_cons_head a rest
      obtain ⟨dropped, given, fc⟩ := ih left
      simp only [gave.expired] at dropped given fc
      rw [if_pos old, List.dropWhile_cons_of_pos (by simpa using old),
        List.takeWhile_cons_of_pos (by simpa using old), List.foldl_cons, ← expire_fc]
      exact ⟨dropped, gave.trans given, fc⟩
    · rw [if_neg old, List.dropWhile_cons_of_neg (by simpa using old),
        List.takeWhile_cons_of_neg (by simpa using old)]
      exact ⟨whole, ⟨fun _ => rfl, rfl, rfl⟩, rfl⟩

theorem sound_sweep (time : Int) (xs : List Obj) {s : Transport} (sound : Sound s)
    (whole : s.table = xs) : Sound (s.sweep time xs) := by
  induction xs generalizing s with
  | nil => exact sound
  | cons a rest ih =>
    unfold sweep
    split
    · have member : a ∈ s.table := by
        rw [whole]
        exact List.mem_cons_self
      apply ih (sound_expire sound member)
      rw [(expire_left s a).1, whole]
      exact List.erase_cons_head a rest
    · exact sound

theorem sweep_spec (time : Int) (xs : List Obj) {s : Transport} (sound : Sound s)
    (whole : s.table = xs) :
    Sound (s.sweep time xs) ∧
      (s.sweep time xs).table = xs.dropWhile (fun a => decide (s.Expired time a)) ∧
      Gave s (s.sweep time xs) (xs.takeWhile fun a => decide (s.Expired time a)) := by
  obtain ⟨table, gave, -⟩ := sweep_left time xs whole
  exact ⟨sound_sweep time xs sound whole, table, gave⟩

theorem setLastPacketTime_getId (s : Transport) (a b : Obj) (time : Int) :
    (s.setLastPacketTime a time).getId b = s.getId b := by
  unfold setLastPacketTime getId
  by_cases same : b = a
  · rw [same, flow_setFlow_same]
    rfl
  · rw [flow_setFlow_other same]

theorem sound_setLastPacketTime {s : Transport} (sound : Sound s) (a : Obj) (time : Int) :
    Sound (s.setLastPacketTime a time) :=
  sound.congr rfl (fun b _ => setLastPacketTime_getId s a b time) (.of_eq rfl)

end Transport

end AIEngine
