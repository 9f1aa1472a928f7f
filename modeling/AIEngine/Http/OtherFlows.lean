import AIEngine.Applications.HttpWorks
import AIEngine.Http.Body

/-!
# The infos of other flows

Two flows that are open have different infos, after a `releaseCache` too. What comes of another flow
leaves the info of a flow alone, unless the other flow ends: its info goes back into a slot that may
own the info of a third one.
-/

namespace AIEngine

namespace World

/-- An info is free once at most, and a flow that is open has one that is neither free nor the info of
another. -/
structure HttpApart (w : World) : Prop where
  nodup : w.table.Nodup
  once : ∀ i, (w.cache (.info .http)).free.count (some i) ≤ 1
  used : ∀ a ∈ w.table, ∀ i, w.lockInfo .http (w.flows a) = some i →
    (w.cache (.info .http)).free.count (some i) = 0
  apart : ∀ a ∈ w.table, ∀ b ∈ w.table, ∀ i, w.lockInfo .http (w.flows a) = some i →
    w.lockInfo .http (w.flows b) = some i → a = b

variable {w w' : World} {a b i : Obj}

theorem apart_start (objects : CacheId → Nat) (layer : Option Nat) :
    (start objects layer).HttpApart := by
  refine ⟨List.nodup_nil, fun i => ?_, fun a live => absurd live (by simp [start]),
    fun a live => absurd live (by simp [start])⟩
  rw [start_cache]
  exact List.nodup_iff_count_le_one.mp (Pool.kept_create (.info .http) _).sole.2.distinct (some i)

/-- Nothing new is free, and no open flow has got an info. -/
theorem apart_fewer (apart : w.HttpApart) (nodup : w'.table.Nodup)
    (table : ∀ a ∈ w'.table, ∀ i, w'.lockInfo .http (w'.flows a) = some i →
      a ∈ w.table ∧ w.lockInfo .http (w.flows a) = some i)
    (free : ∀ i, (w'.cache (.info .http)).free.count (some i) =
      (w.cache (.info .http)).free.count (some i)) : w'.HttpApart := by
  refine ⟨nodup, fun i => free i ▸ apart.once i, fun a live i locked => ?_,
    fun a live b live' i locked also => ?_⟩
  · obtain ⟨live, locked⟩ := table a live i locked
    exact (free i).trans (apart.used a live i locked)
  · obtain ⟨live, locked⟩ := table a live i locked
    obtain ⟨live', also⟩ := table b live' i also
    exact apart.apart a live b live' i locked also

/-! ### An info for a flow -/

theorem attachInfo_others {r : Option Obj} (h : w.attachInfo .http a = .ok (r, w')) (other : b ≠ a) :
    w'.lockInfo .http (w'.flows b) = w.lockInfo .http (w.flows b) := by
  rcases attachInfo_cases h with ⟨j, -, -, rfl⟩ | ⟨j, c, -, -, acquired, rfl⟩ | ⟨c, -, failed, rfl⟩
  · rfl
  · unfold lockInfo
    rw [setFlow_cache, setInfo_cache, cache_setCache_same,
      Cache.lock_congr (Cache.acquire_items acquired)]
    simp only [setFlow, if_neg other]
    rfl
  · unfold lockInfo
    rw [cache_setCache_same, Cache.lock_congr (Cache.acquire_items failed), setCache_flows]

theorem apart_attachInfo {r : Option Obj} (apart : w.HttpApart)
    (h : w.attachInfo .http a = .ok (r, w')) : w'.HttpApart := by
  have others := fun b => attachInfo_others (b := b) h
  have table := (attachInfo_spares h).table
  rcases attachInfo_cases h with ⟨j, -, -, same⟩ | ⟨j, c, rfl, -, acquired, same⟩ |
    ⟨c, -, failed, same⟩
  · rw [same]
    exact apart
  · -- The info that is attached was free, and so no open flow had it.
    have locked := attachInfo_locked h
    have pool : w'.cache (.info .http) = c := by
      rw [same, setFlow_cache, setInfo_cache, cache_setCache_same]
    have counts : ∀ i, (w.cache (.info .http)).free.count (some i) =
        c.free.count (some i) + [some j].count (some i) := by
      intro i
      rw [Cache.acquire_free acquired, List.count_append]
    have last : [some j].count (some j) = 1 := List.count_singleton_self
    have taken := apart.once j
    have split := counts j
    have old : ∀ b ∈ w'.table, ∀ i, b ≠ a → w'.lockInfo .http (w'.flows b) = some i →
        (w.cache (.info .http)).free.count (some i) = 0 := by
      intro b live i other also
      rw [others b other] at also
      exact apart.used b (table ▸ live) i also
    have mine : ∀ i, w'.lockInfo .http (w'.flows a) = some i → i = j := fun i also =>
      (Option.some.inj (locked.symm.trans also)).symm
    refine ⟨table ▸ apart.nodup, fun i => ?_, fun b live i also => ?_,
      fun b live d live' i also again => ?_⟩
    · rw [pool]
      have before := apart.once i
      have rest := counts i
      omega
    · rw [pool]
      by_cases new : b = a
      · obtain rfl := mine i (new ▸ also)
        omega
      · have before := old b live i new also
        have rest := counts i
        omega
    · by_cases new : b = a
      · by_cases new' : d = a
        · rw [new, new']
        · obtain rfl := mine i (new ▸ also)
          have before := old d live' i new' again
          omega
      · by_cases new' : d = a
        · obtain rfl := mine i (new' ▸ again)
          have before := old b live i new also
          omega
        · rw [others b new] at also
          rw [others d new'] at again
          rw [table] at live live'
          exact apart.apart b live d live' i also again
  · refine apart_fewer apart (table ▸ apart.nodup) (fun b live i locked => ?_) fun i => ?_
    · refine ⟨table ▸ live, ?_⟩
      rw [same] at locked
      unfold lockInfo at locked ⊢
      rw [cache_setCache_same, Cache.lock_congr (Cache.acquire_items failed), setCache_flows] at locked
      exact locked
    · obtain ⟨-, rfl⟩ := Cache.acquire_none failed
      rw [same, cache_setCache_same]
      rfl

theorem apart_keeps {bans : Bool} (apart : w.HttpApart) (kept : HTTPProtocol.KeepsInfo i bans w w') :
    w'.HttpApart := by
  refine apart_fewer apart (kept.table ▸ apart.nodup) (fun b live j locked => ?_) fun j => ?_
  · rw [HTTPProtocol.keepsInfo_locked kept] at locked
    exact ⟨kept.table ▸ live, locked⟩
  · rw [kept.infoCache]

/-! ### Flows that come and go -/

theorem apart_openTcpFlow {layer : Nat} (apart : w.HttpApart) (fresh : a ∉ w.table)
    (h : w.openTcpFlow a layer = .ok w') : w'.HttpApart := by
  obtain ⟨caches, -, -, -, table, new, others, -⟩ := AIEngine.Http.openTcpFlow_spec h
  have pool := caches (.info .http) (by simp)
  refine apart_fewer apart ?_ (fun b live i locked => ?_) fun i => by rw [pool]
  · rw [table]
    exact List.nodup_cons.mpr ⟨fresh, apart.nodup⟩
  · have different : b ≠ a := by
      rintro rfl
      exact absurd ((new .http).symm.trans (lockInfo_some locked).1) (by simp)
    rw [table] at live
    unfold lockInfo at locked ⊢
    rw [pool, others b different] at locked
    exact ⟨(List.mem_cons.mp live).resolve_left different, locked⟩

theorem endFlow_lock (locked : (w.endFlow a).lockInfo .http ((w.endFlow a).flows b) = some i) :
    w.lockInfo .http (w.flows b) = some i := by
  have returns := AIEngine.Http.releaseFlow_returnsInfos w (w.flows a)
  obtain ⟨pointer, owned⟩ := lockInfo_some locked
  have pointer : ((w.releaseFlow (w.flows a)).flows b).info .http = some i := pointer
  rw [returns.flows] at pointer
  unfold lockInfo
  rw [pointer]
  exact Cache.lock_of_owns (returns.owns i owned)

theorem apart_endFlow (apart : w.HttpApart) (live : a ∈ w.table) : (w.endFlow a).HttpApart := by
  have left : ∀ b ∈ (w.endFlow a).table, b ≠ a ∧ b ∈ w.table := fun b live =>
    apart.nodup.mem_erase_iff.mp live
  rcases releaseFlow_returns w (w.flows a) .http with same | ⟨i, locked, given⟩
  · refine apart_fewer apart (apart.nodup.erase a) (fun b alive j held => ?_) fun j => ?_
    · exact ⟨(left b alive).2, endFlow_lock held⟩
    · exact congrArg (fun c : Cache => c.free.count (some j)) same
  · have free : ∀ j, (((w.endFlow a).cache (.info .http)).free.count (some j) =
        (w.cache (.info .http)).free.count (some j)) ∨
        ((w.endFlow a).cache (.info .http)).free.count (some j) =
          (w.cache (.info .http)).free.count (some j) + [some i].count (some j) := by
      intro j
      have given : (w.endFlow a).cache (.info .http) =
        (w.cache (.info .http)).release (some i) := given
      rw [given]
      rcases Cache.release_free_cases (w.cache (.info .http)) (some i) with same | longer
      · exact Or.inl (by rw [same])
      · exact Or.inr (by rw [longer, List.count_append])
    have unused := apart.used a live i locked
    have one : ∀ j, j ≠ i → [some i].count (some j) = 0 := fun j other =>
      List.count_eq_zero.mpr (by simp [other])
    have self : [some i].count (some i) = 1 := List.count_singleton_self
    refine ⟨apart.nodup.erase a, fun j => ?_, fun b alive j held => ?_,
      fun b alive d alive' j held also => ?_⟩
    · have before := apart.once j
      by_cases same : j = i
      · subst same
        rcases free j with new | new <;> omega
      · have none := one j same
        rcases free j with new | new <;> omega
    · obtain ⟨different, alive⟩ := left b alive
      have before := apart.used b alive j (endFlow_lock held)
      have other : j ≠ i := by
        rintro rfl
        exact different (apart.apart b alive a live j (endFlow_lock held) locked)
      have none := one j other
      rcases free j with new | new <;> omega
    · exact apart.apart b (left b alive).2 d (left d alive').2 j (endFlow_lock held)
        (endFlow_lock also)

theorem detachAll_free (w : World) (ft : List Obj) (i : Obj) :
    ((w.detachAll .http ft).cache (.info .http)).free.count (some i) =
      (w.cache (.info .http)).free.count (some i) := by
  induction ft generalizing w with
  | nil => rfl
  | cons a rest ih =>
    refine (ih (w.detach .http a)).trans ?_
    cases locked : w.lockInfo .http (w.flows a) with
    | none => rw [detach_none locked]
    | some j =>
      rw [(detach_some locked).1]
      rcases Cache.release_free_cases (w.cache (.info .http)) (releasedInfo .http j) with same | longer
      · rw [same]
      · rw [longer, List.count_append]
        simp [releasedInfo]

theorem apart_releaseCache (apart : w.HttpApart) : (w.releaseCache .http w.table).HttpApart := by
  have table : (w.releaseCache .http w.table).table = w.table :=
    AIEngine.Http.detachAll_table w w.table
  have nodup : (w.releaseCache .http w.table).table.Nodup := by
    rw [table]
    exact apart.nodup
  refine apart_fewer apart nodup (fun b live i locked => ?_) fun i => ?_
  · rw [table] at live
    exact absurd live (AIEngine.Http.detachAll_lock locked).2
  · exact detachAll_free w w.table i

end World

namespace HTTPProtocol

open World

variable {s t : HTTPProtocol} {a b i : Obj} {p : HttpPacket} {e : Event}

theorem processFlow_apart (apart : s.world.HttpApart) (h : s.processFlow a p = .ok t) :
    t.world.HttpApart := by
  obtain ⟨r, u, attached, cases⟩ := processFlow_cases h
  have got := attachInfo_ok attached
  have before : u.world.HttpApart := apart_attachInfo apart got
  rcases cases with ⟨rfl, -⟩ | ⟨i, -, -, follows⟩
  · exact before
  · exact apart_keeps before follows.kept

theorem step_apart (apart : s.world.HttpApart) (h : s.step e = some t) : t.world.HttpApart := by
  cases e with
  | openFlow a layer =>
    simp only [step] at h
    split at h
    · exact absurd h (by simp)
    · rename_i fresh
      obtain ⟨w, opened, rfl⟩ := Option.map_eq_some_iff.mp h
      exact apart_openTcpFlow apart fresh (toOption_some opened)
  | packet a p =>
    simp only [step] at h
    split at h
    · exact processFlow_apart apart (toOption_some h)
    · exact absurd h (by simp)
  | expire a =>
    simp only [step] at h
    split at h
    · rename_i live
      obtain rfl := Option.some.inj h
      exact apart_endFlow apart live
    · exact absurd h (by simp)
  | releaseCache =>
    obtain rfl := Option.some.inj h
    exact apart_releaseCache apart
  | managers ban domains names =>
    obtain rfl := Option.some.inj h
    exact apart
  | memory sight =>
    obtain rfl := Option.some.inj h
    exact ⟨apart.nodup, apart.once, apart.used, apart.apart⟩

/-- This holds in every state of every run. -/
theorem always_apart (objects : CacheId → Nat) (layer : Option Nat) (events : List Event) :
    Transition.Always step (fun s => s.world.HttpApart) (start objects layer) events :=
  Transition.always_of_inv (fun _ _ _ => step_apart) (apart_start objects layer)

/-! ### What other flows leave alone -/

/-- The flow is open and has the info. -/
structure Keeps (a i : Obj) (s t : HTTPProtocol) : Prop where
  live : a ∈ t.world.table
  locked : t.world.lockInfo .http (t.world.flows a) = some i
  info : t.world.infos i = s.world.infos i
  http : t.infos i = s.infos i

/-- What comes of another flow. If that flow ends, the pool must not lose the info of this one. -/
def Elsewhere (s : HTTPProtocol) (a : Obj) : Event → Prop
  | .openFlow _ _ => True
  | .packet b _ => b ≠ a
  | .expire b => b ≠ a ∧ ∀ i, s.world.lockInfo .http (s.world.flows a) = some i →
      ((s.world.endFlow b).cache (.info .http)).Owns i
  | .releaseCache => False
  | .managers _ _ _ => True
  | .memory _ => True

theorem packet_elsewhere (apart : s.world.HttpApart) (live : a ∈ s.world.table)
    (live' : b ∈ s.world.table) (locked : s.world.lockInfo .http (s.world.flows a) = some i)
    (other : a ≠ b) (h : s.processFlow b p = .ok t) : Keeps a i s t := by
  have spares := handled_spares (processFlow_handled h)
  have after := processFlow_apart apart h
  obtain ⟨r, u, attached, cases⟩ := processFlow_cases h
  have got := attachInfo_ok attached
  have before : u.world.lockInfo .http (u.world.flows a) = some i :=
    (attachInfo_others got other).trans locked
  have table := spares.table
  have kept : t.world.lockInfo .http (t.world.flows a) = some i ∧ t.infos i = u.infos i ∧
      r ≠ some i := by
    have others : ∀ j, r = some j → t.world.lockInfo .http (t.world.flows b) = some j →
        t.world.lockInfo .http (t.world.flows a) = some i → j ≠ i := by
      rintro j rfl mine also rfl
      exact other (after.apart a (table ▸ live) b (table ▸ live') j also mine)
    rcases cases with ⟨rfl, -⟩ | ⟨j, rfl, -, follows⟩
    · refine ⟨before, rfl, fun same => ?_⟩
      exact others i same (attachInfo_locked (same ▸ got)) before rfl
    · have mine := (keepsInfo_locked (a := b) follows.kept).trans (attachInfo_locked got)
      have also := (keepsInfo_locked (a := a) follows.kept).trans before
      have different := others j rfl mine also
      exact ⟨also, follows.others i different.symm, fun same => different (Option.some.inj same)⟩
  obtain ⟨also, same, different⟩ := kept
  obtain ⟨-, -, -, -, infos⟩ := attachInfo_accounts attached
  refine ⟨table ▸ live, also, spares.infos i fun pointer => ?_, same.trans (infos i different)⟩
  obtain ⟨-, owned⟩ := lockInfo_some also
  have mine : t.world.lockInfo .http (t.world.flows b) = some i := by
    unfold lockInfo
    rw [pointer]
    exact Cache.lock_of_owns owned
  exact other (after.apart a (table ▸ live) b (table ▸ live') i also mine)

theorem step_elsewhere (apart : s.world.HttpApart) (live : a ∈ s.world.table)
    (locked : s.world.lockInfo .http (s.world.flows a) = some i) (elsewhere : s.Elsewhere a e)
    (h : s.step e = some t) : Keeps a i s t := by
  cases e with
  | openFlow b layer =>
    simp only [step] at h
    split at h
    · exact absurd h (by simp)
    · rename_i fresh
      obtain ⟨w, opened, rfl⟩ := Option.map_eq_some_iff.mp h
      obtain ⟨caches, -, -, infos, table, -, others, -⟩ :=
        AIEngine.Http.openTcpFlow_spec (toOption_some opened)
      have different : a ≠ b := by
        rintro rfl
        exact fresh live
      refine ⟨?_, ?_, congrFun infos i, rfl⟩
      · rw [table]
        exact List.mem_cons_of_mem _ live
      · unfold lockInfo at locked ⊢
        rw [caches (.info .http) (by simp), others a different]
        exact locked
  | packet b p =>
    simp only [step] at h
    split at h
    · rename_i live'
      exact packet_elsewhere apart live live' locked (Ne.symm elsewhere) (toOption_some h)
    · exact absurd h (by simp)
  | expire b =>
    simp only [step] at h
    split at h
    · obtain rfl := Option.some.inj h
      obtain ⟨other, owned⟩ := elsewhere
      have returns := AIEngine.Http.releaseFlow_returnsInfos s.world (s.world.flows b)
      refine ⟨apart.nodup.mem_erase_iff.mpr ⟨other.symm, live⟩, ?_, congrFun returns.infos i, rfl⟩
      have pointer : ((s.world.endFlow b).flows a).info .http = some i :=
        (congrArg (fun f => (f a).info .http) returns.flows).trans (lockInfo_some locked).1
      unfold lockInfo
      rw [pointer]
      exact Cache.lock_of_owns (owned i locked)
    · exact absurd h (by simp)
  | releaseCache => exact absurd elsewhere id
  | managers ban domains names =>
    obtain rfl := Option.some.inj h
    exact ⟨live, locked, rfl, rfl⟩
  | memory sight =>
    obtain rfl := Option.some.inj h
    exact ⟨live, locked, rfl, rfl⟩

end HTTPProtocol

end AIEngine
