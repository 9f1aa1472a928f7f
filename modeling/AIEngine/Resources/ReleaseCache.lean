import AIEngine.Resources.Spec

/-!
# `releaseCache`

The loop resets its own pointer to the info before it hands the pointer to the cache, so the cache
receives an empty one; only the GPRS protocol releases the info itself.
-/

namespace AIEngine.World

/-- Every object in the free part of the info cache can be handed out. -/
def Usable (w : World) (p : L7Protocol) : Prop := ∀ x ∈ (w.cache (.info p)).free, x ≠ none

instance (w : World) (p : L7Protocol) : Decidable (w.Usable p) :=
  inferInstanceAs (Decidable (∀ x ∈ _, _))

/-- The infos that lost their flow are back in the cache, and the cache is usable. -/
structure Recovers (before after : World) (p : L7Protocol) (ft : List Obj) : Prop where
  back : ∀ a ∈ ft, ∀ i, before.lockInfo p (before.flows a) = some i →
    (after.flows a).info p = none → some i ∈ (after.cache (.info p)).free
  usable : after.Usable p

/-! ### What the strings of an info cost -/

@[simp] theorem releaseTo_flows (w : World) (id : CacheId) (s : Option Obj) :
    (w.releaseTo id s).flows = w.flows := setCache_flows ..

@[simp] theorem releaseString_flows (w : World) (p : L7Protocol) (x target : StringField)
    (reset : Bool) (i : Obj) : (w.releaseString p x target reset i).flows = w.flows := by
  unfold releaseString
  split
  · rfl
  · cases reset <;> simp [setString, setInfo]

@[simp] theorem releaseString_info (w : World) (p q : L7Protocol) (x target : StringField)
    (reset : Bool) (i : Obj) :
    (w.releaseString p x target reset i).cache (.info q) = w.cache (.info q) := by
  unfold releaseString
  split
  · rfl
  · rename_i s _
    have apart : CacheId.info q ≠ .string p target := by simp
    cases reset <;> simp [releaseTo, cache_setCache_other apart]

@[simp] theorem resetStrings_flows (w : World) (i : Obj) : (w.resetStrings i).flows = w.flows := rfl

theorem releaseStrings_flows (w : World) (p : L7Protocol) (i : Obj) :
    (w.releaseStrings p i).flows = w.flows := by
  cases p <;> simp [releaseStrings, Http.releaseHttpInfo, Ssl.releaseSslInfo, Smtp.releaseSmtpInfo,
    Imap.releaseImapInfo, Pop.releasePopInfo, Dns.releaseDnsInfo, Sip.releaseSipInfo,
    Ssdp.releaseSsdpInfo]

theorem releaseStrings_info (w : World) (p q : L7Protocol) (i : Obj) :
    (w.releaseStrings p i).cache (.info q) = w.cache (.info q) := by
  cases p <;> simp [releaseStrings, Http.releaseHttpInfo, Ssl.releaseSslInfo, Smtp.releaseSmtpInfo,
    Imap.releaseImapInfo, Pop.releasePopInfo, Dns.releaseDnsInfo, Sip.releaseSipInfo,
    Ssdp.releaseSsdpInfo]

/-! ### One turn of the loop -/

theorem detach_none {w : World} {p : L7Protocol} {a : Obj}
    (expired : w.lockInfo p (w.flows a) = none) : w.detach p a = w := by
  unfold detach
  rw [expired]

theorem detach_eq {w : World} {p : L7Protocol} {a i : Obj}
    (locked : w.lockInfo p (w.flows a) = some i) :
    w.detach p a = ((w.releaseStrings p i).setFlow a
      (((w.releaseStrings p i).flows a).setInfo p none)).releaseTo (.info p) (releasedInfo p i) := by
  unfold detach
  rw [locked]

theorem detach_some {w : World} {p : L7Protocol} {a i : Obj}
    (locked : w.lockInfo p (w.flows a) = some i) :
    (w.detach p a).cache (.info p) = (w.cache (.info p)).release (releasedInfo p i) ∧
      (w.detach p a).flows = (w.setFlow a ((w.flows a).setInfo p none)).flows := by
  rw [detach_eq locked]
  constructor
  · simp [releaseTo, releaseStrings_info]
  · simp [releaseTo, setFlow, releaseStrings_flows]

theorem release_prefix (c : Cache) (x : Option Obj) : c.free <+: (c.release x).free := by
  by_cases room : c.total < c.items.length
  · rw [Cache.release_free x room]
    exact List.prefix_append _ _
  · exact (Cache.release_full x room).symm ▸ List.prefix_rfl

theorem detach_extends (w : World) (p : L7Protocol) (a : Obj) :
    (w.cache (.info p)).free <+: ((w.detach p a).cache (.info p)).free := by
  cases locked : w.lockInfo p (w.flows a) with
  | none => exact (detach_none locked).symm ▸ List.prefix_rfl
  | some i =>
    rw [(detach_some locked).1]
    exact release_prefix _ _

/-- The info of a detached flow is in the cache after the GPRS loop body. -/
theorem release_owned {c : Cache} {i : Obj} (owns : c.Owns i) :
    some i ∈ (c.release (some i)).free := by
  by_cases room : c.total < c.items.length
  · rw [Cache.release_free _ room]
    exact List.mem_append_right _ List.mem_cons_self
  · rw [Cache.release_full _ room, Cache.free, List.take_of_length_le (by omega)]
    exact owns

/-! ### The loop -/

def detachAll (w : World) (p : L7Protocol) (ft : List Obj) : World :=
  ft.foldl (fun w a => w.detach p a) w

theorem detachAll_extends (w : World) (p : L7Protocol) (ft : List Obj) :
    (w.cache (.info p)).free <+: ((w.detachAll p ft).cache (.info p)).free := by
  induction ft generalizing w with
  | nil => exact List.prefix_rfl
  | cons a rest ih => exact (detach_extends w p a).trans (ih (w.detach p a))

theorem detachAll_expired {w : World} {p : L7Protocol} {ft : List Obj}
    (expired : ∀ a ∈ ft, w.lockInfo p (w.flows a) = none) : w.detachAll p ft = w := by
  induction ft with
  | nil => rfl
  | cons a rest ih =>
    have first := expired a List.mem_cons_self
    have others := fun b member => expired b (List.mem_cons_of_mem _ member)
    have same : w.detachAll p (a :: rest) = (w.detach p a).detachAll p rest := rfl
    rw [same, detach_none first]
    exact ih others

theorem detachAll_full {w : World} {p : L7Protocol} {ft : List Obj}
    (full : ¬(w.cache (.info p)).total < (w.cache (.info p)).items.length) :
    (w.detachAll p ft).cache (.info p) = w.cache (.info p) := by
  induction ft generalizing w with
  | nil => rfl
  | cons a rest ih =>
    have turn : (w.detach p a).cache (.info p) = w.cache (.info p) := by
      cases locked : w.lockInfo p (w.flows a) with
      | none => rw [detach_none locked]
      | some i => rw [(detach_some locked).1, Cache.release_full _ full]
    have after := ih (w := w.detach p a) (by rw [turn]; exact full)
    exact after.trans turn

/-- The first info that is alive makes an empty slot, and the slot stays in the free part. -/
theorem detachAll_empty_slot {w : World} {p : L7Protocol} {ft : List Obj} (notGprs : p ≠ .gprs)
    (room : (w.cache (.info p)).total < (w.cache (.info p)).items.length)
    (alive : ∃ a ∈ ft, w.lockInfo p (w.flows a) ≠ none) :
    none ∈ ((w.detachAll p ft).cache (.info p)).free := by
  induction ft with
  | nil =>
    obtain ⟨a, member, -⟩ := alive
    exact absurd member (by simp)
  | cons a rest ih =>
    have same : w.detachAll p (a :: rest) = (w.detach p a).detachAll p rest := rfl
    rw [same]
    cases locked : w.lockInfo p (w.flows a) with
    | none =>
      rw [detach_none locked]
      obtain ⟨b, member, living⟩ := alive
      rcases List.mem_cons.mp member with rfl | later
      · exact absurd locked living
      · exact ih ⟨b, later, living⟩
    | some i =>
      have emptied : releasedInfo p i = none := by cases p <;> first | rfl | exact absurd rfl notGprs
      have turn : none ∈ ((w.detach p a).cache (.info p)).free := by
        rw [(detach_some locked).1, emptied, Cache.release_free _ room]
        exact List.mem_append_right _ List.mem_cons_self
      exact (detachAll_extends _ p rest).subset turn

/-- With GPRS, an info that lost its flow is in the free part. -/
theorem detachAll_back {w : World} {ft : List Obj} {a i : Obj}
    (attached : (w.flows a).info .gprs = some i)
    (lost : ((w.detachAll .gprs ft).flows a).info .gprs = none) :
    some i ∈ ((w.detachAll .gprs ft).cache (.info .gprs)).free := by
  induction ft generalizing w with
  | nil => exact absurd (attached.symm.trans lost) (by simp)
  | cons b rest ih =>
    have same : w.detachAll .gprs (b :: rest) = (w.detach .gprs b).detachAll .gprs rest := rfl
    rw [same] at lost ⊢
    cases locked : w.lockInfo .gprs (w.flows b) with
    | none =>
      rw [detach_none locked] at lost ⊢
      exact ih attached lost
    | some j =>
      obtain ⟨caches, flows⟩ := detach_some locked
      by_cases turn : a = b
      · subst turn
        obtain ⟨pointer, owns⟩ := lockInfo_some locked
        obtain rfl := Option.some.inj (attached.symm.trans pointer)
        have back : some i ∈ ((w.detach .gprs a).cache (.info .gprs)).free := by
          rw [caches]
          exact release_owned owns
        exact (detachAll_extends _ .gprs rest).subset back
      · have kept : ((w.detach .gprs b).flows a).info .gprs = some i := by
          rw [flows]
          simp only [setFlow, if_neg turn]
          exact attached
        exact ih kept lost

theorem detachAll_usable_gprs {w : World} {ft : List Obj} (usable : w.Usable .gprs) :
    (w.detachAll .gprs ft).Usable .gprs := by
  induction ft generalizing w with
  | nil => exact usable
  | cons a rest ih =>
    refine ih (w := w.detach .gprs a) ?_
    cases locked : w.lockInfo .gprs (w.flows a) with
    | none =>
      rw [detach_none locked]
      exact usable
    | some i =>
      intro x member
      rw [(detach_some locked).1] at member
      by_cases room : (w.cache (.info .gprs)).total < (w.cache (.info .gprs)).items.length
      · rw [Cache.release_free _ room] at member
        rcases List.mem_append.mp member with old | new
        · exact usable x old
        · rw [List.mem_singleton.mp new]
          exact Option.some_ne_none i
      · rw [Cache.release_full _ room] at member
        exact usable x member

/-- `releaseCache` leaves the pools usable exactly when they were usable and it had nothing to
give back: no flow has an info of the protocol that is alive, or the cache has no room. GPRS, which
releases before it resets, always does. -/
theorem releaseCache_recovers_iff (w : World) (p : L7Protocol) (ft : List Obj) :
    Recovers w (w.releaseCache p ft) p ft ↔
      w.Usable p ∧ (p = .gprs ∨ (∀ a ∈ ft, w.lockInfo p (w.flows a) = none) ∨
        ¬(w.cache (.info p)).total < (w.cache (.info p)).items.length) := by
  have cleared : (w.releaseCache p ft).cache = (w.detachAll p ft).cache := rfl
  have flows : (w.releaseCache p ft).flows = (w.detachAll p ft).flows := rfl
  constructor
  · intro recovers
    have usable : w.Usable p := by
      intro x member
      exact recovers.usable x ((detachAll_extends w p ft).subset member)
    refine ⟨usable, ?_⟩
    by_contra broken
    simp only [not_or, not_not] at broken
    obtain ⟨notGprs, alive, room⟩ := broken
    simp only [not_forall] at alive
    obtain ⟨a, member, living⟩ := alive
    exact recovers.usable none (detachAll_empty_slot notGprs room ⟨a, member, living⟩) rfl
  · rintro ⟨usable, gprs | expired | full⟩
    · subst gprs
      refine ⟨?_, detachAll_usable_gprs usable⟩
      intro a _ i locked lost
      exact detachAll_back (lockInfo_some locked).1 lost
    · refine ⟨?_, ?_⟩
      · intro a member i locked _
        rw [expired a member] at locked
        exact absurd locked (by simp)
      · intro x member
        rw [cleared, detachAll_expired expired] at member
        exact usable x member
    · have same : (w.detachAll p ft).cache (.info p) = w.cache (.info p) := detachAll_full full
      refine ⟨?_, ?_⟩
      · intro a _ i locked _
        obtain ⟨-, owns⟩ := lockInfo_some locked
        rw [cleared, same, Cache.free, List.take_of_length_le (by omega)]
        exact owns
      · intro x member
        rw [cleared, same] at member
        exact usable x member

/-- One flow with a DNS info, out of a cache of one: the cache gets an empty pointer back. -/
theorem not_releaseCache_recovers :
    ¬∀ (w : World) (p : L7Protocol) (ft : List Obj), p ≠ .gprs → w.Usable p →
      Recovers w (w.releaseCache p ft) p ft := by
  intro h
  have recovers := h
    ((((start (fun _ => 1) none).openFlow ⟨.flow 0, 0⟩ ipprotoUdp).processFlow .dns
        ⟨.flow 0, 0⟩ []).toOption.getD (start (fun _ => 0) none))
    .dns [⟨.flow 0, 0⟩] (by decide) (by decide)
  exact recovers.usable none (by decide) rfl

end AIEngine.World
