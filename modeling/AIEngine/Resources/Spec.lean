import AIEngine.Resources.World

/-!
# What the operations on pools and maps do

One lemma for each operation says everything it can do; the invariants of the runs are derived from
these lemmas and do not look into the operations again.
-/

namespace AIEngine

namespace Cache

theorem lock_some {c : Cache} {p : Option Obj} {a : Obj} (locked : c.lock p = some a) :
    p = some a ∧ c.Owns a := by
  have filtered := Option.filter_eq_some_iff.mp locked
  exact ⟨filtered.1, of_decide_eq_true filtered.2⟩

theorem lock_of_owns {c : Cache} {a : Obj} (owns : c.Owns a) : c.lock (some a) = some a := by
  simp [lock, owns]

theorem lock_none_of_expired {c : Cache} {a : Obj} (expired : ¬c.Owns a) :
    c.lock (some a) = none := by
  simp [lock, expired]

/-- Whether a weak pointer locks is a matter of the slots. -/
theorem lock_congr {c c' : Cache} (items : c'.items = c.items) (p : Option Obj) :
    c'.lock p = c.lock p := by
  cases p with
  | none => rfl
  | some a =>
    by_cases owns : c.Owns a
    · have owns' : c'.Owns a := by
        unfold Owns
        rw [items]
        exact owns
      rw [lock_of_owns owns, lock_of_owns owns']
    · have expired : ¬c'.Owns a := by
        unfold Owns
        rw [items]
        exact owns
      rw [lock_none_of_expired owns, lock_none_of_expired expired]

theorem release_free_cases (c : Cache) (x : Option Obj) :
    (c.release x).free = c.free ∨ (c.release x).free = c.free ++ [x] := by
  by_cases room : c.total < c.items.length
  · exact Or.inr (release_free x room)
  · rw [release_full x room]
    exact Or.inl rfl

theorem release_items {c : Cache} {x y : Option Obj} (member : y ∈ (c.release x).items) :
    y = x ∨ y ∈ c.items := by
  by_cases room : c.total < c.items.length
  · rw [release_room x room] at member
    rcases List.mem_or_eq_of_mem_set member with old | new
    · exact Or.inr old
    · exact Or.inl new
  · rw [release_full x room] at member
    exact Or.inr member

theorem acquire_items {c c' : Cache} {r : Option Obj} (h : c.acquire = .ok (r, c')) :
    c'.items = c.items := by
  cases r with
  | none =>
    obtain ⟨-, rfl⟩ := acquire_none h
    rfl
  | some a =>
    obtain ⟨-, -, rfl⟩ := acquire_some h
    rfl

end Cache

namespace World

theorem setInfo_info (f : Flow) (p : L7Protocol) (i : Option Obj) : (f.setInfo p i).info p = i := by
  cases p <;> rfl

/-! ### Maps -/

theorem find_some {m : List MapEntry} {key : Bytes} {e : MapEntry} (h : find m key = some e) :
    e ∈ m ∧ e.key = key := by
  unfold find at h
  have same := List.find?_some h
  exact ⟨List.mem_of_find?_eq_some h, of_decide_eq_true same⟩

theorem find_none {m : List MapEntry} {key : Bytes} (h : find m key = none) :
    ∀ e ∈ m, e.key ≠ key := by
  intro e member same
  have absent := List.find?_eq_none.mp h e member
  exact absent (decide_eq_true same)

theorem mem_insert {m : List MapEntry} {e new : MapEntry} (member : e ∈ insert m new) :
    e = new ∨ e ∈ m := by
  unfold insert at member
  split at member
  · exact Or.inr member
  · exact List.mem_cons.mp member

theorem mem_addHits {m : List MapEntry} {key : Bytes} {n : Int} {e : MapEntry}
    (member : e ∈ addHits m key n) : ∃ e₀ ∈ m, e₀.key = e.key ∧ e₀.object = e.object := by
  obtain ⟨e₀, old, rfl⟩ := List.mem_map.mp member
  refine ⟨e₀, old, ?_⟩
  split <;> exact ⟨rfl, rfl⟩

theorem addHits_objects (m : List MapEntry) (key : Bytes) (n : Int) :
    (addHits m key n).map MapEntry.object = m.map MapEntry.object := by
  unfold addHits
  rw [List.map_map]
  refine List.map_congr_left fun e _ => ?_
  simp only [Function.comp_apply]
  split <;> rfl

theorem addHits_keys (m : List MapEntry) (key : Bytes) (n : Int) :
    (addHits m key n).map MapEntry.key = m.map MapEntry.key := by
  unfold addHits
  rw [List.map_map]
  refine List.map_congr_left fun e _ => ?_
  simp only [Function.comp_apply]
  split <;> rfl

theorem mem_removeHit {m : List MapEntry} {key : Bytes} {e : MapEntry}
    (member : e ∈ removeHit m key) : ∃ e₀ ∈ m, e₀.key = e.key ∧ e₀.object = e.object := by
  unfold removeHit at member
  split at member
  · exact ⟨e, member, rfl, rfl⟩
  · split at member
    · exact ⟨e, List.mem_of_mem_filter member, rfl, rfl⟩
    · exact mem_addHits member

/-- The last hit takes the entry with it. -/
theorem removeHit_last {m : List MapEntry} {key : Bytes}
    (last : ∀ e, find m key = some e → e.hits ≤ 1) : ∀ e ∈ removeHit m key, e.key ≠ key := by
  intro e member
  unfold removeHit at member
  split at member
  · rename_i absent
    exact find_none absent e member
  · rename_i e₀ found
    have few := last e₀ found
    rw [if_pos (by omega)] at member
    exact of_decide_eq_true (List.mem_filter.mp member).2

/-! ### Attaching -/

theorem attachInfo_cases {w w' : World} {p : L7Protocol} {a : Obj} {r : Option Obj}
    (h : w.attachInfo p a = .ok (r, w')) :
    (∃ i, r = some i ∧ w.lockInfo p (w.flows a) = some i ∧ w' = w) ∨
    (∃ i c, r = some i ∧ w.lockInfo p (w.flows a) = none ∧
      (w.cache (.info p)).acquire = .ok (some i, c) ∧
      w' = ((w.setCache (.info p) c).setInfo i {}).setFlow a ((w.flows a).setInfo p (some i))) ∨
    (∃ c, r = none ∧ (w.cache (.info p)).acquire = .ok (none, c) ∧
      w' = w.setCache (.info p) c) := by
  unfold attachInfo at h
  split at h
  · rename_i i locked
    simp only [Except.ok.injEq, Prod.mk.injEq] at h
    exact Or.inl ⟨i, h.1.symm, locked, h.2.symm⟩
  · rename_i expired
    split at h
    · rename_i i c acquired
      simp only [Except.ok.injEq, Prod.mk.injEq] at h
      exact Or.inr (Or.inl ⟨i, c, h.1.symm, expired, acquired, h.2.symm⟩)
    · rename_i c failed
      simp only [Except.ok.injEq, Prod.mk.injEq] at h
      exact Or.inr (Or.inr ⟨c, h.1.symm, failed, h.2.symm⟩)
    · exact absurd h (by simp)

theorem attachInfo_fails {w : World} {p : L7Protocol} {a : Obj} {f : Fault}
    (h : w.attachInfo p a = .error f) :
    w.lockInfo p (w.flows a) = none ∧ (w.cache (.info p)).acquire = .error f := by
  unfold attachInfo at h
  split at h
  · exact absurd h (by simp)
  · rename_i expired
    split at h
    · exact absurd h (by simp)
    · exact absurd h (by simp)
    · rename_i e acquired
      obtain rfl := Except.error.inj h
      exact ⟨expired, acquired⟩

theorem attachInfo_expired {w w' : World} {p : L7Protocol} {a : Obj}
    (h : w.attachInfo p a = .ok (none, w')) : w.lockInfo p (w.flows a) = none := by
  cases locked : w.lockInfo p (w.flows a) with
  | none => rfl
  | some i =>
    unfold attachInfo at h
    rw [locked] at h
    exact absurd h (by simp)

theorem intern_cases {w w' : World} {p : L7Protocol} {x : StringField} {always countHit : Bool}
    {i : Obj} {value : Bytes} (h : w.intern p x always countHit i value = .ok w') :
    (always = false ∧ (w.lockString p ((w.infos i).strings x)).isSome = true ∧ w' = w) ∨
    (∃ e n, find (w.maps p x) value = some e ∧ n = (if countHit then 1 else 0) ∧
      (always = true ∨ w.lockString p ((w.infos i).strings x) = none) ∧
      w' = (w.setMap p x (addHits (w.maps p x) value n)).setString i x (some e.object)) ∨
    (∃ s c, (w.cache (.string p x)).acquire = .ok (some s, c) ∧ find (w.maps p x) value = none ∧
      (always = true ∨ w.lockString p ((w.infos i).strings x) = none) ∧
      w' = (((w.setCache (.string p x) c).setName s value).setString i x (some s)).setMap p x
        (insert ((w.setName s value).maps p x) { key := cString value, object := s, hits := 1 })) ∨
    (∃ c, (w.cache (.string p x)).acquire = .ok (none, c) ∧ find (w.maps p x) value = none ∧
      (always = true ∨ w.lockString p ((w.infos i).strings x) = none) ∧
      w' = w.setCache (.string p x) c) := by
  unfold intern at h
  split at h
  · rename_i attached
    exact Or.inl ⟨attached.1, attached.2, (Except.ok.inj h).symm⟩
  · rename_i attaches
    have missing : always = true ∨ w.lockString p ((w.infos i).strings x) = none := by
      cases always with
      | true => exact Or.inl rfl
      | false => exact Or.inr (by simpa using attaches)
    split at h
    · rename_i absent
      unfold internNew at h
      split at h
      · rename_i s c acquired
        exact Or.inr (Or.inr (Or.inl ⟨s, c, acquired, absent, missing, (Except.ok.inj h).symm⟩))
      · rename_i c failed
        exact Or.inr (Or.inr (Or.inr ⟨c, failed, absent, missing, (Except.ok.inj h).symm⟩))
      · exact absurd h (by simp)
    · rename_i e found
      exact Or.inr (Or.inl ⟨e, _, found, rfl, missing, (Except.ok.inj h).symm⟩)

theorem intern_flows {w w' : World} {p : L7Protocol} {x : StringField} {always countHit : Bool}
    {i : Obj} {value : Bytes} (h : w.intern p x always countHit i value = .ok w') :
    w'.flows = w.flows := by
  rcases intern_cases h with ⟨-, -, rfl⟩ | ⟨e, n, _, _, _, rfl⟩ | ⟨s, c, _, _, _, rfl⟩ |
    ⟨c, -, -, -, rfl⟩
  · rfl
  · rfl
  · exact setCache_flows w (.string p x) c
  · exact setCache_flows w (.string p x) c

theorem setMap_same (w : World) (p : L7Protocol) (x : StringField) (m : List MapEntry) :
    (w.setMap p x m).maps p x = w.settle p x m := by simp [setMap]

theorem setMap_other {w : World} {p q : L7Protocol} {x y : StringField} {m : List MapEntry}
    (other : ¬(q = p ∧ y = x)) : (w.setMap p x m).maps q y = w.maps q y := if_neg other

theorem setString_pointer {w : World} {i j : Obj} {x y : StringField} {s t : Obj}
    (h : ((w.setString i x (some s)).infos j).strings y = some t) :
    (w.infos j).strings y = some t ∨ y = x ∧ t = s := by
  by_cases touched : j = i ∧ y = x
  · obtain ⟨rfl, rfl⟩ := touched
    simp only [setString, setInfo, ↓reduceIte, Option.some.injEq] at h
    exact Or.inr ⟨rfl, h.symm⟩
  · left
    by_cases same : j = i
    · have other : y ≠ x := fun equal => touched ⟨same, equal⟩
      simpa [setString, setInfo, same, other] using h
    · simpa [setString, setInfo, same] using h

/-- Every attach function is `intern` with its own field; those for a uri always attach. -/
theorem attachString_intern {p : L7Protocol} {x : StringField}
    {attach : World → Obj → Bytes → Except Fault World} (h : attachString p x = some attach) :
    ∃ countHit, attach = fun w => w.intern p x (decide (x = .uri)) countHit := by
  cases p <;> cases x <;> simp only [attachString, reduceCtorEq, Option.some.injEq] at h <;>
    subst h <;> exact ⟨_, rfl⟩

/-- An invariant of the attach functions is one of a packet in which no domain is banned. -/
theorem runActions_rule {Inv : World → Prop} {p : L7Protocol} {i : Obj}
    (keep : ∀ w w' x always countHit value, Inv w →
      w.intern p x always countHit i value = .ok w' → Inv w')
    (found : List (StringField × Bytes)) {w w' : World} (inv : Inv w)
    (h : w.runActions p i (found.map fun f => .string f.1 f.2) = .ok w') : Inv w' := by
  induction found generalizing w with
  | nil =>
    obtain rfl := Except.ok.inj h
    exact inv
  | cons f rest ih =>
    simp only [List.map_cons, runActions] at h
    split at h
    · exact ih inv h
    · rename_i attach known
      obtain ⟨countHit, rfl⟩ := attachString_intern known
      split at h
      · rename_i w₁ attached
        exact ih (keep w w₁ f.1 _ countHit f.2 inv attached) h
      · exact absurd h (by simp)

theorem processFlow_cases {w w' : World} {p : L7Protocol} {a : Obj} {actions : List AppAction}
    (h : w.processFlow p a actions = .ok w') :
    ∃ r w₁, w.attachInfo p a = .ok (r, w₁) ∧
      (w' = w₁ ∨ ∃ i, r = some i ∧ (w₁.infos i).isBanned = false ∧
        w₁.runActions p i actions = .ok w') := by
  unfold processFlow at h
  split at h
  · rename_i i w₁ attached
    split at h
    · exact ⟨_, w₁, attached, Or.inl (Except.ok.inj h).symm⟩
    · rename_i notBanned
      exact ⟨_, w₁, attached, Or.inr ⟨i, rfl, by simpa using notBanned, h⟩⟩
  · rename_i w₁ attached
    exact ⟨_, w₁, attached, Or.inl (Except.ok.inj h).symm⟩
  · exact absurd h (by simp)

/-! ### Locking -/

theorem lockInfo_some {w : World} {p : L7Protocol} {f : Flow} {i : Obj}
    (locked : w.lockInfo p f = some i) : f.info p = some i ∧ (w.cache (.info p)).Owns i :=
  Cache.lock_some locked

theorem lockString_some {w : World} {p : L7Protocol} {q : Option Obj} {s : Obj}
    (locked : w.lockString p q = some s) : q = some s ∧ w.StringAlive p s := by
  have filtered := Option.filter_eq_some_iff.mp locked
  exact ⟨filtered.1, of_decide_eq_true filtered.2⟩

theorem lockString_of_alive {w : World} {p : L7Protocol} {s : Obj} (alive : w.StringAlive p s) :
    w.lockString p (some s) = some s := by
  simp [lockString, alive]

theorem attachInfo_locked {w w' : World} {p : L7Protocol} {a i : Obj}
    (h : w.attachInfo p a = .ok (some i, w')) : w'.lockInfo p (w'.flows a) = some i := by
  rcases attachInfo_cases h with ⟨j, same, locked, rfl⟩ | ⟨j, c, same, -, acquired, rfl⟩ |
    ⟨c, none, -, -⟩
  · rw [locked, same]
  · obtain rfl := Option.some.inj same
    obtain ⟨-, slot, rfl⟩ := Cache.acquire_some acquired
    have owned : (w.cache (.info p)).Owns i := List.mem_of_getElem? slot
    unfold lockInfo
    simp only [setFlow, ↓reduceIte, setInfo_info]
    refine Cache.lock_of_owns ?_
    have cache := cache_setCache_same w (.info p) { w.cache (.info p) with
      totalAcquires := (w.cache (.info p)).totalAcquires + 1
      total := (w.cache (.info p)).total - 1 }
    exact cache.symm ▸ owned
  · exact absurd none (by simp)

/-! ### Releasing -/

/-- A released string was alive, so a release brings no other string to life. -/
theorem releaseTo_alive {w : World} {p : L7Protocol} {x : StringField} {s t : Obj}
    (alive : w.StringAlive p s)
    (after : (w.releaseTo (.string p x) (some s)).StringAlive p t) : w.StringAlive p t := by
  obtain ⟨y, listed, owned⟩ := after
  by_cases same : y = x
  · subst same
    rcases owned with slot | entry
    · unfold releaseTo at slot
      rw [cache_setCache_same] at slot
      rcases Cache.release_items slot with new | old
      · obtain rfl := Option.some.inj new
        exact alive
      · exact ⟨y, listed, Or.inl old⟩
    · rw [releaseTo, setCache_maps] at entry
      exact ⟨y, listed, Or.inr entry⟩
  · have apart : CacheId.string p y ≠ .string p x := by simp [same]
    rw [releaseTo, cache_setCache_other apart, setCache_maps] at owned
    exact ⟨y, listed, owned⟩

theorem infoPools_apart (w : World) {p q : L7Protocol} (c : Cache) (other : q ≠ p) :
    (w.setCache (.info p) c).cache (.info q) = w.cache (.info q) :=
  cache_setCache_other fun equal => other (CacheId.info.inj equal)

/-- The pool of infos of a protocol stays, or it gets the info that the flow has. -/
def Returns (f : Flow) (q : L7Protocol) (w w' : World) : Prop :=
  w'.cache (.info q) = w.cache (.info q) ∨
    ∃ i, w.lockInfo q f = some i ∧ w'.cache (.info q) = (w.cache (.info q)).release (some i)

theorem returns_congr {w w₁ w' : World} {f : Flow} {q : L7Protocol}
    (same : w₁.cache (.info q) = w.cache (.info q)) (h : Returns f q w₁ w') : Returns f q w w' := by
  unfold Returns lockInfo at h
  rw [same] at h
  exact h

theorem releaseFirst_returns (w : World) (f : Flow) (ps : List L7Protocol) (q : L7Protocol) :
    Returns f q w (w.releaseFirst f ps) := by
  induction ps with
  | nil => exact Or.inl rfl
  | cons p rest ih =>
    unfold releaseFirst
    split
    · rename_i i locked
      by_cases same : q = p
      · subst same
        exact Or.inr ⟨i, locked, cache_setCache_same ..⟩
      · exact Or.inl (infoPools_apart w _ same)
    · exact ih

theorem releaseFirst_absent (w : World) (f : Flow) {ps : List L7Protocol} {q : L7Protocol}
    (absent : q ∉ ps) : (w.releaseFirst f ps).cache (.info q) = w.cache (.info q) := by
  induction ps with
  | nil => rfl
  | cons p rest ih =>
    unfold releaseFirst
    split
    · have other : q ≠ p := by
        rintro rfl
        exact absent List.mem_cons_self
      exact infoPools_apart w _ other
    · exact ih fun later => absent (List.mem_cons_of_mem _ later)

theorem releaseTcpInfo_infoPool (w : World) (f : Flow) (q : L7Protocol) :
    (w.releaseTcpInfo f).cache (.info q) = w.cache (.info q) := by
  unfold releaseTcpInfo
  split
  · split
    · exact cache_setCache_other (by simp)
    · rfl
  · rfl

/-- GPRS stands alone in the first case analysis of a UDP flow. -/
theorem releaseFlow_returns (w : World) (f : Flow) (q : L7Protocol) :
    Returns f q w (w.releaseFlow f) := by
  unfold releaseFlow
  split
  · exact returns_congr (releaseTcpInfo_infoPool w f q) (releaseFirst_returns _ f _ q)
  · by_cases gprs : q = .gprs
    · have kept : ((w.releaseFirst f [.gprs]).releaseFirst f [.dns, .sip, .ssdp]).cache (.info q) =
          (w.releaseFirst f [.gprs]).cache (.info q) :=
        releaseFirst_absent _ f (by rw [gprs]; decide)
      unfold Returns
      rw [kept]
      exact releaseFirst_returns w f [.gprs] q
    · have kept : (w.releaseFirst f [.gprs]).cache (.info q) = w.cache (.info q) :=
        releaseFirst_absent w f (by simpa using gprs)
      exact returns_congr kept (releaseFirst_returns _ f _ q)

end World

end AIEngine
