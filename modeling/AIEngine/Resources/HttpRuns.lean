import AIEngine.Library.Transition
import AIEngine.Pool.Exclusivity
import AIEngine.Resources.Interning

/-!
# Runs of the HTTP protocol

A run consists of packets, bans, flow expiries through the cache manager, calls of
`HTTPProtocol::releaseCache` and whatever writes over freed memory. Only bans and `releaseCache` give
strings back.
-/

namespace AIEngine.Http

open World

inductive Event where
  | openFlow (a : Obj) (layer : Nat)
  | packet (a : Obj) (found : List (StringField × Bytes))
  | ban (a : Obj)
  | expire (a : Obj)
  | releaseCache
  /-- what lies behind freed octets is written over -/
  | memory (sight : Nat → MapEntry → Bytes)

def step (w : World) : Event → Option World
  | .openFlow a layer =>
    if a ∈ w.table then none else (w.openTcpFlow a layer).toOption
  | .packet a found =>
    if a ∈ w.table then
      (w.processFlow .http a (found.map fun f => .string f.1 f.2)).toOption
    else none
  | .ban a => if a ∈ w.table then (w.processFlow .http a [.ban]).toOption else none
  | .expire a => if a ∈ w.table then some (w.endFlow a) else none
  | .releaseCache => some (w.releaseCache .http w.table)
  | .memory sight => some (w.overwrite sight)

/-! ### `releaseCache` -/

theorem detach_lock {w : World} {a b j : Obj}
    (h : (w.detach .http a).lockInfo .http ((w.detach .http a).flows b) = some j) :
    w.lockInfo .http (w.flows b) = some j ∧ b ≠ a := by
  cases locked : w.lockInfo .http (w.flows a) with
  | none =>
    rw [detach_none locked] at h
    refine ⟨h, ?_⟩
    intro same
    rw [same, locked] at h
    exact absurd h (by simp)
  | some i =>
    obtain ⟨cache, flows⟩ := detach_some locked
    obtain ⟨attached, owns⟩ := lockInfo_some h
    rw [flows] at attached
    rw [cache] at owns
    have other : b ≠ a := by
      intro same
      subst same
      simp [setFlow, setInfo_info] at attached
    refine ⟨?_, other⟩
    have attached' : (w.flows b).info .http = some j := by simpa [setFlow, other] using attached
    rw [lockInfo, attached']
    exact Cache.lock_of_owns (release_none_owns owns)

theorem detachAll_lock {w : World} {ft : List Obj} {b j : Obj}
    (h : (w.detachAll .http ft).lockInfo .http ((w.detachAll .http ft).flows b) = some j) :
    w.lockInfo .http (w.flows b) = some j ∧ b ∉ ft := by
  induction ft generalizing w with
  | nil => exact ⟨h, by simp⟩
  | cons a rest ih =>
    have same : w.detachAll .http (a :: rest) = (w.detach .http a).detachAll .http rest := rfl
    rw [same] at h
    obtain ⟨later, absent⟩ := ih h
    obtain ⟨before, other⟩ := detach_lock later
    exact ⟨before, by simp [other, absent]⟩

/-- No two live infos of these flows refer to one string. -/
def Unshared (w : World) (ft : List Obj) : Prop :=
  ∀ a ∈ ft, ∀ b ∈ ft, ∀ i, w.lockInfo .http (w.flows a) = some i →
    ∀ j, w.lockInfo .http (w.flows b) = some j → i ≠ j →
      ∀ x t, (w.infos i).strings x = some t → (w.infos j).strings x ≠ some t

/-- What the loop needs of the flows that are still to come. -/
structure Releasing (w : World) (rest : List Obj) : Prop where
  once : ∀ x, (w.httpStrings x).free.Nodup
  pending : ∀ a ∈ rest, ∀ i, w.lockInfo .http (w.flows a) = some i →
    ∀ x t, (w.infos i).strings x = some t → some t ∉ (w.httpStrings x).free
  apart : Unshared w rest

theorem detach_releasing {w : World} {a : Obj} {rest : List Obj}
    (releasing : Releasing w (a :: rest)) : Releasing (w.detach .http a) rest := by
  obtain ⟨once, pending, apart⟩ := releasing
  cases locked : w.lockInfo .http (w.flows a) with
  | none =>
    rw [detach_none locked]
    exact ⟨once, fun b member => pending b (List.mem_cons_of_mem _ member),
      fun b left c right => apart b (List.mem_cons_of_mem _ left) c (List.mem_cons_of_mem _ right)⟩
  | some i =>
    obtain ⟨-, infos, returned⟩ := releaseHttpInfo_spec w i
    have detached : (w.detach .http a).infos = (World.Http.releaseHttpInfo w i).infos ∧
        ∀ x, (w.detach .http a).httpStrings x = (World.Http.releaseHttpInfo w i).httpStrings x := by
      rw [detach_eq locked]
      refine ⟨setCache_infos .., fun x => ?_⟩
      have apart : CacheId.string .http x ≠ .info .http := by simp
      exact (cache_setCache_other apart).trans rfl
    have held : ∀ x t, w.lockString .http ((w.infos i).strings x) = some t →
        some t ∉ (w.httpStrings x).free := fun x t released =>
      pending a List.mem_cons_self i locked x t (lockString_some released).1
    have pointers : ∀ j x t, ((w.detach .http a).infos j).strings x = some t →
        j ≠ i ∧ (w.infos j).strings x = some t := by
      intro j x t pointer
      rw [detached.1, infos] at pointer
      exact reset_pointer pointer
    refine ⟨?_, ?_, ?_⟩
    · intro x
      rw [detached.2]
      exact returned_once (returned x) (once x) (held x)
    · intro b member j living x t pointer free
      obtain ⟨living, -⟩ := detach_lock living
      obtain ⟨other, pointer⟩ := pointers j x t pointer
      rw [detached.2] at free
      rcases returned_free (returned x) free with old | released
      · exact pending b (List.mem_cons_of_mem _ member) j living x t pointer old
      · exact apart b (List.mem_cons_of_mem _ member) a List.mem_cons_self j living i locked other
          x t pointer (lockString_some released).1
    · intro b left c right j living k living' different x t pointer pointer'
      obtain ⟨living, -⟩ := detach_lock living
      obtain ⟨living', -⟩ := detach_lock living'
      exact apart b (List.mem_cons_of_mem _ left) c (List.mem_cons_of_mem _ right) j living k living'
        different x t (pointers j x t pointer).2 (pointers k x t pointer').2

theorem detachAll_once {w : World} {ft : List Obj} (releasing : Releasing w ft) (x : StringField) :
    ((w.detachAll .http ft).httpStrings x).free.Nodup := by
  induction ft generalizing w with
  | nil => exact releasing.once x
  | cons a rest ih => exact ih (detach_releasing releasing)

theorem detach_homes {w : World} {a : Obj} (homes : Homes w) : Homes (w.detach .http a) := by
  cases locked : w.lockInfo .http (w.flows a) with
  | none =>
    rw [detach_none locked]
    exact homes
  | some i =>
    rw [detach_eq locked]
    have released : Homes (World.Http.releaseHttpInfo w i) := homes_release homes
    refine ⟨?_, ?_, ?_⟩
    · intro x s slot
      rw [httpStrings, releaseTo, cache_setCache_other (by simp)] at slot
      exact released.slots x s slot
    · intro x e entry
      rw [releaseTo, setCache_maps] at entry
      exact released.entries x e entry
    · intro j x s pointer
      rw [releaseTo, setCache_infos] at pointer
      exact released.pointers j x s pointer

theorem detachAll_homes {w : World} {ft : List Obj} (homes : Homes w) :
    Homes (w.detachAll .http ft) := by
  induction ft generalizing w with
  | nil => exact homes
  | cons a rest ih => exact ih (detach_homes homes)

theorem detachAll_table (w : World) (ft : List Obj) : (w.detachAll .http ft).table = w.table := by
  induction ft generalizing w with
  | nil => rfl
  | cons a rest ih =>
    have turn : (w.detach .http a).table = w.table := by
      cases locked : w.lockInfo .http (w.flows a) with
      | none => rw [detach_none locked]
      | some i =>
        rw [detach_eq locked, releaseTo, setCache_table]
        exact (releaseHttpInfo_spec w i).1.table
    exact (ih (w.detach .http a)).trans turn

theorem releaseCache_homes {w : World} {ft : List Obj} (homes : Homes w) :
    Homes (w.releaseCache .http ft) := by
  have all : Homes (w.detachAll .http ft) := detachAll_homes homes
  refine ⟨all.slots, ?_, all.pointers⟩
  intro x e entry
  simp [releaseCache, clearMaps] at entry

theorem releaseCache_interned {w : World} (interned : Interned w)
    (unshared : Unshared w w.table) : Interned (w.releaseCache .http w.table) := by
  have empty : ∀ x, (w.releaseCache .http w.table).maps .http x = [] := by
    intro x
    simp [releaseCache, clearMaps]
  have releasing : Releasing w w.table :=
    ⟨interned.once, fun a member i locked x t pointer =>
      interned.attached x t ⟨a, member, i, locked, pointer⟩, unshared⟩
  refine ⟨?_, ?_, fun x => detachAll_once releasing x, ?_, ?_⟩
  · intro x e entry
    rw [empty] at entry
    exact absurd entry (by simp)
  · intro x s ⟨b, member, j, locked, _⟩
    have member' : b ∈ (w.detachAll .http w.table).table := member
    rw [detachAll_table] at member'
    exact absurd member' (detachAll_lock locked).2
  · intro x e entry
    rw [empty] at entry
    exact absurd entry (by simp)
  · intro x
    simp [releaseCache, clearMaps]

/-! ### One step -/

/-- Only a ban and `releaseCache` may break the sharing. -/
def Safe (w : World) : Event → World → Prop
  | .ban a, _ => BansAlone w a
  | .releaseCache, _ => Unshared w w.table
  | _, _ => True

theorem packet_interned {w w' : World} {a : Obj} {found : List (StringField × Bytes)}
    (inv : Homes w ∧ Interned w)
    (h : w.processFlow .http a (found.map fun f => .string f.1 f.2) = .ok w') :
    Homes w' ∧ Interned w' := by
  obtain ⟨r, w₁, attached, rest⟩ := processFlow_cases h
  have same := attachInfo_same attached
  have inv₁ : Homes w₁ ∧ Interned w₁ := ⟨homes_same inv.1 same, interned_same inv.2 same⟩
  rcases rest with rfl | ⟨i, -, -, ran⟩
  · exact inv₁
  · refine @runActions_rule (fun w => Homes w ∧ Interned w) _ _ ?_ found _ _ inv₁ ran
    intro u u' x always countHit value inv interns
    rcases intern_attaches inv.1 inv.2 interns with same | ⟨s, attaches⟩
    · exact ⟨homes_same inv.1 same, interned_same inv.2 same⟩
    · exact ⟨attaches_homes inv.1 attaches, attaches_interned inv.1 inv.2 attaches⟩

/-- A ban ends as the attach of the info, or releases the strings of the info the flow has. -/
theorem ban_cases {w w' : World} {a : Obj} (h : w.processFlow .http a [.ban] = .ok w') :
    ∃ r w₁, w.attachInfo .http a = .ok (r, w₁) ∧
      (w' = w₁ ∨ ∃ i, r = some i ∧ (w₁.infos i).isBanned = false ∧
        w' = World.Http.releaseHttpInfoCache (w₁.setBanned i) i) := by
  obtain ⟨r, w₁, attached, rest⟩ := processFlow_cases h
  refine ⟨r, w₁, attached, ?_⟩
  rcases rest with rfl | ⟨i, same, notBanned, ran⟩
  · exact Or.inl rfl
  · exact Or.inr ⟨i, same, notBanned, (Except.ok.inj ran).symm⟩

theorem ban_homes {w w' : World} {a : Obj} (homes : Homes w)
    (h : w.processFlow .http a [.ban] = .ok w') : Homes w' := by
  obtain ⟨r, w₁, attached, rest⟩ := ban_cases h
  have homes₁ := homes_same homes (attachInfo_same attached)
  rcases rest with rfl | ⟨i, -, -, rfl⟩
  · exact homes₁
  · have banned := homes_same homes₁ (setBanned_same w₁ i)
    have drops := dropsHits_trans (dropHit_drops (w₁.setBanned i) .ua i)
      (dropHit_drops ((w₁.setBanned i).dropHit .http .ua i) .uri i)
    exact homes_release (homes_drops banned drops)

theorem ban_interned {w w' : World} {a : Obj} (interned : Interned w) (member : a ∈ w.table)
    (alone : BansAlone w a) (h : w.processFlow .http a [.ban] = .ok w') : Interned w' := by
  obtain ⟨r, w₁, attached, rest⟩ := ban_cases h
  have interned₁ := interned_same interned (attachInfo_same attached)
  rcases rest with rfl | ⟨i, rfl, notBanned, rfl⟩
  · exact interned₁
  · have locked := attachInfo_locked attached
    have banned := interned_same interned₁ (setBanned_same w₁ i)
    have table : w₁.table = w.table := by
      rcases attachInfo_cases attached with ⟨_, _, _, rfl⟩ | ⟨_, _, _, _, _, rfl⟩ | ⟨_, none, _, _⟩
      · rfl
      · rfl
      · exact absurd none (by simp)
    refine releaseHttpInfoCache_interned (a := a) banned ?_ locked ?_
    · exact table.symm ▸ member
    · intro x t released
      rw [setBanned_strings] at released
      have released' : w₁.lockString .http ((w₁.infos i).strings x) = some t := released
      rcases attachInfo_cases attached with ⟨j, same, old, rfl⟩ | ⟨j, c, same, -, -, rfl⟩ |
        ⟨_, none, _, _⟩
      · obtain rfl := Option.some.inj same
        obtain ⟨few, unshared⟩ := alone i old notBanned x t released'
        refine ⟨few, fun b listed k living other => ?_⟩
        rw [setBanned_strings]
        exact unshared b listed k living other
      · obtain rfl := Option.some.inj same
        have fresh := (lockString_some released').1
        simp [setInfo, setFlow] at fresh
      · exact absurd none (by simp)

theorem homes_step {w w' : World} {e : Event} (homes : Homes w) (interned : Interned w)
    (h : step w e = some w') : Homes w' := by
  cases e with
  | openFlow a layer =>
    simp only [step] at h
    split at h
    · exact absurd h (by simp)
    · exact homes_same homes (openTcpFlow_same (toOption_some h))
  | packet a found =>
    simp only [step] at h
    split at h
    · exact (packet_interned ⟨homes, interned⟩ (toOption_some h)).1
    · exact absurd h (by simp)
  | ban a =>
    simp only [step] at h
    split at h
    · exact ban_homes homes (toOption_some h)
    · exact absurd h (by simp)
  | expire a =>
    simp only [step] at h
    split at h
    · obtain rfl := Option.some.inj h
      exact homes_same homes (endFlow_same w a)
    · exact absurd h (by simp)
  | releaseCache =>
    obtain rfl := Option.some.inj h
    exact releaseCache_homes homes
  | memory sight =>
    obtain rfl := Option.some.inj h
    exact homes_overwrite homes sight

theorem interned_step {w w' : World} {e : Event} (homes : Homes w) (interned : Interned w)
    (h : step w e = some w') (safe : Safe w e w') : Interned w' := by
  cases e with
  | openFlow a layer =>
    simp only [step] at h
    split at h
    · exact absurd h (by simp)
    · exact interned_same interned (openTcpFlow_same (toOption_some h))
  | packet a found =>
    simp only [step] at h
    split at h
    · exact (packet_interned ⟨homes, interned⟩ (toOption_some h)).2
    · exact absurd h (by simp)
  | ban a =>
    simp only [step] at h
    split at h
    · rename_i member
      exact ban_interned interned member safe (toOption_some h)
    · exact absurd h (by simp)
  | expire a =>
    simp only [step] at h
    split at h
    · obtain rfl := Option.some.inj h
      exact interned_same interned (endFlow_same w a)
    · exact absurd h (by simp)
  | releaseCache =>
    obtain rfl := Option.some.inj h
    exact releaseCache_interned interned safe
  | memory sight =>
    obtain rfl := Option.some.inj h
    exact interned_overwrite interned sight

/-! ### Every run -/

theorem start_interned (objects : CacheId → Nat) (layer : Option Nat) :
    Homes (start objects layer) ∧ Interned (start objects layer) := by
  have strings : ∀ x, (start objects layer).httpStrings x =
      Cache.create { id := .string .http x } (objects (.string .http x)) :=
    fun x => start_cache objects layer _
  refine ⟨⟨?_, ?_, ?_⟩, ⟨?_, ?_, ?_, ?_, fun _ => rfl⟩⟩
  · intro x s slot
    rw [strings, Cache.create_eq] at slot
    obtain ⟨k, -, same⟩ := List.mem_map.mp ((List.mem_append.mp slot).resolve_left (by simp))
    exact (Option.some.inj same) ▸ rfl
  · intro x e entry
    exact absurd entry (by simp [start])
  · intro i x s pointer
    exact absurd pointer (by simp [start])
  · intro x e entry
    exact absurd entry (by simp [start])
  · intro x s ⟨b, member, _⟩
    exact absurd member (by simp [start])
  · intro x
    rw [strings]
    exact (Pool.start_create_exclusive _ _).distinct
  · intro x e entry
    exact absurd entry (by simp [start])

/-- As long as bans and `releaseCache` meet strings nobody else refers to, the strings of every run
stay interned. -/
theorem always_interned (objects : CacheId → Nat) (layer : Option Nat) (es : List Event)
    (safe : Transition.Along step Safe (start objects layer) es) :
    Transition.Always step Interned (start objects layer) es := by
  have both : Transition.Always step (fun w => Homes w ∧ Interned w) (start objects layer) es := by
    refine Transition.always_of_along ?_ (start_interned objects layer) safe
    intro w e w' ⟨homes, interned⟩ stepped safe
    exact ⟨homes_step homes interned stepped, interned_step homes interned stepped safe⟩
  exact Transition.always_mono (fun _ inv => inv.2) both

/-- A flow whose user agent nobody else has sent is banned. -/
theorem always_interned_ban :
    Transition.Always step Interned (start (fun _ => 1) (some 0))
      [.openFlow ⟨.flow 0, 0⟩ 0, .packet ⟨.flow 0, 0⟩ [(.ua, [65])], .ban ⟨.flow 0, 0⟩] := by
  refine always_interned _ _ _ ?_
  refine Transition.along_cons rfl trivial (Transition.along_cons rfl trivial
    (Transition.along_cons rfl ?_ trivial))
  intro i locked _ x t released
  obtain rfl := Option.some.inj (locked.symm.trans (rfl : _ = some (⟨.info .http, 0⟩ : Obj)))
  cases x with
  | ua =>
    obtain rfl := Option.some.inj
      (released.symm.trans (rfl : _ = some (⟨.string .http .ua, 0⟩ : Obj)))
    rw [if_pos (Or.inl rfl)]
    constructor
    · intro e found
      obtain rfl := Option.some.inj (found.symm.trans rfl)
      decide
    · intro b member j living other
      obtain rfl := List.mem_singleton.mp member
      exact absurd (Option.some.inj (living.symm.trans rfl)) other
  | _ => exact absurd (released.symm.trans (rfl : _ = (none : Option Obj))) (by simp)

/-- Two flows send one user agent and the first of them is banned: its string is free, and the map
and the second flow still refer to it. -/
theorem not_always_interned :
    ¬∀ es, Transition.Always step Interned (start (fun _ => 2) (some 0)) es := by
  intro h
  have interned := Transition.always_final
    (h [.openFlow ⟨.flow 0, 0⟩ 0, .openFlow ⟨.flow 0, 1⟩ 0, .packet ⟨.flow 0, 0⟩ [(.ua, [65])],
      .packet ⟨.flow 0, 1⟩ [(.ua, [65])], .ban ⟨.flow 0, 0⟩]) rfl
  have mapped := interned.mapped .ua
  revert mapped
  decide

end AIEngine.Http
