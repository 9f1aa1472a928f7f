import AIEngine.Applications.Engine
import AIEngine.Applications.HttpHomes

/-!
# Runs of the engine

What one step does to the world, and what every run keeps: the pools have no empty slot, no two live
flows share an info, and the strings of HTTP stay with their cache.
-/

namespace AIEngine.Engine

open World

/-- What a step of the engine does to the world. -/
inductive Moved (w w' : World) : Prop where
  | openTcp (a : Obj) (layer : Nat) (fresh : a ∉ w.table) (opened : w.openTcpFlow a layer = .ok w')
  | openUdp (a : Obj) (fresh : a ∉ w.table) (opened : w' = w.openFlow a ipprotoUdp)
  | marked (a : Obj) (f : Flow) (pointers : ∀ q, f.info q = (w.flows a).info q)
      (written : w' = w.setFlow a f)
  | packet (p : L7Protocol) (a : Obj) (grew : Prop) (live : a ∈ w.table)
      (handled : Handled p a grew w w')
  | payload (a : Obj) (layer : Nat) (q : FrequencyProtocol) (f : Flow)
      (kept : FrequencyProtocol.Keeps (w.flows a) q f)
      (written : w' = (w.setFrequency layer q).setFlow a f)
  | ended (a : Obj) (live : a ∈ w.table) (released : w' = w.endFlow a)
  | overwritten (sight : Nat → MapEntry → Bytes) (written : w' = w.overwrite sight)
  | same (unchanged : w' = w)

variable {e t : Engine} {event : Event}

theorem setDomains_world (e : Engine) (ban domains : Option (Bytes → Bool)) (p : L7Protocol) :
    (e.setDomains ban domains p).world = e.world := by cases p <;> rfl

theorem frequency_ok {w w' : World} {a : Obj} {layer : Nat} {payload : Payload}
    (filled : w.Filled) (h : w.runApplication a (.frequency layer payload) = .ok w') :
    ∃ q f, FrequencyProtocol.Keeps (w.flows a) q f ∧ w' = (w.setFrequency layer q).setFlow a f := by
  simp only [runApplication] at h
  rcases FrequencyProtocol.processFlow_cases (w.flows a) payload
    (filled_frequency filled layer) with ⟨-, failed⟩ | ⟨-, q, f, processed, kept, -⟩
  · rw [failed] at h
    exact absurd h (by simp)
  · rw [processed] at h
    exact ⟨q, f, kept, (Except.ok.inj h).symm⟩

theorem step_moved (filled : e.world.Filled) (h : e.step event = some t) :
    Moved e.world t.world := by
  cases event with
  | openTcp a layer =>
    simp only [step] at h
    split at h
    · exact absurd h (by simp)
    · rename_i fresh
      obtain ⟨w, opened, rfl⟩ := Option.map_eq_some_iff.mp h
      exact .openTcp a layer fresh (toOption_some opened)
  | openUdp a =>
    simp only [step] at h
    split at h
    · exact absurd h (by simp)
    · rename_i fresh
      obtain rfl := Option.some.inj h
      exact .openUdp a fresh rfl
  | transport a =>
    simp only [step] at h
    split at h
    · obtain rfl := Option.some.inj h
      refine .marked a _ (fun q => ?_) rfl
      cases q <;> rfl
    · exact absurd h (by simp)
  | packet p a packet =>
    simp only [step] at h
    split at h
    · rename_i live
      exact .packet p a _ live (processFlow_handled filled (toOption_some h))
    · exact absurd h (by simp)
  | frequency layer a payload =>
    simp only [step] at h
    split at h
    · obtain ⟨w, ran, rfl⟩ := Option.map_eq_some_iff.mp h
      obtain ⟨q, f, kept, written⟩ := frequency_ok filled (toOption_some ran)
      exact .payload a layer q f kept written
    · exact absurd h (by simp)
  | endFlow a =>
    simp only [step] at h
    split at h
    · rename_i live
      obtain rfl := Option.some.inj h
      exact .ended a live rfl
    · exact absurd h (by simp)
  | managers p ban domains =>
    obtain rfl := Option.some.inj h
    exact .same (setDomains_world e ban domains p)
  | httpManagers ban domains domainName =>
    obtain rfl := Option.some.inj h
    exact .same rfl
  | memory sight =>
    obtain rfl := Option.some.inj h
    exact .overwritten sight rfl

theorem pooled_moved {w w' : World} (pooled : w.Pooled) (moved : Moved w w') : w'.Pooled := by
  cases moved with
  | openTcp a layer fresh opened => exact pooled_openTcpFlow pooled fresh opened
  | openUdp a fresh opened =>
    rw [opened]
    exact pooled_openUdpFlow pooled fresh
  | marked a f pointers written =>
    rw [written]
    exact pooled_setFlow pooled pointers
  | packet p a grew live handled => exact handled_pooled pooled handled
  | payload a layer q f kept written =>
    rw [written]
    exact pooled_frequency pooled kept.stocked kept.infos
  | ended a live released =>
    rw [released]
    exact pooled_endFlow pooled live
  | overwritten sight written =>
    rw [written]
    exact pooled_overwrite pooled sight
  | same unchanged =>
    rw [unchanged]
    exact pooled

theorem httpHomed_moved {w w' : World} (pooled : w.Pooled) (homed : w.HttpHomed)
    (moved : Moved w w') : w'.HttpHomed := by
  cases moved with
  | openTcp a layer fresh opened => exact httpHomed_openTcpFlow homed opened
  | openUdp a fresh opened =>
    rw [opened]
    exact httpHomed_same homed (fun _ _ => id) (fun _ => rfl) fun _ _ _ _ => id
  | marked a f pointers written =>
    rw [written]
    exact httpHomed_same homed (fun _ _ => id) (fun _ => rfl) fun _ _ _ _ => id
  | packet p a grew live handled => exact httpHomed_handled pooled live homed handled
  | payload a layer q f kept written =>
    rw [written]
    exact httpHomed_same homed (fun _ _ => id) (fun _ => rfl) fun _ _ _ _ => id
  | ended a live released =>
    rw [released]
    exact httpHomed_endFlow homed
  | overwritten sight written =>
    rw [written]
    exact httpHomed_overwrite homed sight
  | same unchanged =>
    rw [unchanged]
    exact homed

theorem pooled_step (pooled : e.world.Pooled) (h : e.step event = some t) : t.world.Pooled :=
  pooled_moved pooled (step_moved pooled.filled h)

/-- What is known of the world in every run. -/
structure Sound (e : Engine) : Prop where
  pooled : e.world.Pooled
  homed : e.world.HttpHomed

theorem sound_step (sound : Sound e) (h : e.step event = some t) : Sound t := by
  have moved := step_moved sound.pooled.filled h
  exact ⟨pooled_moved sound.pooled moved, httpHomed_moved sound.pooled sound.homed moved⟩

theorem always_sound (objects : CacheId → Nat) (layer : Option Nat) (expressions : SIPExpressions)
    (events : List Event) :
    Transition.Always step Sound (start objects layer expressions) events := by
  refine Transition.always_of_inv (fun _ _ _ => sound_step) ⟨?_, ?_⟩
  · exact pooled_start objects layer
  · exact httpHomed_start objects layer

end AIEngine.Engine
