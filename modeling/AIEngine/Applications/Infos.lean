import AIEngine.Applications.Works

/-!
# The info that a packet works on

It is the one that the flow has, or a new one, when the pool has any.
-/

namespace AIEngine

theorem World.acquire_of_total {c : Cache} (stocked : c.Stocked) (room : 0 < c.total) :
    ∃ o c', c.acquire = .ok (some o, c') := by
  obtain ⟨r, c', acquired, -⟩ := Cache.stocked_acquire stocked
  cases r with
  | some o => exact ⟨o, c', acquired⟩
  | none =>
    obtain ⟨zero, -⟩ := Cache.acquire_none acquired
    omega

namespace Inspector

open World

variable {ι κ : Type} {s t : Inspector ι κ} {p : L7Protocol} {new : ι} {a i : Obj}

/-- The flow has an info or can get one. -/
def Informs (p : L7Protocol) (s : Inspector ι κ) (a : Obj) : Prop :=
  s.world.lockInfo p (s.world.flows a) = none → 0 < (s.world.cache (.info p)).total

instance (s : Inspector ι κ) (a : Obj) : Decidable (Informs p s a) :=
  inferInstanceAs (Decidable (_ → _))

structure Takes (p : L7Protocol) (new : ι) (a i : Obj) (s t : Inspector ι κ) : Prop where
  attached : s.world.attachInfo p a = .ok (some i, t.world)
  held : ∀ j, s.world.lockInfo p (s.world.flows a) = some j → j = i ∧ t = s
  fresh : s.world.lockInfo p (s.world.flows a) = none → t.world.infos i = {} ∧ t.infos i = new
  packets : (t.world.flows a).totalPacketsL7 = (s.world.flows a).totalPacketsL7
  strings : ∀ x, t.world.cache (.string p x) = s.world.cache (.string p x)
  maps : t.world.maps = s.world.maps
  bans : t.banDomains = s.banDomains
  domains : t.domains = s.domains

theorem attachInfo_takes (new : ι) (filled : s.world.Filled) (informs : Informs p s a) :
    ∃ i t, s.attachInfo p new a = .ok (some i, t) ∧ Takes p new a i s t := by
  cases locked : s.world.lockInfo p (s.world.flows a) with
  | some i =>
    have attached : s.world.attachInfo p a = .ok (some i, s.world) := by
      unfold World.attachInfo
      rw [locked]
    have same : s.attachInfo p new a = .ok (some i, s) := by
      unfold Inspector.attachInfo
      rw [attached]
      exact if_pos (by rw [locked]; rfl)
    refine ⟨i, s, same, attached, fun j held => ?_, fun expired => ?_, rfl, fun _ => rfl, rfl, rfl,
      rfl⟩
    · rw [locked] at held
      exact ⟨(Option.some.inj held).symm, rfl⟩
    · rw [locked] at expired
      exact absurd expired (by simp)
  | none =>
    obtain ⟨i, c, acquired⟩ := acquire_of_total (filled (.info p)) (informs locked)
    have attached : s.world.attachInfo p a = .ok (some i, ((s.world.setCache (.info p) c).setInfo i
        {}).setFlow a ((s.world.flows a).setInfo p (some i))) := by
      unfold World.attachInfo
      rw [locked]
      simp only [acquired]
    unfold Inspector.attachInfo
    rw [attached]
    refine ⟨i, _, if_neg (by rw [locked]; simp), attached, fun j held => ?_, fun _ => ?_, ?_,
      fun x => ?_, ?_, rfl, rfl⟩
    · rw [locked] at held
      exact absurd held (by simp)
    · simp [Inspector.setInfo, setFlow, World.setInfo]
    · cases p <;> simp [Inspector.setInfo, setFlow] <;> rfl
    · change (s.world.setCache (.info p) c).cache (.string p x) = _
      exact cache_setCache_other (by simp)
    · simp [Inspector.setInfo, setFlow, World.setInfo]

theorem attachInfo_misses (new : ι) (misses : ¬Informs p s a) :
    ∃ w, s.attachInfo p new a = .ok (none, { s with world := w }) ∧
      w.lockInfo p (w.flows a) = none := by
  obtain ⟨expired, empty⟩ := Classical.not_imp.mp misses
  have failed : (s.world.cache (.info p)).acquire = .ok (none, { s.world.cache (.info p) with
      totalFails := (s.world.cache (.info p)).totalFails + 1 }) := if_neg empty
  have attached : s.world.attachInfo p a = .ok (none, s.world.setCache (.info p)
      { s.world.cache (.info p) with
        totalFails := (s.world.cache (.info p)).totalFails + 1 }) := by
    unfold World.attachInfo
    rw [expired]
    simp only [failed]
  unfold Inspector.attachInfo
  rw [attached]
  refine ⟨_, rfl, ?_⟩
  unfold lockInfo
  rw [cache_setCache_same]
  exact expired

end Inspector

end AIEngine
