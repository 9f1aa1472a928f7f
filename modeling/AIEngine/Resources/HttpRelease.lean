import AIEngine.Resources.Spec

/-!
# What `release_http_info` does to the string caches

Each of the three caches keeps its slots or receives the string of the info; nothing else changes
but the pointers of the info. A ban and `releaseCache` both rest on this.
-/

namespace AIEngine.World

/-- The string cache of HTTP for a field. -/
def httpStrings (w : World) (x : StringField) : Cache := w.cache (.string .http x)

/-- The string behind the pointer of an info went to its own cache, or there was none. -/
def Returned (w w' : World) (i : Obj) (x : StringField) : Prop :=
  w'.httpStrings x = w.httpStrings x ∨
    ∃ t, w.lockString .http ((w.infos i).strings x) = some t ∧
      w'.httpStrings x = (w.httpStrings x).release (some t)

/-- What a release of strings leaves alone. -/
structure KeepsRest (w w' : World) : Prop where
  infoCaches : ∀ p, w'.cache (.info p) = w.cache (.info p)
  maps : w'.maps = w.maps
  names : w'.names = w.names
  flows : w'.flows = w.flows
  table : w'.table = w.table
  disordered : w'.disordered = w.disordered
  alive : ∀ t, w'.StringAlive .http t → w.StringAlive .http t

theorem keepsRest_trans {w₁ w₂ w₃ : World} (first : KeepsRest w₁ w₂) (second : KeepsRest w₂ w₃) :
    KeepsRest w₁ w₃ :=
  ⟨fun p => (second.infoCaches p).trans (first.infoCaches p), second.maps.trans first.maps,
    second.names.trans first.names, second.flows.trans first.flows,
    second.table.trans first.table, second.disordered.trans first.disordered,
    fun t living => first.alive t (second.alive t living)⟩

/-- Releasing one string without resetting the pointer, the way HTTP does. -/
theorem releaseString_spec (w : World) (x : StringField) (i : Obj) :
    KeepsRest w (w.releaseString .http x x false i) ∧
      (w.releaseString .http x x false i).infos = w.infos ∧
      Returned w (w.releaseString .http x x false i) i x ∧
      ∀ y, y ≠ x → (w.releaseString .http x x false i).httpStrings y = w.httpStrings y := by
  unfold releaseString
  split
  · exact ⟨⟨fun _ => rfl, rfl, rfl, rfl, rfl, rfl, fun _ => id⟩, rfl, Or.inl rfl, fun _ _ => rfl⟩
  · rename_i t locked
    obtain ⟨-, living⟩ := lockString_some locked
    simp only [Bool.false_eq_true, ↓reduceIte]
    refine ⟨⟨fun p => ?_, setCache_maps .., setCache_names .., setCache_flows .., setCache_table ..,
      setCache_disordered .., fun s after => releaseTo_alive living after⟩, setCache_infos .., Or.inr ⟨t, locked, ?_⟩,
      fun y different => ?_⟩
    · exact cache_setCache_other (by simp)
    · exact cache_setCache_same ..
    · exact cache_setCache_other (by simp [different])

/-- A string that is locked later was locked before, as long as the pointer is the same. -/
theorem lockString_back {w w' : World} {q : Option Obj} {t : Obj} (rest : KeepsRest w w')
    (locked : w'.lockString .http q = some t) : w.lockString .http q = some t := by
  obtain ⟨rfl, living⟩ := lockString_some locked
  exact lockString_of_alive (rest.alive t living)

theorem releaseHttpInfo_spec (w : World) (i : Obj) :
    KeepsRest w (Http.releaseHttpInfo w i) ∧
      (Http.releaseHttpInfo w i).infos =
        (w.setInfo i { w.infos i with strings := fun _ => none }).infos ∧
      ∀ x, Returned w (Http.releaseHttpInfo w i) i x := by
  obtain ⟨rest₁, infos₁, host, other₁⟩ := releaseString_spec w .host i
  generalize given₁ : w.releaseString .http .host .host false i = w₁ at *
  obtain ⟨rest₂, infos₂, ua, other₂⟩ := releaseString_spec w₁ .ua i
  generalize given₂ : w₁.releaseString .http .ua .ua false i = w₂ at *
  obtain ⟨rest₃, infos₃, uri, other₃⟩ := releaseString_spec w₂ .uri i
  generalize given₃ : w₂.releaseString .http .uri .uri false i = w₃ at *
  have whole : Http.releaseHttpInfo w i = w₃.resetStrings i := by
    simp only [Http.releaseHttpInfo, given₁, given₂, given₃]
  have rest := keepsRest_trans (keepsRest_trans rest₁ rest₂) rest₃
  have infos : w₃.infos = w.infos := infos₃.trans (infos₂.trans infos₁)
  rw [whole]
  refine ⟨⟨rest.infoCaches, rest.maps, rest.names, rest.flows, rest.table, rest.disordered,
    rest.alive⟩, ?_, ?_⟩
  · funext j
    simp only [resetStrings, setInfo, infos]
  · intro x
    by_cases isHost : x = .host
    · subst isHost
      have kept : w₃.httpStrings .host = w₁.httpStrings .host :=
        (other₃ _ (by simp)).trans (other₂ _ (by simp))
      rcases host with same | ⟨t, locked, given⟩
      · exact Or.inl (kept.trans same)
      · exact Or.inr ⟨t, locked, kept.trans given⟩
    · by_cases isUa : x = .ua
      · subst isUa
        have before : w₁.httpStrings .ua = w.httpStrings .ua := other₁ _ (by simp)
        have kept : w₃.httpStrings .ua = w₂.httpStrings .ua := other₃ _ (by simp)
        rcases ua with same | ⟨t, locked, given⟩
        · exact Or.inl (kept.trans (same.trans before))
        · rw [infos₁] at locked
          rw [before] at given
          exact Or.inr ⟨t, lockString_back rest₁ locked, kept.trans given⟩
      · by_cases isUri : x = .uri
        · subst isUri
          have before : w₂.httpStrings .uri = w.httpStrings .uri :=
            (other₂ _ (by simp)).trans (other₁ _ (by simp))
          rcases uri with same | ⟨t, locked, given⟩
          · exact Or.inl (same.trans before)
          · rw [infos₂, infos₁] at locked
            rw [before] at given
            exact Or.inr ⟨t, lockString_back (keepsRest_trans rest₁ rest₂) locked, given⟩
        · exact Or.inl ((other₃ x isUri).trans ((other₂ x isUa).trans (other₁ x isHost)))

end AIEngine.World
