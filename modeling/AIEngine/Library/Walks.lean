import Mathlib.Data.List.Basic
import Mathlib.Logic.Relation

/-!
# Walks along links

From each place at most one link leads on. A walk ends where none does; with finitely many links it ends
unless it comes to a cycle, and then it has met no place twice.
-/

namespace Walks

variable {α : Type*} (next : α → Option α)

def Link (a b : α) : Prop := next a = some b

/-- The places from one on, if they come to an end in so many turns. -/
def walk : Nat → α → Option (List α)
  | 0, _ => none
  | turns + 1, a =>
    match next a with
    | none => some [a]
    | some b => (walk turns b).map (a :: ·)

variable {next}

theorem walk_cases {turns : Nat} {a : α} {path : List α} (h : walk next (turns + 1) a = some path) :
    (next a = none ∧ path = [a]) ∨
      ∃ b rest, next a = some b ∧ walk next turns b = some rest ∧ path = a :: rest := by
  unfold walk at h
  split at h
  · rename_i last
    exact Or.inl ⟨last, (Option.some.inj h).symm⟩
  · rename_i b link
    obtain ⟨rest, walked, same⟩ := Option.map_eq_some_iff.mp h
    exact Or.inr ⟨b, rest, link, walked, same.symm⟩

theorem walk_reaches {turns : Nat} {a : α} {path : List α} (h : walk next turns a = some path) :
    ∀ x ∈ path, Relation.ReflTransGen (Link next) a x := by
  induction turns generalizing a path with
  | zero => cases h
  | succ turns ih =>
    intro x member
    rcases walk_cases h with ⟨-, rfl⟩ | ⟨b, rest, link, walked, rfl⟩
    · obtain rfl := List.mem_singleton.mp member
      exact .refl
    · rcases List.mem_cons.mp member with rfl | later
      · exact .refl
      · exact .head link (ih walked x later)

/-- The walk from a place on a cycle does not end. -/
theorem walk_acyclic {turns : Nat} {a : α} {path : List α} (h : walk next turns a = some path) :
    ¬Relation.TransGen (Link next) a a := by
  induction turns generalizing a path with
  | zero => cases h
  | succ turns ih =>
    intro cycle
    obtain ⟨c, first, back⟩ := Relation.TransGen.head'_iff.mp cycle
    rcases walk_cases h with ⟨last, -⟩ | ⟨b, rest, link, walked, -⟩
    · exact absurd (last.symm.trans first) (by simp)
    · obtain rfl := Option.some.inj (link.symm.trans first)
      exact ih walked (.tail' back first)

theorem walk_nodup {turns : Nat} {a : α} {path : List α} (h : walk next turns a = some path) :
    path.Nodup := by
  induction turns generalizing a path with
  | zero => cases h
  | succ turns ih =>
    rcases walk_cases h with ⟨-, rfl⟩ | ⟨b, rest, link, walked, rfl⟩
    · simp
    · refine List.nodup_cons.mpr ⟨fun again => ?_, ih walked⟩
      exact walk_acyclic h (.head' link (walk_reaches walked a again))

theorem walk_from {turns : Nat} {a x : α} {path : List α} (h : walk next turns a = some path)
    (there : Relation.ReflTransGen (Link next) a x) :
    ∃ turns rest, walk next turns x = some rest := by
  induction there using Relation.ReflTransGen.head_induction_on generalizing turns path with
  | refl => exact ⟨turns, path, h⟩
  | head link _ ih =>
    cases turns with
    | zero => cases h
    | succ turns =>
      rcases walk_cases h with ⟨last, -⟩ | ⟨b, rest, same, walked, -⟩
      · exact absurd (last.symm.trans link) (by simp)
      · obtain rfl := Option.some.inj (same.symm.trans link)
        exact ih walked

/-- Every link that is taken is one less to take. -/
theorem walk_ends {n : Nat} {a : α} (links : List α) (few : links.length ≤ n)
    (listed : ∀ x, Relation.ReflTransGen (Link next) a x → (next x).isSome = true → x ∈ links)
    (acyclic : ∀ x, Relation.ReflTransGen (Link next) a x → ¬Relation.TransGen (Link next) x x) :
    ∃ turns path, walk next turns a = some path := by
  classical
  induction n generalizing a links with
  | zero =>
    obtain rfl := List.length_eq_zero_iff.mp (Nat.le_zero.mp few)
    cases link : next a with
    | none => exact ⟨1, [a], by simp [walk, link]⟩
    | some b => exact absurd (listed a .refl (by simp [link])) (by simp)
  | succ n ih =>
    cases link : next a with
    | none => exact ⟨1, [a], by simp [walk, link]⟩
    | some b =>
      have member := listed a .refl (by simp [link])
      have fewer : (links.filter fun x => decide (x ≠ a)).length < links.length :=
        List.length_filter_lt_length_iff_exists.mpr ⟨a, member, by simp⟩
      obtain ⟨turns, path, walked⟩ := ih (a := b) (links.filter fun x => decide (x ≠ a)) (by omega)
        (fun x there leads => by
          refine List.mem_filter.mpr ⟨listed x (.head link there) leads, ?_⟩
          -- a walk that came back to its first place would be a cycle
          have other : x ≠ a := by
            rintro rfl
            exact acyclic x .refl (.head' link there)
          simpa using other)
        (fun x there => acyclic x (.head link there))
      exact ⟨turns + 1, a :: path, by simp [walk, link, walked]⟩

theorem walk_ends_iff (links : List α) (listed : ∀ x, (next x).isSome = true → x ∈ links) (a : α) :
    (∃ turns path, walk next turns a = some path) ↔
      ∀ x, Relation.ReflTransGen (Link next) a x → ¬Relation.TransGen (Link next) x x := by
  constructor
  · rintro ⟨turns, path, walked⟩ x there
    obtain ⟨turns', rest, walked'⟩ := walk_from walked there
    exact walk_acyclic walked'
  · exact walk_ends links (Nat.le_refl _) fun x _ => listed x

end Walks
