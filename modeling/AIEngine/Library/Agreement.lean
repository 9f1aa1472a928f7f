import AIEngine.Library.Endings

/-!
# Two computations side by side

Rules for two runs of a program, or of two programs, that may fail: they agree when both return, with
related values, or both fail with the same error. Steps that agree make up sequences that agree.
-/

namespace Agreement

universe u v

variable {ε : Type v} {α α' β β' : Type u} {R R' : α → α' → Prop} {S : β → β' → Prop}

def Agree (R : α → α' → Prop) : Except ε α → Except ε α' → Prop
  | .ok a, .ok b => R a b
  | .error e, .error f => e = f
  | _, _ => False

theorem agree_refl (r : Except ε α) : Agree (fun a b => a = b) r r := by
  cases r <;> exact rfl

/-- The rule of sequence. -/
theorem agree_bind {r : Except ε α} {r' : Except ε α'} {f : α → Except ε β} {g : α' → Except ε β'}
    (first : Agree R r r') (next : ∀ a b, R a b → Agree S (f a) (g b)) :
    Agree S (r >>= f) (r' >>= g) := by
  cases r <;> cases r'
  case ok.ok a b => exact next a b first
  case error.error e f => exact first
  all_goals exact absurd first id

/-- The same value on both sides. -/
theorem agree_bind_same {r : Except ε α} {f : α → Except ε β} {g : α → Except ε β'}
    (next : ∀ a, Agree S (f a) (g a)) : Agree S (r >>= f) (r >>= g) :=
  agree_bind (agree_refl r) fun a _ same => same ▸ next a

theorem agree_toOption {r : Except ε α} {r' : Except ε α'} (agree : Agree R r r') :
    Option.Rel R r.toOption r'.toOption := by
  cases r <;> cases r'
  case ok.ok a b => exact .some agree
  case error.error e f => exact .none
  all_goals exact absurd agree id

/-- Related results that look the same. -/
theorem agree_map_eq {r : Except ε α} {r' : Except ε α'} {f : α → β} {g : α' → β} (agree : Agree R r r')
    (same : ∀ a b, R a b → f a = g b) : r.map f = r'.map g := by
  cases r <;> cases r'
  case ok.ok a b => exact congrArg Except.ok (same a b agree)
  case error.error e f => exact congrArg Except.error agree
  all_goals exact absurd agree id

end Agreement
