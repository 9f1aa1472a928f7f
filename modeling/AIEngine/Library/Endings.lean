/-!
# How a computation ends

Rules of pre- and postconditions for computations that return a value or fail with an error. The
values have to satisfy `Q` and the errors `E`: a function that may fail in some ways only has a
rule like any other.
-/

namespace Ending

universe u v

variable {ε : Type v} {α β : Type u} {E E' : ε → Prop} {Q Q' : α → Prop} {r : Except ε α}

/-- A value that `r` returns has `Q`, an error it fails with has `E`. -/
def Ends (E : ε → Prop) (Q : α → Prop) : Except ε α → Prop
  | .ok a => Q a
  | .error e => E e

theorem ends_value {a : α} (h : Ends E Q r) (returned : r = .ok a) : Q a := by
  rw [returned] at h
  exact h

theorem ends_error {e : ε} (h : Ends E Q r) (failed : r = .error e) : E e := by
  rw [failed] at h
  exact h

theorem ends_mono (h : Ends E Q r) (values : ∀ a, Q a → Q' a) (errors : ∀ e, E e → E' e) :
    Ends E' Q' r := by
  cases r with
  | ok a => exact values a h
  | error e => exact errors e h

theorem ends_weaken (h : Ends E Q r) (values : ∀ a, Q a → Q' a) : Ends E Q' r :=
  ends_mono h values fun _ allowed => allowed

/-- What a sequence returns, its parts have returned. -/
theorem bind_ok {f : α → Except ε β} {b : β} (h : (r >>= f) = .ok b) :
    ∃ a, r = .ok a ∧ f a = .ok b := by
  cases r with
  | error e => exact absurd h (by simp [bind, Except.bind])
  | ok a => exact ⟨a, rfl, h⟩

/-- A sequence goes on alike, when it does so with what the first part returns. -/
theorem bind_congr_ok {f g : α → Except ε β} (same : ∀ a, r = .ok a → f a = g a) :
    (r >>= f) = (r >>= g) := by
  cases r with
  | error e => rfl
  | ok a => exact same a rfl

/-- The rule of sequence; what comes next knows what has been returned. -/
theorem ends_bind_ok {R : β → Prop} {f : α → Except ε β} (first : Ends E Q r)
    (next : ∀ a, r = .ok a → Q a → Ends E R (f a)) : Ends E R (r >>= f) := by
  cases r with
  | ok a => exact next a rfl first
  | error e => exact first

theorem ends_bind {R : β → Prop} {f : α → Except ε β} (first : Ends E Q r)
    (next : ∀ a, Q a → Ends E R (f a)) : Ends E R (r >>= f) :=
  ends_bind_ok first fun a _ => next a

end Ending
