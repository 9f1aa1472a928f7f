import AIEngine.Library.Transition
import Mathlib.Data.Multiset.AddSub

/-!
# A register of records

A client inserts the keys of its records, updates records and removes them. The register refuses to touch a
record that is not there; a strict one also refuses to insert a key that is there.
-/

namespace Register

inductive Request (κ : Type*) where
  | insert (key : κ)
  | update (key : κ)
  | remove (key : κ)
  deriving DecidableEq, Repr

variable {κ : Type*} [DecidableEq κ]

def answer (records : Multiset κ) : Request κ → Option (Multiset κ)
  | .insert key => some (key ::ₘ records)
  | .update key => if key ∈ records then some records else none
  | .remove key => if key ∈ records then some (records.erase key) else none

/-- The records behind some requests, if none of them is refused. -/
def serve (records : Multiset κ) (requests : List (Request κ)) : Option (Multiset κ) :=
  Transition.run answer records requests

theorem serve_append {records records' : Multiset κ} {first second : List (Request κ)}
    (served : serve records first = some records') :
    serve records (first ++ second) = serve records' second := by
  unfold serve at served ⊢
  rw [Transition.run_append, served]
  rfl

theorem serve_update {records : Multiset κ} {key : κ} (member : key ∈ records) :
    serve records [.update key] = some records := by
  unfold serve
  rw [Transition.run_cons]
  simp only [answer, if_pos member]
  rfl

theorem serve_remove {records : Multiset κ} {key : κ} (member : key ∈ records) :
    serve records [.remove key] = some (records.erase key) := by
  unfold serve
  rw [Transition.run_cons]
  simp only [answer, if_pos member]
  rfl

/-! ### The strict register -/

def answerStrict (records : Multiset κ) : Request κ → Option (Multiset κ)
  | .insert key => if key ∈ records then none else answer records (.insert key)
  | request => answer records request

def serveStrict (records : Multiset κ) (requests : List (Request κ)) : Option (Multiset κ) :=
  Transition.run answerStrict records requests

/-- Without an insert the two do the same. -/
theorem serveStrict_of_no_insert {requests : List (Request κ)} (none : ∀ key, Request.insert key ∉ requests)
    (records : Multiset κ) : serveStrict records requests = serve records requests := by
  induction requests generalizing records with
  | nil => rfl
  | cons request rest ih =>
    have later (key : κ) : Request.insert key ∉ rest := fun member => none key (List.mem_cons_of_mem _ member)
    have first : answerStrict records request = answer records request := by
      cases request with
      | insert key => exact absurd List.mem_cons_self (none key)
      | update key | remove key => rfl
    unfold serveStrict serve at ih ⊢
    rw [Transition.run_cons, Transition.run_cons, first]
    exact congrArg _ (funext fun records => ih later records)

/-- An insert in front is taken if its key is not there. -/
theorem serveStrict_insert {requests : List (Request κ)} {key : κ} (none : ∀ key, Request.insert key ∉ requests)
    (records : Multiset κ) :
    serveStrict records (.insert key :: requests) =
      if key ∈ records then .none else serve records (.insert key :: requests) := by
  have first : answerStrict records (.insert key) = if key ∈ records then .none else answer records (.insert key) := rfl
  unfold serveStrict serve
  rw [Transition.run_cons, Transition.run_cons, first]
  by_cases there : key ∈ records
  · rw [if_pos there, if_pos there]
    rfl
  · rw [if_neg there, if_neg there]
    exact serveStrict_of_no_insert none (key ::ₘ records)

/-- Records are removed one after another. -/
theorem serve_removes (gone left : List κ) :
    serve (gone ++ left : List κ) (gone.map .remove) = some (left : Multiset κ) := by
  induction gone with
  | nil => rfl
  | cons key rest ih =>
    have first : serve ((key :: rest ++ left : List κ) : Multiset κ) [.remove key] =
        some ((rest ++ left : List κ) : Multiset κ) := by
      rw [serve_remove (by simp)]
      simp
    have rest := (serve_append first).trans ih
    exact rest

end Register
