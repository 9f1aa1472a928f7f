import Mathlib.Data.List.Perm.Basic
import Mathlib.Data.List.TakeWhile
import Mathlib.Order.Lattice

/-!
# An ordered index whose keys may change in place

A list that a search tree keeps in the order of a key. When the key of an element is written without
telling the tree, the list is out of order, and a later search ends wherever its comparisons lead:
at some place whose two neighbours are in order with the new element.
-/

namespace OrderedIndex

variable {α κ : Type*} [LinearOrder κ] (key : α → κ)

/-- A search for `k` may end before the `i`-th element: equal keys go behind the ones there. -/
def Fits (xs : List α) (i : Nat) (k : κ) : Prop :=
  i ≤ xs.length ∧ (∀ x ∈ (xs.take i).getLast?, key x ≤ k) ∧ ∀ y ∈ xs[i]?, k < key y

instance (xs : List α) (i : Nat) (k : κ) : Decidable (Fits key xs i k) := by
  unfold Fits
  infer_instance

/-- The shape of the tree decides among the places that fit; `hint` stands for its choice. -/
def place (xs : List α) (hint : Nat) (k : κ) : Nat :=
  if Fits key xs hint k then hint else xs.findIdx fun y => decide (k < key y)

def insert (xs : List α) (hint : Nat) (a : α) : List α :=
  let i := place key xs hint (key a)
  xs.take i ++ a :: xs.drop i

variable [DecidableEq α]

/-- The neighbours of an element whose key has changed are still in order with it. -/
def InPlace (xs : List α) (a : α) : Prop :=
  (∀ x ∈ (xs.take (xs.idxOf a)).getLast?, key x ≤ key a) ∧
    ∀ y ∈ xs[xs.idxOf a + 1]?, key a ≤ key y

instance (xs : List α) (a : α) : Decidable (InPlace key xs a) := by
  unfold InPlace
  infer_instance

/-- After a change of its key an element stays, or it is taken out and inserted again. -/
def modify (xs : List α) (hint : Nat) (a : α) : List α :=
  if InPlace key xs a then xs else insert key (xs.erase a) hint a

/-- No element with `p` stands behind one without it. -/
def Ahead (p : α → Prop) (xs : List α) : Prop := xs.Pairwise fun x y => p y → p x

instance (p : α → Prop) [DecidablePred p] (xs : List α) : Decidable (Ahead p xs) := by
  unfold Ahead
  infer_instance

variable {key}

omit [DecidableEq α] in
theorem place_fits (xs : List α) (hint : Nat) (k : κ) : Fits key xs (place key xs hint k) k := by
  unfold place
  split
  · assumption
  · refine ⟨List.findIdx_le_length, ?_, ?_⟩
    · intro x last
      have member := List.mem_of_getLast? (Option.mem_def.mp last)
      obtain ⟨j, bound, rfl⟩ := List.mem_take_iff_getElem.mp member
      have before : j < xs.findIdx fun y => decide (k < key y) := by omega
      have smaller := List.not_of_lt_findIdx before
      simpa using smaller
    · intro y found
      obtain ⟨bound, rfl⟩ := List.getElem?_eq_some_iff.mp (Option.mem_def.mp found)
      have larger := List.findIdx_getElem (w := bound)
      simpa using larger

omit [DecidableEq α] in
theorem insert_perm (xs : List α) (hint : Nat) (a : α) : (insert key xs hint a).Perm (a :: xs) := by
  unfold insert
  refine List.perm_middle.trans ?_
  rw [List.take_append_drop]

omit [DecidableEq α] in
theorem mem_insert {xs : List α} {hint : Nat} {a b : α} :
    b ∈ insert key xs hint a ↔ b = a ∨ b ∈ xs := by
  rw [(insert_perm xs hint a).mem_iff, List.mem_cons]

theorem modify_perm {xs : List α} {a : α} (hint : Nat) (member : a ∈ xs) :
    (modify key xs hint a).Perm xs := by
  unfold modify
  split
  · exact List.Perm.refl xs
  · exact (insert_perm _ hint a).trans (List.perm_cons_erase member).symm

/-! ### Walking from the front while `p` holds -/

omit [DecidableEq α] in
/-- A walk that stops at the first element without `p` has met them all exactly when none stands
behind one without it. -/
theorem dropWhile_none_iff (p : α → Prop) [DecidablePred p] (xs : List α) :
    (∀ x ∈ xs.dropWhile fun x => decide (p x), ¬p x) ↔ Ahead p xs := by
  unfold Ahead
  induction xs with
  | nil => simp
  | cons x rest ih =>
    rw [List.pairwise_cons]
    by_cases holds : p x
    · rw [List.dropWhile_cons_of_pos (by simpa using holds), ih]
      exact ⟨fun ahead => ⟨fun _ _ _ => holds, ahead⟩, fun both => both.2⟩
    · rw [List.dropWhile_cons_of_neg (by simpa using holds)]
      constructor
      · intro none
        have behind : ∀ y ∈ rest, ¬p y := fun y member => none y (List.mem_cons_of_mem x member)
        refine ⟨fun y member met => absurd met (behind y member), ?_⟩
        exact List.Pairwise.imp_of_mem (fun _ second _ met => absurd met (behind _ second))
          (List.pairwise_of_forall (R := fun _ _ => True) fun _ _ => trivial)
      · rintro ⟨first, -⟩ y member met
        rcases List.mem_cons.mp member with rfl | behind
        · exact holds met
        · exact holds (first y behind met)

omit [DecidableEq α] in
theorem of_mem_takeWhile {p : α → Prop} [DecidablePred p] {xs : List α} {x : α}
    (member : x ∈ xs.takeWhile fun x => decide (p x)) : p x := by
  have met := List.mem_takeWhile_imp (p := fun x => decide (p x)) member
  exact of_decide_eq_true met

omit [DecidableEq α] in
/-- In a list without duplicates an element is taken or dropped, and not both. -/
theorem not_mem_dropWhile_iff {p : α → Prop} [DecidablePred p] {xs : List α} {x : α}
    (nodup : xs.Nodup) (member : x ∈ xs) :
    x ∉ xs.dropWhile (fun y => decide (p y)) ↔ x ∈ xs.takeWhile fun y => decide (p y) := by
  rw [← List.takeWhile_append_dropWhile (p := fun y => decide (p y)) (l := xs)] at nodup member
  constructor
  · intro gone
    exact (List.mem_append.mp member).resolve_right gone
  · intro front back
    exact (List.nodup_append.mp nodup).2.2 x front x back rfl

omit [DecidableEq α] in
theorem takeWhile_eq_filter {p : α → Prop} [DecidablePred p] {xs : List α} (ahead : Ahead p xs) :
    (xs.takeWhile fun x => decide (p x)) = xs.filter fun x => decide (p x) := by
  have none := (dropWhile_none_iff p xs).mpr ahead
  have front : (xs.takeWhile fun x => decide (p x)).filter (fun x => decide (p x)) =
      xs.takeWhile fun x => decide (p x) :=
    List.filter_eq_self.mpr fun x member => decide_eq_true (of_mem_takeWhile member)
  have back : (xs.dropWhile fun x => decide (p x)).filter (fun x => decide (p x)) = [] :=
    List.filter_eq_nil_iff.mpr fun x member => by simpa using none x member
  calc (xs.takeWhile fun x => decide (p x))
      = ((xs.takeWhile fun x => decide (p x)) ++ xs.dropWhile fun x => decide (p x)).filter
          fun x => decide (p x) := by rw [List.filter_append, front, back, List.append_nil]
    _ = xs.filter fun x => decide (p x) := by rw [List.takeWhile_append_dropWhile]

omit [DecidableEq α] in
theorem mem_dropWhile_iff {p : α → Prop} [DecidablePred p] {xs : List α} (ahead : Ahead p xs)
    (x : α) : (x ∈ xs.dropWhile fun x => decide (p x)) ↔ x ∈ xs ∧ ¬p x := by
  have none := (dropWhile_none_iff p xs).mpr ahead
  constructor
  · intro member
    exact ⟨(List.dropWhile_sublist _).subset member, none x member⟩
  · intro ⟨member, young⟩
    rw [← List.takeWhile_append_dropWhile (p := fun x => decide (p x)) (l := xs)] at member
    rcases List.mem_append.mp member with front | back
    · exact absurd (of_mem_takeWhile front) young
    · exact back

/-! ### Elements that enter between two others -/

omit [DecidableEq α] in
/-- An element that is in order with its neighbours puts nothing in front of it out of order, as long
as smaller keys have `p` whenever larger ones do. -/
theorem between_ahead {p : α → Prop} (down : ∀ x y, key x ≤ key y → p y → p x)
    {front back : List α} {a : α} (whole : Ahead p (front ++ back))
    (left : ∀ x ∈ front.getLast?, key x ≤ key a) (right : ∀ y ∈ back.head?, key a ≤ key y) :
    Ahead p (front ++ a :: back) := by
  obtain ⟨front_ahead, back_ahead, across⟩ := List.pairwise_append.mp whole
  have fromLast : p a → ∀ x ∈ front, p x := by
    intro met x member
    obtain ⟨z, last⟩ : ∃ z, front.getLast? = some z :=
      ⟨_, List.getLast?_eq_some_getLast (List.ne_nil_of_mem member)⟩
    have lastMet := down z a (left z last) met
    obtain ⟨init, split⟩ := List.getLast?_eq_some_iff.mp last
    rw [split] at front_ahead member
    rcases List.mem_append.mp member with early | same
    · exact (List.pairwise_append.mp front_ahead).2.2 x early z (by simp) lastMet
    · rw [List.mem_singleton.mp same]
      exact lastMet
  have fromRest : ∀ y ∈ back, p y → p a := by
    intro y member met
    cases back with
    | nil => simp at member
    | cons h rest =>
      have headMet : p h := by
        rcases List.mem_cons.mp member with rfl | behind
        · exact met
        · exact (List.pairwise_cons.mp back_ahead).1 y behind met
      exact down a h (right h rfl) headMet
  refine List.pairwise_append.mpr ⟨front_ahead, List.pairwise_cons.mpr ⟨fromRest, back_ahead⟩, ?_⟩
  intro x early y late met
  rcases List.mem_cons.mp late with rfl | behind
  · exact fromLast met x early
  · exact across x early y behind met

omit [DecidableEq α] in
theorem insert_ahead_iff {p : α → Prop} (down : ∀ x y, key x ≤ key y → p y → p x) (xs : List α)
    (hint : Nat) (a : α) : Ahead p (insert key xs hint a) ↔ Ahead p xs := by
  obtain ⟨-, left, right⟩ : Fits key xs (place key xs hint (key a)) (key a) :=
    place_fits xs hint (key a)
  unfold insert
  simp only
  generalize place key xs hint (key a) = i at left right
  constructor
  · intro ahead
    have smaller : (xs.take i ++ xs.drop i).Sublist (xs.take i ++ a :: xs.drop i) :=
      List.Sublist.append_left (List.sublist_cons_self a _) _
    rw [List.take_append_drop] at smaller
    exact List.Pairwise.sublist smaller ahead
  · intro ahead
    apply between_ahead down
    · rw [List.take_append_drop]
      exact ahead
    · exact left
    · intro y first
      rw [List.head?_drop] at first
      exact le_of_lt (right y first)

/-- The element whose key has changed finds its place again. -/
theorem modify_ahead {p : α → Prop} (down : ∀ x y, key x ≤ key y → p y → p x) {xs : List α}
    {a : α} (hint : Nat) (member : a ∈ xs) (others : Ahead p (xs.erase a)) :
    Ahead p (modify key xs hint a) := by
  unfold modify
  split
  · rename_i inPlace
    obtain ⟨left, right⟩ := inPlace
    have bound : xs.idxOf a < xs.length := List.idxOf_lt_length_of_mem member
    have whole : xs = xs.take (xs.idxOf a) ++ a :: xs.drop (xs.idxOf a + 1) := by
      conv_lhs => rw [← List.take_append_drop (xs.idxOf a) xs, List.drop_eq_getElem_cons bound,
        List.getElem_idxOf bound]
    have rest : xs.erase a = xs.take (xs.idxOf a) ++ xs.drop (xs.idxOf a + 1) := by
      rw [← List.eraseIdx_eq_take_drop_succ, List.eraseIdx_idxOf_eq_erase]
    rw [whole]
    apply between_ahead down
    · rw [← rest]
      exact others
    · exact left
    · intro y first
      rw [List.head?_drop] at first
      exact right y first
  · exact (insert_ahead_iff down _ hint a).mpr others

/-! ### An index in order -/

variable (key) in
def Sorted (xs : List α) : Prop := xs.Pairwise fun x y => key x ≤ key y

omit [DecidableEq α] in
theorem sorted_iff_ahead (xs : List α) : Sorted key xs ↔ ∀ k, Ahead (fun x => key x ≤ k) xs := by
  constructor
  · intro sorted k
    exact sorted.imp fun le met => le_trans le met
  · intro ahead
    induction xs with
    | nil => exact List.Pairwise.nil
    | cons x rest ih =>
      refine List.pairwise_cons.mpr ⟨?_, ih fun k => (List.pairwise_cons.mp (ahead k)).2⟩
      intro y member
      exact (List.pairwise_cons.mp (ahead (key y))).1 y member le_rfl

omit [DecidableEq α] in
theorem sorted_insert {xs : List α} (hint : Nat) (a : α) (sorted : Sorted key xs) :
    Sorted key (insert key xs hint a) := by
  refine (sorted_iff_ahead _).mpr fun k => ?_
  apply (insert_ahead_iff (fun x y le met => le_trans le met) xs hint a).mpr
  exact (sorted_iff_ahead xs).mp sorted k

theorem sorted_modify {xs : List α} {a : α} (hint : Nat) (member : a ∈ xs)
    (others : Sorted key (xs.erase a)) : Sorted key (modify key xs hint a) := by
  refine (sorted_iff_ahead _).mpr fun k => ?_
  apply modify_ahead (fun x y le met => le_trans le met) hint member
  exact (sorted_iff_ahead _).mp others k

end OrderedIndex
