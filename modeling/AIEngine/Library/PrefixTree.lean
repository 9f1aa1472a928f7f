import Mathlib.Data.List.Induction

/-!
# Prefix trees

A node carries a value or none, and has children under distinct keys. A path is a list of keys; the
nodes that exist are those on the way to an inserted path. `deepest` reads the value of the last node
that exists on a path.
-/

inductive PrefixTree (κ δ : Type) where
  | node (value : Option δ) (children : List (κ × PrefixTree κ δ))

namespace PrefixTree

variable {κ δ : Type}

def empty : PrefixTree κ δ := .node none []

def value : PrefixTree κ δ → Option δ
  | .node v _ => v

def children : PrefixTree κ δ → List (κ × PrefixTree κ δ)
  | .node _ cs => cs

def setValue (t : PrefixTree κ δ) (d : δ) : PrefixTree κ δ := .node (some d) t.children

@[simp] theorem value_setValue (t : PrefixTree κ δ) (d : δ) : (t.setValue d).value = some d := rfl

variable [DecidableEq κ]

def child (t : PrefixTree κ δ) (k : κ) : Option (PrefixTree κ δ) :=
  (t.children.find? fun e => decide (e.1 = k)).map Prod.snd

/-- The child under the key is put there, or replaces the one that was. -/
def setChild (t : PrefixTree κ δ) (k : κ) (u : PrefixTree κ δ) : PrefixTree κ δ :=
  .node t.value ((k, u) :: t.children.filter fun e => decide (e.1 ≠ k))

@[simp] theorem value_setChild (t : PrefixTree κ δ) (k : κ) (u : PrefixTree κ δ) :
    (t.setChild k u).value = t.value := rfl

@[simp] theorem child_setValue (t : PrefixTree κ δ) (d : δ) (k : κ) :
    (t.setValue d).child k = t.child k := rfl

@[simp] theorem child_empty (k : κ) : (empty : PrefixTree κ δ).child k = none := rfl

@[simp] theorem child_setChild_same (t : PrefixTree κ δ) (k : κ) (u : PrefixTree κ δ) :
    (t.setChild k u).child k = some u := by
  simp [child, setChild, children]

theorem child_setChild_other (t : PrefixTree κ δ) {k j : κ} (u : PrefixTree κ δ) (other : j ≠ k) :
    (t.setChild k u).child j = t.child j := by
  have skip : decide (k = j) = false := decide_eq_false (Ne.symm other)
  simp only [child, setChild, children, List.find?_cons, skip]
  rw [List.find?_filter]
  congr 2
  funext e
  by_cases same : e.1 = j
  · simp [same, other]
  · simp [same]

/-! ### Paths -/

/-- The node at the end of a path. -/
def at? : PrefixTree κ δ → List κ → Option (PrefixTree κ δ)
  | t, [] => some t
  | t, k :: ks => (t.child k).bind fun u => u.at? ks

def valueAt (t : PrefixTree κ δ) (path : List κ) : Option δ := (t.at? path).bind value

def insert (d : δ) : List κ → PrefixTree κ δ → PrefixTree κ δ
  | [], t => t.setValue d
  | k :: ks, t => t.setChild k (insert d ks ((t.child k).getD empty))

@[simp] theorem at?_nil (t : PrefixTree κ δ) : t.at? [] = some t := by
  cases t
  rfl

theorem at?_cons (t : PrefixTree κ δ) (k : κ) (ks : List κ) :
    t.at? (k :: ks) = (t.child k).bind fun u => u.at? ks := by
  cases t
  rfl

theorem valueAt_cons (t : PrefixTree κ δ) (k : κ) (ks : List κ) :
    t.valueAt (k :: ks) = (t.child k).bind fun u => u.valueAt ks := by
  unfold valueAt
  rw [at?_cons, Option.bind_assoc]

@[simp] theorem at?_empty_cons (k : κ) (ks : List κ) :
    (empty : PrefixTree κ δ).at? (k :: ks) = none := rfl

theorem valueAt_empty (path : List κ) : (empty : PrefixTree κ δ).valueAt path = none := by
  cases path with
  | nil => rfl
  | cons k ks => rfl

theorem at?_insert_cons_same (t : PrefixTree κ δ) (d : δ) (k : κ) (ks path : List κ) :
    (insert d (k :: ks) t).at? (k :: path) =
      (insert d ks ((t.child k).getD empty)).at? path := by
  rw [at?_cons, insert, child_setChild_same]
  rfl

theorem at?_insert_cons_other (t : PrefixTree κ δ) (d : δ) {k j : κ} (ks path : List κ)
    (other : j ≠ k) : (insert d (k :: ks) t).at? (j :: path) = t.at? (j :: path) := by
  rw [at?_cons, at?_cons, insert, child_setChild_other t _ other]

/-- What stands at the inserted path changes, and nothing else. -/
theorem valueAt_insert (t : PrefixTree κ δ) (d : δ) (ks path : List κ) :
    (insert d ks t).valueAt path = if path = ks then some d else t.valueAt path := by
  induction ks generalizing t path with
  | nil =>
    cases path with
    | nil => simp [valueAt, insert]
    | cons j rest => simp [valueAt, insert, at?_cons]
  | cons k ks ih =>
    cases path with
    | nil => simp [valueAt, insert]
    | cons j rest =>
      by_cases same : j = k
      · subst same
        unfold valueAt at ih ⊢
        rw [at?_insert_cons_same, ih]
        cases found : t.child j with
        | none =>
          have nothing : (empty : PrefixTree κ δ).valueAt rest = none := valueAt_empty rest
          unfold valueAt at nothing
          simp [at?_cons, found, nothing]
        | some u => simp [at?_cons, found]
      · unfold valueAt
        rw [at?_insert_cons_other t d ks rest same]
        simp [same]

/-- The nodes that exist afterwards are those of before and those on the way to the inserted path. -/
theorem isSome_at?_insert (t : PrefixTree κ δ) (d : δ) (ks path : List κ) :
    ((insert d ks t).at? path).isSome ↔ path <+: ks ∨ (t.at? path).isSome := by
  induction ks generalizing t path with
  | nil =>
    cases path with
    | nil => simp
    | cons j rest => simp [insert, at?_cons]
  | cons k ks ih =>
    cases path with
    | nil => simp
    | cons j rest =>
      by_cases same : j = k
      · subst same
        rw [at?_insert_cons_same, ih, List.cons_prefix_cons]
        cases found : t.child j with
        | none =>
          cases rest with
          | nil => simp [at?_cons, found]
          | cons _ _ => simp [at?_cons, found]
        | some u => simp [at?_cons, found]
      · rw [at?_insert_cons_other t d ks rest same, List.cons_prefix_cons]
        simp [same]

/-! ### Many insertions -/

/-- The entries are inserted in their order. -/
def insertAll (t : PrefixTree κ δ) (entries : List (List κ × δ)) : PrefixTree κ δ :=
  entries.foldl (fun u e => u.insert e.2 e.1) t

/-- The value of the last entry with this path. -/
def lastOf (entries : List (List κ × δ)) (path : List κ) : Option δ :=
  (entries.reverse.find? fun e => decide (e.1 = path)).map Prod.snd

theorem lastOf_concat (entries : List (List κ × δ)) (e : List κ × δ) (path : List κ) :
    lastOf (entries ++ [e]) path = if path = e.1 then some e.2 else lastOf entries path := by
  unfold lastOf
  rw [List.reverse_append, List.reverse_singleton, List.singleton_append, List.find?_cons]
  by_cases same : e.1 = path
  · simp [same]
  · simp [same, Ne.symm same]

theorem lastOf_none {entries : List (List κ × δ)} {path : List κ} :
    lastOf entries path = none ↔ ∀ e ∈ entries, e.1 ≠ path := by
  simp [lastOf]

theorem valueAt_insertAll (entries : List (List κ × δ)) (path : List κ) :
    (insertAll empty entries).valueAt path = lastOf entries path := by
  induction entries using List.reverseRecOn with
  | nil => exact valueAt_empty path
  | append_singleton entries e ih =>
    have step : insertAll empty (entries ++ [e]) = (insertAll empty entries).insert e.2 e.1 := by
      simp [insertAll]
    rw [step, valueAt_insert, ih, lastOf_concat]

theorem isSome_at?_insertAll (entries : List (List κ × δ)) (path : List κ) :
    ((insertAll (empty : PrefixTree κ δ) entries).at? path).isSome ↔
      path = [] ∨ ∃ e ∈ entries, path <+: e.1 := by
  induction entries using List.reverseRecOn with
  | nil =>
    cases path with
    | nil => simp [insertAll]
    | cons j rest => simp [insertAll]
  | append_singleton entries e ih =>
    have step : insertAll (empty : PrefixTree κ δ) (entries ++ [e]) =
        (insertAll empty entries).insert e.2 e.1 := by
      simp [insertAll]
    rw [step, isSome_at?_insert, ih]
    constructor
    · rintro (here | root | ⟨f, member, before⟩)
      · exact Or.inr ⟨e, by simp, here⟩
      · exact Or.inl root
      · exact Or.inr ⟨f, by simp [member], before⟩
    · rintro (root | ⟨f, member, before⟩)
      · exact Or.inr (Or.inl root)
      · rcases List.mem_append.mp member with old | new
        · exact Or.inr (Or.inr ⟨f, old, before⟩)
        · obtain rfl := List.mem_singleton.mp new
          exact Or.inl before

/-! ### The deepest node of a path -/

/-- The value of the last node on the path, or the candidate where its first node is missing. -/
def deepest : PrefixTree κ δ → Option δ → List κ → Option δ
  | _, candidate, [] => candidate
  | t, candidate, k :: ks =>
    match t.child k with
    | some u => u.deepest u.value ks
    | none => candidate

/-- A key without a node ends the walk. -/
theorem deepest_stop (t : PrefixTree κ δ) (candidate : Option δ) (path : List κ) (k : κ)
    (absent : t.at? (path ++ [k]) = none) :
    t.deepest candidate (path ++ [k]) = t.deepest candidate path := by
  induction path generalizing t candidate with
  | nil =>
    rw [List.nil_append, at?_cons, Option.bind_eq_none_iff] at absent
    cases found : t.child k with
    | some u => simpa using absent u found
    | none =>
      cases t
      simp only [List.nil_append, deepest, found]
  | cons j rest ih =>
    rw [List.cons_append, at?_cons] at absent
    cases found : t.child j with
    | none =>
      cases t
      simp only [List.cons_append, deepest, found]
    | some u =>
      rw [found] at absent
      cases t
      simp only [List.cons_append, deepest, found]
      exact ih u u.value absent

/-- The last node is at the longest part of the path that exists. -/
theorem deepest_eq (t : PrefixTree κ δ) (candidate : Option δ) (path : List κ) :
    ∃ known, known <+: path ∧ (t.at? known).isSome ∧
      (∀ longer, longer <+: path → (t.at? longer).isSome → longer <+: known) ∧
      t.deepest candidate path = if known = [] then candidate else t.valueAt known := by
  induction path generalizing t candidate with
  | nil =>
    refine ⟨[], List.nil_prefix, by simp, fun longer inside _ => inside, ?_⟩
    cases t
    rfl
  | cons k ks ih =>
    cases found : t.child k with
    | none =>
      refine ⟨[], List.nil_prefix, by simp, ?_, ?_⟩
      · intro longer inside exists'
        cases longer with
        | nil => exact List.nil_prefix
        | cons j rest =>
          obtain ⟨rfl, -⟩ := List.cons_prefix_cons.mp inside
          simp [at?_cons, found] at exists'
      · cases t
        simp [deepest, found]
    | some u =>
      obtain ⟨known, inside, there, most, value⟩ := ih u u.value
      refine ⟨k :: known, List.cons_prefix_cons.mpr ⟨rfl, inside⟩, ?_, ?_, ?_⟩
      · simpa [at?_cons, found] using there
      · intro longer before exists'
        cases longer with
        | nil => exact List.nil_prefix
        | cons j rest =>
          obtain ⟨rfl, below⟩ := List.cons_prefix_cons.mp before
          refine List.cons_prefix_cons.mpr ⟨rfl, most rest below ?_⟩
          simpa [at?_cons, found] using exists'
      · have walk : t.deepest candidate (k :: ks) = u.deepest u.value ks := by
          cases t
          simp only [deepest, found]
        rw [walk, value, if_neg (List.cons_ne_nil k known)]
        unfold valueAt
        rw [at?_cons, found]
        by_cases root : known = []
        · subst root
          simp
        · rw [if_neg root]
          rfl

end PrefixTree
