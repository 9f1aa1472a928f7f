import Mathlib.Data.List.Nodup

/-!
# Files that are put into a directory

A directory lists its files in the order of their creation. A file that is put under a name that is
taken replaces the one there, so a sequence of files is all there in the end when, and only when, no
two have one name.
-/

namespace Directory

variable {N P V W : Type} [DecidableEq N]

/-- Opening a file that is there empties it, and it keeps its place. -/
def put (files : List (N × V)) (name : N) (v : V) : List (N × V) :=
  if name ∈ files.map Prod.fst then files.map fun f => if f.1 = name then (name, v) else f
  else files ++ [(name, v)]

theorem put_new {files : List (N × V)} {name : N} (v : V) (new : name ∉ files.map Prod.fst) :
    put files name v = files ++ [(name, v)] := if_neg new

theorem put_known {files : List (N × V)} {name : N} (v : V)
    (known : name ∈ files.map Prod.fst) :
    put files name v = files.map fun f => if f.1 = name then (name, v) else f := if_pos known

theorem renamed_fst (files : List (N × V)) (name : N) (v : V) :
    (files.map fun f => if f.1 = name then (name, v) else f).map Prod.fst =
      files.map Prod.fst := by
  rw [List.map_map]
  apply List.map_congr_left
  intro f _
  show (if f.1 = name then (name, v) else f).1 = f.1
  split
  · rename_i same
    exact same.symm
  · rfl

theorem renamed_others {files : List (N × V)} {name : N} (v : V)
    (absent : name ∉ files.map Prod.fst) :
    files.map (fun f => if f.1 = name then (name, v) else f) = files := by
  conv_rhs => rw [← List.map_id files]
  apply List.map_congr_left
  intro f member
  exact if_neg fun same => absent (List.mem_map.mpr ⟨f, member, same⟩)

theorem mem_put_fst (files : List (N × V)) (name : N) (v : V) :
    name ∈ (put files name v).map Prod.fst := by
  by_cases known : name ∈ files.map Prod.fst
  · rw [put_known v known, renamed_fst]
    exact known
  · rw [put_new v known]
    simp

theorem put_put (files : List (N × V)) (name : N) (v w : V) :
    put (put files name v) name w = put files name w := by
  rw [put_known w (mem_put_fst files name v)]
  by_cases known : name ∈ files.map Prod.fst
  · rw [put_known v known, put_known w known, List.map_map]
    apply List.map_congr_left
    intro f _
    show (if (if f.1 = name then (name, v) else f).1 = name then (name, w)
      else if f.1 = name then (name, v) else f) = if f.1 = name then (name, w) else f
    by_cases same : f.1 = name
    · simp [same]
    · simp [same]
  · rw [put_new v known, put_new w known, List.map_append, renamed_others w known]
    simp

/-- Encoding what the files hold does not touch their names. -/
theorem put_map (files : List (N × V)) (name : N) (v : V) (code : V → W) :
    (put files name v).map (fun f => (f.1, code f.2)) =
      put (files.map fun f => (f.1, code f.2)) name (code v) := by
  have names : (files.map fun f => (f.1, code f.2)).map Prod.fst = files.map Prod.fst := by
    rw [List.map_map]
    rfl
  by_cases known : name ∈ files.map Prod.fst
  · rw [put_known v known, put_known _ (names ▸ known), List.map_map, List.map_map]
    apply List.map_congr_left
    intro f _
    show ((if f.1 = name then (name, v) else f).1, code (if f.1 = name then (name, v) else f).2) =
      if f.1 = name then (name, code v) else (f.1, code f.2)
    split <;> rfl
  · rw [put_new v known, put_new _ (names ▸ known), List.map_append]
    rfl

/-! ### Many files -/

/-- Closing files one after the other. -/
def putAll (files segments : List (N × List P)) : List (N × List P) :=
  segments.foldl (fun files f => put files f.1 f.2) files

def contents (files : List (N × List P)) : List P := files.flatMap Prod.snd

omit [DecidableEq N] in
theorem contents_append (files files' : List (N × List P)) :
    contents (files ++ files') = contents files ++ contents files' := List.flatMap_append

theorem putAll_append (files segments : List (N × List P)) (name : N) (ps : List P) :
    putAll files (segments ++ [(name, ps)]) = put (putAll files segments) name ps := by
  unfold putAll
  rw [List.foldl_append]
  rfl

theorem putAll_of_nodup {files segments : List (N × List P)}
    (nodup : (files.map Prod.fst ++ segments.map Prod.fst).Nodup) :
    putAll files segments = files ++ segments := by
  induction segments generalizing files with
  | nil => exact (List.append_nil files).symm
  | cons f rest ih =>
    have new : f.1 ∉ files.map Prod.fst := fun member =>
      (List.nodup_append.mp nodup).2.2 _ member _ List.mem_cons_self rfl
    show putAll (put files f.1 f.2) rest = _
    rw [put_new f.2 new]
    have whole : ((files ++ [f]).map Prod.fst ++ rest.map Prod.fst).Nodup := by
      simpa using nodup
    rw [show (f.1, f.2) = f from rfl, ih whole]
    simp

theorem mem_replaced {files : List (N × V)} {name : N} {v : V} {f : N × V}
    (member : f ∈ files.map fun f => if f.1 = name then (name, v) else f) :
    f = (name, v) ∨ f ∈ files := by
  obtain ⟨g, listed, same⟩ := List.mem_map.mp member
  split at same
  · exact Or.inl same.symm
  · exact Or.inr (same ▸ listed)

theorem mem_put {files : List (N × V)} {name : N} {v : V} {f : N × V}
    (member : f ∈ put files name v) : f = (name, v) ∨ f ∈ files := by
  by_cases known : name ∈ files.map Prod.fst
  · rw [put_known v known] at member
    exact mem_replaced member
  · rw [put_new v known] at member
    rcases List.mem_append.mp member with old | new
    · exact Or.inr old
    · exact Or.inl (List.mem_singleton.mp new)

theorem put_nodup {files : List (N × V)} (nodup : (files.map Prod.fst).Nodup) (name : N) (v : V) :
    ((put files name v).map Prod.fst).Nodup := by
  by_cases known : name ∈ files.map Prod.fst
  · rw [put_known v known, renamed_fst]
    exact nodup
  · rw [put_new v known, List.map_append]
    refine List.nodup_append.mpr ⟨nodup, List.nodup_singleton name, fun x member y single same => ?_⟩
    rw [same, List.mem_singleton.mp single] at member
    exact known member

/-- A file that is replaced takes its contents along. -/
theorem put_lost {files : List (N × List P)} {name : N} (ps : List P)
    (nodup : (files.map Prod.fst).Nodup) (known : name ∈ files.map Prod.fst)
    (filled : ∀ f ∈ files, f.2 ≠ []) :
    (contents (put files name ps)).length < (contents files).length + ps.length := by
  rw [put_known ps known]
  induction files with
  | nil => exact absurd known (by simp)
  | cons f rest ih =>
    obtain ⟨new, nodup⟩ := List.nodup_cons.mp nodup
    have some : 0 < f.2.length := List.length_pos_of_ne_nil (filled f List.mem_cons_self)
    simp only [contents, List.map_cons, List.flatMap_cons, List.length_append] at ih ⊢
    by_cases same : f.1 = name
    · rw [if_pos same, renamed_others ps (same ▸ new)]
      simp only
      omega
    · have later : name ∈ rest.map Prod.fst := by
        rcases List.mem_cons.mp known with first | later
        · exact absurd first.symm same
        · exact later
      have less := ih nodup later fun g member => filled g (List.mem_cons_of_mem f member)
      rw [if_neg same]
      omega

theorem put_length_le {files : List (N × List P)} (name : N) (ps : List P)
    (nodup : (files.map Prod.fst).Nodup) (filled : ∀ f ∈ files, f.2 ≠ []) :
    (contents (put files name ps)).length ≤ (contents files).length + ps.length := by
  by_cases known : name ∈ files.map Prod.fst
  · exact Nat.le_of_lt (put_lost ps nodup known filled)
  · rw [put_new ps known, contents_append, List.length_append]
    simp [contents]

theorem putAll_length_le {files segments : List (N × List P)}
    (nodup : (files.map Prod.fst).Nodup) (filled : ∀ f ∈ files, f.2 ≠ [])
    (nonempty : ∀ f ∈ segments, f.2 ≠ []) :
    (contents (putAll files segments)).length ≤
      (contents files).length + (contents segments).length := by
  induction segments generalizing files with
  | nil => simp [putAll, contents]
  | cons f rest ih =>
    have one := put_length_le f.1 f.2 nodup filled
    have filled' : ∀ g ∈ put files f.1 f.2, g.2 ≠ [] := fun g member => by
      rcases mem_put member with rfl | old
      · exact nonempty f List.mem_cons_self
      · exact filled g old
    have later := ih (put_nodup nodup f.1 f.2) filled' fun g member =>
      nonempty g (List.mem_cons_of_mem f member)
    have split : (contents (f :: rest)).length = f.2.length + (contents rest).length := by
      simp [contents]
    show (contents (putAll (put files f.1 f.2) rest)).length ≤ _
    omega

theorem putAll_lost {files segments : List (N × List P)}
    (nodup : (files.map Prod.fst).Nodup) (filled : ∀ f ∈ files, f.2 ≠ [])
    (nonempty : ∀ f ∈ segments, f.2 ≠ [])
    (twice : ¬(files.map Prod.fst ++ segments.map Prod.fst).Nodup) :
    (contents (putAll files segments)).length <
      (contents files).length + (contents segments).length := by
  induction segments generalizing files with
  | nil => exact absurd (by simpa using nodup) twice
  | cons f rest ih =>
    have filled' : ∀ g ∈ put files f.1 f.2, g.2 ≠ [] := fun g member => by
      rcases mem_put member with rfl | old
      · exact nonempty f List.mem_cons_self
      · exact filled g old
    have later : ∀ g ∈ rest, g.2 ≠ [] := fun g member =>
      nonempty g (List.mem_cons_of_mem f member)
    have split : (contents (f :: rest)).length = f.2.length + (contents rest).length := by
      simp [contents]
    show (contents (putAll (put files f.1 f.2) rest)).length < _
    by_cases known : f.1 ∈ files.map Prod.fst
    · have lost := put_lost f.2 nodup known filled
      have bound := putAll_length_le (put_nodup nodup f.1 f.2) filled' later
      omega
    · have one := put_length_le f.1 f.2 nodup filled
      have rest_twice : ¬((put files f.1 f.2).map Prod.fst ++ rest.map Prod.fst).Nodup := by
        rw [put_new f.2 known]
        simpa using twice
      have less := ih (put_nodup nodup f.1 f.2) filled' later rest_twice
      omega

/-- Everything is there exactly when no name comes twice. A file without contents is harmless only when
it is the only one. -/
theorem putAll_complete_iff {segments : List (N × List P)}
    (nonempty : segments.length ≤ 1 ∨ ∀ f ∈ segments, f.2 ≠ []) :
    (contents (putAll [] segments)).length = (contents segments).length ↔
      (segments.map Prod.fst).Nodup := by
  constructor
  · intro complete
    rcases nonempty with short | filled
    · cases segments with
      | nil => exact List.nodup_nil
      | cons f rest =>
        cases rest with
        | nil => exact List.nodup_singleton f.1
        | cons g rest => exact absurd short (by simp)
    · by_contra twice
      have less : (contents (putAll [] segments)).length < 0 + (contents segments).length :=
        putAll_lost List.nodup_nil (by simp) filled (by simpa using twice)
      omega
  · intro nodup
    rw [putAll_of_nodup (by simpa using nodup), List.nil_append]

end Directory
