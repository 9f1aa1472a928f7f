import AIEngine.Names.DomainNameManager

/-!
# What a search for a domain name finds

The domain to be found is the one with the most labels among those whose labels end the name. The
search forgets it when it walks on to a node without a domain.
-/

namespace AIEngine

/-- A domain and its expression, which has a label. -/
structure Addition where
  domain : Nat
  expression : Bytes
  labelled : DomainNameManager.labels (cString expression) ≠ []

namespace Addition

def labels (a : Addition) : List Bytes := DomainNameManager.labels (cString a.expression)

/-- Its entry in the tree. -/
def entry (a : Addition) : List Bytes × Nat := (a.labels.reverse, a.domain)

end Addition

/-- Labels with one dot between two of them, and maybe one before the first. -/
structure PlainName where
  octets : Bytes
  noGaps : DomainNameManager.NoGaps octets
  labelled : DomainNameManager.labels octets ≠ []

def PlainName.labels (name : PlainName) : List Bytes := DomainNameManager.labels name.octets

namespace DomainNameManager

def added (adds : List Addition) : DomainNameManager :=
  adds.foldl (fun m a => m.addDomainName a.domain a.expression) {}

/-- No addition behind this one has the same labels. -/
def LastAdded (adds : List Addition) (a : Addition) : Prop :=
  ∃ before after, adds = before ++ a :: after ∧ ∀ b ∈ after, b.labels ≠ a.labels

/-- The longest of the added domains that end the name, the last one of its labels. -/
structure LongestMatch (adds : List Addition) (name : PlainName) (found : Option Nat) : Prop where
  some : ∀ d, found = some d → ∃ a, a.domain = d ∧ LastAdded adds a ∧ a.labels <:+ name.labels ∧
    ∀ b ∈ adds, b.labels <:+ name.labels → b.labels.length ≤ a.labels.length
  none : found = none ↔ ∀ b ∈ adds, ¬b.labels <:+ name.labels

/-- No added domain ends the name, or the longest end of the name that an added domain has in common
with it is an added domain itself. -/
def NoLongerShared (adds : List Addition) (name : PlainName) : Prop :=
  (∀ b ∈ adds, ¬b.labels <:+ name.labels) ∨
    ∃ a ∈ adds, a.labels <:+ name.labels ∧ ∀ shared, shared <:+ name.labels →
      (∃ b ∈ adds, shared <:+ b.labels) → shared.length ≤ a.labels.length

variable {adds : List Addition} {name : PlainName}

theorem added_root (adds : List Addition) :
    (added adds).root = PrefixTree.insertAll .empty (adds.map Addition.entry) := by
  unfold added PrefixTree.insertAll
  suffices ∀ m : DomainNameManager,
      (adds.foldl (fun m a => m.addDomainName a.domain a.expression) m).root =
        (adds.map Addition.entry).foldl (fun u e => u.insert e.2 e.1) m.root from this {}
  induction adds with
  | nil => exact fun _ => rfl
  | cons a rest ih =>
    intro m
    rw [List.foldl_cons, ih, List.map_cons, List.foldl_cons]
    simp only [addDomainName, addTokens_eq, List.filter_reverse]
    rfl

theorem added_plain (adds : List Addition) : Plain (added adds).root := by
  intro path there gap
  rw [added_root] at there
  rcases PrefixTree.isSome_at?_insertAll _ _ |>.mp there with root | ⟨e, member, inside⟩
  · simp [root] at gap
  · obtain ⟨a, -, rfl⟩ := List.mem_map.mp member
    have empty := inside.subset gap
    simp [Addition.entry, Addition.labels, DomainNameManager.labels] at empty

/-- An empty first token does not change where the walk ends. -/
theorem deepest_labels {node : DomainNode} (plain : Plain node) {octets : Bytes}
    (noGaps : NoGaps octets) (candidate : Option Nat) :
    node.deepest candidate (octets.splitOn dot).reverse =
      node.deepest candidate (DomainNameManager.labels octets).reverse := by
  unfold NoGaps at noGaps
  unfold DomainNameManager.labels
  cases tokens : octets.splitOn dot with
  | nil => rfl
  | cons first rest =>
    rw [tokens, List.tail_cons] at noGaps
    have kept : rest.filter (fun l => decide (l ≠ [])) = rest := by
      refine List.filter_eq_self.mpr fun l member => decide_eq_true ?_
      rintro rfl
      exact noGaps member
    by_cases none : first = []
    · subst none
      have absent : node.at? (rest.reverse ++ [[]]) = Option.none := by
        refine Option.not_isSome_iff_eq_none.mp fun there => plain _ there ?_
        simp
      rw [List.filter_cons_of_neg (by simp), kept, List.reverse_cons,
        PrefixTree.deepest_stop node candidate rest.reverse [] absent]
    · rw [List.filter_cons_of_pos (by simp [none]), kept]

theorem getDomainName_eq {m : DomainNameManager} (plain : Plain m.root) (name : PlainName) :
    (m.getDomainName name.octets).1 = m.root.deepest none name.labels.reverse := by
  rw [getDomainName_deepest plain, deepest_labels plain name.noGaps]
  rfl

/-- What is found stands at the longest end of the name that an added domain shares. -/
theorem getDomainName_known (adds : List Addition) (name : PlainName) :
    ∃ known, known <:+ name.labels ∧ (known = [] ∨ ∃ b ∈ adds, known <:+ b.labels) ∧
      (∀ shared, shared <:+ name.labels → (∃ b ∈ adds, shared <:+ b.labels) → shared <:+ known) ∧
      ((added adds).getDomainName name.octets).1 =
        PrefixTree.lastOf (adds.map Addition.entry) known.reverse := by
  rw [getDomainName_eq (added_plain adds), added_root]
  obtain ⟨path, inside, there, most, value⟩ :=
    PrefixTree.deepest_eq (PrefixTree.insertAll .empty (adds.map Addition.entry)) none
      name.labels.reverse
  have shares : ∀ shared, (∃ e ∈ adds.map Addition.entry, shared <+: e.1) ↔
      ∃ b ∈ adds, shared.reverse <:+ b.labels := by
    intro shared
    simp only [List.mem_map, exists_exists_and_eq_and, Addition.entry]
    refine exists_congr fun b => and_congr Iff.rfl ?_
    rw [← List.reverse_prefix, List.reverse_reverse]
  refine ⟨path.reverse, ?_, ?_, ?_, ?_⟩
  · rw [← List.reverse_prefix, List.reverse_reverse]
    exact inside
  · rcases PrefixTree.isSome_at?_insertAll _ _ |>.mp there with root | below
    · exact Or.inl (by simp [root])
    · exact Or.inr ((shares path).mp below)
  · intro shared ends below
    rw [← List.reverse_prefix, List.reverse_reverse]
    refine most shared.reverse (List.reverse_prefix.mpr ends) ?_
    rw [PrefixTree.isSome_at?_insertAll]
    refine Or.inr ((shares _).mpr ?_)
    rw [List.reverse_reverse]
    exact below
  · rw [value, List.reverse_reverse, PrefixTree.valueAt_insertAll]
    by_cases root : path = []
    · rw [if_pos root, eq_comm, PrefixTree.lastOf_none]
      intro e member
      obtain ⟨a, -, rfl⟩ := List.mem_map.mp member
      rw [root]
      simpa [Addition.entry, Addition.labels] using a.labelled
    · rw [if_neg root]

/-- The last entry of a path is the last addition of these labels. -/
theorem lastOf_lastAdded {known : List Bytes} {d : Nat}
    (h : PrefixTree.lastOf (adds.map Addition.entry) known.reverse = some d) :
    ∃ a, a.domain = d ∧ a.labels = known ∧ LastAdded adds a := by
  induction adds using List.reverseRecOn with
  | nil => exact absurd h (by simp [PrefixTree.lastOf])
  | append_singleton adds b ih =>
    rw [List.map_append, List.map_singleton, PrefixTree.lastOf_concat] at h
    by_cases same : known.reverse = b.entry.1
    · rw [if_pos same] at h
      refine ⟨b, Option.some.inj h, (List.reverse_injective same).symm, adds, [], by simp, ?_⟩
      simp
    · rw [if_neg same] at h
      obtain ⟨a, domain, labels, before, after, rfl, later⟩ := ih h
      refine ⟨a, domain, labels, before, after ++ [b], by simp, fun c member => ?_⟩
      rcases List.mem_append.mp member with old | new
      · exact later c old
      · obtain rfl := List.mem_singleton.mp new
        rw [labels]
        exact fun no => same (congrArg List.reverse no.symm)

theorem lastAdded_mem {a : Addition} (h : LastAdded adds a) : a ∈ adds := by
  obtain ⟨before, after, rfl, -⟩ := h
  simp

/-- A search gives the longest match exactly if no longer end of the name is shared with an added
domain than the longest that is one. -/
theorem getDomainName_longest_iff (adds : List Addition) (name : PlainName) :
    LongestMatch adds name ((added adds).getDomainName name.octets).1 ↔ NoLongerShared adds name := by
  obtain ⟨known, ends, shared, most, value⟩ := getDomainName_known adds name
  rw [value]
  constructor
  · intro longest
    cases found : PrefixTree.lastOf (adds.map Addition.entry) known.reverse with
    | none => exact Or.inl (longest.none.mp found)
    | some d =>
      obtain ⟨a, -, rfl, last⟩ := lastOf_lastAdded found
      refine Or.inr ⟨a, lastAdded_mem last, ends, fun other inside below => ?_⟩
      exact (most other inside below).length_le
  · rintro (nothing | ⟨a, member, ends', longest⟩)
    · have missing : PrefixTree.lastOf (adds.map Addition.entry) known.reverse = none := by
        rw [PrefixTree.lastOf_none]
        intro e listed same
        obtain ⟨b, member, rfl⟩ := List.mem_map.mp listed
        refine nothing b member ?_
        rw [List.reverse_injective same]
        exact ends
      rw [missing]
      exact ⟨fun d no => absurd no (by simp), iff_of_true rfl nothing⟩
    · have below : a.labels <:+ known := most a.labels ends' ⟨a, member, List.suffix_refl _⟩
      have short : known.length ≤ a.labels.length := by
        rcases shared with rfl | others
        · exact Nat.zero_le _
        · exact longest known ends others
      obtain rfl := below.eq_of_length_le short
      cases found : PrefixTree.lastOf (adds.map Addition.entry) a.labels.reverse with
      | none =>
        refine absurd rfl (PrefixTree.lastOf_none.mp found a.entry ?_)
        exact List.mem_map_of_mem member
      | some d =>
        obtain ⟨b, domain, same, last⟩ := lastOf_lastAdded found
        refine ⟨fun d' known => ?_, iff_of_false (by simp) fun no => no a member ends'⟩
        obtain rfl := Option.some.inj known
        refine ⟨b, domain, last, same ▸ ends', fun c inside fits => ?_⟩
        rw [same]
        exact longest c.labels fits ⟨c, inside, List.suffix_refl _⟩

/-- Of `.com` and `.a.b.com`, the first ends `x.b.com`. -/
theorem not_always_longest :
    ¬∀ adds name, LongestMatch adds name ((added adds).getDomainName name.octets).1 := by
  intro h
  have longest := h [⟨0, Octets.ascii ".com", by decide⟩, ⟨1, Octets.ascii ".a.b.com", by decide⟩]
    ⟨Octets.ascii "x.b.com", by unfold NoGaps; decide, by decide⟩
  refine longest.none.mp (by decide) ⟨0, Octets.ascii ".com", by decide⟩ List.mem_cons_self ?_
  exact List.isSuffixOf_iff_suffix.mp (by decide)

end DomainNameManager

end AIEngine
