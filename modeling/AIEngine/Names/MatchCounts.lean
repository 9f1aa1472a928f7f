import AIEngine.Library.Counters
import AIEngine.Library.Transition
import AIEngine.Names.DomainNameManager

/-!
# Matches and their counters

`getDomainName` counts a match at every exit but the last: a name that begins with a dot can run out of
labels at the very node that it has just come to. The counter is an `int32_t`.
-/

namespace AIEngine.DomainNameManager

variable {m : DomainNameManager} {name : Bytes}

/-- The text is a dot and behind it the way to the domain. -/
def LeadsTo (node : DomainNode) (text : Bytes) (d : Nat) : Prop :=
  ∃ rest, text = dot :: rest ∧ node.valueAt (rest.splitOn dot).reverse = some d

theorem leadsTo_whole {node : DomainNode} {cur : Bytes} (whole : dot ∉ cur) (d : Nat) :
    ¬LeadsTo node cur d := by
  rintro ⟨rest, rfl, -⟩
  exact whole List.mem_cons_self

/-- The way begins with the last label. -/
theorem leadsTo_dot {node : DomainNode} {cur : Bytes} (whole : dot ∉ cur) (before : Bytes) (d : Nat) :
    LeadsTo node (before ++ dot :: cur) d ↔
      ∃ next, node.child cur = some next ∧
        ((before = [] ∧ next.value = some d) ∨ LeadsTo next before d) := by
  have single : cur.splitOn dot = [cur] := List.splitOn_eq_singleton whole
  cases before with
  | nil =>
    simp only [LeadsTo, List.nil_append, List.cons.injEq, true_and, exists_eq_left', single,
      List.reverse_singleton, PrefixTree.valueAt_cons, reduceCtorEq, false_and, exists_false, or_false,
      Option.bind_eq_some_iff]
    rfl
  | cons c before =>
    simp only [LeadsTo, List.cons_append, List.cons.injEq, reduceCtorEq, false_and, false_or]
    constructor
    · rintro ⟨rest, ⟨rfl, rfl⟩, value⟩
      rw [splitOn_dot, single, List.reverse_append, List.reverse_singleton, List.singleton_append,
        PrefixTree.valueAt_cons, Option.bind_eq_some_iff] at value
      obtain ⟨next, found, value⟩ := value
      exact ⟨next, found, before, ⟨rfl, rfl⟩, value⟩
    · rintro ⟨next, found, rest, ⟨rfl, rfl⟩, value⟩
      refine ⟨before ++ dot :: cur, ⟨rfl, rfl⟩, ?_⟩
      rw [splitOn_dot, single, List.reverse_append, List.reverse_singleton, List.singleton_append,
        PrefixTree.valueAt_cons, found]
      exact value

/-- The search gives a domain that it does not count only at a leading dot, when all that is behind
the dot is the way to the domain. -/
theorem search_silent_iff (before cur after : Bytes) (node : DomainNode) (candidate : Option Nat)
    (whole : dot ∉ cur) (d : Nat) :
    search (before ++ cur ++ after) before.length (before.length + cur.length) node candidate =
        (some d, false) ↔
      (before ++ cur = [] ∧ candidate = some d) ∨ LeadsTo node (before ++ cur) d := by
  have counted : ∀ found : Option Nat, (found, found.isSome) ≠ (some d, false) := by
    intro found same
    obtain ⟨rfl, uncounted⟩ := Prod.mk.inj same
    exact absurd uncounted (by simp)
  induction before using List.reverseRecOn generalizing cur after node candidate with
  | nil =>
    simp only [List.nil_append, List.length_nil, Nat.zero_add, search, List.take_left,
      leadsTo_whole whole, or_false]
    by_cases none : cur = []
    · simp [none]
    · rw [if_pos (List.length_pos_iff.mpr none)]
      refine iff_of_false (fun same => ?_) fun empty => none empty.1
      split at same
      · exact counted _ same
      · exact counted _ same
  | append_singleton before b ih =>
    have here : (before ++ [b] ++ cur ++ after)[before.length]? = some b := by
      simp [List.append_assoc]
    rw [List.length_append, List.length_singleton, search, here]
    by_cases isDot : b = dot
    · subst isDot
      have join : before ++ [dot] ++ cur = before ++ dot :: cur := by simp
      have key : ((before ++ dot :: cur ++ after).drop (before.length + 1)).take
          (before.length + 1 + cur.length - (before.length + 1)) = cur := by
        rw [← join, List.append_assoc (before ++ [dot]), List.drop_left' (by simp),
          Nat.add_sub_cancel_left, List.take_left]
      have long : ¬(before ++ dot :: cur = [] ∧ candidate = some d) := fun empty => by
        simpa using empty.1
      rw [join, if_pos rfl, leadsTo_dot whole, or_iff_right long]
      simp only [key, DomainNode.haveKey]
      cases found : node.child cur with
      | none =>
        refine iff_of_false (counted candidate) ?_
        simp
      | some next =>
        simp only [Option.some.injEq, exists_eq_left']
        have rest := ih [] (dot :: cur ++ after) next next.value (by simp)
        simpa [DomainNode.getDomainName] using rest
    · have join : before ++ [b] ++ cur = before ++ (b :: cur) := by simp
      have longer : dot ∉ b :: cur := by
        simp [whole, Ne.symm isDot]
      have stop : before.length + 1 + cur.length = before.length + (b :: cur).length := by
        rw [List.length_cons]
        omega
      rw [join, if_neg (by simpa using isDot), stop]
      exact ih (b :: cur) after node candidate longer

/-- Behind its leading dot the name is, label for label, the way to a node with a domain. -/
def Skips (m : DomainNameManager) (name : Bytes) : Prop := ∃ d, LeadsTo m.root name d

theorem search_skips (d : Nat) : search name name.length name.length m.root none = (some d, false) ↔
    LeadsTo m.root name d := by
  have silent := search_silent_iff name [] [] m.root none (by simp) d
  simpa using silent

/-- A domain that is found is counted, except at the dot. -/
theorem getDomainName_cases (m : DomainNameManager) (name : Bytes) :
    (∃ d, m.getDomainName name = (some d, m.incrementMatchs d) ∧ ¬m.Skips name) ∨
      (∃ d, m.getDomainName name = (some d, m) ∧ m.Skips name) ∨
      (m.getDomainName name = (none, m) ∧ ¬m.Skips name) := by
  have skips : m.Skips name ↔
      ∃ d, search name name.length name.length m.root none = (some d, false) :=
    exists_congr fun d => (search_skips d).symm
  rw [skips]
  unfold getDomainName
  generalize search name name.length name.length m.root none = found
  obtain ⟨candidate, counted⟩ := found
  cases candidate with
  | none => cases counted <;> simp
  | some d => cases counted <;> simp

/-! ### Runs -/

inductive NameCall where
  | addDomainName (domain : Nat) (expression : Bytes)
  | getDomainName (name : Bytes)

/-- A manager and what its look-ups have returned. -/
structure Lookups where
  manager : DomainNameManager := {}
  returned : List Nat := []

namespace Lookups

def step (s : Lookups) : NameCall → Option Lookups
  | .addDomainName domain expression =>
    some { s with manager := s.manager.addDomainName domain expression }
  | .getDomainName name =>
    match s.manager.getDomainName name with
    | (found, manager) => some { manager := manager, returned := s.returned ++ found.toList }

/-- The counter of each domain is the number of the look-ups that have returned it. -/
def Counted (s : Lookups) : Prop := ∀ d, (s.manager.totalMatchs d).toInt = s.returned.count d

/-- A look-up that is not counted. -/
def Skips (s : Lookups) (call : NameCall) : Prop :=
  ∃ name, call = .getDomainName name ∧ s.manager.Skips name

/-- A look-up whose way down the tree ends at a domain with a counter at its top. -/
def Overflows (s : Lookups) (call : NameCall) : Prop :=
  ∃ name d, call = .getDomainName name ∧
    s.manager.root.deepest none (name.splitOn dot).reverse = some d ∧
    (s.manager.totalMatchs d).toInt = Counter.top

theorem plain_step {s t : Lookups} {call : NameCall} (plain : Plain s.manager.root)
    (h : s.step call = some t) : Plain t.manager.root := by
  cases call with
  | addDomainName domain expression =>
    obtain rfl := Option.some.inj h
    exact plain_addDomainName plain domain expression
  | getDomainName name =>
    rcases getDomainName_cases s.manager name with ⟨d, found, -⟩ | ⟨d, found, -⟩ | ⟨found, -⟩
    all_goals
      simp only [step, found] at h
      obtain rfl := Option.some.inj h
      exact plain

theorem counted_increment {s : Lookups} (counted : s.Counted) (d : Nat) :
    Counted ⟨s.manager.incrementMatchs d, s.returned ++ [d]⟩ ↔
      (s.manager.totalMatchs d).toInt ≠ Counter.top := by
  have succ := Counter.toInt_succ_iff (s.manager.totalMatchs d) (counted d)
  rw [← succ]
  constructor
  · intro after
    have here := after d
    simpa [incrementMatchs] using here
  · intro here e
    by_cases same : e = d
    · subst same
      simpa [incrementMatchs] using here
    · simp [incrementMatchs, same, Ne.symm same, ← counted e]

theorem counted_step_iff {s t : Lookups} {call : NameCall} (plain : Plain s.manager.root)
    (counted : s.Counted) (h : s.step call = some t) :
    t.Counted ↔ ¬s.Skips call ∧ ¬s.Overflows call := by
  cases call with
  | addDomainName domain expression =>
    obtain rfl := Option.some.inj h
    refine iff_of_true counted ⟨?_, ?_⟩
    · rintro ⟨name, no, -⟩
      cases no
    · rintro ⟨name, d, no, -⟩
      cases no
  | getDomainName name =>
    have skips : s.Skips (.getDomainName name) ↔ s.manager.Skips name := by
      simp [Skips]
    have overflows : s.Overflows (.getDomainName name) ↔ ∃ d,
        (s.manager.getDomainName name).1 = some d ∧
        (s.manager.totalMatchs d).toInt = Counter.top := by
      simp [Overflows, getDomainName_deepest plain]
    rw [skips, overflows]
    rcases getDomainName_cases s.manager name with ⟨d, found, not⟩ | ⟨d, found, silent⟩ | ⟨found, not⟩
    · simp only [step, found, Option.toList_some] at h
      obtain rfl := Option.some.inj h
      rw [counted_increment counted d, found, and_iff_right not]
      simp
    · simp only [step, found] at h
      obtain rfl := Option.some.inj h
      refine iff_of_false (fun after => ?_) fun fine => fine.1 silent
      have missed := after d
      simp [counted d] at missed
    · simp only [step, found] at h
      obtain rfl := Option.some.inj h
      rw [found]
      refine iff_of_true (fun e => ?_) ⟨not, by simp⟩
      simpa using counted e

/-- In a run of additions and look-ups in any order the counters are right all the time exactly when no
look-up ends at a leading dot on a domain, and none on a domain whose counter is at its top. -/
theorem always_counted_iff (calls : List NameCall) :
    Transition.Always step Counted {} calls ↔
      Transition.Along step (fun s call _ => ¬s.Skips call ∧ ¬s.Overflows call) {} calls :=
  Transition.always_iff_along (fun _ _ _ plain stepped => plain_step plain stepped)
    (fun _ _ _ plain counted stepped => counted_step_iff plain counted stepped) plain_empty
    fun _ => rfl

/-- `.foo.com` is found and not counted. -/
theorem not_always_counted : ¬∀ calls, Transition.Always step Counted {} calls := by
  intro h
  have counted : Transition.Always step
      (fun s => (s.manager.totalMatchs 0).toInt = s.returned.count 0) {}
      [.addDomainName 0 (Octets.ascii "foo.com"), .getDomainName (Octets.ascii ".foo.com")] :=
    Transition.always_mono (fun s counted => counted 0) (h _)
  exact Transition.not_always_of_run (by decide) counted

end Lookups

end AIEngine.DomainNameManager
