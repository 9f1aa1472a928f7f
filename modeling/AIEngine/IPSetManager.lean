import AIEngine.Transport.Spec
import Mathlib.Data.Finset.Dedup
import Mathlib.Data.Finset.Lattice.Lemmas

/-!
# Sets of addresses (`IPSetManager.cc`, `IPSet.cc`, `IPBloomSet.cc`)

With its first packet a flow gets the set that holds its destination address, and the expressions of that set. The
sets are shared: addresses may come to a set at any time.
-/

namespace AIEngine

/-- `boost::bloom_filters::dynamic_bloom_filter`: what was inserted is there until the filter gets another size. -/
structure BloomFilter (β : Type) where
  insert : β → String → β
  resize : β → Int → β
  probablyContains : β → String → Bool
  inserted : ∀ bloom ip, probablyContains (insert bloom ip) ip = true
  kept : ∀ {bloom ip} (other : String), probablyContains bloom ip = true →
    probablyContains (insert bloom other) ip = true

/-- The addresses of an `IPSet`, or of an `IPBloomSet`. -/
inductive Contents (β : Type) where
  | map (ips : Finset String)
  | bloom (bloom : β)

/-- What a call may do to the addresses of a set. -/
inductive Change where
  | insert (ip : String)
  | resize (numBits : Int)
  deriving DecidableEq, Repr

/-- The address that is given. -/
def Change.ip : Change → Option String
  | .insert ip => some ip
  | .resize _ => none

namespace Contents

variable {β : Type} (B : BloomFilter β)

def insert (c : Contents β) (ip : String) : Contents β :=
  match c with
  | .map ips => .map (Insert.insert ip ips)
  | .bloom b => .bloom (B.insert b ip)

/-- Only an `IPBloomSet` has a size. -/
def resize (c : Contents β) (numBits : Int) : Contents β :=
  match c with
  | .map ips => .map ips
  | .bloom b => .bloom (B.resize b numBits)

def change (c : Contents β) : Change → Contents β
  | .insert ip => c.insert B ip
  | .resize numBits => c.resize B numBits

def contains (c : Contents β) (ip : String) : Bool :=
  match c with
  | .map ips => decide (ip ∈ ips)
  | .bloom b => B.probablyContains b ip

end Contents

structure IPAbstractSet (β : Type) where
  contents : Contents β
  totalIps : BitVec 32 := 0
  totalIpsNotOnSet : BitVec 32 := 0
  totalIpsOnSet : BitVec 32 := 0
  rmng : Option Nat := none

namespace IPAbstractSet

variable {β : Type} (B : BloomFilter β)

/-- Every call is counted, also of an address that is there. -/
def addIPAddress (s : IPAbstractSet β) (ip : String) : IPAbstractSet β :=
  { s with contents := s.contents.insert B ip, totalIps := s.totalIps + 1 }

def lookupIPAddress (s : IPAbstractSet β) (ip : String) : Bool × IPAbstractSet β :=
  if s.contents.contains B ip then (true, { s with totalIpsOnSet := s.totalIpsOnSet + 1 })
  else (false, { s with totalIpsNotOnSet := s.totalIpsNotOnSet + 1 })

def resize (s : IPAbstractSet β) (numBits : Int) : IPAbstractSet β :=
  { s with contents := s.contents.resize B numBits }

def setRegexManager (s : IPAbstractSet β) (rmng : Option Nat) : IPAbstractSet β := { s with rmng := rmng }

end IPAbstractSet

/-- A manager and the sets that it may refer to. -/
structure IPSetManager (β : Type) where
  objects : Nat → IPAbstractSet β
  sets : List Nat := []
  matchedSet : Option Nat := none

namespace IPSetManager

variable {β : Type} (B : BloomFilter β)

def setObject (m : IPSetManager β) (n : Nat) (s : IPAbstractSet β) : IPSetManager β :=
  { m with objects := fun k => if k = n then s else m.objects k }

def addIPSet (m : IPSetManager β) (n : Nat) : IPSetManager β := { m with sets := m.sets ++ [n] }

/-- The loop of `lookupIPAddress` -/
def lookupFrom (ip : String) : List Nat → IPSetManager β → Bool × IPSetManager β
  | [], m => (false, m)
  | n :: rest, m =>
    let (value, set) := (m.objects n).lookupIPAddress B ip
    let m := m.setObject n set
    if value then (true, { m with matchedSet := some n }) else lookupFrom ip rest m

def lookupIPAddress (m : IPSetManager β) (ip : String) : Bool × IPSetManager β :=
  lookupFrom B ip m.sets { m with matchedSet := none }

/-- What the transport reads after a lookup: `getMatchedIPSet`, and its expressions. -/
def answer (m : IPSetManager β) : Option (Nat × Option Nat) := m.matchedSet.map fun n => (n, (m.objects n).rmng)

/-- The calls on a manager and on the sets; a set is also asked by its user and by the other managers that have it. -/
inductive IPSetCall where
  | addIPAddress (n : Nat) (ip : String)
  | resize (n : Nat) (numBits : Int)
  | lookupSet (n : Nat) (ip : String)
  | setRegexManager (n : Nat) (rmng : Option Nat)
  | addIPSet (n : Nat)
  | lookupIPAddress (ip : String)
  deriving DecidableEq, Repr

def call (m : IPSetManager β) : IPSetCall → IPSetManager β
  | .addIPAddress n ip => m.setObject n ((m.objects n).addIPAddress B ip)
  | .resize n numBits => m.setObject n ((m.objects n).resize B numBits)
  | .lookupSet n ip => m.setObject n ((m.objects n).lookupIPAddress B ip).2
  | .setRegexManager n rmng => m.setObject n ((m.objects n).setRegexManager rmng)
  | .addIPSet n => m.addIPSet n
  | .lookupIPAddress ip => (m.lookupIPAddress B ip).2

/-- The set that this call adds to the manager. -/
def IPSetCall.added : IPSetCall → Option Nat
  | .addIPSet n => some n
  | _ => none

/-- What this call does to the addresses of a set. -/
def IPSetCall.change (n : Nat) : IPSetCall → Option Change
  | .addIPAddress k ip => if k = n then some (.insert ip) else none
  | .resize k numBits => if k = n then some (.resize numBits) else none
  | _ => none

/-- The sets that have refused the address. -/
def passed (order : List Nat) : Option Nat → List Nat
  | some n => order.takeWhile fun k => k ≠ n
  | none => order

end IPSetManager

/-- A manager with the lookups: the sets that were there to be asked, and the one that matched. -/
structure Consulted (β : Type) where
  manager : IPSetManager β
  lookups : List (List Nat × Option Nat) := []

namespace Consulted

variable {β : Type} (B : BloomFilter β)

open IPSetManager (IPSetCall)

def step (s : Consulted β) (c : IPSetCall) : Consulted β where
  manager := s.manager.call B c
  lookups := s.lookups ++
    match c with
    | .lookupIPAddress _ => [(s.manager.sets, (s.manager.call B c).matchedSet)]
    | .lookupSet n ip => [([n], if ((s.manager.objects n).lookupIPAddress B ip).1 then some n else none)]
    | _ => []

/-- After some calls, from sets that nothing was looked up in. -/
def run (contents : Nat → Contents β) (calls : List IPSetCall) : Consulted β :=
  calls.foldl (step B) { manager := { objects := fun n => { contents := contents n } } }

end Consulted

namespace Contents

variable {β : Type} {B : BloomFilter β} {c : Contents β} {ip : String}

theorem contains_insert_self : (c.insert B ip).contains B ip = true := by
  cases c with
  | map ips => exact decide_eq_true (Finset.mem_insert_self ip ips)
  | bloom b => exact B.inserted b ip

theorem contains_insert (other : String) (held : c.contains B ip = true) : (c.insert B other).contains B ip = true := by
  cases c with
  | map ips => exact decide_eq_true (Finset.mem_insert_of_mem (of_decide_eq_true held))
  | bloom b => exact B.kept other held

/-- No set loses an address while it keeps its size. -/
theorem contains_foldl {changes : List Change} (held : c.contains B ip = true)
    (fixed : ∀ numBits, Change.resize numBits ∉ changes) : (changes.foldl (change B) c).contains B ip = true := by
  induction changes generalizing c with
  | nil => exact held
  | cons first rest ih =>
    have later (numBits : Int) : Change.resize numBits ∉ rest :=
      fun member => fixed numBits (List.mem_cons_of_mem _ member)
    cases first with
    | insert other => exact ih (contains_insert other held) later
    | resize numBits => exact absurd List.mem_cons_self (fixed numBits)

/-- An `IPSet` holds what it was given and nothing else. -/
theorem map_foldl (changes : List Change) (held : Finset String) :
    changes.foldl (change B) (.map held) = .map (held ∪ (changes.filterMap Change.ip).toFinset) := by
  induction changes generalizing held with
  | nil => simp
  | cons first rest ih =>
    cases first with
    | insert given =>
      rw [List.foldl_cons]
      show rest.foldl (change B) (.map (Insert.insert given held)) = _
      rw [ih, List.filterMap_cons_some (show (Change.insert given).ip = some given from rfl)]
      congr 1
      ext ip
      simp only [Finset.mem_union, Finset.mem_insert, List.mem_toFinset, List.mem_cons]
      tauto
    | resize numBits => exact ih held

end Contents

namespace IPSetManager

variable {β : Type} {B : BloomFilter β} {m : IPSetManager β} {n : Nat} {ip : String}

/-- The set would answer yes. -/
def holds (B : BloomFilter β) (m : IPSetManager β) (ip : String) (n : Nat) : Bool :=
  (m.objects n).contents.contains B ip

theorem holds_setObject {s : IPAbstractSet β} (same : s.contents = (m.objects n).contents) :
    (m.setObject n s).holds B ip = m.holds B ip := by
  funext k
  unfold holds setObject
  dsimp only
  split
  · rename_i here
    rw [same, here]
  · rfl

theorem passed_cons {order : List Nat} {found : Option Nat} (other : ∀ k ∈ found, n ≠ k) :
    passed (n :: order) found = n :: passed order found := by
  cases found with
  | none => rfl
  | some k =>
    have apart : decide (n ≠ k) = true := decide_eq_true (other k rfl)
    unfold passed
    exact List.takeWhile_cons_of_pos (p := fun i => decide (i ≠ k)) apart

/-- What a lookup leaves at a set. -/
def asked (order : List Nat) (found : Option Nat) (k : Nat) (s : IPAbstractSet β) : IPAbstractSet β :=
  { s with
    totalIpsOnSet := s.totalIpsOnSet + BitVec.ofNat 32 (found.toList.count k)
    totalIpsNotOnSet := s.totalIpsNotOnSet + BitVec.ofNat 32 ((passed order found).count k) }

theorem setObject_objects (m : IPSetManager β) (n : Nat) (s : IPAbstractSet β) (k : Nat) :
    (m.setObject n s).objects k = if k = n then s else m.objects k := rfl

/-- The sets are asked in their order up to the first one that holds the address. -/
theorem lookupFrom_spec (ip : String) (order : List Nat) (m : IPSetManager β) :
    ∃ objects, lookupFrom B ip order m =
        ((order.find? (m.holds B ip)).isSome,
          { m with objects := objects, matchedSet := (order.find? (m.holds B ip)).or m.matchedSet }) ∧
      ∀ k, objects k = asked order (order.find? (m.holds B ip)) k (m.objects k) := by
  induction order generalizing m with
  | nil => exact ⟨m.objects, rfl, fun k => by simp [asked, passed]⟩
  | cons n rest ih =>
    rw [lookupFrom]
    unfold IPAbstractSet.lookupIPAddress
    cases held : m.holds B ip n with
    | true =>
      rw [if_pos (show (m.objects n).contents.contains B ip = true from held), List.find?_cons_of_pos held]
      refine ⟨_, rfl, fun k => ?_⟩
      rw [setObject_objects]
      by_cases here : k = n
      · rw [if_pos here, here]
        simp [asked, passed]
      · rw [if_neg here]
        simp [asked, passed, Ne.symm here]
    | false =>
      have refused : ¬(m.objects n).contents.contains B ip = true := by
        rw [show (m.objects n).contents.contains B ip = false from held]
        simp
      rw [if_neg refused, List.find?_cons_of_neg (by simp [held])]
      obtain ⟨objects, ran, left⟩ := ih (m.setObject n { m.objects n with
        totalIpsNotOnSet := (m.objects n).totalIpsNotOnSet + 1 })
      have same : (m.setObject n { m.objects n with
          totalIpsNotOnSet := (m.objects n).totalIpsNotOnSet + 1 }).holds B ip = m.holds B ip := holds_setObject rfl
      rw [same] at ran left
      refine ⟨objects, ran, fun k => ?_⟩
      have other : ∀ k ∈ rest.find? (m.holds B ip), n ≠ k := by
        rintro k found rfl
        rw [List.find?_some found] at held
        exact absurd held (by simp)
      rw [left k, setObject_objects]
      unfold asked
      rw [passed_cons other]
      by_cases here : k = n
      · subst here
        rw [if_pos rfl, List.count_cons_self, BitVec.ofNat_add, BitVec.add_assoc, BitVec.add_comm 1]
        rfl
      · rw [if_neg here, List.count_cons_of_ne (Ne.symm here)]

theorem lookupIPAddress_spec (m : IPSetManager β) (ip : String) :
    ∃ objects, m.lookupIPAddress B ip =
        ((m.sets.find? (m.holds B ip)).isSome,
          { m with objects := objects, matchedSet := m.sets.find? (m.holds B ip) }) ∧
      ∀ k, objects k = asked m.sets (m.sets.find? (m.holds B ip)) k (m.objects k) := by
  obtain ⟨objects, ran, left⟩ := lookupFrom_spec (B := B) ip m.sets { m with matchedSet := none }
  refine ⟨objects, ?_, left⟩
  rw [Option.or_none] at ran
  exact ran

end IPSetManager

namespace Consulted

open IPSetManager (IPSetCall asked passed lookupIPAddress_spec)

variable {β : Type} {B : BloomFilter β} {contents : Nat → Contents β} {calls : List IPSetCall} {s : Consulted β}

/-- The manager is what the calls have made of it. -/
structure Told (B : BloomFilter β) (contents : Nat → Contents β) (calls : List IPSetCall) (s : Consulted β) :
    Prop where
  sets : s.manager.sets = calls.filterMap IPSetCall.added
  held : ∀ n, (s.manager.objects n).contents =
    (calls.filterMap (IPSetCall.change n)).foldl (Contents.change B) (contents n)
  ips : ∀ n, (s.manager.objects n).totalIps =
    BitVec.ofNat 32 ((calls.filterMap (IPSetCall.change n)).filterMap Change.ip).length
  on : ∀ n, (s.manager.objects n).totalIpsOnSet = BitVec.ofNat 32 ((s.lookups.filterMap Prod.snd).count n)
  off : ∀ n, (s.manager.objects n).totalIpsNotOnSet =
    BitVec.ofNat 32 ((s.lookups.flatMap fun l => passed l.1 l.2).count n)

/-- A call on a set changes its addresses as it says, and counts the address that it gives. -/
structure Obeys (B : BloomFilter β) (change : Option Change) (before after : IPAbstractSet β) : Prop where
  contents : after.contents = change.toList.foldl (Contents.change B) before.contents
  ips : after.totalIps = before.totalIps + BitVec.ofNat 32 (change.toList.filterMap Change.ip).length
  on : after.totalIpsOnSet = before.totalIpsOnSet
  off : after.totalIpsNotOnSet = before.totalIpsNotOnSet

theorem Obeys.nothing (set : IPAbstractSet β) : Obeys B none set set :=
  ⟨rfl, (BitVec.add_zero _).symm, rfl, rfl⟩

/-- A call that asks no set. -/
theorem told_obeys {c : IPSetCall} (told : Told B contents calls s)
    (sets : (s.step B c).manager.sets = s.manager.sets ++ c.added.toList) (looked : (s.step B c).lookups = s.lookups)
    (obeys : ∀ n, Obeys B (c.change n) (s.manager.objects n) ((s.step B c).manager.objects n)) :
    Told B contents (calls ++ [c]) (s.step B c) := by
  have changes (n : Nat) : (calls ++ [c]).filterMap (IPSetCall.change n) =
      calls.filterMap (IPSetCall.change n) ++ (c.change n).toList := by
    rw [List.filterMap_append]
    cases change : c.change n with
    | none => rw [List.filterMap_cons_none change]; rfl
    | some x => rw [List.filterMap_cons_some change]; rfl
  refine ⟨?_, fun n => ?_, fun n => ?_, fun n => ?_, fun n => ?_⟩
  · rw [sets, List.filterMap_append, told.sets]
    cases added : c.added with
    | none => rw [List.filterMap_cons_none added]; rfl
    | some k => rw [List.filterMap_cons_some added]; rfl
  · rw [(obeys n).contents, changes, List.foldl_append, told.held n]
  · rw [(obeys n).ips, changes, List.filterMap_append, List.length_append, BitVec.ofNat_add, told.ips n]
  · rw [(obeys n).on, looked]
    exact told.on n
  · rw [(obeys n).off, looked]
    exact told.off n

/-- A call on one set, which says nothing about the others. -/
theorem obeys_setObject {m : IPSetManager β} {k : Nat} {set : IPAbstractSet β} (change : Nat → Option Change)
    (here : Obeys B (change k) (m.objects k) set) (apart : ∀ n, n ≠ k → change n = none) (n : Nat) :
    Obeys B (change n) (m.objects n) ((m.setObject k set).objects n) := by
  rw [IPSetManager.setObject_objects]
  split
  · rename_i same
    rw [same]
    exact here
  · rename_i other
    rw [apart n other]
    exact .nothing _

/-- A lookup, in the sets of a manager or in one set. -/
theorem told_asked {c : IPSetCall} {order : List Nat} {found : Option Nat} (told : Told B contents calls s)
    (sets : (s.step B c).manager.sets = s.manager.sets) (nothing : c.added = none)
    (same : ∀ n, c.change n = none) (looked : (s.step B c).lookups = s.lookups ++ [(order, found)])
    (left : ∀ n, (s.step B c).manager.objects n = asked order found n (s.manager.objects n)) :
    Told B contents (calls ++ [c]) (s.step B c) := by
  have unchanged (n : Nat) : (calls ++ [c]).filterMap (IPSetCall.change n) =
      calls.filterMap (IPSetCall.change n) := by
    rw [List.filterMap_append, List.filterMap_cons_none (same n)]
    exact List.append_nil _
  refine ⟨?_, fun n => ?_, fun n => ?_, fun n => ?_, fun n => ?_⟩
  · rw [sets, List.filterMap_append, List.filterMap_cons_none nothing]
    exact told.sets.trans (List.append_nil _).symm
  · rw [left n, unchanged]
    exact told.held n
  · rw [left n, unchanged]
    exact told.ips n
  · rw [left n, looked, List.filterMap_append, List.count_append, BitVec.ofNat_add, ← told.on n]
    cases found <;> rfl
  · rw [left n, looked, List.flatMap_append, List.count_append, BitVec.ofNat_add, ← told.off n]
    simp [asked]

theorem told_lookupIPAddress (told : Told B contents calls s) (ip : String) :
    Told B contents (calls ++ [.lookupIPAddress ip]) (s.step B (.lookupIPAddress ip)) := by
  obtain ⟨objects, ran, left⟩ := lookupIPAddress_spec (B := B) s.manager ip
  have after : (s.step B (.lookupIPAddress ip)).manager =
      { s.manager with objects := objects, matchedSet := s.manager.sets.find? (s.manager.holds B ip) } :=
    congrArg Prod.snd ran
  have looked : (s.step B (.lookupIPAddress ip)).lookups =
      s.lookups ++ [(s.manager.sets, s.manager.sets.find? (s.manager.holds B ip))] := by
    show s.lookups ++ [(s.manager.sets, (s.step B (.lookupIPAddress ip)).manager.matchedSet)] = _
    rw [after]
  refine told_asked told (by rw [after]) rfl (fun n => rfl) looked fun n => ?_
  rw [after]
  exact left n

theorem told_lookupSet (told : Told B contents calls s) (k : Nat) (ip : String) :
    Told B contents (calls ++ [.lookupSet k ip]) (s.step B (.lookupSet k ip)) := by
  refine told_asked told rfl rfl (fun n => rfl) rfl fun n => ?_
  show (s.manager.setObject k ((s.manager.objects k).lookupIPAddress B ip).2).objects n = _
  rw [IPSetManager.setObject_objects]
  unfold IPAbstractSet.lookupIPAddress
  by_cases here : n = k
  · rw [if_pos here, here]
    split <;> simp [asked, passed]
  · rw [if_neg here]
    split <;> simp [asked, passed, Ne.symm here]

theorem told_step (told : Told B contents calls s) (c : IPSetCall) : Told B contents (calls ++ [c]) (s.step B c) := by
  cases c with
  | addIPAddress k ip =>
    refine told_obeys told (List.append_nil _).symm (List.append_nil _) fun n => ?_
    refine obeys_setObject (IPSetCall.addIPAddress k ip).change ?_
      (fun n other => if_neg (Ne.symm other)) n
    rw [show (IPSetCall.addIPAddress k ip).change k = some (.insert ip) from if_pos rfl]
    exact ⟨rfl, rfl, rfl, rfl⟩
  | resize k numBits =>
    refine told_obeys told (List.append_nil _).symm (List.append_nil _) fun n => ?_
    refine obeys_setObject (IPSetCall.resize k numBits).change ?_
      (fun n other => if_neg (Ne.symm other)) n
    rw [show (IPSetCall.resize k numBits).change k = some (.resize numBits) from if_pos rfl]
    exact ⟨rfl, (BitVec.add_zero _).symm, rfl, rfl⟩
  | setRegexManager k rmng =>
    refine told_obeys told (List.append_nil _).symm (List.append_nil _) fun n => ?_
    refine obeys_setObject (IPSetCall.setRegexManager k rmng).change ?_ (fun _ _ => rfl) n
    exact ⟨rfl, (BitVec.add_zero _).symm, rfl, rfl⟩
  | addIPSet k => exact told_obeys told rfl (List.append_nil _) fun n => .nothing _
  | lookupSet k ip => exact told_lookupSet told k ip
  | lookupIPAddress ip => exact told_lookupIPAddress told ip

theorem told_run (B : BloomFilter β) (contents : Nat → Contents β) (calls : List IPSetCall) :
    Told B contents calls (run B contents calls) := by
  induction calls using List.reverseRecOn with
  | nil => exact ⟨rfl, fun n => rfl, fun n => rfl, fun n => rfl, fun n => rfl⟩
  | append_singleton past c ih =>
    unfold run
    rw [List.foldl_append]
    exact told_step ih c

/-- What the calls say about the sets that hold an address: those that were given it and have not been resized
since, and of the sets that are not Bloom filters exactly those that were given it. -/
structure Knows (contents : Nat → Contents β) (calls : List IPSetCall) (ip : String) (holds : Nat → Bool) :
    Prop where
  given : ∀ n before after, calls = before ++ IPSetCall.addIPAddress n ip :: after →
    (∀ numBits, IPSetCall.resize n numBits ∉ after) → holds n = true
  exact : ∀ n, contents n = .map ∅ → (holds n = true ↔ IPSetCall.addIPAddress n ip ∈ calls)

theorem mem_resized {n : Nat} {numBits : Int} :
    Change.resize numBits ∈ calls.filterMap (IPSetCall.change n) ↔ IPSetCall.resize n numBits ∈ calls := by
  rw [List.mem_filterMap]
  constructor
  · rintro ⟨c, member, changed⟩
    cases c with
    | resize k bits =>
      obtain ⟨rfl, rfl⟩ : k = n ∧ bits = numBits := by simpa [IPSetCall.change] using changed
      exact member
    | _ => exact absurd changed (by simp [IPSetCall.change])
  · exact fun member => ⟨_, member, if_pos rfl⟩

theorem mem_given {n : Nat} {ip : String} :
    ip ∈ (calls.filterMap (IPSetCall.change n)).filterMap Change.ip ↔ IPSetCall.addIPAddress n ip ∈ calls := by
  rw [List.filterMap_filterMap, List.mem_filterMap]
  constructor
  · rintro ⟨c, member, given⟩
    cases c with
    | addIPAddress k other =>
      by_cases here : k = n
      · obtain ⟨rfl⟩ : other = ip := by simpa [IPSetCall.change, Change.ip, here] using given
        exact here ▸ member
      · exact absurd given (by simp [IPSetCall.change, here])
    | resize k numBits =>
      by_cases here : k = n
      · exact absurd given (by simp [IPSetCall.change, Change.ip, here])
      · exact absurd given (by simp [IPSetCall.change, here])
    | _ => exact absurd given (by simp [IPSetCall.change])
  · exact fun member => ⟨_, member, by simp [IPSetCall.change, Change.ip]⟩

theorem Told.knows (told : Told B contents calls s) (ip : String) : Knows contents calls ip (s.manager.holds B ip) := by
  constructor
  · rintro n before after rfl fixed
    unfold IPSetManager.holds
    have given : (IPSetCall.addIPAddress n ip).change n = some (.insert ip) := if_pos rfl
    rw [told.held n, List.filterMap_append, List.foldl_append, List.filterMap_cons_some given, List.foldl_cons]
    exact Contents.contains_foldl Contents.contains_insert_self
      fun numBits resized => fixed numBits (mem_resized.mp resized)
  · intro n map
    unfold IPSetManager.holds
    rw [told.held n, map, Contents.map_foldl]
    unfold Contents.contains
    rw [decide_eq_true_iff, Finset.empty_union, List.mem_toFinset]
    exact mem_given

/-- The flow gets the set with its first packet, and keeps what it has without a match. -/
theorem lookupIPSet_answer (m : IPSetManager β) (t : Transport) (a : Obj) (o : Outside) :
    ((t.lookupIPSet a { o with ipset := m.answer }).flow a).ipset =
      if (t.flow a).totalPackets = 1 then m.matchedSet.or (t.flow a).ipset else (t.flow a).ipset := by
  unfold Transport.lookupIPSet IPSetManager.answer
  dsimp only
  split
  · cases m.matchedSet with
    | none => rfl
    | some n =>
      rw [Option.map_some]
      cases (m.objects n).rmng with
      | none => exact congrArg Flow.ipset (Transport.flow_setFlow_same t a _)
      | some mng => exact congrArg Flow.ipset (Transport.flow_setFlow_same t a _)
  · rfl

/-- After any calls, a lookup finds the first set in the order of `addIPSet` that holds the address, whenever the set
was given it. A flow gets this set with its first packet. The counters of each set tell, in words of 32 bits, how
often it matched, and how often another one or none did after it was asked. -/
theorem run_finds (B : BloomFilter β) (contents : Nat → Contents β) (calls : List IPSetCall) (ip : String)
    (t : Transport) (a : Obj) (o : Outside) :
    let s := run B contents calls
    let r := s.manager.lookupIPAddress B ip
    (∃ holds, Knows contents calls ip holds ∧ r.2.matchedSet = (calls.filterMap IPSetCall.added).find? holds) ∧
      r.1 = r.2.matchedSet.isSome ∧
      ((t.lookupIPSet a { o with ipset := r.2.answer }).flow a).ipset =
        (if (t.flow a).totalPackets = 1 then r.2.matchedSet.or (t.flow a).ipset else (t.flow a).ipset) ∧
      ∀ n, (s.manager.objects n).totalIpsOnSet = BitVec.ofNat 32 ((s.lookups.filterMap Prod.snd).count n) ∧
        (s.manager.objects n).totalIpsNotOnSet =
          BitVec.ofNat 32 ((s.lookups.flatMap fun l => passed l.1 l.2).count n) := by
  have told := told_run B contents calls
  obtain ⟨objects, ran, -⟩ := lookupIPAddress_spec (B := B) (run B contents calls).manager ip
  dsimp only
  rw [ran]
  refine ⟨⟨_, told.knows ip, ?_⟩, rfl, lookupIPSet_answer _ t a o, fun n => ⟨told.on n, told.off n⟩⟩
  rw [← told.sets]

/-- Two sets have the address, the second one since before it came into the manager. -/
example :
    let B : BloomFilter Unit := ⟨fun _ _ => (), fun _ _ => (), fun _ _ => true, fun _ _ => rfl, fun _ _ => rfl⟩
    let s := run B (fun _ => .map ∅) [.addIPAddress 7 "10.0.0.1", .addIPSet 3, .addIPSet 7,
      .lookupIPAddress "10.0.0.1", .addIPAddress 3 "10.0.0.1", .lookupIPAddress "10.0.0.1"]
    s.lookups = [([3, 7], some 7), ([3, 7], some 3)] ∧ (s.manager.objects 3).totalIpsNotOnSet = 1 := by
  decide

end Consulted

end AIEngine
