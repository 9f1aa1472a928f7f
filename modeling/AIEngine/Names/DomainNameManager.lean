import AIEngine.Library.PrefixTree
import AIEngine.Library.Octets
import AIEngine.Resources.World

/-!
# Domain names (`DomainNameManager.cc`, `DomainNode.h`)

The manager keeps the expressions in a tree, label by label from the right, and looks names up in it.
A search is meant to give the added domain with the most labels in common.
-/

namespace AIEngine

/-- The children of a node and its domain, an object of its own. -/
abbrev DomainNode := PrefixTree Bytes Nat

namespace DomainNode

def haveKey (node : DomainNode) (key : Bytes) : Option DomainNode := node.child key

def addKey (node : DomainNode) (key : Bytes) (next : DomainNode) : DomainNode :=
  node.setChild key next

def setDomainName (node : DomainNode) (domain : Nat) : DomainNode := node.setValue domain

def getDomainName (node : DomainNode) : Option Nat := node.value

end DomainNode

structure DomainNameManager where
  root : DomainNode := .empty
  totalDomains : Nat := 0
  /-- `total_matchs_` of the domains -/
  totalMatchs : Nat → BitVec 32 := fun _ => 0

namespace DomainNameManager

def dot : BitVec 8 := 0x2e

/-- The tokens from the right. A child that was there is changed where it is. -/
def addTokens (domain : Nat) : List Bytes → DomainNode → DomainNode
  | [], node => node.setDomainName domain
  | token :: rest, node =>
    if 0 < token.length then
      match node.haveKey token with
      | none => node.addKey token (addTokens domain rest .empty)
      | some next => node.addKey token (addTokens domain rest next)
    else addTokens domain rest node

def addDomainName (m : DomainNameManager) (domain : Nat) (expression : Bytes) : DomainNameManager :=
  { m with
    root := addTokens domain ((cString expression).splitOn dot).reverse m.root
    totalDomains := m.totalDomains + 1 }

/-- The loop, with `idx + 1` octets ahead of it and `prev_idx + 1` before the last dot. The flag tells
whether the match is counted. -/
def search (name : Bytes) : Nat → Nat → DomainNode → Option Nat → Option Nat × Bool
  | 0, stop, node, candidate =>
    let key := name.take stop
    if 0 < key.length then
      match node.haveKey key with
      | some next => (next.getDomainName, next.getDomainName.isSome)
      | none => (candidate, candidate.isSome)
    else (candidate, false)
  | idx + 1, stop, node, candidate =>
    if name[idx]? = some dot then
      let key := (name.drop (idx + 1)).take (stop - (idx + 1))
      match node.haveKey key with
      | some next => search name idx idx next next.getDomainName
      | none => (candidate, candidate.isSome)
    else search name idx stop node candidate

def incrementMatchs (m : DomainNameManager) (domain : Nat) : DomainNameManager :=
  { m with totalMatchs := fun d => if d = domain then m.totalMatchs d + 1 else m.totalMatchs d }

def getDomainName (m : DomainNameManager) (name : Bytes) : Option Nat × DomainNameManager :=
  match search name name.length name.length m.root none with
  | (some domain, true) => (some domain, m.incrementMatchs domain)
  | (candidate, _) => (candidate, m)

/-! ### Labels -/

def labels (name : Bytes) : List Bytes := (name.splitOn dot).filter fun l => decide (l ≠ [])

theorem splitOn_dot (before cur : Bytes) :
    (before ++ dot :: cur).splitOn dot = before.splitOn dot ++ cur.splitOn dot := by
  simp only [List.splitOn_eq_splitOnP]
  exact List.splitOnP_append_cons before cur (by simp)

theorem addTokens_eq (domain : Nat) (tokens : List Bytes) (node : DomainNode) :
    addTokens domain tokens node =
      PrefixTree.insert domain (tokens.filter fun l => decide (l ≠ [])) node := by
  induction tokens generalizing node with
  | nil => rfl
  | cons token rest ih =>
    unfold addTokens
    by_cases none : token = []
    · subst none
      simpa using ih node
    · have long : 0 < token.length := List.length_pos_iff.mpr none
      have kept : (token :: rest).filter (fun l => decide (l ≠ [])) =
          token :: rest.filter fun l => decide (l ≠ []) := by
        simp [none]
      rw [if_pos long, kept, PrefixTree.insert]
      cases found : node.haveKey token with
      | none =>
        have missing : node.child token = Option.none := found
        simp only [DomainNode.addKey, ih, missing, Option.getD_none]
      | some next =>
        have known : node.child token = Option.some next := found
        simp only [DomainNode.addKey, ih, known, Option.getD_some]

/-- Only the first token may be empty, which is what a leading dot makes. -/
def NoGaps (name : Bytes) : Prop := [] ∉ (name.splitOn dot).tail

/-- No node is under an empty label. -/
def Plain (node : DomainNode) : Prop := ∀ path, (node.at? path).isSome → [] ∉ path

theorem plain_empty : Plain .empty := by
  intro path there
  cases path with
  | nil => simp
  | cons k ks => simp at there

theorem plain_child {node next : DomainNode} {key : Bytes} (plain : Plain node)
    (found : node.child key = some next) : key ≠ [] ∧ Plain next := by
  constructor
  · rintro rfl
    exact plain [[]] (by simp [PrefixTree.at?_cons, found]) (by simp)
  · intro path there gap
    refine plain (key :: path) ?_ (List.mem_cons_of_mem _ gap)
    simpa [PrefixTree.at?_cons, found] using there

theorem plain_insert {node : DomainNode} (plain : Plain node) (domain : Nat) {path : List Bytes}
    (whole : [] ∉ path) : Plain (node.insert domain path) := by
  intro way there gap
  rcases (PrefixTree.isSome_at?_insert node domain path way).mp there with inside | before
  · exact whole (inside.subset gap)
  · exact plain way before gap

/-- Empty tokens make no node. -/
theorem plain_addDomainName {m : DomainNameManager} (plain : Plain m.root) (domain : Nat)
    (expression : Bytes) : Plain (m.addDomainName domain expression).root := by
  unfold addDomainName
  rw [addTokens_eq]
  exact plain_insert plain domain (by simp)

/-- The search walks down the tree along the tokens from the right. -/
theorem search_eq (before cur after : Bytes) (node : DomainNode) (candidate : Option Nat)
    (whole : dot ∉ cur) (plain : Plain node) :
    (search (before ++ cur ++ after) before.length (before.length + cur.length) node candidate).1 =
      node.deepest candidate ((before ++ cur).splitOn dot).reverse := by
  have single : cur.splitOn dot = [cur] := List.splitOn_eq_singleton whole
  induction before using List.reverseRecOn generalizing cur after node candidate with
  | nil =>
    simp only [List.nil_append, List.length_nil, Nat.zero_add, search, List.take_left, single,
      List.reverse_singleton]
    by_cases none : cur = []
    · subst none
      cases found : node.child [] with
      | some next => exact absurd rfl (plain_child plain found).1
      | none =>
        cases node
        simp [PrefixTree.deepest, found]
    · have long : 0 < cur.length := List.length_pos_iff.mpr none
      rw [if_pos long]
      cases node
      simp only [PrefixTree.deepest, DomainNode.haveKey]
      split
      · rename_i next found
        simp only [found]
        cases next
        rfl
      · rename_i missing
        simp only [missing]
  | append_singleton before b ih =>
    have here : (before ++ [b] ++ cur ++ after)[before.length]? = some b := by
      simp [List.append_assoc]
    rw [List.length_append, List.length_singleton, search, here]
    by_cases isDot : b = dot
    · subst isDot
      have join : before ++ [dot] ++ cur = before ++ dot :: cur := by simp
      have key : ((before ++ dot :: cur ++ after).drop (before.length + 1)).take
          (before.length + 1 + cur.length - (before.length + 1)) = cur := by
        have cut : before ++ dot :: cur ++ after = (before ++ [dot]) ++ (cur ++ after) := by simp
        rw [cut, List.drop_left' (by simp), Nat.add_sub_cancel_left, List.take_left]
      have path : ((before ++ dot :: cur).splitOn dot).reverse =
          cur :: (before.splitOn dot).reverse := by
        rw [splitOn_dot, single, List.reverse_append, List.reverse_singleton, List.singleton_append]
      rw [join, if_pos rfl, path]
      simp only [key, DomainNode.haveKey]
      cases found : node.child cur with
      | none =>
        cases node
        simp only [PrefixTree.deepest, found]
      | some next =>
        cases node
        simp only [PrefixTree.deepest, found]
        have rest := ih [] (dot :: cur ++ after) next next.value (by simp)
          (plain_child plain found).2 (List.splitOn_eq_singleton (by simp))
        simpa [DomainNode.getDomainName] using rest
    · have join : before ++ [b] ++ cur = before ++ (b :: cur) := by simp
      have longer : dot ∉ b :: cur := by
        simp [whole, Ne.symm isDot]
      have rest := ih (b :: cur) after node candidate longer plain (List.splitOn_eq_singleton longer)
      have stop : before.length + 1 + cur.length = before.length + (b :: cur).length := by
        rw [List.length_cons]
        omega
      rw [join, if_neg (by simpa using isDot), stop]
      exact rest

/-- What is returned is the domain of the node that the walk comes to. -/
theorem getDomainName_deepest {m : DomainNameManager} (plain : Plain m.root) (name : Bytes) :
    (m.getDomainName name).1 = m.root.deepest none (name.splitOn dot).reverse := by
  have walked := search_eq name [] [] m.root none (by simp) plain
  simp only [List.append_nil, List.length_nil, Nat.add_zero] at walked
  unfold getDomainName
  rw [← walked]
  split
  · rename_i found
    rw [found]
  · rename_i found
    rw [found]

end DomainNameManager

end AIEngine
