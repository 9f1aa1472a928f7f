import AIEngine.Frequency.PacketBuffers
import AIEngine.Library.Counters
import AIEngine.Library.Patterns
import Mathlib.Data.List.Induction
import Mathlib.Data.List.Nodup

/-!
# The learner (`LearnerEngine.cc`, `PacketFrequencies.h`)

For every offset the learner counts the values that packets have there, and `compute` writes an
expression from the offsets that are nearly always alike.
-/

namespace AIEngine

/-- The map of one offset in the order of arrival. The keys are short numbers in the source, but only
characters are put in. -/
abbrev ByteCounts := List (BitVec 8 × BitVec 32)

/-- The counter of a value that is there goes up, and a new value is put in. -/
def ByteCounts.observe (value : BitVec 8) : ByteCounts → ByteCounts
  | [] => [(value, 1)]
  | (v, n) :: rest => if v = value then (v, n + 1) :: rest else (v, n) :: observe value rest

/-- An `unordered_map` is walked in some order of its own. -/
structure Iteration where
  order : ByteCounts → ByteCounts
  perm : ∀ counts, (order counts).Perm counts

structure LearnerEngine where
  length : Int := 0
  items : BitVec 32 := 0
  maxRawExpression : Int := 64
  rawExpression : List Char := []
  regexExpression : List Char := []
  qArray : Nat → ByteCounts := fun _ => []

namespace LearnerEngine

def reset (e : LearnerEngine) : LearnerEngine :=
  { e with items := 0, length := 0, rawExpression := [], regexExpression := [], qArray := fun _ => [] }

/-- `unsigned char value = pkt_freq->index(i)` -/
def valueAt (f : PacketFrequencies) (i : Nat) : BitVec 8 := (f.index i).setWidth 8

/-- Each offset of the packet has its own map. -/
def agregatePacketFlow (e : LearnerEngine) (f : PacketFrequencies) : LearnerEngine :=
  { e with
    items := e.items + 1
    qArray := fun i => if i < f.length then (e.qArray i).observe (valueAt f i) else e.qArray i
    length := if e.length < f.length then f.length else e.length }

/-- Divisions round towards zero. -/
def getQualityByte (e : LearnerEngine) (offset : Int) : Int :=
  if 0 ≤ offset ∧ offset < maxPacketFrequenciesValues then
    let items : Int := (e.qArray offset.toNat).length
    if 0 < e.items.toInt then 100 - ((items - 1) * 100).tdiv e.items.toInt else 0
  else 0

/-- The value that is there most often, the first one of these, and what is first in the map when
nothing is there at all. -/
def tokenCandidate (counts : ByteCounts) : BitVec 8 :=
  (counts.foldl (fun best entry => if best.2.toInt < entry.2.toInt then entry else best)
    ((counts.head?.map (·.1)).getD 0, 0)).1

/-- The value that the expression asks for at an offset, where it asks for one. -/
def place (e : LearnerEngine) (it : Iteration) (i : Nat) : Option (BitVec 8) :=
  if 80 < e.getQualityByte i ∧ 0 < (e.qArray i).length then
    some (tokenCandidate (it.order (e.qArray i)))
  else none

/-- `"\\x%02x"`, or any character or none. -/
def token : Option (BitVec 8) → List Char
  | some b => '\\' :: 'x' :: Patterns.hex b
  | none => ['.', '?']

/-- `"%02x"` -/
def rawToken : Option (BitVec 8) → List Char
  | some b => Patterns.hex b
  | none => []

/-- How often `.?` stands in a row. -/
def totalTokens : List Char → Nat
  | '.' :: '?' :: rest => totalTokens rest + 1
  | _ => 0

/-- The loop that writes a row of `.?` as one operator, with the characters it has still to skip. -/
def substitute : Nat → List Char → List Char
  | _, [] => []
  | skip + 1, _ :: rest => substitute skip rest
  | 0, c :: rest =>
    let total := totalTokens (c :: rest)
    if total = 0 then c :: substitute 0 rest
    else if 1 < total then
      '.' :: '{' :: (Patterns.decimal total ++ '}' :: substitute (2 * total - 1) rest)
    else c :: (rest.take 1 ++ substitute 1 rest)

/-- The offsets the expression is about. -/
def computeLength (e : LearnerEngine) : Int :=
  if e.maxRawExpression < e.length then e.maxRawExpression else e.length

def places (e : LearnerEngine) (it : Iteration) : List (Option (BitVec 8)) :=
  (List.range e.computeLength.toNat).map (e.place it)

def compute (e : LearnerEngine) (it : Iteration) : LearnerEngine :=
  let expr := '^' :: (e.places it).flatMap token
  { e with
    regexExpression := substitute 0 expr
    rawExpression := (e.places it).flatMap rawToken }

end LearnerEngine

/-! ### What the learner knows -/

namespace ByteCounts

/-- The values that are in the map. -/
def values (counts : ByteCounts) : List (BitVec 8) := counts.map (·.1)

theorem values_observe (value : BitVec 8) (counts : ByteCounts) :
    (counts.observe value).values =
      if value ∈ counts.values then counts.values else counts.values ++ [value] := by
  induction counts with
  | nil => rfl
  | cons entry rest ih =>
    obtain ⟨v, n⟩ := entry
    unfold observe
    by_cases same : v = value
    · rw [if_pos same, if_pos (by rw [← same]; exact List.mem_cons_self)]
      rfl
    · rw [if_neg same]
      show v :: (observe value rest).values =
        if value ∈ v :: values rest then v :: values rest else v :: values rest ++ [value]
      rw [ih]
      by_cases later : value ∈ values rest
      · rw [if_pos later, if_pos (List.mem_cons_of_mem v later)]
      · rw [if_neg later, if_neg]
        · rfl
        · intro member
          rcases List.mem_cons.mp member with head | tail
          · exact same head.symm
          · exact later tail

theorem mem_values_observe {value v : BitVec 8} {counts : ByteCounts} :
    v ∈ (counts.observe value).values ↔ v ∈ counts.values ∨ v = value := by
  rw [values_observe]
  by_cases known : value ∈ counts.values
  · rw [if_pos known]
    exact ⟨Or.inl, fun either => either.elim id fun same => same ▸ known⟩
  · rw [if_neg known, List.mem_append, List.mem_singleton]

theorem nodup_observe {counts : ByteCounts} (nodup : counts.values.Nodup) (value : BitVec 8) :
    (counts.observe value).values.Nodup := by
  rw [values_observe]
  by_cases known : value ∈ counts.values
  · rwa [if_pos known]
  · rw [if_neg known]
    refine List.nodup_append.mpr ⟨nodup, List.nodup_singleton value, ?_⟩
    rintro v member w single rfl
    exact known (List.mem_singleton.mp single ▸ member)

theorem length_observe (value : BitVec 8) (counts : ByteCounts) :
    (counts.observe value).length =
      counts.length + if value ∈ counts.values then 0 else 1 := by
  have sizes := congrArg List.length (values_observe value counts)
  rw [values, List.length_map] at sizes
  rw [sizes]
  by_cases known : value ∈ counts.values
  · rw [if_pos known, if_pos known, values, List.length_map]
    rfl
  · rw [if_neg known, if_neg known, List.length_append, values, List.length_map]
    rfl

end ByteCounts

namespace LearnerEngine

/-- What a learner has of some packets since it was reset. -/
structure Learned (packets : List PacketFrequencies) (e : LearnerEngine) : Prop where
  items : e.items = BitVec.ofNat 32 packets.length
  nodup : ∀ i, (e.qArray i).values.Nodup
  values : ∀ i v, v ∈ (e.qArray i).values ↔ ∃ f ∈ packets, i < f.length ∧ valueAt f i = v
  few : ∀ i, (e.qArray i).length ≤ packets.length
  longest : ∀ n : Nat, e.length ≤ n ↔ ∀ f ∈ packets, f.length ≤ n

theorem learned_reset (e : LearnerEngine) : Learned [] e.reset where
  items := rfl
  nodup _ := List.nodup_nil
  values i v := by simp [reset, ByteCounts.values]
  few _ := Nat.le_refl 0
  longest n := by simp [reset]

theorem learned_step {packets : List PacketFrequencies} {e : LearnerEngine}
    (learned : Learned packets e) (f : PacketFrequencies) :
    Learned (packets ++ [f]) (e.agregatePacketFlow f) where
  items := by
    show e.items + 1 = _
    rw [learned.items, List.length_append]
    exact (BitVec.ofNat_add ..).symm
  nodup i := by
    show ByteCounts.values (if i < f.length then _ else _) |>.Nodup
    by_cases within : i < f.length
    · rw [if_pos within]
      exact ByteCounts.nodup_observe (learned.nodup i) _
    · rw [if_neg within]
      exact learned.nodup i
  values i v := by
    show v ∈ ByteCounts.values (if i < f.length then _ else _) ↔ _
    simp only [List.mem_append, List.mem_singleton, or_and_right, exists_or, exists_eq_left]
    by_cases within : i < f.length
    · rw [if_pos within, ByteCounts.mem_values_observe, learned.values, and_iff_right within,
        eq_comm (a := v)]
    · rw [if_neg within, learned.values]
      exact ⟨Or.inl, fun either => either.elim id fun both => absurd both.1 within⟩
  few i := by
    show List.length (if i < f.length then _ else _) ≤ _
    have before := learned.few i
    rw [List.length_append]
    by_cases within : i < f.length
    · rw [if_pos within, ByteCounts.length_observe]
      split <;> simp <;> omega
    · rw [if_neg within]
      omega
  longest n := by
    show (if e.length < f.length then (f.length : Int) else e.length) ≤ n ↔ _
    simp only [List.mem_append, List.mem_singleton, or_imp, forall_and, forall_eq]
    rw [← learned.longest n]
    split <;> omega

/-- The learner that has seen some packets, from a reset on. -/
def learn (e : LearnerEngine) (packets : List PacketFrequencies) : LearnerEngine :=
  packets.foldl agregatePacketFlow e.reset

theorem learn_append (e : LearnerEngine) (packets : List PacketFrequencies) (f : PacketFrequencies) :
    e.learn (packets ++ [f]) = (e.learn packets).agregatePacketFlow f := by
  unfold learn
  rw [List.foldl_append]
  rfl

theorem learned_run (e : LearnerEngine) (packets : List PacketFrequencies) :
    Learned packets (e.learn packets) := by
  induction packets using List.reverseRecOn with
  | nil => exact learned_reset e
  | append_singleton packets f ih =>
    rw [learn_append]
    exact learned_step ih f

end LearnerEngine

end AIEngine
