import AIEngine.Frequency.Algebra
import AIEngine.Library.Counters
import Mathlib.Algebra.BigOperators.Group.Finset.Basic
import Mathlib.Algebra.Order.BigOperators.Group.Finset

/-!
# Groups of flows (`FrequencyGroup_Impl.h`, `FrequencyGroupItem.h`)

The flows of a table are put into groups by a function of the flow, each flow once, and a group has the
sum of the frequencies of its flows until the sum is divided.
-/

namespace AIEngine

structure FrequencyGroupItem where
  totalItems : BitVec 32 := 0
  totalFlowsBytes : BitVec 32 := 0
  freqs : Frequencies := Frequencies.reset
  flowList : List Obj := []

namespace FrequencyGroupItem

def incTotalItems (item : FrequencyGroupItem) : FrequencyGroupItem :=
  { item with totalItems := item.totalItems + 1 }

def addTotalFlowsBytes (item : FrequencyGroupItem) (bytes : BitVec 32) : FrequencyGroupItem :=
  { item with totalFlowsBytes := item.totalFlowsBytes + bytes }

def sumFrequencies (item : FrequencyGroupItem) (freqs : Frequencies) : FrequencyGroupItem :=
  { item with freqs := item.freqs.add freqs }

def addFlow (item : FrequencyGroupItem) (a : Obj) : FrequencyGroupItem :=
  { item with flowList := item.flowList ++ [a] }

end FrequencyGroupItem

/-- The flows, with the frequencies they point to. -/
structure FlowStock where
  flows : Obj → Flow
  freqsCache : Cache
  freqs : Obj → Frequencies

namespace FlowStock

/-- `flow->frequencies.lock()` -/
def frequencies (s : FlowStock) (a : Obj) : Option Frequencies :=
  (s.freqsCache.lock (s.flows a).frequencies).map s.freqs

def setInspected (s : FlowStock) (a : Obj) : FlowStock :=
  { s with
    flows := fun b => if b = a then { s.flows b with frequencyEngineInspected := true } else s.flows b }

end FlowStock

/-- The keys are what the function makes of a flow. -/
structure FrequencyGroup (κ : Type) where
  totalProcessFlows : BitVec 32 := 0
  groupMap : κ → Option FrequencyGroupItem := fun _ => none
  flowList : List Obj := []

namespace FrequencyGroup

variable {κ : Type} [DecidableEq κ]

def setItem (g : FrequencyGroup κ) (key : κ) (item : FrequencyGroupItem) : FrequencyGroup κ :=
  { g with groupMap := fun k => if k = key then some item else g.groupMap k }

/-- A flow that is not inspected and has frequencies goes to the group of its key. -/
def agregateFlow (condition : Flow → κ) (s : FlowStock × FrequencyGroup κ) (a : Obj) :
    FlowStock × FrequencyGroup κ :=
  let (stock, g) := s
  if (stock.flows a).frequencyEngineInspected = false then
    match stock.frequencies a with
    | some freq =>
      let key := condition (stock.flows a)
      let item := (g.groupMap key).getD {}
      let item := (item.incTotalItems.addTotalFlowsBytes (stock.flows a).getTotalBytes).sumFrequencies freq
      let g := g.setItem key (item.addFlow a)
      (stock.setInspected a,
        { g with totalProcessFlows := g.totalProcessFlows + 1, flowList := g.flowList ++ [a] })
    | none => (stock, g)
  else (stock, g)

def agregateFlows (condition : Flow → κ) (s : FlowStock × FrequencyGroup κ) (table : List Obj) :
    FlowStock × FrequencyGroup κ :=
  table.foldl (agregateFlow condition) (s.1, { s.2 with flowList := [] })

omit [DecidableEq κ] in
def compute (g : FrequencyGroup κ) : FrequencyGroup κ :=
  { g with
    groupMap := fun key =>
      (g.groupMap key).map fun item => { item with freqs := item.freqs.div item.totalItems } }

/-- Calls of `agregateFlows` for some tables, and one of `compute`. -/
def average (condition : Flow → κ) (stock : FlowStock) (tables : List (List Obj)) :
    FrequencyGroup κ :=
  (tables.foldl (agregateFlows condition) (stock, {})).2.compute

end FrequencyGroup

/-! ### The flows of a group -/

namespace FlowStock

variable {κ : Type} [DecidableEq κ]

/-- A flow that no group has taken yet, with frequencies. -/
def Eligible (s : FlowStock) (a : Obj) : Prop :=
  (s.flows a).frequencyEngineInspected = false ∧ (s.frequencies a).isSome

instance (s : FlowStock) (a : Obj) : Decidable (s.Eligible a) := by
  unfold Eligible
  infer_instance

/-- Those of some flows that belong to a key. -/
def members (s : FlowStock) (condition : Flow → κ) (seen : Finset Obj) (key : κ) : Finset Obj :=
  seen.filter fun a => s.Eligible a ∧ condition (s.flows a) = key

/-- How often a flow has had a value. -/
def counts (s : FlowStock) (b : BitVec 8) (a : Obj) : Int :=
  (s.frequencies a).elim 0 fun f => (f.freqs b).toInt

theorem mem_members {s : FlowStock} {condition : Flow → κ} {seen : Finset Obj} {key : κ} {a : Obj} :
    a ∈ s.members condition seen key ↔
      a ∈ seen ∧ s.Eligible a ∧ condition (s.flows a) = key := Finset.mem_filter

/-- A flow that is not new, or not eligible, belongs to no group that did not have it. -/
theorem members_skip {s : FlowStock} {condition : Flow → κ} {seen : Finset Obj} {a : Obj}
    (old : s.Eligible a → a ∈ seen) (key : κ) :
    s.members condition (insert a seen) key = s.members condition seen key := by
  ext b
  rw [mem_members, mem_members, Finset.mem_insert]
  constructor
  · rintro ⟨rfl | known, eligible⟩
    · exact ⟨old eligible.1, eligible⟩
    · exact ⟨known, eligible⟩
  · rintro ⟨known, eligible⟩
    exact ⟨Or.inr known, eligible⟩

theorem members_own {s : FlowStock} {condition : Flow → κ} {seen : Finset Obj} {a : Obj}
    (eligible : s.Eligible a) :
    s.members condition (insert a seen) (condition (s.flows a)) =
      insert a (s.members condition seen (condition (s.flows a))) := by
  unfold members
  rw [Finset.filter_insert, if_pos ⟨eligible, rfl⟩]

theorem members_other {s : FlowStock} {condition : Flow → κ} {seen : Finset Obj} {a : Obj} {key : κ}
    (other : key ≠ condition (s.flows a)) :
    s.members condition (insert a seen) key = s.members condition seen key := by
  unfold members
  rw [Finset.filter_insert, if_neg fun both => other both.2.symm]

end FlowStock

namespace FrequencyGroup

variable {κ : Type} [DecidableEq κ]

/-- What a group has of its members before the division. -/
structure Collects (s : FlowStock) (members : Finset Obj) (item : FrequencyGroupItem) : Prop where
  nodup : item.flowList.Nodup
  flows : ∀ a, a ∈ item.flowList ↔ a ∈ members
  items : item.totalItems = BitVec.ofNat 32 members.card
  sums : ∀ b, b ≠ Frequencies.last →
    item.freqs.freqs b = BitVec.ofInt 32 (∑ a ∈ members, s.counts b a)
  last : item.freqs.freqs Frequencies.last = 0

theorem collects_empty (s : FlowStock) : Collects s ∅ {} :=
  ⟨List.nodup_nil, fun a => by simp, rfl, fun b _ => by simp [Frequencies.reset], rfl⟩

/-- A flow that is new to a group is added to all of it. -/
theorem collects_insert {s : FlowStock} {members : Finset Obj} {item : FrequencyGroupItem} {a : Obj}
    {freq : Frequencies} (collects : Collects s members item) (new : a ∉ members)
    (found : s.frequencies a = some freq) (bytes : Int) :
    Collects s (insert a members)
      (((item.incTotalItems.addTotalFlowsBytes bytes).sumFrequencies freq).addFlow a) where
  nodup := by
    refine List.nodup_append.mpr ⟨collects.nodup, List.nodup_singleton a, ?_⟩
    rintro b listed c single rfl
    rw [List.mem_singleton.mp single] at listed
    exact new ((collects.flows a).mp listed)
  flows := by
    intro b
    show b ∈ item.flowList ++ [a] ↔ _
    rw [List.mem_append, List.mem_singleton, collects.flows, Finset.mem_insert, or_comm]
  items := by
    show item.totalItems + 1 = _
    rw [collects.items, Finset.card_insert_of_notMem new, BitVec.ofNat_add]
    rfl
  sums := by
    intro b other
    have own : s.counts b a = (freq.freqs b).toInt := by
      unfold FlowStock.counts
      rw [found]
      rfl
    show (item.freqs.add freq).freqs b = _
    rw [Frequencies.add_other _ _ other, collects.sums b other, Finset.sum_insert new, own,
      BitVec.ofInt_add, BitVec.ofInt_toInt, BitVec.add_comm]
  last := Frequencies.add_last _ _

/-- Where the aggregation stands when it has seen some flows. -/
structure Stands (s : FlowStock) (condition : Flow → κ) (seen : Finset Obj)
    (t : FlowStock × FrequencyGroup κ) : Prop where
  cache : t.1.freqsCache = s.freqsCache
  freqs : t.1.freqs = s.freqs
  flows : ∀ a, t.1.flows a =
    if a ∈ seen ∧ s.Eligible a then { s.flows a with frequencyEngineInspected := true } else s.flows a
  groups : ∀ key, Collects s (s.members condition seen key) ((t.2.groupMap key).getD {})
  known : ∀ key, (t.2.groupMap key).isSome ↔ (s.members condition seen key).Nonempty
  total : t.2.totalProcessFlows = BitVec.ofNat 32 (seen.filter s.Eligible).card

section Steps

variable {s : FlowStock} {condition : Flow → κ} {seen : Finset Obj} {t : FlowStock × FrequencyGroup κ}

theorem stands_start (s : FlowStock) (condition : Flow → κ) : Stands s condition ∅ (s, {}) where
  cache := rfl
  freqs := rfl
  flows := fun a => by simp
  groups := fun key => collects_empty s
  known := fun key => by simp [FlowStock.members]
  total := rfl

theorem stands_skip {a : Obj} (stands : Stands s condition seen t) (old : s.Eligible a → a ∈ seen) :
    Stands s condition (insert a seen) t where
  cache := stands.cache
  freqs := stands.freqs
  flows := by
    intro b
    rw [stands.flows b]
    have same : b ∈ seen ∧ s.Eligible b ↔ b ∈ insert a seen ∧ s.Eligible b := by
      rw [Finset.mem_insert]
      constructor
      · rintro ⟨known, eligible⟩
        exact ⟨Or.inr known, eligible⟩
      · rintro ⟨rfl | known, eligible⟩
        · exact ⟨old eligible, eligible⟩
        · exact ⟨known, eligible⟩
    simp only [same]
  groups := by
    intro key
    rw [FlowStock.members_skip old]
    exact stands.groups key
  known := by
    intro key
    rw [FlowStock.members_skip old]
    exact stands.known key
  total := by
    rw [stands.total]
    by_cases eligible : s.Eligible a
    · rw [Finset.insert_eq_of_mem (old eligible)]
    · rw [Finset.filter_insert, if_neg eligible]

/-- The flag of a flow, and its frequencies, are as at the start until it is taken. -/
theorem eligible_iff (stands : Stands s condition seen t) (a : Obj) :
    t.1.Eligible a ↔ s.Eligible a ∧ a ∉ seen := by
  have found : t.1.frequencies a = s.frequencies a := by
    unfold FlowStock.frequencies
    rw [stands.cache, stands.freqs, stands.flows a]
    split <;> rfl
  unfold FlowStock.Eligible
  rw [found, stands.flows a]
  by_cases taken : a ∈ seen ∧ s.Eligible a
  · rw [if_pos taken]
    simp [taken.1]
  · rw [if_neg taken]
    refine ⟨fun eligible => ⟨eligible, fun old => taken ⟨old, eligible⟩⟩, fun both => both.1⟩

/-- A flow that is not inspected yet and has frequencies is put into its group. -/
theorem agregateFlow_taken {stock : FlowStock} {g : FrequencyGroup κ} {a : Obj} {freq : Frequencies}
    (eligible : stock.Eligible a) (found : stock.frequencies a = some freq) :
    agregateFlow condition (stock, g) a = (stock.setInspected a,
      { g.setItem (condition (stock.flows a))
          (((((g.groupMap (condition (stock.flows a))).getD {}).incTotalItems.addTotalFlowsBytes
            (stock.flows a).getTotalBytes).sumFrequencies freq).addFlow a) with
        totalProcessFlows := g.totalProcessFlows + 1
        flowList := g.flowList ++ [a] }) := by
  unfold agregateFlow
  simp only
  rw [if_pos eligible.1, found]
  rfl

theorem agregateFlow_skipped {stock : FlowStock} {g : FrequencyGroup κ} {a : Obj}
    (passed : ¬stock.Eligible a) : agregateFlow condition (stock, g) a = (stock, g) := by
  unfold agregateFlow
  simp only
  by_cases flag : (stock.flows a).frequencyEngineInspected = false
  · have none : stock.frequencies a = none :=
      Option.not_isSome_iff_eq_none.mp fun found => passed ⟨flag, found⟩
    rw [if_pos flag, none]
  · rw [if_neg flag]

/-- A flow that is taken is new, and its group is the only one that changes. -/
theorem stands_take {stock : FlowStock} {g : FrequencyGroup κ}
    (stands : Stands s condition seen (stock, g)) {a : Obj} (eligible : stock.Eligible a) :
    Stands s condition (insert a seen) (agregateFlow condition (stock, g) a) := by
  obtain ⟨start, new⟩ := (eligible_iff stands a).mp eligible
  obtain ⟨freq, found⟩ := Option.isSome_iff_exists.mp eligible.2
  have flow : stock.flows a = s.flows a := by
    rw [stands.flows a, if_neg fun both => new both.1]
  have foundStart : s.frequencies a = some freq := by
    rw [← found]
    unfold FlowStock.frequencies
    rw [stands.cache, stands.freqs, flow]
  have without : a ∉ s.members condition seen (condition (s.flows a)) :=
    fun member => new (FlowStock.mem_members.mp member).1
  rw [agregateFlow_taken eligible found, flow]
  refine ⟨stands.cache, stands.freqs, fun b => ?_, fun key => ?_, fun key => ?_, ?_⟩
  · show (if b = a then { stock.flows b with frequencyEngineInspected := true } else stock.flows b) = _
    by_cases same : b = a
    · subst same
      rw [if_pos rfl, flow, if_pos ⟨Finset.mem_insert_self b seen, start⟩]
    · rw [if_neg same, stands.flows b]
      simp only [Finset.mem_insert, same, false_or]
  · show Collects s _ ((if key = condition (s.flows a) then _ else g.groupMap key).getD {})
    by_cases own : key = condition (s.flows a)
    · rw [if_pos own, own, FlowStock.members_own start]
      exact collects_insert (stands.groups _) without foundStart _
    · rw [if_neg own, FlowStock.members_other own]
      exact stands.groups key
  · show (if key = condition (s.flows a) then _ else g.groupMap key).isSome ↔ _
    by_cases own : key = condition (s.flows a)
    · rw [if_pos own, own, FlowStock.members_own start]
      exact iff_of_true rfl (Finset.insert_nonempty _ _)
    · rw [if_neg own, FlowStock.members_other own]
      exact stands.known key
  · show g.totalProcessFlows + 1 = _
    have absent : a ∉ seen.filter s.Eligible := fun member => new (Finset.mem_filter.mp member).1
    have before : g.totalProcessFlows = BitVec.ofNat 32 (seen.filter s.Eligible).card := stands.total
    rw [Finset.filter_insert, if_pos start, Finset.card_insert_of_notMem absent, before,
      BitVec.ofNat_add]
    rfl

theorem stands_step (stands : Stands s condition seen t) (a : Obj) :
    Stands s condition (insert a seen) (agregateFlow condition t a) := by
  obtain ⟨stock, g⟩ := t
  by_cases eligible : stock.Eligible a
  · exact stands_take stands eligible
  · rw [agregateFlow_skipped eligible]
    refine stands_skip stands fun start => ?_
    by_contra new
    exact eligible ((eligible_iff stands a).mpr ⟨start, new⟩)

theorem stands_table (stands : Stands s condition seen t) (table : List Obj) :
    Stands s condition (seen ∪ table.toFinset) (agregateFlows condition t table) := by
  have run : ∀ (table : List Obj) (seen : Finset Obj) (t : FlowStock × FrequencyGroup κ),
      Stands s condition seen t →
        Stands s condition (seen ∪ table.toFinset) (table.foldl (agregateFlow condition) t) := by
    intro table
    induction table with
    | nil =>
      intro seen t stands
      rw [List.toFinset_nil, Finset.union_empty]
      exact stands
    | cons a rest ih =>
      intro seen t stands
      have later := ih _ _ (stands_step stands a)
      rw [List.toFinset_cons, Finset.union_insert, ← Finset.insert_union]
      exact later
  exact run table seen _ ⟨stands.cache, stands.freqs, stands.flows, stands.groups, stands.known,
    stands.total⟩

theorem stands_tables (stands : Stands s condition seen t) (tables : List (List Obj)) :
    Stands s condition (seen ∪ tables.flatten.toFinset)
      (tables.foldl (agregateFlows condition) t) := by
  induction tables generalizing seen t with
  | nil =>
    rw [List.flatten_nil, List.toFinset_nil, Finset.union_empty]
    exact stands
  | cons table rest ih =>
    have later := ih (stands_table stands table)
    rw [List.flatten_cons, List.toFinset_append, ← Finset.union_assoc]
    exact later

end Steps

/-! ### The averages -/

/-- All flows of some tables that belong to a key. -/
def membersOf (s : FlowStock) (condition : Flow → κ) (tables : List (List Obj)) (key : κ) :
    Finset Obj :=
  s.members condition tables.flatten.toFinset key

/-- The divisor is not 0, and the least `int` is not divided by -1. -/
def Divisible (item : FrequencyGroupItem) : Prop :=
  item.totalItems.toInt ≠ 0 ∧ ∀ b, b ≠ Frequencies.last →
    item.totalItems.toInt = -1 → (item.freqs.freqs b).toInt ≠ -2147483648

/-- Every flow is in the group of its key, once, and the group has the average of its flows on all
values. Neither the order of the flows nor that of the tables matters. -/
structure Averages (s : FlowStock) (condition : Flow → κ) (tables : List (List Obj)) : Prop where
  once : ∀ key item, (average condition s tables).groupMap key = some item →
    item.flowList.Nodup ∧ ∀ a, a ∈ item.flowList ↔
      a ∈ tables.flatten ∧ s.Eligible a ∧ condition (s.flows a) = key
  total : (average condition s tables).totalProcessFlows =
    BitVec.ofNat 32 (tables.flatten.toFinset.filter s.Eligible).card
  groups : ∀ key, ((average condition s tables).groupMap key).isSome ↔
    (membersOf s condition tables key).Nonempty
  divisible : ∀ key item,
    (tables.foldl (agregateFlows condition) (s, {})).2.groupMap key = some item → Divisible item
  averages : ∀ key item, (average condition s tables).groupMap key = some item →
    ∀ b, (item.freqs.freqs b).toInt = (∑ a ∈ membersOf s condition tables key, s.counts b a) /
      ((membersOf s condition tables key).card : Int)
  order : ∀ tables', tables'.flatten.Perm tables.flatten → ∀ key,
    ((average condition s tables').groupMap key).map (·.freqs) =
      ((average condition s tables).groupMap key).map (·.freqs)

/-- The sum and the number of its terms are numbers of 32 bits, and the quotient is not cut off below
zero. From 2147483648 flows on, the words of the two have the quotient of the two. -/
def Fits (number : Nat) (sum : Int) : Prop :=
  if (number : Int) ≤ Counter.top then
    (-2147483648 ≤ sum ∧ sum ≤ Counter.top) ∧ (0 ≤ sum ∨ (number : Int) ∣ sum)
  else
    Counter.int32 number ≠ 0 ∧ (Counter.int32 number = -1 → Counter.int32 sum ≠ -2147483648) ∧
      (Counter.int32 sum).tdiv (Counter.int32 number) = sum / number

theorem fits_iff {number : Nat} (some : 0 < number) (sum : Int) :
    Fits number sum ↔ Counter.int32 number ≠ 0 ∧
      (Counter.int32 number = -1 → Counter.int32 sum ≠ -2147483648) ∧
      ((BitVec.ofInt 32 sum).sdiv (BitVec.ofNat 32 number)).toInt = sum / number := by
  have count : (BitVec.ofNat 32 number).toInt = Counter.int32 number := by
    rw [← BitVec.ofInt_natCast, Counter.toInt_ofInt]
  have quotient : (Counter.int32 number = -1 → Counter.int32 sum ≠ -2147483648) →
      ((BitVec.ofInt 32 sum).sdiv (BitVec.ofNat 32 number)).toInt =
        (Counter.int32 sum).tdiv (Counter.int32 number) := by
    intro defined
    rw [← count, ← Counter.toInt_ofInt] at defined ⊢
    exact Counter.toInt_sdiv defined
  unfold Fits
  split
  · rename_i few
    have held : Counter.int32 number = number := Counter.int32_of_fits (by omega) few
    have defined : (number : Int) = -1 → Counter.int32 sum ≠ -2147483648 := by omega
    rw [held] at quotient ⊢
    rw [quotient defined, Counter.tdiv_int32_iff (by omega) few]
    exact ⟨fun fits => ⟨by omega, defined, fits⟩, fun all => all.2.2⟩
  · refine and_congr_right fun _ => and_congr_right fun defined => ?_
    rw [quotient defined]

section Averages

variable {s : FlowStock} {condition : Flow → κ} {tables : List (List Obj)} {key : κ}
  {item : FrequencyGroupItem}

theorem stands_run (s : FlowStock) (condition : Flow → κ) (tables : List (List Obj)) :
    Stands s condition tables.flatten.toFinset
      (tables.foldl (agregateFlows condition) (s, {})) := by
  have run := stands_tables (stands_start s condition) tables
  rwa [Finset.empty_union] at run

theorem average_known (s : FlowStock) (condition : Flow → κ) (tables : List (List Obj)) (key : κ) :
    ((average condition s tables).groupMap key).isSome ↔
      (membersOf s condition tables key).Nonempty := by
  refine Iff.trans ?_ ((stands_run s condition tables).known key)
  show (Option.map _ _).isSome ↔ _
  rw [Option.isSome_map]

/-- What `compute` finds in a group. -/
theorem before_item (found : (tables.foldl (agregateFlows condition) (s, {})).2.groupMap key = some item) :
    (item.flowList.Nodup ∧ ∀ a, a ∈ item.flowList ↔ a ∈ membersOf s condition tables key) ∧
      item.totalItems = BitVec.ofNat 32 (membersOf s condition tables key).card ∧
      ∀ b, b ≠ Frequencies.last → item.freqs.freqs b =
        BitVec.ofInt 32 (∑ a ∈ membersOf s condition tables key, s.counts b a) := by
  have collects := (stands_run s condition tables).groups key
  rw [found] at collects
  exact ⟨⟨collects.nodup, collects.flows⟩, collects.items, collects.sums⟩

/-- The division leaves a quotient of words behind, except for the last value, which it does not
reach. -/
theorem average_item (found : (average condition s tables).groupMap key = some item) :
    (item.flowList.Nodup ∧ ∀ a, a ∈ item.flowList ↔ a ∈ membersOf s condition tables key) ∧
      (∀ b, b ≠ Frequencies.last → item.freqs.freqs b =
        (BitVec.ofInt 32 (∑ a ∈ membersOf s condition tables key, s.counts b a)).sdiv
          (BitVec.ofNat 32 (membersOf s condition tables key).card)) ∧
      item.freqs.freqs Frequencies.last = 0 := by
  obtain ⟨before, known, rfl⟩ := Option.map_eq_some_iff.mp found
  obtain ⟨flows, items, sums⟩ := before_item known
  refine ⟨flows, fun b other => ?_, Frequencies.div_last _ _⟩
  show (before.freqs.div before.totalItems).freqs b = _
  rw [Frequencies.div_other _ _ other, sums b other, items]

theorem average_freqs (tables' : List (List Obj)) (perm : tables'.flatten.Perm tables.flatten)
    (key : κ) : ((average condition s tables').groupMap key).map (·.freqs) =
      ((average condition s tables).groupMap key).map (·.freqs) := by
  have same : membersOf s condition tables' key = membersOf s condition tables key := by
    unfold membersOf
    rw [List.toFinset_eq_of_perm _ _ perm]
  have known := average_known s condition tables key
  have known' := average_known s condition tables' key
  rw [same] at known'
  cases found : (average condition s tables).groupMap key with
  | none =>
    rw [found] at known
    rw [Option.not_isSome_iff_eq_none.mp fun some => absurd (known.mpr (known'.mp some)) (by simp)]
  | some item =>
    rw [found] at known
    obtain ⟨item', found'⟩ := Option.isSome_iff_exists.mp (known'.mpr (known.mp rfl))
    obtain ⟨-, other, last⟩ := average_item found
    obtain ⟨-, other', last'⟩ := average_item found'
    rw [same] at other'
    rw [found', Option.map_some, Option.map_some]
    refine congrArg some (Frequencies.ext_freqs fun b => ?_)
    by_cases limit : b = Frequencies.last
    · rw [limit, last, last']
    · rw [other b limit, other' b limit]

/-- The flows of a group have sums that fit, and the last value is rarer than they are. -/
def GroupFits (s : FlowStock) (condition : Flow → κ) (tables : List (List Obj)) (key : κ) : Prop :=
  (∀ b, b ≠ Frequencies.last → Fits (membersOf s condition tables key).card
    (∑ a ∈ membersOf s condition tables key, s.counts b a)) ∧
  0 ≤ ∑ a ∈ membersOf s condition tables key, s.counts Frequencies.last a ∧
  ∑ a ∈ membersOf s condition tables key, s.counts Frequencies.last a <
    ((membersOf s condition tables key).card : Int)

/-- What is to be shown of one group: the divisions are defined and give the averages. -/
def GroupAverages (s : FlowStock) (condition : Flow → κ) (tables : List (List Obj)) (key : κ) : Prop :=
  (∀ item, (tables.foldl (agregateFlows condition) (s, {})).2.groupMap key = some item →
    Divisible item) ∧
  ∀ item, (average condition s tables).groupMap key = some item →
    ∀ b, (item.freqs.freqs b).toInt =
      (∑ a ∈ membersOf s condition tables key, s.counts b a) /
        ((membersOf s condition tables key).card : Int)

/-- The last value is not divided: its average has to be 0. -/
theorem zero_eq_ediv_iff {n sum : Int} (some : 0 < n) : 0 = sum / n ↔ 0 ≤ sum ∧ sum < n := by
  constructor
  · intro zero
    have above := Int.ediv_mul_le sum (Int.ne_of_gt some)
    have below := Int.lt_ediv_add_one_mul_self sum some
    rw [← zero] at above below
    omega
  · exact fun small => (Int.ediv_eq_zero_of_lt small.1 small.2).symm

theorem groupAverages_iff (some : (membersOf s condition tables key).Nonempty) :
    GroupAverages s condition tables key ↔ GroupFits s condition tables key := by
  have positive : 0 < (membersOf s condition tables key).card := Finset.card_pos.mpr some
  obtain ⟨before, known⟩ :=
    Option.isSome_iff_exists.mp (((stands_run s condition tables).known key).mpr some)
  obtain ⟨item, found⟩ :=
    Option.isSome_iff_exists.mp ((average_known s condition tables key).mpr some)
  obtain ⟨-, items, sums⟩ := before_item known
  obtain ⟨-, quotients, last⟩ := average_item found
  unfold GroupAverages GroupFits Divisible
  rw [known, found]
  simp only [Option.some.injEq, forall_eq']
  have number : before.totalItems.toInt =
      Counter.int32 (membersOf s condition tables key).card := by
    rw [items, ← BitVec.ofInt_natCast, Counter.toInt_ofInt]
  have lastAverage : (item.freqs.freqs Frequencies.last).toInt =
        (∑ a ∈ membersOf s condition tables key, s.counts Frequencies.last a) /
          ((membersOf s condition tables key).card : Int) ↔
      0 ≤ ∑ a ∈ membersOf s condition tables key, s.counts Frequencies.last a ∧
      ∑ a ∈ membersOf s condition tables key, s.counts Frequencies.last a <
        ((membersOf s condition tables key).card : Int) := by
    rw [last]
    exact zero_eq_ediv_iff (by exact_mod_cast positive)
  have other : ∀ b, b ≠ Frequencies.last →
      (Fits (membersOf s condition tables key).card
          (∑ a ∈ membersOf s condition tables key, s.counts b a) ↔
        before.totalItems.toInt ≠ 0 ∧
          (before.totalItems.toInt = -1 → (before.freqs.freqs b).toInt ≠ -2147483648) ∧
          (item.freqs.freqs b).toInt =
            (∑ a ∈ membersOf s condition tables key, s.counts b a) /
              ((membersOf s condition tables key).card : Int)) := by
    intro b inner
    rw [fits_iff positive, number, sums b inner, Counter.toInt_ofInt, quotients b inner]
  rw [← lastAverage]
  constructor
  · rintro ⟨⟨some, least⟩, averages⟩
    exact ⟨fun b inner => (other b inner).mpr ⟨some, least b inner, averages b⟩, averages _⟩
  · rintro ⟨fits, lastFits⟩
    have each := fun b inner => (other b inner).mp (fits b inner)
    refine ⟨⟨(each 0 (by decide)).1, fun b inner => (each b inner).2.1⟩, fun b => ?_⟩
    by_cases limit : b = Frequencies.last
    · rw [limit]
      exact lastFits
    · exact (each b limit).2.2

/-- The averages are right exactly when all sums fit and the last value is rarer than the flows. -/
theorem averages_iff (s : FlowStock) (condition : Flow → κ) (tables : List (List Obj)) :
    Averages s condition tables ↔ ∀ key, (membersOf s condition tables key).Nonempty →
      GroupFits s condition tables key := by
  constructor
  · intro right key some
    exact (groupAverages_iff some).mp ⟨right.divisible key, right.averages key⟩
  · intro fits
    have members : ∀ {key item}, (average condition s tables).groupMap key = some item →
        (membersOf s condition tables key).Nonempty := by
      intro key item found
      exact (average_known s condition tables key).mp (by rw [found]; rfl)
    refine ⟨fun key item found => ?_, (stands_run s condition tables).total,
      average_known s condition tables, fun key before found => ?_, fun key item found => ?_,
      fun tables' perm key => average_freqs tables' perm key⟩
    · obtain ⟨⟨nodup, flows⟩, -, -⟩ := average_item found
      refine ⟨nodup, fun a => (flows a).trans ?_⟩
      unfold membersOf
      rw [FlowStock.mem_members, List.mem_toFinset]
    · have some : (membersOf s condition tables key).Nonempty :=
        ((stands_run s condition tables).known key).mp (by rw [found]; rfl)
      exact ((groupAverages_iff some).mpr (fits key some)).1 before found
    · have some := members found
      exact ((groupAverages_iff some).mpr (fits key some)).2 item found

/-- A flow of its own group that has sent the octet 0xff. -/
theorem not_always_averages : ¬∀ (s : FlowStock) (condition : Flow → Unit) tables,
    Averages s condition tables := by
  intro all
  let a : Obj := { home := .frequencies 0, serial := 0 }
  let s : FlowStock :=
    { flows := fun _ => { Flow.new with frequencies := some a }
      freqsCache := { id := .frequencies 0, items := [some a] }
      freqs := fun _ => Frequencies.reset.addPayload [Frequencies.last] }
  have average := (all s (fun _ => ()) [[a]]).averages () _ rfl Frequencies.last
  revert average
  decide

end Averages

end FrequencyGroup

end AIEngine
