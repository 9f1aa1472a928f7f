import AIEngine.Learner.LearnerEngine
import Mathlib.Tactic.Linarith
import Mathlib.Tactic.Ring

/-!
# The quality of an offset

`getQualityByte` divides the values that are at an offset by all packets, also by those that are too
short for it.
-/

namespace AIEngine.LearnerEngine

/-! ### Shares of a hundred -/

theorem share_nonneg {k n : Int} (some : 0 < n) (nonneg : 0 ≤ k) : 0 ≤ k * 100 / n :=
  Int.ediv_nonneg (by omega) some.le

/-- One more of one more is a larger share, up to the whole. -/
theorem share_grows {k n : Int} (some : 0 < n) (most : k * 100 / n ≤ 100) :
    k * 100 / n ≤ (k + 1) * 100 / (n + 1) := by
  have whole : k * 100 / n * n ≤ k * 100 := Int.ediv_mul_le _ some.ne'
  refine Int.le_ediv_of_mul_le (by omega) ?_
  calc k * 100 / n * (n + 1) = k * 100 / n * n + k * 100 / n := by ring
    _ ≤ k * 100 + 100 := by linarith
    _ = (k + 1) * 100 := by ring

/-! ### Covered offsets -/

/-- Some packet reaches the offset. -/
def Covered (packets : List PacketFrequencies) (offset : Int) : Prop :=
  0 ≤ offset ∧ ∃ f ∈ packets, offset < f.length

/-- The different values that packets have at the offset. -/
def seen (packets : List PacketFrequencies) (offset : Int) : List (BitVec 8) :=
  ((packets.filter fun f => decide (offset < f.length)).map fun f => valueAt f offset.toNat).dedup

/-- The packet has a value at the offset that no other packet has there. -/
def BringsValue (packets : List PacketFrequencies) (f : PacketFrequencies) (offset : Int) : Prop :=
  offset < f.length ∧
    ∀ g ∈ packets, offset < g.length → valueAt g offset.toNat ≠ valueAt f offset.toNat

section Learned

variable {packets : List PacketFrequencies} {e : LearnerEngine} {offset : Int}

theorem covered_iff (learned : Learned packets e) (low : 0 ≤ offset) :
    Covered packets offset ↔ 0 < (e.qArray offset.toNat).length := by
  have observed : 0 < (e.qArray offset.toNat).length ↔
      ∃ v, v ∈ (e.qArray offset.toNat).values := by
    rw [List.length_pos_iff_exists_mem]
    exact ⟨fun ⟨entry, member⟩ => ⟨entry.1, List.mem_map_of_mem member⟩,
      fun ⟨v, member⟩ => (List.mem_map.mp member).imp fun entry both => both.1⟩
  rw [observed]
  constructor
  · rintro ⟨_, f, member, reach⟩
    exact ⟨_, (learned.values _ _).mpr ⟨f, member, by omega, rfl⟩⟩
  · rintro ⟨v, known⟩
    obtain ⟨f, member, reach, -⟩ := (learned.values _ _).mp known
    exact ⟨low, f, member, by omega⟩

/-- Each value has one place in the map. -/
theorem length_seen (learned : Learned packets e) (low : 0 ≤ offset) :
    (e.qArray offset.toNat).length = (seen packets offset).length := by
  have same : (e.qArray offset.toNat).values.Perm (seen packets offset) := by
    refine (List.perm_ext_iff_of_nodup (learned.nodup _) (List.nodup_dedup _)).mpr fun v => ?_
    have reach (f : PacketFrequencies) : offset.toNat < f.length ↔ offset < f.length := by omega
    simp only [learned.values, reach, List.mem_dedup, List.mem_map, List.mem_filter, decide_eq_true_eq, and_assoc]
  have sizes := same.length_eq
  rwa [ByteCounts.values, List.length_map] at sizes

/-- A value that no packet has had is one more in the map. -/
theorem length_brings (learned : Learned packets e) {f : PacketFrequencies} (low : 0 ≤ offset)
    (brings : BringsValue packets f offset) :
    ((e.agregatePacketFlow f).qArray offset.toNat).length =
      (e.qArray offset.toNat).length + 1 := by
  have unknown : valueAt f offset.toNat ∉ (e.qArray offset.toNat).values := by
    intro known
    obtain ⟨g, member, reach, same⟩ := (learned.values _ _).mp known
    exact brings.2 g member (by omega) same
  have reach := brings.1
  show List.length (if offset.toNat < f.length then _ else _) = _
  rw [if_pos (by omega), ByteCounts.length_observe, if_neg unknown]

theorem quality_outside (e : LearnerEngine)
    (outside : offset < 0 ∨ (maxPacketFrequenciesValues : Int) ≤ offset) :
    e.getQualityByte offset = 0 := if_neg (by omega)

theorem quality_none (none : e.items.toInt ≤ 0) : e.getQualityByte offset = 0 := by
  unfold getQualityByte
  split
  · exact if_neg (by omega)
  · rfl

theorem quality_inside (inside : 0 ≤ offset ∧ offset < maxPacketFrequenciesValues)
    (some : 0 < e.items.toInt) : e.getQualityByte offset =
      100 - ((((e.qArray offset.toNat).length : Int) - 1) * 100).tdiv e.items.toInt := by
  unfold getQualityByte
  rw [if_pos inside]
  exact if_pos some

theorem quality_covered (learned : Learned packets e)
    (inside : 0 ≤ offset ∧ offset < maxPacketFrequenciesValues) (some : 0 < e.items.toInt)
    (covered : Covered packets offset) : e.getQualityByte offset =
      100 - (((e.qArray offset.toNat).length : Int) - 1) * 100 / e.items.toInt := by
  have one := (covered_iff learned inside.1).mp covered
  rw [quality_inside inside some, Int.tdiv_eq_ediv_of_nonneg (by omega)]

/-- Without a value at the offset, the quality is above a hundred until there are many packets. -/
theorem quality_uncovered (learned : Learned packets e)
    (inside : 0 ≤ offset ∧ offset < maxPacketFrequenciesValues) (some : 0 < e.items.toInt)
    (uncovered : ¬Covered packets offset) : e.getQualityByte offset = 100 + 100 / e.items.toInt := by
  have empty : (e.qArray offset.toNat).length = 0 :=
    Nat.eq_zero_of_not_pos fun one => uncovered ((covered_iff learned inside.1).mpr one)
  rw [quality_inside inside some, empty]
  show 100 - (-100 : Int).tdiv e.items.toInt = _
  rw [Int.neg_tdiv, Int.tdiv_eq_ediv_of_nonneg (by decide), sub_neg_eq_add]

/-- The quality is between zero and a hundred. -/
def InRange (e : LearnerEngine) (offset : Int) : Prop :=
  0 ≤ e.getQualityByte offset ∧ e.getQualityByte offset ≤ 100

theorem inRange_zero (zero : e.getQualityByte offset = 0) : InRange e offset := by
  unfold InRange
  rw [zero]
  decide

theorem inRange_covered (learned : Learned packets e)
    (inside : 0 ≤ offset ∧ offset < maxPacketFrequenciesValues) (some : 0 < e.items.toInt)
    (covered : Covered packets offset) :
    InRange e offset ↔ (((e.qArray offset.toNat).length : Int) - 1) * 100 < 101 * e.items.toInt := by
  have one := (covered_iff learned inside.1).mp covered
  have least := share_nonneg some (k := ((e.qArray offset.toNat).length : Int) - 1) (by omega)
  rw [← Int.ediv_lt_iff_lt_mul some]
  unfold InRange
  rw [quality_covered learned inside some covered]
  omega

theorem inRange_uncovered (learned : Learned packets e)
    (inside : 0 ≤ offset ∧ offset < maxPacketFrequenciesValues) (some : 0 < e.items.toInt)
    (uncovered : ¬Covered packets offset) : InRange e offset ↔ 100 < e.items.toInt := by
  have least : 0 ≤ 100 / e.items.toInt := Int.ediv_nonneg (by decide) some.le
  have few : 100 / e.items.toInt < 1 ↔ 100 < e.items.toInt := by
    rw [Int.ediv_lt_iff_lt_mul some, one_mul]
  rw [← few]
  unfold InRange
  rw [quality_uncovered learned inside some uncovered]
  omega

/-- A new value does not raise a quality that is a percentage, not even where the counter turns. -/
theorem quality_falls (learned : Learned packets e) (covered : Covered packets offset)
    (range : InRange e offset) {f : PacketFrequencies} (brings : BringsValue packets f offset) :
    (e.agregatePacketFlow f).getQualityByte offset ≤ e.getQualityByte offset := by
  by_cases high : (maxPacketFrequenciesValues : Int) ≤ offset
  · rw [quality_outside e (Or.inr high), quality_outside _ (Or.inr high)]
  have inside : 0 ≤ offset ∧ offset < maxPacketFrequenciesValues := ⟨covered.1, by omega⟩
  have one := (covered_iff learned covered.1).mp covered
  have next : (e.agregatePacketFlow f).items.toInt =
      if e.items.toInt = Counter.top then -2147483648 else e.items.toInt + 1 := Counter.toInt_succ e.items
  by_cases left : (e.agregatePacketFlow f).items.toInt ≤ 0
  · rw [quality_none left]
    exact range.1
  have room : (e.agregatePacketFlow f).items.toInt = e.items.toInt + 1 := by
    split at next
    · omega
    · exact next
  have after : (e.agregatePacketFlow f).getQualityByte offset =
      100 - ((e.qArray offset.toNat).length : Int) * 100 / (e.items.toInt + 1) := by
    rw [quality_inside inside (by omega), length_brings learned covered.1 brings,
      Int.tdiv_eq_ediv_of_nonneg (by omega), room]
    push_cast
    rw [add_sub_cancel_right]
  by_cases some : 0 < e.items.toInt
  · have before := quality_covered learned inside some covered
    have most := range.1
    rw [before] at most
    have grows := share_grows some (k := ((e.qArray offset.toNat).length : Int) - 1) (by omega)
    rw [sub_add_cancel] at grows
    rw [after, before]
    omega
  · have first : e.items.toInt = 0 := by omega
    rw [after, quality_none (by omega), first, zero_add, Int.ediv_one]
    omega

end Learned

/-- The quality of an offset is a percentage, and no new value makes it better. -/
structure IsPercentage (e : LearnerEngine) (packets : List PacketFrequencies) (offset : Int) :
    Prop where
  low : 0 ≤ (e.learn packets).getQualityByte offset
  high : (e.learn packets).getQualityByte offset ≤ 100
  falls : Covered packets offset → ∀ f, BringsValue packets f offset →
    ((e.learn packets).agregatePacketFlow f).getQualityByte offset ≤
      (e.learn packets).getQualityByte offset

theorem isPercentage_iff_inRange (e : LearnerEngine) (packets : List PacketFrequencies) (offset : Int) :
    IsPercentage e packets offset ↔ InRange (e.learn packets) offset := by
  constructor
  · exact fun percentage => ⟨percentage.low, percentage.high⟩
  · exact fun range => ⟨range.1, range.2,
      fun covered f brings => quality_falls (learned_run e packets) covered range brings⟩

/-- As long as the counter of the packets has not turned, there are at least as many as values. -/
theorem seen_few {packets : List PacketFrequencies} {offset : Int} (fits : packets.length ≤ Counter.top)
    (covered : Covered packets offset) :
    (((seen packets offset).length : Int) - 1) * 100 < 101 * Counter.int32 packets.length := by
  have learned := learned_run {} packets
  have few := learned.few offset.toNat
  have one := (covered_iff learned covered.1).mp covered
  rw [length_seen learned covered.1] at few one
  rw [Counter.int32_of_fits (by omega) fits]
  omega

/-- It is one unless packets that are all too short for the offset are some, but not more than a hundred, or the
counter of the packets has turned and is small again. -/
theorem isPercentage_iff (e : LearnerEngine) (packets : List PacketFrequencies) (offset : Int) :
    IsPercentage e packets offset ↔
      offset < 0 ∨ (maxPacketFrequenciesValues : Int) ≤ offset ∨ Counter.int32 packets.length ≤ 0 ∨
        (Covered packets offset ∧ (packets.length ≤ Counter.top ∨
          (((seen packets offset).length : Int) - 1) * 100 < 101 * Counter.int32 packets.length)) ∨
        (¬Covered packets offset ∧ 100 < Counter.int32 packets.length) := by
  have learned := learned_run e packets
  have items : (e.learn packets).items.toInt = Counter.int32 packets.length := by
    rw [learned.items, ← BitVec.ofInt_natCast, Counter.toInt_ofInt]
  rw [isPercentage_iff_inRange, ← items]
  by_cases outside : offset < 0 ∨ (maxPacketFrequenciesValues : Int) ≤ offset
  · exact iff_of_true (inRange_zero (quality_outside _ outside)) (by tauto)
  by_cases none : (e.learn packets).items.toInt ≤ 0
  · exact iff_of_true (inRange_zero (quality_none none)) (by tauto)
  have inside : 0 ≤ offset ∧ offset < maxPacketFrequenciesValues := by omega
  by_cases covered : Covered packets offset
  · rw [inRange_covered learned inside (by omega) covered, length_seen learned inside.1]
    have few (fits : packets.length ≤ Counter.top) := seen_few fits covered
    rw [← items] at few
    tauto
  · rw [inRange_uncovered learned inside (by omega) covered]
    tauto

/-- One packet of one octet, and the offset behind it. -/
theorem not_always_percentage : ¬∀ e packets offset, IsPercentage e packets offset := by
  intro all
  have high := (all {} [PacketFrequencies.reset.addPayload [0xaa]] 1).high
  revert high
  decide

end AIEngine.LearnerEngine
