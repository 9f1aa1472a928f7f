import AIEngine.Frequency
import Mathlib.Data.List.Induction

/-!
# The buffer of the packets of a flow (`PacketFrequencies.h`)

The payloads of a flow stand one behind the other in an array of fixed size. `ofPayloads_eq`: what
stands there depends on the stream of octets only, not on how it was cut into payloads.
-/

namespace AIEngine.PacketFrequencies

/-- `unsigned short index(int)`, of a number that came from a signed character. -/
def index (f : PacketFrequencies) (i : Nat) : BitVec 16 := BitVec.ofInt 16 (f.freqs i)

/-- Some payloads in an object that was reset. -/
def ofPayloads (payloads : List Payload) : PacketFrequencies := payloads.foldl addPayload reset

/-- What `index` gives for the places that are filled, as octets. -/
def octets (f : PacketFrequencies) : Payload :=
  (List.range f.length).map fun i => (f.index i).setWidth 8

/-! ### Buffers of streams -/

/-- The buffer that has these octets. -/
def stored (s : Payload) : PacketFrequencies where
  freqs := fun i => (s[i]?.map BitVec.toInt).getD 0
  length := s.length

theorem copy_stored (s data : Payload) : (stored s).copy data = stored (s ++ data) := by
  unfold copy stored
  congr 1
  · funext i
    by_cases behind : s.length ≤ i
    · simp only [if_pos behind, List.getElem?_append_right behind, List.getElem?_eq_none behind]
      cases data[i - s.length]? with
      | none => rfl
      | some byte => rfl
    · simp only [if_neg behind]
      rw [List.getElem?_append_left (by omega)]
  · rw [List.length_append]

/-- A payload goes behind the stream, as far as there is room. -/
theorem addPayload_stored (s data : Payload) :
    (stored (s.take maxPacketFrequenciesValues)).addPayload data =
      stored ((s ++ data).take maxPacketFrequenciesValues) := by
  have length : (stored (s.take maxPacketFrequenciesValues)).length =
      min maxPacketFrequenciesValues s.length := List.length_take ..
  unfold addPayload
  by_cases full : maxPacketFrequenciesValues ≤ s.length
  · rw [if_pos (by omega), List.take_append_of_le_length full]
  · have whole : s.take maxPacketFrequenciesValues = s := List.take_of_length_le (by omega)
    rw [whole] at length ⊢
    rw [if_neg (by omega), List.take_append, whole]
    by_cases long : maxPacketFrequenciesValues < s.length + data.length
    · rw [if_pos (by omega), copy_stored]
      rfl
    · rw [if_neg (by omega), copy_stored, List.take_of_length_le (by omega)]

theorem ofPayloads_eq (payloads : List Payload) :
    ofPayloads payloads = stored (payloads.flatten.take maxPacketFrequenciesValues) := by
  induction payloads using List.reverseRecOn with
  | nil => rfl
  | append_singleton payloads data ih =>
    unfold ofPayloads at ih ⊢
    rw [List.foldl_append, ih, List.flatten_append, List.flatten_singleton]
    exact addPayload_stored payloads.flatten data

/-- A signed character keeps its octet when it is widened. -/
theorem signed_octet (b : BitVec 8) : (BitVec.ofInt 16 b.toInt).setWidth 8 = b := by
  show (b.signExtend 16).setWidth 8 = b
  ext i inside
  rw [BitVec.getElem_setWidth, BitVec.getLsbD_signExtend, if_pos inside,
    BitVec.getLsbD_eq_getElem inside]
  simp [show i < 16 by omega]

theorem octets_stored (s : Payload) : (stored s).octets = s := by
  apply List.ext_getElem
  · simp [octets, stored]
  · intro i _ inside
    simp [octets, index, stored, inside, signed_octet]

/-! ### The places that are written -/

/-- `freqs_[i] = value` -/
def store (f : PacketFrequencies) (i : Nat) (value : Int) : Except Fault PacketFrequencies :=
  if i < maxPacketFrequenciesValues then
    .ok { f with freqs := fun j => if j = i then value else f.freqs j }
  else .error .outOfBounds

/-- The next turns of the loop of `addPayload`, from `i` on. -/
def storeLoop (data : Payload) : Nat → Nat → PacketFrequencies → Except Fault PacketFrequencies
  | _, 0, f => .ok f
  | i, turns + 1, f =>
    match data[i]? with
    | none => .error .outOfBounds
    | some byte =>
      match f.store (f.length + i) byte.toInt with
      | .error e => .error e
      | .ok f => storeLoop data (i + 1) turns f

/-- The length of the payload, or the room that is left for it. -/
def limit (f : PacketFrequencies) (data : Payload) : Nat :=
  if maxPacketFrequenciesValues < f.length + data.length then maxPacketFrequenciesValues - f.length
  else data.length

/-- `addPayload` with every place that it looks at and writes to. -/
def addPayloadWithin (f : PacketFrequencies) (data : Payload) : Except Fault PacketFrequencies :=
  if maxPacketFrequenciesValues ≤ f.length then .ok f
  else
    match storeLoop data 0 (f.limit data) f with
    | .error e => .error e
    | .ok g => .ok { g with length := g.length + f.limit data }

theorem storeLoop_eq {data : Payload} (turns i : Nat) (f : PacketFrequencies)
    (inside : i + turns ≤ data.length) (room : f.length + i + turns ≤ maxPacketFrequenciesValues) :
    storeLoop data i turns f = .ok { f with
      freqs := fun j =>
        if f.length + i ≤ j then
          match (data.take (i + turns))[j - f.length]? with
          | some byte => byte.toInt
          | none => f.freqs j
        else f.freqs j } := by
  induction turns generalizing i f with
  | zero =>
    have same : (fun j => if f.length + i ≤ j then
        match (data.take (i + 0))[j - f.length]? with
        | some byte => byte.toInt
        | none => f.freqs j
        else f.freqs j) = f.freqs := by
      funext j
      by_cases behind : f.length + i ≤ j
      · rw [if_pos behind, List.getElem?_eq_none (by rw [List.length_take]; omega)]
      · rw [if_neg behind]
    rw [same]
    rfl
  | succ turns ih =>
    have here : data[i]? = some data[i] := List.getElem?_eq_getElem (by omega)
    unfold storeLoop store
    rw [here]
    simp only
    rw [if_pos (by omega)]
    simp only
    rw [ih _ _ (by omega) (by simp only; omega)]
    simp only
    congr 2
    funext j
    rw [show i + 1 + turns = i + (turns + 1) by omega]
    rcases Nat.lt_trichotomy j (f.length + i) with before | rfl | behind
    · rw [if_neg (show ¬f.length + (i + 1) ≤ j by omega), if_neg (show ¬f.length + i ≤ j by omega),
        if_neg (show j ≠ f.length + i by omega)]
    · rw [if_neg (by omega), if_pos rfl, if_pos (by omega), Nat.add_sub_cancel_left,
        List.getElem?_take_of_lt (by omega), here]
    · rw [if_pos (show f.length + (i + 1) ≤ j by omega), if_pos (show f.length + i ≤ j by omega),
        if_neg (show j ≠ f.length + i by omega)]

/-- No place outside of the array or of the payload is touched. -/
theorem addPayloadWithin_eq (f : PacketFrequencies) (data : Payload) :
    f.addPayloadWithin data = .ok (f.addPayload data) := by
  unfold addPayloadWithin addPayload limit
  by_cases full : maxPacketFrequenciesValues ≤ f.length
  · rw [if_pos full, if_pos full]
  · rw [if_neg full, if_neg full]
    by_cases long : maxPacketFrequenciesValues < f.length + data.length
    · rw [if_pos long, if_pos long, storeLoop_eq _ _ _ (by omega) (by omega)]
      have taken : (data.take (maxPacketFrequenciesValues - f.length)).length =
          maxPacketFrequenciesValues - f.length := List.length_take_of_le (by omega)
      simp only [Nat.zero_add, Nat.add_zero]
      exact congrArg (fun n => Except.ok
        { f.copy (data.take (maxPacketFrequenciesValues - f.length)) with length := f.length + n })
        taken.symm
    · rw [if_neg long, if_neg long, storeLoop_eq _ _ _ (by omega) (by omega)]
      simp only [Nat.zero_add, Nat.add_zero, List.take_length]
      exact congrArg Except.ok (Eq.refl (f.copy data))

theorem payloads_within (payloads : List Payload) :
    payloads.foldlM addPayloadWithin reset = .ok (ofPayloads payloads) := by
  induction payloads using List.reverseRecOn with
  | nil => rfl
  | append_singleton payloads data ih =>
    have last : ofPayloads (payloads ++ [data]) = (ofPayloads payloads).addPayload data := by
      unfold ofPayloads
      rw [List.foldl_append]
      rfl
    rw [List.foldlM_append, ih, last]
    show List.foldlM addPayloadWithin (ofPayloads payloads) [data] = _
    simp [addPayloadWithin_eq]

/-- The buffer has what the stream of the payloads begins with, in whatever way it was cut, and nothing
is written outside of it. -/
theorem buffer_of_stream (payloads : List Payload) :
    payloads.foldlM addPayloadWithin reset = .ok (ofPayloads payloads) ∧
      (ofPayloads payloads).length = min maxPacketFrequenciesValues payloads.flatten.length ∧
      (ofPayloads payloads).octets = payloads.flatten.take maxPacketFrequenciesValues ∧
      ∀ others : List Payload, others.flatten = payloads.flatten →
        ofPayloads others = ofPayloads payloads := by
  refine ⟨payloads_within payloads, ?_, ?_, fun others same => ?_⟩
  · rw [ofPayloads_eq]
    exact List.length_take ..
  · rw [ofPayloads_eq, octets_stored]
  · rw [ofPayloads_eq, ofPayloads_eq, same]

end AIEngine.PacketFrequencies
