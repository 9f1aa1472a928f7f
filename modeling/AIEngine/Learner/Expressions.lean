import AIEngine.Learner.LearnerEngine

/-!
# The expression that is learned

`substitute_places`: the loop over the text of the expression is the compaction of the places of a
pattern. What the pattern asks for is then looked up in the packets.
-/

namespace AIEngine

open Patterns

/-! ### The text -/

namespace LearnerEngine

/-- A row of `.?` -/
def wildcardText (n : Nat) : List Char := text (List.replicate n .optional)

theorem wildcardText_succ (n : Nat) : wildcardText (n + 1) = '.' :: '?' :: wildcardText n := rfl

theorem length_wildcardText (n : Nat) : (wildcardText n).length = 2 * n := by
  induction n with
  | zero => rfl
  | succ n ih =>
    rw [wildcardText_succ, List.length_cons, List.length_cons, ih]
    omega

theorem totalTokens_other {c : Char} (other : c ≠ '.') (rest : List Char) :
    totalTokens (c :: rest) = 0 := by
  unfold totalTokens
  split
  · rename_i shape
    exact absurd (List.cons.inj shape).1 other
  · rfl

theorem totalTokens_row (n : Nat) {tail : List Char} (stops : totalTokens tail = 0) :
    totalTokens (wildcardText n ++ tail) = n := by
  induction n with
  | zero => exact stops
  | succ n ih => exact congrArg (· + 1) ih

theorem substitute_cons (c : Char) (rest : List Char) : substitute 0 (c :: rest) =
    if totalTokens (c :: rest) = 0 then c :: substitute 0 rest
    else if 1 < totalTokens (c :: rest) then
      '.' :: '{' :: (decimal (totalTokens (c :: rest)) ++
        '}' :: substitute (2 * totalTokens (c :: rest) - 1) rest)
    else c :: (rest.take 1 ++ substitute 1 rest) := rfl

theorem substitute_skip (skipped tail : List Char) :
    substitute skipped.length (skipped ++ tail) = substitute 0 tail := by
  induction skipped with
  | nil => rfl
  | cons c skipped ih => exact ih

theorem substitute_other {c : Char} (other : c ≠ '.') (rest : List Char) :
    substitute 0 (c :: rest) = c :: substitute 0 rest := by
  rw [substitute_cons, if_pos (totalTokens_other other rest)]

/-- A row of `.?` is written as the items of as many wildcards. -/
theorem substitute_row (n : Nat) {tail : List Char} (stops : totalTokens tail = 0) :
    substitute 0 (wildcardText n ++ tail) = text (wildcards n) ++ substitute 0 tail := by
  match n with
  | 0 => rfl
  | 1 =>
    have total : totalTokens ('.' :: '?' :: tail) = 1 := totalTokens_row 1 stops
    show substitute 0 ('.' :: '?' :: tail) = _
    rw [substitute_cons, total]
    rfl
  | n + 2 =>
    have total : totalTokens ('.' :: '?' :: (wildcardText (n + 1) ++ tail)) = n + 2 :=
      totalTokens_row (n + 2) stops
    have skip := substitute_skip ('?' :: wildcardText (n + 1)) tail
    rw [List.length_cons, length_wildcardText, List.cons_append] at skip
    show substitute 0 ('.' :: '?' :: (wildcardText (n + 1) ++ tail)) = _
    rw [substitute_cons, total, if_neg (by omega), if_pos (by omega),
      show 2 * (n + 2) - 1 = 2 * (n + 1) + 1 by omega, skip]
    simp [wildcards, text, Item.text]

theorem digitChar_plain : ∀ n < 16, n.digitChar ≠ '.' := by
  decide

theorem substitute_octet (b : BitVec 8) (tail : List Char) :
    substitute 0 (token (some b) ++ tail) = (Item.octet b).text ++ substitute 0 tail := by
  have bound := b.isLt
  have high := digitChar_plain (b.toNat / 16) (by omega)
  have low := digitChar_plain (b.toNat % 16) (by omega)
  show substitute 0 ('\\' :: 'x' :: (b.toNat / 16).digitChar :: (b.toNat % 16).digitChar :: tail) = _
  rw [substitute_other (by decide), substitute_other (by decide), substitute_other high,
    substitute_other low]
  rfl

/-- The places behind a row of wildcards. -/
theorem substitute_places (n : Nat) (places : List (Option (BitVec 8))) :
    substitute 0 (wildcardText n ++ places.flatMap token) = text (compact n places) := by
  induction places generalizing n with
  | nil =>
    rw [List.flatMap_nil, substitute_row n rfl]
    exact List.append_nil _
  | cons place places ih =>
    cases place with
    | none =>
      have row : wildcardText n ++ (none :: places).flatMap token =
          wildcardText (n + 1) ++ places.flatMap token := by
        unfold wildcardText text
        rw [List.replicate_succ', List.flatMap_append, List.append_assoc]
        rfl
      rw [row]
      exact ih (n + 1)
    | some b =>
      have stops : totalTokens (token (some b) ++ places.flatMap token) = 0 :=
        totalTokens_other (by decide) _
      have next : substitute 0 (places.flatMap token) = text (compact 0 places) := ih 0
      rw [List.flatMap_cons, substitute_row n stops, substitute_octet, next]
      unfold text
      rw [compact, List.flatMap_append, List.flatMap_cons]

theorem regexExpression_compute (e : LearnerEngine) (it : Iteration) :
    (e.compute it).regexExpression = '^' :: text (compact 0 (e.places it)) := by
  show substitute 0 ('^' :: (e.places it).flatMap token) = _
  rw [substitute_other (by decide)]
  exact congrArg ('^' :: ·) (substitute_places 0 (e.places it))

end LearnerEngine

/-! ### The packets -/

namespace PacketFrequencies

/-- The object has what a text begins with. -/
structure Holds (f : PacketFrequencies) (s : Payload) : Prop where
  length : f.length = min maxPacketFrequenciesValues s.length
  values : ∀ i b, i < f.length → s[i]? = some b → f.freqs i = b.toInt

theorem holds_ofPayloads (payloads : List Payload) : (ofPayloads payloads).Holds payloads.flatten := by
  rw [ofPayloads_eq]
  refine ⟨List.length_take .., fun i b within here => ?_⟩
  have kept : i < maxPacketFrequenciesValues := by
    have within : i < (payloads.flatten.take maxPacketFrequenciesValues).length := within
    rw [List.length_take] at within
    omega
  simp only [stored, List.getElem?_take_of_lt kept, here]
  rfl

end PacketFrequencies

namespace LearnerEngine

theorem valueAt_holds {f : PacketFrequencies} {s : Payload} (holds : f.Holds s) {i : Nat}
    (within : i < f.length) {b : BitVec 8} (here : s[i]? = some b) : valueAt f i = b := by
  unfold valueAt PacketFrequencies.index
  rw [holds.values i b within here]
  exact PacketFrequencies.signed_octet b

theorem tokenCandidate_mem {counts : ByteCounts} (some : 0 < counts.length) :
    tokenCandidate counts ∈ counts.values := by
  have walk : ∀ (entries : ByteCounts) (best : BitVec 8 × BitVec 32), (∀ entry ∈ entries, entry ∈ counts) →
      best.1 ∈ counts.values →
      (entries.foldl (fun best entry => if best.2.toInt < entry.2.toInt then entry else best) best).1 ∈
        counts.values := by
    intro entries
    induction entries with
    | nil => exact fun _ _ known => known
    | cons entry entries ih =>
      intro best all known
      refine ih _ (fun other member => all other (List.mem_cons_of_mem entry member)) ?_
      show (if best.2.toInt < entry.2.toInt then entry else best).1 ∈ _
      split
      · exact List.mem_map_of_mem (all entry List.mem_cons_self)
      · exact known
  refine walk counts _ (fun _ member => member) ?_
  cases counts with
  | nil => cases some
  | cons entry rest => exact List.mem_cons_self

section Sure

variable {e : LearnerEngine} {packets : List (List Payload)}

/-- Where all packets are alike, the map has their value only. -/
theorem values_alike (learned : Learned (packets.map PacketFrequencies.ofPayloads) e) {i : Nat}
    (alike : ∀ p ∈ packets, ∀ q ∈ packets, p.flatten[i]? = q.flatten[i]?) {p : List Payload}
    (member : p ∈ packets) {v : BitVec 8} (known : v ∈ (e.qArray i).values) :
    p.flatten[i]? = some v := by
  obtain ⟨f, listed, within, rfl⟩ := (learned.values i v).mp known
  obtain ⟨q, other, rfl⟩ := List.mem_map.mp listed
  have holds := PacketFrequencies.holds_ofPayloads q
  have length := holds.length
  have inside : i < q.flatten.length := by omega
  have here : q.flatten[i]? = some q.flatten[i] := List.getElem?_eq_getElem inside
  rw [alike p member q other, here, valueAt_holds holds within here]

theorem places_alike (learned : Learned (packets.map PacketFrequencies.ofPayloads) e)
    (it : Iteration)
    (sure : ∀ i : Nat, (∀ p ∈ packets, ∀ q ∈ packets, p.flatten[i]? = q.flatten[i]?) ∨
      e.getQualityByte i ≤ 80)
    {p : List Payload} (member : p ∈ packets) {i : Nat} {b : BitVec 8}
    (asked : (e.places it)[i]? = some (some b)) : p.flatten[i]? = some b := by
  unfold places at asked
  rw [List.getElem?_map, Option.map_eq_some_iff] at asked
  obtain ⟨j, ranged, placed⟩ := asked
  obtain ⟨within, rfl⟩ := List.getElem?_eq_some_iff.mp ranged
  rw [List.getElem_range] at placed
  unfold place at placed
  split at placed
  · rename_i good
    obtain rfl := Option.some.inj placed
    have alike := (sure i).resolve_right (by omega)
    have perm := it.perm (e.qArray i)
    have candidate : tokenCandidate (it.order (e.qArray i)) ∈ (it.order (e.qArray i)).values :=
      tokenCandidate_mem (by rw [perm.length_eq]; exact good.2)
    exact values_alike learned alike member ((perm.map (·.1)).mem_iff.mp candidate)
  · cases placed

theorem length_places (learned : Learned (packets.map PacketFrequencies.ofPayloads) e)
    (it : Iteration) {n : Nat}
    (room : ∀ p ∈ packets, min maxPacketFrequenciesValues p.flatten.length ≤ n) :
    (e.places it).length ≤ n := by
  have longest : e.length ≤ n := by
    refine (learned.longest n).mpr fun f listed => ?_
    obtain ⟨p, member, rfl⟩ := List.mem_map.mp listed
    rw [(PacketFrequencies.holds_ofPayloads p).length]
    exact room p member
  unfold places computeLength
  rw [List.length_map, List.length_range]
  split <;> omega

end Sure

/-- The expression that is learned from packets of one length, where they are alike or the quality
is low, matches all of them. -/
theorem regexExpression_matches (e : LearnerEngine) (it : Iteration) (packets : List (List Payload))
    (same : ∀ p ∈ packets, ∀ q ∈ packets, p.flatten.length = q.flatten.length)
    (sure : ∀ i : Nat, (∀ p ∈ packets, ∀ q ∈ packets, p.flatten[i]? = q.flatten[i]?) ∨
      (e.learn (packets.map PacketFrequencies.ofPayloads)).getQualityByte i ≤ 80) :
    ∃ items, parse ((e.learn (packets.map PacketFrequencies.ofPayloads)).compute it).regexExpression =
      some items ∧ ∀ p ∈ packets, Matches items p.flatten := by
  have learned := learned_run e (packets.map PacketFrequencies.ofPayloads)
  generalize e.learn (packets.map PacketFrequencies.ofPayloads) = e at learned sure ⊢
  refine ⟨compact 0 (e.places it), ?_, fun p member => ?_⟩
  · rw [regexExpression_compute]
    refine parse_text fun n asked => ?_
    have bound := exactly_mem_compact asked
    have short : (e.places it).length ≤ maxPacketFrequenciesValues :=
      length_places learned it fun _ _ => Nat.min_le_left _ _
    have values : maxPacketFrequenciesValues ≤ maxRepeat := by decide
    omega
  · refine matches_compact ?_ fun i b asked => ?_
    · rw [Nat.zero_add]
      refine length_places learned it fun q other => ?_
      rw [same q other p member]
      exact Nat.min_le_right _ _
    · rw [Nat.zero_add]
      exact places_alike learned it sure member asked

/-- Two packets that differ in their second octet. -/
theorem regexExpression_matches_two : ∃ items,
    parse ((({} : LearnerEngine).learn
      [PacketFrequencies.ofPayloads [[0xaa, 1]], PacketFrequencies.ofPayloads [[0xaa], [2]]]).compute
        ⟨id, fun _ => List.Perm.refl _⟩).regexExpression = some items ∧
      ∀ p ∈ [[[0xaa, 1]], [[0xaa], [2]]], Matches items p.flatten := by
  refine regexExpression_matches {} ⟨id, fun _ => List.Perm.refl _⟩ [[[0xaa, 1]], [[0xaa], [2]]]
    (by decide) fun i => ?_
  match i with
  | 0 => exact Or.inl (by decide)
  | 1 => exact Or.inr (by decide)
  | i + 2 => exact Or.inl (by simp)

end LearnerEngine

end AIEngine
