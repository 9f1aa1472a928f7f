import AIEngine.Http.Stock

/-!
# Payloads of the frequency engine

Its two pools run out independently. The second object is used whenever there is a first one.
-/

namespace AIEngine

namespace Cache

/-- What is acquired from a pool without an empty slot is an object as long as there is one. -/
theorem stocked_acquire_iff {c : Cache} (stocked : c.Stocked) :
    ∃ r c', c.acquire = .ok (r, c') ∧ c'.Stocked ∧ (r.isSome = true ↔ 0 < c.total) := by
  obtain ⟨r, c', acquired, after⟩ := stocked_acquire stocked
  refine ⟨r, c', acquired, after, ?_⟩
  cases r with
  | none =>
    obtain ⟨empty, -⟩ := acquire_none acquired
    simp only [Option.isSome_none, Bool.false_eq_true, false_iff]
    omega
  | some a =>
    obtain ⟨room, -⟩ := acquire_some acquired
    simp only [Option.isSome_some, true_iff]
    exact room

end Cache

namespace FrequencyProtocol

variable {p : FrequencyProtocol}

/-- The flow has frequencies, or gets some. -/
def HasFrequencies (p : FrequencyProtocol) (flow : Flow) : Prop :=
  (p.freqsCache.lock flow.frequencies).isSome = true ∨ 0 < p.freqsCache.total

/-- The flow has packet frequencies, or gets some. -/
def HasPacketFrequencies (p : FrequencyProtocol) (flow : Flow) : Prop :=
  (p.packetFreqsCache.lock flow.packetFrequencies).isSome = true ∨ 0 < p.packetFreqsCache.total

structure Stocked (p : FrequencyProtocol) : Prop where
  freqs : p.freqsCache.Stocked
  packetFreqs : p.packetFreqsCache.Stocked

/-- What the pools do not have is left unattached. -/
structure Unattached (p : FrequencyProtocol) (flow f : Flow) : Prop where
  freqs : ¬p.HasFrequencies flow → f.frequencies = flow.frequencies
  packetFreqs : ¬p.HasPacketFrequencies flow → f.packetFrequencies = flow.packetFrequencies

/-- What a payload leaves in order. -/
structure Keeps (flow : Flow) (q : FrequencyProtocol) (f : Flow) : Prop where
  stocked : q.Stocked
  infos : ∀ x, f.info x = flow.info x

theorem attachFrequencies_stocked (flow : Flow) (stocked : p.Stocked) :
    ∃ r q f, p.attachFrequencies flow = .ok (r, q, f) ∧ Keeps flow q f ∧
      (r.isSome = true ↔ p.HasFrequencies flow) ∧
      (¬p.HasFrequencies flow → f.frequencies = flow.frequencies) ∧
      q.packetFreqsCache = p.packetFreqsCache ∧ f.packetFrequencies = flow.packetFrequencies := by
  unfold attachFrequencies HasFrequencies
  cases locked : p.freqsCache.lock flow.frequencies with
  | some a =>
    exact ⟨some a, p, flow, rfl, ⟨stocked, fun _ => rfl⟩, by simp, fun _ => rfl, rfl, rfl⟩
  | none =>
    obtain ⟨r, c, acquired, after, some_iff⟩ := Cache.stocked_acquire_iff stocked.freqs
    rw [acquired]
    cases r with
    | none =>
      refine ⟨none, _, flow, rfl, ⟨⟨after, stocked.packetFreqs⟩, fun _ => rfl⟩, ?_, fun _ => rfl, rfl,
        rfl⟩
      simpa using some_iff
    | some a =>
      refine ⟨some a, _, _, rfl, ⟨⟨after, stocked.packetFreqs⟩, fun x => ?_⟩, ?_, fun none => ?_, rfl,
        rfl⟩
      · cases x <;> rfl
      · simpa using some_iff
      · exact absurd (Or.inr (some_iff.mp rfl)) none

theorem attachPacketFrequencies_stocked (flow : Flow) (stocked : p.Stocked) :
    ∃ r q f, p.attachPacketFrequencies flow = .ok (r, q, f) ∧ Keeps flow q f ∧
      (r.isSome = true ↔ p.HasPacketFrequencies flow) ∧
      (¬p.HasPacketFrequencies flow → f.packetFrequencies = flow.packetFrequencies) ∧
      f.frequencies = flow.frequencies := by
  unfold attachPacketFrequencies HasPacketFrequencies
  cases locked : p.packetFreqsCache.lock flow.packetFrequencies with
  | some a => exact ⟨some a, p, flow, rfl, ⟨stocked, fun _ => rfl⟩, by simp, fun _ => rfl, rfl⟩
  | none =>
    obtain ⟨r, c, acquired, after, some_iff⟩ := Cache.stocked_acquire_iff stocked.packetFreqs
    rw [acquired]
    cases r with
    | none =>
      refine ⟨none, _, flow, rfl, ⟨⟨stocked.freqs, after⟩, fun _ => rfl⟩, ?_, fun _ => rfl, rfl⟩
      simpa using some_iff
    | some a =>
      refine ⟨some a, _, _, rfl, ⟨⟨stocked.freqs, after⟩, fun x => ?_⟩, ?_, fun none => ?_, rfl⟩
      · cases x <;> rfl
      · simpa using some_iff
      · exact absurd (Or.inr (some_iff.mp rfl)) none

/-- The first object without the second. -/
def Halved (p : FrequencyProtocol) (flow : Flow) : Prop :=
  flow.totalPackets.toInt < p.inspectionLimit ∧ p.HasFrequencies flow ∧ ¬p.HasPacketFrequencies flow

/-- A payload fails exactly then, and otherwise the pools stay without empty slots. -/
theorem processFlow_cases (flow : Flow) (payload : Payload) (stocked : p.Stocked) :
    (p.Halved flow ∧ p.processFlow flow payload = .error .nullDereference) ∨
    (¬p.Halved flow ∧ ∃ q f, p.processFlow flow payload = .ok (q, f) ∧ Keeps flow q f ∧
      p.Unattached flow f) := by
  generalize counting : ({ p with
    totalPackets := p.totalPackets + 1
    totalBytes := p.totalBytes + payload.length } : FrequencyProtocol) = p₀
  generalize counted : ({ flow with totalPacketsL7 := flow.totalPacketsL7 + 1 } : Flow) = f₀
  have stocked₀ : p₀.Stocked := by
    rw [← counting]
    exact ⟨stocked.freqs, stocked.packetFreqs⟩
  have infos₀ : ∀ x, f₀.info x = flow.info x := by
    intro x
    rw [← counted]
    cases x <;> rfl
  have halved : p.Halved flow ↔ p₀.Halved f₀ := by
    rw [← counting, ← counted]
    exact Iff.rfl
  have left : ∀ f, p.Unattached flow f ↔ p₀.Unattached f₀ f := by
    intro f
    rw [← counting, ← counted]
    exact ⟨fun h => ⟨h.freqs, h.packetFreqs⟩, fun h => ⟨h.freqs, h.packetFreqs⟩⟩
  have limit : f₀.totalPackets.toInt < p₀.inspectionLimit ↔
      flow.totalPackets.toInt < p.inspectionLimit := by
    rw [← counting, ← counted]
  simp only [halved, left]
  unfold processFlow
  simp only [counting, counted]
  by_cases few : flow.totalPackets.toInt < p.inspectionLimit
  · rw [if_pos few]
    obtain ⟨freq, p₁, f₁, first, kept₁, freq_iff, missing, cache, pointer⟩ :=
      attachFrequencies_stocked f₀ stocked₀
    obtain ⟨pktFreq, p₂, f₂, second, kept₂, pktFreq_iff, missing', pointer'⟩ :=
      attachPacketFrequencies_stocked f₁ kept₁.stocked
    have infos : ∀ x, f₂.info x = flow.info x := fun x =>
      (kept₂.infos x).trans ((kept₁.infos x).trans (infos₀ x))
    have same : p₁.HasPacketFrequencies f₁ ↔ p₀.HasPacketFrequencies f₀ := by
      unfold HasPacketFrequencies
      rw [cache, pointer]
    rw [same] at pktFreq_iff missing'
    have unattached : p₀.Unattached f₀ f₂ :=
      ⟨fun none => pointer'.trans (missing none), fun none => (missing' none).trans pointer⟩
    simp only [first, second, bind, Except.bind]
    cases freq with
    | none =>
      refine Or.inr ⟨fun half => ?_, p₂, f₂, rfl, ⟨kept₂.stocked, infos⟩, unattached⟩
      exact absurd (freq_iff.mpr half.2.1) (by simp)
    | some a =>
      cases pktFreq with
      | none =>
        refine Or.inl ⟨⟨limit.mpr few, freq_iff.mp rfl, fun has => ?_⟩, rfl⟩
        exact absurd (pktFreq_iff.mpr has) (by simp)
      | some b =>
        refine Or.inr ⟨fun half => half.2.2 (pktFreq_iff.mp rfl), _, f₂, rfl, ⟨?_, infos⟩, unattached⟩
        exact ⟨kept₂.stocked.freqs, kept₂.stocked.packetFreqs⟩
  · rw [if_neg few]
    exact Or.inr ⟨fun half => few (limit.mp half.1), p₀, f₀, rfl, ⟨stocked₀, infos₀⟩,
      fun _ => rfl, fun _ => rfl⟩

end FrequencyProtocol

end AIEngine
