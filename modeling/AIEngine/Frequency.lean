import AIEngine.Flow

/-!
# The frequency engine (`FrequencyProtocol.cc`, `Frequencies.h`, `PacketFrequencies.h`)
-/

namespace AIEngine

abbrev Payload := List (BitVec 8)

/-- `std::array<int,256>`, indexed by the byte. -/
structure Frequencies where
  freqs : BitVec 8 → BitVec 32

def Frequencies.reset : Frequencies := { freqs := fun _ => 0 }

def Frequencies.addPayload (f : Frequencies) : Payload → Frequencies
  | [] => f
  | byte :: rest =>
    Frequencies.addPayload
      { freqs := fun b => if b = byte then f.freqs b + 1 else f.freqs b } rest

def maxPacketFrequenciesValues : Nat := 4096

structure PacketFrequencies where
  freqs : Nat → Int
  length : Nat

def PacketFrequencies.reset : PacketFrequencies := { freqs := fun _ => 0, length := 0 }

/-- The loop that copies the bytes, which are signed characters, behind the ones already there. -/
def PacketFrequencies.copy (f : PacketFrequencies) (data : Payload) : PacketFrequencies where
  freqs := fun i =>
    if f.length ≤ i then
      match data[i - f.length]? with
      | some byte => byte.toInt
      | none => f.freqs i
    else f.freqs i
  length := f.length + data.length

def PacketFrequencies.addPayload (f : PacketFrequencies) (data : Payload) : PacketFrequencies :=
  if maxPacketFrequenciesValues ≤ f.length then f
  else if maxPacketFrequenciesValues < f.length + data.length then
    f.copy (data.take (maxPacketFrequenciesValues - f.length))
  else f.copy data

/-- `lock()`: the object, while a slot of its cache still owns it. -/
def Cache.lock (c : Cache) (p : Option Obj) : Option Obj := p.filter fun a => decide (c.Owns a)

structure FrequencyProtocol where
  totalPackets : Nat := 0
  totalBytes : Nat := 0
  inspectionLimit : Int := 100
  freqsCache : Cache
  packetFreqsCache : Cache
  freqs : Obj → Frequencies := fun _ => Frequencies.reset
  packetFreqs : Obj → PacketFrequencies := fun _ => PacketFrequencies.reset

namespace FrequencyProtocol

/-- The frequencies of the flow, acquired and attached when it has none. -/
def attachFrequencies (p : FrequencyProtocol) (flow : Flow) :
    Except Fault (Option Obj × FrequencyProtocol × Flow) :=
  match p.freqsCache.lock flow.frequencies with
  | some a => .ok (some a, p, flow)
  | none =>
    match p.freqsCache.acquire with
    | .ok (some a, c) =>
      .ok (some a,
        { p with
          freqsCache := c
          freqs := fun b => if b = a then Frequencies.reset else p.freqs b },
        { flow with frequencies := some a })
    | .ok (none, c) => .ok (none, { p with freqsCache := c }, flow)
    | .error e => .error e

def attachPacketFrequencies (p : FrequencyProtocol) (flow : Flow) :
    Except Fault (Option Obj × FrequencyProtocol × Flow) :=
  match p.packetFreqsCache.lock flow.packetFrequencies with
  | some a => .ok (some a, p, flow)
  | none =>
    match p.packetFreqsCache.acquire with
    | .ok (some a, c) =>
      .ok (some a,
        { p with
          packetFreqsCache := c
          packetFreqs := fun b => if b = a then PacketFrequencies.reset else p.packetFreqs b },
        { flow with packetFrequencies := some a })
    | .ok (none, c) => .ok (none, { p with packetFreqsCache := c }, flow)
    | .error e => .error e

def addFrequencies (p : FrequencyProtocol) (a : Obj) (payload : Payload) : FrequencyProtocol :=
  { p with freqs := fun b => if b = a then (p.freqs b).addPayload payload else p.freqs b }

def addPacketFrequencies (p : FrequencyProtocol) (a : Obj) (payload : Payload) :
    FrequencyProtocol :=
  { p with
    packetFreqs := fun b => if b = a then (p.packetFreqs b).addPayload payload else p.packetFreqs b }

/-- The second call is guarded by the first pointer: with frequencies but no packet frequencies it
goes through a null pointer. -/
def addPayloads (p : FrequencyProtocol) (payload : Payload) :
    Option Obj → Option Obj → Except Fault FrequencyProtocol
  | none, _ => .ok p
  | some a, some b => .ok ((p.addFrequencies a payload).addPacketFrequencies b payload)
  | some _, none => .error .nullDereference

def processFlow (p : FrequencyProtocol) (flow : Flow) (payload : Payload) :
    Except Fault (FrequencyProtocol × Flow) := do
  let p := { p with totalPackets := p.totalPackets + 1, totalBytes := p.totalBytes + payload.length }
  let flow := { flow with totalPacketsL7 := flow.totalPacketsL7 + 1 }
  if flow.totalPackets.toInt < p.inspectionLimit then
    let (freq, p, flow) ← p.attachFrequencies flow
    let (pktFreq, p, flow) ← p.attachPacketFrequencies flow
    let p ← p.addPayloads payload freq pktFreq
    .ok (p, flow)
  else .ok (p, flow)

/-! ### What attaching can do -/

theorem attachFrequencies_cases {p p' : FrequencyProtocol} {flow flow' : Flow} {r : Option Obj}
    (h : p.attachFrequencies flow = .ok (r, p', flow')) :
    (p' = p ∧ flow' = flow) ∨
    (∃ a c g, p.freqsCache.lock flow.frequencies = none ∧
      p.freqsCache.acquire = .ok (some a, c) ∧ p' = { p with freqsCache := c, freqs := g } ∧
      flow' = { flow with frequencies := some a }) ∨
    (∃ c, p.freqsCache.acquire = .ok (none, c) ∧ p' = { p with freqsCache := c } ∧
      flow' = flow) := by
  unfold attachFrequencies at h
  split at h
  · cases h
    exact Or.inl ⟨rfl, rfl⟩
  · rename_i expired
    split at h
    · rename_i a c acquired
      cases h
      exact Or.inr (Or.inl ⟨a, c, _, expired, acquired, rfl, rfl⟩)
    · rename_i c failed
      cases h
      exact Or.inr (Or.inr ⟨c, failed, rfl, rfl⟩)
    · exact absurd h (by simp)

theorem attachPacketFrequencies_cases {p p' : FrequencyProtocol} {flow flow' : Flow}
    {r : Option Obj} (h : p.attachPacketFrequencies flow = .ok (r, p', flow')) :
    (p' = p ∧ flow' = flow) ∨
    (∃ a c g, p.packetFreqsCache.lock flow.packetFrequencies = none ∧
      p.packetFreqsCache.acquire = .ok (some a, c) ∧
      p' = { p with packetFreqsCache := c, packetFreqs := g } ∧
      flow' = { flow with packetFrequencies := some a }) ∨
    (∃ c, p.packetFreqsCache.acquire = .ok (none, c) ∧ p' = { p with packetFreqsCache := c } ∧
      flow' = flow) := by
  unfold attachPacketFrequencies at h
  split at h
  · cases h
    exact Or.inl ⟨rfl, rfl⟩
  · rename_i expired
    split at h
    · rename_i a c acquired
      cases h
      exact Or.inr (Or.inl ⟨a, c, _, expired, acquired, rfl, rfl⟩)
    · rename_i c failed
      cases h
      exact Or.inr (Or.inr ⟨c, failed, rfl, rfl⟩)
    · exact absurd h (by simp)

/-- The payload goes into the objects, not into the caches. -/
theorem addPayloads_caches {p p' : FrequencyProtocol} {payload : Payload} {freq pktFreq : Option Obj}
    (h : p.addPayloads payload freq pktFreq = .ok p') :
    p'.freqsCache = p.freqsCache ∧ p'.packetFreqsCache = p.packetFreqsCache := by
  cases freq with
  | none =>
    obtain rfl := Except.ok.inj h
    exact ⟨rfl, rfl⟩
  | some a =>
    cases pktFreq with
    | none => exact absurd h (by simp [addPayloads])
    | some b =>
      obtain rfl := Except.ok.inj h
      exact ⟨rfl, rfl⟩

end FrequencyProtocol

end AIEngine
