import AIEngine.Applications.Reads
import AIEngine.Gprs.ContextBounds

/-!
# SNMP (`SNMPProtocol.h`, `SNMPProtocol.cc`)

The header is four octets: a code, a length, a type and the length of the version, behind which the
community stands.
-/

namespace AIEngine

structure SNMPProtocol where
  totalBytes : Int := 0
  totalPackets : Nat := 0
  totalValidatedPackets : Nat := 0
  totalMalformedPackets : Nat := 0
  totalSnmpGetRequests : Nat := 0
  totalSnmpGetNextRequests : Nat := 0
  totalSnmpGetResponses : Nat := 0
  totalSnmpSetRequests : Nat := 0
  deriving DecidableEq, Repr

namespace SNMPProtocol

def headerSize : Nat := 4

/-- The ports of the packet are the source and the destination. -/
def snmpChecker (s : SNMPProtocol) (p : L7Packet) (source dest : BitVec 16) : Bool × SNMPProtocol :=
  if headerSize ≤ p.payload.length then
    if source = 161 ∨ dest = 161 then
      (true, { s with totalValidatedPackets := s.totalValidatedPackets + 1 })
    else (false, { s with totalMalformedPackets := s.totalMalformedPackets + 1 })
  else (false, { s with totalMalformedPackets := s.totalMalformedPackets + 1 })

/-- A flow keeps its first anomaly. -/
def noteBogus (f : Flow) : Flow :=
  if f.pa = .none then f.setPacketAnomaly .snmpBogusHeader else f

def addPacket (s : SNMPProtocol) (p : L7Packet) : SNMPProtocol :=
  { s with totalBytes := s.totalBytes + p.payload.length, totalPackets := s.totalPackets + 1 }

def countRequest (s : SNMPProtocol) (tag : BitVec 8) : SNMPProtocol :=
  if tag = 0xa0 then { s with totalSnmpGetRequests := s.totalSnmpGetRequests + 1 }
  else if tag = 0xa1 then { s with totalSnmpGetNextRequests := s.totalSnmpGetNextRequests + 1 }
  else if tag = 0xa2 then { s with totalSnmpGetResponses := s.totalSnmpGetResponses + 1 }
  else if tag = 0xa3 then { s with totalSnmpSetRequests := s.totalSnmpSetRequests + 1 }
  else s

/-- The community, which stands at `data[offset]`. -/
def processCommunity (s : SNMPProtocol) (flow : Flow) (p : L7Packet) (offset : Nat) :
    Except Failure (SNMPProtocol × Flow) := do
  let tag ← p.byte (headerSize + offset)
  if tag = 0x04 then
    let communityLength ← p.byte (headerSize + (offset + 1))
    if (p.payload.length : Int) - offset < communityLength.toNat then .ok (s, noteBogus flow)
    else
      let tag ← p.byte (headerSize + (offset + communityLength.toNat + 2))
      .ok (s.countRequest tag, flow)
  else .ok (s, flow)

def processFlow (s : SNMPProtocol) (flow : Flow) (p : L7Packet) :
    Except Failure (SNMPProtocol × Flow) := do
  let s := s.addPacket p
  let length ← p.byte 1
  if p.payload.length < length.toNat then .ok (s, noteBogus flow)
  else
    let version ← p.byte 3
    if p.payload.length < version.toNat then .ok (s, noteBogus flow)
    else s.processCommunity flow p version.toNat

/-! ### What is read -/

/-- The tag behind the version is inside, and so is what a community in front of it leads to. -/
def CommunityInside (p : L7Packet) (offset : Nat) : Prop :=
  headerSize + offset < p.payload.length ∧
    (p.octetAt (headerSize + offset) = 0x04 → headerSize + (offset + 1) < p.payload.length ∧
      ((p.payload.length : Int) - offset < (p.octetAt (headerSize + (offset + 1))).toNat ∨
        headerSize + (offset + (p.octetAt (headerSize + (offset + 1))).toNat + 2) <
          p.payload.length))

/-- One of the two lengths of the header is too large, or the community is inside. -/
def FieldsInside (p : L7Packet) : Prop :=
  p.payload.length < (p.octetAt 1).toNat ∨ p.payload.length < (p.octetAt 3).toNat ∨
    CommunityInside p (p.octetAt 3).toNat

variable {p : L7Packet}

theorem processCommunity_inside (s : SNMPProtocol) (flow : Flow) (bare : p.beyond = [])
    (offset : Nat) : ReadsInside (s.processCommunity flow p offset) ↔ CommunityInside p offset := by
  unfold processCommunity CommunityInside
  rw [HttpPacket.readsInside_byte, HttpPacket.memory_bare bare]
  refine and_congr_right fun _ => ?_
  by_cases community : p.octetAt (headerSize + offset) = 0x04
  · rw [if_pos community, HttpPacket.readsInside_byte, HttpPacket.memory_bare bare,
      forall_prop_of_true community]
    refine and_congr_right fun _ => ?_
    by_cases long : (p.payload.length : Int) - offset <
        (p.octetAt (headerSize + (offset + 1))).toNat
    · rw [if_pos long]
      exact iff_of_true (readsInside_ok _) (Or.inl long)
    · rw [if_neg long, HttpPacket.readsInside_byte, HttpPacket.memory_bare bare, or_iff_right long]
      exact and_iff_left (readsInside_ok _)
  · rw [if_neg community, forall_prop_of_false community]
    exact iff_of_true (readsInside_ok _) trivial

theorem processFlow_inside (s : SNMPProtocol) (flow : Flow) (bare : p.beyond = [])
    (header : headerSize ≤ p.payload.length) :
    ReadsInside (s.processFlow flow p) ↔ FieldsInside p := by
  have whole : 4 ≤ p.payload.length := header
  unfold processFlow FieldsInside
  rw [HttpPacket.readsInside_byte, HttpPacket.memory_bare bare, and_iff_right (by omega)]
  by_cases length : p.payload.length < (p.octetAt 1).toNat
  · rw [if_pos length]
    exact iff_of_true (readsInside_ok _) (Or.inl length)
  · rw [if_neg length, or_iff_right length, HttpPacket.readsInside_byte, HttpPacket.memory_bare bare,
      and_iff_right (by omega)]
    by_cases version : p.payload.length < (p.octetAt 3).toNat
    · rw [if_pos version]
      exact iff_of_true (readsInside_ok _) (Or.inl version)
    · rw [if_neg version, or_iff_right version]
      exact processCommunity_inside _ flow bare _

theorem snmpChecker_accepts (s : SNMPProtocol) (p : L7Packet) (source dest : BitVec 16) :
    (s.snmpChecker p source dest).1 = true ↔
      headerSize ≤ p.payload.length ∧ (source = 161 ∨ dest = 161) := by
  unfold snmpChecker
  split
  · rename_i header
    rw [and_iff_right header]
    split
    · rename_i port
      exact iff_of_true rfl port
    · rename_i port
      exact iff_of_false Bool.false_ne_true port
  · rename_i header
    exact iff_of_false (by simp) fun both => header both.1

end SNMPProtocol

/-! ### Both walks -/

/-- What a checker accepts is read inside. -/
structure WalksInside (g : GPRSProtocol) (a : Obj) (request : GtpPacket) (s : SNMPProtocol)
    (flow : Flow) (payload : Bytes) (direction : FlowDirection) (source dest : BitVec 16) :
    Prop where
  gprs : (g.gprsChecker request).1 = true →
    (g.gprsChecker request).2.processCreateWithin a request ≠ .error .outOfBounds
  snmp : (s.snmpChecker { payload := payload, direction := direction } source dest).1 = true →
    ReadsInside ((s.snmpChecker { payload := payload, direction := direction } source dest).2
      |>.processFlow flow { payload := payload, direction := direction })

/-- Both walks stay inside exactly when the fields that the payloads announce are there. -/
theorem walksInside_iff (g : GPRSProtocol) (a : Obj) (request : GtpPacket) (s : SNMPProtocol)
    (flow : Flow) (payload : Bytes) (direction : FlowDirection) (source dest : BitVec 16) :
    WalksInside g a request s flow payload direction source dest ↔
      ((g.gprsChecker request).1 = true → g.HasInfo a →
        (request.lastRead : Int) < request.length) ∧
      (SNMPProtocol.headerSize ≤ payload.length → source = 161 ∨ dest = 161 →
        SNMPProtocol.FieldsInside { payload := payload, direction := direction }) := by
  have gprs : ((g.gprsChecker request).2.processCreateWithin a request ≠ .error .outOfBounds) ↔
      (g.HasInfo a → (request.lastRead : Int) < request.length) := by
    rw [GPRSProtocol.processCreateWithin_iff, GPRSProtocol.gprsChecker_hasInfo]
  have snmp : ((s.snmpChecker { payload := payload, direction := direction } source dest).1 = true →
      ReadsInside ((s.snmpChecker { payload := payload, direction := direction } source dest).2
        |>.processFlow flow { payload := payload, direction := direction })) ↔
      (SNMPProtocol.headerSize ≤ payload.length → source = 161 ∨ dest = 161 →
        SNMPProtocol.FieldsInside { payload := payload, direction := direction }) := by
    rw [SNMPProtocol.snmpChecker_accepts, and_imp]
    exact imp_congr_right fun header =>
      imp_congr_right fun _ => SNMPProtocol.processFlow_inside _ flow rfl header
  rw [← snmp, ← gprs]
  exact ⟨fun inside => ⟨inside.gprs, inside.snmp⟩, fun both => ⟨both.1, both.2⟩⟩

/-- Four octets to the port of SNMP whose version is empty. -/
theorem not_always_walksInside : ¬∀ g a request s flow payload direction source dest,
    WalksInside g a request s flow payload direction source dest := by
  intro all
  let g : GPRSProtocol := { infoCache := { id := .info .gprs } }
  have inside := (all g { home := .flow 0, serial := 0 } ⟨fun _ => 0, 0, 0⟩ {} Flow.new
    [0x30, 0, 2, 0] .forward 161 0).snmp rfl
  exact inside rfl

end AIEngine
