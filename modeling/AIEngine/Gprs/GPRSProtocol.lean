import AIEngine.Frequency

/-!
# GTP packets (`GPRSProtocol.cc`, `GPRSInfo.h`, `FlowForwarder.cc`)

`gprs_header_` points into the memory of a packet, and the checker is what sets it: a packet of a
flow that has its forwarder already leaves it where it was. The model keeps the address, and every
packet comes with the memory as it is while the packet is processed.
-/

namespace AIEngine

structure GPRSInfo where
  imsi : BitVec 64 := 0
  imei : BitVec 64 := 0
  pdpTypeNumber : BitVec 8 := 0
  deriving DecidableEq, Repr

def GPRSInfo.reset (_ : GPRSInfo) : GPRSInfo := {}

/-- The message types that have a meaning here. -/
inductive GtpMessage where
  | createPdpContextRequest | createPdpContextResponse
  | updatePdpContextRequest | updatePdpContextResponse
  | deletePdpContextRequest | deletePdpContextResponse
  | tPdu
  deriving DecidableEq, Repr

/-- The tests on the type octet, in their order. -/
def GtpMessage.ofType (type : BitVec 8) : Option GtpMessage :=
  if type = 255 then some .tPdu
  else if type = 16 then some .createPdpContextRequest
  else if type = 17 then some .createPdpContextResponse
  else if type = 18 then some .updatePdpContextRequest
  else if type = 19 then some .updatePdpContextResponse
  else if type = 20 then some .deletePdpContextRequest
  else if type = 21 then some .deletePdpContextResponse
  else none

structure GtpPacket where
  memory : Nat → BitVec 8
  /-- `getPayload` -/
  address : Nat
  length : Int

/-! ### The fields of a PDP context request -/

/-- The octets from some place on, as far as they can be read. -/
abbrev Reader := Nat → Option (BitVec 8)

/-- What a `gprs_hdr` at the address `h` shows: whatever stands in memory. -/
def GtpPacket.behind (p : GtpPacket) (h : Nat) : Reader := fun i => some (p.memory (h + i))

/-- The octets of the packet and no others. -/
def GtpPacket.octets (p : GtpPacket) : Reader := fun i =>
  if (i : Int) < p.length then some (p.memory (p.address + i)) else none

namespace GtpHeader

/-- A `uint64_t` of a little-endian machine. -/
def word64 (read : Reader) (i : Nat) : Option (BitVec 64) := do
  let b0 ← read i
  let b1 ← read (i + 1)
  let b2 ← read (i + 2)
  let b3 ← read (i + 3)
  let b4 ← read (i + 4)
  let b5 ← read (i + 5)
  let b6 ← read (i + 6)
  let b7 ← read (i + 7)
  some (b7 ++ b6 ++ b5 ++ b4 ++ b3 ++ b2 ++ b1 ++ b0)

structure PdpContext where
  imsi : Option (BitVec 64)
  pdpType : Option (BitVec 8)
  deriving DecidableEq, Repr

/-- `presence` decides where the IMSI is, if there is one, and where the extensions begin. The
`gprs_create_pdp_hdr` is 8 octets behind the header, its union 5 further. -/
def imsi (read : Reader) : Option (Option (BitVec 64) × Nat) := do
  let presence ← read 12
  if presence = 0x02 then
    let value ← word64 read 13
    some (some value, 21)
  else if presence = 0x01 then
    let value ← word64 read 17
    some (some value, 25)
  else some (none, 25)

/-- An extension that is skipped when it is there: the place and the token behind it. -/
def skip (read : Reader) (token : BitVec 8) (size : Nat) (at' : Nat × BitVec 8) :
    Option (Nat × BitVec 8) :=
  if at'.2 = token then do
    let next ← read (at'.1 + size)
    some (at'.1 + size, next)
  else some at'

/-- The end user address: its length, which is swapped by `ntohs`, has to be 2. -/
def endUserAddress (read : Reader) (ext : Nat) (token : BitVec 8) : Option (Option (BitVec 8)) :=
  if token = 0x80 then do
    let high ← read ext
    let low ← read (ext + 1)
    if high = 0 ∧ low = 2 then do
      let typeNum ← read (ext + 3)
      some (some typeNum)
    else some none
  else some none

def pdpType (read : Reader) (at' : Nat × BitVec 8) : Option (Option (BitVec 8)) :=
  if at'.2 = 0x0f then do
    let ext := at'.1 + 2 + 12
    let token ← read ext
    -- charging characteristics
    if token = 0x1a then do
      let token ← read (ext + 3)
      endUserAddress read (ext + 4) token
    else endUserAddress read (ext + 1) token
  else some none

/-- What `process_create_pdp_context` reads. -/
def createPdpContext (read : Reader) : Option PdpContext := do
  let (imsi, ext) ← imsi read
  let token ← read ext
  -- routing area identity, recovery
  let routing ← skip read 0x03 7 (ext, token)
  let recovery ← skip read 0x0e 2 routing
  let type ← pdpType read recovery
  some { imsi := imsi, pdpType := type }

end GtpHeader

/-! ### The protocol -/

structure GPRSProtocol where
  infoCache : Cache
  /-- `gprs_header_` -/
  header : Option Nat := none
  /-- `mux_` is not expired -/
  mux : Bool := true
  totalBytes : Int := 0
  totalPackets : Nat := 0
  totalValidatedPackets : Nat := 0
  totalMalformedPackets : Nat := 0
  totals : GtpMessage → BitVec 32 := fun _ => 0
  infos : Obj → GPRSInfo := fun _ => {}
  flows : Obj → Flow := fun _ => Flow.new
  /-- the live flows -/
  table : List Obj := []

namespace GPRSProtocol

def setFlow (s : GPRSProtocol) (a : Obj) (f : Flow) : GPRSProtocol :=
  { s with flows := fun b => if b = a then f else s.flows b }

@[simp] theorem flows_setFlow_same (s : GPRSProtocol) (a : Obj) (f : Flow) :
    (s.setFlow a f).flows a = f := if_pos rfl

theorem flows_setFlow_other {s : GPRSProtocol} {a b : Obj} {f : Flow} (different : b ≠ a) :
    (s.setFlow a f).flows b = s.flows b := if_neg different

def setGPRSInfo (s : GPRSProtocol) (i : Obj) (info : GPRSInfo) : GPRSProtocol :=
  { s with infos := fun j => if j = i then info else s.infos j }

def count (s : GPRSProtocol) (m : GtpMessage) : GPRSProtocol :=
  { s with totals := fun n => if n = m then s.totals n + 1 else s.totals n }

def gprsChecker (s : GPRSProtocol) (p : GtpPacket) : Bool × GPRSProtocol :=
  if 8 ≤ p.length then
    let s := { s with header := some p.address }
    if p.memory p.address &&& 0x30 ≠ 0 then
      (true, { s with totalValidatedPackets := s.totalValidatedPackets + 1 })
    else (false, { s with totalMalformedPackets := s.totalMalformedPackets + 1 })
  else (false, { s with totalMalformedPackets := s.totalMalformedPackets + 1 })

def attachInfo (s : GPRSProtocol) (a : Obj) : Except Fault (Option Obj × GPRSProtocol) :=
  match s.infoCache.lock (s.flows a).gprsInfo with
  | some i => .ok (some i, s)
  | none =>
    match s.infoCache.acquire with
    | .ok (some i, c) =>
      .ok (some i, ({ s with infoCache := c }.setGPRSInfo i (s.infos i).reset).setFlow a
        { s.flows a with gprsInfo := some i })
    | .ok (none, c) => .ok (none, { s with infoCache := c })
    | .error e => .error e

/-- The setters are called for what was found. -/
def store (s : GPRSProtocol) (i : Obj) (c : GtpHeader.PdpContext) : GPRSProtocol :=
  s.setGPRSInfo i { s.infos i with
    imsi := c.imsi.getD (s.infos i).imsi
    pdpTypeNumber := c.pdpType.getD (s.infos i).pdpTypeNumber }

/-- Reading behind the header finds something at every place. -/
def processCreatePdpContext (s : GPRSProtocol) (a : Obj) (p : GtpPacket) (h : Nat) :
    Except Fault GPRSProtocol :=
  match s.attachInfo a with
  | .ok (some i, s) =>
    match GtpHeader.createPdpContext (p.behind h) with
    | some c => .ok (s.store i c)
    | none => .error .outOfBounds
  | .ok (none, s) => .ok s
  | .error e => .error e

/-- What the type behind the header asks for. A T-PDU goes up to the multiplexer. -/
def dispatch (s : GPRSProtocol) (a : Obj) (p : GtpPacket) (h : Nat) : Except Fault GPRSProtocol :=
  match GtpMessage.ofType (p.memory (h + 1)) with
  | some .createPdpContextRequest =>
    match s.processCreatePdpContext a p h with
    | .ok s => .ok (s.count .createPdpContextRequest)
    | .error e => .error e
  | some m => .ok (s.count m)
  | none => .ok s

def addPacket (s : GPRSProtocol) (bytes : Int) : GPRSProtocol :=
  { s with totalBytes := s.totalBytes + bytes, totalPackets := s.totalPackets + 1 }

def processFlow (s : GPRSProtocol) (a : Obj) (p : GtpPacket) : Except Fault GPRSProtocol :=
  if s.mux = true ∧ 0 < p.length then
    match s.header with
    | some h => (s.addPacket p.length).dispatch a p h
    | none => .error .nullDereference
  else .ok (s.addPacket p.length)

/-- The forwarder of the protocol is the only one above the lower UDP. -/
def ffGprs : Nat := 0

/-- `FlowForwarder::forwardFlow` -/
def forwardFlow (s : GPRSProtocol) (a : Obj) (p : GtpPacket) : Except Fault GPRSProtocol :=
  match (s.flows a).forwarder with
  | some _ => s.processFlow a p
  | none =>
    match s.gprsChecker p with
    | (true, s) => (s.setFlow a { s.flows a with forwarder := some ffGprs }).processFlow a p
    | (false, s) => .ok s

/-! ### Flows that come and go -/

def openFlow (s : GPRSProtocol) (a : Obj) : GPRSProtocol :=
  { s.setFlow a (s.flows a).reset with table := a :: s.table }

/-- `CacheManager::releaseFlow` gives the info back. -/
def endFlow (s : GPRSProtocol) (a : Obj) : GPRSProtocol :=
  { s with
    infoCache :=
      match s.infoCache.lock (s.flows a).gprsInfo with
      | some i => s.infoCache.release (some i)
      | none => s.infoCache
    table := s.table.erase a }

end GPRSProtocol

end AIEngine
