import AIEngine.Applications.Inspector

/-!
# SSL (`SSLProtocol.cc`, `SSLInfo.h`)

The first two packets of a flow are read record by record for a client hello, whose server name is
the host. A banned name ends the work on the hello, but not on the packet, and the info is not
marked. Multi-octet fields are read where the packed structures have them.
-/

namespace AIEngine

structure SSLInfo where
  dataPdus : Nat := 0
  deriving DecidableEq, Repr

abbrev SSLProtocol := Inspector SSLInfo Unit

namespace SSLProtocol

def ssl3Version : Nat := 0x0300

def tls12Version : Nat := 0x0303

/-- `ssl3_mt_client_hello` and the other two types of records that count. -/
def clientHello : BitVec 8 := 1

def serverHello : BitVec 8 := 2

def certificate : BitVec 8 := 11

def isSupported (version : Nat) : Bool := decide (ssl3Version ≤ version ∧ version ≤ tls12Version)

/-- `sizeof(ssl_hello)` -/
def helloSize : Nat := 39

/-- The name in the extension of the server name. `place` counts from the start of the hello,
`data`. -/
def serverNameIn (p : L7Packet) (data place : Nat) : Except Failure (Option Bytes) := do
  let length ← p.word (data + place + 5)
  if place + length < p.payload.length ∧ 0 < length then
    .ok (some (p.refer (data + place + 7) length))
  else .ok none

/-- One extension may stand before that of the server name, which has type zero. -/
def extension (p : L7Packet) (data place : Nat) : Except Failure (Option Bytes) := do
  let type ← p.word (data + place)
  if type = 0xff01 then do
    let length ← p.word (data + place + 2)
    let next := place + 2 + length + 2
    let type ← p.word (data + next)
    if type = 0 then serverNameIn p data (next + 2) else .ok none
  else if type = 0 then serverNameIn p data (place + 2)
  else .ok none

/-- Without compression methods the length octet is not stepped over. -/
def afterCompression (p : L7Packet) (data place : Nat) : Except Failure Nat := do
  let compression ← p.byte (data + place)
  if 0 < compression.toNat then .ok (place + compression.toNat + 1) else .ok place

def extensions (p : L7Packet) (data place : Nat) : Except Failure (Option Bytes) :=
  if place < p.payload.length then do
    let length ← p.word (data + place)
    if length + place < p.payload.length then extension p data (place + 2) else .ok none
  else .ok none

/-- What a hello says, from its session id on. -/
def serverName (p : L7Packet) (data offset : Nat) : Except Failure (Option Bytes) := do
  let version ← p.word (data + 4)
  if isSupported version then do
    let session ← p.byte (data + 38)
    let place := helloSize + offset + if session = 0 then 0 else 32
    let cipher ← p.word (data + place)
    if cipher < p.payload.length then do
      let place ← afterCompression p data (place + cipher + 2)
      extensions p data place
    else .ok none
  else .ok none

def handleClientHello (s : SSLProtocol) (i : Obj) (p : L7Packet) (data offset : Nat) :
    Except Failure SSLProtocol := do
  let name ← serverName p data offset
  match name with
  | none => .ok s
  | some host =>
    if s.isBanDomain host then .ok s.countBan
    else s.countAllow.onWorld (World.Ssl.attachHost s.world i host)

/-- A record of another type only makes the next one start behind its header. -/
def handleRecord (s : SSLProtocol) (i : Obj) (p : L7Packet) (type : BitVec 8)
    (record offset blockLength : Nat) : Except Failure (Nat × Nat × SSLProtocol) :=
  if type = clientHello then do
    let s ← handleClientHello s i p (record + 5) offset
    .ok (record + 5 + blockLength, offset + blockLength + 5, s)
  else if type = serverHello ∨ type = certificate then
    .ok (record + 5 + blockLength, offset + blockLength + 5, s)
  else .ok (record + 5, offset + 5, s)

/-- The loop over the records, of which at most four are read. -/
def records (i : Obj) (p : L7Packet) : Nat → SSLProtocol → Nat → Nat → Except Failure SSLProtocol
  | 0, s, _, _ => .ok s
  | attempts + 1, s, record, offset => do
    let version ← p.word (record + 1)
    let blockLength ← p.word (record + 3)
    let type ← p.byte (record + 5)
    if isSupported version then do
      let (record, offset, s) ← handleRecord s i p type record offset blockLength
      if offset < p.payload.length then records i p attempts s record offset else .ok s
    else .ok s

/-- The host that the first packet has brought is looked up. -/
def matchHost (s : SSLProtocol) (a i : Obj) : Except Failure SSLProtocol :=
  if (s.world.flows a).totalPacketsL7 = 1 then do
    let _ ← s.lookupHost .ssl i
    .ok s
  else .ok s

def processRecords (a : Obj) (p : L7Packet) (s : SSLProtocol) (i : Obj) :
    Except Failure SSLProtocol :=
  if (s.world.flows a).totalPacketsL7.toInt < 3 then do
    let length ← p.word 3
    if 0 < length then do
      let s ← records i p 4 s 0 0
      matchHost s a i
    else .ok s
  else if p.startsWith [0x17, 0x03] then
    .ok (s.setInfo i { dataPdus := (s.infos i).dataPdus + 1 })
  else .ok s

def processFlow (s : SSLProtocol) (a : Obj) (p : L7Packet) : Except Failure SSLProtocol :=
  (s.countPacketL7 a).withInfo .ssl {} a (Inspector.unlessBanned (processRecords a p))

end SSLProtocol

end AIEngine
