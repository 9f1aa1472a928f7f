import AIEngine.Applications.Inspector

/-!
# DNS (`DNSProtocol.cc`, `DNSInfo.h`)

A query attaches its name to the flow. A response that belongs to a known domain leaves the addresses
of its answers with the info. The counters of the query types are left out.
-/

namespace AIEngine

open Octets (ascii)

structure DNSInfo where
  qtype : Nat := 0
  /-- the octets of the addresses, whose text the source keeps -/
  ips : List Bytes := []
  deriving DecidableEq, Repr

abbrev DNSProtocol := Inspector DNSInfo Unit

namespace DNSProtocol

def headerSize : Nat := 12

def maxDnsBufferName : Nat := 128

def standardQuery : Nat := 0x0100

def standardResponse : Nat := 0x8180

def dynamicUpdate : Nat := 0x2800

/-- The loop of `extract_domain_name`: what it writes to the buffer, the offset it ends at, and whether
the name was too long. `left` is how many more octets fit. -/
def nameLoop (p : L7Packet) : Nat → Nat → Except Failure (Bytes × Nat × Bool)
  | left, offset => do
    let b ← p.byte (headerSize + offset)
    if b = 0 then .ok ([], offset, false)
    else
      let c : BitVec 8 := if b.toNat < 0x20 then 0x2e else b
      match left with
      | 0 => .ok ([c], offset + 1, true)
      | left + 1 => do
        let (rest, last, long) ← nameLoop p left (offset + 1)
        .ok (c :: rest, last, long)

/-- The name, and where it ends. -/
def extractDomainName (s : DNSProtocol) (a : Obj) (p : L7Packet) :
    Except Failure (Bytes × Nat × DNSProtocol) := do
  let (name, offset, long) ← nameLoop p (maxDnsBufferName - 2) 1
  .ok (name, offset, if long then s.noteAnomaly a .dnsLongName else s)

/-- Without a name it is a root record, and the type is read one octet earlier. -/
def question (p : L7Packet) (name : Bytes) (offset : Nat) : Except Failure (Bytes × Nat × Nat) := do
  let offset := if offset = 1 then 0 else offset
  let domain := if offset = 0 then ascii "<Root>" else name
  let qtype ← p.word (headerSize + offset + 1)
  .ok (domain, offset, qtype)

/-- The info takes the type with a name that comes out of the pool. -/
def acquiresName (s : DNSProtocol) (i : Obj) (domain : Bytes) : Bool :=
  (s.world.lockString .dns ((s.world.infos i).strings .name)).isNone &&
    (World.find (s.world.maps .dns .name) domain).isNone &&
      decide (0 < (s.world.cache (.string .dns .name)).total)

def attachDnsToFlow (s : DNSProtocol) (i : Obj) (domain : Bytes) (qtype : Nat) :
    Except Failure DNSProtocol := do
  let t ← s.onWorld (World.Dns.attachDnsToFlow s.world i domain)
  if acquiresName s i domain then .ok (t.setInfo i { t.infos i with qtype := qtype }) else .ok t

def handleStandardQuery (s : DNSProtocol) (a i : Obj) (p : L7Packet) : Except Failure DNSProtocol := do
  let (name, offset, s) ← extractDomainName s a p
  let (domain, offset, qtype) ← question p name offset
  let s := if p.payload.length < headerSize + offset then s.noteAnomaly a .dnsBogusHeader else s
  if s.isBanDomain domain then .ok s.countBan else attachDnsToFlow s.countAllow i domain qtype

/-- The address in the answer that starts at `ptr`, if it is one of the class IN. -/
def address (p : L7Packet) (ptr type classType blockLength : Nat) :
    Except Failure (Option Bytes) :=
  if classType = 1 ∧ type = 1 ∧ blockLength = 4 then do
    let octets ← p.slice (ptr + 12) 4
    .ok (some octets)
  else if classType = 1 ∧ type = 0x1c ∧ blockLength = 16 then do
    let octets ← p.slice (ptr + 12) 16
    .ok (some octets)
  else .ok none

def addIPAddress (s : DNSProtocol) (i : Obj) : Option Bytes → DNSProtocol
  | some ip => s.setInfo i { s.infos i with ips := (s.infos i).ips ++ [ip] }
  | none => s

/-- The loop over the answers. -/
def answerLoop (i : Obj) (p : L7Packet) : Nat → DNSProtocol → Nat → Except Failure DNSProtocol
  | 0, s, _ => .ok s
  | answers + 1, s, ptr => do
    let blockLength ← p.word (ptr + 10)
    let type ← p.word (ptr + 2)
    let classType ← p.word (ptr + 4)
    let ip ← address p ptr type classType blockLength
    answerLoop i p answers (addIPAddress s i ip) (ptr + 12 + blockLength)

/-- The second walk over the name of the query. -/
def skipName (p : L7Packet) : Nat → Nat → Except Failure (Option Nat)
  | left, offset => do
    let b ← p.byte (headerSize + offset)
    if b = 0 then .ok (some offset)
    else
      match left with
      | 0 => .ok none
      | left + 1 => skipName p left (offset + 1)

def extractAddresses (s : DNSProtocol) (a i : Obj) (p : L7Packet) : Except Failure DNSProtocol := do
  let skipped ← skipName p (maxDnsBufferName - 2) 1
  match skipped with
  | none => .ok (s.noteAnomaly a .dnsLongName)
  | some offset => do
    let answers ← p.word 6
    answerLoop i p answers s (headerSize + offset + 5)

/-- The name that is attached, or that of the response, which is attached then. -/
def responseName (s : DNSProtocol) (a i : Obj) (p : L7Packet) :
    Except Failure (Bytes × DNSProtocol) :=
  match s.world.lockString .dns ((s.world.infos i).strings .name) with
  | some name => .ok (cString (s.world.names name), s)
  | none => do
    let (name, offset, s) ← extractDomainName s a p
    let (domain, _, qtype) ← question p name offset
    let s ← attachDnsToFlow s i domain qtype
    .ok (domain, s)

def handleStandardResponse (s : DNSProtocol) (a i : Obj) (p : L7Packet) :
    Except Failure DNSProtocol := do
  let (domain, s) ← responseName s a i p
  if s.domains.any fun known => known domain then extractAddresses s a i p else .ok s

def processMessage (a : Obj) (p : L7Packet) (s : DNSProtocol) (i : Obj) :
    Except Failure DNSProtocol := do
  let flags ← p.word 2
  if flags = standardQuery ∨ flags = dynamicUpdate then do
    let questions ← p.word 4
    if 0 < questions then handleStandardQuery s a i p else .ok s
  else if flags &&& standardResponse = standardResponse then do
    let answers ← p.word 6
    if 0 < answers then handleStandardResponse s a i p else .ok s
  else .ok s

def processFlow (s : DNSProtocol) (a : Obj) (p : L7Packet) : Except Failure DNSProtocol :=
  if headerSize < p.payload.length then s.withInfo .dns {} a (processMessage a p)
  else .ok (s.noteAnomaly a .dnsBogusHeader)

end DNSProtocol

end AIEngine
