import AIEngine.Applications.Inspector

/-!
# SSDP (`SSDPProtocol.cc`, `SSDPInfo.h`)

The parser is a relative of that of HTTP. It compares octets up to three places behind the header,
and a banned host only ends the loop: the line that would mark the info is a comment in the source.
-/

namespace AIEngine

open Octets (ascii)

/-- Counters of type `int16_t`. -/
structure SSDPInfo where
  totalRequests : Int := 0
  totalResponses : Int := 0
  responseCode : Int := 0
  deriving DecidableEq, Repr

structure SSDPCounters where
  /-- an `int16_t` -/
  ssdpHeaderSize : Int := 0
  totalRequests : BitVec 32 := 0
  totalResponses : BitVec 32 := 0
  deriving DecidableEq, Repr

abbrev SSDPProtocol := Inspector SSDPInfo SSDPCounters

namespace SSDPProtocol

/-- The supported methods, in their order. -/
def methods : List Bytes := ["NOTIFY", "M-SEARCH", "SUBSCRIBE", "SSDPC"].map ascii

/-- The fields that have a handler, which is the same for both. -/
def parameters : List Bytes := ["Host", "HOST"].map ascii

def addHeaderSize (s : SSDPProtocol) (n : Nat) : SSDPProtocol :=
  let size := HTTPProtocol.int16 (s.own.ssdpHeaderSize + n)
  { s with own := { s.own with ssdpHeaderSize := size } }

def incTotalResponses (s : SSDPProtocol) (i : Obj) : SSDPProtocol :=
  let count := HTTPProtocol.int16 ((s.infos i).totalResponses + 1)
  let own := { s.own with totalResponses := s.own.totalResponses + 1 }
  Inspector.setInfo { s with own := own } i { s.infos i with totalResponses := count }

/-- The responses are those of HTTP. -/
def noteResponseCode (s : SSDPProtocol) (i : Obj) (code : Int) : SSDPProtocol :=
  if code ∈ HTTPProtocol.responses then
    s.setInfo i { s.infos i with responseCode := HTTPProtocol.int16 code }
  else s

def countRequest (s : SSDPProtocol) : SSDPProtocol :=
  { s with own := { s.own with totalRequests := s.own.totalRequests + 1 } }

def uriAttached (s : SSDPProtocol) (uri : Bytes) : Bool :=
  (World.find (s.world.maps .ssdp .uri) uri).isSome ||
    decide (0 < (s.world.cache (.string .ssdp .uri)).total)

/-- A uri that is attached is counted as a request. -/
def attachUri (s : SSDPProtocol) (i : Obj) (uri : Bytes) : Except Failure SSDPProtocol := do
  let t ← s.onWorld (World.Ssdp.attachUri s.world i uri)
  if uriAttached s uri then .ok (countRequest t) else .ok t

def incTotalRequests (s : SSDPProtocol) (i : Obj) : SSDPProtocol :=
  let count := HTTPProtocol.int16 ((s.infos i).totalRequests + 1)
  Inspector.setInfo (countRequest s) i { s.infos i with totalRequests := count }

/-- Where the header lines start, or zero. -/
def extractUri (s : SSDPProtocol) (i : Obj) (p : L7Packet) : Except Failure (Nat × SSDPProtocol) :=
  if p.startsWith (ascii "HTTP/1") then
    let s := noteResponseCode (incTotalResponses s i) i (HTTPProtocol.atoi (p.memory.drop 8))
    match Octets.find (ascii "\r\n") p.payload with
    | some (k + 1) => .ok (k + 3, s)
    | _ => .ok (0, s)
  else
    match methods.find? p.startsWith with
    | none => .ok (0, s)
    | some method =>
      match Octets.find (ascii "HTTP/1.") p.payload with
      | some (k + 1) => do
        let offset := method.length + 1
        let uri ← substr p.payload offset ((k : Int) + 1 - offset - 1)
        let s ← attachUri (incTotalRequests s i) i uri
        .ok (k + 11, s)
      | _ => .ok (0, s)

/-- Whether the loop goes on. -/
def processHostParameter (s : SSDPProtocol) (i : Obj) (host : Bytes) :
    Except Failure (Bool × SSDPProtocol) :=
  if s.isBanDomain host then .ok (false, s.countBan)
  else do
    let s ← s.countAllow.onWorld (World.Ssdp.attachHost s.world i host)
    .ok (true, s)

/-- The handler of the field, if the line has a registered one. -/
def callback (s : SSDPProtocol) (i : Obj) (header : Bytes) (c : HTTPHeader.Cursor) :
    Except Failure (Bool × SSDPProtocol) :=
  if c.headerField ∈ parameters then do
    let host ← substr header c.parameterIndex ((c.i : Int) - c.parameterIndex)
    processHostParameter s i host
  else .ok (true, s)

/-- One turn of the loop: the next cursor, if there is one, and what the header size grows by. -/
def turn (s : SSDPProtocol) (i : Obj) (p : L7Packet) (offset : Nat) (header : Bytes)
    (c : HTTPHeader.Cursor) : Except Failure (Option HTTPHeader.Cursor × Nat × SSDPProtocol) :=
  if p.standsAt (offset + c.i) (ascii "\r\n") then do
    let (more, s) ← callback s i header c
    if more = false then .ok (none, c.i, s)
    else if p.standsAt (offset + c.i + 2) (ascii "\r\n") then .ok (none, c.i + 4, s)
    else .ok (some c.nextLine, 0, s)
  else if header[c.i]? = some 0x3a ∧ c.haveToken = false then do
    let field ← substr header c.fieldIndex ((c.i : Int) - c.fieldIndex)
    .ok (some (c.colon field), 0, s)
  else .ok (some c.next, 0, s)

/-- Every turn moves on, so the loop has at most as many as there are octets. -/
def loop (i : Obj) (p : L7Packet) (offset : Nat) (header : Bytes) :
    Nat → SSDPProtocol → HTTPHeader.Cursor → Except Failure SSDPProtocol
  | 0, s, c => .ok (addHeaderSize s c.i)
  | n + 1, s, c =>
    if c.i < header.length then do
      let (next, size, s) ← turn s i p offset header c
      match next with
      | some c => loop i p offset header n s c
      | none => .ok (addHeaderSize s size)
    else .ok (addHeaderSize s c.i)

def parseHeader (s : SSDPProtocol) (i : Obj) (p : L7Packet) (offset : Nat) :
    Except Failure SSDPProtocol := do
  let header ← substr p.payload offset ((p.payload.length : Int) - offset)
  loop i p offset header header.length s {}

/-- Only a complete first line has a header behind it. -/
def processLines (s : SSDPProtocol) (i : Obj) (p : L7Packet) (offset : Nat) :
    Except Failure SSDPProtocol :=
  if 0 < offset then
    let own := { s.own with ssdpHeaderSize := HTTPProtocol.int16 offset }
    parseHeader { s with own := own } i p offset
  else .ok s

/-- The host of the first request is looked up. -/
def matchHost (s : SSDPProtocol) (i : Obj) : Except Failure SSDPProtocol :=
  if (s.infos i).totalRequests = 1 then do
    let _ ← s.lookupHost .ssdp i
    .ok s
  else .ok s

def processHeader (p : L7Packet) (s : SSDPProtocol) (i : Obj) : Except Failure SSDPProtocol := do
  let (offset, s) ← extractUri s i p
  let s ← processLines s i p offset
  matchHost s i

def processFlow (s : SSDPProtocol) (a : Obj) (p : L7Packet) : Except Failure SSDPProtocol :=
  s.withInfo .ssdp {} a (Inspector.unlessBanned (processHeader p))

end SSDPProtocol

end AIEngine
