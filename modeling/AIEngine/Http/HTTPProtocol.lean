import AIEngine.Http.HTTPHeader
import AIEngine.Library.Counters

/-!
# HTTP packets (`HTTPProtocol.cc`, `HTTPInfo.h`)

What `processFlow` does with the octets of a packet. The strings of an info and its ban are those of
the `World`; the other members of an `HTTPInfo` stand here. The counters of packets, and those that
only the statistics show, are left out.
-/

namespace AIEngine

structure HTTPInfo where
  direction : FlowDirection := .none
  /-- an `int32_t`, as the next one -/
  contentLength : Int := 0
  dataChunkLength : Int := 0
  haveData : Bool := false
  /-- an `int16_t`, as the next two -/
  totalRequests : Int := 0
  totalResponses : Int := 0
  responseCode : Int := 0
  /-- the `DomainName` that the host matched -/
  matchedHost : Option Nat := none
  deriving DecidableEq, Repr

def HTTPInfo.reset (_ : HTTPInfo) : HTTPInfo := {}

structure HttpPacket where
  payload : Bytes
  /-- what stands in memory behind the payload -/
  beyond : Bytes := []
  /-- of the flow, while the packet is processed -/
  direction : FlowDirection
  deriving DecidableEq, Repr

/-- `memcmp` with the first octets of the packet, which does not stop where the payload ends. -/
def HttpPacket.startsWith (p : HttpPacket) (text : Bytes) : Bool :=
  text.isPrefixOf (p.payload ++ p.beyond)

/-- What the managers know of a domain. -/
structure DomainName where
  /-- `getHTTPUriSet`, with `lookupURI` -/
  uriSet : Option (Bytes → Bool) := none

/-- A `string_ref` into the payload of a packet: where it starts and its length. -/
structure Slice where
  start : Int
  length : Int
  deriving DecidableEq, Repr

structure HTTPProtocol where
  world : World
  infos : Obj → HTTPInfo := fun _ => {}
  /-- an `int16_t` -/
  httpHeaderSize : Int := 0
  totalL7Bytes : Int := 0
  totalAllowHosts : Nat := 0
  totalBanHosts : Nat := 0
  /-- `ban_domain_mng_`, when it is not expired: whether `getDomainName` finds a name -/
  banDomains : Option (Bytes → Bool) := none
  /-- `domain_mng_`, when it is not expired -/
  domains : Option (Bytes → Option Nat) := none
  /-- what a weak pointer to a `DomainName` finds -/
  domainName : Nat → Option DomainName := fun _ => none
  /-- what `process_payloadl7` was called with, the last call first -/
  payloads7 : List (Obj × Slice) := []

namespace HTTPProtocol

def setInfo (s : HTTPProtocol) (i : Obj) (info : HTTPInfo) : HTTPProtocol :=
  { s with infos := fun j => if j = i then info else s.infos j }

@[simp] theorem setInfo_same (s : HTTPProtocol) (i : Obj) (info : HTTPInfo) :
    (s.setInfo i info).infos i = info := if_pos rfl

/-- The functions of the `World` fail only with a fault. -/
def onWorld (s : HTTPProtocol) : Except Fault World → Except Failure HTTPProtocol
  | .ok w => .ok { s with world := w }
  | .error e => .error (.fault e)

def int16 (n : Int) : Int := n.bmod 65536

/-! ### The parameters -/

def processHostParameter (s : HTTPProtocol) (i : Obj) (host : Bytes) :
    Except Failure (Bool × HTTPProtocol) :=
  if s.banDomains.any (fun banned => banned host) then
    .ok (false, { s with totalBanHosts := s.totalBanHosts + 1 })
  else
    match { s with totalAllowHosts := s.totalAllowHosts + 1 }.onWorld
        (World.Http.attachHost s.world i host) with
    | .ok s => .ok (true, s)
    | .error e => .error e

def processUaParameter (s : HTTPProtocol) (i : Obj) (ua : Bytes) :
    Except Failure (Bool × HTTPProtocol) :=
  match s.onWorld (World.Http.attachUseragent s.world i ua) with
  | .ok s => .ok (true, s)
  | .error e => .error e

/-- Of the two exceptions of `std::stoi` one is caught. -/
def processContentLengthParameter (s : HTTPProtocol) (i : Obj) (parameter : Bytes) :
    Except Failure (Bool × HTTPProtocol) :=
  match stoi parameter with
  | .ok length =>
    .ok (true, s.setInfo i { s.infos i with
      contentLength := length, dataChunkLength := length, haveData := true })
  | .error .invalidArgument => .ok (true, s)
  | .error .outOfRange => .error (.thrown .outOfRange)

/-- The handlers that `parameters_` binds. -/
def processParameter (i : Obj) (s : HTTPProtocol) : HttpParameter → Bytes →
    Except Failure (Bool × HTTPProtocol)
  | .host => s.processHostParameter i
  | .userAgent => s.processUaParameter i
  | .contentLength => s.processContentLengthParameter i

/-! ### The first line -/

/-- The supported methods, in their order. -/
def methods : List Bytes :=
  ["GET", "POST", "HEAD", "CONNECT", "OPTIONS", "PUT", "DELETE", "TRACE"].map Octets.ascii

/-- The codes of `responses_`. -/
def responses : List Int :=
  [0, 100, 101, 102, 200, 201, 202, 203, 204, 205, 206, 207, 208, 226, 300, 301, 302, 303, 304, 305,
    306, 307, 308, 400, 401, 402, 403, 404, 405, 406, 407, 408, 409, 410, 411, 412, 413, 414, 415,
    416, 417, 418, 419, 420, 421, 422, 423, 424, 426, 428, 429, 431, 440, 444, 449, 450, 451, 494,
    495, 496, 497, 498, 499, 500, 501, 502, 503, 504, 505, 506, 507, 508, 509, 510, 511, 598, 599]

/-- A number that does not fit into a `long` is cut to its end. -/
def toLong (n : Int) : Int :=
  if n < -9223372036854775808 then -9223372036854775808
  else if 9223372036854775807 < n then 9223372036854775807
  else n

/-- `std::atoi`: the `long` of `strtol`, as an `int`. -/
def atoi (s : Bytes) : Int := (toLong ((Octets.strtol s).getD 0)).bmod 4294967296

def incTotalResponses (s : HTTPProtocol) (i : Obj) : HTTPProtocol :=
  s.setInfo i { s.infos i with totalResponses := int16 ((s.infos i).totalResponses + 1) }

def incTotalRequests (s : HTTPProtocol) (i : Obj) : HTTPProtocol :=
  s.setInfo i { s.infos i with totalRequests := int16 ((s.infos i).totalRequests + 1) }

def noteResponseCode (s : HTTPProtocol) (i : Obj) (code : Int) : HTTPProtocol :=
  if code ∈ responses then s.setInfo i { s.infos i with responseCode := int16 code } else s

/-- Where the header lines start, or zero. -/
def extractUri (s : HTTPProtocol) (i : Obj) (p : HttpPacket) :
    Except Failure (Nat × HTTPProtocol) :=
  if p.startsWith (Octets.ascii "HTTP/1") then
    let s := (s.incTotalResponses i).noteResponseCode i (atoi ((p.payload ++ p.beyond).drop 8))
    match Octets.find (Octets.ascii "\r\n") p.payload with
    | some (k + 1) => .ok (k + 3, s)
    | _ => .ok (0, s)
  else
    match methods.find? p.startsWith with
    | none => .ok (0, s)
    | some method =>
      match Octets.find (Octets.ascii "HTTP/1.") p.payload with
      | some (k + 1) =>
        let offset := method.length + 1
        match substr p.payload offset ((k : Int) + 1 - offset - 1) with
        | .error e => .error e
        | .ok uri =>
          let s := s.incTotalRequests i
          match s.onWorld (World.Http.attachUri s.world i uri) with
          | .ok s => .ok (k + 11, s)
          | .error e => .error e
      | _ => .ok (0, s)

/-- A handler that returned `false` has found a banned domain. -/
def parseHeader (s : HTTPProtocol) (i : Obj) (header : Bytes) : Except Failure HTTPProtocol :=
  match HTTPHeader.parseHeader (processParameter i) header s with
  | .error e => .error e
  | .ok (s, size, banned) =>
    let s := { s with httpHeaderSize := int16 (s.httpHeaderSize + size) }
    if banned then
      .ok { s with world := World.Http.releaseHttpInfoCache (s.world.setBanned i) i }
    else .ok s

def processRequestsAndResponses (s : HTTPProtocol) (i : Obj) (p : HttpPacket) :
    Except Failure (Nat × HTTPProtocol) :=
  match s.extractUri i p with
  | .error e => .error e
  | .ok (offset, s) =>
    if 0 < offset then
      let s := { s with httpHeaderSize := int16 offset }
      if (4 : Int) < p.payload.length - offset then
        match substr p.payload offset (p.payload.length - offset) with
        | .error e => .error e
        | .ok header =>
          match s.parseHeader i header with
          | .ok s => .ok (offset, s)
          | .error e => .error e
      else .ok (offset, s)
    else .ok (0, s)

/-! ### `processFlow` -/

/-- An info that comes out of the pool has been reset. -/
def attachInfo (s : HTTPProtocol) (a : Obj) : Except Failure (Option Obj × HTTPProtocol) :=
  match s.world.attachInfo .http a with
  | .error e => .error (.fault e)
  | .ok (none, w) => .ok (none, { s with world := w })
  | .ok (some i, w) =>
    if (s.world.lockInfo .http (s.world.flows a)).isSome then .ok (some i, { s with world := w })
    else .ok (some i, { s with world := w }.setInfo i (s.infos i).reset)

/-- The payload goes to the regexes of the flow. -/
def processPayloadl7 (s : HTTPProtocol) (a : Obj) (payload : Slice) : HTTPProtocol :=
  { s with payloads7 := (a, payload) :: s.payloads7 }

def setHTTPDataDirection (s : HTTPProtocol) (i : Obj) (direction : FlowDirection) : HTTPProtocol :=
  s.setInfo i { s.infos i with direction := direction }

/-- The whole packet is data that was announced before. -/
def continueData (s : HTTPProtocol) (a i : Obj) (p : HttpPacket) : HTTPProtocol :=
  let left := Counter.int32 ((s.infos i).dataChunkLength - p.payload.length)
  let s := { s with totalL7Bytes := s.totalL7Bytes + p.payload.length }
  let s :=
    if 0 < left then s.setInfo i { s.infos i with dataChunkLength := left }
    else s.setInfo i { s.infos i with dataChunkLength := 0, haveData := false }
  (s.processPayloadl7 a { start := 0, length := p.payload.length }).setHTTPDataDirection i p.direction

/-- The host of the first request is looked up. -/
def matchDomain (s : HTTPProtocol) (i : Obj) : HTTPProtocol :=
  if (s.infos i).totalRequests = 1 then
    match s.domains, s.world.lockString .http ((s.world.infos i).strings .host) with
    | some getDomainName, some host =>
      match getDomainName (cString (s.world.names host)) with
      | some d => s.setInfo i { s.infos i with matchedHost := some d }
      | none => s
    | _, _ => s
  else s

/-- The uri of the flow is looked up in the set of the matched domain. -/
def lookupUri (s : HTTPProtocol) (i : Obj) (offset : Nat) : Except Failure HTTPProtocol :=
  match (s.infos i).matchedHost.bind s.domainName with
  | none => .ok s
  | some d =>
    if 0 < offset ∧ d.uriSet.isSome then
      match s.world.lockString .http ((s.world.infos i).strings .uri) with
      | some _ => .ok s
      | none => .error (.fault .nullDereference)
    else .ok s

def lookupDomain (s : HTTPProtocol) (i : Obj) (direction : FlowDirection) (offset : Nat) :
    Except Failure HTTPProtocol :=
  if direction = .forward then (s.matchDomain i).lookupUri i offset else .ok s

/-- What is behind the header is data. -/
def headerData (s : HTTPProtocol) (a i : Obj) (p : HttpPacket) : HTTPProtocol :=
  let s :=
    if (s.infos i).haveData then
      let dataSize := Counter.int32 (p.payload.length - s.httpHeaderSize)
      let delta := Counter.int32 ((s.infos i).dataChunkLength - dataSize)
      let s := { s with totalL7Bytes := s.totalL7Bytes + dataSize }
      if 0 < delta then
        (s.setInfo i { s.infos i with dataChunkLength := delta }).processPayloadl7 a
          { start := s.httpHeaderSize, length := dataSize }
      else s.setInfo i { s.infos i with dataChunkLength := 0, haveData := false }
    else s
  s.setHTTPDataDirection i p.direction

def processFlow (s : HTTPProtocol) (a : Obj) (p : HttpPacket) : Except Failure HTTPProtocol :=
  match { s with httpHeaderSize := 0 }.attachInfo a with
  | .error e => .error e
  | .ok (none, s) => .ok s
  | .ok (some i, s) =>
    if (s.world.infos i).isBanned then .ok s
    else if (s.infos i).direction = p.direction then
      if (s.infos i).haveData then .ok (s.continueData a i p) else .ok (s.headerData a i p)
    else
      match s.processRequestsAndResponses i p with
      | .error e => .error e
      | .ok (offset, s) =>
        match s.lookupDomain i p.direction offset with
        | .error e => .error e
        | .ok s => .ok (s.headerData a i p)

end HTTPProtocol

end AIEngine
