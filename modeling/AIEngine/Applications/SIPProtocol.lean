import AIEngine.Applications.Inspector

/-!
# SIP (`SIPProtocol.cc`, `Regex.cc`)

The uri of a request is cut out of its first line; three regular expressions find the other strings.
What an expression finds in a text is a parameter, the buffer that its matches are copied to is not.
-/

namespace AIEngine

open Octets (ascii)

structure Regex where
  /-- the text of the first match -/
  exec : Bytes → Option Bytes
  extractBuffer : Bytes := []

namespace Regex

/-- A text with its last zero has to fit into the buffer, which stays as it is otherwise. -/
def extractBufferSize : Nat := 256

def matchAndExtract (r : Regex) (data : Bytes) : Bool × Regex :=
  match r.exec data with
  | none => (false, r)
  | some text =>
    if text.length < extractBufferSize then (true, { r with extractBuffer := text }) else (true, r)

def getExtract (r : Regex) : Bytes := cString r.extractBuffer

end Regex

structure SIPExpressions where
  fromExpression : Regex
  toExpression : Regex
  viaExpression : Regex

abbrev SIPProtocol := Inspector Unit SIPExpressions

namespace SIPProtocol

/-- The supported methods, in their order. -/
def methods : List Bytes :=
  ["REGISTER", "INVITE", "ACK", "CANCEL", "BYE", "MESSAGE", "OPTIONS", "PUBLISH", "SUBSCRIBE",
    "NOTIFY", "REFER", "INFO", "PING"].map ascii

def extractUriValue (s : SIPProtocol) (i : Obj) (p : L7Packet) : Except Failure SIPProtocol :=
  if p.startsWith (ascii "SIP/2.") then .ok s
  else
    match methods.find? p.startsWith with
    | none => .ok s
    | some method =>
      match Octets.find (ascii "SIP/2.") p.payload with
      | some (k + 1) => do
        let offset := method.length + 1
        let uri ← substr p.payload offset ((k : Int) + 1 - offset - 1)
        s.onWorld (World.Sip.attachUriToFlow s.world i uri)
      | _ => .ok s

/-- The value behind the name of a field, without the line end. -/
def extractValue (s : SIPProtocol) (i : Obj) (found : Bool × Regex) (name : Nat)
    (attach : World → Obj → Bytes → Except Fault World) : Except Failure SIPProtocol :=
  if found.1 then do
    let text := found.2.getExtract
    let value ← substr text name ((text.length : Int) - (name + 2))
    s.onWorld (attach s.world i value)
  else .ok s

def extractViaValue (s : SIPProtocol) (i : Obj) (p : L7Packet) : Except Failure SIPProtocol :=
  let found := s.own.viaExpression.matchAndExtract p.payload
  extractValue { s with own := { s.own with viaExpression := found.2 } } i found 5
    World.Sip.attachViaToFlow

def extractFromValue (s : SIPProtocol) (i : Obj) (p : L7Packet) : Except Failure SIPProtocol :=
  let found := s.own.fromExpression.matchAndExtract p.payload
  extractValue { s with own := { s.own with fromExpression := found.2 } } i found 6
    World.Sip.attachFromToFlow

def extractToValue (s : SIPProtocol) (i : Obj) (p : L7Packet) : Except Failure SIPProtocol :=
  let found := s.own.toExpression.matchAndExtract p.payload
  extractValue { s with own := { s.own with toExpression := found.2 } } i found 4
    World.Sip.attachToToFlow

def processHeader (p : L7Packet) (s : SIPProtocol) (i : Obj) : Except Failure SIPProtocol := do
  let s ← extractUriValue s i p
  let s ← extractViaValue s i p
  let s ← extractFromValue s i p
  extractToValue s i p

def processFlow (s : SIPProtocol) (a : Obj) (p : L7Packet) : Except Failure SIPProtocol :=
  (s.countPacketL7 a).withInfo .sip () a (processHeader p)

end SIPProtocol

end AIEngine
