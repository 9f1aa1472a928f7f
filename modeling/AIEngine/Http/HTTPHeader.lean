import AIEngine.Library.Octets
import AIEngine.Resources.World

/-!
# The lines of an HTTP header (`HTTPProtocol::parse_header`)

The loop looks for line ends and for the first colon of a line. It hands the value of a registered
field to its handler, which may end the loop: then the flow is banned.
-/

namespace AIEngine

/-- The exceptions of the standard library. -/
inductive StdException where
  | invalidArgument
  | outOfRange
  deriving DecidableEq, Repr

/-- How a function can fail to return. -/
inductive Failure where
  | thrown (e : StdException)
  | fault (f : Fault)
  deriving DecidableEq, Repr

/-- `std::stoi` -/
def stoi (s : Bytes) : Except StdException Int :=
  match Octets.strtol s with
  | none => .error .invalidArgument
  | some n =>
    if -2147483648 ≤ n ∧ n ≤ 2147483647 then .ok n else .error .outOfRange

/-- `boost::string_ref::substr` -/
def substr (s : Bytes) (pos : Nat) (n : Int) : Except Failure Bytes :=
  match Octets.substr s pos n with
  | some t => .ok t
  | none => .error (.thrown .outOfRange)

inductive HttpParameter where
  | host | userAgent | contentLength
  deriving DecidableEq, Repr

/-- The registered parameters. -/
def parameters (field : Bytes) : Option HttpParameter :=
  if field = Octets.ascii "Host" then some .host
  else if field = Octets.ascii "User-Agent" then some .userAgent
  else if field = Octets.ascii "Content-Length" then some .contentLength
  else none

namespace HTTPHeader

/-- The local variables of the loop, and the field of the current line. -/
structure Cursor where
  i : Nat := 0
  fieldIndex : Nat := 0
  parameterIndex : Nat := 0
  haveToken : Bool := false
  headerField : Bytes := []
  deriving DecidableEq, Repr

/-- A line that had a field makes the next field start behind it. -/
def Cursor.nextLine (c : Cursor) : Cursor :=
  if c.headerField = [] then { c with haveToken := false, i := c.i + 2 }
  else { c with haveToken := false, i := c.i + 2, headerField := [], fieldIndex := c.i + 2 }

def Cursor.colon (c : Cursor) (field : Bytes) : Cursor :=
  { i := c.i + 2, fieldIndex := c.i + 1, parameterIndex := c.i + 2, haveToken := true,
    headerField := field }

def Cursor.next (c : Cursor) : Cursor := { c with i := c.i + 1 }

variable {σ : Type} (call : σ → HttpParameter → Bytes → Except Failure (Bool × σ)) (header : Bytes)

/-- The handler of the field, if the line has a registered one. -/
def callback (s : σ) (c : Cursor) : Except Failure (Bool × σ) :=
  if c.headerField = [] then .ok (true, s)
  else
    match parameters c.headerField with
    | none => .ok (true, s)
    | some p =>
      match substr header c.parameterIndex ((c.i : Int) - c.parameterIndex) with
      | .ok v => call s p v
      | .error e => .error e

/-- The loop, over the octets from `i` on: it goes on as long as there are four of them. The result
is what `http_header_size_` grows by, and whether a handler asked for a ban. -/
def loop : σ → Cursor → Bytes → Except Failure (σ × Nat × Bool)
  | s, c, b₀ :: b₁ :: b₂ :: b₃ :: rest =>
    if b₀ = 0x0d ∧ b₁ = 0x0a then
      match callback call header s c with
      | .error e => .error e
      | .ok (false, s) => .ok (s, c.i, true)
      | .ok (true, s) =>
        if b₂ = 0x0d ∧ b₃ = 0x0a then .ok (s, c.i + 4, false)
        else loop s c.nextLine (b₂ :: b₃ :: rest)
    else if b₀ = 0x3a ∧ c.haveToken = false then
      match substr header c.fieldIndex ((c.i : Int) - c.fieldIndex) with
      | .ok field => loop s (c.colon field) (b₂ :: b₃ :: rest)
      | .error e => .error e
    else loop s c.next (b₁ :: b₂ :: b₃ :: rest)
  | s, c, _ => .ok (s, c.i, false)

/-- The header is longer than four octets where this is called. -/
def parseHeader (s : σ) : Except Failure (σ × Nat × Bool) := loop call header s {} header

end HTTPHeader

end AIEngine
