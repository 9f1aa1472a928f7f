import AIEngine.Applications.Compare
import AIEngine.Applications.Unbanned
import AIEngine.Applications.Works

/-!
# What the classifiers and the command loops look at

None of them asks how long the payload is. The functions below do what those of the protocols do,
and fail where an octet that is looked at is missing.
-/

namespace AIEngine

open Ending
open Octets (ascii)

/-! ### Numerals -/

/-- A loop over octets, which looks at the one that ends it, too. -/
def scan (test : BitVec 8 → Bool) : Bytes → Except Failure Bytes
  | [] => .error (.fault .outOfBounds)
  | b :: rest => if test b then scan test rest else .ok (b :: rest)

def dropSign : Bytes → Bytes
  | [] => []
  | b :: rest => if b = 0x2d ∨ b = 0x2b then rest else b :: rest

/-- What `atoi` looks at. -/
def scanNumeral (text : Bytes) : Except Failure Bytes := do
  let text ← scan Octets.isSpace text
  scan Octets.isDigit (dropSign text)

/-- Behind blanks, a sign and digits. -/
def behindNumeral (text : Bytes) : Bytes :=
  (dropSign (text.dropWhile Octets.isSpace)).dropWhile Octets.isDigit

section

variable {test : BitVec 8 → Bool} {text : Bytes}

theorem scan_ok (ends : text.dropWhile test ≠ []) : scan test text = .ok (text.dropWhile test) := by
  induction text with
  | nil => exact absurd rfl ends
  | cons b rest ih =>
    unfold scan
    cases passed : test b with
    | true =>
      rw [List.dropWhile_cons_of_pos passed] at ends ⊢
      exact ih ends
    | false =>
      rw [List.dropWhile_cons_of_neg (by simp [passed])]
      rfl

theorem scan_outside (ends : text.dropWhile test = []) :
    scan test text = .error (.fault .outOfBounds) := by
  induction text with
  | nil => rfl
  | cons b rest ih =>
    unfold scan
    cases passed : test b with
    | true =>
      rw [List.dropWhile_cons_of_pos passed] at ends
      exact ih ends
    | false =>
      rw [List.dropWhile_cons_of_neg (by simp [passed])] at ends
      cases ends

theorem scan_ends : Ends (fun e => e = .fault .outOfBounds) Any (scan test text) := by
  by_cases ends : text.dropWhile test = []
  · rw [scan_outside ends]
    rfl
  · rw [scan_ok ends]
    trivial

theorem scanNumeral_ends : Ends (fun e => e = .fault .outOfBounds) Any (scanNumeral text) :=
  ends_bind scan_ends fun _ _ => scan_ends

theorem readsInside_scanNumeral : ReadsInside (scanNumeral text) ↔ behindNumeral text ≠ [] := by
  unfold scanNumeral behindNumeral
  by_cases blanks : text.dropWhile Octets.isSpace = []
  · rw [scan_outside blanks, blanks]
    exact iff_of_false not_readsInside fun behind => behind rfl
  · rw [scan_ok blanks]
    show ReadsInside (scan _ _) ↔ _
    by_cases digits : (dropSign (text.dropWhile Octets.isSpace)).dropWhile Octets.isDigit = []
    · rw [scan_outside digits]
      exact iff_of_false not_readsInside fun behind => behind digits
    · rw [scan_ok digits]
      exact iff_of_true (readsInside_ok _) digits

end

/-! ### HTTP -/

theorem HttpPacket.standsAt_bare {p : L7Packet} (bare : p.beyond = []) (text : Bytes) :
    p.standsAt 0 text = true ↔ text <+: p.payload := by
  unfold standsAt
  rw [memory_bare bare, List.drop_zero, List.isPrefixOf_iff_prefix]

namespace HTTPProtocol

def methodTable : List (Bytes × Unit) := methods.map fun method => (method, ())

def httpChecker (p : L7Packet) : Except Failure Bool := do
  let method ← p.compare 0 methodTable
  .ok method.isSome

/-- The octets that decide what the first line is. -/
def readFirstLine (p : L7Packet) : Except Failure Unit := do
  let response ← p.compare 0 [(ascii "HTTP/1", ())]
  if response.isSome then do
    let _ ← scanNumeral (p.memory.drop 8)
    .ok ()
  else do
    let _ ← p.compare 0 methodTable
    .ok ()

def extractUriWithin (s : HTTPProtocol) (i : Obj) (p : L7Packet) :
    Except Failure (Nat × HTTPProtocol) := do
  readFirstLine p
  extractUri s i p

/-- There is room for every method, or one of the first three stands there. -/
def MethodsInside (payload : Bytes) : Prop :=
  7 ≤ payload.length ∨ ascii "GET" <+: payload ∨ ascii "POST" <+: payload ∨ ascii "HEAD" <+: payload

/-- There is room for the version, and behind it the status code of a response ends. -/
def FirstLineInside (payload : Bytes) : Prop :=
  6 ≤ payload.length ∧
    (ascii "HTTP/1" <+: payload → behindNumeral (payload.drop 8) ≠ []) ∧
    (¬ascii "HTTP/1" <+: payload → MethodsInside payload)

section

variable {p : L7Packet} (bare : p.beyond = [])

include bare

theorem reaches_methods : p.Reaches 0 methodTable ↔ MethodsInside p.payload := by
  have memory := HttpPacket.memory_bare bare
  have stands := HttpPacket.standsAt_bare bare
  constructor
  · rintro ⟨-, get | ⟨-, post | ⟨-, head | ⟨seven, -⟩⟩⟩⟩
    · exact Or.inr (Or.inl ((stands _).mp get))
    · exact Or.inr (Or.inr (Or.inl ((stands _).mp post)))
    · exact Or.inr (Or.inr (Or.inr ((stands _).mp head)))
    · rw [memory] at seven
      have seven : 0 + 7 ≤ p.payload.length := seven
      exact Or.inl (by omega)
  · rintro (seven | get | post | head)
    · apply HttpPacket.reaches_of_length (n := 7) (by decide)
      rw [memory]
      omega
    · exact HttpPacket.reaches_of_stands [] (ascii "GET", ()) ((stands _).mpr get) (by decide)
        (by decide)
    · exact HttpPacket.reaches_of_stands (methodTable.take 1) (ascii "POST", ())
        ((stands _).mpr post) (by decide) (by decide)
    · exact HttpPacket.reaches_of_stands (methodTable.take 2) (ascii "HEAD", ())
        ((stands _).mpr head) (by decide) (by decide)

theorem httpChecker_inside : ReadsInside (httpChecker p) ↔ MethodsInside p.payload := by
  unfold httpChecker
  rw [HttpPacket.readsInside_compare, reaches_methods bare]
  exact and_iff_left (readsInside_ok _)

theorem readFirstLine_inside : ReadsInside (readFirstLine p) ↔ FirstLineInside p.payload := by
  have memory := HttpPacket.memory_bare bare
  have stands := HttpPacket.standsAt_bare bare (ascii "HTTP/1")
  unfold readFirstLine FirstLineInside
  rw [HttpPacket.readsInside_compare]
  have version : p.Reaches 0 [(ascii "HTTP/1", ())] ↔ 6 ≤ p.payload.length := by
    rw [HttpPacket.reaches_cons, memory]
    refine ⟨fun reaches => ?_, fun six => ⟨?_, Or.inr trivial⟩⟩
    · have six : 0 + 6 ≤ p.payload.length := reaches.1
      omega
    · show 0 + 6 ≤ p.payload.length
      omega
  rw [version]
  refine and_congr_right fun _ => ?_
  by_cases response : ascii "HTTP/1" <+: p.payload
  · rw [List.find?_cons, stands.mpr response, imp_iff_right response, memory]
    refine Iff.trans ?_ (and_iff_left fun other => absurd response other).symm
    rw [← readsInside_scanNumeral]
    exact readsInside_first fun _ _ => readsInside_ok _
  · have other : p.standsAt 0 (ascii "HTTP/1") = false :=
      Bool.eq_false_iff.mpr fun found => response (stands.mp found)
    rw [List.find?_cons, other, List.find?_nil, imp_iff_right response]
    refine Iff.trans ?_ (and_iff_right fun found => absurd found response).symm
    show ReadsInside (p.compare 0 methodTable >>= _) ↔ _
    rw [HttpPacket.readsInside_compare, reaches_methods bare]
    exact and_iff_left (readsInside_ok _)

end

theorem extractUri_inside (s : HTTPProtocol) (i : Obj) (p : L7Packet) :
    ReadsInside (extractUri s i p) := by
  intro outside
  unfold extractUri at outside
  split at outside
  · split at outside
    · cases outside
    · cases outside
  · split at outside
    · cases outside
    · split at outside
      · dsimp only at outside
        split at outside
        · rename_i e cut
          obtain rfl := Except.error.inj outside
          exact absurd cut (readsInside_substr _ _ _)
        · rename_i k uri cut
          split at outside
          · cases outside
          · rename_i e attached
            obtain rfl := Except.error.inj outside
            unfold onWorld at attached
            split at attached
            · cases attached
            · rename_i f failed
              obtain rfl := World.intern_error failed
              cases attached
      · cases outside

theorem extractUriWithin_inside (s : HTTPProtocol) (i : Obj) {p : L7Packet} (bare : p.beyond = []) :
    ReadsInside (extractUriWithin s i p) ↔ FirstLineInside p.payload := by
  rw [← readFirstLine_inside bare]
  exact readsInside_first fun _ _ => extractUri_inside s i p

theorem readFirstLine_ends (p : L7Packet) :
    Ends (fun e => e = .fault .outOfBounds) Any (readFirstLine p) := by
  unfold readFirstLine
  apply ends_bind p.compare_ends
  intro response _
  split
  · apply ends_bind scanNumeral_ends
    intro _ _
    trivial
  · apply ends_bind p.compare_ends
    intro _ _
    trivial

/-- While no octet is missing the uri is cut as the protocol cuts it. -/
theorem extractUriWithin_eq (s : HTTPProtocol) (i : Obj) {p : L7Packet} (bare : p.beyond = [])
    (inside : FirstLineInside p.payload) : extractUriWithin s i p = extractUri s i p := by
  have first := (readFirstLine_inside bare).mpr inside
  unfold extractUriWithin
  cases read : readFirstLine p with
  | ok _ => rfl
  | error e =>
    have missing := readFirstLine_ends p
    rw [read] at missing
    rw [show e = .fault .outOfBounds from missing] at read
    exact absurd read first

end HTTPProtocol

/-! ### SSL -/

namespace SSLProtocol

def sslChecker (p : L7Packet) : Except Failure Bool := do
  let octets ← p.slice 0 2
  .ok (decide (octets = [0x16, 0x03]))

end SSLProtocol

/-! ### SMTP -/

namespace SMTPProtocol

/-- The first message of the server. -/
def smtpChecker (p : L7Packet) (source : BitVec 16) : Except Failure Bool := do
  let code ← p.slice 0 3
  .ok (decide (code = ascii "220" ∧ (source = 25 ∨ source = 2525 ∨ source = 587)))

/-- `processCommands`, with the octets of the command or of the response code. -/
def processCommandsWithin (a : Obj) (p : L7Packet) (s : SMTPProtocol) (i : Obj) :
    Except Failure SMTPProtocol :=
  if p.direction = .forward then do
    let found ← p.compare 0 commands
    match found with
    | none => .ok s
    | some (_, cmd) => do
      let s ← handleCommand s a i p.payload cmd
      .ok (s.setInfo i { command := cmd })
  else do
    let _ ← p.slice 0 3
    .ok s

def processFlowWithin (s : SMTPProtocol) (a : Obj) (p : L7Packet) : Except Failure SMTPProtocol :=
  s.withInfo .smtp {} a (Inspector.unlessBanned (processCommandsWithin a p))

/-- There is room for every command, or the first one stands there. -/
def CommandsInside (payload : Bytes) : Prop := 10 ≤ payload.length ∨ ascii "EHLO" <+: payload

variable {s : SMTPProtocol} {a i : Obj} {p : L7Packet}

theorem handleCmdMail_inside (s : SMTPProtocol) (a i : Obj) (header : Bytes) :
    ReadsInside (handleCmdMail s a i header) := by
  unfold handleCmdMail
  split
  · apply readsInside_bind (readsInside_substr _ _ _)
    intro address _
    split
    · exact readsInside_ok _
    · apply readsInside_bind (readsInside_substr _ _ _)
      intro domain _
      split
      · exact readsInside_ok _
      · exact Inspector.readsInside_onWorld
  · exact readsInside_ok _

theorem handleCmdRcpt_inside (s : SMTPProtocol) (i : Obj) (header : Bytes) :
    ReadsInside (handleCmdRcpt s i header) := by
  unfold handleCmdRcpt
  split
  · exact readsInside_ok s
  · apply readsInside_bind (readsInside_substr _ _ _)
    intro address _
    exact Inspector.readsInside_onWorld

theorem handleCommand_inside (s : SMTPProtocol) (a i : Obj) (header : Bytes)
    (cmd : SMTPCommandTypes) : ReadsInside (handleCommand s a i header cmd) := by
  unfold handleCommand
  split
  · exact handleCmdMail_inside s a i header
  · exact handleCmdRcpt_inside s i header
  · exact readsInside_ok s

/-- While no octet is missing the packet is handled as the protocol handles it. -/
theorem processCommandsWithin_eq (inside : if p.direction = .forward then p.Reaches 0 commands
      else 3 ≤ p.memory.length) :
    processCommandsWithin a p s i = processCommands a p s i := by
  unfold processCommandsWithin processCommands
  by_cases forward : p.direction = .forward
  · rw [if_pos forward] at inside
    rw [if_pos forward, if_pos forward, HttpPacket.compare_reaches inside]
    rfl
  · rw [if_neg forward] at inside
    rw [if_neg forward, if_neg forward, HttpPacket.slice_inside (by omega)]
    rfl

theorem reaches_commands (bare : p.beyond = []) :
    p.Reaches 0 commands ↔ CommandsInside p.payload := by
  have memory := HttpPacket.memory_bare bare
  have stands := HttpPacket.standsAt_bare bare
  constructor
  · rintro ⟨-, ehlo | ⟨ten, -⟩⟩
    · exact Or.inr ((stands _).mp ehlo)
    · rw [memory] at ten
      have ten : 0 + 10 ≤ p.payload.length := ten
      exact Or.inl (by omega)
  · rintro (ten | ehlo)
    · apply HttpPacket.reaches_of_length (n := 10) (by decide)
      rw [memory]
      omega
    · exact HttpPacket.reaches_of_stands [] (ascii "EHLO", .ehlo) ((stands _).mpr ehlo) (by decide)
        (by decide)

theorem processCommandsWithin_inside (bare : p.beyond = []) :
    ReadsInside (processCommandsWithin a p s i) ↔
      if p.direction = .forward then CommandsInside p.payload else 3 ≤ p.payload.length := by
  unfold processCommandsWithin
  by_cases forward : p.direction = .forward
  · rw [if_pos forward, if_pos forward, HttpPacket.readsInside_compare, reaches_commands bare]
    refine and_iff_left ?_
    split
    · exact readsInside_ok s
    · refine (readsInside_first fun _ _ => readsInside_ok _).mpr ?_
      exact handleCommand_inside s a i p.payload _
  · rw [if_neg forward, if_neg forward, HttpPacket.readsInside_slice, HttpPacket.memory_bare bare,
      Nat.zero_add]
    exact and_iff_left (readsInside_ok s)

end SMTPProtocol

/-! ### POP -/

namespace POPProtocol

def popChecker (p : L7Packet) (source : BitVec 16) : Except Failure Bool := do
  let status ← p.slice 0 4
  .ok (decide (status = ascii "+OK " ∧ source = 110))

/-- `processCommands`, with the octets that the commands are compared with. -/
def processCommandsWithin (a : Obj) (p : L7Packet) (s : POPProtocol) (i : Obj) :
    Except Failure POPProtocol :=
  if p.direction = .forward then do
    let found ← p.compare 0 commands
    match found with
    | none => .ok s
    | some (_, cmd) =>
      let s := s.setInfo i (s.infos i).incClientCommands
      if cmd = .user then handleCmdUser s a i p.payload else .ok s
  else .ok (s.setInfo i (s.infos i).incServerCommands)

def processFlowWithin (s : POPProtocol) (a : Obj) (p : L7Packet) : Except Failure POPProtocol :=
  s.withInfo .pop {} a (Inspector.unlessBanned (processCommandsWithin a p))

variable {s : POPProtocol} {a i : Obj} {p : L7Packet}

theorem handleCmdUser_inside (s : POPProtocol) (a i : Obj) (header : Bytes) :
    ReadsInside (handleCmdUser s a i header) := by
  unfold handleCmdUser
  split
  · split
    · exact readsInside_ok _
    · apply readsInside_bind (readsInside_substr _ _ _)
      intro userName _
      apply readsInside_bind (readsInside_substr _ _ _)
      intro domain _
      split
      · exact readsInside_ok _
      · exact Inspector.readsInside_onWorld
  · exact readsInside_ok _

/-- While no octet is missing the packet is handled as the protocol handles it. -/
theorem processCommandsWithin_eq (inside : p.direction = .forward → p.Reaches 0 commands) :
    processCommandsWithin a p s i = processCommands a p s i := by
  unfold processCommandsWithin processCommands
  by_cases forward : p.direction = .forward
  · rw [if_pos forward, if_pos forward, HttpPacket.compare_reaches (inside forward)]
    rfl
  · rw [if_neg forward, if_neg forward]

theorem reaches_commands (bare : p.beyond = []) :
    p.Reaches 0 commands ↔ 4 ≤ p.payload.length := by
  have memory := HttpPacket.memory_bare bare
  constructor
  · rintro ⟨four, -⟩
    rw [memory] at four
    have four : 0 + 4 ≤ p.payload.length := four
    omega
  · intro four
    apply HttpPacket.reaches_of_length (n := 4) (by decide)
    rw [memory]
    omega

theorem processCommandsWithin_inside (bare : p.beyond = []) :
    ReadsInside (processCommandsWithin a p s i) ↔
      (p.direction = .forward → 4 ≤ p.payload.length) := by
  unfold processCommandsWithin
  by_cases forward : p.direction = .forward
  · rw [if_pos forward, imp_iff_right forward, HttpPacket.readsInside_compare,
      reaches_commands bare]
    refine and_iff_left ?_
    split
    · exact readsInside_ok s
    · dsimp only
      split
      · exact handleCmdUser_inside _ a i p.payload
      · exact readsInside_ok _
  · rw [if_neg forward]
    exact iff_of_true (readsInside_ok _) fun found => absurd found forward

end POPProtocol

/-! ### All readers -/

/-- A function that looks at a payload, with what else it is called with. -/
inductive PayloadReader where
  | httpChecker
  | extractUri (s : HTTPProtocol) (i : Obj)
  | sslChecker
  | smtpChecker (source : BitVec 16)
  | smtpFlow (s : SMTPProtocol) (a : Obj)
  | popChecker (source : BitVec 16)
  | popFlow (s : POPProtocol) (a : Obj)

namespace PayloadReader

/-- No octet that is looked at is missing. -/
def Inside (p : L7Packet) : PayloadReader → Prop
  | httpChecker => ReadsInside (HTTPProtocol.httpChecker p)
  | extractUri s i => ReadsInside (HTTPProtocol.extractUriWithin s i p)
  | sslChecker => ReadsInside (SSLProtocol.sslChecker p)
  | smtpChecker source => ReadsInside (SMTPProtocol.smtpChecker p source)
  | smtpFlow s a => ReadsInside (SMTPProtocol.processFlowWithin s a p)
  | popChecker source => ReadsInside (POPProtocol.popChecker p source)
  | popFlow s a => ReadsInside (POPProtocol.processFlowWithin s a p)

/-- What the payload has to be for that. -/
def Guarded (payload : Bytes) (direction : FlowDirection) : PayloadReader → Prop
  | httpChecker => HTTPProtocol.MethodsInside payload
  | extractUri _ _ => HTTPProtocol.FirstLineInside payload
  | sslChecker => 2 ≤ payload.length
  | smtpChecker _ => 3 ≤ payload.length
  | smtpFlow s a => Inspector.Unbanned .smtp {} s a →
      if direction = .forward then SMTPProtocol.CommandsInside payload else 3 ≤ payload.length
  | popChecker _ => 4 ≤ payload.length
  | popFlow s a => Inspector.Unbanned .pop {} s a → direction = .forward → 4 ≤ payload.length

/-- A payload of any length, with nothing behind it. -/
theorem inside_iff (r : PayloadReader) (payload : Bytes) (direction : FlowDirection) :
    r.Inside { payload := payload, direction := direction } ↔ r.Guarded payload direction := by
  have fixed : ∀ (n : Nat) (test : Bytes → Bool), ReadsInside (HttpPacket.slice
      { payload := payload, direction := direction } 0 n >>= fun octets => .ok (test octets)) ↔
        n ≤ payload.length := by
    intro n test
    rw [HttpPacket.readsInside_slice, HttpPacket.memory_bare rfl, Nat.zero_add]
    exact and_iff_left (readsInside_ok _)
  cases r with
  | httpChecker => exact HTTPProtocol.httpChecker_inside rfl
  | extractUri s i => exact HTTPProtocol.extractUriWithin_inside s i rfl
  | sslChecker => exact fixed 2 _
  | smtpChecker source => exact fixed 3 _
  | smtpFlow s a =>
    exact Inspector.withInfo_unbanned readsInside_ok (by simp [ReadsInside])
      fun _ _ => SMTPProtocol.processCommandsWithin_inside rfl
  | popChecker source => exact fixed 4 _
  | popFlow s a =>
    exact Inspector.withInfo_unbanned readsInside_ok (by simp [ReadsInside])
      fun _ _ => POPProtocol.processCommandsWithin_inside rfl

/-- One octet is enough for none of them. -/
theorem not_always_inside : ¬∀ (r : PayloadReader) (payload : Bytes) (direction : FlowDirection),
    1 ≤ payload.length → r.Inside { payload := payload, direction := direction } := by
  intro all
  exact all sslChecker [0x16] .forward (by decide) rfl

end PayloadReader

end AIEngine
