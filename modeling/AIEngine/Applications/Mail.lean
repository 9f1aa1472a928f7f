import AIEngine.Applications.Inspector

/-!
# Mail (`SMTPProtocol.cc`, `POPProtocol.cc`, `IMAPProtocol.cc`)

The client's commands are told apart by their first octets. One command of each protocol names a
user, whose domain the ban manager is asked for; a banned info is marked.
-/

namespace AIEngine

open Octets (ascii)

/-! ### SMTP -/

inductive SMTPCommandTypes where
  | ehlo | auth | mail | rcpt | data | expn | vrfy | rset | help | noop | quit
  deriving DecidableEq, Repr

/-- `reset` sets the command to zero. -/
structure SMTPInfo where
  command : SMTPCommandTypes := .ehlo
  deriving DecidableEq, Repr

abbrev SMTPProtocol := Inspector SMTPInfo Unit

namespace SMTPProtocol

/-- The supported commands, in their order. -/
def commands : List (Bytes × SMTPCommandTypes) :=
  [(ascii "EHLO", .ehlo), (ascii "AUTH LOGIN", .auth), (ascii "MAIL FROM:", .mail),
    (ascii "RCPT TO:", .rcpt), (ascii "DATA", .data), (ascii "EXPN", .expn), (ascii "VRFY", .vrfy),
    (ascii "RSET", .rset), (ascii "HELP", .help), (ascii "NOOP", .noop), (ascii "QUIT", .quit)]

def handleCmdMail (s : SMTPProtocol) (a i : Obj) (header : Bytes) : Except Failure SMTPProtocol :=
  match Octets.find (ascii "<") header, Octets.rfind 0x3e header with
  | some first, some last => do
    let address ← substr header (first + 1) ((last : Int) - first - 1)
    match Octets.find (ascii "@") address with
    | none => .ok (s.noteAnomaly a .smtpBogusHeader)
    | some token =>
      let domain ← substr address (token + 1) address.length
      if s.isBanDomain domain then .ok (s.countBan.setIsBanned i)
      else s.countAllow.onWorld (World.Smtp.attachFrom s.world i address)
  | _, _ => .ok (s.noteAnomaly a .smtpBogusHeader)

/-- A bracket that is missing stands at `npos`, one before the first place. -/
def npos (place : Option Nat) : Int :=
  match place with
  | some k => k
  | none => -1

def handleCmdRcpt (s : SMTPProtocol) (i : Obj) (header : Bytes) : Except Failure SMTPProtocol :=
  if (s.world.lockString .smtp ((s.world.infos i).strings .toAddr)).isSome then .ok s
  else do
    let first := npos (Octets.find (ascii "<") header)
    let last := npos (Octets.rfind 0x3e header)
    let address ← substr header (first + 1).toNat (last - first - 1)
    s.onWorld (World.Smtp.attachTo s.world i address)

def handleCommand (s : SMTPProtocol) (a i : Obj) (header : Bytes) :
    SMTPCommandTypes → Except Failure SMTPProtocol
  | .mail => handleCmdMail s a i header
  | .rcpt => handleCmdRcpt s i header
  | _ => .ok s

/-- The answers of the server only count. -/
def processCommands (a : Obj) (p : L7Packet) (s : SMTPProtocol) (i : Obj) :
    Except Failure SMTPProtocol :=
  if p.direction = .forward then
    match commands.find? fun command => p.startsWith command.1 with
    | none => .ok s
    | some (_, cmd) => do
      let s ← handleCommand s a i p.payload cmd
      .ok (s.setInfo i { command := cmd })
  else .ok s

def processFlow (s : SMTPProtocol) (a : Obj) (p : L7Packet) : Except Failure SMTPProtocol :=
  s.withInfo .smtp {} a (Inspector.unlessBanned (processCommands a p))

end SMTPProtocol

/-! ### POP -/

inductive POPCommandTypes where
  | stat | list | retr | dele | noop | rset | top | uidl | user | pass | apop | quit
  deriving DecidableEq, Repr

/-- Two counters of type `int16_t`. -/
structure MailCommands where
  client : Int := 0
  server : Int := 0
  deriving DecidableEq, Repr

def MailCommands.incClientCommands (c : MailCommands) : MailCommands :=
  { c with client := HTTPProtocol.int16 (c.client + 1) }

def MailCommands.incServerCommands (c : MailCommands) : MailCommands :=
  { c with server := HTTPProtocol.int16 (c.server + 1) }

abbrev POPProtocol := Inspector MailCommands Unit

namespace POPProtocol

def commands : List (Bytes × POPCommandTypes) :=
  [(ascii "STAT", .stat), (ascii "LIST", .list), (ascii "RETR", .retr), (ascii "DELE", .dele),
    (ascii "NOOP", .noop), (ascii "RSET", .rset), (ascii "TOP", .top), (ascii "UIDL", .uidl),
    (ascii "USER", .user), (ascii "PASS", .pass), (ascii "APOP", .apop), (ascii "QUIT", .quit)]

/-- A line end before the sixth octet gives a huge unsigned number, as a missing one does. -/
def handleCmdUser (s : POPProtocol) (a i : Obj) (header : Bytes) : Except Failure POPProtocol :=
  match Octets.find (ascii "@") header, Octets.find (ascii "\r\n") header with
  | some token, some line =>
    if line < 5 then .ok (s.noteAnomaly a .popBogusHeader)
    else do
      let userName ← substr header 5 ((line : Int) - 5)
      let domain ← substr header (token + 1) ((header.length : Int) - 2)
      if s.isBanDomain domain then .ok (s.countBan.setIsBanned i)
      else s.countAllow.onWorld (World.Pop.attachUserName s.world i userName)
  | _, _ => .ok (s.noteAnomaly a .popBogusHeader)

def processCommands (a : Obj) (p : L7Packet) (s : POPProtocol) (i : Obj) :
    Except Failure POPProtocol :=
  if p.direction = .forward then
    match commands.find? fun command => p.startsWith command.1 with
    | none => .ok s
    | some (_, cmd) =>
      let s := s.setInfo i (s.infos i).incClientCommands
      if cmd = .user then handleCmdUser s a i p.payload else .ok s
  else .ok (s.setInfo i (s.infos i).incServerCommands)

def processFlow (s : POPProtocol) (a : Obj) (p : L7Packet) : Except Failure POPProtocol :=
  s.withInfo .pop {} a (Inspector.unlessBanned (processCommands a p))

end POPProtocol

/-! ### IMAP -/

inductive IMAPCommandTypes where
  | capability | starttls | authenticate | uid | login | select | examine | create | delete | rename
  | subscribe | unsubscribe | list | lsub | status | append | check | close | expunge | search
  | fetch | store | copy | noop | logout
  deriving DecidableEq, Repr

abbrev IMAPProtocol := Inspector MailCommands Unit

namespace IMAPProtocol

def commands : List (Bytes × IMAPCommandTypes) :=
  [(ascii "CAPABILITY", .capability), (ascii "STARTTLS", .starttls),
    (ascii "AUTHENTICATE", .authenticate), (ascii "UID", .uid), (ascii "LOGIN", .login),
    (ascii "SELECT", .select), (ascii "EXAMINE", .examine), (ascii "CREATE", .create),
    (ascii "DELETE", .delete), (ascii "RENAME", .rename), (ascii "SUBSCRIBE", .subscribe),
    (ascii "UNSUBSCRIBE", .unsubscribe), (ascii "LIST", .list), (ascii "LSUB", .lsub),
    (ascii "STATUS", .status), (ascii "APPEND", .append), (ascii "CHECK", .check),
    (ascii "CLOSE", .close), (ascii "EXPUNGE", .expunge), (ascii "SEARCH", .search),
    (ascii "FETCH", .fetch), (ascii "STORE", .store), (ascii "COPY", .copy), (ascii "NOOP", .noop),
    (ascii "LOGOUT", .logout)]

/-- The name and the domain in the arguments: without a blank both are empty. -/
def loginNames (header : Bytes) : Except Failure (Bytes × Bytes) :=
  match Octets.find (ascii " ") header with
  | none => .ok ([], [])
  | some last => do
    let userName ← substr header 0 last
    match Octets.find (ascii "@") header with
    | none => .ok (userName, userName)
    | some token =>
      let domain ← substr header (token + 1) ((last : Int) - token)
      .ok (userName, domain)

/-- Without a blank the flow is marked, and goes on. -/
def handleCmdLogin (s : IMAPProtocol) (a i : Obj) (header : Bytes) : Except Failure IMAPProtocol := do
  let (userName, domain) ← loginNames header
  let s :=
    if (Octets.find (ascii " ") header).isSome then s else s.noteAnomaly a .imapBogusHeader
  if s.isBanDomain domain then .ok (s.countBan.setIsBanned i)
  else s.countAllow.onWorld (World.Imap.attachUserName s.world i userName)

/-- The command starts behind the blank that ends the tag; without a blank, at the first octet. -/
def commandStart (p : L7Packet) : Nat :=
  match Octets.find (ascii " ") p.payload with
  | some endtag => endtag + 1
  | none => 0

/-- The arguments start one octet behind the command. -/
def handleCommand (s : IMAPProtocol) (a i : Obj) (p : L7Packet) (text : Bytes) :
    IMAPCommandTypes → Except Failure IMAPProtocol
  | .login => do
    let cmdoff := text.length + commandStart p + 1
    let header ← substr p.payload cmdoff ((p.payload.length : Int) - cmdoff)
    handleCmdLogin s a i header
  | _ => .ok s

def processCommands (a : Obj) (p : L7Packet) (s : IMAPProtocol) (i : Obj) :
    Except Failure IMAPProtocol :=
  if p.direction = .forward then
    match commands.find? fun command => p.standsAt (commandStart p) command.1 with
    | none => .ok s
    | some (text, cmd) => do
      let s ← handleCommand s a i p text cmd
      .ok (s.setInfo i (s.infos i).incClientCommands)
  else .ok (s.setInfo i (s.infos i).incServerCommands)

def processFlow (s : IMAPProtocol) (a : Obj) (p : L7Packet) : Except Failure IMAPProtocol :=
  s.withInfo .imap {} a (Inspector.unlessBanned (processCommands a p))

end IMAPProtocol

end AIEngine
