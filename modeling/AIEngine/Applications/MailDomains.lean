import AIEngine.Applications.MailBrackets
import AIEngine.Applications.Touches
import AIEngine.Names.DomainNameManager

/-!
# The domain of a mail login

POP and IMAP cut the domain out of the line of a login and ask the ban manager for it.
-/

namespace AIEngine

open Octets (ascii)

/-- `name@domain` -/
structure LoginName where
  name : Bytes
  domain : Bytes
  plain : ∀ b ∈ name ++ domain, b ≠ 0x20 ∧ b ≠ 0x40

namespace LoginName

def text (login : LoginName) : Bytes := login.name ++ 0x40 :: login.domain

theorem at_not_mem (login : LoginName) : (0x40 : BitVec 8) ∉ login.name := fun member =>
  (login.plain _ (List.mem_append_left _ member)).2 rfl

theorem blank_not_mem (login : LoginName) : (0x20 : BitVec 8) ∉ login.text := by
  intro member
  rcases List.mem_append.mp member with name | rest
  · exact (login.plain _ (List.mem_append_left _ name)).1 rfl
  · rcases List.mem_cons.mp rest with sign | domain
    · exact absurd sign (by decide)
    · exact (login.plain _ (List.mem_append_right _ domain)).1 rfl

end LoginName

/-- A tag of IMAP ends at the first blank. -/
structure ImapTag where
  tag : Bytes
  plain : (0x20 : BitVec 8) ∉ tag

def popLine (login : LoginName) : L7Packet :=
  { payload := ascii "USER " ++ (login.text ++ ascii "\r\n"), direction := .forward }

def imapLine (tag : ImapTag) (login : LoginName) (password : Bytes) : L7Packet :=
  { payload := tag.tag ++ 0x20 ::
      (ascii "LOGIN " ++ (login.text ++ 0x20 :: (password ++ ascii "\r\n"))),
    direction := .forward }

/-- What POP and IMAP have. -/
abbrev MailInspector := Inspector MailCommands Unit

/-- Work on a flow with an info that is not banned asks for a string: it bans the info when the
manager knows that string, and not otherwise. -/
def Asks (p : L7Protocol) (a : Obj) (process : MailInspector → Except Failure MailInspector)
    (name : Bytes) : Prop :=
  ∀ s s' i, s.attachInfo p {} a = .ok (some i, s') → (s'.world.infos i).isBanned = false →
    ((∃ t, process s = .ok t ∧ (t.world.infos i).isBanned = true) ↔ s.isBanDomain name = true)

/-! ### The string of each line -/

section Pop

variable (login : LoginName)

/-- `USER ` has no line end. -/
theorem find_line_user (rest : Bytes) : Octets.find (ascii "\r\n") (ascii "USER " ++ rest) =
    (Octets.find (ascii "\r\n") rest).map (· + 5) := by
  have steps : Octets.find (ascii "\r\n") (ascii "USER " ++ rest) =
      (((((Octets.find (ascii "\r\n") rest).map (· + 1)).map (· + 1)).map (· + 1)).map (· + 1)).map
        (· + 1) := rfl
  rw [steps]
  cases Octets.find (ascii "\r\n") rest <;> rfl

theorem popLine_find_line :
    ∃ k, Octets.find (ascii "\r\n") (popLine login).payload = some (k + 5) := by
  obtain ⟨k, line⟩ : ∃ k, Octets.find (ascii "\r\n") (login.text ++ ascii "\r\n") = some k := by
    refine Option.ne_none_iff_exists'.mp fun absent => ?_
    exact (Octets.find_eq_none _ (by decide)).mp absent (List.suffix_append _ _).isInfix
  refine ⟨k, ?_⟩
  show Octets.find _ (ascii "USER " ++ (login.text ++ ascii "\r\n")) = _
  rw [find_line_user, line]
  rfl

theorem popLine_find_sign :
    Octets.find (ascii "@") (popLine login).payload = some (5 + login.name.length) := by
  have shape : (popLine login).payload =
      (ascii "USER " ++ login.name) ++ 0x40 :: (login.domain ++ ascii "\r\n") := by
    simp [popLine, LoginName.text]
  have front : (0x40 : BitVec 8) ∉ ascii "USER " ++ login.name := by
    intro member
    rcases List.mem_append.mp member with user | name
    · exact absurd user (by decide)
    · exact login.at_not_mem name
  have found := Octets.find_octet front (login.domain ++ ascii "\r\n")
  rw [List.length_append] at found
  rw [shape]
  exact found

/-- The count is that of the whole line but its end, so that the end is in what is cut. -/
theorem popLine_domain : substr (popLine login).payload (5 + login.name.length + 1)
    (((popLine login).payload.length : Int) - 2) = .ok (login.domain ++ ascii "\r\n") := by
  have whole : (popLine login).payload =
      (ascii "USER " ++ (login.name ++ [0x40])) ++ (login.domain ++ ascii "\r\n") := by
    simp [popLine, LoginName.text]
  have user : (ascii "USER ").length = 5 := rfl
  have line : (ascii "\r\n").length = 2 := rfl
  have size : (((popLine login).payload.length : Int) - 2) =
      ((login.name.length + login.domain.length + 6 : Nat) : Int) := by
    rw [whole]
    simp only [List.length_append, List.length_singleton, user, line]
    omega
  have place : 5 + login.name.length + 1 = (ascii "USER " ++ (login.name ++ [0x40])).length := by
    rw [List.length_append, List.length_append, user, List.length_singleton]
    omega
  rw [size, whole, substr_behind _ _ place, List.take_of_length_le]
  rw [List.length_append, line]
  omega

theorem handleCmdUser_line (s : POPProtocol) (a i : Obj) :
    ∃ userName, POPProtocol.handleCmdUser s a i (popLine login).payload =
      if s.isBanDomain (login.domain ++ ascii "\r\n") then .ok (s.countBan.setIsBanned i)
      else s.countAllow.onWorld (World.Pop.attachUserName s.world i userName) := by
  obtain ⟨k, line⟩ := popLine_find_line login
  have name : substr (popLine login).payload 5 k = .ok ((login.text ++ ascii "\r\n").take k) :=
    substr_behind (ascii "USER ") _ rfl k
  have size : ((k + 5 : Nat) : Int) - 5 = (k : Nat) := by omega
  refine ⟨(login.text ++ ascii "\r\n").take k, ?_⟩
  unfold POPProtocol.handleCmdUser
  rw [popLine_find_sign, line]
  show (if k + 5 < 5 then _ else substr _ 5 (((k + 5 : Nat) : Int) - 5) >>= fun userName => _) = _
  rw [if_neg (by omega), size]
  rw [name]
  show (substr (popLine login).payload _ _ >>= fun domain => _) = _
  rw [popLine_domain]
  rfl

end Pop

section Imap

variable (login : LoginName) (rest : Bytes)

theorem login_find_sign :
    Octets.find (ascii "@") (login.text ++ 0x20 :: rest) = some login.name.length := by
  have whole : login.text ++ 0x20 :: rest = login.name ++ 0x40 :: (login.domain ++ 0x20 :: rest) := by
    simp [LoginName.text]
  rw [whole]
  exact Octets.find_octet login.at_not_mem _

/-- The count reaches from the sign to the blank, one octet too far from the octet behind the sign. -/
theorem login_domain : substr (login.text ++ 0x20 :: rest) (login.name.length + 1)
    ((login.text.length : Int) - login.name.length) = .ok (login.domain ++ ascii " ") := by
  have whole : login.text ++ 0x20 :: rest =
      (login.name ++ [0x40]) ++ ((login.domain ++ ascii " ") ++ rest) := by
    simp [LoginName.text, ascii]
  have size : (login.text.length : Int) - login.name.length =
      (((login.domain ++ ascii " ").length : Nat) : Int) := by
    have blank : (ascii " ").length = 1 := rfl
    simp only [LoginName.text, List.length_append, List.length_cons, blank]
    omega
  have place : login.name.length + 1 = (login.name ++ [0x40]).length := by
    rw [List.length_append, List.length_singleton]
  rw [whole, size, substr_behind _ _ place, List.take_left]

theorem loginNames_line : IMAPProtocol.loginNames (login.text ++ 0x20 :: rest) =
    .ok (login.text, login.domain ++ ascii " ") := by
  have user : substr (login.text ++ 0x20 :: rest) 0 login.text.length =
      .ok ((login.text ++ 0x20 :: rest).take login.text.length) := substr_behind [] _ rfl _
  have blank : Octets.find (ascii " ") (login.text ++ 0x20 :: rest) = some login.text.length :=
    Octets.find_octet login.blank_not_mem rest
  rw [List.take_left] at user
  unfold IMAPProtocol.loginNames
  rw [blank, login_find_sign]
  show (substr _ 0 (login.text.length : Nat) >>= fun userName => _) = _
  rw [user]
  show (substr _ _ _ >>= fun domain => _) = _
  rw [login_domain]
  rfl

theorem handleCmdLogin_line (s : IMAPProtocol) (a i : Obj) :
    IMAPProtocol.handleCmdLogin s a i (login.text ++ 0x20 :: rest) =
      if s.isBanDomain (login.domain ++ ascii " ") then .ok (s.countBan.setIsBanned i)
      else s.countAllow.onWorld (World.Imap.attachUserName s.world i login.text) := by
  have blank : Octets.find (ascii " ") (login.text ++ 0x20 :: rest) = some login.text.length :=
    Octets.find_octet login.blank_not_mem rest
  unfold IMAPProtocol.handleCmdLogin
  rw [loginNames_line, blank]
  rfl

end Imap

/-! ### The manager is asked for it -/

theorem intern_isBanned {w w' : World} {q : L7Protocol} {x : StringField} {always countHit : Bool}
    {i : Obj} {value : Bytes} (h : w.intern q x always countHit i value = .ok w')
    (banned : (w'.infos i).isBanned = true) : (w.infos i).isBanned = true := by
  have keeps : World.KeepsInfos .dns i w w' := World.intern_keepsInfos h
  rcases keeps.marked i banned with before | marks
  · exact before
  · exact absurd marks.2 (by decide)

/-- A ban, or a string that is attached. -/
def answer (q : L7Protocol) (x : StringField) (s : MailInspector) (i : Obj) (name value : Bytes) :
    Except Failure MailInspector :=
  if s.isBanDomain name then .ok (s.countBan.setIsBanned i)
  else s.countAllow.onWorld (s.world.intern q x false true i value)

theorem answer_bans {q : L7Protocol} {x : StringField} {s : MailInspector} {i : Obj}
    (free : (s.world.infos i).isBanned = false) (name value : Bytes) :
    (∃ t, answer q x s i name value = .ok t ∧ (t.world.infos i).isBanned = true) ↔
      s.isBanDomain name = true := by
  unfold answer
  by_cases banned : s.isBanDomain name = true
  · rw [if_pos banned]
    refine iff_of_true ⟨_, rfl, ?_⟩ banned
    simp [Inspector.setIsBanned, World.setBanned, World.setInfo]
  · rw [if_neg banned]
    refine iff_of_false ?_ banned
    rintro ⟨t, ran, marked⟩
    cases attached : s.world.intern q x false true i value with
    | error e =>
      rw [attached] at ran
      cases ran
    | ok w =>
      rw [attached] at ran
      obtain rfl := Except.ok.inj ran
      have before := intern_isBanned attached marked
      rw [free] at before
      cases before

/-- The same when members of the protocol are written behind it. -/
theorem answer_bans_after {q : L7Protocol} {x : StringField} {s : MailInspector} {i : Obj}
    (free : (s.world.infos i).isBanned = false) (name value : Bytes)
    {after : MailInspector → MailInspector} (world : ∀ t, (after t).world = t.world) :
    (∃ t, (answer q x s i name value >>= fun t => Except.ok (after t)) = .ok t ∧
      (t.world.infos i).isBanned = true) ↔ s.isBanDomain name = true := by
  rw [← answer_bans free name value]
  cases answer q x s i name value with
  | error e => exact Iff.rfl
  | ok u =>
    constructor
    · rintro ⟨t, ran, marked⟩
      obtain rfl := Except.ok.inj ran
      rw [world] at marked
      exact ⟨u, rfl, marked⟩
    · rintro ⟨t, ran, marked⟩
      obtain rfl := Except.ok.inj ran
      refine ⟨after u, rfl, ?_⟩
      rw [world]
      exact marked

theorem popLine_command (login : LoginName) :
    POPProtocol.commands.find? (fun command => (popLine login).startsWith command.1) =
      some (ascii "USER", .user) := rfl

theorem popLine_commands (login : LoginName) (a i : Obj) (s : POPProtocol) :
    ∃ userName, POPProtocol.processCommands a (popLine login) s i =
      answer .pop .userName (s.setInfo i (s.infos i).incClientCommands) i
        (login.domain ++ ascii "\r\n") userName := by
  obtain ⟨userName, handled⟩ :=
    handleCmdUser_line login (s.setInfo i (s.infos i).incClientCommands) a i
  refine ⟨userName, ?_⟩
  have forward : (popLine login).direction = .forward := rfl
  unfold POPProtocol.processCommands
  rw [if_pos forward, popLine_command]
  exact handled

theorem imapLine_start (tag : ImapTag) (login : LoginName) (password : Bytes) :
    IMAPProtocol.commandStart (imapLine tag login password) = tag.tag.length + 1 := by
  have blank : Octets.find (ascii " ") (imapLine tag login password).payload =
      some tag.tag.length := Octets.find_octet tag.plain _
  unfold IMAPProtocol.commandStart
  rw [blank]

theorem imapLine_behind (tag : ImapTag) (login : LoginName) (password : Bytes) :
    (imapLine tag login password).memory.drop (tag.tag.length + 1) =
      ascii "LOGIN " ++ (login.text ++ 0x20 :: (password ++ ascii "\r\n")) := by
  have whole : (imapLine tag login password).memory = (tag.tag ++ [0x20]) ++
      (ascii "LOGIN " ++ (login.text ++ 0x20 :: (password ++ ascii "\r\n"))) := by
    simp [imapLine, HttpPacket.memory]
  have size : tag.tag.length + 1 = (tag.tag ++ [0x20]).length := by simp
  rw [whole, size, List.drop_left]

theorem imapLine_command (tag : ImapTag) (login : LoginName) (password : Bytes) :
    IMAPProtocol.commands.find? (fun command => (imapLine tag login password).standsAt
      (IMAPProtocol.commandStart (imapLine tag login password)) command.1) =
        some (ascii "LOGIN", .login) := by
  unfold HttpPacket.standsAt
  simp only [imapLine_start, imapLine_behind]
  rfl

theorem imapLine_commands (tag : ImapTag) (login : LoginName) (password : Bytes) (a i : Obj)
    (s : IMAPProtocol) : IMAPProtocol.processCommands a (imapLine tag login password) s i =
      answer .imap .userName s i (login.domain ++ ascii " ") login.text >>= fun s =>
        .ok (s.setInfo i (s.infos i).incClientCommands) := by
  have forward : (imapLine tag login password).direction = .forward := rfl
  have whole : (imapLine tag login password).payload = (tag.tag ++ 0x20 :: ascii "LOGIN ") ++
      (login.text ++ 0x20 :: (password ++ ascii "\r\n")) := by
    simp [imapLine]
  have start : (ascii "LOGIN").length + (tag.tag.length + 1) + 1 =
      (tag.tag ++ 0x20 :: ascii "LOGIN ").length := by
    have login : (ascii "LOGIN").length = 5 ∧ (ascii "LOGIN ").length = 6 := ⟨rfl, rfl⟩
    rw [List.length_append, List.length_cons]
    omega
  have count : (((imapLine tag login password).payload.length : Int) -
      ((ascii "LOGIN").length + (tag.tag.length + 1) + 1 : Nat)) =
        ((login.text ++ 0x20 :: (password ++ ascii "\r\n")).length : Nat) := by
    have sizes := congrArg List.length whole
    rw [List.length_append, ← start] at sizes
    omega
  have arguments : substr (imapLine tag login password).payload
      ((ascii "LOGIN").length + (tag.tag.length + 1) + 1)
      (((imapLine tag login password).payload.length : Int) -
        ((ascii "LOGIN").length + (tag.tag.length + 1) + 1 : Nat)) =
          .ok (login.text ++ 0x20 :: (password ++ ascii "\r\n")) := by
    rw [count, whole, substr_behind _ _ start, List.take_length]
  unfold IMAPProtocol.processCommands
  rw [if_pos forward, imapLine_command]
  show (IMAPProtocol.handleCommand s a i _ (ascii "LOGIN") .login >>= fun s => _) = _
  unfold IMAPProtocol.handleCommand
  rw [imapLine_start]
  show ((substr _ _ _ >>= fun header => IMAPProtocol.handleCmdLogin s a i header) >>= _) = _
  rw [arguments]
  show (IMAPProtocol.handleCmdLogin s a i _ >>= fun s => _) = _
  rw [handleCmdLogin_line]
  rfl

/-- What is asked for with an info is asked for by the flow. -/
theorem asks_withInfo {p : L7Protocol} {a : Obj} {name : Bytes}
    {process : MailInspector → Obj → Except Failure MailInspector}
    (bans : ∀ s i, (s.world.infos i).isBanned = false →
      ((∃ t, process s i = .ok t ∧ (t.world.infos i).isBanned = true) ↔
        s.isBanDomain name = true)) :
    Asks p a (fun s => s.withInfo p {} a (Inspector.unlessBanned process)) name := by
  intro s s' i attached free
  have manager : s.isBanDomain name = s'.isBanDomain name := by
    unfold Inspector.isBanDomain
    obtain ⟨-, infos, shape⟩ := Inspector.attachInfo_keeps attached
    rw [shape]
  have runs : s.withInfo p {} a (Inspector.unlessBanned process) = process s' i := by
    unfold Inspector.withInfo Inspector.unlessBanned
    rw [attached]
    simp only [free, Bool.false_eq_true, if_false]
  rw [manager, ← bans s' i free]
  show (∃ t, s.withInfo p {} a (Inspector.unlessBanned process) = .ok t ∧ _) ↔ _
  rw [runs]

theorem popLine_asks (login : LoginName) (a : Obj) :
    Asks .pop a (fun s => POPProtocol.processFlow s a (popLine login))
      (login.domain ++ ascii "\r\n") := by
  refine asks_withInfo fun s i free => ?_
  obtain ⟨userName, line⟩ := popLine_commands login a i s
  rw [line]
  exact answer_bans (s := s.setInfo i (s.infos i).incClientCommands) free _ userName

theorem imapLine_asks (tag : ImapTag) (login : LoginName) (password : Bytes) (a : Obj) :
    Asks .imap a (fun s => IMAPProtocol.processFlow s a (imapLine tag login password))
      (login.domain ++ ascii " ") := by
  refine asks_withInfo fun s i free => ?_
  rw [imapLine_commands]
  exact answer_bans_after free _ _ fun _ => rfl

/-- A protocol with one object in each pool, and a manager that knows one name. -/
def knowing (name : Bytes) : MailInspector :=
  { world := World.start (fun _ => 1) none
    infos := fun _ => {}
    own := ()
    banDomains := some fun other => decide (other = name) }

/-- Only one string is asked for. -/
theorem asks_unique {p : L7Protocol} {a : Obj} {name other : Bytes}
    {process : MailInspector → Except Failure MailInspector} (asks : Asks p a process name)
    (different : name ≠ other) {i : Obj} {s' : MailInspector}
    (attached : (knowing other).attachInfo p {} a = .ok (some i, s'))
    (free : (s'.world.infos i).isBanned = false) : ¬Asks p a process other := by
  intro both
  have knows : (knowing other).isBanDomain other = true := decide_eq_true rfl
  have asked := (asks _ _ i attached free).mp ((both _ _ i attached free).mpr knows)
  exact different (of_decide_eq_true asked)

/-- No login asks for its domain: that of a POP line has the line end with it, and that of an IMAP
line the blank. -/
theorem login_never_asks (login : LoginName) (tag : ImapTag) (password : Bytes) (a : Obj) :
    (Asks .pop a (fun s => POPProtocol.processFlow s a (popLine login))
        (login.domain ++ ascii "\r\n") ∧
      ¬Asks .pop a (fun s => POPProtocol.processFlow s a (popLine login)) login.domain) ∧
    (Asks .imap a (fun s => IMAPProtocol.processFlow s a (imapLine tag login password))
        (login.domain ++ ascii " ") ∧
      ¬Asks .imap a (fun s => IMAPProtocol.processFlow s a (imapLine tag login password))
        login.domain) := by
  have longer : ∀ more : Bytes, more ≠ [] → login.domain ++ more ≠ login.domain := by
    intro more some same
    exact some (List.append_cancel_left (same.trans (List.append_nil login.domain).symm))
  refine ⟨⟨popLine_asks login a, ?_⟩, ⟨imapLine_asks tag login password a, ?_⟩⟩
  · exact asks_unique (popLine_asks login a) (longer _ (by decide)) rfl rfl
  · exact asks_unique (imapLine_asks tag login password a) (longer _ (by decide)) rfl rfl

/-! ### A banned domain -/

/-- The ban manager with one domain. -/
def meneame : DomainNameManager := ({} : DomainNameManager).addDomainName 0 (ascii "meneame.net")

def guarded : MailInspector :=
  { knowing [] with banDomains := some fun name => (meneame.getDomainName name).1.isSome }

def pepe : LoginName where
  name := ascii "pepe"
  domain := ascii "meneame.net"
  plain := by decide

/-- `00001 LOGIN pepe@meneame.net mypassword` -/
def pepeLine : L7Packet := imapLine ⟨ascii "00001", by decide⟩ pepe (ascii "mypassword")

/-- The domain is banned, and its login is not. -/
theorem pepe_passes : guarded.isBanDomain pepe.domain = true ∧
    ¬∃ t, IMAPProtocol.processFlow guarded ⟨.flow 0, 0⟩ pepeLine = .ok t ∧
      (t.world.infos ⟨.info .imap, 0⟩).isBanned = true := by
  refine ⟨by decide, fun banned => ?_⟩
  have asked := (imapLine_asks _ pepe _ ⟨.flow 0, 0⟩ guarded _ ⟨.info .imap, 0⟩ rfl rfl).mp banned
  revert asked
  decide

end AIEngine
