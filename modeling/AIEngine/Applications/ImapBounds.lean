import AIEngine.Applications.Compare
import AIEngine.Applications.Mail
import AIEngine.Applications.Unbanned

/-!
# Short lines of IMAP

The command is looked for behind the first blank with no regard to the end of the payload, and so are
the arguments of `LOGIN`.
-/

namespace AIEngine

open Octets (ascii)

namespace IMAPProtocol

variable {s : IMAPProtocol} {a i : Obj}

/-! ### The bounded walk -/

/-- `processCommands`, with the octets that the commands are compared with. -/
def processCommandsWithin (a : Obj) (p : L7Packet) (s : IMAPProtocol) (i : Obj) :
    Except Failure IMAPProtocol :=
  if p.direction = .forward then do
    let found ← p.compare (commandStart p) commands
    match found with
    | none => .ok s
    | some (text, cmd) => do
      let s ← handleCommand s a i p text cmd
      .ok (s.setInfo i (s.infos i).incClientCommands)
  else .ok (s.setInfo i (s.infos i).incServerCommands)

def processFlowWithin (s : IMAPProtocol) (a : Obj) (p : L7Packet) : Except Failure IMAPProtocol :=
  s.withInfo .imap {} a (Inspector.unlessBanned (processCommandsWithin a p))

/-- While no octet is missing the walk does what the protocol does. -/
theorem processCommandsWithin_eq {p : L7Packet}
    (reaches : p.direction = .forward → p.Reaches (commandStart p) commands) :
    processCommandsWithin a p s i = processCommands a p s i := by
  unfold processCommandsWithin processCommands
  by_cases forward : p.direction = .forward
  · rw [if_pos forward, if_pos forward, HttpPacket.compare_reaches (reaches forward)]
    rfl
  · rw [if_neg forward, if_neg forward]

/-! ### The login -/

theorem loginNames_ok (header : Bytes) : ∃ names, loginNames header = .ok names := by
  unfold loginNames
  cases Octets.find (ascii " ") header with
  | none => exact ⟨_, rfl⟩
  | some last =>
    obtain ⟨userName, name⟩ := substr_quiet header (Nat.zero_le header.length) last
    show ∃ names, (substr header 0 last >>= fun userName => _) = _
    rw [name]
    cases sign : Octets.find (ascii "@") header with
    | none => exact ⟨_, rfl⟩
    | some token =>
      have within := Octets.find_le sign
      have one : (ascii "@").length = 1 := rfl
      obtain ⟨domain, cut⟩ := substr_quiet header (by omega : token + 1 ≤ header.length)
        ((last : Int) - token)
      show ∃ names, (substr header (token + 1) _ >>= fun domain => _) = _
      rw [cut]
      exact ⟨_, rfl⟩

/-- A login fails only where an object is missing. -/
theorem handleCmdLogin_fails {header : Bytes} {e : Failure}
    (failed : handleCmdLogin s a i header = .error e) : e = .fault .nullDereference := by
  obtain ⟨names, named⟩ := loginNames_ok header
  obtain ⟨u, shape⟩ : ∃ u : IMAPProtocol, handleCmdLogin s a i header =
      if u.isBanDomain names.2 then .ok (u.countBan.setIsBanned i)
      else u.countAllow.onWorld (World.Imap.attachUserName u.world i names.1) := by
    unfold handleCmdLogin
    rw [named]
    exact ⟨_, rfl⟩
  rw [shape] at failed
  split at failed
  · cases failed
  · exact Inspector.onWorld_error failed

/-! ### The room for the commands -/

/-- Behind the blank there is room for the longest command, or for the first one, and that or the
next one stands there. -/
def Room (p : L7Packet) : Prop :=
  commandStart p + 12 ≤ p.payload.length ∨
    (commandStart p + 10 ≤ p.payload.length ∧
      (p.standsAt (commandStart p) (ascii "CAPABILITY") = true ∨
        p.standsAt (commandStart p) (ascii "STARTTLS") = true))

theorem reaches_iff {p : L7Packet} (bare : p.beyond = []) :
    p.Reaches (commandStart p) commands ↔ Room p := by
  have memory := HttpPacket.memory_bare bare
  have capability : (ascii "CAPABILITY").length = 10 := rfl
  have starttls : (ascii "STARTTLS").length = 8 := rfl
  have authenticate : (ascii "AUTHENTICATE").length = 12 := rfl
  unfold Room
  constructor
  · rintro ⟨ten, stands | ⟨-, stands | ⟨twelve, -⟩⟩⟩
    · rw [memory, capability] at ten
      exact Or.inr ⟨ten, Or.inl stands⟩
    · rw [memory, capability] at ten
      exact Or.inr ⟨ten, Or.inr stands⟩
    · rw [memory, authenticate] at twelve
      exact Or.inl twelve
  · rintro (twelve | ⟨ten, stands⟩)
    · apply HttpPacket.reaches_of_length (n := 12) (by decide)
      rw [memory]
      exact twelve
    · refine ⟨by rw [memory, capability]; exact ten, ?_⟩
      rcases stands with first | second
      · exact Or.inl first
      · exact Or.inr ⟨by rw [memory, starttls]; omega, Or.inl second⟩

/-- What stands in the payload stands whatever is behind it. -/
theorem standsAt_beyond {p : L7Packet} {k : Nat} {text : Bytes}
    (stands : ({ p with beyond := [] } : L7Packet).standsAt k text = true) :
    p.standsAt k text = true := by
  unfold HttpPacket.standsAt HttpPacket.memory at *
  rw [List.isPrefixOf_iff_prefix] at *
  rw [List.append_nil] at stands
  rw [List.drop_append]
  exact stands.trans (List.prefix_append _ _)

/-- A login that is found where there is room has its arguments inside. -/
theorem login_room {p : L7Packet} (room : Room { p with beyond := [] }) {text : Bytes}
    (found : commands.find? (fun command => p.standsAt (commandStart p) command.1) =
      some (text, .login)) : text.length + commandStart p + 1 ≤ p.payload.length := by
  have five : ∀ command ∈ commands, command.2 = .login → command.1.length = 5 := by decide
  have length : text.length = 5 := five _ (List.mem_of_find?_eq_some found) rfl
  rcases room with twelve | ⟨-, stands⟩
  · have whole : commandStart p + 12 ≤ p.payload.length := twelve
    omega
  · exfalso
    have other : ∃ cmd, commands.find? (fun command => p.standsAt (commandStart p) command.1) =
        some cmd ∧ cmd.2 ≠ .login := by
      unfold commands
      rw [List.find?_cons, List.find?_cons]
      cases first : p.standsAt (commandStart p) (ascii "CAPABILITY") with
      | true => exact ⟨_, rfl, by simp⟩
      | false =>
        rcases stands with capability | starttls
        · have there : p.standsAt (commandStart p) (ascii "CAPABILITY") = true :=
            standsAt_beyond capability
          rw [first] at there
          cases there
        · have there : p.standsAt (commandStart p) (ascii "STARTTLS") = true :=
            standsAt_beyond starttls
          rw [there]
          exact ⟨_, rfl, by simp⟩
    obtain ⟨cmd, same, different⟩ := other
    rw [found] at same
    cases same
    exact different rfl

theorem handleCommand_fails {p : L7Packet} {text : Bytes} {cmd : IMAPCommandTypes} {e : Failure}
    (room : cmd = .login → text.length + commandStart p + 1 ≤ p.payload.length)
    (failed : handleCommand s a i p text cmd = .error e) : e = .fault .nullDereference := by
  by_cases login : cmd = .login
  · subst login
    unfold handleCommand at failed
    obtain ⟨header, cut⟩ := substr_quiet p.payload (room rfl)
      ((p.payload.length : Int) - (text.length + commandStart p + 1 : Nat))
    change (substr p.payload _ _ >>= fun header => handleCmdLogin s a i header) = _ at failed
    rw [cut] at failed
    exact handleCmdLogin_fails failed
  · have nothing : handleCommand s a i p text cmd = .ok s := by
      unfold handleCommand
      cases cmd <;> first | rfl | exact absurd rfl login
    rw [nothing] at failed
    cases failed

theorem processCommands_fails {p : L7Packet}
    (room : p.direction = .forward → Room { p with beyond := [] }) {e : Failure}
    (failed : processCommands a p s i = .error e) : e = .fault .nullDereference := by
  unfold processCommands at failed
  split at failed
  · rename_i forward
    split at failed
    · cases failed
    · rename_i text cmd found
      cases handled : handleCommand s a i p text cmd with
      | ok t =>
        rw [handled] at failed
        cases failed
      | error e' =>
        rw [handled] at failed
        obtain rfl := Except.error.inj failed
        refine handleCommand_fails (fun login => ?_) handled
        subst login
        exact login_room (room forward) found
  · cases failed

/-! ### What a packet reads and throws -/

/-- No octet outside is compared, whatever is behind the payload nothing is thrown, and a login
throws nothing for any arguments. -/
structure Finishes (s : IMAPProtocol) (a : Obj) (payload : Bytes) (direction : FlowDirection) :
    Prop where
  inside : ReadsInside (processFlowWithin s a { payload := payload, direction := direction })
  quiet : ∀ beyond e,
    processFlow s a { payload := payload, beyond := beyond, direction := direction } ≠
      .error (.thrown e)
  login : ∀ i header e, handleCmdLogin s a i header ≠ .error (.thrown e)

section Bare

variable (payload : Bytes) (direction : FlowDirection)

theorem processCommandsWithin_inside :
    ReadsInside (processCommandsWithin a { payload := payload, direction := direction } s i) ↔
      (direction = .forward → Room { payload := payload, direction := direction }) := by
  by_cases holds : direction = .forward → Room { payload := payload, direction := direction }
  · refine iff_of_true (fun failed => ?_) holds
    have reaches := fun forward => (reaches_iff (p := { payload := payload, direction := direction })
      rfl).mpr (holds forward)
    rw [processCommandsWithin_eq reaches] at failed
    exact absurd (processCommands_fails holds failed) (by simp)
  · refine iff_of_false (fun inside => inside ?_) holds
    obtain ⟨forward, short⟩ := Classical.not_imp.mp holds
    unfold processCommandsWithin
    rw [if_pos forward, HttpPacket.compare_outside fun reaches => short ((reaches_iff rfl).mp reaches)]
    rfl

theorem processFlowWithin_inside :
    ReadsInside (processFlowWithin s a { payload := payload, direction := direction }) ↔
      (Inspector.Unbanned .imap {} s a → direction = .forward →
        Room { payload := payload, direction := direction }) :=
  Inspector.withInfo_unbanned readsInside_ok (by simp [ReadsInside])
    fun _ _ => processCommandsWithin_inside payload direction

end Bare

theorem processFlow_fails {p : L7Packet} {e : Failure}
    (room : Inspector.Unbanned .imap {} s a → p.direction = .forward → Room { p with beyond := [] })
    (failed : processFlow s a p = .error e) : e = .fault .nullDereference := by
  unfold processFlow Inspector.withInfo at failed
  split at failed
  · rename_i e' attached
    obtain rfl := Except.error.inj failed
    exact Inspector.attachInfo_error attached
  · cases failed
  · rename_i i t attached
    unfold Inspector.unlessBanned at failed
    split at failed
    · cases failed
    · rename_i free
      refine processCommands_fails (room ⟨i, t, attached, ?_⟩) failed
      exact Bool.eq_false_iff.mpr free

/-- A packet is handled without leaving the payload exactly when nothing is looked for, or there is
room for the commands. -/
theorem finishes_iff (s : IMAPProtocol) (a : Obj) (payload : Bytes) (direction : FlowDirection) :
    Finishes s a payload direction ↔
      (Inspector.Unbanned .imap {} s a → direction = .forward →
        Room { payload := payload, direction := direction }) := by
  constructor
  · intro finishes
    exact (processFlowWithin_inside payload direction).mp finishes.inside
  · intro room
    refine ⟨(processFlowWithin_inside payload direction).mpr room, fun beyond e thrown => ?_,
      fun i header e thrown => ?_⟩
    · exact absurd (processFlow_fails room thrown) (by simp)
    · exact absurd (handleCmdLogin_fails thrown) (by simp)

/-- `A LOGIN` without arguments, which throws when the command ends where the payload does. -/
theorem not_always_finishes : ¬∀ s a payload direction, Finishes s a payload direction := by
  intro all
  let s : IMAPProtocol := { world := World.start (fun _ => 1) none, infos := fun _ => {}, own := () }
  have quiet := (all s ⟨.flow 0, 0⟩ (ascii "A LOGIN") .forward).quiet (ascii "     ") .outOfRange
  exact quiet rfl

end IMAPProtocol

end AIEngine
