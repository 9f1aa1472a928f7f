import AIEngine.Applications.Attached
import AIEngine.Applications.MailBrackets

/-!
# Lines without an address

Where no bracket is opened and closed nothing should be attached and the flow be flagged, by the same
rule for `MAIL` and `RCPT`. `addressRule_iff`: when they do so.
-/

namespace AIEngine

open Octets (ascii)

/-! ### Attaching nothing -/

namespace World

variable {w w' : World} {x : StringField} {i s : Obj} {value : Bytes}

/-- The string is there already, or there is none for it: neither in the map nor in the pool. -/
def Idle (w : World) (x : StringField) (i : Obj) (value : Bytes) : Prop :=
  (w.lockString .smtp ((w.infos i).strings x)).isSome ∨
    (find (w.maps .smtp x) value = none ∧ (w.cache (.string .smtp x)).total = 0)

/-- A pointer that does not lock is not one to a string that lives. -/
theorem strings_ne (dead : ¬(w.lockString .smtp ((w.infos i).strings x)).isSome)
    (alive : w.StringAlive .smtp s) : (w.infos i).strings x ≠ some s := by
  intro same
  rw [same, lockString_of_alive alive] at dead
  exact dead rfl

theorem setString_strings (w : World) (i : Obj) (x : StringField) (p : Option Obj) :
    ((w.setString i x p).infos i).strings x = p := by simp [setString, setInfo]

theorem intern_idle : (∃ w', w.intern .smtp x false true i value = .ok w' ∧
    (w'.infos i).strings = (w.infos i).strings) ↔ w.Idle x i value := by
  unfold Idle intern
  by_cases alive : (w.lockString .smtp ((w.infos i).strings x)).isSome
  · rw [if_pos ⟨rfl, alive⟩]
    exact iff_of_true ⟨w, rfl, rfl⟩ (Or.inl alive)
  · rw [if_neg fun both => alive both.2, or_iff_right alive]
    cases found : find (w.maps .smtp x) value with
    | some e =>
      refine iff_of_false ?_ (by simp)
      rintro ⟨_, attached, same⟩
      cases attached
      refine strings_ne alive (stringAlive_of_find found) ?_
      rw [← same]
      exact setString_strings _ i x _
    | none =>
      rw [and_iff_right rfl]
      unfold internNew
      cases acquired : (w.cache (.string .smtp x)).acquire with
      | error e =>
        refine iff_of_false (by simp) fun empty => ?_
        unfold Cache.acquire at acquired
        rw [if_neg (by omega)] at acquired
        cases acquired
      | ok r =>
        obtain ⟨taken, c⟩ := r
        cases taken with
        | none =>
          refine iff_of_true ⟨_, rfl, ?_⟩ (Cache.acquire_none acquired).1
          rw [setCache_infos]
        | some s =>
          have room := (Cache.acquire_some acquired).1
          refine iff_of_false ?_ (by omega)
          rintro ⟨_, attached, same⟩
          cases attached
          refine strings_ne alive (stringAlive_of_acquire acquired) ?_
          rw [← same]
          exact setString_strings _ i x _

end World

/-! ### The rule -/

section AddressRule

variable {s t : SMTPProtocol} {a i : Obj} {header address : Bytes} {command : AddressCommand}

/-- What is said of both commands: an address between the only brackets is taken, a line without
opened and closed brackets attaches nothing and flags the flow, and no exception leaves. -/
structure AddressRule (command : AddressCommand) (s : SMTPProtocol) (a i : Obj) (header : Bytes) :
    Prop where
  between : ∀ front middle back : Bytes, header = front ++ 0x3c :: (middle ++ 0x3e :: back) →
    (∀ b ∈ front ++ middle ++ back, b ≠ 0x3c ∧ b ≠ 0x3e) →
      command.handle s a i header = command.take s a i middle
  rejected : SMTPProtocol.Unordered header → ∃ t, command.handle s a i header = .ok t ∧
    (t.world.infos i).strings = (s.world.infos i).strings ∧
      (t.world.flows a).pa = ((s.noteAnomaly a .smtpBogusHeader).world.flows a).pa
  quiet : ∀ e, command.handle s a i header ≠ .error (.thrown e)

/-- A flow that was flagged before, and nothing that could be attached. -/
def Stays (s : SMTPProtocol) (a i : Obj) (x : StringField) (address : Bytes) : Prop :=
  (s.world.flows a).pa ≠ .none ∧ s.world.Idle x i address

/-- `MAIL` fails when both brackets and a sign stand the wrong way round, `RCPT` on every line that
should be flagged. -/
def RuleHolds : AddressCommand → SMTPProtocol → Obj → Obj → Bytes → Prop
  | .mail, s, a, i, header =>
    let address := Octets.behind 0x3c header
    0x3c ∈ header → 0x3e ∈ header → 0x40 ∈ address →
      ((s.world.flows a).pa ≠ .none ∧ s.isBanDomain (Octets.behind 0x40 address) = true) ∨
        (s.isBanDomain (Octets.behind 0x40 address) = false ∧ Stays s a i .fromAddr address)
  | .rcpt, s, a, i, header => Stays s a i .toAddr (SMTPProtocol.strayAddress header)

theorem onWorld_quiet (s : SMTPProtocol) (r : Except Fault World) (e : StdException) :
    s.onWorld r ≠ .error (.thrown e) := by
  cases r <;> simp [Inspector.onWorld]

theorem takeMail_found (sign : 0x40 ∈ address) : SMTPProtocol.takeMail s a i address =
    if s.isBanDomain (Octets.behind 0x40 address) then .ok (s.countBan.setIsBanned i)
    else s.countAllow.onWorld (World.Smtp.attachFrom s.world i address) := by
  obtain ⟨front, back, rfl, absent⟩ := Octets.first_octet sign
  have found : Octets.find (ascii "@") (front ++ 0x40 :: back) = some front.length :=
    Octets.find_octet absent back
  have domain : substr (front ++ 0x40 :: back) (front.length + 1)
      (front ++ 0x40 :: back).length = .ok back := by
    have whole : front ++ 0x40 :: back = (front ++ [0x40]) ++ back := by simp
    rw [whole, substr_behind _ back (by simp), List.take_of_length_le]
    rw [List.length_append]
    omega
  unfold SMTPProtocol.takeMail
  rw [found, Octets.behind_octet absent]
  show (substr _ _ _ >>= fun domain => _) = _
  rw [domain]
  rfl

theorem takeMail_missing (sign : 0x40 ∉ address) :
    SMTPProtocol.takeMail s a i address = .ok (s.noteAnomaly a .smtpBogusHeader) := by
  have missing : Octets.find (ascii "@") address = none := Octets.find_octet_eq_none.mpr sign
  unfold SMTPProtocol.takeMail
  rw [missing]

theorem take_quiet (command : AddressCommand) (s : SMTPProtocol) (a i : Obj) (address : Bytes)
    (e : StdException) : command.take s a i address ≠ .error (.thrown e) := by
  cases command with
  | mail =>
    show SMTPProtocol.takeMail s a i address ≠ _
    by_cases sign : 0x40 ∈ address
    · rw [takeMail_found sign]
      split
      · simp
      · exact onWorld_quiet _ _ e
    · rw [takeMail_missing sign]
      simp
  | rcpt =>
    show SMTPProtocol.takeRcpt s i address ≠ _
    unfold SMTPProtocol.takeRcpt
    split
    · simp
    · exact onWorld_quiet _ _ e

theorem handle_quiet (command : AddressCommand) (s : SMTPProtocol) (a i : Obj) (header : Bytes)
    (e : StdException) : command.handle s a i header ≠ .error (.thrown e) := by
  cases command with
  | mail =>
    show SMTPProtocol.handleCmdMail s a i header ≠ _
    rw [SMTPProtocol.handleCmdMail_take]
    split
    · exact take_quiet .mail s a i _ e
    · simp
  | rcpt =>
    show SMTPProtocol.handleCmdRcpt s i header ≠ _
    rw [SMTPProtocol.handleCmdRcpt_take]
    exact take_quiet .rcpt s a i _ e

theorem handle_between {front middle back : Bytes} (command : AddressCommand) (s : SMTPProtocol)
    (a i : Obj) (plain : ∀ b ∈ front ++ middle ++ back, b ≠ 0x3c ∧ b ≠ 0x3e) :
    command.handle s a i (front ++ 0x3c :: (middle ++ 0x3e :: back)) =
      command.take s a i middle := by
  have before : (0x3c : BitVec 8) ∉ front := fun member =>
    (plain _ (List.mem_append_left _ (List.mem_append_left _ member))).1 rfl
  have after : (0x3e : BitVec 8) ∉ back := fun member =>
    (plain _ (List.mem_append_right _ member)).2 rfl
  obtain ⟨mail, rcpt⟩ := SMTPProtocol.addresses_between before after middle
  cases command with
  | mail =>
    show SMTPProtocol.handleCmdMail s a i _ = _
    rw [SMTPProtocol.handleCmdMail_take, mail]
    rfl
  | rcpt =>
    show SMTPProtocol.handleCmdRcpt s i _ = _
    rw [SMTPProtocol.handleCmdRcpt_take, rcpt]
    rfl

/-! ### Lines that should be flagged -/

/-- What a rejection leaves. -/
def Rejects (s : SMTPProtocol) (a i : Obj) (r : Except Failure SMTPProtocol) : Prop :=
  ∃ t, r = .ok t ∧ (t.world.infos i).strings = (s.world.infos i).strings ∧
    (t.world.flows a).pa = ((s.noteAnomaly a .smtpBogusHeader).world.flows a).pa

theorem rejects_noteAnomaly : Rejects s a i (.ok (s.noteAnomaly a .smtpBogusHeader)) := by
  refine ⟨_, rfl, ?_, rfl⟩
  unfold Inspector.noteAnomaly
  split <;> rfl

theorem flagged_before :
    (s.world.flows a).pa = ((s.noteAnomaly a .smtpBogusHeader).world.flows a).pa ↔
      (s.world.flows a).pa ≠ .none := by
  unfold Inspector.noteAnomaly
  by_cases clean : (s.world.flows a).pa = .none
  · rw [if_pos clean, clean]
    refine iff_of_false (fun same => ?_) fun flagged => flagged rfl
    simp [World.setFlow, Flow.setPacketAnomaly] at same
  · rw [if_neg clean]
    exact iff_of_true rfl clean

theorem rejects_ban : Rejects s a i (.ok (s.countBan.setIsBanned i)) ↔
    (s.world.flows a).pa ≠ .none := by
  rw [← flagged_before (s := s)]
  constructor
  · rintro ⟨t, ran, -, flagged⟩
    obtain rfl := Except.ok.inj ran
    exact flagged
  · intro flagged
    refine ⟨_, rfl, ?_, flagged⟩
    simp [Inspector.setIsBanned, World.setBanned, World.setInfo, Inspector.countBan]

/-- Attaching rejects a line only by doing nothing for a flow that is flagged. -/
theorem rejects_attach {x : StringField} (u : SMTPProtocol) :
    Rejects s a i (u.onWorld (s.world.intern .smtp x false true i address)) ↔
      Stays s a i x address := by
  unfold Stays
  rw [← flagged_before (s := s), ← World.intern_idle]
  constructor
  · rintro ⟨t, ran, strings, flagged⟩
    cases attached : s.world.intern .smtp x false true i address with
    | error e =>
      rw [attached] at ran
      cases ran
    | ok w =>
      rw [attached] at ran
      obtain rfl := Except.ok.inj ran
      refine ⟨?_, w, rfl, strings⟩
      rw [← flagged]
      exact (congrArg (fun flows => (flows a).pa) (World.intern_flows attached)).symm
  · rintro ⟨flagged, w, attached, strings⟩
    rw [attached]
    refine ⟨_, rfl, strings, ?_⟩
    rw [← flagged]
    exact congrArg (fun flows => (flows a).pa) (World.intern_flows attached)

theorem rejects_takeMail (sign : 0x40 ∈ address) :
    Rejects s a i (SMTPProtocol.takeMail s a i address) ↔
      ((s.world.flows a).pa ≠ .none ∧ s.isBanDomain (Octets.behind 0x40 address) = true) ∨
        (s.isBanDomain (Octets.behind 0x40 address) = false ∧ Stays s a i .fromAddr address) := by
  rw [takeMail_found sign]
  cases banned : s.isBanDomain (Octets.behind 0x40 address) with
  | true =>
    rw [if_pos rfl, rejects_ban]
    simp
  | false =>
    have attach : Rejects s a i (s.countAllow.onWorld (s.world.intern .smtp .fromAddr false true i
        address)) ↔ Stays s a i .fromAddr address := rejects_attach s.countAllow
    rw [if_neg Bool.false_ne_true]
    refine attach.trans ?_
    simp

/-- A pointer that locks is what attaching looks at, too. -/
theorem takeRcpt_attach : SMTPProtocol.takeRcpt s i address =
    s.onWorld (World.Smtp.attachTo s.world i address) := by
  unfold SMTPProtocol.takeRcpt
  split
  · rename_i alive
    have kept : World.Smtp.attachTo s.world i address = .ok s.world := if_pos ⟨rfl, alive⟩
    rw [kept]
    rfl
  · rfl

theorem rejects_takeRcpt : Rejects s a i (SMTPProtocol.takeRcpt s i address) ↔
    Stays s a i .toAddr address := by
  rw [takeRcpt_attach]
  exact rejects_attach s

theorem rejects_iff (unordered : SMTPProtocol.Unordered header) :
    Rejects s a i (command.handle s a i header) ↔ RuleHolds command s a i header := by
  cases command with
  | mail =>
    show Rejects s a i (SMTPProtocol.handleCmdMail s a i header) ↔ _
    rw [SMTPProtocol.handleCmdMail_take, SMTPProtocol.mailAddress_unordered unordered]
    unfold RuleHolds
    by_cases brackets : 0x3c ∈ header ∧ 0x3e ∈ header
    · rw [if_pos brackets]
      simp only [brackets, forall_const]
      by_cases sign : 0x40 ∈ Octets.behind 0x3c header
      · rw [rejects_takeMail sign, forall_prop_of_true sign]
      · rw [takeMail_missing sign, forall_prop_of_false sign]
        exact iff_of_true rejects_noteAnomaly trivial
    · rw [if_neg brackets]
      exact iff_of_true rejects_noteAnomaly fun opened closed => absurd ⟨opened, closed⟩ brackets
  | rcpt =>
    show Rejects s a i (SMTPProtocol.handleCmdRcpt s i header) ↔ _
    rw [SMTPProtocol.handleCmdRcpt_take, SMTPProtocol.rcptAddress_unordered unordered]
    exact rejects_takeRcpt

/-- Both commands are right about the addresses they find and throw nothing; about lines without one
they are right in the cases above. -/
theorem addressRule_iff (command : AddressCommand) (s : SMTPProtocol) (a i : Obj) (header : Bytes) :
    AddressRule command s a i header ↔
      (SMTPProtocol.Unordered header → RuleHolds command s a i header) := by
  constructor
  · intro right unordered
    exact (rejects_iff unordered).mp (right.rejected unordered)
  · intro holds
    refine ⟨?_, fun unordered => (rejects_iff unordered).mpr (holds unordered),
      handle_quiet command s a i header⟩
    rintro front middle back rfl plain
    exact handle_between command s a i plain

/-- `RCPT TO:x`, with nothing attached and no flag before. -/
theorem not_always_addressRule : ¬∀ command s a i header, AddressRule command s a i header := by
  intro all
  let s : SMTPProtocol := { world := World.start (fun _ => 1) none, infos := fun _ => {}, own := () }
  obtain ⟨t, ran, -, flagged⟩ := (all .rcpt s ⟨.flow 0, 0⟩ ⟨.info .smtp, 0⟩ (ascii "RCPT TO:x")).rejected
    (by
      rintro ⟨front, middle, back, whole⟩
      have member : (0x3c : BitVec 8) ∈ ascii "RCPT TO:x" := by
        rw [whole]
        exact List.mem_append_right _ List.mem_cons_self
      exact absurd member (by decide))
  cases ran
  revert flagged
  decide

end AddressRule

end AIEngine
