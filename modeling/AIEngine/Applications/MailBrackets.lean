import AIEngine.Applications.Mail
import AIEngine.Resources.Spec

/-!
# The addresses of SMTP

`MAIL` and `RCPT` cut an address out of their line, each in its own way, and go on with what they have
cut. Only the first one looks whether the brackets are there.
-/

namespace AIEngine

open Octets (ascii)

theorem substr_behind (front rest : Bytes) {place : Nat} (here : place = front.length) (n : Nat) :
    substr (front ++ rest) place n = .ok (rest.take n) := by
  unfold substr
  rw [Octets.substr_of_le (by rw [List.length_append]; omega), if_pos (by omega), Int.toNat_natCast,
    here, List.drop_left]

inductive AddressCommand where
  | mail | rcpt
  deriving DecidableEq, Repr

namespace SMTPProtocol

/-- What comes behind the brackets. -/
def takeMail (s : SMTPProtocol) (a i : Obj) (address : Bytes) : Except Failure SMTPProtocol :=
  match Octets.find (ascii "@") address with
  | none => .ok (s.noteAnomaly a .smtpBogusHeader)
  | some token => do
    let domain ← substr address (token + 1) address.length
    if s.isBanDomain domain then .ok (s.countBan.setIsBanned i)
    else s.countAllow.onWorld (World.Smtp.attachFrom s.world i address)

def takeRcpt (s : SMTPProtocol) (i : Obj) (address : Bytes) : Except Failure SMTPProtocol :=
  if (s.world.lockString .smtp ((s.world.infos i).strings .toAddr)).isSome then .ok s
  else s.onWorld (World.Smtp.attachTo s.world i address)

end SMTPProtocol

namespace AddressCommand

def handle : AddressCommand → SMTPProtocol → Obj → Obj → Bytes → Except Failure SMTPProtocol
  | .mail, s, a, i, header => SMTPProtocol.handleCmdMail s a i header
  | .rcpt, s, _, i, header => SMTPProtocol.handleCmdRcpt s i header

def take : AddressCommand → SMTPProtocol → Obj → Obj → Bytes → Except Failure SMTPProtocol
  | .mail, s, a, i, address => SMTPProtocol.takeMail s a i address
  | .rcpt, s, _, i, address => SMTPProtocol.takeRcpt s i address

end AddressCommand

/-! ### What is cut -/

namespace SMTPProtocol

/-- From behind the first place up to the last one, or to the end when the last one is before it. -/
def cutAddress (header : Bytes) (first last : Int) : Bytes :=
  let behind := header.drop (first + 1).toNat
  if 0 ≤ last - first - 1 then behind.take (last - first - 1).toNat else behind

/-- `MAIL` needs both brackets. -/
def mailAddress (header : Bytes) : Option Bytes :=
  match Octets.find (ascii "<") header, Octets.rfind 0x3e header with
  | some first, some last => some (cutAddress header first last)
  | _, _ => none

/-- `RCPT` goes on with what is not found. -/
def rcptAddress (header : Bytes) : Bytes :=
  cutAddress header (npos (Octets.find (ascii "<") header)) (npos (Octets.rfind 0x3e header))

theorem substr_cutAddress {header : Bytes} (first last : Int)
    (within : (first + 1).toNat ≤ header.length) :
    substr header (first + 1).toNat (last - first - 1) = .ok (cutAddress header first last) := by
  unfold substr cutAddress
  rw [Octets.substr_of_le within]

theorem npos_within {header text : Bytes} (filled : 0 < text.length) :
    (npos (Octets.find text header) + 1).toNat ≤ header.length := by
  cases found : Octets.find text header with
  | none => exact Nat.zero_le _
  | some k =>
    have bound := Octets.find_le found
    show ((k : Int) + 1).toNat ≤ _
    omega

theorem handleCmdMail_take (s : SMTPProtocol) (a i : Obj) (header : Bytes) :
    handleCmdMail s a i header =
      match mailAddress header with
      | some address => takeMail s a i address
      | none => .ok (s.noteAnomaly a .smtpBogusHeader) := by
  have within : (npos (Octets.find (ascii "<") header) + 1).toNat ≤ header.length :=
    npos_within (by decide)
  unfold handleCmdMail mailAddress
  cases first : Octets.find (ascii "<") header with
  | none => rfl
  | some f =>
    cases Octets.rfind 0x3e header with
    | none => rfl
    | some l =>
      rw [first] at within
      have cut : substr header (f + 1) ((l : Int) - f - 1) = .ok (cutAddress header f l) :=
        substr_cutAddress (f : Int) l within
      show (substr header (f + 1) _ >>= fun address => takeMail s a i address) = _
      rw [cut]
      rfl

theorem handleCmdRcpt_take (s : SMTPProtocol) (i : Obj) (header : Bytes) :
    handleCmdRcpt s i header = takeRcpt s i (rcptAddress header) := by
  unfold handleCmdRcpt takeRcpt rcptAddress
  split
  · rfl
  · show (substr _ _ _ >>= fun address => _) = _
    rw [substr_cutAddress _ _ (npos_within (by decide))]
    rfl

/-! ### Brackets that stand -/

section Brackets

variable {front middle back : Bytes}

theorem find_bracket (absent : (0x3c : BitVec 8) ∉ front) (more : Bytes) :
    Octets.find (ascii "<") (front ++ 0x3c :: more) = some front.length :=
  Octets.find_octet absent more

theorem cutAddress_between (front middle back : Bytes) :
    cutAddress (front ++ 0x3c :: (middle ++ 0x3e :: back)) front.length
      (front.length + 1 + middle.length : Nat) = middle := by
  have whole : front ++ 0x3c :: (middle ++ 0x3e :: back) =
      (front ++ [0x3c]) ++ (middle ++ 0x3e :: back) := by simp
  have place : ((front.length : Int) + 1).toNat = (front ++ [0x3c]).length := by
    rw [List.length_append, List.length_singleton]
    omega
  have count : ((front.length + 1 + middle.length : Nat) : Int) - front.length - 1 =
      (middle.length : Nat) := by omega
  unfold cutAddress
  rw [whole, place, count, List.drop_left, if_pos (by omega), Int.toNat_natCast, List.take_left]

/-- A last bracket that is before the first one, or nowhere. -/
theorem cutAddress_behind (front behind : Bytes) {last : Int} (early : last < front.length + 1) :
    cutAddress (front ++ 0x3c :: behind) front.length last = behind := by
  have whole : front ++ 0x3c :: behind = (front ++ [0x3c]) ++ behind := by simp
  have place : ((front.length : Int) + 1).toNat = (front ++ [0x3c]).length := by
    rw [List.length_append, List.length_singleton]
    omega
  unfold cutAddress
  rw [whole, place, List.drop_left, if_neg (by omega)]

theorem addresses_between (before : (0x3c : BitVec 8) ∉ front) (after : (0x3e : BitVec 8) ∉ back)
    (middle : Bytes) :
    mailAddress (front ++ 0x3c :: (middle ++ 0x3e :: back)) = some middle ∧
      rcptAddress (front ++ 0x3c :: (middle ++ 0x3e :: back)) = middle := by
  have first := find_bracket before (middle ++ 0x3e :: back)
  have last : Octets.rfind 0x3e (front ++ 0x3c :: (middle ++ 0x3e :: back)) =
      some (front.length + 1 + middle.length) := by
    have whole : front ++ 0x3c :: (middle ++ 0x3e :: back) =
        (front ++ 0x3c :: middle) ++ 0x3e :: back := by simp
    rw [whole, Octets.rfind_octet after, List.length_append, List.length_cons]
    congr 1
    omega
  unfold mailAddress rcptAddress
  rw [first, last]
  exact ⟨congrArg some (cutAddress_between front middle back), cutAddress_between front middle back⟩

/-- No bracket is opened and closed. -/
def Unordered (header : Bytes) : Prop :=
  ¬∃ front middle back : Bytes, header = front ++ 0x3c :: (middle ++ 0x3e :: back)

theorem unordered_behind (unordered : Unordered (front ++ 0x3c :: back)) :
    (0x3e : BitVec 8) ∉ back := by
  intro member
  obtain ⟨middle, rest, whole⟩ := List.append_of_mem member
  exact unordered ⟨front, middle, rest, by rw [whole]⟩

end Brackets

section Unordered

variable {header : Bytes}

/-- The last closing bracket of a text without one behind the first opening bracket. -/
theorem rfind_unordered {front back : Bytes} (none : (0x3e : BitVec 8) ∉ back) :
    Octets.rfind 0x3e (front ++ 0x3c :: back) = Octets.rfind 0x3e front := by
  refine Octets.rfind_append (fun member => ?_) front
  rcases List.mem_cons.mp member with sign | later
  · exact absurd sign (by decide)
  · exact none later

theorem mailAddress_unordered (unordered : Unordered header) : mailAddress header =
    if 0x3c ∈ header ∧ 0x3e ∈ header then some (Octets.behind 0x3c header) else none := by
  by_cases opened : 0x3c ∈ header
  · obtain ⟨front, back, rfl, absent⟩ := Octets.first_octet opened
    have closed := unordered_behind unordered
    unfold mailAddress
    rw [find_bracket absent, rfind_unordered closed, Octets.behind_octet absent]
    cases last : Octets.rfind 0x3e front with
    | none =>
      have missing := Octets.rfind_eq_none.mp last
      rw [if_neg]
      rintro ⟨-, member⟩
      rcases List.mem_append.mp member with before | later
      · exact missing before
      · rcases List.mem_cons.mp later with sign | behind
        · exact absurd sign (by decide)
        · exact closed behind
    | some k =>
      have early := Octets.rfind_lt last
      have there : (0x3e : BitVec 8) ∈ front := by
        by_contra missing
        rw [Octets.rfind_eq_none.mpr missing] at last
        cases last
      rw [if_pos ⟨opened, List.mem_append_left _ there⟩]
      exact congrArg some (cutAddress_behind front back (by omega))
  · have missing : Octets.find (ascii "<") header = none := Octets.find_octet_eq_none.mpr opened
    unfold mailAddress
    rw [missing, if_neg fun both => opened both.1]

/-- What `RCPT` takes where no bracket is opened and closed. -/
def strayAddress (header : Bytes) : Bytes :=
  if header.contains 0x3c then Octets.behind 0x3c header else Octets.beforeLast 0x3e header

theorem rcptAddress_unordered (unordered : Unordered header) :
    rcptAddress header = strayAddress header := by
  unfold strayAddress rcptAddress
  by_cases opened : 0x3c ∈ header
  · rw [if_pos (List.contains_iff_mem.mpr opened)]
    obtain ⟨front, back, rfl, absent⟩ := Octets.first_octet opened
    rw [find_bracket absent, rfind_unordered (unordered_behind unordered),
      Octets.behind_octet absent]
    refine cutAddress_behind front back ?_
    cases last : Octets.rfind 0x3e front with
    | none => show (-1 : Int) < _; omega
    | some k =>
      have early := Octets.rfind_lt last
      show (k : Int) < _
      omega
  · have missing : Octets.find (ascii "<") header = none := Octets.find_octet_eq_none.mpr opened
    rw [if_neg fun found => opened (List.contains_iff_mem.mp found), missing]
    by_cases closed : 0x3e ∈ header
    · obtain ⟨front, back, rfl, absent⟩ := Octets.last_octet closed
      rw [Octets.rfind_octet absent, Octets.beforeLast_octet absent]
      show cutAddress _ (-1) (front.length : Nat) = front
      unfold cutAddress
      rw [if_pos (by omega)]
      show ((front ++ 0x3e :: back).drop 0).take ((front.length : Int) - -1 - 1).toNat = front
      rw [List.drop_zero, show ((front.length : Int) - -1 - 1).toNat = front.length by omega,
        List.take_left]
    · rw [Octets.rfind_eq_none.mpr closed]
      unfold Octets.beforeLast
      rw [if_neg closed]
      rfl

end Unordered

end SMTPProtocol

end AIEngine
