import AIEngine.Gprs.OwnPacket

/-!
# How far a PDP context request is read

Nothing in `process_create_pdp_context` knows the length of the packet. `readContext_isSome`: the walk
stays inside exactly when the last octet it looks at is one of the packet.
-/

namespace AIEngine

namespace GtpHeader

/-- The walk with its first look at the octet behind the longest fixed part, whose token counts only
when no presence moves the extensions. -/
def readContext (read : Reader) : Option PdpContext := do
  let _ ← read 25
  createPdpContext read

end GtpHeader

namespace GtpPacket

variable {p : GtpPacket}

def at' (p : GtpPacket) (i : Nat) : BitVec 8 := p.memory (p.address + i)

/-! ### The places of the walk -/

def extensionPlace (p : GtpPacket) : Nat := if p.at' 12 = 0x02 then 21 else 25

/-- Behind an extension, when it is there. -/
def behind' (p : GtpPacket) (token : BitVec 8) (size place : Nat) : Nat :=
  if p.at' place = token then place + size else place

def recoveryPlace (p : GtpPacket) : Nat := p.behind' 0x0e 2 (p.behind' 0x03 7 p.extensionPlace)

/-- Where the end user address begins, and the token before it, behind a place. -/
def addressAt (p : GtpPacket) (e : Nat) : Nat × BitVec 8 :=
  if p.at' e = 0x1a then (e + 4, p.at' (e + 3)) else (e + 1, p.at' e)

/-- The last octet of an end user address that is looked at. -/
def lastOfAddress (p : GtpPacket) (x : Nat) : Nat :=
  if p.at' x = 0 ∧ p.at' (x + 1) = 2 then x + 3 else x + 1

/-- The last octet that the walk looks at. -/
def lastRead (p : GtpPacket) : Nat :=
  if p.at' p.recoveryPlace = 0x0f then
    let e := p.recoveryPlace + 14
    if (p.addressAt e).2 = 0x80 then p.lastOfAddress (p.addressAt e).1
    else if p.at' e = 0x1a then e + 3 else e
  else max 25 p.recoveryPlace

/-! ### Reading octets of the packet -/

theorem octets_inside {i : Nat} (inside : (i : Int) < p.length) : p.octets i = some (p.at' i) :=
  if_pos inside

theorem octets_outside {i : Nat} (outside : p.length ≤ i) : p.octets i = none :=
  if_neg (by omega)

theorem isSome_octets_bind {α : Type} {i : Nat} {f : BitVec 8 → Option α} :
    ((p.octets i).bind f).isSome ↔ (i : Int) < p.length ∧ (f (p.at' i)).isSome := by
  by_cases inside : (i : Int) < p.length
  · rw [octets_inside inside, and_iff_right inside]
    exact Iff.rfl
  · rw [octets_outside (by omega)]
    exact iff_of_false (by simp) fun both => inside both.1

theorem word64_inside {i : Nat} (inside : (i : Int) + 8 ≤ p.length) :
    (GtpHeader.word64 p.octets i).isSome := by
  simp only [GtpHeader.word64, Option.bind_eq_bind, isSome_octets_bind]
  refine ⟨?_, ?_, ?_, ?_, ?_, ?_, ?_, ?_, rfl⟩ <;> omega

theorem imsi_inside (inside : 26 ≤ p.length) :
    ∃ value, GtpHeader.imsi p.octets = some (value, p.extensionPlace) := by
  unfold GtpHeader.imsi extensionPlace
  rw [octets_inside (by omega)]
  show ∃ value, (if p.at' 12 = 0x02 then _ else _) = _
  split
  · obtain ⟨v, word⟩ := Option.isSome_iff_exists.mp (word64_inside (p := p) (i := 13) (by omega))
    exact ⟨some v, by rw [word]; rfl⟩
  · split
    · obtain ⟨v, word⟩ := Option.isSome_iff_exists.mp (word64_inside (p := p) (i := 17) (by omega))
      exact ⟨some v, by rw [word]; rfl⟩
    · exact ⟨none, rfl⟩

/-- An extension is skipped from a place that has been read to one that is read. -/
theorem isSome_skip_bind {α : Type} {token : BitVec 8} {size place : Nat}
    {f : Nat × BitVec 8 → Option α} (inside : (place : Int) < p.length) :
    ((GtpHeader.skip p.octets token size (place, p.at' place)).bind f).isSome ↔
      (p.behind' token size place : Int) < p.length ∧
        (f (p.behind' token size place, p.at' (p.behind' token size place))).isSome := by
  unfold GtpHeader.skip behind'
  by_cases here : p.at' place = token
  · rw [if_pos here, if_pos here]
    show (Option.bind (Option.bind (p.octets (place + size)) _) f).isSome ↔ _
    rw [Option.bind_assoc, isSome_octets_bind]
    exact Iff.rfl
  · rw [if_neg here, if_neg here, and_iff_right inside]
    exact Iff.rfl

theorem isSome_endUserAddress {x : Nat} {token : BitVec 8} :
    (GtpHeader.endUserAddress p.octets x token).isSome ↔
      (token = 0x80 → (p.lastOfAddress x : Int) < p.length) := by
  unfold GtpHeader.endUserAddress lastOfAddress
  by_cases known : token = 0x80
  · rw [if_pos known]
    simp only [Option.bind_eq_bind, isSome_octets_bind, known, forall_const]
    by_cases two : p.at' x = 0 ∧ p.at' (x + 1) = 2
    · rw [if_pos two, if_pos two, isSome_octets_bind]
      simp
      omega
    · rw [if_neg two, if_neg two]
      simp
      omega
  · rw [if_neg known]
    exact iff_of_true rfl fun token => absurd token known

theorem isSome_pdpType {place : Nat} :
    (GtpHeader.pdpType p.octets (place, p.at' place)).isSome ↔
      (p.at' place = 0x0f → ((place + 14 : Nat) : Int) < p.length ∧
        (p.at' (place + 14) = 0x1a → ((place + 14 + 3 : Nat) : Int) < p.length) ∧
        ((p.addressAt (place + 14)).2 = 0x80 →
          (p.lastOfAddress (p.addressAt (place + 14)).1 : Int) < p.length)) := by
  unfold GtpHeader.pdpType addressAt
  by_cases context : p.at' place = 0x0f
  · rw [if_pos context]
    simp only [Option.bind_eq_bind, isSome_octets_bind, context, forall_const, Nat.add_assoc place 2]
    refine and_congr Iff.rfl ?_
    by_cases charging : p.at' (place + 14) = 0x1a
    · rw [if_pos charging, if_pos charging, isSome_octets_bind, isSome_endUserAddress]
      exact and_congr ⟨fun inside _ => inside, fun inside => inside charging⟩ Iff.rfl
    · rw [if_neg charging, if_neg charging, isSome_endUserAddress]
      exact ⟨fun inside => ⟨fun token => absurd token charging, inside⟩, fun both => both.2⟩
  · rw [if_neg context]
    exact iff_of_true rfl fun token => absurd token context

theorem le_behind' (p : GtpPacket) (token : BitVec 8) (size place : Nat) :
    place ≤ p.behind' token size place := by
  unfold behind'
  split <;> omega

theorem le_recoveryPlace (p : GtpPacket) :
    p.extensionPlace ≤ p.behind' 0x03 7 p.extensionPlace ∧
      p.behind' 0x03 7 p.extensionPlace ≤ p.recoveryPlace := by
  exact ⟨p.le_behind' _ _ _, p.le_behind' _ _ _⟩

theorem extensionPlace_le (p : GtpPacket) : 21 ≤ p.extensionPlace ∧ p.extensionPlace ≤ 25 := by
  unfold extensionPlace
  split <;> omega

theorem le_lastOfAddress (p : GtpPacket) (e : Nat) :
    e + (if p.at' e = 0x1a then 3 else 0) ≤ p.lastOfAddress (p.addressAt e).1 := by
  unfold lastOfAddress addressAt
  split <;> split <;> simp <;> omega

theorem readContext_isSome :
    (GtpHeader.readContext p.octets).isSome ↔ (p.lastRead : Int) < p.length := by
  have places := p.extensionPlace_le
  have order := p.le_recoveryPlace
  have address := p.le_lastOfAddress (p.recoveryPlace + 14)
  have walk : (GtpHeader.readContext p.octets).isSome ↔
      ((25 : Nat) : Int) < p.length ∧ (p.recoveryPlace : Int) < p.length ∧
        (GtpHeader.pdpType p.octets (p.recoveryPlace, p.at' p.recoveryPlace)).isSome := by
    unfold GtpHeader.readContext
    rw [Option.bind_eq_bind, isSome_octets_bind]
    refine and_congr_right fun long => ?_
    obtain ⟨value, first⟩ := imsi_inside (p := p) (by omega)
    unfold GtpHeader.createPdpContext
    rw [first]
    show (Option.bind (p.octets p.extensionPlace) _).isSome ↔ _
    rw [isSome_octets_bind, and_iff_right (by omega)]
    simp only [Option.bind_eq_bind]
    rw [isSome_skip_bind (by omega)]
    refine Iff.trans (and_congr_right fun routing => isSome_skip_bind routing) ?_
    have type : ∀ x, ((GtpHeader.pdpType p.octets x).bind fun type =>
        some (GtpHeader.PdpContext.mk value type)).isSome =
          (GtpHeader.pdpType p.octets x).isSome := by
      intro x
      cases GtpHeader.pdpType p.octets x <;> rfl
    rw [type]
    exact ⟨fun both => both.2, fun recovery => ⟨by omega, recovery⟩⟩
  rw [walk, isSome_pdpType]
  unfold lastRead
  by_cases context : p.at' p.recoveryPlace = 0x0f
  · simp only [context, if_true, forall_const]
    by_cases known : (p.addressAt (p.recoveryPlace + 14)).2 = 0x80
    · simp only [known, if_true, forall_const]
      split at address <;> simp_all <;> omega
    · simp only [known, if_false, false_imp_iff, and_true]
      split <;> simp_all <;> omega
  · simp only [context, if_false, false_imp_iff, and_true]
    omega

end GtpPacket

namespace GPRSProtocol

/-- `process_create_pdp_context` where only octets of the packet can be read. -/
def processCreateWithin (s : GPRSProtocol) (a : Obj) (p : GtpPacket) : Except Fault GPRSProtocol :=
  match s.attachInfo a with
  | .ok (some i, s) =>
    match GtpHeader.readContext p.octets with
    | some c => .ok (s.store i c)
    | none => .error .outOfBounds
  | .ok (none, s) => .ok s
  | .error e => .error e

/-- The flow has its info, or the pool has one for it. -/
def HasInfo (s : GPRSProtocol) (a : Obj) : Prop :=
  (s.infoCache.lock (s.flows a).gprsInfo).isSome ∨ ∃ i c, s.infoCache.acquire = .ok (some i, c)

variable {s t : GPRSProtocol} {a : Obj} {p : GtpPacket}

/-- What stays inside is what reading in memory gives. -/
theorem processCreateWithin_refines (inside : s.processCreateWithin a p = .ok t) :
    s.processCreatePdpContext a p p.address = .ok t := by
  unfold processCreateWithin at inside
  unfold processCreatePdpContext
  cases attached : s.attachInfo a with
  | error e =>
    rw [attached] at inside
    cases inside
  | ok r =>
    obtain ⟨info, s'⟩ := r
    rw [attached] at inside
    cases info with
    | none => exact inside
    | some i =>
      cases found : GtpHeader.readContext p.octets with
      | none =>
        rw [found] at inside
        cases inside
      | some c =>
        rw [found] at inside
        obtain ⟨-, -, context⟩ := Option.bind_eq_some_iff.mp found
        rw [GtpHeader.createPdpContext_mono p.octets_extends context]
        exact inside

theorem attachInfo_some (info : s.HasInfo a) : ∃ i t, s.attachInfo a = .ok (some i, t) := by
  unfold attachInfo
  cases locked : s.infoCache.lock (s.flows a).gprsInfo with
  | some i => exact ⟨i, s, rfl⟩
  | none =>
    rcases info with held | ⟨i, c, acquired⟩
    · rw [locked] at held
      cases held
    · rw [acquired]
      exact ⟨i, _, rfl⟩

theorem attachInfo_none (without : ¬s.HasInfo a) : (∃ t, s.attachInfo a = .ok (none, t)) ∨
    s.attachInfo a = .error .nullDereference := by
  unfold attachInfo
  cases locked : s.infoCache.lock (s.flows a).gprsInfo with
  | some i => exact absurd (Or.inl (by rw [locked]; rfl)) without
  | none =>
    cases acquired : s.infoCache.acquire with
    | ok r =>
      obtain ⟨info, c⟩ := r
      cases info with
      | none => exact Or.inl ⟨_, rfl⟩
      | some i => exact absurd (Or.inr ⟨i, c, acquired⟩) without
    | error e =>
      refine Or.inr (congrArg Except.error ?_)
      unfold Cache.acquire at acquired
      split at acquired
      · split at acquired <;> cases acquired
        rfl
      · cases acquired

theorem processCreateWithin_iff : s.processCreateWithin a p ≠ .error .outOfBounds ↔
    (s.HasInfo a → (p.lastRead : Int) < p.length) := by
  unfold processCreateWithin
  by_cases info : s.HasInfo a
  · obtain ⟨i, t, attached⟩ := attachInfo_some info
    rw [attached, forall_prop_of_true info, ← GtpPacket.readContext_isSome]
    cases GtpHeader.readContext p.octets <;> simp
  · rw [forall_prop_of_false info]
    rcases attachInfo_none info with ⟨t, attached⟩ | attached <;> rw [attached] <;> simp

theorem gprsChecker_hasInfo : (s.gprsChecker p).2.HasInfo a ↔ s.HasInfo a := by
  unfold gprsChecker
  split
  · dsimp only
    split <;> exact Iff.rfl
  · exact Iff.rfl

end GPRSProtocol

end AIEngine
