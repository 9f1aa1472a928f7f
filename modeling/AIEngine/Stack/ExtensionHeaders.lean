import AIEngine.Stack.IPv6Protocol

/-!
# The loop over the extension headers

What the loop of `processPacket` reads behind a header, and when it stays inside the packet.
-/

namespace AIEngine

open Stack (Packet)

namespace IPv6Protocol

variable {ip : IPv6Protocol} {m : Multiplexer} {p : Packet} {raw : RawPacket} {w : Scan} {n : Nat}

theorem walk_again {w' : Scan} (looked : look raw w = .ok (.again, w')) :
    walk raw (n + 1) w = walk raw n w' := by
  simp only [walk, looked, bind, Except.bind]

theorem walk_error {e : Fault} (looked : look raw w = .error e) :
    walk raw (n + 1) w = .error e := by
  simp only [walk, looked, bind, Except.bind]

/-- The loop comes to its end, with `P`. -/
def Returns (P : Outcome → Scan → Prop) (p : RawPacket) (n : Nat) (w : Scan) : Prop :=
  ∃ out w', walk p n w = .ok (out, w') ∧ P out w'

section

variable {P : Outcome → Scan → Prop}

theorem returns_of_walk {out : Outcome} {w' : Scan} (walked : walk raw n w = .ok (out, w')) :
    Returns P raw n w ↔ P out w' := by
  unfold Returns
  rw [walked]
  constructor
  · rintro ⟨_, _, same, held⟩
    obtain ⟨rfl, rfl⟩ := Prod.mk.inj (Except.ok.inj same)
    exact held
  · exact fun held => ⟨_, _, rfl, held⟩

theorem returns_congr {P' : Outcome → Scan → Prop} (same : ∀ out w, P out w ↔ P' out w) :
    Returns P raw n w ↔ Returns P' raw n w := by
  unfold Returns
  simp only [same]

theorem returns_zero : Returns P raw 0 w ↔ P .again w := returns_of_walk rfl

theorem returns_upper (kind : NextHeader.ofProtocol w.nextProto = .upper) :
    Returns P raw (n + 1) w ↔ P .forward w := by
  apply returns_of_walk
  simp only [walk, look, kind, bind, Except.bind]

theorem returns_stop (kind : NextHeader.ofProtocol w.nextProto = .fragment ∨
    NextHeader.ofProtocol w.nextProto = .none) : Returns P raw (n + 1) w ↔ P .stop w := by
  apply returns_of_walk
  rcases kind with kind | kind <;> simp only [walk, look, kind, bind, Except.bind]

theorem returns_other (kind : NextHeader.ofProtocol w.nextProto = .other) :
    Returns P raw (n + 1) w ↔ Returns P raw n w := by
  have looked : look raw w = .ok (.again, w) := by simp only [look, kind]
  unfold Returns
  rw [walk_again looked]

/-- Two octets are read, and the scan goes on behind `place`. -/
theorem returns_read (place : Nat) (next : BitVec 8 → BitVec 8 → Scan)
    (reads : look raw w = do
      let b ← raw.byte place
      let l ← raw.byte (place + 1)
      .ok (.again, next b l)) :
    Returns P raw (n + 1) w ↔ place + 2 ≤ raw.memory.length ∧
      Returns P raw n (next (raw.octet place) (raw.octet (place + 1))) := by
  unfold Returns
  by_cases inside : place + 2 ≤ raw.memory.length
  · have looked : look raw w = .ok (.again, next (raw.octet place) (raw.octet (place + 1))) := by
      rw [reads, RawPacket.byte_octet (by omega), RawPacket.byte_octet (by omega)]
      rfl
    rw [walk_again looked]
    exact (and_iff_right inside).symm
  · have looked : look raw w = .error .outOfBounds := by
      rw [reads]
      by_cases first : place < raw.memory.length
      · rw [RawPacket.byte_octet first, RawPacket.byte_outside (by omega)]
        rfl
      · rw [RawPacket.byte_outside (by omega)]
        rfl
    rw [walk_error looked]
    refine iff_of_false ?_ fun h => inside h.1
    rintro ⟨_, _, same, -⟩
    exact absurd same (by simp)

theorem returns_generic (kind : NextHeader.ofProtocol w.nextProto = .generic) :
    Returns P raw (n + 1) w ↔ w.ipv6pkt + w.extensionLength + 2 ≤ raw.memory.length ∧
      Returns P raw n ⟨raw.octet (w.ipv6pkt + w.extensionLength), w.ipv6pkt + w.extensionLength,
        w.extensionLength + ((raw.octet (w.ipv6pkt + w.extensionLength + 1)).toNat + 1) * 8, true⟩ := by
  apply returns_read _ fun b l => ⟨b, _, w.extensionLength + (l.toNat + 1) * 8, true⟩
  simp only [look, kind]

theorem returns_authentication (kind : NextHeader.ofProtocol w.nextProto = .authentication) :
    Returns P raw (n + 1) w ↔ w.ipv6pkt + 2 ≤ raw.memory.length ∧
      Returns P raw n
        ⟨raw.octet w.ipv6pkt, w.ipv6pkt, (raw.octet (w.ipv6pkt + 1)).toNat * 6, true⟩ := by
  apply returns_read _ fun b l => ⟨b, _, l.toNat * 6, true⟩
  simp only [look, kind]

end

/-- What `processPacket` returns, by what the loop finds. -/
theorem processPacket_returns (ip : IPv6Protocol) (m : Multiplexer) (F : Nat → BitVec 16 → Prop)
    (S : Prop) (long : 40 ≤ p.length) :
    (∃ forward ip' m' p', ip.processPacket m p = .ok (forward, ip', m', p') ∧
        if forward = true then F m'.headerSize m'.nextProtocolId else S) ↔
      Returns (fun out w => if out = .forward then
          F (40 + w.extensionLength) (w.nextProto.setWidth 16) else S)
        p.curr 3 { nextProto := p.curr.octet 6 } := by
  have held : p.length ≤ p.curr.memory.length := p.curr.held
  have first : p.byte 6 = .ok (p.curr.octet 6) := RawPacket.byte_octet (by omega)
  rcases processPacket_walk ip m long first with
    ⟨e, failed, walked⟩ | ⟨out, w, ip', m', p', processed, walked, sizes⟩
  · unfold Returns
    rw [failed, walked]
    apply iff_of_false
    · rintro ⟨_, _, _, _, same, -⟩
      exact absurd same (by simp)
    · rintro ⟨_, _, same, -⟩
      exact absurd same (by simp)
  · rw [returns_of_walk walked, processed]
    have found : (if decide (out = .forward) = true then F m'.headerSize m'.nextProtocolId else S) ↔
        if out = .forward then F (40 + w.extensionLength) (w.nextProto.setWidth 16) else S := by
      by_cases forward : out = .forward
      · simp only [forward, decide_true, if_true, (sizes forward).1, (sizes forward).2]
      · simp only [forward, decide_false, Bool.false_eq_true, if_false]
    rw [← found]
    constructor
    · rintro ⟨_, _, _, _, same, held⟩
      obtain ⟨rfl, state⟩ := Prod.mk.inj (Except.ok.inj same)
      obtain ⟨-, rest⟩ := Prod.mk.inj state
      obtain ⟨rfl, -⟩ := Prod.mk.inj rest
      exact held
    · exact fun held => ⟨_, _, _, _, rfl, held⟩

/-! ### What is read -/

/-- Every read is inside the memory, and a packet that goes on is as long as what is stepped over. -/
def Safe (p : RawPacket) (n : Nat) (w : Scan) : Prop :=
  Returns (fun out w => out = .forward → (40 + w.extensionLength : Int) ≤ p.length) p n w

theorem safe_zero : Safe raw 0 w := returns_zero.mpr fun forward => absurd forward (by simp)

theorem safe_upper (kind : NextHeader.ofProtocol w.nextProto = .upper) :
    Safe raw (n + 1) w ↔ (40 + w.extensionLength : Int) ≤ raw.length :=
  (returns_upper kind).trans (imp_iff_right rfl)

theorem safe_stop (kind : NextHeader.ofProtocol w.nextProto = .fragment ∨
    NextHeader.ofProtocol w.nextProto = .none) : Safe raw (n + 1) w :=
  (returns_stop kind).mpr fun forward => absurd forward (by simp)

theorem safe_other (kind : NextHeader.ofProtocol w.nextProto = .other) :
    Safe raw (n + 1) w ↔ Safe raw n w := returns_other kind

theorem safe_generic (kind : NextHeader.ofProtocol w.nextProto = .generic) :
    Safe raw (n + 1) w ↔ w.ipv6pkt + w.extensionLength + 2 ≤ raw.memory.length ∧
      Safe raw n ⟨raw.octet (w.ipv6pkt + w.extensionLength), w.ipv6pkt + w.extensionLength,
        w.extensionLength + ((raw.octet (w.ipv6pkt + w.extensionLength + 1)).toNat + 1) * 8, true⟩ :=
  returns_generic kind

theorem safe_authentication (kind : NextHeader.ofProtocol w.nextProto = .authentication) :
    Safe raw (n + 1) w ↔ w.ipv6pkt + 2 ≤ raw.memory.length ∧
      Safe raw n ⟨raw.octet w.ipv6pkt, w.ipv6pkt, (raw.octet (w.ipv6pkt + 1)).toNat * 6, true⟩ :=
  returns_authentication kind

/-- The last iteration. -/
theorem safe_last : Safe raw 1 w ↔
    (NextHeader.ofProtocol w.nextProto = .upper → (40 + w.extensionLength : Int) ≤ raw.length) ∧
    (NextHeader.ofProtocol w.nextProto = .generic →
      w.ipv6pkt + w.extensionLength + 2 ≤ raw.memory.length) ∧
    (NextHeader.ofProtocol w.nextProto = .authentication → w.ipv6pkt + 2 ≤ raw.memory.length) := by
  cases kind : NextHeader.ofProtocol w.nextProto with
  | upper => simp [safe_upper kind]
  | generic => simp [safe_generic kind, safe_zero]
  | authentication => simp [safe_authentication kind, safe_zero]
  | fragment => simp [safe_stop (.inl kind)]
  | none => simp [safe_stop (.inr kind)]
  | other => simp [safe_other kind, safe_zero]

/-- The type of header that an octet announces. -/
def kindAt (p : RawPacket) (k : Nat) : NextHeader := NextHeader.ofProtocol (p.octet k)

/-- The length that the second header is taken for, when the first one takes `first` octets. -/
def secondLength (p : RawPacket) (first : Nat) : Nat := ((p.octet (41 + first)).toNat + 1) * 8

/-- The second header and what it announces lie inside, when the first one takes `first` octets. -/
def FitsBehind (p : RawPacket) (first : Nat) : Prop :=
  (kindAt p 40 = .upper → (40 + first : Int) ≤ p.length) ∧
  (kindAt p 40 = .generic → (42 + first : Int) ≤ p.length ∧
    (kindAt p (40 + first) = .upper → (40 + first + secondLength p first : Int) ≤ p.length) ∧
    (kindAt p (40 + first) = .generic → (42 + 2 * first + secondLength p first : Int) ≤ p.length))

theorem safe_second (strict : (raw.memory.length : Int) = raw.length)
    (read : (42 : Int) ≤ raw.length) (next : w.nextProto = raw.octet 40) (place : w.ipv6pkt = 40) :
    Safe raw 2 w ↔ FitsBehind raw w.extensionLength := by
  have behind : 41 + w.extensionLength = 40 + w.extensionLength + 1 := by omega
  unfold FitsBehind secondLength kindAt
  rw [← next, behind]
  cases kind : NextHeader.ofProtocol w.nextProto with
  | upper =>
    rw [safe_upper kind]
    simp
  | fragment => simp [safe_stop (.inl kind)]
  | none => simp [safe_stop (.inr kind)]
  | other =>
    rw [safe_other kind, safe_last]
    simp [kind]
  | authentication =>
    -- the octet 40 is read once more
    rw [next] at kind
    rw [safe_authentication (next ▸ kind), safe_last, place]
    simp [kind]
    omega
  | generic =>
    rw [safe_generic kind, safe_last, place]
    simp only [reduceCtorEq, IsEmpty.forall_iff, true_and, forall_const]
    constructor
    · rintro ⟨inside, upper, generic, -⟩
      refine ⟨by omega, fun kind => ?_, fun kind => ?_⟩
      · have fits := upper kind
        omega
      · have fits := generic kind
        omega
    · rintro ⟨inside, upper, generic⟩
      refine ⟨by omega, fun kind => ?_, fun kind => ?_, fun _ => by omega⟩
      · have fits := upper kind
        omega
      · have fits := generic kind
        omega

/-- The length that the first header is taken for. -/
def firstLength (p : RawPacket) : Nat :=
  if kindAt p 6 = .authentication then (p.octet 41).toNat * 6 else ((p.octet 41).toNat + 1) * 8

/-- What the loop reads of the packet lies inside, and so does what is stepped over. -/
def Contained (p : RawPacket) : Prop :=
  kindAt p 6 = .generic ∨ kindAt p 6 = .authentication →
    (42 : Int) ≤ p.length ∧ FitsBehind p (firstLength p)

/-- Without an extension header, nothing behind the header is read. -/
theorem safe_idle (long : (40 : Int) ≤ raw.length) (length : w.extensionLength = 0)
    (generic : NextHeader.ofProtocol w.nextProto ≠ .generic)
    (authentication : NextHeader.ofProtocol w.nextProto ≠ .authentication) (n : Nat) :
    Safe raw n w := by
  induction n with
  | zero => exact safe_zero
  | succ n ih =>
    cases kind : NextHeader.ofProtocol w.nextProto with
    | generic => exact absurd kind generic
    | authentication => exact absurd kind authentication
    | upper => exact (safe_upper kind).mpr (by omega)
    | fragment => exact safe_stop (.inl kind)
    | none => exact safe_stop (.inr kind)
    | other => exact (safe_other kind).mpr ih

theorem safe_contained (strict : (raw.memory.length : Int) = raw.length)
    (long : (40 : Int) ≤ raw.length) (next : w.nextProto = raw.octet 6) (place : w.ipv6pkt = 40)
    (length : w.extensionLength = 0) : Safe raw 3 w ↔ Contained raw := by
  have inside : 40 + 2 ≤ raw.memory.length ↔ (42 : Int) ≤ raw.length := by omega
  unfold Contained firstLength kindAt
  rw [← next]
  by_cases generic : NextHeader.ofProtocol w.nextProto = .generic
  · rw [safe_generic generic, place, length, imp_iff_right (.inl generic),
      if_neg (by simp [generic])]
    refine Iff.trans (and_congr_right fun read => ?_) (and_congr_left' inside)
    rw [safe_second strict (by omega) rfl rfl]
    simp
  · by_cases authentication : NextHeader.ofProtocol w.nextProto = .authentication
    · rw [safe_authentication authentication, place, imp_iff_right (.inr authentication),
        if_pos authentication]
      refine Iff.trans (and_congr_right fun read => ?_) (and_congr_left' inside)
      exact safe_second strict (by omega) rfl rfl
    · refine iff_of_true (safe_idle long length generic authentication 3) fun either => ?_
      exact absurd either (by simp [generic, authentication])

/-- `processPacket` reads the packet only, and a header that it has stepped over lies inside. -/
def StaysInside (ip : IPv6Protocol) (m : Multiplexer) (p : Packet) : Prop :=
  ∃ forward ip' m' p', ip.processPacket m p = .ok (forward, ip', m', p') ∧
    (forward = true → (m'.headerSize : Int) ≤ p.length)

theorem staysInside_safe (long : 40 ≤ p.length) :
    ip.StaysInside m p ↔ Safe p.curr 3 { nextProto := p.curr.octet 6 } := by
  have leaves := processPacket_returns ip m
    (fun size _ => (size : Int) ≤ p.length) True long
  have either (b : Bool) (X : Prop) : (if b = true then X else True) ↔ (b = true → X) := by
    cases b <;> simp
  simp only [either] at leaves
  unfold StaysInside
  rw [leaves]
  unfold Safe
  apply returns_congr
  intro out w
  by_cases forward : out = .forward
  · simp only [forward, forall_const]
    exact iff_of_eq (by simp [Packet.length])
  · simp only [if_neg forward]
    exact iff_of_true trivial fun same => absurd same forward

theorem staysInside_iff (strict : (p.curr.memory.length : Int) = p.length) (long : 40 ≤ p.length) :
    ip.StaysInside m p ↔ Contained p.curr := by
  rw [staysInside_safe long]
  exact safe_contained strict long rfl rfl rfl

instance (p : RawPacket) (first : Nat) : Decidable (FitsBehind p first) :=
  inferInstanceAs (Decidable (_ ∧ _))

instance (p : RawPacket) : Decidable (Contained p) := inferInstanceAs (Decidable (_ → _))

/-- 20 octets behind a hop-by-hop header that claims to be 2048 octets long. -/
def overlong : Packet :=
  let octets : Bytes := [0x60, 0, 0, 0, 0, 28, 0, 64] ++ List.replicate 32 1 ++
    [6, 255, 0, 0, 0, 0, 0, 0] ++ List.replicate 20 0
  { curr := { memory := octets, length := 68, held := by decide }
    net := { memory := octets, length := 68, held := by decide } }

theorem staysInside_iff_overlong :
    ({} : IPv6Protocol).StaysInside {} overlong ↔ Contained overlong.curr := by
  apply staysInside_iff
  · decide
  · decide

theorem not_staysInside :
    ¬∀ (ip : IPv6Protocol) (m : Multiplexer) (p : Packet),
      (p.curr.memory.length : Int) = p.length → 40 ≤ p.length → ip.StaysInside m p := by
  intro all
  have inside := all {} {} overlong (by decide) (by decide)
  rw [staysInside_safe (by decide), safe_contained (by decide) (by decide) rfl rfl rfl] at inside
  exact absurd inside (by decide +kernel)

end IPv6Protocol

end AIEngine
