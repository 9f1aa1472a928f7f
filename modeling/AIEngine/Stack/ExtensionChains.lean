import AIEngine.Stack.ExtensionHeaders

/-!
# Chains of extension headers

Which chains `processPacket` gets to the end of. The lengths are those of the RFCs: an authentication
header counts units of four octets and leaves out two, the others count units of eight and leave out one.
-/

namespace AIEngine

open Stack (Packet)

inductive ExtensionKind where
  | hopByHop | routing | destination | authentication
  deriving DecidableEq, Repr

namespace ExtensionKind

def number : ExtensionKind → BitVec 8
  | .hopByHop => 0
  | .routing => 43
  | .destination => 60
  | .authentication => 51

def size (kind : ExtensionKind) (units : BitVec 8) : Nat :=
  match kind with
  | .authentication => (units.toNat + 2) * 4
  | .hopByHop | .routing | .destination => (units.toNat + 1) * 8

theorem ofProtocol_generic {kind : ExtensionKind} (generic : kind ≠ .authentication) :
    NextHeader.ofProtocol kind.number = .generic := by
  cases kind with
  | authentication => exact absurd rfl generic
  | hopByHop | routing | destination => rfl

theorem not_upper (kind : ExtensionKind) : NextHeader.ofProtocol kind.number ≠ .upper := by
  cases kind <;> decide

theorem size_generic {kind : ExtensionKind} (generic : kind ≠ .authentication) (units : BitVec 8) :
    kind.size units = (units.toNat + 1) * 8 := by
  cases kind with
  | authentication => exact absurd rfl generic
  | hopByHop | routing | destination => rfl

end ExtensionKind

/-- What stands behind the two octets of the next header and of the length. -/
structure ExtensionHeader where
  kind : ExtensionKind
  units : BitVec 8
  content : Bytes
  held : content.length + 2 = kind.size units

namespace ExtensionHeader

variable {upper : BitVec 8} {h g : ExtensionHeader} {chain more : List ExtensionHeader} {rest : Bytes}

def size (h : ExtensionHeader) : Nat := h.kind.size h.units

def sizes : List ExtensionHeader → Nat
  | [] => 0
  | h :: more => h.size + sizes more

/-- The next header value in front of a chain. -/
def announced (upper : BitVec 8) : List ExtensionHeader → BitVec 8
  | [] => upper
  | h :: _ => h.kind.number

def encode (upper : BitVec 8) : List ExtensionHeader → Bytes
  | [] => []
  | h :: more => announced upper more :: h.units :: (h.content ++ encode upper more)

/-- Behind a header stands the rest of the chain. -/
theorem drop_encode (upper : BitVec 8) (h : ExtensionHeader) (more : List ExtensionHeader)
    (rest : Bytes) (k : Nat) : (encode upper (h :: more) ++ rest)[h.size + k]? =
    (encode upper more ++ rest)[k]? := by
  have place : h.size + k = (h.content.length + k) + 1 + 1 := by
    have held := h.held
    unfold size
    omega
  rw [place]
  simp only [encode, List.cons_append, List.append_assoc, List.getElem?_cons_succ]
  rw [List.getElem?_append_right (by omega), Nat.add_sub_cancel_left]

/-- The packet has this chain behind its header of 40 octets, and `rest` behind the chain. -/
structure Carries (p : RawPacket) (upper : BitVec 8) (chain : List ExtensionHeader) (rest : Bytes) :
    Prop where
  long : 40 ≤ p.length
  first : p.memory[6]? = some (announced upper chain)
  behind : p.memory.drop 40 = encode upper chain ++ rest

theorem Carries.octet_first {p : RawPacket} (carries : Carries p upper chain rest) :
    p.octet 6 = announced upper chain := by
  unfold RawPacket.octet
  rw [List.getD_eq_getElem?_getD, carries.first, Option.getD_some]

theorem Carries.getElem? {p : RawPacket} (carries : Carries p upper chain rest) (k : Nat) :
    p.memory[40 + k]? = (encode upper chain ++ rest)[k]? := by
  rw [← carries.behind, List.getElem?_drop]

theorem Carries.octet {p : RawPacket} (carries : Carries p upper chain rest) (k : Nat) :
    p.octet (40 + k) = (encode upper chain ++ rest).getD k 0 := by
  unfold RawPacket.octet
  rw [List.getD_eq_getElem?_getD, carries.getElem?, ← List.getD_eq_getElem?_getD]

theorem Carries.memory_length {p : RawPacket} (carries : Carries p upper chain rest) :
    p.memory.length = 40 + (encode upper chain ++ rest).length := by
  have held := p.held
  have long := carries.long
  rw [← carries.behind, List.length_drop]
  omega

/-- The loop gets to the end of this chain with `upper`. The length of an authentication header is
taken in units of six octets, and what stands there is read for the header behind it. -/
def Walkable (upper : BitVec 8) (rest : Bytes) : List ExtensionHeader → Prop
  | [] => True
  | [h] => h.kind = .authentication → h.units = 4
  | h :: g :: more =>
    g.kind ≠ .authentication ∧
      if h.kind = .authentication then
        ∃ len, (encode upper (h :: g :: more) ++ rest)[h.units.toNat * 6]? = some upper ∧
          (encode upper (h :: g :: more) ++ rest)[h.units.toNat * 6 + 1]? = some len ∧
          h.units.toNat * 6 + (len.toNat + 1) * 8 = sizes (h :: g :: more)
      else more = []

end ExtensionHeader

namespace IPv6Protocol

open ExtensionHeader

variable {ip : IPv6Protocol} {m : Multiplexer} {p : Packet} {raw : RawPacket} {w : Scan} {n size : Nat}
  {upper : BitVec 8} {h g : ExtensionHeader} {chain more : List ExtensionHeader} {rest : Bytes}

/-- The packet goes on, without its header and the `size` octets behind it. -/
def StepsOver (ip : IPv6Protocol) (m : Multiplexer) (p : Packet) (size : Nat) (upper : BitVec 8) :
    Prop :=
  ∃ ip' m' p', ip.processPacket m p = .ok (true, ip', m', p') ∧
    m'.headerSize = 40 + size ∧ m'.nextProtocolId = upper.setWidth 16

/-- The loop gets to this end. -/
def Finds (p : RawPacket) (n : Nat) (w : Scan) (size : Nat) (upper : BitVec 8) : Prop :=
  Returns (fun out w => out = .forward ∧ w.extensionLength = size ∧ w.nextProto = upper) p n w

theorem stepsOver_finds (long : 40 ≤ p.length) :
    ip.StepsOver m p size upper ↔ Finds p.curr 3 { nextProto := p.curr.octet 6 } size upper := by
  have returns := processPacket_returns ip m
    (fun n next => n = 40 + size ∧ next = upper.setWidth 16) False long
  have goesOn : ip.StepsOver m p size upper ↔
      ∃ forward ip' m' p', ip.processPacket m p = .ok (forward, ip', m', p') ∧
        if forward = true then m'.headerSize = 40 + size ∧ m'.nextProtocolId = upper.setWidth 16
        else False := by
    constructor
    · rintro ⟨ip', m', p', processed, sizes⟩
      exact ⟨true, ip', m', p', processed, by rwa [if_pos rfl]⟩
    · rintro ⟨forward, ip', m', p', processed, sizes⟩
      cases forward with
      | false => exact absurd sizes (by simp)
      | true => exact ⟨ip', m', p', processed, by rwa [if_pos rfl] at sizes⟩
  rw [goesOn, returns]
  unfold Finds
  apply returns_congr
  intro out w
  by_cases forward : out = .forward
  · rw [if_pos forward]
    have widths : w.nextProto.setWidth 16 = upper.setWidth 16 ↔ w.nextProto = upper := by
      constructor
      · intro same
        apply BitVec.eq_of_toNat_eq
        have values := congrArg BitVec.toNat same
        simp only [BitVec.toNat_setWidth] at values
        omega
      · rintro rfl
        rfl
    rw [widths]
    simp only [forward, Nat.add_left_cancel_iff, true_and]
  · simp [forward]

theorem not_finds_zero : ¬Finds raw 0 w size upper := by
  unfold Finds
  rw [returns_zero]
  simp

theorem finds_upper (kind : NextHeader.ofProtocol w.nextProto = .upper) :
    Finds raw (n + 1) w size upper ↔ w.extensionLength = size ∧ w.nextProto = upper := by
  unfold Finds
  rw [returns_upper kind]
  simp

theorem not_finds_stop (kind : NextHeader.ofProtocol w.nextProto = .fragment ∨
    NextHeader.ofProtocol w.nextProto = .none) : ¬Finds raw (n + 1) w size upper := by
  unfold Finds
  rw [returns_stop kind]
  simp

theorem finds_generic (kind : NextHeader.ofProtocol w.nextProto = .generic) :
    Finds raw (n + 1) w size upper ↔ w.ipv6pkt + w.extensionLength + 2 ≤ raw.memory.length ∧
      Finds raw n ⟨raw.octet (w.ipv6pkt + w.extensionLength), w.ipv6pkt + w.extensionLength,
        w.extensionLength + ((raw.octet (w.ipv6pkt + w.extensionLength + 1)).toNat + 1) * 8, true⟩
        size upper :=
  returns_generic kind

theorem finds_authentication (kind : NextHeader.ofProtocol w.nextProto = .authentication) :
    Finds raw (n + 1) w size upper ↔ w.ipv6pkt + 2 ≤ raw.memory.length ∧
      Finds raw n ⟨raw.octet w.ipv6pkt, w.ipv6pkt, (raw.octet (w.ipv6pkt + 1)).toNat * 6, true⟩
        size upper :=
  returns_authentication kind

/-- The first iteration. -/
theorem finds_start_generic {b : BitVec 8} (kind : NextHeader.ofProtocol b = .generic) :
    Finds raw 3 { nextProto := b } size upper ↔ 42 ≤ raw.memory.length ∧
      Finds raw 2 ⟨raw.octet 40, 40, 0 + ((raw.octet 41).toNat + 1) * 8, true⟩ size upper :=
  returns_generic kind

theorem finds_start_authentication {b : BitVec 8}
    (kind : NextHeader.ofProtocol b = .authentication) :
    Finds raw 3 { nextProto := b } size upper ↔ 42 ≤ raw.memory.length ∧
      Finds raw 2 ⟨raw.octet 40, 40, (raw.octet 41).toNat * 6, true⟩ size upper :=
  returns_authentication kind

/-- The last iteration has to find the transport itself. -/
theorem finds_last (known : NextHeader.ofProtocol upper = .upper) :
    Finds raw 1 w size upper ↔ w.extensionLength = size ∧ w.nextProto = upper := by
  have wrong (other : NextHeader.ofProtocol w.nextProto ≠ .upper) :
      ¬(w.extensionLength = size ∧ w.nextProto = upper) := by
    rintro ⟨-, rfl⟩
    exact other known
  cases kind : NextHeader.ofProtocol w.nextProto with
  | upper => exact finds_upper kind
  | generic =>
    rw [finds_generic kind]
    exact iff_of_false (fun found => not_finds_zero found.2) (wrong (by simp [kind]))
  | authentication =>
    rw [finds_authentication kind]
    exact iff_of_false (fun found => not_finds_zero found.2) (wrong (by simp [kind]))
  | fragment => exact iff_of_false (not_finds_stop (.inl kind)) (wrong (by simp [kind]))
  | none => exact iff_of_false (not_finds_stop (.inr kind)) (wrong (by simp [kind]))
  | other =>
    unfold Finds
    rw [returns_other kind]
    exact iff_of_false not_finds_zero (wrong (by simp [kind]))

/-- An authentication header is read in the place of the header before it, again and again. -/
theorem not_finds_authentication (kind : NextHeader.ofProtocol w.nextProto = .authentication)
    (again : raw.octet w.ipv6pkt = w.nextProto) : ¬Finds raw n w size upper := by
  induction n generalizing w with
  | zero => exact not_finds_zero
  | succ n ih =>
    rw [finds_authentication kind]
    rintro ⟨-, found⟩
    exact ih (by rwa [again]) rfl found

theorem finds_transport (known : NextHeader.ofProtocol upper = .upper) (next : w.nextProto = upper) :
    Finds raw (n + 1) w size upper ↔ w.extensionLength = size := by
  have kind : NextHeader.ofProtocol w.nextProto = .upper := by rwa [next]
  rw [finds_upper kind]
  exact and_iff_left next

/-- What comes of a chain of two or more, behind its first header. -/
theorem finds_second (known : NextHeader.ofProtocol upper = .upper)
    (carries : Carries raw upper (h :: g :: more) rest) (next : w.nextProto = g.kind.number)
    (place : w.ipv6pkt = 40) :
    Finds raw 2 w size upper ↔ g.kind ≠ .authentication ∧ ∃ len,
      (encode upper (h :: g :: more) ++ rest)[w.extensionLength]? = some upper ∧
      (encode upper (h :: g :: more) ++ rest)[w.extensionLength + 1]? = some len ∧
      w.extensionLength + (len.toNat + 1) * 8 = size := by
  by_cases authentication : g.kind = .authentication
  · have kind : NextHeader.ofProtocol w.nextProto = .authentication := by
      rw [next, authentication]
      rfl
    have again : raw.octet w.ipv6pkt = w.nextProto := by
      rw [place, next]
      exact carries.octet 0
    exact iff_of_false (not_finds_authentication kind again) fun h => h.1 authentication
  · have kind : NextHeader.ofProtocol w.nextProto = .generic := by
      rw [next]
      exact ExtensionKind.ofProtocol_generic authentication
    have second : 40 + w.extensionLength + 1 = 40 + (w.extensionLength + 1) := by omega
    rw [finds_generic kind, finds_last known, place, carries.memory_length, second, carries.octet,
      carries.octet, and_iff_right authentication]
    generalize encode upper (h :: g :: more) ++ rest = octets
    constructor
    · rintro ⟨inside, length, found⟩
      have first : w.extensionLength < octets.length := by omega
      have second : w.extensionLength + 1 < octets.length := by omega
      simp only [List.getD_eq_getElem?_getD, List.getElem?_eq_getElem first,
        List.getElem?_eq_getElem second, Option.getD_some] at found length ⊢
      exact ⟨_, by rw [found], rfl, length⟩
    · rintro ⟨len, found, read, length⟩
      have second := (List.getElem?_eq_some_iff.mp read).1
      rw [List.getD_eq_getElem?_getD, List.getD_eq_getElem?_getD, found, read]
      exact ⟨by omega, length, rfl⟩

/-- The chains that the loop takes as a whole. -/
theorem finds_chain (known : NextHeader.ofProtocol upper = .upper)
    (carries : Carries raw upper chain rest) :
    Finds raw 3 { nextProto := announced upper chain } (sizes chain) upper ↔
      Walkable upper rest chain := by
  cases chain with
  | nil => exact (finds_transport known rfl).trans (by simp [sizes, Walkable])
  | cons h chain =>
    have inside : 42 ≤ raw.memory.length := by
      rw [carries.memory_length]
      simp only [encode, List.cons_append, List.length_cons]
      omega
    have first : raw.octet 40 = announced upper chain := carries.octet 0
    have units : raw.octet 41 = h.units := carries.octet 1
    by_cases authentication : h.kind = .authentication
    · have start : NextHeader.ofProtocol (announced upper (h :: chain)) = .authentication := by
        rw [announced, authentication]
        rfl
      rw [finds_start_authentication start, and_iff_right inside, first, units]
      cases chain with
      | nil =>
        rw [finds_transport known (by rfl)]
        have length : sizes [h] = (h.units.toNat + 2) * 4 := by
          simp [sizes, ExtensionHeader.size, authentication, ExtensionKind.size]
        simp only [length, Walkable, authentication, forall_const]
        constructor
        · intro same
          exact BitVec.eq_of_toNat_eq (by change _ = 4; omega)
        · intro four
          rw [four]
          rfl
      | cons g more =>
        rw [finds_second known carries (by rfl) (by rfl)]
        simp only [Walkable, authentication, if_true]
    · have start : NextHeader.ofProtocol (announced upper (h :: chain)) = .generic :=
        ExtensionKind.ofProtocol_generic authentication
      have length : 0 + (h.units.toNat + 1) * 8 = h.size := by
        rw [Nat.zero_add]
        exact (ExtensionKind.size_generic authentication h.units).symm
      rw [finds_start_generic start, and_iff_right inside, first, units, length]
      cases chain with
      | nil =>
        rw [finds_transport known (by rfl)]
        simp [sizes, Walkable, authentication]
      | cons g more =>
        rw [finds_second known carries (by rfl) (by rfl)]
        simp only [Walkable, authentication, if_false]
        refine and_congr_right fun generic => ?_
        have place (k : Nat) := drop_encode upper h (g :: more) rest k
        have behind := place 0
        rw [Nat.add_zero] at behind
        rw [behind, place 1]
        cases more with
        | nil =>
          refine iff_of_true ⟨g.units, rfl, rfl, ?_⟩ rfl
          rw [← ExtensionKind.size_generic generic]
          simp [sizes, ExtensionHeader.size]
        | cons x more =>
          refine iff_of_false ?_ (by simp)
          rintro ⟨_, same, -⟩
          have announces : x.kind.number = upper := Option.some.inj same
          rw [← announces] at known
          exact absurd known x.kind.not_upper

theorem ofProtocol_number {next : TransportProtocol} (known : next ≠ .icmp) :
    NextHeader.ofProtocol next.number = .upper := by
  cases next with
  | icmp => exact absurd rfl known
  | tcp | udp | icmp6 => rfl

/-- The chains that are stepped over as a whole. -/
theorem stepsOver_iff {next : TransportProtocol} (known : next ≠ .icmp)
    (carries : Carries p.curr next.number chain rest) :
    ip.StepsOver m p (sizes chain) next.number ↔ Walkable next.number rest chain := by
  rw [stepsOver_finds carries.long, carries.octet_first]
  exact finds_chain (ofProtocol_number known) carries

/-- An authentication header of 16 octets in front of TCP. -/
def authenticated : ExtensionHeader where
  kind := .authentication
  units := 2
  content := List.replicate 14 0
  held := by decide

def authenticatedPacket : Packet :=
  let octets : Bytes := [0x60, 0, 0, 0, 0, 36, 51, 64] ++ List.replicate 32 1 ++
    encode 6 [authenticated] ++ List.replicate 20 0
  { curr := { memory := octets, length := 76, held := by decide }
    net := { memory := octets, length := 76, held := by decide } }

theorem carries_authenticated :
    Carries authenticatedPacket.curr TransportProtocol.tcp.number [authenticated]
      (List.replicate 20 0) where
  long := by decide
  first := rfl
  behind := rfl

theorem stepsOver_iff_authenticated :
    ({} : IPv6Protocol).StepsOver {} authenticatedPacket (sizes [authenticated])
        TransportProtocol.tcp.number ↔
      Walkable TransportProtocol.tcp.number (List.replicate 20 0) [authenticated] := by
  apply stepsOver_iff
  · decide
  · exact carries_authenticated

theorem not_stepsOver :
    ¬∀ (ip : IPv6Protocol) (m : Multiplexer) (p : Packet) (next : TransportProtocol)
      (chain : List ExtensionHeader) (rest : Bytes), next ≠ .icmp →
        Carries p.curr next.number chain rest → ip.StepsOver m p (sizes chain) next.number := by
  intro all
  have carried := all {} {} authenticatedPacket .tcp [authenticated] _ (by decide)
    carries_authenticated
  rw [stepsOver_finds carries_authenticated.long, carries_authenticated.octet_first] at carried
  rw [finds_chain (ofProtocol_number (by decide)) carries_authenticated] at carried
  exact absurd (carried rfl) (by decide)

end IPv6Protocol

end AIEngine
