import AIEngine.Ssl.Bounds

/-!
# Hellos of clients

A hello is written field by field, in a record at the start of the payload. What
`handle_client_hello` finds in it depends on the length of the session id and on the order of the
extensions.
-/

namespace AIEngine

open HttpPacket World

namespace SSLProtocol

variable {s t : SSLProtocol} {a i : Obj} {p : L7Packet} {place : Nat} {rest : Bytes}

def length16 (text : Bytes) : BitVec 16 := BitVec.ofNat 16 text.length

def length8 (text : Bytes) : BitVec 8 := BitVec.ofNat 8 text.length

/-- A host that the extension of the server name can hold. -/
structure HostName where
  text : Bytes
  nonempty : 0 < text.length
  short : text.length + 5 < 2 ^ 16
  printable : ∀ b ∈ text, b ≠ 0

structure OtherExtension where
  type : BitVec 16
  other : type ≠ 0
  data : Bytes
  short : data.length < 2 ^ 16

inductive Extension where
  | serverName (host : HostName)
  | other (extension : OtherExtension)

namespace Extension

/-- The list of names has one entry, of the type `host_name`. -/
def body : Extension → Bytes
  | .serverName host => octets16 (BitVec.ofNat 16 (host.text.length + 3)) ++
      (0 :: (octets16 (length16 host.text) ++ host.text))
  | .other extension => extension.data

def type : Extension → BitVec 16
  | .serverName _ => 0
  | .other extension => extension.type

def encode (e : Extension) : Bytes := octets16 e.type ++ (octets16 (length16 e.body) ++ e.body)

def encodeAll : List Extension → Bytes
  | [] => []
  | e :: extensions => e.encode ++ encodeAll extensions

def hosts : List Extension → List HostName
  | [] => []
  | .serverName host :: extensions => host :: hosts extensions
  | .other _ :: extensions => hosts extensions

end Extension

open Extension (encodeAll hosts)

/-- The extensions with their length, which a hello may leave out. -/
def block : Option (List Extension) → Bytes
  | none => []
  | some extensions => octets16 (length16 (encodeAll extensions)) ++ encodeAll extensions

structure ClientHello where
  recordVersion : BitVec 16
  recordSupported : isSupported recordVersion.toNat = true
  version : BitVec 16
  supported : isSupported version.toNat = true
  random : Bytes
  random_length : random.length = 32
  session : Bytes
  session_length : session.length ≤ 32
  ciphers : Bytes
  compression : Bytes
  compression_nonempty : 0 < compression.length
  compression_short : compression.length < 2 ^ 8
  extensions : Option (List Extension)
  short : 42 + session.length + ciphers.length + compression.length + (block extensions).length <
    2 ^ 16

namespace ClientHello

def host (hello : ClientHello) : Option Bytes :=
  (hosts (hello.extensions.getD [])).head?.map HostName.text

def body (hello : ClientHello) : Bytes :=
  octets16 hello.version ++ (hello.random ++ (length8 hello.session :: (hello.session ++
    (octets16 (length16 hello.ciphers) ++ (hello.ciphers ++
      (length8 hello.compression :: (hello.compression ++ block hello.extensions)))))))

/-- The handshake message, whose length has three octets. -/
def handshake (hello : ClientHello) : Bytes :=
  clientHello :: BitVec.ofNat 8 (hello.body.length / 2 ^ 16) :: (octets16 (length16 hello.body) ++
    hello.body)

def encode (hello : ClientHello) : Bytes :=
  0x16 :: (octets16 hello.recordVersion ++ (octets16 (length16 hello.handshake) ++ hello.handshake))

end ClientHello

/-! ### The extensions -/

theorem length16_toNat {text : Bytes} (short : text.length < 2 ^ 16) :
    (length16 text).toNat = text.length := by
  unfold length16
  rw [BitVec.toNat_ofNat, Nat.mod_eq_of_lt short]

theorem length8_toNat {text : Bytes} (short : text.length < 2 ^ 8) :
    (length8 text).toNat = text.length := by
  unfold length8
  rw [BitVec.toNat_ofNat, Nat.mod_eq_of_lt short]

theorem body_short (e : Extension) : e.body.length < 2 ^ 16 := by
  cases e with
  | serverName host =>
    have short := host.short
    simp only [Extension.body, octets16, List.length_append, List.length_cons, List.length_nil]
    omega
  | other extension => exact extension.short

theorem encode_length (e : Extension) : e.encode.length = e.body.length + 4 := by
  simp only [Extension.encode, octets16, List.length_append, List.length_cons, List.length_nil]
  omega

theorem extension_fields {k : Nat} {e : Extension} (stands : p.memory.drop k = e.encode ++ rest) :
    k + 4 + e.body.length ≤ p.memory.length ∧ p.wordAt k = e.type.toNat ∧
      p.wordAt (k + 2) = e.body.length ∧ p.memory.drop (k + 4) = e.body ++ rest ∧
        p.memory.drop (k + 4 + e.body.length) = rest := by
  have inside := field_inside stands (by simp [Extension.encode, octets16])
  rw [encode_length] at inside
  unfold Extension.encode at stands
  rw [List.append_assoc, List.append_assoc] at stands
  have length := drop_word stands
  have body := drop_word length
  refine ⟨by omega, wordAt_of_drop stands, ?_, body, drop_field body⟩
  exact (wordAt_of_drop length).trans (length16_toNat (body_short e))

theorem serverNameIn_eq {host : HostName}
    (stands : p.memory.drop (5 + place) = (Extension.serverName host).encode ++ rest)
    (bound : 5 + place + (Extension.serverName host).encode.length ≤ p.payload.length) :
    serverNameIn p 5 (place + 2) = .ok (some host.text) := by
  obtain ⟨-, -, -, body, -⟩ := extension_fields stands
  have nonempty := host.nonempty
  have small := host.short
  have memory := HttpPacket.payload_le_memory p
  have lengths : (Extension.serverName host).encode.length = host.text.length + 9 := by
    simp only [encode_length, Extension.body, octets16, List.length_append, List.length_cons,
      List.length_nil]
    omega
  unfold Extension.body at body
  simp only [List.append_assoc, List.cons_append] at body
  have length := drop_octet (drop_word body)
  have name := drop_word length
  have read : p.wordAt (5 + (place + 2) + 5) = host.text.length :=
    (wordAt_of_drop length).trans (length16_toNat (by omega))
  have start : 5 + (place + 2) + 7 = 5 + place + 4 + 2 + 1 + 2 := by omega
  unfold serverNameIn refer
  rw [word_inside (by omega), read, start]
  simp only [bind, Except.bind]
  rw [if_pos (by omega), name, List.take_left]

/-- What is read behind the length of the extensions. -/
def foundSecond : List Extension → Option (Option Bytes)
  | [] => none
  | .serverName host :: _ => some (some host.text)
  | .other _ :: _ => some none

def renegotiationInfo : BitVec 16 := 0xff01

def found : List Extension → Option (Option Bytes)
  | .other extension :: extensions =>
    if extension.type = renegotiationInfo then foundSecond extensions else some none
  | extensions => foundSecond extensions

theorem found_other (e : OtherExtension) (extensions : List Extension) :
    found (.other e :: extensions) =
      if e.type = renegotiationInfo then foundSecond extensions else some none := rfl

theorem type_zero {e : Extension} : e.type.toNat = 0 ↔ ∃ host, e = .serverName host := by
  cases e with
  | serverName host => exact iff_of_true rfl ⟨host, rfl⟩
  | other extension =>
    refine iff_of_false (fun zero => ?_) (by simp)
    exact extension.other (BitVec.eq_of_toNat_eq zero)

/-- Where nothing is found the parse leaves the memory. -/
def returned : Option (Option Bytes) → Except Failure (Option Bytes)
  | some name => .ok name
  | none => .error (.fault .outOfBounds)

/-- The extension at a place, when it is the last that is looked at. -/
theorem last_found {extensions : List Extension}
    (stands : p.memory.drop (5 + place) = encodeAll extensions ++ rest)
    (ends : 5 + place + (encodeAll extensions).length ≤ p.payload.length)
    (strict : foundSecond extensions = none → rest = []) :
    (p.word (5 + place) >>= fun type =>
      if type = 0 then serverNameIn p 5 (place + 2) else .ok none) =
        returned (foundSecond extensions) := by
  cases extensions with
  | nil =>
    rw [strict rfl] at stands
    have short : p.memory.length ≤ 5 + place := List.drop_eq_nil_iff.mp stands
    rw [word_outside (by omega)]
    rfl
  | cons e extensions =>
    rw [encodeAll, List.append_assoc] at stands
    rw [encodeAll, List.length_append] at ends
    obtain ⟨inside, type, -⟩ := extension_fields stands
    rw [word_inside (by omega), type]
    simp only [bind, Except.bind]
    cases e with
    | serverName host =>
      rw [if_pos (type_zero.mpr ⟨host, rfl⟩)]
      exact serverNameIn_eq stands (by omega)
    | other extension => exact if_neg fun zero => by simpa using type_zero.mp zero

theorem extension_found {extensions : List Extension}
    (stands : p.memory.drop (5 + place) = encodeAll extensions ++ rest)
    (ends : 5 + place + (encodeAll extensions).length ≤ p.payload.length)
    (strict : found extensions = none → rest = []) :
    extension p 5 place = returned (found extensions) := by
  unfold extension
  cases extensions with
  | nil =>
    rw [strict rfl] at stands
    have short : p.memory.length ≤ 5 + place := List.drop_eq_nil_iff.mp stands
    rw [word_outside (by omega)]
    rfl
  | cons e extensions =>
    rw [encodeAll, List.append_assoc] at stands
    rw [encodeAll, List.length_append] at ends
    obtain ⟨inside, type, length, -, behind⟩ := extension_fields stands
    rw [word_inside (by omega), type]
    simp only [bind, Except.bind]
    cases e with
    | serverName host =>
      rw [if_neg (by simp [Extension.type]), if_pos (type_zero.mpr ⟨host, rfl⟩)]
      exact serverNameIn_eq stands (by omega)
    | other extension =>
      rw [found_other] at strict ⊢
      by_cases renegotiation : extension.type = renegotiationInfo
      · rw [if_pos renegotiation] at strict ⊢
        have first : (Extension.other extension).type.toNat = 0xff01 :=
          congrArg BitVec.toNat renegotiation
        have size := encode_length (.other extension)
        have next : 5 + place + 4 + (Extension.other extension).body.length =
            5 + (place + 2 + (Extension.other extension).body.length + 2) := by omega
        have reads : p.word (5 + place + 2) = .ok (Extension.other extension).body.length := by
          rw [word_inside (by omega), length]
        rw [next] at behind
        rw [if_pos first, reads]
        exact last_found behind (by omega) strict
      · have other : (Extension.other extension).type.toNat ≠ 0xff01 := fun same =>
          renegotiation (BitVec.eq_of_toNat_eq same)
        have known : (Extension.other extension).type.toNat ≠ 0 := fun zero => by
          simpa using type_zero.mp zero
        rw [if_neg renegotiation, if_neg other, if_neg known]
        rfl

/-! ### The hello -/

/-- The payload begins with the record of the hello. -/
def Begins (p : L7Packet) (hello : ClientHello) (after : Bytes) : Prop :=
  p.payload = hello.encode ++ after

def ClientHello.found (hello : ClientHello) : Option (Option Bytes) :=
  hello.extensions.bind SSLProtocol.found

/-- The server name is the second extension, or there is none. -/
def ReachedSecond : List Extension → Prop
  | [] => False
  | .serverName _ :: _ => True
  | .other _ :: extensions => hosts extensions = []

/-- It is the first extension, or the second one behind `renegotiation_info`. Without one there are
other extensions in these places. -/
def Reached : List Extension → Prop
  | .other extension :: extensions =>
    if extension.type = renegotiationInfo then ReachedSecond extensions else hosts extensions = []
  | extensions => ReachedSecond extensions

def ClientHello.Reached (hello : ClientHello) : Prop :=
  match hello.extensions with
  | none => False
  | some extensions => SSLProtocol.Reached extensions

/-- There is an extension in the last place that is looked at. -/
def Listed : List Extension → Prop
  | .other extension :: extensions => extension.type = renegotiationInfo → extensions ≠ []
  | extensions => extensions ≠ []

def ClientHello.Listed (hello : ClientHello) : Prop :=
  match hello.extensions with
  | none => False
  | some extensions => SSLProtocol.Listed extensions

theorem reached_other (e : OtherExtension) (extensions : List Extension) :
    Reached (.other e :: extensions) =
      if e.type = renegotiationInfo then ReachedSecond extensions else hosts extensions = [] := rfl

theorem noHost_iff (extensions : List Extension) :
    (some none : Option (Option Bytes)) = some ((hosts extensions).head?.map HostName.text) ↔
      hosts extensions = [] := by
  cases hosts extensions <;> simp

theorem foundSecond_iff (extensions : List Extension) :
    foundSecond extensions = some ((hosts extensions).head?.map HostName.text) ↔
      ReachedSecond extensions := by
  cases extensions with
  | nil => exact iff_of_false (by simp [foundSecond]) id
  | cons e extensions =>
    cases e with
    | serverName host => exact iff_of_true rfl trivial
    | other extension => exact noHost_iff extensions

theorem found_iff (hello : ClientHello) : hello.found = some hello.host ↔ hello.Reached := by
  unfold ClientHello.found ClientHello.host ClientHello.Reached
  cases hello.extensions with
  | none => exact iff_of_false (by simp) id
  | some extensions =>
    rw [Option.bind_some, Option.getD_some]
    cases extensions with
    | nil => exact foundSecond_iff []
    | cons e extensions =>
      cases e with
      | serverName host => exact iff_of_true rfl trivial
      | other extension =>
        change SSLProtocol.found _ = _ ↔ Reached (.other extension :: extensions)
        rw [found_other, reached_other, hosts]
        by_cases renegotiation : extension.type = renegotiationInfo
        · rw [if_pos renegotiation, if_pos renegotiation]
          exact foundSecond_iff extensions
        · rw [if_neg renegotiation, if_neg renegotiation]
          exact noHost_iff extensions

theorem foundSecond_some (extensions : List Extension) :
    foundSecond extensions ≠ none ↔ extensions ≠ [] := by
  cases extensions with
  | nil => simp [foundSecond]
  | cons e extensions => cases e <;> simp [foundSecond]

theorem found_some (hello : ClientHello) : hello.found ≠ none ↔ hello.Listed := by
  unfold ClientHello.found ClientHello.Listed
  cases hello.extensions with
  | none => simp
  | some extensions =>
    rw [Option.bind_some]
    cases extensions with
    | nil => exact foundSecond_some []
    | cons e extensions =>
      cases e with
      | serverName host =>
        refine iff_of_true ?_ ?_
        · simp [SSLProtocol.found, foundSecond]
        · simp [SSLProtocol.Listed]
      | other extension =>
        change SSLProtocol.found _ ≠ none ↔ (extension.type = renegotiationInfo → extensions ≠ [])
        rw [found_other]
        by_cases renegotiation : extension.type = renegotiationInfo
        · rw [if_pos renegotiation, imp_iff_right renegotiation]
          exact foundSecond_some extensions
        · simp [renegotiation]

theorem foundSecond_host {extensions : List Extension} {name : Bytes}
    (found : foundSecond extensions = some (some name)) :
    ∃ host, (hosts extensions).head? = some host ∧ host.text = name := by
  cases extensions with
  | nil => exact absurd found (by simp [foundSecond])
  | cons e extensions =>
    cases e with
    | serverName host => exact ⟨host, rfl, by simpa [foundSecond] using found⟩
    | other extension => exact absurd found (by simp [foundSecond])

theorem found_host {hello : ClientHello} {name : Bytes} (found : hello.found = some (some name)) :
    hello.host = some name ∧ ∀ b ∈ name, b ≠ 0 := by
  obtain ⟨extensions, listed, found⟩ := Option.bind_eq_some_iff.mp found
  have first : ∃ host, (hosts extensions).head? = some host ∧ host.text = name := by
    cases extensions with
    | nil => exact foundSecond_host found
    | cons e extensions =>
      cases e with
      | serverName host => exact foundSecond_host found
      | other extension =>
        rw [found_other] at found
        split at found
        · have later := foundSecond_host found
          exact later
        · exact absurd found (by simp)
  obtain ⟨host, first, rfl⟩ := first
  refine ⟨?_, host.printable⟩
  unfold ClientHello.host
  rw [listed, Option.getD_some, first]
  rfl

/-- A session id is taken for one of 32 octets. -/
def Aligned (hello : ClientHello) : Prop :=
  hello.session.length = 0 ∨ hello.session.length = 32

theorem handshake_length (hello : ClientHello) :
    hello.handshake.length = 42 + hello.session.length + hello.ciphers.length +
      hello.compression.length + (block hello.extensions).length := by
  have random := hello.random_length
  simp only [ClientHello.handshake, ClientHello.body, octets16, List.length_append,
    List.length_cons, List.length_nil, random]
  omega

theorem extensions_found {hello : ClientHello} (inside : place < p.payload.length)
    (stands : p.memory.drop (5 + place) = block hello.extensions ++ rest)
    (ends : 5 + place + (block hello.extensions).length ≤ p.payload.length)
    (strict : hello.found = none → rest = []) :
    extensions p 5 place = returned hello.found := by
  unfold extensions
  rw [if_pos inside]
  unfold ClientHello.found at strict ⊢
  cases listed : hello.extensions with
  | none =>
    rw [listed] at stands ends strict
    rw [strict rfl] at stands
    have short : p.memory.length ≤ 5 + place := List.drop_eq_nil_iff.mp stands
    rw [word_outside (by omega)]
    rfl
  | some extensions =>
    rw [listed] at stands ends strict
    have short := hello.short
    rw [listed] at short
    simp only [block, octets16, List.length_append, List.length_cons, List.length_nil] at short ends
    rw [block, List.append_assoc] at stands
    have inside := field_inside stands (by simp [octets16])
    simp only [octets16, List.length_cons, List.length_nil] at inside
    rw [word_inside (by omega), wordAt_of_drop stands, length16_toNat (by omega)]
    simp only [bind, Except.bind]
    rw [if_pos (by omega)]
    exact extension_found (drop_word stands) (by omega) strict

theorem record_fields {hello : ClientHello} {after : Bytes} (begins : Begins p hello after) :
    p.wordAt 1 = hello.recordVersion.toNat ∧ p.wordAt 3 = hello.handshake.length ∧
      p.octetAt 5 = clientHello ∧ p.memory.drop 9 = hello.body ++ (after ++ p.beyond) := by
  have short := hello.short
  have length := handshake_length hello
  have whole : p.memory.drop 0 = hello.encode ++ (after ++ p.beyond) := by
    unfold Begins at begins
    rw [List.drop_zero, memory, begins, List.append_assoc]
  simp only [ClientHello.encode, List.append_assoc, List.cons_append] at whole
  have version : p.memory.drop 1 = _ := drop_octet whole
  have size : p.memory.drop 3 = _ := drop_word version
  have message : p.memory.drop 5 = _ := drop_word size
  refine ⟨wordAt_of_drop version, (wordAt_of_drop size).trans (length16_toNat (by omega)), ?_, ?_⟩
  · exact octetAt_of_drop message
  · have high : p.memory.drop 6 = _ := drop_octet message
    have low : p.memory.drop 7 =
        (octets16 (length16 hello.body) ++ hello.body) ++ (after ++ p.beyond) := drop_octet high
    rw [List.append_assoc] at low
    exact drop_word low

theorem payload_length {hello : ClientHello} {after : Bytes} (begins : Begins p hello after) :
    p.payload.length = 5 + hello.handshake.length + after.length := by
  unfold Begins at begins
  rw [begins]
  simp only [ClientHello.encode, octets16, List.length_append, List.length_cons, List.length_nil]
  omega

theorem body_fields {hello : ClientHello} (stands : p.memory.drop 9 = hello.body ++ rest) :
    p.wordAt 9 = hello.version.toNat ∧ p.octetAt 43 = length8 hello.session ∧
      p.wordAt (44 + hello.session.length) = hello.ciphers.length ∧
      p.octetAt (46 + hello.session.length + hello.ciphers.length) = length8 hello.compression ∧
      p.memory.drop (47 + hello.session.length + hello.ciphers.length +
        hello.compression.length) = block hello.extensions ++ rest := by
  have short := hello.short
  simp only [ClientHello.body, List.append_assoc, List.cons_append] at stands
  have random : p.memory.drop 11 = _ := drop_word stands
  have session := drop_field random
  rw [hello.random_length] at session
  have ciphers := drop_field (drop_octet session)
  have compression := drop_field (drop_word ciphers)
  have extensions := drop_field (drop_octet compression)
  refine ⟨wordAt_of_drop stands, octetAt_of_drop session, ?_, ?_, ?_⟩
  · exact (wordAt_of_drop ciphers).trans (length16_toNat (by omega))
  · have place : 46 + hello.session.length + hello.ciphers.length =
        11 + 32 + 1 + hello.session.length + 2 + hello.ciphers.length := by omega
    rw [place]
    exact octetAt_of_drop compression
  · have place : 47 + hello.session.length + hello.ciphers.length + hello.compression.length =
        11 + 32 + 1 + hello.session.length + 2 + hello.ciphers.length + 1 +
          hello.compression.length := by omega
    rw [place]
    exact extensions

theorem serverName_hello {hello : ClientHello} {after : Bytes} (begins : Begins p hello after)
    (aligned : Aligned hello) (strict : hello.found = none → after ++ p.beyond = []) :
    serverName p 5 0 = returned hello.found := by
  obtain ⟨-, -, -, stands⟩ := record_fields begins
  obtain ⟨version, session, ciphers, compression, behind⟩ := body_fields stands
  have total := payload_length begins
  rw [handshake_length] at total
  have memory := HttpPacket.payload_le_memory p
  have sessionShort := hello.session_length
  have sessionLength : (p.octetAt 43).toNat = hello.session.length := by
    rw [session]
    exact length8_toNat (by omega)
  have compressionLength : (p.octetAt (46 + hello.session.length + hello.ciphers.length)).toNat =
      hello.compression.length := by
    rw [compression]
    exact length8_toNat hello.compression_short
  have nonempty := hello.compression_nonempty
  have skipped : (if p.octetAt 43 = 0 then 0 else 32) = hello.session.length := by
    rcases aligned with empty | full
    · have zero : p.octetAt 43 = 0 := BitVec.eq_of_toNat_eq (by rw [sessionLength, empty]; rfl)
      rw [if_pos zero, empty]
    · rw [if_neg, full]
      intro zero
      rw [zero, full] at sessionLength
      exact absurd sessionLength (by decide)
  have start : 5 + (39 + hello.session.length) = 44 + hello.session.length := by omega
  have middle : 5 + (39 + hello.session.length + hello.ciphers.length + 2) =
      46 + hello.session.length + hello.ciphers.length := by omega
  have after : afterCompression p 5 (39 + hello.session.length + hello.ciphers.length + 2) =
      .ok (42 + hello.session.length + hello.ciphers.length + hello.compression.length) := by
    unfold afterCompression
    rw [middle, byte_inside (by omega)]
    simp only [bind, Except.bind]
    rw [compressionLength, if_pos nonempty]
    exact congrArg Except.ok (by omega)
  have last : 47 + hello.session.length + hello.ciphers.length + hello.compression.length =
      5 + (42 + hello.session.length + hello.ciphers.length + hello.compression.length) := by omega
  rw [last] at behind
  unfold serverName helloSize
  simp only [Nat.reduceAdd, Nat.add_zero]
  rw [word_inside (k := 9) (by omega), version]
  simp only [bind, Except.bind]
  rw [if_pos hello.supported, byte_inside (k := 43) (by omega)]
  simp only
  rw [skipped, start, word_inside (by omega), ciphers]
  simp only
  rw [if_pos (by omega), after]
  exact extensions_found (by omega) behind (by omega) strict

end SSLProtocol

end AIEngine
