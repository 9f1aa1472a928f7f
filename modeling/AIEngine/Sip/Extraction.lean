import AIEngine.Applications.Infos
import AIEngine.Applications.Keyed

/-!
# Values of SIP headers

The via, from and to of a packet are found by an expression, copied to the buffer of the expression
and cut out of the buffer. A match that does not fit leaves the text of an older packet in the
buffer.
-/

namespace AIEngine

open Ending World
open Octets (ascii)

/-- `\r\n` -/
def lineEnd : Bytes := [0x0d, 0x0a]

theorem lineEnd_length : lineEnd.length = 2 := rfl

/-- Every match is the name of the field, a value, and the end of the line. -/
def Regex.Finds (r : Regex) (name : Bytes) : Prop :=
  ∀ data text, r.exec data = some text → ∃ value, text = name ++ value ++ lineEnd

namespace SIPProtocol

variable {s t u : SIPProtocol} {a i : Obj} {p : L7Packet}

inductive Header where
  | via | fromAddr | toAddr
  deriving DecidableEq, Repr

namespace Header

def field : Header → StringField
  | via => .via
  | fromAddr => .fromAddr
  | toAddr => .toAddr

def name : Header → Bytes
  | via => ascii "Via: "
  | fromAddr => ascii "From: "
  | toAddr => ascii "To: "

def expression (e : SIPExpressions) : Header → Regex
  | via => e.viaExpression
  | fromAddr => e.fromExpression
  | toAddr => e.toExpression

def setExpression (e : SIPExpressions) (r : Regex) : Header → SIPExpressions
  | via => { e with viaExpression := r }
  | fromAddr => { e with fromExpression := r }
  | toAddr => { e with toExpression := r }

def all : List Header := [via, fromAddr, toAddr]

variable {x y : Header}

theorem expression_set (e : SIPExpressions) (r : Regex) :
    expression (setExpression e r x) x = r := by cases x <;> rfl

theorem expression_set_other (e : SIPExpressions) (r : Regex) (other : y ≠ x) :
    expression (setExpression e r x) y = expression e y := by
  cases x <;> cases y <;> first | rfl | exact absurd rfl other

theorem setExpression_self (e : SIPExpressions) : setExpression e (expression e x) x = e := by
  cases x <;> rfl

theorem field_injective (same : y.field = x.field) : y = x := by
  cases x <;> cases y <;> first | rfl | exact absurd same (by decide)

theorem name_plain : ∀ b ∈ x.name, b ≠ 0 := by cases x <;> simp [name, ascii]

theorem name_short : x.name.length ≤ 6 := by cases x <;> simp [name, ascii]

end Header

/-- The shared body of the extract functions. -/
def extract (x : Header) (p : L7Packet) (s : SIPProtocol) (i : Obj) :
    Except Failure SIPProtocol :=
  let found := (x.expression s.own).matchAndExtract p.payload
  extractValue { s with own := x.setExpression s.own found.2 } i found x.name.length
    fun w => w.intern .sip x.field false true

def extractAll (p : L7Packet) (i : Obj) : List Header → SIPProtocol → Except Failure SIPProtocol
  | [], s => .ok s
  | x :: rest, s => do
    let s ← extract x p s i
    extractAll p i rest s

theorem processHeader_eq (p : L7Packet) (s : SIPProtocol) (i : Obj) :
    processHeader p s i = extractUriValue s i p >>= extractAll p i Header.all := by
  have last (r : Except Failure SIPProtocol) : (r >>= fun s => .ok s) = r := by cases r <;> rfl
  unfold processHeader
  cases extractUriValue s i p with
  | error e => rfl
  | ok s =>
    change _ = extractAll p i [.via, .fromAddr, .toAddr] s
    simp only [extractAll, last]
    rfl

/-! ### What is cut out of the buffer -/

/-- The value that the expression of a header locates in the packet. -/
def located (s : SIPProtocol) (x : Header) (p : L7Packet) : Option Bytes :=
  ((x.expression s.own).exec p.payload).map fun text =>
    (text.drop x.name.length).take (text.length - (x.name.length + 2))

/-- The value that is cut out of the text that the buffer of an expression shows. -/
def cut (x : Header) (text : Bytes) : Option Bytes :=
  Octets.substr text x.name.length ((text.length : Int) - (x.name.length + 2))

theorem located_text {x : Header} {value : Bytes}
    (found : (x.expression s.own).exec p.payload = some (x.name ++ value ++ lineEnd)) :
    located s x p = some value := by
  have size : x.name.length + (value.length + 2) - (x.name.length + 2) = value.length := by omega
  unfold located
  rw [found, Option.map_some, List.append_assoc, List.drop_left, List.length_append,
    List.length_append, lineEnd_length, size, List.take_left]

theorem cString_plain {v : Bytes} : (∀ b ∈ cString v, b ≠ 0) := by
  intro b member
  unfold cString at member
  simpa using List.mem_takeWhile_imp member

/-- What is cut out has at most the length of its text without the name and the line end, or one
octet. -/
theorem cut_length {x : Header} {text value : Bytes} (given : cut x text = some value) :
    value.length ≤ max 1 (text.length - (x.name.length + 2)) := by
  unfold cut Octets.substr at given
  split at given
  · obtain rfl := Option.some.inj given
    split
    · rw [List.length_take]
      omega
    · rw [List.length_drop]
      omega
  · exact absurd given (by simp)

theorem cut_plain {x : Header} {text value : Bytes} (plain : ∀ b ∈ text, b ≠ 0)
    (given : cut x text = some value) : ∀ b ∈ value, b ≠ 0 := by
  unfold cut Octets.substr at given
  split at given
  · obtain rfl := Option.some.inj given
    intro b member
    split at member
    · exact plain b (List.mem_of_mem_drop (List.mem_of_mem_take member))
    · exact plain b (List.mem_of_mem_drop member)
  · exact absurd given (by simp)

theorem cut_text (x : Header) (value : Bytes) : cut x (x.name ++ value ++ lineEnd) = some value := by
  have size : (x.name ++ value ++ lineEnd).length = x.name.length + (value.length + 2) := by
    rw [List.append_assoc, List.length_append, List.length_append, lineEnd_length]
  unfold cut
  rw [Octets.substr_of_le (by omega), if_pos (by omega), size,
    show ((x.name.length + (value.length + 2) : Nat) : Int) - (x.name.length + 2) = value.length by
      omega, Int.toNat_natCast, List.append_assoc, List.drop_left, List.take_left]

/-- What the buffer shows after a match: the match, or what it had before. -/
def shown (r : Regex) (text : Bytes) : Bytes :=
  cString (if text.length < Regex.extractBufferSize then text else r.extractBuffer)

theorem matchAndExtract_shown {r : Regex} {data text : Bytes} (found : r.exec data = some text) :
    (r.matchAndExtract data).1 = true ∧ (r.matchAndExtract data).2.getExtract = shown r text := by
  unfold Regex.matchAndExtract shown
  rw [found]
  simp only
  split
  · exact ⟨rfl, rfl⟩
  · exact ⟨rfl, rfl⟩

theorem cString_match {x : Header} {value : Bytes} (plain : ∀ b ∈ value, b ≠ 0) :
    cString (x.name ++ value ++ lineEnd) = x.name ++ value ++ lineEnd := by
  apply cString_nonzero
  intro b member
  rcases List.mem_append.mp member with front | last
  · rcases List.mem_append.mp front with named | inside
    · exact x.name_plain b named
    · exact plain b inside
  · exact (by decide : ∀ b ∈ lineEnd, b ≠ 0) b last

theorem cut_whole {x : Header} {value : Bytes} (r : Regex)
    (fits : (x.name ++ value ++ lineEnd).length < Regex.extractBufferSize)
    (plain : ∀ b ∈ value, b ≠ 0) : cut x (shown r (x.name ++ value ++ lineEnd)) = some value := by
  unfold shown
  rw [if_pos fits, cString_match plain, cut_text]

/-- The value is the one of the match when the match fits and shows whole. -/
theorem cut_iff {x : Header} {value taken : Bytes} {r : Regex}
    (buffer : r.extractBuffer.length < Regex.extractBufferSize)
    (given : cut x (shown r (x.name ++ value ++ lineEnd)) = some taken) :
    value = taken ↔ (x.name ++ value ++ lineEnd).length < Regex.extractBufferSize ∧
      ∀ b ∈ value, b ≠ 0 := by
  constructor
  · rintro rfl
    refine ⟨?_, cut_plain cString_plain given⟩
    by_contra long
    unfold shown at given
    rw [if_neg long] at given
    have bound := cut_length given
    have inside : (cString r.extractBuffer).length ≤ r.extractBuffer.length :=
      List.IsPrefix.length_le (List.takeWhile_prefix _)
    have short := x.name_short
    rw [List.length_append, List.length_append, lineEnd_length] at long
    unfold Regex.extractBufferSize at buffer long
    omega
  · rintro ⟨fits, plain⟩
    exact Option.some.inj ((cut_whole r fits plain).symm.trans given)

/-! ### Attached strings -/

/-- What the info of the flow shows for a header. -/
def attached (w : World) (a : Obj) (x : Header) : Option Bytes := do
  let i ← w.lockInfo .sip (w.flows a)
  let o ← w.lockString .sip ((w.infos i).strings x.field)
  some (cString (w.names o))

def Supplies (w : World) (x : Header) (value : Bytes) : Prop :=
  find (w.maps .sip x.field) value = none → 0 < (w.cache (.string .sip x.field)).total

instance (w : World) (x : Header) (value : Bytes) : Decidable (Supplies w x value) :=
  inferInstanceAs (Decidable (_ → _))

/-- A pointer of an info goes to a string of its own field. -/
def Homed (w : World) : Prop := ∀ i y o, (w.infos i).strings y = some o → o.home = .string .sip y

theorem attached_locked {w : World} {x : Header} (locked : w.lockInfo .sip (w.flows a) = some i) :
    attached w a x = (w.lockString .sip ((w.infos i).strings x.field)).map
      fun o => cString (w.names o) := by
  unfold attached
  rw [locked, Option.bind_eq_bind, Option.bind_some]
  cases w.lockString .sip ((w.infos i).strings x.field) <;> rfl

section Interned

variable {w w' : World} {y : StringField} {always countHit : Bool} {value : Bytes}

theorem acquired_home {c : Cache} {o : Obj} (keyed : Keyed .sip w)
    (acquired : (w.cache (.string .sip y)).acquire = .ok (some o, c)) :
    o.home = .string .sip y := by
  obtain ⟨held, kept, -⟩ := keyed.kept y
  obtain ⟨after, -⟩ := Pool.kept_acquire kept acquired
  obtain ⟨k, -, place⟩ := after.wf.held o List.mem_cons_self
  obtain ⟨-, -, same⟩ := Cache.acquire_some acquired
  rw [place, same]
  exact keyed.named y

theorem homed_setString {o : Obj} (homed : Homed w) (home : o.home = .string .sip y) :
    Homed (w.setString i y (some o)) := by
  intro j z q pointer
  rcases setString_pointer pointer with old | ⟨rfl, rfl⟩
  · exact homed j z q old
  · exact home

theorem homed_intern (keyed : Keyed .sip w) (homed : Homed w)
    (h : w.intern .sip y always countHit i value = .ok w') : Homed w' := by
  rcases intern_cases h with ⟨-, -, rfl⟩ | ⟨e, n, found, -, -, rfl⟩ | ⟨o, c, acquired, -, -, rfl⟩ |
    ⟨c, -, -, -, rfl⟩
  · exact homed
  · exact homed_setString (w := w.setMap .sip y _) homed (keyed_home keyed (find_some found).1)
  · have taken : Homed ((w.setCache (.string .sip y) c).setName o value) := by
      intro j z q pointer
      change ((w.setCache (.string .sip y) c).infos j).strings z = some q at pointer
      rw [setCache_infos] at pointer
      exact homed j z q pointer
    exact homed_setString taken (acquired_home keyed acquired)
  · intro j z q pointer
    rw [setCache_infos] at pointer
    exact homed j z q pointer

/-- Nothing that a header is attached with differs. -/
structure Same (a : Obj) (x : Header) (w w' : World) : Prop where
  attached : attached w' a x = attached w a x
  map : w'.maps .sip x.field = w.maps .sip x.field
  pool : w'.cache (.string .sip x.field) = w.cache (.string .sip x.field)

theorem same_refl (a : Obj) (x : Header) (w : World) : Same a x w w := ⟨rfl, rfl, rfl⟩

theorem same_trans {w'' : World} {x : Header} (first : Same a x w w') (second : Same a x w' w'') :
    Same a x w w'' :=
  ⟨second.attached.trans first.attached, second.map.trans first.map, second.pool.trans first.pool⟩

theorem supplies_same {x : Header} (same : Same a x w w') (value : Bytes) :
    Supplies w' x value ↔ Supplies w x value := by
  unfold Supplies
  rw [same.map, same.pool]

theorem intern_locked (locked : w.lockInfo .sip (w.flows a) = some i)
    (h : w.intern .sip y always countHit i value = .ok w') :
    w'.lockInfo .sip (w'.flows a) = some i := by
  have infos : KeepsInfos .sip i w w' := intern_keepsInfos h
  unfold lockInfo
  rw [infos.pools, infos.pointers]
  exact locked

/-- A string of one field is attached without a trace in another. -/
theorem intern_same {x : Header} (keyed : Keyed .sip w) (homed : Homed w)
    (locked : w.lockInfo .sip (w.flows a) = some i)
    (h : w.intern .sip y always countHit i value = .ok w') (other : x.field ≠ y) :
    Same a x w w' := by
  have shown (pointers : (w'.infos i).strings x.field = (w.infos i).strings x.field)
      (names : ∀ o, (w.infos i).strings x.field = some o → w'.names o = w.names o) :
      attached w' a x = attached w a x := by
    rw [attached_locked locked, attached_locked (intern_locked locked h), pointers,
      lockString_congr (intern_alive h)]
    cases alive : w.lockString .sip ((w.infos i).strings x.field) with
    | none => rfl
    | some o =>
      rw [Option.map_some, Option.map_some, names o (lockString_some alive).1]
  have apart : CacheId.string L7Protocol.sip x.field ≠ .string .sip y := by simp [other]
  have unmapped : ¬(L7Protocol.sip = .sip ∧ x.field = y) := fun both => other both.2
  rcases intern_cases h with ⟨-, -, rfl⟩ | ⟨e, n, -, -, -, rfl⟩ | ⟨o, c, acquired, -, -, rfl⟩ |
    ⟨c, -, -, -, rfl⟩
  · exact same_refl a x w'
  · exact ⟨shown (by simp [setString, setInfo, setMap, other]) fun _ _ => rfl,
      setMap_other unmapped, rfl⟩
  · refine ⟨shown ?_ fun q pointer => ?_, ?_, ?_⟩
    · simp [setString, setInfo, setMap, setName, other]
    · have different : q ≠ o := by
        rintro rfl
        have homes := (homed i x.field q pointer).symm.trans (acquired_home keyed acquired)
        exact apart homes
      simp [setString, setInfo, setMap, setName, different]
    · have fresh : o ∉ (w.maps .sip x.field).map MapEntry.object := by
        intro listed
        obtain ⟨e, old, same⟩ := List.mem_map.mp listed
        exact keyed_fresh keyed acquired old same
      rw [setMap_other unmapped]
      exact (setName_clean fresh value).1
    · change (w.setCache (.string .sip y) c).cache (.string .sip x.field) = _
      exact cache_setCache_other apart
  · refine ⟨shown (by rw [setCache_infos]) fun o _ => by rw [setCache_names], by rw [setCache_maps],
      cache_setCache_other apart⟩

end Interned

/-! ### One header -/

/-- What is known of the protocol after any packets. -/
structure Sound (s : SIPProtocol) : Prop where
  keyed : Keyed .sip s.world
  homed : Homed s.world
  buffers : ∀ x, (Header.expression s.own x).extractBuffer.length < Regex.extractBufferSize
  finds : ∀ x, (Header.expression s.own x).Finds x.name

/-- The headers of a packet are looked for, for an info of its flow. -/
structure Ready (a i : Obj) (s : SIPProtocol) : Prop where
  sound : Sound s
  locked : s.world.lockInfo .sip (s.world.flows a) = some i

structure Spared (a : Obj) (x : Header) (s t : SIPProtocol) : Prop where
  same : Same a x s.world t.world
  expression : x.expression t.own = x.expression s.own

/-- A string that the flow gets for a header is the one that is located in the packet. -/
def Faithful (a : Obj) (p : L7Packet) (s t : SIPProtocol) (x : Header) : Prop :=
  attached s.world a x = none → ∀ value, attached t.world a x = some value →
    located s x p = some value

/-- There is no match; or it fits into the buffer and has no zero; or something can be cut out of the
buffer and is not attached. -/
def Harmless (s : SIPProtocol) (a : Obj) (p : L7Packet) (x : Header) : Prop :=
  ∀ text, (x.expression s.own).exec p.payload = some text →
    (text.length < Regex.extractBufferSize ∧
      ∀ value, located s x p = some value → ∀ b ∈ value, b ≠ 0) ∨
    ∃ value, cut x (shown (x.expression s.own) text) = some value ∧
      ¬(attached s.world a x = none ∧ Supplies s.world x value)

section Extracted

variable {x y : Header}

theorem spared_refl (a : Obj) (x : Header) (s : SIPProtocol) : Spared a x s s :=
  ⟨same_refl a x s.world, rfl⟩

theorem spared_trans (first : Spared a x s t) (second : Spared a x t u) : Spared a x s u :=
  ⟨same_trans first.same second.same, second.expression.trans first.expression⟩

theorem located_spared (spared : Spared a x s t) : located t x p = located s x p := by
  unfold located
  rw [spared.expression]

theorem harmless_spared (spared : Spared a x s t) : Harmless t a p x ↔ Harmless s a p x := by
  unfold Harmless
  simp only [spared.expression, located_spared spared, spared.same.attached,
    supplies_same spared.same]

/-- After the search, before anything is attached. -/
def searched (s : SIPProtocol) (x : Header) (p : L7Packet) : SIPProtocol :=
  { s with own := x.setExpression s.own ((x.expression s.own).matchAndExtract p.payload).2 }

theorem matchAndExtract_exec (r : Regex) (data : Bytes) :
    (r.matchAndExtract data).2.exec = r.exec := by
  unfold Regex.matchAndExtract
  cases r.exec data with
  | none => rfl
  | some text =>
    simp only
    split
    · rfl
    · rfl

theorem matchAndExtract_buffer {r : Regex} (data : Bytes)
    (buffer : r.extractBuffer.length < Regex.extractBufferSize) :
    (r.matchAndExtract data).2.extractBuffer.length < Regex.extractBufferSize := by
  unfold Regex.matchAndExtract
  cases r.exec data with
  | none => exact buffer
  | some text =>
    simp only
    split
    · rename_i fits
      exact fits
    · exact buffer

theorem sound_searched (sound : Sound s) (x : Header) (p : L7Packet) : Sound (searched s x p) := by
  refine ⟨sound.keyed, sound.homed, fun y => ?_, fun y => ?_⟩
  · by_cases chosen : y = x
    · subst chosen
      unfold searched
      rw [Header.expression_set]
      exact matchAndExtract_buffer p.payload (sound.buffers y)
    · unfold searched
      rw [Header.expression_set_other _ _ chosen]
      exact sound.buffers y
  · by_cases chosen : y = x
    · subst chosen
      unfold searched Regex.Finds
      rw [Header.expression_set, matchAndExtract_exec]
      exact sound.finds y
    · unfold searched
      rw [Header.expression_set_other _ _ chosen]
      exact sound.finds y

theorem sound_intern {w : World} {z : StringField} {always countHit : Bool} {value : Bytes}
    (sound : Sound s) (h : s.world.intern .sip z always countHit i value = .ok w) :
    Sound { s with world := w } :=
  ⟨keyed_intern sound.keyed h, homed_intern sound.keyed sound.homed h, sound.buffers, sound.finds⟩

theorem extract_found {text : Bytes} (found : (x.expression s.own).exec p.payload = some text) :
    extract x p s i = (match cut x (shown (x.expression s.own) text) with
      | none => .error (.thrown .outOfRange)
      | some value => (searched s x p).onWorld (s.world.intern .sip x.field false true i value)) := by
  obtain ⟨matched, shows⟩ := matchAndExtract_shown found
  unfold extract extractValue
  simp only
  rw [if_pos matched, shows]
  unfold substr cut
  cases Octets.substr (shown (x.expression s.own) text) x.name.length _ with
  | none => rfl
  | some value => rfl

theorem extract_lost {text : Bytes} (found : (x.expression s.own).exec p.payload = some text)
    (short : cut x (shown (x.expression s.own) text) = none) :
    extract x p s i = .error (.thrown .outOfRange) := by
  rw [extract_found found, short]

theorem extract_cut {text value : Bytes} {w : World}
    (found : (x.expression s.own).exec p.payload = some text)
    (given : cut x (shown (x.expression s.own) text) = some value)
    (interned : s.world.intern .sip x.field false true i value = .ok w) :
    extract x p s i = .ok { searched s x p with world := w } := by
  rw [extract_found found, given]
  simp only [interned]
  rfl

theorem extract_absent (absent : (x.expression s.own).exec p.payload = none) :
    extract x p s i = .ok s := by
  have missed : (x.expression s.own).matchAndExtract p.payload = (false, x.expression s.own) := by
    unfold Regex.matchAndExtract
    rw [absent]
  unfold extract extractValue
  simp only [missed, Header.setExpression_self]
  rfl

theorem extract_keeps (ready : Ready a i s) (h : extract x p s i = .ok t) :
    Ready a i t ∧ ∀ y, y ≠ x → Spared a y s t := by
  cases found : (x.expression s.own).exec p.payload with
  | none =>
    obtain rfl := Except.ok.inj ((extract_absent (i := i) found).symm.trans h)
    exact ⟨ready, fun y _ => spared_refl a y s⟩
  | some text =>
    cases given : cut x (shown (x.expression s.own) text) with
    | none => exact absurd ((extract_lost found given).symm.trans h) (by simp)
    | some value =>
      obtain ⟨w, interned⟩ := intern_filled (p := .sip) (i := i) x.field false true value
        ready.sound.keyed.filled
      obtain rfl := Except.ok.inj ((extract_cut found given interned).symm.trans h)
      refine ⟨⟨?_, intern_locked ready.locked interned⟩, fun y other => ⟨?_, ?_⟩⟩
      · exact sound_intern (s := searched s x p) (sound_searched ready.sound x p) interned
      · exact intern_same ready.sound.keyed ready.sound.homed ready.locked interned
          fun same => other (Header.field_injective same)
      · exact Header.expression_set_other _ _ other

theorem attached_interned {w : World} {value : Bytes} (ready : Ready a i s)
    (unnamed : attached s.world a x = none) (plain : ∀ b ∈ value, b ≠ 0)
    (h : s.world.intern .sip x.field false true i value = .ok w) :
    (Supplies s.world x value → attached w a x = some value) ∧
    (¬Supplies s.world x value → attached w a x = none) := by
  rw [attached_locked ready.locked, Option.map_eq_none_iff] at unnamed
  rw [attached_locked (intern_locked ready.locked h)]
  constructor
  · intro supplies
    obtain ⟨w', o, interned, pointer, alive, text⟩ := intern_names (x := x.field) (i := i)
      (v := value) true ready.sound.keyed unnamed supplies
    obtain rfl := Except.ok.inj (interned.symm.trans h)
    rw [cString_nonzero plain] at text
    rw [pointer, lockString_of_alive alive, Option.map_some, text]
  · intro missing
    obtain ⟨absent, empty⟩ := Classical.not_imp.mp missing
    obtain ⟨w', interned, still, -⟩ := intern_misses (x := x.field) (i := i) (v := value) true
      ready.sound.keyed.filled unnamed absent (by omega)
    obtain rfl := Except.ok.inj (interned.symm.trans h)
    rw [still, Option.map_none]

theorem harmless_found {value : Bytes}
    (found : (x.expression s.own).exec p.payload = some (x.name ++ value ++ lineEnd)) :
    Harmless s a p x ↔
      ((x.name ++ value ++ lineEnd).length < Regex.extractBufferSize ∧ ∀ b ∈ value, b ≠ 0) ∨
      ∃ taken, cut x (shown (x.expression s.own) (x.name ++ value ++ lineEnd)) = some taken ∧
        ¬(attached s.world a x = none ∧ Supplies s.world x taken) := by
  unfold Harmless
  simp only [located_text found, Option.some.injEq, forall_eq', found]

theorem extract_iff (ready : Ready a i s) :
    (∃ t, extract x p s i = .ok t ∧ Faithful a p s t x) ↔ Harmless s a p x := by
  cases found : (x.expression s.own).exec p.payload with
  | none =>
    refine iff_of_true ⟨s, extract_absent found, ?_⟩ ?_
    · intro unnamed value named
      exact absurd (unnamed.symm.trans named) (by simp)
    · intro text matched
      exact absurd (found.symm.trans matched) (by simp)
  | some text =>
    obtain ⟨value, rfl⟩ := ready.sound.finds x _ _ found
    have locates : located s x p = some value := located_text found
    cases given : cut x (shown (x.expression s.own) (x.name ++ value ++ lineEnd)) with
    | none =>
      rw [extract_lost found given]
      refine iff_of_false (by simp) fun harmless => ?_
      rcases (harmless_found found).mp harmless with ⟨fits, plain⟩ | ⟨taken, whole, -⟩
      · exact absurd (given.symm.trans (cut_whole _ fits plain)) (by simp)
      · exact absurd (given.symm.trans whole) (by simp)
    | some taken =>
      have plain : ∀ b ∈ taken, b ≠ 0 := cut_plain cString_plain given
      obtain ⟨w, interned⟩ := intern_filled (p := .sip) (i := i) x.field false true taken
        ready.sound.keyed.filled
      have opened := extract_cut found given interned
      by_cases gets : attached s.world a x = none ∧ Supplies s.world x taken
      · have named := (attached_interned ready gets.1 plain interned).1 gets.2
        have exact := cut_iff (ready.sound.buffers x) given
        constructor
        · rintro ⟨t, done, faithful⟩
          obtain rfl := Except.ok.inj (opened.symm.trans done)
          have same := Option.some.inj (locates.symm.trans (faithful gets.1 taken named))
          exact (harmless_found found).mpr (.inl (exact.mp same))
        · intro harmless
          refine ⟨_, opened, fun _ other shows => ?_⟩
          obtain rfl := Option.some.inj (named.symm.trans shows)
          rcases (harmless_found found).mp harmless with fits | ⟨also, same, none⟩
          · rw [locates, exact.mpr fits]
          · obtain rfl := Option.some.inj (given.symm.trans same)
            exact absurd gets none
      · refine iff_of_true ⟨_, opened, fun unnamed other shows => ?_⟩
          ((harmless_found found).mpr (.inr ⟨taken, given, gets⟩))
        have missing : ¬Supplies s.world x taken := fun supplies => gets ⟨unnamed, supplies⟩
        have none := (attached_interned ready unnamed plain interned).2 missing
        exact absurd (none.symm.trans shows) (by simp)

end Extracted

end SIPProtocol

end AIEngine
