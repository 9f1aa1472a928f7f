import AIEngine.Applications.EngineRuns
import AIEngine.Applications.Infos
import AIEngine.Applications.Reads

/-!
# What the SSL parser reads

Every length that is stepped over comes from the packet. The conditions say, function by function,
what has to be there.
-/

namespace AIEngine

open Ending HttpPacket World

namespace SSLProtocol

variable {s t : SSLProtocol} {a i : Obj} {p : L7Packet}

/-! ### The hello -/

/-- The list of names begins, up to the length of its first one. -/
def ServerNameInside (p : L7Packet) (data place : Nat) : Prop :=
  data + place + 7 ≤ p.memory.length

def secondExtension (p : L7Packet) (data place : Nat) : Nat :=
  place + 2 + p.wordAt (data + place + 2) + 2

def ExtensionInside (p : L7Packet) (data place : Nat) : Prop :=
  data + place + 2 ≤ p.memory.length ∧
    (p.wordAt (data + place) = 0xff01 → data + place + 4 ≤ p.memory.length ∧
      data + secondExtension p data place + 2 ≤ p.memory.length ∧
      (p.wordAt (data + secondExtension p data place) = 0 →
        ServerNameInside p data (secondExtension p data place + 2))) ∧
    (p.wordAt (data + place) = 0 → ServerNameInside p data (place + 2))

def ExtensionsInside (p : L7Packet) (data place : Nat) : Prop :=
  place < p.payload.length → data + place + 2 ≤ p.memory.length ∧
    (p.wordAt (data + place) + place < p.payload.length → ExtensionInside p data (place + 2))

def cipherPlace (p : L7Packet) (data offset : Nat) : Nat :=
  helloSize + offset + if p.octetAt (data + 38) = 0 then 0 else 32

def compressionPlace (p : L7Packet) (data offset : Nat) : Nat :=
  cipherPlace p data offset + p.wordAt (data + cipherPlace p data offset) + 2

def extensionsPlace (p : L7Packet) (data place : Nat) : Nat :=
  if 0 < (p.octetAt (data + place)).toNat then place + (p.octetAt (data + place)).toNat + 1
  else place

def HelloInside (p : L7Packet) (data offset : Nat) : Prop :=
  data + 6 ≤ p.memory.length ∧ (isSupported (p.wordAt (data + 4)) = true →
    data + 38 < p.memory.length ∧ data + cipherPlace p data offset + 2 ≤ p.memory.length ∧
    (p.wordAt (data + cipherPlace p data offset) < p.payload.length →
      data + compressionPlace p data offset < p.memory.length ∧
      ExtensionsInside p data (extensionsPlace p data (compressionPlace p data offset))))

theorem serverNameIn_reads (p : L7Packet) (data place : Nat) :
    ReadsInside (serverNameIn p data place) ↔ ServerNameInside p data place := by
  unfold serverNameIn ServerNameInside
  rw [readsInside_word]
  refine and_iff_left ?_
  split
  · exact readsInside_ok _
  · exact readsInside_ok _

theorem extension_reads (p : L7Packet) (data place : Nat) :
    ReadsInside (extension p data place) ↔ ExtensionInside p data place := by
  unfold extension ExtensionInside
  rw [readsInside_word]
  apply and_congr_right
  intro type
  split
  · rename_i renegotiation
    have other : p.wordAt (data + place) ≠ 0 := by omega
    rw [readsInside_word, readsInside_word, imp_iff_right renegotiation,
      and_iff_left fun zero => absurd zero other]
    apply and_congr_right
    intro length
    apply and_congr_right
    intro next
    change ReadsInside (if p.wordAt (data + secondExtension p data place) = 0 then _ else _) ↔ _
    split
    · rename_i zero
      rw [imp_iff_right zero]
      exact serverNameIn_reads p data _
    · rename_i other
      exact iff_of_true (readsInside_ok _) fun zero => absurd zero other
  · rename_i first
    rw [and_iff_right fun renegotiation => absurd renegotiation first]
    split
    · rename_i zero
      rw [imp_iff_right zero]
      exact serverNameIn_reads p data _
    · rename_i other
      exact iff_of_true (readsInside_ok _) fun zero => absurd zero other

theorem extensions_reads (p : L7Packet) (data place : Nat) :
    ReadsInside (extensions p data place) ↔ ExtensionsInside p data place := by
  unfold extensions ExtensionsInside
  split
  · rename_i before
    rw [readsInside_word, imp_iff_right before]
    apply and_congr_right
    intro length
    split
    · rename_i fits
      rw [imp_iff_right fits]
      exact extension_reads p data _
    · rename_i long
      exact iff_of_true (readsInside_ok _) fun fits => absurd fits long
  · rename_i behind
    exact iff_of_true (readsInside_ok _) fun before => absurd before behind

theorem afterCompression_reads {data place : Nat} {f : Nat → Except Failure (Option Bytes)} :
    ReadsInside (afterCompression p data place >>= f) ↔
      data + place < p.memory.length ∧ ReadsInside (f (extensionsPlace p data place)) := by
  unfold afterCompression extensionsPlace
  rw [bind_assoc, readsInside_byte]
  apply and_congr_right
  intro inside
  split <;> exact Iff.rfl

theorem serverName_reads (p : L7Packet) (data offset : Nat) :
    ReadsInside (serverName p data offset) ↔ HelloInside p data offset := by
  unfold serverName HelloInside
  rw [readsInside_word]
  apply and_congr_right
  intro version
  split
  · rename_i supported
    rw [readsInside_byte, readsInside_word, imp_iff_right supported]
    apply and_congr_right
    intro session
    apply and_congr_right
    intro cipher
    change ReadsInside (if p.wordAt (data + cipherPlace p data offset) < p.payload.length then _
      else _) ↔ _
    split
    · rename_i fits
      rw [afterCompression_reads, imp_iff_right fits]
      apply and_congr_right
      intro compression
      exact extensions_reads p data _
    · rename_i long
      exact iff_of_true (readsInside_ok _) fun fits => absurd fits long
  · rename_i other
    exact iff_of_true (readsInside_ok _) fun supported => absurd supported other

/-- Only the parse can leave the payload. -/
theorem handleClientHello_inside (i : Obj) {data offset : Nat} (filled : s.world.Filled)
    (inside : HelloInside p data offset) :
    ∃ t, handleClientHello s i p data offset = .ok t ∧ t.world.Filled := by
  have reads := (serverName_reads p data offset).mpr inside
  have ends : Ends (fun e => e = .fault .outOfBounds) Any (serverName p data offset) :=
    serverName_ends (E := fun e => e = .fault .outOfBounds) rfl p data offset
  unfold handleClientHello
  cases read : serverName p data offset with
  | error e =>
    rw [ends_error ends read] at read
    exact absurd read reads
  | ok name =>
    simp only [bind, Except.bind]
    cases name with
    | none => exact ⟨s, rfl, filled⟩
    | some host =>
      simp only
      split
      · exact ⟨s.countBan, rfl, filled⟩
      · obtain ⟨w, attached⟩ := intern_filled (p := .ssl) (i := i) .host false true host filled
        have same : World.Ssl.attachHost s.world i host = .ok w := attached
        rw [same]
        exact ⟨_, rfl, filled_intern filled attached⟩

theorem handleClientHello_outside (i : Obj) {data offset : Nat}
    (outside : ¬HelloInside p data offset) :
    handleClientHello s i p data offset = .error (.fault .outOfBounds) := by
  have failed : serverName p data offset = .error (.fault .outOfBounds) := by
    by_contra reads
    exact outside ((serverName_reads p data offset).mp reads)
  unfold handleClientHello
  rw [failed]
  rfl

theorem handleClientHello_reads (i : Obj) (p : L7Packet) (data offset : Nat)
    (filled : s.world.Filled) :
    ReadsInside (handleClientHello s i p data offset) ↔ HelloInside p data offset := by
  by_cases inside : HelloInside p data offset
  · obtain ⟨t, handled, -⟩ := handleClientHello_inside i filled inside
    rw [handled]
    exact iff_of_true (readsInside_ok t) inside
  · rw [handleClientHello_outside i inside]
    exact iff_of_false not_readsInside inside

/-! ### The records -/

/-- The types whose records are stepped over as a whole. -/
def Counts (p : L7Packet) (record : Nat) : Prop :=
  p.octetAt (record + 5) = clientHello ∨ p.octetAt (record + 5) = serverHello ∨
    p.octetAt (record + 5) = certificate

instance (p : L7Packet) (record : Nat) : Decidable (Counts p record) :=
  inferInstanceAs (Decidable (_ ∨ _))

def nextRecord (p : L7Packet) (record : Nat) : Nat :=
  if Counts p record then record + p.wordAt (record + 3) + 5 else record + 5

/-- What is read of a hello is there. -/
def RecordInside (p : L7Packet) (record : Nat) : Prop :=
  p.octetAt (record + 5) = clientHello → HelloInside p (record + 5) record

/-- Version, length and type are read of every record that the loop gets to. -/
def RecordsInside (p : L7Packet) : Nat → Nat → Prop
  | 0, _ => True
  | attempts + 1, record => record + 5 < p.memory.length ∧
      (isSupported (p.wordAt (record + 1)) = true → RecordInside p record ∧
        (nextRecord p record < p.payload.length →
          RecordsInside p attempts (nextRecord p record)))

theorem handleRecord_inside (i : Obj) {record : Nat} (filled : s.world.Filled)
    (hello : RecordInside p record) :
    ∃ t, handleRecord s i p (p.octetAt (record + 5)) record record (p.wordAt (record + 3)) =
      .ok (nextRecord p record, nextRecord p record, t) ∧ t.world.Filled := by
  have whole (counts : Counts p record) :
      nextRecord p record = record + 5 + p.wordAt (record + 3) ∧
        nextRecord p record = record + p.wordAt (record + 3) + 5 := by
    unfold nextRecord
    rw [if_pos counts]
    omega
  unfold handleRecord
  by_cases first : p.octetAt (record + 5) = clientHello
  · obtain ⟨t, handled, after⟩ := handleClientHello_inside i filled (hello first)
    obtain ⟨place, offset⟩ := whole (.inl first)
    rw [if_pos first, handled, ← place, ← offset]
    exact ⟨t, rfl, after⟩
  · rw [if_neg first]
    by_cases other : p.octetAt (record + 5) = serverHello ∨ p.octetAt (record + 5) = certificate
    · obtain ⟨place, offset⟩ := whole (.inr other)
      rw [if_pos other, ← place, ← offset]
      exact ⟨s, rfl, filled⟩
    · have header : nextRecord p record = record + 5 := if_neg (not_or.mpr ⟨first, other⟩)
      rw [if_neg other, ← header]
      exact ⟨s, rfl, filled⟩

theorem handleRecord_outside (s : SSLProtocol) (i : Obj) {record : Nat}
    (outside : ¬RecordInside p record) :
    handleRecord s i p (p.octetAt (record + 5)) record record (p.wordAt (record + 3)) =
      .error (.fault .outOfBounds) := by
  obtain ⟨first, hello⟩ := Classical.not_imp.mp outside
  unfold handleRecord
  rw [if_pos first, handleClientHello_outside i hello]
  rfl

theorem records_reads (i : Obj) (p : L7Packet) (attempts record : Nat) (filled : s.world.Filled) :
    ReadsInside (records i p attempts s record record) ↔ RecordsInside p attempts record := by
  induction attempts generalizing s record with
  | zero => exact iff_of_true (readsInside_ok s) trivial
  | succ attempts ih =>
    unfold records RecordsInside
    by_cases header : record + 5 < p.memory.length
    · rw [readsInside_word, readsInside_word, readsInside_byte, and_iff_right (by omega),
        and_iff_right (by omega), and_iff_right header, and_iff_right header]
      split
      · rename_i supported
        rw [imp_iff_right supported]
        by_cases inside : RecordInside p record
        · obtain ⟨t, handled, after⟩ := handleRecord_inside i filled inside
          rw [handled, and_iff_right inside]
          simp only [bind, Except.bind]
          split
          · rename_i later
            rw [imp_iff_right later]
            exact ih _ after
          · rename_i last
            exact iff_of_true (readsInside_ok t) fun later => absurd later last
        · rw [handleRecord_outside s i inside]
          exact iff_of_false not_readsInside fun both => inside both.1
      · rename_i other
        exact iff_of_true (readsInside_ok s) fun supported => absurd supported other
    · refine iff_of_false ?_ fun both => header both.1
      rw [readsInside_word, readsInside_word, readsInside_byte]
      exact fun both => header both.2.2.1

/-! ### The payload -/

/-- The length of the first record, and the records, unless that length is zero. -/
def PayloadInside (p : L7Packet) : Prop :=
  5 ≤ p.memory.length ∧ (0 < p.wordAt 3 → RecordsInside p 4 0)

/-- The flow has counted fewer than two packets before, or its counter turns negative with this one. -/
def Early (s : SSLProtocol) (a : Obj) : Prop :=
  (s.world.flows a).totalPacketsL7.toInt < 2 ∨ (s.world.flows a).totalPacketsL7.toInt = Counter.top

instance (s : SSLProtocol) (a : Obj) : Decidable (Early s a) := inferInstanceAs (Decidable (_ ∨ _))

theorem early_iff : Early s a ↔ ((s.world.flows a).totalPacketsL7 + 1).toInt < 3 := by
  unfold Early
  rw [Counter.toInt_succ]
  unfold Counter.top
  split <;> omega

/-- The records of a packet are looked at. -/
def Inspects (s : SSLProtocol) (a : Obj) : Prop :=
  Early s a ∧ Inspector.Informs .ssl s a ∧
    ∀ i, s.world.lockInfo .ssl (s.world.flows a) = some i → (s.world.infos i).isBanned = false

theorem matchHost_reads (s : SSLProtocol) (a i : Obj) : ReadsInside (matchHost s a i) := by
  unfold matchHost
  split
  · unfold Inspector.lookupHost
    split
    · exact readsInside_ok s
    · split
      · split
        · exact readsInside_ok s
        · simp [ReadsInside, bind, Except.bind]
      · exact readsInside_ok s
  · exact readsInside_ok s

theorem processRecords_reads (a i : Obj) (p : L7Packet) (filled : s.world.Filled) :
    ReadsInside (processRecords a p s i) ↔
      ((s.world.flows a).totalPacketsL7.toInt < 3 → PayloadInside p) := by
  unfold processRecords PayloadInside
  split
  · rename_i early
    rw [imp_iff_right early, readsInside_word]
    apply and_congr_right
    intro header
    split
    · rename_i long
      rw [imp_iff_right long, ← records_reads i p 4 0 filled]
      cases records i p 4 s 0 0 with
      | error e => simp [ReadsInside, bind, Except.bind]
      | ok t => exact iff_of_true (matchHost_reads t a i) (readsInside_ok t)
    · rename_i empty
      exact iff_of_true (readsInside_ok s) fun long => absurd long empty
  · rename_i late
    refine iff_of_true ?_ fun early => absurd early late
    split
    · exact readsInside_ok _
    · exact readsInside_ok s

theorem countPacketL7_locks (s : SSLProtocol) (a : Obj) :
    (s.countPacketL7 a).world.lockInfo .ssl ((s.countPacketL7 a).world.flows a) =
      s.world.lockInfo .ssl (s.world.flows a) := by
  simp only [Inspector.countPacketL7, lockInfo, setFlow, if_true]
  rfl

theorem countPacketL7_packets (s : SSLProtocol) (a : Obj) :
    ((s.countPacketL7 a).world.flows a).totalPacketsL7 =
      (s.world.flows a).totalPacketsL7 + 1 := by
  simp [Inspector.countPacketL7, setFlow]

theorem processFlow_inspects (p : L7Packet) (filled : s.world.Filled) (inspects : Inspects s a) :
    ∃ i t, processFlow s a p = processRecords a p t i ∧
      Inspector.Takes .ssl {} a i (s.countPacketL7 a) t := by
  obtain ⟨early, informs, allowed⟩ := inspects
  have informs : Inspector.Informs .ssl (s.countPacketL7 a) a := by
    unfold Inspector.Informs
    rw [countPacketL7_locks]
    exact informs
  obtain ⟨i, t, attached, takes⟩ := Inspector.attachInfo_takes {}
    (s := s.countPacketL7 a) (filled_same filled fun _ => rfl) informs
  have passes : (t.world.infos i).isBanned = false := by
    cases locked : s.world.lockInfo .ssl (s.world.flows a) with
    | none => rw [(takes.fresh ((countPacketL7_locks s a).trans locked)).1]
    | some j =>
      obtain ⟨rfl, same⟩ := takes.held j ((countPacketL7_locks s a).trans locked)
      rw [same]
      exact allowed j locked
  refine ⟨i, t, ?_, takes⟩
  unfold processFlow Inspector.withInfo
  rw [attached]
  simp only [Inspector.unlessBanned, passes]
  rfl

theorem processFlow_skips (p : L7Packet) (filled : s.world.Filled) (skips : ¬Inspects s a) :
    ∃ t, processFlow s a p = .ok t := by
  unfold processFlow Inspector.withInfo
  by_cases informs : Inspector.Informs .ssl (s.countPacketL7 a) a
  · obtain ⟨i, t, attached, takes⟩ := Inspector.attachInfo_takes {}
      (s := s.countPacketL7 a) (filled_same filled fun _ => rfl) informs
    rw [attached]
    have packets := takes.packets.trans (countPacketL7_packets s a)
    simp only [Inspector.unlessBanned]
    split
    · exact ⟨t, rfl⟩
    · rename_i passes
      have late : ¬(t.world.flows a).totalPacketsL7.toInt < 3 := by
        intro early
        rw [packets] at early
        refine skips ⟨early_iff.mpr early, fun expired => ?_, fun j locked => ?_⟩
        · exact informs ((countPacketL7_locks s a).trans expired)
        · obtain ⟨rfl, same⟩ := takes.held j ((countPacketL7_locks s a).trans locked)
          rw [same] at passes
          exact Bool.eq_false_iff.mpr passes
      unfold processRecords
      rw [if_neg late]
      split
      · exact ⟨_, rfl⟩
      · exact ⟨t, rfl⟩
  · obtain ⟨w, missed, -⟩ := Inspector.attachInfo_misses {} informs
    rw [missed]
    exact ⟨_, rfl⟩

theorem processFlow_reads (a : Obj) (p : L7Packet) (filled : s.world.Filled) :
    ReadsInside (processFlow s a p) ↔ (Inspects s a → PayloadInside p) := by
  by_cases inspects : Inspects s a
  · obtain ⟨i, t, worked, takes⟩ := processFlow_inspects p filled inspects
    have counted : (s.countPacketL7 a).world.Filled := filled_same filled fun _ => rfl
    have after := filled_attachInfo counted takes.attached
    have early := early_iff.mp inspects.1
    have packets := takes.packets.trans (countPacketL7_packets s a)
    rw [worked, processRecords_reads a i p after, imp_iff_right inspects, packets, imp_iff_right early]
  · obtain ⟨t, skipped⟩ := processFlow_skips p filled inspects
    rw [skipped]
    exact iff_of_true (readsInside_ok t) fun all => absurd all inspects

end SSLProtocol

namespace Engine

/-- SSL, with the world that all share. -/
def sslProtocol (e : Engine) : SSLProtocol := { e.ssl with world := e.world }

open SSLProtocol

/-- What is read of a payload that ends where its memory does. -/
theorem always_ssl_reads_iff (objects : CacheId → Nat) (layer : Option Nat)
    (expressions : SIPExpressions) (events : List Event) :
    Transition.Always step (fun e => ∀ (a i : Obj) (p : L7Packet), p.beyond = [] →
        (∀ data offset, ReadsInside (handleClientHello e.sslProtocol i p data offset) ↔
          HelloInside p data offset) ∧
        (∀ attempts, ReadsInside (records i p attempts e.sslProtocol 0 0) ↔
          RecordsInside p attempts 0) ∧
        (ReadsInside (SSLProtocol.processFlow e.sslProtocol a p) ↔
          (Inspects e.sslProtocol a → PayloadInside p)))
      (start objects layer expressions) events := by
  apply Transition.always_mono _ (always_sound objects layer expressions events)
  intro e sound a i p _
  have filled : e.sslProtocol.world.Filled := sound.pooled.filled
  exact ⟨fun data offset => handleClientHello_reads i p data offset filled,
    fun attempts => records_reads i p attempts 0 filled, processFlow_reads a p filled⟩

/-- A record with the first octet of a hello. -/
def truncatedHello : L7Packet where
  payload := [0x16, 3, 1, 0, 1, 1]
  direction := .forward

theorem not_always_ssl_reads :
    ¬∀ objects layer expressions events,
      Transition.Always step (fun e => ∀ (a : Obj) (p : L7Packet), p.beyond = [] →
          ReadsInside (SSLProtocol.processFlow e.sslProtocol a p))
        (start objects layer expressions) events := by
  intro all
  let silent : SIPExpressions :=
    ⟨⟨fun _ => none, []⟩, ⟨fun _ => none, []⟩, ⟨fun _ => none, []⟩⟩
  have always := all (fun _ => 1) none silent [.openTcp ⟨.flow 0, 0⟩ 0]
  cases reached : Transition.run step (start (fun _ => 1) none silent)
      [.openTcp ⟨.flow 0, 0⟩ 0] with
  | none => exact absurd reached (by decide +kernel)
  | some e =>
    have opened : ((Transition.run step (start (fun _ => 1) none silent)
        [.openTcp ⟨.flow 0, 0⟩ 0]).any fun e =>
          decide (Early e.sslProtocol ⟨.flow 0, 0⟩ ∧
            Inspector.Informs .ssl e.sslProtocol ⟨.flow 0, 0⟩ ∧
            e.world.lockInfo .ssl (e.world.flows ⟨.flow 0, 0⟩) = none)) = true := by
      decide +kernel
    rw [reached, Option.any_some, decide_eq_true_eq] at opened
    obtain ⟨early, informs, fresh⟩ := opened
    have inspects : Inspects e.sslProtocol ⟨.flow 0, 0⟩ := by
      refine ⟨early, informs, fun i locked => ?_⟩
      exact absurd (locked.symm.trans fresh) (by simp)
    have sound := Transition.always_final (always_sound _ _ _ _) reached
    have filled : e.sslProtocol.world.Filled := sound.pooled.filled
    have reads := Transition.always_final always reached ⟨.flow 0, 0⟩ truncatedHello rfl
    have inside := (processFlow_reads _ truncatedHello filled).mp reads inspects
    have hello := ((inside.2 (by decide)).2 (by decide)).1 (by decide)
    exact absurd hello.1 (by decide)

end Engine

end AIEngine
