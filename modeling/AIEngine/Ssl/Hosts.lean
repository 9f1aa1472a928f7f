import AIEngine.Applications.Keyed
import AIEngine.Ssl.ClientHello

/-!
# Hosts of hellos

What a hello leaves with its flow, in every state that packets of any flows lead to.
-/

namespace AIEngine

open Ending World

namespace SSLProtocol

variable {s t : SSLProtocol} {a i : Obj} {p : L7Packet} {hello : ClientHello} {before after : Bytes}

def step (s : SSLProtocol) (e : Obj × L7Packet) : Option SSLProtocol :=
  (processFlow s e.1 e.2).toOption

def hostOf (s : SSLProtocol) (a : Obj) : Option Bytes := do
  let i ← s.world.lockInfo .ssl (s.world.flows a)
  let host ← s.world.lockString .ssl ((s.world.infos i).strings .host)
  some (cString (s.world.names host))

/-- The host after a packet, if the packet comes to its end. -/
def leaves (s : SSLProtocol) (a : Obj) (p : L7Packet) : Option (Option Bytes) :=
  (s.step (a, p)).map fun t => t.hostOf a

/-- The record of the hello is somewhere in the payload. -/
def Carries (p : L7Packet) (before : Bytes) (hello : ClientHello) (after : Bytes) : Prop :=
  p.payload = before ++ (hello.encode ++ after)

/-- The host of the hello, or without one the host that was there. -/
def Attaches (s : SSLProtocol) (a : Obj) (p : L7Packet) (hello : ClientHello) : Prop :=
  leaves s a p = some (hello.host.or (hostOf s a))

def Supplies (s : SSLProtocol) (host : Bytes) : Prop :=
  find (s.world.maps .ssl .host) host = none → 0 < (s.world.cache (.string .ssl .host)).total

instance (s : SSLProtocol) (host : Bytes) : Decidable (Supplies s host) :=
  inferInstanceAs (Decidable (_ → _))

/-- The loop goes on inside the payload, and gets to no other hello. -/
def Quiet (p : L7Packet) : Nat → Nat → Prop
  | 0, _ => True
  | attempts + 1, record => record < p.payload.length → record + 5 < p.memory.length ∧
      (isSupported (p.wordAt (record + 1)) = true → p.octetAt (record + 5) ≠ clientHello ∧
        Quiet p attempts (nextRecord p record))

/-- What the flow brings along for a host: it has none and can get this one, or it has this one. -/
def Receives (s : SSLProtocol) (a : Obj) (hello : ClientHello) : Prop :=
  match hostOf s a with
  | none => hello.Reached ∧ ∀ host, hello.host = some host → Supplies s host
  | some known => hello.Listed ∧ ∀ host, hello.host = some host → host = known

/-- The records are looked at: the hello is the first one and the only one that the loop gets to, its
session id has 0 or 32 octets, and what is found in it goes to the flow. Or they are not, and there is
nothing new to be found. -/
def Attachable (s : SSLProtocol) (a : Obj) (p : L7Packet) (before : Bytes) (hello : ClientHello) :
    Prop :=
  (Inspects s a → before = [] ∧ Aligned hello ∧ Quiet p 3 (5 + hello.handshake.length) ∧
    Receives s a hello) ∧
  (¬Inspects s a → ∀ host, hello.host = some host → hostOf s a = some host)

/-! ### No info is banned -/

def Unbanned (w : World) : Prop := ∀ i, (w.infos i).isBanned = false

theorem unbanned_handled {w w' : World} {grew : Prop} (unbanned : Unbanned w)
    (h : Handled .ssl a grew w w') : Unbanned w' := by
  have attached {w w' : World} {r : Option Obj} (unbanned : Unbanned w)
      (h : w.attachInfo .ssl a = .ok (r, w')) : Unbanned w' := by
    intro j
    rcases World.attachInfo_cases h with ⟨i, -, -, rfl⟩ | ⟨i, c, -, -, -, rfl⟩ | ⟨c, -, -, rfl⟩
    · exact unbanned j
    · by_cases same : j = i
      · simp [setFlow, setInfo, same]
      · simpa [setFlow, setInfo, same] using unbanned j
    · exact unbanned j
  cases h with
  | noted f pointers written kept =>
    rw [written]
    exact unbanned
  | without f pointers failed kept => exact attached (w := w.setFlow a f) unbanned failed
  | worked f pointers i w₁ acquired touches counted =>
    intro j
    have fresh := attached (w := w.setFlow a f) unbanned acquired
    apply Bool.eq_false_iff.mpr
    intro banned
    rcases (touches_keepsInfos touches).marked j banned with before | ⟨-, marks⟩
    · exact absurd (fresh j) (by rw [before]; simp)
    · exact absurd marks (by decide)

structure Sound (s : SSLProtocol) : Prop where
  keyed : Keyed .ssl s.world
  unbanned : Unbanned s.world

theorem sound_step {e : Obj × L7Packet} (sound : Sound s) (stepped : s.step e = some t) :
    Sound t := by
  have handled := ends_value (processFlow_handled (a := e.1) e.2 sound.keyed.filled)
    (toOption_some stepped)
  exact ⟨keyed_handled sound.keyed rfl handled, unbanned_handled sound.unbanned handled⟩

/-! ### One hello -/

theorem matchHost_eq (s : SSLProtocol) (a i : Obj) : matchHost s a i = .ok s := by
  have looked : ∃ known, s.lookupHost .ssl i = .ok known := by
    unfold Inspector.lookupHost
    split
    · exact ⟨_, rfl⟩
    · cases s.world.lockString .ssl ((s.world.infos i).strings .host) with
      | none => exact ⟨_, rfl⟩
      | some host => exact ⟨_, rfl⟩
  unfold matchHost
  split
  · obtain ⟨known, found⟩ := looked
    rw [found]
    rfl
  · rfl

theorem quiet_behind {record : Nat} (behind : p.payload.length ≤ record) (attempts : Nat) :
    Quiet p attempts record := by
  cases attempts with
  | zero => trivial
  | succ attempts => exact fun inside => absurd inside (by omega)

/-- A record of another type changes nothing. -/
theorem handleRecord_other (s : SSLProtocol) (i : Obj) {record : Nat}
    (other : p.octetAt (record + 5) ≠ clientHello) :
    handleRecord s i p (p.octetAt (record + 5)) record record (p.wordAt (record + 3)) =
      .ok (nextRecord p record, nextRecord p record, s) := by
  unfold handleRecord
  rw [if_neg other]
  by_cases counts : p.octetAt (record + 5) = serverHello ∨ p.octetAt (record + 5) = certificate
  · have whole : nextRecord p record = record + p.wordAt (record + 3) + 5 := if_pos (Or.inr counts)
    have place : record + 5 + p.wordAt (record + 3) = record + p.wordAt (record + 3) + 5 := by
      omega
    rw [if_pos counts, whole, place]
  · have header : nextRecord p record = record + 5 := if_neg (not_or.mpr ⟨other, counts⟩)
    rw [if_neg counts, header]

theorem records_quiet (s : SSLProtocol) (i : Obj) (attempts record : Nat)
    (quiet : Quiet p attempts record) (inside : record < p.payload.length) :
    records i p attempts s record record = .ok s := by
  induction attempts generalizing record with
  | zero => rfl
  | succ attempts ih =>
    obtain ⟨header, goes⟩ := quiet inside
    unfold records
    rw [HttpPacket.word_inside (by omega), HttpPacket.word_inside (by omega),
      HttpPacket.byte_inside header]
    simp only [bind, Except.bind]
    split
    · rename_i supported
      obtain ⟨other, later⟩ := goes supported
      rw [handleRecord_other s i other]
      simp only
      split
      · rename_i further
        exact ih _ later further
      · rfl
    · rfl

/-- Behind the record the loop finds nothing. -/
theorem records_hello (begins : Begins p hello after)
    (quiet : Quiet p 3 (5 + hello.handshake.length)) (t : SSLProtocol) (i : Obj) :
    records i p 4 t 0 0 = handleClientHello t i p 5 0 := by
  obtain ⟨version, length, type, -⟩ := record_fields begins
  have total := payload_length begins
  have size := handshake_length hello
  have memory := HttpPacket.payload_le_memory p
  unfold records
  rw [HttpPacket.word_inside (k := 0 + 1) (by omega), HttpPacket.word_inside (k := 0 + 3) (by omega),
    HttpPacket.byte_inside (k := 0 + 5) (by omega)]
  simp only [Nat.zero_add, version, length, type, bind, Except.bind]
  rw [if_pos hello.recordSupported]
  unfold handleRecord
  rw [if_pos rfl]
  simp only [Nat.zero_add, bind, Except.bind]
  cases handleClientHello t i p 5 0 with
  | error e => rfl
  | ok u =>
    change (if hello.handshake.length + 5 < p.payload.length then
      records i p 3 u (5 + hello.handshake.length) (hello.handshake.length + 5) else .ok u) = .ok u
    rw [Nat.add_comm hello.handshake.length 5]
    split
    · rename_i further
      exact records_quiet u i 3 _ quiet further
    · rfl

theorem processRecords_hello (begins : Begins p hello after)
    (quiet : Quiet p 3 (5 + hello.handshake.length)) (t : SSLProtocol) (i : Obj)
    (early : (t.world.flows a).totalPacketsL7.toInt < 3) :
    processRecords a p t i = handleClientHello t i p 5 0 := by
  obtain ⟨-, length, -, -⟩ := record_fields begins
  have total := payload_length begins
  have size := handshake_length hello
  have memory := HttpPacket.payload_le_memory p
  unfold processRecords
  rw [if_pos early, HttpPacket.word_inside (by omega), length]
  simp only [bind, Except.bind]
  rw [if_pos (by omega), records_hello begins quiet]
  cases handleClientHello t i p 5 0 with
  | error e => rfl
  | ok u => exact matchHost_eq u a i

theorem hostOf_locked (locked : s.world.lockInfo .ssl (s.world.flows a) = some i) :
    hostOf s a = (s.world.lockString .ssl ((s.world.infos i).strings .host)).map
      fun host => cString (s.world.names host) := by
  unfold hostOf
  rw [locked, Option.bind_eq_bind, Option.bind_some]
  cases s.world.lockString .ssl ((s.world.infos i).strings .host) <;> rfl

theorem hostOf_expired (expired : s.world.lockInfo .ssl (s.world.flows a) = none) :
    hostOf s a = none := by
  unfold hostOf
  rw [expired]
  rfl

/-- The state in which a packet of a flow is handled. -/
structure Enters (s : SSLProtocol) (a i : Obj) (t : SSLProtocol) : Prop where
  locked : t.world.lockInfo .ssl (t.world.flows a) = some i
  host : hostOf t a = hostOf s a
  keyed : Keyed .ssl t.world
  packets : (t.world.flows a).totalPacketsL7 = (s.world.flows a).totalPacketsL7 + 1
  pool : t.world.cache (.string .ssl .host) = s.world.cache (.string .ssl .host)
  maps : t.world.maps .ssl .host = s.world.maps .ssl .host
  bans : t.banDomains = s.banDomains

theorem takes_enters (sound : Sound s)
    (takes : Inspector.Takes .ssl {} a i (s.countPacketL7 a) t) : Enters s a i t := by
  have counted : Keyed .ssl (s.countPacketL7 a).world :=
    keyed_same sound.keyed (filled_same sound.keyed.filled fun _ => rfl) (fun _ => rfl) rfl rfl rfl
  have locked := attachInfo_locked takes.attached
  refine ⟨locked, ?_, keyed_attachInfo counted takes.attached, ?_, takes.strings .host, ?_,
    takes.bans⟩
  · cases held : s.world.lockInfo .ssl (s.world.flows a) with
    | none =>
      rw [hostOf_locked locked, (takes.fresh ((countPacketL7_locks s a).trans held)).1,
        hostOf_expired held]
      rfl
    | some j =>
      obtain ⟨rfl, same⟩ := takes.held j ((countPacketL7_locks s a).trans held)
      rw [hostOf_locked locked, hostOf_locked held, same]
      rfl
  · rw [takes.packets, countPacketL7_packets]
  · rw [takes.maps]
    rfl

theorem leaves_ok {u : SSLProtocol} (worked : processFlow s a p = .ok u) :
    leaves s a p = some (hostOf u a) := by
  unfold leaves step
  rw [worked]
  rfl

/-- A packet whose records are not looked at leaves the host. -/
theorem leaves_uninspected (p : L7Packet) (sound : Sound s) (skips : ¬Inspects s a) :
    leaves s a p = some (hostOf s a) := by
  by_cases informs : Inspector.Informs .ssl (s.countPacketL7 a) a
  · obtain ⟨i, t, attached, takes⟩ := Inspector.attachInfo_takes ({} : SSLInfo)
      (s := s.countPacketL7 a) (filled_same sound.keyed.filled fun _ => rfl) informs
    have enters := takes_enters sound takes
    have late : ¬(t.world.flows a).totalPacketsL7.toInt < 3 := by
      intro early
      rw [enters.packets] at early
      refine skips ⟨early_iff.mpr early, fun expired => ?_, fun j _ => sound.unbanned j⟩
      exact informs ((countPacketL7_locks s a).trans expired)
    have same : ∃ info, processFlow s a p = .ok (t.setInfo i info) ∨ processFlow s a p = .ok t := by
      refine ⟨{ dataPdus := (t.infos i).dataPdus + 1 }, ?_⟩
      unfold processFlow Inspector.withInfo
      rw [attached]
      simp only [Inspector.unlessBanned]
      split
      · exact Or.inr rfl
      · unfold processRecords
        rw [if_neg late]
        split
        · exact Or.inl rfl
        · exact Or.inr rfl
    obtain ⟨info, worked | worked⟩ := same
    · rw [leaves_ok worked, ← enters.host]
      rfl
    · rw [leaves_ok worked, enters.host]
  · obtain ⟨w, attached, expired⟩ := Inspector.attachInfo_misses ({} : SSLInfo) informs
    have worked : processFlow s a p = .ok { s.countPacketL7 a with world := w } := by
      unfold processFlow Inspector.withInfo
      rw [attached]
    have free := (Classical.not_imp.mp informs).1
    rw [countPacketL7_locks] at free
    rw [leaves_ok worked, hostOf_expired expired, hostOf_expired free]

/-- The host that is attached: the one that was there, the new one, or none when there is no string
for it. -/
theorem attachHost_leaves {host : Bytes} (enters : Enters s a i t) (goes : ∀ b ∈ host, b ≠ 0) :
    ∃ u, t.countAllow.onWorld (Ssl.attachHost t.world i host) = .ok u ∧
      hostOf u a = (hostOf s a).or (if Supplies s host then some host else none) := by
  have keeps {w : World} (infos : KeepsInfos .ssl i t.world w) :
      w.lockInfo .ssl (w.flows a) = some i := by
    unfold lockInfo
    rw [infos.pools, infos.pointers]
    exact enters.locked
  cases known : hostOf s a with
  | some there =>
    have live : (t.world.lockString .ssl ((t.world.infos i).strings .host)).isSome = true := by
      have host := enters.host.trans known
      rw [hostOf_locked enters.locked] at host
      cases held : t.world.lockString .ssl ((t.world.infos i).strings .host) with
      | none =>
        rw [held] at host
        exact absurd host (by simp)
      | some name => rfl
    have attached : Ssl.attachHost t.world i host = .ok t.world := if_pos ⟨rfl, live⟩
    rw [attached]
    exact ⟨_, rfl, enters.host.trans known⟩
  | none =>
    have unnamed : t.world.lockString .ssl ((t.world.infos i).strings .host) = none := by
      have host := enters.host.trans known
      rw [hostOf_locked enters.locked] at host
      exact Option.map_eq_none_iff.mp host
    rw [Option.none_or]
    by_cases supplies : Supplies s host
    · obtain ⟨w, name, interned, pointer, alive, text⟩ := intern_names (x := .host) (i := i)
        (v := host) true enters.keyed unnamed (by rw [enters.maps, enters.pool]; exact supplies)
      rw [cString_nonzero goes] at text
      have attached : Ssl.attachHost t.world i host = .ok w := interned
      rw [attached, if_pos supplies]
      refine ⟨{ t.countAllow with world := w }, rfl, ?_⟩
      rw [hostOf_locked (keeps (intern_keepsInfos interned))]
      simp only [pointer, lockString_of_alive alive, Option.map_some, text]
    · obtain ⟨absent, empty⟩ := Classical.not_imp.mp supplies
      obtain ⟨w, interned, still, infos⟩ := intern_misses (x := .host) (v := host) true
        enters.keyed.filled unnamed (by rw [enters.maps]; exact absent)
        (by rw [enters.pool]; omega)
      have attached : Ssl.attachHost t.world i host = .ok w := interned
      rw [attached, if_neg supplies]
      refine ⟨{ t.countAllow with world := w }, rfl, ?_⟩
      rw [hostOf_locked (keeps infos)]
      simp only [still, Option.map_none]

/-- What the flow has after a hello, by what is found in it. -/
def result (s : SSLProtocol) (a : Obj) : Option (Option Bytes) → Option (Option Bytes)
  | none => none
  | some none => some (hostOf s a)
  | some (some host) => some ((hostOf s a).or (if Supplies s host then some host else none))

theorem leaves_found (sound : Sound s) (free : s.banDomains = none) (inspects : Inspects s a)
    (begins : Begins p hello after) (aligned : Aligned hello)
    (quiet : Quiet p 3 (5 + hello.handshake.length))
    (strict : hello.found = none → after ++ p.beyond = []) :
    leaves s a p = result s a hello.found := by
  obtain ⟨i, t, worked, takes⟩ := processFlow_inspects p sound.keyed.filled inspects
  have enters := takes_enters sound takes
  have early : (t.world.flows a).totalPacketsL7.toInt < 3 := by
    rw [enters.packets]
    exact early_iff.mp inspects.1
  have handled := worked.trans (processRecords_hello begins quiet t i early)
  unfold handleClientHello at handled
  rw [serverName_hello begins aligned strict] at handled
  cases found : hello.found with
  | none =>
    rw [found] at handled
    unfold leaves step
    rw [handled]
    rfl
  | some name =>
    rw [found] at handled
    cases name with
    | none =>
      have same : processFlow s a p = .ok t := handled
      rw [leaves_ok same, enters.host]
      rfl
    | some host =>
      obtain ⟨u, attached, left⟩ := attachHost_leaves enters (found_host found).2
      have allowed : t.isBanDomain host = false := by
        unfold Inspector.isBanDomain
        rw [enters.bans, free]
        rfl
      simp only [returned, bind, Except.bind, allowed] at handled
      have same : processFlow s a p = .ok u := handled.trans attached
      rw [leaves_ok same, left]
      rfl

/-- Which of the results is right. -/
theorem result_iff (s : SSLProtocol) (a : Obj) (hello : ClientHello) :
    result s a hello.found = some (hello.host.or (hostOf s a)) ↔ Receives s a hello := by
  have reached := found_iff hello
  have listed := found_some hello
  unfold Receives
  cases found : hello.found with
  | none =>
    rw [found] at reached listed
    refine iff_of_false (by simp [result]) ?_
    cases known : hostOf s a with
    | none => exact fun both => by simpa using reached.mpr both.1
    | some there => exact fun both => listed.mpr both.1 rfl
  | some name =>
    rw [found] at reached listed
    have looked : hello.Listed := listed.mp (by simp)
    cases name with
    | none =>
      cases known : hostOf s a with
      | none =>
        simp only [result, known, Option.or_none]
        constructor
        · intro same
          refine ⟨reached.mp same, fun host named => ?_⟩
          exact absurd ((Option.some.inj same).trans named) (by simp)
        · exact fun both => reached.mpr both.1
      | some there =>
        simp only [result, known, Option.some.injEq, and_iff_right looked]
        cases host : hello.host with
        | none => simp
        | some other => simp [eq_comm]
    | some found' =>
      have host := (found_host found).1
      rw [host] at reached ⊢
      cases known : hostOf s a with
      | none =>
        simp only [result, known, Option.none_or, Option.or_none, Option.some.injEq,
          and_iff_right (reached.mp rfl), forall_eq']
        simp
      | some there => simp [result, known, looked, eq_comm]

theorem attaches_iff (sound : Sound s) (free : s.banDomains = none) (inspects : Inspects s a)
    (begins : Begins p hello after) (aligned : Aligned hello)
    (quiet : Quiet p 3 (5 + hello.handshake.length))
    (strict : hello.found = none → after ++ p.beyond = []) :
    Attaches s a p hello ↔ Receives s a hello := by
  unfold Attaches
  rw [leaves_found sound free inspects begins aligned quiet strict, result_iff]

theorem attaches_uninspected (p : L7Packet) (sound : Sound s) (skips : ¬Inspects s a)
    (hello : ClientHello) :
    Attaches s a p hello ↔ ∀ host, hello.host = some host → hostOf s a = some host := by
  unfold Attaches
  rw [leaves_uninspected p sound skips, Option.some.injEq]
  cases hello.host with
  | none => simp
  | some host => simp

theorem listed_of_receives (receives : Receives s a hello) : hello.found ≠ none := by
  unfold Receives at receives
  split at receives
  · rw [(found_iff hello).mpr receives.1]
    simp
  · exact (found_some hello).mpr receives.1

theorem attaches_of_attachable (sound : Sound s) (free : s.banDomains = none)
    (carries : Carries p before hello after) (attachable : Attachable s a p before hello) :
    Attaches s a p hello := by
  by_cases inspects : Inspects s a
  · obtain ⟨rfl, aligned, quiet, receives⟩ := attachable.1 inspects
    refine (attaches_iff sound free inspects carries aligned quiet fun nothing => ?_).mpr receives
    exact absurd nothing (listed_of_receives receives)
  · exact (attaches_uninspected p sound inspects hello).mpr (attachable.2 inspects)

/-- The first direction fails where a parse that is out of step can come upon the name. -/
theorem attachable_of_attaches (sound : Sound s) (free : s.banDomains = none)
    (carries : Carries p before hello after) (strict : p.beyond = [])
    (whole : Inspects s a → before = [] ∧ after = [] ∧ Aligned hello)
    (attaches : Attaches s a p hello) : Attachable s a p before hello := by
  by_cases inspects : Inspects s a
  · obtain ⟨rfl, rfl, aligned⟩ := whole inspects
    have total := payload_length carries
    rw [List.length_nil] at total
    have quiet : Quiet p 3 (5 + hello.handshake.length) := quiet_behind (by omega) 3
    refine ⟨fun _ => ⟨rfl, aligned, quiet, ?_⟩, fun skips => absurd inspects skips⟩
    exact (attaches_iff sound free inspects carries aligned quiet fun _ => by rw [strict]; rfl).mp
      attaches
  · exact ⟨fun looks => absurd looks inspects,
      fun _ => (attaches_uninspected p sound inspects hello).mp attaches⟩

/-! ### After other packets -/

/-- The protocol with its domain managers, before its first packet. -/
def plugged (objects : CacheId → Nat) (ban domains : Option (Bytes → Bool)) : SSLProtocol where
  world := World.start objects none
  infos := fun _ => {}
  own := ()
  banDomains := ban
  domains := domains

def letter : HostName where
  text := [0x61]
  nonempty := by decide
  short := by decide
  printable := by decide

/-- A hello with a session id of some length, whose only extension is the server name. -/
def identified (n : Nat) (short : n ≤ 32) : ClientHello where
  recordVersion := 0x0301
  recordSupported := by decide
  version := 0x0303
  supported := by decide
  random := List.replicate 32 0
  random_length := by simp
  session := List.replicate n 0
  session_length := by simpa using short
  ciphers := List.replicate 40 0xff
  compression := [0]
  compression_nonempty := by decide
  compression_short := by decide
  extensions := some [.serverName letter]
  short := by
    have block : (block (some [.serverName letter])).length = 12 := by decide
    rw [block, List.length_replicate, List.length_replicate, List.length_singleton]
    omega

def record (before : Bytes) (hello : ClientHello) : L7Packet where
  payload := before ++ (hello.encode ++ [])
  direction := .forward

theorem inspects_plugged : Inspects (plugged (fun _ => 1) none none) ⟨.flow 0, 0⟩ :=
  ⟨by decide, by decide, fun _ _ => rfl⟩

theorem supplies_plugged (host : Bytes) : Supplies (plugged (fun _ => 1) none none) host :=
  fun _ => by decide

theorem receives_identified (n : Nat) (short : n ≤ 32) :
    Receives (plugged (fun _ => 1) none none) ⟨.flow 0, 0⟩ (identified n short) := by
  have none : hostOf (plugged (fun _ => 1) Option.none Option.none) ⟨.flow 0, 0⟩ = Option.none := rfl
  unfold Receives
  rw [none]
  exact ⟨trivial, fun host _ => supplies_plugged host⟩

/-- The cipher suites are looked for in the middle of them. -/
theorem identified_lost : ∀ n : Fin 31,
    leaves (plugged (fun _ => 1) none none) ⟨.flow 0, 0⟩
      (record [] (identified (n + 1) (by omega))) = some none := by
  decide +kernel

/-- A record of application data. -/
def applicationData : Bytes := [0x17, 3, 1, 0, 1, 0]

theorem second_lost :
    leaves (plugged (fun _ => 1) none none) ⟨.flow 0, 0⟩
      (record applicationData (identified 0 (by omega))) = some none := by
  decide +kernel

theorem not_attaches_lost {n : Nat} {short : n ≤ 32} {p : L7Packet}
    (lost : leaves (plugged (fun _ => 1) none none) ⟨.flow 0, 0⟩ p = some none) :
    ¬Attaches (plugged (fun _ => 1) none none) ⟨.flow 0, 0⟩ p (identified n short) := by
  unfold Attaches
  rw [lost]
  exact fun same => absurd (Option.some.inj same) (by simp [ClientHello.host, identified,
    Extension.hosts])

/-- A hello leaves its host when it is where it is looked for. When its record is the whole payload and
its session id has 0 or 32 octets it has to be there, and so it has for a packet that is not looked at.
No other length of a session id does for every hello, and behind another record a hello can be
lost. -/
theorem always_attaches_host_iff (objects : CacheId → Nat) (ban domains : Option (Bytes → Bool))
    (history : List (Obj × L7Packet)) :
    Transition.Always step (fun s => s.banDomains = none →
        ∀ (a : Obj) (p : L7Packet) (before : Bytes) (hello : ClientHello) (after : Bytes),
        Carries p before hello after →
        (Attachable s a p before hello → Attaches s a p hello) ∧
        (p.beyond = [] → (Inspects s a → before = [] ∧ after = [] ∧ Aligned hello) →
          Attaches s a p hello → Attachable s a p before hello))
      (plugged objects ban domains) history ∧
    (∀ n, 0 < n → n < 32 → ∃ (a : Obj) (p : L7Packet) (hello : ClientHello),
        hello.session.length = n ∧ Carries p [] hello [] ∧ p.beyond = [] ∧
        Inspects (plugged (fun _ => 1) none none) a ∧
        Receives (plugged (fun _ => 1) none none) a hello ∧
        ¬Attaches (plugged (fun _ => 1) none none) a p hello) ∧
    ∃ (a : Obj) (p : L7Packet) (before : Bytes) (hello : ClientHello),
        before ≠ [] ∧ Carries p before hello [] ∧ p.beyond = [] ∧ Aligned hello ∧
        Inspects (plugged (fun _ => 1) none none) a ∧
        Receives (plugged (fun _ => 1) none none) a hello ∧
        ¬Attaches (plugged (fun _ => 1) none none) a p hello := by
  refine ⟨?_, fun n positive short => ?_, ?_⟩
  · have sound : Transition.Always step Sound (plugged objects ban domains) history :=
      Transition.always_of_inv (fun _ _ _ sound stepped => sound_step sound stepped)
        ⟨keyed_start objects none, fun _ => rfl⟩
    apply Transition.always_mono _ sound
    intro s sound free a p before hello after carries
    exact ⟨attaches_of_attachable sound free carries,
      attachable_of_attaches sound free carries⟩
  · refine ⟨⟨.flow 0, 0⟩, record [] (identified n (by omega)), identified n (by omega),
      List.length_replicate, rfl, rfl, inspects_plugged, receives_identified n _, ?_⟩
    have lost := identified_lost ⟨n - 1, by omega⟩
    have same : n - 1 + 1 = n := by omega
    simp only [same] at lost
    exact not_attaches_lost lost
  · exact ⟨⟨.flow 0, 0⟩, record applicationData (identified 0 (by omega)), applicationData,
      identified 0 (by omega), by simp [applicationData], rfl, rfl, .inl rfl, inspects_plugged,
      receives_identified 0 _, not_attaches_lost second_lost⟩

/-- A hello whose server name stands behind the formats of points. -/
def formatsFirst : ClientHello where
  recordVersion := 0x0301
  recordSupported := by decide
  version := 0x0303
  supported := by decide
  random := List.replicate 32 0
  random_length := by simp
  session := []
  session_length := by simp
  ciphers := [0, 0x2f]
  compression := [0]
  compression_nonempty := by decide
  compression_short := by decide
  extensions := some [.other { type := 0x000b, other := by decide, data := [1, 0], short := by decide },
    .serverName letter]
  short := by decide

theorem not_always_attaches_host :
    ¬∀ (objects : CacheId → Nat) (ban domains : Option (Bytes → Bool))
      (history : List (Obj × L7Packet)),
      Transition.Always step (fun s => s.banDomains = none →
          ∀ (a : Obj) (p : L7Packet) (hello : ClientHello), Carries p [] hello [] →
          p.beyond = [] → Inspects s a → hostOf s a = none →
          (∀ host, hello.host = some host → Supplies s host) → Attaches s a p hello)
        (plugged objects ban domains) history := by
  intro all
  have always := all (fun _ => 1) none none []
  have left := Transition.always_start always rfl ⟨.flow 0, 0⟩ (record [] formatsFirst) formatsFirst
    rfl rfl inspects_plugged rfl (fun host _ => supplies_plugged host)
  revert left
  unfold Attaches
  decide +kernel

end SSLProtocol

end AIEngine
