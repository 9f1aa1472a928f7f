import AIEngine.Applications.Attached
import AIEngine.Applications.HttpHomes
import AIEngine.Applications.HttpWorks

/-!
# The uri that is looked up

`HTTPProtocol::processFlow` gives the name of the info's uri to `lookupURI` without a look whether
there is a uri. What the packet makes of the uri and of the matched domain is read off the state
before it.
-/

namespace AIEngine

namespace World

def hostName (w : World) (pointer : Option Obj) : Option Bytes :=
  (w.lockString .http pointer).map fun host => cString (w.names host)

/-- The name of the host that an info without one gets for a value. -/
def hostFor (w : World) (value : Bytes) : Option Bytes :=
  match find (w.maps .http .host) value with
  | some e => some (cString (w.names e.object))
  | none => if 0 < (w.httpStrings .host).total then some (cString value) else none

/-- The string is known, or the pool has one for it. -/
def HasString (w : World) (x : StringField) (value : Bytes) : Prop :=
  (find (w.maps .http x) value).isSome = true ∨ 0 < (w.httpStrings x).total

/-! ### Attaching a string of HTTP -/

/-- What attaching a string to the info leaves alone. -/
structure OtherStrings (x : StringField) (i : Obj) (w w' : World) : Prop where
  alive : ∀ s, w'.StringAlive .http s ↔ w.StringAlive .http s
  pointers : ∀ y, y ≠ x → (w'.infos i).strings y = (w.infos i).strings y
  maps : ∀ y, y ≠ x → w'.maps .http y = w.maps .http y
  totals : ∀ y, y ≠ x → (w'.httpStrings y).total = (w.httpStrings y).total
  names : ∀ s, s.home ≠ .string .http x → w'.names s = w.names s
  disordered : ∀ y, y ≠ x → w'.disordered .http y = w.disordered .http y

variable {w w' : World} {i : Obj} {x : StringField}

theorem intern_others {always countHit : Bool} {value : Bytes} (homed : w.HttpHomed)
    (h : w.intern .http x always countHit i value = .ok w') : OtherStrings x i w w' := by
  have alive := intern_alive h
  rcases intern_cases h with ⟨-, -, rfl⟩ | ⟨e, n, found, -, -, rfl⟩ |
    ⟨t, c, acquired, absent, -, rfl⟩ |
    ⟨c, failed, -, -, rfl⟩
  · exact ⟨alive, fun _ _ => rfl, fun _ _ => rfl, fun _ _ => rfl, fun _ _ => rfl, fun _ _ => rfl⟩
  · refine ⟨alive, fun y other => ?_, fun y other => ?_, fun _ _ => rfl, fun _ _ => rfl,
      fun _ _ => rfl⟩
    · simp [setString, setInfo, setMap, other]
    · simp [setString, setInfo, setMap, other]
  · obtain ⟨-, slot, -⟩ := Cache.acquire_some acquired
    have slot : (w.httpStrings x).Owns t := List.mem_of_getElem? slot
    have unmapped (y : StringField) (other : y ≠ x) : t ∉ (w.maps .http y).map MapEntry.object := by
      refine unmapped_of_ne fun e entry same => ?_
      have home := homed.entries y e entry
      rw [same, homed.slots x t slot] at home
      exact other (by simpa using home.symm)
    refine ⟨alive, fun y other => ?_, fun y other => ?_, fun y other => ?_, fun s away => ?_,
      fun y other => (setName_clean (unmapped y other) value).2⟩
    · simp [setString, setInfo, setMap, setName, other]
    · rw [setMap_other fun both => other both.2]
      exact (setName_clean (unmapped y other) value).1
    · exact congrArg Cache.total (strings_apart w .http c other)
    · have different : s ≠ t := by
        rintro rfl
        exact away (homed.slots x s slot)
      simp [setString, setInfo, setMap, setName, different]
  · refine ⟨alive, fun y other => ?_, fun y other => ?_, fun y other => ?_, fun s away => ?_,
      fun y other => ?_⟩
    · rw [setCache_infos]
    · rw [setCache_maps]
    · exact congrArg Cache.total (strings_apart w .http c other)
    · rw [setCache_names]
    · rw [setCache_disordered]

/-- Attaching one string does not touch whether another one is there. -/
theorem others_lock (others : OtherStrings x i w w') {y : StringField} (other : y ≠ x) :
    w'.lockString .http ((w'.infos i).strings y) = w.lockString .http ((w.infos i).strings y) := by
  rw [others.pointers y other]
  exact lockString_congr others.alive _

theorem others_hostName (own : i.home = .info .http) (homed : w.HttpHomed)
    (others : OtherStrings x i w w') (other : StringField.host ≠ x) :
    w'.hostName ((w'.infos i).strings .host) = w.hostName ((w.infos i).strings .host) := by
  unfold hostName
  rw [others_lock others other]
  cases locked : w.lockString .http ((w.infos i).strings .host) with
  | none => rfl
  | some s =>
    have home := homed.pointers i own .host s (lockString_some locked).1
    have away : s.home ≠ .string .http x := by
      rw [home]
      simp [other]
    simp only [Option.map_some, others.names s away]

theorem others_hostFor (homed : w.HttpHomed) (others : OtherStrings x i w w')
    (other : StringField.host ≠ x) (value : Bytes) : w'.hostFor value = w.hostFor value := by
  unfold hostFor
  rw [others.maps .host other, others.totals .host other]
  cases found : find (w.maps .http .host) value with
  | none => rfl
  | some e =>
    have away : e.object.home ≠ .string .http x := by
      rw [homed.entries .host e (find_some found).1]
      simp [other]
    simp only [others.names e.object away]

theorem setString_same (w : World) (i : Obj) (x : StringField) (s : Option Obj) :
    ((w.setString i x s).infos i).strings x = s := by
  simp [setString, setInfo]

/-- An empty pool says so, and nothing else changes. -/
theorem acquire_empty {c : Cache} (h : (w.httpStrings x).acquire = .ok (none, c)) :
    (w.httpStrings x).total = 0 ∧ ((w.setCache (.string .http x) c).httpStrings x).total = 0 := by
  obtain ⟨empty, rfl⟩ := Cache.acquire_none h
  refine ⟨empty, ?_⟩
  rw [httpStrings, cache_setCache_same]
  exact empty

/-- The uri is attached if there is a string for it; a pointer that stays is what it was. -/
theorem uri_attached {value : Bytes} (homed : w.HttpHomed)
    (h : Http.attachUri w i value = .ok w') :
    w'.lockString .http ((w'.infos i).strings .uri) = none ↔
      w.lockString .http ((w.infos i).strings .uri) = none ∧ ¬w.HasString .uri value := by
  have alive := (intern_others homed h).alive
  have there : ∀ s, w.StringAlive .http s → (w'.infos i).strings .uri = some s →
      w'.lockString .http ((w'.infos i).strings .uri) ≠ none := by
    intro s living pointer
    rw [pointer, lockString_of_alive ((alive s).mpr living)]
    exact Option.some_ne_none s
  rw [lockString_congr alive] at there ⊢
  unfold HasString
  rcases intern_cases h with ⟨never, -, -⟩ | ⟨e, n, found, -, -, rfl⟩ |
    ⟨s, c, acquired, absent, -, rfl⟩ | ⟨c, failed, absent, -, rfl⟩
  · cases never
  · have pointer := setString_same (w.setMap .http .uri (addHits (w.maps .http .uri) value n)) i .uri
      (some e.object)
    refine iff_of_false (there e.object (stringAlive_of_find found) pointer) fun both => ?_
    exact both.2 (Or.inl (by rw [found]; rfl))
  · have room := (Cache.acquire_some acquired).1
    have pointer := setString_same ((w.setCache (.string .http .uri) c).setName s value) i .uri
      (some s)
    refine iff_of_false (there s (stringAlive_of_acquire acquired) pointer) fun both => ?_
    exact both.2 (Or.inr room)
  · obtain ⟨empty, -⟩ := acquire_empty failed
    rw [setCache_infos]
    have missing : ¬((find (w.maps .http .uri) value).isSome = true ∨
        0 < (w.httpStrings .uri).total) := by
      rw [absent, empty]
      simp
    exact (and_iff_left missing).symm

/-- The host stays when there is one. As long as there is none, the next value meets the same map and
the same pool. -/
theorem host_attached {value : Bytes} (homed : w.HttpHomed)
    (h : Http.attachHost w i value = .ok w') :
    w'.hostName ((w'.infos i).strings .host) =
        (w.hostName ((w.infos i).strings .host)).or (w.hostFor value) ∧
      (w'.hostName ((w'.infos i).strings .host) = none → ∀ v, w'.hostFor v = w.hostFor v) := by
  have alive := (intern_others homed h).alive
  have named : ∀ s, w.StringAlive .http s → (w'.infos i).strings .host = some s →
      w'.hostName ((w'.infos i).strings .host) = some (cString (w'.names s)) := by
    intro s living pointer
    unfold hostName
    rw [pointer, lockString_of_alive ((alive s).mpr living)]
    rfl
  have expired : (false = true ∨ w.lockString .http ((w.infos i).strings .host) = none) →
      w.hostName ((w.infos i).strings .host) = none := by
    intro missing
    unfold hostName
    rw [missing.resolve_left Bool.false_ne_true]
    rfl
  rcases intern_cases h with ⟨-, attached, rfl⟩ | ⟨e, n, found, -, missing, rfl⟩ |
    ⟨s, c, acquired, absent, missing, rfl⟩ | ⟨c, failed, absent, missing, rfl⟩
  · obtain ⟨s, locked⟩ := Option.isSome_iff_exists.mp attached
    have host : w'.hostName ((w'.infos i).strings .host) = some (cString (w'.names s)) := by
      unfold hostName
      rw [locked]
      rfl
    rw [host]
    exact ⟨rfl, fun none => absurd none (by simp)⟩
  · rw [expired missing, Option.none_or]
    unfold hostFor
    have pointer := setString_same (w.setMap .http .host (addHits (w.maps .http .host) value n)) i
      .host (some e.object)
    rw [named e.object (stringAlive_of_find found) pointer, found]
    exact ⟨rfl, fun none => absurd none (by simp)⟩
  · rw [expired missing, Option.none_or]
    unfold hostFor
    have room : 0 < (w.httpStrings .host).total := (Cache.acquire_some acquired).1
    have pointer := setString_same ((w.setCache (.string .http .host) c).setName s value) i .host
      (some s)
    rw [named s (stringAlive_of_acquire acquired) pointer, absent]
    refine ⟨?_, fun none => absurd none (by simp)⟩
    simp only [if_pos room]
    simp [setMap, setString, setInfo, setName]
  · have unnamed := expired missing
    rw [unnamed, Option.none_or]
    unfold hostFor
    obtain ⟨empty, empty'⟩ := acquire_empty failed
    rw [setCache_infos]
    refine ⟨?_, fun _ v => ?_⟩
    · rw [absent, empty]
      unfold hostName at unnamed ⊢
      rw [lockString_congr alive, setCache_names]
      exact unnamed
    · rw [setCache_maps, setCache_names, empty, empty']

end World

namespace HTTPProtocol

open World HTTPHeader

/-! ### What the state before the packet says -/

/-- The info that the packet is processed with. A new one is empty. -/
def infoState (s : HTTPProtocol) (a : Obj) : Option (Info × HTTPInfo) :=
  match s.world.lockInfo .http (s.world.flows a) with
  | some i => some (s.world.infos i, s.infos i)
  | none =>
    match (s.world.cache (.info .http)).acquire with
    | .ok (some _, _) => some ({}, {})
    | _ => none

def isResponse (p : HttpPacket) : Bool := p.startsWith (Octets.ascii "HTTP/1")

/-- What stands between the method and the version. -/
def requestUri (p : HttpPacket) : Bytes :=
  match methods.find? p.startsWith, Octets.find (Octets.ascii "HTTP/1.") p.payload with
  | some method, some (k + 1) =>
    let offset := method.length + 1
    match substr p.payload offset ((k : Int) + 1 - offset - 1) with
    | .ok uri => uri
    | .error _ => []
  | _, _ => []

instance (ban : Option (Bytes → Bool)) (l : Line) : Decidable (BannedHost ban l) :=
  inferInstanceAs (Decidable (_ ∧ _))

/-- A line of the packet bans the flow. -/
def Bans (s : HTTPProtocol) (p : HttpPacket) : Prop :=
  ∃ l ∈ headerLines p, BannedHost s.banDomains l

instance (s : HTTPProtocol) (p : HttpPacket) : Decidable (s.Bans p) :=
  inferInstanceAs (Decidable (∃ l ∈ headerLines p, _))

def hostLine (w : World) (l : Line) : Option Bytes :=
  if l.2.1 = .host then w.hostFor l.2.2 else none

/-- The name of the host after the packet: an attached one stays, a ban takes it away. -/
def hostAfter (s : HTTPProtocol) (info : Info) (p : HttpPacket) : Option Bytes :=
  if s.Bans p then none
  else (s.world.hostName (info.strings .host)).or ((headerLines p).findSome? (hostLine s.world))

def requestsAfter (http : HTTPInfo) (p : HttpPacket) : Int :=
  if isResponse p then http.totalRequests else int16 (http.totalRequests + 1)

/-- The domain that the host has matched, with this packet or before. -/
def domainAfter (s : HTTPProtocol) (info : Info) (http : HTTPInfo) (p : HttpPacket) : Option Nat :=
  if requestsAfter http p = 1 then
    match s.domains, s.hostAfter info p with
    | some getDomainName, some host => (getDomainName host).or http.matchedHost
    | _, _ => http.matchedHost
  else http.matchedHost

/-- There is no uri after the packet: the ban has taken it away, or there was none, and a request
brings one that is not known while the pool has no string left. -/
def UriMissing (s : HTTPProtocol) (info : Info) (p : HttpPacket) : Prop :=
  s.Bans p ∨ (s.world.lockString .http (info.strings .uri) = none ∧
    (isResponse p = false → ¬s.world.HasString .uri (requestUri p)))

/-- The domain of the flow has a set of uris that the packet is looked up in. -/
def LooksUp (s : HTTPProtocol) (info : Info) (http : HTTPInfo) (p : HttpPacket) : Prop :=
  ∃ d, (s.domainAfter info http p).bind s.domainName = some d ∧ d.uriSet.isSome = true

/-- A forward packet that is parsed as a request or a response, to its end, and is looked up in a set
of uris without a uri. -/
def LooksUpNothing (s : HTTPProtocol) (a : Obj) (p : HttpPacket) : Prop :=
  ∃ info http, s.infoState a = some (info, http) ∧ info.isBanned = false ∧
    http.direction ≠ p.direction ∧ p.direction = .forward ∧ 0 < headerStart p ∧
    ¬Overflowing s.banDomains (headerLines p) ∧ s.UriMissing info p ∧ s.LooksUp info http p

/-! ### The lines -/

variable {s t u : HTTPProtocol} {a i : Obj} {p : HttpPacket}

/-- The managers, and what the header lines leave alone of the info. -/
structure Carries (i : Obj) (s t : HTTPProtocol) : Prop where
  ban : t.banDomains = s.banDomains
  domains : t.domains = s.domains
  domainName : t.domainName = s.domainName
  matched : (t.infos i).matchedHost = (s.infos i).matchedHost
  requests : (t.infos i).totalRequests = (s.infos i).totalRequests

theorem carries_refl (i : Obj) (s : HTTPProtocol) : Carries i s s := ⟨rfl, rfl, rfl, rfl, rfl⟩

theorem carries_trans (first : Carries i s t) (second : Carries i t u) : Carries i s u :=
  ⟨second.ban.trans first.ban, second.domains.trans first.domains,
    second.domainName.trans first.domainName, second.matched.trans first.matched,
    second.requests.trans first.requests⟩

/-- The strings of the info that a later look-up needs, after some lines. -/
structure Traced (i : Obj) (ls : List Line) (s t : HTTPProtocol) : Prop where
  homed : t.world.HttpHomed
  uri : t.world.lockString .http ((t.world.infos i).strings .uri) =
    s.world.lockString .http ((s.world.infos i).strings .uri)
  host : t.world.hostName ((t.world.infos i).strings .host) =
    (s.world.hostName ((s.world.infos i).strings .host)).or (ls.findSome? (hostLine s.world))

/-- A line that is not that of a host. -/
theorem traced_other {w : World} {l : Line} {x : StringField} {always countHit : Bool} {value : Bytes}
    (own : i.home = .info .http) (homed : s.world.HttpHomed) (field : l.2.1 ≠ .host)
    (apart : StringField.host ≠ x ∧ StringField.uri ≠ x)
    (attached : s.world.intern .http x always countHit i value = .ok w) (world : t.world = w) :
    Traced i [l] s t ∧ ∀ v, t.world.hostFor v = s.world.hostFor v := by
  have others := intern_others homed attached
  have unnamed : [l].findSome? (hostLine s.world) = none := by
    simp [hostLine, field]
  rw [world]
  refine ⟨⟨world ▸ httpHomed_intern homed attached, ?_, ?_⟩, ?_⟩
  · rw [world]
    exact others_lock others apart.2
  · rw [world, unnamed, Option.or_none]
    exact others_hostName own homed others apart.1
  · exact others_hostFor homed others apart.1

/-- What a handler that goes on has done. -/
theorem processParameter_traced {q : HttpParameter} {v : Bytes} {n : Nat}
    (own : i.home = .info .http) (homed : s.world.HttpHomed)
    (h : processParameter i s q v = .ok (true, t)) :
    Traced i [(n, q, v)] s t ∧
      (t.world.hostName ((t.world.infos i).strings .host) = none →
        ∀ v, t.world.hostFor v = s.world.hostFor v) ∧ Carries i s t := by
  -- Content-Length leaves the world alone, and with it all strings
  have idle : ∀ u : HTTPProtocol, u.world = s.world →
      Traced i [(n, .contentLength, v)] s u ∧
        (u.world.hostName ((u.world.infos i).strings .host) = none →
          ∀ v, u.world.hostFor v = s.world.hostFor v) := by
    intro u world
    have line : [((n, .contentLength, v) : Line)].findSome? (hostLine s.world) = none := by
      simp [hostLine]
    refine ⟨⟨world ▸ homed, by rw [world], ?_⟩, fun _ _ => by rw [world]⟩
    rw [world, line, Option.or_none]
  cases processParameter_ran h with
  | host w allowed ran =>
    obtain ⟨host, same⟩ := host_attached homed ran
    have uri := others_lock (intern_others homed ran) (by decide : StringField.uri ≠ .host)
    refine ⟨⟨httpHomed_intern homed ran, uri, ?_⟩, same, rfl, rfl, rfl, rfl, rfl⟩
    have line : [((n, .host, v) : Line)].findSome? (hostLine s.world) = s.world.hostFor v := by
      simp [hostLine]
    rw [line]
    exact host
  | userAgent w ran =>
    obtain ⟨traced, same⟩ := traced_other (t := { s with world := w })
      (l := (n, .userAgent, v)) own homed (by simp) (by decide) ran rfl
    exact ⟨traced, fun _ => same, rfl, rfl, rfl, rfl, rfl⟩
  | contentLength length read =>
    obtain ⟨traced, same⟩ := idle (s.setInfo i _) rfl
    refine ⟨traced, same, rfl, rfl, rfl, ?_, ?_⟩
    · rw [setInfo_same]
    · rw [setInfo_same]
  | noLength read =>
    obtain ⟨traced, same⟩ := idle s rfl
    exact ⟨traced, same, carries_refl i s⟩

/-- A handler that has found a banned host has changed a counter only. -/
theorem processParameter_banned {q : HttpParameter} {v : Bytes}
    (h : processParameter i s q v = .ok (false, t)) : Carries i s t := by
  cases processParameter_ran h with
  | banned found => exact ⟨rfl, rfl, rfl, rfl, rfl⟩

theorem traced_cons {l : Line} {rest : List Line} (first : Traced i [l] s u)
    (same : u.world.hostName ((u.world.infos i).strings .host) = none →
      ∀ v, u.world.hostFor v = s.world.hostFor v)
    (second : Traced i rest u t) : Traced i (l :: rest) s t := by
  refine ⟨second.homed, second.uri.trans first.uri, ?_⟩
  have split : (l :: rest).findSome? (hostLine s.world) =
      ([l].findSome? (hostLine s.world)).or (rest.findSome? (hostLine s.world)) := by
    cases line : hostLine s.world l with
    | none => simp [line]
    | some host => simp [line]
  rw [split, ← Option.or_assoc, ← first.host, second.host]
  cases host : u.world.hostName ((u.world.infos i).strings .host) with
  | some name => rfl
  | none =>
    have lines : hostLine u.world = hostLine s.world := by
      funext m
      unfold hostLine
      rw [same host]
    rw [lines]

/-- The lines of a packet without a banned host. -/
theorem runLines_traced {ls : List Line} (own : i.home = .info .http) (homed : s.world.HttpHomed)
    (h : runLines (processParameter i) s ls = .ok (t, none)) : Traced i ls s t ∧ Carries i s t := by
  induction ls generalizing s with
  | nil =>
    obtain ⟨rfl, -⟩ := Prod.mk.inj (Except.ok.inj h)
    exact ⟨⟨homed, rfl, by simp⟩, carries_refl i s⟩
  | cons l rest ih =>
    obtain ⟨k, q, v⟩ := l
    rcases runLines_cons h with ⟨-, no⟩ | ⟨u, called, later⟩
    · exact absurd no (by simp)
    · obtain ⟨first, same, carried⟩ := processParameter_traced (n := k) own homed called
      obtain ⟨second, carried'⟩ := ih first.homed later
      exact ⟨traced_cons first same second, carries_trans carried carried'⟩

theorem runLines_carries {ls : List Line} {r : Option Nat} (own : i.home = .info .http)
    (homed : s.world.HttpHomed) (h : runLines (processParameter i) s ls = .ok (t, r)) :
    Carries i s t := by
  induction ls generalizing s with
  | nil =>
    obtain ⟨rfl, -⟩ := Prod.mk.inj (Except.ok.inj h)
    exact carries_refl i s
  | cons l rest ih =>
    obtain ⟨k, q, v⟩ := l
    rcases runLines_cons h with ⟨stopped, -⟩ | ⟨u, called, later⟩
    · exact processParameter_banned stopped
    · obtain ⟨first, -, carried⟩ := processParameter_traced (n := k) own homed called
      exact carries_trans carried (ih first.homed later)

/-- The lines end at a ban exactly when one of them has a banned host. -/
theorem runLines_bans_iff (ls : List Line) (stocked : s.world.Stocked)
    (fine : ¬Overflowing s.banDomains ls) :
    ∃ t r, runLines (processParameter i) s ls = .ok (t, r) ∧
      (r.isSome = true ↔ ∃ l ∈ ls, BannedHost s.banDomains l) := by
  induction ls generalizing s with
  | nil => exact ⟨s, none, rfl, by simp⟩
  | cons l rest ih =>
    rw [overflowing_cons] at fine
    rcases processParameter_cases (i := i) l stocked with ⟨overflows, -⟩ | ⟨banned, t, stopped⟩ |
      ⟨-, allowed, t, called, after, same⟩
    · exact absurd (Or.inl overflows) fine
    · refine ⟨t, some l.1, by simp only [runLines, stopped], ?_⟩
      exact iff_of_true rfl ⟨l, List.mem_cons_self, banned⟩
    · have later : ¬Overflowing t.banDomains rest := by
        rw [same]
        exact fun overflowing => fine (Or.inr ⟨allowed, overflowing⟩)
      obtain ⟨t', r, ran, stops⟩ := ih after later
      refine ⟨t', r, by simp only [runLines, called, ran], ?_⟩
      rw [stops, same]
      constructor
      · rintro ⟨m, member, banned⟩
        exact ⟨m, List.mem_cons_of_mem _ member, banned⟩
      · rintro ⟨m, member, banned⟩
        rcases List.mem_cons.mp member with rfl | later
        · exact absurd banned allowed
        · exact ⟨m, later, banned⟩

/-! ### The header -/

/-- A ban resets all pointers of the info. -/
theorem ban_resets (w : World) (i : Obj) (x : StringField) :
    ((World.Http.releaseHttpInfoCache w i).infos i).strings x = none := by
  obtain ⟨-, infos, -⟩ := releaseHttpInfo_spec ((w.dropHit .http .ua i).dropHit .http .uri i) i
  refine (congrArg (fun infos => (infos i).strings x) infos).trans ?_
  simp [World.setInfo]

theorem parseHeader_traced {header : Bytes} (own : i.home = .info .http)
    (stocked : s.world.Stocked) (homed : s.world.HttpHomed)
    (fine : ¬Overflowing s.banDomains (lines header {} header)) :
    ∃ t, s.parseHeader i header = .ok t ∧ Carries i s t ∧
      ((∃ l ∈ lines header {} header, BannedHost s.banDomains l) →
        t.world.lockString .http ((t.world.infos i).strings .uri) = none ∧
        t.world.hostName ((t.world.infos i).strings .host) = none) ∧
      ((¬∃ l ∈ lines header {} header, BannedHost s.banDomains l) →
        Traced i (lines header {} header) s t) := by
  obtain ⟨u, r, ran, stops⟩ := runLines_bans_iff (i := i) (lines header {} header) stocked fine
  have carried := runLines_carries own homed ran
  unfold parseHeader
  rw [HTTPHeader.parseHeader_eq, ran]
  cases r with
  | none =>
    have kept : ¬∃ l ∈ lines header {} header, BannedHost s.banDomains l :=
      fun bans => absurd (stops.mpr bans) (by simp)
    obtain ⟨⟨homed', uri, host⟩, -⟩ := runLines_traced own homed ran
    exact ⟨_, rfl, ⟨carried.ban, carried.domains, carried.domainName, carried.matched,
      carried.requests⟩, fun bans => absurd bans kept, fun _ => ⟨homed', uri, host⟩⟩
  | some k =>
    have bans := stops.mp rfl
    refine ⟨_, rfl, ⟨carried.ban, carried.domains, carried.domainName, carried.matched,
      carried.requests⟩, fun _ => ⟨?_, ?_⟩, fun kept => absurd bans kept⟩
    · have reset := ban_resets (u.world.setBanned i) i .uri
      exact (congrArg (World.lockString _ .http) reset).trans rfl
    · have reset := ban_resets (u.world.setBanned i) i .host
      exact (congrArg (World.hostName _) reset).trans rfl

/-! ### The first line -/

/-- What the first line has done to the info. -/
structure FirstLine (i : Obj) (p : HttpPacket) (s t : HTTPProtocol) : Prop where
  stocked : t.world.Stocked
  homed : t.world.HttpHomed
  ban : t.banDomains = s.banDomains
  domains : t.domains = s.domains
  domainName : t.domainName = s.domainName
  matched : (t.infos i).matchedHost = (s.infos i).matchedHost
  requests : (t.infos i).totalRequests = requestsAfter (s.infos i) p
  uri : t.world.lockString .http ((t.world.infos i).strings .uri) = none ↔
    s.world.lockString .http ((s.world.infos i).strings .uri) = none ∧
      (isResponse p = false → ¬s.world.HasString .uri (requestUri p))
  host : t.world.hostName ((t.world.infos i).strings .host) =
    s.world.hostName ((s.world.infos i).strings .host)
  line : hostLine t.world = hostLine s.world

theorem noteResponseCode_infos (s : HTTPProtocol) (i : Obj) (code : Int) :
    ((s.noteResponseCode i code).infos i).matchedHost = (s.infos i).matchedHost ∧
      ((s.noteResponseCode i code).infos i).totalRequests = (s.infos i).totalRequests := by
  unfold noteResponseCode
  split
  · rw [setInfo_same]
    exact ⟨rfl, rfl⟩
  · exact ⟨rfl, rfl⟩

theorem noteResponseCode_managers (s : HTTPProtocol) (i : Obj) (code : Int) :
    (s.noteResponseCode i code).domains = s.domains ∧
      (s.noteResponseCode i code).domainName = s.domainName := by
  unfold noteResponseCode
  split <;> exact ⟨rfl, rfl⟩

theorem response_firstLine (response : isResponse p = true) (code : Int) (stocked : s.world.Stocked)
    (homed : s.world.HttpHomed) :
    FirstLine i p s ((s.incTotalResponses i).noteResponseCode i code) := by
  have world := noteResponseCode_world (s.incTotalResponses i) i code
  have managers := noteResponseCode_managers (s.incTotalResponses i) i code
  have infos := noteResponseCode_infos (s.incTotalResponses i) i code
  have same : ((s.incTotalResponses i).infos i).matchedHost = (s.infos i).matchedHost ∧
      ((s.incTotalResponses i).infos i).totalRequests = (s.infos i).totalRequests := by
    unfold incTotalResponses
    rw [setInfo_same]
    exact ⟨rfl, rfl⟩
  have still : (s.incTotalResponses i).world = s.world := rfl
  rw [still] at world
  refine ⟨world ▸ stocked, world ▸ homed, noteResponseCode_banDomains _ i code, managers.1,
    managers.2, infos.1.trans same.1, ?_, ?_, by rw [world], by rw [world]⟩
  · unfold requestsAfter
    rw [if_pos response]
    exact infos.2.trans same.2
  · rw [world]
    exact ⟨fun expired => ⟨expired, fun request => absurd (response.symm.trans request) (by simp)⟩,
      fun both => both.1⟩

theorem request_firstLine {w : World} (own : i.home = .info .http) (request : isResponse p = false)
    (stocked : s.world.Stocked) (homed : s.world.HttpHomed)
    (attached : World.Http.attachUri s.world i (requestUri p) = .ok w) :
    FirstLine i p s { s.incTotalRequests i with world := w } := by
  have others := intern_others homed attached
  refine ⟨World.stocked_intern stocked attached, httpHomed_intern homed attached, rfl, rfl, rfl, ?_,
    ?_, ?_, others_hostName own homed others (by decide), ?_⟩
  · show ((s.incTotalRequests i).infos i).matchedHost = _
    unfold incTotalRequests
    rw [setInfo_same]
  · show ((s.incTotalRequests i).infos i).totalRequests = _
    unfold incTotalRequests requestsAfter
    rw [setInfo_same, request]
    rfl
  · refine (uri_attached homed attached).trans ?_
    exact and_congr_right fun _ => ⟨fun absent _ => absent, fun absent => absent request⟩
  · funext l
    unfold hostLine
    rw [others_hostFor homed others (by decide)]

/-- A first line that is complete. -/
theorem extractUri_firstLine {offset : Nat} (own : i.home = .info .http)
    (stocked : s.world.Stocked) (homed : s.world.HttpHomed)
    (h : s.extractUri i p = .ok (offset, t)) (positive : 0 < offset) : FirstLine i p s t := by
  rcases extractUri_ran h with ⟨response, rfl⟩ | ⟨-, rfl, -⟩ |
    ⟨request, method, k, uri, w, found, version, cut, ran, rfl⟩
  · exact response_firstLine response _ stocked homed
  · exact absurd positive (Nat.lt_irrefl 0)
  · have same : requestUri p = uri := by
      unfold requestUri
      simp only [found, version, cut]
    rw [← same] at ran
    exact request_firstLine own request stocked homed ran

/-! ### The packet -/

/-- What a packet that has been parsed leaves for the look-up. -/
structure Parsed (i : Obj) (p : HttpPacket) (s t : HTTPProtocol) : Prop where
  domains : t.domains = s.domains
  domainName : t.domainName = s.domainName
  matched : (t.infos i).matchedHost = (s.infos i).matchedHost
  requests : (t.infos i).totalRequests = requestsAfter (s.infos i) p
  uri : t.world.lockString .http ((t.world.infos i).strings .uri) = none ↔
    s.UriMissing (s.world.infos i) p
  host : t.world.hostName ((t.world.infos i).strings .host) = s.hostAfter (s.world.infos i) p

/-- A first line alone. -/
theorem parsed_firstLine (first : FirstLine i p s t) (none : headerLines p = []) : Parsed i p s t := by
  have kept : ¬s.Bans p := by
    rintro ⟨l, member, -⟩
    rw [none] at member
    exact absurd member (by simp)
  refine ⟨first.domains, first.domainName, first.matched, first.requests, ?_, ?_⟩
  · unfold UriMissing
    rw [first.uri]
    exact ⟨Or.inr, fun missing => missing.resolve_left kept⟩
  · unfold hostAfter
    rw [if_neg kept, first.host, none]
    simp

theorem parsed_lines (first : FirstLine i p s u) (carried : Carries i u t)
    (bans : s.Bans p → t.world.lockString .http ((t.world.infos i).strings .uri) = none ∧
      t.world.hostName ((t.world.infos i).strings .host) = none)
    (traced : ¬s.Bans p → Traced i (headerLines p) u t) : Parsed i p s t := by
  refine ⟨carried.domains.trans first.domains, carried.domainName.trans first.domainName,
    carried.matched.trans first.matched, carried.requests.trans first.requests, ?_, ?_⟩
  · unfold UriMissing
    by_cases banned : s.Bans p
    · exact iff_of_true (bans banned).1 (Or.inl banned)
    · rw [(traced banned).uri, first.uri]
      exact ⟨Or.inr, fun missing => missing.resolve_left banned⟩
  · unfold hostAfter
    by_cases banned : s.Bans p
    · rw [if_pos banned]
      exact (bans banned).2
    · rw [if_neg banned, (traced banned).host, first.host, first.line]

theorem processRequestsAndResponses_parsed (own : i.home = .info .http)
    (stocked : s.world.Stocked) (homed : s.world.HttpHomed)
    (fine : ¬Overflowing s.banDomains (headerLines p)) :
    ∃ t, s.processRequestsAndResponses i p = .ok (headerStart p, t) ∧
      (0 < headerStart p → Parsed i p s t) := by
  obtain ⟨u, extracted, after, same⟩ := extractUri_returns (i := i) (p := p) stocked
  unfold processRequestsAndResponses
  rw [extracted]
  simp only
  by_cases positive : 0 < headerStart p
  · have first := extractUri_firstLine own stocked homed extracted positive
    rw [if_pos positive]
    by_cases long : headerStart p + 4 < p.payload.length
    · have found : headerLines p =
          lines (p.payload.drop (headerStart p)) {} (p.payload.drop (headerStart p)) :=
        headerLines_long positive long
      rw [if_pos (by omega), HTTPHeader.substr_rest (by omega)]
      rw [found, ← same] at fine
      obtain ⟨t, parsed, carried, bans, traced⟩ := parseHeader_traced
        (s := { u with httpHeaderSize := int16 (headerStart p) }) own after first.homed fine
      simp only [parsed]
      refine ⟨t, rfl, fun _ => parsed_lines first ?_ ?_ ?_⟩
      · exact ⟨carried.ban, carried.domains, carried.domainName, carried.matched, carried.requests⟩
      · intro banned
        unfold Bans at banned
        rw [found, ← same] at banned
        exact bans banned
      · intro kept
        unfold Bans at kept
        rw [found, ← same] at kept
        obtain ⟨homed', uri, host⟩ := traced kept
        rw [found]
        exact ⟨homed', uri, host⟩
    · have short : headerLines p = [] := headerLines_short (by omega)
      rw [if_neg (by omega)]
      refine ⟨_, rfl, fun _ => parsed_firstLine ?_ short⟩
      obtain ⟨stocked', homed', ban, domains, domainName, matched, requests, uri, host, line⟩ := first
      exact ⟨stocked', homed', ban, domains, domainName, matched, requests, uri, host, line⟩
  · rw [if_neg positive]
    have zero : headerStart p = 0 := by omega
    rw [zero]
    exact ⟨_, rfl, fun more => absurd more (Nat.lt_irrefl 0)⟩

/-! ### The look-up -/

theorem matchDomain_matched (t : HTTPProtocol) (i : Obj) :
    ((t.matchDomain i).infos i).matchedHost =
      if (t.infos i).totalRequests = 1 then
        match t.domains, t.world.hostName ((t.world.infos i).strings .host) with
        | some getDomainName, some host => (getDomainName host).or (t.infos i).matchedHost
        | _, _ => (t.infos i).matchedHost
      else (t.infos i).matchedHost := by
  unfold matchDomain World.hostName
  split
  · cases t.domains with
    | none => rfl
    | some getDomainName =>
      cases t.world.lockString .http ((t.world.infos i).strings .host) with
      | none => rfl
      | some host =>
        simp only [Option.map_some]
        cases getDomainName (cString (t.world.names host)) with
        | none => rfl
        | some d =>
          simp only [setInfo_same]
          rfl
  · rfl

theorem matchDomain_domainName (t : HTTPProtocol) (i : Obj) :
    (t.matchDomain i).domainName = t.domainName := by
  unfold matchDomain
  split
  · split
    · split <;> rfl
    · rfl
  · rfl

theorem lookupUri_null {offset : Nat} :
    t.lookupUri i offset = .error (.fault .nullDereference) ↔
      0 < offset ∧ t.world.lockString .http ((t.world.infos i).strings .uri) = none ∧
        ∃ d, (t.infos i).matchedHost.bind t.domainName = some d ∧ d.uriSet.isSome = true := by
  unfold lookupUri
  cases domain : (t.infos i).matchedHost.bind t.domainName with
  | none => simp
  | some d =>
    simp only
    by_cases looks : 0 < offset ∧ d.uriSet.isSome = true
    · rw [if_pos looks]
      cases locked : t.world.lockString .http ((t.world.infos i).strings .uri) with
      | none => exact iff_of_true rfl ⟨looks.1, rfl, d, rfl, looks.2⟩
      | some uri => simp
    · rw [if_neg looks]
      refine iff_of_false (by simp) ?_
      rintro ⟨positive, -, d', same, set⟩
      obtain rfl := Option.some.inj same
      exact looks ⟨positive, set⟩

/-- The look-up after a parsed packet fails on what the state before it says. -/
theorem lookupDomain_null (parsed : Parsed i p s t) :
    t.lookupDomain i .forward (headerStart p) = .error (.fault .nullDereference) ↔
      0 < headerStart p ∧ s.UriMissing (s.world.infos i) p ∧
        s.LooksUp (s.world.infos i) (s.infos i) p := by
  have domain : ((t.matchDomain i).infos i).matchedHost =
      s.domainAfter (s.world.infos i) (s.infos i) p := by
    rw [matchDomain_matched, parsed.requests, parsed.domains, parsed.host, parsed.matched]
    rfl
  unfold lookupDomain LooksUp
  rw [if_pos rfl, lookupUri_null, domain, matchDomain_domainName, parsed.domainName,
    matchDomain_world, parsed.uri]

/-! ### `processFlow` -/

theorem attachInfo_strings {w w' : World} {r : Option Obj} (h : w.attachInfo .http a = .ok (r, w')) :
    (∀ x, w'.httpStrings x = w.httpStrings x) ∧ w'.maps = w.maps ∧ w'.names = w.names := by
  rcases World.attachInfo_cases h with ⟨j, -, -, rfl⟩ | ⟨j, c, -, -, -, rfl⟩ | ⟨c, -, -, rfl⟩
  · exact ⟨fun _ => rfl, rfl, rfl⟩
  · refine ⟨fun x => ?_, World.setCache_maps .., World.setCache_names ..⟩
    exact World.cache_setCache_other (w := w) (c := c) (by simp : CacheId.string .http x ≠ .info .http)
  · refine ⟨fun x => ?_, World.setCache_maps .., World.setCache_names ..⟩
    exact World.cache_setCache_other (by simp)

/-- What the conditions read is the same when the flow has got its info. -/
theorem conditions_congr (strings : ∀ x, t.world.httpStrings x = s.world.httpStrings x)
    (maps : t.world.maps = s.world.maps) (names : t.world.names = s.world.names)
    (ban : t.banDomains = s.banDomains) (domains : t.domains = s.domains)
    (domainName : t.domainName = s.domainName) (info : Info) (http : HTTPInfo) (p : HttpPacket) :
    (t.UriMissing info p ↔ s.UriMissing info p) ∧ (t.LooksUp info http p ↔ s.LooksUp info http p) := by
  have lock : ∀ pointer, t.world.lockString .http pointer = s.world.lockString .http pointer :=
    World.lockString_congr fun string => World.stringAlive_congr fun y => by
      rw [show t.world.cache (.string .http y) = _ from strings y, maps]
      exact Iff.rfl
  have bans : t.Bans p ↔ s.Bans p := by
    unfold Bans
    rw [ban]
  have line : hostLine t.world = hostLine s.world := by
    funext l
    unfold hostLine World.hostFor
    rw [maps, strings, names]
  have host : t.hostAfter info p = s.hostAfter info p := by
    unfold hostAfter World.hostName
    rw [lock, names, line]
    by_cases banned : s.Bans p
    · rw [if_pos banned, if_pos (bans.mpr banned)]
    · rw [if_neg banned, if_neg fun also => banned (bans.mp also)]
  constructor
  · unfold UriMissing World.HasString
    rw [bans, lock, maps, strings]
  · unfold LooksUp domainAfter
    rw [host, domains, domainName]

theorem attachInfo_state {r : Option Obj} (h : s.attachInfo a = .ok (r, t)) :
    s.infoState a = r.map (fun i => (t.world.infos i, t.infos i)) ∧ t.domains = s.domains ∧
      t.domainName = s.domainName := by
  obtain ⟨-, infos, shape, -⟩ := attachInfo_keeps h
  refine ⟨?_, by rw [shape], by rw [shape]⟩
  unfold infoState
  rcases attachInfo_gets h with ⟨i, rfl, locked, world, info⟩ |
    ⟨i, c, rfl, expired, acquired, world, info⟩ | ⟨c, rfl, expired, failed⟩
  · rw [locked, Option.map_some, world, info]
  · rw [expired, acquired, Option.map_some, world, info]
  · rw [expired, failed, Option.map_none]

theorem attachInfo_returns (filled : s.world.Filled) :
    ∃ r t, s.attachInfo a = .ok (r, t) := by
  obtain ⟨r, w, attached⟩ := World.attachInfo_filled (p := .http) (a := a) filled
  unfold attachInfo
  rw [attached]
  cases r with
  | none => exact ⟨_, _, rfl⟩
  | some i =>
    simp only
    split
    · exact ⟨_, _, rfl⟩
    · exact ⟨_, _, rfl⟩

/-- A packet that is parsed. -/
theorem parsed_null (own : i.home = .info .http) (stocked : s.world.Stocked)
    (homed : s.world.HttpHomed) {r : Except Failure HTTPProtocol}
    (failed : ∀ e, s.processRequestsAndResponses i p = .error e → r = .error e)
    (looked : ∀ offset t, s.processRequestsAndResponses i p = .ok (offset, t) →
      (r = .error (.fault .nullDereference) ↔
        t.lookupDomain i p.direction offset = .error (.fault .nullDereference))) :
    r = .error (.fault .nullDereference) ↔
      p.direction = .forward ∧ 0 < headerStart p ∧ ¬Overflowing s.banDomains (headerLines p) ∧
        s.UriMissing (s.world.infos i) p ∧ s.LooksUp (s.world.infos i) (s.infos i) p := by
  rcases processRequestsAndResponses_cases (i := i) (p := p) stocked with ⟨overflowing, threw⟩ |
    ⟨fine, -⟩
  · rw [failed _ threw]
    exact iff_of_false (by simp) fun all => all.2.2.1 overflowing
  · obtain ⟨t, processed, parsed⟩ := processRequestsAndResponses_parsed own stocked homed fine
    rw [looked _ _ processed]
    by_cases forward : p.direction = .forward
    · rw [forward]
      by_cases positive : 0 < headerStart p
      · rw [lookupDomain_null (parsed positive)]
        simp only [positive, true_and, fine, not_false_eq_true]
      · refine iff_of_false ?_ fun all => positive all.2.1
        unfold lookupDomain
        rw [if_pos rfl, lookupUri_null]
        exact fun all => positive all.1
    · refine iff_of_false ?_ fun all => forward all.1
      unfold lookupDomain
      rw [if_neg forward]
      simp

/-- A packet that is processed with an info of HTTP. -/
theorem attached_null (attached : { s with httpHeaderSize := 0 }.attachInfo a = .ok (some i, u))
    (own : i.home = .info .http) (stocked : u.world.Stocked) (homed : u.world.HttpHomed) :
    s.processFlow a p = .error (.fault .nullDereference) ↔ s.LooksUpNothing a p := by
  obtain ⟨state, domains, domainName⟩ := attachInfo_state attached
  have state : s.infoState a = some (u.world.infos i, u.infos i) := state
  have ban : u.banDomains = s.banDomains := (attachInfo_infoFor attached).2
  obtain ⟨strings, maps, names⟩ := attachInfo_strings (attachInfo_ok attached)
  obtain ⟨missing, looks⟩ := conditions_congr (t := u) (s := s) strings maps names ban domains
    domainName (u.world.infos i) (u.infos i) p
  have known : ∀ info http, some (u.world.infos i, u.infos i) = some (info, http) →
      u.world.infos i = info ∧ u.infos i = http := by
    intro info http same
    exact Prod.mk.inj (Option.some.inj same)
  unfold processFlow LooksUpNothing
  rw [attached, state]
  simp only
  by_cases banned : (u.world.infos i).isBanned = true
  · rw [if_pos banned]
    refine iff_of_false (by simp) ?_
    rintro ⟨info, http, same, free, -⟩
    obtain ⟨rfl, rfl⟩ := known info http same
    exact absurd (banned.symm.trans free) (by simp)
  · rw [if_neg banned]
    by_cases data : (u.infos i).direction = p.direction
    · rw [if_pos data]
      refine iff_of_false ?_ ?_
      · split
        · simp
        · simp
      · rintro ⟨info, http, same, -, parses, -⟩
        obtain ⟨rfl, rfl⟩ := known info http same
        exact parses data
    · rw [if_neg data]
      refine (parsed_null own stocked homed (p := p) ?_ ?_).trans ?_
      · intro e failed
        rw [failed]
      · intro offset t processed
        rw [processed]
        simp only
        cases t.lookupDomain i p.direction offset with
        | error e => simp
        | ok v => simp
      · rw [missing, looks, ban]
        constructor
        · rintro ⟨forward, positive, fine, uri, domain⟩
          exact ⟨_, _, rfl, by simpa using banned, data, forward, positive, fine, uri, domain⟩
        · rintro ⟨info, http, same, -, -, forward, positive, fine, uri, domain⟩
          obtain ⟨rfl, rfl⟩ := known info http same
          exact ⟨forward, positive, fine, uri, domain⟩

/-- A packet dereferences an empty pointer exactly when it looks a uri up that is not there. -/
theorem processFlow_null (pooled : s.world.Pooled) (homed : s.world.HttpHomed)
    (live : a ∈ s.world.table) :
    s.processFlow a p = .error (.fault .nullDereference) ↔ s.LooksUpNothing a p := by
  obtain ⟨r, u, attached⟩ := attachInfo_returns
    (s := { s with httpHeaderSize := 0 }) (a := a) pooled.filled
  have got := attachInfo_ok attached
  cases r with
  | none =>
    have state : s.infoState a = none := (attachInfo_state attached).1
    unfold processFlow LooksUpNothing
    rw [attached, state]
    refine iff_of_false (by simp) ?_
    rintro ⟨info, http, none, -⟩
    exact absurd none (by simp)
  | some i =>
    have pooled' := World.pooled_attachInfo pooled got
    have live' : a ∈ u.world.table := by
      rw [(World.attachInfo_spares got).table]
      exact live
    have own := World.pooled_home pooled' live' (World.lockInfo_some (World.attachInfo_locked got)).1
    exact attached_null attached own (fun x => pooled'.filled (.string .http x))
      (World.httpHomed_attachInfo homed got)

end HTTPProtocol

end AIEngine
