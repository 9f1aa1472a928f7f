import AIEngine.Applications.EngineRuns
import AIEngine.Applications.Infos
import AIEngine.Applications.Unbanned

/-!
# What SSDP counts

A request is counted where its uri is cut, and a second time where the uri is attached. Where the
header lines start is ten octets behind the version, which may be behind the payload: there, and
nowhere else, a `substr` throws.
-/

namespace AIEngine

open Ending Inspector
open Octets (ascii)

namespace SSDPProtocol

variable {s t u : SSDPProtocol} {a i : Obj} {p : L7Packet} {header : Bytes} {c : HTTPHeader.Cursor}

def isResponse (p : L7Packet) : Bool := p.startsWith (ascii "HTTP/1")

/-- What stands between the method and the version, or, when they overlap, all behind the method. -/
def uriBetween (payload : Bytes) (offset version : Nat) : Bytes :=
  if offset < version then (payload.drop offset).take (version - offset - 1)
  else payload.drop offset

/-- The uri of a request, and where its header lines are taken to start. -/
def request (p : L7Packet) : Option (Bytes × Nat) :=
  if isResponse p then none
  else
    match methods.find? p.startsWith, Octets.find (ascii "HTTP/1.") p.payload with
    | some method, some (k + 1) =>
      some (uriBetween p.payload (method.length + 1) (k + 1), k + 11)
    | _, _ => none

/-- Where the header lines are taken to start, or zero. -/
def headerStart (p : L7Packet) : Nat :=
  if isResponse p then
    match Octets.find (ascii "\r\n") p.payload with
    | some (k + 1) => k + 3
    | _ => 0
  else
    match request p with
    | some r => r.2
    | none => 0

/-- The counters of the protocol, words of 32 bits, have grown by so many. -/
def Counts (s t : SSDPProtocol) (requests responses : Nat) : Prop :=
  t.own.totalRequests = s.own.totalRequests + BitVec.ofNat 32 requests ∧
    t.own.totalResponses = s.own.totalResponses + BitVec.ofNat 32 responses

/-- An empty slot of a pool. -/
def Null (e : Failure) : Prop := e = .fault .nullDereference

theorem counts_quiet (totalRequests : t.own.totalRequests = s.own.totalRequests)
    (totalResponses : t.own.totalResponses = s.own.totalResponses) : Counts s t 0 0 :=
  ⟨totalRequests.trans (BitVec.add_zero _).symm, totalResponses.trans (BitVec.add_zero _).symm⟩

theorem counts_refl (s : SSDPProtocol) : Counts s s 0 0 := counts_quiet rfl rfl

theorem counts_request (totalRequests : t.own.totalRequests = s.own.totalRequests + 1)
    (totalResponses : t.own.totalResponses = s.own.totalResponses) : Counts s t 1 0 :=
  ⟨totalRequests, totalResponses.trans (BitVec.add_zero _).symm⟩

theorem counts_response (totalRequests : t.own.totalRequests = s.own.totalRequests)
    (totalResponses : t.own.totalResponses = s.own.totalResponses + 1) : Counts s t 0 1 :=
  ⟨totalRequests.trans (BitVec.add_zero _).symm, totalResponses⟩

theorem counts_trans {n m n' m' : Nat} (first : Counts s t n m) (second : Counts t u n' m') :
    Counts s u (n + n') (m + m') := by
  obtain ⟨requests, responses⟩ := first
  obtain ⟨requests', responses'⟩ := second
  unfold Counts
  rw [requests', requests, responses', responses, BitVec.ofNat_add, BitVec.ofNat_add]
  exact ⟨BitVec.add_assoc .., BitVec.add_assoc ..⟩

theorem ends_counts {E : Failure → Prop} {n m : Nat} {r : Except Failure SSDPProtocol}
    (first : Counts s t n m) (rest : Ends E (fun u => Counts t u 0 0) r) :
    Ends E (fun u => Counts s u n m) r :=
  ends_weaken rest fun _ later => counts_trans first later

/-! ### The header lines -/

theorem onWorld_counts {x : StringField} {always countHit : Bool} {value : Bytes} {w : World} :
    Ends Null (fun t => Counts s t 0 0)
      (s.onWorld (w.intern .ssdp x always countHit i value)) := by
  cases attached : s.onWorld (w.intern .ssdp x always countHit i value) with
  | error e => exact onWorld_error attached
  | ok t =>
    unfold onWorld at attached
    split at attached
    · obtain rfl := Except.ok.inj attached
      exact counts_refl s
    · cases attached

theorem processHostParameter_counts (host : Bytes) :
    Ends Null (fun r => Counts s r.2 0 0) (processHostParameter s i host) := by
  unfold processHostParameter
  split
  · exact counts_refl s
  · apply ends_bind (onWorld_counts (s := s.countAllow))
    intro t counted
    exact counted

/-- Both places at which a line is cut have been passed. -/
structure Placed (c : HTTPHeader.Cursor) : Prop where
  field : c.fieldIndex ≤ c.i
  parameter : c.parameterIndex ≤ c.i

theorem placed_nextLine (placed : Placed c) : Placed c.nextLine := by
  have field := placed.field
  have parameter := placed.parameter
  unfold HTTPHeader.Cursor.nextLine
  split
  · exact ⟨Nat.le_add_right_of_le field, Nat.le_add_right_of_le parameter⟩
  · exact ⟨Nat.le_refl _, Nat.le_add_right_of_le parameter⟩

theorem placed_colon (field : Bytes) : Placed (c.colon field) :=
  ⟨Nat.le_succ _, Nat.le_refl _⟩

theorem placed_next (placed : Placed c) : Placed c.next :=
  ⟨Nat.le_succ_of_le placed.field, Nat.le_succ_of_le placed.parameter⟩

theorem callback_counts (placed : Placed c) (within : c.i ≤ header.length) :
    Ends Null (fun r => Counts s r.2 0 0) (callback s i header c) := by
  unfold callback
  split
  · obtain ⟨host, cut⟩ := substr_quiet header (Nat.le_trans placed.parameter within)
      ((c.i : Int) - c.parameterIndex)
    rw [cut]
    exact processHostParameter_counts host
  · exact counts_refl s

theorem turn_counts (offset : Nat) (placed : Placed c) (within : c.i ≤ header.length) :
    Ends Null (fun r => Counts s r.2.2 0 0 ∧ ∀ d, r.1 = some d → Placed d)
      (turn s i p offset header c) := by
  unfold turn
  split
  · apply ends_bind (callback_counts placed within)
    intro r counted
    simp only
    split
    · exact ⟨counted, nofun⟩
    · split
      · exact ⟨counted, nofun⟩
      · exact ⟨counted, fun d next => Option.some.inj next ▸ placed_nextLine placed⟩
  · split
    · obtain ⟨field, cut⟩ := substr_quiet header (Nat.le_trans placed.field within)
        ((c.i : Int) - c.fieldIndex)
      rw [cut]
      exact ⟨counts_refl s, fun d next => Option.some.inj next ▸ placed_colon field⟩
    · exact ⟨counts_refl s, fun d next => Option.some.inj next ▸ placed_next placed⟩

theorem loop_counts (i : Obj) (p : L7Packet) (offset : Nat) (header : Bytes) (n : Nat)
    (placed : Placed c) :
    Ends Null (fun t => Counts s t 0 0) (loop i p offset header n s c) := by
  induction n generalizing s c with
  | zero => exact counts_refl s
  | succ n ih =>
    unfold loop
    split
    · rename_i within
      apply ends_bind (turn_counts offset placed (Nat.le_of_lt within))
      intro r turned
      obtain ⟨next, size, t⟩ := r
      obtain ⟨counted, later⟩ := turned
      simp only
      split
      · exact ends_counts counted (ih (later _ rfl))
      · exact counted
    · exact counts_refl s

theorem counts_sized (s : SSDPProtocol) (size : Int) :
    Counts s { s with own := { s.own with ssdpHeaderSize := size } } 0 0 :=
  counts_quiet rfl rfl

/-- Behind the payload the header cannot be cut. -/
theorem processLines_counts (offset : Nat) :
    Ends (fun e => Null e ∨ (e = .thrown .outOfRange ∧ p.payload.length < offset))
      (fun t => offset ≤ p.payload.length ∧ Counts s t 0 0) (processLines s i p offset) := by
  unfold processLines
  split
  · have sized := counts_sized s (HTTPProtocol.int16 offset)
    unfold parseHeader
    by_cases within : offset ≤ p.payload.length
    · obtain ⟨header, cut⟩ := substr_quiet p.payload within ((p.payload.length : Int) - offset)
      have start : Placed {} := ⟨Nat.le_refl 0, Nat.le_refl 0⟩
      rw [cut]
      have run := ends_counts sized (loop_counts i p offset header header.length start)
      exact ends_mono run (fun _ counted => ⟨within, counted⟩) fun _ null => Or.inl null
    · have thrown : substr p.payload offset ((p.payload.length : Int) - offset) =
          .error (.thrown .outOfRange) := by
        unfold substr Octets.substr
        rw [if_neg within]
      rw [thrown]
      exact Or.inr ⟨rfl, by omega⟩
  · exact ⟨by omega, counts_refl s⟩

/-! ### The first line -/

/-- How often the request is counted. -/
def requests (s : SSDPProtocol) (p : L7Packet) : Nat :=
  match request p with
  | some r => 1 + if uriAttached s r.1 then 1 else 0
  | none => 0

theorem requests_le (s : SSDPProtocol) (p : L7Packet) : requests s p ≤ 2 := by
  unfold requests
  split
  · split <;> decide
  · decide

def responses (p : L7Packet) : Nat := if isResponse p then 1 else 0

theorem noteResponseCode_counts (s : SSDPProtocol) (i : Obj) (code : Int) :
    Counts s (noteResponseCode s i code) 0 0 := by
  unfold noteResponseCode
  split
  · exact counts_refl s
  · exact counts_refl s

theorem attachUri_counts (uri : Bytes) :
    Ends Null (fun t => Counts s t (if uriAttached s uri then 1 else 0) 0) (attachUri s i uri) := by
  unfold attachUri
  apply ends_bind onWorld_counts
  intro t counted
  split
  · have once : Counts t (countRequest t) 1 0 := counts_request rfl rfl
    exact counts_trans counted once
  · exact counted

/-- A method has no slash and the version has one, so there is room behind the method. -/
theorem method_room {method : Bytes} {k : Nat} (found : methods.find? p.startsWith = some method)
    (version : Octets.find (ascii "HTTP/1.") p.payload = some k) :
    method.length + 1 ≤ p.payload.length := by
  have slashless : ∀ m ∈ methods, 0x2f ∉ m := by decide
  by_contra short
  have begins : p.startsWith method = true := List.find?_some found
  have stands : method <+: p.payload ++ p.beyond := List.isPrefixOf_iff_prefix.mp begins
  have whole : p.payload <+: method :=
    List.prefix_of_prefix_length_le (List.prefix_append _ _) stands (by omega)
  have slash : 0x2f ∈ p.payload.drop k :=
    (List.isPrefixOf_iff_prefix.mp (Octets.find_isPrefixOf version)).subset (by decide)
  exact slashless method (List.mem_of_find?_eq_some found)
    (whole.subset (List.mem_of_mem_drop slash))

theorem substr_uri {offset k : Nat} (room : offset ≤ p.payload.length) :
    substr p.payload offset ((k : Int) + 1 - offset - 1) =
      .ok (uriBetween p.payload offset (k + 1)) := by
  unfold substr uriBetween
  rw [Octets.substr_of_le room]
  by_cases between : offset < k + 1
  · have count : ((k : Int) + 1 - offset - 1).toNat = k + 1 - offset - 1 := by omega
    rw [if_pos between, if_pos (by omega), count]
  · rw [if_neg between, if_neg (by omega)]

/-- A request has a method and a version behind the first octet. -/
theorem request_some {r : Bytes × Nat} (asked : request p = some r) :
    isResponse p = false ∧ ∃ method k, methods.find? p.startsWith = some method ∧
      Octets.find (ascii "HTTP/1.") p.payload = some (k + 1) ∧
      r = (uriBetween p.payload (method.length + 1) (k + 1), k + 11) := by
  unfold request at asked
  split at asked
  · cases asked
  · rename_i other
    split at asked
    · rename_i method k found version
      exact ⟨Bool.not_eq_true _ ▸ other, method, k, found, version, (Option.some.inj asked).symm⟩
    · cases asked

theorem extractUri_response (response : isResponse p = true) :
    Ends Null (fun r => r.1 = headerStart p ∧ Counts s r.2 (requests s p) (responses p))
      (extractUri s i p) := by
  have counted : Counts s (incTotalResponses s i) 0 1 := counts_response rfl rfl
  have noted := counts_trans counted (noteResponseCode_counts (incTotalResponses s i) i
    (HTTPProtocol.atoi (p.memory.drop 8)))
  unfold extractUri headerStart requests responses request
  rw [if_pos response]
  unfold isResponse at response ⊢
  simp only [response, if_true]
  cases Octets.find (ascii "\r\n") p.payload with
  | none => exact ⟨rfl, noted⟩
  | some k =>
    cases k with
    | zero => exact ⟨rfl, noted⟩
    | succ k => exact ⟨rfl, noted⟩

theorem extractUri_request {method : Bytes} {k : Nat} (other : isResponse p = false)
    (found : methods.find? p.startsWith = some method)
    (version : Octets.find (ascii "HTTP/1.") p.payload = some (k + 1)) :
    Ends Null (fun r => r.1 = k + 11 ∧ Counts s r.2
      (1 + if uriAttached s (uriBetween p.payload (method.length + 1) (k + 1)) then 1 else 0) 0)
      (extractUri s i p) := by
  have counted : Counts s (incTotalRequests s i) 1 0 := counts_request rfl rfl
  have cut := substr_uri (k := k) (method_room found version)
  unfold isResponse at other
  unfold extractUri
  rw [other, found, version]
  show Ends _ _ (substr _ _ _ >>= _)
  rw [cut]
  show Ends _ _ (attachUri _ _ _ >>= _)
  apply ends_bind (attachUri_counts (s := incTotalRequests s i) _)
  intro t attached
  exact ⟨rfl, counts_trans counted attached⟩

theorem extractUri_other (other : isResponse p = false) (none : request p = none) :
    extractUri s i p = .ok (0, s) := by
  unfold request at none
  rw [other] at none
  unfold isResponse at other
  unfold extractUri
  rw [other]
  cases found : methods.find? p.startsWith with
  | none => rfl
  | some method =>
    cases version : Octets.find (ascii "HTTP/1.") p.payload with
    | none => rfl
    | some k =>
      cases k with
      | zero => rfl
      | succ k =>
        rw [found, version] at none
        cases none

theorem extractUri_counts (s : SSDPProtocol) (i : Obj) (p : L7Packet) :
    Ends Null (fun r => r.1 = headerStart p ∧ Counts s r.2 (requests s p) (responses p))
      (extractUri s i p) := by
  cases other : isResponse p with
  | true => exact extractUri_response other
  | false =>
    unfold headerStart requests responses
    rw [other]
    cases asked : request p with
    | none =>
      rw [extractUri_other other asked]
      exact ⟨rfl, counts_refl s⟩
    | some r =>
      obtain ⟨-, method, k, found, version, rfl⟩ := request_some asked
      exact extractUri_request other found version

/-! ### The packet -/

theorem matchHost_same (s : SSDPProtocol) (i : Obj) : matchHost s i = .ok s := by
  obtain ⟨found, looked⟩ := lookupHost_ok .ssdp s i
  unfold matchHost
  rw [looked]
  exact ite_self _

theorem processHeader_counts (p : L7Packet) (s : SSDPProtocol) (i : Obj) :
    Ends (fun e => Null e ∨ (e = .thrown .outOfRange ∧ p.payload.length < headerStart p))
      (fun t => headerStart p ≤ p.payload.length ∧ Counts s t (requests s p) (responses p))
      (processHeader p s i) := by
  unfold processHeader
  apply ends_bind (ends_mono (extractUri_counts s i p) (fun _ cut => cut) fun _ => Or.inl)
  rintro ⟨offset, t⟩ ⟨start, counted⟩
  obtain rfl := start
  apply ends_bind (processLines_counts _)
  rintro u ⟨within, lines⟩
  rw [matchHost_same]
  exact ⟨within, counts_trans counted lines⟩

/-- The packet is looked at: its flow has or gets an info that is not banned. -/
abbrev Looks (s : SSDPProtocol) (a : Obj) : Prop := Unbanned .ssdp {} s a

/-- The packet throws nothing, and a request with a uri or a response that is looked at is counted
once. -/
def CountsOnce (s : SSDPProtocol) (a : Obj) (p : L7Packet) : Prop :=
  ∃ t, processFlow s a p = .ok t ∧
    (Looks s a → Counts s t (if (request p).isSome then 1 else 0) (responses p)) ∧
    (¬Looks s a → Counts s t 0 0)

/-- The header lines of a request start within the payload, and its uri is new and finds no room. -/
def Unattached (s : SSDPProtocol) (p : L7Packet) : Prop :=
  ∀ r, request p = some r → r.2 ≤ p.payload.length ∧ uriAttached s r.1 = false

theorem headerStart_within (unattached : Unattached s p) : headerStart p ≤ p.payload.length := by
  unfold headerStart
  split
  · cases found : Octets.find (ascii "\r\n") p.payload with
    | none => exact Nat.zero_le _
    | some k =>
      have within := Octets.find_le found
      cases k with
      | zero => exact Nat.zero_le _
      | succ k => exact within
  · cases asked : request p with
    | none => exact Nat.zero_le _
    | some r => exact (unattached r asked).1

theorem requests_once (unattached : Unattached s p) :
    requests s p = if (request p).isSome then 1 else 0 := by
  unfold requests
  cases asked : request p with
  | none => rfl
  | some r =>
    simp [(unattached r asked).2]

/-- A request that is counted once has its header lines within the payload and its uri unattached. -/
theorem unattached_of_once (within : headerStart p ≤ p.payload.length)
    (once : requests s p = if (request p).isSome then 1 else 0) : Unattached s p := by
  intro r asked
  obtain ⟨other, -⟩ := request_some asked
  unfold headerStart at within
  unfold requests at once
  rw [other, asked] at within
  rw [asked] at once
  refine ⟨within, ?_⟩
  by_contra known
  rw [Bool.not_eq_false] at known
  simp [known] at once

/-- Attaching an info leaves the uris as they are. -/
theorem attachInfo_uris (filled : s.world.Filled)
    (attached : s.attachInfo .ssdp {} a = .ok (some i, t)) (uri : Bytes) :
    uriAttached t uri = uriAttached s uri := by
  by_cases informs : Informs .ssdp s a
  · obtain ⟨j, u, taken, takes⟩ := attachInfo_takes {} filled informs
    rw [attached] at taken
    cases taken
    unfold uriAttached
    rw [takes.maps, takes.strings]
  · obtain ⟨w, missed, -⟩ := attachInfo_misses {} informs
    rw [attached] at missed
    cases missed

theorem countsOnce_looks (filled : s.world.Filled)
    (attached : s.attachInfo .ssdp {} a = .ok (some i, t))
    (free : (t.world.infos i).isBanned = false) : CountsOnce s a p ↔ Unattached s p := by
  have looks : Looks s a := ⟨i, t, attached, free⟩
  have own := attachInfo_own attached
  have uris := attachInfo_uris filled attached
  have same : requests t p = requests s p := by
    unfold requests
    simp only [uris]
  have ran : processFlow s a p = processHeader p t i := by
    unfold processFlow withInfo unlessBanned
    rw [attached]
    simp [free]
  have ends := processHeader_counts p t i
  have pooled := processHeader_works (a := a) (i := i) p
    (World.filled_attachInfo filled (attachInfo_cases attached).1)
  unfold CountsOnce
  rw [ran]
  constructor
  · rintro ⟨u, returned, counted, -⟩
    obtain ⟨within, counts⟩ := ends_value ends returned
    refine unattached_of_once within ?_
    have once := (counted looks).1
    have total := counts.1
    rw [own, same] at total
    have words := congrArg BitVec.toNat ((BitVec.add_right_inj _).mp (total.symm.trans once))
    have few := requests_le s p
    rw [BitVec.toNat_ofNat, BitVec.toNat_ofNat, Nat.mod_eq_of_lt (by omega)] at words
    exact words.trans (Nat.mod_eq_of_lt (by split <;> decide))
  · intro unattached
    cases returned : processHeader p t i with
    | error e =>
      rcases ends_error ends returned with null | ⟨-, short⟩
      · have found : NotNull e := ends_error pooled returned
        exact absurd null found
      · exact absurd (headerStart_within unattached) (by omega)
    | ok u =>
      obtain ⟨-, counts⟩ := ends_value ends returned
      refine ⟨u, rfl, fun _ => ?_, fun not => absurd looks not⟩
      unfold Counts at counts ⊢
      rw [own, same, requests_once unattached] at counts
      exact counts

theorem countsOnce_passed (filled : s.world.Filled) (passes : ¬Looks s a) : CountsOnce s a p := by
  obtain ⟨r, t, attached⟩ := attachInfo_ok (p := .ssdp) (a := a) {} filled
  have ran : processFlow s a p = .ok t := by
    unfold processFlow withInfo unlessBanned
    rw [attached]
    cases r with
    | none => rfl
    | some i =>
      refine if_pos ?_
      by_contra free
      exact passes ⟨i, t, attached, Bool.not_eq_true _ ▸ free⟩
  refine ⟨t, ran, fun looks => absurd looks passes, fun _ => ?_⟩
  unfold Counts
  rw [attachInfo_own attached]
  exact counts_refl s

theorem countsOnce_iff (a : Obj) (p : L7Packet) (filled : s.world.Filled) :
    CountsOnce s a p ↔ (Looks s a → Unattached s p) := by
  by_cases looks : Looks s a
  · obtain ⟨i, t, attached, free⟩ := id looks
    exact (countsOnce_looks filled attached free).trans (imp_iff_right looks).symm
  · exact iff_of_true (countsOnce_passed filled looks) fun holds => absurd holds looks

end SSDPProtocol

namespace Engine

/-- SSDP, with the world that all share. -/
def ssdpProtocol (e : Engine) : SSDPProtocol := { e.ssdp with world := e.world }

open SSDPProtocol

theorem always_counts_once_iff (objects : CacheId → Nat) (layer : Option Nat)
    (expressions : SIPExpressions) (events : List Event) :
    Transition.Always step (fun e => ∀ (a : Obj) (p : L7Packet),
        CountsOnce e.ssdpProtocol a p ↔ (Looks e.ssdpProtocol a → Unattached e.ssdpProtocol p))
      (start objects layer expressions) events := by
  apply Transition.always_mono _ (always_sound objects layer expressions events)
  intro e sound a p
  exact countsOnce_iff a p sound.pooled.filled

def shortNotify : L7Packet where
  payload := ascii "NOTIFY * HTTP/1."
  direction := .forward

/-- With an info for the flow and no room for a uri. -/
def oneInfo : CacheId → Nat
  | .info .ssdp => 1
  | _ => 0

theorem not_always_counts_once :
    ¬∀ objects layer expressions events,
      Transition.Always step (fun e => ∀ (a : Obj) (p : L7Packet), CountsOnce e.ssdpProtocol a p)
        (start objects layer expressions) events := by
  intro all
  have always := all oneInfo none
    ⟨⟨fun _ => none, []⟩, ⟨fun _ => none, []⟩, ⟨fun _ => none, []⟩⟩ []
  obtain ⟨t, returned, -⟩ := Transition.always_start always ⟨.info .ssdp, 0⟩ shortNotify
  cases returned

end Engine

end AIEngine
