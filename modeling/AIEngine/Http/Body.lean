import AIEngine.Applications.EmptyUri

/-!
# The data of an HTTP message

What `processFlow` makes of the data that an info waits for is a matter of the octets of the packet
and of three members of the info: the direction of the last packet, whether data is to come, and how
much of it. Here this is said without the pools, and the packets of the source are brought to it.
-/

namespace AIEngine

/-- `getLength()` is an `int`: no payload has more octets than that. -/
def HttpPacket.Measured (p : HttpPacket) : Prop := p.payload.length < 2147483648

/-- What an info knows of the data to come. -/
structure Body where
  direction : FlowDirection
  haveData : Bool
  dataChunkLength : Int
  deriving DecidableEq, Repr

def HTTPInfo.body (info : HTTPInfo) : Body where
  direction := info.direction
  haveData := info.haveData
  dataChunkLength := info.dataChunkLength

/-- What a packet has done: the data to come after it, whether it has banned the flow, the octets that
were counted as data, and what the regexes were given. -/
structure Passed where
  body : Body
  banned : Bool := false
  count : Int := 0
  slices : List Slice := []
  deriving DecidableEq, Repr

namespace Body

/-- The data that is still to come. -/
def pending (b : Body) : Int := if b.haveData then b.dataChunkLength else 0

/-- A length was announced, or none. -/
def announce (b : Body) : Option Int → Body
  | some n => { b with haveData := true, dataChunkLength := n }
  | none => b

/-- Some of the data has come. -/
def take (b : Body) (n : Int) : Body :=
  if 0 < Counter.int32 (b.dataChunkLength - n) then
    { b with dataChunkLength := Counter.int32 (b.dataChunkLength - n) }
  else { b with haveData := false, dataChunkLength := 0 }

def turn (b : Body) (direction : FlowDirection) : Body := { b with direction := direction }

end Body

namespace HTTPProtocol

open HTTPHeader

/-- The length that a line announces. -/
def lengthOf (l : Line) : Option Int :=
  match l.2.1, stoi l.2.2 with
  | .contentLength, .ok n => some n
  | _, _ => none

/-- The last length before a banned host. -/
def announced (ban : Option (Bytes → Bool)) : List Line → Option Int
  | [] => none
  | l :: rest => if BannedHost ban l then none else (announced ban rest).or (lengthOf l)

/-- The end of the first line with a banned host. -/
def bannedAt (ban : Option (Bytes → Bool)) (ls : List Line) : Option Nat :=
  (ls.find? fun l => decide (BannedHost ban l)).map Prod.fst

/-- Where the header ends: at the line with a banned host, or else where the lines end. -/
def headerEnd (ban : Option (Bytes → Bool)) (p : HttpPacket) : Nat :=
  if 0 < headerStart p ∧ headerStart p + 4 < p.payload.length then
    headerStart p + (bannedAt ban (headerLines p)).getD
      (endOf (stretches (textLines (p.payload.drop (headerStart p))))
        (p.payload.drop (headerStart p)))
  else headerStart p

/-- `http_header_size_` behind the header. -/
def headerSize (ban : Option (Bytes → Bool)) (p : HttpPacket) : Int := int16 (headerEnd ban p)

end HTTPProtocol

namespace Body

open HTTPProtocol

/-- What is behind the header is data, if there is data to come. -/
def afterHeader (b : Body) (p : HttpPacket) (headerSize : Int) : Passed :=
  if b.haveData then
    let count := Counter.int32 (p.payload.length - headerSize)
    { body := (b.take count).turn p.direction
      count := count
      slices :=
        if 0 < Counter.int32 (b.dataChunkLength - count) then
          [{ start := headerSize, length := count }]
        else [] }
  else { body := b.turn p.direction }

def packet (b : Body) (ban : Option (Bytes → Bool)) (p : HttpPacket) : Passed :=
  if b.direction = p.direction then
    if b.haveData then
      { body := (b.take p.payload.length).turn p.direction
        count := p.payload.length
        slices := [{ start := 0, length := p.payload.length }] }
    else { body := b }
  else
    { (b.announce (announced ban (headerLines p))).afterHeader p (headerSize ban p) with
      banned := (bannedAt ban (headerLines p)).isSome }

variable {b : Body} {ban : Option (Bytes → Bool)} {p : HttpPacket}

theorem packet_data (same : b.direction = p.direction) (data : b.haveData = true) :
    b.packet ban p =
      { body := (b.take p.payload.length).turn p.direction
        count := p.payload.length
        slices := [{ start := 0, length := p.payload.length }] } := by
  unfold packet
  rw [if_pos same, if_pos data]

theorem packet_noData (same : b.direction = p.direction) (noData : ¬b.haveData = true) :
    b.packet ban p = { body := b } := by
  unfold packet
  rw [if_pos same, if_neg noData]

theorem afterHeader_noData {headerSize : Int} (same : b.direction = p.direction)
    (noData : ¬b.haveData = true) : b.afterHeader p headerSize = { body := b } := by
  unfold afterHeader turn
  rw [if_neg noData, ← same]

end Body

namespace HTTPProtocol

open HTTPHeader

variable {s t u : HTTPProtocol} {a i : Obj} {p : HttpPacket}

/-! ### What is left alone -/

/-- The counters of the data, and the infos of other flows. -/
structure SameAccounts (i : Obj) (s t : HTTPProtocol) : Prop where
  total : t.totalL7Bytes = s.totalL7Bytes
  payloads : t.payloads7 = s.payloads7
  ban : t.banDomains = s.banDomains
  others : ∀ j, j ≠ i → t.infos j = s.infos j

theorem sameAccounts_refl (i : Obj) (s : HTTPProtocol) : SameAccounts i s s :=
  ⟨rfl, rfl, rfl, fun _ _ => rfl⟩

theorem sameAccounts_trans (first : SameAccounts i s t) (second : SameAccounts i t u) :
    SameAccounts i s u :=
  ⟨second.total.trans first.total, second.payloads.trans first.payloads, second.ban.trans first.ban,
    fun j other => (second.others j other).trans (first.others j other)⟩

theorem setInfo_accounts (s : HTTPProtocol) (i : Obj) (info : HTTPInfo) :
    SameAccounts i s (s.setInfo i info) :=
  ⟨rfl, rfl, rfl, fun _ other => if_neg other⟩

/-! ### The header lines -/

theorem processParameter_body {q : HttpParameter} {v : Bytes} {more : Bool} (n : Nat)
    (h : processParameter i s q v = .ok (more, t)) :
    SameAccounts i s t ∧ t.httpHeaderSize = s.httpHeaderSize ∧
      (more = false ↔ BannedHost s.banDomains (n, q, v)) ∧
      (t.infos i).body = (s.infos i).body.announce (lengthOf (n, q, v)) := by
  cases processParameter_ran h with
  | banned found =>
    exact ⟨⟨rfl, rfl, rfl, fun _ _ => rfl⟩, rfl, iff_of_true rfl ⟨rfl, found⟩, rfl⟩
  | host w allowed attached =>
    exact ⟨⟨rfl, rfl, rfl, fun _ _ => rfl⟩, rfl, iff_of_false (by simp) fun no => allowed no.2, rfl⟩
  | userAgent w attached =>
    exact ⟨⟨rfl, rfl, rfl, fun _ _ => rfl⟩, rfl,
      iff_of_false (by simp) fun no => absurd no.1 (by simp), rfl⟩
  | contentLength length read =>
    refine ⟨setInfo_accounts s i _, rfl, iff_of_false (by simp) fun no => absurd no.1 (by simp), ?_⟩
    simp only [setInfo_same, lengthOf, read]
    rfl
  | noLength read =>
    refine ⟨sameAccounts_refl i s, rfl, iff_of_false (by simp) fun no => absurd no.1 (by simp), ?_⟩
    simp only [lengthOf, read]
    rfl

theorem announce_announce (b : Body) (m n : Option Int) : (b.announce n).announce m =
    b.announce (m.or n) := by
  cases m <;> cases n <;> rfl

theorem bannedAt_cons (ban : Option (Bytes → Bool)) (l : Line) (rest : List Line) :
    bannedAt ban (l :: rest) = if BannedHost ban l then some l.1 else bannedAt ban rest := by
  unfold bannedAt
  rw [List.find?_cons]
  by_cases banned : BannedHost ban l
  · simp [banned]
  · simp [banned]

theorem bannedAt_none_iff (ban : Option (Bytes → Bool)) (ls : List Line) :
    bannedAt ban ls = none ↔ ¬∃ l ∈ ls, BannedHost ban l := by
  unfold bannedAt
  rw [Option.map_eq_none_iff, List.find?_eq_none]
  simp

/-- The lines announce the last length before the ban. -/
theorem runLines_body {ls : List Line} {r : Option Nat}
    (h : runLines (processParameter i) s ls = .ok (t, r)) :
    SameAccounts i s t ∧ t.httpHeaderSize = s.httpHeaderSize ∧ r = bannedAt s.banDomains ls ∧
      (t.infos i).body = (s.infos i).body.announce (announced s.banDomains ls) := by
  induction ls generalizing s with
  | nil =>
    obtain ⟨rfl, rfl⟩ := Prod.mk.inj (Except.ok.inj h)
    exact ⟨sameAccounts_refl i s, rfl, rfl, rfl⟩
  | cons l rest ih =>
    obtain ⟨k, q, v⟩ := l
    rcases runLines_cons h with ⟨stopped, rfl⟩ | ⟨u, called, later⟩
    · obtain ⟨same, size, banned, body⟩ := processParameter_body k stopped
      have bans := banned.mp rfl
      have none : lengthOf (k, q, v) = none := by
        obtain ⟨host, -⟩ := bans
        unfold lengthOf
        rw [host]
      refine ⟨same, size, ?_, ?_⟩
      · rw [bannedAt_cons, if_pos bans]
      · rw [body, announced, if_pos bans, none]
    · obtain ⟨same, size, banned, body⟩ := processParameter_body k called
      have allowed : ¬BannedHost s.banDomains (k, q, v) := fun bans => absurd (banned.mpr bans) (by simp)
      obtain ⟨same', size', stops, body'⟩ := ih later
      rw [same.ban] at stops body'
      refine ⟨sameAccounts_trans same same', size'.trans size, ?_, ?_⟩
      · rw [stops, bannedAt_cons, if_neg allowed]
      · rw [body', body, announced, if_neg allowed, announce_announce]

theorem int16_add (m n : Int) : int16 (int16 m + n) = int16 (m + n) := Int.bmod_add_bmod

theorem parseHeader_body {header : Bytes} (h : s.parseHeader i header = .ok t) :
    SameAccounts i s t ∧
      t.httpHeaderSize = int16 (s.httpHeaderSize +
        (bannedAt s.banDomains (lines header {} header)).getD (size header {} header)) ∧
      (t.infos i).body =
        (s.infos i).body.announce (announced s.banDomains (lines header {} header)) := by
  obtain ⟨u, r, ran, stop⟩ := parseHeader_ran h
  obtain ⟨⟨total, payloads, ban, others⟩, grown, stops, body⟩ := runLines_body ran
  rw [← stops]
  rcases stop with ⟨rfl, rfl⟩ | ⟨k, rfl, rfl⟩
  · exact ⟨⟨total, payloads, ban, others⟩, by rw [← grown]; rfl, body⟩
  · exact ⟨⟨total, payloads, ban, others⟩, by rw [← grown]; rfl, body⟩

/-! ### The first line -/

theorem noteResponseCode_body (s : HTTPProtocol) (i : Obj) (code : Int) :
    SameAccounts i s (s.noteResponseCode i code) ∧
      (s.noteResponseCode i code).httpHeaderSize = s.httpHeaderSize ∧
      ((s.noteResponseCode i code).infos i).body = (s.infos i).body := by
  unfold noteResponseCode
  split
  · refine ⟨setInfo_accounts s i _, rfl, ?_⟩
    rw [setInfo_same]
    rfl
  · exact ⟨sameAccounts_refl i s, rfl, rfl⟩

theorem response_body (s : HTTPProtocol) (i : Obj) (code : Int) :
    SameAccounts i s ((s.incTotalResponses i).noteResponseCode i code) ∧
      ((s.incTotalResponses i).noteResponseCode i code).httpHeaderSize = s.httpHeaderSize ∧
      (((s.incTotalResponses i).noteResponseCode i code).infos i).body = (s.infos i).body := by
  obtain ⟨same, size, body⟩ := noteResponseCode_body (s.incTotalResponses i) i code
  refine ⟨sameAccounts_trans (setInfo_accounts s i _) same, size, body.trans ?_⟩
  unfold incTotalResponses
  rw [setInfo_same]
  rfl

theorem request_body (s : HTTPProtocol) (i : Obj) (w : World) :
    SameAccounts i s { s.incTotalRequests i with world := w } ∧
      (({ s.incTotalRequests i with world := w } : HTTPProtocol).infos i).body = (s.infos i).body := by
  refine ⟨⟨rfl, rfl, rfl, fun j other => if_neg other⟩, ?_⟩
  show ((s.incTotalRequests i).infos i).body = _
  unfold incTotalRequests
  rw [setInfo_same]
  rfl

theorem extractUri_body {offset : Nat} (h : s.extractUri i p = .ok (offset, t)) :
    offset = headerStart p ∧ SameAccounts i s t ∧ t.httpHeaderSize = s.httpHeaderSize ∧
      (t.infos i).body = (s.infos i).body := by
  unfold extractUri at h
  unfold headerStart
  by_cases response : p.startsWith (Octets.ascii "HTTP/1") = true
  · rw [if_pos response] at h ⊢
    have all := response_body s i (atoi ((p.payload ++ p.beyond).drop 8))
    simp only at h
    cases lineEnd : Octets.find (Octets.ascii "\r\n") p.payload with
    | none =>
      rw [lineEnd] at h
      obtain ⟨rfl, rfl⟩ := Prod.mk.inj (Except.ok.inj h)
      exact ⟨rfl, all⟩
    | some k =>
      rw [lineEnd] at h
      cases k with
      | zero =>
        obtain ⟨rfl, rfl⟩ := Prod.mk.inj (Except.ok.inj h)
        exact ⟨rfl, all⟩
      | succ k =>
        obtain ⟨rfl, rfl⟩ := Prod.mk.inj (Except.ok.inj h)
        exact ⟨rfl, all⟩
  · rw [if_neg response] at h ⊢
    cases found : methods.find? p.startsWith with
    | none =>
      rw [found] at h
      obtain ⟨rfl, rfl⟩ := Prod.mk.inj (Except.ok.inj h)
      exact ⟨rfl, sameAccounts_refl i s, rfl, rfl⟩
    | some method =>
      rw [found] at h
      simp only [Option.isSome_some, if_true] at h ⊢
      cases version : Octets.find (Octets.ascii "HTTP/1.") p.payload with
      | none =>
        rw [version] at h
        obtain ⟨rfl, rfl⟩ := Prod.mk.inj (Except.ok.inj h)
        exact ⟨rfl, sameAccounts_refl i s, rfl, rfl⟩
      | some k =>
        rw [version] at h
        cases k with
        | zero =>
          obtain ⟨rfl, rfl⟩ := Prod.mk.inj (Except.ok.inj h)
          exact ⟨rfl, sameAccounts_refl i s, rfl, rfl⟩
        | succ k =>
          simp only at h
          split at h
          · exact absurd h (by simp)
          · split at h
            · rename_i v attached
              obtain ⟨rfl, rfl⟩ := Prod.mk.inj (Except.ok.inj h)
              obtain ⟨w, -, rfl⟩ := onWorld_ok attached
              obtain ⟨same, body⟩ := request_body s i w
              exact ⟨rfl, same, rfl, body⟩
            · exact absurd h (by simp)

/-! ### The flow of the packet -/

/-- The info stays with its flow, and is banned if it was or if it `bans`. -/
structure KeepsInfo (i : Obj) (bans : Bool) (w w' : World) : Prop where
  flows : w'.flows = w.flows
  table : w'.table = w.table
  infoCache : w'.cache (.info .http) = w.cache (.info .http)
  banned : (w'.infos i).isBanned = ((w.infos i).isBanned || bans)

theorem keepsInfo_attaches {w w' : World} (h : Attaches i w w') : KeepsInfo i false w w' := by
  obtain ⟨flows, table, infoCache, banned⟩ := attaches_keeps h
  exact ⟨flows, table, infoCache, by rw [banned, Bool.or_false]⟩

theorem keepsInfo_refl (w : World) : KeepsInfo i false w w :=
  ⟨rfl, rfl, rfl, (Bool.or_false _).symm⟩

theorem keepsInfo_trans {w w' w'' : World} {first second : Bool} (one : KeepsInfo i first w w')
    (two : KeepsInfo i second w' w'') : KeepsInfo i (first || second) w w'' :=
  ⟨two.flows.trans one.flows, two.table.trans one.table, two.infoCache.trans one.infoCache, by
    rw [two.banned, one.banned, Bool.or_assoc]⟩

theorem keepsInfo_ban (w : World) (i : Obj) :
    KeepsInfo i true w (World.Http.releaseHttpInfoCache (w.setBanned i) i) := by
  have drops := Http.dropsHits_trans (Http.dropHit_drops (w.setBanned i) .ua i)
    (Http.dropHit_drops ((w.setBanned i).dropHit .http .ua i) .uri i)
  obtain ⟨rest, infos, -⟩ :=
    World.releaseHttpInfo_spec (((w.setBanned i).dropHit .http .ua i).dropHit .http .uri i) i
  refine ⟨rest.flows.trans drops.flows, rest.table.trans drops.table,
    (rest.infoCaches .http).trans (congrFun drops.cache _), ?_⟩
  have same := congrFun drops.infos i
  refine (congrArg (fun infos => (infos i).isBanned) infos).trans ?_
  generalize ((w.setBanned i).dropHit .http .ua i).dropHit .http .uri i = v at same
  have kept : ((v.setInfo i { v.infos i with strings := fun _ => none }).infos i).isBanned =
      (v.infos i).isBanned := by simp [World.setInfo]
  refine kept.trans ?_
  rw [same]
  simp [World.setInfo, World.setBanned]

theorem parseHeader_keeps {header : Bytes} (h : s.parseHeader i header = .ok t) :
    KeepsInfo i (bannedAt s.banDomains (lines header {} header)).isSome s.world t.world := by
  obtain ⟨u, r, ran, stop⟩ := parseHeader_ran h
  obtain ⟨-, -, stops, -⟩ := runLines_body ran
  have attached := keepsInfo_attaches (runLines_attaches ran)
  rw [← stops]
  rcases stop with ⟨rfl, rfl⟩ | ⟨k, rfl, rfl⟩
  · exact attached
  · exact keepsInfo_trans attached (keepsInfo_ban u.world i)

/-- A packet that is taken for a request or a response. -/
theorem processRequestsAndResponses_body {offset : Nat} (zero : s.httpHeaderSize = 0)
    (h : s.processRequestsAndResponses i p = .ok (offset, t)) :
    SameAccounts i s t ∧ t.httpHeaderSize = headerSize s.banDomains p ∧
      (t.infos i).body = (s.infos i).body.announce (announced s.banDomains (headerLines p)) ∧
      KeepsInfo i (bannedAt s.banDomains (headerLines p)).isSome s.world t.world := by
  obtain ⟨k, u, extracted, rest⟩ := processRequestsAndResponses_ran h
  obtain ⟨rfl, same, size, body⟩ := extractUri_body extracted
  have attached := keepsInfo_attaches (extractUri_attaches extracted)
  rcases rest with ⟨none, rfl⟩ | ⟨positive, short, rfl⟩ | ⟨positive, long, parsed⟩
  · rw [headerLines_missing none, headerSize, headerEnd, if_neg fun both => by omega]
    refine ⟨same, ?_, body, attached⟩
    rw [size, zero, none]
    rfl
  · rw [headerLines_short short, headerSize, headerEnd, if_neg fun both => by omega]
    exact ⟨⟨same.total, same.payloads, same.ban, same.others⟩, by simp only, body, attached⟩
  · obtain ⟨same', grown, body'⟩ := parseHeader_body parsed
    have kept := parseHeader_keeps parsed
    have ban : ({ u with httpHeaderSize := int16 (headerStart p) } : HTTPProtocol).banDomains =
        s.banDomains := same.ban
    rw [ban, ← headerLines_long positive long] at grown body' kept
    refine ⟨sameAccounts_trans same ⟨same'.total, same'.payloads, same'.ban, same'.others⟩, ?_, ?_,
      keepsInfo_trans attached kept⟩
    · simp only [int16_add] at grown
      rw [grown, headerSize, headerEnd, if_pos ⟨positive, long⟩, ← (scan_text _).2]
      rfl
    · rw [body']
      exact congrArg (fun b => Body.announce b _) body

/-! ### The rest of the packet -/

theorem lookupDomain_body {d : FlowDirection} {offset : Nat}
    (h : s.lookupDomain i d offset = .ok t) :
    SameAccounts i s t ∧ t.httpHeaderSize = s.httpHeaderSize ∧ (t.infos i).body = (s.infos i).body := by
  rcases lookupDomain_ran h with rfl | ⟨d, rfl⟩
  · exact ⟨sameAccounts_refl i t, rfl, rfl⟩
  · refine ⟨setInfo_accounts s i _, rfl, ?_⟩
    rw [setInfo_same]
    rfl

/-- What a packet adds to the counter and to the calls of `process_payloadl7`. -/
structure Adds (a i : Obj) (passed : Passed) (s t : HTTPProtocol) : Prop where
  body : (t.infos i).body = passed.body
  total : t.totalL7Bytes = s.totalL7Bytes + passed.count
  payloads : t.payloads7 = passed.slices.map (fun sl => (a, sl)) ++ s.payloads7
  others : ∀ j, j ≠ i → t.infos j = s.infos j
  ban : t.banDomains = s.banDomains
  world : t.world = s.world

theorem headerData_adds (s : HTTPProtocol) (a i : Obj) (p : HttpPacket) :
    Adds a i ((s.infos i).body.afterHeader p s.httpHeaderSize) s (s.headerData a i p) := by
  have world := headerData_world s a i p
  unfold headerData setHTTPDataDirection at *
  unfold Body.afterHeader Body.take Body.turn HTTPInfo.body
  by_cases data : (s.infos i).haveData = true
  · by_cases more : 0 < Counter.int32 ((s.infos i).dataChunkLength -
        Counter.int32 ((p.payload.length : Int) - s.httpHeaderSize))
    · simp only [if_pos data, if_pos more] at *
      refine ⟨by simp [processPayloadl7, HTTPInfo.body], rfl, rfl, fun j other => ?_, rfl, world⟩
      simp [setInfo, processPayloadl7, other]
    · simp only [if_pos data, if_neg more] at *
      refine ⟨by simp [HTTPInfo.body], rfl, rfl, fun j other => ?_, rfl, world⟩
      simp [setInfo, other]
  · simp only [if_neg data] at *
    refine ⟨by simp [HTTPInfo.body], by simp [setInfo], rfl, fun j other => ?_, rfl, world⟩
    simp [setInfo, other]

theorem continueData_adds (a i : Obj) (p : HttpPacket) (same : (s.infos i).direction = p.direction)
    (data : (s.infos i).haveData = true) :
    Adds a i ((s.infos i).body.packet s.banDomains p) s (s.continueData a i p) := by
  have world := continueData_world s a i p
  unfold continueData setHTTPDataDirection at *
  unfold Body.packet Body.take Body.turn HTTPInfo.body
  simp only [if_pos same, if_pos data]
  by_cases more : 0 < Counter.int32 ((s.infos i).dataChunkLength - (p.payload.length : Int))
  · simp only [if_pos more] at *
    refine ⟨by simp [processPayloadl7, HTTPInfo.body], rfl, rfl, fun j other => ?_, rfl, world⟩
    simp [setInfo, processPayloadl7, other]
  · simp only [if_neg more] at *
    refine ⟨by simp [processPayloadl7, HTTPInfo.body], rfl, rfl, fun j other => ?_, rfl, world⟩
    simp [setInfo, processPayloadl7, other]

/-! ### `processFlow` -/

/-- Of the info that the next packet of the flow is processed with. -/
structure Tracked where
  banned : Bool
  body : Body
  deriving DecidableEq, Repr

def tracked (s : HTTPProtocol) (a : Obj) : Option Tracked :=
  (s.infoState a).map fun st => { banned := st.1.isBanned, body := st.2.body }

theorem tracked_locked (locked : s.world.lockInfo .http (s.world.flows a) = some i) :
    s.tracked a = some { banned := (s.world.infos i).isBanned, body := (s.infos i).body } := by
  unfold tracked infoState
  rw [locked]
  rfl

theorem attachInfo_tracked {r : Option Obj} (h : s.attachInfo a = .ok (r, t)) :
    s.tracked a =
      r.map fun i => { banned := (t.world.infos i).isBanned, body := (t.infos i).body } := by
  unfold tracked
  rw [(attachInfo_state h).1, Option.map_map]
  rfl

/-- A pool that has no info for the flow has none for its next packet. -/
theorem attachInfo_none (h : s.attachInfo a = .ok (none, t)) : t.tracked a = none := by
  have got := attachInfo_ok h
  have expired := World.attachInfo_expired got
  rcases World.attachInfo_cases got with ⟨i, no, -⟩ | ⟨i, c, no, -⟩ | ⟨c, -, failed, same⟩
  · exact absurd no (by simp)
  · exact absurd no (by simp)
  · obtain ⟨empty, rfl⟩ := Cache.acquire_none failed
    have cache := World.cache_setCache_same s.world (.info .http)
      { s.world.cache (.info .http) with totalFails := (s.world.cache (.info .http)).totalFails + 1 }
    have expired' : t.world.lockInfo .http (t.world.flows a) = none := by
      rw [same, World.setCache_flows]
      unfold World.lockInfo at expired ⊢
      rw [cache]
      exact expired
    have empty' : (t.world.cache (.info .http)).total = 0 := by
      rw [same, cache]
      exact empty
    unfold tracked infoState
    simp [expired', Cache.acquire, empty']

theorem attachInfo_accounts {r : Option Obj} (h : s.attachInfo a = .ok (r, t)) :
    t.totalL7Bytes = s.totalL7Bytes ∧ t.payloads7 = s.payloads7 ∧ t.banDomains = s.banDomains ∧
      t.httpHeaderSize = s.httpHeaderSize ∧ ∀ j, r ≠ some j → t.infos j = s.infos j := by
  obtain ⟨-, infos, shape, others, -⟩ := attachInfo_keeps h
  rw [shape]
  exact ⟨rfl, rfl, rfl, rfl, others⟩

/-- What a packet that is processed with the info has done. -/
structure Follows (a i : Obj) (passed : Passed) (s t : HTTPProtocol) : Prop where
  kept : KeepsInfo i passed.banned s.world t.world
  body : (t.infos i).body = passed.body
  total : t.totalL7Bytes = s.totalL7Bytes + passed.count
  payloads : t.payloads7 = passed.slices.map (fun sl => (a, sl)) ++ s.payloads7
  ban : t.banDomains = s.banDomains
  others : ∀ j, j ≠ i → t.infos j = s.infos j

theorem follows_adds {passed : Passed} (unbanned : passed.banned = false)
    (adds : Adds a i passed s t) : Follows a i passed s t := by
  obtain ⟨body, total, payloads, others, ban, world⟩ := adds
  refine ⟨?_, body, total, payloads, ban, others⟩
  rw [unbanned, world]
  exact keepsInfo_refl _

/-- The packet is parsed, and what is behind its header is data. -/
theorem parsed_follows {offset : Nat} {v : HTTPProtocol} (zero : s.httpHeaderSize = 0)
    (other : (s.infos i).direction ≠ p.direction)
    (processed : s.processRequestsAndResponses i p = .ok (offset, u))
    (looked : u.lookupDomain i p.direction offset = .ok v) :
    Follows a i ((s.infos i).body.packet s.banDomains p) s (v.headerData a i p) := by
  obtain ⟨same, size, body, kept⟩ := processRequestsAndResponses_body zero processed
  obtain ⟨same', size', body'⟩ := lookupDomain_body looked
  obtain ⟨after, total, payloads, others, ban, world⟩ := headerData_adds v a i p
  have accounts := sameAccounts_trans same same'
  have known : (v.infos i).body.afterHeader p v.httpHeaderSize =
      ((s.infos i).body.announce (announced s.banDomains (headerLines p))).afterHeader p
        (headerSize s.banDomains p) := by
    rw [body', body, size', size]
  have packet : (s.infos i).body.packet s.banDomains p =
      { ((s.infos i).body.announce (announced s.banDomains (headerLines p))).afterHeader p
          (headerSize s.banDomains p) with
        banned := (bannedAt s.banDomains (headerLines p)).isSome } := if_neg other
  rw [known] at after total payloads
  rw [← lookupDomain_world looked, ← world] at kept
  rw [packet]
  exact ⟨kept, after, total.trans (by rw [accounts.total]), payloads.trans (by rw [accounts.payloads]),
    ban.trans accounts.ban, fun j different => (others j different).trans (accounts.others j different)⟩

/-- Everything that a packet can do: its flow has no info or a banned one, or the info is changed as
its data says. -/
theorem processFlow_cases (h : s.processFlow a p = .ok t) :
    ∃ r u, { s with httpHeaderSize := 0 }.attachInfo a = .ok (r, u) ∧
      ((t = u ∧ ∀ i, r = some i → (u.world.infos i).isBanned = true) ∨
        ∃ i, r = some i ∧ (u.world.infos i).isBanned = false ∧
          Follows a i ((u.infos i).body.packet u.banDomains p) u t) := by
  unfold processFlow at h
  split at h
  · exact absurd h (by simp)
  · rename_i u attached
    obtain rfl := Except.ok.inj h
    exact ⟨none, _, attached, Or.inl ⟨rfl, fun i no => absurd no (by simp)⟩⟩
  · rename_i i u attached
    refine ⟨some i, u, attached, ?_⟩
    by_cases banned : (u.world.infos i).isBanned = true
    · rw [if_pos banned] at h
      obtain rfl := Except.ok.inj h
      refine Or.inl ⟨rfl, fun j same => ?_⟩
      obtain rfl := Option.some.inj same
      exact banned
    · rw [if_neg banned] at h
      refine Or.inr ⟨i, rfl, Bool.eq_false_iff.mpr banned, ?_⟩
      split at h
      · rename_i same
        split at h
        · rename_i data
          obtain rfl := Except.ok.inj h
          refine follows_adds ?_ (continueData_adds a i p same data)
          rw [Body.packet_data same data]
        · rename_i noData
          obtain rfl := Except.ok.inj h
          have adds := headerData_adds u a i p
          rw [Body.afterHeader_noData same noData] at adds
          rw [Body.packet_noData same noData]
          exact follows_adds rfl adds
      · rename_i other
        split at h
        · exact absurd h (by simp)
        · rename_i offset v processed
          split at h
          · exact absurd h (by simp)
          · rename_i v' looked
            obtain rfl := Except.ok.inj h
            obtain ⟨-, -, -, size, -⟩ := attachInfo_accounts attached
            exact parsed_follows size other processed looked

theorem keepsInfo_locked {w w' : World} {bans : Bool} (kept : KeepsInfo i bans w w') :
    w'.lockInfo .http (w'.flows a) = w.lockInfo .http (w.flows a) := by
  unfold World.lockInfo
  rw [kept.flows, kept.infoCache]

/-- A packet of a flow whose info is not banned. -/
theorem processFlow_tracked {b : Body} (h : s.processFlow a p = .ok t)
    (known : s.tracked a = some { banned := false, body := b }) :
    t.tracked a = some
        { banned := (b.packet s.banDomains p).banned, body := (b.packet s.banDomains p).body } ∧
      t.totalL7Bytes = s.totalL7Bytes + (b.packet s.banDomains p).count ∧
      t.payloads7 = (b.packet s.banDomains p).slices.map (fun sl => (a, sl)) ++ s.payloads7 := by
  obtain ⟨r, u, attached, cases⟩ := processFlow_cases h
  have info : s.tracked a =
      r.map fun i => { banned := (u.world.infos i).isBanned, body := (u.infos i).body } :=
    attachInfo_tracked (s := { s with httpHeaderSize := 0 }) attached
  obtain ⟨total, payloads, ban, -, -⟩ := attachInfo_accounts attached
  rw [known] at info
  rcases cases with ⟨rfl, idle⟩ | ⟨i, rfl, free, follows⟩
  · cases r with
    | none => exact absurd info (by simp)
    | some i =>
      obtain ⟨free, -⟩ := Tracked.mk.inj (Option.some.inj info)
      exact absurd (free.trans (idle i rfl)) (by simp)
  · obtain ⟨-, body⟩ := Tracked.mk.inj (Option.some.inj info)
    have ban : u.banDomains = s.banDomains := ban
    rw [← body, ban] at follows
    have locked := World.attachInfo_locked (attachInfo_ok attached)
    have locked' := (keepsInfo_locked (a := a) follows.kept).trans locked
    refine ⟨?_, follows.total.trans (by rw [total]), follows.payloads.trans (by rw [payloads])⟩
    rw [tracked_locked locked', follows.kept.banned, free, follows.body, Bool.false_or]

/-- Nothing is counted for a flow that gets no info, or a banned one. -/
theorem processFlow_untracked (h : s.processFlow a p = .ok t)
    (idle : ∀ b, s.tracked a ≠ some { banned := false, body := b }) :
    t.tracked a = s.tracked a ∧ t.totalL7Bytes = s.totalL7Bytes ∧ t.payloads7 = s.payloads7 := by
  obtain ⟨r, u, attached, cases⟩ := processFlow_cases h
  have info : s.tracked a =
      r.map fun i => { banned := (u.world.infos i).isBanned, body := (u.infos i).body } :=
    attachInfo_tracked (s := { s with httpHeaderSize := 0 }) attached
  obtain ⟨total, payloads, -, -, -⟩ := attachInfo_accounts attached
  rcases cases with ⟨rfl, -⟩ | ⟨i, rfl, free, -⟩
  · refine ⟨?_, total, payloads⟩
    cases r with
    | none => exact (attachInfo_none attached).trans info.symm
    | some i => exact (tracked_locked (World.attachInfo_locked (attachInfo_ok attached))).trans info.symm
  · refine absurd info ?_
    simp only [Option.map_some, free]
    exact idle _

end HTTPProtocol

end AIEngine
