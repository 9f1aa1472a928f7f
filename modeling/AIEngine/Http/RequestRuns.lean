import AIEngine.Http.Body
import AIEngine.Http.Homes
import AIEngine.Http.RequestLine

/-!
# Requests that are seen

A request line is read only when the last packet of the flow went the other way. What its info knows
of it afterwards is read off the state before it.
-/

namespace AIEngine

namespace World

variable {w w' : World} {i : Obj} {x : StringField} {value : Bytes}

/-- Attaching another string does not change the octets of the uri. -/
theorem holds_others (own : i.home = .info .http) (homed : w.HttpHomed)
    (others : OtherStrings x i w w') (other : StringField.uri ≠ x) (value : Bytes) :
    w'.Holds i .uri value ↔ w.Holds i .uri value := by
  unfold Holds
  rw [others_lock others other]
  refine exists_congr fun o => and_congr_right fun locked => ?_
  have home := homed.pointers i own .uri o (lockString_some locked).1
  have away : o.home ≠ .string .http x := by
    rw [home]
    simp [other]
  rw [others.names o away]

theorem attachInfo_becomes {a : Obj} {r : Option Obj} (h : w.attachInfo .http a = .ok (r, w'))
    (pointer : Option Obj) (value name : Bytes) :
    w'.UriBecomes pointer value name ↔ w.UriBecomes pointer value name := by
  obtain ⟨strings, maps, names⟩ := HTTPProtocol.attachInfo_strings h
  have lock : w'.lockString .http pointer = w.lockString .http pointer :=
    lockString_congr (fun string => stringAlive_congr fun y => by
      rw [show w'.cache (.string .http y) = _ from strings y, maps]
      exact Iff.rfl) pointer
  unfold UriBecomes Refers
  rw [maps, names, strings, lock]

end World

namespace HTTPProtocol

open World HTTPHeader

variable {s t u v : HTTPProtocol} {a i : Obj} {p : HttpPacket} {r : RequestLine}

/-! ### The uri behind the header lines -/

theorem processParameter_world {q : HttpParameter} {value : Bytes} {more : Bool}
    (h : processParameter i s q value = .ok (more, t)) :
    t.world = s.world ∨ ∃ x always countHit, StringField.uri ≠ x ∧
      s.world.intern .http x always countHit i value = .ok t.world := by
  cases processParameter_ran h with
  | banned found => exact Or.inl rfl
  | host w allowed attached => exact Or.inr ⟨.host, _, _, by decide, attached⟩
  | userAgent w attached => exact Or.inr ⟨.ua, _, _, by decide, attached⟩
  | contentLength length read => exact Or.inl rfl
  | noLength read => exact Or.inl rfl

theorem processParameter_holds {q : HttpParameter} {value : Bytes} {more : Bool}
    (own : i.home = .info .http) (homed : s.world.HttpHomed)
    (h : processParameter i s q value = .ok (more, t)) (name : Bytes) :
    t.world.HttpHomed ∧ (t.world.Holds i .uri name ↔ s.world.Holds i .uri name) := by
  rcases processParameter_world h with same | ⟨x, always, countHit, other, attached⟩
  · rw [same]
    exact ⟨homed, Iff.rfl⟩
  · exact ⟨httpHomed_intern homed attached,
      holds_others own homed (intern_others homed attached) other name⟩

theorem runLines_holds {ls : List Line} {stop : Option Nat} (own : i.home = .info .http)
    (homed : s.world.HttpHomed) (h : runLines (processParameter i) s ls = .ok (t, stop))
    (name : Bytes) : t.world.Holds i .uri name ↔ s.world.Holds i .uri name := by
  induction ls generalizing s with
  | nil =>
    obtain ⟨rfl, -⟩ := Prod.mk.inj (Except.ok.inj h)
    exact Iff.rfl
  | cons l rest ih =>
    rcases runLines_cons h with ⟨stopped, -⟩ | ⟨v, called, later⟩
    · exact (processParameter_holds own homed stopped name).2
    · obtain ⟨homed', same⟩ := processParameter_holds own homed called name
      exact (ih homed' later).trans same

/-- Behind a header without a banned host the info has the uri that it had before. -/
theorem parseHeader_holds {header : Bytes} (own : i.home = .info .http) (homed : s.world.HttpHomed)
    (h : s.parseHeader i header = .ok t)
    (kept : bannedAt s.banDomains (lines header {} header) = none) (name : Bytes) :
    t.world.Holds i .uri name ↔ s.world.Holds i .uri name := by
  obtain ⟨u, r, ran, stop⟩ := parseHeader_ran h
  obtain ⟨-, -, stops, -⟩ := runLines_body ran
  have same := runLines_holds own homed ran name
  rcases stop with ⟨-, rfl⟩ | ⟨k, rfl, -⟩
  · exact same
  · exact absurd (stops.trans kept) (by simp)

theorem extractUri_becomes {offset : Nat} (request : isResponse p = false) (positive : 0 < offset)
    (h : s.extractUri i p = .ok (offset, t)) (name : Bytes) :
    t.world.Holds i .uri name ↔
      s.world.UriBecomes ((s.world.infos i).strings .uri) (requestUri p) name := by
  unfold isResponse at request
  rcases extractUri_ran h with ⟨response, -⟩ | ⟨-, rfl, -⟩ |
    ⟨-, method, k, uri, w, found, version, cut, ran, rfl⟩
  · exact absurd (request.symm.trans response) Bool.false_ne_true
  · exact absurd positive (Nat.lt_irrefl 0)
  · have same : requestUri p = uri := by
      unfold requestUri
      simp only [found, version, cut]
    rw [same]
    exact attachUri_becomes ran name

/-- Unless a host bans the flow, the info has the uri of the request. -/
theorem processRequestsAndResponses_holds {offset : Nat} (own : i.home = .info .http)
    (stocked : s.world.Stocked) (homed : s.world.HttpHomed) (request : isResponse p = false)
    (positive : 0 < headerStart p) (kept : ¬s.Bans p)
    (h : s.processRequestsAndResponses i p = .ok (offset, t)) (name : Bytes) :
    t.world.Holds i .uri name ↔
      s.world.UriBecomes ((s.world.infos i).strings .uri) (requestUri p) name := by
  obtain ⟨u, extracted, -, ban⟩ := extractUri_returns (i := i) (p := p) stocked
  have homed' := (extractUri_firstLine own stocked homed extracted positive).homed
  have first := extractUri_becomes request positive extracted name
  unfold processRequestsAndResponses at h
  rw [extracted] at h
  simp only [if_pos positive] at h
  split at h
  · rename_i long
    rw [HTTPHeader.substr_rest (by omega)] at h
    simp only at h
    split at h
    · rename_i v parsed
      obtain ⟨-, rfl⟩ := Prod.mk.inj (Except.ok.inj h)
      refine (parseHeader_holds (s := { u with httpHeaderSize := int16 (headerStart p) }) own homed'
        parsed ?_ name).trans first
      show bannedAt u.banDomains _ = none
      rw [ban, ← headerLines_long positive (by omega)]
      exact (bannedAt_none_iff s.banDomains _).mpr kept
    · exact absurd h (by simp)
  · obtain ⟨-, rfl⟩ := Prod.mk.inj (Except.ok.inj h)
    exact first

/-! ### The packet -/

theorem int16_fits_iff (n : Int) : int16 n = n ↔ -32768 ≤ n ∧ n < 32768 := by
  unfold int16
  rw [Int.bmod_def]
  split <;> omega

theorem request_start {rest : Bytes} (payload : p.payload = r.octets ++ rest) :
    isResponse p = false ∧ 0 < headerStart p := by
  have starts : r.method <+: p.payload := by
    rw [payload, RequestLine.octets, List.append_assoc]
    exact List.prefix_append _ _
  obtain ⟨request, found⟩ := method_found r.registered starts
  refine ⟨request, ?_⟩
  have place := find_target r rest
  rw [← payload] at place
  unfold headerStart
  rw [if_neg (by simp [request]), found, Option.isSome_some, if_pos rfl]
  have version : ∃ k, Octets.find (Octets.ascii "HTTP/1.") p.payload = some (k + 1) := by
    cases inside : Octets.find marker r.target with
    | some k =>
      rw [inside] at place
      exact ⟨r.method.length + k, place.trans (congrArg some (by omega))⟩
    | none =>
      rw [inside] at place
      exact ⟨r.method.length + (r.target.length + 1), place.trans (congrArg some (by omega))⟩
  obtain ⟨k, version⟩ := version
  rw [version]
  exact Nat.succ_pos _

theorem infoState_locked (locked : s.world.lockInfo .http (s.world.flows a) = some i) :
    s.infoState a = some (s.world.infos i, s.infos i) := by
  unfold infoState
  rw [locked]

/-- A flow for which there is an info gets it. -/
theorem attachInfo_of_state {info : Info} {http : HTTPInfo}
    (known : s.infoState a = some (info, http)) :
    ∃ i u, s.attachInfo a = .ok (some i, u) ∧ u.world.infos i = info ∧ u.infos i = http := by
  have found : ∃ i u, s.attachInfo a = .ok (some i, u) := by
    unfold infoState at known
    unfold attachInfo World.attachInfo
    cases locked : s.world.lockInfo .http (s.world.flows a) with
    | some i =>
      simp only [Option.isSome_some, if_true]
      exact ⟨i, _, rfl⟩
    | none =>
      rw [locked] at known
      simp only at known ⊢
      split at known
      · rename_i i c acquired
        rw [acquired]
        simp only [Option.isSome_none, Bool.false_eq_true, if_false]
        exact ⟨i, _, rfl⟩
      · exact absurd known (by simp)
  obtain ⟨i, u, attached⟩ := found
  refine ⟨i, u, attached, ?_⟩
  have state := (attachInfo_state attached).1
  obtain ⟨same, same'⟩ := Prod.mk.inj (Option.some.inj (known.symm.trans state))
  exact ⟨same.symm, same'.symm⟩

theorem headerData_requests (s : HTTPProtocol) (a i : Obj) (p : HttpPacket) :
    ((s.headerData a i p).infos i).totalRequests = (s.infos i).totalRequests := by
  unfold headerData setHTTPDataDirection
  rw [setInfo_same]
  by_cases data : (s.infos i).haveData = true
  · by_cases more : 0 < Counter.int32 ((s.infos i).dataChunkLength -
        Counter.int32 ((p.payload.length : Int) - s.httpHeaderSize))
    · simp only [if_pos data, if_pos more]
      simp [processPayloadl7]
    · simp only [if_pos data, if_neg more]
      simp
  · simp only [if_neg data]

theorem lookupDomain_requests {d : FlowDirection} {offset : Nat}
    (h : s.lookupDomain i d offset = .ok t) :
    (t.infos i).totalRequests = (s.infos i).totalRequests := by
  rcases lookupDomain_ran h with rfl | ⟨d, rfl⟩
  · rfl
  · rw [setInfo_same]

/-- `processFlow` from the point where the packet is taken for a request or a response. -/
def afterInfo (s : HTTPProtocol) (a i : Obj) (p : HttpPacket) : Except Failure HTTPProtocol :=
  match s.processRequestsAndResponses i p with
  | .error e => .error e
  | .ok (offset, s) =>
    match s.lookupDomain i p.direction offset with
    | .error e => .error e
    | .ok s => .ok (s.headerData a i p)

theorem processFlow_parsed (attached : { s with httpHeaderSize := 0 }.attachInfo a = .ok (some i, u))
    (free : (u.world.infos i).isBanned = false) (other : (u.infos i).direction ≠ p.direction) :
    s.processFlow a p = u.afterInfo a i p := by
  unfold processFlow
  rw [attached]
  simp only [free, Bool.false_eq_true, if_false, if_neg other]
  rfl

/-- A packet that is parsed throws, looks up a uri that is not there, or is processed. -/
theorem afterInfo_returns_iff (stocked : s.world.Stocked) :
    (∃ t, s.afterInfo a i p = .ok t) ↔
      ¬Overflowing s.banDomains (headerLines p) ∧
        s.afterInfo a i p ≠ .error (.fault .nullDereference) := by
  unfold afterInfo
  rcases processRequestsAndResponses_cases (i := i) (p := p) stocked with
    ⟨overflowing, threw⟩ | ⟨fine, offset, t, processed⟩
  · rw [threw]
    refine iff_of_false ?_ fun both => both.1 overflowing
    rintro ⟨t, returned⟩
    exact absurd returned (by simp)
  · rw [processed]
    simp only
    cases looked : t.lookupDomain i p.direction offset with
    | error e =>
      obtain rfl := lookupDomain_error looked
      refine iff_of_false ?_ fun both => both.2 rfl
      rintro ⟨t, returned⟩
      exact absurd returned (by simp)
    | ok u => exact iff_of_true ⟨_, rfl⟩ ⟨fine, by simp⟩

theorem sees_parsed_iff (rooted : s.world.HttpRooted)
    (locked : s.world.lockInfo .http (s.world.flows a) = some i) (zero : s.httpHeaderSize = 0)
    (request : isResponse p = false) (positive : 0 < headerStart p) (forward : p.direction = .forward) :
    (∃ t info' http', s.afterInfo a i p = .ok t ∧ t.infoState a = some (info', http') ∧
      t.world.Refers (info'.strings .uri) r.target ∧
        http'.totalRequests = (s.infos i).totalRequests + 1) ↔
      ¬Overflowing s.banDomains (headerLines p) ∧ ¬s.Bans p ∧
        s.world.UriBecomes ((s.world.infos i).strings .uri) (requestUri p) r.target ∧
        -32768 ≤ (s.infos i).totalRequests + 1 ∧ (s.infos i).totalRequests + 1 < 32768 := by
  have own := rooted_info rooted locked
  unfold afterInfo
  rcases processRequestsAndResponses_cases (i := i) (p := p) rooted.stocked with
    ⟨overflowing, threw⟩ | ⟨fine, -⟩
  · rw [threw]
    refine iff_of_false ?_ fun all => all.1 overflowing
    rintro ⟨t, info', http', returned, -⟩
    exact absurd returned (by simp)
  · obtain ⟨u, processed, parsed⟩ :=
      processRequestsAndResponses_parsed own rooted.stocked rooted.homed fine
    have parsed := parsed positive
    obtain ⟨-, -, -, keeps⟩ := processRequestsAndResponses_body zero processed
    rw [processed]
    simp only
    cases looked : u.lookupDomain i p.direction (headerStart p) with
    | error e =>
      obtain rfl := lookupDomain_error looked
      rw [forward, lookupDomain_null parsed] at looked
      refine iff_of_false ?_ ?_
      · rintro ⟨t, info', http', returned, -⟩
        exact absurd returned (by simp)
      · rintro ⟨-, kept, uri, -⟩
        obtain ⟨o, found, -⟩ := (processRequestsAndResponses_holds own rooted.stocked rooted.homed
          request positive kept processed r.target).mpr uri
        exact absurd (found.symm.trans (parsed.uri.mpr looked.2.1)) (by simp)
    | ok v =>
      have world : (v.headerData a i p).world = u.world := by
        rw [headerData_world, lookupDomain_world looked]
      have locked' : (v.headerData a i p).world.lockInfo .http
          ((v.headerData a i p).world.flows a) = some i := by
        rw [world]
        exact (keepsInfo_locked keeps).trans locked
      have requests : ((v.headerData a i p).infos i).totalRequests =
          int16 ((s.infos i).totalRequests + 1) := by
        rw [headerData_requests, lookupDomain_requests looked, parsed.requests, requestsAfter, request]
        rfl
      have refers : (v.headerData a i p).world.Refers
          (((v.headerData a i p).world.infos i).strings .uri) r.target ↔
            u.world.Holds i .uri r.target := by
        rw [world]
        rfl
      have fits := int16_fits_iff ((s.infos i).totalRequests + 1)
      constructor
      · rintro ⟨t, info', http', returned, state, uri, counted⟩
        obtain rfl := Except.ok.inj returned
        obtain ⟨rfl, rfl⟩ := Prod.mk.inj (Option.some.inj
          ((infoState_locked locked').symm.trans state))
        have held := refers.mp uri
        have kept : ¬s.Bans p := by
          intro bans
          obtain ⟨o, found, -⟩ := held
          exact absurd (found.symm.trans (parsed.uri.mpr (Or.inl bans))) (by simp)
        refine ⟨fine, kept, ?_, fits.mp (requests.symm.trans counted)⟩
        exact (processRequestsAndResponses_holds own rooted.stocked rooted.homed request positive kept
          processed r.target).mp held
      · rintro ⟨-, kept, uri, count⟩
        have held := (processRequestsAndResponses_holds own rooted.stocked rooted.homed request
          positive kept processed r.target).mpr uri
        exact ⟨_, _, _, rfl, infoState_locked locked', refers.mpr held, requests.trans (fits.mpr count)⟩

/-- The uri of the info is the target, and one more request is counted. -/
def SeesRequest (s : HTTPProtocol) (a : Obj) (p : HttpPacket) (r : RequestLine) : Prop :=
  ∃ info http, s.infoState a = some (info, http) ∧
    ∃ t info' http', s.processFlow a p = .ok t ∧ t.infoState a = some (info', http') ∧
      t.world.Refers (info'.strings .uri) r.target ∧ http'.totalRequests = http.totalRequests + 1

/-- The info of the flow is not banned and waits for no data. -/
def Idle (s : HTTPProtocol) (a : Obj) : Prop :=
  ∀ info http, s.infoState a = some (info, http) → info.isBanned = false ∧ http.haveData = false

/-- What it takes: the last packet of the flow went the other way; the packet has neither a length that does not fit
into an `int` nor a banned host; the map or the pool gives a string with the target for the octets
that are taken for it; the count still fits into an `int16_t`. -/
structure CanSee (s : HTTPProtocol) (p : HttpPacket) (r : RequestLine) (info : Info)
    (http : HTTPInfo) : Prop where
  direction : http.direction ≠ .forward
  fine : ¬Overflowing s.banDomains (headerLines p)
  kept : ¬s.Bans p
  uri : s.world.UriBecomes (info.strings .uri) (requestUri p) r.target
  count : -32768 ≤ http.totalRequests + 1 ∧ http.totalRequests + 1 < 32768

theorem sees_request_iff {rest : Bytes} (rooted : s.world.HttpRooted) (idle : s.Idle a)
    (forward : p.direction = .forward) (payload : p.payload = r.octets ++ rest) :
    s.SeesRequest a p r ↔
      ∃ info http, s.infoState a = some (info, http) ∧ s.CanSee p r info http := by
  unfold SeesRequest
  refine exists_congr fun info => exists_congr fun http => and_congr_right fun known => ?_
  obtain ⟨free, noData⟩ := idle info http known
  obtain ⟨request, positive⟩ := request_start payload
  obtain ⟨i, u, attached, rfl, rfl⟩ :=
    attachInfo_of_state (s := { s with httpHeaderSize := 0 }) known
  have got := attachInfo_ok attached
  have rooted' := rooted_attachInfo rooted got
  have locked := attachInfo_locked got
  have own := rooted_info rooted' locked
  have ban : u.banDomains = s.banDomains := (attachInfo_infoFor attached).2
  have becomes := attachInfo_becomes got ((u.world.infos i).strings .uri) (requestUri p) r.target
  by_cases same : (u.infos i).direction = .forward
  · refine iff_of_false ?_ fun sees => sees.direction same
    rintro ⟨t, info', http', returned, state, -, counted⟩
    have data : s.processFlow a p = .ok (u.headerData a i p) := by
      unfold processFlow
      rw [attached]
      simp [free, forward, same, noData]
    obtain rfl := Except.ok.inj (returned.symm.trans data)
    have locked' : (u.headerData a i p).world.lockInfo .http ((u.headerData a i p).world.flows a) =
        some i := by
      rw [headerData_world]
      exact locked
    have after := state.symm.trans (infoState_locked locked')
    obtain ⟨-, rfl⟩ := Prod.mk.inj (Option.some.inj after)
    rw [headerData_requests] at counted
    omega
  · have other : (u.infos i).direction ≠ p.direction := by
      rw [forward]
      exact same
    obtain ⟨-, -, -, size, -⟩ := attachInfo_accounts attached
    have bans : u.Bans p ↔ s.Bans p := by
      unfold Bans
      rw [ban]
    have packet := processFlow_parsed attached free other
    rw [packet, sees_parsed_iff rooted' locked size request positive forward, ban, bans, becomes]
    constructor
    · rintro ⟨fine, kept, uri, count⟩
      exact ⟨same, fine, kept, uri, count⟩
    · rintro ⟨-, fine, kept, uri, count⟩
      exact ⟨fine, kept, uri, count⟩

/-! ### Runs -/

/-- In every state of every run, the forward packets that begin with a request line and that no data
is awaited before. -/
theorem always_sees_iff (objects : CacheId → Nat) (layer : Option Nat) (events : List Event) :
    Transition.Always step
      (fun s => ∀ a p r rest, s.Idle a → p.direction = .forward →
        p.payload = RequestLine.octets r ++ rest →
        (s.SeesRequest a p r ↔
          ∃ info http, s.infoState a = some (info, http) ∧ s.CanSee p r info http))
      (start objects layer) events :=
  Transition.always_mono (fun _ rooted _ _ _ _ idle forward payload =>
    sees_request_iff rooted idle forward payload) (always_rooted objects layer events)

/-- Two requests, and no response between them. -/
theorem not_always_sees :
    ¬∀ objects layer events, Transition.Always step
      (fun s => ∀ a p r rest, s.Idle a → p.direction = .forward →
        p.payload = RequestLine.octets r ++ rest → s.SeesRequest a p r)
      (start objects layer) events := by
  intro h
  have before : ((Transition.run step (start (fun _ => 2) (some 0)) [.openFlow ⟨.flow 0, 0⟩ 0,
      .packet ⟨.flow 0, 0⟩ { payload := Octets.ascii "GET /a HTTP/1.1\r\n\r\n"
                             direction := .forward }]).bind fun s =>
      (s.infoState ⟨.flow 0, 0⟩).map fun st => (st.1.isBanned, st.2)) =
        some (false, { direction := .forward, totalRequests := 1 }) := by decide +kernel
  have after : ((Transition.run step (start (fun _ => 2) (some 0)) [.openFlow ⟨.flow 0, 0⟩ 0,
      .packet ⟨.flow 0, 0⟩ { payload := Octets.ascii "GET /a HTTP/1.1\r\n\r\n"
                             direction := .forward }]).bind fun s =>
      (s.processFlow ⟨.flow 0, 0⟩ { payload := Octets.ascii "GET /b HTTP/1.1\r\n\r\n"
                                    direction := .forward }).toOption.bind fun t =>
        (t.infoState ⟨.flow 0, 0⟩).map fun st => st.2.totalRequests) = some 1 := by decide +kernel
  obtain ⟨s, reached, known⟩ := Option.bind_eq_some_iff.mp before
  obtain ⟨⟨info, http⟩, known, same⟩ := Option.map_eq_some_iff.mp known
  obtain ⟨free, rfl⟩ := Prod.mk.inj same
  have idle : s.Idle ⟨.flow 0, 0⟩ := by
    intro info' http' known'
    obtain ⟨rfl, rfl⟩ := Prod.mk.inj (Option.some.inj (known.symm.trans known'))
    exact ⟨free, rfl⟩
  obtain ⟨info', http', known', t, later, http, returned, state, -, counted⟩ :=
    Transition.always_final (h _ _ _) reached ⟨.flow 0, 0⟩
      { payload := Octets.ascii "GET /b HTTP/1.1\r\n\r\n", direction := .forward }
      { method := Octets.ascii "GET", target := Octets.ascii "/b", minor := 0x31
        registered := by decide, filled := by decide, unspaced := by decide }
      (Octets.ascii "\r\n") idle rfl (by decide)
  obtain ⟨-, rfl⟩ := Prod.mk.inj (Option.some.inj (known.symm.trans known'))
  have requests : (t.infoState ⟨.flow 0, 0⟩).map (fun st => st.2.totalRequests) = some 1 := by
    rw [reached, Option.bind_some, returned] at after
    exact after
  rw [state] at requests
  exact absurd (counted.symm.trans (Option.some.inj requests)) (by decide)

end HTTPProtocol

end AIEngine
