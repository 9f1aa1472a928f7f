import AIEngine.Http.HTTPProtocol
import AIEngine.Http.Lines
import AIEngine.Resources.HttpRuns

/-!
# What the octets of a packet do to pools and maps

For the pools, the maps and the pointers of the infos a packet is a list of strings that are
attached, and maybe a ban behind them: the runs of `Resources.HttpRuns` have all that packets can do.
-/

namespace AIEngine

namespace World

theorem runActions_append {w : World} {p : L7Protocol} {i : Obj}
    (found : List (StringField × Bytes)) (later : List AppAction) :
    w.runActions p i (found.map (fun f => .string f.1 f.2) ++ later) =
      match w.runActions p i (found.map fun f => .string f.1 f.2) with
      | .ok w' => w'.runActions p i later
      | .error e => .error e := by
  induction found generalizing w with
  | nil => rfl
  | cons f rest ih =>
    simp only [List.map_cons, List.cons_append, runActions]
    split
    · exact ih
    · split
      · exact ih
      · rfl

end World

namespace HTTPProtocol

/-- From one world to another by attaching strings to the info. -/
def Attaches (i : Obj) (w w' : World) : Prop :=
  ∃ found : List (StringField × Bytes),
    w.runActions .http i (found.map fun f => .string f.1 f.2) = .ok w'

theorem attaches_refl (i : Obj) (w : World) : Attaches i w w := ⟨[], rfl⟩

theorem attaches_trans {i : Obj} {w w' w'' : World} (first : Attaches i w w')
    (second : Attaches i w' w'') : Attaches i w w'' := by
  obtain ⟨found, ran⟩ := first
  obtain ⟨found', ran'⟩ := second
  refine ⟨found ++ found', ?_⟩
  rw [List.map_append, World.runActions_append, ran]
  exact ran'

theorem attaches_one {i : Obj} {w w' : World} {x : StringField} {v : Bytes}
    {attach : World → Obj → Bytes → Except Fault World}
    (known : World.attachString .http x = some attach) (ran : attach w i v = .ok w') :
    Attaches i w w' := by
  refine ⟨[(x, v)], ?_⟩
  simp only [List.map_cons, List.map_nil, World.runActions, known, ran]

variable {s t : HTTPProtocol} {a i : Obj} {p : HttpPacket}

theorem onWorld_ok {r : Except Fault World} (h : s.onWorld r = .ok t) :
    ∃ w, r = .ok w ∧ t = { s with world := w } := by
  cases r with
  | ok w => exact ⟨w, rfl, (Except.ok.inj h).symm⟩
  | error e => exact absurd h (by simp [onWorld])

/-- What a handler has done when it returns, by the parameter and whether the loop goes on. -/
inductive ParameterRan (i : Obj) (s : HTTPProtocol) (v : Bytes) :
    HttpParameter → Bool → HTTPProtocol → Prop where
  | banned (found : s.banDomains.any (fun banned => banned v) = true) :
      ParameterRan i s v .host false { s with totalBanHosts := s.totalBanHosts + 1 }
  | host (w : World) (allowed : ¬s.banDomains.any (fun banned => banned v) = true)
      (attached : World.Http.attachHost s.world i v = .ok w) :
      ParameterRan i s v .host true { s with totalAllowHosts := s.totalAllowHosts + 1, world := w }
  | userAgent (w : World) (attached : World.Http.attachUseragent s.world i v = .ok w) :
      ParameterRan i s v .userAgent true { s with world := w }
  | contentLength (length : Int) (read : stoi v = .ok length) :
      ParameterRan i s v .contentLength true (s.setInfo i { s.infos i with
        contentLength := length, dataChunkLength := length, haveData := true })
  | noLength (read : stoi v = .error .invalidArgument) : ParameterRan i s v .contentLength true s

theorem processParameter_ran {q : HttpParameter} {v : Bytes} {more : Bool}
    (h : processParameter i s q v = .ok (more, t)) : ParameterRan i s v q more t := by
  cases q with
  | host =>
    simp only [processParameter, processHostParameter] at h
    split at h
    · rename_i found
      obtain ⟨rfl, rfl⟩ := Prod.mk.inj (Except.ok.inj h)
      exact .banned found
    · rename_i allowed
      split at h
      · rename_i u attached
        obtain ⟨rfl, rfl⟩ := Prod.mk.inj (Except.ok.inj h)
        obtain ⟨w, ran, rfl⟩ := onWorld_ok attached
        exact .host w allowed ran
      · exact absurd h (by simp)
  | userAgent =>
    simp only [processParameter, processUaParameter] at h
    split at h
    · rename_i u attached
      obtain ⟨rfl, rfl⟩ := Prod.mk.inj (Except.ok.inj h)
      obtain ⟨w, ran, rfl⟩ := onWorld_ok attached
      exact .userAgent w ran
    · exact absurd h (by simp)
  | contentLength =>
    simp only [processParameter, processContentLengthParameter] at h
    split at h
    · rename_i length read
      obtain ⟨rfl, rfl⟩ := Prod.mk.inj (Except.ok.inj h)
      exact .contentLength length read
    · rename_i read
      obtain ⟨rfl, rfl⟩ := Prod.mk.inj (Except.ok.inj h)
      exact .noLength read
    · exact absurd h (by simp)

/-- A handler attaches a string at most. -/
theorem processParameter_attaches {q : HttpParameter} {v : Bytes} {more : Bool}
    (h : processParameter i s q v = .ok (more, t)) : Attaches i s.world t.world := by
  cases processParameter_ran h with
  | banned found => exact attaches_refl i s.world
  | host w allowed attached => exact attaches_one (x := .host) rfl attached
  | userAgent w attached => exact attaches_one (x := .ua) rfl attached
  | contentLength length read => exact attaches_refl i s.world
  | noLength read => exact attaches_refl i s.world

theorem runLines_attaches {ls : List HTTPHeader.Line} {r : Option Nat}
    (h : HTTPHeader.runLines (processParameter i) s ls = .ok (t, r)) :
    Attaches i s.world t.world := by
  induction ls generalizing s with
  | nil =>
    obtain ⟨rfl, -⟩ := Prod.mk.inj (Except.ok.inj h)
    exact attaches_refl i s.world
  | cons l rest ih =>
    rcases HTTPHeader.runLines_cons h with ⟨stopped, -⟩ | ⟨u, called, later⟩
    · exact processParameter_attaches stopped
    · exact attaches_trans (processParameter_attaches called) (ih later)

/-- The strings of the packet, and the ban if a handler has asked for one. -/
def Does (i : Obj) (w w' : World) : Prop :=
  Attaches i w w' ∨ ∃ w₁, Attaches i w w₁ ∧
    w' = World.Http.releaseHttpInfoCache (w₁.setBanned i) i

theorem does_after {w w' w'' : World} (first : Attaches i w w') (second : Does i w' w'') :
    Does i w w'' := by
  rcases second with attaches | ⟨w₁, attaches, banned⟩
  · exact Or.inl (attaches_trans first attaches)
  · exact Or.inr ⟨w₁, attaches_trans first attaches, banned⟩

/-- What parsing a header does: the handlers run, and a ban that one of them asks for follows. -/
theorem parseHeader_ran {header : Bytes} (h : s.parseHeader i header = .ok t) :
    ∃ u r, HTTPHeader.runLines (processParameter i) s (HTTPHeader.lines header {} header) =
        .ok (u, r) ∧
      ((r = none ∧ t = { u with
          httpHeaderSize := int16 (u.httpHeaderSize + HTTPHeader.size header {} header) }) ∨
        ∃ k, r = some k ∧ t = { u with
          httpHeaderSize := int16 (u.httpHeaderSize + k)
          world := World.Http.releaseHttpInfoCache (u.world.setBanned i) i }) := by
  unfold parseHeader at h
  rw [HTTPHeader.parseHeader_eq] at h
  cases ran : HTTPHeader.runLines (processParameter i) s (HTTPHeader.lines header {} header) with
  | error e =>
    rw [ran] at h
    exact absurd h (by simp [HTTPHeader.outcome])
  | ok result =>
    obtain ⟨u, r⟩ := result
    rw [ran] at h
    refine ⟨u, r, rfl, ?_⟩
    cases r with
    | none => exact Or.inl ⟨rfl, (Except.ok.inj h).symm⟩
    | some k => exact Or.inr ⟨k, rfl, (Except.ok.inj h).symm⟩

theorem parseHeader_does {header : Bytes} (h : s.parseHeader i header = .ok t) :
    Does i s.world t.world := by
  obtain ⟨u, r, ran, stops⟩ := parseHeader_ran h
  have attaches := runLines_attaches ran
  rcases stops with ⟨-, rfl⟩ | ⟨k, -, rfl⟩
  · exact Or.inl attaches
  · exact Or.inr ⟨u.world, attaches, rfl⟩

theorem noteResponseCode_world (s : HTTPProtocol) (i : Obj) (code : Int) :
    (s.noteResponseCode i code).world = s.world := by
  unfold noteResponseCode
  split <;> rfl

/-- What cutting the uri does: a response is counted, a first line without a uri is passed over, and
the uri of a request is attached. -/
theorem extractUri_ran {offset : Nat} (h : s.extractUri i p = .ok (offset, t)) :
    (p.startsWith (Octets.ascii "HTTP/1") = true ∧
      t = (s.incTotalResponses i).noteResponseCode i (atoi ((p.payload ++ p.beyond).drop 8))) ∨
    (p.startsWith (Octets.ascii "HTTP/1") = false ∧ offset = 0 ∧ t = s) ∨
    (p.startsWith (Octets.ascii "HTTP/1") = false ∧ ∃ (method : Bytes) (k : Nat) (uri : Bytes)
        (w : World), methods.find? p.startsWith = some method ∧
      Octets.find (Octets.ascii "HTTP/1.") p.payload = some (k + 1) ∧
      substr p.payload (method.length + 1) ((k : Int) + 1 - (method.length + 1 : Nat) - 1) =
        .ok uri ∧
      World.Http.attachUri s.world i uri = .ok w ∧
      t = { s.incTotalRequests i with world := w }) := by
  unfold extractUri at h
  split at h
  · rename_i response
    refine Or.inl ⟨response, ?_⟩
    simp only at h
    split at h
    · exact (Prod.mk.inj (Except.ok.inj h)).2.symm
    · exact (Prod.mk.inj (Except.ok.inj h)).2.symm
  · rename_i other
    have other := Bool.eq_false_iff.mpr other
    split at h
    · obtain ⟨rfl, rfl⟩ := Prod.mk.inj (Except.ok.inj h)
      exact Or.inr (Or.inl ⟨other, rfl, rfl⟩)
    · rename_i method found
      split at h
      · rename_i k version
        simp only at h
        split at h
        · exact absurd h (by simp)
        · rename_i uri cut
          split at h
          · rename_i u attached
            obtain ⟨-, rfl⟩ := Prod.mk.inj (Except.ok.inj h)
            obtain ⟨w, ran, rfl⟩ := onWorld_ok attached
            exact Or.inr (Or.inr ⟨other, method, k, uri, w, found, version, cut, ran, rfl⟩)
          · exact absurd h (by simp)
      · obtain ⟨rfl, rfl⟩ := Prod.mk.inj (Except.ok.inj h)
        exact Or.inr (Or.inl ⟨other, rfl, rfl⟩)

theorem extractUri_attaches {offset : Nat} (h : s.extractUri i p = .ok (offset, t)) :
    Attaches i s.world t.world := by
  rcases extractUri_ran h with ⟨-, rfl⟩ | ⟨-, -, rfl⟩ | ⟨-, method, k, uri, w, -, -, -, ran, rfl⟩
  · rw [noteResponseCode_world]
    exact attaches_refl i s.world
  · exact attaches_refl i t.world
  · exact attaches_one (x := .uri) rfl ran

/-- A first line that is complete has header lines behind it, unless there are less than five
octets. -/
theorem processRequestsAndResponses_ran {offset : Nat}
    (h : s.processRequestsAndResponses i p = .ok (offset, t)) :
    ∃ k u, s.extractUri i p = .ok (k, u) ∧
      ((k = 0 ∧ t = u) ∨
        (0 < k ∧ p.payload.length ≤ k + 4 ∧ t = { u with httpHeaderSize := int16 k }) ∨
        (0 < k ∧ k + 4 < p.payload.length ∧
          parseHeader { u with httpHeaderSize := int16 k } i (p.payload.drop k) = .ok t)) := by
  unfold processRequestsAndResponses at h
  split at h
  · exact absurd h (by simp)
  · rename_i k u extracted
    refine ⟨k, u, extracted, ?_⟩
    split at h
    · rename_i positive
      simp only at h
      split at h
      · rename_i long
        rw [HTTPHeader.substr_rest (by omega)] at h
        simp only at h
        split at h
        · rename_i v parsed
          obtain ⟨-, rfl⟩ := Prod.mk.inj (Except.ok.inj h)
          exact Or.inr (Or.inr ⟨positive, by omega, parsed⟩)
        · exact absurd h (by simp)
      · rename_i short
        exact Or.inr (Or.inl ⟨positive, by omega, (Prod.mk.inj (Except.ok.inj h)).2.symm⟩)
    · exact Or.inl ⟨by omega, (Prod.mk.inj (Except.ok.inj h)).2.symm⟩

theorem processRequestsAndResponses_does {offset : Nat}
    (h : s.processRequestsAndResponses i p = .ok (offset, t)) : Does i s.world t.world := by
  obtain ⟨k, u, extracted, rest⟩ := processRequestsAndResponses_ran h
  have uri := extractUri_attaches extracted
  rcases rest with ⟨-, rfl⟩ | ⟨-, -, rfl⟩ | ⟨-, -, parsed⟩
  · exact Or.inl uri
  · exact Or.inl uri
  · have lines := parseHeader_does parsed
    exact does_after uri lines

/-- The domain that the host has matched is all that may be new. -/
theorem matchDomain_ran (s : HTTPProtocol) (i : Obj) :
    s.matchDomain i = s ∨
      ∃ d, s.matchDomain i = s.setInfo i { s.infos i with matchedHost := some d } := by
  unfold matchDomain
  split
  · split
    · split
      · rename_i d matched
        exact Or.inr ⟨d, rfl⟩
      · exact Or.inl rfl
    · exact Or.inl rfl
  · exact Or.inl rfl

theorem matchDomain_world (s : HTTPProtocol) (i : Obj) : (s.matchDomain i).world = s.world := by
  rcases matchDomain_ran s i with same | ⟨d, same⟩
  · rw [same]
  · rw [same]
    rfl

theorem lookupUri_ok {offset : Nat} (h : s.lookupUri i offset = .ok t) : t = s := by
  unfold lookupUri at h
  split at h
  · exact (Except.ok.inj h).symm
  · split at h
    · split at h
      · exact (Except.ok.inj h).symm
      · exact absurd h (by simp)
    · exact (Except.ok.inj h).symm

theorem lookupDomain_ran {direction : FlowDirection} {offset : Nat}
    (h : s.lookupDomain i direction offset = .ok t) :
    t = s ∨ ∃ d, t = s.setInfo i { s.infos i with matchedHost := some d } := by
  unfold lookupDomain at h
  split at h
  · rw [lookupUri_ok h]
    exact matchDomain_ran s i
  · exact Or.inl (Except.ok.inj h).symm

theorem lookupDomain_world {direction : FlowDirection} {offset : Nat}
    (h : s.lookupDomain i direction offset = .ok t) : t.world = s.world := by
  rcases lookupDomain_ran h with rfl | ⟨d, rfl⟩
  · rfl
  · rfl

theorem headerData_world (s : HTTPProtocol) (a i : Obj) (p : HttpPacket) :
    (s.headerData a i p).world = s.world := by
  unfold headerData setHTTPDataDirection
  simp only
  split
  · split <;> rfl
  · rfl

theorem continueData_world (s : HTTPProtocol) (a i : Obj) (p : HttpPacket) :
    (s.continueData a i p).world = s.world := by
  unfold continueData setHTTPDataDirection processPayloadl7
  simp only
  split <;> rfl

/-- Only the world and the info that is attached are not what they were. -/
theorem attachInfo_keeps {r : Option Obj} (h : s.attachInfo a = .ok (r, t)) :
    s.world.attachInfo .http a = .ok (r, t.world) ∧
      ∃ infos, t = { s with world := t.world, infos := infos } ∧
        (∀ j, r ≠ some j → infos j = s.infos j) ∧
        ∀ j, infos j = s.infos j ∨ infos j = (s.infos j).reset := by
  unfold attachInfo at h
  split at h
  · cases h
  · rename_i w attached
    cases h
    exact ⟨attached, s.infos, rfl, fun _ _ => rfl, fun _ => Or.inl rfl⟩
  · rename_i i w attached
    split at h
    · cases h
      exact ⟨attached, s.infos, rfl, fun _ _ => rfl, fun _ => Or.inl rfl⟩
    · cases h
      refine ⟨attached, _, rfl, fun j other => ?_, fun j => ?_⟩
      · exact if_neg fun same => other (congrArg some same.symm)
      · by_cases same : j = i
        · exact Or.inr (same ▸ if_pos rfl)
        · exact Or.inl (if_neg same)

theorem attachInfo_ok {r : Option Obj} (h : s.attachInfo a = .ok (r, t)) :
    s.world.attachInfo .http a = .ok (r, t.world) := (attachInfo_keeps h).1

/-- Everything a packet can do to the world: it gets an info, and if that is not banned, strings are
attached to it and it may be banned. -/
theorem processFlow_world (h : s.processFlow a p = .ok t) :
    ∃ r w, s.world.attachInfo .http a = .ok (r, w) ∧
      (t.world = w ∨ ∃ i, r = some i ∧ (w.infos i).isBanned = false ∧ Does i w t.world) := by
  unfold processFlow at h
  split at h
  · exact absurd h (by simp)
  · rename_i u attached
    obtain rfl := Except.ok.inj h
    have got := attachInfo_ok attached
    exact ⟨none, _, got, Or.inl rfl⟩
  · rename_i i u attached
    have got := attachInfo_ok attached
    refine ⟨some i, _, got, ?_⟩
    split at h
    · obtain rfl := Except.ok.inj h
      exact Or.inl rfl
    · rename_i notBanned
      split at h
      · split at h
        · obtain rfl := Except.ok.inj h
          exact Or.inl (continueData_world u a i p)
        · obtain rfl := Except.ok.inj h
          exact Or.inl (headerData_world u a i p)
      · split at h
        · exact absurd h (by simp)
        · rename_i offset v processed
          split at h
          · exact absurd h (by simp)
          · rename_i v' looked
            obtain rfl := Except.ok.inj h
            refine Or.inr ⟨i, rfl, by simpa using notBanned, ?_⟩
            rw [headerData_world, lookupDomain_world looked]
            exact processRequestsAndResponses_does processed

/-! ### Runs -/

inductive Event where
  | openFlow (a : Obj) (layer : Nat)
  | packet (a : Obj) (p : HttpPacket)
  | expire (a : Obj)
  | releaseCache
  /-- other domain managers, or other domains in them -/
  | managers (banDomains : Option (Bytes → Bool)) (domains : Option (Bytes → Option Nat))
      (domainName : Nat → Option DomainName)
  /-- what lies behind freed octets is written over -/
  | memory (sight : Nat → MapEntry → Bytes)

/-- A packet that does not come to an end stops the run. -/
def step (s : HTTPProtocol) : Event → Option HTTPProtocol
  | .openFlow a layer =>
    if a ∈ s.world.table then none
    else (s.world.openTcpFlow a layer).toOption.map fun w => { s with world := w }
  | .packet a p => if a ∈ s.world.table then (s.processFlow a p).toOption else none
  | .expire a => if a ∈ s.world.table then some { s with world := s.world.endFlow a } else none
  | .releaseCache => some { s with world := s.world.releaseCache .http s.world.table }
  | .managers ban domains names =>
    some { s with banDomains := ban, domains := domains, domainName := names }
  | .memory sight => some { s with world := s.world.overwrite sight }

/-- What an attached string leaves alone. -/
structure KeepsFlow (i : Obj) (w w' : World) : Prop where
  flows : w'.flows = w.flows
  table : w'.table = w.table
  infoCache : w'.cache (.info .http) = w.cache (.info .http)
  banned : (w'.infos i).isBanned = (w.infos i).isBanned

theorem setString_banned (w : World) (i j : Obj) (x : StringField) (r : Option Obj) :
    ((w.setString j x r).infos i).isBanned = (w.infos i).isBanned := by
  by_cases same : i = j <;> simp [World.setString, World.setInfo, same]

theorem intern_keeps {w w' : World} {x : StringField} {always countHit : Bool} {j : Obj}
    {value : Bytes} (h : w.intern .http x always countHit j value = .ok w') : KeepsFlow i w w' := by
  rcases World.intern_cases h with ⟨-, -, rfl⟩ | ⟨e, n, -, -, -, rfl⟩ | ⟨r, c, -, -, -, rfl⟩ |
    ⟨c, -, -, -, rfl⟩
  · exact ⟨rfl, rfl, rfl, rfl⟩
  · exact ⟨rfl, rfl, rfl, setString_banned _ i j x _⟩
  · refine ⟨World.setCache_flows .., World.setCache_table .., ?_, ?_⟩
    · show (w.setCache (.string .http x) c).cache (.info .http) = _
      exact World.cache_setCache_other (by simp)
    · refine (setString_banned _ i j x _).trans ?_
      show (((w.setCache _ c).setName _ _).infos i).isBanned = _
      simp [World.setName]
  · refine ⟨World.setCache_flows .., World.setCache_table .., World.cache_setCache_other (by simp),
      ?_⟩
    rw [World.setCache_infos]

theorem attaches_keeps {w w' : World} (h : Attaches i w w') : KeepsFlow i w w' := by
  obtain ⟨found, ran⟩ := h
  refine @World.runActions_rule (KeepsFlow i w) _ _ ?_ found _ _ ⟨rfl, rfl, rfl, rfl⟩ ran
  intro u u' x always countHit value kept attached
  obtain ⟨flows, table, infoCache, banned⟩ := intern_keeps (i := i) attached
  exact ⟨flows.trans kept.flows, table.trans kept.table, infoCache.trans kept.infoCache,
    banned.trans kept.banned⟩

/-- A packet is a packet of the runs above, or that and a ban. -/
theorem packet_run (live : a ∈ s.world.table) (h : s.processFlow a p = .ok t) :
    ∃ es, Transition.run Http.step s.world es = some t.world := by
  obtain ⟨r, w, attached, same | ⟨i, rfl, notBanned, does⟩⟩ := processFlow_world h
  · refine ⟨[.packet a []], ?_⟩
    have processed : s.world.processFlow .http a [] = .ok t.world := by
      unfold World.processFlow
      rw [attached, same]
      cases r with
      | none => rfl
      | some i => simp [World.runActions]
    simp only [Transition.run, Http.step, if_pos live, List.map_nil, processed]
    rfl
  · have strings : ∀ w', Attaches i w w' →
        ∃ found, Http.step s.world (.packet a found) = some w' := by
      rintro w' ⟨found, ran⟩
      have processed : s.world.processFlow .http a (found.map fun f => .string f.1 f.2) =
          .ok w' := by
        unfold World.processFlow
        rw [attached]
        simp only [notBanned, Bool.false_eq_true, if_false]
        exact ran
      refine ⟨found, ?_⟩
      simp only [Http.step, if_pos live, processed]
      rfl
    rcases does with attaches | ⟨w₁, attaches, banned⟩
    · obtain ⟨found, stepped⟩ := strings _ attaches
      exact ⟨[.packet a found], by rw [Transition.run_cons, stepped]; rfl⟩
    · obtain ⟨found, stepped⟩ := strings _ attaches
      obtain ⟨flows, table, infoCache, kept⟩ := attaches_keeps attaches
      have live' : a ∈ w₁.table := by
        rw [table]
        rcases World.attachInfo_cases attached with ⟨_, _, _, rfl⟩ | ⟨_, _, _, _, _, rfl⟩ |
          ⟨_, none, _, _⟩
        · exact live
        · exact live
        · exact absurd none (by simp)
      have locked : w₁.lockInfo .http (w₁.flows a) = some i := by
        rw [World.lockInfo, infoCache, flows]
        exact World.attachInfo_locked attached
      have processed : w₁.processFlow .http a [.ban] = .ok t.world := by
        unfold World.processFlow World.attachInfo
        rw [locked]
        simp only [kept, notBanned, Bool.false_eq_true, if_false]
        rw [banned]
        rfl
      refine ⟨[.packet a found, .ban a], ?_⟩
      rw [Transition.run_cons, stepped]
      show Transition.run Http.step w₁ [.ban a] = _
      simp only [Transition.run, Http.step, if_pos live', processed]
      rfl

/-- A step on the octets is a run of packets, bans and the rest on the world. -/
theorem step_run {e : Event} (h : s.step e = some t) :
    ∃ es, Transition.run Http.step s.world es = some t.world := by
  cases e with
  | openFlow a layer =>
    simp only [step] at h
    split at h
    · exact absurd h (by simp)
    · rename_i fresh
      obtain ⟨w, opened, rfl⟩ := Option.map_eq_some_iff.mp h
      refine ⟨[.openFlow a layer], ?_⟩
      simp only [Transition.run, Http.step, if_neg fresh, opened]
      rfl
  | packet a p =>
    simp only [step] at h
    split at h
    · rename_i live
      exact packet_run live (toOption_some h)
    · exact absurd h (by simp)
  | expire a =>
    simp only [step] at h
    split at h
    · rename_i live
      obtain rfl := Option.some.inj h
      exact ⟨[.expire a], by simp only [Transition.run, Http.step, if_pos live]; rfl⟩
    · exact absurd h (by simp)
  | releaseCache =>
    obtain rfl := Option.some.inj h
    exact ⟨[.releaseCache], rfl⟩
  | managers ban domains names =>
    obtain rfl := Option.some.inj h
    exact ⟨[], rfl⟩
  | memory sight =>
    obtain rfl := Option.some.inj h
    exact ⟨[.memory sight], rfl⟩

end HTTPProtocol

end AIEngine
