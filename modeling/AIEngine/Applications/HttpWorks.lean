import AIEngine.Applications.Works
import AIEngine.Http.Exceptions

/-!
# Packets of HTTP, as those of the other protocols

A packet of HTTP that comes to an end does to the world what the packets of the other protocols do,
and nothing once the info is banned.
-/

namespace AIEngine.HTTPProtocol

open World HTTPHeader

variable {s t : HTTPProtocol} {a i : Obj}

theorem attaches_touches {w w' : World} (h : Attaches i w w') : Touches .http a i w w' := by
  obtain ⟨found, ran⟩ := h
  refine @runActions_rule (Touches .http a i w) _ _ ?_ found _ _ (touches_refl w) ran
  intro u u' x always countHit value before attached
  exact touches_trans before (touches_one (.string x always countHit value attached))

theorem does_touches {w w' : World} (h : Does i w w') : Touches .http a i w w' := by
  rcases h with attaches | ⟨w₁, attaches, rfl⟩
  · exact attaches_touches attaches
  · exact touches_trans (attaches_touches attaches) (touches_one (.ban rfl rfl))

/-! ### The counter of banned hosts -/

/-- A handler that goes on has counted no ban. -/
theorem processParameter_bans {q : HttpParameter} {v : Bytes}
    (h : processParameter i s q v = .ok (true, t)) : t.totalBanHosts = s.totalBanHosts := by
  cases processParameter_ran h with
  | host w allowed attached => rfl
  | userAgent w attached => rfl
  | contentLength length read => rfl
  | noLength read => rfl

theorem runLines_bans {ls : List Line} (h : runLines (processParameter i) s ls = .ok (t, none)) :
    t.totalBanHosts = s.totalBanHosts := by
  induction ls generalizing s with
  | nil =>
    obtain ⟨rfl, -⟩ := Prod.mk.inj (Except.ok.inj h)
    rfl
  | cons l rest ih =>
    rcases runLines_cons h with ⟨-, no⟩ | ⟨u, called, later⟩
    · exact absurd no (by simp)
    · exact (ih later).trans (processParameter_bans called)

/-- A host is counted as banned only where the info is marked. -/
theorem parseHeader_counted {header : Bytes} (h : s.parseHeader i header = .ok t)
    (grew : t.totalBanHosts ≠ s.totalBanHosts) : (t.world.infos i).isBanned = true := by
  obtain ⟨u, r, ran, ⟨rfl, rfl⟩ | ⟨k, -, rfl⟩⟩ := parseHeader_ran h
  · exact absurd (runLines_bans ran) grew
  · exact ban_isBanned (p := .http) (w := u.world) rfl

theorem noteResponseCode_bans (s : HTTPProtocol) (i : Obj) (code : Int) :
    (s.noteResponseCode i code).totalBanHosts = s.totalBanHosts := by
  unfold noteResponseCode
  split <;> rfl

theorem extractUri_bans {p : HttpPacket} {offset : Nat} (h : s.extractUri i p = .ok (offset, t)) :
    t.totalBanHosts = s.totalBanHosts := by
  rcases extractUri_ran h with ⟨-, rfl⟩ | ⟨-, -, rfl⟩ | ⟨-, method, k, uri, w, -, -, -, -, rfl⟩
  · exact noteResponseCode_bans (s.incTotalResponses i) i _
  · rfl
  · rfl

theorem processRequestsAndResponses_counted {p : HttpPacket} {offset : Nat}
    (h : s.processRequestsAndResponses i p = .ok (offset, t))
    (grew : t.totalBanHosts ≠ s.totalBanHosts) : (t.world.infos i).isBanned = true := by
  obtain ⟨k, u, extracted, rest⟩ := processRequestsAndResponses_ran h
  have uri := extractUri_bans extracted
  rcases rest with ⟨-, rfl⟩ | ⟨-, -, rfl⟩ | ⟨-, -, parsed⟩
  · exact absurd uri grew
  · exact absurd uri grew
  · exact parseHeader_counted parsed fun same => grew (same.trans uri)

theorem lookupDomain_bans {direction : FlowDirection} {offset : Nat}
    (h : s.lookupDomain i direction offset = .ok t) : t.totalBanHosts = s.totalBanHosts := by
  rcases lookupDomain_ran h with rfl | ⟨d, rfl⟩
  · rfl
  · rfl

theorem headerData_bans (s : HTTPProtocol) (a i : Obj) (p : HttpPacket) :
    (s.headerData a i p).totalBanHosts = s.totalBanHosts := by
  unfold headerData setHTTPDataDirection
  simp only
  split
  · split <;> rfl
  · rfl

theorem continueData_bans (s : HTTPProtocol) (a i : Obj) (p : HttpPacket) :
    (s.continueData a i p).totalBanHosts = s.totalBanHosts := by
  unfold continueData setHTTPDataDirection processPayloadl7
  simp only
  split <;> rfl

theorem attachInfo_bans {r : Option Obj} (h : s.attachInfo a = .ok (r, t)) :
    t.totalBanHosts = s.totalBanHosts := by
  obtain ⟨-, infos, shape, -⟩ := attachInfo_keeps h
  rw [shape]

/-! ### The packet -/

theorem processFlow_handled {p : HttpPacket} (h : s.processFlow a p = .ok t) :
    Handled .http a (t.totalBanHosts ≠ s.totalBanHosts) s.world t.world := by
  have self := setFlow_self s.world a
  unfold processFlow at h
  cases attached : { s with httpHeaderSize := 0 }.attachInfo a with
  | error e =>
    rw [attached] at h
    exact absurd h (by simp)
  | ok result =>
    obtain ⟨r, u⟩ := result
    have got := attachInfo_ok attached
    have counted := attachInfo_bans attached
    have kept : u.totalBanHosts = s.totalBanHosts := counted
    rw [attached] at h
    rw [← self] at got
    cases r with
    | none =>
      obtain rfl := Except.ok.inj h
      exact .without _ (fun _ => rfl) got fun grew => grew kept
    | some i =>
      have worked : Touches .http a i u.world t.world →
          (t.totalBanHosts ≠ u.totalBanHosts → (t.world.infos i).isBanned = true) →
          Handled .http a (t.totalBanHosts ≠ s.totalBanHosts) s.world t.world :=
        fun touches counted => .worked _ (fun _ => rfl) i u.world got touches
          fun _ grew => counted fun same => grew (same.trans kept)
      have idle : t.world = u.world → t.totalBanHosts = u.totalBanHosts →
          Handled .http a (t.totalBanHosts ≠ s.totalBanHosts) s.world t.world := by
        intro world bans
        apply worked
        · rw [world]
          exact touches_refl u.world
        · exact fun grew => absurd bans grew
      simp only at h
      split at h
      · obtain rfl := Except.ok.inj h
        exact idle rfl rfl
      · split at h
        · split at h
          · obtain rfl := Except.ok.inj h
            exact idle (continueData_world u a i p) (continueData_bans u a i p)
          · obtain rfl := Except.ok.inj h
            exact idle (headerData_world u a i p) (headerData_bans u a i p)
        · split at h
          · exact absurd h (by simp)
          · rename_i offset v processed
            split at h
            · exact absurd h (by simp)
            · rename_i v' looked
              obtain rfl := Except.ok.inj h
              have world : (v'.headerData a i p).world = v.world := by
                rw [headerData_world, lookupDomain_world looked]
              have bans : (v'.headerData a i p).totalBanHosts = v.totalBanHosts := by
                rw [headerData_bans, lookupDomain_bans looked]
              apply worked
              · rw [world]
                exact does_touches (processRequestsAndResponses_does processed)
              · intro grew
                rw [world]
                rw [bans] at grew
                exact processRequestsAndResponses_counted processed grew

/-- The early return. -/
theorem processFlow_latched {p : HttpPacket}
    (locked : s.world.lockInfo .http (s.world.flows a) = some i)
    (banned : (s.world.infos i).isBanned = true) :
    s.processFlow a p = .ok { s with httpHeaderSize := 0 } := by
  have attached : { s with httpHeaderSize := 0 }.attachInfo a =
      .ok (some i, { s with httpHeaderSize := 0 }) := by
    unfold attachInfo World.attachInfo
    simp only [locked, Option.isSome_some, if_true]
  unfold processFlow
  rw [attached]
  simp only [banned, if_true]

end AIEngine.HTTPProtocol
