import AIEngine.Applications.EmptyUri
import AIEngine.Applications.EngineRuns

/-!
# Objects that are missing

Any pool may have run out when a packet comes. What the packet does not get should be left
unattached, and nothing should be read through the empty pointer.
-/

namespace AIEngine

namespace World

/-- An info that its pool does not have is left unattached, and so is a string that is not there. -/
structure Unattached (p : L7Protocol) (a : Obj) (w w' : World) : Prop where
  info : w.lockInfo p (w.flows a) = none → (w.cache (.info p)).total = 0 →
    (w'.flows a).info p = (w.flows a).info p ∧ w'.infos = w.infos
  strings : ∀ i, (w'.flows a).info p = some i → ∀ x s, (w'.infos i).strings x = some s →
    (w.infos i).strings x = some s ∨ w'.StringAlive p s

variable {w w' : World} {p : L7Protocol} {a i : Obj}

/-- Whatever is done with an info, its new pointers go to strings that are there. -/
theorem touches_pointers (h : Touches p a i w w') {x : StringField} {s : Obj}
    (pointer : (w'.infos i).strings x = some s) :
    (w.infos i).strings x = some s ∨ w'.StringAlive p s := by
  have marked : ∀ u : World, (∀ x s, (u.infos i).strings x = some s →
      (w.infos i).strings x = some s ∨ u.StringAlive p s) →
      ∀ x s, ((u.setBanned i).infos i).strings x = some s →
        (w.infos i).strings x = some s ∨ (u.setBanned i).StringAlive p s := by
    intro u before x s pointer
    refine before x s ?_
    simpa [setBanned, setInfo] using pointer
  refine @touches_rule _ _ _ _ _ (fun u => ∀ x s, (u.infos i).strings x = some s →
    (w.infos i).strings x = some s ∨ u.StringAlive p s) ?_ (fun _ _ => Or.inl) h x s pointer
  intro u u' before touch x s pointer
  cases touch with
  | string y always countHit value attached =>
    rcases intern_pointer attached pointer with old | alive
    · rcases before x s old with start | alive
      · exact Or.inl start
      · exact Or.inr ((intern_alive attached s).mpr alive)
    · exact Or.inr alive
  | anomaly pa noted =>
    subst noted
    exact before x s pointer
  | ban marks banned =>
    subst banned
    cases p with
    | http => exact absurd ((HTTPProtocol.ban_resets _ i x).symm.trans pointer) (by simp)
    | smtp => exact marked u before x s pointer
    | pop => exact marked u before x s pointer
    | imap => exact marked u before x s pointer
    | _ => exact absurd marks (by decide)

theorem handled_unattached {grew : Prop} (h : Handled p a grew w w') : Unattached p a w w' := by
  have flow : ∀ f : Flow, (∀ q, f.info q = (w.flows a).info q) →
      ((w.setFlow a f).flows a).info p = (w.flows a).info p := fun f pointers =>
    (setFlow_keepsInfos (p := p) (i := a) pointers).pointers a p
  have lock : ∀ f : Flow, (∀ q, f.info q = (w.flows a).info q) →
      (w.setFlow a f).lockInfo p ((w.setFlow a f).flows a) = w.lockInfo p (w.flows a) := by
    intro f pointers
    unfold lockInfo
    rw [flow f pointers]
    rfl
  cases h with
  | noted f pointers written kept =>
    subst written
    exact ⟨fun _ _ => ⟨flow f pointers, rfl⟩, fun i _ x s => Or.inl⟩
  | without f pointers failed kept =>
    rcases attachInfo_cases failed with ⟨j, none, -, -⟩ | ⟨j, c, none, -, -, -⟩ | ⟨c, -, -, rfl⟩
    · exact absurd none (by simp)
    · exact absurd none (by simp)
    · refine ⟨fun _ _ => ⟨?_, setCache_infos ..⟩, fun i _ x s pointer => Or.inl ?_⟩
      · rw [setCache_flows]
        exact flow f pointers
      · rw [setCache_infos] at pointer
        exact pointer
  | worked f pointers i w₁ attached touches counted =>
    obtain ⟨at', -⟩ := lockInfo_some (attachInfo_locked attached)
    obtain ⟨-, same⟩ := touches_spares at' touches
    rcases attachInfo_cases attached with ⟨j, -, locked, rfl⟩ |
      ⟨j, c, some, expired, acquired, rfl⟩ | ⟨c, none, -, -⟩
    · refine ⟨fun expired _ => ?_, fun k known x s pointer => ?_⟩
      · rw [lock f pointers, expired] at locked
        exact absurd locked (by simp)
      · obtain rfl := Option.some.inj (same.symm.trans known)
        exact touches_pointers touches pointer
    · obtain rfl := Option.some.inj some
      refine ⟨fun _ empty => ?_, fun k known x s pointer => ?_⟩
      · obtain ⟨room, -⟩ := Cache.acquire_some acquired
        have empty : ((w.setFlow a f).cache (.info p)).total = 0 := empty
        omega
      · obtain rfl := Option.some.inj (same.symm.trans known)
        rcases touches_pointers touches pointer with old | alive
        · simp [setFlow, setInfo] at old
        · exact Or.inr alive
    · exact absurd none (by simp)

end World

namespace Engine

open Ending

/-- The packet dereferences no empty pointer, and what is missing is left unattached. -/
def DegradesGracefully (e : Engine) (a : Obj) (p : L7Protocol) (packet : L7Packet) : Prop :=
  Ends NotNull (fun t => World.Unattached p a e.world t.world) (e.processFlow a packet p)

/-- The same for a payload of the frequency engine. -/
def PayloadDegrades (e : Engine) (a : Obj) (layer : Nat) (payload : Payload) : Prop :=
  Ends (fun fault => fault ≠ .nullDereference)
    (fun w => (e.world.frequency layer).Unattached (e.world.flows a) (w.flows a))
    (e.world.runApplication a (.frequency layer payload))

variable {e : Engine} {a : Obj}

theorem http_null_iff {packet : L7Packet} :
    e.processFlow a packet .http = .error (.fault .nullDereference) ↔
      HTTPProtocol.processFlow e.httpProtocol a packet =
        .error (.fault .nullDereference) := by
  simp only [processFlow]
  cases HTTPProtocol.processFlow e.httpProtocol a packet with
  | error f => simp [bind, Except.bind]
  | ok t => simp [bind, Except.bind]

theorem degrades_iff (sound : Sound e) (live : a ∈ e.world.table) (p : L7Protocol)
    (packet : L7Packet) :
    e.DegradesGracefully a p packet ↔
      ¬(p = .http ∧ e.httpProtocol.LooksUpNothing a packet) := by
  unfold DegradesGracefully
  by_cases http : p = .http
  · subst http
    have exact : e.processFlow a packet .http = .error (.fault .nullDereference) ↔
        e.httpProtocol.LooksUpNothing a packet :=
      http_null_iff.trans (HTTPProtocol.processFlow_null sound.pooled sound.homed live)
    rw [← exact]
    cases processed : e.processFlow a packet .http with
    | error f =>
      show f ≠ .fault .nullDereference ↔ _
      simp
    | ok t =>
      refine iff_of_true ?_ (by simp)
      exact World.handled_unattached (processFlow_handled sound.pooled.filled processed)
  · refine iff_of_true ?_ fun both => http both.1
    exact ends_weaken (processFlow_ends sound.pooled.filled http)
      fun _ handled => World.handled_unattached handled

theorem payloadDegrades_iff (sound : Sound e) (layer : Nat) (payload : Payload) :
    e.PayloadDegrades a layer payload ↔ ¬(e.world.frequency layer).Halved (e.world.flows a) := by
  unfold PayloadDegrades
  simp only [World.runApplication]
  rcases FrequencyProtocol.processFlow_cases (e.world.flows a) payload
    (World.filled_frequency sound.pooled.filled layer) with ⟨half, failed⟩ |
      ⟨whole, q, f, processed, -, unattached⟩
  · rw [failed]
    exact iff_of_false (fun ok => ok rfl) fun whole => whole half
  · rw [processed]
    refine iff_of_true ?_ whole
    show (e.world.frequency layer).Unattached _ _
    simpa [World.setFlow] using unattached

/-- In every state of every run, only two kinds of packets fail: those of HTTP that are looked up in a
set of uris without a uri, and those of the frequency engine that get the first of its two objects
alone. -/
theorem always_degrades_iff (objects : CacheId → Nat) (layer : Option Nat)
    (expressions : SIPExpressions) (events : List Event) :
    Transition.Always step
      (fun e => ∀ a ∈ e.world.table,
        (∀ p packet, e.DegradesGracefully a p packet ↔
          ¬(p = .http ∧ e.httpProtocol.LooksUpNothing a packet)) ∧
        (∀ k payload, e.PayloadDegrades a k payload ↔
          ¬(e.world.frequency k).Halved (e.world.flows a)))
      (start objects layer expressions) events := by
  refine Transition.always_mono (fun e sound a live => ⟨?_, ?_⟩)
    (always_sound objects layer expressions events)
  · exact degrades_iff sound live
  · exact payloadDegrades_iff sound

/-- Whether an empty pointer has been dereferenced. -/
def isNullDereference {α : Type} : Except Failure α → Bool
  | .error (.fault .nullDereference) => true
  | _ => false

theorem notNull_evaluates {α : Type} {Q : α → Prop} {r : Except Failure α} (h : Ends NotNull Q r) :
    isNullDereference r = false := by
  cases r with
  | ok t => rfl
  | error f =>
    cases f with
    | thrown e => rfl
    | fault f =>
      cases f with
      | nullDereference => exact absurd rfl h
      | outOfBounds => rfl

/-- The flow has matched a domain with a set of uris. Its second request bans it in the middle of the
header, which takes the uri away that is looked up then. -/
theorem not_always_degrades :
    ¬∀ objects layer expressions events, Transition.Always step
      (fun e => ∀ a ∈ e.world.table, (∀ p packet, e.DegradesGracefully a p packet) ∧
        ∀ k payload, e.PayloadDegrades a k payload) (start objects layer expressions) events := by
  intro h
  have degrades := h (fun _ => 1) (some 0)
    ⟨⟨fun _ => none, []⟩, ⟨fun _ => none, []⟩, ⟨fun _ => none, []⟩⟩
    [.httpManagers (some fun host => decide (host = Octets.ascii "bad.com"))
      (some fun host => if host = Octets.ascii "good.com" then some 0 else none)
      (fun _ => some { uriSet := some fun _ => false }),
    .openTcp ⟨.flow 0, 0⟩ 0,
    .packet .http ⟨.flow 0, 0⟩
      { payload := Octets.ascii "GET / HTTP/1.1\r\nHost: good.com\r\n\r\n", direction := .forward },
    .packet .http ⟨.flow 0, 0⟩
      { payload := Octets.ascii "HTTP/1.1 200 OK\r\n\r\n", direction := .backward }]
  have packets := @Transition.always_mono _ _ step _ (fun e => ⟨.flow 0, 0⟩ ∈ e.world.table →
    isNullDereference (e.processFlow ⟨.flow 0, 0⟩
      { payload := Octets.ascii "GET / HTTP/1.1\r\nHost: bad.com\r\n\r\n", direction := .forward }
      .http) = false) _ _
    (fun e degrades live => notNull_evaluates ((degrades ⟨.flow 0, 0⟩ live).1 .http _)) degrades
  refine Transition.not_always_of_run ?_ packets
  decide +kernel

end Engine

end AIEngine
