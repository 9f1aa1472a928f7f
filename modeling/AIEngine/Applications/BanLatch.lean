import AIEngine.Applications.EngineRuns

/-!
# Flows of banned domains

When a name matches the ban manager, the protocol counts it, and from then on the packets of the flow
should leave its info as it is. HTTP, SMTP, POP and IMAP mark the info; SSL and SSDP do not.
-/

namespace AIEngine

/-- A domain has matched, and this is what the flow referred to then. -/
structure BanMatch where
  protocol : L7Protocol
  flow : Obj
  info : Option Obj
  deriving DecidableEq, Repr

/-- The engine, and the matches of the flows that are still alive. -/
structure Watched where
  engine : Engine
  matched : List BanMatch := []

namespace Watched

open World Engine

/-- The protocols with a ban domain manager. DNS has one as well, but no flag in its infos. -/
def bansDomains : L7Protocol → Bool
  | .http | .ssl | .ssdp | .smtp | .pop | .imap => true
  | _ => false

def record (s : Watched) (t : Engine) : Engine.Event → List BanMatch
  | .packet p a _ =>
    if bansDomains p ∧ t.totalBan p ≠ s.engine.totalBan p then
      { protocol := p, flow := a, info := (t.world.flows a).info p } :: s.matched
    else s.matched
  | .endFlow a => s.matched.filter fun m => decide (m.flow ≠ a)
  | _ => s.matched

def step (s : Watched) (e : Engine.Event) : Option Watched :=
  (s.engine.step e).map fun t => { engine := t, matched := s.record t e }

def start (objects : CacheId → Nat) (layer : Option Nat) (expressions : SIPExpressions) : Watched where
  engine := Engine.start objects layer expressions

/-- The flow still has the info that it had when the domain matched, which is banned, and neither the
strings nor another member of it is changed. -/
def Latched (m : BanMatch) (e t : Engine) : Prop :=
  ∃ i, m.info = some i ∧ e.world.lockInfo m.protocol (e.world.flows m.flow) = some i ∧
    (e.world.infos i).isBanned = true ∧ t.world.lockInfo m.protocol (t.world.flows m.flow) = some i ∧
    t.world.infos i = e.world.infos i ∧ SameMembers e t i m.protocol

/-- A packet of a flow whose domain has matched before changes nothing. -/
def Latches (s : Watched) : Engine.Event → Watched → Prop
  | .packet _ a _, t => ∀ m ∈ s.matched, m.flow = a → Latched m s.engine t.engine
  | _, _ => True

/-- The protocol marks a banned info, and no release has overwritten the slot of the info since. -/
def Keeps (s : Watched) : Engine.Event → Watched → Prop
  | .packet _ a _, _ => ∀ m ∈ s.matched, m.flow = a → marksBans m.protocol = true ∧
      ((s.engine.world.cache (.info m.protocol)).lock m.info).isSome = true
  | _, _ => True

/-! ### What holds of a run as long as the latch does -/

structure Wired (s : Watched) : Prop where
  pooled : s.engine.world.Pooled
  marked : ∀ a ∈ s.engine.world.table, ∀ p i, (s.engine.world.flows a).info p = some i →
    (s.engine.world.infos i).isBanned = true → marksBans p = true
  matched : ∀ m ∈ s.matched, m.flow ∈ s.engine.world.table ∧ ∃ i, m.info = some i ∧
    (s.engine.world.flows m.flow).info m.protocol = some i ∧
    (marksBans m.protocol = true → (s.engine.world.infos i).isBanned = true)

variable {s t : Watched} {e : Engine.Event} {objects : CacheId → Nat} {layer : Option Nat}
  {expressions : SIPExpressions}

theorem wired_start : Wired (start objects layer expressions) := by
  refine ⟨pooled_start objects layer, fun a live => ?_, fun m member => ?_⟩
  · exact absurd live (by simp [start, Engine.start, World.start])
  · exact absurd member (by simp [start])

/-- Whatever happens to other flows and other things than infos. -/
theorem wired_same (wired : Wired s) (pooled : t.engine.world.Pooled)
    (matched : ∀ m ∈ t.matched, m ∈ s.matched ∧ m.flow ∈ t.engine.world.table)
    (infos : t.engine.world.infos = s.engine.world.infos)
    (flows : ∀ a ∈ t.engine.world.table, ∀ p i, (t.engine.world.flows a).info p = some i →
      a ∈ s.engine.world.table ∧ (s.engine.world.flows a).info p = some i)
    (pointers : ∀ m ∈ t.matched, ∀ p,
      (t.engine.world.flows m.flow).info p = (s.engine.world.flows m.flow).info p) : Wired t := by
  refine ⟨pooled, fun a live p i at' banned => ?_, fun m member => ?_⟩
  · obtain ⟨live, at'⟩ := flows a live p i at'
    rw [infos] at banned
    exact wired.marked a live p i at' banned
  · obtain ⟨before, live⟩ := matched m member
    obtain ⟨-, i, known, at', banned⟩ := wired.matched m before
    refine ⟨live, i, known, (pointers m member m.protocol).trans at', fun marks => ?_⟩
    rw [infos]
    exact banned marks

/-! ### A packet -/

section Packet

variable {p : L7Protocol} {a : Obj} {packet : L7Packet} {u : Engine}

theorem packet_cases (h : s.step (.packet p a packet) = some t) :
    a ∈ s.engine.world.table ∧ s.engine.processFlow a packet p = .ok t.engine ∧
      t.matched = s.record t.engine (.packet p a packet) := by
  obtain ⟨u, stepped, rfl⟩ := Option.map_eq_some_iff.mp h
  simp only [Engine.step] at stepped
  split at stepped
  · rename_i live
    exact ⟨live, toOption_some stepped, rfl⟩
  · exact absurd stepped (by simp)

/-- A match of the flow that is kept, for the packets of any protocol. -/
theorem latched_packet {m : BanMatch} (wired : Wired s) (member : m ∈ s.matched)
    (processed : s.engine.processFlow m.flow packet p = .ok u)
    (marks : marksBans m.protocol = true)
    (owned : ((s.engine.world.cache (.info m.protocol)).lock m.info).isSome = true) :
    Latched m s.engine u := by
  obtain ⟨live, i, known, at', banned⟩ := wired.matched m member
  have locked : s.engine.world.lockInfo m.protocol (s.engine.world.flows m.flow) = some i := by
    obtain ⟨j, locked⟩ := Option.isSome_iff_exists.mp owned
    obtain ⟨same, owns⟩ := Cache.lock_some locked
    obtain rfl := Option.some.inj (known.symm.trans same)
    rw [lockInfo, at']
    exact Cache.lock_of_owns owns
  refine ⟨i, known, locked, banned marks, ?_⟩
  by_cases own : m.protocol = p
  · subst own
    obtain ⟨world, -, members⟩ := processFlow_latched marks locked (banned marks) processed
    rw [world]
    exact ⟨locked, rfl, members i⟩
  · have handled := processFlow_handled wired.pooled.filled processed
    have spares := handled_spares handled
    obtain ⟨pointer, infos⟩ := handled_others wired.pooled handled live live at'
      fun both => own both.2
    refine ⟨?_, infos, processFlow_members processed own i⟩
    rw [lockInfo, pointer, spares.pools m.protocol own]
    exact Cache.lock_of_owns (lockInfo_some locked).2

/-- The latch of a packet is what its condition says. -/
theorem latches_packet (wired : Wired s) (h : s.step (.packet p a packet) = some t) :
    Latches s (.packet p a packet) t ↔ Keeps s (.packet p a packet) t := by
  obtain ⟨live, processed, -⟩ := packet_cases h
  constructor
  · intro latches m member same
    obtain ⟨i, known, locked, banned, -⟩ := latches m member same
    obtain ⟨at', owns⟩ := lockInfo_some locked
    refine ⟨wired.marked m.flow (by rw [same]; exact live) m.protocol i at' banned, ?_⟩
    rw [known, Cache.lock_of_owns owns]
    rfl
  · intro keeps m member same
    obtain ⟨marks, owned⟩ := keeps m member same
    subst same
    exact latched_packet wired member processed marks owned

theorem marked_packet (wired : Wired s) (live : a ∈ s.engine.world.table)
    (processed : s.engine.processFlow a packet p = .ok u) :
    ∀ b ∈ u.world.table, ∀ q i, (u.world.flows b).info q = some i →
      (u.world.infos i).isBanned = true → marksBans q = true := by
  have handled := processFlow_handled wired.pooled.filled processed
  have spares := handled_spares handled
  intro b live' q i at' banned
  rw [spares.table] at live'
  by_cases own : b = a ∧ q = p
  · obtain ⟨rfl, rfl⟩ := own
    rcases handled_marked handled at' banned with ⟨before, banned⟩ | marks
    · exact wired.marked b live' q i before banned
    · exact marks
  · have before : (s.engine.world.flows b).info q = some i :=
      (spares.pointers b q own).symm.trans at'
    obtain ⟨-, infos⟩ := handled_others wired.pooled handled live live' before own
    rw [infos] at banned
    exact wired.marked b live' q i before banned

theorem wired_packet (wired : Wired s) (h : s.step (.packet p a packet) = some t)
    (keeps : Keeps s (.packet p a packet) t) : Wired t := by
  obtain ⟨live, processed, recorded⟩ := packet_cases h
  have handled := processFlow_handled wired.pooled.filled processed
  have table := (handled_spares handled).table
  have old : ∀ m ∈ s.matched, m.flow ∈ t.engine.world.table ∧ ∃ i, m.info = some i ∧
      (t.engine.world.flows m.flow).info m.protocol = some i ∧
      (marksBans m.protocol = true → (t.engine.world.infos i).isBanned = true) := by
    intro m member
    obtain ⟨alive, i, known, at', banned⟩ := wired.matched m member
    rw [table]
    refine ⟨alive, i, known, ?_⟩
    by_cases own : m.flow = a ∧ m.protocol = p
    · obtain ⟨same, -⟩ := own
      obtain ⟨marks, owned⟩ := keeps m member same
      subst same
      obtain ⟨j, known', -, -, locked, infos, -⟩ :=
        latched_packet wired member processed marks owned
      obtain rfl := Option.some.inj (known.symm.trans known')
      refine ⟨(lockInfo_some locked).1, fun marks => ?_⟩
      rw [infos]
      exact banned marks
    · obtain ⟨pointer, infos⟩ := handled_others wired.pooled handled live alive at' own
      refine ⟨pointer, fun marks => ?_⟩
      rw [infos]
      exact banned marks
  refine ⟨handled_pooled wired.pooled handled, marked_packet wired live processed,
    fun m member => ?_⟩
  rw [recorded] at member
  simp only [record] at member
  split at member
  · rename_i counted
    rcases List.mem_cons.mp member with rfl | member
    · obtain ⟨i, at', banned⟩ := handled_banned handled counted.2
      refine ⟨?_, i, at', at', banned⟩
      rw [table]
      exact live
    · exact old m member
  · exact old m member

end Packet

/-! ### The other steps -/

section Steps

variable {a : Obj}

/-- A new flow refers to no info. -/
theorem wired_open (wired : Wired s) (matched : t.matched = s.matched) (fresh : a ∉ s.engine.world.table)
    (pooled : t.engine.world.Pooled) (infos : t.engine.world.infos = s.engine.world.infos)
    (table : t.engine.world.table = a :: s.engine.world.table)
    (new : ∀ p, (t.engine.world.flows a).info p = none)
    (others : ∀ b, b ≠ a → t.engine.world.flows b = s.engine.world.flows b) : Wired t := by
  refine wired_same wired pooled (fun m member => ?_) infos (fun b live p i at' => ?_)
    fun m member p => ?_
  · rw [matched] at member
    rw [table]
    exact ⟨member, List.mem_cons_of_mem _ (wired.matched m member).1⟩
  · have different : b ≠ a := by
      rintro rfl
      exact absurd ((new p).symm.trans at') (by simp)
    rw [table] at live
    rw [others b different] at at'
    exact ⟨(List.mem_cons.mp live).resolve_left different, at'⟩
  · rw [matched] at member
    have different : m.flow ≠ a := by
      rintro rfl
      exact fresh (wired.matched m member).1
    rw [others m.flow different]

/-- What moves no pointer to an info. -/
theorem wired_kept (wired : Wired s) (matched : t.matched = s.matched)
    (pooled : t.engine.world.Pooled) (infos : t.engine.world.infos = s.engine.world.infos)
    (table : t.engine.world.table = s.engine.world.table)
    (pointers : ∀ b p, (t.engine.world.flows b).info p = (s.engine.world.flows b).info p) :
    Wired t := by
  refine wired_same wired pooled (fun m member => ?_) infos (fun b live p i at' => ?_)
    fun m _ p => pointers m.flow p
  · rw [matched] at member
    rw [table]
    exact ⟨member, (wired.matched m member).1⟩
  · rw [table] at live
    rw [pointers] at at'
    exact ⟨live, at'⟩

theorem wired_endFlow (wired : Wired s) (pooled : (s.engine.world.endFlow a).Pooled) :
    Wired { engine := { s.engine with world := s.engine.world.endFlow a }
            matched := s.matched.filter fun m => decide (m.flow ≠ a) } := by
  have returns := AIEngine.Http.releaseFlow_returnsInfos s.engine.world (s.engine.world.flows a)
  have flows : (s.engine.world.endFlow a).flows = s.engine.world.flows := returns.flows
  refine wired_same wired pooled (fun m member => ?_) returns.infos (fun b live' p i at' => ?_)
    fun m _ p => ?_
  · obtain ⟨before, other⟩ := List.mem_filter.mp member
    refine ⟨before, ?_⟩
    show m.flow ∈ s.engine.world.table.erase a
    exact (List.mem_erase_of_ne (of_decide_eq_true other)).mpr (wired.matched m before).1
  · have at' : ((s.engine.world.endFlow a).flows b).info p = some i := at'
    rw [flows] at at'
    exact ⟨List.mem_of_mem_erase live', at'⟩
  · show ((s.engine.world.endFlow a).flows m.flow).info p = _
    rw [flows]

end Steps

/-- A kept latch leaves the run as it has been. -/
theorem wired_step (wired : Wired s) (h : s.step e = some t) (keeps : Keeps s e t) : Wired t := by
  obtain ⟨u, stepped, rfl⟩ := Option.map_eq_some_iff.mp h
  have pooled : u.world.Pooled := pooled_step wired.pooled stepped
  cases e with
  | packet p a packet => exact wired_packet wired h keeps
  | openTcp a layer =>
    simp only [Engine.step] at stepped
    split at stepped
    · exact absurd stepped (by simp)
    · rename_i fresh
      obtain ⟨w, opened, rfl⟩ := Option.map_eq_some_iff.mp stepped
      obtain ⟨-, -, -, infos, table, new, others, -⟩ :=
        AIEngine.Http.openTcpFlow_spec (toOption_some opened)
      exact wired_open wired rfl fresh pooled infos table new others
  | openUdp a =>
    simp only [Engine.step] at stepped
    split at stepped
    · exact absurd stepped (by simp)
    · rename_i fresh
      obtain rfl := Option.some.inj stepped
      refine wired_open wired rfl fresh pooled rfl rfl (fun p => ?_) fun b other => ?_
      · cases p <;> simp [openFlow, setFlow, Flow.reset, Flow.info]
      · simp [openFlow, setFlow, other]
  | transport a =>
    simp only [Engine.step] at stepped
    split at stepped
    · obtain rfl := Option.some.inj stepped
      refine wired_kept wired rfl pooled rfl rfl
        (setFlow_keepsInfos (p := .gprs) (i := a) fun q => ?_).pointers
      cases q <;> rfl
    · exact absurd stepped (by simp)
  | frequency layer a payload =>
    simp only [Engine.step] at stepped
    split at stepped
    · obtain ⟨w, ran, rfl⟩ := Option.map_eq_some_iff.mp stepped
      obtain ⟨q, f, kept, rfl⟩ := frequency_ok wired.pooled.filled (toOption_some ran)
      exact wired_kept wired rfl pooled rfl rfl
        (setFlow_keepsInfos (w := s.engine.world.setFrequency layer q) (p := .gprs) (i := a)
          kept.infos).pointers
    · exact absurd stepped (by simp)
  | endFlow a =>
    simp only [Engine.step] at stepped
    split at stepped
    · obtain rfl := Option.some.inj stepped
      exact wired_endFlow wired pooled
    · exact absurd stepped (by simp)
  | managers p ban domains =>
    obtain rfl := Option.some.inj stepped
    have world := setDomains_world s.engine ban domains p
    exact wired_kept wired rfl pooled (congrArg World.infos world) (congrArg World.table world)
      fun b q => congrArg (fun w : World => (w.flows b).info q) world
  | httpManagers ban domains domainName =>
    obtain rfl := Option.some.inj stepped
    exact wired_kept wired rfl pooled rfl rfl fun _ _ => rfl
  | memory sight =>
    obtain rfl := Option.some.inj stepped
    exact wired_kept wired rfl pooled rfl rfl fun _ _ => rfl

/-- In every run, a packet of a flow of a banned domain changes nothing as long as, and only as long
as, the protocol marks bans and the banned info is still in its pool. -/
theorem always_latched_iff (objects : CacheId → Nat) (layer : Option Nat)
    (expressions : SIPExpressions) (events : List Engine.Event) :
    Transition.Along step Latches (start objects layer expressions) events ↔
      Transition.Along step Keeps (start objects layer expressions) events := by
  refine Transition.along_iff (fun _ _ _ => wired_step) ?_ wired_start
  intro s e t wired stepped
  cases e with
  | packet p a packet => exact latches_packet wired stepped
  | _ => exact Iff.rfl

/-- The hosts of the infos of a flow whose domain has matched. -/
def HostsStay (a : Obj) (s t : Watched) : Prop :=
  ∀ m ∈ s.matched, m.flow = a → ∀ i ∈ m.info,
    (t.engine.world.infos i).strings .host = (s.engine.world.infos i).strings .host

instance (a : Obj) : DecidableRel (HostsStay a) :=
  fun s _ => inferInstanceAs (Decidable (∀ m ∈ s.matched, _))

theorem hostsStay_of_latches {p : L7Protocol} {a : Obj} {packet : L7Packet}
    (h : Latches s (.packet p a packet) t) : HostsStay a s t := by
  intro m member same i known
  obtain ⟨j, known', -, -, -, infos, -⟩ := h m member same
  obtain rfl := Option.some.inj ((Option.mem_def.mp known).symm.trans known')
  rw [infos]

/-- A client hello with one cipher suite, no compression and the extension of the server name. -/
def clientHello (name : Bytes) : L7Packet :=
  let extension := [0, 0, 0, BitVec.ofNat 8 (name.length + 5), 0, BitVec.ofNat 8 (name.length + 3),
    0, 0, BitVec.ofNat 8 name.length] ++ name
  let body := [3, 3] ++ List.replicate 32 0 ++ [0, 0, 2, 0, 0x2f, 1, 0, 0,
    BitVec.ofNat 8 extension.length] ++ extension
  { payload := [0x16, 3, 1, 0, BitVec.ofNat 8 (body.length + 4), 1, 0, 0,
      BitVec.ofNat 8 body.length] ++ body
    direction := .forward }

/-- A second hello on the connection, for another server, attaches its host to the info. -/
theorem not_always_latched :
    ¬∀ objects layer expressions events,
      Transition.Along step Latches (start objects layer expressions) events := by
  intro h
  have latched := h (fun _ => 1) (some 0) ⟨⟨fun _ => none, []⟩, ⟨fun _ => none, []⟩, ⟨fun _ => none, []⟩⟩
    ([.managers .ssl (some fun name => decide (name = Octets.ascii "bad.com")) none,
      .openTcp ⟨.flow 0, 0⟩ 0,
      .packet .ssl ⟨.flow 0, 0⟩ (clientHello (Octets.ascii "bad.com"))] ++
    [.packet .ssl ⟨.flow 0, 0⟩ (clientHello (Octets.ascii "good.com"))])
  refine absurd latched (Transition.not_along_of_run (P := HostsStay ⟨.flow 0, 0⟩) ?_ ?_)
  · exact fun u t => hostsStay_of_latches
  · decide +kernel

end Watched

end AIEngine
