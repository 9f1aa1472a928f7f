import AIEngine.Library.Register
import AIEngine.Transport.Conversations
import AIEngine.Transport.Halves

/-!
# The database of the user (`DatabaseAdaptor.h`, `Protocol.cc`)

A transport that has an adaptor inserts a record for every flow that it opens, updates it now and then, and
removes it when the flow leaves the table. What is written into a record is not modelled, only which record
is asked for: a flow is called by its addresses, ports and protocol as `operator<<` prints them, without its
tag.
-/

namespace AIEngine

open Register (Request serve)

/-- What `operator<<` of a flow prints. -/
structure FiveTuple where
  source : Address
  sourcePort : BitVec 16
  protocol : BitVec 16
  destination : Address
  destinationPort : BitVec 16
  deriving DecidableEq, Repr

def FlowIdent.fiveTuple (i : FlowIdent) : FiveTuple where
  source := i.address.source
  sourcePort := i.sourcePort
  protocol := i.protocol
  destination := i.address.destination
  destinationPort := i.destPort

def Flow.fiveTuple (f : Flow) : FiveTuple := f.ident.fiveTuple

/-- The five tuple of the flow that a packet opens. -/
def Packet.fiveTuple (kind : Kind) (p : Packet) : FiveTuple where
  source := p.address.source
  sourcePort := p.sourcePort
  protocol := kind.ipproto
  destination := p.address.destination
  destinationPort := p.destinationPort

theorem Transport.describe_fiveTuple (s : Transport) (kind : Kind) (p : Packet) (f : Flow) :
    (s.describe kind p f).fiveTuple = p.fiveTuple kind := by
  unfold describe Flow.fiveTuple FlowIdent.fiveTuple Packet.fiveTuple IPAddress.source IPAddress.destination
  dsimp only
  by_cases four : p.address.type = 4
  · rw [if_pos four, if_pos four, if_pos four]
    cases p.tag <;> rfl
  · rw [if_neg four, if_neg four, if_neg four]
    cases p.tag <;> rfl

theorem Flow.fiveTuple_of_name {f g : Flow} (same : f.name = g.name) : f.fiveTuple = g.fiveTuple := by
  have named : f.name.fiveTuple = g.name.fiveTuple := congrArg FlowIdent.fiveTuple same
  exact named

/-- `print` is how a five tuple is written; the sampling is what the number of packets is divided by. -/
structure DatabaseAdaptor (κ : Type) where
  print : FiveTuple → κ
  packetSampling : Int := 32
  divides : packetSampling ≠ 0 := by decide

namespace DatabaseAdaptor

variable {κ : Type}

def key (db : DatabaseAdaptor κ) (f : Flow) : κ := db.print f.fiveTuple

/-- TCP and UDP do not start to count at the same packet. -/
def sampled (db : DatabaseAdaptor κ) (kind : Kind) (totalPackets : BitVec 32) : Bool :=
  match kind with
  | .tcp => decide (totalPackets.toInt.tmod db.packetSampling = 0)
  | .udp => decide ((totalPackets - 1).toInt.tmod db.packetSampling = 0)

end DatabaseAdaptor

namespace Transport

open DatabaseAdaptor

variable {κ : Type}

/-- The requests of `updateTimers`. -/
def sweepRequests (s : Transport) (db : DatabaseAdaptor κ) (time : Int) : List Obj → List (Request κ)
  | [] => []
  | a :: rest =>
    if s.Expired time a then .remove (db.key (s.flow a)) :: (s.expire a).sweepRequests db time rest else []

/-- The requests behind `forwardFlow`. -/
def finishRequests (s : Transport) (db : DatabaseAdaptor κ) (kind : Kind) (a : Obj) : List (Request κ) :=
  (if db.sampled kind (s.flow a).totalPackets then [.update (db.key (s.flow a))] else []) ++
    if s.lastTimeout < s.packetTime - s.timeout then s.sweepRequests db s.packetTime s.table else []

def completeRequests (db : DatabaseAdaptor κ) (kind : Kind) (o : Outside) :
    Transport × Entered → List (Request κ)
  | (s, .ended) =>
    match s.currentFlow with
    | some a => if s.closed then [.remove (db.key (s.flow a))] else []
    | none => []
  | (s, .finishing a) => s.finishRequests db kind a
  | (s, .handing a) =>
    match s.forwardFlow a o with
    | .ok s => s.finishRequests db kind a
    | .error _ => []

/-- A flow that was not known is a new one. -/
def openRequests (s s₁ : Transport) (db : DatabaseAdaptor κ) (kind : Kind) (p : Packet) :
    Option Obj → List (Request κ)
  | some a => if (s.findFlow (p.hash1 kind) (p.hash2 kind)).isNone then [.insert (db.key (s₁.flow a))] else []
  | none => []

/-- The requests of `processPacket`, in their order. -/
def requests (s : Transport) (db : DatabaseAdaptor κ) (kind : Kind) (p : Packet) (o : Outside) :
    List (Request κ) :=
  match (s.begin p).getFlow kind p o.hint, s.enter kind p o with
  | .ok (found, s₁), .ok entered =>
    (s.begin p).openRequests s₁ db kind p found ++ completeRequests db kind o entered
  | _, _ => []

/-- The packet opens a flow that is printed as one of the table is. As the id of a flow has its tag and what is
printed has not, there may be such a flow. -/
def Doubles (s : Transport) (db : DatabaseAdaptor κ) (kind : Kind) (p : Packet) : Prop :=
  s.findFlow (p.hash1 kind) (p.hash2 kind) = none ∧ (∃ a c, s.flowCache.acquireFlow = .ok (some a, c)) ∧
    ∃ b ∈ s.table, db.key (s.flow b) = db.print (p.fiveTuple kind)

/-- The records that there should be: one for each flow in the table. -/
def keys (s : Transport) (db : DatabaseAdaptor κ) : Multiset κ := (s.table.map fun a => db.key (s.flow a) : List κ)

variable {s t s₁ : Transport} {db : DatabaseAdaptor κ} {kind : Kind} {p : Packet} {o : Outside} {a : Obj} {hint : Nat}

theorem key_of_name (same : (t.flow a).name = (s.flow a).name) : db.key (t.flow a) = db.key (s.flow a) :=
  congrArg db.print (Flow.fiveTuple_of_name same)

theorem key_of_ident (same : (t.flow a).ident = (s.flow a).ident) : db.key (t.flow a) = db.key (s.flow a) :=
  key_of_name (Flow.name_of_ident same)

theorem keys_congr (perm : t.table.Perm s.table) (names : ∀ a ∈ s.table, (t.flow a).name = (s.flow a).name) :
    t.keys db = s.keys db := by
  have same : s.table.map (fun a => db.key (t.flow a)) = s.table.map fun a => db.key (s.flow a) :=
    List.map_congr_left fun a member => key_of_name (names a member)
  unfold keys
  rw [← same]
  exact Multiset.coe_eq_coe.mpr (perm.map _)

theorem keys_same (same : Same s t) : t.keys db = s.keys db :=
  keys_congr (.of_eq same.table) fun a _ => Flow.name_of_ident (same.ident a)

theorem key_mem_keys (member : a ∈ s.table) : db.key (s.flow a) ∈ s.keys db :=
  Multiset.mem_coe.mpr (List.mem_map_of_mem member)

/-- What the sweep reports is what it takes out of the table. -/
theorem sweepRequests_eq (time : Int) (xs : List Obj) (s : Transport) :
    s.sweepRequests db time xs =
      (xs.takeWhile fun a => decide (s.Expired time a)).map fun a => .remove (db.key (s.flow a)) := by
  induction xs generalizing s with
  | nil => rfl
  | cons a rest ih =>
    unfold sweepRequests
    by_cases old : s.Expired time a
    · obtain ⟨-, gave⟩ := expire_left s a
      rw [if_pos old, List.takeWhile_cons_of_pos (by simpa using old), List.map_cons, ih]
      simp only [gave.expired]
      congr 1
      exact List.map_congr_left fun b _ => congrArg Request.remove (key_of_ident (gave.flows b))
    · rw [if_neg old, List.takeWhile_cons_of_neg (by simpa using old)]
      rfl

variable [DecidableEq κ]

theorem serve_sweep (time : Int) {left : List Obj}
    (dropped : left = s.table.dropWhile fun a => decide (s.Expired time a)) :
    serve (s.keys db) (s.sweepRequests db time s.table) =
      some (left.map fun a => db.key (s.flow a) : List κ) := by
  have split := List.takeWhile_append_dropWhile (p := fun a => decide (s.Expired time a)) (l := s.table)
  have whole : s.keys db = ((s.table.takeWhile fun a => decide (s.Expired time a)).map (fun a => db.key (s.flow a)) ++
      left.map fun a => db.key (s.flow a) : List κ) := by
    unfold keys
    rw [dropped, ← List.map_append, split]
  rw [whole, sweepRequests_eq]
  have served := Register.serve_removes
    ((s.table.takeWhile fun a => decide (s.Expired time a)).map fun a => db.key (s.flow a))
    (left.map fun a => db.key (s.flow a))
  rw [List.map_map] at served
  exact served

theorem serve_finish (sound : Sound s) (member : a ∈ s.table) (h : s.finish a hint kind = .ok t) :
    serve (s.keys db) (s.finishRequests db kind a) = some (t.keys db) := by
  have updated : serve (s.keys db) (if db.sampled kind (s.flow a).totalPackets then
      [.update (db.key (s.flow a))] else []) = some (s.keys db) := by
    split
    · exact Register.serve_update (key_mem_keys member)
    · rfl
  obtain ⟨s', refresh, same, timed⟩ : ∃ s' refresh, Same s s' ∧ s'.checkTimers a refresh hint = .ok t := by
    cases kind with
    | tcp => exact ⟨_, _, same_tcpCheckReject s a, h⟩
    | udp => exact ⟨_, _, same_udpCheckReject s a, h⟩
  have lastTimeout : s'.lastTimeout = s.lastTimeout := congrArg Members.lastTimeout same.members
  have packetTime : s'.packetTime = s.packetTime := congrArg Members.packetTime same.members
  have timeout : s'.timeout = s.timeout := congrArg Members.timeout same.members
  unfold finishRequests
  rw [Register.serve_append updated]
  rcases checkTimers_cases timed with ⟨due, ended⟩ | ⟨early, changed⟩
  · rw [lastTimeout, packetTime, timeout] at due
    have begun : Sound { s' with lastTimeout := s'.packetTime, swept := true } :=
      (sound.same same).congr rfl (fun _ _ => rfl) (.of_eq rfl)
    obtain ⟨-, left, -, flows, -⟩ := updateTimers_spec (s := s) s'.packetTime begun same.ident timeout same.table
      (congrArg Members.released same.members)
    rw [← ended, packetTime] at left
    rw [← ended] at flows
    rw [if_pos due, serve_sweep s.packetTime left]
    refine congrArg some (congrArg _ ?_)
    exact List.map_congr_left fun b _ => (key_of_ident (flows b)).symm
  · rw [lastTimeout, packetTime, timeout] at early
    have kept : t.keys db = s.keys db := by
      rcases changed with ⟨b, u, known, rfl, rfl⟩ | rfl
      · have perm : (OrderedIndex.modify (s'.setLastPacketTime b s'.packetTime).lastTime s'.table hint b).Perm
            s'.table := OrderedIndex.modify_perm hint (findId_some known).1
        refine keys_congr (perm.trans (.of_eq same.table)) fun c _ => ?_
        exact (setLastPacketTime_name s' b _ c).trans (Flow.name_of_ident (same.ident c))
      · refine keys_congr (.of_eq same.table) fun c _ => ?_
        exact (setLastPacketTime_name s' a _ c).trans (Flow.name_of_ident (same.ident c))
    rw [if_neg early, kept]
    rfl

/-- A flow that is closed takes its record with it. -/
theorem serve_close (sound : Sound s) (member : a ∈ s.table) (shut : TCPProtocol.closeFlow s a = .ok t) :
    serve (s.keys db) [.remove (db.key (t.flow a))] = some (t.keys db) := by
  obtain ⟨-, table, flows, -⟩ := closeFlow_spec sound member shut
  have split : s.keys db = db.key (s.flow a) ::ₘ (t.keys db) := by
    have perm := (List.perm_cons_erase member).map fun b => db.key (s.flow b)
    have left : t.table.map (fun b => db.key (t.flow b)) = (s.table.erase a).map fun b => db.key (s.flow b) := by
      rw [table]
      exact List.map_congr_left fun b _ => key_of_ident (flows b)
    unfold keys
    rw [left, Multiset.coe_eq_coe.mpr perm]
    rfl
  rw [key_of_ident (flows a), Register.serve_remove (key_mem_keys member), split, Multiset.erase_cons_head]

omit [DecidableEq κ] in
theorem completeRequests_over (current : s.currentFlow = some a) :
    completeRequests db kind o (s, .ended) = if s.closed then [.remove (db.key (s.flow a))] else [] := by
  simp only [completeRequests, current]

theorem serve_complete {e : Entered} (sound : Sound s) (member : a ∈ s.table) (fresh : s.closed = false)
    (current : s.currentFlow = some a) (entry : Entry s kind a t e) {v : Transport}
    (h : complete kind o (t, e) = .ok v) :
    serve (s.keys db) (completeRequests db kind o (t, e)) = some (v.keys db) := by
  cases entry with
  | ignored silent =>
    obtain rfl := Except.ok.inj h
    rw [completeRequests_over current, fresh]
    rfl
  | closed same shut =>
    obtain rfl := Except.ok.inj h
    obtain ⟨-, -, -, closed, -, -, now, -⟩ := closeFlow_spec (sound.same same) (same.table ▸ member) shut
    have still : t.currentFlow = some a := now.trans ((congrArg Members.currentFlow same.members).trans current)
    rw [completeRequests_over still, closed, ← keys_same same]
    exact serve_close (sound.same same) (same.table ▸ member) shut
  | finishing same =>
    rw [← keys_same same]
    exact serve_finish (sound.same same) (same.table ▸ member) h
  | handing same =>
    obtain ⟨u, forwarded, h⟩ := Ending.bind_ok h
    have passed : completeRequests db kind o (t, .handing a) = u.finishRequests db kind a := by
      simp only [completeRequests, forwarded]
    have handed := same.trans (same_forwardFlow forwarded)
    rw [passed, ← keys_same handed]
    exact serve_finish (sound.same handed) (handed.table ▸ member) h

theorem serve_open {found : Option Obj} (looked : Looked s s₁ kind p hint found) :
    serve (s.keys db) (s.openRequests s₁ db kind p found) = some (s₁.keys db) := by
  cases looked with
  | found a known same =>
    have nothing : s.openRequests s₁ db kind p (some a) = [] := by
      unfold openRequests
      rw [known]
      rfl
    rw [nothing, keys_same same]
    rfl
  | failed unknown table flows members =>
    rw [keys_congr (.of_eq table) fun b _ => by rw [flows b]]
    rfl
  | opened a unknown opened =>
    have insert : s.openRequests s₁ db kind p (some a) = [.insert (db.key (s₁.flow a))] := by
      unfold openRequests
      rw [unknown]
      rfl
    have perm : s₁.table.Perm (a :: s.table) := by
      rw [opened.table]
      exact OrderedIndex.insert_perm s.table hint a
    have more : s₁.keys db = db.key (s₁.flow a) ::ₘ s.keys db := by
      have others : s.table.map (fun b => db.key (s₁.flow b)) = s.table.map fun b => db.key (s.flow b) :=
        List.map_congr_left fun b known =>
          key_of_ident (opened.others b fun same => opened.fresh (same ▸ known))
      unfold keys
      rw [← others, Multiset.coe_eq_coe.mpr (perm.map fun b => db.key (s₁.flow b))]
      rfl
    rw [insert, more]
    rfl

theorem serve_requests (sound : Sound s) (h : s.processPacket kind p o = .ok t) :
    serve (s.keys db) (s.requests db kind p o) = some (t.keys db) := by
  rw [processPacket_halves] at h
  obtain ⟨⟨u, e⟩, enters, completed⟩ := Ending.bind_ok h
  obtain ⟨found, s₁, got, cases⟩ := enter_cases enters
  obtain ⟨held, looked⟩ := getFlow_spec (begin_sound sound p) got
  have requested : s.requests db kind p o =
      (s.begin p).openRequests s₁ db kind p found ++ completeRequests db kind o (u, e) := by
    unfold requests
    rw [got, enters]
  rw [requested, show s.keys db = (s.begin p).keys db from rfl, Register.serve_append (serve_open looked)]
  rcases cases with ⟨rfl, rfl, rfl⟩ | ⟨a, rfl, entry⟩
  · obtain rfl := Except.ok.inj completed
    rfl
  · have fresh : s₁.closed = false := congrArg Members.closed looked.members
    have begun : Sound { s₁ with currentFlow := some a } := held.congr rfl (fun _ _ => rfl) (.of_eq rfl)
    exact serve_complete begun looked.mem fresh rfl entry completed

/-! ### A strict database -/

omit [DecidableEq κ] in
theorem insert_not_mem_sweep (time : Int) (key : κ) : Request.insert key ∉ s.sweepRequests db time s.table := by
  rw [sweepRequests_eq]
  simp

omit [DecidableEq κ] in
theorem insert_not_mem_finish (key : κ) : Request.insert key ∉ s.finishRequests db kind a := by
  unfold finishRequests
  rw [List.mem_append]
  rintro (update | swept)
  · split at update <;> simp at update
  · split at swept
    · exact insert_not_mem_sweep _ key swept
    · simp at swept

omit [DecidableEq κ] in
theorem insert_not_mem_complete (e : Transport × Entered) (key : κ) :
    Request.insert key ∉ completeRequests db kind o e := by
  obtain ⟨s, entered⟩ := e
  cases entered with
  | ended =>
    simp only [completeRequests]
    split
    · split <;> simp
    · simp
  | finishing a => exact insert_not_mem_finish key
  | handing a =>
    simp only [completeRequests]
    split
    · exact insert_not_mem_finish key
    · simp

/-- A database that has the records of the table, and refuses to insert a key that is there, is asked for what it
can do unless the packet opens a flow that is printed as another one. -/
theorem serveStrict_iff (sound : Sound s) (h : s.processPacket kind p o = .ok t) :
    Register.serveStrict (s.keys db) (s.requests db kind p o) = some (t.keys db) ↔ ¬s.Doubles db kind p := by
  have served : serve (s.keys db) (s.requests db kind p o) = some (t.keys db) := serve_requests sound h
  rw [processPacket_halves] at h
  obtain ⟨⟨u, e⟩, enters, -⟩ := Ending.bind_ok h
  obtain ⟨found, s₁, got, -⟩ := enter_cases enters
  have requested : s.requests db kind p o =
      (s.begin p).openRequests s₁ db kind p found ++ completeRequests db kind o (u, e) := by
    unfold requests
    rw [got, enters]
  rw [requested] at served ⊢
  rcases getFlow_cases got with ⟨a, rfl, known, -⟩ | ⟨unknown, c, ⟨rfl, failed, -⟩ | ⟨a, rfl, acquired, entered⟩⟩
  · have nothing : (s.begin p).openRequests s₁ db kind p (some a) = [] := by
      unfold openRequests
      rw [known]
      rfl
    rw [nothing, List.nil_append] at served ⊢
    rw [Register.serveStrict_of_no_insert (insert_not_mem_complete _)]
    exact iff_of_true served fun doubles => absurd (doubles.1.symm.trans known) (by simp)
  · rw [show (s.begin p).openRequests s₁ db kind p none = [] from rfl, List.nil_append] at served ⊢
    rw [Register.serveStrict_of_no_insert (insert_not_mem_complete _)]
    refine iff_of_true served fun ⟨_, ⟨a, c', opens⟩, _⟩ => ?_
    exact absurd (failed.symm.trans opens) (by simp)
  · have opened : Opened (s.begin p) s₁ kind p o.hint a :=
      (opened_addFlow (begin_sound sound p) unknown acquired).1.same entered
    have key : db.key (s₁.flow a) = db.print (p.fiveTuple kind) := by
      refine congrArg db.print ((congrArg FlowIdent.fiveTuple opened.flow).trans ?_)
      exact describe_fiveTuple (s.begin p) kind p _
    have insert : (s.begin p).openRequests s₁ db kind p (some a) = [.insert (db.print (p.fiveTuple kind))] := by
      rw [← key]
      unfold openRequests
      rw [unknown]
      rfl
    rw [insert, List.singleton_append] at served ⊢
    rw [Register.serveStrict_insert (insert_not_mem_complete _), served]
    have doubles : s.Doubles db kind p ↔ db.print (p.fiveTuple kind) ∈ s.keys db := by
      have new : s.findFlow (p.hash1 kind) (p.hash2 kind) = none := unknown
      have opens : ∃ a c, s.flowCache.acquireFlow = .ok (some a, c) := ⟨a, c, acquired⟩
      unfold Doubles keys
      rw [and_iff_right new, and_iff_right opens, Multiset.mem_coe, List.mem_map]
    rw [doubles]
    by_cases there : db.print (p.fiveTuple kind) ∈ s.keys db
    · rw [if_pos there]
      exact iff_of_false (by simp) (not_not_intro there)
    · rw [if_neg there]
      exact iff_of_true rfl there

end Transport

/-! ### Runs -/

/-- A transport with an adaptor, and what it has asked for. -/
structure Adapted (κ : Type) where
  transport : Transport
  log : List (Request κ) := []

namespace Adapted

open Transport

variable {κ : Type} {kind : Kind} {db : DatabaseAdaptor κ}

def step (db : DatabaseAdaptor κ) (kind : Kind) (s : Adapted κ) : Event → Option (Adapted κ)
  | .packet p o =>
    match s.transport.processPacket kind p o with
    | .ok t => some { transport := t, log := s.log ++ s.transport.requests db kind p o }
    | .error _ => none
  | .elsewhere w => some { s with transport := s.transport.elsewhere w }

def start (κ : Type) (layer : Nat) (objects : CacheId → Nat) (registered : Option Nat) (timeout : Int) :
    Adapted κ where
  transport := Transport.start layer objects registered timeout

variable [DecidableEq κ]

/-- A database that was empty has refused nothing, and has a record for each flow in the table. -/
def Mirrored (db : DatabaseAdaptor κ) (s : Adapted κ) : Prop :=
  serve 0 s.log = some (s.transport.keys db)

omit [DecidableEq κ] in
theorem sound_step {s t : Adapted κ} {e : Event} (sound : Sound s.transport) (stepped : step db kind s e = some t) :
    Sound t.transport := by
  cases e with
  | packet p o =>
    unfold step at stepped
    simp only at stepped
    split at stepped
    · rename_i u processed
      obtain rfl := Option.some.inj stepped
      obtain ⟨found, s₁, does⟩ := processPacket_spec sound processed
      exact does.after
    · exact absurd stepped (by simp)
  | elsewhere w =>
    obtain rfl := Option.some.inj stepped
    exact sound_elsewhere sound w

theorem mirrored_step {s t : Adapted κ} {e : Event} (sound : Sound s.transport) (mirrored : Mirrored db s)
    (stepped : step db kind s e = some t) : Mirrored db t := by
  cases e with
  | packet p o =>
    unfold step at stepped
    simp only at stepped
    split at stepped
    · rename_i u processed
      obtain rfl := Option.some.inj stepped
      exact (Register.serve_append mirrored).trans (serve_requests sound processed)
    · exact absurd stepped (by simp)
  | elsewhere w =>
    obtain rfl := Option.some.inj stepped
    exact mirrored

/-- A database with a record for each flow, which refuses a key that is there, can do what it is asked for. -/
def Admitted (db : DatabaseAdaptor κ) (kind : Kind) (s : Adapted κ) (e : Event) (t : Adapted κ) : Prop :=
  ∀ p o, e = .packet p o →
    Register.serveStrict (s.transport.keys db) (s.transport.requests db kind p o) = some (t.transport.keys db)

/-- No flow is opened that is printed as another one. -/
def Distinct (db : DatabaseAdaptor κ) (kind : Kind) (s : Adapted κ) (e : Event) : Prop :=
  ∀ p o, e = .packet p o → ¬s.transport.Doubles db kind p

theorem admitted_iff {s t : Adapted κ} {e : Event} (sound : Sound s.transport) (stepped : step db kind s e = some t) :
    Admitted db kind s e t ↔ Distinct db kind s e := by
  cases e with
  | packet p o =>
    unfold step at stepped
    simp only at stepped
    split at stepped
    · rename_i u processed
      obtain rfl := Option.some.inj stepped
      have each : Register.serveStrict (s.transport.keys db) (s.transport.requests db kind p o) =
          some (u.keys db) ↔ ¬s.transport.Doubles db kind p := serveStrict_iff sound processed
      constructor
      · rintro admitted _ _ ⟨⟩
        exact each.mp (admitted p o rfl)
      · rintro distinct _ _ ⟨⟩
        exact each.mpr (distinct p o rfl)
    · exact absurd stepped (by simp)
  | elsewhere w => exact iff_of_true (fun _ _ other => absurd other (by simp)) fun _ _ other => absurd other (by simp)

/-- In every run the database of the user follows the table. It is never asked to insert a key that is there exactly
if no flow is opened that is printed as one of the table. -/
theorem always_mirrored (db : DatabaseAdaptor κ) (kind : Kind) (layer : Nat) (objects : CacheId → Nat)
    (registered : Option Nat) (timeout : Int) (events : List Event) :
    Transition.Always (step db kind) (Mirrored db) (start κ layer objects registered timeout) events ∧
      (Transition.Along (step db kind) (Admitted db kind) (start κ layer objects registered timeout) events ↔
        Transition.Along (step db kind) (fun s e _ => Distinct db kind s e)
          (start κ layer objects registered timeout) events) := by
  have kept : Transition.Always (step db kind) (fun s => Sound s.transport ∧ Mirrored db s)
      (start κ layer objects registered timeout) events :=
    Transition.always_of_inv
      (fun s e t inv stepped => ⟨sound_step inv.1 stepped, mirrored_step inv.1 inv.2 stepped⟩)
      ⟨sound_start layer objects registered timeout, rfl⟩
  refine ⟨Transition.always_mono (fun s inv => inv.2) kept, ?_⟩
  exact Transition.along_iff (fun _ _ _ sound stepped _ => sound_step sound stepped)
    (fun _ _ _ sound stepped => admitted_iff sound stepped) (sound_start layer objects registered timeout)

end Adapted

end AIEngine
