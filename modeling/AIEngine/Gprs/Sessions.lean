import AIEngine.Gprs.Filing

/-!
# Runs of GTP packets

Flows open and end, and the packets of the open ones come in any order. Beside the protocol the
state keeps the packets of every flow, and what the packets that were handled say they are.
-/

namespace AIEngine

structure Sessions where
  protocol : GPRSProtocol
  /-- the packets of a flow since it was opened -/
  packets : Obj → List GtpPacket := fun _ => []
  /-- by the type octets of the packets themselves -/
  messages : GtpMessage → Nat := fun _ => 0

namespace Sessions

inductive Event where
  | openFlow (a : Obj)
  | packet (a : Obj) (p : GtpPacket)
  | endFlow (a : Obj)

def note (s : Sessions) (a : Obj) (p : GtpPacket) : GtpMessage → Nat :=
  if s.protocol.Handled a p then GPRSProtocol.counted s.messages p.message else s.messages

/-- A live flow is not opened again, and only live flows have packets and end. -/
def step (s : Sessions) : Event → Option Sessions
  | .openFlow a =>
    if a ∈ s.protocol.table then none
    else some { s with
      protocol := s.protocol.openFlow a
      packets := fun b => if b = a then [] else s.packets b }
  | .packet a p =>
    if a ∈ s.protocol.table then
      match s.protocol.forwardFlow a p with
      | .ok t => some {
          protocol := t
          packets := fun b => if b = a then p :: s.packets b else s.packets b
          messages := s.note a p }
      | .error _ => none
    else none
  | .endFlow a =>
    if a ∈ s.protocol.table then some { s with protocol := s.protocol.endFlow a } else none

/-- A stored value is the default or one that some of the packets requests. -/
def Sourced (ps : List GtpPacket) (info : GPRSInfo) : Prop :=
  (info.imsi = 0 ∨ ∃ p ∈ ps, p.request.bind (·.imsi) = some info.imsi) ∧
  (info.pdpTypeNumber = 0 ∨ ∃ p ∈ ps, p.request.bind (·.pdpType) = some info.pdpTypeNumber)

instance (ps : List GtpPacket) (info : GPRSInfo) : Decidable (Sourced ps info) :=
  inferInstanceAs (Decidable (_ ∧ _))

/-- What stands in the info of a flow comes from a packet of the flow. -/
def StoresOwn (s : Sessions) : Prop :=
  ∀ a ∈ s.protocol.table, ∀ i ∈ s.protocol.infoCache.lock (s.protocol.flows a).gprsInfo,
    Sourced (s.packets a) (s.protocol.infos i)

instance (s : Sessions) : Decidable s.StoresOwn := by
  unfold StoresOwn
  infer_instance

/-- Every counter counts the packets that are of its message by their own type octet, in a word. -/
def CountsOwn (s : Sessions) : Prop := ∀ m, s.protocol.totals m = BitVec.ofNat 32 (s.messages m)

/-- The protocol acts on the packets it is given. -/
def ActsOnOwn (s : Sessions) : Prop := s.CountsOwn ∧ s.StoresOwn

/-- The packet is handled by a header that says what its own octets say. -/
def OwnHeader (s : Sessions) (e : Event) (_ : Sessions) : Prop :=
  match e with
  | .packet a p => s.protocol.Own a p
  | _ => True

/-! ### One packet -/

open GPRSProtocol

variable {s t : GPRSProtocol} {a : Obj} {p : GtpPacket}

theorem sourced_empty (ps : List GtpPacket) : Sourced ps {} := ⟨Or.inl rfl, Or.inl rfl⟩

theorem sourced_more {ps qs : List GtpPacket} {info : GPRSInfo} (sub : ∀ p ∈ ps, p ∈ qs)
    (h : Sourced ps info) : Sourced qs info := by
  refine ⟨h.1.imp_right ?_, h.2.imp_right ?_⟩
  · rintro ⟨p, known, request⟩
    exact ⟨p, sub p known, request⟩
  · rintro ⟨p, known, request⟩
    exact ⟨p, sub p known, request⟩

theorem sourced_store {ps : List GtpPacket} {c : GtpHeader.PdpContext} {i : Obj}
    (known : p ∈ ps) (request : p.request = some c) (h : Sourced ps (s.infos i)) :
    Sourced ps ((s.store i c).infos i) := by
  have stored : (s.store i c).infos i = { s.infos i with
      imsi := c.imsi.getD (s.infos i).imsi
      pdpTypeNumber := c.pdpType.getD (s.infos i).pdpTypeNumber } := if_pos rfl
  rw [stored]
  constructor
  · cases imsi : c.imsi with
    | none => exact h.1
    | some v => exact Or.inr ⟨p, known, by rw [request]; exact imsi⟩
  · cases type : c.pdpType with
    | none => exact h.2
    | some v => exact Or.inr ⟨p, known, by rw [request]; exact type⟩

/-- The message on which the protocol acts is what the packet's own octet means. -/
theorem messageFor_own (own : s.Own a p) (known : ∃ h, s.headerFor a p = some h) :
    s.messageFor a p = if s.Handled a p then p.message else none := by
  unfold messageFor
  split
  · rename_i handled
    obtain ⟨h, at'⟩ := known
    rw [at']
    exact (own handled h at').1
  · rfl

/-- A packet that is handled was handled by some header. -/
theorem headerFor_known (ran : s.forwardFlow a p = .ok t) (handled : s.Handled a p) :
    ∃ h, s.headerFor a p = some h := by
  obtain ⟨accepted, busy⟩ := handled
  unfold forwardFlow at ran
  split at ran
  · rename_i ff known
    have header : s.headerFor a p = s.header := if_neg (by simp [known])
    rcases processFlow_cases ran with ⟨idle, -⟩ | ⟨-, h, at', -⟩
    · exact absurd busy idle
    · exact ⟨h, header.trans at'⟩
  · rename_i unknown
    exact ⟨p.address, if_pos unknown⟩

/-- The parsed context is the one that the packet requests by its own octets. -/
theorem filed_parsed {held : List Obj} {u : GPRSProtocol} (ps : Obj → List GtpPacket)
    (filed : Filed (fun b info => Sourced (ps b) info) held s) (live : a ∈ s.table)
    (known : p ∈ ps a) (message : p.message = some .createPdpContextRequest)
    (whole : (GtpHeader.createPdpContext p.octets).isSome = true)
    (ran : s.processCreatePdpContext a p p.address = .ok u) :
    ∃ held', Filed (fun b info => Sourced (ps b) info) held' u := by
  have empty : ∀ b, Sourced (ps b) {} := fun b => sourced_empty (ps b)
  unfold processCreatePdpContext at ran
  split at ran
  · rename_i i s₁ attached
    obtain ⟨⟨held', filed'⟩, table, pointer⟩ := filed_attachInfo empty filed attached
    have live' : a ∈ s₁.table := by
      rw [table]
      exact live
    have at' := pointer i rfl
    obtain ⟨c, read⟩ := Option.isSome_iff_exists.mp whole
    have behind := GtpHeader.createPdpContext_mono p.octets_extends read
    rw [behind] at ran
    obtain rfl := Except.ok.inj ran
    have request : p.request = some c := by
      rw [GtpPacket.request, if_pos message]
      exact read
    refine ⟨held', filed_store filed' live' at' ?_⟩
    exact sourced_store known request (filed'.filed a live' i at')
  · rename_i s₁ attached
    obtain rfl := Except.ok.inj ran
    exact (filed_attachInfo empty filed attached).1
  · exact absurd ran (by simp)

/-! ### Every run -/

/-- What is kept as long as every packet is handled by its own header. -/
structure Own (s : Sessions) : Prop where
  counts : s.CountsOwn
  filed : ∃ held, Filed (fun a info => Sourced (s.packets a) info) held s.protocol

theorem own_acts {s : Sessions} (h : s.Own) : s.ActsOnOwn := by
  obtain ⟨counts, held, filed⟩ := h
  refine ⟨counts, fun a live i locked => ?_⟩
  exact filed.filed a live i (Cache.lock_some locked).1

theorem own_packet {s : Sessions} {t : GPRSProtocol} {a : Obj} {p : GtpPacket} (h : s.Own)
    (live : a ∈ s.protocol.table) (own : s.protocol.Own a p)
    (ran : s.protocol.forwardFlow a p = .ok t) :
    Own {
      protocol := t
      packets := fun b => if b = a then p :: s.packets b else s.packets b
      messages := s.note a p } := by
  obtain ⟨counts, held, filed⟩ := h
  obtain ⟨totals, effect⟩ := forwardFlow_cases ran
  constructor
  · intro m
    show t.totals m = BitVec.ofNat 32 (s.note a p m)
    rw [totals]
    unfold note
    by_cases handled : s.protocol.Handled a p
    · have words : s.protocol.totals = fun n => BitVec.ofNat 32 (s.messages n) := funext counts
      rw [if_pos handled, messageFor_own own (headerFor_known ran handled), if_pos handled, words, counted_ofNat]
    · rw [if_neg handled, messageFor, if_neg handled, counted_none]
      exact counts m
  · have more : Filed (fun b info => Sourced (if b = a then p :: s.packets b else s.packets b) info)
        held s.protocol := by
      refine filed_mono (fun b info => sourced_more fun q known => ?_) filed
      by_cases same : b = a
      · rw [if_pos same]
        exact List.mem_cons_of_mem _ known
      · rw [if_neg same]
        exact known
    rcases effect with alike | ⟨h, at', handled, create, s₁, u, before, parsed, after⟩
    · exact ⟨held, filed_alike alike more⟩
    · obtain ⟨message, request⟩ := own handled h at'
      rw [create] at message
      obtain ⟨rfl, whole⟩ := request message.symm
      have live' : a ∈ s₁.table := by
        rw [before.table]
        exact live
      have known : p ∈ if a = a then p :: s.packets a else s.packets a := by
        rw [if_pos rfl]
        exact List.mem_cons_self
      obtain ⟨held', filed'⟩ := filed_parsed _ (filed_alike before more) live' known message.symm
        whole parsed
      exact ⟨held', filed_alike after filed'⟩

theorem own_step {s t : Sessions} {e : Event} (h : s.Own) (stepped : s.step e = some t)
    (own : OwnHeader s e t) : t.Own := by
  cases e with
  | openFlow a =>
    simp only [step] at stepped
    split at stepped
    · exact absurd stepped (by simp)
    · rename_i fresh
      obtain rfl := Option.some.inj stepped
      obtain ⟨counts, held, filed⟩ := h
      obtain ⟨assigned, stored⟩ := filed_openFlow filed fresh
      refine ⟨counts, held, assigned, fun b live i at' => ?_⟩
      have different : b ≠ a := by
        rintro rfl
        exact absurd ((pointer_openFlow s.protocol b).symm.trans at') (by simp)
      show Sourced (if b = a then [] else s.packets b) _
      rw [if_neg different]
      exact stored b live i at'
  | packet a p =>
    simp only [step] at stepped
    split at stepped
    · rename_i live
      split at stepped
      · rename_i u ran
        obtain rfl := Option.some.inj stepped
        exact own_packet h live own ran
      · exact absurd stepped (by simp)
    · exact absurd stepped (by simp)
  | endFlow a =>
    simp only [step] at stepped
    split at stepped
    · rename_i live
      obtain rfl := Option.some.inj stepped
      obtain ⟨counts, held, filed⟩ := h
      exact ⟨counts, filed_endFlow filed live⟩
    · exact absurd stepped (by simp)

/-- The protocol with `n` infos in its pool. -/
def start (n : Nat) : Sessions where
  protocol := { infoCache := Cache.create { id := .info .gprs } n }

theorem own_start (n : Nat) : (start n).Own := by
  refine ⟨fun _ => rfl, [], Pool.assigned_start (.info .gprs) n _, fun a live => ?_⟩
  exact absurd live (by simp [start])

/-- As long as every packet is handled by a header that says what its own octets say, the protocol
acts on the packets it is given. -/
theorem always_acts_on_own (n : Nat) (events : List Event)
    (own : Transition.Along step OwnHeader (start n) events) :
    Transition.Always step ActsOnOwn (start n) events := by
  have kept := Transition.always_of_along (fun _ _ _ => own_step) (own_start n) own
  exact Transition.always_mono (fun _ => own_acts) kept

/-- A T-PDU of 8 octets, and behind it a request with an IMSI. -/
def buffer (i : Nat) : BitVec 8 :=
  ([0x30, 0xff, 0, 0, 0, 0, 0, 0,
    0x30, 0x10, 0, 0, 0, 0, 0, 0, 0, 0, 0, 0, 0x02, 1, 2, 3, 4, 5, 6, 7, 8] : List (BitVec 8)).getD i 0

def tPdu : GtpPacket := { memory := buffer, address := 0, length := 8 }

def createRequest : GtpPacket := { memory := buffer, address := 8, length := 22 }

/-- Two flows whose first packets are checked. -/
theorem acts_two_flows : Transition.Always step ActsOnOwn (start 1)
    [.openFlow ⟨.flow 0, 0⟩, .packet ⟨.flow 0, 0⟩ tPdu, .openFlow ⟨.flow 0, 1⟩,
      .packet ⟨.flow 0, 1⟩ createRequest] := by
  apply always_acts_on_own
  refine Transition.along_cons rfl trivial (Transition.along_cons rfl ?_
    (Transition.along_cons rfl trivial (Transition.along_cons rfl ?_ trivial)))
  · show GPRSProtocol.Own _ _ _
    decide +kernel
  · show GPRSProtocol.Own _ _ _
    decide +kernel

/-- The next T-PDU of the first flow is handled by the header of the request, so that the first flow
gets the IMSI of the second. -/
theorem not_always_acts_on_own :
    ¬∀ n events, Transition.Always step ActsOnOwn (start n) events := by
  intro h
  have stored := Transition.always_mono (fun _ acts => acts.2) (h 2
    [.openFlow ⟨.flow 0, 0⟩, .packet ⟨.flow 0, 0⟩ tPdu, .openFlow ⟨.flow 0, 1⟩,
      .packet ⟨.flow 0, 1⟩ createRequest, .packet ⟨.flow 0, 0⟩ tPdu])
  exact Transition.not_always_of_run (by decide +kernel) stored

end Sessions

end AIEngine
