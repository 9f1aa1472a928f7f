import AIEngine.Transport.Expiry
import Mathlib.Data.Sym.Sym2

/-!
# Conversations and flows

A conversation is an unordered pair of endpoints and a tag. `getFlow` looks a flow up by one word that
is made of all of these, and takes whatever flow it finds under it. The word depends on the
conversation only, so a conversation keeps its flow; but different conversations may share a word.
-/

namespace AIEngine

inductive Address where
  | v4 (address : BitVec 32)
  | v6 (address : In6Addr)
  deriving DecidableEq, Repr

/-- What an address contributes to the hash. -/
def Address.word : Address → BitVec 64
  | .v4 address => address.setWidth 64
  | .v6 address =>
    address.w0.setWidth 64 ^^^ address.w1.setWidth 64 ^^^ address.w2.setWidth 64 ^^^
      address.w3.setWidth 64

structure Endpoint where
  address : Address
  port : BitVec 16
  deriving DecidableEq, Repr

def Endpoint.word (e : Endpoint) : BitVec 64 := e.address.word ^^^ e.port.setWidth 64

structure Conversation where
  ends : Sym2 Endpoint
  tag : Option (BitVec 32)
  deriving DecidableEq

/-- The id of the flow of a conversation. -/
def Conversation.hash (c : Conversation) (kind : Kind) : BitVec 64 :=
  xorTag c.tag (kind.ipproto.setWidth 64 ^^^
    c.ends.lift ⟨fun x y => x.word ^^^ y.word, fun x y => BitVec.xor_comm x.word y.word⟩)

namespace IPAddress

def source (a : IPAddress) : Address := if a.type = 4 then .v4 a.ip4Src else .v6 a.ip6Src

def destination (a : IPAddress) : Address := if a.type = 4 then .v4 a.ip4Dst else .v6 a.ip6Dst

def ends (a : IPAddress) (sourcePort destinationPort : BitVec 16) : Sym2 Endpoint :=
  s(⟨a.source, sourcePort⟩, ⟨a.destination, destinationPort⟩)

theorem getHash_eq (a : IPAddress) (srcport protocol dstport : BitVec 16) :
    a.getHash srcport protocol dstport =
      protocol.setWidth 64 ^^^ ((a.source.word ^^^ srcport.setWidth 64) ^^^
        (a.destination.word ^^^ dstport.setWidth 64)) := by
  unfold getHash source destination
  split
  · simp only [Address.word]
    ac_rfl
  · simp only [Address.word]
    ac_rfl

end IPAddress

def Packet.conversation (p : Packet) : Conversation where
  ends := p.address.ends p.sourcePort p.destinationPort
  tag := p.tag

def FlowIdent.conversation (i : FlowIdent) : Conversation where
  ends := i.address.ends i.sourcePort i.destPort
  tag := if i.haveTag then some i.tag else none

def Flow.conversation (f : Flow) : Conversation := f.ident.conversation

theorem Flow.conversation_of_name {f g : Flow} (same : f.name = g.name) :
    f.conversation = g.conversation := by
  have named := congrArg FlowIdent.conversation same
  exact named

theorem Packet.hash1_eq (p : Packet) (kind : Kind) : p.hash1 kind = p.conversation.hash kind := by
  unfold hash1 Conversation.hash
  rw [IPAddress.getHash_eq]
  rfl

/-- Swapping the ports alone, as the second lookup does, changes nothing. -/
theorem Packet.hash2_eq (p : Packet) (kind : Kind) : p.hash2 kind = p.hash1 kind := by
  unfold hash1 hash2
  rw [IPAddress.getHash_eq, IPAddress.getHash_eq]
  congr 2
  ac_rfl

namespace Transport

theorem describe_conversation (s : Transport) (kind : Kind) (p : Packet) (f : Flow) :
    (s.describe kind p f.reset).conversation = p.conversation := by
  unfold describe
  simp only
  by_cases v4 : p.address.type = 4
  · rw [if_pos v4]
    cases tag : p.tag <;>
      simp [Flow.conversation, Flow.ident, FlowIdent.conversation, Packet.conversation,
        IPAddress.ends, IPAddress.source, IPAddress.destination, Flow.setFiveTuple,
        IPAddress.setSourceAddress, IPAddress.setDestinationAddress, Flow.setLastPacketTime,
        Flow.setArriveTime, Flow.setTag, Flow.reset, v4, tag]
  · rw [if_neg v4]
    cases tag : p.tag <;>
      simp [Flow.conversation, Flow.ident, FlowIdent.conversation, Packet.conversation,
        IPAddress.ends, IPAddress.source, IPAddress.destination, Flow.setFiveTuple6,
        IPAddress.setSourceAddress6, IPAddress.setDestinationAddress6, Flow.setLastPacketTime,
        Flow.setArriveTime, Flow.setTag, Flow.reset, v4, tag]

/-! ### The ids in the table -/

/-- The flow of the table stands under the id of its own conversation. -/
def Named (kind : Kind) (s : Transport) : Prop :=
  ∀ a ∈ s.table, s.getId a = (s.flow a).conversation.hash kind

theorem named_congr {kind : Kind} {s t : Transport} (named : Named kind s)
    (sub : ∀ a ∈ t.table, a ∈ s.table) (names : ∀ a, (t.flow a).name = (s.flow a).name) :
    Named kind t := by
  intro a member
  have id : t.getId a = s.getId a := congrArg FlowIdent.hash (names a)
  rw [id, Flow.conversation_of_name (names a)]
  exact named a (sub a member)

theorem named_looked {kind : Kind} {s s₁ : Transport} {p : Packet} {hint : Nat}
    {found : Option Obj} (named : Named kind s) (looked : Looked s s₁ kind p hint found) :
    Named kind s₁ := by
  cases looked with
  | found a known same =>
    exact named_congr named (fun b member => same.table ▸ member)
      fun b => Flow.name_of_ident (same.ident b)
  | failed unknown table flows members =>
    exact named_congr named (fun b member => table ▸ member) fun b => by rw [flows b]
  | opened a unknown opened =>
    intro b member
    by_cases same : b = a
    · have id : s₁.getId a = p.hash1 kind :=
        (congrArg FlowIdent.hash opened.flow).trans (describe_ident s kind p _).1
      have conversation : (s₁.flow a).conversation = p.conversation :=
        (congrArg FlowIdent.conversation opened.flow).trans (describe_conversation s kind p _)
      rw [same, id, conversation, Packet.hash1_eq]
    · have old := ((opened.mem b).mp member).resolve_left same
      rw [getId_of_ident (opened.others b same), named b old]
      exact congrArg (Conversation.hash · kind)
        (congrArg FlowIdent.conversation (opened.others b same)).symm

theorem findFlow_eq (s : Transport) (kind : Kind) (p : Packet) :
    s.findFlow (p.hash1 kind) (p.hash2 kind) = s.findId (p.hash1 kind) := by
  unfold findFlow
  rw [Packet.hash2_eq, Option.or_self]

/-- Flows of one conversation are one flow. -/
theorem eq_of_conversation {kind : Kind} {s : Transport} (sound : Sound s) (named : Named kind s)
    {a b : Obj} (left : a ∈ s.table) (right : b ∈ s.table)
    (same : (s.flow a).conversation = (s.flow b).conversation) : a = b := by
  refine sound.eq_of_id left right ?_
  rw [named a left, named b right, same]

end Transport

/-! ### Runs with a record of who got which flow -/

structure History where
  transport : Transport
  /-- the packets whose flow was still in the table when the last packet came, and that packet -/
  log : List (Conversation × Option Obj) := []

namespace History

open Transport

def table (h : History) : List Obj := h.transport.table

def step (kind : Kind) (h : History) : Event → Option History
  | .packet p o =>
    match h.transport.processPacket kind p o with
    | .ok t => some
      { transport := t
        log := (p.conversation, t.currentFlow) ::
          h.log.filter fun e => decide (∃ a ∈ h.table, e.2 = some a) }
    | .error _ => none
  | .elsewhere w => some { h with transport := h.transport.elsewhere w }

/-- As long as a flow is in the table, the packets it gets are those of one conversation. -/
def Separate (h : History) : Prop :=
  ∀ e ∈ h.log, ∀ a ∈ e.2, ∀ e' ∈ h.log, e'.2 = some a ↔ e'.1 = e.1

instance (h : History) : Decidable (Separate h) := inferInstanceAs (Decidable (∀ _ ∈ _, _))

/-- No flow of another conversation stands in the table under the id of the packet. -/
def NoCollision (kind : Kind) (h : History) (e : Event) : Prop :=
  ∀ p o, e = .packet p o → ∀ a ∈ h.table, h.transport.getId a = p.hash1 kind →
    (h.transport.flow a).conversation = p.conversation

/-- Every flow in the table is under the id of its conversation, and the packet that opened it is on
record. -/
structure Recorded (kind : Kind) (h : History) : Prop where
  sound : Sound h.transport
  named : Named kind h.transport
  opener : ∀ a ∈ h.table, ((h.transport.flow a).conversation, some a) ∈ h.log

theorem step_packet {kind : Kind} {h h' : History} {p : Packet} {o : Outside}
    (stepped : step kind h (.packet p o) = some h') :
    h.transport.processPacket kind p o = .ok h'.transport ∧
      h'.log = (p.conversation, h'.transport.currentFlow) ::
        h.log.filter fun e => decide (∃ a ∈ h.table, e.2 = some a) := by
  unfold step at stepped
  simp only at stepped
  split at stepped
  · rename_i t processed
    obtain rfl := Option.some.inj stepped
    exact ⟨processed, rfl⟩
  · exact absurd stepped (by simp)

/-- A packet of a flow in the table that was there before keeps its record. -/
theorem kept_entry {h : History} {c : Conversation} {a : Obj} (entry : (c, some a) ∈ h.log)
    (member : a ∈ h.table) :
    (c, some a) ∈ h.log.filter fun e => decide (∃ a ∈ h.table, e.2 = some a) :=
  List.mem_filter.mpr ⟨entry, decide_eq_true ⟨a, member, rfl⟩⟩

theorem recorded_step {kind : Kind} {h h' : History} {e : Event} (recorded : Recorded kind h)
    (stepped : step kind h e = some h') : Recorded kind h' := by
  obtain ⟨sound, named, opener⟩ := recorded
  cases e with
  | elsewhere w =>
    obtain rfl := Option.some.inj stepped
    refine ⟨sound_elsewhere sound w, ?_, opener⟩
    exact named_congr named (fun _ => id) fun _ => rfl
  | packet p o =>
    obtain ⟨ran, log⟩ := step_packet stepped
    obtain ⟨found, s₁, processed⟩ := processPacket_spec sound ran
    have begun : Named kind (h.transport.begin p) := named
    have named₁ := named_looked begun processed.looked
    have after : Named kind h'.transport := by
      refine named_congr named₁ ?_ ?_
      · cases found with
        | none => exact fun b member => (processed.missed rfl).1 ▸ member
        | some a => exact (processed.outcome a rfl).sub
      · cases found with
        | none => exact fun b => by rw [(processed.missed rfl).2.1 b]
        | some a => exact (processed.outcome a rfl).names
    refine ⟨processed.after, after, fun b member => ?_⟩
    rw [log, processed.current]
    rcases processed.listed member with ⟨before, name⟩ | ⟨-, opened, name⟩
    · rw [Flow.conversation_of_name name]
      exact List.mem_cons_of_mem _ (kept_entry (opener b before) before)
    · rw [Flow.conversation_of_name name, describe_conversation, opened]
      exact List.mem_cons_self

/-- What the record says about the flows `getFlow` left behind it. -/
structure Consistent (s₁ : Transport) (log : List (Conversation × Option Obj)) : Prop where
  attributed : ∀ e ∈ log, ∀ a, e.2 = some a → a ∈ s₁.table ∧ e.1 = (s₁.flow a).conversation
  missed : ∀ e ∈ log, e.2 = none → ∀ a ∈ s₁.table, e.1 ≠ (s₁.flow a).conversation

theorem separate_of_consistent {kind : Kind} {s₁ : Transport} {h : History} (sound : Sound s₁)
    (named : Named kind s₁) (consistent : Consistent s₁ h.log) : Separate h := by
  intro e entry a known e' entry'
  obtain ⟨member, same⟩ := consistent.attributed e entry a known
  constructor
  · intro other
    rw [(consistent.attributed e' entry' a other).2, same]
  · intro equal
    rw [same] at equal
    cases found : e'.2 with
    | none => exact absurd equal (consistent.missed e' entry' found a member)
    | some b =>
      obtain ⟨member', same'⟩ := consistent.attributed e' entry' b found
      rw [eq_of_conversation sound named member' member (same'.symm.trans equal)]

theorem looked_conversation {kind : Kind} {s s₁ : Transport} {p : Packet} {hint : Nat}
    {found : Option Obj} (looked : Looked s s₁ kind p hint found) {b : Obj} (old : b ∈ s.table) :
    b ∈ s₁.table ∧ (s₁.flow b).conversation = (s.flow b).conversation := by
  cases looked with
  | found a known same =>
    exact ⟨same.table.symm ▸ old, congrArg FlowIdent.conversation (same.ident b)⟩
  | failed unknown table flows members =>
    exact ⟨table.symm ▸ old, congrArg Flow.conversation (flows b)⟩
  | opened a unknown opened =>
    have other : b ≠ a := fun same => opened.fresh (same ▸ old)
    exact ⟨(opened.mem b).mpr (Or.inr old),
      congrArg FlowIdent.conversation (opened.others b other)⟩

/-- What the record keeps of the flows that live is about flows that are still there. -/
theorem kept_attributed {kind : Kind} {h : History} {s₁ : Transport} {p : Packet} {hint : Nat}
    {found : Option Obj} (separate : Separate h)
    (opener : ∀ a ∈ h.table, ((h.transport.flow a).conversation, some a) ∈ h.log)
    (looked : Looked (h.transport.begin p) s₁ kind p hint found) :
    ∀ e ∈ h.log.filter (fun e => decide (∃ a ∈ h.table, e.2 = some a)),
      ∃ a, e.2 = some a ∧ a ∈ s₁.table ∧ e.1 = (s₁.flow a).conversation := by
  intro e kept
  obtain ⟨entry, lives⟩ := List.mem_filter.mp kept
  obtain ⟨a, member, known⟩ := of_decide_eq_true lives
  obtain ⟨there, same⟩ := looked_conversation looked member
  refine ⟨a, known, there, ?_⟩
  rw [same]
  exact ((separate e entry a known _ (opener a member)).mp rfl).symm

/-- The packet is put on record with the flow it found, when no other conversation has its hash. -/
theorem consistent_looked {kind : Kind} {h : History} {s₁ : Transport} {p : Packet} {hint : Nat}
    {found : Option Obj} (named₁ : Named kind s₁) (separate : Separate h)
    (opener : ∀ a ∈ h.table, ((h.transport.flow a).conversation, some a) ∈ h.log)
    (looked : Looked (h.transport.begin p) s₁ kind p hint found)
    (free : ∀ a ∈ h.table, h.transport.getId a = p.hash1 kind →
      (h.transport.flow a).conversation = p.conversation) :
    Consistent s₁ ((p.conversation, found) ::
      h.log.filter fun e => decide (∃ a ∈ h.table, e.2 = some a)) := by
  have older := kept_attributed separate opener looked
  constructor
  · intro e entry a known
    rcases List.mem_cons.mp entry with rfl | kept
    · simp only at known
      subst known
      refine ⟨looked.mem, ?_⟩
      cases looked with
      | found _ known same =>
        rw [findFlow_eq] at known
        obtain ⟨listed, id⟩ := findId_some known
        have conversation := free a listed id
        rw [← conversation]
        exact (congrArg FlowIdent.conversation (same.ident a)).symm
      | opened _ unknown opened =>
        exact ((congrArg FlowIdent.conversation opened.flow).trans
          (describe_conversation (h.transport.begin p) kind p _)).symm
    · obtain ⟨b, same, there, conversation⟩ := older e kept
      obtain rfl := Option.some.inj (same.symm.trans known)
      exact ⟨there, conversation⟩
  · intro e entry none a member
    rcases List.mem_cons.mp entry with rfl | kept
    · simp only at none
      subst none
      intro equal
      cases looked with
      | failed unknown table flows members =>
        have id : s₁.getId a = p.hash1 kind := by
          rw [named₁ a member, ← equal, Packet.hash1_eq]
        have absent := (findFlow_none unknown a (table ▸ member)).1
        have same : (h.transport.begin p).getId a = s₁.getId a :=
          (congrArg Flow.hash (flows a)).symm
        exact absent (same.trans id)
    · obtain ⟨b, same, -⟩ := older e kept
      exact absurd (same.symm.trans none) (by simp)

theorem separate_iff {kind : Kind} {h h' : History} {p : Packet} {o : Outside}
    (recorded : Recorded kind h) (separate : Separate h)
    (stepped : step kind h (.packet p o) = some h') :
    Separate h' ↔ ∀ a ∈ h.table, h.transport.getId a = p.hash1 kind →
      (h.transport.flow a).conversation = p.conversation := by
  obtain ⟨sound, named, opener⟩ := recorded
  obtain ⟨ran, log⟩ := step_packet stepped
  obtain ⟨found, s₁, processed⟩ := processPacket_spec sound ran
  have begun : Named kind (h.transport.begin p) := named
  have named₁ := named_looked begun processed.looked
  rw [processed.current] at log
  constructor
  · intro apart a member id
    -- the packet finds this flow, whose opener is still on record
    have known : h.transport.findFlow (p.hash1 kind) (p.hash2 kind) = some a := by
      rw [findFlow_eq, ← id]
      exact sound.findId member
    have got : found = some a := by
      cases processed.looked with
      | found b known' same => exact known'.symm.trans known
      | failed unknown table flows members => exact absurd (unknown.symm.trans known) (by simp)
      | opened b unknown opened => exact absurd (unknown.symm.trans known) (by simp)
    have first : (p.conversation, found) ∈ h'.log := log ▸ List.mem_cons_self
    have second : ((h.transport.flow a).conversation, some a) ∈ h'.log :=
      log ▸ List.mem_cons_of_mem _ (kept_entry (opener a member) member)
    exact (apart _ first a got _ second).mp rfl
  · intro free
    refine separate_of_consistent processed.sound named₁ ?_
    rw [log]
    exact consistent_looked named₁ separate opener processed.looked free

def start (layer : Nat) (objects : CacheId → Nat) (registered : Option Nat) (timeout : Int) :
    History where
  transport := Transport.start layer objects registered timeout

/-- A run keeps its conversations apart, and each in its flow, exactly when no packet comes while a
flow of another conversation stands under its id. -/
theorem always_separate_iff (kind : Kind) (layer : Nat) (objects : CacheId → Nat)
    (registered : Option Nat) (timeout : Int) (events : List Event) :
    Transition.Always (step kind) Separate (start layer objects registered timeout) events ↔
      Transition.Along (step kind) (fun h e _ => NoCollision kind h e)
        (start layer objects registered timeout) events := by
  have empty : Recorded kind (start layer objects registered timeout) :=
    ⟨sound_start layer objects registered timeout,
      fun a member => absurd member (by simp [start, Transport.start, World.start, Transport.table]),
      fun a member => absurd member (by
        simp [start, History.table, Transport.start, World.start, Transport.table])⟩
  have silent : Separate (start layer objects registered timeout) :=
    fun e entry => absurd entry (by simp [start])
  refine Transition.always_iff_along (fun _ _ _ recorded h => recorded_step recorded h) ?_ empty
    silent
  intro h e h' recorded separate stepped
  cases e with
  | packet p o =>
    rw [separate_iff recorded separate stepped]
    exact ⟨fun free q o' same => by cases same; exact free, fun free => free p o rfl⟩
  | elsewhere w =>
    obtain rfl := Option.some.inj stepped
    exact iff_of_true separate (fun p o same => absurd same (by simp))

/-- Two hosts, two connections, and the ports of the second are those of the first the other way
round: one flow gets both. -/
theorem not_always_separate :
    ¬∃ kind, ∀ ps, Transition.Always (step kind) Separate
      (start 0 (fun _ => 2) (some 0) 180) (packets ps) := by
  intro ⟨kind, h⟩
  have run := h [
    ({ time := 1
       address := { ip4Src := 0x0a000001, ip4Dst := 0x0a000002 }
       sourcePort := 1000
       destinationPort := 2000
       tcp := { syn := true } }, {}),
    ({ time := 2
       address := { ip4Src := 0x0a000001, ip4Dst := 0x0a000002 }
       sourcePort := 2000
       destinationPort := 1000
       tcp := { syn := true } }, {})]
  revert run
  cases kind with
  | tcp => exact Transition.not_always_of_run (by decide +kernel)
  | udp => exact Transition.not_always_of_run (by decide +kernel)

end History

end AIEngine
