import AIEngine.Reject.RejectManager
import AIEngine.Stack.Completion
import AIEngine.Stack.Encapsulation

/-!
# The engine captures its own resets

The forged segments of a rejected flow go out on the network that the engine listens to, so they come back to
it. They are for the flow that they were made of, and take it out of the table.
-/

namespace AIEngine

open Ending (Ends)
open RejectManager (forged4 rejectTCPFlow)
open Stack (Frame)
open Tcp (Side)

namespace TransportLayer

/-- Nothing that `processPacket` does to the transport is left out in a layer of the stack. -/
theorem process_map {s : TransportLayer} {kind : Kind} {down : Multiplexer} {p : Frame} {o : Outside} {x : Packet}
    (read : segment kind down p = .ok x) :
    (s.process kind down p o).map (fun r => r.1.transport) = s.transport.processPacket kind x o := by
  rw [Transport.processPacket_halves]
  unfold process before
  rw [read]
  simp only [bind, Except.bind]
  cases s.transport.enter kind x o with
  | error e => rfl
  | ok r =>
    obtain ⟨t, e⟩ := r
    cases e with
    | ended => rfl
    | finishing a =>
      show Except.map _ (t.finish a o.hint kind >>= _) = t.finish a o.hint kind
      cases t.finish a o.hint kind <;> rfl
    | handing a =>
      show Except.map _ (t.forwardFlow a o >>= _) = t.forwardFlow a o >>= fun u => u.finish a o.hint kind
      cases t.forwardFlow a o with
      | error e => rfl
      | ok u =>
        show Except.map _ (u.finish a o.hint kind >>= _) = u.finish a o.hint kind
        cases u.finish a o.hint kind <;> rfl

theorem check_long {s : TransportLayer} {p : Frame} (long : 20 ≤ p.length) :
    ∃ l q, s.check .tcp p = .ok (true, l, q) ∧ l.transport = s.transport ∧ q.curr = p.curr ∧ q.tag = p.tag := by
  have fits : (Kind.tcp.headerSize : Int) ≤ p.length := long
  obtain ⟨h, header, -⟩ := tcp_readHeader fits
  unfold check TCPProtocol.tcpChecker
  dsimp only
  rw [if_pos fits, header]
  exact ⟨_, _, rfl, rfl, checked_curr h p.toPacket, rfl⟩

end TransportLayer

namespace Transport

variable {s t : Transport} {kind : Kind} {p : Packet} {o : Outside} {a : Obj}

theorem named_processPacket (sound : Sound s) (named : Named kind s) (ran : s.processPacket kind p o = .ok t) :
    Named kind t := by
  obtain ⟨found, s₁, processed⟩ := processPacket_spec sound ran
  have begun : Named kind (s.begin p) := named
  have named₁ := named_looked begun processed.looked
  cases found with
  | none =>
    obtain ⟨table, flows, -⟩ := processed.missed rfl
    exact named_congr named₁ (fun b member => table ▸ member) fun b => by rw [flows b]
  | some a => exact named_congr named₁ (processed.outcome a rfl).sub (processed.outcome a rfl).names

/-- The flows are of IPv4 and have no tag. -/
def Untagged4 (s : Transport) : Prop :=
  ∀ b ∈ s.table, (s.flow b).name.address.type = 4 ∧ (s.flow b).name.haveTag = false

theorem describe_untagged4 (f : Flow) (four : p.address.type = 4) (untagged : p.tag = none) :
    (s.describe kind p f.reset).name.address.type = 4 ∧ (s.describe kind p f.reset).name.haveTag = false := by
  unfold describe
  rw [untagged]
  simp only [if_pos four]
  exact ⟨rfl, rfl⟩

theorem untagged4_processPacket (sound : Sound s) (flows : Untagged4 s) (four : p.address.type = 4)
    (untagged : p.tag = none) (ran : s.processPacket kind p o = .ok t) : Untagged4 t := by
  intro b member
  obtain ⟨found, s₁, processed⟩ := processPacket_spec sound ran
  rcases processed.listed member with ⟨before, name⟩ | ⟨-, -, name⟩
  · rw [name]
    exact flows b before
  · rw [name]
    exact describe_untagged4 (s.flow b) four untagged

/-! ### A segment with RST and without payload -/

theorem enter_handing {p : Packet} (entered : s.enter .tcp p o = .ok (t, .handing a)) :
    0 < p.totalLength - p.headerSize - p.tcpHdrLength := by
  obtain ⟨⟨found, u⟩, -, entered⟩ := Ending.bind_ok entered
  cases found with
  | none => exact absurd entered (by simp)
  | some b =>
    simp only at entered
    split at entered
    · exact absurd entered (by simp)
    · unfold TCPProtocol.enterFlow at entered
      obtain ⟨v, -, entered⟩ := Ending.bind_ok entered
      dsimp only at entered
      split at entered
      · rename_i handed
        exact handed.2
      · split at entered
        · obtain ⟨w, -, entered⟩ := Ending.bind_ok entered
          exact absurd entered (by simp)
        · exact absurd entered (by simp)

/-- What a segment with RST and without payload leaves of the table. -/
theorem reset_table {p : Packet} (steady : Steady .tcp s)
    (known : s.findFlow (p.hash1 .tcp) (p.hash2 .tcp) = some a) (rst : p.tcp.rst = true)
    (empty : ¬0 < p.totalLength - p.headerSize - p.tcpHdrLength) :
    ∃ t, s.processPacket .tcp p o = .ok t ∧
      t.table = if (s.lockTcpInfo a).isSome then s.table.erase a else s.table := by
  have goes := processPacket_ends (p := p) (o := o) steady
  cases ran : s.processPacket .tcp p o with
  | error e =>
    rw [ran] at goes
    obtain ⟨t, b, entered, -⟩ := goes
    exact absurd (enter_handing entered) empty
  | ok t =>
    refine ⟨t, rfl, ?_⟩
    obtain ⟨found, s₁, processed⟩ := processPacket_spec steady.sound ran
    obtain ⟨s₂, got, same, pools, infos, -⟩ := getFlow_known o.hint known
    obtain ⟨rfl, rfl⟩ := Prod.mk.inj (Except.ok.inj (processed.got.symm.trans got))
    have locks : s₁.lockTcpInfo a = s.lockTcpInfo a := pools.lockTcpInfo a
    have table : s₁.table = s.table := same.table
    cases locked : s.lockTcpInfo a with
    | none =>
      -- without its `TCPInfo` the packet does nothing
      have silent : s₁.Ignored .tcp a := ⟨rfl, locks.trans locked⟩
      cases processed.outcome a rfl with
      | ignored _ flows kept => exact kept.trans table
      | closed heard => exact absurd silent heard
      | swept heard => exact absurd silent heard
      | timed heard => exact absurd silent heard
    | some i =>
      have flowPacket := processPacket_got got (locks.trans locked) ran
      obtain ⟨d, direction⟩ := getFlow_side got
      obtain ⟨st, before⟩ := steady.range rfl i
      have numbers : Tcp.InRange (Transport.tcpInfos { s₁ with currentFlow := some a } i) st := by
        show Tcp.InRange (s₁.tcpInfos i) st
        rw [infos]
        exact before
      have stays : ¬Forwarded { s₁ with currentFlow := some a } p := fun both => empty both.2
      obtain ⟨v, kept, -, closes⟩ := processFlowPacket_closes (o := o) numbers direction rst stays
      have current : Sound { s₁ with currentFlow := some a } :=
        processed.sound.congr rfl (fun _ _ => rfl) (.of_eq rfl)
      have member : a ∈ v.table := kept.table ▸ processed.looked.mem
      obtain ⟨-, left, -⟩ := closeFlow_spec (current.same kept) member (closes.symm.trans flowPacket)
      rw [left, kept.table]
      show s₁.table.erase a = s.table.erase a
      rw [table]

end Transport

namespace TCPHeader

variable {tcp : TCPHeader} {p : Stack.Packet} {start : Nat} {more : Bytes}

theorem length_memory (tcp : TCPHeader) : tcp.memory.length = 20 := rfl

/-- The datagram of a segment without payload. -/
def datagram (tcp : TCPHeader) (src dst : BitVec 32) : Datagram where
  dontFragment := true
  protocol := 6
  source := src
  destination := dst
  segment := tcp.memory
  short := by
    rw [length_memory]
    decide

theorem datagram_octets (tcp : TCPHeader) (src dst : BitVec 32) :
    (tcp.datagram src dst).octets =
      ((IPv4Header.new ipprotoTcp src dst).setTotalLength 40).memory ++ tcp.memory := by
  have long : (tcp.datagram src dst).length = 40 := rfl
  unfold Datagram.octets IPv4Header.memory
  rw [long]
  simp only [IPv4Header.setTotalLength, IPv4Header.new, datagram, Datagram.offset, ipprotoTcp]
  rfl

/-- The receiver reads what was written. -/
theorem readHeader_memory (here : p.curr = RawPacket.whole start (tcp.memory ++ more)) :
    TCPProtocol.readHeader p =
      .ok { source := tcp.source, dest := tcp.dest, seq := tcp.seq, doff := tcp.doff, flags := tcp.flags } := by
  have source : p.curr.half 0 = .ok tcp.source := by
    rw [here]
    exact RawPacket.half_memory16 start [] _ tcp.source
  have dest : p.curr.half 2 = .ok tcp.dest := by
    rw [here]
    exact RawPacket.half_memory16 start (memory16 tcp.source) _ tcp.dest
  have seq : p.curr.quad 4 = .ok tcp.seq := by
    rw [here]
    exact RawPacket.quad_memory32 start (memory16 tcp.source ++ memory16 tcp.dest) _ tcp.seq
  have offset : p.byte 12 = .ok (tcp.doff ++ tcp.res1) := by
    unfold Stack.Packet.byte
    rw [here]
    rfl
  have flags : p.byte 13 = .ok tcp.flags := by
    unfold Stack.Packet.byte
    rw [here]
    rfl
  have doff : (tcp.doff ++ tcp.res1).extractLsb' 4 4 = tcp.doff := BitVec.extractLsb'_append_eq_left
  unfold TCPProtocol.readHeader
  rw [source, dest, seq, offset, flags]
  simp only [bind, Except.bind, doff]

end TCPHeader

namespace RejectManager

variable {flow : Flow} {side : Side} {number : Option (BitVec 32)}

/-- The datagram that the raw socket sends. -/
def resetDatagram (flow : Flow) (side : Side) (number : Option (BitVec 32)) : Datagram :=
  (forged4 flow side number).tcp.datagram (address flow side) (address flow (other side))

theorem resetDatagram_octets (flow : Flow) (side : Side) (number : Option (BitVec 32)) :
    (resetDatagram flow side number).octets =
      (forged4 flow side number).ip.memory ++ (forged4 flow side number).tcp.memory :=
  TCPHeader.datagram_octets _ _ _

/-- TCP reads the ports of the flow, and no payload behind the header. -/
theorem reset_segment {start : Nat} {more : Bytes} {p : Frame}
    (here : p.curr = RawPacket.whole start ((forged4 flow side number).tcp.memory ++ more)) :
    ∃ x, TransportLayer.segment .tcp (resetDatagram flow side number).registers p = .ok x ∧
      x.address = (resetDatagram flow side number).registers.address ∧ x.tag = p.tag ∧
        x.sourcePort = port flow side ∧ x.destinationPort = port flow (other side) ∧ x.tcp.rst = true ∧
          ¬0 < x.totalLength - x.headerSize - x.tcpHdrLength := by
  have read := TCPHeader.readHeader_memory (p := p.toPacket) here
  have source : ntohs (forged4 flow side number).tcp.source = port flow side := by
    cases number <;> exact ntohs_htons (port flow side)
  have dest : ntohs (forged4 flow side number).tcp.dest = port flow (other side) := by
    cases number <;> exact ntohs_htons (port flow (other side))
  have flags : (forged4 flow side number).tcp.flags = 4 := by cases number <;> exact (by decide : (0 ||| 4 : BitVec 8) = 4)
  have doff : (forged4 flow side number).tcp.doff = 5 := by cases number <;> rfl
  refine ⟨_, by unfold TransportLayer.segment; rw [read]; rfl, rfl, rfl, source, dest, ?_, ?_⟩
  · show (forged4 flow side number).tcp.flags.getLsbD 2 = true
    rw [flags]
    decide
  · show ¬(0 : Int) < (resetDatagram flow side number).length.toNat - 20 - (forged4 flow side number).tcp.doff.toNat * 4
    have forty : (resetDatagram flow side number).length = 40 := rfl
    rw [doff, forty]
    decide

theorem reset_conversation {x : Packet} (four : flow.name.address.type = 4) (untagged : flow.name.haveTag = false)
    (address : x.address = (resetDatagram flow side number).registers.address) (tag : x.tag = none)
    (source : x.sourcePort = port flow side) (dest : x.destinationPort = port flow (other side)) :
    x.conversation = flow.conversation := by
  have four : flow.address.type = 4 := four
  have untagged : flow.haveTag = false := untagged
  unfold Packet.conversation Flow.conversation Flow.ident FlowIdent.conversation IPAddress.ends IPAddress.source
    IPAddress.destination
  rw [address, tag, source, dest]
  simp only [four, untagged, if_true]
  cases side with
  | originator => rfl
  | responder => exact congrArg (fun ends => Conversation.mk ends none) Sym2.eq_swap

end RejectManager

namespace NetworkStack

/-- What the segments of a rejection find when they are captured. -/
def Recalls (kind : Kind) (t : Transport) : Prop := Transport.Named kind t ∧ t.Untagged4

theorem recalls_kept : LanTransports.Kept Recalls := by
  intro kind s x o t steady recalls four untagged ran
  exact ⟨Transport.named_processPacket steady.sound recalls.1 ran,
    Transport.untagged4_processPacket steady.sound recalls.2 four untagged ran⟩

theorem recalls_start (kind : Kind) (layer : Nat) (objects : CacheId → Nat) (registered : Option Nat)
    (timeout : Int) : Recalls kind (Transport.start layer objects registered timeout) := by
  have empty : (Transport.start layer objects registered timeout).table = [] := rfl
  exact ⟨fun a member => absurd (empty ▸ member) (by simp), fun a member => absurd (empty ▸ member) (by simp)⟩

theorem lan_recalls {outside : Frame → Outside} {objects : CacheId → Nat} {registered : Option Nat} {timeout : Int}
    {past : List Call} {s : NetworkStack LanTransports}
    (reached : Transition.run (step (lanTransports false outside))
      (new .lan (LanTransports.new objects registered timeout)) past = some s) :
    s.upper.Steady ∧ s.upper.Holds Recalls := by
  have keeps : Keeps (lanTransports false outside) .lan (fun u => u.Steady ∧ u.Holds Recalls)
      (LanTransports.Starves outside) :=
    fun _ _ inv => ⟨_, _, _, lan_rules recalls_kept inv.1 inv.2, ⟨rfl, rfl⟩, fun _ after => after⟩
  refine reached_keeps keeps nofun ⟨LanTransports.steady_new objects registered timeout, fun kind => ?_⟩ reached
  cases kind with
  | tcp => exact recalls_start .tcp 0 objects registered timeout
  | udp => exact recalls_start .udp 1 objects registered timeout

theorem forged_of_rejected {flow : Flow} {info : Option Tcp.TCPInfo} {segments : List RejectManager.Forged4}
    {x : RejectManager.Forged4} (rejected : rejectTCPFlow true flow info = .ok segments) (member : x ∈ segments) :
    ∃ side number, x = forged4 flow side number := by
  cases read : RejectManager.seqNum info 0 with
  | error e =>
    unfold rejectTCPFlow at rejected
    simp only [read, bind, Except.bind] at rejected
    exact absurd rejected (by simp)
  | ok number =>
    have both := (RejectManager.rejectTCPFlow_eq flow read).1
    obtain rfl := Except.ok.inj (both.symm.trans rejected)
    rcases List.mem_cons.mp member with rfl | member
    · exact ⟨.responder, number, rfl⟩
    · obtain rfl := List.mem_singleton.mp member
      exact ⟨.originator, number, rfl⟩

/-- A segment that TCP is given of a reset. -/
theorem deliver_reset {u : LanTransports} {a : Obj} (steady : u.Steady) (recalls : u.Holds Recalls)
    (member : a ∈ u.tcp.transport.table) (outside : Frame → Outside) (side : Side) (number : Option (BitVec 32))
    (start : Nat) (more : Bytes) (time : Int) :
    ∃ l b, deliver (lanTransports false outside) .tcp u
        (RejectManager.resetDatagram (u.tcp.transport.flow a) side number).registers
        ((RejectManager.resetDatagram (u.tcp.transport.flow a) side number).given start more time) =
          .ok ({ u with tcp := l }, b) ∧
      l.transport.table = if (u.tcp.transport.lockTcpInfo a).isSome then u.tcp.transport.table.erase a
        else u.tcp.transport.table := by
  have here : ((RejectManager.resetDatagram (u.tcp.transport.flow a) side number).given start more time).curr =
      RawPacket.whole (start + 20) ((forged4 (u.tcp.transport.flow a) side number).tcp.memory ++ more) := rfl
  have untagged : ((RejectManager.resetDatagram (u.tcp.transport.flow a) side number).given start more time).tag =
      none := rfl
  generalize (RejectManager.resetDatagram (u.tcp.transport.flow a) side number).given start more time = p
    at here untagged ⊢
  have long : 20 ≤ p.length := by
    unfold Stack.Packet.length
    rw [here]
    show (20 : Int) ≤ ((_ ++ more : Bytes).length : Nat)
    rw [List.length_append, TCPHeader.length_memory]
    omega
  obtain ⟨l, q, checked, same, curr, tag⟩ := TransportLayer.check_long (s := u.tcp) long
  obtain ⟨x, read, address, tag', source, dest, rst, empty⟩ := RejectManager.reset_segment (curr.trans here)
  have recalled : Recalls .tcp u.tcp.transport := recalls .tcp
  obtain ⟨four, untagged'⟩ := recalled.2 a member
  have conversation := RejectManager.reset_conversation four untagged' address ((tag'.trans tag).trans untagged)
    source dest
  have known : u.tcp.transport.findFlow (x.hash1 .tcp) (x.hash2 .tcp) = some a := by
    have steady : Transport.Steady .tcp u.tcp.transport := steady .tcp
    rw [Transport.findFlow_eq, Packet.hash1_eq, conversation, ← recalled.1 a member]
    exact steady.sound.findId member
  obtain ⟨t, ran, table⟩ := Transport.reset_table (o := outside q) (steady .tcp) known rst empty
  have mapped := TransportLayer.process_map (s := l) (o := outside q) read
  rw [same, show u.tcp.transport.processPacket .tcp x (outside q) = .ok t from ran] at mapped
  cases processed : l.process .tcp (RejectManager.resetDatagram (u.tcp.transport.flow a) side number).registers q
      (outside q) with
  | error e =>
    rw [processed] at mapped
    exact absurd mapped (by simp [Except.map])
  | ok r =>
    rw [processed] at mapped
    obtain rfl := Except.ok.inj mapped
    refine ⟨r.1, r.2.evidence, ?_, table⟩
    have checks : (lanTransports false outside).check .tcp u p = .ok (true, { u with tcp := l }, q) := by
      show LanTransports.check .tcp u p = _
      unfold LanTransports.check
      simp only [checked, bind, Except.bind]
    have processes : (lanTransports false outside).process .tcp { u with tcp := l }
        (RejectManager.resetDatagram (u.tcp.transport.flow a) side number).registers q =
          .ok ({ u with tcp := r.1 }, r.2) := by
      show LanTransports.process false outside .tcp { u with tcp := l } _ q = _
      unfold LanTransports.process
      simp only [processed, bind, Except.bind]
    unfold deliver
    rw [checks]
    simp only [bind, Except.bind, if_true]
    rw [processes]

/-- Whichever of its two resets of a flow the engine captures, it takes the flow out of its own table, if the flow
still has its `TCPInfo`, and does nothing else to the flows that it has; without the `TCPInfo` all of them stay. -/
theorem own_reset {outside : Frame → Outside} {objects : CacheId → Nat} {registered : Option Nat} {timeout : Int}
    {past : List Call} {s : NetworkStack LanTransports}
    (reached : Transition.run (step (lanTransports false outside))
      (new .lan (LanTransports.new objects registered timeout)) past = some s)
    {a : Obj} (member : a ∈ s.upper.tcp.transport.table) {info : Option Tcp.TCPInfo}
    {segments : List RejectManager.Forged4}
    (rejected : rejectTCPFlow true (s.upper.tcp.transport.flow a) info = .ok segments)
    {x : RejectManager.Forged4} (forged : x ∈ segments) (macs : Bytes) (twelve : macs.length = 12) (e : LinkHeader)
    (enabled : ∀ type ∈ e.layer, Call.enableLinkLayerTagging type ∈ past) (more : Bytes)
    (short : (macs ++ (e.octets ++ (x.ip.memory ++ x.tcp.memory ++ more))).length ≤ 1518) (time : Int) :
    ∃ t q, s.forwardRawPacket (lanTransports false outside)
        (RawPacket.whole 0 (macs ++ (e.octets ++ (x.ip.memory ++ x.tcp.memory ++ more)))) time = .ok (t, q) ∧
      t.upper.udp = s.upper.udp ∧ t.upper.icmp = s.upper.icmp ∧
        t.upper.tcp.transport.table = if (s.upper.tcp.transport.lockTcpInfo a).isSome then
            s.upper.tcp.transport.table.erase a
          else s.upper.tcp.transport.table := by
  obtain ⟨side, number, rfl⟩ := forged_of_rejected rejected forged
  obtain ⟨steady, recalls⟩ := lan_recalls reached
  rw [← RejectManager.resetDatagram_octets] at short ⊢
  have long : 40 ≤ (sent macs e (RejectManager.resetDatagram (s.upper.tcp.transport.flow a) side number) more).length := by
    unfold sent
    simp only [List.length_append, Datagram.length_octets, twelve]
    show 40 ≤ 12 + (e.octets.length + (20 + 20 + more.length))
    cases e <;> simp [LinkHeader.octets] <;> omega
  have delivers := frame_delivers (l := { source := .ip, target := .tcp, key := 6 }) reached (by decide) rfl
    (by rfl) macs twelve e enabled long short time
  obtain ⟨l, b, delivered, table⟩ :=
    deliver_reset steady recalls member outside side number (12 + e.octets.length) more time
  have arrives := delivers.trans delivered
  unfold sent at arrives
  cases ran : s.forwardRawPacket (lanTransports false outside) (RawPacket.whole 0 (macs ++ (e.octets ++
      ((RejectManager.resetDatagram (s.upper.tcp.transport.flow a) side number).octets ++ more)))) time with
  | error f =>
    rw [ran] at arrives
    exact absurd arrives (by simp [Except.map])
  | ok r =>
    rw [ran] at arrives
    have upper : r.1.upper = { s.upper with tcp := l } := (Prod.mk.inj (Except.ok.inj arrives)).1
    refine ⟨r.1, r.2, rfl, ?_, ?_, ?_⟩
    · rw [upper]
    · rw [upper]
    · rw [upper]
      exact table

/-- A SYN. -/
def synFrame : RawPacket :=
  RawPacket.whole 0 (sent (List.replicate 12 1) .untagged
    (TCPHeader.datagram { TCPHeader.new 1024 80 with flags := 2 } 0x0100000a 0x0200000a) [])

theorem own_reset_syn :
    ∃ s, Transition.run (step (lanTransports false fun _ => {}))
        (new .lan (LanTransports.new (fun _ => 1) (some 0) 180)) [.frame synFrame 1] = some s ∧
      let x := forged4 (s.upper.tcp.transport.flow ⟨.flow 0, 0⟩) .responder none
      ∃ t q, s.forwardRawPacket (lanTransports false fun _ => {}) (RawPacket.whole 0 (List.replicate 12 1 ++
          (LinkHeader.untagged.octets ++ (x.ip.memory ++ x.tcp.memory ++ [])))) 2 = .ok (t, q) ∧
        t.upper.udp = s.upper.udp ∧ t.upper.icmp = s.upper.icmp ∧
          t.upper.tcp.transport.table = if (s.upper.tcp.transport.lockTcpInfo ⟨.flow 0, 0⟩).isSome then
              s.upper.tcp.transport.table.erase ⟨.flow 0, 0⟩
            else s.upper.tcp.transport.table := by
  have opens : ((Transition.run (step (lanTransports false fun _ => {}))
      (new .lan (LanTransports.new (fun _ => 1) (some 0) 180)) [.frame synFrame 1]).any fun s =>
        decide (s.upper.tcp.transport.table = [⟨.flow 0, 0⟩])) = true := by decide +kernel
  cases reached : Transition.run (step (lanTransports false fun _ => {}))
      (new .lan (LanTransports.new (fun _ => 1) (some 0) 180)) [.frame synFrame 1] with
  | none =>
    rw [reached] at opens
    exact absurd opens (by simp)
  | some s =>
    rw [reached, Option.any_some, decide_eq_true_iff] at opens
    have read : RejectManager.seqNum none 0 = .ok none := rfl
    have rejected := (RejectManager.rejectTCPFlow_eq (s.upper.tcp.transport.flow ⟨.flow 0, 0⟩) read).1
    refine ⟨s, rfl, own_reset reached (by rw [opens]; exact List.mem_singleton.mpr rfl) rejected List.mem_cons_self
      (List.replicate 12 1) rfl .untagged (by simp [LinkHeader.layer]) [] ?_ 2⟩
    show 12 + (2 + (20 + 20)) ≤ 1518
    decide

end NetworkStack

end AIEngine
