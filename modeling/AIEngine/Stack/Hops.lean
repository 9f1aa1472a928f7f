import AIEngine.Stack.Histories

/-!
# From one layer to the next

A packet that a layer accepts and lets go on is at the next multiplexer, with the registers of that one set.
-/

namespace AIEngine

open Stack (Frame)
open StackKind (Wired)

namespace IPProtocol

/-- What the layer tells the multiplexer about a datagram. -/
def told (r : Multiplexer) (h : IPHeader) (p : Stack.Packet) : Multiplexer :=
  { r with
    address := (r.address.setSourceAddress h.source).setDestinationAddress h.destination
    totalLength := BitVec.ofInt 16 (bytes h p)
    nextProtocolId := h.protocol.setWidth 16 }

/-- The packet with the datagram that it has become. -/
def delivered (h : IPHeader) (p : Stack.Packet) : Stack.Packet :=
  { p with
    net := { p.curr with length := bytes h p, held := bytes_held h p }
    prevHeaderSize := headerSize }

variable {ip : IPProtocol} {p : Stack.Packet} {h : IPHeader}

theorem ipChecker_datagram (long : 20 ≤ p.length) (read : readHeader p = .ok h) (four : h.version = 4) :
    ip.ipChecker p = .ok (true, { ip with totalValidatedPackets := ip.totalValidatedPackets + 1 }) := by
  have version : isIPver4 p = .ok true := by
    obtain ⟨first, readFirst, rest⟩ := Ending.bind_ok read
    obtain ⟨length, -, rest⟩ := Ending.bind_ok rest
    obtain ⟨offset, -, rest⟩ := Ending.bind_ok rest
    obtain ⟨protocol, -, rest⟩ := Ending.bind_ok rest
    obtain ⟨source, -, rest⟩ := Ending.bind_ok rest
    obtain ⟨destination, -, rest⟩ := Ending.bind_ok rest
    obtain rfl := Except.ok.inj rest
    unfold isIPver4
    rw [readFirst]
    exact congrArg Except.ok (decide_eq_true four)
  have fits : (headerSize : Int) ≤ p.length := long
  unfold ipChecker
  rw [if_pos fits, version]
  rfl

theorem processPacket_datagram (r : Multiplexer) (read : readHeader p = .ok h) (whole : isFragment h = false) :
    ip.processPacket r p = .ok (true, ip, told r h p, delivered h p) := by
  unfold processPacket
  rw [read]
  simp only [bind, Except.bind, whole]
  rfl

end IPProtocol

namespace NetworkStack

variable {τ : Type} {T : Transports τ} {s s₁ t : NetworkStack τ} {m up : Mux} {p q : Frame}

/-- How `forwardPacket` hands evidence down. -/
def handBack (p : Frame) (r : NetworkStack τ × Frame) : NetworkStack τ × Frame :=
  (r.1, if r.2.evidence then { p with evidence := true } else p)

/-- The packet at `m` goes to `up`, and is `q` there; `r` is what `up` has been told. -/
structure Leads (T : Transports τ) (s : NetworkStack τ) (m : Mux) (p : Frame) (t : NetworkStack τ) (up : Mux)
    (r : Multiplexer) (q : Frame) : Prop where
  forwards : ∀ n, forwardPacket T (n + 1) s m p = (forwardPacket T n t up q).map (handBack p)
  kind : t.kind = s.kind
  links : t.links = s.links
  upper : t.upper = s.upper
  prepared : s.Prepared → t.Prepared
  registers : (t.relay up).registers = r

/-- What is at the next multiplexer. -/
def ahead (s : NetworkStack τ) (m : Mux) (p : Frame) : Frame :=
  { p with curr := p.curr.advance (s.relay m).registers.headerSize }

theorem candidate_countReceived (p : Frame) : (s.countReceived m).candidate m p = s.ahead m p := by
  unfold NetworkStack.candidate ahead
  rw [registers_countReceived]

theorem getUpMultiplexer_links (same : t.links = s.links) (key : BitVec 16) :
    t.getUpMultiplexer m key = s.getUpMultiplexer m key := by
  unfold getUpMultiplexer
  rw [same]

theorem Prepared.kept (prepared : s.Prepared) (kind : t.kind = s.kind)
    (registers : ∀ k, (t.relay k).registers = (s.relay k).registers) : t.Prepared := by
  intro k
  rw [registers k, kind]
  exact prepared k

theorem leads_intro {r : Multiplexer} {q₁ : Frame}
    (found : s.getUpMultiplexer m (s.relay m).registers.nextProtocolId = some up)
    (accepts : (s.countReceived m).acceptPacket T up (s.ahead m p) = .ok (true, s₁, q₁))
    (processes : ∀ forward, s₁.packetFunc T forward up q₁ = .ok (true, t.setRegisters up r, q))
    (same : Same s t) (upper : t.upper = s.upper) (relay : t.relay = (s.countReceived m).relay)
    (renewed : s.kind.wipe up r = s.kind.wipe up (s.relay up).registers) :
    Leads T s m p ((t.setRegisters up r).countForward m) up r q where
  forwards n := by
    have found' : (s.countReceived m).getUpMultiplexer m
        ((s.countReceived m).relay m).registers.nextProtocolId = some up := by
      rw [registers_countReceived]
      exact found
    rw [forwardPacket]
    dsimp only
    rw [found', candidate_countReceived]
    dsimp only
    rw [accepts]
    simp only [bind, Except.bind, if_true]
    rw [processes]
    simp only [if_true]
    generalize forwardPacket T n ((t.setRegisters up r).countForward m) up q = rest
    cases rest <;> rfl
  kind := same.kind
  links := same.links
  upper := upper
  prepared prepared := by
    have before : t.Prepared :=
      prepared.kept same.kind fun k => by rw [relay, registers_countReceived]
    have told : (t.setRegisters up r).Prepared := by
      refine prepared_setRegisters before ?_
      rw [same.kind, renewed, relay, registers_countReceived]
    exact told.kept rfl registers_countForward
  registers := by rw [registers_countForward, setRegisters_registers]

/-! ### The layers around IP -/

theorem leads_vlan {type : BitVec 16}
    (found : s.getUpMultiplexer m (s.relay m).registers.nextProtocolId = some .vlan)
    (long : 4 ≤ (s.ahead m p).length) (read : (s.ahead m p).curr.half 2 = .ok type) :
    ∃ t, Leads T s m p t .vlan
      { (s.relay .vlan).registers with nextProtocolId := ntohs type, headerSize := 4 }
      { s.ahead m p with prevHeaderSize := 4 } := by
  have fits : decide ((VLanProtocol.headerSize : Int) ≤ (s.ahead m p).length) = true := decide_eq_true long
  have accepts : (s.countReceived m).acceptPacket T .vlan (s.ahead m p) =
      .ok (true, { s.countReceived m with vlan := s.vlan.check true }, s.ahead m p) := by
    unfold acceptPacket VLanProtocol.vlanChecker
    simp only [fits]
    rfl
  have typed : VLanProtocol.getEthernetType (s.ahead m p).toPacket = .ok (ntohs type) := by
    unfold VLanProtocol.getEthernetType
    rw [read]
    rfl
  refine ⟨_, leads_intro found accepts (t := { s.countReceived m with
    vlan := (s.vlan.check true).countPacket (s.ahead m p).length }) (fun forward => ?_) ⟨rfl, rfl⟩ rfl rfl rfl⟩
  unfold packetFunc VLanProtocol.processPacket
  simp only [bind, Except.bind, typed, registers_countReceived]
  rfl

theorem leads_mpls {w : MPLSProtocol.Scan}
    (found : s.getUpMultiplexer m (s.relay m).registers.nextProtocolId = some .mpls)
    (long : 4 ≤ (s.ahead m p).length) (scanned : MPLSProtocol.loop (s.ahead m p).toPacket {} 3 = .ok w) :
    ∃ t, Leads T s m p t .mpls
      { (s.relay .mpls).registers with
        headerSize := w.mplsHeaderSize
        nextProtocolId := MPLSProtocol.ethertypeIp }
      { s.ahead m p with prevHeaderSize := w.mplsHeaderSize } := by
  have fits : (MPLSProtocol.headerSize : Int) ≤ (s.ahead m p).length := long
  have accepts : (s.countReceived m).acceptPacket T .mpls (s.ahead m p) =
      .ok (true, { s.countReceived m with
        mpls := { s.mpls with totalValidatedPackets := s.mpls.totalValidatedPackets + 1 } }, s.ahead m p) := by
    unfold acceptPacket MPLSProtocol.mplsChecker
    simp only [if_pos fits]
    rfl
  refine ⟨_, leads_intro found accepts (t := { s.countReceived m with
    mpls := { s.mpls with
      totalValidatedPackets := s.mpls.totalValidatedPackets + 1
      totalPackets := s.mpls.totalPackets + 1
      totalBytes := s.mpls.totalBytes + (s.ahead m p).length } }) (fun forward => ?_) ⟨rfl, rfl⟩ rfl rfl rfl⟩
  unfold packetFunc MPLSProtocol.processPacket
  simp only [bind, Except.bind, scanned, registers_countReceived]
  rfl

theorem leads_gre (found : s.getUpMultiplexer m (s.relay m).registers.nextProtocolId = some .gre)
    (long : 4 ≤ (s.ahead m p).length)
    (read : (s.ahead m p).curr.half 2 = .ok (ntohs GREProtocol.ethPTeb)) :
    ∃ t, Leads T s m p t .gre { (s.relay .gre).registers with nextProtocolId := 0, headerSize := 4 }
      { s.ahead m p with prevHeaderSize := 4 } := by
  have fits : (GREProtocol.headerSize : Int) ≤ (s.ahead m p).length := long
  have protocol : GREProtocol.getProtocol (s.ahead m p).toPacket = .ok GREProtocol.ethPTeb := by
    unfold GREProtocol.getProtocol
    rw [read]
    rfl
  have accepts : (s.countReceived m).acceptPacket T .gre (s.ahead m p) =
      .ok (true, { s.countReceived m with gre := s.gre.check true }, s.ahead m p) := by
    unfold acceptPacket GREProtocol.greChecker
    simp only [if_pos fits, protocol, bind, Except.bind]
    rfl
  refine ⟨_, leads_intro found accepts (t := { s.countReceived m with
    gre := (s.gre.check true).countPacket (s.ahead m p).length }) (fun forward => ?_) ⟨rfl, rfl⟩ rfl rfl rfl⟩
  unfold packetFunc GREProtocol.processPacket
  simp only [registers_countReceived]
  rfl

theorem leads_ip {h : IPHeader} (four : s.kind ≠ .lanIPv6)
    (found : s.getUpMultiplexer m (s.relay m).registers.nextProtocolId = some .ip)
    (long : 20 ≤ (s.ahead m p).length)
    (read : IPProtocol.readHeader (s.ahead m p).toPacket = .ok h) (version : h.version = 4)
    (whole : IPProtocol.isFragment h = false) :
    ∃ t, Leads T s m p t .ip (IPProtocol.told (s.relay .ip).registers h (s.ahead m p).toPacket)
      { s.ahead m p with toPacket := IPProtocol.delivered h (s.ahead m p).toPacket } := by
  have accepts : (s.countReceived m).acceptPacket T .ip (s.ahead m p) =
      .ok (true, { s.countReceived m with
        ip := { s.ip with totalValidatedPackets := s.ip.totalValidatedPackets + 1 } }, s.ahead m p) := by
    have checked : s.ip.ipChecker (s.ahead m p).toPacket = _ :=
      IPProtocol.ipChecker_datagram long read version
    show (s.countReceived m).checkIP (s.ahead m p) = _
    unfold checkIP
    rw [if_neg (show ¬(s.countReceived m).kind = .lanIPv6 from four),
      show (s.countReceived m).ip = s.ip from rfl, checked]
    rfl
  refine ⟨_, leads_intro found accepts (t := { s.countReceived m with
    ip := { s.ip with totalValidatedPackets := s.ip.totalValidatedPackets + 1 } })
    (fun forward => ?_) ⟨rfl, rfl⟩ rfl rfl ?_⟩
  · show NetworkStack.processIP _ _ = _
    unfold processIP
    rw [if_neg (show ¬(s.countReceived m).kind = .lanIPv6 from four),
      IPProtocol.processPacket_datagram _ read whole, registers_countReceived]
    rfl
  · simp only [StackKind.wipe, if_neg four]
    rfl

theorem leads_ethVir {type : BitVec 16}
    (found : s.getUpMultiplexer m (s.relay m).registers.nextProtocolId = some .ethVir)
    (long : 40 ≤ (s.ahead m p).length) (short : (s.ahead m p).length ≤ EthernetProtocol.etherMaxLen)
    (read : (s.ahead m p).curr.half 12 = .ok type) :
    ∃ t, Leads T s m p t .ethVir
      { (s.relay .ethVir).registers with nextProtocolId := ntohs type, headerSize := 14 }
      { s.ahead m p with prevHeaderSize := 14, anomaly := .none } := by
  have checked : EthernetProtocol.check s.ethernetVir (s.ahead m p).toPacket =
      (true, { s.ethernetVir.check true with
        bytes := (s.ethernetVir.check true).bytes + (s.ahead m p).length },
        { (s.ahead m p).toPacket with anomaly := .none }) := by
    unfold EthernetProtocol.check EthernetProtocol.ethernetChecker
    rw [if_pos ⟨long, short⟩]
    rfl
  have accepts : (s.countReceived m).acceptPacket T .ethVir (s.ahead m p) =
      .ok (true, { s.countReceived m with
        ethernetVir := { s.ethernetVir.check true with
          bytes := (s.ethernetVir.check true).bytes + (s.ahead m p).length } },
        { s.ahead m p with anomaly := .none }) := by
    unfold acceptPacket
    simp only [show (s.countReceived m).ethernetVir = s.ethernetVir from rfl, checked]
  have typed : EthernetProtocol.getEthernetType { (s.ahead m p).toPacket with anomaly := .none } =
      .ok (ntohs type) := by
    unfold EthernetProtocol.getEthernetType
    rw [read]
    rfl
  refine ⟨_, leads_intro found accepts (t := { s.countReceived m with
    ethernetVir := { s.ethernetVir.check true with
      bytes := (s.ethernetVir.check true).bytes + (s.ahead m p).length
      packets := (s.ethernetVir.check true).packets + 1 } }) (fun forward => ?_) ⟨rfl, rfl⟩ rfl rfl rfl⟩
  unfold packetFunc EthernetProtocol.processPacket
  simp only [bind, Except.bind, typed, registers_countReceived]
  rfl

theorem leads_ipVir {h : IPHeader}
    (found : s.getUpMultiplexer m (s.relay m).registers.nextProtocolId = some .ipVir)
    (long : 20 ≤ (s.ahead m p).length)
    (read : IPProtocol.readHeader (s.ahead m p).toPacket = .ok h) (version : h.version = 4)
    (whole : IPProtocol.isFragment h = false) :
    ∃ t, Leads T s m p t .ipVir (IPProtocol.told (s.relay .ipVir).registers h (s.ahead m p).toPacket)
      { s.ahead m p with toPacket := IPProtocol.delivered h (s.ahead m p).toPacket } := by
  have accepts : (s.countReceived m).acceptPacket T .ipVir (s.ahead m p) =
      .ok (true, { s.countReceived m with
        ipVir := { s.ipVir with totalValidatedPackets := s.ipVir.totalValidatedPackets + 1 } },
        s.ahead m p) := by
    have checked : s.ipVir.ipChecker (s.ahead m p).toPacket = _ :=
      IPProtocol.ipChecker_datagram long read version
    unfold acceptPacket
    dsimp only
    rw [show (s.countReceived m).ipVir = s.ipVir from rfl, checked]
    rfl
  refine ⟨_, leads_intro found accepts (t := { s.countReceived m with
    ipVir := { s.ipVir with totalValidatedPackets := s.ipVir.totalValidatedPackets + 1 } })
    (fun forward => ?_) ⟨rfl, rfl⟩ rfl rfl rfl⟩
  unfold packetFunc
  dsimp only
  rw [IPProtocol.processPacket_datagram _ read whole, registers_countReceived]
  rfl

/-! ### The transport at the end -/

/-- The checker of a transport and its `processPacket`: the transports behind them, and the evidence. -/
def deliver (T : Transports τ) (m : Mux) (u : τ) (down : Multiplexer) (q : Frame) :
    Except Fault (τ × Bool) := do
  let (accepted, u, q) ← T.check m u q
  if accepted then do
    let (u, q) ← T.process m u down q
    .ok (u, q.evidence)
  else .ok (u, false)

/-- What the dispatcher and the transports get to know. -/
def outcome (r : NetworkStack τ × Frame) : τ × Bool := (r.1.upper, r.2.evidence)

/-- Nothing is linked to a transport. -/
theorem top_links (kind : StackKind) : ∀ l ∈ kind.links ++ StackKind.taggingLinks, l.source.down = none := by
  cases kind <;> decide

theorem forwardPacket_leaf {d : Mux} (wired : Wired s.kind s.links) (top : up.down = some d) (n : Nat) :
    ∃ relay, forwardPacket T n s up q = .ok ({ s with relay := relay }, q) ∧
      ∀ k, (relay k).registers = (s.relay k).registers := by
  cases n with
  | zero => exact ⟨s.relay, rfl, fun _ => rfl⟩
  | succ n =>
    have none (key : BitVec 16) : (s.countReceived up).getUpMultiplexer up key = none := by
      rw [Option.eq_none_iff_forall_ne_some]
      intro m found
      obtain ⟨l, linked, source, -⟩ := getUpMultiplexer_linked found
      have below := top_links s.kind l (wired l linked)
      rw [source, top] at below
      exact absurd below (by simp)
    rw [forwardPacket]
    dsimp only
    rw [none]
    refine ⟨((s.countReceived up).countFail up).relay, rfl, fun k => ?_⟩
    rw [registers_countFail, registers_countReceived]

theorem forwardPacket_top {d : Mux} (wired : Wired s.kind s.links) (top : up.down = some d) (n : Nat) :
    (forwardPacket T n s up q).map outcome = .ok (s.upper, q.evidence) := by
  obtain ⟨relay, ran, -⟩ := forwardPacket_leaf (T := T) (q := q) wired top n
  rw [ran]
  rfl

def withUpper (s : NetworkStack τ) (u : τ) : NetworkStack τ := { s with upper := u }

theorem acceptPacket_top {d : Mux} (top : up.down = some d) (p : Frame) :
    s.acceptPacket T up p =
      (T.check up s.upper p).map fun r => (r.1, s.withUpper r.2.1, r.2.2) := by
  cases up with
  | udp | tcp | icmp | udpVir | tcpVir | icmpVir =>
    unfold acceptPacket
    dsimp only
    cases T.check _ s.upper p <;> rfl
  | _ => exact absurd top (by simp [Mux.down])

theorem packetFunc_top {d : Mux} (top : up.down = some d) (plain : s.kind.carrier ≠ some up)
    (forward : NetworkStack τ → Mux → Frame → Except Fault (NetworkStack τ × Frame)) (p : Frame) :
    s.packetFunc T forward up p =
      (T.process up s.upper (s.relay d).registers p).map fun r => (true, s.withUpper r.1, r.2) := by
  have transport : s.processTransport T forward up p =
      (T.process up s.upper (s.relay d).registers p).map fun r => (s.withUpper r.1, r.2) := by
    unfold processTransport
    rw [top]
    dsimp only
    rw [if_neg plain]
    cases T.process up s.upper (s.relay d).registers p <;> rfl
  cases up with
  | udp | tcp | icmp | udpVir | tcpVir | icmpVir =>
    unfold packetFunc
    dsimp only
    rw [transport]
    cases T.process _ s.upper (s.relay d).registers p <;> rfl
  | _ => exact absurd top (by simp [Mux.down])

theorem forwardPacket_deliver (wired : Wired s.kind s.links) (top : up.down = some m)
    (plain : s.kind.carrier ≠ some up)
    (found : s.getUpMultiplexer m (s.relay m).registers.nextProtocolId = some up) (n : Nat) :
    (forwardPacket T (n + 1) s m p).map outcome =
      (deliver T up s.upper (s.relay m).registers (s.ahead m p)).map fun r => (r.1, p.evidence || r.2) := by
  have found' : (s.countReceived m).getUpMultiplexer m
      ((s.countReceived m).relay m).registers.nextProtocolId = some up := by
    rw [registers_countReceived]
    exact found
  have upper : (s.countReceived m).upper = s.upper := rfl
  rw [forwardPacket]
  dsimp only
  rw [found', candidate_countReceived]
  dsimp only
  rw [acceptPacket_top top, upper]
  unfold deliver
  cases T.check up s.upper (s.ahead m p) with
  | error e => rfl
  | ok r =>
    obtain ⟨accepted, u, q⟩ := r
    cases accepted with
    | false =>
      show Except.ok (u, p.evidence) = Except.ok (u, p.evidence || false)
      rw [Bool.or_false]
    | true =>
      have processed := packetFunc_top (T := T) (s := (s.countReceived m).withUpper u) top plain
        (forwardPacket T n) q
      have registers : (((s.countReceived m).withUpper u).relay m).registers = (s.relay m).registers :=
        registers_countReceived m
      rw [registers] at processed
      have known : ((s.countReceived m).withUpper u).upper = u := rfl
      rw [known] at processed
      simp only [Except.map, bind, Except.bind, if_true]
      rw [processed]
      cases T.process up u (s.relay m).registers q with
      | error e => rfl
      | ok r =>
        obtain ⟨u', q'⟩ := r
        have last := forwardPacket_top (T := T) (q := q')
          (s := (((s.countReceived m).withUpper u).withUpper u').countForward m) wired top n
        simp only [Except.map, if_true]
        generalize forwardPacket T n ((((s.countReceived m).withUpper u).withUpper u').countForward m) up q' =
          rest at last ⊢
        cases rest with
        | error e => exact absurd last (by simp [Except.map])
        | ok r =>
          obtain ⟨upper', evidence⟩ := Prod.mk.inj (Except.ok.inj last)
          show Except.ok (r.1.upper, (if r.2.evidence then { p with evidence := true } else p).evidence) = _
          rw [upper', evidence]
          cases q'.evidence
          · simp; rfl
          · simp; rfl

end NetworkStack

end AIEngine
