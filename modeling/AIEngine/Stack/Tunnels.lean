import AIEngine.Stack.Encapsulation
import AIEngine.Stack.TunnelTransports

/-!
# Frames within frames

What a frame brings through a GRE tunnel, and what no layer takes out of a frame.
-/

namespace AIEngine

open Stack (Frame)
open StackKind (Wired)

namespace NetworkStack

variable {τ : Type} {T : Transports τ} {s t u : NetworkStack τ} {m up : Mux} {p q : Frame} {d : Datagram}
  {start : Nat} {more rest : Bytes} {time : Int}

theorem given_stands (d : Datagram) (start : Nat) (more : Bytes) (time : Int) :
    Stands (d.given start more time) (RawPacket.whole (start + 20) (d.segment ++ more)) time :=
  ⟨rfl, rfl, rfl, rfl, rfl⟩

/-- An Ethernet frame in the middle of a stack. -/
theorem ethVir_leads {macs : Bytes} {type : BitVec 16}
    (found : s.getUpMultiplexer m (s.relay m).registers.nextProtocolId = some .ethVir)
    (twelve : macs.length = 12) (long : 40 ≤ (macs ++ (memory16 (htons type) ++ rest)).length)
    (short : (macs ++ (memory16 (htons type) ++ rest)).length ≤ 1518)
    (stands : Stands (s.ahead m p) (RawPacket.whole start (macs ++ (memory16 (htons type) ++ rest))) time) :
    ∃ t q, Leads T s m p t .ethVir
        { (s.relay .ethVir).registers with nextProtocolId := type, headerSize := 14 } q ∧
      Stands (t.ahead .ethVir q) (RawPacket.whole (start + 14) rest) time := by
  have read : (s.ahead m p).curr.half 12 = .ok (htons type) := by
    rw [stands.curr, ← twelve]
    exact RawPacket.half_memory16 start macs rest _
  have size : (s.ahead m p).length = (macs ++ (memory16 (htons type) ++ rest)).length := by
    unfold Stack.Packet.length
    rw [stands.curr]
    rfl
  obtain ⟨t, leads⟩ := leads_ethVir (T := T) found (by rw [size]; exact Int.ofNat_le.mpr long)
    (by rw [size]; exact Int.ofNat_le.mpr short) read
  rw [ntohs_htons] at leads
  have fourteen : (macs ++ memory16 (htons type)).length = 14 := by
    rw [List.length_append, twelve, length_memory16]
  have within : Stands { s.ahead m p with prevHeaderSize := 14, anomaly := .none }
      (RawPacket.whole start ((macs ++ memory16 (htons type)) ++ rest)) time :=
    ⟨by rw [List.append_assoc]; exact stands.curr, stands.time, stands.tag, rfl, stands.evidence⟩
  have onward := ahead_stands (s := t) (m := .ethVir) within (by rw [leads.registers, fourteen])
  rw [fourteen] at onward
  exact ⟨t, _, leads, onward⟩

/-- GRE, and the frame in it as it was sent. -/
def wrapped (flags : BitVec 16) (macs : Bytes) (inner : Datagram) : Bytes :=
  memory16 flags ++ (memory16 (htons GREProtocol.ethPTeb) ++
    (macs ++ (memory16 (htons EthernetProtocol.ethertypeIp) ++ inner.octets)))

theorem virtual_transports : ∀ l ∈ StackKind.virtual.links, l.source = .ipVir → l.target.down = some .ipVir := by
  decide

theorem virtual_carrier : ∀ l ∈ StackKind.virtual.links, l.source = .ipVir →
    StackKind.virtual.carrier ≠ some l.target := by
  decide

/-- A transport behind the tunnel is given the segment of the inner datagram. -/
theorem gre_delivers {past : List Call} {upper : τ} {l : Link} {inner : Datagram} {flags : BitVec 16}
    {macs' : Bytes}
    (reached : Transition.run (step T) (new .virtual upper) past = some s)
    (outer : d.protocol = 47) (tunnelled : d.segment = wrapped flags macs' inner) (twelve' : macs'.length = 12)
    (full : 26 ≤ inner.octets.length)
    (carried : l ∈ StackKind.virtual.links) (source : l.source = .ipVir)
    (key : l.key = inner.protocol.setWidth 16)
    (macs : Bytes) (twelve : macs.length = 12) (e : LinkHeader)
    (enabled : ∀ type ∈ e.layer, Call.enableLinkLayerTagging type ∈ past)
    (short : (sent macs e d more).length ≤ 1518) (time : Int) :
    (s.forwardRawPacket T (RawPacket.whole 0 (sent macs e d more)) time).map outcome =
      deliver T l.target s.upper inner.registers (inner.given (12 + e.octets.length + 38) more time) := by
  obtain ⟨kind, wired, prepared⟩ := reached_prepared reached
  obtain ⟨grown, -⟩ := links_run (wired_new .virtual upper) reached
  have basic {k : Link} (known : k ∈ StackKind.virtual.links) : k ∈ s.links :=
    grown (List.mem_reverse.mpr known)
  have segment : d.segment ++ more = (memory16 flags ++ memory16 (htons GREProtocol.ethPTeb)) ++
      (macs' ++ (memory16 (htons EthernetProtocol.ethertypeIp) ++ (inner.octets ++ more))) := by
    rw [tunnelled]
    simp only [wrapped, List.append_assoc]
  have sizes : (sent macs e d more).length = 12 + e.octets.length + 20 + (d.segment ++ more).length := by
    simp only [sent, List.length_append, Datagram.length_octets, twelve]
    omega
  have inside : (d.segment ++ more).length =
      4 + (macs' ++ (memory16 (htons EthernetProtocol.ethertypeIp) ++ (inner.octets ++ more))).length := by
    rw [segment, List.length_append, List.length_append, length_memory16, length_memory16]
  have room : 40 ≤ (macs' ++ (memory16 (htons EthernetProtocol.ethertypeIp) ++ (inner.octets ++ more))).length := by
    simp only [List.length_append, length_memory16, twelve']
    omega
  obtain ⟨t, q, n, at', enough, leads⟩ :=
    frame_leads reached (by decide) macs twelve e enabled (by omega) short time
  have stands : Stands (t.ahead .ip q) (RawPacket.whole (12 + e.octets.length + 20)
      ((memory16 flags ++ memory16 (htons GREProtocol.ethPTeb)) ++
        (macs' ++ (memory16 (htons EthernetProtocol.ethertypeIp) ++ (inner.octets ++ more))))) time := by
    rw [at'.ahead, ← segment]
    exact given_stands d _ more time
  -- GRE
  have toGre : t.getUpMultiplexer .ip (t.relay .ip).registers.nextProtocolId = some .gre := by
    rw [at'.registers, getUpMultiplexer_links at'.same.links]
    show s.getUpMultiplexer .ip (d.protocol.setWidth 16) = _
    rw [outer]
    exact getUpMultiplexer_of_mem (l := { source := .ip, target := .gre, key := StackKind.ipprotoGre }) wired
      (basic (by decide))
  have read : (t.ahead .ip q).curr.half 2 = .ok (ntohs GREProtocol.ethPTeb) := by
    rw [stands.curr, List.append_assoc]
    exact RawPacket.half_memory16 _ (memory16 flags) _ _
  have header : 4 ≤ (t.ahead .ip q).length := by
    unfold Stack.Packet.length
    rw [stands.curr]
    show (4 : Int) ≤ ((_ ++ _ : Bytes).length : Nat)
    rw [List.length_append, List.length_append, length_memory16, length_memory16]
    omega
  obtain ⟨u, greLeads⟩ := leads_gre (T := T) toGre header read
  have within : Stands { t.ahead .ip q with prevHeaderSize := 4 } (RawPacket.whole (12 + e.octets.length + 20)
      ((memory16 flags ++ memory16 (htons GREProtocol.ethPTeb)) ++
        (macs' ++ (memory16 (htons EthernetProtocol.ethertypeIp) ++ (inner.octets ++ more))))) time :=
    ⟨stands.curr, stands.time, stands.tag, stands.anomaly, stands.evidence⟩
  have behind := ahead_stands (s := u) (m := .gre) within (by rw [greLeads.registers]; rfl)
  -- the frame in it
  have toEthernet : u.getUpMultiplexer .gre (u.relay .gre).registers.nextProtocolId = some .ethVir := by
    rw [greLeads.registers, getUpMultiplexer_links greLeads.links, getUpMultiplexer_links at'.same.links]
    exact getUpMultiplexer_of_mem (l := { source := .gre, target := .ethVir, key := 0 }) wired
      (basic (by decide))
  obtain ⟨v, r, ethLeads, onward⟩ := ethVir_leads (T := T) toEthernet twelve' room (by omega) behind
  -- the datagram in that
  have toIp : v.getUpMultiplexer .ethVir (v.relay .ethVir).registers.nextProtocolId = some .ipVir := by
    rw [ethLeads.registers, getUpMultiplexer_links ethLeads.links, getUpMultiplexer_links greLeads.links,
      getUpMultiplexer_links at'.same.links]
    exact getUpMultiplexer_of_mem (l := { source := .ethVir, target := .ipVir, key := 0x0800 }) wired
      (basic (by decide))
  obtain ⟨w, q', inside', goes⟩ :=
    ipVir_leads (T := T) (ethLeads.prepared (greLeads.prepared at'.prepared)) toIp onward
  have arrived : DatagramAt s w .ipVir q' inner (12 + e.octets.length + 38) more time :=
    { same := ((at'.same.trans ⟨greLeads.kind, greLeads.links⟩).trans ⟨ethLeads.kind, ethLeads.links⟩).trans
        inside'.same
      upper := ((inside'.upper.trans ethLeads.upper).trans greLeads.upper).trans at'.upper
      prepared := inside'.prepared
      registers := inside'.registers
      ahead := inside'.ahead
      silent := inside'.silent }
  have linked := getUpMultiplexer_of_mem wired (basic carried)
  rw [source, key] at linked
  obtain ⟨n, rfl⟩ : ∃ k, n = k + 4 := ⟨n - 4, by omega⟩
  rw [leads, greLeads.forwards, outcome_handBack at'.silent, ethLeads.forwards, outcome_handBack within.evidence,
    goes]
  exact arrived.delivers wired (virtual_transports l carried source)
    (by rw [kind]; exact virtual_carrier l carried source) linked n

/-- A datagram with a frame in it. -/
def tunnelled : Datagram where
  protocol := 47
  source := 0x0300000a
  destination := 0x0400000a
  segment := wrapped 0 (List.replicate 12 2) .echo

theorem gre_delivers_echo :
    (quietVirtual.forwardRawPacket quietTunnel
        (RawPacket.whole 0 (sent (List.replicate 12 1) .untagged tunnelled [])) 5).map outcome =
      deliver quietTunnel .udpVir quietVirtual.upper Datagram.echo.registers (Datagram.echo.given 52 [] 5) :=
  gre_delivers (l := { source := .ipVir, target := .udpVir, key := 17 })
    (Transition.run_nil quietVirtual) rfl rfl rfl (by decide) (by decide) rfl (by decide) _ rfl .untagged
    (by simp [LinkHeader.layer]) (by decide) 5

/-! ### What stays in a frame -/

theorem forwardPacket_fail (found : s.getUpMultiplexer m (s.relay m).registers.nextProtocolId = none) (n : Nat) :
    (forwardPacket T (n + 1) s m p).map outcome = .ok (s.upper, p.evidence) := by
  have found' : (s.countReceived m).getUpMultiplexer m
      ((s.countReceived m).relay m).registers.nextProtocolId = none := by
    rw [registers_countReceived]
    exact found
  rw [forwardPacket]
  dsimp only
  rw [found']
  rfl

theorem tag_links (kind : StackKind) : ∀ l ∈ kind.links ++ StackKind.taggingLinks,
    (l.source = .eth → l.key = VLanProtocol.ethertypeVlan → l.target = .vlan) ∧
      (l.source = .vlan → l.key = EthernetProtocol.ethertypeIp) := by
  cases kind <;> decide

/-- Behind a tag there is IPv4 or nothing, also in the stack of IPv6: another tag or a datagram of IPv6 does not
come to a transport. -/
theorem tagged_other {kind : StackKind} {past : List Call} {upper : τ}
    (reached : Transition.run (step T) (new kind upper) past = some s) {tci type : BitVec 16}
    (other : type ≠ EthernetProtocol.ethertypeIp) (macs : Bytes) (twelve : macs.length = 12)
    (long : 40 ≤ (macs ++ (memory16 (htons VLanProtocol.ethertypeVlan) ++
      (memory16 tci ++ (memory16 (htons type) ++ rest)))).length)
    (short : (macs ++ (memory16 (htons VLanProtocol.ethertypeVlan) ++
      (memory16 tci ++ (memory16 (htons type) ++ rest)))).length ≤ 1518) (time : Int) :
    (s.forwardRawPacket T (RawPacket.whole 0 (macs ++ (memory16 (htons VLanProtocol.ethertypeVlan) ++
      (memory16 tci ++ (memory16 (htons type) ++ rest))))) time).map outcome = .ok (s.upper, false) := by
  obtain ⟨-, wired, prepared⟩ := reached_prepared reached
  obtain ⟨t, p, opens, same, upper', prepared', next, first, stands⟩ :=
    frame_opens (T := T) prepared twelve long short time
  rw [opens]
  cases found : t.getUpMultiplexer .eth (t.relay .eth).registers.nextProtocolId with
  | none => rw [show depth = 7 + 1 from rfl, forwardPacket_fail found, upper', first.evidence]
  | some m =>
    have tagged := found
    rw [next, getUpMultiplexer_links same.links] at tagged
    obtain ⟨l, linked, source, key, rfl⟩ := getUpMultiplexer_linked tagged
    have vlan := (tag_links s.kind l (wired l linked)).1 source key
    rw [vlan] at found
    obtain ⟨u, leads, onward⟩ := tag_leads (T := T) found stands
    have nothing : u.getUpMultiplexer .vlan (u.relay .vlan).registers.nextProtocolId = none := by
      rw [leads.registers, getUpMultiplexer_links leads.links, getUpMultiplexer_links same.links,
        Option.eq_none_iff_forall_ne_some]
      intro m found
      obtain ⟨k, linked, source, key, -⟩ := getUpMultiplexer_linked found
      exact other (key.symm.trans ((tag_links s.kind k (wired k linked)).2 source))
    rw [show depth = 6 + 1 + 1 from rfl, leads.forwards, outcome_handBack first.evidence,
      forwardPacket_fail nothing, leads.upper, upper']
    exact congrArg (fun e => Except.ok (s.upper, e)) stands.evidence

/-- A tag within a tag. -/
theorem tagged_other_double :
    (((quietStack .lan).enableLinkLayerTagging "vlan").forwardRawPacket quiet
        (RawPacket.whole 0 (List.replicate 12 1 ++ (memory16 (htons VLanProtocol.ethertypeVlan) ++
          (memory16 7 ++ (memory16 (htons VLanProtocol.ethertypeVlan) ++ List.replicate 40 0))))) 5).map outcome =
      .ok ((quietStack .lan).upper, false) := by
  have reached : Transition.run (step quiet) (quietStack .lan) [.enableLinkLayerTagging "vlan"] =
      some ((quietStack .lan).enableLinkLayerTagging "vlan") := rfl
  exact tagged_other reached (by decide) _ rfl (by decide) (by decide) 5

end NetworkStack

end AIEngine
