import AIEngine.Applications.HttpWorks
import AIEngine.Applications.ParserWorks
import AIEngine.Library.Transition
import AIEngine.Resources.Application

/-!
# The application protocols together

They share the pools, the maps and the flows: for its packet a protocol works on the world of the
engine. What GPRS carries is not looked at here.
-/

namespace AIEngine

structure Engine where
  world : World
  http : HTTPProtocol
  ssl : SSLProtocol
  smtp : SMTPProtocol
  imap : IMAPProtocol
  pop : POPProtocol
  dns : DNSProtocol
  sip : SIPProtocol
  ssdp : SSDPProtocol

namespace Engine

open Ending

/-- HTTP, with the world that all share. -/
def httpProtocol (e : Engine) : HTTPProtocol := { e.http with world := e.world }

/-- `processFlow` of the protocol that the flow was forwarded to. -/
def processFlow (e : Engine) (a : Obj) (packet : L7Packet) : L7Protocol → Except Failure Engine
  | .http => do
    let t ← HTTPProtocol.processFlow e.httpProtocol a packet
    .ok { e with world := t.world, http := t }
  | .ssl => do
    let t ← SSLProtocol.processFlow { e.ssl with world := e.world } a packet
    .ok { e with world := t.world, ssl := t }
  | .smtp => do
    let t ← SMTPProtocol.processFlow { e.smtp with world := e.world } a packet
    .ok { e with world := t.world, smtp := t }
  | .imap => do
    let t ← IMAPProtocol.processFlow { e.imap with world := e.world } a packet
    .ok { e with world := t.world, imap := t }
  | .pop => do
    let t ← POPProtocol.processFlow { e.pop with world := e.world } a packet
    .ok { e with world := t.world, pop := t }
  | .dns => do
    let t ← DNSProtocol.processFlow { e.dns with world := e.world } a packet
    .ok { e with world := t.world, dns := t }
  | .sip => do
    let t ← SIPProtocol.processFlow { e.sip with world := e.world } a packet
    .ok { e with world := t.world, sip := t }
  | .ssdp => do
    let t ← SSDPProtocol.processFlow { e.ssdp with world := e.world } a packet
    .ok { e with world := t.world, ssdp := t }
  | .gprs => .ok e

/-- How many names of a protocol have matched its ban manager. -/
def totalBan (e : Engine) : L7Protocol → Nat
  | .http => e.http.totalBanHosts
  | .ssl => e.ssl.totalBan
  | .smtp => e.smtp.totalBan
  | .imap => e.imap.totalBan
  | .pop => e.pop.totalBan
  | .dns => e.dns.totalBan
  | .sip => e.sip.totalBan
  | .ssdp => e.ssdp.totalBan
  | .gprs => 0

/-- The members of an info that are no strings stay. -/
def SameMembers (e e' : Engine) (i : Obj) : L7Protocol → Prop
  | .http => e'.http.infos i = e.http.infos i
  | .ssl => e'.ssl.infos i = e.ssl.infos i
  | .smtp => e'.smtp.infos i = e.smtp.infos i
  | .imap => e'.imap.infos i = e.imap.infos i
  | .pop => e'.pop.infos i = e.pop.infos i
  | .dns => e'.dns.infos i = e.dns.infos i
  | .sip => e'.sip.infos i = e.sip.infos i
  | .ssdp => e'.ssdp.infos i = e.ssdp.infos i
  | .gprs => True

/-- The managers of a protocol: whether they find a name. -/
def setDomains (e : Engine) (ban domains : Option (Bytes → Bool)) : L7Protocol → Engine
  | .ssl => { e with ssl := { e.ssl with banDomains := ban, domains := domains } }
  | .smtp => { e with smtp := { e.smtp with banDomains := ban, domains := domains } }
  | .imap => { e with imap := { e.imap with banDomains := ban, domains := domains } }
  | .pop => { e with pop := { e.pop with banDomains := ban, domains := domains } }
  | .dns => { e with dns := { e.dns with banDomains := ban, domains := domains } }
  | .ssdp => { e with ssdp := { e.ssdp with banDomains := ban, domains := domains } }
  | _ => e

/-- A packet of the flow has come to its transport layer. -/
def countPacket (w : World) (a : Obj) : World :=
  w.setFlow a { w.flows a with totalPackets := (w.flows a).totalPackets + 1 }

inductive Event where
  | openTcp (a : Obj) (layer : Nat)
  | openUdp (a : Obj)
  | transport (a : Obj)
  | packet (p : L7Protocol) (a : Obj) (packet : L7Packet)
  | frequency (layer : Nat) (a : Obj) (payload : Payload)
  | endFlow (a : Obj)
  | managers (p : L7Protocol) (ban domains : Option (Bytes → Bool))
  | httpManagers (ban : Option (Bytes → Bool)) (domains : Option (Bytes → Option Nat))
      (domainName : Nat → Option DomainName)
  /-- what lies behind freed octets is written over -/
  | memory (sight : Nat → MapEntry → Bytes)

/-- A packet that does not come to an end stops the run. -/
def step (e : Engine) : Event → Option Engine
  | .openTcp a layer =>
    if a ∈ e.world.table then none
    else (e.world.openTcpFlow a layer).toOption.map fun w => { e with world := w }
  | .openUdp a =>
    if a ∈ e.world.table then none
    else some { e with world := e.world.openFlow a World.ipprotoUdp }
  | .transport a =>
    if a ∈ e.world.table then some { e with world := countPacket e.world a } else none
  | .packet p a packet =>
    if a ∈ e.world.table then (e.processFlow a packet p).toOption else none
  | .frequency layer a payload =>
    if a ∈ e.world.table then
      (e.world.runApplication a (.frequency layer payload)).toOption.map
        fun w => { e with world := w }
    else none
  | .endFlow a =>
    if a ∈ e.world.table then some { e with world := e.world.endFlow a } else none
  | .managers p ban domains => some (e.setDomains ban domains p)
  | .httpManagers ban domains domainName =>
    let http := { e.http with banDomains := ban, domains := domains, domainName := domainName }
    some { e with http := http }
  | .memory sight => some { e with world := e.world.overwrite sight }

/-! ### What a packet does to the world -/

variable {e t : Engine} {a : Obj} {packet : L7Packet} {p : L7Protocol}

/-- Only HTTP can dereference an empty pointer. -/
theorem processFlow_ends (filled : e.world.Filled) (other : p ≠ .http) :
    Ends NotNull (fun t => World.Handled p a (t.totalBan p ≠ e.totalBan p) e.world t.world)
      (e.processFlow a packet p) := by
  cases p with
  | http => exact absurd rfl other
  | ssl => exact ends_bind (SSLProtocol.processFlow_handled packet filled) fun _ handled => handled
  | smtp => exact ends_bind (SMTPProtocol.processFlow_handled packet filled) fun _ handled => handled
  | imap => exact ends_bind (IMAPProtocol.processFlow_handled packet filled) fun _ handled => handled
  | pop => exact ends_bind (POPProtocol.processFlow_handled packet filled) fun _ handled => handled
  | dns => exact ends_bind (DNSProtocol.processFlow_handled packet filled) fun _ handled => handled
  | sip => exact ends_bind (SIPProtocol.processFlow_handled packet filled) fun _ handled => handled
  | ssdp => exact ends_bind (SSDPProtocol.processFlow_handled packet filled) fun _ handled => handled
  | gprs =>
    exact .noted (e.world.flows a) (fun _ => rfl) (World.setFlow_self e.world a).symm
      fun grew => grew rfl

theorem processFlow_handled (filled : e.world.Filled) (h : e.processFlow a packet p = .ok t) :
    World.Handled p a (t.totalBan p ≠ e.totalBan p) e.world t.world := by
  by_cases http : p = .http
  · subst http
    simp only [processFlow] at h
    obtain ⟨u, processed, h⟩ := bind_ok h
    obtain rfl := Except.ok.inj h
    exact HTTPProtocol.processFlow_handled processed
  · have ended : Ends NotNull _ (e.processFlow a packet p) := processFlow_ends filled http
    rw [h] at ended
    exact ended

/-- A packet only goes to the infos of its own protocol. -/
theorem processFlow_members {q : L7Protocol} (h : e.processFlow a packet p = .ok t) (other : q ≠ p)
    (i : Obj) : SameMembers e t i q := by
  cases p with
  | gprs =>
    obtain rfl := Except.ok.inj h
    cases q <;> first | rfl | trivial
  | _ =>
    simp only [processFlow] at h
    obtain ⟨u, -, h⟩ := bind_ok h
    obtain rfl := Except.ok.inj h
    cases q <;> first | rfl | trivial

/-- The early return of the protocols that mark a ban: the packet changes neither the world nor the
infos. -/
theorem processFlow_latched {i : Obj} (marks : World.marksBans p = true)
    (locked : e.world.lockInfo p (e.world.flows a) = some i)
    (banned : (e.world.infos i).isBanned = true) (h : e.processFlow a packet p = .ok t) :
    t.world = e.world ∧ t.totalBan p = e.totalBan p ∧ ∀ j, SameMembers e t j p := by
  cases p with
  | http =>
    simp only [processFlow] at h
    have latched := HTTPProtocol.processFlow_latched (s := e.httpProtocol) (p := packet) locked banned
    rw [latched] at h
    obtain rfl := Except.ok.inj h
    exact ⟨rfl, rfl, fun _ => rfl⟩
  | smtp =>
    simp only [processFlow, SMTPProtocol.processFlow] at h
    rw [Inspector.withInfo_latched locked banned] at h
    obtain rfl := Except.ok.inj h
    exact ⟨rfl, rfl, fun _ => rfl⟩
  | pop =>
    simp only [processFlow, POPProtocol.processFlow] at h
    rw [Inspector.withInfo_latched locked banned] at h
    obtain rfl := Except.ok.inj h
    exact ⟨rfl, rfl, fun _ => rfl⟩
  | imap =>
    simp only [processFlow, IMAPProtocol.processFlow] at h
    rw [Inspector.withInfo_latched locked banned] at h
    obtain rfl := Except.ok.inj h
    exact ⟨rfl, rfl, fun _ => rfl⟩
  | _ => exact absurd marks (by decide)

/-- Caches with some objects each, and no domain manager. -/
def start (objects : CacheId → Nat) (layer : Option Nat) (expressions : SIPExpressions) : Engine :=
  let world := World.start objects layer
  { world := world
    http := { world := world }
    ssl := { world := world, infos := fun _ => {}, own := () }
    smtp := { world := world, infos := fun _ => {}, own := () }
    imap := { world := world, infos := fun _ => {}, own := () }
    pop := { world := world, infos := fun _ => {}, own := () }
    dns := { world := world, infos := fun _ => {}, own := () }
    sip := { world := world, infos := fun _ => (), own := expressions }
    ssdp := { world := world, infos := fun _ => {}, own := {} } }

end Engine

end AIEngine
