import AIEngine.Frequency
import AIEngine.Library.Transition
import AIEngine.Stack.FlowForwarder

/-!
# The engines of a LAN stack (`StackLan.cc`)

`enableFrequencyEngine` and `enableNIDSEngine` may be called in any order and any number of times.
-/

namespace AIEngine

namespace FrequencyProtocol

def createFrequencies (p : FrequencyProtocol) (number : Int) : FrequencyProtocol :=
  { p with
    freqsCache := p.freqsCache.create number
    packetFreqsCache := p.packetFreqsCache.create number }

def destroyFrequencies (p : FrequencyProtocol) (number : Int) : FrequencyProtocol :=
  { p with
    freqsCache := p.freqsCache.destroy number
    packetFreqsCache := p.packetFreqsCache.destroy number }

end FrequencyProtocol

open FlowForwarder NetworkStack

/-- The part of the stack that the engines touch. -/
structure StackLan where
  ffTcp : List FlowForwarder
  ffUdp : List FlowForwarder
  flowCacheTcp : Cache
  flowCacheUdp : Cache
  freqsTcp : FrequencyProtocol
  freqsUdp : FrequencyProtocol
  /-- the frequency protocols refer to the flow managers -/
  freqsLinked : Bool
  enableFrequencyEngine : Bool
  enableNidsEngine : Bool

namespace StackLan

def tcpProtocols : List FlowForwarder := [.http, .ssl, .smtp, .imap, .pop]

def udpProtocols : List FlowForwarder := [.dns, .sip, .dhcp, .ntp, .snmp, .ssdp]

/-- The constructor. -/
def new (flowCacheTcp flowCacheUdp : Cache) (freqsTcp freqsUdp : FrequencyProtocol) : StackLan where
  ffTcp := enableFlowForwarders [] (tcpProtocols ++ [.tcpGeneric])
  ffUdp := enableFlowForwarders [] (udpProtocols ++ [.udpGeneric])
  flowCacheTcp := flowCacheTcp
  flowCacheUdp := flowCacheUdp
  freqsTcp := freqsTcp
  freqsUdp := freqsUdp
  freqsLinked := false
  enableFrequencyEngine := false
  enableNidsEngine := false

def setFrequencyEngine (s : StackLan) (enable : Bool) : Except Fault StackLan := do
  let tcpFlowsCreated : Int := s.flowCacheTcp.total
  let udpFlowsCreated : Int := s.flowCacheUdp.total
  let ffUdp ← removeLastUpFlowForwarder s.ffUdp
  let ffTcp ← removeLastUpFlowForwarder s.ffTcp
  if enable then
    .ok { s with
      freqsTcp := s.freqsTcp.createFrequencies tcpFlowsCreated
      freqsUdp := s.freqsUdp.createFrequencies udpFlowsCreated
      ffTcp := insertUpFlowForwarder ffTcp .tcpFreqs
      ffUdp := insertUpFlowForwarder ffUdp .udpFreqs
      freqsLinked := true
      enableFrequencyEngine := enable }
  else
    .ok { s with
      freqsTcp := s.freqsTcp.destroyFrequencies tcpFlowsCreated
      freqsUdp := s.freqsUdp.destroyFrequencies udpFlowsCreated
      ffTcp := removeUpFlowForwarder ffTcp .tcpFreqs
      ffUdp := removeUpFlowForwarder ffUdp .udpFreqs
      freqsLinked := false
      enableFrequencyEngine := enable }

def setNIDSEngine (s : StackLan) (enable : Bool) : StackLan :=
  if enable then
    { s with
      ffTcp := disableFlowForwarders s.ffTcp tcpProtocols
      ffUdp := disableFlowForwarders s.ffUdp udpProtocols
      enableNidsEngine := enable }
  else
    { s with
      ffTcp := enableFlowForwarders (disableFlowForwarders s.ffTcp [.tcpGeneric])
        (tcpProtocols ++ [.tcpGeneric])
      ffUdp := enableFlowForwarders (disableFlowForwarders s.ffUdp [.udpGeneric])
        (udpProtocols ++ [.udpGeneric])
      enableNidsEngine := enable }

inductive Call where
  | enableFrequencyEngine (enable : Bool)
  | enableNIDSEngine (enable : Bool)
  deriving DecidableEq, Repr

/-- A fault stays one. -/
def step : Except Fault StackLan → Call → Option (Except Fault StackLan)
  | .ok s, .enableFrequencyEngine enable => some (s.setFrequencyEngine enable)
  | .ok s, .enableNIDSEngine enable => some (.ok (s.setNIDSEngine enable))
  | .error e, _ => some (.error e)

/-- No list has a forwarder twice, and the lists are those of the constructor when both engines are
off. -/
def Reversible (x : Except Fault StackLan) : Prop :=
  ∃ s ∈ x.toOption,
    Restored tcpProtocols .tcpGeneric s.enableFrequencyEngine s.enableNidsEngine s.ffTcp ∧
      Restored udpProtocols .udpGeneric s.enableFrequencyEngine s.enableNidsEngine s.ffUdp

instance (x : Except Fault StackLan) : Decidable (Reversible x) := by
  unfold Reversible
  infer_instance

/-- The calls that do no harm: the frequency engine goes on when the last forwarder of each list
can make room for it, and off while the NIDS engine is on and the lists are not empty; the NIDS
engine goes off only when it is on. -/
def Harmless (s : StackLan) : Call → Prop
  | .enableFrequencyEngine true => MayCount .tcpFreqs s.ffTcp ∧ MayCount .udpFreqs s.ffUdp
  | .enableFrequencyEngine false => s.enableNidsEngine = true ∧ s.ffTcp ≠ [] ∧ s.ffUdp ≠ []
  | .enableNIDSEngine true => True
  | .enableNIDSEngine false => s.enableNidsEngine = true

/-! ### The lists, one at a time -/

theorem apart_tcp : Apart tcpProtocols .tcpGeneric .tcpFreqs := by
  constructor <;> decide

theorem apart_udp : Apart udpProtocols .udpGeneric .udpFreqs := by
  constructor <;> decide

structure Shaped (s : StackLan) : Prop where
  tcp : Shape tcpProtocols .tcpGeneric .tcpFreqs s.enableFrequencyEngine s.enableNidsEngine s.ffTcp
  udp : Shape udpProtocols .udpGeneric .udpFreqs s.enableFrequencyEngine s.enableNidsEngine s.ffUdp

/-- The engine is switched on both lists, or there is a list without a last forwarder. -/
theorem setFrequencyEngine_ok {s t : StackLan} {enable : Bool}
    (h : s.setFrequencyEngine enable = .ok t) :
    switchFrequency .tcpFreqs s.ffTcp enable = .ok t.ffTcp ∧
      switchFrequency .udpFreqs s.ffUdp enable = .ok t.ffUdp ∧
      t.enableFrequencyEngine = enable ∧ t.enableNidsEngine = s.enableNidsEngine := by
  unfold setFrequencyEngine at h
  unfold switchFrequency
  cases udp : removeLastUpFlowForwarder s.ffUdp with
  | error e =>
    rw [udp] at h
    exact absurd h (by simp [bind, Except.bind])
  | ok ffUdp =>
    cases tcp : removeLastUpFlowForwarder s.ffTcp with
    | error e =>
      rw [udp, tcp] at h
      exact absurd h (by simp [bind, Except.bind])
    | ok ffTcp =>
      rw [udp, tcp] at h
      cases enable <;> obtain rfl := Except.ok.inj h <;> exact ⟨rfl, rfl, rfl, rfl⟩

theorem setFrequencyEngine_runs {s : StackLan} {enable : Bool} {v w : List FlowForwarder}
    (tcp : switchFrequency .tcpFreqs s.ffTcp enable = .ok v)
    (udp : switchFrequency .udpFreqs s.ffUdp enable = .ok w) :
    ∃ t, s.setFrequencyEngine enable = .ok t := by
  unfold switchFrequency at tcp udp
  unfold setFrequencyEngine
  split at tcp
  · rename_i u first
    split at udp
    · rename_i u' second
      rw [first, second]
      cases enable <;> exact ⟨_, rfl⟩
    · exact absurd udp (by simp)
  · exact absurd tcp (by simp)

theorem reversible_ok (s : StackLan) : Reversible (.ok s) ↔
    Restored tcpProtocols .tcpGeneric s.enableFrequencyEngine s.enableNidsEngine s.ffTcp ∧
      Restored udpProtocols .udpGeneric s.enableFrequencyEngine s.enableNidsEngine s.ffUdp := by
  simp [Reversible, Except.toOption]

theorem not_reversible_error (e : Fault) : ¬Reversible (.error e) := by
  simp [Reversible, Except.toOption]

theorem shaped_reversible {s : StackLan} (shaped : Shaped s) : Reversible (.ok s) :=
  (reversible_ok s).mpr ⟨shaped.tcp.restored apart_tcp, shaped.udp.restored apart_udp⟩

/-- Both lists come out right. -/
theorem setFrequencyEngine_reversible_iff (s : StackLan) (enable : Bool) :
    Reversible (s.setFrequencyEngine enable) ↔
      (∃ v, switchFrequency .tcpFreqs s.ffTcp enable = .ok v ∧
        Restored tcpProtocols .tcpGeneric enable s.enableNidsEngine v) ∧
      ∃ w, switchFrequency .udpFreqs s.ffUdp enable = .ok w ∧
        Restored udpProtocols .udpGeneric enable s.enableNidsEngine w := by
  constructor
  · intro reversible
    cases ran : s.setFrequencyEngine enable with
    | error e =>
      rw [ran] at reversible
      exact absurd reversible (not_reversible_error e)
    | ok t =>
      obtain ⟨tcp, udp, on, nids⟩ := setFrequencyEngine_ok ran
      rw [ran, reversible_ok, on, nids] at reversible
      exact ⟨⟨_, tcp, reversible.1⟩, _, udp, reversible.2⟩
  · rintro ⟨⟨v, tcp, left⟩, w, udp, right⟩
    obtain ⟨t, ran⟩ := setFrequencyEngine_runs tcp udp
    obtain ⟨tcp', udp', on, nids⟩ := setFrequencyEngine_ok ran
    obtain rfl := Except.ok.inj (tcp.symm.trans tcp')
    obtain rfl := Except.ok.inj (udp.symm.trans udp')
    rw [ran, reversible_ok, on, nids]
    exact ⟨left, right⟩

theorem shaped_setFrequencyEngine {s t : StackLan} {enable : Bool} (shaped : Shaped s)
    (ran : s.setFrequencyEngine enable = .ok t) (reversible : Reversible (.ok t)) : Shaped t := by
  obtain ⟨tcp, udp, on, nids⟩ := setFrequencyEngine_ok ran
  rw [reversible_ok, on, nids] at reversible
  rcases enable with _ | _
  · constructor
    · rw [on, nids]
      exact (frequency_off apart_tcp shaped.tcp).2 _ tcp reversible.1
    · rw [on, nids]
      exact (frequency_off apart_udp shaped.udp).2 _ udp reversible.2
  · constructor
    · rw [on, nids]
      exact (frequency_on apart_tcp shaped.tcp).2 _ tcp reversible.1
    · rw [on, nids]
      exact (frequency_on apart_udp shaped.udp).2 _ udp reversible.2

/-! ### Calls -/

theorem step_reversible_iff {s : StackLan} {c : Call} {x : Except Fault StackLan}
    (shaped : Shaped s) (h : step (.ok s) c = some x) : Reversible x ↔ Harmless s c := by
  cases c with
  | enableFrequencyEngine enable =>
    obtain rfl := Option.some.inj h
    rw [setFrequencyEngine_reversible_iff]
    cases enable with
    | true =>
      rw [(frequency_on apart_tcp shaped.tcp).1, (frequency_on apart_udp shaped.udp).1]
      rfl
    | false =>
      rw [(frequency_off apart_tcp shaped.tcp).1, (frequency_off apart_udp shaped.udp).1]
      show _ ↔ s.enableNidsEngine = true ∧ s.ffTcp ≠ [] ∧ s.ffUdp ≠ []
      tauto
  | enableNIDSEngine enable =>
    obtain rfl := Option.some.inj h
    rw [reversible_ok]
    cases enable with
    | true =>
      have tcp := (nids_on apart_tcp shaped.tcp).restored apart_tcp
      have udp := (nids_on apart_udp shaped.udp).restored apart_udp
      exact iff_of_true ⟨tcp, udp⟩ trivial
    | false =>
      have tcp := (nids_off apart_tcp shaped.tcp).1
      have udp := (nids_off apart_udp shaped.udp).1
      show Restored _ _ s.enableFrequencyEngine false (switchNIDS _ _ _ false) ∧
        Restored _ _ s.enableFrequencyEngine false (switchNIDS _ _ _ false) ↔
          s.enableNidsEngine = true
      rw [tcp, udp]
      exact and_self_iff

theorem shaped_step {s t : StackLan} {c : Call} (shaped : Shaped s)
    (h : step (.ok s) c = some (.ok t)) (reversible : Reversible (.ok t)) : Shaped t := by
  cases c with
  | enableFrequencyEngine enable =>
    exact shaped_setFrequencyEngine shaped (Option.some.inj h) reversible
  | enableNIDSEngine enable =>
    obtain rfl := Except.ok.inj (Option.some.inj h)
    obtain ⟨left, right⟩ := (reversible_ok _).mp reversible
    cases enable with
    | true => exact ⟨nids_on apart_tcp shaped.tcp, nids_on apart_udp shaped.udp⟩
    | false => exact ⟨(nids_off apart_tcp shaped.tcp).2 left, (nids_off apart_udp shaped.udp).2 right⟩

theorem shaped_new (flowCacheTcp flowCacheUdp : Cache) (freqsTcp freqsUdp : FrequencyProtocol) :
    Shaped (new flowCacheTcp flowCacheUdp freqsTcp freqsUdp) :=
  ⟨.plain, .plain⟩

/-- The engines can be switched back in a run exactly when all its calls are harmless. -/
theorem always_reversible_iff (flowCacheTcp flowCacheUdp : Cache)
    (freqsTcp freqsUdp : FrequencyProtocol) (calls : List Call) :
    Transition.Always step Reversible (.ok (new flowCacheTcp flowCacheUdp freqsTcp freqsUdp)) calls ↔
      Transition.Along step (fun x c _ => ∀ s, x = .ok s → Harmless s c)
        (.ok (new flowCacheTcp flowCacheUdp freqsTcp freqsUdp)) calls := by
  refine @Transition.always_iff_along_good _ _ _ (fun x => ∃ s, x = .ok s ∧ Shaped s) _ _ _ _
    ?_ ?_ ?_ ?_
  · rintro x ⟨s, rfl, shaped⟩
    exact shaped_reversible shaped
  · rintro x c y ⟨s, rfl, shaped⟩ stepped reversible
    cases y with
    | error e => exact absurd reversible (not_reversible_error e)
    | ok t => exact ⟨t, rfl, shaped_step shaped stepped reversible⟩
  · rintro x c y ⟨s, rfl, shaped⟩ stepped
    rw [step_reversible_iff shaped stepped]
    exact ⟨fun harmless t same => Except.ok.inj same ▸ harmless, fun all => all s rfl⟩
  · exact ⟨_, rfl, shaped_new flowCacheTcp flowCacheUdp freqsTcp freqsUdp⟩

/-- On and off again: the generic forwarder does not come back, and the last protocol goes too. -/
theorem not_always_reversible :
    ¬∀ calls, Transition.Always step Reversible
      (.ok (new (Cache.create { id := .flow 0 } 1) (Cache.create { id := .flow 1 } 1)
        { freqsCache := { id := .frequencies 0 }, packetFreqsCache := { id := .packetFrequencies 0 } }
        { freqsCache := { id := .frequencies 1 }, packetFreqsCache := { id := .packetFrequencies 1 } }))
      calls := by
  intro h
  exact Transition.not_always_of_run (by decide +kernel)
    (h [.enableFrequencyEngine true, .enableFrequencyEngine false])

end StackLan

end AIEngine
