import AIEngine.Applications.InfoPools
import AIEngine.Transport.Halves
import AIEngine.Transport.Resets

/-!
# A transport goes on

As long as no pool has an empty slot, every packet is processed to its end. Only the frequency engine can get
in the way, when it has one of its two objects for a flow and not the other.
-/

namespace AIEngine

open Ending (ends_bind ends_weaken)

namespace World

open Ending (Ends)

variable {E : Fault → Prop} {w : World} {a i : Obj} {p : L7Protocol}

theorem runActions_ends (actions : List AppAction) (filled : w.Filled) :
    Ends E Filled (w.runActions p i actions) := by
  induction actions generalizing w with
  | nil => exact filled
  | cons action rest ih =>
    cases action with
    | ban => exact filled_ban filled
    | string x value =>
      unfold runActions
      split
      · exact ih filled
      · rename_i attach known
        obtain ⟨countHit, rfl⟩ := attachString_intern known
        obtain ⟨w', attached⟩ := intern_filled (p := p) (i := i) x (decide (x = .uri)) countHit value filled
        simp only [attached]
        exact ih (filled_intern filled attached)

theorem processFlow_ends (found : List AppAction) (filled : w.Filled) :
    Ends E Filled (w.processFlow p a found) := by
  obtain ⟨r, w', attached⟩ := attachInfo_filled (p := p) (a := a) filled
  have after := filled_attachInfo filled attached
  unfold processFlow
  rw [attached]
  cases r with
  | none => exact after
  | some i =>
    simp only
    split
    · exact after
    · exact runActions_ends found after

theorem filled_setFrequency {k : Nat} {q : FrequencyProtocol} (filled : w.Filled) (stocked : q.Stocked) :
    (w.setFrequency k q).Filled := by
  intro id
  cases id with
  | frequencies j =>
    by_cases same : j = k
    · simpa [cache, setFrequency, same] using stocked.freqs
    · simpa [cache, setFrequency, same] using filled (.frequencies j)
  | packetFrequencies j =>
    by_cases same : j = k
    · simpa [cache, setFrequency, same] using stocked.packetFreqs
    · simpa [cache, setFrequency, same] using filled (.packetFrequencies j)
  | flow j => exact filled (.flow j)
  | tcpInfo j => exact filled (.tcpInfo j)
  | info p => exact filled (.info p)
  | string p x => exact filled (.string p x)

/-- The payload goes to a frequency engine that has frequencies for the flow, and no packet frequencies. -/
def Starves (w : World) (a : Obj) (x : Application) : Prop :=
  ∃ k payload, x = .frequency k payload ∧ (w.frequency k).Halved (w.flows a)

theorem runApplication_ends (x : Application) (filled : w.Filled) :
    Ends (fun _ => w.Starves a x) Filled (w.runApplication a x) := by
  cases x with
  | nothing => exact filled
  | protocol p found => exact processFlow_ends found filled
  | frequency k payload =>
    simp only [runApplication]
    rcases FrequencyProtocol.processFlow_cases (w.flows a) payload (filled_frequency filled k) with
      ⟨halved, failed⟩ | ⟨-, q, f, processed, kept, -⟩
    · rw [failed]
      exact ⟨k, payload, rfl, halved⟩
    · rw [processed]
      exact filled_same (filled_setFrequency filled kept.stocked) fun _ => rfl

end World

namespace Transport

variable {E : Fault → Prop} {s t : Transport} {kind : Kind} {p : Packet} {o : Outside} {a i : Obj} {hint : Nat}

/-- The table is in order, every `TCPInfo` is in the table of the states, and there are no empty slots. -/
structure Steady (kind : Kind) (s : Transport) : Prop where
  sound : Sound s
  range : kind = .tcp → InRange s
  filled : s.world.Filled

theorem steady_start (kind : Kind) (layer : Nat) (objects : CacheId → Nat) (registered : Option Nat)
    (timeout : Int) : Steady kind (start layer objects registered timeout) where
  sound := sound_start layer objects registered timeout
  range _ _ := ⟨.closed, Tcp.reset_inRange {}⟩
  filled := World.filled_start objects registered

/-! ### The first half -/

theorem acquireFlow_ends (filled : s.world.Filled) :
    Ending.Ends E (fun r => r.2.world.Filled) s.acquireFlow := by
  obtain ⟨r, c, acquired, stocked⟩ := Cache.stocked_acquire (filled (.flow s.layer))
  have acquired : s.flowCache.fc.acquire = .ok (r, c) := acquired
  have taken : (s.world.setCache (.flow s.layer) c).Filled := World.filled_setCache filled stocked
  unfold acquireFlow FlowCache.acquireFlow
  rw [acquired]
  cases r with
  | none => exact World.filled_same taken fun _ => rfl
  | some a => exact World.filled_same taken fun _ => rfl

theorem addFlow_filled (filled : s.world.Filled) : (s.addFlow a hint).world.Filled := by
  unfold addFlow
  split
  · exact filled
  · exact World.filled_same filled fun _ => rfl

theorem attach_ends (filled : s.world.Filled) : Ending.Ends E (fun t => t.world.Filled) (s.attach kind a) := by
  cases kind with
  | udp => exact filled
  | tcp =>
    obtain ⟨r, c, acquired, stocked⟩ := Cache.stocked_acquire (filled (.tcpInfo s.layer))
    have taken : (s.world.setCache (.tcpInfo s.layer) c).Filled := World.filled_setCache filled stocked
    show Ending.Ends E _ (s.attachTcpInfo a)
    unfold attachTcpInfo
    rw [acquired]
    cases r with
    | none => exact taken
    | some i => exact World.filled_same taken fun _ => rfl

theorem newFlow_ends (filled : s.world.Filled) :
    Ending.Ends E (fun r => r.2.world.Filled) (s.newFlow kind p hint) := by
  have acquired := acquireFlow_ends (E := E) filled
  revert acquired
  unfold newFlow
  cases s.acquireFlow with
  | error e => exact id
  | ok r =>
    obtain ⟨found, u⟩ := r
    intro held
    have held : u.world.Filled := held
    cases found with
    | none => exact held
    | some a =>
      have written : ((u.setFlow a (u.describe kind p (u.flow a))).addFlow a hint).world.Filled :=
        addFlow_filled (World.filled_same held fun _ => rfl)
      have attached : Ending.Ends E (fun t => t.world.Filled)
          (((u.setFlow a (u.describe kind p (u.flow a))).addFlow a hint).attach kind a) := attach_ends written
      revert attached
      dsimp only
      cases ((u.setFlow a (u.describe kind p (u.flow a))).addFlow a hint).attach kind a <;> exact id

/-- What `getFlow` leaves to the rest of `processPacket`. -/
structure Found (kind : Kind) (found : Option Obj) (t : Transport) : Prop extends Steady kind t where
  member : ∀ a, found = some a → a ∈ t.table
  side : ∀ a, found = some a → ∃ d : Tcp.Side, (t.flow a).direction = d.dir

theorem getFlow_ends (steady : Steady kind s) :
    Ending.Ends E (fun r => Found kind r.1 r.2) (s.getFlow kind p hint) := by
  have filled : Ending.Ends E (fun r => r.2.world.Filled) (s.getFlow kind p hint) := by
    unfold getFlow
    split
    · exact World.filled_same steady.filled fun _ => rfl
    · exact newFlow_ends steady.filled
  cases got : s.getFlow kind p hint with
  | error e =>
    have failed : E e := Ending.ends_error filled got
    exact failed
  | ok r =>
    obtain ⟨found, t⟩ := r
    obtain ⟨sound, looked⟩ := getFlow_spec steady.sound got
    refine ⟨⟨sound, fun tcp => inRange_getFlow (steady.range tcp) got, ?_⟩, ?_, ?_⟩
    · rw [got] at filled
      exact filled
    · rintro a rfl
      exact looked.mem
    · rintro a rfl
      exact getFlow_side got

theorem setFlow_filled (filled : s.world.Filled) (f : Flow) : (s.setFlow a f).world.Filled :=
  World.filled_same filled fun _ => rfl

theorem notePacket_filled (filled : s.world.Filled) (bytes : Int) : (s.notePacket a bytes).world.Filled :=
  setFlow_filled filled _

theorem noteAnomaly_filled (filled : s.world.Filled) (pa : PacketAnomalyType) :
    (s.noteAnomaly a pa).world.Filled := by
  unfold noteAnomaly
  split
  · exact setFlow_filled filled _
  · exact filled

theorem lookupIPSet_filled (filled : s.world.Filled) (o : Outside) : (s.lookupIPSet a o).world.Filled := by
  unfold lookupIPSet
  split
  · split
    · exact setFlow_filled filled _
    · exact setFlow_filled filled _
    · exact filled
  · exact filled

theorem checkLength_filled (filled : s.world.Filled) (p : Packet) :
    (UDPProtocol.checkLength s a p).2.world.Filled := by
  unfold UDPProtocol.checkLength
  dsimp only
  split
  · exact noteAnomaly_filled filled _
  · exact filled

theorem computeState_ends {d : Tcp.Side} {tcp : Tcp.TcpHeader} {bytes : Int} (filled : s.world.Filled)
    (range : InRange s) (directed : (s.flow a).direction = d.dir) :
    Ending.Ends E (fun t => t.world.Filled ∧ InRange t) (TCPProtocol.computeState s a i tcp bytes) := by
  obtain ⟨st, before⟩ := range i
  obtain ⟨info, moved, after⟩ := Tcp.computeState_inRange before directed s.totals tcp bytes
  unfold TCPProtocol.computeState
  rw [moved]
  refine ⟨World.filled_same filled fun _ => rfl, fun j => ?_⟩
  by_cases same : j = i
  · exact ⟨_, by simpa [setFlow, same] using after⟩
  · obtain ⟨other, held⟩ := range j
    exact ⟨other, by simpa [setFlow, same] using held⟩

theorem releaseObjects_filled (filled : s.world.Filled) : (s.releaseObjects a).world.Filled :=
  World.filled_releaseFlow _ filled

theorem returnFlow_filled (filled : s.world.Filled) : (s.returnFlow a).world.Filled := by
  have given : (s.world.setCache (.flow s.layer) ((s.world.cache (.flow s.layer)).release (some a))).Filled :=
    World.filled_setCache filled (Cache.stocked_release (filled (.flow s.layer)))
  exact World.filled_same given fun _ => rfl

theorem closeFlow_ends (sound : Sound s) (filled : s.world.Filled) (member : a ∈ s.table) :
    Ending.Ends E (fun t => t.world.Filled) (TCPProtocol.closeFlow s a) := by
  obtain ⟨t, shut⟩ := closeFlow_total sound member
  rw [shut]
  unfold TCPProtocol.closeFlow removeFlow at shut
  split at shut
  · rename_i u removed
    split at removed
    · obtain rfl := Except.ok.inj removed
      obtain rfl := Except.ok.inj shut
      exact returnFlow_filled (World.filled_same (releaseObjects_filled filled) fun _ => rfl)
    · exact absurd removed (by simp)
  · exact absurd shut (by simp)

theorem tcp_enterFlow_ends (found : Found .tcp (some a) s) :
    Ending.Ends E (fun r => r.1.world.Filled ∧ InRange r.1) (TCPProtocol.enterFlow s a i p o) := by
  obtain ⟨d, directed⟩ := found.side a rfl
  have range := found.range rfl
  have member := found.member a rfl
  unfold TCPProtocol.enterFlow
  generalize p.totalLength - p.headerSize - p.tcpHdrLength = bytes
  have same := (same_notePacket s a bytes).trans (same_noteAnomaly _ a p.anomaly)
  have part : ((s.notePacket a bytes).noteAnomaly a p.anomaly).tcpInfos = s.tcpInfos :=
    congrArg TcpPart.infos (tcpPart_noteAnomaly _ a p.anomaly)
  have kept : (((s.notePacket a bytes).noteAnomaly a p.anomaly).flow a).direction = d.dir := by
    rw [← directed]
    unfold noteAnomaly
    split <;> simp [notePacket, Flow.setPacketAnomaly]
  have filled := noteAnomaly_filled (notePacket_filled (a := a) found.filled bytes) (a := a) p.anomaly
  dsimp only
  generalize (s.notePacket a bytes).noteAnomaly a p.anomaly = u at same part kept filled ⊢
  have computes : Ending.Ends E (fun t => t.world.Filled ∧ InRange t) (TCPProtocol.computeState u a i p.tcp bytes) :=
    computeState_ends filled (range.congr part) kept
  cases computed : TCPProtocol.computeState u a i p.tcp bytes with
  | error e =>
    have failed : E e := Ending.ends_error computes computed
    exact failed
  | ok v =>
    rw [computed] at computes
    have looked := lookupIPSet_filled (a := a) computes.1 o
    have ranged := computes.2.congr (congrArg TcpPart.infos (tcpPart_lookupIPSet v a o))
    have whole := (same.trans (same_computeState computed)).trans (same_lookupIPSet v a o)
    simp only [bind, Except.bind]
    split
    · exact ⟨looked, ranged⟩
    · split
      · have closes := closeFlow_ends (E := E) (found.sound.same whole) looked (whole.table ▸ member)
        cases shut : TCPProtocol.closeFlow (v.lookupIPSet a o) a with
        | error e =>
          have failed : E e := Ending.ends_error closes shut
          exact failed
        | ok w =>
          have after := Ending.ends_value closes shut
          exact ⟨after, ranged.congr (congrArg TcpPart.infos (closeFlow_left shut))⟩
      · exact ⟨looked, ranged⟩

/-- Up to `forwardFlow` nothing gets in the way. -/
theorem enter_ends (steady : Steady kind s) :
    Ending.Ends E (fun r => r.1.world.Filled ∧ (kind = .tcp → InRange r.1)) (s.enter kind p o) := by
  have begun : Steady kind (s.begin p) := ⟨begin_sound steady.sound p, steady.range, steady.filled⟩
  have got : Ending.Ends E (fun r => Found kind r.1 r.2) ((s.begin p).getFlow kind p o.hint) := getFlow_ends begun
  cases kind with
  | udp =>
    refine ends_bind got ?_
    rintro ⟨found, u⟩ held
    cases found with
    | none => exact ⟨World.filled_same held.filled fun _ => rfl, nofun⟩
    | some a =>
      have current : (Transport.world { u with currentFlow := some a }).Filled := held.filled
      exact ⟨lookupIPSet_filled (notePacket_filled (checkLength_filled (noteAnomaly_filled current _) p) _) o, nofun⟩
  | tcp =>
    refine ends_bind got ?_
    rintro ⟨found, u⟩ held
    cases found with
    | none => exact ⟨World.filled_same held.filled fun _ => rfl, held.range⟩
    | some a =>
      have current : Found .tcp (some a) { u with currentFlow := some a } :=
        ⟨⟨held.sound.congr rfl (fun _ _ => rfl) (.of_eq rfl), held.range, held.filled⟩, held.member, held.side⟩
      dsimp only
      split
      · exact ⟨current.filled, current.range⟩
      · exact ends_weaken (tcp_enterFlow_ends current) fun r done => ⟨done.1, fun _ => done.2⟩

/-! ### The second half -/

theorem expire_filled (filled : s.world.Filled) : (s.expire a).world.Filled :=
  returnFlow_filled (releaseObjects_filled (World.filled_same filled fun _ => rfl))

theorem sweep_filled (time : Int) (xs : List Obj) (filled : s.world.Filled) : (s.sweep time xs).world.Filled := by
  induction xs generalizing s with
  | nil => exact filled
  | cons a rest ih =>
    unfold sweep
    split
    · exact ih (expire_filled filled)
    · exact filled

theorem checkTimers_ends {refresh : Bool} (sound : Sound s) (filled : s.world.Filled) (member : a ∈ s.table) :
    Ending.Ends E (fun t => t.world.Filled) (s.checkTimers a refresh hint) := by
  unfold checkTimers
  split
  · exact sweep_filled _ _ filled
  · split
    · unfold updateFlowTime
      rw [sound.findId member]
      exact World.filled_same filled fun _ => rfl
    · exact setFlow_filled filled _

theorem finish_filled (sound : Sound s) (filled : s.world.Filled) (member : a ∈ s.table) :
    Ending.Ends E (fun t => t.world.Filled) (s.finish a hint kind) := by
  cases kind with
  | tcp =>
    have same := same_tcpCheckReject s a
    refine checkTimers_ends (sound.same same) ?_ (same.table ▸ member)
    unfold TCPProtocol.checkReject
    dsimp only
    split
    · exact setFlow_filled filled _
    · exact filled
  | udp =>
    have same := same_udpCheckReject s a
    refine checkTimers_ends (sound.same same) ?_ (same.table ▸ member)
    unfold UDPProtocol.checkReject
    dsimp only
    split
    · split
      · exact setFlow_filled filled _
      · exact setFlow_filled filled _
    · exact filled

theorem checkTimers_sound {refresh : Bool} (sound : Sound s) (member : a ∈ s.table)
    (timed : s.checkTimers a refresh hint = .ok t) : Sound t := by
  rcases checkTimers_cases timed with ⟨-, rfl⟩ | ⟨-, ⟨b, u, found, rfl, rfl⟩ | rfl⟩
  · have begun : Sound { s with lastTimeout := s.packetTime, swept := true } :=
      sound.congr rfl (fun _ _ => rfl) (.of_eq rfl)
    exact (updateTimers_spec s.packetTime begun (fun _ => rfl) rfl rfl rfl).1
  · obtain rfl := Option.some.inj ((sound.findId member).symm.trans found)
    exact (sound_setLastPacketTime sound a s.packetTime).congr rfl (fun _ _ => rfl)
      (OrderedIndex.modify_perm hint member)
  · exact sound_setLastPacketTime sound a s.packetTime

theorem finish_ends (steady : Steady kind s) (member : a ∈ s.table) :
    Ending.Ends E (Steady kind) (s.finish a hint kind) := by
  have filled : Ending.Ends E _ (s.finish a hint kind) := finish_filled steady.sound steady.filled member
  cases finished : s.finish a hint kind with
  | error e =>
    have failed : E e := Ending.ends_error filled finished
    exact failed
  | ok t =>
    rw [finished] at filled
    refine ⟨?_, ?_, filled⟩
    · cases kind with
      | tcp =>
        have same := same_tcpCheckReject s a
        exact checkTimers_sound (steady.sound.same same) (same.table ▸ member) finished
      | udp =>
        have same := same_udpCheckReject s a
        exact checkTimers_sound (steady.sound.same same) (same.table ▸ member) finished
    · rintro rfl
      exact (steady.range rfl).congr (congrArg TcpPart.infos (tcpPart_finish finished))

/-- The application above cannot work on the payload of the flow. -/
def Starves (s : Transport) (a : Obj) (o : Outside) : Prop := s.world.Starves a o.application

theorem forwardFlow_ends (filled : s.world.Filled) :
    Ending.Ends (fun _ => s.Starves a o) (fun t => t.world.Filled) (s.forwardFlow a o) := by
  have handed : (s.world.setFlow a { s.flow a with packet := some o.packet }).Filled :=
    World.filled_same filled fun _ => rfl
  have ran := World.runApplication_ends (a := a) o.application handed
  revert ran
  unfold forwardFlow
  cases (s.world.setFlow a { s.flow a with packet := some o.packet }).runApplication a o.application with
  | ok w => exact fun done => World.filled_same done fun _ => rfl
  | error e =>
    rintro ⟨k, payload, same, halved⟩
    refine ⟨k, payload, same, ?_⟩
    simpa [World.setFlow, World.setFrequency, FrequencyProtocol.Halved, FrequencyProtocol.HasFrequencies,
      FrequencyProtocol.HasPacketFrequencies, flow] using halved

theorem forwardFlow_steady (steady : Steady kind s) (forwarded : s.forwardFlow a o = .ok t) : Steady kind t := by
  have filled := forwardFlow_ends (a := a) (o := o) steady.filled
  rw [forwarded] at filled
  exact ⟨steady.sound.same (same_forwardFlow forwarded),
    fun tcp => (steady.range tcp).congr (congrArg TcpPart.infos (tcpPart_forwardFlow forwarded)), filled⟩

/-- The flow that the second half works on is the current one and still in the table. -/
def Ready (s : Transport) (e : Entered) : Prop :=
  ∀ a, e = .finishing a ∨ e = .handing a → s.currentFlow = some a ∧ a ∈ s.table

theorem complete_ends {e : Entered} (steady : Steady kind s) (ready : s.Ready e) :
    Ending.Ends (fun _ => ∃ a, e = .handing a ∧ s.Starves a o) (Steady kind) (complete kind o (s, e)) := by
  cases e with
  | ended => exact steady
  | finishing a => exact finish_ends steady (ready a (Or.inl rfl)).2
  | handing a =>
    have forwards := forwardFlow_ends (a := a) (o := o) steady.filled
    show Ending.Ends _ _ (s.forwardFlow a o >>= fun t => t.finish a o.hint kind)
    cases forwarded : s.forwardFlow a o with
    | error f =>
      rw [forwarded] at forwards
      exact ⟨a, rfl, forwards⟩
    | ok t =>
      exact finish_ends (forwardFlow_steady steady forwarded)
        ((same_forwardFlow forwarded).table ▸ (ready a (Or.inr rfl)).2)

/-- What the first half leaves to the second. -/
theorem enter_left {e : Entered} (steady : Steady kind s) (entered : s.enter kind p o = .ok (t, e)) :
    Sound t ∧ t.Ready e := by
  obtain ⟨found, u, got, cases⟩ := enter_cases entered
  obtain ⟨sound, looked⟩ := getFlow_spec (begin_sound steady.sound p) got
  rcases cases with ⟨-, rfl, rfl⟩ | ⟨b, rfl, entry⟩
  · exact ⟨sound.congr rfl (fun _ _ => rfl) (.of_eq rfl), fun a going => absurd going (by simp)⟩
  · have current : Sound { u with currentFlow := some b } := sound.congr rfl (fun _ _ => rfl) (.of_eq rfl)
    have here : b ∈ Transport.table { u with currentFlow := some b } := looked.mem
    have ready {v : Transport} (same : Same { u with currentFlow := some b } v) :
        v.currentFlow = some b ∧ b ∈ v.table :=
      ⟨congrArg Members.currentFlow same.members, same.table ▸ here⟩
    cases entry with
    | ignored => exact ⟨current, fun a going => absurd going (by simp)⟩
    | closed same shut =>
      exact ⟨(closeFlow_spec (current.same same) (same.table ▸ here) shut).1, fun a going => absurd going (by simp)⟩
    | finishing same =>
      refine ⟨current.same same, fun a going => ?_⟩
      obtain rfl : b = a := by simpa using going
      exact ready same
    | handing same =>
      refine ⟨current.same same, fun a going => ?_⟩
      obtain rfl : b = a := by simpa using going
      exact ready same

theorem enter_keeps (steady : Steady kind s) :
    Ending.Ends E (fun r => Steady kind r.1 ∧ r.1.Ready r.2) (s.enter kind p o) := by
  have enters := enter_ends (E := E) (p := p) (o := o) steady
  cases entered : s.enter kind p o with
  | error e =>
    have failed : E e := Ending.ends_error enters entered
    exact failed
  | ok r =>
    obtain ⟨filled, range⟩ := Ending.ends_value enters entered
    obtain ⟨sound, ready⟩ := enter_left steady entered
    exact ⟨⟨sound, range, filled⟩, ready⟩

/-- A packet is processed to its end, unless its payload is handed to an application that cannot work on it. -/
theorem processPacket_ends (steady : Steady kind s) :
    Ending.Ends (fun _ => ∃ t a, s.enter kind p o = .ok (t, .handing a) ∧ t.Starves a o) (Steady kind)
      (s.processPacket kind p o) := by
  have enters := enter_keeps (E := fun _ => False) (p := p) (o := o) steady
  rw [processPacket_halves]
  cases entered : s.enter kind p o with
  | error e =>
    rw [entered] at enters
    exact enters.elim
  | ok r =>
    obtain ⟨t, e⟩ := r
    obtain ⟨held, ready⟩ := Ending.ends_value enters entered
    refine Ending.ends_mono (complete_ends held ready) (fun _ => id) ?_
    rintro f ⟨a, rfl, starves⟩
    exact ⟨t, a, rfl, starves⟩

end Transport

end AIEngine
