import AIEngine.Sip.Extraction
import AIEngine.Library.Transition
import AIEngine.Resources.Spec

/-!
# Values of SIP headers, in every run

What a packet attaches, in every state that packets lead to while flows come and go.
-/

namespace AIEngine

open Ending World
open Octets (ascii)

namespace SIPProtocol

variable {s t u : SIPProtocol} {a i : Obj} {p : L7Packet} {x : Header}

/-! ### The three headers -/

theorem faithful_first (spared : Spared a x s u) : Faithful a p u t x ↔ Faithful a p s t x := by
  unfold Faithful
  rw [spared.same.attached, located_spared spared]

theorem faithful_last (spared : Spared a x u t) : Faithful a p s t x ↔ Faithful a p s u x := by
  unfold Faithful
  rw [spared.same.attached]

theorem extractAll_keeps {headers : List Header} (ready : Ready a i s)
    (h : extractAll p i headers s = .ok t) :
    Ready a i t ∧ ∀ y, y ∉ headers → Spared a y s t := by
  induction headers generalizing s with
  | nil =>
    obtain rfl := Except.ok.inj h
    exact ⟨ready, fun y _ => spared_refl a y s⟩
  | cons x rest ih =>
    obtain ⟨u, first, later⟩ := bind_ok h
    obtain ⟨after, one⟩ := extract_keeps ready first
    obtain ⟨last, others⟩ := ih after later
    refine ⟨last, fun y outside => ?_⟩
    have apart := not_or.mp (mt List.mem_cons.mpr outside)
    exact spared_trans (one y apart.1) (others y apart.2)

theorem extractAll_iff {headers : List Header} (distinct : headers.Nodup) (ready : Ready a i s) :
    (∃ t, extractAll p i headers s = .ok t ∧ ∀ x ∈ headers, Faithful a p s t x) ↔
      ∀ x ∈ headers, Harmless s a p x := by
  induction headers generalizing s with
  | nil => exact iff_of_true ⟨s, rfl, by simp⟩ (by simp)
  | cons x rest ih =>
    obtain ⟨alone, distinct⟩ := List.nodup_cons.mp distinct
    have different {y : Header} (member : y ∈ rest) : y ≠ x := fun same => alone (same ▸ member)
    constructor
    · rintro ⟨t, done, faithful⟩
      obtain ⟨u, first, later⟩ := bind_ok done
      obtain ⟨after, one⟩ := extract_keeps ready first
      obtain ⟨-, others⟩ := extractAll_keeps after later
      intro y member
      rcases List.mem_cons.mp member with rfl | behind
      · have here := faithful y List.mem_cons_self
        exact (extract_iff ready).mp ⟨u, first, (faithful_last (others y alone)).mp here⟩
      · refine (harmless_spared (one y (different behind))).mp ((ih distinct after).mp ⟨t, later, ?_⟩ y
          behind)
        intro z inside
        exact (faithful_first (one z (different inside))).mpr
          (faithful z (List.mem_cons_of_mem x inside))
    · intro harmless
      obtain ⟨u, first, faithful⟩ := (extract_iff ready).mpr (harmless x List.mem_cons_self)
      obtain ⟨after, one⟩ := extract_keeps ready first
      obtain ⟨t, later, rests⟩ := (ih (s := u) distinct after).mpr fun y member =>
        (harmless_spared (one y (different member))).mpr (harmless y (List.mem_cons_of_mem x member))
      obtain ⟨-, others⟩ := extractAll_keeps after later
      refine ⟨t, ?_, fun y member => ?_⟩
      · unfold extractAll
        rw [first]
        exact later
      · rcases List.mem_cons.mp member with rfl | behind
        · exact (faithful_last (others y alone)).mpr faithful
        · exact (faithful_first (one y (different behind))).mp (rests y behind)

/-! ### The uri -/

/-- No method has a slash, so the version is behind the method of its request. -/
theorem method_before_version {method : Bytes} {k : Nat} (known : method ∈ methods)
    (starts : p.startsWith method = true) (found : Octets.find (ascii "SIP/2.") p.payload = some k) :
    method.length + 1 ≤ p.payload.length := by
  by_contra short
  have whole : p.payload <+: p.payload ++ p.beyond := List.prefix_append _ _
  have inside : p.payload <+: method :=
    List.prefix_of_prefix_length_le whole (List.isPrefixOf_iff_prefix.mp starts) (by omega)
  have version : ascii "SIP/2." <+: p.payload.drop k :=
    List.isPrefixOf_iff_prefix.mp (Octets.find_isPrefixOf found)
  have slash : (0x2f : BitVec 8) ∈ ascii "SIP/2." := by decide
  have present : (0x2f : BitVec 8) ∈ method :=
    inside.subset (List.mem_of_mem_drop (version.subset slash))
  exact (by decide : ∀ m ∈ methods, (0x2f : BitVec 8) ∉ m) method known present

theorem attachUri_keeps (ready : Ready a i s) (uri : Bytes) :
    ∃ t, s.onWorld (World.Sip.attachUriToFlow s.world i uri) = .ok t ∧ Ready a i t ∧
      ∀ x, Spared a x s t := by
  obtain ⟨w, interned⟩ := intern_filled (p := .sip) (i := i) .uri true true uri
    ready.sound.keyed.filled
  have attached : World.Sip.attachUriToFlow s.world i uri = .ok w := interned
  rw [attached]
  refine ⟨_, rfl, ⟨sound_intern ready.sound interned, intern_locked ready.locked interned⟩,
    fun x => ⟨?_, rfl⟩⟩
  exact intern_same ready.sound.keyed ready.sound.homed ready.locked interned (by cases x <;> decide)

theorem extractUriValue_keeps (ready : Ready a i s) (p : L7Packet) :
    ∃ t, extractUriValue s i p = .ok t ∧ Ready a i t ∧ ∀ x, Spared a x s t := by
  have same : ∃ t, (.ok s : Except Failure SIPProtocol) = .ok t ∧ Ready a i t ∧ ∀ x, Spared a x s t :=
    ⟨s, rfl, ready, fun x => spared_refl a x s⟩
  unfold extractUriValue
  split
  · exact same
  · split
    · exact same
    · rename_i method chosen
      split
      · rename_i k found
        have bound := method_before_version (List.mem_of_find?_eq_some chosen)
          (List.find?_some chosen) found
        unfold substr
        simp only [Octets.substr_of_le bound]
        exact attachUri_keeps ready _
      · exact same

theorem processHeader_iff (ready : Ready a i s) :
    (∃ t, processHeader p s i = .ok t ∧ ∀ x, Faithful a p s t x) ↔ ∀ x, Harmless s a p x := by
  obtain ⟨u, first, after, spared⟩ := extractUriValue_keeps ready p
  have every (x : Header) : x ∈ Header.all := by cases x <;> decide
  have opened : processHeader p s i = extractAll p i Header.all u := by
    rw [processHeader_eq, first]
    rfl
  rw [opened]
  have listed : (∃ t, extractAll p i Header.all u = .ok t ∧ ∀ x ∈ Header.all, Faithful a p u t x) ↔
      ∀ x ∈ Header.all, Harmless u a p x := extractAll_iff (by decide) after
  constructor
  · rintro ⟨t, done, faithful⟩ x
    refine (harmless_spared (spared x)).mp (listed.mp ⟨t, done, fun y _ => ?_⟩ x (every x))
    exact (faithful_first (spared y)).mpr (faithful y)
  · intro harmless
    obtain ⟨t, done, faithful⟩ := listed.mpr fun y _ => (harmless_spared (spared y)).mpr (harmless y)
    exact ⟨t, done, fun x => (faithful_first (spared x)).mp (faithful x (every x))⟩

theorem processHeader_sound (ready : Ready a i s) (h : processHeader p s i = .ok t) : Sound t := by
  obtain ⟨u, first, after, -⟩ := extractUriValue_keeps ready p
  rw [processHeader_eq, first] at h
  exact (extractAll_keeps after h).1.sound

/-! ### A packet -/

theorem sound_countPacketL7 (sound : Sound s) (a : Obj) : Sound (s.countPacketL7 a) :=
  ⟨keyed_same sound.keyed (filled_same sound.keyed.filled fun _ => rfl) (fun _ => rfl) rfl rfl rfl,
    sound.homed, sound.buffers, sound.finds⟩

theorem countPacketL7_locks (s : SIPProtocol) (a : Obj) :
    (s.countPacketL7 a).world.lockInfo .sip ((s.countPacketL7 a).world.flows a) =
      s.world.lockInfo .sip (s.world.flows a) := by
  simp only [Inspector.countPacketL7, lockInfo, setFlow, if_true]
  rfl

theorem homed_attachInfo {w w' : World} {r : Option Obj} (homed : Homed w)
    (h : w.attachInfo .sip a = .ok (r, w')) : Homed w' := by
  rcases World.attachInfo_cases h with ⟨j, -, -, rfl⟩ | ⟨j, c, -, -, -, rfl⟩ | ⟨c, -, -, rfl⟩
  · exact homed
  · intro k y o pointer
    change ((if k = j then ({} : Info) else (w.setCache (.info .sip) c).infos k).strings y) = some o
      at pointer
    split at pointer
    · exact absurd pointer (by simp)
    · rw [setCache_infos] at pointer
      exact homed k y o pointer
  · intro k y o pointer
    rw [setCache_infos] at pointer
    exact homed k y o pointer

/-- A flow that has an info, or gets one, is ready for its packet. -/
theorem processFlow_ready (sound : Sound s) (p : L7Packet) (informs : Inspector.Informs .sip s a) :
    ∃ i t, processFlow s a p = processHeader p t i ∧ Ready a i t ∧ ∀ x, Spared a x s t := by
  have informs : Inspector.Informs .sip (s.countPacketL7 a) a := by
    unfold Inspector.Informs
    rw [countPacketL7_locks]
    exact informs
  have counted := sound_countPacketL7 sound a
  obtain ⟨i, t, attached, takes⟩ := Inspector.attachInfo_takes () counted.keyed.filled informs
  have opened : processFlow s a p = processHeader p t i := by
    unfold processFlow Inspector.withInfo
    rw [attached]
  have own : t.own = (s.countPacketL7 a).own := Inspector.attachInfo_own attached
  change t.own = s.own at own
  have locked := attachInfo_locked takes.attached
  refine ⟨i, t, opened, ⟨⟨keyed_attachInfo counted.keyed takes.attached,
    homed_attachInfo counted.homed takes.attached, ?_, ?_⟩, locked⟩, fun x => ⟨⟨?_, ?_, ?_⟩, ?_⟩⟩
  · rw [own]
    exact sound.buffers
  · rw [own]
    exact sound.finds
  · cases before : s.world.lockInfo .sip (s.world.flows a) with
    | none =>
      have fresh := (takes.fresh ((countPacketL7_locks s a).trans before)).1
      rw [attached_locked locked, fresh]
      unfold SIPProtocol.attached
      rw [before]
      rfl
    | some j =>
      obtain ⟨rfl, same⟩ := takes.held j ((countPacketL7_locks s a).trans before)
      rw [attached_locked locked, attached_locked before, same]
      rfl
  · rw [takes.maps]
    rfl
  · rw [takes.strings]
    rfl
  · rw [own]

theorem processFlow_uninformed (sound : Sound s) (p : L7Packet)
    (missed : ¬Inspector.Informs .sip s a) :
    ∃ t, processFlow s a p = .ok t ∧ Sound t ∧ ∀ x, attached t.world a x = none := by
  have misses : ¬Inspector.Informs .sip (s.countPacketL7 a) a := by
    unfold Inspector.Informs
    rw [countPacketL7_locks]
    exact missed
  have counted := sound_countPacketL7 sound a
  obtain ⟨w, attached, expired⟩ := Inspector.attachInfo_misses () misses
  obtain ⟨world, -⟩ := Inspector.attachInfo_cases attached
  refine ⟨{ s.countPacketL7 a with world := w }, ?_, ⟨keyed_attachInfo counted.keyed world,
    homed_attachInfo counted.homed world, sound.buffers, sound.finds⟩, fun x => ?_⟩
  · unfold processFlow Inspector.withInfo
    rw [attached]
  · unfold SIPProtocol.attached
    rw [expired]
    rfl

/-- The packet is processed, and the strings that its flow gets are located in it. -/
def Extracts (s : SIPProtocol) (a : Obj) (p : L7Packet) : Prop :=
  ∃ t, processFlow s a p = .ok t ∧ ∀ x, Faithful a p s t x

theorem extracts_iff (sound : Sound s) :
    Extracts s a p ↔ (Inspector.Informs .sip s a → ∀ x, Harmless s a p x) := by
  unfold Extracts
  by_cases informs : Inspector.Informs .sip s a
  · obtain ⟨i, u, opened, ready, spared⟩ := processFlow_ready sound p informs
    have exact := processHeader_iff (p := p) ready
    rw [opened]
    constructor
    · rintro ⟨t, done, faithful⟩ - x
      refine (harmless_spared (spared x)).mp (exact.mp ⟨t, done, fun y => ?_⟩ x)
      exact (faithful_first (spared y)).mpr (faithful y)
    · intro harmless
      obtain ⟨t, done, faithful⟩ :=
        exact.mpr fun x => (harmless_spared (spared x)).mpr (harmless informs x)
      exact ⟨t, done, fun x => (faithful_first (spared x)).mp (faithful x)⟩
  · obtain ⟨t, done, -, none⟩ := processFlow_uninformed sound p informs
    refine iff_of_true ⟨t, done, fun x _ value named => ?_⟩ fun gets => absurd gets informs
    exact absurd ((none x).symm.trans named) (by simp)

theorem processFlow_sound (sound : Sound s) (h : processFlow s a p = .ok t) : Sound t := by
  by_cases informs : Inspector.Informs .sip s a
  · obtain ⟨i, u, opened, ready, -⟩ := processFlow_ready sound p informs
    exact processHeader_sound ready (opened.symm.trans h)
  · obtain ⟨u, done, after, -⟩ := processFlow_uninformed sound p informs
    obtain rfl := Except.ok.inj (done.symm.trans h)
    exact after

/-! ### Runs -/

inductive Event where
  | openFlow (a : Obj)
  | packet (a : Obj) (packet : L7Packet)
  | endFlow (a : Obj)

/-- A packet that does not come to an end stops the run. -/
def step (s : SIPProtocol) : Event → Option SIPProtocol
  | .openFlow a =>
    if a ∈ s.world.table then none else some { s with world := s.world.openFlow a ipprotoUdp }
  | .packet a packet => if a ∈ s.world.table then (processFlow s a packet).toOption else none
  | .endFlow a =>
    if a ∈ s.world.table then some { s with world := s.world.endFlow a } else none

theorem releaseFirst_strings (w : World) (f : Flow) (protocols : List L7Protocol) (q : L7Protocol)
    (y : StringField) :
    (w.releaseFirst f protocols).cache (.string q y) = w.cache (.string q y) := by
  induction protocols with
  | nil => rfl
  | cons p rest ih =>
    unfold releaseFirst
    split
    · exact cache_setCache_other (by simp)
    · exact ih

theorem releaseFlow_strings (w : World) (f : Flow) (q : L7Protocol) (y : StringField) :
    (w.releaseFlow f).cache (.string q y) = w.cache (.string q y) := by
  have tcp : (w.releaseTcpInfo f).cache (.string q y) = w.cache (.string q y) := by
    unfold releaseTcpInfo
    split
    · split
      · exact cache_setCache_other (by simp)
      · rfl
    · rfl
  unfold releaseFlow
  split
  · exact (releaseFirst_strings _ f _ q y).trans tcp
  · exact (releaseFirst_strings _ f _ q y).trans (releaseFirst_strings w f _ q y)

theorem sound_endFlow (sound : Sound s) (a : Obj) :
    Sound { s with world := s.world.endFlow a } := by
  have returned := AIEngine.Http.releaseFlow_returnsInfos s.world (s.world.flows a)
  refine ⟨keyed_same sound.keyed ?_ (fun y => releaseFlow_strings ..) ?_ returned.names
    (congrFun returned.disordered .sip), ?_, sound.buffers, sound.finds⟩
  · exact filled_same (filled_releaseFlow _ sound.keyed.filled) fun _ => rfl
  · exact congrFun returned.maps .sip
  · intro j y o pointer
    change ((s.world.releaseFlow (s.world.flows a)).infos j).strings y = some o at pointer
    rw [returned.infos] at pointer
    exact sound.homed j y o pointer

theorem sound_step {e : Event} (sound : Sound s) (stepped : s.step e = some t) : Sound t := by
  cases e with
  | openFlow a =>
    simp only [step] at stepped
    split at stepped
    · exact absurd stepped (by simp)
    · obtain rfl := Option.some.inj stepped
      exact ⟨keyed_same sound.keyed (filled_same sound.keyed.filled fun _ => rfl) (fun _ => rfl) rfl
        rfl rfl, sound.homed, sound.buffers, sound.finds⟩
  | packet a packet =>
    simp only [step] at stepped
    split at stepped
    · exact processFlow_sound sound (toOption_some stepped)
    · exact absurd stepped (by simp)
  | endFlow a =>
    simp only [step] at stepped
    split at stepped
    · obtain rfl := Option.some.inj stepped
      exact sound_endFlow sound a
    · exact absurd stepped (by simp)

/-- Before the first packet: pools with some objects each, and expressions with empty buffers. -/
def plugged (objects : CacheId → Nat) (exec : Header → Bytes → Option Bytes) : SIPProtocol where
  world := World.start objects none
  infos := fun _ => ()
  own :=
    { viaExpression := { exec := exec .via }
      fromExpression := { exec := exec .fromAddr }
      toExpression := { exec := exec .toAddr } }

theorem sound_plugged (objects : CacheId → Nat) {exec : Header → Bytes → Option Bytes}
    (finds : ∀ x, Regex.Finds { exec := exec x } x.name) : Sound (plugged objects exec) := by
  refine ⟨keyed_start objects none, fun i y o pointer => ?_, fun x => ?_, fun x => ?_⟩
  · exact absurd pointer (by simp [plugged, World.start])
  · have empty : ([] : Bytes).length < Regex.extractBufferSize := by decide
    cases x <;> exact empty
  · cases x
    · exact finds .via
    · exact finds .fromAddr
    · exact finds .toAddr

/-- In every run of packets, the strings of a packet are its own when its matches fit into the
buffers and have no zeros, or nothing is attached for them. -/
theorem always_extracts_iff (objects : CacheId → Nat) (exec : Header → Bytes → Option Bytes)
    (finds : ∀ x, Regex.Finds { exec := exec x } x.name) (events : List Event) :
    Transition.Always step (fun s => ∀ (a : Obj) (p : L7Packet),
        Extracts s a p ↔ (Inspector.Informs .sip s a → ∀ x, Harmless s a p x))
      (plugged objects exec) events := by
  have sound : Transition.Always step Sound (plugged objects exec) events :=
    Transition.always_of_inv (fun _ _ _ sound stepped => sound_step sound stepped)
      (sound_plugged objects finds)
  exact Transition.always_mono (fun s sound a p => extracts_iff sound) sound

/-- What `name.*?\r\n` finds: the first line that starts with the name anywhere, to its end. -/
def lineOf (name : Bytes) (data : Bytes) : Option Bytes := do
  let k ← Octets.find name data
  let rest := data.drop (k + name.length)
  let n ← Octets.find lineEnd rest
  some (name ++ rest.take n ++ lineEnd)

theorem lineOf_finds (name : Bytes) : Regex.Finds { exec := lineOf name } name := by
  intro data text found
  obtain ⟨k, -, found⟩ := Option.bind_eq_some_iff.mp found
  obtain ⟨n, -, found⟩ := Option.bind_eq_some_iff.mp found
  exact ⟨_, (Option.some.inj found).symm⟩

def request (via : Bytes) : L7Packet where
  payload := ascii "INVITE sip:a SIP/2.0\r\nVia: " ++ via ++ lineEnd
  direction := .forward

theorem always_extracts_request :
    Transition.Always step (fun s => ∀ (a : Obj) (p : L7Packet),
        Extracts s a p ↔ (Inspector.Informs .sip s a → ∀ x, Harmless s a p x))
      (plugged (fun _ => 2) fun x => lineOf x.name)
      [.openFlow ⟨.flow 0, 0⟩, .packet ⟨.flow 0, 0⟩ (request [0x61])] :=
  always_extracts_iff _ _ (fun x => lineOf_finds x.name) _

/-- A via that is too long for the buffer: the flow gets the one of another flow. -/
theorem not_always_extracts :
    ¬∀ (objects : CacheId → Nat) (exec : Header → Bytes → Option Bytes),
      (∀ x, Regex.Finds { exec := exec x } x.name) → ∀ events : List Event,
        Transition.Always step (fun s => ∀ (a : Obj) (p : L7Packet), Extracts s a p)
          (plugged objects exec) events := by
  intro all
  have always := all (fun _ => 2) (fun x => lineOf x.name) (fun x => lineOf_finds x.name)
    [.openFlow ⟨.flow 0, 0⟩, .packet ⟨.flow 0, 0⟩ (request [0x61]), .openFlow ⟨.flow 0, 1⟩]
  have stale : ((Transition.run step (plugged (fun _ => 2) fun x => lineOf x.name)
      [.openFlow ⟨.flow 0, 0⟩, .packet ⟨.flow 0, 0⟩ (request [0x61]), .openFlow ⟨.flow 0, 1⟩]).any
        fun s => decide (attached s.world ⟨.flow 0, 1⟩ .via = none ∧
          located s .via (request (List.replicate 300 0x62)) ≠ some [0x61] ∧
          ((processFlow s ⟨.flow 0, 1⟩ (request (List.replicate 300 0x62))).toOption.any fun t =>
            decide (attached t.world ⟨.flow 0, 1⟩ .via = some [0x61])) = true)) = true := by
    decide +kernel
  obtain ⟨s, reached, found⟩ := (Option.any_eq_true _ _).mp stale
  obtain ⟨unnamed, own, left⟩ := of_decide_eq_true found
  obtain ⟨t, done, named⟩ := (Option.any_eq_true _ _).mp left
  obtain ⟨u, processed, faithful⟩ := Transition.always_final always reached ⟨.flow 0, 1⟩
    (request (List.replicate 300 0x62))
  obtain rfl := Except.ok.inj ((toOption_some done).symm.trans processed)
  exact own (faithful .via unnamed _ (of_decide_eq_true named))

end SIPProtocol

end AIEngine
