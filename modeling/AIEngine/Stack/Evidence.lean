import AIEngine.Evidence.RoundTrip
import AIEngine.Stack.Encapsulation

/-!
# Evidence of a capture (`PacketDispatcher.cc`)

The dispatcher hands each frame to its stack. A frame that comes back marked is evidence, and goes to the
evidence files as it was captured, as long as evidence is kept.
-/

namespace AIEngine

open Directory (contents putAll)
open Ending (bind_ok)
open EvidenceManager (Decodes Holds Written fileBytes segments)
open Pcap (Record)
open Stack (Frame)

/-- What `memcpy` takes of a packet. -/
def RawPacket.octets (p : RawPacket) : Bytes := p.memory.take p.length.toNat

structure Dispatcher (τ N : Type) where
  stack : NetworkStack τ
  haveEvidences : Bool := false
  em : EvidenceManager N

namespace Dispatcher

variable {τ N : Type} [DecidableEq N] (fileName : Int → N) (T : Transports τ)

/-- The end of `forward_raw_packet`; `now` is what the clock says, if a file is opened. -/
def writeEvidence (d : Dispatcher τ N) (p : Frame) (now : Int) : Except Fault (Dispatcher τ N) :=
  if d.haveEvidences ∧ p.evidence then do
    let em ← d.em.write fileName p.curr.octets now
    .ok { d with em := em }
  else .ok d

def forwardRawPacket (d : Dispatcher τ N) (raw : RawPacket) (time now : Int) : Except Fault (Dispatcher τ N) := do
  let (stack, p) ← d.stack.forwardRawPacket T raw time
  writeEvidence fileName { d with stack := stack } p now

def setEvidences (d : Dispatcher τ N) (value : Bool) (now : Int) : Except Fault (Dispatcher τ N) :=
  if ¬d.haveEvidences ∧ value then do
    let em ← d.em.enable fileName now
    .ok { d with haveEvidences := true, em := em }
  else if d.haveEvidences ∧ ¬value then .ok { d with haveEvidences := false, em := d.em.disable }
  else .ok d

inductive Event where
  | packet (raw : RawPacket) (time now : Int)
  | setEvidences (value : Bool) (now : Int)
  | enableLinkLayerTagging (type : String)
  deriving DecidableEq, Repr

def Event.now : Event → Int
  | .packet _ _ now => now
  | .setEvidences _ now => now
  | .enableLinkLayerTagging _ => 0

def call (d : Dispatcher τ N) : Event → Except Fault (Dispatcher τ N)
  | .packet raw time now => d.forwardRawPacket fileName T raw time now
  | .setEvidences value now => d.setEvidences fileName value now
  | .enableLinkLayerTagging type => .ok { d with stack := d.stack.enableLinkLayerTagging type }

/-- The frame comes back marked. -/
def marks (s : NetworkStack τ) (raw : RawPacket) (time : Int) : Bool :=
  match s.forwardRawPacket T raw time with
  | .ok (_, p) => p.evidence
  | .error _ => false

/-- What an event adds to the evidence. -/
def Event.evidence (d : Dispatcher τ N) : Event → List Bytes
  | .packet raw time _ => if d.haveEvidences ∧ marks T d.stack raw time then [raw.octets] else []
  | _ => []

end Dispatcher

/-- A dispatcher with the frames that were marked while it kept evidence, and with the clock readings at which its
files were opened. -/
structure Docket (τ N : Type) where
  dispatcher : Dispatcher τ N
  evidence : List Bytes := []
  openings : List Int := []

namespace Docket

open Dispatcher

variable {τ N : Type} [DecidableEq N] (fileName : Int → N) (T : Transports τ)

def step (s : Docket τ N) (e : Event) : Option (Docket τ N) :=
  match s.dispatcher.call fileName T e with
  | .ok d => some
    { dispatcher := d
      evidence := s.evidence ++ e.evidence T s.dispatcher
      openings := s.openings ++ if d.em.totalFiles = s.dispatcher.em.totalFiles then [] else [e.now] }
  | .error _ => none

def start (stack : NetworkStack τ) (totalSize : Nat) : Docket τ N where
  dispatcher := { stack := stack, em := { totalSize := totalSize } }

end Docket

/-! ### The frame that comes back -/

namespace NetworkStack

variable {τ : Type} {T : Transports τ} {s t : NetworkStack τ} {m : Mux} {p q : Frame} {raw : RawPacket} {time : Int}

/-- The copies that the layers make do not reach the packet of the dispatcher. -/
theorem forwardPacket_curr {n : Nat} (ran : forwardPacket T n s m p = .ok (t, q)) : q.curr = p.curr := by
  cases n with
  | zero =>
    obtain ⟨-, rfl⟩ := by simpa [forwardPacket] using ran
    rfl
  | succ n =>
    rw [forwardPacket] at ran
    dsimp only at ran
    split at ran
    · obtain ⟨-, rfl⟩ := by simpa using ran
      rfl
    · obtain ⟨⟨accepted, s₁, p₁⟩, -, ran⟩ := bind_ok ran
      cases accepted with
      | false =>
        obtain ⟨-, rfl⟩ := by simpa using ran
        rfl
      | true =>
        obtain ⟨⟨goes, s₂, p₂⟩, -, ran⟩ := bind_ok ran
        cases goes with
        | false =>
          obtain ⟨-, rfl⟩ := by simpa using ran
          rfl
        | true =>
          obtain ⟨⟨t', q'⟩, -, ran⟩ := bind_ok ran
          obtain ⟨-, rfl⟩ := by simpa using ran
          split <;> rfl

/-- Ethernet marks nothing, and lets no frame pass that is too long for a file. -/
theorem forwardRawPacket_back (ran : s.forwardRawPacket T raw time = .ok (t, q)) :
    q.curr = raw ∧ (q.evidence = true → raw.octets.length ≤ 1518) := by
  unfold forwardRawPacket at ran
  obtain ⟨⟨accepted, s₁, p⟩, accepts, ran⟩ := bind_ok ran
  unfold acceptPacket EthernetProtocol.check EthernetProtocol.ethernetChecker at accepts
  dsimp only at accepts
  split at accepts
  · rename_i fits
    obtain ⟨rfl, rfl, rfl⟩ := by simpa using accepts
    obtain ⟨type, -, ran⟩ := bind_ok ran
    refine ⟨forwardPacket_curr ran, fun _ => ?_⟩
    have bound : raw.length ≤ 1518 := fits.2
    unfold RawPacket.octets
    rw [List.length_take]
    omega
  · obtain ⟨rfl, rfl, rfl⟩ := by simpa using accepts
    obtain ⟨-, rfl⟩ := by simpa using ran
    exact ⟨rfl, fun no => absurd no (by simp)⟩

end NetworkStack

namespace EvidenceManager

variable {N : Type} [DecidableEq N] {fileName : Int → N} {m m' : EvidenceManager N} {totalSize : Nat}

/-! ### The number of files -/

omit [DecidableEq N] in
theorem append_totalFiles {packet : Bytes} (ran : m.append packet = .ok m') : m'.totalFiles = m.totalFiles := by
  unfold append at ran
  split at ran
  · exact absurd ran (by simp)
  · split at ran
    · exact absurd ran (by simp)
    · split at ran
      · exact absurd ran (by simp)
      · obtain rfl := Except.ok.inj ran
        rfl

theorem enable_totalFiles {now : Int} (shut : m.evidenceFile = none) (ran : m.enable fileName now = .ok m') :
    m'.totalFiles = m.totalFiles + 1 := by
  unfold enable at ran
  rw [shut] at ran
  dsimp only at ran
  split at ran
  · obtain rfl := Except.ok.inj ran
    rfl
  · exact absurd ran (by simp)

theorem disable_totalFiles (m : EvidenceManager N) : m.disable.totalFiles = m.totalFiles := by
  unfold disable
  split <;> rfl

theorem disable_evidenceFile (m : EvidenceManager N) : m.disable.evidenceFile = none := by
  unfold disable
  split
  · rfl
  · assumption

/-- `write` opens a file when the record is too long for the open one. -/
theorem write_totalFiles {packet : Bytes} {now : Int} (ran : m.write fileName packet now = .ok m') :
    m'.totalFiles = m.totalFiles + if Exceeds m.evidenceOffset packet.length m.totalSize then 1 else 0 := by
  unfold write at ran
  split at ran
  · rename_i full
    rw [if_pos full]
    split at ran
    · rename_i m₁ opened
      rw [append_totalFiles ran, enable_totalFiles (disable_evidenceFile m) opened, disable_totalFiles]
    · exact absurd ran (by simp)
  · rename_i room
    rw [if_neg room, append_totalFiles ran]
    rfl

end EvidenceManager

namespace Docket

open Dispatcher

variable {τ N : Type} [DecidableEq N] {fileName : Int → N} {T : Transports τ} {totalSize : Nat} {s t : Docket τ N}

/-- Where the files are: the last one is in memory while evidence is kept. -/
inductive Filed (totalSize : Nat) (m : EvidenceManager N) : Bool → List (N × List Record) → Prop where
  | opened {closed : List (N × List Record)} {name : N} {rs : List Record}
      (holds : Holds m totalSize closed name rs) : Filed totalSize m true (segments closed name rs)
  | shut {files : List (N × List Record)} (size : m.totalSize = totalSize) (closed : m.evidenceFile = none)
      (disk : m.disk = (putAll [] files).map fun f => (f.1, fileBytes f.2)) : Filed totalSize m false files

/-- The files that were opened, in this order, hold the evidence. -/
structure Kept (fileName : Int → N) (totalSize : Nat) (s : Docket τ N) (files : List (N × List Record)) : Prop where
  filed : Filed totalSize s.dispatcher.em s.dispatcher.haveEvidences files
  names : files.map Prod.fst = s.openings.map fileName
  written : List.Forall₂ Written (contents files) s.evidence

theorem Filed.disk {m : EvidenceManager N} {on : Bool} {files : List (N × List Record)}
    (filed : Filed totalSize m on files) :
    m.disable.disk = (putAll [] files).map fun f => (f.1, fileBytes f.2) := by
  cases filed with
  | opened holds => exact (EvidenceManager.disable_spec holds).2.2
  | shut size closed disk =>
    unfold EvidenceManager.disable
    rw [closed]
    exact disk

/-- Files of different names are all there in the end. -/
theorem Kept.decodes {files : List (N × List Record)} (kept : Kept fileName totalSize s files)
    (apart : (s.openings.map fileName).Nodup) : Decodes (.ok s.dispatcher.em) s.evidence := by
  rw [← kept.names] at apart
  have whole : putAll [] files = files := Directory.putAll_of_nodup (by simpa using apart)
  refine ⟨s.dispatcher.em, rfl, contents files, ?_, EvidenceManager.written_map kept.written⟩
  rw [kept.filed.disk, whole]
  exact EvidenceManager.decodeFiles_map files

/-- A marked frame goes to the open file, or to the next one. -/
theorem write_kept {m : EvidenceManager N} {files : List (N × List Record)} {packet : Bytes} (fileName : Int → N)
    (now : Int) (filed : Filed totalSize m true files) (int32 : totalSize < 2 ^ 31) (room : 24 + 16 + 1518 ≤ totalSize)
    (bound : packet.length ≤ 1518) :
    ∃ m' files' r, m.write fileName packet now = .ok m' ∧ Filed totalSize m' true files' ∧ Written r packet ∧
      contents files' = contents files ++ [r] ∧
        files'.map Prod.fst = files.map Prod.fst ++
          if m'.totalFiles = m.totalFiles then [] else [fileName now] := by
  cases filed with
  | opened holds =>
    rename_i closed name rs
    have short : 24 + 16 + packet.length ≤ totalSize := by omega
    obtain ⟨m', r, ran, written, way⟩ := EvidenceManager.write_spec fileName now holds int32 short
    have counted := EvidenceManager.write_totalFiles ran
    have exceeds : EvidenceManager.Exceeds m.evidenceOffset packet.length m.totalSize ↔
        totalSize < m.evidenceOffset + packet.length + 16 := by
      rw [holds.size]
      exact EvidenceManager.exceeds_iff int32 holds.offset_le (by omega)
    rcases way with ⟨full, holds'⟩ | ⟨fits, holds'⟩
    · rw [if_pos (exceeds.mpr full)] at counted
      refine ⟨m', _, r, ran, .opened holds', written, ?_, ?_⟩
      · simp [segments, contents]
      · rw [if_neg (by omega)]
        simp [segments]
    · rw [if_neg (fun exceed => fits (exceeds.mp exceed))] at counted
      refine ⟨m', _, r, ran, .opened holds', written, ?_, ?_⟩
      · simp [segments, contents]
      · rw [if_pos (by omega)]
        simp [segments]

theorem step_called {e : Event} (stepped : s.step fileName T e = some t) :
    s.dispatcher.call fileName T e = .ok t.dispatcher ∧ t.evidence = s.evidence ++ e.evidence T s.dispatcher ∧
      t.openings = s.openings ++
        if t.dispatcher.em.totalFiles = s.dispatcher.em.totalFiles then [] else [e.now] := by
  unfold step at stepped
  split at stepped
  · rename_i d called
    obtain rfl := Option.some.inj stepped
    exact ⟨called, rfl, rfl⟩
  · exact absurd stepped (by simp)

/-- An event that touches no file and is no evidence. -/
theorem kept_aside {e : Event} {files : List (N × List Record)} (kept : Kept fileName totalSize s files)
    (stepped : s.step fileName T e = some t) (files' : t.dispatcher.em = s.dispatcher.em)
    (on : t.dispatcher.haveEvidences = s.dispatcher.haveEvidences) (nothing : e.evidence T s.dispatcher = []) :
    Kept fileName totalSize t files := by
  obtain ⟨-, evidence, openings⟩ := step_called stepped
  rw [nothing, List.append_nil] at evidence
  rw [files', if_pos rfl, List.append_nil] at openings
  exact ⟨files' ▸ on ▸ kept.filed, openings ▸ kept.names, evidence ▸ kept.written⟩

/-- The dispatcher comes to an end with a frame if its stack does. -/
theorem packet_ends {d : Dispatcher τ N} {files : List (N × List Record)} {raw : RawPacket} {time : Int}
    (fileName : Int → N) (filed : Filed totalSize d.em d.haveEvidences files) (int32 : totalSize < 2 ^ 31)
    (room : 24 + 16 + 1518 ≤ totalSize) (now : Int) {u : NetworkStack τ} {q : Frame}
    (ran : d.stack.forwardRawPacket T raw time = .ok (u, q)) :
    ∃ d', d.forwardRawPacket fileName T raw time now = .ok d' ∧ d'.stack = u ∧
      d'.haveEvidences = d.haveEvidences ∧
        if d.haveEvidences ∧ marks T d.stack raw time then d.em.write fileName raw.octets now = .ok d'.em
        else d'.em = d.em := by
  obtain ⟨back, short⟩ := NetworkStack.forwardRawPacket_back ran
  have marked : marks T d.stack raw time = q.evidence := by
    unfold marks
    rw [ran]
  rw [marked]
  have ends : d.forwardRawPacket fileName T raw time now = writeEvidence fileName { d with stack := u } q now := by
    unfold forwardRawPacket
    rw [ran]
    rfl
  rw [ends]
  by_cases both : d.haveEvidences = true ∧ q.evidence = true
  · obtain ⟨on, evidence⟩ := both
    rw [on] at filed
    obtain ⟨m', files', r, wrote, -⟩ := write_kept fileName now filed int32 room (short evidence)
    refine ⟨{ d with stack := u, em := m' }, ?_, rfl, rfl, ?_⟩
    · unfold writeEvidence
      rw [if_pos ⟨on, evidence⟩, back, wrote]
      rfl
    · rw [if_pos ⟨on, evidence⟩]
      exact wrote
  · exact ⟨{ d with stack := u }, if_neg both, rfl, rfl, by rw [if_neg both]⟩

theorem setEvidences_ends {d : Dispatcher τ N} {files : List (N × List Record)} (fileName : Int → N)
    (filed : Filed totalSize d.em d.haveEvidences files) (room : 24 + 16 + 1518 ≤ totalSize) (value : Bool) (now : Int) :
    ∃ d', d.setEvidences fileName value now = .ok d' ∧ d'.haveEvidences = value ∧
      ∃ opened, Filed totalSize d'.em value (files ++ opened) ∧ contents opened = [] ∧
        opened.map Prod.fst = if d'.em.totalFiles = d.em.totalFiles then [] else [fileName now] := by
  obtain ⟨stack, on, em⟩ := d
  unfold setEvidences
  cases filed with
  | opened holds =>
    rename_i closed name rs
    cases value with
    | true => exact ⟨_, rfl, rfl, [], by simpa using .opened holds, rfl, by simp⟩
    | false =>
      obtain ⟨size, shut, disk⟩ := EvidenceManager.disable_spec holds
      exact ⟨_, rfl, rfl, [], by simpa using .shut size shut disk, rfl,
        by simp [EvidenceManager.disable_totalFiles]⟩
  | shut size closed disk =>
    cases value with
    | false => exact ⟨_, rfl, rfl, [], by simpa using .shut size closed disk, rfl, by simp⟩
    | true =>
      obtain ⟨m, ran, holds⟩ := EvidenceManager.enable_spec fileName now size (by omega) closed disk
      have counted : m.totalFiles = em.totalFiles + 1 := EvidenceManager.enable_totalFiles closed ran
      simp only [Bool.false_eq_true, not_false_eq_true, and_self, if_true, ran]
      refine ⟨_, rfl, rfl, [(fileName now, [])], .opened holds, rfl, ?_⟩
      rw [show ({ stack := stack, haveEvidences := true, em := m } : Dispatcher τ N).em = m from rfl, counted,
        if_neg (Nat.succ_ne_self _)]
      rfl

omit [DecidableEq N] in
/-- The name of a file that an event opens. -/
theorem named {c : Prop} [Decidable c] {files opened : List (N × List Record)} {openings : List Int} {now : Int}
    (names : files.map Prod.fst = openings.map fileName)
    (opens : opened.map Prod.fst = files.map Prod.fst ++ if c then [] else [fileName now]) :
    opened.map Prod.fst = (openings ++ if c then [] else [now]).map fileName := by
  rw [opens, names, List.map_append]
  split <;> rfl

theorem kept_packet {raw : RawPacket} {time now : Int} {files : List (N × List Record)}
    (kept : Kept fileName totalSize s files) (int32 : totalSize < 2 ^ 31) (room : 24 + 16 + 1518 ≤ totalSize)
    (stepped : s.step fileName T (.packet raw time now) = some t) : ∃ files', Kept fileName totalSize t files' := by
  obtain ⟨called, evidence, openings⟩ := step_called stepped
  have called : s.dispatcher.forwardRawPacket fileName T raw time now = .ok t.dispatcher := called
  obtain ⟨⟨u, q⟩, ran, -⟩ := bind_ok called
  obtain ⟨d, ends, -, on, wrote⟩ := packet_ends fileName kept.filed int32 room now ran
  obtain rfl := Except.ok.inj (ends.symm.trans called)
  by_cases marked : s.dispatcher.haveEvidences = true ∧ marks T s.dispatcher.stack raw time = true
  · rw [if_pos marked] at wrote
    have filed := kept.filed
    rw [marked.1] at filed on
    obtain ⟨-, short⟩ := NetworkStack.forwardRawPacket_back ran
    have bound : raw.octets.length ≤ 1518 := by
      refine short ?_
      have back := marked.2
      unfold marks at back
      rw [ran] at back
      exact back
    obtain ⟨m, files', r, wrote', filed', written, holds, names⟩ := write_kept fileName now filed int32 room bound
    obtain rfl := Except.ok.inj (wrote'.symm.trans wrote)
    refine ⟨files', by rw [on]; exact filed', ?_, ?_⟩
    · rw [openings]
      exact named kept.names names
    · rw [evidence, holds, show (Event.packet raw time now).evidence T s.dispatcher = [raw.octets] from if_pos marked]
      exact List.rel_append kept.written (.cons written .nil)
  · rw [if_neg marked] at wrote
    exact ⟨files, kept_aside kept stepped wrote on (if_neg marked)⟩

theorem kept_step {e : Event} {files : List (N × List Record)} (kept : Kept fileName totalSize s files)
    (int32 : totalSize < 2 ^ 31) (room : 24 + 16 + 1518 ≤ totalSize) (stepped : s.step fileName T e = some t) :
    ∃ files', Kept fileName totalSize t files' := by
  cases e with
  | packet raw time now => exact kept_packet kept int32 room stepped
  | setEvidences value now =>
    obtain ⟨called, evidence, openings⟩ := step_called stepped
    obtain ⟨d, ends, on, opened, filed, empty, names⟩ := setEvidences_ends fileName kept.filed room value now
    obtain rfl := Except.ok.inj (ends.symm.trans called)
    refine ⟨files ++ opened, by rw [on]; exact filed, ?_, ?_⟩
    · rw [openings]
      exact named kept.names (by rw [List.map_append, names]; rfl)
    · rw [evidence, Directory.contents_append, empty, List.append_nil]
      exact (List.append_nil s.evidence).symm ▸ kept.written
  | enableLinkLayerTagging type =>
    obtain ⟨called, -, -⟩ := step_called stepped
    have same := (Except.ok.inj called).symm
    exact ⟨files, kept_aside kept stepped (by rw [same]) (by rw [same]) rfl⟩

/-- Keeping evidence is no reason for a fault: the stack cannot work on the frame of the event. -/
def Goes (fileName : Int → N) (T : Transports τ) (s : Docket τ N) : Prop :=
  ∀ e f, s.dispatcher.call fileName T e = .error f →
    ∃ raw time now, e = .packet raw time now ∧ s.dispatcher.stack.forwardRawPacket T raw time = .error f

theorem Kept.goes {files : List (N × List Record)} (kept : Kept fileName totalSize s files)
    (int32 : totalSize < 2 ^ 31) (room : 24 + 16 + 1518 ≤ totalSize) : Goes fileName T s := by
  intro e f failed
  cases e with
  | packet raw time now =>
    refine ⟨raw, time, now, rfl, ?_⟩
    cases ran : s.dispatcher.stack.forwardRawPacket T raw time with
    | ok r =>
      obtain ⟨d, ends, -⟩ := packet_ends fileName kept.filed int32 room now ran
      exact absurd (ends.symm.trans failed) (by simp)
    | error g =>
      have ends : s.dispatcher.forwardRawPacket fileName T raw time now = .error g := by
        unfold forwardRawPacket
        rw [ran]
        rfl
      exact congrArg Except.error (Except.error.inj (ends.symm.trans failed))
  | setEvidences value now =>
    obtain ⟨d, ends, -⟩ := setEvidences_ends fileName kept.filed room value now
    exact absurd (ends.symm.trans failed) (by simp)
  | enableLinkLayerTagging type => exact absurd failed (by simp [call])

/-- In every run, whatever the stack and its transports do, the files hold the marked frames of the times at which
evidence was kept, whole and in their order, if the clock has given every file a name of its own. -/
theorem always_evidence (fileName : Int → N) (T : Transports τ) (stack : NetworkStack τ) (int32 : totalSize < 2 ^ 31)
    (room : 24 + 16 + 1518 ≤ totalSize) (events : List Event) :
    Transition.Always (step fileName T)
      (fun s => Goes fileName T s ∧
        ((s.openings.map fileName).Nodup → Decodes (.ok s.dispatcher.em) s.evidence))
      (start stack totalSize) events := by
  have kept : Transition.Always (step fileName T) (fun s => ∃ files, Kept fileName totalSize s files)
      (start stack totalSize) events := by
    refine Transition.always_of_inv (fun s e t kept stepped => ?_) ?_
    · obtain ⟨files, kept⟩ := kept
      exact kept_step kept int32 room stepped
    · exact ⟨[], .shut rfl rfl rfl, rfl, .nil⟩
  refine Transition.always_mono (fun s kept => ?_) kept
  obtain ⟨files, kept⟩ := kept
  exact ⟨kept.goes int32 room, kept.decodes⟩

/-- A datagram of UDP with two octets of payload. -/
def datagram : Datagram where
  protocol := 17
  source := 0x0100000a
  destination := 0x0200000a
  segment := [4, 0, 0, 53, 0, 10, 0, 0, 1, 2]
  short := by decide

def frame : RawPacket :=
  RawPacket.whole 0 (NetworkStack.sent (List.replicate 12 1) .untagged datagram (List.replicate 4 0))

/-- The application layer marks the flow at its first payload; the file has no room for a second frame. -/
theorem always_evidence_marked :
    let T := lanTransports false fun _ => { marks := { haveEvidence := true } }
    let calls : List Event := [.setEvidences true 0, .packet frame 1 1, .packet frame 2 2]
    (Transition.run (step (id : Int → Int) T) (start (quietStack .lan) 1558) calls).any
        (fun s => decide (s.evidence = [frame.octets, frame.octets])) = true ∧
      Transition.Always (step id T)
        (fun s => Goes id T s ∧ ((s.openings.map id).Nodup → Decodes (.ok s.dispatcher.em) s.evidence))
        (start (quietStack .lan) 1558) calls :=
  ⟨by decide +kernel, always_evidence id _ _ (by decide) (by decide) _⟩

end Docket

end AIEngine
