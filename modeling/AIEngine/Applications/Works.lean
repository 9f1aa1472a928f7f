import AIEngine.Applications.DNSProtocol
import AIEngine.Applications.Mail
import AIEngine.Applications.SIPProtocol
import AIEngine.Applications.SSDPProtocol
import AIEngine.Applications.SSLProtocol
import AIEngine.Applications.Touches

/-!
# Packets of the protocols that share the inspector

One lemma for each function of these protocols says what it does to the world, that a ban it counts is
marked where the protocol marks bans, and that no empty pointer is dereferenced. The pools must not
have an empty slot.
-/

namespace AIEngine

open Ending

/-- Every failure but the dereference of an empty pointer. -/
def NotNull (e : Failure) : Prop := e ≠ .fault .nullDereference

/-- No condition on the value. -/
def Any {α : Type} (_ : α) : Prop := True

theorem notNull_thrown (e : StdException) : NotNull (.thrown e) := by simp [NotNull]

theorem notNull_outside : NotNull (.fault .outOfBounds) := by simp [NotNull]

theorem substr_notNull (text : Bytes) (place : Nat) (n : Int) :
    Ends NotNull Any (substr text place n) := by
  unfold substr
  split
  · trivial
  · exact notNull_thrown _

namespace HttpPacket

section

variable {E : Failure → Prop} (outside : E (.fault .outOfBounds))

include outside

theorem byte_ends (p : L7Packet) (k : Nat) : Ends E Any (p.byte k) := by
  unfold byte
  split
  · trivial
  · exact outside

theorem word_ends (p : L7Packet) (k : Nat) : Ends E Any (p.word k) := by
  unfold word
  apply ends_bind (byte_ends outside p k)
  intro high _
  apply ends_bind (byte_ends outside p (k + 1))
  intro low _
  trivial

theorem slice_ends (p : L7Packet) (k n : Nat) : Ends E Any (p.slice k n) := by
  unfold slice
  split
  · trivial
  · exact outside

end

theorem byte_notNull (p : L7Packet) (k : Nat) : Ends NotNull Any (p.byte k) :=
  byte_ends notNull_outside p k

theorem word_notNull (p : L7Packet) (k : Nat) : Ends NotNull Any (p.word k) :=
  word_ends notNull_outside p k

theorem slice_notNull (p : L7Packet) (k n : Nat) : Ends NotNull Any (p.slice k n) :=
  slice_ends notNull_outside p k n

end HttpPacket

namespace World

/-- What a packet does to the world. `grew` says that the protocol has counted a ban. -/
inductive Handled (p : L7Protocol) (a : Obj) (grew : Prop) (w w' : World) : Prop where
  | noted (f : Flow) (pointers : ∀ q, f.info q = (w.flows a).info q) (written : w' = w.setFlow a f)
      (kept : ¬grew)
  | without (f : Flow) (pointers : ∀ q, f.info q = (w.flows a).info q)
      (failed : (w.setFlow a f).attachInfo p a = .ok (none, w')) (kept : ¬grew)
  | worked (f : Flow) (pointers : ∀ q, f.info q = (w.flows a).info q) (i : Obj) (w₁ : World)
      (attached : (w.setFlow a f).attachInfo p a = .ok (some i, w₁))
      (touches : Touches p a i w₁ w')
      (counted : marksBans p = true → grew → (w'.infos i).isBanned = true)

theorem setFlow_self (w : World) (a : Obj) : w.setFlow a (w.flows a) = w := by
  have same : (fun b => if b = a then w.flows a else w.flows b) = w.flows := by
    funext b
    split
    · rename_i chosen
      rw [chosen]
    · rfl
  unfold setFlow
  rw [same]

end World

namespace Inspector

variable {ι κ : Type} {s t u : Inspector ι κ} {p : L7Protocol} {a i : Obj}

/-- What the work on an info does, and that a counted ban is marked. -/
structure Works (p : L7Protocol) (a i : Obj) (s t : Inspector ι κ) : Prop where
  touches : World.Touches p a i s.world t.world
  counted : World.marksBans p = true → t.totalBan ≠ s.totalBan →
    (t.world.infos i).isBanned = true

theorem works_same (world : t.world = s.world) (bans : t.totalBan = s.totalBan) :
    Works p a i s t := by
  refine ⟨?_, fun _ grew => absurd bans grew⟩
  rw [world]
  exact World.touches_refl s.world

theorem works_refl (s : Inspector ι κ) : Works p a i s s := works_same rfl rfl

theorem works_trans (first : Works p a i s t) (second : Works p a i t u) : Works p a i s u := by
  refine ⟨World.touches_trans first.touches second.touches, fun marks grew => ?_⟩
  by_cases same : u.totalBan = t.totalBan
  · rw [same] at grew
    exact (World.touches_keepsInfos second.touches).banned i (first.counted marks grew)
  · exact second.counted marks same

theorem works_filled (works : Works p a i s t) (filled : s.world.Filled) : t.world.Filled :=
  World.filled_touches filled works.touches

/-- What follows on work is part of the work. -/
theorem ends_after {E : Failure → Prop} {r : Except Failure (Inspector ι κ)}
    (first : Works p a i s t) (second : Ends E (Works p a i t) r) : Ends E (Works p a i s) r :=
  ends_weaken second fun _ => works_trans first

theorem setInfo_works (s : Inspector ι κ) (j : Obj) (info : ι) : Works p a i s (s.setInfo j info) :=
  works_same rfl rfl

theorem noteAnomaly_works (s : Inspector ι κ) (pa : PacketAnomalyType) :
    Works p a i s (s.noteAnomaly a pa) := by
  unfold noteAnomaly
  split
  · exact ⟨World.touches_one (.anomaly pa rfl), fun _ grew => absurd rfl grew⟩
  · exact works_refl s

/-- A protocol that does not mark bans only counts them. -/
theorem countBan_works (unmarked : World.marksBans p = false) (s : Inspector ι κ) :
    Works p a i s s.countBan := by
  refine ⟨World.touches_refl _, fun marks => ?_⟩
  rw [unmarked] at marks
  exact absurd marks (by simp)

theorem setIsBanned_works (marks : World.marksBans p = true)
    (ban : ∀ w : World, w.ban p i = w.setBanned i) (s : Inspector ι κ) :
    Works p a i s (s.countBan.setIsBanned i) := by
  have banned : (s.countBan.setIsBanned i).world = s.world.ban p i := (ban s.world).symm
  refine ⟨World.touches_one (.ban marks banned), fun _ _ => ?_⟩
  rw [banned]
  exact World.ban_isBanned marks

theorem intern_works {x : StringField} {always countHit : Bool} {value : Bytes}
    (attach : World → Obj → Bytes → Except Fault World)
    (interns : attach = fun w => w.intern p x always countHit) (filled : s.world.Filled) :
    Ends NotNull (Works p a i s) (s.onWorld (attach s.world i value)) := by
  obtain ⟨w, attached⟩ := World.intern_filled (p := p) (i := i) x always countHit value filled
  have same : attach s.world i value = .ok w := by rw [interns, ← attached]
  rw [same]
  exact ⟨World.touches_one (.string x always countHit value attached),
    fun _ grew => absurd rfl grew⟩

/-- The same for a name that is counted as allowed. -/
theorem allow_works {x : StringField} {always countHit : Bool} {value : Bytes}
    (attach : World → Obj → Bytes → Except Fault World)
    (interns : attach = fun w => w.intern p x always countHit) (filled : s.world.Filled) :
    Ends NotNull (Works p a i s) (s.countAllow.onWorld (attach s.world i value)) := by
  have allowed : Works p a i s s.countAllow := works_same rfl rfl
  exact ends_after allowed (intern_works (s := s.countAllow) attach interns filled)

/-- The host is looked at before it is locked. -/
theorem lookupHost_ok (p : L7Protocol) (s : Inspector ι κ) (i : Obj) :
    ∃ found, s.lookupHost p i = .ok found := by
  unfold lookupHost
  split
  · exact ⟨_, rfl⟩
  · split
    · rename_i alive
      split
      · exact ⟨_, rfl⟩
      · rename_i expired
        rw [expired] at alive
        exact absurd alive (by simp)
    · exact ⟨_, rfl⟩

theorem lookupHost_notNull (s : Inspector ι κ) : Ends NotNull Any (s.lookupHost p i) := by
  obtain ⟨found, looked⟩ := lookupHost_ok p s i
  rw [looked]
  trivial

/-! ### `withInfo` -/

theorem attachInfo_cases {new : ι} {r : Option Obj} (h : s.attachInfo p new a = .ok (r, t)) :
    s.world.attachInfo p a = .ok (r, t.world) ∧ t.totalBan = s.totalBan := by
  obtain ⟨attached, infos, shape⟩ := attachInfo_keeps h
  exact ⟨attached, by rw [shape]⟩

theorem attachInfo_ok (new : ι) (filled : s.world.Filled) :
    ∃ r t, s.attachInfo p new a = .ok (r, t) := by
  obtain ⟨r, w, attached⟩ := World.attachInfo_filled (p := p) (a := a) filled
  unfold attachInfo
  rw [attached]
  cases r with
  | none => exact ⟨_, _, rfl⟩
  | some j =>
    simp only
    split
    · exact ⟨_, _, rfl⟩
    · exact ⟨_, _, rfl⟩

/-- A packet of a protocol whose work is known. `f` is the flow when the info is looked for. -/
theorem withInfo_handled {new : ι} {w : World} {f : Flow} {bans : Nat}
    {process : Inspector ι κ → Obj → Except Failure (Inspector ι κ)}
    (counted : s.world = w.setFlow a f) (pointers : ∀ q, f.info q = (w.flows a).info q)
    (same : s.totalBan = bans) (filled : s.world.Filled)
    (works : ∀ t i, t.world.Filled → Ends NotNull (Works p a i t) (process t i)) :
    Ends NotNull (fun t => World.Handled p a (t.totalBan ≠ bans) w t.world)
      (s.withInfo p new a process) := by
  unfold withInfo
  obtain ⟨r, t, attached⟩ := attachInfo_ok (p := p) (a := a) new filled
  obtain ⟨world, kept⟩ := attachInfo_cases attached
  have after : t.world.Filled := World.filled_attachInfo filled world
  rw [counted] at world
  rw [attached]
  cases r with
  | none => exact .without f pointers world fun grew => grew (kept.trans same)
  | some i =>
    refine ends_weaken (works t i after) fun u worked => ?_
    refine .worked f pointers i t.world world worked.touches fun marks grew => ?_
    rw [← same, ← kept] at grew
    exact worked.counted marks grew

theorem unlessBanned_works {process : Inspector ι κ → Obj → Except Failure (Inspector ι κ)}
    (works : Ends NotNull (Works p a i s) (process s i)) :
    Ends NotNull (Works p a i s) (unlessBanned process s i) := by
  unfold unlessBanned
  split
  · exact works_refl s
  · exact works

/-- The early return: nothing at all is done for a flow whose info is banned. -/
theorem withInfo_latched {new : ι} {process : Inspector ι κ → Obj → Except Failure (Inspector ι κ)}
    (locked : s.world.lockInfo p (s.world.flows a) = some i)
    (banned : (s.world.infos i).isBanned = true) :
    s.withInfo p new a (unlessBanned process) = .ok s := by
  have attached : s.attachInfo p new a = .ok (some i, s) := by
    unfold attachInfo World.attachInfo
    simp only [locked, Option.isSome_some, if_true]
  unfold withInfo unlessBanned
  rw [attached]
  simp only [banned, if_true]

end Inspector

open Inspector

/-! ### Mail -/

namespace SMTPProtocol

variable {s : SMTPProtocol} {a i : Obj}

theorem handleCmdMail_works (header : Bytes) (filled : s.world.Filled) :
    Ends NotNull (Works .smtp a i s) (handleCmdMail s a i header) := by
  unfold handleCmdMail
  split
  · apply ends_bind (substr_notNull _ _ _)
    intro address _
    split
    · exact noteAnomaly_works s _
    · apply ends_bind (substr_notNull _ _ _)
      intro domain _
      split
      · exact setIsBanned_works rfl (fun _ => rfl) s
      · exact allow_works World.Smtp.attachFrom rfl filled
  · exact noteAnomaly_works s _

theorem handleCmdRcpt_works (header : Bytes) (filled : s.world.Filled) :
    Ends NotNull (Works .smtp a i s) (handleCmdRcpt s i header) := by
  unfold handleCmdRcpt
  split
  · exact works_refl s
  · apply ends_bind (substr_notNull _ _ _)
    intro address _
    exact intern_works World.Smtp.attachTo rfl filled

theorem handleCommand_works (header : Bytes) (cmd : SMTPCommandTypes) (filled : s.world.Filled) :
    Ends NotNull (Works .smtp a i s) (handleCommand s a i header cmd) := by
  unfold handleCommand
  split
  · exact handleCmdMail_works header filled
  · exact handleCmdRcpt_works header filled
  · exact works_refl s

theorem processCommands_works (p : L7Packet) (filled : s.world.Filled) :
    Ends NotNull (Works .smtp a i s) (processCommands a p s i) := by
  unfold processCommands
  split
  · split
    · exact works_refl s
    · apply ends_bind (handleCommand_works _ _ filled)
      intro t worked
      exact works_trans worked (setInfo_works t i _)
  · exact works_refl s

theorem processFlow_handled (p : L7Packet) (filled : s.world.Filled) :
    Ends NotNull (fun t => World.Handled .smtp a (t.totalBan ≠ s.totalBan) s.world t.world)
      (processFlow s a p) :=
  withInfo_handled (World.setFlow_self s.world a).symm (fun _ => rfl) rfl filled
    fun _ _ after => unlessBanned_works (processCommands_works p after)

end SMTPProtocol

namespace POPProtocol

variable {s : POPProtocol} {a i : Obj}

theorem handleCmdUser_works (header : Bytes) (filled : s.world.Filled) :
    Ends NotNull (Works .pop a i s) (handleCmdUser s a i header) := by
  unfold handleCmdUser
  split
  · split
    · exact noteAnomaly_works s _
    · apply ends_bind (substr_notNull _ _ _)
      intro userName _
      apply ends_bind (substr_notNull _ _ _)
      intro domain _
      split
      · exact setIsBanned_works rfl (fun _ => rfl) s
      · exact allow_works World.Pop.attachUserName rfl filled
  · exact noteAnomaly_works s _

theorem processCommands_works (p : L7Packet) (filled : s.world.Filled) :
    Ends NotNull (Works .pop a i s) (processCommands a p s i) := by
  unfold processCommands
  split
  · split
    · exact works_refl s
    · simp only
      split
      · exact ends_after (setInfo_works s i _) (handleCmdUser_works _ filled)
      · exact setInfo_works s i _
  · exact setInfo_works s i _

theorem processFlow_handled (p : L7Packet) (filled : s.world.Filled) :
    Ends NotNull (fun t => World.Handled .pop a (t.totalBan ≠ s.totalBan) s.world t.world)
      (processFlow s a p) :=
  withInfo_handled (World.setFlow_self s.world a).symm (fun _ => rfl) rfl filled
    fun _ _ after => unlessBanned_works (processCommands_works p after)

end POPProtocol

namespace IMAPProtocol

variable {s : IMAPProtocol} {a i : Obj}

theorem loginNames_notNull (header : Bytes) : Ends NotNull Any (loginNames header) := by
  unfold loginNames
  split
  · trivial
  · apply ends_bind (substr_notNull _ _ _)
    intro userName _
    split
    · trivial
    · apply ends_bind (substr_notNull _ _ _)
      intro domain _
      trivial

theorem handleCmdLogin_works (header : Bytes) (filled : s.world.Filled) :
    Ends NotNull (Works .imap a i s) (handleCmdLogin s a i header) := by
  unfold handleCmdLogin
  apply ends_bind (loginNames_notNull header)
  intro names _
  have noted : Works .imap a i s
      (if (Octets.find (Octets.ascii " ") header).isSome then s
        else s.noteAnomaly a .imapBogusHeader) := by
    split
    · exact works_refl s
    · exact noteAnomaly_works s _
  refine ends_after noted ?_
  have after := works_filled noted filled
  generalize (if (Octets.find (Octets.ascii " ") header).isSome then s
    else s.noteAnomaly a .imapBogusHeader) = t at after
  obtain ⟨userName, domain⟩ := names
  simp only
  split
  · exact setIsBanned_works rfl (fun _ => rfl) t
  · exact allow_works World.Imap.attachUserName rfl after

theorem handleCommand_works (p : L7Packet) (text : Bytes) (cmd : IMAPCommandTypes)
    (filled : s.world.Filled) : Ends NotNull (Works .imap a i s) (handleCommand s a i p text cmd) := by
  unfold handleCommand
  split
  · apply ends_bind (substr_notNull _ _ _)
    intro header _
    exact handleCmdLogin_works header filled
  · exact works_refl s

theorem processCommands_works (p : L7Packet) (filled : s.world.Filled) :
    Ends NotNull (Works .imap a i s) (processCommands a p s i) := by
  unfold processCommands
  split
  · split
    · exact works_refl s
    · apply ends_bind (handleCommand_works p _ _ filled)
      intro t worked
      exact works_trans worked (setInfo_works t i _)
  · exact setInfo_works s i _

theorem processFlow_handled (p : L7Packet) (filled : s.world.Filled) :
    Ends NotNull (fun t => World.Handled .imap a (t.totalBan ≠ s.totalBan) s.world t.world)
      (processFlow s a p) :=
  withInfo_handled (World.setFlow_self s.world a).symm (fun _ => rfl) rfl filled
    fun _ _ after => unlessBanned_works (processCommands_works p after)

end IMAPProtocol

end AIEngine
