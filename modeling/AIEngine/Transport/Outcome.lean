import AIEngine.Transport.Sound

/-!
# The outcomes of a packet

On a sound transport a packet finds its flow or opens one, and then ends in one of four ways. The
runs below look at these outcomes only.
-/

namespace AIEngine

/-- What names the flow for as long as it is in the table. -/
def Flow.name (f : Flow) : FlowIdent := { f.ident with currentTime := 0 }

theorem Flow.name_of_ident {f g : Flow} (same : f.ident = g.ident) : f.name = g.name :=
  congrArg (fun i : FlowIdent => { i with currentTime := 0 }) same

namespace Transport

/-- What `getFlow` answers. -/
inductive Looked (s s₁ : Transport) (kind : Kind) (p : Packet) (hint : Nat) : Option Obj → Prop where
  | found (a : Obj) (known : s.findFlow (p.hash1 kind) (p.hash2 kind) = some a)
      (same : Same s s₁) : Looked s s₁ kind p hint (some a)
  | failed (unknown : s.findFlow (p.hash1 kind) (p.hash2 kind) = none) (table : s₁.table = s.table)
      (flows : ∀ b, s₁.flow b = s.flow b) (members : s₁.members = s.members) :
      Looked s s₁ kind p hint none
  | opened (a : Obj) (unknown : s.findFlow (p.hash1 kind) (p.hash2 kind) = none)
      (opened : Opened s s₁ kind p hint a) : Looked s s₁ kind p hint (some a)

theorem getFlow_spec {s s₁ : Transport} {kind : Kind} {p : Packet} {hint : Nat}
    {found : Option Obj} (sound : Sound s) (h : s.getFlow kind p hint = .ok (found, s₁)) :
    Sound s₁ ∧ Looked s s₁ kind p hint found := by
  rcases getFlow_cases h with ⟨a, rfl, known, same⟩ |
    ⟨unknown, c, ⟨rfl, failed, rfl⟩ | ⟨a, rfl, acquired, same⟩⟩
  · exact ⟨sound.same same, .found a known same⟩
  · obtain ⟨after, flows⟩ := sound_failed sound failed
    exact ⟨after, .failed unknown rfl flows rfl⟩
  · obtain ⟨opened, after⟩ := opened_addFlow sound unknown acquired
    exact ⟨after.same same, .opened a unknown (opened.same same)⟩

theorem Looked.members {s s₁ : Transport} {kind : Kind} {p : Packet} {hint : Nat}
    {found : Option Obj} (looked : Looked s s₁ kind p hint found) : s₁.members = s.members := by
  cases looked with
  | found a known same => exact same.members
  | failed unknown table flows members => exact members
  | opened a unknown opened => exact opened.members

theorem Opened.mem {s s₁ : Transport} {kind : Kind} {p : Packet} {hint : Nat} {a : Obj}
    (opened : Opened s s₁ kind p hint a) (b : Obj) : b ∈ s₁.table ↔ b = a ∨ b ∈ s.table := by
  rw [opened.table]
  exact OrderedIndex.mem_insert

/-- The flow `getFlow` answers is in the table. -/
theorem Looked.mem {s s₁ : Transport} {kind : Kind} {p : Packet} {hint : Nat} {a : Obj}
    (looked : Looked s s₁ kind p hint (some a)) : a ∈ s₁.table := by
  cases looked with
  | found _ known same =>
    rw [same.table]
    exact (findFlow_some known).1
  | opened _ unknown opened => exact (opened.mem a).mpr (Or.inl rfl)

/-- How the processing of a packet on the flow `a` ends. -/
inductive Outcome (s t : Transport) (kind : Kind) (a : Obj) : Prop where
  | ignored (silent : s.Ignored kind a) (flows : ∀ b, t.flow b = s.flow b)
      (table : t.table = s.table) (released : t.released = s.released)
      (closed : t.closed = s.closed) (swept : t.swept = s.swept)
  | closed (heard : ¬s.Ignored kind a) (flows : ∀ b, (t.flow b).ident = (s.flow b).ident)
      (table : t.table = s.table.erase a) (closed : t.closed = true) (swept : t.swept = s.swept)
  | swept (heard : ¬s.Ignored kind a) (due : s.lastTimeout < s.packetTime - s.timeout)
      (flows : ∀ b, (t.flow b).ident = (s.flow b).ident)
      (table : t.table = s.table.dropWhile fun b => decide (s.Expired s.packetTime b))
      (released : t.released =
        (s.table.takeWhile fun b => decide (s.Expired s.packetTime b)).reverse ++ s.released)
      (closed : t.closed = s.closed) (swept : t.swept = true)
  | timed (heard : ¬s.Ignored kind a) (early : ¬s.lastTimeout < s.packetTime - s.timeout)
      (flows : ∀ b, (t.flow b).name = (s.flow b).name) (time : (t.flow a).currentTime = s.packetTime)
      (table : t.table.Perm s.table) (released : t.released = s.released)
      (closed : t.closed = s.closed) (swept : t.swept = s.swept)

theorem Outcome.names {s t : Transport} {kind : Kind} {a : Obj} (outcome : Outcome s t kind a)
    (b : Obj) : (t.flow b).name = (s.flow b).name := by
  cases outcome with
  | ignored silent flows => rw [flows b]
  | closed heard flows => exact Flow.name_of_ident (flows b)
  | swept heard due flows => exact Flow.name_of_ident (flows b)
  | timed heard early flows => exact flows b

/-- No packet brings a flow into the table but the one `getFlow` answered. -/
theorem Outcome.sub {s t : Transport} {kind : Kind} {a : Obj} (outcome : Outcome s t kind a) :
    ∀ b ∈ t.table, b ∈ s.table := by
  intro b member
  cases outcome with
  | ignored silent flows table => exact table ▸ member
  | closed heard flows table => exact List.mem_of_mem_erase (table ▸ member)
  | swept heard due flows table => exact (List.dropWhile_sublist _).subset (table ▸ member)
  | timed heard early flows time table => exact table.mem_iff.mp member

theorem expired_eq {s s' : Transport} (flows : ∀ b, (s'.flow b).ident = (s.flow b).ident)
    (timeout : s'.timeout = s.timeout) : s'.Expired = s.Expired := by
  funext time b
  unfold Expired
  rw [lastTime_of_ident (flows b), timeout]

/-- The timers, seen from a transport with the same table. -/
theorem updateTimers_spec {s s₁ : Transport} (time : Int) (sound : Sound s₁)
    (flows : ∀ b, (s₁.flow b).ident = (s.flow b).ident) (timeout : s₁.timeout = s.timeout)
    (table : s₁.table = s.table) (released : s₁.released = s.released) :
    Sound (s₁.updateTimers time) ∧
      (s₁.updateTimers time).table = s.table.dropWhile (fun b => decide (s.Expired time b)) ∧
      (s₁.updateTimers time).released =
        (s.table.takeWhile fun b => decide (s.Expired time b)).reverse ++ s.released ∧
      (∀ b, ((s₁.updateTimers time).flow b).ident = (s.flow b).ident) ∧
      (s₁.updateTimers time).members =
        { s₁.members with released := (s₁.updateTimers time).released } := by
  obtain ⟨after, left, gave⟩ := sweep_spec time s₁.table sound rfl
  have given := gave.released
  simp only [expired_eq flows timeout, table] at left given
  rw [released] at given
  rw [← table] at left given ⊢
  exact ⟨after, left, given, fun b => (gave.flows b).trans (flows b), gave.members⟩

theorem setLastPacketTime_name (s : Transport) (a : Obj) (time : Int) (b : Obj) :
    ((s.setLastPacketTime a time).flow b).name = (s.flow b).name := by
  unfold setLastPacketTime
  by_cases same : b = a
  · rw [same, flow_setFlow_same]
    rfl
  · rw [flow_setFlow_other same]

theorem setLastPacketTime_time (s : Transport) (a : Obj) (time : Int) :
    ((s.setLastPacketTime a time).flow a).currentTime = time := by
  unfold setLastPacketTime
  rw [flow_setFlow_same]
  rfl

theorem ends_outcome {s t : Transport} {kind : Kind} {a : Obj} {hint : Nat} (sound : Sound s)
    (member : a ∈ s.table) (heard : ¬s.Ignored kind a) (ends : Ends s kind a hint t) :
    Sound t ∧ Outcome s t kind a ∧ t.packetTime = s.packetTime ∧ t.currentFlow = s.currentFlow ∧
      t.timeout = s.timeout := by
  obtain ⟨s₂, same, ⟨-, shut⟩ | ⟨refresh, timed⟩⟩ := ends
  · obtain ⟨after, table, flows, closed, swept, packetTime, current, timeout⟩ :=
      closeFlow_spec (sound.same same) (same.table ▸ member) shut
    refine ⟨after, .closed heard (fun b => (flows b).trans (same.ident b)) ?_ closed ?_,
      packetTime.trans (congrArg Members.packetTime same.members),
      current.trans (congrArg Members.currentFlow same.members),
      timeout.trans (congrArg Members.timeout same.members)⟩
    · rw [table, same.table]
    · exact swept.trans (congrArg Members.swept same.members)
  · have packetTime : s₂.packetTime = s.packetTime := congrArg Members.packetTime same.members
    have timeout : s₂.timeout = s.timeout := congrArg Members.timeout same.members
    have current : s₂.currentFlow = s.currentFlow := congrArg Members.currentFlow same.members
    have lastTimeout : s₂.lastTimeout = s.lastTimeout :=
      congrArg Members.lastTimeout same.members
    have released : s₂.released = s.released := congrArg Members.released same.members
    have closed : s₂.closed = s.closed := congrArg Members.closed same.members
    have quiet : s₂.swept = s.swept := congrArg Members.swept same.members
    rcases checkTimers_cases timed with ⟨due, rfl⟩ | ⟨early, changed⟩
    · have begun : Sound { s₂ with lastTimeout := s₂.packetTime, swept := true } :=
        (sound.same same).congr rfl (fun _ _ => rfl) (.of_eq rfl)
      obtain ⟨after, left, given, flows, members⟩ :=
        updateTimers_spec s₂.packetTime begun same.ident timeout same.table released
      rw [packetTime, lastTimeout, timeout] at due
      refine ⟨after, .swept heard due flows ?_ ?_ ?_ ?_, ?_, ?_, ?_⟩
      · rw [← packetTime]
        exact left
      · rw [← packetTime]
        exact given
      · exact (congrArg Members.closed members).trans closed
      · exact congrArg Members.swept members
      · exact (congrArg Members.packetTime members).trans packetTime
      · exact (congrArg Members.currentFlow members).trans current
      · exact (congrArg Members.timeout members).trans timeout
    · rw [packetTime, lastTimeout, timeout] at early
      have after := sound_setLastPacketTime (sound.same same) a s₂.packetTime
      have names : ∀ b, ((s₂.setLastPacketTime a s₂.packetTime).flow b).name = (s.flow b).name :=
        fun b => (setLastPacketTime_name s₂ a _ b).trans (Flow.name_of_ident (same.ident b))
      have time := (setLastPacketTime_time s₂ a s₂.packetTime).trans packetTime
      rcases changed with ⟨b, s₃, known, rfl, rfl⟩ | rfl
      · have found := (sound.same same).findId (same.table ▸ member)
        obtain rfl := Option.some.inj (found.symm.trans known)
        have perm : (OrderedIndex.modify (s₂.setLastPacketTime a s₂.packetTime).lastTime s₂.table
            hint a).Perm s₂.table := OrderedIndex.modify_perm hint (same.table ▸ member)
        refine ⟨after.congr rfl (fun _ _ => rfl) perm, .timed heard early names time ?_ released
          closed quiet, packetTime, current, timeout⟩
        exact perm.trans (.of_eq same.table)
      · exact ⟨after, .timed heard early names time (.of_eq same.table) released closed quiet,
          packetTime, current, timeout⟩

theorem begin_sound {s : Transport} (sound : Sound s) (p : Packet) : Sound (s.begin p) :=
  sound.congr rfl (fun _ _ => rfl) (.of_eq rfl)

/-- What a packet does to a sound transport. -/
structure Processed (s t : Transport) (kind : Kind) (p : Packet) (hint : Nat) (found : Option Obj)
    (s₁ : Transport) : Prop where
  got : (s.begin p).getFlow kind p hint = .ok (found, s₁)
  sound : Sound s₁
  looked : Looked (s.begin p) s₁ kind p hint found
  after : Sound t
  packetTime : t.packetTime = p.time
  timeout : t.timeout = s.timeout
  current : t.currentFlow = found
  missed : found = none → t.table = s₁.table ∧ (∀ b, t.flow b = s₁.flow b) ∧ t.swept = false
  outcome : ∀ a, found = some a → Outcome s₁ t kind a

theorem processPacket_spec {s t : Transport} {kind : Kind} {p : Packet} {o : Outside}
    (sound : Sound s) (h : s.processPacket kind p o = .ok t) :
    ∃ found s₁, Processed s t kind p o.hint found s₁ := by
  obtain ⟨found, s₁, got, paths⟩ := processPacket_cases h
  obtain ⟨held, looked⟩ := getFlow_spec (begin_sound sound p) got
  have packetTime : s₁.packetTime = p.time := congrArg Members.packetTime looked.members
  have timeout : s₁.timeout = s.timeout := congrArg Members.timeout looked.members
  have quiet : s₁.swept = false := congrArg Members.swept looked.members
  have current : Sound { s₁ with currentFlow := found } :=
    held.congr rfl (fun _ _ => rfl) (.of_eq rfl)
  refine ⟨found, s₁, ?_⟩
  rcases paths with ⟨rfl, rfl⟩ | ⟨a, rfl, ⟨silent, rfl⟩ | ⟨heard, ends⟩⟩
  · exact ⟨got, held, looked, current, packetTime, timeout, rfl,
      fun _ => ⟨rfl, fun _ => rfl, quiet⟩, fun a known => absurd known (by simp)⟩
  · refine ⟨got, held, looked, current, packetTime, timeout, rfl,
      fun missed => absurd missed (by simp), fun b known => ?_⟩
    obtain rfl := Option.some.inj known
    exact .ignored silent (fun _ => rfl) rfl rfl rfl rfl
  · obtain ⟨after, outcome, time, now, out⟩ := ends_outcome current looked.mem heard ends
    refine ⟨got, held, looked, after, time.trans packetTime, out.trans timeout, now,
      fun missed => absurd missed (by simp), fun b known => ?_⟩
    obtain rfl := Option.some.inj known
    cases outcome with
    | ignored silent => exact absurd silent heard
    | closed _ flows table closed swept => exact .closed heard flows table closed swept
    | swept _ due flows table released closed swept =>
      exact .swept heard due flows table released closed swept
    | timed _ early flows time table released closed swept =>
      exact .timed heard early flows time table released closed swept

/-- A flow in the table behind the packet was there before it, or the packet opened it. -/
theorem Processed.listed {s t s₁ : Transport} {kind : Kind} {p : Packet} {hint : Nat}
    {found : Option Obj} (processed : Processed s t kind p hint found s₁) {b : Obj}
    (member : b ∈ t.table) :
    (b ∈ s.table ∧ (t.flow b).name = (s.flow b).name) ∨
      (b ∉ s.table ∧ found = some b ∧
        (t.flow b).name = ((s.begin p).describe kind p (s.flow b).reset).name) := by
  have after : b ∈ s₁.table ∧ (t.flow b).name = (s₁.flow b).name := by
    cases found with
    | none =>
      obtain ⟨table, flows, -⟩ := processed.missed rfl
      exact ⟨table ▸ member, by rw [flows b]⟩
    | some a =>
      have outcome := processed.outcome a rfl
      exact ⟨outcome.sub b member, outcome.names b⟩
  obtain ⟨there, name⟩ := after
  rw [name]
  cases processed.looked with
  | found a known same =>
    exact Or.inl ⟨same.table ▸ there, Flow.name_of_ident (same.ident b)⟩
  | failed unknown table flows members =>
    exact Or.inl ⟨table ▸ there, by rw [flows b]; rfl⟩
  | opened a unknown opened =>
    by_cases same : b = a
    · subst same
      exact Or.inr ⟨opened.fresh, rfl, Flow.name_of_ident opened.flow⟩
    · exact Or.inl ⟨((opened.mem b).mp there).resolve_left same,
        Flow.name_of_ident (opened.others b same)⟩

theorem sound_step {kind : Kind} {s t : Transport} {e : Event} (sound : Sound s)
    (h : step kind s e = some t) : Sound t := by
  cases e with
  | packet p o =>
    obtain ⟨found, s₁, processed⟩ := processPacket_spec sound (toOption_some h)
    exact processed.after
  | elsewhere w =>
    obtain rfl := Option.some.inj h
    exact sound_elsewhere sound w

end Transport

end AIEngine
