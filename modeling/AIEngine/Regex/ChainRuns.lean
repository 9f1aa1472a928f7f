import AIEngine.Regex.Regexs

/-!
# A flow goes along a chain of regexes

On payload after payload a flow of the generic protocols does what the chain of its regexes says: the
first regex of a manager that matches, then what follows it.
-/

namespace AIEngine

namespace Regexs

def alive (h : Regexs) : Nat ⊕ Nat → Bool
  | .inl m => h.managerAlive m
  | .inr r => h.regexAlive r

/-- The manager that is asked counts the match. -/
def countedBy (pos : Chain.Position Nat Nat) : Option Nat :=
  match pos.current with
  | none => some pos.set
  | some _ => none

variable {h u : Regexs} {f : Flow} {m : Nat}

@[simp] theorem mark_regex (h : Regexs) (f : Flow) (r : Nat) : (h.mark f r).regex = f.regex := by
  unfold mark
  simp only
  split <;> split <;> rfl

@[simp] theorem mark_regexMng (h : Regexs) (f : Flow) (r : Nat) :
    (h.mark f r).regexMng = f.regexMng := by
  unfold mark
  simp only
  split <;> split <;> rfl

/-- The attempt on a payload, made from the position of the flow. -/
theorem attempt_spec (h : Regexs) (pos : Chain.Position Nat Nat) (data : Bytes) :
    ∃ u next, Counted (h.chain.tried pos data) (h.chain.found pos data) (countedBy pos) h u ∧
      h.attempt pos.current (some pos.set) data = ((h.chain.found pos data).isSome, next, u) ∧
      ∀ r, h.chain.found pos data = some r → next = some r := by
  obtain ⟨set, current⟩ := pos
  cases current with
  | none =>
    obtain ⟨u, counted, same, found⟩ := tryManager_spec h set data
    exact ⟨u, u.getMatchedRegex set, counted, same, found⟩
  | some r =>
    obtain ⟨u, next, counted, same, found⟩ := tryNext_spec h set r data
    exact ⟨u, next, counted, same, found⟩

theorem processFlow_spec (data : Bytes) (locked : h.lockManager f.regexMng = some m) :
    ∃ u, Counted (h.chain.tried ⟨m, h.lockRegex f.regex⟩ data)
        (h.chain.found ⟨m, h.lockRegex f.regex⟩ data) (countedBy ⟨m, h.lockRegex f.regex⟩) h u ∧
      h.processFlow f data = (u,
        match h.chain.found ⟨m, h.lockRegex f.regex⟩ data with
        | some r => u.mark (u.attach (notePacket f) r) r
        | none => notePacket f) := by
  obtain ⟨u, next, counted, attempt, known⟩ := attempt_spec h ⟨m, h.lockRegex f.regex⟩ data
  refine ⟨u, counted, ?_⟩
  unfold processFlow
  simp only [locked]
  simp only at attempt
  rw [attempt]
  cases found : h.chain.found ⟨m, h.lockRegex f.regex⟩ data with
  | none => rfl
  | some r =>
    obtain rfl := known r found
    rfl

theorem attach_position (h : Regexs) (f : Flow) (r : Nat) (pos : Chain.Position Nat Nat)
    (manager : f.regexMng = some pos.set) :
    (h.attach f r).regexMng = some (h.chain.accept pos r).set ∧
      (h.attach f r).regex = (h.chain.accept pos r).current := by
  unfold attach Chain.accept
  have same : h.chain.follower r = (h.regexs r).regexMng := rfl
  rw [same]
  cases (h.regexs r).regexMng with
  | none => exact ⟨manager, rfl⟩
  | some rmng => exact ⟨rfl, rfl⟩

end Regexs

open Regexs

/-- A flow with a manager and maybe a regex, whose chains are kept alive. -/
structure ChainedFlow where
  regexs : Regexs
  flow : Flow
  position : Chain.Position Nat Nat
  manager : flow.regexMng = some position.set
  regex : flow.regex = position.current
  kept : ∀ x, regexs.chain.Reaches position x → regexs.alive x = true

namespace ChainedFlow

def run (process : Regexs → Flow → Bytes → Regexs × Flow) (s : ChainedFlow) (payloads : List Bytes) :
    Regexs × Flow :=
  payloads.foldl (fun t data => process t.1 t.2 data) (s.regexs, s.flow)

/-- The flow is where the chain leads to, and the counters have counted as numbers of 32 bits. -/
structure Follows (s : ChainedFlow) (payloads : List Bytes) (t : Regexs × Flow) : Prop where
  manager : t.2.regexMng = some (s.regexs.chain.final s.position payloads).set
  regex : t.2.regex = (s.regexs.chain.final s.position payloads).current
  totalMatchs : ∀ r, (t.1.regexs r).totalMatchs.toInt = ((s.regexs.regexs r).totalMatchs.toInt +
    (s.regexs.chain.successes s.position payloads).count r).bmod (2 ^ 32)
  totalEvaluates : ∀ r, (t.1.regexs r).totalEvaluates.toInt =
    ((s.regexs.regexs r).totalEvaluates.toInt +
      (s.regexs.chain.trials s.position payloads).count r).bmod (2 ^ 32)

variable (s : ChainedFlow) (data : Bytes)

theorem lockManager_eq : s.regexs.lockManager s.flow.regexMng = some s.position.set := by
  have alive : s.regexs.managerAlive s.position.set = true :=
    s.kept (.inl s.position.set) (Or.inl .refl)
  rw [s.manager, lockManager, Option.filter_some_pos alive]

theorem lockRegex_eq : s.regexs.lockRegex s.flow.regex = s.position.current := by
  rw [s.regex, lockRegex]
  cases current : s.position.current with
  | none => rfl
  | some r =>
    have alive : s.regexs.regexAlive r = true := s.kept (.inr r) (Or.inr ⟨r, current, .refl⟩)
    rw [Option.filter_some_pos alive]

/-- One payload. -/
theorem processFlow_step : ∃ t : ChainedFlow,
    s.regexs.processFlow s.flow data = (t.regexs, t.flow) ∧
      t.regexs.chain = s.regexs.chain ∧ t.position = s.regexs.chain.next s.position data ∧
      Counted (s.regexs.chain.tried s.position data) (s.regexs.chain.found s.position data)
        (countedBy s.position) s.regexs t.regexs := by
  obtain ⟨u, counted, processed⟩ := processFlow_spec data s.lockManager_eq
  rw [s.lockRegex_eq] at counted processed
  have kept : ∀ x, u.chain.Reaches (s.regexs.chain.next s.position data) x → u.alive x = true := by
    intro x reached
    rw [counted.plugged.chain] at reached
    have alive := s.kept x (Chain.reaches_next reached)
    cases x with
    | inl m => exact (congrFun counted.plugged.managerAlive m).trans alive
    | inr r => exact (congrFun counted.plugged.regexAlive r).trans alive
  cases found : s.regexs.chain.found s.position data with
  | none =>
    have stay : s.regexs.chain.next s.position data = s.position := by
      unfold Chain.next
      rw [found]
    rw [found] at processed counted
    refine ⟨⟨u, notePacket s.flow, s.regexs.chain.next s.position data, ?_, ?_, kept⟩, processed,
      counted.plugged.chain, rfl, counted⟩
    · rw [stay]
      exact s.manager
    · rw [stay]
      exact s.regex
  | some r =>
    have move : s.regexs.chain.next s.position data = s.regexs.chain.accept s.position r := by
      unfold Chain.next
      rw [found]
    obtain ⟨manager, regex⟩ := attach_position u
      (notePacket s.flow) r s.position s.manager
    rw [counted.plugged.chain, ← move] at manager regex
    rw [found] at processed counted
    exact ⟨⟨u, _, s.regexs.chain.next s.position data, (mark_regexMng u _ r).trans manager,
      (mark_regex u _ r).trans regex, kept⟩, processed, counted.plugged.chain, rfl, counted⟩

theorem wrapped (n : BitVec 32) : (n.toInt + (0 : Nat)).bmod (2 ^ 32) = n.toInt := by
  have same := BitVec.toInt_bmod_cancel n
  simpa using same

theorem bmod_count (before : BitVec 32) (n k : Nat) :
    ((before + BitVec.ofNat 32 n).toInt + k).bmod (2 ^ 32) =
      (before.toInt + (n + k : Nat)).bmod (2 ^ 32) := by
  rw [BitVec.toInt_add, BitVec.toInt_ofNat', Int.bmod_add_bmod, Int.add_assoc,
    Int.add_comm _ (k : Int), ← Int.add_assoc, Int.add_bmod_bmod]
  congr 1
  push_cast
  omega

/-- By induction on the payloads: each step counts its trials and its match. -/
theorem run_follows (payloads : List Bytes) : s.Follows payloads (run Regexs.processFlow s payloads) := by
  induction payloads generalizing s with
  | nil =>
    refine ⟨s.manager, s.regex, fun r => ?_, fun r => ?_⟩
    · exact (wrapped _).symm
    · exact (wrapped _).symm
  | cons data rest ih =>
    obtain ⟨t, processed, chain, position, counted⟩ := s.processFlow_step data
    have later := ih t
    have same : run Regexs.processFlow s (data :: rest) = run Regexs.processFlow t rest := by
      unfold run
      rw [List.foldl_cons, processed]
    rw [same]
    refine ⟨?_, ?_, fun r => ?_, fun r => ?_⟩
    · rw [later.manager, chain, position]
      rfl
    · rw [later.regex, chain, position]
      rfl
    · rw [later.totalMatchs, counted.totalMatchs, chain, position, bmod_count]
      rw [Chain.successes, List.count_append, Chain.filter_tried]
    · rw [later.totalEvaluates, counted.totalEvaluates, chain, position, bmod_count]
      rw [Chain.trials, List.count_append]

/-- In every run of payloads, the flow is where the greedy match of its chain leads to, and every
counter is the number of evaluations as a signed number of 32 bits. -/
theorem generic_follows (s : ChainedFlow) (payloads : List Bytes) :
    s.Follows payloads (s.run TCPGenericProtocol.processFlow payloads) ∧
      s.Follows payloads (s.run UDPGenericProtocol.processFlow payloads) :=
  ⟨run_follows s payloads, run_follows s payloads⟩

/-- One regex that matches everything and is followed by its own manager. -/
def loop : ChainedFlow where
  regexs :=
    { regexs := fun _ => PayloadRegex.setNextRegexManager { exec := fun _ => true } (some 0)
      managers := fun _ => { signatures := [0] } }
  flow := { Flow.new with regexMng := some 0 }
  position := ⟨0, none⟩
  manager := rfl
  regex := rfl
  kept := fun x _ => by cases x <;> rfl

/-- After 2147483648 matches the counter has overflowed. -/
theorem not_always_exact :
    ¬∀ s payloads r, ((run TCPGenericProtocol.processFlow s payloads).1.regexs r).totalMatchs.toInt =
      (s.regexs.regexs r).totalMatchs.toInt +
        (s.regexs.chain.successes s.position payloads).count r := by
  intro h
  have overflows : ∀ n : Nat, (n : Int).bmod (2 ^ 32) = n := by
    intro n
    have exact' := h loop (List.replicate n []) 0
    have counted := (run_follows loop (List.replicate n [])).totalMatchs 0
    have number : (loop.regexs.chain.successes loop.position (List.replicate n [])).count 0 = n :=
      Chain.count_successes_loop rfl rfl n
    have before : (loop.regexs.regexs 0).totalMatchs.toInt = 0 := by decide
    rw [number, before, Int.zero_add] at exact' counted
    exact counted.symm.trans exact'
  exact absurd (overflows 2147483648) (by decide)

end ChainedFlow

end AIEngine
