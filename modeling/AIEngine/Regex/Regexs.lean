import AIEngine.Library.Chains
import AIEngine.Resources.World

/-!
# Regexes on the payloads of flows (`Regex.h`, `RegexManager.cc`)

A flow refers to a regex and to a manager through weak pointers; managers and regexes hold each other
by shared ones. The two generic protocols and HTTP look at their payloads in much the same way.
-/

namespace AIEngine

/-- A `Regex` as it is plugged into flows; the texts that others extract are not part of this. -/
structure PayloadRegex where
  /-- whether `pcre_exec` finds the expression -/
  exec : Bytes → Bool
  nextRegex : Option Nat := none
  isTerminal : Bool := true
  regexMng : Option Nat := none
  haveEvidence : Bool := false
  rejectConnection : Bool := false
  totalMatchs : BitVec 32 := 0
  totalEvaluates : BitVec 32 := 0

namespace PayloadRegex

def setNextRegex (r : PayloadRegex) (next : Option Nat) : PayloadRegex :=
  { r with nextRegex := next, isTerminal := false }

def setNextRegexManager (r : PayloadRegex) (manager : Option Nat) : PayloadRegex :=
  { r with regexMng := manager, isTerminal := false }

def count (r : PayloadRegex) (result : Bool) : PayloadRegex :=
  { r with
    totalMatchs := if result then r.totalMatchs + 1 else r.totalMatchs
    totalEvaluates := r.totalEvaluates + 1 }

/-- The regex as it is plugged, without its counters. -/
def uncounted (r : PayloadRegex) : PayloadRegex := { r with totalMatchs := 0, totalEvaluates := 0 }

end PayloadRegex

structure RegexManager where
  signatures : List Nat
  currentSignature : Option Nat := none
  totalMatchedSignatures : BitVec 32 := 0

/-- All regexes and managers, and which of them a weak pointer still finds. -/
structure Regexs where
  regexs : Nat → PayloadRegex
  managers : Nat → RegexManager
  regexAlive : Nat → Bool := fun _ => true
  managerAlive : Nat → Bool := fun _ => true

namespace Regexs

def setRegex (h : Regexs) (r : Nat) (regex : PayloadRegex) : Regexs :=
  { h with regexs := fun q => if q = r then regex else h.regexs q }

def setManager (h : Regexs) (m : Nat) (manager : RegexManager) : Regexs :=
  { h with managers := fun n => if n = m then manager else h.managers n }

def lockRegex (h : Regexs) (pointer : Option Nat) : Option Nat := pointer.filter h.regexAlive

def lockManager (h : Regexs) (pointer : Option Nat) : Option Nat := pointer.filter h.managerAlive

/-- `Regex::evaluate` -/
def evaluate (h : Regexs) (r : Nat) (data : Bytes) : Bool × Regexs :=
  let result := (h.regexs r).exec data
  (result, h.setRegex r ((h.regexs r).count result))

def noteMatch (h : Regexs) (m sig : Nat) : Regexs :=
  h.setManager m { h.managers m with
    totalMatchedSignatures := (h.managers m).totalMatchedSignatures + 1
    currentSignature := some sig }

/-- `current_signature_.reset()` -/
def resetMatch (h : Regexs) (m : Nat) : Regexs :=
  h.setManager m { h.managers m with currentSignature := none }

/-- The loop of `RegexManager::evaluate`. -/
def evaluateSignatures (m : Nat) (data : Bytes) : List Nat → Regexs → Bool × Regexs
  | [], h => (false, h)
  | sig :: rest, h =>
    match h.evaluate sig data with
    | (true, h) => (true, h.noteMatch m sig)
    | (false, h) => evaluateSignatures m data rest h

/-- `RegexManager::evaluate` -/
def evaluateManager (h : Regexs) (m : Nat) (data : Bytes) : Bool × Regexs :=
  evaluateSignatures m data (h.managers m).signatures (h.resetMatch m)

def getMatchedRegex (h : Regexs) (m : Nat) : Option Nat := (h.managers m).currentSignature

/-- What follows the current regex is evaluated, if something does. -/
def tryNext (h : Regexs) (regex : Nat) (data : Bytes) : Bool × Option Nat × Regexs :=
  if (h.regexs regex).isTerminal = false then
    match (h.regexs regex).nextRegex with
    | some next =>
      match h.evaluate next data with
      | (result, h) => (result, some next, h)
    | none => (false, none, h)
  else (false, some regex, h)

def tryManager (h : Regexs) (m : Nat) (data : Bytes) : Bool × Option Nat × Regexs :=
  match h.evaluateManager m data with
  | (result, h) => (result, h.getMatchedRegex m, h)

/-- The flow gets the regex, or the manager that is next. -/
def attach (h : Regexs) (f : Flow) (regex : Nat) : Flow :=
  match (h.regexs regex).regexMng with
  | some rmng => { f with regexMng := some rmng, regex := none }
  | none => { f with regex := some regex }

/-- What the regex asks for. -/
def mark (h : Regexs) (f : Flow) (regex : Nat) : Flow :=
  let f := if (h.regexs regex).rejectConnection then { f with reject := true } else f
  if (h.regexs regex).haveEvidence then { f with haveEvidence := true } else f

/-- What follows the regex of the flow, or the manager where it has none. -/
def attempt (h : Regexs) (regex manager : Option Nat) (data : Bytes) : Bool × Option Nat × Regexs :=
  match regex, manager with
  | some regex, _ => h.tryNext regex data
  | none, some manager => h.tryManager manager data
  | none, none => (false, none, h)

def notePacket (f : Flow) : Flow := { f with totalPacketsL7 := f.totalPacketsL7 + 1 }

/-- The body that the two generic protocols share. -/
def processFlow (h : Regexs) (f : Flow) (data : Bytes) : Regexs × Flow :=
  match h.lockManager f.regexMng with
  | none => (h, notePacket f)
  | some sig =>
    match h.attempt (h.lockRegex f.regex) (some sig) data with
    | (true, some regex, h) => (h, h.mark (h.attach (notePacket f) regex) regex)
    | (_, _, h) => (h, notePacket f)

end Regexs

/-- `TCPGenericProtocol::processFlow` -/
def TCPGenericProtocol.processFlow (h : Regexs) (f : Flow) (data : Bytes) : Regexs × Flow :=
  h.processFlow f data

/-- `UDPGenericProtocol::processFlow` -/
def UDPGenericProtocol.processFlow (h : Regexs) (f : Flow) (data : Bytes) : Regexs × Flow :=
  h.processFlow f data

/-- A domain name that a host has matched: its regex manager, if `haveRegexManager`. -/
structure MatchedDomain where
  regexManager : Option Nat
  deriving DecidableEq, Repr

/-- `HTTPProtocol::process_payloadl7` on the regexes; `mhost` is what the weak pointer of the info
finds. -/
def Regexs.processPayloadl7 (h : Regexs) (mhost : Option MatchedDomain) (f : Flow) (data : Bytes) :
    Regexs × Flow :=
  match mhost with
  | none => (h, f)
  | some mhost =>
    match h.attempt (h.lockRegex f.regex) mhost.regexManager data with
    | (true, some regex, h) => (h, h.attach f regex)
    | (_, _, h) => (h, f)

namespace Regexs

variable {h : Regexs} {f : Flow} {data : Bytes}

/-! ### What an evaluation changes -/

/-- The regexes and managers as a chain of patterns. -/
def chain (h : Regexs) : Chain Nat Nat Bytes where
  hits := fun r data => (h.regexs r).exec data
  patterns := fun m => (h.managers m).signatures
  terminal := fun r => (h.regexs r).isTerminal
  successor := fun r => (h.regexs r).nextRegex
  follower := fun r => (h.regexs r).regexMng

/-- The same regexes and managers, but for their counters. -/
structure Plugged (h h' : Regexs) : Prop where
  uncounted : ∀ r, (h'.regexs r).uncounted = (h.regexs r).uncounted
  signatures : ∀ m, (h'.managers m).signatures = (h.managers m).signatures
  regexAlive : h'.regexAlive = h.regexAlive
  managerAlive : h'.managerAlive = h.managerAlive

theorem plugged_refl (h : Regexs) : Plugged h h := ⟨fun _ => rfl, fun _ => rfl, rfl, rfl⟩

section Plug

variable {h u v : Regexs}

theorem plugged_trans (first : Plugged h u) (second : Plugged u v) : Plugged h v :=
  ⟨fun r => (second.uncounted r).trans (first.uncounted r),
    fun m => (second.signatures m).trans (first.signatures m),
    second.regexAlive.trans first.regexAlive, second.managerAlive.trans first.managerAlive⟩

theorem plugged_symm (plugged : Plugged h u) : Plugged u h :=
  ⟨fun r => (plugged.uncounted r).symm, fun m => (plugged.signatures m).symm,
    plugged.regexAlive.symm, plugged.managerAlive.symm⟩

variable (plugged : Plugged h u) (r : Nat)
include plugged

theorem Plugged.regexMng : (u.regexs r).regexMng = (h.regexs r).regexMng := by
  have same := congrArg PayloadRegex.regexMng (plugged.uncounted r)
  exact same

theorem Plugged.haveEvidence : (u.regexs r).haveEvidence = (h.regexs r).haveEvidence := by
  have same := congrArg PayloadRegex.haveEvidence (plugged.uncounted r)
  exact same

theorem Plugged.rejectConnection : (u.regexs r).rejectConnection = (h.regexs r).rejectConnection := by
  have same := congrArg PayloadRegex.rejectConnection (plugged.uncounted r)
  exact same

theorem Plugged.chain : u.chain = h.chain := by
  have same : ∀ {α : Type} (field : PayloadRegex → α), (fun r => field (u.regexs r).uncounted) =
      fun r => field (h.regexs r).uncounted := by
    intro α field
    funext r
    rw [plugged.uncounted]
  unfold Regexs.chain
  congr 1
  · exact same PayloadRegex.exec
  · funext m
    exact plugged.signatures m
  · exact same PayloadRegex.isTerminal
  · exact same PayloadRegex.nextRegex
  · exact same PayloadRegex.regexMng

theorem Plugged.lockRegex (pointer : Option Nat) : u.lockRegex pointer = h.lockRegex pointer := by
  unfold Regexs.lockRegex
  rw [plugged.regexAlive]

end Plug

/-- The counters and the last match of a manager change, and nothing else. -/
structure Counted (tried : List Nat) (found : Option Nat) (manager : Option Nat) (h h' : Regexs) :
    Prop where
  plugged : Plugged h h'
  totalMatchs : ∀ r, (h'.regexs r).totalMatchs =
    (h.regexs r).totalMatchs + BitVec.ofNat 32 (found.toList.count r)
  totalEvaluates : ∀ r, (h'.regexs r).totalEvaluates =
    (h.regexs r).totalEvaluates + BitVec.ofNat 32 (tried.count r)
  totalMatchedSignatures : ∀ m, (h'.managers m).totalMatchedSignatures =
    (h.managers m).totalMatchedSignatures +
      if found.isSome ∧ manager = some m then 1 else 0

theorem counted_refl (h : Regexs) (manager : Option Nat) : Counted [] none manager h h := by
  refine ⟨plugged_refl h, fun r => ?_, fun r => ?_, fun m => ?_⟩
  · simp
  · simp
  · simp

theorem evaluate_regexs (h : Regexs) (r q : Nat) (data : Bytes) :
    ((h.evaluate r data).2.regexs q) =
      if q = r then (h.regexs q).count ((h.regexs q).exec data) else h.regexs q := by
  by_cases same : q = r
  · subst same
    simp [evaluate, setRegex]
  · simp [evaluate, setRegex, same]

/-- One evaluation. -/
theorem counted_evaluate (h : Regexs) (r : Nat) (data : Bytes) :
    Counted [r] (if (h.regexs r).exec data then some r else none) none h
      (h.evaluate r data).2 := by
  refine ⟨⟨fun q => ?_, fun m => rfl, rfl, rfl⟩, fun q => ?_, fun q => ?_, fun m => ?_⟩
  · rw [evaluate_regexs]
    split <;> rfl
  · rw [evaluate_regexs]
    by_cases same : q = r
    · subst same
      cases hit : (h.regexs q).exec data with
      | false => simp [PayloadRegex.count]
      | true => simp [PayloadRegex.count]
    · have others : (if (h.regexs r).exec data then some r else none).toList.count q = 0 := by
        split
        · simp [Ne.symm same]
        · rfl
      simp [same, others]
  · rw [evaluate_regexs]
    by_cases same : q = r
    · subst same
      simp [PayloadRegex.count]
    · simp [same, Ne.symm same]
  · simp [evaluate, setRegex]

/-- One evaluation and then a loop. -/
theorem Counted.after {r : Nat} {tried : List Nat} {found manager : Option Nat} {u t : Regexs}
    (first : Counted [r] none none h u) (second : Counted tried found manager u t) :
    Counted (r :: tried) found manager h t := by
  refine ⟨plugged_trans first.plugged second.plugged, fun q => ?_, fun q => ?_, fun m => ?_⟩
  · rw [second.totalMatchs, first.totalMatchs]
    simp
  · rw [second.totalEvaluates, first.totalEvaluates, List.count_cons, List.count_cons]
    by_cases same : r = q
    · simp [same, BitVec.ofNat_add, BitVec.add_assoc, BitVec.add_comm]
    · simp [same]
  · rw [second.totalMatchedSignatures, first.totalMatchedSignatures]
    simp

theorem noteMatch_counted {u : Regexs} {r m : Nat} (once : Counted [r] (some r) none h u) :
    Counted [r] (some r) (some m) h (u.noteMatch m r) := by
  have plugged : Plugged u (u.noteMatch m r) := by
    refine ⟨fun q => rfl, fun n => ?_, rfl, rfl⟩
    by_cases same : n = m <;> simp [noteMatch, setManager, same]
  refine ⟨plugged_trans once.plugged plugged, once.totalMatchs, once.totalEvaluates, fun n => ?_⟩
  have before := once.totalMatchedSignatures n
  simp only [Option.isSome_some, reduceCtorEq, and_false, if_false] at before
  by_cases same : n = m
  · subst same
    simp [noteMatch, setManager, before]
  · simp [noteMatch, setManager, same, Ne.symm same, before]

/-- The loop counts the regexes up to the first that matches, and that one as the match of the
manager. -/
theorem evaluateSignatures_spec (m : Nat) (data : Bytes) (rest : List Nat) (h : Regexs) :
    (evaluateSignatures m data rest h).1 = (rest.find? fun r => h.chain.hits r data).isSome ∧
      Counted (h.chain.asked data rest) (rest.find? fun r => h.chain.hits r data) (some m) h
        (evaluateSignatures m data rest h).2 ∧
      ∀ r, rest.find? (fun r => h.chain.hits r data) = some r →
        (evaluateSignatures m data rest h).2.getMatchedRegex m = some r := by
  induction rest generalizing h with
  | nil => exact ⟨rfl, counted_refl h (some m), fun r no => absurd no (by simp)⟩
  | cons sig rest ih =>
    have once := counted_evaluate h sig data
    unfold evaluateSignatures Chain.asked
    cases hit : (h.regexs sig).exec data with
    | true =>
      have hits : h.chain.hits sig data = true := hit
      have evaluated : h.evaluate sig data = (true, (h.evaluate sig data).2) :=
        Prod.ext hit rfl
      rw [hit, if_pos rfl] at once
      have first : (sig :: rest).find? (fun r => h.chain.hits r data) = some sig :=
        List.find?_cons_of_pos hits
      rw [evaluated, if_pos hits, first]
      refine ⟨rfl, noteMatch_counted once, fun r same => ?_⟩
      rw [← same]
      simp [noteMatch, setManager, getMatchedRegex]
    | false =>
      have misses : ¬h.chain.hits sig data = true := by
        show ¬(h.regexs sig).exec data = true
        simp [hit]
      have evaluated : h.evaluate sig data = (false, (h.evaluate sig data).2) :=
        Prod.ext hit rfl
      rw [hit] at once
      have once : Counted [sig] none none h (h.evaluate sig data).2 := once
      obtain ⟨result, counted, matched⟩ := ih (h.evaluate sig data).2
      rw [once.plugged.chain] at result counted matched
      have later : (sig :: rest).find? (fun r => h.chain.hits r data) =
          rest.find? fun r => h.chain.hits r data := List.find?_cons_of_neg misses
      rw [evaluated, if_neg misses, later]
      exact ⟨result, once.after counted, matched⟩

theorem tryManager_spec (h : Regexs) (m : Nat) (data : Bytes) :
    ∃ u, Counted (h.chain.tried ⟨m, none⟩ data) (h.chain.found ⟨m, none⟩ data) (some m) h u ∧
      h.tryManager m data = ((h.chain.found ⟨m, none⟩ data).isSome,
        u.getMatchedRegex m, u) ∧
      ∀ r, h.chain.found ⟨m, none⟩ data = some r → u.getMatchedRegex m = some r := by
  have cleared : Counted [] none (some m) h (h.resetMatch m) := by
    refine ⟨⟨fun r => rfl, fun n => ?_, rfl, rfl⟩, fun r => ?_, fun r => ?_, fun n => ?_⟩
    · by_cases same : n = m <;> simp [resetMatch, setManager, same]
    · simp [resetMatch, setManager]
    · simp [resetMatch, setManager]
    · by_cases same : n = m <;> simp [resetMatch, setManager, same]
  obtain ⟨result, counted, matched⟩ := evaluateSignatures_spec m data (h.managers m).signatures
    (h.resetMatch m)
  rw [cleared.plugged.chain] at result counted matched
  have found : h.chain.found ⟨m, none⟩ data =
      (h.managers m).signatures.find? fun r => h.chain.hits r data := Chain.found_set rfl
  refine ⟨(h.evaluateManager m data).2, ?_, ?_, ?_⟩
  · rw [found]
    refine ⟨plugged_trans cleared.plugged counted.plugged, counted.totalMatchs,
      counted.totalEvaluates, fun n => ?_⟩
    refine (counted.totalMatchedSignatures n).trans ?_
    rw [cleared.totalMatchedSignatures]
    simp
  · rw [found, ← result]
    rfl
  · rw [found]
    exact matched

theorem tryNext_spec (h : Regexs) (m r : Nat) (data : Bytes) :
    ∃ u next, Counted (h.chain.tried ⟨m, some r⟩ data) (h.chain.found ⟨m, some r⟩ data) none h u ∧
      h.tryNext r data = ((h.chain.found ⟨m, some r⟩ data).isSome, next, u) ∧
      ∀ n, h.chain.found ⟨m, some r⟩ data = some n → next = some n := by
  unfold tryNext
  cases terminal : (h.regexs r).isTerminal with
  | true =>
    have found : h.chain.found ⟨m, some r⟩ data = none := Chain.found_terminal rfl terminal
    refine ⟨h, some r, ?_, ?_, ?_⟩
    · rw [found]
      have tried : h.chain.tried ⟨m, some r⟩ data = [] := by
        simp [Chain.tried, chain, terminal]
      rw [tried]
      exact counted_refl h none
    · rw [found]
      rfl
    · rw [found]
      exact fun n no => absurd no (by simp)
  | false =>
    have found : h.chain.found ⟨m, some r⟩ data =
        (h.regexs r).nextRegex.filter fun n => h.chain.hits n data :=
      Chain.found_successor rfl terminal
    have tried : h.chain.tried ⟨m, some r⟩ data = (h.regexs r).nextRegex.toList := by
      simp [Chain.tried, chain, terminal]
    rw [if_pos rfl, found, tried]
    cases successor : (h.regexs r).nextRegex with
    | none => exact ⟨h, none, counted_refl h none, rfl, fun n no => absurd no (by simp)⟩
    | some next =>
      have once := counted_evaluate h next data
      have filtered : (some next).filter (fun n => h.chain.hits n data) =
          if (h.regexs next).exec data then some next else none := rfl
      rw [filtered]
      refine ⟨(h.evaluate next data).2, some next, once, ?_, ?_⟩
      · cases hit : (h.regexs next).exec data with
        | false => exact Prod.ext hit rfl
        | true => exact Prod.ext hit rfl
      · intro n same
        split at same
        · exact same
        · exact absurd same (by simp)

end Regexs

end AIEngine
