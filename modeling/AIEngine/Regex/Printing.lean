import AIEngine.Library.Walks
import AIEngine.Regex.Regexs
import Mathlib.Data.List.Induction

/-!
# Regexes in print (`RegexManager.cc`)

`operator<<` follows the next regexes of each signature. Its loop takes a regex that a setter was called
on for one that leads on, whether it leads anywhere or not.
-/

namespace AIEngine.Regexs

/-- A line of the output, and the regex that it is about. -/
structure RegexLine where
  regex : Nat
  text : List Char

section Print

variable (getName : Nat → List Char)

def regexLine (h : Regexs) (tabs ssig : Nat) : RegexLine where
  regex := ssig
  text := List.replicate tabs '\t' ++ ("Regex:".toList ++ (getName ssig ++ (" matches:".toList ++
    (toString (h.regexs ssig).totalMatchs.toInt).toList)))

/-- The loop for one signature, if it ends in so many turns. -/
def printLoop (h : Regexs) : Nat → Nat → Nat → Option (List RegexLine)
  | 0, _, _ => none
  | turns + 1, tabs, ssig =>
    let line := h.regexLine getName (tabs + 1) ssig
    if (h.regexs ssig).isTerminal = false then
      match (h.regexs ssig).regexMng with
      | some _ => some [line]
      | none =>
        match (h.regexs ssig).nextRegex with
        | some raux => (printLoop h turns (tabs + 1) raux).map (line :: ·)
        | none => (printLoop h turns (tabs + 1) ssig).map (line :: ·)
    else some [line]

/-- What is printed for each signature. -/
def printSignatures (h : Regexs) (turns : Nat) : List Nat → Option (List (List RegexLine))
  | [] => some []
  | ssig :: rest =>
    match h.printLoop getName turns 0 ssig, printSignatures h turns rest with
    | some chain, some chains => some (chain :: chains)
    | _, _ => none

/-- `operator<<` of a manager, without its first line. -/
def printManager (h : Regexs) (turns m : Nat) : Option (List (List RegexLine)) :=
  h.printSignatures getName turns (h.managers m).signatures

end Print

/-! ### The setters -/

inductive RegexCall where
  | setNextRegex (regex : Nat) (next : Option Nat)
  | setNextRegexManager (regex : Nat) (manager : Option Nat)
  | evaluate (regex : Nat) (data : Bytes)

/-- The regex whose setter is called. -/
def RegexCall.sets : RegexCall → Option Nat
  | .setNextRegex regex _ => some regex
  | .setNextRegexManager regex _ => some regex
  | .evaluate _ _ => none

def call (h : Regexs) : RegexCall → Regexs
  | .setNextRegex regex next => h.setRegex regex ((h.regexs regex).setNextRegex next)
  | .setNextRegexManager regex manager =>
    h.setRegex regex ((h.regexs regex).setNextRegexManager manager)
  | .evaluate regex data => (h.evaluate regex data).2

/-- New regexes with their expressions, and what the calls make of them. -/
def built (exec : Nat → Bytes → Bool) (managers : Nat → RegexManager) (calls : List RegexCall) :
    Regexs :=
  calls.foldl call { regexs := fun r => { exec := exec r }, managers := managers }

/-- The next regexes form no cycle. -/
def Acyclic (h : Regexs) : Prop :=
  ∀ r, ¬Relation.TransGen (Walks.Link fun q => (h.regexs q).nextRegex) r r

/-- From a regex without a manager to its next regex. -/
def Follows (h : Regexs) : Nat → Nat → Prop :=
  Relation.ReflTransGen fun q r => (h.regexs q).regexMng = none ∧ (h.regexs q).nextRegex = some r

/-- A setter was called, and there is nothing to come. -/
def Dangles (h : Regexs) (calls : List RegexCall) (r : Nat) : Prop :=
  (∃ c ∈ calls, c.sets = some r) ∧ (h.regexs r).nextRegex = none ∧ (h.regexs r).regexMng = none

/-- The output comes to an end, and no signature prints a regex twice. -/
def Printed (getName : Nat → List Char) (h : Regexs) (m : Nat) : Prop :=
  ∃ turns chains, h.printManager getName turns m = some chains ∧
    ∀ chain ∈ chains, (chain.map RegexLine.regex).Nodup

/-- What the flag says of a regex, beside its pointers. -/
structure Flagged (calls : List RegexCall) (h : Regexs) : Prop where
  set : ∀ r, (h.regexs r).isTerminal = false ↔ ∃ c ∈ calls, c.sets = some r
  bare : ∀ r, (h.regexs r).isTerminal = true →
    (h.regexs r).nextRegex = none ∧ (h.regexs r).regexMng = none

variable {h : Regexs} {calls : List RegexCall}

theorem sets_append {c : RegexCall} {r : Nat} :
    (∃ d ∈ calls ++ [c], d.sets = some r) ↔ (∃ d ∈ calls, d.sets = some r) ∨ c.sets = some r := by
  simp only [List.mem_append, List.mem_singleton, or_and_right, exists_or, exists_eq_left]

/-- A setter takes the flag away, whatever it sets. -/
theorem flagged_set (flagged : Flagged calls h) {c : RegexCall} {r : Nat} {regex : PayloadRegex}
    (sets : c.sets = some r) (flag : regex.isTerminal = false) :
    Flagged (calls ++ [c]) (h.setRegex r regex) := by
  refine ⟨fun q => ?_, fun q => ?_⟩
  · rw [sets_append, sets]
    by_cases same : q = r
    · simp [setRegex, same, flag]
    · simp [setRegex, same, Ne.symm same, flagged.set]
  · by_cases same : q = r
    · simp [setRegex, same, flag]
    · simpa [setRegex, same] using flagged.bare q

theorem flagged_call (flagged : Flagged calls h) (c : RegexCall) :
    Flagged (calls ++ [c]) (h.call c) := by
  cases c with
  | setNextRegex r next => exact flagged_set flagged rfl rfl
  | setNextRegexManager r manager => exact flagged_set flagged rfl rfl
  | evaluate r data =>
    have kept : ∀ q, ((h.evaluate r data).2.regexs q).isTerminal = (h.regexs q).isTerminal ∧
        ((h.evaluate r data).2.regexs q).nextRegex = (h.regexs q).nextRegex ∧
        ((h.evaluate r data).2.regexs q).regexMng = (h.regexs q).regexMng := by
      intro q
      rw [evaluate_regexs]
      split
      · exact ⟨rfl, rfl, rfl⟩
      · exact ⟨rfl, rfl, rfl⟩
    refine ⟨fun q => ?_, fun q => ?_⟩
    · rw [sets_append]
      show ((h.evaluate r data).2.regexs q).isTerminal = false ↔ _
      rw [(kept q).1, flagged.set]
      simp [RegexCall.sets]
    · show ((h.evaluate r data).2.regexs q).isTerminal = true → _ ∧ _
      obtain ⟨terminal, next, manager⟩ := kept q
      rw [terminal]
      intro last
      obtain ⟨none, bare⟩ := flagged.bare q last
      exact ⟨next.trans none, manager.trans bare⟩

theorem flagged_built (exec : Nat → Bytes → Bool) (managers : Nat → RegexManager)
    (calls : List RegexCall) : Flagged calls (built exec managers calls) := by
  induction calls using List.reverseRecOn with
  | nil => exact ⟨fun r => by simp [built], fun r _ => ⟨rfl, rfl⟩⟩
  | append_singleton calls c ih =>
    unfold built at ih ⊢
    rw [List.foldl_append]
    exact flagged_call ih c

/-! ### The loop as a walk -/

/-- The regex of the next turn. A regex that leads nowhere comes again. -/
def nextPrinted (h : Regexs) (r : Nat) : Option Nat :=
  if (h.regexs r).isTerminal = false then
    match (h.regexs r).regexMng with
    | some _ => none
    | none => some ((h.regexs r).nextRegex.getD r)
  else none

/-- One turn. -/
theorem printLoop_succ (getName : Nat → List Char) (h : Regexs) (turns tabs ssig : Nat) :
    h.printLoop getName (turns + 1) tabs ssig =
      match h.nextPrinted ssig with
      | none => some [h.regexLine getName (tabs + 1) ssig]
      | some r =>
        (h.printLoop getName turns (tabs + 1) r).map (h.regexLine getName (tabs + 1) ssig :: ·) := by
  rw [printLoop, nextPrinted]
  by_cases more : (h.regexs ssig).isTerminal = false
  · simp only [if_pos more]
    cases (h.regexs ssig).regexMng with
    | some rmng => rfl
    | none => cases (h.regexs ssig).nextRegex <;> rfl
  · simp only [if_neg more]

theorem printLoop_walk (getName : Nat → List Char) (h : Regexs) (turns tabs ssig : Nat) :
    (h.printLoop getName turns tabs ssig).map (List.map RegexLine.regex) =
      Walks.walk h.nextPrinted turns ssig := by
  induction turns generalizing tabs ssig with
  | zero => rfl
  | succ turns ih =>
    rw [printLoop_succ, Walks.walk]
    cases h.nextPrinted ssig with
    | none => rfl
    | some r =>
      simp only
      rw [← ih (tabs + 1) r, Option.map_map, Option.map_map]
      rfl

theorem printLoop_mono {getName : Nat → List Char} {turns tabs ssig : Nat} {lines : List RegexLine}
    (ends : h.printLoop getName turns tabs ssig = some lines) {more : Nat} (enough : turns ≤ more) :
    h.printLoop getName more tabs ssig = some lines := by
  induction turns generalizing more tabs ssig lines with
  | zero => cases ends
  | succ turns ih =>
    obtain ⟨more, rfl⟩ : ∃ k, more = k + 1 := ⟨more - 1, by omega⟩
    rw [printLoop_succ] at ends ⊢
    cases next : h.nextPrinted ssig with
    | none =>
      rw [next] at ends
      exact ends
    | some r =>
      rw [next] at ends
      obtain ⟨rest, later, rfl⟩ := Option.map_eq_some_iff.mp ends
      simp only [ih later (Nat.le_of_succ_le_succ enough), Option.map_some]

/-! ### When the output ends -/

theorem nextPrinted_follows (flagged : Flagged calls h) {q r : Nat}
    (bare : (h.regexs q).regexMng = none) (next : (h.regexs q).nextRegex = some r) :
    h.nextPrinted q = some r := by
  have more : (h.regexs q).isTerminal = false := by
    by_contra last
    have none := (flagged.bare q (by simpa using last)).1
    exact absurd (none.symm.trans next) (by simp)
  unfold nextPrinted
  rw [if_pos more, bare, next]
  rfl

theorem nextPrinted_dangles (flagged : Flagged calls h) {r : Nat} (dangles : h.Dangles calls r) :
    h.nextPrinted r = some r := by
  obtain ⟨set, next, bare⟩ := dangles
  unfold nextPrinted
  rw [if_pos ((flagged.set r).mpr set), bare, next]
  rfl

/-- A turn goes to the next regex, or the regex dangles. -/
theorem nextPrinted_cases (flagged : Flagged calls h) {q r : Nat} (turn : h.nextPrinted q = some r) :
    ((h.regexs q).regexMng = none ∧ (h.regexs q).nextRegex = some r) ∨ h.Dangles calls q := by
  unfold nextPrinted at turn
  split at turn
  · rename_i more
    split at turn
    · cases turn
    · rename_i bare
      cases next : (h.regexs q).nextRegex with
      | none => exact Or.inr ⟨(flagged.set q).mp more, next, bare⟩
      | some raux =>
        rw [next] at turn
        exact Or.inl ⟨bare, turn⟩
  · cases turn

theorem turns_of_follows (flagged : Flagged calls h) {sig r : Nat} (follows : h.Follows sig r) :
    Relation.ReflTransGen (Walks.Link h.nextPrinted) sig r := by
  induction follows with
  | refl => exact .refl
  | tail _ link ih => exact .tail ih (nextPrinted_follows flagged link.1 link.2)

/-- Where no regex dangles, the turns from a regex are the links behind it. -/
theorem follows_of_turns (flagged : Flagged calls h) {sig r : Nat}
    (sound : ∀ q, h.Follows sig q → ¬h.Dangles calls q)
    (turns : Relation.ReflTransGen (Walks.Link h.nextPrinted) sig r) : h.Follows sig r := by
  induction turns with
  | refl => exact .refl
  | tail _ turn ih =>
    rcases nextPrinted_cases flagged turn with follows | dangles
    · exact .tail ih follows
    · exact absurd dangles (sound _ ih)

theorem cycle_of_turns (flagged : Flagged calls h) {sig q r : Nat}
    (sound : ∀ q, h.Follows sig q → ¬h.Dangles calls q)
    (there : Relation.ReflTransGen (Walks.Link h.nextPrinted) sig q)
    (turns : Relation.TransGen (Walks.Link h.nextPrinted) q r) :
    Relation.TransGen (Walks.Link fun q => (h.regexs q).nextRegex) q r := by
  have link : ∀ {x y}, Relation.ReflTransGen (Walks.Link h.nextPrinted) sig x →
      h.nextPrinted x = some y → (h.regexs x).nextRegex = some y := by
    intro x y reached turn
    rcases nextPrinted_cases flagged turn with follows | dangles
    · exact follows.2
    · exact absurd dangles (sound x (follows_of_turns flagged sound reached))
  induction turns with
  | single turn => exact .single (link there turn)
  | tail before turn ih => exact .tail ih (link (there.trans before.to_reflTransGen) turn)

theorem printLoop_ends_iff (flagged : Flagged calls h) (acyclic : h.Acyclic)
    (getName : Nat → List Char) (sig : Nat) :
    (∃ turns lines, h.printLoop getName turns 0 sig = some lines) ↔
      ∀ r, h.Follows sig r → ¬h.Dangles calls r := by
  have walks : (∃ turns lines, h.printLoop getName turns 0 sig = some lines) ↔
      ∃ turns path, Walks.walk h.nextPrinted turns sig = some path := by
    refine exists_congr fun turns => ?_
    rw [← printLoop_walk getName h turns 0 sig]
    cases h.printLoop getName turns 0 sig <;> simp
  have listed : ∀ r, (h.nextPrinted r).isSome = true → r ∈ calls.filterMap RegexCall.sets := by
    intro r leads
    rw [List.mem_filterMap]
    refine (flagged.set r).mp ?_
    by_contra last
    simp [nextPrinted, last] at leads
  rw [walks, Walks.walk_ends_iff _ listed]
  constructor
  · intro ends r follows dangles
    have turns := turns_of_follows flagged follows
    exact ends r turns (.single (nextPrinted_dangles flagged dangles))
  · intro sound r there cycle
    exact acyclic r (cycle_of_turns flagged sound there cycle)

theorem printLoop_nodup {getName : Nat → List Char} {turns tabs sig : Nat} {lines : List RegexLine}
    (ends : h.printLoop getName turns tabs sig = some lines) :
    (lines.map RegexLine.regex).Nodup := by
  have walked := printLoop_walk getName h turns tabs sig
  rw [ends] at walked
  exact Walks.walk_nodup walked.symm

theorem printSignatures_some {getName : Nat → List Char} {turns : Nat} {sigs : List Nat}
    {chains : List (List RegexLine)} (ends : h.printSignatures getName turns sigs = some chains) :
    (∀ sig ∈ sigs, ∃ lines, h.printLoop getName turns 0 sig = some lines) ∧
      ∀ chain ∈ chains, (chain.map RegexLine.regex).Nodup := by
  induction sigs generalizing chains with
  | nil =>
    obtain rfl := Option.some.inj ends
    exact ⟨fun sig no => absurd no (by simp), fun chain no => absurd no (by simp)⟩
  | cons sig rest ih =>
    rw [printSignatures] at ends
    split at ends
    · rename_i chain later printed others
      obtain rfl := Option.some.inj ends
      obtain ⟨each, distinct⟩ := ih others
      refine ⟨fun other member => ?_, fun other member => ?_⟩
      · rcases List.mem_cons.mp member with rfl | behind
        · exact ⟨chain, printed⟩
        · exact each other behind
      · rcases List.mem_cons.mp member with rfl | behind
        · exact printLoop_nodup printed
        · exact distinct other behind
    · cases ends

/-- So many turns are enough for all signatures. -/
theorem printSignatures_ends {getName : Nat → List Char} {sigs : List Nat}
    (each : ∀ sig ∈ sigs, ∃ turns lines, h.printLoop getName turns 0 sig = some lines) :
    ∃ turns chains, ∀ more, turns ≤ more → h.printSignatures getName more sigs = some chains := by
  induction sigs with
  | nil => exact ⟨0, [], fun _ _ => rfl⟩
  | cons sig rest ih =>
    obtain ⟨turns, chain, printed⟩ := each sig List.mem_cons_self
    obtain ⟨turns', chains, others⟩ := ih fun other member => each other (List.mem_cons_of_mem _ member)
    refine ⟨max turns turns', chain :: chains, fun more enough => ?_⟩
    rw [printSignatures, printLoop_mono printed (by omega), others more (by omega)]

/-- The output of a manager ends when that of each signature does. -/
theorem printed_signatures (getName : Nat → List Char) (h : Regexs) (m : Nat) :
    Printed getName h m ↔ ∀ sig ∈ (h.managers m).signatures,
      ∃ turns lines, h.printLoop getName turns 0 sig = some lines := by
  constructor
  · rintro ⟨turns, chains, ends, -⟩ sig member
    obtain ⟨lines, printed⟩ := (printSignatures_some ends).1 sig member
    exact ⟨turns, lines, printed⟩
  · intro each
    obtain ⟨turns, chains, ends⟩ := printSignatures_ends each
    have printed := ends turns (Nat.le_refl _)
    exact ⟨turns, chains, printed, (printSignatures_some printed).2⟩

/-- Links that only lead upwards form no cycle. -/
theorem acyclic_of_forward (forward : ∀ q r, (h.regexs q).nextRegex = some r → q < r) : h.Acyclic := by
  have further : ∀ q r, Relation.TransGen (Walks.Link fun q => (h.regexs q).nextRegex) q r → q < r := by
    intro q r path
    induction path with
    | single link => exact forward _ _ link
    | tail _ link ih => exact Nat.lt_trans ih (forward _ _ link)
  exact fun r cycle => Nat.lt_irrefl r (further r r cycle)

/-- Where the next regexes form no cycle, the output ends, with every regex of a signature printed once,
exactly when no signature leads to a regex that a setter was called on in vain. -/
theorem printed_iff (exec : Nat → Bytes → Bool) (managers : Nat → RegexManager)
    (calls : List RegexCall) (acyclic : (built exec managers calls).Acyclic)
    (getName : Nat → List Char) (m : Nat) :
    Printed getName (built exec managers calls) m ↔
      ∀ sig ∈ ((built exec managers calls).managers m).signatures,
        ∀ r, (built exec managers calls).Follows sig r → ¬(built exec managers calls).Dangles calls r := by
  rw [printed_signatures]
  exact forall₂_congr fun sig _ =>
    printLoop_ends_iff (flagged_built exec managers calls) acyclic getName sig

/-- A regex and its next one. -/
theorem printed_iff_two :
    Printed (fun _ => []) (built (fun _ _ => false) (fun _ => { signatures := [0] })
        [.setNextRegex 0 (some 1)]) 0 ↔
      ∀ sig ∈ ((built (fun _ _ => false) (fun _ => { signatures := [0] })
          [.setNextRegex 0 (some 1)]).managers 0).signatures,
        ∀ r, (built (fun _ _ => false) (fun _ => { signatures := [0] })
            [.setNextRegex 0 (some 1)]).Follows sig r →
          ¬(built (fun _ _ => false) (fun _ => { signatures := [0] })
            [.setNextRegex 0 (some 1)]).Dangles [.setNextRegex 0 (some 1)] r := by
  refine printed_iff _ _ _ (acyclic_of_forward fun q r link => ?_) _ 0
  by_cases first : q = 0 <;>
    simp [built, call, setRegex, PayloadRegex.setNextRegex, first] at link
  omega

/-- A regex whose manager is set to null, as the only signature: the loop does not end. -/
theorem not_always_printed :
    ¬∀ (exec : Nat → Bytes → Bool) (managers : Nat → RegexManager) (calls : List RegexCall),
      (built exec managers calls).Acyclic → ∀ getName m, Printed getName (built exec managers calls) m := by
  intro h
  have acyclic : (built (fun _ _ => false) (fun _ => { signatures := [0] })
      [.setNextRegexManager 0 none]).Acyclic := by
    refine acyclic_of_forward fun q r link => ?_
    by_cases first : q = 0 <;>
      simp [built, call, setRegex, PayloadRegex.setNextRegexManager, first] at link
  have printed := h _ _ _ acyclic (fun _ => []) 0
  have ends := (printed_signatures _ _ _).mp printed 0 (by decide)
  refine (printLoop_ends_iff (flagged_built _ _ _) acyclic _ 0).mp ends 0 .refl ?_
  exact ⟨⟨.setNextRegexManager 0 none, List.mem_singleton_self _, rfl⟩, rfl, rfl⟩

end AIEngine.Regexs
