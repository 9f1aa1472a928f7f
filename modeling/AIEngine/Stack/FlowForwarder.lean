import AIEngine.Cache
import Mathlib.Data.List.Nodup

/-!
# Forwarder lists (`FlowForwarder.h`, `NetworkStack.cc`)

A transport's forwarder asks the forwarders above it in the order of its list. The two engines are
switched by positions in this list: one takes out whatever stands last, the other appends all the
protocols without a look at those that are there.
-/

namespace AIEngine

/-- The forwarders of a network stack, all of which live as long as it does. -/
inductive FlowForwarder where
  | http | ssl | smtp | imap | pop | tcpGeneric | tcpFreqs
  | dns | sip | dhcp | ntp | snmp | ssdp | udpGeneric | udpFreqs
  deriving DecidableEq, Repr

namespace FlowForwarder

def insertUpFlowForwarder (v : List FlowForwarder) (mux : FlowForwarder) : List FlowForwarder :=
  mux :: v

def addUpFlowForwarder (v : List FlowForwarder) (mux : FlowForwarder) : List FlowForwarder :=
  v ++ [mux]

/-- `removeUpFlowForwarder()` is a `pop_back`, which an empty vector does not have. -/
def removeLastUpFlowForwarder (v : List FlowForwarder) : Except Fault (List FlowForwarder) :=
  if v = [] then .error .outOfBounds else .ok v.dropLast

def removeUpFlowForwarder (v : List FlowForwarder) (mux : FlowForwarder) : List FlowForwarder :=
  v.erase mux

end FlowForwarder

open FlowForwarder

namespace NetworkStack

def enableFlowForwarders (v fps : List FlowForwarder) : List FlowForwarder :=
  fps.foldl addUpFlowForwarder v

def disableFlowForwarders (v fps : List FlowForwarder) : List FlowForwarder :=
  fps.foldl removeUpFlowForwarder v

theorem enableFlowForwarders_eq (v fps : List FlowForwarder) :
    enableFlowForwarders v fps = v ++ fps := by
  unfold enableFlowForwarders
  induction fps generalizing v with
  | nil => simp
  | cons f rest ih =>
    rw [List.foldl_cons, ih]
    simp [addUpFlowForwarder]

/-- What is not in the list to take out stays. -/
theorem disableFlowForwarders_skip {v fps : List FlowForwarder} {f : FlowForwarder}
    (other : f ∉ fps) : disableFlowForwarders (f :: v) fps = f :: disableFlowForwarders v fps := by
  unfold disableFlowForwarders
  induction fps generalizing v with
  | nil => rfl
  | cons x rest ih =>
    have apart : f ≠ x := fun same => other (same ▸ List.mem_cons_self)
    have erased : removeUpFlowForwarder (f :: v) x = f :: removeUpFlowForwarder v x :=
      List.erase_cons_tail (by simpa using apart)
    rw [List.foldl_cons, erased, ih (fun member => other (List.mem_cons_of_mem x member))]
    rfl

theorem disableFlowForwarders_nil (fps : List FlowForwarder) :
    disableFlowForwarders [] fps = [] := by
  unfold disableFlowForwarders
  induction fps with
  | nil => rfl
  | cons x rest ih => exact ih

theorem disableFlowForwarders_front (d v : List FlowForwarder) :
    disableFlowForwarders (d ++ v) d = v := by
  unfold disableFlowForwarders
  induction d with
  | nil => rfl
  | cons x rest ih =>
    have erased : removeUpFlowForwarder (x :: rest ++ v) x = rest ++ v :=
      List.erase_cons_head x (rest ++ v)
    rw [List.foldl_cons, erased]
    exact ih

end NetworkStack

open NetworkStack

/-! ### The switches on one list -/

/-- `enableFrequencyEngine` on the list that `f` counts for. -/
def switchFrequency (f : FlowForwarder) (v : List FlowForwarder) (enable : Bool) :
    Except Fault (List FlowForwarder) :=
  match removeLastUpFlowForwarder v with
  | .ok v => .ok (if enable then insertUpFlowForwarder v f else removeUpFlowForwarder v f)
  | .error e => .error e

/-- `enableNIDSEngine` on the list of the protocols `d` and the generic one `g`. -/
def switchNIDS (d : List FlowForwarder) (g : FlowForwarder) (v : List FlowForwarder)
    (enable : Bool) : List FlowForwarder :=
  if enable then disableFlowForwarders v d
  else enableFlowForwarders (disableFlowForwarders v [g]) (d ++ [g])

/-- The protocols, the generic one and the frequencies are all different. -/
structure Apart (d : List FlowForwarder) (g f : FlowForwarder) : Prop where
  nonempty : d ≠ []
  nodup : d.Nodup
  generic : g ∉ d
  freqs : f ∉ d
  ends : f ≠ g

/-- No forwarder twice, and the constructor's list when both engines are off. -/
def Restored (d : List FlowForwarder) (g : FlowForwarder) (frequency nids : Bool)
    (v : List FlowForwarder) : Prop :=
  v.Nodup ∧ (frequency = false → nids = false → v = d ++ [g])

instance (d : List FlowForwarder) (g : FlowForwarder) (frequency nids : Bool)
    (v : List FlowForwarder) : Decidable (Restored d g frequency nids v) :=
  inferInstanceAs (Decidable (_ ∧ _))

/-- The lists that come about while every switch restores what it has to. -/
inductive Shape (d : List FlowForwarder) (g f : FlowForwarder) :
    Bool → Bool → List FlowForwarder → Prop where
  | plain : Shape d g f false false (d ++ [g])
  | counted : Shape d g f true false (f :: d)
  | countedGeneric : Shape d g f true false (f :: (d ++ [g]))
  | narrow : Shape d g f false true [g]
  | bare : Shape d g f false true []
  | narrowCounted : Shape d g f true true [f]
  | narrowCountedGeneric : Shape d g f true true [f, g]

section Shapes

variable {d : List FlowForwarder} {g f : FlowForwarder} {frequency nids : Bool}
  {v w : List FlowForwarder}

theorem nodup_generic (apart : Apart d g f) : (d ++ [g]).Nodup :=
  List.nodup_append.mpr ⟨apart.nodup, List.nodup_singleton g, fun x member y single => by
    rw [List.mem_singleton.mp single]
    exact fun same => apart.generic (same ▸ member)⟩

theorem freqs_not_mem (apart : Apart d g f) : f ∉ d ++ [g] := by
  intro member
  rcases List.mem_append.mp member with front | last
  · exact apart.freqs front
  · exact apart.ends (List.mem_singleton.mp last)

theorem Shape.restored (apart : Apart d g f) (shape : Shape d g f frequency nids v) :
    Restored d g frequency nids v := by
  have both := nodup_generic apart
  cases shape with
  | plain => exact ⟨both, fun _ _ => rfl⟩
  | counted => exact ⟨List.nodup_cons.mpr ⟨apart.freqs, apart.nodup⟩, fun off => absurd off (by simp)⟩
  | countedGeneric =>
    exact ⟨List.nodup_cons.mpr ⟨freqs_not_mem apart, both⟩, fun off => absurd off (by simp)⟩
  | narrow => exact ⟨List.nodup_singleton g, fun _ off => absurd off (by simp)⟩
  | bare => exact ⟨List.nodup_nil, fun _ off => absurd off (by simp)⟩
  | narrowCounted => exact ⟨List.nodup_singleton f, fun off => absurd off (by simp)⟩
  | narrowCountedGeneric =>
    exact ⟨List.nodup_cons.mpr ⟨by simpa using apart.ends, List.nodup_singleton g⟩,
      fun off => absurd off (by simp)⟩

/-- The engine may go on when the last forwarder can make room for it. -/
def MayCount (f : FlowForwarder) (v : List FlowForwarder) : Prop := v ≠ [] ∧ f ∉ v.dropLast

instance (f : FlowForwarder) (v : List FlowForwarder) : Decidable (MayCount f v) :=
  inferInstanceAs (Decidable (_ ∧ _))

theorem switchFrequency_append (x : FlowForwarder) (enable : Bool) :
    switchFrequency f (v ++ [x]) enable =
      .ok (if enable then f :: v else v.erase f) := by
  unfold switchFrequency removeLastUpFlowForwarder
  rw [if_neg (by simp), List.dropLast_concat]
  rfl

/-- Switching the frequencies on puts them in front of the list without its last forwarder. -/
theorem frequency_on (apart : Apart d g f) (shape : Shape d g f frequency nids v) :
    ((∃ w, switchFrequency f v true = .ok w ∧ Restored d g true nids w) ↔ MayCount f v) ∧
      ∀ w, switchFrequency f v true = .ok w → Restored d g true nids w →
        Shape d g f true nids w := by
  by_cases empty : v = []
  · subst empty
    exact ⟨iff_of_false (fun ⟨w, ran, _⟩ => by cases ran) (fun may => may.1 rfl),
      fun w ran => by cases ran⟩
  · obtain ⟨u, x, rfl⟩ : ∃ u x, v = u ++ [x] :=
      ⟨v.dropLast, v.getLast empty, (List.dropLast_append_getLast empty).symm⟩
    have before := (shape.restored apart).1
    have kept : u.Nodup := (List.nodup_append.mp before).1
    rw [switchFrequency_append]
    refine ⟨⟨?_, ?_⟩, ?_⟩
    · rintro ⟨w, ran, nodup, -⟩
      obtain rfl := Except.ok.inj ran
      refine ⟨empty, ?_⟩
      rw [List.dropLast_concat]
      exact (List.nodup_cons.mp nodup).1
    · rintro ⟨-, fresh⟩
      rw [List.dropLast_concat] at fresh
      exact ⟨_, rfl, List.nodup_cons.mpr ⟨fresh, kept⟩, fun off => absurd off (by simp)⟩
    · intro w ran restored
      obtain rfl := Except.ok.inj ran
      have fresh : f ∉ u := (List.nodup_cons.mp restored.1).1
      have front : u = (u ++ [x]).dropLast := List.dropLast_concat.symm
      generalize u ++ [x] = v at shape front
      cases shape with
      | plain =>
        rw [List.dropLast_concat] at front
        subst front
        exact .counted
      | narrow =>
        subst front
        exact .narrowCounted
      | bare =>
        subst front
        exact .narrowCounted
      | narrowCounted =>
        subst front
        exact .narrowCounted
      | narrowCountedGeneric =>
        subst front
        exact absurd List.mem_cons_self fresh
      | counted =>
        rw [List.dropLast_cons_of_ne_nil apart.nonempty] at front
        subst front
        exact absurd List.mem_cons_self fresh
      | countedGeneric =>
        rw [List.dropLast_cons_of_ne_nil (by simp)] at front
        subst front
        exact absurd List.mem_cons_self fresh

/-- Switching them off works only when the protocols are not in the list, and always takes the
generic forwarder along. -/
theorem frequency_off (apart : Apart d g f) (shape : Shape d g f frequency nids v) :
    ((∃ w, switchFrequency f v false = .ok w ∧ Restored d g false nids w) ↔
        nids = true ∧ v ≠ []) ∧
      ∀ w, switchFrequency f v false = .ok w → Restored d g false nids w →
        Shape d g f false nids w := by
  have fails : ∀ v u, switchFrequency f v false = .ok u → u.length ≤ d.length →
      ((∃ w, switchFrequency f v false = .ok w ∧ Restored d g false false w) ↔
          false = true ∧ v ≠ []) ∧
        ∀ w, switchFrequency f v false = .ok w → Restored d g false false w →
          Shape d g f false false w := by
    intro v u ran short
    have lost : ∀ w, switchFrequency f v false = .ok w → ¬Restored d g false false w := by
      intro w same restored
      obtain rfl := Except.ok.inj (ran.symm.trans same)
      have length := congrArg List.length (restored.2 rfl rfl)
      simp only [List.length_append, List.length_singleton] at length
      omega
    exact ⟨iff_of_false (fun ⟨w, same, restored⟩ => lost w same restored) (by simp),
      fun w same restored => absurd restored (lost w same)⟩
  have succeeds : ∀ v, v ≠ [] → switchFrequency f v false = .ok [] →
      ((∃ w, switchFrequency f v false = .ok w ∧ Restored d g false true w) ↔
          true = true ∧ v ≠ []) ∧
        ∀ w, switchFrequency f v false = .ok w → Restored d g false true w →
          Shape d g f false true w := by
    intro v nonempty ran
    refine ⟨iff_of_true ⟨[], ran, List.nodup_nil, fun _ off => absurd off (by simp)⟩
      ⟨rfl, nonempty⟩, fun w same restored => ?_⟩
    obtain rfl := Except.ok.inj (ran.symm.trans same)
    exact .bare
  cases shape with
  | plain =>
    apply fails _ _ (switchFrequency_append g false)
    exact List.erase_sublist.length_le
  | counted =>
    apply fails _ d.dropLast ?_ (by simp)
    unfold switchFrequency removeLastUpFlowForwarder
    rw [if_neg (by simp), List.dropLast_cons_of_ne_nil apart.nonempty]
    exact congrArg Except.ok (List.erase_cons_head f _)
  | countedGeneric =>
    apply fails _ d ?_ (Nat.le_refl _)
    rw [← List.cons_append, switchFrequency_append]
    exact congrArg Except.ok (List.erase_cons_head f d)
  | narrow => exact succeeds _ (by simp) rfl
  | bare =>
    exact ⟨iff_of_false (fun ⟨w, ran, _⟩ => by cases ran) (by simp), fun w ran => by cases ran⟩
  | narrowCounted => exact succeeds _ (by simp) rfl
  | narrowCountedGeneric =>
    apply succeeds _ (by simp)
    exact congrArg Except.ok (List.erase_cons_head f [])

theorem switchNIDS_on : switchNIDS d g v true = disableFlowForwarders v d := rfl

theorem switchNIDS_off : switchNIDS d g v false = v.erase g ++ (d ++ [g]) :=
  enableFlowForwarders_eq _ _

/-- The protocols are taken out by name, wherever they stand. -/
theorem nids_on (apart : Apart d g f) (shape : Shape d g f frequency nids v) :
    Shape d g f frequency true (switchNIDS d g v true) := by
  have none : ∀ u : List FlowForwarder, (∀ x ∈ u, x ∉ d) → disableFlowForwarders u d = u := by
    intro u apart
    induction u with
    | nil => exact disableFlowForwarders_nil d
    | cons x rest ih =>
      rw [disableFlowForwarders_skip (apart x List.mem_cons_self),
        ih fun y member => apart y (List.mem_cons_of_mem x member)]
  rw [switchNIDS_on]
  cases shape with
  | plain =>
    rw [disableFlowForwarders_front]
    exact .narrow
  | counted =>
    have all := disableFlowForwarders_front d []
    rw [List.append_nil] at all
    rw [disableFlowForwarders_skip apart.freqs, all]
    exact .narrowCounted
  | countedGeneric =>
    rw [disableFlowForwarders_skip apart.freqs, disableFlowForwarders_front]
    exact .narrowCountedGeneric
  | narrow =>
    rw [none [g] (by simpa using apart.generic)]
    exact .narrow
  | bare =>
    rw [none [] (by simp)]
    exact .bare
  | narrowCounted =>
    rw [none [f] (by simpa using apart.freqs)]
    exact .narrowCounted
  | narrowCountedGeneric =>
    rw [none [f, g] (by simp [apart.freqs, apart.generic])]
    exact .narrowCountedGeneric

/-- They are appended whether or not they are still there. -/
theorem nids_off (apart : Apart d g f) (shape : Shape d g f frequency nids v) :
    (Restored d g frequency false (switchNIDS d g v false) ↔ nids = true) ∧
      (Restored d g frequency false (switchNIDS d g v false) →
        Shape d g f frequency false (switchNIDS d g v false)) := by
  obtain ⟨x, first⟩ := List.exists_mem_of_ne_nil d apart.nonempty
  have different : x ≠ g := fun same => apart.generic (same ▸ first)
  -- a protocol that is there already is there twice
  have twice : x ∈ v → ¬Restored d g frequency false (switchNIDS d g v false) := by
    intro there restored
    rw [switchNIDS_off] at restored
    have kept : x ∈ v.erase g := (List.mem_erase_of_ne different).mpr there
    exact (List.nodup_append.mp restored.1).2.2 x kept x (List.mem_append_left [g] first) rfl
  have once : ∀ u, Shape d g f frequency false u → switchNIDS d g v false = u →
      (Restored d g frequency false (switchNIDS d g v false) ↔ true = true) ∧
        (Restored d g frequency false (switchNIDS d g v false) →
          Shape d g f frequency false (switchNIDS d g v false)) := by
    intro u shape same
    rw [same]
    exact ⟨iff_of_true (shape.restored apart) rfl, fun _ => shape⟩
  cases shape with
  | plain =>
    have bad := twice (List.mem_append_left [g] first)
    exact ⟨iff_of_false bad (by simp), fun good => absurd good bad⟩
  | counted =>
    have bad := twice (List.mem_cons_of_mem f first)
    exact ⟨iff_of_false bad (by simp), fun good => absurd good bad⟩
  | countedGeneric =>
    have bad := twice (List.mem_cons_of_mem f (List.mem_append_left [g] first))
    exact ⟨iff_of_false bad (by simp), fun good => absurd good bad⟩
  | narrow =>
    apply once _ .plain
    rw [switchNIDS_off, List.erase_cons_head, List.nil_append]
  | bare =>
    apply once _ .plain
    rw [switchNIDS_off, List.erase_nil, List.nil_append]
  | narrowCounted =>
    apply once _ .countedGeneric
    rw [switchNIDS_off, List.erase_of_not_mem (by simpa using apart.ends.symm)]
    rfl
  | narrowCountedGeneric =>
    apply once _ .countedGeneric
    rw [switchNIDS_off, List.erase_cons_tail (by simpa using apart.ends), List.erase_cons_head]
    rfl

end Shapes

end AIEngine
