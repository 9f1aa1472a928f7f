import AIEngine.Library.Endings
import AIEngine.Stack.Multiplexer

/-!
# MPLS (`MPLSProtocol.cc`, `MPLSProtocol.h`)

A stack of labels stands in front of the header of IP, four octets each; the lowest one is marked. The
loop looks for it in three entries at most.
-/

namespace AIEngine

open Stack (Packet)

structure MPLSProtocol where
  totalPackets : Nat := 0
  totalValidatedPackets : Nat := 0
  totalMalformedPackets : Nat := 0
  totalBytes : Int := 0
  deriving DecidableEq, Repr

namespace MPLSProtocol

/-- `MPLS_HEADER_LEN` -/
def headerSize : Nat := 4

/-- `ETHERTYPE_IP` -/
def ethertypeIp : BitVec 16 := 0x0800

def mplsChecker (mpls : MPLSProtocol) (p : Packet) : Bool × MPLSProtocol :=
  if headerSize ≤ p.length then
    (true, { mpls with totalValidatedPackets := mpls.totalValidatedPackets + 1 })
  else (false, { mpls with totalMalformedPackets := mpls.totalMalformedPackets + 1 })

/-- The local variables of the loop; `mplsHeader` is a place in the packet. -/
structure Scan where
  label : BitVec 32 := 0
  mplsHeader : Nat := 0
  mplsHeaderSize : Nat := 0
  counter : Nat := 0
  deriving DecidableEq, Repr

/-- One iteration, and whether there is another one. -/
def visit (p : Packet) (w : Scan) : Except Fault (Bool × Scan) := do
  let high ← p.byte w.mplsHeader
  let middle ← p.byte (w.mplsHeader + 1)
  let low ← p.byte (w.mplsHeader + 2)
  let label := high.setWidth 32 <<< 12 ||| middle.setWidth 32 <<< 4 ||| low.setWidth 32 >>> 4
  .ok (!(low.getLsbD 0 || decide (2 < w.counter + 1)),
    { label := label
      mplsHeader := w.mplsHeader + 4
      mplsHeaderSize := w.mplsHeaderSize + 4
      counter := w.counter + 1 })

/-- The loop, with the iterations that are left; the counter ends it before they do. -/
def loop (p : Packet) (w : Scan) : Nat → Except Fault Scan
  | 0 => .ok w
  | n + 1 => do
    let (sw, w) ← visit p w
    if sw then loop p w n else .ok w

/-- Every packet goes on. -/
def processPacket (mpls : MPLSProtocol) (mux : Option Multiplexer) (p : Packet) :
    Except Fault (Bool × MPLSProtocol × Option Multiplexer × Packet) := do
  let mpls := { mpls with
    totalPackets := mpls.totalPackets + 1
    totalBytes := mpls.totalBytes + p.length }
  match mux with
  | none => .ok (true, mpls, none, p)
  | some m => do
    let w ← loop p {} 3
    .ok (true, mpls, some { m with headerSize := w.mplsHeaderSize, nextProtocolId := ethertypeIp },
      { p with prevHeaderSize := w.mplsHeaderSize })

/-! ### The stack of labels -/

variable {mpls : MPLSProtocol} {m : Multiplexer} {p : Packet} {w : Scan} {n d k : Nat}

def Marked (p : Packet) (k : Nat) : Prop := (p.curr.octet (4 * k + 2)).getLsbD 0 = true

instance (p : Packet) (k : Nat) : Decidable (Marked p k) := inferInstanceAs (Decidable (_ = true))

/-- A stack of `d` labels that is complete in the packet. -/
structure LabelStack (p : Packet) (d : Nat) : Prop where
  some : 1 ≤ d
  inside : (4 * d : Int) ≤ p.length
  bottom : Marked p (d - 1)
  above : ∀ k, k + 1 < d → ¬Marked p k

/-- The variables in front of the entry `k`. -/
def Scan.At (w : Scan) (k : Nat) : Prop :=
  w.mplsHeader = 4 * k ∧ w.mplsHeaderSize = 4 * k ∧ w.counter = k

/-- Three octets of the entry are read, the last one of which has the mark. -/
theorem visit_inside (here : w.At k) (inside : 4 * k + 3 ≤ p.curr.memory.length) :
    ∃ w', visit p w = .ok (decide (¬Marked p k ∧ k < 2), w') ∧ w'.At (k + 1) := by
  obtain ⟨place, size, counter⟩ := here
  have low : p.byte (4 * k + 2) = .ok (p.curr.octet (4 * k + 2)) :=
    RawPacket.byte_octet (by omega)
  have middle : p.byte (4 * k + 1) = .ok (p.curr.octet (4 * k + 1)) :=
    RawPacket.byte_octet (by omega)
  have high : p.byte (4 * k) = .ok (p.curr.octet (4 * k)) := RawPacket.byte_octet (by omega)
  unfold visit
  rw [place, high, middle, low]
  refine ⟨_, congrArg (fun b => Except.ok (b, _)) ?_, rfl, ?_, ?_⟩
  · rw [counter, Bool.eq_iff_iff]
    simp only [Bool.not_eq_true', Bool.or_eq_false_iff, decide_eq_false_iff_not, decide_eq_true_eq,
      Marked, Bool.not_eq_true]
    exact and_congr Iff.rfl (by omega)
  · show w.mplsHeaderSize + 4 = 4 * (k + 1)
    omega
  · show w.counter + 1 = k + 1
    omega

theorem visit_outside (here : w.At k) (outside : p.curr.memory.length < 4 * k + 3) :
    visit p w = .error .outOfBounds := by
  obtain ⟨place, -⟩ := here
  unfold visit Packet.byte
  rw [place]
  by_cases first : 4 * k < p.curr.memory.length
  · rw [RawPacket.byte_octet first]
    by_cases second : 4 * k + 1 < p.curr.memory.length
    · rw [RawPacket.byte_octet second, RawPacket.byte_outside (by omega)]
      rfl
    · rw [RawPacket.byte_outside (by omega)]
      rfl
  · rw [RawPacket.byte_outside (by omega)]
    rfl

/-- The entry at which the loop ends, when it is inside: the first marked one, or the third. -/
structure Last (p : Packet) (k r : Nat) : Prop where
  after : k ≤ r
  limit : r ≤ 2
  above : ∀ j, k ≤ j → j < r → ¬Marked p j
  ends : Marked p r ∨ r = 2

theorem loop_last {r : Nat} (here : w.At k) (last : Last p k r)
    (inside : 4 * r + 3 ≤ p.curr.memory.length) (enough : r < k + n) :
    ∃ w', loop p w n = .ok w' ∧ w'.At (r + 1) := by
  induction n generalizing w k with
  | zero =>
    have after := last.after
    omega
  | succ n ih =>
    have after := last.after
    obtain ⟨w', visited, next⟩ := visit_inside (p := p) here (by omega)
    unfold loop
    rw [visited]
    simp only [bind, Except.bind, decide_eq_true_eq]
    by_cases final : k = r
    · subst final
      have stops : ¬(¬Marked p k ∧ k < 2) := by
        rintro ⟨unmarked, early⟩
        rcases last.ends with marked | third
        · exact unmarked marked
        · omega
      rw [if_neg stops]
      exact ⟨w', rfl, next⟩
    · have goes : ¬Marked p k ∧ k < 2 := by
        have limit := last.limit
        exact ⟨last.above k (Nat.le_refl _) (by omega), by omega⟩
      rw [if_pos goes]
      have rest : Last p (k + 1) r :=
        ⟨by omega, last.limit, fun j behind before => last.above j (by omega) before, last.ends⟩
      exact ih next rest (by omega)

theorem loop_outside {r : Nat} (here : w.At k) (after : k ≤ r) (limit : r ≤ 2)
    (above : ∀ j, k ≤ j → j < r → ¬Marked p j) (outside : p.curr.memory.length < 4 * r + 3)
    (enough : r < k + n) : loop p w n = .error .outOfBounds := by
  induction n generalizing w k with
  | zero => omega
  | succ n ih =>
    unfold loop
    by_cases missing : p.curr.memory.length < 4 * k + 3
    · rw [visit_outside here missing]
      rfl
    · obtain ⟨w', visited, next⟩ := visit_inside (p := p) here (by omega)
      have goes : ¬Marked p k ∧ k < 2 := ⟨above k (Nat.le_refl _) (by omega), by omega⟩
      rw [visited]
      simp only [bind, Except.bind, decide_eq_true_eq]
      rw [if_pos goes]
      exact ih next (by omega) (fun j behind before => above j (by omega) before) (by omega)

/-! ### The size of the stack -/

theorem start_at : ({} : Scan).At 0 := ⟨rfl, rfl, rfl⟩

def StepsOver (mpls : MPLSProtocol) (m : Multiplexer) (p : Packet) (d : Nat) : Prop :=
  ∃ mpls' m' p', mpls.processPacket (some m) p = .ok (true, mpls', some m', p') ∧
    m'.headerSize = 4 * d

def ReadsInside (mpls : MPLSProtocol) (m : Multiplexer) (p : Packet) : Prop :=
  mpls.processPacket (some m) p ≠ .error .outOfBounds

theorem processPacket_last {r : Nat} (last : Last p 0 r)
    (inside : 4 * r + 3 ≤ p.curr.memory.length) :
    mpls.ReadsInside m p ∧ ∀ d, mpls.StepsOver m p d ↔ d = r + 1 := by
  have limit := last.limit
  obtain ⟨w, looped, -, size, -⟩ := loop_last start_at last inside (n := 3) (by omega)
  have processed : ∃ mpls' p', mpls.processPacket (some m) p = .ok (true, mpls',
      some { m with headerSize := w.mplsHeaderSize, nextProtocolId := ethertypeIp }, p') := by
    unfold processPacket
    rw [looped]
    exact ⟨_, _, rfl⟩
  obtain ⟨mpls', p', processed⟩ := processed
  refine ⟨?_, fun d => ?_⟩
  · unfold ReadsInside
    rw [processed]
    simp
  · unfold StepsOver
    rw [processed]
    constructor
    · rintro ⟨_, _, _, same, steps⟩
      simp only [Except.ok.injEq, Prod.mk.injEq, Option.some.injEq] at same
      rw [← same.2.2.1] at steps
      dsimp only at steps
      omega
    · rintro rfl
      exact ⟨_, _, _, rfl, size⟩

theorem processPacket_outside {r : Nat} (limit : r ≤ 2) (above : ∀ j < r, ¬Marked p j)
    (outside : p.curr.memory.length < 4 * r + 3) : ¬mpls.ReadsInside m p := by
  have failed := loop_outside (p := p) (n := 3) start_at (Nat.zero_le r) limit
    (fun j _ before => above j before) outside (by omega)
  intro inside
  apply inside
  unfold processPacket
  rw [failed]
  rfl

/-- The first mark, with what is read of its entry, stands inside the packet. -/
structure FirstMark (p : Packet) (k : Nat) : Prop where
  inside : (4 * k + 3 : Int) ≤ p.length
  marked : Marked p k
  above : ∀ j < k, ¬Marked p j

theorem FirstMark.stack {d : Nat} (first : FirstMark p k) (stack : LabelStack p d) : d = k + 1 := by
  have positive := stack.some
  by_contra different
  rcases Nat.lt_or_ge (d - 1) k with before | behind
  · exact first.above (d - 1) before stack.bottom
  · exact stack.above k (by omega) first.marked

theorem FirstMark.last (first : FirstMark p k) (early : k < 3) : Last p 0 k :=
  ⟨Nat.zero_le k, by omega, fun j _ before => first.above j before, Or.inl first.marked⟩

/-- The packet is read inside and a complete stack is stepped over. -/
def Handles (mpls : MPLSProtocol) (m : Multiplexer) (p : Packet) : Prop :=
  (∀ d, LabelStack p d → mpls.StepsOver m p d) ∧ mpls.ReadsInside m p

/-- The bottom is one of three entries, or there are three and no complete stack. -/
def Short (p : Packet) : Prop :=
  (∃ k < 3, FirstMark p k) ∨ 11 ≤ p.length ∧ ∀ d, ¬LabelStack p d

theorem handles_iff (strict : (p.curr.memory.length : Int) = p.length)
    (accepted : (mpls.mplsChecker p).1 = true) : mpls.Handles m p ↔ Short p := by
  have long : 4 ≤ p.length := by
    unfold mplsChecker at accepted
    split at accepted
    · assumption
    · exact absurd accepted (by simp)
  by_cases known : ∃ k < 3, FirstMark p k
  · refine iff_of_true ?_ (Or.inl known)
    obtain ⟨k, early, first⟩ := known
    have bound := first.inside
    obtain ⟨inside, steps⟩ := @processPacket_last mpls m _ _ (first.last early) (by omega)
    exact ⟨fun d stack => (steps d).mpr (first.stack stack), inside⟩
  · have unmarked : ∀ k : Nat, k < 3 → (4 * k + 3 : Int) ≤ p.length → ¬Marked p k := by
      intro k early inside marked
      induction k using Nat.strongRecOn with
      | ind k ih =>
        refine known ⟨k, early, inside, marked, fun j before => ?_⟩
        exact fun marked => ih j before (by omega) (by omega) marked
    unfold Short
    rw [or_iff_right known]
    by_cases three : 11 ≤ p.length
    · rw [and_iff_right three]
      have last : Last p 0 2 :=
        ⟨by omega, (Nat.le_refl _), fun j _ before => unmarked j (by omega) (by omega), Or.inr rfl⟩
      obtain ⟨inside, steps⟩ := @processPacket_last mpls m _ _ last (by omega)
      constructor
      · intro handles d stack
        obtain rfl := (steps d).mp (handles.1 d stack)
        exact unmarked 2 (by omega) (by omega) stack.bottom
      · exact fun none => ⟨fun d stack => absurd stack (none d), inside⟩
    · refine iff_of_false (fun handles => ?_) fun both => three both.1
      by_cases two : 7 ≤ p.length
      · refine processPacket_outside (r := 2) (Nat.le_refl _) (fun j before => ?_) (by omega) handles.2
        exact unmarked j (by omega) (by omega)
      · refine processPacket_outside (r := 1) (by omega) (fun j before => ?_) (by omega) handles.2
        exact unmarked j (by omega) (by omega)

/-- One label, not marked, with nothing behind it. -/
def cutShort : Packet :=
  let octets : Bytes := [0, 1, 0, 64]
  { curr := { memory := octets, length := 4, held := by decide }
    net := { memory := octets, length := 4, held := by decide } }

theorem handles_iff_cutShort : ({} : MPLSProtocol).Handles {} cutShort ↔ Short cutShort :=
  handles_iff (by decide) (by decide)

theorem not_handles :
    ¬∀ (mpls : MPLSProtocol) (m : Multiplexer) (p : Packet),
      (p.curr.memory.length : Int) = p.length → (mpls.mplsChecker p).1 = true →
        mpls.Handles m p := by
  intro all
  exact (all {} {} cutShort (by decide) (by decide)).2 (by decide)

end MPLSProtocol

end AIEngine
