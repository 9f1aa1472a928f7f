import AIEngine.Applications.Reads

/-!
# Tables of commands

A table is gone through with `memcmp`, which looks at as many octets as the entry has. The models say
which entry is found; here the octets that are looked at count, too.
-/

namespace AIEngine

namespace HttpPacket

section Compare

variable {β α : Type} {p : L7Packet} {k : Nat} {commands : List (Bytes × β)}

/-- The loop over a table, with the octets that each entry is compared with. -/
def compare (p : L7Packet) (k : Nat) : List (Bytes × β) → Except Failure (Option (Bytes × β))
  | [] => .ok none
  | command :: rest => do
    let octets ← p.slice k command.1.length
    if octets = command.1 then .ok (some command) else compare p k rest

/-- The octets for each entry are there until one is found. -/
def Reaches (p : L7Packet) (k : Nat) : List (Bytes × β) → Prop
  | [] => True
  | command :: rest => k + command.1.length ≤ p.memory.length ∧
    (p.standsAt k command.1 = true ∨ Reaches p k rest)

theorem standsAt_iff (text : Bytes) :
    p.standsAt k text = true ↔ (p.memory.drop k).take text.length = text := by
  unfold standsAt
  rw [List.isPrefixOf_iff_prefix, List.prefix_iff_eq_take, eq_comm]

/-- What is found is what a table without ends finds. -/
theorem compare_reaches (reaches : Reaches p k commands) :
    p.compare k commands = .ok (commands.find? fun command => p.standsAt k command.1) := by
  induction commands with
  | nil => rfl
  | cons command rest ih =>
    unfold compare
    rw [slice_inside reaches.1, List.find?_cons]
    show (if (p.memory.drop k).take command.1.length = command.1 then _ else _) = _
    by_cases stands : p.standsAt k command.1 = true
    · rw [if_pos ((standsAt_iff _).mp stands), stands]
    · have later := ih (reaches.2.resolve_left stands)
      rw [if_neg fun same => stands ((standsAt_iff _).mpr same), later]
      rw [Bool.not_eq_true] at stands
      rw [stands]

theorem compare_outside (outside : ¬Reaches p k commands) :
    p.compare k commands = .error (.fault .outOfBounds) := by
  induction commands with
  | nil => exact absurd trivial outside
  | cons command rest ih =>
    unfold compare
    by_cases inside : k + command.1.length ≤ p.memory.length
    · rw [slice_inside inside]
      show (if (p.memory.drop k).take command.1.length = command.1 then _ else _) = _
      have stands : ¬p.standsAt k command.1 = true := fun stands =>
        outside ⟨inside, Or.inl stands⟩
      rw [if_neg fun same => stands ((standsAt_iff _).mpr same)]
      exact ih fun later => outside ⟨inside, Or.inr later⟩
    · rw [slice_outside (by omega)]
      rfl

theorem compare_ends (p : L7Packet) : Ending.Ends (fun e => e = .fault .outOfBounds)
    (fun _ => True) (p.compare k commands) := by
  by_cases reaches : Reaches p k commands
  · rw [compare_reaches reaches]
    trivial
  · rw [compare_outside reaches]
    rfl

theorem readsInside_compare {f : Option (Bytes × β) → Except Failure α} :
    ReadsInside (p.compare k commands >>= f) ↔ Reaches p k commands ∧
      ReadsInside (f (commands.find? fun command => p.standsAt k command.1)) := by
  by_cases reaches : Reaches p k commands
  · rw [compare_reaches reaches, and_iff_right reaches]
    exact Iff.rfl
  · rw [compare_outside reaches]
    exact iff_of_false not_readsInside fun both => reaches both.1

/-- With room for every entry no octet is missing. -/
theorem reaches_of_room (room : ∀ command ∈ commands, k + command.1.length ≤ p.memory.length) :
    Reaches p k commands := by
  induction commands with
  | nil => trivial
  | cons command rest ih =>
    exact ⟨room command List.mem_cons_self,
      Or.inr (ih fun later member => room later (List.mem_cons_of_mem command member))⟩

theorem reaches_of_length {n : Nat} (short : ∀ command ∈ commands, command.1.length ≤ n)
    (room : k + n ≤ p.memory.length) : Reaches p k commands := by
  refine reaches_of_room fun command member => ?_
  have fits := short command member
  omega

theorem reaches_cons {command : Bytes × β} : Reaches p k (command :: commands) ↔
    k + command.1.length ≤ p.memory.length ∧
      (p.standsAt k command.1 = true ∨ Reaches p k commands) := Iff.rfl

/-- A text that stands somewhere takes its room. -/
theorem standsAt_room {text : Bytes} (stands : p.standsAt k text = true) (filled : text ≠ []) :
    k + text.length ≤ p.memory.length := by
  obtain ⟨rest, whole⟩ := List.isPrefixOf_iff_prefix.mp stands
  exact field_inside whole.symm filled

/-- A text that stands somewhere is room for the shorter entries before it. -/
theorem reaches_of_stands (front : List (Bytes × β)) (command : Bytes × β)
    {rest : List (Bytes × β)} (stands : p.standsAt k command.1 = true)
    (filled : command.1 ≠ []) (short : ∀ earlier ∈ front, earlier.1.length ≤ command.1.length) :
    Reaches p k (front ++ command :: rest) := by
  have room := standsAt_room stands filled
  induction front with
  | nil => exact ⟨room, Or.inl stands⟩
  | cons earlier front ih =>
    have shorter := short earlier List.mem_cons_self
    exact ⟨by omega, Or.inr (ih fun later member => short later (List.mem_cons_of_mem _ member))⟩

end Compare

end HttpPacket

end AIEngine
