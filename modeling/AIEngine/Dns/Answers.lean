import AIEngine.Dns.Names

/-!
# The answers of DNS messages

What the walk over the answers reads, and which addresses it leaves with the info.
-/

namespace AIEngine

namespace DNSProtocol

variable {s t : DNSProtocol} {a i : Obj} {p : L7Packet} {ptr : Nat}

def HasAddress (p : L7Packet) (ptr : Nat) : Prop :=
  p.wordAt (ptr + 4) = 1 ∧ (p.wordAt (ptr + 2) = 1 ∧ p.wordAt (ptr + 10) = 4 ∨
    p.wordAt (ptr + 2) = 0x1c ∧ p.wordAt (ptr + 10) = 16)

instance (p : L7Packet) (ptr : Nat) : Decidable (HasAddress p ptr) :=
  inferInstanceAs (Decidable (_ ∧ _))

/-- The fixed part of every answer is there, and so is every address. -/
def AnswersInside (p : L7Packet) : Nat → Nat → Prop
  | 0, _ => True
  | answers + 1, ptr => ptr + 12 ≤ p.memory.length ∧
      (HasAddress p ptr → ptr + 12 + p.wordAt (ptr + 10) ≤ p.memory.length) ∧
      AnswersInside p answers (ptr + 12 + p.wordAt (ptr + 10))

def answerAddresses (p : L7Packet) : Nat → Nat → List Bytes
  | 0, _ => []
  | answers + 1, ptr =>
    (if HasAddress p ptr then [(p.memory.drop (ptr + 12)).take (p.wordAt (ptr + 10))] else []) ++
      answerAddresses p answers (ptr + 12 + p.wordAt (ptr + 10))

theorem address_eq (p : L7Packet) (ptr : Nat) :
    address p ptr (p.wordAt (ptr + 2)) (p.wordAt (ptr + 4)) (p.wordAt (ptr + 10)) =
      if HasAddress p ptr then (p.slice (ptr + 12) (p.wordAt (ptr + 10))).map some
      else .ok none := by
  unfold address
  by_cases four : p.wordAt (ptr + 4) = 1 ∧ p.wordAt (ptr + 2) = 1 ∧ p.wordAt (ptr + 10) = 4
  · have has : HasAddress p ptr := ⟨four.1, .inl four.2⟩
    rw [if_pos four, if_pos has, four.2.2]
    cases p.slice (ptr + 12) 4 <;> rfl
  · rw [if_neg four]
    by_cases six : p.wordAt (ptr + 4) = 1 ∧ p.wordAt (ptr + 2) = 0x1c ∧ p.wordAt (ptr + 10) = 16
    · have has : HasAddress p ptr := ⟨six.1, .inr six.2⟩
      rw [if_pos six, if_pos has, six.2.2]
      cases p.slice (ptr + 12) 16 <;> rfl
    · have neither : ¬HasAddress p ptr := by
        rintro ⟨inClass, first | second⟩
        · exact four ⟨inClass, first⟩
        · exact six ⟨inClass, second⟩
      rw [if_neg six, if_neg neither]

theorem answerLoop_succ (i : Obj) (s : DNSProtocol) (answers : Nat)
    (fixed : ptr + 12 ≤ p.memory.length)
    (address : HasAddress p ptr → ptr + 12 + p.wordAt (ptr + 10) ≤ p.memory.length) :
    answerLoop i p (answers + 1) s ptr =
      answerLoop i p answers
        (addIPAddress s i (if HasAddress p ptr then
          some ((p.memory.drop (ptr + 12)).take (p.wordAt (ptr + 10))) else none))
        (ptr + 12 + p.wordAt (ptr + 10)) := by
  rw [answerLoop, HttpPacket.word_inside (by omega), HttpPacket.word_inside (by omega),
    HttpPacket.word_inside (by omega)]
  simp only [bind, Except.bind]
  rw [address_eq]
  by_cases has : HasAddress p ptr
  · rw [if_pos has, if_pos has, HttpPacket.slice_inside (address has)]
    rfl
  · rw [if_neg has, if_neg has]

theorem answerLoop_outside (i : Obj) (s : DNSProtocol) (answers : Nat)
    (outside : ¬AnswersInside p answers ptr) :
    answerLoop i p answers s ptr = .error (.fault .outOfBounds) := by
  induction answers generalizing s ptr with
  | zero => exact absurd trivial outside
  | succ answers ih =>
    by_cases fixed : ptr + 12 ≤ p.memory.length
    · by_cases address : HasAddress p ptr → ptr + 12 + p.wordAt (ptr + 10) ≤ p.memory.length
      · rw [answerLoop_succ i s answers fixed address]
        exact ih _ fun later => outside ⟨fixed, address, later⟩
      · obtain ⟨has, beyond⟩ := Classical.not_imp.mp address
        rw [answerLoop, HttpPacket.word_inside (by omega), HttpPacket.word_inside (by omega),
          HttpPacket.word_inside (by omega)]
        simp only [bind, Except.bind]
        rw [address_eq, if_pos has, HttpPacket.slice_outside (by omega)]
        rfl
    · rw [answerLoop, HttpPacket.word_outside (by omega)]
      rfl

/-- The addresses are appended in order, and nothing else changes. -/
theorem answerLoop_inside (i : Obj) (s : DNSProtocol) (answers : Nat)
    (inside : AnswersInside p answers ptr) :
    ∃ t, answerLoop i p answers s ptr = .ok t ∧ t.world = s.world ∧
      (t.infos i).qtype = (s.infos i).qtype ∧
        (t.infos i).ips = (s.infos i).ips ++ answerAddresses p answers ptr := by
  induction answers generalizing s ptr with
  | zero => exact ⟨s, rfl, rfl, rfl, (List.append_nil _).symm⟩
  | succ answers ih =>
    obtain ⟨fixed, address, later⟩ := inside
    rw [answerLoop_succ i s answers fixed address, answerAddresses]
    obtain ⟨t, walked, world, qtype, ips⟩ := ih
      (addIPAddress s i (if HasAddress p ptr then
          some ((p.memory.drop (ptr + 12)).take (p.wordAt (ptr + 10))) else none)) later
    refine ⟨t, walked, ?_, ?_, ?_⟩
    · rw [world]
      split <;> rfl
    · rw [qtype]
      split
      · simp [addIPAddress, Inspector.setInfo]
      · rfl
    · rw [ips]
      split
      · simp [addIPAddress, Inspector.setInfo]
      · rfl

end DNSProtocol

end AIEngine
