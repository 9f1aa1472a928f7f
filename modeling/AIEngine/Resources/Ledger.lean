import AIEngine.Resources.Attachments

/-!
# The ledger of the pools

For every cache the invariant keeps the list of the objects that are out: the strings of a map, or the
objects in one slot of the live flows. Together with the shape of the flows and the maps it accounts
for every object of every cache.
-/

namespace AIEngine

theorem L7Protocol.mem_all (p : L7Protocol) : p ∈ L7Protocol.all := by cases p <;> decide

theorem L7Protocol.index_lt (p : L7Protocol) : p.index < 9 := by cases p <;> decide

theorem L7Protocol.index_inj {p q : L7Protocol} (same : p.index = q.index) : p = q := by
  revert same
  cases p <;> cases q <;> decide

theorem Flow.mem_pointers {f : Flow} {o : Obj} :
    o ∈ f.pointers ↔ f.tcpInfo = some o ∨ f.frequencies = some o ∨ f.packetFrequencies = some o ∨
      ∃ p, f.info p = some o := by
  unfold pointers
  simp only [List.cons_append, List.nil_append, List.mem_filterMap, List.mem_cons, List.mem_map, id]
  constructor
  · intro ⟨r, listed, same⟩
    rcases listed with rfl | rfl | rfl | ⟨p, -, rfl⟩
    · exact Or.inl same
    · exact Or.inr (Or.inl same)
    · exact Or.inr (Or.inr (Or.inl same))
    · exact Or.inr (Or.inr (Or.inr ⟨p, same⟩))
  · intro known
    rcases known with same | same | same | ⟨p, same⟩
    · exact ⟨_, Or.inl rfl, same⟩
    · exact ⟨_, Or.inr (Or.inl rfl), same⟩
    · exact ⟨_, Or.inr (Or.inr (Or.inl rfl)), same⟩
    · exact ⟨_, Or.inr (Or.inr (Or.inr ⟨p, L7Protocol.mem_all p, rfl⟩)), same⟩

theorem Flow.slot_some {f : Flow} {id : CacheId} {o : Obj} :
    f.slot id = some o ↔ f.pointer id = some o ∧ o.home = id := by
  unfold slot
  rw [Option.filter_eq_some_iff, decide_eq_true_iff]

theorem Flow.pointer_mem {f : Flow} {id : CacheId} {o : Obj} (known : f.pointer id = some o) :
    o ∈ f.pointers := by
  cases id with
  | tcpInfo k => exact Flow.mem_pointers.mpr (Or.inl known)
  | info p => exact Flow.mem_pointers.mpr (Or.inr (Or.inr (Or.inr ⟨p, known⟩)))
  | frequencies k => exact Flow.mem_pointers.mpr (Or.inr (Or.inl known))
  | packetFrequencies k => exact Flow.mem_pointers.mpr (Or.inr (Or.inr (Or.inl known)))
  | flow k => exact absurd known (by simp [Flow.pointer])
  | string p x => exact absurd known (by simp [Flow.pointer])

/-! ### Lists of what is out -/

section FilterMap

variable {α β : Type} [DecidableEq α]

theorem filterMap_erase {xs : List α} {a : α} (f : α → Option β) (member : a ∈ xs) :
    (xs.filterMap f).Perm ((f a).toList ++ (xs.erase a).filterMap f) := by
  refine ((List.perm_cons_erase member).filterMap f).trans (.of_eq ?_)
  cases known : f a with
  | none => rw [List.filterMap_cons_none known]; rfl
  | some b => rw [List.filterMap_cons_some known]; rfl

/-- One element of the list changes what it contributes. -/
theorem filterMap_change {xs : List α} {a : α} {f g : α → Option β} (nodup : xs.Nodup)
    (member : a ∈ xs) (others : ∀ b, b ≠ a → g b = f b) (empty : f a = none) :
    (xs.filterMap g).Perm ((g a).toList ++ xs.filterMap f) := by
  have rest : (xs.erase a).filterMap g = (xs.erase a).filterMap f := by
    refine List.filterMap_congr fun b kept => others b ?_
    intro same
    rw [same] at kept
    exact nodup.not_mem_erase kept
  have before := filterMap_erase f member
  rw [empty] at before
  refine (filterMap_erase g member).trans ?_
  rw [rest]
  exact List.Perm.append_left _ before.symm

end FilterMap

namespace World

/-- What is out of a cache. -/
def out (w : World) : CacheId → List Obj
  | .string p x => (w.maps p x).map MapEntry.object
  | id => w.table.filterMap fun a => (w.flows a).slot id

theorem out_direct (w : World) {id : CacheId} (direct : id.isString = false) :
    w.out id = w.table.filterMap fun a => (w.flows a).slot id := by
  cases id <;> first | rfl | exact absurd direct (by simp [CacheId.isString])

theorem mem_out_direct {w : World} {id : CacheId} {o : Obj} (direct : id.isString = false) :
    o ∈ w.out id ↔ ∃ a ∈ w.table, (w.flows a).slot id = some o := by
  rw [out_direct w direct, List.mem_filterMap]

/-! ### The invariant -/

/-- Pointers go to objects of the right cache, and one forwarder decides which of them a flow has. -/
structure FlowShape (f : Flow) : Prop where
  tcp : ∀ i, f.tcpInfo = some i → f.protocol = ipprotoTcp ∧ ∃ k, i.home = .tcpInfo k
  info : ∀ p i, f.info p = some i → i.home = .info p ∧ f.forwarder = some p.index
  frequencies : ∀ o, f.frequencies = some o →
    ∃ k, o.home = .frequencies k ∧ f.forwarder = some (9 + k)
  packetFrequencies : ∀ o, f.packetFrequencies = some o →
    ∃ k, o.home = .packetFrequencies k ∧ f.forwarder = some (9 + k)
  matched : ∀ p : L7Protocol, f.forwarder = some p.index → f.protocol = p.ipproto

/-- The strings of the info are in their maps. -/
def Interned (w : World) (p : L7Protocol) (i : Obj) : Prop :=
  ∀ x s, (w.infos i).strings x = some s → s ∈ (w.maps p x).map MapEntry.object

structure Shape (w : World) : Prop where
  nodup : w.table.Nodup
  flows : ∀ a ∈ w.table, FlowShape (w.flows a)
  idle : ∀ a, a ∉ w.table → (w.flows a).packetFrequencies = none
  strings : ∀ a ∈ w.table, ∀ p i, (w.flows a).info p = some i → w.Interned p i
  keys : ∀ p x, ((w.maps p x).map MapEntry.key).Nodup
  names : ∀ p x, ∀ e ∈ w.maps p x, e.key = cString (w.names e.object)
  ordered : ∀ p x, w.disordered p x = false

/-- The cache of an id with what is out of it. -/
def client (w : World) (id : CacheId) : Pool.Client :=
  { cache := w.cache id, outstanding := w.out id }

structure Ledger (objects : CacheId → Nat) (w : World) : Prop where
  shape : Shape w
  accounts : ∀ id, id.isFlow = false →
    Pool.Account (id.isString = false) id (objects id) (w.client id)

/-- Every cache makes one move. -/
def Moves (w w' : World) : Prop :=
  ∀ id, id.isFlow = false → Pool.Move (id.isString = false) (w.client id) (w'.client id)

theorem ledger_moves {objects : CacheId → Nat} {w w' : World} (ledger : Ledger objects w)
    (shape : Shape w') (moves : Moves w w') : Ledger objects w' :=
  ⟨shape, fun id pooled => Pool.account_move (ledger.accounts id pooled) (moves id pooled)⟩

/-! ### What the ledger says -/

theorem mem_heldBy {w : World} {id : CacheId} {o : Obj} :
    o ∈ w.heldBy id ↔ ((∃ a ∈ w.table, o ∈ w.attachedTo a) ∨ o ∈ w.mapped) ∧ o.home = id := by
  unfold heldBy
  rw [List.mem_dedup, List.mem_filter, List.mem_append, List.mem_flatMap, decide_eq_true_iff]

theorem mem_mapped {w : World} {o : Obj} :
    o ∈ w.mapped ↔ ∃ p, ∃ x ∈ stringFields, o ∈ (w.maps p x).map MapEntry.object := by
  unfold mapped
  simp only [List.mem_flatMap]
  constructor
  · intro ⟨p, _, x, listed, known⟩
    exact ⟨p, x, listed, known⟩
  · intro ⟨p, x, listed, known⟩
    exact ⟨p, L7Protocol.mem_all p, x, listed, known⟩

theorem mem_stringFields (x : StringField) : x ∈ stringFields := by cases x <;> decide

theorem mem_infoStrings {w : World} {f : Flow} {o : Obj} :
    o ∈ w.infoStrings f ↔ ∃ p i x, f.info p = some i ∧ (w.infos i).strings x = some o := by
  unfold infoStrings
  rw [List.mem_flatMap]
  constructor
  · intro ⟨p, _, listed⟩
    split at listed
    · rename_i i known
      obtain ⟨x, -, pointer⟩ := List.mem_filterMap.mp listed
      exact ⟨p, i, x, known, pointer⟩
    · exact absurd listed (by simp)
  · intro ⟨p, i, x, known, pointer⟩
    refine ⟨p, L7Protocol.mem_all p, ?_⟩
    simp only [known]
    exact List.mem_filterMap.mpr ⟨x, mem_stringFields x, pointer⟩

section Ledger

variable {objects : CacheId → Nat} {w : World}

theorem Ledger.home (ledger : Ledger objects w) {id : CacheId} {o : Obj}
    (pooled : id.isFlow = false) (member : o ∈ w.out id) : o.home = id :=
  Pool.account_home (ledger.accounts id pooled) member

theorem Ledger.mapped_home (ledger : Ledger objects w) {p : L7Protocol} {x : StringField} {o : Obj}
    (member : o ∈ (w.maps p x).map MapEntry.object) : o.home = .string p x :=
  ledger.home (by rfl) (member : o ∈ w.out (.string p x))

theorem FlowShape.pointer {f : Flow} {o : Obj} (shape : FlowShape f) (member : o ∈ f.pointers) :
    f.slot o.home = some o ∧ o.home.isString = false ∧ o.home.isFlow = false := by
  rw [Flow.slot_some]
  rcases Flow.mem_pointers.mp member with same | same | same | ⟨p, same⟩
  · obtain ⟨-, k, home⟩ := shape.tcp o same
    rw [home]
    exact ⟨⟨same, rfl⟩, rfl, rfl⟩
  · obtain ⟨k, home, -⟩ := shape.frequencies o same
    rw [home]
    exact ⟨⟨same, rfl⟩, rfl, rfl⟩
  · obtain ⟨k, home, -⟩ := shape.packetFrequencies o same
    rw [home]
    exact ⟨⟨same, rfl⟩, rfl, rfl⟩
  · obtain ⟨home, -⟩ := shape.info p o same
    rw [home]
    exact ⟨⟨same, rfl⟩, rfl, rfl⟩

/-- What is attached or mapped is what is out of the cache. -/
theorem Ledger.held_iff (ledger : Ledger objects w) {id : CacheId} {o : Obj}
    (pooled : id.isFlow = false) : o ∈ w.heldBy id ↔ o ∈ w.out id := by
  rw [mem_heldBy]
  constructor
  · intro ⟨known, home⟩
    rcases known with ⟨a, member, attached⟩ | mapped
    · rcases List.mem_append.mp attached with direct | string
      · obtain ⟨slot, isDirect, -⟩ := (ledger.shape.flows a member).pointer direct
        rw [home] at slot isDirect
        exact (mem_out_direct isDirect).mpr ⟨a, member, slot⟩
      · obtain ⟨p, i, x, known, pointer⟩ := mem_infoStrings.mp string
        have entry := ledger.shape.strings a member p i known x o pointer
        have same := ledger.mapped_home entry
        rw [home] at same
        rw [same]
        exact entry
    · obtain ⟨p, x, -, entry⟩ := mem_mapped.mp mapped
      have same := ledger.mapped_home entry
      rw [home] at same
      rw [same]
      exact entry
  · intro member
    refine ⟨?_, ledger.home pooled member⟩
    cases string : id.isString with
    | false =>
      obtain ⟨a, live, slot⟩ := (mem_out_direct string).mp member
      have direct := Flow.pointer_mem (Flow.slot_some.mp slot).1
      exact Or.inl ⟨a, live, List.mem_append_left _ direct⟩
    | true =>
      cases id with
      | string p x => exact Or.inr (mem_mapped.mpr ⟨p, x, mem_stringFields x, member⟩)
      | _ => exact absurd string (by simp [CacheId.isString])

theorem Ledger.conserved (ledger : Ledger objects w) : Conserved objects w := by
  intro id pooled
  have account := ledger.accounts id pooled
  have perm : (w.heldBy id).Perm (w.out id) :=
    (List.perm_ext_iff_of_nodup (List.nodup_dedup _) account.kept.sole.1).mpr
      fun o => ledger.held_iff pooled
  refine ⟨?_, fun o member => ?_⟩
  · rw [perm.length_eq]
    exact Pool.account_total account
  · have listed := (ledger.held_iff pooled).mp member
    have home := ledger.home pooled listed
    cases string : id.isString with
    | false =>
      refine Or.inl ?_
      rw [home]
      exact account.owned string o listed
    | true =>
      cases id with
      | string p x => exact Or.inr (mem_mapped.mpr ⟨p, x, mem_stringFields x, listed⟩)
      | _ => exact absurd string (by simp [CacheId.isString])

end Ledger

theorem ledger_start (objects : CacheId → Nat) (registered : Option Nat) :
    Ledger objects (start objects registered) := by
  have nothing : ∀ id, (start objects registered).out id = [] := by
    intro id
    cases id <;> rfl
  refine ⟨⟨List.nodup_nil, ?_, fun _ _ => rfl, ?_, fun _ _ => List.nodup_nil, ?_,
    fun _ _ => rfl⟩, ?_⟩
  · exact fun a member => absurd member (by simp [start])
  · exact fun a member => absurd member (by simp [start])
  · exact fun p x e member => absurd member (by simp [start])
  · intro id pooled
    unfold client
    rw [start_cache, nothing]
    refine ⟨Pool.kept_create id (objects id), ?_, ?_, fun _ a member => absurd member (by simp)⟩
    · rw [Cache.create_eq]
    · rw [Cache.create_eq]
      simp

end World

end AIEngine
