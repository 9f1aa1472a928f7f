import AIEngine.Resources.Ledger

/-!
# Steps that keep the ledger

Opening a flow, attaching objects to it and interning strings. Every operation is one move of one
cache, and the shape of the flows and the maps goes with it.
-/

namespace AIEngine.World

variable {objects : CacheId → Nat} {w w' : World}

theorem cache_setCache_out (w : World) (id : CacheId) (c : Cache) : (w.setCache id c).out = w.out := by
  funext id'
  cases id' <;> simp [out]

/-! ### Moves -/

theorem out_same (table : w'.table = w.table) (maps : w'.maps = w.maps)
    (slots : ∀ a ∈ w.table, ∀ id, (w'.flows a).slot id = (w.flows a).slot id) : w'.out = w.out := by
  funext id
  cases string : id.isString with
  | false =>
    rw [out_direct w' string, out_direct w string, table]
    exact List.filterMap_congr fun a member => slots a member id
  | true =>
    cases id with
    | string p x => simp only [out, maps]
    | _ => exact absurd string (by simp [CacheId.isString])

theorem moves_same (cache : ∀ id, id.isFlow = false → w'.cache id = w.cache id)
    (out : w'.out = w.out) : Moves w w' :=
  fun id pooled => .same (cache id pooled) (.of_eq (congrFun out id))

theorem moves_failed {id : CacheId} {c : Cache} (failed : (w.cache id).acquire = .ok (none, c)) :
    Moves w (w.setCache id c) := by
  intro id' pooled
  have out : (w.setCache id c).out id' = w.out id' := congrFun (cache_setCache_out w id c) id'
  by_cases same : id' = id
  · subst same
    refine .failed ?_ (.of_eq out)
    simp only [client, cache_setCache_same]
    exact failed
  · exact .same (cache_setCache_other same) (.of_eq out)

/-- One cache hands out an object, which one list of what is out gains. -/
theorem moves_acquired {id : CacheId} {o : Obj} {c : Cache}
    (acquired : (w.cache id).acquire = .ok (some o, c)) (cache : w'.cache id = c)
    (others : ∀ id', id' ≠ id → w'.cache id' = w.cache id')
    (gained : (w'.out id).Perm (o :: w.out id))
    (rest : ∀ id', id' ≠ id → w'.out id' = w.out id') : Moves w w' := by
  intro id' pooled
  by_cases same : id' = id
  · subst same
    refine .acquired o ?_ gained
    simp only [client, cache]
    exact acquired
  · exact .same (others id' same) (.of_eq (rest id' same))

theorem slot_none {f : Flow} {id : CacheId} (empty : f.pointer id = none) : f.slot id = none := by
  unfold Flow.slot
  rw [empty]
  rfl

theorem slot_same {f g : Flow} {id : CacheId} (same : g.pointer id = f.pointer id) :
    g.slot id = f.slot id := by
  unfold Flow.slot
  rw [same]

/-- One flow gets an object of a cache it had none of; another layer has its objects in the same
pointer, but not this one. -/
theorem moves_attached {id : CacheId} {a o : Obj} {c : Cache} {f : Flow} (shape : Shape w)
    (member : a ∈ w.table) (direct : id.isString = false)
    (acquired : (w.cache id).acquire = .ok (some o, c)) (home : o.home = id)
    (empty : (w.flows a).pointer id = none) (pointer : f.pointer id = some o)
    (rest : ∀ id', f.pointer id' = (w.flows a).pointer id' ∨
      f.pointer id' = some o ∧ (w.flows a).pointer id' = none) :
    Moves w ((w.setCache id c).setFlow a f) := by
  have changed : ((w.setCache id c).setFlow a f).flows a = f := by simp [setFlow]
  have flows : ∀ b, b ≠ a → ((w.setCache id c).setFlow a f).flows b = w.flows b := by
    intro b other
    simp [setFlow, other]
  have table : ((w.setCache id c).setFlow a f).table = w.table := setCache_table ..
  refine moves_acquired acquired ?_ ?_ ?_ ?_
  · rw [setFlow_cache, cache_setCache_same]
  · intro id' other
    rw [setFlow_cache, cache_setCache_other other]
  · rw [out_direct _ direct, out_direct w direct, table]
    have gained := filterMap_change (a := a) (f := fun b => (w.flows b).slot id)
      (g := fun b => (((w.setCache id c).setFlow a f).flows b).slot id) shape.nodup member
      (fun b other => by simp only [flows b other]) (slot_none empty)
    have slot : f.slot id = some o := Flow.slot_some.mpr ⟨pointer, home⟩
    simp only [changed, slot] at gained
    exact gained
  · intro id' different
    cases string : id'.isString with
    | false =>
      rw [out_direct _ string, out_direct w string, table]
      refine List.filterMap_congr fun b _ => ?_
      by_cases same : b = a
      · rw [same, changed]
        rcases rest id' with equal | ⟨given, none⟩
        · exact slot_same equal
        · rw [slot_none none]
          refine Option.filter_eq_none_iff.mpr fun x known => ?_
          rw [given] at known
          obtain rfl := Option.some.inj known
          simpa [home] using Ne.symm different
      · rw [flows b same]
    | true =>
      cases id' with
      | string p x => simp [out, setFlow]
      | _ => exact absurd string (by simp [CacheId.isString])

/-! ### The shape -/

theorem Shape.congr (shape : Shape w) (table : w'.table = w.table) (flows : w'.flows = w.flows)
    (infos : w'.infos = w.infos) (maps : w'.maps = w.maps) (names : w'.names = w.names)
    (disordered : w'.disordered = w.disordered) : Shape w' := by
  obtain ⟨nodup, flowShape, idle, strings, keys, named, ordered⟩ := shape
  refine ⟨table ▸ nodup, ?_, ?_, ?_, ?_, ?_, disordered ▸ ordered⟩
  · rw [table, flows]
    exact flowShape
  · rw [table, flows]
    exact idle
  · unfold Interned at strings ⊢
    rw [table, flows, infos, maps]
    exact strings
  · rw [maps]
    exact keys
  · rw [maps, names]
    exact named

theorem shape_setCache (shape : Shape w) (id : CacheId) (c : Cache) : Shape (w.setCache id c) :=
  shape.congr (by simp) (by simp) (by simp) (by simp) (by simp) (by simp)

theorem shape_setFlow {a : Obj} {f : Flow} (shape : Shape w) (member : a ∈ w.table)
    (flowShape : FlowShape f) (strings : ∀ p i, f.info p = some i → w.Interned p i) :
    Shape (w.setFlow a f) := by
  refine ⟨shape.nodup, fun b live => ?_, fun b absent => ?_, fun b live p i known => ?_, shape.keys,
    shape.names, shape.ordered⟩
  · by_cases same : b = a
    · simpa [setFlow, same] using flowShape
    · simpa [setFlow, same] using shape.flows b live
  · have other : b ≠ a := fun same => absent (same ▸ member)
    simpa [setFlow, other] using shape.idle b absent
  · by_cases same : b = a
    · exact strings p i (by simpa [setFlow, same] using known)
    · exact shape.strings b live p i (by simpa [setFlow, same] using known)

theorem ledger_failed {id : CacheId} {c : Cache} (ledger : Ledger objects w)
    (failed : (w.cache id).acquire = .ok (none, c)) : Ledger objects (w.setCache id c) :=
  ledger_moves ledger (shape_setCache ledger.shape id c) (moves_failed failed)

/-- An object that has just been handed out was made by the cache, and nobody had it. -/
theorem Ledger.acquired {id : CacheId} {o : Obj} {c : Cache} (ledger : Ledger objects w)
    (pooled : id.isFlow = false) (taken : (w.cache id).acquire = .ok (some o, c)) :
    o.home = id ∧ o ∉ w.out id := by
  have account := ledger.accounts id pooled
  refine ⟨?_, (Pool.kept_acquire account.kept taken).2⟩
  obtain ⟨-, slot, -⟩ := Cache.acquire_some taken
  obtain ⟨k, -, same⟩ := account.kept.wf.filled _ (List.mem_of_getElem? slot)
  rw [Option.some.inj same]
  exact account.named

/-- An attached object of the cache would still be owned, and would have been locked. -/
theorem Ledger.pointer_none {id : CacheId} {a : Obj} (ledger : Ledger objects w)
    (member : a ∈ w.table) (pooled : id.isFlow = false) (direct : id.isString = false)
    (homes : ∀ o, (w.flows a).pointer id = some o → o.home = id)
    (expired : (w.cache id).lock ((w.flows a).pointer id) = none) :
    (w.flows a).pointer id = none := by
  cases attached : (w.flows a).pointer id with
  | none => rfl
  | some o =>
    have listed : o ∈ w.out id := (mem_out_direct direct).mpr
      ⟨a, member, Flow.slot_some.mpr ⟨attached, homes o attached⟩⟩
    have owned : (w.cache id).Owns o := (ledger.accounts id pooled).owned direct o listed
    rw [attached, Cache.lock_of_owns owned] at expired
    exact absurd expired (by simp)

theorem ledger_attached {id : CacheId} {a o : Obj} {c : Cache} {f : Flow}
    (ledger : Ledger objects w) (member : a ∈ w.table) (direct : id.isString = false)
    (acquired : (w.cache id).acquire = .ok (some o, c)) (home : o.home = id)
    (empty : (w.flows a).pointer id = none) (pointer : f.pointer id = some o)
    (rest : ∀ id', f.pointer id' = (w.flows a).pointer id' ∨
      f.pointer id' = some o ∧ (w.flows a).pointer id' = none)
    (shape : FlowShape f) (strings : ∀ p i, f.info p = some i → w.Interned p i) :
    Ledger objects ((w.setCache id c).setFlow a f) := by
  refine ledger_moves ledger ?_
    (moves_attached ledger.shape member direct acquired home empty pointer rest)
  refine shape_setFlow (shape_setCache ledger.shape id c) (by simpa using member) shape ?_
  intro p i known x s listed
  rw [setCache_infos] at listed
  rw [setCache_maps]
  exact strings p i known x s listed

/-! ### Opening a flow -/

theorem reset_slot {f : Flow} (idle : f.packetFrequencies = none) (protocol : BitVec 16)
    (id : CacheId) : { f.reset with protocol := protocol }.slot id = none := by
  unfold Flow.slot
  have none : { f.reset with protocol := protocol }.pointer id = none := by
    cases id with
    | info p => cases p <;> rfl
    | packetFrequencies k => exact idle
    | _ => rfl
  rw [none]
  rfl

theorem reset_info (f : Flow) (protocol : BitVec 16) (p : L7Protocol) :
    { f.reset with protocol := protocol }.info p = none := by cases p <;> rfl

theorem ledger_openFlow {a : Obj} (ledger : Ledger objects w) (absent : a ∉ w.table)
    (protocol : BitVec 16) : Ledger objects (w.openFlow a protocol) := by
  obtain ⟨nodup, flows, idle, strings, keys, names, ordered⟩ := ledger.shape
  have new : (w.openFlow a protocol).flows a = { (w.flows a).reset with protocol := protocol } := by
    simp [openFlow, setFlow]
  have old : ∀ b, b ≠ a → (w.openFlow a protocol).flows b = w.flows b := by
    intro b other
    simp [openFlow, setFlow, other]
  have differs : ∀ b ∈ w.table, b ≠ a := fun b member same => absent (same ▸ member)
  refine ledger_moves ledger ⟨?_, ?_, ?_, ?_, keys, names, ordered⟩ (moves_same (fun _ _ => rfl) ?_)
  · exact List.nodup_cons.mpr ⟨absent, nodup⟩
  · intro b member
    rcases List.mem_cons.mp member with rfl | before
    · rw [new]
      refine ⟨fun i known => absurd known (by simp [Flow.reset]), fun p i known => ?_,
        fun o known => absurd known (by simp [Flow.reset]), fun o known => ?_,
        fun p known => absurd known (by simp [Flow.reset])⟩
      · rw [reset_info] at known
        exact absurd known (by simp)
      · exact absurd ((idle b absent).symm.trans known) (by simp)
    · rw [old b (differs b before)]
      exact flows b before
  · intro b outside
    by_cases same : b = a
    · rw [same, new]
      exact idle a absent
    · rw [old b same]
      exact idle b fun member => outside (List.mem_cons_of_mem a member)
  · intro b member p i known
    rcases List.mem_cons.mp member with rfl | before
    · rw [new, reset_info] at known
      exact absurd known (by simp)
    · rw [old b (differs b before)] at known
      exact strings b before p i known
  · funext id
    cases string : id.isString with
    | false =>
      rw [out_direct _ string, out_direct w string]
      have table : (w.openFlow a protocol).table = a :: w.table := rfl
      rw [table, List.filterMap_cons_none (by rw [new]; exact reset_slot (idle a absent) _ _)]
      exact List.filterMap_congr fun b member => by rw [old b (differs b member)]
    | true =>
      cases id with
      | string p x => rfl
      | _ => exact absurd string (by simp [CacheId.isString])

theorem ledger_openTcpFlow {a : Obj} {layer : Nat} (ledger : Ledger objects w)
    (absent : a ∉ w.table) (h : w.openTcpFlow a layer = .ok w') : Ledger objects w' := by
  have opened := ledger_openFlow ledger absent ipprotoTcp
  have idle := ledger.shape.idle a absent
  unfold openTcpFlow at h
  simp only at h
  generalize entered : w.openFlow a ipprotoTcp = w₁ at h opened
  have new : w₁.flows a = { (w.flows a).reset with protocol := ipprotoTcp } := by
    rw [← entered]
    simp [openFlow, setFlow]
  have member : a ∈ w₁.table := by
    rw [← entered]
    exact List.mem_cons_self
  split at h
  · rename_i i c acquired
    obtain rfl := Except.ok.inj h
    obtain ⟨home, -⟩ := opened.acquired rfl acquired
    have infos : ∀ p j, { w₁.flows a with tcpInfo := some i }.info p = some j →
        (w₁.flows a).info p = some j := by
      intro p j known
      rw [← known]
      cases p <;> rfl
    have noInfo : ∀ p j, { w₁.flows a with tcpInfo := some i }.info p ≠ some j := by
      intro p j known
      have before := infos p j known
      rw [new, reset_info] at before
      exact absurd before (by simp)
    have none : (w₁.flows a).tcpInfo = none := by
      rw [new]
      rfl
    refine ledger_attached opened member rfl acquired home none rfl ?_ ?_ ?_
    · intro id'
      cases id' with
      | tcpInfo k => exact Or.inr ⟨rfl, none⟩
      | info p => exact Or.inl (by cases p <;> rfl)
      | _ => exact Or.inl rfl
    · refine ⟨fun j known => ?_, fun p j known => absurd known (noInfo p j), fun o known => ?_,
        fun o known => ?_, fun p known => ?_⟩
      · obtain rfl := Option.some.inj known
        exact ⟨by rw [new], layer, home⟩
      · rw [new] at known
        exact absurd known (by simp [Flow.reset])
      · rw [new] at known
        exact absurd (idle.symm.trans known) (by simp)
      · rw [new] at known
        exact absurd known (by simp [Flow.reset])
    · exact fun p j known => absurd known (noInfo p j)
  · rename_i c failed
    obtain rfl := Except.ok.inj h
    exact ledger_failed opened failed
  · exact absurd h (by simp)

/-! ### Forwarding -/

theorem forwarded_info (f : Flow) (ff : Option Nat) (p : L7Protocol) :
    { f with forwarder := ff }.info p = f.info p := by cases p <;> rfl

theorem forwarded_slot (f : Flow) (ff : Option Nat) (id : CacheId) :
    { f with forwarder := ff }.slot id = f.slot id := by
  refine slot_same ?_
  cases id with
  | info p => exact forwarded_info f ff p
  | _ => rfl

theorem ledger_forwardTo {a : Obj} {x : Application} (ledger : Ledger objects w)
    (member : a ∈ w.table) (allowed : (w.flows a).forwarder = x.forwarder ∨
      (w.flows a).forwarder = none ∧ x.Accepts (w.flows a).protocol) :
    Ledger objects (w.forwardTo a x) := by
  obtain ⟨tcp, info, frequencies, packetFrequencies, matched⟩ := ledger.shape.flows a member
  -- a flow that has anything attached has its forwarder already
  have kept : ∀ n, (w.flows a).forwarder = some n → x.forwarder = some n := by
    intro n known
    rcases allowed with same | ⟨none, -⟩
    · rw [← same, known]
    · exact absurd (none.symm.trans known) (by simp)
  refine ledger_moves ledger (shape_setFlow ledger.shape member ⟨tcp, ?_, ?_, ?_, ?_⟩ ?_)
    (moves_same (fun _ _ => rfl) (out_same rfl rfl ?_))
  · intro p i known
    rw [forwarded_info] at known
    obtain ⟨home, forwarder⟩ := info p i known
    exact ⟨home, kept _ forwarder⟩
  · intro o known
    obtain ⟨k, home, forwarder⟩ := frequencies o known
    exact ⟨k, home, kept _ forwarder⟩
  · intro o known
    obtain ⟨k, home, forwarder⟩ := packetFrequencies o known
    exact ⟨k, home, kept _ forwarder⟩
  · intro p known
    rcases allowed with same | ⟨-, accepts⟩
    · exact matched p (same.trans known)
    · cases x with
      | nothing => exact absurd known (by simp [Application.forwarder])
      | protocol q found =>
        have index := L7Protocol.index_inj (Option.some.inj known)
        rw [← index]
        exact accepts
      | frequency k payload =>
        have code := Option.some.inj known
        have small := p.index_lt
        omega
  · intro p i known
    rw [forwarded_info] at known
    exact ledger.shape.strings a member p i known
  · intro b _ id
    by_cases same : b = a
    · simp only [forwardTo, setFlow, same, ↓reduceIte, forwarded_slot]
    · simp only [forwardTo, setFlow, same, ↓reduceIte]

/-! ### Infos -/

/-- The info of one live flow is not the info of another protocol. -/
theorem Ledger.protocol_eq {a b i : Obj} {p q : L7Protocol} (ledger : Ledger objects w)
    (live : a ∈ w.table) (attached : (w.flows a).info p = some i) (live' : b ∈ w.table)
    (attached' : (w.flows b).info q = some i) : p = q := by
  have home := ((ledger.shape.flows a live).info p i attached).1
  have home' := ((ledger.shape.flows b live').info q i attached').1
  rw [home] at home'
  exact (CacheId.info.inj home')

theorem setInfo_pointer (f : Flow) (p : L7Protocol) (i : Obj) (none : f.info p = none)
    (id : CacheId) : (f.setInfo p (some i)).pointer id = f.pointer id ∨
      (f.setInfo p (some i)).pointer id = some i ∧ f.pointer id = .none := by
  cases id with
  | info q =>
    by_cases same : q = p
    · subst same
      exact Or.inr ⟨setInfo_info f q (some i), none⟩
    · left
      cases p <;> cases q <;> first | rfl | exact absurd rfl same
  | flow k => exact Or.inl rfl
  | tcpInfo k => exact Or.inl (by cases p <;> rfl)
  | string q x => exact Or.inl rfl
  | frequencies k => exact Or.inl (by cases p <;> rfl)
  | packetFrequencies k => exact Or.inl (by cases p <;> rfl)

theorem setInfo_shape {f : Flow} {p : L7Protocol} {i : Obj} (shape : FlowShape f)
    (home : i.home = .info p) (forwarder : f.forwarder = some p.index) :
    FlowShape (f.setInfo p (some i)) := by
  have rest : (f.setInfo p (some i)).tcpInfo = f.tcpInfo ∧
      (f.setInfo p (some i)).frequencies = f.frequencies ∧
      (f.setInfo p (some i)).packetFrequencies = f.packetFrequencies ∧
      (f.setInfo p (some i)).protocol = f.protocol ∧
      (f.setInfo p (some i)).forwarder = f.forwarder := by
    cases p <;> exact ⟨rfl, rfl, rfl, rfl, rfl⟩
  obtain ⟨tcpInfo, frequencies, packetFrequencies, protocol, forwarded⟩ := rest
  refine ⟨?_, ?_, ?_, ?_, ?_⟩
  · rw [tcpInfo, protocol]
    exact shape.tcp
  · intro q j known
    rw [forwarded]
    by_cases same : q = p
    · rw [same, setInfo_info] at known
      obtain rfl := Option.some.inj known
      rw [same]
      exact ⟨home, forwarder⟩
    · have before : f.info q = some j := by
        rw [← known]
        cases p <;> cases q <;> first | rfl | exact absurd rfl same
      exact shape.info q j before
  · rw [frequencies, forwarded]
    exact shape.frequencies
  · rw [packetFrequencies, forwarded]
    exact shape.packetFrequencies
  · rw [forwarded, protocol]
    exact shape.matched

theorem ledger_attachInfo {p : L7Protocol} {a : Obj} {r : Option Obj} (ledger : Ledger objects w)
    (member : a ∈ w.table) (forwarder : (w.flows a).forwarder = some p.index)
    (h : w.attachInfo p a = .ok (r, w')) :
    Ledger objects w' ∧ a ∈ w'.table ∧ ∀ i, r = some i → (w'.flows a).info p = some i := by
  rcases attachInfo_cases h with ⟨i, rfl, locked, rfl⟩ | ⟨i, c, rfl, expired, acquired, rfl⟩ |
    ⟨c, rfl, failed, rfl⟩
  · refine ⟨ledger, member, fun j same => ?_⟩
    obtain rfl := Option.some.inj same
    exact (lockInfo_some locked).1
  · have none : (w.flows a).info p = none := by
      have homes := (ledger.shape.flows a member).info p
      have empty : (w.flows a).pointer (.info p) = .none :=
        ledger.pointer_none member rfl rfl (fun o known => (homes o known).1) expired
      exact empty
    obtain ⟨home, fresh⟩ := ledger.acquired rfl acquired
    have apart : ∀ b ∈ w.table, ∀ q, (w.flows b).info q ≠ some i := by
      intro b live q attached
      have same := ((ledger.shape.flows b live).info q i attached).1
      rw [home] at same
      obtain rfl := CacheId.info.inj same
      exact fresh ((mem_out_direct rfl).mpr ⟨b, live, Flow.slot_some.mpr ⟨attached, home⟩⟩)
    have wiped : Shape (w.setInfo i {}) := by
      obtain ⟨nodup, flows, idle, strings, keys, names, ordered⟩ := ledger.shape
      refine ⟨nodup, flows, idle, fun b live q j attached => ?_, keys, names, ordered⟩
      have other : j ≠ i := fun same => apart b live q (same ▸ attached)
      unfold Interned
      simp only [setInfo, other, ↓reduceIte]
      exact strings b live q j attached
    have shape : Shape (((w.setCache (.info p) c).setInfo i {}).setFlow a
        ((w.flows a).setInfo p (some i))) := by
      have cached : Shape ((w.setCache (.info p) c).setInfo i {}) :=
        wiped.congr (setCache_table ..) (setCache_flows ..)
          (by simp only [setInfo, setCache_infos]) (setCache_maps ..) (setCache_names ..)
          (setCache_disordered ..)
      refine shape_setFlow cached (by simpa [setInfo] using member)
        (setInfo_shape (ledger.shape.flows a member) home forwarder) ?_
      intro q j attached
      by_cases same : j = i
      · rw [same]
        unfold Interned
        simp [setInfo]
      · have before : (w.flows a).info q = some j := by
          by_cases chosen : q = p
          · rw [chosen, setInfo_info] at attached
            exact absurd (Option.some.inj attached).symm same
          · rw [← attached]
            cases p <;> cases q <;> first | rfl | exact absurd rfl chosen
        have interned := ledger.shape.strings a member q j before
        unfold Interned at interned ⊢
        simpa [setInfo, same] using interned
    have moves := moves_attached (f := (w.flows a).setInfo p (some i)) ledger.shape member rfl
      acquired home none (setInfo_info _ p _) (setInfo_pointer _ p i none)
    refine ⟨ledger_moves ledger shape ?_, ?_, fun j same => ?_⟩
    · exact moves
    · simpa [setFlow, setInfo] using member
    · obtain rfl := Option.some.inj same
      simp [setFlow, setInfo_info]
  · refine ⟨ledger_failed ledger failed, by simpa using member, fun i same => ?_⟩
    exact absurd same (by simp)

/-! ### Strings -/

theorem insert_fresh {m : List MapEntry} {e : MapEntry} (fresh : find m e.key = none) :
    insert m e = e :: m := by
  unfold insert
  rw [fresh]
  rfl

theorem out_string_other {p : L7Protocol} {x : StringField} {id : CacheId}
    (maps : ∀ q y, ¬(q = p ∧ y = x) → w'.maps q y = w.maps q y) (table : w'.table = w.table)
    (flows : w'.flows = w.flows) (other : id ≠ .string p x) : w'.out id = w.out id := by
  cases string : id.isString with
  | false => rw [out_direct w' string, out_direct w string, table, flows]
  | true =>
    cases id with
    | string q y =>
      have apart : ¬(q = p ∧ y = x) := by
        intro ⟨same, same'⟩
        exact other (by rw [same, same'])
      simp only [out, maps q y apart]
    | _ => exact absurd string (by simp [CacheId.isString])

/-- Setting a string of an info that a live flow has: the others keep theirs. -/
theorem strings_setString {a i s : Obj} {p : L7Protocol} {x : StringField}
    (ledger : Ledger objects w) (member : a ∈ w.table) (attached : (w.flows a).info p = some i)
    (infos : w'.infos = (w.setString i x (some s)).infos) (table : w'.table = w.table)
    (flows : w'.flows = w.flows)
    (maps : ∀ q y, ∀ t ∈ (w.maps q y).map MapEntry.object, t ∈ (w'.maps q y).map MapEntry.object)
    (listed : s ∈ (w'.maps p x).map MapEntry.object) :
    ∀ b ∈ w'.table, ∀ q j, (w'.flows b).info q = some j → w'.Interned q j := by
  intro b live q j known y t pointer
  rw [table] at live
  rw [flows] at known
  rw [infos] at pointer
  have old : (w.infos j).strings y = some t → t ∈ (w'.maps q y).map MapEntry.object :=
    fun before => maps q y t (ledger.shape.strings b live q j known y t before)
  by_cases sameInfo : j = i
  · by_cases sameField : y = x
    · subst sameInfo
      subst sameField
      obtain rfl := ledger.protocol_eq member attached live known
      have given : some s = some t := by simpa [setString, setInfo] using pointer
      obtain rfl := Option.some.inj given
      exact listed
    · exact old (by simpa [setString, setInfo, sameInfo, sameField] using pointer)
  · exact old (by simpa [setString, setInfo, sameInfo] using pointer)

/-- A hit changes neither the keys of a map nor its objects. -/
theorem setMap_addHits (w : World) (p q : L7Protocol) (x y : StringField) (value : Bytes) (n : Int)
    (ordered : w.disordered p x = false) :
    ((w.setMap p x (addHits (w.maps p x) value n)).maps q y).map MapEntry.object =
        (w.maps q y).map MapEntry.object ∧
      ((w.setMap p x (addHits (w.maps p x) value n)).maps q y).map MapEntry.key =
        (w.maps q y).map MapEntry.key := by
  by_cases chosen : q = p ∧ y = x
  · obtain ⟨rfl, rfl⟩ := chosen
    rw [setMap_same, settle_clean ordered]
    exact ⟨addHits_objects _ _ _, addHits_keys _ _ _⟩
  · rw [setMap_other chosen]
    exact ⟨rfl, rfl⟩

theorem ledger_found {a i : Obj} {p : L7Protocol} {x : StringField} {value : Bytes} {n : Int}
    {e : MapEntry} (ledger : Ledger objects w) (member : a ∈ w.table)
    (attached : (w.flows a).info p = some i) (found : find (w.maps p x) value = some e) :
    Ledger objects
      ((w.setMap p x (addHits (w.maps p x) value n)).setString i x (some e.object)) := by
  obtain ⟨entry, -⟩ := find_some found
  obtain ⟨nodup, flows, idle, strings, keys, names, ordered⟩ := ledger.shape
  have hits := fun q y => setMap_addHits w p q x y value n (ordered p x)
  refine ledger_moves ledger ⟨nodup, flows, idle, ?_, ?_, ?_, ordered⟩ (moves_same (fun _ _ => rfl) ?_)
  · refine strings_setString (s := e.object) (x := x) ledger member attached rfl rfl rfl ?_ ?_
    · intro q y t listed
      exact (hits q y).1.symm ▸ listed
    · exact (hits p x).1.symm ▸ List.mem_map_of_mem entry
  · intro q y
    exact (hits q y).2.symm ▸ keys q y
  · intro q y e' listed
    by_cases chosen : q = p ∧ y = x
    · obtain ⟨rfl, rfl⟩ := chosen
      have hit : e' ∈ addHits (w.maps q y) value n := by
        have known : e' ∈ (w.setMap q y (addHits (w.maps q y) value n)).maps q y := listed
        rwa [setMap_same, settle_clean (ordered q y)] at known
      obtain ⟨e₀, old, key, object⟩ := mem_addHits hit
      rw [← key, ← object]
      exact names q y e₀ old
    · refine names q y e' ?_
      have known : e' ∈ (w.setMap p x (addHits (w.maps p x) value n)).maps q y := listed
      rwa [setMap_other chosen] at known
  · funext id
    cases string : id.isString with
    | false => rw [out_direct _ string, out_direct w string]; rfl
    | true =>
      cases id with
      | string q y => exact (hits q y).1
      | _ => exact absurd string (by simp [CacheId.isString])

section NewEntry

variable {p : L7Protocol} {x : StringField} {e : MapEntry}

/-- A new entry has a key that its map did not have. -/
theorem keys_new (keys : ∀ q y, ((w.maps q y).map MapEntry.key).Nodup)
    (key : find (w.maps p x) e.key = none) (maps : w'.maps p x = e :: w.maps p x)
    (others : ∀ q y, ¬(q = p ∧ y = x) → w'.maps q y = w.maps q y) :
    ∀ q y, ((w'.maps q y).map MapEntry.key).Nodup := by
  intro q y
  by_cases chosen : q = p ∧ y = x
  · obtain ⟨rfl, rfl⟩ := chosen
    rw [maps, List.map_cons]
    refine List.nodup_cons.mpr ⟨fun listed => ?_, keys q y⟩
    obtain ⟨e', entry, same⟩ := List.mem_map.mp listed
    exact find_none key e' entry same
  · rw [others q y chosen]
    exact keys q y

/-- The string of a new entry is one that no map has, so that its name belongs to this entry alone. -/
theorem names_new (ledger : Ledger objects w) (home : e.object.home = .string p x)
    (new : e.object ∉ w.out (.string p x)) (key : e.key = cString (w'.names e.object))
    (named : ∀ t, t ≠ e.object → w'.names t = w.names t) (maps : w'.maps p x = e :: w.maps p x)
    (others : ∀ q y, ¬(q = p ∧ y = x) → w'.maps q y = w.maps q y) :
    ∀ q y, ∀ e' ∈ w'.maps q y, e'.key = cString (w'.names e'.object) := by
  intro q y e' entry
  by_cases chosen : q = p ∧ y = x
  · obtain ⟨rfl, rfl⟩ := chosen
    rw [maps] at entry
    rcases List.mem_cons.mp entry with rfl | old
    · exact key
    · have other : e'.object ≠ e.object := fun same => new (same ▸ List.mem_map_of_mem old)
      rw [named _ other]
      exact ledger.shape.names q y e' old
  · rw [others q y chosen] at entry
    have other : e'.object ≠ e.object := by
      intro same
      have elsewhere := ledger.mapped_home (List.mem_map_of_mem entry)
      rw [same, home] at elsewhere
      injection elsewhere with sameProtocol sameField
      exact chosen ⟨sameProtocol.symm, sameField.symm⟩
    rw [named _ other]
    exact ledger.shape.names q y e' entry

theorem mem_maps_new {t : Obj} (maps : w'.maps p x = e :: w.maps p x)
    (others : ∀ q y, ¬(q = p ∧ y = x) → w'.maps q y = w.maps q y) {q : L7Protocol} {y : StringField}
    (listed : t ∈ (w.maps q y).map MapEntry.object) : t ∈ (w'.maps q y).map MapEntry.object := by
  by_cases chosen : q = p ∧ y = x
  · obtain ⟨rfl, rfl⟩ := chosen
    rw [maps, List.map_cons]
    exact List.mem_cons_of_mem _ listed
  · rw [others q y chosen]
    exact listed

end NewEntry

/-- A string that is new to the map goes from the pool to the map. -/
theorem ledger_new {a i s : Obj} {p : L7Protocol} {x : StringField} {value : Bytes} {c : Cache}
    (ledger : Ledger objects w) (member : a ∈ w.table)
    (attached : (w.flows a).info p = some i)
    (acquired : (w.cache (.string p x)).acquire = .ok (some s, c))
    (key : find (w.maps p x) (cString value) = none)
    (stored : w' = (((w.setCache (.string p x) c).setName s value).setString i x (some s)).setMap p x
      (insert ((w.setName s value).maps p x) { key := cString value, object := s, hits := 1 })) :
    Ledger objects w' ∧ w'.table = w.table ∧ w'.flows = w.flows := by
  obtain ⟨made, new⟩ := ledger.acquired rfl acquired
  have inserted := insert_fresh (m := w.maps p x)
    (e := { key := cString value, object := s, hits := 1 }) key
  obtain ⟨nodup, flows, idle, strings, keys, names, ordered⟩ := ledger.shape
  have unmapped : ∀ q y, s ∉ (w.maps q y).map MapEntry.object := by
    intro q y listed
    have elsewhere := ledger.mapped_home listed
    rw [made] at elsewhere
    injection elsewhere with sameProtocol sameField
    exact new (sameProtocol ▸ sameField ▸ listed)
  have called := fun q y => setName_clean (unmapped q y) value
  rw [(called p x).1, inserted] at stored
  have maps : w'.maps p x = { key := cString value, object := s, hits := 1 } :: w.maps p x := by
    have clean : (((w.setCache (.string p x) c).setName s value).setString i x
        (some s)).disordered p x = false := (called p x).2.trans (ordered p x)
    rw [stored, setMap_same, settle_clean clean]
  have order : ∀ q y, w'.disordered q y = false := by
    intro q y
    rw [stored]
    exact (called q y).2.trans (ordered q y)
  have others : ∀ q y, ¬(q = p ∧ y = x) → w'.maps q y = w.maps q y := by
    intro q y other
    rw [stored, setMap_other other]
    exact (called q y).1
  have table : w'.table = w.table := by
    rw [stored]
    simp [setMap, setString, setInfo, setName]
  have flow : w'.flows = w.flows := by
    rw [stored]
    simp [setMap, setString, setInfo, setName]
  have named : ∀ t, w'.names t = if t = s then value else w.names t := by
    intro t
    rw [stored]
    simp [setMap, setString, setInfo, setName]
  have infos : w'.infos = (w.setString i x (some s)).infos := by
    rw [stored]
    simp [setMap, setString, setInfo, setName]
  have cache : ∀ id, w'.cache id = (w.setCache (.string p x) c).cache id := by
    intro id
    rw [stored]
    rfl
  refine ⟨ledger_moves ledger ⟨table ▸ nodup, ?_, ?_, ?_, keys_new keys key maps others,
    names_new ledger made new ?_ (fun t other => ?_) maps others, order⟩
    (moves_acquired acquired ?_ ?_ ?_ ?_), table, flow⟩
  · rw [table, flow]
    exact flows
  · rw [table, flow]
    exact idle
  · refine strings_setString ledger member attached infos table flow
      (fun q y t listed => mem_maps_new maps others listed) ?_
    rw [maps, List.map_cons]
    exact List.mem_cons_self
  · simp only [named, if_true]
  · rw [named, if_neg other]
  · rw [cache, cache_setCache_same]
  · intro id other
    rw [cache, cache_setCache_other other]
  · simp only [out, maps, List.map_cons]
    exact List.Perm.refl _
  · intro id other
    exact out_string_other others table flow other

theorem ledger_intern {a i : Obj} {p : L7Protocol} {x : StringField} {countHit : Bool}
    {value : Bytes} (ledger : Ledger objects w) (member : a ∈ w.table)
    (attached : (w.flows a).info p = some i) (fresh : w.FreshKey p x i value)
    (h : w.intern p x (decide (x = .uri)) countHit i value = .ok w') :
    Ledger objects w' ∧ w'.table = w.table ∧ w'.flows = w.flows := by
  rcases intern_cases h with ⟨-, -, rfl⟩ | ⟨e, n, found, -, -, rfl⟩ |
    ⟨s, c, acquired, absent, missing, rfl⟩ |
    ⟨c, failed, -, -, rfl⟩
  · exact ⟨ledger, rfl, rfl⟩
  · exact ⟨ledger_found ledger member attached found, rfl, rfl⟩
  · have room : 0 < (w.cache (.string p x)).total := (Cache.acquire_some acquired).1
    refine ledger_new ledger member attached acquired (fresh ?_ absent room) rfl
    rcases missing with uri | expired
    · exact Or.inl (of_decide_eq_true uri)
    · exact Or.inr expired
  · exact ⟨ledger_failed ledger failed, by simp, by simp⟩

end AIEngine.World
