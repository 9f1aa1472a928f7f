import AIEngine.Resources.LedgerPayload

/-!
# Conservation

What the end of a flow gives back, and the balance of all caches over whole runs. The release of a
flow has no case for the objects of the frequency engine: the flows that it has seen take them along.
-/

namespace AIEngine.World

variable {objects : CacheId → Nat} {w w' : World}

/-! ### The end of a flow -/

/-- An object goes to the cache that made it. -/
def giveTo (w : World) : Option Obj → World
  | none => w
  | some o => w.releaseTo o.home (some o)

theorem giveTo_given (w : World) (o : Obj) :
    (w.giveTo (some o)).cache o.home = (w.cache o.home).release (some o) := cache_setCache_same ..

theorem giveTo_other {s : Option Obj} {id : CacheId} (other : ∀ o, s = some o → o.home ≠ id) :
    (w.giveTo s).cache id = w.cache id := by
  cases s with
  | none => rfl
  | some o => exact cache_setCache_other (other o rfl).symm

theorem giveTo_rest (w : World) (s : Option Obj) :
    (w.giveTo s).table = w.table ∧ (w.giveTo s).flows = w.flows ∧ (w.giveTo s).maps = w.maps ∧
      (w.giveTo s).names = w.names ∧ (w.giveTo s).infos = w.infos ∧
      (w.giveTo s).disordered = w.disordered := by
  cases s with
  | none => exact ⟨rfl, rfl, rfl, rfl, rfl, rfl⟩
  | some o => simp [giveTo, releaseTo]

theorem releaseFirst_none {f : Flow} {ps : List L7Protocol} (none : ∀ p ∈ ps, f.info p = none) :
    w.releaseFirst f ps = w := by
  induction ps with
  | nil => rfl
  | cons p rest ih =>
    have expired : w.lockInfo p f = .none := by
      unfold lockInfo
      rw [none p List.mem_cons_self]
      rfl
    unfold releaseFirst
    rw [expired]
    exact ih fun q listed => none q (List.mem_cons_of_mem p listed)

/-- With one info alone, the case analysis finds it. -/
theorem releaseFirst_only {f : Flow} {ps : List L7Protocol} {p : L7Protocol} {i : Obj}
    (attached : f.info p = some i) (alone : ∀ q, q ≠ p → f.info q = none) (listed : p ∈ ps)
    (owned : (w.cache (.info p)).Owns i) :
    w.releaseFirst f ps = w.releaseTo (.info p) (some i) := by
  induction ps with
  | nil => exact absurd listed (by simp)
  | cons q rest ih =>
    unfold releaseFirst
    by_cases same : q = p
    · have locked : w.lockInfo q f = some i := by
        unfold lockInfo
        rw [same, attached]
        exact Cache.lock_of_owns owned
      rw [locked, same]
    · have expired : w.lockInfo q f = none := by
        unfold lockInfo
        rw [alone q same]
        rfl
      rw [expired]
      exact ih ((List.mem_cons.mp listed).resolve_left (Ne.symm same))

theorem FlowShape.alone {f : Flow} {p : L7Protocol} {i : Obj} (shape : FlowShape f)
    (attached : f.info p = some i) : ∀ q, q ≠ p → f.info q = none := by
  intro q other
  cases known : f.info q with
  | none => rfl
  | some j =>
    obtain ⟨-, forwarder⟩ := shape.info p i attached
    obtain ⟨-, forwarder'⟩ := shape.info q j known
    have code := Option.some.inj (forwarder'.symm.trans forwarder)
    exact absurd (L7Protocol.index_inj code) other

/-- What a live flow points to is out, and owned by the cache that made it. -/
theorem Ledger.attached {a o : Obj} (ledger : Ledger objects w) (member : a ∈ w.table)
    (pointer : o ∈ (w.flows a).pointers) : o ∈ w.out o.home ∧ (w.cache o.home).Owns o := by
  obtain ⟨slot, direct, pooled⟩ := (ledger.shape.flows a member).pointer pointer
  have listed : o ∈ w.out o.home := (mem_out_direct direct).mpr ⟨a, member, slot⟩
  exact ⟨listed, (ledger.accounts o.home pooled).owned direct o listed⟩

theorem tcp_listed {p : L7Protocol} (tcp : p.ipproto = ipprotoTcp) :
    p ∈ [L7Protocol.http, .ssl, .smtp, .pop, .imap] := by
  revert tcp
  cases p <;> decide

theorem udp_listed {p : L7Protocol} (udp : p.ipproto ≠ ipprotoTcp) :
    p = .gprs ∨ p ∈ [L7Protocol.dns, .sip, .ssdp] := by
  revert udp
  cases p <;> decide

theorem releaseTcpInfo_eq {a : Obj} (ledger : Ledger objects w) (member : a ∈ w.table)
    (registered : ∀ i, (w.flows a).tcpInfo = some i →
      ∃ k, w.tcpInfoCache = some k ∧ i.home = .tcpInfo k) :
    w.releaseTcpInfo (w.flows a) = w.giveTo (w.flows a).tcpInfo := by
  unfold releaseTcpInfo
  cases info : (w.flows a).tcpInfo with
  | none => rfl
  | some i =>
    obtain ⟨k, known, home⟩ := registered i info
    have owned := (ledger.attached member (Flow.mem_pointers.mpr (Or.inl info))).2
    rw [known]
    simp only [giveTo, home]
    rw [home] at owned
    rw [if_pos (Or.inl owned)]

theorem giveTo_udp {f : Flow} (shape : FlowShape f) (udp : f.protocol ≠ ipprotoTcp) :
    w.giveTo f.tcpInfo = w := by
  cases info : f.tcpInfo with
  | none => rfl
  | some i => exact absurd (shape.tcp i info).1 udp

/-- The nested case analysis of a flow with one info. -/
theorem releaseFlow_attached {a i : Obj} {p : L7Protocol} (ledger : Ledger objects w)
    (member : a ∈ w.table) (attached : (w.flows a).info p = some i)
    (tcp : w.releaseTcpInfo (w.flows a) = w.giveTo (w.flows a).tcpInfo) :
    w.releaseFlow (w.flows a) = (w.giveTo (w.flows a).tcpInfo).giveTo (some i) := by
  have shape := ledger.shape.flows a member
  have alone := shape.alone attached
  obtain ⟨home, forwarder⟩ := shape.info p i attached
  have protocol := shape.matched p forwarder
  have owned :=
    (ledger.attached member (Flow.mem_pointers.mpr (Or.inr (Or.inr (Or.inr ⟨p, attached⟩))))).2
  rw [home] at owned
  have given : ∀ u : World, u.giveTo (some i) = u.releaseTo (.info p) (some i) := by
    intro u
    rw [giveTo, home]
  rw [given]
  unfold releaseFlow
  by_cases isTcp : (w.flows a).protocol = ipprotoTcp
  · rw [if_pos isTcp, tcp]
    refine releaseFirst_only attached alone (tcp_listed (protocol.symm.trans isTcp)) ?_
    rw [giveTo_other]
    · exact owned
    · intro o info same
      obtain ⟨-, k, other⟩ := shape.tcp o info
      exact absurd (same.symm.trans other) (by simp)
  · rw [if_neg isTcp, giveTo_udp shape isTcp]
    rcases udp_listed (fun same => isTcp (protocol.trans same)) with rfl | listed
    · rw [releaseFirst_only attached alone List.mem_cons_self owned]
      refine releaseFirst_none fun q listed => alone q ?_
      revert listed
      cases q <;> decide
    · have nothing : w.releaseFirst (w.flows a) [.gprs] = w := by
        refine releaseFirst_none fun q first => alone q ?_
        obtain rfl := List.mem_singleton.mp first
        revert listed
        cases p <;> decide
      rw [nothing]
      exact releaseFirst_only attached alone listed owned

theorem releaseFlow_bare {a : Obj} (ledger : Ledger objects w) (member : a ∈ w.table)
    (none : ∀ p, (w.flows a).info p = none)
    (tcp : w.releaseTcpInfo (w.flows a) = w.giveTo (w.flows a).tcpInfo) :
    w.releaseFlow (w.flows a) = w.giveTo (w.flows a).tcpInfo := by
  unfold releaseFlow
  by_cases isTcp : (w.flows a).protocol = ipprotoTcp
  · rw [if_pos isTcp, tcp, releaseFirst_none fun p _ => none p]
  · rw [if_neg isTcp, releaseFirst_none fun p _ => none p, releaseFirst_none fun p _ => none p,
      giveTo_udp (ledger.shape.flows a member) isTcp]

/-- The nested case analysis gives the info of the flow back, whichever it is. -/
theorem releaseFlow_eq {a : Obj} (ledger : Ledger objects w) (member : a ∈ w.table)
    (registered : ∀ i, (w.flows a).tcpInfo = some i →
      ∃ k, w.tcpInfoCache = some k ∧ i.home = .tcpInfo k) :
    ∃ r, (∀ o, r = some o ↔ ∃ p, (w.flows a).info p = some o) ∧
      w.releaseFlow (w.flows a) = (w.giveTo (w.flows a).tcpInfo).giveTo r := by
  have tcp := releaseTcpInfo_eq ledger member registered
  by_cases present : ∃ p i, (w.flows a).info p = some i
  · obtain ⟨p, i, attached⟩ := present
    have alone := (ledger.shape.flows a member).alone attached
    refine ⟨some i, fun o => ⟨fun same => ⟨p, by rw [attached, same]⟩, fun ⟨q, known⟩ => ?_⟩,
      releaseFlow_attached ledger member attached tcp⟩
    by_cases same : q = p
    · rw [← known, same, attached]
    · exact absurd ((alone q same).symm.trans known) (by simp)
  · have none : ∀ p, (w.flows a).info p = none := by
      intro p
      cases known : (w.flows a).info p with
      | none => rfl
      | some i => exact absurd ⟨p, i, known⟩ present
    refine ⟨.none, fun o => ⟨fun same => absurd same (by simp), fun ⟨p, known⟩ => ?_⟩,
      releaseFlow_bare ledger member none tcp⟩
    exact absurd ⟨p, o, known⟩ present

/-- Under the condition every cache gets back what the flow has of it. -/
theorem endFlow_cache {a : Obj} (ledger : Ledger objects w) (member : a ∈ w.table)
    (clean : w.EndsClean a) (id : CacheId) :
    ((w.flows a).slot id = none → (w.endFlow a).cache id = w.cache id) ∧
    ∀ o, (w.flows a).slot id = some o → (w.endFlow a).cache id = (w.cache id).release (some o) := by
  have shape := ledger.shape.flows a member
  obtain ⟨r, info, released⟩ := releaseFlow_eq ledger member clean.registered
  have cache : (w.endFlow a).cache = ((w.giveTo (w.flows a).tcpInfo).giveTo r).cache := by
    rw [← released]
    rfl
  have apart : ∀ i o, (w.flows a).tcpInfo = some i → r = some o → i.home ≠ o.home := by
    intro i o tcp given same
    obtain ⟨-, k, home⟩ := shape.tcp i tcp
    obtain ⟨p, attached⟩ := (info o).mp given
    rw [home, (shape.info p o attached).1] at same
    exact absurd same (by simp)
  rw [cache]
  constructor
  · intro empty
    have others : ∀ o, (w.flows a).pointer o.home = some o → o.home ≠ id := by
      intro o pointer home
      rw [home] at pointer
      exact absurd ((Flow.slot_some.mpr ⟨pointer, home⟩).symm.trans empty) (by simp)
    rw [giveTo_other, giveTo_other]
    · intro i tcp
      refine others i ?_
      obtain ⟨-, k, home⟩ := shape.tcp i tcp
      rw [home]
      exact tcp
    · intro o given
      refine others o ?_
      obtain ⟨p, attached⟩ := (info o).mp given
      rw [(shape.info p o attached).1]
      exact attached
  · intro o slot
    obtain ⟨pointer, rfl⟩ := Flow.slot_some.mp slot
    rcases Flow.mem_pointers.mp (Flow.pointer_mem pointer) with tcp | frequencies |
      packetFrequencies | ⟨p, attached⟩
    · rw [giveTo_other fun o' given same => apart o o' tcp given same.symm, tcp, giveTo_given]
    · exact absurd (clean.frequencies.symm.trans frequencies) (by simp)
    · exact absurd (clean.packetFrequencies.symm.trans packetFrequencies) (by simp)
    · have given := (info o).mpr ⟨p, attached⟩
      rw [given, giveTo_given, giveTo_other fun i tcp => apart i o tcp given]

theorem endFlow_rest {a : Obj} (ledger : Ledger objects w) (member : a ∈ w.table)
    (clean : w.EndsClean a) : (w.endFlow a).flows = w.flows ∧ (w.endFlow a).maps = w.maps ∧
      (w.endFlow a).names = w.names ∧ (w.endFlow a).infos = w.infos ∧
      (w.endFlow a).disordered = w.disordered := by
  obtain ⟨r, -, released⟩ := releaseFlow_eq ledger member clean.registered
  obtain ⟨-, flows, maps, names, infos, order⟩ := giveTo_rest w (w.flows a).tcpInfo
  obtain ⟨-, flows', maps', names', infos', order'⟩ :=
    giveTo_rest (w.giveTo (w.flows a).tcpInfo) r
  unfold endFlow
  rw [released]
  exact ⟨flows'.trans flows, maps'.trans maps, names'.trans names, infos'.trans infos,
    order'.trans order⟩

theorem ledger_endFlow {a : Obj} (ledger : Ledger objects w) (member : a ∈ w.table)
    (clean : w.EndsClean a) : Ledger objects (w.endFlow a) := by
  obtain ⟨nodup, flowShape, idle, strings, keys, named, ordered⟩ := ledger.shape
  obtain ⟨flows, maps, names, infos, order⟩ := endFlow_rest ledger member clean
  have table : (w.endFlow a).table = w.table.erase a := rfl
  refine ledger_moves ledger ⟨?_, ?_, ?_, ?_, ?_, ?_, order ▸ ordered⟩ ?_
  · rw [table]
    exact nodup.erase a
  · rw [table, flows]
    exact fun b live => flowShape b (List.mem_of_mem_erase live)
  · rw [table, flows]
    intro b absent
    by_cases same : b = a
    · rw [same]
      exact clean.packetFrequencies
    · exact idle b fun live => absent ((List.mem_erase_of_ne same).mpr live)
  · unfold Interned
    rw [table, flows, infos, maps]
    exact fun b live => strings b (List.mem_of_mem_erase live)
  · rw [maps]
    exact keys
  · rw [maps, names]
    exact named
  · intro id pooled
    obtain ⟨same, given⟩ := endFlow_cache ledger member clean id
    cases string : id.isString with
    | true =>
      cases id with
      | string p x =>
        refine .same (same rfl) (.of_eq ?_)
        simp only [client, out, maps]
      | _ => exact absurd string (by simp [CacheId.isString])
    | false =>
      have split := filterMap_erase (fun b => (w.flows b).slot id) member
      have before : w.out id = w.table.filterMap fun b => (w.flows b).slot id :=
        out_direct w string
      have after : (w.endFlow a).out id =
          (w.table.erase a).filterMap fun b => (w.flows b).slot id := by
        rw [out_direct _ string, table, flows]
      rw [← before, ← after] at split
      cases slot : (w.flows a).slot id with
      | none =>
        rw [slot] at split
        exact .same (same slot) split.symm
      | some o =>
        rw [slot] at split
        obtain ⟨pointer, rfl⟩ := Flow.slot_some.mp slot
        have direct := Flow.pointer_mem pointer
        refine .released o (ledger.attached member direct).1 (given o slot) (fun _ => ?_) ?_
        · intro b listed other
          exact clean.keeps o direct b ((ledger.held_iff pooled).mpr listed) other
        · have erased := split.erase o
          simp only [Option.toList_some, List.singleton_append, List.erase_cons_head] at erased
          exact erased.symm

/-- What only the ended flow has is a pointer of it, which goes to the free part of its cache. -/
theorem endFlow_givesBack {a : Obj} (ledger : Ledger objects w) (member : a ∈ w.table)
    (clean : w.EndsClean a) {o : Obj} (attached : o ∈ w.attachedTo a) (unmapped : o ∉ w.mapped) :
    ((w.endFlow a).cache o.home).free = (w.cache o.home).free ++ [some o] := by
  rcases List.mem_append.mp attached with direct | string
  · obtain ⟨slot, -, pooled⟩ := (ledger.shape.flows a member).pointer direct
    rw [(endFlow_cache ledger member clean o.home).2 o slot]
    have account := ledger.accounts o.home pooled
    exact Cache.release_free (some o) (Pool.kept_room account.kept (ledger.attached member direct).1)
  · obtain ⟨p, i, x, known, pointer⟩ := mem_infoStrings.mp string
    have entry := ledger.shape.strings a member p i known x o pointer
    exact absurd (mem_mapped.mpr ⟨p, x, mem_stringFields x, entry⟩) unmapped

/-! ### Runs -/

theorem ledger_overwrite (ledger : Ledger objects w) (sight : Nat → MapEntry → Bytes) :
    Ledger objects (w.overwrite sight) := by
  have maps : (w.overwrite sight).maps = w.maps := by
    funext p x
    exact overwrite_clean (ledger.shape.ordered p x) sight
  exact ledger.congr (fun _ => rfl) rfl rfl maps rfl rfl fun _ => rfl

theorem ledger_step {e : Event} (ledger : Ledger objects w) (clean : w.Clean e)
    (h : w.step e = some w') : Ledger objects w' := by
  cases e with
  | openUdp a =>
    simp only [step] at h
    split at h
    · exact absurd h (by simp)
    · rename_i absent
      obtain rfl := Option.some.inj h
      exact ledger_openFlow ledger absent ipprotoUdp
  | openTcp a layer =>
    simp only [step] at h
    split at h
    · exact absurd h (by simp)
    · rename_i absent
      cases result : w.openTcpFlow a layer with
      | ok w₁ =>
        rw [result] at h
        obtain rfl := Option.some.inj h
        exact ledger_openTcpFlow ledger absent result
      | error e =>
        rw [result] at h
        exact absurd h (by simp [Except.toOption])
  | payload a x =>
    simp only [step] at h
    split at h
    · rename_i member
      exact ledger_payload ledger member clean h
    · exact absurd h (by simp)
  | endFlow a =>
    simp only [step] at h
    split at h
    · rename_i member
      obtain rfl := Option.some.inj h
      exact ledger_endFlow ledger member clean
    · exact absurd h (by simp)
  | memory sight =>
    obtain rfl := Option.some.inj h
    exact ledger_overwrite ledger sight

theorem step_givesBack {e : Event} (ledger : Ledger objects w) (clean : w.Clean e)
    (h : w.step e = some w') : GivesBack w e w' := by
  intro a same o attached unmapped _
  subst same
  simp only [step] at h
  split at h
  · rename_i member
    obtain rfl := Option.some.inj h
    exact endFlow_givesBack ledger member clean attached unmapped
  · exact absurd h (by simp)

/-- Over clean steps every cache stays in balance, and every flow that ends gives back what it has. -/
theorem always_conserved (objects : CacheId → Nat) (registered : Option Nat) (es : List Event)
    (clean : Transition.Along step (fun w e _ => w.Clean e) (start objects registered) es) :
    Transition.Always step (Conserved objects) (start objects registered) es ∧
      Transition.Along step GivesBack (start objects registered) es := by
  have ledgers : Transition.Always step (Ledger objects) (start objects registered) es :=
    Transition.always_of_along (fun _ _ _ ledger stepped met => ledger_step ledger met stepped)
      (ledger_start objects registered) clean
  refine ⟨Transition.always_mono (fun _ ledger => ledger.conserved) ledgers, ?_⟩
  exact Transition.along_mono (fun _ _ _ ledger stepped met => step_givesBack ledger met stepped)
    ledgers clean

/-- A TCP flow sends a user agent and ends. -/
theorem always_conserved_http :
    Transition.Always step (Conserved fun _ => 1) (start (fun _ => 1) (some 0))
        [.openTcp ⟨.flow 0, 0⟩ 0, .payload ⟨.flow 0, 0⟩ (.protocol .http [.string .ua [65]]),
          .endFlow ⟨.flow 0, 0⟩] ∧
      Transition.Along step GivesBack (start (fun _ => 1) (some 0))
        [.openTcp ⟨.flow 0, 0⟩ 0, .payload ⟨.flow 0, 0⟩ (.protocol .http [.string .ua [65]]),
          .endFlow ⟨.flow 0, 0⟩] := by
  refine always_conserved _ _ _ ?_
  refine Transition.along_cons rfl trivial (Transition.along_cons rfl ?_
    (Transition.along_cons rfl ?_ trivial))
  · intro i w' attached _
    cases attached
    exact ⟨fun _ _ _ => rfl, fun _ _ => trivial⟩
  · refine ⟨rfl, rfl, fun i known => ?_, fun o member b held other => ?_⟩
    · cases known
      exact ⟨0, rfl, rfl⟩
    · have listed : o ∈ [(⟨.tcpInfo 0, 0⟩ : Obj), ⟨.info .http, 0⟩] := member
      have pointers : o = ⟨.tcpInfo 0, 0⟩ ∨ o = ⟨.info .http, 0⟩ := by simpa using listed
      rcases pointers with rfl | rfl
      · obtain rfl := List.mem_singleton.mp (held : b ∈ [(⟨.tcpInfo 0, 0⟩ : Obj)])
        exact absurd rfl other
      · obtain rfl := List.mem_singleton.mp (held : b ∈ [(⟨.info .http, 0⟩ : Obj)])
        exact absurd rfl other

/-- A flow that the frequency engine has seen ends: its frequencies are neither free nor attached. -/
theorem not_always_conserved :
    ¬∀ objects registered es,
      Transition.Always step (Conserved objects) (start objects registered) es := by
  intro h
  have conserved := Transition.always_final (h (fun _ => 1) none
    [.openUdp ⟨.flow 0, 0⟩, .payload ⟨.flow 0, 0⟩ (.frequency 0 [65]), .endFlow ⟨.flow 0, 0⟩]) rfl
  have balance := (conserved (.frequencies 0) rfl).1
  revert balance
  decide

end AIEngine.World
