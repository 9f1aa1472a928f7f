import AIEngine.Resources.Spec
import AIEngine.Library.Endings

/-!
# What the application layer does with a payload

The forwarder of a flow hands the payload to one application protocol or to the frequency engine.
Whatever they do, they leave alone what the transport below knows of its flows.
-/

namespace AIEngine

/-- What a forwarded payload sets off, as far as pooled objects go. -/
inductive Application where
  | nothing
  | protocol (p : L7Protocol) (found : List World.AppAction)
  | frequency (layer : Nat) (payload : Payload)
  deriving DecidableEq, Repr

/-- What names a flow in its table and orders the table: nothing above the transport touches it. -/
structure FlowIdent where
  hash : BitVec 64
  address : IPAddress
  sourcePort : BitVec 16
  destPort : BitVec 16
  protocol : BitVec 16
  tag : BitVec 32
  haveTag : Bool
  arriveTime : Int
  currentTime : Int
  deriving DecidableEq, Repr

def Flow.ident (f : Flow) : FlowIdent where
  hash := f.hash
  address := f.address
  sourcePort := f.sourcePort
  destPort := f.destPort
  protocol := f.protocol
  tag := f.tag
  haveTag := f.haveTag
  arriveTime := f.arriveTime
  currentTime := f.currentTime

@[simp] theorem Flow.setInfo_ident (f : Flow) (p : L7Protocol) (i : Option Obj) :
    (f.setInfo p i).ident = f.ident := by cases p <;> rfl

namespace FrequencyProtocol

theorem attachFrequencies_ident {p p' : FrequencyProtocol} {f f' : Flow} {r : Option Obj}
    (h : p.attachFrequencies f = .ok (r, p', f')) : f'.ident = f.ident := by
  unfold attachFrequencies at h
  split at h
  · cases h
    rfl
  · split at h <;> cases h <;> rfl

theorem attachPacketFrequencies_ident {p p' : FrequencyProtocol} {f f' : Flow} {r : Option Obj}
    (h : p.attachPacketFrequencies f = .ok (r, p', f')) : f'.ident = f.ident := by
  unfold attachPacketFrequencies at h
  split at h
  · cases h
    rfl
  · split at h <;> cases h <;> rfl

theorem processFlow_ident {p p' : FrequencyProtocol} {f f' : Flow} {payload : Payload}
    (h : p.processFlow f payload = .ok (p', f')) : f'.ident = f.ident := by
  unfold processFlow at h
  simp only at h
  split at h
  · obtain ⟨⟨_, p₁, f₁⟩, first, h⟩ := Ending.bind_ok h
    obtain ⟨⟨_, p₂, f₂⟩, second, h⟩ := Ending.bind_ok h
    obtain ⟨p₃, -, h⟩ := Ending.bind_ok h
    cases h
    have same := attachFrequencies_ident first
    rw [attachPacketFrequencies_ident second, same]
    rfl
  · cases h
    rfl

end FrequencyProtocol

namespace World

def runApplication (w : World) (a : Obj) : Application → Except Fault World
  | .nothing => .ok w
  | .protocol p found => w.processFlow p a found
  | .frequency k payload =>
    match (w.frequency k).processFlow (w.flows a) payload with
    | .ok (q, f) => .ok ((w.setFrequency k q).setFlow a f)
    | .error e => .error e

/-- Nothing the flow table of a layer relies on differs. -/
structure SameTable (layer : Nat) (w w' : World) : Prop where
  cache : w'.cache (.flow layer) = w.cache (.flow layer)
  table : w'.table = w.table
  flows : ∀ b, (w'.flows b).ident = (w.flows b).ident

variable {layer : Nat}

namespace SameTable

theorem refl (w : World) : SameTable layer w w := ⟨rfl, rfl, fun _ => rfl⟩

theorem trans {w w' w'' : World} (first : SameTable layer w w')
    (second : SameTable layer w' w'') : SameTable layer w w'' :=
  ⟨second.cache.trans first.cache, second.table.trans first.table,
    fun b => (second.flows b).trans (first.flows b)⟩

end SameTable

theorem sameTable_setCache (w : World) {id : CacheId} (c : Cache) (other : .flow layer ≠ id) :
    SameTable layer w (w.setCache id c) :=
  ⟨cache_setCache_other other, by simp, fun b => by simp⟩

theorem sameTable_setFlow (w : World) {a : Obj} {f : Flow}
    (same : f.ident = (w.flows a).ident) : SameTable layer w (w.setFlow a f) := by
  refine ⟨rfl, rfl, fun b => ?_⟩
  by_cases chosen : b = a
  · rw [chosen]
    simp [setFlow, same]
  · simp [setFlow, chosen]

theorem sameTable_releaseTo (w : World) {id : CacheId} (s : Option Obj)
    (other : .flow layer ≠ id) : SameTable layer w (w.releaseTo id s) :=
  sameTable_setCache w _ other

theorem sameTable_attachInfo {w w' : World} {p : L7Protocol} {a : Obj} {r : Option Obj}
    (h : w.attachInfo p a = .ok (r, w')) : SameTable layer w w' := by
  rcases attachInfo_cases h with ⟨_, _, _, rfl⟩ | ⟨i, c, _, _, _, rfl⟩ | ⟨c, _, _, rfl⟩
  · exact .refl _
  · have taken : SameTable layer w (w.setCache (.info p) c) := sameTable_setCache w c (by simp)
    have fresh : SameTable layer (w.setCache (.info p) c) ((w.setCache (.info p) c).setInfo i {}) :=
      ⟨rfl, rfl, fun _ => rfl⟩
    refine (taken.trans fresh).trans (sameTable_setFlow _ ?_)
    simp [setInfo]
  · exact sameTable_setCache w c (by simp)

theorem sameTable_intern {w w' : World} {p : L7Protocol} {x : StringField}
    {always countHit : Bool} {i : Obj} {value : Bytes}
    (h : w.intern p x always countHit i value = .ok w') : SameTable layer w w' := by
  rcases intern_cases h with ⟨-, -, rfl⟩ | ⟨e, n, _, _, _, rfl⟩ | ⟨s, c, _, _, _, rfl⟩ |
    ⟨c, -, -, -, rfl⟩
  · exact .refl _
  · exact ⟨rfl, rfl, fun _ => rfl⟩
  · have taken : SameTable layer w (w.setCache (.string p x) c) :=
      sameTable_setCache w c (by simp)
    exact taken.trans ⟨rfl, rfl, fun _ => rfl⟩
  · exact sameTable_setCache w c (by simp)

theorem sameTable_releaseString (w : World) (p : L7Protocol) (x target : StringField)
    (resetPointer : Bool) (i : Obj) :
    SameTable layer w (w.releaseString p x target resetPointer i) := by
  unfold releaseString
  split
  · exact .refl _
  · have reset : SameTable layer w (if resetPointer then w.setString i x none else w) := by
      split
      · exact ⟨rfl, rfl, fun _ => rfl⟩
      · exact .refl _
    exact reset.trans (sameTable_releaseTo _ _ (by simp))

theorem sameTable_dropHit (w : World) (p : L7Protocol) (x : StringField) (i : Obj) :
    SameTable layer w (w.dropHit p x i) := by
  unfold dropHit
  split
  · exact .refl _
  · exact ⟨rfl, rfl, fun _ => rfl⟩

theorem sameTable_setBanned (w : World) (i : Obj) : SameTable layer w (w.setBanned i) :=
  ⟨rfl, rfl, fun _ => rfl⟩

theorem sameTable_releaseHttpInfoCache (w : World) (i : Obj) :
    SameTable layer w (Http.releaseHttpInfoCache w i) := by
  have ua : SameTable layer w (w.dropHit .http .ua i) := sameTable_dropHit w .http .ua i
  have hits := ua.trans (sameTable_dropHit _ .http .uri i)
  have host := hits.trans (sameTable_releaseString _ .http .host .host false i)
  have host_ua := host.trans (sameTable_releaseString _ .http .ua .ua false i)
  have strings := host_ua.trans (sameTable_releaseString _ .http .uri .uri false i)
  exact strings.trans ⟨rfl, rfl, fun _ => rfl⟩

theorem sameTable_ban (w : World) (p : L7Protocol) (i : Obj) :
    SameTable layer w (w.ban p i) := by
  have marked : SameTable layer w (w.setBanned i) := sameTable_setBanned w i
  cases p with
  | http => exact marked.trans (sameTable_releaseHttpInfoCache _ i)
  | smtp => exact marked
  | pop => exact marked
  | imap => exact marked
  | _ => exact .refl _

theorem sameTable_runActions {p : L7Protocol} {i : Obj} (actions : List AppAction)
    {w w' : World} (h : w.runActions p i actions = .ok w') : SameTable layer w w' := by
  induction actions generalizing w with
  | nil =>
    obtain rfl := Except.ok.inj h
    exact .refl _
  | cons action rest ih =>
    cases action with
    | ban =>
      obtain rfl := Except.ok.inj h
      exact sameTable_ban w p i
    | string x value =>
      simp only [runActions] at h
      split at h
      · exact ih h
      · rename_i attach known
        obtain ⟨countHit, rfl⟩ := attachString_intern known
        split at h
        · rename_i w₁ attached
          exact (sameTable_intern attached).trans (ih h)
        · exact absurd h (by simp)

theorem sameTable_processFlow {w w' : World} {p : L7Protocol} {a : Obj}
    {actions : List AppAction} (h : w.processFlow p a actions = .ok w') : SameTable layer w w' := by
  obtain ⟨r, w₁, attached, rfl | ⟨i, -, -, ran⟩⟩ := processFlow_cases h
  · exact sameTable_attachInfo attached
  · exact (sameTable_attachInfo attached).trans (sameTable_runActions actions ran)

/-- No application touches the flow table. -/
theorem sameTable_runApplication {w w' : World} {a : Obj} {x : Application}
    (h : w.runApplication a x = .ok w') : SameTable layer w w' := by
  cases x with
  | nothing =>
    obtain rfl := Except.ok.inj h
    exact .refl _
  | protocol p found => exact sameTable_processFlow h
  | frequency k payload =>
    simp only [runApplication] at h
    split at h
    · rename_i q f processed
      obtain rfl := Except.ok.inj h
      have written : SameTable layer w (w.setFrequency k q) := ⟨rfl, rfl, fun _ => rfl⟩
      exact written.trans (sameTable_setFlow _ (FrequencyProtocol.processFlow_ident processed))
    · exact absurd h (by simp)

end World

end AIEngine
