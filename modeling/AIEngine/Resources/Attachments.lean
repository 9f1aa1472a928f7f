import AIEngine.Pool.Kept
import AIEngine.Resources.Application
import Mathlib.Data.List.Dedup

/-!
# What is attached to the flows

The objects of a cache that are out: attached to a live flow, to the info of one, or held in a map.
A flow is forwarded to one protocol for as long as it lives, and leaves the table through
`CacheManager::releaseFlow`.
-/

namespace AIEngine

open World

def L7Protocol.all : List L7Protocol := [.http, .ssl, .smtp, .imap, .pop, .dns, .sip, .ssdp, .gprs]

def L7Protocol.index : L7Protocol → Nat
  | .http => 0
  | .ssl => 1
  | .smtp => 2
  | .imap => 3
  | .pop => 4
  | .dns => 5
  | .sip => 6
  | .ssdp => 7
  | .gprs => 8

/-- The transport whose forwarder knows the protocol. -/
def L7Protocol.ipproto : L7Protocol → BitVec 16
  | .http => ipprotoTcp
  | .ssl => ipprotoTcp
  | .smtp => ipprotoTcp
  | .imap => ipprotoTcp
  | .pop => ipprotoTcp
  | _ => ipprotoUdp

/-- The `FlowForwarder` of an application. -/
def Application.forwarder : Application → Option Nat
  | .nothing => none
  | .protocol p _ => some p.index
  | .frequency k _ => some (9 + k)

def Application.Accepts (x : Application) (protocol : BitVec 16) : Prop :=
  match x with
  | .protocol p _ => protocol = p.ipproto
  | _ => True

instance (x : Application) (protocol : BitVec 16) : Decidable (x.Accepts protocol) := by
  unfold Application.Accepts
  split <;> infer_instance

def CacheId.isFlow : CacheId → Bool
  | .flow _ => true
  | _ => false

def CacheId.isString : CacheId → Bool
  | .string _ _ => true
  | _ => false

/-- The pointers of a flow to objects of a kind of cache. -/
def Flow.pointer (f : Flow) : CacheId → Option Obj
  | .tcpInfo _ => f.tcpInfo
  | .info p => f.info p
  | .frequencies _ => f.frequencies
  | .packetFrequencies _ => f.packetFrequencies
  | _ => none

def Flow.pointers (f : Flow) : List Obj :=
  ([f.tcpInfo, f.frequencies, f.packetFrequencies] ++ L7Protocol.all.map f.info).filterMap id

/-- The object of the cache that is attached to the flow. -/
def Flow.slot (f : Flow) (id : CacheId) : Option Obj :=
  (f.pointer id).filter fun o => decide (o.home = id)

namespace World

/-- The strings of the infos of a flow. -/
def infoStrings (w : World) (f : Flow) : List Obj :=
  L7Protocol.all.flatMap fun p =>
    match f.info p with
    | some i => stringFields.filterMap (w.infos i).strings
    | none => []

def attachedTo (w : World) (a : Obj) : List Obj :=
  (w.flows a).pointers ++ w.infoStrings (w.flows a)

def mapped (w : World) : List Obj :=
  L7Protocol.all.flatMap fun p => stringFields.flatMap fun x => (w.maps p x).map MapEntry.object

/-- The objects of a cache that are attached to live flows or held in maps. -/
def heldBy (w : World) (id : CacheId) : List Obj :=
  ((w.table.flatMap w.attachedTo ++ w.mapped).filter fun o => decide (o.home = id)).dedup

/-- A slot of its cache or a map owns the object. -/
def Alive (w : World) (o : Obj) : Prop := (w.cache o.home).Owns o ∨ o ∈ w.mapped

instance (w : World) (o : Obj) : Decidable (w.Alive o) := inferInstanceAs (Decidable (_ ∨ _))

/-! ### Runs -/

def forwardTo (w : World) (a : Obj) (x : Application) : World :=
  w.setFlow a { w.flows a with forwarder := x.forwarder }

/-- `FlowForwarder::forwardFlow`: a flow keeps its forwarder; without one, the payload goes to a
protocol of its transport that accepts it. -/
def forward (w : World) (a : Obj) (x : Application) : Option World :=
  if (w.flows a).forwarder = x.forwarder ∨
      (w.flows a).forwarder = none ∧ x.Accepts (w.flows a).protocol then
    ((w.forwardTo a x).runApplication a x).toOption
  else none

inductive Event where
  | openUdp (a : Obj)
  | openTcp (a : Obj) (layer : Nat)
  | payload (a : Obj) (x : Application)
  | endFlow (a : Obj)
  /-- what lies behind freed octets is written over -/
  | memory (sight : Nat → MapEntry → Bytes)

def step (w : World) : Event → Option World
  | .openUdp a => if a ∈ w.table then none else some (w.openFlow a ipprotoUdp)
  | .openTcp a layer => if a ∈ w.table then none else (w.openTcpFlow a layer).toOption
  | .payload a x => if a ∈ w.table then w.forward a x else none
  | .endFlow a => if a ∈ w.table then some (w.endFlow a) else none
  | .memory sight => some (w.overwrite sight)

/-! ### Balance -/

/-- In every cache the free objects and those that are attached or mapped make up the `objects` it was
created with, and none of the latter is lost. -/
def Conserved (objects : CacheId → Nat) (w : World) : Prop :=
  ∀ id, id.isFlow = false →
    (w.cache id).total + (w.heldBy id).length = objects id ∧ ∀ o ∈ w.heldBy id, w.Alive o

/-- The end of a flow gives each object that only this flow has back to its cache, once. -/
def GivesBack (w : World) (e : Event) (w' : World) : Prop :=
  ∀ a, e = .endFlow a → ∀ o ∈ w.attachedTo a, o ∉ w.mapped →
    (∀ b ∈ w.table, b ≠ a → o ∉ w.attachedTo b) →
      (w'.cache o.home).free = (w.cache o.home).free ++ [some o]

/-! ### When it holds -/

/-- Nothing of the frequency engine is attached, the TCP info goes to its own cache, and no release
drops the only owner of an object of another flow. -/
structure EndsClean (w : World) (a : Obj) : Prop where
  frequencies : (w.flows a).frequencies = none
  packetFrequencies : (w.flows a).packetFrequencies = none
  registered : ∀ i, (w.flows a).tcpInfo = some i →
    ∃ k, w.tcpInfoCache = some k ∧ i.home = .tcpInfo k
  keeps : ∀ o ∈ (w.flows a).pointers,
    Pool.KeepsOwners { cache := w.cache o.home, outstanding := w.heldBy o.home } (.release o)

/-- A string that will be interned gets a key of its own: the key ends at the first zero byte. -/
def FreshKey (w : World) (p : L7Protocol) (x : StringField) (i : Obj) (value : Bytes) : Prop :=
  (x = .uri ∨ w.lockString p ((w.infos i).strings x) = none) → find (w.maps p x) value = none →
    0 < (w.cache (.string p x)).total → find (w.maps p x) (cString value) = none

/-- The map after the hits of a banned string are dropped; those of a host never are. -/
def mapAfterBan (w : World) (x : StringField) (s : Obj) : List MapEntry :=
  if x = .host then w.maps .http x else removeHit (w.maps .http x) (cString (w.names s))

/-- The strings of a banned info leave their maps, their caches can give them back, and no other flow
has them. -/
def BansClean (w : World) (i : Obj) : Prop :=
  ∀ x, x = .host ∨ x = .ua ∨ x = .uri → ∀ s, (w.infos i).strings x = some s →
    (w.cache (.string .http x)).Owns s ∧ s ∉ (w.mapAfterBan x s).map MapEntry.object ∧
      ∀ b ∈ w.table, ∀ j, (w.flows b).info .http = some j → j ≠ i →
        (w.infos j).strings x ≠ some s

def ActionsClean (w : World) (p : L7Protocol) (i : Obj) : List AppAction → Prop
  | [] => True
  | .ban :: _ => p = .http → w.BansClean i
  | .string x value :: rest =>
    match attachString p x with
    | none => w.ActionsClean p i rest
    | some attach => w.FreshKey p x i value ∧
      ∀ w', attach w i value = .ok w' → w'.ActionsClean p i rest

def PayloadClean (w : World) (a : Obj) : Application → Prop
  | .protocol p found => ∀ i w', (w.forwardTo a (.protocol p found)).attachInfo p a =
      .ok (some i, w') → (w'.infos i).isBanned = false → w'.ActionsClean p i found
  | _ => True

def Clean (w : World) : Event → Prop
  | .payload a x => w.PayloadClean a x
  | .endFlow a => w.EndsClean a
  | _ => True

end World

end AIEngine
