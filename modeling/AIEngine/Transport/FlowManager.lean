import AIEngine.FlowCache
import AIEngine.Library.OrderedIndex
import AIEngine.Resources.World
import AIEngine.Tcp.ComputeState
import Mathlib.Data.Int.Order.Basic

/-!
# The flow table of a transport (`FlowManager.cc`)

A `TCPProtocol` or `UDPProtocol` with its `FlowManager`. The table of the world is the flow table,
in the order of the duration index; the hashed index is a search for the id. Where a library
iterator would be `end()`, the model faults.
-/

namespace AIEngine

structure Transport where
  layer : Nat
  world : World
  timeout : Int := 180
  lastTimeout : Int := 0
  packetTime : Int := 0
  /-- `flow_forwarder_` is not expired -/
  forwards : Bool := true
  sigs : Option Nat := none
  tcpInfos : Obj → Tcp.TCPInfo := fun _ => {}
  totals : Tcp.FlagTotals := {}
  currentFlow : Option Obj := none
  /-- the flows the last packet gave to `CacheManager::releaseFlow` -/
  released : List Obj := []
  /-- the last packet closed its flow -/
  closed : Bool := false
  /-- the last packet ran the timers -/
  swept : Bool := false

namespace Transport

def flow (s : Transport) (a : Obj) : Flow := s.world.flows a

def setFlow (s : Transport) (a : Obj) (f : Flow) : Transport :=
  { s with world := s.world.setFlow a f }

def table (s : Transport) : List Obj := s.world.table

def setTable (s : Transport) (t : List Obj) : Transport :=
  { s with world := { s.world with table := t } }

def getId (s : Transport) (a : Obj) : BitVec 64 := (s.flow a).hash

/-- The key of the duration index. -/
def lastTime (s : Transport) (a : Obj) : Int := (s.flow a).getLastPacketTime

/-! ### The flow cache -/

def flowCache (s : Transport) : FlowCache where
  fc := s.world.cache (.flow s.layer)
  flows := s.world.flows

def setFlowCache (s : Transport) (c : FlowCache) : Transport :=
  { s with world := { s.world.setCache (.flow s.layer) c.fc with flows := c.flows } }

def acquireFlow (s : Transport) : Except Fault (Option Obj × Transport) :=
  match s.flowCache.acquireFlow with
  | .ok (a, c) => .ok (a, s.setFlowCache c)
  | .error e => .error e

def returnFlow (s : Transport) (a : Obj) : Transport :=
  s.setFlowCache (s.flowCache.releaseFlow a)

/-- `CacheManager::releaseFlow` -/
def releaseObjects (s : Transport) (a : Obj) : Transport :=
  { s with world := s.world.releaseFlow (s.flow a), released := a :: s.released }

/-! ### `FlowManager` -/

/-- `find` in the hashed index. -/
def findId (s : Transport) (id : BitVec 64) : Option Obj :=
  s.table.find? fun a => decide (s.getId a = id)

def findFlow (s : Transport) (hash1 hash2 : BitVec 64) : Option Obj :=
  (s.findId hash1).or (s.findId hash2)

/-- `insert` does nothing when the id is taken. -/
def addFlow (s : Transport) (a : Obj) (hint : Nat) : Transport :=
  match s.findId (s.getId a) with
  | some _ => s
  | none => s.setTable (OrderedIndex.insert s.lastTime s.table hint a)

def removeFlow (s : Transport) (a : Obj) : Except Fault Transport :=
  match s.findId (s.getId a) with
  | some b => .ok (s.setTable (s.table.erase b))
  | none => .error .outOfBounds

def setLastPacketTime (s : Transport) (a : Obj) (time : Int) : Transport :=
  s.setFlow a ((s.flow a).setLastPacketTime time)

def updateFlowTime (s : Transport) (a : Obj) (time : Int) (hint : Nat) : Except Fault Transport :=
  match s.findId (s.getId a) with
  | some b =>
    let s := s.setLastPacketTime b time
    .ok (s.setTable (OrderedIndex.modify s.lastTime s.table hint b))
  | none => .error .outOfBounds

/-- The test of the sweep. -/
def Expired (s : Transport) (time : Int) (a : Obj) : Prop := s.lastTime a + s.timeout ≤ time

instance (s : Transport) (time : Int) : DecidablePred (s.Expired time) :=
  fun a => inferInstanceAs (Decidable (s.lastTime a + s.timeout ≤ time))

/-- One turn of the sweep takes the flow out of the index and gives everything back. -/
def expire (s : Transport) (a : Obj) : Transport :=
  ((s.setTable (s.table.erase a)).releaseObjects a).returnFlow a

/-- The walk along what is left of the duration index, up to the first flow that is not old. -/
def sweep (s : Transport) (time : Int) : List Obj → Transport
  | [] => s
  | a :: rest => if s.Expired time a then (s.expire a).sweep time rest else s

def updateTimers (s : Transport) (time : Int) : Transport := s.sweep time s.table

end Transport

end AIEngine
