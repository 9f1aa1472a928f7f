import AIEngine.Http.HTTPProtocol
import AIEngine.Library.Endings

/-!
# What the application protocols share

Every protocol has a pool of infos and a ban domain manager, looks for the info of the flow when a
packet comes, and reads the octets of the packet. The strings of the infos and the ban are those of
the `World`. Counters that only the statistics show are left out.
-/

namespace AIEngine

/-- The packet as any application sees it. -/
abbrev L7Packet := HttpPacket

namespace HttpPacket

/-- What can be read: the payload, and what stands behind it. -/
def memory (p : L7Packet) : Bytes := p.payload ++ p.beyond

def byte (p : L7Packet) (k : Nat) : Except Failure (BitVec 8) :=
  match p.memory[k]? with
  | some b => .ok b
  | none => .error (.fault .outOfBounds)

/-- `ntohs` of two octets. -/
def word (p : L7Packet) (k : Nat) : Except Failure Nat := do
  let high ← p.byte k
  let low ← p.byte (k + 1)
  .ok (256 * high.toNat + low.toNat)

/-- `n` octets that are read. -/
def slice (p : L7Packet) (k n : Nat) : Except Failure Bytes :=
  if k + n ≤ p.memory.length then .ok ((p.memory.drop k).take n)
  else .error (.fault .outOfBounds)

/-- A `boost::string_ref` to `n` octets. To make it reads nothing; what it refers to behind the memory
is left out. -/
def refer (p : L7Packet) (k n : Nat) : Bytes := (p.memory.drop k).take n

/-- `memcmp` with the octets from `k` on. -/
def standsAt (p : L7Packet) (k : Nat) (text : Bytes) : Bool := text.isPrefixOf (p.memory.drop k)

end HttpPacket

/-- `ι` are the members of the infos of a protocol that are no strings, `κ` those members of the
protocol itself that no other one has. -/
structure Inspector (ι κ : Type) where
  world : World
  infos : Obj → ι
  own : κ
  totalAllow : Nat := 0
  totalBan : Nat := 0
  /-- `ban_domain_mng_`, when it is not expired: whether `getDomainName` finds a name -/
  banDomains : Option (Bytes → Bool) := none
  /-- `domain_mng_`, when it is not expired -/
  domains : Option (Bytes → Bool) := none

namespace Inspector

variable {ι κ : Type}

def setInfo (s : Inspector ι κ) (i : Obj) (info : ι) : Inspector ι κ :=
  { s with infos := fun j => if j = i then info else s.infos j }

/-- The functions of the `World` fail only with a fault. -/
def onWorld (s : Inspector ι κ) : Except Fault World → Except Failure (Inspector ι κ)
  | .ok w => .ok { s with world := w }
  | .error e => .error (.fault e)

/-- An info that comes out of the pool has been reset. -/
def attachInfo (s : Inspector ι κ) (p : L7Protocol) (new : ι) (a : Obj) :
    Except Failure (Option Obj × Inspector ι κ) :=
  match s.world.attachInfo p a with
  | .error e => .error (.fault e)
  | .ok (none, w) => .ok (none, { s with world := w })
  | .ok (some i, w) =>
    if (s.world.lockInfo p (s.world.flows a)).isSome then .ok (some i, { s with world := w })
    else .ok (some i, { s with world := w }.setInfo i new)

/-- Only the world and the infos are not what they were. -/
theorem attachInfo_keeps {s t : Inspector ι κ} {p : L7Protocol} {new : ι} {a : Obj} {r : Option Obj}
    (h : s.attachInfo p new a = .ok (r, t)) :
    s.world.attachInfo p a = .ok (r, t.world) ∧
      ∃ infos, t = { s with world := t.world, infos := infos } := by
  unfold attachInfo at h
  split at h
  · cases h
  · rename_i w attached
    cases h
    exact ⟨attached, _, rfl⟩
  · rename_i i w attached
    split at h
    · cases h
      exact ⟨attached, _, rfl⟩
    · cases h
      exact ⟨attached, _, rfl⟩

theorem attachInfo_own {s t : Inspector ι κ} {p : L7Protocol} {new : ι} {a : Obj} {r : Option Obj}
    (h : s.attachInfo p new a = .ok (r, t)) : t.own = s.own := by
  obtain ⟨-, infos, shape⟩ := attachInfo_keeps h
  rw [shape]

/-- Without an info nothing is done for the packet. -/
def withInfo (s : Inspector ι κ) (p : L7Protocol) (new : ι) (a : Obj)
    (process : Inspector ι κ → Obj → Except Failure (Inspector ι κ)) :
    Except Failure (Inspector ι κ) :=
  match s.attachInfo p new a with
  | .error e => .error e
  | .ok (none, s) => .ok s
  | .ok (some i, s) => process s i

/-- Nor for a flow whose info is banned. -/
def unlessBanned (process : Inspector ι κ → Obj → Except Failure (Inspector ι κ))
    (s : Inspector ι κ) (i : Obj) : Except Failure (Inspector ι κ) :=
  if (s.world.infos i).isBanned then .ok s else process s i

/-- A flow keeps its first anomaly. -/
def noteAnomaly (s : Inspector ι κ) (a : Obj) (pa : PacketAnomalyType) : Inspector ι κ :=
  if (s.world.flows a).pa = .none then
    { s with world := s.world.setFlow a ((s.world.flows a).setPacketAnomaly pa) }
  else s

/-- A packet more of the flow has come to an application. -/
def countPacketL7 (s : Inspector ι κ) (a : Obj) : Inspector ι κ :=
  let f := s.world.flows a
  { s with world := s.world.setFlow a { f with totalPacketsL7 := f.totalPacketsL7 + 1 } }

def isBanDomain (s : Inspector ι κ) (domain : Bytes) : Bool :=
  s.banDomains.any fun banned => banned domain

def countBan (s : Inspector ι κ) : Inspector ι κ := { s with totalBan := s.totalBan + 1 }

def countAllow (s : Inspector ι κ) : Inspector ι κ := { s with totalAllow := s.totalAllow + 1 }

def setIsBanned (s : Inspector ι κ) (i : Obj) : Inspector ι κ :=
  { s with world := s.world.setBanned i }

/-- `getDomainName` for the name of the attached host: it is locked after a look whether it is there,
and the name is read through the pointer. What is found only leads to a callback. -/
def lookupHost (s : Inspector ι κ) (p : L7Protocol) (i : Obj) : Except Failure Bool :=
  match s.domains with
  | none => .ok false
  | some getDomainName =>
    if (s.world.lockString p ((s.world.infos i).strings .host)).isSome then
      match s.world.lockString p ((s.world.infos i).strings .host) with
      | some host => .ok (getDomainName (cString (s.world.names host)))
      | none => .error (.fault .nullDereference)
    else .ok false

end Inspector

end AIEngine
