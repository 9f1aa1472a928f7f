import AIEngine.Cache
import Mathlib.Algebra.Group.Nat.Defs

/-!
# Flows (`Flow.h`, `IPAddress.h`, `AnomalyManager.h`)

A flow refers to the objects attached to it through weak pointers. A weak pointer is the identity
of the object or nothing; whether it still locks is a question to the pool that owns the object.
-/

namespace AIEngine

inductive PacketAnomalyType where
  | none | ipv4Fragmentation | ipv6Fragmentation | ipv6LoopExtensionHeaders
  | tcpBadFlags | tcpBogusHeader | udpBogusHeader | dnsBogusHeader | dnsLongName
  | smtpBogusHeader | imapBogusHeader | popBogusHeader | snmpBogusHeader
  deriving DecidableEq, Repr

inductive FlowDirection where
  | forward | backward | none
  deriving DecidableEq, Repr

/-- The value of the enumerator, which the source uses as an index. -/
def FlowDirection.index : FlowDirection → Nat
  | .forward => 0
  | .backward => 1
  | .none => 2

structure In6Addr where
  w0 : BitVec 32 := 0
  w1 : BitVec 32 := 0
  w2 : BitVec 32 := 0
  w3 : BitVec 32 := 0
  deriving DecidableEq, Repr

/-- The defaults are what `IPAddress::reset` writes. -/
structure IPAddress where
  type : Int := 4
  ip4Src : BitVec 32 := 0
  ip4Dst : BitVec 32 := 0
  ip6Src : In6Addr := {}
  ip6Dst : In6Addr := {}
  srcAddress6 : List (BitVec 8) := List.replicate 46 0
  dstAddress6 : List (BitVec 8) := List.replicate 46 0
  deriving DecidableEq, Repr

namespace IPAddress

def reset (_ : IPAddress) : IPAddress := {}

def setSourceAddress (a : IPAddress) (address : BitVec 32) : IPAddress :=
  { a with ip4Src := address, type := 4 }

def setDestinationAddress (a : IPAddress) (address : BitVec 32) : IPAddress :=
  { a with ip4Dst := address, type := 4 }

def setSourceAddress6 (a : IPAddress) (address : In6Addr) : IPAddress :=
  { a with type := 6, ip6Src := address }

def setDestinationAddress6 (a : IPAddress) (address : In6Addr) : IPAddress :=
  { a with type := 6, ip6Dst := address }

/-- An `unsigned long` word; for addresses of type 4 the upper half stays zero. -/
def getHash (a : IPAddress) (srcport : BitVec 16) (protocol : BitVec 16) (dstport : BitVec 16) :
    BitVec 64 :=
  if a.type = 4 then
    a.ip4Src.setWidth 64 ^^^ srcport.setWidth 64 ^^^ protocol.setWidth 64 ^^^
      a.ip4Dst.setWidth 64 ^^^ dstport.setWidth 64
  else
    a.ip6Src.w0.setWidth 64 ^^^ a.ip6Src.w1.setWidth 64 ^^^ a.ip6Src.w2.setWidth 64 ^^^
      a.ip6Src.w3.setWidth 64 ^^^ srcport.setWidth 64 ^^^ protocol.setWidth 64 ^^^
      a.ip6Dst.w0.setWidth 64 ^^^ a.ip6Dst.w1.setWidth 64 ^^^ a.ip6Dst.w2.setWidth 64 ^^^
      a.ip6Dst.w3.setWidth 64 ^^^ dstport.setWidth 64

end IPAddress

structure Flow where
  /-- what was added to `total_bytes` -/
  totalBytes : Int
  totalPacketsL7 : BitVec 32
  totalPackets : BitVec 32
  ipset : Option Nat
  tcpInfo : Option Obj
  gprsInfo : Option Obj
  dnsInfo : Option Obj
  ssdpInfo : Option Obj
  regex : Option Nat
  httpInfo : Option Obj
  sslInfo : Option Obj
  sipInfo : Option Obj
  smtpInfo : Option Obj
  imapInfo : Option Obj
  popInfo : Option Obj
  frequencies : Option Obj
  packetFrequencies : Option Obj
  forwarder : Option Nat
  regexMng : Option Nat
  packet : Option Nat
  frequencyEngineInspected : Bool
  hash : BitVec 64
  address : IPAddress
  sourcePort : BitVec 16
  destPort : BitVec 16
  protocol : BitVec 16
  tag : BitVec 32
  haveTag : Bool
  reject : Bool
  partialReject : Bool
  haveEvidence : Bool
  direction : FlowDirection
  prevDirection : FlowDirection
  pa : PacketAnomalyType
  arriveTime : Int
  currentTime : Int
  deriving DecidableEq, Repr

namespace Flow

/-- `total_bytes` is an `int32_t`, and holds what was added to it modulo `2 ^ 32`. -/
def getTotalBytes (f : Flow) : BitVec 32 := BitVec.ofInt 32 f.totalBytes

/-- Every assignment of `Flow::reset`. -/
def reset (f : Flow) : Flow :=
  { f with
    hash := 0
    totalBytes := 0
    totalPackets := 0
    totalPacketsL7 := 0
    address := f.address.reset
    sourcePort := 0
    destPort := 0
    protocol := 0
    haveTag := false
    reject := false
    partialReject := false
    haveEvidence := false
    tag := 0xffffffff
    ipset := none
    forwarder := none
    frequencies := none
    httpInfo := none
    sslInfo := none
    sipInfo := none
    smtpInfo := none
    imapInfo := none
    popInfo := none
    ssdpInfo := none
    regex := none
    dnsInfo := none
    tcpInfo := none
    gprsInfo := none
    regexMng := none
    packet := none
    frequencyEngineInspected := false
    prevDirection := .forward
    direction := .forward
    pa := .none
    arriveTime := 0
    currentTime := 0 }

/-- The constructor calls `reset`; a pointer it does not touch is empty by default construction. -/
def new : Flow where
  totalBytes := 0
  totalPacketsL7 := 0
  totalPackets := 0
  ipset := none
  tcpInfo := none
  gprsInfo := none
  dnsInfo := none
  ssdpInfo := none
  regex := none
  httpInfo := none
  sslInfo := none
  sipInfo := none
  smtpInfo := none
  imapInfo := none
  popInfo := none
  frequencies := none
  packetFrequencies := none
  forwarder := none
  regexMng := none
  packet := none
  frequencyEngineInspected := false
  hash := 0
  address := {}
  sourcePort := 0
  destPort := 0
  protocol := 0
  tag := 0xffffffff
  haveTag := false
  reject := false
  partialReject := false
  haveEvidence := false
  direction := .forward
  prevDirection := .forward
  pa := .none
  arriveTime := 0
  currentTime := 0

def setTag (f : Flow) (tag : BitVec 32) : Flow := { f with haveTag := true, tag := tag }

def setFlowDirection (f : Flow) (dir : FlowDirection) : Flow :=
  { f with prevDirection := f.direction, direction := dir }

def setPacketAnomaly (f : Flow) (pa : PacketAnomalyType) : Flow := { f with pa := pa }

def setFiveTuple (f : Flow) (srcA : BitVec 32) (srcP proto : BitVec 16) (dstA : BitVec 32)
    (dstP : BitVec 16) : Flow :=
  { f with
    address := (f.address.setSourceAddress srcA).setDestinationAddress dstA
    sourcePort := srcP
    destPort := dstP
    protocol := proto }

def setFiveTuple6 (f : Flow) (srcA : In6Addr) (srcP proto : BitVec 16) (dstA : In6Addr)
    (dstP : BitVec 16) : Flow :=
  { f with
    address := (f.address.setSourceAddress6 srcA).setDestinationAddress6 dstA
    sourcePort := srcP
    destPort := dstP
    protocol := proto }

def setArriveTime (f : Flow) (t : Int) : Flow := { f with arriveTime := t }

def setLastPacketTime (f : Flow) (t : Int) : Flow := { f with currentTime := t }

/-- The `(int)` cast keeps the low 32 bits. -/
def getLastPacketTime (f : Flow) : Int := f.currentTime.bmod (2 ^ 32)

/-- `reset` overwrites every field but one. -/
theorem reset_eq (f : Flow) : f.reset = { new with packetFrequencies := f.packetFrequencies } := rfl

theorem reset_eq_new_iff (f : Flow) : f.reset = new ↔ f.packetFrequencies = none := by
  rw [reset_eq]
  constructor
  · intro same
    have field := congrArg Flow.packetFrequencies same
    exact field
  · intro empty
    rw [empty]
    rfl

end Flow

end AIEngine
