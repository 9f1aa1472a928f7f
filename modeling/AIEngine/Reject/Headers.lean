import AIEngine.Library.OnesComplement
import AIEngine.Stack.Multiplexer

/-!
# Forged headers (`IPv4Header.h`, `IPv6Header.h`, `TCPHeader.h`, `ICMPHeader.h`, `ICMPv6Header.h`)

Each class wraps the structure of the system for its header. The fields hold the words as they stand
in the memory of a little-endian host, and what is sent is this memory.
-/

namespace AIEngine

open OnesComplement (hostWords)

def htons (x : BitVec 16) : BitVec 16 := ntohs x

def htonl (x : BitVec 32) : BitVec 32 := htons (x.extractLsb' 0 16) ++ htons (x.extractLsb' 16 16)

/-! ### Words in memory -/

def memory16 (w : BitVec 16) : Bytes := [w.extractLsb' 0 8, w.extractLsb' 8 8]

def memory32 (w : BitVec 32) : Bytes :=
  memory16 (w.extractLsb' 0 16) ++ memory16 (w.extractLsb' 16 16)

def In6Addr.memory (a : In6Addr) : Bytes :=
  memory32 a.w0 ++ memory32 a.w1 ++ memory32 a.w2 ++ memory32 a.w3

@[simp] theorem length_memory16 (w : BitVec 16) : (memory16 w).length = 2 := rfl

@[simp] theorem length_memory32 (w : BitVec 32) : (memory32 w).length = 4 := rfl

@[simp] theorem In6Addr.length_memory (a : In6Addr) : a.memory.length = 16 := rfl

theorem joined {m n : Nat} (x : BitVec (m + n)) : x.extractLsb' n m ++ x.extractLsb' 0 n = x := by
  ext i bound
  simp only [BitVec.getElem_append, BitVec.getElem_extractLsb']
  split
  · rw [Nat.zero_add]
    exact BitVec.getLsbD_eq_getElem bound
  · rw [show n + (i - n) = i by omega]
    exact BitVec.getLsbD_eq_getElem bound

/-- The machine reads back the word it has stored. -/
theorem hostWords_memory16 (w : BitVec 16) : hostWords (memory16 w) = [w] :=
  congrArg (fun x => [x]) (joined (m := 8) (n := 8) w)

theorem hostWords_memory32 (w : BitVec 32) :
    hostWords (memory32 w) = [w.extractLsb' 0 16, w.extractLsb' 16 16] := by
  unfold memory32
  rw [OnesComplement.hostWords_append (by simp), hostWords_memory16, hostWords_memory16]
  rfl

/-! ### Words turned around -/

theorem ntohs_htons (x : BitVec 16) : ntohs (htons x) = x := by
  have low : (htons x).extractLsb' 0 8 = x.extractLsb' 8 8 := BitVec.extractLsb'_append_eq_right
  have high : (htons x).extractLsb' 8 8 = x.extractLsb' 0 8 := BitVec.extractLsb'_append_eq_left
  rw [ntohs, low, high]
  exact joined (m := 8) (n := 8) x

theorem htonl_low (x : BitVec 32) : (htonl x).extractLsb' 0 16 = htons (x.extractLsb' 16 16) :=
  BitVec.extractLsb'_append_eq_right

theorem htonl_high (x : BitVec 32) : (htonl x).extractLsb' 16 16 = htons (x.extractLsb' 0 16) :=
  BitVec.extractLsb'_append_eq_left

theorem htonl_htonl (x : BitVec 32) : htonl (htonl x) = x := by
  have twice : ∀ h, htons (htons h) = h := ntohs_htons
  rw [htonl, htonl_low, htonl_high, twice, twice]
  exact joined (m := 16) (n := 16) x

/-! ### The headers -/

/-- `struct ip` -/
structure IPv4Header where
  ipV : BitVec 4
  ipHl : BitVec 4
  ipTos : BitVec 8
  ipLen : BitVec 16
  ipId : BitVec 16
  ipOff : BitVec 16
  ipTtl : BitVec 8
  ipP : BitVec 8
  ipSum : BitVec 16
  ipSrc : BitVec 32
  ipDst : BitVec 32
  deriving DecidableEq, Repr

namespace IPv4Header

def new (protocol : BitVec 8) (src dst : BitVec 32) : IPv4Header where
  ipV := 4
  ipHl := 5
  ipTos := 0
  ipLen := 0
  ipId := 0
  ipOff := 0x40
  ipTtl := 64
  ipP := protocol
  ipSum := 0
  ipSrc := src
  ipDst := dst

def setTotalLength (h : IPv4Header) (len : BitVec 16) : IPv4Header := { h with ipLen := htons len }

def memory (h : IPv4Header) : Bytes :=
  [h.ipV ++ h.ipHl, h.ipTos] ++ memory16 h.ipLen ++ memory16 h.ipId ++ memory16 h.ipOff ++
    [h.ipTtl, h.ipP] ++ memory16 h.ipSum ++ memory32 h.ipSrc ++ memory32 h.ipDst

end IPv4Header

/-- `struct ip6_hdr` -/
structure IPv6Header where
  ip6Flow : BitVec 32
  ip6Plen : BitVec 16
  ip6Nxt : BitVec 8
  ip6Hops : BitVec 8
  ip6Src : In6Addr
  ip6Dst : In6Addr
  deriving DecidableEq, Repr

namespace IPv6Header

def new (protocol : BitVec 8) : IPv6Header where
  ip6Flow := htonl 0x60000000
  ip6Plen := 0
  ip6Nxt := protocol
  ip6Hops := 16
  ip6Src := {}
  ip6Dst := {}

def setSourceAddress (h : IPv6Header) (address : In6Addr) : IPv6Header := { h with ip6Src := address }

def setDestinationAddress (h : IPv6Header) (address : In6Addr) : IPv6Header :=
  { h with ip6Dst := address }

def setTotalLength (h : IPv6Header) (len : BitVec 16) : IPv6Header := { h with ip6Plen := htons len }

def memory (h : IPv6Header) : Bytes :=
  memory32 h.ip6Flow ++ memory16 h.ip6Plen ++ [h.ip6Nxt, h.ip6Hops] ++ h.ip6Src.memory ++
    h.ip6Dst.memory

end IPv6Header

/-- `struct tcphdr`, with the flag bits as one octet. -/
structure TCPHeader where
  source : BitVec 16
  dest : BitVec 16
  seq : BitVec 32
  ackSeq : BitVec 32
  res1 : BitVec 4
  doff : BitVec 4
  flags : BitVec 8
  window : BitVec 16
  check : BitVec 16
  urgPtr : BitVec 16
  deriving DecidableEq, Repr

namespace TCPHeader

def new (src dst : BitVec 16) : TCPHeader where
  source := htons src
  dest := htons dst
  seq := htonl 0
  ackSeq := htonl 0
  res1 := 0
  doff := 5
  flags := 0
  window := 4016
  check := 0
  urgPtr := 0

/-- `rst` is the third bit of the flags. -/
def setFlagRst (h : TCPHeader) (rst : Bool) : TCPHeader :=
  { h with flags := if rst then h.flags ||| 4 else h.flags &&& ~~~4 }

def setSequenceNumber (h : TCPHeader) (seq : BitVec 32) : TCPHeader := { h with seq := htonl seq }

def setWindowSize (h : TCPHeader) (window : BitVec 16) : TCPHeader :=
  { h with window := htons window }

def setChecksum (h : TCPHeader) (check : BitVec 16) : TCPHeader := { h with check := check }

def getSourcePort (h : TCPHeader) : BitVec 16 := ntohs h.source

def getDestinationPort (h : TCPHeader) : BitVec 16 := ntohs h.dest

def getSequence (h : TCPHeader) : BitVec 32 := htonl h.seq

def memory (h : TCPHeader) : Bytes :=
  memory16 h.source ++ memory16 h.dest ++ memory32 h.seq ++ memory32 h.ackSeq ++
    [h.doff ++ h.res1, h.flags] ++ memory16 h.window ++ memory16 h.check ++ memory16 h.urgPtr

end TCPHeader

/-- `struct icmphdr` -/
structure ICMPHeader where
  type : BitVec 8
  code : BitVec 8
  checksum : BitVec 16
  id : BitVec 16
  sequence : BitVec 16
  deriving DecidableEq, Repr

namespace ICMPHeader

def getId (h : ICMPHeader) : BitVec 16 := ntohs h.id

def getSequence (h : ICMPHeader) : BitVec 16 := ntohs h.sequence

def setChecksum (h : ICMPHeader) (check : BitVec 16) : ICMPHeader := { h with checksum := htons check }

def memory (h : ICMPHeader) : Bytes :=
  [h.type, h.code] ++ memory16 h.checksum ++ memory16 h.id ++ memory16 h.sequence

end ICMPHeader

/-- `struct icmp6_hdr` -/
structure ICMPv6Header where
  icmp6Type : BitVec 8
  icmp6Code : BitVec 8
  icmp6Cksum : BitVec 16
  icmp6Id : BitVec 16
  icmp6Seq : BitVec 16
  deriving DecidableEq, Repr

namespace ICMPv6Header

def setChecksum (h : ICMPv6Header) (check : BitVec 16) : ICMPv6Header := { h with icmp6Cksum := check }

def memory (h : ICMPv6Header) : Bytes :=
  [h.icmp6Type, h.icmp6Code] ++ memory16 h.icmp6Cksum ++ memory16 h.icmp6Id ++ memory16 h.icmp6Seq

end ICMPv6Header

/-! ### The receiver's pseudo headers -/

/-- The octets of a number of 16 bits, as they are sent. -/
def wire16 (n : Nat) : Bytes := [BitVec.ofNat 8 (n / 256), BitVec.ofNat 8 n]

/-- Made from the octets of an IPv4 header: the addresses, the protocol and the length of the segment. -/
def pseudoHeader (header : Bytes) (length : Nat) : Bytes :=
  (header.drop 12).take 8 ++ [0, header.getD 9 0] ++ wire16 length

def pseudoHeader6 (header : Bytes) (length : Nat) : Bytes :=
  (header.drop 8).take 32 ++ wire16 (length / 65536) ++ wire16 length ++ [0, 0, 0, header.getD 6 0]

theorem pseudoHeader6_memory (h : IPv6Header) (length : Nat) :
    pseudoHeader6 h.memory length = h.ip6Src.memory ++ h.ip6Dst.memory ++
      wire16 (length / 65536) ++ wire16 length ++ [0, 0, 0, h.ip6Nxt] := rfl

end AIEngine
