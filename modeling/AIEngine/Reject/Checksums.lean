import AIEngine.Reject.Headers

/-!
# The checksum of a forged TCP segment (`TCPHeader.cc`, `TCPHeader.h`)

The IPv4 variant sums a pseudo header of its own making. The IPv6 variant computes a sum and does not
store it.
-/

namespace AIEngine

open OnesComplement

/-- The loop of the `checksum` functions: words, and an octet that is left over. -/
def sumWords {w : Nat} : Bytes → BitVec w → BitVec w
  | [], sum => sum
  | [a], sum => sum + a.setWidth w
  | a :: b :: rest, sum => sumWords rest (sum + (b ++ a).setWidth w)

theorem toNat_add_word {w : Nat} (word : BitVec 16) (sum : BitVec w) :
    (sum + word.setWidth w).toNat = (sum.toNat + word.toNat) % 2 ^ w := by
  rw [BitVec.toNat_add, BitVec.toNat_setWidth, Nat.add_mod_mod]

theorem sumWords_toNat {w : Nat} (buf : Bytes) (sum : BitVec w) :
    (sumWords buf sum).toNat = (sum.toNat + total (hostWords buf)) % 2 ^ w := by
  fun_induction sumWords buf sum with
  | case1 sum => exact (Nat.mod_eq_of_lt sum.isLt).symm
  | case2 a sum =>
    have word : (0#8 ++ a).toNat = a.toNat := by
      rw [toNat_octets]
      simp
    rw [BitVec.toNat_add, BitVec.toNat_setWidth, Nat.add_mod_mod, hostWords, total_cons, word,
      total_nil, Nat.add_zero]
  | case3 a b rest sum ih =>
    rw [ih, toNat_add_word, Nat.mod_add_mod, hostWords, total_cons, Nat.add_assoc]

theorem sumWords_of_le {w : Nat} {buf : Bytes} (bound : 65535 * ((buf.length + 1) / 2) < 2 ^ w) :
    (sumWords buf 0#w).toNat = total (hostWords buf) := by
  have limit := total_le (hostWords buf)
  rw [length_hostWords] at limit
  rw [sumWords_toNat, BitVec.toNat_ofNat, Nat.zero_mod, Nat.zero_add, Nat.mod_eq_of_lt (by omega)]

/-! ### Totals of words in memory -/

theorem total_memory16 (w : BitVec 16) : total (hostWords (memory16 w)) = w.toNat := by
  rw [hostWords_memory16]
  simp

theorem total_memory32 (w : BitVec 32) : total (hostWords (memory32 w)) = fold w.toNat := by
  have bound := w.isLt
  rw [hostWords_memory32]
  simp only [total_cons, total_nil, BitVec.extractLsb'_toNat, Nat.shiftRight_eq_div_pow,
    fold]
  omega

theorem htons_toNat (w : BitVec 16) :
    (htons w).toNat + 65535 * (w.toNat / 256) = 256 * w.toNat := by
  have bound := w.isLt
  unfold htons ntohs
  rw [toNat_octets]
  simp only [BitVec.extractLsb'_toNat, Nat.shiftRight_eq_div_pow, Nat.pow_zero, Nat.div_one]
  have low : w.toNat % 2 ^ 8 = w.toNat - 256 * (w.toNat / 256) := by omega
  have high : w.toNat / 2 ^ 8 % 2 ^ 8 = w.toNat / 256 := Nat.mod_eq_of_lt (by omega)
  rw [low, high]
  omega

/-- Turning a word around turns its two halves around, which is a factor of 256 in the total. -/
theorem total_htonl (w : BitVec 32) :
    ∃ q, total (hostWords (memory32 (htonl w))) + 65535 * q = 256 * w.toNat := by
  have bound := w.isLt
  have first := htons_toNat (w.extractLsb' 0 16)
  have second := htons_toNat (w.extractLsb' 16 16)
  have whole : w.toNat = 65536 * (w.extractLsb' 16 16).toNat + (w.extractLsb' 0 16).toNat := by
    simp only [BitVec.extractLsb'_toNat, Nat.shiftRight_eq_div_pow, Nat.pow_zero, Nat.div_one]
    omega
  rw [hostWords_memory32, htonl_low, htonl_high]
  simp only [total_cons, total_nil]
  exact ⟨256 * (w.extractLsb' 16 16).toNat + (w.extractLsb' 0 16).toNat / 256 +
    (w.extractLsb' 16 16).toNat / 256, by omega⟩

namespace TCPHeader

def ipprotoTcp : BitVec 8 := 6

/-- `sizeof(tcphdr)` -/
def size : Nat := 20

/-- `unsigned long sum`, folded twice -/
def checksum (buf : Bytes) : BitVec 16 :=
  ~~~BitVec.ofNat 16 (fold (fold (sumWords buf 0#64).toNat))

/-- `tcph_pseudo` -/
def pseudo (srcaddr destaddr : BitVec 32) : Bytes :=
  memory32 (htonl srcaddr) ++ memory32 (htonl destaddr) ++ [0, ipprotoTcp] ++
    memory16 (htons (BitVec.ofNat 16 size))

/-- The variant for IPv4. -/
def computeChecksum (h : TCPHeader) (srcaddr destaddr : BitVec 32) : TCPHeader :=
  let h := h.setChecksum 0
  h.setChecksum (checksum (pseudo srcaddr destaddr ++ h.memory))

/-- The loop of `get_16b_sum`. -/
def sum16b : Bytes → BitVec 32 → BitVec 32
  | [], sum => sum
  | [a], sum => sum + a.setWidth 32
  | a :: b :: rest, sum =>
    let sum := sum + (b ++ a).setWidth 32
    sum16b rest (if 65535 < sum.toNat then sum - 65535 else sum)

def get16bSum (buf : Bytes) : BitVec 32 :=
  let sum := sum16b buf 0
  (sum >>> 16 + (sum &&& 0xffff)) &&& 0xffff

/-- `ipv6_psd_header`: the payload length and the protocol are stored as host words. -/
def getIPv6PsdSum (ip6 : IPv6Header) : BitVec 32 :=
  get16bSum (ip6.ip6Src.memory ++ ip6.ip6Dst.memory ++ memory32 (ip6.ip6Plen.setWidth 32) ++
    memory32 (ipprotoTcp.setWidth 32))

/-- The variant for IPv6 leaves its result in a local variable. -/
def computeChecksum6 (h : TCPHeader) (ip6 : IPv6Header) : TCPHeader :=
  let h := h.setChecksum 0
  let cksum := get16bSum h.memory + getIPv6PsdSum ip6
  let cksum := cksum >>> 16 + (cksum &&& 0xffff)
  let cksum := ~~~cksum &&& 0xffff
  let _cksum := if cksum = 0 then 0xffff else cksum
  h.setChecksum 0

/-! ### Totals -/

theorem total_setChecksum (h : TCPHeader) (check : BitVec 16) :
    total (hostWords (h.setChecksum check).memory) =
      total (hostWords (h.setChecksum 0).memory) + check.toNat := by
  have parts : ∀ c, total (hostWords (h.setChecksum c).memory) =
      total (hostWords (memory16 h.source)) + total (hostWords (memory16 h.dest)) +
        total (hostWords (memory32 h.seq)) + total (hostWords (memory32 h.ackSeq)) +
        total (hostWords [h.doff ++ h.res1, h.flags]) + total (hostWords (memory16 h.window)) +
        total (hostWords (memory16 c)) + total (hostWords (memory16 h.urgPtr)) := by
    intro c
    unfold memory
    simp only [total_host_append, List.length_append, length_memory16, length_memory32,
      List.length_cons, List.length_nil, Nat.reduceAdd, Nat.reduceDvd]
    rfl
  have zero : total (hostWords (memory16 0)) = 0 := by decide
  rw [parts, parts, total_memory16 check, zero]
  omega

/-! ### What the receiver sees -/

/-- The header that goes in front of a forged segment. -/
def ipv4 (src dst : BitVec 32) : IPv4Header := (IPv4Header.new ipprotoTcp src dst).setTotalLength 40

def ipv6 (src dst : In6Addr) : IPv6Header :=
  (((IPv6Header.new ipprotoTcp).setSourceAddress src).setDestinationAddress dst).setTotalLength
    (BitVec.ofNat 16 size)

/-- The segment with its pseudo header sums up to all ones. -/
def Verifies4 (h : TCPHeader) (src dst : BitVec 32) : Prop :=
  Verifies (pseudoHeader (ipv4 src dst).memory size ++ (h.computeChecksum src dst).memory)

def Verifies6 (h : TCPHeader) (src dst : In6Addr) : Prop :=
  Verifies (pseudoHeader6 (ipv6 src dst).memory size ++ (h.computeChecksum6 (ipv6 src dst)).memory)

instance (h : TCPHeader) (src dst : BitVec 32) : Decidable (Verifies4 h src dst) :=
  inferInstanceAs (Decidable (Verifies _))

/-- What the words of a segment without a checksum and of its pseudo header come to. -/
def unsummed (h : TCPHeader) (src dst : In6Addr) : Nat :=
  total (hostWords src.memory) + total (hostWords dst.memory) + 0x1400 + 0x600 +
    total (hostWords (h.setChecksum 0).memory)

theorem checksum_toNat {buf : Bytes} (bound : 65535 * ((buf.length + 1) / 2) < 2 ^ 32) :
    ∃ f, Folded (total (hostWords buf)) f ∧ (checksum buf).toNat = 65535 - f := by
  have summed : (sumWords buf 0#64).toNat = total (hostWords buf) := sumWords_of_le (by omega)
  have limit := total_le (hostWords buf)
  rw [length_hostWords] at limit
  have folded := fold_fold (n := total (hostWords buf)) (by omega)
  refine ⟨_, folded, ?_⟩
  have le := folded.le
  unfold checksum
  rw [summed, BitVec.toNat_not, BitVec.toNat_ofNat, Nat.mod_eq_of_lt (by omega)]

theorem total_pseudo (src dst : BitVec 32) (segment : Bytes) :
    total (hostWords (memory32 src ++ memory32 dst ++ [0, ipprotoTcp] ++ wire16 size ++ segment)) =
      total (hostWords (memory32 src)) + total (hostWords (memory32 dst)) + 0x1a00 +
        total (hostWords segment) := by
  have constants : total (hostWords [0, ipprotoTcp]) + total (hostWords (wire16 size)) = 0x1a00 := by
    decide
  rw [total_host_append (by simp [wire16]), total_host_append (by simp),
    total_host_append (by simp), total_host_append (by simp)]
  omega

/-- The words of the pseudo header that `computeChecksum` makes are turned around. -/
theorem verifies4_iff (h : TCPHeader) (src dst : BitVec 32) :
    Verifies4 h src dst ↔ 257 ∣ src.toNat + dst.toNat := by
  have bound : 65535 * (((pseudo src dst ++ (h.setChecksum 0).memory).length + 1) / 2) < 2 ^ 32 := by
    show 65535 * ((32 + 1) / 2) < 2 ^ 32
    decide
  obtain ⟨f, ⟨le, mod, -⟩, complement⟩ := checksum_toNat bound
  have summed := total_pseudo (htonl src) (htonl dst) (h.setChecksum 0).memory
  have same : pseudo src dst ++ (h.setChecksum 0).memory = memory32 (htonl src) ++
      memory32 (htonl dst) ++ [0, ipprotoTcp] ++ wire16 size ++ (h.setChecksum 0).memory := rfl
  rw [same, summed] at mod
  have sent := total_pseudo src dst (h.computeChecksum src dst).memory
  have written : total (hostWords (h.computeChecksum src dst).memory) =
      total (hostWords (h.setChecksum 0).memory) + (65535 - f) := by
    rw [← complement]
    exact total_setChecksum h _
  obtain ⟨q, turnedSrc⟩ := total_htonl src
  obtain ⟨r, turnedDst⟩ := total_htonl dst
  have shown : Verifies4 h src dst ↔
      65535 ∣ total (hostWords (memory32 src ++ memory32 dst ++ [0, ipprotoTcp] ++ wire16 size ++
        (h.computeChecksum src dst).memory)) ∧
      total (hostWords (memory32 src ++ memory32 dst ++ [0, ipprotoTcp] ++ wire16 size ++
        (h.computeChecksum src dst).memory)) ≠ 0 := verifies_iff_host _
  rw [shown, sent, written, total_memory32, total_memory32]
  unfold fold
  omega

theorem verifies6_iff (h : TCPHeader) (src dst : In6Addr) :
    Verifies6 h src dst ↔ 65535 ∣ unsummed h src dst := by
  have length : (wire16 (size / 65536)).length = 2 ∧ (wire16 size).length = 2 := ⟨rfl, rfl⟩
  have constants : total (hostWords (wire16 (size / 65536))) + total (hostWords (wire16 size)) +
      total (hostWords [0, 0, 0, ipprotoTcp]) = 0x1400 + 0x600 := by decide
  have sent : total (hostWords (src.memory ++ dst.memory ++ wire16 (size / 65536) ++ wire16 size ++
      [0, 0, 0, ipprotoTcp] ++ (h.setChecksum 0).memory)) = unsummed h src dst := by
    rw [total_host_append (by simp [length]), total_host_append (by simp [length]),
      total_host_append (by simp [length]), total_host_append (by simp),
      total_host_append (by simp)]
    unfold unsummed
    omega
  have shown : Verifies6 h src dst ↔
      65535 ∣ total (hostWords (src.memory ++ dst.memory ++ wire16 (size / 65536) ++ wire16 size ++
        [0, 0, 0, ipprotoTcp] ++ (h.setChecksum 0).memory)) ∧
      total (hostWords (src.memory ++ dst.memory ++ wire16 (size / 65536) ++ wire16 size ++
        [0, 0, 0, ipprotoTcp] ++ (h.setChecksum 0).memory)) ≠ 0 := verifies_iff_host _
  rw [shown, sent]
  refine and_iff_left ?_
  unfold unsummed
  omega

/-- The checksum of a forged segment is right over IPv4 exactly when the addresses make up for being
turned around, and over IPv6 exactly when none is needed. -/
theorem computeChecksum_verifies_iff (h : TCPHeader) (src dst : BitVec 32) (src6 dst6 : In6Addr) :
    (Verifies4 h src dst ↔ 257 ∣ src.toNat + dst.toNat) ∧
      (Verifies6 h src6 dst6 ↔ 65535 ∣ unsummed h src6 dst6) :=
  ⟨verifies4_iff h src dst, verifies6_iff h src6 dst6⟩

/-- A reset from 10.0.0.1 to 10.0.0.2. -/
theorem not_computeChecksum_verifies :
    ¬∀ (h : TCPHeader) (src dst : BitVec 32) (src6 dst6 : In6Addr),
      Verifies4 h src dst ∧ Verifies6 h src6 dst6 := by
  intro verified
  have sent := (verified ((TCPHeader.new 80 49152).setFlagRst true) 0x0100000a 0x0200000a {} {}).1
  revert sent
  decide +kernel

end TCPHeader

end AIEngine
