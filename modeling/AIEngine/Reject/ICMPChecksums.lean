import AIEngine.Library.Endings
import AIEngine.Reject.Checksums

/-!
# The checksums of ICMP and ICMPv6 (`ICMPHeader.h`, `ICMPv6Header.cc`)

`compute_checksum` sums numbers; `computeChecksum` puts the pseudo header and the message together in a
buffer and sums what the machine reads from it.
-/

namespace AIEngine

open OnesComplement

/-! ### ICMP -/

namespace ICMPHeader

/-- The loop over the body: a high octet, and a low one when there is one more. -/
def sumBody : Bytes → BitVec 32 → BitVec 32
  | [], sum => sum
  | [a], sum => sum + (a.setWidth 32 <<< 8)
  | a :: b :: rest, sum => sumBody rest (sum + (a.setWidth 32 <<< 8) + b.setWidth 32)

def computeChecksum (h : ICMPHeader) (body : Bytes) : ICMPHeader :=
  let sum := (h.type.setWidth 32 <<< 8) + h.code.setWidth 32 + h.getId.setWidth 32 +
    h.getSequence.setWidth 32
  let sum := sumBody body sum
  let sum := (sum >>> 16) + (sum &&& 0xffff)
  let sum := sum + (sum >>> 16)
  h.setChecksum ((~~~sum).setWidth 16)

theorem toNat_high (a : BitVec 8) : (a.setWidth 32 <<< 8).toNat = 256 * a.toNat := by
  have bound := a.isLt
  rw [BitVec.toNat_shiftLeft, BitVec.toNat_setWidth, Nat.shiftLeft_eq]
  omega

theorem sumBody_toNat (body : Bytes) (sum : BitVec 32) :
    (sumBody body sum).toNat = (sum.toNat + total (words body)) % 2 ^ 32 := by
  fun_induction sumBody body sum with
  | case1 sum => exact (Nat.mod_eq_of_lt sum.isLt).symm
  | case2 a sum =>
    rw [BitVec.toNat_add, toNat_high, words, total_cons, total_nil, toNat_octets]
    simp
  | case3 a b rest sum ih =>
    have low : (b.setWidth 32).toNat = b.toNat := by
      have bound := b.isLt
      rw [BitVec.toNat_setWidth, Nat.mod_eq_of_lt (by omega)]
    rw [ih, BitVec.toNat_add, BitVec.toNat_add, toNat_high, low, words, total_cons, toNat_octets]
    omega

theorem folded_complement (sum : BitVec 32) :
    let first := (sum >>> 16) + (sum &&& 0xffff)
    ((~~~(first + (first >>> 16))).setWidth 16 : BitVec 16).toNat =
      65535 - fold (fold sum.toNat) := by
  intro first
  have bound := sum.isLt
  have mask : (sum &&& 0xffff).toNat = sum.toNat % 65536 := by
    rw [BitVec.toNat_and]
    exact Nat.and_two_pow_sub_one_eq_mod sum.toNat 16
  have folded : first.toNat = fold sum.toNat := by
    show ((sum >>> 16) + (sum &&& 0xffff)).toNat = _
    rw [BitVec.toNat_add, mask, BitVec.toNat_ushiftRight, Nat.shiftRight_eq_div_pow]
    unfold fold
    omega
  rw [BitVec.toNat_setWidth, BitVec.toNat_not, BitVec.toNat_add, BitVec.toNat_ushiftRight,
    Nat.shiftRight_eq_div_pow, folded]
  unfold fold
  omega

theorem words_memory (h : ICMPHeader) :
    words h.memory = [h.type ++ h.code, ntohs h.checksum, ntohs h.id, ntohs h.sequence] := rfl

/-- The words of the header without its checksum. -/
def unsummed (h : ICMPHeader) : Nat :=
  (h.type ++ h.code).toNat + h.getId.toNat + h.getSequence.toNat

theorem computeChecksum_eq (h : ICMPHeader) {body : Bytes} (bound : body.length ≤ 65535) :
    ∃ c, h.computeChecksum body = h.setChecksum c ∧
      c.toNat = 65535 - fold (fold (h.unsummed + total (words body))) := by
  let start : BitVec 32 := (h.type.setWidth 32 <<< 8) + h.code.setWidth 32 + h.getId.setWidth 32 +
    h.getSequence.setWidth 32
  refine ⟨_, rfl, ?_⟩
  have limit := total_le (words body)
  rw [length_words] at limit
  have small : h.unsummed ≤ 3 * 65535 := by
    have first := (h.type ++ h.code).isLt
    have second := h.getId.isLt
    have third := h.getSequence.isLt
    unfold unsummed
    omega
  have started : start.toNat = h.unsummed := by
    have code := h.code.isLt
    have type := h.type.isLt
    have id := h.getId.isLt
    have sequence := h.getSequence.isLt
    unfold unsummed
    rw [toNat_octets]
    simp only [start, BitVec.toNat_add, toNat_high, BitVec.toNat_setWidth]
    omega
  have summed : (sumBody body start).toNat = h.unsummed + total (words body) := by
    rw [sumBody_toNat, started, Nat.mod_eq_of_lt (by omega)]
  rw [← summed]
  exact folded_complement (sumBody body start)

theorem verifies_computeChecksum (h : ICMPHeader) {body : Bytes} (bound : body.length ≤ 65535) :
    Verifies ((h.computeChecksum body).memory ++ body) := by
  obtain ⟨c, same, complement⟩ := computeChecksum_eq h bound
  have limit := total_le (words body)
  rw [length_words] at limit
  have small : h.unsummed + total (words body) < 2 ^ 32 := by
    have first := (h.type ++ h.code).isLt
    have second := h.getId.isLt
    have third := h.getSequence.isLt
    unfold unsummed
    omega
  have sent : total (words ((h.setChecksum c).memory ++ body)) =
      h.unsummed + total (words body) + c.toNat := by
    have stored : ntohs (h.setChecksum c).checksum = c := ntohs_htons c
    rw [words_append ⟨4, rfl⟩, words_memory, total_append, stored, total_cons, total_cons, total_cons,
      total_cons, total_nil]
    unfold unsummed getId getSequence
    show (h.type ++ h.code).toNat + (c.toNat + ((ntohs h.id).toNat + ((ntohs h.sequence).toNat + 0))) +
      total (words body) = _
    omega
  rw [same, verifies_iff, sent]
  exact complement_completes (fold_fold small) complement

end ICMPHeader

/-! ### ICMPv6 -/

namespace ICMPv6Header

def ipMaxpacket : Nat := 2048

/-- `buf`, with `ptr` and `chksumlen`. -/
structure Buffer where
  buf : Bytes := List.replicate ipMaxpacket 0
  ptr : Nat := 0
  chksumlen : Nat := 0

/-- Octets written at `ptr`, which moves behind them. -/
def Buffer.write (b : Buffer) (xs : Bytes) : Except Fault Buffer :=
  if b.ptr + xs.length ≤ b.buf.length then
    .ok { buf := b.buf.take b.ptr ++ xs ++ b.buf.drop (b.ptr + xs.length)
          ptr := b.ptr + xs.length
          chksumlen := b.chksumlen + xs.length }
  else .error .outOfBounds

/-- `uint32_t sum`, folded as long as there are carries -/
def checksum (buf : Bytes) : BitVec 16 :=
  ~~~BitVec.ofNat 16 (foldAll (sumWords buf 0#32).toNat)

def size : Nat := 8

/-- What is copied into the buffer, piece by piece; the checksum counts as zero, and an odd payload is
padded. -/
def pieces (h : ICMPv6Header) (ip6 : IPv6Header) (payload : Bytes) : List Bytes :=
  [ip6.ip6Src.memory,
    ip6.ip6Dst.memory,
    [0, 0, BitVec.ofNat 8 ((size + payload.length) / 256),
      BitVec.ofNat 8 ((size + payload.length) % 256)],
    [0, 0, 0],
    [ip6.ip6Nxt],
    [h.icmp6Type],
    [h.icmp6Code],
    memory16 h.icmp6Id,
    memory16 h.icmp6Seq,
    [0, 0],
    payload,
    List.replicate (payload.length % 2) 0]

def computeChecksum (h : ICMPv6Header) (ip6 : IPv6Header) (payload : Bytes) :
    Except Fault ICMPv6Header := do
  let b ← (pieces h ip6 payload).foldlM Buffer.write {}
  .ok (h.setChecksum (checksum (b.buf.take b.chksumlen)))

/-! ### What the buffer holds -/

/-- The octets written so far, and zeros behind them. -/
structure Buffer.Holds (b : Buffer) (xs : Bytes) : Prop where
  buf : b.buf = xs ++ List.replicate (ipMaxpacket - xs.length) 0
  ptr : b.ptr = xs.length
  chksumlen : b.chksumlen = xs.length

theorem Buffer.holds_nil : Buffer.Holds {} [] := ⟨rfl, rfl, rfl⟩

theorem Buffer.write_holds {b : Buffer} {xs : Bytes} (ys : Bytes) (holds : b.Holds xs)
    (room : xs.length + ys.length ≤ ipMaxpacket) :
    ∃ b', b.write ys = .ok b' ∧ b'.Holds (xs ++ ys) := by
  obtain ⟨buf, ptr, chksumlen⟩ := holds
  have length : b.buf.length = ipMaxpacket := by
    rw [buf, List.length_append, List.length_replicate]
    omega
  refine ⟨_, if_pos (by rw [ptr, length]; exact room), ?_, ?_, ?_⟩
  · show b.buf.take b.ptr ++ ys ++ b.buf.drop (b.ptr + ys.length) = _
    rw [ptr, buf, List.take_left, List.drop_append, List.drop_eq_nil_of_le (by omega),
      List.nil_append, Nat.add_sub_cancel_left, List.drop_replicate, List.length_append,
      Nat.sub_sub]
  · show b.ptr + ys.length = _
    rw [ptr, List.length_append]
  · show b.chksumlen + ys.length = _
    rw [chksumlen, List.length_append]

theorem Buffer.Holds.summed {b : Buffer} {xs : Bytes} (holds : b.Holds xs) :
    b.buf.take b.chksumlen = xs := by
  rw [holds.buf, holds.chksumlen, List.take_left]

theorem Buffer.writes_hold {b : Buffer} {xs : Bytes} (holds : b.Holds xs) (yss : List Bytes)
    (room : xs.length + yss.flatten.length ≤ ipMaxpacket) :
    ∃ b', yss.foldlM Buffer.write b = .ok b' ∧ b'.Holds (xs ++ yss.flatten) := by
  induction yss generalizing b xs with
  | nil => exact ⟨b, rfl, by simpa using holds⟩
  | cons ys rest ih =>
    rw [List.flatten_cons, List.length_append] at room
    obtain ⟨b₁, written, holds⟩ := write_holds ys holds (by omega)
    obtain ⟨b₂, rewritten, holds⟩ := ih holds (by rw [List.length_append]; omega)
    refine ⟨b₂, ?_, by simpa using holds⟩
    rw [List.foldlM_cons, written]
    exact rewritten

theorem computeChecksum_eq (h : ICMPv6Header) (ip6 : IPv6Header) {payload : Bytes}
    (bound : payload.length ≤ 1900) :
    h.computeChecksum ip6 payload =
      .ok (h.setChecksum (checksum (pieces h ip6 payload).flatten)) := by
  have length : (pieces h ip6 payload).flatten.length =
      48 + (payload.length + payload.length % 2) := by
    simp [pieces]
    omega
  obtain ⟨b, written, holds⟩ := Buffer.writes_hold Buffer.holds_nil (pieces h ip6 payload)
    (by rw [length]; simp [ipMaxpacket]; omega)
  rw [List.nil_append] at holds
  unfold computeChecksum
  rw [written]
  show Except.ok (h.setChecksum (checksum (b.buf.take b.chksumlen))) = _
  rw [holds.summed]

/-! ### What the receiver sums -/

/-- The words of the pseudo header and of the message without its checksum. -/
def unsummed (h : ICMPv6Header) (ip6 : IPv6Header) (payload : Bytes) : Nat :=
  total (hostWords ip6.ip6Src.memory) + total (hostWords ip6.ip6Dst.memory) +
    total (hostWords (wire16 (size + payload.length))) + total (hostWords [0, ip6.ip6Nxt]) +
    total (hostWords [h.icmp6Type, h.icmp6Code]) + h.icmp6Id.toNat + h.icmp6Seq.toNat +
    total (hostWords payload)

theorem total_zeros : total (hostWords [0, 0]) = 0 := rfl

theorem total_pieces (h : ICMPv6Header) (ip6 : IPv6Header) (payload : Bytes) :
    total (hostWords (pieces h ip6 payload).flatten) = unsummed h ip6 payload := by
  have low : BitVec.ofNat 8 ((size + payload.length) % 256) = BitVec.ofNat 8 (size + payload.length) :=
    BitVec.eq_of_toNat_eq (by simp)
  have grouped : (pieces h ip6 payload).flatten = ip6.ip6Src.memory ++ (ip6.ip6Dst.memory ++
      ([0, 0] ++ (wire16 (size + payload.length) ++ ([0, 0] ++ ([0, ip6.ip6Nxt] ++
        ([h.icmp6Type, h.icmp6Code] ++ (memory16 h.icmp6Id ++ (memory16 h.icmp6Seq ++ ([0, 0] ++
          (payload ++ List.replicate (payload.length % 2) 0)))))))))) := by
    simp [pieces, low, wire16]
  rw [grouped, total_host_append (by simp), total_host_append (by simp), total_host_append (by simp),
    total_host_append (by simp [wire16]), total_host_append (by simp), total_host_append (by simp),
    total_host_append (by simp), total_host_append (by simp), total_host_append (by simp),
    total_host_append (by simp), total_padded, total_memory16, total_memory16, total_zeros]
  unfold unsummed
  omega

theorem total_sent (h : ICMPv6Header) (ip6 : IPv6Header) {payload : Bytes} (c : BitVec 16)
    (bound : payload.length ≤ 1900) :
    total (hostWords (pseudoHeader6 ip6.memory (size + payload.length) ++ (h.setChecksum c).memory ++
      payload)) = unsummed h ip6 payload + c.toNat := by
  have high : wire16 ((size + payload.length) / 65536) = [0, 0] := by
    rw [Nat.div_eq_of_lt (by unfold size; omega)]
    rfl
  have grouped : pseudoHeader6 ip6.memory (size + payload.length) ++ (h.setChecksum c).memory ++
      payload = ip6.ip6Src.memory ++ (ip6.ip6Dst.memory ++ ([0, 0] ++
        (wire16 (size + payload.length) ++ ([0, 0] ++ ([0, ip6.ip6Nxt] ++
          ([h.icmp6Type, h.icmp6Code] ++ (memory16 c ++ (memory16 h.icmp6Id ++
            (memory16 h.icmp6Seq ++ payload))))))))) := by
    rw [pseudoHeader6_memory, high]
    simp [memory, setChecksum]
  rw [grouped, total_host_append (by simp), total_host_append (by simp), total_host_append (by simp),
    total_host_append (by simp [wire16]), total_host_append (by simp), total_host_append (by simp),
    total_host_append (by simp), total_host_append (by simp), total_host_append (by simp),
    total_host_append (by simp), total_memory16, total_memory16, total_memory16, total_zeros]
  unfold unsummed
  omega

theorem verifies_computeChecksum (h : ICMPv6Header) (ip6 : IPv6Header) {payload : Bytes}
    (bound : payload.length ≤ 1900) :
    ∃ c, h.computeChecksum ip6 payload = .ok (h.setChecksum c) ∧
      Verifies (pseudoHeader6 ip6.memory (size + payload.length) ++ (h.setChecksum c).memory ++
        payload) := by
  refine ⟨_, computeChecksum_eq h ip6 bound, ?_⟩
  have length : (pieces h ip6 payload).flatten.length =
      48 + (payload.length + payload.length % 2) := by
    simp [pieces]
    omega
  have summed : (sumWords (pieces h ip6 payload).flatten 0#32).toNat = unsummed h ip6 payload := by
    rw [sumWords_of_le (by rw [length]; omega), total_pieces]
  have folded := foldAll_folded (unsummed h ip6 payload)
  have complement : (checksum (pieces h ip6 payload).flatten).toNat =
      65535 - foldAll (unsummed h ip6 payload) := by
    have le := folded.le
    unfold checksum
    rw [summed, BitVec.toNat_not, BitVec.toNat_ofNat, Nat.mod_eq_of_lt (by omega)]
  rw [verifies_iff_host, total_sent h ip6 _ bound]
  exact complement_completes folded complement

def ipprotoIcmpv6 : BitVec 8 := 58

/-- The header that `rejectUDPFlow` puts in front of the message. -/
def ipv6 (src dst : In6Addr) (length : BitVec 16) : IPv6Header :=
  (((IPv6Header.new ipprotoIcmpv6).setSourceAddress src).setDestinationAddress dst).setTotalLength
    length

def pseudo (src dst : In6Addr) (length : Nat) : Bytes :=
  src.memory ++ dst.memory ++ wire16 (length / 65536) ++ wire16 length ++ [0, 0, 0, ipprotoIcmpv6]

end ICMPv6Header

/-- The checksums of both protocols are right, for every header and for payloads of every content, odd
lengths included. -/
theorem icmp_checksums_verify :
    (∀ (h : ICMPHeader) (body : Bytes), body.length ≤ 65535 →
      Verifies ((h.computeChecksum body).memory ++ body)) ∧
    ∀ (h : ICMPv6Header) (src dst : In6Addr) (length : BitVec 16) (payload : Bytes),
      payload.length ≤ 1900 →
      ∃ c, h.computeChecksum (ICMPv6Header.ipv6 src dst length) payload = .ok (h.setChecksum c) ∧
        Verifies (ICMPv6Header.pseudo src dst (ICMPv6Header.size + payload.length) ++
          (h.setChecksum c).memory ++ payload) := by
  constructor
  · intro h body bound
    exact h.verifies_computeChecksum bound
  · intro h src dst length payload bound
    exact h.verifies_computeChecksum (ICMPv6Header.ipv6 src dst length) bound

/-- A port unreachable with a quotation of three octets. -/
theorem icmp_checksums_verify_unreachable :
    Verifies ((ICMPHeader.computeChecksum ⟨3, 3, 0, 0, 0⟩ [1, 2, 3]).memory ++ [1, 2, 3]) ∧
      ∃ c, ICMPv6Header.computeChecksum ⟨1, 4, 0, 0, 0⟩ (ICMPv6Header.ipv6 {} {} 11) [1, 2, 3] =
          .ok (ICMPv6Header.setChecksum ⟨1, 4, 0, 0, 0⟩ c) ∧
        Verifies (ICMPv6Header.pseudo {} {} (ICMPv6Header.size + 3) ++
          (ICMPv6Header.setChecksum ⟨1, 4, 0, 0, 0⟩ c).memory ++ [1, 2, 3]) :=
  ⟨icmp_checksums_verify.1 _ _ (by decide), icmp_checksums_verify.2 _ _ _ 11 _ (by decide)⟩

end AIEngine
