import Mathlib.Algebra.Group.Nat.Defs

/-!
# The capture file format

A header of 24 bytes, and for each packet a header of 16 bytes and the bytes that were captured. All
words are little-endian.
-/

namespace Pcap

abbrev Bytes := List (BitVec 8)

def le16 (w : BitVec 16) : Bytes := [BitVec.ofNat 8 w.toNat, BitVec.ofNat 8 (w.toNat / 256)]

def le32 (w : BitVec 32) : Bytes :=
  [BitVec.ofNat 8 w.toNat, BitVec.ofNat 8 (w.toNat / 256), BitVec.ofNat 8 (w.toNat / 65536),
    BitVec.ofNat 8 (w.toNat / 16777216)]

def read32 : Bytes → Option (BitVec 32 × Bytes)
  | b0 :: b1 :: b2 :: b3 :: rest =>
    some (BitVec.ofNat 32
      (b0.toNat + 256 * b1.toNat + 65536 * b2.toNat + 16777216 * b3.toNat), rest)
  | _ => none

theorem le32_length (w : BitVec 32) : (le32 w).length = 4 := rfl

theorem read32_le32 (w : BitVec 32) (rest : Bytes) : read32 (le32 w ++ rest) = some (w, rest) := by
  have bound := w.isLt
  have whole : w.toNat % 256 + 256 * (w.toNat / 256 % 256) + 65536 * (w.toNat / 65536 % 256) +
      16777216 * (w.toNat / 16777216 % 256) = w.toNat := by omega
  simp only [le32, List.cons_append, List.nil_append, read32, BitVec.toNat_ofNat]
  show some (BitVec.ofNat 32 (w.toNat % 256 + 256 * (w.toNat / 256 % 256) +
    65536 * (w.toNat / 65536 % 256) + 16777216 * (w.toNat / 16777216 % 256)), rest) = _
  rw [whole, BitVec.ofNat_toNat, BitVec.setWidth_eq]

/-! ### File headers -/

def magic : BitVec 32 := 0xa1b2c3d4

/-- The words of a file header behind its magic number. -/
structure FileHeader where
  versionMajor : BitVec 16
  versionMinor : BitVec 16
  thiszone : BitVec 32
  sigfigs : BitVec 32
  snaplen : BitVec 32
  linktype : BitVec 32

def FileHeader.bytes (h : FileHeader) : Bytes :=
  le32 magic ++ (le16 h.versionMajor ++ le16 h.versionMinor ++ le32 h.thiszone ++ le32 h.sigfigs ++
    le32 h.snaplen ++ le32 h.linktype)

theorem FileHeader.bytes_length (h : FileHeader) : h.bytes.length = 24 := rfl

/-- What stands behind the file header. -/
def readHeader (xs : Bytes) : Option Bytes :=
  match read32 xs with
  | some (w, rest) => if w = magic ∧ 20 ≤ rest.length then some (rest.drop 20) else none
  | none => none

theorem readHeader_bytes (h : FileHeader) (rest : Bytes) :
    readHeader (h.bytes ++ rest) = some rest := by
  unfold readHeader FileHeader.bytes
  rw [List.append_assoc, read32_le32]
  simp only
  rw [if_pos ⟨trivial, by simp [le16, le32]⟩]
  rfl

/-! ### Records -/

structure Record where
  sec : BitVec 32
  usec : BitVec 32
  len : BitVec 32
  data : Bytes
  fits : data.length < 2 ^ 32

def Record.bytes (r : Record) : Bytes :=
  le32 r.sec ++ (le32 r.usec ++ (le32 (BitVec.ofNat 32 r.data.length) ++ (le32 r.len ++ r.data)))

theorem Record.bytes_length (r : Record) : r.bytes.length = 16 + r.data.length := by
  unfold Record.bytes
  simp only [List.length_append, le32_length]
  omega

/-- The portion of `n` bytes, if the file has it. -/
def readData (sec usec len : BitVec 32) (n : BitVec 32) (xs : Bytes) : Option (Record × Bytes) :=
  if n.toNat ≤ xs.length then
    some ({ sec := sec
            usec := usec
            len := len
            data := xs.take n.toNat
            fits := by
              have bound := n.isLt
              have cut := List.length_take_le n.toNat xs
              omega },
      xs.drop n.toNat)
  else none

def readRecord (xs : Bytes) : Option (Record × Bytes) := do
  let (sec, xs) ← read32 xs
  let (usec, xs) ← read32 xs
  let (caplen, xs) ← read32 xs
  let (len, xs) ← read32 xs
  readData sec usec len caplen xs

theorem readRecord_bytes (r : Record) (rest : Bytes) :
    readRecord (r.bytes ++ rest) = some (r, rest) := by
  have size : (BitVec.ofNat 32 r.data.length).toNat = r.data.length := by
    rw [BitVec.toNat_ofNat]
    exact Nat.mod_eq_of_lt r.fits
  unfold readRecord Record.bytes
  simp only [List.append_assoc, read32_le32, Option.bind_eq_bind, Option.bind_some]
  unfold readData
  rw [if_pos (by rw [size, List.length_append]; omega)]
  simp only [size, List.take_left', List.drop_left']

/-- The records of a file. Each takes some bytes, so that there are at most as many as bytes. -/
def readRecords : Nat → Bytes → Option (List Record)
  | _, [] => some []
  | 0, _ :: _ => none
  | n + 1, x :: xs =>
    match readRecord (x :: xs) with
    | some (r, rest) => (readRecords n rest).map (r :: ·)
    | none => none

theorem readRecords_bytes (rs : List Record) (n : Nat) (enough : rs.length ≤ n) :
    readRecords n (rs.flatMap Record.bytes) = some rs := by
  induction rs generalizing n with
  | nil => cases n <;> rfl
  | cons r rest ih =>
    cases n with
    | zero => exact absurd enough (by simp)
    | succ n =>
      have read := readRecord_bytes r (rest.flatMap Record.bytes)
      rw [List.flatMap_cons]
      cases split : r.bytes ++ rest.flatMap Record.bytes with
      | nil =>
        have length := congrArg List.length split
        rw [List.length_append, r.bytes_length, List.length_nil] at length
        omega
      | cons x xs =>
        rw [split] at read
        unfold readRecords
        rw [read]
        simp only
        rw [ih n (by rw [List.length_cons] at enough; omega)]
        rfl

def decode (xs : Bytes) : Option (List Record) :=
  match readHeader xs with
  | some rest => readRecords rest.length rest
  | none => none

def encode (h : FileHeader) (rs : List Record) : Bytes := h.bytes ++ rs.flatMap Record.bytes

theorem length_le_flatMap (rs : List Record) : rs.length ≤ (rs.flatMap Record.bytes).length := by
  induction rs with
  | nil => exact Nat.le_refl 0
  | cons r rest ih =>
    rw [List.flatMap_cons, List.length_append, List.length_cons, r.bytes_length]
    omega

theorem decode_encode (h : FileHeader) (rs : List Record) : decode (encode h rs) = some rs := by
  unfold decode encode
  rw [readHeader_bytes]
  exact readRecords_bytes rs _ (length_le_flatMap rs)

theorem encode_append (h : FileHeader) (rs : List Record) (r : Record) :
    encode h (rs ++ [r]) = encode h rs ++ r.bytes := by
  unfold encode
  rw [List.flatMap_append, ← List.append_assoc]
  simp

end Pcap
