import AiboosterEngine.GoSem.Reader

/-!
# `encoding/binary`

Bytes, booleans, big-endian numbers and varints as the Go package reads and
writes them, each with the lemma that reading undoes writing.
-/

namespace GoSem

open List UInt8

def eof : String := "EOF"

def unexpectedEOF : String := "unexpected EOF"

/-- `io.ReadFull` of `n` bytes. -/
def readFull (n : Nat) : Reader String Bytes := fun bs =>
  if n ≤ bs.length then some (.ok (bs.take n, bs.drop n))
  else if bs.isEmpty then some (.err eof)
  else some (.err unexpectedEOF)

variable {n : Nat} {bs : Bytes}

theorem reads_full (h : bs.length = n) : Reads (readFull n) bs bs := by
  intro rest
  have enough : n ≤ (bs ++ rest).length := by rw [length_append]; omega
  rw [readFull, if_pos enough, ← h, take_left, drop_left]

def readByte : Reader String UInt8
  | [] => some (.err eof)
  | b :: bs => some (.ok (b, bs))

theorem reads_byte (b : UInt8) : Reads readByte [b] b := fun _ => rfl

/-- `io.CopyN` of `n` bytes to `io.Discard`. -/
def skip (n : Nat) : Reader String Unit := fun bs =>
  if n ≤ bs.length then some (.ok ((), bs.drop n)) else some (.err eof)

theorem readByte_yields (bs : Bytes) :
    Yields readByte bs fun _ rest => rest.length + 1 = bs.length := by
  cases bs with
  | nil => exact .error rfl
  | cons b bs => exact .value rfl rfl

theorem readFull_yields (n : Nat) (bs : Bytes) :
    Yields (readFull n) bs fun value rest => value.length = n ∧ rest.length + n = bs.length := by
  by_cases enough : n ≤ bs.length
  · refine .value (if_pos enough) ⟨?_, ?_⟩
    · rw [length_take]; omega
    · rw [length_drop]; omega
  · by_cases empty : bs.isEmpty = true
    · exact .error (by rw [readFull, if_neg enough, if_pos empty])
    · exact .error (by rw [readFull, if_neg enough, if_neg empty])

theorem skip_yields (n : Nat) (bs : Bytes) :
    Yields (skip n) bs fun _ rest => rest.length + n = bs.length := by
  by_cases enough : n ≤ bs.length
  · refine .value (if_pos enough) ?_
    rw [length_drop]; omega
  · exact .error (if_neg enough)

def boolByte (b : Bool) : UInt8 := if b then 1 else 0

def readBool : Reader String Bool := do
  let b ← readByte
  return b != 0

theorem reads_bool (b : Bool) : Reads readBool [boolByte b] b := by
  have h : Reads readBool [boolByte b] (boolByte b != 0) := (reads_byte (boolByte b)).map
  cases b <;> exact h

/-- The last `width` bytes of a number. -/
def bigEndian : (width : Nat) → Nat → Bytes
  | 0, _ => []
  | w + 1, n => bigEndian w (n / 256) ++ [ofNat n]

def fromBigEndian (bs : Bytes) : Nat := bs.foldl (fun n b => n * 256 + b.toNat) 0

theorem bigEndian_length (w n : Nat) : (bigEndian w n).length = w := by
  induction w generalizing n with
  | zero => rfl
  | succ w ih => rw [bigEndian, length_append, ih]; rfl

theorem fromBigEndian_bigEndian {w : Nat} (h : n < 256 ^ w) :
    fromBigEndian (bigEndian w n) = n := by
  induction w generalizing n with
  | zero => simp at h; simp [bigEndian, fromBigEndian, h]
  | succ w ih =>
    have high : n / 256 < 256 ^ w := Nat.div_lt_of_lt_mul (by rwa [Nat.pow_succ, Nat.mul_comm] at h)
    have := ih high
    unfold fromBigEndian at this
    rw [bigEndian, fromBigEndian, foldl_append, this]
    simp only [foldl_cons, foldl_nil, toNat_ofNat']
    omega

def readUint64 : Reader String Nat := do
  let bs ← readFull 8
  return fromBigEndian bs

theorem reads_uint64 (h : n < 2 ^ 64) : Reads readUint64 (bigEndian 8 n) n := by
  have := (reads_full (bigEndian_length 8 n)).map (f := fromBigEndian)
  rwa [fromBigEndian_bigEndian (by omega)] at this

/-- `binary.PutUvarint`: seven bits a byte, the lowest first. -/
def uvarint (n : Nat) : Bytes :=
  if n < 128 then [ofNat n] else ofNat (n % 128 + 128) :: uvarint (n / 128)
termination_by n
decreasing_by omega

/-- The loop of `binary.ReadUvarint` with `left` of its ten bytes to go; `x` are the `shift`
bits read so far. -/
def readUvarintLoop : (left shift x : Nat) → Reader String Nat
  | 0, _, _ => .fail "binary: varint overflows a 64-bit integer"
  | left + 1, shift, x => do
    let b ← readByte
    if b.toNat < 128 then
      if left = 0 ∧ 1 < b.toNat then .fail "binary: varint overflows a 64-bit integer"
      else return x + b.toNat * 2 ^ shift
    else readUvarintLoop left (shift + 7) (x + (b.toNat - 128) * 2 ^ shift)

def readUvarint : Reader String Nat := readUvarintLoop 10 0 0

theorem readUvarintLoop_cons (left shift x : Nat) (b : UInt8) (rest : Bytes) :
    readUvarintLoop (left + 1) shift x (b :: rest) =
      if b.toNat < 128 then
        if left = 0 ∧ 1 < b.toNat then some (.err "binary: varint overflows a 64-bit integer")
        else some (.ok (x + b.toNat * 2 ^ shift, rest))
      else readUvarintLoop left (shift + 7) (x + (b.toNat - 128) * 2 ^ shift) rest := by
  rw [readUvarintLoop]
  show Reader.bind readByte _ (b :: rest) = _
  simp only [Reader.bind, readByte]
  split
  · split <;> rfl
  · rfl

/-- The bytes still to come hold what is left of the number, and the last of ten holds one bit. -/
theorem reads_uvarintLoop (left shift x : Nat) (h : n < 2 ^ (7 * left + 1)) :
    Reads (readUvarintLoop (left + 1) shift x) (uvarint n) (x + n * 2 ^ shift) := by
  induction left generalizing shift x n with
  | zero =>
    have small : n < 2 := by simpa using h
    have byte : (ofNat n).toNat = n := by rw [toNat_ofNat']; omega
    rw [uvarint, if_pos (by omega)]
    intro rest
    rw [singleton_append, readUvarintLoop_cons, byte, if_pos (by omega), if_neg (by omega)]
  | succ left ih =>
    rw [uvarint]
    intro rest
    by_cases last : n < 128
    · have byte : (ofNat n).toNat = n := by rw [toNat_ofNat']; omega
      rw [if_pos last, singleton_append, readUvarintLoop_cons, byte, if_pos last,
        if_neg (by omega)]
    · have byte : (ofNat (n % 128 + 128)).toNat = n % 128 + 128 := by
        rw [toNat_ofNat']; omega
      have high : n / 128 < 2 ^ (7 * left + 1) := by
        apply Nat.div_lt_of_lt_mul
        rwa [show 7 * (left + 1) + 1 = 7 + (7 * left + 1) by omega, Nat.pow_add] at h
      have value : x + n % 128 * 2 ^ shift + n / 128 * 2 ^ (shift + 7) = x + n * 2 ^ shift := by
        have parts : n * 2 ^ shift = n % 128 * 2 ^ shift + n / 128 * (2 ^ shift * 128) := by
          rw [Nat.mul_comm (2 ^ shift) 128, ← Nat.mul_assoc, ← Nat.add_mul, Nat.mod_add_div']
        rw [parts, Nat.pow_add, Nat.add_assoc]
      rw [if_neg last, cons_append, readUvarintLoop_cons, byte, if_neg (by omega),
        ih _ _ high rest, Nat.add_sub_cancel, value]

theorem reads_uvarint (h : n < 2 ^ 64) : Reads readUvarint (uvarint n) n := by
  have := reads_uvarintLoop 9 0 0 h
  rwa [Nat.pow_zero, Nat.mul_one, Nat.zero_add] at this

/-- What has been read stays below the bits to come, of which there are 63 before the last byte. -/
theorem readUvarintLoop_lt {left shift x : Nat} {rest : Bytes} (small : x < 2 ^ shift)
    (bits : shift + 7 * left = 63)
    (h : readUvarintLoop (left + 1) shift x bs = some (.ok (n, rest))) :
    n < 2 ^ 64 ∧ rest.length < bs.length := by
  induction left generalizing shift x bs with
  | zero =>
    cases bs with
    | nil => cases h
    | cons b bs =>
      rw [readUvarintLoop_cons] at h
      split at h
      · split at h
        · cases h
        · cases h
          have shifted : shift = 63 := by omega
          subst shifted
          exact ⟨by omega, Nat.lt_succ_self _⟩
      · cases h
  | succ left ih =>
    cases bs with
    | nil => cases h
    | cons b bs =>
      have grown : 2 ^ (shift + 7) = 128 * 2 ^ shift := by rw [Nat.pow_add, Nat.mul_comm]
      have byte := b.toNat_lt
      rw [readUvarintLoop_cons] at h
      split at h
      · next low =>
        rw [if_neg (by omega)] at h
        cases h
        have fits : 2 ^ (shift + 7) ≤ 2 ^ 63 := Nat.pow_le_pow_right (by omega) (by omega)
        have product : b.toNat * 2 ^ shift ≤ 127 * 2 ^ shift := Nat.mul_le_mul_right _ (by omega)
        exact ⟨by omega, Nat.lt_succ_self _⟩
      · next high =>
        have product : (b.toNat - 128) * 2 ^ shift ≤ 127 * 2 ^ shift :=
          Nat.mul_le_mul_right _ (by omega)
        obtain ⟨below, shorter⟩ := ih (by omega) (by omega) h
        exact ⟨below, Nat.lt_succ_of_lt shorter⟩

theorem readUvarint_lt {rest : Bytes} (h : readUvarint bs = some (.ok (n, rest))) :
    n < 2 ^ 64 ∧ rest.length < bs.length :=
  readUvarintLoop_lt (by decide) rfl h

/-- `varbin` for a slice of bytes or a string. One that fits in memory comes back, and takes its
room. -/
structure Varbin where
  write : Bytes → Bytes
  read : Reader String Bytes
  reads : ∀ bs : Bytes, bs.length ≤ 2 ^ 48 → Reads read (write bs) bs
  length_le : ∀ bs : Bytes, bs.length ≤ (write bs).length

def readVarBytes : Reader String Bytes := do
  let n ← readUvarint
  .lift (makeSlice 1 n)
  readFull n

/-- The length, and the bytes. -/
def varBytes : Varbin where
  write bs := uvarint bs.length ++ bs
  read := readVarBytes
  reads bs h := by
    have made : (makeSlice 1 bs.length : Outcome String Unit) = .ok () := makeSlice_ok (by omega)
    exact (reads_uvarint (by omega)).bind ((Reads.lift made).bind (reads_full rfl))
  length_le bs := by
    rw [length_append]
    omega

end GoSem
