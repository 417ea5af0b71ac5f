import AiboosterEngine.GoSem.Text

/-!
# `net/netip`

Addresses and prefixes as the Go package keeps them: an address of one of the
two families or none, and a prefix whose number of bits fits its address, or
that is invalid. A prefix has no zone.
-/

namespace GoSem

inductive Addr where
  | zero
  | v4 (bytes : { b : Bytes // b.length = 4 })
  | v6 (bytes : { b : Bytes // b.length = 16 }) (zone : Bytes)
  deriving DecidableEq, Repr

namespace Addr

def bitLen : Addr → Nat
  | zero => 0
  | v4 _ => 32
  | v6 _ _ => 128

def asSlice : Addr → Bytes
  | zero => []
  | v4 b => b
  | v6 b _ => b

def withoutZone : Addr → Addr
  | v6 b _ => v6 b []
  | a => a

/-- `netip.AddrFromSlice`, the zero address when the length is neither of the two. -/
def fromSlice (bs : Bytes) : Addr :=
  if h : bs.length = 4 then v4 ⟨bs, h⟩
  else if h : bs.length = 16 then v6 ⟨bs, h⟩ []
  else zero

/-- The zone is not in the slice. -/
theorem fromSlice_asSlice (a : Addr) : fromSlice a.asSlice = a.withoutZone := by
  cases a with
  | zero => rfl
  | v4 b => exact dif_pos b.2
  | v6 b zone =>
    have long : ¬ b.1.length = 4 := by rw [b.2]; decide
    rw [asSlice, fromSlice, dif_neg long, dif_pos b.2]
    rfl

theorem withoutZone_idem (a : Addr) : a.withoutZone.withoutZone = a.withoutZone := by
  cases a <;> rfl

end Addr

/-- `bits` is `none` for the prefixes whose `Bits()` is -1. -/
@[ext] structure Prefix where
  addr : Addr
  bits : Option Nat
  noZone : addr.withoutZone = addr
  inRange : ∀ n, bits = some n → addr ≠ .zero ∧ n ≤ addr.bitLen
  deriving DecidableEq

namespace Prefix

/-- `netip.Prefix{}`. -/
def zero : Prefix := ⟨.zero, none, rfl, fun _ h => nomatch h⟩

/-- `netip.PrefixFrom`. -/
def prefixFrom (ip : Addr) (bits : Nat) : Prefix :=
  if h : ip.withoutZone ≠ .zero ∧ bits ≤ ip.withoutZone.bitLen then
    ⟨ip.withoutZone, some bits, ip.withoutZone_idem, fun _ some => by cases some; exact h⟩
  else ⟨ip.withoutZone, none, ip.withoutZone_idem, fun _ some => nomatch some⟩

/-- `uint8(p.Bits())`. -/
def bitsByte (p : Prefix) : UInt8 :=
  match p.bits with
  | some n => UInt8.ofNat n
  | none => 255

theorem bitLen_le (a : Addr) : a.bitLen ≤ 128 := by
  cases a <;> simp [Addr.bitLen]

/-- An invalid prefix has more bits in the byte than any address. -/
theorem prefixFrom_fromSlice (p : Prefix) :
    prefixFrom (Addr.fromSlice p.addr.asSlice) p.bitsByte.toNat = p := by
  obtain ⟨addr, bits, noZone, inRange⟩ := p
  have small := bitLen_le addr
  unfold prefixFrom bitsByte
  simp only [Addr.fromSlice_asSlice, noZone]
  cases bits with
  | none =>
    rw [dif_neg]
    rintro ⟨_, le⟩
    have le : 255 ≤ addr.bitLen := le
    omega
  | some n =>
    obtain ⟨nonzero, le⟩ := inRange n rfl
    have byte : (UInt8.ofNat n).toNat = n := by rw [UInt8.toNat_ofNat']; omega
    simp only [byte]
    rw [dif_pos ⟨nonzero, le⟩]

end Prefix

end GoSem
