import AiboosterEngine.GoSem.Binary
import AiboosterEngine.GoSem.Netip

/-!
# Addresses in order

`Next` of an address and `Contains` of a prefix (`net/netip`), over addresses
read as numbers. A prefix contains an interval of addresses, so that a walk that
has left it stays outside (`contains_between`).
-/

namespace GoSem

namespace Addr

def isValid : Addr → Bool
  | zero => false
  | _ => true

def is4 : Addr → Bool
  | v4 _ => true
  | _ => false

def toNat (a : Addr) : Nat := fromBigEndian a.asSlice

theorem toNat_v4 (b : { b : Bytes // b.length = 4 }) : (v4 b).toNat = fromBigEndian b := rfl

theorem toNat_v6 (b : { b : Bytes // b.length = 16 }) (zone : Bytes) :
    (v6 b zone).toNat = fromBigEndian b := rfl

/-- The address that follows, or the zero address when there is none. -/
def next : Addr → Addr
  | zero => zero
  | v4 b =>
    if fromBigEndian b + 1 < 256 ^ 4
      then v4 ⟨bigEndian 4 (fromBigEndian b + 1), bigEndian_length _ _⟩
    else zero
  | v6 b zone =>
    if fromBigEndian b + 1 < 256 ^ 16 then
      v6 ⟨bigEndian 16 (fromBigEndian b + 1), bigEndian_length _ _⟩ zone
    else zero

theorem isValid_iff_bitLen (a : Addr) : a.isValid = true ↔ a.bitLen ≠ 0 := by
  cases a <;> simp [isValid, bitLen]

theorem is4_iff_bitLen (a : Addr) : a.is4 = true ↔ a.bitLen = 32 := by
  cases a <;> simp [is4, bitLen]

theorem next_spec {a : Addr} (h : a.next.isValid = true) :
    a.isValid = true ∧ a.next.bitLen = a.bitLen ∧ a.next.is4 = a.is4 ∧ a.next.toNat = a.toNat + 1 ∧
      (a.withoutZone = a → a.next.withoutZone = a.next) := by
  cases a with
  | zero => cases h
  | v4 b =>
    by_cases small : fromBigEndian b + 1 < 256 ^ 4
    · have same : (v4 b).next = v4 ⟨bigEndian 4 (fromBigEndian b + 1), bigEndian_length _ _⟩ :=
        if_pos small
      rw [same]
      refine ⟨rfl, by simp only [bitLen], by simp only [is4], ?_, fun _ => rfl⟩
      rw [toNat_v4, toNat_v4]
      exact fromBigEndian_bigEndian small
    · rw [show (v4 b).next = zero from if_neg small] at h
      cases h
  | v6 b zone =>
    by_cases small : fromBigEndian b + 1 < 256 ^ 16
    · have same : (v6 b zone).next =
        v6 ⟨bigEndian 16 (fromBigEndian b + 1), bigEndian_length _ _⟩ zone :=
        if_pos small
      rw [same]
      refine ⟨rfl, by simp only [bitLen], by simp only [is4], ?_, fun none => ?_⟩
      · rw [toNat_v6, toNat_v6]
        exact fromBigEndian_bigEndian small
      · cases none
        rfl
    · rw [show (v6 b zone).next = zero from if_neg small] at h
      cases h

end Addr

namespace Prefix

def isValid (p : Prefix) : Bool := p.bits.isSome

/-- The address has no zone, is of the family of the prefix, and has its leading bits. -/
def contains (p : Prefix) (ip : Addr) : Bool :=
  match p.bits with
  | none => false
  | some bits => ip.withoutZone = ip && ip.bitLen = p.addr.bitLen &&
    ip.toNat / 2 ^ (p.addr.bitLen - bits) = p.addr.toNat / 2 ^ (p.addr.bitLen - bits)

theorem contains_family {p : Prefix} {ip : Addr} (h : p.contains ip = true) :
    ip.isValid = true ∧ ip.bitLen = p.addr.bitLen := by
  unfold contains at h
  split at h
  · cases h
  · rename_i bits some
    simp only [Bool.and_eq_true, decide_eq_true_eq] at h
    have nonzero : p.addr.bitLen ≠ 0 := by
      have := (p.inRange bits some).1
      cases addr : p.addr with
      | zero => exact absurd addr this
      | v4 b => exact Nat.succ_ne_zero 31
      | v6 b zone => exact Nat.succ_ne_zero 127
    refine ⟨?_, h.1.2⟩
    rw [Addr.isValid_iff_bitLen, h.1.2]
    exact nonzero

theorem contains_noZone {p : Prefix} {ip : Addr} (h : p.contains ip = true) :
    ip.withoutZone = ip := by
  unfold contains at h
  split at h
  · cases h
  · simp only [Bool.and_eq_true, decide_eq_true_eq] at h
    exact h.1.1

/-- What lies between the address of the prefix and an address it contains is contained. -/
theorem contains_between {p : Prefix} {low high : Addr} (h : p.contains high = true)
    (zone : low.withoutZone = low) (family : low.bitLen = high.bitLen)
    (above : p.addr.toNat ≤ low.toNat) (below : low.toNat ≤ high.toNat) :
      p.contains low = true := by
  unfold contains at h ⊢
  split at h
  · cases h
  · rename_i bits some
    simp only [Bool.and_eq_true, decide_eq_true_eq] at h
    simp only [Bool.and_eq_true, decide_eq_true_eq]
    obtain ⟨⟨_, bitLen⟩, leading⟩ := h
    refine ⟨⟨zone, family.trans bitLen⟩, Nat.le_antisymm ?_ ?_⟩
    · exact Nat.le_trans (Nat.div_le_div_right below) (Nat.le_of_eq leading)
    · exact Nat.div_le_div_right above

end Prefix

end GoSem
