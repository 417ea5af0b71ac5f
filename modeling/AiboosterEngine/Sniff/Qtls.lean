import AiboosterEngine.GoSem.Binary
import AiboosterEngine.GoSem.Slice

/-!
# Keys and numbers of QUIC

`common/sniff/internal/qtls`: the salts and labels of the Initial keys, the AEAD
that mixes the packet number into its nonce, and the variable-length integers.
HKDF, AES and GCM themselves are parameters (`Crypto`).
-/

namespace AiboosterEngine.Qtls
open GoSem

def versionDraft29 : Nat := 0xff00001d
def version1 : Nat := 0x1
def version2 : Nat := 0x6b3343cf

def saltOld : Bytes :=
  [0xaf, 0xbf, 0xec, 0x28, 0x99, 0x93, 0xd2, 0x4c, 0x9e, 0x97, 0x86, 0xf1, 0x9c, 0x61, 0x11, 0xe0,
   0x43, 0x90, 0xa8, 0x99]

def saltV1 : Bytes :=
  [0x38, 0x76, 0x2c, 0xf7, 0xf5, 0x59, 0x34, 0xb3, 0x4d, 0x17, 0x9a, 0xe6, 0xa4, 0xc8, 0x0c, 0xad,
   0xcc, 0xbb, 0x7f, 0x0a]

def saltV2 : Bytes :=
  [0x0d, 0xed, 0xe3, 0xde, 0xf7, 0x00, 0xa6, 0xdb, 0x81, 0x93, 0x81, 0xbe, 0x6e, 0x26, 0x9d, 0xcb,
   0xf9, 0xbd, 0x2e, 0xd9]

def hkdfLabelKeyV1 : String := "quic key"
def hkdfLabelKeyV2 : String := "quicv2 key"
def hkdfLabelIVV1 : String := "quic iv"
def hkdfLabelIVV2 : String := "quicv2 iv"
def hkdfLabelHeaderProtectionV1 : String := "quic hp"
def hkdfLabelHeaderProtectionV2 : String := "quicv2 hp"

/-- HKDF with SHA-256, AES and GCM, of which only the sizes of their results are known; `gcmOpen`
gives any plaintext, or none when the authentication fails. -/
structure Crypto where
  extract : (secret salt : Bytes) → Bytes
  expand : (secret info : Bytes) → (length : Nat) → Bytes
  expand_length : ∀ secret info length, length ≤ 255 * 32 →
    (expand secret info length).length = length
  encrypt : (key block : Bytes) → Bytes
  encrypt_length : ∀ key block, (encrypt key block).length = 16
  gcmOpen : (key nonce ciphertext additionalData : Bytes) → Option Bytes

/-- `HKDFExpandLabel` with SHA-256. -/
def hkdfExpandLabel (c : Crypto) (secret context : Bytes) (label : String) (length : Nat) :
    Outcome String Bytes :=
  let b := bigEndian 2 length ++ [UInt8.ofNat (6 + (utf8 label).length)] ++
    utf8 "tls13 " ++ utf8 label ++ [UInt8.ofNat context.length] ++ context
  let out := c.expand secret b length
  if out.length ≠ length then .panicked else .ok out

theorem hkdfExpandLabel_gives (c : Crypto) (secret context : Bytes) (label : String) {length : Nat}
    (h : length ≤ 255 * 32) :
    (hkdfExpandLabel c secret context label length).Gives fun out => out.length = length :=
  ⟨_, if_neg (not_not_intro (c.expand_length _ _ _ h)), c.expand_length _ _ _ h⟩

/-- `aes.NewCipher` as a check of the key. -/
def newCipher (key : Bytes) : Outcome String Unit :=
  if key.length = 16 ∨ key.length = 24 ∨ key.length = 32 then .ok ()
  else .err "crypto/aes: invalid key size"

theorem newCipher_eq {key : Bytes} (h : key.length = 16) : newCipher key = .ok () := if_pos (.inl h)

structure XorNonceAEAD where
  nonceMask : Bytes
  key : Bytes
  deriving DecidableEq, Repr

/-- `AEADAESGCMTLS13`, which panics where `aes.NewCipher` fails. -/
def aeadAESGCMTLS13 (key nonceMask : Bytes) : Outcome String XorNonceAEAD :=
  if nonceMask.length ≠ 12 then .panicked
  else match newCipher key with
    | .ok _ => .ok ⟨nonceMask, key⟩
    | _ => .panicked

theorem aeadAESGCMTLS13_eq {key nonceMask : Bytes} (hkey : key.length = 16)
    (hmask : nonceMask.length = 12) : aeadAESGCMTLS13 key nonceMask = .ok ⟨nonceMask, key⟩ := by
  unfold aeadAESGCMTLS13
  rw [if_neg (not_not_intro hmask), newCipher_eq hkey]

/-- `Open` with a nonce of eight bytes: it is mixed into the last eight of the mask. -/
def XorNonceAEAD.openAEAD (f : XorNonceAEAD) (c : Crypto)
    (nonce ciphertext additionalData : Bytes) :
    Outcome String Bytes :=
  let mixed := f.nonceMask.take 4 ++ List.zipWith (· ^^^ ·) (f.nonceMask.drop 4) nonce
  match c.gcmOpen f.key mixed ciphertext additionalData with
  | some plaintext => .ok plaintext
  | none => .err "cipher: message authentication failed"

theorem XorNonceAEAD.openAEAD_returns (f : XorNonceAEAD) (c : Crypto)
    (nonce ciphertext additionalData : Bytes) :
    (f.openAEAD c nonce ciphertext additionalData).Returns := by
  unfold XorNonceAEAD.openAEAD
  dsimp only
  split
  · trivial
  · trivial

/-- The first two bits of the first byte say how many bytes there are. -/
def readUvarint : Reader String Nat := do
  let firstByte ← readByte
  let len := 1 <<< ((firstByte &&& 0xc0) >>> 6).toNat
  let b1 := (firstByte &&& (0xff - 0xc0)).toNat
  if len = 1 then return b1 else
  let b2 ← readByte
  if len = 2 then return b2.toNat + b1 * 2 ^ 8 else
  let b3 ← readByte
  let b4 ← readByte
  if len = 4 then return b4.toNat + b3.toNat * 2 ^ 8 + b2.toNat * 2 ^ 16 + b1 * 2 ^ 24 else
  let b5 ← readByte
  let b6 ← readByte
  let b7 ← readByte
  let b8 ← readByte
  return b8.toNat + b7.toNat * 2 ^ 8 + b6.toNat * 2 ^ 16 + b5.toNat * 2 ^ 24 + b4.toNat * 2 ^ 32
    + b3.toNat * 2 ^ 40 + b2.toNat * 2 ^ 48 + b1 * 2 ^ 56

/-- The numbers are below `2 ^ 62`, so that `int` and `int64` hold them. -/
theorem readUvarint_yields (bs : Bytes) :
    Yields readUvarint bs fun n rest => n < 2 ^ 62 ∧ rest.length < bs.length := by
  unfold readUvarint
  refine .bind (readByte_yields bs) fun firstByte _ len1 => ?_
  have b1 : (firstByte &&& (0xff - 0xc0)).toNat < 64 := by
    rw [UInt8.toNat_and]
    exact Nat.lt_of_le_of_lt Nat.and_le_right (by decide)
  refine .ite (fun _ => .pure (by omega)) fun _ => .bind (readByte_yields _) fun b2 _ len2 => ?_
  have := b2.toNat_lt
  refine .ite (fun _ => .pure (by omega)) fun _ => .bind (readByte_yields _) fun b3 _ len3 => ?_
  refine .bind (readByte_yields _) fun b4 _ len4 => ?_
  have := b3.toNat_lt
  have := b4.toNat_lt
  refine .ite (fun _ => .pure (by omega)) fun _ => .bind (readByte_yields _) fun b5 _ len5 => ?_
  refine .bind (readByte_yields _) fun b6 _ len6 => .bind (readByte_yields _) fun b7 _ len7 => ?_
  refine .bind (readByte_yields _) fun b8 _ len8 => .pure ?_
  have := b5.toNat_lt
  have := b6.toNat_lt
  have := b7.toNat_lt
  have := b8.toNat_lt
  omega

end AiboosterEngine.Qtls
