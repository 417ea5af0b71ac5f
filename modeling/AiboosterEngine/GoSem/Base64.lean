import AiboosterEngine.GoSem.Text

/-!
# `encoding/base64`

Decoding with padding, as `StdEncoding` and `URLEncoding` do it: line breaks
are passed over, the bits left over before the padding may be anything.
-/

namespace GoSem.Base64

def pad : UInt8 := 61

/-- The value of a character; `c62` and `c63` are the last two of the alphabet. -/
def value (c62 c63 c : UInt8) : Option Nat :=
  if 65 ≤ c && c ≤ 90 then some (c.toNat - 65)
  else if 97 ≤ c && c ≤ 122 then some (c.toNat - 71)
  else if 48 ≤ c && c ≤ 57 then some (c.toNat + 4)
  else if c == c62 then some 62
  else if c == c63 then some 63
  else none

/-- Groups of four, of which only the last may be padded. -/
def quanta (v : UInt8 → Option Nat) : Bytes → Option Bytes
  | [] => some []
  | a :: b :: c :: d :: s =>
    if s.isEmpty && d == pad then
      if c == pad then do
        let x ← v a
        let y ← v b
        pure [UInt8.ofNat ((x * 64 + y) / 16)]
      else do
        let x ← v a
        let y ← v b
        let z ← v c
        let n := (x * 64 + y) * 64 + z
        pure [UInt8.ofNat (n / 1024), UInt8.ofNat (n / 4)]
    else do
      let x ← v a
      let y ← v b
      let z ← v c
      let w ← v d
      let n := ((x * 64 + y) * 64 + z) * 64 + w
      let more ← quanta v s
      pure (UInt8.ofNat (n / 65536) :: UInt8.ofNat (n / 256) :: UInt8.ofNat n :: more)
  | _ => none

def decode (v : UInt8 → Option Nat) (s : Bytes) : Option Bytes :=
  quanta v (s.filter fun c => c != newline && c != carriageReturn)

/-- `StdEncoding.DecodeString`, with `+` and `/`. -/
def decodeStd (s : Bytes) : Option Bytes := decode (value 43 47) s

/-- `URLEncoding.DecodeString`, with `-` and `_`. -/
def decodeURL (s : Bytes) : Option Bytes := decode (value 45 95) s

example : decodeStd (utf8 "c3M6Ly8=") = some (utf8 "ss://") := by decide

end GoSem.Base64
