/-!
# Text

The functions of the Go packages `strings` and `strconv` that the models use,
on lists: of characters for text that is only compared, of bytes for text that
is cut up.
-/

namespace GoSem

open List

section
variable {α : Type} [BEq α]

/-- `strings.Contains(s, sub)`. -/
def hasInfix (sub : List α) : List α → Bool
  | [] => sub.isEmpty
  | a :: s => sub.isPrefixOf (a :: s) || hasInfix sub s

/-- The pieces of `strings.Split`; the first component is the piece the text begins in.
`skip` counts the elements of a separator still to pass over. -/
def splitPieces (sep : List α) : (skip : Nat) → List α → List α × List (List α)
  | _, [] => ([], [])
  | k + 1, _ :: s => splitPieces sep k s
  | 0, a :: s =>
    if sep.isPrefixOf (a :: s) then
      let (first, more) := splitPieces sep (sep.length - 1) s
      ([], first :: more)
    else
      let (first, more) := splitPieces sep 0 s
      (a :: first, more)

/-- `strings.Split(s, sep)` for a separator that is not empty. -/
def split (sep s : List α) : List (List α) :=
  (splitPieces sep 0 s).1 :: (splitPieces sep 0 s).2

end

theorem splitPieces_length {α : Type} [BEq α] [LawfulBEq α] (d : α) (s : List α) :
    (splitPieces [d] 0 s).2.length = s.count d := by
  induction s with
  | nil => rfl
  | cons a s ih =>
    by_cases same : a = d
    · subst same
      simp [splitPieces, isPrefixOf, ih]
    · have other : (d == a) = false := by simpa using fun h : d = a => same h.symm
      simp [splitPieces, isPrefixOf, other, ih, same]

theorem split_length {α : Type} [BEq α] [LawfulBEq α] (d : α) (s : List α) :
    (split [d] s).length = s.count d + 1 := by
  rw [split, length_cons, splitPieces_length]

/-- `strings.Contains` on text. -/
def containsText (s sub : String) : Bool := hasInfix sub.toList s.toList

abbrev Bytes := List UInt8

/-- The bytes of a Go string literal. -/
def utf8 (s : String) : Bytes := s.toByteArray.data.toList

def newline : UInt8 := 10
def carriageReturn : UInt8 := 13

/-! ## `strings.TrimSpace`

The white space of Unicode: the ASCII characters 9 to 13 and 32, and the two- and
three-byte encodings of U+0085, U+00A0, U+1680, U+2000 to U+200A, U+2028, U+2029, U+202F,
U+205F and U+3000. -/

def asciiSpace (c : UInt8) : Bool := (9 ≤ c && c ≤ 13) || c == 32

/-- The last byte of the white space characters that begin with E2 80. -/
def generalPunctuationSpace (c : UInt8) : Bool :=
  (0x80 ≤ c && c ≤ 0x8a) || c == 0xa8 || c == 0xa9 || c == 0xaf

def trimLeft : Bytes → Bytes
  | [] => []
  | [a] => if asciiSpace a then [] else [a]
  | [a, b] =>
    if asciiSpace a then trimLeft [b]
    else if a == 0xc2 && (b == 0x85 || b == 0xa0) then []
    else [a, b]
  | a :: b :: c :: s =>
    if asciiSpace a then trimLeft (b :: c :: s)
    else if a == 0xc2 && (b == 0x85 || b == 0xa0) then trimLeft (c :: s)
    else if (a == 0xe1 && b == 0x9a && c == 0x80)
        || (a == 0xe2 && b == 0x80 && generalPunctuationSpace c)
        || (a == 0xe2 && b == 0x81 && c == 0x9f)
        || (a == 0xe3 && b == 0x80 && c == 0x80) then trimLeft s
    else a :: b :: c :: s

/-- The same from the other end, on the reversed text. -/
def trimLeftReversed : Bytes → Bytes
  | [] => []
  | [a] => if asciiSpace a then [] else [a]
  | [a, b] =>
    if asciiSpace a then trimLeftReversed [b]
    else if b == 0xc2 && (a == 0x85 || a == 0xa0) then []
    else [a, b]
  | a :: b :: c :: s =>
    if asciiSpace a then trimLeftReversed (b :: c :: s)
    else if b == 0xc2 && (a == 0x85 || a == 0xa0) then trimLeftReversed (c :: s)
    else if (c == 0xe1 && b == 0x9a && a == 0x80)
        || (c == 0xe2 && b == 0x80 && generalPunctuationSpace a)
        || (c == 0xe2 && b == 0x81 && a == 0x9f)
        || (c == 0xe3 && b == 0x80 && a == 0x80) then trimLeftReversed s
    else a :: b :: c :: s

def trimSpace (s : Bytes) : Bytes := (trimLeftReversed (trimLeft s).reverse).reverse

/-- A text that ends in a number tells the number, when what stands before the number
ends in something else than a digit. -/
theorem append_toString_inj {a b : String} {x : Char} (hx : x.isDigit = false) {m n : Nat}
    (h : a ++ String.singleton x ++ toString m = b ++ String.singleton x ++ toString n) :
    m = n := by
  have digits (a : String) (m : Nat) :
      (a ++ String.singleton x ++ toString m).toList.reverse.takeWhile Char.isDigit =
        (Nat.toDigits 10 m).reverse := by
    simp only [String.toList_append, Nat.toString_eq_repr, Nat.toList_repr, reverse_append]
    rw [takeWhile_append_of_pos]
    · simp [hx]
    · intro c hc
      exact Nat.isDigit_of_mem_toDigits (by omega) (by omega) (mem_reverse.mp hc)
  have same : Nat.toDigits 10 m = Nat.toDigits 10 n := by
    have := digits a m
    rw [h, digits b n] at this
    exact (reverse_inj.mp this).symm
  calc m = Nat.ofDigitChars 10 (Nat.toDigits 10 m) 0 :=
        (Nat.ofDigitChars_toDigits (by omega) (by omega)).symm
    _ = n := by rw [same, Nat.ofDigitChars_toDigits (by omega) (by omega)]

end GoSem
