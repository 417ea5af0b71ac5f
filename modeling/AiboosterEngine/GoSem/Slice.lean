import AiboosterEngine.GoSem.Outcome
import AiboosterEngine.GoSem.Text

/-!
# Slices

Index and slice expressions on byte slices: they panic outside the slice.
`uint16At` is two of them, as the models use it for numbers of two bytes, and
`uint16sAt` a list of such numbers; `word` is the same number without the check.
-/

namespace GoSem

open List

section
variable {ε : Type} (bs : Bytes) (i : Nat)

/-- `bs[i]`. -/
def index : Outcome ε UInt8 :=
  match bs[i]? with
  | some b => .ok b
  | none => .panicked

/-- `bs[i:]`. -/
def sliceFrom : Outcome ε Bytes :=
  if i ≤ bs.length then .ok (bs.drop i) else .panicked

/-- `bs[i:j]` within the length of `bs`. -/
def slice (i j : Nat) : Outcome ε Bytes :=
  if i ≤ j ∧ j ≤ bs.length then .ok ((bs.drop i).take (j - i)) else .panicked

/-- `bs[i] ^= b`. -/
def xorAt (b : UInt8) : Outcome ε Bytes := do
  let old ← index bs i
  return bs.set i (old ^^^ b)

/-- `copy(bs[i:j], source)`. -/
def copyInto (i j : Nat) (source : Bytes) : Outcome ε Bytes := do
  let target ← slice bs i j
  let copied := source.take target.length
  return bs.take i ++ copied ++ bs.drop (i + copied.length)

/-- The big-endian number of two bytes at `i`. -/
def uint16At : Outcome ε Nat := do
  let hi ← index bs i
  let lo ← index bs (i + 1)
  return hi.toNat * 256 + lo.toNat

/-- `n` of these numbers one after another, the first at `i`. -/
def uint16sAt (bs : Bytes) (i : Nat) : (n : Nat) → Outcome ε (List Nat)
  | 0 => .ok []
  | n + 1 => do
    let value ← uint16At bs i
    let values ← uint16sAt bs (i + 2) n
    return value :: values

def byteAt : UInt8 := bs.getD i 0

def word : Nat := (byteAt bs i).toNat * 256 + (byteAt bs (i + 1)).toNat

theorem word_lt (bs : Bytes) (i : Nat) : word bs i < 65536 := by
  have hi := (byteAt bs i).toNat_lt
  have lo := (byteAt bs (i + 1)).toNat_lt
  unfold word
  omega

variable {bs : Bytes} {i : Nat}

theorem index_eq (h : i < bs.length) : (index bs i : Outcome ε UInt8) = .ok (byteAt bs i) := by
  unfold index byteAt
  rw [getD_eq_getElem?_getD, getElem?_eq_getElem h]
  rfl

theorem uint16At_eq (h : i + 1 < bs.length) :
    (uint16At bs i : Outcome ε Nat) = .ok (word bs i) := by
  unfold uint16At
  rw [index_eq (by omega), index_eq h]
  rfl

theorem index_panics (h : bs.length ≤ i) : (index bs i : Outcome ε UInt8) = .panicked := by
  unfold index
  rw [getElem?_eq_none h]

theorem uint16At_panics (h : bs.length ≤ i + 1) : (uint16At bs i : Outcome ε Nat) = .panicked := by
  unfold uint16At
  rw [index_panics h]
  by_cases inside : i < bs.length
  · rw [index_eq inside]; rfl
  · rw [index_panics (by omega)]; rfl

theorem uint16sAt_ok {n : Nat} (h : i + 2 * n ≤ bs.length) :
    ∃ values, (uint16sAt bs i n : Outcome ε (List Nat)) = .ok values := by
  induction n generalizing i with
  | zero => exact ⟨[], rfl⟩
  | succ n ih =>
    obtain ⟨values, rest⟩ := ih (i := i + 2) (by omega)
    exact ⟨_, by rw [uint16sAt, uint16At_eq (by omega), rest]; rfl⟩

theorem uint16sAt_panics {n : Nat} (start : i ≤ bs.length) (h : bs.length < i + 2 * n) :
    (uint16sAt bs i n : Outcome ε (List Nat)) = .panicked := by
  induction n generalizing i with
  | zero => omega
  | succ n ih =>
    rw [uint16sAt]
    by_cases inside : i + 1 < bs.length
    · rw [uint16At_eq inside, ih (by omega) (by omega)]; rfl
    · rw [uint16At_panics (by omega)]; rfl

theorem sliceFrom_eq (h : i ≤ bs.length) :
    (sliceFrom bs i : Outcome ε Bytes) = .ok (bs.drop i) := if_pos h

theorem slice_eq {j : Nat} (h : i ≤ j) (h' : j ≤ bs.length) :
    (slice bs i j : Outcome ε Bytes) = .ok ((bs.drop i).take (j - i)) := if_pos ⟨h, h'⟩

theorem xorAt_gives (h : i < bs.length) (b : UInt8) :
    (xorAt bs i b : Outcome ε Bytes).Gives fun out => out.length = bs.length := by
  refine ⟨bs.set i (byteAt bs i ^^^ b), ?_, length_set⟩
  rw [xorAt, index_eq h]
  rfl

theorem copyInto_gives {j : Nat} (h : i ≤ j) (h' : j ≤ bs.length) (source : Bytes) :
    (copyInto bs i j source : Outcome ε Bytes).Gives fun out => out.length = bs.length := by
  refine ⟨_, by rw [copyInto, slice_eq h h']; rfl, ?_⟩
  simp only [length_append, length_take, length_drop]
  omega

theorem sliceFrom_ok {out : Bytes} (h : (sliceFrom bs i : Outcome ε Bytes) = .ok out) :
    i ≤ bs.length ∧ out = bs.drop i := by
  unfold sliceFrom at h
  split at h
  · rename_i le
    cases h
    exact ⟨le, rfl⟩
  · cases h

end

end GoSem
