import AiboosterEngine.GoSem.Slice
import Mathlib.Algebra.Group.Nat.Defs

/-!
# Cutting text up

More of `strings` and `strconv`, and the lines of `bufio.Scanner`.
-/

namespace GoSem

open List

section
variable {α : Type} [BEq α]

/-- `strings.Cut(s, sep)`: what stands before the first `sep` and after it. -/
def cut (sep : List α) : List α → Option (List α × List α)
  | [] => if sep.isEmpty then some ([], []) else none
  | a :: s =>
    if sep.isPrefixOf (a :: s) then some ([], (a :: s).drop sep.length)
    else (cut sep s).map fun (before, after) => (a :: before, after)

/-- `strings.Index(s, sep)`. -/
def indexOf (sep s : List α) : Option Nat := (cut sep s).map (·.1.length)

/-- `strings.ReplaceAll` of one byte by another. -/
def replaceByte (old new : α) (s : List α) : List α := s.map fun a => if a == old then new else a

end

section
variable {α : Type} [BEq α] [LawfulBEq α] {s before after sep : List α} {d : α}

theorem cut_append (h : cut sep s = some (before, after)) : s = before ++ sep ++ after := by
  induction s generalizing before with
  | nil =>
    unfold cut at h
    split at h
    · rename_i empty
      cases h
      simpa using empty
    · cases h
  | cons a s ih =>
    unfold cut at h
    split at h
    · rename_i here
      cases h
      exact (prefix_iff_eq_append.mp (List.isPrefixOf_iff_prefix.mp here)).symm
    · obtain ⟨⟨before', after'⟩, later, same⟩ := Option.map_eq_some_iff.mp h
      cases same
      rw [ih later]
      rfl

theorem indexOf_lt {i : Nat} (h : indexOf sep s = some i) : i + sep.length ≤ s.length := by
  obtain ⟨⟨before, after⟩, found, same⟩ := Option.map_eq_some_iff.mp h
  subst same
  have := congrArg List.length (cut_append found)
  simp only [length_append] at this
  show before.length + _ ≤ _
  omega

theorem cut_byte : cut [d] s = some (before, after) ↔ s = before ++ d :: after ∧ d ∉ before := by
  induction s generalizing before with
  | nil => simp [cut]
  | cons a s ih =>
    unfold cut
    by_cases here : d = a
    · subst here
      have first : [d].isPrefixOf (d :: s) = true := by simp [isPrefixOf]
      rw [if_pos first]
      constructor
      · intro same
        cases same
        exact ⟨rfl, not_mem_nil⟩
      · rintro ⟨same, absent⟩
        cases before with
        | nil =>
          cases same
          rfl
        | cons b before =>
          cases same
          exact absurd mem_cons_self absent
    · have first : ¬ [d].isPrefixOf (a :: s) = true := by simpa [isPrefixOf] using here
      rw [if_neg first, Option.map_eq_some_iff]
      constructor
      · rintro ⟨⟨before', after'⟩, later, same⟩
        cases same
        obtain ⟨rfl, absent⟩ := ih.mp later
        refine ⟨rfl, fun mem => ?_⟩
        rcases mem_cons.mp mem with same | mem
        · exact here same
        · exact absent mem
      · rintro ⟨same, absent⟩
        cases before with
        | nil =>
          cases same
          exact absurd rfl here
        | cons b before =>
          cases same
          exact ⟨(before, after), ih.mpr ⟨rfl, fun mem => absent (mem_cons_of_mem _ mem)⟩, rfl⟩

theorem hasInfix_byte : hasInfix [d] s = true ↔ d ∈ s := by
  induction s with
  | nil => simp [hasInfix]
  | cons a s ih =>
    rw [hasInfix, Bool.or_eq_true, ih, mem_cons]
    simp [isPrefixOf]

/-- Bytes that are no separator go into the first piece. -/
theorem splitPieces_append (h : d ∉ before) :
    splitPieces [d] 0 (before ++ s) =
      (before ++ (splitPieces [d] 0 s).1, (splitPieces [d] 0 s).2) := by
  induction before with
  | nil => rfl
  | cons a before ih =>
    have other : ¬ d = a := fun same => h (by rw [same]; exact mem_cons_self)
    have rest := ih fun mem => h (mem_cons_of_mem _ mem)
    simp [splitPieces, isPrefixOf, other, rest]

theorem split_absent (h : d ∉ s) : split [d] s = [s] := by
  have pieces := splitPieces_append h (s := [])
  rw [append_nil] at pieces
  rw [split, pieces]
  simp [splitPieces]

theorem split_byte (h : d ∉ before) :
    split [d] (before ++ d :: after) = before :: split [d] after := by
  rw [split, splitPieces_append h]
  simp [splitPieces, isPrefixOf, split]

end

section
variable {ε : Type}

/-- `if strings.HasPrefix(s, head) { s = s[len(head):] }`. -/
def cutStart (head s : Bytes) : Outcome ε Bytes :=
  if head.isPrefixOf s then sliceFrom s head.length else .ok s

/-- `if strings.HasSuffix(s, tail) { s = s[:len(s)-len(tail)] }`. -/
def cutEnd (tail s : Bytes) : Outcome ε Bytes :=
  if tail.isSuffixOf s then slice s 0 (s.length - tail.length) else .ok s

theorem cutStart_ok (head s : Bytes) : ∃ t, (cutStart head s : Outcome ε Bytes) = .ok t := by
  unfold cutStart
  split
  · rename_i here
    exact ⟨_, sliceFrom_eq (List.isPrefixOf_iff_prefix.mp here).length_le⟩
  · exact ⟨s, rfl⟩

theorem cutEnd_ok (tail s : Bytes) : ∃ t, (cutEnd tail s : Outcome ε Bytes) = .ok t := by
  unfold cutEnd
  split
  · exact ⟨_, slice_eq (Nat.zero_le _) (Nat.sub_le _ _)⟩
  · exact ⟨s, rfl⟩

/-- What is left of a text that `j` makes of another. -/
theorem cut_iff {j : Bytes → Bytes} (inj : ∀ {r r'}, j r = j r' → r = r') {here : Bool}
    {x : Outcome ε Bytes} {s t : Bytes} (there : here = true ↔ ∃ r, j r = s)
    (cut : ∀ r, j r = s → x = .ok r) :
    (if here then x else .ok s) = .ok t ↔ s = j t ∨ (s = t ∧ ¬ ∃ r, j r = t) := by
  split
  · rename_i found
    obtain ⟨rest, rfl⟩ := there.mp found
    rw [cut rest rfl]
    constructor
    · intro same
      cases same
      exact .inl rfl
    · rintro (same | ⟨rfl, absent⟩)
      · rw [inj same]
      · exact absurd ⟨_, rfl⟩ absent
  · rename_i absent
    rw [there] at absent
    constructor
    · intro same
      cases same
      exact .inr ⟨rfl, absent⟩
    · rintro (rfl | ⟨rfl, _⟩)
      · exact absurd ⟨_, rfl⟩ absent
      · rfl

theorem cutStart_iff {head s t : Bytes} :
    (cutStart head s : Outcome ε Bytes) = .ok t ↔
      s = head ++ t ∨ (s = t ∧ ¬ head <+: t) := by
  refine cut_iff append_cancel_left isPrefixOf_iff_prefix ?_
  rintro rest rfl
  rw [sliceFrom_eq (by simp), drop_left]

theorem cutEnd_iff {tail s t : Bytes} :
    (cutEnd tail s : Outcome ε Bytes) = .ok t ↔
      s = t ++ tail ∨ (s = t ∧ ¬ tail <:+ t) := by
  refine cut_iff (j := (· ++ tail)) append_cancel_right isSuffixOf_iff_suffix ?_
  rintro rest rfl
  rw [slice_eq (Nat.zero_le _) (Nat.sub_le _ _)]
  simp

end

def digit (b : UInt8) : Bool := 48 ≤ b && b ≤ 57

/-- `strconv.ParseUint(s, 10, bits)`, nothing where it returns an error. -/
def parseUint (bits : Nat) (s : Bytes) : Option Nat :=
  if s.isEmpty || !s.all digit then none
  else
    let n := s.foldl (fun n b => n * 10 + (b.toNat - 48)) 0
    if n < 2 ^ bits then some n else none

/-- A buffer of 64 KiB has to hold a line and what ends it. -/
def maxLine : Nat := 65535

def dropCR (line : Bytes) : Bytes :=
  if [carriageReturn].isSuffixOf line then line.dropLast else line

/-- What a `bufio.Scanner` gives of a text, line by line. It stops at a line that does not fit its
buffer. -/
def scanLines (text : Bytes) : List Bytes :=
  let pieces := split [newline] text
  let pieces := if pieces.getLast? = some [] then pieces.dropLast else pieces
  (pieces.takeWhile fun line => line.length ≤ maxLine).map dropCR

end GoSem
