import AiboosterEngine.GoSem.Map
import AiboosterEngine.GoSem.Outcome
import AiboosterEngine.GoSem.Text

/-!
# Header names as paths

`convertFlatToNested` cuts the name of every header at its dots and enters the
first of its values in a tree of maps, in whatever order the headers come.
-/

namespace AiboosterEngine.Profile

open GoSem List

/-- A value of the nested map: a text or another map. -/
inductive Nested where
  | text (value : Bytes)
  | map (entries : Map Bytes Nested)

/-- The headers of an answer, in the order in which the map is gone through. -/
abbrev Headers := List (Bytes × List Bytes)

def keysOf (name : Bytes) : List Bytes := split (utf8 ".") name

/-- The loop over the keys of one header. -/
def insertPath (value : List Bytes) : List Bytes → Map Bytes Nested →
    Outcome String (Map Bytes Nested)
  | [], current => .ok current
  | [k], current =>
    match value with
    -- index out of range
    | [] => .panicked
    | first :: _ => .ok (current.set k (.text first))
  | k :: next :: keys, current =>
    match current.get k with
    | none => do
      let below ← insertPath value (next :: keys) .empty
      return current.set k (.map below)
    | some (.map entries) => do
      let below ← insertPath value (next :: keys) entries
      return current.set k (.map below)
    -- the value is no map
    | some (.text _) => .panicked

def convertFrom : Headers → Map Bytes Nested → Outcome String (Map Bytes Nested)
  | [], nested => .ok nested
  | (name, value) :: rest, nested => do
    let nested ← insertPath value (keysOf name) nested
    convertFrom rest nested

def convertFlatToNested (overrides : Headers) : Outcome String (Map Bytes Nested) :=
  convertFrom overrides .empty

/-- The text at the end of a path. -/
def textAt : Map Bytes Nested → List Bytes → Option Bytes
  | _, [] => none
  | nested, [k] =>
    match nested.get k with
    | some (.text value) => some value
    | _ => none
  | nested, k :: next :: keys =>
    match nested.get k with
    | some (.map entries) => textAt entries (next :: keys)
    | _ => none

/-- The first path goes on beyond the second. -/
def Extends (long short : List Bytes) : Prop := short <+: long ∧ short ≠ long

section
variable {value : List Bytes} {first : Bytes} {keys path : List Bytes}
  {nested nested' : Map Bytes Nested}

@[simp] theorem textAt_empty (path : List Bytes) : textAt .empty path = none := by
  cases path with
  | nil => rfl
  | cons k path => cases path <;> rfl

theorem keysOf_ne_nil (name : Bytes) : keysOf name ≠ [] := cons_ne_nil _ _

theorem textAt_set_map (k : Bytes) (entries : Map Bytes Nested) (path : List Bytes) :
    textAt (nested.set k (.map entries)) path =
      if path.head? = some k then textAt entries path.tail else textAt nested path := by
  cases path with
  | nil => rfl
  | cons k' path => by_cases same : k' = k <;> cases path <;> simp [textAt, same]

theorem textAt_set_text (k value : Bytes) (path : List Bytes) :
    textAt (nested.set k (.text value)) path =
      if path = [k] then some value else if path.head? = some k then none
        else textAt nested path := by
  cases path with
  | nil => rfl
  | cons k' path => by_cases same : k' = k <;> cases path <;> simp [textAt, same]

variable {entries : Map Bytes Nested}

theorem textAt_map {k : Bytes} (there : nested.get k = some (.map entries))
    (ne : path ≠ []) : textAt nested (k :: path) = textAt entries path := by
  cases path with
  | nil => exact absurd rfl ne
  | cons next path => simp [textAt, there]

theorem insertPath_empty (ne : keys ≠ []) : insertPath [] keys nested = .panicked := by
  induction keys generalizing nested with
  | nil => exact absurd rfl ne
  | cons k keys ih =>
    cases keys with
    | nil => rfl
    | cons next keys =>
      unfold insertPath
      cases nested.get k with
      | none => simp [ih]
      | some below =>
        cases below with
        | text _ => rfl
        | map entries => simp [ih]

theorem insertPath_panics {text : Bytes} (there : textAt nested path = some text)
    (h : Extends keys path) :
    insertPath value keys nested = .panicked := by
  obtain ⟨⟨rest, rfl⟩, different⟩ := h
  cases rest with
  | nil => exact absurd (append_nil path).symm different
  | cons next rest =>
    clear different
    induction path generalizing nested with
    | nil => cases there
    | cons k path ih =>
      cases path with
      | nil =>
        unfold textAt at there
        simp only [cons_append, nil_append, insertPath]
        split at there
        · rename_i here
          rw [here]
        · cases there
      | cons k' path =>
        unfold textAt at there
        simp only [cons_append, insertPath]
        split at there
        · rename_i entries here
          rw [here]
          simp only [cons_append] at ih
          simp only [ih there, Outcome.panicked_bind]
        · cases there

/-- What a path goes on from: the map under its first key, or a new one. -/
theorem insertPath_under {k next : Bytes} (free : textAt nested [k] = none) :
    ∃ entries, (nested.get k = some (.map entries) ∨ nested.get k = none ∧ entries = .empty) ∧
      insertPath (first :: value) (k :: next :: keys) nested =
        (insertPath (first :: value) (next :: keys) entries >>= fun below =>
          return nested.set k (.map below)) := by
  cases here : nested.get k with
  | none => exact ⟨.empty, .inr ⟨rfl, rfl⟩, by simp only [insertPath, here]⟩
  | some below =>
    cases below with
    | map entries => exact ⟨entries, .inl rfl, by simp only [insertPath, here]⟩
    | text text => simp [textAt, here] at free

/-- A text below what a path goes on from is one of the map. -/
theorem textAt_under {k : Bytes} {path : List Bytes} {text : Bytes}
    (here : nested.get k = some (.map entries) ∨ nested.get k = none ∧ entries = .empty)
    (there : textAt entries path = some text) : textAt nested (k :: path) = some text := by
  obtain map | ⟨_, rfl⟩ := here
  · have ne : path ≠ [] := by
      rintro rfl
      cases there
    rw [textAt_map map ne]
    exact there
  · rw [textAt_empty] at there
    cases there

theorem insertPath_ok (ne : keys ≠ [])
    (free : ∀ path, Extends keys path → textAt nested path = none) :
    ∃ nested', insertPath (first :: value) keys nested = .ok nested' ∧
      textAt nested' keys = some first ∧
      ∀ path text, textAt nested' path = some text → path = keys ∨
        textAt nested path = some text := by
  induction keys generalizing nested with
  | nil => exact absurd rfl ne
  | cons k keys ih =>
    cases keys with
    | nil =>
      refine ⟨nested.set k (.text first), rfl, by simp [textAt], ?_⟩
      intro path text there
      rw [textAt_set_text] at there
      split at there
      · rename_i same
        exact .inl same
      · split at there
        · cases there
        · exact .inr there
    | cons next keys =>
      obtain ⟨entries, here, step⟩ := insertPath_under (free [k] ⟨⟨next :: keys, rfl⟩, by simp⟩)
      have below_free : ∀ path, Extends (next :: keys) path → textAt entries path = none := by
        rintro path ⟨⟨rest, split⟩, different⟩
        refine Option.eq_none_iff_forall_ne_some.mpr fun text there => ?_
        have blocked := free (k :: path) ⟨⟨rest, by rw [← split]; rfl⟩, by simpa using different⟩
        rw [textAt_under here there] at blocked
        cases blocked
      obtain ⟨below, inserted, end_, only⟩ := ih (cons_ne_nil _ _) below_free
      refine ⟨nested.set k (.map below), by rw [step, inserted]; rfl, ?_, ?_⟩
      · rw [textAt_set_map, if_pos head?_cons]
        exact end_
      · intro path text there
        rw [textAt_set_map] at there
        split at there
        · rename_i head
          cases path with
          | nil => cases head
          | cons k' path =>
            cases head
            obtain same | old := only path text there
            · exact .inl (by rw [same])
            · exact .inr (textAt_under here old)
        · exact .inr there

end

/-- No header is without a value, and the path of none goes on beyond that of another. -/
structure Apart (headers : Headers) : Prop where
  values : ∀ header ∈ headers, header.2 ≠ []
  paths : ∀ header ∈ headers, ∀ other ∈ headers, ¬ Extends (keysOf other.1) (keysOf header.1)

section
variable {headers order : Headers} {nested : Map Bytes Nested}

/-- Every text of the tree stands at the end of a header's path. -/
def Covered (headers : Headers) (nested : Map Bytes Nested) : Prop :=
  ∀ path text, textAt nested path = some text → ∃ header ∈ headers, keysOf header.1 = path

theorem convertFrom_ok (apart : Apart headers) (inside : order ⊆ headers)
    (covered : Covered headers nested) :
    ∃ nested', convertFrom order nested = .ok nested' := by
  induction order generalizing nested with
  | nil => exact ⟨nested, rfl⟩
  | cons header order ih =>
    obtain ⟨name, value⟩ := header
    have mem : (name, value) ∈ headers := inside (.head _)
    cases value with
    | nil => exact absurd rfl (apart.values _ mem)
    | cons first value =>
      have free : ∀ path, Extends (keysOf name) path → textAt nested path = none := by
        intro path beyond
        cases there : textAt nested path with
        | none => rfl
        | some text =>
          obtain ⟨other, other_mem, rfl⟩ := covered path text there
          exact absurd beyond (apart.paths other other_mem _ mem)
      obtain ⟨nested', inserted, _, only⟩ := insertPath_ok (keysOf_ne_nil name) free
      have covered' : Covered headers nested' := by
        intro path text there
        obtain rfl | old := only path text there
        · exact ⟨_, mem, rfl⟩
        · exact covered path text old
      rw [convertFrom, inserted]
      exact ih (fun _ later => inside (.tail _ later)) covered'

theorem convert_ok_of_apart (apart : Apart headers) (perm : order.Perm headers) :
    ∃ nested, convertFlatToNested order = .ok nested := by
  apply convertFrom_ok apart perm.subset
  intro path text there
  rw [textAt_empty] at there
  cases there

theorem convertFrom_empty {name : Bytes} (mem : (name, []) ∈ order) (nested' : Map Bytes Nested) :
    convertFrom order nested ≠ .ok nested' := by
  induction order generalizing nested with
  | nil => cases mem
  | cons header order ih =>
    intro converted
    rw [convertFrom] at converted
    cases mem with
    | head => rw [insertPath_empty (keysOf_ne_nil name)] at converted; cases converted
    | tail _ later =>
      cases inserted : insertPath header.2 (keysOf header.1) nested with
      | ok next => rw [inserted] at converted; exact ih later converted
      | err | panicked => rw [inserted] at converted; cases converted

/-- Headers that do not keep apart have an order in which they cannot be entered. -/
theorem convert_panics (h : ¬ Apart headers) :
    ∃ order, order.Perm headers ∧ ∀ nested, convertFlatToNested order ≠ .ok nested := by
  by_cases values : ∀ header ∈ headers, header.2 ≠ []
  · have found : ∃ header ∈ headers, ∃ other ∈ headers,
      Extends (keysOf other.1) (keysOf header.1) := by
      apply Classical.byContradiction
      intro none
      exact h ⟨values, fun header mem other mem' beyond => none ⟨header, mem, other, mem', beyond⟩⟩
    obtain ⟨header, mem, other, mem', beyond⟩ := found
    have different : other ≠ header := by
      rintro rfl
      exact beyond.2 rfl
    -- the shorter path first, then the longer one
    refine ⟨header :: other :: (headers.erase header).erase other, ?_, ?_⟩
    · have second := perm_cons_erase ((mem_erase_of_ne different).mpr mem')
      exact ((perm_cons_erase mem).trans (second.cons header)).symm
    · intro nested converted
      obtain ⟨name, value⟩ := header
      cases value with
      | nil => exact values _ mem rfl
      | cons first value =>
        obtain ⟨entered, inserted, text, _⟩ := @insertPath_ok value first (keysOf name) .empty
          (keysOf_ne_nil name) (fun path _ => textAt_empty path)
        rw [convertFlatToNested, convertFrom, inserted, Outcome.ok_bind, convertFrom,
          insertPath_panics text beyond] at converted
        cases converted
  · obtain ⟨header, mem, none⟩ : ∃ header ∈ headers, header.2 = [] := by grind
    obtain ⟨name, value⟩ := header
    cases none
    exact ⟨headers, .refl _, fun nested => convertFrom_empty mem nested⟩

end

end AiboosterEngine.Profile
