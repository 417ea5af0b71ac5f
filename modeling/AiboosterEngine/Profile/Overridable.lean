import Mathlib.Algebra.Group.Nat.Defs
import AiboosterEngine.Profile.Nested

/-!
# Overriding options from headers

`setOverridableFields` goes through the fields of a struct by reflection and sets
those marked as overridable from the nested map; `GetOverridableHiddifyOptions`
does so for the generated type of the options, none of whose fields is marked.
-/

namespace AiboosterEngine.Profile

open GoSem Outcome

/-- What reflection tells of a field: its tags and whether it can be set. -/
structure Tags where
  json : Bytes := []
  overridable : Bytes := []
  exported : Bool := true

mutual

/-- The type of a field by its kind; of the basic kinds, whether it is the type that a parsed value
has (`bool`, `int64`, `uint64`, `string`) and can be assigned. Any other integer type has its
width. -/
inductive FieldType where
  | bool (same : Bool)
  | int (width : Option Nat)
  | uint (width : Option Nat)
  | string (same : Bool)
  | struct (fields : Fields)
  | other

inductive Fields where
  | nil
  | cons (tags : Tags) (type : FieldType) (rest : Fields)

end

mutual

def FieldType.Value : FieldType → Type
  | .bool _ => Bool
  | .int _ => Int
  | .uint _ => Nat
  | .string _ => Bytes
  | .struct fields => fields.Values
  | .other => Unit

def Fields.Values : Fields → Type
  | .nil => Unit
  | .cons _ type rest => type.Value × rest.Values

end

mutual

def FieldType.zero : (type : FieldType) → type.Value
  | .bool _ => false
  | .int _ => (0 : Int)
  | .uint _ => (0 : Nat)
  | .string _ => ([] : Bytes)
  | .struct fields => fields.zero
  | .other => ()

def Fields.zero : (fields : Fields) → fields.Values
  | .nil => ()
  | .cons _ type rest => (type.zero, rest.zero)

end

/-- The functions of `strconv`, `none` for an error. -/
structure Strconv where
  parseBool : Bytes → Option Bool
  parseInt : Bytes → Option Int
  parseUint : Bytes → Option Nat

/-- The key of a field: what stands before the first comma of its `json` tag. -/
def Tags.jsonTag (tags : Tags) : Bytes := (splitPieces (utf8 ",") 0 tags.json).1

/-- A value that was parsed is set if its type is that of the field; to set a field that is not
exported panics. -/
def assign {α : Type} (tags : Tags) (same : Bool) (old : α) (parsed : Option α) :
    Outcome String α :=
  match parsed with
  | none => .ok old
  | some value => if same then if tags.exported then .ok value else .panicked else .ok old

variable (p : Strconv)

/-- The switch over the kind of an overridable field; texts are parsed, a map is no value for any
kind and not even looked at for a text. -/
def overrideField (tags : Tags) : (type : FieldType) → type.Value → Nested →
    Outcome String type.Value
  | .bool same, old, .text value => assign tags same old (p.parseBool value)
  | .int width, old, .text value => assign tags width.isNone old (p.parseInt value)
  | .uint width, old, .text value => assign tags width.isNone old (p.parseUint value)
  | .string same, old, .text value => assign tags same old (some value)
  | .string _, _, .map _ => .panicked
  | _, old, _ => .ok old

/-- The first half of the loop's body; `none` where it goes on with the next field. -/
def overrideMarked (tags : Tags) (type : FieldType) (value : type.Value)
    (overrides : Map Bytes Nested) : Outcome String (Option type.Value) :=
  if tags.overridable = utf8 "true" then
    if tags.jsonTag = [] then .ok none
    else
      match overrides.get tags.jsonTag with
      | none => .ok (some value)
      | some override => do return some (← overrideField p tags type value override)
  else .ok (some value)

/-- The map a nested struct is set from; `none` where there is none for it. -/
def overridesOf (tags : Tags) (overrides : Map Bytes Nested) :
    Outcome String (Option (Map Bytes Nested)) :=
  if tags.jsonTag = [] then .ok (some overrides)
  else
    match overrides.get tags.jsonTag with
    | none => .ok none
    | some (.map entries) => .ok (some entries)
    | some (.text _) => .panicked

mutual

/-- The body of the loop for one field. -/
def setOverridableField (p : Strconv) (tags : Tags) :
    (type : FieldType) → type.Value → Map Bytes Nested →
    Outcome String type.Value
  | .struct fields, value, overrides => do
    match ← overrideMarked p tags (.struct fields) value overrides with
    | none => return value
    | some value =>
      match ← overridesOf tags overrides with
      | none => return value
      | some data => setOverridableFields p fields value data
  | type, value, overrides => do
    match ← overrideMarked p tags type value overrides with
    | none => return value
    | some value => return value

def setOverridableFields (p : Strconv) : (fields : Fields) → fields.Values → Map Bytes Nested →
    Outcome String fields.Values
  | .nil, values, _ => .ok values
  | .cons tags type rest, values, overrides => do
    let value ← setOverridableField p tags type values.1 overrides
    let values ← setOverridableFields p rest values.2 overrides
    return (value, values)

end

def FieldType.isStruct : FieldType → Bool
  | .struct _ => true
  | _ => false

mutual

def FieldType.inert : FieldType → Bool
  | .struct fields => fields.inert
  | _ => true

/-- No field is marked, at any depth, and no struct is looked up under a key. -/
def Fields.inert : Fields → Bool
  | .nil => true
  | .cons tags type rest =>
    tags.overridable != utf8 "true" && (!type.isStruct || tags.jsonTag == []) &&
      type.inert && rest.inert

end

mutual

theorem setOverridableField_inert (p : Strconv) {tags : Tags}
    (unmarked : tags.overridable ≠ utf8 "true") :
    (type : FieldType) → (value : type.Value) → (overrides : Map Bytes Nested) →
    (type.isStruct = true → tags.jsonTag = []) → type.inert = true →
    setOverridableField p tags type value overrides = .ok value
  | .struct fields, value, overrides, keyless, inert => by
    have nested := setOverridableFields_inert p fields value overrides inert
    simp only [setOverridableField, overrideMarked, if_neg unmarked, overridesOf,
      keyless rfl, if_true, ok_bind]
    exact nested
  | .bool _, value, overrides, _, _ | .int _, value, overrides, _, _
  | .uint _, value, overrides, _, _ | .string _, value, overrides, _, _
  | .other, value, overrides, _, _ => by
    simp only [setOverridableField, overrideMarked, if_neg unmarked, ok_bind, pure_eq]

theorem setOverridableFields_inert (p : Strconv) :
    (fields : Fields) → (values : fields.Values) → (overrides : Map Bytes Nested) →
      fields.inert = true →
    setOverridableFields p fields values overrides = .ok values
  | .nil, values, overrides, _ => rfl
  | .cons tags type rest, values, overrides, inert => by
    simp only [Fields.inert, Bool.and_eq_true, bne_iff_ne, Bool.or_eq_true, Bool.not_eq_true',
      beq_iff_eq] at inert
    obtain ⟨⟨⟨unmarked, keyless⟩, type_inert⟩, rest_inert⟩ := inert
    have struct_keyless : type.isStruct = true → tags.jsonTag = [] := by grind
    simp only [setOverridableFields, setOverridableField_inert p unmarked type values.1 overrides
      struct_keyless type_inert, setOverridableFields_inert p rest values.2 overrides rest_inert,
      ok_bind, pure_eq]
    rfl

end

/-- A number is in the range of an integer type; one that was parsed has 64 bits. -/
def inRange (width : Option Nat) (value : Int) : Bool :=
  width.all fun bits => value.toNat < 2 ^ (bits - 1) && (-value).toNat ≤ 2 ^ (bits - 1)

def inUnsignedRange (width : Option Nat) (value : Nat) : Bool :=
  width.all fun bits => value < 2 ^ bits

/-- The value in its range that an override has for a basic field; a map is none. -/
def FieldType.parsed : (type : FieldType) → Nested → Option type.Value
  | .bool _, .text value => p.parseBool value
  | .int width, .text value => (p.parseInt value).filter (inRange width)
  | .uint width, .text value => (p.parseUint value).filter (inUnsignedRange width)
  | .string _, .text value => some value
  | _, _ => none

mutual

/-- What a field should be afterwards: an overridable one with an override that parses has its
value, every other keeps its own. -/
def FieldType.expected (p : Strconv) (tags : Tags) :
    (type : FieldType) → type.Value → Map Bytes Nested → type.Value
  | .struct fields, value, overrides =>
    match overridesOf tags overrides with
    | .ok (some data) => fields.expected p value data
    | _ => value
  | type, value, overrides =>
    if tags.overridable = utf8 "true" ∧ tags.jsonTag ≠ [] then
      ((overrides.get tags.jsonTag).bind (type.parsed p)).getD value
    else value

def Fields.expected (p : Strconv) : (fields : Fields) → fields.Values →
    Map Bytes Nested → fields.Values
  | .nil, values, _ => values
  | .cons tags type rest, values, overrides =>
    (type.expected p tags values.1 overrides, rest.expected p values.2 overrides)

end

/-- A basic field has the type that a parsed value has. -/
def FieldType.assignable : FieldType → Bool
  | .bool same | .string same => same
  | .int width | .uint width => width.isNone
  | .struct _ | .other => true

/-- No map is given to a text, and what parses is for a field that can be set or is its value
already. -/
def FieldType.Takes (tags : Tags) (type : FieldType) (value : type.Value)
    (override : Nested) : Prop :=
  (∀ same entries, type = .string same → override ≠ .map entries) ∧
    ∀ parsed, type.parsed p override = some parsed →
      if type.assignable then tags.exported = true else parsed = value

mutual

/-- An overridable field takes its override, and no struct is given a text. A struct that is marked
and has no key is passed by, and so has nothing to be set in it. -/
def FieldType.Fits (p : Strconv) (tags : Tags) :
    (type : FieldType) → type.Value → Map Bytes Nested → Prop
  | .struct fields, value, overrides =>
    if tags.overridable = utf8 "true" ∧ tags.jsonTag = [] then
      fields.expected p value overrides = value
    else
      match overridesOf tags overrides with
      | .ok (some data) => fields.Fits p value data
      | .ok none => True
      | _ => False
  | type, value, overrides => tags.overridable = utf8 "true" → tags.jsonTag ≠ [] →
    ∀ override, overrides.get tags.jsonTag = some override → type.Takes p tags value override

def Fields.Fits (p : Strconv) : (fields : Fields) → fields.Values → Map Bytes Nested → Prop
  | .nil, _, _ => True
  | .cons tags type rest, values, overrides => type.Fits p tags values.1 overrides ∧
      rest.Fits p values.2 overrides

end

variable (type : FieldType)

theorem assign_iff {α : Type} (tags : Tags) (same : Bool) (old : α) (parsed : Option α) :
    assign tags same old parsed = .ok (parsed.getD old) ↔
      ∀ value, parsed = some value → if same then tags.exported = true else value = old := by
  cases parsed with
  | none => simp [assign]
  | some value => cases same <;> cases set : tags.exported <;> simp [assign, set, eq_comm]

/-- A type that is not set has no value out of its range either. -/
theorem assign_range_iff {α : Type} (tags : Tags) (width : Option Nat) (old : α) (parsed : Option α)
    (range : Option Nat → α → Bool) (all : ∀ value, range none value = true) :
    assign tags width.isNone old parsed = .ok ((parsed.filter (range width)).getD old) ↔
      ∀ value, parsed.filter (range width) = some value →
        if width.isNone then tags.exported = true else value = old := by
  rw [← assign_iff]
  cases width with
  | none => cases parsed <;> simp [Option.filter, all]
  | some bits =>
    cases parsed with
    | none => rfl
    | some value => cases within : range (some bits) value <;> simp [assign, Option.filter, within]

theorem overrideField_iff {tags : Tags} (value : type.Value) (override : Nested) :
    overrideField p tags type value override = .ok ((type.parsed p override).getD value) ↔
      type.Takes p tags value override := by
  unfold FieldType.Takes
  cases override with
  | text text =>
    rw [and_iff_right fun _ _ _ => nofun]
    cases type with
    | bool same => exact assign_iff (α := Bool) tags same value (p.parseBool text)
    | int width =>
      exact assign_range_iff (α := Int) tags width value (p.parseInt text) inRange fun _ => rfl
    | uint width =>
      exact assign_range_iff (α := Nat) tags width value (p.parseUint text) inUnsignedRange fun _ =>
        rfl
    | string same => exact assign_iff (α := Bytes) tags same value (some text)
    | struct fields | other => exact iff_of_true rfl nofun
  | map entries =>
    cases type with
    | string same => exact iff_of_false nofun fun fits => fits.1 same entries rfl rfl
    | bool same | int width | uint width | struct fields | other =>
      exact iff_of_true rfl ⟨fun _ _ => nofun, nofun⟩

/-- What the loop's body makes of a basic field. -/
theorem overrideMarked_iff {tags : Tags} (value : type.Value) (overrides : Map Bytes Nested) :
    (do match ← overrideMarked p tags type value overrides with
        | none => return value
        | some value => return value) =
      (.ok (if tags.overridable = utf8 "true" ∧ tags.jsonTag ≠ [] then
        ((overrides.get tags.jsonTag).bind (type.parsed p)).getD value else value) :
          Outcome String type.Value) ↔
    (tags.overridable = utf8 "true" → tags.jsonTag ≠ [] →
      ∀ override, overrides.get tags.jsonTag = some override →
        type.Takes p tags value override) := by
  unfold overrideMarked
  by_cases marked : tags.overridable = utf8 "true"
  · by_cases key : tags.jsonTag = []
    · simp [marked, key]
    · cases found : overrides.get tags.jsonTag with
      | none => simp [marked, key]
      | some override =>
        have fits := @overrideField_iff p type tags value override
        simp only [marked, key, if_true, if_false, ne_eq, not_false_eq_true, and_self, true_imp_iff,
          Option.bind_some, Option.some.injEq, forall_eq', ← fits]
        cases overrideField p tags type value override <;> simp
  · simp [marked]

mutual

theorem setOverridableField_iff (p : Strconv) (tags : Tags) :
    (type : FieldType) → (value : type.Value) → (overrides : Map Bytes Nested) →
    (setOverridableField p tags type value overrides = .ok (type.expected p tags value overrides) ↔
      type.Fits p tags value overrides)
  | .struct fields, value, overrides => by
    rw [setOverridableField, FieldType.Fits, FieldType.expected]
    by_cases passed : tags.overridable = utf8 "true" ∧ tags.jsonTag = []
    · simp only [overrideMarked, overridesOf, passed, and_self, if_true, ok_bind]
      exact ⟨fun kept => (Outcome.ok.inj kept).symm, fun kept => congrArg Outcome.ok kept.symm⟩
    · have unset : overrideMarked p tags (.struct fields) value overrides = .ok (some value) := by
        unfold overrideMarked
        by_cases marked : tags.overridable = utf8 "true"
        · rw [if_pos marked, if_neg fun key => passed ⟨marked, key⟩]
          cases overrides.get tags.jsonTag <;> rfl
        · rw [if_neg marked]
      rw [if_neg passed, unset, ok_bind]
      cases found : overridesOf tags overrides with
      | ok data =>
        cases data with
        | none => simp
        | some data => exact setOverridableFields_iff p fields value data
      | err | panicked => simp
  | .bool _, value, overrides | .int _, value, overrides | .uint _, value, overrides
  | .string _, value, overrides | .other, value, overrides =>
    overrideMarked_iff p _ value overrides

theorem setOverridableFields_iff (p : Strconv) :
    (fields : Fields) → (values : fields.Values) → (overrides : Map Bytes Nested) →
    (setOverridableFields p fields values overrides = .ok (fields.expected p values overrides) ↔
      fields.Fits p values overrides)
  | .nil, values, overrides => by simp [setOverridableFields, Fields.expected, Fields.Fits]
  | .cons tags type rest, values, overrides => by
    rw [Fields.Fits, ← setOverridableField_iff p tags type values.1 overrides,
      ← setOverridableFields_iff p rest values.2 overrides, setOverridableFields, Fields.expected]
    cases setOverridableField p tags type values.1 overrides with
    | ok value =>
      cases setOverridableFields p rest values.2 overrides with
      | ok values =>
        simp only [ok_bind, pure_eq, Outcome.ok.injEq]
        exact ⟨fun same => Prod.mk.inj (Outcome.ok.inj same),
          fun same => congrArg Outcome.ok (Prod.ext same.1 same.2)⟩
      | err | panicked => simp
    | err | panicked => simp

end

/-- A struct with one overridable field. -/
def portOf : Fields :=
  .cons { json := utf8 "port,omitempty", overridable := utf8 "true" } type .nil

/-- The texts 5 and nothing else. -/
def five : Strconv where
  parseBool _ := none
  parseInt text := if text = utf8 "5" then some 5 else none
  parseUint text := if text = utf8 "5" then some 5 else none

def portFive : Map Bytes Nested := Map.empty.set (utf8 "port") (.text (utf8 "5"))

example : setOverridableFields five (portOf (.uint none)) ((0 : Nat), ()) portFive =
    .ok ((5 : Nat), ()) := rfl

/-- `protoimpl.MessageState`: an empty struct, two arrays and a pointer. -/
def messageState : FieldType :=
  .struct (.cons {} (.struct .nil)
    (.cons {} .other (.cons {} .other (.cons { exported := false } .other .nil))))

/-- A field of a generated message. -/
def generated (json : String) (type : FieldType) (rest : Fields) : Fields :=
  .cons { json := utf8 json } type rest

/-- The generated struct; enumerations, slices and pointers are of other kinds. -/
def hiddifyOptionsFields : Fields :=
  .cons { exported := false } messageState <|
  .cons { exported := false } (.int (some 32)) <|
  .cons { exported := false } .other <|
  generated "enable_full_config,omitempty" (.bool true) <|
  generated "log_level,omitempty" (.string true) <|
  generated "log_file,omitempty" (.string true) <|
  generated "enable_clash_api,omitempty" (.bool true) <|
  generated "clash_api_port,omitempty" (.uint (some 32)) <|
  generated "web_secret,omitempty" (.string true) <|
  generated "region,omitempty" (.string true) <|
  generated "block_ads,omitempty" (.bool true) <|
  generated "use_xray_core_when_possible,omitempty" (.bool true) <|
  generated "rules,omitempty" .other <|
  generated "warp,omitempty" .other <|
  generated "warp2,omitempty" .other <|
  generated "mux,omitempty" .other <|
  generated "tls_tricks,omitempty" .other <|
  generated "dns_options,omitempty" .other <|
  generated "inbound_options,omitempty" .other <|
  generated "url_test_options,omitempty" .other <|
  generated "route_options,omitempty" .other <|
  generated "balancer_strategy,omitempty" (.string true) .nil

abbrev HiddifyOptions := hiddifyOptionsFields.Values

/-- `GetOverridableHiddifyOptions`, for the order in which the map is gone through. -/
def getOverridableHiddifyOptions (overrides : Headers) : Outcome String HiddifyOptions := do
  let nestedOverrides ← convertFlatToNested overrides
  setOverridableFields p hiddifyOptionsFields hiddifyOptionsFields.zero nestedOverrides

theorem hiddifyOptionsFields_inert : hiddifyOptionsFields.inert = true := by decide +kernel

/-- **Headers of a remote profile.** They give the same options in every order, without a panic,
exactly when each has a value and the path of none goes on beyond that of another. -/
theorem overridable_options_iff (p : Strconv) (headers : Headers) :
    (∃ options, ∀ order : Headers, order.Perm headers →
      getOverridableHiddifyOptions p order = .ok options) ↔
      (∀ header ∈ headers, header.2 ≠ []) ∧
      ∀ header ∈ headers, ∀ other ∈ headers, ¬ Extends (keysOf other.1) (keysOf header.1) := by
  constructor
  · rintro ⟨options, same⟩
    have apart : Apart headers := by
      apply Classical.byContradiction
      intro close
      obtain ⟨order, perm, fails⟩ := convert_panics close
      have given := same order perm
      unfold getOverridableHiddifyOptions at given
      cases converted : convertFlatToNested order with
      | ok nested => exact fails nested converted
      | err | panicked => rw [converted] at given; cases given
    exact ⟨apart.values, apart.paths⟩
  · rintro ⟨values, paths⟩
    refine ⟨hiddifyOptionsFields.zero, fun order perm => ?_⟩
    obtain ⟨nested, converted⟩ := convert_ok_of_apart ⟨values, paths⟩ perm
    unfold getOverridableHiddifyOptions
    rw [converted]
    exact setOverridableFields_inert p _ _ nested hiddifyOptionsFields_inert

/-- Of `a` and `a.b` the first leaves a text where the second goes on, and panics if it comes
first. -/
theorem a_before_ab_panics :
    getOverridableHiddifyOptions ⟨fun _ => none, fun _ => none, fun _ => none⟩
      [(utf8 "a", [utf8 "1"]), (utf8 "a.b", [utf8 "2"])] = .panicked ∧
    (∃ options, getOverridableHiddifyOptions ⟨fun _ => none, fun _ => none, fun _ => none⟩
      [(utf8 "a.b", [utf8 "2"]), (utf8 "a", [utf8 "1"])] = .ok options) ∧
    getOverridableHiddifyOptions ⟨fun _ => none, fun _ => none, fun _ => none⟩
      [(utf8 "a", [])] = .panicked := by
  refine ⟨rfl, ⟨_, rfl⟩, rfl⟩

end AiboosterEngine.Profile
