import AiboosterEngine.Config.Endpoints

/-!
# JSON profiles

What `parseConfigContent` of `v2/config/parser.go` makes of a decoded JSON value. It
rebuilds an object and marshals it again; the core reads the new text.
-/

namespace AiboosterEngine.Config
open GoSem Singbox

/-- Decoded values; an object has each key once. -/
inductive Json where
  | null
  | bool (b : Bool)
  | number (n : Int)
  | string (s : String)
  | array (items : List Json)
  | object (entries : List (String × Json))

def Json.isObject : Json → Bool
  | .object _ => true
  | _ => false

/-- `UnmarshalJSONContext`, with its error on an empty text, the batch of `patchWarp` on all
endpoints, with the results by tag, and `CheckConfigOptions`. -/
structure Core where
  unmarshal : Json → Except String Options
  emptyText : String
  batch : List Endpoint → Except String (Map String Endpoint)
  batched : ∀ endpoints res, batch endpoints = .ok res → Batched endpoints res
  check : Options → Option String

variable (core : Core)

def validateResult (options : Options) (name : String) : Except String Options :=
  match core.check options with
  | some e => .error ("[" ++ name ++ "] invalid sing-box config: " ++ e)
  | none => .ok options

def patchConfigOptions (options : Options) (name : String) : Except String Options :=
  match core.batch options.endpoints with
  | .error e => .error e
  | .ok res =>
    let endpoints := (placeResults res options.endpoints).reduceOption
    validateResult core { options with endpoints } name

/-- The text is `none` where marshalling has failed: the error is dropped and the text nil. -/
def patchConfigStr (content : Option Json) (name : String) : Except String Options :=
  match content.elim (.error core.emptyText) core.unmarshal with
  | .error e => .error ("[SingboxParser] unmarshal error: " ++ e)
  | .ok options => patchConfigOptions core options name

/-- What stands under a key of `jsonObj`; `itself` is `[]interface{}{jsonObj}`. -/
inductive Rebuilt where
  | value (v : Json)
  | itself

def Rebuilt.marshal : Rebuilt → Option Json
  | .value v => some v
  | .itself => none

/-- `MarshalIndent`, which gives an error for a map that it meets inside of itself. -/
def marshalIndent (jsonObj : List (String × Rebuilt)) : Option Json :=
  (jsonObj.mapM fun (e : String × Rebuilt) => e.2.marshal.map (e.1, ·)).map .object

variable (entries : List (String × Json))

/-- `tmpJsonObj[key]`; null is nil, as a missing key is. -/
def entry (key : String) : Option Json :=
  match entries.lookup key with
  | some .null => none
  | v => v

variable (full : Bool)

/-- The entries that are taken over: all of a full configuration. -/
def takenOver (entries : List (String × Json)) : List (String × Json) :=
  if full then entries
  else ["outbounds", "endpoints"].filterMap fun key => (entry entries key).map (key, ·)

def rebuild (entries : List (String × Json)) : List (String × Rebuilt) :=
  if (entry entries "outbounds").isNone && (entry entries "endpoints").isNone then
    [("outbounds", .itself)]
  else (takenOver full entries).map fun e => (e.1, .value e.2)

/-- An array is decoded to `[]interface{}`, so the assertion to `[]map[string]interface{}` fails for
every value. `full` is the argument `fullConfig` or the option. -/
def parseConfigContent : Json → Except String Options
  | .object entries => patchConfigStr core (marshalIndent (rebuild full entries)) "SingboxParser"
  | _ => .error "[SingboxParser] Incorrect Json Format"

/-- The options of an object. -/
def optionsOf : Option Options :=
  (patchConfigStr core (some (.object entries)) "SingboxParser").toOption

/-- What the value should give, `none` being an error: a single outbound and a list of outbounds
stand for the object with this list. -/
def wanted : Json → Option Options
  | .object entries =>
    match entry entries "outbounds", entry entries "endpoints" with
    | none, none => optionsOf core [("outbounds", .array [.object entries])]
    | some (.array os), _ =>
      if os.all Json.isObject then optionsOf core (takenOver full entries) else none
    | _, _ => none
  | .array os => if os.all Json.isObject then optionsOf core [("outbounds", .array os)] else none
  | _ => none

theorem marshalIndent_values :
    marshalIndent (entries.map fun e => (e.1, .value e.2)) = some (.object entries) := by
  refine congrArg (Option.map Json.object) (?_ : _ = some entries)
  induction entries with
  | nil => rfl
  | cons e rest ih =>
    rw [List.map_cons, List.mapM_cons, ih]
    rfl

/-- The object lists outbounds, or else no options come of the value that should be read. -/
def Answered : Json → Prop
  | .object entries =>
    match entry entries "outbounds", entry entries "endpoints" with
    | none, none => optionsOf core [("outbounds", .array [.object entries])] = none
    | some (.array os), _ =>
      os.all Json.isObject = true ∨ optionsOf core (takenOver full entries) = none
    | _, _ => optionsOf core (takenOver full entries) = none
  | .array os => os.all Json.isObject = true → optionsOf core [("outbounds", .array os)] = none
  | _ => True

theorem parse_object {core : Core} {full : Bool} {entries : List (String × Json)}
    (some_ : ((entry entries "outbounds").isNone && (entry entries "endpoints").isNone) = false) :
    (parseConfigContent core full (.object entries)).toOption =
      optionsOf core (takenOver full entries) := by
  rw [parseConfigContent, rebuild, some_, if_neg Bool.false_ne_true,
    marshalIndent_values, optionsOf]

/-- A JSON value gives what it should exactly if it is answered: the outbounds of an object are
read; a single outbound and an array are refused, even if valid. -/
theorem parseConfigContent_iff (core : Core) (full : Bool) (v : Json) :
    (parseConfigContent core full v).toOption = wanted core full v ↔ Answered core full v := by
  cases v with
  | object entries =>
    cases outbounds : entry entries "outbounds" with
    | none =>
      cases endpoints : entry entries "endpoints" with
      | none =>
        have refused : (parseConfigContent core full (.object entries)).toOption = none := by
          rw [parseConfigContent, rebuild, outbounds, endpoints]
          rfl
        simp only [refused, wanted, Answered, outbounds, endpoints, eq_comm]
      | some e => simp only [parse_object, wanted, Answered, outbounds, endpoints,
          Option.isNone_some, Bool.and_false]
    | some o =>
      have read := @parse_object core full entries (by simp [outbounds])
      cases o with
      | array os => cases all : os.all Json.isObject <;>
          simp [read, wanted, Answered, outbounds, all]
      | _ => simp only [read, wanted, Answered, outbounds]
  | array os =>
    have refused : (parseConfigContent core full (.array os)).toOption = none := rfl
    cases all : os.all Json.isObject <;> simp [refused, wanted, Answered, all, eq_comm]
  | _ => exact iff_of_true rfl trivial

/-- A core that accepts everything. -/
def accepting : Core where
  unmarshal _ := .ok ⟨[⟨.vless, "a", .dialed {} none⟩], []⟩
  emptyText := "EOF"
  batch endpoints := .ok (firstResults endpoints)
  batched endpoints _ done := Except.ok.inj done ▸ batched_first endpoints
  check _ := none

/-- A single outbound and an array of outbounds, both valid, are refused; a profile that has only
endpoints is taken. -/
theorem shapes_refused :
    (parseConfigContent accepting false (.object [("type", .string "vless")]) =
        .error "[SingboxParser] unmarshal error: EOF" ∧
      (wanted accepting false (.object [("type", .string "vless")])).isSome) ∧
    (parseConfigContent accepting false (.array [.object [("type", .string "vless")]]) =
        .error "[SingboxParser] Incorrect Json Format" ∧
      (wanted accepting false (.array [.object [("type", .string "vless")]])).isSome) ∧
    (parseConfigContent accepting false (.object [("endpoints", .array [])])).toOption.isSome := by
  exact ⟨⟨rfl, rfl⟩, ⟨rfl, rfl⟩, rfl⟩

end AiboosterEngine.Config
