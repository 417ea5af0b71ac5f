import Mathlib.Tactic.Common

/-!
# Changing the settings

`ChangeHiddifySettings` of `v2/hcore/buildconfighelper.go`, and the call of it with the stored
settings in `v2/hcore/grpc_server.go`. The JSON decoder is a parameter: it may fail after
it has set some fields.
-/

namespace AiboosterEngine.Core.Settings

inductive LogLevel where
  | trace | debug | info | warning | error | fatal
  deriving DecidableEq

structure WarpOptions (W : Type) where
  wireguardConfigStr : String := ""
  wireguardConfig : W
  deriving DecidableEq

/-- `rest` are the fields that only the decoder sets. -/
structure HiddifyOptions (W R : Type) where
  logLevel : String := "warn"
  warp : WarpOptions W
  warp2 : WarpOptions W
  rest : R
  deriving DecidableEq

/-- The two decoders, with `false` for an error, and the values they start from. -/
structure Json (W R : Type) where
  unmarshal : String → HiddifyOptions W R → HiddifyOptions W R × Bool
  unmarshalWireguard : String → W → W × Bool
  noConfig : W
  rest : R

variable {W R : Type} (json : Json W R)

def defaultHiddifyOptions : HiddifyOptions W R where
  warp := { wireguardConfig := json.noConfig }
  warp2 := { wireguardConfig := json.noConfig }
  rest := json.rest

/-- `record` is the stored value of `HiddifySettingsJson`. -/
structure Static (W R : Type) where
  hiddifyOptions : HiddifyOptions W R
  logLevel : LogLevel
  debug : Bool
  record : Option String

def levelOf : String → LogLevel
  | "debug" => .debug
  | "info" => .info
  | "warn" => .warning
  | "error" => .error
  | "fatal" => .fatal
  | "trace" => .trace
  | _ => .info

/-- The deferred function. -/
def Static.leveled (s : Static W R) : Static W R :=
  let logLevel := levelOf s.hiddifyOptions.logLevel
  { s with logLevel, debug := s.debug || logLevel = .trace || logLevel = .debug }

def decodeWarp (warp : WarpOptions W) : WarpOptions W × Bool :=
  if warp.wireguardConfigStr = "" then (warp, true)
  else
    let (wireguardConfig, ok) :=
      json.unmarshalWireguard warp.wireguardConfigStr warp.wireguardConfig
    ({ warp with wireguardConfig }, ok)

/-- The three steps that may fail. -/
def decode (text : String) : HiddifyOptions W R × Bool :=
  match json.unmarshal text (defaultHiddifyOptions json) with
  | (options, false) => (options, false)
  | (options, true) =>
    match decodeWarp json options.warp with
    | (warp, false) => ({ options with warp }, false)
    | (warp, true) =>
      let (warp2, ok) := decodeWarp json options.warp2
      ({ options with warp, warp2 }, ok)

/-- `stored` is false when the database does not take the record; `UpdateInsert` is called without a
look at its error. -/
def changeHiddifySettings (text : String) (insert stored : Bool) (s : Static W R) :
    Static W R × Bool :=
  if text = "" then ({ s with hiddifyOptions := defaultHiddifyOptions json }.leveled, true)
  else
    let record := if insert && stored then some text else s.record
    let (hiddifyOptions, ok) := decode json text
    ({ s with hiddifyOptions, record }.leveled, ok)

/-- The stored settings are loaded again. -/
def load (s : Static W R) : Static W R × Bool :=
  changeHiddifySettings json (s.record.getD "") false true s

/-- The places at which a text is rejected, and the options that are there by then. -/
inductive Rejects (text : String) : HiddifyOptions W R → Prop
  | settings {options} : json.unmarshal text (defaultHiddifyOptions json) = (options, false) →
      Rejects text options
  | warp {options warp} : json.unmarshal text (defaultHiddifyOptions json) = (options, true) →
    decodeWarp json options.warp = (warp, false) → Rejects text { options with warp }
  | warp2 {options warp warp2} :
      json.unmarshal text (defaultHiddifyOptions json) = (options, true) →
    decodeWarp json options.warp = (warp, true) → decodeWarp json options.warp2 = (warp2, false) →
    Rejects text { options with warp, warp2 }

section
variable {json} {text : String} {options : HiddifyOptions W R}

theorem rejects_iff : Rejects json text options ↔ decode json text = (options, false) := by
  constructor
  · rintro (first | ⟨first, second⟩ | ⟨first, second, third⟩)
    · simp [decode, first]
    · simp [decode, first, second]
    · simp [decode, first, second, third]
  · intro decoded
    unfold decode at decoded
    split at decoded
    · next first =>
      cases decoded
      exact .settings first
    · next first =>
      split at decoded
      · next second =>
        cases decoded
        exact .warp first second
      · next second =>
        obtain ⟨rfl, failed⟩ := Prod.mk.inj decoded
        exact .warp2 first second (Prod.ext rfl failed)

end

/-- After an error the settings are as before only if they were what the rejected text leaves, and
the text was stored already. After a success the stored text gives the same options again exactly if
it is the new one, or the one before gives them too. -/
theorem changeHiddifySettings_rejected_iff (text : String) (insert stored : Bool) (s : Static W R) :
    ((changeHiddifySettings json text insert stored s).2 = false →
      ((changeHiddifySettings json text insert stored s).1.hiddifyOptions = s.hiddifyOptions ∧
        (changeHiddifySettings json text insert stored s).1.record = s.record ↔
        Rejects json text s.hiddifyOptions ∧ (insert → stored → s.record = some text))) ∧
    ((changeHiddifySettings json text insert stored s).2 = true → text ≠ "" → insert →
      ((load json (changeHiddifySettings json text insert stored s).1).1.hiddifyOptions =
          (changeHiddifySettings json text insert stored s).1.hiddifyOptions ↔
        stored ∨ (load json s).1.hiddifyOptions = (decode json text).1)) := by
  by_cases empty : text = ""
  · simp [changeHiddifySettings, empty]
  · rw [rejects_iff]
    simp only [changeHiddifySettings, if_neg empty, Static.leveled]
    refine ⟨fun failed => ?_, fun _ _ inserted => ?_⟩
    · rw [Prod.ext_iff, and_iff_left failed]
      refine and_congr_right fun _ => ?_
      cases insert <;> cases stored <;> simp [eq_comm]
    · cases stored
      · by_cases none : s.record.getD "" = "" <;>
          simp [load, changeHiddifySettings, none, Static.leveled]
      · simp [load, changeHiddifySettings, inserted, empty, Static.leveled]

/-- Of `rest` there is the region. The text "ir" stands for settings with that region; no other text
is decoded. -/
def regions : Json Unit String where
  unmarshal text options :=
    if text = "ir" then ({ options with rest := "ir" }, true) else (options, false)
  unmarshalWireguard _ config := (config, true)
  noConfig := ()
  rest := "other"

def noRegion : Static Unit String := ⟨defaultHiddifyOptions regions, .warning, false, none⟩

def withRegion : Static Unit String := (changeHiddifySettings regions "ir" true true noRegion).1

theorem changeHiddifySettings_loaded :
    (load regions withRegion).1.hiddifyOptions = withRegion.hiddifyOptions :=
  ((changeHiddifySettings_rejected_iff regions "ir" true true noRegion).2 rfl (by decide) rfl).mpr
    (.inl rfl)

/-- A text that is not decoded takes the place of the stored one, and the region is lost. -/
theorem rejected_changes :
    (changeHiddifySettings regions "\x7b" true true withRegion).2 = false ∧
      withRegion.hiddifyOptions.rest = "ir" ∧ withRegion.record = some "ir" ∧
      (changeHiddifySettings regions "\x7b" true true withRegion).1.hiddifyOptions.rest = "other" ∧
      (changeHiddifySettings regions "\x7b" true true withRegion).1.record = some "\x7b" := by
  decide

end AiboosterEngine.Core.Settings
