import AiboosterEngine.CacheFile.Cache
import AiboosterEngine.GoSem.Steps
import AiboosterEngine.Route.NewHeadless

/-!
# Remote rule-sets

`loadBytes` and `fetch` of `route/rule/rule_set_remote.go`. A response is what the
server and the cache file make of one `fetch`.
-/

namespace AiboosterEngine.Route
open GoSem Option

section
variable {M A R : Type}

mutual

def RuleOptions.has (cond : DefaultOptions M A → Bool) : RuleOptions M A → Bool
  | .default options => cond options
  | .logical _ rules _ => hasHeadlessRule cond rules
  | .other _ => false

def hasHeadlessRule (cond : DefaultOptions M A → Bool) : List (RuleOptions M A) → Bool
  | [] => false
  | rule :: rules => rule.has cond || hasHeadlessRule cond rules

end

/-- `len(list) > 0`. -/
def Listable.some {α : Type} (list : Listable α) : Bool := !(list.getD []).isEmpty

variable (rule : DefaultOptions M A)

def isProcessHeadlessRule : Bool :=
  rule.processName.some || rule.processPath.some || rule.processPathRegex.some ||
    rule.packageName.some

def isWIFIHeadlessRule : Bool := rule.wifiSSID.some || rule.wifiBSSID.some

def isIPCIDRHeadlessRule : Bool := rule.ipCIDR.some || rule.ipSet.isSome

structure RuleSetMetadata where
  containsProcessRule : Bool := false
  containsWIFIRule : Bool := false
  containsIPCIDRRule : Bool := false
  deriving DecidableEq, Repr

def ruleSetMetadata (rules : List (RuleOptions M A)) : RuleSetMetadata where
  containsProcessRule := hasHeadlessRule isProcessHeadlessRule rules
  containsWIFIRule := hasHeadlessRule isWIFIHeadlessRule rules
  containsIPCIDRRule := hasHeadlessRule isIPCIDRHeadlessRule rules

structure PlainRuleSetCompat (M A : Type) where
  version : UInt8
  rules : List (RuleOptions M A)

inductive RuleSetFormat where
  | source | binary | other (name : Bytes)
  deriving DecidableEq, Repr

inductive LoadError where
  | read (cause : String)
  | unknownFormat (format : Bytes)
  | unknownVersion (version : UInt8)
  | parseRule (index : Nat) (cause : RuleError)
  deriving DecidableEq, Repr

/-- The options of the rule-set, and the readers of its two formats. -/
structure RemoteOptions (M A R : Type) where
  format : RuleSetFormat
  unmarshal : Bytes → Outcome String (PlainRuleSetCompat M A)
  readBinary : Bytes → Outcome String (PlainRuleSetCompat M A)
  packages : Packages M A R
  networkManager : Bool

open RemoteOptions

abbrev Rules := List (HeadlessRule Addr Request)

def upgrade (ruleSet : PlainRuleSetCompat M A) : Outcome LoadError (List (RuleOptions M A)) :=
  if ruleSet.version ∈ [1, 2, 3, 4] then .ok ruleSet.rules
    else .err (.unknownVersion ruleSet.version)

variable [DecidableEq M] [DecidableEq A]

namespace RemoteOptions
variable (o : RemoteOptions M A R)

/-- The `switch` on the format. -/
def parse (content : Bytes) : Outcome LoadError (PlainRuleSetCompat M A) :=
  match o.format with
  | .source => (o.unmarshal content).withErr .read
  | .binary => (o.readBinary content).withErr .read
  | .other name => .err (.unknownFormat name)

def newRules (o : RemoteOptions M A R) : Nat → List (RuleOptions M A) → Outcome LoadError Rules
  | _, [] => .ok []
  | i, options :: rest => do
    let rule ← (newHeadlessRule o.packages o.networkManager options).withErr (.parseRule i)
    let rules ← newRules o (i + 1) rest
    return rule :: rules

/-- The rules of a content, with the flags. -/
def load (content : Bytes) : Outcome LoadError (Rules × RuleSetMetadata) := do
  let ruleSet ← o.parse content
  let plain ← upgrade ruleSet
  let rules ← o.newRules 0 plain
  return (rules, ruleSetMetadata plain)

end RemoteOptions

/-- `cacheFile` is what the cache file holds for the rule-set, if there is a cache file. Times are
in seconds. -/
structure RemoteRuleSet where
  rules : Rules := []
  metadata : RuleSetMetadata := {}
  lastUpdated : Int64
  lastEtag : Bytes := []
  cacheFile : Option (Option SavedBinary)

open RemoteRuleSet

/-- How the request and the cache write of one `fetch` end. A body that cannot be read to its end is
`none`. -/
inductive Response where
  | failed
  | notModified (saved : Bool)
  | ok (etag : Bytes) (body : Option Bytes) (saved : Bool)
  | other (status : Bytes)
  deriving DecidableEq, Repr

inductive FetchError where
  | request
  | unexpectedStatus (status : Bytes)
  | body
  | load (cause : LoadError)
  deriving DecidableEq, Repr

namespace RemoteRuleSet

variable (s : RemoteRuleSet)

/-- `If-None-Match` of the request. -/
def ifNoneMatch : Option Bytes := if s.lastEtag.isEmpty then none else some s.lastEtag

/-- The time of a set that was not modified is saved with what the cache holds. -/
def touch (now : Int64) (saved : Bool) : RemoteRuleSet :=
  { s with
    lastUpdated := now
    cacheFile := s.cacheFile.map fun cached => cached.map fun set =>
      if saved then { set with lastUpdated := now } else set }

/-- After the body is loaded. -/
def store (now : Int64) (etag content : Bytes) (saved : Bool) : RemoteRuleSet :=
  let lastEtag := if etag.isEmpty then s.lastEtag else etag
  { s with
    lastEtag
    lastUpdated := now
    cacheFile := s.cacheFile.map fun cached =>
      if saved then some ⟨content, now, lastEtag⟩ else cached }

end RemoteRuleSet

namespace RemoteOptions
variable (o : RemoteOptions M A R)

def loadBytes (content : Bytes) (s : RemoteRuleSet) : Outcome LoadError Unit × RemoteRuleSet :=
  match o.load content with
  | .ok (rules, metadata) => (.ok (), { s with metadata, rules })
  | .err e => (.err e, s)
  | .panicked => (.panicked, s)

def fetch (s : RemoteRuleSet) (now : Int64) : Response → Outcome FetchError Unit × RemoteRuleSet
  | .failed => (.err .request, s)
  | .other status => (.err (.unexpectedStatus status), s)
  | .notModified saved => (.ok (), s.touch now saved)
  | .ok _ none _ => (.err .body, s)
  | .ok etag (some content) saved =>
    match o.loadBytes content s with
    | (.ok (), loaded) => (.ok (), loaded.store now etag content saved)
    | (.err e, s) => (.err (.load e), s)
    | (.panicked, s) => (.panicked, s)

end RemoteOptions

section
variable {o : RemoteOptions M A R} {s s' : RemoteRuleSet} {now : Int64} {r : Response}

theorem loadBytes_error {content : Bytes} {e : LoadError}
    (h : o.loadBytes content s = (.err e, s')) : s' = s := by
  unfold loadBytes at h
  split at h
  · cases h
  · cases h; rfl
  · cases h

/-- Nothing is changed before the last error can be returned. -/
theorem fetch_error {e : FetchError} (h : o.fetch s now r = (.err e, s')) : s' = s := by
  unfold fetch at h
  split at h
  · cases h; rfl
  · cases h; rfl
  · cases h
  · cases h; rfl
  · grind [loadBytes_error]

theorem fetch_ok {etag content : Bytes} {saved : Bool} {rules : Rules} {metadata : RuleSetMetadata}
    (loads : o.load content = .ok (rules, metadata)) :
    o.fetch s now (.ok etag (some content) saved) =
      (.ok (), { s with rules, metadata }.store now etag content saved) := by
  simp only [fetch, loadBytes, loads]

end

/-- A rule-set, and the body of the response its ETag came with. -/
structure Tracked where
  set : RemoteRuleSet
  etagFrom : Option Bytes

/-- The body that comes with an ETag. -/
def Response.tagged : Response → Option Bytes
  | .ok etag body _ => if etag.isEmpty then none else body
  | _ => none

variable (o : RemoteOptions M A R)

/-- One `fetch`; nothing follows a panic. -/
def RemoteOptions.step (w : Tracked) (a : Int64 × Response) : Option Tracked :=
  match o.fetch w.set a.1 a.2 with
  | (.ok (), set) => some ⟨set, a.2.tagged.or w.etagFrom⟩
  | (.err _, set) => some ⟨set, w.etagFrom⟩
  | (.panicked, _) => none

/-- The rules in use are those of the content. -/
def RemoteOptions.Uses (s : RemoteRuleSet) (content : Bytes) : Prop :=
  o.load content = .ok (s.rules, s.metadata)

/-- The rules in use are those of the response that the ETag of the next request came with, and
those of the cached content. -/
structure Consistent (o : RemoteOptions M A R) (w : Tracked) : Prop where
  etag : w.set.ifNoneMatch ≠ none → ∃ content, w.etagFrom = some content ∧ o.Uses w.set content
  cached : ∀ saved, w.set.cacheFile = some (some saved) → o.Uses w.set saved.content

/-- A body that gives other rules comes with an ETag, if there was one before, and is saved, if
another was. -/
def Keeps (w : Tracked) (a : Int64 × Response) : Prop :=
  ∀ etag content saved, a.2 = .ok etag (some content) saved → ∀ rules metadata,
    o.load content = .ok (rules, metadata) → (rules, metadata) = (w.set.rules, w.set.metadata) ∨
      ((etag ≠ [] ∨ w.set.lastEtag = []) ∧ (saved = true ∨ w.set.cacheFile.join = none))

section
variable {o : RemoteOptions M A R} {w w' : Tracked} {now : Int64} {r : Response}

/-- A step loads a body, or leaves the rules, the ETag and the cached content as they are. -/
theorem step_cases (h : o.step w (now, r) = some w') :
    (∃ etag content saved rules metadata, r = .ok etag (some content) saved ∧
      o.load content = .ok (rules, metadata) ∧
      w' = ⟨{ w.set with rules, metadata }.store now etag content saved,
        if etag.isEmpty then w.etagFrom else some content⟩) ∨
    ((∀ etag content saved, r = .ok etag (some content) saved → ∀ loaded,
      o.load content ≠ .ok loaded) ∧
      (w' = w ∨ ∃ saved, w' = ⟨w.set.touch now saved, w.etagFrom⟩)) := by
  cases r with
  | failed | other status =>
    cases h
    exact .inr ⟨nofun, .inl rfl⟩
  | notModified saved =>
    cases h
    exact .inr ⟨nofun, .inr ⟨saved, rfl⟩⟩
  | ok etag body saved =>
    cases body with
    | none =>
      cases h
      exact .inr ⟨nofun, .inl rfl⟩
    | some content =>
      cases loads : o.load content with
      | ok loaded => grind [step, Response.tagged, fetch_ok]
      | err e =>
        simp only [step, fetch, loadBytes, loads] at h
        cases h
        refine .inr ⟨fun _ _ _ same loaded => ?_, .inl rfl⟩
        cases same
        rw [loads]
        exact nofun
      | panicked =>
        simp only [step, fetch, loadBytes, loads] at h
        cases h

theorem Consistent.touch (h : Consistent o w) (now : Int64) (saved : Bool) :
    Consistent o ⟨w.set.touch now saved, w.etagFrom⟩ := by
  refine ⟨h.etag, fun set there => ?_⟩
  obtain ⟨cached, file, there⟩ := map_eq_some_iff.mp there
  obtain ⟨before, rfl, rfl⟩ := map_eq_some_iff.mp there
  have uses := h.cached before file
  split <;> exact uses

section
variable {etag content : Bytes} {saved : Bool} {rules : Rules} {metadata : RuleSetMetadata}

theorem store_ifNoneMatch (s : RemoteRuleSet) :
    (s.store now etag content saved).ifNoneMatch ≠ none ↔ etag ≠ [] ∨ s.lastEtag ≠ [] := by
  unfold store ifNoneMatch
  cases etag with
  | nil => simp
  | cons => simp

theorem store_cacheFile (s : RemoteRuleSet) {set : SavedBinary} :
    (s.store now etag content saved).cacheFile = some (some set) →
      set.content = content ∨ (saved = false ∧ s.cacheFile = some (some set)) := by
  intro there
  obtain ⟨cached, file, there⟩ := map_eq_some_iff.mp there
  split at there
  · cases there
    exact .inl rfl
  · next unsaved =>
    rw [file, there]
    exact .inr ⟨Bool.eq_false_iff.mpr unsaved, rfl⟩

theorem RemoteOptions.Uses.same {s : RemoteRuleSet} (h : o.Uses s content)
    (loads : o.load content = .ok (rules, metadata)) : (rules, metadata) = (s.rules, s.metadata) :=
  Outcome.ok.inj (loads.symm.trans h)

section
variable (h : Consistent o w)
include h

theorem consistent_store (loads : o.load content = .ok (rules, metadata))
    (keeps : (rules, metadata) = (w.set.rules, w.set.metadata) ∨
      ((etag ≠ [] ∨ w.set.lastEtag = []) ∧ (saved = true ∨ w.set.cacheFile.join = none))) :
    Consistent o ⟨{ w.set with rules, metadata }.store now etag content saved,
      if etag.isEmpty then w.etagFrom else some content⟩ := by
  constructor
  · intro asks
    by_cases tagged : etag = []
    · rw [tagged]
      have stored := (store_ifNoneMatch _).mp asks
      have stored : w.set.lastEtag ≠ [] := stored.resolve_left (fun h => h tagged)
      have before : w.set.ifNoneMatch ≠ none := by simp [ifNoneMatch, stored]
      obtain ⟨old, from_, uses⟩ := h.etag before
      obtain same | ⟨other, _⟩ := keeps
      · exact ⟨old, from_, uses.trans (congrArg Outcome.ok same.symm)⟩
      · exact absurd tagged (other.resolve_right stored)
    · refine ⟨content, ?_, loads⟩
      simp [tagged]
  · intro set there
    obtain new | ⟨unsaved, before⟩ := store_cacheFile _ there
    · rw [new]
      exact loads
    · obtain same | ⟨_, saves | empty⟩ := keeps
      · exact (h.cached set before).trans (congrArg Outcome.ok same.symm)
      · rw [unsaved] at saves
        cases saves
      · grind

/-- A body that is loaded keeps a consistent rule-set so in these cases and no others. -/
theorem consistent_store_iff (loads : o.load content = .ok (rules, metadata)) :
    Consistent o ⟨{ w.set with rules, metadata }.store now etag content saved,
        if etag.isEmpty then w.etagFrom else some content⟩ ↔
      ((rules, metadata) = (w.set.rules, w.set.metadata) ∨
        ((etag ≠ [] ∨ w.set.lastEtag = []) ∧ (saved = true ∨ w.set.cacheFile.join = none))) := by
  refine ⟨fun after => Classical.or_iff_not_imp_left.mpr fun other => ⟨?_, ?_⟩,
    consistent_store h loads⟩
  · -- an old ETag would stand for the new rules
    by_cases tagged : etag = []
    · right
      cases stored : w.set.lastEtag with
      | nil => rfl
      | cons x xs =>
        have asks : w.set.ifNoneMatch ≠ none := by simp [ifNoneMatch, stored]
        obtain ⟨old, from_, uses⟩ := h.etag asks
        obtain ⟨new, from', uses'⟩ :=
          after.etag ((store_ifNoneMatch _).mpr (.inr (by rw [stored]; exact nofun)))
        rw [tagged] at from'
        cases from_.symm.trans from'
        exact absurd (uses.same uses') other
    · exact .inl tagged
  · -- an old content would be cached for the new rules
    cases saved with
    | true => exact .inl rfl
    | false =>
      right
      cases cached : w.set.cacheFile.join with
      | none => rfl
      | some set =>
        have file := join_eq_some_iff.mp cached
        have there : ({ w.set with rules, metadata }.store now etag content false).cacheFile =
          some (some set) := by
          simp [store, file]
        exact absurd ((h.cached set file).same (after.cached set there)) other

end

end

theorem consistent_step_iff (h : Consistent o w) (taken : o.step w (now, r) = some w') :
    Consistent o w' ↔ Keeps o w (now, r) := by
  obtain ⟨etag, content, saved, rules, metadata, rfl, loads, rfl⟩ | ⟨notLoaded, kept⟩ :=
    step_cases taken
  · rw [consistent_store_iff h loads]
    constructor
    · rintro keeps _ _ _ ⟨⟩ rules' metadata' loads'
      cases loads.symm.trans loads'
      exact keeps
    · intro keeps
      exact keeps etag content saved rfl rules metadata loads
  · have after : Consistent o w' := by
      obtain rfl | ⟨saved, rfl⟩ := kept
      · exact h
      · exact h.touch now saved
    exact iff_of_true after fun etag content saved same _ _ loads =>
      absurd loads (notLoaded etag content saved same _)

end

/-- An error of `fetch` or `loadBytes` changes nothing. From a consistent rule-set on, every
sequence of responses leaves it consistent exactly when each body that gives other rules comes with
an ETag, if there was one, and replaces the cached content, if there was any. -/
theorem update_atomic_iff {o : RemoteOptions M A R} {w : Tracked} (h : Consistent o w)
    (responses : List (Int64 × Response)) :
    (∀ content s e s', o.loadBytes content s = (.err e, s') → s' = s) ∧
      (∀ s now r e s', o.fetch s now r = (.err e, s') → s' = s) ∧
      (Throughout o.step (Consistent o) w responses ↔ AllMet o.step (Keeps o) w responses) := by
  refine ⟨fun _ _ _ _ => loadBytes_error, fun _ _ _ _ _ => fetch_error, ?_⟩
  apply @throughout_iff _ _ _ w (Keeps o) (fun _ => True) (Consistent o) responses trivial h
  · exact fun _ _ _ _ _ => trivial
  · rintro s ⟨now, r⟩ stuck etag content saved rfl rules metadata loads
    rw [step, fetch_ok loads] at stuck
    cases stuck
  · exact fun _ _ _ _ consistent taken => consistent_step_iff consistent taken

end

/-- A format that names the networks of one rule, with no rule for an empty content. -/
def networkOptions : RemoteOptions Unit Unit Unit where
  format := .binary
  unmarshal _ := .err "not a rule-set"
  readBinary content :=
    .ok ⟨1, if content.isEmpty then [] else [.default { network := some [content] }]⟩
  packages := plainPackages
  networkManager := true

def unfetched : Tracked := ⟨{ lastUpdated := 0, cacheFile := none }, none⟩

/-- The first body, with the ETag it comes with. -/
theorem unfetched_updated :
    Throughout networkOptions.step (Consistent networkOptions) unfetched
      [(1, .ok (utf8 "a") (some (utf8 "tcp")) true), (2, .notModified true)] := by
  have fresh : Consistent networkOptions unfetched := ⟨fun asks => absurd rfl asks, nofun⟩
  apply (update_atomic_iff fresh _).2.2.mpr
  apply AllMet.of_forall
  intro w a member
  rw [List.mem_cons, List.mem_singleton] at member
  obtain rfl | rfl := member
  · rintro _ _ _ ⟨⟩ _ _ _
    exact .inr ⟨.inl (by decide), .inl rfl⟩
  · exact nofun

/-- The second body comes without an ETag: the next request asks for the ETag of the first one,
whose rules are not those in use. -/
theorem staleEtag_inconsistent :
    ∃ w, exec networkOptions.step unfetched
        [(1, .ok (utf8 "a") (some []) true), (2, .ok [] (some (utf8 "tcp")) true)] = some w ∧
      w.set.ifNoneMatch = some (utf8 "a") ∧ w.etagFrom = some [] ∧
      networkOptions.load [] = .ok ([], {}) ∧ w.set.rules.length = 1 :=
  ⟨_, rfl, rfl, rfl, rfl, rfl⟩

end AiboosterEngine.Route
