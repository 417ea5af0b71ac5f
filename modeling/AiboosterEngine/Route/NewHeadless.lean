import AiboosterEngine.Route.Headless

/-!
# Making a headless rule

`option/rule_set.go` and `route/rule/rule_headless.go`: a rule is made from options that are
valid. Whether they are is asked of the options as they are in memory, where an
empty list may be nil or not.
-/

namespace AiboosterEngine.Route
open GoSem List Outcome

/-- `badoption.Listable`; `none` is a nil slice. -/
abbrev Listable (α : Type) := Option (List α)

/-- `option.DefaultHeadlessRule`. -/
structure DefaultOptions (M A : Type) where
  queryType : Listable UInt16 := none
  network : Listable Bytes := none
  domain : Listable Bytes := none
  domainSuffix : Listable Bytes := none
  domainKeyword : Listable Bytes := none
  domainRegex : Listable Bytes := none
  sourceIPCIDR : Listable Bytes := none
  ipCIDR : Listable Bytes := none
  sourcePort : Listable UInt16 := none
  sourcePortRange : Listable Bytes := none
  port : Listable UInt16 := none
  portRange : Listable Bytes := none
  processName : Listable Bytes := none
  processPath : Listable Bytes := none
  processPathRegex : Listable Bytes := none
  packageName : Listable Bytes := none
  networkType : Listable UInt8 := none
  networkIsExpensive : Bool := false
  networkIsConstrained : Bool := false
  wifiSSID : Listable Bytes := none
  wifiBSSID : Listable Bytes := none
  invert : Bool := false
  domainMatcher : Option M := none
  sourceIPSet : Option Srs.IPSet := none
  ipSet : Option Srs.IPSet := none
  adGuardDomain : Listable Bytes := none
  adGuardDomainMatcher : Option A := none
  tunnelSource : Listable Bytes := none
  tunnelDestination : Listable Bytes := none
  networkInterfaceAddress : Option (Srs.TypedMap (List (Option Prefix))) := none
  defaultInterfaceAddress : Listable (Option Prefix) := none
  deriving DecidableEq

/-- A rule and the options of its type; `other` is a rule whose type is neither of the two. -/
inductive RuleOptions (M A : Type) where
  | default (options : DefaultOptions M A)
  | logical (mode : Srs.Mode) (rules : List (RuleOptions M A)) (invert : Bool)
  | other (type : Bytes)

section
variable {M A R : Type}

/-- The lists, nil or not. -/
def DefaultOptions.lists (o : DefaultOptions M A) : Options M A where
  queryType := o.queryType.getD []
  network := o.network.getD []
  domain := o.domain.getD []
  domainSuffix := o.domainSuffix.getD []
  domainKeyword := o.domainKeyword.getD []
  domainRegex := o.domainRegex.getD []
  sourceIPCIDR := o.sourceIPCIDR.getD []
  ipCIDR := o.ipCIDR.getD []
  sourcePort := o.sourcePort.getD []
  sourcePortRange := o.sourcePortRange.getD []
  port := o.port.getD []
  portRange := o.portRange.getD []
  processName := o.processName.getD []
  processPath := o.processPath.getD []
  processPathRegex := o.processPathRegex.getD []
  packageName := o.packageName.getD []
  networkType := o.networkType.getD []
  networkIsExpensive := o.networkIsExpensive
  networkIsConstrained := o.networkIsConstrained
  wifiSSID := o.wifiSSID.getD []
  wifiBSSID := o.wifiBSSID.getD []
  invert := o.invert
  domainMatcher := o.domainMatcher
  sourceIPSet := o.sourceIPSet
  ipSet := o.ipSet
  adGuardDomain := o.adGuardDomain.getD []
  adGuardDomainMatcher := o.adGuardDomainMatcher
  tunnelSource := o.tunnelSource.getD []
  tunnelDestination := o.tunnelDestination.getD []
  networkInterfaceAddress := o.networkInterfaceAddress
  defaultInterfaceAddress := o.defaultInterfaceAddress.getD []

variable [DecidableEq M] [DecidableEq A]

/-- `reflect.DeepEqual` with options that have nothing but the inversion: a slice that is not nil is
something, also when it is empty. -/
def DefaultOptions.isValid (o : DefaultOptions M A) : Bool := o ≠ { invert := o.invert }

inductive RuleError where
  | missingConditions
  | unknownType (type : Bytes)
  | unknownMode (mode : Bytes)
  | subRule (index : Nat) (cause : RuleError)
  | item (cause : BuildError)
  deriving DecidableEq, Repr

mutual

/-- `IsValid`, of a rule of either type. -/
def RuleOptions.isValid : RuleOptions M A → Outcome RuleError Bool
  | .default options => .ok options.isValid
  | .logical _ rules _ => if rules.isEmpty then .ok false else allValid rules
  | .other _ => .panicked

/-- `common.All` over the sub-rules. -/
def allValid : List (RuleOptions M A) → Outcome RuleError Bool
  | [] => .ok true
  | rule :: rules => do
    let valid ← rule.isValid
    if valid then allValid rules else return false

end

/-- The `switch` on the mode of a logical rule. -/
def logicalMode : Srs.Mode → Outcome RuleError LogicalMode
  | .and => .ok .and
  | .or => .ok .or
  | .other text => .err (.unknownMode text)

mutual

/-- `NewHeadlessRule`, with `NewLogicalHeadlessRule`. -/
def newHeadlessRule (p : Packages M A R) (networkManager : Bool) :
    RuleOptions M A → Outcome RuleError (HeadlessRule Addr Request)
  | .default options =>
    if !options.isValid then .err .missingConditions
    else match newDefaultHeadlessRule p networkManager options.lists with
      | .ok rule => .ok (.default rule)
      | .error e => .err (.item e)
  | .logical mode rules invert => do
    let valid ← RuleOptions.isValid (.logical mode rules invert)
    if !valid then .err .missingConditions
    else do
      let mode ← logicalMode mode
      let rules ← newSubRules p networkManager 0 rules
      return .logical mode rules invert
  | .other type => .err (.unknownType type)

def newSubRules (p : Packages M A R) (networkManager : Bool) :
    Nat → List (RuleOptions M A) → Outcome RuleError (List (HeadlessRule Addr Request))
  | _, [] => .ok []
  | i, subRule :: rules => do
    let rule ← (newHeadlessRule p networkManager subRule).mapErr (.subRule i)
    let rest ← newSubRules p networkManager (i + 1) rules
    return rule :: rest

end

/-- The default rules in a rule. -/
inductive Leaf (o : DefaultOptions M A) : RuleOptions M A → Prop
  | here : Leaf o (.default o)
  | inside {mode : Srs.Mode} {rules : List (RuleOptions M A)} {invert : Bool}
      {rule : RuleOptions M A} :
      rule ∈ rules → Leaf o rule → Leaf o (.logical mode rules invert)

/-- The types and modes in a rule are known, and its logical rules are not empty. -/
inductive Formed : RuleOptions M A → Prop
  | default (o : DefaultOptions M A) : Formed (.default o)
  | logical {mode : Srs.Mode} {rules : List (RuleOptions M A)} (invert : Bool) :
      (mode = .and ∨ mode = .or) → rules ≠ [] → (∀ rule ∈ rules, Formed rule) →
      Formed (.logical mode rules invert)

variable {rules : List (RuleOptions M A)} {p : Packages M A R} {networkManager : Bool}

theorem allValid_ok (h : ∀ rule ∈ rules, rule.isValid = .ok true) : allValid rules = .ok true := by
  induction rules with
  | nil => rfl
  | cons rule rules ih =>
    rw [allValid, h rule mem_cons_self]
    exact ih fun rule mem => h rule (mem_cons_of_mem _ mem)

variable {rule : RuleOptions M A}

theorem isValid_ok (formed : Formed rule) (h : ∀ o, Leaf o rule → o.isValid = true) :
    rule.isValid = .ok true := by
  induction formed with
  | default o => exact congrArg ok (h o .here)
  | logical invert mode some rules ih =>
    rw [RuleOptions.isValid, if_neg (by simpa using some)]
    exact allValid_ok fun rule mem => ih rule mem fun o leaf => h o (.inside mem leaf)

theorem newSubRules_ok (i : Nat) :
    (∃ made, newSubRules p networkManager i rules = .ok made) ↔
      ∀ rule ∈ rules, ∃ made, newHeadlessRule p networkManager rule = .ok made := by
  induction rules generalizing i with
  | nil => exact ⟨fun _ => forall_mem_nil _, fun _ => ⟨[], by rw [newSubRules]⟩⟩
  | cons rule rules ih =>
    rw [forall_mem_cons, ← ih (i + 1), newSubRules]
    constructor
    · rintro ⟨made, h⟩
      obtain ⟨first, hfirst, h⟩ := bind_eq_ok h
      obtain ⟨rest, hrest, _⟩ := bind_eq_ok h
      exact ⟨⟨first, mapErr_eq_ok hfirst⟩, rest, hrest⟩
    · rintro ⟨⟨first, hfirst⟩, rest, hrest⟩
      exact ⟨first :: rest, by rw [hfirst, hrest]; rfl⟩

theorem newHeadlessRule_logical {mode : Srs.Mode} {invert : Bool} (known : mode = .and ∨ mode = .or)
    (valid : RuleOptions.isValid (.logical mode rules invert) = .ok true) :
    (∃ made, newHeadlessRule p networkManager (.logical mode rules invert) = .ok made) ↔
      ∀ rule ∈ rules, ∃ made, newHeadlessRule p networkManager rule = .ok made := by
  obtain ⟨mode', same⟩ : ∃ mode', logicalMode mode = .ok mode' := by
    rcases known with rfl | rfl
    · exact ⟨_, rfl⟩
    · exact ⟨_, rfl⟩
  have run : newHeadlessRule p networkManager (.logical mode rules invert) =
      newSubRules p networkManager 0 rules >>= fun rules => .ok (.logical mode' rules invert) := by
    rw [newHeadlessRule, valid, same]
    rfl
  rw [← newSubRules_ok 0, run]
  constructor
  · rintro ⟨made, h⟩
    obtain ⟨rest, hrest, _⟩ := bind_eq_ok h
    exact ⟨rest, hrest⟩
  · rintro ⟨rest, hrest⟩
    exact ⟨_, by rw [hrest]; rfl⟩

/-- A rule of known types and modes whose default rules are valid is made exactly when they are. -/
theorem newHeadlessRule_ok (formed : Formed rule)
    (valid : ∀ o, Leaf o rule → o.isValid = true) :
    (∃ made, newHeadlessRule p networkManager rule = .ok made) ↔
      ∀ o, Leaf o rule → ∃ made, newDefaultHeadlessRule p networkManager o.lists = .ok made := by
  induction formed with
  | default o =>
    have ok : ¬ (!o.isValid) = true := by
      rw [valid o .here]
      decide
    rw [newHeadlessRule, if_neg ok]
    constructor
    · intro made o' leaf
      cases leaf
      grind
    · intro h
      obtain ⟨made, built⟩ := h o .here
      rw [built]
      exact ⟨_, rfl⟩
  | @logical mode rules invert known some formed ih =>
    rw [newHeadlessRule_logical known (isValid_ok (.logical invert known some formed) valid)]
    constructor
    · intro h o leaf
      cases leaf with
      | inside mem leaf =>
          exact (ih _ mem fun o leaf => valid o (.inside mem leaf)).mp (h _ mem) o leaf
    · intro h rule mem
      exact (ih rule mem fun o leaf => valid o (.inside mem leaf)).mpr fun o leaf =>
        h o (.inside mem leaf)

end

section
variable {M A R : Type} {p : Packages M A R} {networkManager : Bool} {o : Options M A}

/-- The blocks are gone through when each item that is asked for can be made. -/
theorem runBlocks_made {fields : List Field} :
    (∃ found, runBlocks p networkManager o fields = .ok found) ↔
      ∀ f ∈ fields, f.taken networkManager o = true → ∃ item, f.item p o = .ok item := by
  constructor
  · rintro ⟨found, h⟩
    exact (runBlocks_ok h).1
  · intro h
    induction fields with
    | nil => exact ⟨[], rfl⟩
    | cons f fields ih =>
      obtain ⟨rest, hrest⟩ := ih fun f mem => h f (mem_cons_of_mem _ mem)
      unfold runBlocks
      by_cases taken : f.taken networkManager o = true
      · obtain ⟨item, made⟩ := h f mem_cons_self taken
        rw [if_pos taken, made, hrest]
        exact ⟨_, rfl⟩
      · rw [if_neg taken]
        exact ⟨rest, hrest⟩

theorem newDefaultHeadlessRule_made :
    (∃ made, newDefaultHeadlessRule p networkManager o = .ok made) ↔
      ∀ f ∈ blocks, f.taken networkManager o = true → ∃ item, f.item p o = .ok item := by
  rw [← runBlocks_made]
  unfold newDefaultHeadlessRule
  cases runBlocks p networkManager o blocks with
  | ok found => exact ⟨fun _ => ⟨found, rfl⟩, fun _ => ⟨_, rfl⟩⟩
  | error e =>
    constructor
    · rintro ⟨_, h⟩
      cases h
    · rintro ⟨_, h⟩
      cases h

theorem compileFrom_ok {expressions : List Bytes} (i : Nat) :
    (∃ matchers, compileFrom p i expressions = .ok matchers) ↔
      ∀ regex ∈ expressions, ∃ matcher, p.compile regex = .ok matcher := by
  induction expressions generalizing i with
  | nil => exact ⟨fun _ => forall_mem_nil _, fun _ => ⟨[], rfl⟩⟩
  | cons regex expressions ih =>
    rw [forall_mem_cons, ← ih (i + 1), compileFrom]
    cases p.compile regex with
    | error e =>
      constructor
      · rintro ⟨_, h⟩
        cases h
      · rintro ⟨⟨_, h⟩, _⟩
        cases h
    | ok matcher =>
      cases compileFrom p (i + 1) expressions with
      | error e =>
        constructor
        · rintro ⟨_, h⟩
          cases h
        · rintro ⟨_, _, h⟩
          cases h
      | ok matchers => exact ⟨fun _ => ⟨⟨matcher, rfl⟩, matchers, rfl⟩, fun _ => ⟨_, rfl⟩⟩

end

end AiboosterEngine.Route
