/-!
# Rules

`route/rule/rule_abstract.go`, with the rule cache of `adapter/inbound.go`. A
rule reads the connection and reads and writes the cache, so matching returns
the verdict and the metadata it leaves.
-/

namespace AiboosterEngine.Route

/-- What rules read of a connection. `destination` is there when the destination is an
address and not a name; `rest` is all that the items other than `ip_cidr` look at. -/
structure Connection (Addr κ : Type) where
  source : Addr
  destination : Option Addr
  destinationAddresses : List Addr
  rest : κ

/-- The fields `ResetRuleCache` clears. -/
structure RuleCache where
  ipCIDRMatchSource : Bool := false
  ipCIDRAcceptEmpty : Bool := false
  sourceAddressMatch : Bool := false
  sourcePortMatch : Bool := false
  destinationAddressMatch : Bool := false
  destinationPortMatch : Bool := false
  didMatch : Bool := false
  deriving DecidableEq, Repr

structure InboundContext (Addr κ : Type) where
  connection : Connection Addr κ
  cache : RuleCache := {}
  ignoreDestinationIPCIDRMatch : Bool := false

/-- The condition groups with a flag in the cache. -/
inductive Group where
  | sourceAddress | sourcePort | destinationAddress | destinationPort
  deriving DecidableEq, Repr

def RuleCache.flag (c : RuleCache) : Group → Bool
  | .sourceAddress => c.sourceAddressMatch
  | .sourcePort => c.sourcePortMatch
  | .destinationAddress => c.destinationAddressMatch
  | .destinationPort => c.destinationPortMatch

def RuleCache.mark (c : RuleCache) : Group → RuleCache
  | .sourceAddress => { c with sourceAddressMatch := true }
  | .sourcePort => { c with sourcePortMatch := true }
  | .destinationAddress => { c with destinationAddressMatch := true }
  | .destinationPort => { c with destinationPortMatch := true }

section
variable {Addr κ ι : Type} (m : InboundContext Addr κ)

def InboundContext.resetRuleCache : InboundContext Addr κ :=
  { m with cache := {} }

def InboundContext.setDidMatch : InboundContext Addr κ :=
  { m with cache := { m.cache with didMatch := true } }

/-- `IPCIDRItem` is the one kind of item that reads the cache; the others are known by what
they say of a connection. -/
inductive RuleItem (Addr κ : Type) where
  | ipCIDR (isSource : Bool) (ipSet : Addr → Bool)
  | other (test : Connection Addr κ → Bool)

def RuleItem.matches : RuleItem Addr κ → Bool
  | .ipCIDR isSource ipSet =>
    if isSource || m.cache.ipCIDRMatchSource then ipSet m.connection.source
    else match m.connection.destination with
      | some addr => ipSet addr
      | none =>
        if m.connection.destinationAddresses.isEmpty then m.cache.ipCIDRAcceptEmpty
        else m.connection.destinationAddresses.any ipSet
  | .other test => test m.connection

/-- `allItems` is not kept: the constructors put in it what they put in the groups. The
plain `items` may be of a kind that writes the cache. -/
structure AbstractDefaultRule (Addr κ ι : Type) where
  items : List ι := []
  sourceAddressItems : List (RuleItem Addr κ) := []
  sourcePortItems : List (RuleItem Addr κ) := []
  destinationAddressItems : List (RuleItem Addr κ) := []
  destinationIPCIDRItems : List (RuleItem Addr κ) := []
  destinationPortItems : List (RuleItem Addr κ) := []
  invert : Bool := false

variable (r : AbstractDefaultRule Addr κ ι)

/-- `len(r.allItems) == 0`. -/
def AbstractDefaultRule.noItems : Bool :=
  r.items.isEmpty && r.sourceAddressItems.isEmpty && r.sourcePortItems.isEmpty &&
    r.destinationAddressItems.isEmpty && r.destinationIPCIDRItems.isEmpty &&
    r.destinationPortItems.isEmpty

/-- One of the five blocks of `Match` that set a flag: skipped when the flag is set. -/
def checkGroup (g : Group) (items : List (RuleItem Addr κ)) (m : InboundContext Addr κ) :
    InboundContext Addr κ :=
  if !items.isEmpty && !m.cache.flag g then
    let m := m.setDidMatch
    if items.any (·.matches m) then { m with cache := m.cache.mark g } else m
  else m

/-- The five blocks. The destination's flag has two of them. -/
def AbstractDefaultRule.checkGroups : InboundContext Addr κ :=
  let m := checkGroup .sourceAddress r.sourceAddressItems m
  let m := checkGroup .sourcePort r.sourcePortItems m
  let m := checkGroup .destinationAddress r.destinationAddressItems m
  let m := if m.ignoreDestinationIPCIDRMatch then m
    else checkGroup .destinationAddress r.destinationIPCIDRItems m
  checkGroup .destinationPort r.destinationPortItems m

def matchItems (matchItem : ι → InboundContext Addr κ → Bool × InboundContext Addr κ) :
    List ι → InboundContext Addr κ → Bool × InboundContext Addr κ
  | [], m => (true, m)
  | item :: items, m =>
    let (ok, m) := matchItem item m
    if ok then matchItems matchItem items m else (false, m)

/-- The items a group of the rule consists of, for metadata that has or has not
`IgnoreDestinationIPCIDRMatch`. -/
def AbstractDefaultRule.groupItems (ignoreIPCIDR : Bool) :
    Group → List (RuleItem Addr κ)
  | .sourceAddress => r.sourceAddressItems
  | .sourcePort => r.sourcePortItems
  | .destinationAddress =>
    r.destinationAddressItems ++ if ignoreIPCIDR then [] else r.destinationIPCIDRItems
  | .destinationPort => r.destinationPortItems

def AbstractDefaultRule.fails (g : Group) : Bool :=
  !(r.groupItems m.ignoreDestinationIPCIDRMatch g).isEmpty && !m.cache.flag g

def AbstractDefaultRule.matches
    (matchItem : ι → InboundContext Addr κ → Bool × InboundContext Addr κ)
    (r : AbstractDefaultRule Addr κ ι) (m : InboundContext Addr κ) : Bool × InboundContext Addr κ :=
  if r.noItems then (true, m)
  else
    let (ok, m) := matchItems matchItem r.items (r.checkGroups m)
    if !ok then (r.invert, m)
    else if r.fails m .sourceAddress then (r.invert, m)
    else if r.fails m .sourcePort then (r.invert, m)
    else if r.fails m .destinationAddress then (r.invert, m)
    else if r.fails m .destinationPort then (r.invert, m)
    else if !m.cache.didMatch then (true, m)
    else (!r.invert, m)

/-- An item that is no rule-set item: it has been looked at whatever it says. -/
def matchPlainItem (item : RuleItem Addr κ) (m : InboundContext Addr κ) :
    Bool × InboundContext Addr κ :=
  (item.matches m.setDidMatch, m.setDidMatch)

inductive LogicalMode where
  | and | or
  deriving DecidableEq, Repr

abbrev DefaultHeadlessRule (Addr κ : Type) := AbstractDefaultRule Addr κ (RuleItem Addr κ)

inductive HeadlessRule (Addr κ : Type) where
  | default (r : AbstractDefaultRule Addr κ (RuleItem Addr κ))
  | logical (mode : LogicalMode) (rules : List (HeadlessRule Addr κ)) (invert : Bool)

mutual

/-- `Match` of a headless rule. A logical rule resets the cache before each sub-rule. -/
def HeadlessRule.matches : HeadlessRule Addr κ → InboundContext Addr κ →
    Bool × InboundContext Addr κ
  | .default r, m => r.matches matchPlainItem m
  | .logical .and rules invert, m =>
    let (all, m) := matchAll rules m
    (all != invert, m)
  | .logical .or rules invert, m =>
    let (any, m) := matchAny rules m
    (any != invert, m)

/-- `common.All` over the sub-rules. -/
def matchAll : List (HeadlessRule Addr κ) → InboundContext Addr κ → Bool × InboundContext Addr κ
  | [], m => (true, m)
  | rule :: rules, m =>
    let (ok, m) := rule.matches m.resetRuleCache
    if ok then matchAll rules m else (false, m)

/-- `common.Any` over the sub-rules. -/
def matchAny : List (HeadlessRule Addr κ) → InboundContext Addr κ → Bool × InboundContext Addr κ
  | [], m => (false, m)
  | rule :: rules, m =>
    let (ok, m) := rule.matches m.resetRuleCache
    if ok then (true, m) else matchAny rules m

end

/-- `LocalRuleSet.Match` and `RemoteRuleSet.Match`: one metadata for all the rules. -/
def ruleSetMatch : List (HeadlessRule Addr κ) → InboundContext Addr κ →
    Bool × InboundContext Addr κ
  | [], m => (false, m)
  | rule :: rules, m =>
    let (ok, m) := rule.matches m
    if ok then (true, m) else ruleSetMatch rules m

end

end AiboosterEngine.Route
