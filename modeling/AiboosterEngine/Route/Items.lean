import AiboosterEngine.Route.Rule
import AiboosterEngine.Srs.Rule

/-!
# The items of a headless rule

`route/rule/rule_headless.go`: how the options of a default headless rule become
the items of a rule, with the items themselves (`route/rule/rule_item_*.go`).
-/

namespace AiboosterEngine.Route
open GoSem

structure NetworkInterface where
  type : UInt8
  addresses : List Prefix := []
  expensive : Bool := false
  constrained : Bool := false

/-- What the network manager says at the time of the match. `defaultInterface` is the interface of
its monitor, known by its addresses. -/
structure NetworkState where
  defaultNetworkInterface : Option NetworkInterface := none
  networkInterfaces : List NetworkInterface := []
  ssid : Bytes := []
  bssid : Bytes := []
  defaultInterface : Option (List Prefix) := none

structure ConnectionOwner where
  processPath : Bytes := []
  androidPackageName : Bytes := []

open ConnectionOwner

/-- What a connection has besides its addresses. -/
structure Request where
  network : Bytes := []
  domain : Bytes := []
  fqdn : Bytes := []
  sourcePort : UInt16 := 0
  destinationPort : UInt16 := 0
  processInfo : Option ConnectionOwner := none
  queryType : UInt16 := 0
  tunnelSource : Bytes := []
  tunnelDestination : Bytes := []
  state : NetworkState := {}

abbrev Item := RuleItem Addr Request

abbrev Options (M A : Type) := Srs.DefaultHeadlessRule M A

/-- The packages behind the items. -/
structure Packages (M A R : Type) where
  /-- `sing/common/domain`; the last argument of `NewMatcher` asks for the legacy form. -/
  newMatcher : List Bytes → List Bytes → Bool → M
  matchDomain : M → Bytes → Bool
  newAdGuardMatcher : List Bytes → A
  matchAdGuard : A → Bytes → Bool
  /-- `regexp`. -/
  compile : Bytes → Except String R
  matchString : R → Bytes → Bool
  /-- `netip` and `netipx`. -/
  parsePrefix : Bytes → Except String Prefix
  parseAddr : Bytes → Option Addr
  buildIPSet : List Srs.Added → Except String Srs.IPSet
  contains : Srs.IPSet → Addr → Bool
  overlaps : Prefix → Prefix → Bool
  /-- `strconv.ParseUint` for 16 bits, `strings.ToLower` and `filepath.Base`. -/
  parseUint16 : Bytes → Except String UInt16
  toLower : Bytes → Bytes
  base : Bytes → Bytes

inductive BuildError where
  /-- An empty item is not allowed. -/
  | emptyItem (field : String)
  | parseExpression (index : Nat) (cause : String)
  | parseEntry (index : Nat) (cause : String)
  | badPortRange (text : Bytes) (cause : Option String)
  | ipSet (cause : String)
  | inField (field : String) (cause : BuildError)
  deriving DecidableEq, Repr

section
variable {M A R : Type}

/-- `networkMap` and its like: one entry for each element of the list. -/
def oneOf {α : Type} [BEq α] (list : List α) (read : Request → α) : Item :=
  .other fun c => list.contains (read c.rest)

def newNetworkItem (networks : List Bytes) : Item := oneOf networks Request.network

def newTunnelSourceItem (sources : List Bytes) : Item := oneOf sources Request.tunnelSource

def newTunnelDestinationItem (destinations : List Bytes) : Item :=
  oneOf destinations Request.tunnelDestination

def newQueryTypeItem (typeList : List UInt16) : Item :=
  .other fun c => c.rest.queryType != 0 && typeList.contains c.rest.queryType

variable (p : Packages M A R)

/-- The items that look at a domain do not match a connection without one. -/
def domainTest (test : Bytes → Bool) : Item :=
  .other fun c =>
    let domainHost := if c.rest.domain != [] then c.rest.domain else c.rest.fqdn
    domainHost != [] && test (p.toLower domainHost)

def newRawDomainItem (matcher : M) : Item := domainTest p (p.matchDomain matcher)

def newDomainItem (domains domainSuffixes : List Bytes) : Except BuildError Item :=
  if domains.contains [] then .error (.emptyItem "domain")
  else if domainSuffixes.contains [] then .error (.emptyItem "domain_suffix")
  else .ok (newRawDomainItem p (p.newMatcher domains domainSuffixes false))

def newDomainKeywordItem (keywords : List Bytes) : Item :=
  domainTest p fun domainHost => keywords.any (hasInfix · domainHost)

def newRawAdGuardDomainItem (matcher : A) : Item :=
  domainTest p (p.matchAdGuard matcher)

def newAdGuardDomainItem (ruleLines : List Bytes) : Item :=
  newRawAdGuardDomainItem p (p.newAdGuardMatcher ruleLines)

def compileFrom (p : Packages M A R) : Nat → List Bytes → Except BuildError (List R)
  | _, [] => .ok []
  | i, regex :: expressions => do
    let matcher ← (p.compile regex).mapError (.parseExpression i)
    let matchers ← compileFrom p (i + 1) expressions
    return matcher :: matchers

def newDomainRegexItem (expressions : List Bytes) : Except BuildError Item := do
  let matchers ← compileFrom p 0 expressions
  return domainTest p fun domainHost => matchers.any (p.matchString · domainHost)

variable (isSource : Bool)

def newRawIPCIDRItem (ipSet : Srs.IPSet) : Item :=
  .ipCIDR isSource (p.contains ipSet)

def parseFrom (p : Packages M A R) : Nat → List Bytes → Except BuildError (List Srs.Added)
  | _, [] => .ok []
  | i, text :: prefixStrings => do
    let added ← match p.parsePrefix text with
      | .ok net => .ok (.net net)
      | .error err => match p.parseAddr text with
        | some addr => .ok (.addr addr)
        | none => .error (.parseEntry i err)
    let rest ← parseFrom p (i + 1) prefixStrings
    return added :: rest

def newIPCIDRItem (prefixStrings : List Bytes) : Except BuildError Item := do
  let added ← parseFrom p 0 prefixStrings
  let ipSet ← (p.buildIPSet added).mapError .ipSet
  return newRawIPCIDRItem p isSource ipSet

def portOf (c : Connection Addr Request) : UInt16 :=
  if isSource then c.rest.sourcePort else c.rest.destinationPort

def newPortItem (ports : List UInt16) : Item :=
  .other fun c => ports.contains (portOf isSource c)

def colon : UInt8 := 58

/-- A range is `start:end`; a missing start is 0, a missing end the last port. -/
def parsePortRange (portRange : Bytes) : Except BuildError (UInt16 × UInt16) :=
  if !portRange.contains colon then .error (.badPortRange portRange none)
  else
    let subIndex := portRange.idxOf colon
    let number (text : Bytes) := (p.parseUint16 text).mapError fun err =>
      BuildError.badPortRange portRange (some err)
    do
      let start ← if subIndex > 0 then number (portRange.take subIndex) else .ok 0
      let stop ← if subIndex = portRange.length - 1 then .ok 0xFFFF
        else number (portRange.drop (subIndex + 1))
      return (start, stop)

def newPortRangeItem (rangeList : List Bytes) : Except BuildError Item := do
  let portRangeList ← rangeList.mapM (parsePortRange p)
  return .other fun c => portRangeList.any fun (start, stop) =>
    portOf isSource c ≥ start && portOf isSource c ≤ stop

/-- The items that look at the process do not match a connection whose process is not known. -/
def processTest (read : ConnectionOwner → Bytes) (test : Bytes → Bool) : Item :=
  .other fun c => match c.rest.processInfo with
    | none => false
    | some info => read info != [] && test (read info)

def newProcessItem (processNameList : List Bytes) : Item :=
  processTest processPath fun path => processNameList.contains (p.base path)

def newProcessPathItem (processNameList : List Bytes) : Item :=
  processTest processPath processNameList.contains

def newProcessPathRegexItem (expressions : List Bytes) : Except BuildError Item := do
  let matchers ← compileFrom p 0 expressions
  return processTest processPath fun path => matchers.any (p.matchString · path)

def newPackageNameItem (packageNameList : List Bytes) : Item :=
  processTest androidPackageName packageNameList.contains

/-- The items that look at the default network interface do not match when there is none. -/
def interfaceTest (test : NetworkInterface → Bool) : Item :=
  .other fun c => c.rest.state.defaultNetworkInterface.any test

def newNetworkTypeItem (networkType : List UInt8) : Item :=
  interfaceTest fun networkInterface => networkType.contains networkInterface.type

def newNetworkIsExpensiveItem : Item := interfaceTest NetworkInterface.expensive

def newNetworkIsConstrainedItem : Item := interfaceTest NetworkInterface.constrained

def newWIFISSIDItem (ssidList : List Bytes) : Item := oneOf ssidList (·.state.ssid)

def newWIFIBSSIDItem (bssidList : List Bytes) : Item := oneOf bssidList (·.state.bssid)

/-- Every type of interface named has an interface with an address in one of its prefixes. -/
def newNetworkInterfaceAddressItem (interfaceAddresses : Srs.TypedMap (List (Option Prefix))) :
    Item :=
  .other fun c => interfaceAddresses.entries.all fun (ifType, addresses) =>
    c.rest.state.networkInterfaces.any fun networkInterface =>
      networkInterface.type == ifType && networkInterface.addresses.any fun it =>
        addresses.any fun prefixable => p.overlaps (prefixable.getD .zero) it

/-- Every prefix named holds an address of the default interface. -/
def newDefaultInterfaceAddressItem (interfaceAddresses : List (Option Prefix)) : Item :=
  .other fun c => match c.rest.state.defaultInterface with
    | none => false
    | some addresses => interfaceAddresses.all fun prefixable =>
      addresses.any (p.overlaps (prefixable.getD .zero))

end

end AiboosterEngine.Route
