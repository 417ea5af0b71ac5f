import AiboosterEngine.Srs.Rule

/-!
# The binary format of rule sets

`Write` and `Read` of `common/srs/binary.go`, with `ip_set.go` and
`ip_cidr.go`. A rule is a sequence of items, each with a byte that says which
it is; `readDefaultRule` reads items until the final one. The loops over
items and nested rules take fuel; every item and every rule has a byte, so
`read` has enough with the length of what it reads.
-/

namespace AiboosterEngine.Srs
open GoSem

variable {M A : Type}

/-- The constants `ruleItemQueryType` to `ruleItemFinal`. -/
inductive RuleItem where
  | queryType | network | domain | domainKeyword | domainRegex | sourceIPCIDR | ipCIDR
  | sourcePort | sourcePortRange | port | portRange | processName | processPath | packageName
  | wifiSSID | wifiBSSID | adGuardDomain | processPathRegex | networkType | networkIsExpensive
  | networkIsConstrained | networkInterfaceAddress | defaultInterfaceAddress | final
  deriving DecidableEq, Repr

open RuleItem

def RuleItem.all : List RuleItem :=
  [.queryType, .network, .domain, .domainKeyword, .domainRegex, .sourceIPCIDR, .ipCIDR,
    .sourcePort, .sourcePortRange, .port, .portRange, .processName, .processPath, .packageName,
    .wifiSSID, .wifiBSSID, .adGuardDomain, .processPathRegex, .networkType, .networkIsExpensive,
    .networkIsConstrained, .networkInterfaceAddress, .defaultInterfaceAddress]

def RuleItem.code : RuleItem → UInt8
  | .final => 0xff
  | item => UInt8.ofNat (all.idxOf item)

def RuleItem.ofCode (b : UInt8) : Option RuleItem :=
  (final :: all).find? fun item => item.code == b

def magicBytes : Bytes := [0x53, 0x52, 0x53]

def ruleSetVersionCurrent : UInt8 := 4

/-- `E.Cause(err, ...)`. -/
def cause (text err : String) : String := text ++ ": " ++ err

variable (libs : Libraries M A)

def writePrefix (p : Prefix) : Bytes :=
  libs.bytes.write p.addr.asSlice ++ [p.bitsByte]

def writeIPSet (set : IPSet) : Bytes :=
  [1] ++ bigEndian 8 set.ranges.length ++
    set.ranges.flatMap fun r => libs.rangeData.write (r.start.asSlice, r.stop.asSlice)

variable (item : RuleItem) (value : List Bytes)

def writeRuleItemString : Bytes :=
  [item.code] ++ libs.strings.write value

def writeRuleItemUint8 (value : List UInt8) : Bytes :=
  [item.code] ++ libs.uint8s.write value

def writeRuleItemUint16 (value : List UInt16) : Bytes :=
  [item.code] ++ libs.uint16s.write value

/-- The loop of `writeRuleItemCIDR` from number `i` on: a prefix, else an address. -/
def parseCIDRs (libs : Libraries M A) (i : Nat) : List Bytes → Outcome String (List Added)
  | [] => .ok []
  | text :: more => do
    let added ← match libs.parsePrefix text with
      | .ok p => .ok (Added.net p)
      | .err e =>
        match libs.parseAddr text with
        | some a => .ok (Added.addr a)
        | none => .err (cause s!"parse [{i}]" e)
      | .panicked => .panicked
    let rest ← parseCIDRs libs (i + 1) more
    return added :: rest

def cidrSet : Outcome String IPSet := do
  let added ← parseCIDRs libs 0 value
  libs.buildIPSet added

def writeRuleItemCIDR : Outcome String Bytes := do
  let ipSet ← cidrSet libs value
  return [item.code] ++ writeIPSet libs ipSet

/-- `rawPrefix.Build(netip.Prefix{})`. -/
def build (p : Option Prefix) : Prefix := p.getD Prefix.zero

def writePrefixes (value : List (Option Prefix)) : Bytes :=
  uvarint value.length ++ value.flatMap fun p => writePrefix libs (build p)

def writeInterfaceAddress (map : TypedMap (List (Option Prefix))) : Bytes :=
  [networkInterfaceAddress.code] ++ uvarint map.entries.length ++
    map.entries.flatMap fun e => [e.1] ++ writePrefixes libs e.2

/-- An item that is written when its field has something in it. -/
def whenAny {α : Type} (value : List α) (item : Outcome String Bytes) : Outcome String Bytes :=
  if value.isEmpty then .ok [] else item

def whenSet (value : Bool) (item : Outcome String Bytes) : Outcome String Bytes :=
  if value then item else .ok []

/-- An item that files before a version do not have. -/
def since (version generateVersion : UInt8) (error : String) (item : Bytes) :
    Outcome String Bytes :=
  if generateVersion < version then .err error else .ok item

def ruleItems (rule : DefaultHeadlessRule M A) (generateVersion : UInt8) :
    List (Outcome String Bytes) :=
  [ whenAny rule.queryType (.ok (writeRuleItemUint16 libs .queryType rule.queryType)),
    whenAny rule.network (.ok (writeRuleItemString libs .network rule.network)),
    whenAny (rule.domain ++ rule.domainSuffix) (.ok ([domain.code] ++
      libs.matcher.write (libs.newMatcher rule.domain rule.domainSuffix (generateVersion == 1)))),
    whenAny rule.domainKeyword (.ok (writeRuleItemString libs .domainKeyword rule.domainKeyword)),
    whenAny rule.domainRegex (.ok (writeRuleItemString libs .domainRegex rule.domainRegex)),
    whenAny rule.sourceIPCIDR
      ((writeRuleItemCIDR libs .sourceIPCIDR rule.sourceIPCIDR).mapErr (cause "source_ip_cidr")),
    whenAny rule.ipCIDR ((writeRuleItemCIDR libs .ipCIDR rule.ipCIDR).mapErr (cause "ipcidr")),
    whenAny rule.sourcePort (.ok (writeRuleItemUint16 libs .sourcePort rule.sourcePort)),
    whenAny rule.sourcePortRange
      (.ok (writeRuleItemString libs .sourcePortRange rule.sourcePortRange)),
    whenAny rule.port (.ok (writeRuleItemUint16 libs .port rule.port)),
    whenAny rule.portRange (.ok (writeRuleItemString libs .portRange rule.portRange)),
    whenAny rule.processName (.ok (writeRuleItemString libs .processName rule.processName)),
    whenAny rule.processPath (.ok (writeRuleItemString libs .processPath rule.processPath)),
    whenAny rule.processPathRegex
      (.ok (writeRuleItemString libs .processPathRegex rule.processPathRegex)),
    whenAny rule.packageName (.ok (writeRuleItemString libs .packageName rule.packageName)),
    whenAny rule.networkType (since 3 generateVersion
      "`network_type` rule item is only supported in version 3 or later"
      (writeRuleItemUint8 libs .networkType rule.networkType)),
    whenSet rule.networkIsExpensive (since 3 generateVersion
      "`network_is_expensive` rule item is only supported in version 3 or later"
      [networkIsExpensive.code]),
    whenSet rule.networkIsConstrained (since 3 generateVersion
      "`network_is_constrained` rule item is only supported in version 3 or later"
      [networkIsConstrained.code]),
    match rule.networkInterfaceAddress with
    | none => .ok []
    | some map => whenAny map.entries (since 4 generateVersion
      "`network_interface_address` rule item is only supported in version 4 or later"
      (writeInterfaceAddress libs map)),
    whenAny rule.defaultInterfaceAddress (since 4 generateVersion
      "`default_interface_address` rule item is only supported in version 4 or later"
      ([defaultInterfaceAddress.code] ++
        writePrefixes libs rule.defaultInterfaceAddress)),
    whenAny rule.wifiSSID (.ok (writeRuleItemString libs .wifiSSID rule.wifiSSID)),
    whenAny rule.wifiBSSID (.ok (writeRuleItemString libs .wifiBSSID rule.wifiBSSID)),
    whenAny rule.adGuardDomain (since 2 generateVersion
      "AdGuard rule items is only supported in version 2 or later"
      ([adGuardDomain.code] ++
        libs.adGuardMatcher.write (libs.newAdGuardMatcher rule.adGuardDomain))),
    .ok [final.code, boolByte rule.invert] ]

def writeDefaultRule (rule : DefaultHeadlessRule M A) (generateVersion : UInt8) :
    Outcome String Bytes :=
  writeAll (.ok [0] :: ruleItems libs rule generateVersion)

def modeCode : Mode → Outcome String UInt8
  | .and => .ok 0
  | .or => .ok 1
  | .other _ => .panicked

/-- `rules` is what the nested rules write. -/
def writeLogicalRule (mode : Mode) (length : Nat) (invert : Bool) (rules : Outcome String Bytes) :
    Outcome String Bytes := do
  let mode ← modeCode mode
  let rules ← rules
  return [1, mode] ++ uvarint length ++ rules ++ [boolByte invert]

mutual

def writeRule (libs : Libraries M A) (generateVersion : UInt8) :
    HeadlessRule M A → Outcome String Bytes
  | .default options => writeDefaultRule libs options generateVersion
  | .logical mode rules invert =>
    writeLogicalRule mode rules.length invert (writeRules libs generateVersion rules)
  | .other _ => .panicked

def writeRules (libs : Libraries M A) (generateVersion : UInt8) :
    List (HeadlessRule M A) → Outcome String Bytes
  | [] => .ok []
  | rule :: rules => do
    let first ← writeRule libs generateVersion rule
    let more ← writeRules libs generateVersion rules
    return first ++ more

end

def write (rules : List (HeadlessRule M A)) (generateVersion : UInt8) : Outcome String Bytes := do
  let body ← writeRules libs generateVersion rules
  return magicBytes ++ [generateVersion] ++ libs.deflate (uvarint rules.length ++ body)

def readPrefix : Reader String Prefix := do
  let addrSlice ← libs.bytes.read
  let prefixBits ← readByte
  return Prefix.prefixFrom (.fromSlice addrSlice) prefixBits.toNat

/-- The second `make` of `readIPSet`, and the set with it. -/
def makeIPSet (ranges : List IPRange) : Outcome String IPSet :=
  if h : 48 * ranges.length ≤ 2 ^ 48 then .ok ⟨ranges, h⟩ else .panicked

def readIPSet : Reader String IPSet := do
  let version ← readByte
  if version ≠ 1 then .fail "invalid argument"
  else do
    let length ← readUint64
    .lift (makeSlice 48 length)
    let ranges ← .times (fun _ => libs.rangeData.read) 0 length
    .lift (makeIPSet (ranges.map fun data => ⟨.fromSlice data.1, .fromSlice data.2⟩))

def readPrefixes : Reader String (List (Option Prefix)) := do
  let prefixCount ← readUvarint
  .times (fun _ => do let p ← readPrefix libs; return some p) 0 prefixCount

def readInterfaceAddress : Reader String (TypedMap (List (Option Prefix))) := do
  let size ← readUvarint
  let entries ← .times (fun _ => do
    let key ← readByte
    let value ← readPrefixes libs
    return (key, value)) 0 size
  return entries.foldl (fun map e => map.put e.1 e.2) .empty

variable (recover : Bool)

/-- The body of `switch itemType` for every item but the final one. -/
def readItem (rule : DefaultHeadlessRule M A) :
    RuleItem → Reader String (DefaultHeadlessRule M A)
  | .queryType => do return { rule with queryType := ← libs.uint16s.read }
  | .network => do return { rule with network := ← libs.strings.read }
  | .domain => do
    let matcher ← libs.matcher.read
    if recover then
      return { rule with
        domainMatcher := some matcher
        domain := (libs.dump matcher).1
        domainSuffix := (libs.dump matcher).2 }
    else return { rule with domainMatcher := some matcher }
  | .domainKeyword => do return { rule with domainKeyword := ← libs.strings.read }
  | .domainRegex => do return { rule with domainRegex := ← libs.strings.read }
  | .sourceIPCIDR => do
    let set ← readIPSet libs
    if recover then
      return { rule with
        sourceIPSet := some set
        sourceIPCIDR := (libs.prefixes set).map libs.prefixString }
    else return { rule with sourceIPSet := some set }
  | .ipCIDR => do
    let set ← readIPSet libs
    if recover then
      return { rule with
        ipSet := some set
        ipCIDR := (libs.prefixes set).map libs.prefixString }
    else return { rule with ipSet := some set }
  | .sourcePort => do return { rule with sourcePort := ← libs.uint16s.read }
  | .sourcePortRange => do return { rule with sourcePortRange := ← libs.strings.read }
  | .port => do return { rule with port := ← libs.uint16s.read }
  | .portRange => do return { rule with portRange := ← libs.strings.read }
  | .processName => do return { rule with processName := ← libs.strings.read }
  | .processPath => do return { rule with processPath := ← libs.strings.read }
  | .processPathRegex => do return { rule with processPathRegex := ← libs.strings.read }
  | .packageName => do return { rule with packageName := ← libs.strings.read }
  | .wifiSSID => do return { rule with wifiSSID := ← libs.strings.read }
  | .wifiBSSID => do return { rule with wifiBSSID := ← libs.strings.read }
  | .adGuardDomain => do
    let matcher ← libs.adGuardMatcher.read
    if recover then
      return { rule with
        adGuardDomainMatcher := some matcher
        adGuardDomain := libs.dumpAdGuard matcher }
    else return { rule with adGuardDomainMatcher := some matcher }
  | .networkType => do return { rule with networkType := ← libs.uint8s.read }
  | .networkIsExpensive => return { rule with networkIsExpensive := true }
  | .networkIsConstrained => return { rule with networkIsConstrained := true }
  | .networkInterfaceAddress => do
    return { rule with networkInterfaceAddress := some (← readInterfaceAddress libs) }
  | .defaultInterfaceAddress => do
    return { rule with defaultInterfaceAddress := ← readPrefixes libs }
  | .final => return rule

def readDefaultRule (libs : Libraries M A) (recover : Bool) :
    (fuel : Nat) → (lastItemType : UInt8) → DefaultHeadlessRule M A →
      Reader String (DefaultHeadlessRule M A)
  | 0, _, _ => .outOfFuel
  | fuel + 1, lastItemType, rule => do
    let itemType ← readByte
    match ofCode itemType with
    | some .final => return { rule with invert := ← readBool }
    | some item => do
      let rule ← readItem libs recover rule item
      readDefaultRule libs recover fuel itemType rule
    | none => .fail s!"unknown rule item type: {itemType}, last type: {lastItemType}"

/-- The size of an `option.HeadlessRule` in memory. -/
def headlessRuleSize : Nat := 672

def modeOf (code : UInt8) : Outcome String Mode :=
  if code = 0 then .ok .and
  else if code = 1 then .ok .or
  else .err s!"unknown logical mode: {code}"

/-- `readRule` is what reads a nested rule. -/
def readLogicalRule (readRule : Reader String (HeadlessRule M A)) :
    Reader String (HeadlessRule M A) := do
  let mode ← readByte
  let mode ← .lift (modeOf mode)
  let length ← readUvarint
  .lift (makeSlice headlessRuleSize length)
  let rules ← .times (fun i => readRule.mapErr (cause s!"read logical rule [{i}]")) 0 length
  let invert ← readBool
  return .logical mode rules invert

def readRule (libs : Libraries M A) (recover : Bool) :
    (fuel : Nat) → Reader String (HeadlessRule M A)
  | 0 => .outOfFuel
  | fuel + 1 => do
    let ruleType ← readByte
    if ruleType = 0 then return .default (← readDefaultRule libs recover fuel 0 {})
    else if ruleType = 1 then readLogicalRule (readRule libs recover fuel)
    else .fail s!"unknown rule type: {ruleType}"

structure PlainRuleSetCompat (M A : Type) where
  version : UInt8
  rules : List (HeadlessRule M A)

def readRules (fuel : Nat) : Reader String (List (HeadlessRule M A)) := do
  let length ← readUvarint
  .lift (makeSlice headlessRuleSize length)
  .times (fun i => (readRule libs recover fuel).mapErr (cause s!"read rule[{i}]")) 0 length

def checkMagic (magic : Bytes) : Outcome String Unit :=
  if magic = magicBytes then .ok () else .err "invalid sing-box rule-set file"

def checkVersion (version : UInt8) : Outcome String Unit :=
  if version > ruleSetVersionCurrent then .err s!"unsupported version: {version}" else .ok ()

/-- `Read`, up to the stream that is decompressed. -/
def readHeader : Reader String UInt8 := do
  let magic ← readFull 3
  .lift (checkMagic magic)
  let version ← readByte
  .lift (checkVersion version)
  return version

def read (bs : Bytes) : Option (Outcome String (PlainRuleSetCompat M A)) :=
  match readHeader bs with
  | some (.ok (version, compressed)) =>
    match libs.inflate compressed with
    | .ok plain =>
      match readRules libs recover (plain.length + 1) plain with
      | some (.ok (rules, _)) => some (.ok ⟨version, rules⟩)
      | some (.err e) => some (.err e)
      | some .panicked => some .panicked
      | none => none
    | .err e => some (.err e)
    | .panicked => some .panicked
  | some (.err e) => some (.err e)
  | some .panicked => some .panicked
  | none => none

end AiboosterEngine.Srs
