import AiboosterEngine.GoSem.AddrRange
import AiboosterEngine.GoSem.Strings
import AiboosterEngine.Route.NewHeadless

/-!
# AdGuard lists

`common/convertor/adguard`: the lines of a list in the syntax of AdGuard become one
headless rule. A line that is not supported is left out. Logging is left out, with
the count of these lines.
-/

namespace AiboosterEngine.Adguard
open GoSem Route

/-- The bytes of a domain name. -/
def nameByte (b : UInt8) : Bool :=
  (97 ≤ b && b ≤ 122) || (65 ≤ b && b ≤ 90) || (48 ≤ b && b ≤ 57) || b == 45 || b == 46 || b == 95

def addressByte (b : UInt8) : Bool :=
  (97 ≤ b && b ≤ 102) || (65 ≤ b && b ≤ 70) || (48 ≤ b && b ≤ 58)

structure Libraries where
  /-- `M.IsDomainName` and `M.ParseAddr` of `sing`. -/
  isDomainName : Bytes → Bool
  isDomainName_bytes : ∀ name, isDomainName name = true → name.all nameByte = true
  mParseAddr : Bytes → Addr
  /-- `netip.ParseAddr`. -/
  parseAddr : Bytes → Except String Addr
  parseAddr_first : ∀ text address, parseAddr text = .ok address → text.head?.any addressByte = true

inductive ConvertError where
  /-- `os.ErrInvalid`. -/
  | invalid
  | parseAddr (cause : String)
  /-- `strconv.ParseUint` for a part of an address. -/
  | parseUint (part : Bytes)
  | domainName (domain : Bytes)
  /-- The rule-set is empty or all rules are unsupported. -/
  | empty
  deriving DecidableEq, Repr

def isUnspecified (address : Addr) : Bool :=
  address = .v4 ⟨[0, 0, 0, 0], rfl⟩ || address = .v6 ⟨List.replicate 16 0, rfl⟩ []

/-- `common.SubstringBefore`: all of the text when there is no separator in it. -/
def substringBefore (s sep : Bytes) : Bytes :=
  match cut sep s with
  | some (before, _) => before
  | none => s

def substringAfter (s sep : Bytes) : Bytes :=
  match cut sep s with
  | some (_, after) => after
  | none => s

/-- `agdguardRuleLine`. -/
structure RuleLine where
  ruleLine : Bytes
  isRawDomain : Bool := false
  isExclude : Bool := false
  isSuffix : Bool := false
  hasStart : Bool := false
  hasEnd : Bool := false
  isRegexp : Bool := false
  isImportant : Bool := false
  deriving DecidableEq, Repr

def ignoreIPCIDRRegexp (ruleLine : Bytes) : Outcome ConvertError Bool := do
  let ruleLine ←
    if (utf8 "(http?:\\/\\/)").isPrefixOf ruleLine then sliceFrom ruleLine 12
    else if (utf8 "(https?:\\/\\/)").isPrefixOf ruleLine then sliceFrom ruleLine 13
    else if (utf8 "^").isPrefixOf ruleLine then sliceFrom ruleLine 1
    else .ok ruleLine
  return (parseUint 8 (substringBefore ruleLine (utf8 "\\."))).isSome ||
    (parseUint 8 (substringBefore ruleLine (utf8 "."))).isSome

/-- `[4]byte(parts)`. -/
def array4 (parts : Bytes) : Outcome ConvertError { b : Bytes // b.length = 4 } :=
  if h : 4 ≤ parts.length then .ok ⟨parts.take 4, by rw [List.length_take]; omega⟩ else .panicked

/-- The loop over the parts of an address. -/
def parseParts : List Bytes → Outcome ConvertError Bytes
  | [] => .ok []
  | part :: parts => do
    let rulePart ← match parseUint 8 part with
      | some n => .ok (UInt8.ofNat n)
      | none => .err (.parseUint part)
    let rest ← parseParts parts
    return rulePart :: rest

/-- The first numbers of an address with a dot behind them, or all four. -/
def parseADGuardIPCIDRLine (ruleLine : Bytes) : Outcome ConvertError Prefix := do
  let isPrefix := (utf8 ".").isSuffixOf ruleLine
  let ruleLine ← cutEnd (utf8 ".") ruleLine
  let ruleStringParts := split (utf8 ".") ruleLine
  if 4 < ruleStringParts.length || (ruleStringParts.length < 4 && !isPrefix) then .err .invalid
  else do
    let ruleParts ← parseParts ruleStringParts
    let bytes ← array4 (ruleParts ++ List.replicate (4 - ruleParts.length) 0)
    return .prefixFrom (.v4 bytes) (ruleParts.length * 8)

section
variable (libs : Libraries) (ruleLine : Bytes)

/-- A line of a hosts file; the domain is empty when the address is a real one. -/
def parseAdGuardHostLine : Outcome ConvertError Bytes :=
  match indexOf (utf8 " ") ruleLine with
  | none => .err .invalid
  | some idx => do
    let text ← slice ruleLine 0 idx
    match libs.parseAddr text with
    | .error cause => .err (.parseAddr cause)
    | .ok address =>
      if !isUnspecified address then .ok []
      else do
        let domain ← sliceFrom ruleLine (idx + 1)
        if !libs.isDomainName domain then .err (.domainName domain) else .ok domain

/-- A modifier that does not make the line an unsupported one: nothing when it does, and otherwise
whether it is the one that makes the line important. -/
def modifier (param : Bytes) : Option Bool :=
  match split (utf8 "=") param with
  | [name] => if name = utf8 "important" then some true else none
  | [name, value] =>
    if name = utf8 "important" then some true
    else if name = utf8 "dnsrewrite" && isUnspecified (libs.mParseAddr value) then some false
    else none
  | _ => none

/-- The loop over the modifiers; nothing when one of them is not supported. -/
def modifiers : List Bytes → (isImportant : Bool) → Option Bool
  | [], isImportant => some isImportant
  | param :: params, isImportant =>
    match modifier libs param with
    | some important => modifiers params (isImportant || important)
    | none => none

/-- The part of a rule before its modifiers, and whether they make it important. -/
def splitModifiers : Option (Bytes × Bool) :=
  if !(utf8 "/").isPrefixOf ruleLine && hasInfix (utf8 "$") ruleLine then
    (modifiers libs (split (utf8 ",") (substringAfter ruleLine (utf8 "$"))) false).map
      fun isImportant => (substringBefore ruleLine (utf8 "$"), isImportant)
  else some (ruleLine, false)

/-- The patterns that are left out for what is in them: a path, a query, a cosmetic filter, another
modifier, or nothing. -/
def unsupported : Bool :=
  hasInfix (utf8 "/") ruleLine ||
  (hasInfix (utf8 "?") ruleLine || hasInfix (utf8 "&") ruleLine) ||
  (hasInfix (utf8 "[") ruleLine || hasInfix (utf8 "]") ruleLine || hasInfix (utf8 "(") ruleLine ||
    hasInfix (utf8 ")") ruleLine || hasInfix (utf8 "!") ruleLine || hasInfix (utf8 "#") ruleLine) ||
  hasInfix (utf8 "~") ruleLine ||
  ruleLine.isEmpty

/-- What has to be a domain name for the pattern: a letter before a dot or a dash, and letters for
the wildcards. -/
def domainCheck : Bytes :=
  replaceByte 42 120 (
    if (utf8 ".").isPrefixOf ruleLine || (utf8 "-").isPrefixOf ruleLine then utf8 "r" ++ ruleLine
    else ruleLine)

def checkPattern : Outcome ConvertError (Option Bytes) :=
  if unsupported ruleLine then .ok none
  else if !libs.isDomainName (domainCheck ruleLine) then
    -- an address or not, the pattern is not supported
    match parseADGuardIPCIDRLine ruleLine with
    | .panicked => .panicked
    | _ => .ok none
  else .ok (some ruleLine)

/-- The bars before a pattern. -/
def cutBars : Outcome ConvertError Bytes :=
  if (utf8 "||").isPrefixOf ruleLine then sliceFrom ruleLine 2 else cutStart (utf8 "|") ruleLine

/-- The end of a pass: the line is down to its pattern, a regular expression between slashes or
another one. -/
def parsePattern (it : RuleLine) : Outcome ConvertError (Option RuleLine) :=
  if (utf8 "/").isPrefixOf it.ruleLine && (utf8 "/").isSuffixOf it.ruleLine then do
    let ruleLine ← slice it.ruleLine 1 (it.ruleLine.length - 1)
    let ignored ← ignoreIPCIDRRegexp ruleLine
    return if ignored then none else some { it with ruleLine, isRegexp := true }
  else do
    let hasScheme := hasInfix (utf8 "://") it.ruleLine
    let pattern ← checkPattern libs
      (if hasScheme then substringAfter it.ruleLine (utf8 "://") else it.ruleLine)
    return pattern.map fun ruleLine => { it with ruleLine, isSuffix := it.isSuffix || hasScheme }

def parseRule (line : Bytes) : Outcome ConvertError (Option RuleLine) := do
  let ruleLine ← cutEnd (utf8 "|") line
  match splitModifiers libs ruleLine with
  | none => return none
  | some (ruleLine, isImportant) => do
    let isExclude := (utf8 "@@").isPrefixOf ruleLine
    let ruleLine ← cutStart (utf8 "@@") ruleLine
    let ruleLine ← cutEnd (utf8 "|") ruleLine
    let isSuffix := (utf8 "||").isPrefixOf ruleLine
    let hasStart := !isSuffix && (utf8 "|").isPrefixOf ruleLine
    let ruleLine ← cutBars ruleLine
    let hasEnd := (utf8 "^").isSuffixOf ruleLine
    let ruleLine ← cutEnd (utf8 "^") ruleLine
    parsePattern libs { ruleLine, isExclude, isSuffix, hasStart, hasEnd, isImportant }

/-- One pass of the loop over the lines: the entry it appends, if any. -/
def parseLine (line : Bytes) : Outcome ConvertError (Option RuleLine) :=
  if line.isEmpty then .ok none
  else if (utf8 "!").isPrefixOf line || (utf8 "#").isPrefixOf line then .ok none
  else if libs.isDomainName line then .ok (some { ruleLine := line, isRawDomain := true })
  else match parseAdGuardHostLine libs line with
    | .ok hostLine =>
      if hostLine.isEmpty then .ok none
      else .ok
        (some { ruleLine := hostLine, isRawDomain := true, hasStart := true, hasEnd := true })
    | .panicked => .panicked
    | .err _ => parseRule libs line

def parseLines : List Bytes → Outcome ConvertError (List RuleLine)
  | [] => .ok []
  | line :: lines => do
    let entry ← parseLine libs line
    let rest ← parseLines lines
    return entry.toList ++ rest

end

def mapDomain (it : RuleLine) : Bytes :=
  let ruleLine :=
    if it.isSuffix then utf8 "||" ++ it.ruleLine
    else if it.hasStart then utf8 "|" ++ it.ruleLine
    else it.ruleLine
  if it.hasEnd then ruleLine ++ utf8 "^" else ruleLine

/-- The eight lists of the rule. -/
def domains (ruleLines : List RuleLine) (isImportant isRegexp isExclude : Bool) : List Bytes :=
  (ruleLines.filter fun it =>
    it.isImportant == isImportant && it.isRegexp == isRegexp &&
      it.isExclude == isExclude).map mapDomain

section
variable {M A : Type} (ruleLines : List RuleLine)

/-- The default rule for two of the lists. `common.Map` gives slices that are not nil. -/
def listOptions (isImportant isExclude : Bool) : DefaultOptions M A where
  adGuardDomain := some (domains ruleLines isImportant false isExclude)
  domainRegex := some (domains ruleLines isImportant true isExclude)
  invert := isExclude

/-- The rule so far, with the default rule for two more lists before it when they are not both
empty. -/
def withLists (isImportant isExclude : Bool) (mode : Srs.Mode)
    (currentRule : RuleOptions M A) : RuleOptions M A :=
  if 0 < (domains ruleLines isImportant false isExclude).length ||
      0 < (domains ruleLines isImportant true isExclude).length then
    .logical mode [.default (listOptions ruleLines isImportant isExclude), currentRule] false
  else currentRule

def listRule : RuleOptions M A :=
  let currentRule := .default (listOptions ruleLines false false)
  let currentRule := withLists ruleLines false true .and currentRule
  let currentRule := withLists ruleLines true false .or currentRule
  withLists ruleLines true true .and currentRule

def toOptions (libs : Libraries) (text : Bytes) :
    Outcome ConvertError (List (RuleOptions M A)) := do
  let ruleLines ← parseLines libs (scanLines text)
  if ruleLines.isEmpty then .err .empty
  else if ruleLines.all (·.isRawDomain) then
    return [.default { domain := some (ruleLines.map (·.ruleLine)) }]
  else return [listRule ruleLines]

end

end AiboosterEngine.Adguard
