import AiboosterEngine.Srs.Items

/-!
# Reading a rule set back

Whether `Read` undoes `Write`.
-/

namespace AiboosterEngine.Srs
open GoSem List DefaultHeadlessRule Outcome

variable {M A : Type}

def SameMembers (a b : List Bytes) : Prop := ∀ x, x ∈ a ↔ x ∈ b

variable (libs : Libraries M A) (rule : DefaultHeadlessRule M A)

/-- The domains and suffixes of a rule; the matcher counts when both lists are empty. -/
def DefaultHeadlessRule.names : Option (List Bytes × List Bytes) :=
  if (rule.domain ++ rule.domainSuffix).isEmpty then rule.domainMatcher.map libs.dump
  else some (rule.domain, rule.domainSuffix)

def DefaultHeadlessRule.adGuardNames : Option (List Bytes) :=
  if rule.adGuardDomain.isEmpty then rule.adGuardDomainMatcher.map libs.dumpAdGuard
  else some rule.adGuardDomain

def SameNames : Option (List Bytes × List Bytes) → Option (List Bytes × List Bytes) → Prop
  | none, none => True
  | some a, some b => SameMembers a.1 b.1 ∧ SameMembers a.2 b.2
  | _, _ => False

def SameAdGuard : Option (List Bytes) → Option (List Bytes) → Prop
  | none, none => True
  | some a, some b => SameMembers a b
  | _, _ => False

/-- The set of a list of addresses and prefixes; the set counts when the list is empty. -/
def ipCondition (cidr : List Bytes) (set : Option IPSet) : Option (Outcome String IPSet) :=
  if cidr.isEmpty then set.map .ok else some (cidrSet libs cidr)

/-- The prefixes of each interface type; no map is the same as an empty one. -/
def DefaultHeadlessRule.addresses : List (UInt8 × List Prefix) :=
  (rule.networkInterfaceAddress.elim [] TypedMap.entries).map fun e => (e.1, e.2.map build)

/-- The two rules have the same conditions. -/
structure SameConditions (libs : Libraries M A) (a b : DefaultHeadlessRule M A) : Prop where
  queryType : a.queryType = b.queryType
  network : a.network = b.network
  names : SameNames (a.names libs) (b.names libs)
  domainKeyword : a.domainKeyword = b.domainKeyword
  domainRegex : a.domainRegex = b.domainRegex
  sourceIP : ipCondition libs a.sourceIPCIDR a.sourceIPSet
    = ipCondition libs b.sourceIPCIDR b.sourceIPSet
  ip : ipCondition libs a.ipCIDR a.ipSet = ipCondition libs b.ipCIDR b.ipSet
  sourcePort : a.sourcePort = b.sourcePort
  sourcePortRange : a.sourcePortRange = b.sourcePortRange
  port : a.port = b.port
  portRange : a.portRange = b.portRange
  processName : a.processName = b.processName
  processPath : a.processPath = b.processPath
  processPathRegex : a.processPathRegex = b.processPathRegex
  packageName : a.packageName = b.packageName
  networkType : a.networkType = b.networkType
  networkIsExpensive : a.networkIsExpensive = b.networkIsExpensive
  networkIsConstrained : a.networkIsConstrained = b.networkIsConstrained
  wifiSSID : a.wifiSSID = b.wifiSSID
  wifiBSSID : a.wifiBSSID = b.wifiBSSID
  invert : a.invert = b.invert
  adGuard : SameAdGuard (a.adGuardNames libs) (b.adGuardNames libs)
  tunnelSource : a.tunnelSource = b.tunnelSource
  tunnelDestination : a.tunnelDestination = b.tunnelDestination
  addresses : a.addresses = b.addresses
  defaultInterfaceAddress : a.defaultInterfaceAddress.map build =
    b.defaultInterfaceAddress.map build

mutual

def SameRule (libs : Libraries M A) : HeadlessRule M A → HeadlessRule M A → Prop
  | .default a, .default b => SameConditions libs a b
  | .logical mode rules invert, .logical mode' rules' invert' =>
    mode = mode' ∧ SameRules libs rules rules' ∧ invert = invert'
  | _, _ => False

def SameRules (libs : Libraries M A) : List (HeadlessRule M A) → List (HeadlessRule M A) → Prop
  | [], [] => True
  | a :: as, b :: bs => SameRule libs a b ∧ SameRules libs as bs
  | _, _ => False

end

/-- A list of addresses and prefixes comes back as the same set: the set beside an empty list
is not written, and the zone of an address is not. -/
def RecoverableIP (cidr : List Bytes) (set : Option IPSet) : Prop :=
  if cidr.isEmpty then set = none else ∀ ips, cidrSet libs cidr = .ok ips → ips.Zoneless

structure Recoverable (libs : Libraries M A) (rule : DefaultHeadlessRule M A) : Prop where
  tunnelSource : rule.tunnelSource = []
  tunnelDestination : rule.tunnelDestination = []
  matcher : rule.domain ++ rule.domainSuffix = [] → rule.domainMatcher = none
  adGuard : rule.adGuardDomain = [] → rule.adGuardDomainMatcher = none
  sourceIP : RecoverableIP libs rule.sourceIPCIDR rule.sourceIPSet
  ip : RecoverableIP libs rule.ipCIDR rule.ipSet

mutual

def RecoverableRule (libs : Libraries M A) : HeadlessRule M A → Prop
  | .default options => Recoverable libs options
  | .logical _ rules _ => RecoverableRules libs rules
  | .other _ => True

def RecoverableRules (libs : Libraries M A) : List (HeadlessRule M A) → Prop
  | [] => True
  | rule :: rules => RecoverableRule libs rule ∧ RecoverableRules libs rules

end

variable (libs : Libraries M A) (version : UInt8) (rule : DefaultHeadlessRule M A)

theorem sameNames_recovered_iff :
    SameNames ((recovered libs version rule).names libs) (rule.names libs) ↔
      (rule.domain ++ rule.domainSuffix = [] → rule.domainMatcher = none) := by
  by_cases none : rule.domain ++ rule.domainSuffix = []
  · have back : (recovered libs version rule).names libs = .none := by
      simp [recovered, names, writtenMatcher, none]
    rw [back, names, none]
    cases rule.domainMatcher <;> simp [SameNames]
  · have any : ¬ (rule.domain ++ rule.domainSuffix).isEmpty = true :=
      fun h => none (List.isEmpty_iff.mp h)
    have members := libs.mem_dump rule.domain rule.domainSuffix (version == 1)
    have back : (recovered libs version rule).names libs
        = some (libs.dump (libs.newMatcher rule.domain rule.domainSuffix (version == 1))) := by
      simp only [recovered, names, writtenMatcher, if_neg any]
      split <;> rfl
    rw [back, names, if_neg any]
    simp only [SameNames, none, false_implies, iff_true]
    exact ⟨fun x => (members x).1, fun x => (members x).2⟩

theorem sameAdGuard_recovered_iff :
    SameAdGuard ((recovered libs version rule).adGuardNames libs) (rule.adGuardNames libs) ↔
      (rule.adGuardDomain = [] → rule.adGuardDomainMatcher = none) := by
  by_cases none : rule.adGuardDomain = []
  · have back : (recovered libs version rule).adGuardNames libs = .none := by
      simp [recovered, adGuardNames, writtenAdGuard, none]
    rw [back, adGuardNames, none]
    cases rule.adGuardDomainMatcher <;> simp [SameAdGuard]
  · have any : ¬ rule.adGuardDomain.isEmpty = true := fun h => none (List.isEmpty_iff.mp h)
    have back : (recovered libs version rule).adGuardNames libs
        = some (libs.dumpAdGuard (libs.newAdGuardMatcher rule.adGuardDomain)) := by
      simp only [recovered, adGuardNames, writtenAdGuard, if_neg any]
      split <;> rfl
    rw [back, adGuardNames, if_neg any]
    simp only [SameAdGuard, none, false_implies, iff_true]
    exact libs.mem_dumpAdGuard rule.adGuardDomain

theorem stripped_eq_iff (set : IPSet) : set.stripped = set ↔ set.Zoneless := by
  constructor
  · intro same r hr
    have ranges : set.ranges.map (fun r => (⟨r.start.withoutZone, r.stop.withoutZone⟩ : IPRange))
        = set.ranges := congrArg IPSet.ranges same
    have fixed := map_inj_left.mp (ranges.trans (map_id _).symm) r hr
    exact ⟨congrArg IPRange.start fixed, congrArg IPRange.stop fixed⟩
  · intro zoneless
    apply IPSet.ext
    refine Eq.trans (map_inj_left.mpr fun r hr => ?_) (map_id set.ranges)
    obtain ⟨start, stop⟩ := zoneless r hr
    rw [start, stop]
    rfl

theorem parseCIDRs_prefixes {ps : List Prefix}
    (parse : ∀ p ∈ ps, libs.parsePrefix (libs.prefixString p) = .ok p) (i : Nat) :
    parseCIDRs libs i (ps.map libs.prefixString) = .ok (ps.map .net) := by
  induction ps generalizing i with
  | nil => rfl
  | cons p ps ih =>
    have first := parse p mem_cons_self
    have more := ih (fun q hq => parse q (mem_cons_of_mem _ hq)) (i + 1)
    rw [map_cons, parseCIDRs, first, more]
    rfl

theorem cidrSet_prefixes (set : IPSet) :
    cidrSet libs ((libs.prefixes set).map libs.prefixString)
      = libs.buildIPSet ((libs.prefixes set).map .net) := by
  rw [cidrSet, parseCIDRs_prefixes libs (libs.parse_prefixes set)]
  rfl

theorem cidrSet_prefixes_zoneless {set ips : IPSet}
    (h : cidrSet libs ((libs.prefixes set).map libs.prefixString) = .ok ips) : ips.Zoneless := by
  rw [cidrSet_prefixes] at h
  refine libs.build_zoneless _ _ h fun a mem => ?_
  obtain ⟨p, _, other⟩ := mem_map.mp mem
  cases other

theorem sameIP_recovered_iff {cidr : List Bytes} {set : Option IPSet}
    (parsed : ¬ cidr.isEmpty → ∃ ips, cidrSet libs cidr = .ok ips) :
    ipCondition libs (recoveredCIDR libs (readBack libs cidr)) (readBack libs cidr)
      = ipCondition libs cidr set ↔ RecoverableIP libs cidr set := by
  by_cases any : cidr.isEmpty
  · cases List.isEmpty_iff.mp any
    show none = set.map ok ↔ set = none
    cases set <;> simp
  · obtain ⟨ips, made⟩ := parsed any
    have back : readBack libs cidr = some ips.stripped := by rw [readBack, if_neg any, made]
    rw [back]
    unfold ipCondition RecoverableIP
    rw [if_neg any, if_neg any, made]
    simp only [ok.injEq, forall_eq']
    show (if ((libs.prefixes ips.stripped).map libs.prefixString).isEmpty = true then
      some (.ok ips.stripped)
        else some (cidrSet libs ((libs.prefixes ips.stripped).map libs.prefixString)))
        = some (.ok ips) ↔ _
    split
    · rw [Option.some.injEq, ok.injEq]
      exact stripped_eq_iff ips
    · rw [Option.some.injEq]
      constructor
      · exact cidrSet_prefixes_zoneless libs
      · intro zoneless
        have same := (stripped_eq_iff ips).mpr zoneless
        obtain ⟨added, _, built⟩ := bind_eq_ok made
        rw [same, cidrSet_prefixes]
        exact libs.build_prefixes added ips built zoneless

theorem build_built (value : List (Option Prefix)) : (built value).map build = value.map build := by
  rw [built, map_map]
  rfl

theorem addresses_recovered : (recovered libs version rule).addresses = rule.addresses := by
  unfold addresses recovered recoveredMap
  cases rule.networkInterfaceAddress with
  | none => rfl
  | some map =>
    grind [builtMap, build_built, List.isEmpty_iff.mp, map_map, map_congr_left]

variable {libs : Libraries M A} {bs : Bytes} {version : UInt8} {rules : List (HeadlessRule M A)}
  {rule : DefaultHeadlessRule M A}

/-- The lists of addresses and prefixes of a rule that was written parse. -/
theorem parsed_of_written
    (written : writeDefaultRule libs rule version = .ok bs) (item : RuleItem) (text : String)
    {cidr : List Bytes} (any : ¬ cidr.isEmpty)
    (mem : whenAny cidr ((writeRuleItemCIDR libs item cidr).mapErr (cause text)) ∈
      ruleItems libs rule version) :
    ∃ ips, cidrSet libs cidr = .ok ips := by
  obtain ⟨_, h⟩ := writeAll_mem written (mem_cons_of_mem _ mem)
  rw [whenAny, if_neg any] at h
  obtain ⟨ips, made, _⟩ := bind_eq_ok (mapErr_eq_ok h)
  exact ⟨ips, made⟩

/-- A rule that was written comes back with its conditions exactly when nothing of it is left
out. -/
theorem sameConditions_recovered_iff
    (written : writeDefaultRule libs rule version = .ok bs) :
    SameConditions libs (recovered libs version rule) rule ↔ Recoverable libs rule := by
  have source (any : ¬ rule.sourceIPCIDR.isEmpty) :=
    parsed_of_written written .sourceIPCIDR "source_ip_cidr" any (by simp [ruleItems])
  have ip (any : ¬ rule.ipCIDR.isEmpty) :=
    parsed_of_written written .ipCIDR "ipcidr" any (by simp [ruleItems])
  constructor
  · intro same
    exact
      { tunnelSource := same.tunnelSource.symm
        tunnelDestination := same.tunnelDestination.symm
        matcher := (sameNames_recovered_iff libs version rule).mp same.names
        adGuard := (sameAdGuard_recovered_iff libs version rule).mp same.adGuard
        sourceIP := (sameIP_recovered_iff libs source).mp same.sourceIP
        ip := (sameIP_recovered_iff libs ip).mp same.ip }
  · intro h
    exact
      { queryType := rfl, network := rfl, domainKeyword := rfl, domainRegex := rfl
        sourcePort := rfl, sourcePortRange := rfl, port := rfl, portRange := rfl
        processName := rfl, processPath := rfl, processPathRegex := rfl, packageName := rfl
        networkType := rfl, networkIsExpensive := rfl, networkIsConstrained := rfl
        wifiSSID := rfl, wifiBSSID := rfl, invert := rfl
        names := (sameNames_recovered_iff libs version rule).mpr h.matcher
        adGuard := (sameAdGuard_recovered_iff libs version rule).mpr h.adGuard
        sourceIP := (sameIP_recovered_iff libs source).mpr h.sourceIP
        ip := (sameIP_recovered_iff libs ip).mpr h.ip
        tunnelSource := h.tunnelSource.symm
        tunnelDestination := h.tunnelDestination.symm
        addresses := addresses_recovered libs version rule
        defaultInterfaceAddress := build_built rule.defaultInterfaceAddress }

mutual

def recoveredRule (libs : Libraries M A) (version : UInt8) : HeadlessRule M A → HeadlessRule M A
  | .default options => .default (recovered libs version options)
  | .logical mode rules invert => .logical mode (recoveredRules libs version rules) invert
  | .other type => .other type

def recoveredRules (libs : Libraries M A) (version : UInt8) :
    List (HeadlessRule M A) → List (HeadlessRule M A)
  | [] => []
  | rule :: rules => recoveredRule libs version rule :: recoveredRules libs version rules

def RuleInMemory : HeadlessRule M A → Prop
  | .default options => InMemory options
  | .logical _ rules _ => headlessRuleSize * rules.length ≤ 2 ^ 48 ∧ RulesInMemory rules
  | .other _ => True

def RulesInMemory : List (HeadlessRule M A) → Prop
  | [] => True
  | rule :: rules => RuleInMemory rule ∧ RulesInMemory rules

end

theorem writeRule_logical {mode : Mode} {invert : Bool}
    (written : writeRule libs version (.logical mode rules invert) = .ok bs) :
    ∃ code body, modeOf code = .ok mode ∧
      writeRules libs version rules = .ok body ∧
      bs = [1] ++ ([code] ++ (uvarint rules.length ++ (body ++ [boolByte invert]))) := by
  rw [writeRule] at written
  unfold writeLogicalRule at written
  obtain ⟨code, known, h⟩ := bind_eq_ok written
  obtain ⟨body, writtenRules, h⟩ := bind_eq_ok h
  cases h
  refine ⟨code, body, ?_, writtenRules, by simp⟩
  cases mode with
  | and | or => cases known; rfl
  | other => cases known

theorem writeRules_cons {rule : HeadlessRule M A}
    (written : writeRules libs version (rule :: rules) = .ok bs) :
    ∃ first more, writeRule libs version rule = .ok first ∧
      writeRules libs version rules = .ok more ∧ bs = first ++ more := by
  rw [writeRules] at written
  obtain ⟨first, hFirst, h⟩ := bind_eq_ok written
  obtain ⟨more, hMore, h⟩ := bind_eq_ok h
  cases h
  exact ⟨first, more, hFirst, hMore, rfl⟩

mutual

theorem sameRule_recovered_iff {libs : Libraries M A} {version : UInt8} :
    (rule : HeadlessRule M A) → {bs : Bytes} → writeRule libs version rule = .ok bs →
      (SameRule libs (recoveredRule libs version rule) rule ↔ RecoverableRule libs rule)
  | .default options, _, written => by
    rw [writeRule] at written
    simp only [recoveredRule, SameRule, RecoverableRule]
    exact sameConditions_recovered_iff written
  | .logical mode rules invert, bs, written => by
    obtain ⟨_, _, _, writtenRules, _⟩ := writeRule_logical written
    simp only [recoveredRule, SameRule, RecoverableRule, true_and, and_true,
      sameRules_recovered_iff rules writtenRules]
  | .other _, _, written => by
    rw [writeRule] at written
    cases written

theorem sameRules_recovered_iff {libs : Libraries M A} {version : UInt8} :
    (rules : List (HeadlessRule M A)) → {bs : Bytes} → writeRules libs version rules = .ok bs →
      (SameRules libs (recoveredRules libs version rules) rules ↔ RecoverableRules libs rules)
  | [], _, _ => by simp only [recoveredRules, SameRules, RecoverableRules]
  | rule :: rules, bs, written => by
    obtain ⟨_, _, first, more, _⟩ := writeRules_cons written
    simp only [recoveredRules, SameRules, RecoverableRules, sameRule_recovered_iff rule first,
      sameRules_recovered_iff rules more]

end

theorem reads_logical {readRule : Reader String (HeadlessRule M A)} {mode : Mode} {code : UInt8}
    {length : Nat} {invert : Bool} {body : Bytes} (known : modeOf code = .ok mode)
    (inMemory : headlessRuleSize * length ≤ 2 ^ 48)
    (nested : Reads (.times (fun i => readRule.mapErr (cause s!"read logical rule [{i}]")) 0 length)
      body rules) :
    Reads (readLogicalRule readRule) ([code] ++ (uvarint length ++ (body ++ [boolByte invert])))
      (.logical mode rules invert) := by
  have short : length < 2 ^ 64 := by
    unfold headlessRuleSize at inMemory
    omega
  refine (reads_byte code).bind ((Reads.lift known).bind ((reads_uvarint short).bind ?_))
  exact (Reads.lift (makeSlice_ok inMemory)).bind (nested.bind (reads_bool invert).map)

mutual

/-- A rule that was written is read as the recovered one, with fuel for its bytes. -/
theorem reads_rule {libs : Libraries M A} {version : UInt8} :
    (rule : HeadlessRule M A) → RuleInMemory rule → {bs : Bytes} →
      writeRule libs version rule = .ok bs → (fuel : Nat) → bs.length ≤ fuel →
      Reads (readRule libs true fuel) bs (recoveredRule libs version rule)
  | .default options, inMemory, bs, written, fuel, enough => by
    rw [writeRule] at written
    rw [RuleInMemory] at inMemory
    obtain ⟨items, rfl, reads⟩ := reads_default inMemory written
    rw [length_append, length_singleton] at enough
    obtain ⟨fuel, rfl⟩ : ∃ n, fuel = n + 1 := ⟨fuel - 1, by omega⟩
    rw [readRule, recoveredRule]
    exact (reads_byte 0).bind (reads fuel (by omega)).map
  | .logical mode rules invert, inMemory, bs, written, fuel, enough => by
    rw [RuleInMemory] at inMemory
    obtain ⟨code, body, known, writtenRules, rfl⟩ := writeRule_logical written
    simp only [length_append, length_singleton] at enough
    obtain ⟨fuel, rfl⟩ : ∃ n, fuel = n + 1 := ⟨fuel - 1, by omega⟩
    have nested := reads_rules rules inMemory.2 writtenRules fuel (by omega)
      (fun i => s!"read logical rule [{i}]") 0
    rw [readRule, recoveredRule]
    exact (reads_byte 1).bind (reads_logical known inMemory.1 nested)
  | .other _, _, _, written, _, _ => by
    rw [writeRule] at written
    cases written

/-- The loop over the rules, whatever it says about the errors of one. -/
theorem reads_rules {libs : Libraries M A} {version : UInt8} :
    (rules : List (HeadlessRule M A)) → RulesInMemory rules → {bs : Bytes} →
      writeRules libs version rules = .ok bs → (fuel : Nat) → bs.length ≤ fuel →
      (texts : Nat → String) → (i : Nat) →
      Reads (.times (fun i => (readRule libs true fuel).mapErr (cause (texts i))) i rules.length) bs
        (recoveredRules libs version rules)
  | [], _, bs, written, _, _, _, _ => by
    rw [writeRules] at written
    cases written
    rw [recoveredRules]
    exact .pure []
  | rule :: rules, inMemory, bs, written, fuel, enough, texts, i => by
    rw [RulesInMemory] at inMemory
    obtain ⟨first, more, hFirst, hMore, rfl⟩ := writeRules_cons written
    rw [length_append] at enough
    have head := reads_rule rule inMemory.1 hFirst fuel (by omega)
    have tail := reads_rules rules inMemory.2 hMore fuel (by omega) texts (i + 1)
    rw [recoveredRules]
    exact (head.mapErr _).times_cons tail

end

theorem readHeader_magic (rest : Bytes) :
    readHeader (magicBytes ++ [version] ++ rest) =
      if version > ruleSetVersionCurrent then some (.err s!"unsupported version: {version}")
      else some (.ok (version, rest)) := by
  have magic : Reads (readFull 3) magicBytes magicBytes := reads_full rfl
  rw [append_assoc, readHeader]
  show Reader.bind (readFull 3) _ (magicBytes ++ ([version] ++ rest)) = _
  rw [Reader.bind, magic]
  show Reader.bind (.lift (checkVersion version)) _ rest = _
  unfold Reader.bind Reader.lift checkVersion
  by_cases later : version > ruleSetVersionCurrent
  · rw [if_pos later, if_pos later]
    rfl
  · rw [if_neg later, if_neg later]
    rfl

/-- `Read` on what `Write` wrote: the recovered rules, or an error for a version that is not
supported yet. -/
theorem read_write (inMemory : headlessRuleSize * rules.length ≤ 2 ^ 48 ∧ RulesInMemory rules)
    (written : write libs rules version = .ok bs) :
    read libs true bs =
      if version > ruleSetVersionCurrent then some (.err s!"unsupported version: {version}")
      else some (.ok ⟨version, recoveredRules libs version rules⟩) := by
  obtain ⟨body, writtenRules, h⟩ := bind_eq_ok written
  cases h
  have short : rules.length < 2 ^ 64 := by
    have := inMemory.1
    unfold headlessRuleSize at this
    omega
  rw [read, readHeader_magic]
  by_cases later : version > ruleSetVersionCurrent
  · rw [if_pos later, if_pos later]
  · rw [if_neg later, if_neg later]
    have all := reads_rules rules inMemory.2 writtenRules
      ((uvarint rules.length ++ body).length + 1) (by rw [length_append]; omega)
      (fun i => s!"read rule[{i}]") 0
    have file : Reads (readRules libs true ((uvarint rules.length ++ body).length + 1))
        (uvarint rules.length ++ body) (recoveredRules libs version rules) :=
      (reads_uvarint short).bind ((Reads.lift (makeSlice_ok inMemory.1)).bind all)
    have plain := file []
    rw [append_nil] at plain
    simp only [libs.inflate_deflate, plain]

/-- Rules that can be written come back, with their version and the same conditions at every
depth, exactly when the version is one that `Read` knows and nothing of them is left out. -/
theorem read_write_iff {libs : Libraries M A} {version : UInt8} {rules : List (HeadlessRule M A)}
    {bs : Bytes} (inMemory : headlessRuleSize * rules.length ≤ 2 ^ 48 ∧ RulesInMemory rules)
    (written : write libs rules version = .ok bs) :
    (∃ back, read libs true bs = some (.ok ⟨version, back⟩) ∧ SameRules libs back rules) ↔
      version ≤ ruleSetVersionCurrent ∧ RecoverableRules libs rules := by
  obtain ⟨_, writtenRules, _⟩ := bind_eq_ok written
  rw [read_write inMemory written, ← sameRules_recovered_iff rules writtenRules]
  by_cases later : version > ruleSetVersionCurrent
  · grind
  · grind

/-! ## Plain libraries

Libraries that do the least their laws ask for: texts are marked byte by byte, `zlib` and the
matchers keep what they are given, and no IP set can be built. -/

def markText (t : Bytes) : Bytes := t.flatMap fun b => [1, b]

def writeTexts (ts : List Bytes) : Bytes := (ts.flatMap fun t => [2] ++ markText t) ++ [0]

/-- The text that the stream begins in, and the texts after it. -/
def readMarked : Bytes → Option ((Bytes × List Bytes) × Bytes)
  | 0 :: rest => some (([], []), rest)
  | 1 :: b :: rest => (readMarked rest).map fun r => ((b :: r.1.1, r.1.2), r.2)
  | 2 :: rest => (readMarked rest).map fun r => (([], r.1.1 :: r.1.2), r.2)
  | _ => none

def readTexts : Reader String (List Bytes) := fun bs =>
  match readMarked bs with
  | some (r, rest) => some (.ok (r.2, rest))
  | none => some (.err unexpectedEOF)

theorem readMarked_text (t bs : Bytes) :
    readMarked (markText t ++ bs) = (readMarked bs).map fun r => ((t ++ r.1.1, r.1.2), r.2) := by
  induction t with
  | nil => simp [markText]
  | cons b t ih =>
    show readMarked (1 :: b :: (markText t ++ bs)) = _
    rw [readMarked, ih, Option.map_map]
    rfl

theorem readMarked_texts (ts : List Bytes) (rest : Bytes) :
    readMarked (writeTexts ts ++ rest) = some (([], ts), rest) := by
  induction ts with
  | nil => rfl
  | cons t ts ih => grind [writeTexts, readMarked, readMarked_text, append_assoc]

def texts : Codec String (List Bytes) where
  write := writeTexts
  read := readTexts
  reads ts rest := by rw [readTexts, readMarked_texts]

def via {α β : Type} (codec : Codec String β) (f : α → β) (g : β → α) (h : ∀ a, g (f a) = a) :
    Codec String α where
  write a := codec.write (f a)
  read := do return g (← codec.read)
  reads a := by
    have := (codec.reads (f a)).map (f := g)
    rwa [h] at this

/-- Two values one after the other. -/
def both {α β : Type} (first : Codec String α) (second : Codec String β) :
    Codec String (α × β) where
  write p := first.write p.1 ++ second.write p.2
  read := do
    let a ← first.read
    return (a, ← second.read)
  reads p := (first.reads p.1).bind (second.reads p.2).map

theorem uint16_bigEndian (ns : List UInt16) :
    (ns.map fun n => bigEndian 2 n.toNat).map (fun t => UInt16.ofNat (fromBigEndian t)) = ns := by
  rw [map_map]
  refine Eq.trans (map_inj_left.mpr fun n _ => ?_) (map_id ns)
  have small : n.toNat < 256 ^ 2 := n.toNat_lt
  rw [Function.comp, fromBigEndian_bigEndian small, UInt16.ofNat_toNat]
  rfl

/-- A `Codec` has no bound on the length; `varbin` itself gives up beyond `2 ^ 48` bytes. -/
def plainLibraries : Libraries (List Bytes × List Bytes) (List Bytes) where
  strings := texts
  uint16s := via texts (List.map fun n => bigEndian 2 n.toNat)
    (List.map fun t => UInt16.ofNat (fromBigEndian t)) uint16_bigEndian
  uint8s := via texts (fun b => [b]) (fun ts => ts.headD []) (fun _ => rfl)
  bytes := via texts (fun b => [b]) (fun ts => ts.headD []) (fun _ => rfl)
  rangeData := via texts (fun r => [r.1, r.2]) (fun ts => (ts.headD [], ts.tail.headD []))
    (fun _ => rfl)
  deflate bs := bs
  inflate bs := .ok bs
  inflate_deflate _ := rfl
  newMatcher domains suffixes _ := (domains, suffixes)
  matcher := both texts texts
  dump m := m
  mem_dump _ _ _ _ := ⟨.rfl, .rfl⟩
  newAdGuardMatcher rules := rules
  adGuardMatcher := texts
  dumpAdGuard rules := rules
  mem_dumpAdGuard _ _ := .rfl
  parsePrefix _ := .err "no prefixes"
  parseAddr _ := none
  prefixString _ := []
  buildIPSet _ := .err "no sets"
  prefixes _ := []
  parse_prefixes _ _ h := nomatch h
  build_zoneless _ _ h := nomatch h
  build_prefixes _ _ h := nomatch h

def nestedRules : List (HeadlessRule (List Bytes × List Bytes) (List Bytes)) :=
  [.logical .or
    [.default { domain := [utf8 "a.test"], domainSuffix := [utf8 ".b.test"] },
     .logical .and
      [.default { port := [443], networkType := [0], invert := true },
       .default { defaultInterfaceAddress := [none], networkIsExpensive := true }] true] false]

theorem nestedRules_come_back : ∃ bs back, write plainLibraries nestedRules 4 = .ok bs ∧
    read plainLibraries true bs = some (.ok ⟨4, back⟩) ∧
      SameRules plainLibraries back nestedRules := by
  have written : write plainLibraries nestedRules 4 = .ok _ := rfl
  have inMemory : headlessRuleSize * nestedRules.length ≤ 2 ^ 48 ∧ RulesInMemory nestedRules := by
    refine ⟨by decide, ?_⟩
    simp only [nestedRules, RulesInMemory, RuleInMemory, and_true]
    exact ⟨by decide, ⟨nofun, by decide⟩, by decide, ⟨nofun, by decide⟩, ⟨nofun, by decide⟩⟩
  have recoverable : RecoverableRules plainLibraries nestedRules := by
    simp only [nestedRules, RecoverableRules, RecoverableRule, and_true]
    exact ⟨⟨rfl, rfl, fun _ => rfl, fun _ => rfl, rfl, rfl⟩,
      ⟨rfl, rfl, fun _ => rfl, fun _ => rfl, rfl, rfl⟩,
      ⟨rfl, rfl, fun _ => rfl, fun _ => rfl, rfl, rfl⟩⟩
  obtain ⟨back, h⟩ := (read_write_iff inMemory written).mpr ⟨by decide, recoverable⟩
  exact ⟨_, back, written, h⟩

def tunnelRules : List (HeadlessRule (List Bytes × List Bytes) (List Bytes)) :=
  [.default { tunnelSource := [utf8 "a"] }]

def portRules : List (HeadlessRule (List Bytes × List Bytes) (List Bytes)) :=
  [.default { port := [443] }]

/-- The source of a tunnel is not written; version 5 is written and not read. -/
theorem tunnelSource_lost :
    (∃ bs, write plainLibraries tunnelRules 4 = .ok bs ∧
      ¬ ∃ back, read plainLibraries true bs = some (.ok ⟨4, back⟩) ∧
        SameRules plainLibraries back tunnelRules) ∧
    (∃ bs, write plainLibraries portRules 5 = .ok bs ∧
      read plainLibraries true bs = some (.err "unsupported version: 5")) := by
  have tunnel : headlessRuleSize * tunnelRules.length ≤ 2 ^ 48 ∧ RulesInMemory tunnelRules := by
    simp only [tunnelRules, RulesInMemory, RuleInMemory, and_true]
    exact ⟨by decide, nofun, by decide⟩
  have port : headlessRuleSize * portRules.length ≤ 2 ^ 48 ∧ RulesInMemory portRules := by
    simp only [portRules, RulesInMemory, RuleInMemory, and_true]
    exact ⟨by decide, nofun, by decide⟩
  constructor
  · refine ⟨_, rfl, ?_⟩
    rintro ⟨back, come, same⟩
    rw [read_write tunnel rfl, if_neg (by decide)] at come
    cases come
    simp only [tunnelRules, recoveredRules, recoveredRule, SameRules, SameRule, and_true] at same
    exact absurd same.tunnelSource (by decide)
  · refine ⟨_, rfl, ?_⟩
    have text : "unsupported version: " ++
      toString (5 : UInt8) = "unsupported version: 5" := by decide
    rw [read_write port rfl, if_pos (by decide), ← text]
    rfl

end AiboosterEngine.Srs
