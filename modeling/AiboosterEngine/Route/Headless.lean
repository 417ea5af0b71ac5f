import AiboosterEngine.Route.Items
import AiboosterEngine.Route.RuleSet

/-!
# What a headless rule enforces

`NewDefaultHeadlessRule` turns the fields of the options one by one into items.
A rule should not match metadata that satisfy no alternative of a condition
written in it.
-/

namespace AiboosterEngine.Route
open GoSem List AbstractDefaultRule

/-- The fields of `option.DefaultHeadlessRule` that hold a condition. `domain` stands for the two
lists that go into one matcher, `domain` and `domain_suffix`. -/
inductive Field where
  | queryType | network | domain | domainMatcher | domainKeyword | domainRegex
  | sourceIPCIDR | sourceIPSet | ipCIDR | ipSet
  | sourcePort | sourcePortRange | port | portRange
  | tunnelSource | tunnelDestination
  | processName | processPath | processPathRegex | packageName
  | networkType | networkIsExpensive | networkIsConstrained | wifiSSID | wifiBSSID
  | networkInterfaceAddress | defaultInterfaceAddress
  | adGuardDomain | adGuardDomainMatcher
  deriving DecidableEq, Repr

/-- The lists of `abstractDefaultRule`. -/
inductive Place where
  | items | sourceAddress | sourcePort | destinationAddress | destinationIPCIDR | destinationPort
  deriving DecidableEq, Repr

def Field.place : Field → Place
  | .domain | .domainMatcher | .domainKeyword | .domainRegex | .adGuardDomain
  | .adGuardDomainMatcher => .destinationAddress
  | .sourceIPCIDR | .sourceIPSet => .sourceAddress
  | .ipCIDR | .ipSet => .destinationIPCIDR
  | .sourcePort | .sourcePortRange => .sourcePort
  | .port | .portRange => .destinationPort
  | _ => .items

/-- The fields behind `networkManager != nil`. -/
def Field.ofNetworkManager : Field → Bool
  | .networkType | .networkIsExpensive | .networkIsConstrained | .wifiSSID | .wifiBSSID
  | .networkInterfaceAddress | .defaultInterfaceAddress => true
  | _ => false

section
variable {M A R : Type}

/-- The field holds a condition. -/
def Field.written (o : Options M A) : Field → Bool
  | .queryType => !o.queryType.isEmpty
  | .network => !o.network.isEmpty
  | .domain => !o.domain.isEmpty || !o.domainSuffix.isEmpty
  | .domainMatcher => o.domainMatcher.isSome
  | .domainKeyword => !o.domainKeyword.isEmpty
  | .domainRegex => !o.domainRegex.isEmpty
  | .sourceIPCIDR => !o.sourceIPCIDR.isEmpty
  | .sourceIPSet => o.sourceIPSet.isSome
  | .ipCIDR => !o.ipCIDR.isEmpty
  | .ipSet => o.ipSet.isSome
  | .sourcePort => !o.sourcePort.isEmpty
  | .sourcePortRange => !o.sourcePortRange.isEmpty
  | .port => !o.port.isEmpty
  | .portRange => !o.portRange.isEmpty
  | .tunnelSource => !o.tunnelSource.isEmpty
  | .tunnelDestination => !o.tunnelDestination.isEmpty
  | .processName => !o.processName.isEmpty
  | .processPath => !o.processPath.isEmpty
  | .processPathRegex => !o.processPathRegex.isEmpty
  | .packageName => !o.packageName.isEmpty
  | .networkType => !o.networkType.isEmpty
  | .networkIsExpensive => o.networkIsExpensive
  | .networkIsConstrained => o.networkIsConstrained
  | .wifiSSID => !o.wifiSSID.isEmpty
  | .wifiBSSID => !o.wifiBSSID.isEmpty
  | .networkInterfaceAddress => o.networkInterfaceAddress.any (!·.entries.isEmpty)
  | .defaultInterfaceAddress => !o.defaultInterfaceAddress.isEmpty
  | .adGuardDomain => !o.adGuardDomain.isEmpty
  | .adGuardDomainMatcher => o.adGuardDomainMatcher.isSome

/-- A binary form of a list is used when the list is empty. -/
def Field.replacedBy : Field → Option Field
  | .domainMatcher => some .domain
  | .sourceIPSet => some .sourceIPCIDR
  | .ipSet => some .ipCIDR
  | .adGuardDomainMatcher => some .adGuardDomain
  | _ => none

/-- An item that a nil pointer would make; it is not used. -/
def noItem : Item := .other fun _ => false

variable (p : Packages M A R)

/-- The item for the condition of a field, with the error as `NewDefaultHeadlessRule` returns it. -/
def Field.item (o : Options M A) : Field → Except BuildError Item
  | .queryType => .ok (newQueryTypeItem o.queryType)
  | .network => .ok (newNetworkItem o.network)
  | .domain => newDomainItem p o.domain o.domainSuffix
  | .domainMatcher => .ok ((o.domainMatcher.map (newRawDomainItem p)).getD noItem)
  | .domainKeyword => .ok (newDomainKeywordItem p o.domainKeyword)
  | .domainRegex => (newDomainRegexItem p o.domainRegex).mapError (.inField "domain_regex")
  | .sourceIPCIDR => (newIPCIDRItem p true o.sourceIPCIDR).mapError (.inField "source_ip_cidr")
  | .sourceIPSet => .ok ((o.sourceIPSet.map (newRawIPCIDRItem p true)).getD noItem)
  | .ipCIDR => (newIPCIDRItem p false o.ipCIDR).mapError (.inField "ipcidr")
  | .ipSet => .ok ((o.ipSet.map (newRawIPCIDRItem p false)).getD noItem)
  | .sourcePort => .ok (newPortItem true o.sourcePort)
  | .sourcePortRange =>
    (newPortRangeItem p true o.sourcePortRange).mapError (.inField "source_port_range")
  | .port => .ok (newPortItem false o.port)
  | .portRange => (newPortRangeItem p false o.portRange).mapError (.inField "port_range")
  | .tunnelSource => .ok (newTunnelSourceItem o.tunnelSource)
  | .tunnelDestination => .ok (newTunnelDestinationItem o.tunnelDestination)
  | .processName => .ok (newProcessItem p o.processName)
  | .processPath => .ok (newProcessPathItem o.processPath)
  | .processPathRegex =>
    (newProcessPathRegexItem p o.processPathRegex).mapError (.inField "process_path_regex")
  | .packageName => .ok (newPackageNameItem o.packageName)
  | .networkType => .ok (newNetworkTypeItem o.networkType)
  | .networkIsExpensive => .ok newNetworkIsExpensiveItem
  | .networkIsConstrained => .ok newNetworkIsConstrainedItem
  | .wifiSSID => .ok (newWIFISSIDItem o.wifiSSID)
  | .wifiBSSID => .ok (newWIFIBSSIDItem o.wifiBSSID)
  | .networkInterfaceAddress =>
    .ok ((o.networkInterfaceAddress.map (newNetworkInterfaceAddressItem p)).getD noItem)
  | .defaultInterfaceAddress => .ok (newDefaultInterfaceAddressItem p o.defaultInterfaceAddress)
  | .adGuardDomain => .ok (newAdGuardDomainItem p o.adGuardDomain)
  | .adGuardDomainMatcher =>
      .ok ((o.adGuardDomainMatcher.map (newRawAdGuardDomainItem p)).getD noItem)

/-- The blocks of `NewDefaultHeadlessRule`. There is none for `query_type`. -/
def blocks : List Field :=
  [.network, .domain, .domainMatcher, .domainKeyword, .domainRegex, .sourceIPCIDR, .sourceIPSet,
    .ipCIDR, .ipSet, .sourcePort, .sourcePortRange, .port, .portRange, .tunnelSource,
    .tunnelDestination, .processName, .processPath, .processPathRegex, .packageName, .networkType,
    .networkIsExpensive, .networkIsConstrained, .wifiSSID, .wifiBSSID, .networkInterfaceAddress,
    .defaultInterfaceAddress, .adGuardDomain, .adGuardDomainMatcher]

variable (networkManager : Bool)

/-- The `if` of a block. -/
def Field.taken (o : Options M A) (f : Field) : Bool :=
  f.written o && (!f.ofNetworkManager || networkManager) && !f.replacedBy.any (·.written o)

/-- The blocks one after the other: each appends its item or returns its error. -/
def runBlocks (p : Packages M A R) (networkManager : Bool) (o : Options M A) :
    List Field → Except BuildError (List (Place × Item))
  | [] => .ok []
  | f :: fields =>
    if f.taken networkManager o then do
      let item ← f.item p o
      let rest ← runBlocks p networkManager o fields
      return (f.place, item) :: rest
    else runBlocks p networkManager o fields

/-- What has been appended to a list of the rule. -/
def appended (found : List (Place × Item)) (place : Place) : List Item :=
  (found.filter (·.1 = place)).map Prod.snd

/-- The constructor; the context has a network manager or none. -/
def newDefaultHeadlessRule (o : Options M A) :
    Except BuildError (DefaultHeadlessRule Addr Request) := do
  let found ← runBlocks p networkManager o blocks
  return {
    items := appended found .items
    sourceAddressItems := appended found .sourceAddress
    sourcePortItems := appended found .sourcePort
    destinationAddressItems := appended found .destinationAddress
    destinationIPCIDRItems := appended found .destinationIPCIDR
    destinationPortItems := appended found .destinationPort
    invert := o.invert }

/-- The group a list of the rule belongs to; each plain item is a condition of its own. -/
def Place.group : Place → Option Group
  | .items => none
  | .sourceAddress => some .sourceAddress
  | .sourcePort => some .sourcePort
  | .destinationAddress | .destinationIPCIDR => some .destinationAddress
  | .destinationPort => some .destinationPort

/-- The fields are alternatives of one condition. -/
def Field.Alternative (f f' : Field) : Prop :=
  f' = f ∨ f.place.group ≠ none ∧ f'.place.group = f.place.group

section
variable (o : Options M A)

section
variable (m : InboundContext Addr Request) (f : Field)

/-- The metadata satisfy the condition written in the field. -/
def Field.Satisfied : Prop :=
  ∃ item, f.item p o = .ok item ∧ item.matches m = true

/-- The metadata satisfy an alternative of the condition the field belongs to. -/
def Field.Met : Prop :=
  ∃ f', f.Alternative f' ∧ f'.written o = true ∧ f'.Satisfied p o m

/-- The condition of the field is left out: there is no block for `query_type`, the conditions on
the network need a network manager, and `ip_cidr` can be put off by the metadata. -/
def Field.dropped : Bool :=
  f = .queryType || (f.ofNetworkManager && !networkManager) ||
    (m.ignoreDestinationIPCIDRMatch && f.place = .destinationIPCIDR)

/-- The field has an item in the rule, and the rule looks at it. -/
def Field.counts : Bool :=
  f.written o && !f.dropped networkManager m && !f.replacedBy.any (·.written o)

/-- Some alternative that counts is satisfied. -/
def Field.MetByItem : Prop :=
  ∃ f', f.Alternative f' ∧ f'.counts networkManager o m = true ∧ f'.Satisfied p o m

end

/-- The rule matches no metadata that satisfy no alternative of a condition written in it. -/
def Enforces (rule : DefaultHeadlessRule Addr Request) (m : InboundContext Addr Request) : Prop :=
  ∀ f : Field, f.written o = true → ¬ f.Met p o m → (rule.matches matchPlainItem m).1 = false

end

theorem mem_blocks (f : Field) : f ∈ blocks ↔ f ≠ .queryType := by
  cases f <;> decide

variable {found : List (Place × Item)}

theorem runBlocks_ok {p : Packages M A R} {networkManager : Bool} {o : Options M A}
    {fields : List Field} (h : runBlocks p networkManager o fields = .ok found) :
    (∀ f ∈ fields, f.taken networkManager o = true → ∃ item, f.item p o = .ok item) ∧
    ∀ place item, (place, item) ∈ found ↔ ∃ f ∈ fields, f.taken networkManager o = true ∧
      f.place = place ∧ f.item p o = .ok item := by
  induction fields generalizing found with
  | nil =>
    cases h
    exact ⟨nofun, fun place item => ⟨nofun, nofun⟩⟩
  | cons f fields ih =>
    unfold runBlocks at h
    by_cases taken : f.taken networkManager o = true
    · rw [if_pos taken] at h
      match made : f.item p o, h with
      | .ok item, h =>
        match more : runBlocks p networkManager o fields, h with
        | .ok rest, h =>
          cases h
          obtain ⟨ok, mem⟩ := ih more
          constructor
          · grind
          · grind
    · grind

section
variable {p : Packages M A R} {networkManager : Bool} {o : Options M A}
  {rule : DefaultHeadlessRule Addr Request} {m : InboundContext Addr Request}

theorem mem_appended (found : List (Place × Item)) (place : Place) (item : Item) :
    item ∈ appended found place ↔ (place, item) ∈ found := by
  unfold appended
  rw [mem_map]
  constructor
  · grind
  · intro mem
    exact ⟨(place, item), mem_filter.mpr ⟨mem, decide_eq_true rfl⟩, rfl⟩

theorem counts_taken (f : Field) : f.counts networkManager o m = true ↔
    f ∈ blocks ∧ f.taken networkManager o = true ∧
      ¬ (m.ignoreDestinationIPCIDRMatch = true ∧ f.place = .destinationIPCIDR) := by
  rw [mem_blocks]
  unfold Field.counts Field.taken Field.dropped
  simp only [Bool.and_eq_true, Bool.not_eq_true', Bool.or_eq_false_iff, decide_eq_false_iff_not,
    Bool.and_eq_false_iff, Bool.or_eq_true, Bool.not_eq_false']
  grind

theorem mem_only {ignore : Bool} {g : Group} {item : Item} {place : Place}
    (group : place.group = some g) (only : ∀ other : Place, other.group = some g → other = place)
    (looked : place ≠ .destinationIPCIDR) :
    item ∈ appended found place ↔ ∃ other : Place, other.group = some g ∧
      ¬ (ignore = true ∧ other = .destinationIPCIDR) ∧ item ∈ appended found other := by
  constructor
  · intro mem
    exact ⟨place, group, fun ignored => looked ignored.2, mem⟩
  · rintro ⟨other, same, _, mem⟩
    rw [only other same] at mem
    exact mem

theorem mem_groupItems (found : List (Place × Item)) {ignore : Bool} {g : Group} {item : Item}
    (sourceAddress : rule.sourceAddressItems = appended found .sourceAddress)
    (sourcePort : rule.sourcePortItems = appended found .sourcePort)
    (destinationAddress : rule.destinationAddressItems = appended found .destinationAddress)
    (destinationIPCIDR : rule.destinationIPCIDRItems = appended found .destinationIPCIDR)
    (destinationPort : rule.destinationPortItems = appended found .destinationPort) :
    item ∈ rule.groupItems ignore g ↔ ∃ place : Place, place.group = some g ∧
      ¬ (ignore = true ∧ place = .destinationIPCIDR) ∧ item ∈ appended found place := by
  cases g with
  | sourceAddress =>
    rw [groupItems, sourceAddress]
    exact mem_only rfl (by intro other same; cases other <;> first | rfl | cases same) (by decide)
  | sourcePort =>
    rw [groupItems, sourcePort]
    exact mem_only rfl (by intro other same; cases other <;> first | rfl | cases same) (by decide)
  | destinationPort =>
    rw [groupItems, destinationPort]
    exact mem_only rfl (by intro other same; cases other <;> first | rfl | cases same) (by decide)
  | destinationAddress =>
    rw [groupItems, destinationAddress, destinationIPCIDR, mem_append]
    constructor
    · rintro (mem | mem)
      · exact ⟨.destinationAddress, rfl, by simp, mem⟩
      · cases ignore with
        | true => cases mem
        | false => exact ⟨.destinationIPCIDR, rfl, by simp, mem⟩
    · rintro ⟨place, group, looked, mem⟩
      cases place <;> cases group
      · exact .inl mem
      · right
        rw [if_neg (fun ignored => looked ⟨ignored, rfl⟩)]
        exact mem

/-- The items of a rule are those of the fields that count, each in the list of its field. -/
theorem fields_of_rule (built : newDefaultHeadlessRule p networkManager o = .ok rule) :
    rule.invert = o.invert ∧
    (∀ f : Field, f.counts networkManager o m = true → ∃ item, f.item p o = .ok item) ∧
    (∀ item, item ∈ rule.items ↔ ∃ f : Field, f.counts networkManager o m = true ∧
      f.place.group = none ∧ f.item p o = .ok item) ∧
    ∀ g item, item ∈ rule.groupItems m.ignoreDestinationIPCIDRMatch g ↔
      ∃ f : Field, f.counts networkManager o m = true ∧ f.place.group = some g ∧
        f.item p o = .ok item := by
  unfold newDefaultHeadlessRule at built
  match ran : runBlocks p networkManager o blocks, built with
  | .ok found, built =>
    cases built
    obtain ⟨ok, mem⟩ := runBlocks_ok ran
    have at_ : ∀ place item, item ∈ appended found place ↔ ∃ f ∈ blocks,
        f.taken networkManager o = true ∧ f.place = place ∧ f.item p o = .ok item := by
      intro place item
      rw [mem_appended, mem]
    refine ⟨rfl, ?_, ?_, ?_⟩
    · grind [counts_taken]
    · intro item
      rw [at_]
      constructor
      · rintro ⟨f, inside, taken, place, made⟩
        exact ⟨f, (counts_taken f).mpr ⟨inside, taken, by simp [place]⟩, by rw [place]; rfl, made⟩
      · rintro ⟨f, counts, group, made⟩
        obtain ⟨inside, taken, _⟩ := (counts_taken f).mp counts
        refine ⟨f, inside, taken, ?_, made⟩
        cases place : f.place <;> simp [place, Place.group] at group
        rfl
    · grind [mem_groupItems, counts_taken]

theorem matches_iff_holds (straight : rule.invert = false) :
    (rule.matches matchPlainItem m).1 = true ↔ Holds rule m := by
  rw [matches_plain_fst, straight]
  constructor
  · rintro (nothing | ⟨holds, _⟩ | ⟨_, inverted⟩)
    · refine ⟨?_, fun g present => ?_⟩
      · simp only [noItems, Bool.and_eq_true, List.isEmpty_iff] at nothing
        rw [nothing.1.1.1.1.1]
        exact forall_mem_nil _
      · rw [noItems_present nothing] at present
        cases present
    · exact holds
    · cases inverted
  · intro holds
    exact .inr (.inl ⟨holds, .inl rfl⟩)

/-- A rule that is not inverted matches when all its conditions are met by items. -/
theorem matches_iff_metByItem (built : newDefaultHeadlessRule p networkManager o = .ok rule)
    (straight : o.invert = false) (fresh : m.resetRuleCache = m) :
    (rule.matches matchPlainItem m).1 = true ↔
      ∀ f : Field, f.counts networkManager o m = true → f.MetByItem p networkManager o m := by
  obtain ⟨invert, ok, plain, groups⟩ := fields_of_rule (m := m) built
  rw [matches_iff_holds (invert.trans straight)]
  constructor
  · intro holds f counts
    obtain ⟨item, made⟩ := ok f counts
    cases group : f.place.group with
    | none =>
      have mem := (plain item).mpr ⟨f, counts, group, made⟩
      exact ⟨f, .inl rfl, counts, item, made, holds.plain item mem⟩
    | some g =>
      have mem := (groups g item).mpr ⟨f, counts, group, made⟩
      have present : rule.present m g = true := by
        simp [present, ne_nil_of_mem mem]
      rcases holds.covered g present with flagged | own
      · rw [flag_of_fresh fresh] at flagged
        cases flagged
      · obtain ⟨item', mem', hit⟩ := any_eq_true.mp own
        obtain ⟨f', counts', group', made'⟩ := (groups g item').mp mem'
        refine ⟨f', .inr ⟨?_, ?_⟩, counts', item', made', hit⟩
        · rw [group]
          exact Option.some_ne_none g
        · rw [group', group]
  · intro met
    constructor
    · intro item mem
      obtain ⟨f, counts, group, made⟩ := (plain item).mp mem
      obtain ⟨f', alternative, _, item', made', hit⟩ := met f counts
      rcases alternative with rfl | ⟨grouped, _⟩
      · rw [made] at made'
        cases made'
        exact hit
      · exact absurd group grouped
    · intro g present
      right
      obtain ⟨item, mem⟩ :=
        exists_mem_of_ne_nil _ (by simpa [AbstractDefaultRule.present] using present)
      obtain ⟨f, counts, group, made⟩ := (groups g item).mp mem
      obtain ⟨f', alternative, counts', item', made', hit⟩ := met f counts
      have group' : f'.place.group = some g := by
        rcases alternative with rfl | ⟨_, same⟩
        · exact group
        · exact same.trans group
      exact any_eq_true.mpr ⟨item', (groups g item').mpr ⟨f', counts', group', made'⟩, hit⟩

/-- A written field that is not dropped counts, or a list that counts is there in its place. -/
theorem counts_or_replaced {f : Field} (written : f.written o = true)
    (kept : f.dropped networkManager m = false) :
    ∃ f', f.Alternative f' ∧ f'.counts networkManager o m = true := by
  match same : f.replacedBy with
  | none => exact ⟨f, .inl rfl, by simp [Field.counts, written, kept, same]⟩
  | some list =>
    have like : f.Alternative list ∧ list.replacedBy = none ∧
        list.dropped networkManager m = f.dropped networkManager m := by
      cases f <;> cases same <;> exact ⟨.inr ⟨by decide, rfl⟩, rfl, rfl⟩
    obtain ⟨alternative, last, drop⟩ := like
    by_cases there : list.written o = true
    · exact ⟨list, alternative, by simp [Field.counts, there, drop, kept, last]⟩
    · exact ⟨f, .inl rfl, by simp [Field.counts, written, kept, same, there]⟩

theorem counts_written {f : Field} (h : f.counts networkManager o m = true) :
    f.written o = true := by
  unfold Field.counts at h
  simp only [Bool.and_eq_true] at h
  exact h.1.1

theorem Field.Alternative.trans {f f' f'' : Field} (h : f.Alternative f')
    (h' : f'.Alternative f'') :
    f.Alternative f'' := by
  rcases h with rfl | ⟨grouped, same⟩
  · exact h'
  · rcases h' with rfl | ⟨_, same'⟩
    · exact .inr ⟨grouped, same⟩
    · exact .inr ⟨grouped, same'.trans same⟩

/-- **What a headless rule enforces.** A rule that `NewDefaultHeadlessRule` accepts, without
`invert`, enforces every condition written in it on some metadata exactly when, for each condition
it drops there that is not met, some condition it keeps is not met either. -/
theorem headless_enforces_iff (built : newDefaultHeadlessRule p networkManager o = .ok rule)
    (straight : o.invert = false) (fresh : m.resetRuleCache = m) :
    Enforces p o rule m ↔
      ∀ f : Field, f.written o = true → f.dropped networkManager m = true → ¬ f.Met p o m →
        ∃ f' : Field, f'.counts networkManager o m = true ∧
          ¬ f'.MetByItem p networkManager o m := by
  have verdict := matches_iff_metByItem (m := m) built straight fresh
  have fails : (rule.matches matchPlainItem m).1 = false ↔
      ∃ f' : Field, f'.counts networkManager o m = true ∧
        ¬ f'.MetByItem p networkManager o m := by grind
  constructor
  · intro enforces f written _ unmet
    exact fails.mp (enforces f written unmet)
  · intro condition f written unmet
    rw [fails]
    cases drop : f.dropped networkManager m with
    | true => exact condition f written drop unmet
    | false =>
      obtain ⟨f', alternative, counts⟩ := counts_or_replaced written drop
      refine ⟨f', counts, ?_⟩
      rintro ⟨f'', alternative', counts', satisfied⟩
      exact unmet ⟨f'', alternative.trans alternative', counts_written counts', satisfied⟩

end

end

def plainPackages : Packages Unit Unit Unit where
  newMatcher _ _ _ := ()
  matchDomain _ _ := false
  newAdGuardMatcher _ := ()
  matchAdGuard _ _ := false
  compile _ := .ok ()
  matchString _ _ := false
  parsePrefix _ := .error "no slash"
  parseAddr _ := none
  buildIPSet _ := .ok ⟨[], by decide⟩
  contains _ _ := false
  overlaps _ _ := false
  parseUint16 _ := .error "invalid syntax"
  toLower := id
  base := id

def query : InboundContext Addr Request :=
  { connection := ⟨.zero, none, [], { queryType := 28, destinationPort := 53 }⟩ }

/-- `query_type` 1 and `port` 853: the port is not met, so that nothing is lost. -/
theorem otherPort_enforced :
    newDefaultHeadlessRule plainPackages true { queryType := [1], port := [853] } =
      .ok { destinationPortItems := [newPortItem false [853]] } ∧
    Enforces plainPackages { queryType := [1], port := [853] }
      { destinationPortItems := [newPortItem false [853]] } query := by
  have built : newDefaultHeadlessRule plainPackages true { queryType := [1], port := [853] } =
      .ok { destinationPortItems := [newPortItem false [853]] } := rfl
  refine ⟨built, (headless_enforces_iff built rfl rfl).mpr ?_⟩
  intro f _ _ _
  refine ⟨.port, by decide, ?_⟩
  rintro ⟨f', alternative, counts, item, made, hit⟩
  have port : f' = .port := by
    rcases alternative with same | ⟨_, same⟩
    · exact same
    · cases f' <;> first | rfl | (revert counts; decide)
  subst port
  cases made
  revert hit
  decide

/-- `query_type` 1 and `port` 53: the rule matches a query of type 28. -/
theorem queryType_ignored : ∃ rule,
    newDefaultHeadlessRule plainPackages true { queryType := [1], port := [53] } = .ok rule ∧
    (rule.matches matchPlainItem query).1 = true ∧
    ¬ Enforces plainPackages { queryType := [1], port := [53] } rule query := by
  refine ⟨{ destinationPortItems := [newPortItem false [53]] }, rfl, by decide, fun enforces => ?_⟩
  have lost := enforces .queryType (by decide) ?_
  · revert lost
    decide
  · rintro ⟨f', alternative, _, item, made, hit⟩
    rcases alternative with rfl | ⟨grouped, _⟩
    · cases made
      revert hit
      decide
    · exact absurd rfl grouped

end AiboosterEngine.Route
