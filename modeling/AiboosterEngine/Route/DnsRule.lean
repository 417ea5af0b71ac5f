import AiboosterEngine.Route.RuleSetItem

/-!
# DNS rules

`route/rule/rule_dns.go`. A DNS rule is matched twice: for the query, without
the conditions on the addresses of the answer, and then for each list of
addresses that is submitted to the response check. A logical rule resets the
rule cache before each of its sub-rules; a default rule does not, so a list
leaves its flags to the lists behind it.
-/

namespace AiboosterEngine.Route

open List InboundContext HeadlessRule

section
variable {Addr κ : Type}

abbrev DefaultDNSRule (Addr κ : Type) := AbstractDefaultRule Addr κ (PlainItem Addr κ)

inductive DNSRule (Addr κ : Type) where
  | default (r : AbstractDefaultRule Addr κ (PlainItem Addr κ))
  | logical (mode : LogicalMode) (rules : List (DNSRule Addr κ)) (invert : Bool)

open DNSRule

section
variable (leaf : DefaultDNSRule Addr κ → InboundContext Addr κ → Bool × InboundContext Addr κ)

mutual

/-- `Match` and `MatchAddressLimit` of a logical rule differ in what they do with default rules. -/
def DNSRule.matchesBy : DNSRule Addr κ → InboundContext Addr κ → Bool × InboundContext Addr κ
  | .default r, m => leaf r m
  | .logical .and rules invert, m =>
    let (all, m) := matchAllBy rules m
    (all != invert, m)
  | .logical .or rules invert, m =>
    let (any, m) := matchAnyBy rules m
    (any != invert, m)

def matchAllBy : List (DNSRule Addr κ) → InboundContext Addr κ → Bool × InboundContext Addr κ
  | [], m => (true, m)
  | rule :: rules, m =>
    let (ok, m) := rule.matchesBy m.resetRuleCache
    if ok then matchAllBy rules m else (false, m)

def matchAnyBy : List (DNSRule Addr κ) → InboundContext Addr κ → Bool × InboundContext Addr κ
  | [], m => (false, m)
  | rule :: rules, m =>
    let (ok, m) := rule.matchesBy m.resetRuleCache
    if ok then (true, m) else matchAnyBy rules m

end

end

def InboundContext.ignoring (ignore : Bool) (m : InboundContext Addr κ) : InboundContext Addr κ :=
  { m with ignoreDestinationIPCIDRMatch := ignore }

/-- `DefaultDNSRule.Match`. -/
def matchQuery (r : DefaultDNSRule Addr κ) (m : InboundContext Addr κ) :
    Bool × InboundContext Addr κ :=
  let (ok, m) := r.matches PlainItem.matches (m.ignoring true)
  (ok, m.ignoring false)

variable (rule : DNSRule Addr κ)

def DNSRule.matches : InboundContext Addr κ → Bool × InboundContext Addr κ :=
  rule.matchesBy matchQuery

def DNSRule.matchAddressLimit : InboundContext Addr κ → Bool × InboundContext Addr κ :=
  rule.matchesBy fun r => r.matches PlainItem.matches

mutual

/-- `ContainsIPCIDRRule` of the metadata of a rule-set. -/
def HeadlessRule.containsIPCIDRRule : HeadlessRule Addr κ → Bool
  | .default r => !r.destinationIPCIDRItems.isEmpty
  | .logical _ rules _ => containsIPCIDRRules rules

def containsIPCIDRRules : List (HeadlessRule Addr κ) → Bool
  | [] => false
  | rule :: rules => rule.containsIPCIDRRule || containsIPCIDRRules rules

end

def RuleSetItem.containsDestinationIPCIDRRule (item : RuleSetItem Addr κ) : Bool :=
  !item.ipCidrMatchSource && item.setList.any containsIPCIDRRules

def PlainItem.containsDestinationIPCIDRRule : PlainItem Addr κ → Bool
  | .item _ => false
  | .ruleSet sets => sets.containsDestinationIPCIDRRule

mutual

def DNSRule.withAddressLimit : DNSRule Addr κ → Bool
  | .default r => !r.destinationIPCIDRItems.isEmpty || r.items.any (·.containsDestinationIPCIDRRule)
  | .logical _ rules _ => anyWithAddressLimit rules

def anyWithAddressLimit : List (DNSRule Addr κ) → Bool
  | [] => false
  | rule :: rules => rule.withAddressLimit || anyWithAddressLimit rules

end

def InboundContext.withAddresses (m : InboundContext Addr κ) (responseAddrs : List Addr) :
    InboundContext Addr κ :=
  { m with connection := { m.connection with destinationAddresses := responseAddrs } }

/-- `responseCheck` of `Exchange` and `Lookup`. -/
def DNSRule.check (m : InboundContext Addr κ) (responseAddrs : List Addr) :
    Bool × InboundContext Addr κ :=
  rule.matchAddressLimit (m.withAddresses responseAddrs)

/-- The metadata after lists have been submitted. -/
def DNSRule.checkAll (rule : DNSRule Addr κ) :
    InboundContext Addr κ → List (List Addr) → InboundContext Addr κ
  | m, [] => m
  | m, responseAddrs :: lists => rule.checkAll (rule.check m responseAddrs).2 lists

/-- The metadata when the query has matched. -/
def DNSRule.matched (m : InboundContext Addr κ) : InboundContext Addr κ :=
  (rule.matches m.resetRuleCache).2

variable {m m' : InboundContext Addr κ} {r : DefaultDNSRule Addr κ} {tests : List (RuleItem Addr κ)}
  {now : InboundContext Addr κ} {lists : List (List Addr)}

theorem fields_of_reset (h : m'.resetRuleCache = m.resetRuleCache) :
    m'.connection = m.connection ∧ m'.ignoreDestinationIPCIDRMatch =
      m.ignoreDestinationIPCIDRMatch := by
  have connection : m'.resetRuleCache.connection = m.resetRuleCache.connection := by rw [h]
  have ignore : m'.resetRuleCache.ignoreDestinationIPCIDRMatch =
    m.resetRuleCache.ignoreDestinationIPCIDRMatch := by
    rw [h]
  exact ⟨connection, ignore⟩

theorem ruleSetMatch_reset (rules : List (HeadlessRule Addr κ)) (m : InboundContext Addr κ) :
    (ruleSetMatch rules m).2.resetRuleCache = m.resetRuleCache := by
  induction rules generalizing m with
  | nil => rfl
  | cons rule rules ih => grind [ruleSetMatch, headless_reset]

theorem plainItem_reset (item : PlainItem Addr κ) (m : InboundContext Addr κ) :
    (item.matches m).2.resetRuleCache = m.resetRuleCache := by
  cases item with
  | item test => rfl
  | ruleSet sets =>
    simp only [PlainItem.matches, RuleSetItem.matches]
    rw [matchSets_eq]
    exact (ruleSetMatch_reset _ _).trans rfl

theorem matchItems_reset (items : List (PlainItem Addr κ)) (m : InboundContext Addr κ) :
    (matchItems PlainItem.matches items m).2.resetRuleCache = m.resetRuleCache := by
  induction items generalizing m with
  | nil => rfl
  | cons item items ih => grind [matchItems, plainItem_reset]

theorem default_reset (r : DefaultDNSRule Addr κ) (m : InboundContext Addr κ) :
    (r.matches PlainItem.matches m).2.resetRuleCache = m.resetRuleCache := by
  have items :=
    (matchItems_reset r.items (r.checkGroups m)).trans (sameView_checkGroups r m).reset_eq
  unfold AbstractDefaultRule.matches
  split
  · rfl
  · dsimp only
    repeat' split
    all_goals exact items

/-- On metadata with the property, default rules change the cache only. -/
structure CacheOnly (leaf : DefaultDNSRule Addr κ → InboundContext Addr κ →
    Bool × InboundContext Addr κ) (P : InboundContext Addr κ → Prop) : Prop where
  stable : ∀ {m m'}, m'.resetRuleCache = m.resetRuleCache → P m → P m'
  keeps : ∀ r m, P m → (leaf r m).2.resetRuleCache = m.resetRuleCache

section
variable {leaf : DefaultDNSRule Addr κ → InboundContext Addr κ → Bool × InboundContext Addr κ}
  {P : InboundContext Addr κ → Prop} (only : CacheOnly leaf P)

include only

mutual

theorem matchesBy_reset : (rule : DNSRule Addr κ) → (m : InboundContext Addr κ) → P m →
    (rule.matchesBy leaf m).2.resetRuleCache = m.resetRuleCache
  | .default r, m, holds => by
    simp only [matchesBy]
    exact only.keeps r m holds
  | .logical .and rules invert, m, holds => by
    simp only [matchesBy]
    exact (matchListBy_reset rules m holds).1
  | .logical .or rules invert, m, holds => by
    simp only [matchesBy]
    exact (matchListBy_reset rules m holds).2

theorem matchListBy_reset : (rules : List (DNSRule Addr κ)) → (m : InboundContext Addr κ) → P m →
    (matchAllBy leaf rules m).2.resetRuleCache = m.resetRuleCache ∧
      (matchAnyBy leaf rules m).2.resetRuleCache = m.resetRuleCache
  | [], m, _ => by simp only [matchAllBy, matchAnyBy, and_self]
  | rule :: rules, m, holds => by
    have fresh : P m.resetRuleCache := only.stable (reset_reset m) holds
    have first := matchesBy_reset rule m.resetRuleCache fresh
    have rest := matchListBy_reset rules _ (only.stable first fresh)
    simp only [matchAllBy, matchAnyBy]
    constructor
    · split
      · exact rest.1.trans first
      · exact first
    · split
      · exact first
      · exact rest.2.trans first

end

end

variable (rule : DNSRule Addr κ)

section
variable (m : InboundContext Addr κ)

theorem limit_reset : (rule.matchAddressLimit m).2.resetRuleCache = m.resetRuleCache :=
  matchesBy_reset (P := fun _ => True) ⟨fun _ _ => trivial, fun r m _ => default_reset r m⟩
    rule m trivial

/-- The match for the query leaves the address conditions switched on, as it found them. -/
theorem query_reset (on : m.ignoreDestinationIPCIDRMatch = false) :
    (rule.matches m).2.resetRuleCache = m.resetRuleCache := by
  refine matchesBy_reset (P := fun m => m.ignoreDestinationIPCIDRMatch = false) ⟨?_, ?_⟩ rule m on
  · intro m m' same on
    rw [(fields_of_reset same).2, on]
  · intro r m on
    have inner := (fields_of_reset (default_reset r (m.ignoring true))).1
    unfold matchQuery ignoring resetRuleCache
    dsimp only
    rw [on]
    exact congrArg (fun connection => (⟨connection, {}, false⟩ : InboundContext Addr κ)) inner

theorem check_reset (responseAddrs : List Addr) :
    (rule.check m responseAddrs).2.resetRuleCache =
      (m.withAddresses responseAddrs).resetRuleCache :=
  limit_reset rule (m.withAddresses responseAddrs)

/-- After any checks a list is submitted with the connection of the query. -/
theorem checkAll_reset (earlier : List (List Addr)) (last : List Addr) :
    ((rule.checkAll m earlier).withAddresses last).resetRuleCache =
      (m.withAddresses last).resetRuleCache := by
  induction earlier generalizing m with
  | nil => rfl
  | cons responseAddrs earlier ih =>
    obtain ⟨connection, ignore⟩ := fields_of_reset (check_reset rule m responseAddrs)
    rw [checkAll, ih]
    unfold withAddresses resetRuleCache
    rw [connection, ignore]
    rfl

end

theorem logical_reset (mode : LogicalMode) (rules : List (DNSRule Addr κ)) (invert : Bool)
    (same : m'.resetRuleCache = m.resetRuleCache) :
    ((logical mode rules invert).matchAddressLimit m').1 =
      ((logical mode rules invert).matchAddressLimit m).1 := by
  cases mode <;> cases rules <;>
    simp only [matchAddressLimit, matchesBy, matchAllBy, matchAnyBy, same]

/-- The rule with its plain items as they are. -/
def plainRule (r : DefaultDNSRule Addr κ) (tests : List (RuleItem Addr κ)) :
    DefaultHeadlessRule Addr κ :=
  { r with items := tests }

theorem matches_plainRule (items : r.items = tests.map .item) (m : InboundContext Addr κ) :
    r.matches PlainItem.matches m = (plainRule r tests).matches matchPlainItem m := by
  have loop : ∀ (tests : List (RuleItem Addr κ)) (m : InboundContext Addr κ),
      matchItems PlainItem.matches (tests.map .item) m = matchItems matchPlainItem tests m := by
    intro tests
    induction tests with
    | nil => intro m; rfl
    | cons test tests ih =>
      intro m
      simp only [map_cons, matchItems, PlainItem.matches, ih]
  have none : r.noItems = (plainRule r tests).noItems := by
    unfold AbstractDefaultRule.noItems plainRule
    rw [items, isEmpty_map]
  unfold AbstractDefaultRule.matches
  rw [none, items, loop]
  rfl

/-- The metadata on which the rule is checked when the list is the first. -/
def InboundContext.on (m : InboundContext Addr κ) (responseAddrs : List Addr) :
    InboundContext Addr κ :=
  (m.resetRuleCache.withAddresses responseAddrs).ignoring false

/-- The group is matched by the query itself. -/
def byQuery (r : DefaultHeadlessRule Addr κ) (m : InboundContext Addr κ) (g : Group) : Bool :=
  r.own (m.resetRuleCache.ignoring true) g

/-- No group of the rule is met by an earlier list alone, unless the rule fails on the last list
anyway. -/
def NoLoan (r : DefaultHeadlessRule Addr κ) (m : InboundContext Addr κ) (earlier : List (List Addr))
    (last : List Addr) : Prop :=
  (∀ item ∈ r.items, item.matches (m.on last) = true) →
  (∀ g, r.present (m.on last) g = true → byQuery r m g = true ∨
    ∃ responseAddrs ∈ earlier ++ [last], r.own (m.on responseAddrs) g = true) →
  ∀ g, r.present (m.on last) g = true → byQuery r m g = true ∨ r.own (m.on last) g = true

theorem connection_withAddresses (h : m'.connection = m.connection) (responseAddrs : List Addr) :
    (m'.withAddresses responseAddrs).connection = (m.withAddresses responseAddrs).connection := by
  unfold withAddresses
  rw [h]

theorem tidy_withAddresses (h : Tidy m) (responseAddrs : List Addr) :
    Tidy (m.withAddresses responseAddrs) := ⟨h.flagged, h.matchSource, h.acceptEmpty⟩

section
variable (r)

/-- A rule of a rule-set of the DNS rule. -/
def Within (rule : HeadlessRule Addr κ) : Prop :=
  ∃ sets, .ruleSet sets ∈ r.items ∧ rule ∈ sets.setList.flatten

/-- The rule has conditions, as every rule that is loaded. -/
def HeadlessRule.Asks : HeadlessRule Addr κ → Prop
  | .default r => r.noItems = false
  | .logical _ rules _ => rules ≠ []

/-- The rule, or the default rule that a rule of its rule-sets looks at last, has a match in the
group. -/
def Marks (m : InboundContext Addr κ) (g : Group) : Prop :=
  r.own m g = true ∨
    ∃ rule, Within r rule ∧ ∃ leaf, rule.lastLeaf m = some leaf ∧ leaf.own m g = true

/-- `rule_set_ip_cidr_match_source` and `rule_set_ip_cidr_accept_empty` are not used. -/
def SettingsOff : Prop :=
  ∀ sets, .ruleSet sets ∈ r.items → sets.ipCidrMatchSource = false ∧ sets.ipCidrAcceptEmpty = false

/-- Neither the query nor an earlier list lends the last one a match: a group that the last list
does not match in the rule itself is matched by none of them, in the rule or in its rule-sets. -/
structure NoneLent (m : InboundContext Addr κ) (earlier : List (List Addr)) (last : List Addr) :
    Prop where
  off : SettingsOff r
  asks : ∀ rule, Within r rule → rule.Asks
  groups : ∀ g, r.own (m.on last) g = true ∨ ¬ Marks r (m.resetRuleCache.ignoring true) g ∧
    ∀ responseAddrs ∈ earlier, ¬ Marks r (m.on responseAddrs) g

end

theorem Tidy.eq (h : Tidy m) (h' : Tidy m') (same : m'.resetRuleCache = m.resetRuleCache)
    (flags : ∀ g, m'.cache.flag g = m.cache.flag g) (did : m'.cache.didMatch = m.cache.didMatch) :
    m' = m := by
  obtain ⟨connection, ignore⟩ := fields_of_reset same
  have cache : m'.cache = m.cache := by
    have source := h'.matchSource.trans h.matchSource.symm
    have empty := h'.acceptEmpty.trans h.acceptEmpty.symm
    rw [Group.forall_iff] at flags
    obtain ⟨one, two, three, four⟩ := flags
    cases hm : m.cache
    cases hm' : m'.cache
    simp_all [RuleCache.flag]
  cases m
  cases m'
  simp_all

theorem Leaves.sameView (left : Leaves m m') (tidy : Tidy m) : SameView m m' := by
  obtain ⟨connection, ignore⟩ := fields_of_reset left.reset
  exact ⟨connection, ignore, left.tidy.matchSource.trans tidy.matchSource.symm,
    left.tidy.acceptEmpty.trans tidy.acceptEmpty.symm⟩

/-- A rule with conditions does not see whether something has been looked at before it. -/
theorem asks_matches (tidy : Tidy m) (left : Leaves m m')
    (all : m.ignoreDestinationIPCIDRMatch = false) (flags : ∀ g, m'.cache.flag g = m.cache.flag g)
    {rule : HeadlessRule Addr κ} (asks : rule.Asks) : rule.matches m' = rule.matches m := by
  match rule with
  | .logical mode [] invert => exact absurd rfl asks
  | .logical mode (rule :: rules) invert =>
    cases mode <;> simp only [HeadlessRule.matches, matchAll, matchAny, left.reset]
  | .default r =>
    have view := left.sameView tidy
    have holds : Holds r m' ↔ Holds r m := by
      constructor <;> rintro ⟨plain, covered⟩
      · simp only [view.matches, view.present, view.own, flags] at plain covered
        exact ⟨plain, covered⟩
      · constructor <;> simpa only [view.matches, view.present, view.own, flags]
    have looked := looked_of_asks tidy all asks
    have looked' := looked_of_asks left.tidy (view.ignore.trans all) asks
    obtain ⟨kept, set, did⟩ := matches_plain_snd r m
    obtain ⟨kept', set', did'⟩ := matches_plain_snd r m'
    simp only [HeadlessRule.matches]
    refine Prod.ext ?_ (tidy.matches_plain.eq left.tidy.matches_plain ?_ ?_ ?_)
    · rw [Bool.eq_iff_iff, matches_plain_fst, matches_plain_fst, holds]
      simp only [looked, looked']
    · exact kept'.reset_eq.trans (left.reset.trans kept.reset_eq.symm)
    · intro g
      rw [set, set', flags, view.own]
    · rw [did.mpr looked, did'.mpr looked']

/-- A rule-set item with its settings off is the set of all its rules. -/
theorem matches_off (off : SettingsOff r) {sets : RuleSetItem Addr κ}
    (mem : .ruleSet sets ∈ r.items) (tidy : Tidy m) :
    (PlainItem.ruleSet sets).matches m = ruleSetMatch sets.setList.flatten m := by
  have same : sets.enter m = m := by
    unfold RuleSetItem.enter
    rw [(off sets mem).1.trans tidy.matchSource.symm, (off sets mem).2.trans tidy.acceptEmpty.symm]
  simp only [PlainItem.matches, RuleSetItem.matches, matchSets_eq, same]

/-- What a check may do to the cache on the way: it sets flags only of groups that are matched. -/
structure Passes (r : DefaultDNSRule Addr κ) (m before now : InboundContext Addr κ) : Prop where
  leaves : Leaves m now
  back : ∀ g, now.cache.flag g = true → before.cache.flag g = true ∨ Marks r m g

theorem Passes.refl (left : Leaves m now) : Passes r m now now := ⟨left, fun _ => .inl⟩

theorem Passes.trans {a b c : InboundContext Addr κ} (h : Passes r m a b) (h' : Passes r m b c) :
    Passes r m a c :=
  ⟨h'.leaves, fun g set => (h'.back g set).elim (h.back g) .inr⟩

section
variable (off : SettingsOff r) (fresh : m.resetRuleCache = m) (left : Leaves m now)
include fresh left

theorem ruleSetMatch_passes {rules : List (HeadlessRule Addr κ)}
    (within : ∀ rule ∈ rules, Within r rule) :
    Passes r m now (ruleSetMatch rules now).2 := by
  induction rules generalizing now with
  | nil => exact .refl left
  | cons rule rules ih =>
    have mem := within rule mem_cons_self
    have after := fun g => headless_sees (sees_flag g) rule left
    rw [fresh] at after
    have first : Passes r m now (rule.matches now).2 := by
      refine ⟨left.trans (leaves_matches rule now left.tidy), fun g set => ?_⟩
      exact ((after g).mp set).imp And.right fun leaf => .inr ⟨rule, mem, leaf⟩
    have rest := ih first.leaves fun other mem => within other (mem_cons_of_mem _ mem)
    simp only [ruleSetMatch]
    split
    · exact first
    · exact first.trans rest

include off

theorem matchItems_passes {items : List (PlainItem Addr κ)} (mem : ∀ item ∈ items, item ∈ r.items) :
    Passes r m now (matchItems PlainItem.matches items now).2 := by
  induction items generalizing now with
  | nil => exact .refl left
  | cons item items ih =>
    have first : Passes r m now (item.matches now).2 := by
      cases item with
      | item test =>
        have tidy : Tidy now.setDidMatch :=
          ⟨fun _ _ => rfl, left.tidy.matchSource, left.tidy.acceptEmpty⟩
        exact ⟨⟨tidy, left.reset⟩, fun g set => .inl (by cases g <;> exact set)⟩
      | ruleSet sets =>
        have sets_mem := mem _ mem_cons_self
        rw [matches_off off sets_mem left.tidy]
        exact ruleSetMatch_passes fresh left fun rule rule_mem => ⟨sets, sets_mem, rule_mem⟩
    have rest := ih first.leaves fun other other_mem => mem other (mem_cons_of_mem _ other_mem)
    simp only [matchItems]
    split
    · exact first.trans rest
    · exact first

omit off in
theorem checkGroups_passes (r : DefaultDNSRule Addr κ) : Passes r m now (r.checkGroups now) := by
  have view := sameView_checkGroups r now
  have tidy : Tidy (r.checkGroups now) := by
    refine ⟨fun g set => ?_, view.matchSource.trans left.tidy.matchSource,
      view.acceptEmpty.trans left.tidy.acceptEmpty⟩
    rw [checkGroups_didMatch]
    rw [checkGroups_flag] at set
    by_cases found : now.cache.flag g = true
    · exact .inl (left.tidy.flagged g found)
    · have own : r.own now g = true := by simpa [found] using set
      exact .inr ⟨g, fails_iff.mpr ⟨own_present own, by simpa using found⟩⟩
  refine ⟨⟨tidy, view.reset_eq.trans left.reset⟩, fun g set => ?_⟩
  rw [checkGroups_flag, (left.sameView (fresh ▸ tidy_reset m : Tidy m)).own, Bool.or_eq_true] at set
  exact set.imp_right .inl

theorem matches_passes : Passes r m now (r.matches PlainItem.matches now).2 := by
  cases asks : r.noItems with
  | true =>
    simp only [AbstractDefaultRule.matches, asks, if_true]
    exact .refl left
  | false =>
    have groups := checkGroups_passes fresh left r
    have items := groups.trans (matchItems_passes off fresh groups.leaves fun _ => id)
    unfold AbstractDefaultRule.matches
    simp only [asks, Bool.false_eq_true, if_false]
    repeat' split
    all_goals exact items

end

section
variable {a b : InboundContext Addr κ} (off : SettingsOff r)
  (asks : ∀ rule, Within r rule → rule.Asks)
include off asks

/-- With the same flags the items do the same, or fail. What has been looked at agrees from the
first plain item or rule of a rule-set on. -/
theorem matchItems_eq (tidy : Tidy a) (left : Leaves a b)
    (all : a.ignoreDestinationIPCIDRMatch = false) (flags : ∀ g, b.cache.flag g = a.cache.flag g)
    (did : r.items = [] → b.cache.didMatch = a.cache.didMatch) :
    matchItems PlainItem.matches r.items b = matchItems PlainItem.matches r.items a ∨
      ((matchItems PlainItem.matches r.items b).1 = false ∧
        (matchItems PlainItem.matches r.items a).1 = false) := by
  cases items : r.items with
  | nil => exact .inl (by rw [tidy.eq left.tidy left.reset flags (did items)])
  | cons item rest =>
    have mem : item ∈ r.items := by simp [items]
    cases item with
    | item test =>
      have looked : b.setDidMatch = a.setDidMatch := by
        refine Tidy.eq ⟨fun _ _ => rfl, tidy.matchSource, tidy.acceptEmpty⟩
          ⟨fun _ _ => rfl, left.tidy.matchSource, left.tidy.acceptEmpty⟩ left.reset ?_ rfl
        intro g
        have := flags g
        cases g <;> exact this
      left
      simp only [matchItems, PlainItem.matches, matchPlainItem, looked]
      rfl
    | ruleSet sets =>
      simp only [matchItems, matches_off off mem tidy, matches_off off mem left.tidy]
      cases rules : sets.setList.flatten with
      | nil => exact .inr ⟨rfl, rfl⟩
      | cons rule rules =>
        have first := asks rule ⟨sets, mem, by simp [rules]⟩
        left
        simp only [ruleSetMatch, asks_matches tidy left all flags first]
        rfl

/-- With the same flags after the groups the verdict is the same. -/
theorem verdict_eq (fresh : m.resetRuleCache = m) (all : m.ignoreDestinationIPCIDRMatch = false)
    (left : Leaves m a) (left' : Leaves m b)
    (flags : ∀ g, (b.cache.flag g || r.own m g) = (a.cache.flag g || r.own m g)) :
    (r.matches PlainItem.matches b).1 = (r.matches PlainItem.matches a).1 := by
  have tidy : Tidy m := fresh ▸ tidy_reset m
  have groups := (checkGroups_passes fresh left r).leaves
  have other := (checkGroups_passes fresh left' r).leaves
  have same : ∀ g, (r.checkGroups b).cache.flag g = (r.checkGroups a).cache.flag g := by
    intro g
    rw [checkGroups_flag, checkGroups_flag, (left.sameView tidy).own,
      (left'.sameView tidy).own, flags]
  unfold AbstractDefaultRule.matches
  cases some : r.noItems with
  | true => rfl
  | false =>
    have looked : r.items = [] → ∀ now, Leaves m now →
        (r.checkGroups now).cache.didMatch = true := by
      intro items now left
      have asked : (plainRule r []).noItems = false := by
        simpa [AbstractDefaultRule.noItems, plainRule, items] using some
      have looked := looked_of_asks left.tidy ((left.sameView tidy).ignore.trans all) asked
      rw [checkGroups_didMatch]
      exact looked.imp_right fun rest => rest.resolve_left (absurd rfl)
    rcases matchItems_eq off asks groups.tidy ⟨other.tidy, other.reset.trans groups.reset.symm⟩
      ((groups.sameView tidy).ignore.trans all) same
      (fun none => (looked none b left').trans (looked none a left).symm) with run | ⟨fails, fails'⟩
    · rw [run]
      rfl
    · simp only [fails, fails', Bool.not_false, if_true]
      rfl

end

theorem leaves_on {addrs : List Addr} (left : Leaves (m.on addrs) now) (more : List Addr) :
    Leaves (m.on more) (now.withAddresses more) := by
  refine ⟨tidy_withAddresses left.tidy more, ?_⟩
  obtain ⟨connection, ignore⟩ := fields_of_reset left.reset
  unfold withAddresses resetRuleCache
  rw [connection, ignore]
  rfl

theorem matched_passes (off : SettingsOff r) (m : InboundContext Addr κ) :
    (∀ addrs, Leaves (m.on addrs) (((DNSRule.default r).matched m).withAddresses addrs)) ∧
      ∀ g, ((DNSRule.default r).matched m).cache.flag g = true →
        Marks r (m.resetRuleCache.ignoring true) g := by
  have query : Leaves (m.resetRuleCache.ignoring true) (m.resetRuleCache.ignoring true) := by
    obtain ⟨flagged, matchSource, acceptEmpty⟩ := tidy_reset m
    exact ⟨⟨flagged, matchSource, acceptEmpty⟩, rfl⟩
  obtain ⟨⟨⟨flagged, matchSource, acceptEmpty⟩, reset⟩, back⟩ := matches_passes off rfl query
  refine ⟨fun addrs => ⟨⟨flagged, matchSource, acceptEmpty⟩, ?_⟩, fun g set => ?_⟩
  · have same := connection_withAddresses (fields_of_reset reset).1 addrs
    exact congrArg (fun connection => (⟨connection, {}, false⟩ : InboundContext Addr κ)) same
  · simp only [DNSRule.matched, DNSRule.matches, matchesBy, matchQuery] at set
    have none : (m.resetRuleCache.ignoring true).cache.flag g = false := reset_flag m g
    exact (back g set).resolve_left (by simp [none])

theorem checkAll_passes (off : SettingsOff r) (lists : List (List Addr))
    (left : ∀ addrs, Leaves (m.on addrs) (now.withAddresses addrs)) :
    (∀ addrs, Leaves (m.on addrs) (((DNSRule.default r).checkAll now lists).withAddresses addrs)) ∧
    ∀ g, ((DNSRule.default r).checkAll now lists).cache.flag g = true →
      now.cache.flag g = true ∨ ∃ addrs ∈ lists, Marks r (m.on addrs) g := by
  induction lists generalizing now with
  | nil => exact ⟨left, fun g => .inl⟩
  | cons addrs lists ih =>
    have first := matches_passes off rfl (left addrs)
    have check : ((DNSRule.default r).check now addrs).2 =
        (r.matches PlainItem.matches (now.withAddresses addrs)).2 := by
      simp only [DNSRule.check, matchAddressLimit, matchesBy]
    rw [← check] at first
    obtain ⟨rest, flags⟩ := ih (leaves_on first.leaves)
    refine ⟨rest, fun g set => ?_⟩
    rcases flags g set with set | ⟨other, mem, marks⟩
    · exact (first.back g set).imp_right fun marks => ⟨addrs, mem_cons_self, marks⟩
    · exact .inr ⟨other, mem_cons_of_mem _ mem, marks⟩

/-- The metadata after the query and some lists. -/
structure After (r : DefaultHeadlessRule Addr κ) (m : InboundContext Addr κ)
    (lists : List (List Addr)) (now : InboundContext Addr κ) : Prop where
  leaves : ∀ addrs, Leaves (m.on addrs) (now.withAddresses addrs)
  flag : ∀ g, now.cache.flag g = (byQuery r m g || lists.any fun addrs => r.own (m.on addrs) g)

theorem After.view {r : DefaultHeadlessRule Addr κ} (h : After r m lists now) (addrs : List Addr) :
    SameView (m.on addrs) (now.withAddresses addrs) :=
  (h.leaves addrs).sameView (tidy_reset (m.on addrs))

section
variable (items : r.items = tests.map .item)
include items

theorem settingsOff_plain : SettingsOff r := by
  intro sets mem
  simp [items] at mem

theorem after_matched (m : InboundContext Addr κ) :
    After (plainRule r tests) m [] ((DNSRule.default r).matched m) := by
  refine ⟨(matched_passes (settingsOff_plain items) m).1, fun g => ?_⟩
  have set := (matches_plain_snd (plainRule r tests) (m.resetRuleCache.ignoring true)).2.1 g
  have found : (m.resetRuleCache.ignoring true).cache.flag g = false := reset_flag m g
  rw [found, Bool.false_or] at set
  simp only [DNSRule.matched, DNSRule.matches, DNSRule.matchesBy, matchQuery,
    matches_plainRule items]
  rw [any_nil, Bool.or_false]
  exact set

section
variable (h : After (plainRule r tests) m lists now)
include h

theorem After.check (addrs : List Addr) :
    After (plainRule r tests) m (lists ++ [addrs]) ((default r).check now addrs).2 := by
  have first := matches_passes (settingsOff_plain items) rfl (h.leaves addrs)
  have flags := (matches_plain_snd (plainRule r tests) (now.withAddresses addrs)).2.1
  have found : ∀ g, (now.withAddresses addrs).cache.flag g = now.cache.flag g := fun _ => rfl
  simp only [DNSRule.check, DNSRule.matchAddressLimit, DNSRule.matchesBy]
  refine ⟨leaves_on first.leaves, fun g => ?_⟩
  rw [matches_plainRule items, flags, found, h.flag, (h.view addrs).own, any_append, any_cons,
    any_nil, Bool.or_false, Bool.or_assoc]

theorem After.checkAll (more : List (List Addr)) :
    After (plainRule r tests) m (lists ++ more) ((default r).checkAll now more) := by
  induction more generalizing now lists with
  | nil => rwa [append_nil]
  | cons addrs more ih =>
    have rest := ih (h.check items addrs)
    rwa [append_assoc] at rest

/-- The verdict on a list: whether the rule holds, with the flags of the lists before it. -/
theorem After.verdict (last : List Addr) :
    ((default r).check now last).1 = true ↔
      ((plainRule r tests).noItems = true ∨
        (Holds (plainRule r tests) (now.withAddresses last) ↔ r.invert = false)) := by
  simp only [DNSRule.check, DNSRule.matchAddressLimit, DNSRule.matchesBy]
  rw [matches_plainRule items, matches_plain_fst]
  by_cases asks : (plainRule r tests).noItems = true
  · simp only [asks, true_or]
  · have looked :=
      looked_of_asks (h.leaves last).tidy (h.view last).ignore (Bool.eq_false_iff.mpr asks)
    have inverted : (plainRule r tests).invert = r.invert := rfl
    rw [inverted]
    cases r.invert <;> simp [asks, looked]

end

end

theorem After.holds_iff {r : DefaultHeadlessRule Addr κ} (h : After r m lists now)
    (last : List Addr) :
    Holds r (now.withAddresses last) ↔ (∀ item ∈ r.items, item.matches (m.on last) = true) ∧
      ∀ g, r.present (m.on last) g = true → byQuery r m g = true ∨
        ∃ responseAddrs ∈ lists ++ [last], r.own (m.on responseAddrs) g = true := by
  have view := h.view last
  have flag : ∀ g, (now.withAddresses last).cache.flag g = now.cache.flag g := fun g => rfl
  have met : ∀ g, ((now.withAddresses last).cache.flag g = true ∨
    r.own (now.withAddresses last) g = true) ↔
      (byQuery r m g = true ∨ ∃ responseAddrs ∈ lists ++ [last],
        r.own (m.on responseAddrs) g = true) := by
    grind [h.flag, view.own]
  constructor
  · rintro ⟨plain, covered⟩
    simp only [view.matches, view.present, met] at plain covered
    exact ⟨plain, covered⟩
  · rintro ⟨plain, covered⟩
    refine ⟨?_, ?_⟩
    · simpa only [view.matches] using plain
    · simpa only [view.present, met] using covered

/-- Two verdicts on one rule, inverted or not, where the first is given more. -/
theorem verdicts_iff {none plain covered own straight : Prop} (nothing : none → own)
    (more : own → covered) :
    ((none ∨ (plain ∧ covered ↔ straight)) ↔ (none ∨ (plain ∧ own ↔ straight))) ↔
      (plain → covered → own) := by
  by_cases h : none
  · have owned := nothing h
    simp only [h, owned, true_or, implies_true]
  · grind

/-- The verdict on the last list is the one it gets when it is the only one. -/
def DNSRule.Alone (m : InboundContext Addr κ) (earlier : List (List Addr))
    (last : List Addr) : Prop :=
  (rule.check (rule.checkAll (rule.matched m) earlier) last).1 =
    (rule.check (rule.matched m) last).1

theorem alone_of_noneLent {earlier : List (List Addr)} {last : List Addr}
    (h : NoneLent r m earlier last) : (DNSRule.default r).Alone m earlier last := by
  obtain ⟨first, byQuery⟩ := matched_passes h.off m
  obtain ⟨left, flags⟩ := checkAll_passes h.off earlier first
  unfold Alone DNSRule.check matchAddressLimit matchesBy
  refine verdict_eq h.off h.asks rfl rfl (first last) (left last) fun g => ?_
  rcases h.groups g with own | ⟨unmarked, none⟩
  · simp [own]
  · have clear : ¬ ((DNSRule.default r).matched m).cache.flag g = true := mt (byQuery g) unmarked
    have later := mt (flags g) (not_or.mpr ⟨clear, fun ⟨addrs, mem, marks⟩ => none addrs mem marks⟩)
    exact congrArg (· || _) ((Bool.eq_false_iff.mpr later).trans (Bool.eq_false_iff.mpr clear).symm)

end

/-- A rule for answers below ten. -/
def lowAnswers (invert : Bool) : DNSRule Nat Unit :=
  .default { destinationIPCIDRItems := [.ipCIDR false (decide <| · < 10)], invert := invert }

/-- The same in a rule-set. -/
def lowSet : DNSRule Nat Unit :=
  .default { items := [.ruleSet { setList :=
    [[.default { destinationIPCIDRItems := [.ipCIDR false (decide <| · < 10)] }]] }] }

def anyQuery : InboundContext Nat Unit := { connection := ⟨0, none, [], ()⟩ }

end AiboosterEngine.Route
