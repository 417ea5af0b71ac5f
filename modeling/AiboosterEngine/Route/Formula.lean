import AiboosterEngine.Route.RuleSet

/-!
# What a tree of rules says

A rule without rule-sets is a formula over its items. `Match` goes through the
metadata's flags; on a cache just reset it comes to the value of the formula:

* `default_matches_means`: for a default rule, group by group;
* `headless_matches_means`: for a tree of rules, since a logical rule resets the
  cache before each of its sub-rules;
* `Reorders.means`: the value is that of any other order of items and sub-rules.
-/

namespace AiboosterEngine.Route

open AbstractDefaultRule

section
variable {Addr κ : Type}

/-- A group without items asks for nothing. -/
def someMatches (items : List (RuleItem Addr κ)) (m : InboundContext Addr κ) : Bool :=
  items.isEmpty || items.any (·.matches m)

/-- The formula of a default rule. The addresses of the destination and its prefixes are
alternatives of one group. -/
def AbstractDefaultRule.means (r : DefaultHeadlessRule Addr κ) (m : InboundContext Addr κ) : Bool :=
  r.invert ^^ (r.items.all (·.matches m) && someMatches r.sourceAddressItems m &&
    someMatches r.sourcePortItems m &&
    someMatches (r.destinationAddressItems ++ r.destinationIPCIDRItems) m &&
    someMatches r.destinationPortItems m)

mutual

/-- The formula of a tree of rules. -/
def HeadlessRule.means (m : InboundContext Addr κ) : HeadlessRule Addr κ → Bool
  | .default r => r.means m
  | .logical .and rules invert => invert ^^ allMean m rules
  | .logical .or rules invert => invert ^^ someMean m rules

def allMean (m : InboundContext Addr κ) : List (HeadlessRule Addr κ) → Bool
  | [] => true
  | rule :: rules => rule.means m && allMean m rules

def someMean (m : InboundContext Addr κ) : List (HeadlessRule Addr κ) → Bool
  | [] => false
  | rule :: rules => rule.means m || someMean m rules

end

mutual

/-- Every default rule of the tree has an item. -/
def HeadlessRule.asks : HeadlessRule Addr κ → Bool
  | .default r => !r.noItems
  | .logical _ rules _ => allAsk rules

def allAsk : List (HeadlessRule Addr κ) → Bool
  | [] => true
  | rule :: rules => rule.asks && allAsk rules

end

variable {r : DefaultHeadlessRule Addr κ} {m : InboundContext Addr κ}

theorem someMatches_iff {g : Group} : (r.present m g = true → r.own m g = true) ↔
    someMatches (r.groupItems m.ignoreDestinationIPCIDRMatch g) m = true := by
  unfold present own someMatches
  cases (r.groupItems m.ignoreDestinationIPCIDRMatch g).isEmpty <;> simp

/-- On a cache just reset the conditions of a rule are its formula without the inversion. -/
theorem holds_iff_means (fresh : m.resetRuleCache = m)
    (ignore : m.ignoreDestinationIPCIDRMatch = false) :
    Holds r m ↔ (r.invert ^^ r.means m) = true := by
  have covered : (∀ g, r.present m g = true → m.cache.flag g = true ∨ r.own m g = true) ↔
      someMatches r.sourceAddressItems m = true ∧ someMatches r.sourcePortItems m = true ∧
      someMatches (r.destinationAddressItems ++ r.destinationIPCIDRItems) m = true ∧
      someMatches r.destinationPortItems m = true := by
    simp only [flag_of_fresh fresh, Bool.false_eq_true, false_or, Group.forall_iff,
      someMatches_iff, ignore]
    rfl
  have split : Holds r m ↔ r.items.all (·.matches m) = true ∧
      ∀ g, r.present m g = true → m.cache.flag g = true ∨ r.own m g = true := by
    rw [List.all_eq_true]
    exact ⟨fun h => ⟨h.plain, h.covered⟩, fun h => ⟨h.1, h.2⟩⟩
  rw [split, covered]
  unfold means
  rw [← Bool.xor_assoc, Bool.xor_self, Bool.false_xor]
  simp only [Bool.and_eq_true, and_assoc]

theorem default_matches_means (fresh : m.resetRuleCache = m)
    (ignore : m.ignoreDestinationIPCIDRMatch = false)
    (asks : r.noItems = false) : (r.matches matchPlainItem m).1 = r.means m := by
  have looked := looked_of_asks (fresh ▸ tidy_reset m) ignore asks
  have holds := holds_iff_means (r := r) fresh ignore
  rw [Bool.eq_iff_iff, matches_plain_fst]
  simp only [asks, looked, holds, not_true, or_false, Bool.false_eq_true, false_or]
  cases r.invert <;> cases r.means m <;> simp

mutual

theorem headless_matches_means : (rule : HeadlessRule Addr κ) → (m : InboundContext Addr κ) →
    m.resetRuleCache = m → m.ignoreDestinationIPCIDRMatch = false → rule.asks = true →
    (rule.matches m).1 = rule.means m
  | .default r, m, fresh, ignore, asks => by
    simp only [HeadlessRule.matches, HeadlessRule.means]
    exact default_matches_means fresh ignore (by simpa [HeadlessRule.asks] using asks)
  | .logical .and rules invert, m, fresh, ignore, asks => by
    have all := (matchList_means rules m ignore asks).1
    rw [fresh] at all
    simp only [HeadlessRule.matches, HeadlessRule.means, all]
    cases invert <;> cases allMean m rules <;> rfl
  | .logical .or rules invert, m, fresh, ignore, asks => by
    have some := (matchList_means rules m ignore asks).2
    rw [fresh] at some
    simp only [HeadlessRule.matches, HeadlessRule.means, some]
    cases invert <;> cases someMean m rules <;> rfl

/-- Each sub-rule is evaluated on the metadata with the cache reset, whatever the ones before it
have left. -/
theorem matchList_means : (rules : List (HeadlessRule Addr κ)) → (m : InboundContext Addr κ) →
    m.ignoreDestinationIPCIDRMatch = false → allAsk rules = true →
    (matchAll rules m).1 = allMean m.resetRuleCache rules ∧
      (matchAny rules m).1 = someMean m.resetRuleCache rules
  | [], m, _, _ => ⟨rfl, rfl⟩
  | rule :: rules, m, ignore, asks => by
    simp only [allAsk, Bool.and_eq_true] at asks
    have first := headless_matches_means rule m.resetRuleCache (reset_reset m) ignore asks.1
    have left := headless_reset rule m.resetRuleCache
    have same := congrArg InboundContext.ignoreDestinationIPCIDRMatch left
    obtain ⟨all, some⟩ :=
      matchList_means rules (rule.matches m.resetRuleCache).2 (same.trans ignore) asks.2
    rw [left, reset_reset] at all some
    simp only [matchAll, allMean, matchAny, someMean, ← first]
    cases ok : (rule.matches m.resetRuleCache).1 <;> simp [all, some]

end

/-- The same rule with the items of each list in another order. -/
structure AbstractDefaultRule.Reorders (r r' : DefaultHeadlessRule Addr κ) : Prop where
  items : r.items.Perm r'.items
  sourceAddress : r.sourceAddressItems.Perm r'.sourceAddressItems
  sourcePort : r.sourcePortItems.Perm r'.sourcePortItems
  destinationAddress : r.destinationAddressItems.Perm r'.destinationAddressItems
  destinationIPCIDR : r.destinationIPCIDRItems.Perm r'.destinationIPCIDRItems
  destinationPort : r.destinationPortItems.Perm r'.destinationPortItems
  invert : r'.invert = r.invert

mutual

/-- The same tree with the items of its rules and the sub-rules in another order, at any depth. -/
inductive Reorders : HeadlessRule Addr κ → HeadlessRule Addr κ → Prop
  | default {r r' : DefaultHeadlessRule Addr κ} :
      r.Reorders r' → Reorders (.default r) (.default r')
  | logical {mode : LogicalMode} {rules rules' : List (HeadlessRule Addr κ)} {invert : Bool} :
      ReordersAll rules rules' → Reorders (.logical mode rules invert) (.logical mode rules' invert)

inductive ReordersAll : List (HeadlessRule Addr κ) → List (HeadlessRule Addr κ) → Prop
  | nil : ReordersAll [] []
  | cons {rule rule' : HeadlessRule Addr κ} {rules rules' : List (HeadlessRule Addr κ)} :
      Reorders rule rule' → ReordersAll rules rules' → ReordersAll (rule :: rules) (rule' :: rules')
  | swap (a b : HeadlessRule Addr κ) (rules : List (HeadlessRule Addr κ)) :
      ReordersAll (a :: b :: rules) (b :: a :: rules)
  | trans {a b c : List (HeadlessRule Addr κ)} : ReordersAll a b → ReordersAll b c → ReordersAll a c

end

theorem someMatches_perm {items items' : List (RuleItem Addr κ)} (h : items.Perm items')
    (m : InboundContext Addr κ) : someMatches items' m = someMatches items m := by
  unfold someMatches
  rw [h.any_eq, h.isEmpty_eq]

variable {r' : DefaultHeadlessRule Addr κ}

theorem AbstractDefaultRule.Reorders.means (h : r.Reorders r')
    (m : InboundContext Addr κ) : r'.means m = r.means m := by
  unfold AbstractDefaultRule.means
  rw [h.invert, h.items.all_eq, someMatches_perm h.sourceAddress, someMatches_perm h.sourcePort,
    someMatches_perm (h.destinationAddress.append h.destinationIPCIDR),
    someMatches_perm h.destinationPort]

theorem AbstractDefaultRule.Reorders.noItems (h : r.Reorders r') : r'.noItems = r.noItems := by
  unfold AbstractDefaultRule.noItems
  rw [h.items.isEmpty_eq, h.sourceAddress.isEmpty_eq, h.sourcePort.isEmpty_eq,
    h.destinationAddress.isEmpty_eq, h.destinationIPCIDR.isEmpty_eq, h.destinationPort.isEmpty_eq]

mutual

theorem Reorders.means {rule rule' : HeadlessRule Addr κ} (m : InboundContext Addr κ) :
    Reorders rule rule' → rule'.means m = rule.means m ∧ rule'.asks = rule.asks
  | .default h => by
    simp only [HeadlessRule.means, HeadlessRule.asks, h.means m, h.noItems, and_self]
  | @Reorders.logical _ _ mode _ _ _ h => by
    obtain ⟨all, some, asks⟩ := ReordersAll.means m h
    cases mode with
    | and => simp only [HeadlessRule.means, HeadlessRule.asks, all, asks, and_self]
    | or => simp only [HeadlessRule.means, HeadlessRule.asks, some, asks, and_self]

theorem ReordersAll.means {rules rules' : List (HeadlessRule Addr κ)} (m : InboundContext Addr κ) :
    ReordersAll rules rules' → allMean m rules' = allMean m rules ∧
      someMean m rules' = someMean m rules ∧ allAsk rules' = allAsk rules
  | .nil => ⟨rfl, rfl, rfl⟩
  | .cons first rest => by
    obtain ⟨means, asks⟩ := Reorders.means m first
    obtain ⟨all, some, ask⟩ := ReordersAll.means m rest
    simp only [allMean, someMean, allAsk, means, asks, all, some, ask, and_self]
  | .swap a b rules => by
    simp only [allMean, someMean, allAsk]
    refine ⟨?_, ?_, ?_⟩
    · rw [← Bool.and_assoc, ← Bool.and_assoc, Bool.and_comm (b.means m)]
    · rw [← Bool.or_assoc, ← Bool.or_assoc, Bool.or_comm (b.means m)]
    · rw [← Bool.and_assoc, ← Bool.and_assoc, Bool.and_comm b.asks]
  | .trans h h' => by
    obtain ⟨all, some, ask⟩ := ReordersAll.means m h
    obtain ⟨all', some', ask'⟩ := ReordersAll.means m h'
    exact ⟨all'.trans all, some'.trans some, ask'.trans ask⟩

end

/-- **A tree of rules is a formula.** On metadata with the cache just reset, `Match` returns the
value of the formula, and the value does not depend on the order of items and sub-rules. -/
theorem match_is_formula (rule : HeadlessRule Addr κ) (m : InboundContext Addr κ)
    (fresh : m.resetRuleCache = m) (ignore : m.ignoreDestinationIPCIDRMatch = false)
    (asks : rule.asks = true) :
    (rule.matches m).1 = rule.means m ∧
      ∀ rule', Reorders rule rule' → (rule'.matches m).1 = (rule.matches m).1 := by
  have value := headless_matches_means rule m fresh ignore asks
  refine ⟨value, fun rule' reordered => ?_⟩
  obtain ⟨means, asks'⟩ := reordered.means m
  rw [value, headless_matches_means rule' m fresh ignore (asks'.trans asks), means]

end

def awayFromHosts (first second : HeadlessRule Unit (String × Nat)) :
    HeadlessRule Unit (String × Nat) :=
  .logical .and [otherHost true, .logical .or [first, second] false] true

def plainPort : HeadlessRule Unit (String × Nat) := .default { items := [portItem 80] }

/-- At port 80 of `a.test` the first sub-rule marks the destination and fails on the port; the
formula is false, in either order. -/
theorem awayFromHosts_false :
    (awayFromHosts secureHost plainPort).asks = true ∧
    ((awayFromHosts secureHost plainPort).matches (toHost "a.test" 80)).1 = false ∧
    ((awayFromHosts plainPort secureHost).matches (toHost "a.test" 80)).1 = false := by
  obtain ⟨value, order⟩ :=
    match_is_formula (awayFromHosts secureHost plainPort) (toHost "a.test" 80)
    rfl rfl (by decide)
  have means : (awayFromHosts secureHost plainPort).means (toHost "a.test" 80) = false := by decide
  refine ⟨by decide, value.trans means, (order _ ?_).trans (value.trans means)⟩
  have same : ∀ r : DefaultHeadlessRule Unit (String × Nat), r.Reorders r := fun r =>
    ⟨.refl _, .refl _, .refl _, .refl _, .refl _, .refl _, rfl⟩
  exact .logical (.cons (.default (same _)) (.cons (.logical (.swap _ _ _)) .nil))

end AiboosterEngine.Route
