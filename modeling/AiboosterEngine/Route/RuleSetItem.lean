import AiboosterEngine.Route.RuleSet

/-!
# Rule-sets inside a rule

`route/rule/rule_item_rule_set.go`. The rule-sets of a rule are evaluated on the
metadata of the rule, after its groups have set their flags.
-/

namespace AiboosterEngine.Route

open List HeadlessRule

section
variable {Addr κ : Type}

structure RuleSetItem (Addr κ : Type) where
  setList : List (List (HeadlessRule Addr κ))
  ipCidrMatchSource : Bool := false
  ipCidrAcceptEmpty : Bool := false

/-- The loop over the rule-sets. -/
def matchSets : List (List (HeadlessRule Addr κ)) → InboundContext Addr κ →
    Bool × InboundContext Addr κ
  | [], m => (false, m)
  | rules :: sets, m =>
    let (ok, m) := ruleSetMatch rules m
    if ok then (true, m) else matchSets sets m

/-- The metadata with what the item says of `ip_cidr`. -/
def RuleSetItem.enter (item : RuleSetItem Addr κ) (m : InboundContext Addr κ) :
    InboundContext Addr κ :=
  { m with cache := { m.cache with
    ipCIDRMatchSource := item.ipCidrMatchSource, ipCIDRAcceptEmpty := item.ipCidrAcceptEmpty } }

def RuleSetItem.matches (item : RuleSetItem Addr κ) (m : InboundContext Addr κ) :
    Bool × InboundContext Addr κ :=
  matchSets item.setList (item.enter m)

/-- The plain items of a rule of the router. -/
inductive PlainItem (Addr κ : Type) where
  | item (test : RuleItem Addr κ)
  | ruleSet (sets : RuleSetItem Addr κ)

/-- A rule-set item does not count as looked at. -/
def PlainItem.matches : PlainItem Addr κ → InboundContext Addr κ → Bool × InboundContext Addr κ
  | .item test, m => matchPlainItem test m
  | .ruleSet sets, m => sets.matches m

/-- The rules of a set up to the first that matches, each with the metadata as it finds it. -/
def reached : List (HeadlessRule Addr κ) → InboundContext Addr κ →
    List (HeadlessRule Addr κ × InboundContext Addr κ)
  | [], _ => []
  | rule :: rules, m =>
    (rule, m) :: if (rule.matches m).1 then [] else reached rules (rule.matches m).2

def RuleSetItem.reached (item : RuleSetItem Addr κ) (m : InboundContext Addr κ) :
    List (HeadlessRule Addr κ × InboundContext Addr κ) :=
  Route.reached item.setList.flatten (item.enter m)

/-- The rule marks the group: some item of the group matches, in the rule itself or in the default
rule it looks at last, which finds the cache reset. -/
def HeadlessRule.marks (m : InboundContext Addr κ) (g : Group) : HeadlessRule Addr κ → Bool
  | .default r => r.own m g
  | .logical mode rules invert =>
    ((logical mode rules invert).lastLeaf m).any (·.own m.resetRuleCache g)

theorem headless_matches_flag (rule : HeadlessRule Addr κ) (m : InboundContext Addr κ) (g : Group) :
    (rule.matches m).2.cache.flag g = ((!rule.resets && m.cache.flag g) || rule.marks m g) := by
  match rule with
  | .default r =>
    simp only [HeadlessRule.matches, HeadlessRule.resets, HeadlessRule.marks, Bool.not_false,
      Bool.true_and]
    exact (matches_plain_snd r m).2.1 g
  | .logical mode [] invert =>
    cases mode <;> simp [HeadlessRule.matches, matchAll, matchAny, HeadlessRule.resets,
      marks, lastLeaf, lastOfAll, lastOfAny]
  | .logical mode (rule :: rules) invert =>
    have last := lastOf_sees (sees_flag g) (rule :: rules) m m (cons_ne_nil _ _) rfl
    rw [Bool.eq_iff_iff]
    cases mode <;> simp [HeadlessRule.matches, HeadlessRule.resets, HeadlessRule.marks,
      lastLeaf, last, Option.any_eq_true]

/-- Every reset is made good by the rule itself or one behind it. -/
def Regained (g : Group) (rules : List (HeadlessRule Addr κ × InboundContext Addr κ)) : Prop :=
  ∀ p after, p :: after <:+ rules → p.1.resets = true → ∃ q ∈ p :: after, q.1.marks q.2 g = true

variable {rules : List (HeadlessRule Addr κ × InboundContext Addr κ)}
  {p : HeadlessRule Addr κ × InboundContext Addr κ}

theorem regained_cons {g : Group} :
    Regained g (p :: rules) ↔
      (p.1.resets = true → ∃ q ∈ p :: rules, q.1.marks q.2 g = true) ∧ Regained g rules := by
  constructor
  · intro all
    refine ⟨all p rules (suffix_refl _), fun q after suffix => ?_⟩
    exact all q after (suffix.trans (suffix_cons p rules))
  · rintro ⟨first, rest⟩ q after suffix
    rcases suffix_cons_iff.mp suffix with same | inner
    · cases same
      exact first
    · exact rest q after inner

theorem regained_nil (g : Group) :
    Regained g ([] : List (HeadlessRule Addr κ × InboundContext Addr κ)) := by
  intro p after suffix
  exact absurd suffix.length_le (by simp)

/-- One rule in front of others: the flag it leaves, or one of them, decides. -/
theorem regained_step {g : Group} {flag : Bool} :
    (Regained g rules ∧ (((!p.1.resets && flag) || p.1.marks p.2 g) = true ∨
        ∃ q ∈ rules, q.1.marks q.2 g = true)) ↔
      Regained g (p :: rules) ∧ (flag = true ∨ ∃ q ∈ p :: rules, q.1.marks q.2 g = true) := by
  rw [regained_cons]
  simp only [mem_cons, exists_eq_or_imp]
  cases p.1.resets <;> cases p.1.marks p.2 g <;> cases flag <;> grind

/-- Whether a flag is set after the rules of a set, from whether it is set before. -/
theorem ruleSetMatch_flag (rules : List (HeadlessRule Addr κ))
    (m : InboundContext Addr κ) (g : Group) :
    (ruleSetMatch rules m).2.cache.flag g = true ↔
      Regained g (reached rules m) ∧
        (m.cache.flag g = true ∨ ∃ q ∈ reached rules m, q.1.marks q.2 g = true) := by
  induction rules generalizing m with
  | nil => simp [ruleSetMatch, reached, regained_nil]
  | cons rule rules ih =>
    have flag := headless_matches_flag rule m g
    rw [reached, ← regained_step, ← flag]
    simp only [ruleSetMatch]
    split
    · simp [regained_nil]
    · exact ih _

theorem ruleSetMatch_append (first second : List (HeadlessRule Addr κ))
    (m : InboundContext Addr κ) :
    ruleSetMatch (first ++ second) m =
      if (ruleSetMatch first m).1 then (true, (ruleSetMatch first m).2)
      else ruleSetMatch second (ruleSetMatch first m).2 := by
  induction first generalizing m with
  | nil => simp [ruleSetMatch]
  | cons rule first ih =>
    simp only [cons_append, ruleSetMatch]
    by_cases ok : (rule.matches m).1 = true
    · simp [ok]
    · simp only [ok, ih]
      rfl

/-- Several rule-sets are evaluated like one with the rules of all. -/
theorem matchSets_eq (sets : List (List (HeadlessRule Addr κ))) (m : InboundContext Addr κ) :
    matchSets sets m = ruleSetMatch sets.flatten m := by
  induction sets generalizing m with
  | nil => rfl
  | cons rules sets ih =>
    simp only [matchSets, flatten_cons, ruleSetMatch_append, ih]

/-- **When evaluating rule-sets keeps the flags.** The flags set before `RuleSetItem.Match` are set
after it exactly when, for each of these groups, every logical rule reached, with its resets, marks
the group again or is followed by a rule that does. -/
theorem ruleSetItem_keeps_iff (item : RuleSetItem Addr κ) (m : InboundContext Addr κ) :
    (∀ g, m.cache.flag g = true → (item.matches m).2.cache.flag g = true) ↔
      ∀ g, m.cache.flag g = true → Regained g (item.reached m) := by
  have flags : ∀ g, (item.enter m).cache.flag g = m.cache.flag g := by
    intro g
    cases g <;> rfl
  constructor
  · intro keeps g set
    have after := keeps g set
    rw [RuleSetItem.matches, matchSets_eq, ruleSetMatch_flag] at after
    exact after.1
  · intro regained g set
    rw [RuleSetItem.matches, matchSets_eq, ruleSetMatch_flag, flags]
    exact ⟨regained g set, .inl set⟩

end

/-- `domain` and `rule_set` of one rule. -/
def hostAndSet (rules : List (HeadlessRule Unit (String × Nat))) :
    AbstractDefaultRule Unit (String × Nat) (PlainItem Unit (String × Nat)) :=
  { items := [.ruleSet { setList := [rules] }], destinationAddressItems := [domainItem "a.test"] }

def atPort (port : Nat) : HeadlessRule Unit (String × Nat) := .default { items := [portItem port] }

/-- The rule asks for the domain and a rule-set with the port. When the port is written as a logical
rule, the flag of the domain is reset on the way and the rule fails. -/
theorem ruleSetItem_loses :
    ((hostAndSet [atPort 80]).matches PlainItem.matches (toHost "a.test" 80)).1 = true ∧
    ((hostAndSet [.logical .or [atPort 80] false]).matches PlainItem.matches
      (toHost "a.test" 80)).1 = false ∧
    ¬ ∀ g, ((hostAndSet []).checkGroups (toHost "a.test" 80)).cache.flag g = true →
      (RuleSetItem.matches { setList := [[.logical .or [atPort 80] false]] }
        ((hostAndSet []).checkGroups (toHost "a.test" 80))).2.cache.flag g = true := by
  refine ⟨by decide, by decide, fun keeps => ?_⟩
  exact absurd (keeps .destinationAddress (by decide)) (by decide)

end AiboosterEngine.Route
