import AiboosterEngine.Adguard.Total

/-!
# Rules that can be loaded

What `ToOptions` returns is valid: its lists are not nil, also where they are empty. A rule
is made from it when the regular expressions of the list compile.
-/

namespace AiboosterEngine.Adguard
open GoSem Route List Outcome DefaultOptions Field

section
variable {libs : Libraries}

theorem mem_parseLines {lines : List Bytes} {entries : List RuleLine}
    (h : parseLines libs lines = .ok entries)
    (it : RuleLine) : it ∈ entries ↔ ∃ line ∈ lines, parseLine libs line = .ok (some it) := by
  induction lines generalizing entries with
  | nil =>
    cases h
    simp
  | cons line lines ih =>
    rw [parseLines] at h
    obtain ⟨entry, first, h⟩ := bind_eq_ok h
    obtain ⟨rest, later, h⟩ := bind_eq_ok h
    cases h
    rw [mem_append, ih later]
    simp only [mem_cons, exists_eq_or_imp, first, ok.injEq, Option.mem_toList]

theorem parsePattern_raw {it it' : RuleLine} (h : parsePattern libs it = .ok (some it')) :
    it'.isRawDomain = it.isRawDomain := by
  unfold parsePattern at h
  split at h
  · obtain ⟨ruleLine, _, h⟩ := bind_eq_ok h
    obtain ⟨ignored, _, h⟩ := bind_eq_ok h
    cases ignored with
    | true => cases h
    | false =>
      cases h
      rfl
  · obtain ⟨pattern, _, h⟩ := bind_eq_ok h
    cases pattern with
    | none => cases h
    | some ruleLine =>
      cases h
      rfl

theorem parseRule_raw {line : Bytes} {it : RuleLine} (h : parseRule libs line = .ok (some it)) :
    it.isRawDomain = false := by
  obtain ⟨rule, _, h⟩ := bind_eq_ok h
  split at h
  · cases h
  · obtain ⟨s₁, _, h⟩ := bind_eq_ok h
    obtain ⟨s₂, _, h⟩ := bind_eq_ok h
    obtain ⟨s₃, _, h⟩ := bind_eq_ok h
    obtain ⟨s₄, _, h⟩ := bind_eq_ok h
    exact parsePattern_raw h

theorem parseLine_raw {line : Bytes} {it : RuleLine} (h : parseLine libs line = .ok (some it))
    (raw : it.isRawDomain = true) : it.ruleLine ≠ [] ∧ it.isRegexp = false := by
  unfold parseLine at h
  split at h
  · cases h
  · rename_i some
    split at h
    · cases h
    · grind [parseRule_raw]

end

theorem mem_domains {ruleLines : List RuleLine} {isImportant isRegexp isExclude : Bool}
    {text : Bytes} :
    text ∈ domains ruleLines isImportant isRegexp isExclude ↔ ∃ it ∈ ruleLines,
      (it.isImportant = isImportant ∧ it.isRegexp = isRegexp ∧ it.isExclude = isExclude) ∧
        mapDomain it = text := by
  simp only [domains, mem_map, mem_filter, Bool.and_eq_true, beq_iff_eq, and_assoc]

section
variable {M A R : Type}

/-- The default rule for two lists that are there. -/
def Listed (ruleLines : List RuleLine) (isImportant isExclude : Bool)
    (o : DefaultOptions M A) : Prop :=
  (∃ isRegexp, domains ruleLines isImportant isRegexp isExclude ≠ []) ∧
    o = listOptions ruleLines isImportant isExclude

theorem withLists_cases (ruleLines : List RuleLine) (isImportant isExclude : Bool) (mode : Srs.Mode)
    (currentRule : RuleOptions M A) :
    ((∃ isRegexp, domains ruleLines isImportant isRegexp isExclude ≠ []) ∧
      withLists ruleLines isImportant isExclude mode currentRule =
        .logical mode [.default (listOptions ruleLines isImportant isExclude), currentRule] false) ∨
    ((∀ isRegexp, domains ruleLines isImportant isRegexp isExclude = []) ∧
      withLists ruleLines isImportant isExclude mode currentRule = currentRule) := by
  unfold withLists
  split
  · grind
  · rename_i none
    rw [Bool.or_eq_true, decide_eq_true_eq, decide_eq_true_eq, length_pos_iff, length_pos_iff,
      not_or, Decidable.not_not, Decidable.not_not] at none
    refine .inr ⟨fun isRegexp => ?_, rfl⟩
    cases isRegexp with
    | false => exact none.1
    | true => exact none.2

variable {ruleLines : List RuleLine} {isImportant isExclude : Bool} {o : DefaultOptions M A}
  {p : Packages M A R} {networkManager : Bool} {names : List Bytes} {currentRule : RuleOptions M A}
  {mode : Srs.Mode}

theorem leaf_withLists :
    Leaf o (withLists ruleLines isImportant isExclude mode currentRule) ↔
      Listed ruleLines isImportant isExclude o ∨ Leaf o currentRule := by
  rcases withLists_cases ruleLines isImportant isExclude mode currentRule
    with ⟨some, same⟩ | ⟨none, same⟩
  · rw [same]
    constructor
    · intro leaf
      cases leaf with
      | inside mem leaf =>
        rcases mem_cons.mp mem with rfl | mem
        · cases leaf
          exact .inl ⟨some, rfl⟩
        · cases mem_singleton.mp mem
          exact .inr leaf
    · rintro (⟨_, rfl⟩ | leaf)
      · exact .inside mem_cons_self .here
      · exact .inside (mem_cons_of_mem _ mem_cons_self) leaf
  · rw [same]
    constructor
    · exact .inr
    · rintro (⟨⟨isRegexp, some⟩, _⟩ | leaf)
      · exact absurd (none isRegexp) some
      · exact leaf

theorem formed_withLists (known : mode = .and ∨ mode = .or)
    (formed : Formed currentRule) :
    Formed (withLists ruleLines isImportant isExclude mode currentRule) := by
  rcases withLists_cases ruleLines isImportant isExclude mode currentRule with ⟨_, same⟩ | ⟨_, same⟩
  · rw [same]
    refine .logical false known (cons_ne_nil _ _) (forall_mem_cons.mpr ⟨.default _, ?_⟩)
    intro rule mem
    rw [mem_singleton.mp mem]
    exact formed
  · rw [same]
    exact formed

theorem formed_listRule (ruleLines : List RuleLine) :
    Formed (listRule ruleLines : RuleOptions M A) :=
  formed_withLists (.inl rfl)
    (formed_withLists (.inr rfl) (formed_withLists (.inl rfl) (.default _)))

/-- The default rules for two lists each, the ordinary ones in any case. -/
theorem leaf_listRule :
    Leaf o (listRule ruleLines) ↔ o = listOptions ruleLines false false ∨
      ∃ isImportant isExclude, Listed ruleLines isImportant isExclude o := by
  have base : Leaf o (.default (listOptions ruleLines false false)) ↔
    o = listOptions ruleLines false false := by
    constructor
    · intro leaf
      cases leaf
      rfl
    · rintro rfl
      exact .here
  unfold listRule
  rw [leaf_withLists, leaf_withLists, leaf_withLists, base]
  constructor
  · grind
  · rintro (same | ⟨isImportant, isExclude, listed⟩)
    · exact .inr (.inr (.inr same))
    · cases isImportant with
      | false =>
        cases isExclude with
        | false => exact .inr (.inr (.inr listed.2))
        | true => exact .inr (.inr (.inl listed))
      | true =>
        cases isExclude with
        | false => exact .inr (.inl listed)
        | true => exact .inl listed

theorem newDomainRegexItem_made {expressions : List Bytes} :
    (∃ item, newDomainRegexItem p expressions = .ok item) ↔
      ∀ regex ∈ expressions, ∃ matcher, p.compile regex = .ok matcher := by
  rw [← compileFrom_ok 0, newDomainRegexItem]
  cases compileFrom p 0 expressions with
  | ok matchers => exact ⟨fun _ => ⟨matchers, rfl⟩, fun _ => ⟨_, rfl⟩⟩
  | error e =>
    constructor
    · rintro ⟨_, h⟩
      cases h
    · rintro ⟨_, h⟩
      cases h

theorem listOptions_made :
    (∃ made, newDefaultHeadlessRule p networkManager
      (listOptions ruleLines isImportant isExclude : DefaultOptions M A).lists = .ok made) ↔
    ∀ regex ∈ domains ruleLines isImportant true isExclude, ∃ matcher,
      p.compile regex = .ok matcher := by
  rw [newDefaultHeadlessRule_made, ← newDomainRegexItem_made]
  constructor
  · intro h
    by_cases none : domains ruleLines isImportant true isExclude = []
    · rw [none]
      exact ⟨_, rfl⟩
    · have taken : taken networkManager
          (listOptions ruleLines isImportant isExclude : DefaultOptions M A).lists
            .domainRegex = true := by
        simp [taken, written, ofNetworkManager, replacedBy, lists,
          listOptions, none]
      obtain ⟨item, made⟩ := h .domainRegex (by decide) taken
      refine ⟨item, ?_⟩
      replace made : (newDomainRegexItem p (domains ruleLines isImportant true isExclude)).mapError
        (BuildError.inField "domain_regex") = .ok item := made
      cases built : newDomainRegexItem p (domains ruleLines isImportant true isExclude) with
      | ok item' =>
        rw [built] at made
        exact made
      | error e =>
        rw [built] at made
        cases made
  · rintro ⟨item, made⟩ f _ taken
    by_cases regexp : f = .domainRegex
    · subst regexp
      refine ⟨item, ?_⟩
      show (newDomainRegexItem p (domains ruleLines isImportant true isExclude)).mapError _ = _
      rw [made]
      rfl
    · by_cases domain : f = .adGuardDomain
      · subst domain
        exact ⟨_, rfl⟩
      · -- no other list is there
        have untaken :
          written (listOptions ruleLines isImportant isExclude : DefaultOptions M A).lists f =
            false := by
          cases f <;> first | rfl | exact absurd rfl regexp | exact absurd rfl domain
        rw [Field.taken, untaken] at taken
        cases taken

theorem rawOptions_made (named : [] ∉ names) :
    ∃ made, newDefaultHeadlessRule p networkManager
      (lists { domain := some names } : Options M A) = .ok made := by
  rw [newDefaultHeadlessRule_made]
  intro f _ taken
  by_cases domain : f = .domain
  · subst domain
    refine ⟨newRawDomainItem p (p.newMatcher names [] false), ?_⟩
    show newDomainItem p names [] = _
    rw [newDomainItem, if_neg (by simpa using named), if_neg (by simp)]
  · have untaken : written (lists { domain := some names } : Options M A) f = false := by
      cases f <;> first | rfl | exact absurd rfl domain
    rw [Field.taken, untaken] at taken
    cases taken

variable [DecidableEq M] [DecidableEq A]

theorem listOptions_valid (ruleLines : List RuleLine) (isImportant isExclude : Bool) :
    (listOptions ruleLines isImportant isExclude : DefaultOptions M A).isValid = true := by
  refine decide_eq_true fun same => ?_
  have lists := congrArg domainRegex same
  cases lists

theorem rawOptions_valid (names : List Bytes) :
    ({ domain := some names } : DefaultOptions M A).isValid = true := by
  refine decide_eq_true fun same => ?_
  have lists := congrArg domain same
  cases lists

theorem rawRule_valid (leaf : Leaf o (.default { domain := some names })) : o.isValid = true := by
  cases leaf
  exact rawOptions_valid names

theorem rawRule_made (p : Packages M A R) (networkManager : Bool) (named : [] ∉ names) :
    ∃ made, newHeadlessRule p networkManager (.default { domain := some names }) = .ok made := by
  rw [newHeadlessRule_ok (.default _) fun o => rawRule_valid]
  intro o leaf
  cases leaf
  exact rawOptions_made named

theorem listRule_valid (leaf : Leaf o (listRule ruleLines)) : o.isValid = true := by
  rcases leaf_listRule.mp leaf with rfl | ⟨isImportant, isExclude, _, rfl⟩
  · exact listOptions_valid _ _ _
  · exact listOptions_valid _ _ _

/-- The rule for the lines is made when their expressions compile, each in the list that it is
in. -/
theorem listRule_made :
    (∃ made, newHeadlessRule p networkManager (listRule ruleLines) = .ok made) ↔
      ∀ it ∈ ruleLines, it.isRegexp = true → ∃ matcher, p.compile (mapDomain it) = .ok matcher := by
  rw [newHeadlessRule_ok (formed_listRule ruleLines) fun o => listRule_valid]
  constructor
  · intro made it listed regexp
    have inside : mapDomain it ∈ domains ruleLines it.isImportant true it.isExclude :=
      mem_domains.mpr ⟨it, listed, ⟨rfl, regexp, rfl⟩, rfl⟩
    have leaf : Leaf (listOptions ruleLines it.isImportant it.isExclude)
      (listRule ruleLines : RuleOptions M A) :=
      leaf_listRule.mpr (.inr ⟨_, _, ⟨true, ne_nil_of_mem inside⟩, rfl⟩)
    exact listOptions_made.mp (made _ leaf) _ inside
  · intro compiles o leaf
    obtain ⟨isImportant, isExclude, rfl⟩ : ∃ isImportant isExclude,
      o = listOptions ruleLines isImportant isExclude := by
      rcases leaf_listRule.mp leaf with same | ⟨isImportant, isExclude, _, same⟩
      · exact ⟨false, false, same⟩
      · exact ⟨isImportant, isExclude, same⟩
    rw [listOptions_made]
    intro regex mem
    obtain ⟨it, listed, ⟨_, regexp, _⟩, rfl⟩ := mem_domains.mp mem
    exact compiles it listed regexp

/-- **The rules of a list** are valid, with all the rules in them. They are made exactly when each
line that is kept as a regular expression compiles, with the marks that are put around it. -/
theorem toOptions_loadable (libs : Libraries) (p : Packages M A R) (networkManager : Bool)
    {text : Bytes} {rules : List (RuleOptions M A)} (h : toOptions libs text = .ok rules) :
    (∀ rule ∈ rules, rule.isValid = .ok true ∧ ∀ o, Leaf o rule → o.isValid = true) ∧
    ((∀ rule ∈ rules, ∃ made, newHeadlessRule p networkManager rule = .ok made) ↔
      ∀ line ∈ scanLines text, ∀ it, parseLine libs line = .ok (some it) → it.isRegexp = true →
        ∃ matcher, p.compile (mapDomain it) = .ok matcher) := by
  obtain ⟨ruleLines, parsed, h⟩ := bind_eq_ok h
  have entries := mem_parseLines parsed
  split at h
  · cases h
  · split at h
    · -- bare domains only
      rename_i raw
      cases h
      rw [all_eq_true] at raw
      have named : [] ∉ ruleLines.map (·.ruleLine) := by grind [mem_map.mp, parseLine_raw]
      simp only [forall_mem_singleton]
      refine ⟨⟨isValid_ok (.default _) fun o => rawRule_valid, fun o => rawRule_valid⟩, ?_⟩
      refine iff_of_true (rawRule_made p networkManager named) fun line mem it here regexp => ?_
      have listed := (entries it).mpr ⟨line, mem, here⟩
      rw [(parseLine_raw here (raw it listed)).2] at regexp
      cases regexp
    · cases h
      simp only [forall_mem_singleton]
      refine ⟨⟨isValid_ok (formed_listRule ruleLines) fun o => listRule_valid,
        fun o => listRule_valid⟩, ?_⟩
      rw [listRule_made]
      constructor
      · intro compiles line mem it here
        exact compiles it ((entries it).mpr ⟨line, mem, here⟩)
      · grind

end

def fourKinds : Bytes := utf8 "||a.test^\n@@/b/\n||c.test^$important\n@@||d.test^$important\n"

theorem fourKinds_loadable : ∃ rules : List (RuleOptions Unit Unit),
    toOptions plainLibraries fourKinds = .ok rules ∧
    ∀ rule ∈ rules, ∃ made, newHeadlessRule plainPackages true rule = .ok made := by
  obtain ⟨rules, h⟩ : ∃ rules : List (RuleOptions Unit Unit),
      toOptions plainLibraries fourKinds = .ok rules := ⟨_, rfl⟩
  refine ⟨rules, h, (toOptions_loadable plainLibraries plainPackages true h).2.mpr ?_⟩
  intro _ _ it _ _
  exact ⟨(), rfl⟩

def regexpPackages : Packages Unit Unit Unit :=
  { plainPackages with
    compile := fun regex => if regex = utf8 "(" then .error "missing closing )" else .ok () }

/-- A list with the line `/(/`: the rule is valid, and is not made. -/
theorem badRegexp_not_loadable : ∃ rule : RuleOptions Unit Unit,
    toOptions plainLibraries (utf8 "/(/") = .ok [rule] ∧ rule.isValid = .ok true ∧
    newHeadlessRule regexpPackages true rule =
      .err (.item (.inField "domain_regex" (.parseExpression 0 "missing closing )"))) := by
  refine ⟨.default { adGuardDomain := some [], domainRegex := some [utf8 "("] }, ?_, ?_, ?_⟩
  · rfl
  · rw [RuleOptions.isValid]
    decide
  · rw [newHeadlessRule]
    rfl

end AiboosterEngine.Adguard
