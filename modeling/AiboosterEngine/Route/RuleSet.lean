import AiboosterEngine.Route.Rule

/-!
# What a rule-set matches

A rule-set should match when one of its rules does. Its rules share one
metadata, whose flags an earlier rule sets even when it fails as a whole.
-/

namespace AiboosterEngine.Route

open List InboundContext AbstractDefaultRule HeadlessRule

section
variable {Addr κ ι : Type}

@[simp] theorem mark_flag (c : RuleCache) (g g' : Group) :
    (c.mark g).flag g' = (c.flag g' || decide (g = g')) := by
  cases g <;> cases g' <;> simp [RuleCache.mark, RuleCache.flag]

@[simp] theorem mark_didMatch (c : RuleCache) (g : Group) : (c.mark g).didMatch = c.didMatch := by
  cases g <;> rfl

theorem Group.exists_iff {P : Group → Prop} : (∃ g, P g) ↔
    P .sourceAddress ∨ P .sourcePort ∨ P .destinationAddress ∨ P .destinationPort := by
  constructor
  · rintro ⟨g, h⟩
    cases g with
    | sourceAddress => exact .inl h
    | sourcePort => exact .inr (.inl h)
    | destinationAddress => exact .inr (.inr (.inl h))
    | destinationPort => exact .inr (.inr (.inr h))
  · rintro (h | h | h | h) <;> exact ⟨_, h⟩

theorem Group.forall_iff {P : Group → Prop} : (∀ g, P g) ↔
    P .sourceAddress ∧ P .sourcePort ∧ P .destinationAddress ∧ P .destinationPort :=
  ⟨fun h => ⟨h _, h _, h _, h _⟩, fun ⟨_, _, _, _⟩ g => by cases g <;> assumption⟩

/-- Two contexts that items cannot tell apart. -/
structure SameView (m m' : InboundContext Addr κ) : Prop where
  connection : m'.connection = m.connection
  ignore : m'.ignoreDestinationIPCIDRMatch = m.ignoreDestinationIPCIDRMatch
  matchSource : m'.cache.ipCIDRMatchSource = m.cache.ipCIDRMatchSource
  acceptEmpty : m'.cache.ipCIDRAcceptEmpty = m.cache.ipCIDRAcceptEmpty

theorem SameView.refl (m : InboundContext Addr κ) : SameView m m := ⟨rfl, rfl, rfl, rfl⟩

theorem SameView.trans {a b c : InboundContext Addr κ} (h : SameView a b) (h' : SameView b c) :
    SameView a c :=
  ⟨h'.connection.trans h.connection, h'.ignore.trans h.ignore,
    h'.matchSource.trans h.matchSource, h'.acceptEmpty.trans h.acceptEmpty⟩

variable {m m' : InboundContext Addr κ} {r : DefaultHeadlessRule Addr κ}

theorem SameView.matches (h : SameView m m') (item : RuleItem Addr κ) :
    item.matches m' = item.matches m := by
  cases item with
  | ipCIDR isSource ipSet =>
    simp only [RuleItem.matches, h.connection, h.matchSource, h.acceptEmpty]
  | other test => simp only [RuleItem.matches, h.connection]

theorem SameView.any (h : SameView m m') (items : List (RuleItem Addr κ)) :
    items.any (·.matches m') = items.any (·.matches m) := by
  have : (fun item : RuleItem Addr κ => item.matches m') = fun item => item.matches m := by
    funext item
    exact h.matches item
  rw [this]

section
variable (g : Group) (items : List (RuleItem Addr κ)) (m : InboundContext Addr κ)

theorem sameView_setDidMatch : SameView m m.setDidMatch := ⟨rfl, rfl, rfl, rfl⟩

theorem sameView_checkGroup : SameView m (checkGroup g items m) := by
  unfold checkGroup
  split
  · simp only
    split
    · cases g <;> exact ⟨rfl, rfl, rfl, rfl⟩
    · exact sameView_setDidMatch m
  · exact SameView.refl m

@[simp] theorem checkGroup_ignore :
    (checkGroup g items m).ignoreDestinationIPCIDRMatch = m.ignoreDestinationIPCIDRMatch :=
  (sameView_checkGroup g items m).ignore

@[simp] theorem any_checkGroup (items' : List (RuleItem Addr κ)) :
    items'.any (·.matches (checkGroup g items m)) = items'.any (·.matches m) :=
  (sameView_checkGroup g items m).any items'

/-- A block sets its flag when it is set already or one of its items matches. -/
theorem checkGroup_flag (g' : Group) :
    (checkGroup g items m).cache.flag g'
      = (m.cache.flag g' || (decide (g = g') && items.any (·.matches m))) := by
  have view := (sameView_setDidMatch m).any items
  unfold checkGroup
  by_cases skip : (!items.isEmpty && !m.cache.flag g) = true
  · rw [if_pos skip]
    simp only [view]
    by_cases hit : items.any (·.matches m) = true
    · rw [if_pos hit, hit, mark_flag]
      simp [setDidMatch, RuleCache.flag]
    · rw [if_neg hit]
      simp only [Bool.not_eq_true] at hit
      rw [hit]
      cases g' <;> simp [setDidMatch, RuleCache.flag]
  · rw [if_neg skip]
    by_cases same : g = g'
    · subst same
      by_cases set : m.cache.flag g = true
      · simp [set]
      · have : items = [] := by simpa [set] using skip
        simp [this]
    · simp [same]

theorem checkGroup_didMatch :
    (checkGroup g items m).cache.didMatch
      = (m.cache.didMatch || (!items.isEmpty && !m.cache.flag g)) := by
  unfold checkGroup
  by_cases looked : (!items.isEmpty && !m.cache.flag g) = true
  · rw [if_pos looked, looked]
    simp only
    split <;> simp [setDidMatch]
  · rw [if_neg looked]
    simp only [Bool.not_eq_true] at looked
    rw [looked, Bool.or_false]

end

/-- Some item of the group matches. -/
def AbstractDefaultRule.own (r : AbstractDefaultRule Addr κ ι) (m : InboundContext Addr κ)
    (g : Group) : Bool :=
  (r.groupItems m.ignoreDestinationIPCIDRMatch g).any (·.matches m)

def AbstractDefaultRule.present (r : AbstractDefaultRule Addr κ ι) (m : InboundContext Addr κ)
    (g : Group) : Bool :=
  !(r.groupItems m.ignoreDestinationIPCIDRMatch g).isEmpty

theorem SameView.own (h : SameView m m') (r : AbstractDefaultRule Addr κ ι) (g : Group) :
    r.own m' g = r.own m g := by
  unfold AbstractDefaultRule.own
  rw [h.any, h.ignore]

theorem SameView.present (h : SameView m m') (r : AbstractDefaultRule Addr κ ι) (g : Group) :
    r.present m' g = r.present m g := by
  unfold AbstractDefaultRule.present
  rw [h.ignore]

theorem own_present {r : AbstractDefaultRule Addr κ ι} {g : Group} (h : r.own m g = true) :
    r.present m g = true := by
  unfold own at h
  unfold present
  cases hi : r.groupItems m.ignoreDestinationIPCIDRMatch g with
  | nil => rw [hi] at h; cases h
  | cons => rfl

theorem fails_iff {r : AbstractDefaultRule Addr κ ι} {g : Group} :
    r.fails m g = true ↔ r.present m g = true ∧ m.cache.flag g = false := by
  simp [fails, present]

section
variable (r : AbstractDefaultRule Addr κ ι) (m : InboundContext Addr κ)

theorem sameView_checkGroups : SameView m (r.checkGroups m) := by
  have three := ((sameView_checkGroup .sourceAddress r.sourceAddressItems m).trans
    (sameView_checkGroup .sourcePort r.sourcePortItems _)).trans
    (sameView_checkGroup .destinationAddress r.destinationAddressItems _)
  unfold checkGroups
  simp only
  split
  · exact three.trans (sameView_checkGroup _ _ _)
  · exact (three.trans (sameView_checkGroup _ _ _)).trans (sameView_checkGroup _ _ _)

theorem checkGroups_flag (g : Group) :
    (r.checkGroups m).cache.flag g = (m.cache.flag g || r.own m g) := by
  unfold checkGroups own
  simp only [checkGroup_ignore]
  -- whether the second block of the destination is run is settled by the metadata alone
  by_cases ignore : m.ignoreDestinationIPCIDRMatch = true
  · rw [if_pos ignore]
    simp only [checkGroup_flag, any_checkGroup]
    cases g <;> simp [groupItems, ignore]
  · rw [if_neg ignore]
    simp only [checkGroup_flag, any_checkGroup]
    cases g <;> simp [groupItems, ignore, Bool.or_assoc]

/-- Groups have been looked at if one of them was not settled by the flags found. -/
theorem checkGroups_didMatch :
    (r.checkGroups m).cache.didMatch = true ↔
      m.cache.didMatch = true ∨ ∃ g, r.fails m g = true := by
  rw [Group.exists_iff]
  unfold checkGroups fails
  simp only [checkGroup_ignore]
  by_cases ignore : m.ignoreDestinationIPCIDRMatch = true
  · rw [if_pos ignore]
    simp only [checkGroup_didMatch, checkGroup_flag]
    simp [groupItems, ignore, or_assoc]
  · rw [if_neg ignore]
    simp only [checkGroup_didMatch, checkGroup_flag, any_checkGroup]
    simp only [groupItems, ignore]
    by_cases hd : r.destinationAddressItems = []
    · simp [hd, or_assoc]
    · by_cases flag : m.cache.flag .destinationAddress = true
      · simp [flag, or_assoc]
      · simp [hd, flag, or_assoc]

end

theorem matchItems_plain (items : List (RuleItem Addr κ)) (m : InboundContext Addr κ) :
    matchItems matchPlainItem items m
      = (items.all (·.matches m), if items.isEmpty then m else m.setDidMatch) := by
  induction items generalizing m with
  | nil => rfl
  | cons item items ih =>
    have view := sameView_setDidMatch m
    have step : matchItems matchPlainItem (item :: items) m
        = if item.matches m.setDidMatch then matchItems matchPlainItem items m.setDidMatch
          else (false, m.setDidMatch) := rfl
    rw [step, ih, view.matches]
    simp only [view.matches]
    by_cases hit : item.matches m = true
    · simp [hit, setDidMatch]
    · simp [hit]

/-- All that a rule asks for is there, in the connection or as a flag found. -/
structure Holds (r : DefaultHeadlessRule Addr κ) (m : InboundContext Addr κ) : Prop where
  plain : ∀ item ∈ r.items, item.matches m = true
  covered : ∀ g, r.present m g = true → m.cache.flag g = true ∨ r.own m g = true

/-- `DidMatch` after the rule. -/
def Looked (r : DefaultHeadlessRule Addr κ) (m : InboundContext Addr κ) : Prop :=
  m.cache.didMatch = true ∨ r.items ≠ [] ∨ ∃ g, r.fails m g = true

theorem noItems_present (h : r.noItems = true) (m : InboundContext Addr κ) (g : Group) :
    r.present m g = false := by
  simp only [noItems, Bool.and_eq_true, List.isEmpty_iff] at h
  obtain ⟨⟨⟨⟨⟨_, h1⟩, h2⟩, h3⟩, h4⟩, h5⟩ := h
  cases g <;> simp [present, groupItems, *]

section
variable (r : DefaultHeadlessRule Addr κ)

section
variable (m : InboundContext Addr κ)

def afterItems : InboundContext Addr κ :=
  if r.items.isEmpty then r.checkGroups m else (r.checkGroups m).setDidMatch

theorem sameView_afterItems : SameView m (afterItems r m) := by
  unfold afterItems
  split
  · exact sameView_checkGroups r m
  · exact (sameView_checkGroups r m).trans (sameView_setDidMatch _)

theorem afterItems_flag (g : Group) :
    (afterItems r m).cache.flag g = (m.cache.flag g || r.own m g) := by
  rw [← checkGroups_flag]
  unfold afterItems
  split
  · rfl
  · cases g <;> rfl

theorem afterItems_didMatch : (afterItems r m).cache.didMatch = true ↔ Looked r m := by
  unfold afterItems Looked
  by_cases none : r.items = []
  · simp [none, checkGroups_didMatch]
  · simp [none, setDidMatch]

theorem fails_afterItems (g : Group) :
    r.fails (afterItems r m) g = true ↔
      ¬ (r.present m g = true → m.cache.flag g = true ∨ r.own m g = true) := by
  rw [fails_iff, (sameView_afterItems r m).present, afterItems_flag]
  simp

theorem matches_plain_eq (asks : r.noItems = false) :
    (r.matches matchPlainItem m).2 = afterItems r m ∧
    (Holds r m → (r.matches matchPlainItem m).1 = (!(afterItems r m).cache.didMatch || !r.invert)) ∧
    (¬ Holds r m → (r.matches matchPlainItem m).1 = r.invert) := by
  have run : matchItems matchPlainItem r.items (r.checkGroups m)
      = (r.items.all (·.matches m), afterItems r m) := by
    rw [matchItems_plain]
    simp only [(sameView_checkGroups r m).matches, afterItems]
  -- The four tests at the end of `Match` are one.
  have none : (¬ ∃ g, r.fails (afterItems r m) g = true) ↔
      ∀ g, r.present m g = true → m.cache.flag g = true ∨ r.own m g = true := by
    simp only [fails_afterItems, not_exists, Classical.not_not]
  rw [Group.exists_iff] at none
  unfold AbstractDefaultRule.matches
  rw [run]
  simp only [asks, Bool.false_eq_true, if_false]
  by_cases plain : r.items.all (·.matches m) = true
  · by_cases ok : r.fails (afterItems r m) .sourceAddress = true ∨
        r.fails (afterItems r m) .sourcePort = true ∨
        r.fails (afterItems r m) .destinationAddress = true ∨
        r.fails (afterItems r m) .destinationPort = true
    · have fails : ¬ Holds r m := fun h => (none.mpr h.covered) ok
      simp only [plain, fails]
      rcases ok with h | h | h | h <;> simp [h]
    · have holds : Holds r m := ⟨by simpa using plain, none.mp ok⟩
      simp only [not_or, Bool.not_eq_true] at ok
      obtain ⟨h1, h2, h3, h4⟩ := ok
      simp only [plain, h1, h2, h3, h4, holds]
      cases (afterItems r m).cache.didMatch <;> simp
  · have fails : ¬ Holds r m := fun h => plain (by simpa using h.plain)
    simp [plain, fails]

/-- The verdict. A rule that asks for nothing is accepted, also when it is inverted. -/
theorem matches_plain_fst :
    (r.matches matchPlainItem m).1 = true ↔
      r.noItems = true ∨ (Holds r m ∧ (r.invert = false ∨ ¬ Looked r m)) ∨
        (¬ Holds r m ∧ r.invert = true) := by
  by_cases asks : r.noItems = true
  · simp [AbstractDefaultRule.matches, asks]
  · have asks' : r.noItems = false := by simpa using asks
    obtain ⟨_, holding, failing⟩ := matches_plain_eq r m asks'
    by_cases holds : Holds r m
    · rw [holding holds, ← afterItems_didMatch]
      cases r.invert <;> simp [asks, holds]
    · rw [failing holds]
      simp [asks, holds]

/-- The cache: flags are only added, and only those of groups that match. -/
theorem matches_plain_snd :
    SameView m (r.matches matchPlainItem m).2 ∧
    (∀ g, (r.matches matchPlainItem m).2.cache.flag g = (m.cache.flag g || r.own m g)) ∧
    ((r.matches matchPlainItem m).2.cache.didMatch = true ↔ Looked r m) := by
  by_cases asks : r.noItems = true
  · have leaves : (r.matches matchPlainItem m).2 = m := by
      simp [AbstractDefaultRule.matches, asks]
    have absent : ∀ g, r.own m g = false := fun g => by
      have := noItems_present asks m g
      cases own : r.own m g with
      | false => rfl
      | true => rw [own_present own] at this; cases this
    have items : r.items = [] := by
      simp only [noItems, Bool.and_eq_true, List.isEmpty_iff] at asks
      exact asks.1.1.1.1.1
    rw [leaves]
    refine ⟨SameView.refl m, fun g => by simp [absent], ?_⟩
    simp [Looked, items, fails_iff, noItems_present asks]
  · have asks' : r.noItems = false := by simpa using asks
    rw [(matches_plain_eq r m asks').1]
    exact ⟨sameView_afterItems r m, afterItems_flag r m, afterItems_didMatch r m⟩

end

end

/-- Metadata as a rule of a rule-set can find it. -/
structure Tidy (m : InboundContext Addr κ) : Prop where
  flagged : ∀ g, m.cache.flag g = true → m.cache.didMatch = true
  matchSource : m.cache.ipCIDRMatchSource = false
  acceptEmpty : m.cache.ipCIDRAcceptEmpty = false

theorem tidy_reset (m : InboundContext Addr κ) : Tidy m.resetRuleCache :=
  ⟨fun g h => (by cases g <;> exact Bool.noConfusion h), rfl, rfl⟩

theorem Tidy.sameView (h : Tidy m) : SameView m m.resetRuleCache :=
  ⟨rfl, rfl, h.matchSource.symm, h.acceptEmpty.symm⟩

theorem reset_flag (m : InboundContext Addr κ) (g : Group) :
    m.resetRuleCache.cache.flag g = false := by
  cases g <;> rfl

theorem flag_of_fresh (fresh : m.resetRuleCache = m) (g : Group) : m.cache.flag g = false :=
  fresh ▸ reset_flag m g

theorem reset_reset (m : InboundContext Addr κ) :
    m.resetRuleCache.resetRuleCache = m.resetRuleCache := rfl

theorem Tidy.matches_plain (h : Tidy m) : Tidy (r.matches matchPlainItem m).2 := by
  obtain ⟨view, flags, did⟩ := matches_plain_snd r m
  refine ⟨fun g set => ?_, view.matchSource.trans h.matchSource,
    view.acceptEmpty.trans h.acceptEmpty⟩
  rw [did]
  rw [flags] at set
  by_cases found : m.cache.flag g = true
  · exact .inl (h.flagged g found)
  · have own : r.own m g = true := by simpa [found] using set
    exact .inr (.inr ⟨g, fails_iff.mpr ⟨own_present own, by simpa using found⟩⟩)

/-- With the flags `flags` the rule has all it asks for, and not without them: in one group at least
it has no match of its own. -/
structure Borrows (r : DefaultHeadlessRule Addr κ) (m : InboundContext Addr κ)
    (flags : Group → Prop) : Prop where
  plain : ∀ item ∈ r.items, item.matches m = true
  covered : ∀ g, r.present m g = true → flags g ∨ r.own m g = true
  borrowed : ∃ g, r.present m g = true ∧ r.own m g = false

/-- The rule is accepted only because of the flags. -/
def GainsMatch (r : DefaultHeadlessRule Addr κ) (m : InboundContext Addr κ)
    (flags : Group → Prop) : Prop :=
  r.invert = false ∧ Borrows r m flags

/-- The inverted rule is rejected only because of the flags, or, when there is nothing for it to
look at, because something has been looked at before (`did`). -/
def LosesMatch (r : DefaultHeadlessRule Addr κ) (m : InboundContext Addr κ) (flags : Group → Prop)
    (did : Prop) : Prop :=
  r.invert = true ∧
    (Borrows r m flags ∨ (r.noItems = false ∧ r.items = [] ∧ (∀ g, r.present m g = false) ∧ did))

theorem holds_reset_iff (tidy : Tidy m) :
    Holds r m.resetRuleCache ↔
      Holds r m ∧ ¬ ∃ g, r.present m g = true ∧ r.own m g = false := by
  have view := tidy.sameView
  constructor
  · rintro ⟨plain, covered⟩
    simp only [view.matches, view.present, view.own, reset_flag, Bool.false_eq_true,
      false_or] at plain covered
    refine ⟨⟨plain, fun g hg => .inr (covered g hg)⟩, ?_⟩
    rintro ⟨g, hg, none⟩
    rw [covered g hg] at none
    cases none
  · rintro ⟨⟨plain, covered⟩, all⟩
    refine ⟨by simpa only [view.matches] using plain, fun g hg => .inr ?_⟩
    rw [view.present] at hg
    rw [view.own]
    cases own : r.own m g with
    | true => rfl
    | false => exact absurd ⟨g, hg, own⟩ all

theorem looked_reset_iff (r : DefaultHeadlessRule Addr κ) (m : InboundContext Addr κ) :
    Looked r m.resetRuleCache ↔ r.items ≠ [] ∨ ∃ g, r.present m g = true := by
  have present : ∀ g, r.present m.resetRuleCache g = r.present m g := fun _ => rfl
  have did : m.resetRuleCache.cache.didMatch = false := rfl
  simp [Looked, fails_iff, reset_flag, present, did]

theorem looked_iff (tidy : Tidy m) :
    Looked r m ↔ m.cache.didMatch = true ∨ Looked r m.resetRuleCache := by
  rw [looked_reset_iff]
  unfold Looked
  constructor
  · rintro (did | items | ⟨g, hg⟩)
    · exact .inl did
    · exact .inr (.inl items)
    · exact .inr (.inr ⟨g, (fails_iff.mp hg).1⟩)
  · rintro (did | items | ⟨g, hg⟩)
    · exact .inl did
    · exact .inr (.inl items)
    · by_cases found : m.cache.flag g = true
      · exact .inl (tidy.flagged g found)
      · exact .inr (.inr ⟨g, fails_iff.mpr ⟨hg, by simpa using found⟩⟩)

/-- With the conditions on addresses a rule that asks for anything looks at something. -/
theorem looked_of_asks (tidy : Tidy m) (all : m.ignoreDestinationIPCIDRMatch = false)
    (asks : r.noItems = false) : Looked r m := by
  rw [looked_iff tidy, looked_reset_iff]
  right
  by_cases plain : r.items = []
  · right
    apply Classical.byContradiction
    intro none
    have absent : ∀ g, r.groupItems false g = [] := by
      intro g
      have empty := (not_exists.mp none) g
      unfold present at empty
      rw [all] at empty
      simpa using empty
    simp only [Group.forall_iff, groupItems, Bool.false_eq_true, if_false,
      append_eq_nil_iff] at absent
    simp [noItems, plain, absent] at asks
  · exact .inl plain

/-- A default rule is accepted if it matches on its own and does not lose the match, or if
it gains one. -/
theorem default_matches_iff (tidy : Tidy m) :
    (r.matches matchPlainItem m).1 = true ↔
      ((r.matches matchPlainItem m.resetRuleCache).1 = true ∧
        ¬ LosesMatch r m.resetRuleCache (m.cache.flag · = true) (m.cache.didMatch = true)) ∨
        GainsMatch r m.resetRuleCache (m.cache.flag · = true) := by
  have view := tidy.sameView
  have reset := holds_reset_iff (r := r) tidy
  have looked := looked_iff (r := r) tidy
  rw [matches_plain_fst, matches_plain_fst, reset, looked]
  have borrows : Borrows r m.resetRuleCache (m.cache.flag · = true) ↔
      Holds r m ∧ ∃ g, r.present m g = true ∧ r.own m g = false := by
    constructor
    · rintro ⟨plain, covered, borrowed⟩
      simp only [view.matches, view.present, view.own] at plain covered borrowed
      exact ⟨⟨plain, covered⟩, borrowed⟩
    · rintro ⟨⟨plain, covered⟩, borrowed⟩
      constructor <;> simpa only [view.matches, view.present, view.own]
  have fresh : ¬ Looked r m.resetRuleCache ↔ r.items = [] ∧ ∀ g, r.present m g = false := by
    simp [looked_reset_iff]
  have idle : ¬ Looked r m.resetRuleCache → Holds r m := by
    intro none
    obtain ⟨items, absent⟩ := fresh.mp none
    exact ⟨by simp [items], fun g present => by simp [absent] at present⟩
  -- a group that is borrowed is in the rule, and has been looked at on the way
  have seen : Holds r m → (∃ g, r.present m g = true ∧ r.own m g = false) →
      m.cache.didMatch = true ∧ r.noItems = false := by
    rintro holds ⟨g, present, none⟩
    constructor
    · rcases holds.covered g present with found | own
      · exact tidy.flagged g found
      · rw [own] at none; cases none
    · cases asks : r.noItems with
      | false => rfl
      | true => rw [noItems_present asks] at present; cases present
  simp only [GainsMatch, LosesMatch, borrows, view.present, ← and_assoc (b := ∀ g, _), ← fresh]
  generalize (∃ g, r.present m g = true ∧ r.own m g = false) = borrowed at seen ⊢
  cases r.invert <;> grind

/-- `m'` is what a rule may leave of `m`: another cache, no more. -/
structure Leaves (m m' : InboundContext Addr κ) : Prop where
  tidy : Tidy m'
  reset : m'.resetRuleCache = m.resetRuleCache

theorem Leaves.refl (tidy : Tidy m) : Leaves m m := ⟨tidy, rfl⟩

theorem Leaves.trans {a b c : InboundContext Addr κ} (h : Leaves a b) (h' : Leaves b c) :
    Leaves a c := ⟨h'.tidy, h'.reset.trans h.reset⟩

theorem SameView.reset_eq (h : SameView m m') : m'.resetRuleCache = m.resetRuleCache := by
  unfold resetRuleCache
  rw [h.connection, h.ignore]

/-- What resets and default rules may do to the metadata. -/
structure Allows (R : InboundContext Addr κ → InboundContext Addr κ → Prop) : Prop where
  refl : ∀ m, R m m
  trans : ∀ {a b c}, R a b → R b c → R a c
  reset : ∀ m, R m m.resetRuleCache
  default : ∀ r m, R m (AbstractDefaultRule.matches matchPlainItem r m).2

section
variable {R : InboundContext Addr κ → InboundContext Addr κ → Prop} (allows : Allows R)
include allows

mutual

/-- It is all that a rule may do. -/
theorem Allows.matches : (rule : HeadlessRule Addr κ) → (m : InboundContext Addr κ) →
    R m (rule.matches m).2
  | .default r, m => by
    simp only [HeadlessRule.matches]
    exact allows.default r m
  | .logical .and rules invert, m => by
    simp only [HeadlessRule.matches]
    exact (Allows.matchList rules m).1
  | .logical .or rules invert, m => by
    simp only [HeadlessRule.matches]
    exact (Allows.matchList rules m).2

theorem Allows.matchList : (rules : List (HeadlessRule Addr κ)) → (m : InboundContext Addr κ) →
    R m (matchAll rules m).2 ∧ R m (matchAny rules m).2
  | [], m => by
    simp only [matchAll, matchAny]
    exact ⟨allows.refl m, allows.refl m⟩
  | rule :: rules, m => by
    have first := allows.trans (allows.reset m) (Allows.matches rule m.resetRuleCache)
    have rest := Allows.matchList rules (rule.matches m.resetRuleCache).2
    simp only [matchAll, matchAny]
    constructor
    · split
      · exact allows.trans first rest.1
      · exact first
    · split
      · exact first
      · exact allows.trans first rest.2

end

end

theorem headless_reset (rule : HeadlessRule Addr κ) (m : InboundContext Addr κ) :
    (rule.matches m).2.resetRuleCache = m.resetRuleCache := by
  have allows : Allows (fun m m' : InboundContext Addr κ => m'.resetRuleCache = m.resetRuleCache) :=
    ⟨fun _ => rfl, fun h h' => h'.trans h, reset_reset,
      fun r m => (matches_plain_snd r m).1.reset_eq⟩
  exact allows.matches rule m

theorem leaves_matches (rule : HeadlessRule Addr κ) (m : InboundContext Addr κ) (tidy : Tidy m) :
    Leaves m (rule.matches m).2 := by
  refine ⟨?_, headless_reset rule m⟩
  have allows : Allows (fun m m' : InboundContext Addr κ => Tidy m → Tidy m') :=
    ⟨fun _ => id, fun h h' => h' ∘ h, fun m _ => tidy_reset m, fun _ _ => Tidy.matches_plain⟩
  exact allows.matches rule m tidy

/-- The rule resets the cache. -/
def HeadlessRule.resets : HeadlessRule Addr κ → Bool
  | .default _ => false
  | .logical _ rules _ => !rules.isEmpty

section
variable (m)

mutual

/-- The default rule that a rule looks at last. -/
def HeadlessRule.lastLeaf : HeadlessRule Addr κ → Option (DefaultHeadlessRule Addr κ)
  | .default r => some r
  | .logical .and rules _ => lastOfAll rules
  | .logical .or rules _ => lastOfAny rules

/-- An `and` goes on as long as its sub-rules match. -/
def lastOfAll : List (HeadlessRule Addr κ) → Option (DefaultHeadlessRule Addr κ)
  | [] => none
  | rule :: rules =>
    if (rule.matches m.resetRuleCache).1 && !rules.isEmpty then lastOfAll rules
    else rule.lastLeaf

/-- An `or` goes on as long as they do not. -/
def lastOfAny : List (HeadlessRule Addr κ) → Option (DefaultHeadlessRule Addr κ)
  | [] => none
  | rule :: rules =>
    if !(rule.matches m.resetRuleCache).1 && !rules.isEmpty then lastOfAny rules
    else rule.lastLeaf

end

end

/-- What can be seen of the cache, and what a default rule does for it: it stays seen, and a
reset clears it. -/
structure Sees (see : InboundContext Addr κ → Prop)
    (own : DefaultHeadlessRule Addr κ → InboundContext Addr κ → Prop) : Prop where
  default : ∀ r (m : InboundContext Addr κ), Tidy m →
    (see (r.matches matchPlainItem m).2 ↔ see m ∨ own r m.resetRuleCache)
  reset : ∀ m : InboundContext Addr κ, ¬ see m.resetRuleCache

theorem sees_flag (g : Group) :
    Sees (fun m : InboundContext Addr κ => m.cache.flag g = true) (·.own · g = true) := by
  constructor
  · intro r m tidy
    rw [(matches_plain_snd r m).2.1, Bool.or_eq_true, tidy.sameView.own]
  · simp [reset_flag]

theorem sees_didMatch :
    Sees (fun m : InboundContext Addr κ => m.cache.didMatch = true) Looked := by
  constructor
  · intro r m tidy
    rw [(matches_plain_snd r m).2.2, looked_iff tidy]
  · intro m did
    cases did

section
variable {see : InboundContext Addr κ → Prop}
  {own : DefaultHeadlessRule Addr κ → InboundContext Addr κ → Prop}

mutual

/-- From a cache just reset only the default rule looked at last leaves anything. -/
theorem lastLeaf_sees (sees : Sees see own) : (rule : HeadlessRule Addr κ) →
    (m : InboundContext Addr κ) →
    (see (rule.matches m.resetRuleCache).2 ↔
      ∃ r, rule.lastLeaf m = some r ∧ own r m.resetRuleCache)
  | .default r, m => by
    have first := sees.default r m.resetRuleCache (tidy_reset m)
    simpa [HeadlessRule.matches, HeadlessRule.lastLeaf, sees.reset, reset_reset] using first
  | .logical mode rules invert, m => by
    by_cases none : rules = []
    · cases mode <;> simp [none, HeadlessRule.matches, HeadlessRule.lastLeaf, matchAll, matchAny,
        lastOfAll, lastOfAny, sees.reset]
    · have last := lastOf_sees sees rules m.resetRuleCache m none rfl
      cases mode <;> simp only [HeadlessRule.matches, HeadlessRule.lastLeaf, last]

theorem lastOf_sees (sees : Sees see own) : (rules : List (HeadlessRule Addr κ)) →
    (m m' : InboundContext Addr κ) → rules ≠ [] → m.resetRuleCache = m'.resetRuleCache →
    (see (matchAll rules m).2 ↔ ∃ r, lastOfAll m' rules = some r ∧ own r m'.resetRuleCache) ∧
      (see (matchAny rules m).2 ↔ ∃ r, lastOfAny m' rules = some r ∧ own r m'.resetRuleCache)
  | [], _, _, asks, _ => absurd rfl asks
  | rule :: rules, m, m', _, same => by
    have first := lastLeaf_sees sees rule m'
    have left := headless_reset rule m'.resetRuleCache
    simp only [matchAll, lastOfAll, matchAny, lastOfAny, same]
    cases ok : (rule.matches m'.resetRuleCache).1 <;> by_cases none : rules = []
    · simp [none, matchAny, first]
    · simp [none, first, lastOf_sees sees rules _ m' none left]
    · simp [none, matchAll, first]
    · simp [none, first, lastOf_sees sees rules _ m' none left]

end

/-- What is seen after a rule: what was seen before unless the rule resets it, and what the default
rule it looks at last does. -/
theorem headless_sees (sees : Sees see own) (rule : HeadlessRule Addr κ) (left : Leaves m m') :
    see (rule.matches m').2 ↔
      (rule.resets = false ∧ see m') ∨ ∃ r, rule.lastLeaf m = some r ∧ own r m.resetRuleCache := by
  match rule with
  | .default r =>
    have first := sees.default r m' left.tidy
    simpa [HeadlessRule.matches, HeadlessRule.lastLeaf, resets, left.reset] using first
  | .logical mode [] invert =>
    cases mode <;> simp [HeadlessRule.matches, matchAll, matchAny, resets, lastLeaf, lastOfAll,
      lastOfAny]
  | .logical mode (rule :: rules) invert =>
    have last := lastOf_sees sees (rule :: rules) m' m (cons_ne_nil _ _) left.reset
    cases mode <;> simp [HeadlessRule.matches, resets, lastLeaf, last]

variable (m own)

/-- Some rule, in the default rule it looks at last, does it for the connection, and no rule behind
it resets the cache. -/
def LeftBy (before : List (HeadlessRule Addr κ)) : Prop :=
  ∃ rule after, rule :: after <:+ before ∧ (∃ r, rule.lastLeaf m = some r ∧ own r m) ∧
    ∀ other ∈ after, other.resets = false

variable {m own}

theorem leftBy_cons {before : List (HeadlessRule Addr κ)} {rule : HeadlessRule Addr κ} :
    LeftBy m own (rule :: before) ↔
      ((∃ r, rule.lastLeaf m = some r ∧ own r m) ∧ ∀ other ∈ before, other.resets = false) ∨
        LeftBy m own before := by
  constructor
  · rintro ⟨first, after, suffix, does⟩
    rcases suffix_cons_iff.mp suffix with same | inner
    · cases same
      exact .inl does
    · exact .inr ⟨first, after, inner, does⟩
  · rintro (does | ⟨first, after, inner, does⟩)
    · exact ⟨rule, before, suffix_refl _, does⟩
    · exact ⟨first, after, inner.trans (suffix_cons rule before), does⟩

/-- The metadata as the rules leave it. -/
def leave (before : List (HeadlessRule Addr κ)) (m : InboundContext Addr κ) :
    InboundContext Addr κ :=
  before.foldl (fun m rule => (rule.matches m).2) m

theorem leave_leaves (before : List (HeadlessRule Addr κ)) (tidy : Tidy m) :
    Leaves m (leave before m) := by
  induction before generalizing m with
  | nil => exact Leaves.refl tidy
  | cons rule before ih =>
    have first := leaves_matches rule m tidy
    exact first.trans (ih first.tidy)

theorem leave_sees (sees : Sees see own) (fresh : m.resetRuleCache = m) (left : Leaves m m')
    (before : List (HeadlessRule Addr κ)) :
    see (leave before m') ↔
      (see m' ∧ ∀ other ∈ before, other.resets = false) ∨ LeftBy m own before := by
  induction before generalizing m' with
  | nil =>
    have none : ¬ LeftBy m own [] := by
      rintro ⟨rule, after, suffix, -⟩
      exact absurd suffix.length_le (by simp)
    simp [leave, none]
  | cons rule before ih =>
    have step := headless_sees sees rule left
    have rest := ih (left.trans (leaves_matches rule m' left.tidy))
    rw [fresh] at step
    rw [leftBy_cons, forall_mem_cons]
    simp only [leave, foldl_cons] at rest ⊢
    rw [rest, step]
    grind

end

section
variable (m : InboundContext Addr κ) (before : List (HeadlessRule Addr κ))

/-- Behind these rules the rule is accepted only because of the flags they leave. A logical rule
resets the cache before it looks. -/
def HeadlessRule.Gains : HeadlessRule Addr κ → Prop
  | .default r => GainsMatch r m fun g => LeftBy m (·.own · g = true) before
  | .logical .. => False

def HeadlessRule.Loses : HeadlessRule Addr κ → Prop
  | .default r =>
    LosesMatch r m (fun g => LeftBy m (·.own · g = true) before) (LeftBy m Looked before)
  | .logical .. => False

/-- The rule matches on a copy of the metadata with the cache reset. -/
def HeadlessRule.StandsAlone (rule : HeadlessRule Addr κ) : Prop :=
  (rule.matches m.resetRuleCache).1 = true

end

theorem headless_matches_iff (rule : HeadlessRule Addr κ) (fresh : m.resetRuleCache = m)
    (before : List (HeadlessRule Addr κ)) :
    (rule.matches (leave before m)).1 = true ↔
      (rule.StandsAlone m ∧ ¬ rule.Loses m before) ∨ rule.Gains m before := by
  have left := leave_leaves before (fresh ▸ tidy_reset m : Tidy m)
  have alone := left.reset.trans fresh
  cases rule with
  | default r =>
    have tidy : Tidy m := fresh ▸ tidy_reset m
    have flags := fun g => leave_sees (sees_flag g) fresh (.refl tidy) before
    have did := leave_sees sees_didMatch fresh (.refl tidy) before
    have none : m.cache.didMatch = false := fresh ▸ rfl
    have accepted := default_matches_iff (r := r) left.tidy
    simp only [flags, did, alone, flag_of_fresh fresh, none, Bool.false_eq_true, false_and,
      false_or] at accepted
    simpa only [StandsAlone, Loses, Gains, HeadlessRule.matches, fresh] using accepted
  | logical mode rules invert =>
    -- the cache is reset before the first sub-rule, if there is one
    have reset : ((logical mode rules invert).matches (leave before m)).1 =
        ((logical mode rules invert).matches (leave before m).resetRuleCache).1 := by
      cases mode <;> cases rules <;> rfl
    simp only [StandsAlone, reset, alone, fresh, Loses, Gains, not_false_eq_true,
      and_true, or_false]

/-- Some rule of the set has the property behind the rules before it. -/
def Somewhere (P : List (HeadlessRule Addr κ) → HeadlessRule Addr κ → Prop)
    (rules : List (HeadlessRule Addr κ)) : Prop :=
  ∃ before rule after, rules = before ++ rule :: after ∧ P before rule

theorem somewhere_cons {P : List (HeadlessRule Addr κ) → HeadlessRule Addr κ → Prop}
    {rule : HeadlessRule Addr κ} {rules : List (HeadlessRule Addr κ)} :
    Somewhere P (rule :: rules) ↔ P [] rule ∨ Somewhere (P <| rule :: ·) rules := by
  constructor
  · rintro ⟨_ | ⟨first, before⟩, next, after, eq, holds⟩ <;> cases eq
    · exact .inl holds
    · exact .inr ⟨before, next, after, rfl, holds⟩
  · rintro (holds | ⟨before, next, after, rfl, holds⟩)
    · exact ⟨[], rule, rules, rfl, holds⟩
    · exact ⟨rule :: before, next, after, rfl, holds⟩

theorem ruleSetMatch_iff_somewhere (rules : List (HeadlessRule Addr κ))
    (m : InboundContext Addr κ) :
    (ruleSetMatch rules m).1 = true ↔
      Somewhere (fun before rule => (rule.matches (leave before m)).1 = true) rules := by
  induction rules generalizing m with
  | nil => simp [ruleSetMatch, Somewhere]
  | cons rule rules ih =>
    have rest := ih (rule.matches m).2
    rw [somewhere_cons, ruleSetMatch]
    simp only [leave, foldl_nil, foldl_cons] at rest ⊢
    rw [← rest]
    by_cases first : (rule.matches m).1 = true <;> simp [first]

/-- Where the flags passed on do no harm: some rule matches on its own and does not lose the match
to the rules before it; or a rule gains a match from the rules before it exactly if some rule
matches on its own. -/
def Harmless (rules : List (HeadlessRule Addr κ)) (m : InboundContext Addr κ) : Prop :=
  Somewhere (fun before rule => rule.StandsAlone m ∧ ¬ rule.Loses m before) rules ∨
    (Somewhere (fun before rule => rule.Gains m before) rules ↔ ∃ rule ∈ rules, rule.StandsAlone m)

/-- For metadata with the cache just reset, a rule-set matches exactly when one of its rules
does, if and only if the flags its rules pass on do no harm. -/
theorem ruleSetMatch_iff (rules : List (HeadlessRule Addr κ)) (m : InboundContext Addr κ)
    (reset : m.resetRuleCache = m) :
    ((ruleSetMatch rules m).1 = true ↔
        ∃ rule ∈ rules, (rule.matches m.resetRuleCache).1 = true) ↔
      Harmless rules m := by
  have accepted : (ruleSetMatch rules m).1 = true ↔
      Somewhere (fun before rule => rule.StandsAlone m ∧ ¬ rule.Loses m before) rules ∨
        Somewhere (fun before rule => rule.Gains m before) rules := by
    rw [ruleSetMatch_iff_somewhere]
    simp only [headless_matches_iff _ reset, Somewhere, and_or_left, exists_or]
  have alone : Somewhere (fun before rule => rule.StandsAlone m ∧ ¬ rule.Loses m before) rules →
      ∃ rule ∈ rules, rule.StandsAlone m := by
    rintro ⟨before, rule, after, rfl, alone, -⟩
    exact ⟨rule, by simp, alone⟩
  rw [accepted]
  unfold Harmless StandsAlone at *
  grind

end

def toHost (domain : String) (port : Nat) : InboundContext Unit (String × Nat) :=
  { connection := ⟨(), none, [], (domain, port)⟩ }

def domainItem (domain : String) : RuleItem Unit (String × Nat) := .other (·.rest.1 == domain)

def portItem (port : Nat) : RuleItem Unit (String × Nat) := .other (·.rest.2 == port)

/-- `domain` and `port` of one rule. -/
def secureHost : HeadlessRule Unit (String × Nat) :=
  .default
    { destinationAddressItems := [domainItem "a.test"], destinationPortItems := [portItem 443] }

def otherHost (invert : Bool) : HeadlessRule Unit (String × Nat) :=
  .default { destinationAddressItems := [domainItem "b.test"], invert := invert }

theorem twoHosts_harmless : Harmless [secureHost, otherHost false] (toHost "b.test" 443) :=
  (ruleSetMatch_iff [secureHost, otherHost false] (toHost "b.test" 443) rfl).mp (by decide)

/-- On a connection to port 80 of `a.test` the first rule fails and leaves the flag of the
destination. A rule for another domain behind it is accepted, its inverse is rejected, and
before it the same rule is not accepted. -/
theorem ruleSetMatch_leaks :
    ((ruleSetMatch [secureHost, otherHost false] (toHost "a.test" 80)).1 = true ∧
      ¬ ∃ rule ∈ [secureHost, otherHost false],
        (rule.matches (toHost "a.test" 80).resetRuleCache).1 = true) ∧
    (ruleSetMatch [otherHost false, secureHost] (toHost "a.test" 80)).1 = false ∧
    ((ruleSetMatch [secureHost, otherHost true] (toHost "a.test" 80)).1 = false ∧
      ∃ rule ∈ [secureHost, otherHost true],
        (rule.matches (toHost "a.test" 80).resetRuleCache).1 = true) := by
  decide

end AiboosterEngine.Route
