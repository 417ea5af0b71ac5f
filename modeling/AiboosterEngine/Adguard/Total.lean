import AiboosterEngine.Adguard.Convertor

/-!
# Lists that crash the conversion

Of the slice expressions of `ToOptions` one can be out of range: the one that takes the
slashes off a regular expression, on a pattern that is a single slash.
-/

namespace AiboosterEngine.Adguard
open GoSem Route List Outcome

/-- A single slash with what may stand around it: an exception, bars before it, the mark for the end
of a domain and a bar behind it. -/
def slashPattern (isExclude : Bool) (bars : Nat) (hasEnd hasBar : Bool) : Bytes :=
  (if isExclude then utf8 "@@" else []) ++ (replicate bars 124 ++ (utf8 "/" ++
    ((if hasEnd then utf8 "^" else []) ++ if hasBar then utf8 "|" else [])))

/-- The modifiers that leave a line supported. -/
inductive Supported (libs : Libraries) : Bytes → Prop
  | important : Supported libs (utf8 "important")
  | importantValue (value : Bytes) : 61 ∉ value → Supported libs (utf8 "important" ++ 61 :: value)
  | dnsrewrite (value : Bytes) : 61 ∉ value → isUnspecified (libs.mParseAddr value) = true →
      Supported libs (utf8 "dnsrewrite" ++ 61 :: value)

/-- A single slash, alone or with modifiers. A rule that begins with a slash has no modifiers. -/
inductive SlashRule (libs : Libraries) : Bytes → Prop
  | alone (isExclude : Bool) (bars : Nat) (hasEnd hasBar : Bool) :
      bars < 3 → SlashRule libs (slashPattern isExclude bars hasEnd hasBar)
  | modified (isExclude : Bool) (bars : Nat) (hasEnd hasBar : Bool) (params : Bytes) :
      bars < 3 → (isExclude = true ∨ 0 < bars) →
        (∀ param ∈ split (utf8 ",") params, Supported libs param) →
      SlashRule libs (slashPattern isExclude bars hasEnd hasBar ++ 36 :: params)

/-- A line with such a rule; one more bar at the end of a line is taken off first. -/
def BareSlash (libs : Libraries) (line : Bytes) : Prop :=
  (∃ rule, SlashRule libs rule ∧ line = rule ++ utf8 "|") ∨
    (SlashRule libs line ∧ ¬ utf8 "|" <:+ line)

theorem ignoreIPCIDRRegexp_ok (ruleLine : Bytes) :
    ∃ ignored, ignoreIPCIDRRegexp ruleLine = .ok ignored := by
  have from' : ∀ {head : Bytes} {n : Nat}, head.length = n → head.isPrefixOf ruleLine = true →
      (sliceFrom ruleLine n : Outcome ConvertError Bytes) = .ok (ruleLine.drop n) := by
    grind [List.isPrefixOf_iff_prefix.mp, sliceFrom_eq]
  unfold ignoreIPCIDRRegexp
  split
  · rename_i here
    rw [from' (by decide) here]
    exact ⟨_, rfl⟩
  · split
    · rename_i here
      rw [from' (by decide) here]
      exact ⟨_, rfl⟩
    · split
      · rename_i here
        rw [from' (by decide) here]
        exact ⟨_, rfl⟩
      · exact ⟨_, rfl⟩

theorem parseParts_returns (parts : List Bytes) : (parseParts parts).Returns := by
  induction parts with
  | nil => exact trivial
  | cons part parts ih =>
    rw [parseParts]
    cases parseUint 8 part with
    | none => exact trivial
    | some n =>
      cases rest : parseParts parts with
      | ok bytes => exact trivial
      | err e => exact trivial
      | panicked =>
        rw [rest] at ih
        exact ih

theorem parseADGuardIPCIDRLine_returns (ruleLine : Bytes) :
    (parseADGuardIPCIDRLine ruleLine).Returns := by
  obtain ⟨t, cutOff⟩ := cutEnd_ok (ε := ConvertError) (utf8 ".") ruleLine
  unfold parseADGuardIPCIDRLine
  rw [cutOff, ok_bind]
  dsimp only
  split
  · exact trivial
  · rw [bind_returns]
    refine ⟨parseParts_returns _, fun ruleParts _ => ?_⟩
    have long : 4 ≤ (ruleParts ++ replicate (4 - ruleParts.length) 0).length := by grind
    rw [array4, dif_pos long]
    exact trivial

theorem checkPattern_ok (libs : Libraries) (ruleLine : Bytes) :
    ∃ pattern, checkPattern libs ruleLine = .ok pattern := by
  unfold checkPattern
  split
  · exact ⟨_, rfl⟩
  · split
    · have address := parseADGuardIPCIDRLine_returns ruleLine
      cases parsed : parseADGuardIPCIDRLine ruleLine with
      | ok value => exact ⟨_, rfl⟩
      | err e => exact ⟨_, rfl⟩
      | panicked =>
        rw [parsed] at address
        exact address.elim
    · exact ⟨_, rfl⟩

/-- What is left of a rule without its modifiers. -/
def strip (rule : Bytes) : Outcome ConvertError Bytes := do
  let s ← cutStart (utf8 "@@") rule
  let s ← cutEnd (utf8 "|") s
  let s ← cutBars s
  cutEnd (utf8 "^") s

theorem cutBars_ok (s : Bytes) : ∃ t, cutBars s = .ok t := by
  unfold cutBars
  split
  · rename_i here
    have := (List.isPrefixOf_iff_prefix.mp here).length_le
    exact ⟨_, sliceFrom_eq (by rwa [show (utf8 "||").length = 2 by decide] at this)⟩
  · exact cutStart_ok _ _

theorem cutBars_eq {s t : Bytes} (h : cutBars s = .ok t) :
    ∃ bars < 3, s = replicate bars 124 ++ t := by
  unfold cutBars at h
  split at h
  · rename_i here
    obtain ⟨rest, rfl⟩ := isPrefixOf_iff_prefix.mp here
    obtain ⟨_, rfl⟩ := sliceFrom_ok h
    exact ⟨2, by decide, rfl⟩
  · rcases cutStart_iff.mp h with rfl | ⟨rfl, _⟩
    · exact ⟨1, by decide, rfl⟩
    · exact ⟨0, by decide, rfl⟩

theorem cutEnd_shape {e s t : Bytes} (h : (cutEnd e s : Outcome ConvertError Bytes) = .ok t) :
    ∃ has : Bool, s = t ++ if has then e else [] := by
  rcases cutEnd_iff.mp h with rfl | ⟨rfl, _⟩
  · exact ⟨true, rfl⟩
  · exact ⟨false, (append_nil _).symm⟩

/-- A rule whose pattern is a single slash is one of the `slashPattern`s. -/
theorem strip_slash {rule : Bytes} : strip rule = .ok (utf8 "/") ↔
    ∃ isExclude, ∃ bars < 3, ∃ hasEnd hasBar, rule = slashPattern isExclude bars hasEnd hasBar := by
  constructor
  · intro h
    obtain ⟨s₁, h₁, h⟩ := bind_eq_ok h
    obtain ⟨s₂, h₂, h⟩ := bind_eq_ok h
    obtain ⟨s₃, h₃, h₄⟩ := bind_eq_ok h
    obtain ⟨hasEnd, rfl⟩ := cutEnd_shape h₄
    obtain ⟨bars, few, rfl⟩ := cutBars_eq h₃
    obtain ⟨hasBar, rfl⟩ := cutEnd_shape h₂
    obtain ⟨isExclude, rfl⟩ : ∃ isExclude : Bool,
      rule = (if isExclude then utf8 "@@" else []) ++ _ := by
      rcases cutStart_iff.mp h₁ with rfl | ⟨rfl, _⟩
      · exact ⟨true, rfl⟩
      · exact ⟨false, rfl⟩
    exact ⟨isExclude, bars, few, hasEnd, hasBar, by simp only [slashPattern, append_assoc]⟩
  · rintro ⟨isExclude, bars, few, hasEnd, hasBar, rfl⟩
    revert isExclude bars hasEnd hasBar
    decide

theorem slashPattern_head : ∀ bars < 3, ∀ isExclude hasEnd hasBar,
    (slashPattern isExclude bars hasEnd hasBar).head? =
      some (if isExclude then 64 else if bars = 0 then 47 else 124) := by
  decide

theorem slashPattern_dollar : ∀ bars < 3, ∀ isExclude hasEnd hasBar,
    36 ∉ slashPattern isExclude bars hasEnd hasBar := by
  decide

theorem slashPattern_slash : ∀ bars < 3, ∀ isExclude hasEnd hasBar,
    47 ∈ slashPattern isExclude bars hasEnd hasBar := by
  decide

section
variable {libs : Libraries} {name rule line : Bytes}

theorem modifier_bare (absent : 61 ∉ name) :
    modifier libs name = if name = utf8 "important" then some true else none := by
  rw [modifier, show utf8 "=" = [61] by decide, split_absent absent]

theorem modifier_value {value : Bytes} (absent : 61 ∉ name) (absent' : 61 ∉ value) :
    modifier libs (name ++ 61 :: value) =
      if name = utf8 "important" then some true
      else if name = utf8 "dnsrewrite" && isUnspecified (libs.mParseAddr value) then some false
      else none := by
  rw [modifier, show utf8 "=" = [61] by decide, split_byte absent, split_absent absent']

theorem modifier_values {value more : Bytes} (absent : 61 ∉ name) (absent' : 61 ∉ value) :
    modifier libs (name ++ 61 :: (value ++ 61 :: more)) = none := by
  rw [modifier, show utf8 "=" = [61] by decide, split_byte absent, split_byte absent', split]

theorem supported_of_modifier {param : Bytes} {important : Bool}
    (h : modifier libs param = some important) :
    Supported libs param := by
  by_cases valued : 61 ∈ param
  · obtain ⟨name, value, rfl, absent⟩ := eq_append_cons_of_mem valued
    by_cases more : 61 ∈ value
    · obtain ⟨second, third, rfl, absent'⟩ := eq_append_cons_of_mem more
      rw [modifier_values absent absent'] at h
      cases h
    · rw [modifier_value absent more] at h
      split at h
      · rename_i same
        rw [same]
        exact .importantValue value more
      · split at h
        · rename_i both
          rw [Bool.and_eq_true, decide_eq_true_eq] at both
          rw [both.1]
          exact .dnsrewrite value more both.2
        · cases h
  · rw [modifier_bare valued] at h
    split at h
    · rename_i same
      rw [same]
      exact .important
    · cases h

theorem modifier_supported {param : Bytes} : (∃ important, modifier libs param = some important) ↔
    Supported libs param := by
  constructor
  · rintro ⟨important, h⟩
    exact supported_of_modifier h
  · intro supported
    cases supported with
    | important => exact ⟨true, (modifier_bare (by decide)).trans (if_pos rfl)⟩
    | importantValue value absent =>
        exact ⟨true, (modifier_value (by decide) absent).trans (if_pos rfl)⟩
    | dnsrewrite value absent unspecified =>
      refine ⟨false, ?_⟩
      rw [modifier_value (by decide) absent, if_neg (by decide), if_pos (by rw [unspecified]; rfl)]

theorem modifiers_supported {params : List Bytes} (isImportant : Bool) :
    (∃ important, modifiers libs params isImportant = some important) ↔
      ∀ param ∈ params, Supported libs param := by
  induction params generalizing isImportant with
  | nil => exact ⟨fun _ => forall_mem_nil _, fun _ => ⟨isImportant, rfl⟩⟩
  | cons param params ih =>
    rw [forall_mem_cons, ← modifier_supported, modifiers]
    cases modifier libs param with
    | none => grind
    | some important =>
      dsimp only
      rw [ih]
      exact ⟨fun h => ⟨⟨important, rfl⟩, h⟩, And.right⟩

/-- A rule that does not begin with a slash is cut at the first dollar sign. -/
theorem splitModifiers_cut {pattern params : Bytes} (absent : 36 ∉ pattern)
    (noSlash : (utf8 "/").isPrefixOf (pattern ++ 36 :: params) = false) :
    splitModifiers libs (pattern ++ 36 :: params) =
      (modifiers libs (split (utf8 ",") params) false).map fun isImportant =>
        (pattern, isImportant) := by
  have there : hasInfix [36] (pattern ++ 36 :: params) = true := hasInfix_byte.mpr (by simp)
  have cutOff : cut [36] (pattern ++ 36 :: params) = some (pattern, params) :=
    cut_byte.mpr ⟨rfl, absent⟩
  rw [splitModifiers, noSlash, show utf8 "$" = [36] by decide, there, if_pos (by decide),
    substringBefore, substringAfter, cutOff]

theorem splitModifiers_whole (absent : 36 ∉ rule) :
    splitModifiers libs rule = some (rule, false) := by
  have plain : hasInfix (utf8 "$") rule = false := by
    rw [show utf8 "$" = [36] by decide, Bool.eq_false_iff, ne_eq, hasInfix_byte]
    exact absent
  rw [splitModifiers, plain, Bool.and_false, if_neg (by decide)]

/-- Of the patterns, those without anything before the slash begin with it. -/
theorem slashPattern_noSlash {isExclude : Bool} {bars : Nat} (few : bars < 3) (hasEnd hasBar : Bool)
    (params : Bytes) :
    (utf8 "/").isPrefixOf (slashPattern isExclude bars hasEnd hasBar ++ 36 :: params) = false ↔
      isExclude = true ∨ 0 < bars := by
  have head := slashPattern_head bars few isExclude hasEnd hasBar
  obtain ⟨rest, shape⟩ := head?_eq_some_iff.mp head
  rw [shape, show utf8 "/" = [47] by decide, cons_append, isPrefixOf, Nat.pos_iff_ne_zero]
  by_cases none : bars = 0
  · cases isExclude <;> simp [none]
  · cases isExclude <;> simp [none]

/-- The rules that have a single slash for a pattern once their modifiers are off. -/
theorem splitModifiers_slash :
    (∃ pattern isImportant, splitModifiers libs rule = some (pattern, isImportant) ∧
      strip pattern = .ok (utf8 "/")) ↔ SlashRule libs rule := by
  constructor
  · rintro ⟨pattern, isImportant, taken, stripped⟩
    obtain ⟨isExclude, bars, few, hasEnd, hasBar, rfl⟩ := strip_slash.mp stripped
    by_cases there : 36 ∈ rule
    · obtain ⟨before, params, rfl, absent⟩ := eq_append_cons_of_mem there
      cases slash : (utf8 "/").isPrefixOf (before ++ 36 :: params) with
      | true =>
        -- the dollar sign belongs to the pattern
        rw [splitModifiers, slash, Bool.not_true, Bool.false_and,
          if_neg Bool.false_ne_true] at taken
        rw [(Prod.mk.inj (Option.some.inj taken)).1]
        exact .alone isExclude bars hasEnd hasBar few
      | false =>
        rw [splitModifiers_cut absent slash] at taken
        obtain ⟨important, supported, same⟩ := Option.map_eq_some_iff.mp taken
        cases same
        exact .modified isExclude bars hasEnd hasBar params few
          ((slashPattern_noSlash few hasEnd hasBar params).mp slash)
          ((modifiers_supported false).mp ⟨isImportant, supported⟩)
    · rw [splitModifiers_whole there] at taken
      cases taken
      exact .alone isExclude bars hasEnd hasBar few
  · intro h
    cases h with
    | alone isExclude bars hasEnd hasBar few =>
      refine ⟨_, false, ?_, strip_slash.mpr ⟨isExclude, bars, few, hasEnd, hasBar, rfl⟩⟩
      exact splitModifiers_whole (slashPattern_dollar bars few isExclude hasEnd hasBar)
    | modified isExclude bars hasEnd hasBar params few first supported =>
      obtain ⟨important, done⟩ := (modifiers_supported false).mpr supported
      refine ⟨_, important, ?_, strip_slash.mpr ⟨isExclude, bars, few, hasEnd, hasBar, rfl⟩⟩
      rw [splitModifiers_cut (slashPattern_dollar bars few isExclude hasEnd hasBar)
        ((slashPattern_noSlash few hasEnd hasBar params).mpr first), done]
      rfl

theorem parsePattern_cases (libs : Libraries) (it : RuleLine) :
    (it.ruleLine = utf8 "/" ∧ parsePattern libs it = .panicked) ∨
    (it.ruleLine ≠ utf8 "/" ∧ ∃ entry, parsePattern libs it = .ok entry) := by
  unfold parsePattern
  split
  · rename_i both
    rw [Bool.and_eq_true, show utf8 "/" = [47] by decide] at both
    obtain ⟨rest, shape⟩ := isPrefixOf_iff_prefix.mp both.1
    cases rest with
    | nil =>
      have shape : it.ruleLine = [47] := shape.symm
      refine .inl ⟨shape, ?_⟩
      rw [shape]
      rfl
    | cons b rest =>
      refine .inr ⟨?_, ?_⟩
      · rw [← shape]
        intro same
        cases same
      · have long : 1 ≤ it.ruleLine.length - 1 := by grind
        rw [slice_eq long (Nat.sub_le _ _), ok_bind]
        obtain ⟨ignored, h⟩ :=
          ignoreIPCIDRRegexp_ok ((it.ruleLine.drop 1).take (it.ruleLine.length - 1 - 1))
        rw [h]
        exact ⟨_, rfl⟩
  · rename_i other
    refine .inr ⟨?_, ?_⟩
    · intro same
      rw [same] at other
      exact other (by decide)
    · obtain ⟨pattern, h⟩ := checkPattern_ok libs (if hasInfix (utf8 "://") it.ruleLine then
        substringAfter it.ruleLine (utf8 "://") else it.ruleLine)
      dsimp only
      rw [h]
      exact ⟨_, rfl⟩

/-- A bar at the end of a line is taken off first. -/
theorem bareSlash_iff (h : (cutEnd (utf8 "|") line : Outcome ConvertError Bytes) = .ok rule) :
    BareSlash libs line ↔ SlashRule libs rule := by
  rcases cutEnd_iff.mp h with rfl | ⟨rfl, absent⟩
  · constructor
    · rintro (⟨rule', slash, same⟩ | ⟨_, absent⟩)
      · rw [append_cancel_right same]
        exact slash
      · exact absurd (suffix_append _ _) absent
    · intro slash
      exact .inl ⟨rule, slash, rfl⟩
  · constructor
    · rintro (⟨rule', _, same⟩ | ⟨slash, _⟩)
      · exact absurd ⟨rule', same.symm⟩ absent
      · exact slash
    · intro slash
      exact .inr ⟨slash, absent⟩

theorem parseRule_cases (libs : Libraries) (line : Bytes) :
    (BareSlash libs line ∧ parseRule libs line = .panicked) ∨
    (¬ BareSlash libs line ∧ ∃ entry, parseRule libs line = .ok entry) := by
  obtain ⟨rule, cutOff⟩ := cutEnd_ok (ε := ConvertError) (utf8 "|") line
  rw [bareSlash_iff cutOff, ← splitModifiers_slash]
  unfold parseRule
  rw [cutOff, ok_bind]
  cases splitModifiers libs rule with
  | none =>
    refine .inr ⟨?_, none, rfl⟩
    rintro ⟨_, _, h, _⟩
    cases h
  | some taken =>
    obtain ⟨pattern, isImportant⟩ := taken
    obtain ⟨s₁, h₁⟩ := cutStart_ok (ε := ConvertError) (utf8 "@@") pattern
    obtain ⟨s₂, h₂⟩ := cutEnd_ok (ε := ConvertError) (utf8 "|") s₁
    obtain ⟨s₃, h₃⟩ := cutBars_ok s₂
    obtain ⟨s₄, h₄⟩ := cutEnd_ok (ε := ConvertError) (utf8 "^") s₃
    have stripped : strip pattern = .ok s₄ := by
      rw [strip, h₁, ok_bind, h₂, ok_bind, h₃, ok_bind, h₄]
    dsimp only
    rw [h₁, ok_bind, h₂, ok_bind, h₃, ok_bind, h₄, ok_bind]
    rcases parsePattern_cases libs ⟨s₄, false, (utf8 "@@").isPrefixOf pattern,
      (utf8 "||").isPrefixOf s₂,
      !(utf8 "||").isPrefixOf s₂ && (utf8 "|").isPrefixOf s₂, (utf8 "^").isSuffixOf s₃, false,
        isImportant⟩ with
      ⟨slash, panicked⟩ | ⟨other, ok⟩
    · exact .inl ⟨⟨pattern, isImportant, rfl, by rw [stripped]; exact congrArg _ slash⟩, panicked⟩
    · grind

/-- Such a line begins like no address and no comment, and there is a slash in it. -/
theorem bareSlash_shape (h : BareSlash libs line) :
    (∃ first rest, line = first :: rest ∧ (first = 64 ∨ first = 47 ∨ first = 124)) ∧ 47 ∈ line := by
  have pattern : ∀ {isExclude : Bool} {bars : Nat} {hasEnd hasBar : Bool} (more : Bytes), bars < 3 →
      (∃ first rest, slashPattern isExclude bars hasEnd hasBar ++ more = first :: rest ∧
        (first = 64 ∨ first = 47 ∨ first = 124)) ∧
          47 ∈ slashPattern isExclude bars hasEnd hasBar ++ more := by
    intro isExclude bars hasEnd hasBar more few
    obtain ⟨rest, shape⟩ :=
      head?_eq_some_iff.mp (slashPattern_head bars few isExclude hasEnd hasBar)
    refine ⟨⟨_, rest ++ more, by rw [shape]; rfl, ?_⟩,
      mem_append_left _ (slashPattern_slash bars few isExclude hasEnd hasBar)⟩
    cases isExclude with
    | true => exact .inl rfl
    | false => grind
  have rule : ∀ {rule : Bytes} (more : Bytes), SlashRule libs rule →
      (∃ first rest, rule ++ more = first :: rest ∧ (first = 64 ∨ first = 47 ∨ first = 124)) ∧
        47 ∈ rule ++ more := by
    intro rule more h
    cases h with
    | alone isExclude bars hasEnd hasBar few => exact pattern more few
    | modified isExclude bars hasEnd hasBar params few _ _ =>
      rw [append_assoc]
      exact pattern _ few
  rcases h with ⟨rest, slash, rfl⟩ | ⟨slash, _⟩
  · exact rule _ slash
  · have := rule [] slash
    rwa [append_nil] at this

theorem parseAdGuardHostLine_returns (libs : Libraries) (line : Bytes) :
    (parseAdGuardHostLine libs line).Returns := by
  unfold parseAdGuardHostLine
  cases found : indexOf (utf8 " ") line with
  | none => exact trivial
  | some idx =>
    have inside := indexOf_lt found
    rw [show (utf8 " ").length = 1 by decide] at inside
    dsimp only
    rw [slice_eq (Nat.zero_le _) (by omega), ok_bind]
    split
    · exact trivial
    · split
      · exact trivial
      · rw [sliceFrom_eq inside, ok_bind]
        split
        · exact trivial
        · exact trivial

/-- A line that begins like no address is not of a hosts file. -/
theorem parseAdGuardHostLine_err (libs : Libraries) {first : UInt8} (rest : Bytes)
    (h : addressByte first = false) :
    ∃ e, parseAdGuardHostLine libs (first :: rest) = .err e := by
  unfold parseAdGuardHostLine
  cases found : indexOf (utf8 " ") (first :: rest) with
  | none => exact ⟨_, rfl⟩
  | some idx =>
    have inside := indexOf_lt found
    dsimp only
    rw [slice_eq (Nat.zero_le _) (by omega), ok_bind, drop_zero, Nat.sub_zero]
    cases parsed : libs.parseAddr ((first :: rest).take idx) with
    | error cause => exact ⟨_, rfl⟩
    | ok address =>
      have begins := libs.parseAddr_first _ _ parsed
      cases idx with
      | zero => cases begins
      | succ idx => grind

theorem parseLine_ok (h : ¬ BareSlash libs line) : ∃ entry, parseLine libs line = .ok entry := by
  unfold parseLine
  split
  · exact ⟨_, rfl⟩
  · split
    · exact ⟨_, rfl⟩
    · split
      · exact ⟨_, rfl⟩
      · have host := parseAdGuardHostLine_returns libs line
        cases parsed : parseAdGuardHostLine libs line with
        | ok hostLine =>
          dsimp only
          split
          · exact ⟨_, rfl⟩
          · exact ⟨_, rfl⟩
        | err e => grind [parseRule_cases]
        | panicked =>
          rw [parsed] at host
          exact host.elim

theorem parseLine_panics (h : BareSlash libs line) : parseLine libs line = .panicked := by
  obtain ⟨⟨first, rest, rfl, begins⟩, slash⟩ := bareSlash_shape h
  have noName : ¬ libs.isDomainName (first :: rest) = true := by
    intro name
    have := all_eq_true.mp (libs.isDomainName_bytes _ name) 47 slash
    revert this
    decide
  have noAddress : addressByte first = false := by
    rcases begins with rfl | rfl | rfl <;> decide
  have noComment : ¬ ((utf8 "!").isPrefixOf (first :: rest) ||
    (utf8 "#").isPrefixOf (first :: rest)) = true := by
    rw [show utf8 "!" = [33] by decide, show utf8 "#" = [35] by decide]
    rcases begins with rfl | rfl | rfl <;> simp [isPrefixOf]
  obtain ⟨e, noHost⟩ := parseAdGuardHostLine_err libs rest noAddress
  rw [parseLine, if_neg (by simp), if_neg noComment, if_neg noName, noHost]
  rcases parseRule_cases libs (first :: rest) with ⟨_, panicked⟩ | ⟨other, _⟩
  · exact panicked
  · exact absurd h other

theorem parseLines_cases (libs : Libraries) (lines : List Bytes) :
    ((∀ line ∈ lines, ¬ BareSlash libs line) ∧ ∃ entries, parseLines libs lines = .ok entries) ∨
    ((∃ line ∈ lines, BareSlash libs line) ∧ parseLines libs lines = .panicked) := by
  induction lines with
  | nil => exact .inl ⟨forall_mem_nil _, [], rfl⟩
  | cons line lines ih =>
    rw [parseLines]
    by_cases bare : BareSlash libs line
    · rw [parseLine_panics bare]
      exact .inr ⟨⟨line, mem_cons_self, bare⟩, rfl⟩
    · obtain ⟨entry, ok⟩ := parseLine_ok bare
      rw [ok, ok_bind]
      rcases ih with ⟨none, entries, done⟩ | ⟨⟨line', mem, bare'⟩, panicked⟩
      · rw [done]
        exact .inl ⟨forall_mem_cons.mpr ⟨bare, none⟩, _, rfl⟩
      · rw [panicked]
        exact .inr ⟨⟨line', mem_cons_of_mem _ mem, bare'⟩, rfl⟩

end

/-- **The conversion of a list** comes back exactly when no line of it has a single slash for a
pattern. -/
theorem toOptions_returns_iff {M A : Type} (libs : Libraries) (text : Bytes) :
    (toOptions libs text : Outcome ConvertError (List (RuleOptions M A))).Returns ↔
      ∀ line ∈ scanLines text, ¬ BareSlash libs line := by
  unfold toOptions
  rcases parseLines_cases libs (scanLines text)
    with ⟨none, entries, done⟩ | ⟨⟨line, mem, bare⟩, panicked⟩
  · refine ⟨fun _ => none, fun _ => ?_⟩
    rw [done, ok_bind]
    split
    · exact trivial
    · split
      · exact trivial
      · exact trivial
  · rw [panicked]
    exact ⟨fun h => h.elim, fun none => none line mem bare⟩

/-- Names of the right bytes, and no addresses. -/
def plainLibraries : Libraries where
  isDomainName name := !name.isEmpty && name.all nameByte
  isDomainName_bytes name h := (Bool.and_eq_true_iff.mp h).2
  mParseAddr _ := .zero
  parseAddr _ := .error "unable to parse IP"
  parseAddr_first _ _ h := by cases h

/-- A list of one line, the slash alone. -/
theorem toOptions_slash :
    ¬ (toOptions plainLibraries (utf8 "/") :
      Outcome ConvertError (List (RuleOptions Unit Unit))).Returns := by
  decide +kernel

end AiboosterEngine.Adguard
