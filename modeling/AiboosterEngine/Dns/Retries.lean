import AiboosterEngine.Dns.Router

/-!
# Retries go forward

The loops of the router resume behind the rule used last. The index is -1 at the
start and again when the default server is asked, but then there is no rule and
the loops end.
-/

namespace AiboosterEngine.Dns
open GoSem Route List Router Attempt

section
variable {Addr κ : Type} (r : Router Addr κ)

/-- The action names a server that may be used, or ends the query. -/
def Router.takes (allowFakeIP : Bool) : Option DNSRuleAction → Bool
  | some (.route server _ _) => (r.transport server).any fun transport =>
      !transport.isFakeIP || allowFakeIP
  | some (.reject _) => true
  | some (.predefined _ _) => true
  | _ => false

/-- The action ends the query. -/
def Settles (action : Option DNSRuleAction) : Prop :=
  (∃ method, action = some (.reject method)) ∨ ∃ rcode answer,
    action = some (.predefined rcode answer)

/-- The rule decides about queries with this connection. -/
structure Router.Applies (r : Router Addr κ) (allowFakeIP isAddressQuery : Bool)
    (connection : Connection Addr κ) (rule : Rule Addr κ) : Prop where
  limit : rule.conditions.withAddressLimit = true → isAddressQuery = true
  conditions : (rule.conditions.matches { connection := connection }).1 = true
  takes : r.takes allowFakeIP rule.action = true

/-- No rule from this index on applies. -/
def Router.NoneFrom (allowFakeIP isAddressQuery : Bool) (connection : Connection Addr κ)
    (first : Nat) : Prop :=
  ∀ j rule, first ≤ j → r.rules[j]? = some rule →
    ¬ r.Applies allowFakeIP isAddressQuery connection rule

/-- The rule with index `i` is the first from there on that applies. -/
structure Router.FirstFrom (r : Router Addr κ) (allowFakeIP isAddressQuery : Bool)
    (connection : Connection Addr κ) (first i : Nat) (rule : Rule Addr κ) : Prop where
  le : first ≤ i
  here : r.rules[i]? = some rule
  applies : r.Applies allowFakeIP isAddressQuery connection rule
  earlier : ∀ j other, first ≤ j → j < i → r.rules[j]? = some other →
    ¬ r.Applies allowFakeIP isAddressQuery connection other

/-- What a rule that matches adds to the options. -/
def Rule.adds (isAddressQuery : Bool) (connection : Connection Addr κ) (rule : Rule Addr κ) :
    Option RouteOptions :=
  match rule.action with
  | some (.routeOptions action) =>
    if (!rule.conditions.withAddressLimit || isAddressQuery) &&
        (rule.conditions.matches { connection := connection }).1 then some action else none
  | _ => none

def combine (isAddressQuery : Bool) (connection : Connection Addr κ) (rules : List (Rule Addr κ))
    (options : DNSQueryOptions) : DNSQueryOptions :=
  (rules.filterMap (·.adds isAddressQuery connection)).foldl
    (fun options action => action.apply false options) options

def own (rule : Option (Rule Addr κ)) (transport : Option Transport) (options : DNSQueryOptions) :
    DNSQueryOptions :=
  match rule.bind (·.action), transport with
  | some (.route _ action _), some transport =>
      transport.legacyOptions (action.apply transport.isFakeIP options)
  | _, _ => options

def scanned (first : Nat) (rules : List (Rule Addr κ)) : Choice → List (Rule Addr κ)
  | .rule i => rules.take (i - first)
  | _ => rules

/-- What the loop over the rules from this index on gives: the first rule that applies, or the
default server. -/
structure Router.Selects (r : Router Addr κ) (allowFakeIP isAddressQuery : Bool) (first : Nat)
    (options : DNSQueryOptions) (m : InboundContext Addr κ)
    (result : Selected Addr κ × DNSQueryOptions × InboundContext Addr κ) : Prop where
  left : result.2.2.resetRuleCache = m.resetRuleCache
  selects : (result.1 = ⟨some r.defaultTransport, none, none⟩ ∧
      r.NoneFrom allowFakeIP isAddressQuery m.connection first) ∨
    ∃ i rule transport, r.FirstFrom allowFakeIP isAddressQuery m.connection first i rule ∧
      result.1 = ⟨transport, some rule, some i⟩
  served : result.1.transport = none → Settles (result.1.rule.bind (·.action))
  combined : result.2.1 = own result.1.rule result.1.transport
    (combine isAddressQuery m.connection
      (scanned first (r.rules.drop first) result.1.choice) options)

section
variable {r : Router Addr κ} {allowFakeIP isAddressQuery : Bool} {connection : Connection Addr κ}
  {rules : List (Rule Addr κ)} {rule : Rule Addr κ} {i : Nat}

theorem combine_append (rules rules' : List (Rule Addr κ)) (options : DNSQueryOptions) :
    combine isAddressQuery connection (rules ++ rules') options =
      combine isAddressQuery connection rules'
        (combine isAddressQuery connection rules options) := by
  unfold combine
  rw [filterMap_append, foldl_append]

theorem combine_of_none (h : ∀ rule ∈ rules, rule.adds isAddressQuery connection = none)
    (options : DNSQueryOptions) : combine isAddressQuery connection rules options = options := by
  unfold combine
  rw [filterMap_eq_nil_iff.mpr h]
  rfl

section
variable {options options' : DNSQueryOptions} {m m' : InboundContext Addr κ}
  (here : r.rules.drop i = rule :: rules)
include here

theorem at_of_drop : r.rules[i]? = some rule := by
  rw [← head?_drop, here]
  rfl

theorem drop_succ : r.rules.drop (i + 1) = rules := by
  rw [← tail_drop, here]
  rfl

theorem Router.Selects.skip {result : Selected Addr κ × DNSQueryOptions × InboundContext Addr κ}
    (h : r.Selects allowFakeIP isAddressQuery (i + 1) options' m' result)
    (same : m'.resetRuleCache = m.resetRuleCache)
    (not : ¬ r.Applies allowFakeIP isAddressQuery m.connection rule)
    (adds : combine isAddressQuery m.connection [rule] options = options') :
    r.Selects allowFakeIP isAddressQuery i options m result := by
  obtain ⟨left, selects, served, combined⟩ := h
  rw [(fields_of_reset same).1] at selects combined
  have skips : ∀ j other, i ≤ j → r.rules[j]? = some other →
      (i + 1 ≤ j → ¬ r.Applies allowFakeIP isAddressQuery m.connection other) →
      ¬ r.Applies allowFakeIP isAddressQuery m.connection other := by
    intro j other le there later
    obtain rfl | lt := Nat.eq_or_lt_of_le le
    · cases (at_of_drop here).symm.trans there
      exact not
    · exact later lt
  have more : scanned i (r.rules.drop i) result.1.choice =
      [rule] ++ scanned (i + 1) (r.rules.drop (i + 1)) result.1.choice := by
    rw [here, drop_succ here]
    obtain ⟨default, _⟩ | ⟨j, _, _, first, chosen⟩ := selects
    · rw [default]
      rfl
    · have behind : j - i = j - (i + 1) + 1 := by
        have le := first.le
        omega
      rw [chosen]
      dsimp only [Selected.choice, Dns.scanned]
      rw [behind]
      rfl
  refine ⟨left.trans same, ?_, served, ?_⟩
  · obtain ⟨default, none⟩ | ⟨j, chosen, transport, first, eq⟩ := selects
    · exact .inl ⟨default, fun j other le there => skips j other le there fun lt =>
        none j other lt there⟩
    · refine .inr ⟨j, chosen, transport,
        ⟨Nat.le_of_succ_le first.le, first.here, first.applies, ?_⟩, eq⟩
      exact fun k other le lt there => skips k other le there fun behind =>
        first.earlier k other behind lt there
  · rw [more, combine_append, adds]
    exact combined

theorem Router.Selects.first {transport : Option Transport}
    (left : m'.resetRuleCache = m.resetRuleCache)
    (applies : r.Applies allowFakeIP isAddressQuery m.connection rule)
    (served : transport = none → Settles rule.action)
    (same : options' = own (some rule) transport options) :
    r.Selects allowFakeIP isAddressQuery i options m
      (⟨transport, some rule, some i⟩, options', m') := by
  refine ⟨left, .inr ⟨i, rule, transport,
    ⟨.refl, at_of_drop here, applies, fun j _ le lt => ?_⟩, rfl⟩, served, ?_⟩
  · omega
  · dsimp only [Selected.choice, Dns.scanned]
    rw [Nat.sub_self, same]
    rfl

end

end

theorem select_spec (allowFakeIP isAddressQuery : Bool) {rules : List (Rule Addr κ)} {i : Nat}
    (here : r.rules.drop i = rules) (options : DNSQueryOptions) (m : InboundContext Addr κ)
    (on : m.ignoreDestinationIPCIDRMatch = false) :
    r.Selects allowFakeIP isAddressQuery i options m
      (r.select allowFakeIP isAddressQuery rules i options m) := by
  induction rules generalizing i options m with
  | nil =>
    refine ⟨rfl, .inl ⟨rfl, fun j rule le there => ?_⟩, nofun, by rw [here]; rfl⟩
    have inside := (List.getElem?_eq_some_iff.mp there).1
    have short := drop_eq_nil_iff.mp here
    omega
  | cons rule rules ih =>
    have next : ∀ options' m', m'.resetRuleCache = m.resetRuleCache →
        ¬ r.Applies allowFakeIP isAddressQuery m.connection rule →
        combine isAddressQuery m.connection [rule] options = options' →
        r.Selects allowFakeIP isAddressQuery i options m
          (r.select allowFakeIP isAddressQuery rules (i + 1) options' m') := fun options' m' same =>
      (ih (drop_succ here) options' m' ((fields_of_reset same).2.trans on)).skip here same
    have unset : rule.adds isAddressQuery m.connection = none →
        combine isAddressQuery m.connection [rule] options = options := fun none =>
      combine_of_none (forall_mem_singleton.mpr none) options
    have fresh : m.resetRuleCache = { connection := m.connection } := by
      unfold InboundContext.resetRuleCache
      rw [on]
    rw [select]
    split
    · rename_i skipped
      obtain ⟨limit, query⟩ : rule.conditions.withAddressLimit = true ∧ isAddressQuery = false := by
        simpa using skipped
      refine next options m rfl (fun applies => ?_) (unset ?_)
      · rw [applies.limit limit] at query
        cases query
      · unfold Rule.adds
        rw [limit, query]
        split <;> rfl
    · rename_i unlimited
      have left := (query_reset rule.conditions m.resetRuleCache on).trans (reset_reset m)
      dsimp only
      split
      · rename_i fails
        rw [fresh] at fails
        refine next options _ left (fun applies => ?_) (unset ?_)
        · rw [applies.conditions] at fails
          cases fails
        · grind [Rule.adds]
      · rename_i matched
        have applies : r.takes allowFakeIP rule.action = true ↔
            r.Applies allowFakeIP isAddressQuery m.connection rule := by
          refine ⟨fun takes => ⟨fun limit => ?_, ?_, takes⟩, fun applies => applies.takes⟩
          · simpa [limit] using unlimited
          · rw [fresh] at matched
            simpa using matched
        split
        · rename_i server action bypass route
          have unadded : rule.adds isAddressQuery m.connection = none := by rw [Rule.adds, route]
          split
          · rename_i unknown
            exact next options _ left (mt applies.mpr (by simp [route, takes, unknown]))
              (unset unadded)
          · rename_i transport known
            split
            · rename_i fake
              refine next options _ left (mt applies.mpr ?_) (unset unadded)
              rw [route, takes, known]
              simpa using fake
            · rename_i usable
              refine .first here left (applies.mp ?_) nofun (by simp [own, route])
              rw [route, takes, known]
              cases fake : transport.isFakeIP
              · simp [fake]
              · simpa [fake] using usable
        · rename_i action route
          refine next _ _ left (mt applies.mpr (by simp [route, takes])) ?_
          grind [combine, Rule.adds]
        · rename_i method reject
          exact .first here left (applies.mp (by rw [reject]; rfl)) (fun _ => .inl ⟨method, reject⟩)
            (by simp [own, reject])
        · rename_i rcode answer predefined
          exact .first here left (applies.mp (by rw [predefined]; rfl))
            (fun _ => .inr ⟨rcode, answer, predefined⟩) (by simp [own, predefined])
        · rename_i none
          exact next options _ left (mt applies.mpr (by simp [none, takes]))
            (unset (by rw [Rule.adds, none]))

section
variable {ρ α : Type}

/-- The attempts that were followed by others, and the index from which on the next rule is looked
for. -/
inductive Trace (r : Router Addr κ) (retry : Retry Addr κ ρ α) : List (Attempt Addr κ) → Nat → Prop
  | nil : Trace r retry [] 0
  | snoc {log : List (Attempt Addr κ)} {next i : Nat} {connection : Connection Addr κ}
      {rule : Rule Addr κ} {call : Call} (before : Trace r retry log next)
      (first : r.FirstFrom retry.allowFakeIP retry.isAddressQuery connection next i rule)
      (unsettled : rule.action.bind retry.settle = none) :
      Trace r retry (log ++ [⟨.rule i, connection, some call⟩]) (i + 1)

/-- The attempt a run ends with. -/
inductive Last (r : Router Addr κ) (retry : Retry Addr κ ρ α) (next : Nat) : Attempt Addr κ → Prop
  | settled {i : Nat} {connection : Connection Addr κ} {rule : Rule Addr κ}
      (first : r.FirstFrom retry.allowFakeIP retry.isAddressQuery connection next i rule)
      (settles : (rule.action.bind retry.settle).isSome = true) :
        Last r retry next ⟨.rule i, connection, none⟩
  | asked {i : Nat} {connection : Connection Addr κ} {rule : Rule Addr κ} {call : Call}
      (first : r.FirstFrom retry.allowFakeIP retry.isAddressQuery connection next i rule)
      (unsettled : rule.action.bind retry.settle = none) :
        Last r retry next ⟨.rule i, connection, some call⟩
  | default {connection : Connection Addr κ} {call : Call}
      (none : r.NoneFrom retry.allowFakeIP retry.isAddressQuery connection next) :
      Last r retry next ⟨.default, connection, some call⟩

/-- The rule of a choice. -/
def Router.chosen (r : Router Addr κ) : Choice → Option (Rule Addr κ)
  | .rule i => r.rules[i]?
  | _ => none

def Router.Uses (r : Router Addr κ) (p : Option DNSRuleAction → Prop)
    (attempt : Attempt Addr κ) : Prop :=
  ∃ i rule, attempt.choice = .rule i ∧ r.rules[i]? = some rule ∧ p rule.action

/-- The action ends the query, but not the loop. -/
def Retry.Misses (retry : Retry Addr κ ρ α) (action : Option DNSRuleAction) : Prop :=
  Settles action ∧ action.bind retry.settle = none

/-- The client is called with the options of the query, what the matching rules from this index on
add to them before the chosen one, the fields of that rule, and the default strategy where there is
none. -/
def Router.Combines (r : Router Addr κ) (isAddressQuery : Bool)
    (options : DNSQueryOptions) (first : Nat) (attempt : Attempt Addr κ) : Prop :=
  ∀ call, attempt.asked = some call →
    let combined := own (r.chosen attempt.choice) call.transport
      (combine isAddressQuery attempt.connection
        (scanned first (r.rules.drop first) attempt.choice) options)
    call.options = if combined.strategy = .asIS
      then { combined with strategy := r.defaultDomainStrategy } else combined

/-- The states at the head of the passes. -/
structure Running (r : Router Addr κ) (retry : Retry Addr κ ρ α) (s : RunState Addr κ) : Prop where
  on : s.metadata.ignoreDestinationIPCIDRMatch = false
  trace : Trace r retry s.log (start s.index)
  inside : start s.index ≤ r.rules.length

variable {retry : Retry Addr κ ρ α} {r : Router Addr κ}

theorem pass_spec (onlyRules : ∀ turn, retry.again none turn = false)
    (options : DNSQueryOptions) (outcomes : Nat → Turn Addr ρ) {s : RunState Addr κ}
    (running : Running r retry s) :
    (∃ answer last, r.pass retry options outcomes s =
      some (.ok (.leave (answer, s.log ++ [last]))) ∧
      Last r retry (start s.index) last ∧
      r.Combines retry.isAddressQuery options (start s.index) last ∧
      (answer = .panicked → r.Uses retry.Misses last)) ∨
    ∃ s', r.pass retry options outcomes s = some (.ok (.again s')) ∧ Running r retry s' ∧
      start s.index < start s'.index := by
  obtain ⟨on, trace, inside⟩ := running
  obtain ⟨left, selected, served, combined⟩ :
    r.Selects retry.allowFakeIP retry.isAddressQuery _ options s.metadata
      (r.matchDNS retry.allowFakeIP s.index retry.isAddressQuery options s.metadata) :=
    select_spec r retry.allowFakeIP retry.isAddressQuery rfl options s.metadata on
  unfold Router.pass
  dsimp only
  generalize r.matchDNS retry.allowFakeIP s.index retry.isAddressQuery options s.metadata = result
    at left combined selected served
  obtain ⟨chosen, dnsOptions, m⟩ := result
  dsimp only at left combined selected served ⊢
  subst combined
  rcases selected with ⟨rfl, none⟩ | ⟨i, rule, transport, first, rfl⟩
  · left
    dsimp only [Option.bind_none]
    rw [onlyRules, if_neg Bool.false_ne_true, Option.isNone_some, Bool.and_false,
      if_neg Bool.false_ne_true]
    exact ⟨_, _, rfl, .default none, by rintro _ ⟨⟩; rfl, nofun⟩
  · dsimp only [Option.bind_some]
    cases settle : rule.action.bind retry.settle with
    | some answer =>
        exact .inl ⟨_, _, rfl, .settled first (by rw [settle]; rfl), by rintro _ ⟨⟩, nofun⟩
    | none =>
      have here : r.chosen (.rule i) = some rule := first.here
      dsimp only
      split
      · rename_i nil
        have unserved := Option.isNone_iff_eq_none.mp (Bool.and_eq_true_iff.mp nil).2
        refine .inl ⟨_, _, rfl, .asked first settle, ?_,
          fun _ => ⟨i, rule, rfl, first.here, served unserved, settle⟩⟩
        rintro _ ⟨⟩
        dsimp only [Selected.choice]
        rw [here]
        rfl
      split
      · right
        refine ⟨_, rfl, ⟨?_, .snoc trace first settle, ?_⟩, Nat.lt_succ_of_le first.le⟩
        · dsimp only
          have on' := (fields_of_reset left).2.trans on
          split
          · rename_i checking same
            have kept := checkAll_reset checking.conditions m (outcomes s.log.length).submitted []
            exact (fields_of_reset kept).2.trans on'
          · exact on'
        · exact (List.getElem?_eq_some_iff.mp first.here).1
      · refine .inl ⟨_, _, rfl, .asked first settle, ?_, nofun⟩
        rintro _ ⟨⟩
        dsimp only [Selected.choice]
        rw [here]
        rfl

/-- **Runs end.** As many passes as there are rules, and one more, are enough. -/
theorem retry_ends (onlyRules : ∀ turn, retry.again none turn = false)
    (options : DNSQueryOptions) (connection : Connection Addr κ) (outcomes : Nat → Turn Addr ρ) :
    ∃ answer log next last, Trace r retry log next ∧ Last r retry next last ∧
      next ≤ r.rules.length ∧
      r.Combines retry.isAddressQuery options next last ∧
      (answer = .panicked → r.Uses retry.Misses last) ∧ ∀ fuel, r.rules.length < fuel →
        r.retry retry options connection outcomes fuel = some (.ok (answer, log ++ [last])) := by
  obtain ⟨_, s, ⟨_, trace, inside⟩, ⟨answer, last, rfl, ends, combines, panics⟩, value⟩ :=
    @loop_value _ _ _ (r.pass retry options outcomes) ⟨none, { connection := connection }, []⟩
      (Running r retry)
      (fun s b => ∃ answer last, b = (answer, s.log ++ [last]) ∧ Last r retry (start s.index) last ∧
        r.Combines retry.isAddressQuery options (start s.index) last ∧
        (answer = .panicked → r.Uses retry.Misses last))
      (fun s => r.rules.length - start s.index) ⟨rfl, .nil, Nat.zero_le _⟩ fun s running => by
        rcases pass_spec onlyRules options outcomes running
          with ⟨answer, last, left, ends⟩ | ⟨s', again, kept, less⟩
        · exact .inl ⟨_, left, answer, last, rfl, ends⟩
        · have := kept.inside
          exact .inr ⟨s', again, kept, by omega⟩
  exact ⟨answer, s.log, start s.index, last, trace, ends, inside, combines, panics, value⟩

def Attempt.rule? (attempt : Attempt Addr κ) : Option Nat :=
  match attempt.choice with
  | .rule i => some i
  | _ => none

/-- The indices of the rules used. -/
def used (log : List (Attempt Addr κ)) : List Nat := log.filterMap rule?

/-- Retries go forward: no more calls than rules and one, rules in increasing order, no call with or
after a rule that ends the query, and the default server only where no later rule applies. -/
structure Router.Forward (r : Router Addr κ) (allowFakeIP isAddressQuery : Bool)
    (log : List (Attempt Addr κ)) : Prop where
  few : (log.filterMap asked).length ≤ r.rules.length + 1
  increasing : (used log).Pairwise (· < ·)
  settled : ∀ before attempt after, log = before ++ attempt :: after → r.Uses Settles attempt →
    ∀ later ∈ attempt :: after, later.asked = none
  fallback : ∀ before attempt after, log = before ++ attempt :: after → attempt.choice = .default →
    ∀ j rule, (∀ i ∈ used before, i < j) → r.rules[j]? = some rule →
      ¬ r.Applies allowFakeIP isAddressQuery attempt.connection rule

/-- No rule up to one that was tried before adds options to those of the last attempt. -/
def Router.NoneLost (r : Router Addr κ) (isAddressQuery : Bool) (before : List (Attempt Addr κ))
    (last : Attempt Addr κ) : Prop :=
  ∀ i ∈ used before, ∀ rule ∈ r.rules.take (i + 1), rule.adds isAddressQuery last.connection = none

section
variable {r : Router Addr κ} {retry : Retry Addr κ ρ α} {log : List (Attempt Addr κ)} {next : Nat}
  {last : Attempt Addr κ}

section
variable (h : Trace r retry log next)
include h

theorem Trace.length_le : log.length ≤ next := by
  induction h with
  | nil => exact .refl
  | snoc _ first _ ih =>
    have le := first.le
    rw [length_append, length_singleton]
    omega

theorem Trace.used_lt : (used log).Pairwise (· < ·) ∧ ∀ i ∈ used log, i < next := by
  induction h with
  | nil => exact ⟨Pairwise.nil, forall_mem_nil _⟩
  | @snoc log next i connection rule call _ first _ ih =>
    have le := first.le
    have more : used (log ++ [⟨.rule i, connection, some call⟩]) = used log ++ [i] :=
      filterMap_append
    rw [more, pairwise_append]
    exact ⟨⟨ih.1, pairwise_singleton _ _, by grind⟩, by grind⟩

theorem Trace.next_used : next = 0 ∨ ∃ i ∈ used log, next = i + 1 := by
  cases h with
  | nil => exact .inl rfl
  | snoc =>
    refine .inr ⟨_, ?_, rfl⟩
    exact mem_filterMap.mpr ⟨_, mem_append_right _ mem_cons_self, rfl⟩

/-- The attempts before the last one are those of rules that do not end the loop. -/
theorem Trace.attempt {attempt : Attempt Addr κ} (mem : attempt ∈ log) :
    r.Uses (fun action => action.bind retry.settle = none) attempt ∧
      attempt.asked.isSome = true := by
  induction h with
  | nil => cases mem
  | @snoc log next i connection rule call _ first unsettled ih =>
    rcases mem_append.mp mem with early | here
    · exact ih early
    · rw [mem_singleton.mp here]
      exact ⟨⟨i, rule, rfl, first.here, unsettled⟩, rfl⟩

end

variable {attempt : Attempt Addr κ}

theorem Router.Uses.unique {p q : Option DNSRuleAction → Prop} (h : r.Uses p attempt)
    (h' : r.Uses q attempt) : ∃ action, p action ∧ q action := by
  obtain ⟨i, rule, choice, there, holds⟩ := h
  obtain ⟨i', rule', choice', there', holds'⟩ := h'
  rw [choice] at choice'
  cases choice'
  rw [there] at there'
  cases there'
  exact ⟨rule.action, holds, holds'⟩

theorem split_log {before after : List (Attempt Addr κ)}
    (h : log ++ [last] = before ++ attempt :: after) :
    attempt ∈ log ∨ (before = log ∧ attempt = last ∧ after = []) := by
  rcases eq_nil_or_concat after with rfl | ⟨front, x, rfl⟩
  · obtain ⟨same, here⟩ := append_inj' h rfl
    exact .inr ⟨same.symm, (singleton_inj.mp here).symm, rfl⟩
  · rw [concat_eq_append, ← cons_append, ← append_assoc] at h
    obtain ⟨same, _⟩ := append_inj' h rfl
    rw [same]
    exact .inl (mem_append_right _ mem_cons_self)

section
variable (trace : Trace r retry log next) (ends : Last r retry next last)
include trace ends

/-- All of it but the rules that end the query. -/
theorem forward_of_trace (inside : next ≤ r.rules.length)
    (settled : ∀ before attempt after, log ++ [last] = before ++ attempt :: after →
      r.Uses Settles attempt →
      ∀ later ∈ attempt :: after, later.asked = none) :
    r.Forward retry.allowFakeIP retry.isAddressQuery (log ++ [last]) := by
  obtain ⟨increasing, below⟩ := trace.used_lt
  refine ⟨?_, ?_, settled, ?_⟩
  · have calls := length_filterMap_le asked (log ++ [last])
    have passes := trace.length_le
    rw [length_append, length_singleton] at calls
    omega
  · have more : used (log ++ [last]) = used log ++ used [last] := filterMap_append
    have single : ∀ i connection call, used [(⟨.rule i, connection, call⟩ : Attempt Addr κ)] =
      [i] := fun _ _ _ => rfl
    rw [more, pairwise_append]
    cases ends with
    | settled first _ | asked first _ =>
      have le := first.le
      exact ⟨increasing, pairwise_singleton _ _, by grind⟩
    | default => exact ⟨increasing, Pairwise.nil, nofun⟩
  · intro before attempt after split choice j rule behind there
    rcases split_log split with early | ⟨rfl, rfl, _⟩
    · obtain ⟨⟨i, _, other, _⟩, _⟩ := trace.attempt early
      rw [choice] at other
      cases other
    · cases ends with
      | settled | asked => cases choice
      | default none =>
        rcases trace.next_used with rfl | ⟨i, used, rfl⟩
        · exact none j rule (Nat.zero_le j) there
        · exact none j rule (behind i used) there

/-- With a rule the client is called exactly when the rule does not end the loop. -/
theorem asked_of_trace (mem : attempt ∈ log ++ [last]) {p : Option DNSRuleAction → Prop}
    (uses : r.Uses p attempt) :
    ∃ action, p action ∧ (attempt.asked = none ↔ (action.bind retry.settle).isSome = true) := by
  rcases mem_append.mp mem with early | here
  · obtain ⟨unsettled, asked⟩ := trace.attempt early
    obtain ⟨action, holds, none⟩ := uses.unique unsettled
    exact ⟨action, holds, by simp [Option.isSome_iff_ne_none.mp asked, none]⟩
  · rw [mem_singleton.mp here] at uses ⊢
    obtain ⟨j, used, choice, there, holds⟩ := uses
    cases ends with
    | settled first settles =>
      cases choice
      cases first.here.symm.trans there
      exact ⟨_, holds, iff_of_true rfl settles⟩
    | asked first unsettled =>
      cases choice
      cases first.here.symm.trans there
      exact ⟨_, holds, by simp [unsettled]⟩
    | default => cases choice

/-- Only the last attempt is that of a rule that ends the loop, and it makes no call. -/
theorem settled_of_trace {before after : List (Attempt Addr κ)}
    (split : log ++ [last] = before ++ attempt :: after)
    (settles : r.Uses (fun action => (action.bind retry.settle).isSome = true) attempt) :
    ∀ later ∈ attempt :: after, later.asked = none := by
  have mem : attempt ∈ log ++ [last] := by simp [split]
  obtain ⟨action, ending, asked⟩ := asked_of_trace trace ends mem settles
  have silent := asked.mpr ending
  rcases split_log split with early | ⟨_, rfl, rfl⟩
  · have asked := (trace.attempt early).2
    rw [silent] at asked
    cases asked
  · intro later mem
    rw [mem_singleton.mp mem]
    exact silent

theorem combines_all {options : DNSQueryOptions}
    (combines : r.Combines retry.isAddressQuery options next last)
    (kept : r.NoneLost retry.isAddressQuery log last) :
      r.Combines retry.isAddressQuery options 0 last := by
  have none : ∀ rule ∈ r.rules.take next,
    rule.adds retry.isAddressQuery last.connection = none := by
    rcases trace.next_used with rfl | ⟨i, used, rfl⟩
    · exact forall_mem_nil _
    · exact kept i used
  have all : scanned 0 (r.rules.drop 0) last.choice =
      r.rules.take next ++ scanned next (r.rules.drop next) last.choice := by
    cases ends with
    | @settled i _ _ first | @asked i _ _ _ first =>
      have behind : i = next + (i - next) := (Nat.add_sub_cancel' first.le).symm
      dsimp only [scanned]
      rw [Nat.sub_zero, drop_zero, behind, take_add, Nat.add_sub_cancel_left]
    | default => exact (take_append_drop next r.rules).symm
  unfold Combines
  rw [all]
  simp only [combine_append, combine_of_none none]
  exact combines

end

end

end

/-- The action rejects with the method `reply`. -/
def RejectsByReply (action : Option DNSRuleAction) : Prop := action = some (.reject .reply)

variable {action : Option DNSRuleAction}

theorem exchange_onlyRules (message : Msg) (turn : Turn Addr Exchanged) :
    (exchangeRetry message : Retry Addr κ _ _).again none turn = false := by
  simp [exchangeRetry]

theorem lookup_onlyRules (turn : Turn Addr (LookedUp Addr)) :
    (lookupRetry : Retry Addr κ _ _).again none turn = false := by
  simp [lookupRetry]

theorem lookup_settles (h : Settles action) :
    (action.bind (lookupRetry : Retry Addr κ _ _).settle).isSome = true := by
  rcases h with ⟨method, rfl⟩ | ⟨rcode, answer, rfl⟩ <;> rfl

theorem exchange_settles (message : Msg) (h : Settles action) :
    (action.bind (exchangeRetry message : Retry Addr κ _ _).settle).isSome = true ∨
      RejectsByReply action := by
  rcases h with ⟨method, rfl⟩ | ⟨rcode, answer, rfl⟩
  · cases method with
    | default => exact .inl rfl
    | drop => exact .inl rfl
    | reply => exact .inr rfl
  · exact .inl rfl

theorem misses_exchange {message : Msg}
    (h : (exchangeRetry message : Retry Addr κ _ _).Misses action) :
    RejectsByReply action := by
  rcases exchange_settles message h.1 with settled | reply
  · rw [h.2] at settled
    cases settled
  · exact reply

variable {r : Router Addr κ} {log : List (Attempt Addr κ)}

theorem unruled_uses {p : Option DNSRuleAction → Prop}
    (given : ∀ attempt ∈ log, attempt.choice = .given) : ∀ attempt ∈ log, ¬ r.Uses p attempt := by
  rintro attempt mem ⟨i, rule, choice, _⟩
  rw [given attempt mem] at choice
  cases choice

/-- Without rules there is at most one call. -/
theorem forward_unruled {allowFakeIP isAddressQuery : Bool}
    (short : log.length ≤ 1) (given : ∀ attempt ∈ log, attempt.choice = .given) :
    r.Forward allowFakeIP isAddressQuery log := by
  have inside : ∀ {before attempt after}, log = before ++ attempt :: after →
    attempt ∈ log := by grind
  have none : used log = [] := by
    refine filterMap_eq_nil_iff.mpr fun attempt mem => ?_
    rw [rule?, given attempt mem]
  refine ⟨?_, ?_, ?_, ?_⟩
  · have calls := length_filterMap_le asked log
    omega
  · rw [none]
    exact Pairwise.nil
  · intro before attempt after split settles
    exact absurd settles (unruled_uses given attempt (inside split))
  · intro before attempt after split choice
    rw [given attempt (inside split)] at choice
    cases choice

theorem Router.Uses.imp {p q : Option DNSRuleAction → Prop} {attempt : Attempt Addr κ}
    (h : r.Uses p attempt) (more : ∀ action, p action → q action) : r.Uses q attempt := by
  obtain ⟨i, rule, choice, there, holds⟩ := h
  exact ⟨i, rule, choice, there, more _ holds⟩

section
variable {r : Router Addr κ} {log : List (Attempt Addr κ)} {next : Nat} {last : Attempt Addr κ}

/-- A rule that rejects with the method `reply` is used like one that names a server. -/
theorem exchange_forward_iff {message : Msg} (trace : Trace r (exchangeRetry message) log next)
    (ends : Last r (exchangeRetry message) next last) (inside : next ≤ r.rules.length) :
    r.Forward true (isAddressQuery message) (log ++ [last]) ↔
      ∀ attempt ∈ log ++ [last], ¬ r.Uses RejectsByReply attempt := by
  constructor
  · intro forward attempt mem replies
    obtain ⟨before, after, split⟩ := append_of_mem mem
    have silent := forward.settled before attempt after split
      (replies.imp fun _ reply => .inl ⟨.reply, reply⟩) attempt mem_cons_self
    obtain ⟨action, rfl, asked⟩ := asked_of_trace trace ends mem replies
    cases asked.mp silent
  · intro none
    refine forward_of_trace trace ends inside fun before attempt after split settles => ?_
    refine settled_of_trace trace ends split ?_
    obtain ⟨i, rule, choice, there, settles⟩ := settles
    rcases exchange_settles message settles with settles | reply
    · exact ⟨i, rule, choice, there, settles⟩
    · refine absurd ⟨i, rule, choice, there, reply⟩ (none attempt ?_)
      rw [split]
      exact mem_append_right _ mem_cons_self

theorem lookup_forward (trace : Trace r lookupRetry log next) (ends : Last r lookupRetry next last)
    (inside : next ≤ r.rules.length) : r.Forward false true (log ++ [last]) := by
  refine forward_of_trace trace ends inside fun before attempt after split settles => ?_
  exact settled_of_trace trace ends split (settles.imp fun _ => lookup_settles)

end

/-- **Retries go forward.** The loops of every `Exchange` and every `Lookup` end. A `Lookup` does
not panic and goes forward; an `Exchange` does so exactly when none of the rules it uses rejects
with the method `reply`. -/
theorem retries_forward (r : Router Addr κ) (given : Option Transport) (options : DNSQueryOptions)
    (connection : Connection Addr κ) :
    (∀ message outcomes, ∃ answer log,
      (∀ fuel, r.rules.length < fuel →
        r.exchange message given options connection outcomes fuel = some (.ok (answer, log))) ∧
      (answer ≠ .panicked ∧ r.Forward true (isAddressQuery message) log ↔
        ∀ attempt ∈ log, ¬ r.Uses RejectsByReply attempt)) ∧
    (∀ outcomes, ∃ answer log,
      (∀ fuel, r.rules.length < fuel →
        r.lookup given options connection outcomes fuel = some (.ok (answer, log))) ∧
      answer ≠ .panicked ∧ r.Forward false true log) := by
  constructor
  · intro message outcomes
    unfold exchange
    by_cases bad : message.question.length ≠ 1
    · refine ⟨_, _, fun fuel _ => if_pos bad,
        ⟨fun _ => unruled_uses (forall_mem_nil _), fun _ => ⟨nofun, ?_⟩⟩⟩
      exact forward_unruled (Nat.zero_le _) (forall_mem_nil _)
    · simp only [if_neg bad]
      cases given with
      | some transport =>
        refine ⟨_, _, fun fuel _ => rfl,
          ⟨fun _ => unruled_uses ?_, fun _ => ⟨nofun, forward_unruled .refl ?_⟩⟩⟩
        · exact forall_mem_singleton.mpr rfl
        · exact forall_mem_singleton.mpr rfl
      | none =>
        obtain ⟨answer, log, next, last, trace, ends, inside, _, panics, value⟩ :=
          retry_ends (r := r) (exchange_onlyRules message) options connection outcomes
        have forward := exchange_forward_iff trace ends inside
        refine ⟨answer, log ++ [last], value, fun h => forward.mp h.2,
          fun none => ⟨fun panicked => ?_, ?_⟩⟩
        · exact none last (mem_append_right _ mem_cons_self)
            ((panics panicked).imp fun _ => misses_exchange)
        · exact forward.mpr none
  · intro outcomes
    cases given with
    | some transport =>
      refine ⟨_, _, fun fuel _ => rfl, nofun, ?_⟩
      exact forward_unruled .refl (forall_mem_singleton.mpr rfl)
    | none =>
      obtain ⟨answer, log, next, last, trace, ends, inside, _, panics, value⟩ :=
        retry_ends (r := r) lookup_onlyRules options connection outcomes
      refine ⟨answer, log ++ [last], value, fun panicked => ?_, lookup_forward trace ends inside⟩
      obtain ⟨_, rule, _, _, settles, unsettled⟩ := panics panicked
      exact absurd (lookup_settles settles) (by rw [unsettled]; nofun)

/-- **Route options.** The loops of every `Exchange` and every `Lookup` end, and the last call is
made with what all matching rules before the chosen one add to the options, where no rule up to one
tried before is among these. -/
theorem options_combined (r : Router Addr κ) (options : DNSQueryOptions)
    (connection : Connection Addr κ) :
    (∀ message outcomes, message.question.length = 1 → ∃ answer before last,
      (∀ fuel, r.rules.length < fuel →
        r.exchange message none options connection outcomes fuel =
          some (.ok (answer, before ++ [last]))) ∧
      (r.NoneLost (isAddressQuery message) before last →
        r.Combines (isAddressQuery message) options 0 last)) ∧
    (∀ outcomes, ∃ answer before last,
      (∀ fuel, r.rules.length < fuel →
        r.lookup none options connection outcomes fuel = some (.ok (answer, before ++ [last]))) ∧
      (r.NoneLost true before last → r.Combines true options 0 last)) := by
  constructor
  · intro message outcomes one
    obtain ⟨answer, log, next, last, trace, ends, _, combines, _, value⟩ :=
      retry_ends (r := r) (exchange_onlyRules message) options connection outcomes
    refine ⟨answer, log, last, fun fuel enough => ?_, combines_all trace ends combines⟩
    rw [exchange, if_neg (absurd one)]
    exact value fuel enough
  · intro outcomes
    obtain ⟨answer, log, next, last, trace, ends, _, combines, _, value⟩ :=
      retry_ends (r := r) lookup_onlyRules options connection outcomes
    exact ⟨answer, log, last, value, combines_all trace ends combines⟩

end

def rejecting (method : RejectMethod) : Router Nat Unit where
  rules := [⟨.default {}, some (.reject method)⟩]
  transport _ := none
  defaultTransport := { tag := utf8 "default" }

def oneQuestion : Msg := { question := [⟨utf8 "a.", typeA, 1⟩] }

/-- With the method `reply` an `Exchange` calls the client all the same, and without a transport;
where the client fails, it panics over the log. -/
theorem exchange_after_reject :
    ∃ log, (∀ fuel, (rejecting .reply).exchange oneQuestion none {} ⟨0, none, [], ()⟩
        (fun _ => { reply := .failed }) (fuel + 1) = some (.ok (.panicked, log))) ∧
      log.map (fun attempt => (attempt.choice,
        attempt.asked.map fun call => call.transport.isSome)) = [(.rule 0, some false)] ∧
      ¬ (rejecting .reply).Forward true true log := by
  refine ⟨_, fun fuel => rfl, rfl, fun forward => ?_⟩
  have silent := forward.settled [] _ [] rfl ⟨0, _, rfl, rfl, .inl ⟨_, rfl⟩⟩ _ mem_cons_self
  cases silent

/-- A rule without the cache before a server that may fail, and a second server. -/
def uncachedFirst : Router Nat Unit where
  rules := [⟨.default {}, some (.routeOptions { disableCache := true })⟩,
    ⟨.default {}, some (.route (utf8 "a") {} true)⟩,
      ⟨.default {}, some (.route (utf8 "b") {} false)⟩]
  transport tag := some { tag }
  defaultTransport := { tag := utf8 "default" }

/-- When the first server fails, the second is asked with the cache. -/
theorem retry_loses_options : ∃ log,
    (∀ fuel, uncachedFirst.exchange oneQuestion none {} ⟨0, none, [], ()⟩
      (fun _ => { reply := .failed }) (fuel + 2) = some (.ok (.replied .failed, log))) ∧
    log.map (fun attempt => (attempt.choice, attempt.asked.map (·.options.disableCache))) =
      [(.rule 1, some true), (.rule 2, some false)] ∧
    ¬ ∀ last ∈ log.getLast?, uncachedFirst.Combines true {} 0 last := by
  refine ⟨_, fun fuel => rfl, rfl, fun combines => ?_⟩
  have options := congrArg DNSQueryOptions.disableCache (combines _ rfl _ rfl)
  revert options
  decide

/-- The same with the rule without the cache behind the first server. -/
def uncachedSecond : Router Nat Unit :=
  { uncachedFirst with rules := [⟨.default {}, some (.route (utf8 "a") {} true)⟩,
    ⟨.default {}, some (.routeOptions { disableCache := true })⟩,
    ⟨.default {}, some (.route (utf8 "b") {} false)⟩] }

/-- When the first server fails here, the second is asked without the cache. -/
theorem retry_keeps_options : ∃ before last,
    used before = [0] ∧ last.asked.map (·.options.disableCache) = some true ∧
      uncachedSecond.NoneLost true before last ∧ uncachedSecond.Combines true {} 0 last := by
  obtain ⟨answer, before, last, value, combines⟩ :=
    (options_combined uncachedSecond {} ⟨0, none, [], ()⟩).1 oneQuestion
      (fun _ => { reply := .failed }) rfl
  obtain ⟨first, second, run, tried, asked⟩ : ∃ first second : Attempt Nat Unit,
      uncachedSecond.exchange oneQuestion none {} ⟨0, none, [], ()⟩
        (fun _ => { reply := .failed }) 4 = some (.ok (.replied .failed, [first] ++ [second])) ∧
      used [first] = [0] ∧ second.asked.map (·.options.disableCache) = some true :=
    ⟨_, _, rfl, rfl, rfl⟩
  have same := (value 4 (by decide)).symm.trans run
  simp only [Option.some.injEq, Outcome.ok.injEq, Prod.mk.injEq] at same
  obtain ⟨rfl, last_eq⟩ := append_inj' same.2 rfl
  cases last_eq
  have kept : uncachedSecond.NoneLost true [first] last := by
    intro i mem rule rule_mem
    rw [tried, mem_singleton] at mem
    subst mem
    rw [mem_singleton.mp rule_mem]
    rfl
  exact ⟨[first], last, tried, asked, kept, combines kept⟩

end AiboosterEngine.Dns
