import AiboosterEngine.Ray2sing.Convert

/-!
# Proxy chains of a subscription

A line `h1 -> h2 -> ... -> hk` asks for traffic through `h1` to pass every
later hop. Here is what `GenerateConfigLite` builds when a hop cannot be parsed.
-/

namespace AiboosterEngine.Ray2sing
open GoSem Singbox List

theorem numbered_ne_empty (tag : String) (n : Nat) : numbered tag n ≠ "" := by
  intro h
  have := congrArg (fun s => s.toList.length) h
  simp [numbered, String.toList_append] at this

theorem numbered_inj {a b : String} {m n : Nat} (h : numbered a m = numbered b n) : m = n := by
  have space : (" " : String) = String.singleton ' ' := rfl
  unfold numbered at h
  rw [space] at h
  exact append_toString_inj (by decide) h

/-- The dialer options a parsed hop brings along, before it is chained. -/
def OutEnd.dialer? (outend : OutEnd) : Option DialerOptions :=
  match outend.outbound with
  | some o => o.options.dialer?
  | none => outend.endpoint.bind (·.options.dialer?)

variable {e : Emitted} {p : Parsers} {outend : OutEnd}

/-- An emitted entry has the numbered tag, and its dialer, if it has one, the carried tag. -/
theorem emit_spec {detourTag : String} {counter : Nat}
    (h : emit outend detourTag counter = some e) :
    (∃ tag, e.tag = numbered tag counter) ∧
      e.dialer? = outend.dialer?.map fun d => { d with detour := detourTag } := by
  obtain ⟨o, ep⟩ := outend
  cases o with
  | some o =>
    cases h
    refine ⟨⟨o.tag, rfl⟩, ?_⟩
    show (chainOutbound o detourTag counter).options.dialer? = o.options.dialer?.map _
    cases h : o.options <;> simp [chainOutbound, h, OutboundOptions.dialer?,
      OutboundOptions.replaceDialer]
  | none =>
    cases ep with
    | some ep =>
      cases h
      refine ⟨⟨ep.tag, rfl⟩, ?_⟩
      show (chainEndpoint ep detourTag counter).options.dialer? = ep.options.dialer?.map _
      cases h : ep.options <;>
        simp [chainEndpoint, h, EndpointOptions.dialer?, EndpointOptions.replaceDialer]
    | none => cases h

variable {hop : Bytes}

/-- What parses has something to emit: `processSingleConfig` has checked it. -/
theorem parseHop_emits (h : parseHop p hop = .ok outend) (detourTag : String)
    (counter : Nat) : ∃ e, emit outend detourTag counter = some e := by
  unfold parseHop processSingleConfig at h
  simp only at h
  split at h
  · rename_i outend' run
    cases h
    obtain ⟨o, _, run⟩ := Outcome.bind_eq_ok run
    obtain ⟨ep, _, run⟩ := Outcome.bind_eq_ok run
    cases o with
    | some o => cases run; exact ⟨_, rfl⟩
    | none =>
      cases ep with
      | some ep => cases run; exact ⟨_, rfl⟩
      | none => cases run
  · cases h
  · cases h

/-- One iteration: either the hop has an error and nothing but its place is recorded, or
it is emitted with the carried tag and the running number. -/
theorem chainStep_cases (p : Parsers) (hop : Bytes) (s : ChainState) :
    ((∃ err, parseHop p hop = .error err) ∧
      chainStep p hop s = { s with emits := none :: s.emits }) ∨
    ∃ outend e, parseHop p hop = .ok outend ∧ emit outend s.detourTag s.counter = some e ∧
      chainStep p hop s = ⟨some e :: s.emits, e.tag, s.counter + 1⟩ := by
  cases h : parseHop p hop with
  | error err => exact .inl ⟨⟨err, rfl⟩, by simp only [chainStep, h]⟩
  | ok outend =>
    obtain ⟨e, he⟩ := parseHop_emits h s.detourTag s.counter
    exact .inr ⟨outend, e, rfl, he, by simp only [chainStep, h, he]⟩

/-- The tag of the first entry that was emitted, `""` when there is none. -/
def nextTag : List (Option Emitted) → String
  | [] => ""
  | none :: rest => nextTag rest
  | some e :: _ => e.tag

/-- What holds at every iteration: the places follow the hops, the carried tag is that of
the nearest hop emitted, and each entry has the tag carried when it was emitted. -/
structure ChainInv (p : Parsers) (hops : List Bytes) (s : ChainState) : Prop where
  length : s.emits.length = hops.length
  carried : s.detourTag = nextTag s.emits
  parsed : ∀ (i : Nat) hop, hops[i]? = some hop →
    (s.emits[i]? = some none ∧ ∃ err, parseHop p hop = .error err) ∨
    ∃ outend e, parseHop p hop = .ok outend ∧ s.emits[i]? = some (some e) ∧
      e.dialer? = outend.dialer?.map fun d => { d with detour := nextTag (s.emits.drop (i + 1)) }
  numbers : ∀ (i : Nat) (e : Emitted), s.emits[i]? = some (some e) → ∃ tag n, n < s.counter ∧
    e.tag = numbered tag n
  distinct : ∀ (i j : Nat) (e e' : Emitted), i < j → s.emits[i]? = some (some e) →
    s.emits[j]? = some (some e') →
    e.tag ≠ e'.tag

theorem chainStep_inv {hops : List Bytes} {s : ChainState} (inv : ChainInv p hops s) :
    ChainInv p (hop :: hops) (chainStep p hop s) := by
  obtain ⟨length, carried, parsed, numbers, distinct⟩ := inv
  rcases chainStep_cases p hop s with ⟨bad, step⟩ | ⟨outend, e, good, he, step⟩
  · rw [step]
    refine ⟨by simp [length], carried, ?_, ?_, ?_⟩
    · intro i hop' hi
      cases i with
      | zero => cases hi; exact .inl ⟨rfl, bad⟩
      | succ i => exact parsed i hop' hi
    · intro i e hi
      cases i with
      | zero => cases hi
      | succ i => exact numbers i e hi
    · intro i j e e' hij hi hj
      cases i with
      | zero => cases hi
      | succ i =>
        cases j with
        | zero => omega
        | succ j => exact distinct i j e e' (by omega) hi hj
  · obtain ⟨⟨tag, htag⟩, hdial⟩ := emit_spec he
    rw [step]
    refine ⟨by simp [length], rfl, ?_, ?_, ?_⟩
    · intro i hop' hi
      cases i with
      | zero => cases hi; exact .inr ⟨outend, e, good, rfl, by rw [hdial, carried]; rfl⟩
      | succ i => exact parsed i hop' hi
    · intro i e₁ hi
      cases i with
      | zero => cases hi; exact ⟨tag, s.counter, by simp only; omega, htag⟩
      | succ i =>
        obtain ⟨tag, n, hn, ht⟩ := numbers i e₁ hi
        exact ⟨tag, n, by simp only; omega, ht⟩
    · intro i j e₁ e₂ hij hi hj
      cases j with
      | zero => omega
      | succ j =>
        cases i with
        | succ i => exact distinct i j e₁ e₂ (by omega) hi hj
        | zero =>
          -- the new number is above every number used in this line so far
          cases hi
          obtain ⟨tag', n, hn, ht⟩ := numbers j e₂ hj
          intro same
          rw [htag, ht] at same
          have := numbered_inj same
          omega

theorem chainLoop_inv (p : Parsers) (start : Nat) (hops : List Bytes) :
    ChainInv p hops (chainLoop p start hops) := by
  unfold chainLoop
  induction hops with
  | nil =>
    refine ⟨rfl, rfl, ?_, ?_, ?_⟩ <;> intros <;> simp_all
  | cons hop hops ih => exact chainStep_inv ih

/-- Traffic that leaves by `tag` does not pass hop `j`: it goes out directly, or to a hop
behind `j`. -/
def LeadsPast (emits : List (Option Emitted)) (j : Nat) (tag : String) : Prop :=
  tag = "" ∨ ∃ m e, j < m ∧ emits[m]? = some (some e) ∧ tag = Emitted.tag e

def InResult (options : Options) : Emitted → Prop
  | .outbound o => o ∈ options.outbounds
  | .endpoint e => e ∈ options.endpoints

/-- The entries of a line in `options`, `emits` being what each hop left there. -/
structure Chained (options : Options) (emits : List (Option Emitted)) : Prop where
  inResult : ∀ (i : Nat) (e : Emitted), emits[i]? = some (some e) → InResult options e
  toNext : ∀ (i : Nat) (e : Emitted) d, i + 1 < emits.length → emits[i]? = some (some e) →
    e.dialer? = some d → ∃ next, emits[i + 1]? = some (some next) ∧ d.detour = Emitted.tag next
  noSkip : ∀ (i j : Nat) (e : Emitted) d, i < j → emits[j]? = some none →
    emits[i]? = some (some e) →
    e.dialer? = some d → ¬ LeadsPast emits j d.detour

/-- The next hop of every hop that can be chained parses. -/
def FollowedByParsed (p : Parsers) (hops : List Bytes) : Prop :=
  ∀ i hop next outend, hops[i]? = some hop → hops[i + 1]? = some next →
    parseHop p hop = .ok outend → outend.dialer?.isSome → ∃ outend', parseHop p next = .ok outend'

theorem nextTag_drop {emits : List (Option Emitted)} {i : Nat} (h : emits[i]? = some (some e)) :
    nextTag (emits.drop i) = e.tag := by
  obtain ⟨hi, he⟩ := List.getElem?_eq_some_iff.mp h
  rw [drop_eq_getElem_cons hi, he]
  rfl

section
variable {p : Parsers} {hops : List Bytes} {s : ChainState}
  {i : Nat} {e : Emitted} {d : DialerOptions}

section
variable (inv : ChainInv p hops s)
include inv

theorem ChainInv.emitted_iff (hi : hops[i]? = some hop) :
    (∃ e, s.emits[i]? = some (some e)) ↔ ∃ outend, parseHop p hop = .ok outend := by
  rcases inv.parsed i hop hi with ⟨none, err, bad⟩ | ⟨outend, e, good, he, _⟩
  · simp [none, bad]
  · simp [good, he]

theorem ChainInv.hops_of_lt (h : i < s.emits.length) : ∃ hop, hops[i]? = some hop :=
  ⟨_, getElem?_eq_getElem (inv.length ▸ h)⟩

section
variable (hi : s.emits[i]? = some (some e))
include hi

theorem ChainInv.hop_of_emit : ∃ hop outend, hops[i]? = some hop ∧ parseHop p hop = .ok outend ∧
    e.dialer? = outend.dialer?.map fun d =>
      { d with detour := nextTag (s.emits.drop (i + 1)) } := by
  obtain ⟨hop, hhop⟩ := inv.hops_of_lt (List.getElem?_eq_some_iff.mp hi).1
  rcases inv.parsed i hop hhop with ⟨none, _⟩ | ⟨outend, e', good, he', dialer⟩
  · rw [hi] at none; cases none
  · rw [hi] at he'
    cases he'
    exact ⟨hop, outend, hhop, good, dialer⟩

theorem ChainInv.detour_nextTag (hd : e.dialer? = some d) :
    d.detour = nextTag (s.emits.drop (i + 1)) := by
  obtain ⟨hop, outend, _, _, dialer⟩ := inv.hop_of_emit hi
  rw [hd] at dialer
  obtain ⟨_, _, rfl⟩ := Option.map_eq_some_iff.mp dialer.symm
  rfl

theorem ChainInv.detour_next {next : Emitted} (hd : e.dialer? = some d)
    (hnext : s.emits[i + 1]? = some (some next)) : d.detour = next.tag := by
  rw [inv.detour_nextTag hi hd, nextTag_drop hnext]

theorem ChainInv.tag_ne_empty : e.tag ≠ "" := by
  obtain ⟨tag, n, _, ht⟩ := inv.numbers i e hi
  rw [ht]
  exact numbered_ne_empty tag n

end

theorem ChainInv.next_emitted (followed : FollowedByParsed p hops) (hlt : i + 1 < s.emits.length)
    (hi : s.emits[i]? = some (some e)) (hd : e.dialer? = some d) :
    ∃ next, s.emits[i + 1]? = some (some next) := by
  obtain ⟨hop, outend, hhop, good, dialer⟩ := inv.hop_of_emit hi
  obtain ⟨next, hnext⟩ := inv.hops_of_lt hlt
  have chains : outend.dialer?.isSome := by
    rw [hd] at dialer
    obtain ⟨_, some, _⟩ := Option.map_eq_some_iff.mp dialer.symm
    rw [some]
    rfl
  exact (inv.emitted_iff hnext).mpr (followed i hop next outend hhop hnext good chains)

/-- One line is chained as written exactly if every hop that can be chained is followed by
one that parses. -/
theorem ChainInv.chained_iff {options : Options}
    (result : ∀ (i : Nat) (e : Emitted), s.emits[i]? = some (some e) → InResult options e) :
    Chained options s.emits ↔ FollowedByParsed p hops := by
  constructor
  · intro chained i hop next outend hhop hnext good chains
    rcases inv.parsed i hop hhop with ⟨_, err, bad⟩ | ⟨outend', e, good', he, dialer⟩
    · rw [bad] at good; cases good
    · rw [good] at good'
      cases good'
      obtain ⟨d, hd⟩ := Option.isSome_iff_exists.mp chains
      rw [hd] at dialer
      have hlt : i + 1 < s.emits.length := by
        rw [inv.length]
        exact (List.getElem?_eq_some_iff.mp hnext).1
      obtain ⟨e', he', _⟩ := chained.toNext i e _ hlt he dialer
      exact (inv.emitted_iff hnext).mp ⟨e', he'⟩
  · intro followed
    refine ⟨result, ?_, ?_⟩
    · intro i e d hlt hi hd
      obtain ⟨next, hnext⟩ := inv.next_emitted followed hlt hi hd
      exact ⟨next, hnext, inv.detour_next hi hd hnext⟩
    · intro i j e d hij hj hi hd past
      have hlt : i + 1 < s.emits.length := by
        have := (List.getElem?_eq_some_iff.mp hj).1
        omega
      obtain ⟨next, hnext⟩ := inv.next_emitted followed hlt hi hd
      have detour := inv.detour_next hi hd hnext
      -- the next hop was emitted and hop `j` was not, so the next hop lies before `j`
      have before : i + 1 < j := by
        rcases Nat.lt_or_eq_of_le (show i + 1 ≤ j by omega) with h | h
        · exact h
        · rw [h, hj] at hnext; cases hnext
      rcases past with empty | ⟨m, e', hm, he', same⟩
      · exact inv.tag_ne_empty hnext (detour ▸ empty)
      · exact inv.distinct (i + 1) m next e' (by omega) hnext he' (detour ▸ same)

end

end

variable {line : List Bytes × List (Option Emitted)}

theorem lineLoop_mem {counter : Nat} {configs : List Bytes}
    (h : line ∈ lineLoop p counter configs) :
    ∃ start, line.2 = (chainLoop p start line.1).emits := by
  induction configs generalizing counter with
  | nil => cases h
  | cons config rest ih =>
    unfold lineLoop at h
    split at h
    · exact ih h
    · rcases mem_cons.mp h with rfl | h
      · exact ⟨counter, rfl⟩
      · exact ih h

theorem mem_emittedInOrder {lines : List (List Bytes × List (Option Emitted))}
    (hline : line ∈ lines) {i : Nat}
    (hi : line.2[i]? = some (some e)) : e ∈ emittedInOrder lines := by
  refine mem_flatMap.mpr ⟨line, hline, mem_filterMap.mpr ⟨some e, ?_, rfl⟩⟩
  exact mem_reverse.mpr (mem_of_getElem? hi)

variable {emitted : List Emitted} {options : Options}

theorem fullConfig_eq (h : fullConfig emitted = .ok options) :
    options = ⟨emitted.filterMap Emitted.outbound?, emitted.filterMap Emitted.endpoint?⟩ := by
  unfold fullConfig at h
  simp only at h
  split at h
  · cases h
  · exact (Except.ok.inj h).symm

theorem fullConfig_inResult (h : fullConfig emitted = .ok options) (he : e ∈ emitted) :
    InResult options e := by
  rw [fullConfig_eq h]
  cases e with
  | outbound | endpoint => exact mem_filterMap.mpr ⟨_, he, rfl⟩

theorem fullConfig_error {err : String} (h : fullConfig emitted = .error err) : emitted = [] := by
  unfold fullConfig at h
  simp only at h
  split at h
  · rename_i empty
    simp only [Bool.and_eq_true, List.isEmpty_iff, filterMap_eq_nil_iff] at empty
    refine eq_nil_iff_forall_not_mem.mpr fun e he => ?_
    cases e with
    | outbound o => cases empty.1 _ he
    | endpoint ep => cases empty.2 _ he
  · cases h

/-- Every line of the text with at least two hops is chained as written in the result,
exactly if in every such line each hop that can be chained is followed by one that parses. -/
theorem generateConfigLite_chained_iff (p : Parsers) (input : Bytes) :
    (∀ options, generateConfigLite p input = .ok options → ∀ line ∈ emissions p input,
        2 ≤ line.1.length → Chained options line.2) ↔
      ∀ line ∈ emissions p input, 2 ≤ line.1.length → FollowedByParsed p line.1 := by
  constructor
  · intro chained line hline two
    obtain ⟨start, hemits⟩ := lineLoop_mem hline
    have inv := chainLoop_inv p start line.1
    cases h : generateConfigLite p input with
    | ok options =>
      have here := chained options h line hline two
      rw [hemits] at here
      exact (inv.chained_iff here.inResult).mp here
    | error err =>
      intro i hop next outend hhop _ good _
      obtain ⟨e, he⟩ := (inv.emitted_iff hhop).mpr ⟨outend, good⟩
      have appended := mem_emittedInOrder hline (hemits ▸ he)
      rw [fullConfig_error h] at appended
      cases appended
  · intro followed options h line hline two
    obtain ⟨start, hemits⟩ := lineLoop_mem hline
    have result : ∀ (i : Nat) (e : Emitted), line.2[i]? = some (some e) → InResult options e :=
      fun i e hi => fullConfig_inResult h (mem_emittedInOrder hline hi)
    rw [hemits] at result ⊢
    exact ((chainLoop_inv p start line.1).chained_iff result).mpr (followed line hline two)

def socksOnly : Parsers where
  outbound key _ :=
    if key = utf8 "socks://" then .ok (some ⟨.other "socks", "", .dialed {} none⟩)
    else .err "not a socks link"
  endpoint _ _ := .err "not a socks link"

def socks (tag detour : String) : Outbound :=
  ⟨.other "socks", tag, .dialed { detour := detour } none⟩

/-- The hop in the middle is of no known type. -/
def middleHopFails : Bytes := utf8 "socks://a:1 -> foo://b -> socks://c:1"

def lastHopFails : Bytes := utf8 "socks://a:1 -> foo://b"

/-- Both texts are accepted. In the first the chain goes from `a` to `c`; in the second
`a` goes out directly. -/
theorem generateConfigLite_skips_hop :
    (generateConfigLite socksOnly middleHopFails
        = .ok ⟨[socks "socks § 0" "", socks "socks § 1" "socks § 0"], []⟩ ∧
      ∃ line ∈ emissions socksOnly middleHopFails, line.1.length = 3 ∧
        ¬ Chained ⟨[socks "socks § 0" "", socks "socks § 1" "socks § 0"], []⟩ line.2) ∧
    generateConfigLite socksOnly lastHopFails = .ok ⟨[socks "socks § 0" ""], []⟩ ∧
      ∃ line ∈ emissions socksOnly lastHopFails, line.1.length = 2 ∧
        ¬ Chained ⟨[socks "socks § 0" ""], []⟩ line.2 := by
  have middle : emissions socksOnly middleHopFails
      = [(["socks://a:1", "foo://b", "socks://c:1"].map utf8,
          [some (.outbound (socks "socks § 1" "socks § 0")), none,
            some (.outbound (socks "socks § 0" ""))])] := by decide +kernel
  have last : emissions socksOnly lastHopFails
      = [(["socks://a:1", "foo://b"].map utf8,
          [some (.outbound (socks "socks § 0" "")), none])] := by decide +kernel
  unfold generateConfigLite
  rw [middle, last]
  simp only [mem_singleton, exists_eq_left]
  refine ⟨⟨rfl, rfl, fun chained => ?_⟩, rfl, rfl, fun chained => ?_⟩
  · obtain ⟨next, hnext, _⟩ := chained.toNext 0 _ _ (by decide) rfl rfl
    cases hnext
  · obtain ⟨next, hnext, _⟩ := chained.toNext 0 _ _ (by decide) rfl rfl
    cases hnext

end AiboosterEngine.Ray2sing
