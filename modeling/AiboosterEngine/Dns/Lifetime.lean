import AiboosterEngine.Dns.Client

/-!
# How long a response lives

The loops for the TTL of a message take zero for "none yet", so they give the
least TTL that is not zero.
-/

namespace AiboosterEngine.Dns
open GoSem List Client

variable (ttls : List UInt32)

def LeastPositive (ttl : UInt32) : Prop :=
  (ttl = 0 ∧ ∀ t ∈ ttls, t = 0) ∨ (0 < ttl ∧ ttl ∈ ttls ∧ ∀ t ∈ ttls, t = 0 ∨ ttl ≤ t)

variable {ttl ttl' : UInt32}

theorem LeastPositive.unique {ttls : List UInt32} (h : LeastPositive ttls ttl)
    (h' : LeastPositive ttls ttl') : ttl = ttl' := by
  rcases h with ⟨rfl, zero⟩ | ⟨pos, mem, least⟩ <;>
    rcases h' with ⟨rfl, zero'⟩ | ⟨pos', mem', least'⟩
  · rfl
  · rw [zero ttl' mem'] at pos'
    cases pos'
  · rw [zero' ttl mem] at pos
    cases pos
  · grind

theorem LeastPositive.eq_zero_iff {ttls : List UInt32} (h : LeastPositive ttls ttl) :
    ttl = 0 ↔ ∀ t ∈ ttls, t = 0 := by
  rcases h with ⟨rfl, zero⟩ | ⟨pos, there, _⟩
  · exact iff_of_true rfl zero
  · have nonzero := UInt32.pos_iff_ne_zero.mp pos
    exact iff_of_false nonzero fun zero => nonzero (zero ttl there)

theorem LeastPositive.lower {seen : List UInt32} (h : LeastPositive seen ttl) (next : UInt32) :
    LeastPositive (seen ++ [next]) (lowerTTL ttl next) := by
  unfold lowerTTL LeastPositive
  simp only [mem_append, mem_singleton]
  rcases h with ⟨rfl, zero⟩ | ⟨pos, mem, least⟩
  · grind
  · grind

theorem leastTTL_leastPositive : LeastPositive ttls (leastTTL ttls) := by
  suffices loop : ∀ (rest seen : List UInt32) (ttl : UInt32), LeastPositive seen ttl →
      LeastPositive (seen ++ rest) (rest.foldl lowerTTL ttl) from
    loop ttls [] 0 (.inl ⟨rfl, forall_mem_nil _⟩)
  intro rest
  induction rest with
  | nil => intro seen ttl h; rwa [append_nil]
  | cons next rest ih =>
    intro seen ttl h
    have more := ih (seen ++ [next]) _ (h.lower next)
    rwa [append_assoc] at more

variable (response : Msg)

/-- The TTL of a negative response: that of the first SOA record, or its minimum if that is less. -/
def NegativeTTL (ttl : UInt32) : Prop :=
  ∃ before record after minttl, response.ns = before ++ record :: after ∧
    (∀ r ∈ before, ∀ m, r.data ≠ .soa m) ∧ record.data = .soa minttl ∧
    (ttl = record.ttl ∨ ttl = minttl) ∧ ttl ≤ record.ttl ∧ ttl ≤ minttl

/-- The TTL a response is given. -/
def Lives : Option UInt32 → UInt32 → Prop
  | some rewriteTTL, ttl => ttl = rewriteTTL
  | none, ttl =>
    (response.answer = [] ∧ 0 < ttl ∧ NegativeTTL response ttl) ∨
    ((response.answer = [] → ∀ t, NegativeTTL response t → t = 0) ∧ LeastPositive response.ttls ttl)

theorem negativeTTL_iff (ttl : UInt32) :
    NegativeTTL response ttl ↔ extractNegativeTTL response = some ttl := by
  have lesser : ∀ a b t : UInt32, (if a < b then a else b) = t ↔ (t = a ∨ t = b) ∧ t ≤ a ∧
    t ≤ b := by grind
  unfold NegativeTTL extractNegativeTTL
  rw [findSome?_eq_some_iff]
  constructor
  · grind
  · grind

theorem timeToLive_lives (rewriteTTL : Option UInt32) :
    Lives response rewriteTTL (timeToLive response rewriteTTL) := by
  cases rewriteTTL with
  | some ttl => rfl
  | none =>
    have least := leastTTL_leastPositive response.ttls
    unfold Lives timeToLive
    simp only [negativeTTL_iff, Option.getD_none]
    by_cases empty : response.answer = []
    · rw [if_pos empty]
      cases found : extractNegativeTTL response with
      | none =>
        right
        refine ⟨fun _ t same => ?_, least⟩
        cases same
      | some negative => grind
    · rw [if_neg empty, if_pos rfl]
      exact .inr ⟨fun h => absurd h empty, least⟩

variable {response : Msg}

theorem Lives.unique {rewriteTTL : Option UInt32}
    (h : Lives response rewriteTTL ttl) (h' : Lives response rewriteTTL ttl') : ttl = ttl' := by
  cases rewriteTTL with
  | some rewriteTTL =>
    have same : ttl = rewriteTTL := h
    have same' : ttl' = rewriteTTL := h'
    rw [same, same']
  | none =>
    unfold Lives at h h'
    simp only [negativeTTL_iff] at h h'
    rcases h with ⟨empty, pos, negative⟩ | ⟨zero, least⟩ <;>
      rcases h' with ⟨empty', pos', negative'⟩ | ⟨zero', least'⟩
    · exact Option.some.inj (negative.symm.trans negative')
    · exact absurd (zero' empty ttl negative) (UInt32.pos_iff_ne_zero.mp pos)
    · exact absurd (zero empty' ttl' negative') (UInt32.pos_iff_ne_zero.mp pos')
    · exact least.unique least'

theorem filterHints_lives (question : Question) (strategy : DomainStrategy) (response : Msg)
    (rewriteTTL : Option UInt32) :
    timeToLive (filterHints question strategy response) rewriteTTL =
      timeToLive response rewriteTTL := by
  have ttl : ∀ record : RR, (record.filterHints strategy).ttl = record.ttl := by
    intro record
    unfold RR.filterHints
    split <;> rfl
  unfold filterHints
  split
  · unfold timeToLive extractNegativeTTL Msg.ttls Msg.records
    simp only [map_eq_nil_iff, map_append, map_map, Function.comp_def, ttl]
  · rfl

def delivered [OptLib] (sent : Msg) (question : Question) (options : DNSQueryOptions)
    (response : Msg) : Msg :=
  restrictEDNS sent { (filterHints question options.strategy response).mapTTL
    (fun _ => timeToLive response options.rewriteTTL) with id := sent.id }

def Rejected (parseAddr : Bytes → Addr) (responseChecker : Option Checker)
    (response : Msg) : Prop :=
  ∃ check, responseChecker = some check ∧
    (response.rcode ≠ rcodeSuccess ∨ response.answer = [] ∨
      check (messageToAddresses parseAddr response) = false)

theorem rejects_iff (parseAddr : Bytes → Addr) (responseChecker : Option Checker) (response : Msg) :
    rejects parseAddr responseChecker response = true ↔
      Rejected parseAddr responseChecker response := by
  unfold rejects Rejected
  cases responseChecker with
  | none => simp
  | some check => grind

/-- An entry that the query has put into the cache. -/
def NewEntry (before after : Client) (key : CacheKey) (entry : Entry) : Prop :=
  after.cache.get key = some entry ∧ before.cache.get key ≠ some entry

/-- Responses that may be stored. -/
def Storable (c : Client) (message : Msg) (options : DNSQueryOptions) (response : Msg) : Prop :=
  c.bypassesCache message options = false ∧
    (response.rcode = rcodeSuccess ∨ response.rcode = rcodeNameError)

section
variable {parseAddr : Bytes → Addr} {c : Client} {now : Nat} {transport : Bytes}
  {contextTransport : Option Bytes} {message : Msg} {options : DNSQueryOptions}
  {responseChecker : Option Checker} {question : Question}
  {upstream : Msg → Except TransportError Msg} {response : Msg}

theorem storable_iff : Storable c message options response ↔
    (c.bypassesCache message options ||
      (response.rcode != rcodeSuccess && response.rcode != rcodeNameError)) = false := by
  unfold Storable
  simp only [Bool.or_eq_false_iff, Bool.and_eq_false_iff, bne_eq_false_iff_eq]

section
variable (asks : c.Asks now transport contextTransport message options responseChecker question)
include asks

theorem asking_not_new (entry : Entry) :
    ¬ NewEntry c (c.asking now transport message options question)
    (c.cacheKey question transport) entry := by
  unfold asking
  rintro ⟨there, new⟩
  split at there
  · exact new there
  · rename_i cached
    obtain ⟨_, _, gone⟩ := missed_eq (asks.misses (by simpa using cached))
    rw [gone] at there
    cases there

/-- Only the cache of the client changes before the transport is asked. -/
theorem asking_eq :
    ∃ cache, c.asking now transport message options question = { c with cache := cache } := by
  unfold asking
  split
  · exact ⟨c.cache, rfl⟩
  · rename_i cached
    exact (missed_eq (asks.misses (by simpa using cached))).2.1

section
variable [OptLib] (answered : upstream (c.request message options) = .ok response)
include answered

theorem exchange_config :
    ∃ cache rdrc,
      (c.exchange parseAddr now transport contextTransport message options
        responseChecker upstream).1 = { c with cache := cache, rdrc := rdrc } := by
  obtain ⟨cache, asking⟩ := asking_eq asks
  rw [exchange_of_asks asks answered, asking]
  unfold respond storeCache saveRDRC
  dsimp only
  split
  · split <;> exact ⟨_, _, rfl⟩
  · split
    · exact ⟨_, _, rfl⟩
    · split <;> exact ⟨_, _, rfl⟩

/-- A rejected response is returned as it came, and nothing is stored. -/
theorem exchange_rejected (rejected : Rejected parseAddr responseChecker response) :
    let exchanged := c.exchange parseAddr now transport contextTransport message options
      responseChecker upstream
    exchanged.2 = .rejected response ∧
    ∀ entry, ¬ NewEntry c exchanged.1 (c.cacheKey question transport) entry := by
  dsimp only
  rw [exchange_of_asks asks answered, respond, if_pos ((rejects_iff _ _ _).mpr rejected)]
  refine ⟨rfl, fun entry new => asking_not_new asks entry ?_⟩
  split at new
  · exact new
  · exact new

/-- An accepted response is returned with its TTL, and stored when it may be and the TTL is not
zero. -/
theorem exchange_outcome (accepted : ¬ Rejected parseAddr responseChecker response)
    (lives : Lives response options.rewriteTTL ttl) :
    let exchanged := c.exchange parseAddr now transport contextTransport message options
      responseChecker upstream
    exchanged.2 = .response (delivered (c.request message options) question options response) ∧
    ∀ entry, NewEntry c exchanged.1 (c.cacheKey question transport) entry ↔
      Storable c message options response ∧ ttl ≠ 0 ∧
        entry = ⟨delivered (c.request message options) question options response,
          if c.disableExpire then none else some (now + 1000 * ttl.toNat)⟩ := by
  have same := lives.unique (timeToLive_lives response options.rewriteTTL)
  have accepts : rejects parseAddr responseChecker response = false := by
    rw [← Bool.not_eq_true, rejects_iff]
    exact accepted
  obtain ⟨cache, asking⟩ := asking_eq asks
  dsimp only
  rw [exchange_of_asks asks answered, respond, if_neg (by rw [accepts]; decide)]
  dsimp only
  rw [filterHints_lives, ← same]
  have returned : delivered (c.request message options) question options response =
      restrictEDNS (c.request message options)
        { (filterHints question options.strategy response).mapTTL
        (fun _ => ttl) with id := (c.request message options).id } := by
    rw [delivered, ← same]
  rw [← returned]
  refine ⟨rfl, fun entry => ?_⟩
  rw [storable_iff]
  split
  · grind [asking_not_new]
  · rename_i caches
    have storable := Bool.eq_false_iff.mpr caches
    unfold storeCache
    split
    · rename_i zero
      exact ⟨fun new => absurd new (asking_not_new asks entry), fun h => absurd zero h.2.1⟩
    · rename_i nonzero
      have key : (c.asking now transport message options question).cacheKey question transport =
          c.cacheKey question transport := by rw [asking]; rfl
      have expire : (c.asking now transport message options question).disableExpire =
        c.disableExpire := by
        rw [asking]
      unfold NewEntry
      simp only [key, expire, Map.get_set, if_pos, Option.some.injEq]
      constructor
      · rintro ⟨here, _⟩
        exact ⟨storable, nonzero, here.symm⟩
      · rintro ⟨_, _, rfl⟩
        refine ⟨rfl, fun old => ?_⟩
        -- an entry that was there would have answered the query
        obtain ⟨expires, expired⟩ := asks.misses (storable_iff.mpr storable).1 _ old
        rw [expires] at expired
        have early := expired (now + 1000 * ttl.toNat) rfl
        omega

end

end

end

/-- The TTL written into the answers and the lifetime of the entry are within every original TTL. -/
structure KeptInTime (before after : Client) (key : CacheKey) (now : Nat) (response : Msg)
    (exchanged : Exchanged) : Prop where
  written : ∀ message, exchanged = .response message →
    ∀ record ∈ message.answer, ∀ original ∈ response.answer, record.ttl ≤ original.ttl
  lifetime : ∀ entry, NewEntry before after key entry → ∃ expireAt, entry.expireAt = some expireAt ∧
    ∀ original ∈ response.answer, expireAt ≤ now + 1000 * original.ttl.toNat

theorem restrictEDNS_answer [OptLib] (message response : Msg) :
    (restrictEDNS message response).answer = response.answer := by
  unfold restrictEDNS
  split
  · rfl
  · dsimp only
    split
    · rfl
    · split <;> rfl

theorem delivered_answer [OptLib] (sent : Msg) (question : Question) {options : DNSQueryOptions}
    (lives : Lives response options.rewriteTTL ttl) (nonempty : response.answer ≠ []) :
    (delivered sent question options response).answer ≠ [] ∧
      ∀ record ∈ (delivered sent question options response).answer, record.ttl = ttl := by
  have same := lives.unique (timeToLive_lives response options.rewriteTTL)
  have answers : (delivered sent question options response).answer =
      (filterHints question options.strategy response).answer.map fun record =>
        { record with ttl := ttl } := by
    rw [delivered, restrictEDNS_answer, ← same]
    rfl
  have there : (filterHints question options.strategy response).answer ≠ [] := by
    unfold filterHints
    split
    · simpa using nonempty
    · exact nonempty
  rw [answers]
  refine ⟨by simpa using there, fun record mem => ?_⟩
  obtain ⟨_, _, rfl⟩ := mem_map.mp mem
  rfl

theorem answer_ttl_mem {record : RR} (mem : record ∈ response.answer) :
    record.ttl ∈ response.ttls := by
  refine mem_map_of_mem ?_
  rw [Msg.records, append_assoc]
  exact mem_append_left _ mem

/-- The least TTL is within those of the answers when no answer has TTL zero, or all records
have. -/
theorem LeastPositive.le_answers_iff (h : LeastPositive response.ttls ttl) :
    (∀ original ∈ response.answer, ttl ≤ original.ttl) ↔
      (∀ t ∈ response.ttls, t = 0) ∨ ∀ original ∈ response.answer, 0 < original.ttl := by
  rcases h with ⟨rfl, zero⟩ | ⟨pos, there, least⟩
  · exact ⟨fun _ => .inl zero, fun _ original _ => UInt32.zero_le⟩
  · grind [answer_ttl_mem]

section
variable [OptLib] (parseAddr : Bytes → Addr) (c : Client) (now : Nat) (transport : Bytes)
  (contextTransport : Option Bytes) (message : Msg) (options : DNSQueryOptions)
  (responseChecker : Option Checker) (question : Question)
  (upstream : Msg → Except TransportError Msg) (response : Msg)

/-- **Answers within their TTL.** A successful response with answers is kept in time exactly when it
is rejected, or all its records have TTL zero, or no answer has and it is not stored without
expiry. -/
theorem exchange_kept_iff
    (asks : c.Asks now transport contextTransport message options responseChecker question)
    (answered : upstream (c.request message options) = .ok response)
    (success : response.rcode = rcodeSuccess) (nonempty : response.answer ≠ [])
    (noRewrite : options.rewriteTTL = none) :
    KeptInTime c (c.exchange parseAddr now transport contextTransport message options
      responseChecker upstream).1 (c.cacheKey question transport) now response
      (c.exchange parseAddr now transport contextTransport message options
        responseChecker upstream).2 ↔
    Rejected parseAddr responseChecker response ∨ (∀ ttl ∈ response.ttls, ttl = 0) ∨
      ((∀ original ∈ response.answer, 0 < original.ttl) ∧
        (c.bypassesCache message options = true ∨ c.disableExpire = false)) := by
  by_cases rejected : Rejected parseAddr responseChecker response
  · obtain ⟨returned, nothing⟩ := exchange_rejected asks answered rejected
    refine ⟨fun _ => .inl rejected, fun _ =>
      ⟨fun m same => ?_, fun entry new => absurd new (nothing entry)⟩⟩
    rw [returned] at same
    cases same
  rw [or_iff_right rejected]
  have lives := timeToLive_lives response options.rewriteTTL
  have least : LeastPositive response.ttls (timeToLive response options.rewriteTTL) := by
    rw [noRewrite] at lives ⊢
    rcases lives with ⟨empty, _⟩ | ⟨_, least⟩
    · exact absurd empty nonempty
    · exact least
  obtain ⟨returned, stored⟩ := exchange_outcome asks answered rejected lives
  generalize timeToLive response options.rewriteTTL = ttl at lives least stored
  obtain ⟨there, written⟩ := delivered_answer (c.request message options) question lives nonempty
  rw [returned]
  constructor
  · intro kept
    have within : ∀ original ∈ response.answer, ttl ≤ original.ttl := by
      intro original mem
      obtain ⟨record, here⟩ := exists_mem_of_ne_nil _ there
      rw [← written record here]
      exact kept.written _ rfl record here original mem
    refine (least.le_answers_iff.mp within).imp id fun positive => ⟨positive, ?_⟩
    by_cases bypasses : c.bypassesCache message options = true
    · exact .inl bypasses
    · obtain ⟨first, mem⟩ := exists_mem_of_ne_nil _ nonempty
      have nonzero : ttl ≠ 0 := fun zero =>
        UInt32.pos_iff_ne_zero.mp (positive first mem)
          (least.eq_zero_iff.mp zero _ (answer_ttl_mem mem))
      obtain ⟨expireAt, expires, _⟩ := kept.lifetime _
        ((stored _).mpr ⟨⟨by simpa using bypasses, .inl success⟩, nonzero, rfl⟩)
      right
      cases keeps : c.disableExpire with
      | false => rfl
      | true => rw [keeps] at expires; cases expires
  · intro condition
    have within := least.le_answers_iff.mpr (condition.imp id And.left)
    refine ⟨fun m same record mem original here => ?_, fun entry new => ?_⟩
    · cases same
      rw [written record mem]
      exact within original here
    · obtain ⟨storable, nonzero, rfl⟩ := (stored entry).mp new
      have expires : c.disableExpire = false := by
        rcases condition with zero | ⟨_, bypasses | expires⟩
        · exact absurd (least.eq_zero_iff.mpr zero) nonzero
        · rw [storable.1] at bypasses
          cases bypasses
        · exact expires
      refine ⟨now + 1000 * ttl.toNat, if_neg (by rw [expires]; decide), fun original here => ?_⟩
      have le : ttl.toNat ≤ original.ttl.toNat := within original here
      omega

end

/-- A query for the address of one name. -/
def addressQuestion : Question := ⟨utf8 "a.", typeA, 1⟩

/-- Answers to it with these TTLs. -/
def addressResponse : Msg :=
  { question := [addressQuestion]
    answer := ttls.map fun ttl =>
      { name := utf8 "a.", rrclass := 1, ttl := ttl, data := .a [192, 0, 2, 1] } }

theorem exchange_kept_positive :
    KeptInTime {} (exchange (fun _ => .zero) {} 0 [] none { question := [addressQuestion] } {} none
        fun _ => .ok (addressResponse [60, 300])).1
      (cacheKey {} addressQuestion []) 0 (addressResponse [60, 300])
      (exchange (fun _ => .zero) {} 0 [] none { question := [addressQuestion] } {} none
        fun _ => .ok (addressResponse [60, 300])).2 :=
  (exchange_kept_iff (fun _ => .zero) {} 0 [] none { question := [addressQuestion] } {} none
    addressQuestion (fun _ => .ok (addressResponse [60, 300])) (addressResponse [60, 300])
    (asks_of_empty rfl rfl rfl (by decide) (by decide)) rfl rfl (by decide) rfl).mpr
    (.inr (.inr ⟨by decide, .inr rfl⟩))

/-- An answer with TTL zero beside one with 300 seconds: both are returned with 300 seconds and stay
in the cache for as long. -/
theorem exchange_keeps_zero :
    let exchanged :=
      exchange (fun _ => .zero) {} 0 [] none { question := [addressQuestion] } {} none
      fun _ => .ok (addressResponse [0, 300])
    exchanged.2 = .response (addressResponse [300, 300]) ∧
    exchanged.1.cache.get (addressQuestion, none) = some ⟨addressResponse [300, 300], some 300000⟩ ∧
    ¬ KeptInTime {} exchanged.1 (cacheKey {} addressQuestion []) 0 (addressResponse [0, 300])
      exchanged.2 := by
  refine ⟨by decide, by decide, fun kept => ?_⟩
  have returned := kept.written (addressResponse [300, 300]) (by decide)
  exact absurd returned (by decide)

end AiboosterEngine.Dns
