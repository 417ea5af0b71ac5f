import AiboosterEngine.Dns.Lifetime

/-!
# The flags of the OPT record

The TTL of an OPT record is a word of flags: the extended rcode, the version and
the DO bit. The client writes the TTL of the response over it, compares the
version in what it has written, and ages it in the cache like any other TTL.
-/

namespace AiboosterEngine.Dns
open GoSem List Option Client Msg OptLib

section
variable [OptLib]

/-- The TTL of the OPT record. -/
def Msg.flags (message : Msg) : Option UInt32 := (isEdns0 message).map RR.ttl

/-- The flags come through: in the message returned, and in every copy from the cache before the
entry expires, where no TTL is aged below zero. -/
structure FlagsKept (before after : Client) (question : Question) (transport : Bytes) (now : Nat)
    (flags : UInt32) (exchanged : Exchanged) : Prop where
  returned : ∃ message, exchanged.message = some message ∧ message.flags = some flags
  copies : ∀ entry, NewEntry before after (before.cacheKey question transport) entry →
    ∀ later, now ≤ later →
    ∀ copy nowTTL, (after.loadResponse later question transport).2 = some (copy, nowTTL) →
      copy.flags = some flags
  aged : ∀ entry, NewEntry before after (before.cacheKey question transport) entry →
    ∀ later, now ≤ later →
    ∀ expireAt, entry.expireAt = some expireAt → later ≤ expireAt →
      ¬ Wraps entry.message ((expireAt - later) / 1000)

theorem Msg.flags_mapTTL (f : UInt32 → UInt32) (message : Msg) :
    (message.mapTTL f).flags = message.flags.map f := by
  have kept : (RR.isOpt ∘ fun record : RR => { record with ttl := f record.ttl }) = RR.isOpt := rfl
  simp only [flags, isEdns0_last, mapTTL]
  rw [← map_reverse, find?_map, kept, Option.map_map, Option.map_map]
  rfl

theorem isEdns0_isSome_iff (message : Msg) :
    (isEdns0 message).isSome = true ↔ 0 < message.extra.countP RR.isOpt := by
  rw [isEdns0_last, find?_isSome, countP_pos_iff]
  simp only [mem_reverse]

theorem Msg.flags_congr {message message' : Msg} (same : message'.extra = message.extra) :
    message'.flags = message.flags := by
  rw [flags, flags, isEdns0_last, isEdns0_last, same]

variable {message response : Msg} {ttl : UInt32} {c : Client} {question : Question}
  {transport : Bytes}

theorem request_isEdns0 (c : Client) (options : DNSQueryOptions)
    (h : (isEdns0 message).isSome = true) :
    (isEdns0 (c.request message options)).isSome = true := by
  rw [isEdns0_isSome_iff] at h ⊢
  unfold request
  dsimp only
  generalize (if options.clientSubnet.isValid = true then options.clientSubnet
    else c.clientSubnet) = clientSubnet
  split
  · grind [setClientSubnet, setClientSubnetInPlace, countP_modify, RR.isOpt_assign]
  · exact h

theorem restrictEDNS_flags {requestOpt responseOpt : RR}
    (requested : isEdns0 message = some requestOpt) (hasOpt : isEdns0 response = some responseOpt) :
    (restrictEDNS message response).flags =
      some (if version requestOpt.ttl < version responseOpt.ttl then onlyDo responseOpt.ttl
        else responseOpt.ttl) := by
  rw [restrictEDNS, hasOpt, requested]
  dsimp only
  split
  · rw [flags, isEdns0_last, reverse_append, reverse_singleton, singleton_append,
      find?_cons_of_pos (setEdns0_isOpt _ _), map_some, setEdns0_ttl]
  · rw [flags, hasOpt]
    rfl

variable {options : DNSQueryOptions}

/-- The flags in the message that is returned are those of the response when the TTL spells them. -/
theorem delivered_flags_iff {sent : Msg} {sentOpt opt : RR} (question : Question)
    (requested : isEdns0 sent = some sentOpt) (hasOpt : isEdns0 response = some opt)
    (lives : Lives response options.rewriteTTL ttl) :
    (delivered sent question options response).flags = some opt.ttl ↔
      version ttl ≤ version sentOpt.ttl ∧ opt.ttl = ttl ∨
        version sentOpt.ttl < version ttl ∧ opt.ttl = onlyDo ttl := by
  have same := lives.unique (timeToLive_lives response options.rewriteTTL)
  have extra : (filterHints question options.strategy response).flags = some opt.ttl := by
    have same : (filterHints question options.strategy response).flags = response.flags := by
      unfold filterHints
      split <;> exact flags_congr rfl
    rw [same, flags, hasOpt]
    rfl
  have rewritten : ({ (filterHints question options.strategy response).mapTTL (fun _ => ttl) with
      id := sent.id } : Msg).flags = some ttl := by
    have mapped := flags_mapTTL (fun _ => ttl) (filterHints question options.strategy response)
    rw [extra] at mapped
    exact (flags_congr (by rfl)).trans mapped
  obtain ⟨responseOpt, there, word⟩ := map_eq_some_iff.mp rewritten
  rw [delivered, ← same, restrictEDNS_flags requested there, word, Option.some.injEq, eq_comm]
  split
  · grind
  · grind

theorem age_flags (message : Msg) (nowTTL : Nat) :
    (age message nowTTL).flags = message.flags.map fun flags =>
    if 0 < leastTTL message.ttls then flags - (leastTTL message.ttls - UInt32.ofNat nowTTL)
    else UInt32.ofNat nowTTL := by
  unfold age
  dsimp only
  split <;> rw [flags_mapTTL]

/-- Over its whole life an entry gives every word up to its TTL, so no one of them is kept. -/
theorem age_flags_varies {flags : UInt32} (whole : (age message ttl.toNat).flags = some flags)
    (atEnd : (age message 0).flags = some flags) : ttl = 0 := by
  rw [age_flags] at whole atEnd
  obtain ⟨word, there, first⟩ := map_eq_some_iff.mp whole
  rw [there, map_some, Option.some.injEq] at atEnd
  have same : UInt32.ofNat ttl.toNat = ttl := UInt32.ofNat_toNat
  rw [same] at first
  split at first
  · grind
  · rename_i none
    rw [if_neg none] at atEnd
    rw [← first] at atEnd
    exact atEnd.symm

omit [OptLib] in
theorem loadResponse_live {later expireAt : Nat} {entry : Entry}
    (there : c.cache.get (c.cacheKey question transport) = some entry)
    (expires : c.disableExpire = false)
    (expiry : entry.expireAt = some expireAt) (live : later ≤ expireAt) :
    (c.loadResponse later question transport).2 =
      some (age entry.message ((expireAt - later) / 1000), (expireAt - later) / 1000) := by
  unfold loadResponse
  dsimp only
  rw [there]
  dsimp only
  rw [expires, if_neg Bool.false_ne_true, expiry]
  dsimp only
  rw [if_neg (Nat.not_lt.mpr live)]

omit [OptLib] in
theorem loadResponse_kept {later : Nat} {entry : Entry}
    (there : c.cache.get (c.cacheKey question transport) = some entry)
    (keeps : c.disableExpire = true) :
    (c.loadResponse later question transport).2 = some (entry.message, 0) := by
  unfold loadResponse
  dsimp only
  rw [there]
  dsimp only
  rw [keeps, if_pos rfl]

/-- An entry that expires and has the same flags in all its copies lives for zero seconds: the
copies at the beginning and at the end of its life differ. -/
theorem ttl_zero_of_copies {now : Nat} {flags : UInt32}
    (there : c.cache.get (c.cacheKey question transport) =
      some ⟨message, some (now + 1000 * ttl.toNat)⟩)
    (expires : c.disableExpire = false)
    (copies : ∀ later, now ≤ later → ∀ copy nowTTL,
      (c.loadResponse later question transport).2 = some (copy, nowTTL) →
      copy.flags = some flags) : ttl = 0 := by
  have first := copies now .refl _ _ (loadResponse_live there expires rfl (Nat.le_add_right _ _))
  have last := copies (now + 1000 * ttl.toNat) (Nat.le_add_right _ _) _ _
    (loadResponse_live there expires rfl .refl)
  rw [Nat.add_sub_cancel_left, Nat.mul_div_cancel_left _ (by decide)] at first
  rw [Nat.sub_self] at last
  exact age_flags_varies first last

section
variable (parseAddr : Bytes → Addr) (c : Client) (now : Nat) (transport : Bytes)
  (contextTransport : Option Bytes) (message : Msg) (options : DNSQueryOptions)
  (responseChecker : Option Checker) (question : Question)
  (upstream : Msg → Except TransportError Msg) (response : Msg) (opt : RR) (ttl : UInt32)

/-- **Flags of the OPT record.** For a request and a response with OPT records the flags come
through exactly when the response is rejected, or the TTL it lives for happens to spell them (all of
them, or the DO bit alone where the version it spells is above that of the request) and it is not
stored with an expiry. -/
theorem exchange_edns_iff
    (asks : c.Asks now transport contextTransport message options responseChecker question)
    (requested : (isEdns0 message).isSome = true)
    (answered : upstream (c.request message options) = .ok response)
    (hasOpt : isEdns0 response = some opt) (lives : Lives response options.rewriteTTL ttl) :
    FlagsKept c (c.exchange parseAddr now transport contextTransport message options
      responseChecker upstream).1 question transport now opt.ttl
      (c.exchange parseAddr now transport contextTransport message options
        responseChecker upstream).2 ↔
    Rejected parseAddr responseChecker response ∨
      ((∃ sentOpt, isEdns0 (c.request message options) = some sentOpt ∧
        (version ttl ≤ version sentOpt.ttl ∧ opt.ttl = ttl ∨
          version sentOpt.ttl < version ttl ∧ opt.ttl = onlyDo ttl)) ∧
      (¬ Storable c message options response ∨ ttl = 0 ∨ c.disableExpire = true)) := by
  by_cases rejected : Rejected parseAddr responseChecker response
  · obtain ⟨returned, nothing⟩ := exchange_rejected asks answered rejected
    refine ⟨fun _ => .inl rejected, fun _ => ⟨⟨response, ?_, ?_⟩, ?_, ?_⟩⟩
    · rw [returned]
      rfl
    · rw [flags, hasOpt]
      rfl
    · exact fun entry new => absurd new (nothing entry)
    · exact fun entry new => absurd new (nothing entry)
  rw [or_iff_right rejected]
  obtain ⟨sentOpt, sent⟩ := isSome_iff_exists.mp (request_isEdns0 c options requested)
  obtain ⟨returned, stored⟩ := exchange_outcome asks answered rejected lives
  rw [sent]
  simp only [Option.some.injEq, exists_eq_left']
  rw [← delivered_flags_iff question sent hasOpt lives]
  have config : ∃ cache rdrc,
      (c.exchange parseAddr now transport contextTransport message options
        responseChecker upstream).1 =
        { c with cache := cache, rdrc := rdrc } := exchange_config asks answered
  generalize (c.exchange parseAddr now transport contextTransport message options
    responseChecker upstream).1 = after at stored config
  have key : after.cacheKey question transport = c.cacheKey question transport := by
    obtain ⟨_, _, rfl⟩ := config
    rfl
  have expire : after.disableExpire = c.disableExpire := by
    obtain ⟨_, _, rfl⟩ := config
    rfl
  rw [returned]
  constructor
  · rintro ⟨⟨m, same, flags⟩, copies, _⟩
    cases same
    refine ⟨flags, ?_⟩
    by_cases storable : Storable c message options response
    · by_cases zero : ttl = 0
      · exact .inr (.inl zero)
      · right
        right
        cases expires : c.disableExpire with
        | true => rfl
        | false =>
          have new := (stored _).mpr ⟨storable, zero, rfl⟩
          have there := new.1
          rw [← key] at there
          rw [expires] at expire new there
          exact absurd (ttl_zero_of_copies there expire (copies _ new)) zero
    · exact .inl storable
  · rintro ⟨flags, unaged⟩
    have forever : ∀ entry, NewEntry c after (c.cacheKey question transport) entry →
        c.disableExpire = true ∧ entry =
          ⟨delivered (c.request message options) question options response, none⟩ := by
      grind
    refine ⟨⟨_, rfl, flags⟩, fun entry new later _ copy nowTTL load => ?_,
      fun entry new later _ expireAt expiry => ?_⟩
    · obtain ⟨keeps, rfl⟩ := forever entry new
      have there := new.1
      rw [← key] at there
      rw [loadResponse_kept there (expire.trans keeps)] at load
      cases load
      exact flags
    · obtain ⟨_, rfl⟩ := forever entry new
      cases expiry

end

end

/-- An OPT record with these flags. -/
def optRecord (flags : UInt32) : RR :=
  { name := utf8 ".", rrclass := 1232, ttl := flags, data := .opt [] }

def optRequest : Msg := { question := [addressQuestion], extra := [optRecord 0] }

/-- A response with an answer and an OPT record. -/
def optResponse (ttl flags : UInt32) : Msg :=
  { addressResponse [ttl] with extra := [optRecord flags] }

/-- Without expiry: the TTL 32768 spells the DO bit. -/
theorem exchange_edns_kept :
    FlagsKept { disableExpire := true }
      (exchange (fun _ => .zero) { disableExpire := true } 0 [] none optRequest {} none
        fun _ => .ok (optResponse doBit doBit)).1 addressQuestion [] 0 doBit
      (exchange (fun _ => .zero) { disableExpire := true } 0 [] none optRequest {} none
        fun _ => .ok (optResponse doBit doBit)).2 :=
  (exchange_edns_iff (fun _ => .zero) { disableExpire := true } 0 [] none optRequest {} none
    addressQuestion (fun _ => .ok (optResponse doBit doBit)) (optResponse doBit doBit)
    (optRecord doBit) doBit (asks_of_empty rfl rfl rfl (by decide) (by decide)) (by decide) rfl rfl
    (timeToLive_lives (optResponse doBit doBit) none)).mpr
    (.inr ⟨⟨optRecord 0, rfl, .inl ⟨by decide, rfl⟩⟩, .inr (.inr rfl)⟩)

/-- An answer for five minutes takes the DO bit from the response; one for a day spells version 1,
so the OPT record is written anew, and one second later the copy from the cache has a TTL below
zero. -/
theorem exchange_edns_lost :
    (exchange (fun _ => .zero) {} 0 [] none optRequest {} none fun _ =>
      .ok (optResponse 300 doBit)).2 = .response (optResponse 300 300) ∧
    (let exchanged := exchange (fun _ => .zero) {} 0 [] none optRequest {} none
        (fun _ => .ok (optResponse 86400 0));
      exchanged.2 = .response (optResponse 86400 0) ∧
      (exchanged.1.loadResponse 1000 addressQuestion []).2 =
        some (optResponse 86399 0xFFFFFFFF, 86399) ∧
      ¬ FlagsKept {} exchanged.1 addressQuestion [] 0 0 exchanged.2) := by
  refine ⟨by decide, by decide, by decide, fun kept => ?_⟩
  have stored : NewEntry {} (exchange (fun _ => .zero) {} 0 [] none optRequest {} none
      fun _ => .ok (optResponse 86400 0)).1 (addressQuestion, none) ⟨optResponse 86400 0,
        some 86400000⟩ := by
    exact ⟨by decide, by decide⟩
  have copy :=
    kept.copies _ stored 1000 (by decide) (optResponse 86399 0xFFFFFFFF) 86399 (by decide)
  exact absurd copy (by decide)

end AiboosterEngine.Dns
