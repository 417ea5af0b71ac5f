import AiboosterEngine.Dns.Lifetime

/-!
# Answers from the cache

Calls of `Exchange` that run at a time use the client in two places: they load from the
cache, and they go on with the response of the transport. A run is any sequence of these, with
entries dropped for room or by `ClearCache` in between. What is done to the message after it has
been stored, its id and its OPT record, counts as done with the store.
-/

namespace AiboosterEngine.Dns
open GoSem

/-- What `Exchange` goes on with when the transport has answered. -/
structure Responded where
  now : Nat
  transport : Bytes
  question : Question
  message : Msg
  disableCache : Bool
  options : DNSQueryOptions
  responseChecker : Option Checker
  response : Msg

inductive Access where
  | load (now : Nat) (question : Question) (transport : Bytes)
  | respond (a : Responded)
  | evict (key : CacheKey)

namespace Client

section
variable [OptLib] (parseAddr : Bytes → Addr)

def responded (c : Client) (a : Responded) : Client × Exchanged :=
  c.respond parseAddr a.now a.transport a.question a.message a.disableCache a.options
    a.responseChecker a.response

def access (c : Client) : Access → Client
  | .load now question transport => (c.loadResponse now question transport).1
  | .respond a => (c.responded parseAddr a).1
  | .evict key => { c with cache := c.cache.delete key }

def accesses (c : Client) (as : List Access) : Client := as.foldl (access parseAddr) c

/-- The entry holds what the call returned. -/
structure Stored (c : Client) (a : Responded) (key : CacheKey) (entry : Entry)
    (ttl : UInt32) : Prop where
  cached : a.disableCache = false
  key : key = c.cacheKey a.question a.transport
  returned : (c.responded parseAddr a).2 = .response entry.message
  ttls : ∀ record ∈ entry.message.answer, record.ttl = ttl
  expireAt : entry.expireAt = if c.disableExpire then none else some (a.now + 1000 * ttl.toNat)

variable {parseAddr} {c : Client} {key : CacheKey} {entry : Entry}

theorem responded_entry {a : Responded}
    (h : (c.responded parseAddr a).1.cache.get key = some entry) :
    c.cache.get key = some entry ∨ ∃ ttl, c.Stored parseAddr a key entry ttl := by
  by_cases old : c.cache.get key = some entry
  · exact .inl old
  right
  simp only [responded, respond] at h
  split at h
  · simp only [saveRDRC] at h
    split at h <;> exact absurd h old
  · split at h
    · exact absurd h old
    · simp only [storeCache] at h
      split at h
      · exact absurd h old
      · rw [Map.get_set] at h
        split at h
        · next accepted cached _ here =>
          cases h
          simp only [Bool.not_eq_true, Bool.or_eq_false_iff] at cached
          refine ⟨_, cached.1, here, by simp [responded, respond, accepted],
            fun record mem => ?_, rfl⟩
          rw [restrictEDNS_answer] at mem
          obtain ⟨_, _, rfl⟩ := List.mem_map.mp mem
          rfl
        · exact absurd h old

omit [OptLib] in
theorem delete_entry {key' : CacheKey} (h : (c.cache.delete key').get key = some entry) :
    c.cache.get key = some entry := by
  grind [Map.get_delete]

omit [OptLib] in
theorem load_entry {now : Nat} {question : Question} {transport : Bytes}
    (h : (c.loadResponse now question transport).1.cache.get key = some entry) :
      c.cache.get key = some entry := by
  unfold loadResponse at h
  grind [delete_entry]

theorem access_settings (c : Client) (x : Access) :
    (c.access parseAddr x).disableExpire = c.disableExpire ∧
    (c.access parseAddr x).independentCache = c.independentCache := by
  cases x <;> grind [access, responded, respond, loadResponse, storeCache, saveRDRC]

theorem accesses_settings (c : Client) (as : List Access) :
    (c.accesses parseAddr as).disableExpire = c.disableExpire ∧
    (c.accesses parseAddr as).independentCache = c.independentCache := by
  induction as generalizing c with
  | nil => exact ⟨rfl, rfl⟩
  | cons x as ih =>
    obtain ⟨expire, independent⟩ := ih (c.access parseAddr x)
    have first := @access_settings _ parseAddr c x
    exact ⟨expire.trans first.1, independent.trans first.2⟩

theorem accesses_entry {as : List Access}
    (h : (c.accesses parseAddr as).cache.get key = some entry) :
    c.cache.get key = some entry ∨ ∃ before a after ttl, as = before ++ .respond a :: after ∧
      (c.accesses parseAddr before).Stored parseAddr a key entry ttl := by
  induction as generalizing c with
  | nil => exact .inl h
  | cons x as ih =>
    rcases ih h with there | ⟨before, a, after, ttl, rfl, stored⟩
    · cases x with
      | load => exact .inl (load_entry there)
      | evict => exact .inl (delete_entry there)
      | respond a =>
        rcases responded_entry there with old | ⟨ttl, stored⟩
        · exact .inl old
        · exact .inr ⟨[], a, as, ttl, rfl, stored⟩
    · exact .inr ⟨x :: before, a, after, ttl, rfl, stored⟩

/-- An earlier call returned the message, with one TTL for all answers, to the same question and,
where the caches are independent, from the same transport. It has been aged if it expires, and is no
older than its TTL. -/
def FromEarlier (parseAddr : Bytes → Addr) (c : Client) (as : List Access) (now : Nat)
    (question : Question) (transport : Bytes) (m : Msg) (nowTTL : Nat) : Prop :=
  ∃ before a after m₀ ttl, as = before ++ .respond a :: after ∧
    ((c.accesses parseAddr before).responded parseAddr a).2 = .response m₀ ∧
    (∀ record ∈ m₀.answer, record.ttl = ttl) ∧
    a.disableCache = false ∧ a.question = question ∧
      (c.independentCache = true → a.transport = transport) ∧
    (c.disableExpire = true ∧ m = m₀ ∨
      now ≤ a.now + 1000 * ttl.toNat ∧ nowTTL = (a.now + 1000 * ttl.toNat - now) / 1000 ∧
        m = age m₀ nowTTL)

/-- Whatever calls run at a time, what a load finds was returned by one of them. -/
theorem loaded_from_earlier {as : List Access} {now nowTTL : Nat} {question : Question}
    {transport : Bytes} {m : Msg} (empty : c.cache = .empty)
    (loaded : ((c.accesses parseAddr as).loadResponse now question transport).2 =
      some (m, nowTTL)) :
    FromEarlier parseAddr c as now question transport m nowTTL := by
  have settings := @accesses_settings _ parseAddr c
  simp only [loadResponse] at loaded
  split at loaded
  · cases loaded
  · rename_i entry there
    rcases accesses_entry there with old | ⟨before, a, after, ttl, split, stored⟩
    · rw [empty] at old
      cases old
    · have key := stored.key
      have expireAt := stored.expireAt
      simp only [cacheKey, (settings _).2, Prod.mk.injEq] at key
      rw [(settings before).1] at expireAt
      rw [(settings as).1] at loaded
      refine ⟨before, a, after, entry.message, ttl, split, stored.returned, stored.ttls,
        stored.cached, key.1.symm, ?_, ?_⟩
      · grind
      · grind

end

/-- An answer for a minute, loaded ten seconds later. -/
theorem loaded_again : ∃ m,
    (accesses (fun _ => .zero) {}
      [.respond ⟨0, [], addressQuestion, { question := [addressQuestion] }, false, {},
      none, addressResponse [60]⟩] |>.loadResponse 10000 addressQuestion []).2 = some (m, 50) ∧
    FromEarlier (fun _ => .zero) {}
      [.respond ⟨0, [], addressQuestion, { question := [addressQuestion] }, false, {},
      none, addressResponse [60]⟩] 10000 addressQuestion [] m 50 :=
  ⟨addressResponse [50], by decide, loaded_from_earlier rfl (by decide)⟩

end Client
end AiboosterEngine.Dns
