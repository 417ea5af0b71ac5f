import AiboosterEngine.FakeIp.Store

/-!
# Fake addresses in memory

When a new pair keeps the two maps inverse.
-/

namespace AiboosterEngine.FakeIp
open GoSem Store

namespace MemoryStorage

variable (m : MemoryStorage)

theorem addressCache_store (address : Addr) (domain : Bytes) :
    (m.fakeIPStore address domain).addressCache = m.addressCache.set address domain := by
  unfold fakeIPStore
  cases m.addressCache.get address <;> cases address.is4 <;> rfl

/-- The domains after an address has been stored: the new one has it, and the one that had it has
none. -/
theorem loadDomain_store (address : Addr) (domain domain' : Bytes) (isIPv6 : Bool) :
    (m.fakeIPStore address domain).fakeIPLoadDomain domain' isIPv6 =
      if isIPv6 = !address.is4 then
        if domain' = domain then some address
        else if m.addressCache.get address = some domain' then none
        else m.fakeIPLoadDomain domain' isIPv6
      else m.fakeIPLoadDomain domain' isIPv6 := by
  unfold fakeIPStore fakeIPLoadDomain
  cases m.addressCache.get address with
  | none => cases address.is4 <;> cases isIPv6 <;> simp
  | some oldDomain =>
    have turn : (some oldDomain = some domain') = (domain' = oldDomain) := by grind
    cases address.is4 <;> cases isIPv6 <;> simp [turn]

/-- The domains of a family and its addresses. -/
def Inverse : Prop :=
  ∀ domain isIPv6 address, m.fakeIPLoadDomain domain isIPv6 = some address ↔
    m.addressCache.get address = some domain ∧ address.is4 = !isIPv6

theorem inverse_empty : Inverse {} := by
  intro domain isIPv6 address
  cases isIPv6 <;> simp [fakeIPLoadDomain]

theorem inverse_store {m : MemoryStorage} (h : Inverse m) {address : Addr} {domain : Bytes}
    (missing : m.fakeIPLoadDomain domain (!address.is4) = none) :
      Inverse (m.fakeIPStore address domain) := by
  intro domain' isIPv6 address'
  rw [loadDomain_store, addressCache_store, Map.get_set]
  by_cases family : isIPv6 = !address.is4
  · subst family
    rw [if_pos rfl]
    by_cases same : domain' = domain
    · -- the new domain: it had no address before
      subst same
      rw [if_pos rfl]
      by_cases here : address' = address
      · subst here
        simp
      · rw [if_neg here, ← h, missing]
        simp [Ne.symm here]
    · rw [if_neg same]
      by_cases old : m.addressCache.get address = some domain'
      · -- the domain that loses the address: it had no other
        rw [if_pos old]
        have had := (h domain' (!address.is4) address).mpr ⟨old, by simp⟩
        by_cases here : address' = address
        · rw [if_pos here]
          simp [Ne.symm same]
        · rw [if_neg here, ← h, had]
          simp [Ne.symm here]
      · rw [if_neg old, h]
        by_cases here : address' = address
        · subst here
          simp [old, Ne.symm same]
        · rw [if_neg here]
  · -- an address of the other family is not the one stored
    rw [if_neg family, h]
    by_cases here : address' = address
    · grind
    · rw [if_neg here]

end MemoryStorage

open MemoryStorage

/-- What holds of the store in every run. -/
structure Live (s : Store MemoryStorage) : Prop where
  counts : ∀ isIPv6, s.Counts isIPv6
  inverse : Inverse s.storage

theorem live_create {s : Store MemoryStorage} (h : Live s) (domain : Bytes) (isIPv6 : Bool) :
    Live (s.create api domain isIPv6).2 ∧ ∀ address, (s.create api domain isIPv6).1 = .ok address →
      (s.create api domain isIPv6).2.storage.fakeIPLoadDomain domain isIPv6 = some address := by
  have counts := fun isIPv6' => counts_create api h.counts domain isIPv6' isIPv6
  rcases create_cases api s domain isIPv6
    with ⟨old, there, same⟩ | ⟨_, same⟩ | ⟨missing, valid, same⟩
  · rw [same]
    refine ⟨h, fun address handed => ?_⟩
    cases handed
    exact there
  · rw [same]
    exact ⟨h, nofun⟩
  · have walk := onWalk_advance ((h.counts isIPv6).current valid)
    have is4 : (advance (s.range isIPv6) (s.current isIPv6)).is4 = !isIPv6 :=
      walk.is4.trans ((h.counts isIPv6).family valid)
    have inverse : Inverse (s.create api domain isIPv6).2.storage := by
      rw [same]
      refine inverse_store h.inverse ?_
      rw [is4, Bool.not_not]
      exact missing
    refine ⟨⟨counts, inverse⟩, fun address handed => ?_⟩
    rw [same] at handed ⊢
    cases handed
    refine (loadDomain_store _ _ _ _ _).trans ?_
    rw [is4, Bool.not_not, if_pos rfl, if_pos rfl]

theorem live_of_reachable {inet4Range inet6Range : Prefix}
    (is4 : inet4Range.isValid = true → inet4Range.addr.is4 = true)
    (is6 : inet6Range.isValid = true → inet6Range.addr.is4 = false) {s : Store MemoryStorage}
    (h : Reachable (step api) (start api { inet4Range, inet6Range, storage := {} }) s) :
      Live s := by
  apply h.invariant
  · exact ⟨counts_start rfl is4 is6, inverse_empty⟩
  · intro s call s' live _ taken
    cases call with
    | create domain isIPv6 =>
      cases taken
      exact (live_create live domain isIPv6).1
    | lookup address =>
      cases taken
      exact live

/-- **Fake addresses are a bijection.** In every run of a store in memory: an address just handed
out is looked up to its domain and handed out for it again; no two domains have one address; and the
maps are inverse to each other. -/
theorem fakeIP_bijection {inet4Range inet6Range : Prefix}
    (is4 : inet4Range.isValid = true → inet4Range.addr.is4 = true)
    (is6 : inet6Range.isValid = true → inet6Range.addr.is4 = false) {s : Store MemoryStorage}
    (h : Reachable (step api) (start api { inet4Range, inet6Range, storage := {} }) s) :
    (∀ domain isIPv6 address s', s.create api domain isIPv6 = (.ok address, s') →
      s'.lookup api address = some domain ∧ (s'.create api domain isIPv6).1 = .ok address) ∧
    (∀ domain domain' isIPv6 address, s.storage.fakeIPLoadDomain domain isIPv6 = some address →
      s.storage.fakeIPLoadDomain domain' isIPv6 = some address → domain = domain') ∧
    ∀ domain isIPv6 address, s.storage.fakeIPLoadDomain domain isIPv6 = some address ↔
      s.storage.addressCache.get address = some domain ∧ address.is4 = !isIPv6 := by
  have live := live_of_reachable is4 is6 h
  refine ⟨?_, ?_, live.inverse⟩
  · intro domain isIPv6 address s' created
    obtain ⟨live', handed⟩ := live_create live domain isIPv6
    rw [created] at live' handed
    have there := handed address rfl
    refine ⟨((live'.inverse domain isIPv6 address).mp there).1, ?_⟩
    unfold create
    rw [show api.loadDomain s'.storage domain isIPv6 = some address from there]
  · intro domain domain' isIPv6 address one other
    have first := ((live.inverse domain isIPv6 address).mp one).1
    have second := ((live.inverse domain' isIPv6 address).mp other).1
    exact Option.some.inj (first.symm.trans second)

def benchmarkAddr (last : UInt8) : Addr := .v4 ⟨[198, 18, 0, last], rfl⟩

def smallStore : Store MemoryStorage :=
  start api { inet4Range := .prefixFrom (benchmarkAddr 0) 30, inet6Range := .zero, storage := {} }

def smallCalls : List Call :=
  [.create (utf8 "a.test") false, .create (utf8 "b.test") false, .create (utf8 "c.test") false]

/-- The third call comes round to the address of the first, whose domain loses it. -/
theorem smallStore_recycles : ∃ s, Reachable (step api) smallStore s ∧
    s.storage.fakeIPLoadDomain (utf8 "a.test") false = none ∧
    s.storage.fakeIPLoadDomain (utf8 "b.test") false = some (benchmarkAddr 2) ∧
    s.storage.fakeIPLoadDomain (utf8 "c.test") false = some (benchmarkAddr 3) ∧
    s.storage.addressCache.get (benchmarkAddr 3) = some (utf8 "c.test") := by
  obtain ⟨s, ran⟩ : ∃ s, exec (step api) smallStore smallCalls = some s := ⟨_, rfl⟩
  have reached : Reachable (step api) smallStore s := exec_reachable ran
  obtain ⟨_, _, inverse⟩ :=
    @fakeIP_bijection (.prefixFrom (benchmarkAddr 0) 30) .zero (fun _ => rfl) nofun s reached
  have loads : ((exec (step api) smallStore smallCalls).map fun s =>
      (s.storage.fakeIPLoadDomain (utf8 "a.test") false,
        s.storage.fakeIPLoadDomain (utf8 "b.test") false,
        s.storage.fakeIPLoadDomain (utf8 "c.test") false)) =
      some (none, some (benchmarkAddr 2), some (benchmarkAddr 3)) := by
    decide +kernel
  rw [ran, Option.map_some, Option.some.injEq, Prod.mk.injEq, Prod.mk.injEq] at loads
  obtain ⟨lost, second, third⟩ := loads
  exact ⟨s, reached, lost, second, third, ((inverse _ _ _).mp third).1⟩

end AiboosterEngine.FakeIp
