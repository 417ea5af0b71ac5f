import AiboosterEngine.GoSem.AddrRange
import AiboosterEngine.GoSem.Map
import AiboosterEngine.GoSem.Steps

/-!
# Fake addresses

`dns/transport/fakeip`: a store hands out addresses of two ranges for domains and
keeps them in a storage, in memory or in the cache file. An address whose turn
comes again is taken from the domain that had it.
-/

namespace AiboosterEngine.FakeIp
open GoSem

structure FakeIPMetadata where
  inet4Range : Prefix
  inet6Range : Prefix
  inet4Current : Addr
  inet6Current : Addr

/-- `adapter.FakeIPStorage`. `store` may fail: the error is logged and no more. -/
structure FakeIPStorage (σ : Type) where
  metadata : σ → Option FakeIPMetadata
  saveMetadata : σ → FakeIPMetadata → σ
  reset : σ → σ
  store : σ → Addr → Bytes → σ
  load : σ → Addr → Option Bytes
  loadDomain : σ → Bytes → Bool → Option Addr

structure Store (σ : Type) where
  inet4Range : Prefix
  inet6Range : Prefix
  storage : σ
  inet4Current : Addr := .zero
  inet6Current : Addr := .zero

namespace Store
variable {σ : Type} (api : FakeIPStorage σ)

/-- Where a walk through a range begins. -/
def first (range : Prefix) : Addr := range.addr.next.next

/-- The address after the current one, from the first again at the end of the range. -/
def advance (range : Prefix) (current : Addr) : Addr :=
  if range.contains current.next then current.next else first range

variable (s : Store σ)

def start : Store σ :=
  match api.metadata s.storage with
  | some metadata =>
    if metadata.inet4Range = s.inet4Range ∧ metadata.inet6Range = s.inet6Range then
      { s with inet4Current := metadata.inet4Current, inet6Current := metadata.inet6Current }
    else begin s
  | none => begin s
where
  begin (s : Store σ) : Store σ :=
    { s with
      inet4Current := if s.inet4Range.isValid then first s.inet4Range else s.inet4Current
      inet6Current := if s.inet6Range.isValid then first s.inet6Range else s.inet6Current
      storage := api.reset s.storage }

def contains (s : Store σ) (address : Addr) : Bool :=
  s.inet4Range.contains address || s.inet6Range.contains address

def range (isIPv6 : Bool) : Prefix := if isIPv6 then s.inet6Range else s.inet4Range

def current (isIPv6 : Bool) : Addr := if isIPv6 then s.inet6Current else s.inet4Current

def setCurrent (isIPv6 : Bool) (address : Addr) : Store σ :=
  if isIPv6 then { s with inet6Current := address } else { s with inet4Current := address }

/-- The two families are handled alike. The domain is looked up a second time under the lock; calls
do not overlap here, so that once is enough. -/
def create (domain : Bytes) (isIPv6 : Bool) : Except String Addr × Store σ :=
  match api.loadDomain s.storage domain isIPv6 with
  | some address => (.ok address, s)
  | none =>
    if !(s.current isIPv6).isValid then
      (.error (if isIPv6 then "missing IPv6 fakeip address range"
        else "missing IPv4 fakeip address range"), s)
    else
      let address := advance (s.range isIPv6) (s.current isIPv6)
      let s := s.setCurrent isIPv6 address
      let storage := api.saveMetadata (api.store s.storage address domain)
        ⟨s.inet4Range, s.inet6Range, s.inet4Current, s.inet6Current⟩
      (.ok address, { s with storage })

/-- The metadata `Create` and `Close` save. -/
def latest : FakeIPMetadata := ⟨s.inet4Range, s.inet6Range, s.inet4Current, s.inet6Current⟩

def lookup (address : Addr) : Option Bytes := api.load s.storage address

/-- A call on the store. -/
inductive Call where
  | create (domain : Bytes) (isIPv6 : Bool)
  | lookup (address : Addr)

/-- The store after a call. -/
def step : Call → Option (Store σ)
  | .create domain isIPv6 => some (s.create api domain isIPv6).2
  | .lookup _ => some s

end Store

structure MemoryStorage where
  addressCache : Map Addr Bytes := .empty
  domainCache4 : Map Bytes Addr := .empty
  domainCache6 : Map Bytes Addr := .empty

namespace MemoryStorage

/-- The domain that had the address loses it. -/
def fakeIPStore (s : MemoryStorage) (address : Addr) (domain : Bytes) : MemoryStorage :=
  let s := match s.addressCache.get address with
    | some oldDomain =>
      if address.is4 then { s with domainCache4 := s.domainCache4.delete oldDomain }
      else { s with domainCache6 := s.domainCache6.delete oldDomain }
    | none => s
  let s := { s with addressCache := s.addressCache.set address domain }
  if address.is4 then { s with domainCache4 := s.domainCache4.set domain address }
  else { s with domainCache6 := s.domainCache6.set domain address }

def fakeIPLoadDomain (s : MemoryStorage) (domain : Bytes) (isIPv6 : Bool) : Option Addr :=
  if !isIPv6 then s.domainCache4.get domain else s.domainCache6.get domain

def api : FakeIPStorage MemoryStorage where
  metadata _ := none
  saveMetadata s _ := s
  reset _ := {}
  store := fakeIPStore
  load s address := s.addressCache.get address
  loadDomain := fakeIPLoadDomain

end MemoryStorage

namespace Store
variable {σ : Type}

/-- An address of the walk through a range: of the family of the range, at its beginning or
inside. -/
structure OnWalk (range : Prefix) (address : Addr) : Prop where
  valid : address.isValid = true
  family : address.bitLen = range.addr.bitLen
  begins : (first range).isValid = true
  place : address = first range ∨ range.contains address = true

variable {range : Prefix}

theorem first_spec (h : (first range).isValid = true) :
    (first range).bitLen = range.addr.bitLen ∧ (first range).is4 = range.addr.is4 ∧
      (first range).toNat = range.addr.toNat + 2 ∧ (first range).withoutZone = first range := by
  obtain ⟨valid, bitLen, is4, number, zone⟩ := Addr.next_spec h
  obtain ⟨_, bitLen', is4', number', zone'⟩ := Addr.next_spec valid
  exact ⟨bitLen.trans bitLen', is4.trans is4', by rw [first, number, number'],
    zone (zone' range.noZone)⟩

theorem onWalk_first (h : (first range).isValid = true) : OnWalk range (first range) :=
  ⟨h, (first_spec h).1, h, .inl rfl⟩

theorem onWalk_advance {current : Addr} (h : OnWalk range current) :
    OnWalk range (advance range current) := by
  unfold advance
  split
  · rename_i inside
    obtain ⟨valid, family⟩ := Prefix.contains_family inside
    exact ⟨valid, family, h.begins, .inr inside⟩
  · exact onWalk_first h.begins

theorem OnWalk.is4 {address : Addr} (h : OnWalk range address) : address.is4 = range.addr.is4 := by
  rw [Bool.eq_iff_iff, Addr.is4_iff_bitLen, Addr.is4_iff_bitLen, h.family]

/-- A family is not served, or its walk goes on. -/
structure Counts (s : Store σ) (isIPv6 : Bool) : Prop where
  family : (s.current isIPv6).isValid = true → (s.range isIPv6).addr.is4 = !isIPv6
  current : (s.current isIPv6).isValid = true → OnWalk (s.range isIPv6) (s.current isIPv6)

/-- A new address is the next of the walk, and the other family is left alone. -/
theorem create_cases (api : FakeIPStorage σ) (s : Store σ) (domain : Bytes) (isIPv6 : Bool) :
    (∃ address, api.loadDomain s.storage domain isIPv6 = some address ∧
      s.create api domain isIPv6 = (.ok address, s)) ∨
    (∃ text, s.create api domain isIPv6 = (.error text, s)) ∨
    (api.loadDomain s.storage domain isIPv6 = none ∧ (s.current isIPv6).isValid = true ∧
      let address := advance (s.range isIPv6) (s.current isIPv6)
      let next := s.setCurrent isIPv6 address
      let storage := api.saveMetadata (api.store s.storage address domain) next.latest
      s.create api domain isIPv6 = (.ok address, { next with storage })) := by
  unfold create
  split
  · rename_i address loaded
    exact .inl ⟨address, loaded, rfl⟩
  · rename_i missing
    split
    · exact .inr (.inl ⟨_, rfl⟩)
    · rename_i valid
      have valid : (s.current isIPv6).isValid = true := by simpa using valid
      cases isIPv6 <;> exact .inr (.inr ⟨missing, valid, rfl⟩)

theorem counts_setCurrent {s : Store σ} {isIPv6 isIPv6' : Bool} {address : Addr} {storage : σ}
    (h : s.Counts isIPv6) (family : (s.range isIPv6').addr.is4 = !isIPv6')
    (walk : OnWalk (s.range isIPv6') address) :
    Counts { s.setCurrent isIPv6' address with storage } isIPv6 := by
  cases isIPv6' <;> cases isIPv6
  case false.false | true.true => exact ⟨fun _ => family, fun _ => walk⟩
  -- the other family
  case false.true | true.false => exact ⟨h.family, h.current⟩

theorem counts_create (api : FakeIPStorage σ) {s : Store σ} (h : ∀ isIPv6, s.Counts isIPv6)
    (domain : Bytes) (isIPv6 isIPv6' : Bool) : (s.create api domain isIPv6').2.Counts isIPv6 := by
  rcases create_cases api s domain isIPv6' with ⟨_, _, same⟩ | ⟨_, same⟩ | ⟨_, valid, same⟩
  · rw [same]
    exact h isIPv6
  · rw [same]
    exact h isIPv6
  · rw [same]
    exact counts_setCurrent (h isIPv6) ((h isIPv6').family valid)
      (onWalk_advance ((h isIPv6').current valid))

theorem counts_start {api : FakeIPStorage σ} {inet4Range inet6Range : Prefix} {storage : σ}
    (unsaved : api.metadata storage = none)
    (is4 : inet4Range.isValid = true → inet4Range.addr.is4 = true)
    (is6 : inet6Range.isValid = true → inet6Range.addr.is4 = false) (isIPv6 : Bool) :
    (start api { inet4Range, inet6Range, storage }).Counts isIPv6 := by
  have begins : ∀ range : Prefix,
    (if range.isValid then first range else Addr.zero).isValid = true →
      range.isValid = true ∧ OnWalk range (if range.isValid then first range else Addr.zero) := by
    intro range valid
    split at valid
    · rename_i there
      rw [if_pos there]
      exact ⟨there, onWalk_first valid⟩
    · cases valid
  unfold start
  rw [unsaved]
  cases isIPv6 with
  | false => exact ⟨fun valid => is4 (begins inet4Range valid).1,
      fun valid => (begins inet4Range valid).2⟩
  | true => exact ⟨fun valid => is6 (begins inet6Range valid).1,
      fun valid => (begins inet6Range valid).2⟩

end Store

end AiboosterEngine.FakeIp
