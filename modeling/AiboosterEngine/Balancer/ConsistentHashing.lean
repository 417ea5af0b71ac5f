import AiboosterEngine.Balancer.Common

/-!
# Consistent hashing

`protocol/group/balancer/consistent_hashing.go`. The tables of delays and
thresholds are the same here and in the sticky sessions: the delay of an
outbound is the one that was measured, not the one that is compared.
-/

namespace AiboosterEngine.Balancer

open GoSem

/-- The fields `delays` and `maxAcceptableDelay`, both nil before the first update. -/
structure Delays where
  delays : Map String UInt16 := Map.empty
  maxAcceptableDelay : Net → UInt16 := fun _ => 0

namespace Delays

/-- `UpdateOutboundsInfo`. -/
def update (outbounds : Net → List Outbound) (ratio : ℚ) (history : History) : Delays where
  delays := getDelayMap history
  maxAcceptableDelay net := toUint16 (maxAcceptable ((getMinDelay outbounds history).2 net) ratio)

def alive (d : Delays) (proxy : Outbound) (net : Net) : Bool :=
  match d.delays.get proxy.tag with
  | some delay => delay ≤ d.maxAcceptableDelay net
  | none => false

end Delays

structure ConsistentHashing where
  outbounds : Net → List Outbound
  table : Delays := {}
  maxRetry : Int
  delayAcceptableRatio : ℚ

def newConsistentHashing (outbounds : List Outbound) (maxRetry : Int) (ratio : ℚ) :
    ConsistentHashing where
  outbounds := convertOutbounds outbounds
  maxRetry := maxRetry
  delayAcceptableRatio := ratio

namespace ConsistentHashing

def updateOutboundsInfo (s : ConsistentHashing) (history : History) : ConsistentHashing :=
  { s with table := Delays.update s.outbounds s.delayAcceptableRatio history }

def alive (s : ConsistentHashing) (proxy : Outbound) (net : Net) : Bool := s.table.alive proxy net

section
variable (scaling : Scaling)

/-- The attempts of `Select`: the first alive outbound, or the key after the last one. -/
def attempts (g : ConsistentHashing) (net : Net) : (left : Nat) → (key : UInt64) →
    Outcome Unit (Outbound ⊕ UInt64)
  | 0, key => .ok (.inr key)
  | left + 1, key => do
    let proxy ← indexAt (g.outbounds net) (jumpHash scaling key (buckets (g.outbounds net)))
    if g.alive proxy net then return .inl proxy else attempts g net left (key + 1)

/-- `Select` behind the attempts. -/
def traverse (g : ConsistentHashing) (net : Net) (key : UInt64) : Outcome Unit Outbound :=
  match (g.outbounds net).find? fun proxy => g.alive proxy net with
  | some proxy => .ok proxy
  | none => indexAt (g.outbounds net) (jumpHash scaling key (buckets (g.outbounds net)))

def selectOn (g : ConsistentHashing) (key : UInt64) (net : Net) : Outcome Unit Outbound := do
  match ← attempts scaling g net g.maxRetry.toNat key with
  | .inl proxy => return proxy
  | .inr key => traverse scaling g net key

def select (names : Names) (hash : String → UInt64) (g : ConsistentHashing)
    (metadata : InboundContext) (net : String) : Outcome Unit Outbound :=
  selectOn scaling g (hash (getKey names metadata)) (Net.ofName net)

variable {g : ConsistentHashing} {net : Net}

section
variable (nonempty : g.outbounds net ≠ [])
include nonempty

theorem index_returns (key : UInt64) :
    ∃ proxy ∈ g.outbounds net,
      indexAt (g.outbounds net) (jumpHash scaling key (buckets (g.outbounds net))) = .ok proxy := by
  have below := jumpHash_inside scaling key nonempty
  exact ⟨_, List.getElem_mem below, indexAt_ok.mpr (List.getElem?_eq_getElem below)⟩

theorem attempts_cases (left : Nat) (key : UInt64) :
    (∃ proxy ∈ g.outbounds net, g.alive proxy net = true ∧
      attempts scaling g net left key = .ok (.inl proxy)) ∨
    ∃ last, attempts scaling g net left key = .ok (.inr last) := by
  induction left generalizing key with
  | zero => exact .inr ⟨key, rfl⟩
  | succ left ih =>
    obtain ⟨proxy, member, eq⟩ := index_returns scaling nonempty key
    rw [attempts, eq, Outcome.ok_bind]
    cases alive : g.alive proxy net with
    | true => exact .inl ⟨proxy, member, alive, by simp⟩
    | false => simpa using ih (key + 1)

theorem traverse_returns (key : UInt64) :
    ∃ proxy ∈ g.outbounds net, traverse scaling g net key = .ok proxy ∧
      ((∃ out ∈ g.outbounds net, g.alive out net = true) → g.alive proxy net = true) := by
  unfold traverse
  cases found : (g.outbounds net).find? fun proxy => g.alive proxy net with
  | some proxy =>
    have alive : g.alive proxy net = true := by simpa using List.find?_some found
    exact ⟨proxy, List.mem_of_find?_eq_some found, rfl, fun _ => alive⟩
  | none =>
    obtain ⟨proxy, member, eq⟩ := index_returns scaling nonempty key
    refine ⟨proxy, member, eq, ?_⟩
    rintro ⟨out, there, alive⟩
    exact absurd alive (List.find?_eq_none.mp found out there)

end

end

/-- The hash ends, in a bucket that stays or is the new one when one is added, and `Select` finds an
alive outbound of its network if there is any. -/
theorem consistent_hashing (key : UInt64) (n : Nat) (pos : 1 ≤ n) (outbounds : List Outbound)
    (nonempty : outbounds ≠ []) (g : ConsistentHashing)
    (made : g.outbounds = convertOutbounds outbounds)
    (names : Names) (hash : String → UInt64) (metadata : InboundContext) (name : String) :
    (Ends .exact n key 0 0 (jumpHash .exact key n) ∧ jumpHash .exact key n < n ∧
      (jumpHash .exact key (n + 1) = jumpHash .exact key n ∨ jumpHash .exact key (n + 1) = n)) ∧
    ∃ proxy ∈ convertOutbounds outbounds (Net.ofName name),
      select .exact names hash g metadata name = .ok proxy ∧
      ((∃ out ∈ convertOutbounds outbounds (Net.ofName name),
        g.alive out (Net.ofName name) = true) →
        g.alive proxy (Net.ofName name) = true) := by
  refine ⟨⟨jumpHash_ends key n, jumpHash_lt .exact key pos, ?_⟩, ?_⟩
  · exact (jumpHash_ends key n).succ (jumpHash_ends key (n + 1))
  · have some : g.outbounds (Net.ofName name) ≠ [] := by
      rw [made]
      exact filterOutbounds_ne_nil nonempty _
    rw [← made, select, selectOn]
    obtain ⟨proxy, member, alive, eq⟩ | ⟨last, eq⟩ :=
      attempts_cases .exact some g.maxRetry.toNat (hash (getKey names metadata))
    · rw [eq]
      exact ⟨proxy, member, rfl, fun _ => alive⟩
    · rw [eq]
      exact traverse_returns .exact some last

def byDomain : Names := ⟨fun _ => true, fun _ => false, some, fun _ => ""⟩

def twoOutbounds : List Outbound := [⟨"a", ["tcp"]⟩, ⟨"b", ["tcp"]⟩]

/-- `a` has failed its test, `b` has not. -/
def oneTested : ConsistentHashing :=
  (newConsistentHashing twoOutbounds 1 2).updateOutboundsInfo
    ((Map.empty.set "a" (some ⟨65535, false⟩)).set "b" (some ⟨100, false⟩))

/-- The key of the domain is in the bucket of `a`, and would be in a third one if there were one. -/
theorem consistent_hashing_two :
    jumpHash .exact 9 2 = 0 ∧
    (Ends .exact 2 9 0 0 (jumpHash .exact 9 2) ∧ jumpHash .exact 9 2 < 2 ∧
      (jumpHash .exact 9 3 = jumpHash .exact 9 2 ∨ jumpHash .exact 9 3 = 2)) ∧
    oneTested.alive ⟨"a", ["tcp"]⟩ .tcp = false ∧
    ∃ proxy ∈ convertOutbounds twoOutbounds .tcp,
      select .exact byDomain (fun key => .ofNat key.length) oneTested
        ⟨.zero, "a.example", .zero, "", []⟩ "tcp" = .ok proxy ∧
          oneTested.alive proxy .tcp = true := by
  have alive : oneTested.alive ⟨"b", ["tcp"]⟩ .tcp = true := by decide +kernel
  obtain ⟨hashed, proxy, member, selected, live⟩ := consistent_hashing 9 2 (by decide) twoOutbounds
    (by decide) oneTested rfl byDomain (fun key => .ofNat key.length)
    ⟨.zero, "a.example", .zero, "", []⟩ "tcp"
  exact ⟨by decide +kernel, hashed, by decide +kernel, proxy, member, selected,
    live ⟨_, by decide, alive⟩⟩

end ConsistentHashing

end AiboosterEngine.Balancer
