import AiboosterEngine.GoSem.Map
import AiboosterEngine.GoSem.Netip
import AiboosterEngine.GoSem.Outcome
import Mathlib.Data.Rat.Floor

/-!
# Outbounds, delays and thresholds of a balancer

`protocol/group/balancer/common.go`. A map by network has the keys `tcp` and
`udp` and no others, so it is a function of `Net`. The delay ratio is an exact
rational, and the conversion of a threshold to `uint16` is modulo 2^16.
-/

namespace AiboosterEngine.Balancer

open GoSem List

inductive Net where
  | tcp | udp
  deriving DecidableEq, Repr

def Net.name : Net → String
  | tcp => "tcp"
  | udp => "udp"

/-- The network `Select` works on: every other name is taken for TCP. -/
def Net.ofName (net : String) : Net :=
  if net = Net.udp.name then .udp else .tcp

/-- What the balancer reads of an outbound: `Tag()` and `Network()`. -/
structure Outbound where
  tag : String
  network : List String
  deriving DecidableEq, Repr

/-- What the keys of a connection are made of. -/
structure InboundContext where
  source : Addr
  destinationFqdn : String
  destinationAddr : Addr
  domain : String
  destinationAddresses : List Addr

/-- The functions of other packages that the keys are made with: `M.IsDomainName`, `net.ParseIP`
with a result, `publicsuffix.EffectiveTLDPlusOne` without an error, and `netip.Addr.String`. -/
structure Names where
  isDomainName : String → Bool
  parseIP : String → Bool
  effectiveTLDPlusOne : String → Option String
  addrString : Addr → String

def addrKey (names : Names) (metadata : InboundContext) : String :=
  let destinationAddr := metadata.destinationAddresses.headD metadata.destinationAddr
  if destinationAddr = .zero then "" else names.addrString destinationAddr

def getKey (names : Names) (metadata : InboundContext) : String :=
  let metadataHost :=
    if names.isDomainName metadata.destinationFqdn then metadata.destinationFqdn
      else metadata.domain
  if metadataHost = "" then addrKey names metadata
  else if names.parseIP metadataHost then metadataHost
  else (names.effectiveTLDPlusOne metadataHost).getD (addrKey names metadata)

def getKeyWithSrcAndDst (names : Names) (metadata : InboundContext) : String :=
  names.addrString metadata.source ++ getKey names metadata

/-- `int64(float64(b+1) * (float64(int64(1)<<31) / float64(x+1)))`. The quotient is at least 1 for
the `x` that are left of a key, so the product is at least `b + 1`, however it is rounded. -/
structure Scaling where
  scale : (b x : Nat) → Nat
  grows : ∀ b x, x < 2 ^ 31 → b < scale b x

/-- The exact quotient, rounded down. -/
def Scaling.exact : Scaling where
  scale b x := (b + 1) * 2 ^ 31 / (x + 1)
  grows b x small := by
    rw [Nat.lt_iff_add_one_le, Nat.le_div_iff_mul_le (Nat.succ_pos x)]
    exact Nat.mul_le_mul_left _ small

/-- The loop of `jumpHash`: `j` grows in every pass, so `buckets` passes are enough. -/
def jumpLoop (scaling : Scaling) (buckets : Nat) :
    (passes : Nat) → (key : UInt64) → (b j : Nat) → Nat
  | 0, _, b, _ => b
  | passes + 1, key, b, j =>
    if j < buckets then
      let key := key * 2862933555777941757 + 1
      jumpLoop scaling buckets passes key j (scaling.scale j (key >>> 33).toNat)
    else b

variable (scaling : Scaling)

def jumpHash (key : UInt64) (buckets : Nat) : Nat :=
  jumpLoop scaling buckets buckets key 0 0

/-- `int32` of the length; `jumpHash` takes every negative number for no bucket. -/
def buckets (outs : List Outbound) : Nat :=
  let length := outs.length % 2 ^ 32
  if length < 2 ^ 31 then length else 0

structure URLTestHistory where
  delay : UInt16
  isFromCache : Bool
  deriving DecidableEq, Repr

/-- `map[string]*adapter.URLTestHistory`; the pointer may be nil. -/
abbrev History := Map String (Option URLTestHistory)

def timeoutDelay : UInt16 := 65535

def getModifiedDelay : Option URLTestHistory → UInt16
  | none => timeoutDelay
  | some his =>
    let delay := if his.delay = 0 then timeoutDelay else his.delay
    if his.isFromCache ∧ delay < 20000 then delay + 20000 else delay

def getTagDelay (tag : String) (history : History) : UInt16 :=
  match history.get tag with
  | some (some his) => getModifiedDelay (some his)
  | _ => timeoutDelay

def filterOutbounds (outbounds : List Outbound) (network : String) : List Outbound :=
  let res := outbounds.filter fun out => out.network.contains network
  if res.isEmpty then outbounds else res

def convertOutbounds (outbounds : List Outbound) (net : Net) : List Outbound :=
  filterOutbounds outbounds net.name

/-- `sort.SliceStable` with the delays as the order. -/
def sortOutboundsByDelay (outbounds : Net → List Outbound) (history : History) (net : Net) :
    List Outbound :=
  (outbounds net).mergeSort fun a b => getTagDelay a.tag history ≤ getTagDelay b.tag history

/-- `math.Max(100, float64(minDelay)) * delayAcceptableRatio`. -/
def maxAcceptable (minDelay : UInt16) (ratio : ℚ) : ℚ := max 100 (minDelay.toNat : ℚ) * ratio

/-- `uint16(x)`. -/
def toUint16 (x : ℚ) : UInt16 := UInt16.ofNat ⌊x⌋₊

/-- `outs[i]`. -/
def indexAt (outs : List Outbound) (i : Int) : Outcome Unit Outbound :=
  if i < 0 then .panicked
  else match outs[i.toNat]? with
    | some out => .ok out
    | none => .panicked

def maxAvailableIndex (accepts : Outbound → Bool) : (i best : Nat) → List Outbound → Nat
  | _, best, [] => best
  | i, best, out :: outs => maxAvailableIndex accepts (i + 1) (if accepts out then i else best) outs

/-- `getAcceptableIndex` for one network; `outs[0]` panics on an empty list. -/
def acceptableIndex (outs : List Outbound) (history : History) (ratio : ℚ) : Outcome Unit Nat :=
  match outs with
  | [] => .panicked
  | first :: _ =>
    let limit := toUint16 (maxAcceptable (getTagDelay first.tag history) ratio)
    .ok (maxAvailableIndex (fun out => getTagDelay out.tag history ≤ limit) 0 0 outs)

def getAcceptableIndex (sortedOutbounds : Net → List Outbound) (history : History) (ratio : ℚ) :
    Outcome Unit (Net → Int) := do
  let tcp ← acceptableIndex (sortedOutbounds .tcp) history ratio
  let udp ← acceptableIndex (sortedOutbounds .udp) history ratio
  return fun
    | .tcp => tcp
    | .udp => udp

def minDelayLoop (history : History) :
    Option Outbound → UInt16 → List Outbound → Option Outbound × UInt16
  | minOut, minDelay, [] => (minOut, minDelay)
  | minOut, minDelay, out :: outs =>
    let d := getTagDelay out.tag history
    if d ≤ minDelay then minDelayLoop history (some out) d outs
    else minDelayLoop history minOut minDelay outs

def getMinDelay (outbounds : Net → List Outbound) (history : History) :
    (Net → Option Outbound) × (Net → UInt16) :=
  (fun net => (minDelayLoop history none timeoutDelay (outbounds net)).1,
   fun net => (minDelayLoop history none timeoutDelay (outbounds net)).2)

def getDelayMap (history : History) : Map String UInt16 :=
  ⟨fun tag => (history.get tag).map fun
    | some his => his.delay
    | none => timeoutDelay⟩

theorem indexAt_ok {outs : List Outbound} {i : Nat} {out : Outbound} :
    indexAt outs i = .ok out ↔ outs[i]? = some out := by
  unfold indexAt
  rw [if_neg (by omega), Int.toNat_natCast]
  cases outs[i]? <;> simp

theorem jumpLoop_lt {buckets passes b j : Nat} (key : UInt64) (h : b < buckets) :
    jumpLoop scaling buckets passes key b j < buckets := by
  induction passes generalizing key b j with
  | zero => exact h
  | succ passes ih =>
    rw [jumpLoop]
    split
    · next below => exact ih _ below
    · exact h

theorem jumpHash_lt (key : UInt64) {buckets : Nat} (h : 0 < buckets) :
    jumpHash scaling key buckets < buckets :=
  jumpLoop_lt scaling key h

theorem jumpHash_inside (key : UInt64) {outs : List Outbound} (nonempty : outs ≠ []) :
    jumpHash scaling key (buckets outs) < outs.length := by
  have fewer : buckets outs ≤ outs.length := by grind [buckets, Nat.mod_le]
  cases none : buckets outs with
  | zero => exact List.length_pos_iff.mpr nonempty
  | succ n => exact Nat.lt_of_lt_of_le (jumpHash_lt scaling key (Nat.succ_pos n)) (none ▸ fewer)

/-- The loop comes to its end, with `r` in `b`. -/
inductive Ends (buckets : Nat) : UInt64 → Nat → Nat → Nat → Prop
  | done {key : UInt64} {b j : Nat} (out : ¬ j < buckets) : Ends buckets key b j b
  | pass {key : UInt64} {b j r : Nat} (inside : j < buckets)
      (rest : Ends buckets (key * 2862933555777941757 + 1) j
        (scaling.scale j ((key * 2862933555777941757 + 1) >>> 33).toNat) r) : Ends buckets key b j r

variable {scaling}

theorem lt_scale (scaling : Scaling) (j : Nat) (key : UInt64) :
    j < scaling.scale j (key >>> 33).toNat := by
  apply scaling.grows
  have small := key.toNat_lt
  rw [UInt64.toNat_shiftRight, Nat.shiftRight_eq_div_pow]
  exact Nat.div_lt_of_lt_mul small

theorem jumpLoop_ends {buckets passes j : Nat} (key : UInt64) (b : Nat)
    (enough : buckets ≤ passes + j) :
    Ends scaling buckets key b j (jumpLoop scaling buckets passes key b j) := by
  induction passes generalizing key b j with
  | zero => exact .done (by omega)
  | succ passes ih =>
    rw [jumpLoop]
    split
    · next inside =>
      have grown := lt_scale scaling j (key * 2862933555777941757 + 1)
      exact .pass inside (ih _ j (by omega))
    · next out => exact .done out

theorem jumpHash_ends (key : UInt64) (buckets : Nat) :
    Ends scaling buckets key 0 0 (jumpHash scaling key buckets) :=
  jumpLoop_ends key 0 .refl

/-- With one bucket more the loop ends in the same bucket or in the new one. -/
theorem Ends.succ {n b j r r' : Nat} {key : UInt64} (h : Ends scaling n key b j r)
    (h' : Ends scaling (n + 1) key b j r') : r' = r ∨ r' = n := by
  induction h generalizing r' with
  | @done key b j out =>
    cases h' with
    | done => exact .inl rfl
    | pass inside rest =>
      obtain rfl : j = n := by omega
      have grown := lt_scale scaling j (key * 2862933555777941757 + 1)
      cases rest with
      | done => exact .inr rfl
      | pass inside => omega
  | pass inside rest ih =>
    cases h' with
    | done out => omega
    | pass _ rest' => exact ih rest'

theorem filterOutbounds_ne_nil {outbounds : List Outbound} (nonempty : outbounds ≠ [])
    (network : String) : filterOutbounds outbounds network ≠ [] := by
  simp only [filterOutbounds]
  split
  · exact nonempty
  · next some => simpa using some

theorem sortOutboundsByDelay_perm (outbounds : Net → List Outbound)
    (history : History) (net : Net) :
    (sortOutboundsByDelay outbounds history net).Perm (outbounds net) :=
  mergeSort_perm _ _

theorem sortOutboundsByDelay_sorted (outbounds : Net → List Outbound)
    (history : History) (net : Net) :
    (sortOutboundsByDelay outbounds history net).Pairwise
      fun a b => getTagDelay a.tag history ≤ getTagDelay b.tag history := by
  have sorted : (sortOutboundsByDelay outbounds history net).Pairwise
      fun a b => decide (getTagDelay a.tag history ≤ getTagDelay b.tag history) = true := by
    apply pairwise_mergeSort
    · intro a b c ab bc
      simp only [decide_eq_true_eq] at ab bc ⊢
      exact UInt16.le_trans ab bc
    · intro a b
      simp only [Bool.or_eq_true, decide_eq_true_eq]
      exact UInt16.le_total _ _
  exact sorted.imp (by simp)

section
variable {accepts : Outbound → Bool} {outs : List Outbound} {i best : Nat}

theorem maxAvailableIndex_lt (h : best < i + outs.length) :
    maxAvailableIndex accepts i best outs < i + outs.length := by
  induction outs generalizing i best with
  | nil => simpa [maxAvailableIndex] using h
  | cons out outs ih => grind [maxAvailableIndex, length_cons]

theorem maxAvailableIndex_inside (nonempty : outs ≠ []) :
    maxAvailableIndex accepts 0 0 outs < outs.length := by
  have some := length_pos_iff.mpr nonempty
  have last : maxAvailableIndex accepts 0 0 outs < 0 + outs.length :=
    maxAvailableIndex_lt (by omega)
  omega

theorem maxAvailableIndex_none (none : ∀ out ∈ outs, accepts out = false) :
    maxAvailableIndex accepts i best outs = best := by
  induction outs generalizing i with
  | nil => rfl
  | cons out outs ih =>
    rw [maxAvailableIndex, none out mem_cons_self]
    exact ih fun q hq => none q (mem_cons_of_mem _ hq)

/-- Acceptable outbounds followed by others: the index is that of the last acceptable one. -/
theorem maxAvailableIndex_append {rest : List Outbound} {out : Outbound}
    (all : ∀ q ∈ out :: outs, accepts q = true) (none : ∀ q ∈ rest, accepts q = false) :
    maxAvailableIndex accepts i best (out :: outs ++ rest) = i + outs.length := by
  induction outs generalizing out i best with
  | nil =>
    rw [singleton_append, maxAvailableIndex, all out mem_cons_self]
    exact maxAvailableIndex_none none
  | cons next outs ih =>
    grind [maxAvailableIndex, mem_cons_self, mem_cons_of_mem, length_cons]

end

end AiboosterEngine.Balancer
