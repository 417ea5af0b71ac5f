import AiboosterEngine.GoSem.Binary
import AiboosterEngine.GoSem.Netip

/-!
# Headless rules

The rules of a rule set (`option/rule_set.go`), and what the binary format
takes from elsewhere: `varbin`, `zlib`, the domain matchers and `netipx`, each
with the law that it round-trips.
-/

namespace AiboosterEngine.Srs
open GoSem List

structure IPRange where
  start : Addr
  stop : Addr
  deriving DecidableEq, Repr

/-- `netipx.IPSet`: a slice of ranges, 48 bytes each. -/
@[ext] structure IPSet where
  ranges : List IPRange
  inMemory : 48 * ranges.length ≤ 2 ^ 48
  deriving DecidableEq

/-- `badjson.TypedMap`: a map that keeps the order in which its keys were put. -/
@[ext] structure TypedMap (V : Type) where
  entries : List (UInt8 × V)
  nodup : (entries.map Prod.fst).Nodup
  deriving DecidableEq

namespace TypedMap
variable {V : Type}

def empty : TypedMap V := ⟨[], .nil⟩

theorem keys_replace (entries : List (UInt8 × V)) (k : UInt8) (v : V) :
    (entries.map fun e => if e.1 = k then (k, v) else e).map Prod.fst = entries.map Prod.fst := by
  rw [map_map]
  apply map_congr_left
  intro e _
  by_cases same : e.1 = k
  · simp [same]
  · simp [same]

theorem nodup_add {entries : List (UInt8 × V)} {k : UInt8} (v : V)
    (nodup : (entries.map Prod.fst).Nodup) (new : k ∉ entries.map Prod.fst) :
    ((entries ++ [(k, v)]).map Prod.fst).Nodup := by
  rw [map_append]
  refine nodup_append.mpr ⟨nodup, pairwise_singleton _ _, ?_⟩
  intro a ha b hb same
  rw [same, mem_singleton.mp hb] at ha
  exact new ha

/-- `Put`: the value of a key that is there is replaced. -/
def put (m : TypedMap V) (k : UInt8) (v : V) : TypedMap V :=
  if h : k ∈ m.entries.map Prod.fst then
    ⟨m.entries.map fun e => if e.1 = k then (k, v) else e, by
      rw [keys_replace]; exact m.nodup⟩
  else ⟨m.entries ++ [(k, v)], nodup_add v m.nodup h⟩

/-- Putting the entries of a map one by one after `before` gives the map. -/
theorem entries_foldl_put (entries : List (UInt8 × V)) (m : TypedMap V)
    (nodup : ((m.entries ++ entries).map Prod.fst).Nodup) :
    (entries.foldl (fun m e => m.put e.1 e.2) m).entries = m.entries ++ entries := by
  induction entries generalizing m with
  | nil => rw [append_nil]; rfl
  | cons e entries ih =>
    have new : e.1 ∉ m.entries.map Prod.fst := by
      rw [map_append] at nodup
      intro inside
      exact (nodup_append.mp nodup).2.2 e.1 inside e.1 mem_cons_self rfl
    have added : (m.put e.1 e.2).entries = m.entries ++ [e] := by
      rw [put, dif_neg new]
    rw [foldl_cons, ih]
    · rw [added, append_assoc]
      rfl
    · rw [added, append_assoc]
      exact nodup

end TypedMap

/-- `M` and `A` are the types of the two domain matchers; `none` is a nil pointer. -/
structure DefaultHeadlessRule (M A : Type) where
  queryType : List UInt16 := []
  network : List Bytes := []
  domain : List Bytes := []
  domainSuffix : List Bytes := []
  domainKeyword : List Bytes := []
  domainRegex : List Bytes := []
  sourceIPCIDR : List Bytes := []
  ipCIDR : List Bytes := []
  sourcePort : List UInt16 := []
  sourcePortRange : List Bytes := []
  port : List UInt16 := []
  portRange : List Bytes := []
  processName : List Bytes := []
  processPath : List Bytes := []
  processPathRegex : List Bytes := []
  packageName : List Bytes := []
  networkType : List UInt8 := []
  networkIsExpensive : Bool := false
  networkIsConstrained : Bool := false
  wifiSSID : List Bytes := []
  wifiBSSID : List Bytes := []
  invert : Bool := false
  domainMatcher : Option M := none
  sourceIPSet : Option IPSet := none
  ipSet : Option IPSet := none
  adGuardDomain : List Bytes := []
  adGuardDomainMatcher : Option A := none
  tunnelSource : List Bytes := []
  tunnelDestination : List Bytes := []
  networkInterfaceAddress : Option (TypedMap (List (Option Prefix))) := none
  defaultInterfaceAddress : List (Option Prefix) := []
  deriving DecidableEq

inductive Mode where
  | and
  | or
  | other (text : Bytes)
  deriving DecidableEq, Repr

/-- A rule and the options of its type; `other` is a rule whose type is neither of the two. -/
inductive HeadlessRule (M A : Type) where
  | default (options : DefaultHeadlessRule M A)
  | logical (mode : Mode) (rules : List (HeadlessRule M A)) (invert : Bool)
  | other (type : Bytes)

/-- What is added to a `netipx.IPSetBuilder`. -/
inductive Added where
  | net (p : Prefix)
  | addr (a : Addr)
  deriving DecidableEq

/-- No bound of the set has a zone. -/
def IPSet.Zoneless (s : IPSet) : Prop :=
  ∀ r ∈ s.ranges, r.start.withoutZone = r.start ∧ r.stop.withoutZone = r.stop

structure Libraries (M A : Type) where
  /-- `varbin` for the types the format has. -/
  strings : Codec String (List Bytes)
  uint16s : Codec String (List UInt16)
  uint8s : Codec String (List UInt8)
  bytes : Codec String Bytes
  rangeData : Codec String (Bytes × Bytes)
  /-- `zlib`. -/
  deflate : Bytes → Bytes
  inflate : Bytes → Outcome String Bytes
  inflate_deflate : ∀ bs, inflate (deflate bs) = .ok bs
  /-- `domain.Matcher`; the last argument of `NewMatcher` asks for the legacy form. -/
  newMatcher : List Bytes → List Bytes → Bool → M
  matcher : Codec String M
  dump : M → List Bytes × List Bytes
  mem_dump : ∀ domains suffixes legacy x,
    (x ∈ (dump (newMatcher domains suffixes legacy)).1 ↔ x ∈ domains) ∧
    (x ∈ (dump (newMatcher domains suffixes legacy)).2 ↔ x ∈ suffixes)
  newAdGuardMatcher : List Bytes → A
  adGuardMatcher : Codec String A
  dumpAdGuard : A → List Bytes
  mem_dumpAdGuard : ∀ rules x, x ∈ dumpAdGuard (newAdGuardMatcher rules) ↔ x ∈ rules
  /-- `netip` and `netipx`. -/
  parsePrefix : Bytes → Outcome String Prefix
  parseAddr : Bytes → Option Addr
  prefixString : Prefix → Bytes
  buildIPSet : List Added → Outcome String IPSet
  prefixes : IPSet → List Prefix
  parse_prefixes : ∀ s, ∀ p ∈ prefixes s, parsePrefix (prefixString p) = .ok p
  build_zoneless : ∀ added s, buildIPSet added = .ok s →
    (∀ a, Added.addr a ∈ added → a.withoutZone = a) → s.Zoneless
  build_prefixes : ∀ added s, buildIPSet added = .ok s → s.Zoneless →
    buildIPSet ((prefixes s).map .net) = .ok s

end AiboosterEngine.Srs
