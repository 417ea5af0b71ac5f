import AiboosterEngine.Srs.Binary

/-!
# Reading the items of a rule back

What `readDefaultRule` makes of what `writeDefaultRule` wrote, item by item.
-/

namespace AiboosterEngine.Srs
open GoSem RuleItem

variable {M A : Type}

variable {libs : Libraries M A} {bs : Bytes} {r r' : DefaultHeadlessRule M A}
  {x : Outcome String Bytes} {version : UInt8} {error : String} {rule : DefaultHeadlessRule M A}

theorem readDefaultRule_item {item : RuleItem} (h : item ≠ .final) (fuel : Nat) (last : UInt8)
    (r : DefaultHeadlessRule M A) (bs : Bytes) :
    readDefaultRule libs true (fuel + 1) last r (item.code :: bs) =
      Reader.bind (readItem libs true r item) (readDefaultRule libs true fuel item.code) bs := by
  cases item <;> first | exact absurd rfl h | rfl

theorem readDefaultRule_final (fuel : Nat) (last : UInt8) (r : DefaultHeadlessRule M A)
    (invert : Bool) (bs : Bytes) :
    readDefaultRule libs true (fuel + 1) last r (final.code :: boolByte invert :: bs) =
      some (.ok ({ r with invert := invert }, bs)) := by
  cases invert <;> rfl

/-- Reading `bs` takes the loop from the rule `r` to the rule `r'`, with fuel for what follows. -/
def Loads (libs : Libraries M A) (bs : Bytes) (r r' : DefaultHeadlessRule M A) : Prop :=
  ∀ (fuel : Nat) (last : UInt8), bs.length ≤ fuel → ∃ (fuel' : Nat) (last' : UInt8),
    fuel ≤ fuel' + bs.length ∧ ∀ rest, readDefaultRule libs true fuel last r (bs ++ rest) =
      readDefaultRule libs true fuel' last' r' rest

theorem Loads.nil (r : DefaultHeadlessRule M A) : Loads libs [] r r :=
  fun fuel last _ => ⟨fuel, last, .refl, fun _ => rfl⟩

theorem Loads.item {item : RuleItem} (h : item ≠ .final)
    (reads : Reads (readItem libs true r item) bs r') :
    Loads libs ([item.code] ++ bs) r r' := by
  intro fuel last enough
  rw [List.length_append, List.length_singleton] at enough
  obtain ⟨fuel, rfl⟩ : ∃ n, fuel = n + 1 := ⟨fuel - 1, by omega⟩
  refine ⟨fuel, item.code, by rw [List.length_append, List.length_singleton]; omega, fun rest => ?_⟩
  rw [List.append_assoc, List.singleton_append, readDefaultRule_item h, Reader.bind, reads]

/-- What is written, if it is, takes the loop from `r` to `r'`. -/
def Writes (libs : Libraries M A) (x : Outcome String Bytes)
    (r r' : DefaultHeadlessRule M A) : Prop :=
  ∀ bs, x = .ok bs → Loads libs bs r r'

theorem Writes.whenAny {α : Type} {value : List α} (empty : value = [] → r' = r)
    (some : ¬ value.isEmpty → Writes libs x r r') : Writes libs (whenAny value x) r r' := by
  intro bs h
  unfold Srs.whenAny at h
  split at h
  · rename_i none
    cases h
    rw [empty (List.isEmpty_iff.mp none)]
    exact .nil r
  · rename_i any
    exact some any bs h

theorem Writes.whenSet {value : Bool} (unset : value = false → r' = r)
    (set : value = true → Writes libs x r r') : Writes libs (whenSet value x) r r' := by
  intro bs h
  cases value with
  | false =>
    cases h
    rw [unset rfl]
    exact .nil r
  | true => exact set rfl bs h

theorem Writes.ok (loads : Loads libs bs r r') : Writes libs (.ok bs) r r' := by
  intro bs' h
  cases h
  exact loads

theorem Writes.since {generateVersion : UInt8} (loads : Loads libs bs r r') :
    Writes libs (since version generateVersion error bs) r r' := by
  intro bs' h
  unfold Srs.since at h
  split at h
  · cases h
  · cases h
    exact loads

/-- The items `xs`, the last of which is the final one, take the loop from `r` to the end. -/
def Finishes (libs : Libraries M A) (xs : List (Outcome String Bytes))
    (r r' : DefaultHeadlessRule M A) : Prop :=
  ∀ bs, writeAll xs = .ok bs → ∀ fuel last, bs.length ≤ fuel →
    Reads (readDefaultRule libs true fuel last r) bs r'

theorem Finishes.cons {xs : List (Outcome String Bytes)} {r'' : DefaultHeadlessRule M A}
    (first : Writes libs x r r') (more : Finishes libs xs r' r'') :
      Finishes libs (x :: xs) r r'' := by
  intro bs h fuel last enough
  obtain ⟨head, tail, hx, hxs, rfl⟩ := writeAll_cons h
  rw [List.length_append] at enough
  obtain ⟨fuel', last', left, loads⟩ := first head hx fuel last (by omega)
  intro rest
  rw [List.append_assoc, loads]
  exact more tail hxs fuel' last' (by omega) rest

theorem Finishes.final (r : DefaultHeadlessRule M A) (invert : Bool) :
    Finishes libs [.ok [final.code, boolByte invert]] r { r with invert := invert } := by
  intro bs h fuel last enough
  cases h
  obtain ⟨fuel, rfl⟩ : ∃ n, fuel = n + 1 := ⟨fuel - 1, by simp at enough; omega⟩
  exact fun rest => readDefaultRule_final fuel last r invert rest

variable {item : RuleItem}

theorem writes_list {α : Type} {codec : Codec String (List α)}
    (set : DefaultHeadlessRule M A → List α → DefaultHeadlessRule M A) {value : List α}
    (h : item ≠ .final)
    (reads : readItem libs true r item = (do return set r (← codec.read))) (unset : set r [] = r) :
    Writes libs (whenAny value (.ok ([item.code] ++ codec.write value))) r (set r value) := by
  refine .whenAny (fun empty => by rw [empty, unset]) fun _ => .ok (.item h ?_)
  rw [reads]
  exact (codec.reads value).map

/-- A set as it is read back: the slices of its bounds have no zone. -/
def IPSet.stripped (set : IPSet) : IPSet :=
  ⟨set.ranges.map fun r => ⟨r.start.withoutZone, r.stop.withoutZone⟩, by
    rw [List.length_map]; exact set.inMemory⟩

theorem makeIPSet_stripped (set : IPSet) :
    makeIPSet ((set.ranges.map fun r => (r.start.asSlice, r.stop.asSlice)).map
      fun data => ⟨.fromSlice data.1, .fromSlice data.2⟩) = .ok set.stripped := by
  have same : ((set.ranges.map fun r => (r.start.asSlice, r.stop.asSlice)).map
      fun data => (⟨.fromSlice data.1, .fromSlice data.2⟩ : IPRange)) = set.stripped.ranges := by
    rw [List.map_map]
    apply List.map_congr_left
    intro r _
    simp only [Function.comp, Addr.fromSlice_asSlice]
  rw [same]
  exact dif_pos set.stripped.inMemory

section
variable (libs : Libraries M A)

theorem reads_ipSet (set : IPSet) : Reads (readIPSet libs) (writeIPSet libs set) set.stripped := by
  have short : set.ranges.length < 2 ^ 64 := by have := set.inMemory; omega
  have ranges : Reads (.times (fun _ => libs.rangeData.read) 0 set.ranges.length) _ _ :=
    .times (fun r => libs.rangeData.write (r.start.asSlice, r.stop.asSlice)) _
      (fun r _ _ => libs.rangeData.reads (r.start.asSlice, r.stop.asSlice)) 0
  unfold writeIPSet
  rw [List.append_assoc]
  refine (reads_byte 1).bind ((reads_uint64 short).bind ?_)
  refine (Reads.lift (makeSlice_ok set.inMemory)).bind ?_
  exact ranges.last (.lift (makeIPSet_stripped set))

theorem reads_network (p : Prefix) : Reads (readPrefix libs) (writePrefix libs p) p := by
  have bits : Reads (do
      let prefixBits ← readByte
      return Prefix.prefixFrom (.fromSlice p.addr.asSlice) prefixBits.toNat) [p.bitsByte] _ :=
    (reads_byte p.bitsByte).map
  rw [Prefix.prefixFrom_fromSlice] at bits
  exact (libs.bytes.reads p.addr.asSlice).bind bits

/-- Every pointer is set in what is read back. -/
def built (value : List (Option Prefix)) : List (Option Prefix) := value.map fun p => some (build p)

theorem reads_prefixes {value : List (Option Prefix)} (inMemory : 8 * value.length ≤ 2 ^ 48) :
    Reads (readPrefixes libs) (writePrefixes libs value) (built value) := by
  refine (reads_uvarint (by omega)).bind ?_
  exact .times _ _ (fun p _ _ => (reads_network libs (build p)).map) 0

def builtMap (map : TypedMap (List (Option Prefix))) : TypedMap (List (Option Prefix)) :=
  ⟨map.entries.map fun e => (e.1, built e.2), by rw [List.map_map]; exact map.nodup⟩

def MapInMemory (map : TypedMap (List (Option Prefix))) : Prop :=
  8 * map.entries.length ≤ 2 ^ 48 ∧ ∀ e ∈ map.entries, 8 * e.2.length ≤ 2 ^ 48

theorem reads_interfaceAddress {map : TypedMap (List (Option Prefix))}
    (inMemory : MapInMemory map) :
    Reads (readInterfaceAddress libs)
      (uvarint map.entries.length ++ map.entries.flatMap fun e => [e.1] ++ writePrefixes libs e.2)
      (builtMap map) := by
  have entries : Reads (.times (fun _ => do
      let key ← readByte
      let value ← readPrefixes libs
      return (key, value)) 0 map.entries.length) _ (builtMap map).entries :=
    .times (fun e => [e.1] ++ writePrefixes libs e.2) _
      (fun e he _ => (reads_byte e.1).bind (reads_prefixes libs (inMemory.2 e he)).map) 0
  have putAll : (builtMap map).entries.foldl (fun map e => map.put e.1 e.2) .empty = builtMap map :=
    TypedMap.ext (TypedMap.entries_foldl_put (builtMap map).entries .empty (builtMap map).nodup)
  have sized : map.entries.length < 2 ^ 64 := by have := inMemory.1; omega
  refine (reads_uvarint sized).bind (entries.last ?_)
  rw [putAll]
  exact .pure _

end

section
variable (libs : Libraries M A)

def writtenMatcher (version : UInt8) (rule : DefaultHeadlessRule M A) : Option M :=
  if (rule.domain ++ rule.domainSuffix).isEmpty then none
  else some (libs.newMatcher rule.domain rule.domainSuffix (version == 1))

def writtenAdGuard (rule : DefaultHeadlessRule M A) : Option A :=
  if rule.adGuardDomain.isEmpty then none else some (libs.newAdGuardMatcher rule.adGuardDomain)

/-- The set that is read back for a list of addresses and prefixes. -/
def readBack (value : List Bytes) : Option IPSet :=
  if value.isEmpty then none
  else match cidrSet libs value with
    | .ok set => some set.stripped
    | _ => none

def recoveredCIDR (set : Option IPSet) : List Bytes :=
  set.elim [] fun set => (libs.prefixes set).map libs.prefixString

def recoveredMap (map : Option (TypedMap (List (Option Prefix)))) :
    Option (TypedMap (List (Option Prefix))) :=
  match map with
  | none => none
  | some map => if map.entries.isEmpty then none else some (builtMap map)

def recovered (version : UInt8) (rule : DefaultHeadlessRule M A) : DefaultHeadlessRule M A :=
  { rule with
    domainMatcher := writtenMatcher libs version rule
    domain := (writtenMatcher libs version rule).elim [] fun m => (libs.dump m).1
    domainSuffix := (writtenMatcher libs version rule).elim [] fun m => (libs.dump m).2
    sourceIPSet := readBack libs rule.sourceIPCIDR
    sourceIPCIDR := recoveredCIDR libs (readBack libs rule.sourceIPCIDR)
    ipSet := readBack libs rule.ipCIDR
    ipCIDR := recoveredCIDR libs (readBack libs rule.ipCIDR)
    adGuardDomainMatcher := writtenAdGuard libs rule
    adGuardDomain := (writtenAdGuard libs rule).elim [] libs.dumpAdGuard
    tunnelSource := []
    tunnelDestination := []
    networkInterfaceAddress := recoveredMap rule.networkInterfaceAddress
    defaultInterfaceAddress := built rule.defaultInterfaceAddress }

end

/-- A list of addresses and prefixes, read into the set and the list. -/
theorem writes_cidr {text : String} {value : List Bytes}
    (set : DefaultHeadlessRule M A → Option IPSet → List Bytes → DefaultHeadlessRule M A)
    (h : item ≠ .final) (reads : readItem libs true r item = (do
      let ips ← readIPSet libs
      return set r (some ips) ((libs.prefixes ips).map libs.prefixString)))
    (unset : set r none [] = r) :
    Writes libs (whenAny value ((writeRuleItemCIDR libs item value).mapErr (cause text))) r
      (set r (readBack libs value) (recoveredCIDR libs (readBack libs value))) := by
  refine .whenAny (fun empty => ?_) fun any bs written => ?_
  · rw [empty]
    exact unset
  · obtain ⟨ips, made, h'⟩ := Outcome.bind_eq_ok (Outcome.mapErr_eq_ok written)
    cases h'
    have back : readBack libs value = some ips.stripped := by
      rw [readBack, if_neg any, made]
    rw [back]
    refine .item h ?_
    rw [reads]
    exact (reads_ipSet libs ips).map

theorem writes_domain
    (unset : { r with domainMatcher := none, domain := [], domainSuffix := [] } = r) :
    Writes libs (whenAny (rule.domain ++ rule.domainSuffix) (.ok ([domain.code] ++
        libs.matcher.write (libs.newMatcher rule.domain rule.domainSuffix (version == 1))))) r
      { r with
        domainMatcher := writtenMatcher libs version rule
        domain := (writtenMatcher libs version rule).elim [] fun m => (libs.dump m).1
        domainSuffix := (writtenMatcher libs version rule).elim [] fun m => (libs.dump m).2 } := by
  refine .whenAny (fun empty => ?_) fun any => .ok (.item (by decide) ?_)
  · rw [writtenMatcher, empty]
    exact unset
  · rw [writtenMatcher, if_neg any]
    exact (libs.matcher.reads _).map

theorem writes_adGuard (unset : { r with adGuardDomainMatcher := none, adGuardDomain := [] } = r) :
    Writes libs (whenAny rule.adGuardDomain (since 2 version error ([adGuardDomain.code] ++
        libs.adGuardMatcher.write (libs.newAdGuardMatcher rule.adGuardDomain)))) r
      { r with
        adGuardDomainMatcher := writtenAdGuard libs rule
        adGuardDomain := (writtenAdGuard libs rule).elim [] libs.dumpAdGuard } := by
  refine .whenAny (fun empty => ?_) fun any => .since (.item (by decide) ?_)
  · rw [writtenAdGuard, empty]
    exact unset
  · rw [writtenAdGuard, if_neg any]
    exact (libs.adGuardMatcher.reads _).map

theorem writes_networkType (unset : { r with networkType := [] } = r) :
    Writes libs (whenAny rule.networkType (since 3 version error
        (writeRuleItemUint8 libs .networkType rule.networkType))) r
      { r with networkType := rule.networkType } := by
  refine .whenAny (fun empty => ?_) fun _ => .since (.item (by decide) ?_)
  · rw [empty]
    exact unset
  · exact (libs.uint8s.reads _).map

theorem writes_flag {flag : Bool}
    (set : DefaultHeadlessRule M A → Bool → DefaultHeadlessRule M A) (h : item ≠ .final)
    (reads : readItem libs true r item = pure (set r true)) (unset : set r false = r) :
    Writes libs (whenSet flag (since 3 version error [item.code])) r (set r flag) := by
  refine .whenSet (fun off => by rw [off, unset]) fun on => .since ?_
  have loads : Loads libs ([item.code] ++ []) r (set r flag) := by
    refine .item h ?_
    rw [reads, on]
    exact .pure _
  exact loads

theorem writes_interfaceAddress
    (inMemory : ∀ map, rule.networkInterfaceAddress = some map → MapInMemory map)
    (unset : { r with networkInterfaceAddress := none } = r) :
    Writes libs (match rule.networkInterfaceAddress with
        | none => .ok []
        | some map =>
            whenAny map.entries (since 4 version error (writeInterfaceAddress libs map))) r
      { r with networkInterfaceAddress := recoveredMap rule.networkInterfaceAddress } := by
  cases present : rule.networkInterfaceAddress with
  | none =>
    refine .ok ?_
    rw [recoveredMap, unset]
    exact .nil r
  | some map =>
    refine .whenAny (fun empty => ?_) fun any => .since ?_
    · rw [recoveredMap, empty]
      exact unset
    · unfold writeInterfaceAddress
      rw [List.append_assoc, recoveredMap, if_neg any]
      exact .item (by decide) (reads_interfaceAddress libs (inMemory map present)).map

theorem writes_defaultAddress (inMemory : 8 * rule.defaultInterfaceAddress.length ≤ 2 ^ 48)
    (unset : { r with defaultInterfaceAddress := [] } = r) :
    Writes libs (whenAny rule.defaultInterfaceAddress (since 4 version error
        ([defaultInterfaceAddress.code] ++
          writePrefixes libs rule.defaultInterfaceAddress))) r
      { r with defaultInterfaceAddress := built rule.defaultInterfaceAddress } := by
  refine .whenAny (fun empty => ?_) fun _ => .since (.item (by decide) ?_)
  · rw [empty]
    exact unset
  · exact (reads_prefixes libs inMemory).map

/-- The slices of a rule have a length that Go can hold. -/
structure InMemory (rule : DefaultHeadlessRule M A) : Prop where
  map : ∀ map, rule.networkInterfaceAddress = some map → MapInMemory map
  addresses : 8 * rule.defaultInterfaceAddress.length ≤ 2 ^ 48

theorem finishes_items (inMemory : InMemory rule) :
    Finishes libs (ruleItems libs rule version) {} (recovered libs version rule) := by
  refine .cons (writes_list (fun r v => { r with queryType := v }) (by decide) rfl rfl) ?_
  refine .cons (writes_list (fun r v => { r with network := v }) (by decide) rfl rfl) ?_
  refine .cons (writes_domain rfl) ?_
  refine .cons (writes_list (fun r v => { r with domainKeyword := v }) (by decide) rfl rfl) ?_
  refine .cons (writes_list (fun r v => { r with domainRegex := v }) (by decide) rfl rfl) ?_
  refine .cons (writes_cidr (fun r s v => { r with sourceIPSet := s, sourceIPCIDR := v })
    (by decide) rfl rfl) ?_
  refine .cons (writes_cidr (fun r s v => { r with ipSet := s, ipCIDR := v }) (by decide) rfl rfl)
    ?_
  refine .cons (writes_list (fun r v => { r with sourcePort := v }) (by decide) rfl rfl) ?_
  refine .cons (writes_list (fun r v => { r with sourcePortRange := v }) (by decide) rfl rfl) ?_
  refine .cons (writes_list (fun r v => { r with port := v }) (by decide) rfl rfl) ?_
  refine .cons (writes_list (fun r v => { r with portRange := v }) (by decide) rfl rfl) ?_
  refine .cons (writes_list (fun r v => { r with processName := v }) (by decide) rfl rfl) ?_
  refine .cons (writes_list (fun r v => { r with processPath := v }) (by decide) rfl rfl) ?_
  refine .cons (writes_list (fun r v => { r with processPathRegex := v }) (by decide) rfl rfl) ?_
  refine .cons (writes_list (fun r v => { r with packageName := v }) (by decide) rfl rfl) ?_
  refine .cons (writes_networkType rfl) ?_
  refine .cons (writes_flag (fun r b => { r with networkIsExpensive := b }) (by decide) rfl rfl) ?_
  refine .cons (writes_flag (fun r b => { r with networkIsConstrained := b }) (by decide) rfl rfl)
    ?_
  refine .cons (writes_interfaceAddress inMemory.map rfl) ?_
  refine .cons (writes_defaultAddress inMemory.addresses rfl) ?_
  refine .cons (writes_list (fun r v => { r with wifiSSID := v }) (by decide) rfl rfl) ?_
  refine .cons (writes_list (fun r v => { r with wifiBSSID := v }) (by decide) rfl rfl) ?_
  refine .cons (writes_adGuard rfl) ?_
  exact .final _ rule.invert

theorem reads_default (inMemory : InMemory rule)
    (written : writeDefaultRule libs rule version = .ok bs) :
    ∃ items, bs = [0] ++ items ∧ ∀ fuel, items.length ≤ fuel →
      Reads (readDefaultRule libs true fuel 0 {}) items (recovered libs version rule) := by
  obtain ⟨_, items, h, more, rfl⟩ := writeAll_cons written
  cases h
  exact ⟨items, rfl, fun fuel enough => finishes_items inMemory items more fuel 0 enough⟩

end AiboosterEngine.Srs
