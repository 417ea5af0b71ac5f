import AiboosterEngine.CacheFile.FakeIp
import AiboosterEngine.FakeIp.Memory

/-!
# Fake addresses inside their range

With the storage in memory and with the cache file, whose reset may leave addresses
of an earlier configuration behind.
-/

namespace AiboosterEngine.FakeIp
open GoSem Store MemoryStorage CacheFile

/-- A storage hands back only what has been stored, under its family. -/
structure FakeIPStorage.Lawful {σ : Type} (api : FakeIPStorage σ) : Prop where
  store : ∀ s address domain domain' isIPv6 address', address.withoutZone = address →
    api.loadDomain (api.store s address domain) domain' isIPv6 = some address' →
    api.loadDomain s domain' isIPv6 = some address' ∨ (address' = address ∧ isIPv6 = !address.is4)
  saveMetadata : ∀ s metadata domain isIPv6,
    api.loadDomain (api.saveMetadata s metadata) domain isIPv6 = api.loadDomain s domain isIPv6

/-- The walk through the range begins inside it, or cannot begin. -/
def StaysInside (range : Prefix) : Prop :=
  (first range).isValid = false ∨ range.contains (first range) = true

section
variable {σ : Type} {api : FakeIPStorage σ} {inet4Range inet6Range : Prefix} {storage : σ}

/-- In every run of a store started on the storage, each address handed out is in the range of its
family. -/
def HandsOutInside (api : FakeIPStorage σ) (storage : σ) (inet4Range inet6Range : Prefix) : Prop :=
  ∀ s, Reachable (step api) (start api { inet4Range, inet6Range, storage }) s →
    ∀ domain isIPv6 address, (s.create api domain isIPv6).1 = .ok address →
      (if isIPv6 then inet6Range else inet4Range).contains address = true ∧
        s.contains address = true

/-- So is each address that a storage has. -/
def HoldsInside (api : FakeIPStorage σ) (storage : σ) (inet4Range inet6Range : Prefix) : Prop :=
  ∀ domain isIPv6 address, api.loadDomain storage domain isIPv6 = some address →
    (if isIPv6 then inet6Range else inet4Range).contains address = true

/-- What holds of a store that serves these ranges, in every run: an address of a domain is of the
walk, or the reset left it. -/
structure Serving (api : FakeIPStorage σ) (storage : σ) (inet4Range inet6Range : Prefix)
    (s : Store σ) : Prop where
  ranges : s.inet4Range = inet4Range ∧ s.inet6Range = inet6Range
  counts : ∀ isIPv6, s.Counts isIPv6
  loaded : ∀ domain isIPv6 address, api.loadDomain s.storage domain isIPv6 = some address →
    OnWalk (s.range isIPv6) address ∨
      api.loadDomain (api.reset storage) domain isIPv6 = some address

theorem onWalk_noZone {range : Prefix} {address : Addr} (h : OnWalk range address) :
    address.withoutZone = address := by
  rcases h.place with rfl | inside
  · exact (first_spec h.begins).2.2.2
  · exact Prefix.contains_noZone inside

theorem create_ranges (api : FakeIPStorage σ) (s : Store σ) (domain : Bytes) (isIPv6 : Bool) :
    (s.create api domain isIPv6).2.inet4Range = s.inet4Range ∧
      (s.create api domain isIPv6).2.inet6Range = s.inet6Range := by
  rcases create_cases api s domain isIPv6 with ⟨_, _, same⟩ | ⟨_, same⟩ | ⟨_, _, same⟩
  · rw [same]
    exact ⟨rfl, rfl⟩
  · rw [same]
    exact ⟨rfl, rfl⟩
  · rw [same]
    cases isIPv6 <;> exact ⟨rfl, rfl⟩

theorem create_range (api : FakeIPStorage σ) (s : Store σ) (domain : Bytes)
    (isIPv6 isIPv6' : Bool) :
    (s.create api domain isIPv6').2.range isIPv6 = s.range isIPv6 := by
  obtain ⟨same4, same6⟩ := create_ranges api s domain isIPv6'
  unfold Store.range
  rw [same4, same6]

theorem serving_create {s : Store σ} (lawful : api.Lawful)
    (h : Serving api storage inet4Range inet6Range s) (domain : Bytes) (isIPv6 : Bool) :
    Serving api storage inet4Range inet6Range (s.create api domain isIPv6).2 ∧
      ∀ address, (s.create api domain isIPv6).1 = .ok address →
        OnWalk (s.range isIPv6) address ∨
        api.loadDomain (api.reset storage) domain isIPv6 = some address := by
  obtain ⟨same4, same6⟩ := create_ranges api s domain isIPv6
  have ranges := And.intro (same4.trans h.ranges.1) (same6.trans h.ranges.2)
  have counts := fun isIPv6' => counts_create api h.counts domain isIPv6' isIPv6
  have range := fun isIPv6' => create_range api s domain isIPv6' isIPv6
  rcases create_cases api s domain isIPv6 with ⟨old, there, same⟩ | ⟨_, same⟩ | ⟨_, valid, same⟩
  · rw [same]
    refine ⟨h, fun address handed => ?_⟩
    cases handed
    exact h.loaded domain isIPv6 old there
  · rw [same]
    exact ⟨h, nofun⟩
  · have walk := onWalk_advance ((h.counts isIPv6).current valid)
    refine ⟨⟨ranges, counts, fun domain' isIPv6' address loads => ?_⟩, fun address handed => ?_⟩
    · rw [range]
      rw [same] at loads
      dsimp only at loads
      rw [lawful.saveMetadata] at loads
      rcases lawful.store _ _ _ _ _ _ (onWalk_noZone walk) loads with old | ⟨rfl, family⟩
      · exact h.loaded domain' isIPv6' address old
      · rw [walk.is4, (h.counts isIPv6).family valid, Bool.not_not] at family
        rw [family]
        exact .inl walk
    · rw [same] at handed
      cases handed
      exact .inl walk

theorem serving_of_reachable (lawful : api.Lawful) (unsaved : api.metadata storage = none)
    (is4 : inet4Range.addr.is4 = true) (is6 : inet6Range.addr.is4 = false) {s : Store σ}
    (h : Reachable (step api) (start api { inet4Range, inet6Range, storage }) s) :
    Serving api storage inet4Range inet6Range s := by
  apply h.invariant
  · refine ⟨?_, counts_start unsaved (fun _ => is4) (fun _ => is6),
      fun domain isIPv6 address loads => ?_⟩
    · unfold start
      rw [unsaved]
      exact ⟨rfl, rfl⟩
    · unfold start at loads
      rw [unsaved] at loads
      exact .inr loads
  · intro s call s' serving _ taken
    cases call with
    | create domain isIPv6 =>
      cases taken
      exact (serving_create lawful serving domain isIPv6).1
    | lookup address =>
      cases taken
      exact serving

theorem advance_first {range : Prefix} (valid : (first range).isValid = true)
    (outside : range.contains (first range) = false) :
      advance range (first range) = first range := by
  apply if_neg
  intro inside
  obtain ⟨there, _⟩ := Prefix.contains_family inside
  obtain ⟨_, bitLen, _, number, _⟩ := Addr.next_spec there
  obtain ⟨_, _, second, zone⟩ := first_spec valid
  have between := Prefix.contains_between inside zone bitLen.symm (by omega) (by omega)
  rw [between] at outside
  cases outside

theorem started (unsaved : api.metadata storage = none) :
    start api { inet4Range, inet6Range, storage } =
    start.begin api { inet4Range, inet6Range, storage } := by
  unfold start
  rw [unsaved]

/-- The first call for a new domain hands out where the walk begins, if that is outside. -/
theorem create_outside (unsaved : api.metadata storage = none) {domain : Bytes} {isIPv6 : Bool}
    (missing : api.loadDomain (api.reset storage) domain isIPv6 = none) {range : Prefix}
    (same : range = if isIPv6 then inet6Range else inet4Range)
    (valid : range.isValid = true) (leaves : ¬ StaysInside range) :
    ((start api { inet4Range, inet6Range, storage }).create api domain isIPv6).1 =
      .ok (first range) ∧
      range.contains (first range) = false := by
  obtain ⟨there, outside⟩ := not_or.mp leaves
  have there : (first range).isValid = true := by simpa using there
  have outside : range.contains (first range) = false := by simpa using outside
  refine ⟨?_, outside⟩
  have current : (start.begin api { inet4Range, inet6Range, storage }).current isIPv6 =
    first range := by
    subst same
    cases isIPv6 <;> exact if_pos valid
  have range' : (start.begin api { inet4Range, inet6Range, storage }).range isIPv6 = range := by
    subst same
    cases isIPv6 <;> rfl
  have missing : api.loadDomain (start.begin api { inet4Range, inet6Range, storage }).storage
      domain isIPv6 = none := missing
  rw [started unsaved, create, missing]
  dsimp only
  rw [current, there, range', advance_first there outside]
  rfl

/-- For any storage in which some domain is free after the reset. -/
theorem handsOutInside_iff (lawful : api.Lawful) (unsaved : api.metadata storage = none)
    (free : ∀ isIPv6, ∃ domain, api.loadDomain (api.reset storage) domain isIPv6 = none)
    (valid4 : inet4Range.isValid = true) (is4 : inet4Range.addr.is4 = true)
    (valid6 : inet6Range.isValid = true) (is6 : inet6Range.addr.is4 = false) :
    HandsOutInside api storage inet4Range inet6Range ↔
      StaysInside inet4Range ∧ StaysInside inet6Range ∧
        HoldsInside api (api.reset storage) inet4Range inet6Range := by
  constructor
  · intro inside
    have each : ∀ isIPv6 : Bool, (if isIPv6 then inet6Range else inet4Range).isValid = true →
        StaysInside (if isIPv6 then inet6Range else inet4Range) := by
      intro isIPv6 valid
      apply Classical.byContradiction
      intro leaves
      obtain ⟨domain, missing⟩ := free isIPv6
      obtain ⟨handed, outside⟩ := create_outside unsaved missing rfl valid leaves
      have := (inside _ .start domain isIPv6 _ handed).1
      rw [this] at outside
      cases outside
    refine ⟨each false valid4, each true valid6, fun domain isIPv6 address loads => ?_⟩
    refine (inside _ .start domain isIPv6 address ?_).1
    have loads : api.loadDomain (start.begin api { inet4Range, inet6Range, storage }).storage
      domain isIPv6 = some address := loads
    rw [started unsaved, create, loads]
  · rintro ⟨inside4, inside6, left⟩ s reachable domain isIPv6 address handed
    have serving := serving_of_reachable lawful unsaved is4 is6 reachable
    have range : s.range isIPv6 = if isIPv6 then inet6Range else inet4Range := by
      unfold Store.range
      rw [serving.ranges.1, serving.ranges.2]
    have stays : StaysInside (s.range isIPv6) := by grind
    have contained : (s.range isIPv6).contains address = true := by
      rcases (serving_create lawful serving domain isIPv6).2 address handed with walk | old
      · rcases walk.place with rfl | inside
        · rcases stays with none | inside
          · rw [walk.begins] at none
            cases none
          · exact inside
        · exact inside
      · rw [range]
        exact left domain isIPv6 address old
    refine ⟨by rw [← range]; exact contained, ?_⟩
    unfold Store.range at contained
    cases isIPv6 <;> simp_all [Store.contains]

end

theorem memory_lawful : api.Lawful where
  store s address domain domain' isIPv6 address' _ loads := by
    have loads := (loadDomain_store s address domain domain' isIPv6).symm.trans loads
    split at loads
    · rename_i family
      split at loads
      · cases loads
        exact .inr ⟨rfl, family⟩
      · split at loads
        · cases loads
        · exact .inl loads
    · exact .inl loads
  saveMetadata s metadata domain isIPv6 := rfl

section
variable {B E : Type} [Bolt B E]

/-- A load finds what waits to be stored, or a record that is an address. -/
theorem fakeIPLoadDomain_iff (c : CacheFile B) (domain : Bytes) (isIPv6 : Bool) (address : Addr) :
    c.fakeIPLoadDomain domain isIPv6 = some address ↔
      (if !isIPv6 then c.saveAddress4.get domain else c.saveAddress6.get domain) = some address ∨
      ((if !isIPv6 then c.saveAddress4.get domain else c.saveAddress6.get domain) = none ∧
        ∃ found, record c.db isIPv6 domain = some found ∧ Addr.fromSlice found = address ∧
          address.isValid = true) := by
  unfold CacheFile.fakeIPLoadDomain record
  cases (if !isIPv6 then c.saveAddress4.get domain else c.saveAddress6.get domain) with
  | some cached => simp
  | none =>
    cases (BoltOps.child c.db (bucketFakeIPDomain isIPv6)).bind (BoltOps.value · domain) with
    | none => simp [Addr.fromSlice, Addr.isValid]
    | some found => grind

theorem file_lawful : (fileStorage : FakeIPStorage (CacheFile B)).Lawful where
  store c address domain domain' isIPv6 address' noZone loads := by
    change (c.fakeIPStore address domain).2.fakeIPLoadDomain domain' isIPv6 = _ at loads
    show c.fakeIPLoadDomain domain' isIPv6 = _ ∨ _
    rcases fakeIPStore_cases c address domain with same | ⟨db, same, records⟩
    · rw [same] at loads
      exact .inl loads
    · rw [same] at loads
      rw [fakeIPLoadDomain_iff] at loads ⊢
      rcases loads with cached | ⟨missing, found, there, read, valid⟩
      · exact .inl (.inl cached)
      · rcases records isIPv6 domain' found there with old | ⟨rfl, family⟩
        · exact .inl (.inr ⟨missing, found, old, read, valid⟩)
        · rw [Addr.fromSlice_asSlice, noZone] at read
          exact .inr ⟨read.symm, family⟩
  saveMetadata c metadata domain isIPv6 := rfl

/-- What a reset leaves of a file that has just been opened. -/
theorem fakeIPReset_left (cacheID : Bytes) (db : B) :
    (AllBuckets db ∧ ∀ domain isIPv6,
      (new cacheID db).fakeIPReset.2.fakeIPLoadDomain domain isIPv6 = none) ∨
    (¬ AllBuckets db ∧ (new cacheID db).fakeIPReset.2 = new cacheID db) := by
  rcases fakeIPReset_cases (new cacheID db) with ⟨all, db', deleted, none⟩ | kept
  · refine .inl ⟨all, fun domain isIPv6 => ?_⟩
    rw [deleted, CacheFile.fakeIPLoadDomain, none]
    cases isIPv6 <;> rfl
  · exact .inr kept

end

/-- **Fake addresses stay in their range.** With the storage in memory, in every run of a store
started without metadata each address handed out is in the range of its family, exactly when each
walk begins in its range or cannot begin. With a cache file that has a domain without an address,
exactly when moreover the reset works, all three buckets being there, or the addresses in the file
are in these ranges already. -/
theorem inRange_iff {inet4Range inet6Range : Prefix}
    (valid4 : inet4Range.isValid = true) (is4 : inet4Range.addr.is4 = true)
    (valid6 : inet6Range.isValid = true) (is6 : inet6Range.addr.is4 = false) :
    (∀ storage : MemoryStorage, HandsOutInside api storage inet4Range inet6Range ↔
      StaysInside inet4Range ∧ StaysInside inet6Range) ∧
    (∀ {B E : Type} [Bolt B E] (cacheID : Bytes) (db : B),
      (∀ isIPv6, ∃ domain, (new cacheID db).fakeIPLoadDomain domain isIPv6 = none) →
      (HandsOutInside fileStorage (new cacheID db) inet4Range inet6Range ↔
        StaysInside inet4Range ∧ StaysInside inet6Range ∧
          (AllBuckets db ∨ HoldsInside fileStorage (new cacheID db) inet4Range inet6Range))) := by
  refine ⟨fun storage => ?_, fun cacheID db free => ?_⟩
  · have missing : ∀ domain isIPv6, api.loadDomain (api.reset storage) domain isIPv6 = none :=
      fun domain isIPv6 => by cases isIPv6 <;> rfl
    rw [handsOutInside_iff memory_lawful rfl (fun isIPv6 => ⟨[], missing [] isIPv6⟩) valid4
      is4 valid6 is6]
    have nothing : HoldsInside api (api.reset storage) inet4Range inet6Range := by
      intro domain isIPv6 address loads
      rw [missing] at loads
      cases loads
    simp only [nothing, and_true]
  · rcases fakeIPReset_left cacheID db with ⟨all, none⟩ | ⟨missing, kept⟩
    · rw [handsOutInside_iff file_lawful rfl (fun isIPv6 => ⟨[], none [] isIPv6⟩) valid4
        is4 valid6 is6]
      have nothing : HoldsInside fileStorage (fileStorage.reset (new cacheID db)) inet4Range
        inet6Range := by
        intro domain isIPv6 address loads
        cases (none domain isIPv6).symm.trans loads
      simp only [nothing, all, true_or]
    · have same : fileStorage.reset (new cacheID db) = new cacheID db := kept
      rw [handsOutInside_iff file_lawful rfl (by rw [same]; exact free) valid4 is4 valid6 is6, same]
      simp only [missing, false_or]

/-- `fc00::/18`. -/
def uniqueLocal : Prefix :=
  .prefixFrom (.v6 ⟨[0xfc, 0, 0, 0, 0, 0, 0, 0, 0, 0, 0, 0, 0, 0, 0, 0], rfl⟩ []) 18

/-- `172.16.0.0/12`. -/
def privateRange : Prefix := .prefixFrom (.v4 ⟨[172, 16, 0, 0], rfl⟩) 12

/-- The ranges `198.18.0.0/15` and `fc00::/18`, in memory and with an empty file. -/
theorem usualRanges_inside : StaysInside (.prefixFrom (benchmarkAddr 0) 15) ∧
    StaysInside uniqueLocal ∧
    HandsOutInside api {} (.prefixFrom (benchmarkAddr 0) 15) uniqueLocal ∧
    HandsOutInside fileStorage (new [] (Map.empty : Bucket))
    (.prefixFrom (benchmarkAddr 0) 15) uniqueLocal := by
  have inside4 : StaysInside (.prefixFrom (benchmarkAddr 0) 15) := .inr (by decide +kernel)
  have inside6 : StaysInside uniqueLocal := .inr (by decide +kernel)
  obtain ⟨memory, file⟩ :=
    @inRange_iff (.prefixFrom (benchmarkAddr 0) 15) uniqueLocal rfl rfl rfl rfl
  refine ⟨inside4, inside6, (memory {}).mpr ⟨inside4, inside6⟩,
    (file [] _ ?_).mpr ⟨inside4, inside6, .inr ?_⟩⟩
  · intro isIPv6
    exact ⟨[], by cases isIPv6 <;> rfl⟩
  · intro domain isIPv6 address loads
    cases isIPv6 <;> cases loads

/-- A file with one address of `198.18.0.0/15`. -/
def oldFile : CacheFile Bucket :=
  ((new [] Map.empty).fakeIPStore (benchmarkAddr 3) (utf8 "a.test")).2

/-- The range `198.18.0.1/32` has one address; the store hands out the second after it. A store for
`10.0.0.0/8` on a file with an address of `198.18.0.0/15` alone hands out that one. -/
theorem oneAddress_outside :
    (((start api
      { inet4Range := .prefixFrom (benchmarkAddr 1) 32, inet6Range := uniqueLocal,
        storage := {} }).create api (utf8 "a.test") false).1 = .ok (benchmarkAddr 3) ∧
      Prefix.contains (.prefixFrom (benchmarkAddr 1) 32) (benchmarkAddr 3) = false) ∧
    ((start fileStorage
      { inet4Range := privateRange, inet6Range := uniqueLocal, storage := oldFile }).create
        fileStorage (utf8 "a.test") false).1.toOption = some (benchmarkAddr 3) ∧
      privateRange.contains (benchmarkAddr 3) = false := by
  refine ⟨⟨?_, by decide +kernel⟩, by decide +kernel, by decide +kernel⟩
  have begins : first (.prefixFrom (benchmarkAddr 1) 32) = benchmarkAddr 3 := by decide +kernel
  have leaves : ¬ StaysInside (.prefixFrom (benchmarkAddr 1) 32) :=
    not_or.mpr ⟨by decide +kernel, by decide +kernel⟩
  have same : Prefix.prefixFrom (benchmarkAddr 1) 32 =
    if (false : Bool) then uniqueLocal else .prefixFrom (benchmarkAddr 1) 32 := rfl
  rw [← begins]
  exact (create_outside rfl rfl same rfl leaves).1

end AiboosterEngine.FakeIp
