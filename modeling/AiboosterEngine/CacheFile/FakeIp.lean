import AiboosterEngine.CacheFile.Cache
import AiboosterEngine.FakeIp.Store

/-!
# Fake addresses in the cache file

`experimental/cachefile/fakeip.go`: what the storage in memory keeps in three maps
is kept in three buckets, each made when it is first written to. A reset deletes
the three in one transaction, which fails as a whole when one of them is missing
(`fakeIPReset_cases`).
-/

namespace AiboosterEngine.CacheFile
open GoSem Tx
open BoltOps (child value)

def fakeipBucketPrefix : Bytes := utf8 "fakeip_"

def bucketFakeIP : Bytes := fakeipBucketPrefix ++ utf8 "address"

def bucketFakeIPDomain4 : Bytes := fakeipBucketPrefix ++ utf8 "domain4"

def bucketFakeIPDomain6 : Bytes := fakeipBucketPrefix ++ utf8 "domain6"

def bucketFakeIPDomain (isIPv6 : Bool) : Bytes :=
  if isIPv6 then bucketFakeIPDomain6 else bucketFakeIPDomain4

variable {B E : Type}

section
variable [BoltOps B E] (c : CacheFile B)

/-- The domain that had the address loses it, in the bucket of the family. -/
def fakeIPStore (address : Addr) (domain : Bytes) : Except E Unit × CacheFile B :=
  c.batch do
    let oldDomain ← .createBucketIfNotExists bucketFakeIP do
      let oldDomain ← get address.asSlice
      put address.asSlice domain
      return oldDomain
    .createBucketIfNotExists (bucketFakeIPDomain !address.is4) do
      oldDomain.forM delete
      put domain address.asSlice

def fakeIPLoad (address : Addr) : Option Bytes :=
  match c.saveDomain.get address with
  | some cachedDomain => some cachedDomain
  | none =>
    let domain := ((child c.db bucketFakeIP).bind (value · address.asSlice)).getD []
    if domain.isEmpty then none else some domain

def fakeIPLoadDomain (domain : Bytes) (isIPv6 : Bool) : Option Addr :=
  match (if !isIPv6 then c.saveAddress4.get domain else c.saveAddress6.get domain) with
  | some cachedAddress => some cachedAddress
  | none =>
    let address :=
      Addr.fromSlice (((child c.db (bucketFakeIPDomain isIPv6)).bind (value · domain)).getD [])
    if address.isValid then some address else none

def fakeIPReset : Except E Unit × CacheFile B :=
  c.batch do
    deleteBucket bucketFakeIP
    deleteBucket bucketFakeIPDomain4
    deleteBucket bucketFakeIPDomain6

/-- The cache file as the storage of a store. The metadata is kept beside it. -/
def fileStorage : FakeIp.FakeIPStorage (CacheFile B) where
  metadata _ := none
  saveMetadata c _ := c
  reset c := c.fakeIPReset.2
  store c address domain := (c.fakeIPStore address domain).2
  load := fakeIPLoad
  loadDomain := fakeIPLoadDomain

/-- The bytes of the address of a domain. -/
def record (db : B) (isIPv6 : Bool) (domain : Bytes) : Option Bytes :=
  (child db (bucketFakeIPDomain isIPv6)).bind (value · domain)

/-- The three buckets are there. -/
def AllBuckets (db : B) : Prop :=
  (child db bucketFakeIP).isSome = true ∧ ∀ isIPv6,
    (child db (bucketFakeIPDomain isIPv6)).isSome = true

end

theorem bucketFakeIPDomain_named (isIPv6 : Bool) : bucketFakeIPDomain isIPv6 ≠ [] := by
  cases isIPv6 <;> decide

theorem bucketFakeIPDomain_ne (isIPv6 : Bool) : bucketFakeIPDomain isIPv6 ≠ bucketFakeIP := by
  cases isIPv6 <;> decide

theorem bucketFakeIPDomain_inj {isIPv6 isIPv6' : Bool}
    (h : bucketFakeIPDomain isIPv6 = bucketFakeIPDomain isIPv6') : isIPv6 = isIPv6' := by
  revert h
  cases isIPv6 <;> cases isIPv6' <;> decide

variable [Bolt B E]

/-- After the old domain is gone from a bucket, and the new one is there. -/
theorem storeDomain_seen {entries : B} {oldDomain : Option Bytes} {domain bytes : Bytes}
    {r : Unit × B}
    (h : (do oldDomain.forM delete; put domain bytes : Tx B E Unit) entries = .ok r)
    (domain' : Bytes) {found : Bytes}
    (there : value r.2 domain' = some found) :
      value entries domain' = some found ∨ found = bytes := by
  obtain ⟨_, mid, deleted, written⟩ := bind_inv h
  have kept : value mid domain' = some found → value entries domain' = some found := by
    cases oldDomain with
    | none =>
      cases deleted
      exact id
    | some oldDomain =>
      intro there
      rw [(delete_seen deleted).2] at there
      split at there
      · cases there
      · exact there
  rw [(put_seen written).2] at there
  split at there
  · exact .inr (Option.some.inj there).symm
  · exact .inl (kept there)

/-- A store is refused, or gives its address to a domain of the family and no other to any. -/
theorem fakeIPStore_cases (c : CacheFile B) (address : Addr) (domain : Bytes) :
    (c.fakeIPStore address domain).2 = c ∨ ∃ db, (c.fakeIPStore address domain).2 = { c with db } ∧
      ∀ isIPv6 domain' found, record db isIPv6 domain' = some found →
        record c.db isIPv6 domain' = some found ∨
          (found = address.asSlice ∧ isIPv6 = !address.is4) := by
  unfold fakeIPStore batch
  cases done : (do
      let oldDomain ← createBucketIfNotExists bucketFakeIP do
        let oldDomain ← get address.asSlice
        put address.asSlice domain
        return oldDomain
      createBucketIfNotExists (bucketFakeIPDomain !address.is4) do
        oldDomain.forM delete
        put domain address.asSlice : Tx B E Unit) c.db with
  | error e =>
    rw [batch_error done]
    exact .inl rfl
  | ok r =>
    obtain ⟨oldDomain, middle, stored, named⟩ := bind_inv done
    obtain ⟨_, _, _, _, _, first⟩ := Tx.createBucket_inv (by decide) stored
    obtain ⟨entries, entries', there, ran, _, second⟩ :=
      Tx.createBucket_inv (bucketFakeIPDomain_named _) named
    rw [batch_ok done]
    refine .inr ⟨r.2, rfl, fun isIPv6 domain' found => ?_⟩
    unfold record
    rw [second]
    split
    · rename_i same
      obtain rfl := bucketFakeIPDomain_inj same
      have before : (child middle (bucketFakeIPDomain !address.is4)).bind (value · domain') =
        value entries domain' :=
        child_bind (Bolt.value_empty domain') there
      rw [first, if_neg (bucketFakeIPDomain_ne _)] at before
      rw [before]
      intro now
      exact (storeDomain_seen ran domain' now).imp_right fun new => ⟨new, rfl⟩
    · rw [first, if_neg (bucketFakeIPDomain_ne _)]
      exact .inl

/-- A reset deletes the three buckets, or leaves them when one is missing. -/
theorem fakeIPReset_cases (c : CacheFile B) :
    (AllBuckets c.db ∧ ∃ db, c.fakeIPReset.2 = { c with db } ∧
      ∀ isIPv6, child db (bucketFakeIPDomain isIPv6) = none) ∨
    (¬ AllBuckets c.db ∧ c.fakeIPReset.2 = c) := by
  unfold fakeIPReset batch
  cases done : (do
      deleteBucket bucketFakeIP
      deleteBucket bucketFakeIPDomain4
      deleteBucket bucketFakeIPDomain6 : Tx B E Unit) c.db with
  | ok r =>
    obtain ⟨_, db1, first, rest⟩ := bind_inv done
    obtain ⟨_, db2, second, third⟩ := bind_inv rest
    obtain ⟨there, seen1⟩ := deleteBucket_inv first
    obtain ⟨there4, seen2⟩ := deleteBucket_inv second
    obtain ⟨there6, seen3⟩ := deleteBucket_inv third
    rw [seen1, if_neg (by decide)] at there4
    rw [seen2, if_neg (by decide), seen1, if_neg (by decide)] at there6
    refine .inl ⟨⟨there, fun isIPv6 => ?_⟩, r.2, by rw [batch_ok done], fun isIPv6 => ?_⟩
    · cases isIPv6
      · exact there4
      · exact there6
    · rw [seen3, seen2]
      cases isIPv6 <;> simp [bucketFakeIPDomain]
  | error e =>
    refine .inr ⟨?_, by rw [batch_error done]⟩
    rintro ⟨there, domains⟩
    obtain ⟨db1, first⟩ := deleteBucket_ok there
    have seen1 := (deleteBucket_inv first).2
    obtain ⟨db2, second⟩ : ∃ db2, deleteBucket bucketFakeIPDomain4 db1 = .ok ((), db2) := by
      apply deleteBucket_ok
      rw [seen1, if_neg (by decide)]
      exact domains false
    have seen2 := (deleteBucket_inv second).2
    obtain ⟨db3, third⟩ : ∃ db3, deleteBucket bucketFakeIPDomain6 db2 = .ok ((), db3) := by
      apply deleteBucket_ok
      rw [seen2, if_neg (by decide), seen1, if_neg (by decide)]
      exact domains true
    rw [bind_ok _ first, bind_ok _ second, third] at done
    cases done

end AiboosterEngine.CacheFile
