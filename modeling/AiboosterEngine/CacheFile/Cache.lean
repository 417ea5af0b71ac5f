import AiboosterEngine.GoSem.Binary
import AiboosterEngine.GoSem.Bolt
import AiboosterEngine.GoSem.Netip

/-!
# The cache file

`experimental/cachefile/cache.go`: a `bbolt` database, with its buckets inside
one more bucket when the options give the cache an identifier. The saved
rule-sets and the other saved contents (the history of the monitoring, the WARP
profiles) are kept in one bucket, under tags of the configuration and of the
program.
-/

namespace AiboosterEngine
open GoSem Tx
open BoltOps (child value)

/-- `adapter.SavedBinary`. A time is saved as its seconds. -/
structure SavedBinary where
  content : Bytes
  lastUpdated : Int64
  lastEtag : Bytes
  deriving DecidableEq, Repr

namespace SavedBinary
variable (v : Varbin)

def marshalBinary (s : SavedBinary) : Bytes :=
  [1] ++ (v.write s.content ++ (bigEndian 8 s.lastUpdated.toUInt64.toNat ++ v.write s.lastEtag))

/-- The version is read and not looked at. -/
def unmarshalBinary : Reader String SavedBinary := do
  let _version ← readByte
  let content ← v.read
  let lastUpdated ← readUint64
  let lastEtag ← v.read
  return ⟨content, (UInt64.ofNat lastUpdated).toInt64, lastEtag⟩

theorem reads_marshalBinary {s : SavedBinary} (h : (s.marshalBinary v).length ≤ 2 ^ 48) :
    Reads (unmarshalBinary v) (s.marshalBinary v) s := by
  have sizes : s.content.length ≤ 2 ^ 48 ∧ s.lastEtag.length ≤ 2 ^ 48 := by
    have content := v.length_le s.content
    have lastEtag := v.length_le s.lastEtag
    simp only [marshalBinary, List.length_append] at h
    omega
  have time : (UInt64.ofNat s.lastUpdated.toUInt64.toNat).toInt64 = s.lastUpdated := by
    rw [UInt64.ofNat_toNat, Int64.toInt64_toUInt64]
  have last : Reads (do
      let lastEtag ← v.read
      return (⟨s.content, (UInt64.ofNat s.lastUpdated.toUInt64.toNat).toInt64,
        lastEtag⟩ : SavedBinary))
      (v.write s.lastEtag) s := by
    rw [time]
    exact (v.reads s.lastEtag sizes.2).map
  refine (reads_byte 1).bind ((v.reads s.content sizes.1).bind ((reads_uint64 ?_).bind last))
  exact s.lastUpdated.toUInt64.toNat_lt

end SavedBinary

structure CacheFile (B : Type) where
  /-- `nil` without an identifier. -/
  cacheID : Option Bytes
  named : cacheID ≠ some []
  db : B
  saveDomain : Map Addr Bytes := .empty
  saveAddress4 : Map Bytes Addr := .empty
  saveAddress6 : Map Bytes Addr := .empty

namespace CacheFile
variable {B E : Type}

/-- The part of `New` that names the bucket of the cache. -/
def cacheIDBytes (cacheID : Bytes) : Option Bytes :=
  if cacheID.isEmpty then none else some ([0] ++ cacheID)

/-- `New`, on a database that is open. -/
def new (cacheID : Bytes) (db : B) : CacheFile B where
  cacheID := cacheIDBytes cacheID
  named := by unfold cacheIDBytes; split <;> simp
  db

section
variable [BoltOps B E] (c : CacheFile B)

def bucket (key : Bytes) : Option B :=
  match c.cacheID with
  | none => child c.db key
  | some cacheID => (child c.db cacheID).bind (child · key)

/-- The bucket, and what is then done in it. -/
def createBucket {α : Type} (c : CacheFile B) (key : Bytes) (inside : Tx B E α) : Tx B E α :=
  match c.cacheID with
  | none => .createBucketIfNotExists key inside
  | some cacheID => .createBucketIfNotExists cacheID (.createBucketIfNotExists key inside)

def batch (tx : Tx B E Unit) : Except E Unit × CacheFile B :=
  ((tx.batch c.db).1, { c with db := (tx.batch c.db).2 })

def bucketRuleSet : Bytes := utf8 "rule_set"

variable (v : Varbin) (name tag : Bytes)

/-- The value under a tag, decoded; `nil` when there is none, when it is empty and when it cannot be
decoded. -/
def loadSaved : Partial String (Option SavedBinary) :=
  match (c.bucket name).bind (value · tag) with
  | none => some (.ok none)
  | some binary =>
    if binary.isEmpty then some (.ok none)
    else match SavedBinary.unmarshalBinary v binary with
      | some (.ok (saved, _)) => some (.ok (some saved))
      | some (.err _) => some (.ok none)
      | some .panicked => some .panicked
      | none => none

def saveSaved (set : SavedBinary) : Except E Unit × CacheFile B :=
  c.batch (c.createBucket name (.put tag (set.marshalBinary v)))

def loadRuleSet : Partial String (Option SavedBinary) := c.loadSaved v bucketRuleSet tag

def saveRuleSet (set : SavedBinary) : Except E Unit × CacheFile B :=
  c.saveSaved v bucketRuleSet tag set

def loadBinary : Partial String (Option SavedBinary) := c.loadSaved v bucketRuleSet tag

def saveBinary (set : SavedBinary) : Except E Unit × CacheFile B :=
  c.saveSaved v bucketRuleSet tag set

/-- What `createBucket` finds or makes: nothing when a value is in the place of a bucket. -/
def entries (name : Bytes) : Option B :=
  match c.cacheID with
  | none => opened c.db name
  | some cacheID => (opened c.db cacheID).bind (opened · name)

/-- The value can be put under the tag. -/
def Writable (name tag bytes : Bytes) : Prop :=
  ∃ entries, c.entries name = some entries ∧ Puttable entries tag bytes

/-- What a reader finds under a tag of a bucket. -/
def found : Option Bytes := (c.bucket name).bind (value · tag)

end

variable [Bolt B E] {c : CacheFile B} {v : Varbin} {name : Bytes}

theorem found_entries {entries : B} (h : c.entries name = some entries) (tag : Bytes) :
    c.found name tag = value entries tag := by
  have nothing := Bolt.value_empty (B := B) tag
  unfold CacheFile.entries at h
  unfold found bucket
  split at h
  · exact child_bind nothing h
  · rename_i cacheID _
    obtain ⟨top, there, inside⟩ := Option.bind_eq_some_iff.mp h
    have same : (child c.db cacheID).bind (child · name) = child top name :=
      child_bind (Bolt.child_empty name) there
    show ((child c.db cacheID).bind (child · name)).bind _ = _
    rw [same]
    exact child_bind nothing inside

/-- What was done in a bucket, and the buckets after it. -/
theorem createBucket_inv {α : Type} (named : name ≠ []) {inside : Tx B E α} {r : α × B}
    (h : c.createBucket name inside c.db = .ok r) :
    ∃ entries entries', c.entries name = some entries ∧ inside entries = .ok (r.1, entries') ∧
      ∀ name', bucket { c with db := r.2 } name' = if name' = name then some entries'
        else c.bucket name' := by
  unfold createBucket at h
  unfold CacheFile.entries bucket
  rcases Option.eq_none_or_eq_some c.cacheID with id | ⟨cacheID, id⟩
  · simp only [id] at h ⊢
    obtain ⟨entries, entries', there, ran, _, children⟩ := Tx.createBucket_inv named h
    exact ⟨entries, entries', there, ran, children⟩
  · simp only [id] at h ⊢
    have named' : cacheID ≠ [] := fun empty => c.named (empty ▸ id)
    obtain ⟨top, top', above, ranTop, _, children⟩ := Tx.createBucket_inv named' h
    obtain ⟨entries, entries', there, ran, _, inTop⟩ := Tx.createBucket_inv named ranTop
    refine ⟨entries, entries', by rw [above]; exact there, ran, fun name' => ?_⟩
    have before : (child c.db cacheID).bind (child · name') = child top name' :=
      child_bind (Bolt.child_empty name') above
    rw [before, children, if_pos rfl, Option.bind_some, inTop]

theorem createBucket_ok {α : Type} (named : name ≠ []) {inside : Tx B E α} {entries : B} {p : α × B}
    (there : c.entries name = some entries) (h : inside entries = .ok p) :
    ∃ db, c.createBucket name inside c.db = .ok (p.1, db) := by
  unfold CacheFile.entries at there
  unfold createBucket
  split at there
  · rename_i none
    simp only [none]
    exact Tx.createBucket_ok named there h
  · rename_i cacheID some
    simp only [some]
    obtain ⟨top, above, there⟩ := Option.bind_eq_some_iff.mp there
    obtain ⟨top', done⟩ := Tx.createBucket_ok named there h
    exact Tx.createBucket_ok (p := (p.1, top')) (fun empty => c.named (empty ▸ some)) above done

/-- A write is taken, and what is found under its tag is what was written, with all the rest as it
was; or it is refused, and the cache file is as it was. -/
theorem write_cases (c : CacheFile B) (named : name ≠ []) (tag bytes : Bytes) :
    (c.Writable name tag bytes ∧ ∃ db, c.batch (c.createBucket name (.put tag bytes)) =
      (.ok (), { c with db }) ∧
      ∀ name' tag', found { c with db } name' tag' =
        if name' = name ∧ tag' = tag then some bytes else c.found name' tag') ∨
    (¬ c.Writable name tag bytes ∧ ∃ e, c.batch (c.createBucket name (.put tag bytes)) =
      (.error e, c)) := by
  cases done : c.createBucket name (.put tag bytes) c.db with
  | ok r =>
    obtain ⟨entries, entries', there, ran, after⟩ := createBucket_inv named done
    obtain ⟨_, values⟩ := put_seen ran
    have puttable : Puttable entries tag bytes := by
      apply Classical.byContradiction
      intro refused
      obtain ⟨e, failed⟩ := put_error refused
      cases ran.symm.trans failed
    refine .inl ⟨⟨entries, there, puttable⟩, r.2, ?_, fun name' tag' => ?_⟩
    · rw [batch, batch_ok done]
    · rw [found, after]
      by_cases same : name' = name
      · grind [found_entries]
      · rw [if_neg same, if_neg fun h => same h.1]
        rfl
  | error e =>
    refine .inr ⟨?_, e, by rw [batch, batch_error done]⟩
    rintro ⟨entries, there, puttable⟩
    obtain ⟨entries', put⟩ := put_ok puttable
    obtain ⟨db, written⟩ := createBucket_ok named there put
    cases done.symm.trans written

theorem loadSaved_congr {c' : CacheFile B} {tag : Bytes}
    (h : c'.found name tag = c.found name tag) :
    c'.loadSaved v name tag = c.loadSaved v name tag := by
  unfold found at h
  rw [loadSaved, loadSaved, h]

theorem loadSaved_found {tag : Bytes} {set : SavedBinary}
    (h : c.found name tag = some (set.marshalBinary v))
    (size : (set.marshalBinary v).length ≤ maxValueSize) :
    c.loadSaved v name tag = some (.ok (some set)) := by
  have short : (set.marshalBinary v).length ≤ 2 ^ 48 := by
    unfold maxValueSize at size
    omega
  have read := SavedBinary.reads_marshalBinary v short []
  rw [List.append_nil] at read
  have there : ¬ (set.marshalBinary v).isEmpty = true := by
    rw [SavedBinary.marshalBinary]
    simp
  unfold found at h
  simp only [loadSaved, h, if_neg there, read]

theorem loadSaved_saveSaved_iff (c : CacheFile B) (named : name ≠ []) (a b : Bytes)
    (set : SavedBinary) :
    (c.saveSaved v name a set).2.loadSaved v name b = c.loadSaved v name b ↔
      a ≠ b ∨ ¬ c.Writable name a (set.marshalBinary v) ∨
        c.loadSaved v name b = some (.ok (some set)) := by
  rcases write_cases c named a (set.marshalBinary v)
    with ⟨writable, db, done, after⟩ | ⟨refused, e, done⟩
  · rw [saveSaved, done]
    by_cases same : a = b
    · subst same
      have size : (set.marshalBinary v).length ≤ maxValueSize := by
        obtain ⟨_, _, puttable⟩ := writable
        exact puttable.valueSize
      have now : loadSaved { c with db } v name a = some (.ok (some set)) := by
        refine loadSaved_found ?_ size
        rw [after, if_pos ⟨rfl, rfl⟩]
      rw [now]
      constructor
      · intro kept
        exact .inr (.inr kept.symm)
      · grind
    · refine ⟨fun _ => .inl same, fun _ => loadSaved_congr ?_⟩
      rw [after, if_neg fun h => same h.2.symm]
  · rw [saveSaved, done]
    exact ⟨fun _ => .inr (.inl refused), fun _ => rfl⟩

theorem bucketRuleSet_named : bucketRuleSet ≠ [] := by decide

/-- **A save of one kind and a load of the other.** A rule-set is loaded as before after another
content has been saved, and the other way round, exactly when the tags differ, the save is refused,
or the content is the one that was there. -/
theorem save_load_iff (v : Varbin) (c : CacheFile B) (a b : Bytes) (x y : SavedBinary) :
    ((c.saveBinary v a x).2.loadRuleSet v b = c.loadRuleSet v b ↔
      a ≠ b ∨ ¬ c.Writable bucketRuleSet a (x.marshalBinary v) ∨
        c.loadRuleSet v b = some (.ok (some x))) ∧
    ((c.saveRuleSet v b y).2.loadBinary v a = c.loadBinary v a ↔
      a ≠ b ∨ ¬ c.Writable bucketRuleSet b (y.marshalBinary v) ∨
        c.loadBinary v a = some (.ok (some y))) := by
  constructor
  · exact loadSaved_saveSaved_iff c bucketRuleSet_named a b x
  · rw [ne_comm]
    exact loadSaved_saveSaved_iff c bucketRuleSet_named b a y

def monitoringKey : Bytes := utf8 "outbound_monitoring_history"

def monitored : CacheFile Bucket :=
  ((CacheFile.new [] Map.empty).saveBinary varBytes monitoringKey ⟨utf8 "history", 0, []⟩).2

/-- A rule-set with the tag of the history takes its place. -/
theorem history_overwritten :
    monitored.loadBinary varBytes monitoringKey = some (.ok (some ⟨utf8 "history", 0, []⟩)) ∧
    (monitored.saveRuleSet varBytes monitoringKey ⟨utf8 "rules", 0, []⟩).2.loadBinary varBytes
      monitoringKey = some (.ok (some ⟨utf8 "rules", 0, []⟩)) := by
  constructor <;> decide +kernel

end CacheFile

end AiboosterEngine
