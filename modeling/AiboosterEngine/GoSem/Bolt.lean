import AiboosterEngine.GoSem.Map
import AiboosterEngine.GoSem.Text
import Mathlib.Algebra.Group.Nat.Defs

/-!
# `bbolt`

The library as its callers see it: what a bucket shows, and what each operation does
to that. The root of a database is a bucket. A transaction that writes works on the
whole of it and ends with an error or with a new database; an error leaves the
database as it was. `Bucket` is a tree that has the laws.
-/

namespace GoSem

def maxKeySize : Nat := 32768

def maxValueSize : Nat := 2 ^ 31 - 2

/-- The operations on a bucket. -/
class BoltOps (B : Type) (E : outParam Type) where
  empty : B
  /-- `Bucket(name)`. -/
  child : B → Bytes → Option B
  /-- `Get(key)`, which is `nil` for a bucket. -/
  value : B → Bytes → Option Bytes
  put : B → Bytes → Bytes → Except E B
  delete : B → Bytes → Except E B
  createBucketIfNotExists : B → Bytes → Except E B
  deleteBucket : B → Bytes → Except E B
  /-- A bucket after something has been done in one of its own. -/
  replace : B → Bytes → B → B
  /-- `Update` and `Batch`. -/
  batch : B → (B → Except E B) → Except E Unit × B

open BoltOps (child value)

section
variable {B E : Type} [BoltOps B E]

/-- What `Put` takes: a key that is there and not too long, a value that is not too long, and no
bucket in its place. -/
structure Puttable (b : B) (key bytes : Bytes) : Prop where
  keyed : key ≠ []
  keySize : key.length ≤ maxKeySize
  valueSize : bytes.length ≤ maxValueSize
  noBucket : child b key = none

/-- The same buckets are inside. -/
def SameBuckets (b b' : B) : Prop := ∀ name, child b' name = child b name

def SameValues (b b' : B) : Prop := ∀ key, value b' key = value b key

end

open BoltOps in
/-- What is seen after an operation, and when it fails. -/
class Bolt (B : Type) (E : outParam Type) extends BoltOps B E where
  child_empty : ∀ name, child (empty : B) name = none
  value_empty : ∀ key, value (empty : B) key = none
  child_of_value : ∀ (b : B) key bytes, value b key = some bytes → child b key = none
  put_iff : ∀ (b : B) key bytes, (∃ b', put b key bytes = .ok b') ↔ Puttable b key bytes
  put_seen : ∀ (b b' : B) key bytes, put b key bytes = .ok b' → SameBuckets b b' ∧
    ∀ key', value b' key' = if key' = key then some bytes else value b key'
  /-- Deleting what is not there is no error. -/
  delete_ok : ∀ (b : B) key, child b key = none → ∃ b', delete b key = .ok b'
  delete_seen : ∀ (b b' : B) key, delete b key = .ok b' → SameBuckets b b' ∧
    ∀ key', value b' key' = if key' = key then none else value b key'
  create_iff : ∀ (b : B) name, name ≠ [] →
    ((∃ b', createBucketIfNotExists b name = .ok b') ↔ value b name = none)
  create_seen : ∀ (b b' : B) name, createBucketIfNotExists b name = .ok b' → SameValues b b' ∧
    ∀ name', child b' name' = if name' = name then some ((child b name).getD empty)
      else child b name'
  deleteBucket_iff : ∀ (b : B) name, (∃ b', deleteBucket b name = .ok b') ↔
    (child b name).isSome = true
  deleteBucket_seen : ∀ (b b' : B) name, deleteBucket b name = .ok b' → SameValues b b' ∧
    ∀ name', child b' name' = if name' = name then none else child b name'
  child_replace : ∀ (b entries : B) name, (child b name).isSome = true →
    ∀ name', child (replace b name entries) name' = if name' = name then some entries
      else child b name'
  value_replace : ∀ (b entries : B) name, (child b name).isSome = true →
    SameValues b (replace b name entries)
  batch_ok : ∀ (db db' : B) tx, tx db = .ok db' → batch db tx = (.ok (), db')
  batch_error : ∀ (db : B) tx e, tx db = .error e → batch db tx = (.error e, db)

/-- What is done in a transaction, or in a bucket of it. -/
abbrev Tx (B E : Type) := StateT B (Except E)

section
variable {B E α β : Type}

/-- The bucket under a name, empty if there is none; nothing under the key of a value. -/
def opened [BoltOps B E] (b : B) (name : Bytes) : Option B :=
  if (value b name).isSome then none else some ((child b name).getD BoltOps.empty)

/-- A read that finds nothing in an empty bucket finds nothing in one that is not there. -/
theorem child_bind [BoltOps B E] {b entries : B} {name : Bytes} {read : B → Option α}
    (nothing : read BoltOps.empty = none) (h : opened b name = some entries) :
    (child b name).bind read = read entries := by
  unfold opened at h
  split at h
  · cases h
  · cases h
    cases child b name with
    | none => exact nothing.symm
    | some entries => rfl

namespace Tx

theorem bind_ok {x : Tx B E α} (f : α → Tx B E β) {b b' : B} {a : α} (h : x b = .ok (a, b')) :
    (x >>= f) b = f a b' := by
  show (x b >>= fun p => f p.1 p.2) = _
  rw [h]
  rfl

theorem bind_inv {x : Tx B E α} {f : α → Tx B E β} {b : B} {r : β × B} (h : (x >>= f) b = .ok r) :
    ∃ a b', x b = .ok (a, b') ∧ f a b' = .ok r := by
  change (x b >>= fun p => f p.1 p.2) = _ at h
  cases first : x b with
  | error e =>
    rw [first] at h
    cases h
  | ok p =>
    rw [first] at h
    exact ⟨p.1, p.2, rfl, h⟩

section
variable [BoltOps B E]

def get (key : Bytes) : Tx B E (Option Bytes) := fun b => .ok (value b key, b)

def put (key bytes : Bytes) : Tx B E Unit := fun b => (BoltOps.put b key bytes).map ((), ·)

def delete (key : Bytes) : Tx B E Unit := fun b => (BoltOps.delete b key).map ((), ·)

/-- The bucket is found or made, and something is then done in it. -/
def createBucketIfNotExists (name : Bytes) (inside : Tx B E α) : Tx B E α := fun b => do
  let b ← BoltOps.createBucketIfNotExists b name
  let (a, entries) ← inside ((child b name).getD BoltOps.empty)
  return (a, BoltOps.replace b name entries)

def deleteBucket (name : Bytes) : Tx B E Unit := fun b => (BoltOps.deleteBucket b name).map ((), ·)

def batch (tx : Tx B E Unit) (db : B) : Except E Unit × B :=
  BoltOps.batch db fun b => (tx b).map Prod.snd

end

variable [Bolt B E] {b : B} {e : E} {name : Bytes} {inside : Tx B E α}
  {tx : Tx B E Unit} {db db' : B}

theorem batch_ok (h : tx db = .ok ((), db')) : batch tx db = (.ok (), db') := by
  apply Bolt.batch_ok
  rw [h]
  rfl

theorem batch_error (h : tx db = .error e) : batch tx db = (.error e, db) := by
  apply Bolt.batch_error
  rw [h]
  rfl

omit [Bolt B E] in
/-- An operation on a bucket gives nothing but the bucket. -/
theorem map_inv {x : Except E B} {r : Unit × B} (h : x.map ((), ·) = .ok r) : x = .ok r.2 := by
  cases x with
  | error e => cases h
  | ok b =>
    cases h
    rfl

theorem put_seen {key bytes : Bytes} {r : Unit × B} (h : put key bytes b = .ok r) :
    SameBuckets b r.2 ∧ ∀ key', value r.2 key' = if key' = key then some bytes else value b key' :=
  Bolt.put_seen b r.2 key bytes (map_inv h)

theorem put_ok {key bytes : Bytes} (h : Puttable b key bytes) :
    ∃ b', put key bytes b = .ok ((), b') := by
  obtain ⟨b', done⟩ := (Bolt.put_iff b key bytes).mpr h
  exact ⟨b', by rw [put, done]; rfl⟩

theorem put_error {key bytes : Bytes} (h : ¬ Puttable b key bytes) :
    ∃ e, put key bytes b = .error e := by
  cases done : BoltOps.put b key bytes with
  | ok b' => exact absurd ((Bolt.put_iff b key bytes).mp ⟨b', done⟩) h
  | error e => exact ⟨e, by rw [put, done]; rfl⟩

theorem delete_seen {key : Bytes} {r : Unit × B} (h : delete key b = .ok r) :
    SameBuckets b r.2 ∧ ∀ key', value r.2 key' = if key' = key then none else value b key' :=
  Bolt.delete_seen b r.2 key (map_inv h)

theorem deleteBucket_inv {r : Unit × B} (h : deleteBucket name b = .ok r) :
    (child b name).isSome = true ∧
      ∀ name', child r.2 name' = if name' = name then none else child b name' := by
  have done : BoltOps.deleteBucket b name = .ok r.2 := map_inv h
  exact ⟨(Bolt.deleteBucket_iff b name).mp ⟨_, done⟩, (Bolt.deleteBucket_seen b _ name done).2⟩

theorem deleteBucket_ok (h : (child b name).isSome = true) :
    ∃ b', deleteBucket name b = .ok ((), b') := by
  obtain ⟨b', done⟩ := (Bolt.deleteBucket_iff b name).mpr h
  exact ⟨b', by rw [deleteBucket, done]; rfl⟩

theorem createBucket_made {made entries : B}
    (done : BoltOps.createBucketIfNotExists b name = .ok made)
    (here : child made name = some entries) :
    createBucketIfNotExists name inside b =
      (inside entries).map fun (a, entries) => (a, BoltOps.replace made name entries) := by
  rw [createBucketIfNotExists, done]
  show (inside ((child made name).getD BoltOps.empty) >>= _) = _
  rw [here, Option.getD_some]
  cases inside entries <;> rfl

theorem createBucket_seen {made entries entries' : B}
    (done : BoltOps.createBucketIfNotExists b name = .ok made)
    (here : child made name = some entries) :
    SameValues b (BoltOps.replace made name entries') ∧
      ∀ name', child (BoltOps.replace made name entries') name' =
        if name' = name then some entries' else child b name' := by
  obtain ⟨values, children⟩ := Bolt.create_seen b made name done
  have isSome : (child made name).isSome = true := by rw [here]; rfl
  refine ⟨fun key => ?_, fun name' => ?_⟩
  · rw [Bolt.value_replace made entries' name isSome, values]
  · rw [Bolt.child_replace made entries' name isSome, children]
    by_cases same : name' = name
    · rw [if_pos same, if_pos same]
    · rw [if_neg same, if_neg same, if_neg same]

/-- What was done in a bucket, seen from the one it is in. -/
theorem createBucket_inv {r : α × B} (named : name ≠ [])
    (h : createBucketIfNotExists name inside b = .ok r) :
    ∃ entries entries', opened b name = some entries ∧ inside entries = .ok (r.1, entries') ∧
      SameValues b r.2 ∧ ∀ name', child r.2 name' = if name' = name then some entries'
        else child b name' := by
  cases done : BoltOps.createBucketIfNotExists b name with
  | error e =>
    rw [createBucketIfNotExists, done] at h
    cases h
  | ok made =>
    have free := (Bolt.create_iff b name named).mp ⟨made, done⟩
    have here : child made name = some ((child b name).getD BoltOps.empty) := by
      rw [(Bolt.create_seen b made name done).2, if_pos rfl]
    rw [createBucket_made done here] at h
    cases ran : inside ((child b name).getD BoltOps.empty) with
    | error e =>
      rw [ran] at h
      cases h
    | ok p =>
      rw [ran] at h
      cases h
      exact ⟨_, p.2, by rw [opened, free]; rfl, ran, createBucket_seen done here⟩

theorem createBucket_ok {entries : B} {p : α × B} (named : name ≠ [])
    (there : opened b name = some entries)
    (h : inside entries = .ok p) : ∃ b', createBucketIfNotExists name inside b = .ok (p.1, b') := by
  unfold opened at there
  split at there
  · cases there
  · rename_i free
    obtain ⟨made, done⟩ := (Bolt.create_iff b name named).mpr (by simpa using free)
    have here : child made name = some entries := by
      rw [(Bolt.create_seen b made name done).2, if_pos rfl, there]
    refine ⟨BoltOps.replace made name p.2, ?_⟩
    rw [createBucket_made done here, h]
    rfl

end Tx

end

inductive BoltError where
  | bucketNotFound
  | bucketNameRequired
  | incompatibleValue
  | keyRequired
  | keyTooLarge
  | valueTooLarge
  deriving DecidableEq, Repr

/-- What a bucket holds under a key. -/
inductive Node where
  | value (bytes : Bytes)
  | bucket (entries : Map Bytes Node)

abbrev Bucket := Map Bytes Node

namespace Bucket

def child (b : Bucket) (name : Bytes) : Option Bucket :=
  match b.get name with
  | some (.bucket entries) => some entries
  | _ => none

def value (b : Bucket) (key : Bytes) : Option Bytes :=
  match b.get key with
  | some (.value bytes) => some bytes
  | _ => none

def put (b : Bucket) (key bytes : Bytes) : Except BoltError Bucket :=
  if key.isEmpty then .error .keyRequired
  else if maxKeySize < key.length then .error .keyTooLarge
  else if maxValueSize < bytes.length then .error .valueTooLarge
  else if (b.child key).isSome then .error .incompatibleValue
  else .ok (b.set key (.value bytes))

def delete (b : Bucket) (key : Bytes) : Except BoltError Bucket :=
  if (b.child key).isSome then .error .incompatibleValue else .ok (Map.delete b key)

def createBucketIfNotExists (b : Bucket) (name : Bytes) : Except BoltError Bucket :=
  if name.isEmpty then .error .bucketNameRequired
  else if (b.value name).isSome then .error .incompatibleValue
  else .ok (b.set name (.bucket ((b.child name).getD .empty)))

def deleteBucket (b : Bucket) (name : Bytes) : Except BoltError Bucket :=
  if (b.child name).isSome then .ok (Map.delete b name)
  else if (b.value name).isSome then .error .incompatibleValue
  else .error .bucketNotFound

def batch (db : Bucket) (tx : Bucket → Except BoltError Bucket) : Except BoltError Unit × Bucket :=
  match tx db with
  | .ok db => (.ok (), db)
  | .error e => (.error e, db)

instance : BoltOps Bucket BoltError where
  empty := .empty
  child
  value
  put
  delete
  createBucketIfNotExists
  deleteBucket
  replace b name entries := b.set name (.bucket entries)
  batch

variable (b : Bucket) (name name' : Bytes)

theorem child_set (entries : Bucket) :
    child (b.set name (.bucket entries)) name' = if name' = name then some entries
      else b.child name' := by
  by_cases same : name' = name <;> simp [child, same]

theorem value_set_bucket (entries : Bucket) (free : b.value name = none) :
    value (b.set name (.bucket entries)) name' = b.value name' := by
  by_cases same : name' = name
  · subst same
    rw [free]
    simp [value]
  · simp [value, same]

theorem value_set (key bytes : Bytes) :
    value (b.set key (.value bytes)) name = if name = key then some bytes else b.value name := by
  by_cases same : name = key <;> simp [value, same]

theorem child_set_value (key bytes : Bytes) (free : b.child key = none) :
    child (b.set key (.value bytes)) name = b.child name := by
  by_cases same : name = key
  · subst same
    rw [free]
    simp [child]
  · simp [child, same]

theorem child_delete : child (Map.delete b name) name' = if name' = name then none
    else b.child name' := by
  by_cases same : name' = name <;> simp [child, same]

theorem value_delete : value (Map.delete b name) name' = if name' = name then none
    else b.value name' := by
  by_cases same : name' = name <;> simp [value, same]

theorem child_of_value {b : Bucket} {name bytes : Bytes} (h : b.value name = some bytes) :
    b.child name = none := by
  unfold value at h
  unfold child
  split <;> simp_all

theorem value_of_child {b : Bucket} {name : Bytes} (h : (b.child name).isSome = true) :
    b.value name = none := by
  cases here : b.value name with
  | none => rfl
  | some bytes => simp [child_of_value here] at h

/-- A key whose entry goes had no bucket, or no value. -/
theorem ite_none {α : Type} {at_ : Bytes → Option α} (free : at_ name = none) :
    (if name' = name then none else at_ name') = at_ name' := by
  by_cases same : name' = name
  · rw [if_pos same, same, free]
  · rw [if_neg same]

theorem put_eq_ok {b b' : Bucket} {key bytes : Bytes} : b.put key bytes = .ok b' ↔
    Puttable b key bytes ∧ b.set key (.value bytes) = b' := by
  unfold put
  constructor
  · intro done
    split at done
    · cases done
    · split at done
      · cases done
      · split at done
        · cases done
        · split at done
          · cases done
          · rename_i keyed keySize valueSize free
            refine ⟨⟨by simpa using keyed, by omega, by omega,
              Option.not_isSome_iff_eq_none.mp free⟩, ?_⟩
            exact Except.ok.inj done
  · rintro ⟨h, rfl⟩
    have free : b.child key = none := h.noBucket
    have keyed : ¬ key.isEmpty = true := by simpa using h.keyed
    simp only [free, if_neg keyed, if_neg (Nat.not_lt.mpr h.keySize),
      if_neg (Nat.not_lt.mpr h.valueSize)]
    rfl

theorem delete_eq_ok {b b' : Bucket} {key : Bytes} : b.delete key = .ok b' ↔
    b.child key = none ∧ Map.delete b key = b' := by
  unfold delete
  cases b.child key <;> simp

theorem createBucketIfNotExists_eq_ok {b b' : Bucket} {name : Bytes} :
    b.createBucketIfNotExists name = .ok b' ↔
    name ≠ [] ∧ b.value name = none ∧ b.set name (.bucket ((b.child name).getD .empty)) = b' := by
  unfold createBucketIfNotExists
  cases name <;> cases b.value _ <;> simp

theorem deleteBucket_eq_ok {b b' : Bucket} {name : Bytes} : b.deleteBucket name = .ok b' ↔
    (b.child name).isSome = true ∧ Map.delete b name = b' := by
  unfold deleteBucket
  cases b.child name <;> cases b.value name <;> simp

instance : Bolt Bucket BoltError where
  child_empty _ := rfl
  value_empty _ := rfl
  child_of_value _ _ _ := child_of_value
  put_iff b key bytes :=
    ⟨fun ⟨_, done⟩ => (put_eq_ok.mp done).1, fun h => ⟨_, put_eq_ok.mpr ⟨h, rfl⟩⟩⟩
  put_seen b b' key bytes done := by
    obtain ⟨h, rfl⟩ := put_eq_ok.mp done
    exact ⟨fun name => child_set_value b name key bytes h.noBucket,
      fun key' => value_set b key' key bytes⟩
  delete_ok b key free := ⟨_, delete_eq_ok.mpr ⟨free, rfl⟩⟩
  delete_seen b b' key done := by
    obtain ⟨free, rfl⟩ := delete_eq_ok.mp done
    exact ⟨fun name => (child_delete b key name).trans (ite_none key name free), value_delete b key⟩
  create_iff b name named := ⟨fun ⟨_, done⟩ => (createBucketIfNotExists_eq_ok.mp done).2.1,
    fun free => ⟨_, createBucketIfNotExists_eq_ok.mpr ⟨named, free, rfl⟩⟩⟩
  create_seen b b' name done := by
    obtain ⟨_, free, rfl⟩ := createBucketIfNotExists_eq_ok.mp done
    exact ⟨fun key => value_set_bucket b name key _ free, fun name' => child_set b name name' _⟩
  deleteBucket_iff b name := ⟨fun ⟨_, done⟩ => (deleteBucket_eq_ok.mp done).1,
    fun there => ⟨_, deleteBucket_eq_ok.mpr ⟨there, rfl⟩⟩⟩
  deleteBucket_seen b b' name done := by
    obtain ⟨there, rfl⟩ := deleteBucket_eq_ok.mp done
    exact ⟨fun key => (value_delete b name key).trans (ite_none name key (value_of_child there)),
      child_delete b name⟩
  child_replace b entries name _ name' := child_set b name name' entries
  value_replace b entries name there key :=
    value_set_bucket b name key entries (value_of_child there)
  batch_ok db db' tx done := by simp only [BoltOps.batch, batch, done]
  batch_error db tx e failed := by simp only [BoltOps.batch, batch, failed]

end Bucket

end GoSem
