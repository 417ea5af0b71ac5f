import AiboosterEngine.FakeIp.Range

/-!
# The delayed save

Where a store of fake addresses is backed by the cache file, a timer saves the
positions of its walks some time after the last address was handed out. What the
timer runs has the positions it was made with, at the first address.
-/

namespace AiboosterEngine.FakeIp
open GoSem CacheFile

/-- A storage with the metadata beside it, in the file and in the timer. -/
structure Saved (σ : Type) where
  storage : σ
  metadata : Option FakeIPMetadata := none
  /-- `saveMetadataTimer`: what its function saves, and whether it is still to run. -/
  timer : Option (FakeIPMetadata × Bool) := none

namespace Saved
variable {σ : Type}

def fakeIPSaveMetadataAsync (s : Saved σ) (metadata : FakeIPMetadata) : Saved σ :=
  match s.timer with
  | none => { s with timer := some (metadata, true) }
  | some (captured, _) => { s with timer := some (captured, true) }

variable (api : FakeIPStorage σ)

def saved : FakeIPStorage (Saved σ) where
  metadata s := s.metadata
  saveMetadata := fakeIPSaveMetadataAsync
  reset s := { s with storage := api.reset s.storage }
  store s address domain := { s with storage := api.store s.storage address domain }
  load s := api.load s.storage
  loadDomain s := api.loadDomain s.storage

inductive Event where
  | call (call : Store.Call)
  | save

variable (s : Store (Saved σ))

def step : Event → Option (Store (Saved σ))
  | .call call => s.step (saved api) call
  | .save =>
    match s.storage.timer with
    | some (captured, true) =>
      some { s with
        storage := { s.storage with metadata := some captured, timer := some (captured, false) } }
    | _ => none

/-- `Start` of a new store after a crash. The metadata is deleted where it is read. -/
def restart : Store (Saved σ) :=
  let started := Store.start (saved api)
    { inet4Range := s.inet4Range, inet6Range := s.inet6Range,
      storage := { s.storage with timer := none } }
  { started with storage := { started.storage with metadata := none } }

/-- The domain of a call has an address. -/
def Known : Event → Prop
  | .call (.create domain isIPv6) => ∃ address,
      api.loadDomain s.storage.storage domain isIPv6 = some address
  | _ => True

/-- A new address is the next one in its range: the walk does not come round. -/
def Inside : Event → Prop
  | .call (.create domain isIPv6) => api.loadDomain s.storage.storage domain isIPv6 = none →
    (s.range isIPv6).contains (s.current isIPv6).next = true
  | _ => True

/-- The walks have not come round: the addresses of the domains are up to the positions. -/
structure Behind : Prop where
  families : ∀ isIPv6 address, (s.range isIPv6).contains address = true → address.is4 = !isIPv6
  loaded : ∀ domain isIPv6 address, api.loadDomain s.storage.storage domain isIPv6 = some address →
    address.toNat ≤ (s.current isIPv6).toNat

/-- What is saved or going to be is what the store has. -/
structure Right (s : Store (Saved σ)) : Prop where
  timer : ∀ captured armed, s.storage.timer = some (captured, armed) → captured = s.latest
  metadata : ∀ metadata, s.storage.metadata = some metadata → metadata = s.latest

variable {api} {s}

theorem Right.create (unsaved : s.storage.metadata = none) (unset : s.storage.timer = none)
    (domain : Bytes) (isIPv6 : Bool) : Right (s.create (saved api) domain isIPv6).2 := by
  have here : Right s :=
    ⟨fun _ _ set => by simp [unset] at set, fun _ set => by simp [unsaved] at set⟩
  rcases Store.create_cases (saved api) s domain isIPv6 with ⟨_, _, same⟩ | ⟨_, same⟩ | ⟨_, _, same⟩
  · rw [same]
    exact here
  · rw [same]
    exact here
  · rw [same]
    dsimp only [saved]
    rw [fakeIPSaveMetadataAsync, unset]
    constructor
    · rintro _ _ ⟨⟩
      rfl
    · intro metadata there
      cases unsaved.symm.trans there

theorem Right.step {s' : Store (Saved σ)} {event : Event} (h : Right s) (known : Known api s event)
    (taken : step api s event = some s') : Right s' := by
  cases event with
  | call call =>
    cases call with
    | create domain isIPv6 =>
      obtain ⟨address, there⟩ := known
      have same : s.create (saved api) domain isIPv6 = (.ok address, s) := by
        rw [Store.create, show (saved api).loadDomain s.storage domain isIPv6 =
          some address from there]
      cases taken
      rw [same]
      exact h
    | lookup address =>
      cases taken
      exact h
  | save =>
    rw [Saved.step] at taken
    split at taken
    · rename_i captured armed
      cases taken
      refine ⟨?_, ?_⟩
      · rintro _ _ ⟨⟩
        exact h.timer captured true armed
      · rintro _ ⟨⟩
        exact h.timer captured true armed
    · cases taken

theorem storage_saveMetadataAsync (s : Saved σ) (metadata : FakeIPMetadata) :
    (s.fakeIPSaveMetadataAsync metadata).storage = s.storage := by
  unfold fakeIPSaveMetadataAsync
  split <;> rfl

/-- A new address is beyond all that domains have. -/
theorem Behind.create (lawful : api.Lawful) (behind : Behind api s) {domain : Bytes} {isIPv6 : Bool}
    (inside : Inside api s (.call (.create domain isIPv6))) :
    Behind api (s.create (saved api) domain isIPv6).2 ∧
      (api.loadDomain s.storage.storage domain isIPv6 = none →
        ∀ address, (s.create (saved api) domain isIPv6).1 = .ok address →
          ∀ other, api.loadDomain s.storage.storage other isIPv6 ≠ some address) := by
  have range := fun isIPv6' => create_range (saved api) s domain isIPv6' isIPv6
  rcases Store.create_cases (saved api) s domain isIPv6
    with ⟨address, there, same⟩ | ⟨_, same⟩ | ⟨missing, _, same⟩
  · rw [same]
    refine ⟨behind, fun missing => ?_⟩
    cases missing.symm.trans there
  · rw [same]
    exact ⟨behind, fun _ => nofun⟩
  · have within := inside missing
    have next : Store.advance (s.range isIPv6) (s.current isIPv6) =
      (s.current isIPv6).next := if_pos within
    obtain ⟨_, _, _, number, _⟩ := Addr.next_spec (Prefix.contains_family within).1
    refine ⟨⟨fun isIPv6' address contained => ?_, fun domain' isIPv6' address loads => ?_⟩,
      fun _ address handed other there => ?_⟩
    · rw [range] at contained
      exact behind.families isIPv6' address contained
    · rw [same, next] at loads ⊢
      change api.loadDomain (fakeIPSaveMetadataAsync _ _).storage domain' isIPv6' = _ at loads
      rw [storage_saveMetadataAsync] at loads
      rcases lawful.store _ _ _ _ _ _ (Prefix.contains_noZone within) loads with old | ⟨rfl, family⟩
      · have below := behind.loaded domain' isIPv6' address old
        cases isIPv6 <;> cases isIPv6' <;> simp_all [Store.setCurrent, Store.current] <;> omega
      · rw [behind.families isIPv6 _ within, Bool.not_not] at family
        subst family
        cases isIPv6' <;> exact Nat.le_refl _
    · rw [same, next] at handed
      cases handed
      have below := behind.loaded other isIPv6 _ there
      omega

theorem Behind.step (lawful : api.Lawful) {s' : Store (Saved σ)} {event : Event}
    (behind : Behind api s)
    (inside : Inside api s event) (taken : step api s event = some s') : Behind api s' := by
  cases event with
  | call call =>
    cases call with
    | create domain isIPv6 =>
      cases taken
      exact (behind.create lawful inside).1
    | lookup address =>
      cases taken
      exact behind
  | save =>
    rw [Saved.step] at taken
    split at taken
    · cases taken
      exact ⟨behind.families, behind.loaded⟩
    · cases taken

theorem Known.inside {event : Event} (known : Known api s event) : Inside api s event := by
  cases event with
  | call call =>
    cases call with
    | create domain isIPv6 =>
      obtain ⟨address, there⟩ := known
      intro missing
      cases missing.symm.trans there
    | lookup address => trivial
  | save => trivial

/-- **The delayed save.** Where all calls after the first are for domains that have an address,
every save writes the metadata of the store, and after a crash a new store goes on from where the
old one was. As long as no walk comes round, it hands out no address that a domain has. -/
theorem delayed_save (lawful : api.Lawful) (unsaved : s.storage.metadata = none)
    (unset : s.storage.timer = none) (domain : Bytes) (isIPv6 : Bool) {s' : Store (Saved σ)}
    (run : Run (step api) (Known api) (s.create (saved api) domain isIPv6).2 s') :
    (∀ s'', step api s' .save = some s'' → s''.storage.metadata = some s'.latest) ∧
    (s'.storage.metadata.isSome = true → (restart api s').latest = s'.latest ∧
      (Behind api s → Inside api s (.call (.create domain isIPv6)) →
        ∀ s'', Run (step api) (Inside api) (restart api s') s'' →
        ∀ domain isIPv6 address, Inside api s'' (.call (.create domain isIPv6)) →
          api.loadDomain s''.storage.storage domain isIPv6 = none →
          (s''.create (saved api) domain isIPv6).1 = .ok address →
          ∀ other, api.loadDomain s''.storage.storage other isIPv6 ≠ some address)) := by
  have right : Right s' :=
    run.invariant (.create unsaved unset domain isIPv6) fun _ _ _ => Right.step
  constructor
  · intro s'' taken
    rw [step] at taken
    split at taken
    · rename_i captured armed
      cases taken
      exact congrArg some (right.timer captured true armed)
    · cases taken
  · intro there
    obtain ⟨metadata, there⟩ := Option.isSome_iff_exists.mp there
    have same := right.metadata metadata there
    subst same
    have goesOn : restart api s' =
      { s' with storage := { s'.storage with timer := none, metadata := none } } := by
      simp [restart, Store.start, saved, there, Store.latest]
    rw [goesOn]
    refine ⟨rfl, fun behind inside s'' later domain' isIPv6' address inside' => ?_⟩
    have before : Behind api s' :=
      run.invariant (behind.create lawful inside).1 fun _ _ _ behind known =>
        behind.step lawful known.inside
    have behind' : Behind api s'' :=
      later.invariant ⟨before.families, before.loaded⟩ fun _ _ _ behind => behind.step lawful
    exact fun missing => (behind'.create lawful inside').2 missing address

/-- A store for `198.18.0.0/15` on an empty file. -/
def emptyStore : Store (Saved (CacheFile Bucket)) :=
  restart fileStorage
    { inet4Range := .prefixFrom (benchmarkAddr 0) 15, inet6Range := .zero,
      storage := { storage := .new [] .empty } }

theorem emptyStore_behind : Behind fileStorage emptyStore where
  families isIPv6 address contained := by
    cases isIPv6 with
    | false => exact (Addr.is4_iff_bitLen address).mpr (Prefix.contains_family contained).2
    | true => cases contained
  loaded domain isIPv6 address loads := by cases isIPv6 <;> cases loads

def oneAddress : Store (Saved (CacheFile Bucket)) :=
  (emptyStore.create (saved fileStorage) (utf8 "a.test") false).2

/-- After a second call for the domain. -/
def calledAgain : Store (Saved (CacheFile Bucket)) :=
  (step fileStorage oneAddress (.call (.create (utf8 "a.test") false))).getD oneAddress

def savedStore : Store (Saved (CacheFile Bucket)) :=
  (step fileStorage calledAgain .save).getD calledAgain

/-- After a crash the next domain does not get the address. -/
theorem oneAddress_saved : Run (step fileStorage) (Known fileStorage) oneAddress savedStore ∧
    savedStore.storage.metadata = some calledAgain.latest ∧
    (restart fileStorage savedStore).latest = savedStore.latest ∧
    ((restart fileStorage savedStore).create (saved fileStorage) (utf8 "b.test") false).1 =
      .ok (benchmarkAddr 4) ∧
    ∀ other, fileStorage.loadDomain (restart fileStorage savedStore).storage.storage other false ≠
      some (benchmarkAddr 4) := by
  have called : Run (step fileStorage) (Known fileStorage) oneAddress calledAgain :=
    Run.start.next (a := .call (.create (utf8 "a.test") false))
      ⟨benchmarkAddr 3, by decide +kernel⟩ rfl
  have run : Run (step fileStorage) (Known fileStorage) oneAddress savedStore :=
    called.next (a := .save) trivial rfl
  have written := (delayed_save file_lawful rfl rfl (utf8 "a.test") false called).1 savedStore rfl
  obtain ⟨latest, fresh⟩ := (delayed_save file_lawful rfl rfl (utf8 "a.test") false run).2 rfl
  have handed :
    ((restart fileStorage savedStore).create (saved fileStorage) (utf8 "b.test") false).1 =
      .ok (benchmarkAddr 4) := by
    rw [Store.create, show (saved fileStorage).loadDomain (restart fileStorage savedStore).storage
      (utf8 "b.test") false = none by decide +kernel]
    have next : Store.advance ((restart fileStorage savedStore).range false)
      ((restart fileStorage savedStore).current false) = benchmarkAddr 4 := by decide +kernel
    simp only [next]
    rfl
  refine ⟨run, written, latest, handed, ?_⟩
  exact fresh emptyStore_behind (fun _ => by decide +kernel) _ .start (utf8 "b.test") false
    (benchmarkAddr 4) (fun _ => by decide +kernel) (by decide +kernel) handed

/-- After two addresses the position of the first is saved, and a store started after a crash hands
out the second once more. -/
theorem position_lost :
    (exec (step fileStorage) emptyStore
      [.call (.create (utf8 "a.test") false), .call (.create (utf8 "b.test") false), .save]).map
      (fun s =>
        (s.latest.inet4Current, s.storage.metadata.map (·.inet4Current),
          s.lookup (saved fileStorage) (benchmarkAddr 4),
          ((restart fileStorage s).create (saved fileStorage) (utf8 "c.test") false).1.toOption)) =
    some (benchmarkAddr 4, some (benchmarkAddr 3), some (utf8 "b.test"),
      some (benchmarkAddr 4)) := by
  decide +kernel

end Saved

end AiboosterEngine.FakeIp
