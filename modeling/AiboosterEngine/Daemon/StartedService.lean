import AiboosterEngine.GoSem.Threads

/-!
# The status of the started service

`startOrReloadServiceImp`, `CloseService` and `SetError` of
`daemon/started_service.go`. A step of a thread is what it does between taking
the lock and giving it back, or one call outside of the lock: `Close` of the old
instance and `Start` of the new one. Instances are numbered as they are made.
-/

namespace AiboosterEngine.Daemon

open GoSem Threads

/-- Where the error of a `FATAL` status came from. -/
inductive Reason where
  | start (instance_ : Nat) | create | close | setError
  deriving DecidableEq, Repr

inductive Status where
  | idle | starting | started | stopping | fatal (reason : Reason)
  deriving DecidableEq, Repr

/-- The check at the beginning of `startOrReloadServiceImp`. -/
def Status.canStart : Status → Bool
  | idle | started | starting => true
  | _ => false

/-- The check at the beginning of `CloseService`. -/
def Status.canClose : Status → Bool
  | starting | started => true
  | _ => false

structure Shared where
  status : Status := .idle
  stored : Option Nat := none
  /-- What `Start` of an instance has returned, `true` for nil. -/
  returned : Nat → Option Bool := fun _ => none
  closed : Nat → Bool := fun _ => false
  /-- The next instance to be made. -/
  next : Nat := 0

open Shared

/-- The next thing a thread does. -/
inductive Place where
  | idle
  | closing (old : Nat) | relock
  | starting (instance_ : Nat) | returned (instance_ : Nat) (ok : Bool)
  deriving DecidableEq, Repr

/-- The call an idle thread makes, and how an operation ends. The lock regions of the calls contain
the creation of an instance and the `Close` of `CloseService`, which end as the flag says. -/
inductive Choice where
  | startOrReload (created : Bool) | closeService (closed : Bool) | setError
  | done (ok : Bool)
  deriving DecidableEq, Repr

namespace Shared

/-- The region that ends with `s.serviceAccess.Unlock()` before `instance.Start()`, from
`STARTING` on, or with the error of the creation. -/
def create (s : Shared) (created : Bool) : Shared × Place :=
  if created then
    ({ s with status := .starting, stored := some s.next, next := s.next + 1 }, .starting s.next)
  else ({ s with status := .fatal .create }, .idle)

variable (s : Shared)

def close (i : Nat) : Shared := { s with closed := fun j => if j = i then true else s.closed j }

def startReturns (s : Shared) (i : Nat) (ok : Bool) : Shared :=
  { s with returned := fun j => if j = i then some ok else s.returned j }

/-- The first region of `startOrReloadServiceImp`. -/
def startOrReload (created : Bool) : Shared × Place :=
  if s.status.canStart then
    match s.stored with
    | some old => ({ s with status := .stopping }, .closing old)
    | none => s.create created
  else (s, .idle)

/-- The region after `instance.Start()`. -/
def startReturned (i : Nat) (ok : Bool) : Shared :=
  if s.status ≠ .starting then s
  else if ok then { s with status := .started }
  else { s with status := .fatal (.start i) }

def closeService (ok : Bool) : Shared :=
  if s.status.canClose then
    match s.stored with
    | some i =>
      if ok then { s.close i with stored := none, status := .idle }
      else { s.close i with status := .fatal .close }
    | none => { s with status := .idle }
  else s

end Shared

def act {τ : Type} (_ : τ) (s : Shared) : Place → Choice → Option (Shared × Place)
  | .idle, .startOrReload created => some (s.startOrReload created)
  | .idle, .closeService ok => some (s.closeService ok, .idle)
  | .idle, .setError => some ({ s with status := .fatal .setError }, .idle)
  | .closing old, .done _ => some (s.close old, .relock)
  | .relock, .done created => some (s.create created)
  | .starting i, .done ok => some (s.startReturns i ok, .returned i ok)
  | .returned i ok, .done _ => some (s.startReturned i ok, .idle)
  | _, _ => none

inductive Acts (s : Shared) : Place → Shared → Place → Prop
  | refused : Acts s .idle s .idle
  | outdated {i : Nat} {ok : Bool} (other : s.status ≠ .starting) : Acts s (.returned i ok) s .idle
  | replace {old : Nat} (accepted : s.status.canStart = true) (stored : s.stored = some old) :
      Acts s .idle { s with status := .stopping } (.closing old)
  | closeOld {old : Nat} : Acts s (.closing old) (s.close old) .relock
  | create {p : Place} (allowed : (p = .idle ∧ s.status.canStart = true) ∨ p = .relock) :
      Acts s p { s with status := .starting, stored := some s.next, next := s.next + 1 }
        (.starting s.next)
  | fail {p : Place} {reason : Reason} (place : p = .idle ∨ p = .relock)
      (other : ∀ i, reason ≠ .start i) :
      Acts s p { s with status := .fatal reason } .idle
  | startReturns {i : Nat} {ok : Bool} : Acts s (.starting i) (s.startReturns i ok) (.returned i ok)
  | started {i : Nat} (waiting : s.status = .starting) :
      Acts s (.returned i true) { s with status := .started } .idle
  | startFailed {i : Nat} (waiting : s.status = .starting) :
      Acts s (.returned i false) { s with status := .fatal (.start i) } .idle
  | closed {i : Nat} (accepted : s.status.canClose = true) (stored : s.stored = some i) :
      Acts s .idle { s.close i with stored := none, status := .idle } .idle
  | closeFailed {i : Nat} (accepted : s.status.canClose = true) (stored : s.stored = some i) :
      Acts s .idle { s.close i with status := .fatal .close } .idle
  | closedNone (accepted : s.status.canClose = true) : Acts s .idle { s with status := .idle } .idle

section
variable {τ : Type} {t : τ} {s s' : Shared} {p p' : Place} {c : Choice}

attribute [local grind intro] Acts

theorem act_acts (h : act t s p c = some (s', p')) : Acts s p s' p' := by
  cases p with
  | idle => cases c <;> grind [act, startOrReload, create, closeService]
  | relock => cases c <;> grind [act, create]
  | returned => cases c <;> grind [act, startReturned]
  | closing | starting => cases c <;> grind [act]

theorem act_returned {i : Nat} {ok : Bool} {next : Shared × Place}
    (h : act t s (.returned i ok) c = some next) :
    ∃ done, c = .done done := by
  cases c with
  | done done => exact ⟨done, rfl⟩
  | startOrReload => cases h
  | closeService => cases h
  | setError => cases h

end

/-- The thread has made the instance and not yet looked at the status again. -/
def Place.Owns (i : Nat) : Place → Prop
  | .starting j => j = i
  | .returned j _ => j = i
  | _ => False

/-- The thread is between the two lock regions of a replacement. -/
def Place.Replaces : Place → Prop
  | .closing _ | .relock => True
  | _ => False

section
variable {τ : Type}

/-- Nothing is known of an instance that is not made yet, and one thread waits for `Start` of an
instance that is. -/
structure Instances (s : Threads τ Shared Place) : Prop where
  made : ∀ i, s.shared.next ≤ i → s.shared.closed i = false ∧ s.shared.returned i = none ∧
    s.shared.stored ≠ some i ∧ ∀ t, ¬ (s.pc t).Owns i
  owner : ∀ t u i, (s.pc t).Owns i → (s.pc u).Owns i → t = u
  old : ∀ t i, s.pc t = .closing i → i < s.shared.next
  pending : ∀ t i, s.pc t = .starting i → s.shared.returned i = none
  returned : ∀ t i ok, s.pc t = .returned i ok → s.shared.returned i = some ok

/-- One thread at a time replaces the instance, and meanwhile no call is accepted. -/
structure Replacing (s : Threads τ Shared Place) : Prop where
  refused : ∀ t, (s.pc t).Replaces → s.shared.status.canStart = false
  replacer : ∀ t u, (s.pc t).Replaces → (s.pc u).Replaces → t = u

/-- While the status is `STARTING`, an instance is stored that is not closed. -/
structure Inv (s : Threads τ Shared Place) : Prop where
  instances : Instances s
  replacing : Replacing s
  busy : s.shared.status = .starting → ∃ i, s.shared.stored = some i ∧ s.shared.closed i = false

/-- The status describes the stored instance. -/
structure Describes (s : Shared) : Prop where
  started : s.status = .started → ∃ i, s.stored = some i ∧ s.returned i = some true ∧
    s.closed i = false
  failed : ∀ i, s.status = .fatal (.start i) → s.stored = some i

variable {s s' : Threads τ Shared Place} {t : τ} {c : Choice} [DecidableEq τ]

attribute [local grind] Place.Owns Place.Replaces Status.canStart Status.canClose close startReturns

theorem Inv.step (inv : Inv s) (taken : step act s (t, c) = some s') : Inv s' := by
  obtain ⟨acted, others⟩ := step_cases taken
  obtain ⟨shared, pc⟩ := s'
  have acts : Acts s.shared (s.pc t) shared (pc t) := act_acts acted
  obtain ⟨⟨made, owner, old, pending, returned⟩, ⟨refused, replacer⟩, busy⟩ := inv
  generalize before : s.pc t = p, place : pc t = p' at acts
  clear acted taken
  dsimp only at others
  cases acts <;> refine ⟨⟨?_, ?_, ?_, ?_, ?_⟩, ⟨?_, ?_⟩, ?_⟩ <;>
    dsimp only [close, startReturns] <;> grind +splitImp

/-- A thread that comes back from `Start` and finds the status `STARTING` finds its own instance
stored, or its `Start` has succeeded and so has that of the stored instance. -/
def Own (s : Threads τ Shared Place) (a : τ × Choice) : Prop :=
  ∀ i ok closed, s.pc a.1 = .returned i ok → a.2 = .done closed → s.shared.status = .starting →
    s.shared.stored = some i ∨
      (ok = true ∧ ∃ j, s.shared.stored = some j ∧ s.shared.returned j = some true)

omit [DecidableEq τ] in
theorem own_of_place (h : ∀ i ok, s.pc t ≠ .returned i ok) : Own s (t, c) :=
  fun i ok _ here => absurd here (h i ok)

/-- The status goes on to describe the stored instance, except when a thread takes the status of
another start for its own. -/
theorem describes_step_iff (inv : Inv s) (describes : Describes s.shared)
    (taken : step act s (t, c) = some s') : Describes s'.shared ↔ Own s (t, c) := by
  obtain ⟨acted, _⟩ := step_cases taken
  obtain ⟨shared, pc⟩ := s'
  have acts : Acts s.shared (s.pc t) shared (pc t) := act_acts acted
  generalize before : s.pc t = p at acts
  generalize pc t = p' at acts
  have elsewhere (place : ∀ i ok, p ≠ .returned i ok) : Own s (t, c) :=
    own_of_place fun i ok => before ▸ place i ok
  cases acts with
  | refused => exact iff_of_true describes (elsewhere nofun)
  | outdated other => exact iff_of_true describes fun _ _ _ _ _ waiting => absurd waiting other
  | fail place other =>
    refine iff_of_true ⟨nofun, fun i same => absurd (Status.fatal.inj same) (other i)⟩
      (elsewhere ?_)
    obtain rfl | rfl := place <;> exact nofun
  | @started i waiting =>
    constructor
    · intro after i' ok _ here _ _
      obtain ⟨j, stored, returned, _⟩ := after.started rfl
      have same : Place.returned i true = .returned i' ok := before.symm.trans here
      cases same
      exact .inr ⟨rfl, j, stored, returned⟩
    · intro own
      obtain ⟨j, stored, notClosed⟩ := inv.busy waiting
      refine ⟨fun _ => ⟨j, stored, ?_, notClosed⟩, nofun⟩
      obtain ⟨done, rfl⟩ := act_returned (before ▸ acted)
      obtain mine | ⟨_, k, other, returned⟩ := own i true done before rfl waiting
      · cases stored.symm.trans mine
        exact inv.instances.returned t i true before
      · cases stored.symm.trans other
        exact returned
  | @startFailed i waiting =>
    constructor
    · intro after i' ok _ here _ _
      have same : Place.returned i false = .returned i' ok := before.symm.trans here
      cases same
      exact .inl (after.failed i rfl)
    · intro own
      refine ⟨nofun, fun i' same => ?_⟩
      cases same
      obtain ⟨done, rfl⟩ := act_returned (before ▸ acted)
      obtain mine | ⟨wrong, _⟩ := own i false done before rfl waiting
      · exact mine
      · cases wrong
  | closed | closeFailed | closedNone | replace =>
      exact iff_of_true ⟨nofun, nofun⟩ (elsewhere nofun)
  | @startReturns i ok =>
    refine iff_of_true ⟨fun started => ?_, describes.failed⟩ (elsewhere nofun)
    obtain ⟨j, stored, returned, notClosed⟩ := describes.started started
    have other : j ≠ i := by
      rintro rfl
      cases returned.symm.trans (inv.instances.pending t j before)
    exact ⟨j, stored, by simpa [startReturns, other] using returned, notClosed⟩
  | create allowed =>
    refine iff_of_true ⟨nofun, nofun⟩ (elsewhere ?_)
    obtain ⟨rfl, _⟩ | rfl := allowed <;> exact nofun
  | closeOld =>
    have mine : (s.pc t).Replaces := by rw [before]; trivial
    have refused := inv.replacing.refused t mine
    refine iff_of_true ⟨fun started => ?_, describes.failed⟩ (elsewhere nofun)
    replace started : s.shared.status = .started := started
    rw [started] at refused
    cases refused

def init : Threads τ Shared Place := ⟨{}, fun _ => .idle⟩

omit [DecidableEq τ] in
theorem init_inv : Inv (init : Threads τ Shared Place) :=
  ⟨⟨fun _ _ => ⟨rfl, rfl, nofun, fun _ => id⟩, fun _ _ _ => nofun, fun _ _ => nofun,
    fun _ _ => nofun, fun _ _ _ => nofun⟩, ⟨fun _ => nofun, fun _ _ => nofun⟩, nofun⟩

/-- In every interleaving of any number of calls: the status describes the stored instance
throughout exactly when no thread takes the status of another start for its own. -/
theorem describes_iff (as : List (τ × Choice)) :
    Throughout (step act) (fun s => Describes s.shared) init as ↔
      AllMet (step act) Own init as := by
  apply throughout_iff as init_inv ⟨nofun, nofun⟩
  · exact fun _ _ _ inv taken => inv.step taken
  · intro s a stuck i ok closed here done
    obtain ⟨t, c⟩ := a
    cases done
    rw [step, here] at stuck
    cases stuck
  · exact fun _ _ _ inv describes taken => describes_step_iff inv describes taken

end

/-- The second start replaces the instance of the first, whose `Start` then returns: the status is
`STARTED`, but `Start` of the stored instance has not returned. -/
theorem replaced_start_counts :
    ∃ s, exec (step act) (init : Threads Bool Shared Place)
        [(false, .startOrReload true), (true, .startOrReload true), (true, .done true),
          (true, .done true), (false, .done true), (false, .done true)] = some s ∧
      s.shared.status = .started ∧ s.shared.stored = some 1 ∧ s.shared.returned 1 = none :=
  ⟨_, rfl, rfl, rfl, rfl⟩

end AiboosterEngine.Daemon
