import AiboosterEngine.GoSem.Outcome
import AiboosterEngine.GoSem.Threads

/-!
# The state of the core

`StartService`, `Stop`, `Restart` and `StopAndAlert` as threads over `CoreState`,
`StartedService` and the lock. `StopAndAlert` runs under the lock where a function
reports an error, and without it where a deferred handler does: the deferred
`Unlock` has run by then. Between two steps of one thread any other may take its own.
-/

namespace AiboosterEngine.Core

open GoSem

inductive CoreState where
  | stopped | starting | started | stopping
  deriving DecidableEq, Repr

/-- What has become of a service. A panic in `CloseService` leaves its own lock held. -/
inductive Status where
  | running | closed | jammed
  deriving DecidableEq, Repr

structure Shared (τ : Type) where
  coreState : CoreState := .stopped
  startedService : Option Nat := none
  status : Nat → Status := fun _ => .closed
  /-- The next service to be made. -/
  next : Nat := 0
  lock : Option τ := none

/-- What `StartService` does before there is a service. -/
inductive Stage where
  | loadLastStartRequest | buildConfig | preStart | marshal | newService
  deriving DecidableEq, Repr

def Stage.next : Stage → Option Stage
  | .loadLastStartRequest => some .buildConfig
  | .buildConfig => some .preStart
  | .preStart => some .marshal
  | .marshal => some .newService
  | .newService => none

/-- Who runs `StopAndAlert`: `errorWrapper` under the lock, `errorWrapper` in the handler of a
panic, or the handler of another function. -/
inductive Mode where
  | locked | recovering | alone
  deriving DecidableEq, Repr

/-- What follows the deferred `Unlock`. -/
inductive Next where
  | done | restarted | recover
  deriving DecidableEq, Repr

/-- The next thing a thread does. `restart` says that `Stop` was called by `Restart`. -/
inductive Place where
  | idle
  | startLock | startCheck | startSet | stage (stage : Stage) | store | startDone
  | stopLock (restart : Bool) | stopSet (restart : Bool) | stopRead (restart : Bool)
  | stopEmpty (restart : Bool) | stopClose (restart : Bool) (service : Nat)
  | stopClear (restart : Bool) | stopDone (restart : Bool) | stopFailed
  | restarted | cancelled
  | alertSet (mode : Mode) | alertRead (mode : Mode) | alertClose (mode : Mode) (service : Nat)
  | alertClear (mode : Mode) | alertDone (mode : Mode)
  | unlock (next : Next)
  | crashed
  deriving DecidableEq, Repr

/-- What the world decides: the call an idle thread makes, and how an operation ends. -/
inductive Choice where
  | callStart | callStop | callRestart | callStopAndAlert
  | go | fail | panic | cancel
  deriving DecidableEq, Repr

section
variable {τ : Type}

/-- `CloseService`: of a service that runs it may go either way or panic; of one that does not it
returns `os.ErrInvalid`; after a panic it waits for ever. -/
def closeService (s : Shared τ) (service : Nat) : Choice → Option (Shared τ × Outcome Unit Unit)
  | .go =>
    match s.status service with
    | .running =>
        some ({ s with status := fun i => if i = service then .closed else s.status i }, .ok ())
    | .closed => some (s, .err ())
    | .jammed => none
  | .fail =>
    match s.status service with
    | .running =>
        some ({ s with status := fun i => if i = service then .closed else s.status i }, .err ())
    | _ => none
  | .panic =>
    match s.status service with
    | .running =>
        some ({ s with status := fun i => if i = service then .jammed else s.status i }, .panicked)
    | _ => none
  | _ => none

/-- The end of `StopAndAlert`, after which `errorWrapper` sets the state again. -/
def Mode.after : Mode → Place
  | .alone => .idle
  | mode => .alertDone mode

/-- The end of `Stop` when nothing fails. -/
def stopped (restart : Bool) : Place := .unlock (if restart then .restarted else .done)

def act (t : τ) (s : Shared τ) : Place → Choice → Option (Shared τ × Place)
  | .idle, .callStart => some (s, .startLock)
  | .idle, .callStop => some (s, .stopLock false)
  | .idle, .callRestart => some (s, .stopLock true)
  | .idle, .callStopAndAlert => some (s, .alertSet .alone)
  -- StartService
  | .startLock, .go => if s.lock.isNone then some ({ s with lock := some t }, .startCheck) else none
  | .startCheck, .go => some (s, if s.coreState = .stopped then .startSet else .unlock .done)
  | .startSet, .go => some ({ s with coreState := .starting }, .stage .loadLastStartRequest)
  | .stage stage, .go =>
    match stage.next with
    | some later => some (s, .stage later)
    | none => some (s, .store)
  | .stage _, .fail => some (s, .alertSet .locked)
  | .stage _, .panic => some (s, .unlock .recover)
  | .store, .go =>
    -- no other thread knows the instance before it is stored
    some ({ s with
      startedService := some s.next
      status := fun i => if i = s.next then .running else s.status i
      next := s.next + 1 }, .startDone)
  | .startDone, .go => some ({ s with coreState := .started }, .unlock .done)
  -- Stop
  | .stopLock restart, .go =>
      if s.lock.isNone then some ({ s with lock := some t }, .stopSet restart) else none
  | .stopSet restart, .go => some ({ s with coreState := .stopping }, .stopRead restart)
  | .stopRead restart, .go =>
    match s.startedService with
    | none => some (s, .stopEmpty restart)
    | some service => some (s, .stopClose restart service)
  | .stopEmpty restart, .go => some ({ s with coreState := .stopped }, stopped restart)
  | .stopClose restart service, choice =>
    match closeService s service choice with
    | none => none
    | some (s, .ok ()) => some (s, .stopClear restart)
    | some (s, .err ()) => some (s, .stopFailed)
    | some (s, .panicked) => some (s, .unlock .recover)
  | .stopClear restart, .go => some ({ s with startedService := none }, .stopDone restart)
  | .stopDone restart, .go => some ({ s with coreState := .stopped }, stopped restart)
  | .stopFailed, .go => some ({ s with startedService := none }, .alertSet .locked)
  -- Restart, after Stop
  | .restarted, .go => some (s, .startLock)
  | .restarted, .cancel => some (s, .cancelled)
  | .restarted, .panic => some (s, .alertSet .recovering)
  | .cancelled, .go => some ({ s with coreState := .stopped }, .idle)
  -- StopAndAlert, and the rest of errorWrapper
  | .alertSet mode, .go => some ({ s with coreState := .stopped }, .alertRead mode)
  | .alertRead mode, .go =>
    match s.startedService with
    | none => some (s, mode.after)
    | some service => some (s, .alertClose mode service)
  | .alertClose mode service, choice =>
    match closeService s service choice with
    | none => none
    -- a panic in a handler is caught by no one
    | some (s, .panicked) => some (s, if mode = .locked then .unlock .recover else .crashed)
    | some (s, _) => some (s, .alertClear mode)
  | .alertClear mode, .go => some ({ s with startedService := none }, mode.after)
  | .alertDone mode, .go =>
    some ({ s with coreState := .stopped }, if mode = .locked then .unlock .done else .idle)
  | .unlock .done, .go => some ({ s with lock := none }, .idle)
  | .unlock .restarted, .go => some ({ s with lock := none }, .restarted)
  | .unlock .recover, .go => some ({ s with lock := none }, .alertSet .recovering)
  | _, _ => none

end

section
variable {τ : Type}

/-- From one place to another, with nothing changed. -/
inductive Moves (s : Shared τ) : Place → Place → Prop
  | callStart : Moves s .idle .startLock
  | callStop : Moves s .idle (.stopLock false)
  | callRestart : Moves s .idle (.stopLock true)
  | callStopAndAlert : Moves s .idle (.alertSet .alone)
  | checked : s.coreState = .stopped → Moves s .startCheck .startSet
  | alreadyStarted : Moves s .startCheck (.unlock .done)
  | stage {stage later : Stage} : Moves s (.stage stage) (.stage later)
  | made {stage : Stage} : Moves s (.stage stage) .store
  | failed {stage : Stage} : Moves s (.stage stage) (.alertSet .locked)
  | panicked {stage : Stage} : Moves s (.stage stage) (.unlock .recover)
  | stopNone {restart : Bool} : s.startedService = none →
      Moves s (.stopRead restart) (.stopEmpty restart)
  | stopSome {restart : Bool} {service : Nat} :
      Moves s (.stopRead restart) (.stopClose restart service)
  | stopInvalid {restart : Bool} {service : Nat} : Moves s (.stopClose restart service) .stopFailed
  | again : Moves s .restarted .startLock
  | cancel : Moves s .restarted .cancelled
  | restartPanicked : Moves s .restarted (.alertSet .recovering)
  | alertNone {mode : Mode} : s.startedService = none → Moves s (.alertRead mode) mode.after
  | alertSome {mode : Mode} {service : Nat} : Moves s (.alertRead mode) (.alertClose mode service)
  | alertInvalid {mode : Mode} {service : Nat} :
      Moves s (.alertClose mode service) (.alertClear mode)

/-- `SetCoreStatus`. -/
inductive Sets : Place → CoreState → Place → Prop
  | starting : Sets .startSet .starting (.stage .loadLastStartRequest)
  | started : Sets .startDone .started (.unlock .done)
  | stopping {restart : Bool} : Sets (.stopSet restart) .stopping (.stopRead restart)
  | stopEmpty {restart : Bool} : Sets (.stopEmpty restart) .stopped (stopped restart)
  | stopDone {restart : Bool} : Sets (.stopDone restart) .stopped (stopped restart)
  | cancelled : Sets .cancelled .stopped .idle
  | alert {mode : Mode} : Sets (.alertSet mode) .stopped (.alertRead mode)
  | alertDone {mode : Mode} :
      Sets (.alertDone mode) .stopped (if mode = .locked then .unlock .done else .idle)

/-- `CloseService` of a service that runs. -/
inductive Closes : Place → Place → Prop
  | stopped {restart : Bool} {service : Nat} :
      Closes (.stopClose restart service) (.stopClear restart)
  | stopFailed {restart : Bool} {service : Nat} : Closes (.stopClose restart service) .stopFailed
  | stopPanicked {restart : Bool} {service : Nat} :
      Closes (.stopClose restart service) (.unlock .recover)
  | alerted {mode : Mode} {service : Nat} : Closes (.alertClose mode service) (.alertClear mode)
  | alertPanicked {mode : Mode} {service : Nat} :
      Closes (.alertClose mode service) (if mode = .locked then .unlock .recover else .crashed)

/-- `static.StartedService = nil`. -/
inductive Clears : Place → Place → Prop
  | stopped {restart : Bool} : Clears (.stopClear restart) (.stopDone restart)
  | stopFailed : Clears .stopFailed (.alertSet .locked)
  | alerted {mode : Mode} : Clears (.alertClear mode) mode.after

def Next.place : Next → Place
  | .done => .idle
  | .restarted => .restarted
  | .recover => .alertSet .recovering

inductive Acts (t : τ) (s : Shared τ) : Place → Shared τ → Place → Prop
  | move {pc pc' : Place} : Moves s pc pc' → Acts t s pc s pc'
  | startLock : s.lock = none → Acts t s .startLock { s with lock := some t } .startCheck
  | stopLock {restart : Bool} : s.lock = none →
      Acts t s (.stopLock restart) { s with lock := some t } (.stopSet restart)
  | unlock {next : Next} : Acts t s (.unlock next) { s with lock := none } next.place
  | set {pc pc' : Place} {state : CoreState} : Sets pc state pc' →
      Acts t s pc { s with coreState := state } pc'
  | store {status : Nat → Status} {next : Nat} : status s.next = .running →
      Acts t s .store { s with startedService := some s.next, status, next } .startDone
  | close {pc pc' : Place} {status : Nat → Status} : Closes pc pc' →
      Acts t s pc { s with status } pc'
  | clear {pc pc' : Place} : Clears pc pc' → Acts t s pc { s with startedService := none } pc'

variable {t : τ} {s s' : Shared τ} {pc pc' : Place} {c : Choice}

theorem closeService_cases {service : Nat} {o : Outcome Unit Unit}
    (h : closeService s service c = some (s', o)) :
    (s' = s ∧ o = .err ()) ∨ ∃ status, s' = { s with status } := by
  cases c <;> cases status : s.status service <;> grind [closeService]

attribute [local grind intro] Moves Sets Closes Clears Acts

theorem act_acts (h : act t s pc c = some (s', pc')) : Acts t s pc s' pc' := by
  cases pc with
  | stopClose restart service | alertClose mode service => grind [act, closeService_cases]
  | unlock next => cases next <;> cases c <;> grind [act, Next.place]
  | _ => cases c <;> grind [act, Option.isNone_iff_eq_none]

end

abbrev World (τ : Type) := Threads τ (Shared τ) Place

/-- No thread has begun. -/
def initial (τ : Type) : World τ := { shared := {}, pc := fun _ => .idle }

/-- No operation is in progress. -/
def Quiet {τ : Type} (s : World τ) : Prop := ∀ t, s.pc t = .idle

/-- A service is stored and runs. -/
def Running {τ : Type} (s : Shared τ) : Prop :=
  ∃ service, s.startedService = some service ∧ s.status service = .running

end AiboosterEngine.Core
