import AiboosterEngine.Core.State

/-!
# The state agrees with the service

Places are told apart by what is still to come of them: who is under the lock, who
is about to say `STARTED`, who will clear or close a service, who will set the state
again. What one action does to each of these is said once (`acts_…`), and the
invariant `Sound` follows for every interleaving.
-/

namespace AiboosterEngine.Core

open GoSem Threads Place

namespace Place

/-- Under the lock. -/
def holds : Place → Bool
  | .startCheck | .startSet | .stage _ | .store | .startDone => true
  | .stopSet _ | .stopRead _ | .stopEmpty _ | .stopClose _ _ | .stopClear _ | .stopDone _
  | .stopFailed => true
  | .alertSet mode | .alertRead mode | .alertClose mode _ | .alertClear mode | .alertDone mode =>
      mode = .locked
  | .unlock _ => true
  | _ => false

/-- Between the check of `StartService` and the state it sets in the end. -/
def starting : Place → Bool
  | .startSet | .stage _ | .store | .startDone => true
  | _ => false

/-- In `StopAndAlert` or `errorWrapper` without the lock, past the first assignment. -/
def alerting : Place → Bool
  | .alertRead mode | .alertClose mode _ | .alertClear mode | .alertDone mode => mode ≠ .locked
  | _ => false

/-- In `Stop`, `StopAndAlert` or `errorWrapper`, past the first assignment. -/
def closing : Place → Bool
  | .stopRead _ | .stopEmpty _ | .stopClose _ _ | .stopClear _ | .stopDone _ | .stopFailed => true
  | .alertRead _ | .alertClose _ _ | .alertClear _ | .alertDone _ => true
  | _ => false

/-- The thread will see that a service that is stored is running and said to be, or is no longer
stored. -/
def settles : Place → Bool
  | .startDone => true
  | .stopRead _ | .stopClose _ _ | .stopClear _ | .stopFailed => true
  | .alertSet _ | .alertRead _ | .alertClose _ _ | .alertClear _ => true
  | .unlock .recover | .crashed => true
  | _ => false

def states : Place → Bool
  | .stage _ | .store | .startDone => true
  | .stopRead _ | .stopEmpty _ | .stopClose _ _ | .stopClear _ | .stopDone _ | .stopFailed => true
  | .alertSet _ => true
  | .alertRead mode | .alertClose mode _ | .alertClear mode | .alertDone mode => mode ≠ .alone
  | .unlock .recover | .crashed => true
  | _ => false

end Place

/-- About to begin `StopAndAlert` without the lock. -/
def Place.begins : Place → Bool
  | .alertSet mode => mode ≠ .locked
  | _ => false

theorem Place.closing_cases {pc : Place} (h : pc.closing = true) :
    pc.holds = true ∨ pc.alerting = true := by
  cases pc <;> simp_all [closing, holds, alerting, Decidable.em]

theorem Place.starting_holds {pc : Place} (h : pc.starting = true) : pc.holds = true := by
  cases pc <;> simp_all [starting, holds]

theorem Mode.after_eq (mode : Mode) :
    mode.after = if mode = .alone then .idle else .alertDone mode := by
  cases mode <;> rfl

attribute [local grind] holds starting alerting closing settles states
  begins stopped Next.place
attribute [local grind =] Mode.after_eq
attribute [local grind cases] Moves Sets Closes Clears Next

section
variable {τ : Type} {t : τ} {s s' : Shared τ} {pc pc' : Place}

section
variable (h : Acts t s pc s' pc')
include h

theorem acts_lock :
    (s'.lock = s.lock ∧ pc'.holds = pc.holds) ∨
    (s.lock = none ∧ s'.lock = some t ∧ pc'.holds = true) ∨
    (pc.holds = true ∧ s'.lock = none ∧ pc'.holds = false) := by
  cases h <;> grind

/-- A thread comes to start only past the check. -/
theorem acts_starting (starting : pc'.starting = true) :
    pc.starting = true ∨ s.coreState = .stopped := by
  cases h <;> grind

/-- Only the end of `StartService` says `STARTED`. -/
theorem acts_started (started : s'.coreState = .started) :
    (pc = .startDone ∧ pc' = .unlock .done) ∨ s.coreState = .started := by
  cases h <;> grind

theorem acts_alerting (alerting : pc'.alerting = true) : pc.alerting = true ∨ pc.begins = true := by
  cases h <;> grind

/-- A thread comes to the last assignment of `StartService` by storing a service that runs. -/
theorem acts_startDone (window : pc' = .startDone) : pc = .store ∧ Running s' := by
  cases h with
  | store running => exact ⟨rfl, s.next, rfl, running⟩
  | _ => grind

/-- Who comes to close has said first that it is not `STARTED`. -/
theorem acts_closing (closing : pc'.closing = true) :
    pc.closing = true ∨ s'.coreState ≠ .started := by
  cases h <;> grind

/-- The service is touched only by who closes and who stores. -/
theorem acts_running (running : Running s) (closing : pc.closing = false) (store : pc ≠ .store) :
    Running s' := by
  obtain ⟨i, stored, runs⟩ := running
  have same : s'.startedService = s.startedService ∧ s'.status = s.status := by cases h <;> grind
  exact ⟨i, same.1.trans stored, by rw [same.2]; exact runs⟩

/-- Who was to settle the service has done so, or still is to; and a service that is not stored
comes to be by `StartService`. -/
theorem acts_settles (before : s.startedService = none ∨ pc.settles = true) :
    (s'.startedService = none ∨ s'.coreState = .started) ∨ pc'.settles = true := by
  cases h <;> grind

/-- A state that was settled, or was to be set, is, or still is to be set. -/
theorem acts_states (before : (s.coreState = .stopped ∨ s.coreState = .started) ∨
    pc.states = true) :
    (s'.coreState = .stopped ∨ s'.coreState = .started) ∨ pc'.states = true := by
  cases h <;> grind

/-- Who takes `STARTED` back is at one of these places, or goes on to close. -/
theorem acts_unstarts (started : s.coreState = .started) :
    s'.coreState = .started ∨ pc'.settles = true ∨ pc.starting = true ∨ pc.closing = true ∨
      pc = .cancelled := by
  cases h with
  | set m => cases m <;> grind
  | _ => exact .inl started

end

end

section
variable {τ : Type}

/-- The condition on a step. A new service is stored only while no `StopAndAlert` is under way
without the lock; one begins without the lock only while no `StartService` is between storing its
service and saying so; and a `Restart` that was cancelled says `STOPPED` only while the state is not
`STARTED`. -/
def Allowed (s : World τ) (a : τ × Choice) : Prop :=
  (s.pc a.1 = .store → ∀ u, (s.pc u).alerting = false) ∧
  ((s.pc a.1).begins = true → ∀ u, s.pc u ≠ .startDone) ∧
  (s.pc a.1 = .cancelled → s.shared.coreState ≠ .started)

structure Sound (s : World τ) : Prop where
  held : Held Shared.lock holds s
  /-- Only the thread under the lock can come to say `STARTED`. -/
  starting : ∀ t, (s.pc t).starting = true → s.shared.coreState ≠ .started
  /-- Nobody takes a service away that is stored and not yet said to be. -/
  window : ∀ t, s.pc t = .startDone → Running s.shared ∧ ∀ u, (s.pc u).alerting = false
  started : s.shared.coreState = .started → Running s.shared ∧ ∀ t, (s.pc t).closing = false
  settled : SeenTo (fun s => s.startedService = none ∨ s.coreState = .started) settles s
  stated : SeenTo (fun s => s.coreState = .stopped ∨ s.coreState = .started) states s

theorem sound_initial : Sound (initial τ) where
  held t := by simp [initial, holds]
  starting t h := by cases h
  window t h := by cases h
  started h := by cases h
  settled := .inl (.inl rfl)
  stated := .inl (.inl rfl)

theorem act_locks : Locks (@act τ) Shared.lock holds where
  act _ _ _ _ _ _ h := acts_lock (act_acts h)

variable {s s' : World τ} {t : τ} {c : Choice}

section
variable (h : Sound s) (acts : Acts t s.shared (s.pc t) s'.shared (s'.pc t))
  (others : ∀ u, u ≠ t → s'.pc u = s.pc u)
include h acts others

theorem starting_step :
    ∀ u, (s'.pc u).starting = true → s'.shared.coreState ≠ .started := by
  intro u starting started
  by_cases mine : u = t
  · subst mine
    grind [acts_started acts started, acts_starting acts starting, h.starting]
  · rw [others u mine] at starting
    obtain ⟨last, _⟩ | before := acts_started acts started
    · -- both would be under the lock
      exact mine (h.held.unique (by rw [last]; rfl) (starting_holds starting))
    · exact h.starting u starting before

theorem window_step (allowed : Allowed s (t, c)) :
    ∀ u, s'.pc u = .startDone → Running s'.shared ∧ ∀ v, (s'.pc v).alerting = false := by
  intro u window
  by_cases mine : u = t
  · subst mine
    obtain ⟨store, running⟩ := acts_startDone acts window
    refine ⟨running, fun v => ?_⟩
    by_cases same : v = u
    · rw [same, window]
      rfl
    · rw [others v same]
      exact allowed.1 store v
  · rw [others u mine] at window
    obtain ⟨running, quiet⟩ := h.window u window
    have under : (s.pc u).holds = true := by rw [window]; rfl
    have outside : (s.pc t).holds = false := by grind [h.held.unique]
    constructor
    · exact acts_running acts running (by grind [closing_cases]) (by grind)
    · intro v
      by_cases same : v = t
      · subst same
        have began := acts_alerting acts
        grind [allowed.2.1]
      · rw [others v same]
        exact quiet v

theorem started_step :
    s'.shared.coreState = .started → Running s'.shared ∧ ∀ u, (s'.pc u).closing = false := by
  intro started
  obtain ⟨last, done⟩ | before := acts_started acts started
  · obtain ⟨running, quiet⟩ := h.window t last
    have under : (s.pc t).holds = true := by rw [last]; rfl
    constructor
    · exact acts_running acts running (by rw [last]; rfl) (by rw [last]; nofun)
    · intro u
      by_cases same : u = t
      · grind
      · have alone : (s.pc u).holds = true → u = t := h.held.unique under
        rw [others u same]
        grind [closing_cases]
  · obtain ⟨running, quiet⟩ := h.started before
    constructor
    · exact acts_running acts running (quiet t) fun store =>
        h.starting t (by rw [store]; rfl) before
    · grind +splitImp [acts_closing]

theorem settled_step (allowed : Allowed s (t, c)) :
    SeenTo (fun s => s.startedService = none ∨ s.coreState = .started) settles s' := by
  apply seenTo_step h.settled others
  rintro ((none | started) | settles)
  · exact acts_settles acts (.inl none)
  · obtain still | settles | starting | closing | cancelled := acts_unstarts acts started
    · exact .inl (.inr still)
    · exact .inr settles
    · exact absurd started (h.starting t starting)
    · rw [(h.started started).2 t] at closing
      cases closing
    · exact absurd started (allowed.2.2 cancelled)
  · exact acts_settles acts (.inr settles)

end

variable [DecidableEq τ]

theorem sound_step (h : Sound s) (allowed : Allowed s (t, c))
    (taken : step act s (t, c) = some s') : Sound s' := by
  obtain ⟨acted, others⟩ := step_cases taken
  have acts := act_acts acted
  exact ⟨act_locks.held h.held taken, starting_step h acts others,
    window_step h acts others allowed,
    started_step h acts others, settled_step h acts others allowed,
      seenTo_step h.stated others (acts_states acts)⟩

theorem sound_of_run (run : Run (step act) Allowed (initial τ) s) : Sound s := by
  apply run.invariant sound_initial
  exact fun _ _ _ => sound_step

/-- **The state agrees with the service.** In every run of any number of threads whose steps are
allowed, whenever no operation is in progress the state is `STARTED` exactly when a service is
stored and runs, and `STOPPED` exactly when none is. -/
theorem coreState_agrees (run : Run (step act) Allowed (initial τ) s) (quiet : Quiet s) :
    (s.shared.coreState = .started ↔ Running s.shared) ∧
    (s.shared.coreState = .stopped ↔ ¬ Running s.shared) := by
  have sound := sound_of_run run
  have done {done : Shared τ → Prop} {on : Place → Bool} (idle : on .idle = false) :
      SeenTo done on s → done s.shared := by
    rintro (done | ⟨t, here⟩)
    · exact done
    · rw [quiet t, idle] at here
      cases here
  have settled := done rfl sound.settled
  have stated := done rfl sound.stated
  have running : Running s.shared → s.shared.coreState = .started := by
    rintro ⟨service, stored, _⟩
    obtain none | started := settled
    · rw [none] at stored
      cases stored
    · exact started
  refine ⟨⟨fun started => (sound.started started).1, running⟩,
    ⟨fun stopped runs => ?_, fun none => ?_⟩⟩
  · rw [running runs] at stopped
    cases stopped
  · obtain stopped | started := stated
    · exact stopped
    · exact absurd (sound.started started).1 none

end

/-- `StartService` from the call to its return. -/
def startRun (t : Bool) : List (Bool × Choice) :=
  (t, .callStart) :: List.replicate 11 (t, .go)

/-- The part of `Restart` before it waits, when there is no service. -/
def restartRun (t : Bool) : List (Bool × Choice) :=
  (t, .callRestart) :: List.replicate 5 (t, .go)

instance (s : World Bool) (a : Bool × Choice) : Decidable (Allowed s a) :=
  inferInstanceAs (Decidable (_ ∧ _ ∧ _))

instance (s : World Bool) : Decidable (Quiet s) := inferInstanceAs (Decidable (∀ t, s.pc t = .idle))

def seen (s : World Bool) : Bool × CoreState × Option (Nat × Status) :=
  (decide (Quiet s), s.shared.coreState,
    s.shared.startedService.map fun i => (i, s.shared.status i))

/-- One thread waits in `Restart` while another starts, is closed by an alert, and the first goes
on. -/
def allowedRun : List (Bool × Choice) :=
  restartRun false ++ startRun true ++ (true, .callStopAndAlert) :: List.replicate 4 (true, .go) ++
    List.replicate 12 (false, .go)

theorem allowedRun_agrees : ∃ s, Run (step act) Allowed (initial Bool) s ∧ Quiet s ∧
    s.shared.startedService = some 1 ∧ Running s.shared := by
  obtain ⟨s, ran⟩ : ∃ s, exec (step act) (initial Bool) allowedRun = some s := ⟨_, rfl⟩
  have met : AllMet (step act) Allowed (initial Bool) allowedRun := by decide +kernel
  have run : Run (step act) Allowed (initial Bool) s := exec_run ran met
  have facts : ((exec (step act) (initial Bool) allowedRun).map seen) =
      some (true, .started, some (1, .running)) := by decide +kernel
  rw [ran, Option.map_some, Option.some.injEq] at facts
  have quiet : Quiet s := of_decide_eq_true (congrArg Prod.fst facts)
  have started : s.shared.coreState = .started := congrArg (fun x => x.2.1) facts
  obtain ⟨i, stored, runs⟩ := (coreState_agrees run quiet).1.mp started
  have which := congrArg (fun x => x.2.2) facts
  simp only [seen, stored, Option.map_some, Option.some.injEq, Prod.mk.injEq] at which
  exact ⟨s, run, quiet, by rw [stored, which.1], i, stored, runs⟩

/-- A `Restart` that waits while another thread starts, and then is cancelled; and an alert that
begins between the two last assignments of `StartService`. -/
theorem coreState_disagrees :
    ((exec (step act) (initial Bool)
        (restartRun false ++ startRun true ++ [(false, .cancel), (false, .go)])).map seen =
      some (true, .stopped, some (0, .running))) ∧
    ((exec (step act) (initial Bool)
        ((false, .callStart) :: List.replicate 9 (false, .go) ++
          [(true, .callStopAndAlert), (true, .go)] ++
          [(false, .go), (false, .go)] ++ List.replicate 3 (true, .go))).map seen =
      some (true, .started, none)) := by
  decide +kernel

end AiboosterEngine.Core
