import Mathlib.Algebra.Group.Int.Defs

/-!
# When the outbound monitor goes idle

`Touch`, `startTimerWorkers`, `stopTimerWorkers` and the ticks of `scheduleLoop` in
`common/monitoring/outbound_monitoring.go`, each as one step. Times are in
nanoseconds. A history lists the events up to now, the last one first.
-/

namespace AiboosterEngine.Monitoring

open List

/-- The fields of `OutboundMonitoring` about its workers. `mainTicker` is whether there is one,
and `lastActive` is `none` for the zero time. -/
structure Monitor where
  started : Bool := false
  workersRunning : Bool := false
  mainTicker : Bool := false
  lastActive : Option Int := none
  deriving DecidableEq, Repr

namespace Monitor

/-- The longest `time.Duration`. -/
def maxDuration : Int := 2 ^ 63 - 1

/-- `time.Since`, which saturates: the zero time is longer ago than a duration can say. -/
def since (now : Int) : Option Int → Int
  | some last => min (now - last) maxDuration
  | none => maxDuration

def startTimerWorkers (m : Monitor) : Monitor :=
  if m.workersRunning then m else { m with workersRunning := true, mainTicker := true }

def stopTimerWorkers (m : Monitor) : Monitor :=
  if m.workersRunning then { m with workersRunning := false, mainTicker := false } else m

def touch (m : Monitor) (now : Int) : Monitor :=
  if !m.started then m
  else if m.mainTicker then { m with lastActive := some now }
  else m.startTimerWorkers

/-- The check of a tick. -/
def idles (idleTimeout : Int) (m : Monitor) (now : Int) : Bool :=
  m.mainTicker && decide (idleTimeout < since now m.lastActive)

def tick (idleTimeout : Int) (m : Monitor) (now : Int) : Monitor :=
  if m.idles idleTimeout now then m.stopTimerWorkers else m

end Monitor

/-- `start` is the end of `Start` in its last stage, `stop` the first thing `Close` does. -/
inductive Event where
  | start | touch | tick | stop
  deriving DecidableEq, Repr

structure Timed where
  time : Int
  event : Event
  deriving DecidableEq, Repr

def Timed.use (e : Timed) : Bool := e.event == .start || e.event == .touch

namespace Monitor

def step (idleTimeout : Int) (m : Monitor) (e : Timed) : Monitor :=
  match e.event with
  | .start => { m with started := true }.touch e.time
  | .touch => m.touch e.time
  | .tick => m.tick idleTimeout e.time
  | .stop => m.stopTimerWorkers

/-- The monitor after a history. -/
def after (idleTimeout : Int) : List Timed → Monitor
  | [] => {}
  | e :: past => step idleTimeout (after idleTimeout past) e

def lastStart (idleTimeout : Int) : List Timed → Option Int
  | [] => none
  | e :: past =>
    if !(after idleTimeout past).mainTicker && (after idleTimeout (e :: past)).mainTicker then
      some e.time
    else lastStart idleTimeout past

section
variable {idleTimeout : Int} {m : Monitor} {e : Timed} {past : List Timed}

/-- The ticker is there while the workers run, and they run only in a started monitor. -/
structure Valid (m : Monitor) : Prop where
  ticker : m.mainTicker = m.workersRunning
  started : m.mainTicker = true → m.started = true

section
variable (valid : m.Valid)
include valid

/-- What a use does to a valid monitor: it is recorded, it starts the workers, or the monitor is
not started. -/
theorem touch_cases (now : Int) :
    (m.started = false ∧ m.mainTicker = false ∧ m.touch now = m) ∨
    (m.started = true ∧ m.mainTicker = true ∧ m.touch now = { m with lastActive := some now }) ∨
    (m.started = true ∧ m.mainTicker = false ∧
      m.touch now = { m with workersRunning := true, mainTicker := true }) := by
  obtain ⟨ticker, started⟩ := valid
  cases isStarted : m.started with
  | false => grind [touch]
  | true => grind [touch, startTimerWorkers]

theorem startUse_valid : ({ m with started := true } : Monitor).Valid :=
  ⟨valid.ticker, fun _ => rfl⟩

theorem touch_valid (now : Int) : (m.touch now).Valid := by
  obtain ⟨_, _, eq⟩ | ⟨_, _, eq⟩ | ⟨started, _, eq⟩ := touch_cases valid now
  · rwa [eq]
  · rw [eq]
    exact ⟨valid.ticker, valid.started⟩
  · rw [eq]
    exact ⟨rfl, fun _ => started⟩

theorem stop_valid : m.stopTimerWorkers.Valid := by
  unfold stopTimerWorkers
  split
  · exact ⟨rfl, fun there => by cases there⟩
  · exact valid

theorem stop_off :
    m.stopTimerWorkers.mainTicker = false ∧ m.stopTimerWorkers.lastActive = m.lastActive := by
  unfold stopTimerWorkers
  split
  · exact ⟨rfl, rfl⟩
  · next off => exact ⟨by rw [valid.ticker]; simpa using off, rfl⟩

theorem step_valid (e : Timed) : (m.step idleTimeout e).Valid := by
  unfold step
  cases e.event with
  | start => exact touch_valid (startUse_valid valid) _
  | touch => exact touch_valid valid _
  | tick =>
    dsimp only [tick]
    split
    · exact stop_valid valid
    · exact valid
  | stop => exact stop_valid valid

end

/-- What an event leaves of the ticker and of the last use: a use of a running monitor is
recorded, one that starts the workers is not. -/
theorem step_cases (idleTimeout : Int) (valid : m.Valid) (e : Timed) :
    (e.use = true ∧ m.mainTicker = true ∧ (m.step idleTimeout e).mainTicker = true ∧
      (m.step idleTimeout e).lastActive = some e.time) ∨
    (e.use = true ∧ m.mainTicker = false ∧ (m.step idleTimeout e).mainTicker = true ∧
      (m.step idleTimeout e).lastActive = m.lastActive) ∨
    ((m.step idleTimeout e).mainTicker = false ∧ (m.step idleTimeout e).lastActive = m.lastActive) ∨
    (e.use = false ∧ m.step idleTimeout e = m) := by
  have touched (m : Monitor) (valid : m.Valid) :
      (m.mainTicker = true ∧ (m.touch e.time).mainTicker = true ∧
        (m.touch e.time).lastActive = some e.time) ∨
      (m.mainTicker = false ∧ (m.touch e.time).mainTicker = true ∧
        (m.touch e.time).lastActive = m.lastActive) ∨
      ((m.touch e.time).mainTicker = false ∧ (m.touch e.time).lastActive = m.lastActive) := by
    obtain ⟨_, off, eq⟩ | ⟨_, on, eq⟩ | ⟨_, off, eq⟩ := touch_cases valid e.time
    · rw [eq]
      exact .inr (.inr ⟨off, rfl⟩)
    · rw [eq]
      exact .inl ⟨on, on, rfl⟩
    · rw [eq]
      exact .inr (.inl ⟨off, rfl, rfl⟩)
  unfold step
  cases kind : e.event with
  | start =>
    have use : e.use = true := by simp [Timed.use, kind]
    obtain recorded | started | off := touched _ (startUse_valid valid)
    · exact .inl ⟨use, recorded⟩
    · exact .inr (.inl ⟨use, started⟩)
    · exact .inr (.inr (.inl off))
  | touch =>
    have use : e.use = true := by simp [Timed.use, kind]
    obtain recorded | started | off := touched m valid
    · exact .inl ⟨use, recorded⟩
    · exact .inr (.inl ⟨use, started⟩)
    · exact .inr (.inr (.inl off))
  | tick =>
    dsimp only [tick]
    split
    · exact .inr (.inr (.inl (stop_off valid)))
    · exact .inr (.inr (.inr ⟨by simp [Timed.use, kind], rfl⟩))
  | stop => exact .inr (.inr (.inl (stop_off valid)))

/-- The times of a history do not decrease. -/
def Ordered (past : List Timed) : Prop :=
  past.Pairwise fun later earlier => earlier.time ≤ later.time

instance (past : List Timed) : Decidable (Ordered past) :=
  inferInstanceAs (Decidable (past.Pairwise fun later earlier => earlier.time ≤ later.time))

theorem after_valid (past : List Timed) : (after idleTimeout past).Valid := by
  induction past with
  | nil => exact ⟨rfl, fun there => by cases there⟩
  | cons e past ih => exact step_valid ih e

/-- What a running monitor knows of its uses: all that are later than the one that started it
are recorded. -/
structure Known (idleTimeout : Int) (past : List Timed) (start : Int) : Prop where
  lastStart : lastStart idleTimeout past = some start
  used : ∃ e ∈ past, e.use = true ∧ e.time = start
  recorded : ∀ e ∈ past, e.use = true → e.time ≤ start ∨
    ∃ a, (after idleTimeout past).lastActive = some a ∧ e.time ≤ a

theorem running_known (ordered : Ordered past)
    (running : (after idleTimeout past).mainTicker = true) :
    ∃ start, Known idleTimeout past start := by
  induction past with
  | nil => cases running
  | cons e past ih =>
    obtain ⟨before, ordered⟩ := pairwise_cons.mp ordered
    have latest : ∀ e' ∈ e :: past, e'.time ≤ e.time :=
      forall_mem_cons.mpr ⟨Int.le_refl _, before⟩
    have kept (on : (after idleTimeout past).mainTicker = true) :
        lastStart idleTimeout (e :: past) = lastStart idleTimeout past := by
      simp [lastStart, on]
    obtain ⟨_, on, _, now⟩ | ⟨use, off, on, _⟩ | ⟨off, _⟩ | ⟨notUse, same⟩ :=
      step_cases idleTimeout (after_valid past) e
    · obtain ⟨start, known⟩ := ih ordered on
      obtain ⟨e', member, used⟩ := known.used
      refine ⟨start, (kept on).trans known.lastStart, ⟨e', mem_cons_of_mem _ member, used⟩, ?_⟩
      intro e' member _
      exact .inr ⟨e.time, now, latest e' member⟩
    · refine ⟨e.time, ?_, ⟨e, mem_cons_self, use, rfl⟩, fun e' member _ => .inl (latest e' member)⟩
      simp [lastStart, off, after, on]
    · rw [after, off] at running
      cases running
    · have sameAfter : after idleTimeout (e :: past) = after idleTimeout past := same
      rw [sameAfter] at running
      obtain ⟨start, known⟩ := ih ordered running
      obtain ⟨e', member, used⟩ := known.used
      refine ⟨start, (kept running).trans known.lastStart, ⟨e', mem_cons_of_mem _ member, used⟩, ?_⟩
      intro e' member use
      obtain rfl | earlier := mem_cons.mp member
      · rw [notUse] at use
        cases use
      · rw [sameAfter]
        exact known.recorded e' earlier use

end

/-- A tick that finds the monitor idle: no use within `idleTimeout` before it, exactly when the use
that started the workers was earlier. -/
theorem idle_iff (idleTimeout : Int) (past : List Timed) (ordered : Ordered past) (now : Int)
    (idle : (after idleTimeout past).idles idleTimeout now = true) :
    ∃ start, lastStart idleTimeout past = some start ∧
      ((∀ e ∈ past, e.use = true → idleTimeout < now - e.time) ↔ idleTimeout < now - start) := by
  obtain ⟨running, expired⟩ : (after idleTimeout past).mainTicker = true ∧
      idleTimeout < since now (after idleTimeout past).lastActive := by
    simpa [idles] using idle
  obtain ⟨start, known⟩ := running_known ordered running
  refine ⟨start, known.lastStart, ?_, ?_⟩
  · intro all
    obtain ⟨e, member, use, rfl⟩ := known.used
    exact all e member use
  · intro earlier e member use
    obtain before | ⟨a, active, before⟩ := known.recorded e member use
    · omega
    · rw [active, since] at expired
      omega

/-- Touched at 0 and 5, with a timeout of 10: the tick at 20 stops the workers. -/
theorem idle_iff_unused :
    (after 10 [⟨5, .touch⟩, ⟨0, .start⟩]).idles 10 20 = true ∧
      ∃ start, lastStart 10 [⟨5, .touch⟩, ⟨0, .start⟩] = some start ∧
        ((∀ e ∈ [Timed.mk 5 .touch, ⟨0, .start⟩], e.use = true → 10 < 20 - e.time) ↔
          10 < 20 - start) :=
  ⟨by decide, idle_iff 10 _ (by decide) 20 (by decide)⟩

/-- With the default timeout of ten minutes and the default interval of five, the first tick after
the start of the workers stops them, and so does the first tick after a use has started them
again. -/
theorem idle_after_use :
    (after 600000000000 [⟨0, .start⟩]).idles 600000000000 300000000000 = true ∧
    (after 600000000000 [⟨300000000001, .touch⟩, ⟨300000000000, .tick⟩, ⟨0, .start⟩]).idles
      600000000000 600000000001 = true := by
  decide

end Monitor

end AiboosterEngine.Monitoring
