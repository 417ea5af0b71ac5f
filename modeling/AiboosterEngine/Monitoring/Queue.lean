import AiboosterEngine.GoSem.Steps

/-!
# The test queues of the outbound monitor

`common/monitoring/outbound_monitoring.go`: requests for a test are put into
two bounded queues, workers take them and test, a cycle waits for the results
of its own requests. A step is what one goroutine does between two points
where another can see it. The context is never cancelled.
-/

namespace AiboosterEngine.Monitoring

open Option

section
variable {Tag : Type}

/-- `testTask`. `resultCh` numbers the channels that `runStage` makes. -/
structure Task (Tag : Type) where
  outboundTag : Tag
  cycleID : Nat
  priority : Bool
  resultCh : Option Nat
  deriving DecidableEq, Repr

/-- The fields of `outboundState` that requests and results touch. -/
structure OutboundState where
  queued : Bool := false
  priorityQueued : Bool := false
  enqueuedCycle : Nat := 0
  testing : Bool := false
  invalid : Bool := true
  deriving DecidableEq, Repr

/-- How far `executeTask` has come: taken from the queue, in `tester`, past `applyResult`
with the outcome of the test. -/
inductive Progress where
  | taken | testing | applied (failed : Bool)
  deriving DecidableEq, Repr

/-- `runStage` and the part of `runCycle` around it. `todo` are the tags whose task is not
made yet; `results` is what is buffered in `resultCh`, `outcomes` what was received, `true`
for a test without an error. -/
structure Stage (Tag : Type) where
  resultCh : Nat
  cycleID : Nat
  url : Nat
  tags : List Tag
  todo : List Tag
  expected : Nat := 0
  results : List Bool := []
  outcomes : List Bool := []
  deriving DecidableEq, Repr

structure Config where
  priorityCapacity : Nat := 1000
  normalCapacity : Nat := 10000
  workers : Nat := 10
  urls : Nat := 1

/-- `delayed` are the tasks of the goroutines that wait to enqueue a task again; `stage` is
there while `cycleRunning` is set; `channels` counts the channels made. -/
structure State (Tag : Type) where
  outbounds : Tag → Option OutboundState
  priorityQueue : List (Task Tag) := []
  normalQueue : List (Task Tag) := []
  executing : List (Task Tag × Progress) := []
  delayed : List (Task Tag) := []
  cycleSeq : Nat := 0
  stage : Option (Stage Tag) := none
  channels : Nat := 0

variable [DecidableEq Tag]

def State.setOutbound (s : State Tag) (tag : Tag) (o : OutboundState) : State Tag :=
  { s with outbounds := fun t => if t = tag then some o else s.outbounds t }

variable (cfg : Config)

/-- `enqueueTask`. The flags are set before the send, and stay when the queue is full. -/
def enqueueTask (task : Task Tag) (s : State Tag) : Bool × State Tag :=
  match s.outbounds task.outboundTag with
  | none => (false, s)
  | some o =>
    if task.priority then
      if o.priorityQueued then (false, s)
      else
        let s := s.setOutbound task.outboundTag { o with priorityQueued := true }
        if s.priorityQueue.length < cfg.priorityCapacity then
          (true, { s with priorityQueue := s.priorityQueue ++ [task] })
        else (false, s)
    else
      if o.enqueuedCycle = task.cycleID then (false, s)
      else
        let s := s.setOutbound task.outboundTag
          { o with enqueuedCycle := task.cycleID, queued := true }
        if s.normalQueue.length < cfg.normalCapacity then
          (true, { s with normalQueue := s.normalQueue ++ [task] })
        else (false, s)

/-- `applyResult`, as far as the flags go. -/
def applyResult (tag : Tag) (failed : Bool) (s : State Tag) : State Tag :=
  match s.outbounds tag with
  | none => s
  | some o => s.setOutbound tag
      { o with queued := false, priorityQueued := false, enqueuedCycle := 0, invalid := failed }

def setTesting (tag : Tag) (testing : Bool) (s : State Tag) : State Tag :=
  match s.outbounds tag with
  | none => s
  | some o => s.setOutbound tag { o with testing := testing }

/-- The send on `resultCh`, which gives up when the channel is full. Only the stage that
made the channel reads it. -/
def sendResult (task : Task Tag) (success : Bool) (stage : Stage Tag) : Stage Tag :=
  if task.resultCh = some stage.resultCh ∧ stage.results.length < stage.tags.length then
    { stage with results := stage.results ++ [success] }
  else stage

inductive Action (Tag : Type) where
  /-- `testNow` on an outbound; for a group it is called on each member. -/
  | testNow (tag : Tag) (priority : Bool)
  | invalidateTest (tag : Tag)
  /-- `startCycleOnce`, with what `collectCycleTargets` gives. -/
  | startCycle (tags : List Tag)
  /-- One iteration of the first loop of `runStage`. -/
  | stageEnqueue
  /-- One iteration of its second loop. -/
  | stageReceive
  /-- `runStage` returns: the cycle goes on with the next link or ends. -/
  | stageReturn
  | take (priority : Bool)
  | notReady (i : Nat)
  | test (i : Nat)
  | applyResult (i : Nat) (failed : Bool)
  /-- The end of `executeTask`. -/
  | finish (i : Nat)
  | reenqueue (i : Nat)
  deriving Repr

/-- The task of one iteration of the first loop of `runStage`. -/
def Stage.task (stage : Stage Tag) (tag : Tag) : Task Tag :=
  ⟨tag, stage.cycleID, false, some stage.resultCh⟩

def step (s : State Tag) : Action Tag → Option (State Tag)
  | .testNow tag priority => some (enqueueTask cfg ⟨tag, s.cycleSeq, priority, none⟩ s).2
  | .invalidateTest tag => do
    let o ← s.outbounds tag
    let s := s.setOutbound tag { o with invalid := true }
    pure (enqueueTask cfg ⟨tag, s.cycleSeq, true, none⟩ s).2
  | .startCycle tags =>
    if s.stage.isSome then none
    else
      let cycleID := s.cycleSeq + 1
      if tags.isEmpty then some { s with cycleSeq := cycleID }
      else some { s with
        cycleSeq := cycleID
        stage := some ⟨s.channels, cycleID, 0, tags, tags, 0, [], []⟩
        channels := s.channels + 1 }
  | .stageEnqueue => do
    let stage ← s.stage
    match stage.todo with
    | [] => none
    | tag :: todo =>
      let (ok, s) := enqueueTask cfg (stage.task tag) s
      let expected := if ok then stage.expected + 1 else stage.expected
      some { s with stage := some { stage with todo := todo, expected := expected } }
  | .stageReceive => do
    let stage ← s.stage
    match stage.todo, stage.expected, stage.results with
    | [], expected + 1, r :: results =>
      some { s with stage := some { stage with
        expected := expected, results := results, outcomes := stage.outcomes ++ [r] } }
    | _, _, _ => none
  | .stageReturn => do
    let stage ← s.stage
    if stage.todo.isEmpty && stage.expected == 0 then
      if stage.outcomes.any id || stage.url + 1 == cfg.urls then some { s with stage := none }
      else some { s with
        stage := some ⟨s.channels, stage.cycleID, stage.url + 1, stage.tags, stage.tags, 0, [], []⟩
        channels := s.channels + 1 }
    else none
  | .take priority =>
    if s.executing.length < cfg.workers then
      match (if priority then s.priorityQueue else s.normalQueue) with
      | [] => none
      | task :: rest =>
        let s :=
          if priority then { s with priorityQueue := rest } else { s with normalQueue := rest }
        some (setTesting task.outboundTag true
          { s with executing := s.executing ++ [(task, .taken)] })
    else none
  | .notReady i =>
    match s.executing[i]? with
    | some (task, .taken) =>
      if task.cycleID < 10 then
        some (setTesting task.outboundTag false
          { s with executing := s.executing.eraseIdx i, delayed := s.delayed ++ [task] })
      else none
    | _ => none
  | .test i =>
    match s.executing[i]? with
    | some (task, .taken) => some { s with executing := s.executing.set i (task, .testing) }
    | _ => none
  | .applyResult i failed =>
    match s.executing[i]? with
    | some (task, .testing) =>
      some (applyResult task.outboundTag failed
        { s with executing := s.executing.set i (task, .applied failed) })
    | _ => none
  | .finish i =>
    match s.executing[i]? with
    | some (task, .applied failed) =>
      some (setTesting task.outboundTag false
        { s with
          executing := s.executing.eraseIdx i
          stage := s.stage.map (sendResult task !failed) })
    | _ => none
  | .reenqueue i => do
    let task ← s.delayed[i]?
    let s := { s with delayed := s.delayed.eraseIdx i }
    pure (enqueueTask cfg { task with cycleID := task.cycleID + 1 } s).2

def initial (registered : Tag → Bool) : State Tag where
  outbounds tag := if registered tag then some {} else none

/-- The outbound's flags let the task pass. -/
def Passes (task : Task Tag) (o : OutboundState) : Prop :=
  if task.priority then o.priorityQueued = false else o.enqueuedCycle ≠ task.cycleID

def Room (task : Task Tag) (s : State Tag) : Prop :=
  if task.priority then s.priorityQueue.length < cfg.priorityCapacity
  else s.normalQueue.length < cfg.normalCapacity

/-- The flags of an outbound whose task has passed. -/
def flagged (task : Task Tag) (o : OutboundState) : OutboundState :=
  if task.priority then { o with priorityQueued := true }
  else { o with enqueuedCycle := task.cycleID, queued := true }

def State.push (task : Task Tag) (s : State Tag) : State Tag :=
  if task.priority then { s with priorityQueue := s.priorityQueue ++ [task] }
  else { s with normalQueue := s.normalQueue ++ [task] }

/-- A task is refused and nothing changes, or its queue is full and the flags have changed,
or it is in the queue. -/
theorem enqueueTask_cases (task : Task Tag) (s : State Tag) :
    ((∀ o, s.outbounds task.outboundTag = some o → ¬ Passes task o) ∧
      enqueueTask cfg task s = (false, s)) ∨
    ∃ o, s.outbounds task.outboundTag = some o ∧ Passes task o ∧
      ((¬ Room cfg task s ∧
        enqueueTask cfg task s = (false, s.setOutbound task.outboundTag (flagged task o))) ∨
      (Room cfg task s ∧ enqueueTask cfg task s =
        (true, (s.setOutbound task.outboundTag (flagged task o)).push task))) := by
  cases registered : s.outbounds task.outboundTag with
  | none => exact .inl ⟨fun _ h => (nomatch h), by simp [enqueueTask, registered]⟩
  | some o =>
    cases prio : task.priority <;>
      grind [Passes, enqueueTask, Room, flagged, State.push, State.setOutbound]

section
variable {cfg : Config} {s s' : State Tag} {priority : Bool}

theorem step_testNow {tag : Tag}
    (h : step cfg s (.testNow tag priority) = some s') :
    s' = (enqueueTask cfg ⟨tag, s.cycleSeq, priority, none⟩ s).2 := by
  grind [step]

theorem step_invalidateTest {tag : Tag} (h : step cfg s (.invalidateTest tag) = some s') :
    ∃ o, s.outbounds tag = some o ∧
      s' = (enqueueTask cfg ⟨tag, s.cycleSeq, true, none⟩
        (s.setOutbound tag { o with invalid := true })).2 := by
  obtain ⟨o, registered, h⟩ := bind_eq_some_iff.mp h
  cases h
  exact ⟨o, registered, rfl⟩

theorem step_startCycle {tags : List Tag} (h : step cfg s (.startCycle tags) = some s') :
    s.stage = none ∧
    (s' = { s with cycleSeq := s.cycleSeq + 1 } ∨
      s' = { s with
        cycleSeq := s.cycleSeq + 1
        stage := some ⟨s.channels, s.cycleSeq + 1, 0, tags, tags, 0, [], []⟩
        channels := s.channels + 1 }) := by
  grind [step, isSome_iff_ne_none]

theorem step_stageEnqueue (h : step cfg s .stageEnqueue = some s') :
    ∃ stage tag todo, s.stage = some stage ∧ stage.todo = tag :: todo ∧
      s' = { (enqueueTask cfg (stage.task tag) s).2 with
        stage := some { stage with
          todo := todo
          expected := if (enqueueTask cfg (stage.task tag) s).1 then stage.expected + 1
            else stage.expected } } := by
  grind [step, bind_eq_some_iff]

theorem step_stageReceive (h : step cfg s .stageReceive = some s') :
    ∃ stage expected r results, s.stage = some stage ∧ stage.todo = [] ∧
      stage.expected = expected + 1 ∧ stage.results = r :: results ∧
      s' = { s with stage := some { stage with
        expected := expected, results := results, outcomes := stage.outcomes ++ [r] } } := by
  grind [step, bind_eq_some_iff]

theorem step_stageReturn (h : step cfg s .stageReturn = some s') :
    ∃ stage, s.stage = some stage ∧ stage.todo = [] ∧ stage.expected = 0 ∧
      (s' = { s with stage := none } ∨
        s' = { s with
          stage :=
            some ⟨s.channels, stage.cycleID, stage.url + 1, stage.tags, stage.tags, 0, [], []⟩
          channels := s.channels + 1 }) := by
  grind [step, bind_eq_some_iff]

theorem step_take (h : step cfg s (.take priority) = some s') :
    ∃ task pq nq,
      (s.priorityQueue = task :: pq ∧ nq = s.normalQueue ∨
        s.normalQueue = task :: nq ∧ pq = s.priorityQueue) ∧
      s' = setTesting task.outboundTag true { s with
        priorityQueue := pq, normalQueue := nq, executing := s.executing ++ [(task, .taken)] } := by
  grind [step]

variable {i : Nat}

theorem step_notReady (h : step cfg s (.notReady i) = some s') :
    ∃ task, s.executing[i]? = some (task, .taken) ∧ task.cycleID < 10 ∧
      s' = setTesting task.outboundTag false { s with
        executing := s.executing.eraseIdx i, delayed := s.delayed ++ [task] } := by
  grind [step]

theorem step_test (h : step cfg s (.test i) = some s') :
    ∃ task, s.executing[i]? = some (task, .taken) ∧
      s' = { s with executing := s.executing.set i (task, .testing) } := by
  simp only [step] at h
  split at h
  · rename_i task here
    cases h
    exact ⟨task, here, rfl⟩
  · cases h

theorem step_applyResult {failed : Bool}
    (h : step cfg s (.applyResult i failed) = some s') :
    ∃ task, s.executing[i]? = some (task, .testing) ∧
      s' = applyResult task.outboundTag failed
        { s with executing := s.executing.set i (task, .applied failed) } := by
  grind [step]

theorem step_finish (h : step cfg s (.finish i) = some s') :
    ∃ task failed, s.executing[i]? = some (task, .applied failed) ∧
      s' = setTesting task.outboundTag false { s with
        executing := s.executing.eraseIdx i, stage := s.stage.map (sendResult task !failed) } := by
  grind [step]

theorem step_reenqueue (h : step cfg s (.reenqueue i) = some s') :
    ∃ task, s.delayed[i]? = some task ∧
      s' = (enqueueTask cfg { task with cycleID := task.cycleID + 1 }
        { s with delayed := s.delayed.eraseIdx i }).2 := by
  obtain ⟨task, here, h⟩ := bind_eq_some_iff.mp h
  cases h
  exact ⟨task, here, rfl⟩

end

end

end AiboosterEngine.Monitoring
