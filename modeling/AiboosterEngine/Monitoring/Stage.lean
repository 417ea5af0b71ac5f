import AiboosterEngine.Monitoring.Queue

/-!
# Results a stage waits for

`runStage` counts the tasks it has enqueued and waits for as many results.
-/

namespace AiboosterEngine.Monitoring
open GoSem List State

section
variable {Tag : Type}

def State.unsent (s : State Tag) : List (Task Tag) :=
  s.priorityQueue ++ s.normalQueue ++ s.executing.map Prod.fst ++ s.delayed

/-- How many of them carry a channel. -/
def State.carrying (s : State Tag) (ch : Nat) : Nat :=
  s.unsent.countP fun task => task.resultCh == some ch

/-- While a stage waits on its empty channel, as many tasks carry the channel as it expects
results. -/
def StageBacked (s : State Tag) : Prop :=
  ∀ stage, s.stage = some stage → stage.todo = [] → 0 < stage.expected → stage.results = [] →
    stage.expected ≤ s.carrying stage.resultCh

/-- The invariant. Channels are numbered in the order they are made. -/
structure Counted (s : State Tag) : Prop where
  made : ∀ task ∈ s.unsent, ∀ ch, task.resultCh = some ch → ch < s.channels
  current : ∀ stage, s.stage = some stage → stage.resultCh < s.channels
  count : ∀ stage, s.stage = some stage →
    s.carrying stage.resultCh + stage.results.length = stage.expected
  capacity : ∀ stage, s.stage = some stage →
    stage.expected + stage.todo.length ≤ stage.tags.length

variable {s s' : State Tag} {task : Task Tag} {i : Nat}

theorem Counted.stageBacked (h : Counted s) : StageBacked s := by
  intro stage running _ _ empty
  have := h.count stage running
  simp only [empty, length_nil] at this
  omega

theorem unsent_countP (s : State Tag) (P : Task Tag → Bool) :
    s.unsent.countP P = s.priorityQueue.countP P + s.normalQueue.countP P
      + s.executing.countP (P ∘ Prod.fst) + s.delayed.countP P := by
  simp only [unsent, countP_append, countP_map]

/-- `s'` has the tasks of `s` and those of `more`. -/
def AddsTasks (s : State Tag) (more : List (Task Tag)) (s' : State Tag) : Prop :=
  ∀ P : Task Tag → Bool, s'.unsent.countP P = s.unsent.countP P + more.countP P

theorem AddsTasks.mem {more : List (Task Tag)} (h : AddsTasks s more s') (ht : task ∈ s'.unsent) :
    task ∈ s.unsent ∨ task ∈ more := by
  classical
  have here : 0 < s'.unsent.countP fun t => decide (t = task) :=
    countP_pos_iff.mpr ⟨task, ht, by simp⟩
  rw [h, ← countP_append] at here
  obtain ⟨t, mem, same⟩ := countP_pos_iff.mp here
  have : t = task := by simpa using same
  subst this
  exact mem_append.mp mem

def SameCarried (s s' : State Tag) : Prop :=
  ∀ Q : Nat → Bool, s'.unsent.countP (fun task => task.resultCh.any Q)
    = s.unsent.countP fun task => task.resultCh.any Q

theorem carrying_eq (s : State Tag) (ch : Nat) :
    s.carrying ch = s.unsent.countP fun task => task.resultCh.any (· == ch) := by
  unfold carrying
  congr 1
  funext task
  cases task.resultCh <;> simp

theorem SameCarried.carrying (h : SameCarried s s') (ch : Nat) :
    s'.carrying ch = s.carrying ch := by
  rw [carrying_eq, carrying_eq, h]

theorem Counted.move (h : Counted s) (tasks : SameCarried s s') (stage : s'.stage = s.stage)
    (channels : s'.channels = s.channels) : Counted s' := by
  constructor
  · intro task ht ch hch
    rw [channels]
    have : 0 < s.unsent.countP fun task => task.resultCh.any (· == ch) := by
      rw [← tasks]
      exact countP_pos_iff.mpr ⟨task, ht, by simp [hch]⟩
    obtain ⟨old, mem, carries⟩ := countP_pos_iff.mp this
    exact h.made old mem ch (by cases hr : old.resultCh <;> simp_all)
  · exact fun st hst => channels ▸ h.current st (stage ▸ hst)
  · exact fun st hst => (tasks.carrying _).symm ▸ h.count st (stage ▸ hst)
  · exact fun st hst => h.capacity st (stage ▸ hst)

theorem Counted.carrying_new (h : Counted s) : s.carrying s.channels = 0 := by
  refine countP_eq_zero.mpr fun task ht => ?_
  intro carries
  have := h.made task ht s.channels (by simpa using carries)
  omega

theorem Counted.newStage (h : Counted s) (cycleID cycleSeq url : Nat) (tags : List Tag) :
    Counted { s with
      cycleSeq := cycleSeq
      stage := some ⟨s.channels, cycleID, url, tags, tags, 0, [], []⟩
      channels := s.channels + 1 } := by
  refine ⟨fun task ht ch hch => Nat.lt_succ_of_lt (h.made task ht ch hch), ?_, ?_, ?_⟩ <;>
    rintro st ⟨⟩
  · exact Nat.lt_succ_self _
  · exact h.carrying_new
  · exact Nat.le_of_eq (Nat.zero_add _)

theorem push_adds (task : Task Tag) (s : State Tag) : AddsTasks s [task] (s.push task) := by
  intro P
  unfold push
  split <;> simp only [unsent_countP, countP_append] <;> omega

theorem sendResult_results (task : Task Tag) (success : Bool) (stage : Stage Tag)
    (room : task.resultCh = some stage.resultCh → stage.results.length < stage.tags.length) :
    ∃ results, sendResult task success stage = { stage with results } ∧
      results.length = stage.results.length + [task].countP fun task =>
        task.resultCh == some stage.resultCh := by
  unfold sendResult
  split
  · next sent => exact ⟨_, rfl, by simp [sent.1]⟩
  · next kept => exact ⟨_, rfl, by grind⟩

theorem initial_counted (registered : Tag → Bool) : Counted (initial registered) :=
  ⟨fun _ h => (nomatch h), fun _ h => (nomatch h), fun _ h => (nomatch h), fun _ h => (nomatch h)⟩

theorem set_countP {β : Type} {l : List β} {x y : β} (h : l[i]? = some x) (P : β → Bool)
    (same : P y = P x) :
    (l.set i y).countP P = l.countP P := by
  obtain ⟨a, b, hl, _, hSet⟩ := split_at_index h
  rw [hSet, hl]
  simp [countP_append, countP_cons, same]

theorem eraseIdx_countP {β : Type} {l : List β} {x : β} (h : l[i]? = some x) (P : β → Bool) :
    (l.eraseIdx i).countP P + [x].countP P = l.countP P := by
  obtain ⟨a, b, hl, hErase, _⟩ := split_at_index h
  rw [hErase, hl]
  simp only [countP_append, countP_cons, countP_nil]
  omega

/-- A task at its end leaves a result in the channel of the stage, if it carries this
channel. -/
theorem Counted.finish {failed : Bool} (h : Counted s)
    (here : s.executing[i]? = some (task, .applied failed)) :
    Counted { s with
      executing := s.executing.eraseIdx i, stage := s.stage.map (sendResult task !failed) } := by
  have erased : ∀ P : Task Tag → Bool,
      ({ s with executing := s.executing.eraseIdx i
                stage := s.stage.map (sendResult task !failed) } : State Tag).unsent.countP P
        + [task].countP P = s.unsent.countP P := by
    intro P
    have := eraseIdx_countP here (P ∘ Prod.fst)
    simp only [unsent_countP, countP_cons, countP_nil, Function.comp] at this ⊢
    omega
  have mine : ∀ ch, task.resultCh = some ch → 0 < s.carrying ch := by
    intro ch carries
    have : task ∈ s.executing.map Prod.fst := mem_map.mpr ⟨_, mem_of_getElem? here, rfl⟩
    exact countP_pos_iff.mpr ⟨task, by grind [unsent], by simp [carries]⟩
  have sent : ∀ st, s.stage.map (sendResult task !failed) = some st → ∃ stage results,
      s.stage = some stage ∧ st = { stage with results } ∧
      results.length = stage.results.length + [task].countP fun task =>
        task.resultCh == some stage.resultCh := by
    intro st hst
    obtain ⟨stage, running, rfl⟩ := Option.map_eq_some_iff.mp hst
    have count := h.count stage running
    have capacity := h.capacity stage running
    obtain ⟨results, same, length⟩ := sendResult_results task (!failed) stage fun carries => by
      have := mine _ carries
      omega
    exact ⟨stage, results, running, same, length⟩
  constructor
  · intro t ht ch hch
    have there : ∀ x, x ∈ s.executing.eraseIdx i → x ∈ s.executing := fun x => mem_of_mem_eraseIdx
    exact h.made t (by simp only [unsent, mem_append, mem_map] at ht ⊢; grind) ch hch
  · intro st hst
    obtain ⟨stage, results, running, rfl, _⟩ := sent st hst
    exact h.current stage running
  · intro st hst
    obtain ⟨stage, results, running, rfl, length⟩ := sent st hst
    have count := h.count stage running
    have left := erased fun task => task.resultCh == some stage.resultCh
    unfold carrying at count ⊢
    dsimp only
    omega
  · intro st hst
    obtain ⟨stage, results, running, rfl, _⟩ := sent st hst
    exact h.capacity stage running

theorem Counted.goes_on {p : Progress} (h : Counted s) (here : s.executing[i]? = some (task, p))
    (p' : Progress) :
    Counted { s with executing := s.executing.set i (task, p') } := by
  refine h.move (fun Q => ?_) rfl rfl
  simp only [unsent_countP]
  rw [set_countP here _ (y := (task, p')) rfl]

variable [DecidableEq Tag]

/-- What `enqueueTask` adds to the tasks on their way, and that it leaves the stage alone. -/
theorem enqueue_adds (cfg : Config) (task : Task Tag) (s : State Tag) :
    AddsTasks s (if (enqueueTask cfg task s).1 then [task] else []) (enqueueTask cfg task s).2 ∧
      (enqueueTask cfg task s).2.stage = s.stage ∧
      (enqueueTask cfg task s).2.channels = s.channels := by
  rcases enqueueTask_cases cfg task s with ⟨_, result⟩ | ⟨o, _, _, ⟨_, result⟩ | ⟨_, result⟩⟩ <;>
    rw [result]
  · exact ⟨fun _ => rfl, rfl, rfl⟩
  · exact ⟨fun _ => rfl, rfl, rfl⟩
  · refine ⟨push_adds task _, ?_, ?_⟩ <;> unfold push <;> split <;> rfl

theorem Counted.enqueue (h : Counted s) (cfg : Config) (plain : task.resultCh = none) :
    Counted (enqueueTask cfg task s).2 := by
  obtain ⟨adds, stage, channels⟩ := enqueue_adds cfg task s
  refine h.move (fun Q => ?_) stage channels
  rw [adds]
  split <;> simp [plain]

/-- The stage counts its own task exactly if it was put into the queue. -/
theorem Counted.stageEnqueue (h : Counted s) (cfg : Config) {stage : Stage Tag} {tag : Tag}
    {todo : List Tag} (running : s.stage = some stage) (more : stage.todo = tag :: todo) :
    Counted { (enqueueTask cfg (stage.task tag) s).2 with
      stage := some { stage with
        todo := todo
        expected := if (enqueueTask cfg (stage.task tag) s).1 then stage.expected + 1
          else stage.expected } } := by
  obtain ⟨adds, _, channels⟩ := enqueue_adds cfg (stage.task tag) s
  have count := h.count stage running
  have capacity := h.capacity stage running
  rw [more, length_cons] at capacity
  generalize enqueueTask cfg (stage.task tag) s = result at adds channels ⊢
  constructor
  · intro t ht ch hch
    show ch < result.2.channels
    rw [channels]
    rcases adds.mem ht with old | new
    · exact h.made t old ch hch
    · have : t = stage.task tag := by grind
      subst this
      cases hch
      exact h.current stage running
  · intro st hst
    cases hst
    show stage.resultCh < result.2.channels
    rw [channels]
    exact h.current stage running
  · intro st hst
    cases hst
    show result.2.carrying stage.resultCh + stage.results.length = _
    unfold carrying at count ⊢
    rw [adds]
    cases result.1 with
    | true => simp [Stage.task]; omega
    | false => simp; omega
  · grind

/-- What a step needs: a task that carries a channel is put into its queue when it comes
back from its delay. -/
def KeepsResults (cfg : Config) (s : State Tag) (a : Action Tag) : Prop :=
  ∀ i task, a = .reenqueue i → s.delayed[i]? = some task → task.resultCh ≠ none →
    ∃ o, s.outbounds task.outboundTag = some o ∧
      Passes { task with cycleID := task.cycleID + 1 } o ∧ Room cfg task s

theorem Counted.setTesting (h : Counted s) (tag : Tag) (testing : Bool) :
    Counted (setTesting tag testing s) := by
  unfold Monitoring.setTesting
  split
  · exact h
  · exact h.move (fun _ => rfl) rfl rfl

theorem Counted.applyResult (h : Counted s) (tag : Tag) (failed : Bool) :
    Counted (applyResult tag failed s) := by
  unfold Monitoring.applyResult
  split
  · exact h
  · exact h.move (fun _ => rfl) rfl rfl

omit [DecidableEq Tag] in
theorem Counted.receive {stage : Stage Tag} {expected : Nat} {r : Bool} {results : List Bool}
    (h : Counted s) (running : s.stage = some stage) (exp : stage.expected = expected + 1)
    (res : stage.results = r :: results) :
    Counted { s with stage := some { stage with
      expected := expected, results := results, outcomes := stage.outcomes ++ [r] } } := by
  have count := h.count stage running
  have capacity := h.capacity stage running
  rw [exp, res, length_cons] at count
  refine ⟨h.made, ?_, ?_, ?_⟩ <;> rintro st ⟨⟩
  · exact h.current stage running
  · show s.carrying stage.resultCh + results.length = expected
    omega
  · show expected + stage.todo.length ≤ stage.tags.length
    omega

theorem Counted.reenqueue {cfg : Config} (h : Counted s) (here : s.delayed[i]? = some task)
    (met : KeepsResults cfg s (.reenqueue i)) :
    Counted (enqueueTask cfg { task with cycleID := task.cycleID + 1 }
      { s with delayed := s.delayed.eraseIdx i }).2 := by
  obtain ⟨adds, stage, channels⟩ := enqueue_adds cfg { task with cycleID := task.cycleID + 1 }
    { s with delayed := s.delayed.eraseIdx i }
  refine h.move (fun Q => ?_) stage channels
  have erased := eraseIdx_countP here fun task => task.resultCh.any Q
  rw [adds]
  simp only [unsent_countP]
  by_cases carries : task.resultCh = none
  · grind
  · obtain ⟨o, registered, passes, room⟩ := met i task rfl here carries
    have accepted : (enqueueTask cfg { task with cycleID := task.cycleID + 1 }
        { s with delayed := s.delayed.eraseIdx i }).1 = true := by
      rcases enqueueTask_cases cfg { task with cycleID := task.cycleID + 1 }
        { s with delayed := s.delayed.eraseIdx i } with
        ⟨refused, _⟩ | ⟨_, _, _, ⟨full, _⟩ | ⟨_, result⟩⟩
      · exact absurd passes (refused o registered)
      · exact absurd room full
      · rw [result]
    rw [accepted, if_pos rfl]
    simp only [countP_cons, countP_nil] at erased ⊢
    omega

theorem step_counted {cfg : Config} {a : Action Tag} (h : Counted s) (met : KeepsResults cfg s a)
    (taken : step cfg s a = some s') : Counted s' := by
  cases a with
  | testNow tag priority =>
    rw [step_testNow taken]
    exact h.enqueue cfg rfl
  | invalidateTest tag =>
    obtain ⟨o, _, rfl⟩ := step_invalidateTest taken
    have marked : Counted (s.setOutbound tag { o with invalid := true }) :=
      h.move (fun _ => rfl) rfl rfl
    exact marked.enqueue cfg rfl
  | startCycle tags =>
    obtain ⟨_, rfl | rfl⟩ := step_startCycle taken
    · exact h.move (fun _ => rfl) rfl rfl
    · exact h.newStage (s.cycleSeq + 1) (s.cycleSeq + 1) 0 tags
  | stageEnqueue =>
    obtain ⟨stage, tag, todo, running, more, rfl⟩ := step_stageEnqueue taken
    exact h.stageEnqueue cfg running more
  | stageReceive =>
    obtain ⟨stage, expected, r, results, running, todo, exp, res, rfl⟩ := step_stageReceive taken
    exact h.receive running exp res
  | stageReturn =>
    obtain ⟨stage, _, _, _, rfl | rfl⟩ := step_stageReturn taken
    · exact ⟨h.made, fun _ hst => (nomatch hst), fun _ hst => (nomatch hst),
        fun _ hst => (nomatch hst)⟩
    · exact h.newStage stage.cycleID s.cycleSeq (stage.url + 1) stage.tags
  | take priority =>
    obtain ⟨task, pq, nq, queue, rfl⟩ := step_take taken
    apply Counted.setTesting
    refine h.move (fun Q => ?_) rfl rfl
    rcases queue with ⟨head, rfl⟩ | ⟨head, rfl⟩ <;>
      simp only [unsent_countP, head, countP_append, countP_cons, countP_nil, Function.comp] <;>
        omega
  | notReady i =>
    obtain ⟨task, here, _, rfl⟩ := step_notReady taken
    apply Counted.setTesting
    refine h.move (fun Q => ?_) rfl rfl
    have := eraseIdx_countP here ((fun task : Task Tag => task.resultCh.any Q) ∘ Prod.fst)
    simp only [unsent_countP, countP_append, countP_cons, countP_nil,
      Function.comp] at this ⊢
    omega
  | test i =>
    obtain ⟨task, here, rfl⟩ := step_test taken
    exact h.goes_on here .testing
  | applyResult i failed =>
    obtain ⟨task, here, rfl⟩ := step_applyResult taken
    exact (h.goes_on here (.applied failed)).applyResult _ _
  | finish i =>
    obtain ⟨task, failed, here, rfl⟩ := step_finish taken
    exact (h.finish here).setTesting _ _
  | reenqueue i =>
    obtain ⟨task, here, rfl⟩ := step_reenqueue taken
    exact h.reenqueue here met

/-- In every run in which no delayed task of a stage is dropped, a stage that waits has its
tasks on their way. -/
theorem stageBacked_of_run (cfg : Config) (registered : Tag → Bool) {s : State Tag}
    (run : Run (step cfg) (KeepsResults cfg) (initial registered) s) : StageBacked s :=
  Counted.stageBacked (run.invariant (initial_counted registered)
    fun _ _ _ inv met taken => step_counted inv met taken)

end

/-- A stage that has enqueued its task and waits. -/
theorem waiting_stage_backed : ∃ s : State Unit,
    exec (step {}) (initial fun _ => true) [.startCycle [()], .stageEnqueue] = some s ∧
      s.stage.map (·.expected) = some 1 ∧ StageBacked s := by
  have met : ∀ s, ∀ a ∈ [Action.startCycle [()], .stageEnqueue], KeepsResults {} s a := by
    intro s a ha i task this
    subst this
    simp at ha
  exact ⟨_, rfl, rfl, stageBacked_of_run {} (fun _ => true) (exec_run rfl (.of_forall met _))⟩

/-- The outbound is not ready for nine rounds, then it is tested without success. Before the
result is applied, a test of its group enqueues a task for the cycle in which the stage for
the next link starts again. -/
def overtaken : List (Action Unit) :=
  [.startCycle [()], .stageEnqueue]
    ++ (replicate 9 [.take false, .notReady 0, .reenqueue 0]).flatten
    ++ [.testNow () false, .take false, .test 0, .applyResult 0 true, .finish 0,
      .stageReceive, .stageReturn, .stageEnqueue,
      .take false, .notReady 0, .take false, .notReady 0, .reenqueue 0, .reenqueue 0]

/-- The other task has come back first: the task of the stage is refused, and the stage
expects a result that no task can send. -/
theorem stage_waits_for_ever : ∃ s : State Unit,
    Reachable (step { urls := 2 }) (initial fun _ => true) s ∧ ¬ StageBacked s := by
  have trace : exec (step { urls := 2 }) (initial fun _ => true) overtaken = some _ := rfl
  refine ⟨_, exec_reachable trace, fun backed => ?_⟩
  have := backed _ rfl rfl (by decide) rfl
  exact absurd this (by decide)

end AiboosterEngine.Monitoring
