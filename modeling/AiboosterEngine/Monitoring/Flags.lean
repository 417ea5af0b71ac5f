import AiboosterEngine.Monitoring.Queue

/-!
# Flags and tasks

An outbound whose flag is set is passed over by cycles and refused by
`enqueueTask`, until a result clears the flag. So a flag should stand for a
task that is still on its way.
-/

namespace AiboosterEngine.Monitoring
open GoSem List State

section
variable {Tag : Type}

def PriorityTaskAlive (s : State Tag) (tag : Tag) : Prop :=
  ∃ task : Task Tag, task.outboundTag = tag ∧ task.priority = true ∧
    (task ∈ s.priorityQueue ∨ task ∈ s.executing.map Prod.fst ∨ task ∈ s.delayed)

def NormalTaskAlive (s : State Tag) (tag : Tag) : Prop :=
  ∃ task : Task Tag, task.outboundTag = tag ∧ task.priority = false ∧
    (task ∈ s.normalQueue ∨ task ∈ s.executing.map Prod.fst ∨ task ∈ s.delayed)

/-- Every flag of a registered outbound stands for a task. -/
def FlagsBacked (s : State Tag) : Prop :=
  ∀ tag o, s.outbounds tag = some o →
    (o.priorityQueued = true → PriorityTaskAlive s tag) ∧
    (o.queued = true → NormalTaskAlive s tag)

def Progress.isApplied : Progress → Bool
  | .applied _ => true
  | _ => false

/-- The task is in its queue, is delayed, or is executed and its result not yet applied. -/
def Pending (s : State Tag) (task : Task Tag) : Prop :=
  task ∈ (if task.priority then s.priorityQueue else s.normalQueue) ∨
    (∃ p, (task, p) ∈ s.executing ∧ p.isApplied = false) ∨ task ∈ s.delayed

variable {s : State Tag} {task : Task Tag} {s' : State Tag} {i : Nat} {cfg : Config}

theorem Pending.priorityAlive (h : Pending s task) (prio : task.priority = true) :
    PriorityTaskAlive s task.outboundTag := by
  refine ⟨task, rfl, prio, ?_⟩
  grind [Pending]

theorem Pending.normalAlive (h : Pending s task) (prio : task.priority = false) :
    NormalTaskAlive s task.outboundTag := by
  refine ⟨task, rfl, prio, ?_⟩
  grind [Pending]

/-- The flag of a kind of task, priority or normal. -/
def OutboundState.flagOf (o : OutboundState) (priority : Bool) : Bool :=
  if priority then o.priorityQueued else o.queued

/-- The flag of one kind stands for a task. A normal task is the one that was enqueued for
the recorded cycle: a task that comes back later has another. -/
def BackedAt (s : State Tag) (priority : Bool) (tag : Tag) (o : OutboundState) : Prop :=
  o.flagOf priority = true → ∃ task, Pending s task ∧ task.outboundTag = tag ∧
    task.priority = priority ∧ (priority = false → task.cycleID = o.enqueuedCycle)

def Backed (s : State Tag) : Prop :=
  ∀ priority tag o, s.outbounds tag = some o → BackedAt s priority tag o

theorem Backed.flagsBacked (h : Backed s) : FlagsBacked s := by
  intro tag o registered
  constructor
  · intro set
    obtain ⟨task, pending, rfl, prio, _⟩ := h true tag o registered set
    exact pending.priorityAlive prio
  · intro set
    obtain ⟨task, pending, rfl, prio, _⟩ := h false tag o registered set
    exact pending.normalAlive prio

theorem initial_backed (registered : Tag → Bool) : Backed (initial registered) := by
  intro priority tag o here set
  have : o = {} := by grind [initial]
  subst this
  cases priority <;> cases set

/-- The flags of `s'` are those of `s`. -/
def SameFlags (s s' : State Tag) : Prop :=
  ∀ tag o', s'.outbounds tag = some o' → ∃ o, s.outbounds tag = some o ∧
    (∀ priority, o'.flagOf priority = o.flagOf priority) ∧ o'.enqueuedCycle = o.enqueuedCycle

theorem SameFlags.of_eq (h : s'.outbounds = s.outbounds) : SameFlags s s' := by
  intro tag o' registered
  exact ⟨o', h ▸ registered, fun _ => rfl, rfl⟩

theorem Backed.move (h : Backed s) (flags : SameFlags s s')
    (keep : ∀ task, Pending s task → Pending s' task) :
    Backed s' := by
  intro priority tag o' registered set
  obtain ⟨o, before, same, cycle⟩ := flags tag o' registered
  rw [same] at set
  obtain ⟨task, pending, htag, prio, cyc⟩ := h priority tag o before set
  exact ⟨task, keep task pending, htag, prio, fun n => by rw [cycle]; exact cyc n⟩

theorem take_pending {pq nq : List (Task Tag)}
    (queue : s.priorityQueue = task :: pq ∧ nq = s.normalQueue ∨
      s.normalQueue = task :: nq ∧ pq = s.priorityQueue)
    (t : Task Tag) (pending : Pending s t) :
    Pending { s with
      priorityQueue := pq, normalQueue := nq, executing := s.executing ++ [(task, .taken)] } t := by
  rcases pending with queued | ⟨p, run, notYet⟩ | delayed
  · by_cases this : t = task
    · subst this
      exact .inr (.inl ⟨.taken, by simp, rfl⟩)
    · refine .inl ?_
      rcases queue with ⟨head, rfl⟩ | ⟨head, rfl⟩ <;> cases prio : t.priority <;> simp_all
  · exact .inr (.inl ⟨p, mem_append_left _ run, notYet⟩)
  · exact .inr (.inr delayed)

/-- A place of `executing` is changed or given up: every other task stays, and the one in
this place if it goes on as pending. -/
theorem Pending.keep {t : Task Tag} {p : Progress} (pending : Pending s t)
    (here : s.executing[i]? = some (task, p))
    (pq : s'.priorityQueue = s.priorityQueue) (nq : s'.normalQueue = s.normalQueue)
    (de : ∀ t ∈ s.delayed, t ∈ s'.delayed)
    (ex : s'.executing = s.executing.eraseIdx i ∨ ∃ y, s'.executing = s.executing.set i y)
    (own : t = task → p.isApplied = false → Pending s' t) : Pending s' t := by
  obtain ⟨before, after, hl, hErase, hSet⟩ := split_at_index here
  have stays : ∀ x, x ∈ before ++ after → x ∈ s'.executing := by
    intro x hx
    rcases ex with h | ⟨y, h⟩
    · rw [h, hErase]; exact hx
    · rw [h, hSet]
      rcases mem_append.mp hx with hx | hx
      · exact mem_append_left _ hx
      · exact mem_append_right _ (mem_cons_of_mem _ hx)
  rcases pending with queued | ⟨q, run, notYet⟩ | delayed
  · exact .inl (by rw [pq, nq]; exact queued)
  · rw [hl] at run
    rcases mem_append.mp run with run | run
    · exact .inr (.inl ⟨q, stays _ (mem_append_left _ run), notYet⟩)
    · rcases mem_cons.mp run with same | run
      · cases same
        exact own rfl notYet
      · exact .inr (.inl ⟨q, stays _ (mem_append_right _ run), notYet⟩)
  · exact .inr (.inr (de t delayed))

theorem push_pending (task : Task Tag) (s : State Tag) : Pending (s.push task) task := by
  unfold Pending push
  cases task.priority <;> simp

theorem push_keeps {t : Task Tag} (h : Pending s t) : Pending (s.push task) t := by
  grind [Pending, push]

theorem flagged_other (task : Task Tag) (o : OutboundState) {priority : Bool}
    (h : priority ≠ task.priority) :
    (flagged task o).flagOf priority = o.flagOf priority ∧
      (priority = false → (flagged task o).enqueuedCycle = o.enqueuedCycle) := by
  unfold flagged OutboundState.flagOf
  cases priority <;> cases prio : task.priority <;> simp_all

theorem flagged_cycle (task : Task Tag) (o : OutboundState) (h : task.priority = false) :
    (flagged task o).enqueuedCycle = task.cycleID := by
  simp [flagged, h]

variable [DecidableEq Tag]

theorem setOutbound_sameFlags {tag : Tag} {o o' : OutboundState}
    (registered : s.outbounds tag = some o)
    (same : ∀ priority, o'.flagOf priority = o.flagOf priority)
    (cycle : o'.enqueuedCycle = o.enqueuedCycle) :
    SameFlags s (s.setOutbound tag o') := by
  intro t o₁ h
  by_cases here : t = tag <;> grind [setOutbound]

theorem Backed.setTesting (h : Backed s) (tag : Tag) (testing : Bool) :
    Backed (setTesting tag testing s) := by
  unfold Monitoring.setTesting
  split
  · exact h
  · next o registered =>
      exact h.move (setOutbound_sameFlags registered (fun _ => rfl) rfl) fun t pending => pending

/-- Enqueuing keeps the flags backed, if they were all backed before, the one of the task
itself only where it makes `enqueueTask` refuse the task. -/
theorem enqueue_backed (before : ∀ priority tag o, s.outbounds tag = some o →
      (priority = task.priority ∧ tag = task.outboundTag → ¬ Passes task o) →
      BackedAt s priority tag o)
    (room : ∀ o, s.outbounds task.outboundTag = some o → Passes task o → Room cfg task s) :
    Backed (enqueueTask cfg task s).2 := by
  rcases enqueueTask_cases cfg task s with ⟨refused, result⟩ | ⟨o, registered, passes, full⟩
  · rw [result]
    exact fun priority tag o registered => before priority tag o registered fun ⟨_, own⟩ =>
      refused o (own ▸ registered)
  · obtain ⟨none, _⟩ | ⟨_, result⟩ := full
    · exact absurd (room o registered passes) none
    · rw [result]
      intro priority tag o' after set
      have kept : ∀ t, Pending s t →
        Pending (push task (s.setOutbound task.outboundTag (flagged task o))) t :=
        fun t pending => push_keeps pending
      by_cases here : tag = task.outboundTag
      · subst here
        have : o' = flagged task o := by grind [push, setOutbound]
        subst this
        by_cases own : priority = task.priority
        · subst own
          exact ⟨task, push_pending task _, rfl, rfl,
            fun normal => (flagged_cycle task o normal).symm⟩
        · obtain ⟨same, cycle⟩ := flagged_other task o own
          rw [same] at set
          obtain ⟨t, pending, htag, prio, cyc⟩ :=
            before priority task.outboundTag o registered (fun h => absurd h.1 own) set
          exact ⟨t, kept t pending, htag, prio, fun n => by rw [cycle n]; exact cyc n⟩
      · have : s.outbounds tag = some o' := by grind [push, setOutbound]
        obtain ⟨t, pending, htag, prio, cyc⟩ :=
          before priority tag o' this (fun h => absurd h.2 here) set
        exact ⟨t, kept t pending, htag, prio, cyc⟩

/-- The task that an action hands to `enqueueTask`. -/
def Action.enqueues (s : State Tag) : Action Tag → Option (Task Tag)
  | .testNow tag priority => some ⟨tag, s.cycleSeq, priority, none⟩
  | .invalidateTest tag => some ⟨tag, s.cycleSeq, true, none⟩
  | .stageEnqueue => s.stage.bind fun stage => stage.todo.head?.map stage.task
  | .reenqueue i => s.delayed[i]?.map fun task => { task with cycleID := task.cycleID + 1 }
  | _ => none

/-- What a step needs: a task that passes finds room in its queue, and a delayed priority
task that finds its flag set is not the last priority task of the outbound. -/
structure KeepsFlags (cfg : Config) (s : State Tag) (a : Action Tag) : Prop where
  room : ∀ task o, a.enqueues s = some task → s.outbounds task.outboundTag = some o →
    Passes task o → Room cfg task s
  retry : ∀ i task o, a = .reenqueue i → s.delayed[i]? = some task → task.priority = true →
    s.outbounds task.outboundTag = some o → o.priorityQueued = true →
    ∃ t, Pending { s with delayed := s.delayed.eraseIdx i } t ∧
      t.outboundTag = task.outboundTag ∧ t.priority = true

theorem applyResult_pending (tag : Tag) (failed : Bool) (h : Pending s task) :
    Pending (applyResult tag failed s) task := by
  unfold applyResult
  split <;> exact h

theorem applyResult_flags {tag t : Tag} {failed : Bool} {o : OutboundState}
    (h : (applyResult tag failed s).outbounds t = some o) :
    (t = tag ∧ ∀ priority, o.flagOf priority = false) ∨ (t ≠ tag ∧ s.outbounds t = some o) := by
  grind [applyResult, setOutbound, OutboundState.flagOf]

theorem applyResult_backed {failed : Bool} (h : Backed s)
    (here : s.executing[i]? = some (task, .testing)) :
    Backed (applyResult task.outboundTag failed
      { s with executing := s.executing.set i (task, .applied failed) }) := by
  intro priority tag o registered set
  rcases applyResult_flags registered with ⟨_, cleared⟩ | ⟨other, before⟩
  · simp [cleared] at set
  · obtain ⟨t, pending, rfl, prio, cyc⟩ := h priority tag o before set
    refine ⟨t, applyResult_pending _ _ ?_, rfl, prio, cyc⟩
    refine pending.keep here rfl rfl (fun _ h => h) (.inr ⟨_, rfl⟩) ?_
    rintro rfl
    exact absurd rfl other

theorem reenqueue_backed (h : Backed s) (here : s.delayed[i]? = some task)
    (met : KeepsFlags cfg s (.reenqueue i)) :
    Backed (enqueueTask cfg { task with cycleID := task.cycleID + 1 }
      { s with delayed := s.delayed.eraseIdx i }).2 := by
  obtain ⟨before, after, hl, hErase, _⟩ := split_at_index here
  have others : ∀ t, Pending s t → t ≠ task →
      Pending { s with delayed := s.delayed.eraseIdx i } t := by
    rintro t (queued | run | delayed) other
    · exact .inl queued
    · exact .inr (.inl run)
    · refine .inr (.inr ?_)
      simp only [hErase]
      rw [hl] at delayed
      simpa [other] using delayed
  apply enqueue_backed
  · intro priority tag o registered refused set
    obtain ⟨t, pending, htag, prio, cyc⟩ := h priority tag o registered set
    by_cases same : t = task
    · -- the flag stood for the task that comes back, which must have been refused
      subst same
      have refused := refused ⟨prio.symm, htag.symm⟩
      cases hp : t.priority with
      | true =>
        have flag : o.priorityQueued = true := by simpa [Passes, hp] using refused
        subst htag
        obtain ⟨t', pending', tag', prio'⟩ := met.retry i t o rfl here hp registered flag
        refine ⟨t', pending', tag', by rw [prio', ← prio, hp], fun normal => ?_⟩
        rw [← prio, hp] at normal
        cases normal
      | false =>
        have cycle : o.enqueuedCycle = t.cycleID + 1 := by simpa [Passes, hp] using refused
        have := cyc (by rw [← prio, hp])
        omega
    · exact ⟨t, others t pending same, htag, prio, cyc⟩
  · intro o registered passes
    have : (Action.reenqueue i).enqueues s
        = some { task with cycleID := task.cycleID + 1 } := by
      simp [Action.enqueues, here]
    exact met.room _ o this registered passes

theorem step_backed {a : Action Tag} (h : Backed s) (met : KeepsFlags cfg s a)
    (taken : step cfg s a = some s') : Backed s' := by
  cases a with
  | testNow tag priority =>
    rw [step_testNow taken]
    exact enqueue_backed (fun priority tag o registered _ => h priority tag o registered)
      (fun o registered passes => met.room _ o rfl registered passes)
  | invalidateTest tag =>
    obtain ⟨o, registered, rfl⟩ := step_invalidateTest taken
    have marked : Backed (s.setOutbound tag { o with invalid := true }) :=
      h.move (setOutbound_sameFlags registered (fun _ => rfl) rfl) fun t pending => pending
    refine enqueue_backed (fun priority tag o registered _ => marked priority tag o registered) ?_
    intro o' after passes
    simp only [setOutbound, if_true, Option.some.injEq] at after
    subst after
    exact met.room _ o rfl registered passes
  | startCycle tags =>
    obtain ⟨_, rfl | rfl⟩ := step_startCycle taken <;>
      exact h.move (.of_eq rfl) fun t pending => pending
  | stageEnqueue =>
    obtain ⟨stage, tag, todo, running, more, rfl⟩ := step_stageEnqueue taken
    have queued : Backed (enqueueTask cfg (stage.task tag) s).2 := by
      refine enqueue_backed (fun priority tag o registered _ => h priority tag o registered) ?_
      intro o registered passes
      refine met.room _ o ?_ registered passes
      simp [Action.enqueues, running, more]
    exact queued.move (.of_eq rfl) fun t pending => pending
  | stageReceive =>
    obtain ⟨_, _, _, _, _, _, _, _, rfl⟩ := step_stageReceive taken
    exact h.move (.of_eq rfl) fun t pending => pending
  | stageReturn =>
    obtain ⟨_, _, _, _, rfl | rfl⟩ := step_stageReturn taken <;>
      exact h.move (.of_eq rfl) fun t pending => pending
  | take priority =>
    obtain ⟨task, pq, nq, queue, rfl⟩ := step_take taken
    apply Backed.setTesting
    exact h.move (.of_eq rfl) (take_pending queue)
  | notReady i =>
    obtain ⟨task, here, _, rfl⟩ := step_notReady taken
    apply Backed.setTesting
    refine h.move (.of_eq rfl) fun t pending => ?_
    refine pending.keep here rfl rfl (fun t ht => mem_append_left _ ht) (.inl rfl) ?_
    rintro rfl _
    exact .inr (.inr (by simp))
  | test i =>
    obtain ⟨task, here, rfl⟩ := step_test taken
    refine h.move (.of_eq rfl) fun t pending => ?_
    refine pending.keep here rfl rfl (fun _ ht => ht) (.inr ⟨_, rfl⟩) ?_
    rintro rfl _
    exact .inr (.inl ⟨.testing, mem_set (List.getElem?_eq_some_iff.mp here).1 _, rfl⟩)
  | applyResult i failed =>
    obtain ⟨task, here, rfl⟩ := step_applyResult taken
    exact applyResult_backed h here
  | finish i =>
    obtain ⟨task, failed, here, rfl⟩ := step_finish taken
    apply Backed.setTesting
    refine h.move (.of_eq rfl) fun t pending => ?_
    refine pending.keep here rfl rfl (fun _ ht => ht) (.inl rfl) ?_
    intro _ applied
    cases applied
  | reenqueue i =>
    obtain ⟨task, here, rfl⟩ := step_reenqueue taken
    exact reenqueue_backed h here met

/-- In every run whose steps find room for the tasks that pass, and retry a priority task
only beside another one or when its flag is free, every flag stands for a task. -/
theorem flagsBacked_of_run (cfg : Config) (registered : Tag → Bool) {s : State Tag}
    (run : Run (step cfg) (KeepsFlags cfg) (initial registered) s) : FlagsBacked s :=
  Backed.flagsBacked (run.invariant (initial_backed registered)
    fun _ _ _ inv met taken => step_backed inv met taken)

end

def oneOutbound : State Unit := initial fun _ => true

/-- A request that has been queued. -/
theorem invalidated_backed : ∃ s, step {} oneOutbound (.invalidateTest ()) = some s ∧
    (s.outbounds ()).map (·.priorityQueued) = some true ∧ FlagsBacked s := by
  have met : KeepsFlags {} oneOutbound (.invalidateTest ()) := by
    refine ⟨fun task o this _ _ => ?_, fun i task o this => ?_⟩
    · cases this
      show 0 < 1000
      decide
    · cases this
  exact ⟨_, rfl, rfl, flagsBacked_of_run {} (fun _ => true) (Run.start.next met rfl)⟩

/-- The outbound is not ready when its priority task is executed. After the delay the task
finds the flag that it has itself set, and is dropped. -/
theorem priority_flag_stays : ∃ s, Reachable (step {}) oneOutbound s ∧ ¬ FlagsBacked s := by
  have trace : exec (step {}) oneOutbound
      [.invalidateTest (), .take true, .notReady 0, .reenqueue 0] = some _ := rfl
  refine ⟨_, exec_reachable trace, fun backed => ?_⟩
  obtain ⟨task, _, _, somewhere⟩ := (backed () _ rfl).1 rfl
  rcases somewhere with h | h | h <;> cases h

end AiboosterEngine.Monitoring
