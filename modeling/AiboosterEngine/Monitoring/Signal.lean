import AiboosterEngine.GoSem.Steps
import Mathlib.Logic.Function.Basic

/-!
# Signals to the groups

`SignalChange`, `emitGroupEvent`, `groupNotifierLoop` and `Close` of
`common/monitoring/outbound_monitoring.go`. `SelectOutbound` of a selector calls
`SignalChange` with the selector's own tag. A group has a channel of one place; its loop runs
from the start of the monitoring until it sees that the context has ended.
-/

namespace AiboosterEngine.Monitoring.Signal
open GoSem Function List

/-- What the monitoring knows from its initialization on: the groups, and the groups of each
outbound that is registered. -/
structure Config (γ : Type) where
  groups : γ → Bool
  groupTags : γ → Option (List γ)

/-- The groups `SignalChange` sends to, one after another; `none` where it returns an error. -/
def Config.notified {γ : Type} (cfg : Config γ) (tag : γ) : Option (List γ) :=
  if cfg.groups tag then some [tag] else (cfg.groupTags tag).map (·.filter cfg.groups)

inductive Loop where
  | unstarted | running | ended
  deriving DecidableEq, Repr

/-- `pc` has the groups that the call of a thread has still to send to. -/
structure State (τ γ : Type) where
  loop : γ → Loop := fun _ => .unstarted
  full : γ → Bool := fun _ => false
  started : Bool := false
  cancelled : Bool := false
  pc : τ → Option (List γ) := fun _ => none

inductive Action (τ γ : Type) where
  | start | close
  | leave (g : γ) | receive (g : γ) | emit (g : γ)
  | signal (t : τ) (tag : γ)
  | send (t : τ)

/-- What brings the call of `t` on: its own sends, and the loops. -/
inductive Action.Own {τ γ : Type} (t : τ) : Action τ γ → Prop
  | receive (g : γ) : Own t (.receive g)
  | send : Own t (.send t)

section
variable {τ γ : Type} [DecidableEq τ] [DecidableEq γ] (cfg : Config γ) (s : State τ γ)

/-- `emit` is the send of `emitGroupEvent` in a worker, which is dropped if the channel is full. -/
def step : Action τ γ → Option (State τ γ)
  | .start =>
    if s.started then none
    else
      some { s with started := true, loop := fun g => if cfg.groups g then .running else s.loop g }
  | .close => some { s with cancelled := true }
  | .leave g =>
    if s.loop g = .running ∧ s.cancelled then some { s with loop := update s.loop g .ended }
    else none
  | .receive g =>
      if s.loop g = .running ∧ s.full g then some { s with full := update s.full g false } else none
  | .emit g => if s.started then some { s with full := update s.full g true } else none
  | .signal t tag =>
    match s.pc t with
    | none | some [] => some { s with pc := update s.pc t (cfg.notified tag) }
    | _ => none
  | .send t =>
    match s.pc t with
    | some (g :: gs) =>
      if s.full g then none
      else some { s with full := update s.full g true, pc := update s.pc t (some gs) }
    | _ => none

/-- By its own sends and by receives the call of `t` comes to its end. -/
def CanReturn (t : τ) : Prop :=
  ∃ s', Run (step cfg) (fun _ a => a.Own t) s s' ∧ s'.pc t = some []

/-- Whatever others do, as far as they may, and however far the call is: it can come to its end. -/
def Returns (may : Action τ γ → Prop) (t : τ) : Prop :=
  ∀ s', Run (step cfg) (fun _ a => may a ∧ ∀ tag, a ≠ .signal t tag) s s' → CanReturn cfg s' t

variable {cfg} {s s' : State τ γ} {t : τ} {a : Action τ γ}

theorem CanReturn.after (taken : step cfg s a = some s') (own : a.Own t)
    (h : CanReturn cfg s' t) : CanReturn cfg s t := by
  obtain ⟨s'', run, returned⟩ := h
  have first : Run (step cfg) (fun _ a => a.Own t) s s' := Run.start.next own taken
  exact ⟨s'', first.trans run, returned⟩

variable {gs : List γ} {g : γ}

theorem canReturn_of_running (pending : s.pc t = some gs)
    (running : ∀ g ∈ gs, s.loop g = .running) :
    CanReturn cfg s t := by
  induction gs generalizing s with
  | nil => exact ⟨s, .start, pending⟩
  | cons g gs ih =>
    -- with a place in the channel the call sends and goes on
    have sends {s : State τ γ} (pending : s.pc t = some (g :: gs)) (free : s.full g = false)
        (running : ∀ g' ∈ g :: gs, s.loop g' = .running) : CanReturn cfg s t := by
      apply CanReturn.after (a := .send t)
        (by rw [step, pending]; exact if_neg (by simp [free])) .send
      exact ih (by simp) fun g' mem => running g' (mem_cons_of_mem g mem)
    cases full : s.full g with
    | false => exact sends pending full running
    | true =>
      have first := running g mem_cons_self
      apply CanReturn.after (a := .receive g)
        (by rw [step]; exact if_pos ⟨first, full⟩) (.receive g)
      exact sends pending (by simp) running

/-- The call has still to send to the group, whose channel is full and whose loop does not run. -/
structure Hangs (t : τ) (g : γ) (s : State τ γ) : Prop where
  pending : ∃ gs, s.pc t = some gs ∧ g ∈ gs
  stopped : s.loop g ≠ .running
  full : s.full g = true

theorem Hangs.step (hangs : Hangs t g s) (own : a.Own t) (taken : step cfg s a = some s') :
    Hangs t g s' := by
  obtain ⟨⟨gs, pending, mem⟩, stopped, full⟩ := hangs
  cases own with
  | receive g' =>
    obtain ⟨⟨running, _⟩, rfl⟩ := of_guard taken
    have other : g ≠ g' := fun same => stopped (same ▸ running)
    exact ⟨⟨gs, pending, mem⟩, stopped, by simpa [other] using full⟩
  | send =>
    simp only [Signal.step, pending] at taken
    split at taken
    · rename_i g' rest place
      cases place
      split at taken
      · cases taken
      · rename_i free
        cases taken
        have other : g ≠ g' := by
          rintro rfl
          exact free full
        exact ⟨⟨rest, by simp, (mem_cons.mp mem).resolve_left other⟩, stopped,
          by simpa [other] using full⟩
    · cases taken

theorem Hangs.not_canReturn (hangs : Hangs t g s) : ¬ CanReturn cfg s t := by
  rintro ⟨s', run, returned⟩
  obtain ⟨⟨gs, pending, mem⟩, _, _⟩ := run.invariant hangs fun _ _ _ hangs own taken =>
    hangs.step own taken
  cases returned.symm.trans pending
  cases mem

/-- What is left of a call, and the loops of its groups: they run until they leave. -/
structure Served (t : τ) (gs : List γ) (s : State τ γ) : Prop where
  pending : ∃ gs', s.pc t = some gs' ∧ gs' ⊆ gs
  running : ∀ g ∈ gs, s.loop g = .running

theorem Served.step (served : Served t gs s) (stays : ∀ g ∈ gs, a ≠ .leave g)
    (mine : ∀ tag, a ≠ .signal t tag) (taken : step cfg s a = some s') : Served t gs s' := by
  obtain ⟨⟨gs', pending, sub⟩, running⟩ := served
  cases a with
  | start =>
    simp only [Signal.step] at taken
    split at taken <;> cases taken
    exact ⟨⟨gs', pending, sub⟩, fun g mem => by simp [running g mem]⟩
  | close =>
    cases taken
    exact ⟨⟨gs', pending, sub⟩, running⟩
  | leave g' =>
    obtain ⟨_, rfl⟩ := of_guard taken
    refine ⟨⟨gs', pending, sub⟩, fun g mem => ?_⟩
    have other : g ≠ g' := fun same => stays g mem (same ▸ rfl)
    simpa [other] using running g mem
  | receive g' | emit g' =>
    obtain ⟨_, rfl⟩ := of_guard taken
    exact ⟨⟨gs', pending, sub⟩, running⟩
  | signal u tag =>
    have other : t ≠ u := fun same => mine tag (same ▸ rfl)
    simp only [Signal.step] at taken
    split at taken <;> cases taken <;> exact ⟨⟨gs', by simpa [other] using pending, sub⟩, running⟩
  | send u =>
    simp only [Signal.step] at taken
    split at taken
    · rename_i g rest place
      split at taken
      · cases taken
      · cases taken
        refine ⟨?_, running⟩
        by_cases mine : t = u
        · subst mine
          cases pending.symm.trans place
          exact ⟨rest, by simp, fun g' mem => sub (mem_cons_of_mem g mem)⟩
        · exact ⟨gs', by simpa [mine] using pending, sub⟩
    · cases taken

/-- Where the loop of a group does not run, the call of another fills its channel. -/
theorem fills {u : τ} (pending : s.pc t = some gs) (mem : g ∈ gs) (stopped : s.loop g ≠ .running)
    (known : cfg.groups g = true) (other : u ≠ t) (idle : s.pc u = none ∨ s.pc u = some [])
    (may : Action τ γ → Prop) (signal : may (.signal u g)) (send : may (.send u)) :
    ¬ Returns cfg s may t := by
  intro returns
  cases full : s.full g with
  | true => exact Hangs.not_canReturn ⟨⟨gs, pending, mem⟩, stopped, full⟩ (returns s .start)
  | false =>
    have first : step cfg s (.signal u g) = some { s with pc := update s.pc u (some [g]) } := by
      rcases idle with idle | idle <;> simp [step, idle, Config.notified, known]
    have second : step cfg { s with pc := update s.pc u (some [g]) } (.send u) =
        some { s with full := update s.full g true, pc := update s.pc u (some []) } := by
      simp [step, full]
    have canReturn :=
      returns _ ((Run.start.next ⟨signal, fun tag same => other (by cases same; rfl)⟩ first).next
      ⟨send, nofun⟩ second)
    have hangs : Hangs t g { s with full := update s.full g true, pc := update s.pc u (some []) } :=
      ⟨⟨gs, by simpa [other.symm] using pending, mem⟩, stopped, by simp⟩
    exact hangs.not_canReturn canReturn

/-- **When a call returns.** Another caller being there, a call with something to send may hang if
all may happen, `Close` included. As long as the loops of its groups do not leave, it returns
exactly when they run. -/
theorem signalChange_returns_iff {u : τ} (pending : s.pc t = some gs)
    (known : ∀ g ∈ gs, cfg.groups g = true)
    (other : u ≠ t) (idle : s.pc u = none ∨ s.pc u = some []) :
    (Returns cfg s (fun _ => True) t ↔ gs = []) ∧
    (Returns cfg s (fun a => ∀ g ∈ gs, a ≠ .leave g) t ↔ ∀ g ∈ gs, s.loop g = .running) := by
  have served {may : Action τ γ → Prop} (running : ∀ g ∈ gs, s.loop g = .running)
      (stays : ∀ a, may a → ∀ g ∈ gs, a ≠ .leave g) : Returns cfg s may t := by
    intro s' run
    have served : Served t gs s' := by
      refine run.invariant ⟨⟨gs, pending, fun _ => id⟩, running⟩ ?_
      exact fun v a v' served met taken => served.step (stays a met.1) met.2 taken
    obtain ⟨⟨gs', pending, sub⟩, running⟩ := served
    exact canReturn_of_running pending fun g mem => running g (sub mem)
  refine ⟨⟨fun returns => ?_, ?_⟩,
    ⟨fun returns g mem => ?_, fun running => served running fun _ may => may⟩⟩
  · refine eq_nil_iff_forall_not_mem.mpr fun g mem => ?_
    by_cases running : s.loop g = .running
    · -- `Close` comes, and the loop leaves
      have closed : step cfg s .close = some { s with cancelled := true } := rfl
      have left : step cfg { s with cancelled := true } (.leave g) =
          some { s with cancelled := true, loop := update s.loop g .ended } := by
        simp [step, running]
      refine fills (s := { s with cancelled := true, loop := update s.loop g .ended })
        pending mem (by simp)
        (known g mem) other idle (fun _ => True) trivial trivial fun s' run => ?_
      exact returns s'
        (((Run.start.next ⟨trivial, nofun⟩ closed).next ⟨trivial, nofun⟩ left).trans run)
    · exact fills pending mem running (known g mem) other idle _ trivial trivial returns
  · rintro rfl
    exact served (forall_mem_nil _) fun _ _ => forall_mem_nil _
  · by_contra stopped
    exact fills pending mem stopped (known g mem) other idle _ (fun _ _ => nofun)
      (fun _ _ => nofun) returns

end

/-- One group, of one selector. -/
def oneGroup : Config Unit := ⟨fun _ => true, fun _ => none⟩

/-- A second signal while the first is in the channel and the loop runs: it returns as long as the
loop does not leave. -/
theorem signalChange_returns_running :
    ∃ s : State Bool Unit, exec (step oneGroup) {} [.start, .signal false (), .send false,
      .signal true ()] = some s ∧
      s.full () = true ∧ Returns oneGroup s (fun a => ∀ g ∈ [()], a ≠ .leave g) true := by
  have run : exec (step oneGroup) {} [.start, .signal false (), .send false, .signal true ()] =
      some (_ : State Bool Unit) := rfl
  refine ⟨_, run, rfl,
    (signalChange_returns_iff (u := false) rfl ?_ (by decide) (.inr rfl)).2.mpr ?_⟩
  · exact fun _ _ => rfl
  · exact fun _ _ => rfl

/-- Two signals before the start, or after the loop has seen the end: the second call waits. -/
theorem second_signal_waits :
    (∃ s : State Bool Unit, exec (step oneGroup) {} [.signal false (), .send false,
      .signal true ()] = some s ∧
      s.pc true = some [()] ∧ ¬ CanReturn oneGroup s true) ∧
    ∃ s : State Bool Unit, exec (step oneGroup) {}
        [.start, .close, .leave (), .signal false (), .send false, .signal true ()] = some s ∧
      s.pc true = some [()] ∧ ¬ CanReturn oneGroup s true := by
  refine ⟨⟨_, rfl, rfl, ?_⟩, _, rfl, rfl, ?_⟩
  · exact Hangs.not_canReturn ⟨⟨[()], rfl, mem_cons_self⟩, nofun, rfl⟩
  · exact Hangs.not_canReturn ⟨⟨[()], rfl, mem_cons_self⟩, nofun, rfl⟩

end AiboosterEngine.Monitoring.Signal
