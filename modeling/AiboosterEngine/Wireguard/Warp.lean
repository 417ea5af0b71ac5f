import AiboosterEngine.GoSem.Steps

/-!
# Calls during a WARP registration

`protocol/wireguard/endpoint_warp.go`. `NewWARPEndpoint` locks the mutex, and only
the start handler gives it back, when the registration is over. Every method looks
at the endpoint under the same mutex.
-/

namespace AiboosterEngine.Wireguard
open GoSem

inductive Handler where
  | unstarted | registering | ended
  deriving DecidableEq, Repr

inductive Method where
  | isReady | displayType | dialContext | listenPacket
  deriving DecidableEq, Repr

/-- The methods without a context. -/
def Method.query : Method → Bool
  | .isReady | .displayType => true
  | .dialContext | .listenPacket => false

/-- Where a call is; `inner` is the same method of the endpoint that was made. The context of the
call has ended if `cancelled`. -/
inductive Place where
  | idle
  | locking (m : Method) (cancelled : Bool)
  | locked (m : Method) (cancelled : Bool)
  | inner (m : Method) (cancelled : Bool)
  | returned (m : Method)
  deriving DecidableEq, Repr

/-- `endpoint` says that `w.endpoint` is not nil. `NewWARPEndpoint` has locked the mutex. -/
structure WARPEndpoint (τ : Type) where
  mtx : Bool := true
  handler : Handler := .unstarted
  endpoint : Bool := false
  pc : τ → Place := fun _ => .idle

open WARPEndpoint

inductive Action (τ : Type) where
  | start
  | finish (made : Bool)
  | call (t : τ) (m : Method)
  | lock (t : τ) | unlock (t : τ) | answer (t : τ)
  | connected (t : τ)
  | cancel (t : τ)
  deriving DecidableEq, Repr

/-- What a call does by itself; the rest is done by the handler, the callers and the network. -/
def Action.own {τ : Type} : Action τ → Bool
  | .lock _ | .unlock _ | .answer _ => true
  | _ => false

section
variable {τ : Type} [DecidableEq τ] (w : WARPEndpoint τ)

def WARPEndpoint.goto (t : τ) (p : Place) : WARPEndpoint τ :=
  { w with pc := fun u => if u = t then p else w.pc u }

/-- `Start` runs the handler as a goroutine; `finish` is its end by any of its returns, with the
deferred unlock. The methods of the endpoint that was made heed the context; `isEndpointInitialized`
does not know it. -/
def step : Action τ → Option (WARPEndpoint τ)
  | .start => if w.handler = .unstarted then some { w with handler := .registering } else none
  | .finish made =>
    if w.handler = .registering then
      some { w with handler := .ended, endpoint := made, mtx := false }
    else none
  | .call t m => if w.pc t = .idle then some (w.goto t (.locking m false)) else none
  | .lock t =>
    match w.pc t with
    | .locking m c => if w.mtx then none else some ({ w with mtx := true }.goto t (.locked m c))
    | _ => none
  | .unlock t =>
    match w.pc t with
    | .locked m c =>
        some ({ w with mtx := false }.goto t (if w.endpoint then .inner m c else .returned m))
    | _ => none
  | .answer t =>
    match w.pc t with
    | .inner m c => if m.query || c then some (w.goto t (.returned m)) else none
    | _ => none
  | .connected t =>
    match w.pc t with
    | .inner m _ => some (w.goto t (.returned m))
    | _ => none
  | .cancel t =>
    match w.pc t with
    | .locking m _ => some (w.goto t (.locking m true))
    | .locked m _ => some (w.goto t (.locked m true))
    | .inner m _ => some (w.goto t (.inner m true))
    | _ => none

def Place.isLocked : Place → Bool
  | .locked .. => true
  | _ => false

/-- The places behind the lock. -/
def Place.passed : Place → Bool
  | .locked .. | .inner .. | .returned _ => true
  | _ => false

/-- Before the handler has ended nobody passes the mutex; then who is under it holds it. -/
structure Sound (w : WARPEndpoint τ) : Prop where
  before : w.handler ≠ .ended → w.mtx = true ∧ ∀ t, (w.pc t).passed = false
  after : w.handler = .ended → w.mtx = true → ∃ t, (w.pc t).isLocked = true

theorem Sound.goto {w : WARPEndpoint τ} (h : Sound w) {t : τ} {p : Place} {mtx : Bool}
    (passes : p.passed = true → (w.pc t).passed = true ∨ w.mtx = false)
    (holds : mtx = true → p.isLocked = true ∨ (w.mtx = true ∧ (w.pc t).isLocked = false))
    (opens : mtx = false → w.mtx = false ∨ (w.pc t).passed = true) :
      Sound ({ w with mtx }.goto t p) := by
  constructor
  · intro busy
    obtain ⟨locked, nobody⟩ := h.before busy
    constructor
    · simp only [WARPEndpoint.goto]
      cases mtx with
      | true => rfl
      | false => simp [locked, nobody t] at opens
    · intro u
      simp only [WARPEndpoint.goto]
      split
      · rw [Bool.eq_false_iff]
        exact fun there => by simp [locked, nobody t, there] at passes
      · exact nobody u
  · intro ended locked
    obtain here | ⟨before, free⟩ := holds locked
    · exact ⟨t, by simpa [WARPEndpoint.goto] using here⟩
    · obtain ⟨u, under⟩ := h.after ended before
      have other : u ≠ t := by
        rintro rfl
        rw [under] at free
        cases free
      exact ⟨u, by simpa [WARPEndpoint.goto, other] using under⟩

theorem Sound.step {w w' : WARPEndpoint τ} {a : Action τ} (h : Sound w)
    (taken : step w a = some w') : Sound w' := by
  cases a with
  | start =>
    obtain ⟨unstarted, rfl⟩ := of_guard taken
    exact ⟨fun _ => h.before (by simp [unstarted]), nofun⟩
  | finish made =>
    obtain ⟨_, rfl⟩ := of_guard taken
    exact ⟨fun busy => absurd rfl busy, nofun⟩
  | call t m =>
    obtain ⟨idle, rfl⟩ := of_guard taken
    exact h.goto nofun (fun locked => .inr ⟨locked, by rw [idle]; rfl⟩) .inl
  | _ t =>
    simp only [Wireguard.step] at taken
    repeat' split at taken
    all_goals cases taken
    all_goals
      apply h.goto <;> simp_all [Place.passed, Place.isLocked]

theorem sound_of_reachable {w : WARPEndpoint τ} (reached : Reachable step {} w) : Sound w :=
  reached.invariant ⟨fun _ => ⟨rfl, fun _ => rfl⟩, nofun⟩ fun _ _ _ h _ taken => h.step taken

def Place.pending : Place → Option (Method × Bool)
  | .locking m c | .locked m c | .inner m c => some (m, c)
  | _ => none

def CanReturn (t : τ) : Prop :=
  ∃ w', Run step (fun _ a => a.own = true) w w' ∧ ∃ m, w'.pc t = .returned m

section
variable {w w' : WARPEndpoint τ} {t u : τ} {m : Method} {c : Bool}

theorem CanReturn.after {a : Action τ} (taken : step w a = some w') (own : a.own = true)
    (h : CanReturn w' t) :
    CanReturn w t := by
  obtain ⟨w'', run, returned⟩ := h
  have first : Run step (fun _ a => a.own = true) w w' := Run.start.next own taken
  exact ⟨w'', first.trans run, returned⟩

theorem ended_of_canReturn (sound : Sound w) (returns : CanReturn w t) : w.handler = .ended := by
  obtain ⟨w', run, m, returned⟩ := returns
  have kept : Sound w' ∧ w'.handler = w.handler := by
    apply @Run.invariant _ _ _ _ _ _ (fun v => Sound v ∧ v.handler = w.handler) run ⟨sound, rfl⟩
    rintro v a v' ⟨sound, same⟩ own taken
    refine ⟨sound.step taken, ?_⟩
    cases a with
    | lock t | unlock t | answer t =>
      simp only [step] at taken
      repeat' split at taken
      all_goals cases taken
      all_goals exact same
    | _ => cases own
  apply Classical.byContradiction
  intro busy
  have passed := (kept.1.before (kept.2 ▸ busy)).2 t
  rw [returned] at passed
  cases passed

variable (due : (m.query || c) = true)
include due

theorem canReturn_inner (place : w.pc t = .inner m c) : CanReturn w t :=
  .after (a := .answer t) (by rw [step, place]; exact if_pos due) rfl ⟨_, .start, m, by simp [goto]⟩

theorem canReturn_locked (place : w.pc t = .locked m c) : CanReturn w t := by
  apply CanReturn.after (a := .unlock t) (by rw [step, place]) rfl
  cases w.endpoint with
  | true => exact canReturn_inner due (by simp [goto])
  | false => exact ⟨_, .start, m, by simp [goto]⟩

theorem canReturn_locking (place : w.pc t = .locking m c) (free : w.mtx = false) : CanReturn w t :=
  .after (a := .lock t) (by rw [step, place]; exact if_neg (by simp [free])) rfl
    (canReturn_locked due (by simp [goto]))

end

/-- In every state that can come about, a query, or a call whose context has ended, gets done by
what the calls do themselves exactly if the start handler has ended. -/
theorem returns_iff {w : WARPEndpoint τ} (reached : Reachable step {} w) {t : τ}
    {m : Method} {c : Bool}
    (pending : (w.pc t).pending = some (m, c)) (due : (m.query || c) = true) :
    CanReturn w t ↔ w.handler = .ended := by
  have sound := sound_of_reachable reached
  refine ⟨ended_of_canReturn sound, fun ended => ?_⟩
  cases place : w.pc t with
  | inner => cases place ▸ pending; exact canReturn_inner due place
  | locked => cases place ▸ pending; exact canReturn_locked due place
  | locking =>
    cases place ▸ pending
    cases free : w.mtx with
    | false => exact canReturn_locking due place free
    | true =>
      -- another call is under the mutex; it leaves first
      obtain ⟨u, under⟩ := sound.after ended free
      cases there : w.pc u with
      | locked m' c' =>
        apply CanReturn.after (a := .unlock u) (by rw [step, there]) rfl
        refine canReturn_locking due ?_ rfl
        have other : t ≠ u := fun same => by rw [same, there] at place; cases place
        simp [goto, other, place]
      | _ => rw [there] at under; cases under
  | _ => rw [place] at pending; cases pending

end

def registered : List (Action Nat) := [.start, .finish true, .call 0 .isReady]

theorem returns_after_registration : ∃ w, exec step {} registered = some w ∧ CanReturn w 0 :=
  ⟨_, rfl, (returns_iff (@exec_reachable _ _ _ _ _ registered rfl) rfl rfl).mpr rfl⟩

def registering : List (Action Nat) := [.start, .call 0 .isReady, .call 1 .dialContext, .cancel 1]

theorem calls_wait_for_registration :
    ∃ w, exec step {} registering = some w ∧ w.pc 0 = .locking .isReady false ∧
      w.pc 1 = .locking .dialContext true ∧ ¬ CanReturn w 0 ∧ ¬ CanReturn w 1 := by
  refine ⟨_, rfl, rfl, rfl, fun returns => ?_, fun returns => ?_⟩
  all_goals
    have sound := sound_of_reachable (@exec_reachable _ _ _ _ _ registering rfl)
    cases ended_of_canReturn sound returns

end AiboosterEngine.Wireguard
