import AiboosterEngine.GoSem.Steps
import Mathlib.Algebra.GroupWithZero.Nat

/-!
# Closing an upload queue

`Push`, `Close` and `Read` of `transport/v2rayxhttp/upload_queue.go` as far as
they can block: on the mutex that `Push` and `Close` take, and on the bounded
channel. A session is reaped by `Close`, whether or not anyone reads.
-/

namespace AiboosterEngine.Xhttp.Reap
open GoSem List

/-- A call and where it stands. `stream` says that the packet of a `Push` has a `Reader`.
A `Push` or `Close` waits for the mutex, then sends or drains; a `Read` is before its next
receive. -/
inductive Call where
  | push (stream : Bool) | sending (stream : Bool)
  | close | draining
  | read
  | returned
  deriving DecidableEq, Repr

/-- `buffered` is how many packets are in the channel; `mutex` is the call that holds it. -/
structure Session where
  maxPackets : Nat := 30
  buffered : Nat := 0
  channelClosed : Bool := false
  closed : Bool := false
  nomore : Bool := false
  mutex : Option Nat := none
  calls : List Call
  deriving DecidableEq, Repr

open Session

inductive Move where
  | lock | send | drain | receive | finish
  deriving DecidableEq, Repr

def Session.setCall (s : Session) (i : Nat) (c : Call) : Session :=
  { s with calls := s.calls.set i c }

/-- The checks of `Push` under the mutex; they give it back when they fail. -/
def lockPush (i : Nat) (stream : Bool) (s : Session) : Session :=
  if s.closed || s.nomore then s.setCall i .returned
  else { s.setCall i (.sending stream) with mutex := some i, nomore := stream }

/-- `Close` under the mutex, when it is the first. -/
def lockClose (i : Nat) (s : Session) : Session :=
  if s.closed then s.setCall i .returned
  else { s.setCall i .draining with mutex := some i, closed := true }

/-- One move of the call with a number. `Read` receives as long as it needs packets and
returns at some point, also without one. -/
def step (s : Session) (a : Nat × Move) : Option Session :=
  match s.calls[a.1]?, a.2 with
  | some (.push stream), .lock => if s.mutex.isNone then some (lockPush a.1 stream s) else none
  | some (.sending _), .send =>
    if s.buffered < s.maxPackets && !s.channelClosed then
      some { s.setCall a.1 .returned with buffered := s.buffered + 1, mutex := none }
    else none
  | some .close, .lock => if s.mutex.isNone then some (lockClose a.1 s) else none
  | some .draining, .drain =>
    if 0 < s.buffered then some { s with buffered := s.buffered - 1 } else none
  | some .draining, .finish =>
    if s.buffered = 0 then
      some { s.setCall a.1 .returned with channelClosed := true, mutex := none }
    else none
  | some .read, .receive =>
    if 0 < s.buffered then some { s with buffered := s.buffered - 1 } else none
  | some .read, .finish => some (s.setCall a.1 .returned)
  | _, _ => none

variable {s s' : Session} {i : Nat} {c : Call}

/-- The calls that an action can be of, and what it does. -/
theorem step_cases {m : Move} (h : step s (i, m) = some s') :
    (∃ stream, s.calls[i]? = some (.push stream) ∧ m = .lock ∧ s.mutex = none ∧
      s' = lockPush i stream s) ∨
    (∃ stream, s.calls[i]? = some (.sending stream) ∧ s.buffered < s.maxPackets ∧
      s' = { s.setCall i .returned with buffered := s.buffered + 1, mutex := none }) ∨
    (s.calls[i]? = some .close ∧ s.mutex = none ∧ s' = lockClose i s) ∨
    (s.calls[i]? = some .draining ∧ s.buffered = 0 ∧
      s' = { s.setCall i .returned with channelClosed := true, mutex := none }) ∨
    (s.calls[i]? = some .read ∧ s' = s.setCall i .returned) ∨
    (0 < s.buffered ∧ s' = { s with buffered := s.buffered - 1 }) := by
  cases call : s.calls[i]? with
  | none => simp [step, call] at h
  | some c => cases c <;> cases m <;> grind [step, Option.isNone_iff_eq_none]

def Call.weight : Call → Nat
  | .push _ => 3
  | .sending _ => 2
  | .close => 2
  | .draining => 1
  | .read => 1
  | .returned => 0

def Session.work (s : Session) : Nat := (s.calls.map Call.weight).sum + s.buffered

/-- Moving on in place `i` lowers the weight of the calls by the difference. -/
theorem weight_set {calls : List Call} (h : calls[i]? = some c) (c' : Call) :
    ((calls.set i c').map Call.weight).sum + c.weight
      = (calls.map Call.weight).sum + c'.weight := by
  obtain ⟨a, b, hl, _, hSet⟩ := split_at_index h
  rw [hSet, hl]
  simp only [map_append, map_cons, sum_append, sum_cons]
  omega

theorem step_work {a : Nat × Move} (h : step s a = some s') : s'.work < s.work := by
  obtain ⟨i, m⟩ := a
  have moved {c : Call} (call : s.calls[i]? = some c) := weight_set call
  rcases step_cases h with ⟨stream, call, _, _, rfl⟩ | ⟨stream, call, _, rfl⟩ | ⟨call, _, rfl⟩ |
    ⟨call, _, rfl⟩ | ⟨call, rfl⟩ | ⟨some, rfl⟩ <;>
    grind [work, setCall, Call.weight, lockPush, lockClose]

theorem exec_bounded {as : List (Nat × Move)} (run : exec step s as = some s') :
    as.length ≤ s.work :=
  exec_length_le run trivial (fun _ _ _ _ _ => trivial) fun _ _ _ _ _ => step_work

def Call.holdsMutex : Call → Bool
  | .sending _ | .draining => true
  | _ => false

/-- What is true of a session with a call that is past its lock: a `Push` has room for its
packet in an open channel, a `Close` has closed the queue. -/
def Session.Fits (s : Session) : Call → Prop
  | .sending _ => s.buffered < s.maxPackets ∧ s.closed = false
  | .draining => s.closed = true
  | _ => True

/-- The mutex is held by the one call that is past its lock. -/
structure Locked (s : Session) : Prop where
  held : ∀ i : Nat, s.mutex = some i → ∃ c, s.calls[i]? = some c ∧ c.holdsMutex = true
  holder : ∀ (i : Nat) (c : Call), s.calls[i]? = some c → c.holdsMutex = true → s.mutex = some i
  fits : ∀ (i : Nat) (c : Call), s.calls[i]? = some c → s.Fits c
  stays_open : s.closed = false → s.channelClosed = false

/-- What a step needs: a `Push` that gets the mutex and passes its checks finds room. -/
def FindsRoom (s : Session) (a : Nat × Move) : Prop :=
  (∃ stream, s.calls[a.1]? = some (.push stream)) → a.2 = .lock → s.mutex = none →
    s.closed = false → s.nomore = false → s.buffered < s.maxPackets

instance (s : Session) (a : Nat × Move) : Decidable (FindsRoom s a) :=
  inferInstanceAs (Decidable (_ → _))

theorem Session.fits_of_outside (s : Session) (outside : c.holdsMutex = false) : s.Fits c := by
  cases c <;> trivial

theorem Locked.outside (inv : Locked s) (free : s.mutex = none) (call : s.calls[i]? = some c) :
    c.holdsMutex = false := by
  grind [inv.holder i c call]

/-- A place after a call has moved on: the call's, or one that is as it was. -/
theorem calls_set {j : Nat} {d : Call} (h : (s.setCall i c).calls[j]? = some d) :
    (i = j ∧ d = c) ∨ (i ≠ j ∧ s.calls[j]? = some d) := by
  unfold setCall at h
  by_cases same : i = j
  · subst same
    rw [getElem?_set_self'] at h
    obtain ⟨_, _, rfl⟩ := Option.map_eq_some_iff.mp h
    exact .inl ⟨rfl, rfl⟩
  · rw [getElem?_set_ne same] at h
    exact .inr ⟨same, h⟩

section
variable (inv : Locked s)
include inv

/-- A call moves on that takes the free mutex, gives it back or leaves it alone. -/
theorem Locked.moved {d : Call} (call : s.calls[i]? = some c)
    (calls : s'.calls = (s.setCall i d).calls)
    (mutex : s'.mutex = if d.holdsMutex then some i else if c.holdsMutex then none else s.mutex)
    (takes : d.holdsMutex = true → s.mutex = none ∧ s'.Fits d)
    (leaves : c.holdsMutex = false → d.holdsMutex = false → ∀ e, s.Fits e → s'.Fits e)
    (stays_open : s'.closed = false → s'.channelClosed = false) : Locked s' := by
  have inside := (List.getElem?_eq_some_iff.mp call).1
  have holders (j : Nat) : s'.mutex = some j ↔ ∃ e, s'.calls[j]? = some e ∧
    e.holdsMutex = true := by
    have held := inv.held
    have holder := inv.holder
    rw [calls, setCall]
    by_cases same : i = j
    · subst same
      rw [getElem?_set_self inside]
      grind
    · rw [getElem?_set_ne same]
      grind
  refine ⟨fun j => (holders j).mp, fun j e he holds => (holders j).mpr ⟨e, he, holds⟩,
    fun j e he => ?_, stays_open⟩
  cases holds : e.holdsMutex with
  | false => exact s'.fits_of_outside holds
  | true =>
    have mine := (holders j).mpr ⟨e, he, holds⟩
    rw [calls] at he
    rcases calls_set he with ⟨_, rfl⟩ | ⟨different, he⟩
    · exact (takes holds).2
    · grind [inv.fits j e he]

theorem Locked.returned (call : s.calls[i]? = some c) (outside : c.holdsMutex = false) :
    Locked (s.setCall i .returned) :=
  inv.moved call rfl (by rw [outside]; rfl) nofun (fun _ _ e old => by cases e <;> exact old)
    inv.stays_open

theorem Locked.received : Locked { s with buffered := s.buffered - 1 } := by
  refine ⟨inv.held, inv.holder, fun i c call => ?_, inv.stays_open⟩
  have old := inv.fits i c call
  cases c with
  | sending => exact ⟨Nat.lt_of_le_of_lt (Nat.sub_le _ _) old.1, old.2⟩
  | _ => exact old

theorem step_locked {m : Move} (met : FindsRoom s (i, m)) (h : step s (i, m) = some s') :
    Locked s' := by
  rcases step_cases h with ⟨stream, call, locks, free, rfl⟩ | ⟨stream, call, _, rfl⟩ |
    ⟨call, free, rfl⟩ | ⟨call, _, rfl⟩ | ⟨call, rfl⟩ | ⟨_, rfl⟩
  · unfold lockPush
    split
    · exact inv.returned call rfl
    · rename_i passes
      simp only [Bool.or_eq_true, not_or, Bool.not_eq_true] at passes
      have finds := met ⟨stream, call⟩ locks free passes.1 passes.2
      exact inv.moved call rfl rfl (fun _ => ⟨free, finds, passes.1⟩) nofun inv.stays_open
  · exact inv.moved call rfl rfl nofun nofun inv.stays_open
  · unfold lockClose
    split
    · exact inv.returned call rfl
    · exact inv.moved call rfl rfl (fun _ => ⟨free, rfl⟩) nofun nofun
  · have closed : s.closed = true := inv.fits i _ call
    exact inv.moved call rfl rfl nofun nofun fun isOpen => nomatch closed.symm.trans isOpen
  · exact inv.returned call rfl
  · exact inv.received

end

def Call.fresh : Call → Bool
  | .push _ | .close | .read => true
  | _ => false

/-- No `Push` and no `Close` can make a move. -/
def Quiet (s : Session) : Prop :=
  ∀ (i : Nat) (m : Move), s.calls[i]? ≠ some .read → step s (i, m) = none

/-- Every `Push` and every `Close` has returned. -/
def Reaped (s : Session) : Prop := ∀ c ∈ s.calls, c = .read ∨ c = .returned

theorem Locked.start {maxPackets : Nat} {calls : List Call} (fresh : ∀ c ∈ calls, c.fresh = true) :
    Locked { maxPackets := maxPackets, calls := calls } := by
  have outside : ∀ (i : Nat) (c : Call), calls[i]? = some c → c.holdsMutex = false := by
    intro i c call
    have := fresh c (mem_of_getElem? call)
    cases c <;> first | rfl | cases this
  refine ⟨fun i h => (nomatch h), ?_, fun i c call => fits_of_outside _ (outside i c call),
    fun _ => rfl⟩
  intro i c call holds
  rw [outside i c call] at holds
  cases holds

/-- The holder of the mutex can move. -/
theorem Locked.holder_moves (inv : Locked s) (h : s.mutex = some i) :
    ∃ m, s.calls[i]? ≠ some .read ∧ (step s (i, m)).isSome := by
  obtain ⟨c, call, holds⟩ := inv.held i h
  have fits := inv.fits i c call
  cases c with
  | sending stream =>
    refine ⟨.send, by rw [call]; nofun, ?_⟩
    simp [step, call, fits.1, inv.stays_open fits.2]
  | draining =>
    by_cases empty : s.buffered = 0
    · exact ⟨.finish, by rw [call]; nofun, by simp [step, call, empty]⟩
    · refine ⟨.drain, by rw [call]; nofun, ?_⟩
      simp [step, call, Nat.pos_of_ne_zero empty]
  | push | close | read | returned => cases holds

/-- A session in which nothing but a `Read` is left to move is reaped: the mutex is free,
since its holder could move, and then so could every call that waits for it. -/
theorem Locked.reaped (inv : Locked s) (quiet : Quiet s) : Reaped s := by
  have free : s.mutex = none := by
    cases h : s.mutex with
    | none => rfl
    | some i =>
      obtain ⟨m, notRead, moves⟩ := inv.holder_moves h
      rw [quiet i m notRead] at moves
      cases moves
  intro c hc
  obtain ⟨i, call⟩ := getElem?_of_mem hc
  have outside := inv.outside free call
  cases c with
  | push stream | close =>
    have still := quiet i .lock (by rw [call]; nofun)
    simp [step, call, free] at still
  | sending | draining => cases outside
  | read => exact .inl rfl
  | returned => exact .inr rfl

/-- Any calls of `Push`, `Close` and `Read` on a queue, in any order of their moves, as long as
each `Push` that passes its checks finds room: whatever happens next ends, and when no `Push`
and no `Close` can move any more they have all returned. -/
theorem reaped_of_run {maxPackets : Nat} {calls : List Call} {s : Session}
    (fresh : ∀ c ∈ calls, c.fresh = true)
    (run : Run step FindsRoom { maxPackets := maxPackets, calls := calls } s) :
    (∀ as s', exec step s as = some s' → as.length ≤ s.work) ∧ (Quiet s → Reaped s) := by
  have inv : Locked s := run.invariant (Locked.start fresh) fun _ _ _ inv met taken =>
    step_locked inv met taken
  exact ⟨fun _ _ => exec_bounded, inv.reaped⟩

/-- After one `Push` and the `Close` that reaps its session, with nobody to read. -/
def reapedOne : Session :=
  { closed := true, channelClosed := true, calls := [.returned, .returned] }

theorem one_push_reaped :
    (∀ as s', exec step reapedOne as = some s' → as.length ≤ 0) ∧ Reaped reapedOne := by
  have fresh : ∀ c ∈ [Call.push false, Call.close], c.fresh = true := by decide
  have trace : exec step { calls := [.push false, .close] }
      [(0, .lock), (0, .send), (1, .lock), (1, .drain), (1, .finish)] = some reapedOne := rfl
  have run : Run step FindsRoom { calls := [.push false, .close] } reapedOne :=
    exec_run trace (by decide)
  obtain ⟨bounded, reaped⟩ := reaped_of_run fresh run
  refine ⟨bounded, reaped fun i m _ => ?_⟩
  match i with
  | 0 | 1 => cases m <;> rfl
  | i + 2 => rfl

/-- Thirty packets are in the channel and one more `Push` has passed its checks. -/
def full : Session :=
  { buffered := 30, mutex := some 30, calls := replicate 30 .returned ++ [.sending false, .close] }

/-- Thirty-one `Push` calls, nobody reads, and then the reaper: the last `Push` waits for
room in the channel and keeps the mutex that `Close` waits for. Nothing can move. -/
theorem push_blocks_close :
    Reachable step { calls := replicate 31 (.push false) ++ [.close] } full ∧
      (∀ a, step full a = none) ∧ ¬ Reaped full := by
  have trace : exec step { calls := replicate 31 (.push false) ++ [.close] }
      ((range 30).flatMap (fun i => [(i, .lock), (i, .send)]) ++ [(30, .lock)]) = some full := rfl
  refine ⟨exec_reachable trace, fun (i, m) => ?_, by unfold Reaped; decide⟩
  by_cases inside : i < 32
  · have none_moves : ∀ i < 32, ∀ m ∈ [Move.lock, .send, .drain, .receive, .finish],
        step full (i, m) = none := by decide
    exact none_moves i inside m (by cases m <;> decide)
  · have outside : full.calls[i]? = none := getElem?_eq_none (by simpa [full] using inside)
    simp [step, outside]

end AiboosterEngine.Xhttp.Reap
