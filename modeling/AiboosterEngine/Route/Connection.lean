import AiboosterEngine.GoSem.Threads

/-!
# The connection manager

`NewConnection` and `NewPacketConnection` of `route/conn.go`, with the early payload
of `preConnectionCopy` and the two copying goroutines. Dialing, the report of the
handshake, the early payload and the copying end as the environment says. A
goroutine swaps the flag `done` in one step and calls `onClose` in another.
-/

namespace AiboosterEngine.Route.Conn

open GoSem Threads

/-- The errors that are told apart, `other` being any other. -/
inductive Err where
  | invalid | deadlineExceeded | eof | other
  deriving DecidableEq, Repr

inductive Direction where
  | upload | download
  deriving DecidableEq, Repr

/-- The flag, and the errors `onClose` was called with. -/
structure Shared where
  done : Bool := false
  closed : List (Option Err) := []
  deriving DecidableEq, Repr

/-- What one `connectionCopyEarlyWrite` meets: the results of `SetReadDeadline`, of the read (with
something read, or not) and of the write, where `deadlineExceeded` is any timeout, and whether the
source needs a read handshake afterwards. -/
structure EarlyWrite where
  setReadDeadline : Option Err := none
  payload : Bool := true
  read : Option Err := none
  write : Option Err := none
  needRead : Bool := false

def connectionCopyEarlyWrite (writeHandshake : Bool) (e : EarlyWrite) : Option Err :=
  match e.setReadDeadline with
  | some .invalid => if writeHandshake then e.write else some .invalid
  | some err => some err
  | none =>
    match e.read with
    | some .invalid => some .invalid
    | some .other => some .other
    | ended =>
      if e.payload || writeHandshake then
        match e.write with
        | some err => some err
        | none => ended
      else ended

/-- The handshakes `preConnectionCopy` finds to be needed, and what its writes meet. -/
structure Early where
  readHandshake : Bool := false
  writeHandshake : Bool := false
  writes : List EarlyWrite := []

/-- The loop of `preConnectionCopy`: the error it leaves with, `none` while it is still waiting. -/
def earlyLoop (writeHandshake : Bool) : List EarlyWrite → Option (Option Err)
  | [] => none
  | e :: es =>
    match connectionCopyEarlyWrite writeHandshake e with
    | none => if e.needRead then earlyLoop writeHandshake es else some none
    | some .other => some (some .other)
    | some _ => some none

def Early.error (early : Early) : Option (Option Err) :=
  if early.readHandshake || early.writeHandshake then earlyLoop early.writeHandshake early.writes
  else some none

/-- `if done.Swap(true) { onClose(err) }` of `preConnectionCopy`. -/
def Shared.earlyFailed (s : Shared) (err : Err) : Shared :=
  { done := true, closed := if s.done then s.closed ++ [some err] else s.closed }

def preConnectionCopy (early : Early) (s : Shared) : Option Shared :=
  early.error.map fun
    | none => s
    | some err => s.earlyFailed err

inductive Kind where
  | connection | packet
  deriving DecidableEq, Repr

/-- A goroutine is `absent` if the call has returned before starting it. -/
inductive Place where
  | absent
  | cached | copy | swap (err : Option Err) | onClose (err : Option Err) | returned
  deriving DecidableEq, Repr

open Place

/-- How an operation ends: the write of a cached buffer, the copying with the `CloseWrite` after it,
which is made where the destination has one. -/
inductive Choice where
  | cachedWrite (err : Option Err) | noneCached
  | copied (err : Option Err) (closeWrite : Option (Option Err))
  | next
  deriving DecidableEq, Repr

def connectionCopy (s : Shared) : Place → Choice → Option (Shared × Place)
  | .cached, .cachedWrite none => some (s, .cached)
  | .cached, .cachedWrite (some err) => some (s, .swap (some err))
  | .cached, .noneCached => some (s, .copy)
  | .copy, .copied (some err) _ => some (s, .swap (some err))
  | .copy, .copied none (some result) => some (s, .swap result)
  | .copy, .copied none none => some (s, .swap none)
  | .swap err, .next => some ({ s with done := true }, if s.done then .onClose err else .returned)
  | .onClose err, .next => some ({ s with closed := s.closed ++ [err] }, .returned)
  | _, _ => none

def packetConnectionCopy (s : Shared) : Place → Choice → Option (Shared × Place)
  | .copy, .copied err _ => some (s, .swap err)
  | .swap err, .next => some ({ s with done := true }, if !s.done then .onClose err else .returned)
  | .onClose err, .next => some ({ s with closed := s.closed ++ [err] }, .returned)
  | _, _ => none

def act (kind : Kind) (_ : Direction) : Shared → Place → Choice → Option (Shared × Place) :=
  match kind with
  | .connection => connectionCopy
  | .packet => packetConnectionCopy

abbrev State := Threads Direction Shared Place

/-- The state when `NewConnection` has returned, `none` while it waits for an early payload. -/
def newConnection (dial report : Option Err) (early : Direction → Early) : Option State :=
  match dial, report with
  | some err, _ => some ⟨{ closed := [some err] }, fun _ => .absent⟩
  | none, some err => some ⟨{ closed := [some err] }, fun _ => .absent⟩
  | none, none =>
    (preConnectionCopy (early .upload) {}).bind fun s =>
      (preConnectionCopy (early .download) s).map fun s => ⟨s, fun _ => .cached⟩

def newPacketConnection (dial report : Option Err) : State :=
  match dial, report with
  | some err, _ => ⟨{ closed := [some err] }, fun _ => .absent⟩
  | none, some _ => ⟨{}, fun _ => .absent⟩
  | none, none => ⟨{}, fun _ => .copy⟩

/-- A call, with what it meets before it returns. -/
inductive Call where
  | connection (dial report : Option Err) (early : Direction → Early)
  | packet (dial report : Option Err)

namespace Call

def kind : Call → Kind
  | connection _ _ _ => .connection
  | packet _ _ => .packet

def returns : Call → Option State
  | connection dial report early => newConnection dial report early
  | packet dial report => some (newPacketConnection dial report)

def step (call : Call) : State → Direction × Choice → Option State := Threads.step (act call.kind)

/-- The early payloads pass, if it comes to them, and the report of a packet connection does. -/
def Passes : Call → Prop
  | connection dial report early => dial = none → report = none → ∀ d, (early d).error = some none
  | packet dial report => dial = none → report = none

end Call

namespace Place

/-- The direction is still copying. -/
def copying : Place → Bool
  | cached | copy => true
  | _ => false

/-- The goroutine has swapped the flag. -/
def passed : Place → Nat
  | onClose _ | returned => 1
  | _ => 0

/-- The goroutine is about to call `onClose`. -/
def closing : Place → Nat
  | onClose _ => 1
  | _ => 0

/-- The places of a goroutine that was started. -/
def Runs (kind : Kind) : Place → Prop
  | absent => False
  | cached => kind = .connection
  | _ => True

def ended : Place → Bool
  | absent | returned => true
  | _ => false

end Place

/-- Whether a swap that finds the flag as given is followed by `onClose`. -/
def Kind.calls : Kind → Bool → Bool
  | .connection, done => done
  | .packet, done => !done

inductive Acts (kind : Kind) (s : Shared) : Place → Shared → Place → Prop
  | copies {p p' : Place} (before : p.copying = true)
      (after : p'.copying = true ∨ ∃ err, p' = .swap err) (runs : p.Runs kind → p'.Runs kind) :
      Acts kind s p s p'
  | swaps {err : Option Err} :
      Acts kind s (.swap err) { s with done := true }
      (if kind.calls s.done then .onClose err else .returned)
  | closes {err : Option Err} :
      Acts kind s (.onClose err) { s with closed := s.closed ++ [err] } .returned

section
variable {kind : Kind} {s s' : Shared} {p p' : Place} {c : Choice} {d : Direction}

theorem connectionCopy_acts (h : connectionCopy s p c = some (s', p')) :
    Acts .connection s p s' p' := by
  unfold connectionCopy at h
  split at h
  · cases h; exact .copies rfl (.inl rfl) id
  · cases h; exact .copies rfl (.inr ⟨_, rfl⟩) fun _ => trivial
  · cases h; exact .copies rfl (.inl rfl) fun _ => trivial
  · cases h; exact .copies rfl (.inr ⟨_, rfl⟩) fun _ => trivial
  · cases h; exact .copies rfl (.inr ⟨_, rfl⟩) fun _ => trivial
  · cases h; exact .copies rfl (.inr ⟨_, rfl⟩) fun _ => trivial
  · cases h; exact .swaps
  · cases h; exact .closes
  · cases h

theorem packetConnectionCopy_acts (h : packetConnectionCopy s p c = some (s', p')) :
    Acts .packet s p s' p' := by
  unfold packetConnectionCopy at h
  split at h
  · cases h; exact .copies rfl (.inr ⟨_, rfl⟩) fun _ => trivial
  · cases h; exact .swaps
  · cases h; exact .closes
  · cases h

theorem act_acts (h : act kind d s p c = some (s', p')) : Acts kind s p s' p' := by
  cases kind with
  | connection => exact connectionCopy_acts h
  | packet => exact packetConnectionCopy_acts h

theorem act_goes_on (s : Shared) (busy : p.ended = false) (runs : p.Runs kind) :
    ∃ c next, act kind d s p c = some next := by
  cases kind with
  | connection =>
    cases p with
    | cached => exact ⟨.noneCached, _, rfl⟩
    | copy => exact ⟨.copied none none, _, rfl⟩
    | swap | onClose => exact ⟨.next, _, rfl⟩
    | absent => cases busy
    | returned => cases busy
  | packet =>
    cases p with
    | cached => cases runs
    | copy => exact ⟨.copied none none, _, rfl⟩
    | swap => exact ⟨.next, _, rfl⟩
    | onClose => exact ⟨.next, _, rfl⟩
    | absent => cases busy
    | returned => cases busy

end

/-- The sum over the two goroutines. -/
def both (f : Place → Nat) (s : State) : Nat := f (s.pc .upload) + f (s.pc .download)

/-- The calls of `onClose` that follow from a number of swaps. -/
def Kind.callsOf : Kind → Nat → Nat
  | .connection, swaps => swaps - 1
  | .packet, swaps => min swaps 1

/-- With `k` swaps made before the goroutines were started. -/
structure Inv (kind : Kind) (k : Nat) (s : State) : Prop where
  done : s.shared.done = true ↔ 0 < k + both passed s
  closed : s.shared.closed.length + both closing s = kind.callsOf (k + both passed s)
  runs : ∀ d, (s.pc d).Runs kind

section
variable {kind : Kind} {s s' : State} {d : Direction} {c : Choice} {k : Nat}

theorem both_step {f : Place → Nat} (others : ∀ e, e ≠ d → s'.pc e = s.pc e) :
    both f s' + f (s.pc d) = both f s + f (s'.pc d) := by
  unfold both
  cases d with
  | upload =>
    rw [others .download (by decide)]
    omega
  | download =>
    rw [others .upload (by decide)]
    omega

theorem callsOf_succ (kind : Kind) (swaps : Nat) :
    kind.callsOf (swaps + 1) =
      kind.callsOf swaps + if kind.calls (decide (0 < swaps)) then 1 else 0 := by
  cases kind <;> cases swaps <;> simp [Kind.callsOf, Kind.calls]

theorem Inv.step (inv : Inv kind k s) (taken : step (act kind) s (d, c) = some s') :
    Inv kind k s' := by
  obtain ⟨acted, others⟩ := step_cases taken
  have acts := act_acts acted
  have passed := both_step (f := passed) others
  have closing := both_step (f := closing) others
  have running (mine : (s'.pc d).Runs kind) (e : Direction) : (s'.pc e).Runs kind := by
    by_cases same : e = d
    · rw [same]
      exact mine
    · rw [others e same]
      exact inv.runs e
  have mine := inv.runs d
  have done := inv.done
  have closed := inv.closed
  generalize after : s'.shared = shared at acts
  generalize s'.pc d = p' at acts passed closing running
  generalize s.pc d = p at acts passed closing mine
  cases acts with
  | copies before next runs =>
    have same : p'.passed = p.passed ∧ p'.closing = p.closing := by
      cases p <;> cases p' <;> simp_all [Place.copying, Place.passed, Place.closing]
    have swaps : both Place.passed s' = both Place.passed s := by omega
    refine ⟨?_, ?_, running (runs mine)⟩
    · rw [after, swaps]
      exact done
    · rw [after, swaps]
      omega
  | @swaps err =>
    have before : (swap err).passed = 0 ∧ (swap err).closing = 0 := ⟨rfl, rfl⟩
    have place : (if kind.calls s.shared.done = true then onClose err else .returned).passed = 1 ∧
        (if kind.calls s.shared.done = true then onClose err else .returned).closing =
          if kind.calls s.shared.done then 1 else 0 := by
      split <;> exact ⟨rfl, rfl⟩
    have swaps : both Place.passed s' = both Place.passed s + 1 := by omega
    have found : decide (0 < k + both Place.passed s) = s.shared.done :=
      Bool.eq_iff_iff.mpr (decide_eq_true_iff.trans done.symm)
    refine ⟨?_, ?_, running ?_⟩
    · rw [after, swaps]
      exact iff_of_true rfl (by omega)
    · rw [after, swaps, ← Nat.add_assoc, callsOf_succ, found]
      show s.shared.closed.length + _ = _
      omega
    · split <;> trivial
  | @closes err =>
    have before : (onClose err).passed = 1 ∧ (onClose err).closing = 1 := ⟨rfl, rfl⟩
    have place : returned.passed = 1 ∧ returned.closing = 0 := ⟨rfl, rfl⟩
    have swaps : both Place.passed s' = both Place.passed s := by omega
    refine ⟨?_, ?_, running trivial⟩
    · rw [after, swaps]
      exact done
    · rw [after, swaps, ← closed, List.length_append, List.length_singleton]
      omega

/-- An early payload that fails swaps the flag once. -/
theorem preConnectionCopy_swaps {early : Early} {s s' : Shared} {n : Nat}
    (done : s.done = true ↔ 0 < n)
    (closed : s.closed.length = n - 1) (h : preConnectionCopy early s = some s') :
    ∃ m, (s'.done = true ↔ 0 < n + m) ∧ s'.closed.length = n + m - 1 ∧
      (m = 0 ↔ early.error = some none) := by
  obtain ⟨result, error, rfl⟩ := Option.map_eq_some_iff.mp h
  rw [error]
  cases result with
  | none => exact ⟨0, done, closed, by simp⟩
  | some err =>
    refine ⟨1, iff_of_true rfl (by omega), ?_, by simp⟩
    show (if s.done then s.closed ++ [some err] else s.closed).length = n
    split
    · grind
    · next unset =>
      have zero : n = 0 := Nat.eq_zero_of_not_pos (mt done.mpr unset)
      omega

theorem newConnection_inv {early : Direction → Early} {start : State}
    (h : newConnection none none early = some start) :
    ∃ k, Inv .connection k start ∧ (k = 0 ↔ ∀ d, (early d).error = some none) := by
  obtain ⟨s₁, upload, rest⟩ := Option.bind_eq_some_iff.mp h
  obtain ⟨s₂, download, rfl⟩ := Option.map_eq_some_iff.mp rest
  obtain ⟨m₁, done, closed, passes₁⟩ := preConnectionCopy_swaps (n := 0) (by simp) rfl upload
  obtain ⟨m₂, done, closed, passes₂⟩ := preConnectionCopy_swaps done closed download
  have none_ : both passed ⟨s₂, fun _ => .cached⟩ = 0 := rfl
  refine ⟨0 + m₁ + m₂, ⟨?_, ?_, fun _ => rfl⟩, ?_⟩
  · rw [none_]
    exact done
  · rw [none_]
    exact closed
  · constructor
    · intro zero d
      cases d with
      | upload => exact passes₁.mp (by omega)
      | download => exact passes₂.mp (by omega)
    · grind

theorem reachable_inv {start : State} (reached : Reachable (step (act kind)) start s)
    (inv : Inv kind k start) : Inv kind k s :=
  reached.invariant inv fun _ _ _ inv _ taken => inv.step taken

/-- No goroutine of the call is left. -/
def Ended (s : State) : Prop := ∀ d, (s.pc d).ended = true

def Finished (s : State) : Prop := ∀ d, (s.pc d).copying = false

theorem reachable_absent {shared : Shared}
    (reached : Reachable (step (act kind)) ⟨shared, fun _ => .absent⟩ s) :
    s.shared = shared ∧ Ended s ∧ Finished s := by
  have same : s = ⟨shared, fun _ => .absent⟩ := by
    induction reached with
    | start => rfl
    | @next _ _ a _ _ taken ih =>
      obtain ⟨d, c⟩ := a
      subst ih
      obtain ⟨acted, _⟩ := step_cases taken
      cases act_acts acted with
      | copies before => cases before
  rw [same]
  exact ⟨rfl, fun _ => rfl, fun _ => rfl⟩

theorem Inv.ended (inv : Inv kind k s) (ended : Ended s) :
    s.shared.closed.length = kind.callsOf (k + 2) := by
  have place (d : Direction) : s.pc d = .returned := by
    have runs := inv.runs d
    have out := ended d
    generalize s.pc d = p at runs out
    cases p with
    | absent => cases runs
    | returned => rfl
    | _ => cases out
  have passed : both passed s = 2 := by rw [both, place, place]; rfl
  have closing : both closing s = 0 := by rw [both, place, place]; rfl
  have closed := inv.closed
  rw [passed, closing] at closed
  exact closed

theorem Inv.goes_on (inv : Inv kind k s) :
    Ended s ∨ ∃ a s', Threads.step (act kind) s a = some s' := by
  by_cases ended : ∀ d, (s.pc d).ended = true
  · exact .inl ended
  · obtain ⟨d, busy⟩ := Classical.not_forall.mp ended
    obtain ⟨c, next, acted⟩ :=
      act_goes_on (d := d) s.shared (Bool.eq_false_iff.mpr busy) (inv.runs d)
    exact .inr ⟨(d, c), _, by rw [Threads.step, acted]; rfl⟩

theorem passed_le (p : Place) : p.passed ≤ 1 := by
  cases p with
  | onClose | returned => exact .refl
  | _ => exact Nat.zero_le 1

/-- `onClose` is called after the second swap, which no direction makes before it has finished. -/
theorem Inv.finished (inv : Inv .connection 0 s) (called : s.shared.closed ≠ []) : Finished s := by
  have some_ := List.length_pos_iff.mpr called
  have closed := inv.closed
  have two : both passed s = 2 := by grind [Kind.callsOf, both, passed_le]
  intro d
  have one : (s.pc d).passed = 1 := by
    have upload := passed_le (s.pc .upload)
    have download := passed_le (s.pc .download)
    unfold both at two
    cases d <;> omega
  generalize s.pc d = p at one
  cases p with
  | onClose => rfl
  | returned => rfl
  | _ => cases one

/-- Without a swap before the goroutines were started there is one call at the most. -/
theorem Inv.once (inv : Inv kind 0 s) : s.shared.closed.length ≤ 1 := by
  have closed := inv.closed
  have upload := passed_le (s.pc .upload)
  have download := passed_le (s.pc .download)
  unfold both at closed
  cases kind with
  | connection | packet =>
    simp only [Kind.callsOf] at closed
    omega

/-- In every state that follows a call of `NewConnection` or `NewPacketConnection`: its goroutines
come to their end; where the early payloads pass and a packet connection can be reported, `onClose`
is called at most once, for a connection after both directions have finished; and in the end it has
been called once exactly in that case. -/
theorem onClose_once_iff (call : Call) {start s : State} (returned : call.returns = some start)
    (reached : Reachable call.step start s) :
    (Ended s ∨ ∃ a s', call.step s a = some s') ∧
      (call.Passes → s.shared.closed.length ≤ 1 ∧
        (call.kind = .connection → s.shared.closed ≠ [] → Finished s)) ∧
      (Ended s → (s.shared.closed.length = 1 ↔ call.Passes)) := by
  -- What is left of a call that has started no goroutine.
  have refused {shared : Shared} (reached : Reachable call.step ⟨shared, fun _ => .absent⟩ s)
      (few : shared.closed.length ≤ 1) (called : shared.closed.length = 1 ↔ call.Passes) :
      (Ended s ∨ ∃ a s', call.step s a = some s') ∧
        (call.Passes → s.shared.closed.length ≤ 1 ∧
          (call.kind = .connection → s.shared.closed ≠ [] → Finished s)) ∧
        (Ended s → (s.shared.closed.length = 1 ↔ call.Passes)) := by
    obtain ⟨same, ended, finished⟩ := reachable_absent reached
    rw [same]
    exact ⟨.inl ended, fun _ => ⟨few, fun _ _ => finished⟩, fun _ => called⟩
  cases call with
  | connection dial report early =>
    cases dial with
    | some err =>
      cases returned
      exact refused reached .refl (iff_of_true rfl nofun)
    | none =>
      cases report with
      | some err =>
        cases returned
        exact refused reached .refl (iff_of_true rfl nofun)
      | none =>
        obtain ⟨k, inv, passes⟩ := newConnection_inv returned
        replace inv := reachable_inv reached inv
        refine ⟨inv.goes_on, fun pass => ?_, fun ended => ?_⟩
        · cases passes.mpr (pass rfl rfl)
          exact ⟨inv.once, fun _ => inv.finished⟩
        · rw [inv.ended ended]
          constructor
          · intro one _ _
            simp only [Call.kind, Kind.callsOf] at one
            exact passes.mp (by omega)
          · intro pass
            rw [passes.mpr (pass rfl rfl)]
            rfl
  | packet dial report =>
    cases dial with
    | some err =>
      cases returned
      exact refused reached .refl (iff_of_true rfl nofun)
    | none =>
      cases report with
      | some err =>
        cases returned
        exact refused reached (Nat.zero_le 1) (iff_of_false nofun fun pass => nomatch pass rfl)
      | none =>
        cases returned
        have inv : Inv .packet 0 s := reachable_inv reached ⟨by decide, rfl, fun _ => trivial⟩
        refine ⟨inv.goes_on, fun _ => ⟨inv.once, nofun⟩, fun ended => ?_⟩
        rw [inv.ended ended]
        exact iff_of_true rfl fun _ => rfl

/-- The direction comes to its end and swaps the flag. -/
def finishes (d : Direction) : List (Direction × Choice) :=
  [(d, .noneCached), (d, .copied none none), (d, .next)]

/-- A connection whose upload has an early payload. -/
def earlyUpload : Call :=
  .connection none none fun
    | .upload => { writeHandshake := true, writes := [{}] }
    | .download => {}

theorem early_once :
    ∃ s, exec earlyUpload.step ⟨{}, fun _ => .cached⟩
      (finishes .upload ++ finishes .download ++ [(.download, .next)]) = some s ∧
        s.shared.closed.length = 1 := by
  obtain ⟨s, run, ended⟩ : ∃ s, exec earlyUpload.step ⟨{}, fun _ => .cached⟩
      (finishes .upload ++ finishes .download ++ [(.download, .next)]) = some s ∧ Ended s :=
    ⟨_, rfl, fun d => by cases d <;> rfl⟩
  have counted := onClose_once_iff earlyUpload rfl (exec_reachable run)
  exact ⟨s, run, (counted.2.2 ended).mpr fun _ _ d => by cases d <;> rfl⟩

/-- The early payload of the upload cannot be written, and `onClose` is called when each of the
directions ends; a packet connection cannot be reported, and it is never called. -/
theorem onClose_miscounted :
    (∃ start s, newConnection none none
          (fun
            | .upload => { writeHandshake := true, writes := [{ write := some .other }] }
            | .download => {}) =
        some start ∧
      exec (step (act .connection)) start
        (finishes .upload ++ [(.upload, .next)] ++ finishes .download ++
          [(.download, .next)]) = some s ∧
      s.shared.closed = [none, none]) ∧
    (newPacketConnection none (some .other)).shared.closed = [] :=
  ⟨⟨_, _, rfl, rfl, rfl⟩, rfl⟩

end

end AiboosterEngine.Route.Conn
