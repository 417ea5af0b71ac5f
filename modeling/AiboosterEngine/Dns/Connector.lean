import AiboosterEngine.GoSem.Threads

/-!
# The connector

`Get`, `Reset` and `Close` of `dns/transport/connector.go`, with the connections of
`NewSingleflightConnector`. What a call does between taking the lock and giving it back is
one step; dialing, waiting for the dial of another call, and the end of `Close`, which
closes the connection without the lock, are steps of their own. A dial has the number of
its channel and of the connection it may return.
-/

namespace AiboosterEngine.Dns.Connector
open GoSem Threads

inductive ConnState where
  | undialed | open_ | closed
  deriving DecidableEq, Repr

structure Shared where
  connection : Option Nat := none
  hasConnection : Bool := false
  connecting : Option Nat := none
  closed : Bool := false
  /-- How many dials have begun. -/
  dials : Nat := 0
  /-- The channels that are closed. -/
  ended : Nat → Bool := fun _ => false
  conns : Nat → ConnState := fun _ => .undialed

open Shared

/-- The methods of the connector, and `CloseWithError` of a connection. -/
inductive Call where
  | get | reset | close | closeWithError (connection : Nat)
  deriving DecidableEq, Repr

/-- `Close` returns `closed` when it closed the connector and `alreadyClosed` when it found it
closed; `Reset` and `CloseWithError` return `done`. -/
inductive Result where
  | connection (k : Nat) | transportClosed | dialFailed | canceled | closed | alreadyClosed | done
  deriving DecidableEq, Repr

inductive Place where
  | start
  | waiting (dial : Nat)
  | dialing (dial : Nat) | dialed (dial : Nat) (ok : Bool)
  | closing
  | returned (result : Result)
  | panicked
  deriving DecidableEq, Repr

open Place

/-- How a wait or a dial ends. -/
inductive Choice where
  | ok | fail | canceled | transportClosed
  deriving DecidableEq, Repr

namespace Shared

variable (s : Shared)

def setConn (k : Nat) (state : ConnState) : Shared :=
  { s with conns := fun j => if j = k then state else s.conns j }

/-- The stored connection, if `hasConnection` and it is not closed. -/
def usable : Option Nat :=
  if s.hasConnection then s.connection.filter fun k => s.conns k ≠ .closed else none

/-- The first lock region of a pass of the loop in `Get`. -/
def getLocked : Shared × Place :=
  if s.closed then (s, .returned .transportClosed)
  else
    match s.usable with
    | some k => (s, .returned (.connection k))
    | none =>
      match s.connecting with
      | some dial => ({ s with hasConnection := false }, .waiting dial)
      | none =>
        ({ s with hasConnection := false, connecting := some s.dials, dials := s.dials + 1 },
          .dialing s.dials)

/-- `close(c.connecting)` and `c.connecting = nil`. -/
def endDial (dial : Nat) : Shared :=
  { s with ended := fun j => if j = dial then true else s.ended j, connecting := none }

/-- The second lock region of `Get`. Closing a channel that is nil or closed panics. -/
def dialReturned (k : Nat) (ok : Bool) : Shared × Place :=
  match s.connecting with
  | none => (s, .panicked)
  | some dial =>
    if s.ended dial then (s, .panicked)
    else if !ok then (s.endDial dial, .returned .dialFailed)
    else if s.closed then ((s.endDial dial).setConn k .closed, .returned .transportClosed)
    else ({ s.endDial dial with connection := some k, hasConnection := true },
      .returned (.connection k))

def closeLocked : Shared × Place :=
  if s.closed then (s, .returned .alreadyClosed)
  else ({ s with closed := true, hasConnection := false },
    if s.hasConnection then .closing else .returned .closed)

/-- `callbacks.Close(c.connection)` at the end of `Close`. -/
def closeConnection : Shared × Place :=
  match s.connection with
  | some k => (s.setConn k .closed, .returned .closed)
  | none => (s, .panicked)

def resetLocked : Shared × Place :=
  if s.hasConnection then
    match s.connection with
    | some k => ({ s.setConn k .closed with hasConnection := false }, .returned .done)
    | none => (s, .panicked)
  else (s, .returned .done)

end Shared

section
variable {τ : Type}

def act (call : τ → Call) (t : τ) (s : Shared) (p : Place) (c : Choice) : Option (Shared × Place) :=
  match p with
  | .start =>
    match call t with
    | .get => some s.getLocked
    | .reset => some s.resetLocked
    | .close => some s.closeLocked
    | .closeWithError k =>
        if s.conns k = .undialed then none else some (s.setConn k .closed, .returned .done)
  | .waiting dial =>
    match c with
    | .ok => if s.ended dial then some (s, .start) else none
    | .canceled => some (s, .returned .canceled)
    | .transportClosed => some (s, .returned .transportClosed)
    | .fail => none
  | .dialing dial =>
    match c with
    | .ok => some (s.setConn dial .open_, .dialed dial true)
    | .fail => some (s, .dialed dial false)
    | .canceled | .transportClosed => none
  | .dialed dial ok => some (s.dialReturned dial ok)
  | .closing => some s.closeConnection
  | .returned _ | .panicked => none

def init : Threads τ Shared Place := { shared := {}, pc := fun _ => .start }

inductive Acts (call : Call) (s : Shared) : Place → Shared → Place → Prop
  | refuses (get : call = .get) (closed : s.closed = true) :
      Acts call s .start s (.returned .transportClosed)
  | gives {k : Nat} (get : call = .get) (open_ : s.closed = false) (usable : s.usable = some k) :
      Acts call s .start s (.returned (.connection k))
  | waits {dial : Nat} (get : call = .get) (open_ : s.closed = false) (unusable : s.usable = none)
      (busy : s.connecting = some dial) :
      Acts call s .start { s with hasConnection := false } (.waiting dial)
  | dials (get : call = .get) (open_ : s.closed = false) (unusable : s.usable = none)
      (free : s.connecting = none) :
      Acts call s .start
        { s with hasConnection := false, connecting := some s.dials, dials := s.dials + 1 }
          (.dialing s.dials)
  | continues {dial : Nat} (ended : s.ended dial = true) : Acts call s (.waiting dial) s .start
  | givesUp {dial : Nat} {result : Result} (failed : result = .canceled ∨
      result = .transportClosed) :
      Acts call s (.waiting dial) s (.returned result)
  | succeeds {dial : Nat} : Acts call s (.dialing dial) (s.setConn dial .open_) (.dialed dial true)
  | fails {dial : Nat} : Acts call s (.dialing dial) s (.dialed dial false)
  | noChannel {k : Nat} {ok : Bool} (free : ∀ dial, s.connecting = some dial →
      s.ended dial = true) :
      Acts call s (.dialed k ok) s .panicked
  | dialFailed {k dial : Nat} (busy : s.connecting = some dial) :
      Acts call s (.dialed k false) (s.endDial dial) (.returned .dialFailed)
  | late {k dial : Nat} (busy : s.connecting = some dial) (closed : s.closed = true) :
      Acts call s (.dialed k true) ((s.endDial dial).setConn k .closed) (.returned .transportClosed)
  | stores {k dial : Nat} (busy : s.connecting = some dial) (open_ : s.closed = false) :
      Acts call s (.dialed k true)
        { s.endDial dial with connection := some k, hasConnection := true }
        (.returned (.connection k))
  | closes (close : call = .close) (open_ : s.closed = false) (has : s.hasConnection = true) :
      Acts call s .start { s with closed := true, hasConnection := false } .closing
  | closesNone (close : call = .close) (open_ : s.closed = false) (has : s.hasConnection = false) :
      Acts call s .start { s with closed := true, hasConnection := false } (.returned .closed)
  | closedBefore (close : call = .close) (closed : s.closed = true) :
      Acts call s .start s (.returned .alreadyClosed)
  | closesConnection {k : Nat} (stored : s.connection = some k) :
      Acts call s .closing (s.setConn k .closed) (.returned .closed)
  | closesNil (stored : s.connection = none) : Acts call s .closing s .panicked
  | resets {k : Nat} (reset : call = .reset) (has : s.hasConnection = true)
      (stored : s.connection = some k) :
      Acts call s .start { s.setConn k .closed with hasConnection := false } (.returned .done)
  | resetsNil (reset : call = .reset) (has : s.hasConnection = true)
      (stored : s.connection = none) :
      Acts call s .start s .panicked
  | resetsNone (reset : call = .reset) (has : s.hasConnection = false) :
      Acts call s .start s (.returned .done)
  | breaks {k : Nat} (breaks : call = .closeWithError k) (dialed : s.conns k ≠ .undialed) :
      Acts call s .start (s.setConn k .closed) (.returned .done)

variable {call : τ → Call} {t : τ} {s s' : Shared} {p p' : Place} {c : Choice}

attribute [local grind intro] Acts

theorem act_acts (h : act call t s p c = some (s', p')) : Acts (call t) s p s' p' := by
  cases p with
  | start => grind [act, getLocked, resetLocked, closeLocked]
  | waiting | dialing => cases c <;> grind [act]
  | dialed => grind [act, dialReturned]
  | closing => grind [act, closeConnection]
  | returned | panicked => cases h

/-- The dial a call has begun and not ended. -/
def Place.dial : Place → Option Nat
  | .dialing dial | .dialed dial _ => some dial
  | _ => none

/-- What a call does to the dials: it leaves them alone, begins one, or ends its own. -/
theorem Acts.dial_cases {call : Call} (acts : Acts call s p s' p')
    (mine : ∀ dial, p.dial = some dial → s.connecting = some dial ∧ s.ended dial = false) :
    (s'.connecting = s.connecting ∧ s'.ended = s.ended ∧ s'.dials = s.dials ∧ p'.dial = p.dial ∧
      (∀ dial, p' = .waiting dial → s.connecting = some dial)) ∨
    (s.connecting = none ∧ s'.connecting = some s.dials ∧ s'.ended = s.ended ∧
      s'.dials = s.dials + 1 ∧
      p' = .dialing s.dials) ∨
    (∃ dial result, p.dial = some dial ∧ s'.connecting = none ∧
      s'.ended = (fun j => if j = dial then true else s.ended j) ∧ s'.dials = s.dials ∧
        p' = .returned result) := by
  have ends : ∀ {k dial}, p.dial = some k → s.connecting = some dial → dial = k := by grind
  cases acts with
  | waits get open_ unusable busy => exact .inl ⟨rfl, rfl, rfl, rfl, by simp [busy]⟩
  | dials get open_ unusable free => exact .inr (.inl ⟨free, rfl, rfl, rfl, rfl⟩)
  | noChannel free =>
    obtain ⟨busy, running⟩ := mine _ rfl
    rw [free _ busy] at running
    cases running
  | dialFailed busy | late busy closed | stores busy open_ =>
    cases ends rfl busy
    exact .inr (.inr ⟨_, _, rfl, rfl, rfl, rfl, rfl⟩)
  | _ => exact .inl ⟨rfl, rfl, rfl, rfl, by simp⟩

variable [DecidableEq τ]

/-- One dial at most, and every channel that is waited on is its channel or closed. -/
structure Dialing (s : Threads τ Shared Place) : Prop where
  mine : ∀ t dial, (s.pc t).dial = some dial → s.shared.connecting = some dial
  one : ∀ t u dial, (s.pc t).dial = some dial → (s.pc u).dial = some dial → t = u
  busy : ∀ dial, s.shared.connecting = some dial → ∃ t, (s.pc t).dial = some dial
  running : ∀ dial, s.shared.connecting = some dial → s.shared.ended dial = false
  fresh : ∀ dial, s.shared.connecting = some dial ∨ s.shared.ended dial = true →
    dial < s.shared.dials
  waiting : ∀ t dial, s.pc t = .waiting dial → s.shared.connecting = some dial ∨
    s.shared.ended dial = true

variable {w w' : Threads τ Shared Place}

omit [DecidableEq τ] in
theorem Dialing.init : Dialing (init : Threads τ Shared Place) := by
  constructor <;> simp [Connector.init, dial]

theorem Dialing.step (inv : Dialing w) (taken : step (act call) w (t, c) = some w') :
    Dialing w' := by
  obtain ⟨acted, others⟩ := step_cases taken
  obtain ⟨mine, one, busy, running, fresh, waiting⟩ := inv
  have own : ∀ dial, (w.pc t).dial = some dial →
      w.shared.connecting = some dial ∧ w.shared.ended dial = false := by grind
  obtain ⟨connecting, ended, dials, same, waits⟩ | ⟨free, connecting, ended, dials, place⟩ |
    ⟨dial, result, here, connecting, ended, dials, place⟩ := (act_acts acted).dial_cases own
  · have kept : ∀ u, (w'.pc u).dial = (w.pc u).dial := by grind +splitImp
    constructor <;> grind +splitImp
  · -- No call dials before the step, since there is no channel.
    have only : ∀ u dial, (w'.pc u).dial = some dial → u = t ∧ dial = w.shared.dials := by
      grind +splitImp [dial]
    constructor <;> grind +splitImp [dial]
  · -- The dial that ended was the only one.
    have nobody : ∀ u other, (w'.pc u).dial ≠ some other := by grind +splitImp [dial]
    constructor <;> grind +splitImp

/-- The call of `Close` that closed the connector. -/
def Place.closer : Place → Bool
  | .closing | .returned .closed => true
  | _ => false

/-- An open connection is stored, or in the hands of the `Get` that dialed it, or of the `Close`
that is about to close it. -/
def Held (w : Threads τ Shared Place) (k : Nat) : Prop :=
  (w.shared.hasConnection = true ∧ w.shared.connection = some k) ∨
  (∃ t, w.pc t = .dialed k true) ∨
  (w.shared.connection = some k ∧ ∃ t, w.pc t = .closing)

structure Holding (w : Threads τ Shared Place) : Prop where
  held : ∀ k, w.shared.conns k = .open_ → Held w k
  stored : w.shared.hasConnection = true → w.shared.closed = false ∧ ∃ k,
    w.shared.connection = some k
  apart : w.shared.hasConnection = true → w.shared.connecting = none
  closing : ∀ t, w.pc t = .closing → ∃ k, w.shared.connection = some k
  idle : ∀ t, w.pc t = .closing → w.shared.connecting = none
  closer : ∀ t u, (w.pc t).closer = true → (w.pc u).closer = true → t = u
  closed : ∀ t, (w.pc t).closer = true ∨ w.pc t = .returned .alreadyClosed → w.shared.closed = true
  running : ∀ t, w.pc t ≠ .panicked

omit [DecidableEq τ] in
theorem Holding.init : Holding (init : Threads τ Shared Place) := by
  constructor <;> simp [Connector.init, Place.closer]

theorem setConn_closed_open {k j : Nat} :
    (s.setConn k .closed).conns j = .open_ ↔ j ≠ k ∧ s.conns j = .open_ := by
  by_cases same : j = k <;> simp [setConn, same]

omit [DecidableEq τ] in
/-- No call closes a nil or closed channel, or a connection that is not there. -/
theorem not_panics (holding : Holding w) (dialing : Dialing w)
    (acts : Acts (call t) w.shared (w.pc t) w'.shared (w'.pc t)) : w'.pc t ≠ .panicked := by
  generalize here : w.pc t = p, w'.shared = s', w'.pc t = p' at acts
  cases acts with
  | noChannel free =>
    have busy := dialing.mine t _ (by rw [here]; rfl)
    have running := dialing.running _ busy
    rw [free _ busy] at running
    cases running
  | closesNil stored =>
    obtain ⟨k, some⟩ := holding.closing t here
    rw [stored] at some
    cases some
  | resetsNil reset has stored =>
    obtain ⟨_, k, some⟩ := holding.stored has
    rw [stored] at some
    cases some
  | _ => simp

section
variable {call : Call} (acts : Acts call s p s' p')
include acts

theorem Acts.stored (stored : s.hasConnection = true → s.closed = false ∧ ∃ k,
    s.connection = some k) :
    s'.hasConnection = true → s'.closed = false ∧ ∃ k, s'.connection = some k := by
  cases acts with
  | stores busy open_ => simp [endDial, open_]
  | waits | dials | closes | closesNone | resets => simp
  | _ => exact stored

theorem Acts.apart (apart : s.hasConnection = true → s.connecting = none) :
    s'.hasConnection = true → s'.connecting = none := by
  cases acts with
  | stores | dialFailed | late => exact fun _ => rfl
  | waits | dials | closes | closesNone | resets => simp
  | _ => exact apart

theorem Acts.connection (closed : s.closed = true) : s'.connection = s.connection := by
  cases acts with
  | stores busy open_ =>
    rw [closed] at open_
    cases open_
  | _ => rfl

theorem Acts.idle (closed : s.closed = true) (idle : s.connecting = none) :
    s'.connecting = none := by
  cases acts with
  | dials get open_ =>
    rw [closed] at open_
    cases open_
  | dialFailed | late | stores => rfl
  | _ => exact idle

theorem Acts.closer_cases (running : p' ≠ .panicked) :
    (p'.closer = p.closer ∧ s'.closed = s.closed ∧
      (p' = .returned .alreadyClosed → s.closed = true)) ∨
    (s.closed = false ∧ s'.closed = true) := by
  cases acts with
  | closes close open_ | closesNone close open_ => exact .inr ⟨open_, rfl⟩
  | closedBefore close closed => exact .inl ⟨rfl, rfl, fun _ => closed⟩
  | givesUp failed => rcases failed with rfl | rfl <;> exact .inl ⟨rfl, rfl, by simp⟩
  | closesNil => exact absurd rfl running
  | _ => exact .inl ⟨rfl, rfl, by simp⟩

end

theorem Acts.closing {call : Call} (acts : Acts call s p s' .closing) :
    s.hasConnection = true ∧ s'.connection = s.connection ∧ s'.connecting = s.connecting := by
  cases acts with
  | closes close open_ has => exact ⟨has, rfl, rfl⟩

omit [DecidableEq τ] in
theorem held_step (holding : Holding w) (dialing : Dialing w)
    (acts : Acts (call t) w.shared (w.pc t) w'.shared (w'.pc t))
    (others : ∀ u, u ≠ t → w'.pc u = w.pc u)
    {k : Nat} (isOpen : w'.shared.conns k = .open_) : Held w' k := by
  have running := not_panics holding dialing acts
  generalize here : w.pc t = p, state : w'.shared = s', next : w'.pc t = p' at acts isOpen running
  obtain ⟨held, stored, apart, -, -, -, closed⟩ := holding
  unfold Held at *
  cases acts with
  | succeeds => grind +splitImp [setConn]
  | late | closesConnection | resets | breaks =>
    obtain ⟨other, isOpen⟩ := setConn_closed_open.mp isOpen
    grind +splitImp [setConn, endDial, closer]
  | stores busy open_ =>
    -- Nothing was stored while the call dialed, and nobody closes an open connector.
    grind +splitImp [endDial, closer]
  | _ => grind +splitImp [usable, endDial]

theorem Holding.step (holding : Holding w) (dialing : Dialing w)
    (taken : step (act call) w (t, c) = some w') : Holding w' := by
  obtain ⟨acted, others⟩ := step_cases taken
  have acts := act_acts acted
  have running := not_panics holding dialing acts
  have closers := acts.closer_cases running
  have begins : w'.pc t = .closing → w.shared.hasConnection = true ∧
      w'.shared.connection = w.shared.connection ∧ w'.shared.connecting = w.shared.connecting :=
    fun place => (place ▸ acts).closing
  have connection := acts.connection
  have idle := acts.idle
  constructor
  case held => exact fun k => held_step holding dialing acts others
  case stored => exact acts.stored holding.stored
  case apart => exact acts.apart holding.apart
  all_goals
    clear acts acted
    obtain ⟨-, stored, apart, closing, idles, closer, closed, runs⟩ := holding
    grind +splitImp [Place.closer]

/-- Where a call of `Close` can be. -/
def Place.ofClose : Place → Bool
  | .start | .closing | .returned .closed | .returned .alreadyClosed => true
  | _ => false

structure Inv (call : τ → Call) (w : Threads τ Shared Place) : Prop where
  dialing : Dialing w
  holding : Holding w
  close : ∀ t, call t = .close → (w.pc t).ofClose = true

theorem Acts.ofClose {call : Call} (acts : Acts call s p s' p') (close : call = .close)
    (was : p.ofClose = true) (running : p' ≠ .panicked) : p'.ofClose = true := by
  subst close
  cases acts with
  | closes | closesNone | closedBefore | closesConnection => rfl
  | closesNil => exact absurd rfl running
  | refuses get | gives get | waits get | dials get => cases get
  | resets reset | resetsNil reset | resetsNone reset => cases reset
  | breaks breaks => cases breaks
  | _ => cases was

theorem Inv.step (inv : Inv call w) (taken : step (act call) w (t, c) = some w') : Inv call w' := by
  have holding := inv.holding.step inv.dialing taken
  apply Inv.mk (inv.dialing.step taken) holding
  intro u close
  obtain ⟨acted, others⟩ := step_cases taken
  by_cases self : u = t
  · rw [self] at close ⊢
    exact (act_acts acted).ofClose close (inv.close t close) (holding.running t)
  · rw [others u self]
    exact inv.close u close

theorem reachable_inv (reached : Reachable (step (act call)) init w) : Inv call w := by
  apply reached.invariant
  · exact ⟨.init, .init, fun _ _ => rfl⟩
  · intro s a s' inv _ taken
    exact inv.step taken

/-- One dial at a time, every open connection is in someone's hands, after a `Close` has returned
and the dials have ended nothing is open and a `Get` is refused, and nobody waits for a dial
that has ended. -/
structure Safe (call : τ → Call) (w : Threads τ Shared Place) : Prop where
  oneDial : ∀ t u dial other, (w.pc t).dial = some dial → (w.pc u).dial = some other → t = u
  held : ∀ k, w.shared.conns k = .open_ → Held w k
  final : ∀ t result, call t = .close → w.pc t = .returned result →
    (∀ u dial, (w.pc u).dial ≠ some dial) → ∀ k, w.shared.conns k ≠ .open_
  refused : ∀ t result, call t = .close → w.pc t = .returned result →
    ∀ u c, call u = .get → w.pc u = .start →
      act call u w.shared (w.pc u) c = some (w.shared, .returned .transportClosed)
  continues : ∀ t dial, w.pc t = .waiting dial →
    (∃ u, (w.pc u).dial = some dial) ∨ act call t w.shared (w.pc t) .ok = some (w.shared, .start)
  running : ∀ t, w.pc t ≠ .panicked

/-- A `Close` that found the connector closed has returned, and the one that closed it, which gave
the lock back first, has still to close its connection. -/
def Overtaken (call : τ → Call) (w : Threads τ Shared Place) : Prop :=
  ∃ t u k, call t = .close ∧ w.pc t = .returned .alreadyClosed ∧ w.pc u = .closing ∧
    w.shared.connection = some k ∧ w.shared.conns k = .open_

omit [DecidableEq τ] in
theorem Inv.returned (inv : Inv call w) {result : Result} (close : call t = .close)
    (returned : w.pc t = .returned result) :
      (w.pc t).closer = true ∨ w.pc t = .returned .alreadyClosed := by
  have place := inv.close t close
  rw [returned] at place ⊢
  cases result with
  | closed => exact .inl rfl
  | alreadyClosed => exact .inr rfl
  | _ => cases place

omit [DecidableEq τ] in
/-- After a `Close` has returned and the dials have ended, only the connection of an overtaken
`Close` is open. -/
theorem Inv.final (inv : Inv call w) {result : Result} (close : call t = .close)
    (returned : w.pc t = .returned result) (ended : ∀ u dial, (w.pc u).dial ≠ some dial) {k : Nat}
    (isOpen : w.shared.conns k = .open_) : Overtaken call w := by
  have place := inv.returned close returned
  obtain ⟨has, _⟩ | ⟨u, dialed⟩ | ⟨stored, u, closing⟩ := inv.holding.held k isOpen
  · have closed := inv.holding.closed t place
    rw [(inv.holding.stored has).1] at closed
    cases closed
  · exact absurd (by rw [dialed]; rfl) (ended u k)
  · obtain closer | second := place
    · -- The one call that closes the connector has not returned.
      have same := inv.holding.closer u t (by rw [closing]; rfl) closer
      rw [same, returned] at closing
      cases closing
    · exact ⟨t, u, k, close, second, closing, stored, isOpen⟩

omit [DecidableEq τ] in
theorem Inv.not_dialing (inv : Inv call w) (closing : w.pc t = .closing) (u : τ) (dial : Nat) :
    (w.pc u).dial ≠ some dial := by
  intro dials
  have busy := inv.dialing.mine u dial dials
  rw [inv.holding.idle t closing] at busy
  cases busy

/-- Whatever `Get`, `Reset` and `Close` calls there are and however they interleave, an overtaken
`Close` is all that can go wrong. -/
theorem connector_safe_iff (call : τ → Call) (reached : Reachable (step (act call)) init w) :
    Safe call w ↔ ¬ Overtaken call w := by
  have inv := reachable_inv reached
  have dialing := inv.dialing
  have holding := inv.holding
  constructor
  · rintro safe ⟨t, u, k, close, returned, closing, _, isOpen⟩
    exact safe.final t _ close returned (inv.not_dialing closing) k isOpen
  intro inOrder
  constructor
  case oneDial =>
    intro t u dial other first second
    have same := (dialing.mine t dial first).symm.trans (dialing.mine u other second)
    cases same
    exact dialing.one t u dial first second
  case held => exact holding.held
  case final =>
    intro t result close returned ended k isOpen
    exact inOrder (inv.final close returned ended isOpen)
  case refused =>
    intro t result close returned u c get start
    have closed := holding.closed t (inv.returned close returned)
    simp [act, start, get, getLocked, closed]
  case continues =>
    intro t dial waits
    obtain busy | ended := dialing.waiting t dial waits
    · exact .inl (dialing.busy dial busy)
    · exact .inr (by simp [act, waits, ended])
  case running => exact holding.running

end

def closedWhileDialing : Fin 3 → Call
  | 0 | 1 => .get
  | 2 => .close

theorem closedWhileDialing_safe :
    ∃ w, exec (step (act closedWhileDialing)) init
        [(0, .ok), (1, .ok), (0, .ok), (2, .ok), (0, .ok), (1, .ok), (1, .ok)] = some w ∧
      w.shared.conns 0 = .closed ∧ w.pc 1 = .returned .transportClosed ∧
        Safe closedWhileDialing w := by
  have run : ∃ w, exec (step (act closedWhileDialing)) init
      [(0, .ok), (1, .ok), (0, .ok), (2, .ok), (0, .ok), (1, .ok), (1, .ok)] = some w ∧
      w.shared.conns 0 = .closed ∧ w.pc 1 = .returned .transportClosed ∧
      ∀ t, w.pc t ≠ .returned .alreadyClosed := ⟨_, rfl, rfl, rfl, by decide⟩
  obtain ⟨w, ran, closed, refused, inOrder⟩ := run
  refine ⟨w, ran, closed, refused,
    (connector_safe_iff closedWhileDialing (exec_reachable ran)).mpr ?_⟩
  rintro ⟨t, _, _, _, second, _⟩
  exact inOrder t second

/-- One `Get` and two `Close` calls. -/
def closedTwice : Fin 3 → Call
  | 0 => .get
  | 1 | 2 => .close

/-- The `Get` has returned its connection. The first `Close` marks the connector closed and gives
the lock back; the second finds it closed and returns; the connection is open. -/
theorem second_close_early :
    ∃ w, exec (step (act closedTwice)) init
        [(0, .ok), (0, .ok), (0, .ok), (1, .ok), (2, .ok)] = some w ∧
      w.pc 0 = .returned (.connection 0) ∧ w.pc 2 = .returned .alreadyClosed ∧
      w.shared.conns 0 = .open_ ∧ ¬ Safe closedTwice w := by
  have run : ∃ w, exec (step (act closedTwice)) init
      [(0, .ok), (0, .ok), (0, .ok), (1, .ok), (2, .ok)] = some w ∧
      w.pc 0 = .returned (.connection 0) ∧ w.pc 2 = .returned .alreadyClosed ∧
      w.shared.conns 0 = .open_ ∧ ∀ u, (w.pc u).dial = none := ⟨_, rfl, rfl, rfl, rfl, by decide⟩
  obtain ⟨w, ran, got, second, isOpen, ended⟩ := run
  refine ⟨w, ran, got, second, isOpen, fun safe => ?_⟩
  exact safe.final 2 _ rfl second (by simp [ended]) 0 isOpen

end AiboosterEngine.Dns.Connector
