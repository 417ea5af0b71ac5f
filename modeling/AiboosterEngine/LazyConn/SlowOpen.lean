import AiboosterEngine.GoSem.Threads

/-!
# Connections dialed by the first write: `slowOpenConn`

`Read`, `Write` and `Close` of `common/dialer/tfo.go`, for any number of calls. The first
`Write` dials, under the lock; the pointer, the two channels and the `sync.Once` are read
and written without it.
-/

namespace AiboosterEngine.LazyConn
open GoSem Threads

/-- The connection the dialer gives. -/
inductive ConnState where
  | undialed | open_ | closed
  deriving DecidableEq, Repr

/-- `ok` and `fail` are how a dial or a write ends; in a select `ok` takes the branch of `create`
and `done` that of `done`; `data` is what the peer sends. -/
inductive Choice where
  | ok | fail | done | data
  deriving DecidableEq, Repr

namespace SlowOpen

inductive Call where
  | read | write | close
  deriving DecidableEq, Repr

inductive Once (τ : Type) where
  | idle | running (t : τ) | ended
  deriving DecidableEq, Repr

structure Shared (τ : Type) where
  conn : Bool := false
  create : Bool := false
  done : Bool := false
  err : Bool := false
  access : Option τ := none
  closeOnce : Once τ := .idle
  tcp : ConnState := .undialed

open Shared

inductive Result where
  | errClosed | dialErr | conn | written | nil
  deriving DecidableEq, Repr

inductive Place where
  | start
  | selecting | reading
  | locking | dialing | dialed | stored | writing (locked : Bool)
  | closing | found
  | returned (result : Result)
  | panicked
  deriving DecidableEq, Repr

section
variable {τ : Type}

def read (s : Shared τ) (p : Place) (c : Choice) : Option (Shared τ × Place) :=
  match p with
  | .start => some (s, if s.conn then .reading else .selecting)
  | .selecting =>
    match c with
    | .ok =>
      if s.create then some (s, if s.err then .returned .dialErr else if s.conn then .reading
        else .panicked)
      else none
    | .done => if s.done then some (s, .returned .errClosed) else none
    | .fail | .data => none
  | .reading =>
    -- The connection's own `Read` waits for the peer until the connection is closed.
    match s.tcp, c with
    | .open_, .data | .closed, _ => some (s, .returned .conn)
    | _, _ => none
  | _ => none

def write (t : τ) (s : Shared τ) (p : Place) (c : Choice) : Option (Shared τ × Place) :=
  match p with
  | .start => some (s, if s.conn then .writing false else .locking)
  | .locking =>
    if s.access.isSome then none
    else
      match c with
      | .ok =>
        if s.create then
          if s.err then some (s, .returned .dialErr)
          else if s.conn then some ({ s with access := some t }, .writing true)
          else some (s, .panicked)
        else if s.done then none
        else some ({ s with access := some t }, .dialing)
      | .done => if s.done then some (s, .returned .errClosed) else none
      | .fail | .data => none
  | .dialing =>
    match c with
    | .ok => some ({ s with tcp := .open_ }, .dialed)
    | .fail => some ({ s with err := true, create := true, access := none }, .returned .dialErr)
    | .done | .data => none
  | .dialed => some ({ s with conn := true }, .stored)
  | .stored => some ({ s with create := true, access := none }, .returned .written)
  | .writing locked => some (if locked then { s with access := none } else s, .returned .conn)
  | _ => none

def close (t : τ) (s : Shared τ) (p : Place) : Option (Shared τ × Place) :=
  match p with
  | .start =>
    match s.closeOnce with
    | .idle => some ({ s with closeOnce := .running t, done := true }, .closing)
    | .running _ => none
    | .ended => some (s, .returned .nil)
  | .closing =>
      some (if s.conn then (s, .found) else ({ s with closeOnce := .ended }, .returned .nil))
  | .found => some ({ s with tcp := .closed, closeOnce := .ended }, .returned .nil)
  | _ => none

def act (call : τ → Call) (t : τ) (s : Shared τ) (p : Place) (c : Choice) :
    Option (Shared τ × Place) :=
  match call t with
  | .read => read s p c
  | .write => write t s p c
  | .close => close t s p

def init : Threads τ (Shared τ) Place := { shared := {}, pc := fun _ => .start }

inductive Acts (call : Call) (t : τ) (s : Shared τ) : Place → Shared τ → Place → Prop
  | loads (read : call = .read) (stored : s.conn = true) : Acts call t s .start s .reading
  | selects (read : call = .read) (unset : s.conn = false) : Acts call t s .start s .selecting
  | readCreated (read : call = .read) (created : s.create = true) (stored : s.conn = true) :
      Acts call t s .selecting s .reading
  | readEnds {p : Place} {result : Result} (read : call = .read)
      (here : p = .selecting ∨ p = .reading) :
      Acts call t s p s (.returned result)
  | readPanics (read : call = .read) (created : s.create = true) (err : s.err = false)
      (unset : s.conn = false) :
      Acts call t s .selecting s .panicked
  | writes (write : call = .write) : Acts call t s .start s (.writing false)
  | locks (write : call = .write) : Acts call t s .start s .locking
  | refused {result : Result} (write : call = .write) : Acts call t s .locking s (.returned result)
  | writePanics (write : call = .write) (created : s.create = true) (err : s.err = false)
      (unset : s.conn = false) :
      Acts call t s .locking s .panicked
  | writeCreated (write : call = .write) (free : s.access = none) :
      Acts call t s .locking { s with access := some t } (.writing true)
  | dials (write : call = .write) (free : s.access = none) (uncreated : s.create = false)
      (undone : s.done = false) :
      Acts call t s .locking { s with access := some t } .dialing
  | dialFails (write : call = .write) :
      Acts call t s .dialing { s with err := true, create := true, access := none }
        (.returned .dialErr)
  | dialed (write : call = .write) : Acts call t s .dialing { s with tcp := .open_ } .dialed
  | stores (write : call = .write) : Acts call t s .dialed { s with conn := true } .stored
  | creates (write : call = .write) :
      Acts call t s .stored { s with create := true, access := none } (.returned .written)
  | written (write : call = .write) : Acts call t s (.writing false) s (.returned .conn)
  | writtenLocked (write : call = .write) :
      Acts call t s (.writing true) { s with access := none } (.returned .conn)
  | closes (close : call = .close) (idle : s.closeOnce = .idle) :
      Acts call t s .start { s with closeOnce := .running t, done := true } .closing
  | closedBefore (close : call = .close) (ended : s.closeOnce = .ended) :
      Acts call t s .start s (.returned .nil)
  | looks (close : call = .close) (stored : s.conn = true) : Acts call t s .closing s .found
  | looksNone (close : call = .close) (unset : s.conn = false) :
      Acts call t s .closing { s with closeOnce := .ended } (.returned .nil)
  | closesConn (close : call = .close) :
      Acts call t s .found { s with tcp := .closed, closeOnce := .ended } (.returned .nil)

variable {call : τ → Call} {t : τ} {s s' : Shared τ} {p p' : Place} {c : Choice}

attribute [local grind intro] Acts

theorem act_acts (h : act call t s p c = some (s', p')) : Acts (call t) t s p s' p' := by
  cases p with
  | start => cases s.closeOnce <;> grind [act, read, write, close]
  | writing locked => cases locked <;> grind [act, read, write, close]
  | reading => cases tcp : s.tcp <;> cases c <;> grind [act, read, write, close]
  | _ => cases c <;> grind [act, read, write, close, Option.isSome_iff_ne_none]

/-- The places under the lock. -/
def Place.locked : Place → Bool
  | .dialing | .dialed | .stored | .writing true => true
  | _ => false

/-- The places inside of `closeOnce`. -/
def Place.inOnce : Place → Bool
  | .closing | .found => true
  | _ => false

/-- The call inside of `closeOnce`. -/
def Shared.closer (s : Shared τ) : Option τ :=
  match s.closeOnce with
  | .running t => some t
  | .idle | .ended => none

/-- Whose place it is. -/
def Place.caller : Place → Option Call
  | .selecting | .reading => some .read
  | .locking | .dialing | .dialed | .stored | .writing _ => some .write
  | .closing | .found => some .close
  | .start | .returned _ | .panicked => none

def Settled (s : Shared τ) : Prop :=
  (s.create = false → s.conn = false ∧ s.tcp = .undialed) ∧
  (s.create = true → (s.conn = true ∧ s.tcp ≠ .undialed) ∨
    (s.err = true ∧ s.conn = false ∧ s.tcp = .undialed))

/-- How far the dial has come when the call that has the lock is at the place. -/
def DialAt : Place → Shared τ → Prop
  | .dialing, s => s.conn = false ∧ s.create = false ∧ s.tcp = .undialed
  | .dialed, s => s.conn = false ∧ s.create = false ∧ s.tcp = .open_
  | .stored, s => s.conn = true ∧ s.create = false ∧ s.tcp ≠ .undialed
  | _, s => Settled s

/-- What a call relies on at its place. -/
structure At (call : Call) (p : Place) (s : Shared τ) : Prop where
  caller : ∀ callee, p.caller = some callee → call = callee
  stored : p = .reading ∨ p = .found → s.conn = true
  returned : ∀ result, call = .close → p = .returned result → s.closeOnce = .ended
  running : p ≠ .panicked

theorem DialAt.kept (h : DialAt p s) (conn : s'.conn = s.conn) (create : s'.create = s.create)
    (err : s'.err = s.err)
    (tcp : s'.tcp = s.tcp ∨ (s'.tcp = .closed ∧ s.conn = true)) : DialAt p s' := by
  obtain tcp | ⟨tcp, stored⟩ := tcp
  · cases p <;> simpa only [DialAt, Settled, conn, create, err, tcp] using h
  · cases p <;> simp_all [DialAt, Settled]

section
variable {call : Call} (acts : Acts call t s p s' p')
include acts

/-- A call without the lock leaves the dial alone; it may close a connection that is stored. -/
theorem Acts.frame (unlocked : p.locked = false) :
    s'.conn = s.conn ∧ s'.create = s.create ∧ s'.err = s.err ∧
      (s'.tcp = s.tcp ∨ (s'.tcp = .closed ∧ p = .found)) := by
  cases acts <;> grind [Place.locked]

theorem Acts.dial (free : s.access = none → Settled s)
    (dial : p.locked = true → DialAt p s) (locked : p'.locked = true) : DialAt p' s' := by
  cases acts <;> grind [Place.locked, DialAt, Settled]

theorem Acts.settled (dial : DialAt p s) (locked : p.locked = true)
    (back : p'.locked = false) : Settled s' := by
  cases acts with
  | readEnds read here => rcases here with rfl | rfl <;> cases locked
  | _ => grind [Place.locked, DialAt, Settled]

theorem Acts.ended (ended : s.closeOnce = .ended) :
    s'.closeOnce = .ended := by
  cases acts <;> grind

theorem Acts.done (once : p.inOnce = true → s.closeOnce ≠ .idle)
    (done : s.closeOnce ≠ .idle → s.done = true) : s'.closeOnce ≠ .idle → s'.done = true := by
  cases acts <;> grind [Place.inOnce]

theorem Acts.conn (stored : s.conn = true) : s'.conn = true := by
  cases acts <;> grind

theorem Acts.closed (dial : p = .dialing → s.conn = false)
    (met : p = .dialed → s.closeOnce ≠ .ended)
    (closed : s.closeOnce = .ended → s.conn = true → s.tcp = .closed) :
    s'.closeOnce = .ended → s'.conn = true → s'.tcp = .closed := by
  cases acts <;> grind

theorem Acts.at (created : s.create = true → s.conn = true ∨ s.err = true) : At call p' s' := by
  cases acts <;> constructor <;> simp_all [Place.caller]

theorem Acts.keeps {other : Call} {place : Place} (h : At other place s) : At other place s' := by
  refine ⟨h.caller, fun here => acts.conn (h.stored here), fun result close here => ?_, h.running⟩
  exact acts.ended (h.returned result close here)

end

theorem locks_access : Locks (act call) access Place.locked := by
  constructor
  intro t s p c s' p' acted
  cases act_acts acted <;> grind [Place.locked]

theorem locks_once : Locks (act call) closer Place.inOnce := by
  constructor
  intro t s p c s' p' acted
  cases act_acts acted <;> grind [Place.inOnce, closer]

structure Inv (call : τ → Call) (w : Threads τ (Shared τ) Place) : Prop where
  once : Held closer Place.inOnce w
  dial : Guarded access Place.locked DialAt .start w
  places : ∀ t, At (call t) (w.pc t) w.shared
  done : w.shared.closeOnce ≠ .idle → w.shared.done = true
  closed : w.shared.closeOnce = .ended → w.shared.conn = true → w.shared.tcp = .closed

theorem Inv.init : Inv call (init : Threads τ (Shared τ) Place) := by
  constructor
  case dial => constructor <;> simp [SlowOpen.init, Held, Place.locked, DialAt, Settled]
  case places => exact fun t => by constructor <;> simp [SlowOpen.init, Place.caller]
  all_goals simp [SlowOpen.init, Held, Place.inOnce, closer]

variable {w w' : Threads τ (Shared τ) Place}

theorem Inv.created (inv : Inv call w) (create : w.shared.create = true) :
    (w.shared.conn = true ∧ w.shared.tcp ≠ .undialed) ∨ w.shared.err = true := by
  obtain settled | ⟨h, locked, dial⟩ := inv.dial.cases
  · grind [Settled, DialAt]
  · cases place : w.pc h <;> grind [Settled, DialAt, Place.locked]

/-- No connection is stored after the call of `Close` has ended its look for one. -/
def StoredInTime (w : Threads τ (Shared τ) Place) (a : τ × Choice) : Prop :=
  w.pc a.1 = .dialed → w.shared.closeOnce ≠ .ended

theorem Inv.step [DecidableEq τ] (inv : Inv call w) (met : StoredInTime w (t, c))
    (taken : step (act call) w (t, c) = some w') : Inv call w' := by
  obtain ⟨acted, others⟩ := step_cases taken
  have acts := act_acts acted
  constructor
  case once => exact locks_once.held inv.once taken
  case dial =>
    refine inv.dial.step locks_access taken ?_ (acts.dial inv.dial.free (inv.dial.under t)) ?_
    · intro unlocked p dial
      obtain ⟨conn, create, err, tcp⟩ := acts.frame unlocked
      apply dial.kept conn create err
      exact tcp.imp_right fun ⟨closed, found⟩ => ⟨closed, (inv.places t).stored (.inr found)⟩
    · intro locked back
      exact acts.settled (inv.dial.under t locked) locked back
  case places =>
    refine places_step inv.places others (acts.at fun create => ?_) fun _ => acts.keeps
    exact (inv.created create).imp_left And.left
  case done =>
    apply acts.done _ inv.done
    intro inside idle
    have running := (inv.once t).mp inside
    simp [closer, idle] at running
  case closed =>
    apply acts.closed _ met inv.closed
    intro dialing
    have dial := inv.dial.under t (by rw [dialing]; rfl)
    rw [dialing] at dial
    exact dial.1

def Returns (call : τ → Call) (t : τ) (s : Shared τ) (p : Place) : Prop :=
  Finishes (act call t) (· ≠ .data) (fun p => ∃ result, p = .returned result) s p

section
variable (isRead : call t = .read)
include isRead

theorem returns_reading (closed : s.tcp = .closed) : Returns call t s .reading := by
  apply Finishes.step
  · exact ⟨.ok, (s, .returned .conn), by simp, by simp [act, isRead, read, closed]⟩
  · intro c s' p' acted
    simp only [act, isRead, read, closed] at acted
    cases acted
    exact .done ⟨_, rfl⟩

variable (done : s.done = true) (created : s.create = true → s.conn = true ∨ s.err = true)
  (closed : s.conn = true → s.tcp = .closed)
include done created closed

theorem returns_selecting : Returns call t s .selecting := by
  apply Finishes.step
  · exact ⟨.done, (s, .returned .errClosed), by simp, by simp [act, isRead, read, done]⟩
  · intro c s' p' acted
    have acts := act_acts acted
    cases acts with
    | readCreated read create stored => exact returns_reading isRead (closed stored)
    | readEnds => exact .done ⟨_, rfl⟩
    | readPanics read create err unset => simp [create, err, unset] at created

theorem returns_start : Returns call t s .start := by
  apply Finishes.step
  · exact ⟨.ok, (s, if s.conn then .reading else .selecting), by simp,
      by simp only [act, isRead, read]⟩
  · intro c s' p' acted
    simp only [act, isRead, read] at acted
    have same := Option.some.inj acted
    cases same
    split
    · next stored => exact returns_reading isRead (closed stored)
    · exact returns_selecting isRead done created closed

end

/-- After `Close` has returned, with no `Write` under way: nothing is open and every `Read`
returns. -/
def Final (call : τ → Call) (w : Threads τ (Shared τ) Place) : Prop :=
  (∃ t result, call t = .close ∧ w.pc t = .returned result) →
  (∀ t, call t = .write → w.pc t = .start ∨ ∃ result, w.pc t = .returned result) →
  w.shared.tcp ≠ .open_ ∧ ∀ t, call t = .read → Returns call t w.shared (w.pc t)

theorem Inv.settled (inv : Inv call w)
    (written : ∀ t, call t = .write → w.pc t = .start ∨ ∃ result, w.pc t = .returned result) :
      Settled w.shared := by
  obtain settled | ⟨h, locked, _⟩ := inv.dial.cases
  · exact settled
  · have caller := (inv.places h).caller
    cases place : w.pc h <;> grind [Place.locked, Place.caller]

theorem Inv.final (inv : Inv call w) : Final call w := by
  rintro ⟨t, result, close, returned⟩ written
  have ended := (inv.places t).returned result close returned
  have done := inv.done (by rw [ended]; simp)
  have closed := inv.closed ended
  have created := fun create => (inv.created create).imp_left And.left
  constructor
  · have settled := inv.settled written
    grind [Settled]
  · intro u isRead
    obtain ⟨caller, stored, _, running⟩ := inv.places u
    generalize w.pc u = p at caller stored running
    cases p with
    | start => exact returns_start isRead done created closed
    | selecting => exact returns_selecting isRead done created closed
    | reading => exact returns_reading isRead (closed (stored (.inl rfl)))
    | returned result => exact .done ⟨result, rfl⟩
    | panicked => exact absurd rfl running
    | closing | found =>
      rw [isRead] at caller
      cases caller .close rfl
    | _ =>
      rw [isRead] at caller
      cases caller .write rfl

theorem final_of_run [DecidableEq τ] (run : Run (step (act call)) StoredInTime init w) :
    Final call w := by
  have inv : Inv call w := by
    apply run.invariant .init
    intro s a s' inv met taken
    exact inv.step met taken
  exact inv.final

end

end SlowOpen

end AiboosterEngine.LazyConn
