import AiboosterEngine.LazyConn.SlowOpen

/-!
# Connections dialed by the first write: `EarlyWebsocketConn`

`Read`, `Write` with `writeRequest`, and `Close` of `transport/v2raywebsocket/conn.go`, for
any number of calls. The first `Write` dials under the lock (`dialContext` of `client.go`: the
connection, then the handshake and what the server sent along), sends what is too long for the
early data over the new connection, and stores it. No step after the dial closes it on an
error. `WriteBuffer` does the same as `Write`. `Close` knows the stored pointer only.
-/

namespace AiboosterEngine.LazyConn.EarlyWebsocket
open GoSem Threads

inductive Call where
  | read | write (length : Nat) | close
  deriving DecidableEq, Repr

def Call.isWrite : Call → Bool
  | .write _ => true
  | _ => false

structure Shared (τ : Type) where
  conn : Bool := false
  create : Bool := false
  err : Bool := false
  access : Option τ := none
  websocket : ConnState := .undialed

open Shared

inductive Result where
  | requestErr | conn | written | nil
  deriving DecidableEq, Repr

inductive Place where
  | start
  | waiting | reading
  | locking | dialing | upgrading | lateData | storing | stored | writing (locked : Bool)
  | found
  | returned (result : Result)
  | panicked
  deriving DecidableEq, Repr

section
variable {τ : Type}

def read (s : Shared τ) (p : Place) (c : Choice) : Option (Shared τ × Place) :=
  match p with
  | .start => some (s, if s.conn then .reading else .waiting)
  | .waiting =>
    if s.create then some (s, if s.err then .returned .requestErr else if s.conn then .reading
      else .panicked)
    else none
  | .reading =>
    match s.websocket, c with
    | .open_, .data | .closed, _ => some (s, .returned .conn)
    | _, _ => none
  | _ => none

/-- `c.err = err`, `close(c.create)` and the unlock after a failed `writeRequest`. -/
def Shared.requestFailed (s : Shared τ) : Shared τ :=
  { s with err := true, create := true, access := none }

def write (maxEarlyData : Nat) (t : τ) (length : Nat) (s : Shared τ) (p : Place) (c : Choice) :
    Option (Shared τ × Place) :=
  match p with
  | .start => some (s, if s.conn then .writing false else .locking)
  | .locking =>
    if s.access.isSome then none
    else if s.err then some (s, .returned .requestErr)
    else if s.conn then some ({ s with access := some t }, .writing true)
    else some ({ s with access := some t }, .dialing)
  | .dialing =>
    match c with
    | .ok => some ({ s with websocket := .open_ }, .upgrading)
    | .fail => some (s.requestFailed, .returned .requestErr)
    | .done | .data => none
  | .upgrading =>
    match c with
    | .ok => some (s, if length > maxEarlyData then .lateData else .storing)
    | .fail => some (s.requestFailed, .returned .requestErr)
    | .done | .data => none
  | .lateData =>
    match c with
    | .ok => some (s, .storing)
    | .fail => some (s.requestFailed, .returned .requestErr)
    | .done | .data => none
  | .storing => some ({ s with conn := true }, .stored)
  | .stored => some ({ s with create := true, access := none }, .returned .written)
  | .writing locked => some (if locked then { s with access := none } else s, .returned .conn)
  | _ => none

def close (s : Shared τ) (p : Place) : Option (Shared τ × Place) :=
  match p with
  | .start => some (s, if s.conn then .found else .returned .nil)
  | .found => some ({ s with websocket := .closed }, .returned .nil)
  | _ => none

def act (maxEarlyData : Nat) (call : τ → Call) (t : τ) (s : Shared τ) (p : Place) (c : Choice) :
    Option (Shared τ × Place) :=
  match call t with
  | .read => read s p c
  | .write length => write maxEarlyData t length s p c
  | .close => close s p

def init : Threads τ (Shared τ) Place := { shared := {}, pc := fun _ => .start }

inductive Acts (call : Call) (t : τ) (s : Shared τ) (c : Choice) : Place → Shared τ → Place → Prop
  | loads (read : call = .read) (stored : s.conn = true) : Acts call t s c .start s .reading
  | waits (read : call = .read) (unset : s.conn = false) : Acts call t s c .start s .waiting
  | readCreated (read : call = .read) (created : s.create = true) (stored : s.conn = true) :
      Acts call t s c .waiting s .reading
  | readEnds {p : Place} {result : Result} (read : call = .read)
      (here : p = .waiting ∨ p = .reading) :
      Acts call t s c p s (.returned result)
  | readPanics (read : call = .read) (created : s.create = true) (err : s.err = false)
      (unset : s.conn = false) : Acts call t s c .waiting s .panicked
  | writes (write : call.isWrite = true) (stored : s.conn = true) :
      Acts call t s c .start s (.writing false)
  | locks (write : call.isWrite = true) : Acts call t s c .start s .locking
  | refused (write : call.isWrite = true) (err : s.err = true) :
      Acts call t s c .locking s (.returned .requestErr)
  | writesLocked (write : call.isWrite = true) (free : s.access = none) (stored : s.conn = true) :
      Acts call t s c .locking { s with access := some t } (.writing true)
  | dials (write : call.isWrite = true) (free : s.access = none) (err : s.err = false)
      (unset : s.conn = false) : Acts call t s c .locking { s with access := some t } .dialing
  | dialFails (write : call.isWrite = true) :
      Acts call t s c .dialing s.requestFailed (.returned .requestErr)
  | dialed (write : call.isWrite = true) :
      Acts call t s c .dialing { s with websocket := .open_ } .upgrading
  | upgraded {p : Place} (write : call.isWrite = true) (next : p = .lateData ∨ p = .storing) :
      Acts call t s c .upgrading s p
  | sendsLate (write : call.isWrite = true) : Acts call t s c .lateData s .storing
  | leaves {p : Place} (write : call.isWrite = true) (here : p = .upgrading ∨ p = .lateData)
      (fails : c = .fail) :
      Acts call t s c p s.requestFailed (.returned .requestErr)
  | stores (write : call.isWrite = true) : Acts call t s c .storing { s with conn := true } .stored
  | creates (write : call.isWrite = true) :
      Acts call t s c .stored { s with create := true, access := none } (.returned .written)
  | written (write : call.isWrite = true) : Acts call t s c (.writing false) s (.returned .conn)
  | writtenLocked (write : call.isWrite = true) :
      Acts call t s c (.writing true) { s with access := none } (.returned .conn)
  | looks (close : call = .close) (stored : s.conn = true) : Acts call t s c .start s .found
  | looksNone (close : call = .close) (unset : s.conn = false) :
      Acts call t s c .start s (.returned .nil)
  | closesConn (close : call = .close) :
      Acts call t s c .found { s with websocket := .closed } (.returned .nil)

variable {maxEarlyData : Nat} {call : τ → Call} {t : τ} {s s' : Shared τ}
  {p p' : Place} {c : Choice}

attribute [local grind intro] Acts
attribute [local grind] Call.isWrite

theorem act_acts (h : act maxEarlyData call t s p c = some (s', p')) :
    Acts (call t) t s c p s' p' := by
  cases p with
  | writing locked => cases locked <;> grind [act, read, write, close]
  | reading => cases websocket : s.websocket <;> cases c <;> grind [act, read, write, close]
  | start | locking | waiting => grind [act, read, write, close, Option.isSome_iff_ne_none]
  | _ => cases c <;> grind [act, read, write, close]

/-- The places under the lock. -/
def Place.locked : Place → Bool
  | .dialing | .upgrading | .lateData | .storing | .stored | .writing true => true
  | _ => false

/-- The places between the start and the end of each kind of call. -/
def Place.fits : Place → Call → Bool
  | .waiting, call | .reading, call => call = .read
  | .locking, call | .dialing, call | .upgrading, call | .lateData, call | .storing,
      call | .stored, call
  | .writing _, call => call.isWrite
  | .found, call => call = .close
  | .start, _ | .returned _, _ | .panicked, _ => true

def Settled (s : Shared τ) : Prop :=
  (s.create = false → s.conn = false ∧ s.err = false ∧ s.websocket = .undialed) ∧
  (s.create = true → (s.conn = true ∧ s.websocket ≠ .undialed) ∨
    (s.err = true ∧ s.conn = false ∧ s.websocket = .undialed))

/-- How far the dial has come when the call that has the lock is at the place. -/
def DialAt : Place → Shared τ → Prop
  | .dialing, s => s.conn = false ∧ s.create = false ∧ s.err = false ∧ s.websocket = .undialed
  | .upgrading, s | .lateData, s | .storing, s =>
    s.conn = false ∧ s.create = false ∧ s.err = false ∧ s.websocket = .open_
  | .stored, s => s.conn = true ∧ s.create = false ∧ s.err = false ∧ s.websocket ≠ .undialed
  | _, s => Settled s

/-- What a call relies on at its place. -/
structure At (call : Call) (p : Place) (s : Shared τ) : Prop where
  fits : p.fits call = true
  stored : p = .reading ∨ p = .found ∨ (∃ locked, p = .writing locked) → s.conn = true
  written : ∀ result, call.isWrite = true → p = .returned result → s.conn = true ∨ s.err = true
  closed : ∀ result, call = .close → p = .returned result → s.conn = true → s.websocket = .closed
  running : p ≠ .panicked

theorem DialAt.kept (h : DialAt p s) (conn : s'.conn = s.conn) (create : s'.create = s.create)
    (err : s'.err = s.err)
    (websocket : s'.websocket = s.websocket ∨ (s'.websocket = .closed ∧ s.conn = true)) :
      DialAt p s' := by
  obtain websocket | ⟨websocket, stored⟩ := websocket
  · cases p <;> simpa only [DialAt, Settled, conn, create, err, websocket] using h
  · cases p <;> simp_all [DialAt, Settled]

section
variable {call : Call} (acts : Acts call t s c p s' p')
include acts

/-- A call without the lock leaves the dial alone; it may close a connection that is stored. -/
theorem Acts.frame (unlocked : p.locked = false) :
    s'.conn = s.conn ∧ s'.create = s.create ∧ s'.err = s.err ∧
      (s'.websocket = s.websocket ∨ (s'.websocket = .closed ∧ p = .found)) := by
  cases acts <;> grind [Place.locked]

theorem Acts.dial (free : s.access = none → Settled s)
    (dial : p.locked = true → DialAt p s) (locked : p'.locked = true) : DialAt p' s' := by
  cases acts with
  | upgraded write next => rcases next with rfl | rfl <;> grind [Place.locked, DialAt]
  | _ => grind [Place.locked, DialAt, Settled]

theorem Acts.settled (dial : DialAt p s) (locked : p.locked = true)
    (sent : ¬ ((p = .upgrading ∨ p = .lateData) ∧ c = .fail)) (back : p'.locked = false) :
      Settled s' := by
  cases acts with
  | upgraded write next => rcases next with rfl | rfl <;> cases back
  | readEnds read here => rcases here with rfl | rfl <;> cases locked
  | _ => grind [Place.locked, DialAt, Settled, requestFailed]

theorem Acts.conn (stored : s.conn = true) : s'.conn = true := by
  cases acts <;> grind [requestFailed]

theorem Acts.err (err : s.err = true) : s'.err = true := by
  cases acts <;> grind [requestFailed]

/-- A connection that was closed stays so; a new one comes only where none is stored. -/
theorem Acts.closed (dial : p.locked = true → DialAt p s)
    (stores : p ≠ .storing) (closed : s.conn = true → s.websocket = .closed) :
    s'.conn = true → s'.websocket = .closed := by
  cases acts <;> grind [Place.locked, DialAt, requestFailed]

theorem Acts.at (created : s.create = true → s.conn = true ∨ s.err = true)
    (dial : p.locked = true → DialAt p s) (here : At call p s) : At call p' s' := by
  have stored := here.stored
  cases acts with
  | upgraded write next => rcases next with rfl | rfl <;> constructor <;> simp [Place.fits, write]
  | _ => cases call <;> constructor <;>
      simp_all [Place.fits, Place.locked, DialAt, requestFailed, Call.isWrite]

theorem Acts.keeps (dial : p.locked = true → DialAt p s) {other : Call} {place : Place}
    (early : p = .storing → other = .close → place = .start) (h : At other place s) :
      At other place s' := by
  refine ⟨h.fits, fun here => acts.conn (h.stored here), ?_, ?_, h.running⟩
  · intro result write here
    exact (h.written result write here).imp acts.conn acts.err
  · intro result close here
    apply acts.closed dial _ (h.closed result close here)
    intro storing
    rw [early storing close] at here
    cases here

end

theorem locks_access : Locks (act maxEarlyData call) access Place.locked := by
  constructor
  intro t s p c s' p' acted
  cases act_acts acted <;> grind [Place.locked, requestFailed]

structure Inv (call : τ → Call) (w : Threads τ (Shared τ) Place) : Prop where
  dial : Guarded access Place.locked DialAt .start w
  places : ∀ t, At (call t) (w.pc t) w.shared

theorem Inv.init : Inv call (init : Threads τ (Shared τ) Place) := by
  constructor
  case dial => constructor <;> simp [EarlyWebsocket.init, Held, Place.locked, DialAt, Settled]
  case places => exact fun t => by constructor <;> simp [EarlyWebsocket.init, Place.fits]

variable {w w' : Threads τ (Shared τ) Place}

theorem Inv.created (inv : Inv call w) (create : w.shared.create = true) :
    w.shared.conn = true ∨ w.shared.err = true := by
  obtain settled | ⟨h, locked, dial⟩ := inv.dial.cases
  · grind [Settled, DialAt]
  · cases place : w.pc h <;> grind [Settled, DialAt, Place.locked]

/-- The connection is stored before any call of `Close` has begun, and after the dial nothing fails:
neither the handshake nor the late data. -/
def StoredInTime (call : τ → Call) (w : Threads τ (Shared τ) Place) (a : τ × Choice) : Prop :=
  (w.pc a.1 = .storing → ∀ u, call u = .close → w.pc u = .start) ∧
    ¬ ((w.pc a.1 = .upgrading ∨ w.pc a.1 = .lateData) ∧ a.2 = .fail)

theorem Inv.step [DecidableEq τ] (inv : Inv call w) (met : StoredInTime call w (t, c))
    (taken : step (act maxEarlyData call) w (t, c) = some w') : Inv call w' := by
  obtain ⟨acted, others⟩ := step_cases taken
  have acts := act_acts acted
  constructor
  case dial =>
    refine inv.dial.step locks_access taken ?_ (acts.dial inv.dial.free (inv.dial.under t)) ?_
    · intro unlocked p dial
      obtain ⟨conn, create, err, websocket⟩ := acts.frame unlocked
      apply dial.kept conn create err
      exact websocket.imp_right fun ⟨closed, found⟩ =>
        ⟨closed, (inv.places t).stored (.inr (.inl found))⟩
    · intro locked back
      exact acts.settled (inv.dial.under t locked) locked met.2 back
  case places =>
    refine places_step inv.places others
      (acts.at inv.created (inv.dial.under t) (inv.places t)) fun u => ?_
    exact acts.keeps (inv.dial.under t) fun storing close => met.1 storing u close

def Returns (maxEarlyData : Nat) (call : τ → Call) (t : τ) (s : Shared τ) (p : Place) : Prop :=
  Finishes (act maxEarlyData call t) (· ≠ .data) (fun p => ∃ result, p = .returned result) s p

section
variable (isRead : call t = .read)
include isRead

theorem returns_reading (closed : s.websocket = .closed) :
    Returns maxEarlyData call t s .reading := by
  apply Finishes.step
  · exact ⟨.ok, (s, .returned .conn), by simp, by simp [act, isRead, read, closed]⟩
  · intro c s' p' acted
    simp only [act, isRead, read, closed] at acted
    cases acted
    exact .done ⟨_, rfl⟩

variable (create : s.create = true) (ended : s.conn = true ∨ s.err = true)
  (closed : s.conn = true → s.websocket = .closed)
include create ended closed

theorem returns_waiting : Returns maxEarlyData call t s .waiting := by
  apply Finishes.step
  · refine ⟨.ok, (s, if s.err then .returned .requestErr else if s.conn then .reading
      else .panicked), by simp, ?_⟩
    simp [act, isRead, read, create]
  · intro c s' p' acted
    have acts := act_acts acted
    cases acts with
    | readCreated read create stored => exact returns_reading isRead (closed stored)
    | readEnds => exact .done ⟨_, rfl⟩
    | readPanics read create err unset => simp [err, unset] at ended
    | leaves write here => rcases here with here | here <;> cases here

theorem returns_start : Returns maxEarlyData call t s .start := by
  apply Finishes.step
  · exact ⟨.ok, (s, if s.conn then .reading else .waiting), by simp,
      by simp only [act, isRead, read]⟩
  · intro c s' p' acted
    simp only [act, isRead, read] at acted
    have same := Option.some.inj acted
    cases same
    split
    · next stored => exact returns_reading isRead (closed stored)
    · exact returns_waiting isRead create ended closed

end

/-- After `Close` has returned, with no `Write` under way: nothing is open, and if there was a
`Write` every `Read` returns. -/
def Final (maxEarlyData : Nat) (call : τ → Call) (w : Threads τ (Shared τ) Place) : Prop :=
  (∃ t result, call t = .close ∧ w.pc t = .returned result) →
  (∀ t, (call t).isWrite = true → w.pc t = .start ∨ ∃ result, w.pc t = .returned result) →
  w.shared.websocket ≠ .open_ ∧
  ((∃ t result, (call t).isWrite = true ∧ w.pc t = .returned result) →
    ∀ t, call t = .read → Returns maxEarlyData call t w.shared (w.pc t))

theorem Inv.settled (inv : Inv call w)
    (written : ∀ t, (call t).isWrite = true → w.pc t = .start ∨ ∃ result,
      w.pc t = .returned result) :
    Settled w.shared := by
  obtain settled | ⟨h, locked, _⟩ := inv.dial.cases
  · exact settled
  · have fits := (inv.places h).fits
    cases place : w.pc h <;> grind [Place.locked, Place.fits]

theorem Inv.final (inv : Inv call w) : Final maxEarlyData call w := by
  rintro ⟨t, result, close, returned⟩ written
  have closed := (inv.places t).closed result close returned
  have settled := inv.settled written
  refine ⟨by grind [Settled], ?_⟩
  rintro ⟨v, ended, isWrite, wrote⟩ u isRead
  have ended := (inv.places v).written ended isWrite wrote
  have create : w.shared.create = true := by grind [Settled]
  obtain ⟨fits, stored, _, _, running⟩ := inv.places u
  rw [isRead] at fits
  generalize w.pc u = p at fits stored running
  cases p with
  | start => exact returns_start isRead create ended closed
  | waiting => exact returns_waiting isRead create ended closed
  | reading => exact returns_reading isRead (closed (stored (.inl rfl)))
  | returned result => exact .done ⟨result, rfl⟩
  | panicked => exact absurd rfl running
  | _ => cases fits

theorem final_of_run [DecidableEq τ]
    (run : Run (step (act maxEarlyData call)) (StoredInTime call) init w) :
    Final maxEarlyData call w := by
  have inv : Inv call w := by
    apply run.invariant .init
    intro s a s' inv met taken
    exact inv.step met taken
  exact inv.final

end

/-- What is left after `Close`, for each of the two kinds of connection. -/
theorem close_final {τ : Type} [DecidableEq τ] :
    (∀ (call : τ → SlowOpen.Call) (w : Threads τ (SlowOpen.Shared τ) SlowOpen.Place),
      Run (step (SlowOpen.act call)) SlowOpen.StoredInTime SlowOpen.init w →
        SlowOpen.Final call w) ∧
    (∀ (maxEarlyData : Nat) (call : τ → Call) (w : Threads τ (Shared τ) Place),
      Run (step (act maxEarlyData call)) (StoredInTime call) init w → Final maxEarlyData call w) :=
  ⟨fun _ _ => SlowOpen.final_of_run, fun _ _ _ => final_of_run⟩

def slowCalls : Fin 3 → SlowOpen.Call
  | 0 => .write
  | 1 => .close
  | 2 => .read

def earlyCalls : Fin 3 → Call
  | 0 => .write 1
  | 1 => .close
  | 2 => .read

instance {τ : Type} (w : Threads τ (SlowOpen.Shared τ) SlowOpen.Place) [DecidableEq τ]
    (a : τ × Choice) :
    Decidable (SlowOpen.StoredInTime w a) :=
  inferInstanceAs (Decidable (_ → _))

instance (w : Threads (Fin 3) (Shared (Fin 3)) Place) (a : Fin 3 × Choice) :
    Decidable (StoredInTime earlyCalls w a) :=
  inferInstanceAs (Decidable ((_ → _) ∧ ¬ ((_ ∨ _) ∧ _)))

/-- The write has returned before the connection is closed. -/
theorem close_final_after_write :
    (∃ w, Run (step (SlowOpen.act slowCalls)) SlowOpen.StoredInTime SlowOpen.init w ∧
      w.shared.tcp = .closed ∧ w.pc 1 = .returned .nil ∧ SlowOpen.Final slowCalls w) ∧
    (∃ w, Run (step (act 2048 earlyCalls)) (StoredInTime earlyCalls) init w ∧
      w.shared.websocket = .closed ∧ w.pc 1 = .returned .nil ∧ Final 2048 earlyCalls w) := by
  constructor
  · have run : ∃ w, exec (step (SlowOpen.act slowCalls)) SlowOpen.init
        [(0, .ok), (0, .ok), (0, .ok), (0, .ok), (0, .ok), (1, .ok), (1, .ok), (1, .ok)] = some w ∧
        w.shared.tcp = .closed ∧ w.pc 1 = .returned .nil := ⟨_, rfl, rfl, rfl⟩
    obtain ⟨w, ran, closed, returned⟩ := run
    have met : Run (step (SlowOpen.act slowCalls)) SlowOpen.StoredInTime SlowOpen.init w :=
      exec_run ran (by decide)
    exact ⟨w, met, closed, returned, close_final.1 slowCalls w met⟩
  · have run : ∃ w, exec (step (act 2048 earlyCalls)) init
        [(0, .ok), (0, .ok), (0, .ok), (0, .ok), (0, .ok), (0, .ok), (1, .ok), (1, .ok)] = some w ∧
        w.shared.websocket = .closed ∧ w.pc 1 = .returned .nil := ⟨_, rfl, rfl, rfl⟩
    obtain ⟨w, ran, closed, returned⟩ := run
    have met : Run (step (act 2048 earlyCalls)) (StoredInTime earlyCalls) init w :=
      exec_run ran (by decide)
    exact ⟨w, met, closed, returned, close_final.2 2048 earlyCalls w met⟩

/-- A `Read` and a `Close`, without a `Write`. -/
def unwritten : Fin 2 → Call
  | 0 => .read
  | 1 => .close

/-- `Close` during the dial leaves the connection open, in both kinds; so does a handshake that
fails, and late data that is lost; and a `Read` of an `EarlyWebsocketConn` that was never written to
waits for ever. -/
theorem close_not_final :
    (∃ w, Reachable (step (SlowOpen.act slowCalls)) SlowOpen.init w ∧
      w.pc 0 = .returned .written ∧ w.pc 1 = .returned .nil ∧ w.shared.tcp = .open_) ∧
    (∃ w, Reachable (step (act 2048 earlyCalls)) init w ∧
      w.pc 0 = .returned .written ∧ w.pc 1 = .returned .nil ∧ w.shared.websocket = .open_) ∧
    (∃ w, Reachable (step (act 2048 earlyCalls)) init w ∧
      w.pc 0 = .returned .requestErr ∧ w.pc 1 = .returned .nil ∧ w.shared.websocket = .open_) ∧
    (∃ w, Reachable (step (act 0 earlyCalls)) init w ∧
      w.pc 0 = .returned .requestErr ∧ w.pc 1 = .returned .nil ∧ w.shared.websocket = .open_) ∧
    (∃ w, Reachable (step (act 2048 unwritten)) init w ∧
      w.pc 0 = .waiting ∧ w.pc 1 = .returned .nil ∧
      ∀ c, act 2048 unwritten 0 w.shared (w.pc 0) c = none) := by
  refine ⟨?during, ?before, ?refused, ?lost, ?waits⟩
  case during =>
    apply exec_reaches [(0, .ok), (0, .ok), (1, .ok), (1, .ok), (0, .ok), (0, .ok), (0, .ok)]
    exact ⟨_, rfl, rfl, rfl, rfl⟩
  case before =>
    apply exec_reaches [(1, .ok), (0, .ok), (0, .ok), (0, .ok), (0, .ok), (0, .ok), (0, .ok)]
    exact ⟨_, rfl, rfl, rfl, rfl⟩
  case refused =>
    apply exec_reaches [(0, .ok), (0, .ok), (0, .ok), (0, .fail), (1, .ok)]
    exact ⟨_, rfl, rfl, rfl, rfl⟩
  case lost =>
    apply exec_reaches [(0, .ok), (0, .ok), (0, .ok), (0, .ok), (0, .fail), (1, .ok)]
    exact ⟨_, rfl, rfl, rfl, rfl⟩
  case waits =>
    apply exec_reaches [(0, .ok), (1, .ok)]
    exact ⟨_, rfl, rfl, rfl, fun c => rfl⟩

end AiboosterEngine.LazyConn.EarlyWebsocket
