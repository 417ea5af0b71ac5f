import AiboosterEngine.GoSem.Threads

/-!
# DNS over TLS

`BaseTransport` of `dns/transport/base.go` and the calls of `TLSTransport` in
`dns/transport/tls.go`. A region of a lock is one step, but the last region of an
exchange, which reads the state of the base (another lock) before it pools its
connection, is two. Dialing, writing and reading are steps of their own and may fail.
-/

namespace AiboosterEngine.Dns.Tls
open GoSem Threads

inductive TransportState where
  | new | started | closing | closed
  deriving DecidableEq, Repr

/-- `state >= StateClosing`. -/
def TransportState.ended : TransportState → Bool
  | new | started => false
  | closing | closed => true

/-- `queriesComplete` says that the channel is not nil, `completed` that it has been closed. -/
structure BaseTransport where
  state : TransportState := .new
  inFlight : Nat := 0
  queriesComplete : Bool := false
  completed : Bool := false
  deriving DecidableEq, Repr

open BaseTransport

namespace BaseTransport

variable (b : BaseTransport)

/-- `none` is `ErrTransportClosed`. -/
def setStarted : Option BaseTransport :=
  match b.state with
  | .new => some { b with state := .started }
  | .started => some b
  | .closing | .closed => none

def beginQuery : Option BaseTransport :=
  if b.state = .started then some { b with inFlight := b.inFlight + 1 } else none

def endQuery : BaseTransport :=
  let b := { b with inFlight := b.inFlight - 1 }
  if b.inFlight = 0 ∧ b.queriesComplete = true
    then { b with queriesComplete := false, completed := true } else b

/-- The first region of `Shutdown`, and whether it goes on to wait for the queries. -/
def shutdown : BaseTransport × Bool :=
  if b.state.ended then (b, false)
  else if b.state = .new ∨ b.inFlight = 0 then ({ b with state := .closed }, false)
  else ({ b with state := .closing, queriesComplete := true }, true)

@[simp] theorem endQuery_state : b.endQuery.state = b.state := by
  unfold endQuery
  dsimp only
  split <;> rfl

theorem setStarted_ended {b b' : BaseTransport} (h : b.setStarted = some b')
    (ended : b.state.ended = true) :
    b'.state.ended = true := by
  unfold setStarted at h
  cases state : b.state <;> simp_all [TransportState.ended]

theorem beginQuery_state {b b' : BaseTransport} (h : b.beginQuery = some b') :
    b'.state = b.state := by
  obtain ⟨_, same⟩ := Option.ite_none_right_eq_some.mp h
  cases same
  rfl

theorem shutdown_ended : b.shutdown.1.state.ended = true := by
  unfold shutdown
  by_cases ended : b.state.ended = true
  · rw [if_pos ended]
    exact ended
  · rw [if_neg ended]
    split <;> rfl

end BaseTransport

inductive ConnState where
  | undialed | open_ | closed
  deriving DecidableEq, Repr

/-- `access` is the holder of the lock while it is held for longer than a step. -/
structure Shared (τ : Type) where
  base : BaseTransport := {}
  access : Option τ := none
  connections : List Nat := []
  /-- How many connections have been dialed. -/
  dials : Nat := 0
  conns : Nat → ConnState := fun _ => .undialed

inductive Call where
  | start | exchange | reset | close
  deriving DecidableEq, Repr

inductive Result where
  | done | transportClosed | response | dialFailed | writeFailed | readFailed | timedOut
  deriving DecidableEq, Repr

/-- `pooled` says that the connection comes from the pool, so that another one is dialed when it
fails. -/
inductive Place where
  | start
  | begun | dialing
  | writing (k : Nat) (pooled : Bool) | reading (k : Nat) (pooled : Bool)
  | putting (k : Nat) | pushing (k : Nat)
  | ending (result : Result)
  | emptied | waiting
  | returned (result : Result)
  deriving DecidableEq, Repr

/-- How a dial, a write, a read or the wait of `Shutdown` ends. -/
inductive Choice where
  | ok | fail
  deriving DecidableEq, Repr

section
variable {τ : Type}

namespace Shared

def setConn (s : Shared τ) (k : Nat) (state : ConnState) : Shared τ :=
  { s with conns := fun j => if j = k then state else s.conns j }

/-- The loop over the pool in `Close` and `Reset`, and `connections.Init()`. -/
def closePool (s : Shared τ) : Shared τ :=
  { s with connections := [], conns := fun j => if j ∈ s.connections then .closed else s.conns j }

end Shared

/-- Where an exchange goes on when it has closed a connection that failed. -/
def afterFailure (pooled : Bool) (result : Result) : Place :=
  if pooled then .dialing else .ending result

def act (call : τ → Call) (t : τ) (s : Shared τ) (p : Place) (c : Choice) :
    Option (Shared τ × Place) :=
  match p with
  | .start =>
    match call t with
    | .start =>
      match s.base.setStarted with
      | some base => some ({ s with base := base }, .returned .done)
      | none => some (s, .returned .transportClosed)
    | .exchange =>
      match s.base.beginQuery with
      | some base => some ({ s with base := base }, .begun)
      | none => some (s, .returned .transportClosed)
    | .reset => if s.access = none then some (s.closePool, .returned .done) else none
    | .close => if s.access = none then some (s.closePool, .emptied) else none
  | .begun =>
    if s.access = none then
      match s.connections with
      | [] => some (s, .dialing)
      | k :: rest => some ({ s with connections := rest }, .writing k true)
    else none
  | .dialing =>
    match c with
    | .ok => some ({ s.setConn s.dials .open_ with dials := s.dials + 1 }, .writing s.dials false)
    | .fail => some (s, .ending .dialFailed)
  | .writing k pooled =>
    match c with
    | .ok => some (s, .reading k pooled)
    | .fail => some (s.setConn k .closed, afterFailure pooled .writeFailed)
  | .reading k pooled =>
    match c with
    | .ok => some (s, .putting k)
    | .fail => some (s.setConn k .closed, afterFailure pooled .readFailed)
  | .putting k =>
    if s.access = none then
      if s.base.state.ended then some (s.setConn k .closed, .ending .response)
      else some ({ s with access := some t }, .pushing k)
    else none
  | .pushing k =>
      some ({ s with access := none, connections := s.connections ++ [k] }, .ending .response)
  | .ending result => some ({ s with base := s.base.endQuery }, .returned result)
  | .emptied =>
    some ({ s with base := s.base.shutdown.1 },
      if s.base.shutdown.2 then .waiting else .returned .done)
  | .waiting =>
    match c with
    | .ok => if s.base.completed then some ({ s with base := { s.base with state := .closed } },
        .returned .done) else none
    | .fail => some ({ s with base := { s.base with state := .closed } }, .returned .timedOut)
  | .returned _ => none

def init : Threads τ (Shared τ) Place := { shared := {}, pc := fun _ => .start }

inductive Acts (t : τ) (kind : Call) (s : Shared τ) : Place → Shared τ → Place → Prop
  | starts {base : BaseTransport} (start : kind = .start)
      (started : s.base.setStarted = some base) :
      Acts t kind s .start { s with base := base } (.returned .done)
  | refused (call : kind = .start ∨ kind = .exchange) :
      Acts t kind s .start s (.returned .transportClosed)
  | begins {base : BaseTransport} (exchange : kind = .exchange)
      (begun : s.base.beginQuery = some base) :
      Acts t kind s .start { s with base := base } .begun
  | resets (reset : kind = .reset) : Acts t kind s .start s.closePool (.returned .done)
  | empties (close : kind = .close) (free : s.access = none) :
      Acts t kind s .start s.closePool .emptied
  | finds {k : Nat} {rest : List Nat} (pool : s.connections = k :: rest) :
      Acts t kind s .begun { s with connections := rest } (.writing k true)
  | misses : Acts t kind s .begun s .dialing
  | dials : Acts t kind s .dialing { s.setConn s.dials .open_ with dials := s.dials + 1 }
      (.writing s.dials false)
  | dialFails : Acts t kind s .dialing s (.ending .dialFailed)
  | writes {k : Nat} {pooled : Bool} : Acts t kind s (.writing k pooled) s (.reading k pooled)
  | writeFails {k : Nat} {pooled : Bool} :
      Acts t kind s (.writing k pooled) (s.setConn k .closed) (afterFailure pooled .writeFailed)
  | reads {k : Nat} {pooled : Bool} : Acts t kind s (.reading k pooled) s (.putting k)
  | readFails {k : Nat} {pooled : Bool} :
      Acts t kind s (.reading k pooled) (s.setConn k .closed) (afterFailure pooled .readFailed)
  | tooLate {k : Nat} : Acts t kind s (.putting k) (s.setConn k .closed) (.ending .response)
  | takes {k : Nat} (free : s.access = none) (running : s.base.state.ended = false) :
      Acts t kind s (.putting k) { s with access := some t } (.pushing k)
  | pushes {k : Nat} :
      Acts t kind s (.pushing k) { s with access := none, connections := s.connections ++ [k] }
        (.ending .response)
  | ends {result : Result} : Acts t kind s (.ending result) { s with base := s.base.endQuery }
      (.returned result)
  | shuts {p : Place} (next : p = .waiting ∨ p = .returned .done) :
      Acts t kind s .emptied { s with base := s.base.shutdown.1 } p
  | closes {result : Result} :
      Acts t kind s .waiting { s with base := { s.base with state := .closed } } (.returned result)

variable {call : τ → Call} {t : τ} {s s' : Shared τ} {p p' : Place} {c : Choice}

attribute [local grind intro] Acts
attribute [local grind] Shared.closePool Shared.setConn afterFailure

theorem act_acts (h : act call t s p c = some (s', p')) : Acts t (call t) s p s' p' := by
  cases p with
  | start => grind [act]
  | _ => cases c <;> grind [act]

/-- The connection an exchange has in its hands. -/
def Place.conn : Place → Option Nat
  | .writing k _ | .reading k _ | .putting k | .pushing k => some k
  | _ => none

/-- The lock is held for longer than a step. -/
def Place.locked : Place → Bool
  | .pushing _ => true
  | _ => false

/-- Where a call of `Close` has been when it has gone on. -/
def Place.shut : Place → Bool
  | .waiting | .returned _ => true
  | _ => false

variable {kind : Call}

/-- An open connection that the call has not in its hands was open before, and it is pooled if it
was pooled or the call had it. -/
theorem Acts.open_cases (acts : Acts t kind s p s' p') {k : Nat} (isOpen : s'.conns k = .open_)
    (left : p'.conn ≠ some k) :
    s.conns k = .open_ ∧ (k ∈ s.connections → k ∈ s'.connections) ∧
      (p.conn = some k → k ∈ s'.connections) := by
  cases acts <;> grind [Place.conn]

/-- Only an exchange goes beyond its first step with a connection, and only `Close` shuts down. -/
def Place.of : Call → Place → Bool
  | .exchange, .emptied | .exchange, .waiting => false
  | .exchange, _ => true
  | .close, .start | .close, .emptied | .close, .waiting | .close, .returned _ => true
  | .close, _ => false
  | .start, .start | .start, .returned _ | .reset, .start | .reset, .returned _ => true
  | .start, _ | .reset, _ => false

theorem Acts.of (acts : Acts t kind s p s' p') (was : p.of kind = true) : p'.of kind = true := by
  cases acts <;> cases kind <;> grind [Place.of]

theorem Acts.ended (acts : Acts t kind s p s' p') (ended : s.base.state.ended = true) :
    s'.base.state.ended = true := by
  cases acts <;> grind [setStarted_ended, beginQuery_state, endQuery_state,
    shutdown_ended, TransportState.ended]

/-- A call of `Close` that is past its second region has ended the transport. -/
theorem Acts.shut (acts : Acts t kind s p s' p') (close : kind = .close) (was : p.of kind = true)
    (shut : p'.shut = true) : s'.base.state.ended = true := by
  subst close
  cases acts <;> grind [Place.of, Place.shut, shutdown_ended, TransportState.ended]

theorem locks [DecidableEq τ] : Locks (act call) Shared.access Place.locked where
  act t s p c s' p' h := by
    cases act_acts h <;> grind [Place.locked]

structure Inv (call : τ → Call) (w : Threads τ (Shared τ) Place) : Prop where
  held : ∀ k, w.shared.conns k = .open_ → k ∈ w.shared.connections ∨ ∃ t, (w.pc t).conn = some k
  of : ∀ t, (w.pc t).of (call t) = true
  ended : ∀ t, call t = .close → (w.pc t).shut = true → w.shared.base.state.ended = true
  locked : Held Shared.access Place.locked w

variable {w w' : Threads τ (Shared τ) Place}

theorem Inv.init (call : τ → Call) : Inv call init := by
  constructor
  case of =>
    intro t
    rw [Tls.init]
    cases call t <;> rfl
  all_goals simp [Tls.init, Place.shut, Place.locked, Held]

theorem Inv.step [DecidableEq τ] (inv : Inv call w) (taken : step (act call) w (t, c) = some w') :
    Inv call w' := by
  obtain ⟨acted, others⟩ := step_cases taken
  have acts := act_acts acted
  constructor
  case locked => exact locks.held inv.locked taken
  case held =>
    intro k isOpen
    by_cases mine : (w'.pc t).conn = some k
    · exact .inr ⟨t, mine⟩
    · obtain ⟨before, pooled, given⟩ := acts.open_cases isOpen mine
      obtain here | ⟨u, here⟩ := inv.held k before
      · exact .inl (pooled here)
      · grind +splitImp
  case of =>
    intro u
    by_cases same : u = t
    · rw [same]
      exact acts.of (inv.of t)
    · rw [others u same]
      exact inv.of u
  case ended =>
    intro u close shut
    by_cases same : u = t
    · rw [same] at close shut
      exact acts.shut close (inv.of t) shut
    · rw [others u same] at shut
      exact acts.ended (inv.ended u close shut)

/-- The last region of an exchange is next. -/
def Place.puts : Place → Bool
  | .putting _ => true
  | _ => false

/-- No exchange finds the transport running in its last region while a `Close` has emptied the
pool and not yet ended the transport. -/
def PoolsInTime (w : Threads τ (Shared τ) Place) (a : τ × Choice) : Prop :=
  (w.pc a.1).puts = true → w.shared.base.state.ended = false → ∀ c, w.pc c ≠ .emptied

instance {n : Nat} (w : Threads (Fin n) (Shared (Fin n)) Place) (a : Fin n × Choice) :
    Decidable (PoolsInTime w a) :=
  inferInstanceAs (Decidable (_ → _ → ∀ c, w.pc c ≠ .emptied))

/-- Nothing is in the pool, and nobody is about to put something there. -/
def Emptied (call : τ → Call) (w : Threads τ (Shared τ) Place) : Prop :=
  ∀ c, call c = .close → w.pc c ≠ .start → w.shared.connections = [] ∧ w.shared.access = none

theorem Inv.close_cases (inv : Inv call w) {u : τ} (close : call u = .close)
    (begun : w.pc u ≠ .start) :
    w.pc u = .emptied ∨ w.shared.base.state.ended = true := by
  have place := inv.of u
  have ended := inv.ended u close
  rw [close] at place
  cases here : w.pc u <;> grind [Place.of, Place.shut]

theorem Emptied.step [DecidableEq τ] (emptied : Emptied call w) (inv : Inv call w)
    (inTime : PoolsInTime w (t, c))
    (taken : step (act call) w (t, c) = some w') : Emptied call w' := by
  obtain ⟨acted, others⟩ := step_cases taken
  have acts := act_acts acted
  intro u close begun
  by_cases first : w.pc u = .start
  · -- The call has just emptied the pool.
    have mine : u = t := Classical.byContradiction fun other => begun ((others u other).trans first)
    subst mine
    rw [first, close] at acts
    generalize w'.shared = s', w'.pc u = p' at acts
    cases acts <;> grind
  · obtain ⟨empty, free⟩ := emptied u close first
    have place := inv.close_cases close first
    have locked := inv.locked t
    generalize here : w.pc t = p, w'.shared = s', w'.pc t = p' at acts locked
    cases acts with
    | takes _ running =>
      obtain between | ended := place
      · exact absurd between (inTime (by rw [here]; rfl) running u)
      · rw [ended] at running
        cases running
    | pushes =>
      rw [free] at locked
      cases locked.mp rfl
    | _ => grind

/-- Once a `Close` and every exchange has returned nothing is open. -/
theorem closed_of_run [DecidableEq τ] (call : τ → Call)
    (run : Run (step (act call)) PoolsInTime init w)
    {t : τ} {result : Result} (close : call t = .close) (returned : w.pc t = .returned result)
    (exchanges : ∀ u, call u = .exchange → w.pc u = .start ∨ ∃ result, w.pc u = .returned result)
    (k : Nat) :
    w.shared.conns k ≠ .open_ := by
  have both : Inv call w ∧ Emptied call w := by
    apply run.invariant ⟨.init call, by simp [Emptied, Tls.init]⟩
    rintro s a s' ⟨inv, emptied⟩ inTime taken
    exact ⟨inv.step taken, emptied.step inv inTime taken⟩
  obtain ⟨inv, emptied⟩ := both
  intro isOpen
  obtain pooled | ⟨u, holds⟩ := inv.held k isOpen
  · rw [(emptied t close (by rw [returned]; nofun)).1] at pooled
    cases pooled
  · have place := inv.of u
    cases kind : call u with
    | exchange =>
      obtain here | ⟨_, here⟩ := exchanges u kind <;> rw [here] at holds <;> cases holds
    | start | reset | close =>
      rw [kind] at place
      cases here : w.pc u <;> rw [here] at holds place <;> cases holds <;> cases place

/-- The connection has been dialed and is open. -/
def Shared.Live (s : Shared τ) (k : Nat) : Prop := s.conns k = .open_ ∧ k < s.dials

structure Exclusive (w : Threads τ (Shared τ) Place) : Prop where
  nodup : w.shared.connections.Nodup
  pooled : ∀ k ∈ w.shared.connections, w.shared.Live k
  held : ∀ t k, (w.pc t).conn = some k → w.shared.Live k ∧ k ∉ w.shared.connections
  single : ∀ t u k, (w.pc t).conn = some k → (w.pc u).conn = some k → t = u

/-- What another call holds. -/
theorem Acts.other (acts : Acts t kind s p s' p') {k : Nat} (live : s.Live k)
    (out : k ∉ s.connections)
    (other : p.conn ≠ some k) : (s'.Live k ∧ k ∉ s'.connections) ∧ p'.conn ≠ some k := by
  unfold Shared.Live at *
  cases acts <;> grind [Place.conn]

theorem Acts.nodup (acts : Acts t kind s p s' p') (nodup : s.connections.Nodup)
    (own : ∀ k, p.conn = some k → k ∉ s.connections) : s'.connections.Nodup := by
  cases acts <;> grind [Place.conn]

/-- The pool, and what the call itself holds. -/
theorem Acts.live (acts : Acts t kind s p s' p') (nodup : s.connections.Nodup) (k : Nat)
    (pooled : ∀ k ∈ s.connections, s.Live k)
    (own : p.conn = some k → s.Live k ∧ k ∉ s.connections) :
    (k ∈ s'.connections → s'.Live k) ∧ (p'.conn = some k → s'.Live k ∧ k ∉ s'.connections) := by
  unfold Shared.Live at *
  cases acts <;> grind [Place.conn]

theorem Exclusive.step [DecidableEq τ] (inv : Exclusive w)
    (taken : step (act call) w (t, c) = some w') :
    Exclusive w' := by
  obtain ⟨acted, others⟩ := step_cases taken
  have acts := act_acts acted
  have live (k : Nat) := acts.live inv.nodup k inv.pooled (inv.held t k)
  have other (u : τ) (k : Nat) (not : u ≠ t) (here : (w.pc u).conn = some k) :=
    acts.other (inv.held u k here).1 (inv.held u k here).2 fun mine =>
      not (inv.single u t k here mine)
  refine ⟨acts.nodup inv.nodup fun k mine => (inv.held t k mine).2, fun k => (live k).1,
    fun u k here => ?_, fun u v k here there => ?_⟩
  · rcases place_cases (P := (·.conn = some k)) others here with ⟨_, mine⟩ | ⟨not, here⟩
    · exact (live k).2 mine
    · exact (other u k not here).1
  · rcases place_cases (P := (·.conn = some k)) others here with ⟨rfl, mine⟩ | ⟨not, here⟩
    · rcases place_cases (P := (·.conn = some k)) others there with ⟨rfl, _⟩ | ⟨not, there⟩
      · rfl
      · exact absurd mine (other v k not there).2
    · rcases place_cases (P := (·.conn = some k)) others there with ⟨rfl, mine⟩ | ⟨_, there⟩
      · exact absurd mine (other u k not here).2
      · exact inv.single u v k here there

/-- In every run a connection is used by one exchange at most, is not in the pool while it is used,
and is open in both places. -/
theorem connections_exclusive [DecidableEq τ] (call : τ → Call)
    (run : Reachable (step (act call)) init w) :
    Exclusive w := by
  refine run.invariant ⟨.nil, by simp [init], by simp [init, Place.conn],
    by simp [init, Place.conn]⟩ ?_
  intro _ _ _ inv _ taken
  exact inv.step taken

end

def oneExchange : Fin 3 → Call
  | 0 => .start
  | 1 => .exchange
  | 2 => .close

def closedWhileReading : List (Fin 3 × Choice) :=
  [(0, .ok), (1, .ok), (1, .ok), (1, .ok), (1, .ok), (2, .ok), (2, .ok), (1, .ok), (1, .ok),
    (1, .ok), (2, .ok)]

theorem closedWhileReading_closed :
    ∃ w, exec (step (act oneExchange)) init closedWhileReading = some w ∧
      w.pc 2 = .returned .done ∧ w.pc 1 = .returned .response ∧ ∀ k, w.shared.conns k ≠ .open_ := by
  have inTime : AllMet (step (act oneExchange)) PoolsInTime init closedWhileReading := by decide
  have run : ∃ w, exec (step (act oneExchange)) init closedWhileReading = some w ∧
      w.pc 2 = .returned .done ∧ w.pc 1 = .returned .response := ⟨_, rfl, rfl, rfl⟩
  obtain ⟨w, ran, closed, answered⟩ := run
  refine ⟨w, ran, closed, answered,
    closed_of_run oneExchange (exec_run ran inTime) (t := 2) rfl closed
    fun u kind => ?_⟩
  match u with
  | 0 => cases kind
  | 1 => exact .inr ⟨_, answered⟩
  | 2 => cases kind

theorem closedWhileReading_exclusive :
    ∃ w, exec (step (act oneExchange)) init closedWhileReading = some w ∧
    w.shared.dials = 1 ∧ Exclusive w := by
  have run : exec (step (act oneExchange)) init closedWhileReading = some _ := rfl
  exact ⟨_, run, rfl, connections_exclusive oneExchange (exec_reachable run)⟩

/-- The exchange pools its connection after `Close` has emptied the pool and before it ends the
transport. -/
def pooledBehindClose : List (Fin 3 × Choice) :=
  [(0, .ok), (1, .ok), (1, .ok), (1, .ok), (1, .ok), (1, .ok), (2, .ok), (1, .ok), (1, .ok),
    (1, .ok), (2, .ok)]

theorem pooledBehindClose_open :
    ∃ w, exec (step (act oneExchange)) init pooledBehindClose = some w ∧
      w.pc 2 = .returned .done ∧ w.pc 1 = .returned .response ∧ w.shared.conns 0 = .open_ :=
  ⟨_, rfl, rfl, rfl, rfl⟩

end AiboosterEngine.Dns.Tls
