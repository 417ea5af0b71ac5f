import AiboosterEngine.GoSem.Steps
import Mathlib.Data.List.AList

/-!
# Connection events

`SubscribeConnections`, `buildInitialConnectionState`, `applyConnectionEvent` and
`buildTrafficUpdates` of `daemon/started_service.go`, with `Join` and `Leave` of
`trafficontrol/manager.go`. A call of `Join` or `Leave` changes the manager and emits its
event in steps of its own, so that the subscriber may come in between; a tick is one step. The
times and the descriptions of the connections in the events are left out.
-/

namespace AiboosterEngine.Daemon.ConnectionEvents
open GoSem List

structure Snapshot where
  uplink : Int64
  downlink : Int64
  hadTraffic : Bool := false
  deriving DecidableEq

/-- The events of the manager. -/
inductive EventType where
  | new | closed
  deriving DecidableEq, Repr

/-- The events the client is sent. -/
inductive Kind where
  | new | update (uplinkDelta downlinkDelta : Int64) | closed
  deriving DecidableEq

section
variable {ι : Type} [DecidableEq ι]

abbrev Snapshots (ι : Type) := AList fun _ : ι => Snapshot

/-- `snapshots[id] = snapshot`, or `delete(snapshots, id)`. -/
def setSnapshot (snapshots : Snapshots ι) (id : ι) : Option Snapshot → Snapshots ι
  | some snapshot => snapshots.insert id snapshot
  | none => snapshots.erase id

/-- A pass over connections that reads and writes the snapshot of each and may send an event of
it. -/
def forEach (body : ι → Option Snapshot → Option Snapshot × Option Kind) :
    List ι → Snapshots ι → Snapshots ι × List (ι × Kind)
  | [], snapshots => (snapshots, [])
  | id :: ids, snapshots =>
    let result := body id (snapshots.lookup id)
    let rest := forEach body ids (setSnapshot snapshots id result.1)
    (rest.1, (result.2.map fun kind => (id, kind)).toList ++ rest.2)

variable (current : Int64 × Int64)

/-- The snapshot of a connection as it is now. -/
def snapshotOf : Snapshot := { uplink := current.1, downlink := current.2 }

/-- The first loop of `buildInitialConnectionState`, over `manager.Connections()`. -/
def initialConnections (traffic : ι → Int64 × Int64) :
    List ι → Snapshots ι → Snapshots ι × List (ι × Kind) :=
  forEach fun id _ => (some (snapshotOf (traffic id)), some .new)

def initialClosed : List ι → Snapshots ι → Snapshots ι × List (ι × Kind) :=
  forEach fun _ snapshot => (snapshot, some .new)

/-- The snapshot after an event of the queue, and what is sent. -/
def applyConnectionEvent : EventType → Option Snapshot → Option Snapshot × Option Kind
  | .new, some snapshot => (some snapshot, none)
  | .new, none => (some (snapshotOf current), some .new)
  | .closed, _ => (none, some .closed)

/-- One connection in the first loop of `buildTrafficUpdates`. -/
def trafficUpdate : Option Snapshot → Snapshot × Option Kind
  | none => (snapshotOf current, some .new)
  | some snapshot =>
    let uplinkDelta := current.1 - snapshot.uplink
    let downlinkDelta := current.2 - snapshot.downlink
    if uplinkDelta < 0 ∨ downlinkDelta < 0 then
      (snapshotOf current, if snapshot.hadTraffic then some (.update 0 0) else none)
    else if 0 < uplinkDelta ∨ 0 < downlinkDelta then
      ({ snapshotOf current with hadTraffic := true }, some (.update uplinkDelta downlinkDelta))
    else if snapshot.hadTraffic then (snapshotOf current, some (.update 0 0))
    else (snapshot, none)

/-- The first loop of `buildTrafficUpdates`. -/
def activeUpdates (traffic : ι → Int64 × Int64) :
    List ι → Snapshots ι → Snapshots ι × List (ι × Kind) :=
  forEach fun id snapshot =>
    let updated := trafficUpdate (traffic id) snapshot
    (some updated.1, updated.2)

/-- The second loop, over the snapshots. -/
def closedUpdates (active : List ι) : List ι → Snapshots ι → Snapshots ι × List (ι × Kind) :=
  forEach fun id snapshot => if id ∈ active then (snapshot, none) else (none, some .closed)

/-- How far `Join` and `Leave` of a connection have come. -/
inductive Phase where
  | unborn
  | stored
  | joined
  | deleted
  | listed
  | left
  deriving DecidableEq, Repr

open Phase

/-- How far the subscriber has come. -/
inductive Stage where
  | unsubscribed
  | subscribed
  | listing
  | running
  deriving DecidableEq, Repr

structure State (ι : Type) [DecidableEq ι] where
  phase : ι → Phase := fun _ => .unborn
  connections : List ι := []
  closedConnections : List ι := []
  traffic : ι → Int64 × Int64 := fun _ => (0, 0)
  /-- The events on their way to the subscriber. -/
  queue : List (ι × EventType) := []
  stage : Stage := .unsubscribed
  snapshots : Snapshots ι := ∅
  /-- What the client has been sent. -/
  sent : List (ι × Kind) := []
  /-- The connections that were active at or after the subscription. -/
  since : List ι := []

/-- `order` is the order in which a map is ranged over. -/
inductive Action (ι : Type) where
  | join (id : ι) | emitNew (id : ι) (dropped : Bool)
  | leave (id : ι) | list (id : ι) | emitClosed (id : ι) (dropped : Bool)
  | count (id : ι) (traffic : Int64 × Int64)
  | subscribe (gone : Nat) | listConnections (order : List ι) | listClosed
  | deliver
  | tick (order closing : List ι)
  deriving DecidableEq

def closedConnectionsLimit : Nat := 1000

namespace State

variable (s : State ι) (id : ι)

def setPhase (phase : Phase) : State ι :=
  { s with phase := fun x => if x = id then phase else s.phase x }

/-- `Emit`, to a buffer that may be full. -/
def emit (event : EventType) (dropped : Bool) : State ι :=
  if dropped then s else { s with queue := s.queue ++ [(id, event)] }

def send (work : Snapshots ι × List (ι × Kind)) : State ι :=
  { s with snapshots := work.1, sent := s.sent ++ work.2 }

/-- `m.connections.Store` in `Join`. -/
def join : State ι :=
  { s.setPhase id .stored with
    connections := id :: s.connections
    since := if s.stage = .unsubscribed then s.since else id :: s.since }

/-- `LoadAndDelete` in `Leave`. -/
def leave : State ι :=
  { s.setPhase id .deleted with connections := s.connections.erase id }

/-- The list of closed connections in `Leave`. -/
def list : State ι :=
  { s.setPhase id .listed with
    closedConnections :=
      (if s.closedConnections.length ≥ closedConnectionsLimit then s.closedConnections.tail
       else s.closedConnections) ++ [id] }

/-- Events that went past before the subscription do not come. -/
def subscribe (gone : Nat) : State ι :=
  { s with stage := .subscribed, queue := s.queue.drop gone, since := s.connections }

def listConnections (order : List ι) : State ι :=
  { s.send (initialConnections s.traffic order s.snapshots) with stage := .listing }

def listClosed : State ι :=
  { s.send (initialClosed s.closedConnections s.snapshots) with stage := .running }

/-- The first event of the queue. -/
def deliver (event : EventType) (queue : List (ι × EventType)) : State ι :=
  { s.send (forEach (fun id => applyConnectionEvent (s.traffic id) event) [id] s.snapshots)
    with queue := queue }

/-- The first half of `buildTrafficUpdates`. -/
def updateActive (order : List ι) : State ι := s.send (activeUpdates s.traffic order s.snapshots)

/-- The second half of `buildTrafficUpdates`. -/
def updateClosed (order closing : List ι) : State ι :=
  s.send (closedUpdates order closing s.snapshots)

end State

def step (s : State ι) : Action ι → Option (State ι)
  | .join id => if s.phase id = .unborn then some (s.join id) else none
  | .emitNew id dropped =>
      if s.phase id = .stored then some ((s.setPhase id .joined).emit id .new dropped) else none
  | .leave id => if s.phase id = .joined then some (s.leave id) else none
  | .list id => if s.phase id = .deleted then some (s.list id) else none
  | .emitClosed id dropped =>
    if s.phase id = .listed then some ((s.setPhase id .left).emit id .closed dropped) else none
  | .count id traffic => some { s with traffic := fun x => if x = id then traffic else s.traffic x }
  | .subscribe gone => if s.stage = .unsubscribed then some (s.subscribe gone) else none
  | .listConnections order =>
    if s.stage = .subscribed ∧ order.Perm s.connections
      then some (s.listConnections order) else none
  | .listClosed => if s.stage = .listing then some s.listClosed else none
  | .deliver =>
    match s.stage, s.queue with
    | .running, (id, event) :: queue => some (s.deliver id event queue)
    | _, _ => none
  | .tick order closing =>
    if s.stage = .running ∧ order.Perm s.connections ∧
      closing.Perm (s.updateActive order).snapshots.keys then
      some ((s.updateActive order).updateClosed order closing)
    else none

variable (id : ι)

/-- The events of one connection. -/
def eventsOf (events : List (ι × Kind)) : List Kind :=
  (events.filter fun event => event.1 = id).map Prod.snd

@[simp] theorem eventsOf_append (events more : List (ι × Kind)) :
    eventsOf id (events ++ more) = eventsOf id events ++ eventsOf id more := by
  simp [eventsOf]

/-- What the subscriber has of a connection: its snapshot, and the events sent of it. -/
def State.has (s : State ι) (id : ι) : Option Snapshot × List Kind :=
  (s.snapshots.lookup id, eventsOf id s.sent)

theorem eventsOf_option (id x : ι) (kind : Option Kind) :
    eventsOf id (kind.map fun kind => (x, kind)).toList = if id = x then kind.toList else [] := by
  cases kind with
  | none => simp [eventsOf]
  | some kind =>
    by_cases same : x = id
    · simp [eventsOf, same]
    · simp [eventsOf, same, Ne.symm same]

theorem lookup_setSnapshot (snapshots : Snapshots ι) (id x : ι) (snapshot : Option Snapshot) :
    (setSnapshot snapshots x snapshot).lookup id = if id = x then snapshot
      else snapshots.lookup id := by
  by_cases same : id = x
  · subst same
    cases snapshot <;> simp [setSnapshot]
  · cases snapshot with
    | none => simp [setSnapshot, same, AList.lookup_erase_ne same]
    | some snapshot => simp [setSnapshot, same, AList.lookup_insert_ne same]

section
variable {body : ι → Option Snapshot → Option Snapshot × Option Kind} {id : ι} {ids : List ι}

theorem forEach_not_mem (other : id ∉ ids) (snapshots : Snapshots ι) :
    (forEach body ids snapshots).1.lookup id = snapshots.lookup id ∧
      eventsOf id (forEach body ids snapshots).2 = [] := by
  induction ids generalizing snapshots with
  | nil => exact ⟨rfl, rfl⟩
  | cons x ids ih =>
    have apart := ne_of_not_mem_cons other
    have other := not_mem_of_not_mem_cons other
    obtain ⟨lookup, events⟩ := ih other (setSnapshot snapshots x (body x (snapshots.lookup x)).1)
    constructor
    · simp only [forEach, lookup, lookup_setSnapshot, if_neg apart]
    · simp only [forEach, eventsOf_append, events, eventsOf_option, if_neg apart, append_nil]

theorem forEach_mem (nodup : ids.Nodup) (mem : id ∈ ids) (snapshots : Snapshots ι) :
    (forEach body ids snapshots).1.lookup id = (body id (snapshots.lookup id)).1 ∧
      eventsOf id (forEach body ids snapshots).2 = (body id (snapshots.lookup id)).2.toList := by
  induction ids generalizing snapshots with
  | nil => cases mem
  | cons x ids ih =>
    obtain ⟨fresh, nodup⟩ := nodup_cons.mp nodup
    by_cases same : id = x
    · subst same
      obtain ⟨lookup, events⟩ := @forEach_not_mem _ _ body _ _ fresh
        (setSnapshot snapshots id (body id (snapshots.lookup id)).1)
      constructor
      · simp only [forEach, lookup, lookup_setSnapshot, if_true]
      · simp only [forEach, eventsOf_append, events, eventsOf_option, if_true, append_nil]
    · have mem := (mem_cons.mp mem).resolve_left same
      obtain ⟨lookup, events⟩ :=
        ih nodup mem (setSnapshot snapshots x (body x (snapshots.lookup x)).1)
      constructor
      · simp only [forEach, lookup, lookup_setSnapshot, if_neg same]
      · simp only [forEach, eventsOf_append, events, eventsOf_option,
          lookup_setSnapshot, if_neg same, nil_append]

variable {s : State ι}

theorem send_not_mem (other : id ∉ ids) :
    (s.send (forEach body ids s.snapshots)).has id = s.has id := by
  obtain ⟨lookup, events⟩ := @forEach_not_mem _ _ body _ _ other s.snapshots
  exact Prod.ext lookup (by simp [State.has, State.send, events])

theorem send_mem (nodup : ids.Nodup) (mem : id ∈ ids) :
    (s.send (forEach body ids s.snapshots)).has id =
      ((body id (s.has id).1).1, (s.has id).2 ++ (body id (s.has id).1).2.toList) := by
  obtain ⟨lookup, events⟩ := @forEach_mem _ _ body _ _ nodup mem s.snapshots
  exact Prod.ext lookup (by simp [State.has, State.send, events])

theorem mem_keys : id ∈ s.snapshots.keys ↔ (s.has id).1.isSome = true := by
  rw [← AList.mem_keys]
  exact AList.lookup_isSome.symm

theorem tick_active {closing : List ι} (nodup : ids.Nodup) (mem : id ∈ ids)
    (keys : closing.Perm (s.updateActive ids).snapshots.keys) :
    ((s.updateActive ids).updateClosed ids closing).has id =
      (some (trafficUpdate (s.traffic id) (s.has id).1).1,
        (s.has id).2 ++ (trafficUpdate (s.traffic id) (s.has id).1).2.toList) := by
  have first : (s.updateActive ids).has id = _ := send_mem nodup mem
  have known : id ∈ closing := by
    rw [keys.mem_iff, mem_keys, first]
    rfl
  have second : ((s.updateActive ids).updateClosed ids closing).has id = _ :=
    send_mem (keys.nodup_iff.mpr (AList.keys_nodup _)) known
  simpa only [if_pos mem, Option.toList_none, append_nil, first] using second

/-- A tick closes a connection it knows and that is not in the manager any more. -/
theorem tick_inactive {closing : List ι} (other : id ∉ ids)
    (keys : closing.Perm (s.updateActive ids).snapshots.keys) :
    ((s.updateActive ids).updateClosed ids closing).has id =
      (none, (s.has id).2 ++ if (s.has id).1.isSome then [.closed] else []) := by
  have first : (s.updateActive ids).has id = s.has id := send_not_mem other
  have known : id ∈ closing ↔ (s.has id).1.isSome = true := by rw [keys.mem_iff, mem_keys, first]
  by_cases mem : id ∈ closing
  · have second : ((s.updateActive ids).updateClosed ids closing).has id = _ :=
      send_mem (keys.nodup_iff.mpr (AList.keys_nodup _)) mem
    simpa [if_neg other, first, if_pos (known.mp mem)] using second
  · have second : ((s.updateActive ids).updateClosed ids closing).has id = _ := send_not_mem mem
    have unknown : (s.has id).1.isSome ≠ true := fun some => mem (known.mpr some)
    rw [second, first, if_neg unknown, append_nil]
    exact Prod.ext (by simpa using unknown) rfl

end

def onTheWay (queue : List (ι × EventType)) : List EventType :=
  (queue.filter fun event => event.1 = id).map Prod.snd

/-- The events `Join` and `Leave` have emitted by then. -/
def Phase.emitted : Phase → List EventType
  | .unborn | .stored => []
  | .joined | .deleted | .listed => [.new]
  | .left => [.new, .closed]

/-- The connection is in the manager. -/
def Phase.active : Phase → Bool
  | .stored | .joined => true
  | _ => false

theorem onTheWay_cons (id x : ι) (event : EventType) (queue : List (ι × EventType)) :
    onTheWay id ((x, event) :: queue) = if id = x then event :: onTheWay id queue
      else onTheWay id queue := by
  by_cases same : x = id
  · simp [onTheWay, same]
  · simp [onTheWay, same, Ne.symm same]

theorem onTheWay_drop (queue : List (ι × EventType)) (gone : Nat) :
    (onTheWay id (queue.drop gone)).Sublist (onTheWay id queue) :=
  ((drop_sublist gone queue).filter _).map _

variable {s s' : State ι} {id : ι} {x : ι} {events : List Kind} {a : Action ι}

/-- The maps of the manager against the phases of the connections. -/
structure Maps (s : State ι) : Prop where
  nodup : s.connections.Nodup
  active : ∀ id, id ∈ s.connections ↔ (s.phase id).active = true
  closed : ∀ id ∈ s.closedConnections, s.phase id = .listed ∨ s.phase id = .left

theorem Maps.step (maps : Maps s) (taken : step s a = some s') : Maps s' := by
  obtain ⟨nodup, active, closed⟩ := maps
  cases a with
  | join | leave | emitNew | emitClosed =>
    obtain ⟨here, rfl⟩ := of_guard taken
    constructor <;> grind [State.join, State.leave, State.emit, State.setPhase, Phase.active]
  | list x =>
    obtain ⟨here, rfl⟩ := of_guard taken
    constructor <;> grind [State.list, State.setPhase, Phase.active, mem_of_mem_tail]
  | count =>
    cases taken
    exact ⟨nodup, active, closed⟩
  | subscribe | listConnections | listClosed | tick =>
    obtain ⟨_, rfl⟩ := of_guard taken
    exact ⟨nodup, active, closed⟩
  | deliver =>
    simp only [ConnectionEvents.step] at taken
    split at taken
    · cases taken
      exact ⟨nodup, active, closed⟩
    · cases taken

inductive Told where
  | untold | open_ | closed
  deriving DecidableEq, Repr

/-- The events of one connection, and what the client knows of it by them. -/
inductive History : List Kind → Told → Prop
  | none : History [] .untold
  | new : History [.new] .open_
  | update {events : List Kind} (uplinkDelta downlinkDelta : Int64) :
      History events .open_ → History (events ++ [.update uplinkDelta downlinkDelta]) .open_
  | closed {events : List Kind} : History events .open_ → History (events ++ [.closed]) .closed

/-- One event `NEW`, any number of updates, and at most one `CLOSED` after them. -/
def WellOrdered (events : List Kind) : Prop :=
  events = [] ∨ ∃ updates : List (Int64 × Int64), ∃ last : List Kind,
    (last = [] ∨ last = [.closed]) ∧
    events = .new :: (updates.map fun delta => .update delta.1 delta.2) ++ last

theorem History.open_ {told : Told} (h : History events told) (isOpen : told = .open_) :
    ∃ updates : List (Int64 × Int64), events = .new :: updates.map fun delta =>
      .update delta.1 delta.2 := by
  induction h with
  | none => cases isOpen
  | new => exact ⟨[], rfl⟩
  | update up down _ ih =>
    obtain ⟨updates, rfl⟩ := ih rfl
    exact ⟨updates ++ [(up, down)], by simp⟩
  | closed => cases isOpen

theorem History.wellOrdered {told : Told} (h : History events told) : WellOrdered events := by
  cases h with
  | none => exact .inl rfl
  | new => exact .inr ⟨[], [], .inl rfl, rfl⟩
  | update up down before =>
    obtain ⟨updates, rfl⟩ := before.open_ rfl
    exact .inr ⟨updates ++ [(up, down)], [], .inl rfl, by simp⟩
  | closed before =>
    obtain ⟨updates, rfl⟩ := before.open_ rfl
    exact .inr ⟨updates, [.closed], .inr rfl, rfl⟩

theorem History.untold_nil (h : History events .untold) : events = [] := by
  cases h
  rfl

/-- The connections the manager had at the subscription have been told. -/
def Stage.listed : Stage → Bool
  | .unsubscribed | .subscribed => false
  | .listing | .running => true

/-- What the client knows of a connection, against its snapshot and the events on their way. -/
def Known (stage : Stage) (phase : Phase) (way : List EventType) (snapshot : Option Snapshot)
    (events : List Kind) : Prop :=
  ∃ told, History events told ∧ (told = .open_ ↔ snapshot.isSome = true) ∧
    (told = .closed → way = [] ∧ phase = .left) ∧
    (stage.listed = true → phase.emitted ≠ [] → .new ∉ way → told ≠ .untold)

section
variable {stage : Stage} {phase : Phase} {way : List EventType} {snapshot : Option Snapshot}
  {events : List Kind}

theorem Known.fresh (early : phase.emitted = [] ∨ stage.listed = false) :
    Known stage phase way none [] := by
  refine ⟨.untold, .none, by simp, by simp, fun listed emitted => ?_⟩
  obtain early | early := early
  · exact absurd early emitted
  · rw [early] at listed
    cases listed

theorem Known.goes_on (known : Known stage phase way snapshot events) {phase' : Phase}
    {more : List EventType}
    (here : phase ≠ .left) (emits : phase.emitted = [] → phase'.emitted ≠ [] → .new ∈ more) :
    Known stage phase' (way ++ more) snapshot events := by
  obtain ⟨told, history, isOpen, closed, listed⟩ := known
  have notClosed : told ≠ .closed := fun isClosed => here (closed isClosed).2
  refine ⟨told, history, isOpen, fun isClosed => absurd isClosed notClosed,
    fun stage emitted absent => ?_⟩
  rw [mem_append, not_or] at absent
  exact listed stage (fun none => absent.2 (emits none emitted)) absent.1

variable {current : Int64 × Int64}

theorem Known.deliver_new (known : Known stage phase (.new :: way) snapshot events) :
    Known stage phase way (applyConnectionEvent current .new snapshot).1
      (events ++ (applyConnectionEvent current .new snapshot).2.toList) := by
  obtain ⟨told, history, isOpen, closed, listed⟩ := known
  have notClosed : told ≠ .closed := fun isClosed => by simpa using (closed isClosed).1
  cases snapshot with
  | some snapshot =>
    cases isOpen.mpr rfl
    exact ⟨.open_, by simpa [applyConnectionEvent] using history, by simp [applyConnectionEvent],
      by simp, by simp⟩
  | none =>
    cases told with
    | untold =>
      have none := history.untold_nil
      subst none
      exact ⟨.open_, .new, by simp [applyConnectionEvent], by simp, by simp⟩
    | open_ => simp at isOpen
    | closed => exact absurd rfl notClosed

theorem last_of_sublist (sub : (.closed :: way).Sublist phase.emitted) :
    way = [] ∧ phase = .left := by
  cases phase with
  | unborn | stored => cases sub
  | joined | deleted | listed =>
    cases sub with
    | cons _ rest => cases rest
  | left =>
    cases sub with
    | cons _ rest => grind

theorem Known.deliver_closed (known : Known stage phase (.closed :: way) snapshot events)
    (sub : (.closed :: way).Sublist phase.emitted) (listing : stage.listed = true) :
    Known stage phase way (applyConnectionEvent current .closed snapshot).1
      (events ++ (applyConnectionEvent current .closed snapshot).2.toList) := by
  obtain ⟨told, history, _, closed, listed⟩ := known
  obtain ⟨rfl, rfl⟩ := last_of_sublist sub
  cases told with
  | untold => exact absurd rfl (listed listing (by simp [emitted]) (by simp))
  | open_ => exact ⟨.closed, history.closed, by simp [applyConnectionEvent],
      fun _ => ⟨rfl, rfl⟩, by simp⟩
  | closed => cases (closed rfl).1

theorem Known.active (known : Known stage phase way snapshot events)
    (active : phase.active = true) :
    Known stage phase way (some (trafficUpdate current snapshot).1)
      (events ++ (trafficUpdate current snapshot).2.toList) := by
  obtain ⟨told, history, isOpen, closed, _⟩ := known
  refine ⟨.open_, ?_, by simp, by simp, by simp⟩
  cases told with
  | untold =>
    have unknown : snapshot = none := by simpa using isOpen
    rw [history.untold_nil, unknown]
    exact .new
  | open_ =>
    obtain ⟨snapshot, rfl⟩ := Option.isSome_iff_exists.mp (isOpen.mp rfl)
    simp only [trafficUpdate]
    split
    · split
      · exact history.update 0 0
      · simpa using history
    · split
      · exact history.update _ _
      · split
        · exact history.update 0 0
        · simpa using history
  | closed =>
    rw [(closed rfl).2] at active
    cases active

/-- A tick for a connection that has left and has no event on its way. -/
theorem Known.inactive (known : Known stage .left [] snapshot events) :
    Known stage .left [] none (events ++ if snapshot.isSome then [.closed] else []) := by
  obtain ⟨told, history, isOpen, closed, listed⟩ := known
  cases told with
  | open_ =>
    rw [if_pos (isOpen.mp rfl)]
    exact ⟨.closed, history.closed, by simp, by simp, by simp⟩
  | untold =>
    have unknown : snapshot = none := by simpa using isOpen
    exact ⟨.untold, by simpa [unknown] using history, by simp, by simp, listed⟩
  | closed =>
    have unknown : snapshot = none := by simpa using isOpen
    exact ⟨.closed, by simpa [unknown] using history, by simp, by simp, by simp⟩

end

/-- What keeps the order: `NEW` events are not dropped, no connection leaves while the subscriber
lists the connections, and at a tick no event is on its way of a connection that has left. -/
def Undisturbed (s : State ι) : Action ι → Prop
  | .emitNew _ dropped => s.stage = .unsubscribed ∨ dropped = false
  | .leave _ => s.stage = .unsubscribed ∨ s.stage = .running
  | .tick _ _ => ∀ id ∈ s.since, (s.phase id).active = false → s.phase id = .left ∧
      onTheWay id s.queue = []
  | _ => True

instance (s : State ι) : (a : Action ι) → Decidable (Undisturbed s a)
  | .emitNew _ _ => inferInstanceAs (Decidable (_ ∨ _))
  | .leave _ => inferInstanceAs (Decidable (_ ∨ _))
  | .tick _ _ => inferInstanceAs (Decidable (∀ id ∈ s.since, _ → _ ∧ _))
  | .join _ | .list _ | .emitClosed _ _ | .count _ _ | .subscribe _
  | .listConnections _ | .listClosed | .deliver =>
    inferInstanceAs (Decidable True)

/-- What the steps look at and change of one connection. -/
structure View where
  stage : Stage
  phase : Phase
  way : List EventType
  has : Option Snapshot × List Kind
  /-- It was active at or after the subscription. -/
  since : Prop

def State.view (s : State ι) (id : ι) : View :=
  ⟨s.stage, s.phase id, onTheWay id s.queue, s.has id, id ∈ s.since⟩

structure Ok (v : View) : Prop where
  queue : v.way.Sublist v.phase.emitted
  unborn : v.phase = .unborn → v.has = (none, []) ∧ ¬ v.since
  unsent : v.stage = .unsubscribed ∨ v.stage = .subscribed → v.has = (none, [])
  none_since : v.stage = .unsubscribed → ¬ v.since
  staying : v.stage = .subscribed ∨ v.stage = .listing → v.since → v.phase.active = true
  known : v.since → Known v.stage v.phase v.way v.has.1 v.has.2

theorem Ok.init : Ok (({} : State ι).view id) := by
  constructor <;> simp [State.view, State.has, onTheWay, eventsOf]

section
variable {v : View} {stage : Stage} {way : List EventType}
  {has : Option Snapshot × List Kind} (ok : Ok v)
include ok

theorem Ok.join (unborn : v.phase = .unborn) {since : Prop}
    (later : since → v.stage ≠ .unsubscribed) :
    Ok { v with phase := .stored, since } where
  queue := ok.queue.trans (by rw [unborn]; exact .slnil)
  unborn here := by cases here
  unsent := ok.unsent
  none_since early since := later since early
  staying _ _ := rfl
  known _ := by
    rw [(ok.unborn unborn).1]
    exact .fresh (.inl rfl)

/-- The subscriber works on its snapshots and sends events. -/
theorem Ok.works (next : stage = .running ∨ (v.stage = .subscribed ∧ stage = .listing))
    (queue : way.Sublist v.way)
    (unborn : v.phase = .unborn → has = v.has)
    (known : v.since → Known stage v.phase way has.1 has.2) :
    Ok { v with stage, way, has } := by
  refine ⟨queue.trans ok.queue, fun here => ?_, ?_, ?_, ?_, known⟩
  · rw [unborn here]
    exact ok.unborn here
  all_goals grind [Stage.listed, ok.staying]

end

/-- A step of `Join` or `Leave` of a connection, with or without an event. -/
theorem Ok.emit {before phase : Phase} {event : EventType} {dropped : Bool} (ok : Ok (s.view id))
    (here : s.phase x = before) (goes : before ≠ .left ∧ phase ≠ .unborn)
    (emitted : (before.emitted ++ if dropped then [] else [event]).Sublist phase.emitted)
    (emits : s.stage = .unsubscribed ∨ before.emitted ≠ [] ∨ (event = .new ∧ dropped = false))
    (stays : s.stage = .unsubscribed ∨ s.stage = .running ∨ before.active = false ∨
      phase.active = true) :
    Ok (((s.setPhase x phase).emit x event dropped).view id) := by
  have view : ((s.setPhase x phase).emit x event dropped).view id =
      if id = x then
        { s.view id with phase, way := (s.view id).way ++ if dropped then [] else [event] }
      else s.view id := by
    cases dropped <;> by_cases same : id = x <;>
      simp [State.view, State.emit, State.setPhase, State.has, same, onTheWay, Ne.symm]
  rw [view]
  split
  · next same =>
    subst same here
    refine ⟨(ok.queue.append (.refl _)).trans emitted,
      fun unborn => absurd unborn goes.2, ok.unsent,
      ok.none_since, fun early since => ?_, fun since =>
        (ok.known since).goes_on goes.1 fun none _ => ?_⟩
    · have active := ok.staying early since
      simp only [State.view] at early active
      grind
    · have later := fun early => ok.none_since early since
      simp only [State.view] at none later
      grind
  · exact ok

theorem view_join :
    (s.join x).view id =
      if id = x then
        { s.view id with phase := .stored, since := s.stage ≠ .unsubscribed ∨ id ∈ s.since }
      else s.view id := by
  by_cases early : s.stage = .unsubscribed <;> by_cases same : id = x <;>
    simp [State.view, State.join, State.setPhase, State.has, same, early]

section
variable (ok : Ok (s.view id))
include ok

theorem Ok.deliver {event : EventType} {queue : List (ι × EventType)}
    (running : s.stage = .running) (head : s.queue = (x, event) :: queue) :
    Ok ((s.deliver x event queue).view id) := by
  by_cases same : id = x
  · subst same
    have seen : (s.deliver id event queue).has id = _ := send_mem (by simp) (mem_singleton_self id)
    have way : (s.view id).way = event :: onTheWay id queue := by
      simp [State.view, head, onTheWay_cons]
    have sub := ok.queue
    have listed : s.stage.listed = true := by rw [running]; rfl
    rw [way] at sub
    refine ok.works (.inl running) ?_ (fun unborn => ?_) fun since => ?_
    · rw [way]
      exact sublist_cons_self _ _
    · rw [unborn] at sub
      cases sub
    · have known := ok.known since
      rw [way] at known
      rw [seen]
      cases event with
      | new => exact known.deliver_new
      | closed => exact known.deliver_closed sub listed
  · have seen : (s.deliver x event queue).has id = s.has id := send_not_mem (by simpa using same)
    have view : (s.deliver x event queue).view id = s.view id := by
      simp only [State.view, seen, head, onTheWay_cons, if_neg same]
      rfl
    rw [view]
    exact ok

variable (maps : Maps s)
include maps

theorem Ok.subscribe (unsubscribed : s.stage = .unsubscribed) (gone : Nat) :
    Ok ((s.subscribe gone).view id) := by
  have nothing : s.has id = (none, []) := ok.unsent (.inl unsubscribed)
  have active : id ∈ s.connections → (s.phase id).active = true := (maps.active id).mp
  refine ⟨(onTheWay_drop id s.queue gone).trans ok.queue, fun unborn => ⟨nothing, fun mem => ?_⟩,
    fun _ => nothing, ?_, fun _ => active, fun _ => ?_⟩
  · have unborn : s.phase id = .unborn := unborn
    simpa [unborn, Phase.active] using active mem
  · simp [State.view, State.subscribe]
  · have same : ((s.subscribe gone).view id).has = (none, []) := nothing
    rw [same]
    exact .fresh (.inr rfl)

theorem Ok.listConnections {order : List ι} (subscribed : s.stage = .subscribed)
    (perm : order.Perm s.connections) : Ok ((s.listConnections order).view id) := by
  have mem : id ∈ order ↔ (s.phase id).active = true := perm.mem_iff.trans (maps.active id)
  refine ok.works (.inr ⟨subscribed, rfl⟩) (.refl _) (fun unborn => ?_) fun since => ?_
  · have other : id ∉ order := by simp [mem, show s.phase id = .unborn from unborn, active]
    exact send_not_mem other
  · have listed : id ∈ order := mem.mpr (ok.staying (.inl subscribed) since)
    have nothing : s.has id = (none, []) := ok.unsent (.inr subscribed)
    have seen : (s.listConnections order).has id = _ :=
      send_mem (perm.nodup_iff.mpr maps.nodup) listed
    rw [seen, nothing]
    exact ⟨.open_, .new, by simp, by simp, by simp⟩

theorem Ok.listClosed (listing : s.stage = .listing) : Ok (s.listClosed.view id) := by
  refine ok.works (.inl rfl) (.refl _) (fun unborn => ?_) fun since => ?_
  · exact send_not_mem fun mem =>
      by simpa [show s.phase id = .unborn from unborn] using maps.closed id mem
  · have active : (s.phase id).active = true := ok.staying (.inr listing) since
    have other : id ∉ s.closedConnections := by grind [maps.closed, active]
    have seen : s.listClosed.has id = s.has id := send_not_mem other
    have known := ok.known since
    rw [show (s.view id).stage = .listing from listing] at known
    rw [seen]
    exact known

theorem Ok.tick {order closing : List ι} (running : s.stage = .running)
    (perm : order.Perm s.connections) (keys : closing.Perm (s.updateActive order).snapshots.keys)
    (met : Undisturbed s (.tick order closing)) :
    Ok (((s.updateActive order).updateClosed order closing).view id) := by
  have mem : id ∈ order ↔ (s.phase id).active = true := perm.mem_iff.trans (maps.active id)
  cases active : (s.phase id).active with
  | true =>
    refine ok.works (.inl running) (.refl _) (fun unborn => ?_) fun since => ?_
    · rw [show s.phase id = .unborn from unborn] at active
      cases active
    · rw [tick_active (perm.nodup_iff.mpr maps.nodup) (mem.mpr active) keys]
      exact (ok.known since).active active
  | false =>
    have other : id ∉ order := by simp [mem, active]
    refine ok.works (.inl running) (.refl _) (fun unborn => ?_) fun since => ?_
    · rw [tick_inactive other keys, show s.has id = (none, []) from (ok.unborn unborn).1]
      exact (ok.unborn unborn).1.symm
    · obtain ⟨left, nothing⟩ := met id since active
      have known := ok.known since
      simp only [State.view, left, nothing] at known
      rw [tick_inactive other keys, show (s.view id).phase = .left from left]
      have same : onTheWay id ((s.updateActive order).updateClosed order closing).queue = [] :=
        nothing
      rw [same]
      exact known.inactive

end

theorem Ok.step (ok : Ok (s.view id)) (maps : Maps s) (met : Undisturbed s a)
    (taken : step s a = some s') :
    Ok (s'.view id) := by
  cases a with
  | join x =>
    obtain ⟨unborn, rfl⟩ := of_guard taken
    rw [view_join]
    split
    · next same =>
      subst same
      exact ok.join unborn fun since => since.resolve_right (ok.unborn unborn).2
    · exact ok
  | emitNew x dropped =>
    obtain ⟨stored, rfl⟩ := of_guard taken
    exact ok.emit stored (by simp) (by cases dropped <;> simp [emitted])
      (met.imp_right fun kept => .inr ⟨rfl, kept⟩) (by simp [active])
  | leave x =>
    obtain ⟨joined, rfl⟩ := of_guard taken
    have view : (s.leave x).view id = ((s.setPhase x .deleted).emit x .closed true).view id := rfl
    rw [view]
    exact ok.emit joined (by simp) (by simp [emitted]) (by simp [emitted]) (by grind [Undisturbed])
  | list x =>
    obtain ⟨deleted, rfl⟩ := of_guard taken
    have view : (s.list x).view id = ((s.setPhase x .listed).emit x .closed true).view id := rfl
    rw [view]
    exact ok.emit deleted (by simp) (by simp [emitted]) (by simp [emitted]) (by simp [active])
  | emitClosed x dropped =>
    obtain ⟨listed, rfl⟩ := of_guard taken
    exact ok.emit listed (by simp) (by cases dropped <;> simp [emitted]) (by simp [emitted])
      (by simp [active])
  | count x traffic =>
    cases taken
    exact ok
  | subscribe gone =>
    obtain ⟨unsubscribed, rfl⟩ := of_guard taken
    exact ok.subscribe maps unsubscribed gone
  | listConnections order =>
    obtain ⟨⟨subscribed, perm⟩, rfl⟩ := of_guard taken
    exact ok.listConnections maps subscribed perm
  | listClosed =>
    obtain ⟨listing, rfl⟩ := of_guard taken
    exact ok.listClosed maps listing
  | deliver =>
    simp only [ConnectionEvents.step] at taken
    split at taken
    · next running head =>
      cases taken
      exact ok.deliver running head
    · cases taken
  | tick order closing =>
    obtain ⟨⟨running, perm, keys⟩, rfl⟩ := of_guard taken
    exact ok.tick maps running perm keys met

theorem ok_of_run (run : Run step Undisturbed {} s) (id : ι) : Ok (s.view id) := by
  have both : Maps s ∧ ∀ id, Ok (s.view id) := by
    induction run with
    | start => exact ⟨by constructor <;> simp [active], fun _ => .init⟩
    | next _ met taken ih => exact ⟨ih.1.step taken, fun id => (ih.2 id).step ih.1 met taken⟩
  exact both.2 id

/-- For every connection that was active at or after the subscription, in every undisturbed run:
the events are in order, and the client has been told of it as soon as none is on its way. -/
theorem history_of_run (run : Run step Undisturbed {} s) (mem : id ∈ s.since) :
    WellOrdered (eventsOf id s.sent) ∧
    (s.stage = .running → (s.phase id).emitted ≠ [] → onTheWay id s.queue = [] →
      eventsOf id s.sent ≠ []) := by
  obtain ⟨told, history, _, _, listed⟩ := (ok_of_run run id).known mem
  simp only [State.view, State.has] at history listed
  refine ⟨history.wellOrdered, fun running emitted nothing none => ?_⟩
  have told := listed (by rw [running]; rfl) emitted (by rw [nothing]; exact not_mem_nil)
  rw [none] at history
  generalize same : ([] : List Kind) = events at history
  cases history with
  | none => exact told rfl
  | new => cases same
  | update => simp at same
  | closed => simp at same

end

def comesAndGoes : List (Action Nat) :=
  [.subscribe 0, .listConnections [], .listClosed, .join 0, .emitNew 0 false, .deliver,
    .count 0 (3, 5), .tick [0] [0], .leave 0, .list 0, .emitClosed 0 false, .deliver]

theorem comesAndGoes_ordered :
    ∃ s : State Nat, exec step {} comesAndGoes = some s ∧
      eventsOf 0 s.sent = [.new, .update 3 5, .closed] ∧ WellOrdered (eventsOf 0 s.sent) := by
  have run : ∃ s : State Nat, exec step {} comesAndGoes = some s ∧ 0 ∈ s.since ∧
      eventsOf 0 s.sent = [.new, .update 3 5, .closed] := ⟨_, rfl, by decide, by decide⟩
  obtain ⟨s, ran, mem, events⟩ := run
  exact ⟨s, ran, events, (history_of_run (exec_run ran (by decide)) mem).1⟩

def closedTwice : List (Action Nat) :=
  [.subscribe 0, .listConnections [], .listClosed, .join 0, .emitNew 0 false, .deliver,
    .leave 0, .list 0, .emitClosed 0 false, .tick [] [0], .deliver]

theorem closedTwice_not_ordered :
    ∃ s : State Nat, exec step {} closedTwice = some s ∧ 0 ∈ s.since ∧
      eventsOf 0 s.sent = [.new, .closed, .closed] ∧ ¬ WellOrdered (eventsOf 0 s.sent) := by
  have run : ∃ s : State Nat, exec step {} closedTwice = some s ∧ 0 ∈ s.since ∧
      eventsOf 0 s.sent = [.new, .closed, .closed] := ⟨_, rfl, by decide, by decide⟩
  obtain ⟨s, ran, mem, events⟩ := run
  refine ⟨s, ran, mem, events, ?_⟩
  rw [events]
  rintro (none | ⟨updates, last, ends, same⟩)
  · cases none
  · cases updates with
    | nil => rcases ends with rfl | rfl <;> simp at same
    | cons => simp at same

end AiboosterEngine.Daemon.ConnectionEvents
