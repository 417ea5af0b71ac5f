import AiboosterEngine.GoSem.Counting
import AiboosterEngine.GoSem.Map

/-!
# The tunnel server

`NewServerEndpoint`, `DialContext` and `connHandler` of `protocol/tunnel/server.go`.
Any number of calls run at a time. A step of a call is the taking of the mutex, what
it does under it up to a channel operation or the release, or one operation on a
channel or a connection. The timeout of a dialer may end any of its waits for a
channel; a wait for the mutex has no timeout.
-/

namespace AiboosterEngine.Tunnel

open GoSem

section
variable {UUID Conn : Type}

/-- What `uuid.FromString` makes of a string of the metadata, unless it is empty. -/
inductive Field (UUID : Type) where
  | unset | malformed | uuid (value : UUID)
  deriving DecidableEq

structure Request (UUID : Type) where
  uuid : UUID
  command : UInt8
  destinationUUID : UUID

def commandInbound : UInt8 := 1

def commandTCP : UInt8 := 2

def networkTCP : String := "tcp"

/-- `handle` also says whether the connection is to the address of the tunnel, and the request it
brings then. -/
inductive Call (UUID Conn : Type) where
  | dial (network : String) (tunnelDestination tunnelSource : Field UUID)
  | handle (conn : Conn) (toTunnel : Bool) (request : Request UUID)

inductive Err (UUID : Type) where
  | invalid | parse | userNotFound (user : UUID) | destinationNotSet | contextDone
  | read | keyNotFound (key : UUID) | routingLoop (user : UUID) | commandNotFound (command : UInt8)
  deriving DecidableEq

inductive Result (UUID Conn : Type) where
  | conn (conn : Conn) | nil | err (e : Err UUID)

structure User (UUID : Type) where
  key : UUID
  uuid : UUID

/-- `conns` has the capacity of the channel of each user; what is in the channels is shared. -/
structure ServerEndpoint (UUID : Type) where
  uuid : UUID
  users : Map UUID UUID := .empty
  keys : Map UUID UUID := .empty
  conns : Map UUID Nat := .empty

open ServerEndpoint

variable [DecidableEq UUID]

def ServerEndpoint.addUser (server : ServerEndpoint UUID) (user : User UUID) :
    ServerEndpoint UUID :=
  { server with
    users := server.users.set user.key user.uuid
    keys := server.keys.set user.uuid user.key
    conns := server.conns.set user.uuid 10 }

def newServerEndpoint (uuid : UUID) (users : List (User UUID)) : ServerEndpoint UUID :=
  users.foldl .addUser { uuid }

/-- A server whose users have channels of ten places, as the loop of `NewServerEndpoint` makes
it. -/
structure ServerEndpoint.Made (server : ServerEndpoint UUID) : Prop where
  channel : ∀ key u, server.users.get key = some u → server.conns.get u = some 10
  capacity : ∀ u n, server.conns.get u = some n → n = 10

theorem ServerEndpoint.Made.addUser {server : ServerEndpoint UUID} (made : server.Made)
    (user : User UUID) :
    (server.addUser user).Made := by
  obtain ⟨channel, capacity⟩ := made
  constructor <;> grind [addUser, Map.get_set]

theorem newServerEndpoint_made (uuid : UUID) (users : List (User UUID)) :
    (newServerEndpoint uuid users).Made := by
  have add : ∀ (users : List (User UUID)) (server : ServerEndpoint UUID), server.Made →
      (users.foldl .addUser server).Made := by
    intro users
    induction users with
    | nil => exact fun _ made => made
    | cons user users ih => exact fun server made => ih _ (made.addUser user)
  exact add users _ ⟨nofun, nofun⟩

/-- What a call does under the mutex, with its local variables. -/
inductive Region (UUID Conn : Type) where
  | dial (destination : UUID) (tunnelSource : Field UUID)
  | inbound (key : UUID) (conn : Conn)
  | tcp (source destination : UUID)

/-- `full` and `send` are the two statements of the `default` case of `connHandler`, `loop`, `wait`
and `write` the two `select`s of `DialContext` and the write in the second. A call that has
returned may have left the mutex locked. -/
inductive Place (UUID Conn : Type) where
  | start
  | lock (region : Region UUID Conn) | locked (region : Region UUID Conn)
  | full (user : UUID) (conn : Conn) | send (user : UUID) (conn : Conn)
  | unlock (result : Result UUID Conn)
  | loop (user : UUID) | wait (user : UUID) | write (user : UUID) (conn : Conn)
  | route
  | returned (result : Result UUID Conn) (locked : Bool)

/-- How an operation ends. -/
inductive Choice where
  | ok | fail | timeout
  deriving DecidableEq, Repr

structure Shared (τ UUID Conn : Type) where
  mtx : Option τ := none
  conns : UUID → List Conn

/-- `DialContext` up to the mutex. -/
def dialContext (network : String) (tunnelDestination tunnelSource : Field UUID) :
    Place UUID Conn :=
  if network ≠ networkTCP then .returned (.err .invalid) false
  else
    match tunnelDestination, tunnelSource with
    | .malformed, _ => .returned (.err .parse) false
    | .uuid destination, source => .lock (.dial destination source)
    | .unset, .malformed => .returned (.err .parse) false
    | .unset, _ => .returned (.err .destinationNotSet) false

namespace ServerEndpoint

variable (server : ServerEndpoint UUID)

/-- The capacity of `s.conns[user]`, where nothing can be sent to a `nil` channel. -/
def capacity (user : UUID) : Nat := (server.conns.get user).getD 0

/-- `connHandler` from the request to the mutex. -/
def received (conn : Conn) (request : Request UUID) : Place UUID Conn :=
  if request.command = commandInbound then .lock (.inbound request.uuid conn)
  else if request.command = commandTCP then
    match server.users.get request.uuid with
    | none => .returned (.err (.keyNotFound request.uuid)) false
    | some source =>
      if source = request.destinationUUID then .returned (.err (.routingLoop source)) false
      else .lock (.tcp source request.destinationUUID)
  else .returned (.err (.commandNotFound request.command)) false

def begins : Call UUID Conn → Choice → Option (Place UUID Conn)
  | .dial network destination source, .ok => some (dialContext network destination source)
  | .handle _ false _, .ok => some (.returned .nil false)
  | .handle conn true request, .ok => some (server.received conn request)
  | .handle _ true _, .fail => some (.returned (.err .read) false)
  | _, _ => none

end ServerEndpoint

namespace Shared

variable {τ : Type} (s : Shared τ UUID Conn)

def push (user : UUID) (conn : Conn) : Shared τ UUID Conn :=
  { s with conns := fun u => if u = user then s.conns u ++ [conn] else s.conns u }

/-- A receive, where the channel has more. -/
def pop (user : UUID) : Shared τ UUID Conn :=
  { s with conns := fun u => if u = user then (s.conns u).tail else s.conns u }

def unlock : Shared τ UUID Conn := { s with mtx := none }

end Shared

namespace ServerEndpoint

variable {τ : Type} (server : ServerEndpoint UUID) (s : Shared τ UUID Conn)

/-- `DialContext` under the mutex. -/
def dialLocked (destination : UUID) (source : Field UUID) : Shared τ UUID Conn × Place UUID Conn :=
  match server.conns.get destination with
  | none => (s, .returned (.err (.userNotFound destination)) true)
  | some _ =>
    match source with
    | .malformed => (s.unlock, .returned (.err .parse) false)
    | _ => (s.unlock, .loop destination)

/-- The `CommandInbound` case of `connHandler`, which has deferred the unlock, up to the first
operation that may wait. -/
def inboundLocked (key : UUID) (conn : Conn) : Shared τ UUID Conn × Place UUID Conn :=
  match server.users.get key with
  | none => (s, .unlock (.err (.keyNotFound key)))
  | some user =>
    if (s.conns user).length < server.capacity user then (s.push user conn, .unlock .nil)
    else (s, .full user conn)

/-- The `CommandTCP` case under the mutex. -/
def tcpLocked (source destination : UUID) : Shared τ UUID Conn × Place UUID Conn :=
  if destination ≠ server.uuid ∧ server.keys.get destination = none then
    (s, .returned (.err (.userNotFound source)) true)
  else (s.unlock, .route)

def region : Region UUID Conn → Shared τ UUID Conn × Place UUID Conn
  | .dial destination source => server.dialLocked s destination source
  | .inbound key conn => server.inboundLocked s key conn
  | .tcp source destination => server.tcpLocked s source destination

end ServerEndpoint

def act {τ : Type} (server : ServerEndpoint UUID) (call : τ → Call UUID Conn) (t : τ)
    (s : Shared τ UUID Conn) :
    Place UUID Conn → Choice → Option (Shared τ UUID Conn × Place UUID Conn)
  | .start, c => (server.begins (call t) c).map (s, ·)
  | .lock region, .ok =>
      if s.mtx.isNone then some ({ s with mtx := some t }, .locked region) else none
  | .locked region, .ok => some (server.region s region)
  | .full user conn, .ok => if s.conns user = [] then none else some (s.pop user, .send user conn)
  | .send user conn, .ok =>
    if (s.conns user).length < server.capacity user
      then some (s.push user conn, .unlock .nil) else none
  | .unlock result, .ok => some (s.unlock, .returned result false)
  | .loop user, .ok => some (s, .wait user)
  | .loop _, .timeout => some (s, .returned (.err .contextDone) false)
  | .wait user, .ok =>
    match s.conns user with
    | [] => none
    | conn :: _ => some (s.pop user, .write user conn)
  | .wait _, .timeout => some (s, .returned (.err .contextDone) false)
  | .write _ conn, .ok => some (s, .returned (.conn conn) false)
  | .write user _, .fail => some (s, .loop user)
  | .route, .ok => some (s, .returned .nil false)
  | _, _ => none

/-- The lookup under the mutex that fails without a deferred unlock. -/
def ServerEndpoint.Unknown (server : ServerEndpoint UUID) : Region UUID Conn → Prop
  | .dial destination _ => server.conns.get destination = none
  | .inbound _ _ => False
  | .tcp _ destination => destination ≠ server.uuid ∧ server.keys.get destination = none

namespace Place

/-- The call has the mutex, or had it last. -/
def holds : Place UUID Conn → Bool
  | locked _ | full _ _ | send _ _ | unlock _ => true
  | returned _ left => left
  | _ => false

/-- The places after the start. -/
def begun : Place UUID Conn → Bool
  | lock _ => true
  | returned _ left => !left
  | _ => false

/-- The call needs neither the mutex nor a channel to end. -/
def free : Place UUID Conn → Bool
  | loop _ | wait _ | write _ _ | route => true
  | _ => false

end Place

inductive Acts {τ : Type} (server : ServerEndpoint UUID) (call : Call UUID Conn) (t : τ)
    (s : Shared τ UUID Conn) :
    Place UUID Conn → Shared τ UUID Conn → Place UUID Conn → Prop
  | begins {c : Choice} {p : Place UUID Conn} (first : server.begins call c = some p) :
      Acts server call t s .start s p
  | lock {region : Region UUID Conn} (open_ : s.mtx = none) :
      Acts server call t s (.lock region) { s with mtx := some t } (.locked region)
  | leaves {region : Region UUID Conn} {result : Result UUID Conn}
      (unknown : server.Unknown region) :
      Acts server call t s (.locked region) s (.returned result true)
  | refuses {region : Region UUID Conn} {result : Result UUID Conn} :
      Acts server call t s (.locked region) s.unlock (.returned result false)
  | dials {destination : UUID} {source : Field UUID} (known : server.conns.get destination ≠ none)
      (valid : source ≠ .malformed) :
      Acts server call t s (.locked (.dial destination source)) s.unlock (.loop destination)
  | routes {source destination : UUID} :
      Acts server call t s (.locked (.tcp source destination)) s.unlock .route
  | keyNotFound {key : UUID} {conn : Conn} {result : Result UUID Conn} :
      Acts server call t s (.locked (.inbound key conn)) s (.unlock result)
  | sends {key user : UUID} {conn : Conn} (known : server.users.get key = some user)
      (room : (s.conns user).length < server.capacity user) :
      Acts server call t s (.locked (.inbound key conn)) (s.push user conn) (.unlock .nil)
  | full {key user : UUID} {conn : Conn} (known : server.users.get key = some user)
      (noRoom : server.capacity user ≤ (s.conns user).length) :
      Acts server call t s (.locked (.inbound key conn)) s (.full user conn)
  | makesRoom {user : UUID} {conn : Conn} (more : s.conns user ≠ []) :
      Acts server call t s (.full user conn) (s.pop user) (.send user conn)
  | send {user : UUID} {conn : Conn} (room : (s.conns user).length < server.capacity user) :
      Acts server call t s (.send user conn) (s.push user conn) (.unlock .nil)
  | unlock {result : Result UUID Conn} :
      Acts server call t s (.unlock result) s.unlock (.returned result false)
  | wait {user : UUID} : Acts server call t s (.loop user) s (.wait user)
  | receive {user : UUID} {conn : Conn} (more : s.conns user ≠ []) :
      Acts server call t s (.wait user) (s.pop user) (.write user conn)
  | retry {user : UUID} {conn : Conn} : Acts server call t s (.write user conn) s (.loop user)
  | ends {p : Place UUID Conn} {result : Result UUID Conn} (free : p.free = true) :
      Acts server call t s p s (.returned result false)

section
variable {τ : Type} {server : ServerEndpoint UUID} {call : τ → Call UUID Conn} {t : τ}
  {s s' : Shared τ UUID Conn} {p p' : Place UUID Conn} {c : Choice}

attribute [local grind intro] Acts
attribute [local grind] Unknown Place.free

theorem region_acts (region : Region UUID Conn) (h : server.region s region = (s', p')) :
    Acts server (call t) t s (.locked region) s' p' := by
  cases region with
  | dial _ source => cases source <;> grind [region, dialLocked]
  | inbound => grind [region, inboundLocked]
  | tcp => grind [region, tcpLocked]

theorem act_acts (h : act server call t s p c = some (s', p')) :
    Acts server (call t) t s p s' p' := by
  cases p with
  | locked region =>
    cases c with
    | ok => exact region_acts region (Option.some.inj h)
    | fail | timeout => cases h
  | start =>
    obtain ⟨first, begins, same⟩ := Option.map_eq_some_iff.mp h
    cases same
    exact .begins begins
  | _ => cases c <;> grind [act, Option.isNone_iff_eq_none]

end

namespace ServerEndpoint

variable (server : ServerEndpoint UUID)

/-- `DialContext` comes to wait for a connection of the user. -/
def Dials (user : UUID) : Call UUID Conn → Prop
  | .dial network destination source => network = networkTCP ∧ destination = .uuid user ∧
      server.conns.get user ≠ none ∧ source ≠ .malformed
  | .handle _ _ _ => False

/-- A request of the user to put the connection into its channel. -/
def Inbounds (user : UUID) : Call UUID Conn → Prop
  | .dial _ _ _ => False
  | .handle _ toTunnel request => toTunnel = true ∧ request.command = commandInbound ∧
      server.users.get request.uuid = some user

/-- The call names a user, or a destination, that the server does not know. -/
def Leaks : Call UUID Conn → Prop
  | .dial network destination _ => network = networkTCP ∧
      ∃ user, destination = .uuid user ∧ server.conns.get user = none
  | .handle _ toTunnel request => toTunnel = true ∧ request.command = commandTCP ∧
      request.destinationUUID ≠ server.uuid ∧ server.keys.get request.destinationUUID = none ∧
      ∃ source, server.users.get request.uuid = some source ∧ source ≠ request.destinationUUID

instance (user : UUID) : DecidablePred (server.Inbounds user : Call UUID Conn → Prop)
  | .dial _ _ _ => inferInstanceAs (Decidable False)
  | .handle _ toTunnel request => inferInstanceAs (Decidable (toTunnel = true ∧
      request.command = commandInbound ∧ server.users.get request.uuid = some user))

/-- What the place of a call says about the call. -/
def RegionFits (call : Call UUID Conn) : Region UUID Conn → Prop
  | .dial destination source => call = .dial networkTCP (.uuid destination) source
  | .inbound key conn => ∃ request, call = .handle conn true request ∧
      request.command = commandInbound ∧
      request.uuid = key
  | .tcp source destination => ∃ conn request, call = .handle conn true request ∧
      request.command = commandTCP ∧ request.destinationUUID = destination ∧
      server.users.get request.uuid = some source ∧ source ≠ destination

def Fits (call : Call UUID Conn) : Place UUID Conn → Prop
  | .lock region | .locked region => server.RegionFits call region
  | .full user _ | .send user _ => server.Inbounds user call
  | .loop user | .wait user | .write user _ => server.Dials user call
  | .returned _ left => left = true → server.Leaks call
  | _ => True

variable {server} {call : Call UUID Conn}

theorem begins_fits {c : Choice} {p : Place UUID Conn} (h : server.begins call c = some p) :
    server.Fits call p ∧ p.begun = true := by
  cases call with
  | dial network destination source =>
    cases c <;> cases destination <;> cases source <;>
      grind [begins, dialContext, Fits, RegionFits, Place.begun]
  | handle conn toTunnel request =>
    cases c <;> cases toTunnel <;> grind [begins, received, Fits, RegionFits, Place.begun]

omit [DecidableEq UUID] in
theorem leaks_of_unknown {region : Region UUID Conn} (fits : server.RegionFits call region)
    (unknown : server.Unknown region) : server.Leaks call := by
  cases region with
  | dial destination source =>
    cases fits
    exact ⟨rfl, destination, rfl, unknown⟩
  | inbound => cases unknown
  | tcp source destination =>
    obtain ⟨conn, request, rfl, tcp, rfl, known, other⟩ := fits
    exact ⟨rfl, tcp, unknown.1, unknown.2, source, known, other⟩

omit [DecidableEq UUID] in
theorem inbounds_of_fits {key user : UUID} {conn : Conn}
    (fits : server.RegionFits call (.inbound key conn))
    (known : server.users.get key = some user) : server.Inbounds user call := by
  obtain ⟨request, rfl, inbound, rfl⟩ := fits
  exact ⟨rfl, inbound, known⟩

theorem Fits.acts {τ : Type} {t : τ} {s s' : Shared τ UUID Conn} {p p' : Place UUID Conn}
    (fits : server.Fits call p) (acts : Acts server call t s p s' p') : server.Fits call p' := by
  cases acts with
  | begins first => exact (begins_fits first).1
  | leaves unknown => exact fun _ => leaks_of_unknown fits unknown
  | full known => exact inbounds_of_fits fits known
  | _ => grind [Fits, RegionFits, Dials]

end ServerEndpoint

end

end AiboosterEngine.Tunnel
