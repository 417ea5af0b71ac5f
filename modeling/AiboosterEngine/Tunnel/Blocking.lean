import AiboosterEngine.Tunnel.Server
import Mathlib.Algebra.BigOperators.Group.Finset.Piecewise

/-!
# What blocks the tunnel server

The calls that always come to an end, whatever their interleaving.
-/

namespace AiboosterEngine.Tunnel

open GoSem List Threads ServerEndpoint Fintype Shared Finset

section
variable {τ UUID Conn : Type} [DecidableEq UUID]
  {server : ServerEndpoint UUID} {call : τ → Call UUID Conn}
  {s s' : Threads τ (Shared τ UUID Conn) (Place UUID Conn)} {t : τ} {c : Choice}

section
variable (s : Shared τ UUID Conn) (user u : UUID)

@[simp] theorem push_conns (conn : Conn) :
    (s.push user conn).conns u = if u = user then s.conns u ++ [conn] else s.conns u := rfl

@[simp] theorem pop_conns :
    (s.pop user).conns u = if u = user then (s.conns u).tail else s.conns u := rfl

theorem push_length (conn : Conn) :
    ((s.push user conn).conns u).length = (s.conns u).length + if u = user then 1 else 0 := by
  rw [push_conns]
  split <;> simp

theorem pop_length :
    ((s.pop user).conns u).length = (s.conns u).length - if u = user then 1 else 0 := by
  rw [pop_conns]
  split <;> simp

end

variable {p p' : Place UUID Conn} {conns : UUID → List Conn} {user : UUID} {conn : Conn}

omit [DecidableEq UUID] in
theorem holds_of_begun (h : p.begun = true) : p.holds = false := by
  cases p with
  | lock => rfl
  | returned result left => simpa [Place.begun, Place.holds] using h
  | _ => cases h

/-- How far a call is from its end, where a connection that is sent adds up to `n`. -/
def Place.rank (n : Nat) : Place UUID Conn → Nat
  | .start => n + 9
  | .lock _ => n + 8
  | .locked _ => n + 7
  | .full _ _ => n + 6
  | .send _ _ => n + 5
  | .write _ _ => 3
  | .loop _ => 2
  | .wait _ | .unlock _ | .route => 1
  | .returned _ _ => 0

/-- What an action does to the channels, and that every other one brings the call nearer to its
end. -/
inductive Moves (server : ServerEndpoint UUID) (s : Shared τ UUID Conn) (p p' : Place UUID Conn) :
    (UUID → List Conn) → Prop
  | none (nearer : ∀ n, p'.rank n < p.rank n) : Moves server s p p' s.conns
  | push {user : UUID} {conn : Conn} (under : p.holds = true) (sent : p' = .unlock .nil)
      (from_ : p = .send user conn ∨ ∃ key, p = .locked (.inbound key conn) ∧
        server.users.get key = some user)
      (room : (s.conns user).length < server.capacity user) :
        Moves server s p p' (s.push user conn).conns
  | pop {user : UUID} (more : s.conns user ≠ [])
      (from_ : (∃ conn, p = .full user conn ∧ p' = .send user conn) ∨
        (∃ conn, p = .wait user ∧ p' = .write user conn)) :
      Moves server s p p' (s.pop user).conns

theorem acts_moves {call : Call UUID Conn} {s s' : Shared τ UUID Conn}
    (h : Acts server call t s p s' p') :
    Moves server s p p' s'.conns := by
  cases h with
  | begins first =>
    have begun := (begins_fits first).2
    exact .none fun n => by cases p' <;> grind [Place.begun, Place.rank]
  | sends known room => exact .push rfl rfl (.inr ⟨_, rfl, known⟩) room
  | makesRoom more => exact .pop more (.inl ⟨_, rfl, rfl⟩)
  | send room => exact .push rfl rfl (.inl rfl) room
  | receive more => exact .pop more (.inr ⟨_, rfl, rfl⟩)
  | @ends p _ free => exact .none fun n => by cases p <;> grind [Place.free, Place.rank]
  | _ => exact .none fun n => by grind [Place.rank]

theorem Moves.length_le {s : Shared τ UUID Conn} (moves : Moves server s p p' conns)
    (outside : p.holds = false) (u : UUID) : (conns u).length ≤ (s.conns u).length := by
  cases moves with
  | none => exact .refl
  | push under =>
    rw [outside] at under
    cases under
  | pop =>
    rw [pop_length]
    exact Nat.sub_le _ _

theorem Moves.within {s : Shared τ UUID Conn} (moves : Moves server s p p' conns)
    (h : ∀ u, (s.conns u).length ≤ server.capacity u) (u : UUID) :
    (conns u).length ≤ server.capacity u := by
  cases moves with
  | none => exact h u
  | @push user conn _ _ _ room =>
    rw [push_length]
    split
    · next same => rw [same]; exact room
    · exact h u
  | pop =>
    rw [pop_length]
    exact Nat.le_trans (Nat.sub_le _ _) (h u)

theorem acts_send {call : Call UUID Conn} {s s' : Shared τ UUID Conn}
    (h : Acts server call t s p s' (.send user conn)) : s.conns user ≠ [] ∧ s' = s.pop user := by
  cases h with
  | begins first => cases (begins_fits first).2
  | makesRoom more => exact ⟨more, rfl⟩

theorem locks : Locks (act server call) mtx Place.holds := by
  constructor
  intro t s p c s' p' h
  cases act_acts h with
  | begins first => exact .inl ⟨rfl, holds_of_begun (begins_fits first).2⟩
  | lock open_ => exact .inr (.inl ⟨open_, rfl, rfl⟩)
  | refuses | dials | routes | unlock => exact .inr (.inr ⟨rfl, rfl, rfl⟩)
  | @ends p _ free =>
    have out : p.holds = false := by cases p <;> first | rfl | cases free
    exact .inl ⟨rfl, out.symm⟩
  | _ => exact .inl ⟨rfl, rfl⟩

/-- The mutex is with the call at a place under it, the place of a call fits the call, and there is
room for what `send` sends. -/
structure Inv (server : ServerEndpoint UUID) (call : τ → Call UUID Conn)
    (s : Threads τ (Shared τ UUID Conn) (Place UUID Conn)) : Prop where
  held : Held mtx Place.holds s
  fits : ∀ t, server.Fits (call t) (s.pc t)
  within : ∀ u, (s.shared.conns u).length ≤ server.capacity u
  room : ∀ t u conn, s.pc t = .send u conn → (s.shared.conns u).length < server.capacity u

omit [DecidableEq UUID] in
theorem Inv.alone (inv : Inv server call s) {u : τ} (mine : (s.pc t).holds = true) (other : u ≠ t) :
    (s.pc u).holds = false := by
  cases h : (s.pc u).holds with
  | false => rfl
  | true => exact absurd (inv.held.unique mine h) other

theorem Inv.step [DecidableEq τ] (inv : Inv server call s)
    (taken : step (act server call) s (t, c) = some s') :
    Inv server call s' := by
  obtain ⟨acted, others⟩ := step_cases taken
  have acts := act_acts acted
  have moves := acts_moves acts
  refine ⟨locks.held inv.held taken, ?_, moves.within inv.within, ?_⟩
  · intro u
    by_cases mine : u = t
    · rw [mine]
      exact (inv.fits t).acts acts
    · rw [others u mine]
      exact inv.fits u
  · intro u user conn here
    by_cases mine : u = t
    · rw [mine] at here
      rw [here] at acts
      obtain ⟨more, popped⟩ := acts_send acts
      have some_ := length_pos_iff.mpr more
      have within := inv.within user
      rw [popped, pop_length, if_pos rfl]
      omega
    · rw [others u mine] at here
      have under : (s.pc u).holds = true := by rw [here]; rfl
      have less := moves.length_le (inv.alone under (Ne.symm mine)) user
      exact Nat.lt_of_le_of_lt less (inv.room u user conn here)

/-- The connections a dialer may have to try. -/
def Call.waiting (s : Shared τ UUID Conn) : Call UUID Conn → Nat
  | .dial _ (.uuid user) _ => (s.conns user).length
  | _ => 0

def load [Fintype τ] (call : τ → Call UUID Conn) (t : τ) (s : Shared τ UUID Conn)
    (p : Place UUID Conn) : Nat :=
  p.rank (3 * card τ) + 3 * (call t).waiting s

omit [DecidableEq UUID] in
theorem waiting_le {s s' : Shared τ UUID Conn} {d : Nat}
    (h : ∀ u, (s'.conns u).length ≤ (s.conns u).length + d) (call : Call UUID Conn) :
    call.waiting s' ≤ call.waiting s + d := by
  unfold Call.waiting
  split
  · exact h _
  · exact Nat.zero_le _

theorem waiting_pop {s s' : Shared τ UUID Conn} {call : Call UUID Conn}
    (dials : server.Dials user call)
    (more : s.conns user ≠ []) (popped : s'.conns = (s.pop user).conns) :
    call.waiting s' + 1 = call.waiting s := by
  have some_ := length_pos_iff.mpr more
  cases call with
  | dial network destination source =>
    obtain ⟨_, rfl, _, _⟩ := dials
    simp only [Call.waiting]
    rw [popped, pop_length, if_pos rfl]
    omega
  | handle => cases dials

/-- A step by which `d` connections are sent, each of which counts once for every dialer. -/
theorem load_drop [DecidableEq τ] [Fintype τ]
    (taken : step (act server call) s (t, c) = some s') {d : Nat}
    (lengths : ∀ u, (s'.shared.conns u).length ≤ (s.shared.conns u).length + d)
    (own : load call t s'.shared (s'.pc t) + 3 * d * card τ + 1 ≤ load call t s.shared (s.pc t)) :
    total (load call) s' < total (load call) s := by
  have others : ∀ u, load call u s'.shared (s.pc u) ≤ load call u s.shared (s.pc u) + 3 * d := by
    intro u
    have more := waiting_le lengths (call u)
    unfold load
    omega
  have less : total (load call) s' + 1 ≤ total (load call) s + 0 :=
    total_step taken others own
  exact less

theorem load_step [DecidableEq τ] [Fintype τ] (inv : Inv server call s)
    (taken : step (act server call) s (t, c) = some s') :
    total (load call) s' < total (load call) s := by
  obtain ⟨acted, _⟩ := step_cases taken
  have moves := acts_moves (act_acts acted)
  have fits := inv.fits t
  generalize changed : s'.shared.conns = conns at moves
  generalize before : s.pc t = p at moves fits
  generalize after : s'.pc t = p' at moves
  cases moves with
  | none nearer =>
    have lengths : ∀ u, (s'.shared.conns u).length ≤ (s.shared.conns u).length + 0 := by
      rw [changed]
      exact fun u => .refl
    have same := waiting_le lengths (call t)
    have less := nearer (3 * card τ)
    apply load_drop taken lengths
    unfold load
    rw [before, after]
    omega
  | @push user conn under sent from_ room =>
    have lengths : ∀ u, (s'.shared.conns u).length ≤ (s.shared.conns u).length + 1 := by
      intro u
      rw [changed, push_length]
      split <;> omega
    have more := waiting_le lengths (call t)
    have far : 3 * card τ + 5 ≤ p.rank (3 * card τ) := by
      obtain rfl | ⟨key, rfl, _⟩ := from_
      · exact .refl
      · simp only [Place.rank]
        omega
    have last : p'.rank (3 * card τ) = 1 := by rw [sent]; rfl
    apply load_drop taken lengths
    unfold load
    rw [before, after]
    omega
  | @pop user more from_ =>
    have lengths : ∀ u, (s'.shared.conns u).length ≤ (s.shared.conns u).length + 0 := by
      intro u
      rw [changed, pop_length]
      omega
    have fewer := waiting_le lengths (call t)
    apply load_drop taken lengths
    unfold load
    obtain ⟨conn, rfl, rfl⟩ | ⟨conn, rfl, rfl⟩ := from_
    · rw [before, after]
      simp only [Place.rank]
      omega
    · have tried := waiting_pop fits more changed
      rw [before, after]
      simp only [Place.rank]
      omega

/-- A connection of the call may still be put into a channel. -/
def Place.pending : Place UUID Conn → Bool
  | .start | .lock _ | .locked _ | .full _ _ | .send _ _ => true
  | _ => false

/-- One for a request of the user that is still to be served. -/
def pending (server : ServerEndpoint UUID) (call : τ → Call UUID Conn) (user : UUID) (t : τ)
    (_ : Shared τ UUID Conn) (p : Place UUID Conn) : Nat :=
  if server.Inbounds user (call t) ∧ p.pending = true then 1 else 0

def inbounds [Fintype τ] (server : ServerEndpoint UUID) (call : τ → Call UUID Conn)
    (user : UUID) : Nat :=
  (univ.filter fun t => server.Inbounds user (call t)).card

/-- No call names an unknown user, and the channel of a user who is dialed has room for all the
connections of the user. -/
structure Harmless [Fintype τ] (server : ServerEndpoint UUID) (call : τ → Call UUID Conn)
    (conns : UUID → List Conn) : Prop where
  known : ∀ t, ¬ server.Leaks (call t)
  dialed : ∀ u, (conns u).length + inbounds server call u ≤ 10 ∨ ∀ t, ¬ server.Dials u (call t)

/-- What also holds in every interleaving of such calls: a call that has found the channel full can
receive from it. -/
structure Safe [Fintype τ] (server : ServerEndpoint UUID) (call : τ → Call UUID Conn)
    (conns : UUID → List Conn)
    (s : Threads τ (Shared τ UUID Conn) (Place UUID Conn)) : Prop extends Inv server call s where
  count : ∀ u, total (pending server call u) s + (s.shared.conns u).length ≤
    (conns u).length + inbounds server call u
  full : ∀ t u conn, s.pc t = .full u conn → (∀ t, ¬ server.Dials u (call t)) ∧
    s.shared.conns u ≠ []

theorem pending_le_of_acts {s s' : Shared τ UUID Conn} (h : Acts server (call t) t s p s' p')
    (user : UUID) :
    pending server call user t s' p' ≤ pending server call user t s p := by
  have later : p'.pending = true → p.pending = true := by
    intro still
    cases h <;> first | rfl | cases still
  unfold pending
  split
  · next h => rw [if_pos ⟨h.1, later h.2⟩]
  · exact Nat.zero_le _

theorem pending_eq_one {s : Shared τ UUID Conn} (inbound : server.Inbounds user (call t))
    (still : p.pending = true) : pending server call user t s p = 1 :=
  if_pos ⟨inbound, still⟩

/-- A connection is put into a channel by a request that was still to be served. -/
theorem pending_acts {s s' : Shared τ UUID Conn} (h : Acts server (call t) t s p s' p')
    (fits : server.Fits (call t) p) (user : UUID) :
    pending server call user t s' p' + (s'.conns user).length ≤
      pending server call user t s p + (s.conns user).length := by
  have fewer := pending_le_of_acts h user
  have moves := acts_moves h
  generalize changed : s'.conns = conns at moves
  cases moves with
  | none => exact Nat.add_le_add_right fewer _
  | @push sentTo conn under sent from_ room =>
    rw [push_length]
    split
    · next same =>
      have served : pending server call user t s' p' = 0 := by
        rw [sent]
        simp [pending, Place.pending]
      have mine : pending server call user t s p = 1 := by
        rw [same]
        obtain rfl | ⟨key, rfl, known⟩ := from_
        · exact pending_eq_one fits rfl
        · exact pending_eq_one (inbounds_of_fits fits known) rfl
      omega
    · omega
  | pop =>
    rw [pop_length]
    omega

theorem acts_full {call : Call UUID Conn} {s s' : Shared τ UUID Conn}
    (h : Acts server call t s p s' (.full user conn)) :
      s' = s ∧ ∃ key, p = .locked (.inbound key conn) ∧
      server.users.get key = some user ∧ server.capacity user ≤ (s.conns user).length := by
  cases h with
  | begins first => cases (begins_fits first).2
  | full known noRoom => exact ⟨rfl, _, rfl, known, noRoom⟩

/-- A receive from the channel of a user who is not dialed is made under the mutex. -/
theorem Moves.nonempty {call : Call UUID Conn} {s : Shared τ UUID Conn}
    (moves : Moves server s p p' conns)
    (outside : p.holds = false) (fits : server.Fits call p) (notDialed : ¬ server.Dials user call)
    (more : s.conns user ≠ []) : conns user ≠ [] := by
  cases moves with
  | none => exact more
  | push under =>
    rw [outside] at under
    cases under
  | @pop from_ _ place =>
    have other : user ≠ from_ := by
      rintro rfl
      obtain ⟨conn, rfl, _⟩ | ⟨conn, rfl, _⟩ := place
      · cases outside
      · exact notDialed fits
    rw [pop_conns, if_neg other]
    exact more

def start (conns : UUID → List Conn) : Threads τ (Shared τ UUID Conn) (Place UUID Conn) :=
  ⟨{ conns }, fun _ => .start⟩

omit [DecidableEq UUID] in
theorem start_inv (within : ∀ u, (conns u).length ≤ server.capacity u) :
    Inv server call (start conns) :=
  ⟨fun _ => by simp [start, Place.holds], fun _ => trivial, within, fun _ _ _ => nofun⟩

theorem start_safe [Fintype τ] (within : ∀ u, (conns u).length ≤ server.capacity u) :
    Safe server call conns (start conns) := by
  refine ⟨start_inv within, fun u => ?_, fun _ _ _ => nofun⟩
  have all : total (pending server call u) (start conns) = inbounds server call u := by
    rw [inbounds, card_filter]
    simp [total, pending, start, Place.pending]
  rw [all, Nat.add_comm]
  exact .refl

theorem begins_of_leaks {call : Call UUID Conn} (h : server.Leaks call) :
    ∃ region, server.begins call .ok = some (.lock region) ∧ server.Unknown region := by
  cases call with
  | dial network destination source =>
    obtain ⟨rfl, user, rfl, unknown⟩ := h
    exact ⟨.dial user source, rfl, unknown⟩
  | handle conn toTunnel request =>
    obtain ⟨rfl, tcp, other, unknown, source, known, noLoop⟩ := h
    refine ⟨.tcp source request.destinationUUID, ?_, other, unknown⟩
    simp [begins, received, tcp, known, noLoop, commandTCP, commandInbound]

theorem begins_of_inbounds {call : Call UUID Conn} (h : server.Inbounds user call) :
    ∃ key conn, server.begins call .ok = some (.lock (.inbound key conn)) ∧
      server.users.get key = some user := by
  cases call with
  | dial => cases h
  | handle conn toTunnel request =>
    obtain ⟨rfl, inbound, known⟩ := h
    refine ⟨request.uuid, conn, ?_, known⟩
    simp [begins, received, inbound]

theorem begins_of_dials {call : Call UUID Conn} (h : server.Dials user call) :
    ∃ source, server.begins call .ok = some (.lock (.dial user source)) ∧
      ∀ s : Shared τ UUID Conn, server.dialLocked s user source = (s.unlock, .loop user) := by
  cases call with
  | dial network destination source =>
    obtain ⟨rfl, rfl, known, valid⟩ := h
    refine ⟨source, rfl, fun s => ?_⟩
    obtain ⟨n, known⟩ := Option.ne_none_iff_exists'.mp known
    unfold dialLocked
    rw [known]
    cases source with
    | malformed => exact absurd rfl valid
    | unset => rfl
    | uuid => rfl
  | handle => cases h

theorem region_of_unknown (s : Shared τ UUID Conn) {region : Region UUID Conn}
    (h : server.Unknown region) :
    ∃ result, server.region s region = (s, .returned result true) := by
  cases region with
  | dial destination source =>
    have unknown : server.conns.get destination = none := h
    refine ⟨.err (.userNotFound destination), ?_⟩
    simp only [region, dialLocked, unknown]
  | inbound => cases h
  | tcp source destination => exact ⟨.err (.userNotFound source), if_pos h⟩

omit [DecidableEq UUID] in
theorem known_of_dials {call : Call UUID Conn} (h : server.Dials user call) :
    server.conns.get user ≠ none := by
  cases call with
  | dial => exact h.2.2.1
  | handle => cases h

omit [DecidableEq UUID] in
theorem Inbounds.not_dials {call : Call UUID Conn} (h : server.Inbounds user call) :
    ¬ server.Dials user call := by
  cases call with
  | dial => cases h
  | handle => exact id

section
variable {s : Shared τ UUID Conn} (open_ : s.mtx = none)
include open_

/-- A request of a user whose channel has room is served. -/
theorem alone_served (inbound : server.Inbounds user (call t))
    (room : (s.conns user).length < server.capacity user) :
    ∃ conn, alone (act server call) t (s, .start) [.ok, .ok, .ok, .ok] =
      some ((s.push user conn).unlock, .returned .nil false) := by
  obtain ⟨key, conn, first, known⟩ := begins_of_inbounds inbound
  refine ⟨conn, ?_⟩
  simp [alone, act, first, open_, region, inboundLocked, known, room,
    push, unlock]

theorem alone_full (inbound : server.Inbounds user (call t))
    (noRoom : server.capacity user ≤ (s.conns user).length) :
    ∃ conn, alone (act server call) t (s, .start) [.ok, .ok, .ok] =
      some ({ s with mtx := some t }, .full user conn) := by
  obtain ⟨key, conn, first, known⟩ := begins_of_inbounds inbound
  refine ⟨conn, ?_⟩
  simp [alone, act, first, open_, region, inboundLocked, known,
    Nat.not_lt.mpr noRoom]

/-- A dialer of a known user gives the mutex back and waits for a connection. -/
theorem alone_waiting (dials : server.Dials user (call t)) :
    alone (act server call) t (s, .start) [.ok, .ok, .ok, .ok] = some (s.unlock, .wait user) := by
  obtain ⟨source, first, looks⟩ := begins_of_dials (τ := τ) dials
  simp [alone, act, first, open_, region, looks, unlock]

end

/-- A dialer whose writes fail takes everything out of the channel, whoever has the mutex. -/
theorem alone_drained (s : Shared τ UUID Conn) (user : UUID) :
    ∃ cs s', alone (act server call) t (s, .wait user) cs =
      some (s', .returned (.err .contextDone) false) ∧
      s'.conns user = [] := by
  generalize left : s.conns user = conns
  induction conns generalizing s with
  | nil => exact ⟨[.timeout], s, rfl, left⟩
  | cons conn conns ih =>
    -- One connection is received, its write fails, and the dialer waits again.
    obtain ⟨cs, s', ran, empty⟩ := ih (s.pop user) (by simp [left])
    refine ⟨.ok :: .fail :: .ok :: cs, s', ?_, empty⟩
    simp [alone, act, left, ran]

variable [DecidableEq τ]

theorem Safe.step [Fintype τ] (made : server.Made) (harmless : Harmless server call conns)
    (safe : Safe server call conns s) (taken : step (act server call) s (t, c) = some s') :
    Safe server call conns s' := by
  obtain ⟨acted, others⟩ := step_cases taken
  have acts := act_acts acted
  refine ⟨safe.toInv.step taken, fun u => ?_, fun u user conn here => ?_⟩
  · have own := pending_acts acts (safe.fits t) u
    exact Nat.le_trans (total_step taken (d := 0) (fun _ => .refl) (by omega)) (safe.count u)
  · by_cases mine : u = t
    · rw [mine] at here
      rw [here] at acts
      obtain ⟨same, key, before, known, noRoom⟩ := acts_full acts
      have ten : server.capacity user = 10 := by rw [capacity, made.channel key user known]; rfl
      have notEmpty : s'.shared.conns user ≠ [] := by grind
      obtain room | notDialed := harmless.dialed user
      · -- The request is still counted, so the channel cannot have been full.
        have fits := safe.fits t
        rw [before] at fits
        have counted : pending server call user t s.shared (s.pc t) = 1 := by
          rw [before]
          exact pending_eq_one (inbounds_of_fits fits known) rfl
        have one := le_total (f := pending server call user) (s := s) t
        have count := safe.count user
        omega
      · exact ⟨notDialed, notEmpty⟩
    · rw [others u mine] at here
      obtain ⟨notDialed, more⟩ := safe.full u user conn here
      have under : (s.pc u).holds = true := by rw [here]; rfl
      exact ⟨notDialed, (acts_moves acts).nonempty
        (safe.toInv.alone under (Ne.symm mine)) (safe.fits t) (notDialed t) more⟩

/-- A call that has begun, with its request read, and has not returned. -/
def Place.inProgress : Place UUID Conn → Bool
  | .start | .returned _ _ => false
  | _ => true

/-- No call in progress can go on. -/
def Stuck (server : ServerEndpoint UUID) (call : τ → Call UUID Conn)
    (s : Threads τ (Shared τ UUID Conn) (Place UUID Conn)) : Prop :=
  ∀ t c, (s.pc t).inProgress = true → step (act server call) s (t, c) = none

def Quiet (s : Threads τ (Shared τ UUID Conn) (Place UUID Conn)) : Prop :=
  ∀ t, (s.pc t).inProgress = false

/-- Where no call can go on all have returned, and the mutex is free when no call is in progress. -/
structure Unblocked (server : ServerEndpoint UUID) (call : τ → Call UUID Conn)
    (s : Threads τ (Shared τ UUID Conn) (Place UUID Conn)) : Prop where
  ends : Stuck server call s → Quiet s
  free : Quiet s → s.shared.mtx = none

theorem not_stuck {next : Shared τ UUID Conn × Place UUID Conn} (c : Choice) (here : s.pc t = p)
    (busy : p.inProgress = true) (acted : act server call t s.shared p c = some next) :
      ¬ Stuck server call s := by
  intro stuck
  subst here
  have refused := stuck t c busy
  rw [step, acted] at refused
  cases refused

theorem Safe.goes_on [Fintype τ] (safe : Safe server call conns s)
    (busy : (s.pc t).inProgress = true)
    (under : (s.pc t).holds = true) : ¬ Stuck server call s := by
  cases here : s.pc t with
  | locked region | unlock result => exact not_stuck .ok here rfl rfl
  | full user conn =>
    have more := (safe.full t user conn here).2
    exact not_stuck .ok here rfl (if_neg more)
  | send user conn =>
    have room := safe.room t user conn here
    exact not_stuck .ok here rfl (if_pos room)
  | returned => rw [here] at busy; cases busy
  | _ => rw [here] at under; cases under

theorem Safe.unblocked [Fintype τ] (harmless : Harmless server call conns)
    (safe : Safe server call conns s) :
    Unblocked server call s := by
  -- A call that has the mutex is in progress, as none leaks it.
  have progress : ∀ t, s.shared.mtx = some t → (s.pc t).inProgress = true := by
    intro t holder
    have under := (safe.held t).mpr holder
    have fits := safe.fits t
    cases here : s.pc t with
    | start => rw [here] at under; cases under
    | returned result left =>
      rw [here] at under fits
      exact absurd (fits under) (harmless.known t)
    | _ => rfl
  constructor
  · intro stuck t
    cases busy : (s.pc t).inProgress with
    | false => rfl
    | true =>
      exfalso
      have open_ : s.shared.mtx = none := by
        cases holder : s.shared.mtx with
        | none => rfl
        | some u => exact absurd stuck (safe.goes_on (progress u holder) ((safe.held u).mpr holder))
      cases here : s.pc t with
      | start | returned => rw [here] at busy; cases busy
      | lock region => exact not_stuck .ok here rfl (if_pos (by rw [open_]; rfl)) stuck
      | loop | wait => exact not_stuck .timeout here rfl rfl stuck
      | write | route => exact not_stuck .ok here rfl rfl stuck
      | _ => exact safe.goes_on busy (by rw [here]; rfl) stuck
  · intro quiet
    cases holder : s.shared.mtx with
    | none => rfl
    | some t =>
      have busy := progress t holder
      rw [quiet t] at busy
      cases busy

variable {s₀ : Threads τ (Shared τ UUID Conn) (Place UUID Conn)}

theorem blocked_of_leaks (leaks : server.Leaks (call t)) :
    ∃ s, Reachable (step (act server call)) (start conns) s ∧ ¬ Unblocked server call s := by
  obtain ⟨region, first, unknown⟩ := begins_of_leaks leaks
  obtain ⟨result, leaves⟩ := region_of_unknown (⟨some t, conns⟩ : Shared τ UUID Conn) unknown
  have ran : alone (act server call) t ((start conns).shared, .start) [.ok, .ok, .ok] =
      some (⟨some t, conns⟩, .returned result true) := by
    simp [alone, start, act, first, leaves]
  obtain ⟨s, reached, shared, place, others⟩ := reachable_alone _ .start rfl ran
  refine ⟨s, reached, fun unblocked => ?_⟩
  have quiet : Quiet s := by
    intro u
    by_cases mine : u = t
    · rw [mine, place]
      rfl
    · rw [others u mine]
      rfl
  have free := unblocked.free quiet
  rw [shared] at free
  cases free

/-- Requests of the user one after another, until the channel is full. -/
theorem reach_filled {ts : List τ} (nodup : ts.Nodup)
    (inbound : ∀ t ∈ ts, server.Inbounds user (call t))
    (reached : Reachable (step (act server call)) s₀ s) (begins : ∀ t ∈ ts, s.pc t = .start)
    (open_ : s.shared.mtx = none)
    (room : (s.shared.conns user).length + ts.length ≤ server.capacity user) :
    ∃ s', Reachable (step (act server call)) s₀ s' ∧ s'.shared.mtx = none ∧
      (s'.shared.conns user).length = (s.shared.conns user).length + ts.length ∧
      (∀ t ∈ ts, (s'.pc t).inProgress = false) ∧ ∀ t, t ∉ ts → s'.pc t = s.pc t := by
  induction ts generalizing s with
  | nil => exact ⟨s, reached, open_, rfl, nofun, fun _ _ => rfl⟩
  | cons t ts ih =>
    obtain ⟨notIn, nodup⟩ := nodup_cons.mp nodup
    rw [length_cons] at room
    obtain ⟨conn, ran⟩ := alone_served open_ (inbound t mem_cons_self) (by omega)
    obtain ⟨s₁, reached, served, ended, others⟩ :=
      reachable_alone _ reached (begins t mem_cons_self) ran
    have length : (s₁.shared.conns user).length = (s.shared.conns user).length + 1 := by
      rw [served]
      simp [unlock]
    have other : ∀ u ∈ ts, u ≠ t := fun u member same => notIn (same ▸ member)
    have rest : ∀ u ∈ ts, s₁.pc u = .start := fun u member =>
      (others u (other u member)).trans (begins u (mem_cons_of_mem t member))
    obtain ⟨s₂, reached, open_, filled, ended', others'⟩ := ih nodup
      (fun u member => inbound u (mem_cons_of_mem t member)) reached rest
        (by rw [served]; rfl) (by omega)
    refine ⟨s₂, reached, open_, by rw [filled, length, length_cons]; omega, ?_, ?_⟩
    · grind [Place.inProgress]
    · grind

/-- Nothing goes on when the only call in progress waits for the channel it found full. -/
theorem blocked_of_drained (place : s.pc t = .full user conn) (drained : s.shared.conns user = [])
    (others : ∀ u, u ≠ t → (s.pc u).inProgress = false) : ¬ Unblocked server call s := by
  intro unblocked
  have stuck : Stuck server call s := by
    intro u c busy
    by_cases mine : u = t
    · rw [mine, step, place]
      cases c with
      | ok => simp [act, drained]
      | fail => rfl
      | timeout => rfl
    · rw [others u mine] at busy
      cases busy
  have quiet := unblocked.ends stuck t
  rw [place] at quiet
  cases quiet

/-- The channel is filled, one more request finds it full, and a dialer empties it before the
request receives. -/
theorem blocked_of_dialed [Fintype τ] (made : server.Made)
    (within : (conns user).length ≤ server.capacity user)
    (many : 10 < (conns user).length + inbounds server call user)
    (dials : server.Dials user (call t)) :
    ∃ s, Reachable (step (act server call)) (start conns) s ∧ ¬ Unblocked server call s := by
  have ten : server.capacity user = 10 := by
    obtain ⟨n, known⟩ := Option.ne_none_iff_exists'.mp (known_of_dials dials)
    rw [capacity, known, made.capacity user n known]
    rfl
  obtain ⟨chosen, among, enough⟩ := exists_subset_card_eq (n := 11 - (conns user).length)
    (s := univ.filter fun t => server.Inbounds user (call t)) (by unfold inbounds at many; omega)
  have inbound : ∀ u ∈ chosen.toList, server.Inbounds user (call u) := fun u member =>
    (mem_filter.mp (among (mem_toList.mp member))).2
  have nodup := chosen.nodup_toList
  have length := chosen.length_toList
  rw [enough] at length
  generalize chosen.toList = ts at inbound nodup length
  cases ts with
  | nil =>
    rw [length_nil] at length
    omega
  | cons last ts =>
    obtain ⟨notIn, nodup⟩ := nodup_cons.mp nodup
    rw [length_cons] at length
    have lastInbound := inbound last mem_cons_self
    have dialer : ∀ u ∈ last :: ts, u ≠ t := fun u member same =>
      Inbounds.not_dials (inbound u member) (same ▸ dials)
    obtain ⟨s₁, reached, shared₁, waits, others₁⟩ := reachable_alone (s := start conns) _ .start rfl
      (alone_waiting rfl dials)
    have begins : ∀ u ∈ ts, s₁.pc u = .start := fun u member =>
      others₁ u (dialer u (mem_cons_of_mem last member))
    obtain ⟨s₂, reached, open₂, filled, ended, others₂⟩ := reach_filled nodup
      (fun u member => inbound u (mem_cons_of_mem last member)) reached begins
        (by rw [shared₁]; rfl)
      (by rw [shared₁, ten]; show (conns user).length + _ ≤ 10; omega)
    have noRoom : server.capacity user ≤ (s₂.shared.conns user).length := by
      rw [filled, shared₁, ten]
      show 10 ≤ (conns user).length + _
      omega
    have starts : s₂.pc last = .start := by
      rw [others₂ last notIn, others₁ last (dialer last mem_cons_self)]
      rfl
    obtain ⟨conn, ran⟩ := alone_full open₂ lastInbound noRoom
    obtain ⟨s₃, reached, _, finds, others₃⟩ := reachable_alone _ reached starts ran
    have waits₃ : s₃.pc t = .wait user := by grind
    obtain ⟨_, _, ran, drained⟩ := alone_drained s₃.shared user
    obtain ⟨s₄, reached, rfl, gaveUp, others₄⟩ := reachable_alone _ reached waits₃ ran
    have still : s₄.pc last = .full user conn := by
      rw [others₄ last (dialer last mem_cons_self), finds]
    refine ⟨s₄, reached, blocked_of_drained still drained fun u other => ?_⟩
    by_cases dialing : u = t
    · rw [dialing, gaveUp]
      rfl
    · rw [others₄ u dialing, others₃ u other]
      by_cases served : u ∈ ts
      · exact ended u served
      · rw [others₂ u served, others₁ u dialing]
        rfl

/-- The runs of a finite set of calls are finite, and all of them end with every call that has
begun returned and leave the mutex free, exactly when no call names an unknown user and no user is
dialed whose connections may fill the channel. -/
theorem unblocked_iff [Fintype τ] (uuid : UUID) (users : List (User UUID))
    (call : τ → Call UUID Conn)
    (conns : UUID → List Conn)
    (within : ∀ u, (conns u).length ≤ (newServerEndpoint uuid users).capacity u) :
    (∃ bound, ∀ as s, exec (step (act (newServerEndpoint uuid users) call))
      (start conns) as = some s →
        as.length ≤ bound) ∧
      ((∀ s, Reachable (step (act (newServerEndpoint uuid users) call)) (start conns) s →
          Unblocked (newServerEndpoint uuid users) call s) ↔
        Harmless (newServerEndpoint uuid users) call conns) := by
  have made := newServerEndpoint_made uuid users
  generalize newServerEndpoint uuid users = server at within made
  refine ⟨⟨total (load call) (start conns), fun as s run => ?_⟩, ?_, ?_⟩
  · exact exec_length_le run (start_inv within) (fun _ _ _ inv taken => inv.step taken)
      (fun _ _ _ _ inv taken => load_step inv taken)
  · intro unblocked
    constructor
    · intro t leaks
      obtain ⟨s, reached, blocked⟩ := blocked_of_leaks leaks
      exact blocked (unblocked s reached)
    · intro u
      by_cases room : (conns u).length + inbounds server call u ≤ 10
      · exact .inl room
      · right
        intro t dials
        obtain ⟨s, reached, blocked⟩ :=
          blocked_of_dialed made (within u) (Nat.lt_of_not_le room) dials
        exact blocked (unblocked s reached)
  · intro harmless s reached
    have safe : Safe server call conns s := reached.invariant (start_safe within)
      fun _ _ _ safe _ taken => safe.step made harmless taken
    exact safe.unblocked harmless

end

def dialedOnce : Bool → Call Nat Unit
  | false => .handle () true ⟨1, commandInbound, 2⟩
  | true => .dial networkTCP (.uuid 2) .unset

theorem dialedOnce_harmless : Harmless (newServerEndpoint 0 [⟨1, 2⟩]) dialedOnce fun _ => [] := by
  refine ⟨?_, fun u => .inl ?_⟩
  · rintro (_ | _) leaks
    · obtain ⟨_, other, _⟩ := leaks
      cases other
    · obtain ⟨_, user, ⟨⟩, unknown⟩ := leaks
      cases unknown
  · have few : inbounds (newServerEndpoint 0 [⟨1, 2⟩]) dialedOnce u ≤ 2 := card_le_univ _
    exact Nat.le_trans (Nat.add_le_add_left few 0) (by decide)

theorem dialedOnce_unblocked :
    (newServerEndpoint 0 [⟨1, 2⟩]).capacity 2 = 10 ∧
      ∀ s, Reachable (step (act (newServerEndpoint 0 [⟨1, 2⟩]) dialedOnce)) (start fun _ => []) s →
        Unblocked (newServerEndpoint 0 [⟨1, 2⟩]) dialedOnce s :=
  ⟨rfl, (unblocked_iff 0 [⟨1, 2⟩] dialedOnce (fun _ => []) fun _ => Nat.zero_le _).2.mpr
    dialedOnce_harmless⟩

def strayRequest : Unit → Call Nat Unit := fun _ => .handle () true ⟨1, commandTCP, 3⟩

/-- `connHandler` has returned, no call is in progress, and the mutex stays locked. -/
theorem strayRequest_leaks :
    ∃ s, exec (step (act (newServerEndpoint 0 [⟨1, 2⟩]) strayRequest)) (start fun _ => [])
        [((), .ok), ((), .ok), ((), .ok)] = some s ∧
      s.pc () = .returned (.err (.userNotFound 2)) true ∧ s.shared.mtx = some () :=
  ⟨_, rfl, rfl, rfl⟩

end AiboosterEngine.Tunnel
