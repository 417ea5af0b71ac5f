import AiboosterEngine.Tunnel.Blocking

/-!
# The users of a tunnel

A dialer is given a connection of the user it asks for, never one of another user.
-/

namespace AiboosterEngine.Tunnel
open GoSem Threads ServerEndpoint

section
variable {UUID Conn τ : Type} [DecidableEq UUID] {server : ServerEndpoint UUID}
  {call : τ → Call UUID Conn} {s s' : Threads τ (Shared τ UUID Conn) (Place UUID Conn)} {t : τ}
  {c : Choice} {user : UUID} {conn : Conn}

/-- The connection was in the channel of the user from the start, or a request with the user's key
brought it. -/
def Brought (server : ServerEndpoint UUID) (call : τ → Call UUID Conn)
    (conns : UUID → List Conn) (user : UUID) (conn : Conn) : Prop :=
  conn ∈ conns user ∨ ∃ t request, call t = .handle conn true request ∧
    request.command = commandInbound ∧
    server.users.get request.uuid = some user

/-- What a call has in its hands at a place. -/
def At (server : ServerEndpoint UUID) (call : τ → Call UUID Conn)
    (conns : UUID → List Conn) (t : τ) :
    Place UUID Conn → Prop
  | .full user conn | .send user conn | .write user conn => Brought server call conns user conn
  | .returned (.conn conn) _ => ∃ user, server.Dials user (call t) ∧
      Brought server call conns user conn
  | .unlock (.conn _) => False
  | _ => True

variable {conns : UUID → List Conn} {m m' : Shared τ UUID Conn} {p p' : Place UUID Conn}

theorem begins_at {call : τ → Call UUID Conn} (h : server.begins (call t) c = some p) :
    At server call conns t p := by
  cases kind : call t with
  | dial network destination source =>
    cases c <;> cases destination <;> cases source <;> grind [begins, dialContext, At]
  | handle conn toTunnel request =>
    cases c <;> cases toTunnel <;> grind [begins, received, At]

/-- One step: the channels, and what the call has in its hands. -/
theorem act_brought (acted : act server call t m p c = some (m', p'))
    (fits : server.Fits (call t) p)
    (channels : ∀ u, ∀ conn ∈ m.conns u, Brought server call conns u conn)
    (before : At server call conns t p) :
    (∀ u, ∀ conn ∈ m'.conns u, Brought server call conns u conn) ∧ At server call conns t p' := by
  have push {user : UUID} {conn : Conn} (brought : Brought server call conns user conn) (u : UUID)
    (other : Conn)
      (mem : other ∈ (m.push user conn).conns u) : Brought server call conns u other := by
    grind [Shared.push]
  have pop (user u : UUID) (other : Conn) (mem : other ∈ (m.pop user).conns u) :
      Brought server call conns u other := by
    grind [Shared.pop, List.mem_of_mem_tail]
  cases p with
  | start =>
    obtain ⟨first, begins, same⟩ := Option.map_eq_some_iff.mp acted
    cases same
    exact ⟨channels, begins_at begins⟩
  | locked region =>
    cases region with
    | inbound key conn =>
      obtain ⟨request, handle, inbound, rfl⟩ := fits
      have brought (user : UUID) (known : server.users.get request.uuid = some user) :
          Brought server call conns user conn := .inr ⟨t, request, handle, inbound, known⟩
      cases c <;> grind [act, region, inboundLocked, At]
    | dial destination source => cases c <;> cases source <;>
        grind [act, region, dialLocked, Shared.unlock, At]
    | tcp source destination => cases c <;> grind [act, region, tcpLocked, Shared.unlock, At]
  | wait user =>
    cases c with
    | ok =>
      cases there : m.conns user <;> grind [act, At]
    | _ => grind [act, At]
  | write user conn => cases c <;> grind [act, At, Fits]
  | unlock result => cases result <;> cases c <;> grind [act, At, Shared.unlock]
  | _ => cases c <;> grind [act, At, Shared.unlock]

structure Custody (server : ServerEndpoint UUID) (call : τ → Call UUID Conn)
    (conns : UUID → List Conn)
    (s : Threads τ (Shared τ UUID Conn) (Place UUID Conn)) : Prop extends Inv server call s where
  channels : ∀ u, ∀ conn ∈ s.shared.conns u, Brought server call conns u conn
  places : ∀ t, At server call conns t (s.pc t)

theorem Custody.step [DecidableEq τ] (inv : Custody server call conns s)
    (taken : step (act server call) s (t, c) = some s') : Custody server call conns s' := by
  obtain ⟨acted, others⟩ := step_cases taken
  obtain ⟨channels, own⟩ := act_brought acted (inv.fits t) inv.channels (inv.places t)
  refine ⟨inv.toInv.step taken, channels, fun u => ?_⟩
  by_cases mine : u = t
  · exact mine ▸ own
  · rw [others u mine]
    exact inv.places u

/-- A dialer that is given a connection is given one of the user it asked for. -/
theorem dialed_brought [DecidableEq τ] (within : ∀ u, (conns u).length ≤ server.capacity u)
    (run : Reachable (step (act server call)) (start conns) s) {left : Bool}
    (returned : s.pc t = .returned (.conn conn) left) :
    ∃ user, server.Dials user (call t) ∧ Brought server call conns user conn := by
  have begun : Custody server call conns (start conns) :=
    ⟨start_inv within, fun _ _ mem => .inl mem, fun _ => trivial⟩
  have here := (run.invariant begun fun _ _ _ inv _ taken => inv.step taken).places t
  rw [returned] at here
  exact here

end

theorem dialedOnce_brought : ∃ s,
    Reachable (step (act (newServerEndpoint 0 [⟨1, 2⟩]) dialedOnce)) (start fun _ => []) s ∧
    s.pc true = .returned (.conn ()) false ∧
    ∃ user, (newServerEndpoint 0 [⟨1, 2⟩]).Dials user (dialedOnce true) ∧
      Brought (newServerEndpoint 0 [⟨1, 2⟩]) dialedOnce (fun _ => []) user () := by
  have run : exec (step (act (newServerEndpoint 0 [⟨1, 2⟩]) dialedOnce)) (start fun _ => [])
      (List.replicate 4 (false, .ok) ++ List.replicate 6 (true, .ok)) = some _ := rfl
  exact ⟨_, exec_reachable run, rfl,
    dialed_brought (fun _ => Nat.zero_le _) (exec_reachable run) rfl⟩

end AiboosterEngine.Tunnel
