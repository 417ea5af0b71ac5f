import AiboosterEngine.GoSem.Map
import AiboosterEngine.GoSem.Steps
import AiboosterEngine.GoSem.Text

/-!
# Selectors

`SelectOutbound`, `DialContext` and the handlers of `protocol/group/selector.go`, over
the group of connections of `common/interrupt`. A call is cut where another can come
between: a dial loads the selected outbound and adds its connection to the group
later, `SelectOutbound` swaps the outbound and interrupts the group later.
-/

namespace AiboosterEngine.Selector
open GoSem List

section
variable {Out : Type}

/-- `groupConnItem`, with the outbound of the connection. `began` counts the switches before the
outbound was loaded, `joined` the calls of `Interrupt` before the connection was added. -/
structure Item (Out : Type) where
  isExternal : Bool
  via : Out
  began : Nat
  joined : Nat

/-- `switches` counts the calls of `SelectOutbound` that have swapped the outbound, `interrupts`
those that have interrupted the group too. -/
structure State (Out : Type) where
  outbounds : Map Bytes Out
  selected : Option Out
  dialing : List (Item Out) := []
  connections : List (Item Out) := []
  switches : Nat := 0
  interrupts : Nat := 0

inductive Action where
  | load (isExternal : Bool)
  | dialFails (i : Nat)
  | newConn (i : Nat)
  | close (i : Nat)
  | swap (tag : Bytes)
  | interrupt

variable (interruptExternalConnections : Bool)

/-- What `Interrupt` closes. -/
def Item.interrupted (c : Item Out) : Bool := !c.isExternal || interruptExternalConnections

variable [DecidableEq Out]

def step (s : State Out) : Action → Option (State Out)
  | .load isExternal => s.selected.map fun via =>
    { s with dialing := s.dialing ++ [⟨isExternal, via, s.switches, s.interrupts⟩] }
  | .dialFails i => some { s with dialing := s.dialing.eraseIdx i }
  | .newConn i => s.dialing[i]?.map fun c => { s with
      dialing := s.dialing.eraseIdx i
      connections := s.connections ++ [{ c with joined := s.interrupts }] }
  | .close i => some { s with connections := s.connections.eraseIdx i }
  | .swap tag =>
    match s.outbounds.get tag with
    | none => some s
    | some detour =>
      if s.selected = some detour then some s
      else some { s with selected := some detour, switches := s.switches + 1 }
  | .interrupt =>
    if s.interrupts < s.switches then some { s with
      connections := s.connections.filter (!·.interrupted interruptExternalConnections)
      interrupts := s.interrupts + 1 }
    else none

variable {interruptExternalConnections} {s s' : State Out}

/-- An outbound loaded after the last switch is the selected one; what `Interrupt` closes was added
after the last call of it. -/
structure Inv (interruptExternalConnections : Bool) (s : State Out) : Prop where
  began : ∀ c ∈ s.dialing ++ s.connections,
    c.began ≤ s.switches ∧ (c.began = s.switches → s.selected = some c.via)
  joined : ∀ c ∈ s.connections, c.interrupted interruptExternalConnections = true →
    c.joined = s.interrupts

theorem Inv.step {a : Action} (inv : Inv interruptExternalConnections s)
    (taken : step interruptExternalConnections s a = some s') :
      Inv interruptExternalConnections s' := by
  obtain ⟨began, joined⟩ := inv
  cases a with
  | load isExternal =>
    obtain ⟨via, selected, rfl⟩ := Option.map_eq_some_iff.mp taken
    exact ⟨by grind, joined⟩
  | dialFails i =>
    cases taken
    exact ⟨by grind [mem_of_mem_eraseIdx], joined⟩
  | newConn i =>
    obtain ⟨c, there, rfl⟩ := Option.map_eq_some_iff.mp taken
    have mem := mem_of_getElem? there
    exact ⟨by grind [mem_of_mem_eraseIdx], by grind⟩
  | close i =>
    cases taken
    exact ⟨by grind [mem_of_mem_eraseIdx], fun c mem => joined c (mem_of_mem_eraseIdx mem)⟩
  | swap tag =>
    simp only [Selector.step] at taken
    split at taken
    · cases taken
      exact ⟨began, joined⟩
    · split at taken
      · cases taken
        exact ⟨began, joined⟩
      · cases taken
        -- no outbound has been loaded after this switch
        exact ⟨by grind, joined⟩
  | interrupt =>
    obtain ⟨_, rfl⟩ := of_guard taken
    exact ⟨by grind, by grind⟩

/-- Whenever every switch has come to its `Interrupt`, an open connection that it closes goes
through the selected outbound, or its outbound was loaded before the last switch and the connection
added after the last `Interrupt`. -/
theorem connections_selected {outbounds : Map Bytes Out} {selected : Option Out}
    (run : Reachable (Selector.step interruptExternalConnections) { outbounds, selected } s)
    (quiet : s.interrupts = s.switches) (c : Item Out) (mem : c ∈ s.connections)
    (interrupted : c.interrupted interruptExternalConnections = true) :
    s.selected = some c.via ∨ c.began < s.switches ∧ c.joined = s.switches := by
  have inv : Inv interruptExternalConnections s :=
    run.invariant ⟨by simp, by simp⟩ fun _ _ _ inv _ taken => inv.step taken
  obtain ⟨le, via⟩ := inv.began c (mem_append_right _ mem)
  rcases Nat.lt_or_eq_of_le le with before | last
  · exact .inr ⟨before, quiet ▸ inv.joined c mem interrupted⟩
  · exact .inl (via last)

/-- The dial began with the outbound 0 and ends when all is over. -/
theorem dial_outlives_switch : ∃ s : State Nat,
    Reachable (Selector.step true) { outbounds := .set .empty [98] 1, selected := some 0 } s ∧
      ∃ c ∈ s.connections, s.selected ≠ some c.via ∧ c.began < s.switches ∧
        c.joined = s.switches := by
  have run : exec (Selector.step true) { outbounds := .set .empty [98] 1, selected := some 0 }
      [.load false, .swap [98], .interrupt, .newConn 0] = some _ := rfl
  have outdated := connections_selected (exec_reachable run) rfl _ (.head _) rfl
  exact ⟨_, exec_reachable run, _, .head _, by decide, outdated.resolve_left (by decide)⟩

end

end AiboosterEngine.Selector
