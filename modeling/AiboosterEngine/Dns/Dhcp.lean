import Mathlib.Data.List.Basic

/-!
# Servers from DHCP

`fetch`, `Reset`, `updateServers` and `interfaceUpdated` of `dns/transport/dhcp/dhcp.go`,
one call after another. What an update meets (the interface, the reply to the DHCP
query, the time they take) is given with the call. Times are in nanoseconds.
-/

namespace AiboosterEngine.Dns.Dhcp

open List

/-- `dhcp: prepare interface`, an error of the exchange as it is, and
`dhcp: empty DNS servers response`. -/
inductive Error (ε : Type) where
  | prepareInterface (cause : ε) | exchange (cause : ε) | emptyServers
  deriving DecidableEq, Repr

/-- `iface` is the error of `fetchInterface`, if it has one, and `reply` is how `fetchServers0`
ends. -/
structure Network (ε α : Type) where
  iface : Option ε := none
  reply : Except ε (List α)
  took : Nat := 0

/-- `updatedAt` is `none` for the zero time. -/
structure State (ε α : Type) where
  now : Nat := 0
  updatedAt : Option Nat := none
  lastError : Option (Error ε) := none
  servers : List α := []

open State

/-- What `fetch` returns, and the reply to the DHCP query if one was sent. -/
structure Output (ε α : Type) where
  returned : Option (List α × Option (Error ε)) := none
  reply : Option (Except ε (List α)) := none

/-- `C.DHCPTTL`, an hour. -/
def dhcpTTL : Nat := 3600000000000

section
variable {ε α : Type}

namespace State

variable (s : State ε α)

/-- Time passes. -/
def wait (n : Nat) : State ε α := { s with now := s.now + n }

/-- `time.Since(t.updatedAt) < C.DHCPTTL`. -/
def fresh : Bool :=
  match s.updatedAt with
  | none => false
  | some t => s.now - t < dhcpTTL

/-- The new state, the reply if a query was sent, and the error. -/
def updateServers (net : Network ε α) : State ε α × Option (Except ε (List α)) × Option (Error ε) :=
  match net.iface with
  | some e => (s, none, some (.prepareInterface e))
  | none =>
    let s := { s with now := s.now + net.took, updatedAt := some (s.now + net.took) }
    match net.reply with
    | .error e => ({ s with lastError := some (.exchange e) }, some net.reply, some (.exchange e))
    | .ok [] =>
        ({ s with servers := [], lastError := some .emptyServers }, some net.reply,
        some .emptyServers)
    | .ok servers => ({ s with servers := servers, lastError := none }, some net.reply, none)

/-- `pause` is the wait for the lock between the two looks at the clock. -/
def fetch (pause : Nat) (net : Network ε α) : Output ε α × State ε α :=
  match s.lastError with
  | some e => ({ returned := some ([], some e) }, s)
  | none =>
    if s.fresh then ({ returned := some (s.servers, none) }, s)
    else
      if (s.wait pause).fresh then ({ returned := some (s.servers, none) }, s.wait pause)
      else
        let (updated, reply, err) := (s.wait pause).updateServers net
        let servers := if err.isSome then s.servers else updated.servers
        ({ returned := some (servers, err), reply := reply }, updated)

def reset : State ε α := { s with updatedAt := none, servers := [] }

end State

inductive Op (ε α : Type) where
  | fetch (pause : Nat) (net : Network ε α)
  | reset
  | interfaceUpdated (net : Network ε α)

def Op.isReset : Op ε α → Bool
  | reset => true
  | fetch _ _ | interfaceUpdated _ => false

/-- A call, `wait` after the end of the one before. -/
structure Event (ε α : Type) where
  wait : Nat := 0
  op : Op ε α

def State.step (s : State ε α) (e : Event ε α) : Output ε α × State ε α :=
  match e.op with
  | .fetch pause net => (s.wait e.wait).fetch pause net
  | .reset => ({}, (s.wait e.wait).reset)
  | .interfaceUpdated net =>
    ({ reply := ((s.wait e.wait).updateServers net).2.1 }, ((s.wait e.wait).updateServers net).1)

def State.run : State ε α → List (Event ε α) → List (Output ε α) × State ε α
  | s, [] => ([], s)
  | s, e :: es => ((s.step e).1 :: ((s.step e).2.run es).1, ((s.step e).2.run es).2)

/-- An error, or no servers. -/
def failed : Except ε (List α) → Bool
  | .error _ => true
  | .ok servers => servers.isEmpty

/-- The last reply of the history is a failure. -/
def LastFailed (outputs : List (Output ε α)) : Prop :=
  ∃ reply, (outputs.filterMap Output.reply).getLast? = some reply ∧ failed reply = true

section
variable (s : State ε α) (n : Nat)

@[simp] theorem wait_now : (s.wait n).now = s.now + n := rfl
@[simp] theorem wait_updatedAt : (s.wait n).updatedAt = s.updatedAt := rfl
@[simp] theorem wait_lastError : (s.wait n).lastError = s.lastError := rfl

theorem wait_wait (m : Nat) : (s.wait n).wait m = s.wait (n + m) := by
  simp [wait, Nat.add_assoc]

end

section
variable (s : State ε α)

/-- An update that sends a query keeps the failure of its reply, and one that does not keeps all. -/
theorem updateServers_cases (net : Network ε α) :
    (∃ e, net.iface = some e ∧ s.updateServers net = (s, none, some (.prepareInterface e))) ∨
    (net.iface = none ∧ (s.updateServers net).2.1 = some net.reply ∧
      (s.updateServers net).1.lastError.isSome = failed net.reply ∧
      (s.updateServers net).1.updatedAt = some (s.updateServers net).1.now ∧
      (s.updateServers net).2.2 = (s.updateServers net).1.lastError ∧
      ∀ servers, net.reply = .ok servers → (s.updateServers net).1.servers = servers) := by
  unfold updateServers
  cases net.iface with
  | some e => exact .inl ⟨e, rfl, rfl⟩
  | none => grind [failed]

/-- The ways a fetch ends: with the error that is kept, with the servers that are kept, or with an
update. -/
theorem fetch_cases (pause : Nat) (net : Network ε α) :
    (∃ e, s.lastError = some e ∧ s.fetch pause net = ({ returned := some ([], some e) }, s)) ∨
    (s.lastError = none ∧ s.fresh = true ∧
      s.fetch pause net = ({ returned := some (s.servers, none) }, s)) ∨
    (s.lastError = none ∧ (s.wait pause).fresh = true ∧
      s.fetch pause net = ({ returned := some (s.servers, none) }, s.wait pause)) ∨
    (s.lastError = none ∧ s.fresh = false ∧
      (s.fetch pause net).2 = ((s.wait pause).updateServers net).1 ∧
      (s.fetch pause net).1.reply = ((s.wait pause).updateServers net).2.1 ∧
      (((s.wait pause).updateServers net).2.2 = none →
        (s.fetch pause net).1.returned =
          some (((s.wait pause).updateServers net).1.servers, none))) := by
  unfold fetch
  cases s.lastError with
  | some e => exact .inl ⟨e, rfl, rfl⟩
  | none => grind

/-- A call that sends nothing lets time pass and leaves the rest, or resets it; one that does keeps
the failure of the reply and the time. -/
theorem step_cases (e : Event ε α) :
    (∃ n, (s.step e).1.reply = none ∧ (s.step e).2 = if e.op.isReset then (s.wait n).reset
      else s.wait n) ∨
    ∃ reply, (s.step e).1.reply = some reply ∧ (s.step e).2.lastError.isSome = failed reply ∧
      (s.step e).2.updatedAt = some (s.step e).2.now := by
  unfold step
  cases e.op with
  | reset => exact .inl ⟨e.wait, rfl, rfl⟩
  | interfaceUpdated net =>
    obtain ⟨_, _, same⟩ | ⟨_, sent, kept, stamp, _⟩ := updateServers_cases (s.wait e.wait) net
    · exact .inl ⟨e.wait, by simp [same, Op.isReset]⟩
    · exact .inr ⟨_, sent, kept, stamp⟩
  | fetch pause net =>
    obtain ⟨_, _, same⟩ | ⟨_, _, same⟩ | ⟨_, _, same⟩ | ⟨_, _, state, reply, _⟩ :=
      fetch_cases (s.wait e.wait) pause net
    · exact .inl ⟨e.wait, by simp [same, Op.isReset]⟩
    · exact .inl ⟨e.wait, by simp [same, Op.isReset]⟩
    · exact .inl ⟨e.wait + pause, by simp [same, wait_wait, Op.isReset]⟩
    · rw [wait_wait] at state reply
      dsimp only
      rw [state, reply]
      obtain ⟨_, _, same⟩ | ⟨_, sent, kept, stamp, _⟩ :=
        updateServers_cases (s.wait (e.wait + pause)) net
      · exact .inl ⟨e.wait + pause, by simp [same, Op.isReset]⟩
      · exact .inr ⟨_, sent, kept, stamp⟩

theorem step_lastError (e : Event ε α) :
    (s.step e).2.lastError.isSome = match (s.step e).1.reply with
      | some reply => failed reply
      | none => s.lastError.isSome := by
  obtain ⟨n, silent, state⟩ | ⟨reply, sent, kept, _⟩ := step_cases s e
  · rw [silent, state]
    split <;> rfl
  · rw [sent]
    exact kept

/-- The error that is kept after a history is that of its last reply. -/
theorem run_lastError (es : List (Event ε α)) :
    (s.run es).2.lastError.isSome = match ((s.run es).1.filterMap Output.reply).getLast? with
      | some reply => failed reply
      | none => s.lastError.isSome := by
  induction es generalizing s with
  | nil => rfl
  | cons e es ih =>
    grind [run, step_lastError, filterMap_cons_none, filterMap_cons_some, List.getLast]

end

theorem lastFailed_iff (es : List (Event ε α)) :
    LastFailed (run {} es).1 ↔ (run ({} : State ε α) es).2.lastError.isSome = true := by
  rw [run_lastError, LastFailed]
  cases ((run ({} : State ε α) es).1.filterMap Output.reply).getLast? <;> simp

variable {s : State ε α}

theorem wait_stale {n : Nat} (stale : s.fresh = false) : (s.wait n).fresh = false := by
  unfold fresh at stale ⊢
  rw [wait_updatedAt, wait_now]
  cases stamp : s.updatedAt with
  | none => rfl
  | some t =>
    simp only [stamp, decide_eq_false_iff_not] at stale ⊢
    omega

/-- A history in which nothing is sent keeps the error, and the time stamp unless it is reset. -/
theorem idle_keeps {es : List (Event ε α)} (silent : ∀ o ∈ (s.run es).1, o.reply = none) :
    (s.run es).2.lastError = s.lastError ∧ s.now ≤ (s.run es).2.now ∧
      ((s.run es).2.updatedAt = none ∨
        ((s.run es).2.updatedAt = s.updatedAt ∧ ∀ e ∈ es, e.op.isReset = false)) := by
  induction es generalizing s with
  | nil => exact ⟨rfl, .refl, .inr ⟨rfl, by simp⟩⟩
  | cons e es ih =>
    rw [run] at silent ⊢
    obtain ⟨n, _, first⟩ := (step_cases s e).resolve_right (by simp [silent _ mem_cons_self])
    obtain ⟨error, later, stamp⟩ := ih fun o mem => silent o (mem_cons_of_mem _ mem)
    cases reset : e.op.isReset with
    | true =>
      rw [reset, if_pos rfl] at first
      rw [first] at error later stamp ⊢
      refine ⟨error, Nat.le_trans (Nat.le_add_right s.now n) later, .inl ?_⟩
      obtain none_ | ⟨same, _⟩ := stamp
      · exact none_
      · exact same
    | false =>
      rw [reset, if_neg (by simp)] at first
      rw [first] at error later stamp ⊢
      refine ⟨error, Nat.le_trans (Nat.le_add_right s.now n) later, ?_⟩
      obtain none_ | ⟨same, kept⟩ := stamp
      · exact .inl none_
      · exact .inr ⟨same, by simpa [reset] using kept⟩

/-- A fetch without an error to return, on servers that are not fresh and with an interface,
sends a query. -/
theorem fetch_asks {wait pause : Nat} {net : Network ε α} (clear : s.lastError = none)
    (stale : (s.wait wait).fresh = false) (iface : net.iface = none) :
    (s.step ⟨wait, .fetch pause net⟩).1.reply = some net.reply := by
  unfold step
  obtain ⟨_, kept, _⟩ | ⟨_, fresh, _⟩ | ⟨_, fresh, _⟩ | ⟨_, _, _, reply, _⟩ :=
    fetch_cases (s.wait wait) pause net
  · rw [wait_lastError, clear] at kept
    cases kept
  · rw [stale] at fresh
    cases fresh
  · rw [wait_stale stale] at fresh
    cases fresh
  · obtain ⟨_, missing, _⟩ | ⟨_, sent, _⟩ := updateServers_cases ((s.wait wait).wait pause) net
    · rw [iface] at missing
      cases missing
    · exact reply.trans sent

def Event.gives (servers : List α) (e : Event ε α) : Prop :=
  match e.op with
  | .fetch _ net => net.iface = none ∧ net.reply = .ok servers
  | .reset => True
  | .interfaceUpdated _ => False

theorem gives_returns {e : Event ε α} {servers : List α} (gives : e.gives servers)
    (some_ : servers ≠ [])
    (sent : (s.step e).1.reply ≠ none) : (s.step e).1.returned = some (servers, none) := by
  unfold step at sent ⊢
  unfold Event.gives at gives
  cases op : e.op with
  | reset => simp [op] at sent
  | interfaceUpdated net => simp [op] at gives
  | fetch pause net =>
    rw [op] at gives sent
    obtain ⟨_, _, same⟩ | ⟨_, _, same⟩ | ⟨_, _, same⟩ | ⟨_, _, _, _, returned⟩ :=
      fetch_cases (s.wait e.wait) pause net
    · simp [same] at sent
    · simp [same] at sent
    · simp [same] at sent
    · obtain ⟨_, missing, _⟩ | ⟨_, _, kept, _, err, list⟩ :=
        updateServers_cases ((s.wait e.wait).wait pause) net
      · rw [gives.1] at missing
        cases missing
      · grind [failed, Option.not_isSome_iff_eq_none.mp]

/-- After its failure is `ttl` old, or after a reset, the transport asks again; and when the network
gives servers from now on it comes to return them, without any update of the interface. -/
structure Recovers (s : State ε α) : Prop where
  asks : ∀ (idle : List (Event ε α)) (wait pause : Nat) (net : Network ε α),
    (∀ o ∈ (s.run idle).1, o.reply = none) → net.iface = none →
    s.now + dhcpTTL < (s.run idle).2.now + wait ∨ (∃ e ∈ idle, e.op.isReset = true) →
    ((s.run idle).2.step ⟨wait, .fetch pause net⟩).1.reply = some net.reply
  returns : ∀ (servers : List α) (later : List (Event ε α)) (wait pause : Nat) (net : Network ε α),
    servers ≠ [] → (∀ e ∈ later ++ [⟨wait, .fetch pause net⟩], e.gives servers) →
    s.now + dhcpTTL < (s.run later).2.now + wait →
    ∃ o ∈ (s.run (later ++ [⟨wait, .fetch pause net⟩])).1, o.returned = some (servers, none)

theorem run_append (s : State ε α) (es es' : List (Event ε α)) :
    s.run (es ++ es') = ((s.run es).1 ++ ((s.run es).2.run es').1, ((s.run es).2.run es').2) := by
  induction es generalizing s with
  | nil => rfl
  | cons e es ih => simp [run, ih]

/-- The time stamp is not in the future. -/
def State.Stamped (s : State ε α) : Prop := ∀ t, s.updatedAt = some t → t ≤ s.now

theorem wait_stamped (stamped : s.Stamped) (n : Nat) : (s.wait n).Stamped :=
  fun t here => Nat.le_add_right_of_le (stamped t here)

theorem step_stamped (stamped : s.Stamped) (e : Event ε α) : (s.step e).2.Stamped := by
  obtain ⟨n, _, state⟩ | ⟨_, _, _, stamp⟩ := step_cases s e
  · rw [state]
    split
    · exact nofun
    · exact wait_stamped stamped n
  · intro t here
    rw [stamp] at here
    cases here
    exact .refl

theorem run_stamped (stamped : s.Stamped) (es : List (Event ε α)) : (s.run es).2.Stamped := by
  induction es generalizing s with
  | nil => exact stamped
  | cons e es ih => exact ih (step_stamped stamped e)

theorem stale_of_late {n : Nat} (late : ∀ t, s.updatedAt = some t → t + dhcpTTL ≤ s.now + n) :
    (s.wait n).fresh = false := by
  unfold fresh
  rw [wait_updatedAt, wait_now]
  cases stamp : s.updatedAt with
  | none => rfl
  | some t =>
    have old := late t stamp
    simp only [decide_eq_false_iff_not]
    omega

theorem asks_of_clear (stamped : s.Stamped) (clear : s.lastError = none) (idle : List (Event ε α))
    (wait pause : Nat) (net : Network ε α) (silent : ∀ o ∈ (s.run idle).1, o.reply = none)
    (iface : net.iface = none)
    (due : s.now + dhcpTTL < (s.run idle).2.now + wait ∨ ∃ e ∈ idle, e.op.isReset = true) :
    ((s.run idle).2.step ⟨wait, .fetch pause net⟩).1.reply = some net.reply := by
  obtain ⟨error, _, stamp⟩ := idle_keeps silent
  refine fetch_asks (error.trans clear) (stale_of_late fun t here => ?_) iface
  obtain none_ | ⟨same, kept⟩ := stamp
  · rw [none_] at here
    cases here
  · obtain late | ⟨e, mem, reset⟩ := due
    · have before := stamped t (same.symm.trans here)
      omega
    · rw [kept e mem] at reset
      cases reset

theorem run_returns {es : List (Event ε α)} {servers : List α} (gives : ∀ e ∈ es, e.gives servers)
    (some_ : servers ≠ []) (sent : ∃ o ∈ (s.run es).1, o.reply ≠ none) :
    ∃ o ∈ (s.run es).1, o.returned = some (servers, none) := by
  induction es generalizing s with
  | nil => simp [run] at sent
  | cons e es ih =>
    rw [run] at sent ⊢
    obtain ⟨o, mem, reply⟩ := sent
    obtain rfl | mem := mem_cons.mp mem
    · exact ⟨_, mem_cons_self, gives_returns (gives e mem_cons_self) some_ reply⟩
    · obtain ⟨o, mem, returned⟩ := ih (fun e mem => gives e (mem_cons_of_mem _ mem)) ⟨o, mem, reply⟩
      exact ⟨o, mem_cons_of_mem _ mem, returned⟩

theorem recovers_iff_clear (stamped : s.Stamped) : Recovers s ↔ s.lastError = none := by
  constructor
  · intro recovers
    cases kept : s.lastError with
    | none => rfl
    | some err =>
      have asked := recovers.asks [⟨0, .reset⟩] 0 0 ⟨none, .ok [], 0⟩ (by simp [run, step]) rfl
        (.inr ⟨_, mem_cons_self, rfl⟩)
      simp [run, step, reset, fetch, kept] at asked
  · intro clear
    constructor
    case asks => exact asks_of_clear stamped clear
    case returns =>
      intro servers later wait pause net some_ gives late
      apply run_returns gives some_
      rw [run_append]
      by_cases silent : ∀ o ∈ (s.run later).1, o.reply = none
      · have good := gives _ (mem_append_right _ mem_cons_self)
        have asked := asks_of_clear stamped clear later wait pause net silent good.1 (.inl late)
        exact ⟨_, mem_append_right _ mem_cons_self, by rw [asked]; simp⟩
      · grind

/-- After every history the transport recovers exactly when its last DHCP exchange has not
failed. -/
theorem recovers_iff (es : List (Event ε α)) :
    Recovers (run ({} : State ε α) es).2 ↔ ¬ LastFailed (run ({} : State ε α) es).1 := by
  have stamped : Stamped ({} : State ε α) := nofun
  rw [recovers_iff_clear (run_stamped stamped es), lastFailed_iff, Option.not_isSome_iff_eq_none]

end

/-- One fetch whose exchange times out. -/
def timedOut : List (Event String Nat) := [⟨0, .fetch 0 ⟨none, .error "timeout", 0⟩⟩]

/-- A reset, and two hours later a fetch with a network that would answer. -/
def muchLater : List (Event String Nat) :=
  [⟨0, .reset⟩, ⟨2 * dhcpTTL, .fetch 0 ⟨none, .ok [53], 0⟩⟩]

theorem timedOut_kept :
    (run {} (timedOut ++ muchLater)).1.map Output.reply = [some (.error "timeout"), none, none] ∧
      (run {} (timedOut ++ muchLater)).1.map Output.returned =
        [some ([], some (.exchange "timeout")), none, some ([], some (.exchange "timeout"))] ∧
      ¬ Recovers (run {} timedOut).2 := by
  refine ⟨rfl, rfl, fun recovers => ?_⟩
  have clear := (recovers_iff_clear (run_stamped (s := {}) nofun timedOut)).mp recovers
  cases clear

end AiboosterEngine.Dns.Dhcp
