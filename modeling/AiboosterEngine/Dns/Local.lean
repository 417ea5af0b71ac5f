import AiboosterEngine.Dns.Client
import AiboosterEngine.GoSem.Steps
import Mathlib.Algebra.GroupWithZero.Nat

/-!
# The local DNS transport

`local_shared.go`, and the names it asks for (`resolv.go`): a name is tried as it is
and with the domains of the search list, one after another or all at once. The client
that asked reads the response when there is no error, so a transport that returns
neither makes it panic, and one that returns nothing at all keeps it waiting.
-/

namespace AiboosterEngine.Dns.Local
open GoSem List

def dot : UInt8 := 46

/-- `dnsConfig`, as `dnsReadConfig` leaves it: there is a server, and an attempt. -/
structure DnsConfig where
  servers : List Bytes
  search : List Bytes := []
  ndots : Nat := 1
  attempts : Nat := 2
  rotate : Bool := false
  singleRequest : Bool := false
  servers_pos : 0 < servers.length := by decide
  attempts_pos : 0 < attempts := by decide

open DnsConfig

variable (name : Bytes)

def rooted : Bool := name.getLast? == some dot

def avoidDNS : Bool :=
  if name.isEmpty then true
  else (utf8 ".onion").isSuffixOf (if rooted name then name.dropLast else name)

variable (c : DnsConfig)

def DnsConfig.nameList : List Bytes :=
  if 254 < name.length || name.length == 254 && !rooted name then []
  else if rooted name then if avoidDNS name then [] else [name]
  else
    let hasNdots := c.ndots ≤ name.count dot
    let name := name ++ [dot]
    let own := if avoidDNS name then [] else [name]
    let searched := (c.search.map (name ++ ·)).filter fun fqdn => !avoidDNS fqdn &&
      fqdn.length ≤ 254
    (if hasNdots then own else []) ++ searched ++ (if hasNdots then [] else own)

/-- The server of a try, counted from the offset in `uint32`. -/
def DnsConfig.server (k : Nat) : Bytes :=
  c.servers.get ⟨k % 2 ^ 32 % c.servers.length, Nat.mod_lt _ c.servers_pos⟩

/-- What one call of `tryOneName` meets: the offset that was drawn, and how each `exchangeOne` of an
attempt with a server ends. -/
structure Upstream where
  offset : Nat := 0
  exchangeOne : Nat → Bytes → Question → Except TransportError Msg

/-- The loops of `tryOneName` with what is left of them. `E.Cause` panics without an error. -/
def tryAll (u : Upstream) (question : Question) :
    List (Nat × Bytes) → Option TransportError → Outcome TransportError Msg
  | [], some lastErr => .err lastErr
  | [], none => .panicked
  | (attempt, server) :: tries, _ =>
    match u.exchangeOne attempt server question with
    | .ok response => .ok response
    | .error err => tryAll u question tries (some err)

def DnsConfig.tries (offset : Nat) : List (Nat × Bytes) :=
  (range c.attempts).flatMap fun i => (range c.servers.length).map fun j =>
    (i, c.server (offset + j))

def DnsConfig.tryOneName (u : Upstream) (question : Question) (fqdn : Bytes) :
    Outcome TransportError Msg :=
  tryAll u { question with name := fqdn } (c.tries (if c.rotate then u.offset else 0)) none

/-- The two results of a call. -/
structure Returned where
  response : Option Msg
  err : Option TransportError
  deriving DecidableEq, Repr

/-- A response without an error, or an error. -/
def Returned.Proper (r : Returned) : Prop := r.err = none → r.response ≠ none

/-- The loop over the names, of which the first is number `k`; `none` is a panic. -/
def DnsConfig.tryNames (c : DnsConfig) (us : Nat → Upstream) (question : Question) :
    Nat → List Bytes → Option TransportError → Option Returned
  | _, [], lastErr => some ⟨none, lastErr⟩
  | k, fqdn :: names, _ =>
    match c.tryOneName (us k) question fqdn with
    | .ok response => some ⟨some response, none⟩
    | .err err => c.tryNames us question (k + 1) names (some err)
    | .panicked => none

def DnsConfig.exchangeSingleRequest (us : Nat → Upstream) (question : Question) : Option Returned :=
  c.tryNames us question 0 (c.nameList question.name) none

/-- A goroutine of `startRacer`: with its name, at the channel with its result, or gone. -/
inductive Racer where
  | racing (fqdn : Bytes)
  | sending (result : Except TransportError Msg)
  | ended

open Racer

/-- `exchangeParallel`, with the errors that it has received. -/
structure Race where
  racers : List Racer
  errors : List TransportError := []
  returned : Option Returned := none
  panicked : Bool := false

inductive Event where
  | exchanged (i : Nat) (u : Upstream)
  | received (i : Nat)
  | dropped (i : Nat)
  | canceled

/-- `E.Errors`, in which the client looks for an rcode. -/
def joinErrors : List TransportError → Option TransportError
  | [] => none
  | errors@(_ :: _) => some ((errors.find? fun err => err != .failed).getD .failed)

section
variable (parseAddr : Bytes → Addr)

/-- What a racer makes of its response. -/
def checked (response : Msg) : Except TransportError Msg :=
  if response.rcode ≠ rcodeSuccess then .error (.rcode response.rcode)
  else if (messageToAddresses parseAddr response).isEmpty then .error .failed
  else .ok response

/-- A result comes through the channel. -/
def Race.receive (w : Race) (i : Nat) (result : Except TransportError Msg) : Race :=
  let w := { w with racers := w.racers.set i .ended }
  match result with
  | .ok response => { w with returned := some ⟨some response, none⟩ }
  | .error err =>
    let errors := w.errors ++ [err]
    if errors.length = w.racers.length
      then { w with errors, returned := some ⟨none, joinErrors errors⟩ }
    else { w with errors }

variable (c : DnsConfig) (question : Question)

def DnsConfig.step (w : Race) : Event → Option Race
  | .exchanged i u =>
    match w.racers[i]? with
    | some (.racing fqdn) =>
      match c.tryOneName u question fqdn with
      | .ok response =>
          some { w with racers := w.racers.set i (.sending (checked parseAddr response)) }
      | .err err => some { w with racers := w.racers.set i (.sending (.error err)) }
      | .panicked => some { w with panicked := true }
    | _ => none
  | .received i =>
    match w.racers[i]?, w.returned with
    | some (.sending result), none => some (w.receive i result)
    | _, _ => none
  | .dropped i =>
    match w.racers[i]?, w.returned with
    | some (.sending _), some _ => some { w with racers := w.racers.set i .ended }
    | _, _ => none
  | .canceled =>
      if w.returned = none then some { w with returned := some ⟨none, some .failed⟩ } else none

def DnsConfig.race : Race :=
  { racers := (c.nameList question.name).map .racing }

/-- `exchange` takes the names one after another. -/
def DnsConfig.singly : Bool :=
  c.singleRequest || !(question.qtype == typeA || question.qtype == typeAAAA)

/-- What `exchange` may return. -/
def DnsConfig.Returns (r : Returned) : Prop :=
  if c.singly question then ∃ us, c.exchangeSingleRequest us question = some r
  else ∃ w, Reachable (c.step parseAddr question) (c.race question) w ∧ w.returned = some r

def fixedResponse (id : UInt16) (question : Question) (addresses : List Addr)
    (timeToLive : UInt32) : Msg :=
  let record data : RR := { name := question.name, rrclass := 1, ttl := timeToLive, data }
  { id
    response := true
    authoritative := true
    recursionDesired := true
    recursionAvailable := true
    question := [question]
    answer := addresses.filterMap fun address =>
      if address.is4 && question.qtype == typeA then some (record (.a address.asSlice))
      else if !address.is4 && address.isValid && question.qtype == typeAAAA then
        some (record (.aaaa address.asSlice))
      else none }

/-- What `Transport.Exchange` may return, where `hosts` gives the addresses of a name in the hosts
file, and no other resolver is there. -/
def DnsConfig.TransportReturns (hosts : Bytes → List Addr) (message : Msg) (question : Question)
    (r : Returned) : Prop :=
  if (question.qtype == typeA || question.qtype == typeAAAA) && !(hosts question.name).isEmpty then
    r = ⟨some (fixedResponse message.id question (hosts question.name) 600), none⟩
  else c.Returns parseAddr question r

/-- `Client.Exchange` reads the rcode of no response: it has asked the transport, which returned
neither. -/
def DnsConfig.Panics (hosts : Bytes → List Addr) (client : Client) (now : Nat) (transport : Bytes)
    (contextTransport : Option Bytes) (message : Msg) (options : DNSQueryOptions)
    (responseChecker : Option Checker) : Prop :=
  ∃ question, client.Asks now transport contextTransport message options responseChecker question ∧
    c.TransportReturns parseAddr hosts (client.request message options) question ⟨none, none⟩

end

/-- The name is one of a hidden service. -/
def Onion : Prop := utf8 ".onion" <:+ name ∨ utf8 ".onion." <:+ name

/-- There is a name to ask for: the name itself, or the name in a domain of the search list. -/
inductive Resolvable (c : DnsConfig) (name : Bytes) : Prop
  | rooted (root : rooted name = true) (short : name.length ≤ 254) (plain : ¬ Onion name)
  | plain (root : rooted name = false) (short : name.length ≤ 253) (plain : ¬ Onion name)
  | searched (root : rooted name = false) (short : name.length ≤ 253) (suffix : Bytes)
      (member : suffix ∈ c.search)
      (fits : (name ++ [dot] ++ suffix).length ≤ 254) (plain : ¬ Onion (name ++ [dot] ++ suffix))

variable {name : Bytes}

theorem rooted_iff : rooted name = true ↔ ∃ front, name = front ++ [dot] := by
  rw [rooted, beq_iff_eq, getLast?_eq_some_iff]

theorem rooted_concat (front : Bytes) : rooted (front ++ [dot]) = true :=
  rooted_iff.mpr ⟨front, rfl⟩

theorem onion_rooted : utf8 ".onion." = utf8 ".onion" ++ [dot] := by decide

theorem onion_concat_dot {front : Bytes} : Onion (front ++ [dot]) ↔ utf8 ".onion" <:+ front := by
  have final : ¬ utf8 ".onion" <:+ front ++ [dot] := by
    rw [← reverse_prefix, reverse_append, reverse_singleton, singleton_append]
    intro starts
    have same := (cons_prefix_cons.mp (show 110 :: (utf8 ".onio").reverse <+: _ from starts)).1
    simp [dot] at same
  have both : utf8 ".onion." <:+ front ++ [dot] ↔ utf8 ".onion" <:+ front := by
    rw [onion_rooted, ← reverse_prefix, ← @List.reverse_prefix _ (utf8 ".onion")]
    simp
  rw [Onion, both]
  exact or_iff_right final

theorem onion_of_not_rooted (unrooted : rooted name = false) :
    Onion name ↔ utf8 ".onion" <:+ name := by
  apply or_iff_left
  rintro ⟨front, rfl⟩
  rw [onion_rooted, ← append_assoc, rooted_concat] at unrooted
  cases unrooted

theorem avoidDNS_iff (some_ : name ≠ []) : avoidDNS name = true ↔ Onion name := by
  have full : name.isEmpty = false := by simpa using some_
  simp only [avoidDNS, full, Bool.false_eq_true, if_false, isSuffixOf_iff_suffix]
  split
  · next root =>
    obtain ⟨front, rfl⟩ := rooted_iff.mp root
    rw [dropLast_concat, onion_concat_dot]
  · next unrooted => exact (onion_of_not_rooted (Bool.eq_false_iff.mpr unrooted)).symm

theorem avoidDNS_concat_dot (unrooted : rooted name = false) :
    avoidDNS (name ++ [dot]) = true ↔ Onion name := by
  rw [avoidDNS_iff (by simp), onion_concat_dot, onion_of_not_rooted unrooted]

theorem mem_nameList_rooted {c : DnsConfig} {fqdn : Bytes} (root : rooted name = true) :
    fqdn ∈ c.nameList name ↔ name.length ≤ 254 ∧ ¬ Onion name ∧ fqdn = name := by
  have some_ : name ≠ [] := by
    obtain ⟨front, rfl⟩ := rooted_iff.mp root
    simp
  rw [← avoidDNS_iff some_]
  simp only [nameList, root, Bool.not_true, Bool.and_false, Bool.or_false,
    decide_eq_true_eq, if_true]
  split
  · next long => simp [Nat.not_le.mpr long]
  · grind

theorem mem_nameList {c : DnsConfig} {fqdn : Bytes} (unrooted : rooted name = false) :
    fqdn ∈ c.nameList name ↔ name.length ≤ 253 ∧ ((¬ Onion name ∧ fqdn = name ++ [dot]) ∨
      ∃ suffix ∈ c.search, (¬ Onion fqdn ∧ fqdn.length ≤ 254) ∧ name ++ [dot] ++
        suffix = fqdn) := by
  have own : fqdn ∈ (if avoidDNS (name ++ [dot]) then [] else [name ++ [dot]]) ↔
      ¬ Onion name ∧ fqdn = name ++ [dot] := by
    rw [← avoidDNS_concat_dot unrooted]
    split
    · next avoid => simp [avoid]
    · next plain => simp [plain]
  have searched : fqdn ∈ ((c.search.map (name ++ [dot] ++ ·)).filter fun fqdn => !avoidDNS fqdn &&
    fqdn.length ≤ 254) ↔
      ∃ suffix ∈ c.search, (¬ Onion fqdn ∧ fqdn.length ≤ 254) ∧ name ++ [dot] ++ suffix = fqdn := by
    simp only [mem_filter, mem_map, Bool.and_eq_true, Bool.not_eq_true', decide_eq_true_eq]
    constructor
    · rintro ⟨⟨suffix, member, rfl⟩, plain, fits⟩
      rw [← Bool.not_eq_true, avoidDNS_iff (by simp)] at plain
      exact ⟨suffix, member, ⟨plain, fits⟩, rfl⟩
    · rintro ⟨suffix, member, ⟨plain, fits⟩, rfl⟩
      rw [← avoidDNS_iff (by simp), Bool.not_eq_true] at plain
      exact ⟨⟨suffix, member, rfl⟩, plain, fits⟩
  rw [← own, ← searched]
  simp only [nameList, unrooted, Bool.not_false, Bool.and_true, Bool.or_eq_true, decide_eq_true_eq,
    beq_iff_eq, Bool.false_eq_true, if_false]
  split
  · next long =>
    have over_ : ¬ name.length ≤ 253 := by omega
    simp [over_]
  · grind

/-- There is a name to ask for exactly if the list of the names is not empty. -/
theorem nameList_ne_nil_iff : c.nameList name ≠ [] ↔ Resolvable c name := by
  have filled : c.nameList name ≠ [] ↔ ∃ fqdn, fqdn ∈ c.nameList name :=
    ⟨exists_mem_of_ne_nil _, fun ⟨_, member⟩ => ne_nil_of_mem member⟩
  rw [filled]
  constructor
  · rintro ⟨fqdn, member⟩
    cases root : rooted name with
    | true =>
      obtain ⟨short, plain, _⟩ := (mem_nameList_rooted root).mp member
      exact .rooted root short plain
    | false =>
      obtain ⟨short, ⟨plain, _⟩ | ⟨suffix, listed, ⟨plain, fits⟩, rfl⟩⟩ :=
        (mem_nameList root).mp member
      · exact .plain root short plain
      · exact .searched root short suffix listed fits plain
  · rintro (⟨root, short, plain⟩ | ⟨root, short, plain⟩ | ⟨root, short, suffix,
      listed, fits, plain⟩)
    · exact ⟨_, (mem_nameList_rooted root).mpr ⟨short, plain, rfl⟩⟩
    · exact ⟨_, (mem_nameList root).mpr ⟨short, .inl ⟨plain, rfl⟩⟩⟩
    · exact ⟨_, (mem_nameList root).mpr ⟨short, .inr ⟨suffix, listed, ⟨plain, fits⟩, rfl⟩⟩⟩

theorem tryAll_returns (u : Upstream) (question : Question) (tries : List (Nat × Bytes))
    (lastErr : Option TransportError) (any : tries ≠ [] ∨ lastErr ≠ none) :
    (tryAll u question tries lastErr).Returns := by
  induction tries generalizing lastErr with
  | nil =>
    obtain ⟨err, rfl⟩ := Option.ne_none_iff_exists'.mp (any.resolve_left fun none_ => none_ rfl)
    trivial
  | cons try_ tries ih =>
    unfold tryAll
    split
    · trivial
    · exact ih _ (.inr (by simp))

theorem tries_ne_nil (offset : Nat) : c.tries offset ≠ [] := by
  apply ne_nil_of_length_pos
  simp only [tries, length_flatMap, length_map, length_range, map_const',
    sum_replicate_nat]
  exact Nat.mul_pos c.attempts_pos c.servers_pos

/-- With a server and an attempt there is an error to return, if not a response. -/
theorem tryOneName_returns (u : Upstream) (question : Question) (fqdn : Bytes) :
    (c.tryOneName u question fqdn).Returns :=
  tryAll_returns _ _ _ _ (.inl (tries_ne_nil c _))

theorem tryNames_proper (us : Nat → Upstream) (question : Question) (names : List Bytes) (k : Nat)
    (lastErr : Option TransportError) (any : names ≠ [] ∨ lastErr ≠ none) :
    ∃ r, c.tryNames us question k names lastErr = some r ∧ r.Proper := by
  induction names generalizing k lastErr with
  | nil => exact ⟨_, rfl, fun none_ => absurd none_ (any.resolve_left fun empty => empty rfl)⟩
  | cons fqdn names ih =>
    have returns := tryOneName_returns c (us k) question fqdn
    unfold tryNames
    split
    · exact ⟨_, rfl, fun _ => by simp⟩
    · exact ih _ _ (.inr (by simp))
    · next panicked =>
      rw [panicked] at returns
      exact returns.elim

section
variable {parseAddr : Bytes → Addr} {c : DnsConfig} {question : Question} {w w' : Race} {e : Event}

/-- What an event does to a race: `tryOneName` does not panic. -/
inductive Race.Steps (w : Race) : Race → Prop
  | exchanged {i : Nat} {fqdn : Bytes} (result : Except TransportError Msg)
      (was : w.racers[i]? = some (.racing fqdn)) :
      Steps w { w with racers := w.racers.set i (.sending result) }
  | received {i : Nat} {result : Except TransportError Msg}
      (was : w.racers[i]? = some (.sending result))
      (waits : w.returned = none) : Steps w (w.receive i result)
  | dropped {i : Nat} {result : Except TransportError Msg} {r : Returned}
      (was : w.racers[i]? = some (.sending result)) (done : w.returned = some r) :
      Steps w { w with racers := w.racers.set i .ended }
  | canceled (waits : w.returned = none) : Steps w { w with returned := some ⟨none, some .failed⟩ }

theorem step_steps (h : c.step parseAddr question w e = some w') : w.Steps w' := by
  cases e with
  | exchanged i u =>
    simp only [step] at h
    split at h
    · next fqdn was =>
      have returns := tryOneName_returns c u question fqdn
      split at h
      · cases h
        exact .exchanged _ was
      · cases h
        exact .exchanged _ was
      · next panicked =>
        rw [panicked] at returns
        exact returns.elim
    · cases h
  | received i =>
    simp only [step] at h
    split at h
    · next was waits =>
      cases h
      exact .received was waits
    · cases h
  | dropped i =>
    simp only [step] at h
    split at h
    · next was done =>
      cases h
      exact .dropped was done
    · cases h
  | canceled =>
    obtain ⟨waits, h⟩ := Option.ite_none_right_eq_some.mp h
    cases h
    exact .canceled waits

/-- The steps that a racer has left. -/
def Racer.left : Racer → Nat
  | racing _ => 2
  | sending _ => 1
  | ended => 0

def Racer.pending (racer : Racer) : Bool := 0 < racer.left

/-- The racer at one place takes a step: what is left of all, and the number of those that have
something left. -/
theorem set_left {racers : List Racer} {i : Nat} {x : Racer}
    (was : racers[i]? = some x) (y : Racer) :
    ((racers.set i y).map left).sum + x.left = (racers.map left).sum + y.left := by
  obtain ⟨before, after, rfl, _, set⟩ := split_at_index was
  rw [set]
  simp only [map_append, map_cons, sum_append_nat, sum_cons]
  omega

theorem set_pending {racers : List Racer} {i : Nat} {x : Racer}
    (was : racers[i]? = some x) (y : Racer) :
    (racers.set i y).countP pending + x.pending.toNat =
      racers.countP pending + y.pending.toNat := by
  obtain ⟨before, after, rfl, _, set⟩ := split_at_index was
  rw [set]
  have one (z : Racer) : (if z.pending = true then 1 else 0) = z.pending.toNat := by
    cases z.pending <;> rfl
  simp only [countP_append, countP_cons, one]
  omega

theorem receive_racers (w : Race) (i : Nat) (result : Except TransportError Msg) :
    (w.receive i result).racers = w.racers.set i .ended := by
  unfold Race.receive
  cases result with
  | ok response => rfl
  | error err =>
    simp only
    split <;> rfl

/-- Every step is one of a racer, or the end of the context. -/
def Race.size (w : Race) : Nat := (w.racers.map left).sum + (if w.returned = none then 1 else 0)

theorem Race.Steps.smaller (steps : w.Steps w') : w'.size < w.size := by
  cases steps with
  | exchanged result was =>
    have left := set_left was (.sending result)
    simp only [Race.size, Racer.left] at left ⊢
    omega
  | @received i result was waits =>
    have left := set_left was .ended
    have le : (if (w.receive i result).returned = none then 1 else 0) ≤ 1 := by split <;> simp
    simp only [Race.size, receive_racers, waits, if_true, Racer.left] at left ⊢
    omega
  | dropped was done =>
    have left := set_left was .ended
    simp only [Race.size, Racer.left] at left ⊢
    omega
  | canceled waits => simp [Race.size, waits]

/-- A race that has not returned has heard of as many errors as racers are gone, and not of all. -/
structure Race.Inv (w : Race) : Prop where
  running : w.panicked = false
  heard : w.returned = none → w.errors.length + w.racers.countP pending = w.racers.length
  waiting : w.returned = none → w.errors.length < w.racers.length
  proper : ∀ r, w.returned = some r → r.Proper

theorem joinErrors_concat (errors : List TransportError) (err : TransportError) :
    joinErrors (errors ++ [err]) ≠ none := by
  cases errors <;> simp [joinErrors]

variable {r : Returned}

theorem Race.Inv.of_returned (running : w.panicked = false) (returned : w.returned = some r)
    (proper : r.Proper) : w.Inv where
  running := running
  heard := by simp [returned]
  waiting := by simp [returned]
  proper := by
    intro r' also
    cases returned.symm.trans also
    exact proper

theorem Race.Inv.received (inv : w.Inv) {i : Nat} {result : Except TransportError Msg}
    (was : w.racers[i]? = some (.sending result)) (waits : w.returned = none) :
      (w.receive i result).Inv := by
  have gone : (w.racers.set i .ended).countP pending + 1 = w.racers.countP pending :=
    set_pending was .ended
  have heard := inv.heard waits
  have waiting := inv.waiting waits
  unfold Race.receive
  cases result with
  | ok response => exact .of_returned inv.running rfl fun _ => by simp
  | error err =>
    simp only [length_append, length_singleton, length_set]
    split
    · exact .of_returned inv.running rfl fun none_ => absurd none_ (joinErrors_concat _ _)
    · next more =>
      constructor
      · exact inv.running
      · intro _
        simp only [length_append, length_singleton, length_set]
        omega
      · intro _
        simp only [length_append, length_singleton, length_set]
        omega
      · exact inv.proper

theorem Race.Inv.step (inv : w.Inv) (steps : w.Steps w') : w'.Inv := by
  cases steps with
  | @exchanged i _ result was =>
    have same : (w.racers.set i (.sending result)).countP pending + 1 =
      w.racers.countP pending + 1 :=
      set_pending was (.sending result)
    constructor
    · exact inv.running
    · intro waits
      have heard := inv.heard waits
      simp only [length_set]
      omega
    · intro waits
      simpa only [length_set] using inv.waiting waits
    · exact inv.proper
  | received was waits => exact inv.received was waits
  | dropped was done => exact .of_returned inv.running done (inv.proper _ done)
  | canceled waits => exact .of_returned inv.running rfl fun none_ => by cases none_

theorem race_inv (names : c.nameList question.name ≠ [])
    (reached : Reachable (c.step parseAddr question) (c.race question) w) : w.Inv := by
  apply Run.invariant reached
  · have all : ((c.nameList question.name).map racing).countP pending =
        ((c.nameList question.name).map racing).length := by
      apply countP_eq_length.mpr
      intro racer member
      obtain ⟨_, _, rfl⟩ := mem_map.mp member
      rfl
    constructor
    · rfl
    · intro _
      simpa [race] using all
    · intro _
      simpa [race, length_pos_iff] using names
    · exact fun r returned => by cases returned
  · exact fun _ _ _ inv _ taken => inv.step (step_steps taken)

/-- A racer that is still there, and has ended its exchanges, is at the channel. -/
theorem Race.Inv.receives (inv : w.Inv) (waits : w.returned = none)
    (exchanged : ∀ fqdn, racing fqdn ∉ w.racers) :
    ∃ (i : Nat) (result : Except TransportError Msg), w.racers[i]? = some (.sending result) := by
  have heard := inv.heard waits
  have waiting := inv.waiting waits
  have some_ : 0 < w.racers.countP pending := by omega
  obtain ⟨racer, member, pending⟩ := countP_pos_iff.mp some_
  obtain ⟨i, at_⟩ := mem_iff_getElem?.mp member
  cases racer with
  | racing fqdn => exact absurd member (exchanged fqdn)
  | sending result => exact ⟨i, result, at_⟩
  | ended => cases pending

variable (parseAddr) in
/-- The question gets a response or an error, whatever its exchanges come to. A race in which all
the exchanges have ended has returned, or receives a result and so comes closer to its end. -/
structure DnsConfig.Answers (c : DnsConfig) (question : Question) : Prop where
  returns : c.singly question = true → ∀ us, ∃ r, c.exchangeSingleRequest us question = some r
  running : c.singly question = false → ∀ w,
    Reachable (c.step parseAddr question) (c.race question) w →
    w.panicked = false
  settles : c.singly question = false → ∀ w,
    Reachable (c.step parseAddr question) (c.race question) w →
    (∀ fqdn, racing fqdn ∉ w.racers) → w.returned = none →
    ∃ i w', c.step parseAddr question w (.received i) = some w'
  ends : c.singly question = false → ∀ events w,
    exec (c.step parseAddr question) (c.race question) events = some w →
    events.length ≤ 2 * (c.nameList question.name).length + 1
  proper : ∀ r, c.Returns parseAddr question r → r.Proper
  client : ∀ hosts client now transport contextTransport message options responseChecker,
    message.question.head? = some question →
    ¬ c.Panics parseAddr hosts client now transport contextTransport message options responseChecker

theorem race_size (c : DnsConfig) (question : Question) :
    (c.race question).size = 2 * (c.nameList question.name).length + 1 := by
  have each (names : List Bytes) : ((names.map racing).map left).sum = 2 * names.length := by
    induction names with
    | nil => rfl
    | cons fqdn names ih =>
      simp only [map_cons, sum_cons, ih, left, length_cons]
      omega
  simp only [Race.size, race, each, if_true]

section
variable (names : c.nameList question.name ≠ [])
include names

theorem returns_proper (h : c.Returns parseAddr question r) : r.Proper := by
  unfold Returns at h
  split at h
  · obtain ⟨us, returned⟩ := h
    obtain ⟨r', returned', proper⟩ := tryNames_proper c us question _ 0 none (.inl names)
    cases returned.symm.trans returned'
    exact proper
  · obtain ⟨w, reached, returned⟩ := h
    exact (race_inv names reached).proper r returned

theorem transportReturns_proper {hosts : Bytes → List Addr} {message : Msg}
    (h : c.TransportReturns parseAddr hosts message question r) : r.Proper := by
  unfold TransportReturns at h
  split at h
  · rw [h]
    exact fun _ => by simp
  · exact returns_proper names h

theorem answers_of_names : c.Answers parseAddr question where
  returns := by
    intro _ us
    obtain ⟨r, returned, _⟩ := tryNames_proper c us question _ 0 none (.inl names)
    exact ⟨r, returned⟩
  running := fun _ _ reached => (race_inv names reached).running
  settles := by
    intro _ w reached exchanged waits
    obtain ⟨i, result, at_⟩ := (race_inv names reached).receives waits exchanged
    exact ⟨i, w.receive i result, by simp only [step, at_, waits]⟩
  ends := by
    intro _ events w ran
    rw [← race_size]
    apply exec_length_le ran trivial (fun _ _ _ _ _ => trivial)
    intro s e s' _ _ taken
    exact (step_steps taken).smaller
  proper := fun _ => returns_proper names
  client := by
    rintro hosts client now transport contextTransport message options responseChecker first ⟨asked,
      asks, returned⟩
    cases first.symm.trans asks.first
    exact transportReturns_proper names returned rfl rfl

end

/-- A question gets an answer or an error exactly if there is a name to ask for. Without one, the
names that are taken one after another end with neither, and those that race never end. -/
theorem answers_iff_resolvable (parseAddr : Bytes → Addr) (c : DnsConfig) (question : Question) :
    c.Answers parseAddr question ↔ Resolvable c question.name := by
  rw [← nameList_ne_nil_iff]
  refine ⟨fun answers empty => ?_, answers_of_names⟩
  cases singly : c.singly question with
  | true =>
    have neither : c.Returns parseAddr question ⟨none, none⟩ := by
      rw [Returns, if_pos singly]
      exact ⟨fun _ => ⟨0, fun _ _ _ => .error .failed⟩, by rw [exchangeSingleRequest, empty]; rfl⟩
    exact answers.proper _ neither rfl rfl
  | false =>
    have alone : (c.race question).racers = [] := by rw [race, empty]; rfl
    obtain ⟨i, w', taken⟩ := answers.settles singly _ .start (by simp [alone]) rfl
    simp [step, alone] at taken

end

/-- One server, asked for names under `.onion`. -/
def onionConfig : DnsConfig where
  servers := [utf8 "127.0.0.1:53"]

/-- The mail servers of a hidden service. -/
def onionMX : Question := ⟨utf8 "service.onion.", 15, 1⟩

/-- The address of the service, for which nothing can happen but the end of the context; and its
mail servers, with which the client panics. -/
theorem onion_unanswered :
    ((onionConfig.race { onionMX with qtype := typeA }).returned = none ∧
      ∀ e, e ≠ .canceled → onionConfig.step (fun _ => .zero) { onionMX with qtype := typeA }
        (onionConfig.race { onionMX with qtype := typeA }) e = none) ∧
    onionConfig.Panics (fun _ => .zero) (fun _ => []) {} 0 (utf8 "local") none
      { question := [onionMX] } {} none := by
  have alone : (onionConfig.race { onionMX with qtype := typeA }).racers = [] := rfl
  constructor
  · refine ⟨rfl, ?_⟩
    intro e other
    cases e with
    | exchanged i u | received i | dropped i => simp [step, alone]
    | canceled => exact absurd rfl other
  · refine ⟨onionMX, Client.asks_of_empty rfl rfl rfl rfl (by simp), ?_⟩
    exact ⟨fun _ => ⟨0, fun _ _ _ => .error .failed⟩, rfl⟩

end AiboosterEngine.Dns.Local
