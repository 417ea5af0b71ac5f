import AiboosterEngine.GoSem.Steps
import Mathlib.Data.List.Basic

/-!
# Who uses an XHTTP client

`Client.DialContext` takes one or two clients from the managers of `mux.go` and
counts itself in `OpenUsage`; `Close` of the connection counts it out. A call is
cut at every access to a counter and at every request; other calls, the upload
loops of packet-up mode and closings come in between.
-/

namespace AiboosterEngine.Xhttp.Usage
open GoSem List Option

structure XmuxClient where
  openUsage : Int := 0
  leftUsage : Int
  leftRequests : Int
  unreusableAt : Option Nat
  /-- `XmuxConn.IsClosed`. -/
  closed : Bool := false
  deriving DecidableEq, Repr

open XmuxClient

/-- The two numbers that `NewXmuxManager` has drawn. -/
structure XmuxManager where
  concurrency : Int
  connections : Int
  deriving DecidableEq, Repr

/-- What is drawn in a call of `GetXmuxClient`: the index, and the numbers of a new client. -/
structure Roll where
  index : Nat := 0
  reuseTimes : Int := 0
  requestTimes : Int := 0
  reusableSecs : Int := 0
  deriving DecidableEq, Repr

/-- `math.MaxInt32`. -/
def maxInt32 : Int := 2147483647

def newXmuxClient (now : Nat) (r : Roll) : XmuxClient where
  leftUsage := if r.reuseTimes > 0 then r.reuseTimes - 1 else -1
  leftRequests := if r.requestTimes > 0 then r.requestTimes else maxInt32
  unreusableAt :=
    if r.reusableSecs > 0 then some (now + r.reusableSecs.toNat * 1000000000) else none

variable (x : XmuxClient)

/-- `UnreusableAt` is set and over. -/
def XmuxClient.expired (now : Nat) : Bool := x.unreusableAt.any (· < now)

/-- The client stays in the list of its manager. -/
def XmuxClient.usable (now : Nat) : Bool :=
  !(x.closed || x.leftUsage == 0 || x.leftRequests ≤ 0 || x.expired now)

/-- All clients there have been; a manager has the numbers of its own in a list. -/
abbrev Table := List XmuxClient

variable (table : Table) (c : Nat)

def Table.usage : Int := table[c]?.elim 0 openUsage

structure Got where
  client : Nat
  table : Table
  clients : List Nat
  deriving DecidableEq, Repr

variable (clients : List Nat)

def Table.create (now : Nat) (r : Roll) : Got :=
  ⟨table.length, table ++ [newXmuxClient now r], clients ++ [table.length]⟩

/-- `leftUsage` goes down to 0 and stays there, or at -1. -/
def XmuxClient.use : XmuxClient :=
  if x.leftUsage > 0 then { x with leftUsage := x.leftUsage - 1 } else x

def getXmuxClient (m : XmuxManager) (now : Nat) (table : Table) (clients : List Nat)
    (r : Roll) : Got :=
  let clients := clients.filter fun c => table[c]?.any (·.usable now)
  if clients.isEmpty then table.create clients now r
  else if 0 < m.connections ∧ (clients.length : Int) < m.connections then table.create clients now r
  else
    let candidates :=
      if 0 < m.concurrency then clients.filter fun c =>
        table[c]?.any (·.openUsage < m.concurrency) else clients
    if candidates.isEmpty then table.create clients now r
    else
      let c := candidates.getD (r.index % candidates.length) 0
      ⟨c, table.modify c use, clients⟩

/-- Every other mode is treated as packet-up. -/
inductive Mode where
  | streamOne | streamUp | packetUp
  deriving DecidableEq, Repr

structure Config where
  mode : Mode
  up : XmuxManager
  /-- The manager of the download settings, if there are any. -/
  down : Option XmuxManager
  deriving DecidableEq, Repr

inductive Phase where
  /-- before `getHTTPClient2` -/
  | getting
  /-- before `xmuxClient.OpenUsage.Add(1)` -/
  | adding
  /-- before `xmuxClient2.OpenUsage.Add(1)` -/
  | adding2
  /-- in `OpenStream`, that of stream-one or of stream-down -/
  | opening
  /-- in the second `OpenStream` of stream-up -/
  | openingUp
  /-- the connection has been returned -/
  | opened
  /-- in `onClose`, after `xmuxClient.OpenUsage.Add(-1)` -/
  | closing
  | closed
  /-- an error has been returned -/
  | failed
  deriving DecidableEq, Repr

/-- The clients a call has taken, and the variable `xmuxClient`, which the upload loop assigns. -/
structure Call where
  phase : Phase
  took : Nat
  took2 : Nat
  xmuxClient : Nat
  deriving DecidableEq, Repr

open Call

structure State where
  now : Nat := 0
  table : Table := []
  up : List Nat := []
  down : List Nat := []
  calls : List Call := []
  deriving DecidableEq, Repr

def State.usage (s : State) (c : Nat) : Int := s.table.usage c

variable (s : State)

def State.addUsage (n : Int) : State :=
  { s with table := s.table.modify c fun x => { x with openUsage := x.openUsage + n } }

/-- `LeftRequests.Add(-1)`. -/
def State.countRequest : State :=
  { s with table := s.table.modify c fun x => { x with leftRequests := x.leftRequests - 1 } }

def State.setCall (k : Nat) (call : Call) : State := { s with calls := s.calls.set k call }

def getHTTPClient (cfg : Config) (s : State) (r : Roll) : Nat × State :=
  let got := getXmuxClient cfg.up s.now s.table s.up r
  (got.client, { s with table := got.table, up := got.clients })

/-- Without download settings this is `getHTTPClient`. -/
def getHTTPClient2 (cfg : Config) (s : State) (r : Roll) : Nat × State :=
  match cfg.down with
  | none => getHTTPClient cfg s r
  | some m =>
    let got := getXmuxClient m s.now s.table s.down r
    (got.client, { s with table := got.table, down := got.clients })

/-- The loop goes on with another client: the requests of this one are used up, or its time is. -/
def State.switches : Bool :=
  s.table[c]?.any fun x => x.leftRequests - 1 ≤ 0 || x.expired s.now

inductive Action where
  /-- `DialContext` is called and takes its first client. -/
  | dial (r : Roll)
  | get2 (k : Nat) (r : Roll)
  | add (k : Nat)
  | add2 (k : Nat)
  | openStream (k : Nat) (ok : Bool)
  | openUp (k : Nat) (ok : Bool)
  /-- The upload loop has read a chunk. -/
  | upload (k : Nat) (r : Roll)
  | close (k : Nat)
  | close2 (k : Nat)
  /-- Time passes. -/
  | wait (n : Nat)
  /-- The connection of a client is closed. -/
  | die (c : Nat)
  deriving DecidableEq, Repr

/-- The step of a call that is in this phase. -/
def State.at (k : Nat) (phase : Phase) : Option Call :=
  s.calls[k]?.bind fun call => if call.phase = phase then some call else none

/-- The upload loop of the call runs; `Close` does not stop it before the pipe is empty. -/
def Call.uploads (call : Call) : Bool := [Phase.opened, .closing, .closed].contains call.phase

/-- The first `OpenStream` of a call uses the client of the upload in stream-one mode only. -/
def streamClient (mode : Mode) (call : Call) : Nat :=
  if mode = .streamOne then call.xmuxClient else call.took2

def afterStream (mode : Mode) (ok : Bool) : Phase :=
  if ok then if mode = .streamUp then .openingUp else .opened else .failed

def step (cfg : Config) (s : State) : Action → Option State
  | .dial r =>
    let (x, s) := getHTTPClient cfg s r
    some { s with calls := s.calls ++ [⟨.getting, x, x, x⟩] }
  | .get2 k r => (s.at k .getting).map fun call =>
    let (x, s) := getHTTPClient2 cfg s r
    s.setCall k { call with phase := .adding, took2 := x }
  | .add k => (s.at k .adding).map fun call =>
    (s.addUsage call.xmuxClient 1).setCall k { call with phase := .adding2 }
  | .add2 k => (s.at k .adding2).map fun call =>
    (if call.took2 ≠ call.xmuxClient then s.addUsage call.took2 1 else s).setCall k
      { call with phase := .opening }
  | .openStream k ok => (s.at k .opening).map fun call =>
    (s.countRequest (streamClient cfg.mode call)).setCall k
      { call with phase := afterStream cfg.mode ok }
  | .openUp k ok => (s.at k .openingUp).map fun call =>
    (s.countRequest call.xmuxClient).setCall k
      { call with phase := if ok then .opened else .failed }
  | .upload k r => s.calls[k]?.bind fun call =>
    if cfg.mode = .packetUp ∧ call.uploads then
      if s.switches call.xmuxClient then
        let (x, s) := getHTTPClient cfg (s.countRequest call.xmuxClient) r
        some (s.setCall k { call with xmuxClient := x })
      else some (s.countRequest call.xmuxClient)
    else none
  | .close k => (s.at k .opened).map fun call =>
    (s.addUsage call.xmuxClient (-1)).setCall k { call with phase := .closing }
  | .close2 k => (s.at k .closing).map fun call =>
    (if call.took2 ≠ call.xmuxClient then s.addUsage call.took2 (-1) else s).setCall k
      { call with phase := .closed }
  | .wait n => some { s with now := s.now + n }
  | .die c => some { s with table := s.table.modify c fun x => { x with closed := true } }

theorem modify_usage (c c' : Nat) {f : XmuxClient → XmuxClient}
    (same : ∀ x, (f x).openUsage = x.openUsage) :
      Table.usage (table.modify c f) c' = table.usage c' := by
  grind [Table.usage]

theorem create_usage (now : Nat) (r : Roll) (c : Nat) :
    (table.create clients now r).table.usage c = table.usage c := by
  unfold Table.usage Table.create
  rw [getElem?_append]
  by_cases old : c < table.length
  · simp [old]
  · rw [if_neg old, getElem?_eq_none (l := table) (i := c) (by omega)]
    cases c - table.length <;> rfl

/-- What callers know of a client they have got. -/
structure Got.Spec (table : Table) (got : Got) : Prop where
  usage : ∀ c, got.table.usage c = table.usage c
  longer : table.length ≤ got.table.length
  there : got.client < got.table.length

theorem create_spec (now : Nat) (r : Roll) : (table.create clients now r).Spec table := by
  refine ⟨create_usage table clients now r, ?_, ?_⟩ <;> simp [Table.create]

theorem XmuxClient.use_openUsage : x.use.openUsage = x.openUsage := by
  unfold use
  split <;> rfl

theorem getXmuxClient_spec (m : XmuxManager) (now : Nat) (table : Table)
    (clients : List Nat) (r : Roll) :
    (getXmuxClient m now table clients r).Spec table := by
  -- What is left of the list after the filter is in the table.
  have known : ∀ c ∈ clients.filter (fun c => table[c]?.any (·.usable now)),
    c < table.length := by grind
  unfold getXmuxClient
  dsimp only
  generalize clients.filter (fun c => table[c]?.any (·.usable now)) = left at known ⊢
  split
  · exact create_spec _ _ _ _
  split
  · exact create_spec _ _ _ _
  have candidates : ∀ c ∈ (if 0 < m.concurrency then
      left.filter fun c => table[c]?.any (·.openUsage < m.concurrency) else left),
        c ∈ left := by grind
  generalize (if 0 < m.concurrency then
    left.filter fun c => table[c]?.any (·.openUsage < m.concurrency) else left) = some_
      at candidates ⊢
  split
  · exact create_spec _ _ _ _
  · next filled =>
    have bound : r.index % some_.length < some_.length :=
      Nat.mod_lt _ (length_pos_iff.mpr fun empty => filled (by simp [empty]))
    refine ⟨fun c => modify_usage _ _ _ use_openUsage, by simp, ?_⟩
    rw [length_modify]
    apply known
    apply candidates
    simp only [getD_eq_getElem?_getD, getElem?_eq_getElem bound, getD_some]
    exact getElem_mem bound

/-- 1 if the call has counted itself in with the client and not out yet. -/
def Call.holds (call : Call) (c : Nat) : Nat :=
  match call.phase with
  | .getting | .adding | .closed | .failed => 0
  | .adding2 => if c = call.took then 1 else 0
  | .opening | .openingUp | .opened => if c = call.took ∨ c = call.took2 then 1 else 0
  | .closing => if c = call.took2 ∧ call.took2 ≠ call.took then 1 else 0

/-- The number of connections, and calls on their way, that have taken the client. -/
def holders (c : Nat) : List Call → Nat
  | [] => 0
  | call :: calls => call.holds c + holders c calls

theorem holders_append (calls : List Call) (call : Call) :
    holders c (calls ++ [call]) = holders c calls + call.holds c := by
  induction calls with
  | nil => simp [holders]
  | cons first calls ih => grind [holders]

theorem holders_set {calls : List Call} {k : Nat} {call : Call} (call' : Call)
    (at_ : calls[k]? = some call) :
    holders c (calls.set k call') + call.holds c = holders c calls + call'.holds c := by
  induction calls generalizing k with
  | nil => cases at_
  | cons first calls ih => cases k <;> grind [holders]

/-- Every count is the number of connections that have taken the client. -/
def Counted : Prop := ∀ c, s.usage c = holders c s.calls

section
variable {cfg : Config} {s s' : State} {a : Action}

@[simp] theorem setCall_usage (s : State) (k : Nat) (call : Call) (c : Nat) :
    (s.setCall k call).usage c = s.usage c := rfl

@[simp] theorem countRequest_usage (s : State) (c c' : Nat) :
    (s.countRequest c).usage c' = s.usage c' :=
  modify_usage _ _ _ fun _ => rfl

theorem addUsage_usage {c : Nat} (there : c < s.table.length) (n : Int) (c' : Nat) :
    (s.addUsage c n).usage c' = s.usage c' + if c' = c then n else 0 := by
  grind [State.addUsage, State.usage, Table.usage]

theorem getHTTPClient_usage (cfg : Config) (s : State) (r : Roll) (c : Nat) :
    (getHTTPClient cfg s r).2.usage c = s.usage c :=
  (getXmuxClient_spec cfg.up s.now s.table s.up r).usage c

theorem getHTTPClient2_spec (cfg : Config) (s : State) (r : Roll) :
    ∃ got : Got, got.Spec s.table ∧ (getHTTPClient2 cfg s r).1 = got.client ∧
      (getHTTPClient2 cfg s r).2.table = got.table ∧
        (getHTTPClient2 cfg s r).2.calls = s.calls := by
  unfold getHTTPClient2
  cases cfg.down with
  | none => exact ⟨_, getXmuxClient_spec cfg.up s.now s.table s.up r, rfl, rfl, rfl⟩
  | some m => exact ⟨_, getXmuxClient_spec m s.now s.table s.down r, rfl, rfl, rfl⟩

variable {k : Nat} {call : Call} {t : State}

/-- A step of a call that is in this phase. -/
theorem of_at {phase : Phase} {f : Call → State} (h : (s.at k phase).map f = some s') :
    ∃ call, s.calls[k]? = some call ∧ call.phase = phase ∧ f call = s' := by
  obtain ⟨call, found, same⟩ := map_eq_some_iff.mp h
  obtain ⟨_, at_, found⟩ := bind_eq_some_iff.mp found
  obtain ⟨here, eq⟩ := ite_none_right_eq_some.mp found
  cases eq
  exact ⟨call, at_, here, same⟩

theorem upload_cases {r : Roll} (h : step cfg s (.upload k r) = some s') :
    (∃ c, s' = s.countRequest c) ∨ ∃ call, s.calls[k]? = some call ∧ call.uploads = true ∧
      s' = (getHTTPClient cfg (s.countRequest call.xmuxClient) r).2.setCall k
        { call with xmuxClient := (getHTTPClient cfg (s.countRequest call.xmuxClient) r).1 } := by
  obtain ⟨call, at_, h⟩ := bind_eq_some_iff.mp h
  obtain ⟨⟨_, runs⟩, h⟩ := ite_none_right_eq_some.mp h
  split at h
  · cases h
    exact .inr ⟨call, at_, runs, rfl⟩
  · cases h
    exact .inl ⟨_, rfl⟩

/-- Before the connection is returned nobody assigns `xmuxClient`. -/
def Phase.early : Phase → Bool
  | getting | adding | adding2 | opening | openingUp => true
  | opened | closing | closed | failed => false

/-- The clients of a call are there, and its variable holds the first one until the loop runs. -/
structure Call.Known (table : Table) (call : Call) : Prop where
  took : call.took < table.length
  took2 : call.took2 < table.length
  xmuxClient : call.xmuxClient < table.length
  early : call.phase.early = true → call.xmuxClient = call.took

def Known (s : State) : Prop := ∀ call ∈ s.calls, call.Known s.table

theorem Call.Known.longer {table table' : Table} (h : call.Known table)
    (longer : table.length ≤ table'.length) : call.Known table' :=
  ⟨by have := h.took; omega, by have := h.took2; omega, by have := h.xmuxClient; omega, h.early⟩

theorem Known.set (h : Known s) (calls : t.calls = s.calls)
    (longer : s.table.length ≤ t.table.length)
    (new : call.Known t.table) : Known (t.setCall k call) := by
  intro other member
  rcases mem_or_eq_of_mem_set member with old | rfl
  · rw [calls] at old
    exact (h other old).longer longer
  · exact new

/-- A call goes on to another phase. -/
theorem Known.phase {phase : Phase} (h : Known s) (at_ : s.calls[k]? = some call)
    (early : phase.early = true → call.phase.early = true) (calls : t.calls = s.calls)
    (length : t.table.length = s.table.length) : Known (t.setCall k { call with phase }) := by
  have known := (h call (mem_of_getElem? at_)).longer (Nat.le_of_eq length.symm)
  exact h.set calls (Nat.le_of_eq length.symm)
    ⟨known.took, known.took2, known.xmuxClient, fun yes => known.early (early yes)⟩

theorem addUsage_length (s : State) (c : Nat) (n : Int) :
    (s.addUsage c n).table.length = s.table.length :=
  length_modify ..

theorem countRequest_length (s : State) (c : Nat) :
    (s.countRequest c).table.length = s.table.length :=
  length_modify ..

theorem ite_addUsage_length (p : Prop) [Decidable p] (s : State) (c : Nat) (n : Int) :
    (if p then s.addUsage c n else s).table.length = s.table.length := by
  split
  · exact addUsage_length s c n
  · rfl

theorem ite_addUsage_calls (p : Prop) [Decidable p] (s : State) (c : Nat) (n : Int) :
    (if p then s.addUsage c n else s).calls = s.calls := by
  split <;> rfl

theorem uploads_late (h : call.uploads = true) : call.phase.early = false := by
  grind [uploads, Phase.early]

theorem Known.step (h : Known s) (taken : step cfg s a = some s') : Known s' := by
  cases a with
  | dial r =>
    cases taken
    have spec := getXmuxClient_spec cfg.up s.now s.table s.up r
    intro call member
    rcases mem_append.mp member with old | new
    · exact (h call old).longer spec.longer
    · rw [mem_singleton.mp new]
      exact ⟨spec.there, spec.there, spec.there, fun _ => rfl⟩
  | get2 k r =>
    obtain ⟨call, at_, phase, rfl⟩ := of_at taken
    have known := h _ (mem_of_getElem? at_)
    obtain ⟨got, spec, client, table, calls⟩ := getHTTPClient2_spec cfg s r
    generalize getHTTPClient2 cfg s r = next at client table calls ⊢
    apply h.set calls (by rw [table]; exact spec.longer)
    have later := known.longer spec.longer
    rw [table, client]
    exact ⟨later.took, spec.there, later.xmuxClient, fun _ => known.early (by rw [phase]; rfl)⟩
  | add k =>
    obtain ⟨call, at_, phase, rfl⟩ := of_at taken
    exact h.phase at_ (fun _ => by rw [phase]; rfl) rfl (addUsage_length _ _ _)
  | add2 k =>
    obtain ⟨call, at_, phase, rfl⟩ := of_at taken
    exact h.phase at_ (fun _ => by rw [phase]; rfl) (ite_addUsage_calls _ _ _ _)
      (ite_addUsage_length _ _ _ _)
  | openStream k ok | openUp k ok =>
    obtain ⟨call, at_, phase, rfl⟩ := of_at taken
    exact h.phase at_ (fun _ => by rw [phase]; rfl) rfl (countRequest_length _ _)
  | upload k r =>
    obtain ⟨c, rfl⟩ | ⟨call, at_, runs, rfl⟩ := upload_cases taken
    · exact fun call member => (h call member).longer (Nat.le_of_eq (countRequest_length s c).symm)
    · have known := h _ (mem_of_getElem? at_)
      have spec := getXmuxClient_spec cfg.up s.now (s.countRequest call.xmuxClient).table s.up r
      have longer : s.table.length ≤
        (getHTTPClient cfg (s.countRequest call.xmuxClient) r).2.table.length := by
        rw [← countRequest_length s call.xmuxClient]
        exact spec.longer
      have later := known.longer longer
      refine h.set rfl longer ⟨later.took, later.took2, spec.there, fun early => ?_⟩
      dsimp only at early
      rw [uploads_late runs] at early
      cases early
  | close k =>
    obtain ⟨call, at_, _, rfl⟩ := of_at taken
    exact h.phase at_ nofun rfl (addUsage_length _ _ _)
  | close2 k =>
    obtain ⟨call, at_, _, rfl⟩ := of_at taken
    exact h.phase at_ nofun (ite_addUsage_calls _ _ _ _) (ite_addUsage_length _ _ _ _)
  | wait n =>
    cases taken
    exact h
  | die c =>
    cases taken
    exact fun call member => (h call member).longer (Nat.le_of_eq (length_modify ..).symm)

/-- No request of `DialContext` fails, and `Close` finds in `xmuxClient` the client that the call
has taken: in the first place itself, in the second one as far as the comparison goes. -/
def undisturbed (cfg : Config) (s : State) (a : Action) : Bool :=
  (step cfg s a).isNone ||
    match a with
    | .openStream _ ok | .openUp _ ok => ok
    | .close k => s.calls[k]?.all fun call => call.xmuxClient == call.took
    | .close2 k => s.calls[k]?.all fun call =>
        (call.took2 == call.xmuxClient) == (call.took2 == call.took)
    | _ => true

section
variable (counted : Counted s) (at_ : s.calls[k]? = some call)
include counted at_

/-- What a step of one call must do to the counts. -/
theorem counted_set_iff {call' : Call} (calls : t.calls = s.calls) :
    Counted (t.setCall k call') ↔ ∀ c, t.usage c + call.holds c = s.usage c + call'.holds c := by
  apply forall_congr'
  intro c
  have moved := holders_set c call' at_
  have before := counted c
  rw [setCall_usage]
  simp only [State.setCall, calls]
  omega

/-- A call that fails goes out without counting itself out. -/
theorem failed_not_counted (holds : call.holds call.took = 1) (c : Nat) :
    ¬ Counted ((s.countRequest c).setCall k { call with phase := .failed }) := by
  rw [counted_set_iff counted at_ (t := s.countRequest c) rfl]
  intro same
  have here := same call.took
  rw [countRequest_usage, holds] at here
  simp only [Call.holds] at here
  omega

theorem close_counted (known : Known s) (phase : call.phase = .opened) :
    Counted ((s.addUsage call.xmuxClient (-1)).setCall k { call with phase := .closing }) ↔
      call.xmuxClient = call.took := by
  have mine := known call (mem_of_getElem? at_)
  have steps (c : Nat) := addUsage_usage mine.xmuxClient (-1) c
  have calls : (s.addUsage call.xmuxClient (-1)).calls = s.calls := rfl
  rw [counted_set_iff counted at_ calls]
  simp only [steps, holds, phase]
  constructor
  · intro same
    grind [same call.took]
  · grind

theorem close2_counted (known : Known s) (phase : call.phase = .closing) :
    Counted ((if call.took2 ≠ call.xmuxClient then s.addUsage call.took2 (-1) else s).setCall k
        { call with phase := .closed }) ↔
      (call.took2 = call.xmuxClient ↔ call.took2 = call.took) := by
  have mine := known call (mem_of_getElem? at_)
  have steps (c : Nat) := addUsage_usage mine.took2 (-1) c
  rw [counted_set_iff counted at_ (ite_addUsage_calls _ _ _ _)]
  by_cases found : call.took2 = call.xmuxClient
  · rw [if_neg (not_not.mpr found)]
    simp only [holds, phase]
    constructor
    · intro same
      grind [same call.took2]
    · grind
  · rw [if_pos found]
    simp only [steps, holds, phase]
    constructor
    · intro same
      grind [same call.took2]
    · grind

end

theorem counted_step (known : Known s) (counted : Counted s) (taken : step cfg s a = some s') :
    Counted s' ↔ undisturbed cfg s a = true := by
  have possible : (step cfg s a).isNone = false := by rw [taken]; rfl
  unfold undisturbed
  rw [possible, Bool.false_or]
  cases a with
  | dial r =>
    cases taken
    refine iff_of_true (fun c => ?_) rfl
    rw [holders_append]
    exact (getHTTPClient_usage cfg s r c).trans (counted c)
  | get2 k r =>
    obtain ⟨call, at_, phase, rfl⟩ := of_at taken
    obtain ⟨got, spec, _, table, calls⟩ := getHTTPClient2_spec cfg s r
    refine iff_of_true ((counted_set_iff counted at_ calls).mpr fun c => ?_) rfl
    rw [State.usage, table, spec.usage]
    simp [holds, phase, State.usage]
  | add k =>
    obtain ⟨call, at_, phase, rfl⟩ := of_at taken
    have mine := known call (mem_of_getElem? at_)
    refine iff_of_true ((counted_set_iff counted at_ ?_).mpr fun c => ?_) rfl
    · rfl
    · rw [addUsage_usage mine.xmuxClient, mine.early (by rw [phase]; rfl)]
      simp only [holds, phase]
      split <;> omega
  | add2 k =>
    obtain ⟨call, at_, phase, rfl⟩ := of_at taken
    have mine := known call (mem_of_getElem? at_)
    refine iff_of_true ((counted_set_iff counted at_ (ite_addUsage_calls _ _ _ _)).mpr fun c => ?_)
      rfl
    rw [mine.early (by rw [phase]; rfl)]
    grind [holds, addUsage_usage mine.took2]
  | openStream k ok =>
    obtain ⟨call, at_, phase, rfl⟩ := of_at taken
    cases ok with
    | true =>
      refine iff_of_true ((counted_set_iff counted at_ ?_).mpr fun c => ?_) rfl
      · rfl
      · rw [countRequest_usage]
        by_cases up : cfg.mode = .streamUp <;> simp [holds, phase, afterStream, up]
    | false =>
      refine iff_of_false ?_ (by simp)
      exact failed_not_counted counted at_ (by simp [holds, phase]) _
  | openUp k ok =>
    obtain ⟨call, at_, phase, rfl⟩ := of_at taken
    cases ok with
    | true =>
      refine iff_of_true ((counted_set_iff counted at_ ?_).mpr fun c => ?_) rfl
      · rfl
      · rw [countRequest_usage]
        simp [holds, phase]
    | false =>
      refine iff_of_false ?_ (by simp)
      exact failed_not_counted counted at_ (by simp [holds, phase]) _
  | upload k r =>
    obtain ⟨c, rfl⟩ | ⟨call, at_, runs, rfl⟩ := upload_cases taken
    · exact iff_of_true (fun c' => (countRequest_usage s c c').trans (counted c')) rfl
    · refine iff_of_true ((counted_set_iff counted at_ ?_).mpr fun c => ?_) rfl
      · rfl
      · rw [getHTTPClient_usage, countRequest_usage]
        rfl
  | close k =>
    obtain ⟨call, at_, phase, rfl⟩ := of_at taken
    refine (close_counted counted at_ known phase).trans ?_
    simp [at_]
  | close2 k =>
    obtain ⟨call, at_, phase, rfl⟩ := of_at taken
    refine (close2_counted counted at_ known phase).trans ?_
    dsimp only
    rw [at_, all_some, beq_iff_eq, Bool.eq_iff_iff, beq_iff_eq, beq_iff_eq]
  | wait n =>
    cases taken
    exact iff_of_true counted rfl
  | die c =>
    cases taken
    refine iff_of_true (fun c' => ?_) rfl
    exact (modify_usage s.table c c' (f := fun x => { x with closed := true }) fun _ =>
      rfl).trans (counted c')

theorem holders_eq_zero {c : Nat} {calls : List Call}
    (over_ : ∀ call ∈ calls, call.phase = .closed ∨ call.phase = .failed) :
      holders c calls = 0 := by
  induction calls with
  | nil => rfl
  | cons call calls ih => grind [holders, holds]

end

/-- **When the counts are right.** Every count is the number of connections that have taken the
client, throughout a run, exactly when no request of `DialContext` fails and no `Close` finds
another client in `xmuxClient` than the one that was taken. Then no count is negative, and all are
zero when all connections are closed. -/
theorem usage_iff (cfg : Config) (as : List Action) :
    (Throughout (step cfg) Counted {} as ↔ AllMet (step cfg) (undisturbed cfg · · = true) {} as) ∧
    ∀ s, exec (step cfg) {} as = some s → AllMet (step cfg) (undisturbed cfg · · = true) {} as →
      (∀ c, 0 ≤ s.usage c) ∧
      ((∀ call ∈ s.calls, call.phase = .closed ∨ call.phase = .failed) → ∀ c, s.usage c = 0) := by
  have empty : Counted {} := fun _ => rfl
  have nobody : Known {} := fun _ member => absurd member not_mem_nil
  constructor
  · apply throughout_iff as nobody empty
    · exact fun s a s' known taken => known.step taken
    · intro s a refused
      simp [undisturbed, refused]
    · exact fun s a s' known counted taken => counted_step known counted taken
  · intro s run met
    have kept : Known s ∧ Counted s := by
      refine @Run.invariant _ _ (step cfg) _ {} s (fun s => Known s ∧ Counted s) (exec_run run met)
        ⟨nobody, empty⟩ ?_
      rintro s a s' ⟨known, counted⟩ ok taken
      exact ⟨known.step taken, (counted_step known counted taken).mpr ok⟩
    refine ⟨fun c => ?_, fun over_ c => ?_⟩
    · rw [kept.2 c]
      exact Int.natCast_nonneg _
    · rw [kept.2 c, holders_eq_zero over_]
      rfl

/-- One manager, with no limits. -/
def plain (mode : Mode) : Config := { mode, up := ⟨0, 0⟩, down := none }

/-- Two connections with one client, closed one after the other. -/
def twoConnections : List Action :=
  [.dial {}, .get2 0 {}, .add 0, .dial {}, .add2 0, .openStream 0 true, .get2 1 {}, .add 1,
    .upload 0 {}, .add2 1,
    .openStream 1 true, .close 0, .close2 0, .upload 1 {}, .close 1, .close2 1]

theorem twoConnections_counted : ∃ s, exec (step (plain .packetUp)) {} twoConnections = some s ∧
    s.table.length = 1 ∧ Throughout (step (plain .packetUp)) Counted {} twoConnections ∧ ∀ c,
      s.usage c = 0 := by
  have ends : (exec (step (plain .packetUp)) {} twoConnections).map
      (fun s => (s.table.length, s.calls.map phase)) = some (1, [.closed, .closed]) := by
    decide +kernel
  obtain ⟨s, run, same⟩ := map_eq_some_iff.mp ends
  obtain ⟨one, phases⟩ := Prod.mk.inj same
  have met : AllMet (step (plain .packetUp)) (undisturbed (plain .packetUp) · · = true) {}
    twoConnections := by
    decide +kernel
  have counts := usage_iff (plain .packetUp) twoConnections
  refine ⟨s, run, one, counts.1.mpr met, (counts.2 s run met).2 fun call member => .inl ?_⟩
  have phase : call.phase ∈ s.calls.map phase := mem_map_of_mem member
  rw [phases] at phase
  simpa using phase

/-- A client for two requests: the first chunk uses the second one up, and the loop takes another
client. Then the connection is closed. -/
def switching : List Action :=
  [.dial { requestTimes := 2 }, .get2 0 {}, .add 0, .add2 0, .openStream 0 true,
    .upload 0 { requestTimes := 2 }, .close 0, .close2 0]

/-- The client that the connection never counted itself in with counts -1. -/
theorem counts_wrong :
    (exec (step (plain .packetUp)) {} switching).map
      (fun s => (s.calls.map phase, s.usage 0, s.usage 1)) = some ([.closed], 0, -1) := by
  decide +kernel

end AiboosterEngine.Xhttp.Usage
