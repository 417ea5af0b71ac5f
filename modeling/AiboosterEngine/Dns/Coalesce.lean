import AiboosterEngine.Dns.Message
import AiboosterEngine.GoSem.Counting
import AiboosterEngine.GoSem.Dependency

/-!
# Queries that wait for each other

The first half of `Client.Exchange` in `dns/client.go`: a query that may be cached
waits until the one before it with the same question has ended. The transport of a
query may ask the client again, so that calls are nested; the tag of its transport is
in the context that it passes on, and is looked at after the wait.
-/

namespace AiboosterEngine.Dns.Coalesce
open GoSem Relation

/-- How a call ends. A response counts as an answer if its checker rejects it, now or before. -/
inductive Result where
  | answered | failed | loopback | waitTimeout | canceled
  deriving DecidableEq, Repr

/-- A call of `Exchange`: `settled` is answered without a transport or a cache, `cacheable` is
`!disableCache`. -/
structure Call where
  question : Question
  transport : Bytes
  settled : Bool := false
  cacheable : Bool := true
  deriving DecidableEq, Repr

/-- A forest of calls, where a call below another one is made by its transport. -/
structure Queries (τ : Type) where
  call : τ → Call
  parent : τ → Option τ
  depth : τ → Nat
  depth_lt : ∀ t p, parent t = some p → depth p < depth t

open Queries

/-- Where a call is. A channel goes by the call that has made it; `owns` is that the deferred
function will delete and close it. -/
inductive Place (τ : Type) where
  | idle
  | begun
  | waiting (owner : τ)
  | loading (owns : Bool)
  | checking (owns : Bool)
  | asking (owns : Bool)
  | deleting (result : Result)
  | closing (result : Result)
  | returned (result : Result)
  deriving DecidableEq, Repr

open Place

inductive Choice where
  | call | go | found | rejected | answer | fail | timeout | cancel
  deriving DecidableEq, Repr

/-- All but the ends of a wait that come with time. -/
def Choice.prompt : Choice → Bool
  | timeout => false
  | cancel => false
  | _ => true

namespace Place
variable {τ : Type}

def active : Place τ → Bool
  | idle => false
  | returned _ => false
  | _ => true

def asks : Place τ → Bool
  | asking _ => true
  | _ => false

def isReturned : Place τ → Bool
  | returned _ => true
  | _ => false

/-- The end of the body, with the deferred function if there is one. -/
def leave (owns : Bool) (result : Result) : Place τ :=
  if owns then deleting result else returned result

end Place

section
variable {τ : Type}

/-- `cacheLock`, and the places of the calls. -/
abbrev State (τ : Type) := Threads τ (Question → Option τ) (Place τ)

def setLock (locks : Question → Option τ) (question : Question) (owner : Option τ) :
    Question → Option τ :=
  fun q => if q = question then owner else locks q

namespace Queries
variable (Q : Queries τ)

def question (t : τ) : Question := (Q.call t).question

def cacheable (t : τ) : Bool := (Q.call t).cacheable

/-- The tag in the context is that of the transport that makes the call. -/
def loops (t : τ) : Bool := (Q.parent t).any fun p => (Q.call p).transport == (Q.call t).transport

/-- A call is made by a transport that is being asked, or from outside. -/
def callable (t : τ) (s : State τ) : Bool := (Q.parent t).all fun p => (s.pc p).asks

/-- The transport of a call has no call of its own under way. -/
def quiet [Fintype τ] [DecidableEq τ] (t : τ) (s : State τ) : Bool :=
  decide (∀ u, Q.parent u = some t → (s.pc u).active = false)

/-- `LoadOrStore`, or the way past the cache. -/
def begin_ (t : τ) (s : State τ) : (Question → Option τ) × Place τ :=
  if (Q.call t).settled then (s.shared, .returned .answered)
  else if !Q.cacheable t then (s.shared, .checking false)
  else
    match s.shared (Q.question t) with
    | some owner => (s.shared, .waiting owner)
    | none => (setLock s.shared (Q.question t) (some t), .loading true)

def act [Fintype τ] [DecidableEq τ] (t : τ) (s : State τ) :
    Place τ → Choice → Option ((Question → Option τ) × Place τ)
  | .idle, .call => if Q.callable t s then some (s.shared, .begun) else none
  | .begun, .go => some (Q.begin_ t s)
  | .waiting owner, .go => if (s.pc owner).isReturned then some (s.shared, .loading false) else none
  | .waiting _, .timeout => some (s.shared, .returned .waitTimeout)
  | .waiting _, .cancel => some (s.shared, .returned .canceled)
  | .loading owns, .found => some (s.shared, .leave owns .answered)
  | .loading owns, .go => some (s.shared, .checking owns)
  | .checking owns, .go =>
      some (s.shared, if Q.loops t then .leave owns .loopback else .asking owns)
  | .checking owns, .rejected => if Q.loops t then none else some (s.shared, .leave owns .answered)
  | .asking owns, .answer => if Q.quiet t s then some (s.shared, .leave owns .answered) else none
  | .asking owns, .fail => if Q.quiet t s then some (s.shared, .leave owns .failed) else none
  | .deleting result, .go => some (setLock s.shared (Q.question t) none, .closing result)
  | .closing result, .go => some (s.shared, .returned result)
  | _, _ => none

def step [Fintype τ] [DecidableEq τ] (s : State τ) (a : τ × Choice) : Option (State τ) :=
  Threads.step (fun t _ p => Q.act t s p) s a

end Queries

def init : State τ := { shared := fun _ => none, pc := fun _ => .idle }

def Result.proper : Result → Bool
  | .waitTimeout => false
  | .canceled => false
  | _ => true

/-- What a call can do: the place it is at, and the channels and its place after it. -/
inductive Queries.Moves (Q : Queries τ) (t : τ) (s : State τ) (c : Choice) :
    Place τ → (Question → Option τ) → Place τ → Prop
  | call (may : Q.callable t s = true) : Moves Q t s c .idle s.shared .begun
  | settle : Moves Q t s c .begun s.shared (.returned .answered)
  | uncached (unsettled : (Q.call t).settled = false) :
      Moves Q t s c .begun s.shared (.checking false)
  | wait {owner : τ} (unsettled : (Q.call t).settled = false) (cached : Q.cacheable t = true)
      (held : s.shared (Q.question t) = some owner) : Moves Q t s c .begun s.shared (.waiting owner)
  | lock (unsettled : (Q.call t).settled = false) (cached : Q.cacheable t = true)
      (free : s.shared (Q.question t) = none) :
      Moves Q t s c .begun (setLock s.shared (Q.question t) (some t)) (.loading true)
  | wake {owner : τ} (done : (s.pc owner).isReturned = true) :
      Moves Q t s c (.waiting owner) s.shared (.loading false)
  | giveUp {owner : τ} (late : c.prompt = false) (result : Result) :
      Moves Q t s c (.waiting owner) s.shared (.returned result)
  | miss {owns : Bool} : Moves Q t s c (.loading owns) s.shared (.checking owns)
  | ask {owns : Bool} (apart : Q.loops t = false) :
      Moves Q t s c (.checking owns) s.shared (.asking owns)
  | leaveLoading {owns : Bool} {result : Result} (own : result.proper = true) :
      Moves Q t s c (.loading owns) s.shared (.leave owns result)
  | leaveChecking {owns : Bool} {result : Result} (own : result.proper = true) :
      Moves Q t s c (.checking owns) s.shared (.leave owns result)
  | leaveAsking {owns : Bool} {result : Result} (own : result.proper = true)
      (quiet : ∀ u, Q.parent u = some t → (s.pc u).active = false) :
      Moves Q t s c (.asking owns) s.shared (.leave owns result)
  | delete {result : Result} :
      Moves Q t s c (.deleting result) (setLock s.shared (Q.question t) none) (.closing result)
  | close {result : Result} : Moves Q t s c (.closing result) s.shared (.returned result)

variable {Q : Queries τ} {t : τ} {s s' : State τ} {c : Choice} {p p' : Place τ}
  {locks : Question → Option τ}

/-- The call has stored its channel and not deleted it. -/
def Place.holds : Place τ → Bool
  | loading owns => owns
  | checking owns => owns
  | asking owns => owns
  | deleting _ => true
  | _ => false

/-- The call has come as far as to store its channel, if it was to. -/
def Place.past : Place τ → Bool
  | loading owns => owns
  | checking owns => owns
  | asking owns => owns
  | deleting _ => true
  | closing _ => true
  | returned _ => true
  | _ => false

/-- The call is past its look at the question, and has not returned. -/
def Place.entered : Place τ → Bool
  | idle => false
  | begun => false
  | returned _ => false
  | _ => true

attribute [local grind intro] Moves
attribute [local grind] holds past leave asks active setLock entered

theorem Place.entered_of_asks (asks : p.asks = true) : p.entered = true ∧ p ≠ .idle := by
  cases p <;> grind

theorem Place.past_of_holds (holds : p.holds = true) : p.past = true := by
  cases p <;> grind

section
variable (moves : Q.Moves t s c p locks p')
include moves

theorem Queries.Moves.holds :
    (locks = s.shared ∧ p'.holds = p.holds) ∨
    (locks = setLock s.shared (Q.question t) (some t) ∧ s.shared (Q.question t) = none ∧
      Q.cacheable t = true ∧ p'.holds = true) ∨
    (locks = setLock s.shared (Q.question t) none ∧ p.holds = true ∧ p'.holds = false) := by
  cases moves <;> grind

theorem Queries.Moves.past (past : p.past = true) : p'.past = true := by
  cases moves <;> grind

theorem Queries.Moves.waiting {o : τ} (waits : p' = .waiting o) :
    p.holds = false ∧ Q.cacheable t = true ∧ s.shared (Q.question t) = some o := by
  cases moves <;> grind

theorem Queries.Moves.quiet (asks : p.asks = true) :
    ∀ u, Q.parent u = some t → (s.pc u).active = false := by
  cases moves <;> grind

theorem Queries.Moves.entered (entered : p'.entered = true) :
    p.entered = true ∨ (Q.call t).settled = false := by
  cases moves <;> grind

theorem Queries.Moves.asks (asks : p'.asks = true) : Q.loops t = false := by
  cases moves <;> grind

theorem Queries.Moves.idle (idle : p = .idle) : Q.callable t s = true := by
  cases moves <;> grind

theorem Queries.Moves.active (active : p'.active = true) :
    p.active = true ∨ Q.callable t s = true := by
  cases moves <;> grind

end

theorem Queries.Moves.past_kept (moves : Q.Moves t s c (s.pc t) s'.shared (s'.pc t))
    (others : ∀ u, u ≠ t → s'.pc u = s.pc u) {o : τ} (past : (s.pc o).past = true) :
      (s'.pc o).past = true := by
  by_cases mine : o = t
  · rw [mine] at past ⊢
    exact moves.past past
  · rw [others o mine]
    exact past

section
variable (Q : Queries τ)

/-- The transport of the one makes the other. -/
def Queries.Makes (p t : τ) : Prop := Q.parent t = some p

/-- The one is an ancestor of the other. -/
def Queries.Above : τ → τ → Prop := TransGen Q.Makes

/-- The transports of all calls that the call is nested in are asked. -/
def Queries.Live (t : τ) : Prop := ∀ a, Q.Above a t → (Q.call a).settled = false ∧ Q.loops a = false

end

/-- The channels are those of the calls that hold them; a call waits for one with its own question,
which has come as far as to hold it; the transport of a call is being asked as long as a call of
its own is under way; and only calls that ask their transports have nested ones. -/
structure Inv (Q : Queries τ) (s : State τ) : Prop where
  held : ∀ t, (s.pc t).holds = true → s.shared (Q.question t) = some t ∧ Q.cacheable t = true
  holder : ∀ q o, s.shared q = some o → (s.pc o).holds = true ∧ Q.question o = q
  waits : ∀ t o, s.pc t = .waiting o →
    Q.cacheable t = true ∧ Q.cacheable o = true ∧ Q.question o = Q.question t ∧ (s.pc o).past = true
  nested : ∀ t p, Q.parent t = some p → (s.pc t).active = true → (s.pc p).asks = true
  unsettled : ∀ t, (s.pc t).entered = true → (Q.call t).settled = false
  apart : ∀ t, (s.pc t).asks = true → Q.loops t = false
  live : ∀ t, s.pc t ≠ .idle → Q.Live t

theorem Inv.init (Q : Queries τ) : Inv Q init where
  held _ holds := by cases holds
  holder _ _ stored := by cases stored
  waits _ _ waiting := by cases waiting
  nested _ _ _ active := by cases active
  unsettled _ entered := by cases entered
  apart _ asks := by cases asks
  live _ begun := absurd rfl begun

section
variable (inv : Inv Q s) (moves : Q.Moves t s c (s.pc t) s'.shared (s'.pc t))
  (others : ∀ u, u ≠ t → s'.pc u = s.pc u)
include inv moves others

theorem Inv.held_step (u : τ) (holds : (s'.pc u).holds = true) :
    s'.shared (Q.question u) = some u ∧ Q.cacheable u = true := by
  have own := inv.held t
  have held := inv.held u
  by_cases same : u = t <;>
    rcases moves.holds with ⟨locks, _⟩ | ⟨locks, _⟩ | ⟨locks, _⟩ <;> rw [locks] <;> grind

theorem Inv.holder_step (q : Question) (o : τ) (stored : s'.shared q = some o) :
    (s'.pc o).holds = true ∧ Q.question o = q := by
  have holder := inv.holder q o
  by_cases same : o = t <;>
    rcases moves.holds with ⟨locks, _⟩ | ⟨locks, _⟩ | ⟨locks, _⟩ <;> rw [locks] at stored <;> grind

theorem Inv.waits_step (u o : τ) (waiting : s'.pc u = .waiting o) :
    Q.cacheable u = true ∧ Q.cacheable o = true ∧ Q.question o = Q.question u ∧
      (s'.pc o).past = true := by
  by_cases mine : u = t
  · subst mine
    obtain ⟨out, cached, stored⟩ := moves.waiting waiting
    obtain ⟨holds, same⟩ := inv.holder _ o stored
    have other : o ≠ u := by grind
    rw [others o other]
    exact ⟨cached, (inv.held o holds).2, same, past_of_holds holds⟩
  · rw [others u mine] at waiting
    obtain ⟨cached, cached', same, past⟩ := inv.waits u o waiting
    exact ⟨cached, cached', same, moves.past_kept others past⟩

theorem Inv.nested_step (u p : τ) (child : Q.parent u = some p) (active : (s'.pc u).active = true) :
    (s'.pc p).asks = true := by
  have apart : u ≠ p := fun same => absurd (Q.depth_lt u p child) (by simp [same])
  by_cases mine : u = t
  · subst mine
    rw [others p apart.symm]
    rcases moves.active active with before | may
    · exact inv.nested u p child before
    · simpa [callable, child] using may
  · rw [others u mine] at active
    have asks := inv.nested u p child active
    by_cases parent : p = t
    · -- the transport of `t` does not come back while `u` is under way
      subst parent
      rw [moves.quiet asks u child] at active
      cases active
    · rw [others p parent]
      exact asks

theorem Inv.live_step (u : τ) (begun : s'.pc u ≠ .idle) : Q.Live u := by
  by_cases mine : u = t
  · subst mine
    by_cases idle : s.pc u = .idle
    · intro a above
      have may := moves.idle idle
      -- the call is made by a transport that is being asked
      obtain ⟨p, above, child : Q.parent u = some p⟩ := TransGen.tail'_iff.mp above
      have asks : (s.pc p).asks = true := by simpa [callable, child] using may
      rcases reflTransGen_iff_eq_or_transGen.mp above with rfl | above
      · exact ⟨inv.unsettled _ (entered_of_asks asks).1, inv.apart _ asks⟩
      · exact inv.live p (entered_of_asks asks).2 a above
    · exact inv.live u idle
  · rw [others u mine] at begun
    exact inv.live u begun

theorem Inv.step : Inv Q s' where
  held := inv.held_step moves others
  holder := inv.holder_step moves others
  waits := inv.waits_step moves others
  nested := inv.nested_step moves others
  unsettled u entered := by
    by_cases mine : u = t
    · subst mine
      exact (moves.entered entered).elim (inv.unsettled u) id
    · exact inv.unsettled u (by rwa [others u mine] at entered)
  apart u asks := by
    by_cases mine : u = t
    · subst mine
      exact moves.asks asks
    · exact inv.apart u (by rwa [others u mine] at asks)
  live := inv.live_step moves others

end

variable [Fintype τ] [DecidableEq τ]

theorem act_moves (h : Q.act t s p c = some (locks, p')) : Q.Moves t s c p locks p' := by
  cases p with
  | begun => cases c <;> grind [act, begin_]
  | _ => cases c <;> grind [act, quiet, Choice.prompt, Result.proper]

theorem step_moves (taken : Q.step s (t, c) = some s') :
    Q.Moves t s c (s.pc t) s'.shared (s'.pc t) ∧ ∀ u, u ≠ t → s'.pc u = s.pc u := by
  obtain ⟨acted, others⟩ := Threads.step_cases taken
  exact ⟨act_moves acted, others⟩

theorem reachable_inv (reached : Reachable Q.step init s) : Inv Q s := by
  apply Run.invariant reached (Inv.init Q)
  rintro s ⟨t, c⟩ s' inv _ taken
  obtain ⟨moves, others⟩ := step_moves taken
  exact inv.step moves others

/-- In every run at most one call has stored a channel for a question, a call waits for one with its
own question, and no channel is left when no call is under way. -/
theorem channels_of_run (reached : Reachable Q.step init s) :
    (∀ t u, (s.pc t).holds = true → (s.pc u).holds = true → Q.question t = Q.question u → t = u) ∧
    (∀ t o, s.pc t = .waiting o → Q.question o = Q.question t ∧ (s.pc o).past = true) ∧
    ((∀ t, (s.pc t).active = false) → s.shared = fun _ => none) := by
  have inv := reachable_inv reached
  refine ⟨fun t u first second same => ?_, fun t o waiting => (inv.waits t o waiting).2.2,
    fun ended => ?_⟩
  · have stored := (inv.held t first).1
    rw [same, (inv.held u second).1] at stored
    exact (Option.some.inj stored).symm
  · funext question
    by_contra left
    obtain ⟨o, stored⟩ := Option.ne_none_iff_exists'.mp left
    have holds := (inv.holder question o stored).1
    have idle := ended o
    cases here : s.pc o <;> simp [here, Place.active, Place.holds] at holds idle

/-- What a call has left to do. -/
def Place.left : Place τ → Nat
  | idle => 8
  | begun => 7
  | waiting _ => 6
  | loading _ => 5
  | checking _ => 4
  | asking _ => 3
  | deleting _ => 2
  | closing _ => 1
  | returned _ => 0

omit [Fintype τ] [DecidableEq τ] in
theorem Queries.Moves.left (moves : Q.Moves t s c p locks p') : p'.left < p.left := by
  cases moves <;> grind [left]

def left (s : State τ) : Nat := ∑ t, (s.pc t).left

theorem exec_le {as : List (τ × Choice)} (ran : exec Q.step init as = some s) :
    as.length ≤ 8 * Fintype.card τ := by
  have all : left (init : State τ) = 8 * Fintype.card τ := by
    simp [left, init, Place.left, Nat.mul_comm]
  rw [← all]
  apply exec_length_le ran trivial (fun _ _ _ _ _ => trivial)
  rintro s ⟨t, c⟩ s' _ _ taken
  obtain ⟨moves, others⟩ := step_moves taken
  have less := moves.left
  have sum := Threads.sum_places (g := fun _ => Place.left) others
  rw [left, left]
  omega

/-- No call does anything but give up waiting. -/
def Queries.Stuck (Q : Queries τ) (s : State τ) : Prop :=
  ∀ t c, c.prompt = true → Q.step s (t, c) = none

theorem Queries.Stuck.act (stuck : Q.Stuck s) (t : τ) {c : Choice} (prompt : c.prompt = true) :
    Q.act t s (s.pc t) c = none :=
  Option.map_eq_none_iff.mp (stuck t c prompt)

/-- A call that cannot go on waits for another, or for one of its own transport. -/
theorem blocked (stuck : Q.Stuck s) (active : (s.pc t).active = true) :
    (∃ o, s.pc t = .waiting o ∧ (s.pc o).isReturned = false) ∨
      (s.pc t).asks = true ∧ ∃ u, Q.parent u = some t ∧ (s.pc u).active = true := by
  have go := stuck.act t (c := .go) rfl
  have answer := stuck.act t (c := .answer) rfl
  cases place : s.pc t with
  | idle | returned result =>
    rw [place] at active
    cases active
  | waiting o =>
    rw [place] at go
    refine .inl ⟨o, rfl, ?_⟩
    simpa [act] using go
  | asking owns =>
    rw [place] at answer
    refine .inr ⟨rfl, ?_⟩
    simpa [act, quiet] using answer
  | _ =>
    rw [place] at go
    cases go

section
variable (Q : Queries τ)

/-- The call comes to the cache. -/
structure Queries.Cached (t : τ) : Prop where
  live : Q.Live t
  unsettled : (Q.call t).settled = false
  cacheable : Q.cacheable t = true

/-- A query for the one question leads to one for the other, both through the cache. -/
def Queries.Nests (q q' : Question) : Prop :=
  ∃ a u, Q.Above a u ∧ (Q.cacheable a = true ∧ Q.question a = q) ∧ Q.Cached u ∧ Q.question u = q'

/-- No question leads to itself, also not through those that wait for it. -/
def Queries.Acyclic : Prop := ∀ q, ¬ TransGen Q.Nests q q

end

omit [Fintype τ] [DecidableEq τ] in
theorem Inv.cached (inv : Inv Q s) {o : τ} (waiting : s.pc t = .waiting o) : Q.Cached t :=
  ⟨inv.live t (by grind), inv.unsettled t (by grind), (inv.waits t o waiting).1⟩

omit [Fintype τ] [DecidableEq τ] in
theorem above_depth {a u : τ} (above : TransGen Q.Makes a u) : Q.depth a < Q.depth u := by
  induction above with
  | single made => exact Q.depth_lt _ _ made
  | tail _ made ih => exact Nat.lt_trans ih (Q.depth_lt _ _ made)

omit [Fintype τ] [DecidableEq τ] in
theorem above_irrefl (Q : Queries τ) (t : τ) : ¬ TransGen Q.Makes t t :=
  fun above => Nat.lt_irrefl _ (above_depth above)

/-- Where nothing goes on, a call that is under way waits at the end for the channel of another. -/
theorem waiting_below (stuck : Q.Stuck s) (active : (s.pc t).active = true) :
    ∃ u o, ReflTransGen Q.Makes t u ∧ s.pc u = .waiting o ∧ (s.pc o).isReturned = false := by
  apply Classical.byContradiction
  intro never
  let under (u : τ) : Prop := ReflTransGen Q.Makes t u ∧ (s.pc u).active = true
  have next (u : τ) (here : under u) : ∃ v, Q.Makes u v ∧ under v := by
    obtain ⟨o, waiting, open_⟩ | ⟨_, v, made, active⟩ := blocked stuck here.2
    · exact absurd ⟨u, o, here.1, waiting, open_⟩ never
    · exact ⟨v, made, here.1.tail made, active⟩
  exact Dependency.not_endless (above_irrefl Q) next t ⟨.refl, active⟩

/-- A call that others may wait for. -/
def Queries.Awaited (Q : Queries τ) (s : State τ) (o : τ) : Prop :=
  Q.cacheable o = true ∧ (s.pc o).past = true ∧ (s.pc o).isReturned = false

omit [Fintype τ] [DecidableEq τ] in
theorem Queries.Awaited.active {o : τ} (awaited : Q.Awaited s o) :
    (s.pc o).active = true ∧ ∀ o', s.pc o ≠ .waiting o' := by
  obtain ⟨_, past, open_⟩ := awaited
  cases place : s.pc o <;> grind [isReturned]

/-- A call with a channel that cannot go on has a nested one that waits for another channel. -/
theorem awaited_next (inv : Inv Q s) (stuck : Q.Stuck s) {o : τ} (awaited : Q.Awaited s o) :
    ∃ o', Q.Nests (Q.question o) (Q.question o') ∧ Q.Awaited s o' := by
  obtain ⟨active, apart⟩ := awaited.active
  obtain ⟨o', waiting, _⟩ | ⟨_, u, made, active⟩ := blocked stuck active
  · exact absurd waiting (apart o')
  · obtain ⟨v, o', below, waiting, open_⟩ := waiting_below stuck active
    obtain ⟨cached, cached', same, past⟩ := inv.waits v o' waiting
    have above : Q.Above o v := TransGen.head' made below
    exact ⟨o', ⟨o, v, above, ⟨awaited.1, rfl⟩, inv.cached waiting, same.symm⟩, cached', past, open_⟩

/-- Without a cycle of questions some call that is under way can go on. -/
theorem not_stuck (acyclic : Q.Acyclic) (inv : Inv Q s) (active : (s.pc t).active = true) :
    ¬ Q.Stuck s := by
  intro stuck
  have noCycle (o : τ) : ¬ TransGen (fun o o' => Q.Nests (Q.question o) (Q.question o')) o o := by
    intro cycle
    exact acyclic _ (cycle.lift Q.question fun _ _ nests => nests)
  have none_ := Dependency.not_endless noCycle fun o awaited => awaited_next inv stuck awaited
  obtain ⟨u, o, _, waiting, open_⟩ := waiting_below stuck active
  obtain ⟨_, cached, _, past⟩ := inv.waits u o waiting
  exact none_ o ⟨cached, past, open_⟩

/-- The result with which the call returns. -/
def Place.ending : Place τ → Option Result
  | deleting result => some result
  | closing result => some result
  | returned result => some result
  | _ => none

omit [Fintype τ] [DecidableEq τ] in
theorem Queries.Moves.ending {r : Result} (moves : Q.Moves t s c p locks p')
    (prompt : c.prompt = true)
    (ends : p'.ending = some r) : p.ending = some r ∨ r.proper = true := by
  cases moves <;> grind [ending, Result.proper]

/-- What happens if every transport answers at once. -/
abbrev Queries.Promptly (Q : Queries τ) (s : State τ) : Prop :=
  Run Q.step (fun _ a => a.2.prompt = true) init s

theorem promptly_proper (run : Q.Promptly s) :
    Inv Q s ∧ ∀ t r, (s.pc t).ending = some r → r.proper = true := by
  apply Run.invariant run
  · exact ⟨Inv.init Q, fun _ _ ends => by cases ends⟩
  · rintro s ⟨t, c⟩ s' ⟨inv, proper⟩ prompt taken
    obtain ⟨moves, others⟩ := step_moves taken
    refine ⟨inv.step moves others, fun u r ends => ?_⟩
    by_cases mine : u = t
    · rw [mine] at ends
      exact (moves.ending prompt ends).elim (proper t r) id
    · rw [others u mine] at ends
      exact proper u r ends

/-- If every transport answers at once, there is something to do as long as a call is under way, not
for ever, and no call returns because its wait was too long. -/
structure Queries.Returns (Q : Queries τ) : Prop where
  goesOn : ∀ s, Q.Promptly s → (∃ t, (s.pc t).active = true) →
    ∃ t c s', c.prompt = true ∧ Q.step s (t, c) = some s'
  ends : ∀ as s, exec Q.step init as = some s → as.length ≤ 8 * Fintype.card τ
  proper : ∀ s, Q.Promptly s → ∀ t r, s.pc t = .returned r → r = .answered ∨
    r = .failed ∨ r = .loopback

theorem queries_return (Q : Queries τ) (acyclic : Q.Acyclic) : Q.Returns where
  goesOn := by
    rintro s run ⟨t, active⟩
    apply Classical.byContradiction
    intro never
    apply not_stuck acyclic (promptly_proper run).1 active
    intro u c prompt
    apply Option.eq_none_iff_forall_not_mem.mpr
    exact fun s' taken => never ⟨u, c, s', prompt, taken⟩
  ends := fun _ _ => exec_le
  proper := by
    intro s run t r returned
    have proper := (promptly_proper run).2 t r (by rw [returned]; rfl)
    cases r with
    | answered => exact .inl rfl
    | failed => exact .inr (.inl rfl)
    | loopback => exact .inr (.inr rfl)
    | waitTimeout => cases proper
    | canceled => cases proper

/-- The calls under way are those that the call is nested in, and their transports are being
asked. -/
structure Descended (Q : Queries τ) (u : τ) (s : State τ) : Prop where
  asking : ∀ a, Q.Above a u → s.pc a = .asking (Q.cacheable a)
  idle : ∀ a, ¬ Q.Above a u → s.pc a = .idle

/-- Some call can come to wait for one that it is nested in. -/
def Queries.WaitsForItself (Q : Queries τ) : Prop :=
  ∃ s, Reachable Q.step init s ∧ ∃ t o, s.pc t = .waiting o ∧ Q.Above o t

theorem goes (p' : Place τ) (reached : Reachable Q.step init s) (here : s.pc t = p)
    (acts : (Q.act t s p c).map Prod.snd = some p') :
    ∃ s', Reachable Q.step init s' ∧ s'.pc t = p' ∧ ∀ u, u ≠ t → s'.pc u = s.pc u := by
  obtain ⟨next, acted, rfl⟩ := Option.map_eq_some_iff.mp acts
  have taken : Q.step s (t, c) = some ⟨next.1, fun u => if u = t then next.2 else s.pc u⟩ := by
    simp only [Queries.step, Threads.step, here, acted, Option.map_some]
  exact ⟨_, reached.next trivial taken, if_pos rfl, fun u other => if_neg other⟩

/-- The call is made. -/
theorem Descended.begin_ (down : Descended Q t s) (reached : Reachable Q.step init s) :
    ∃ s', Reachable Q.step init s' ∧ s'.pc t = .begun ∧ ∀ u, u ≠ t → s'.pc u = s.pc u := by
  have may : Q.callable t s = true := by
    unfold callable
    cases parent : Q.parent t with
    | none => rfl
    | some p => simp [down.asking p (.single parent), asks]
  exact goes .begun (c := .call) reached (down.idle t (above_irrefl Q t)) (by simp [act, may])

/-- A call comes to ask its transport, where none that it is nested in holds a channel for its
question. -/
theorem Descended.ask (down : Descended Q t s) (reached : Reachable Q.step init s)
    (unsettled : (Q.call t).settled = false) (apart : Q.loops t = false) :
    Q.WaitsForItself ∨ ∃ s', Reachable Q.step init s' ∧ s'.pc t = .asking (Q.cacheable t) ∧
      ∀ u, u ≠ t → s'.pc u = s.pc u := by
  obtain ⟨s₁, reached₁, begun, others₁⟩ := down.begin_ reached
  have checked : Q.WaitsForItself ∨ ∃ s', Reachable Q.step init s' ∧
    s'.pc t = .checking (Q.cacheable t) ∧
      ∀ u, u ≠ t → s'.pc u = s₁.pc u := by
    cases cached : Q.cacheable t with
    | false =>
      exact .inr (goes _ (c := .go) reached₁ begun
        (by simp [act, Queries.begin_, unsettled, cached]))
    | true =>
      cases held : s₁.shared (Q.question t) with
      | some o =>
        obtain ⟨s₂, reached₂, waiting, _⟩ := goes (.waiting o) (c := .go) reached₁ begun
          (by simp [act, Queries.begin_, unsettled, cached, held])
        refine .inl ⟨s₂, reached₂, t, o, waiting, ?_⟩
        -- the owner is under way
        by_contra outside
        have holds := ((reachable_inv reached₁).holder _ o held).1
        have other : o ≠ t := by grind
        rw [others₁ o other, down.idle o outside] at holds
        cases holds
      | none =>
        obtain ⟨s₂, reached₂, loading, others₂⟩ := goes (.loading true) (c := .go) reached₁ begun
          (by simp [act, Queries.begin_, unsettled, cached, held])
        obtain ⟨s₃, reached₃, checking, others₃⟩ :=
          goes (.checking true) (c := .go) reached₂ loading rfl
        exact .inr ⟨s₃, reached₃, checking,
          fun u other => (others₃ u other).trans (others₂ u other)⟩
  refine checked.imp_right ?_
  rintro ⟨s₂, reached₂, checking, others₂⟩
  obtain ⟨s₃, reached₃, asking, others₃⟩ :=
    goes (.asking (Q.cacheable t)) (c := .go) reached₂ checking (by simp [act, apart])
  exact ⟨s₃, reached₃, asking, fun u other =>
    (others₃ u other).trans ((others₂ u other).trans (others₁ u other))⟩

/-- A live call can be come to by asking the transports above it, unless one of them waits for
itself. -/
theorem descends {u : τ} (live : Q.Live u) :
    Q.WaitsForItself ∨ ∃ s, Reachable Q.step init s ∧ Descended Q u s := by
  induction depth : Q.depth u using Nat.strong_induction_on generalizing u with
  | _ n ih =>
  cases parent : Q.parent u with
  | none =>
    refine .inr ⟨init, .start, fun a above => ?_, fun _ _ => rfl⟩
    obtain ⟨p, _, made : Q.parent u = some p⟩ := TransGen.tail'_iff.mp above
    rw [parent] at made
    cases made
  | some p =>
    have above_iff (a : τ) : Q.Above a u ↔ a = p ∨ Q.Above a p := by
      have last (b : τ) : Q.Makes b u ↔ p = b := by rw [Makes, parent, Option.some.injEq]
      rw [Above, TransGen.tail'_iff]
      simp only [last, exists_eq_right']
      exact reflTransGen_iff_eq_or_transGen.trans (or_congr_left eq_comm)
    have here := live p ((above_iff p).mpr (.inl rfl))
    rcases ih _ (depth ▸ Q.depth_lt u p parent)
      (fun a above => live a ((above_iff a).mpr (.inr above))) rfl with
      waits | ⟨s, reached, down⟩
    · exact .inl waits
    · refine (down.ask reached here.1 here.2).imp_right ?_
      rintro ⟨s', reached', asking, others⟩
      refine ⟨s', reached', fun a above => ?_, fun a outside => ?_⟩
      · by_cases same : a = p
        · rw [same]
          exact asking
        · rw [others a same]
          exact down.asking a (((above_iff a).mp above).resolve_left same)
      · rw [above_iff, not_or] at outside
        rw [others a outside.1]
        exact down.idle a outside.2

theorem waits_of_nests {q : Question} (nests : Q.Nests q q) : Q.WaitsForItself := by
  obtain ⟨a, u, above, ⟨cached, named⟩, own, same⟩ := nests
  rcases descends own.live with waits | ⟨s, reached, down⟩
  · exact waits
  obtain ⟨s₁, reached₁, begun, others⟩ := down.begin_ reached
  have apart : a ≠ u := fun here => above_irrefl Q u (here ▸ above)
  have asking : s₁.pc a = .asking true := by rw [others a apart, down.asking a above, cached]
  have held : s₁.shared (Q.question u) = some a := by
    rw [same, ← named]
    exact ((reachable_inv reached₁).held a (by rw [asking]; rfl)).1
  obtain ⟨s₂, reached₂, waiting, _⟩ := goes (.waiting a) (c := .go) reached₁ begun
    (by simp [act, Queries.begin_, own.unsettled, own.cacheable, held])
  exact ⟨s₂, reached₂, u, a, waiting, above⟩

/-- **A query never waits for itself** exactly when no question leads to itself at once; and nested
queries return by themselves if no question leads to itself at all. -/
theorem waits_iff_nests (Q : Queries τ) :
    (Q.WaitsForItself ↔ ∃ q, Q.Nests q q) ∧ (Q.Acyclic → Q.Returns) := by
  refine ⟨⟨?_, fun ⟨_, nests⟩ => waits_of_nests nests⟩, queries_return Q⟩
  rintro ⟨s, reached, t, o, waiting, above⟩
  have inv := reachable_inv reached
  obtain ⟨_, cached, same, _⟩ := inv.waits t o waiting
  exact ⟨Q.question t, o, t, above, ⟨cached, same⟩, inv.cached waiting, rfl⟩

end

def viaServer (name server : Bytes) : Queries (Fin 2) where
  call t :=
    if t = 0 then { question := ⟨name, typeA, 1⟩, transport := utf8 "https" }
    else { question := ⟨server, typeA, 1⟩, transport := utf8 "local" }
  parent t := if t = 0 then none else some 0
  depth t := t.val
  depth_lt := by decide

theorem viaServer_nests {name server : Bytes} {q q' : Question}
    (nests : (viaServer name server).Nests q q') :
    q.name = name ∧ q'.name = server := by
  obtain ⟨a, u, above, ⟨_, rfl⟩, _, rfl⟩ := nests
  have deeper : a.val < u.val := above_depth above
  have first : a = 0 := by omega
  have second : u = 1 := by omega
  rw [first, second]
  exact ⟨rfl, rfl⟩

/-- The server is looked up while the query for another name is under way. -/
theorem server_name_returns :
    (viaServer (utf8 "example.org.") (utf8 "dns.example.net.")).Returns := by
  apply (waits_iff_nests _).2
  intro q cycle
  obtain ⟨_, out, _⟩ := TransGen.head'_iff.mp cycle
  obtain ⟨_, _, back⟩ := TransGen.tail'_iff.mp cycle
  have same := (viaServer_nests out).1.symm.trans (viaServer_nests back).2
  revert same
  decide

theorem answered_unlocked : ∃ s, Reachable (viaServer (utf8 "a.") (utf8 "b.")).step init s ∧
    s.pc 0 = .returned .answered ∧ s.shared = fun _ => none := by
  have run : exec (viaServer (utf8 "a.") (utf8 "b.")).step init
      [(0, .call), (0, .go), (0, .found), (0, .go), (0, .go)] = some _ := rfl
  exact ⟨_, exec_reachable run, rfl, (channels_of_run (exec_reachable run)).2.2 (by decide)⟩

/-- The name of the server is itself asked for, so that the query of the transport waits for the one
that it is a part of: nothing can happen but the end of the wait. -/
theorem own_name_waits :
    ∃ s, Reachable (viaServer (utf8 "dns.example.net.") (utf8 "dns.example.net.")).step init s ∧
      s.pc 1 = .waiting 0 ∧
        (viaServer (utf8 "dns.example.net.") (utf8 "dns.example.net.")).Above 0 1 ∧
      ∀ t c, c.prompt = true →
        (viaServer (utf8 "dns.example.net.") (utf8 "dns.example.net.")).step s (t, c) = none := by
  have run : ∃ s, exec (viaServer (utf8 "dns.example.net.") (utf8 "dns.example.net.")).step init
      [(0, .call), (0, .go), (0, .go), (0, .go), (1, .call), (1, .go)] = some s ∧
      s.pc 0 = .asking true ∧ s.pc 1 = .waiting 0 := ⟨_, rfl, rfl, rfl⟩
  obtain ⟨s, ran, asking, waiting⟩ := run
  refine ⟨s, exec_reachable ran, waiting, .single rfl, ?_⟩
  have busy : (viaServer (utf8 "dns.example.net.") (utf8 "dns.example.net.")).quiet 0 s =
    false := by
    rw [quiet, decide_eq_false_iff_not]
    intro quiet
    have idle := quiet 1 rfl
    rw [waiting] at idle
    cases idle
  intro t c prompt
  apply Option.map_eq_none_iff.mpr
  match t with
  | 0 => cases c <;> simp [act, asking, busy]
  | 1 => cases c <;> simp_all [act, Choice.prompt, isReturned]

end AiboosterEngine.Dns.Coalesce
