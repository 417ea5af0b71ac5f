import AiboosterEngine.GoSem.Loop
import AiboosterEngine.GoSem.Map
import AiboosterEngine.GoSem.Threads

/-!
# The UDP transport

`nextAvailableQueryId`, `Exchange`, `exchange` and `recvLoop` of `dns/transport/udp.go`, for
any number of calls of `Exchange` over one connection. Each lock region is one step, and so
are writing the query, the end of the wait and the retry over TCP. The server can answer
every query it was sent, with the identifier and the question of that query.
-/

namespace AiboosterEngine.Dns.Udp
open GoSem Threads UInt16

def errNoAvailableQueryId : String := "no available query ID"

/-- One pass of the loop of `nextAvailableQueryId`, from the value of `t.queryId`. -/
def nextPass (used : UInt16 → Bool) (start queryId : UInt16) :
    Partial String (Pass UInt16 UInt16) :=
  let queryId := queryId + 1
  if !used queryId then some (.ok (.leave queryId))
  else if queryId = start then some (.err errNoAvailableQueryId)
  else some (.ok (.again queryId))

/-- The loop has at most one pass for each identifier. -/
def nextAvailableQueryId (used : UInt16 → Bool) (queryId : UInt16) : Partial String UInt16 :=
  loop (nextPass used queryId) 65536 queryId

section
variable {used : UInt16 → Bool} {start queryId id : UInt16}
  {result : Pass UInt16 UInt16} {e : String}

/-- The identifiers after `start`, as far as the loop has come, are in use. -/
def Tried (used : UInt16 → Bool) (start queryId : UInt16) : Prop :=
  ∀ id : UInt16, (id - start - 1).toNat < (queryId - start).toNat → used id = true

theorem tried_start : Tried used start start := by
  intro id less
  simp at less

theorem Tried.and_next (tried : Tried used start queryId) (here : used (queryId + 1) = true)
    (le : (id - start - 1).toNat ≤ (queryId - start).toNat) : used id = true := by
  obtain less | same := Nat.lt_or_eq_of_le le
  · exact tried id less
  · have this : id = queryId + 1 := by
      have same := UInt16.toNat_inj.mp same
      grind
    rw [this]
    exact here

theorem toNat_next_sub (apart : queryId + 1 ≠ start) :
    (queryId + 1 - start).toNat = (queryId - start).toNat + 1 := by
  have apart : (queryId + 1).toNat ≠ start.toNat := fun same => apart (UInt16.toNat_inj.mp same)
  have first := queryId.toNat_lt
  have second := start.toNat_lt
  simp only [UInt16.toNat_sub, UInt16.toNat_add, UInt16.toNat_one] at apart ⊢
  omega

theorem toNat_last_sub (last : queryId + 1 = start) : (queryId - start).toNat = 65535 := by
  have first := queryId.toNat_lt
  rw [← last]
  simp only [UInt16.toNat_sub, UInt16.toNat_add, UInt16.toNat_one]
  omega

attribute [local grind] nextPass

theorem comes_tried (h : Comes (nextPass used start) start queryId) : Tried used start queryId := by
  apply h.invariant tried_start
  intro q later tried again
  obtain ⟨here, apart, rfl⟩ : used (q + 1) = true ∧ q + 1 ≠ start ∧ q + 1 = later := by grind
  intro id less
  rw [toNat_next_sub apart] at less
  exact tried.and_next here (Nat.le_of_lt_succ less)

theorem nextAvailableQueryId_found (h : nextAvailableQueryId used start = some (.ok id)) :
    used id = false := by
  obtain ⟨q, _, left⟩ := loop_last h
  grind [Pass.last]

theorem nextAvailableQueryId_failed (h : nextAvailableQueryId used start = some (.err e))
    (id : UInt16) :
    used id = true := by
  obtain ⟨q, comes, failed⟩ := loop_last h
  obtain ⟨here, last⟩ : used (q + 1) = true ∧ q + 1 = start := by grind [Pass.last]
  apply (comes_tried comes).and_next here
  have all := toNat_last_sub last
  have below := (id - start - 1).toNat_lt
  omega

theorem nextAvailableQueryId_ends (used : UInt16 → Bool) (start : UInt16) :
    (∃ id, nextAvailableQueryId used start = some (.ok id)) ∨
      ∃ e, nextAvailableQueryId used start = some (.err e) := by
  have returns : (nextAvailableQueryId used start).Returns := by
    apply loop_returns_of_lt (fun q => 65535 - (q - start).toNat) (by omega)
    · intro q _
      simp only [nextPass]
      split
      · exact ⟨_, rfl, trivial⟩
      · split <;> exact ⟨_, rfl, trivial⟩
    · intro q later _ again
      obtain ⟨apart, rfl⟩ : q + 1 ≠ start ∧ q + 1 = later := by grind
      have more := toNat_next_sub apart
      have below := (q + 1 - start).toNat_lt
      omega
  obtain ⟨o, ends, back⟩ := returns
  cases o with
  | ok id => exact .inl ⟨id, ends⟩
  | err e => exact .inr ⟨e, ends⟩
  | panicked => exact back.elim

theorem nextAvailableQueryId_next (free : used (start + 1) = false) :
    nextAvailableQueryId used start = some (.ok (start + 1)) := by
  apply loop_leave
  simp [nextPass, free]

end

/-- The message `Exchange` is called with. -/
structure Query (Q : Type) where
  id : UInt16
  question : Q

structure Answer (Q : Type) where
  id : UInt16
  question : Q
  truncated : Bool
  deriving DecidableEq, Repr

structure Shared (τ Q : Type) where
  queryId : UInt16 := 0
  callbacks : Map UInt16 τ := .empty
  /-- The response in the callback of each call; its channel is closed with it. -/
  response : τ → Option (Answer Q) := fun _ => none
  /-- The queries the server was sent. -/
  sent : List (UInt16 × Q) := []

inductive Result (Q : Type) where
  | response (answer : Answer Q)
  | noQueryId (e : String)
  | failed
  deriving DecidableEq, Repr

/-- `reading` and `found` are the places of the receive loop, the others those of a call. -/
inductive Place (τ Q : Type) where
  | start
  | registered (queryId : UInt16) | waiting (queryId : UInt16)
  | ending (queryId : UInt16) (response : Option (Answer Q))
  | tcp
  | returned (result : Result Q)
  | reading | found (callback : τ) (answer : Answer Q)
  deriving DecidableEq, Repr

/-- `fail` is every error besides a missing identifier, cancellation included; `receive` is the
answer to one of the queries sent. -/
inductive Choice where
  | ok | fail | receive (query : Nat) (truncated : Bool)
  deriving DecidableEq, Repr

section
variable {τ Q : Type}

/-- Where `exchange` goes on to when its identifier is free again. -/
def ended : Option (Answer Q) → Place τ Q
  | none => .returned .failed
  | some answer => if answer.truncated then .tcp else .returned (.response answer)

/-- `Exchange`, with `exchange` and `exchangeTCP`. -/
def exchange (message : Query Q) (t : τ) (s : Shared τ Q) (p : Place τ Q) (c : Choice) :
    Option (Shared τ Q × Place τ Q) :=
  match p with
  | .start =>
    -- The transport is closed, or there is no connection.
    if c = .fail then some (s, .returned .failed)
    else
      match nextAvailableQueryId (fun id => (s.callbacks.get id).isSome) s.queryId with
      | some (.ok queryId) =>
        some ({ s with queryId := queryId, callbacks := s.callbacks.set queryId t },
          .registered queryId)
      | some (.err e) => some (s, .returned (.noQueryId e))
      | some .panicked | none => none
  | .registered queryId =>
    match c with
    | .ok => some ({ s with sent := s.sent ++ [(queryId, message.question)] }, .waiting queryId)
    | .fail => some (s, .ending queryId none)
    | .receive _ _ => none
  | .waiting queryId =>
    match c with
    | .ok => (s.response t).map fun answer =>
        (s, .ending queryId (some { answer with id := message.id }))
    | .fail => some (s, .ending queryId none)
    | .receive _ _ => none
  | .ending queryId response =>
      some ({ s with callbacks := s.callbacks.delete queryId }, ended response)
  | .tcp =>
    match c with
    | .receive _ truncated =>
        some (s, .returned (.response ⟨message.id, message.question, truncated⟩))
    | .fail => some (s, .returned .failed)
    | .ok => none
  | .returned _ | .reading | .found _ _ => none

variable [DecidableEq τ]

def recvLoop (s : Shared τ Q) (p : Place τ Q) (c : Choice) : Option (Shared τ Q × Place τ Q) :=
  match p with
  | .reading =>
    match c with
    | .receive query truncated =>
      s.sent[query]?.map fun sent =>
        match s.callbacks.get sent.1 with
        | some callback => (s, .found callback ⟨sent.1, sent.2, truncated⟩)
        | none => (s, .reading)
    | .ok | .fail => none
  | .found callback answer =>
    if (s.response callback).isSome then some (s, .reading)
    else some ({ s with response := fun t => if t = callback then some answer else s.response t },
      .reading)
  | _ => none

/-- `none` is the receive loop. -/
def act (message : τ → Query Q) (t : Option τ) (s : Shared τ Q) (p : Place τ Q) (c : Choice) :
    Option (Shared τ Q × Place τ Q) :=
  match t with
  | some t => exchange (message t) t s p c
  | none => recvLoop s p c

def init : Threads (Option τ) (Shared τ Q) (Place τ Q) :=
  { shared := {}, pc := fun t => if t.isSome then .start else .reading }

inductive Exchanges (message : Query Q) (t : τ) (s : Shared τ Q) :
    Place τ Q → Shared τ Q → Place τ Q → Prop
  | refused : Exchanges message t s .start s (.returned .failed)
  | registers {queryId : UInt16} (free : s.callbacks.get queryId = none) :
      Exchanges message t s .start
        { s with queryId := queryId, callbacks := s.callbacks.set queryId t } (.registered queryId)
  | noQueryId {e : String} (full : ∀ id, s.callbacks.get id ≠ none) :
      Exchanges message t s .start s (.returned (.noQueryId e))
  | sends {queryId : UInt16} :
      Exchanges message t s (.registered queryId)
        { s with sent := s.sent ++ [(queryId, message.question)] } (.waiting queryId)
  | sendFails {queryId : UInt16} :
      Exchanges message t s (.registered queryId) s (.ending queryId none)
  | answered {queryId : UInt16} {answer : Answer Q} (response : s.response t = some answer) :
      Exchanges message t s (.waiting queryId) s
        (.ending queryId (some { answer with id := message.id }))
  | givesUp {queryId : UInt16} : Exchanges message t s (.waiting queryId) s (.ending queryId none)
  | ends {queryId : UInt16} {response : Option (Answer Q)} :
      Exchanges message t s (.ending queryId response)
        { s with callbacks := s.callbacks.delete queryId } (ended response)
  | tcpAnswered {truncated : Bool} :
      Exchanges message t s .tcp s (.returned (.response ⟨message.id, message.question, truncated⟩))
  | tcpFails : Exchanges message t s .tcp s (.returned .failed)

inductive Receives (s : Shared τ Q) : Choice → Place τ Q → Shared τ Q → Place τ Q → Prop
  | unknown {c : Choice} : Receives s c .reading s .reading
  | finds {query : Nat} {id : UInt16} {question : Q} {truncated : Bool} {callback : τ}
      (sent : s.sent[query]? = some (id, question)) (loaded : s.callbacks.get id = some callback) :
      Receives s (.receive query truncated) .reading s (.found callback ⟨id, question, truncated⟩)
  | late {c : Choice} {callback : τ} {answer : Answer Q} :
      Receives s c (.found callback answer) s .reading
  | answers {c : Choice} {callback : τ} {answer : Answer Q} :
      Receives s c (.found callback answer)
        { s with response := fun t => if t = callback then some answer else s.response t } .reading

variable {message : τ → Query Q} {t : τ} {s s' : Shared τ Q} {p p' : Place τ Q} {c : Choice}

attribute [local grind intro] Exchanges Receives

omit [DecidableEq τ] in
theorem exchange_exchanges {message : Query Q} (h : exchange message t s p c = some (s', p')) :
    Exchanges message t s p s' p' := by
  cases p with
  | start =>
    simp only [exchange] at h
    split at h
    · cases h
      exact .refused
    · split at h
      · next found =>
        cases h
        have free := nextAvailableQueryId_found found
        exact .registers (by simpa using free)
      · next failed =>
        cases h
        have full := nextAvailableQueryId_failed failed
        exact .noQueryId fun id none => by simpa [none] using full id
      · cases h
      · cases h
  | waiting queryId =>
    cases c with
    | ok =>
      obtain ⟨answer, response, same⟩ := Option.map_eq_some_iff.mp h
      cases same
      exact .answered response
    | _ => grind [exchange]
  | _ => cases c <;> grind [exchange]

theorem recvLoop_receives (h : recvLoop s p c = some (s', p')) : Receives s c p s' p' := by
  cases p <;> cases c <;> grind [recvLoop]

/-- The identifier a call in flight has. -/
def Place.queryId : Place τ Q → Option UInt16
  | .registered queryId | .waiting queryId | .ending queryId _ => some queryId
  | _ => none

def Place.answer : Place τ Q → Option (Answer Q)
  | .ending _ response => response
  | .returned (.response answer) => some answer
  | _ => none

omit [DecidableEq τ] in
@[simp] theorem queryId_ended (response : Option (Answer Q)) :
    (ended response : Place τ Q).queryId = none := by
  cases response with
  | none => rfl
  | some answer => cases truncated : answer.truncated <;> simp [ended, truncated, Place.queryId]

omit [DecidableEq τ] in
theorem answer_ended {response : Option (Answer Q)} {answer : Answer Q}
    (h : (ended response : Place τ Q).answer = some answer) :
      response = some answer ∧ answer.truncated = false := by
  cases response with
  | none => cases h
  | some a => grind [ended, Place.answer]

omit [DecidableEq τ] in
/-- What a call does to the identifiers: nothing, it takes a free one, or it gives its own back. -/
theorem Exchanges.callbacks_cases {message : Query Q} (h : Exchanges message t s p s' p') :
    (s'.callbacks = s.callbacks ∧ p'.queryId = p.queryId) ∨
    (∃ id, s.callbacks.get id = none ∧ s'.callbacks = s.callbacks.set id t ∧ p.queryId = none ∧
      p'.queryId = some id) ∨
    (∃ id, p.queryId = some id ∧ s'.callbacks = s.callbacks.delete id ∧ p'.queryId = none) := by
  cases h with
  | registers free => exact .inr (.inl ⟨_, free, rfl, rfl, rfl⟩)
  | ends => exact .inr (.inr ⟨_, rfl, rfl, queryId_ended _⟩)
  | _ => exact .inl ⟨rfl, rfl⟩

theorem Receives.callbacks (h : Receives s c p s' p') : s'.callbacks = s.callbacks := by
  cases h <;> rfl

variable {w w' : Threads (Option τ) (Shared τ Q) (Place τ Q)}

/-- The callbacks are those of the calls in flight, each under its own identifier. -/
def Registered (w : Threads (Option τ) (Shared τ Q) (Place τ Q)) : Prop :=
  ∀ t id, (w.pc (some t)).queryId = some id ↔ w.shared.callbacks.get id = some t

theorem Registered.step {who : Option τ} (inv : Registered w)
    (taken : step (act message) w (who, c) = some w') : Registered w' := by
  obtain ⟨acted, others⟩ := step_cases taken
  cases who with
  | none =>
    have same := (recvLoop_receives acted).callbacks
    intro u id
    rw [others (some u) (by simp), same]
    exact inv u id
  | some t =>
    have cases := (exchange_exchanges acted).callbacks_cases
    unfold Registered at *
    grind +splitImp [Map.get_set, Map.get_delete]

def Named (message : τ → Query Q) (w : Threads (Option τ) (Shared τ Q) (Place τ Q)) : Prop :=
  ∀ t answer, (w.pc (some t)).answer = some answer → answer.id = (message t).id

theorem Named.step {who : Option τ} (inv : Named message w)
    (taken : step (act message) w (who, c) = some w') : Named message w' := by
  obtain ⟨acted, others⟩ := step_cases taken
  intro u answer here
  obtain ⟨self, here⟩ | ⟨_, here⟩ := place_cases (P := (·.answer = some answer)) others here
  · subst self
    have before := inv u
    have exchanges := exchange_exchanges acted
    generalize w.pc (some u) = p, w'.shared = s', w'.pc (some u) = p' at exchanges here before
    cases exchanges <;> grind [Place.answer, answer_ended]
  · exact inv u answer here

/-- An answer whose identifier another call holds by now does not come, unless both ask the same
question or the answer is truncated. -/
def Timely (message : τ → Query Q) (w : Threads (Option τ) (Shared τ Q) (Place τ Q))
    (a : Option τ × Choice) : Prop :=
  ∀ query truncated id question t, a = (none, .receive query truncated) →
    w.shared.sent[query]? = some (id, question) → w.shared.callbacks.get id = some t →
    truncated = true ∨ question = (message t).question

/-- The answer is one to the question, or will be asked for again over TCP. -/
def Fits (message : Query Q) (answer : Answer Q) : Prop :=
  answer.truncated = true ∨ answer.question = message.question

/-- What a call or the loop has in its hands at a place. -/
structure At (message : τ → Query Q) (who : Option τ) (p : Place τ Q) : Prop where
  found : ∀ t answer, p = .found t answer → Fits (message t) answer
  ending : ∀ t queryId answer, who = some t → p = .ending queryId (some answer) →
    Fits (message t) answer
  returned : ∀ t answer, who = some t → p = .returned (.response answer) →
    answer.question = (message t).question

structure Belongs (message : τ → Query Q) (w : Threads (Option τ) (Shared τ Q) (Place τ Q)) :
    Prop where
  response : ∀ t answer, w.shared.response t = some answer → Fits (message t) answer
  places : ∀ who, At message who (w.pc who)

theorem Belongs.step {who : Option τ} (inv : Belongs message w) (timely : Timely message w (who, c))
    (taken : step (act message) w (who, c) = some w') : Belongs message w' := by
  obtain ⟨acted, others⟩ := step_cases taken
  obtain ⟨response, places⟩ := inv
  obtain ⟨found, ending, returned⟩ := places who
  have own : (∀ t answer, w'.shared.response t = some answer → Fits (message t) answer) ∧
      At message who (w'.pc who) := by
    cases who with
    | none =>
      have receives := recvLoop_receives acted
      generalize w.pc none = p, w'.shared = s', w'.pc none = p' at receives found ⊢
      cases receives <;> refine ⟨?_, ?_, ?_, ?_⟩ <;> grind [Timely, Fits]
    | some t =>
      have exchanges := exchange_exchanges acted
      generalize w.pc (some t) = p, w'.shared = s', w'.pc (some t) = p' at exchanges ending ⊢
      cases exchanges with
      | @ends _ answer =>
        refine ⟨response, ?_, ?_, ?_⟩ <;> cases answer <;> grind [ended, Fits]
      | _ => refine ⟨response, ?_, ?_, ?_⟩ <;> grind [Fits]
  exact ⟨own.1, places_step (I := fun who p _ => At message who p) places others own.2 fun _ => id⟩

theorem reachable_registered (reached : Reachable (step (act message)) init w) : Registered w := by
  apply reached.invariant
  · intro t id
    simp [init, Place.queryId]
  · intro s a s' inv _ taken
    exact inv.step taken

theorem reachable_named (reached : Reachable (step (act message)) init w) : Named message w := by
  apply reached.invariant
  · intro t answer here
    cases here
  · intro s a s' inv _ taken
    exact inv.step taken

theorem timely_belongs (run : Run (step (act message)) (Timely message) init w) :
    Belongs message w := by
  apply run.invariant
  · exact ⟨by simp [init], fun who => by cases who <;> constructor <;> simp [init]⟩
  · exact fun _ _ _ => Belongs.step

/-- No callback stays behind: when no call is in flight none is registered, and the next call is
given the identifier after the last. -/
theorem callbacks_empty (reached : Reachable (step (act message)) init w)
    (idle : ∀ t, (w.pc (some t)).queryId = none) :
    w.shared.callbacks = .empty ∧ ∀ t c, w.pc (some t) = .start → c ≠ .fail →
      ∃ next, act message (some t) w.shared (w.pc (some t)) c =
        some (next, .registered (w.shared.queryId + 1)) := by
  have empty : w.shared.callbacks = .empty := by
    ext id t
    constructor
    · intro there
      rw [← reachable_registered reached t id, idle t] at there
      cases there
    · nofun
  refine ⟨empty, fun t c start works => ?_⟩
  have found : nextAvailableQueryId (fun id => (w.shared.callbacks.get id).isSome)
      w.shared.queryId = some (.ok (w.shared.queryId + 1)) :=
    nextAvailableQueryId_next (by rw [empty]; rfl)
  simp [act, exchange, start, works, found]

/-- Identifiers in flight are distinct, a call is refused one when all are in flight, and a
response has the identifier of the caller's message. It has the caller's question in the runs
where no answer comes for a call that holds the identifier of another. -/
theorem answers_belong (message : τ → Query Q) (reached : Reachable (step (act message)) init w) :
    (∀ t u id, (w.pc (some t)).queryId = some id → (w.pc (some u)).queryId = some id → t = u) ∧
    (∀ t c, w.pc (some t) = .start → c ≠ .fail →
      (∃ next id, act message (some t) w.shared (w.pc (some t)) c = some (next, .registered id)) ∨
      ∀ id, ∃ u, (w.pc (some u)).queryId = some id) ∧
    (∀ t answer, w.pc (some t) = .returned (.response answer) →
      answer.id = (message t).id ∧
      (Run (step (act message)) (Timely message) init w →
        answer.question = (message t).question)) := by
  have registered := reachable_registered reached
  refine ⟨?_, ?_, ?_⟩
  · intro t u id first second
    have same := ((registered t id).mp first).symm.trans ((registered u id).mp second)
    exact Option.some.inj same
  · intro t c start works
    obtain ⟨id, found⟩ | ⟨e, failed⟩ :=
      nextAvailableQueryId_ends (fun id => (w.shared.callbacks.get id).isSome) w.shared.queryId
    · left
      simp [act, exchange, start, works, found]
    · right
      intro id
      have used := nextAvailableQueryId_failed failed id
      obtain ⟨u, holds⟩ := Option.isSome_iff_exists.mp used
      exact ⟨u, (registered u id).mpr holds⟩
  · intro t answer returned
    constructor
    · exact reachable_named reached t answer (by rw [returned]; rfl)
    · intro run
      exact ((timely_belongs run).places (some t)).returned t answer rfl returned

end

/-- One of two calls is canceled before it has sent its query. -/
theorem canceled_empty : ∃ w, Reachable (step (act fun _ : Bool => (⟨7, ()⟩ : Query Unit))) init w ∧
    w.shared.callbacks = .empty ∧
    ∃ next, act (fun _ => ⟨7, ()⟩) (some true) w.shared (w.pc (some true)) .ok =
      some (next, .registered 2) := by
  have run : exec (step (act fun _ : Bool => (⟨7, ()⟩ : Query Unit))) init
      [(some false, .ok), (some false, .fail), (some false, .ok)] = some _ := rfl
  obtain ⟨empty, next⟩ := callbacks_empty (exec_reachable run) fun t => by cases t <;> rfl
  exact ⟨_, exec_reachable run, empty, next true .ok rfl (by decide)⟩

/-- Every call has a question of its own. -/
def numbered (t : Nat) : Query Nat := ⟨7, t⟩

theorem timely_call {τ Q : Type} {message : τ → Query Q}
    {w : Threads (Option τ) (Shared τ Q) (Place τ Q)} {t : τ}
    {c : Choice} : Timely message w (some t, c) := by
  intro query truncated id question u same
  cases same

/-- A call that is answered before any other comes. -/
theorem answered_belongs :
    ∃ w, Run (step (act numbered)) (Timely numbered) init w ∧
      w.pc (some 0) = .returned (.response ⟨7, 0, false⟩) ∧
      ∀ t answer, w.pc (some t) = .returned (.response answer) → answer.question =
        (numbered t).question := by
  have sent : ∃ w, exec (step (act numbered)) init [(some 0, .ok), (some 0, .ok)] = some w ∧
      w.shared.sent = [(1, 0)] ∧ w.shared.callbacks.get 1 = some 0 ∧
      ∃ w', exec (step (act numbered)) w [(none, .receive 0 false)] = some w' ∧
      ∃ w'', exec (step (act numbered)) w' [(none, .ok), (some 0, .ok), (some 0, .ok)] = some w'' ∧
        w''.pc (some 0) = .returned (.response ⟨7, 0, false⟩) :=
    ⟨_, rfl, rfl, rfl, _, rfl, _, rfl, rfl⟩
  obtain ⟨w, sends, sent, registered, w', receives, w'', ends, returned⟩ := sent
  have first : Run (step (act numbered)) (Timely numbered) init w :=
    exec_run sends ⟨timely_call, fun _ _ => ⟨timely_call, fun _ _ => trivial⟩⟩
  have timely : Timely numbered w (none, .receive 0 false) := by
    intro query truncated id question t same asked held
    cases same
    rw [sent] at asked
    cases asked
    rw [registered] at held
    cases held
    exact .inr rfl
  have second := first.trans (exec_run receives ⟨timely, fun _ _ => trivial⟩)
  have quiet : ∀ w, Timely numbered w (none, .ok) := by
    intro w query truncated id question u same
    cases same
  have third := second.trans (exec_run ends
    ⟨quiet w', fun _ _ => ⟨timely_call, fun _ _ => ⟨timely_call, fun _ _ => trivial⟩⟩⟩)
  have reached : Reachable (step (act numbered)) init w'' :=
    (exec_reachable sends).trans ((exec_reachable receives).trans (exec_reachable ends))
  exact ⟨w'', third, returned, fun t answer here =>
    ((answers_belong numbered reached).2.2 t answer here).2 third⟩

theorem getElem?_append_some {α : Type} {l more : List α} {i : Nat} {x : α} (h : l[i]? = some x) :
    (l ++ more)[i]? = some x := by
  grind

/-- `n` calls have been sent and canceled, one after another; the answer to the first is still
out. -/
structure Canceled (n : Nat) (w : Threads (Option Nat) (Shared Nat Nat) (Place Nat Nat)) :
    Prop where
  reached : Reachable (step (act numbered)) init w
  queryId : w.shared.queryId = ofNat n
  callbacks : w.shared.callbacks = .empty
  response : ∀ t, w.shared.response t = none
  first : 0 < n → w.shared.sent[0]? = some (1, 0)
  none_sent : n = 0 → w.shared.sent = []
  start : ∀ t, n ≤ t → w.pc (some t) = .start
  reading : w.pc none = .reading

section
variable {n : Nat} {w : Threads (Option Nat) (Shared Nat Nat) (Place Nat Nat)}
  (canceled : Canceled n w)
include canceled

theorem Canceled.sends :
    ∃ w', Reachable (step (act numbered)) init w' ∧
      w'.shared = { w.shared with
        queryId := ofNat (n + 1), callbacks := Map.empty.set (ofNat (n + 1)) n,
        sent := w.shared.sent ++ [(ofNat (n + 1), n)] } ∧
      w'.pc (some n) = .waiting (ofNat (n + 1)) ∧ ∀ u, u ≠ some n → w'.pc u = w.pc u := by
  have found : nextAvailableQueryId (fun id => (w.shared.callbacks.get id).isSome)
      w.shared.queryId = some (.ok (ofNat (n + 1))) := by
    rw [nextAvailableQueryId_next (by simp [canceled.callbacks]), canceled.queryId, ofNat_add]
    rfl
  apply reachable_alone [.ok, .ok] canceled.reached (canceled.start n .refl)
  rw [← canceled.callbacks]
  simp [alone, act, exchange, found, numbered]

theorem Canceled.succ : ∃ w', Canceled (n + 1) w' := by
  obtain ⟨w₁, reached, shared, place, others⟩ := canceled.sends
  have ran : alone (act numbered) (some n) (w₁.shared, .waiting (ofNat (n + 1))) [.fail, .ok] =
      some ({ w₁.shared with callbacks := w₁.shared.callbacks.delete (ofNat (n + 1)) },
        .returned .failed) := by
    simp [alone, act, exchange, ended]
  obtain ⟨w₂, reached, shared', _, others'⟩ := reachable_alone _ reached place ran
  have same : ∀ u, u ≠ some n → w₂.pc u = w.pc u := fun u other =>
    (others' u other).trans (others u other)
  rw [shared] at shared'
  refine ⟨w₂, reached, by rw [shared'], ?_, by rw [shared']; exact canceled.response, ?_,
    by simp, ?_, ?_⟩
  · rw [shared']
    ext id : 2
    by_cases mine : id = ofNat (n + 1) <;> simp [mine]
  · intro _
    rw [shared']
    cases n with
    | zero => simp [canceled.none_sent rfl]
    | succ n => exact getElem?_append_some (canceled.first (Nat.succ_pos n))
  · intro t later
    rw [same (some t) (by simp; omega)]
    exact canceled.start t (Nat.le_of_succ_le later)
  · rw [same none (by simp)]
    exact canceled.reading

end

theorem exists_canceled (n : Nat) : ∃ w, Canceled n w := by
  induction n with
  | zero =>
    exact ⟨init, .start, rfl, rfl, fun _ => rfl, by simp, fun _ => rfl, fun _ _ => rfl, rfl⟩
  | succ n ih =>
    obtain ⟨w, canceled⟩ := ih
    exact canceled.succ

/-- After 65536 canceled calls the identifiers begin again: the answer to the first call comes
late, for the call that has its identifier by now. -/
theorem late_answer_returned :
    ∃ w, Reachable (step (act numbered)) init w ∧
      ∃ t answer, w.pc (some t) = .returned (.response answer) ∧
        answer.question ≠ (numbered t).question := by
  obtain ⟨w, canceled⟩ := exists_canceled 65536
  obtain ⟨w₁, reached, shared, place, others⟩ := canceled.sends
  have loop : w₁.pc none = .reading := (others none (by simp)).trans canceled.reading
  have first : w₁.shared.sent[0]? = some (1, 0) := by
    rw [shared]
    exact getElem?_append_some (canceled.first (by decide))
  have loaded : w₁.shared.callbacks.get 1 = some 65536 := by
    rw [shared]
    rfl
  have waits : w₁.shared.response 65536 = none := by
    rw [shared]
    exact canceled.response 65536
  have answers : alone (act numbered) none (w₁.shared, .reading) [.receive 0 false, .ok] =
      some ({ w₁.shared with
        response := fun t => if t = 65536 then some ⟨1, 0, false⟩ else w₁.shared.response t },
          .reading) := by
    simp [alone, act, recvLoop, first, loaded, waits]
  obtain ⟨w₂, reached, shared₂, _, others₂⟩ := reachable_alone _ reached loop answers
  have place₂ : w₂.pc (some 65536) = .waiting 1 := (others₂ _ (by simp)).trans place
  have ends : alone (act numbered) (some 65536) (w₂.shared, .waiting 1) [.ok, .ok] =
      some ({ w₂.shared with callbacks := w₂.shared.callbacks.delete 1 },
        .returned (.response ⟨7, 0, false⟩)) := by
    simp [alone, act, exchange, shared₂, ended, numbered]
  obtain ⟨w₃, reached, _, place₃, _⟩ := reachable_alone _ reached place₂ ends
  exact ⟨w₃, reached, 65536, _, place₃, by simp [numbered]⟩

end AiboosterEngine.Dns.Udp
