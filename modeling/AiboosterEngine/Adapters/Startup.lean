import AiboosterEngine.GoSem.Dependency
import AiboosterEngine.GoSem.Loop
import AiboosterEngine.GoSem.Map

/-!
# Starting in the order of the dependencies

`Manager.startOutbounds` and `TransportManager.startTransports` go round the list
and start what has all its dependencies started, until a round starts nothing.
Then they follow one missing dependency after another to say what is wrong.
-/

namespace AiboosterEngine.Adapters

open GoSem List Dependency
open GoSem.Dependency (Ready Closed Acyclic InOrder)

/-- What the managers read of an outbound, an endpoint or a DNS server. -/
structure Adapter where
  /-- Tells one object from another. -/
  id : Nat
  type : String
  tag : String
  dependencies : List String
  deriving DecidableEq, Repr

open Adapter

inductive StartError where
  | failed (adapter : Adapter) (cause : String)
  | circular (oTree : List String) (problemTag : String)
  | notFound (problemTag currentTag : String)
  deriving DecidableEq, Repr

/-- The words of one manager. -/
structure Wording where
  what : String
  path : String

def outboundWording : Wording := ⟨"outbound", "outbound/"⟩

def serverWording : Wording := ⟨"server", "dns/"⟩

def StartError.text (w : Wording) : StartError → String
  | .failed adapter cause => "start " ++ w.path ++ adapter.type ++ "[" ++ adapter.tag ++
      "]: " ++ cause
  | .circular oTree problemTag =>
    "circular " ++ w.what ++ " dependency: " ++ " -> ".intercalate oTree ++ " -> " ++ problemTag
  | .notFound problemTag currentTag =>
    "dependency[" ++ problemTag ++ "] not found for " ++ w.what ++ "[" ++ currentTag ++ "]"

/-- The variables of a round; of the map `started`, the keys in the order they were set in. -/
structure Round where
  started : List String
  canContinue : Bool := false

def Round.begin (r : Round) (adapter : Adapter) : Round :=
  { started := r.started ++ [adapter.tag], canContinue := true }

/-- What the function returns, and what it has started. -/
abbrev Started := Except StartError Unit × List String

/-- How the rounds end: with a result, or at the first adapter that could not be started. -/
inductive Rounds where
  | finished (result : Started)
  | stuck (started : List String) (current : Adapter)
  deriving DecidableEq

section
variable (start : Adapter → Except String Unit) (byTag : Map String Adapter)
  (adapters : List Adapter)

/-- The loop `startOne`. -/
def startOne : List Adapter → Round → Except StartError Unit × Round
  | [], r => (.ok (), r)
  | adapter :: rest, r =>
    if adapter.tag ∈ r.started then startOne rest r
    else if ∀ dependency ∈ adapter.dependencies, dependency ∈ r.started then
      match start adapter with
      | .error cause => (.error (.failed adapter cause), r.begin adapter)
      | .ok () => startOne rest (r.begin adapter)
    else startOne rest r

def startPass (started : List String) : Partial Empty (Pass (List String) Rounds) :=
  match startOne start adapters { started } with
  | (.error e, r) => return .leave (.finished (.error e, r.started))
  | (.ok (), r) =>
    if r.started.length = adapters.length then return .leave (.finished (.ok (), r.started))
    else if r.canContinue then return .again r.started
    else match adapters.find? (·.tag ∉ r.started) with
      -- the method of a nil interface is called
      | none => some .panicked
      | some current => return .leave (.stuck r.started current)

/-- A call of `lintOutbound`, which ends with a call of itself. -/
def lintPass (started : List String) (s : List String × Adapter) :
    Partial Empty (Pass (List String × Adapter) StartError) :=
  let problemTag := (s.2.dependencies.find? (· ∉ started)).getD ""
  if problemTag ∈ s.1 then return .leave (.circular s.1 problemTag)
  else match byTag.get problemTag with
    | none => return .leave (.notFound problemTag s.2.tag)
    | some problem => return .again (s.1 ++ [problemTag], problem)

/-- The loop that both functions are. -/
def startAll (fuel : Nat) : Partial Empty Started := do
  match ← loop (startPass start adapters) fuel [] with
  | .finished result => return result
  | .stuck started current =>
    let e ← loop (lintPass byTag started) fuel ([current.tag], current)
    return (.error e, started)

end

/-- `Manager.startOutbounds`, with the list that `Manager.Start` hands it. -/
def startOutbounds (start : Adapter → Except String Unit) (outboundByTag : Map String Adapter)
    (outbounds endpoints : List Adapter) : (fuel : Nat) → Partial Empty Started :=
  startAll start outboundByTag (outbounds ++ endpoints)

def startTransports (start : Adapter → Except String Unit) (transportByTag : Map String Adapter)
    (transports : List Adapter) : (fuel : Nat) → Partial Empty Started :=
  startAll start transportByTag transports

section
variable {start : Adapter → Except String Unit} {adapters rest : List Adapter} {r : Round}

/-- What a round does with the first adapter: pass it by, or start it. -/
theorem startOne_cons (start : Adapter → Except String Unit) (adapter : Adapter)
    (rest : List Adapter) (r : Round) :
    ((adapter.tag ∈ r.started ∨ ∃ dependency ∈ adapter.dependencies, dependency ∉ r.started) ∧
      startOne start (adapter :: rest) r = startOne start rest r) ∨
    (adapter.tag ∉ r.started ∧ (∀ dependency ∈ adapter.dependencies, dependency ∈ r.started) ∧
      ((∃ cause, start adapter = .error cause ∧
          startOne start (adapter :: rest) r = (.error (.failed adapter cause), r.begin adapter)) ∨
        startOne start (adapter :: rest) r = startOne start rest (r.begin adapter))) := by
  rw [startOne]
  by_cases there : adapter.tag ∈ r.started
  · rw [if_pos there]
    exact .inl ⟨.inl there, rfl⟩
  · grind

theorem startOne_inOrder (inside : rest ⊆ adapters)
    (h : InOrder tag dependencies adapters r.started) :
    InOrder tag dependencies adapters (startOne start rest r).2.started := by
  induction rest generalizing r with
  | nil => exact h
  | cons adapter rest ih =>
    have mem : adapter ∈ adapters := inside (.head _)
    have rest_inside : rest ⊆ adapters := fun _ later => inside (.tail _ later)
    obtain ⟨_, same⟩ | ⟨there, met, ⟨_, _, same⟩ | same⟩ := startOne_cons start adapter rest r
    · rw [same]
      exact ih rest_inside h
    · rw [same]
      exact h.next adapter mem there met
    · rw [same]
      exact ih rest_inside (h.next adapter mem there met)

theorem startOne_canContinue (h : r.canContinue = true) :
    (startOne start rest r).2.canContinue = true := by
  induction rest generalizing r with
  | nil => exact h
  | cons adapter rest ih => grind [startOne_cons start adapter rest r, Round.begin]

theorem startOne_length : r.started.length ≤ (startOne start rest r).2.started.length := by
  induction rest generalizing r with
  | nil => exact .refl
  | cons adapter rest ih =>
    have longer : (r.begin adapter).started.length = r.started.length + 1 := by simp [Round.begin]
    grind [startOne_cons start adapter rest r]

theorem startOne_grows (before : r.canContinue = false)
    (h : (startOne start rest r).2.canContinue = true) :
    r.started.length < (startOne start rest r).2.started.length := by
  induction rest generalizing r with
  | nil => rw [startOne, before] at h; cases h
  | cons adapter rest ih =>
    have longer : (r.begin adapter).started.length = r.started.length + 1 := by simp [Round.begin]
    have := @startOne_length start rest (r.begin adapter)
    grind [startOne_cons start adapter rest r]

/-- A round that cannot continue has started nothing, and has found nothing to start. -/
theorem startOne_stuck (h : (startOne start rest r).2.canContinue = false) :
    (startOne start rest r).2.started = r.started ∧ ∀ adapter ∈ rest, adapter.tag ∈ r.started ∨
      ∃ dependency ∈ adapter.dependencies, dependency ∉ r.started := by
  induction rest generalizing r with
  | nil => exact ⟨rfl, nofun⟩
  | cons adapter rest ih =>
    have := @startOne_canContinue start rest (r.begin adapter) rfl
    grind [startOne_cons start adapter rest r, Round.begin]

theorem startOne_ok (succeeds : ∀ adapter ∈ rest, start adapter = .ok ()) :
    (startOne start rest r).1 = .ok () := by
  induction rest generalizing r with
  | nil => rfl
  | cons adapter rest ih => grind [startOne_cons start adapter rest r]

end

def First {α : Type} (p : α → Prop) (l : List α) (a : α) : Prop :=
  ∃ before after, l = before ++ a :: after ∧ p a ∧ ∀ b ∈ before, ¬ p b

variable {α : Type} {p : α → Prop} {l : List α} {a : α}

theorem find_iff_first [DecidablePred p] :
    l.find? (fun x => decide (p x)) = some a ↔ First p l a := by
  rw [find?_eq_some_iff_append]
  constructor
  · rintro ⟨found, before, after, split, none⟩
    exact ⟨before, after, split, of_decide_eq_true found, fun b mem => by simpa using none b mem⟩
  · rintro ⟨before, after, split, found, none⟩
    exact ⟨decide_eq_true found, before, after, split, fun b mem => by simpa using none b mem⟩

open Classical in
theorem First.unique {b : α} (h : First p l a) (h' : First p l b) : a = b :=
  Option.some.inj ((find_iff_first.mpr h).symm.trans (find_iff_first.mpr h'))

theorem First.congr {q : α → Prop} (h : First p l a) (same : ∀ x, p x ↔ q x) : First q l a := by
  obtain ⟨before, after, split, found, none⟩ := h
  exact ⟨before, after, split, (same a).mp found, fun b mem yes => none b mem ((same b).mpr yes)⟩

theorem First.mem (h : First p l a) : a ∈ l := by
  obtain ⟨before, after, rfl, _⟩ := h
  simp

theorem First.holds (h : First p l a) : p a := by
  obtain ⟨_, _, _, found, _⟩ := h
  exact found

/-- The adapters that can be started: their dependencies are tags of such adapters. -/
abbrev Startable (adapters : List Adapter) (tag : String) : Prop :=
  Ready Adapter.tag Adapter.dependencies adapters tag

/-- The rounds have started every adapter, or all that can be started. -/
def Rounds.Right (adapters : List Adapter) : Rounds → Prop
  | .finished result => ∃ log, result = (.ok (), log) ∧
      InOrder tag dependencies adapters log ∧ ∀ adapter ∈ adapters, adapter.tag ∈ log
  | .stuck started current => InOrder tag dependencies adapters started ∧
      (∀ tag, tag ∈ started ↔ Startable adapters tag) ∧
      First (fun adapter => ¬ Startable adapters adapter.tag) adapters current

section
variable {start : Adapter → Except String Unit} {adapters : List Adapter} {started : List String}
  (succeeds : ∀ adapter ∈ adapters, start adapter = .ok ())
  (distinct : (adapters.map tag).Nodup)
include succeeds distinct

theorem startPass_cases (h : InOrder tag dependencies adapters started) :
    (∃ v, startPass start adapters started = some (.ok (.leave v)) ∧ v.Right adapters) ∨
    ∃ log, startPass start adapters started = some (.ok (.again log)) ∧
      InOrder tag dependencies adapters log ∧ started.length < log.length := by
  have ok : (startOne start adapters { started }).1 = .ok () := startOne_ok succeeds
  have log : InOrder tag dependencies adapters (startOne start adapters { started }).2.started :=
    startOne_inOrder (fun _ mem => mem) h
  have grows : (startOne start adapters { started }).2.canContinue = true → _ := startOne_grows rfl
  have stuck : (startOne start adapters { started }).2.canContinue = false → _ := startOne_stuck
  unfold startPass
  generalize startOne start adapters { started } = out at *
  obtain ⟨e, r⟩ := out
  cases ok
  dsimp only at log grows stuck ⊢
  by_cases all : r.started.length = adapters.length
  · rw [if_pos all]
    exact .inl ⟨_, rfl, r.started, rfl, log, log.all all⟩
  · rw [if_neg all]
    cases more : r.canContinue with
    | true => exact .inr ⟨r.started, rfl, log, grows more⟩
    | false =>
      obtain ⟨rfl, nothing⟩ := stuck more
      have complete := mem_iff_ready h nothing
      left
      cases found : adapters.find? (fun adapter => decide (adapter.tag ∉ r.started)) with
      | none =>
        -- then nothing is missing, and the lengths are the same
        exfalso
        rw [find?_eq_none] at found
        have inside : adapters.map tag ⊆ r.started := by grind
        have long := (distinct.subperm inside).length_le
        rw [length_map] at long
        exact all (Nat.le_antisymm h.length_le long)
      | some current =>
        refine ⟨_, rfl, h, complete, (find_iff_first.mp found).congr fun adapter => ?_⟩
        rw [complete]

/-- What the rounds come to, however much fuel they have beyond the number of adapters. -/
theorem rounds_end :
    ∃ v, (∀ fuel, adapters.length < fuel → loop (startPass start adapters) fuel [] = some (.ok v)) ∧
      v.Right adapters := by
  obtain ⟨v, _, _, right, value⟩ := @loop_value _ _ _ (startPass start adapters) []
    (InOrder tag dependencies adapters) (fun _ v => v.Right adapters)
    (fun t => adapters.length - t.length) .nil fun t inOrder => by
      obtain leaves | ⟨log, same, next, longer⟩ := startPass_cases succeeds distinct inOrder
      · exact .inl leaves
      · have := next.length_le
        exact .inr ⟨log, same, next, by omega⟩
  exact ⟨v, value, right⟩

end

/-- The first dependency of the adapter that cannot be started. -/
def Blocks (adapters : List Adapter) (adapter : Adapter) (dependency : String) : Prop :=
  First (fun tag => ¬ Startable adapters tag) adapter.dependencies dependency

/-- The adapters that are looked at for the report, with the tags on the way to each: the first that
cannot be started, then the one that blocks it, as long as it is known and has not come before. -/
inductive Chain (adapters known : List Adapter) : List String → Adapter → Prop
  | first {adapter : Adapter} :
      First (fun adapter => ¬ Startable adapters adapter.tag) adapters adapter →
      Chain adapters known [adapter.tag] adapter
  | next {oTree : List String} {adapter problem : Adapter} :
      Chain adapters known oTree adapter → Blocks adapters adapter problem.tag →
        problem.tag ∉ oTree →
      problem ∈ known → Chain adapters known (oTree ++ [problem.tag]) problem

/-- The map holds these adapters, each under its tag. -/
def ByTag (byTag : Map String Adapter) (known : List Adapter) : Prop :=
  ∀ tag adapter, byTag.get tag = some adapter ↔ adapter ∈ known ∧ adapter.tag = tag

section
variable {adapters known : List Adapter} {byTag : Map String Adapter} {started oTree : List String}
  {adapter : Adapter}

section
variable (inside : known ⊆ adapters) (h : Chain adapters known oTree adapter)
include inside h

theorem Chain.unstartable : adapter ∈ adapters ∧ ¬ Startable adapters adapter.tag := by
  cases h with
  | first first => exact ⟨first.mem, first.holds⟩
  | next _ blocks _ mem => exact ⟨inside mem, blocks.holds⟩

theorem Chain.tags : oTree.Nodup ∧ oTree ⊆ adapters.map tag := by
  induction h with
  | first first => exact ⟨by simp, by simpa using ⟨_, first.mem, rfl⟩⟩
  | next _ _ fresh mem ih => grind

theorem Chain.length_le : oTree.length ≤ adapters.length := by
  obtain ⟨nodup, tags⟩ := h.tags inside
  simpa using (nodup.subperm tags).length_le

end

section
variable (holds : ByTag byTag known) (inside : known ⊆ adapters)
  (complete : ∀ tag, tag ∈ started ↔ Startable adapters tag)
include holds inside complete

theorem lintPass_cases (h : Chain adapters known oTree adapter) :
    ∃ problemTag, Blocks adapters adapter problemTag ∧
      ((problemTag ∈ oTree ∧ lintPass byTag started (oTree, adapter) =
          some (.ok (.leave (.circular oTree problemTag)))) ∨
        (problemTag ∉ oTree ∧ (∀ problem ∈ known, problem.tag ≠ problemTag) ∧
          lintPass byTag started (oTree, adapter) =
            some (.ok (.leave (.notFound problemTag adapter.tag)))) ∨
        (problemTag ∉ oTree ∧ ∃ problem ∈ known, problem.tag = problemTag ∧
          lintPass byTag started (oTree, adapter) =
            some (.ok (.again (oTree ++ [problemTag], problem))))) := by
  obtain ⟨mem, unstartable⟩ := h.unstartable inside
  unfold lintPass
  cases found : adapter.dependencies.find? (fun tag => decide (tag ∉ started)) with
  | none =>
    -- with all its dependencies started it would have been started
    rw [find?_eq_none] at found
    refine absurd (.intro adapter mem fun dependency need =>
      (complete dependency).mp ?_) unstartable
    simpa using found dependency need
  | some problemTag =>
    have blocks : Blocks adapters adapter problemTag :=
      (find_iff_first.mp found).congr fun tag => not_congr (complete tag)
    refine ⟨problemTag, blocks, ?_⟩
    dsimp only [Option.getD_some]
    by_cases circular : problemTag ∈ oTree
    · rw [if_pos circular]
      exact .inl ⟨circular, rfl⟩
    · rw [if_neg circular]
      right
      cases there : byTag.get problemTag with
      | none =>
        refine .inl ⟨circular, fun problem known same => ?_, rfl⟩
        rw [(holds problemTag problem).mpr ⟨known, same⟩] at there
        cases there
      | some problem =>
        obtain ⟨known, same⟩ := (holds problemTag problem).mp there
        exact .inr ⟨circular, problem, known, same, rfl⟩

variable {current : Adapter}
  (first : First (fun adapter => ¬ Startable adapters adapter.tag) adapters current)
include first

theorem comes_of_chain (chain : Chain adapters known oTree adapter) :
    Comes (lintPass byTag started) ([current.tag], current) (oTree, adapter) := by
  induction chain with
  | first first' =>
    cases first.unique first'
    exact .here
  | @next oTree adapter problem before blocks fresh mem ih =>
    obtain ⟨problemTag, blocks', cases⟩ := lintPass_cases holds inside complete before
    cases blocks.unique blocks'
    obtain ⟨circular, _⟩ | ⟨_, unknown, _⟩ | ⟨_, other, mem', tag, same⟩ := cases
    · exact absurd circular fresh
    · exact absurd rfl (unknown problem mem)
    · have there := (holds problem.tag other).mpr ⟨mem', tag⟩
      rw [(holds problem.tag problem).mpr ⟨mem, rfl⟩] at there
      cases there
      exact .next ih same

/-- The report, however much fuel it has beyond the number of adapters. -/
theorem lint_value :
    ∃ e, (∀ fuel, adapters.length < fuel →
        loop (lintPass byTag started) fuel ([current.tag], current) = some (.ok e)) ∧
      ∀ problemTag currentTag, e = .notFound problemTag currentTag ↔
        ∃ oTree adapter, Chain adapters known oTree adapter ∧ Blocks adapters adapter problemTag ∧
          problemTag ∉ oTree ∧ (∀ problem ∈ known, problem.tag ≠ problemTag) ∧
            adapter.tag = currentTag := by
  obtain ⟨e, t, before, ends, value⟩ :=
    @loop_value _ _ _ (lintPass byTag started) ([current.tag], current)
    (fun t => Chain adapters known t.1 t.2)
    (fun t e => (∃ tag, e = .circular t.1 tag) ∨ ∃ problemTag, e = .notFound problemTag t.2.tag ∧
      Blocks adapters t.2 problemTag ∧ problemTag ∉ t.1 ∧ ∀ problem ∈ known,
        problem.tag ≠ problemTag)
    (fun t => adapters.length - t.1.length) (.first first) fun t chain => by
      obtain ⟨tag, blocks, ⟨_, same⟩ | ⟨fresh, unknown, same⟩ | ⟨fresh, problem, mem, rfl, same⟩⟩ :=
        lintPass_cases holds inside complete chain
      · exact .inl ⟨_, same, .inl ⟨tag, rfl⟩⟩
      · exact .inl ⟨_, same, .inr ⟨tag, rfl, blocks, fresh, unknown⟩⟩
      · have next := Chain.next chain blocks fresh mem
        have := next.length_le inside
        exact .inr ⟨_, same, next, by grind⟩
  refine ⟨e, fun fuel enough => value fuel (by omega), fun problemTag currentTag => ⟨?_, ?_⟩⟩
  · rintro rfl
    obtain ⟨_, other⟩ | ⟨_, same, blocks, fresh, unknown⟩ := ends
    · cases other
    · cases same
      exact ⟨t.1, t.2, before, blocks, fresh, unknown, rfl⟩
  · rintro ⟨oTree, adapter, before, blocks, fresh, unknown, rfl⟩
    obtain ⟨fuel, rest⟩ :=
      (comes_of_chain holds inside complete first before).loop (value _ (Nat.lt_succ_self _))
    obtain ⟨_, blocks', cases⟩ := lintPass_cases holds inside complete before
    cases blocks.unique blocks'
    obtain ⟨circular, _⟩ | ⟨_, _, same⟩ | ⟨_, problem, mem, tag, _⟩ := cases
    · exact absurd circular fresh
    · cases fuel with
      | zero => cases rest
      | succ fuel =>
        rw [loop_leave same] at rest
        cases rest
        rfl
    · exact absurd tag (unknown problem mem)

end

end

/-- It ends; it returns nil exactly when every dependency is there and none is circular; each
adapter is started once, after its dependencies; and only what is missing is reported as not
found. -/
def StartsInOrder (adapters : List Adapter) (run : (fuel : Nat) → Partial Empty Started) : Prop :=
  ∃ result : Started, (∀ fuel, adapters.length < fuel → run fuel = some (.ok result)) ∧
    (result.1 = .ok () ↔ Closed tag dependencies adapters ∧
      Acyclic tag dependencies adapters) ∧
    InOrder tag dependencies adapters result.2 ∧
    ∀ problemTag currentTag, result.1 = .error (.notFound problemTag currentTag) →
      ∀ adapter ∈ adapters, adapter.tag ≠ problemTag

/-- Of the adapters that the report looks at, each is blocked by one that is known, by one that has
come before, or by none of the list. -/
def ReportsKnown (adapters known : List Adapter) : Prop :=
  ∀ oTree adapter problem, Chain adapters known oTree adapter →
    Blocks adapters adapter problem.tag →
    problem.tag ∉ oTree → problem ∈ adapters → problem ∈ known

section
variable {start : Adapter → Except String Unit} {adapters known : List Adapter}
  {byTag : Map String Adapter} (succeeds : ∀ adapter ∈ adapters, start adapter = .ok ())
  (distinct : (adapters.map tag).Nodup)
  (holds : ByTag byTag known) (inside : known ⊆ adapters)
include succeeds distinct holds inside

theorem startAll_value :
    ∃ result : Started, (∀ fuel, adapters.length < fuel →
      startAll start byTag adapters fuel = some (.ok result)) ∧
      (result.1 = .ok () ↔ ∀ adapter ∈ adapters, Startable adapters adapter.tag) ∧
      InOrder tag dependencies adapters result.2 ∧
      ∀ problemTag currentTag, result.1 = .error (.notFound problemTag currentTag) ↔
        ∃ oTree adapter, Chain adapters known oTree adapter ∧ Blocks adapters adapter problemTag ∧
          problemTag ∉ oTree ∧ (∀ problem ∈ known, problem.tag ≠ problemTag) ∧
            adapter.tag = currentTag := by
  obtain ⟨v, rounds, right⟩ := rounds_end succeeds distinct
  cases v with
  | finished result =>
    obtain ⟨log, rfl, inOrder, all⟩ := right
    have startable : ∀ adapter ∈ adapters, Startable adapters adapter.tag := by
      intro adapter mem
      exact inOrder.ready _ (all adapter mem)
    refine ⟨(.ok (), log), fun fuel enough => ?_, ⟨fun _ => startable, fun _ => rfl⟩, inOrder,
      fun _ _ => ⟨nofun, ?_⟩⟩
    · rw [startAll, rounds fuel enough]
      rfl
    · rintro ⟨oTree, adapter, chain, _⟩
      obtain ⟨mem, unstartable⟩ := chain.unstartable inside
      exact absurd (startable adapter mem) unstartable
  | stuck started current =>
    obtain ⟨inOrder, complete, first⟩ := right
    obtain ⟨e, report, found⟩ := lint_value holds inside complete first
    refine ⟨(.error e, started), fun fuel enough => ?_, ⟨nofun, fun all => ?_⟩, inOrder, ?_⟩
    · rw [startAll, rounds fuel enough]
      show (loop _ fuel _ >>= _) = _
      rw [report fuel enough]
      rfl
    · exact absurd (all current first.mem) first.holds
    · intro problemTag currentTag
      rw [← found problemTag currentTag]
      simp

theorem startAll_startsInOrder_iff :
    StartsInOrder adapters (startAll start byTag adapters) ↔ ReportsKnown adapters known := by
  obtain ⟨result, value, ok, inOrder, notFound⟩ := startAll_value succeeds distinct holds inside
  constructor
  · rintro ⟨result', value', _, _, missing⟩ oTree adapter problem chain blocks fresh mem
    have same := (value _ (Nat.lt_succ_self _)).symm.trans (value' _ (Nat.lt_succ_self _))
    cases same
    apply Classical.byContradiction
    intro unknown
    refine missing problem.tag adapter.tag ?_ problem mem rfl
    refine (notFound _ _).mpr ⟨oTree, adapter, chain, blocks, fresh,
      fun other known same => ?_, rfl⟩
    cases node_unique distinct (inside known) mem same
    exact unknown known
  · intro known
    refine ⟨result, value, ok.trans (ready_iff distinct), inOrder, ?_⟩
    intro problemTag currentTag reported problem mem
    rintro rfl
    obtain ⟨oTree, adapter, chain, blocks, fresh, unknown, _⟩ := (notFound _ _).mp reported
    exact unknown problem (known oTree adapter problem chain blocks fresh mem) rfl

end

/-- **Dependency-ordered start.** With distinct tags and starts that succeed, both functions do what
they should exactly when the report about the outbounds comes to no endpoint before it turns in a
circle: `outboundByTag` holds no endpoints, so that one which cannot be started is taken for
missing. -/
theorem startsInOrder_iff {start : Adapter → Except String Unit}
    (succeeds : ∀ adapter, start adapter = .ok ())
    {outbounds endpoints : List Adapter} (distinct : ((outbounds ++ endpoints).map tag).Nodup)
    {outboundByTag : Map String Adapter} (registered : ByTag outboundByTag outbounds)
    {transports : List Adapter} (distinctServers : (transports.map tag).Nodup)
    {transportByTag : Map String Adapter} (registeredServers : ByTag transportByTag transports) :
    (StartsInOrder (outbounds ++ endpoints)
      (startOutbounds start outboundByTag outbounds endpoints) ∧
      StartsInOrder transports (startTransports start transportByTag transports)) ↔
    ∀ oTree adapter, Chain (outbounds ++ endpoints) outbounds oTree adapter →
      ∀ endpoint ∈ endpoints, Blocks (outbounds ++ endpoints) adapter endpoint.tag →
        endpoint.tag ∈ oTree := by
  have servers : StartsInOrder transports (startTransports start transportByTag transports) := by
    apply (startAll_startsInOrder_iff (fun a _ => succeeds a) distinctServers registeredServers
      (List.Subset.refl _)).mpr
    intro _ _ _ _ _ _ mem
    exact mem
  have outboundsIff := startAll_startsInOrder_iff (fun a _ => succeeds a) distinct registered
    (subset_append_left outbounds endpoints)
  unfold startOutbounds
  rw [outboundsIff, and_iff_left servers]
  constructor
  · intro known oTree adapter chain endpoint mem blocks
    apply Classical.byContradiction
    intro fresh
    have outbound := known oTree adapter endpoint chain blocks fresh (mem_append_right _ mem)
    -- an endpoint is no outbound, since the tags are distinct
    rw [map_append, nodup_append] at distinct
    exact distinct.2.2 _ (mem_map_of_mem outbound) _ (mem_map_of_mem mem) rfl
  · intro none oTree adapter problem chain blocks fresh mem
    rcases mem_append.mp mem with outbound | endpoint
    · exact outbound
    · exact absurd (none oTree adapter chain problem endpoint blocks) fresh

/-- The map of a manager with these adapters. -/
def tagged (known : List Adapter) : Map String Adapter := ⟨fun tag => known.find? (·.tag = tag)⟩

theorem tagged_byTag {known : List Adapter} (distinct : (known.map tag).Nodup) :
    ByTag (tagged known) known := by
  intro tag adapter
  constructor
  · intro found
    exact ⟨mem_of_find?_eq_some found, by simpa using find?_some found⟩
  · rintro ⟨mem, rfl⟩
    obtain ⟨other, found⟩ : ∃ other, known.find? (·.tag = adapter.tag) = some other := by
      rw [← Option.isSome_iff_exists, find?_isSome]
      exact ⟨adapter, mem, by simp⟩
    have same : other.tag = adapter.tag := by simpa using find?_some found
    cases node_unique distinct (mem_of_find?_eq_some found) mem same
    exact found

def crossed : List Adapter := [⟨0, "selector", "a", ["b"]⟩, ⟨1, "urltest", "b", ["a"]⟩]

def wireguard (dependencies : List String) : Adapter := ⟨2, "wireguard", "wg", dependencies⟩

/-- Two outbounds that need each other are reported as such. -/
theorem crossed_reported :
    startOutbounds (fun _ => .ok ()) (tagged crossed) crossed [wireguard ["a"]] 4 =
      some (.ok (.error (.circular ["a", "b"] "a"), [])) ∧
    StartsInOrder (crossed ++ [wireguard ["a"]])
      (startOutbounds (fun _ => .ok ()) (tagged crossed) crossed [wireguard ["a"]]) := by
  have distinct : (crossed.map tag).Nodup := by decide
  refine ⟨rfl, ((startsInOrder_iff (fun _ => rfl) (by decide) (tagged_byTag distinct)
    distinct (tagged_byTag distinct)).mpr ?_).1⟩
  intro oTree adapter chain endpoint mem blocks
  have there := (chain.unstartable (subset_append_left _ _)).1
  have others : ∀ adapter ∈ crossed ++ [wireguard ["a"]], "wg" ∉ adapter.dependencies := by decide
  cases mem_singleton.mp mem
  exact absurd blocks.mem (others adapter there)

/-- An outbound and an endpoint that need each other: the endpoint is said to be missing. -/
theorem endpoint_reported_missing :
    startOutbounds (fun _ => .ok ()) (tagged [⟨0, "vless", "a", ["wg"]⟩])
    [⟨0, "vless", "a", ["wg"]⟩]
        [wireguard ["a"]] 3 = some (.ok (.error (.notFound "wg" "a"), [])) ∧
    ¬ StartsInOrder [⟨0, "vless", "a", ["wg"]⟩, wireguard ["a"]]
      (startOutbounds (fun _ => .ok ()) (tagged [⟨0, "vless", "a", ["wg"]⟩])
        [⟨0, "vless", "a", ["wg"]⟩] [wireguard ["a"]]) := by
  refine ⟨rfl, ?_⟩
  rintro ⟨result, value, _, _, missing⟩
  have reported : result = (.error (.notFound "wg" "a"), []) := by
    have same := value 3 (by decide)
    cases same
    rfl
  exact missing "wg" "a" (by rw [reported]) (wireguard ["a"]) (by simp) rfl

end AiboosterEngine.Adapters
