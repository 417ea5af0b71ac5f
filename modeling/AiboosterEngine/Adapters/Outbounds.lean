import AiboosterEngine.Adapters.Registry
import AiboosterEngine.GoSem.Steps

/-!
# The outbound manager

`Create`, `Remove` and `Start` over four structures: the list of outbounds, the
map by tag, the dependent tags and the default.
-/

namespace AiboosterEngine.Adapters

open GoSem List

structure Manager where
  defaultTag : String
  started : Bool := false
  stage : StartStage := .stateInitialize
  outbounds : List Adapter := []
  outboundByTag : Map String Adapter := .empty
  dependByTag : Map String (List String) := .empty
  defaultOutbound : Option Adapter := none

open Manager

namespace Manager

variable (m : Manager)

/-- The end of `Create`: the outbound is entered everywhere. -/
def enter (outbound : Adapter) : Manager :=
  { m with
    outbounds := m.outbounds ++ [outbound]
    outboundByTag := m.outboundByTag.set outbound.tag outbound
    dependByTag := addDependBy outbound.tag outbound.dependencies m.dependByTag
    defaultOutbound :=
      if outbound.tag = m.defaultTag ∨ (m.defaultTag = "" ∧ m.defaultOutbound = none)
        then some outbound
      else m.defaultOutbound }

/-- `Create` under the lock. -/
def register (outbound : Adapter) (close : Except String Unit) : Outcome String Unit × Manager :=
  match m.outboundByTag.get outbound.tag with
  | none => (.ok (), m.enter outbound)
  | some existsOutbound =>
    match if m.started then close else .ok () with
    | .error e => (.err ("close " ++ existsOutbound.path outboundWording ++ ": " ++ e), m)
    | .ok () =>
      match takeOut m.outbounds existsOutbound with
      | none => (.panicked, m)
      | some outbounds => (.ok (), { m with outbounds }.enter outbound)

/-- `Create`, with what the constructor makes, what it makes of an invalid configuration, how the
stages of the new outbound start and how the old one closes. -/
def create (tag : String) (made invalid : Except String Made)
    (starts : StartStage → Except String Unit) (close : Except String Unit) :
      Outcome String Unit × Manager :=
  if tag = "" then (.err errInvalid, m)
  else
    match (match made with | .ok made => .ok made | .error _ => invalid : Except String Made) with
    | .error e => (.err e, m)
    | .ok made =>
      match if m.started then startStages outboundWording (made.named tag) starts listStartStages
        else .ok () with
      | .error e => (.err e, m)
      | .ok () => m.register (made.named tag) close

/-- `Remove`, with how the outbound closes. -/
def remove (tag : String) (close : Except String Unit) : Outcome String Unit × Manager :=
  match m.outboundByTag.get tag with
  | none => (.err errInvalid, m)
  | some outbound =>
    let m := { m with outboundByTag := m.outboundByTag.delete tag }
    match takeOut m.outbounds outbound with
    | none => (.panicked, m)
    | some outbounds =>
      let m := { m with outbounds }
      let m := if m.defaultOutbound = some outbound
        then { m with defaultOutbound := m.outbounds.head? } else m
      if dependBy m.dependByTag tag ≠ [] then
        (.err ("outbound[" ++ tag ++ "] is depended by " ++
          ", ".intercalate (dependBy m.dependByTag tag)), m)
      else
        let m := { m with dependByTag := dropDependBy tag outbound.dependencies m.dependByTag }
        match if m.started then close else .ok () with
        | .error e => (.err e, m)
        | .ok () => (.ok (), m)

def chooseDefault (endpoints : List Adapter) (fallback : Except String Adapter) :
    Except String Manager :=
  match m.defaultOutbound with
  | some _ => .ok m
  | none =>
    if m.defaultTag ≠ "" then
      match endpoints.find? (·.tag = m.defaultTag) with
      | none => .error ("default outbound not found: " ++ m.defaultTag)
      | some defaultEndpoint => .ok { m with defaultOutbound := some defaultEndpoint }
    else
      match fallback with
      | .error e => .error ("create direct outbound for fallback: " ++ e)
      | .ok directOutbound => .ok
        { m with
          outbounds := m.outbounds ++ [directOutbound]
          outboundByTag := m.outboundByTag.set directOutbound.tag directOutbound
          defaultOutbound := some directOutbound }

/-- `Start`, with the endpoints, what the fallback makes and how the outbounds start. -/
def start (endpoints : List Adapter) (stage : StartStage) (fallback : Except String Adapter)
    (starts : StartStage → Adapter → Except String Unit) : Partial String Unit × Manager :=
  if m.started ∧ stage.toNat ≤ m.stage.toNat then (some .panicked, m)
  else
    let m := { m with started := true, stage }
    if stage = .stateStart then
      match m.chooseDefault endpoints fallback with
      | .error e => (some (.err e), m)
      | .ok m =>
        (startResult outboundWording
          (startOutbounds (starts .stateStart) m.outboundByTag m.outbounds endpoints
          ((m.outbounds ++ endpoints).length + 1)), m)
    else
      match startEach outboundWording stage starts m.outbounds with
      | .error e => (some (.err e), m)
      | .ok () => (some (.ok ()), m)

end Manager

/-- A call, with what the code outside the manager answers. -/
inductive Call where
  | create (tag : String) (made invalid : Except String Made) (starts : StartStage →
      Except String Unit) (close : Except String Unit)
  | remove (tag : String) (close : Except String Unit)
  | start (stage : StartStage) (fallback : Except String Adapter)
      (starts : StartStage → Adapter → Except String Unit)

def Manager.step (endpoints : List Adapter) (m : Manager) : Call → Option Manager
  | .create tag made invalid starts close =>
    let (result, m) := m.create tag made invalid starts close
    after (some result) m
  | .remove tag close =>
    let (result, m) := m.remove tag close
    after (some result) m
  | .start stage fallback starts =>
    let (result, m) := m.start endpoints stage fallback starts
    after result m

namespace Manager
variable {m m' : Manager} {endpoints : List Adapter} {tag : String}
  {made invalid : Except String Made}
  {starts : StartStage → Except String Unit} {close : Except String Unit}

/-- `Create` comes to enter the outbound: the constructor makes it, its stages start, and the
outbound that has the tag closes. -/
structure Enters (m : Manager) (tag : String) (made invalid : Except String Made)
    (starts : StartStage → Except String Unit) (close : Except String Unit)
    (outbound : Adapter) : Prop where
  tag_ne : tag ≠ ""
  tag_eq : outbound.tag = tag
  constructed : ∃ object : Made,
    (made = .ok object ∨ (∃ e, made = .error e) ∧ invalid = .ok object) ∧
    outbound = object.named tag
  starts : m.started = true → startStages outboundWording outbound starts listStartStages = .ok ()
  closes : m.started = true → m.outboundByTag.get tag ≠ none → close = .ok ()

/-- The manager without the outbound, as `Remove` leaves it before it looks at the dependent
tags. -/
def without (m : Manager) (outbound : Adapter) : Manager :=
  { m with
    outboundByTag := m.outboundByTag.delete outbound.tag
    outbounds := m.outbounds.erase outbound
    defaultOutbound :=
      if m.defaultOutbound = some outbound then (m.outbounds.erase outbound).head?
        else m.defaultOutbound }

theorem create_cases (agrees : Agrees m.outbounds m.outboundByTag) :
    (∃ e, m.create tag made invalid starts close = (.err e, m)) ∨
    ∃ outbound, m.Enters tag made invalid starts close outbound ∧
      ((m.outboundByTag.get tag = none ∧
          m.create tag made invalid starts close = (.ok (), m.enter outbound)) ∨
        ∃ old, m.outboundByTag.get tag = some old ∧
          m.create tag made invalid starts close =
            (.ok (), { m with outbounds := m.outbounds.erase old }.enter outbound)) := by
  unfold create
  by_cases empty : tag = ""
  · rw [if_pos empty]
    exact .inl ⟨_, rfl⟩
  rw [if_neg empty]
  generalize given : (match made with | .ok made => .ok made | .error _ => invalid :
    Except String Made) = object
  cases object with
  | error e => exact .inl ⟨_, rfl⟩
  | ok object =>
    dsimp only
    have constructed : made = .ok object ∨ (∃ e, made = .error e) ∧ invalid = .ok object := by grind
    obtain ⟨e, failed⟩ | ⟨began, startsOk⟩ := ifStarted_cases m.started
      (startStages outboundWording (object.named tag) starts listStartStages)
    · rw [failed]
      exact .inl ⟨_, rfl⟩
    · rw [began]
      unfold register
      cases there : m.outboundByTag.get (object.named tag).tag with
      | none =>
        have free : m.outboundByTag.get tag = none := there
        refine .inr ⟨object.named tag, ⟨empty, rfl, ⟨object, constructed, rfl⟩, startsOk, ?_⟩,
          .inl ⟨free, rfl⟩⟩
        intro _ taken
        exact absurd free taken
      | some old =>
        dsimp only
        obtain ⟨e, failed⟩ | ⟨ended, closes⟩ := ifStarted_cases m.started close
        · rw [failed]
          exact .inl ⟨_, rfl⟩
        · rw [ended, agrees.takeOut there]
          exact .inr ⟨object.named tag,
            ⟨empty, rfl, ⟨object, constructed, rfl⟩, startsOk, fun started _ => closes started⟩,
            .inr ⟨old, there, rfl⟩⟩

theorem remove_cases (agrees : Agrees m.outbounds m.outboundByTag) :
    (m.outboundByTag.get tag = none ∧ m.remove tag close = (.err errInvalid, m)) ∨
    ∃ outbound, m.outboundByTag.get tag = some outbound ∧
      ((dependBy m.dependByTag tag ≠ [] ∧ ∃ e, m.remove tag close = (.err e, m.without outbound)) ∨
        (dependBy m.dependByTag tag = [] ∧ ∃ result : Outcome String Unit, m.remove tag close =
            (result, { m.without outbound with
              dependByTag := dropDependBy tag outbound.dependencies m.dependByTag }) ∧
          (result = .ok () ∨ ∃ e, result = .err e ∧ m.started = true ∧ close = .error e))) := by
  unfold remove
  cases found : m.outboundByTag.get tag with
  | none => exact .inl ⟨rfl, rfl⟩
  | some outbound =>
    obtain ⟨_, rfl⟩ := (agrees.byTag tag outbound).mp found
    refine .inr ⟨outbound, rfl, ?_⟩
    dsimp only
    rw [agrees.takeOut found]
    dsimp only
    have same : (if m.defaultOutbound = some outbound then
          { m with
            outboundByTag := m.outboundByTag.delete outbound.tag
            outbounds := m.outbounds.erase outbound
            defaultOutbound := (m.outbounds.erase outbound).head? }
        else
          { m with
            outboundByTag := m.outboundByTag.delete outbound.tag
            outbounds := m.outbounds.erase outbound }) = m.without outbound := by
      unfold without
      split <;> rfl
    rw [same]
    by_cases needed : dependBy m.dependByTag outbound.tag = []
    · grind
    · left
      refine ⟨needed, _, if_pos (by simpa [without] using needed)⟩

/-- What `Start` makes of the four structures. -/
inductive Begun (m : Manager) (endpoints : List Adapter) (stage : StartStage)
    (fallback : Except String Adapter) : Manager → Prop
  | same {started : Bool} {stage' : StartStage} :
      Begun m endpoints stage fallback { m with started, stage := stage' }
  | endpoint {defaultEndpoint : Adapter} :
      m.defaultOutbound = none → m.defaultTag ≠ "" → defaultEndpoint ∈ endpoints →
      Begun m endpoints stage fallback
        { m with started := true, stage, defaultOutbound := some defaultEndpoint }
  | fallback {directOutbound : Adapter} :
      stage = .stateStart → m.defaultOutbound = none → m.defaultTag = "" →
        fallback = .ok directOutbound →
      Begun m endpoints stage fallback
        { m with
          started := true
          stage
          outbounds := m.outbounds ++ [directOutbound]
          outboundByTag := m.outboundByTag.set directOutbound.tag directOutbound
          defaultOutbound := some directOutbound }

attribute [local grind intro] Begun

variable {fallback : Except String Adapter} {outbound : Adapter}

theorem chooseDefault_begun
    (h : { m with started := true, stage := .stateStart }.chooseDefault endpoints fallback =
      .ok m') :
    Begun m endpoints .stateStart fallback m' := by
  cases given : m.defaultOutbound <;> cases fallback <;> grind [chooseDefault, mem_of_find?_eq_some]

theorem start_begun (m : Manager) (endpoints : List Adapter) (stage : StartStage)
    (fallback : Except String Adapter) (starts : StartStage → Adapter → Except String Unit) :
    Begun m endpoints stage fallback (m.start endpoints stage fallback starts).2 := by
  unfold start
  by_cases early : m.started ∧ stage.toNat ≤ m.stage.toNat
  · rw [if_pos early]
    exact .same
  · rw [if_neg early]
    dsimp only
    by_cases first : stage = .stateStart
    · subst first
      rw [if_pos rfl]
      cases chosen : { m with started := true, stage := .stateStart }.chooseDefault
        endpoints fallback with
      | error e => exact .same
      | ok m' => exact chooseDefault_begun chosen
    · rw [if_neg first]
      cases startEach outboundWording stage starts m.outbounds <;> exact .same

/-- The list and the map agree; and a manager that is free to choose its default has one, unless
there is no outbound. -/
structure Registered (m : Manager) : Prop where
  agrees : Agrees m.outbounds m.outboundByTag
  empty : m.defaultTag = "" → m.defaultOutbound = none → m.outbounds = []

theorem enter_default (chosen : m.defaultTag = "") : (m.enter outbound).defaultOutbound ≠ none := by
  grind [enter]

theorem registered_create (h : m.Registered) :
    (m.create tag made invalid starts close).1 ≠ .panicked ∧
    (m.create tag made invalid starts close).2.Registered := by
  obtain ⟨e, same⟩ | ⟨outbound, enters, ⟨free, same⟩ | ⟨old, found, same⟩⟩ := create_cases h.agrees
  · rw [same]
    exact ⟨nofun, h⟩
  · rw [same]
    cases enters.tag_eq
    exact ⟨nofun, h.agrees.append free, fun chosen none => absurd none (enter_default chosen)⟩
  · rw [same]
    cases enters.tag_eq
    exact ⟨nofun, h.agrees.replace found, fun chosen none => absurd none (enter_default chosen)⟩

theorem registered_without (h : m.Registered)
    (found : m.outboundByTag.get outbound.tag = some outbound) :
    (m.without outbound).Registered where
  agrees := h.agrees.erase found
  empty := by
    intro chosen none
    dsimp only [without] at chosen none ⊢
    split at none
    · exact head?_eq_none_iff.mp none
    · rw [h.empty chosen none]
      rfl

theorem registered_remove (h : m.Registered) : (m.remove tag close).1 ≠ .panicked ∧
    (m.remove tag close).2.Registered := by
  obtain ⟨_, same⟩ | ⟨outbound, found, rest⟩ := remove_cases h.agrees
  · rw [same]
    exact ⟨nofun, h⟩
  · cases ((h.agrees.byTag tag outbound).mp found).2
    have left := registered_without h found
    obtain ⟨_, e, same⟩ | ⟨_, result, same, ok | ⟨e, err, _⟩⟩ := rest
    · rw [same]
      exact ⟨nofun, left⟩
    · rw [same, ok]
      exact ⟨nofun, left.agrees, left.empty⟩
    · rw [same, err]
      exact ⟨nofun, left.agrees, left.empty⟩

theorem registered_begun {stage : StartStage} (h : m.Registered)
    (begun : Begun m endpoints stage fallback m') :
    m'.Registered := by
  cases begun with
  | same => exact ⟨h.agrees, h.empty⟩
  | endpoint _ named _ => exact ⟨h.agrees, fun chosen => absurd chosen named⟩
  | @fallback directOutbound _ none chosen _ =>
    -- there was no outbound at all
    have nothing := h.empty chosen none
    have free := h.agrees.get_of_nil nothing directOutbound.tag
    exact ⟨h.agrees.append free, nofun⟩

theorem registered_step {c : Call} (h : m.Registered) (taken : m.step endpoints c = some m') :
    m'.Registered := by
  cases c with
  | create =>
    rw [eq_of_after taken]
    exact (registered_create h).2
  | remove =>
    rw [eq_of_after taken]
    exact (registered_remove h).2
  | start =>
    rw [eq_of_after taken]
    exact registered_begun h (start_begun _ _ _ _ _)

theorem registered_of_run {ok : Manager → Call → Prop} {defaultTag : String}
    (run : Run (step endpoints) ok { defaultTag } m) : m.Registered := by
  apply run.invariant
  · exact ⟨agrees_empty, fun _ _ => rfl⟩
  · intro s c s' h _ taken
    exact registered_step h taken

/-- The condition on a call. An outbound that has dependencies, or is the default under another tag,
is not replaced; a new one names each dependency once. An outbound that others depend on is not
removed, nor a started one that fails to close. The fallback has no dependencies. -/
def Allowed (m : Manager) : Call → Prop
  | .create tag made invalid starts close =>
    ∀ outbound, m.Enters tag made invalid starts close outbound → outbound.dependencies.Nodup ∧
      ∀ old, m.outboundByTag.get tag = some old →
        old.dependencies = [] ∧ (m.defaultOutbound = some old → tag = m.defaultTag)
  | .remove tag close =>
    m.outboundByTag.get tag ≠ none → (∀ other ∈ m.outbounds, tag ∉ other.dependencies) ∧
      (m.started = true → close = .ok ())
  | .start stage fallback _ =>
    stage = .stateStart → m.defaultTag = "" → m.defaultOutbound = none →
      ∀ directOutbound, fallback = .ok directOutbound → directOutbound.dependencies = []

/-- The list and the map hold the same outbounds under distinct tags, the default is none, one of
the list or an endpoint, and the dependent tags are exactly those of the outbounds. -/
structure Consistent (m : Manager) (endpoints : List Adapter) : Prop where
  agrees : Agrees m.outbounds m.outboundByTag
  defaultOutbound : ∀ outbound, m.defaultOutbound = some outbound →
    outbound ∈ m.outbounds ∨ outbound ∈ endpoints
  depends : DependsExactly m.outbounds m.dependByTag

structure Kept (m : Manager) (endpoints : List Adapter) : Prop extends m.Consistent endpoints where
  nodup : ∀ outbound ∈ m.outbounds, outbound.dependencies.Nodup

theorem Kept.unneeded (h : m.Kept endpoints)
    (unneeded : ∀ other ∈ m.outbounds, tag ∉ other.dependencies) :
    dependBy m.dependByTag tag = [] := by
  apply Classical.byContradiction
  intro needed
  obtain ⟨_, dependent⟩ := exists_mem_of_ne_nil _ needed
  obtain ⟨other, there, _, needs⟩ := (h.depends.mem _ _).mp dependent
  exact unneeded other there needs

/-- The last part of `Create`, for a manager that has no outbound with the tag in its list. -/
theorem kept_enter (agrees : Agrees (m.enter outbound).outbounds (m.enter outbound).outboundByTag)
    (default : outbound.tag = m.defaultTag ∨
      ∀ other, m.defaultOutbound = some other → other ∈ m.outbounds ∨ other ∈ endpoints)
    (depends : DependsExactly m.outbounds m.dependByTag)
    (fresh : ∀ other ∈ m.outbounds, other.tag ≠ outbound.tag)
    (others : ∀ other ∈ m.outbounds, other.dependencies.Nodup)
    (nodup : outbound.dependencies.Nodup) :
    (m.enter outbound).Kept endpoints where
  agrees := agrees
  defaultOutbound := by
    intro other given
    dsimp only [enter] at given ⊢
    split at given
    · cases given
      exact .inl (mem_append_right _ (mem_singleton.mpr rfl))
    · grind
  depends := depends.append fresh nodup
  nodup := by
    intro other mem
    obtain old | new := mem_append.mp mem
    · exact others other old
    · cases mem_singleton.mp new
      exact nodup

theorem kept_create (h : m.Kept endpoints)
    (allowed : m.Allowed (.create tag made invalid starts close)) :
    (m.create tag made invalid starts close).2.Kept endpoints := by
  obtain ⟨e, same⟩ | ⟨outbound, enters, ⟨free, same⟩ | ⟨old, found, same⟩⟩ := create_cases h.agrees
  · rw [same]
    exact h
  · rw [same]
    cases enters.tag_eq
    obtain ⟨nodup, _⟩ := allowed outbound enters
    exact kept_enter (h.agrees.append free) (.inr h.defaultOutbound) h.depends (h.agrees.fresh free)
      h.nodup nodup
  · rw [same]
    cases enters.tag_eq
    obtain ⟨nodup, replaced⟩ := allowed outbound enters
    obtain ⟨nothing, notDefault⟩ := replaced old found
    have depends := h.depends.erase h.agrees found (by rw [nothing]; exact nodup_nil)
    rw [nothing] at depends
    apply kept_enter (m := { m with outbounds := m.outbounds.erase old })
      (h.agrees.replace found) _ depends
    · intro other mem
      exact ((h.agrees.mem_erase found other).mp mem).2
    · intro other mem
      exact h.nodup other (mem_of_mem_erase mem)
    · exact nodup
    · by_cases default : m.defaultOutbound = some old
      · exact .inl (notDefault default)
      · right
        intro other given
        obtain there | endpoint := h.defaultOutbound other given
        · grind
        · exact .inr endpoint

theorem kept_remove (h : m.Kept endpoints) (allowed : m.Allowed (.remove tag close)) :
    (m.remove tag close).2.Kept endpoints := by
  obtain ⟨_, same⟩ | ⟨outbound, found, rest⟩ := remove_cases h.agrees
  · rw [same]
    exact h
  · obtain ⟨mem, rfl⟩ := (h.agrees.byTag tag outbound).mp found
    obtain ⟨unneeded, _⟩ := allowed (by rw [found]; exact Option.some_ne_none _)
    obtain ⟨needed, _⟩ | ⟨_, result, same, _⟩ := rest
    · exact absurd (h.unneeded unneeded) needed
    · rw [same]
      refine ⟨⟨h.agrees.erase found, ?_, h.depends.erase h.agrees found (h.nodup outbound mem)⟩, ?_⟩
      · intro other given
        dsimp only [without] at given ⊢
        split at given
        · exact .inl (mem_of_mem_head? given)
        · rename_i different
          obtain there | endpoint := h.defaultOutbound other given
          · grind
          · exact .inr endpoint
      · intro other there
        exact h.nodup other (mem_of_mem_erase there)

theorem kept_begun {stage : StartStage} {starts : StartStage → Adapter → Except String Unit}
    (h : m.Kept endpoints) (registered : m.Registered)
    (allowed : m.Allowed (.start stage fallback starts))
    (begun : Begun m endpoints stage fallback m') : m'.Kept endpoints := by
  have agrees := (registered_begun registered begun).agrees
  cases begun with
  | same => exact ⟨⟨h.agrees, h.defaultOutbound, h.depends⟩, h.nodup⟩
  | endpoint _ _ mem =>
    refine ⟨⟨agrees, ?_, h.depends⟩, h.nodup⟩
    intro other given
    cases given
    exact .inr mem
  | @fallback directOutbound first none chosen made =>
    have nothing := registered.empty chosen none
    have unneeding := allowed first chosen none directOutbound made
    have depends := h.depends
    rw [nothing] at depends
    refine ⟨⟨agrees, ?_, ?_⟩, ?_⟩
    · grind
    · have appended : DependsExactly ([] ++ [directOutbound])
          (addDependBy directOutbound.tag directOutbound.dependencies m.dependByTag) :=
        depends.append nofun (by rw [unneeding]; exact nodup_nil)
      rw [unneeding] at appended
      dsimp only
      rw [nothing]
      exact appended
    · grind

theorem kept_step {c : Call} (h : m.Kept endpoints) (registered : m.Registered)
    (allowed : m.Allowed c) (taken : m.step endpoints c = some m') : m'.Kept endpoints := by
  cases c with
  | create =>
    rw [eq_of_after taken]
    exact kept_create h allowed
  | remove =>
    rw [eq_of_after taken]
    exact kept_remove h allowed
  | start =>
    rw [eq_of_after taken]
    exact kept_begun h registered allowed (start_begun _ _ _ _ _)

theorem kept_of_run {defaultTag : String} (run : Run (step endpoints) Allowed { defaultTag } m) :
    m.Kept endpoints := by
  have both : m.Registered ∧ m.Kept endpoints := by
    apply run.invariant
    · exact ⟨⟨agrees_empty, fun _ _ => rfl⟩, ⟨agrees_empty, nofun, dependsExactly_empty⟩, nofun⟩
    · rintro s c s' ⟨registered, kept⟩ allowed taken
      exact ⟨registered_step registered taken, kept_step kept registered allowed taken⟩
  exact both.2

/-- The four structures are as they were. -/
structure Unchanged (m m' : Manager) : Prop where
  outbounds : m'.outbounds = m.outbounds
  outboundByTag : m'.outboundByTag = m.outboundByTag
  dependByTag : m'.dependByTag = m.dependByTag
  defaultOutbound : m'.defaultOutbound = m.defaultOutbound

end Manager

/-- **Outbound registry.** In every run of a new manager the list and the map hold the same
outbounds under distinct tags, and no index is invalid. Where the calls are allowed the default and
the dependent tags are right too, and an allowed `Remove` or `Create` that fails changes nothing. -/
theorem outbounds_consistent (endpoints : List Adapter) (defaultTag : String) (m : Manager) :
    (Reachable (step endpoints) { defaultTag } m →
      Agrees m.outbounds m.outboundByTag ∧
      (∀ tag made invalid starts close, (m.create tag made invalid starts close).1 ≠ .panicked) ∧
      ∀ tag close, (m.remove tag close).1 ≠ .panicked) ∧
    (Run (step endpoints) Allowed { defaultTag } m →
      m.Consistent endpoints ∧
      (∀ tag made invalid starts close e, m.Allowed (.create tag made invalid starts close) →
        (m.create tag made invalid starts close).1 = .err e →
        m.Unchanged (m.create tag made invalid starts close).2) ∧
      ∀ tag close e, m.Allowed (.remove tag close) → (m.remove tag close).1 = .err e →
        m.Unchanged (m.remove tag close).2) := by
  constructor
  · intro run
    have registered := registered_of_run run
    refine ⟨registered.agrees, ?_, ?_⟩
    · intro tag made invalid starts close
      exact (registered_create registered).1
    · intro tag close
      exact (registered_remove registered).1
  · intro run
    have kept := kept_of_run run
    refine ⟨kept.toConsistent, ?_, ?_⟩
    · intro tag made invalid starts close e _ failed
      obtain ⟨_, same⟩ | ⟨_, _, ⟨_, same⟩ | ⟨_, _, same⟩⟩ := create_cases kept.agrees
      · rw [same]
        exact ⟨rfl, rfl, rfl, rfl⟩
      · rw [same] at failed
        cases failed
      · rw [same] at failed
        cases failed
    · intro tag close e allowed failed
      obtain ⟨_, same⟩ | ⟨outbound, found, rest⟩ := remove_cases kept.agrees
      · rw [same]
        exact ⟨rfl, rfl, rfl, rfl⟩
      · obtain ⟨unneeded, closes⟩ := allowed (by rw [found]; exact Option.some_ne_none _)
        obtain ⟨needed, _⟩ | ⟨_, _, same, rfl | ⟨e', rfl, started, fails⟩⟩ := rest
        · exact absurd (kept.unneeded unneeded) needed
        · rw [same] at failed
          cases failed
        · rw [closes started] at fails
          cases fails

/-- A `Create` in which nothing fails. -/
def creates (id : Nat) (tag : String) (dependencies : List String) : Call :=
  .create tag (.ok ⟨id, "vless", dependencies⟩) (.error "no fallback") (fun _ => .ok ()) (.ok ())

/-- One outbound, another that depends on it, and the second removed. -/
theorem created_and_removed : ∃ m, Run (step []) Allowed { defaultTag := "" } m ∧
    m.outbounds = [⟨0, "vless", "a", []⟩] ∧ m.Consistent [] := by
  have allowed : ∀ (m : Manager) id tag dependencies, m.outboundByTag.get tag = none →
    dependencies.Nodup →
      m.Allowed (creates id tag dependencies) := by
    rintro m id tag dependencies free nodup outbound ⟨_, _,
      ⟨object, given | ⟨⟨_, failed⟩, _⟩, rfl⟩, _, _⟩
    · cases given
      exact ⟨nodup, fun old found => by rw [free] at found; cases found⟩
    · cases failed
  obtain ⟨m, ran, outbounds⟩ : ∃ m, Run (step []) Allowed { defaultTag := "" } m ∧
      m.outbounds = [⟨0, "vless", "a", []⟩] := by
    refine ⟨_, ((Run.start.next (allowed _ 0 "a" [] rfl (by decide)) rfl).next
      (allowed _ 1 "b" ["a"] rfl (by decide)) rfl).next
      (a := .remove "b" (.ok ())) ?_ rfl, rfl⟩
    intro _
    exact ⟨by decide, fun _ => rfl⟩
  exact ⟨m, ran, outbounds, ((outbounds_consistent [] "" m).2 ran).1⟩

/-- The default is replaced and stays the default, although it is in the list no longer; an outbound
that others depend on is removed and an error returned; one that is replaced goes on being counted
among those that depend on another. -/
theorem outbounds_inconsistent :
    (∃ m, exec (step []) { defaultTag := "" } [creates 0 "a" [], creates 1 "a" []] = some m ∧
      m.defaultOutbound = some ⟨0, "vless", "a", []⟩ ∧ m.outbounds = [⟨1, "vless", "a", []⟩] ∧
      ¬ m.Consistent []) ∧
    (∃ m, exec (step []) { defaultTag := "" } [creates 0 "a" [], creates 1 "b" ["a"]] = some m ∧
      (m.remove "a" (.ok ())).1 = .err "outbound[a] is depended by b" ∧
      ¬ m.Unchanged (m.remove "a" (.ok ())).2) ∧
    (∃ m, exec (step []) { defaultTag := "" } [creates 0 "b" ["a"], creates 1 "b" []] = some m ∧
      m.outbounds = [⟨1, "vless", "b", []⟩] ∧ dependBy m.dependByTag "a" = ["b"] ∧
        ¬ m.Consistent []) := by
  refine ⟨⟨_, rfl, rfl, rfl, ?_⟩, ⟨_, rfl, by decide +kernel, ?_⟩, ⟨_, rfl, rfl, rfl, ?_⟩⟩
  · intro consistent
    obtain there | endpoint := consistent.defaultOutbound _ rfl
    · revert there
      decide
    · cases endpoint
  · intro unchanged
    have same := unchanged.outbounds
    revert same
    decide +kernel
  · intro consistent
    obtain ⟨other, there, _, needs⟩ := (consistent.depends.mem "a" "b").mp (by decide)
    cases mem_singleton.mp there
    cases needs

end AiboosterEngine.Adapters
