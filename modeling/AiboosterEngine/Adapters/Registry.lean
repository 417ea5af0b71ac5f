import AiboosterEngine.Adapters.Startup

/-!
# Registered adapters

What the outbound manager and the DNS server manager do alike: a list of adapters,
a map of them by tag, and for every tag the tags of those that depend on it.
-/

namespace AiboosterEngine.Adapters

open GoSem List

inductive StartStage where
  | stateInitialize | stateStart | statePostStart | stateStarted
  deriving DecidableEq, Repr

def StartStage.toNat : StartStage → Nat
  | .stateInitialize => 0 | .stateStart => 1 | .statePostStart => 2 | .stateStarted => 3

def StartStage.text : StartStage → String
  | .stateInitialize => "initialize" | .stateStart => "start" | .statePostStart => "post-start"
  | .stateStarted => "finish-start"

def listStartStages : List StartStage :=
  [.stateInitialize, .stateStart, .statePostStart, .stateStarted]

/-- The text of `os.ErrInvalid`. -/
def errInvalid : String := "invalid argument"

/-- What a constructor makes for the tag it is asked for. -/
structure Made where
  id : Nat
  type : String
  dependencies : List String

def Made.named (made : Made) (tag : String) : Adapter :=
  { id := made.id, type := made.type, tag, dependencies := made.dependencies }

def Adapter.path (adapter : Adapter) (w : Wording) : String :=
  w.path ++ adapter.type ++ "[" ++ adapter.tag ++ "]"

/-- `adapter.LegacyStart` of one adapter for one stage after another. -/
def startStages (w : Wording) (adapter : Adapter) (starts : StartStage → Except String Unit) :
    List StartStage → Except String Unit
  | [] => .ok ()
  | stage :: rest =>
    match starts stage with
    | .error e => .error (stage.text ++ " " ++ adapter.path w ++ ": " ++ e)
    | .ok () => startStages w adapter starts rest

/-- `adapter.LegacyStart` of one adapter after another for one stage. -/
def startEach (w : Wording) (stage : StartStage)
    (starts : StartStage → Adapter → Except String Unit) :
    List Adapter → Except String Unit
  | [] => .ok ()
  | adapter :: rest =>
    match starts stage adapter with
    | .error e => .error (stage.text ++ " " ++ adapter.path w ++ ": " ++ e)
    | .ok () => startEach w stage starts rest

/-- What `startOutbounds` or `startTransports` returns, as `Start` hands it on. -/
def startResult (w : Wording) : Partial Empty Started → Partial String Unit
  | none => none
  | some .panicked => some .panicked
  | some (.ok (.ok (), _)) => some (.ok ())
  | some (.ok (.error e, _)) => some (.err (e.text w))

/-- A call that panics leaves the manager locked, and nothing can follow it. -/
def after {σ : Type} (result : Partial String Unit) (s : σ) : Option σ :=
  if result = some .panicked then none else some s

theorem eq_of_after {σ : Type} {result : Partial String Unit} {s s' : σ}
    (h : after result s = some s') :
    s' = s := by
  unfold after at h
  split at h
  · cases h
  · exact (Option.some.inj h).symm

/-- The list without the adapter; `none` where `common.Index` finds none. -/
def takeOut (adapters : List Adapter) (adapter : Adapter) : Option (List Adapter) :=
  if adapter ∈ adapters then some (adapters.erase adapter) else none

/-- `dependByTag[tag]`. -/
def dependBy (dependByTag : Map String (List String)) (tag : String) : List String :=
  (dependByTag.get tag).getD []

def addDependBy (tag : String) : List String → Map String (List String) → Map String (List String)
  | [], dependByTag => dependByTag
  | dependency :: rest, dependByTag =>
    addDependBy tag rest (dependByTag.set dependency (dependBy dependByTag dependency ++ [tag]))

def dropDependBy (tag : String) : List String → Map String (List String) → Map String (List String)
  | [], dependByTag => dependByTag
  | dependency :: rest, dependByTag =>
    dropDependBy tag rest
      (if (dependBy dependByTag dependency).length = 1 then dependByTag.delete dependency
      else dependByTag.set dependency ((dependBy dependByTag dependency).filter (· ≠ tag)))

structure Agrees (adapters : List Adapter) (byTag : Map String Adapter) : Prop where
  byTag : ByTag byTag adapters
  distinct : (adapters.map Adapter.tag).Nodup

/-- Under every tag, once each, the tags of the adapters that have it as a dependency. -/
structure DependsExactly (adapters : List Adapter)
    (dependByTag : Map String (List String)) : Prop where
  nodup : ∀ tag, (dependBy dependByTag tag).Nodup
  mem : ∀ tag by_, by_ ∈ dependBy dependByTag tag ↔
    ∃ adapter ∈ adapters, adapter.tag = by_ ∧ tag ∈ adapter.dependencies

section
variable {adapters : List Adapter} {byTag : Map String Adapter} {adapter : Adapter} {tag : String}

theorem agrees_empty : Agrees [] .empty where
  byTag := by
    intro tag adapter
    simp
  distinct := nodup_nil

section
variable (h : Agrees adapters byTag)
include h

theorem Agrees.get_of_nil (nothing : adapters = []) (tag : String) : byTag.get tag = none := by
  cases there : byTag.get tag with
  | none => rfl
  | some other =>
    have mem := ((h.byTag tag other).mp there).1
    rw [nothing] at mem
    cases mem

section
variable (found : byTag.get tag = some adapter)
include found

theorem Agrees.takeOut : takeOut adapters adapter = some (adapters.erase adapter) :=
  if_pos ((h.byTag tag adapter).mp found).1

theorem Agrees.mem_erase (other : Adapter) :
    other ∈ adapters.erase adapter ↔ other ∈ adapters ∧ other.tag ≠ tag := by
  obtain ⟨mem, rfl⟩ := (h.byTag tag adapter).mp found
  rw [h.distinct.of_map.mem_erase_iff]
  constructor
  · rintro ⟨different, there⟩
    refine ⟨there, fun same => different ?_⟩
    exact Dependency.node_unique h.distinct there mem same
  · rintro ⟨there, different⟩
    refine ⟨?_, there⟩
    rintro rfl
    exact different rfl

theorem Agrees.erase : Agrees (adapters.erase adapter) (byTag.delete tag) where
  byTag := by
    intro t other
    rw [Map.get_delete, h.mem_erase found]
    by_cases same : t = tag
    · grind
    · rw [if_neg same, h.byTag]
      constructor
      · rintro ⟨mem, rfl⟩
        exact ⟨⟨mem, same⟩, rfl⟩
      · rintro ⟨⟨mem, _⟩, here⟩
        exact ⟨mem, here⟩
  distinct := h.distinct.sublist ((erase_sublist).map _)

end

theorem Agrees.fresh (free : byTag.get tag = none) : ∀ other ∈ adapters, other.tag ≠ tag := by
  intro other mem same
  rw [(h.byTag tag other).mpr ⟨mem, same⟩] at free
  cases free

theorem Agrees.append (free : byTag.get adapter.tag = none) :
    Agrees (adapters ++ [adapter]) (byTag.set adapter.tag adapter) where
  byTag := by
    intro t other
    rw [Map.get_set, mem_append, mem_singleton]
    by_cases same : t = adapter.tag
    · rw [if_pos same, same]
      constructor
      · intro here
        cases here
        exact ⟨.inr rfl, rfl⟩
      · rintro ⟨old | rfl, here⟩
        · exact absurd here (h.fresh free other old)
        · rfl
    · rw [if_neg same, h.byTag]
      constructor
      · rintro ⟨mem, here⟩
        exact ⟨.inl mem, here⟩
      · rintro ⟨old | rfl, here⟩
        · exact ⟨old, here⟩
        · exact absurd here.symm same
  distinct := by
    rw [map_append, nodup_append]
    refine ⟨h.distinct, by simp, ?_⟩
    intro t old u new
    obtain ⟨other, mem, rfl⟩ := mem_map.mp old
    cases mem_singleton.mp new
    exact h.fresh free other mem

theorem Agrees.replace {old : Adapter} (found : byTag.get adapter.tag = some old) :
    Agrees (adapters.erase old ++ [adapter]) (byTag.set adapter.tag adapter) := by
  have replaced : Agrees (adapters.erase old ++ [adapter])
      ((byTag.delete adapter.tag).set adapter.tag adapter) := (h.erase found).append (by simp)
  have same : (byTag.delete adapter.tag).set adapter.tag adapter =
    byTag.set adapter.tag adapter := by
    ext1
    funext t
    simp only [Map.get_set, Map.get_delete]
    split <;> rfl
  rwa [same] at replaced

end

end

section
variable {adapters : List Adapter} {dependByTag : Map String (List String)} {tag : String}

@[simp] theorem dependBy_empty (t : String) : dependBy .empty t = [] := rfl

@[simp] theorem dependBy_set (k t : String) (v : List String) :
    dependBy (dependByTag.set k v) t = if t = k then v else dependBy dependByTag t := by
  unfold dependBy
  rw [Map.get_set]
  split <;> rfl

@[simp] theorem dependBy_delete (k t : String) :
    dependBy (dependByTag.delete k) t = if t = k then [] else dependBy dependByTag t := by
  unfold dependBy
  rw [Map.get_delete]
  split <;> rfl

theorem dependBy_add (dependencies : List String) (t : String) :
    dependBy (addDependBy tag dependencies dependByTag) t =
      dependBy dependByTag t ++ replicate (dependencies.count t) tag := by
  induction dependencies generalizing dependByTag with
  | nil => simp [addDependBy]
  | cons dependency rest ih =>
    rw [addDependBy, ih, dependBy_set, count_cons]
    by_cases same : t = dependency
    · cases same
      simp [replicate_succ]
    · simp [same, Ne.symm same]

/-- Entries of the tag are taken out, each of them being there once. -/
theorem dependBy_drop {dependencies : List String} (nodup : dependencies.Nodup)
    (there : ∀ dependency ∈ dependencies, tag ∈ dependBy dependByTag dependency) (t : String) :
    dependBy (dropDependBy tag dependencies dependByTag) t =
      if t ∈ dependencies then (dependBy dependByTag t).filter (· ≠ tag)
      else dependBy dependByTag t := by
  induction dependencies generalizing dependByTag with
  | nil => rfl
  | cons dependency rest ih =>
    obtain ⟨once, nodup⟩ := nodup_cons.mp nodup
    -- the only entry is the tag, so that the deleted list is the filtered one
    have step : ∀ u, dependBy (if (dependBy dependByTag dependency).length = 1
      then dependByTag.delete dependency
        else dependByTag.set dependency ((dependBy dependByTag dependency).filter (· ≠ tag))) u =
        if u = dependency then (dependBy dependByTag u).filter (· ≠ tag)
          else dependBy dependByTag u := by
      intro u
      by_cases alone : (dependBy dependByTag dependency).length = 1
      · obtain ⟨entry, single⟩ := length_eq_one_iff.mp alone
        have here := there dependency mem_cons_self
        rw [single, mem_singleton] at here
        subst here
        rw [if_pos alone, dependBy_delete]
        by_cases same : u = dependency
        · simp [same, single]
        · simp [same]
      · rw [if_neg alone, dependBy_set]
        by_cases same : u = dependency
        · simp [same]
        · simp [same]
    have later : ∀ d ∈ rest, d ≠ dependency := by
      rintro d mem rfl
      exact once mem
    rw [dropDependBy, ih nodup, step]
    · by_cases same : t = dependency
      · simp [same, once]
      · simp [same]
    · intro d mem
      rw [step, if_neg (later d mem)]
      exact there d (mem_cons_of_mem _ mem)

theorem dependsExactly_empty : DependsExactly [] .empty where
  nodup _ := nodup_nil
  mem _ _ := by simp

variable {adapter : Adapter} {byTag : Map String Adapter}

theorem DependsExactly.append (h : DependsExactly adapters dependByTag)
    (fresh : ∀ other ∈ adapters, other.tag ≠ adapter.tag) (nodup : adapter.dependencies.Nodup) :
    DependsExactly (adapters ++ [adapter])
    (addDependBy adapter.tag adapter.dependencies dependByTag) := by
  have new : ∀ t, adapter.tag ∉ dependBy dependByTag t := by
    intro t mem
    obtain ⟨other, there, same, _⟩ := (h.mem t _).mp mem
    exact fresh other there same
  constructor
  · intro t
    rw [dependBy_add, nodup.count]
    split
    · have old := h.nodup t
      have := new t
      grind
    · simpa using h.nodup t
  · grind [dependBy_add, h.mem, mem_singleton, replicate_one]

theorem DependsExactly.erase (h : DependsExactly adapters dependByTag)
    (agrees : Agrees adapters byTag)
    (found : byTag.get tag = some adapter) (nodup : adapter.dependencies.Nodup) :
    DependsExactly (adapters.erase adapter)
    (dropDependBy tag adapter.dependencies dependByTag) := by
  obtain ⟨mem, rfl⟩ := (agrees.byTag tag adapter).mp found
  have there : ∀ dependency ∈ adapter.dependencies,
    adapter.tag ∈ dependBy dependByTag dependency := by
    intro dependency need
    exact (h.mem dependency adapter.tag).mpr ⟨adapter, mem, rfl, need⟩
  constructor
  · intro t
    rw [dependBy_drop nodup there]
    split
    · exact (h.nodup t).filter _
    · exact h.nodup t
  · intro t by_
    rw [dependBy_drop nodup there]
    have others := agrees.mem_erase found
    have unique := fun other (here : other ∈ adapters) =>
      Dependency.node_unique agrees.distinct here mem
    by_cases needs : t ∈ adapter.dependencies
    · rw [if_pos needs, mem_filter, h.mem]
      grind
    · rw [if_neg needs, h.mem]
      grind

end

/-- What is done only once the manager is started has failed, or has gone well if it was done. -/
theorem ifStarted_cases (started : Bool) (done : Except String Unit) :
    (∃ e, (if started then done else .ok ()) = .error e) ∨
      (if started then done else .ok ()) = .ok () ∧ (started = true → done = .ok ()) := by
  cases started <;> cases done <;> simp

end AiboosterEngine.Adapters
