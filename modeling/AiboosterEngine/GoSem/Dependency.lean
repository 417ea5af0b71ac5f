import Mathlib.Data.Set.Finite.Basic

/-!
# Dependencies

Named nodes, each with the names of the nodes it needs.
-/

namespace GoSem.Dependency

open List Relation

/-- Among finitely many, a relation without cycles can be followed only so far. -/
theorem wellFounded_of_acyclic {ν : Type} [Finite ν] {r : ν → ν → Prop}
    (acyclic : ∀ n, ¬ TransGen r n n) :
    WellFounded fun m n => r n m := by
  let before (m n : ν) : Prop := TransGen r n m
  have : IsTrans _ before := ⟨fun _ _ _ first second => TransGen.trans second first⟩
  have : Std.Irrefl before := ⟨acyclic⟩
  apply Subrelation.wf ?_ (Finite.wellFounded_of_trans_of_irrefl before)
  exact fun step => .single step

/-- So what always leads to another of its kind is not there at all. -/
theorem not_endless {ν : Type} [Finite ν] {r : ν → ν → Prop} {P : ν → Prop}
    (acyclic : ∀ n, ¬ TransGen r n n) (next : ∀ n, P n → ∃ m, r n m ∧ P m) (n : ν) : ¬ P n := by
  induction n using (wellFounded_of_acyclic acyclic).induction with
  | _ n ih =>
    intro here
    obtain ⟨m, step, there⟩ := next n here
    exact ih m step there

section
variable {ν τ : Type} (name : ν → τ) (needs : ν → List τ) (nodes : List ν)

inductive Ready : τ → Prop
  | intro (n : ν) : n ∈ nodes → (∀ d ∈ needs n, Ready d) → Ready (name n)

/-- Every need is the name of a node. -/
def Closed : Prop := ∀ n ∈ nodes, ∀ d ∈ needs n, ∃ m ∈ nodes, name m = d

def Needs (n m : ν) : Prop := n ∈ nodes ∧ m ∈ nodes ∧ name m ∈ needs n

/-- No chain of needs comes back to the node it starts from. -/
def Acyclic : Prop := ∀ n, ¬ TransGen (Needs name needs nodes) n n

inductive InOrder : List τ → Prop
  | nil : InOrder []
  | next {log : List τ} (n : ν) : InOrder log → n ∈ nodes → name n ∉ log →
      (∀ d ∈ needs n, d ∈ log) →
      InOrder (log ++ [name n])

variable {name needs nodes}

theorem Ready.node {t : τ} (h : Ready name needs nodes t) : ∃ n ∈ nodes, name n = t := by
  cases h with
  | intro n mem _ => exact ⟨n, mem, rfl⟩

variable {log : List τ}

section
variable (h : InOrder name needs nodes log)
include h

theorem InOrder.nodup : log.Nodup := by
  induction h with
  | nil => exact nodup_nil
  | next n _ _ fresh _ ih => exact nodup_append.mpr ⟨ih, by simp, by grind⟩

theorem InOrder.ready : ∀ t ∈ log, Ready name needs nodes t := by
  induction h with
  | nil => nofun
  | next n _ mem _ before ih =>
    intro t inside
    rcases mem_append.mp inside with old | new
    · exact ih t old
    · cases mem_singleton.mp new
      exact .intro n mem fun d need => ih d (before d need)

theorem InOrder.inside : log ⊆ nodes.map name := by
  intro t mem
  obtain ⟨n, node, rfl⟩ := (h.ready t mem).node
  exact mem_map_of_mem node

theorem InOrder.length_le : log.length ≤ nodes.length := by
  simpa using (h.nodup.subperm h.inside).length_le

theorem InOrder.all (long : log.length = nodes.length) : ∀ n ∈ nodes, name n ∈ log := by
  intro n mem
  have same := (h.nodup.subperm h.inside).perm_of_length_le (by simp [long])
  exact same.mem_iff.mpr (mem_map_of_mem mem)

/-- Where every node that is missing from the log needs a name that is missing too, the log is
complete. -/
theorem mem_iff_ready (stuck : ∀ n ∈ nodes, name n ∈ log ∨ ∃ d ∈ needs n, d ∉ log) (t : τ) :
    t ∈ log ↔ Ready name needs nodes t := by
  constructor
  · exact h.ready t
  · intro ready
    induction ready with
    | intro n mem _ ih =>
      rcases stuck n mem with there | ⟨d, need, missing⟩
      · exact there
      · exact absurd (ih d need) missing

end

section
variable (distinct : (nodes.map name).Nodup)
include distinct

theorem node_unique {n m : ν} (left : n ∈ nodes) (right : m ∈ nodes)
    (same : name n = name m) : n = m :=
  inj_on_of_nodup_map distinct left right same

theorem ready_needs {n : ν} (mem : n ∈ nodes) (h : Ready name needs nodes (name n)) :
    ∀ d ∈ needs n, Ready name needs nodes d := by
  generalize same : name n = t at h
  cases h with
  | intro m node ready =>
    cases node_unique distinct mem node same
    exact ready

theorem Ready.no_cycle {t : τ} (h : Ready name needs nodes t) :
    ∀ n ∈ nodes, name n = t → ¬ TransGen (Needs name needs nodes) n n := by
  induction h with
  | intro m node _ ih =>
    intro n mem same cycle
    cases node_unique distinct mem node same
    obtain ⟨first, step, rest⟩ := TransGen.head'_iff.mp cycle
    have turned : TransGen (Needs name needs nodes) first first :=
      TransGen.tail' rest step
    exact ih (name first) step.2.2 first step.2.1 rfl turned

theorem closed_of_ready (h : ∀ n ∈ nodes, Ready name needs nodes (name n)) :
    Closed name needs nodes := by
  intro n mem d need
  exact (ready_needs distinct mem (h n mem) d need).node

theorem acyclic_of_ready (h : ∀ n ∈ nodes, Ready name needs nodes (name n)) :
    Acyclic name needs nodes := by
  intro n cycle
  obtain ⟨_, step, _⟩ := TransGen.head'_iff.mp cycle
  exact (h n step.1).no_cycle distinct n step.1 rfl cycle

omit distinct in
theorem ready_of_acyclic (closed : Closed name needs nodes) (acyclic : Acyclic name needs nodes) :
    ∀ n ∈ nodes, Ready name needs nodes (name n) := by
  have : Finite { n // n ∈ nodes } := (finite_toSet nodes).to_subtype
  let need (a b : { n // n ∈ nodes }) : Prop := Needs name needs nodes a.1 b.1
  have noCycle (a : { n // n ∈ nodes }) : ¬ TransGen need a a := by
    intro cycle
    exact acyclic a.1 (cycle.lift Subtype.val fun _ _ step => step)
  have all : ∀ a : { n // n ∈ nodes }, Ready name needs nodes (name a.1) := by
    intro a
    induction a using (wellFounded_of_acyclic noCycle).induction with
    | _ a ih =>
      apply Ready.intro a.1 a.2
      intro d need
      obtain ⟨m, node, rfl⟩ := closed a.1 a.2 d need
      exact ih ⟨m, node⟩ ⟨a.2, node, need⟩
  intro n mem
  exact all ⟨n, mem⟩

theorem ready_iff : (∀ n ∈ nodes, Ready name needs nodes (name n)) ↔
    Closed name needs nodes ∧ Acyclic name needs nodes := by
  constructor
  · intro h
    exact ⟨closed_of_ready distinct h, acyclic_of_ready distinct h⟩
  · intro h
    exact ready_of_acyclic h.1 h.2

end

end

end GoSem.Dependency
