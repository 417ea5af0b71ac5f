import Mathlib.Data.List.Nodup
import Mathlib.Data.List.Perm.Subperm

/-!
# Chains

Nodes that each lead to at most one other.
-/

namespace GoSem

open List Relation

section
variable {α : Type} (next : α → Option α)

/-- The node `n` links after `a`. -/
def follow : (n : Nat) → (a : α) → Option α
  | 0, a => some a
  | n + 1, a => (next a).bind (follow n)

def Leads (a b : α) : Prop := next a = some b

variable {next} {a : α} {n : Nat}

theorem follow_next {b : α} (leads : next a = some b) :
    follow next (n + 1) a = follow next n b := by
  rw [follow, leads, Option.bind_some]

theorem follow_last (last : next a = none) : follow next (n + 1) a = none := by
  rw [follow, last, Option.bind_none]

theorem follow_of_cycle (cycle : TransGen (Leads next) a a) : follow next n a ≠ none := by
  induction n generalizing a with
  | zero => exact Option.some_ne_none _
  | succ n ih =>
    obtain ⟨b, leads, rest⟩ := TransGen.head'_iff.mp cycle
    rw [follow_next leads]
    exact ih (TransGen.tail' rest leads)

section
variable {nodes : List α} (closed : ∀ a b, next a = some b → b ∈ nodes)
  (acyclic : ∀ b ∈ nodes, ¬ TransGen (Leads next) b b)
include closed acyclic

/-- The nodes passed before `a` and those after it are all different. -/
theorem follow_length {b : α} {passed : List α} (nodup : passed.Nodup) (inside : passed ⊆ nodes)
    (mem : a ∈ nodes)
    (before : ∀ c ∈ passed, TransGen (Leads next) c a) (h : follow next n a = some b) :
    n + passed.length < nodes.length := by
  have fresh : a ∉ passed := fun again => acyclic a mem (before a again)
  have all : (a :: passed).Nodup := nodup_cons.mpr ⟨fresh, nodup⟩
  have sub : a :: passed ⊆ nodes := cons_subset.mpr ⟨mem, inside⟩
  induction n generalizing a passed with
  | zero =>
    have short := (all.subperm sub).length_le
    rw [length_cons] at short
    omega
  | succ n ih =>
    cases link : next a with
    | none =>
      rw [follow_last link] at h
      cases h
    | some c =>
      rw [follow_next link] at h
      have here := closed a c link
      have leads : ∀ d ∈ a :: passed, TransGen (Leads next) d c := by
        intro d there
        obtain rfl | there := mem_cons.mp there
        · exact .single link
        · exact (before d there).tail link
      have fresh : c ∉ a :: passed := fun again => acyclic c here (leads c again)
      have longer := ih all sub here leads h fresh (nodup_cons.mpr ⟨fresh, all⟩)
        (cons_subset.mpr ⟨here, sub⟩)
      rw [length_cons] at longer
      omega

theorem follow_ends (mem : a ∈ nodes) : follow next nodes.length a = none := by
  cases last : follow next nodes.length a with
  | none => rfl
  | some b =>
    have short := follow_length closed acyclic nodup_nil (nil_subset _) mem (by simp) last
    simp at short

end

end

end GoSem
