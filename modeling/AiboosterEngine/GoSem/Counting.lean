import AiboosterEngine.GoSem.Threads
import Mathlib.Algebra.Order.BigOperators.Group.Finset
import Mathlib.Algebra.Group.Action.Defs

/-!
# Sums over the threads

A number for each thread, from the shared state and its place, and their sum. A
step changes one place, and the shared state for every thread.
-/

namespace GoSem.Threads

open Finset

section
variable {τ σ π α : Type} [Fintype τ] [DecidableEq τ]

def total (f : τ → σ → π → Nat) (s : Threads τ σ π) : Nat := ∑ t, f t s.shared (s.pc t)

variable {act : τ → σ → π → α → Option (σ × π)} {s s' : Threads τ σ π} {t : τ} {a : α}

/-- A step that gives each of the other threads `d` more at the most, and takes as much from its
own as it gives to all. -/
theorem total_step {f : τ → σ → π → Nat} {before after d : Nat}
    (taken : step act s (t, a) = some s')
    (others : ∀ u, f u s'.shared (s.pc u) ≤ f u s.shared (s.pc u) + d)
    (own : f t s'.shared (s'.pc t) + d * Fintype.card τ + after ≤ f t s.shared (s.pc t) + before) :
    total f s' + after ≤ total f s + before := by
  obtain ⟨_, same⟩ := step_cases taken
  have rest : ∑ u ∈ univ.erase t, f u s'.shared (s'.pc u) ≤
      ∑ u ∈ univ.erase t, f u s.shared (s.pc u) + d * Fintype.card τ := by
    calc ∑ u ∈ univ.erase t, f u s'.shared (s'.pc u)
        ≤ ∑ u ∈ univ.erase t, (f u s.shared (s.pc u) + d) := by
          apply sum_le_sum
          intro u other
          rw [same u (ne_of_mem_erase other)]
          exact others u
      _ = ∑ u ∈ univ.erase t, f u s.shared (s.pc u) + (univ.erase t).card * d := by
          rw [sum_add_distrib, sum_const, smul_eq_mul]
      _ ≤ ∑ u ∈ univ.erase t, f u s.shared (s.pc u) + d * Fintype.card τ := by
          rw [Nat.mul_comm]
          exact Nat.add_le_add_left (Nat.mul_le_mul_left d (card_le_univ _)) _
  have split := add_sum_erase univ (fun u => f u s.shared (s.pc u)) (mem_univ t)
  have split' := add_sum_erase univ (fun u => f u s'.shared (s'.pc u)) (mem_univ t)
  rw [total, total]
  omega

/-- A sum that depends on the places alone changes by what the place of one thread gives. -/
theorem sum_places {M : Type} [AddCommMonoid M] {g : τ → π → M}
    (others : ∀ u, u ≠ t → s'.pc u = s.pc u) :
    ∑ u, g u (s'.pc u) + g t (s.pc t) = ∑ u, g u (s.pc u) + g t (s'.pc t) := by
  have rest : ∑ u ∈ univ.erase t, g u (s'.pc u) = ∑ u ∈ univ.erase t, g u (s.pc u) := by
    apply sum_congr rfl
    intro u other
    rw [others u (ne_of_mem_erase other)]
  rw [← add_sum_erase _ (fun u => g u (s'.pc u)) (mem_univ t),
    ← add_sum_erase _ (fun u => g u (s.pc u)) (mem_univ t), rest, add_right_comm,
    add_right_comm (g t (s.pc t)), add_comm (g t (s.pc t))]

omit [DecidableEq τ] in
theorem le_total {f : τ → σ → π → Nat} (t : τ) : f t s.shared (s.pc t) ≤ total f s :=
  single_le_sum (f := fun t => f t s.shared (s.pc t)) (fun _ _ => Nat.zero_le _) (mem_univ t)

end

end GoSem.Threads
