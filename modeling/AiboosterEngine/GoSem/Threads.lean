import AiboosterEngine.GoSem.Steps

/-!
# Threads

Threads that share a state, each with a place of its own in its code. One step is
one action of one thread.
-/

namespace GoSem

structure Threads (τ σ π : Type) where
  shared : σ
  pc : τ → π

namespace Threads

section
variable {τ σ π α : Type} [DecidableEq τ] (act : τ → σ → π → α → Option (σ × π))

/-- One action of one thread. -/
def step (s : Threads τ σ π) (a : τ × α) : Option (Threads τ σ π) :=
  (act a.1 s.shared (s.pc a.1) a.2).map fun next =>
    { shared := next.1, pc := fun u => if u = a.1 then next.2 else s.pc u }

variable {act} {s s' : Threads τ σ π} {t : τ} {a : α}

theorem step_cases (h : step act s (t, a) = some s') :
    act t s.shared (s.pc t) a = some (s'.shared, s'.pc t) ∧ ∀ u, u ≠ t → s'.pc u = s.pc u := by
  obtain ⟨next, taken, rfl⟩ := Option.map_eq_some_iff.mp h
  refine ⟨by simpa using taken, fun u other => ?_⟩
  simp [other]

variable {u : τ} {lock : σ → Option τ} {holds : π → Bool}

omit [DecidableEq τ] in
/-- What is true of a place after a step of `t` is so of the new place of `t`, or was so before. -/
theorem place_cases {P : π → Prop} (others : ∀ u, u ≠ t → s'.pc u = s.pc u) (here : P (s'.pc u)) :
    (u = t ∧ P (s'.pc t)) ∨ (u ≠ t ∧ P (s.pc u)) := by
  by_cases mine : u = t
  · rw [mine] at here
    exact .inl ⟨mine, here⟩
  · rw [others u mine] at here
    exact .inr ⟨mine, here⟩

omit [DecidableEq τ] in
/-- The assertion at each thread's place holds after a step of `t` that makes its own true and those
of the others no less so. -/
theorem places_step {I : τ → π → σ → Prop} (h : ∀ u, I u (s.pc u) s.shared)
    (others : ∀ u, u ≠ t → s'.pc u = s.pc u) (own : I t (s'.pc t) s'.shared)
    (keeps : ∀ u, I u (s.pc u) s.shared → I u (s.pc u) s'.shared) (u : τ) :
      I u (s'.pc u) s'.shared := by
  by_cases self : u = t
  · rw [self]
    exact own
  · rw [others u self]
    exact keeps u (h u)

omit [DecidableEq τ] in
/-- Actions of one thread while the others rest. -/
def alone (act : τ → σ → π → α → Option (σ × π)) (t : τ) : σ × π → List α → Option (σ × π)
  | next, [] => some next
  | next, a :: as => (act t next.1 next.2 a).bind fun next => alone act t next as

theorem reachable_alone {s₀ : Threads τ σ π} {p place : π} {shared : σ} (as : List α)
    (reached : Reachable (step act) s₀ s) (here : s.pc t = p)
    (acted : alone act t (s.shared, p) as = some (shared, place)) :
    ∃ s', Reachable (step act) s₀ s' ∧ s'.shared = shared ∧ s'.pc t = place ∧
      ∀ u, u ≠ t → s'.pc u = s.pc u := by
  subst here
  induction as generalizing s with
  | nil =>
    cases acted
    exact ⟨s, reached, rfl, rfl, fun _ _ => rfl⟩
  | cons a as ih =>
    obtain ⟨next, first, rest⟩ := Option.bind_eq_some_iff.mp acted
    have taken : step act s (t, a) =
        some { shared := next.1, pc := fun u => if u = t then next.2 else s.pc u } := by
      simp [step, first]
    obtain ⟨s', reached, same, here, others⟩ :=
      ih (reached.next trivial taken) (by simpa using rest)
    exact ⟨s', reached, same, here, fun u other => by simp [others u other, other]⟩

/-- Every action leaves the lock alone, takes it when it is free, or gives back what it holds. -/
structure Locks (act : τ → σ → π → α → Option (σ × π)) (lock : σ → Option τ)
    (holds : π → Bool) : Prop where
  act : ∀ t s pc a s' pc', act t s pc a = some (s', pc') →
    (lock s' = lock s ∧ holds pc' = holds pc) ∨
    (lock s = none ∧ lock s' = some t ∧ holds pc' = true) ∨
    (holds pc = true ∧ lock s' = none ∧ holds pc' = false)

/-- The threads under the lock are those that hold it. -/
def Held (lock : σ → Option τ) (holds : π → Bool) (s : Threads τ σ π) : Prop :=
  ∀ t, holds (s.pc t) = true ↔ lock s.shared = some t

theorem Locks.held (locks : Locks act lock holds) (h : Held lock holds s)
    (taken : step act s (t, a) = some s') : Held lock holds s' := by
  obtain ⟨acted, others⟩ := step_cases taken
  intro u
  obtain ⟨same, held⟩ | ⟨free, got, held⟩ | ⟨held, back, out⟩ := locks.act t _ _ a _ _ acted
  · by_cases mine : u = t
    · rw [mine, held, same]
      exact h t
    · rw [others u mine, same]
      exact h u
  · by_cases mine : u = t
    · rw [mine, held, got]
      simp
    · rw [others u mine, h u, free, got]
      simp [Ne.symm mine]
  · have mine_before := (h t).mp held
    by_cases mine : u = t
    · rw [mine, out, back]
      simp
    · rw [others u mine, h u, mine_before, back]
      simp [Ne.symm mine]

omit [DecidableEq τ] in
theorem Held.unique (h : Held lock holds s) (first : holds (s.pc t) = true)
    (second : holds (s.pc u) = true) :
    u = t := by
  have same := ((h t).mp first).symm.trans ((h u).mp second)
  exact (Option.some.inj same).symm

/-- The data under a lock are as the place of the thread that has it says, and as `rest` says
while nobody has it. -/
structure Guarded (lock : σ → Option τ) (holds : π → Bool) (data : π → σ → Prop) (rest : π)
    (s : Threads τ σ π) : Prop where
  held : Held lock holds s
  free : lock s.shared = none → data rest s.shared
  under : ∀ t, holds (s.pc t) = true → data (s.pc t) s.shared

section
variable {data : π → σ → Prop} {rest : π} (h : Guarded lock holds data rest s)
include h

omit [DecidableEq τ] in
theorem Guarded.cases : data rest s.shared ∨ ∃ t, holds (s.pc t) = true ∧
    data (s.pc t) s.shared := by
  cases access : lock s.shared with
  | none => exact .inl (h.free access)
  | some t =>
    have under := (h.held t).mpr access
    exact .inr ⟨t, under, h.under t under⟩

theorem Guarded.step (locks : Locks act lock holds) (taken : step act s (t, a) = some s')
    (outside : holds (s.pc t) = false → ∀ p, data p s.shared → data p s'.shared)
    (inside : holds (s'.pc t) = true → data (s'.pc t) s'.shared)
    (back : holds (s.pc t) = true → holds (s'.pc t) = false → data rest s'.shared) :
    Guarded lock holds data rest s' := by
  obtain ⟨acted, others⟩ := step_cases taken
  refine ⟨locks.held h.held taken, fun free => ?_, fun u under => ?_⟩
  · obtain ⟨same, _⟩ | ⟨_, got, _⟩ | ⟨mine, _, given⟩ := locks.act t _ _ a _ _ acted
    · rw [same] at free
      apply outside _ rest (h.free free)
      rw [Bool.eq_false_iff]
      intro mine
      rw [(h.held t).mp mine] at free
      cases free
    · rw [got] at free
      cases free
    · exact back mine given
  · by_cases self : u = t
    · rw [self] at under ⊢
      exact inside under
    · rw [others u self] at under ⊢
      apply outside _ _ (h.under u under)
      rw [Bool.eq_false_iff]
      exact fun mine => self (h.held.unique mine under)

end

/-- Whatever the thread does next it gets done, and there is always something it can do without
waiting for anybody. -/
inductive Finishes (act : σ → π → α → Option (σ × π)) (own : α → Prop)
    (done : π → Prop) : σ → π → Prop
  | done {s : σ} {p : π} : done p → Finishes act own done s p
  | step {s : σ} {p : π} (can : ∃ a next, own a ∧ act s p a = some next)
      (goes : ∀ a s' p', act s p a = some (s', p') → Finishes act own done s' p') :
        Finishes act own done s p

/-- It is done, or some thread is at a place from which it will be. -/
def SeenTo (done : σ → Prop) (on : π → Bool) (s : Threads τ σ π) : Prop :=
  done s.shared ∨ ∃ t, on (s.pc t) = true

omit [DecidableEq τ] in
theorem seenTo_step {done : σ → Prop} {on : π → Bool} (h : SeenTo done on s)
    (others : ∀ u, u ≠ t → s'.pc u = s.pc u)
    (keeps : done s.shared ∨ on (s.pc t) = true → done s'.shared ∨ on (s'.pc t) = true) :
      SeenTo done on s' := by
  have mine : done s'.shared ∨ on (s'.pc t) = true → SeenTo done on s' := by
    rintro (here | on)
    · exact .inl here
    · exact .inr ⟨t, on⟩
  obtain here | ⟨u, onIt⟩ := h
  · exact mine (keeps (.inl here))
  · by_cases same : u = t
    · rw [same] at onIt
      exact mine (keeps (.inr onIt))
    · exact .inr ⟨u, by rw [others u same]; exact onIt⟩

end

end Threads

end GoSem
