/-!
# Steps and runs

A system is a function from a state and an action to the next state, `none`
where the action is not possible. A run takes one action after another, each
of them meeting a condition on the state it is taken in.
-/

namespace GoSem

open List Option

section
variable {σ α : Type} (step : σ → α → Option σ)

/-- The states runs from `s₀` reach whose steps all meet `ok`. -/
inductive Run (ok : σ → α → Prop) (s₀ : σ) : σ → Prop
  | start : Run ok s₀ s₀
  | next {s s' : σ} {a : α} : Run ok s₀ s → ok s a → step s a = some s' → Run ok s₀ s'

/-- Runs without a condition. -/
def Reachable (s₀ s : σ) : Prop := Run step (fun _ _ => True) s₀ s

/-- A list of actions, one after another. -/
def exec : σ → List α → Option σ
  | s, [] => some s
  | s, a :: as => (step s a).bind fun s' => exec s' as

variable {step} {s s' : σ}

theorem of_guard {c : Prop} [Decidable c] (taken : (if c then some s else none) = some s') :
    c ∧ s = s' := by
  simpa using taken

variable {ok : σ → α → Prop} {Inv : σ → Prop}

/-- What holds at the start and is kept by every step that meets the condition holds in
every state of every such run. -/
theorem Run.invariant {s₀ s : σ} {Inv : σ → Prop} (run : Run step ok s₀ s)
    (start : Inv s₀) (keep : ∀ s a s', Inv s → ok s a → step s a = some s' → Inv s') : Inv s := by
  induction run with
  | start => exact start
  | next _ met taken ih => exact keep _ _ _ ih met taken

theorem Run.trans {s₀ s₁ s₂ : σ} (h : Run step ok s₀ s₁) (h' : Run step ok s₁ s₂) :
    Run step ok s₀ s₂ := by
  induction h' with
  | start => exact h
  | next _ met taken ih => exact ih.next met taken

/-- Every action of the list meets the condition in the state it is taken in. -/
def AllMet (step : σ → α → Option σ) (ok : σ → α → Prop) : σ → List α → Prop
  | _, [] => True
  | s, a :: as => ok s a ∧ ∀ s' ∈ step s a, AllMet step ok s' as

instance AllMet.decidable {ok : σ → α → Prop} [∀ s a, Decidable (ok s a)] :
    (s : σ) → (as : List α) → Decidable (AllMet step ok s as)
  | _, [] => isTrue trivial
  | s, a :: as =>
    have (s' : σ) : Decidable (AllMet step ok s' as) := AllMet.decidable s' as
    inferInstanceAs (Decidable (ok s a ∧ ∀ s' ∈ step s a, AllMet step ok s' as))

variable {as : List α}

theorem AllMet.of_forall (met : ∀ s, ∀ a ∈ as, ok s a) (s : σ) : AllMet step ok s as := by
  induction as generalizing s with
  | nil => trivial
  | cons a as ih =>
    exact ⟨met s a mem_cons_self, fun s' _ =>
      ih (fun s b hb => met s b (mem_cons_of_mem _ hb)) s'⟩

theorem exec_run (h : exec step s as = some s') (met : AllMet step ok s as) : Run step ok s s' := by
  induction as generalizing s with
  | nil => cases h; exact .start
  | cons a as ih =>
    obtain ⟨t, taken, rest⟩ := bind_eq_some_iff.mp h
    have first : Run step ok s t := Run.start.next met.1 taken
    exact first.trans (ih rest (met.2 t taken))

theorem exec_reachable (h : exec step s as = some s') : Reachable step s s' :=
  exec_run h (.of_forall (fun _ _ _ => trivial) s)

variable {P : σ → Prop}

theorem exec_reaches (as : List α) (h : ∃ s', exec step s as = some s' ∧ P s') :
    ∃ s', Reachable step s s' ∧ P s' := by
  obtain ⟨s', ran, holds⟩ := h
  exact ⟨s', exec_reachable ran, holds⟩

/-- What every step makes smaller bounds the runs. -/
theorem exec_length_le {size : σ → Nat} (h : exec step s as = some s')
    (inv : Inv s) (keep : ∀ s a s', Inv s → step s a = some s' → Inv s')
    (smaller : ∀ s a s', a ∈ as → Inv s → step s a = some s' → size s' < size s) :
      as.length ≤ size s := by
  induction as generalizing s with
  | nil => exact Nat.zero_le _
  | cons a as ih =>
    obtain ⟨t, taken, rest⟩ := bind_eq_some_iff.mp h
    have short := ih rest (keep s a t inv taken) fun s b s' mem =>
      smaller s b s' (mem_cons_of_mem _ mem)
    have less := smaller s a t mem_cons_self inv taken
    rw [length_cons]
    omega

/-- Induction from the end of a run, where what holds in its last state held all along: `P` is a
property that no action in `A` brings back once it is lost. -/
theorem exec_backward {A : α → Prop} {Q : σ → List α → Prop}
    (h : exec step s as = some s') (which : ∀ a ∈ as, A a) (inv : Inv s) (last : P s')
    (keep : ∀ s a t, Inv s → A a → step s a = some t → Inv t)
    (back : ∀ s a t, Inv s → A a → step s a = some t → P t → P s) (nil : Q s' [])
    (cons : ∀ s a t as, Inv s → A a → step s a = some t → P t → Q t as → Q s (a :: as)) :
      P s ∧ Q s as := by
  induction as generalizing s with
  | nil =>
    cases h
    exact ⟨last, nil⟩
  | cons a as ih =>
    obtain ⟨t, taken, rest⟩ := bind_eq_some_iff.mp h
    have mine := which a mem_cons_self
    obtain ⟨here, later⟩ := ih rest (fun b member => which b (mem_cons_of_mem _ member))
      (keep s a t inv mine taken)
    exact ⟨back s a t inv mine taken here, cons s a t as inv mine taken here later⟩

/-- Every state of the run has the property, the first and the last included. -/
def Throughout (step : σ → α → Option σ) (P : σ → Prop) : σ → List α → Prop
  | s, [] => P s
  | s, a :: as => P s ∧ ∀ s' ∈ step s a, Throughout step P s' as

/-- Where the property is lost by the steps that do not meet the condition and by no others, the
runs that keep it are those whose steps meet the condition. -/
theorem throughout_iff (as : List α) (inv : Inv s) (start : P s)
    (keep : ∀ s a s', Inv s → step s a = some s' → Inv s')
    (refused : ∀ s a, step s a = none → ok s a)
    (lost : ∀ s a s', Inv s → P s → step s a = some s' → (P s' ↔ ok s a)) :
    Throughout step P s as ↔ AllMet step ok s as := by
  induction as generalizing s with
  | nil => exact iff_of_true start trivial
  | cons a as ih =>
    rw [Throughout, AllMet]
    cases taken : step s a with
    | none => exact iff_of_true ⟨start, by simp⟩ ⟨refused s a taken, by simp⟩
    | some s' =>
      have inv' := keep s a s' inv taken
      have here := lost s a s' inv start taken
      simp only [mem_def, Option.some.injEq, forall_eq']
      constructor
      · rintro ⟨_, rest⟩
        have kept : P s' := by cases as with
          | nil => exact rest
          | cons _ _ => exact rest.1
        exact ⟨here.mp kept, (ih inv' kept).mp rest⟩
      · rintro ⟨met, rest⟩
        have kept := here.mpr met
        exact ⟨start, (ih inv' kept).mpr rest⟩

end

/-- One place of a list, with what stands before and after it. -/
theorem split_at_index {β : Type} {l : List β} {i : Nat} {x : β} (h : l[i]? = some x) :
    ∃ a b, l = a ++ x :: b ∧ l.eraseIdx i = a ++ b ∧ ∀ y, l.set i y = a ++ y :: b := by
  induction l generalizing i with
  | nil => cases h
  | cons z l ih =>
    cases i with
    | zero => cases h; exact ⟨[], l, rfl, rfl, fun _ => rfl⟩
    | succ i =>
      obtain ⟨a, b, hl, he, hs⟩ := ih h
      exact ⟨z :: a, b, by rw [hl]; rfl, by rw [eraseIdx_cons_succ, he]; rfl,
        fun y => by rw [set_cons_succ, hs]; rfl⟩

end GoSem
