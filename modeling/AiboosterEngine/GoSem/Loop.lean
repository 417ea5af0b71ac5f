import AiboosterEngine.GoSem.Outcome

/-!
# Loops

A loop is the body it runs in every pass: from a state the body leaves the loop
with a value, goes on from another state, or ends the function.
-/

namespace GoSem

/-- What a pass does when it does not end the function. -/
inductive Pass (σ β : Type) where
  | leave (b : β)
  | again (s : σ)
  deriving DecidableEq, Repr

section
variable {ε σ β : Type} (body : σ → Partial ε (Pass σ β))

def loop : (fuel : Nat) → σ → Partial ε β
  | 0, _ => none
  | fuel + 1, s => do
    match ← body s with
    | .leave b => return b
    | .again s => loop fuel s

/-- The loop started in `s` has a pass that begins in the state. -/
inductive Comes (s : σ) : σ → Prop
  | here : Comes s s
  | next {t u : σ} : Comes s t → body t = some (.ok (.again u)) → Comes s u

variable {body} {s t u : σ} {fuel : Nat}

theorem loop_leave {b : β} (h : body s = some (.ok (.leave b))) :
    loop body (fuel + 1) s = some (.ok b) := by
  rw [loop, h]
  rfl

theorem loop_again (h : body s = some (.ok (.again t))) :
    loop body (fuel + 1) s = loop body fuel t := by
  rw [loop, h]
  rfl

variable {o : Outcome ε β}

theorem loop_cases (h : loop body fuel s = some o) :
    ∃ less, fuel = less + 1 ∧
      ((∃ b, body s = some (.ok (.leave b)) ∧ o = .ok b) ∨
       (∃ t, body s = some (.ok (.again t)) ∧ loop body less t = some o) ∨
       (∃ e, body s = some (.err e) ∧ o = .err e) ∨
       (body s = some .panicked ∧ o = .panicked)) := by
  cases fuel with
  | zero => cases h
  | succ less =>
    refine ⟨less, rfl, ?_⟩
    rw [loop] at h
    match pass : body s with
    | none => rw [pass] at h; cases h
    | some (.ok (.leave b)) => rw [pass] at h; cases h; exact .inl ⟨b, rfl, rfl⟩
    | some (.ok (.again t)) => rw [pass] at h; exact .inr (.inl ⟨t, rfl, h⟩)
    | some (.err e) => rw [pass] at h; cases h; exact .inr (.inr (.inl ⟨e, rfl, rfl⟩))
    | some .panicked => rw [pass] at h; cases h; exact .inr (.inr (.inr ⟨rfl, rfl⟩))

theorem loop_mono {more : Nat} (h : loop body fuel s = some o) (le : fuel ≤ more) :
    loop body more s = some o := by
  induction fuel generalizing s more with
  | zero => cases h
  | succ fuel ih =>
    obtain ⟨more, rfl⟩ : ∃ k, more = k + 1 := ⟨more - 1, by omega⟩
    obtain ⟨less, same, pass⟩ := loop_cases h
    cases same
    rw [loop]
    rcases pass with ⟨b, pass, rfl⟩ | ⟨t, pass, rest⟩ | ⟨e, pass, rfl⟩ | ⟨pass, rfl⟩
    · rw [pass]; rfl
    · rw [pass]; exact ih rest (by omega)
    · rw [pass]; rfl
    · rw [pass]; rfl

theorem loop_unique {o' : Outcome ε β} {fuel' : Nat} (h : loop body fuel s = some o)
    (h' : loop body fuel' s = some o') : o = o' := by
  have first := loop_mono h (Nat.le_max_left fuel fuel')
  have second := loop_mono h' (Nat.le_max_right fuel fuel')
  exact Option.some.inj (first.symm.trans second)

theorem Comes.invariant {Inv : σ → Prop} (h : Comes body s t) (start : Inv s)
    (keep : ∀ t u, Inv t → body t = some (.ok (.again u)) → Inv u) : Inv t := by
  induction h with
  | here => exact start
  | next _ pass ih => exact keep _ _ ih pass

theorem Comes.head (pass : body s = some (.ok (.again t))) (h : Comes body t u) :
    Comes body s u := by
  induction h with
  | here => exact .next .here pass
  | next _ later ih => exact .next ih later

/-- From every state it comes to, the loop has the same outcome. -/
theorem Comes.loop (h : Comes body s t) (ends : loop body fuel s = some o) :
    ∃ fuel', loop body fuel' t = some o := by
  induction h with
  | here => exact ⟨fuel, ends⟩
  | @next t u _ pass ih =>
    obtain ⟨fuel', rest⟩ := ih
    cases fuel' with
    | zero => cases rest
    | succ less => exact ⟨less, by rw [← loop_again pass]; exact rest⟩

def Pass.last : Outcome ε β → Outcome ε (Pass σ β)
  | .ok b => .ok (.leave b)
  | .err e => .err e
  | .panicked => .panicked

theorem loop_last (h : loop body fuel s = some o) :
    ∃ t, Comes body s t ∧ body t = some (Pass.last o) := by
  induction fuel generalizing s with
  | zero => cases h
  | succ fuel ih =>
    obtain ⟨less, same, pass⟩ := loop_cases h
    cases same
    rcases pass with ⟨b, pass, rfl⟩ | ⟨t, pass, rest⟩ | ⟨e, pass, rfl⟩ | ⟨pass, rfl⟩
    · exact ⟨s, .here, pass⟩
    · obtain ⟨last, comes, ends⟩ := ih rest
      exact ⟨last, comes.head pass, ends⟩
    · exact ⟨s, .here, pass⟩
    · exact ⟨s, .here, pass⟩

theorem loop_stalls (h : body s = some (.ok (.again s))) (fuel : Nat) :
    loop body fuel s = none := by
  induction fuel with
  | zero => rfl
  | succ fuel ih => rw [loop_again h, ih]

/-- A loop that comes back does so in every one of its passes. -/
theorem body_returns_of_loop (h : (loop body fuel s).Returns) (comes : Comes body s t) :
    (body t).Returns := by
  obtain ⟨o, ends, returns⟩ := h
  obtain ⟨fuel', rest⟩ := comes.loop ends
  obtain ⟨_, _, pass⟩ := loop_cases rest
  rcases pass with ⟨_, pass, _⟩ | ⟨_, pass, _⟩ | ⟨_, pass, _⟩ | ⟨_, same⟩
  · exact ⟨_, pass, trivial⟩
  · exact ⟨_, pass, trivial⟩
  · exact ⟨_, pass, trivial⟩
  · rw [same] at returns
    exact returns.elim

/-- Where every pass goes on from a smaller state, the size of the first one is fuel enough. -/
theorem loop_returns_of_lt (size : σ → Nat) (enough : size s < fuel)
    (returns : ∀ t, Comes body s t → (body t).Returns)
    (smaller : ∀ t u, Comes body s t → body t = some (.ok (.again u)) → size u < size t) :
    (loop body fuel s).Returns := by
  induction fuel generalizing s with
  | zero => omega
  | succ fuel ih =>
    obtain ⟨o, pass, back⟩ := returns s .here
    match o, back with
    | .ok (.leave b), _ => exact ⟨.ok b, loop_leave pass, trivial⟩
    | .ok (.again t), _ =>
      have less := smaller s t .here pass
      rw [loop_again pass]
      exact ih (by omega) (fun u h => returns u (h.head pass))
        (fun u v h => smaller u v (h.head pass))
    | .err e, _ => exact ⟨.err e, by rw [loop, pass]; rfl, trivial⟩

/-- A loop whose passes leave it with a right value, or keep the invariant and go on from a smaller
state, has a right value. -/
theorem loop_value {Inv : σ → Prop} {Post : σ → β → Prop} (size : σ → Nat) (start : Inv s)
    (pass : ∀ t, Inv t → (∃ b, body t = some (.ok (.leave b)) ∧ Post t b) ∨
      ∃ u, body t = some (.ok (.again u)) ∧ Inv u ∧ size u < size t) :
    ∃ b t, Inv t ∧ Post t b ∧ ∀ fuel, size s < fuel → loop body fuel s = some (.ok b) := by
  induction k : size s using Nat.strongRecOn generalizing s with
  | ind k ih =>
    rcases pass s start with ⟨b, left, post⟩ | ⟨u, again, inv, less⟩
    · refine ⟨b, s, start, post, fun fuel enough => ?_⟩
      obtain ⟨fuel, rfl⟩ := Nat.exists_eq_add_of_lt enough
      exact loop_leave left
    · obtain ⟨b, t, inv', post, value⟩ := ih (size u) (k ▸ less) inv rfl
      refine ⟨b, t, inv', post, fun fuel enough => ?_⟩
      obtain ⟨fuel, rfl⟩ := Nat.exists_eq_add_of_lt enough
      rw [loop_again again]
      exact value _ (by omega)

theorem loop_returns_iff (size : σ → Nat)
    (progress : ∀ t u, Comes body s t → body t = some (.ok (.again u)) → u = t ∨ size u < size t) :
    (∃ fuel, (loop body fuel s).Returns) ↔
      ∀ t, Comes body s t → (body t).Returns ∧ body t ≠ some (.ok (.again t)) := by
  constructor
  · rintro ⟨fuel, returns⟩ t comes
    refine ⟨body_returns_of_loop returns comes, fun stall => ?_⟩
    obtain ⟨o, ends, _⟩ := returns
    obtain ⟨fuel', rest⟩ := comes.loop ends
    rw [loop_stalls stall] at rest
    cases rest
  · intro passes
    refine ⟨size s + 1, loop_returns_of_lt size (Nat.lt_succ_self _) (fun t h => (passes t h).1) ?_⟩
    intro t u comes pass
    rcases progress t u comes pass with rfl | less
    · exact absurd pass (passes _ comes).2
    · exact less

end

end GoSem
