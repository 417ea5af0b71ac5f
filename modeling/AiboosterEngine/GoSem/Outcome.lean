/-!
# How a Go call ends

A call that comes back gives a value or an error; a call that does not come
back with either has panicked. Fuel and blocking are no part of this type:
a loop that may run for ever says so in its own result (`Partial`).
-/

namespace GoSem

inductive Outcome (ε α : Type) where
  | ok (a : α)
  | err (e : ε)
  | panicked
  deriving DecidableEq, Repr

namespace Outcome

variable {ε α β γ : Type}

def bind (x : Outcome ε α) (f : α → Outcome ε β) : Outcome ε β :=
  match x with
  | ok a => f a
  | err e => err e
  | panicked => panicked

instance : Monad (Outcome ε) where
  pure := ok
  bind := bind

@[simp] theorem pure_eq (a : α) : (pure a : Outcome ε α) = ok a := rfl

@[simp] theorem ok_bind (a : α) (f : α → Outcome ε β) : (ok a >>= f) = f a := rfl

@[simp] theorem err_bind (e : ε) (f : α → Outcome ε β) : (err e >>= f) = err e := rfl

@[simp] theorem panicked_bind (f : α → Outcome ε β) : (panicked >>= f) = panicked := rfl

/-- The call came back, with a value or with an error. -/
def Returns : Outcome ε α → Prop
  | ok _ | err _ => True
  | panicked => False

instance (x : Outcome ε α) : Decidable x.Returns :=
  match x with
  | ok _ => .isTrue trivial
  | err _ => .isTrue trivial
  | panicked => .isFalse id

@[simp] theorem ok_returns (a : α) : (ok a : Outcome ε α).Returns := trivial

@[simp] theorem err_returns (e : ε) : (err e : Outcome ε α).Returns := trivial

@[simp] theorem panicked_not_returns : ¬ (panicked : Outcome ε α).Returns := id

/-- A sequence of two calls comes back exactly when the first one does and the
second one does from every value the first can give it. -/
theorem bind_returns (x : Outcome ε α) (f : α → Outcome ε β) :
    (x >>= f).Returns ↔ x.Returns ∧ ∀ a, x = ok a → (f a).Returns := by
  cases x with
  | ok a => simp
  | err e => simp
  | panicked => simp

/-- The error of a call as part of another one. -/
def mapErr (f : ε → ε) : Outcome ε α → Outcome ε α
  | err e => err (f e)
  | other => other

variable {x : Outcome ε α} {a : α} {f : α → Outcome ε β} {post : α → Prop}

theorem mapErr_eq_ok {f : ε → ε} (h : x.mapErr f = ok a) : x = ok a := by
  cases x with
  | ok _ => exact h
  | err _ => cases h
  | panicked => cases h

def withErr {ε' : Type} (f : ε → ε') : Outcome ε α → Outcome ε' α
  | ok a => ok a
  | err e => err (f e)
  | panicked => panicked

theorem bind_eq_ok {b : β} (h : (x >>= f) = ok b) : ∃ a, x = ok a ∧ f a = ok b := by
  cases x with
  | ok a => exact ⟨a, rfl, h⟩
  | err e => cases h
  | panicked => cases h

/-- The call comes back with a value that has the property. -/
def Gives (x : Outcome ε α) (post : α → Prop) : Prop := ∃ a, x = ok a ∧ post a

theorem Gives.ok (h : post a) : (ok a : Outcome ε α).Gives post :=
  ⟨a, rfl, h⟩

theorem Gives.bind {post : β → Prop} (h : x = Outcome.ok a) (h' : (f a).Gives post) :
    (x >>= f).Gives post := by
  rw [h]
  exact h'

theorem Gives.ite {c : Prop} [Decidable c] {y : Outcome ε α} (yes : c → x.Gives post)
    (no : ¬ c → y.Gives post) : (if c then x else y).Gives post := by
  split
  · rename_i h
    exact yes h
  · rename_i h
    exact no h

/-- The call comes back, and a value it gives has the property. -/
def Yields (x : Outcome ε α) (post : α → Prop) : Prop := x.Returns ∧ ∀ a, x = ok a → post a

theorem Yields.ok (h : post a) : (ok a : Outcome ε α).Yields post := by
  refine ⟨trivial, fun a' same => ?_⟩
  cases same
  exact h

theorem Yields.err {e : ε} : (err e : Outcome ε α).Yields post := ⟨trivial, nofun⟩

theorem Yields.bind {post : β → Prop} (h : x = Outcome.ok a) (h' : (f a).Yields post) :
    (x >>= f).Yields post := by
  rw [h]
  exact h'

theorem Yields.bindGives {post' : β → Prop} (h : x.Gives post)
    (h' : ∀ a, post a → (f a).Yields post') :
    (x >>= f).Yields post' := by
  obtain ⟨a, h, holds⟩ := h
  exact .bind h (h' a holds)

theorem Yields.bindAny {post : β → Prop} (h : ∃ a, x = Outcome.ok a) (h' : ∀ a, (f a).Yields post) :
    (x >>= f).Yields post := by
  obtain ⟨a, h⟩ := h
  exact .bind h (h' a)

theorem Yields.ite {c : Prop} [Decidable c] {y : Outcome ε α} (yes : c → x.Yields post)
    (no : ¬ c → y.Yields post) : (if c then x else y).Yields post := by
  split
  · rename_i h
    exact yes h
  · rename_i h
    exact no h

end Outcome

/-- A call that may not come back at all: `none` when it has not with the fuel it was given. -/
abbrev Partial (ε α : Type) : Type := Option (Outcome ε α)

namespace Partial

variable {ε α β : Type}

protected def bind (x : Partial ε α) (f : α → Partial ε β) : Partial ε β :=
  match x with
  | some (.ok a) => f a
  | some (.err e) => some (.err e)
  | some .panicked => some .panicked
  | none => none

instance : Monad (Partial ε) where
  pure a := some (.ok a)
  bind := Partial.bind

def lift (x : Outcome ε α) : Partial ε α := some x

@[simp] theorem pure_eq (a : α) : (pure a : Partial ε α) = some (.ok a) := rfl

@[simp] theorem lift_ok_bind (a : α) (f : α → Partial ε β) : (lift (.ok a) >>= f) = f a := rfl

theorem bind_eq_ok {x : Partial ε α} {f : α → Partial ε β} {b : β}
    (h : (x >>= f) = some (.ok b)) : ∃ a, x = some (.ok a) ∧ f a = some (.ok b) := by
  match x, h with
  | some (.ok a), h => exact ⟨a, rfl, h⟩

/-- The call came back, with a value or with an error. -/
def Returns (x : Partial ε α) : Prop := ∃ o, x = some o ∧ o.Returns

theorem some_returns {o : Outcome ε α} : Returns (some o) ↔ o.Returns := by
  constructor
  · rintro ⟨o', same, returns⟩
    cases same
    exact returns
  · exact fun returns => ⟨o, rfl, returns⟩

theorem none_not_returns : ¬ Returns (none : Partial ε α) := by
  rintro ⟨_, same, _⟩
  cases same

theorem bind_returns (x : Partial ε α) (f : α → Partial ε β) :
    Returns (x >>= f) ↔ Returns x ∧ ∀ a, x = some (.ok a) → Returns (f a) := by
  match x with
  | none => exact ⟨fun h => absurd h none_not_returns, fun h => absurd h.1 none_not_returns⟩
  | some (.ok a) =>
    refine ⟨fun h => ⟨⟨_, rfl, trivial⟩, ?_⟩, fun h => h.2 a rfl⟩
    intro a' same
    cases same
    exact h
  | some (.err e) => exact ⟨fun _ => ⟨⟨_, rfl, trivial⟩, nofun⟩, fun _ => ⟨_, rfl, trivial⟩⟩
  | some .panicked => exact ⟨fun h => (some_returns.mp h).elim, fun h => (some_returns.mp h.1).elim⟩

theorem lift_bind_returns (x : Outcome ε α) (f : α → Partial ε β) :
    Returns (lift x >>= f) ↔ x.Returns ∧ ∀ a, x = .ok a → Returns (f a) := by
  rw [bind_returns, lift, some_returns]
  simp only [Option.some.injEq]

/-- The call as part of one with other errors. -/
def withErr {ε' : Type} (f : ε → ε') : Partial ε α → Partial ε' α
  | some (.ok a) => some (.ok a)
  | some (.err e) => some (.err (f e))
  | some .panicked => some .panicked
  | none => none

theorem withErr_returns {ε' : Type} (f : ε → ε') (x : Partial ε α) :
    Returns (withErr f x) ↔ Returns x := by
  match x with
  | none => exact ⟨fun h => absurd h none_not_returns, fun h => absurd h none_not_returns⟩
  | some (.ok a) => exact ⟨fun _ => ⟨_, rfl, trivial⟩, fun _ => ⟨_, rfl, trivial⟩⟩
  | some (.err e) => exact ⟨fun _ => ⟨_, rfl, trivial⟩, fun _ => ⟨_, rfl, trivial⟩⟩
  | some .panicked => exact ⟨fun h => (some_returns.mp h).elim, fun h => (some_returns.mp h).elim⟩

theorem withErr_eq_ok {ε' : Type} {f : ε → ε'} {x : Partial ε α} {a : α} :
    withErr f x = some (.ok a) ↔ x = some (.ok a) := by
  match x with
  | none => exact ⟨nofun, nofun⟩
  | some (.ok b) => exact ⟨fun h => by cases h; rfl, fun h => by cases h; rfl⟩
  | some (.err e) => exact ⟨nofun, nofun⟩
  | some .panicked => exact ⟨nofun, nofun⟩

end Partial

end GoSem
