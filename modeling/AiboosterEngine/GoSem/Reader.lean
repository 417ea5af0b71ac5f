import AiboosterEngine.GoSem.Outcome
import AiboosterEngine.GoSem.Text
import Mathlib.Algebra.Group.Nat.Defs

/-!
# Reading a stream

A function that reads from a stream returns what an `Outcome` says and leaves
the rest of the stream. Loops whose end depends on the stream take fuel;
running out of it is no outcome of the function.
-/

namespace GoSem

open List

/-- What a function returns and what it leaves of the stream; `none` when the fuel ran out. -/
def Reader (ε α : Type) : Type := Bytes → Option (Outcome ε (α × Bytes))

namespace Reader
variable {ε α β : Type}

protected def pure (a : α) : Reader ε α := fun bs => some (.ok (a, bs))

protected def bind (x : Reader ε α) (f : α → Reader ε β) : Reader ε β := fun bs =>
  match x bs with
  | some (.ok (a, rest)) => f a rest
  | some (.err e) => some (.err e)
  | some .panicked => some .panicked
  | none => none

instance : Monad (Reader ε) where
  pure := Reader.pure
  bind := Reader.bind

def fail (e : ε) : Reader ε α := fun _ => some (.err e)

def outOfFuel : Reader ε α := fun _ => none

/-- A step that reads nothing. -/
def lift (x : Outcome ε α) : Reader ε α := fun bs => some (x >>= fun a => .ok (a, bs))

/-- The error of a call as part of another one. -/
def mapErr (f : ε → ε) (x : Reader ε α) : Reader ε α := fun bs =>
  match x bs with
  | some (.err e) => some (.err (f e))
  | other => other

/-- `n` values one after another, the first of them with number `i`. -/
def times (f : Nat → Reader ε α) (i : Nat) : (n : Nat) → Reader ε (List α)
  | 0 => pure []
  | n + 1 => do
    let a ← f i
    let as ← times f (i + 1) n
    return a :: as

theorem bind_ok {x : Reader ε α} (f : α → Reader ε β) {bs rest : Bytes} {a : α}
    (h : x bs = some (.ok (a, rest))) : (x >>= f) bs = f a rest := by
  show Reader.bind x f bs = _
  rw [Reader.bind, h]

theorem bind_err {x : Reader ε α} (f : α → Reader ε β) {bs : Bytes} {e : ε}
    (h : x bs = some (.err e)) : (x >>= f) bs = some (.err e) := by
  show Reader.bind x f bs = _
  rw [Reader.bind, h]

theorem bind_panicked {x : Reader ε α} (f : α → Reader ε β) {bs : Bytes}
    (h : x bs = some .panicked) :
    (x >>= f) bs = some .panicked := by
  show Reader.bind x f bs = _
  rw [Reader.bind, h]

theorem bind_eq_ok {x : Reader ε α} {f : α → Reader ε β} {bs rest : Bytes} {b : β}
    (h : (x >>= f) bs = some (.ok (b, rest))) :
    ∃ a more, x bs = some (.ok (a, more)) ∧ f a more = some (.ok (b, rest)) := by
  change Reader.bind x f bs = _ at h
  unfold Reader.bind at h
  split at h
  · next a more read => exact ⟨a, more, read, h⟩
  all_goals cases h

/-- `Len` of a `bytes.Reader`: how much is left. -/
def remaining : Reader ε Nat := fun bs => some (.ok (bs.length, bs))

/-- `Seek` forward from the current place, which may go past the end. -/
def seek (n : Nat) : Reader ε Unit := fun bs => some (.ok ((), bs.drop n))

end Reader

section
variable {ε α β : Type}

/-- The reader takes exactly the bytes `bs` and returns `a`, whatever follows them. -/
def Reads (x : Reader ε α) (bs : Bytes) (a : α) : Prop :=
  ∀ rest, x (bs ++ rest) = some (.ok (a, rest))

theorem Reads.pure (a : α) : Reads (pure a : Reader ε α) [] a := fun _ => rfl

variable {bs bs' : Bytes} {a : α} {x : Reader ε α} {f : α → Reader ε β}

theorem Reads.bind {b : β} (first : Reads x bs a) (second : Reads (f a) bs' b) :
    Reads (x >>= f) (bs ++ bs') b := by
  intro rest
  show Reader.bind x f (bs ++ bs' ++ rest) = _
  rw [append_assoc, Reader.bind, first]
  exact second rest

theorem Reads.last {b : β} (first : Reads x bs a) (second : Reads (f a) [] b) :
    Reads (x >>= f) bs b := by
  intro rest
  show Reader.bind x f (bs ++ rest) = _
  rw [Reader.bind, first]
  exact second rest

theorem Reads.map {f : α → β} (h : Reads x bs a) :
    Reads (x >>= fun a => Pure.pure (f a)) bs (f a) :=
  h.last (.pure (f a))

theorem Reads.lift {x : Outcome ε α} (h : x = .ok a) : Reads (Reader.lift x) [] a := by
  intro rest
  rw [h]
  rfl

theorem Reads.mapErr (h : Reads x bs a) (f : ε → ε) : Reads (x.mapErr f) bs a := by
  intro rest
  rw [Reader.mapErr, h]

theorem Reads.times_cons {f : Nat → Reader ε α} {i n : Nat} {as : List α}
    (first : Reads (f i) bs a) (more : Reads (Reader.times f (i + 1) n) bs' as) :
    Reads (Reader.times f i (n + 1)) (bs ++ bs') (a :: as) :=
  first.bind more.map

theorem Reads.times {f : Nat → Reader ε β} (write : α → Bytes) (value : α → β) {as : List α}
    (each : ∀ a ∈ as, ∀ i, Reads (f i) (write a) (value a)) (i : Nat) :
    Reads (Reader.times f i as.length) (as.flatMap write) (as.map value) := by
  induction as generalizing i with
  | nil => exact Reads.pure []
  | cons a as ih =>
    have rest := ih (fun b hb => each b (mem_cons_of_mem _ hb)) (i + 1)
    exact (each a mem_cons_self i).times_cons rest

/-- A writer and a reader that undoes it. -/
structure Codec (ε α : Type) where
  write : α → Bytes
  read : Reader ε α
  reads : ∀ a, Reads read (write a) a

end

section
variable {ε α β : Type}

/-- On the stream `bs` the reader comes back, and a value it returns has the property, with
what is left of the stream. -/
def Yields (x : Reader ε α) (bs : Bytes) (post : α → Bytes → Prop) : Prop :=
  ∃ o, x bs = some o ∧ o.Returns ∧ ∀ a rest, o = .ok (a, rest) → post a rest

variable {bs : Bytes} {a : α} {x : Reader ε α}

theorem Yields.returns {post : α → Bytes → Prop} (h : Yields x bs post) :
    Partial.Returns (x bs) := by
  obtain ⟨o, same, returns, _⟩ := h
  exact ⟨o, same, returns⟩

theorem Yields.post {rest : Bytes} {post : α → Bytes → Prop} (h : Yields x bs post)
    (value : x bs = some (.ok (a, rest))) : post a rest := by
  obtain ⟨o, same, _, holds⟩ := h
  rw [same] at value
  exact holds a rest (Option.some.inj value)

variable {post : α → Bytes → Prop}

theorem Yields.value {rest : Bytes} (h : x bs = some (.ok (a, rest))) (holds : post a rest) :
    Yields x bs post := by
  refine ⟨.ok (a, rest), h, trivial, fun a' rest' same => ?_⟩
  cases same
  exact holds

theorem Yields.error {e : ε} (h : x bs = some (.err e)) : Yields x bs post :=
  ⟨.err e, h, trivial, nofun⟩

theorem Yields.pure (h : post a bs) : Yields (pure a : Reader ε α) bs post := .value rfl h

theorem Yields.fail {e : ε} : Yields (Reader.fail e : Reader ε α) bs post := .error rfl

theorem remaining_yields (bs : Bytes) :
    Yields (Reader.remaining : Reader ε Nat) bs fun n rest => n = bs.length ∧ rest = bs :=
  .value rfl ⟨rfl, rfl⟩

theorem Yields.bind {f : α → Reader ε β} {post' : β → Bytes → Prop}
    (first : Yields x bs post) (second : ∀ a rest, post a rest → Yields (f a) rest post') :
    Yields (x >>= f) bs post' := by
  obtain ⟨o, same, returns, holds⟩ := first
  match o, returns with
  | .ok (a, rest), _ =>
    obtain ⟨o', same', more⟩ := second a rest (holds a rest rfl)
    exact ⟨o', (Reader.bind_ok f same).trans same', more⟩
  | .err e, _ => exact .error (Reader.bind_err f same)

theorem Yields.ite {c : Prop} [Decidable c] {y : Reader ε α}
    (yes : c → Yields x bs post) (no : ¬ c → Yields y bs post) :
    Yields (if c then x else y) bs post := by
  split
  · rename_i h
    exact yes h
  · rename_i h
    exact no h

end

def writeAll {ε : Type} : List (Outcome ε Bytes) → Outcome ε Bytes
  | [] => .ok []
  | x :: xs => do
    let bs ← x
    let more ← writeAll xs
    return bs ++ more

variable {ε : Type}

theorem writeAll_cons {x : Outcome ε Bytes} {xs : List (Outcome ε Bytes)} {bs : Bytes}
    (h : writeAll (x :: xs) = .ok bs) :
    ∃ first more, x = .ok first ∧ writeAll xs = .ok more ∧ bs = first ++ more := by
  obtain ⟨first, hx, h⟩ := Outcome.bind_eq_ok h
  obtain ⟨more, hxs, h⟩ := Outcome.bind_eq_ok h
  cases h
  exact ⟨first, more, hx, hxs, rfl⟩

theorem writeAll_mem {xs : List (Outcome ε Bytes)} {bs : Bytes} (h : writeAll xs = .ok bs)
    {x : Outcome ε Bytes} (mem : x ∈ xs) : ∃ written, x = .ok written := by
  induction xs generalizing bs with
  | nil => cases mem
  | cons y ys ih => grind [writeAll_cons, mem_cons.mp]

/-- `make([]T, n)` for elements of `size` bytes on a 64-bit system. -/
def makeSlice {ε : Type} (size n : Nat) : Outcome ε Unit :=
  if size * n ≤ 2 ^ 48 then .ok () else .panicked

theorem makeSlice_ok {size n : Nat} (h : size * n ≤ 2 ^ 48) :
    (makeSlice size n : Outcome ε Unit) = .ok () := if_pos h

end GoSem
