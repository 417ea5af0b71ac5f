import AiboosterEngine.GoSem.Binary

/-!
# Formats

What bytes mean, apart from the code that reads them: a format gives the value
that bytes begin with and the bytes behind it.
-/

namespace GoSem

abbrev Format (α : Type) : Type := StateT Bytes Option α

namespace Format
variable {α β : Type}

def byte : Format UInt8
  | [] => none
  | b :: bs => some (b, bs)

/-- `n` bytes are passed by, or all of them when there are fewer. -/
def advance (n : Nat) : Format Unit := fun bs => some ((), bs.drop n)

def times (p : Format α) : Nat → Format (List α)
  | 0 => pure []
  | n + 1 => do
    let a ← p
    let as ← times p n
    return a :: as

variable {p : Format α} {q : α → Format β} {post : α → Prop}

theorem bind_some {bs : Bytes} {b : β} {rest : Bytes} (h : (p >>= q) bs = some (b, rest)) :
    ∃ a more, p bs = some (a, more) ∧ q a more = some (b, rest) := by
  obtain ⟨⟨a, more⟩, first, second⟩ := Option.bind_eq_some_iff.mp h
  exact ⟨a, more, first, second⟩

theorem times_zero_bind (p : Format α) (q : List α → Format β) : (times p 0 >>= q) = q [] := by
  simp only [times, pure_bind]

theorem times_bind (p : Format α) (n : Nat) (q : List α → Format β) :
    (times p (n + 1) >>= q) = p >>= fun a => times p n >>= fun as => q (a :: as) := by
  simp only [times, bind_assoc, pure_bind]

theorem advance_zero_bind (q : Unit → Format β) : (advance 0 >>= q) = q () := rfl

/-- Every value of the format has the property. -/
def Values (p : Format α) (post : α → Prop) : Prop := ∀ bs a rest, p bs = some (a, rest) → post a

theorem Values.pure {a : α} (h : post a) : Values (pure a : Format α) post := by
  intro bs a' rest same
  cases same
  exact h

theorem Values.fail : Values (failure : Format α) post := nofun

theorem Values.bind {post : β → Prop} (second : ∀ a, Values (q a) post) :
    Values (p >>= q) post := by
  intro bs b rest h
  obtain ⟨a, more, _, left⟩ := bind_some h
  exact second a more b rest left

theorem Values.ite {c : Prop} [Decidable c] {q : Format α} (yes : c → Values p post)
    (no : ¬ c → Values q post) : Values (if c then p else q) post := by
  split
  · rename_i h
    exact yes h
  · rename_i h
    exact no h

/-- The bytes behind the value are an end of the bytes. -/
def Forward (p : Format α) : Prop := ∀ bs a rest, p bs = some (a, rest) → rest <:+ bs

theorem Forward.pure (a : α) : Forward (pure a : Format α) := by
  intro bs a' rest h
  cases h
  exact List.suffix_refl bs

theorem Forward.fail : Forward (failure : Format α) := nofun

theorem Forward.bind (first : Forward p) (second : ∀ a, Forward (q a)) : Forward (p >>= q) := by
  intro bs b rest h
  obtain ⟨a, more, taken, left⟩ := bind_some h
  exact (second a more b rest left).trans (first bs a more taken)

theorem Forward.ite {c : Prop} [Decidable c] {q : Format α} (yes : Forward p) (no : Forward q) :
    Forward (if c then p else q) := by
  split
  · exact yes
  · exact no

theorem byte_forward : Forward byte := by
  intro bs b rest h
  cases bs with
  | nil => cases h
  | cons b' bs =>
    cases h
    exact List.suffix_cons _ _

theorem Forward.times (h : Forward p) (n : Nat) : Forward (times p n) := by
  induction n with
  | zero => exact .pure []
  | succ n ih => exact .bind h fun a => .bind ih fun as => .pure (a :: as)

end Format

section
variable {ε α α' β β' : Type}

/-- The reader follows the format: it returns `g` of the value, or an error where there is none. -/
def Parses (x : Reader ε β) (p : Format α) (g : α → β) : Prop :=
  ∀ bs, (∃ a rest, p bs = some (a, rest) ∧ x bs = some (.ok (g a, rest))) ∨
    (p bs = none ∧ ∃ e, x bs = some (.err e))

variable {g : α → β} {p : Format α}

theorem Parses.pure {a : α} {b : β} (h : b = g a) : Parses (pure b : Reader ε β) (pure a) g := by
  intro bs
  exact .inl ⟨a, bs, rfl, by rw [h]; rfl⟩

theorem Parses.fail (g : α → β) (e : ε) : Parses (Reader.fail e : Reader ε β) failure g :=
  fun _ => .inr ⟨rfl, e, rfl⟩

theorem Parses.bind {x : Reader ε α} {f : α → Reader ε β'} {q : α → Format α'} {g : α' → β'}
    (first : Parses x p id) (second : ∀ a, Parses (f a) (q a) g) :
    Parses (x >>= f) (p >>= q) g := by
  intro bs
  rcases first bs with ⟨a, rest, value, read⟩ | ⟨none, e, read⟩
  · have run : (p >>= q) bs = q a rest := by
      show (p bs).bind _ = _
      rw [value]
      rfl
    rw [run, Reader.bind_ok f read]
    exact second a rest
  · refine .inr ⟨?_, e, Reader.bind_err f read⟩
    show (p bs).bind _ = _
    rw [none]
    rfl

theorem Parses.times {x : Reader ε α} (h : Parses x p id) (i n : Nat) :
    Parses (Reader.times (fun _ => x) i n) (Format.times p n) id := by
  induction n generalizing i with
  | zero => exact .pure rfl
  | succ n ih => exact .bind h fun a => .bind (ih (i + 1)) fun as => .pure rfl

theorem Parses.value {x : Reader ε β} (h : Parses x p g) {bs rest : Bytes} {a : α}
    (value : p bs = some (a, rest)) : x bs = some (.ok (g a, rest)) := by
  rcases h bs with ⟨a', rest', same, read⟩ | ⟨none, _⟩
  · rw [value] at same
    cases same
    exact read
  · rw [value] at none
    cases none

theorem Parses.error {x : Reader ε β} (h : Parses x p g) {bs : Bytes} (none : p bs = none) :
    ∃ e, x bs = some (.err e) := by
  rcases h bs with ⟨a, rest, value, _⟩ | ⟨_, read⟩
  · rw [none] at value
    cases value
  · exact read

end

theorem readByte_parses : Parses readByte Format.byte id := by
  intro bs
  cases bs with
  | nil => exact .inr ⟨rfl, _, rfl⟩
  | cons b bs => exact .inl ⟨b, bs, rfl, rfl⟩

theorem seek_parses {ε : Type} (n : Nat) :
    Parses (Reader.seek n : Reader ε Unit) (Format.advance n) id :=
  fun bs => .inl ⟨(), bs.drop n, rfl, rfl⟩

end GoSem
