import AiboosterEngine.GoSem.Bufio
import Mathlib.Algebra.Group.Int.Defs

/-!
# Frames of a gRPC-lite connection

`transport/v2raygrpclite/conn.go`: a frame is a header of six bytes, the length of
the payload as a varint, and the payload. `int` has 64 bits. The connection has
its reader: waiting for `setup` is left out.
-/

namespace AiboosterEngine.GrpcLite

open GoSem List Bufio

structure GunConn where
  reader : Bufio
  readRemaining : Int := 0

/-- `int(n)` of a `uint64`. -/
def toInt (n : Nat) : Int := if n < 2 ^ 63 then n else (n : Int) - 2 ^ 64

/-- The length of `b` after `if len(b) > limit { b = b[:limit] }`; `none` where the slice panics. -/
def cut (len : Nat) (limit : Int) : Option Nat :=
  if limit < len then if limit < 0 then none else some limit.toNat else some len

namespace GunConn

section
variable (last : String)

/-- `read` inside a frame. -/
def readPart (c : GunConn) (len : Nat) : Outcome String Bytes × GunConn :=
  match cut len c.readRemaining with
  | none => (.panicked, c)
  | some n =>
    match c.reader.read last n with
    | (.ok bs, reader) => (.ok bs, ⟨reader, c.readRemaining - bs.length⟩)
    | (.err e, reader) => (.err e, ⟨reader, c.readRemaining⟩)
    | (.panicked, reader) => (.panicked, ⟨reader, c.readRemaining⟩)

/-- `read` behind the first six bytes of a frame. -/
def readLength (c : GunConn) (len : Nat) : Outcome String Bytes × GunConn :=
  match c.reader.readUvarint last with
  | (.ok dataLen, reader) => readPart last ⟨reader, toInt dataLen⟩ len
  | (.err e, reader) => (.err e, ⟨reader, c.readRemaining⟩)
  | (.panicked, reader) => (.panicked, ⟨reader, c.readRemaining⟩)

/-- `Read` into `len` bytes: the bytes read, without those that go beyond them. -/
def read (c : GunConn) (len : Nat) : Outcome String Bytes × GunConn :=
  if 0 < c.readRemaining then readPart last c len
  else match c.reader.discard last 6 with
    | (.ok _, reader) => readLength last ⟨reader, c.readRemaining⟩ len
    | (.err e, reader) => (.err e, ⟨reader, c.readRemaining⟩)
    | (.panicked, reader) => (.panicked, ⟨reader, c.readRemaining⟩)

end

end GunConn

/-- A slice of bytes, whose length is an `int`. -/
def Payload : Type := { b : Bytes // b.length < 2 ^ 63 }

/-- The first bytes of a frame; the length in it is a `uint32` and counts the ones after it. -/
def frameHeader (dataLen : Nat) : Bytes :=
  let varLen := (uvarint dataLen).length
  [0x00] ++ bigEndian 4 (1 + varLen + dataLen) ++ [0x0A] ++ uvarint dataLen

/-- What `Write` writes. -/
def write (b : Payload) : Bytes := frameHeader b.1.length ++ b.1

/-- What `WriteBuffer` writes: it puts the header in front of the bytes of the buffer. -/
def writeBuffer (buffer : Payload) : Bytes := frameHeader buffer.1.length ++ buffer.1

/-- The length of the frame at the beginning of the bytes, and what comes after it. -/
def header (bs : Bytes) : Option (Nat × Bytes) :=
  if bs.length < 6 then none
  else match readUvarint (bs.drop 6) with
    | some (.ok found) => some found
    | _ => none

section
variable {last : String} {c c' : GunConn} {len r : Nat}

theorem cut_nat (len r : Nat) : cut len r = some (min len r) := by
  unfold cut
  split
  · rw [if_neg (by omega)]
    congr 1
    omega
  · congr 1
    omega

/-- What a `Read` does with `r` bytes of the frame to come and the content `bs`: it takes some of
both, or comes to the end of the stream. -/
inductive Took (last : String) (len r : Nat) (bs : Bytes) : Outcome String Bytes → GunConn → Prop
  | bytes {out : Bytes} {c' : GunConn} (taken : bs = out ++ c'.reader.content)
      (fits : out.length ≤ len)
      (inside : out.length ≤ r) (remaining : c'.readRemaining = (r - out.length : Nat)) :
      Took last len r bs (.ok out) c'
  | ended {c' : GunConn} (none : bs = []) (none' : c'.reader.content = []) (pos : 0 < len)
      (left : 0 < r) (remaining : c'.readRemaining = r) : Took last len r bs (.err last) c'

theorem Took.length_le {bs : Bytes} {result : Outcome String Bytes}
    (h : Took last len r bs result c') :
    c'.reader.content.length ≤ bs.length := by
  cases h with
  | bytes taken => rw [taken, length_append]; exact Nat.le_add_left _ _
  | ended none none' => simp [none, none']

theorem readPart_cases (lively : Lively c.reader.chunks)
    (remaining : c.readRemaining = r) (len : Nat) :
    ∃ result c', c.readPart last len = (result, c') ∧ Took last len r c.reader.content result c' ∧
      Next c.reader c'.reader ∧
      (0 < len → 0 < r → ∀ out, result = .ok out → c'.reader.weight < c.reader.weight) := by
  unfold GunConn.readPart
  rw [remaining, cut_nat]
  dsimp only
  obtain ⟨b, next, ⟨out, eq, taken, fits, less⟩ | ⟨pos, none, none', eq⟩⟩ :=
    read_cases last (min len r) lively
  · rw [eq]
    refine ⟨_, _, rfl, .bytes taken (by omega) (by omega) ?_, next, ?_⟩
    · dsimp only
      omega
    · intro someLen someLeft _ _
      exact less (by omega)
  · rw [eq]
    refine ⟨_, _, rfl, .ended none none' (by omega) (by omega) rfl, next, ?_⟩
    intro _ _ out other
    cases other

theorem header_eq {bs rest : Bytes} {n : Nat} (enough : 6 ≤ bs.length)
    (found : readUvarint (bs.drop 6) = some (.ok (n, rest))) : header bs = some (n, rest) := by
  rw [header, if_neg (by omega), found]

theorem header_none {bs : Bytes} {e : String} (h : readUvarint (bs.drop 6) = some (.err e)) :
    header bs = none := by
  unfold header
  split
  · rfl
  · rw [h]

theorem toInt_small {n : Nat} (h : n < 2 ^ 63) : toInt n = n := if_pos h

theorem cut_panics {n : Nat} (len : Nat) (large : 2 ^ 63 ≤ n) (below : n < 2 ^ 64) :
    cut len (toInt n) = none := by
  have negative : toInt n = (n : Int) - 2 ^ 64 := if_neg (by omega)
  rw [negative, cut, if_pos (by omega), if_pos (by omega)]

/-- One `Read`, by the bytes that are left of the frame and the content. -/
inductive Step (last : String) (len : Nat) (c : GunConn) : (r : Nat) → (bs : Bytes) →
    Outcome String Bytes → GunConn → Prop
  | inside {r : Nat} {bs : Bytes} {result : Outcome String Bytes} {c' : GunConn} (left : 0 < r)
      (took : Took last len r bs result c')
      (less : 0 < len → ∀ out, result = .ok out → c'.reader.weight < c.reader.weight) :
      Step last len c r bs result c'
  | frame {n : Nat} {bs rest : Bytes} {result : Outcome String Bytes} {c' : GunConn}
      (found : header bs = some (n, rest)) (small : n < 2 ^ 63)
      (took : Took last len n rest result c')
      (less : c'.reader.weight < c.reader.weight) : Step last len c 0 bs result c'
  | large {n : Nat} {bs rest : Bytes} {c' : GunConn} (found : header bs = some (n, rest))
      (large : 2 ^ 63 ≤ n) : Step last len c 0 bs .panicked c'
  | bad {bs : Bytes} {e : String} {c' : GunConn} (none : header bs = none)
      (rest : c'.reader.content = bs.drop 16) (remaining : c'.readRemaining = 0) :
      Step last len c 0 bs (.err e) c'

section
variable {result : Outcome String Bytes} {bs rest : Bytes} {n : Nat}

theorem Step.of_inside (step : Step last len c r bs result c') (left : 0 < r) :
    Took last len r bs result c' ∧
      (0 < len → ∀ out, result = .ok out → c'.reader.weight < c.reader.weight) := by
  cases step with
  | inside _ took less => exact ⟨took, less⟩
  | frame => omega
  | large => omega
  | bad => omega

section
variable (step : Step last len c 0 bs result c')
include step

theorem Step.of_small (found : header bs = some (n, rest)) (small : n < 2 ^ 63) :
    Took last len n rest result c' ∧ c'.reader.weight < c.reader.weight := by
  cases step with
  | inside left => omega
  | frame found' _ took less =>
    cases found.symm.trans found'
    exact ⟨took, less⟩
  | large found' large =>
    cases found.symm.trans found'
    omega
  | bad none => cases found.symm.trans none

theorem Step.of_large (found : header bs = some (n, rest)) (large : 2 ^ 63 ≤ n) :
    result = .panicked := by
  cases step with
  | inside left => omega
  | frame found' small =>
    cases found.symm.trans found'
    omega
  | large => rfl
  | bad none => cases found.symm.trans none

theorem Step.of_bad (none : header bs = none) :
    (∃ e, result = .err e) ∧ c'.reader.content = bs.drop 16 ∧ c'.readRemaining = 0 := by
  cases step with
  | inside left => omega
  | frame found | large found => cases none.symm.trans found
  | bad _ rest remaining => exact ⟨⟨_, rfl⟩, rest, remaining⟩

end

end

theorem weight_le {b b' : Bufio} (next : Next b b') (h : b'.content.length ≤ b.content.length) :
    b'.weight ≤ b.weight :=
  Nat.add_le_add h next.chunks

theorem read_cases (lively : Lively c.reader.chunks) (remaining : c.readRemaining = r) (len : Nat) :
    ∃ result c', c.read last len = (result, c') ∧ Step last len c r c.reader.content result c' ∧
      (result ≠ .panicked → Lively c'.reader.chunks) := by
  unfold GunConn.read
  rw [remaining]
  by_cases left : 0 < r
  · rw [if_pos (by omega)]
    obtain ⟨result, c', eq, took, next, less⟩ := readPart_cases lively remaining len
    exact ⟨result, c', eq, .inside left took fun some => less some left, fun _ => next.lively⟩
  · have none : r = 0 := by omega
    subst none
    rw [if_neg (by omega)]
    obtain ⟨b₁, next₁, content₁, ⟨enough, eq₁⟩ | ⟨short, eq₁⟩⟩ :=
      discardLoop_cases last lively (by decide : 0 < 6) .refl
    · rw [Bufio.discard, eq₁]
      dsimp only [GunConn.readLength]
      obtain ⟨b₂, next₂, ⟨n, found, eq₂⟩ | ⟨⟨e, found⟩, content₂, e', eq₂⟩⟩ :=
        readUvarintLoop_cases last 10 0 0 next₁.lively
      · rw [Bufio.readUvarint, eq₂]
        dsimp only
        rw [content₁] at found
        obtain ⟨below, shorter⟩ := readUvarint_lt found
        have head := header_eq enough found
        by_cases small : n < 2 ^ 63
        · obtain ⟨result, c', eq, took, next, _⟩ :=
            readPart_cases (c := ⟨b₂, toInt n⟩) next₂.lively (toInt_small small) len
          refine ⟨result, c', eq, .frame head small took ?_, fun _ => next.lively⟩
          have first : c'.reader.weight ≤ b₂.weight := weight_le next took.length_le
          have second : b₂.weight < c.reader.weight := by
            have pieces := (next₁.trans next₂).chunks
            rw [length_drop] at shorter
            simp only [weight]
            omega
          exact Nat.lt_of_le_of_lt first second
        · refine ⟨_, _, by rw [GunConn.readPart, cut_panics len (by omega) below],
            .large head (by omega), ?_⟩
          exact fun returned => absurd rfl returned
      · rw [Bufio.readUvarint, eq₂]
        rw [content₁] at found content₂
        refine ⟨_, _, rfl, .bad (header_none found) ?_ rfl, fun _ => next₂.lively⟩
        rw [content₂, drop_drop]
    · rw [Bufio.discard, eq₁]
      refine ⟨_, _, rfl, .bad (if_pos short) ?_ rfl, fun _ => next₁.lively⟩
      rw [content₁, drop_of_length_le (by omega), drop_of_length_le (by omega)]

end

/-- A `Read` of a run: the length of its buffer, what it returned, and `readRemaining` after it. -/
structure Result where
  len : Nat
  outcome : Outcome String Bytes
  remaining : Int

/-- `Read`s one after another, until one panics. -/
def reads (last : String) : GunConn → List Nat → List Result
  | _, [] => []
  | c, len :: lens =>
    match c.read last len with
    | (.panicked, c') => [⟨len, .panicked, c'.readRemaining⟩]
    | (.ok out, c') => ⟨len, .ok out, c'.readRemaining⟩ :: reads last c' lens
    | (.err e, c') => ⟨len, .err e, c'.readRemaining⟩ :: reads last c' lens

/-- The `Read` returned, with at most as many bytes as its buffer has. -/
def Result.Sound (result : Result) : Prop :=
  (∃ out, result.outcome = .ok out ∧ out.length ≤ result.len ∧ 0 ≤ result.remaining) ∨
    ∃ e, result.outcome = .err e ∧ 0 ≤ result.remaining

/-- The lengths that reading comes to with `r` bytes left of a frame. A length that is no varint
takes ten bytes, or all there are. -/
inductive Meets : (r : Nat) → (bs : Bytes) → (n : Nat) → Prop
  | here {bs rest : Bytes} {n : Nat} (found : header bs = some (n, rest)) : Meets 0 bs n
  | next {bs rest : Bytes} {m n : Nat} (found : header bs = some (m, rest)) (small : m < 2 ^ 63)
      (later : Meets m rest n) : Meets 0 bs n
  | bad {bs : Bytes} {n : Nat} (none : header bs = none) (some : bs ≠ [])
      (later : Meets 0 (bs.drop 16) n) : Meets 0 bs n
  | skip {r : Nat} {bs : Bytes} {n : Nat} (left : 0 < r) (enough : r ≤ bs.length)
      (later : Meets 0 (bs.drop r) n) : Meets r bs n

section
variable {last : String} {c c' : GunConn} {len r n : Nat} {bs : Bytes}
  {result : Outcome String Bytes}

theorem reads_cons (eq : c.read last len = (result, c')) (returned : result ≠ .panicked)
    (lens : List Nat) :
    reads last c (len :: lens) = ⟨len, result, c'.readRemaining⟩ :: reads last c' lens := by
  rw [reads, eq]
  cases result with
  | ok out => rfl
  | err e => rfl
  | panicked => exact absurd rfl returned

theorem Meets.behind (met : Meets r bs n) (left : 0 < r) :
    r ≤ bs.length ∧ Meets 0 (bs.drop r) n := by
  cases met with
  | here => omega
  | next => omega
  | bad => omega
  | skip _ enough later => exact ⟨enough, later⟩

theorem Took.sound (took : Took last len r bs result c') :
    (⟨len, result, c'.readRemaining⟩ : Result).Sound := by
  cases took with
  | bytes _ fits _ remaining => exact .inl ⟨_, rfl, fits, by simp [remaining]⟩
  | ended _ _ _ _ remaining => exact .inr ⟨_, rfl, by simp [remaining]⟩

theorem Took.meets (took : Took last len r bs result c') :
    result ≠ .panicked ∧
      ∃ r' : Nat, c'.readRemaining = r' ∧ ∀ n, Meets r' c'.reader.content n → Meets r bs n := by
  cases took with
  | @bytes out _ taken fits inside remaining =>
    refine ⟨by simp, _, remaining, fun n met => ?_⟩
    have whole : bs.length = out.length + c'.reader.content.length := by rw [taken, length_append]
    have dropped : bs.drop out.length = c'.reader.content := by rw [taken, drop_left]
    by_cases all : out.length = r
    · rw [all, Nat.sub_self] at met
      rw [all] at dropped
      by_cases left : 0 < r
      · exact .skip left (by omega) (by rwa [dropped])
      · have none : r = 0 := by omega
        subst none
        rw [← dropped] at met
        exact met
    · obtain ⟨enough, later⟩ := met.behind (by omega)
      refine .skip (by omega) (by omega) ?_
      rw [← dropped, drop_drop, Nat.add_sub_cancel' inside] at later
      exact later
  | ended none none' pos left remaining => grind

/-- A `Read` that returns leaves lengths that were to come before; one that panics has come to
a length of 2^63 or more. -/
theorem Step.meets (step : Step last len c r bs result c') :
    (result = .panicked ∧ ∃ n, 2 ^ 63 ≤ n ∧ Meets r bs n) ∨
      (result ≠ .panicked ∧
        ∃ r' : Nat, c'.readRemaining = r' ∧ ∀ n, Meets r' c'.reader.content n → Meets r bs n) := by
  cases step with
  | inside left took _ => exact .inr took.meets
  | frame found small took _ =>
    obtain ⟨returned, r', remaining, later⟩ := took.meets
    exact .inr ⟨returned, r', remaining, fun n met => .next found small (later n met)⟩
  | large found large => exact .inl ⟨rfl, _, large, .here found⟩
  | bad none rest remaining =>
    refine .inr ⟨by simp, 0, remaining, fun n met => ?_⟩
    rw [rest] at met
    by_cases empty : bs = []
    · rw [empty, drop_nil] at met
      rw [empty]
      exact met
    · exact .bad none empty met

theorem Step.sound (step : Step last len c r bs result c') (returned : result ≠ .panicked) :
    (⟨len, result, c'.readRemaining⟩ : Result).Sound := by
  cases step with
  | inside _ took _ | frame _ _ took _ => exact took.sound
  | large => exact absurd rfl returned
  | bad _ _ remaining => exact .inr ⟨_, rfl, by simp [remaining]⟩

/-- If no length of 2^63 or more is to come, every `Read` of a run is sound. -/
theorem reads_sound (lively : Lively c.reader.chunks) (remaining : c.readRemaining = r)
    (small : ∀ n, Meets r c.reader.content n → n < 2 ^ 63) (lens : List Nat) :
    ∀ result ∈ reads last c lens, result.Sound := by
  induction lens generalizing c r with
  | nil => exact fun _ member => nomatch member
  | cons len lens ih =>
    obtain ⟨result, c', eq, step, alive⟩ := read_cases lively remaining len
    obtain ⟨_, n, large, met⟩ | ⟨returned, r', remaining', later⟩ := step.meets
    · exact absurd (small n met) (by omega)
    · rw [reads_cons eq returned]
      have rest := ih (alive returned) remaining' fun n met => small n (later n met)
      exact forall_mem_cons.mpr ⟨step.sound returned, rest⟩

/-- Some run of `Read`s panics. -/
def Panics (last : String) (c : GunConn) : Prop :=
  ∃ lens, ∃ result ∈ reads last c lens, result.outcome = .panicked

theorem Panics.of_read (eq : c.read last len = (result, c')) (returned : result ≠ .panicked)
    (later : Panics last c') : Panics last c := by
  obtain ⟨lens, panicked, member, same⟩ := later
  refine ⟨len :: lens, panicked, ?_, same⟩
  rw [reads_cons eq returned]
  exact mem_cons_of_mem _ member

theorem Panics.now (eq : c.read last len = (.panicked, c')) : Panics last c := by
  refine ⟨[len], ⟨len, .panicked, c'.readRemaining⟩, ?_, rfl⟩
  rw [reads, eq]
  exact mem_cons_self

/-- The rest of a frame can be read, whatever the pieces are. -/
theorem Panics.skip {w : Nat} (bound : c.reader.weight ≤ w) (lively : Lively c.reader.chunks)
    (remaining : c.readRemaining = r) (enough : r ≤ c.reader.content.length)
    (later : ∀ c' : GunConn, Lively c'.reader.chunks → c'.readRemaining = 0 →
      c'.reader.content = c.reader.content.drop r → Panics last c') : Panics last c := by
  have heavy : c.reader.content.length ≤ c.reader.weight := Nat.le_add_right _ _
  induction w generalizing c r with
  | zero =>
    have none : r = 0 := by omega
    subst none
    exact later c lively remaining rfl
  | succ w ih =>
    by_cases left : 0 < r
    · obtain ⟨result, c', eq, step, alive⟩ := read_cases lively remaining r
      obtain ⟨took, less⟩ := step.of_inside left
      cases took with
      | @bytes out _ taken _ inside remaining' =>
        have lighter := less left out rfl
        have whole : c.reader.content.length = out.length + c'.reader.content.length := by
          rw [taken, length_append]
        have dropped : c'.reader.content = c.reader.content.drop out.length := by
          rw [taken, drop_left]
        refine Panics.of_read eq (by simp) (ih (by omega) (alive (by simp)) remaining' (by omega) ?_
          (Nat.le_add_right _ _))
        intro c'' lively' none content
        apply later c'' lively' none
        rw [content, dropped, drop_drop, Nat.add_sub_cancel' inside]
      | ended none =>
        rw [none] at enough
        exact absurd left (by simpa using enough)
    · have none : r = 0 := by omega
      subst none
      exact later c lively remaining rfl

/-- A length of 2^63 or more that is to come makes some run panic. -/
theorem Meets.panics (met : Meets r bs n) (large : 2 ^ 63 ≤ n) (lively : Lively c.reader.chunks)
    (remaining : c.readRemaining = r) (content : c.reader.content = bs) : Panics last c := by
  induction met generalizing c with
  | here found =>
    obtain ⟨result, c', eq, step, _⟩ := read_cases lively remaining 0
    rw [content] at step
    rw [step.of_large found large] at eq
    exact .now eq
  | next found small later ih =>
    -- a `Read` without a buffer takes the header and no more
    obtain ⟨result, c', eq, step, alive⟩ := read_cases lively remaining 0
    rw [content] at step
    obtain ⟨took, _⟩ := step.of_small found small
    cases took with
    | bytes taken fits _ remaining' =>
      have none := length_eq_zero_iff.mp (Nat.le_zero.mp fits)
      subst none
      exact .of_read eq (by simp) (ih large (alive (by simp)) remaining' taken.symm)
    | ended _ _ pos => omega
  | bad none some later ih =>
    obtain ⟨result, c', eq, step, alive⟩ := read_cases lively remaining 0
    rw [content] at step
    obtain ⟨⟨e, rfl⟩, rest, remaining'⟩ := step.of_bad none
    exact .of_read eq (by simp) (ih large (alive (by simp)) remaining' rest)
  | skip left enough later ih =>
    subst content
    apply Panics.skip .refl lively remaining enough
    intro c' lively' none content
    exact ih large lively' none content

end

/-- A call of `Write` or `WriteBuffer`. -/
inductive Sent where
  | write (b : Payload)
  | writeBuffer (buffer : Payload)

namespace Sent

def wire : Sent → Bytes
  | write b => GrpcLite.write b
  | writeBuffer buffer => GrpcLite.writeBuffer buffer

def payload : Sent → Bytes
  | write b => b.1
  | writeBuffer buffer => buffer.1

end Sent

/-- The bytes that the `Read`s of a run returned. -/
def output (results : List Result) : Bytes :=
  results.flatMap fun result =>
    match result.outcome with
    | .ok out => out
    | _ => []

/-- The `Read`s of a run deliver `all`: they return, what they return is its beginning, and all of
it before the first error; and with buffers that are not empty they come to the error. -/
structure Delivered (last : String) (c : GunConn) (lens : List Nat) (all : Bytes) : Prop where
  returned : ∀ result ∈ reads last c lens, result.outcome ≠ .panicked
  begins : output (reads last c lens) <+: all
  complete : (∃ result ∈ reads last c lens, ∃ e, result.outcome = .err e) →
    output (reads last c lens) = all
  ends : (∀ len ∈ lens, 0 < len) → c.reader.weight < lens.length →
    ∃ result ∈ reads last c lens, ∃ e, result.outcome = .err e

/-- The reader is inside a payload of which `pending` is left, with the frames `sent` behind it. -/
structure Pending (c : GunConn) (pending : Bytes) (sent : List Sent) : Prop where
  lively : Lively c.reader.chunks
  remaining : c.readRemaining = pending.length
  content : c.reader.content = pending ++ (sent.map Sent.wire).flatten

/-- What is still to be read. -/
def left (pending : Bytes) (sent : List Sent) : Bytes := pending ++ (sent.map Sent.payload).flatten

section
variable {last : String} {c c' : GunConn} {len : Nat} {pending : Bytes} {sent : List Sent}
  {result : Outcome String Bytes}

theorem Sent.wire_eq (s : Sent) :
    s.payload.length < 2 ^ 63 ∧ s.wire = frameHeader s.payload.length ++ s.payload := by
  cases s with
  | write b => exact ⟨b.2, rfl⟩
  | writeBuffer buffer => exact ⟨buffer.2, rfl⟩

theorem header_wire (s : Sent) (rest : Bytes) :
    header (s.wire ++ rest) = some (s.payload.length, s.payload ++ rest) := by
  obtain ⟨small, wire⟩ := s.wire_eq
  have split : s.wire ++ rest =
      ([0x00] ++ bigEndian 4 (1 + (uvarint s.payload.length).length + s.payload.length) ++
        [0x0A]) ++ (uvarint s.payload.length ++ (s.payload ++ rest)) := by
    rw [wire, frameHeader]
    simp only [append_assoc]
  have six : ([0x00] ++ bigEndian 4 (1 + (uvarint s.payload.length).length + s.payload.length) ++
      [0x0A]).length = 6 := by
    rw [length_append, length_append, bigEndian_length]
    rfl
  rw [split]
  apply header_eq
  · rw [length_append, six]
    exact Nat.le_add_right _ _
  · rw [← six, drop_left]
    exact reads_uvarint (by omega) _

theorem Took.takes {rest : Bytes}
    (took : Took last len pending.length (pending ++ rest) result c') :
    ∃ out pending', result = .ok out ∧ pending = out ++ pending' ∧
      c'.readRemaining = pending'.length ∧
      c'.reader.content = pending' ++ rest := by
  cases took with
  | @bytes out _ taken _ inside remaining =>
    obtain ⟨pending', same, content⟩ | ⟨extra, same, content⟩ := append_eq_append_iff.mp taken
    · have none : pending' = [] := by grind [List.length, length_append, length_eq_zero_iff.mp]
      subst none
      refine ⟨out, [], rfl, by simpa using same.symm, ?_, by simpa using content.symm⟩
      rw [same] at remaining
      simpa using remaining
    · refine ⟨out, extra, rfl, same, ?_, content⟩
      rw [remaining, same, length_append, Nat.add_sub_cancel_left]
  | ended none _ _ some _ => grind [append_eq_nil_iff.mp]

/-- One `Read` of what was written: it takes the next bytes, or finds the end of the stream. -/
theorem Pending.read (last : String) (h : Pending c pending sent) (len : Nat) :
    ∃ result c', c.read last len = (result, c') ∧
      ((∃ out pending' sent', result = .ok out ∧ Pending c' pending' sent' ∧
          left pending sent = out ++ left pending' sent' ∧
            (0 < len → c'.reader.weight < c.reader.weight)) ∨
        (∃ e, result = .err e) ∧ left pending sent = [] ∧ Pending c' [] []) := by
  obtain ⟨result, c', eq, step, alive⟩ := read_cases h.lively h.remaining len
  refine ⟨result, c', eq, ?_⟩
  rw [h.content] at step
  by_cases inside : pending = []
  · subst inside
    rw [nil_append] at step
    cases sent with
    | nil =>
      obtain ⟨failed, rest, remaining⟩ := step.of_bad rfl
      refine .inr ⟨failed, rfl, alive ?_, remaining, rest⟩
      obtain ⟨e, rfl⟩ := failed
      simp
    | cons s sent =>
      rw [map_cons, flatten_cons] at step
      obtain ⟨took, less⟩ := step.of_small (header_wire s _) s.wire_eq.1
      obtain ⟨out, pending', rfl, payload, remaining, content⟩ := took.takes
      refine .inl ⟨out, pending', sent, rfl, ⟨alive (by simp), remaining, content⟩, ?_,
        fun _ => less⟩
      simp [left, payload]
  · obtain ⟨took, less⟩ := step.of_inside (length_pos_iff.mpr inside)
    obtain ⟨out, pending', rfl, same, remaining, content⟩ := took.takes
    refine .inl ⟨out, pending', sent, rfl, ⟨alive (by simp), remaining, content⟩, ?_,
      fun pos => less pos out rfl⟩
    simp [left, same]

theorem output_cons (result : Result) (results : List Result) :
    output (result :: results) = output [result] ++ output results := by
  simp [output]

theorem Pending.delivered (h : Pending c pending sent) (lens : List Nat) :
    Delivered last c lens (left pending sent) := by
  induction lens generalizing c pending sent with
  | nil => exact ⟨by simp [reads], nil_prefix, by simp [reads], by simp⟩
  | cons len lens ih =>
    obtain ⟨result, c', eq, ⟨out, pending', sent', rfl, next, same, lighter⟩ | ⟨⟨e, rfl⟩,
      none, next⟩⟩ :=
      h.read last len
    · have rest := ih next
      have cons := reads_cons eq (by simp) lens
      have bytes : output (reads last c (len :: lens)) = out ++ output (reads last c' lens) := by
        rw [cons, output_cons]
        simp [output]
      rw [same]
      constructor
      · rw [cons]
        exact forall_mem_cons.mpr ⟨by simp, rest.returned⟩
      · rw [bytes]
        exact (prefix_append_right_inj out).mpr rest.begins
      · intro ended
        rw [cons] at ended
        rw [bytes, rest.complete (by simpa using ended)]
      · intro pos long
        have later := rest.ends (fun l hl => pos l (mem_cons_of_mem _ hl)) (by
          have := lighter (pos len mem_cons_self)
          rw [length_cons] at long
          omega)
        obtain ⟨failed, member, error⟩ := later
        exact ⟨failed, by rw [cons]; exact mem_cons_of_mem _ member, error⟩
    · have rest := ih next
      have cons := reads_cons eq (by simp) lens
      have bytes : output (reads last c (len :: lens)) = [] := by
        have nothing := prefix_nil.mp rest.begins
        rw [cons, output_cons, nothing]
        simp [output]
      rw [none]
      constructor
      · rw [cons]
        exact forall_mem_cons.mpr ⟨by simp, rest.returned⟩
      · exact prefix_nil.mpr bytes
      · exact fun _ => bytes
      · intro _ _
        exact ⟨_, by rw [cons]; exact mem_cons_self, e, rfl⟩

end

def newGunConn (chunks : List Bytes) : GunConn where
  reader := { chunks := chunks }

/-- For every stream and every way it is cut into pieces: all `Read`s return, with at most as many
bytes as they have room for, exactly when the lengths that reading comes to are below 2^63. What was
written by `Write` and `WriteBuffer` is delivered. -/
theorem frames_total_iff (last : String) (chunks : List Bytes) (lively : Lively chunks) :
    ((∀ lens, ∀ result ∈ reads last (newGunConn chunks) lens, result.Sound) ↔
      ∀ n, Meets 0 chunks.flatten n → n < 2 ^ 63) ∧
    ∀ sent : List Sent, chunks.flatten = (sent.map Sent.wire).flatten →
      ∀ lens, Delivered last (newGunConn chunks) lens (sent.map Sent.payload).flatten := by
  refine ⟨⟨?_, ?_⟩, ?_⟩
  · intro sound n met
    apply Nat.lt_of_not_le
    intro large
    have panics : Panics last (newGunConn chunks) := met.panics large lively rfl rfl
    obtain ⟨lens, result, member, panicked⟩ := panics
    obtain ⟨out, other, _⟩ | ⟨e, other, _⟩ := sound lens result member
    · rw [panicked] at other; cases other
    · rw [panicked] at other; cases other
  · intro small lens
    exact reads_sound lively rfl small lens
  · intro sent same lens
    have start : Pending (newGunConn chunks) [] sent := ⟨lively, rfl, same⟩
    exact start.delivered lens

/-- A frame with two bytes, in two pieces. -/
theorem twoPieces_delivered :
    Lively [[0x00, 0, 0, 0, 4, 0x0A], [2, 7, 8]] ∧
      Delivered eof (newGunConn [[0x00, 0, 0, 0, 4, 0x0A], [2, 7, 8]]) [1, 1, 1] [7, 8] := by
  have lively : Lively [[0x00, 0, 0, 0, 4, 0x0A], [2, 7, 8]] :=
    (Lively.nil.cons (by simp)).cons (by simp)
  refine ⟨lively, ?_⟩
  have written : [[0x00, 0, 0, 0, 4, 0x0A], [2, 7, 8]].flatten =
      ([Sent.write ⟨[7, 8], by decide⟩].map Sent.wire).flatten := by
    simp [Sent.wire, write, frameHeader, uvarint, bigEndian]
  exact (frames_total_iff eof _ lively).2 [.write ⟨[7, 8], by decide⟩] written [1, 1, 1]

/-- The length 2^63 is negative as an `int`. -/
theorem negativeLength_panics :
    ((newGunConn [[0x00, 0, 0, 0, 0, 0x0A, 0x80, 0x80, 0x80, 0x80, 0x80, 0x80, 0x80, 0x80,
      0x80, 0x01]]).read eof 1).1 = .panicked := by
  decide +kernel

end AiboosterEngine.GrpcLite
