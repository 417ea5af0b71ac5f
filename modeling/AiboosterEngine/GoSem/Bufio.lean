import AiboosterEngine.GoSem.Binary

/-!
# `bufio.Reader`

A reader with a buffer over a reader that returns the stream in pieces, some of
them empty perhaps, and then an error for ever. A function returns its outcome
and the reader it leaves; between two calls no error is pending, since an error
comes without bytes.
-/

namespace GoSem

open List

/-- `buf` are the buffered bytes, `chunks` what the reads of the lower reader will return. -/
structure Bufio where
  buf : Bytes := []
  chunks : List Bytes
  deriving DecidableEq

namespace Bufio

def bufferSize : Nat := 4096

def maxConsecutiveEmptyReads : Nat := 100

def errNoProgress : String := "multiple Read calls return no data or error"

/-- One read of the lower reader into `size` bytes when it has the piece `c` to return. -/
def lower (size : Nat) (c : Bytes) (rest : List Bytes) : Bytes × List Bytes :=
  (c.take size, if c.length ≤ size then rest else c.drop size :: rest)

section
variable (last : String)

/-- The loop of `fill`, into an empty buffer. -/
def fillLoop : (tries : Nat) → List Bytes → Except String Bytes × List Bytes
  | 0, chunks => (.error errNoProgress, chunks)
  | _ + 1, [] => (.error last, [])
  | tries + 1, c :: rest =>
    if c.isEmpty then fillLoop tries rest
    else (.ok (lower bufferSize c rest).1, (lower bufferSize c rest).2)

variable (b : Bufio)

/-- `fill`: the error, if any. -/
def fill : Option String × Bufio :=
  match fillLoop last maxConsecutiveEmptyReads b.chunks with
  | (.ok bs, rest) => (none, ⟨bs, rest⟩)
  | (.error e, rest) => (some e, ⟨[], rest⟩)

/-- `fill` when nothing is buffered. -/
def filled : Option String × Bufio :=
  if b.buf.isEmpty then fill last b else (none, b)

/-- Moves the start of the buffer. -/
def skip (n : Nat) (b : Bufio) : Bufio := { b with buf := b.buf.drop n }

/-- The loop of `Discard`. Every pass discards a byte or ends, so `remain` passes are enough. -/
def discardLoop : (passes remain : Nat) → Bufio → Outcome String Unit × Bufio
  | 0, _, b => (.ok (), b)
  | passes + 1, remain, b =>
    match filled last b with
    | (some e, b) => (.err e, b)
    | (none, b) =>
      let n := min b.buf.length remain
      if remain - n = 0 then (.ok (), b.skip n) else discardLoop passes (remain - n) (b.skip n)

def discard (n : Nat) (b : Bufio) : Outcome String Unit × Bufio := discardLoop last n n b

def readByte : Outcome String UInt8 × Bufio :=
  match filled last b with
  | (some e, b) => (.err e, b)
  | (none, b) =>
    match b.buf with
    | [] => (.err last, b) -- not after `fill` without an error
    | x :: _ => (.ok x, b.skip 1)

def overflow : String := "binary: varint overflows a 64-bit integer"

/-- The loop of `binary.ReadUvarint` with `left` of its ten bytes to go. -/
def readUvarintLoop : (left shift x : Nat) → Bufio → Outcome String Nat × Bufio
  | 0, _, _, b => (.err overflow, b)
  | left + 1, shift, x, b =>
    match readByte last b with
    | (.ok byte, b) =>
      if byte.toNat < 128 then
        if left = 0 ∧ 1 < byte.toNat then (.err overflow, b)
          else (.ok (x + byte.toNat * 2 ^ shift), b)
      else readUvarintLoop left (shift + 7) (x + (byte.toNat - 128) * 2 ^ shift) b
    | (.err e, b) => (.err (if shift ≠ 0 ∧ e = eof then unexpectedEOF else e), b)
    | (.panicked, b) => (.panicked, b)

def readUvarint : Outcome String Nat × Bufio := readUvarintLoop last 10 0 0 b

/-- `Read` into `len` bytes. -/
def read (len : Nat) (b : Bufio) : Outcome String Bytes × Bufio :=
  if len = 0 then (.ok [], b)
  else if b.buf.isEmpty then
    match b.chunks with
    | [] => (.err last, b)
    | c :: rest =>
      if bufferSize ≤ len then (.ok (lower len c rest).1, ⟨[], (lower len c rest).2⟩)
      else
        let got := lower bufferSize c rest
        (.ok (got.1.take len), ⟨got.1.drop len, got.2⟩)
  else (.ok (b.buf.take len), b.skip len)

end

/-- What is still to come. -/
def content (b : Bufio) : Bytes := b.buf ++ b.chunks.flatten

/-- The pieces are never empty a hundred times in a row. -/
def Lively (chunks : List Bytes) : Prop :=
  ∀ rest, rest <:+ chunks → ¬ replicate maxConsecutiveEmptyReads [] <+: rest

section
variable (last : String) {chunks rest : List Bytes} {c : Bytes} {b : Bufio} {size : Nat}

theorem Lively.tail (h : Lively (c :: rest)) : Lively rest :=
  fun _ suffix => h _ (suffix.trans (suffix_cons c rest))

theorem Lively.cons (h : Lively rest) (some : c ≠ []) : Lively (c :: rest) := by
  intro tail suffix stalls
  obtain rfl | suffix := suffix_cons_iff.mp suffix
  · rw [show maxConsecutiveEmptyReads = 99 + 1 from rfl, replicate_succ] at stalls
    exact some (cons_prefix_cons.mp stalls).1.symm
  · exact h tail suffix stalls

theorem Lively.nil : Lively [] := by
  intro tail suffix stalls
  rw [suffix_nil.mp suffix] at stalls
  have := stalls.length_le
  simp [maxConsecutiveEmptyReads] at this

theorem lower_append (size : Nat) (c : Bytes) (rest : List Bytes) :
    (lower size c rest).1 ++ (lower size c rest).2.flatten = c ++ rest.flatten := by
  unfold lower
  split
  · next whole => rw [take_of_length_le whole]
  · rw [flatten_cons, ← append_assoc, take_append_drop]

theorem lower_lively (h : Lively (c :: rest)) : Lively (lower size c rest).2 := by
  unfold lower
  split
  · exact h.tail
  · next part => exact h.tail.cons (by simpa using part)

theorem lower_length (size : Nat) (c : Bytes) (rest : List Bytes) :
    (lower size c rest).2.length ≤ rest.length + 1 := by
  unfold lower
  split
  · exact Nat.le_succ _
  · exact .refl

theorem lower_ne_nil (pos : 0 < size) (some : c ≠ []) : (lower size c rest).1 ≠ [] := by
  intro none
  obtain zero | empty := take_eq_nil_iff.mp none
  · omega
  · exact some empty

theorem lower_weight {len : Nat} (pos : 0 < size) (some : 0 < len) (c : Bytes) (rest : List Bytes) :
    ((lower size c rest).1.drop len).length + (lower size c rest).2.flatten.length +
      (lower size c rest).2.length < (c ++ rest.flatten).length + (rest.length + 1) := by
  have whole := congrArg List.length (lower_append size c rest)
  have pieces := lower_length size c rest
  rw [length_append] at whole
  rw [length_drop]
  by_cases empty : c = []
  · subst empty
    simp [lower]
  · have bytes : 0 < (lower size c rest).1.length := length_pos_iff.mpr (lower_ne_nil pos empty)
    omega

/-- A lower reader that is lively fills the buffer, unless the stream is at its end. -/
theorem fillLoop_cases {tries : Nat} (h : Lively chunks) (few : ¬ replicate tries [] <+: chunks) :
    (chunks.flatten = [] ∧ fillLoop last tries chunks = (.error last, [])) ∨
    ∃ bs rest, bs ≠ [] ∧ fillLoop last tries chunks = (.ok bs, rest) ∧
      bs ++ rest.flatten = chunks.flatten ∧ Lively rest ∧ rest.length ≤ chunks.length := by
  induction tries generalizing chunks with
  | zero => exact absurd nil_prefix few
  | succ tries ih =>
    cases chunks with
    | nil => exact .inl ⟨rfl, rfl⟩
    | cons c rest =>
      by_cases empty : c = []
      · subst empty
        have fewer : ¬ replicate tries [] <+: rest := by grind
        obtain ⟨none, eq⟩ | ⟨bs, rest', some, eq, same, lively, length⟩ := ih h.tail fewer
        · exact .inl ⟨none, eq⟩
        · exact .inr ⟨bs, rest', some, eq, same, lively, Nat.le_succ_of_le length⟩
      · refine .inr ⟨_, _, lower_ne_nil (by decide : 0 < bufferSize) empty, ?_,
          lower_append _ c rest, lower_lively h, lower_length _ c rest⟩
        rw [fillLoop, if_neg (by simpa using empty)]

/-- What keeps a reader going. -/
structure Next (b b' : Bufio) : Prop where
  lively : Lively b'.chunks
  chunks : b'.chunks.length ≤ b.chunks.length

theorem Next.refl (h : Lively b.chunks) : Next b b := ⟨h, .refl⟩

theorem Next.trans {b' b'' : Bufio} (h : Next b b') (h' : Next b' b'') : Next b b'' :=
  ⟨h'.lively, Nat.le_trans h'.chunks h.chunks⟩

theorem filled_cases (h : Lively b.chunks) :
    ∃ b', Next b b' ∧ ((content b = [] ∧ content b' = [] ∧ filled last b = (some last, b')) ∨
      (b'.buf ≠ [] ∧ content b' = content b ∧ filled last b = (none, b'))) := by
  unfold filled
  by_cases empty : b.buf = []
  · rw [if_pos (by simpa using empty)]
    have few := h b.chunks (suffix_refl _)
    obtain ⟨none, eq⟩ | ⟨bs, rest, some, eq, same, lively, length⟩ := fillLoop_cases last h few
    · refine ⟨⟨[], []⟩, ⟨.nil, Nat.zero_le _⟩, .inl ⟨by rw [content, empty, none]; rfl, rfl, ?_⟩⟩
      rw [fill, eq]
    · refine ⟨⟨bs, rest⟩, ⟨lively, length⟩, .inr ⟨some, ?_, ?_⟩⟩
      · rw [content, content, empty, same]
        rfl
      · rw [fill, eq]
  · rw [if_neg (by simpa using empty)]
    exact ⟨b, .refl h, .inr ⟨empty, rfl, rfl⟩⟩

theorem content_skip {n : Nat} (h : n ≤ b.buf.length) : content (b.skip n) = (content b).drop n :=
  (drop_append_of_le_length h).symm

theorem Next.skip {b' : Bufio} (h : Next b b') (n : Nat) : Next b (b'.skip n) :=
  ⟨h.lively, h.chunks⟩

theorem length_content : (content b).length = b.buf.length + b.chunks.flatten.length :=
  length_append

theorem discardLoop_cases {passes remain : Nat} (h : Lively b.chunks) (pos : 0 < remain)
    (enough : remain ≤ passes) :
    ∃ b', Next b b' ∧ content b' = (content b).drop remain ∧
      ((remain ≤ (content b).length ∧ discardLoop last passes remain b = (.ok (), b')) ∨
        ((content b).length < remain ∧ discardLoop last passes remain b = (.err last, b'))) := by
  induction passes generalizing remain b with
  | zero => omega
  | succ passes ih =>
    rw [discardLoop]
    obtain ⟨b₁, next, ⟨none, none₁, eq⟩ | ⟨some, same, eq⟩⟩ := filled_cases last h
    · rw [eq]
      exact ⟨b₁, next, by rw [none, none₁, drop_nil], .inr ⟨by rw [none]; exact pos, rfl⟩⟩
    · have some := length_pos_iff.mpr some
      have whole := length_content (b := b₁)
      rw [eq, ← same]
      by_cases all : remain ≤ b₁.buf.length
      · refine ⟨b₁.skip remain, next.skip _, content_skip all, .inl ⟨by omega, ?_⟩⟩
        simp [Nat.min_eq_right all]
      · have part : min b₁.buf.length remain = b₁.buf.length := Nat.min_eq_left (by omega)
        have left : ¬ remain - b₁.buf.length = 0 := by omega
        have skipped := content_skip (Nat.le_refl b₁.buf.length)
        have fewer : remain - b₁.buf.length ≤ passes := by omega
        obtain ⟨b', next', rest, ends⟩ :=
          ih (b := b₁.skip b₁.buf.length) next.lively (Nat.pos_of_ne_zero left) fewer
        refine ⟨b', next.trans ⟨next'.lively, next'.chunks⟩, ?_, ?_⟩
        · rw [rest, skipped, drop_drop]
          congr 1
          omega
        · grind

theorem readByte_cases (h : Lively b.chunks) :
    ∃ b', Next b b' ∧
      ((content b = [] ∧ content b' = [] ∧ readByte last b = (.err last, b')) ∨
        ∃ x, content b = x :: content b' ∧ readByte last b = (.ok x, b')) := by
  rw [readByte]
  obtain ⟨b₁, next, ⟨none, none₁, eq⟩ | ⟨some, same, eq⟩⟩ := filled_cases last h
  · rw [eq]
    exact ⟨b₁, next, .inl ⟨none, none₁, rfl⟩⟩
  · rw [eq]
    cases buffered : b₁.buf with
    | nil => exact absurd buffered some
    | cons x buf =>
      refine ⟨b₁.skip 1, next.skip 1, .inr ⟨x, ?_, by simp only [buffered]⟩⟩
      rw [← same, content, content, skip, buffered]
      rfl

/-- A varint is read as from the content in one piece. Where it is not one, ten bytes are gone,
or all there are. -/
theorem readUvarintLoop_cases (left shift x : Nat) (h : Lively b.chunks) :
    ∃ b', Next b b' ∧
      ((∃ n, GoSem.readUvarintLoop left shift x (content b) = some (.ok (n, content b')) ∧
          readUvarintLoop last left shift x b = (.ok n, b')) ∨
        ((∃ e, GoSem.readUvarintLoop left shift x (content b) = some (.err e)) ∧
          content b' = (content b).drop left ∧ ∃ e, readUvarintLoop last left shift x b =
            (.err e, b'))) := by
  induction left generalizing shift x b with
  | zero => exact ⟨b, .refl h, .inr ⟨⟨_, rfl⟩, rfl, _, rfl⟩⟩
  | succ left ih =>
    obtain ⟨b₁, next, ⟨none, none₁, eq⟩ | ⟨byte, same, eq⟩⟩ := readByte_cases last h
    · rw [readUvarintLoop, eq, none]
      exact ⟨b₁, next, .inr ⟨⟨eof, rfl⟩, by rw [drop_nil, none₁], _, rfl⟩⟩
    · rw [readUvarintLoop, eq, same, readUvarintLoop_cons]
      by_cases final : byte.toNat < 128
      · simp only [final, if_true]
        by_cases large : left = 0 ∧ 1 < byte.toNat
        · simp only [large, and_self, if_true]
          exact ⟨b₁, next, .inr ⟨⟨_, rfl⟩, by simp, _, rfl⟩⟩
        · simp only [large, if_false]
          exact ⟨b₁, next, .inl ⟨_, rfl, rfl⟩⟩
      · simp only [final, if_false]
        obtain ⟨b', next', ends⟩ := ih (shift + 7) (x + (byte.toNat - 128) * 2 ^ shift) next.lively
        exact ⟨b', next.trans next', ends⟩

/-- What is left to read, counting the pieces, so that an empty one counts too. -/
def weight (b : Bufio) : Nat := (content b).length + b.chunks.length

/-- `Read` takes a part of the content, and comes to the end of the stream only when nothing is
left. -/
theorem read_cases (len : Nat) (h : Lively b.chunks) :
    ∃ b', Next b b' ∧
      ((∃ bs, read last len b = (.ok bs, b') ∧ content b = bs ++ content b' ∧ bs.length ≤ len ∧
          (0 < len → weight b' < weight b)) ∨
        (0 < len ∧ content b = [] ∧ content b' = [] ∧ read last len b = (.err last, b'))) := by
  rw [read]
  by_cases zero : len = 0
  · rw [if_pos zero]
    exact ⟨b, .refl h, .inl ⟨[], rfl, rfl, Nat.zero_le _, by omega⟩⟩
  · rw [if_neg zero]
    by_cases empty : b.buf = []
    · have whole : content b = b.chunks.flatten := by rw [content, empty, nil_append]
      rw [if_pos (by simpa using empty)]
      cases chunks : b.chunks with
      | nil =>
        rw [chunks] at whole
        exact ⟨b, .refl h, .inr ⟨by omega, whole, whole, rfl⟩⟩
      | cons c rest =>
        rw [chunks, flatten_cons] at whole
        rw [chunks] at h
        have pos : 0 < len := by omega
        dsimp only
        split
        · refine ⟨⟨[], (lower len c rest).2⟩, ⟨lower_lively h, ?_⟩,
            .inl ⟨_, rfl, ?_, ?_, fun _ => ?_⟩⟩
          · rw [chunks]
            exact lower_length len c rest
          · rw [whole, ← lower_append len c rest]
            rfl
          · exact length_take_le _ _
          · have less := lower_weight pos pos c rest
            rw [weight, weight, whole, chunks, length_content]
            simp only [length_nil, length_cons] at less ⊢
            omega
        · refine ⟨⟨(lower bufferSize c rest).1.drop len, (lower bufferSize c rest).2⟩,
            ⟨lower_lively h, ?_⟩, .inl ⟨_, rfl, ?_, length_take_le _ _, fun _ => ?_⟩⟩
          · rw [chunks]
            exact lower_length bufferSize c rest
          · rw [whole, ← lower_append bufferSize c rest, content, ← append_assoc, take_append_drop]
          · have less := lower_weight (by decide : 0 < bufferSize) pos c rest
            rw [weight, weight, whole, chunks, length_content]
            simp only [length_cons] at less ⊢
            omega
    · have some := length_pos_iff.mpr empty
      rw [if_neg (by simpa using empty)]
      refine ⟨b.skip len, (Next.refl h).skip len,
        .inl ⟨_, rfl, ?_, length_take_le _ _, fun _ => ?_⟩⟩
      · rw [content, content, skip, ← append_assoc, take_append_drop]
      · grind [weight, length_content, skip, length_drop]

end

end Bufio

end GoSem
