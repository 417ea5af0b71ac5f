import AiboosterEngine.GoSem.Text

/-!
# Peeking

`common/sniff/sniff.go`: sniffers look at what has been read of a connection. They
are functions of the metadata and of the bytes, and may change the metadata.
-/

namespace AiboosterEngine.Sniff.Peek
open GoSem List

/-- Whether `errors.Is` finds `ErrNeedMoreData` in an error. -/
inductive SniffError where
  | needMoreData | other
  deriving DecidableEq, Repr

/-- The fields of `adapter.InboundContext` that decide about sniffing, and the rest of it. -/
structure Metadata (μ : Type) where
  port : UInt16
  protocol : Bytes := []
  snifferNames : List Bytes := []
  sniffError : Option SniffError := none
  rest : μ

abbrev Sniffer (μ : Type) := Metadata μ → Bytes → Option SniffError × Metadata μ

section
variable {μ : Type}

/-- The ports of the protocols in which the server speaks first. -/
def skip (metadata : Metadata μ) : Bool := [25, 465, 587, 143, 993, 110, 995].contains metadata.port

/-- `E.Errors` of the errors so far and one more. -/
def SniffError.join : Option SniffError → SniffError → SniffError
  | some .needMoreData, _ => .needMoreData
  | _, e => e

/-- One sniffer after another, until one succeeds: `PeekPacket`, and the inner loop of
`PeekStream`. -/
def trySniffers : List (Sniffer μ) → Option SniffError → Metadata μ → Bytes →
    Option SniffError × Metadata μ
  | [], found, metadata, _ => (found, metadata)
  | sniffer :: sniffers, found, metadata, bs =>
    match sniffer metadata bs with
    | (none, metadata) => (none, metadata)
    | (some e, metadata) => trySniffers sniffers (some (.join found e)) metadata bs

def peekPacket (sniffers : List (Sniffer μ)) (metadata : Metadata μ) (packet : Bytes) :
    Option SniffError × Metadata μ :=
  trySniffers sniffers none metadata packet

/-- The sniffer never asks for more data. -/
def Sniffer.Settles (sniffer : Sniffer μ) : Prop :=
  ∀ metadata bs, (sniffer metadata bs).1 ≠ some .needMoreData

variable {sniffers : List (Sniffer μ)} {metadata : Metadata μ}

theorem trySniffers_settles {found : Option SniffError}
    {bs : Bytes} (settle : ∀ sniffer ∈ sniffers, sniffer.Settles)
    (before : found ≠ some .needMoreData) :
    (trySniffers sniffers found metadata bs).1 ≠ some .needMoreData := by
  induction sniffers generalizing found metadata with
  | nil => exact before
  | cons sniffer sniffers ih =>
    have mine := settle sniffer mem_cons_self metadata bs
    rw [trySniffers]
    split
    · simp
    · next e metadata' answered =>
      rw [answered] at mine
      apply ih fun other member => settle other (mem_cons_of_mem _ member)
      cases e with
      | needMoreData => exact absurd rfl mine
      | other =>
        cases found with
        | none => simp [SniffError.join]
        | some e => cases e <;> simp_all [SniffError.join]

theorem peekPacket_settles {packet : Bytes}
    (settle : ∀ sniffer ∈ sniffers, sniffer.Settles) :
    (peekPacket sniffers metadata packet).1 ≠ some .needMoreData :=
  trySniffers_settles settle (by simp)

/-- How the next read of a connection ends: with bytes, with bytes and an error, or with the error
of `SetReadDeadline` before it. -/
inductive Read where
  | data (bs : Bytes) | fail (bs : Bytes) | noDeadline
  deriving DecidableEq, Repr

def Read.bytes : Read → Bytes
  | data bs | fail bs => bs
  | noDeadline => []

/-- All the bytes that come from the connection. -/
def streamBytes (reads : List Read) : Bytes := reads.flatMap Read.bytes

/-- A read into `n` free bytes: what is read, whether with an error, and what is left for the next
read. -/
def Read.once (n : Nat) : Read → Bytes × Bool × List Read
  | data bs => if bs.length ≤ n then (bs, false, []) else (bs.take n, false, [data (bs.drop n)])
  | fail bs => if bs.length ≤ n then (bs, true, []) else (bs.take n, false, [fail (bs.drop n)])
  | noDeadline => ([], true, [])

structure Peeked (μ : Type) where
  err : Option SniffError
  metadata : Metadata μ
  buffer : Bytes
  rest : List Read

/-- The loop of `PeekStream`, with the error of the pass before (`none` in the first one). The
sniffers read the earlier buffers and this one. A full buffer ends it, with `io.ErrShortBuffer`. -/
def peekStream (sniffers : List (Sniffer μ)) (capacity : Nat) (earlier : Bytes) :
    List Read → Option SniffError → Metadata μ → Bytes → Peeked μ
  | [], found, metadata, buffer => ⟨some (found.getD .other), metadata, buffer, []⟩
  | read :: reads, found, metadata, buffer =>
    if read = .noDeadline then ⟨some .other, metadata, buffer, reads⟩
    else if capacity ≤ buffer.length
      then ⟨some (found.getD .other), metadata, buffer, read :: reads⟩
    else
      match read.once (capacity - buffer.length) with
      | (bs, true, left) => ⟨some (found.getD .other), metadata, buffer ++ bs, left ++ reads⟩
      | (bs, false, left) =>
        match trySniffers sniffers none metadata (earlier ++ (buffer ++ bs)) with
        | (none, metadata) => ⟨none, metadata, buffer ++ bs, left ++ reads⟩
        | (some .other, metadata) => ⟨some .other, metadata, buffer ++ bs, left ++ reads⟩
        | (some .needMoreData, metadata) =>
          -- Something is left where the buffer is full, and the next pass ends at once.
          if left.isEmpty then peekStream sniffers capacity earlier reads
            (some .needMoreData) metadata (buffer ++ bs)
          else ⟨some .needMoreData, metadata, buffer ++ bs, left ++ reads⟩

@[simp] theorem streamBytes_nil : streamBytes [] = [] := rfl

@[simp] theorem streamBytes_cons (read : Read) (reads : List Read) :
    streamBytes (read :: reads) = read.bytes ++ streamBytes reads := rfl

@[simp] theorem streamBytes_append (reads reads' : List Read) :
    streamBytes (reads ++ reads') = streamBytes reads ++ streamBytes reads' :=
  flatMap_append

theorem once_bytes {n : Nat} {read : Read} {bs : Bytes} {failed : Bool} {left : List Read}
    (h : read.once n = (bs, failed, left)) : bs ++ streamBytes left = read.bytes := by
  cases read with
  | data all | fail all =>
    simp only [Read.once] at h
    split at h
    · cases h
      exact append_nil _
    · cases h
      simp [Read.bytes]
  | noDeadline =>
    cases h
    rfl

/-- The buffer and what is still to be read are what there was to be read. -/
theorem peekStream_bytes (sniffers : List (Sniffer μ)) (capacity : Nat) (earlier : Bytes)
    (reads : List Read) (found : Option SniffError) (metadata : Metadata μ) (buffer : Bytes) :
    (peekStream sniffers capacity earlier reads found metadata buffer).buffer ++
        streamBytes (peekStream sniffers capacity earlier reads found metadata buffer).rest =
      buffer ++ streamBytes reads := by
  induction reads generalizing found metadata buffer with
  | nil => rfl
  | cons read reads ih =>
    rw [peekStream]
    split
    · next noDeadline =>
      rw [noDeadline]
      rfl
    · split
      · rfl
      · split
        · next once =>
          simp [← once_bytes once]
        · next bs left once =>
          have read_ := once_bytes once
          split
          · simp [← read_]
          · simp [← read_]
          · split
            · next none_ =>
              rw [List.isEmpty_iff.mp none_] at read_
              rw [ih, streamBytes_cons, ← read_]
              simp
            · simp [← read_]

end

end AiboosterEngine.Sniff.Peek
