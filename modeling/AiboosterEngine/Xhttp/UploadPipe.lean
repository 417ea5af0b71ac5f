import AiboosterEngine.GoSem.Steps
import AiboosterEngine.GoSem.Text
import Mathlib.Data.List.Basic

/-!
# Uploading in packets

The application's writes, the pipe and the upload loop of packet-up mode:
`uploadWriter.Write` cuts what it is given into buffers and puts them into the
pipe one by one, the loop takes everything there is and posts it. A step is one
access to the pipe, to a buffer in somebody else's hands, or to a signal.
-/

namespace AiboosterEngine.Xhttp.Upload
open GoSem List

/-- `buf.Size`. -/
def bufSize : Nat := 8192

/-- `badoption.Range`; `UnmarshalJSON` refuses a range that is the wrong way round. -/
structure Range where
  from_ : Int
  to_ : Int
  le : from_ ≤ to_
  deriving DecidableEq, Repr

/-- `crypto.RandBetween`, with what `rand.Int` gives. -/
def randBetween (from_ to_ : Int) (roll : Nat) : Int :=
  if from_ = to_ then from_
  else if from_ > to_ then to_ + roll % (from_ - to_)
  else from_ + roll % (to_ - from_)

/-- `GetNormalizedScMaxEachPostBytes`. -/
def scMaxEachPostBytes (option : Option Range) : Range :=
  match option with
  | none => ⟨1000000, 1000000, Int.le_refl _⟩
  | some range => if range.to_ = 0 then ⟨1000000, 1000000, Int.le_refl _⟩ else range

/-- `maxUploadSize` of a connection; `none` for the panic. -/
def maxUploadSize (option : Option Range) (roll : Nat) : Option Int :=
  let range := scMaxEachPostBytes option
  if range.from_ ≤ bufSize then none else some (randBetween range.from_ range.to_ roll)

theorem randBetween_ge {from_ to_ : Int} (le : from_ ≤ to_) (roll : Nat) :
    from_ ≤ randBetween from_ to_ roll := by
  unfold randBetween
  split
  · exact Int.le_refl _
  · rw [if_neg (by omega)]
    have := Int.emod_nonneg (roll : Int) (b := to_ - from_) (by omega)
    omega

theorem maxUploadSize_gt {option : Option Range} {roll : Nat} {max : Int}
    (h : maxUploadSize option roll = some max) :
    (bufSize : Int) < max := by
  unfold maxUploadSize at h
  dsimp only at h
  split at h
  · cases h
  · cases h
    have := randBetween_ge (scMaxEachPostBytes option).le roll
    omega

/-- A `buf.Buffer` and what is left in it. Released buffers are in nobody's list. -/
structure Buffer where
  id : Nat
  bytes : Bytes
  deriving DecidableEq, Repr

def contents (buffers : List Buffer) : Bytes := buffers.flatMap Buffer.bytes

@[simp] theorem contents_nil : contents [] = [] := rfl

@[simp] theorem contents_cons (buffer : Buffer) (buffers : List Buffer) :
    contents (buffer :: buffers) = buffer.bytes ++ contents buffers := rfl

@[simp] theorem contents_append (buffers more : List Buffer) :
    contents (buffers ++ more) = contents buffers ++ contents more :=
  flatMap_append

/-- The loop of `MergeBytes` from an empty `MultiBuffer`. -/
def mergeLoop : (fuel next : Nat) → (src : Bytes) → List Buffer
  | 0, _, _ => []
  | fuel + 1, next, src =>
    if src.isEmpty then [] else ⟨next, src.take bufSize⟩ :: mergeLoop fuel (next + 1)
    (src.drop bufSize)

def mergeBytes (next : Nat) (src : Bytes) : List Buffer := mergeLoop src.length next src

theorem mergeLoop_contents {fuel next : Nat} {src : Bytes} (enough : src.length ≤ fuel) :
    contents (mergeLoop fuel next src) = src := by
  induction fuel generalizing next src with
  | zero =>
    have none_ : src = [] := eq_nil_of_length_eq_zero (by omega)
    simp [mergeLoop, none_]
  | succ fuel ih =>
    cases src with
    | nil => simp [mergeLoop]
    | cons b src =>
      have shorter : ((b :: src).drop bufSize).length ≤ fuel := by
        simp only [length_drop, length_cons, bufSize] at *
        omega
      rw [mergeLoop, if_neg (by simp), contents_cons, ih shorter, take_append_drop]

@[simp] theorem mergeBytes_contents (next : Nat) (src : Bytes) :
    contents (mergeBytes next src) = src :=
  mergeLoop_contents .refl

theorem mergeLoop_sizes {fuel next : Nat} {src : Bytes} {buffer : Buffer}
    (h : buffer ∈ mergeLoop fuel next src) : buffer.bytes ≠ [] ∧ buffer.bytes.length ≤ bufSize := by
  induction fuel generalizing next src with
  | zero => cases h
  | succ fuel ih => grind [mergeLoop, bufSize, mem_cons.mp, length_take_le]

/-- `SplitBytes` into a slice of `n` bytes: what is read and what is left. Emptied buffers are
released. -/
def splitBytes : List Buffer → Nat → Bytes × List Buffer
  | [], _ => ([], [])
  | buffer :: buffers, n =>
    if buffer.bytes.length ≤ n then
      let (read, rest) := splitBytes buffers (n - buffer.bytes.length)
      (buffer.bytes ++ read, rest)
    else (buffer.bytes.take n, ⟨buffer.id, buffer.bytes.drop n⟩ :: buffers)

theorem splitBytes_contents (buffers : List Buffer) (n : Nat) :
    (splitBytes buffers n).1 ++ contents (splitBytes buffers n).2 = contents buffers := by
  induction buffers generalizing n with
  | nil => rfl
  | cons buffer buffers ih =>
    rw [splitBytes]
    split
    · simp [ih]
    · simp [← append_assoc]

inductive PipeState where
  | opened | closed | errord
  deriving DecidableEq, Repr

/-- Where the application's `Write` is. `pending` are the buffers not in the pipe yet. -/
inductive Writer where
  | idle
  /-- before an attempt of `WriteMultiBuffer` -/
  | pushing (b : Bytes) (pending : List Buffer) (writed : Nat)
  /-- in the `select` of `WriteMultiBuffer` -/
  | waiting (b : Bytes) (pending : List Buffer) (writed : Nat)
  /-- `WriteMultiBuffer` has returned nil, `buff.Len()` is not read yet -/
  | counting (b : Bytes) (id : Nat) (pending : List Buffer) (writed : Nat)
  deriving DecidableEq, Repr

def Writer.pending : Writer → List Buffer
  | idle => []
  | pushing _ pending _ | waiting _ pending _ | counting _ _ pending _ => pending

@[simp] theorem Writer.pending_eq : idle.pending = [] ∧
    (∀ b pending n, (pushing b pending n).pending = pending ∧
      (waiting b pending n).pending = pending) ∧
    ∀ b id pending n, (counting b id pending n).pending = pending :=
  ⟨rfl, fun _ _ _ => ⟨rfl, rfl⟩, fun _ _ _ _ => rfl⟩

variable (b : Bytes) (pending : List Buffer)

/-- Where the upload loop is, in `ReadMultiBuffer` or behind the loop. -/
inductive Loop where
  | reading | waiting | stopped
  deriving DecidableEq, Repr

/-- What `Write` has returned. -/
structure Returned where
  b : Bytes
  n : Nat
  failed : Bool
  deriving DecidableEq, Repr

/-- A chunk on its way: its number, its bytes as they came out of the pipe, the container the
request reads from, and what it has read. -/
structure Post where
  seq : Nat
  bytes : Bytes
  rest : List Buffer
  sent : Bytes := []
  deriving DecidableEq, Repr

open Post

structure State where
  data : List Buffer := []
  state : PipeState := .opened
  readSignal : Bool := false
  writeSignal : Bool := false
  /-- `p.done` is closed. -/
  done : Bool := false
  writer : Writer := .idle
  /-- The next buffer to be allocated. -/
  next : Nat := 0
  loop : Loop := .reading
  seq : Nat := 0
  posts : List Post := []
  /-- The arguments of `Write`, in order. -/
  begun : List Bytes := []
  returned : List Returned := []
  deriving DecidableEq, Repr

/-- `pipeOption.isFull`; the limit is that of `pipe.WithSizeLimit(maxUploadSize - buf.Size)`. -/
def isFull (max : Int) (curSize : Nat) : Bool :=
  let limit := max - bufSize
  0 ≤ limit && (curSize : Int) > limit

/-- What is left in the buffer with this number, if it is among these. -/
def lenOf (id : Nat) : List Buffer → Nat
  | [] => 0
  | buffer :: buffers => (if buffer.id = id then buffer.bytes.length else 0) + lenOf id buffers

variable (s : State)

/-- `buff.Len()`, wherever the buffer is: 0 once it has been released. -/
def State.len (id : Nat) : Nat := lenOf id s.data + lenOf id (s.posts.flatMap rest)

def State.finish (n : Nat) (failed : Bool) : State :=
  { s with writer := .idle, returned := s.returned ++ [⟨b, n, failed⟩] }

/-- The loop over the buffers of `Write` goes on, or is over. -/
def State.proceed (writed : Nat) : State :=
  if pending.isEmpty then s.finish b writed false
    else { s with writer := .pushing b pending writed }

/-- An attempt of `WriteMultiBuffer` with the first pending buffer. -/
def State.push (max : Int) (s : State) (b : Bytes) (buffer : Buffer) (pending : List Buffer)
    (writed : Nat) :
    State :=
  if buffer.bytes.isEmpty then { s with writer := .counting b buffer.id pending writed }
  else
    match s.state with
    | .opened =>
      if isFull max (contents s.data).length
        then { s with writer := .waiting b (buffer :: pending) writed }
      else
        { s with
          data := s.data ++ [buffer], readSignal := true, writer :=
            .counting b buffer.id pending writed }
    | .closed | .errord => { s with readSignal := true }.finish b writed true

/-- `ReadMultiBuffer` has returned a chunk, and the loop posts it. -/
def State.post : State :=
  { s with
    data := [], writeSignal := true, seq := s.seq + 1
    posts := s.posts ++ [⟨s.seq, contents s.data, s.data, []⟩] }

/-- An attempt of `ReadMultiBuffer`. -/
def State.take : State :=
  if s.state = .errord ∨ (s.state = .closed ∧ contents s.data = []) then
    { s with writeSignal := true, loop := .stopped }
  else if s.data.isEmpty then { s with loop := .waiting }
  else s.post

/-- `pipe.Interrupt`. -/
def State.interrupt : State :=
  if contents s.data = [] then
    if s.state = .opened then { s with state := .errord, done := true } else s
  else if s.state = .opened then { s with data := [], state := .errord, done := true }
  else { s with data := [], state := .errord }

/-- A request has read from its body, or closed it. -/
def State.setPost (k : Nat) (p : Post) : State := { s with posts := s.posts.set k p }

inductive Action where
  /-- The application calls `Write`. -/
  | write (b : Bytes)
  | push
  /-- The writer receives from `writeSignal`. -/
  | writeWake
  /-- The writer receives from `done`. -/
  | writeDone
  | count
  | take
  | readWake
  | readDone
  /-- A request reads from its body. -/
  | send (k n : Nat)
  /-- A request closes its body. -/
  | release (k : Nat)
  /-- `PostPacket` returns an error. -/
  | fail (k : Nat)
  /-- The application closes the connection. -/
  | close
  deriving DecidableEq, Repr

def step (max : Int) (s : State) : Action → Option State
  | .write b =>
    if s.writer = .idle then
      let buffers := mergeBytes s.next b
      some ({ s with next := s.next + buffers.length, begun := s.begun ++ [b] }.proceed b buffers 0)
    else none
  | .push =>
    match s.writer with
    | .pushing b (buffer :: pending) writed => some (s.push max b buffer pending writed)
    | _ => none
  | .writeWake =>
    match s.writer with
    | .waiting b pending writed =>
      if s.writeSignal then
        some { s with writeSignal := false, writer := .pushing b pending writed }
      else none
    | _ => none
  | .writeDone =>
    match s.writer with
    | .waiting b _ writed => if s.done then some (s.finish b writed true) else none
    | _ => none
  | .count =>
    match s.writer with
    | .counting b id pending writed => some (s.proceed b pending (writed + s.len id))
    | _ => none
  | .take => if s.loop = .reading then some s.take else none
  | .readWake =>
    if s.loop = .waiting ∧ s.readSignal
      then some { s with readSignal := false, loop := .reading } else none
  | .readDone => if s.loop = .waiting ∧ s.done then some { s with loop := .reading } else none
  | .send k n =>
    s.posts[k]?.map fun p =>
      let (read, rest) := splitBytes p.rest n
      s.setPost k { p with rest, sent := p.sent ++ read }
  | .release k => s.posts[k]?.map fun p => s.setPost k { p with rest := [] }
  | .fail k => s.posts[k]?.map fun _ => s.interrupt
  | .close =>
    if s.state = .opened then some { s with state := .closed, done := true } else some s

/-- What a step does, with the condition under which it does it. -/
inductive Steps (max : Int) (s : State) : Action → State → Prop
  | write (b : Bytes) (idle : s.writer = .idle) :
    Steps max s (.write b)
      ({ s with next := s.next + (mergeBytes s.next b).length, begun := s.begun ++ [b] }.proceed b
        (mergeBytes s.next b) 0)
  | pushEmpty {b : Bytes} {buffer : Buffer} {pending : List Buffer} {writed : Nat}
    (at_ : s.writer = .pushing b (buffer :: pending) writed) (empty : buffer.bytes = []) :
    Steps max s .push { s with writer := .counting b buffer.id pending writed }
  | pushFull {b : Bytes} {buffer : Buffer} {pending : List Buffer} {writed : Nat}
    (at_ : s.writer = .pushing b (buffer :: pending) writed) :
    Steps max s .push { s with writer := .waiting b (buffer :: pending) writed }
  | pushIn {b : Bytes} {buffer : Buffer} {pending : List Buffer} {writed : Nat}
    (at_ : s.writer = .pushing b (buffer :: pending) writed) (some_ : buffer.bytes ≠ [])
    (opened : s.state = .opened) (room : isFull max (contents s.data).length = false) :
    Steps max s .push
      { s with
        data := s.data ++ [buffer], readSignal := true,
        writer := .counting b buffer.id pending writed }
  | pushClosed {b : Bytes} {buffer : Buffer} {pending : List Buffer} {writed : Nat}
    (at_ : s.writer = .pushing b (buffer :: pending) writed) (over_ : s.state ≠ .opened) :
    Steps max s .push ({ s with readSignal := true }.finish b writed true)
  | writeWake {b : Bytes} {pending : List Buffer} {writed : Nat}
      (at_ : s.writer = .waiting b pending writed) :
    Steps max s .writeWake { s with writeSignal := false, writer := .pushing b pending writed }
  | writeDone {b : Bytes} {pending : List Buffer} {writed : Nat}
      (at_ : s.writer = .waiting b pending writed)
    (done : s.done = true) : Steps max s .writeDone (s.finish b writed true)
  | count {b : Bytes} {id : Nat} {pending : List Buffer} {writed : Nat}
    (at_ : s.writer = .counting b id pending writed) :
    Steps max s .count (s.proceed b pending (writed + s.len id))
  | takeStop : Steps max s .take { s with writeSignal := true, loop := .stopped }
  | takeWait : Steps max s .take { s with loop := .waiting }
  | takePost (some_ : s.data ≠ []) : Steps max s .take s.post
  | readWake : Steps max s .readWake { s with readSignal := false, loop := .reading }
  | readDone : Steps max s .readDone { s with loop := .reading }
  | send {k : Nat} (n : Nat) {p : Post} (at_ : s.posts[k]? = some p) :
    Steps max s (.send k n)
      (s.setPost k
        { p with rest := (splitBytes p.rest n).2, sent := p.sent ++ (splitBytes p.rest n).1 })
  | release {k : Nat} {p : Post} (at_ : s.posts[k]? = some p) :
    Steps max s (.release k) (s.setPost k { p with rest := [] })
  | fail (k : Nat) : Steps max s (.fail k) s.interrupt
  | close : Steps max s .close { s with state := .closed, done := true }
  | closed : Steps max s .close s

section
variable {max : Int} {s s' : State} {a : Action}

attribute [local grind intro] Steps

theorem take_steps : Steps max s .take s.take := by
  grind [State.take]

theorem step_steps (h : step max s a = some s') : Steps max s a s' := by
  cases a with
  | send k n | release k | fail k => grind [step, Option.map_eq_some_iff]
  | push => cases state : s.state <;> grind [step, State.push]
  | take => grind [step, take_steps]
  | _ => grind [step]

/-- What the loop of `Write` leaves alone. -/
@[simp] theorem proceed_frame (s : State) (b : Bytes) (pending : List Buffer) (writed : Nat) :
    (s.proceed b pending writed).data = s.data ∧ (s.proceed b pending writed).state = s.state ∧
    (s.proceed b pending writed).done = s.done ∧ (s.proceed b pending writed).posts = s.posts ∧
    (s.proceed b pending writed).seq = s.seq ∧ (s.proceed b pending writed).begun = s.begun := by
  unfold State.proceed
  split <;> exact ⟨rfl, rfl, rfl, rfl, rfl, rfl⟩

@[simp] theorem proceed_pending (s : State) (b : Bytes) (pending : List Buffer) (writed : Nat) :
    (s.proceed b pending writed).writer.pending = pending := by
  unfold State.proceed
  split <;> simp_all [State.finish]

/-- What `Interrupt` leaves alone, and what it may drop. -/
theorem interrupt_cases (s : State) : s.interrupt.state ≠ .opened ∧
    (s.interrupt.data = s.data ∨ s.interrupt.data = []) ∧
    s.interrupt = { s with
      data := s.interrupt.data, state := s.interrupt.state, done := s.interrupt.done } := by
  unfold State.interrupt
  split <;> split <;> simp_all

/-- The bytes that have been posted, in the order of the posts. -/
def State.posted (s : State) : Bytes := s.posts.flatMap bytes

/-- A chunk of the right size, and what its request has read of it. -/
structure Post.Fits (max : Int) (p : Post) : Prop where
  some_ : p.bytes ≠ []
  size : (p.bytes.length : Int) ≤ max
  sent : p.sent ++ contents p.rest <+: p.bytes

variable {p : Post} {k : Nat} {p' : Post}

theorem Post.Fits.send (h : p.Fits max) (n : Nat) :
    Fits max
      { p with rest := (splitBytes p.rest n).2, sent := p.sent ++ (splitBytes p.rest n).1 } := by
  refine ⟨h.some_, h.size, ?_⟩
  simpa only [append_assoc, splitBytes_contents] using h.sent

theorem Post.Fits.release (h : p.Fits max) : Fits max { p with rest := [] } := by
  refine ⟨h.some_, h.size, ?_⟩
  rw [contents_nil, append_nil]
  exact (prefix_append _ _).trans h.sent

/-- The sizes of what is in the pipe, before it and behind it. -/
structure Sized (max : Int) (s : State) : Prop where
  data : ((contents s.data).length : Int) ≤ max
  filled : ∀ buffer ∈ s.data, buffer.bytes ≠ []
  pending : ∀ buffer ∈ s.writer.pending, buffer.bytes ≠ [] ∧ buffer.bytes.length ≤ bufSize
  posts : ∀ p ∈ s.posts, p.Fits max

theorem Sized.setPost (h : Sized max s) (fits : p'.Fits max) : Sized max (s.setPost k p') := by
  refine ⟨h.data, h.filled, h.pending, fun p member => ?_⟩
  rcases mem_or_eq_of_mem_set member with old | rfl
  · exact h.posts p old
  · exact fits

theorem contents_ne_nil {buffers : List Buffer} (some_ : buffers ≠ [])
    (filled : ∀ buffer ∈ buffers, buffer.bytes ≠ []) : contents buffers ≠ [] := by
  cases buffers with
  | nil => exact absurd rfl some_
  | cons buffer buffers => simp [filled buffer mem_cons_self]

/-- The test is made before the buffer is added, with room for one more buffer left. -/
theorem pushIn_size {size more : Nat} (big : (bufSize : Int) < max) (small : more ≤ bufSize)
    (room : isFull max size = false) : ((size + more : Nat) : Int) ≤ max := by
  simp only [isFull, Bool.and_eq_false_iff, decide_eq_false_iff_not] at room
  omega

theorem Sized.step (big : (bufSize : Int) < max) (h : Sized max s) (taken : Steps max s a s') :
    Sized max s' := by
  have sized := h
  obtain ⟨data, filled, pending, posts⟩ := h
  cases taken with
  | write b idle =>
    refine ⟨by simpa using data, by simpa using filled, ?_, by simpa using posts⟩
    rw [proceed_pending]
    exact fun buffer member => mergeLoop_sizes member
  | @pushIn b buffer rest writed at_ some_ opened room =>
    rw [at_] at pending
    have small := (pending buffer mem_cons_self).2
    refine ⟨?_, by grind, fun buffer member => pending buffer (mem_cons_of_mem _ member), posts⟩
    simpa using pushIn_size big small room
  | count at_ =>
    rw [at_] at pending
    refine ⟨by simpa using data, by simpa using filled, ?_, by simpa using posts⟩
    rw [proceed_pending]
    exact pending
  | takePost some_ =>
    refine ⟨show ((0 : Nat) : Int) ≤ max by omega, nofun, pending, fun p member => ?_⟩
    rcases mem_append.mp member with old | new
    · exact posts p old
    · rw [mem_singleton.mp new]
      exact ⟨contents_ne_nil some_ filled, data, prefix_rfl⟩
  | send n at_ => exact sized.setPost ((posts _ (mem_of_getElem? at_)).send n)
  | release at_ => exact sized.setPost (posts _ (mem_of_getElem? at_)).release
  | fail k =>
    obtain ⟨_, dropped, same⟩ := interrupt_cases s
    rw [same]
    rcases dropped with kept | gone
    · rw [kept]
      exact ⟨data, filled, pending, posts⟩
    · rw [gone]
      exact ⟨show ((0 : Nat) : Int) ≤ max by omega, nofun, pending, posts⟩
  | _ => exact ⟨data, filled, by grind [Writer.pending, State.finish], posts⟩

/-- What a request does to a post changes neither its number nor the chunk. -/
theorem setPost_map {β : Type} (f : Post → β) (at_ : s.posts[k]? = some p) (same : f p' = f p) :
    (s.setPost k p').posts.map f = s.posts.map f := by
  have here := (List.getElem?_eq_some_iff.mp at_).2
  simp only [State.setPost, map_set, same, ← here]
  rw [← getElem_map f (h := by simpa using (List.getElem?_eq_some_iff.mp at_).1), set_getElem_self]

theorem setPost_posted (at_ : s.posts[k]? = some p) (same : p'.bytes = p.bytes) :
    (s.setPost k p').posted = s.posted := by
  rw [State.posted, flatMap_def, setPost_map bytes at_ same, ← flatMap_def, State.posted]

/-- The posts are numbered from 0. -/
structure Numbered (s : State) : Prop where
  seq : s.seq = s.posts.length
  posts : s.posts.map Post.seq = range s.posts.length

theorem Numbered.setPost (h : Numbered s) (at_ : s.posts[k]? = some p) (same : p'.seq = p.seq) :
    Numbered (s.setPost k p') := by
  have length : (s.setPost k p').posts.length = s.posts.length := length_set
  exact ⟨h.seq.trans length.symm, by rw [setPost_map Post.seq at_ same, h.posts, length]⟩

theorem Numbered.step (h : Numbered s) (taken : Steps max s a s') : Numbered s' := by
  have numbered := h
  obtain ⟨seq, posts⟩ := h
  cases taken with
  | write | count => exact ⟨by simpa using seq, by simpa using posts⟩
  | takePost some_ =>
    refine ⟨?_, ?_⟩
    · simp [State.post, seq]
    · simp [State.post, posts, range_succ, seq]
  | send n at_ | release at_ => exact numbered.setPost at_ rfl
  | fail k =>
    rw [(interrupt_cases s).2.2]
    exact ⟨seq, posts⟩
  | _ => exact ⟨seq, posts⟩

/-- While the pipe is open, everything written is posted, in the pipe or still to be put there, in
this order; afterwards no byte is added. -/
structure Ordered (s : State) : Prop where
  done : s.done = true → s.state ≠ .opened
  all : s.state = .opened → s.posted ++ contents s.data ++
    contents s.writer.pending = s.begun.flatten
  some_ : s.posted ++ contents s.data <+: s.begun.flatten

theorem Ordered.setPost (h : Ordered s) (at_ : s.posts[k]? = some p) (same : p'.bytes = p.bytes) :
    Ordered (s.setPost k p') := by
  refine ⟨h.done, fun opened => ?_, ?_⟩
  · rw [setPost_posted at_ same]
    exact h.all opened
  · rw [setPost_posted at_ same]
    exact h.some_

theorem Ordered.step (h : Ordered s) (taken : Steps max s a s') : Ordered s' := by
  have ordered := h
  obtain ⟨done, all, some_⟩ := h
  cases taken with
  | write b idle =>
    rw [idle] at all
    refine ⟨by simpa using done, fun opened => ?_, ?_⟩
    · have before := all (by simpa using opened)
      simp only [Writer.pending_eq, contents_nil, append_nil] at before
      simp [State.posted, ← before]
    · simp only [State.posted, proceed_frame, flatten_append]
      exact some_.trans (prefix_append _ _)
  | @pushEmpty b buffer pending writed at_ empty =>
    rw [at_] at all
    refine ⟨done, fun opened => ?_, some_⟩
    simpa [State.posted, empty] using all opened
  | pushIn at_ filled opened room =>
    rw [at_] at all
    have before := all opened
    refine ⟨done, fun _ => ?_, ?_⟩
    · simpa [State.posted] using before
    · rw [← before]
      simp [State.posted]
  | pushClosed at_ over_ => exact ⟨done, fun opened => absurd opened over_, some_⟩
  | writeDone at_ isDone => exact ⟨done, fun opened => absurd opened (done isDone), some_⟩
  | count at_ =>
    rw [at_] at all
    refine ⟨by simpa using done, fun opened => ?_, ?_⟩
    · simpa [State.posted] using all (by simpa using opened)
    · simpa [State.posted] using some_
  | takePost _ =>
    refine ⟨done, fun opened => ?_, ?_⟩
    · simpa [State.post, State.posted] using all opened
    · simpa [State.post, State.posted] using some_
  | send n at_ | release at_ => exact ordered.setPost at_ rfl
  | fail k =>
    obtain ⟨over_, dropped, same⟩ := interrupt_cases s
    refine ⟨fun _ => over_, fun opened => absurd opened over_, ?_⟩
    rw [same]
    rcases dropped with kept | gone
    · rw [kept]
      exact some_
    · rw [gone]
      exact (prefix_append_right_inj _).mpr (List.nil_prefix) |>.trans some_
  | close => exact ⟨fun _ => nofun, nofun, some_⟩
  | pushFull at_ | writeWake at_ =>
    rw [at_] at all
    exact ⟨done, all, some_⟩
  | _ => exact ⟨done, all, some_⟩

theorem inv_of_reachable (big : (bufSize : Int) < max) (h : Reachable (step max) {} s) :
    Sized max s ∧ Numbered s ∧ Ordered s := by
  refine @Run.invariant _ _ (step max) _ {} s (fun s => Sized max s ∧ Numbered s ∧
    Ordered s) h ?_ ?_
  · refine ⟨⟨?_, nofun, nofun, nofun⟩, ⟨rfl, rfl⟩, ⟨nofun, fun _ => rfl, prefix_rfl⟩⟩
    show ((0 : Nat) : Int) ≤ max
    omega
  · rintro s a s' ⟨sized, numbered, ordered⟩ - taken
    have steps := step_steps taken
    exact ⟨sized.step big steps, numbered.step steps, ordered.step steps⟩

end

/-- **The posts of packet-up mode.** In every interleaving: every chunk has a byte and at most
`maxUploadSize` of them, of which its request sends a prefix, the chunks are numbered from 0, and
put together they are a prefix of what has been written. -/
theorem uploads_in_order {option : Option Range} {roll : Nat} {max : Int}
    (size : maxUploadSize option roll = some max) {s : State} (h : Reachable (step max) {} s) :
    (∀ p ∈ s.posts, 0 < p.bytes.length ∧ (p.bytes.length : Int) ≤ max ∧ p.sent <+: p.bytes) ∧
    s.posts.map seq = range s.posts.length ∧
    s.posts.flatMap bytes <+: s.begun.flatten := by
  obtain ⟨sized, numbered, ordered⟩ := inv_of_reachable (maxUploadSize_gt size) h
  refine ⟨fun p member => ?_, numbered.posts, ?_⟩
  · have fits := sized.posts p member
    exact ⟨length_pos_iff.mpr fits.some_, fits.size, (prefix_append _ _).trans fits.sent⟩
  · exact (prefix_append _ _).trans ordered.some_

/-- Two writes that go out in one chunk, and a third one in another. -/
def threeWrites : List Action :=
  [.write [1, 2], .push, .count, .write [3], .push, .take, .count, .send 0 2, .write [4], .push,
    .count, .take]

theorem threeWrites_in_order : ∃ s, exec (step 1000000) {} threeWrites = some s ∧
    s.posts.map bytes = [[1, 2, 3], [4]] ∧
    (∀ p ∈ s.posts, 0 < p.bytes.length ∧ (p.bytes.length : Int) ≤ 1000000 ∧ p.sent <+: p.bytes) ∧
    s.posts.map seq = range s.posts.length ∧
    s.posts.flatMap bytes <+: s.begun.flatten := by
  obtain ⟨s, run⟩ :=
    Option.isSome_iff_exists.mp (show (exec (step 1000000) {} threeWrites).isSome by decide +kernel)
  have chunks : (exec (step 1000000) {} threeWrites).map (·.posts.map bytes) =
    some [[1, 2, 3], [4]] := by
    decide +kernel
  rw [run] at chunks
  have size : maxUploadSize none 0 = some 1000000 := rfl
  exact ⟨s, run, Option.some.inj chunks, uploads_in_order size (exec_reachable run)⟩

end AiboosterEngine.Xhttp.Upload
