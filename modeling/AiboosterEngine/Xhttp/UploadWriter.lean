import AiboosterEngine.Xhttp.UploadPipe

/-!
# What `Write` reports

`uploadWriter.Write` adds up the lengths of its buffers after they have gone into
the pipe, where the other side may take them apart.
-/

namespace AiboosterEngine.Xhttp.Upload
open GoSem List State List.Sublist

@[simp] theorem lenOf_append (id : Nat) (buffers more : List Buffer) :
    lenOf id (buffers ++ more) = lenOf id buffers + lenOf id more := by
  induction buffers with
  | nil => simp [lenOf]
  | cons buffer buffers ih => simp [lenOf, ih, Nat.add_assoc]

variable {buffers : List Buffer}

theorem lenOf_eq_zero {id : Nat} (h : ∀ buffer ∈ buffers, buffer.id ≠ id) :
    lenOf id buffers = 0 := by
  induction buffers with
  | nil => rfl
  | cons buffer buffers ih => grind [lenOf]

theorem splitBytes_len_le (id : Nat) (buffers : List Buffer) (n : Nat) :
    lenOf id (splitBytes buffers n).2 ≤ lenOf id buffers := by
  induction buffers generalizing n with
  | nil => exact .refl
  | cons buffer buffers ih => grind [splitBytes, lenOf]

variable {k : Nat}

theorem set_len_le (id : Nat) {posts : List Post} {p p' : Post} (at_ : posts[k]? = some p)
    (less : lenOf id p'.rest ≤ lenOf id p.rest) :
    lenOf id ((posts.set k p').flatMap Post.rest) ≤ lenOf id (posts.flatMap Post.rest) := by
  induction posts generalizing k with
  | nil => exact .refl
  | cons q posts ih =>
    cases k with
    | zero =>
      cases at_
      simpa using less
    | succ k => simpa using ih at_

variable (s : State)

theorem setPost_len_le (id : Nat) {p p' : Post} (at_ : s.posts[k]? = some p)
    (less : lenOf id p'.rest ≤ lenOf id p.rest) : (s.setPost k p').len id ≤ s.len id :=
  Nat.add_le_add_left (set_len_le id at_ less) _

theorem interrupt_len_le (id : Nat) : s.interrupt.len id ≤ s.len id := by
  obtain ⟨_, kept | gone, same⟩ := interrupt_cases s
  · rw [same, kept]
    exact .refl
  · rw [same, gone]
    exact Nat.add_le_add_right (Nat.zero_le _) _

@[simp] theorem post_len (id : Nat) : s.post.len id = s.len id := by
  simp [post, len, lenOf, Nat.add_comm]

@[simp] theorem proceed_len (b : Bytes) (pending : List Buffer) (writed id : Nat) :
    (s.proceed b pending writed).len id = s.len id := by
  simp [len]

/-- The buffers in other hands. -/
def State.lent : List Buffer := s.data ++ s.posts.flatMap Post.rest

/-- Buffers go into the pipe in the order of their numbers. -/
structure Ids (s : State) : Prop where
  lent : ∀ buffer ∈ s.lent, buffer.id < s.next ∧ ∀ other ∈ s.writer.pending, buffer.id < other.id
  pending : ∀ buffer ∈ s.writer.pending, buffer.id < s.next
  sorted : s.writer.pending.Pairwise (·.id < ·.id)

section
variable {max : Int} {s s' : State} {a : Action}

/-- Steps that put nothing into the pipe. -/
theorem Ids.of_lent (h : Ids s) (next : s'.next = s.next)
    (lent : ∀ buffer ∈ s'.lent, ∃ before ∈ s.lent, before.id = buffer.id)
    (pending : s'.writer.pending.Sublist s.writer.pending) : Ids s' := by
  refine ⟨fun buffer member => ?_, fun buffer member => ?_, h.sorted.sublist pending⟩
  · obtain ⟨before, there, same⟩ := lent buffer member
    rw [← same, next]
    exact ⟨(h.lent before there).1, fun other rest =>
      (h.lent before there).2 other (pending.subset rest)⟩
  · rw [next]
    exact h.pending buffer (pending.subset member)

theorem mergeLoop_ids {fuel next : Nat} {src : Bytes} :
    (mergeLoop fuel next src).Pairwise (·.id < ·.id) ∧
      ∀ buffer ∈ mergeLoop fuel next src,
        next ≤ buffer.id ∧ buffer.id < next + (mergeLoop fuel next src).length := by
  induction fuel generalizing next src with
  | zero => exact ⟨.nil, by simp [mergeLoop]⟩
  | succ fuel ih =>
    rw [mergeLoop]
    split
    · exact ⟨.nil, by simp⟩
    · obtain ⟨sorted, bounds⟩ := @ih (next + 1) (src.drop bufSize)
      refine ⟨pairwise_cons.mpr ⟨fun buffer member => (bounds buffer member).1, sorted⟩, ?_⟩
      intro buffer member
      rw [length_cons]
      rcases mem_cons.mp member with rfl | later
      · exact ⟨.refl, by dsimp only; omega⟩
      · have := bounds buffer later
        omega

theorem splitBytes_ids {n : Nat} {buffer : Buffer}
    (h : buffer ∈ (splitBytes buffers n).2) : ∃ before ∈ buffers, before.id = buffer.id := by
  induction buffers generalizing n with
  | nil => cases h
  | cons first buffers ih => grind [splitBytes, mem_cons_of_mem, mem_cons.mp, mem_cons_self]

theorem setPost_ids {p p' : Post} (at_ : s.posts[k]? = some p)
    (ids : ∀ buffer ∈ p'.rest, ∃ before ∈ p.rest, before.id = buffer.id) :
    ∀ buffer ∈ (s.setPost k p').lent, ∃ before ∈ s.lent, before.id = buffer.id := by
  grind [lent, setPost, mem_or_eq_of_mem_set, mem_of_getElem?]

@[simp] theorem proceed_lent (s : State) (b : Bytes) (pending : List Buffer) (writed : Nat) :
    (s.proceed b pending writed).lent = s.lent := by
  simp [lent]

@[simp] theorem proceed_next (s : State) (b : Bytes) (pending : List Buffer) (writed : Nat) :
    (s.proceed b pending writed).next = s.next := by
  grind [proceed, finish]

theorem Ids.step (h : Ids s) (taken : Steps max s a s') : Ids s' := by
  -- Most steps leave the buffers where they are, or only shorten or drop some.
  have same : ∀ buffer ∈ s.lent, ∃ before ∈ s.lent, before.id = buffer.id :=
    fun buffer member => ⟨buffer, member, rfl⟩
  cases taken with
  | write b idle =>
    obtain ⟨sorted, bounds⟩ := @mergeLoop_ids b.length s.next b
    refine ⟨?_, ?_, ?_⟩
    · intro buffer member
      rw [proceed_lent] at member
      have before := (h.lent buffer member).1
      rw [proceed_next, proceed_pending]
      refine ⟨by dsimp only; omega, fun other new => ?_⟩
      have := (bounds other new).1
      omega
    · rw [proceed_pending, proceed_next]
      exact fun buffer member => (bounds buffer member).2
    · rw [proceed_pending]
      exact sorted
  | pushEmpty at_ empty => exact h.of_lent rfl same (by rw [at_]; exact sublist_cons_self _ _)
  | pushFull at_ | writeWake at_ => exact h.of_lent rfl same (by rw [at_]; exact refl _)
  | @pushIn b buffer pending writed at_ some_ opened room =>
    obtain ⟨lent, next, sorted⟩ := h
    simp only [at_, Writer.pending_eq] at lent next sorted
    obtain ⟨first, sorted⟩ := pairwise_cons.mp sorted
    refine ⟨?_, fun other member => next other (mem_cons_of_mem _ member), sorted⟩
    intro other member
    have cases_ : other ∈ s.lent ∨ other = buffer := by
      simp only [State.lent, mem_append, mem_singleton] at member ⊢
      tauto
    rcases cases_ with old | rfl
    · exact ⟨(lent other old).1, fun later rest =>
        (lent other old).2 later (mem_cons_of_mem _ rest)⟩
    · exact ⟨next other mem_cons_self, first⟩
  | pushClosed at_ _ | writeDone at_ _ => exact h.of_lent rfl same (nil_sublist _)
  | count at_ =>
    refine h.of_lent (proceed_next _ _ _ _) (by rw [proceed_lent]; exact same) ?_
    rw [proceed_pending, at_]
    exact refl _
  | takePost _ =>
    refine h.of_lent rfl (fun buffer member => ⟨buffer, ?_, rfl⟩) (refl _)
    simp only [State.lent, State.post, flatMap_append, mem_append] at member ⊢
    simp only [flatMap_cons, flatMap_nil, append_nil, not_mem_nil, false_or] at member
    exact member.symm
  | send n at_ => exact h.of_lent rfl (setPost_ids at_ fun _ => splitBytes_ids) (refl _)
  | release at_ => exact h.of_lent rfl (setPost_ids at_ (by simp)) (refl _)
  | fail k =>
    obtain ⟨_, dropped, interrupted⟩ := interrupt_cases s
    rw [interrupted]
    rcases dropped with kept | gone
    · rw [kept]
      exact h.of_lent rfl same (refl _)
    · rw [gone]
      refine h.of_lent rfl (fun buffer member => ⟨buffer, ?_, rfl⟩) (refl _)
      exact mem_append_right _ member
  | _ => exact h.of_lent rfl same (refl _)

theorem ids_of_reachable (h : Reachable (step max) {} s) : Ids s := by
  refine @Run.invariant _ _ (step max) _ {} s Ids h ⟨by simp [lent],
    by simp [Writer.pending], .nil⟩ ?_
  intro s a s' ids _ taken
  exact ids.step (step_steps taken)

/-- The first pending buffer is in no other hands. -/
theorem Ids.len_pending (h : Ids s) {buffer : Buffer} (member : buffer ∈ s.writer.pending) :
    s.len buffer.id = 0 := by
  rw [len, ← lenOf_append]
  apply lenOf_eq_zero
  intro other there
  exact Nat.ne_of_lt ((h.lent other there).2 buffer member)

/-- What `Write` returns if nothing more is taken from its buffers; what the last one has returned
when there is none under way. -/
def State.owed (s : State) : Nat :=
  match s.writer with
  | .idle => s.returned.getLast?.elim 0 Returned.n
  | .pushing _ pending writed | .waiting _ pending writed => writed + (contents pending).length
  | .counting _ id pending writed => writed + s.len id + (contents pending).length

/-- The step takes bytes of a buffer whose length the writer has not read yet. -/
def overtakes (max : Int) (s : State) (a : Action) : Bool :=
  match s.writer, step max s a with
  | .counting _ id _ _, some s' => s'.len id < s.len id
  | _, _ => false

/-- The last `Write`, if it is over, has not failed. -/
def Unfailed (s : State) : Prop :=
  s.writer = .idle → ∀ r, s.returned.getLast? = some r → r.failed = false

def Action.isWrite : Action → Bool
  | write _ => true
  | _ => false

theorem finish_failed (s : State) (b : Bytes) (n : Nat) : ¬ Unfailed (s.finish b n true) := by
  intro unfailed
  have := unfailed rfl ⟨b, n, true⟩ (by simp [finish])
  cases this

theorem proceed_owed (s : State) (b : Bytes) (pending : List Buffer) (writed : Nat) :
    (s.proceed b pending writed).owed = writed + (contents pending).length := by
  unfold proceed
  split
  · next empty => simp [finish, owed, List.isEmpty_iff.mp empty]
  · rfl

/-- A step of the other side: the writer stays where it is, and no buffer gets longer. -/
structure Aside (s s' : State) : Prop where
  writer : s'.writer = s.writer
  returned : s'.returned = s.returned
  len : ∀ id, s'.len id ≤ s.len id

/-- A step of the writer, which is at work in a `Write`; unless the `Write` fails there, the step
keeps what is to be counted. -/
structure Works (s s' : State) : Prop where
  busy : s.writer ≠ .idle
  owed : Unfailed s' → s'.owed = s.owed
  len : Unfailed s' → ∀ b id pending writed, s.writer = .counting b id pending writed →
    s'.len id = s.len id

theorem works_of {b : Bytes} {pending : List Buffer} {writed : Nat}
    (at_ : s.writer = .pushing b pending writed ∨ s.writer = .waiting b pending writed)
    (owed : Unfailed s' → s'.owed = writed + (contents pending).length) : Works s s' := by
  rcases at_ with at_ | at_ <;>
    exact ⟨by simp [at_], fun unfailed => by rw [owed unfailed, State.owed, at_],
      fun _ b id rest n other => by cases at_.symm.trans other⟩

theorem aside_or_works (ids : Ids s) (taken : Steps max s a s') (mine : a.isWrite = false) :
    Aside s s' ∨ Works s s' := by
  cases taken with
  | write => cases mine
  | @pushEmpty b buffer pending writed at_ empty =>
    have new : s.len buffer.id = 0 := ids.len_pending (by simp [at_])
    refine .inr (works_of (.inl at_) fun _ => ?_)
    show writed + s.len buffer.id + _ = _
    simp [new, empty]
  | pushFull at_ => exact .inr (works_of (.inl at_) fun _ => rfl)
  | @pushIn b buffer pending writed at_ some_ opened room =>
    have new : s.len buffer.id = 0 := ids.len_pending (by simp [at_])
    refine .inr (works_of (.inl at_) fun _ => ?_)
    simp only [len] at new
    simp only [owed, len, lenOf_append, lenOf, contents_cons, length_append, if_true]
    omega
  | pushClosed at_ _ =>
      exact .inr (works_of (.inl at_) fun unfailed => absurd unfailed (finish_failed _ _ _))
  | writeWake at_ => exact .inr (works_of (.inr at_) fun _ => rfl)
  | writeDone at_ _ =>
      exact .inr (works_of (.inr at_) fun unfailed => absurd unfailed (finish_failed _ _ _))
  | @count b id pending writed at_ =>
    refine .inr ⟨by simp [at_], fun _ => ?_, fun _ b id pending writed _ => proceed_len _ _ _ _ _⟩
    rw [proceed_owed, owed, at_]
  | takePost _ => exact .inl ⟨rfl, rfl, fun id => Nat.le_of_eq (post_len s id)⟩
  | send n at_ =>
      exact .inl ⟨rfl, rfl, fun id => setPost_len_le s id at_ (splitBytes_len_le id _ n)⟩
  | release at_ => exact .inl ⟨rfl, rfl, fun id => setPost_len_le s id at_ (Nat.zero_le _)⟩
  | fail k =>
    refine .inl ⟨?_, ?_, interrupt_len_le s⟩
    · rw [(interrupt_cases s).2.2]
    · rw [(interrupt_cases s).2.2]
  | _ => exact .inl ⟨rfl, rfl, fun id => .refl⟩

/-- What a step of the other side takes from the result of `Write`. -/
theorem Aside.owed (h : Aside s s') (taken : step max s a = some s') :
    s'.owed ≤ s.owed ∧ (s'.owed = s.owed ↔ overtakes max s a = false) := by
  unfold State.owed overtakes
  rw [h.writer, h.returned, taken]
  cases s.writer with
  | counting b id pending writed =>
    have less := h.len id
    simp only [decide_eq_false_iff_not]
    omega
  | _ => simp

theorem Works.owed_iff (h : Works s s') (taken : step max s a = some s') (unfailed : Unfailed s') :
    s'.owed ≤ s.owed ∧ (s'.owed = s.owed ↔ overtakes max s a = false) := by
  refine ⟨Nat.le_of_eq (h.owed unfailed), iff_of_true (h.owed unfailed) ?_⟩
  unfold overtakes
  rw [taken]
  cases at_ : s.writer with
  | counting b id pending writed => simp [h.len unfailed b id pending writed at_]
  | _ => rfl

/-- A `Write` that has failed stays failed until the next one. -/
theorem unfailed_back (ids : Ids s) (taken : Steps max s a s') (mine : a.isWrite = false)
    (h : Unfailed s') :
    Unfailed s := by
  intro idle
  rcases aside_or_works ids taken mine with aside | works
  · rw [← aside.returned]
    exact h (aside.writer.trans idle)
  · exact absurd idle works.busy

theorem run_owed {s₁ : State} {as : List Action} (ids : Ids s) (alone : ∀ a ∈ as, a.isWrite = false)
    (run : exec (step max) s as = some s₁) (unfailed : Unfailed s₁) :
    s₁.owed ≤ s.owed ∧ (s₁.owed = s.owed ↔ AllMet (step max) (overtakes max · · = false) s as) := by
  refine (exec_backward (P := Unfailed) (Q := fun s as => s₁.owed ≤ s.owed ∧
      (s₁.owed = s.owed ↔ AllMet (step max) (overtakes max · · = false) s as))
    run alone ids unfailed ?_ ?_ ?_ ?_).2
  · exact fun s a t ids _ taken => ids.step (step_steps taken)
  · exact fun s a t ids mine taken after => unfailed_back ids (step_steps taken) mine after
  · exact ⟨.refl, iff_of_true rfl trivial⟩
  · rintro s a t as ids mine taken after ⟨less, rest⟩
    have here : t.owed ≤ s.owed ∧ (t.owed = s.owed ↔ overtakes max s a = false) := by
      rcases aside_or_works ids (step_steps taken) mine with aside | works
      · exact aside.owed taken
      · exact works.owed_iff taken after
    -- The result is the same at the end exactly if it is kept by this step and by the rest.
    have both : s₁.owed = s.owed ↔ t.owed = s.owed ∧ s₁.owed = t.owed := by omega
    refine ⟨Nat.le_trans less here.1, ?_⟩
    rw [both, here.2, rest, AllMet]
    simp [taken]

/-- What the other side has got or will get. -/
def State.handed (s : State) : Bytes := s.posted ++ contents s.data

def Action.isFail : Action → Bool
  | fail _ => true
  | _ => false

theorem setPost_handed {p p' : Post} (at_ : s.posts[k]? = some p) (same : p'.bytes = p.bytes) :
    (s.setPost k p').handed = s.handed := by
  rw [handed, setPost_posted at_ same]
  rfl

theorem handed_step (taken : Steps max s a s') (mine : a.isWrite = false) (kept : a.isFail = false)
    (unfailed : Unfailed s') :
    s'.handed ++ contents s'.writer.pending = s.handed ++ contents s.writer.pending := by
  cases taken with
  | write => cases mine
  | fail => cases kept
  | pushEmpty at_ empty => simp [handed, posted, at_, empty]
  | pushFull at_ | pushIn at_ | writeWake at_ | count at_ => simp [handed, posted, at_]
  | pushClosed | writeDone => exact absurd unfailed (finish_failed _ _ _)
  | takePost _ => simp [handed, posted, post]
  | send _ at_ | release at_ =>
      exact congrArg (· ++ contents s.writer.pending) (setPost_handed at_ rfl)
  | _ => rfl

theorem run_handed {s₁ : State} {as : List Action} (ids : Ids s)
    (alone : ∀ a ∈ as, a.isWrite = false)
    (kept : ∀ a ∈ as, a.isFail = false) (run : exec (step max) s as = some s₁)
    (unfailed : Unfailed s₁) :
    s₁.handed ++ contents s₁.writer.pending = s.handed ++ contents s.writer.pending := by
  refine (exec_backward (P := Unfailed) (A := fun a => a.isWrite = false ∧ a.isFail = false)
    (Q := fun s _ => s₁.handed ++ contents s₁.writer.pending = s.handed ++
      contents s.writer.pending)
    run (fun a member => ⟨alone a member, kept a member⟩) ids unfailed ?_ ?_ ?_ ?_).2
  · exact fun s a t ids _ taken => ids.step (step_steps taken)
  · exact fun s a t ids mine taken after => unfailed_back ids (step_steps taken) mine.1 after
  · rfl
  · intro s a t as ids mine taken after rest
    rw [rest]
    exact handed_step (step_steps taken) mine.1 mine.2 after

end

/-- **What `Write` returns.** In a run of one `Write` that ends without an error, the number it
returns is the length of what it was given exactly when no step takes bytes of a buffer whose length
has not been read; and unless a request fails, the bytes come after those of earlier writes. -/
theorem write_reports_iff {max : Int} {s₀ s₁ : State} (h : Reachable (step max) {} s₀)
    {b : Bytes} {n : Nat} {as : List Action} (alone : ∀ a ∈ as, a.isWrite = false)
    (run : exec (step max) s₀ (.write b :: as) = some s₁) (idle : s₁.writer = .idle)
    (returned : s₁.returned.getLast? = some ⟨b, n, false⟩) :
    (n = b.length ↔ AllMet (step max) (overtakes max · · = false) s₀ (.write b :: as)) ∧
    ((∀ a ∈ as, a.isFail = false) → s₁.handed = s₀.handed ++ b) := by
  obtain ⟨t, begun, rest⟩ := Option.bind_eq_some_iff.mp run
  obtain ⟨ready, same⟩ := Option.ite_none_right_eq_some.mp begun
  have ids : Ids t := (ids_of_reachable h).step (step_steps begun)
  have unfailed : Unfailed s₁ := by
    intro _ r last
    rw [returned] at last
    cases last
    rfl
  have result : s₁.owed = n := by simp [owed, idle, returned]
  have asked : t.owed = b.length := by
    cases same
    simp [proceed_owed]
  constructor
  · have first : overtakes max s₀ (.write b) = false := by simp [overtakes, ready]
    rw [← result, ← asked, (run_owed ids alone rest unfailed).2, AllMet]
    simp [first, begun]
  · intro kept
    have bytes := run_handed ids alone kept rest unfailed
    rw [idle, Writer.pending_eq.1, contents_nil, append_nil] at bytes
    rw [bytes]
    cases same
    simp [handed, posted]

/-- The writer reads the length before the loop takes the buffer. -/
def readInTime : List Action := [.push, .count, .take, .send 0 3]

theorem readInTime_reports : ∃ s, exec (step 1000000) {} (.write [1, 2, 3] :: readInTime) = some s ∧
    s.returned = [⟨[1, 2, 3], 3, false⟩] ∧ s.handed = [1, 2, 3] := by
  obtain ⟨s, run⟩ := Option.isSome_iff_exists.mp
    (show (exec (step 1000000) {} (.write [1, 2, 3] :: readInTime)).isSome by decide +kernel)
  have ends : (exec (step 1000000) {} (.write [1, 2, 3] :: readInTime)).map
      (fun s => (s.writer, s.returned)) = some (.idle, [⟨[1, 2, 3], 3, false⟩]) := by decide +kernel
  rw [run] at ends
  obtain ⟨idle, returned⟩ := Prod.mk.inj (Option.some.inj ends)
  have bytes :=
    (write_reports_iff Run.start (by decide) run idle (by rw [returned]; rfl)).2 (by decide)
  exact ⟨s, run, returned, bytes⟩

/-- The loop takes the buffer and the request sends its bytes before the writer reads the length. -/
def sentInBetween : List Action := [.push, .take, .send 0 3, .count]

/-- `Write` returns 0 and no error, and all three bytes have been sent. -/
theorem sentInBetween_reports_nothing :
    (exec (step 1000000) {} (.write [1, 2, 3] :: sentInBetween)).map
      (fun s => (s.returned, s.posts.map Post.sent)) =
        some ([⟨[1, 2, 3], 0, false⟩], [[1, 2, 3]]) := by
  decide +kernel

end AiboosterEngine.Xhttp.Upload
