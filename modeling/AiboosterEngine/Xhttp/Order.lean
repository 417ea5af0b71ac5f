import AiboosterEngine.Xhttp.UploadQueue

/-!
# Uploads arrive in order

Packets numbered `0, 1, 2, ...` come in any order and more than once.
-/

namespace AiboosterEngine.Xhttp
open GoSem List Heap Packet

section
variable {payloads : List Bytes}

/-- The packet is one of those numbered, or a copy. -/
def Whole (payloads : List Bytes) (p : Packet) : Prop := payloads[p.seq]? = some p.payload

/-- The calls considered: packets are pushed as they are numbered, buffers are not empty. -/
def Valid (payloads : List Bytes) : Action → Prop
  | .push p => Whole payloads p
  | .read len => 0 < len
  | _ => True

instance (a : Action) : Decidable (Valid payloads a) :=
  match a with
  | .push p => inferInstanceAs (Decidable (payloads[p.seq]? = some p.payload))
  | .read len => inferInstanceAs (Decidable (0 < len))
  | .receive | .iterate => isTrue trivial

/-- The length of the buffer at the top of the loop. -/
def Reader.looping : Reader → Option Nat
  | .loop len => some len
  | _ => none

/-- A packet that does not fit into the buffer has no second copy in the heap. -/
def KeepsPackets (q : Queue) (a : Action) : Prop :=
  a = .iterate → ∀ len ∈ q.reader.looping, ∀ top ∈ pop seq q.heap,
    top.1.seq = q.nextSeq → len < top.1.payload.length → ∀ r ∈ top.2.toList, r.seq ≠ q.nextSeq

instance (q : Queue) (a : Action) : Decidable (KeepsPackets q a) :=
  inferInstanceAs (Decidable (_ → _))

/-- No packet is partly read. -/
structure Untorn (payloads : List Bytes) (q : Queue) : Prop where
  whole : ∀ p ∈ q.heap.toList, Whole payloads p
  bytes : q.delivered = (payloads.take q.nextSeq).flatten

/-- The next packet is partly read: its rest is in the heap and no copy of it. -/
structure Torn (payloads : List Bytes) (q : Queue) (done rest : Bytes) : Prop where
  packet : payloads[q.nextSeq]? = some (done ++ rest)
  remainder : ∀ p ∈ q.heap.toList, p.seq = q.nextSeq → p.payload = rest
  whole : ∀ p ∈ q.heap.toList, p.seq ≠ q.nextSeq → Whole payloads p
  once : q.heap.toList.countP (·.seq == q.nextSeq) = 1
  bytes : q.delivered = (payloads.take q.nextSeq).flatten ++ done

/-- The length of the buffer of the call in progress. -/
def Reader.buffer : Reader → Option Nat
  | .first len | .loop len | .more len => some len
  | _ => none

def Reader.isWaiting : Reader → Bool
  | .first _ | .more _ => true
  | _ => false

/-- The invariant of the bytes returned. -/
structure InOrder (payloads : List Bytes) (q : Queue) : Prop where
  heap : IsHeap seq q.heap
  channel : ∀ p ∈ q.pushedPackets, Whole payloads p
  state : Untorn payloads q ∨
    (q.reader.isWaiting = false ∧ ∃ done rest, Torn payloads q done rest)
  buffer : ∀ len, q.reader.buffer = some len → 0 < len

theorem take_flatten_isPrefix (l : List Bytes) (k : Nat) : (l.take k).flatten <+: l.flatten := by
  refine ⟨(l.drop k).flatten, ?_⟩
  rw [← flatten_append, take_append_drop]

theorem take_succ_flatten {l : List Bytes} {k : Nat} {x : Bytes} (h : l[k]? = some x) :
    (l.take (k + 1)).flatten = (l.take k).flatten ++ x := by
  rw [take_add_one, h]
  simp

variable {q : Queue} {done : Bytes} {len : Nat} {packet : Packet} {heap : Array Packet}

theorem InOrder.isPrefix (h : InOrder payloads q) : q.delivered <+: payloads.flatten := by
  rcases h.state with untorn | ⟨_, done, rest, torn⟩
  · rw [untorn.bytes]
    exact take_flatten_isPrefix payloads q.nextSeq
  · refine List.IsPrefix.trans ⟨rest, ?_⟩ (take_flatten_isPrefix payloads (q.nextSeq + 1))
    rw [torn.bytes, take_succ_flatten torn.packet, append_assoc]

theorem InOrder.untorn (h : InOrder payloads q) (none : ∀ p ∈ q.heap.toList, p.seq ≠ q.nextSeq) :
    Untorn payloads q := by
  rcases h.state with untorn | ⟨_, done, rest, torn⟩
  · exact untorn
  · have zero : q.heap.toList.countP (·.seq == q.nextSeq) = 0 :=
      countP_eq_zero.mpr (by simpa using none)
    rw [torn.once] at zero
    cases zero

section
variable (seq : packet.seq = q.nextSeq)
  (content : payloads[q.nextSeq]? = some (done ++ packet.payload))
  (bytes : q.delivered = (payloads.take q.nextSeq).flatten ++ done)
  (others : ∀ p ∈ heap.toList, Whole payloads p)
include seq content bytes others

theorem deliver_untorn (fits : packet.payload.length ≤ len) :
    Untorn payloads (deliver len packet heap q) := by
  have all : min len packet.payload.length = packet.payload.length := Nat.min_eq_right fits
  unfold deliver
  simp only [all, Nat.lt_irrefl, if_false]
  refine ⟨others, ?_⟩
  show q.delivered ++ _ = (payloads.take (packet.seq + 1)).flatten
  rw [take_length, seq, take_succ_flatten content, bytes, append_assoc]

theorem deliver_torn (none : ∀ p ∈ heap.toList, p.seq ≠ q.nextSeq)
    (part : len < packet.payload.length) :
    Torn payloads (deliver len packet heap q) (done ++ packet.payload.take len)
      (packet.payload.drop len) := by
  have some : min len packet.payload.length = len := Nat.min_eq_left (Nat.le_of_lt part)
  have perm := push_perm Packet.seq heap { packet with payload := packet.payload.drop len }
  unfold deliver
  simp only [some, part, if_true]
  constructor
  · show payloads[q.nextSeq]? = _
    rw [content, append_assoc, take_append_drop]
  · grind
  · grind
  · show (push _ heap _).toList.countP (·.seq == q.nextSeq) = 1
    rw [perm.countP_eq, countP_cons, countP_eq_zero.mpr (by simpa using none)]
    simp [seq]
  · show q.delivered ++ _ = (payloads.take q.nextSeq).flatten ++ _
    rw [bytes, append_assoc]

end

theorem deliver_frame (len : Nat) (packet : Packet) (heap : Array Packet) (q : Queue) :
    (deliver len packet heap q).reader = .idle ∧
      (deliver len packet heap q).pushedPackets = q.pushedPackets := by
  unfold deliver
  simp only
  split <;> exact ⟨rfl, rfl⟩

theorem deliver_isHeap (isHeap : IsHeap seq heap) :
    IsHeap seq (deliver len packet heap q).heap := by
  unfold deliver
  simp only
  split
  · exact push_isHeap seq isHeap _
  · exact isHeap

section
variable {q : Queue} {len : Nat} {packet : Packet} {heap : Array Packet} (h : InOrder payloads q)
  (reading : q.reader = .loop len) (top : pop seq q.heap = some (packet, heap))
include h reading top

theorem InOrder.deliver (keeps : KeepsPackets q .iterate) (seq : packet.seq = q.nextSeq) :
    InOrder payloads (deliver len packet heap q) := by
  obtain ⟨perm, isHeap, _⟩ := pop_spec Packet.seq h.heap top
  obtain ⟨idle, channel⟩ := deliver_frame len packet heap q
  have mem : packet ∈ q.heap.toList := perm.mem_iff.mpr mem_cons_self
  have rest : ∀ p ∈ heap.toList, p ∈ q.heap.toList :=
    fun p hp => perm.mem_iff.mpr (mem_cons_of_mem _ hp)
  refine ⟨deliver_isHeap isHeap, by rw [channel]; exact h.channel, ?_, ?_⟩
  · obtain ⟨done, content, bytes, others, none⟩ : ∃ done,
      payloads[q.nextSeq]? = some (done ++ packet.payload) ∧
        q.delivered = (payloads.take q.nextSeq).flatten ++ done ∧
          (∀ p ∈ heap.toList, Whole payloads p) ∧
        (len < packet.payload.length → ∀ p ∈ heap.toList, p.seq ≠ q.nextSeq) := by
      rcases h.state with untorn | ⟨_, done, remaining, torn⟩
      · refine ⟨[], seq ▸ untorn.whole packet mem, by rw [untorn.bytes, append_nil],
          fun p hp => untorn.whole p (rest p hp),
            keeps rfl len (by rw [reading]; rfl) (packet, heap) top seq⟩
      · -- the rest of the torn packet is the only one with this number
        have none : ∀ p ∈ heap.toList, p.seq ≠ q.nextSeq := by
          have count := torn.once
          rw [perm.countP_eq, countP_cons, if_pos (by simp [seq])] at count
          have zero : heap.toList.countP (·.seq == q.nextSeq) = 0 := by omega
          simpa using countP_eq_zero.mp zero
        exact ⟨done, torn.remainder packet mem seq ▸ torn.packet, torn.bytes,
          fun p hp => torn.whole p (rest p hp) (none p hp), fun _ => none⟩
    by_cases part : len < packet.payload.length
    · exact .inr ⟨by rw [idle]; rfl, _, _, deliver_torn seq content bytes others (none part) part⟩
    · exact .inl (deliver_untorn seq content bytes others (by omega))
  · intro len' busy
    rw [idle] at busy
    cases busy

theorem InOrder.drop (old : packet.seq < q.nextSeq) :
    InOrder payloads { q with heap := heap, reader := .loop len } := by
  obtain ⟨perm, isHeap, _⟩ := pop_spec seq h.heap top
  have rest : ∀ p ∈ heap.toList, p ∈ q.heap.toList :=
    fun p hp => perm.mem_iff.mpr (mem_cons_of_mem _ hp)
  refine ⟨isHeap, h.channel, ?_, ?_⟩
  · rcases h.state with untorn | ⟨_, done, remaining, torn⟩
    · exact .inl ⟨fun p hp => untorn.whole p (rest p hp), untorn.bytes⟩
    · refine .inr ⟨rfl, done, remaining, torn.packet, fun p hp => torn.remainder p (rest p hp),
        fun p hp => torn.whole p (rest p hp), ?_, torn.bytes⟩
      have count := torn.once
      have other : ¬ (packet.seq == q.nextSeq) = true := by
        simp only [beq_iff_eq]
        omega
      rwa [perm.countP_eq, countP_cons, if_neg other, Nat.add_zero] at count
  · exact fun len' busy => h.buffer len' (by rw [reading]; exact busy)

end

theorem Untorn.push (h : Untorn payloads q) {p : Packet} (whole : Whole payloads p)
    (heap : Array Packet) (old : ∀ r ∈ heap.toList, r ∈ q.heap.toList) :
    ∀ r ∈ (push seq heap p).toList, Whole payloads r := by
  intro r mem
  rcases mem_cons.mp ((push_perm seq heap p).mem_iff.mp mem) with rfl | mem
  · exact whole
  · exact h.whole r (old r mem)

theorem InOrder.receive {p : Packet} {rest : List Packet} (h : InOrder payloads q)
    (waiting : q.reader = .first len ∨ q.reader = .more len)
    (channel : q.pushedPackets = p :: rest) :
    InOrder payloads { q with
      pushedPackets := rest, heap := push seq q.heap p, reader := .loop len } := by
  have untorn : Untorn payloads q := by
    rcases h.state with untorn | ⟨calm, _⟩
    · exact untorn
    · rcases waiting with w | w <;> rw [w] at calm <;> cases calm
  have whole : Whole payloads p := h.channel p (by rw [channel]; exact mem_cons_self)
  refine ⟨push_isHeap seq h.heap p, ?_, .inl ⟨?_, untorn.bytes⟩, ?_⟩
  · intro r mem
    exact h.channel r (by rw [channel]; exact mem_cons_of_mem _ mem)
  · exact untorn.push whole q.heap fun _ mem => mem
  · refine fun len' busy => h.buffer len' ?_
    rcases waiting with w | w <;> rw [w] <;> exact busy

theorem InOrder.iterate (h : InOrder payloads q) (reading : q.reader = .loop len)
    (top : pop seq q.heap = some (packet, heap)) (keeps : KeepsPackets q .iterate) :
    InOrder payloads (iterate len packet heap q) := by
  obtain ⟨perm, isHeap, least⟩ := pop_spec seq h.heap top
  have rest : ∀ p ∈ heap.toList, p ∈ q.heap.toList :=
    fun p hp => perm.mem_iff.mpr (mem_cons_of_mem _ hp)
  unfold Xhttp.iterate
  by_cases next : packet.seq = q.nextSeq
  · rw [if_pos next]
    exact h.deliver reading top keeps next
  · rw [if_neg next]
    by_cases later : packet.seq > q.nextSeq
    · rw [if_pos later]
      have untorn := h.untorn fun p mem => Nat.ne_of_gt (Nat.lt_of_lt_of_le later (least p mem))
      split
      · refine ⟨isHeap, h.channel, .inl ⟨fun p hp => untorn.whole p (rest p hp), untorn.bytes⟩, ?_⟩
        exact fun len' busy => (nomatch busy)
      · have whole := untorn.whole packet (perm.mem_iff.mpr mem_cons_self)
        refine ⟨push_isHeap seq isHeap packet, h.channel,
          .inl ⟨untorn.push whole heap rest, untorn.bytes⟩, ?_⟩
        exact fun len' busy => h.buffer len' (by rw [reading]; exact busy)
    · rw [if_neg later]
      exact h.drop reading top (by omega)

theorem step_inOrder {q' : Queue} {a : Action} (h : InOrder payloads q) (valid : Valid payloads a)
    (keeps : KeepsPackets q a) (taken : step q a = some q') : InOrder payloads q' := by
  cases a with
  | push p =>
    rw [step_push taken]
    refine ⟨h.heap, fun r mem => ?_, ?_, h.buffer⟩
    · rcases mem_append.mp mem with old | new
      · exact h.channel r old
      · rw [mem_singleton.mp new]
        exact valid
    · rcases h.state with untorn | ⟨calm, done, rest, torn⟩
      · exact .inl ⟨untorn.whole, untorn.bytes⟩
      · exact .inr ⟨calm, done, rest, torn.packet, torn.remainder, torn.whole,
          torn.once, torn.bytes⟩
  | read len =>
    obtain ⟨_, ⟨empty, rfl⟩ | ⟨_, rfl⟩⟩ := step_read taken
    · obtain ⟨whole, bytes⟩ := h.untorn (by rw [empty]; nofun)
      exact ⟨h.heap, h.channel, .inl ⟨whole, bytes⟩, fun len' busy => by cases busy; exact valid⟩
    · refine ⟨h.heap, h.channel, ?_, fun len' busy => by cases busy; exact valid⟩
      rcases h.state with untorn | ⟨_, done, rest, torn⟩
      · exact .inl ⟨untorn.whole, untorn.bytes⟩
      · exact .inr ⟨rfl, done, rest, torn.packet, torn.remainder, torn.whole, torn.once, torn.bytes⟩
  | receive =>
    obtain ⟨len, p, rest, waiting, channel, rfl⟩ := step_receive taken
    exact h.receive waiting channel
  | iterate =>
    obtain ⟨len, reading, ⟨packet, heap, top, rfl⟩ | ⟨empty, rfl⟩⟩ := step_iterate taken
    · exact h.iterate reading top keeps
    · obtain ⟨whole, bytes⟩ := h.untorn (by rw [empty]; nofun)
      exact ⟨h.heap, h.channel, .inl ⟨whole, bytes⟩, nofun⟩

end

end AiboosterEngine.Xhttp
