import AiboosterEngine.Xhttp.Order
import Mathlib.Algebra.GroupWithZero.Nat

/-!
# Uploads arrive completely
-/

namespace AiboosterEngine.Xhttp
open GoSem List Heap Queue Packet

section
variable {payloads : List Bytes}

/-- What a call of `Read` can use up: a byte, or the packet itself. -/
def weight (packets : List Packet) : Nat := (packets.map fun p => p.payload.length + 1).sum

theorem weight_cons (p : Packet) (packets : List Packet) :
    weight (p :: packets) = p.payload.length + 1 + weight packets := by
  simp [weight]

theorem weight_append (packets more : List Packet) :
    weight (packets ++ more) = weight packets + weight more := by
  simp [weight]

theorem weight_perm {packets packets' : List Packet} (h : packets.Perm packets') :
    weight packets = weight packets' :=
  (h.map _).sum_nat

theorem push_size (h : Array Packet) (p : Packet) :
    (push seq h p).size = h.size + 1 := by
  have := (push_perm seq h p).length_eq
  simpa using this

/-- A call that has dropped all of the heap is going to return with nothing. -/
def Queue.credit (q : Queue) : Nat :=
  match q.reader with
  | .loop _ => if q.heap.isEmpty then 1 else 0
  | _ => 0

/-- `present`: a packet pushed is delivered or still there, until the queue gives up.
`budget`: the calls that have returned have used up something each. -/
structure Accounted (q : Queue) : Prop where
  present : q.tooLarge = false → ∀ p ∈ q.pushed, p.seq < q.nextSeq ∨
    ∃ r, (r ∈ q.pushedPackets ∨ r ∈ q.heap.toList) ∧ r.seq = p.seq
  budget : q.reads + weight q.pushedPackets + weight q.heap.toList + q.credit ≤ weight q.pushed
  first : ∀ len, q.reader = .first len → q.heap = #[]
  more : ∀ len, q.reader = .more len → ∀ r ∈ q.heap.toList, q.nextSeq < r.seq

section
variable {q : Queue} {len : Nat} {packet : Packet} {heap : Array Packet}

theorem Accounted.deliver (h : Accounted q) (perm : q.heap.toList.Perm (packet :: heap.toList))
    (reading : q.reader = .loop len) (pos : 0 < len) (seq : packet.seq = q.nextSeq) :
    Accounted (deliver len packet heap q) := by
  have total : weight q.heap.toList = packet.payload.length + 1 + weight heap.toList := by
    rw [weight_perm perm, weight_cons]
  have budget := h.budget
  have present := h.present
  unfold Xhttp.deliver
  simp only
  by_cases part : min len packet.payload.length < packet.payload.length
  · have pushed := push_perm Packet.seq heap
      { packet with payload := packet.payload.drop (min len packet.payload.length) }
    have left := weight_perm pushed
    rw [weight_cons, length_drop] at left
    rw [if_pos part]
    exact ⟨by grind [mem_cons.mp, mem_cons_self, mem_cons_of_mem], by grind [credit],
      nofun, nofun⟩
  · rw [if_neg part]
    exact ⟨by grind, by grind [credit], nofun, nofun⟩

theorem Accounted.iterate (h : Accounted q) (isHeap : IsHeap seq q.heap)
    (top : pop seq q.heap = some (packet, heap)) (reading : q.reader = .loop len)
    (pos : 0 < len) : Accounted (iterate len packet heap q) := by
  obtain ⟨perm, _, least⟩ := pop_spec seq isHeap top
  have total : weight q.heap.toList = packet.payload.length + 1 + weight heap.toList := by
    rw [weight_perm perm, weight_cons]
  have budget := h.budget
  have present := h.present
  unfold Xhttp.iterate
  by_cases next : packet.seq = q.nextSeq
  · rw [if_pos next]
    exact h.deliver perm reading pos next
  · rw [if_neg next]
    by_cases later : packet.seq > q.nextSeq
    · rw [if_pos later]
      split
      · exact ⟨nofun, by grind [credit], nofun, nofun⟩
      · have pushed := push_perm seq heap packet
        have same : ∀ r, r ∈ (push seq heap packet).toList ↔ r ∈ q.heap.toList :=
          fun r => pushed.mem_iff.trans perm.mem_iff.symm
        have left := weight_perm pushed
        rw [weight_cons] at left
        exact ⟨by grind, by grind [credit], nofun, by grind⟩
    · rw [if_neg later]
      exact ⟨by grind, by grind [credit], nofun, nofun⟩

end

variable {q q' : Queue} {a : Action}

theorem step_accounted (h : Accounted q) (order : InOrder payloads q)
    (taken : step q a = some q') : Accounted q' := by
  have budget := h.budget
  have present := h.present
  cases a with
  | push p =>
    rw [step_push taken]
    refine ⟨by grind, ?_, h.first, h.more⟩
    show q.reads + weight (q.pushedPackets ++ [p]) + weight q.heap.toList + q.credit ≤
      weight (q.pushed ++ [p])
    rw [weight_append, weight_append]
    omega
  | read len =>
    obtain ⟨idle, ⟨empty, rfl⟩ | ⟨some, rfl⟩⟩ := step_read taken
    · exact ⟨by grind, by grind [credit], fun _ _ => empty, nofun⟩
    · exact ⟨by grind, by grind [credit], nofun, nofun⟩
  | receive =>
    obtain ⟨len, p, rest, waiting, channel, rfl⟩ := step_receive taken
    have pushed := push_perm seq q.heap p
    have size := push_size q.heap p
    rw [channel, weight_cons] at budget
    have left := weight_perm pushed
    rw [weight_cons] at left
    exact ⟨by grind, by grind [credit], nofun, nofun⟩
  | iterate =>
    obtain ⟨len, reading, ⟨packet, heap, top, rfl⟩ | ⟨empty, rfl⟩⟩ := step_iterate taken
    · exact h.iterate order.heap top reading (order.buffer len (by rw [reading]; rfl))
    · exact ⟨by grind, by grind [credit], nofun, nofun⟩

def Action.isInternal : Action → Bool
  | .receive | .iterate => true
  | _ => false

/-- A bound on the steps of `Read` with the packets there are. -/
def Queue.work (q : Queue) : Nat :=
  4 * q.pushedPackets.length + 2 * q.heap.size +
    match q.reader with
    | .loop _ => 1
    | _ => 0

theorem pop_size {h h' : Array Packet} {p : Packet} (isHeap : IsHeap seq h)
    (top : pop seq h = some (p, h')) : h.size = h'.size + 1 := by
  have := (pop_spec seq isHeap top).1.length_eq
  simpa using this

section
variable (isHeap : IsHeap seq q.heap)
include isHeap

theorem internal_work (internal : a.isInternal = true) (taken : step q a = some q') :
    q'.work < q.work := by
  cases a with
  | push p => cases internal
  | read len => cases internal
  | receive => grind [work, push_size, step_receive]
  | iterate =>
    obtain ⟨len, reading, ⟨packet, heap, top, rfl⟩ | ⟨empty, rfl⟩⟩ := step_iterate taken
    · have size := pop_size isHeap top
      have pushed := push_size heap
      unfold iterate deliver
      grind [work]
    · grind [work]

theorem internal_isHeap (taken : step q a = some q') : IsHeap seq q'.heap := by
  cases a with
  | push p => rw [step_push taken]; exact isHeap
  | read len => obtain ⟨_, ⟨_, rfl⟩ | ⟨_, rfl⟩⟩ := step_read taken <;> exact isHeap
  | receive =>
    obtain ⟨len, p, rest, _, _, rfl⟩ := step_receive taken
    exact push_isHeap seq isHeap p
  | iterate =>
    obtain ⟨len, _, ⟨packet, heap, top, rfl⟩ | ⟨_, rfl⟩⟩ := step_iterate taken
    · have popped := (pop_spec seq isHeap top).2.1
      grind [iterate, deliver_isHeap, push_isHeap]
    · exact isHeap

/-- `Read` takes no more steps than there is work, unless packets arrive. -/
theorem internal_bounded {as : List Action} (internal : ∀ a ∈ as, a.isInternal = true)
    (run : exec step q as = some q') : as.length ≤ q.work :=
  exec_length_le run isHeap (fun _ _ _ isHeap taken => internal_isHeap isHeap taken)
    fun _ a _ mem isHeap taken => internal_work isHeap (internal a mem) taken

end

def AllPushed (payloads : List Bytes) (q : Queue) : Prop :=
  ∀ k, k < payloads.length → ∃ p ∈ q.pushed, p.seq = k

/-- With nothing left in the channel and none of the heap to come, all is delivered. -/
theorem delivered_of_empty (order : InOrder payloads q) (accounted : Accounted q)
    (all : AllPushed payloads q) (ok : q.tooLarge = false) (channel : q.pushedPackets = [])
    (later : ∀ r ∈ q.heap.toList, q.nextSeq < r.seq) : q.delivered = payloads.flatten := by
  have done : payloads.length ≤ q.nextSeq := by
    rcases Nat.lt_or_ge q.nextSeq payloads.length with short | enough
    · obtain ⟨p, mem, seq⟩ := all q.nextSeq short
      rcases accounted.present ok p mem with old | ⟨r, inChannel | inside, eq⟩
      · omega
      · rw [channel] at inChannel
        cases inChannel
      · have := later r inside
        omega
    · exact enough
  have untorn := order.untorn fun r mem => Nat.ne_of_gt (later r mem)
  rw [untorn.bytes, take_of_length_le done]

/-- What a reader may rely on: the bytes are a beginning of the payloads; with all packets
pushed, as many calls as there are bytes and packets return them all, and a call that has
not returned can go on until they are all returned; no call takes for ever. -/
structure DeliversInOrder (payloads : List Bytes) (q : Queue) : Prop where
  ordered : q.delivered <+: payloads.flatten
  complete : AllPushed payloads q → q.tooLarge = false → weight q.pushed ≤ q.reads →
    q.delivered = payloads.flatten
  goesOn : AllPushed payloads q → q.tooLarge = false → q.reader ≠ .idle →
    q.delivered ≠ payloads.flatten → ∃ a, a.isInternal = true ∧ (step q a).isSome = true
  returns : ∀ as q', (∀ a ∈ as, a.isInternal = true) → exec step q as = some q' →
    as.length ≤ q.work

theorem deliversInOrder (order : InOrder payloads q) (accounted : Accounted q) :
    DeliversInOrder payloads q := by
  refine ⟨order.isPrefix, ?_, ?_, fun as q' internal run =>
    internal_bounded order.heap internal run⟩
  · intro all ok enough
    have budget := accounted.budget
    have channel : q.pushedPackets = [] := by
      cases here : q.pushedPackets with
      | nil => rfl
      | cons p rest => rw [here, weight_cons] at budget; omega
    refine delivered_of_empty order accounted all ok channel fun r mem => ?_
    have : 0 < weight q.heap.toList := by
      obtain ⟨a, b, split⟩ := append_of_mem mem
      rw [split, weight_append, weight_cons]
      omega
    omega
  · intro all ok busy missing
    cases reader : q.reader with
    | idle => exact absurd reader busy
    | loop len =>
      refine ⟨.iterate, rfl, ?_⟩
      simp only [step, reader]
      split <;> rfl
    | first len =>
      cases channel : q.pushedPackets with
      | cons p rest => exact ⟨.receive, rfl, by simp [step, reader, channel]⟩
      | nil =>
        refine absurd (delivered_of_empty order accounted all ok channel ?_) missing
        rw [accounted.first len reader]
        intro r mem
        cases mem
    | more len =>
      cases channel : q.pushedPackets with
      | cons p rest => exact ⟨.receive, rfl, by simp [step, reader, channel]⟩
      | nil =>
        exact absurd (delivered_of_empty order accounted all ok channel
          (accounted.more len reader)) missing

theorem new_inOrder (maxPackets : Nat) : InOrder payloads { maxPackets := maxPackets } := by
  refine ⟨?_, fun _ h => (nomatch h), .inl ⟨fun _ h => (nomatch h), rfl⟩, fun _ h => (nomatch h)⟩
  intro d c _ inside
  exact absurd inside (Nat.not_lt_zero c)

theorem new_accounted (maxPackets : Nat) : Accounted { maxPackets := maxPackets } :=
  ⟨fun _ _ h => (nomatch h), .refl, fun _ h => (nomatch h), fun _ h => (nomatch h)⟩

/-- In every run of pushes and reads in which a packet that is read in part has no second
copy in the heap, the bytes arrive in order and completely. -/
theorem delivers_of_run (payloads : List Bytes) (maxPackets : Nat) {q : Queue}
    (run : Run step (fun q a => Valid payloads a ∧ KeepsPackets q a)
      { maxPackets := maxPackets } q) : DeliversInOrder payloads q := by
  have both : (fun q => InOrder payloads q ∧ Accounted q) q :=
    run.invariant (And.intro (new_inOrder maxPackets) (new_accounted maxPackets))
      fun _ _ _ inv met taken => And.intro (step_inOrder inv.1 met.1 met.2 taken)
        (step_accounted inv.2 inv.1 taken)
  exact deliversInOrder both.1 both.2

end

/-- The channel is full at most, and the heap as large as a receive and a rest make it. -/
structure Bounded (maxPackets : Nat) (q : Queue) : Prop where
  max : q.maxPackets = maxPackets
  isHeap : IsHeap seq q.heap
  channel : q.pushedPackets.length ≤ maxPackets
  heap : q.heap.size ≤ maxPackets + 2
  waiting : q.reader.isWaiting = true → q.heap.size ≤ maxPackets + 1

theorem Bounded.step {maxPackets : Nat} {q q' : Queue} {a : Action} (bounded : Bounded maxPackets q)
    (taken : step q a = some q') : Bounded maxPackets q' := by
  have isHeap' := internal_isHeap bounded.isHeap taken
  obtain ⟨max, isHeap, channel, heap, waiting⟩ := bounded
  cases a with
  | push p =>
    obtain ⟨room, rfl⟩ := of_guard taken
    exact ⟨max, isHeap, by simp; omega, heap, waiting⟩
  | read len =>
    obtain ⟨_, ⟨empty, rfl⟩ | ⟨_, rfl⟩⟩ := step_read taken
    · exact ⟨max, isHeap, channel, heap, by simp [empty]⟩
    · exact ⟨max, isHeap, channel, heap, nofun⟩
  | receive =>
    obtain ⟨len, p, rest, reader, there, rfl⟩ := step_receive taken
    have small := waiting (by rcases reader with h | h <;> rw [h] <;> rfl)
    have size := push_size q.heap p
    exact ⟨max, isHeap', by grind, by dsimp; omega, nofun⟩
  | iterate =>
    obtain ⟨len, reading, ⟨packet, rest, top, rfl⟩ | ⟨empty, rfl⟩⟩ := step_iterate taken
    · have size := pop_size isHeap top
      have pushed := push_size rest
      refine ⟨?_, isHeap', ?_, ?_, ?_⟩ <;> unfold iterate deliver <;> grind [Reader.isWaiting]
    · exact ⟨max, isHeap, channel, heap, nofun⟩

/-- Whatever is pushed and read, a queue holds no more packets than its channel and its heap have
room for. -/
theorem kept_bounded {maxPackets : Nat} {q : Queue} (run : Reachable step { maxPackets } q) :
    q.pushedPackets.length + q.heap.size ≤ 2 * maxPackets + 2 := by
  have empty : IsHeap seq (#[] : Array Packet) := by simp [IsHeap, Ordered]
  have bounded : Bounded maxPackets q :=
    run.invariant ⟨rfl, empty, by simp, by simp, by simp⟩ fun _ _ _ inv _ taken => inv.step taken
  have channel := bounded.channel
  have heap := bounded.heap
  omega

def twoPayloads : List Bytes := [utf8 "a", utf8 "bc"]

def numberZero : Packet := ⟨utf8 "a", 0⟩

def numberOne : Packet := ⟨utf8 "bc", 1⟩

/-- The second packet comes first, and is read in two pieces. -/
theorem swapped_delivers : ∃ q,
    exec step {} [.push numberOne, .push numberZero, .read 1, .receive, .iterate, .receive,
      .iterate, .read 1, .iterate, .read 1, .iterate] = some q ∧
      q.delivered = utf8 "abc" ∧ DeliversInOrder twoPayloads q := by
  have trace : exec step {} [.push numberOne, .push numberZero, .read 1, .receive, .iterate,
      .receive, .iterate, .read 1, .iterate, .read 1, .iterate]
        = some { pushed := [numberOne, numberZero], nextSeq := 2, delivered := utf8 "abc",
                 reads := 3 } := by
    decide +kernel
  exact ⟨_, trace, rfl, delivers_of_run twoPayloads 30 (exec_run trace (by decide +kernel))⟩

/-- A channel of one place, which is full again when its packet is in the heap. -/
theorem one_place_bounded : ∃ q, Reachable step { maxPackets := 1 } q ∧
    q.heap.size = 1 ∧ q.pushedPackets.length + q.heap.size ≤ 4 := by
  have trace : exec step { maxPackets := 1 } [.push numberOne, .read 1, .receive, .push numberZero]
      = some {
        maxPackets := 1, pushedPackets := [numberZero], heap := #[numberOne], reader := .loop 1,
        pushed := [numberOne, numberZero] } := by
    decide +kernel
  exact ⟨_, exec_reachable trace, rfl, kept_bounded (exec_reachable trace)⟩

/-- The second packet is pushed twice before the first, and read byte by byte: the copy comes
out of the heap before the rest of the packet. -/
theorem copy_delivered_again : ∃ q,
    Run step (fun _ a => Valid twoPayloads a) {} q ∧ q.delivered = utf8 "abb" ∧
      ¬ DeliversInOrder twoPayloads q := by
  have trace : exec step {} [.push numberOne, .push numberOne, .push numberZero, .read 1, .receive,
      .iterate, .receive, .iterate, .receive, .iterate, .read 1, .iterate, .read 1, .iterate]
        = some {
          pushed := [numberOne, numberOne, numberZero], heap := #[⟨utf8 "c", 1⟩, ⟨utf8 "c", 1⟩],
          nextSeq := 1, delivered := utf8 "abb", reads := 3 } := by
    decide +kernel
  refine ⟨_, exec_run trace (by decide +kernel), rfl, fun delivers => ?_⟩
  exact absurd delivers.ordered (by decide)

end AiboosterEngine.Xhttp
