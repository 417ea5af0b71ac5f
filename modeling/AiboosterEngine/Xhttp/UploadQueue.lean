import AiboosterEngine.GoSem.Heap
import AiboosterEngine.GoSem.Steps
import AiboosterEngine.GoSem.Text
import Mathlib.Order.Nat

/-!
# The upload queue

`transport/v2rayxhttp/upload_queue.go`, for packets that carry a payload:
`Push` sends them through a bounded channel, `Read` puts them in order with a
heap. A step of the reader is what `Read` does between two receives; `Close`
is not called.
-/

namespace AiboosterEngine.Xhttp
open GoSem

structure Packet where
  payload : Bytes
  seq : Nat
  deriving DecidableEq, Repr

open Packet

/-- Where the reader is: between two calls; at the first receive of `Read`, with the length
of its buffer; at the top of the loop; at the receive in the loop. -/
inductive Reader where
  | idle
  | first (len : Nat)
  | loop (len : Nat)
  | more (len : Nat)
  deriving DecidableEq, Repr

/-- `pushed`, `delivered`, `reads` and `tooLarge` record what was pushed, the bytes returned, the
calls that have returned, and that one has returned the error that the queue is too large. -/
structure Queue where
  maxPackets : Nat := 30
  pushedPackets : List Packet := []
  heap : Array Packet := #[]
  nextSeq : Nat := 0
  reader : Reader := .idle
  pushed : List Packet := []
  delivered : Bytes := []
  reads : Nat := 0
  tooLarge : Bool := false
  deriving DecidableEq, Repr

inductive Action where
  | push (p : Packet)
  /-- `Read` is called with a buffer of this length. -/
  | read (len : Nat)
  | receive
  /-- One iteration of the loop of `Read`. -/
  | iterate
  deriving DecidableEq, Repr

/-- `Read` returns the first bytes of the next packet. What does not fit into the buffer
goes back into the heap under the old number. -/
def deliver (len : Nat) (packet : Packet) (heap : Array Packet) (q : Queue) : Queue :=
  let n := min len packet.payload.length
  let q := { q with
    delivered := q.delivered ++ packet.payload.take n
    reader := .idle
    reads := q.reads + 1 }
  if n < packet.payload.length then
    { q with heap := Heap.push seq heap { packet with payload := packet.payload.drop n } }
  else { q with heap := heap, nextSeq := packet.seq + 1 }

/-- The body of the loop, `packet` being taken from the heap. -/
def iterate (len : Nat) (packet : Packet) (heap : Array Packet) (q : Queue) : Queue :=
  if packet.seq = q.nextSeq then deliver len packet heap q
  else if packet.seq > q.nextSeq then
    if heap.size > q.maxPackets then
      { q with heap := heap, reader := .idle, reads := q.reads + 1, tooLarge := true }
    else { q with heap := Heap.push seq heap packet, reader := .more len }
  else { q with heap := heap, reader := .loop len }

def step (q : Queue) : Action → Option Queue
  | .push p =>
    if q.pushedPackets.length < q.maxPackets then
      some { q with pushedPackets := q.pushedPackets ++ [p], pushed := q.pushed ++ [p] }
    else none
  | .read len =>
    match q.reader with
    | .idle => some { q with reader := if q.heap.isEmpty then .first len else .loop len }
    | _ => none
  | .receive =>
    match q.reader, q.pushedPackets with
    | .first len, p :: rest | .more len, p :: rest =>
      some { q with
        pushedPackets := rest, heap := Heap.push seq q.heap p, reader := .loop len }
    | _, _ => none
  | .iterate =>
    match q.reader with
    | .loop len =>
      match Heap.pop seq q.heap with
      | some (packet, heap) => some (iterate len packet heap q)
      | none => some { q with reader := .idle, reads := q.reads + 1 }
    | _ => none

section
variable {q q' : Queue}

theorem step_push {p : Packet} (h : step q (.push p) = some q') :
    q' = { q with pushedPackets := q.pushedPackets ++ [p], pushed := q.pushed ++ [p] } := by
  simp only [step] at h
  split at h
  · cases h
    rfl
  · cases h

theorem step_read {len : Nat} (h : step q (.read len) = some q') :
    q.reader = .idle ∧
      ((q.heap = #[] ∧ q' = { q with reader := .first len }) ∨
        (q.heap ≠ #[] ∧ q' = { q with reader := .loop len })) := by
  simp only [step] at h
  split at h
  · rename_i idle
    cases h
    refine ⟨idle, ?_⟩
    by_cases empty : q.heap = #[]
    · exact .inl ⟨empty, by simp [empty]⟩
    · exact .inr ⟨empty, by simp [empty]⟩
  · cases h

theorem step_receive (h : step q .receive = some q') :
    ∃ len p rest, (q.reader = .first len ∨ q.reader = .more len) ∧ q.pushedPackets = p :: rest ∧
      q' = { q with
        pushedPackets := rest, heap := Heap.push seq q.heap p, reader := .loop len } := by
  simp only [step] at h
  split at h
  · rename_i len p rest reader channel
    cases h
    exact ⟨len, p, rest, .inl reader, channel, rfl⟩
  · rename_i len p rest reader channel
    cases h
    exact ⟨len, p, rest, .inr reader, channel, rfl⟩
  · cases h

theorem step_iterate (h : step q .iterate = some q') :
    ∃ len, q.reader = .loop len ∧
      ((∃ packet heap, Heap.pop seq q.heap = some (packet, heap) ∧
        q' = iterate len packet heap q) ∨
      (q.heap = #[] ∧ q' = { q with reader := .idle, reads := q.reads + 1 })) := by
  simp only [step] at h
  split at h
  · rename_i len reader
    refine ⟨len, reader, ?_⟩
    split at h
    · rename_i packet heap top
      cases h
      exact .inl ⟨packet, heap, top, rfl⟩
    · rename_i empty
      cases h
      exact .inr ⟨Heap.pop_none seq empty, rfl⟩
  · cases h

end

end AiboosterEngine.Xhttp
