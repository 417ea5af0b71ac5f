import AiboosterEngine.GoSem.Binary

/-!
# DNS messages on a stream

`WriteMessage` and `ReadMessage` of `dns/transport/tcp.go`. The prefix is the
length of the message as it was given, the body is packed with compression into
the rest of the buffer.
-/

namespace AiboosterEngine.Dns.Framing
open GoSem List

/-- A message as the caller has it; `body` is everything but the id. -/
structure Msg (μ : Type) where
  compress : Bool
  body : μ
  deriving DecidableEq, Repr

/-- The DNS library. `PackBuffer` packs into the buffer it is given if that has `room` bytes, and
into a new one otherwise. -/
structure Library (μ : Type) where
  len : (compress : Bool) → μ → Nat
  pack : (compress : Bool) → UInt16 → μ → Outcome String Bytes
  room : μ → Nat
  unpack : Bytes → Outcome String (UInt16 × μ)
  len_pack : ∀ {compress id m bs}, pack compress id m = .ok bs → len compress m = bs.length
  len_compress : ∀ m, len true m ≤ len false m
  unpack_pack : ∀ {compress id m bs}, pack compress id m = .ok bs → unpack bs = .ok (id, m)
  /-- A packed message has a header. -/
  header : ∀ {compress id m bs}, pack compress id m = .ok bs → 12 ≤ bs.length

section
variable {μ : Type} (lib : Library μ)

/-- `exMessage.PackBuffer(free)`: the packed message, and what `free` holds afterwards. -/
def packBuffer (id : UInt16) (m : μ) (free : Bytes) : Outcome String (Bytes × Bytes) := do
  let raw ← lib.pack true id m
  return (raw, if lib.room m ≤ free.length then raw ++ free.drop raw.length else free)

/-- What is written; `free` are the bytes of the buffer behind the prefix, as they were before. -/
def writeMessage (id : UInt16) (message : Msg μ) (free : Bytes) : Outcome String Bytes := do
  let requestLen := lib.len message.compress message.body
  let (rawMessage, free) ← packBuffer lib id message.body free
  return bigEndian 2 requestLen ++ free.take rawMessage.length

def errShortRead : String := "dns: short read"

def readMessage : Reader String (UInt16 × μ) := do
  let responseLen ← readFull 2
  if fromBigEndian responseLen < 10 then .fail errShortRead else
  let buffer ← readFull (fromBigEndian responseLen)
  Reader.lift (lib.unpack buffer)

/-- Two bytes of length, and as many bytes. -/
def frame (bs : Bytes) : Bytes := bigEndian 2 bs.length ++ bs

/-- The message is no longer without compression than with it, if it is to be written without, and
the buffer is large enough for `PackBuffer`. -/
def Framed (m : Msg μ) : Prop :=
  lib.len m.compress m.body = lib.len true m.body ∧ lib.room m.body ≤ lib.len m.compress m.body + 1

variable {lib} {id : UInt16} {m : Msg μ} {raw free : Bytes}

theorem bigEndian_two_inj {n n' : Nat} (small : n ≤ 65535) (small' : n' ≤ 65535)
    (same : bigEndian 2 n = bigEndian 2 n') : n = n' := by
  rw [← fromBigEndian_bigEndian (w := 2) (n := n) (by omega), same,
    fromBigEndian_bigEndian (by omega)]

section
variable (packs : lib.pack true id m.body = .ok raw)
include packs

theorem writeMessage_eq :
    writeMessage lib id m free = .ok (bigEndian 2 (lib.len m.compress m.body) ++
      (if lib.room m.body ≤ free.length then raw else free.take raw.length)) := by
  simp only [writeMessage, packBuffer, packs, Outcome.ok_bind, Outcome.pure_eq]
  split
  · rw [take_left]
  · rfl

theorem len_le : raw.length ≤ lib.len m.compress m.body := by
  rw [← lib.len_pack packs]
  cases m.compress with
  | true => exact .refl
  | false => exact lib.len_compress m.body

theorem writeMessage_framed (framed : Framed lib m)
    (size : free.length = lib.len m.compress m.body + 1) :
    writeMessage lib id m free = .ok (frame raw) := by
  rw [writeMessage_eq packs, size, if_pos framed.2, framed.1, lib.len_pack packs, frame]

end

theorem exists_other (some_ : raw ≠ []) (n : Nat) (le : raw.length ≤ n) :
    ∃ free : Bytes, free.length = n ∧ free.take raw.length ≠ raw := by
  cases raw with
  | nil => exact absurd rfl some_
  | cons b raw =>
    refine ⟨replicate n (b + 1), length_replicate, fun same => ?_⟩
    rw [take_replicate, Nat.min_eq_left le, length_cons, replicate_succ, List.cons.injEq] at same
    have := same.1
    simp at this

theorem framed_of_writes (packs : lib.pack true id m.body = .ok raw)
    (small : lib.len m.compress m.body ≤ 65535)
    (writes : ∀ free : Bytes, free.length = lib.len m.compress m.body + 1 →
      writeMessage lib id m free = .ok (frame raw)) : Framed lib m := by
  have le := len_le packs
  have parts : ∀ free : Bytes, free.length = lib.len m.compress m.body + 1 →
      bigEndian 2 (lib.len m.compress m.body) = bigEndian 2 raw.length ∧
        (if lib.room m.body ≤ free.length then raw else free.take raw.length) = raw := by
    grind [frame, bigEndian_length, writeMessage_eq, append_inj]
  have some_ : raw ≠ [] := by
    have := lib.header packs
    rintro rfl
    simp at this
  obtain ⟨free, size, other⟩ := exists_other some_ (lib.len m.compress m.body + 1) (by omega)
  obtain ⟨number, body⟩ := parts free size
  refine ⟨?_, ?_⟩
  · rw [lib.len_pack packs]
    exact bigEndian_two_inj small (by omega) number
  · apply Decidable.byContradiction
    intro full
    rw [size, if_neg full] at body
    exact other body

theorem reads_frame {lib : Library μ} {compress : Bool} {body : μ}
    (packs : lib.pack compress id body = .ok raw)
    (small : raw.length ≤ 65535) : Reads (readMessage lib) (frame raw) (id, body) := by
  have header := lib.header packs
  have number : fromBigEndian (bigEndian 2 raw.length) = raw.length :=
    fromBigEndian_bigEndian (by omega)
  refine Reads.bind (reads_full (bigEndian_length 2 raw.length)) ?_
  rw [number, if_neg (by omega)]
  exact (reads_full rfl).last (.lift (lib.unpack_pack packs))

/-- One `WriteMessage` among several, with the buffer it gets. -/
structure Write (μ : Type) where
  id : UInt16
  message : Msg μ
  free : Bytes

def Write.run (lib : Library μ) (w : Write μ) : Outcome String Bytes :=
  writeMessage lib w.id w.message w.free

/-- The message packs, to at most 65535 bytes, and the buffer has the size asked for. -/
structure Write.Proper (lib : Library μ) (w : Write μ) : Prop where
  packs : ∃ raw, lib.pack true w.id w.message.body = .ok raw
  small : lib.len w.message.compress w.message.body ≤ 65535
  free : w.free.length = lib.len w.message.compress w.message.body + 1

end

/-- **When stream framing is exact.** For a message that packs to at most 65535 bytes,
`WriteMessage` writes its length and the message exactly when it is as long with compression as
`Len` says, and its buffer is large enough for `PackBuffer`. Such messages on one stream are read
back in order. -/
theorem framing_iff {μ : Type} (lib : Library μ) :
    (∀ (m : Msg μ) id raw, lib.pack true id m.body = .ok raw → lib.len m.compress m.body ≤ 65535 →
      ((∀ free : Bytes, free.length = lib.len m.compress m.body + 1 →
        writeMessage lib id m free = .ok (frame raw)) ↔ Framed lib m)) ∧
    ∀ ws : List (Write μ), (∀ w ∈ ws, w.Proper lib) → (∀ w ∈ ws, Framed lib w.message) →
      ∃ bs, writeAll (ws.map (Write.run lib)) = .ok bs ∧
        Reads (Reader.times (fun _ => readMessage lib) 0 ws.length) bs
          (ws.map fun w => (w.id, w.message.body)) := by
  refine ⟨fun m id raw packs small => ⟨framed_of_writes packs small, ?_⟩, ?_⟩
  · exact fun framed free size => writeMessage_framed packs framed size
  · intro ws proper framed
    generalize 0 = i
    induction ws generalizing i with
    | nil => exact ⟨[], rfl, Reads.pure []⟩
    | cons w ws ih =>
      obtain ⟨more, written, reads⟩ := ih (fun w member => proper w (mem_cons_of_mem _ member))
        (fun w member => framed w (mem_cons_of_mem _ member)) (i + 1)
      obtain ⟨⟨raw, packs⟩, small, size⟩ := proper w mem_cons_self
      have first := writeMessage_framed packs (framed w mem_cons_self) size
      have fits : raw.length ≤ 65535 := Nat.le_trans (len_le packs) small
      refine ⟨frame raw ++ more, ?_, (reads_frame packs fits).times_cons reads⟩
      rw [map_cons, writeAll, Write.run, first, written]
      rfl

def question (id : UInt16) (answers : UInt8) : Bytes :=
  bigEndian 2 id.toNat ++ [1, 0, 0, 1, 0, answers, 0, 0, 0, 0] ++ [1, 97, 0, 0, 1, 0, 1]

variable (compress : Bool)

def answer : Bytes :=
  (if compress then [0xc0, 12] else [1, 97, 0]) ++ [0, 1, 0, 1, 0, 0, 0, 60, 0, 4, 127, 0, 0, 1]

def packed (id : UInt16) (answered : Bool) : Bytes :=
  if answered then question id 1 ++ answer compress else question id 0

theorem packed_id (id : UInt16) (answered : Bool) :
    UInt16.ofNat (fromBigEndian ((packed compress id answered).take 2)) = id := by
  have two : (packed compress id answered).take 2 = bigEndian 2 id.toNat := by
    grind [packed, question, Bool.false_eq_true, append_assoc, take_left', bigEndian_length]
  rw [two, fromBigEndian_bigEndian (by have := id.toNat_lt; omega), UInt16.ofNat_toNat]

theorem packed_length (id : UInt16) (answered : Bool) :
    (packed compress id answered).length = if answered then if compress then 35
      else 36 else 19 := by
  cases answered <;> cases compress <;> simp [packed, question, answer, bigEndian_length]

theorem packed_answered (id : UInt16) (answered : Bool) :
    ((packed compress id answered).drop 2).getD 5 0 = if answered then 1 else 0 := by
  have rest : ∀ tail : Bytes, (bigEndian 2 id.toNat ++ tail).drop 2 = tail :=
    fun tail => drop_left' (bigEndian_length 2 _)
  cases answered <;>
    simp only [packed, question, if_true, Bool.false_eq_true, if_false, append_assoc, rest] <;> rfl

/-- The question for `a` and the answer to it, packed as the DNS library packs them: in place if
the buffer has a byte more than the message has without compression. -/
def oneName : Library Bool where
  len compress answered := if answered then if compress then 35 else 36 else 19
  pack compress id answered := .ok (packed compress id answered)
  room answered := if answered then 37 else 20
  unpack bs := .ok (UInt16.ofNat (fromBigEndian (bs.take 2)), (bs.drop 2).getD 5 0 == 1)
  len_pack h := by cases h; exact (packed_length _ _ _).symm
  len_compress m := by cases m <;> decide
  unpack_pack {compress id m bs} h := by
    cases h
    rw [packed_id, packed_answered]
    cases m <;> rfl
  header {compress id m bs} h := by
    cases h
    rw [packed_length]
    cases m <;> cases compress <;> decide

/-- Two questions on one stream. -/
theorem questions_framed : ∃ bs,
    writeAll ([⟨1, ⟨false, false⟩, replicate 20 0⟩, ⟨2, ⟨true, false⟩, replicate 20 9⟩].map
      (Write.run oneName)) = .ok bs ∧
    Reads (Reader.times (fun _ => readMessage oneName) 0 2) bs [(1, false), (2, false)] := by
  refine (framing_iff oneName).2 [⟨1, ⟨false, false⟩, replicate 20 0⟩,
    ⟨2, ⟨true, false⟩, replicate 20 9⟩] (fun w member => ?_) (fun w member => ?_)
  · simp only [mem_cons, not_mem_nil, or_false] at member
    rcases member with rfl | rfl
    · exact ⟨⟨_, rfl⟩, by decide, rfl⟩
    · exact ⟨⟨_, rfl⟩, by decide, rfl⟩
  · simp only [mem_cons, not_mem_nil, or_false] at member
    rcases member with rfl | rfl
    · exact ⟨rfl, .refl⟩
    · exact ⟨rfl, .refl⟩

/-- With the name twice in the message, the length is one too many if the message is not to be
compressed, and the reader waits for a byte that does not come. If it is to be compressed, the
buffer is too small for `PackBuffer`, and what is written is what was in the buffer. -/
theorem repeated_name_misframed :
    writeMessage oneName 7 ⟨false, true⟩ (replicate 37 0) = .ok ([0, 36] ++ packed true 7 true) ∧
    readMessage oneName ([0, 36] ++ packed true 7 true) = some (.err unexpectedEOF) ∧
    writeMessage oneName 7 ⟨true, true⟩ (replicate 36 0) = .ok ([0, 35] ++ replicate 35 0) := by
  decide +kernel

end AiboosterEngine.Dns.Framing
