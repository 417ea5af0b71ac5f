import AiboosterEngine.GoSem.Binary
import AiboosterEngine.TlsFragment.Index

/-!
# Fragmenting the first packet

`Conn.Write` of `common/tlsfragment/conn.go`. The first packet is cut at a
random place in each label of the server name, and each piece becomes a write,
a TLS record, or both. `rand` are the numbers the random generator gives and
`publicSuffix` the table of public suffixes; all lower writes succeed.
-/

namespace AiboosterEngine.TlsFragment
open GoSem List Outcome

structure Conn where
  firstPacketWritten : Bool := false
  splitPacket : Bool
  splitRecord : Bool
  deriving DecidableEq, Repr

/-- A record as `Write` puts it together: `b[:3]`, the length field and the payload. -/
structure Record where
  header : Bytes
  payloadLen : Nat
  payload : Bytes
  deriving DecidableEq, Repr

def Record.bytes (r : Record) : Bytes := r.header ++ bigEndian 2 r.payloadLen ++ r.payload

/-- What `Write` returns, and what it wrote: the lower writes in order, and the records in
them. -/
structure Written where
  n : Nat
  lower : List Bytes
  records : List Record
  deriving DecidableEq, Repr

def dot : UInt8 := 46

/-- The labels that are cut, and where the first of them begins. -/
def labels (publicSuffix : Bytes → Bytes) (sn : MyServerName) : Nat × List Bytes :=
  let splits := split [dot] sn.serverName
  let splits := if publicSuffix sn.serverName ≠ [] then
      splits.take (splits.length - sn.serverName.count dot)
    else splits
  match splits with
  | first :: second :: more =>
    if first = utf8 "..." then (sn.index + (first.length + 1), second :: more)
    else (sn.index, splits)
  | _ => (sn.index, splits)

/-- `rand.Intn(n)` when the generator gives `r`. -/
def intn (n r : Nat) : Outcome String Nat := if n = 0 then .panicked else .ok (r % n)

/-- The loop over the labels from number `i` on. -/
def splitIndexes (rand : Nat → Nat) : (i currentIndex : Nat) → List Bytes →
    Outcome String (List Nat)
  | _, _, [] => .ok []
  | i, currentIndex, label :: more => do
    let splitAt ← intn label.length (rand i)
    let rest ← splitIndexes rand (i + 1)
      (currentIndex + label.length + if more.isEmpty then 0 else 1) more
    return (currentIndex + splitAt) :: rest

def laterPieces (b : Bytes) : (previous : Nat) → List Nat → Outcome String (List Bytes)
  | previous, [] => do return [← sliceFrom b previous]
  | previous, i :: is => do
    let piece ← slice b previous i
    let more ← laterPieces b i is
    return piece :: more

/-- The first payload, without the header of the record when records are split. -/
def firstPiece (b : Bytes) (splitRecord : Bool) (i : Nat) : Outcome String Bytes := do
  let payload ← slice b 0 i
  if splitRecord then sliceFrom payload recordLayerHeaderLen else return payload

/-- The payloads of the loop over `splitIndexes`. -/
def pieces (b : Bytes) (splitRecord : Bool) : List Nat → Outcome String (List Bytes)
  | [] => .panicked
  | i :: is => do
    let first ← firstPiece b splitRecord i
    let more ← laterPieces b i is
    return first :: more

def recordsOf (splitRecord : Bool) (b : Bytes) (payloads : List Bytes) :
    Outcome String (List Record) :=
  if splitRecord then do
    let header ← slice b 0 3
    return payloads.map fun p => ⟨header, p.length % 65536, p⟩
  else return []

/-- The lower writes: one for each payload or record, or one for all records. -/
def lowerWrites (conn : Conn) (payloads : List Bytes) (records : List Record) : List Bytes :=
  if conn.splitRecord then
    if conn.splitPacket then records.map Record.bytes else [records.flatMap Record.bytes]
  else if conn.splitPacket then payloads
  else []

/-- The part of `Write` for a packet in which a server name was found. -/
def fragment (publicSuffix : Bytes → Bytes) (rand : Nat → Nat) (conn : Conn) (b : Bytes)
    (sn : MyServerName) : Outcome String Written := do
  let (currentIndex, splits) := labels publicSuffix sn
  let indexes ← splitIndexes rand 0 currentIndex splits
  let payloads ← pieces b conn.splitRecord indexes
  let records ← recordsOf conn.splitRecord b payloads
  return ⟨b.length, lowerWrites conn payloads records, records⟩

def write (publicSuffix : Bytes → Bytes) (rand : Nat → Nat) (fuel : Nat) (conn : Conn) (b : Bytes) :
    Partial String Written := do
  if conn.firstPacketWritten then return ⟨b.length, [b], []⟩
  match ← indexTLSServerName fuel b with
  | none => return ⟨b.length, [b], []⟩
  | some sn => .lift (fragment publicSuffix rand conn b sn)

/-- In order, from `low` on and up to `high`. -/
def Ordered (low : Nat) : List Nat → (high : Nat) → Prop
  | [], high => low ≤ high
  | i :: is, high => low ≤ i ∧ Ordered i is high

variable {low high : Nat} {is : List Nat} {splits : List Bytes} {i : Nat} {b : Bytes}
  {ps : List Bytes}

theorem Ordered.from_below {low' : Nat} (h : Ordered low is high) (le : low' ≤ low) :
    Ordered low' is high := by
  cases is with
  | nil => exact Nat.le_trans le h
  | cons i is => exact ⟨Nat.le_trans le h.1, h.2⟩

theorem Ordered.to_above {high' : Nat} (h : Ordered low is high) (le : high ≤ high') :
    Ordered low is high' := by
  induction is generalizing low with
  | nil => exact Nat.le_trans h le
  | cons i is ih => exact ⟨h.1, ih h.2⟩

theorem Ordered.le (h : Ordered low is high) : low ≤ high := by
  induction is generalizing low with
  | nil => exact h
  | cons i is ih => exact Nat.le_trans h.1 (ih h.2)

/-- The place of the last byte of the last label, counted with the dots between the labels. -/
def furthest : (currentIndex : Nat) → List Bytes → Nat
  | currentIndex, [] => currentIndex
  | currentIndex, label :: more =>
    if more.isEmpty then currentIndex + (label.length - 1)
    else furthest (currentIndex + label.length + 1) more

theorem intn_gives {n : Nat} (h : n ≠ 0) (r : Nat) : (intn n r).Gives fun k => k < n :=
  ⟨r % n, if_neg h, Nat.mod_lt r (Nat.pos_of_ne_zero h)⟩

theorem splitIndexes_gives (rand : Nat → Nat) (i currentIndex : Nat) (some : splits ≠ [])
    (full : ∀ label ∈ splits, label ≠ []) :
    (splitIndexes rand i currentIndex splits).Gives fun indexes =>
      indexes ≠ [] ∧ Ordered currentIndex indexes (furthest currentIndex splits) := by
  induction splits generalizing i currentIndex with
  | nil => exact absurd rfl some
  | cons label more ih =>
    have long : label.length ≠ 0 := by simpa using full label mem_cons_self
    obtain ⟨at_, first, inside⟩ := intn_gives long (rand i)
    cases more with
    | nil =>
      refine .bind first (.bind rfl (.ok ⟨cons_ne_nil _ _, Nat.le_add_right _ _, ?_⟩))
      show currentIndex + at_ ≤ currentIndex + (label.length - 1)
      omega
    | cons next more =>
      have fullMore : ∀ l ∈ next :: more, l ≠ [] := fun l hl => full l (mem_cons_of_mem _ hl)
      obtain ⟨rest, hRest, _, order⟩ := ih (i + 1) (currentIndex + label.length + 1)
        (cons_ne_nil _ _) fullMore
      refine .bind first (.bind hRest (.ok ⟨cons_ne_nil _ _, Nat.le_add_right _ _, ?_⟩))
      exact order.from_below (by omega)

variable {rand : Nat → Nat} {indexes : List Nat} {currentIndex : Nat}

theorem full_of_splitIndexes
    (h : splitIndexes rand i currentIndex splits = .ok indexes) : ∀ label ∈ splits, label ≠ [] := by
  induction splits generalizing i currentIndex indexes with
  | nil => exact fun _ mem => nomatch mem
  | cons label more ih =>
    obtain ⟨_, first, h⟩ := bind_eq_ok h
    obtain ⟨_, rest, _⟩ := bind_eq_ok h
    intro l mem
    rcases mem_cons.mp mem with rfl | later
    · rintro rfl
      cases first
    · exact ih rest l later

/-- Numbers of the generator for which every cut is before the last byte of its label. -/
theorem splitIndexes_furthest (any : splits ≠ [])
    (last : ∀ (k : Nat) (label : Bytes), splits[k]? = some label → rand (i + k) = label.length - 1)
    (h : splitIndexes rand i currentIndex splits = .ok indexes) :
    indexes.getLast? = some (furthest currentIndex splits) := by
  induction splits generalizing i currentIndex indexes with
  | nil => exact absurd rfl any
  | cons label more ih =>
    obtain ⟨at_, first, h⟩ := bind_eq_ok h
    obtain ⟨rest, hRest, h⟩ := bind_eq_ok h
    cases h
    cases more with
    | nil =>
      cases hRest
      have place : at_ = label.length - 1 := by
        have chosen := last 0 label rfl
        rw [Nat.add_zero] at chosen
        unfold intn at first
        split at first
        · cases first
        · cases first
          rw [chosen]
          exact Nat.mod_eq_of_lt (by omega)
      rw [place]
      rfl
    | cons next more =>
      have tail := ih (cons_ne_nil _ _)
        (fun k l hl => by rw [Nat.add_right_comm]; exact last (k + 1) l hl) hRest
      rw [getLast?_cons, tail]
      rfl

theorem laterPieces_gives {previous : Nat} (order : Ordered previous is b.length) :
    (laterPieces b previous is).Gives fun ps => ps.flatten = b.drop previous := by
  induction is generalizing previous with
  | nil =>
    refine .bind (sliceFrom_eq order) (.ok ?_)
    simp
  | cons i is ih =>
    obtain ⟨le, order⟩ := order
    obtain ⟨more, hMore, rest⟩ := ih order
    refine .bind (slice_eq le order.le) (.bind hMore (.ok ?_))
    rw [flatten_cons, rest]
    have := take_append_drop (i - previous) (b.drop previous)
    rwa [drop_drop, Nat.add_sub_cancel' le] at this

theorem last_of_laterPieces {previous : Nat} (h : laterPieces b previous is = .ok ps) {last : Nat}
    (isLast : (previous :: is).getLast? = some last) : last ≤ b.length := by
  induction is generalizing previous ps with
  | nil =>
    cases isLast
    obtain ⟨_, tail, _⟩ := bind_eq_ok h
    exact (sliceFrom_ok tail).1
  | cons i is ih =>
    obtain ⟨_, _, h⟩ := bind_eq_ok h
    obtain ⟨_, more, _⟩ := bind_eq_ok h
    refine ih more ?_
    rwa [getLast?_cons_cons] at isLast

theorem last_of_pieces {splitRecord : Bool} (h : pieces b splitRecord is = .ok ps) {last : Nat}
    (isLast : is.getLast? = some last) : last ≤ b.length := by
  cases is with
  | nil => cases h
  | cons i is =>
    obtain ⟨_, _, h⟩ := bind_eq_ok h
    obtain ⟨_, more, _⟩ := bind_eq_ok h
    exact last_of_laterPieces more isLast

/-- What the payloads make up: the packet, or what follows the header of its record. -/
def cutPart (splitRecord : Bool) (b : Bytes) : Bytes :=
  if splitRecord then b.drop recordLayerHeaderLen else b

theorem firstPiece_gives (header : recordLayerHeaderLen ≤ i) (inside : i ≤ b.length)
    (splitRecord : Bool) :
    (firstPiece b splitRecord i).Gives fun p => p ++ b.drop i = cutPart splitRecord b := by
  refine .bind (slice_eq (Nat.zero_le i) inside) ?_
  cases splitRecord with
  | false => exact .ok (take_append_drop i b)
  | true =>
    have long : recordLayerHeaderLen ≤ ((b.drop 0).take (i - 0)).length := by grind
    refine ⟨_, sliceFrom_eq long, ?_⟩
    show ((b.drop 0).take (i - 0)).drop recordLayerHeaderLen ++ b.drop i = _
    rw [← drop_append_of_le_length long]
    exact congrArg (List.drop recordLayerHeaderLen) (take_append_drop i b)

theorem pieces_gives (some : is ≠ []) (order : Ordered recordLayerHeaderLen is b.length)
    (splitRecord : Bool) :
    (pieces b splitRecord is).Gives fun ps => ps.flatten = cutPart splitRecord b := by
  cases is with
  | nil => exact absurd rfl some
  | cons i is =>
    obtain ⟨header, order⟩ := order
    obtain ⟨first, hFirst, whole⟩ := firstPiece_gives header order.le splitRecord
    obtain ⟨more, hMore, rest⟩ := laterPieces_gives order
    refine .bind hFirst (.bind hMore (.ok ?_))
    rw [flatten_cons, rest, whole]

/-- A server name is found in the packet. -/
def Recognised (b : Bytes) : Prop := ∃ fuel sn, indexTLSServerName fuel b = some (.ok (some sn))

/-- The stream is preserved: everything is reported as written; the lower writes are the packet
itself or, for a recognised packet with records split, records with the header of the
packet whose payloads are the payload of its record. -/
structure Preserves (splitRecord : Bool) (b : Bytes) (w : Written) : Prop where
  all : w.n = b.length
  packet : splitRecord = false → w.lower.flatten = b
  records : splitRecord = true → Recognised b → w.lower.flatten = w.records.flatMap Record.bytes
  headers : splitRecord = true → ∀ r ∈ w.records, r.header = b.take 3 ∧
    r.payloadLen = r.payload.length
  payload : splitRecord = true → Recognised b →
    (w.records.map Record.payload).flatten
      = (b.drop recordLayerHeaderLen).take (segmentLen b)

/-- A packet in which the server name `sn` is found can be cut, whatever the random choices. -/
structure Fragmentable (publicSuffix : Bytes → Bytes) (splitRecord : Bool) (b : Bytes)
    (sn : MyServerName) : Prop where
  full : ∀ label ∈ (labels publicSuffix sn).2, label ≠ []
  inside : furthest (labels publicSuffix sn).1 (labels publicSuffix sn).2 ≤ b.length
  oneRecord : splitRecord = true → recordLayerHeaderLen + segmentLen b = b.length

theorem labels_some (publicSuffix : Bytes → Bytes) (sn : MyServerName) :
    (labels publicSuffix sn).2 ≠ [] ∧ sn.index ≤ (labels publicSuffix sn).1 := by
  have count := split_length dot sn.serverName
  have used : (if publicSuffix sn.serverName ≠ [] then
      (split [dot] sn.serverName).take
        ((split [dot] sn.serverName).length - sn.serverName.count dot)
    else split [dot] sn.serverName) ≠ [] := by
    split
    · grind [List.length, length_take, length_nil]
    · exact cons_ne_nil _ _
  unfold labels
  simp only
  split
  · grind
  · exact ⟨used, .refl⟩

theorem length_le_flatten {p : Bytes} (h : p ∈ ps) : p.length ≤ ps.flatten.length :=
  (sublist_flatten_of_mem h).length_le

theorem map_payload (header : Bytes) (ps : List Bytes) :
    (ps.map fun p => (⟨header, p.length % 65536, p⟩ : Record)).map Record.payload = ps := by
  rw [map_map]
  exact map_id ps

/-- The lower writes for payloads that make up the packet or the payload of its record. -/
theorem lowerWrites_preserves {conn : Conn}
    (enabled : conn.splitPacket = true ∨ conn.splitRecord = true) (long : 3 ≤ b.length)
    (oneRecord : conn.splitRecord = true → recordLayerHeaderLen + segmentLen b = b.length)
    (whole : ps.flatten = cutPart conn.splitRecord b) :
    ∃ records, recordsOf conn.splitRecord b ps = .ok records ∧
      Preserves conn.splitRecord b ⟨b.length, lowerWrites conn ps records, records⟩ := by
  cases split : conn.splitRecord with
  | false =>
    have packets : conn.splitPacket = true := by simpa [split] using enabled
    refine ⟨[], rfl, rfl, fun _ => ?_, nofun, nofun, nofun⟩
    simpa [lowerWrites, split, packets, cutPart] using whole
  | true =>
    have sum := oneRecord split
    have small := word_lt b 3
    rw [split] at whole
    have record : recordsOf true b ps = .ok (ps.map fun p => ⟨b.take 3, p.length % 65536, p⟩) := by
      unfold recordsOf
      rw [if_pos rfl, slice_eq (Nat.zero_le 3) long]
      rfl
    refine ⟨_, record, rfl, nofun, fun _ _ => ?_, fun _ r mem => ?_, fun _ _ => ?_⟩
    · cases packets : conn.splitPacket with
      | true => simp [lowerWrites, split, packets, flatMap_def]
      | false => simp [lowerWrites, split, packets]
    · obtain ⟨p, hp, rfl⟩ := mem_map.mp mem
      refine ⟨rfl, Nat.mod_eq_of_lt ?_⟩
      have := length_le_flatten hp
      rw [whole, cutPart, if_pos rfl, length_drop] at this
      unfold segmentLen at sum
      omega
    · rw [map_payload, whole, cutPart, if_pos rfl]
      exact (take_of_length_le (by rw [length_drop]; omega)).symm

section
variable {publicSuffix : Bytes → Bytes} {conn : Conn} {b : Bytes} {fuel : Nat} {sn : MyServerName}

theorem payloads_give (found : indexTLSServerName fuel b = some (.ok (some sn)))
    (full : ∀ label ∈ (labels publicSuffix sn).2, label ≠ [])
    (inside : furthest (labels publicSuffix sn).1 (labels publicSuffix sn).2 ≤ b.length)
    (splitRecord : Bool) (rand : Nat → Nat) :
    ∃ indexes ps,
      splitIndexes rand 0 (labels publicSuffix sn).1 (labels publicSuffix sn).2 = .ok indexes ∧
      pieces b splitRecord indexes = .ok ps ∧ ps.flatten = cutPart splitRecord b := by
  obtain ⟨some, start⟩ := labels_some publicSuffix sn
  obtain ⟨header, _⟩ := indexTLSServerName_found found
  obtain ⟨indexes, hIndexes, any, order⟩ := splitIndexes_gives rand 0 _ some full
  have order := (order.to_above inside).from_below (Nat.le_trans header start)
  obtain ⟨ps, hPieces, whole⟩ := pieces_gives any order splitRecord
  exact ⟨indexes, ps, hIndexes, hPieces, whole⟩

theorem fragment_parts {w : Written}
    (h : fragment publicSuffix rand conn b sn = .ok w) :
    ∃ indexes ps,
      splitIndexes rand 0 (labels publicSuffix sn).1 (labels publicSuffix sn).2 = .ok indexes ∧
      pieces b conn.splitRecord indexes = .ok ps := by
  obtain ⟨indexes, hIndexes, h⟩ := bind_eq_ok h
  obtain ⟨ps, hPieces, _⟩ := bind_eq_ok h
  exact ⟨indexes, ps, hIndexes, hPieces⟩

theorem fragment_iff (enabled : conn.splitPacket = true ∨ conn.splitRecord = true)
    (found : indexTLSServerName fuel b = some (.ok (some sn))) :
    (∀ rand, ∃ w, fragment publicSuffix rand conn b sn = .ok w ∧ Preserves conn.splitRecord b w) ↔
      Fragmentable publicSuffix conn.splitRecord b sn := by
  obtain ⟨_, complete⟩ := indexTLSServerName_found found
  have long : 3 ≤ b.length := by
    unfold recordLayerHeaderLen at complete
    omega
  constructor
  · intro all
    have full : ∀ label ∈ (labels publicSuffix sn).2, label ≠ [] := by
      obtain ⟨w, h, _⟩ := all fun _ => 0
      obtain ⟨_, _, hIndexes, _⟩ := fragment_parts h
      exact full_of_splitIndexes hIndexes
    have inside : furthest (labels publicSuffix sn).1 (labels publicSuffix sn).2 ≤ b.length := by
      -- the generator may cut every label before its last byte
      obtain ⟨w, h, _⟩ := all fun k => ((labels publicSuffix sn).2.getD k []).length - 1
      obtain ⟨_, _, hIndexes, hPieces⟩ := fragment_parts h
      refine last_of_pieces hPieces
        (splitIndexes_furthest (labels_some publicSuffix sn).1 ?_ hIndexes)
      intro k label hk
      rw [Nat.zero_add, getD_eq_getElem?_getD, hk]
      rfl
    refine ⟨full, inside, fun split => ?_⟩
    obtain ⟨w, h, preserves⟩ := all fun _ => 0
    obtain ⟨_, ps, hIndexes, hPieces, whole⟩ :=
      payloads_give found full inside conn.splitRecord fun _ => 0
    simp only [fragment, hIndexes, hPieces, ok_bind] at h
    rw [split, recordsOf, if_pos rfl, slice_eq (Nat.zero_le 3) long] at h
    cases h
    have same := preserves.payload split ⟨fuel, sn, found⟩
    rw [map_payload, whole, cutPart, split, if_pos rfl] at same
    have length := congrArg List.length same
    rw [length_take, length_drop] at length
    omega
  · intro ⟨full, inside, oneRecord⟩ rand
    obtain ⟨indexes, ps, hIndexes, hPieces, whole⟩ := payloads_give found full inside
      conn.splitRecord rand
    obtain ⟨records, hRecords, preserves⟩ := lowerWrites_preserves enabled long oneRecord whole
    exact ⟨_, by simp only [fragment, hIndexes, hPieces, ok_bind, hRecords]; rfl, preserves⟩

/-- The first packet goes out whole, or as records with the payload of its record, for all
random choices, exactly when the name is found without an endless loop and the packet can be
cut at it. -/
theorem write_preserves_iff (first : conn.firstPacketWritten = false)
    (enabled : conn.splitPacket = true ∨ conn.splitRecord = true) :
    (∀ rand, ∃ fuel w, write publicSuffix rand fuel conn b = some (.ok w) ∧
      Preserves conn.splitRecord b w) ↔
    ¬ Stalled b ∧ ∀ fuel sn, indexTLSServerName fuel b = some (.ok (some sn)) →
      Fragmentable publicSuffix conn.splitRecord b sn := by
  have start (rand : Nat → Nat) (fuel : Nat) : write publicSuffix rand fuel conn b = (do
      match ← indexTLSServerName fuel b with
      | none => return ⟨b.length, [b], []⟩
      | some sn => .lift (fragment publicSuffix rand conn b sn)) := by
    rw [write, first]
    rfl
  constructor
  · intro all
    refine ⟨?_, fun fuel sn found => (fragment_iff enabled found).mp fun rand => ?_⟩
    · obtain ⟨fuel, w, h, _⟩ := all fun _ => 0
      rw [start] at h
      obtain ⟨r, index, _⟩ := Partial.bind_eq_ok h
      exact (indexTLSServerName_returns_iff b).mp ⟨fuel, r, index⟩
    · obtain ⟨fuel', w, h, preserves⟩ := all rand
      rw [start] at h
      obtain ⟨r, index, h⟩ := Partial.bind_eq_ok h
      cases indexTLSServerName_unique found index
      exact ⟨w, Option.some.inj h, preserves⟩
  · intro ⟨moves, cuts⟩ rand
    obtain ⟨fuel, r, index⟩ := (indexTLSServerName_returns_iff b).mpr moves
    cases r with
    | none =>
      have unknown : ¬ Recognised b := by
        intro ⟨fuel', sn, found⟩
        cases indexTLSServerName_unique index found
      refine ⟨fuel, ⟨b.length, [b], []⟩, by rw [start, index]; rfl, rfl, fun _ => by simp,
        ?_, nofun, ?_⟩
      · exact fun _ known => absurd known unknown
      · exact fun _ known => absurd known unknown
    | some sn =>
      obtain ⟨w, h, preserves⟩ := (fragment_iff enabled index).mpr (cuts fuel sn index) rand
      exact ⟨fuel, w, by rw [start, index, ← h]; rfl, preserves⟩

end

def hello (host : Bytes) : Bytes :=
  let extension := bigEndian 2 (host.length + 3) ++ [0] ++ bigEndian 2 host.length ++ host
  let extensions := [0, 0] ++ bigEndian 2 extension.length ++ extension
  let body := [3, 3] ++ replicate 32 0 ++ [0] ++ [0, 2, 0x13, 1] ++ [1, 0]
    ++ bigEndian 2 extensions.length ++ extensions
  let handshake := [1] ++ bigEndian 3 body.length ++ body
  [22, 3, 1] ++ bigEndian 2 handshake.length ++ handshake

theorem hello_preserved :
    indexTLSServerName 3 (hello (utf8 "a.test")) = some (.ok (some ⟨61, 6, utf8 "a.test"⟩)) ∧
    ∀ rand, ∃ fuel w, write (fun _ => utf8 "test") rand fuel
      { splitPacket := true, splitRecord := true } (hello (utf8 "a.test")) = some (.ok w) ∧
      Preserves true (hello (utf8 "a.test")) w := by
  have found : indexTLSServerName 3 (hello (utf8 "a.test"))
      = some (.ok (some ⟨61, 6, utf8 "a.test"⟩)) := by decide +kernel
  have moves := (indexTLSServerName_returns_iff _).mp ⟨3, _, found⟩
  refine ⟨found, (write_preserves_iff rfl (.inl rfl)).mpr ⟨moves, fun fuel sn h => ?_⟩⟩
  cases indexTLSServerName_unique found h
  exact ⟨by decide +kernel, by decide +kernel, fun _ => by decide +kernel⟩

/-- A host that begins with a dot has an empty first label, and `rand.Intn(0)` panics. -/
theorem leading_dot_panics :
    write (fun _ => utf8 "test") (fun _ => 0) 3 { splitPacket := true, splitRecord := false }
      (hello (utf8 ".test")) = some .panicked := by
  decide +kernel

end AiboosterEngine.TlsFragment
