import AiboosterEngine.CacheFile.FakeIp
import AiboosterEngine.GoSem.Slice

/-!
# The metadata of the fake addresses

`adapter/fakeip_metadata.go`, and `FakeIPMetadata` of `experimental/cachefile/fakeip.go`:
four fields, each behind its length in two bytes. A body that is cut short is an
error, a length that is cut short a panic. The binary codecs are those of `netip`;
`addrCodec` and `prefixCodec` are two that have what is assumed of them.
-/

namespace AiboosterEngine.CacheFile
open GoSem Partial Reader
open BoltOps (child value)

/-- A codec of `netip`; its `MarshalBinary` returns no error, and no value is read from fewer bytes
than it is written in. -/
structure BinaryCodec (α : Type) where
  marshalBinary : α → Bytes
  unmarshalBinary : Bytes → Except String α
  roundTrip : ∀ a, unmarshalBinary (marshalBinary a) = .ok a
  shortest : ∀ bs a, unmarshalBinary bs = .ok a → (marshalBinary a).length ≤ bs.length

structure FakeIPMetadata (π α : Type) where
  inet4Range : π
  inet6Range : π
  inet4Current : α
  inet6Current : α
  deriving DecidableEq, Repr

/-- The length is written as a `uint16`. -/
def element (data : Bytes) : Bytes := bigEndian 2 data.length ++ data

/-- `binary.Read` of a `uint16` in `common.Must`. -/
def mustUint16 : Reader String Nat := fun bs =>
  if 2 ≤ bs.length then some (.ok (word bs 0, bs.drop 2)) else some .panicked

def unmarshalElement {α : Type} (unmarshaler : BinaryCodec α) : Reader String α := do
  let length ← mustUint16
  let element ← readFull length
  match unmarshaler.unmarshalBinary element with
  | .ok value => return value
  | .error err => .fail err

section
variable {π α : Type} (pre : BinaryCodec π) (addr : BinaryCodec α)

def FakeIPMetadata.marshalBinary (m : FakeIPMetadata π α) : Bytes :=
  element (pre.marshalBinary m.inet4Range) ++ (element (pre.marshalBinary m.inet6Range) ++
    (element (addr.marshalBinary m.inet4Current) ++ element (addr.marshalBinary m.inet6Current)))

def FakeIPMetadata.unmarshalBinary : Reader String (FakeIPMetadata π α) := do
  let inet4Range ← unmarshalElement pre
  let inet6Range ← unmarshalElement pre
  let inet4Current ← unmarshalElement addr
  let inet6Current ← unmarshalElement addr
  return ⟨inet4Range, inet6Range, inet4Current, inet6Current⟩

def keyMetadata : Bytes := fakeipBucketPrefix ++ utf8 "metadata"

/-- The record is deleted, and comes back with the transaction when it cannot be read. -/
def fakeIPMetadata {B E : Type} [BoltOps B E] (c : CacheFile B) :
    Outcome String (Option (FakeIPMetadata π α) × CacheFile B) :=
  match child c.db bucketFakeIP with
  | none => .ok (none, c)
  | some bucket =>
    let metadataBinary := (value bucket keyMetadata).getD []
    if metadataBinary.isEmpty then .ok (none, c)
    else
      match BoltOps.delete bucket keyMetadata with
      | .error _ => .ok (none, c)
      | .ok bucket =>
        match FakeIPMetadata.unmarshalBinary pre addr metadataBinary with
        | some (.ok (metadata, _)) =>
          .ok (some metadata,
            (c.batch fun db => .ok ((), BoltOps.replace db bucketFakeIP bucket)).2)
        | some (.err _) => .ok (none, c)
        | _ => .panicked

end

/-- The two bytes of a length are there wherever an element begins: at the first, and after each
body that is complete and can be decoded. -/
def LengthsWhole : List (Bytes → Bool) → Bytes → Prop
  | [], _ => True
  | decodes :: rest, bs => 2 ≤ bs.length ∧
    (word bs 0 ≤ (bs.drop 2).length → decodes ((bs.drop 2).take (word bs 0)) = true →
      LengthsWhole rest ((bs.drop 2).drop (word bs 0)))

def BinaryCodec.decodes {α : Type} (codec : BinaryCodec α) (bs : Bytes) : Bool :=
  (codec.unmarshalBinary bs).isOk

/-- Of a record. -/
def RecordWhole {π α : Type} (pre : BinaryCodec π) (addr : BinaryCodec α) : Bytes → Prop :=
  LengthsWhole [pre.decodes, pre.decodes, addr.decodes, addr.decodes]

/-- The encodings of the fields have lengths that fit in 16 bits. -/
structure FakeIPMetadata.Short {π α : Type} (pre : BinaryCodec π) (addr : BinaryCodec α)
    (m : FakeIPMetadata π α) : Prop where
  inet4Range : (pre.marshalBinary m.inet4Range).length < 65536
  inet6Range : (pre.marshalBinary m.inet6Range).length < 65536
  inet4Current : (addr.marshalBinary m.inet4Current).length < 65536
  inet6Current : (addr.marshalBinary m.inet6Current).length < 65536

section
variable {α β : Type} {codec : BinaryCodec α}

theorem reads_element {a : α} (short : (codec.marshalBinary a).length < 65536) :
    Reads (unmarshalElement codec) (element (codec.marshalBinary a)) a := by
  have length : Reads mustUint16 (bigEndian 2 (codec.marshalBinary a).length)
      (codec.marshalBinary a).length := by
    intro rest
    simp [mustUint16, bigEndian, word, byteAt]
    omega
  refine length.bind ((reads_full rfl).last ?_)
  rw [codec.roundTrip]
  exact .pure a

/-- What an element is read as: nothing with its length cut short, a value with a body that is
complete and can be decoded, an error otherwise. -/
theorem element_cases (codec : BinaryCodec α) (bs : Bytes) :
    (¬ 2 ≤ bs.length ∧ unmarshalElement codec bs = some .panicked) ∨
    (2 ≤ bs.length ∧ word bs 0 ≤ (bs.drop 2).length ∧
      ∃ a, codec.unmarshalBinary ((bs.drop 2).take (word bs 0)) = .ok a ∧
        unmarshalElement codec bs = some (.ok (a, (bs.drop 2).drop (word bs 0)))) ∨
    (2 ≤ bs.length ∧
      (word bs 0 ≤ (bs.drop 2).length → codec.decodes ((bs.drop 2).take (word bs 0)) = false) ∧
      ∃ e, unmarshalElement codec bs = some (.err e)) := by
  by_cases long : 2 ≤ bs.length
  · have length : mustUint16 bs = some (.ok (word bs 0, bs.drop 2)) := if_pos long
    by_cases full : word bs 0 ≤ (bs.drop 2).length
    · have body : readFull (word bs 0) (bs.drop 2) = some (.ok (_, _)) := if_pos full
      cases read : codec.unmarshalBinary ((bs.drop 2).take (word bs 0)) with
      | ok a =>
        refine .inr (.inl ⟨long, full, a, rfl, ?_⟩)
        rw [unmarshalElement, bind_ok _ length, bind_ok _ body, read]
        rfl
      | error err =>
        refine .inr (.inr ⟨long, fun _ => by rw [BinaryCodec.decodes, read]; rfl, err, ?_⟩)
        rw [unmarshalElement, bind_ok _ length, bind_ok _ body, read]
        rfl
    · have cut : readFull (word bs 0) (bs.drop 2) =
          some (.err (if (bs.drop 2).isEmpty then eof else unexpectedEOF)) := by
        rw [readFull, if_neg full]
        split <;> rfl
      exact .inr (.inr ⟨long, fun h => absurd h full, _, (bind_ok _ length).trans (bind_err _ cut)⟩)
  · refine .inl ⟨long, ?_⟩
    have length : mustUint16 bs = some .panicked := if_neg long
    exact bind_panicked _ length

theorem returns_element_iff {f : α → Reader String β} {rest : List (Bytes → Bool)}
    (next : ∀ a bs, Returns (f a bs) ↔ LengthsWhole rest bs) (bs : Bytes) :
    Returns ((unmarshalElement codec >>= f) bs) ↔ LengthsWhole (codec.decodes :: rest) bs := by
  rw [LengthsWhole]
  rcases element_cases codec bs with ⟨cut, read⟩ | ⟨long, full, a, decoded, read⟩ | ⟨long,
    undecoded, e, read⟩
  · rw [bind_panicked f read]
    exact iff_of_false (fun ⟨o, same, back⟩ => by cases same; exact back) fun whole => cut whole.1
  · have decodes : codec.decodes ((bs.drop 2).take (word bs 0)) = true := by
      rw [BinaryCodec.decodes, decoded]
      rfl
    rw [bind_ok f read, next]
    exact ⟨fun whole => ⟨long, fun _ _ => whole⟩, fun whole => whole.2 full decodes⟩
  · refine iff_of_true ⟨_, bind_err f read, trivial⟩ ⟨long, fun full decodes => ?_⟩
    rw [undecoded full] at decodes
    cases decodes

/-- A value that was read has a short encoding: its body was found behind 16 bits of length. -/
theorem short_of_element {bs rest : Bytes} {a : α}
    (read : unmarshalElement codec bs = some (.ok (a, rest))) :
    (codec.marshalBinary a).length < 65536 := by
  rcases element_cases codec bs with ⟨_, other⟩ | ⟨_, _, a', decoded, value⟩ | ⟨_, _, _, other⟩
  · cases read.symm.trans other
  · cases read.symm.trans value
    have size := codec.shortest _ a decoded
    have small : word bs 0 < 65536 := word_lt bs 0
    rw [List.length_take] at size
    omega
  · cases read.symm.trans other

end

section
variable {π α : Type} {pre : BinaryCodec π} {addr : BinaryCodec α}

theorem unmarshal_returns_iff (data : Bytes) :
    Returns (FakeIPMetadata.unmarshalBinary pre addr data) ↔ RecordWhole pre addr data :=
  returns_element_iff (fun _ => returns_element_iff fun _ => returns_element_iff fun _ =>
    returns_element_iff fun _ bs => iff_of_true ⟨.ok _, rfl, trivial⟩
      (show LengthsWhole [] bs from trivial)) data

theorem short_of_unmarshal {m : FakeIPMetadata π α} {data rest : Bytes}
    (read : FakeIPMetadata.unmarshalBinary pre addr data = some (.ok (m, rest))) :
      m.Short pre addr := by
  obtain ⟨_, _, first, read⟩ := Reader.bind_eq_ok read
  obtain ⟨_, _, second, read⟩ := Reader.bind_eq_ok read
  obtain ⟨_, _, third, read⟩ := Reader.bind_eq_ok read
  obtain ⟨_, _, fourth, read⟩ := Reader.bind_eq_ok read
  cases read
  exact ⟨short_of_element first, short_of_element second, short_of_element third,
    short_of_element fourth⟩

theorem reads_marshal {m : FakeIPMetadata π α} (short : m.Short pre addr) :
    Reads (FakeIPMetadata.unmarshalBinary pre addr) (m.marshalBinary pre addr) m :=
  (reads_element short.inet4Range).bind ((reads_element short.inet6Range).bind
    ((reads_element short.inet4Current).bind (reads_element short.inet6Current).map))

theorem fakeIPMetadata_nil_iff {B E : Type} [Bolt B E] {c : CacheFile B} {bucket : B} {data : Bytes}
    (there : child c.db bucketFakeIP = some bucket) (record : value bucket keyMetadata = some data)
    (unread : ∀ m rest, FakeIPMetadata.unmarshalBinary pre addr data ≠ some (.ok (m, rest))) :
    fakeIPMetadata pre addr c = .ok (none, c) ↔ data = [] ∨ RecordWhole pre addr data := by
  obtain ⟨bucket', deleted⟩ := Bolt.delete_ok bucket keyMetadata (Bolt.child_of_value _ _ _ record)
  rw [← unmarshal_returns_iff]
  simp only [fakeIPMetadata, there, record, deleted, Option.getD_some, List.isEmpty_iff]
  by_cases empty : data = []
  · simp [empty]
  · simp only [empty, if_false, false_or]
    cases read : FakeIPMetadata.unmarshalBinary pre addr data with
    | none => simp [Returns]
    | some o =>
      cases o with
      | ok value => exact absurd read (unread value.1 value.2)
      | err e => simp [Returns, Outcome.Returns]
      | panicked => simp [Returns, Outcome.Returns]

end

/-- **The codec of the metadata.** A value comes back exactly when the lengths of its encodings fit
in 16 bits; a byte string is decoded or refused exactly when no length is cut short; and a record
that has no value is dropped exactly when it is empty or no length in it is cut short. -/
theorem metadata_codec {π α : Type} (pre : BinaryCodec π) (addr : BinaryCodec α) :
    (∀ m : FakeIPMetadata π α,
      (∃ rest, FakeIPMetadata.unmarshalBinary pre addr (m.marshalBinary pre addr) =
        some (.ok (m, rest))) ↔
        m.Short pre addr) ∧
    (∀ data, Returns (FakeIPMetadata.unmarshalBinary pre addr data) ↔ RecordWhole pre addr data) ∧
    (∀ {B E : Type} [Bolt B E] (c : CacheFile B) bucket data,
      child c.db bucketFakeIP = some bucket →
      value bucket keyMetadata = some data →
      (∀ m rest, FakeIPMetadata.unmarshalBinary pre addr data ≠ some (.ok (m, rest))) →
      (fakeIPMetadata pre addr c = .ok (none, c) ↔ data = [] ∨ RecordWhole pre addr data)) := by
  refine ⟨fun m => ⟨?_, fun short => ?_⟩, unmarshal_returns_iff,
    fun _ _ _ => fakeIPMetadata_nil_iff⟩
  · rintro ⟨rest, read⟩
    exact short_of_unmarshal read
  · have read := reads_marshal short []
    rw [List.append_nil] at read
    exact ⟨[], read⟩

/-- `Addr.MarshalBinary` and `Addr.UnmarshalBinary`. -/
def addrCodec : BinaryCodec Addr where
  marshalBinary
    | .zero => []
    | .v4 bytes => bytes.1
    | .v6 bytes zone => bytes.1 ++ zone
  unmarshalBinary bs :=
    if bs.length = 0 ∨ bs.length = 4 then .ok (.fromSlice bs)
    else if h : 16 ≤ bs.length
      then .ok (.v6 ⟨bs.take 16, List.length_take_of_le h⟩ (bs.drop 16))
    else .error "unexpected slice size"
  roundTrip := by
    rintro (_ | ⟨b, size⟩ | ⟨⟨b, size⟩, zone⟩)
    · rfl
    · simp [Addr.fromSlice, size]
    · have long := Nat.lt_add_right zone.length (show 4 < 16 by decide)
      simp [size, Nat.ne_of_gt long]
  shortest := by
    intro bs a read
    split at read
    · next short =>
      cases read
      rcases short with short | short <;> simp [Addr.fromSlice, short]
    · split at read
      · cases read
        simp
      · cases read

/-- Without its zone an address is written as its slice, which is never longer. -/
theorem asSlice_withoutZone (ip : Addr) : addrCodec.marshalBinary ip.withoutZone = ip.asSlice ∧
    ip.withoutZone.asSlice.length ≤ (addrCodec.marshalBinary ip).length := by
  cases ip <;> simp [addrCodec, Addr.withoutZone, Addr.asSlice]

theorem prefixFrom_addr (ip : Addr) (bits : Nat) :
    (Prefix.prefixFrom ip bits).addr = ip.withoutZone := by
  unfold Prefix.prefixFrom
  split <;> rfl

/-- `Prefix.MarshalBinary` and `Prefix.UnmarshalBinary`: the address, and one byte for the bits. -/
def prefixCodec : BinaryCodec Prefix where
  marshalBinary p := p.addr.asSlice ++ [p.bitsByte]
  unmarshalBinary bs :=
    match bs.getLast? with
    | none => .error "unexpected slice size"
    | some bits => (addrCodec.unmarshalBinary bs.dropLast).map (Prefix.prefixFrom · bits.toNat)
  roundTrip p := by
    have address : addrCodec.unmarshalBinary p.addr.asSlice = .ok p.addr := by
      rw [← (asSlice_withoutZone p.addr).1, p.noZone, addrCodec.roundTrip]
    have back := Prefix.prefixFrom_fromSlice p
    rw [Addr.fromSlice_asSlice, p.noZone] at back
    simp only [List.getLast?_concat, List.dropLast_concat, address, Except.map, back]
  shortest := by
    intro bs p read
    split at read
    · cases read
    · next bits last =>
      cases decoded : addrCodec.unmarshalBinary bs.dropLast with
      | error e =>
        rw [decoded] at read
        cases read
      | ok ip =>
        rw [decoded] at read
        cases read
        have size := addrCodec.shortest bs.dropLast ip decoded
        have slice := (asSlice_withoutZone ip).2
        have some : bs ≠ [] := fun empty => by simp [empty] at last
        have long := List.length_pos_iff.mpr some
        rw [List.length_dropLast] at size
        rw [prefixFrom_addr, List.length_append, List.length_singleton]
        omega

/-- A record of unset fields has ten bytes; cut after its first one, it has half of a length. -/
theorem firstByte_panics :
    FakeIPMetadata.marshalBinary prefixCodec addrCodec ⟨.zero, .zero, .zero, .zero⟩ =
      [0, 1, 255, 0, 1, 255, 0, 0, 0, 0] ∧
    FakeIPMetadata.unmarshalBinary prefixCodec addrCodec [0] = some .panicked := by
  decide

end AiboosterEngine.CacheFile
