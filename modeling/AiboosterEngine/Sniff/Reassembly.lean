import AiboosterEngine.Sniff.Total
import Mathlib.Algebra.BigOperators.Group.Finset.Piecewise
import Mathlib.Algebra.Order.BigOperators.Group.Finset
import Mathlib.Order.Interval.Finset.Nat

/-!
# A ClientHello in pieces

The fragments that `QUICClientHello` collects over the packets of a flow, seen as
pieces of one ClientHello. The record it hands to the parser has the length of all
the fragments together, and as its body those that follow each other. The two agree
only as long as every byte has come once.
-/

namespace AiboosterEngine.Sniff
open GoSem List Ja3 Outcome QCryptoFragment

/-- The fragment holds the bytes of the message at its offset. -/
structure QCryptoFragment.Of (message : Bytes) (f : QCryptoFragment) : Prop where
  inside : f.offset + f.length ≤ message.length
  payload : f.payload = (message.drop f.offset).take f.length

def QCryptoFragment.has (i : Nat) (f : QCryptoFragment) : Bool :=
  f.offset ≤ i && i < f.offset + f.length

/-- Every byte of the message is in a fragment. -/
def Covers (message : Bytes) (fragments : List QCryptoFragment) : Prop :=
  ∀ i < message.length, ∃ f ∈ fragments, f.has i = true

variable {i : Nat} {f : QCryptoFragment} {message : Bytes} {n : Nat}
  {fragments : List QCryptoFragment} {length : Nat} {a b : List QCryptoFragment}

theorem has_iff : f.has i = true ↔ f.offset ≤ i ∧ i < f.offset + f.length := by
  simp [has]

theorem QCryptoFragment.Of.exact (h : f.Of message) : f.Exact := by
  have inside := h.inside
  rw [Exact, h.payload, length_take, length_drop]
  omega

theorem length_eq_sum (inside : f.offset + f.length ≤ n) :
    f.length = ∑ i ∈ Finset.range n, if f.has i then 1 else 0 := by
  have bytes : (Finset.range n).filter (fun i => f.has i = true) =
    Finset.Ico f.offset (f.offset + f.length) := by
    grind [has_iff]
  rw [← Finset.card_filter, bytes, Nat.card_Ico]
  omega

/-- All the lengths together, counted byte by byte. -/
theorem frameLen_eq_sum (inside : ∀ f ∈ fragments, f.offset + f.length ≤ n) :
    frameLen fragments = ∑ i ∈ Finset.range n, fragments.countP (has i) := by
  induction fragments with
  | nil => simp [frameLen]
  | cons f fragments ih =>
    have first := length_eq_sum (inside f mem_cons_self)
    have rest := ih fun g mem => inside g (mem_cons_of_mem _ mem)
    have split : frameLen (f :: fragments) = f.length + frameLen fragments := rfl
    simp only [countP_cons, Finset.sum_add_distrib]
    rw [split, rest]
    omega

theorem Covers.counts (covers : Covers message fragments) (inside : i < message.length) :
    1 ≤ fragments.countP (has i) :=
  countP_pos_iff.mpr (covers i inside)

theorem two_le_countP {p : QCryptoFragment → Bool} {g : QCryptoFragment} (first : f ∈ fragments)
    (second : g ∈ fragments) (other : f ≠ g) (here : p f = true) (there : p g = true) :
    2 ≤ fragments.countP p := by
  rw [countP_eq_length_filter]
  have mem := mem_filter.mpr ⟨first, here⟩
  have mem' := mem_filter.mpr ⟨second, there⟩
  cases held : fragments.filter p with
  | nil => simp [held] at mem
  | cons x more => grind

/-- If the lengths are together that of the message, no byte is in two fragments. -/
theorem Covers.once (covers : Covers message fragments) (pieces : ∀ f ∈ fragments, f.Of message)
    (whole : frameLen fragments = message.length) {g : QCryptoFragment} (first : f ∈ fragments)
    (second : g ∈ fragments) (here : f.has i = true) (there : g.has i = true) : f = g := by
  apply Classical.byContradiction
  intro other
  have inside : i < message.length := by
    have bound := (pieces f first).inside
    have last := (has_iff.mp here).2
    omega
  have more : ∑ _i ∈ Finset.range message.length, 1 < frameLen fragments := by
    rw [frameLen_eq_sum fun f mem => (pieces f mem).inside]
    apply Finset.sum_lt_sum
    · exact fun j mem => covers.counts (Finset.mem_range.mp mem)
    · exact ⟨i, Finset.mem_range.mpr inside, two_le_countP first second other here there⟩
  simp [whole] at more

/-- A fragment has bytes, or stands at a place where no other one ends. -/
def Filled (fragments : List QCryptoFragment) : Prop :=
  ∀ f ∈ fragments, 0 < f.length ∨
    f.offset ≠ 0 ∧ ∀ g ∈ fragments, 0 < g.length → g.offset + g.length ≠ f.offset

/-- So the search does not come to an empty one. -/
theorem Filled.found (filled : Filled fragments) {index : Nat} (joined : Joined fragments index)
    (found : firstAt fragments index = some f) : 0 < f.length := by
  induction joined generalizing f with
  | start =>
    obtain ⟨mem, here⟩ := firstAt_some found
    exact (filled f mem).resolve_right fun empty => empty.1 here
  | @next index g _ before ih =>
    obtain ⟨mem, here⟩ := firstAt_some found
    exact (filled f mem).resolve_right fun empty =>
      empty.2 g (firstAt_some before).1 (ih before) here.symm

section
variable {message : Bytes} {fragments : List QCryptoFragment}
  (pieces : ∀ f ∈ fragments, f.Of message)
include pieces

variable {index : Nat} {data : Bytes}

section
variable (chain : Chain fragments index data)
include chain

/-- The fragments that follow each other hold the message from their place on. -/
theorem chain_of :
    data = (message.drop index).take data.length ∧ data.length ≤ ahead fragments index := by
  induction chain with
  | stop => exact ⟨rfl, Nat.zero_le _⟩
  | @link index f more found _ ih =>
    obtain ⟨mem, rfl⟩ := firstAt_some found
    have piece := pieces f mem
    have long : f.payload.length = f.length := piece.exact
    have next := ahead_next mem
    rw [length_append, long]
    refine ⟨?_, by omega⟩
    rw [take_add, drop_drop, ← piece.payload, ← ih.1]

theorem chain_has {i : Nat} (from_ : index ≤ i) (before : i < index + data.length) :
    ∃ f ∈ fragments, f.has i = true ∧ f.offset + f.length ≤ index + data.length := by
  induction chain with
  | stop =>
    rw [length_nil] at before
    omega
  | @link index f more found _ ih =>
    obtain ⟨mem, rfl⟩ := firstAt_some found
    have long : f.payload.length = f.length := (pieces f mem).exact
    rw [length_append, long] at before ⊢
    by_cases here : i < f.offset + f.length
    · exact ⟨f, mem, has_iff.mpr ⟨from_, here⟩, by omega⟩
    · obtain ⟨g, mem, has, ends⟩ := ih (by omega) (by omega)
      exact ⟨g, mem, has, by omega⟩

theorem chain_stops : firstAt fragments (index + data.length) = none := by
  induction chain with
  | stop none_ => exact none_
  | @link index f more found _ ih =>
    obtain ⟨mem, rfl⟩ := firstAt_some found
    have long : f.payload.length = f.length := (pieces f mem).exact
    rw [length_append, long, ← Nat.add_assoc]
    exact ih

end

theorem chain_whole (chain : Chain fragments 0 data) (covers : Covers message fragments)
    (whole : frameLen fragments = message.length) : data = message := by
  have prefix_ := (chain_of pieces chain).1
  rw [drop_zero] at prefix_
  have short : ¬ data.length < message.length := by
    intro short
    obtain ⟨g, mem, has⟩ := covers data.length short
    obtain ⟨starts, goes⟩ := has_iff.mp has
    have stops := chain_stops pieces chain
    rw [Nat.zero_add] at stops
    have other : g.offset ≠ data.length := by
      have unmet := find?_eq_none.mp stops g mem
      simpa using unmet
    -- a fragment that goes beyond the end begins before it, where another one is
    obtain ⟨f, mem', has', ends⟩ := chain_has pieces chain (Nat.zero_le g.offset) (by omega)
    have same := covers.once pieces whole mem mem' (has_iff.mpr ⟨.refl, by omega⟩) has'
    rw [same] at goes
    omega
  rw [prefix_]
  exact take_of_length_le (Nat.le_of_not_lt short)

theorem exists_chain (filled : Filled fragments) : ∃ data, Chain fragments 0 data := by
  have exact := fun f mem => (pieces f mem).exact
  have ends := (join_returns_iff exact).mpr fun _ f => filled.found
  obtain ⟨fuel, outcome, joined, returns⟩ := ends
  cases outcome with
  | ok hello =>
    obtain ⟨data, chain, _⟩ := join_chain exact joined
    exact ⟨data, chain⟩
  | err e =>
    obtain ⟨s, _, failed⟩ := loop_last joined
    cases found : firstAt fragments s.index with
    | some f =>
      rw [joinPass_some found] at failed
      cases failed
    | none =>
      rw [joinPass_none found] at failed
      cases failed
  | panicked => exact returns.elim

end

def record (length : Nat) (body : Bytes) : Bytes := [0x16, 0x03, 0x03] ++ bigEndian 2 length ++ body

theorem word_record (short : length < 65536) (body : Bytes) :
    word (record length body) 3 = length := by
  have bytes : record length body =
      0x16 :: 0x03 :: 0x03 :: UInt8.ofNat (length / 256) :: UInt8.ofNat length :: body := rfl
  simp only [word, byteAt, bytes, getD_cons_succ, getD_cons_zero, UInt8.toNat_ofNat']
  omega

theorem record_length (length : Nat) (body : Bytes) :
    (record length body).length = 5 + body.length := by
  rw [record, length_append, length_append, bigEndian_length]
  rfl

theorem record_drop (length : Nat) (body : Bytes) : (record length body).drop 5 = body := rfl

theorem segmentHandshake_record (short : length < 65536) (body : Bytes) :
    segmentHandshake (record length body) =
      if body.length < length then .err (.lengthErr 2) else .ok (body.take length) := by
  have long := record_length length body
  have type : byteAt (record length body) 0 = contentType := rfl
  have version : word (record length body) 1 = 0x0303 := by
    rw [word, show byteAt (record length body) 1 = 3 from rfl,
      show byteAt (record length body) (1 + 1) = 3 from rfl]
    decide
  unfold segmentHandshake recordLayerHeaderLen
  rw [if_neg (by omega), index_eq (by omega), ok_bind, if_neg (fun other => other type),
    uint16At_eq (by omega), ok_bind, version, if_neg (by decide), uint16At_eq (by omega), ok_bind,
    word_record short, sliceFrom_eq (by omega), ok_bind, record_drop]
  split
  · rfl
  · rw [slice_eq (by omega) (by omega), record_drop, Nat.add_sub_cancel_left]

theorem compute_cut (short : length < 65536) {body : Bytes} (cut : body.length < length) :
    compute (record length body) = some (.err (.lengthErr 2)) := by
  unfold compute parseSegment
  rw [segmentHandshake_record short, if_pos cut]
  rfl

theorem compute_whole {body : Bytes} (short : body.length < 65536) :
    compute (record body.length body) = parseHandshake {} body := by
  unfold compute parseSegment
  rw [segmentHandshake_record short, if_neg (Nat.lt_irrefl _), take_length]
  rfl

theorem handshakeExtensions_ok {j : ClientHello} {hs : Bytes} {r : ClientHello × Bytes}
    (h : handshakeExtensions j hs = .ok r) :
    39 ≤ hs.length ∧ byteAt hs 0 = handshakeType ∧
      hs.length - 4 = (byteAt hs 1).toNat * 65536 + word hs 2 := by
  unfold handshakeExtensions handshakeHeaderLen randomDataLen sessionIDHeaderLen at h
  by_cases cut : hs.length < 6 + 32 + 1
  · rw [if_pos cut] at h
    cases h
  rw [if_neg cut, index_eq (by omega), ok_bind] at h
  by_cases type : byteAt hs 0 ≠ handshakeType
  · rw [if_pos type] at h
    cases h
  rw [if_neg type, index_eq (by omega), ok_bind, uint16At_eq (by omega), ok_bind,
    sliceFrom_eq (by omega), ok_bind, length_drop] at h
  by_cases other : hs.length - 4 ≠ (byteAt hs 1).toNat * 65536 + word hs 2
  · rw [if_pos other] at h
    cases h
  exact ⟨by omega, Classical.not_not.mp type, Classical.not_not.mp other⟩

theorem handshakeExtensions_err (j : ClientHello) {hs : Bytes}
    (other : 39 ≤ hs.length → byteAt hs 0 = handshakeType ∧
      hs.length - 4 ≠ (byteAt hs 1).toNat * 65536 + word hs 2) :
    ∃ e, handshakeExtensions j hs = .err e := by
  unfold handshakeExtensions handshakeHeaderLen randomDataLen sessionIDHeaderLen
  by_cases cut : hs.length < 6 + 32 + 1
  · exact ⟨_, if_pos cut⟩
  obtain ⟨type, length⟩ := other (by omega)
  rw [if_neg cut, index_eq (by omega), ok_bind, if_neg (fun different => different type),
    index_eq (by omega), ok_bind, uint16At_eq (by omega), ok_bind, sliceFrom_eq (by omega),
    ok_bind, length_drop, if_pos length]
  exact ⟨_, rfl⟩

theorem byteAt_take {bs : Bytes} (h : i < n) : byteAt (bs.take n) i = byteAt bs i := by
  simp only [byteAt, getD_eq_getElem?_getD, getElem?_take_of_lt h]

/-- The beginning of a ClientHello is not one: it says how long the whole is. -/
theorem compute_incomplete {hello : ClientHello}
    (accepted : parseHandshake {} message = some (.ok hello)) (less : n < message.length) :
    ∃ e, parseHandshake {} (message.take n) = some (.err e) := by
  unfold parseHandshake at accepted ⊢
  have read : ∃ r, handshakeExtensions {} message = .ok r := by
    cases handshake : handshakeExtensions {} message with
    | ok r => exact ⟨r, rfl⟩
    | err e | panicked =>
      rw [handshake] at accepted
      cases accepted
  obtain ⟨r, handshake⟩ := read
  obtain ⟨long, type, length⟩ := handshakeExtensions_ok handshake
  have cut : (message.take n).length = n := by
    rw [length_take]
    omega
  have refused : ∃ e, handshakeExtensions {} (message.take n) = .err e := by
    apply handshakeExtensions_err
    rw [cut]
    intro enough
    rw [byteAt_take (by omega), byteAt_take (by omega), word, byteAt_take (by omega),
      byteAt_take (by omega), ← word, ← length]
    exact ⟨type, by omega⟩
  obtain ⟨e, refused⟩ := refused
  rw [refused]
  exact ⟨e, rfl⟩

/-- Fragments of the message, no empty one in the way, and not too many for the length of a
record. -/
structure Pieces (message : Bytes) (fragments : List QCryptoFragment) : Prop where
  of : ∀ f ∈ fragments, f.Of message
  filled : Filled fragments
  short : frameLen fragments < 65536

theorem frameLen_append (a b : List QCryptoFragment) :
    frameLen (a ++ b) = frameLen a + frameLen b := by
  simp [frameLen]

theorem frameLen_perm (perm : a.Perm b) : frameLen a = frameLen b :=
  (perm.map _).sum_nat

theorem Pieces.perm (pieces : Pieces message a) (perm : a.Perm b) : Pieces message b where
  of f mem := pieces.of f (perm.mem_iff.mpr mem)
  filled f mem := (pieces.filled f (perm.mem_iff.mpr mem)).imp_right fun empty =>
    ⟨empty.1, fun g mem => empty.2 g (perm.mem_iff.mpr mem)⟩
  short := frameLen_perm perm ▸ pieces.short

theorem Pieces.right (pieces : Pieces message (a ++ b)) : Pieces message b where
  of f mem := pieces.of f (mem_append_right a mem)
  filled f mem := (pieces.filled f (mem_append_right a mem)).imp_right fun empty =>
    ⟨empty.1, fun g mem => empty.2 g (mem_append_right a mem)⟩
  short := by
    have short := pieces.short
    rw [frameLen_append] at short
    omega

theorem Covers.mono (covers : Covers message a) (sub : a ⊆ b) : Covers message b := by
  intro i inside
  obtain ⟨f, mem, has⟩ := covers i inside
  exact ⟨f, sub mem, has⟩

section
variable {message : Bytes} {fragments : List QCryptoFragment} {hello : ClientHello}

section
variable (pieces : Pieces message fragments)
include pieces

/-- The parser takes what is joined for the whole only if it is, and nothing has come twice. -/
theorem compute_refused (accepted : parseHandshake {} message = some (.ok hello)) {data : Bytes}
    (chain : Chain fragments 0 data)
    (unequal : data ≠ message ∨ frameLen fragments ≠ message.length) :
    ∃ e, compute (record (frameLen fragments) data) = some (.err e) := by
  obtain ⟨prefix_, le⟩ := chain_of pieces.of chain
  rw [drop_zero] at prefix_
  rw [ahead_zero] at le
  rcases Nat.lt_or_eq_of_le le with cut | same
  · exact ⟨_, compute_cut pieces.short cut⟩
  · have less : data.length < message.length := by grind
    rw [← same, compute_whole (by have := pieces.short; omega), prefix_]
    exact compute_incomplete accepted less

theorem chain_ne_of_not_covers {data : Bytes} (chain : Chain fragments 0 data)
    (missing : ¬ Covers message fragments) : data ≠ message := by
  rintro rfl
  apply missing
  intro i inside
  obtain ⟨f, mem, has, _⟩ := chain_has pieces.of chain (Nat.zero_le i) (by omega)
  exact ⟨f, mem, has⟩

theorem exists_joined : ∃ data fuel₀, Chain fragments 0 data ∧
    ∀ fuel, fuel₀ ≤ fuel → join fragments fuel = some (.ok (record (frameLen fragments) data)) := by
  obtain ⟨data, chain⟩ := exists_chain pieces.of pieces.filled
  obtain ⟨fuel₀, joined⟩ := join_of_chain (fun f mem => (pieces.of f mem).exact) chain
  exact ⟨data, fuel₀, chain, fun fuel enough => loop_mono joined enough⟩

end

/-- The packet is opened and has these fragments in its CRYPTO frames. -/
def Carries (c : Qtls.Crypto) (packet : Bytes) (found : List QCryptoFragment) : Prop :=
  ∃ d frameTypeList, decrypt c packet = some (.ok d) ∧
    readFrames d = some (.ok (frameTypeList, found))

variable {c : Qtls.Crypto} {packet : Bytes} {found : List QCryptoFragment}

theorem quicClientHello_eq (metadata : Metadata) (carries : Carries c packet found) :
    ∃ frameTypeList, (found ≠ [] → frameTypeList ≠ []) ∧
    ∀ fuel buffer, join (found ++ metadata.fragments) fuel = some (.ok buffer) →
      quicClientHello c fuel metadata packet =
        identify { metadata with sniffContext := none, protocol := protocolQUIC } frameTypeList
          (found ++ metadata.fragments) buffer := by
  obtain ⟨d, frameTypeList, opened, read⟩ := carries
  refine ⟨frameTypeList, fun some_ none_ => some_ ((readFrames_ok read).2.2 none_),
    fun fuel buffer joined => ?_⟩
  unfold quicClientHello
  rw [opened]
  show (failing metadata (readFrames d) >>= _) = _
  rw [read]
  show (failing _ (join (found ++ metadata.fragments) fuel) >>= _) = _
  rw [joined]
  rfl

variable {metadata : Metadata} {frameTypeList : List UInt8}

theorem identify_err {buffer : Bytes} {e : ParseError}
    (failed : compute buffer = some (.err e)) : identify metadata frameTypeList fragments buffer =
      some (.err (.needMoreData e, { metadata with sniffContext := some fragments })) := by
  unfold identify
  rw [failed]
  rfl

theorem clientOf_ok (frames : frameTypeList ≠ []) (fingerprint : ClientHello) :
    ∃ client, clientOf frameTypeList fingerprint = .ok client := by
  have long : 0 < frameTypeList.length := length_pos_iff.mpr frames
  unfold clientOf
  split
  · exact ⟨_, rfl⟩
  · rw [index_eq long, ok_bind, sliceFrom_eq long, ok_bind]
    split
    · exact ⟨_, rfl⟩
    · rw [index_eq (by omega), ok_bind, slice_eq (by omega) (by omega), ok_bind]
      split
      · exact ⟨_, rfl⟩
      · split
        · exact ⟨_, rfl⟩
        · exact ⟨_, rfl⟩

theorem identify_ok (frames : frameTypeList ≠ []) {buffer : Bytes}
    (computed : compute buffer = some (.ok hello)) : ∃ metadata',
      identify metadata frameTypeList fragments buffer = some (.ok metadata') ∧
        metadata'.domain = hello.serverName := by
  obtain ⟨client, named⟩ := clientOf_ok frames hello
  unfold identify setClient
  rw [computed]
  by_cases known : metadata.client = ""
  · refine ⟨{ metadata with domain := hello.serverName, client }, ?_, rfl⟩
    show failing _ (if metadata.client = "" then _ else _) = _
    rw [if_pos known, named]
    rfl
  · refine ⟨{ metadata with domain := hello.serverName }, ?_, rfl⟩
    show failing _ (if metadata.client = "" then _ else _) = _
    rw [if_neg known]
    rfl

theorem packet_kept (carries : Carries c packet found)
    (pieces : Pieces message (found ++ metadata.fragments))
    (accepted : parseHandshake {} message = some (.ok hello))
    (missing : ¬ Covers message (found ++ metadata.fragments)) : ∃ fuel₀, ∀ fuel, fuel₀ ≤ fuel →
      flow metadata (.packet c fuel packet) =
        some { metadata with
          sniffContext := some (found ++ metadata.fragments), protocol := protocolQUIC } := by
  obtain ⟨data, fuel₀, chain, joins⟩ := exists_joined pieces
  obtain ⟨e, failed⟩ :=
    compute_refused pieces accepted chain (.inl (chain_ne_of_not_covers pieces chain missing))
  obtain ⟨frameTypeList, _, called⟩ := quicClientHello_eq metadata carries
  refine ⟨fuel₀, fun fuel enough => ?_⟩
  rw [flow, called fuel _ (joins fuel enough), identify_err failed]
  rfl

/-- The packets before the one that completes the message leave their fragments. -/
theorem packets_kept {packets : List Bytes} {founds : List (List QCryptoFragment)}
    (carry : List.Forall₂ (Carries c) packets founds) {metadata : Metadata}
    (pieces : Pieces message (founds.flatten ++ metadata.fragments))
    (accepted : parseHandshake {} message = some (.ok hello))
    (missing : ¬ Covers message (founds.flatten ++ metadata.fragments)) : ∃ fuel₀ metadata',
      (founds.flatten ++ metadata.fragments).Perm metadata'.fragments ∧
      ∀ fuel, fuel₀ ≤ fuel →
        exec flow metadata (packets.map (.packet c fuel)) = some metadata' := by
  induction carry generalizing metadata with
  | nil => exact ⟨0, metadata, .refl _, fun fuel _ => rfl⟩
  | @cons packet found packets founds first _ ih =>
    have order : (found ++ founds.flatten ++ metadata.fragments).Perm
        (founds.flatten ++ (found ++ metadata.fragments)) := by
      grind
    rw [flatten_cons] at pieces missing ⊢
    have later := pieces.perm order
    have missing' : ¬ Covers message (founds.flatten ++ (found ++ metadata.fragments)) :=
      fun covers => missing (covers.mono order.symm.subset)
    obtain ⟨fuel₁, kept⟩ := packet_kept first later.right accepted
      fun covers => missing' (covers.mono (subset_append_right _ _))
    obtain ⟨fuel₂, metadata', same, run⟩ := @ih { metadata with
      sniffContext := some (found ++ metadata.fragments)
      protocol := protocolQUIC } later missing'
    refine ⟨max fuel₁ fuel₂, metadata', order.trans same, fun fuel enough => ?_⟩
    rw [map_cons, exec, kept fuel (Nat.le_trans (Nat.le_max_left _ _) enough)]
    exact run fuel (Nat.le_trans (Nat.le_max_right _ _) enough)

end

/-- A message that comes in the CRYPTO frames of packets: `packets`, with the fragments `founds`,
leave bytes missing, and `last` brings them. -/
structure Delivered (c : Qtls.Crypto) (message : Bytes) (packets : List Bytes)
    (founds : List (List QCryptoFragment))
    (last : Bytes) (final : List QCryptoFragment) : Prop where
  carry : List.Forall₂ (Carries c) packets founds
  completes : Carries c last final
  pieces : Pieces message (founds.flatten ++ final)
  missing : ¬ Covers message founds.flatten
  covers : Covers message (founds.flatten ++ final)

/-- The packet that brings the last byte gives the server name exactly if the fragments have,
together, the length of the ClientHello: if no byte of it has come twice. -/
theorem found_iff {c : Qtls.Crypto} {message : Bytes} {packets : List Bytes}
    {founds : List (List QCryptoFragment)}
    {last : Bytes} {final : List QCryptoFragment} {hello : ClientHello} (start : Metadata)
    (delivered : Delivered c message packets founds last final) (short : message.length < 65536)
    (accepted : compute (record message.length message) = some (.ok hello))
    (fresh : start.sniffContext = none) :
    ∃ fuel₀ metadata, ∀ fuel, fuel₀ ≤ fuel →
      exec flow start (packets.map (.packet c fuel)) = some metadata ∧
      ((∃ metadata', quicClientHello c fuel metadata last = some (.ok metadata') ∧
        metadata'.domain = hello.serverName) ↔
          frameLen (founds.flatten ++ final) = message.length) := by
  have parsed : parseHandshake {} message = some (.ok hello) :=
    (compute_whole short).symm.trans accepted
  have none_ : start.fragments = [] := by rw [Metadata.fragments, fresh]; rfl
  -- the packets before the last one
  have earlier : Pieces message (founds.flatten ++ start.fragments) := by
    rw [none_, append_nil]
    exact (delivered.pieces.perm perm_append_comm).right
  have missing : ¬ Covers message (founds.flatten ++ start.fragments) := by
    rw [none_, append_nil]
    exact delivered.missing
  obtain ⟨fuel₁, metadata, order, run⟩ := packets_kept delivered.carry earlier parsed missing
  rw [none_, append_nil] at order
  -- the last packet
  have all : (founds.flatten ++ final).Perm (final ++ metadata.fragments) :=
    perm_append_comm.trans (order.append_left final)
  have pieces := delivered.pieces.perm all
  have covers := delivered.covers.mono all.subset
  have fresh_ : final ≠ [] := by
    intro empty
    apply delivered.missing
    have covers := delivered.covers
    rwa [empty, append_nil] at covers
  obtain ⟨data, fuel₂, chain, joins⟩ := exists_joined pieces
  obtain ⟨frameTypeList, frames, called⟩ := quicClientHello_eq metadata delivered.completes
  refine ⟨max fuel₁ fuel₂, metadata, fun fuel enough =>
    ⟨run fuel (Nat.le_trans (Nat.le_max_left _ _) enough), ?_⟩⟩
  rw [called fuel _ (joins fuel (Nat.le_trans (Nat.le_max_right _ _) enough)), frameLen_perm all]
  constructor
  · rintro ⟨metadata', returned, _⟩
    apply Classical.byContradiction
    intro unequal
    obtain ⟨e, failed⟩ := compute_refused pieces parsed chain (.inr unequal)
    rw [identify_err failed] at returned
    cases returned
  · intro whole
    rw [chain_whole pieces.of chain covers whole, whole]
    exact identify_ok (frames fresh_) accepted

def firstHalf : QCryptoFragment := ⟨0, 33, goodHello.take 33⟩

def secondHalf : QCryptoFragment := ⟨33, 33, goodHello.drop 33⟩

/-- A packet with one of them. -/
def halfPacket (half : QCryptoFragment) : Bytes :=
  initialPacket (cryptoFrame (UInt8.ofNat half.offset) half.payload)

/-- What the parser reads in both together. -/
def goodFingerprint : ClientHello where
  version := 0x0303
  cipherSuites := [0x1301]
  extensions := [0, 43]
  versions := [0x0304]
  serverName := utf8 "a.b"

theorem goodHello_accepted : compute (record goodHello.length goodHello) =
    some (.ok goodFingerprint) := by
  decide +kernel

theorem carries_firstHalf : Carries plainCrypto (halfPacket firstHalf) [firstHalf] :=
  ⟨⟨cryptoFrame 0 (goodHello.take 33), replicate 16 0⟩, [frameTypeCrypto], by decide +kernel,
    by decide +kernel⟩

theorem carries_secondHalf : Carries plainCrypto (halfPacket secondHalf) [secondHalf] :=
  ⟨⟨cryptoFrame 33 (goodHello.drop 33), replicate 16 0⟩, [frameTypeCrypto], by decide +kernel,
    by decide +kernel⟩

theorem halves_delivered :
    Delivered plainCrypto goodHello [halfPacket secondHalf] [[secondHalf]] (halfPacket firstHalf)
    [firstHalf] where
  carry := .cons carries_secondHalf .nil
  completes := carries_firstHalf
  pieces := by
    constructor
    · intro f mem
      rcases mem_cons.mp mem with rfl | mem
      · exact ⟨by decide, by decide⟩
      · rw [mem_singleton.mp mem]
        exact ⟨by decide, by decide⟩
    · unfold Filled
      decide
    · decide
  missing := by
    intro covers
    obtain ⟨f, mem, has⟩ := covers 0 (by decide)
    rw [mem_singleton.mp mem] at has
    cases has
  covers := by
    intro i inside
    have long : goodHello.length = 66 := by decide
    by_cases first : i < 33
    · refine ⟨firstHalf, mem_cons_of_mem _ mem_cons_self, has_iff.mpr ?_⟩
      show 0 ≤ i ∧ i < 0 + 33
      omega
    · refine ⟨secondHalf, mem_cons_self, has_iff.mpr ?_⟩
      show 33 ≤ i ∧ i < 33 + 33
      omega

/-- The halves in the other order. -/
theorem halves_found : ∃ fuel₀ metadata, ∀ fuel, fuel₀ ≤ fuel →
    exec flow {} [.packet plainCrypto fuel (halfPacket secondHalf)] = some metadata ∧
    ∃ metadata',
      quicClientHello plainCrypto fuel metadata (halfPacket firstHalf) = some (.ok metadata') ∧
      metadata'.domain = utf8 "a.b" := by
  obtain ⟨fuel₀, metadata, run⟩ := found_iff {} halves_delivered (by decide) goodHello_accepted rfl
  exact ⟨fuel₀, metadata, fun fuel enough =>
    ⟨(run fuel enough).1, (run fuel enough).2.mpr (by decide)⟩⟩

/-- The second half comes twice before the first: more data is asked for, though all is there. -/
theorem second_half_twice : ∃ metadata metadata',
    exec flow {} [.packet plainCrypto 3 (halfPacket secondHalf),
      .packet plainCrypto 3 (halfPacket secondHalf)] = some metadata ∧
    quicClientHello plainCrypto 3 metadata (halfPacket firstHalf) =
      some (.err (.needMoreData (.lengthErr 2), metadata')) ∧ metadata'.domain = [] := by
  refine ⟨{ protocol := protocolQUIC, sniffContext := some [secondHalf, secondHalf] },
    { protocol := protocolQUIC, sniffContext := some [firstHalf, secondHalf, secondHalf] }, ?_, ?_,
      rfl⟩
  · decide +kernel
  · decide +kernel

end AiboosterEngine.Sniff
