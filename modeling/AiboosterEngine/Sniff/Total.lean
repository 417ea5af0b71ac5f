import AiboosterEngine.GoSem.Steps
import AiboosterEngine.Sniff.Frames
import Mathlib.Algebra.Order.BigOperators.Group.List
import Mathlib.Algebra.Order.Group.Nat

/-!
# When sniffing a QUIC packet comes back

* `decrypt_returns`: up to the plaintext every read is behind a check;
* `readFrames_returns_iff`: the loop over the frames comes back exactly when no
  CRYPTO frame it comes to overruns the array;
* `leftBehind_of_reachable`: a context that earlier packets left does not make
  a ClientHello, so that a packet that completes one has a frame.
-/

namespace AiboosterEngine.Sniff
open GoSem List Partial Qtls Ja3 QCryptoFragment

/-- A header that is read whole leaves the packet number and its sample behind it, and the length
it gives is within the packet. -/
theorem readHeader_yields (packet : Bytes) : Yields (readHeader packet) packet fun h _ =>
    h.hdrLen + 20 ≤ packet.length ∧ h.hdrLen + h.packetLen ≤ packet.length := by
  unfold readHeader
  refine .bind (readByte_yields _) fun typeByte _ len1 => .ite (fun _ => .fail) fun _ => ?_
  refine .bind (readFull_yields _ _) fun version _ len2 => .ite (fun _ => .fail) fun _ => ?_
  refine .ite (fun _ => .fail) fun _ => .bind (readByte_yields _) fun destConnIDLen _ len3 => ?_
  refine .ite (fun _ => .fail) fun _ => .bind (readFull_yields _ _) fun destConnID _ len4 => ?_
  refine .bind (readByte_yields _) fun srcConnIDLen _ len5 =>
    .bind (skip_yields _ _) fun _ _ len6 => ?_
  refine .bind (readUvarint_yields _) fun tokenLen _ len7 =>
    .bind (skip_yields _ _) fun _ _ len8 => ?_
  refine .bind (readUvarint_yields _) fun packetLen rest len9 => ?_
  refine .bind (remaining_yields rest) ?_
  rintro _ _ ⟨rfl, rfl⟩
  refine .ite (fun _ => .fail) fun fits => .bind (skip_yields _ _) fun _ _ len10 => ?_
  refine .bind (readFull_yields _ _) fun pnBytes _ len11 => .pure ⟨?_, ?_⟩
  · dsimp only
    omega
  · exact Nat.le_of_not_lt fits

variable {packet : Bytes} {fragments : List QCryptoFragment} {index : Nat} {f : QCryptoFragment}
  {s : Joining} {buffer : Bytes} {fuel : Nat} {hello : Bytes} {frameTypeList : List UInt8}
  {metadata metadata' : Metadata}

/-- What is xored keeps its length, and all of it is inside. -/
theorem removeProtection_gives {mask : Bytes} {hdrLen : Nat} (hmask : mask.length = 16)
    (inside : hdrLen + 4 ≤ packet.length) :
    (removeProtection mask packet hdrLen).Gives fun newPacket =>
      newPacket.length = packet.length := by
  have fold : ∀ l : List Nat, (∀ i ∈ l, i < 4) → ∀ newPacket : Bytes,
    newPacket.length = packet.length →
      ∃ out, l.foldlM (fun newPacket i => do
        let b ← index mask (i + 1)
        xorAt newPacket (hdrLen + i) b) newPacket = (.ok out : Outcome String Bytes) ∧
        out.length = packet.length := by
    intro l
    induction l with
    | nil => exact fun _ newPacket same => ⟨newPacket, rfl, same⟩
    | cons i l ih =>
      intro below newPacket same
      have first := below i mem_cons_self
      obtain ⟨next, xored, len⟩ :=
        xorAt_gives (ε := String) (by omega : hdrLen + i < newPacket.length) (byteAt mask (i + 1))
      obtain ⟨out, rest, outLen⟩ := ih (fun j hj => below j (mem_cons_of_mem _ hj)) next (by omega)
      refine ⟨out, ?_, outLen⟩
      rw [foldlM_cons, index_eq (by omega), Outcome.ok_bind, xored]
      exact rest
  obtain ⟨first, xored, len⟩ := xorAt_gives (ε := String) (by omega : 0 < packet.length)
    (byteAt mask 0 &&& 0xf)
  obtain ⟨out, rest, outLen⟩ := fold (range 4) (fun i hi => mem_range.mp hi) first len
  refine ⟨out, ?_, outLen⟩
  unfold removeProtection
  rw [index_eq (by omega), Outcome.ok_bind, xored, Outcome.ok_bind,
    slice_eq (by omega) (by omega), Outcome.ok_bind]
  have four : ((first.drop hdrLen).take (hdrLen + 4 - hdrLen)).length = 4 := by
    rw [length_take, length_drop]
    omega
  rw [four]
  exact rest

theorem packetNumberAt_ok {newPacket : Bytes} {hdrLen n : Nat} (low : 1 ≤ n) (high : n ≤ 4)
    (inside : hdrLen + 4 ≤ newPacket.length) :
      ∃ number, packetNumberAt newPacket hdrLen n = .ok number := by
  have read : ∃ number, (do
      let number ← slice newPacket hdrLen (hdrLen + n)
      return fromBigEndian number) = (.ok number : Outcome String Nat) :=
    ⟨_, by rw [slice_eq (by omega) (by omega)]; rfl⟩
  match n, low, high with
  | 1, _, _ | 2, _, _ | 3, _, _ | 4, _, _ => exact read

variable (c : Crypto)

theorem openPacket_returns {h : Header} (sample : h.hdrLen + 20 ≤ packet.length)
    (fits : h.hdrLen + h.packetLen ≤ packet.length) : (openPacket c packet h).Returns := by
  suffices (openPacket c packet h).Yields fun _ => True from this.1
  unfold openPacket
  refine .bindGives (hkdfExpandLabel_gives c _ _ _ (by decide)) fun secret _ => ?_
  refine .bindGives (hkdfExpandLabel_gives c _ _ _ (by decide)) fun hpKey hpLen => ?_
  refine .bind (newCipher_eq hpLen) ?_
  refine .bindGives (removeProtection_gives (c.encrypt_length _ _) (by omega)) fun newPacket same =>
    ?_
  refine .bind (index_eq (by omega)) (.ite (fun _ => .err) fun long => ?_)
  have number : ((byteAt newPacket 0) &&& 0x3).toNat < 4 := by
    rw [UInt8.toNat_and]
    exact Nat.lt_of_le_of_lt Nat.and_le_right (by decide)
  refine .bindAny (packetNumberAt_ok (by omega) (by omega) (by omega)) fun packetNumber => ?_
  refine .bind (sliceFrom_eq (by omega)) ?_
  refine .bindGives (copyInto_gives (by omega) (by omega) _) fun copied same' => ?_
  refine .bind (slice_eq (by omega) (by omega)) ?_
  refine .bindGives (hkdfExpandLabel_gives c _ _ _ (by decide)) fun key keyLen => ?_
  refine .bindGives (hkdfExpandLabel_gives c _ _ _ (by decide)) fun iv ivLen => ?_
  refine .bind (aeadAESGCMTLS13_eq keyLen ivLen) (.bind (slice_eq (by omega) (by omega)) ?_)
  refine ⟨(Outcome.bind_returns _ _).mpr ⟨XorNonceAEAD.openAEAD_returns _ _ _ _ _, ?_⟩, ?_⟩
  · exact fun _ _ => trivial
  · exact fun _ _ => trivial

theorem decrypt_returns (packet : Bytes) : (decrypt c packet).Returns := by
  have header := readHeader_yields packet
  unfold decrypt
  rw [bind_returns]
  refine ⟨header.returns, fun ⟨h, rest⟩ read => some_returns.mpr ?_⟩
  obtain ⟨sample, fits⟩ := header.post read
  exact openPacket_returns c sample fits

/-- The places in the ClientHello that the fragments reach, each from the one before. -/
inductive Joined (fragments : List QCryptoFragment) : Nat → Prop
  | start : Joined fragments 0
  | next {index : Nat} {f : QCryptoFragment} : Joined fragments index →
      firstAt fragments index = some f → Joined fragments (f.offset + f.length)

theorem firstAt_some (h : firstAt fragments index = some f) : f ∈ fragments ∧ f.offset = index :=
  ⟨mem_of_find?_eq_some h, by simpa using find?_some h⟩

theorem joinPass_some (h : firstAt fragments s.index = some f) :
    joinPass fragments s = some (.ok (.again ⟨f.offset + f.length,
      bufferWrite (5 + frameLen fragments) s.buffer f.payload⟩)) := by
  unfold joinPass
  rw [h]
  rfl

theorem joinPass_none (h : firstAt fragments s.index = none) :
    joinPass fragments s = some (.ok (.leave s.buffer)) := by
  unfold joinPass
  rw [h]
  rfl

theorem joinPass_again {t : Joining} (h : joinPass fragments s = some (.ok (.again t))) :
    ∃ f, firstAt fragments s.index = some f := by
  refine Option.ne_none_iff_exists'.mp fun none => ?_
  rw [joinPass_none none] at h
  cases h

theorem joined_of_comes (h : Comes (joinPass fragments) ⟨0, buffer⟩ s) :
    Joined fragments s.index := by
  induction h with
  | here => exact .start
  | next _ again joined =>
    obtain ⟨f, found⟩ := joinPass_again again
    rw [joinPass_some found] at again
    cases again
    exact .next joined found

theorem comes_of_joined (h : Joined fragments index) (buffer : Bytes) :
    ∃ buffer', Comes (joinPass fragments) ⟨0, buffer⟩ ⟨index, buffer'⟩ := by
  induction h with
  | start => exact ⟨buffer, .here⟩
  | next _ found ih =>
    obtain ⟨buffer', comes⟩ := ih
    exact ⟨_, .next comes (joinPass_some found)⟩

/-- A fragment without bytes leads to its own place, with nothing written. -/
theorem joinPass_stalls (found : firstAt fragments s.index = some f) (exact : f.Exact)
    (empty : f.length = 0) :
    joinPass fragments s = some (.ok (.again s)) := by
  have nothing : f.payload = [] := eq_nil_of_length_eq_zero (exact.trans empty)
  rw [joinPass_some found, nothing, empty, (firstAt_some found).2, bufferWrite]
  simp

/-- The loop `find` ends exactly when no place it comes to has, as its first fragment, one
without bytes. -/
theorem join_returns_iff (exact : ∀ f ∈ fragments, f.Exact) :
    (∃ fuel, (join fragments fuel).Returns) ↔
      ∀ index f, Joined fragments index → firstAt fragments index = some f → 0 < f.length := by
  -- past the last offset no fragment is found any more
  have progress : ∀ s t, Comes (joinPass fragments) ⟨0, recordHeader fragments⟩ s →
      joinPass fragments s = some (.ok (.again t)) → t = s ∨
      (fragments.map offset).sum + 1 - t.index <
        (fragments.map offset).sum + 1 - s.index := by
    intro s t _ again
    obtain ⟨f, found⟩ := joinPass_again again
    obtain ⟨mem, place⟩ := firstAt_some found
    by_cases empty : f.length = 0
    · rw [joinPass_stalls found (exact f mem) empty] at again
      cases again
      exact .inl rfl
    · have bound : f.offset ≤ (fragments.map offset).sum :=
        le_sum_of_mem (mem_map_of_mem mem)
      rw [joinPass_some found] at again
      cases again
      right
      dsimp only
      omega
  refine (loop_returns_iff (fun s : Joining =>
    (fragments.map offset).sum + 1 - s.index) progress).trans ?_
  constructor
  · intro passes index f joined found
    obtain ⟨buffer, comes⟩ := comes_of_joined joined (recordHeader fragments)
    refine Nat.pos_of_ne_zero fun empty => (passes _ comes).2 ?_
    exact joinPass_stalls found (exact f (firstAt_some found).1) empty
  · intro moves s comes
    have joined := joined_of_comes comes
    match found : firstAt fragments s.index with
    | none => exact ⟨⟨_, joinPass_none found, trivial⟩, by rw [joinPass_none found]; nofun⟩
    | some f =>
      have long := moves s.index f joined found
      refine ⟨⟨_, joinPass_some found, trivial⟩, fun stall => ?_⟩
      rw [joinPass_some found] at stall
      have same := congrArg Joining.index (Pass.again.inj (Outcome.ok.inj (Option.some.inj stall)))
      have place := (firstAt_some found).2
      dsimp only at same
      omega

/-- The payload of the fragments that follow each other from a place on. -/
inductive Chain (fragments : List QCryptoFragment) : Nat → Bytes → Prop
  | stop {index : Nat} : firstAt fragments index = none → Chain fragments index []
  | link {index : Nat} {f : QCryptoFragment} {more : Bytes} : firstAt fragments index = some f →
      Chain fragments (f.offset + f.length) more → Chain fragments index (f.payload ++ more)

def ahead (fragments : List QCryptoFragment) (index : Nat) : Nat :=
  (fragments.map fun f => if index ≤ f.offset then f.length else 0).sum

theorem ahead_zero (fragments : List QCryptoFragment) : ahead fragments 0 = frameLen fragments := by
  simp [ahead, frameLen]

theorem ahead_cons (f : QCryptoFragment) (fragments : List QCryptoFragment) (index : Nat) :
    ahead (f :: fragments) index =
      (if index ≤ f.offset then f.length else 0) + ahead fragments index :=
  rfl

theorem ahead_antitone (fragments : List QCryptoFragment) {later : Nat} (h : index ≤ later) :
    ahead fragments later ≤ ahead fragments index := by
  induction fragments with
  | nil => exact .refl
  | cons f fragments ih =>
    rw [ahead_cons, ahead_cons]
    split <;> split <;> omega

theorem ahead_next (mem : f ∈ fragments) :
    f.length + ahead fragments (f.offset + f.length) ≤ ahead fragments f.offset := by
  induction mem with
  | head fragments =>
    have tail := ahead_antitone fragments (Nat.le_add_right f.offset f.length)
    rw [ahead_cons, ahead_cons, if_pos (Nat.le_refl _)]
    split <;> omega
  | tail g _ ih =>
    rw [ahead_cons, ahead_cons]
    split <;> split <;> omega

def Room (fragments : List QCryptoFragment) (s : Joining) : Prop :=
  s.buffer.length + ahead fragments s.index ≤ 5 + frameLen fragments

theorem room_start (fragments : List QCryptoFragment) :
    Room fragments ⟨0, recordHeader fragments⟩ := by
  show (recordHeader fragments).length + ahead fragments 0 ≤ _
  rw [ahead_zero]
  exact .refl

theorem joinPass_writes (room : Room fragments s) (found : firstAt fragments s.index = some f)
    (exact : f.Exact) :
    Room fragments ⟨f.offset + f.length, s.buffer ++ f.payload⟩ ∧
    joinPass fragments s = some (.ok (.again ⟨f.offset + f.length, s.buffer ++ f.payload⟩)) := by
  obtain ⟨mem, place⟩ := firstAt_some found
  have next := ahead_next mem
  have long : f.payload.length = f.length := exact
  unfold Room at room
  rw [place] at next
  constructor
  · show (s.buffer ++ f.payload).length + ahead fragments (f.offset + f.length) ≤ _
    rw [length_append, place]
    omega
  · rw [joinPass_some found, bufferWrite, take_of_length_le (by omega)]

theorem join_of_chain (exact : ∀ f ∈ fragments, f.Exact) {data : Bytes}
    (h : Chain fragments 0 data) :
    ∃ fuel, join fragments fuel = some (.ok (recordHeader fragments ++ data)) := by
  have run : ∀ index data, Chain fragments index data → ∀ buffer, Room fragments ⟨index, buffer⟩ →
      ∃ fuel, loop (joinPass fragments) fuel ⟨index, buffer⟩ = some (.ok (buffer ++ data)) := by
    intro index data chain
    induction chain with
    | stop none =>
      intro buffer _
      exact ⟨1, by rw [loop_leave (joinPass_none none), append_nil]⟩
    | link found _ ih =>
      intro buffer room
      obtain ⟨room, next⟩ := joinPass_writes room found (exact _ (firstAt_some found).1)
      obtain ⟨fuel, ends⟩ := ih _ room
      exact ⟨fuel + 1, by rw [loop_again next, ends, append_assoc]⟩
  exact run 0 data h _ (room_start fragments)

/-- What the loop `find` hands on is a record of fragments that follow each other. -/
theorem join_chain (exact : ∀ f ∈ fragments, f.Exact) (h : join fragments fuel = some (.ok hello)) :
    ∃ data, Chain fragments 0 data ∧ hello = recordHeader fragments ++ data := by
  obtain ⟨s, comes, left⟩ := loop_last h
  -- what is behind the header so far, a chain from the place of the state would complete
  have inv : Room fragments s ∧ ∃ written, s.buffer = recordHeader fragments ++ written ∧
      ∀ more, Chain fragments s.index more → Chain fragments 0 (written ++ more) := by
    clear left
    induction comes with
    | here => exact ⟨room_start fragments, [], (append_nil _).symm, fun _ chain => chain⟩
    | next _ again ih =>
      obtain ⟨room, written, same, completes⟩ := ih
      obtain ⟨f, found⟩ := joinPass_again again
      obtain ⟨room, next⟩ := joinPass_writes room found (exact f (firstAt_some found).1)
      rw [next] at again
      cases again
      refine ⟨room, written ++ f.payload, ?_, ?_⟩
      · dsimp only
        rw [same, append_assoc]
      · intro more chain
        rw [append_assoc]
        exact completes _ (.link found chain)
  obtain ⟨_, written, same, completes⟩ := inv
  match found : firstAt fragments s.index with
  | some f =>
    rw [joinPass_some found] at left
    cases left
  | none =>
    rw [joinPass_none found] at left
    cases left
    have chain := completes [] (.stop found)
    rw [append_nil] at chain
    exact ⟨written, chain, same⟩

theorem join_unique {fuel' : Nat} {hello' : Bytes} (h : join fragments fuel = some (.ok hello))
    (h' : join fragments fuel' = some (.ok hello')) : hello = hello' :=
  Outcome.ok.inj (loop_unique h h')

theorem clientOf_returns (h : frameTypeList ≠ []) (fingerprint : ClientHello) :
    (clientOf frameTypeList fingerprint).Returns := by
  have long : 0 < frameTypeList.length := length_pos_iff.mpr h
  suffices (clientOf frameTypeList fingerprint).Yields fun _ => True from this.1
  unfold clientOf
  refine .ite (fun _ => .ok trivial) fun _ => .bind (index_eq long) (.bind (sliceFrom_eq long) ?_)
  refine .ite (fun _ => .ok trivial) fun _ => .bind (index_eq (by omega)) ?_
  refine .bind (slice_eq (by omega) (by omega)) (.ite (fun _ => .ok trivial) fun _ => ?_)
  exact .ite (fun _ => .ok trivial) fun _ => .ok trivial

theorem setClient_returns (metadata : Metadata) (h : frameTypeList ≠ [])
    (fingerprint : ClientHello) :
    (setClient metadata frameTypeList fingerprint).Returns := by
  unfold setClient
  split
  · refine (lift_bind_returns _ _).mpr ⟨clientOf_returns h fingerprint, fun _ _ => ?_⟩
    exact ⟨_, rfl, trivial⟩
  · exact ⟨_, rfl, trivial⟩

/-- From `ja3.Compute` on it is `ja3.Compute` that decides, unless a packet without frames were to
complete a ClientHello. -/
theorem identify_returns_iff (metadata : Metadata) (fragments : List QCryptoFragment)
    (frames : ∀ fingerprint, compute buffer = some (.ok fingerprint) → frameTypeList ≠ []) :
    (identify metadata frameTypeList fragments buffer).Returns ↔ (compute buffer).Returns := by
  unfold identify
  rw [bind_returns, withErr_returns]
  refine ⟨And.left, fun returns => ⟨returns, fun fingerprint computed => ?_⟩⟩
  have some := frames fingerprint (withErr_eq_ok.mp computed)
  exact (withErr_returns _ _).mpr (setClient_returns _ some fingerprint)

/-- Fragments that have not made a ClientHello. -/
structure LeftBehind (fragments : List QCryptoFragment) : Prop where
  exact : ∀ f ∈ fragments, f.Exact
  incomplete : ∀ fuel hello, join fragments fuel = some (.ok hello) →
    ∃ e, compute hello = some (.err e)

theorem LeftBehind.exact_append {earlier found : List QCryptoFragment} {d : Decrypted}
    (h : LeftBehind earlier) (read : readFrames d = some (.ok (frameTypeList, found))) :
    ∀ f ∈ found ++ earlier, f.Exact := by
  intro f mem
  rcases mem_append.mp mem with new | old
  · exact (readFrames_ok read).2.1 f new
  · exact h.exact f old

theorem leftBehind_nil : LeftBehind [] := by
  refine ⟨nofun, fun fuel hello joined => ⟨.lengthErr 3, ?_⟩⟩
  have header : join [] 1 = some (.ok [0x16, 0x03, 0x03, 0, 0]) := rfl
  rw [join_unique joined header]
  decide

/-- The metadata after a call that came back. -/
def leaves : Partial (SniffError × Metadata) Metadata → Option Metadata
  | some (.ok metadata) => some metadata
  | some (.err (_, metadata)) => some metadata
  | _ => none

theorem leaves_failing {α : Type} {x : Partial String α}
    {f : α → Partial (SniffError × Metadata) Metadata}
    (h : leaves (failing metadata x >>= f) = some metadata') :
    metadata' = metadata ∨ ∃ a, x = some (.ok a) ∧ leaves (f a) = some metadata' := by
  match x, h with
  | some (.ok a), h => exact .inr ⟨a, rfl, h⟩
  | some (.err _), h => cases h; exact .inl rfl

theorem leaves_setClient {fingerprint : ClientHello}
    (h : leaves (failing metadata (setClient metadata frameTypeList fingerprint)) =
      some metadata') :
    metadata'.sniffContext = metadata.sniffContext := by
  unfold setClient at h
  split at h
  · match clientOf frameTypeList fingerprint, h with
    | .ok client, h => cases h; rfl
    | .err _, h => cases h; rfl
  · cases h
    rfl

theorem leaves_identify (fresh : metadata.sniffContext = none)
    (h : leaves (identify metadata frameTypeList fragments buffer) = some metadata') :
    metadata'.fragments = [] ∨
      (metadata'.fragments = fragments ∧ ∃ e, compute buffer = some (.err e)) := by
  unfold identify at h
  match computed : compute buffer, h with
  | some (.err e), h =>
    cases h
    exact .inr ⟨rfl, e, rfl⟩
  | some (.ok fingerprint), h =>
    have kept : metadata'.sniffContext =
        Metadata.sniffContext { metadata with domain := fingerprint.serverName } :=
          leaves_setClient h
    left
    rw [Metadata.fragments, kept]
    dsimp only
    rw [fresh]
    rfl

/-- What a call leaves behind, whether it returns an error or not. -/
theorem quicClientHello_leftBehind {c : Crypto} (h : LeftBehind metadata.fragments)
    (ends : leaves (quicClientHello c fuel metadata packet) = some metadata') :
    LeftBehind metadata'.fragments := by
  unfold quicClientHello at ends
  rcases leaves_failing ends with rfl | ⟨d, _, ends⟩
  · exact h
  rcases leaves_failing ends with rfl | ⟨⟨frameTypeList, found⟩, read, ends⟩
  · exact h
  rcases leaves_failing ends with rfl | ⟨buffer, joined, ends⟩
  · exact leftBehind_nil
  rcases leaves_identify rfl ends with none | ⟨all, e, failed⟩
  · rw [none]
    exact leftBehind_nil
  · rw [all]
    refine ⟨h.exact_append read, fun fuel' hello joined' => ⟨e, ?_⟩⟩
    rw [join_unique joined' joined]
    exact failed

/-- What happens to the metadata of a flow: a packet is sniffed, with whatever the AEAD makes of
it, or another sniffer sets what it has found. -/
inductive Event where
  | packet (c : Crypto) (fuel : Nat) (packet : Bytes)
  | other (protocol : String) (domain : Bytes) (client : String)

def flow (metadata : Metadata) : Event → Option Metadata
  | .packet c fuel packet => leaves (quicClientHello c fuel metadata packet)
  | .other protocol domain client => some { metadata with protocol, domain, client }

theorem leftBehind_of_reachable {start : Metadata} (fresh : start.sniffContext = none)
    (h : Reachable flow start metadata) : LeftBehind metadata.fragments := by
  refine @Run.invariant _ _ flow _ start metadata (fun m => LeftBehind m.fragments) h ?_ ?_
  · rw [Metadata.fragments, fresh]
    exact leftBehind_nil
  · intro m event m' left _ taken
    cases event with
    | packet c fuel packet => exact quicClientHello_leftBehind left taken
    | other protocol domain client =>
      cases taken
      exact left

/-- What sniffing asks of a plaintext, with the fragments of earlier packets: no frame overruns
the array, no fragment of those that follow each other is without bytes, and no list in the
ClientHello they make ends behind its extension. -/
structure Harmless (earlier : List QCryptoFragment) (d : Decrypted) : Prop where
  frames : ∀ bs f body, Between d.plain bs → FrameAt bs f body → ¬ Overruns d.spare body f
  fragments : ∀ found, Holds d.spare d.plain found → ∀ index f, Joined (found ++ earlier) index →
    firstAt (found ++ earlier) index = some f → 0 < f.length
  lists : ∀ found data, Holds d.spare d.plain found → Chain (found ++ earlier) 0 data →
    ∀ exs, recordExtensions (recordHeader (found ++ earlier) ++ data) = .ok (some exs) →
    ∀ exs', Reaches exs exs' → ¬ HeadOverreads exs'

/-- A packet that completes a ClientHello has a frame: the fragments of earlier packets alone
have not made one. -/
theorem LeftBehind.frames_ne_nil {earlier found : List QCryptoFragment} {d : Decrypted}
    (h : LeftBehind earlier) (read : readFrames d = some (.ok (frameTypeList, found)))
    (joined : join (found ++ earlier) fuel = some (.ok hello)) (fingerprint : ClientHello)
    (computed : compute hello = some (.ok fingerprint)) : frameTypeList ≠ [] := by
  intro none
  rw [(readFrames_ok read).2.2 none, nil_append] at joined
  obtain ⟨e, failed⟩ := h.incomplete fuel hello joined
  rw [failed] at computed
  cases computed

/-- The call comes back when each of its parts does that it comes to. -/
theorem quicClientHello_returns (fuel : Nat) (metadata : Metadata) (packet : Bytes) :
    (quicClientHello c fuel metadata packet).Returns ↔
      (decrypt c packet).Returns ∧ ∀ d, decrypt c packet = some (.ok d) →
      (readFrames d).Returns ∧ ∀ frames, readFrames d = some (.ok frames) →
      (join (frames.2 ++ metadata.fragments) fuel).Returns ∧
      ∀ hello, join (frames.2 ++ metadata.fragments) fuel = some (.ok hello) →
        (identify { metadata with protocol := protocolQUIC, sniffContext := none } frames.1
          (frames.2 ++ metadata.fragments) hello).Returns := by
  unfold quicClientHello failing
  simp only [bind_returns, withErr_returns, withErr_eq_ok]

theorem quicClientHello_returns_of_harmless (behind : LeftBehind metadata.fragments) (c : Crypto)
    (packet : Bytes) (harmless : ∀ d, decrypt c packet = some (.ok d) →
      Harmless metadata.fragments d) :
    ∃ fuel, (quicClientHello c fuel metadata packet).Returns := by
  simp only [quicClientHello_returns]
  by_cases ok : ∃ d frameTypeList found, decrypt c packet = some (.ok d) ∧
      readFrames d = some (.ok (frameTypeList, found))
  · obtain ⟨d, frameTypeList, found, opened, read⟩ := ok
    obtain ⟨frames, fragments, lists⟩ := harmless d opened
    have exact := behind.exact_append read
    have holds := (readFrames_ok read).1
    obtain ⟨fuel, joinReturns⟩ := (join_returns_iff exact).mpr (fragments found holds)
    refine ⟨fuel, decrypt_returns c packet, fun d' opened' => ?_⟩
    cases opened.symm.trans opened'
    refine ⟨(readFrames_returns_iff d).mpr frames, fun frames' read' => ?_⟩
    cases read.symm.trans read'
    refine ⟨joinReturns, fun hello joined => ?_⟩
    refine (identify_returns_iff _ _ (behind.frames_ne_nil read joined)).mpr ?_
    obtain ⟨data, chain, rfl⟩ := join_chain exact joined
    exact (compute_returns_iff _).mpr (lists found data holds chain)
  · refine ⟨0, decrypt_returns c packet, fun d opened => ?_⟩
    refine ⟨(readFrames_returns_iff d).mpr (harmless d opened).frames, fun ⟨_, _⟩ read => ?_⟩
    exact absurd ⟨d, _, _, opened, read⟩ ok

/-- **When sniffing a packet comes back.** With a context that earlier packets of the flow have
left, `QUICClientHello` returns exactly when the plaintext it gets, if it gets one, is harmless. -/
theorem quicClientHello_returns_iff {start metadata : Metadata} (fresh : start.sniffContext = none)
    (left : Reachable flow start metadata) (c : Crypto) (packet : Bytes) :
    (∃ fuel, (quicClientHello c fuel metadata packet).Returns) ↔
      ∀ d, decrypt c packet = some (.ok d) → Harmless metadata.fragments d := by
  have behind := leftBehind_of_reachable fresh left
  constructor
  · simp only [quicClientHello_returns]
    rintro ⟨fuel, _, more⟩ d opened
    obtain ⟨framesReturn, more⟩ := more d opened
    refine ⟨(readFrames_returns_iff d).mp framesReturn, ?_, ?_⟩
    · intro found holds
      obtain ⟨frameTypeList, read⟩ := readFrames_of_holds framesReturn holds
      exact (join_returns_iff (behind.exact_append read)).mp ⟨fuel, (more _ read).1⟩
    · intro found data holds chain
      obtain ⟨frameTypeList, read⟩ := readFrames_of_holds framesReturn holds
      obtain ⟨fuel', joined'⟩ := join_of_chain (behind.exact_append read) chain
      obtain ⟨⟨o, joined, _⟩, more⟩ := more _ read
      rw [loop_unique joined joined'] at joined
      have frames := behind.frames_ne_nil read joined
      exact (compute_returns_iff _).mp ((identify_returns_iff _ _ frames).mp (more _ joined))
  · exact quicClientHello_returns_of_harmless behind c packet

def plainCrypto : Crypto where
  extract _ _ := []
  expand _ _ length := replicate length 0
  expand_length _ _ _ _ := length_replicate
  encrypt _ _ := replicate 16 0
  encrypt_length _ _ := length_replicate
  gcmOpen _ _ ciphertext _ := some (ciphertext.take (ciphertext.length - 16))

def initialPacket (plain : Bytes) : Bytes :=
  [0xc0, 0, 0, 0, 1, 1, 0xaa, 0, 0] ++ bigEndian 2 (0x4000 + plain.length + 17) ++ [0] ++ plain ++
    replicate 16 0

def cryptoFrame (offset : UInt8) (payload : Bytes) : Bytes :=
  [frameTypeCrypto, offset, UInt8.ofNat payload.length] ++ payload

/-- A ClientHello with these extensions. -/
def clientHello (extensions : Bytes) : Bytes :=
  let body := [3, 3] ++ replicate 32 7 ++ [0, 0, 2, 0x13, 1, 1, 0] ++
    bigEndian 2 extensions.length ++ extensions
  [1, 0] ++ bigEndian 2 body.length ++ body

/-- The server name `a.b` and the version TLS 1.3. -/
def goodHello : Bytes := clientHello [0, 0, 0, 8, 0, 6, 0, 0, 3, 97, 46, 98, 0, 43, 0, 3, 2, 3, 4]

/-- The second half of a ClientHello comes first and leaves a context; the packet with the first
half completes it. -/
theorem second_half_first : ∃ metadata : Metadata, metadata.fragments ≠ [] ∧
    quicClientHello plainCrypto 3 metadata (initialPacket (cryptoFrame 0 (goodHello.take 33))) =
      some (.ok { protocol := protocolQUIC, domain := utf8 "a.b", client := clientFirefox }) ∧
    ∀ d, decrypt plainCrypto (initialPacket (cryptoFrame 0 (goodHello.take 33))) = some (.ok d) →
      Harmless metadata.fragments d := by
  have first :
    exec flow {} [.packet plainCrypto 1 (initialPacket (cryptoFrame 33 (goodHello.drop 33)))] =
      some { protocol := protocolQUIC, sniffContext := some [⟨33, 33, goodHello.drop 33⟩] } := by
    decide +kernel
  have second : quicClientHello plainCrypto 3
      { protocol := protocolQUIC, sniffContext := some [⟨33, 33, goodHello.drop 33⟩] }
      (initialPacket (cryptoFrame 0 (goodHello.take 33))) =
      some (.ok { protocol := protocolQUIC, domain := utf8 "a.b", client := clientFirefox }) := by
    decide +kernel
  exact ⟨_, by decide, second, (quicClientHello_returns_iff rfl (exec_reachable first) plainCrypto
    (initialPacket (cryptoFrame 0 (goodHello.take 33)))).mp ⟨3, _, second, trivial⟩⟩

/-- A frame of 63 bytes in a plaintext of three. -/
def longFrame : Bytes := [frameTypeCrypto, 0, 63]

/-- A frame without bytes. -/
def emptyFrame : Bytes := cryptoFrame 0 []

def cutHello : Bytes := clientHello [0, 43, 0, 1, 2]

/-- A packet can make the slice of a CRYPTO frame panic, the loop over the fragments run for ever,
and the parser panic. -/
theorem packets_never_return :
    (¬ ∃ fuel, (quicClientHello plainCrypto fuel {} (initialPacket longFrame)).Returns) ∧
    (¬ ∃ fuel, (quicClientHello plainCrypto fuel {} (initialPacket emptyFrame)).Returns) ∧
    ¬ ∃ fuel,
      (quicClientHello plainCrypto fuel {} (initialPacket (cryptoFrame 0 cutHello))).Returns := by
  simp only [quicClientHello_returns]
  refine ⟨?_, ?_, ?_⟩
  · rintro ⟨fuel, _, more⟩
    have frames := (more ⟨longFrame, replicate 16 0⟩ (by decide +kernel)).1
    have past : readFrames ⟨longFrame, replicate 16 0⟩ = some .panicked := by decide +kernel
    rw [past] at frames
    exact some_returns.mp frames
  · rintro ⟨fuel, _, more⟩
    have joins := ((more ⟨emptyFrame, replicate 16 0⟩ (by decide +kernel)).2
      ([frameTypeCrypto], [⟨0, 0, []⟩]) (by decide +kernel)).1
    have stalls : join [⟨0, 0, []⟩] fuel = none :=
      loop_stalls (joinPass_stalls (f := ⟨0, 0, []⟩) rfl rfl rfl) fuel
    rw [Metadata.fragments, Option.getD_none, append_nil, stalls] at joins
    exact none_not_returns joins
  · rintro ⟨fuel, _, more⟩
    have joins := (more ⟨cryptoFrame 0 cutHello, replicate 16 0⟩ (by decide +kernel)).2
      ([frameTypeCrypto], [⟨0, 52, cutHello⟩]) (by decide +kernel)
    obtain ⟨⟨o, joined, _⟩, more⟩ := joins
    have hello : join [⟨0, 52, cutHello⟩] 2 =
      some (.ok (recordHeader [⟨0, 52, cutHello⟩] ++ cutHello)) := by
      decide +kernel
    rw [loop_unique joined hello] at joined
    have identified := ((bind_returns _ _).mp (more _ joined)).1
    have past : compute (recordHeader [⟨0, 52, cutHello⟩] ++ cutHello) = some .panicked := by
      decide +kernel
    rw [withErr_returns, past] at identified
    exact some_returns.mp identified

end AiboosterEngine.Sniff
