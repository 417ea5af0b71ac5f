import AiboosterEngine.GoSem.Format
import AiboosterEngine.Sniff.Quic

/-!
# The frames of a plaintext

The format of the frames, stated apart from the loop that reads them, and that
the loop follows it.
-/

namespace AiboosterEngine.Sniff
open GoSem List Format

/-- The two highest bits of the first byte say how many bytes follow. -/
def varint : Format Nat := do
  let b ← byte
  let more ← times byte (2 ^ (b.toNat / 64) - 1)
  return fromBigEndian (UInt8.ofNat (b.toNat % 64) :: more)

theorem highBits (b : UInt8) : ((b &&& 0xc0) >>> 6).toNat = b.toNat / 64 := by
  have all : ∀ n : Fin 256, (n.val &&& 192) >>> 6 = n.val / 64 := by decide +kernel
  exact all ⟨b.toNat, b.toNat_lt⟩

theorem lowBits (b : UInt8) : (b &&& (0xff - 0xc0)).toNat = b.toNat % 64 := by
  have all : ∀ n : Fin 256, (n.val &&& 63) = n.val % 64 := by decide +kernel
  exact all ⟨b.toNat, b.toNat_lt⟩

theorem lowByte (b : UInt8) : (UInt8.ofNat (b.toNat % 64)).toNat = b.toNat % 64 := by
  rw [UInt8.toNat_ofNat']
  omega

theorem readUvarint_parses : Parses Qtls.readUvarint varint id := by
  unfold Qtls.readUvarint varint
  refine .bind readByte_parses fun b => ?_
  have low := lowByte b
  rw [highBits, lowBits]
  have four : b.toNat / 64 = 0 ∨ b.toNat / 64 = 1 ∨ b.toNat / 64 = 2 ∨ b.toNat / 64 = 3 := by
    have := b.toNat_lt
    omega
  -- the value in each case is the same sum of the same bytes
  have value (bs : List UInt8) : fromBigEndian (UInt8.ofNat (b.toNat % 64) :: bs) =
      bs.foldl (fun n b => n * 256 + b.toNat) (b.toNat % 64) := by
    simp only [fromBigEndian, foldl_cons, low, Nat.zero_mul, Nat.zero_add]
  simp only [value]
  rcases four with k | k | k | k <;> rw [k]
  · exact .pure rfl
  all_goals
    rw [if_neg (by decide)]
    simp only [Nat.pow_one, Nat.reducePow, Nat.reduceSub, times_bind, times_zero_bind]
    refine .bind readByte_parses fun b2 => ?_
  · rw [if_pos (by decide)]
    exact .pure (by grind)
  all_goals
    rw [if_neg (by decide)]
    refine .bind readByte_parses fun b3 => .bind readByte_parses fun b4 => ?_
  · rw [if_pos (by decide)]
    exact .pure (by grind)
  · rw [if_neg (by decide)]
    refine .bind readByte_parses fun b5 => .bind readByte_parses fun b6 => ?_
    refine .bind readByte_parses fun b7 => .bind readByte_parses fun b8 => ?_
    exact .pure (by grind)

theorem varint_forward : Forward varint :=
  .bind byte_forward fun _ => .bind (.times byte_forward _) fun _ => .pure _

/-- The frames an Initial packet may hold, as far as sniffing tells them apart. -/
inductive Frame where
  | padding
  | ping
  | ack
  | crypto (offset length : Nat)
  | connectionClose (length : Nat)
  deriving DecidableEq, Repr

/-- How many bytes of data follow the header of a frame. -/
def Frame.dataLength : Frame → Nat
  | .crypto _ length => length
  | .connectionClose length => length
  | _ => 0

/-- Offset and length of a CRYPTO frame. -/
def cryptoHeader : Format (Nat × Nat) := do
  let offset ← varint
  let length ← varint
  return (offset, length)

/-- What stands between the type of a frame and its data. -/
def frameHeader (frameType : UInt8) : Format Frame :=
  if frameType = frameTypePadding then return .padding
  else if frameType = frameTypePing then return .ping
  else if frameType = frameTypeAck ∨ frameType = frameTypeAck2 then do
    let _ ← varint
    let _ ← varint
    let ackRangeCount ← varint
    let _ ← varint
    let _ ← times (do
      let _ ← varint
      varint) ackRangeCount
    if frameType = 0x03 then
      let _ ← varint
      let _ ← varint
      let _ ← varint
      return .ack
    else return .ack
  else if frameType = frameTypeCrypto then do
    let (offset, length) ← cryptoHeader
    return .crypto offset length
  else if frameType = frameTypeConnectionClose then do
    let _ ← varint
    let _ ← varint
    let length ← varint
    return .connectionClose length
  else failure

/-- The bytes begin with the frame, and `body` is what follows its header. -/
def FrameAt (bs : Bytes) (f : Frame) (body : Bytes) : Prop :=
  ∃ frameType more, bs = frameType :: more ∧ frameHeader frameType more = some (f, body)

/-- The places of a plaintext where a frame may begin: behind the frames before it. -/
inductive Between (plain : Bytes) : Bytes → Prop
  | start : Between plain plain
  | next {bs body : Bytes} {f : Frame} : Between plain bs → FrameAt bs f body →
      Between plain (body.drop f.dataLength)

/-- The fragment of a CRYPTO frame; `spare` is what the array holds behind the plaintext. -/
def Frame.fragments (spare body : Bytes) : Frame → List QCryptoFragment
  | .crypto offset length => [{ offset, length, payload := (body ++ spare).take length }]
  | _ => []

/-- The bytes are complete frames with these fragments. -/
inductive Holds (spare : Bytes) : Bytes → List QCryptoFragment → Prop
  | nil : Holds spare [] []
  | cons {bs body : Bytes} {f : Frame} {more : List QCryptoFragment} : FrameAt bs f body →
      Holds spare (body.drop f.dataLength) more → Holds spare bs (f.fragments spare body ++ more)

/-- A CRYPTO frame is longer than what the array holds behind its header. -/
def Overruns (spare body : Bytes) : Frame → Prop
  | .crypto _ length => body.length + spare.length < length
  | _ => False

instance (spare body : Bytes) (f : Frame) : Decidable (Overruns spare body f) :=
  match f with
  | .crypto _ length => inferInstanceAs (Decidable (body.length + spare.length < length))
  | .padding | .ping | .ack | .connectionClose _ => .isFalse id

theorem frameHeader_forward (frameType : UInt8) : Forward (frameHeader frameType) := by
  have v := varint_forward
  unfold frameHeader
  refine .ite (.pure _) (.ite (.pure _) (.ite ?ack (.ite ?crypto (.ite ?close .fail))))
  case ack =>
    refine .bind v fun _ => .bind v fun _ => .bind v fun n => .bind v fun _ => ?_
    refine .bind (.times (.bind v fun _ => v) n) fun _ => .ite ?_ (.pure _)
    exact .bind v fun _ => .bind v fun _ => .bind v fun _ => .pure _
  case crypto => exact .bind (.bind v fun _ => .bind v fun _ => .pure _) fun _ => .pure _
  case close => exact .bind v fun _ => .bind v fun _ => .bind v fun _ => .pure _

variable {frameType : UInt8} {bs body : Bytes} {f : Frame} {d : Decrypted} {s : Collecting}

theorem frameHeader_other (other : frameType ≠ frameTypeCrypto) :
    Values (frameHeader frameType) fun f => ∀ spare body : Bytes,
      f.fragments spare body = [] ∧ ¬ Overruns spare body f := by
  unfold frameHeader
  refine .ite (fun _ => ?padding) fun _ => .ite (fun _ => ?ping) fun _ =>
    .ite (fun _ => ?ack) fun _ => ?_
  case padding | ping => exact .pure fun _ _ => ⟨rfl, id⟩
  case ack =>
    refine .bind fun _ => .bind fun _ => .bind fun _ => .bind fun _ => .bind fun _ =>
      .ite (fun _ => ?_) fun _ => ?_
    · exact .bind fun _ => .bind fun _ => .bind fun _ => .pure fun _ _ => ⟨rfl, id⟩
    · exact .pure fun _ _ => ⟨rfl, id⟩
  refine .ite (fun crypto => absurd crypto other) fun _ => .ite (fun _ => ?_) fun _ => .fail
  exact .bind fun _ => .bind fun _ => .bind fun _ => .pure fun _ _ => ⟨rfl, id⟩

theorem FrameAt.suffix (h : FrameAt bs f body) : body <:+ bs := by
  obtain ⟨frameType, more, rfl, header⟩ := h
  exact (frameHeader_forward frameType more f body header).trans (suffix_cons frameType more)

theorem FrameAt.shorter (h : FrameAt bs f body) : body.length < bs.length := by
  obtain ⟨frameType, more, rfl, header⟩ := h
  have le := (frameHeader_forward frameType more f body header).length_le
  rw [length_cons]
  omega

/-- A frame with its data. -/
def wholeFrame (frameType : UInt8) : Format Frame := do
  let f ← frameHeader frameType
  advance f.dataLength
  return f

theorem wholeFrame_eq (frameType : UInt8) (bs : Bytes) : wholeFrame frameType bs =
    (frameHeader frameType bs).map fun (f, body) => (f, body.drop f.dataLength) := by
  unfold wholeFrame
  show (frameHeader frameType bs).bind _ = _
  cases frameHeader frameType bs <;> rfl

theorem readFrame_parses (d : Decrypted) (other : frameType ≠ frameTypeCrypto) :
    Parses (readFrame d frameType) (wholeFrame frameType) fun _ => [] := by
  have v := readUvarint_parses
  unfold readFrame wholeFrame frameHeader
  by_cases padding : frameType = frameTypePadding
  · simp only [if_pos padding, pure_bind, Frame.dataLength, advance_zero_bind]
    exact .pure rfl
  by_cases ping : frameType = frameTypePing
  · simp only [if_neg padding, if_pos ping, pure_bind, Frame.dataLength, advance_zero_bind]
    exact .pure rfl
  by_cases ack : frameType = frameTypeAck ∨ frameType = frameTypeAck2
  · simp only [if_neg padding, if_neg ping, if_pos ack, bind_assoc]
    refine .bind v fun _ => .bind v fun _ => .bind v fun n => .bind v fun _ => ?_
    refine .bind (.times (.bind v fun _ => v) 0 n) fun _ => ?_
    by_cases ecn : frameType = 0x03
    · simp only [if_pos ecn, bind_assoc, pure_bind, Frame.dataLength, advance_zero_bind]
      exact .bind v fun _ => .bind v fun _ => .bind v fun _ => .pure rfl
    · simp only [if_neg ecn, pure_bind, Frame.dataLength, advance_zero_bind]
      exact .pure rfl
  by_cases close : frameType = frameTypeConnectionClose
  · simp only [if_neg padding, if_neg ping, if_neg ack, if_neg other, if_pos close,
      bind_assoc, pure_bind, Frame.dataLength]
    refine .bind v fun _ => .bind v fun _ => .bind v fun n => .bind (seek_parses n) fun _ => ?_
    exact .pure rfl
  · simp only [if_neg padding, if_neg ping, if_neg ack, if_neg other, if_neg close]
    exact .fail _ _

/-- The slice has the length that the frame gives. -/
def QCryptoFragment.Exact (f : QCryptoFragment) : Prop := f.payload.length = f.length

theorem readCryptoHeader_parses : Parses readCryptoHeader cryptoHeader id :=
  .bind readUvarint_parses fun _ => .bind readUvarint_parses fun _ => .pure rfl

/-- A CRYPTO frame is cut out of the array behind `decrypted`, where it is long enough. -/
theorem readFrame_crypto (header : frameHeader frameTypeCrypto bs = some (f, body))
    (inside : body <:+ d.plain) :
    readFrame d frameTypeCrypto bs = if Overruns d.spare body f then some .panicked
      else some (.ok (f.fragments d.spare body, body.drop f.dataLength)) := by
  obtain ⟨⟨offset, length⟩, more, numbers, header⟩ := bind_some header
  cases header
  have read : readCryptoHeader bs = some (.ok ((offset, length), body)) :=
    readCryptoHeader_parses.value numbers
  have run : readFrame d frameTypeCrypto bs = (do
      let payload ← Reader.lift (d.slice (d.plain.length - body.length)
        (d.plain.length - body.length + length))
      Reader.seek length
      return [{ offset, length, payload }] : Reader String (List QCryptoFragment)) body :=
    Reader.bind_ok _ read
  obtain ⟨front, plain⟩ := inside
  have place : d.plain.length - body.length = front.length := by
    rw [← plain, length_append]
    omega
  have array : (d.plain ++ d.spare).length =
      front.length + (body.length + d.spare.length) := by grind
  rw [run, place]
  by_cases long : Overruns d.spare body (.crypto offset length)
  · have more : body.length + d.spare.length < length := long
    have past : d.slice front.length (front.length + length) = .panicked := if_neg (by omega)
    rw [past, if_pos long]
    rfl
  · have fits : ¬ body.length + d.spare.length < length := long
    have behind : (d.plain ++ d.spare).drop front.length = body ++ d.spare := by
      rw [← plain, append_assoc, drop_left]
    have cut : d.slice front.length (front.length + length) =
      .ok ((body ++ d.spare).take length) := by
      rw [Decrypted.slice, slice_eq (by omega) (by omega), behind, Nat.add_sub_cancel_left]
    rw [cut, if_neg long]
    rfl

/-- A frame is passed by with its fragment, or the slice of the fragment panics. -/
theorem readFrame_eq (header : frameHeader frameType bs = some (f, body))
    (inside : body <:+ d.plain) :
    readFrame d frameType bs = if Overruns d.spare body f then some .panicked
      else some (.ok (f.fragments d.spare body, body.drop f.dataLength)) := by
  by_cases crypto : frameType = frameTypeCrypto
  · subst crypto
    exact readFrame_crypto header inside
  · obtain ⟨nothing, fits⟩ := frameHeader_other crypto bs f body header d.spare body
    rw [if_neg fits, nothing]
    exact (readFrame_parses d crypto).value (by rw [wholeFrame_eq, header]; rfl)

theorem readFrame_none (header : frameHeader frameType bs = none) :
    ∃ e, readFrame d frameType bs = some (.err e) := by
  by_cases crypto : frameType = frameTypeCrypto
  · subst crypto
    have cut : cryptoHeader bs = none := by
      change (cryptoHeader bs).bind _ = _ at header
      cases numbers : cryptoHeader bs with
      | none => rfl
      | some found => rw [numbers] at header; cases header
    obtain ⟨e, read⟩ := readCryptoHeader_parses.error cut
    exact ⟨e, Reader.bind_err _ read⟩
  · exact (readFrame_parses d crypto).error (by rw [wholeFrame_eq, header]; rfl)

/-- What holds at the head of every pass over the frames. -/
structure Collected (d : Decrypted) (s : Collecting) : Prop where
  between : Between d.plain s.rest
  inside : s.rest <:+ d.plain
  exact : ∀ f ∈ s.fragments, f.Exact
  noted : s.frameTypeList = [] → s.fragments = []
  holds : ∀ more, Holds d.spare s.rest more → Holds d.spare d.plain (s.fragments ++ more)

theorem framePass_nil (h : s.rest = []) :
    framePass d s = some (.ok (.leave (s.frameTypeList, s.fragments))) := by
  unfold framePass
  rw [h]
  rfl

theorem framePass_frame (at_ : FrameAt s.rest f body) (inside : s.rest <:+ d.plain) :
    (Overruns d.spare body f ∧ framePass d s = some .panicked) ∨
    (¬ Overruns d.spare body f ∧ ∃ frameType, framePass d s = some (.ok (.again
      ⟨body.drop f.dataLength, s.frameTypeList ++ [frameType],
        s.fragments ++ f.fragments d.spare body⟩))) := by
  have suffix := at_.suffix.trans inside
  obtain ⟨frameType, more, rest, header⟩ := at_
  have read := readFrame_eq header suffix
  unfold framePass
  rw [rest]
  by_cases overruns : Overruns d.spare body f
  · rw [if_pos overruns] at read
    refine .inl ⟨overruns, ?_⟩
    dsimp only
    rw [read]
    rfl
  · rw [if_neg overruns] at read
    refine .inr ⟨overruns, frameType, ?_⟩
    dsimp only
    rw [read]
    rfl

theorem framePass_elsewhere (h : ¬ ∃ f body, FrameAt s.rest f body) :
    ∃ o, framePass d s = some o ∧
      (o = .ok (.leave (s.frameTypeList, s.fragments)) ∨ ∃ e, o = .err e) := by
  match same : s.rest with
  | [] => exact ⟨_, framePass_nil same, .inl rfl⟩
  | frameType :: bs =>
    match header : frameHeader frameType bs with
    | some (f, body) => exact absurd ⟨f, body, frameType, bs, same, header⟩ h
    | none =>
      obtain ⟨e, read⟩ := readFrame_none (d := d) header
      exact ⟨.err e, by rw [framePass, same]; dsimp only; rw [read]; rfl, .inr ⟨e, rfl⟩⟩

theorem Frame.fragments_exact {spare : Bytes} (fits : ¬ Overruns spare body f) :
    ∀ g ∈ f.fragments spare body, g.Exact := by
  intro g mem
  cases f with
  | crypto offset length =>
    have enough : ¬ body.length + spare.length < length := fits
    rw [mem_singleton.mp mem]
    show List.length (List.take _ _) = length
    rw [length_take, length_append]
    omega
  | padding | ping | ack | connectionClose => cases mem

theorem framePass_again {t : Collecting} (h : Collected d s)
    (again : framePass d s = some (.ok (.again t))) :
    Collected d t ∧ t.rest.length < s.rest.length := by
  by_cases frame : ∃ f body, FrameAt s.rest f body
  · obtain ⟨f, body, at_⟩ := frame
    rcases framePass_frame at_ h.inside with ⟨_, past⟩ | ⟨fits, frameType, next⟩
    · rw [past] at again
      cases again
    · rw [next] at again
      cases again
      have shorter := at_.shorter
      refine ⟨⟨.next h.between at_, ?_, ?_, ?_, ?_⟩, ?_⟩
      · exact ((drop_suffix _ _).trans at_.suffix).trans h.inside
      · intro g mem
        rcases mem_append.mp mem with earlier | new
        · exact h.exact g earlier
        · exact Frame.fragments_exact fits g new
      · intro none
        exact absurd none (append_ne_nil_of_right_ne_nil _ (cons_ne_nil _ _))
      · intro more held
        have whole := h.holds _ (.cons at_ held)
        rwa [← append_assoc] at whole
      · dsimp only
        rw [length_drop]
        omega
  · obtain ⟨o, ends, rfl | ⟨e, rfl⟩⟩ := framePass_elsewhere (d := d) frame <;>
    · rw [ends] at again
      cases again

theorem collected_of_comes (h : Comes (framePass d) { rest := d.plain } s) : Collected d s := by
  apply h.invariant
  · exact ⟨.start, suffix_refl _, nofun, fun _ => rfl, fun _ held => held⟩
  · intro t u inv again
    exact (framePass_again inv again).1

/-- As long as the loop comes back, it comes to every place where a frame may begin. -/
theorem comes_of_between (returns : (readFrames d).Returns) (h : Between d.plain bs) :
    ∃ s, Comes (framePass d) { rest := d.plain } s ∧ s.rest = bs := by
  induction h with
  | start => exact ⟨_, .here, rfl⟩
  | next _ at_ ih =>
    obtain ⟨s, comes, rfl⟩ := ih
    rcases framePass_frame at_ (collected_of_comes comes).inside
      with ⟨_, past⟩ | ⟨_, frameType, next⟩
    · have back := body_returns_of_loop returns comes
      rw [past] at back
      exact (Partial.some_returns.mp back).elim
    · exact ⟨_, .next comes next, rfl⟩

/-- The loop over the frames comes back exactly when no frame overruns the array. -/
theorem readFrames_returns_iff (d : Decrypted) :
    (readFrames d).Returns ↔ ∀ bs f body, Between d.plain bs → FrameAt bs f body →
      ¬ Overruns d.spare body f := by
  constructor
  · intro returns bs f body between at_
    obtain ⟨s, comes, rfl⟩ := comes_of_between returns between
    have back := body_returns_of_loop returns comes
    rcases framePass_frame at_ (collected_of_comes comes).inside with ⟨_, past⟩ | ⟨fits, _⟩
    · rw [past] at back
      exact (Partial.some_returns.mp back).elim
    · exact fits
  · intro fits
    apply loop_returns_of_lt (fun s : Collecting => s.rest.length) (Nat.lt_succ_self _)
    · intro s comes
      have inv := collected_of_comes comes
      by_cases frame : ∃ f body, FrameAt s.rest f body
      · obtain ⟨f, body, at_⟩ := frame
        rcases framePass_frame at_ inv.inside with ⟨overruns, _⟩ | ⟨_, frameType, next⟩
        · exact absurd overruns (fits _ f body inv.between at_)
        · exact ⟨_, next, trivial⟩
      · obtain ⟨o, ends, rfl | ⟨e, rfl⟩⟩ := framePass_elsewhere (d := d) frame <;>
          exact ⟨_, ends, trivial⟩
    · intro s t comes again
      exact (framePass_again (collected_of_comes comes) again).2

/-- What the loop over the frames hands on are the fragments of the plaintext. -/
theorem readFrames_ok {frameTypeList : List UInt8} {found : List QCryptoFragment}
    (h : readFrames d = some (.ok (frameTypeList, found))) :
    Holds d.spare d.plain found ∧ (∀ f ∈ found, f.Exact) ∧ (frameTypeList = [] → found = []) := by
  obtain ⟨s, comes, left⟩ := loop_last h
  have inv := collected_of_comes comes
  unfold framePass at left
  split at left
  · rename_i rest
    cases left
    have whole := inv.holds [] (by rw [rest]; exact .nil)
    rw [append_nil] at whole
    exact ⟨whole, inv.exact, inv.noted⟩
  · obtain ⟨_, _, again⟩ := Partial.bind_eq_ok left
    cases again

theorem readFrames_of_holds {found : List QCryptoFragment} (returns : (readFrames d).Returns)
    (h : Holds d.spare d.plain found) :
    ∃ frameTypeList, readFrames d = some (.ok (frameTypeList, found)) := by
  have fits := (readFrames_returns_iff d).mp returns
  -- from a state of the loop whose rest holds `more`, the loop adds `more`
  have run : ∀ bs more, Holds d.spare bs more → ∀ s, Collected d s → s.rest = bs →
      ∃ fuel frameTypeList, loop (framePass d) fuel s =
        some (.ok (frameTypeList, s.fragments ++ more)) := by
    intro bs more held
    induction held with
    | nil =>
      intro s _ rest
      exact ⟨1, s.frameTypeList, by rw [loop_leave (framePass_nil rest), append_nil]⟩
    | @cons bs body f more at_ _ ih =>
      rintro s inv rfl
      rcases framePass_frame at_ inv.inside with ⟨overruns, _⟩ | ⟨_, frameType, next⟩
      · exact absurd overruns (fits _ f body inv.between at_)
      · obtain ⟨fuel, frameTypeList, rest⟩ := ih _ (framePass_again inv next).1 rfl
        refine ⟨fuel + 1, frameTypeList, ?_⟩
        rw [loop_again next, rest, append_assoc]
  obtain ⟨fuel, frameTypeList, ends⟩ := run _ _ h _ (collected_of_comes .here) rfl
  obtain ⟨o, same, _⟩ := returns
  exact ⟨frameTypeList, by rw [same, loop_unique same ends]; rfl⟩

end AiboosterEngine.Sniff
