import AiboosterEngine.GoSem.Slice

/-!
# Finding the server name

`IndexTLSServerName` of `common/tlsfragment/index.go`: the place of the host
name in a ClientHello. The step over an extension is taken in `uint16`, so the
length 65532 steps over nothing; the loop takes fuel.
-/

namespace AiboosterEngine.TlsFragment
open GoSem List Partial

def recordLayerHeaderLen : Nat := 5
def handshakeHeaderLen : Nat := 6
def randomDataLen : Nat := 32
def sessionIDHeaderLen : Nat := 1
def cipherSuiteHeaderLen : Nat := 2
def compressMethodHeaderLen : Nat := 1
def extensionsHeaderLen : Nat := 2
def extensionHeaderLen : Nat := 4
def sniExtensionHeaderLen : Nat := 5
def contentType : UInt8 := 22
def handshakeType : UInt8 := 1
def sniExtensionType : Nat := 0
def sniNameDNSHostnameType : UInt8 := 0
def tlsVersionBitmask : Nat := 0xfffc
def tls13 : Nat := 0x0304

structure MyServerName where
  index : Nat
  length : Nat
  serverName : Bytes
  deriving DecidableEq, Repr

open MyServerName

/-- What one pass of the loop over the extensions does: return, or go on with another list. -/
inductive Next where
  | done (found : Option MyServerName)
  | again (currentIndex : Nat) (exs : Bytes)
  deriving DecidableEq, Repr

/-- The body of the loop in `indexTLSServerNameFromExtensions`. -/
def extensionStep (currentIndex : Nat) (exs : Bytes) : Outcome String Next := do
  if exs.length < extensionHeaderLen then return .done none
  let exType ← uint16At exs 0
  let exLen ← uint16At exs 2
  if exs.length < extensionHeaderLen + exLen then return .done none
  let sex ← slice exs extensionHeaderLen (extensionHeaderLen + exLen)
  if exType = sniExtensionType then
    if sex.length < sniExtensionHeaderLen then return .done none
    let sniType ← index sex 2
    if sniType ≠ sniNameDNSHostnameType then return .done none
    let sniLen ← uint16At sex 3
    let serverName ← sliceFrom sex sniExtensionHeaderLen
    return .done (some ⟨currentIndex + extensionHeaderLen + sniExtensionHeaderLen,
      sniLen, serverName⟩)
  -- `4+exLen` is a uint16
  let exs ← sliceFrom exs ((4 + exLen) % 65536)
  return .again (currentIndex + (4 + exLen)) exs

/-- The loop of `indexTLSServerNameFromExtensions`. -/
def extensionsLoop : (fuel currentIndex : Nat) → (exs : Bytes) →
    Partial String (Option MyServerName)
  | 0, _, _ => none
  | fuel + 1, currentIndex, exs =>
    if exs.length = 0 then return none
    else do
      match ← lift (extensionStep currentIndex exs) with
      | .done found => return found
      | .again currentIndex exs => extensionsLoop fuel currentIndex exs

/-- `indexTLSServerNameFromExtensions` before its loop: the list of the extensions. -/
def extensionList (exs : Bytes) : Outcome String (Option Bytes) := do
  if exs.length = 0 then return none
  if exs.length < extensionsHeaderLen then return none
  let exsLen ← uint16At exs 0
  let exs ← sliceFrom exs extensionsHeaderLen
  if exs.length < exsLen then return none
  return some exs

/-- `indexTLSServerNameFromHandshake` before it calls `indexTLSServerNameFromExtensions`: where
the extensions are. -/
def handshakeExtensions (handshake : Bytes) : Outcome String (Option (Nat × Bytes)) := do
  if handshake.length < handshakeHeaderLen + randomDataLen + sessionIDHeaderLen then return none
  let type ← index handshake 0
  if type ≠ handshakeType then return none
  let high ← index handshake 1
  let low ← uint16At handshake 2
  let body ← sliceFrom handshake 4
  if body.length ≠ high.toNat * 65536 + low then return none
  let tlsVersion ← uint16At handshake 4
  if tlsVersion &&& tlsVersionBitmask ≠ 0x0300 ∧ tlsVersion ≠ tls13 then return none
  let sessionIDLen ← index handshake 38
  let currentIndex := handshakeHeaderLen + randomDataLen + sessionIDHeaderLen + sessionIDLen.toNat
  if handshake.length < currentIndex then return none
  let cipherSuites ← sliceFrom handshake currentIndex
  if cipherSuites.length < cipherSuiteHeaderLen then return none
  let csLen ← uint16At cipherSuites 0
  if cipherSuites.length < cipherSuiteHeaderLen + csLen + compressMethodHeaderLen then return none
  let compressMethodLen ← index cipherSuites (cipherSuiteHeaderLen + csLen)
  let currentIndex := currentIndex + (cipherSuiteHeaderLen + csLen + compressMethodHeaderLen
    + compressMethodLen.toNat)
  if handshake.length < currentIndex then return none
  let exs ← sliceFrom handshake currentIndex
  return some (currentIndex, exs)

variable (payload : Bytes)

/-- `IndexTLSServerName` before it calls `indexTLSServerNameFromHandshake`: the handshake is
all that follows the record header. -/
def recordHandshake : Outcome String (Option Bytes) := do
  if payload.length < recordLayerHeaderLen then return none
  let type ← index payload 0
  if type ≠ contentType then return none
  let segmentLen ← uint16At payload 3
  if payload.length < recordLayerHeaderLen + segmentLen then return none
  let handshake ← sliceFrom payload recordLayerHeaderLen
  return some handshake

def MyServerName.shift (n : Nat) (r : MyServerName) : MyServerName :=
  { r with index := r.index + n }

def indexTLSServerNameFromExtensions (fuel : Nat) (exs : Bytes) :
    Partial String (Option MyServerName) := do
  match ← lift (extensionList exs) with
  | none => return none
  | some exs => extensionsLoop fuel extensionsHeaderLen exs

def indexTLSServerNameFromHandshake (fuel : Nat) (handshake : Bytes) :
    Partial String (Option MyServerName) := do
  match ← lift (handshakeExtensions handshake) with
  | none => return none
  | some (currentIndex, exs) =>
    let serverName ← indexTLSServerNameFromExtensions fuel exs
    return serverName.map (shift currentIndex)

def indexTLSServerName (fuel : Nat) (payload : Bytes) : Partial String (Option MyServerName) := do
  match ← lift (recordHandshake payload) with
  | none => return none
  | some handshake =>
    let serverName ← indexTLSServerNameFromHandshake fuel handshake
    return serverName.map (shift recordLayerHeaderLen)

/-- The outcome is the value where the condition holds, and nothing where it does not. -/
def Lets {α : Type} (holds : Prop) (value : α) (r : Option α) : Prop :=
  (holds ∧ r = some value) ∨ (¬ holds ∧ r = none)

theorem Lets.check {α : Type} {c holds : Prop} [Decidable c] {value : α}
    {x : Outcome String (Option α)} (bad : c → ¬ holds) (next : ¬ c → x.Gives (Lets holds value)) :
    (if c then pure none else x).Gives (Lets holds value) :=
  .ite (fun h => .ok (.inr ⟨bad h, rfl⟩)) next

theorem extensionList_gives (exs : Bytes) : (extensionList exs).Gives
    (Lets (extensionsHeaderLen + word exs 0 ≤ exs.length) (exs.drop extensionsHeaderLen)) := by
  unfold extensionList extensionsHeaderLen
  refine Lets.check (fun _ => by omega) fun _ => Lets.check (fun _ => by omega) fun _ => ?_
  refine .bind (uint16At_eq (by omega)) (.bind (sliceFrom_eq (by omega)) ?_)
  rw [length_drop]
  exact Lets.check (fun _ => by omega) fun _ => .ok (.inl ⟨by omega, rfl⟩)

/-- Where the extensions are in a handshake, by the lengths before them. -/
def extensionsAt (handshake : Bytes) : Nat :=
  let currentIndex :=
    handshakeHeaderLen + randomDataLen + sessionIDHeaderLen + (byteAt handshake 38).toNat
  let cipherSuites := handshake.drop currentIndex
  let csLen := word cipherSuites 0
  currentIndex + (cipherSuiteHeaderLen + csLen + compressMethodHeaderLen
    + (byteAt cipherSuites (cipherSuiteHeaderLen + csLen)).toNat)

/-- The fields before the extensions let them through. -/
structure Shape (handshake : Bytes) : Prop where
  type : byteAt handshake 0 = handshakeType
  length : (handshake.drop 4).length = (byteAt handshake 1).toNat * 65536 + word handshake 2
  version : ¬ (word handshake 4 &&& tlsVersionBitmask ≠ 0x0300 ∧ word handshake 4 ≠ tls13)
  inside : extensionsAt handshake ≤ handshake.length

theorem handshakeExtensions_gives (handshake : Bytes) : (handshakeExtensions handshake).Gives
    (Lets (Shape handshake) (extensionsAt handshake, handshake.drop (extensionsAt handshake))) := by
  -- a field that is cut short leaves no room for the extensions
  have cut {c : Prop} (short : c → handshake.length < extensionsAt handshake) (h : c) :
    ¬ Shape handshake :=
    fun shape => Nat.not_lt.mpr shape.inside (short h)
  unfold handshakeExtensions
  unfold extensionsAt at cut
  unfold handshakeHeaderLen randomDataLen sessionIDHeaderLen cipherSuiteHeaderLen
    compressMethodHeaderLen at *
  have suites := @length_drop _ (6 + 32 + 1 + (byteAt handshake 38).toNat) handshake
  refine Lets.check (cut fun _ => by dsimp only; omega) fun _ => .bind (index_eq (by omega)) ?_
  refine Lets.check (fun other shape => other shape.type) fun type => .bind (index_eq (by omega)) ?_
  refine .bind (uint16At_eq (by omega)) (.bind (sliceFrom_eq (by omega)) ?_)
  refine Lets.check (fun other shape => other shape.length) fun length =>
    .bind (uint16At_eq (by omega)) ?_
  refine Lets.check (fun other shape => shape.version other) fun version =>
    .bind (index_eq (by omega)) ?_
  refine Lets.check (cut fun _ => by dsimp only; omega) fun _ => .bind (sliceFrom_eq (by omega)) ?_
  refine Lets.check (cut fun _ => by dsimp only; omega) fun _ => .bind (uint16At_eq (by omega)) ?_
  refine Lets.check (cut fun _ => by dsimp only; omega) fun _ => .bind (index_eq (by omega)) ?_
  refine Lets.check (cut fun _ => by dsimp only; omega) fun enough =>
    .bind (sliceFrom_eq (by omega)) (.ok (.inl ⟨?_, rfl⟩))
  exact ⟨Classical.not_not.mp type, Classical.not_not.mp length, version, Nat.le_of_not_lt enough⟩

/-- The length field of the record. -/
def segmentLen : Nat := word payload 3

/-- The record is complete in the packet; what follows it counts as handshake too. -/
theorem recordHandshake_gives : (recordHandshake payload).Gives
    (Lets (byteAt payload 0 = contentType ∧
      recordLayerHeaderLen + segmentLen payload ≤ payload.length)
      (payload.drop recordLayerHeaderLen)) := by
  unfold recordHandshake recordLayerHeaderLen segmentLen
  refine Lets.check (fun _ => by omega) fun _ => .bind (index_eq (by omega)) ?_
  refine Lets.check (fun other whole => other whole.1) fun type => .bind (uint16At_eq (by omega)) ?_
  refine Lets.check (fun _ => by omega) fun _ =>
    .bind (sliceFrom_eq (by omega)) (.ok (.inl ⟨?_, rfl⟩))
  exact ⟨Classical.not_not.mp type, by omega⟩

/-- The list begins with an extension that fits and is not the server name. -/
def StepsOver (exs : Bytes) : Prop :=
  4 + word exs 2 ≤ exs.length ∧ word exs 0 ≠ sniExtensionType

instance (exs : Bytes) : Decidable (StepsOver exs) := inferInstanceAs (Decidable (_ ∧ _))

def after (exs : Bytes) : Bytes := exs.drop ((4 + word exs 2) % 65536)

variable {exs : Bytes}

theorem extensionStep_over (h : StepsOver exs) (currentIndex : Nat) :
    extensionStep currentIndex exs =
      .ok (.again (currentIndex + (4 + word exs 2)) (after exs)) := by
  obtain ⟨fits, other⟩ := h
  have wrapped : (4 + word exs 2) % 65536 ≤ exs.length := Nat.le_trans (Nat.mod_le _ _) fits
  unfold extensionStep extensionHeaderLen
  rw [if_neg (by omega), uint16At_eq (by omega), uint16At_eq (by omega)]
  simp only [Outcome.ok_bind]
  rw [if_neg (by omega), slice_eq (by omega) fits]
  simp only [Outcome.ok_bind]
  rw [if_neg other, sliceFrom_eq wrapped]
  rfl

/-- The list begins with a server name extension, in which this name is found. -/
structure Names (exs : Bytes) (currentIndex : Nat) (sn : MyServerName) : Prop where
  type : word exs 0 = sniExtensionType
  fits : 4 + word exs 2 ≤ exs.length
  long : 5 ≤ word exs 2
  index : sn.index = currentIndex + 9
  serverName : sn.serverName = ((exs.drop 4).take (word exs 2)).drop 5

theorem extensionStep_done (h : ¬ StepsOver exs) (currentIndex : Nat) :
    (extensionStep currentIndex exs).Gives fun next =>
      ∃ found, next = .done found ∧ ∀ sn, found = some sn → Names exs currentIndex sn := by
  unfold extensionStep extensionHeaderLen sniExtensionHeaderLen
  refine .ite (fun _ => .ok ⟨_, rfl, nofun⟩) fun long => ?_
  refine .bind (uint16At_eq (by omega)) (.bind (uint16At_eq (by omega)) ?_)
  refine .ite (fun _ => .ok ⟨_, rfl, nofun⟩) fun fits => .bind (slice_eq (by omega) (by omega)) ?_
  refine .ite (fun type => ?_) fun other => absurd ⟨Nat.le_of_not_lt fits, other⟩ h
  refine .ite (fun _ => .ok ⟨_, rfl, nofun⟩) fun name => .bind (index_eq (by omega)) ?_
  refine .ite (fun _ => .ok ⟨_, rfl, nofun⟩) fun _ => .bind (uint16At_eq (by omega)) ?_
  refine .bind (sliceFrom_eq (by omega)) (.ok ⟨_, rfl, ?_⟩)
  rintro _ ⟨⟩
  rw [Nat.add_sub_cancel_left] at name ⊢
  refine ⟨type, Nat.le_of_not_lt fits, ?_, rfl, rfl⟩
  rw [length_take, length_drop] at name
  omega

/-- The lists the loop comes to. -/
inductive Reaches (exs : Bytes) : Bytes → Prop
  | here : Reaches exs exs
  | next {exs' : Bytes} : Reaches exs exs' → StepsOver exs' → Reaches exs (after exs')

/-- An extension that the loop does not step over: `4+exLen` is 0. -/
def Stalls (exs : Bytes) : Prop := StepsOver exs ∧ word exs 2 = 65532

theorem Reaches.head {exs' : Bytes} (h : StepsOver exs) (h' : Reaches (after exs) exs') :
    Reaches exs exs' := by
  induction h' with
  | here => exact .next .here h
  | next _ steps ih => exact .next ih steps

theorem after_shorter (h : StepsOver exs) (moves : ¬ Stalls exs) :
    (after exs).length < exs.length := by
  have small := word_lt exs 2
  have different : word exs 2 ≠ 65532 := fun same => moves ⟨h, same⟩
  have fits := h.1
  unfold after
  rw [length_drop]
  omega

theorem extensionsLoop_over (h : StepsOver exs) (fuel currentIndex : Nat) :
    extensionsLoop (fuel + 1) currentIndex exs
      = extensionsLoop fuel (currentIndex + (4 + word exs 2)) (after exs) := by
  have some : ¬ exs.length = 0 := by have := h.1; omega
  rw [extensionsLoop, if_neg some, extensionStep_over h]
  rfl

/-- With enough fuel the loop returns, unless it comes to an extension it does not step over. -/
theorem extensionsLoop_returns (moves : ¬ ∃ exs', Reaches exs exs' ∧ Stalls exs')
    (currentIndex : Nat) :
    ∃ fuel r, extensionsLoop fuel currentIndex exs = some (.ok r) := by
  induction h : exs.length using Nat.strongRecOn generalizing exs currentIndex with
  | ind n ih =>
    by_cases empty : exs.length = 0
    · exact ⟨1, none, by rw [extensionsLoop, if_pos empty]; rfl⟩
    · by_cases steps : StepsOver exs
      · have here : ¬ Stalls exs := fun stalls => moves ⟨exs, .here, stalls⟩
        have later : ¬ ∃ exs', Reaches (after exs) exs' ∧ Stalls exs' :=
          fun ⟨exs', reached, stalls⟩ => moves ⟨exs', .head steps reached, stalls⟩
        obtain ⟨fuel, r, hr⟩ := ih _ (h ▸ after_shorter steps here) later
          (currentIndex + (4 + word exs 2)) rfl
        exact ⟨fuel + 1, r, by rw [extensionsLoop_over steps, hr]⟩
      · obtain ⟨_, step, found, rfl, _⟩ := extensionStep_done steps currentIndex
        exact ⟨1, found, by rw [extensionsLoop, if_neg empty, step]; rfl⟩

theorem Stalls.never (h : Stalls exs) (fuel currentIndex : Nat) :
    extensionsLoop fuel currentIndex exs = none := by
  induction fuel generalizing currentIndex with
  | zero => rfl
  | succ fuel ih =>
    have same : after exs = exs := by rw [after, h.2]; rfl
    rw [extensionsLoop_over h.1, same]
    exact ih _

theorem Reaches.never {exs' : Bytes} (reached : Reaches exs exs')
    (there : ∀ fuel currentIndex, extensionsLoop fuel currentIndex exs' = none)
    (fuel currentIndex : Nat) :
    extensionsLoop fuel currentIndex exs = none := by
  induction reached with
  | here => exact there fuel currentIndex
  | next _ steps ih =>
    refine ih fun fuel currentIndex => ?_
    cases fuel with
    | zero => rfl
    | succ fuel =>
      rw [extensionsLoop_over steps]
      exact there fuel _

theorem extensionsLoop_more {fuel currentIndex : Nat} {r : Outcome String (Option MyServerName)}
    (h : extensionsLoop fuel currentIndex exs = some r) (more : Nat) :
    extensionsLoop (fuel + more) currentIndex exs = some r := by
  induction fuel generalizing currentIndex exs with
  | zero => cases h
  | succ fuel ih =>
    rw [Nat.succ_add_eq_add_succ, Nat.add_succ]
    by_cases steps : StepsOver exs
    · rw [extensionsLoop_over steps] at h ⊢
      exact ih h
    · obtain ⟨_, step, found, rfl, _⟩ := extensionStep_done steps currentIndex
      rw [extensionsLoop, step] at h ⊢
      exact h

def extensionsOf : Option Bytes :=
  match recordHandshake payload with
  | .ok (some handshake) =>
    match handshakeExtensions handshake with
    | .ok (some (_, exs)) =>
      match extensionList exs with
      | .ok (some exs) => some exs
      | _ => none
    | _ => none
  | _ => none

/-- Where the extensions are in a packet. -/
def listAt : Nat := extensionsAt (payload.drop recordLayerHeaderLen) + recordLayerHeaderLen

def Stalled : Prop :=
  ∃ exs exs', extensionsOf payload = some exs ∧ Reaches exs exs' ∧ Stalls exs'

theorem shift_shift (x : Partial String (Option MyServerName)) (m n : Nat) :
    (do
      let inner ← (do return (← x).map (shift m) : Partial String (Option MyServerName))
      return inner.map (shift n)) = (do return (← x).map (shift (m + n))) := by
  match x with
  | some (.ok (some sn)) =>
    have same : (sn.shift m).shift n = sn.shift (m + n) := by
      simp only [shift, Nat.add_assoc]
    exact congrArg (fun sn => some (Outcome.ok (some sn))) same
  | some (.ok none) | some (.err _) | some .panicked | none => rfl

/-- The fields of the packet let the list through. -/
structure Listed : Prop where
  record : byteAt payload 0 = contentType ∧
    recordLayerHeaderLen + segmentLen payload ≤ payload.length
  shape : Shape (payload.drop recordLayerHeaderLen)
  list : extensionsHeaderLen + word (payload.drop (listAt payload)) 0 ≤
    (payload.drop (listAt payload)).length

/-- Without a list of extensions there is no name; otherwise the loop finds it, or not. -/
theorem indexTLSServerName_cases :
    (¬ Listed payload ∧ extensionsOf payload = none ∧ ∀ fuel,
      indexTLSServerName fuel payload = some (.ok none)) ∨
    (Listed payload ∧ extensionsOf payload =
      some (payload.drop (extensionsHeaderLen + listAt payload)) ∧
      ∀ fuel, indexTLSServerName fuel payload = (do
        let found ← extensionsLoop fuel extensionsHeaderLen
          (payload.drop (extensionsHeaderLen + listAt payload))
        return found.map (shift (listAt payload)))) := by
  obtain ⟨_, hRecord, ⟨record, rfl⟩ | ⟨other, rfl⟩⟩ := recordHandshake_gives payload
  · obtain ⟨_, hHello, ⟨shape, rfl⟩ | ⟨other, rfl⟩⟩ :=
      handshakeExtensions_gives (payload.drop recordLayerHeaderLen)
    · rw [drop_drop, Nat.add_comm recordLayerHeaderLen] at hHello
      obtain ⟨_, hList, here⟩ := extensionList_gives (payload.drop (listAt payload))
      rw [listAt] at hList
      simp only [indexTLSServerName, indexTLSServerNameFromHandshake,
        indexTLSServerNameFromExtensions, extensionsOf, hRecord, hHello, hList, lift_ok_bind]
      obtain ⟨list, rfl⟩ | ⟨other, rfl⟩ := here
      · rw [drop_drop, Nat.add_comm _ extensionsHeaderLen]
        exact .inr ⟨⟨record, shape, list⟩, rfl,
          fun fuel => shift_shift (extensionsLoop fuel extensionsHeaderLen _) _ _⟩
      · exact .inl ⟨fun h => other h.list, rfl, fun _ => rfl⟩
    · simp only [indexTLSServerName, indexTLSServerNameFromHandshake, extensionsOf, hRecord, hHello,
        lift_ok_bind]
      exact .inl ⟨fun h => other h.shape, trivial, fun _ => rfl⟩
  · simp only [indexTLSServerName, extensionsOf, hRecord, lift_ok_bind]
    exact .inl ⟨fun h => other h.record, trivial, fun _ => rfl⟩

theorem indexTLSServerName_returns_iff :
    (∃ fuel r, indexTLSServerName fuel payload = some (.ok r)) ↔ ¬ Stalled payload := by
  rcases indexTLSServerName_cases payload with ⟨_, none, nil⟩ | ⟨_, list, loop⟩
  · have never : ¬ Stalled payload := by
      rintro ⟨exs, _, h, _⟩
      rw [none] at h
      cases h
    exact ⟨fun _ => never, fun _ => ⟨0, .none, nil 0⟩⟩
  · constructor
    · rintro ⟨fuel, r, h⟩ ⟨exs', last, list', reached, stalls⟩
      rw [list] at list'
      cases list'
      rw [loop, reached.never stalls.never] at h
      cases h
    · intro moves
      have free : ¬ ∃ last, Reaches _ last ∧ Stalls last :=
        fun ⟨last, reached, stalls⟩ => moves ⟨_, last, list, reached, stalls⟩
      obtain ⟨fuel, r, h⟩ := extensionsLoop_returns free extensionsHeaderLen
      exact ⟨fuel, r.map (shift (listAt payload)), by rw [loop, h]; rfl⟩

theorem indexTLSServerName_unique {fuel fuel' : Nat} {payload : Bytes} {r r' : Option MyServerName}
    (h : indexTLSServerName fuel payload = some (.ok r))
    (h' : indexTLSServerName fuel' payload = some (.ok r')) : r = r' := by
  rcases indexTLSServerName_cases payload with ⟨_, _, nil⟩ | ⟨_, _, loop⟩
  · rw [nil] at h h'
    cases h
    cases h'
    rfl
  · rw [loop] at h h'
    obtain ⟨found, hFound, h⟩ := bind_eq_ok h
    obtain ⟨found', hFound', h'⟩ := bind_eq_ok h'
    have first := extensionsLoop_more hFound fuel'
    have second := extensionsLoop_more hFound' fuel
    rw [Nat.add_comm, second] at first
    cases first
    cases h
    cases h'
    rfl

/-- A name is found in a record that is complete, at a place after its header. -/
theorem indexTLSServerName_found {fuel : Nat} {payload : Bytes} {sn : MyServerName}
    (h : indexTLSServerName fuel payload = some (.ok (some sn))) :
    recordLayerHeaderLen ≤ sn.index ∧
      recordLayerHeaderLen + segmentLen payload ≤ payload.length := by
  rcases indexTLSServerName_cases payload with ⟨_, _, nil⟩ | ⟨listed, _, loop⟩
  · rw [nil] at h
    cases h
  · rw [loop] at h
    obtain ⟨r, _, h⟩ := bind_eq_ok h
    cases r with
    | none => cases h
    | some inner =>
      cases h
      exact ⟨Nat.le_trans (Nat.le_add_left _ _) (Nat.le_add_left _ _), listed.record.2⟩

end AiboosterEngine.TlsFragment
