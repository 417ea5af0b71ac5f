import AiboosterEngine.GoSem.Binary
import AiboosterEngine.TlsFragment.Index

/-!
# Where the server name is

When `IndexTLSServerName` of `common/tlsfragment/index.go` returns, and that what it
returns points at the name in the packet, as long as no extension before it is so
long that the step over it overflows.
-/

namespace AiboosterEngine.TlsFragment
open GoSem List MyServerName

section
variable (payload : Bytes)

/-- The places of the extensions, each behind the one before by its exact length, up to the first
server name. -/
inductive ExtensionAt : Nat → Prop
  | first : ExtensionAt (extensionsHeaderLen + listAt payload)
  | next {o : Nat} : ExtensionAt o → StepsOver (payload.drop o) →
      ExtensionAt (o + (4 + word (payload.drop o) 2))

/-- No extension that is stepped over is so long that `4+exLen` overflows. -/
def Narrow : Prop :=
  Listed payload → ∀ o, ExtensionAt payload o → StepsOver (payload.drop o) →
    word (payload.drop o) 2 < 65532

/-- The steps over the extensions, wrapped as they are, come to one of 65532 bytes. -/
def Loops : Prop :=
  Listed payload ∧ ∃ exs, Reaches (payload.drop (extensionsHeaderLen + listAt payload)) exs ∧
    Stalls exs

/-- What was found is the end of the data of the first server name extension. -/
def PointsAt (sn : MyServerName) : Prop :=
  (payload.drop sn.index).take sn.serverName.length = sn.serverName ∧
    ∃ o, ExtensionAt payload o ∧ word (payload.drop o) 0 = sniExtensionType ∧
      o + 4 + word (payload.drop o) 2 ≤ payload.length ∧ o + 4 ≤ sn.index ∧
      sn.index + sn.serverName.length = o + 4 + word (payload.drop o) 2

variable {payload} {currentIndex o : Nat}

theorem Names.pointsAt {sn : MyServerName} (at_ : ExtensionAt payload o)
    (place : o = currentIndex + listAt payload) (h : Names (payload.drop o) currentIndex sn) :
    PointsAt payload (sn.shift (listAt payload)) := by
  obtain ⟨type, fits, long, index, serverName⟩ := h
  rw [length_drop] at fits
  have length : sn.serverName.length = word (payload.drop o) 2 - 5 := by
    simp only [serverName, length_drop, length_take]
    omega
  have shifted : sn.index + listAt payload = o + 4 + 5 := by omega
  refine ⟨?_, o, at_, type, by omega, ?_, ?_⟩
  · rw [shift, shifted, length, serverName, drop_take, drop_drop, drop_drop]
  · simp only [shift, shifted]
    omega
  · simp only [shift, shifted, length]
    omega

theorem loop_names (narrow : ∀ o, ExtensionAt payload o → StepsOver (payload.drop o) →
      word (payload.drop o) 2 < 65532) (at_ : ExtensionAt payload o)
    (place : o = currentIndex + listAt payload) :
    ∃ fuel r, extensionsLoop fuel currentIndex (payload.drop o) = some (.ok r) ∧
      ∀ sn, r = some sn → PointsAt payload (sn.shift (listAt payload)) := by
  induction h : payload.length - o using Nat.strongRecOn generalizing currentIndex o with
  | ind n ih =>
    by_cases empty : (payload.drop o).length = 0
    · exact ⟨1, none, by rw [extensionsLoop, if_pos empty]; rfl, nofun⟩
    · by_cases steps : StepsOver (payload.drop o)
      · have small := narrow o at_ steps
        rw [length_drop] at empty
        have place' : o + (4 + word (payload.drop o) 2) =
            currentIndex + (4 + word (payload.drop o) 2) + listAt payload := by omega
        obtain ⟨fuel, r, loop, names⟩ := ih _ (by omega) (at_.next steps) place' rfl
        refine ⟨fuel + 1, r, ?_, names⟩
        rw [extensionsLoop_over steps, after, Nat.mod_eq_of_lt (by omega), drop_drop, loop]
      · obtain ⟨_, step, found, rfl, names⟩ := extensionStep_done steps currentIndex
        exact ⟨1, found, by rw [extensionsLoop, if_neg empty, step]; rfl,
          fun sn same => (names sn same).pointsAt at_ place⟩

theorem index_points (narrow : Narrow payload) {fuel : Nat} {sn : MyServerName}
    (found : indexTLSServerName fuel payload = some (.ok (some sn))) : PointsAt payload sn := by
  rcases indexTLSServerName_cases payload with ⟨_, _, nil⟩ | ⟨listed, _, eq⟩
  · rw [nil] at found
    cases found
  · obtain ⟨fuel', r, loop, names⟩ := loop_names (narrow listed) .first rfl
    have found' : indexTLSServerName fuel' payload =
      some (.ok (r.map (.shift (listAt payload)))) := by
      rw [eq, loop]
      rfl
    obtain ⟨sn', rfl, rfl⟩ := Option.map_eq_some_iff.mp (indexTLSServerName_unique found' found)
    exact names sn' rfl

theorem stalled_iff_loops : Stalled payload ↔ Loops payload := by
  unfold Stalled Loops
  rcases indexTLSServerName_cases payload with ⟨unlisted, none, _⟩ | ⟨listed, list, _⟩
  · simp [none, unlisted]
  · simp [list, listed]

/-- The extension for one host name. -/
def serverName (host : Bytes) : Bytes :=
  0 :: 0 :: (bigEndian 2 (host.length + 5) ++ (bigEndian 2 (host.length + 3) ++
    (0 :: (bigEndian 2 host.length ++ host))))

theorem extensionStep_serverName {host : Bytes} (short : host.length + 5 < 65536) (rest : Bytes)
    (currentIndex : Nat) :
    extensionStep currentIndex (serverName host ++ rest) =
      .ok (.done (some ⟨currentIndex + 9, host.length, host⟩)) := by
  have number {n : Nat} (h : n < 65536) : n / 256 % 256 * 256 + n % 256 = n := by omega
  have e1 := number short
  have e2 := number (Nat.lt_of_le_of_lt (Nat.le_add_right _ _) short)
  simp [extensionStep, serverName, bigEndian, GoSem.index, uint16At, slice, sliceFrom, e1,
    extensionHeaderLen, sniExtensionHeaderLen]
  rw [if_neg (by omega), if_neg (by omega), if_pos (by omega)]
  simp [sniExtensionType, sniNameDNSHostnameType, e2]

/-- A ClientHello in one record with a server name extension for one host. -/
structure HelloFor (host payload : Bytes) : Prop where
  listed : Listed payload
  oneRecord : recordLayerHeaderLen + segmentLen payload = payload.length
  serverName : ∃ o rest, ExtensionAt payload o ∧ payload.drop o = serverName host ++ rest

theorem ExtensionAt.reach (short : payload.length < 65536 + listAt payload)
    (at_ : ExtensionAt payload o) :
    ∃ k i, o = i + listAt payload ∧ ∀ fuel, extensionsLoop (fuel + k) extensionsHeaderLen
      (payload.drop (extensionsHeaderLen + listAt payload)) =
        extensionsLoop fuel i (payload.drop o) := by
  induction at_ with
  | first => exact ⟨0, _, rfl, fun _ => rfl⟩
  | next _ steps ih =>
    obtain ⟨k, i, rfl, same⟩ := ih
    have fits := steps.1
    rw [length_drop] at fits
    refine ⟨k + 1, i + (4 + word (payload.drop (i + listAt payload)) 2), by omega, fun fuel => ?_⟩
    rw [← Nat.add_assoc, Nat.add_right_comm, same, extensionsLoop_over steps, after,
      Nat.mod_eq_of_lt (by omega), drop_drop]

theorem hello_found {host : Bytes} (h : HelloFor host payload) :
    ∃ fuel i, indexTLSServerName fuel payload = some (.ok (some ⟨i, host.length, host⟩)) := by
  obtain ⟨o, rest, at_, name⟩ := h.serverName
  rcases indexTLSServerName_cases payload with ⟨unlisted, _⟩ | ⟨_, _, eq⟩
  · exact absurd h.listed unlisted
  · have short : payload.length < 65536 + listAt payload := by
      have := word_lt payload 3
      rw [← h.oneRecord, listAt, segmentLen]
      omega
    obtain ⟨k, i, rfl, same⟩ := at_.reach short
    have inside := congrArg List.length name
    simp [serverName, bigEndian_length] at inside
    refine ⟨1 + k, i + 9 + listAt payload, ?_⟩
    rw [eq, same, name, extensionsLoop, if_neg (by simp [serverName]),
      extensionStep_serverName (by omega)]
    rfl

/-- **The place of the name.** The loop ends unless it comes to an extension of 65532 bytes; what it
finds is in the first server name extension if no step before it overflows; and a ClientHello in
one record is short enough for both. -/
theorem serverName_index (payload : Bytes) :
    ((∃ fuel r, indexTLSServerName fuel payload = some (.ok r)) ↔ ¬ Loops payload) ∧
    (Narrow payload → ∀ fuel sn, indexTLSServerName fuel payload = some (.ok (some sn)) →
      PointsAt payload sn) ∧
    ∀ host, HelloFor host payload →
      ∃ fuel i, indexTLSServerName fuel payload = some (.ok (some ⟨i, host.length, host⟩)) := by
  refine ⟨?_, fun narrow _ _ => index_points narrow, fun _ => hello_found⟩
  rw [← stalled_iff_loops]
  exact indexTLSServerName_returns_iff payload

end

/-- A ClientHello in one record for `a.b`. -/
def nameHello : Bytes :=
  [22, 3, 1, 0, 56, 1, 0, 0, 52, 3, 3] ++ (replicate 36 0 ++ ([0, 12] ++ serverName [97, 46, 98]))

theorem nameHello_found : ∃ fuel i,
    indexTLSServerName fuel nameHello = some (.ok (some ⟨i, 3, [97, 46, 98]⟩)) ∧
      PointsAt nameHello ⟨i, 3, [97, 46, 98]⟩ ∧ ¬ Loops nameHello := by
  have listed : Listed nameHello :=
    ⟨by decide, ⟨by decide, by decide, by decide, by decide⟩, by decide⟩
  have first : extensionsHeaderLen + listAt nameHello = 49 := by decide
  -- the name is in the first extension, so none is stepped over
  have only : ∀ o, ExtensionAt nameHello o → ¬ StepsOver (nameHello.drop o) := by
    intro o at_
    induction at_ with
    | first => decide
    | next _ steps ih => exact absurd steps ih
  obtain ⟨returns, points, hello⟩ := serverName_index nameHello
  obtain ⟨fuel, i, found⟩ :=
    hello [97, 46, 98] ⟨listed, by decide, _, [], .first, by rw [first]; rfl⟩
  refine ⟨fuel, i, found, points ?_ fuel _ found, returns.mp ⟨fuel, _, found⟩⟩
  exact fun _ o at_ steps => absurd steps (only o at_)

def oneExtension (high low : UInt8) (data : Bytes) : Bytes :=
  [22, 3, 1, 0, 0, 1, 1, 0, 0x28, 3, 3] ++ (replicate 39 0 ++ ([1, high, low] ++ data))

theorem index_longExtension {data : Bytes} (size : data.length = 65532) (fuel : Nat) :
    indexTLSServerName fuel (oneExtension 0xff 0xfc data) = none := by
  have at_ : extensionsAt ((oneExtension 0xff 0xfc data).drop recordLayerHeaderLen) = 42 := by
    simp [extensionsAt, oneExtension, byteAt, word, handshakeHeaderLen, randomDataLen,
      sessionIDHeaderLen, cipherSuiteHeaderLen, compressMethodHeaderLen, recordLayerHeaderLen]
  have list : listAt (oneExtension 0xff 0xfc data) = 47 := by rw [listAt, at_]; rfl
  have stalls : Stalls ((oneExtension 0xff 0xfc data).drop (extensionsHeaderLen + 47)) := by
    simp [Stalls, StepsOver, oneExtension, byteAt, word, size, extensionsHeaderLen,
      sniExtensionType]
  obtain ⟨unlisted, _⟩ | ⟨_, _, eq⟩ := indexTLSServerName_cases (oneExtension 0xff 0xfc data)
  · refine absurd ⟨⟨rfl, ?_⟩, ⟨rfl, ?_, ?_, ?_⟩, ?_⟩ unlisted
    · simp [segmentLen, oneExtension, byteAt, word, size, recordLayerHeaderLen]
    · simp [oneExtension, byteAt, word, size, recordLayerHeaderLen]
    · simp [oneExtension, byteAt, word, recordLayerHeaderLen, tlsVersionBitmask]
    · rw [at_]
      simp [oneExtension, size, recordLayerHeaderLen]
    · rw [list]
      simp [oneExtension, byteAt, word, size, extensionsHeaderLen]
  · rw [eq, list, stalls.never]
    rfl

/-- The loop does not step over an extension of 65532 bytes. -/
theorem longExtension_loops :
    ¬ ∃ fuel r, indexTLSServerName fuel (oneExtension 0xff 0xfc (replicate 65532 0)) = some r := by
  rintro ⟨fuel, r, returned⟩
  rw [index_longExtension length_replicate] at returned
  cases returned

end AiboosterEngine.TlsFragment
