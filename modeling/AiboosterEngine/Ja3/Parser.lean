import AiboosterEngine.GoSem.Loop
import AiboosterEngine.GoSem.Slice

/-!
# The ClientHello parser

`common/ja3`: `Compute` reads a TLS record that holds a ClientHello. Every read
is behind a check of the length, but for the two lists of numbers whose length
field is not compared with the extension that holds them.
-/

namespace AiboosterEngine.Ja3
open GoSem List Outcome Partial

def recordLayerHeaderLen : Nat := 5
def handshakeHeaderLen : Nat := 6
def randomDataLen : Nat := 32
def sessionIDHeaderLen : Nat := 1
def cipherSuiteHeaderLen : Nat := 2
def compressMethodHeaderLen : Nat := 1
def extensionsHeaderLen : Nat := 2
def extensionHeaderLen : Nat := 4
def sniExtensionHeaderLen : Nat := 5
def ecExtensionHeaderLen : Nat := 2
def ecpfExtensionHeaderLen : Nat := 1
def versionExtensionHeaderLen : Nat := 1
def signatureAlgorithmsExtensionHeaderLen : Nat := 2
def contentType : UInt8 := 22
def handshakeType : UInt8 := 1
def sniExtensionType : Nat := 0
def sniNameDNSHostnameType : UInt8 := 0
def ecExtensionType : Nat := 10
def ecpfExtensionType : Nat := 11
def versionExtensionType : Nat := 43
def signatureAlgorithmsExtensionType : Nat := 13
def tlsVersionBitmask : Nat := 0xfffc
def tls13 : Nat := 0x0304

/-- The error types of `ParseError`, with the number of the check where the text has one. -/
inductive ParseError where
  | lengthErr (check : Nat)
  | contentTypeErr
  | versionErr (check : Nat)
  | handshakeTypeErr
  | sniTypeErr
  deriving DecidableEq, Repr

structure ClientHello where
  version : Nat := 0
  cipherSuites : List Nat := []
  extensions : List Nat := []
  ellipticCurves : List Nat := []
  ellipticCurvePF : Bytes := []
  versions : List Nat := []
  signatureAlgorithms : List Nat := []
  serverName : Bytes := []
  deriving DecidableEq, Repr

/-- The local variables of `parseExtensions` that its loop fills. -/
structure Found where
  sni : Bytes := []
  extensions : List Nat := []
  ellipticCurves : List Nat := []
  ellipticCurvePF : Bytes := []
  versions : List Nat := []
  signatureAlgorithms : List Nat := []
  deriving DecidableEq, Repr

variable (exType : Nat) (sex : Bytes)

def extension (found : Found) : Outcome ParseError Found := do
  if exType = sniExtensionType then
    if sex.length < sniExtensionHeaderLen then .err (.lengthErr 13) else
    let sniType ← index sex 2
    let sniLen ← uint16At sex 3
    let sex ← sliceFrom sex sniExtensionHeaderLen
    if sex.length ≠ sniLen then .err (.lengthErr 14) else
    if sniType ≠ sniNameDNSHostnameType then .err .sniTypeErr else
    return { found with sni := sex }
  else if exType = ecExtensionType then
    if sex.length < ecExtensionHeaderLen then .err (.lengthErr 15) else
    let ecsLen ← uint16At sex 0
    let sex ← sliceFrom sex ecExtensionHeaderLen
    if sex.length ≠ ecsLen then .err (.lengthErr 16) else
    let ellipticCurves ← uint16sAt sex 0 (ecsLen / 2)
    return { found with ellipticCurves }
  else if exType = ecpfExtensionType then
    if sex.length < ecpfExtensionHeaderLen then .err (.lengthErr 17) else
    let ecpfsLen ← index sex 0
    let sex ← sliceFrom sex ecpfExtensionHeaderLen
    if sex.length ≠ ecpfsLen.toNat then .err (.lengthErr 18) else
    return { found with ellipticCurvePF := sex }
  else if exType = versionExtensionType then
    if sex.length < versionExtensionHeaderLen then .err (.lengthErr 19) else
    let versionsLen ← index sex 0
    -- `i` goes up by two while it is below `versionsLen`
    let versions ← uint16sAt sex 1 ((versionsLen.toNat + 1) / 2)
    return { found with versions := found.versions ++ versions }
  else if exType = signatureAlgorithmsExtensionType then
    if sex.length < signatureAlgorithmsExtensionHeaderLen then .err (.lengthErr 20) else
    let ssaLen ← uint16At sex 0
    let algorithms ← uint16sAt sex 2 ((ssaLen + 1) / 2)
    return { found with signatureAlgorithms := found.signatureAlgorithms ++ algorithms }
  else return found

/-- The variables of the loop over the extensions. -/
structure Parsing where
  exs : Bytes
  found : Found := {}
  deriving DecidableEq, Repr

/-- A pass of the loop in `parseExtensions`. -/
def extensionPass (s : Parsing) : Outcome ParseError (Pass Parsing Found) := do
  if s.exs.length = 0 then return .leave s.found else
  if s.exs.length < extensionHeaderLen then .err (.lengthErr 11) else
  let exType ← uint16At s.exs 0
  let exLen ← uint16At s.exs 2
  if s.exs.length < extensionHeaderLen + exLen then .err (.lengthErr 12) else
  let sex ← slice s.exs extensionHeaderLen (extensionHeaderLen + exLen)
  let found ← extension exType sex { s.found with extensions := s.found.extensions ++ [exType] }
  -- `4+exLen` is a uint16
  let exs ← sliceFrom s.exs ((4 + exLen) % 65536)
  return .again ⟨exs, found⟩

/-- The loop's body: a pass takes no fuel. -/
abbrev body (s : Parsing) : Partial ParseError (Pass Parsing Found) := some (extensionPass s)

/-- `parseExtensions` before its loop: the list of the extensions, `none` when there is none. -/
def extensionList (exs : Bytes) : Outcome ParseError (Option Bytes) := do
  if exs.length = 0 then return none else
  if exs.length < extensionsHeaderLen then .err (.lengthErr 9) else
  let exsLen ← uint16At exs 0
  let exs ← sliceFrom exs extensionsHeaderLen
  if exs.length < exsLen then .err (.lengthErr 10) else
  return some exs

variable (j : ClientHello)

def parseExtensions (exs : Bytes) : Partial ParseError ClientHello := do
  match ← lift (extensionList exs) with
  | none => return j
  | some exs =>
    let found ← loop body (exs.length + 1) { exs }
    return { j with
      serverName := found.sni
      extensions := found.extensions
      ellipticCurves := found.ellipticCurves
      ellipticCurvePF := found.ellipticCurvePF
      versions := found.versions
      signatureAlgorithms := found.signatureAlgorithms }

/-- `parseHandshake` before it calls `parseExtensions`: what it has filled in, and the
extensions. -/
def handshakeExtensions (hs : Bytes) : Outcome ParseError (ClientHello × Bytes) := do
  if hs.length < handshakeHeaderLen + randomDataLen + sessionIDHeaderLen
    then .err (.lengthErr 3) else
  let handshType ← index hs 0
  if handshType ≠ handshakeType then .err .handshakeTypeErr else
  let high ← index hs 1
  let low ← uint16At hs 2
  let body ← sliceFrom hs 4
  if body.length ≠ high.toNat * 65536 + low then .err (.lengthErr 4) else
  let tlsVersion ← uint16At hs 4
  if tlsVersion &&& tlsVersionBitmask ≠ 0x0300 ∧ tlsVersion ≠ tls13 then .err (.versionErr 2) else
  let sessionIDLen ← index hs 38
  let start := handshakeHeaderLen + randomDataLen + sessionIDHeaderLen + sessionIDLen.toNat
  if hs.length < start then .err (.lengthErr 5) else
  let cs ← sliceFrom hs start
  if cs.length < cipherSuiteHeaderLen then .err (.lengthErr 6) else
  let csLen ← uint16At cs 0
  if cs.length < cipherSuiteHeaderLen + csLen + compressMethodHeaderLen
    then .err (.lengthErr 7) else
  let cipherSuites ← uint16sAt cs 2 (csLen / 2)
  let compressMethodLen ← index cs (cipherSuiteHeaderLen + csLen)
  let start := cipherSuiteHeaderLen + csLen + compressMethodHeaderLen + compressMethodLen.toNat
  if cs.length < start then .err (.lengthErr 8) else
  let exs ← sliceFrom cs start
  return ({ j with version := tlsVersion, cipherSuites }, exs)

def parseHandshake (hs : Bytes) : Partial ParseError ClientHello := do
  let (j, exs) ← lift (handshakeExtensions j hs)
  parseExtensions j exs

variable (segment : Bytes)

/-- `parseSegment` before it calls `parseHandshake`: the handshake of the record. -/
def segmentHandshake : Outcome ParseError Bytes := do
  if segment.length < recordLayerHeaderLen then .err (.lengthErr 1) else
  let contType ← index segment 0
  if contType ≠ contentType then .err .contentTypeErr else
  let tlsRecordVersion ← uint16At segment 1
  if tlsRecordVersion &&& tlsVersionBitmask ≠ 0x0300 ∧ tlsRecordVersion ≠ tls13 then
    .err (.versionErr 1)
  else
  let segmentLen ← uint16At segment 3
  let rest ← sliceFrom segment recordLayerHeaderLen
  if rest.length < segmentLen then .err (.lengthErr 2) else
  slice segment recordLayerHeaderLen (recordLayerHeaderLen + segmentLen)

def parseSegment : Partial ParseError ClientHello := do
  let hs ← lift (segmentHandshake segment)
  parseHandshake j hs

variable (payload : Bytes)

def compute : Partial ParseError ClientHello := parseSegment {} payload

/-- The length of a record is a number of two bytes. -/
theorem segmentHandshake_yields :
    (segmentHandshake segment).Yields fun hs => hs.length < 65536 := by
  have bound := word_lt segment 3
  unfold segmentHandshake recordLayerHeaderLen
  refine .ite (fun _ => .err) fun long => .bind (index_eq (by omega)) ?_
  refine .ite (fun _ => .err) fun _ => .bind (uint16At_eq (by omega)) ?_
  refine .ite (fun _ => .err) fun _ => .bind (uint16At_eq (by omega)) ?_
  refine .bind (sliceFrom_eq (by omega)) (.ite (fun _ => .err) fun complete => ?_)
  rw [length_drop] at complete
  rw [slice_eq (by omega) (by omega)]
  refine .ok ?_
  rw [length_take]
  omega

theorem handshakeExtensions_yields (hs : Bytes) :
    (handshakeExtensions j hs).Yields fun r => r.2.length ≤ hs.length := by
  unfold handshakeExtensions handshakeHeaderLen randomDataLen sessionIDHeaderLen
    cipherSuiteHeaderLen compressMethodHeaderLen
  refine .ite (fun _ => .err) fun long => .bind (index_eq (by omega)) ?_
  refine .ite (fun _ => .err) fun _ => .bind (index_eq (by omega)) ?_
  refine .bind (uint16At_eq (by omega)) (.bind (sliceFrom_eq (by omega)) ?_)
  refine .ite (fun _ => .err) fun _ => .bind (uint16At_eq (by omega)) ?_
  refine .ite (fun _ => .err) fun _ => .bind (index_eq (by omega)) ?_
  refine .ite (fun _ => .err) fun session => .bind (sliceFrom_eq (by omega)) ?_
  refine .ite (fun _ => .err) fun _ => .bind (uint16At_eq (by omega)) ?_
  refine .ite (fun _ => .err) fun suites => .bindAny (uint16sAt_ok (by omega)) fun _ => ?_
  refine .bind (index_eq (by omega)) ?_
  refine .ite (fun _ => .err) fun _ => .bind (sliceFrom_eq (by omega)) (.ok ?_)
  simp only [length_drop]
  omega

theorem extensionList_yields (exs : Bytes) :
    (extensionList exs).Yields fun r => ∀ list, r = some list → list.length ≤ exs.length := by
  unfold extensionList extensionsHeaderLen
  refine .ite (fun _ => .ok nofun) fun _ => .ite (fun _ => .err) fun long => ?_
  refine .bind (uint16At_eq (by omega)) (.bind (sliceFrom_eq (by omega)) ?_)
  refine .ite (fun _ => .err) fun _ => .ok ?_
  intro list same
  cases same
  rw [length_drop]
  omega

/-- How many bytes the numbers of a `supported_versions` extension take, its length included. -/
def versionsEnd : Nat := 1 + 2 * (((byteAt sex 0).toNat + 1) / 2)

/-- The same for `signature_algorithms`. -/
def algorithmsEnd : Nat := 2 + 2 * ((word sex 0 + 1) / 2)

/-- What the parser asks of an extension. -/
def Accepts : Prop :=
  if exType = sniExtensionType then
    5 ≤ sex.length ∧ sex.length = 5 + word sex 3 ∧ byteAt sex 2 = sniNameDNSHostnameType
  else if exType = ecExtensionType then 2 ≤ sex.length ∧ sex.length = 2 + word sex 0
  else if exType = ecpfExtensionType then 1 ≤ sex.length ∧ sex.length = 1 + (byteAt sex 0).toNat
  else if exType = versionExtensionType then 1 ≤ sex.length ∧ versionsEnd sex ≤ sex.length
  else if exType = signatureAlgorithmsExtensionType then
    2 ≤ sex.length ∧ algorithmsEnd sex ≤ sex.length
  else True

/-- A list whose length field says more than the extension holds, where nothing compares the two. -/
def Overreads : Prop :=
  if exType = versionExtensionType then 1 ≤ sex.length ∧ sex.length < versionsEnd sex
  else if exType = signatureAlgorithmsExtensionType then
    2 ≤ sex.length ∧ sex.length < algorithmsEnd sex
  else False

theorem Accepts.not_overreads {exType : Nat} {sex : Bytes} (h : Accepts exType sex) :
    ¬ Overreads exType sex := by
  intro past
  unfold Overreads at past
  split at past
  · rename_i version
    subst version
    have fits : 1 ≤ sex.length ∧ versionsEnd sex ≤ sex.length := h
    omega
  · split at past
    · rename_i algorithms
      subst algorithms
      have fits : 2 ≤ sex.length ∧ algorithmsEnd sex ≤ sex.length := h
      omega
    · exact past

/-- What becomes of an extension. -/
def Judged (accepts overreads : Prop) (x : Outcome ParseError Found) : Prop :=
  (accepts ∧ ∃ found, x = .ok found) ∨ (overreads ∧ x = .panicked) ∨
  (¬ accepts ∧ ¬ overreads ∧ ∃ e, x = .err e)

variable (sex : Bytes) (found : Found)

theorem extension_sni :
    Judged (5 ≤ sex.length ∧ sex.length = 5 + word sex 3 ∧ byteAt sex 2 = sniNameDNSHostnameType)
      False (extension sniExtensionType sex found) := by
  unfold extension sniExtensionHeaderLen
  rw [if_pos rfl]
  by_cases short : sex.length < 5
  · exact .inr (.inr ⟨by omega, id, _, if_pos short⟩)
  rw [if_neg short, index_eq (by omega), uint16At_eq (by omega), sliceFrom_eq (by omega)]
  simp only [ok_bind, length_drop]
  by_cases other : sex.length - 5 ≠ word sex 3
  · exact .inr (.inr ⟨by omega, id, _, if_pos other⟩)
  rw [if_neg other]
  by_cases dns : byteAt sex 2 ≠ sniNameDNSHostnameType
  · exact .inr (.inr ⟨fun h => dns h.2.2, id, _, if_pos dns⟩)
  rw [if_neg dns]
  exact .inl ⟨⟨by omega, by omega, Decidable.not_not.mp dns⟩, _, rfl⟩

theorem extension_ec :
    Judged (2 ≤ sex.length ∧ sex.length = 2 + word sex 0) False
      (extension ecExtensionType sex found) := by
  unfold extension ecExtensionHeaderLen
  rw [if_neg (by decide), if_pos rfl]
  by_cases short : sex.length < 2
  · exact .inr (.inr ⟨by omega, id, _, if_pos short⟩)
  rw [if_neg short, uint16At_eq (by omega), ok_bind, sliceFrom_eq (by omega), ok_bind]
  by_cases other : (sex.drop 2).length ≠ word sex 0
  · rw [length_drop] at other
    exact .inr (.inr ⟨by omega, id, _, by rw [length_drop, if_pos other]⟩)
  rw [if_neg other]
  rw [length_drop] at other
  obtain ⟨curves, read⟩ := uint16sAt_ok (ε := ParseError)
    (show 0 + 2 * (word sex 0 / 2) ≤ (sex.drop 2).length by rw [length_drop]; omega)
  exact .inl ⟨by omega, _, by rw [read]; rfl⟩

theorem extension_ecpf :
    Judged (1 ≤ sex.length ∧ sex.length = 1 + (byteAt sex 0).toNat) False
      (extension ecpfExtensionType sex found) := by
  unfold extension ecpfExtensionHeaderLen
  rw [if_neg (by decide), if_neg (by decide), if_pos rfl]
  by_cases short : sex.length < 1
  · exact .inr (.inr ⟨by omega, id, _, if_pos short⟩)
  rw [if_neg short, index_eq (by omega), ok_bind, sliceFrom_eq (by omega), ok_bind,
    length_drop]
  by_cases other : sex.length - 1 ≠ (byteAt sex 0).toNat
  · exact .inr (.inr ⟨by omega, id, _, if_pos other⟩)
  · exact .inl ⟨by omega, _, if_neg other⟩

theorem extension_version :
    Judged (1 ≤ sex.length ∧ versionsEnd sex ≤ sex.length)
      (1 ≤ sex.length ∧ sex.length < versionsEnd sex)
      (extension versionExtensionType sex found) := by
  unfold extension versionExtensionHeaderLen versionsEnd
  rw [if_neg (by decide), if_neg (by decide), if_neg (by decide), if_pos rfl]
  by_cases short : sex.length < 1
  · exact .inr (.inr ⟨by omega, by omega, _, if_pos short⟩)
  rw [if_neg short, index_eq (by omega), ok_bind]
  by_cases fits : 1 + 2 * (((byteAt sex 0).toNat + 1) / 2) ≤ sex.length
  · obtain ⟨versions, read⟩ := uint16sAt_ok (ε := ParseError) fits
    exact .inl ⟨by omega, _, by rw [read]; rfl⟩
  · exact .inr (.inl ⟨by omega, by rw [uint16sAt_panics (by omega) (by omega)]; rfl⟩)

theorem extension_signatureAlgorithms :
    Judged (2 ≤ sex.length ∧ algorithmsEnd sex ≤ sex.length)
      (2 ≤ sex.length ∧ sex.length < algorithmsEnd sex)
      (extension signatureAlgorithmsExtensionType sex found) := by
  unfold extension signatureAlgorithmsExtensionHeaderLen algorithmsEnd
  rw [if_neg (by decide), if_neg (by decide), if_neg (by decide), if_neg (by decide), if_pos rfl]
  by_cases short : sex.length < 2
  · exact .inr (.inr ⟨by omega, by omega, _, if_pos short⟩)
  rw [if_neg short, uint16At_eq (by omega), ok_bind]
  by_cases fits : 2 + 2 * ((word sex 0 + 1) / 2) ≤ sex.length
  · obtain ⟨algorithms, read⟩ := uint16sAt_ok (ε := ParseError) fits
    exact .inl ⟨by omega, _, by rw [read]; rfl⟩
  · exact .inr (.inl ⟨by omega, by rw [uint16sAt_panics (by omega) (by omega)]; rfl⟩)

theorem extension_cases (found : Found) :
    Judged (Accepts exType sex) (Overreads exType sex) (extension exType sex found) := by
  by_cases sni : exType = sniExtensionType
  · subst sni; exact extension_sni sex found
  by_cases ec : exType = ecExtensionType
  · subst ec; exact extension_ec sex found
  by_cases ecpf : exType = ecpfExtensionType
  · subst ecpf; exact extension_ecpf sex found
  by_cases version : exType = versionExtensionType
  · subst version; exact extension_version sex found
  by_cases algorithms : exType = signatureAlgorithmsExtensionType
  · subst algorithms; exact extension_signatureAlgorithms sex found
  -- every other type is noted and stepped over
  left
  unfold Accepts extension
  simp only [sni, ec, ecpf, version, algorithms, if_false]
  exact ⟨trivial, found, rfl⟩

/-- The body of the extension a list begins with. -/
def headBody (exs : Bytes) : Bytes := (exs.drop 4).take (word exs 2)

/-- The list begins with a complete extension that the parser takes. -/
def StepsOver (exs : Bytes) : Prop :=
  4 + word exs 2 ≤ exs.length ∧ Accepts (word exs 0) (headBody exs)

/-- The list begins with a complete extension that the parser reads past the end of. -/
def HeadOverreads (exs : Bytes) : Prop :=
  4 + word exs 2 ≤ exs.length ∧ Overreads (word exs 0) (headBody exs)

def after (exs : Bytes) : Bytes := exs.drop (4 + word exs 2)

variable {s : Parsing} {exs : Bytes}

/-- Before a complete extension, in a list that is shorter than a record can be, the step over
the extension does not wrap. -/
theorem extensionPass_complete (short : s.exs.length < 65536)
    (fits : 4 + word s.exs 2 ≤ s.exs.length) :
    extensionPass s = (do
      let found ← extension (word s.exs 0) (headBody s.exs)
        { s.found with extensions := s.found.extensions ++ [word s.exs 0] }
      return .again ⟨after s.exs, found⟩) := by
  have stepped : (sliceFrom s.exs ((4 + word s.exs 2) % 65536) : Outcome ParseError Bytes) =
      .ok (after s.exs) := by
    rw [Nat.mod_eq_of_lt (by omega), sliceFrom_eq fits]
    rfl
  unfold extensionPass extensionHeaderLen
  rw [if_neg (by omega), if_neg (by omega), uint16At_eq (by omega), ok_bind,
    uint16At_eq (by omega), ok_bind, if_neg (by omega), slice_eq (by omega) fits,
    ok_bind, Nat.add_sub_cancel_left, stepped]
  rfl

theorem extensionPass_incomplete (cut : ¬ 4 + word s.exs 2 ≤ s.exs.length) :
    (extensionPass s).Yields fun pass => ∃ found, pass = .leave found := by
  unfold extensionPass extensionHeaderLen
  refine .ite (fun _ => .ok ⟨_, rfl⟩) fun _ => .ite (fun _ => .err) fun long => ?_
  refine .bind (uint16At_eq (by omega)) (.bind (uint16At_eq (by omega)) ?_)
  exact .ite (fun _ => .err) fun fits => absurd (Nat.le_of_not_lt fits) cut

theorem extensionPass_cases (short : s.exs.length < 65536) :
    (StepsOver s.exs ∧ ∃ found, extensionPass s = .ok (.again ⟨after s.exs, found⟩)) ∨
    (HeadOverreads s.exs ∧ extensionPass s = .panicked) ∨
    (¬ StepsOver s.exs ∧ ¬ HeadOverreads s.exs ∧
      (extensionPass s).Yields fun pass => ∃ found, pass = .leave found) := by
  by_cases fits : 4 + word s.exs 2 ≤ s.exs.length
  · have complete := extensionPass_complete short fits
    rcases extension_cases (word s.exs 0) (headBody s.exs)
      { s.found with extensions := s.found.extensions ++ [word s.exs 0] } with
      ⟨accepts, found, taken⟩ | ⟨overreads, past⟩ | ⟨accepts, overreads, e, refused⟩
    · exact .inl ⟨⟨fits, accepts⟩, found, by rw [complete, taken]; rfl⟩
    · exact .inr (.inl ⟨⟨fits, overreads⟩, by rw [complete, past]; rfl⟩)
    · refine .inr (.inr ⟨fun h => accepts h.2, fun h => overreads h.2, ?_⟩)
      rw [complete, refused]
      exact .err
  · exact .inr (.inr ⟨fun h => fits h.1, fun h => fits h.1, extensionPass_incomplete fits⟩)

/-- The lists that the loop comes to. -/
inductive Reaches (exs : Bytes) : Bytes → Prop
  | here : Reaches exs exs
  | next {exs' : Bytes} : Reaches exs exs' → StepsOver exs' → Reaches exs (after exs')

theorem after_shorter (h : StepsOver exs) : (after exs).length < exs.length := by
  have fits := h.1
  unfold after
  rw [length_drop]
  omega

theorem Reaches.length_le {exs' : Bytes} (h : Reaches exs exs') : exs'.length ≤ exs.length := by
  induction h with
  | here => exact .refl
  | next _ steps ih => exact Nat.le_trans (Nat.le_of_lt (after_shorter steps)) ih

section
variable (short : s.exs.length < 65536)
include short

theorem body_again {t : Parsing} (h : body s = some (.ok (.again t))) :
    StepsOver s.exs ∧ t.exs = after s.exs := by
  have again : extensionPass s = .ok (.again t) := Option.some.inj h
  rcases extensionPass_cases short with ⟨steps, found, run⟩ | ⟨_, run⟩ | ⟨_, _, run⟩
  · rw [run] at again
    cases again
    exact ⟨steps, rfl⟩
  · rw [run] at again
    cases again
  · obtain ⟨_, other⟩ := run.2 _ again
    cases other

theorem reaches_of_comes {t : Parsing} (h : Comes body s t) : Reaches s.exs t.exs := by
  induction h with
  | here => exact .here
  | next _ again ih =>
    obtain ⟨steps, same⟩ := body_again (Nat.lt_of_le_of_lt ih.length_le short) again
    rw [same]
    exact .next ih steps

theorem comes_of_reaches (h : Reaches s.exs exs) : ∃ found, Comes body s ⟨exs, found⟩ := by
  induction h with
  | here => exact ⟨s.found, .here⟩
  | @next exs' reached steps ih =>
    obtain ⟨found, comes⟩ := ih
    have below : exs'.length < 65536 := Nat.lt_of_le_of_lt reached.length_le short
    rcases extensionPass_cases (s := ⟨exs', found⟩) below
      with ⟨_, found', run⟩ | ⟨past, run⟩ | ⟨no, _⟩
    · exact ⟨found', .next comes (by rw [body, run])⟩
    · exact absurd past.2 steps.2.not_overreads
    · exact absurd steps no

theorem body_returns_iff : (body s).Returns ↔ ¬ HeadOverreads s.exs := by
  rw [some_returns]
  rcases extensionPass_cases short with ⟨steps, found, run⟩ | ⟨past, run⟩ | ⟨_, no, run⟩
  · rw [run]
    exact ⟨fun _ past => steps.2.not_overreads past.2, fun _ => trivial⟩
  · rw [run]
    exact ⟨False.elim, fun no => no past⟩
  · exact ⟨fun _ => no, fun _ => run.1⟩

end

theorem extensionsLoop_returns_iff (short : exs.length < 65536) :
    (loop body (exs.length + 1) { exs }).Returns ↔ ∀ exs', Reaches exs exs' →
      ¬ HeadOverreads exs' := by
  have smaller : ∀ s t, Comes body { exs } s → body s = some (.ok (.again t)) →
      t.exs.length < s.exs.length := by
    intro s t comes again
    have le := (reaches_of_comes short comes).length_le
    obtain ⟨steps, same⟩ := body_again (Nat.lt_of_le_of_lt le short) again
    rw [same]
    exact after_shorter steps
  constructor
  · intro returns exs' reached
    obtain ⟨found, comes⟩ := comes_of_reaches (s := { exs }) short reached
    have below : exs'.length < 65536 := Nat.lt_of_le_of_lt reached.length_le short
    exact (body_returns_iff (s := ⟨exs', found⟩) below).mp (body_returns_of_loop returns comes)
  · intro clean
    refine loop_returns_of_lt (fun s : Parsing => s.exs.length) (Nat.lt_succ_self _)
      (fun s comes => ?_) smaller
    have reached := reaches_of_comes short comes
    exact (body_returns_iff (Nat.lt_of_le_of_lt reached.length_le short)).mpr (clean _ reached)

theorem parseExtensions_returns_iff (short : exs.length < 65536) :
    (parseExtensions j exs).Returns ↔
      ∀ list, extensionList exs = .ok (some list) → ∀ exs', Reaches list exs' →
        ¬ HeadOverreads exs' := by
  have checks := extensionList_yields exs
  unfold parseExtensions
  rw [lift_bind_returns]
  constructor
  · rintro ⟨_, more⟩ list found
    have below : list.length < 65536 := Nat.lt_of_le_of_lt (checks.2 _ found list rfl) short
    exact (extensionsLoop_returns_iff below).mp ((Partial.bind_returns _ _).mp (more _ found)).1
  · intro clean
    refine ⟨checks.1, fun r found => ?_⟩
    match r, found with
    | none, _ => exact ⟨_, rfl, trivial⟩
    | some list, found =>
      have below : list.length < 65536 := Nat.lt_of_le_of_lt (checks.2 _ found list rfl) short
      have loops := (extensionsLoop_returns_iff below).mpr (clean list found)
      exact (Partial.bind_returns _ _).mpr ⟨loops, fun _ _ => ⟨_, rfl, trivial⟩⟩

/-- The list of extensions in a record, as far as the checks before the loop let it through. -/
def recordExtensions : Outcome ParseError (Option Bytes) := do
  let hs ← segmentHandshake payload
  let (_, exs) ← handshakeExtensions {} hs
  extensionList exs

/-- **Where the parser panics.** `Compute` comes back, with a ClientHello or an error, exactly
when no extension its loop comes to holds a list that ends after the extension does. -/
theorem compute_returns_iff :
    (compute payload).Returns ↔
      ∀ exs, recordExtensions payload = .ok (some exs) → ∀ exs', Reaches exs exs' →
        ¬ HeadOverreads exs' := by
  have record := segmentHandshake_yields payload
  have short {hs : Bytes} {r : ClientHello × Bytes} (seg : segmentHandshake payload = .ok hs)
      (handshake : handshakeExtensions {} hs = .ok r) : r.2.length < 65536 :=
    Nat.lt_of_le_of_lt ((handshakeExtensions_yields {} hs).2 _ handshake) (record.2 hs seg)
  unfold compute parseSegment parseHandshake
  rw [lift_bind_returns]
  constructor
  · rintro ⟨_, more⟩ exs found
    obtain ⟨hs, seg, found⟩ := bind_eq_ok found
    obtain ⟨r, handshake, found⟩ := bind_eq_ok found
    have parsed := ((lift_bind_returns _ _).mp (more hs seg)).2 r handshake
    exact (parseExtensions_returns_iff r.1 (short seg handshake)).mp parsed exs found
  · intro clean
    refine ⟨record.1, fun hs seg => (lift_bind_returns _ _).mpr ?_⟩
    refine ⟨(handshakeExtensions_yields {} hs).1, fun r handshake => ?_⟩
    refine (parseExtensions_returns_iff r.1 (short seg handshake)).mpr fun list found =>
      clean list ?_
    unfold recordExtensions
    rw [seg, ok_bind, handshake]
    exact found

end AiboosterEngine.Ja3
