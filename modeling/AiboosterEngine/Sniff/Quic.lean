import AiboosterEngine.Ja3.Parser
import AiboosterEngine.Sniff.Qtls
import Mathlib.Algebra.GroupWithZero.Nat

/-!
# Sniffing QUIC

`QUICClientHello` of `common/sniff/quic.go`: it opens an Initial packet, collects
the CRYPTO frames of this and of earlier packets, puts them together by their
offsets and reads the ClientHello. The loop that puts the fragments together
takes fuel; the other loops have the length of what they read.
-/

namespace AiboosterEngine.Sniff
open GoSem Reader Qtls

/-- `os.ErrInvalid`. -/
def errInvalid : String := "invalid argument"

/-- What is kept of the header of a packet. -/
structure Header where
  versionNumber : Nat
  destConnID : Bytes
  packetLen : Nat
  hdrLen : Nat
  pnBytes : Bytes
  deriving DecidableEq, Repr

def readHeader (packet : Bytes) : Reader String Header := do
  let typeByte ← readByte
  if typeByte &&& 0x40 = 0 then .fail "bad type byte" else
  let version ← readFull 4
  let versionNumber := fromBigEndian version
  if versionNumber ≠ versionDraft29 ∧ versionNumber ≠ version1 ∧ versionNumber ≠ version2 then
    .fail "bad version"
  else
  let packetType := (typeByte &&& 0x30) >>> 4
  if (packetType = 0 ∧ versionNumber = version2) ∨ (packetType = 2 ∧ versionNumber ≠ version2)
      ∨ packetType > 2 then
    .fail "bad packet type"
  else
  let destConnIDLen ← readByte
  if destConnIDLen = 0 ∨ destConnIDLen > 20 then .fail "bad destination connection id length" else
  let destConnID ← readFull destConnIDLen.toNat
  let srcConnIDLen ← readByte
  skip srcConnIDLen.toNat
  let tokenLen ← Qtls.readUvarint
  skip tokenLen
  let packetLen ← Qtls.readUvarint
  let len ← remaining
  let hdrLen := packet.length - len
  if hdrLen + packetLen > packet.length then .fail errInvalid else
  skip 4
  let pnBytes ← readFull 16
  return { versionNumber, destConnID, packetLen, hdrLen, pnBytes }

/-- The header protection is taken off the first byte and the four bytes of the packet number. -/
def removeProtection (mask packet : Bytes) (hdrLen : Nat) : Outcome String Bytes := do
  let first ← index mask 0
  let newPacket ← xorAt packet 0 (first &&& 0xf)
  let number ← slice newPacket hdrLen (hdrLen + 4)
  (List.range number.length).foldlM (fun newPacket i => do
    let b ← index mask (i + 1)
    xorAt newPacket (hdrLen + i) b) newPacket

/-- The switch over the length of the packet number. -/
def packetNumberAt (newPacket : Bytes) (hdrLen packetNumberLength : Nat) : Outcome String Nat :=
  match packetNumberLength with
  | 1 | 2 | 3 | 4 => do
    let number ← slice newPacket hdrLen (hdrLen + packetNumberLength)
    return fromBigEndian number
  | _ => .err "bad packet number length"

/-- The plaintext and, behind it in the same array, what its slice may still be extended by:
`Open` writes the plaintext into the packet. -/
structure Decrypted where
  plain : Bytes
  spare : Bytes
  deriving DecidableEq, Repr

variable (c : Crypto)

def openPacket (packet : Bytes) (h : Header) : Outcome String Decrypted := do
  let salt := if h.versionNumber = version1 then saltV1
    else if h.versionNumber = version2 then saltV2 else saltOld
  let two := h.versionNumber = version2
  let initialSecret := c.extract h.destConnID salt
  let secret ← hkdfExpandLabel c initialSecret [] "client in" 32
  let hpKey ← hkdfExpandLabel c secret []
    (if two then hkdfLabelHeaderProtectionV2 else hkdfLabelHeaderProtectionV1) 16
  newCipher hpKey
  let mask := c.encrypt hpKey h.pnBytes
  let newPacket ← removeProtection mask packet h.hdrLen
  let first ← index newPacket 0
  let packetNumberLength := (first &&& 0x3).toNat + 1
  if h.hdrLen + packetNumberLength > h.packetLen + h.hdrLen then .err errInvalid else
  let packetNumber ← packetNumberAt newPacket h.hdrLen packetNumberLength
  let extHdrLen := h.hdrLen + packetNumberLength
  let source ← sliceFrom packet extHdrLen
  let newPacket ← copyInto newPacket extHdrLen (h.hdrLen + 4) source
  let data ← slice newPacket extHdrLen (h.packetLen + h.hdrLen)
  let key ← hkdfExpandLabel c secret [] (if two then hkdfLabelKeyV2 else hkdfLabelKeyV1) 16
  let iv ← hkdfExpandLabel c secret [] (if two then hkdfLabelIVV2 else hkdfLabelIVV1) 12
  let cipher ← aeadAESGCMTLS13 key iv
  let nonce := bigEndian 8 packetNumber
  let additionalData ← slice newPacket 0 extHdrLen
  let plain ← cipher.openAEAD c nonce data additionalData
  return ⟨plain, newPacket.drop (extHdrLen + plain.length)⟩

def decrypt (packet : Bytes) : Partial String Decrypted := do
  let (h, _) ← readHeader packet packet
  Partial.lift (openPacket c packet h)

structure QCryptoFragment where
  offset : Nat
  length : Nat
  payload : Bytes
  deriving DecidableEq, Repr

def frameTypePadding : UInt8 := 0x00
def frameTypePing : UInt8 := 0x01
def frameTypeAck : UInt8 := 0x02
def frameTypeAck2 : UInt8 := 0x03
def frameTypeCrypto : UInt8 := 0x06
def frameTypeConnectionClose : UInt8 := 0x1c

/-- `decrypted[i:j]`, which may go past the plaintext as far as the array goes. -/
def Decrypted.slice (d : Decrypted) (i j : Nat) : Outcome String Bytes :=
  GoSem.slice (d.plain ++ d.spare) i j

/-- Offset and length of a CRYPTO frame. -/
def readCryptoHeader : Reader String (Nat × Nat) := do
  let offset ← Qtls.readUvarint
  let length ← Qtls.readUvarint
  return (offset, length)

/-- The switch over the type of a frame: the fragment it adds, if it adds one. -/
def readFrame (d : Decrypted) (frameType : UInt8) : Reader String (List QCryptoFragment) :=
  if frameType = frameTypePadding then return []
  else if frameType = frameTypePing then return []
  else if frameType = frameTypeAck ∨ frameType = frameTypeAck2 then do
    let _largestAcknowledged ← Qtls.readUvarint
    let _ackDelay ← Qtls.readUvarint
    let ackRangeCount ← Qtls.readUvarint
    let _firstAckRange ← Qtls.readUvarint
    let _ranges ← times (fun _ => do
      let _gap ← Qtls.readUvarint
      Qtls.readUvarint) 0 ackRangeCount
    if frameType = 0x03 then
      let _ect0Count ← Qtls.readUvarint
      let _ect1Count ← Qtls.readUvarint
      let _ecnCECount ← Qtls.readUvarint
      return []
    else return []
  else if frameType = frameTypeCrypto then do
    let (offset, length) ← readCryptoHeader
    let len ← remaining
    let index := d.plain.length - len
    let payload ← lift (d.slice index (index + length))
    seek length
    return [{ offset, length, payload }]
  else if frameType = frameTypeConnectionClose then do
    let _errorCode ← Qtls.readUvarint
    let _frameType ← Qtls.readUvarint
    let length ← Qtls.readUvarint
    seek length
    return []
  else .fail errInvalid

/-- The variables of the loop over the frames. -/
structure Collecting where
  rest : Bytes
  frameTypeList : List UInt8 := []
  fragments : List QCryptoFragment := []
  deriving DecidableEq, Repr

/-- A pass of the loop over the frames. -/
def framePass (d : Decrypted) (s : Collecting) :
    Partial String (Pass Collecting (List UInt8 × List QCryptoFragment)) :=
  match s.rest with
  | [] => return .leave (s.frameTypeList, s.fragments)
  | frameType :: rest => do
    let (found, rest) ← readFrame d frameType rest
    return .again ⟨rest, s.frameTypeList ++ [frameType], s.fragments ++ found⟩

def readFrames (d : Decrypted) : Partial String (List UInt8 × List QCryptoFragment) :=
  loop (framePass d) (d.plain.length + 1) { rest := d.plain }

section
variable (fragments : List QCryptoFragment)

def frameLen : Nat := (fragments.map QCryptoFragment.length).sum

/-- `Write` to a buffer of a fixed size: what does not fit is left out. -/
def bufferWrite (capacity : Nat) (buffer data : Bytes) : Bytes :=
  buffer ++ data.take (capacity - buffer.length)

/-- The variables of the loop `find`. -/
structure Joining where
  index : Nat
  buffer : Bytes
  deriving DecidableEq, Repr

/-- The fragment that the search through the list stops at. -/
def firstAt (index : Nat) : Option QCryptoFragment :=
  fragments.find? fun fragment => fragment.offset == index

/-- A pass of the loop `find`. -/
def joinPass (s : Joining) : Partial String (Pass Joining Bytes) :=
  match firstAt fragments s.index with
  | some fragment =>
    return .again ⟨fragment.offset + fragment.length,
      bufferWrite (5 + frameLen fragments) s.buffer fragment.payload⟩
  | none => return .leave s.buffer

def recordHeader : Bytes :=
  [0x16, 0x03, 0x03] ++ bigEndian 2 (frameLen fragments)

def join (fuel : Nat) : Partial String Bytes :=
  loop (joinPass fragments) fuel ⟨0, recordHeader fragments⟩

end

def clientChromium : String := "chromium"
def clientSafari : String := "safari"
def clientFirefox : String := "firefox"
def clientQUICGo : String := "quic-go"
def clientUnknown : String := "unknown"

def protocolQUIC : String := "quic"

def x25519Kyber768Draft00 : Nat := 0x11ec
def extensionRenegotiationInfo : Nat := 0xff01

def isQUICGo (fingerprint : Ja3.ClientHello) : Bool :=
  fingerprint.ellipticCurves.any (· == x25519Kyber768Draft00) ||
    fingerprint.extensions.any (· == extensionRenegotiationInfo)

def isZero (slices : List UInt8) : Bool := slices.all (· == 0)

def greaseBitmask : Nat := 0x0f0f

/-- Both of the fingerprints taken for Safari; `TLS_AES_256_GCM_SHA384`, `X25519` and
`ECDSAWithP256AndSHA256` are the numbers of the second. -/
def looksLikeSafari (fingerprint : Ja3.ClientHello) : Bool :=
  (fingerprint.versions.length == 2 && fingerprint.versions.getD 0 0 &&& greaseBitmask == 0x0a0a &&
    fingerprint.ellipticCurves.length == 5 &&
    fingerprint.ellipticCurves.getD 0 0 &&& greaseBitmask == 0x0a0a) ||
  (fingerprint.cipherSuites == [0x1302] && fingerprint.ellipticCurves == [29] &&
    fingerprint.signatureAlgorithms == [0x0403])

/-- The body of the loop over `metadata.Client`, which ends after one pass. -/
def clientOf (frameTypeList : List UInt8) (fingerprint : Ja3.ClientHello) :
    Outcome String String := do
  if frameTypeList.length = 1 then return clientFirefox else
  let first ← index frameTypeList 0
  let tail ← sliceFrom frameTypeList 1
  if first = frameTypeCrypto ∧ isZero tail ∧
    looksLikeSafari fingerprint then return clientSafari else
  let last ← index frameTypeList (frameTypeList.length - 1)
  let init ← slice frameTypeList 0 (frameTypeList.length - 1)
  if last = frameTypeCrypto ∧ isZero init then return clientQUICGo else
  if frameTypeList.count frameTypeCrypto > 1 ∨ frameTypeList.count frameTypePing > 0 then
    return if isQUICGo fingerprint then clientQUICGo else clientChromium
  else return clientUnknown

/-- The part of `adapter.InboundContext` that sniffing uses. -/
structure Metadata where
  protocol : String := ""
  domain : Bytes := []
  client : String := ""
  sniffContext : Option (List QCryptoFragment) := none
  deriving DecidableEq, Repr

inductive SniffError where
  | failed (text : String)
  | needMoreData (cause : Ja3.ParseError)
  deriving DecidableEq, Repr

variable (metadata : Metadata)

def failing {α : Type} (x : Partial String α) : Partial (SniffError × Metadata) α :=
  x.withErr fun text => (.failed text, metadata)

/-- The fragments of earlier packets. -/
def Metadata.fragments : List QCryptoFragment := metadata.sniffContext.getD []

/-- `QUICClientHello` after the ClientHello has been read. -/
def setClient (frameTypeList : List UInt8) (fingerprint : Ja3.ClientHello) :
    Partial String Metadata :=
  if metadata.client = "" then do
    let client ← Partial.lift (clientOf frameTypeList fingerprint)
    return { metadata with client }
  else return metadata

/-- `QUICClientHello` from `ja3.Compute` on. -/
def identify (frameTypeList : List UInt8) (fragments : List QCryptoFragment)
    (buffer : Bytes) : Partial (SniffError × Metadata) Metadata := do
  let fingerprint ← (Ja3.compute buffer).withErr fun e =>
    (.needMoreData e, { metadata with sniffContext := some fragments })
  let metadata := { metadata with domain := fingerprint.serverName }
  failing metadata (setClient metadata frameTypeList fingerprint)

def quicClientHello (fuel : Nat) (metadata : Metadata) (packet : Bytes) :
    Partial (SniffError × Metadata) Metadata := do
  let decrypted ← failing metadata (decrypt c packet)
  let (frameTypeList, found) ← failing metadata (readFrames decrypted)
  let fragments := found ++ metadata.fragments
  let metadata := { metadata with sniffContext := none }
  let buffer ← failing metadata (join fragments fuel)
  identify { metadata with protocol := protocolQUIC } frameTypeList fragments buffer

end AiboosterEngine.Sniff
