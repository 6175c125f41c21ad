import Tatami.Keys.Algorithm
import Tatami.Keys.Trust
import Tatami.Wire.Primitives

/-! # Host keys and signature verification

Public-key and signature blobs (RFC 4253 §6.6), the three key types with their parsing rules and
policy, and `HostKey.verify`, which binds a signature to the negotiated scheme before any
cryptographic work is done. RSA and ECDSA P-256 end in a question to a provider of the host. -/

namespace Tatami.Keys

open Tatami.Wire Reader Writer

/-! ### Errors and their texts -/

/-- A blob that is malformed at the encoding level. -/
inductive BlobError where
  | field (field : String) (offset : Nat) (error : DecodeError)
  | trailingBytes (count : Nat)
  deriving DecidableEq, Repr

/-- A blob that does not describe a usable key or signature. -/
inductive KeyError where
  | blob (error : BlobError)
  | unsupportedAlgorithm (name : Bytes)
  | wrongLength (field : String) (expected found : Nat)
  | invalidKey
  | nonCanonicalInteger (field : String)
  | rsaModulus (bits : Nat)
  | rsaExponent
  | curveMismatch
  | pointEncoding
  | scalarTooLong (field : String)
  | unexpectedKeyType (expected found : Bytes)
  deriving DecidableEq, Repr

/-- Why a signature was not accepted. -/
inductive VerifyError where
  | algorithmMismatch (keyAlgorithm signatureAlgorithm : Bytes)
  | unexpectedSignatureAlgorithm (expected found : Bytes)
  | malformedSignature (error : KeyError)
  | providerUnavailable (scheme : Bytes)
  | invalid
  deriving DecidableEq, Repr

/-- A lowercase hexadecimal digit. -/
def hexDigit (n : Nat) : Char := Char.ofNat (if n < 10 then 48 + n else 87 + n)

/-- The characters of one byte of peer-supplied text: printable ASCII stands for itself, everything
else is spelled in hexadecimal. -/
def escapeByte (b : UInt8) : List Char :=
  if 0x20 ≤ b && b < 0x7f && b != 0x60 && b != 0x5c then [Char.ofNat b.toNat]
  else ['\\', 'x', hexDigit (b.toNat / 16), hexDigit (b.toNat % 16)]

/-- Peer-supplied name bytes as text between backticks. -/
def escaped (name : Bytes) : String :=
  String.ofList (Char.ofNat 0x60 :: (name.flatMap escapeByte ++ [Char.ofNat 0x60]))

/-- The text of a `BlobError`. -/
def BlobError.display : BlobError → String
  | .field name offset error =>
    "field `" ++ name ++ "` at offset " ++ toString offset ++ ": " ++ error.display
  | .trailingBytes count => s!"{count} unexpected trailing byte(s) after blob"

/-- The text of a `KeyError`. -/
def KeyError.display : KeyError → String
  | .blob e => "malformed blob: " ++ e.display
  | .unsupportedAlgorithm name => "unsupported algorithm " ++ escaped name
  | .wrongLength field expected found => s!"{field} is {found} bytes, expected {expected}"
  | .invalidKey => "key bytes do not encode a valid public key"
  | .nonCanonicalInteger field => s!"{field} is not a minimal positive mpint"
  | .rsaModulus bits => s!"RSA modulus of {bits} bits is not accepted (odd, 2048 to 8192 bits)"
  | .rsaExponent => "RSA public exponent is not accepted (odd, at least 3, at most 4 bytes)"
  | .curveMismatch => "ECDSA curve identifier does not match the key algorithm"
  | .pointEncoding => "ECDSA point is not a 65-byte uncompressed SEC1 encoding"
  | .scalarTooLong field => s!"ECDSA signature {field} is wider than the curve order"
  | .unexpectedKeyType expected found =>
    "host key is " ++ escaped found ++ ", but the negotiated algorithm needs " ++ escaped expected

/-- The text of a `VerifyError`. -/
def VerifyError.display : VerifyError → String
  | .algorithmMismatch key signature =>
    "signature algorithm " ++ escaped signature ++ " does not match key algorithm " ++ escaped key
  | .unexpectedSignatureAlgorithm expected found =>
    "signature is labelled " ++ escaped found ++ ", but " ++ escaped expected ++ " was negotiated"
  | .malformedSignature e => "malformed signature: " ++ e.display
  | .providerUnavailable scheme =>
    "no signature provider for " ++ escaped scheme ++ " in this build"
  | .invalid => "signature does not verify"

/-! ### Blobs -/

/-- Decodes one named field of a blob. -/
def blobField {α : Type} (name : String) (read : Decoder DecodeError α) : Decoder BlobError α := do
  let r ← Cursor.here
  read.mapError fun error => BlobError.field name r.pos error

/-- Fails unless the blob is exhausted. -/
def blobFinish : Decoder BlobError Unit := do
  let r ← Cursor.here
  match r.finish with
  | .ok () => pure ()
  | .error t => Cursor.fail (.trailingBytes t.count)

/-- Reads a strictly encoded positive `mpint` and returns its magnitude. -/
def positiveMpint (name : String) : Decoder KeyError Bytes := do
  let m ← (blobField name readMpint).mapError KeyError.blob
  if m.isZero || m.isNegative || !m.isCanonical then Cursor.fail (.nonCanonicalInteger name)
  else pure (m.positiveMagnitude.getD [])

/-- A public-key blob: the algorithm name and the rest. -/
structure PublicKeyBlob where
  algorithm : Bytes
  body : Bytes
  /-- The complete blob as received. -/
  bytes : Bytes
  deriving DecidableEq, Repr

/-- Splits a blob into algorithm name and body. -/
def PublicKeyBlob.decode (blob : Bytes) : Except BlobError PublicKeyBlob :=
  match blobField "algorithm" readString (new blob) with
  | (.ok algorithm, r) => .ok { algorithm, body := r.remaining, bytes := blob }
  | (.error e, _) => .error e

/-- A decoded blob keeps its bytes. -/
theorem PublicKeyBlob.decode_ok_bytes {blob : Bytes} {b : PublicKeyBlob}
    (h : PublicKeyBlob.decode blob = .ok b) : b.bytes = blob := by
  rw [PublicKeyBlob.decode] at h
  split at h
  · cases h
    rfl
  · cases h

/-- A signature blob. -/
structure SignatureBlob where
  algorithm : Bytes
  signature : Bytes
  deriving DecidableEq, Repr

/-- Decodes a complete signature blob. -/
def SignatureBlob.decode (blob : Bytes) : Except BlobError SignatureBlob :=
  let decoder : Decoder BlobError SignatureBlob := do
    let algorithm ← blobField "algorithm" readString
    let signature ← blobField "signature" readString
    blobFinish
    pure { algorithm, signature }
  (decoder (new blob)).1

/-- The identity of a parsed blob, with its fingerprint. -/
def HostIdentity.fromBlob (C : Crypto) (blob : PublicKeyBlob) : HostIdentity where
  algorithm := blob.algorithm
  blob := blob.bytes
  sha256 := C.sha256 blob.bytes

/-! ### Signature providers -/

/-- Hash under RSASSA-PKCS1-v1_5. -/
inductive RsaHash where
  | sha256
  | sha512
  deriving DecidableEq, Repr

/-- A signature check in provider-neutral form. -/
inductive ProviderRequest where
  | rsaPkcs1v15 (hash : RsaHash) (modulus exponent signature : Bytes)
  | ecdsaP256Sha256 (publicPoint : ByteVec 65) (signature : ByteVec 64)
  deriving DecidableEq, Repr

/-- Verification supplied by the host; it is pure. -/
structure SignatureProvider where
  supports : SignatureScheme → Bool
  verify : Bytes → ProviderRequest → Bool

/-! ### Ed25519 -/

/-- A validated Ed25519 public key. -/
structure Ed25519PublicKey where
  key : ByteVec 32
  deriving DecidableEq, Repr

/-- Parses an `ssh-ed25519` blob. -/
def Ed25519PublicKey.fromBlob (C : Crypto) (blob : PublicKeyBlob) :
    Except KeyError Ed25519PublicKey :=
  if blob.algorithm ≠ utf8 "ssh-ed25519" then .error (.unsupportedAlgorithm blob.algorithm)
  else
    let decoder : Decoder BlobError Bytes := do
      let _ ← blobField "algorithm" readString
      let key ← blobField "key" readString
      blobFinish
      pure key
    match (decoder (new blob.bytes)).1 with
    | .error e => .error (.blob e)
    | .ok key =>
      match ByteVec.ofBytes? 32 key with
      | none => .error (.wrongLength "key" 32 key.length)
      | some key => if C.ed25519Valid key then .ok ⟨key⟩ else .error .invalidKey

/-- Length of an `ssh-ed25519` blob. -/
def ed25519BlobLen : Nat := 4 + 11 + 4 + 32

/-- Writes an `ssh-ed25519` blob into `out`. -/
def encodeEd25519Blob (key : ByteVec 32) : Bytes → Except EncodeError Nat × Bytes := run do
  writeString (utf8 "ssh-ed25519")
  writeString key.toBytes

/-- The canonical `ssh-ed25519` blob of a key: what is in the buffer afterwards. -/
def sshBlobOf (key : Ed25519PublicKey) : Bytes :=
  (encodeEd25519Blob key.key (List.replicate ed25519BlobLen 0)).2

/-- The signature bytes of an `ssh-ed25519` signature blob. -/
def ed25519Signature (blob : SignatureBlob) : Except KeyError (ByteVec 64) :=
  if blob.algorithm ≠ utf8 "ssh-ed25519" then .error (.unsupportedAlgorithm blob.algorithm)
  else
    match ByteVec.ofBytes? 64 blob.signature with
    | none => .error (.wrongLength "signature" 64 blob.signature.length)
    | some sig => .ok sig

/-! ### RSA -/

/-- Smallest accepted modulus, in bits. -/
def minModulusBits : Nat := 2048
/-- Largest accepted modulus, in bits. -/
def maxModulusBits : Nat := 8192
/-- Longest accepted exponent, in bytes. -/
def maxExponentBytes : Nat := 4

/-- A validated RSA public key: big-endian magnitudes without leading zeros. -/
structure RsaPublicKey where
  e : Bytes
  n : Bytes
  deriving DecidableEq, Repr

/-- Number of bits of a byte's value. -/
def byteBits (b : UInt8) : Nat := if b = 0 then 0 else Nat.log2 b.toNat + 1

/-- Bit length of a magnitude without a leading zero. -/
def bitLen : Bytes → Nat
  | [] => 0
  | top :: rest => rest.length * 8 + byteBits top

/-- Whether the last byte is even. -/
def lastEven (b : Bytes) : Bool := b.getLast?.any fun x => x &&& 1 == 0

/-- Applies the key policy to big-endian magnitudes. -/
def RsaPublicKey.fromComponents (exponent modulus : Bytes) : Except KeyError RsaPublicKey :=
  if exponent.head? = some 0 then .error (.nonCanonicalInteger "e")
  else if modulus.head? = some 0 then .error (.nonCanonicalInteger "n")
  else if exponent.isEmpty || maxExponentBytes < exponent.length || lastEven exponent ||
      (exponent.length == 1 && exponent.getD 0 0 < 3) then
    .error .rsaExponent
  else
    let bits := bitLen modulus
    if bits < minModulusBits || maxModulusBits < bits || lastEven modulus then
      .error (.rsaModulus bits)
    else .ok ⟨exponent, modulus⟩

/-- Parses an `ssh-rsa` blob and applies the key policy. -/
def RsaPublicKey.fromBlob (blob : PublicKeyBlob) : Except KeyError RsaPublicKey :=
  if blob.algorithm ≠ utf8 "ssh-rsa" then .error (.unsupportedAlgorithm blob.algorithm)
  else
    let decoder : Decoder KeyError (Bytes × Bytes) := do
      let _ ← (blobField "algorithm" readString).mapError KeyError.blob
      let e ← positiveMpint "e"
      let n ← positiveMpint "n"
      blobFinish.mapError KeyError.blob
      pure (e, n)
    match (decoder (new blob.bytes)).1 with
    | .error e => .error e
    | .ok (e, n) => RsaPublicKey.fromComponents e n

/-- The canonical `ssh-rsa` blob: what is in the buffer after the three writes. -/
def RsaPublicKey.toBlob (key : RsaPublicKey) : Bytes :=
  let len := 4 + (utf8 "ssh-rsa").length + mpintPositiveLen key.e + mpintPositiveLen key.n
  let fields : Encoder Unit := do
    writeString (utf8 "ssh-rsa")
    writeMpintPositive key.e
    writeMpintPositive key.n
  (run fields (List.replicate len 0)).2

/-- Checks the inner signature bytes through the provider; omitted leading zeros are restored. -/
def RsaPublicKey.verify (key : RsaPublicKey) (hash : RsaHash) (message signature : Bytes)
    (provider : SignatureProvider) : Except VerifyError Unit :=
  let k := key.n.length
  if signature.isEmpty || k < signature.length then
    .error (.malformedSignature (.wrongLength "signature" k signature.length))
  else
    let padded := List.replicate (k - signature.length) 0 ++ signature
    if provider.verify message (.rsaPkcs1v15 hash key.n key.e padded) then .ok ()
    else .error .invalid

/-! ### ECDSA P-256 -/

/-- A structurally valid P-256 public key. -/
structure EcdsaP256PublicKey where
  point : ByteVec 65
  deriving DecidableEq, Repr

/-- Accepts exactly an uncompressed 65-byte point. -/
def EcdsaP256PublicKey.fromPoint (point : Bytes) : Except KeyError EcdsaP256PublicKey :=
  match ByteVec.ofBytes? 65 point with
  | none => .error .pointEncoding
  | some p => if point.head? = some 0x04 then .ok ⟨p⟩ else .error .pointEncoding

/-- Parses an `ecdsa-sha2-nistp256` blob. -/
def EcdsaP256PublicKey.fromBlob (blob : PublicKeyBlob) : Except KeyError EcdsaP256PublicKey :=
  if blob.algorithm ≠ utf8 "ecdsa-sha2-nistp256" then
    .error (.unsupportedAlgorithm blob.algorithm)
  else
    let decoder : Decoder BlobError (Bytes × Bytes) := do
      let _ ← blobField "algorithm" readString
      let curve ← blobField "curve" readString
      let q ← blobField "Q" readString
      blobFinish
      pure (curve, q)
    match (decoder (new blob.bytes)).1 with
    | .error e => .error (.blob e)
    | .ok (curve, q) =>
      if curve ≠ utf8 "nistp256" then .error .curveMismatch else EcdsaP256PublicKey.fromPoint q

/-- Length of an `ecdsa-sha2-nistp256` blob. -/
def p256BlobLen : Nat := 4 + 19 + 4 + 8 + 4 + 65

/-- The canonical `ecdsa-sha2-nistp256` blob: what is in the buffer after the three writes. -/
def EcdsaP256PublicKey.toBlob (key : EcdsaP256PublicKey) : Bytes :=
  let fields : Encoder Unit := do
    writeString (utf8 "ecdsa-sha2-nistp256")
    writeString (utf8 "nistp256")
    writeString key.point.toBytes
  (run fields (List.replicate p256BlobLen 0)).2

/-- A scalar left-padded to 32 bytes. -/
def fixedScalar (field : String) (value : Bytes) : Except KeyError (ByteVec 32) :=
  if h : 32 < value.length then .error (.scalarTooLong field)
  else .ok ⟨List.replicate (32 - value.length) 0 ++ value, by simp; omega⟩

/-- `mpint r || mpint s` as fixed-width `r || s`. -/
def fixedSignature (inner : Bytes) : Except KeyError (ByteVec 64) :=
  let decoder : Decoder KeyError (Bytes × Bytes) := do
    let r ← positiveMpint "r"
    let s ← positiveMpint "s"
    blobFinish.mapError KeyError.blob
    pure (r, s)
  match (decoder (new inner)).1 with
  | .error e => .error e
  | .ok (r, s) =>
    match fixedScalar "r" r with
    | .error e => .error e
    | .ok r =>
      match fixedScalar "s" s with
      | .error e => .error e
      | .ok s => .ok ⟨r.toBytes ++ s.toBytes, by simp⟩

/-- Checks the inner signature bytes through the provider. -/
def EcdsaP256PublicKey.verify (key : EcdsaP256PublicKey) (message signature : Bytes)
    (provider : SignatureProvider) : Except VerifyError Unit :=
  match fixedSignature signature with
  | .error e => .error (.malformedSignature e)
  | .ok rs =>
    if provider.verify message (.ecdsaP256Sha256 key.point rs) then .ok () else .error .invalid

/-! ### Host keys of any type -/

/-- A validated host public key. -/
inductive HostKey where
  | ed25519 (key : Ed25519PublicKey)
  | rsa (key : RsaPublicKey)
  | ecdsaP256 (key : EcdsaP256PublicKey)
  deriving DecidableEq, Repr

namespace HostKey

/-- Interprets a parsed blob; key types without their feature are unsupported. -/
def fromBlob (C : Crypto) (blob : PublicKeyBlob) : Except KeyError HostKey :=
  match KeyType.fromName blob.algorithm with
  | some .ed25519 => (Ed25519PublicKey.fromBlob C blob).map .ed25519
  | some .rsa =>
    if C.featureRsa then (RsaPublicKey.fromBlob blob).map .rsa
    else .error (.unsupportedAlgorithm blob.algorithm)
  | some .ecdsaP256 =>
    if C.featureEcdsaP256 then (EcdsaP256PublicKey.fromBlob blob).map .ecdsaP256
    else .error (.unsupportedAlgorithm blob.algorithm)
  | none => .error (.unsupportedAlgorithm blob.algorithm)

/-- Decodes and interprets raw blob bytes (`K_S`). -/
def parse (C : Crypto) (blob : Bytes) : Except KeyError HostKey :=
  match PublicKeyBlob.decode blob with
  | .error e => .error (.blob e)
  | .ok b => fromBlob C b

/-- The key type. -/
def keyType : HostKey → KeyType
  | .ed25519 _ => .ed25519
  | .rsa _ => .rsa
  | .ecdsaP256 _ => .ecdsaP256

/-- The blob algorithm name of a key. -/
def algorithm (key : HostKey) : Bytes := key.keyType.name

/-- The canonical public-key blob. -/
def toBlob : HostKey → Bytes
  | .ed25519 key => sshBlobOf key
  | .rsa key => key.toBlob
  | .ecdsaP256 key => key.toBlob

/-- The provider, if there is one that supports the scheme. -/
def providerFor (scheme : SignatureScheme) (provider : Option SignatureProvider) :
    Except VerifyError SignatureProvider :=
  match provider.filter fun p => p.supports scheme with
  | some p => .ok p
  | none => .error (.providerUnavailable scheme.name)

/-- Verifies a signature over `message` under the negotiated scheme. -/
def verify (C : Crypto) (key : HostKey) (scheme : SignatureScheme) (message : Bytes)
    (sig : SignatureBlob) (provider : Option SignatureProvider) : Except VerifyError Unit :=
  if sig.algorithm ≠ scheme.name then
    .error (.unexpectedSignatureAlgorithm scheme.name sig.algorithm)
  else if scheme.keyType ≠ key.keyType then
    .error (.algorithmMismatch key.keyType.name sig.algorithm)
  else
    match key with
    | .ed25519 key =>
      match ed25519Signature sig with
      | .error e => .error (.malformedSignature e)
      | .ok s => if C.ed25519Verify key.key message s then .ok () else .error .invalid
    | .rsa key =>
      let hash := if scheme = .rsaSha2_512 then RsaHash.sha512 else .sha256
      match providerFor scheme provider with
      | .error e => .error e
      | .ok p => key.verify hash message sig.signature p
    | .ecdsaP256 key =>
      match providerFor scheme provider with
      | .error e => .error e
      | .ok p => key.verify message sig.signature p

end HostKey

end Tatami.Keys
