import Tatami.Keys.BlobCodec

/-! # Subject public keys

The strict conversion between a `SubjectPublicKeyInfo` (what an RFC 7250 raw-public-key handshake
carries) and the SSH public-key blob. The DER is read field by field, with an error of its own for
every deviation; `Der.read_ok_iff` says that one tag, length and value is read exactly from its
minimal encoding, and the whole parser is inverted on top of it.

Both formats are canonical for the same keys (`hostKeyFromSpki_canonical`,
`HostKey.parse_canonical`), which makes the conversions inverse to each other. -/

namespace Tatami.Keys

open Tatami.Wire

/-! ### Errors -/

/-- Why bytes are not a supported SPKI. -/
inductive SpkiError where
  | truncated (field : String)
  | unexpectedTag (field : String) (expected found : UInt8)
  | nonCanonicalLength (field : String)
  | trailingBytes (field : String) (count : Nat)
  | unsupportedAlgorithm (known : Option String)
  | parametersPresent
  | parametersInvalid
  | unsupportedCurve (known : Option String)
  | nonZeroUnusedBits (count : UInt8)
  | wrongKeyLength (found : Nat)
  | invalidKey
  | nonCanonicalInteger (field : String)
  | rsaModulus (bits : Nat)
  | rsaExponent
  | pointEncoding
  deriving DecidableEq, Repr

/-- A byte as two hexadecimal digits. -/
def hexByte (b : UInt8) : String :=
  String.ofList [hexDigit (b.toNat / 16), hexDigit (b.toNat % 16)]

/-- The text of a `SpkiError`. -/
def SpkiError.display : SpkiError → String
  | .truncated field => s!"SPKI truncated in {field}"
  | .unexpectedTag field expected found =>
    "SPKI " ++ field ++ ": tag 0x" ++ hexByte found ++ ", expected 0x" ++ hexByte expected
  | .nonCanonicalLength field => s!"SPKI {field}: length is not minimal DER"
  | .trailingBytes field count => s!"SPKI {field}: {count} unexpected trailing byte(s)"
  | .unsupportedAlgorithm (some name) => s!"SPKI algorithm {name} is not supported by this build"
  | .unsupportedAlgorithm none => "SPKI algorithm is not supported (unrecognised OID)"
  | .parametersPresent => "SPKI Ed25519 algorithm parameters must be absent (RFC 8410 §3)"
  | .parametersInvalid => "SPKI algorithm parameters must be NULL for RSA or a named curve for EC"
  | .unsupportedCurve (some name) => s!"SPKI curve {name} is not supported (only prime256v1)"
  | .unsupportedCurve none => "SPKI curve is not supported (only prime256v1)"
  | .nonZeroUnusedBits n => s!"SPKI key BIT STRING declares {n} unused bit(s)"
  | .wrongKeyLength n => s!"SPKI key is {n} bytes, Ed25519 is 32"
  | .invalidKey => "SPKI key is not a valid Ed25519 public key"
  | .nonCanonicalInteger field => s!"SPKI {field} is not a minimal positive DER INTEGER"
  | .rsaModulus bits => s!"SPKI RSA modulus of {bits} bits is not accepted (odd, 2048 to 8192 bits)"
  | .rsaExponent => "SPKI RSA exponent is not accepted (odd, at least 3, at most 4 bytes)"
  | .pointEncoding => "SPKI EC point is not a 65-byte uncompressed encoding"

/-! ### Constants -/

/-- DER prefix of every Ed25519 SPKI. -/
def ed25519SpkiPrefix : Bytes :=
  [0x30, 0x2a, 0x30, 0x05, 0x06, 0x03, 0x2b, 0x65, 0x70, 0x03, 0x21, 0x00]

/-- DER prefix of every P-256 SPKI. -/
def p256SpkiPrefix : Bytes :=
  [0x30, 0x59, 0x30, 0x13, 0x06, 0x07, 0x2a, 0x86, 0x48, 0xce, 0x3d, 0x02, 0x01, 0x06, 0x08, 0x2a,
    0x86, 0x48, 0xce, 0x3d, 0x03, 0x01, 0x07, 0x03, 0x42, 0x00]

/-- id-Ed25519. -/
def oidEd25519 : Bytes := [0x2b, 0x65, 0x70]
/-- rsaEncryption. -/
def oidRsaEncryption : Bytes := [0x2a, 0x86, 0x48, 0x86, 0xf7, 0x0d, 0x01, 0x01, 0x01]
/-- id-ecPublicKey. -/
def oidEcPublicKey : Bytes := [0x2a, 0x86, 0x48, 0xce, 0x3d, 0x02, 0x01]
/-- prime256v1. -/
def oidPrime256v1 : Bytes := [0x2a, 0x86, 0x48, 0xce, 0x3d, 0x03, 0x01, 0x07]

/-- Algorithm identifiers worth naming in an error. -/
def knownOids : List (Bytes × String) :=
  [(oidEd25519, "Ed25519"), ([0x2b, 0x65, 0x71], "Ed448"), ([0x2b, 0x65, 0x6e], "X25519"),
    ([0x2b, 0x65, 0x6f], "X448"), (oidRsaEncryption, "rsaEncryption"),
    ([0x2a, 0x86, 0x48, 0x86, 0xf7, 0x0d, 0x01, 0x01, 0x0a], "id-RSASSA-PSS"),
    (oidEcPublicKey, "id-ecPublicKey"), ([0x2a, 0x86, 0x48, 0xce, 0x38, 0x04, 0x01], "id-dsa")]

/-- Named curves worth naming in an error. -/
def knownCurves : List (Bytes × String) :=
  [([0x2b, 0x81, 0x04, 0x00, 0x22], "secp384r1"), ([0x2b, 0x81, 0x04, 0x00, 0x23], "secp521r1"),
    ([0x2b, 0x81, 0x04, 0x00, 0x0a], "secp256k1")]

/-- The name of an identifier in a table. -/
def known (table : List (Bytes × String)) (oid : Bytes) : Option String :=
  (table.find? fun entry => entry.1 == oid).map (·.2)

/-- DER tags. -/
def tagInteger : UInt8 := 0x02
@[inherit_doc tagInteger] def tagBitString : UInt8 := 0x03
@[inherit_doc tagInteger] def tagNull : UInt8 := 0x05
@[inherit_doc tagInteger] def tagOid : UInt8 := 0x06
@[inherit_doc tagInteger] def tagSequence : UInt8 := 0x30

/-! ### The reader -/

namespace Der

/-- The length announced by a first length byte, and what follows it. The indefinite form and forms
of more than two bytes are refused. -/
def readLength (field : String) (first : UInt8) (rest : Bytes) : Except SpkiError (Nat × Bytes) :=
  if first ≤ 0x7f then .ok (first.toNat, rest)
  else if first = 0x81 then
    match rest with
    | [] => .error (.truncated field)
    | b :: rest => if b < 0x80 then .error (.nonCanonicalLength field) else .ok (b.toNat, rest)
  else if first = 0x82 then
    match rest with
    | b₀ :: b₁ :: rest =>
      let n := b₀.toNat * 256 + b₁.toNat
      if n < 0x100 then .error (.nonCanonicalLength field) else .ok (n, rest)
    | _ => .error (.truncated field)
  else .error (.nonCanonicalLength field)

/-- Reads one element with the given tag: its content, and what is left. -/
def read (tag : UInt8) (field : String) : Bytes → Except SpkiError (Bytes × Bytes)
  | [] => .error (.truncated field)
  | found :: afterTag =>
    if found ≠ tag then .error (.unexpectedTag field tag found)
    else
      match afterTag with
      | [] => .error (.truncated field)
      | first :: afterFirst =>
        match readLength field first afterFirst with
        | .error e => .error e
        | .ok (len, afterLen) =>
          if afterLen.length < len then .error (.truncated field)
          else .ok (afterLen.take len, afterLen.drop len)

/-- Reads a minimal positive INTEGER: its magnitude, and what is left. -/
def positiveInteger (field : String) (rest : Bytes) : Except SpkiError (Bytes × Bytes) :=
  match read tagInteger field rest with
  | .error e => .error e
  | .ok (v, rest) =>
    match v with
    | [] => .error (.nonCanonicalInteger field)
    | b :: tail =>
      if highBit b then .error (.nonCanonicalInteger field)
      else if b = 0 then
        match tail with
        | [] => .error (.nonCanonicalInteger field)
        | next :: _ =>
          if highBit next then .ok (tail, rest) else .error (.nonCanonicalInteger field)
      else .ok (v, rest)

/-- Fails unless everything was read. -/
def finish (field : String) (rest : Bytes) : Except SpkiError Unit :=
  if rest.isEmpty then .ok () else .error (.trailingBytes field rest.length)

end Der

/-- The bytes of a minimal length below 65536. -/
def lengthBytes (len : Nat) : Bytes :=
  if len < 0x80 then [UInt8.ofNat len]
  else if len < 0x100 then [0x81, UInt8.ofNat len]
  else [0x82, UInt8.ofNat (len / 256), UInt8.ofNat len]

/-- One element: tag, minimal length and content. -/
def tlv (tag : UInt8) (content : Bytes) : Bytes := tag :: (lengthBytes content.length ++ content)

/-- A minimal positive INTEGER. -/
def positiveInteger (magnitude : Bytes) : Bytes :=
  tlv tagInteger (if magnitude.head?.any highBit then 0 :: magnitude else magnitude)

/-! ### The conversions -/

/-- The parts of an SPKI: algorithm, parameters, unused bits and key. -/
structure SpkiParts where
  oid : Bytes
  params : Bytes
  unused : UInt8
  key : Bytes

/-- Reads the parts that all key types have in common: the first half of `host_key_from_spki`. -/
def SpkiParts.read (spki : Bytes) : Except SpkiError SpkiParts := do
  let (body, rest) ← Der.read tagSequence "SubjectPublicKeyInfo" spki
  Der.finish "SubjectPublicKeyInfo" rest
  let (alg, fields) ← Der.read tagSequence "AlgorithmIdentifier" body
  let (oid, params) ← Der.read tagOid "algorithm OID" alg
  let (bits, fields) ← Der.read tagBitString "subjectPublicKey" fields
  Der.finish "SubjectPublicKeyInfo body" fields
  match bits with
  | [] => .error (.truncated "subjectPublicKey")
  | unused :: key => .ok { oid, params, unused, key }

/-- The Ed25519 branch. -/
def SpkiParts.ed25519 (C : Crypto) (p : SpkiParts) : Except SpkiError HostKey :=
  if ¬p.params.isEmpty then .error .parametersPresent
  else if p.unused ≠ 0 then .error (.nonZeroUnusedBits p.unused)
  else
    match ByteVec.ofBytes? 32 p.key with
    | none => .error (.wrongKeyLength p.key.length)
    | some key => if C.ed25519Valid key then .ok (.ed25519 ⟨key⟩) else .error .invalidKey

/-- The RSA branch. -/
def SpkiParts.rsa (p : SpkiParts) : Except SpkiError HostKey :=
  match Der.read tagNull "RSA parameters" p.params with
  | .error _ => .error .parametersInvalid
  | .ok (null, rest) =>
    if ¬null.isEmpty ∨ ¬rest.isEmpty then .error .parametersInvalid
    else if p.unused ≠ 0 then .error (.nonZeroUnusedBits p.unused)
    else do
      let (seq, rest) ← Der.read tagSequence "RSAPublicKey" p.key
      Der.finish "RSAPublicKey" rest
      let (n, ints) ← Der.positiveInteger "modulus" seq
      let (e, ints) ← Der.positiveInteger "publicExponent" ints
      Der.finish "RSAPublicKey body" ints
      match RsaPublicKey.fromComponents e n with
      | .ok key => .ok (.rsa key)
      | .error (.rsaModulus bits) => .error (.rsaModulus bits)
      | .error _ => .error .rsaExponent

/-- The P-256 branch. -/
def SpkiParts.ecdsaP256 (p : SpkiParts) : Except SpkiError HostKey :=
  match Der.read tagOid "EC parameters" p.params with
  | .error _ => .error .parametersInvalid
  | .ok (curve, rest) =>
    if ¬rest.isEmpty then .error .parametersInvalid
    else if curve ≠ oidPrime256v1 then .error (.unsupportedCurve (known knownCurves curve))
    else if p.unused ≠ 0 then .error (.nonZeroUnusedBits p.unused)
    else
      match EcdsaP256PublicKey.fromPoint p.key with
      | .ok key => .ok (.ecdsaP256 key)
      | .error _ => .error .pointEncoding

/-- Interprets the parts by their algorithm; key types without their feature are unsupported. -/
def SpkiParts.hostKey (C : Crypto) (p : SpkiParts) : Except SpkiError HostKey :=
  if p.oid = oidEd25519 then p.ed25519 C
  else if p.oid = oidRsaEncryption ∧ C.featureRsa = true then p.rsa
  else if p.oid = oidEcPublicKey ∧ C.featureEcdsaP256 = true then p.ecdsaP256
  else .error (.unsupportedAlgorithm (known knownOids p.oid))

/-- Parses any supported SPKI. -/
def hostKeyFromSpki (C : Crypto) (spki : Bytes) : Except SpkiError HostKey := do
  let p ← SpkiParts.read spki
  p.hostKey C

/-- The canonical SPKI of a key. -/
def hostKeySpki : HostKey → Bytes
  | .ed25519 key => ed25519SpkiPrefix ++ key.key.toBytes
  | .rsa key =>
    let alg := tlv tagOid oidRsaEncryption ++ tlv tagNull []
    let rsaKey := tlv tagSequence (positiveInteger key.n ++ positiveInteger key.e)
    tlv tagSequence (tlv tagSequence alg ++ tlv tagBitString (0 :: rsaKey))
  | .ecdsaP256 key => p256SpkiPrefix ++ key.point.toBytes

/-- Converts an SPKI into its SSH blob. -/
def spkiToSshBlob (C : Crypto) (spki : Bytes) : Except SpkiError Bytes :=
  (hostKeyFromSpki C spki).map HostKey.toBlob

/-- Converts an SSH blob into its SPKI. -/
def sshBlobToSpki (C : Crypto) (blob : Bytes) : Except KeyError Bytes :=
  (HostKey.parse C blob).map hostKeySpki

variable {rest : Bytes} {field : String}

/-! ### One element -/

namespace Der

/-- A length is read exactly from its minimal form. -/
theorem readLength_ok_iff {first : UInt8} {rest' : Bytes} {len : Nat} :
    readLength field first rest = .ok (len, rest') ↔
      len < 65536 ∧ first :: rest = lengthBytes len ++ rest' := by
  rw [readLength.eq_def, lengthBytes]
  constructor
  · intro h
    split at h
    · rename_i hshort
      cases h
      have hlt : first.toNat ≤ 127 := UInt8.le_iff_toNat_le.mp hshort
      rw [if_pos (by omega), UInt8.ofNat_toNat]
      exact ⟨by omega, rfl⟩
    split at h
    · rename_i hfirst
      split at h
      · cases h
      rename_i b rest
      split at h
      · cases h
      rename_i hmin
      cases h
      have hmin : 128 ≤ b.toNat := UInt8.le_iff_toNat_le.mp (UInt8.not_lt.mp hmin)
      have hlt := b.toNat_lt
      rw [if_neg (by omega), if_pos (by omega), UInt8.ofNat_toNat, hfirst]
      exact ⟨by omega, rfl⟩
    split at h
    · rename_i hfirst
      split at h
      · rename_i b₀ b₁ rest
        dsimp only at h
        split at h
        · cases h
        rename_i hmin
        cases h
        have h₀ := b₀.toNat_lt
        have h₁ := b₁.toNat_lt
        have hhigh : UInt8.ofNat ((b₀.toNat * 256 + b₁.toNat) / 256) = b₀ := by
          rw [← UInt8.toNat_inj, UInt8.toNat_ofNat']
          omega
        have hlow : UInt8.ofNat (b₀.toNat * 256 + b₁.toNat) = b₁ := by
          rw [← UInt8.toNat_inj, UInt8.toNat_ofNat']
          omega
        rw [if_neg (by omega), if_neg hmin, hhigh, hlow, hfirst]
        exact ⟨by omega, rfl⟩
      · cases h
    · cases h
  · rintro ⟨hlt, heq⟩
    split at heq
    · rename_i hshort
      obtain ⟨rfl, rfl⟩ := List.cons.inj heq
      have hvalue : (UInt8.ofNat len).toNat = len := by rw [UInt8.toNat_ofNat']; omega
      rw [if_pos (UInt8.le_iff_toNat_le.mpr (by rw [hvalue]; exact Nat.le_of_lt_succ hshort)),
        hvalue]
    split at heq
    · simp only [List.cons_append, List.nil_append] at heq
      obtain ⟨rfl, rfl⟩ := List.cons.inj heq
      have hvalue : (UInt8.ofNat len).toNat = len := by rw [UInt8.toNat_ofNat']; omega
      have hmin : ¬UInt8.ofNat len < 0x80 := by
        rw [UInt8.not_lt, UInt8.le_iff_toNat_le, hvalue]
        simpa using ‹¬len < 0x80›
      rw [if_neg (by decide), if_pos rfl]
      simp only [hmin, if_false, hvalue]
    · simp only [List.cons_append, List.nil_append] at heq
      obtain ⟨rfl, rfl⟩ := List.cons.inj heq
      have hvalue : (UInt8.ofNat (len / 256)).toNat * 256 + (UInt8.ofNat len).toNat = len := by
        rw [UInt8.toNat_ofNat', UInt8.toNat_ofNat']
        omega
      rw [if_neg (by decide), if_neg (by decide), if_pos rfl]
      simp only [hvalue]
      rw [if_neg ‹¬len < 0x100›]

/-- **One element.** `read` accepts exactly a tag, the minimal length and the content. -/
theorem read_ok_iff {tag : UInt8} {bytes content : Bytes} :
    read tag field bytes = .ok (content, rest) ↔
      content.length < 65536 ∧ bytes = tlv tag content ++ rest := by
  rw [tlv]
  constructor
  · intro h
    unfold read at h
    split at h
    · cases h
    split at h
    · cases h
    rename_i htag
    split at h
    · cases h
    split at h
    · cases h
    rename_i len afterLen hlen
    split at h
    · cases h
    rename_i hroom
    cases h
    obtain ⟨hlt, heq⟩ := readLength_ok_iff.mp hlen
    have htake : (afterLen.take len).length = len := by
      rw [List.length_take]
      omega
    rw [htake, not_not.mp htag, heq]
    exact ⟨hlt, by simp⟩
  · rintro ⟨hlt, rfl⟩
    obtain ⟨first, tail, hsplit⟩ : ∃ first tail, lengthBytes content.length = first :: tail := by
      unfold lengthBytes
      split
      · exact ⟨_, _, rfl⟩
      split <;> exact ⟨_, _, rfl⟩
    have hlen : readLength field first (tail ++ (content ++ rest)) =
        .ok (content.length, content ++ rest) :=
      readLength_ok_iff.mpr ⟨hlt, by rw [hsplit, List.cons_append]⟩
    rw [hsplit]
    simp only [List.cons_append, List.append_assoc, read, ne_eq, not_true_eq_false, if_false, hlen]
    rw [if_neg (by simp), List.take_left, List.drop_left]

/-- `finish` succeeds exactly when nothing is left. -/
theorem finish_ok_iff {u : Unit} : finish field rest = .ok u ↔ rest = [] := by
  cases rest with
  | nil => simp [finish]
  | cons => simp [finish]

/-- An integer is read exactly from the minimal encoding of a magnitude. -/
theorem positiveInteger_ok_iff {bytes m : Bytes} :
    positiveInteger field bytes = .ok (m, rest) ↔ Magnitude m ∧
      (mpintPositiveBody m).length < 65536 ∧
      bytes = tlv tagInteger (mpintPositiveBody m) ++ rest := by
  rw [positiveInteger.eq_def]
  constructor
  · intro h
    split at h
    · cases h
    rename_i v rest' hread
    obtain ⟨hlt, rfl⟩ := read_ok_iff.mp hread
    split at h
    · cases h
    rename_i b tail
    split at h
    · cases h
    rename_i hsign
    split at h
    · rename_i hb
      split at h
      · cases h
      rename_i next rest''
      split at h
      · rename_i hnext
        cases h
        have hm : Magnitude (next :: rest'') :=
          ⟨nofun, fun heq => ne_zero_of_highBit hnext (Option.some.inj heq)⟩
        rw [hm.body_eq, if_pos hnext, ← hb]
        exact ⟨hm, hlt, rfl⟩
      · cases h
    · rename_i hb
      cases h
      have hm : Magnitude (b :: tail) := ⟨nofun, fun heq => hb (Option.some.inj heq)⟩
      rw [hm.body_eq, if_neg hsign]
      exact ⟨hm, hlt, rfl⟩
  · rintro ⟨hm, hlt, heq⟩
    rw [read_ok_iff.mpr ⟨hlt, heq⟩]
    match m, hm with
    | [], hm => exact absurd rfl hm.1
    | b :: tail, hm =>
      have hb : b ≠ 0 := fun hzero => hm.2 (by rw [hzero]; rfl)
      rw [hm.body_eq]
      by_cases hsign : highBit b = true
      · have hfront : highBit 0 = false := rfl
        simp [hsign, hfront]
      · simp [hsign, hb]

end Der

/-- The integers of an RSA key are written with the body of their `mpint`. -/
theorem Magnitude.positiveInteger_eq {m : Bytes} (h : Magnitude m) :
    positiveInteger m = tlv tagInteger (mpintPositiveBody m) := by
  match m, h with
  | [], h => exact absurd rfl h.1
  | b :: tail, h => rw [positiveInteger, h.body_eq, List.head?_cons, Option.any_some]

/-! ### The whole structure -/

/-- The body of an SPKI with these parts. -/
def SpkiParts.body (p : SpkiParts) : Bytes :=
  tlv tagSequence (tlv tagOid p.oid ++ p.params) ++ tlv tagBitString (p.unused :: p.key)

/-- An element is longer than its content. -/
theorem length_lt_length_tlv (tag : UInt8) (content : Bytes) :
    content.length < (tlv tag content).length := by
  simp only [tlv, List.length_cons, List.length_append]
  omega

/-- The parts are read exactly from the nesting of elements they make up. -/
theorem SpkiParts.read_ok_iff {spki : Bytes} {p : SpkiParts} :
    SpkiParts.read spki = .ok p ↔ p.body.length < 65536 ∧ spki = tlv tagSequence p.body := by
  rw [SpkiParts.read]
  simp only [Except.bind_ok_iff, Prod.exists, Der.read_ok_iff, Der.finish_ok_iff]
  constructor
  · rintro ⟨_, rest, ⟨hbody, rfl⟩, -, rfl, _, _, ⟨-, rfl⟩, _, _, ⟨-, rfl⟩,
      _, rest, ⟨-, rfl⟩, -, rfl, h⟩
    split at h
    · cases h
    cases h
    simp only [List.append_nil] at hbody ⊢
    exact ⟨hbody, rfl⟩
  · rintro ⟨hlt, rfl⟩
    -- every inner element is shorter than the body, which the outer length has bounded
    have halg := length_lt_length_tlv tagSequence (tlv tagOid p.oid ++ p.params)
    have hbits := length_lt_length_tlv tagBitString (p.unused :: p.key)
    have hoid := length_lt_length_tlv tagOid p.oid
    have hbody : p.body.length = (tlv tagSequence (tlv tagOid p.oid ++ p.params)).length +
        (tlv tagBitString (p.unused :: p.key)).length := List.length_append
    rw [List.length_append] at halg
    refine ⟨p.body, [], ⟨hlt, (List.append_nil _).symm⟩, (), rfl, _, _,
      ⟨by rw [List.length_append]; omega, rfl⟩, p.oid, p.params, ⟨by omega, rfl⟩,
      p.unused :: p.key, [], ⟨by omega, (List.append_nil _).symm⟩, (), rfl, rfl⟩

/-! ### The branches -/

namespace HostKey

/-- The parts of a key's SPKI. -/
def spkiParts : HostKey → SpkiParts
  | .ed25519 key => ⟨oidEd25519, [], 0, key.key.toBytes⟩
  | .rsa key => ⟨oidRsaEncryption, tlv tagNull [], 0,
      tlv tagSequence (positiveInteger key.n ++ positiveInteger key.e)⟩
  | .ecdsaP256 key => ⟨oidEcPublicKey, tlv tagOid oidPrime256v1, 0, key.point.toBytes⟩

/-- The two fixed prefixes are what the nesting of elements starts with. -/
theorem spki_eq (key : HostKey) : hostKeySpki key = tlv tagSequence key.spkiParts.body := by
  cases key with
  | ed25519 key =>
    have hlen : key.key.toBytes.length = 32 := ByteVec.length_toBytes _
    simp [hostKeySpki, spkiParts, SpkiParts.body, tlv, lengthBytes, hlen, oidEd25519,
      ed25519SpkiPrefix, tagSequence, tagOid, tagBitString]
  | rsa => rfl
  | ecdsaP256 key =>
    have hlen : key.point.toBytes.length = 65 := ByteVec.length_toBytes _
    simp [hostKeySpki, spkiParts, SpkiParts.body, tlv, lengthBytes, hlen, oidEcPublicKey,
      oidPrime256v1, p256SpkiPrefix, tagSequence, tagOid, tagBitString]

end HostKey

/-- An element is at most four bytes longer than its content. -/
theorem length_tlv_le (tag : UInt8) (content : Bytes) :
    (tlv tag content).length ≤ content.length + 4 := by
  have hlength : (lengthBytes content.length).length ≤ 3 := by
    unfold lengthBytes
    split
    · exact Nat.le_of_ble_eq_true rfl
    split <;> exact Nat.le_of_ble_eq_true rfl
  rw [tlv, List.length_cons, List.length_append]
  omega

/-- The `RSAPublicKey` of a key within the policy is short. -/
theorem RsaPublicKey.length_integers_le {key : RsaPublicKey}
    (h : RsaPublicKey.fromComponents key.e key.n = .ok key) :
    (tlv tagSequence (positiveInteger key.n ++ positiveInteger key.e)).length ≤ 2000 := by
  obtain ⟨-, ⟨hme, hmn⟩, he, hn⟩ := RsaPublicKey.fromComponents_ok h
  have hintegers := length_tlv_le tagSequence (positiveInteger key.n ++ positiveInteger key.e)
  have hebody := length_mpintPositiveBody_le key.e
  have hnbody := length_mpintPositiveBody_le key.n
  have hetlv := length_tlv_le tagInteger (mpintPositiveBody key.e)
  have hntlv := length_tlv_le tagInteger (mpintPositiveBody key.n)
  rw [← hme.positiveInteger_eq] at hetlv
  rw [← hmn.positiveInteger_eq] at hntlv
  rw [List.length_append] at hintegers
  omega

/-- An acceptable key stays below the longest length that can be written. -/
theorem HostKey.Acceptable.length_body_lt {C : Crypto} {key : HostKey} (h : key.Acceptable C) :
    key.spkiParts.body.length < 65536 := by
  have hparts : key.spkiParts.oid.length ≤ 9 ∧ key.spkiParts.params.length ≤ 10 ∧
      key.spkiParts.key.length ≤ 2000 := by
    cases key with
    | ed25519 =>
      exact ⟨show oidEd25519.length ≤ 9 by decide, Nat.zero_le _, by simp [spkiParts]⟩
    | rsa =>
      exact ⟨show oidRsaEncryption.length ≤ 9 by decide,
        show (tlv tagNull []).length ≤ 10 by decide,
        RsaPublicKey.length_integers_le h.2⟩
    | ecdsaP256 =>
      exact ⟨show oidEcPublicKey.length ≤ 9 by decide,
        show (tlv tagOid oidPrime256v1).length ≤ 10 by decide, by simp [spkiParts]⟩
  have hoid := length_tlv_le tagOid key.spkiParts.oid
  have halg := length_tlv_le tagSequence (tlv tagOid key.spkiParts.oid ++ key.spkiParts.params)
  have hbits := length_tlv_le tagBitString (key.spkiParts.unused :: key.spkiParts.key)
  rw [List.length_append] at halg
  rw [List.length_cons] at hbits
  rw [SpkiParts.body, List.length_append]
  omega

namespace SpkiParts

variable {C : Crypto} {p : SpkiParts} {key : HostKey}

/-- The Ed25519 branch accepts the parts of a valid key. -/
theorem ed25519_ok_iff (hoid : p.oid = oidEd25519) :
    p.ed25519 C = .ok key ↔ ∃ k, key = .ed25519 k ∧ key.Acceptable C ∧ p = key.spkiParts := by
  obtain ⟨oid, _, _, _⟩ := p
  obtain rfl : oid = oidEd25519 := hoid
  simp only [ed25519.eq_def, Except.guard_ok_iff, ne_eq, not_not, List.isEmpty_iff]
  constructor
  · rintro ⟨rfl, rfl, h⟩
    split at h
    · cases h
    rename_i k hk
    obtain ⟨hvalid, h⟩ := Except.check_ok_iff.mp h
    cases h
    refine ⟨⟨k⟩, rfl, hvalid, ?_⟩
    rw [HostKey.spkiParts, ByteVec.ofBytes?_eq_some_iff.mp hk]
  · rintro ⟨k, rfl, hvalid, hp⟩
    cases hp
    have hvalid : C.ed25519Valid k.key = true := hvalid
    simp [ByteVec.ofBytes?_eq_some_iff.mpr rfl, hvalid]

/-- The RSA branch accepts the parts of a key within the policy. -/
theorem rsa_ok_iff (hoid : p.oid = oidRsaEncryption) (hfeature : C.featureRsa = true) :
    p.rsa = .ok key ↔ ∃ k, key = .rsa k ∧ key.Acceptable C ∧ p = key.spkiParts := by
  obtain ⟨oid, _, _, _⟩ := p
  obtain rfl : oid = oidRsaEncryption := hoid
  rw [rsa.eq_def]
  constructor
  · intro h
    split at h
    · cases h
    rename_i null rest hnull
    obtain ⟨-, hparams⟩ := Der.read_ok_iff.mp hnull
    simp only [Except.guard_ok_iff, not_or, ne_eq, not_not, List.isEmpty_iff, Except.bind_ok_iff,
      Prod.exists, Der.read_ok_iff, Der.finish_ok_iff, Der.positiveInteger_ok_iff] at h
    obtain ⟨⟨rfl, rfl⟩, rfl, _, rest, ⟨-, hkey⟩, -, rfl, n, _, ⟨hn, -, rfl⟩, e, _,
      ⟨he, -, rfl⟩, -, rfl, hcomponents⟩ := h
    split at hcomponents
    · rename_i k hk
      cases hcomponents
      obtain ⟨rfl, -, -, -⟩ := RsaPublicKey.fromComponents_ok hk
      refine ⟨⟨e, n⟩, rfl, ⟨hfeature, hk⟩, ?_⟩
      simp only [List.append_nil] at hparams hkey
      rw [HostKey.spkiParts, hn.positiveInteger_eq, he.positiveInteger_eq, ← hkey, ← hparams]
    · cases hcomponents
    · cases hcomponents
  · rintro ⟨k, rfl, hacceptable, hp⟩
    cases hp
    have hpolicy : RsaPublicKey.fromComponents k.e k.n = .ok k := hacceptable.2
    obtain ⟨-, ⟨hme, hmn⟩, he, hn⟩ := RsaPublicKey.fromComponents_ok hpolicy
    have hshort := RsaPublicKey.length_integers_le hpolicy
    have hseq := length_lt_length_tlv tagSequence (positiveInteger k.n ++ positiveInteger k.e)
    have hebody := length_mpintPositiveBody_le k.e
    have hnbody := length_mpintPositiveBody_le k.n
    have hnull : Der.read tagNull "RSA parameters" (tlv tagNull []) = .ok ([], []) :=
      Der.read_ok_iff.mpr ⟨by decide, rfl⟩
    simp only [hnull, List.isEmpty_nil, not_true_eq_false, or_self, ne_eq, if_false,
      Except.bind_ok_iff, Prod.exists, Der.read_ok_iff, Der.finish_ok_iff,
      Der.positiveInteger_ok_iff]
    refine ⟨_, [], ⟨by omega, (List.append_nil _).symm⟩, (), rfl, k.n, positiveInteger k.e,
      ⟨hmn, by omega, by rw [hmn.positiveInteger_eq]⟩, k.e, [],
      ⟨hme, by omega, by rw [hme.positiveInteger_eq, List.append_nil]⟩, (), rfl, ?_⟩
    rw [hpolicy]

/-- The P-256 branch accepts the parts of an uncompressed point. -/
theorem ecdsaP256_ok_iff (hoid : p.oid = oidEcPublicKey) (hfeature : C.featureEcdsaP256 = true) :
    p.ecdsaP256 = .ok key ↔ ∃ k, key = .ecdsaP256 k ∧ key.Acceptable C ∧ p = key.spkiParts := by
  obtain ⟨oid, _, _, _⟩ := p
  obtain rfl : oid = oidEcPublicKey := hoid
  rw [ecdsaP256.eq_def]
  constructor
  · intro h
    split at h
    · cases h
    rename_i curve rest hcurve
    simp only [Except.guard_ok_iff, ne_eq, not_not, List.isEmpty_iff] at h
    obtain ⟨rfl, rfl, rfl, h⟩ := h
    split at h
    · rename_i k hk
      cases h
      obtain ⟨rfl, hhead⟩ := EcdsaP256PublicKey.fromPoint_ok_iff.mp hk
      obtain ⟨-, rfl⟩ := Der.read_ok_iff.mp hcurve
      refine ⟨k, rfl, ⟨hfeature, hhead⟩, ?_⟩
      rw [List.append_nil, HostKey.spkiParts]
    · cases h
  · rintro ⟨k, rfl, hacceptable, hp⟩
    cases hp
    have hcurve : Der.read tagOid "EC parameters" (tlv tagOid oidPrime256v1) =
        .ok (oidPrime256v1, []) := Der.read_ok_iff.mpr ⟨by decide, (List.append_nil _).symm⟩
    have hpoint := EcdsaP256PublicKey.fromPoint_ok_iff.mpr ⟨rfl, hacceptable.2⟩
    simp [hcurve, hpoint]

/-- **Parts are interpreted** exactly as the parts of an acceptable key. -/
theorem hostKey_ok_iff : p.hostKey C = .ok key ↔ key.Acceptable C ∧ p = key.spkiParts := by
  rw [hostKey]
  constructor
  · intro h
    split at h
    · rename_i hoid
      obtain ⟨k, -, hparts⟩ := (ed25519_ok_iff hoid).mp h
      exact hparts
    split at h
    · rename_i hoid
      obtain ⟨k, -, hparts⟩ := (rsa_ok_iff hoid.1 hoid.2).mp h
      exact hparts
    obtain ⟨hoid, h⟩ := Except.check_ok_iff.mp h
    obtain ⟨k, -, hparts⟩ := (ecdsaP256_ok_iff hoid.1 hoid.2).mp h
    exact hparts
  · rintro ⟨hacceptable, rfl⟩
    cases key with
    | ed25519 k =>
      rw [if_pos (show (HostKey.ed25519 k).spkiParts.oid = oidEd25519 from rfl)]
      exact (ed25519_ok_iff rfl).mpr ⟨k, rfl, hacceptable, rfl⟩
    | rsa k =>
      have hother : (HostKey.rsa k).spkiParts.oid ≠ oidEd25519 :=
        show oidRsaEncryption ≠ oidEd25519 by decide
      rw [if_neg hother, if_pos ⟨rfl, hacceptable.1⟩]
      exact (rsa_ok_iff rfl hacceptable.1).mpr ⟨k, rfl, hacceptable, rfl⟩
    | ecdsaP256 k =>
      have hother : (HostKey.ecdsaP256 k).spkiParts.oid ≠ oidEd25519 :=
        show oidEcPublicKey ≠ oidEd25519 by decide
      have hother' : (HostKey.ecdsaP256 k).spkiParts.oid ≠ oidRsaEncryption :=
        show oidEcPublicKey ≠ oidRsaEncryption by decide
      rw [if_neg hother, if_neg fun hoid => hother' hoid.1, if_pos ⟨rfl, hacceptable.1⟩]
      exact (ecdsaP256_ok_iff rfl hacceptable.1).mpr ⟨k, rfl, hacceptable, rfl⟩

end SpkiParts

/-! ### One encoding per key -/

/-- **SPKIs are canonical**: the strict parser accepts exactly what `host_key_spki` writes for an
acceptable key. -/
theorem hostKeyFromSpki_canonical (C : Crypto) :
    Canonical (hostKeyFromSpki C) hostKeySpki (HostKey.Acceptable C) := by
  intro spki key
  rw [hostKeyFromSpki, Except.bind_ok_iff, key.spki_eq]
  simp only [SpkiParts.read_ok_iff, SpkiParts.hostKey_ok_iff]
  constructor
  · rintro ⟨p, ⟨-, rfl⟩, hacceptable, rfl⟩
    exact ⟨hacceptable, rfl⟩
  · rintro ⟨hacceptable, rfl⟩
    exact ⟨key.spkiParts, ⟨hacceptable.length_body_lt, rfl⟩, hacceptable, rfl⟩

/-- A key that one of the parsers returned. -/
def HostKey.Obtainable (C : Crypto) (key : HostKey) : Prop :=
  (∃ spki, hostKeyFromSpki C spki = .ok key) ∨ ∃ blob, HostKey.parse C blob = .ok key

/-- The obtainable keys are the acceptable ones, whichever parser is asked. -/
theorem HostKey.obtainable_iff {C : Crypto} {key : HostKey} :
    key.Obtainable C ↔ key.Acceptable C := by
  constructor
  · rintro (⟨spki, h⟩ | ⟨blob, h⟩)
    · exact (hostKeyFromSpki_canonical C).valid_of_decode h
    · exact (HostKey.parse_canonical C).valid_of_decode h
  · intro h
    exact .inl ⟨_, (hostKeyFromSpki_canonical C).decode_encode h⟩

/-- **The two formats are two spellings of the same keys.** The conversions are inverse to each
other; what either parser accepts is re-encoded to the input; both accept the encodings of every key
that either returned; and no two inputs of one format stand for the same key. The keys in question
are exactly the acceptable ones: Ed25519 with a valid point, RSA within the policy, P-256 with an
uncompressed point. -/
theorem spki_blob_bijective (C : Crypto) :
    (∀ spki blob, spkiToSshBlob C spki = .ok blob ↔ sshBlobToSpki C blob = .ok spki) ∧
    (∀ spki key, hostKeyFromSpki C spki = .ok key → hostKeySpki key = spki) ∧
    (∀ blob key, HostKey.parse C blob = .ok key → key.toBlob = blob) ∧
    (∀ key : HostKey, key.Obtainable C → hostKeyFromSpki C (hostKeySpki key) = .ok key ∧
      HostKey.parse C key.toBlob = .ok key) ∧
    (∀ key : HostKey, key.Obtainable C ↔ key.Acceptable C) ∧
    (∀ spki spki' key, hostKeyFromSpki C spki = .ok key → hostKeyFromSpki C spki' = .ok key →
      spki = spki') ∧
    (∀ blob blob' key, HostKey.parse C blob = .ok key → HostKey.parse C blob' = .ok key →
      blob = blob') := by
  have hspki := hostKeyFromSpki_canonical C
  have hblob := HostKey.parse_canonical C
  refine ⟨fun spki blob => ⟨hspki.convert hblob, hblob.convert hspki⟩,
    fun spki key => hspki.encode_eq, fun blob key => hblob.encode_eq, fun key hkey => ?_,
    fun key => HostKey.obtainable_iff, fun spki spki' key => hspki.unique,
    fun blob blob' key => hblob.unique⟩
  have hacceptable := HostKey.obtainable_iff.mp hkey
  exact ⟨hspki.decode_encode hacceptable, hblob.decode_encode hacceptable⟩

end Tatami.Keys
