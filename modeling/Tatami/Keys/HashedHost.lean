import Tatami.Lib.Codec
import Tatami.Lib.Utf8

/-! # Hashed host names

The matcher of `|1|salt|hash` fields, the one function of the `openssh_compat` crate. Base64 and
HMAC-SHA1 are parameters; of base64 only that it decodes what it encoded is used.

* `matchesHashedHostname_eq`: the answer in one equation. Whether a field is refused, and why, does
  not depend on the name as long as the name is short enough;
* `matchesHashedHostname_ok_iff`: which fields are accepted. -/

namespace Tatami.Keys

/-- What the crates `base64ct`, `hmac` and `sha1` supply, and whether the feature that needs the
latter two is enabled. -/
structure Compat where
  /-- Padded standard base64. -/
  encode : Bytes → Bytes
  /-- Its inverse, on the texts it accepts. -/
  decode : Bytes → Option Bytes
  decode_encode : ∀ x, decode (encode x) = some x
  /-- HMAC-SHA1 of a message under a key. -/
  hmacSha1 : Bytes → Bytes → ByteVec 20
  /-- Feature `openssh-hashed-hosts`. -/
  featureHashedHosts : Bool

/-- `Base64::decode` into a buffer. -/
def Compat.decodeInto (K : Compat) (room : Nat) (text : Bytes) : Option Bytes :=
  (K.decode text).filter fun decoded => decoded.length ≤ room

/-- `Base64::encode` into a buffer. -/
def Compat.encodeInto (K : Compat) (room : Nat) (bytes : Bytes) : Option Bytes :=
  if (K.encode bytes).length ≤ room then some (K.encode bytes) else none

/-- Salt and digest length. -/
def hashLen : Nat := 20
/-- Upper bound on a stored field. -/
def maxStoredFieldLen : Nat := 128
/-- Upper bound on a lookup name. -/
def maxLookupNameLen : Nat := 1024
/-- Enough for any base64 part of a bounded field. -/
def decodeBufLen : Nat := maxStoredFieldLen / 4 * 3

/-- Why a stored field or a lookup name was refused. -/
inductive HashedHostnameError where
  | storedFieldTooLong
  | lookupNameTooLong
  | grammar
  | base64
  | saltLength
  | digestLength
  deriving DecidableEq, Repr

/-- What follows a given start of a byte string (`strip_prefix`). -/
def stripStart (start bytes : Bytes) : Option Bytes :=
  if start.isPrefixOf bytes then some (bytes.drop start.length) else none

/-- Strict padded base64 of exactly 20 bytes. The canonical form is enforced by encoding again. -/
def decodePart (K : Compat) (text : Bytes) (lengthError : HashedHostnameError) :
    Except HashedHostnameError (ByteVec hashLen) :=
  match K.decodeInto decodeBufLen text with
  | none => .error .base64
  | some decoded =>
    match K.encodeInto maxStoredFieldLen decoded with
    | none => .error .base64
    | some canonical =>
      if canonical ≠ text then .error .base64
      else
        match ByteVec.ofBytes? hashLen decoded with
        | none => .error lengthError
        | some part => .ok part

/-- Salt and digest of a field, if it is well formed. -/
def decodeField (K : Compat) (storedField : Bytes) :
    Except HashedHostnameError (ByteVec hashLen × ByteVec hashLen) :=
  match stripStart (utf8 "|1|") storedField with
  | none => .error .grammar
  | some rest =>
    match rest.splitOn 124 with
    | [salt, digest] => do
      let salt ← decodePart K salt .saltLength
      let digest ← decodePart K digest .digestLength
      pure (salt, digest)
    | _ => .error .grammar

/-- Validates a field and reports whether it is the HMAC-SHA1 of the name under its salt. -/
def matchesHashedHostname (K : Compat) (storedField lookupName : Bytes) :
    Except HashedHostnameError Bool :=
  if maxStoredFieldLen < storedField.length then .error .storedFieldTooLong
  else if maxLookupNameLen < lookupName.length then .error .lookupNameTooLong
  else do
    let (salt, digest) ← decodeField K storedField
    pure (K.hmacSha1 salt.toBytes lookupName == digest)

/-! ### Which fields are accepted -/

variable {K : Compat}

/-- The text of a field with this salt and this digest. -/
def IsHashedField (K : Compat) (field : Bytes) (salt digest : ByteVec hashLen) : Prop :=
  field.length ≤ maxStoredFieldLen ∧ ∃ rest, field = utf8 "|1|" ++ rest ∧
    rest.splitOn 124 = [K.encode salt.toBytes, K.encode digest.toBytes]

/-- A start is taken off exactly when it is there. -/
theorem stripStart_eq_some_iff {start bytes rest : Bytes} :
    stripStart start bytes = some rest ↔ bytes = start ++ rest := by
  unfold stripStart
  split
  · next h =>
    obtain ⟨t, rfl⟩ := List.isPrefixOf_iff_prefix.mp h
    rw [List.drop_left, Option.some.injEq, List.append_cancel_left_eq]
  · next h =>
    refine ⟨nofun, ?_⟩
    rintro rfl
    exact absurd (List.isPrefixOf_iff_prefix.mpr (List.prefix_append start rest)) h

/-- **A part is accepted exactly when it is the encoding of 20 bytes**: both buffers are large
enough for that. -/
theorem decodePart_ok_iff {text : Bytes} {e : HashedHostnameError} {part : ByteVec hashLen}
    (hshort : text.length ≤ maxStoredFieldLen) :
    decodePart K text e = .ok part ↔ text = K.encode part.toBytes := by
  unfold decodePart
  constructor
  · intro h
    split at h
    · cases h
    · next decoded hdecoded =>
      split at h
      · cases h
      · next canonical hcanonical =>
        split at h
        · cases h
        · next heq =>
          split at h
          · cases h
          · next part' hpart =>
            cases h
            rw [ByteVec.ofBytes?_eq_some_iff.mp hpart]
            unfold Compat.encodeInto at hcanonical
            split at hcanonical
            · cases hcanonical
              exact (not_not.mp heq).symm
            · cases hcanonical
  · rintro rfl
    have hdecode : K.decodeInto decodeBufLen (K.encode part.toBytes) = some part.toBytes := by
      rw [Compat.decodeInto, K.decode_encode, Option.filter_some, if_pos]
      rw [part.length_toBytes]
      decide
    have hencode : K.encodeInto maxStoredFieldLen part.toBytes = some (K.encode part.toBytes) :=
      if_pos hshort
    simp only [hdecode, hencode, ByteVec.ofBytes?_eq_some_iff.mpr rfl, ne_eq, not_true_eq_false,
      if_false]

/-- Two parts of a byte string are not longer than it. -/
theorem length_le_of_splitOn {rest x y : Bytes} {sep : UInt8} (h : rest.splitOn sep = [x, y]) :
    x.length ≤ rest.length ∧ y.length ≤ rest.length := by
  have hrest : rest = x ++ sep :: y := by
    have hjoin : [sep].intercalate (rest.splitOn sep) = rest := List.intercalate_splitOn sep
    rw [← hjoin, h]
    simp
  rw [hrest, List.length_append, List.length_cons]
  omega

/-- A field is decoded exactly when it has the two parts. -/
theorem decodeField_ok_iff {field : Bytes} {salt digest : ByteVec hashLen}
    (hshort : field.length ≤ maxStoredFieldLen) :
    decodeField K field = .ok (salt, digest) ↔ IsHashedField K field salt digest := by
  unfold decodeField
  constructor
  · intro h
    split at h
    · cases h
    · next rest hrest =>
      have hfield := stripStart_eq_some_iff.mp hrest
      split at h
      · next x y hsplit =>
        obtain ⟨hx, hy⟩ := length_le_of_splitOn hsplit
        have hlen : rest.length ≤ maxStoredFieldLen := by
          rw [hfield, List.length_append] at hshort
          omega
        obtain ⟨_, hsalt, h⟩ := Except.bind_ok_iff.mp h
        obtain ⟨_, hdigest, h⟩ := Except.bind_ok_iff.mp h
        cases h
        rw [decodePart_ok_iff (Nat.le_trans hx hlen)] at hsalt
        rw [decodePart_ok_iff (Nat.le_trans hy hlen)] at hdigest
        exact ⟨hshort, rest, hfield, by rw [hsplit, hsalt, hdigest]⟩
      · cases h
  · rintro ⟨-, rest, hfield, hsplit⟩
    have hrest := stripStart_eq_some_iff.mpr hfield
    obtain ⟨hx, hy⟩ := length_le_of_splitOn hsplit
    have hlen : rest.length ≤ maxStoredFieldLen := by
      rw [hfield, List.length_append] at hshort
      omega
    simp only [hrest, hsplit]
    rw [(decodePart_ok_iff (Nat.le_trans hx hlen)).mpr rfl,
      (decodePart_ok_iff (Nat.le_trans hy hlen)).mpr rfl]
    rfl

/-- Salt and digest of a field are determined by it. -/
theorem IsHashedField.unique {field : Bytes} {salt digest salt' digest' : ByteVec hashLen}
    (h : IsHashedField K field salt digest) (h' : IsHashedField K field salt' digest') :
    salt = salt' ∧ digest = digest' := by
  have hfield := (decodeField_ok_iff h.1).mpr h
  rw [(decodeField_ok_iff h'.1).mpr h', Except.ok.injEq, Prod.mk.injEq] at hfield
  exact ⟨hfield.1.symm, hfield.2.symm⟩

/-- **The answer on a name that is short enough**: that of the field, which the name has no part in,
and then the comparison with the name's digest. -/
theorem matchesHashedHostname_eq {field name : Bytes} (hname : name.length ≤ maxLookupNameLen) :
    matchesHashedHostname K field name =
      if maxStoredFieldLen < field.length then .error .storedFieldTooLong
      else (decodeField K field).map fun part => K.hmacSha1 part.1.toBytes name == part.2 := by
  unfold matchesHashedHostname
  rw [if_neg (Nat.not_lt.mpr hname)]
  split
  · rfl
  · cases decodeField K field <;> rfl

/-- A field that is too long, or a name that is, is refused; otherwise the answer is the field's. -/
theorem matchesHashedHostname_ok_iff {field name : Bytes} {b : Bool} :
    matchesHashedHostname K field name = .ok b ↔
      name.length ≤ maxLookupNameLen ∧ ∃ salt digest, IsHashedField K field salt digest ∧
        b = (K.hmacSha1 salt.toBytes name == digest) := by
  constructor
  · intro h
    unfold matchesHashedHostname at h
    split at h
    · cases h
    · next hfield =>
      split at h
      · cases h
      · next hname =>
        obtain ⟨⟨salt, digest⟩, hpart, h⟩ := Except.bind_ok_iff.mp h
        cases h
        exact ⟨Nat.not_lt.mp hname, salt, digest,
          (decodeField_ok_iff (Nat.not_lt.mp hfield)).mp hpart, rfl⟩
  · rintro ⟨hname, salt, digest, hfield, rfl⟩
    rw [matchesHashedHostname_eq hname, if_neg (Nat.not_lt.mpr hfield.1),
      (decodeField_ok_iff hfield.1).mpr hfield]
    rfl

end Tatami.Keys
