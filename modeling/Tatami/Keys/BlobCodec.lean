import Tatami.Keys.HostKey
import Tatami.Lib.Codec
import Tatami.Wire.Formats

/-! # Public-key blobs have one encoding per key

The strict parsers of `HostKey.parse` accept exactly the bytes that `HostKey.toBlob` writes for an
acceptable key (`parse_canonical`). The algorithm name is read twice by the source, once to choose
the parser and once by the parser to get past it; that both reads see the same name is where the
blob being self-delimiting comes in. -/

namespace Tatami.Keys

open Tatami.Wire Cursor Mpint List

variable {b : Bytes} {blob : PublicKeyBlob}

/-! ### Fields of a blob -/

section Fields

variable {α : Type} {r r' : Reader}

/-- `blobField` succeeds exactly as its reader does. -/
theorem blobField_ok_iff {name : String} {read : Decoder DecodeError α} {a : α} :
    blobField name read r = (.ok a, r') ↔ read r = (.ok a, r') := by
  unfold blobField
  rw [bind_apply_ok (here_apply r), mapError_ok_iff]

/-- A field of a blob reads what its reader reads. -/
theorem decodes_blobField {read : Decoder DecodeError α} {F : Format α UInt8}
    (h : Decodes read F) (name : String) : Decodes (blobField name read) F := by
  intro r r' a
  rw [blobField_ok_iff]
  exact h

/-- `blobFinish` succeeds exactly at the end of the blob. -/
theorem blobFinish_ok_iff {u : Unit} :
    blobFinish r = (.ok u, r') ↔ r' = r ∧ r.remaining = [] := by
  rw [blobFinish, bind_apply_ok (here_apply r), ← Reader.finish_ok_iff]
  cases hfin : r.finish with
  | ok => simp [eq_comm]
  | error => simp [fail]

/-- A positive number as a byte string: not empty, and without a leading zero. -/
def Magnitude (m : Bytes) : Prop := m ≠ [] ∧ m.head? ≠ some 0

/-- A magnitude of so many bytes is not smaller than the powers below. -/
theorem Magnitude.le_beNat (h : Magnitude b) : 256 ^ (b.length - 1) ≤ beNat b := by
  cases b with
  | nil => exact absurd rfl h.1
  | cons x xs =>
    have hx : x.toNat ≠ 0 := fun hzero => h.2 (congrArg some (UInt8.toNat_inj.mp hzero))
    rw [beNat_cons, length_cons, Nat.add_sub_cancel]
    calc 256 ^ xs.length = 1 * 256 ^ xs.length := (Nat.one_mul _).symm
      _ ≤ x.toNat * 256 ^ xs.length := Nat.mul_le_mul_right _ (Nat.one_le_iff_ne_zero.mpr hx)
      _ ≤ x.toNat * 256 ^ xs.length + beNat xs := Nat.le_add_right _ _

/-- A magnitude is not longer than the bytes of a number that is not smaller. -/
theorem Magnitude.length_le {a : Bytes} (ha : Magnitude a) (h : beNat a ≤ beNat b) :
    a.length ≤ b.length := by
  have hpow : 256 ^ (a.length - 1) < 256 ^ b.length :=
    Nat.lt_of_le_of_lt (Nat.le_trans ha.le_beNat h) (beNat_lt b)
  have := (Nat.pow_lt_pow_iff_right (by decide)).mp hpow
  omega

/-- A magnitude is determined by its integer. -/
theorem Magnitude.eq_of_beNat_eq {a : Bytes} (ha : Magnitude a) (hb : Magnitude b)
    (h : beNat a = beNat b) : a = b :=
  bytes_eq_of_beNat_eq (Nat.le_antisymm (ha.length_le h.le) (hb.length_le h.ge)) h

/-- The body of a magnitude: a zero in front when the top bit would read as a sign. -/
theorem Magnitude.body_eq {b : UInt8} {rest : Bytes} (h : Magnitude (b :: rest)) :
    mpintPositiveBody (b :: rest) = if highBit b then 0 :: b :: rest else b :: rest := by
  have hb : b ≠ 0 := fun hzero => h.2 (by rw [hzero]; rfl)
  rw [mpintPositiveBody, stripLeadingZeros_cons_of_ne_zero hb]

/-- A byte with the top bit set is not zero. -/
theorem ne_zero_of_highBit {b : UInt8} (h : highBit b = true) : b ≠ 0 := by
  rintro rfl
  cases h

/-- **Strict positive integers.** The checks of `positive_mpint` pass exactly on the minimal
encoding of a magnitude. -/
theorem mpint_strict_iff {v : Mpint} {m : Bytes} :
    (v.isZero || v.isNegative || !v.isCanonical) = false ∧ v.positiveMagnitude.getD [] = m ↔
      Magnitude m ∧ v.bytes = mpintPositiveBody m := by
  obtain ⟨bytes⟩ := v
  constructor
  · rintro ⟨hstrict, rfl⟩
    simp only [Bool.or_eq_false_iff, Bool.not_eq_false'] at hstrict
    obtain ⟨⟨hzero, hsign⟩, hcanonical⟩ := hstrict
    rw [positiveMagnitude, hsign]
    change Magnitude (stripLeadingZeros bytes) ∧ bytes = mpintPositiveBody (stripLeadingZeros bytes)
    match bytes, hzero, hsign, hcanonical with
    | [], hzero, _, _ => cases hzero
    | [b], _, hsign, hcanonical =>
      have hb : b ≠ 0 := by simpa [isCanonical] using hcanonical
      have hsign : highBit b = false := hsign
      have hm : Magnitude [b] := ⟨nofun, fun heq => hb (Option.some.inj heq)⟩
      rw [stripLeadingZeros_cons_of_ne_zero hb, hm.body_eq, hsign]
      exact ⟨hm, rfl⟩
    | b :: next :: rest, _, hsign, hcanonical =>
      have hsign : highBit b = false := hsign
      simp only [isCanonical] at hcanonical
      by_cases hb : b = 0
      · subst hb
        have hnext : highBit next = true := by simpa using hcanonical
        have hne := ne_zero_of_highBit hnext
        have hm : Magnitude (next :: rest) := ⟨nofun, fun heq => hne (Option.some.inj heq)⟩
        rw [stripLeadingZeros_zero_cons, stripLeadingZeros_cons_of_ne_zero hne, hm.body_eq,
          if_pos hnext]
        exact ⟨hm, rfl⟩
      · have hm : Magnitude (b :: next :: rest) := ⟨nofun, fun heq => hb (Option.some.inj heq)⟩
        rw [stripLeadingZeros_cons_of_ne_zero hb, hm.body_eq, hsign]
        exact ⟨hm, rfl⟩
  · rintro ⟨hm, heq⟩
    match m, hm with
    | [], hm => exact absurd rfl hm.1
    | b :: rest, hm =>
      have hb : b ≠ 0 := fun hzero => hm.2 (by rw [hzero]; rfl)
      rw [hm.body_eq] at heq
      simp only at heq
      subst heq
      by_cases hsign : highBit b = true
      · rw [if_pos hsign]
        have hfront : highBit 0 = false := rfl
        simp [isZero, isNegative, isCanonical, positiveMagnitude, hsign,
          stripLeadingZeros_zero_cons, stripLeadingZeros_cons_of_ne_zero hb, hfront]
      · rw [if_neg hsign]
        have hsign : highBit b = false := by simpa using hsign
        have hff : b ≠ 0xff := by
          rintro rfl
          cases hsign
        have hcanonical : (mk (b :: rest)).isCanonical = true := by
          cases rest with
          | nil => simpa [isCanonical] using hb
          | cons => simp [isCanonical, hb, hff]
        simp [isZero, isNegative, positiveMagnitude, hsign, hcanonical,
          stripLeadingZeros_cons_of_ne_zero hb]

/-- The minimal encoding of a magnitude, behind its length. -/
def magnitudeFormat : Format Bytes UInt8 := fun m w =>
  Magnitude m ∧ (mpintPositiveBody m).length < 2 ^ 32 ∧ w = lengthPrefixed (mpintPositiveBody m)

/-- `positiveMpint` reads exactly the minimal encoding of a magnitude. -/
theorem decodes_positiveMpint (name : String) : Decodes (positiveMpint name) magnitudeFormat := by
  intro r r' m
  unfold positiveMpint Reader.readMpint magnitudeFormat
  simp only [bind_ok_iff, mapError_ok_iff, blobField_ok_iff, pure_ok_iff,
    Reader.readString_ok_iff]
  constructor
  · rintro ⟨v, _, ⟨_, _, ⟨hlt, hadv⟩, rfl, rfl⟩, h⟩
    split at h
    · exact absurd h fail_ne_ok
    · rename_i hstrict
      obtain ⟨rfl, rfl⟩ := pure_ok_iff.mp h
      obtain ⟨hm, hbytes⟩ := mpint_strict_iff.mp ⟨Bool.eq_false_iff.mpr hstrict, rfl⟩
      exact ⟨_, ⟨hm, hbytes ▸ hlt, rfl⟩, hbytes ▸ hadv⟩
  · rintro ⟨w, ⟨hm, hlt, rfl⟩, hadv⟩
    obtain ⟨hstrict, hmagnitude⟩ := mpint_strict_iff.mpr
      (show Magnitude m ∧ (mk (mpintPositiveBody m)).bytes = mpintPositiveBody m from
        ⟨hm, rfl⟩)
    refine ⟨⟨mpintPositiveBody m⟩, r', ⟨_, r', ⟨hlt, hadv⟩, rfl, rfl⟩, ?_⟩
    rw [if_neg (by rw [hstrict]; decide), pure_ok_iff]
    exact ⟨hmagnitude.symm, rfl⟩

end Fields

/-! ### What the parsers accept -/

/-- A key type is looked up by its name. -/
theorem KeyType.fromName_eq_some_iff {name : Bytes} {t : KeyType} :
    KeyType.fromName name = some t ↔ name = t.name := by
  constructor
  · intro h
    have hname := List.find?_some h
    exact (eq_of_beq hname).symm
  · rintro rfl
    cases t <;> decide +kernel

/-- A blob decodes to its algorithm name and what follows it. -/
theorem PublicKeyBlob.decode_ok_iff {bytes : Bytes} :
    PublicKeyBlob.decode bytes = .ok blob ↔ blob.bytes = bytes ∧ blob.algorithm.length < 2 ^ 32 ∧
      bytes = lengthPrefixed blob.algorithm ++ blob.body := by
  have hread {algorithm : Bytes} {r : Reader} :
      blobField "algorithm" Reader.readString (Reader.new bytes) = (.ok algorithm, r) ↔
        algorithm.length < 2 ^ 32 ∧ (Reader.new bytes).Advances (lengthPrefixed algorithm) r := by
    rw [blobField_ok_iff, Reader.readString_ok_iff]
  rw [PublicKeyBlob.decode]
  constructor
  · intro h
    split at h
    · rename_i algorithm r hok
      cases h
      obtain ⟨hlt, hadv⟩ := hread.mp hok
      exact ⟨rfl, hlt, hadv.2⟩
    · cases h
  · rintro ⟨rfl, hlt, heq⟩
    obtain ⟨_, hall, hend⟩ := Reader.exists_advances_all blob.bytes
    rw [heq] at hall
    obtain ⟨r₁, h₁, h₂⟩ := hall.split
    have hbody : r₁.remaining = blob.body := by
      have := h₂.2
      rwa [hend, append_nil] at this
    rw [← heq] at h₁
    rw [hread.mpr ⟨hlt, h₁⟩]
    simp only [hbody]

/-- The `ssh-ed25519` parser reads a name and a valid key. -/
theorem Ed25519PublicKey.fromBlob_ok_iff {C : Crypto} {key : Ed25519PublicKey} :
    Ed25519PublicKey.fromBlob C blob = .ok key ↔ blob.algorithm = utf8 "ssh-ed25519" ∧
      C.ed25519Valid key.key = true ∧ ∃ name, name.length < 2 ^ 32 ∧
        blob.bytes = lengthPrefixed name ++ lengthPrefixed key.key.toBytes := by
  have hdecode {k : Bytes} : ((do
      let _ ← blobField "algorithm" Reader.readString
      let key ← blobField "key" Reader.readString
      blobFinish
      pure key : Decoder BlobError Bytes) (Reader.new blob.bytes)).1 = .ok k ↔
      ∃ name, name.length < 2 ^ 32 ∧ k.length < 2 ^ 32 ∧
        blob.bytes = lengthPrefixed name ++ lengthPrefixed k := by
    refine fst_ok_iff.trans ((Decodes.bindAll (decodes_blobField decodes_readString _)
      fun _ => Decodes.bindAll (decodes_blobField decodes_readString _) fun _ =>
      decodesAll_end _ blobFinish_ok_iff).trans ?_)
    simp [Format.bind, Format.pure, stringFormat, and_comm, and_assoc]
  simp only [Ed25519PublicKey.fromBlob, Except.guard_ok_iff, not_ne_iff]
  refine and_congr_right fun _ => ⟨fun h => ?_, ?_⟩
  · split at h
    · cases h
    rename_i k hk
    obtain ⟨name, hname, -, heq⟩ := hdecode.mp hk
    split at h
    · cases h
    rename_i v hv
    obtain ⟨hvalid, h⟩ := Except.check_ok_iff.mp h
    cases h
    rw [ByteVec.ofBytes?_eq_some_iff.mp hv]
    exact ⟨hvalid, name, hname, heq⟩
  · rintro ⟨hvalid, name, hname, heq⟩
    have hk := hdecode.mpr ⟨name, hname, by rw [ByteVec.length_toBytes]; decide, heq⟩
    simp only [hk, ByteVec.ofBytes?_eq_some_iff.mpr rfl, hvalid, if_true]

/-- The `ssh-rsa` parser reads a name and two strict integers within the policy. -/
theorem RsaPublicKey.fromBlob_ok_iff {key : RsaPublicKey} :
    RsaPublicKey.fromBlob blob = .ok key ↔ blob.algorithm = utf8 "ssh-rsa" ∧
      ∃ e n, RsaPublicKey.fromComponents e n = .ok key ∧ ∃ name, blob.bytes = lengthPrefixed name ++
          (lengthPrefixed (mpintPositiveBody e) ++ lengthPrefixed (mpintPositiveBody n)) ∧
        name.length < 2 ^ 32 ∧ (Magnitude e ∧ (mpintPositiveBody e).length < 2 ^ 32) ∧
        Magnitude n ∧ (mpintPositiveBody n).length < 2 ^ 32 := by
  have hdecode {e n : Bytes} : ((do
      let _ ← (blobField "algorithm" Reader.readString).mapError KeyError.blob
      let e ← positiveMpint "e"
      let n ← positiveMpint "n"
      blobFinish.mapError KeyError.blob
      pure (e, n) : Decoder KeyError (Bytes × Bytes)) (Reader.new blob.bytes)).1 = .ok (e, n) ↔
      ∃ name, blob.bytes = lengthPrefixed name ++
          (lengthPrefixed (mpintPositiveBody e) ++ lengthPrefixed (mpintPositiveBody n)) ∧
        name.length < 2 ^ 32 ∧ (Magnitude e ∧ (mpintPositiveBody e).length < 2 ^ 32) ∧
        Magnitude n ∧ (mpintPositiveBody n).length < 2 ^ 32 := by
    refine fst_ok_iff.trans ((Decodes.bindAll (Decodes.mapError
      (decodes_blobField decodes_readString _) _) fun _ => Decodes.bindAll (decodes_positiveMpint _)
      fun e => Decodes.bindAll (decodes_positiveMpint _) fun n =>
      decodesAll_end (e, n) (mapError_ok_iff.trans blobFinish_ok_iff)).trans ?_)
    simp [Format.bind, Format.pure, stringFormat, magnitudeFormat]
  simp only [RsaPublicKey.fromBlob, Except.guard_ok_iff, not_ne_iff]
  refine and_congr_right fun _ => ⟨fun h => ?_, ?_⟩
  · split at h
    · cases h
    rename_i e n hfields
    exact ⟨e, n, h, hdecode.mp hfields⟩
  · rintro ⟨e, n, hpolicy, hrest⟩
    simp only [hdecode.mpr hrest, hpolicy]

/-- The `ecdsa-sha2-nistp256` parser reads a name, the curve and an uncompressed point. -/
theorem EcdsaP256PublicKey.fromBlob_ok_iff {key : EcdsaP256PublicKey} :
    EcdsaP256PublicKey.fromBlob blob = .ok key ↔ blob.algorithm = utf8 "ecdsa-sha2-nistp256" ∧
      ∃ q, EcdsaP256PublicKey.fromPoint q = .ok key ∧ ∃ name, blob.bytes = lengthPrefixed name ++
        (lengthPrefixed (utf8 "nistp256") ++ lengthPrefixed q) ∧ name.length < 2 ^ 32 ∧
        q.length < 2 ^ 32 := by
  have hdecode {curve q : Bytes} : ((do
      let _ ← blobField "algorithm" Reader.readString
      let curve ← blobField "curve" Reader.readString
      let q ← blobField "Q" Reader.readString
      blobFinish
      pure (curve, q) : Decoder BlobError (Bytes × Bytes)) (Reader.new blob.bytes)).1 =
        .ok (curve, q) ↔
      ∃ name, blob.bytes = lengthPrefixed name ++ (lengthPrefixed curve ++ lengthPrefixed q) ∧
        name.length < 2 ^ 32 ∧ curve.length < 2 ^ 32 ∧ q.length < 2 ^ 32 := by
    refine fst_ok_iff.trans ((Decodes.bindAll (decodes_blobField decodes_readString _)
      fun _ => Decodes.bindAll (decodes_blobField decodes_readString _) fun curve =>
      Decodes.bindAll (decodes_blobField decodes_readString _) fun q =>
      decodesAll_end (curve, q) blobFinish_ok_iff).trans ?_)
    simp [Format.bind, Format.pure, stringFormat]
  simp only [EcdsaP256PublicKey.fromBlob, Except.guard_ok_iff, not_ne_iff]
  refine and_congr_right fun _ => ⟨fun h => ?_, ?_⟩
  · split at h
    · cases h
    rename_i curve q hfields
    obtain ⟨hcurve, h⟩ := Except.guard_ok_iff.mp h
    obtain rfl := not_not.mp hcurve
    obtain ⟨name, heq, hname, -, hq⟩ := hdecode.mp hfields
    exact ⟨q, h, name, heq, hname, hq⟩
  · rintro ⟨q, hpoint, name, heq, hname, hq⟩
    simp only [hdecode.mpr ⟨name, heq, hname, by decide +kernel, hq⟩, ne_eq, not_true_eq_false,
      if_false, hpoint]

/-! ### Acceptable keys and their blobs -/

/-- Components within the policy are magnitudes of bounded length, and are kept as they are. -/
theorem RsaPublicKey.fromComponents_ok {e n : Bytes} {key : RsaPublicKey}
    (h : RsaPublicKey.fromComponents e n = .ok key) :
    key = ⟨e, n⟩ ∧ (Magnitude e ∧ Magnitude n) ∧ e.length ≤ 4 ∧ n.length ≤ 1024 := by
  simp only [RsaPublicKey.fromComponents, Except.guard_ok_iff, Bool.or_eq_true, not_or,
    Bool.not_eq_true, decide_eq_false_iff_not, Nat.not_lt] at h
  obtain ⟨hezero, hnzero, hexponent, hmodulus, h⟩ := h
  cases h
  have hlong : ∃ top rest, n = top :: rest ∧ rest.length < 1024 := by
    obtain ⟨⟨hmin, hmax⟩, -⟩ := hmodulus
    match n with
    | [] => exact absurd hmin (by decide)
    | top :: rest =>
      have htop : top ≠ 0 := fun hzero => hnzero (by rw [hzero]; rfl)
      have hbits : 1 ≤ byteBits top := by
        rw [byteBits, if_neg htop]
        omega
      have hmax : rest.length * 8 + byteBits top ≤ 8192 := hmax
      exact ⟨top, rest, rfl, by omega⟩
  obtain ⟨top, rest, rfl, hlong⟩ := hlong
  have hnonempty : e ≠ [] := fun hnil => by
    rw [hnil] at hexponent
    exact absurd hexponent.1.1.1 (by decide)
  exact ⟨rfl, ⟨⟨hnonempty, hezero⟩, nofun, hnzero⟩, hexponent.1.1.2, hlong⟩

/-- A point of a parsed key is uncompressed. -/
theorem EcdsaP256PublicKey.fromPoint_ok_iff {q : Bytes} {key : EcdsaP256PublicKey} :
    EcdsaP256PublicKey.fromPoint q = .ok key ↔
      key.point.toBytes = q ∧ key.point.toBytes.head? = some 0x04 := by
  rw [EcdsaP256PublicKey.fromPoint]
  constructor
  · intro h
    split at h
    · cases h
    rename_i p hp
    obtain ⟨hhead, h⟩ := Except.check_ok_iff.mp h
    cases h
    rw [ByteVec.ofBytes?_eq_some_iff.mp hp]
    exact ⟨rfl, hhead⟩
  · rintro ⟨rfl, hhead⟩
    rw [ByteVec.ofBytes?_eq_some_iff.mpr rfl]
    simp only [hhead, if_true]

namespace HostKey

/-- What the parsers of this build let through. -/
def Acceptable (C : Crypto) : HostKey → Prop
  | .ed25519 key => C.ed25519Valid key.key = true
  | .rsa key => C.featureRsa = true ∧ RsaPublicKey.fromComponents key.e key.n = .ok key
  | .ecdsaP256 key => C.featureEcdsaP256 = true ∧ key.point.toBytes.head? = some 0x04

/-- The fields of a key's blob, each to be prefixed by its length. -/
def blobFields : HostKey → List Bytes
  | .ed25519 key => [utf8 "ssh-ed25519", key.key.toBytes]
  | .rsa key => [utf8 "ssh-rsa", mpintPositiveBody key.e, mpintPositiveBody key.n]
  | .ecdsaP256 key => [utf8 "ecdsa-sha2-nistp256", utf8 "nistp256", key.point.toBytes]

variable {C : Crypto} {key : HostKey}

/-- The first field is the name of the key's type. -/
theorem blobFields_eq (key : HostKey) : ∃ rest, key.blobFields = key.keyType.name :: rest := by
  cases key <;> exact ⟨_, rfl⟩

/-- The lengths of the fixed texts in blobs. -/
theorem length_texts : (utf8 "ssh-ed25519").length = 11 ∧ (utf8 "ssh-rsa").length = 7 ∧
    (utf8 "ecdsa-sha2-nistp256").length = 19 ∧ (utf8 "nistp256").length = 8 := by
  decide +kernel

/-- Every field of an acceptable key is short. -/
theorem Acceptable.fields_lt (h : key.Acceptable C) :
    ∀ field ∈ key.blobFields, field.length < 2 ^ 32 := by
  obtain ⟨hed, hrsa, hecdsa, hcurve⟩ := length_texts
  cases key with
  | ed25519 =>
    simp only [blobFields, forall_mem_cons, hed, ByteVec.length_toBytes]
    exact ⟨by decide, by decide, nofun⟩
  | rsa key =>
    obtain ⟨-, -, he, hn⟩ := RsaPublicKey.fromComponents_ok h.2
    have hebody := length_mpintPositiveBody_le key.e
    have hnbody := length_mpintPositiveBody_le key.n
    simp only [blobFields, forall_mem_cons, hrsa]
    exact ⟨by decide, by omega, by omega, nofun⟩
  | ecdsaP256 =>
    simp only [blobFields, forall_mem_cons, hecdsa, hcurve, ByteVec.length_toBytes]
    exact ⟨by decide, by decide, by decide, nofun⟩

/-- The buffers of the encoders are exactly filled: a blob is its fields, each with its length. -/
theorem Acceptable.toBlob_eq (h : key.Acceptable C) :
    key.toBlob = key.blobFields.flatMap lengthPrefixed := by
  obtain ⟨hed, hrsa, hecdsa, hcurve⟩ := length_texts
  have hshort := h.fields_lt
  cases key with
  | ed25519 =>
    simp only [blobFields, forall_mem_cons] at hshort
    obtain ⟨hname, hkey, -⟩ := hshort
    have hwrites := (Writer.produces_writePrefixed hname).seq (Writer.produces_writePrefixed hkey)
    refine (hwrites.run_replicate ?_).trans (by simp [blobFields])
    simp only [length_append, length_lengthPrefixed, hed, ByteVec.length_toBytes]
    rfl
  | rsa =>
    simp only [blobFields, forall_mem_cons] at hshort
    obtain ⟨hname, he, hn, -⟩ := hshort
    have hwrites := (Writer.produces_writePrefixed hname).seq
      ((Writer.produces_writePrefixed he).seq (Writer.produces_writePrefixed hn))
    refine (hwrites.run_replicate ?_).trans (by simp [blobFields])
    rw [length_append, length_append, ← mpintPositiveLen_eq, ← mpintPositiveLen_eq,
      length_lengthPrefixed]
    omega
  | ecdsaP256 =>
    simp only [blobFields, forall_mem_cons] at hshort
    obtain ⟨hname, hc, hpoint, -⟩ := hshort
    have hwrites := (Writer.produces_writePrefixed hname).seq
      ((Writer.produces_writePrefixed hc).seq (Writer.produces_writePrefixed hpoint))
    refine (hwrites.run_replicate ?_).trans (by simp [blobFields])
    simp only [length_append, length_lengthPrefixed, hecdsa, hcurve, ByteVec.length_toBytes]
    rfl

/-- Parsing is decoding and then interpreting. -/
theorem parse_ok_iff {bytes : Bytes} :
    parse C bytes = .ok key ↔
      ∃ blob, PublicKeyBlob.decode bytes = .ok blob ∧ fromBlob C blob = .ok key := by
  rw [parse]
  cases PublicKeyBlob.decode bytes with
  | error => simp
  | ok => simp

/-- **A key is interpreted from a blob** exactly if it is acceptable and the blob is its fields,
under whatever name stands first in the bytes. -/
theorem fromBlob_ok_iff :
    fromBlob C blob = .ok key ↔ blob.algorithm = key.keyType.name ∧ key.Acceptable C ∧
      ∃ name, name.length < 2 ^ 32 ∧
        blob.bytes = lengthPrefixed name ++ key.blobFields.tail.flatMap lengthPrefixed := by
  rw [fromBlob]
  constructor
  · intro h
    split at h
    · obtain ⟨k, hk, rfl⟩ := Except.map_ok_iff.mp h
      obtain ⟨halgorithm, hvalid, name, hname, heq⟩ := Ed25519PublicKey.fromBlob_ok_iff.mp hk
      exact ⟨halgorithm, hvalid, name, hname, by simpa [blobFields] using heq⟩
    · obtain ⟨hfeature, h⟩ := Except.check_ok_iff.mp h
      obtain ⟨k, hk, rfl⟩ := Except.map_ok_iff.mp h
      obtain ⟨halgorithm, e, n, hpolicy, name, heq, hname, -⟩ := RsaPublicKey.fromBlob_ok_iff.mp hk
      obtain ⟨rfl, -, -, -⟩ := RsaPublicKey.fromComponents_ok hpolicy
      exact ⟨halgorithm, ⟨hfeature, hpolicy⟩, name, hname, by simpa [blobFields] using heq⟩
    · obtain ⟨hfeature, h⟩ := Except.check_ok_iff.mp h
      obtain ⟨k, hk, rfl⟩ := Except.map_ok_iff.mp h
      obtain ⟨halgorithm, q, hpoint, name, heq, hname, -⟩ :=
        EcdsaP256PublicKey.fromBlob_ok_iff.mp hk
      obtain ⟨rfl, hhead⟩ := EcdsaP256PublicKey.fromPoint_ok_iff.mp hpoint
      exact ⟨halgorithm, ⟨hfeature, hhead⟩, name, hname, by simpa [blobFields] using heq⟩
    · cases h
  · rintro ⟨halgorithm, hacceptable, name, hname, heq⟩
    have hshort := hacceptable.fields_lt
    rw [KeyType.fromName_eq_some_iff.mpr halgorithm]
    cases key with
    | ed25519 k =>
      refine Except.map_ok_iff.mpr ⟨k, Ed25519PublicKey.fromBlob_ok_iff.mpr
        ⟨halgorithm, hacceptable, name, hname, ?_⟩, rfl⟩
      simpa [blobFields] using heq
    | rsa k =>
      obtain ⟨hfeature, hpolicy⟩ := hacceptable
      obtain ⟨-, ⟨he, hn⟩, -, -⟩ := RsaPublicKey.fromComponents_ok hpolicy
      simp only [blobFields, forall_mem_cons] at hshort
      simp only [keyType, hfeature, if_true]
      refine Except.map_ok_iff.mpr
        ⟨k, RsaPublicKey.fromBlob_ok_iff.mpr ⟨halgorithm, k.e, k.n, hpolicy,
        name, ?_, hname, ⟨he, hshort.2.1⟩, hn, hshort.2.2.1⟩, rfl⟩
      simpa [blobFields] using heq
    | ecdsaP256 k =>
      obtain ⟨hfeature, hhead⟩ := hacceptable
      simp only [blobFields, forall_mem_cons] at hshort
      simp only [keyType, hfeature, if_true]
      refine Except.map_ok_iff.mpr ⟨k, EcdsaP256PublicKey.fromBlob_ok_iff.mpr ⟨halgorithm, _,
        EcdsaP256PublicKey.fromPoint_ok_iff.mpr ⟨rfl, hhead⟩, name, ?_, hname, hshort.2.2.1⟩, rfl⟩
      simpa [blobFields] using heq

/-- **Blobs are canonical**: `parse` accepts exactly what `to_blob` writes for an acceptable key. -/
theorem parse_canonical (C : Crypto) : Canonical (parse C) toBlob (Acceptable C) := by
  intro bytes key
  obtain ⟨rest, hfields⟩ := blobFields_eq key
  rw [parse_ok_iff]
  constructor
  · rintro ⟨_, hblob, hkey⟩
    obtain ⟨rfl, hlt, hdecoded⟩ := PublicKeyBlob.decode_ok_iff.mp hblob
    obtain ⟨halgorithm, hacceptable, _, hname, heq⟩ := fromBlob_ok_iff.mp hkey
    -- both reads of the name see the same bytes
    obtain ⟨rfl, -⟩ := lengthPrefixed_append_inj hlt hname (hdecoded.symm.trans heq)
    refine ⟨hacceptable, ?_⟩
    rw [hacceptable.toBlob_eq, heq, hfields, halgorithm, tail_cons, flatMap_cons]
  · rintro ⟨hacceptable, rfl⟩
    have hname : key.keyType.name.length < 2 ^ 32 :=
      hacceptable.fields_lt _ (by rw [hfields]; exact mem_cons_self)
    have heq : key.toBlob = lengthPrefixed key.keyType.name ++ rest.flatMap lengthPrefixed := by
      rw [hacceptable.toBlob_eq, hfields, flatMap_cons]
    refine ⟨⟨key.keyType.name, rest.flatMap lengthPrefixed, key.toBlob⟩,
      PublicKeyBlob.decode_ok_iff.mpr ⟨rfl, hname, heq⟩,
      fromBlob_ok_iff.mpr ⟨rfl, hacceptable, key.keyType.name, hname, ?_⟩⟩
    rw [hfields, tail_cons]
    exact heq

end HostKey

end Tatami.Keys
