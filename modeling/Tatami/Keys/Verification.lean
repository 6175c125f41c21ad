import Tatami.Keys.BlobCodec

/-! # Signature verification is exactly gated

`HostKey.verify` asks a provider of the host for every scheme but Ed25519. A provider may keep a
state of its own; `HostKey.verifyIn` passes it along, so that the calls of a run can be counted:

* `HostKey.verifyIn_toProvider`: with a provider that keeps no state it is `HostKey.verify`;
* `WellFormedRequest` says which question belongs to a key, a scheme and a signature, and
  `HostKey.plan_asks_iff` that the code asks that one or none;
* `verify_exactly_gated` puts the gates together. -/

namespace Tatami.Keys

open Tatami.Wire HostKey

/-! ### Providers with a state -/

variable {σ : Type}

/-- Verification supplied by the host, which may keep a state between its calls. -/
structure Provider (σ : Type) where
  supports : SignatureScheme → σ → Bool × σ
  verify : Bytes → ProviderRequest → σ → Bool × σ

/-- A provider that keeps no state. -/
def SignatureProvider.toProvider (p : SignatureProvider) : Provider Unit where
  supports scheme _ := (p.supports scheme, ())
  verify message request _ := (p.verify message request, ())

/-- The same provider with a log of what its `verify` was called with. -/
def Provider.logged (p : Provider σ) : Provider (σ × List (Bytes × ProviderRequest)) where
  supports scheme s := ((p.supports scheme s.1).1, (p.supports scheme s.1).2, s.2)
  verify message request s :=
    ((p.verify message request s.1).1, (p.verify message request s.1).2,
      s.2 ++ [(message, request)])

/-- One question to the provider; a refusal says nothing more. -/
def Provider.ask (p : Provider σ) (message : Bytes) (request : ProviderRequest) (s : σ) :
    Except VerifyError Unit × σ :=
  match p.verify message request s with
  | (true, s') => (.ok (), s')
  | (false, s') => (.error .invalid, s')

/-- `RsaPublicKey::verify` with a provider that has a state. -/
def RsaPublicKey.verifyIn (key : RsaPublicKey) (hash : RsaHash) (message signature : Bytes)
    (provider : Provider σ) (s : σ) : Except VerifyError Unit × σ :=
  let k := key.n.length
  if signature.isEmpty || k < signature.length then
    (.error (.malformedSignature (.wrongLength "signature" k signature.length)), s)
  else
    let padded := List.replicate (k - signature.length) 0 ++ signature
    provider.ask message (.rsaPkcs1v15 hash key.n key.e padded) s

/-- `EcdsaP256PublicKey::verify` with a provider that has a state. -/
def EcdsaP256PublicKey.verifyIn (key : EcdsaP256PublicKey) (message signature : Bytes)
    (provider : Provider σ) (s : σ) : Except VerifyError Unit × σ :=
  match fixedSignature signature with
  | .error e => (.error (.malformedSignature e), s)
  | .ok rs => provider.ask message (.ecdsaP256Sha256 key.point rs) s

/-- The provider, if there is one and it says that it supports the scheme. -/
def providerIn (scheme : SignatureScheme) (provider : Option (Provider σ)) (s : σ) :
    Except VerifyError (Provider σ) × σ :=
  match provider with
  | none => (.error (.providerUnavailable scheme.name), s)
  | some p =>
    match p.supports scheme s with
    | (true, s') => (.ok p, s')
    | (false, s') => (.error (.providerUnavailable scheme.name), s')

/-- `HostKey::verify` with a provider that has a state. -/
def HostKey.verifyIn (C : Crypto) (key : HostKey) (scheme : SignatureScheme) (message : Bytes)
    (sig : SignatureBlob) (provider : Option (Provider σ)) (s : σ) :
    Except VerifyError Unit × σ :=
  if sig.algorithm ≠ scheme.name then
    (.error (.unexpectedSignatureAlgorithm scheme.name sig.algorithm), s)
  else if scheme.keyType ≠ key.keyType then
    (.error (.algorithmMismatch key.keyType.name sig.algorithm), s)
  else
    match key with
    | .ed25519 key =>
      match ed25519Signature sig with
      | .error e => (.error (.malformedSignature e), s)
      | .ok signature =>
        (if C.ed25519Verify key.key message signature then .ok () else .error .invalid, s)
    | .rsa key =>
      let hash := if scheme = .rsaSha2_512 then RsaHash.sha512 else .sha256
      match providerIn scheme provider s with
      | (.error e, s') => (.error e, s')
      | (.ok p, s') => key.verifyIn hash message sig.signature p s'
    | .ecdsaP256 key =>
      match providerIn scheme provider s with
      | (.error e, s') => (.error e, s')
      | (.ok p, s') => key.verifyIn message sig.signature p s'

/-! ### What is decided without the provider -/

/-- What `HostKey::verify` does before a provider is needed: it decides, or it has a question, or
would have one if the signature were well formed. -/
inductive Plan where
  | decided (result : Except VerifyError Unit)
  | asks (question : Except VerifyError ProviderRequest)

/-- The question about an RSA signature. -/
def RsaPublicKey.question (key : RsaPublicKey) (hash : RsaHash) (signature : Bytes) :
    Except VerifyError ProviderRequest :=
  if signature.isEmpty || key.n.length < signature.length then
    .error (.malformedSignature (.wrongLength "signature" key.n.length signature.length))
  else
    .ok (.rsaPkcs1v15 hash key.n key.e
      (List.replicate (key.n.length - signature.length) 0 ++ signature))

/-- The question about an ECDSA signature. -/
def EcdsaP256PublicKey.question (key : EcdsaP256PublicKey) (signature : Bytes) :
    Except VerifyError ProviderRequest :=
  match fixedSignature signature with
  | .error e => .error (.malformedSignature e)
  | .ok rs => .ok (.ecdsaP256Sha256 key.point rs)

/-- The plan for a key, a scheme and a signature. -/
def HostKey.plan (C : Crypto) (key : HostKey) (scheme : SignatureScheme) (message : Bytes)
    (sig : SignatureBlob) : Plan :=
  if sig.algorithm ≠ scheme.name then
    .decided (.error (.unexpectedSignatureAlgorithm scheme.name sig.algorithm))
  else if scheme.keyType ≠ key.keyType then
    .decided (.error (.algorithmMismatch key.keyType.name sig.algorithm))
  else
    match key with
    | .ed25519 key =>
      .decided (match ed25519Signature sig with
        | .error e => .error (.malformedSignature e)
        | .ok s => if C.ed25519Verify key.key message s then .ok () else .error .invalid)
    | .rsa key =>
      .asks (key.question (if scheme = .rsaSha2_512 then .sha512 else .sha256) sig.signature)
    | .ecdsaP256 key => .asks (key.question sig.signature)

/-- The rest of a plan, with a provider that has a state. -/
def Plan.run (scheme : SignatureScheme) (message : Bytes) (provider : Option (Provider σ)) (s : σ) :
    Plan → Except VerifyError Unit × σ
  | .decided result => (result, s)
  | .asks question =>
    match providerIn scheme provider s with
    | (.error e, s') => (.error e, s')
    | (.ok p, s') =>
      match question with
      | .error e => (.error e, s')
      | .ok request => p.ask message request s'

variable {C : Crypto} {key : HostKey} {scheme : SignatureScheme} {message : Bytes}
  {sig : SignatureBlob}

theorem HostKey.verifyIn_eq (provider : Option (Provider σ)) (s : σ) :
    key.verifyIn C scheme message sig provider s =
      (key.plan C scheme message sig).run scheme message provider s := by
  unfold verifyIn plan
  split
  · rfl
  split
  · rfl
  cases key with
  | ed25519 =>
    cases ed25519Signature sig <;> rfl
  | rsa =>
    simp only [Plan.run, RsaPublicKey.verifyIn, RsaPublicKey.question]
    split
    · rfl
    · split <;> rfl
  | ecdsaP256 =>
    simp only [Plan.run, EcdsaP256PublicKey.verifyIn, EcdsaP256PublicKey.question]
    split
    · rfl
    · cases fixedSignature sig.signature <;> rfl

/-- **With a provider that keeps no state, `verifyIn` is `HostKey::verify`**: both follow the
plan. -/
theorem HostKey.verifyIn_toProvider (provider : Option SignatureProvider) :
    (key.verifyIn C scheme message sig (provider.map SignatureProvider.toProvider) ()).1 =
      key.verify C scheme message sig provider := by
  have hprovider : providerIn scheme (provider.map SignatureProvider.toProvider) () =
      ((providerFor scheme provider).map SignatureProvider.toProvider, ()) := by
    cases provider with
    | none => rfl
    | some p =>
      cases hp : p.supports scheme <;>
        simp [providerIn, providerFor, SignatureProvider.toProvider, hp, Option.filter, Except.map]
  have hask (p : SignatureProvider) (request : ProviderRequest) :
      (p.toProvider.ask message request ()).1 =
        if p.verify message request then .ok () else .error .invalid := by
    cases hp : p.verify message request <;>
      simp [Provider.ask, SignatureProvider.toProvider, hp]
  rw [verifyIn_eq, eq_comm]
  unfold verify plan
  split
  · rfl
  split
  · rfl
  cases key with
  | ed25519 => rfl
  | rsa =>
    simp only [Plan.run, hprovider]
    cases providerFor scheme provider with
    | error => rfl
    | ok p =>
      simp only [RsaPublicKey.verify, RsaPublicKey.question, Except.map]
      split
      · rfl
      · exact (hask p _).symm
  | ecdsaP256 =>
    simp only [Plan.run, hprovider]
    cases providerFor scheme provider with
    | error => rfl
    | ok p =>
      simp only [EcdsaP256PublicKey.verify, EcdsaP256PublicKey.question, Except.map]
      cases fixedSignature sig.signature with
      | error => rfl
      | ok => exact (hask p _).symm

/-! ### The calls of a run -/

/-- **At most one question.** A logged run answers as the run itself; it asks nothing, or exactly
what its plan says. -/
theorem Plan.run_logged (plan : Plan) (scheme : SignatureScheme) (message : Bytes)
    (provider : Option (Provider σ)) (s : σ) :
    ∃ calls, plan.run scheme message (provider.map Provider.logged) (s, []) =
        ((plan.run scheme message provider s).1, (plan.run scheme message provider s).2, calls) ∧
      calls.length ≤ 1 ∧
      ∀ call ∈ calls, call.1 = message ∧ plan = .asks (.ok call.2) := by
  cases plan with
  | decided => exact ⟨[], rfl, by simp, by simp⟩
  | asks question =>
    cases provider with
    | none => exact ⟨[], rfl, by simp, by simp⟩
    | some p =>
      cases hp : p.supports scheme s with
      | mk supported s' =>
        cases supported with
        | false => exact ⟨[], by simp [Plan.run, providerIn, Provider.logged, hp], by simp, by simp⟩
        | true =>
          cases question with
          | error =>
            exact ⟨[], by simp [Plan.run, providerIn, Provider.logged, hp], by simp, by simp⟩
          | ok request =>
            refine ⟨[(message, request)], ?_, by simp, by simp⟩
            cases hv : p.verify message request s' with
            | mk accepted =>
              cases accepted <;>
                simp [Plan.run, providerIn, Provider.logged, Provider.ask, hp, hv]

/-- A plan ends well when it decided so, or when the provider supports the scheme and accepts. -/
theorem Plan.run_ok_iff (plan : Plan) (provider : Option (Provider σ)) (s : σ) :
    (plan.run scheme message provider s).1 = .ok () ↔
      plan = .decided (.ok ()) ∨
      ∃ p request s', provider = some p ∧ p.supports scheme s = (true, s') ∧
        plan = .asks (.ok request) ∧ (p.verify message request s').1 = true := by
  cases plan with
  | decided => simp [Plan.run]
  | asks question =>
    cases provider with
    | none => simp [Plan.run, providerIn]
    | some p =>
      cases hp : p.supports scheme s with
      | mk supported s' =>
        cases supported with
        | false => simp [Plan.run, providerIn, hp]
        | true =>
          cases question with
          | error => simp [Plan.run, providerIn, hp]
          | ok request =>
            cases hv : p.verify message request s' with
            | mk accepted =>
              cases accepted <;> simp [Plan.run, providerIn, Provider.ask, hp, hv]

/-! ### Well-formed questions -/

/-- A positive integer as a minimal `mpint`. -/
def mpint (magnitude : Bytes) : Bytes := lengthPrefixed (mpintPositiveBody magnitude)

/-- The hash of an RSA scheme. -/
def SignatureScheme.rsaHash : SignatureScheme → Option RsaHash
  | .rsaSha2_256 => some .sha256
  | .rsaSha2_512 => some .sha512
  | _ => none

/-- The question that belongs to a key, a scheme and the signature bytes. -/
def WellFormedRequest (key : HostKey) (scheme : SignatureScheme) (signature : Bytes) :
    ProviderRequest → Prop
  | .rsaPkcs1v15 hash modulus exponent padded =>
    ∃ k, key = .rsa k ∧ scheme.rsaHash = some hash ∧ modulus = k.n ∧ exponent = k.e ∧
      1 ≤ signature.length ∧ signature.length ≤ k.n.length ∧
      padded = List.replicate (k.n.length - signature.length) 0 ++ signature ∧
      padded.length = k.n.length ∧ beNat padded = beNat signature
  | .ecdsaP256Sha256 point rs =>
    ∃ k r s, key = .ecdsaP256 k ∧ scheme = .ecdsaP256Sha256 ∧ point = k.point ∧
      Magnitude r ∧ Magnitude s ∧ r.length ≤ 32 ∧ s.length ≤ 32 ∧ signature = mpint r ++ mpint s ∧
      beNat (rs.toBytes.take 32) = beNat r ∧ beNat (rs.toBytes.drop 32) = beNat s

/-- A scalar is padded when it is not too long. -/
theorem fixedScalar_ok_iff {field : String} {value : Bytes} {v : ByteVec 32} :
    fixedScalar field value = .ok v ↔ value.length ≤ 32 ∧ beNat v.toBytes = beNat value := by
  unfold fixedScalar
  by_cases hlong : 32 < value.length
  · rw [dif_pos hlong]
    exact ⟨nofun, fun h => absurd h.1 (Nat.not_le.mpr hlong)⟩
  · rw [dif_neg hlong]
    constructor
    · intro h
      cases h
      exact ⟨Nat.not_lt.mp hlong, beNat_replicate_append _ value⟩
    · rintro ⟨-, hvalue⟩
      refine congrArg Except.ok (ByteVec.ext (bytes_eq_of_beNat_eq ?_ ?_))
      · exact (ByteVec.length_toBytes _).trans (ByteVec.length_toBytes v).symm
      · exact (beNat_replicate_append _ value).trans hvalue.symm

/-- **What `fixed_signature` accepts**: two minimal positive integers of at most 32 bytes, as the
same two integers at fixed width. -/
theorem fixedSignature_ok_iff {inner : Bytes} {rs : ByteVec 64} :
    fixedSignature inner = .ok rs ↔
      ∃ r s, Magnitude r ∧ Magnitude s ∧ r.length ≤ 32 ∧ s.length ≤ 32 ∧
        inner = mpint r ++ mpint s ∧
        beNat (rs.toBytes.take 32) = beNat r ∧ beNat (rs.toBytes.drop 32) = beNat s := by
  have hdecode {r s : Bytes} : ((do
      let r ← positiveMpint "r"
      let s ← positiveMpint "s"
      blobFinish.mapError KeyError.blob
      pure (r, s) : Decoder KeyError (Bytes × Bytes)) (Reader.new inner)).1 = .ok (r, s) ↔
      inner = mpint r ++ mpint s ∧ (Magnitude r ∧ (mpintPositiveBody r).length < 2 ^ 32) ∧
        Magnitude s ∧ (mpintPositiveBody s).length < 2 ^ 32 := by
    refine Cursor.fst_ok_iff.trans ((Decodes.bindAll (decodes_positiveMpint _) fun r =>
      Decodes.bindAll (decodes_positiveMpint _) fun s =>
      decodesAll_end (r, s) (Cursor.mapError_ok_iff.trans blobFinish_ok_iff)).trans ?_)
    simp [Format.bind, Format.pure, magnitudeFormat, mpint]
  unfold fixedSignature
  constructor
  · intro h
    dsimp only at h
    split at h
    · cases h
    · next r s hrs =>
      obtain ⟨hinner, ⟨hr, -⟩, hs, -⟩ := hdecode.mp hrs
      split at h
      · cases h
      · next r' hr' =>
        split at h
        · cases h
        · next s' hs' =>
          cases h
          obtain ⟨hrlen, hrvalue⟩ := fixedScalar_ok_iff.mp hr'
          obtain ⟨hslen, hsvalue⟩ := fixedScalar_ok_iff.mp hs'
          refine ⟨r, s, hr, hs, hrlen, hslen, hinner, ?_, ?_⟩
          · rw [← hrvalue]
            exact congrArg beNat (List.take_left' r'.length_toBytes)
          · rw [← hsvalue]
            exact congrArg beNat (List.drop_left' r'.length_toBytes)
  · rintro ⟨r, s, hr, hs, hrlen, hslen, hinner, hrvalue, hsvalue⟩
    have hshort {m : Bytes} (hm : m.length ≤ 32) : (mpintPositiveBody m).length < 2 ^ 32 :=
      Nat.lt_of_le_of_lt (length_mpintPositiveBody_le m) (by omega)
    have hlen := rs.length_toBytes
    have htake : (rs.toBytes.take 32).length = 32 := by rw [List.length_take, hlen]; rfl
    have hdrop : (rs.toBytes.drop 32).length = 32 := by rw [List.length_drop, hlen]
    have hr' : fixedScalar "r" r = .ok ⟨_, htake⟩ := fixedScalar_ok_iff.mpr ⟨hrlen, hrvalue⟩
    have hs' : fixedScalar "s" s = .ok ⟨_, hdrop⟩ := fixedScalar_ok_iff.mpr ⟨hslen, hsvalue⟩
    simp only [hdecode.mpr ⟨hinner, ⟨hr, hshort hrlen⟩, hs, hshort hslen⟩, hr', hs']
    exact congrArg Except.ok (ByteVec.ext (List.take_append_drop 32 rs.toBytes))

/-- Distinct signatures are distinct at fixed width. -/
theorem fixedSignature_inj {a b : Bytes} {rs : ByteVec 64} (ha : fixedSignature a = .ok rs)
    (hb : fixedSignature b = .ok rs) : a = b := by
  obtain ⟨r, s, hr, hs, -, -, rfl, hrvalue, hsvalue⟩ := fixedSignature_ok_iff.mp ha
  obtain ⟨_, _, hr', hs', -, -, rfl, hrvalue', hsvalue'⟩ := fixedSignature_ok_iff.mp hb
  rw [hr.eq_of_beNat_eq hr' (hrvalue.symm.trans hrvalue'),
    hs.eq_of_beNat_eq hs' (hsvalue.symm.trans hsvalue')]

/-- The question about an RSA signature, when its length is right. -/
theorem RsaPublicKey.question_ok_iff {key : RsaPublicKey} {hash : RsaHash} {signature : Bytes}
    {request : ProviderRequest} :
    key.question hash signature = .ok request ↔
      (1 ≤ signature.length ∧ signature.length ≤ key.n.length) ∧
      request = .rsaPkcs1v15 hash key.n key.e
        (List.replicate (key.n.length - signature.length) 0 ++ signature) := by
  unfold RsaPublicKey.question
  have hcondition : (signature.isEmpty || decide (key.n.length < signature.length)) = false ↔
      1 ≤ signature.length ∧ signature.length ≤ key.n.length := by
    rw [Bool.or_eq_false_iff, List.isEmpty_eq_false_iff, decide_eq_false_iff_not, Nat.not_lt,
      Nat.one_le_iff_ne_zero, ne_eq, ne_eq, List.length_eq_zero_iff]
  split
  · next hbad =>
    refine ⟨nofun, fun h => ?_⟩
    rw [hcondition.mpr h.1] at hbad
    cases hbad
  · next hgood =>
    rw [Except.ok.injEq, eq_comm]
    exact ⟨fun h => ⟨hcondition.mp (Bool.eq_false_iff.mpr hgood), h⟩, fun h => h.2⟩

/-- The code's question is the well-formed one. -/
theorem HostKey.plan_asks_iff {request : ProviderRequest} :
    key.plan C scheme message sig = .asks (.ok request) ↔
      sig.algorithm = scheme.name ∧ scheme.keyType = key.keyType ∧
        WellFormedRequest key scheme sig.signature request := by
  unfold plan
  split
  · next hlabel => exact ⟨nofun, fun h => absurd h.1 hlabel⟩
  split
  · next htype => exact ⟨nofun, fun h => absurd h.2.1 htype⟩
  next hlabel htype =>
  rw [not_not] at hlabel htype
  cases key with
  | ed25519 =>
    refine ⟨nofun, fun ⟨_, _, h⟩ => ?_⟩
    cases request with
    | rsaPkcs1v15 => obtain ⟨_, hkey, -⟩ := h; cases hkey
    | ecdsaP256Sha256 => obtain ⟨_, _, _, hkey, -⟩ := h; cases hkey
  | rsa key =>
    have hhash : scheme.rsaHash = some (if scheme = .rsaSha2_512 then .sha512 else .sha256) := by
      cases scheme <;> first | rfl | cases htype
    rw [Plan.asks.injEq, RsaPublicKey.question_ok_iff]
    constructor
    · rintro ⟨⟨hone, hle⟩, rfl⟩
      refine ⟨hlabel, htype, key, rfl, hhash, rfl, rfl, hone, hle, rfl, ?_,
        beNat_replicate_append _ _⟩
      rw [List.length_append, List.length_replicate]
      omega
    · rintro ⟨-, -, h⟩
      cases request with
      | ecdsaP256Sha256 => obtain ⟨_, _, _, hkey, -⟩ := h; cases hkey
      | rsaPkcs1v15 =>
        obtain ⟨k, hkey, hscheme, rfl, rfl, hone, hle, rfl, -⟩ := h
        cases hkey
        cases hhash.symm.trans hscheme
        exact ⟨⟨hone, hle⟩, rfl⟩
  | ecdsaP256 key =>
    have hscheme : scheme = .ecdsaP256Sha256 := by
      cases scheme <;> first | rfl | cases htype
    rw [Plan.asks.injEq, EcdsaP256PublicKey.question]
    constructor
    · intro h
      split at h
      · cases h
      · next rs hrs =>
        cases h
        obtain ⟨r, s, hr, hs, hrlen, hslen, hinner, hvalues⟩ := fixedSignature_ok_iff.mp hrs
        exact ⟨hlabel, htype, key, r, s, rfl, hscheme, rfl, hr, hs, hrlen, hslen, hinner, hvalues⟩
    · rintro ⟨-, -, h⟩
      cases request with
      | rsaPkcs1v15 => obtain ⟨_, hkey, -⟩ := h; cases hkey
      | ecdsaP256Sha256 =>
        obtain ⟨k, r, s, hkey, -, rfl, hr, hs, hrlen, hslen, hinner, hvalues⟩ := h
        cases hkey
        rw [fixedSignature_ok_iff.mpr ⟨r, s, hr, hs, hrlen, hslen, hinner, hvalues⟩]

/-- The signature of an `ssh-ed25519` blob is its 64 bytes. -/
theorem ed25519Signature_ok_iff {blob : SignatureBlob} {v : ByteVec 64}
    (hlabel : blob.algorithm = utf8 "ssh-ed25519") :
    ed25519Signature blob = .ok v ↔ v.toBytes = blob.signature := by
  rw [ed25519Signature, if_neg (not_not.mpr hlabel), ← ByteVec.ofBytes?_eq_some_iff]
  cases ByteVec.ofBytes? 64 blob.signature with
  | none => exact ⟨nofun, nofun⟩
  | some => rw [Except.ok.injEq, Option.some.injEq]

/-- Only an Ed25519 signature is accepted without a provider. -/
theorem HostKey.plan_accepts_iff :
    key.plan C scheme message sig = .decided (.ok ()) ↔
      sig.algorithm = scheme.name ∧ scheme.keyType = key.keyType ∧
        ∃ k signature, key = .ed25519 k ∧ sig.signature = ByteVec.toBytes signature ∧
          C.ed25519Verify k.key message signature = true := by
  unfold plan
  split
  · next hlabel => exact ⟨nofun, fun h => absurd h.1 hlabel⟩
  split
  · next htype => exact ⟨nofun, fun h => absurd h.2.1 htype⟩
  next hlabel htype =>
  rw [not_not] at hlabel htype
  cases key with
  | rsa | ecdsaP256 => exact ⟨nofun, fun ⟨_, _, _, _, hkey, _⟩ => by cases hkey⟩
  | ed25519 key =>
    have hscheme : scheme = .ed25519 := by
      cases scheme <;> first | rfl | cases htype
    subst hscheme
    rw [Plan.decided.injEq]
    constructor
    · intro h
      split at h
      · cases h
      · next signature hsig =>
        split at h
        · next hverify =>
          have hbytes := ((ed25519Signature_ok_iff hlabel).mp hsig).symm
          exact ⟨hlabel, htype, key, signature, rfl, hbytes, hverify⟩
        · cases h
    · rintro ⟨-, -, k, signature, hkey, hsig, hverify⟩
      cases hkey
      rw [(ed25519Signature_ok_iff hlabel).mpr hsig.symm]
      exact if_pos hverify

/-- The gates an accepted signature passed, and that they are all there are. -/
theorem HostKey.verifyIn_ok_iff (provider : Option (Provider σ)) (s : σ) :
    (key.verifyIn C scheme message sig provider s).1 = .ok () ↔
      sig.algorithm = scheme.name ∧ scheme.keyType = key.keyType ∧
      ((∃ k signature, key = .ed25519 k ∧ sig.signature = ByteVec.toBytes signature ∧
          C.ed25519Verify k.key message signature = true) ∨
        ∃ p request s', provider = some p ∧ p.supports scheme s = (true, s') ∧
          WellFormedRequest key scheme sig.signature request ∧
          (p.verify message request s').1 = true) := by
  rw [verifyIn_eq, Plan.run_ok_iff]
  simp only [plan_accepts_iff, plan_asks_iff]
  constructor
  · rintro (⟨hlabel, htype, haccepts⟩ | ⟨p, request, s', hp, hs, ⟨hlabel, htype, hrequest⟩, hv⟩)
    · exact ⟨hlabel, htype, .inl haccepts⟩
    · exact ⟨hlabel, htype, .inr ⟨p, request, s', hp, hs, hrequest, hv⟩⟩
  · rintro ⟨hlabel, htype, haccepts | ⟨p, request, s', hp, hs, hrequest, hv⟩⟩
    · exact .inl ⟨hlabel, htype, haccepts⟩
    · exact .inr ⟨p, request, s', hp, hs, ⟨hlabel, htype, hrequest⟩, hv⟩

/-- **Signature verification is exactly gated.** A signature is accepted exactly when its label is
the scheme's name, the key is of the scheme's type, and either it is an Ed25519 signature the
library accepts, or the provider supports the scheme and accepts the well-formed question. The
provider is asked at most once, and only that question; the fixed width keeps signatures apart; and
the label `ssh-rsa` is never accepted. -/
theorem verify_exactly_gated (C : Crypto) (key : HostKey) (scheme : SignatureScheme)
    (message : Bytes) (sig : SignatureBlob) (provider : Option (Provider σ)) (s : σ) :
    ((key.verifyIn C scheme message sig provider s).1 = .ok () ↔
      sig.algorithm = scheme.name ∧ scheme.keyType = key.keyType ∧
      ((∃ k signature, key = .ed25519 k ∧ sig.signature = ByteVec.toBytes signature ∧
          C.ed25519Verify k.key message signature = true) ∨
        ∃ p request s', provider = some p ∧ p.supports scheme s = (true, s') ∧
          WellFormedRequest key scheme sig.signature request ∧
          (p.verify message request s').1 = true)) ∧
    (∃ calls, key.verifyIn C scheme message sig (provider.map Provider.logged) (s, []) =
        ((key.verifyIn C scheme message sig provider s).1,
          (key.verifyIn C scheme message sig provider s).2, calls) ∧
      calls.length ≤ 1 ∧
      ∀ call ∈ calls, call.1 = message ∧ WellFormedRequest key scheme sig.signature call.2) ∧
    (∀ a b rs, fixedSignature a = .ok rs → fixedSignature b = .ok rs → a = b) ∧
    (sig.algorithm = utf8 "ssh-rsa" →
      (key.verifyIn C scheme message sig provider s).1 ≠ .ok ()) := by
  refine ⟨verifyIn_ok_iff provider s, ?_, fun a b rs => fixedSignature_inj,
    fun hlabel hok => ?_⟩
  · obtain ⟨calls, hrun, hlen, hcalls⟩ :=
      (key.plan C scheme message sig).run_logged scheme message provider s
    refine ⟨calls, ?_, hlen, fun call hcall => ?_⟩
    · rw [verifyIn_eq, verifyIn_eq]
      exact hrun
    · obtain ⟨hmessage, hplan⟩ := hcalls call hcall
      exact ⟨hmessage, (plan_asks_iff.mp hplan).2.2⟩
  · -- no scheme has that name
    have hname := ((verifyIn_ok_iff provider s).mp hok).1
    rw [hlabel] at hname
    cases scheme <;> revert hname <;> decide

end Tatami.Keys
