import Tatami.Keys.KnownHostsDecision
import Tatami.Quic.HostKeyVerifier

/-! # Host trust selection

One `TrustConfig` per run: a pinned fingerprint, or a `known_hosts` file that is read and bound to
the host and the port before any connection. The policy that `prepare` makes of it is handed to both
transports. What it comes down to is `Vouches`, which speaks of the configuration and the lines of
the file only: over either transport a host key is trusted exactly if it is vouched for
(`trust_config_decides`). -/

namespace Tatami

open Keys Tcp Quic Fallible

/-! ### Pinned fingerprints -/

/-- Equality of fingerprints, over every byte with no early exit. -/
def Sha256Fingerprint.eq (a b : Sha256Fingerprint) : Bool :=
  (a.toBytes.zip b.toBytes).foldl (fun acc p => acc ||| (p.1 ^^^ p.2)) 0 == 0

/-- The loop ends with zero exactly if it began with zero and the bytes of every pair are equal. -/
theorem foldl_or_xor_eq_zero_iff {pairs : List (UInt8 × UInt8)} {acc : UInt8} :
    pairs.foldl (fun acc p => acc ||| (p.1 ^^^ p.2)) acc = 0 ↔
      acc = 0 ∧ ∀ p ∈ pairs, p.1 = p.2 := by
  induction pairs generalizing acc with
  | nil => simp
  | cons p _ ih => simp [ih, UInt8.or_eq_zero_iff, and_assoc]

/-- The loop decides equality. -/
theorem Sha256Fingerprint.eq_iff {a b : Sha256Fingerprint} :
    Sha256Fingerprint.eq a b = true ↔ a = b := by
  rw [Sha256Fingerprint.eq, beq_iff_eq, foldl_or_xor_eq_zero_iff, and_iff_right rfl]
  constructor
  · intro hpairs
    refine ByteVec.ext (List.ext_getElem (by simp) fun i hi _ => ?_)
    have hpair := List.getElem_mem (l := a.toBytes.zip b.toBytes) (n := i) (by simpa using hi)
    simpa using hpairs _ hpair
  · rintro rfl p hp
    obtain ⟨i, _, rfl⟩ := List.getElem_of_mem hp
    simp

/-- `PinnedSha256` trusts exactly one fingerprint. -/
def PinnedSha256.decide (pin : Sha256Fingerprint) (host : HostIdentity) : TrustDecision :=
  if Sha256Fingerprint.eq pin host.sha256 then .trusted .pinnedFingerprint
  else .untrusted .fingerprintMismatch

/-! ### The configuration -/

/-- How the host key is judged. -/
inductive TrustConfig where
  | pin (fingerprint : Sha256Fingerprint)
  | knownHostsFile (path : String)

/-- A trust configuration that cannot be used. -/
inductive TrustConfigError (φ : Type) where
  | file (error : φ)
  | malformed (path : String) (error : KnownHostsError)
  | lookupName (error : LookupNameError)

/-- A policy ready to hand to a verifier. -/
structure PreparedTrust where
  policy : HostIdentity → TrustDecision
  lookupName : Option Bytes

variable {φ : Type} (C : Crypto) (K : Compat) (readBounded : String → Nat → Except φ Bytes)
  (host : Bytes) (port : UInt16)

/-- Builds the policy for a host and a port; a file is read and validated now. -/
def TrustConfig.prepare : TrustConfig → Fallible (TrustConfigError φ) PreparedTrust
  | .pin fingerprint => pure ⟨PinnedSha256.decide fingerprint, none⟩
  | .knownHostsFile path => do
    let limits : Limits := {}
    let bytes ← (liftM (readBounded path limits.maxFileBytes) : Fallible φ Bytes).adapt .file
    let parsed ← (KnownHosts.parse C K bytes limits).adapt (.malformed path)
    let policy ← (liftM (parsed.policyFor K host port) : Fallible _ _).adapt .lookupName
    pure ⟨policy.decide, some policy.lookupName⟩

/-- What the configuration says of a key: it has the pinned fingerprint, or a line of the file that
applies to the host lists it and none revokes it. -/
def TrustConfig.Vouches (blob : Bytes) : TrustConfig → Prop
  | .pin fingerprint => fingerprint = C.sha256 blob
  | .knownHostsFile path => ∃ bytes name, readBounded path 1048576 = .ok bytes ∧
    lookupName host port = .ok name ∧
    (∃ line ∈ contentLines (bytes.splitOn 10) 1, ∃ type, Says K name line.2 .none type blob) ∧
    ∀ line ∈ contentLines (bytes.splitOn 10) 1, ∀ type, ¬ Says K name line.2 .revoked type blob

variable {C K readBounded host port}

/-- The documented decision is to trust exactly if a line lists the key and none revokes it. -/
theorem isTrusted_verdict_iff {findings : List Finding} :
    (Keys.verdict findings).isTrusted = true ↔
      (∃ f ∈ findings, f.lists = true) ∧ ∀ f ∈ findings, f.revokes = false := by
  unfold Keys.verdict
  grind [TrustDecision.isTrusted]

/-- A prepared policy trusts exactly the keys that are vouched for. -/
theorem isTrusted_policy_iff {config : TrustConfig} {prepared : PreparedTrust}
    (h : Gives (TrustConfig.prepare C K readBounded host port config) prepared)
    {identity : HostIdentity} (hsha256 : identity.sha256 = C.sha256 identity.blob) :
    (prepared.policy identity).isTrusted = true ↔
      config.Vouches C K readBounded host port identity.blob := by
  cases config with
  | pin fingerprint =>
    cases gives_pure_iff.mp h
    rw [TrustConfig.Vouches, ← hsha256, ← Sha256Fingerprint.eq_iff]
    cases heq : Sha256Fingerprint.eq fingerprint identity.sha256 <;>
      simp [PinnedSha256.decide, heq, TrustDecision.isTrusted]
  | knownHostsFile path =>
    obtain ⟨bytes, hread, h⟩ := gives_bind_iff.mp h
    obtain ⟨hosts, hparse, h⟩ := gives_bind_iff.mp h
    obtain ⟨policy, hpolicy, h⟩ := gives_bind_iff.mp h
    cases gives_pure_iff.mp h
    rw [gives_adapt_iff] at hread hparse hpolicy
    rw [gives_liftExcept_iff] at hread hpolicy
    obtain ⟨name, hname, rfl⟩ := KnownHosts.policyFor_ok_iff.mp hpolicy
    have hread : readBounded path 1048576 = .ok bytes := hread
    dsimp only
    rw [KnownHosts.decide_eq_documented hparse hname, documentedDecision, isTrusted_verdict_iff,
      List.forall_mem_map]
    simp [TrustConfig.Vouches, hread, hname, lineFinding]

/-- **The configuration decides over both transports.** Over QUIC a certificate is accepted exactly
if it is a supported key that is vouched for; whatever a client over TCP asks about is trusted
exactly if the host key of the verified reply is vouched for. -/
theorem trust_config_decides {config : TrustConfig} {prepared : PreparedTrust}
    (h : Gives (TrustConfig.prepare C K readBounded host port config) prepared) :
    (∀ spki, ((verifyServerCert C spki).under prepared.policy).1 = .ok () ↔
      ∃ key, hostKeyFromSpki C spki = .ok key ∧
        config.Vouches C K readBounded host port key.toBlob) ∧
    ∀ kS identity, AsksAbout C kS identity →
      ((prepared.policy identity.asIdentity).isTrusted = true ↔
        config.Vouches C K readBounded host port kS) := by
  refine ⟨fun spki => ?_, fun kS identity hasks => ?_⟩
  · rw [verifyServerCert]
    cases hspki : hostKeyFromSpki C spki with
    | error => simp [Consultation.under]
    | ok key =>
      simp only [Consultation.under, verdict_ok_iff, Except.ok.injEq, exists_eq_left']
      exact isTrusted_policy_iff h rfl
  · obtain ⟨blob, hdecode, rfl⟩ := hasks.eq
    obtain rfl := PublicKeyBlob.decode_ok_bytes hdecode
    exact isTrusted_policy_iff h rfl

/-! ### The reference server -/

/-- Texts of letters in place of base64, two for a byte: first all upper halves, then all lower. -/
def letterTexts : Compat where
  encode x := x.map (97 + · / 16) ++ x.map (97 + · % 16)
  decode x := some (List.zipWith (fun a b => (a - 97) * 16 + (b - 97)) (x.take (x.length / 2))
    (x.drop (x.length / 2)))
  decode_encode x := by
    have hbyte (b : UInt8) : (97 + b / 16 - 97) * 16 + (97 + b % 16 - 97) = b := by
      have hlt := b.toNat_lt
      simp only [UInt8.add_comm 97, UInt8.add_sub_cancel]
      exact UInt8.toNat_inj.mp (by simp; omega)
    have hhalf : (x.length + x.length) / 2 = x.length := by omega
    simp only [List.length_append, List.length_map, hhalf, List.take_left', List.drop_left',
      List.zipWith_map, List.zipWith_self, hbyte, List.map_id']
  hmacSha1 _ _ := ⟨List.replicate 20 0, List.length_replicate⟩
  featureHashedHosts := true

/-- What a call gave, if it did. -/
def given {ε α : Type} (x : Fallible ε α) : Option α :=
  match x.run with
  | .ok (.ok a) => some a
  | _ => none

/-- A computation that was evaluated to a value gives this value. -/
theorem gives_of_given {ε α : Type} {x : Fallible ε α} {a : α} (h : given x = some a) :
    Gives x a := by
  rw [given] at h
  split at h
  · rename_i hrun
    cases h
    exact hrun
  · cases h

/-- A disk on which every file lists the reference server. -/
def listed (_path : String) (_maxBytes : Nat) : Except Unit Bytes :=
  .ok (utf8 "# servers\nexample.com ssh-ed25519 " ++
    letterTexts.encode Reference.hostKeyBlob ++ [10])

/-- The key of the reference server is trusted where it is pinned, and where a file lists it for the
host over both transports. -/
theorem trust_config_decides_reference :
    (∃ prepared, Gives (TrustConfig.prepare reference letterTexts (fun _ _ => .error ()) [] 22
        (.pin (reference.sha256 (HostKey.ed25519 ⟨Reference.hostKey⟩).toBlob))) prepared ∧
      ((verifyServerCert reference (hostKeySpki (.ed25519 ⟨Reference.hostKey⟩))).under
        prepared.policy).1 = .ok ()) ∧
    ∃ prepared identity, Gives (TrustConfig.prepare reference letterTexts listed
        (utf8 "example.com") 22 (.knownHostsFile "known_hosts")) prepared ∧
      ((verifyServerCert reference (hostKeySpki (.ed25519 ⟨Reference.hostKey⟩))).under
        prepared.policy).1 = .ok () ∧
      AsksAbout reference Reference.hostKeyBlob identity ∧
      (prepared.policy identity.asIdentity).isTrusted = true := by
  constructor
  · refine Exists.imp (fun prepared hprepared => ⟨hprepared, ?_⟩) ⟨_, rfl⟩
    exact ((trust_config_decides hprepared).1 _).mpr ⟨_, hostKeyFromSpki_reference, rfl⟩
  · have haccepts : ((given (TrustConfig.prepare reference letterTexts listed
        (utf8 "example.com") 22 (.knownHostsFile "known_hosts"))).map fun prepared =>
          ((verifyServerCert reference (hostKeySpki (.ed25519 ⟨Reference.hostKey⟩))).under
            prepared.policy).1.toOption) = some (some ()) := by decide +kernel
    obtain ⟨prepared, hgiven, haccept⟩ := Option.map_eq_some_iff.mp haccepts
    have hprepared := gives_of_given hgiven
    obtain ⟨identity, hasks⟩ := exists_asksAbout
    obtain ⟨hquic, htcp⟩ := trust_config_decides hprepared
    have hok : ((verifyServerCert reference (hostKeySpki (.ed25519 ⟨Reference.hostKey⟩))).under
        prepared.policy).1 = .ok () := by
      generalize ((verifyServerCert _ _).under prepared.policy).1 = answer at haccept
      cases answer with
      | ok => rfl
      | error => cases haccept
    refine ⟨prepared, identity, hprepared, hok, hasks, (htcp _ _ hasks).mpr ?_⟩
    obtain ⟨key, hkey, hvouches⟩ := (hquic _).mp hok
    cases hostKeyFromSpki_reference.symm.trans hkey
    exact hvouches

end Tatami
