import Tatami.Keys.Spki
import Tatami.Tcp.Handshake.Authentication

/-! # Host keys over QUIC

Over QUIC the server shows a raw public key, which `verify_server_cert` judges as an SSH host key:
it is converted strictly to its blob, and the policy that the TCP handshake would ask is asked about
the identity in it. The question is part of the model (`Consultation`), so that it can be said of a
certificate that no question was asked about it.

The two transports come to the identity by different encodings of the key. That they ask the same
question (`transports_judge_alike`) rests on both being canonical. -/

namespace Tatami.Quic

open Tatami.Wire Tatami.Keys Tatami.Tcp Reference

/-! ### The verifier -/

/-- A computation that may put one question to the trust policy. -/
inductive Consultation (α : Type) where
  /-- It is settled without a question. -/
  | settled (result : α)
  /-- The policy is asked about a host, and the answer decides. -/
  | ask (host : HostIdentity) (result : TrustDecision → α)

namespace Consultation

variable {α : Type}

/-- The result under a policy. -/
def under (policy : HostIdentity → TrustDecision) : Consultation α → α
  | .settled result => result
  | .ask host result => result (policy host)

/-- What the policy is asked about, if it is asked. -/
def asked : Consultation α → Option HostIdentity
  | .settled _ => none
  | .ask host _ => some host

end Consultation

/-- What the verifier saw and decided, kept for the report. -/
inductive SshIdentityCheck where
  | judged (algorithm : String) (blob : Bytes) (fingerprint : Sha256Fingerprint)
      (decision : TrustDecision)
  | notConvertible (reason : String)
  deriving DecidableEq, Repr

/-- Why a certificate was refused. -/
inductive CertificateError where
  | badEncoding
  /-- The policy refused the key. -/
  | hostNotTrusted (reason : UntrustedReason)
  deriving DecidableEq, Repr

/-- What the decision of the policy means for the certificate. -/
def verdict : TrustDecision → Except CertificateError Unit
  | .trusted _ => .ok ()
  | .untrusted reason => .error (.hostNotTrusted reason)

/-- Judges the raw public key of the server: the result, and what is recorded in the slot. -/
def verifyServerCert (C : Crypto) (endEntity : Bytes) :
    Consultation (Except CertificateError Unit × SshIdentityCheck) :=
  match hostKeyFromSpki C endEntity with
  | .error e => .settled (.error .badEncoding, .notConvertible e.display)
  | .ok key =>
    let blob := key.toBlob
    let fingerprint := C.sha256 blob
    .ask { algorithm := key.algorithm, blob, sha256 := fingerprint } fun decision =>
      (verdict decision, .judged (fromUtf8Lossy key.keyType.name) blob fingerprint decision)

/-! ### The question over TCP -/

/-- Some run of a client over TCP asks the policy about `identity`, with `kS` the host key blob of
the reply it verified. -/
def AsksAbout (C : Crypto) (kS : Bytes) (identity : HostIdentityOwned) : Prop :=
  ∃ (ρ ε : Type) (tryFillBytes : (n : Nat) → ρ → Except ε (ByteVec n × ρ))
    (config : HandshakeConfig) (rng : ρ) (provider : Option SignatureProvider)
    (h h' h'' : ClientHandshake) (events : List Event) (v : Verified),
    build C tryFillBytes config rng provider = .ok (.ok h) ∧ Run (Calls C) h events h' ∧
    h'.step C = .ok (.trustDecisionRequired identity, h'') ∧
    h''.state.hist.verified = some v ∧ v.reply.hostKeyBlob = kS

/-- What a client asks about is the owned identity of the blob. -/
theorem AsksAbout.eq {C : Crypto} {kS : Bytes} {identity : HostIdentityOwned}
    (h : AsksAbout C kS identity) : ∃ blob, PublicKeyBlob.decode kS = .ok blob ∧
      identity = ⟨fromUtf8Lossy blob.algorithm, blob.bytes, C.sha256 blob.bytes⟩ := by
  obtain ⟨ρ, ε, _, _, _, _, h, h', h'', _, v, hb, hrun, hstep, hv,
    rfl⟩ := h
  have hbuilt := build_ok hb
  obtain ⟨⟨_, state, _⟩, hloop, heq⟩ := Checked.bind_ok_iff.mp hstep
  cases heq
  obtain ⟨hsetup, hmoves, -⟩ := run_effect hbuilt.basic hrun
  have hbasic := hbuilt.basic.moves hmoves
  obtain ⟨hmore, hcase, -⟩ := stepLoop_moves hbasic hloop
  have hverification : Verification C h'.setup state :=
    hmore.invariant hbasic (hsetup ▸ (run_invariants hbuilt hrun).verification)
      fun _ ht hm => ht.move hm
  cases hcase with
  | ask _ _ _ hidentity =>
    obtain ⟨_, hidentity', hpresents⟩ := hverification.presented v hv
    obtain rfl := Option.some.inj (hidentity.symm.trans hidentity')
    exact hpresents

/-! ### The same question -/

/-- A blob of a key decodes to the name of its type. -/
theorem decode_of_parse {C : Crypto} {blob : Bytes} {key : HostKey}
    (h : HostKey.parse C blob = .ok key) :
    ∃ b, PublicKeyBlob.decode blob = .ok b ∧ b.algorithm = key.algorithm ∧ b.bytes = blob := by
  obtain ⟨b, hdecode, hkey⟩ := HostKey.parse_ok_iff.mp h
  exact ⟨b, hdecode, (HostKey.fromBlob_ok_iff.mp hkey).1, PublicKeyBlob.decode_ok_bytes hdecode⟩

/-- A certificate is accepted exactly if the key is trusted. -/
theorem verdict_ok_iff (decision : TrustDecision) :
    verdict decision = .ok () ↔ decision.isTrusted = true := by
  cases decision with
  | trusted => exact ⟨fun _ => rfl, fun _ => rfl⟩
  | untrusted => exact ⟨nofun, nofun⟩

/-- The identity over QUIC is the one in any blob of the same key. -/
theorem verifyServerCert_ask {C : Crypto} {spki blob : Bytes} {key : HostKey}
    (hspki : hostKeyFromSpki C spki = .ok key) (hblob : HostKey.parse C blob = .ok key) :
    ∃ b, PublicKeyBlob.decode blob = .ok b ∧
      verifyServerCert C spki = .ask (HostIdentity.fromBlob C b) fun decision =>
        (verdict decision,
          .judged (fromUtf8Lossy key.keyType.name) blob (C.sha256 blob) decision) := by
  obtain ⟨b, hdecode, halgorithm, hbytes⟩ := decode_of_parse hblob
  have hencoded : key.toBlob = blob := (HostKey.parse_canonical C).encode_eq hblob
  refine ⟨b, hdecode, ?_⟩
  rw [verifyServerCert, hspki]
  simp only [HostIdentity.fromBlob, halgorithm, hbytes, hencoded]

/-- **TCP and QUIC judge a host key alike.** When a raw public key and a blob stand for the same
key, the verifier asks the policy about the identity in the blob, which is what every client over
TCP asks about for that blob, and accepts exactly if the policy trusts it. A raw public key that is
not a supported key is refused without a question. -/
theorem transports_judge_alike (C : Crypto) (policy : HostIdentity → TrustDecision) :
    (∀ spki blob key, hostKeyFromSpki C spki = .ok key → HostKey.parse C blob = .ok key →
      ∃ b, PublicKeyBlob.decode blob = .ok b ∧
        (verifyServerCert C spki).asked = some (HostIdentity.fromBlob C b) ∧
        (∀ identity, AsksAbout C blob identity →
          identity.asIdentity = HostIdentity.fromBlob C b) ∧
        (((verifyServerCert C spki).under policy).1 = .ok () ↔
          (policy (HostIdentity.fromBlob C b)).isTrusted = true)) ∧
    (∀ spki e, hostKeyFromSpki C spki = .error e →
      (verifyServerCert C spki).asked = none ∧
        ((verifyServerCert C spki).under policy).1 = .error .badEncoding) := by
  refine ⟨fun spki blob key hspki hblob => ?_, fun spki e hspki => ?_⟩
  · obtain ⟨b, hdecode, hverify⟩ := verifyServerCert_ask hspki hblob
    refine ⟨b, hdecode, by rw [hverify]; rfl, fun identity hasks => ?_, ?_⟩
    · obtain ⟨b', hdecode', rfl⟩ := hasks.eq
      obtain rfl : b = b' := Except.ok.inj (hdecode.symm.trans hdecode')
      obtain ⟨b', hdecode', halgorithm, -⟩ := decode_of_parse hblob
      obtain rfl : b = b' := Except.ok.inj (hdecode.symm.trans hdecode')
      have hname : utf8 (fromUtf8Lossy b.algorithm) = b.algorithm := by
        rw [halgorithm]
        exact utf8_fromUtf8Lossy (key.keyType.name_ascii)
      rw [HostIdentityOwned.asIdentity, HostIdentity.fromBlob, hname]
    · rw [hverify]
      exact verdict_ok_iff _
  · rw [verifyServerCert, hspki]
    exact ⟨rfl, rfl⟩

/-- The host key blob a client asks about in its next step, if it does. -/
def questionOf (C : Crypto) (h : ClientHandshake) : Option Bytes :=
  match h.step C with
  | .ok (.trustDecisionRequired _, h') => h'.state.hist.verified.map (·.reply.hostKeyBlob)
  | _ => none

/-- A client with a question asks about that blob. -/
theorem exists_step_of_questionOf {C : Crypto} {h : ClientHandshake} {kS : Bytes}
    (hq : questionOf C h = some kS) : ∃ identity h' v,
      h.step C = .ok (.trustDecisionRequired identity, h') ∧
      h'.state.hist.verified = some v ∧ v.reply.hostKeyBlob = kS := by
  rw [questionOf] at hq
  split at hq
  · rename_i identity h' hstep
    obtain ⟨v, hv, hkS⟩ := Option.map_eq_some_iff.mp hq
    exact ⟨identity, h', v, hstep, hv, hkS⟩
  · cases hq

/-- The reference client asks about its server's key. -/
theorem exists_asksAbout : ∃ identity, AsksAbout reference hostKeyBlob identity := by
  have hquestion : ∃ events h', Run (Calls reference) client events h' ∧
      questionOf reference h' = some hostKeyBlob :=
    exists_run untilAsked (questionOf reference) (by decide +kernel)
  obtain ⟨events, h', hrun, hq⟩ := hquestion
  obtain ⟨identity, h'', v, hstep, hv, hkS⟩ := exists_step_of_questionOf hq
  exact ⟨identity, _, _, entropy, config, 1, none, client, h', h'',
    events, v, build_client, hrun, hstep, hv, hkS⟩

/-- Its raw public key decodes to it. -/
theorem hostKeyFromSpki_reference :
    hostKeyFromSpki reference (hostKeySpki (.ed25519 ⟨hostKey⟩)) =
      .ok (.ed25519 ⟨hostKey⟩) :=
  (hostKeyFromSpki_canonical reference).decode_encode
    (show (HostKey.ed25519 ⟨hostKey⟩).Acceptable reference from
      (by decide +kernel : reference.ed25519Valid hostKey = true))

/-- The reference client asks about its server's key, and the verifier asks the same about the raw
public key. -/
theorem transports_judge_alike_reference :
    ∃ identity, AsksAbout reference hostKeyBlob identity ∧
      (verifyServerCert reference (hostKeySpki (.ed25519 ⟨hostKey⟩))).asked =
        some identity.asIdentity := by
  obtain ⟨identity, hasks⟩ := exists_asksAbout
  have hblob : HostKey.parse reference hostKeyBlob =
      .ok (.ed25519 ⟨hostKey⟩) := by decide +kernel
  obtain ⟨b, -, hasked, hsame, -⟩ := (transports_judge_alike reference fun _ =>
    .untrusted .noPolicy).1 _ _ _ hostKeyFromSpki_reference hblob
  exact ⟨identity, hasks, by rw [hasked, hsame identity hasks]⟩

end Tatami.Quic
