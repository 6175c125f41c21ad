import Tatami.Crypto

/-! # Host trust decisions

What a trust policy is asked about and what it can answer. Whether a verified key is trusted is a
separate step with its own input, the identity made from the complete blob. -/

namespace Tatami.Keys

/-- SHA-256 of a complete public-key blob. -/
abbrev Sha256Fingerprint := ByteVec 32

/-- What established trust in a host key. -/
inductive TrustSource where
  | pinnedFingerprint
  | knownHosts (line : Nat)
  deriving DecidableEq, Repr

/-- Why a host key was refused. -/
inductive UntrustedReason where
  | fingerprintMismatch
  | noPolicy
  | unknownHost
  | keyChanged (line : Nat)
  | revoked (line : Nat)
  | certificateAuthorityOnly
  | noKeyForAlgorithm
  | unsupportedIdentity
  deriving DecidableEq, Repr

/-- Outcome of a host trust decision. -/
inductive TrustDecision where
  | trusted (source : TrustSource)
  | untrusted (reason : UntrustedReason)
  deriving DecidableEq, Repr

/-- Whether a decision is to trust. -/
def TrustDecision.isTrusted : TrustDecision → Bool
  | .trusted _ => true
  | .untrusted _ => false

/-- What a policy gets to look at. -/
structure HostIdentity where
  algorithm : Bytes
  blob : Bytes
  sha256 : Sha256Fingerprint
  deriving DecidableEq, Repr

end Tatami.Keys
