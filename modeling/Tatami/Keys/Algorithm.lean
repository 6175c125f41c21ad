import Tatami.Crypto
import Tatami.Lib.Utf8

/-! # Key types and signature schemes

A key type names a public-key blob format; a signature scheme names what the peers negotiate and
what a signature blob is labelled with. They coincide except for RSA, where one key type goes with
two schemes; the `ssh-rsa` signature scheme has no variant and can never be selected. -/

namespace Tatami.Keys

/-- A supported public-key blob format. -/
inductive KeyType where
  | ed25519
  | rsa
  | ecdsaP256
  deriving DecidableEq, Repr

/-- The blob algorithm name. -/
def KeyType.name : KeyType → Bytes
  | .ed25519 => utf8 "ssh-ed25519"
  | .rsa => utf8 "ssh-rsa"
  | .ecdsaP256 => utf8 "ecdsa-sha2-nistp256"

/-- The name of a key type is a name of ASCII bytes. -/
theorem KeyType.name_ascii (t : KeyType) : ∀ x ∈ t.name, x < 0x80 := by
  cases t <;> decide +kernel

/-- The key type of a name, whether or not it is enabled. -/
def KeyType.fromName (name : Bytes) : Option KeyType :=
  [KeyType.ed25519, .rsa, .ecdsaP256].find? fun k => k.name == name

/-- Whether this build has the key type's feature. -/
def KeyType.isEnabled (C : Crypto) : KeyType → Bool
  | .ed25519 => true
  | .rsa => C.featureRsa
  | .ecdsaP256 => C.featureEcdsaP256

/-- A supported host signature scheme. -/
inductive SignatureScheme where
  | ed25519
  | ecdsaP256Sha256
  | rsaSha2_512
  | rsaSha2_256
  deriving DecidableEq, Repr

namespace SignatureScheme

/-- Every scheme in the client's preference order. -/
def preference : List SignatureScheme := [.ed25519, .ecdsaP256Sha256, .rsaSha2_512, .rsaSha2_256]

/-- The wire name. -/
def name : SignatureScheme → Bytes
  | .ed25519 => utf8 "ssh-ed25519"
  | .ecdsaP256Sha256 => utf8 "ecdsa-sha2-nistp256"
  | .rsaSha2_512 => utf8 "rsa-sha2-512"
  | .rsaSha2_256 => utf8 "rsa-sha2-256"

/-- The scheme of a name, whether or not it is enabled. -/
def fromName (name : Bytes) : Option SignatureScheme :=
  preference.find? fun s => s.name == name

/-- The key type a scheme signs with. -/
def keyType : SignatureScheme → KeyType
  | .ed25519 => .ed25519
  | .ecdsaP256Sha256 => .ecdsaP256
  | .rsaSha2_512 => .rsa
  | .rsaSha2_256 => .rsa

/-- Whether this build has the feature of the scheme's key type. -/
def isEnabled (C : Crypto) (s : SignatureScheme) : Bool := s.keyType.isEnabled C

/-- Whether verification needs a provider of the host. -/
def needsProvider : SignatureScheme → Bool
  | .ed25519 => false
  | _ => true

/-- Every scheme is in the preference list. -/
theorem mem_preference (s : SignatureScheme) : s ∈ preference := by
  cases s <;> decide

/-- Looking a scheme's name up gives the scheme. -/
@[simp] theorem fromName_name (s : SignatureScheme) : fromName s.name = some s := by
  cases s <;> decide

end SignatureScheme

end Tatami.Keys
