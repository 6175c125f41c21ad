import Tatami.Lib.Octets

/-! # Third-party primitives

The cryptographic crates the program links against, as a parameter of the model: nothing is assumed
about them beyond their types, and a result that needs more names the law it needs. An operation
that works in place keeps the length of its buffer, which is in its type here. -/

namespace Tatami

/-- Length of an AEAD tag. -/
def tagLen : Nat := 16

/-- The primitives of `sha2`, `x25519-dalek`, `aes-gcm` and `ed25519-dalek`, and the key-type
features a build was made with (`ed25519` is part of the `kex` feature and always on). -/
structure Crypto where
  /-- SHA-256 of everything the hasher was fed. -/
  sha256 : Bytes → ByteVec 32
  /-- The X25519 public value of a scalar. -/
  x25519Public : ByteVec 32 → ByteVec 32
  /-- The X25519 shared secret of a scalar and a public value. -/
  diffieHellman : ByteVec 32 → ByteVec 32 → ByteVec 32
  /-- `encrypt_in_place_detached` of AES-128-GCM: key, nonce, associated data, body. -/
  encrypt : ByteVec 16 → ByteVec 12 → Bytes → (body : Bytes) →
    Option (ByteVec body.length × ByteVec tagLen)
  /-- `decrypt_in_place_detached` of AES-128-GCM: key, nonce, associated data, body, tag. -/
  decrypt : ByteVec 16 → ByteVec 12 → Bytes → (body : Bytes) → ByteVec tagLen →
    Option (ByteVec body.length)
  /-- Whether 32 bytes are an Ed25519 verifying key. -/
  ed25519Valid : ByteVec 32 → Bool
  /-- `verify_strict` of Ed25519: key, message, signature. -/
  ed25519Verify : ByteVec 32 → Bytes → ByteVec 64 → Bool
  /-- The Cargo feature `rsa`. -/
  featureRsa : Bool
  /-- The Cargo feature `ecdsa-p256`. -/
  featureEcdsaP256 : Bool

/-- The cipher encrypts every body a packet can have. AES-GCM refuses only a plaintext of more than
2³⁶ − 32 bytes. -/
def Crypto.SealTotal (C : Crypto) : Prop :=
  ∀ key nonce aad body, body.length < 2 ^ 32 → (C.encrypt key nonce aad body).isSome = true

/-- What was encrypted is decrypted under the same key, nonce and associated data. -/
def Crypto.OpensSealed (C : Crypto) : Prop :=
  ∀ key nonce aad body sealed tag, C.encrypt key nonce aad body = some (sealed, tag) →
    (C.decrypt key nonce aad sealed.toBytes tag).map (·.toBytes) = some body

end Tatami
