import Tatami.Lib.AesGcm
import Tatami.Lib.Run
import Tatami.Lib.Sha256
import Tatami.Tcp.Handshake.Sending

/-! # A reference handshake

One whole handshake in numbers, for results that speak of runs: the primitives as the real crates
compute them, a client with fixed entropy, and what a server answers it.

* `reference` — SHA-256 and AES-128-GCM in full; X25519 and Ed25519 by their values on the one key
  exchange that is made here, zero or refused anywhere else.
* `Reference.client` — the client of the reference exchange.
* `Reference.exists_run_asked`, `Reference.exists_run_completed` — there are runs of that client up
  to the trust question and to its completion. -/

namespace Tatami.Tcp

open Tatami.Wire Tatami.Keys

namespace Reference

/-! ### The values of the exchange -/

/-- A byte string of fixed width, given as a big-endian number. -/
def vec (n x : Nat) : ByteVec n := ⟨beBytes n x, length_beBytes n x⟩

/-- An entropy source that fills each request with one byte, and the next one with the next byte. -/
def entropy (n : Nat) (b : UInt8) : Except Unit (ByteVec n × UInt8) :=
  .ok (⟨List.replicate n b, List.length_replicate⟩, b + 1)

/-- The client's scalar, the second draw. -/
def clientSecret : ByteVec 32 := ⟨List.replicate 32 2, List.length_replicate⟩

/-- `Q_C`. -/
def clientPublic : ByteVec 32 :=
  vec 32 0xce8d3ad1ccb633ec7b70c17814a5c76ecd029685050d344745ba05870e587d59

/-- `Q_S`, of the scalar of 32 bytes 5. -/
def serverPublic : ByteVec 32 :=
  vec 32 0x50a61409b1ddd0325e9b16b700e719e9772c07000b1bd7786e907c653d20495d

/-- `K`. -/
def sharedSecret : ByteVec 32 :=
  vec 32 0xeae6c8a9cecac8ef9a0ad59794fef9d4fe8ef407e7ee7eb4856ca6f88a96db4b

/-- The server's Ed25519 key, of the seed of 32 bytes 6. -/
def hostKey : ByteVec 32 :=
  vec 32 0x8a875fff1eb38451577acd5afee405456568dd7c89e090863a0557bc7af49f17

/-- `H`. -/
def hash : ByteVec 32 :=
  vec 32 0x3b008c406131a1b5af9fc1688268ea986874a9b8578f06889a45b7fd41ea3fc3

/-- The server's signature over `H`. -/
def signature : ByteVec 64 :=
  vec 64 (0xfc0c0b29b3edd5db618a00845592013fabc6fc3949eec652e720a8f92ddca1d9 * 2 ^ 256 +
    0x8b99f6190dcda272b0ca52d1acfa2782885880634829edec84d088265596f403)

end Reference

open Reference

/-- The primitives, as far as the reference handshake asks them. -/
def reference : Crypto where
  sha256 := Sha256.digest
  x25519Public secret := if secret = clientSecret then clientPublic else .zero 32
  diffieHellman secret qS :=
    if secret = clientSecret ∧ qS = serverPublic then sharedSecret else .zero 32
  encrypt := Gcm.encrypt
  decrypt := Gcm.decrypt
  ed25519Valid key := key == hostKey
  ed25519Verify key message sig := key == hostKey && message == hash.toBytes && sig == signature
  featureRsa := false
  featureEcdsaP256 := false

theorem reference_sealTotal : reference.SealTotal := by
  intro key nonce aad body hbody
  change (Gcm.encrypt key nonce aad body).isSome = true
  rw [Gcm.encrypt, if_pos (by omega)]
  rfl

/-- The cipher opens what it sealed. -/
theorem reference_opensSealed : reference.OpensSealed :=
  fun _ _ _ _ _ _ h => Gcm.decrypt_encrypt h

namespace Reference

/-! ### The two sides -/

/-- The default configuration, with a budget of protected packets that no 32-bit counter reaches. -/
def config : HandshakeConfig := { HandshakeConfig.default with maxProtectedPackets := 4294967296 }

/-- The machine of a build that went through. -/
def built : Checked (Except (HandshakeInitError Unit) ClientHandshake) → Option ClientHandshake
  | .ok (.ok h) => some h
  | _ => none

/-- A machine comes only out of a build that went through. -/
theorem eq_of_built {x : Checked (Except (HandshakeInitError Unit) ClientHandshake)}
    {h : ClientHandshake} (hx : built x = some h) : x = .ok (.ok h) := by
  unfold built at hx
  split at hx
  · cases hx
    rfl
  · cases hx

/-- The client. -/
def client : ClientHandshake :=
  (built (build reference entropy config 1 none)).get (by decide +kernel)

/-- The client is what the constructor builds. -/
theorem build_client : build reference entropy config 1 none = .ok (.ok client) :=
  eq_of_built (Option.some_get _).symm

/-- The identification line of the server, `V_S`. -/
def serverLine : Bytes := utf8 "SSH-2.0-reference_1.0"

/-- The `KEXINIT` of the server, `I_S`: it offers what the client asks for, and strict KEX. -/
def serverKexInit : Bytes :=
  Msg.kexInit :: (List.replicate 16 4 ++
    ["curve25519-sha256,kex-strict-s-v00@openssh.com", "ssh-ed25519", "aes128-gcm@openssh.com",
      "aes128-gcm@openssh.com", "hmac-sha2-256", "hmac-sha2-256", "none", "none", "", ""].flatMap
      (fun names => lengthPrefixed (utf8 names)) ++ [0, 0, 0, 0, 0])

/-- The public-key blob of the server, `K_S`. -/
def hostKeyBlob : Bytes := lengthPrefixed (utf8 "ssh-ed25519") ++ lengthPrefixed hostKey.toBytes

/-- The `KEX_ECDH_REPLY` of the server. -/
def serverReply : Bytes :=
  Msg.kexEcdhReply :: (lengthPrefixed hostKeyBlob ++ lengthPrefixed serverPublic.toBytes ++
    lengthPrefixed (lengthPrefixed (utf8 "ssh-ed25519") ++ lengthPrefixed signature.toBytes))

/-- The shortest padding of an unprotected packet. -/
def leastPadding (payload : Bytes) : Bytes := List.replicate (11 - payload.length % 8) 0

/-- An unprotected packet. -/
def framed (payload : Bytes) : Bytes := initialFrame payload (leastPadding payload)

/-- The keys of the direction from the server. -/
def serverKeys : AeadKeys := (keysOf reference ⟨sharedSecret⟩ ⟨hash⟩).serverToClient

/-- The body of a protected packet of the server, before it is sealed. -/
def plainBody (payload : Bytes) : Bytes :=
  sealedBody payload (List.replicate (AeadDirection.paddingFor (payload.length + 1)) 0)

/-- Protected packet `i` of the server. -/
def sealed (i : Nat) (payload : Bytes) : Bytes :=
  match reference.encrypt serverKeys.key (AeadDirection.nonceAt serverKeys i)
    (beBytes 4 (plainBody payload).length) (plainBody payload) with
  | some (cipher, tag) => beBytes 4 (plainBody payload).length ++ cipher.toBytes ++ tag.toBytes
  | none => []

/-- The `SERVICE_ACCEPT` of the server. -/
def serviceAccept : Bytes := Msg.serviceAccept :: lengthPrefixed (utf8 "ssh-userauth")

/-- Everything the server sends. -/
def stream : Bytes :=
  serverLine ++ [0x0d, 0x0a] ++ framed serverKexInit ++ framed serverReply ++
    framed [Msg.newKeys] ++
    sealed 0 serviceAccept

/-! ### The runs -/

/-- Makes calls in turn. -/
def calls (C : Crypto) : List Call → ClientHandshake → Checked (List Event × ClientHandshake)
  | [], h => .ok ([], h)
  | c :: cs, h => do
    let (reply, h') ← h.call C c
    let (events, h'') ← calls C cs h'
    pure (⟨h.phase, c, reply⟩ :: events, h'')

/-- Calls that all return make a run. -/
theorem run_of_calls {C : Crypto} {cs : List Call} {h h' : ClientHandshake} {events : List Event}
    (hc : calls C cs h = .ok (events, h')) : Run (Calls C) h events h' := by
  induction cs generalizing h events with
  | nil =>
    cases hc
    exact .nil
  | cons _ _ ih =>
    obtain ⟨⟨_, h₁⟩, hcall, hrest⟩ := Checked.bind_ok_iff.mp hc
    obtain ⟨⟨_, h₂⟩, hcalls, heq⟩ := Checked.bind_ok_iff.mp hrest
    cases heq
    exact .cons ⟨rfl, hcall⟩ (ih hcalls)

/-- What is read off the state that calls lead to, if they all return, holds after a run. -/
theorem exists_run {C : Crypto} {h : ClientHandshake} {α : Type} (cs : List Call)
    (f : ClientHandshake → α) {a : α}
    (hc : (calls C cs h).toOption.map (fun r => f r.2) = some a) :
    ∃ events h', Run (Calls C) h events h' ∧ f h' = a := by
  match hcalls : calls C cs h with
  | .error p =>
    rw [hcalls] at hc
    cases hc
  | .ok (events, h') =>
    rw [hcalls] at hc
    exact ⟨events, h', run_of_calls hcalls, Option.some.inj hc⟩

/-- The calls of a client up to the trust question. -/
def untilAsked : List Call :=
  [.takeOutput, .feed (serverLine ++ [0x0d, 0x0a] ++ framed serverKexInit), .step, .takeOutput,
    .feed (framed serverReply), .step]

/-- The calls from the answer on. -/
def untilCompleted : List Call :=
  [.provideTrust (.trusted .pinnedFingerprint), .takeOutput,
    .feed (framed [Msg.newKeys] ++ sealed 0 serviceAccept), .step, .takeOutput, .step, .takeOutput,
    .step]

/-- The client verifies the server's signature and asks whether to trust the key. -/
theorem exists_run_asked : ∃ events h', Run (Calls reference) client events h' ∧
    h'.phase = .trustDecision :=
  exists_run untilAsked (·.phase) (by decide +kernel)

/-- Once the key is trusted, the client completes. -/
theorem exists_run_completed : ∃ events h', Run (Calls reference) client events h' ∧
    h'.state.outcome = some .completed :=
  exists_run (untilAsked ++ untilCompleted) (·.state.outcome)
    (by decide +kernel)

end Reference

end Tatami.Tcp
