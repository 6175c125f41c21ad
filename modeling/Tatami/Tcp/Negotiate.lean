import Mathlib.Data.List.Nodup
import Mathlib.Data.List.Perm.Subperm
import Tatami.Keys.Algorithm
import Tatami.Wire.Codecs

/-! # Client proposal and algorithm negotiation

The `KEXINIT` the client sends, the negotiation of RFC 4253 §7.1 over two arbitrary proposals, the
strict-KEX markers, and the check that what was selected is implemented. The proposal encodes into
its fixed buffer, to the bytes of a `KEXINIT` that decode back (`ClientProposal.encode_eq`). -/

namespace Tatami.Tcp

open Tatami.Wire Tatami.Keys Writer List

/-! ### Host-key algorithms -/

/-- An ordered, non-empty, duplicate-free list of host signature schemes to offer. The source keeps
it as an array of four and a count. -/
structure HostKeyAlgorithms where
  schemes : List SignatureScheme
  nodup : schemes.Nodup
  nonempty : schemes ≠ []
  deriving DecidableEq

/-- Why a list of schemes was refused. -/
inductive HostKeyAlgorithmsError where
  | empty
  | duplicate (scheme : SignatureScheme)
  deriving DecidableEq, Repr

namespace HostKeyAlgorithms

/-- Appends the schemes one by one and refuses one that is there already. -/
def push (out : HostKeyAlgorithms) :
    List SignatureScheme → Except HostKeyAlgorithmsError HostKeyAlgorithms
  | [] => .ok out
  | s :: rest =>
    if h : s ∈ out.schemes then .error (.duplicate s)
    else
      push ⟨out.schemes ++ [s], nodup_append.mpr ⟨out.nodup, nodup_singleton s, by
        intro a ha b hb hab
        rw [mem_singleton.mp hb] at hab
        exact h (hab ▸ ha)⟩, by simp⟩ rest

/-- Exactly `schemes`, in this order. -/
def new : List SignatureScheme → Except HostKeyAlgorithmsError HostKeyAlgorithms
  | [] => .error .empty
  | first :: rest => push ⟨[first], nodup_singleton first, by simp⟩ rest

/-- Every scheme for which `canVerify` holds, in preference order; `none` if there is none. -/
def preferred (canVerify : SignatureScheme → Bool) : Option HostKeyAlgorithms :=
  (new (SignatureScheme.preference.filter canVerify)).toOption

/-- Four schemes exist, so the array of four never overflows. -/
theorem length_schemes_le (l : HostKeyAlgorithms) : l.schemes.length ≤ 4 := by
  have hsub : l.schemes ⊆ SignatureScheme.preference := fun s _ => s.mem_preference
  exact (l.nodup.subperm hsub).length_le

end HostKeyAlgorithms

/-! ### The client's proposal -/

/-- The variable parts of the client's `KEXINIT`. -/
structure ClientProposal where
  cookie : ByteVec cookieLen
  /-- Offer `ext-info-c`. -/
  advertiseExtInfo : Bool
  /-- Offer both strict-KEX client markers. -/
  offerStrictKex : Bool
  hostKeyAlgorithms : HostKeyAlgorithms

/-- The cipher of the profile. -/
def aes128GcmOpenssh : Bytes := utf8 "aes128-gcm@openssh.com"

/-- The key-exchange method of the profile. -/
def curve25519Sha256 : Bytes := utf8 "curve25519-sha256"

namespace ClientProposal

/-- `kex_algorithms` in the order sent: the real method first, then the markers. -/
def kexAlgorithms (p : ClientProposal) : List Bytes :=
  [curve25519Sha256] ++ (if p.advertiseExtInfo then [utf8 "ext-info-c"] else []) ++
    (if p.offerStrictKex then [utf8 "kex-strict-c-v00@openssh.com", utf8 "kex-strict-c"] else [])

/-- The fields of the `KEXINIT`, in the order they are written. -/
def fields (p : ClientProposal) : Encoder Unit := do
  writeU8 Msg.kexInit
  writeBytes p.cookie.toBytes
  writeNameList p.kexAlgorithms
  writeNameList (p.hostKeyAlgorithms.schemes.map SignatureScheme.name)
  writeNameList [aes128GcmOpenssh]
  writeNameList [aes128GcmOpenssh]
  writeNameList [utf8 "hmac-sha2-256"]
  writeNameList [utf8 "hmac-sha2-256"]
  writeNameList [utf8 "none"]
  writeNameList [utf8 "none"]
  writeNameList []
  writeNameList []
  writeBool false
  writeU32 0

/-- Encodes the complete `KEXINIT` payload into a buffer of 512 bytes. -/
def encode (p : ClientProposal) : Except EncodeError Bytes :=
  match run p.fields (List.replicate 512 0) with
  | (.ok len, out) => .ok (out.take len)
  | (.error e, _) => .error e

/-- Every key-exchange name offered is a valid name. -/
theorem isValidName_kexAlgorithms (p : ClientProposal) :
    ∀ n ∈ p.kexAlgorithms, isValidName n = true := by
  rw [kexAlgorithms]
  cases p.advertiseExtInfo <;> cases p.offerStrictKex <;> decide

/-- Every host-key name offered is a valid name. -/
theorem isValidName_hostKeyAlgorithms (p : ClientProposal) :
    ∀ n ∈ p.hostKeyAlgorithms.schemes.map SignatureScheme.name, isValidName n = true := by
  intro n hn
  obtain ⟨s, -, rfl⟩ := mem_map.mp hn
  cases s <;> decide

/-- The message the proposal stands for. -/
def kexInit (p : ClientProposal) : KexInit where
  cookie := p.cookie
  kexAlgorithms := .ofNames p.kexAlgorithms p.isValidName_kexAlgorithms
  serverHostKeyAlgorithms :=
    .ofNames (p.hostKeyAlgorithms.schemes.map SignatureScheme.name) p.isValidName_hostKeyAlgorithms
  encryptionClientToServer := .ofNames [aes128GcmOpenssh] (by decide)
  encryptionServerToClient := .ofNames [aes128GcmOpenssh] (by decide)
  macClientToServer := .ofNames [utf8 "hmac-sha2-256"] (by decide)
  macServerToClient := .ofNames [utf8 "hmac-sha2-256"] (by decide)
  compressionClientToServer := .ofNames [utf8 "none"] (by decide)
  compressionServerToClient := .ofNames [utf8 "none"] (by decide)
  languagesClientToServer := .ofNames [] (by decide)
  languagesServerToClient := .ofNames [] (by decide)
  firstKexPacketFollows := false
  reserved := 0

/-- Joined names are no longer than the names with a comma each. -/
theorem length_joinNames_le {names : List Bytes} {bound : Nat}
    (h : ∀ n ∈ names, n.length ≤ bound) :
    (joinNames names).length ≤ names.length * (bound + 1) := by
  induction names with
  | nil => simp [joinNames]
  | cons name rest ih =>
    have hname := h name mem_cons_self
    have hrest := ih (fun n hn => h n (mem_cons_of_mem _ hn))
    cases rest with
    | nil => simpa [joinNames] using Nat.le_succ_of_le hname
    | cons =>
      simp only [joinNames, length_append, length_cons, Nat.succ_mul] at hrest ⊢
      omega

/-- The key-exchange names take at most seventy bytes. -/
theorem length_kexAlgorithms_le (p : ClientProposal) :
    (joinNames p.kexAlgorithms).length ≤ 70 := by
  rw [kexAlgorithms]
  cases p.advertiseExtInfo <;> cases p.offerStrictKex <;> decide

/-- The host-key names take at most eighty bytes. -/
theorem length_hostKeyAlgorithms_le (p : ClientProposal) :
    (joinNames (p.hostKeyAlgorithms.schemes.map SignatureScheme.name)).length ≤ 80 := by
  have hbound : ∀ n ∈ p.hostKeyAlgorithms.schemes.map SignatureScheme.name, n.length ≤ 19 := by
    intro n hn
    obtain ⟨s, -, rfl⟩ := mem_map.mp hn
    cases s <;> decide
  have hjoin := length_joinNames_le hbound
  have hfour := p.hostKeyAlgorithms.length_schemes_le
  rw [length_map] at hjoin
  omega

/-- The payload fits into the buffer. -/
theorem length_payload_le (p : ClientProposal) : p.kexInit.payload.length ≤ 512 := by
  have hkex := p.length_kexAlgorithms_le
  have hkey := p.length_hostKeyAlgorithms_le
  have haes : aes128GcmOpenssh.length = 22 := by decide
  have hmac : (utf8 "hmac-sha2-256").length = 13 := by decide
  have hnone : (utf8 "none").length = 4 := by decide
  have hcookie : cookieLen = 16 := rfl
  rw [KexInit.payload]
  simp only [length_append, length_cons, length_nil, length_lengthPrefixed,
    length_beBytes, ByteVec.length_toBytes]
  simp only [kexInit, NameList.ofNames, joinNames, length_nil, haes, hmac, hnone, hcookie]
  generalize (joinNames p.kexAlgorithms).length = a at hkex ⊢
  generalize (joinNames (p.hostKeyAlgorithms.schemes.map SignatureScheme.name)).length = b at hkey ⊢
  omega

/-- A list of one name is written as that name behind its length. -/
theorem produces_writeName (name : Bytes) (hv : isValidName name = true)
    (hl : name.length < 2 ^ 32) :
    Writer.Produces (writeNameList [name]) (lengthPrefixed (joinNames [name])) :=
  produces_writeNameList (by simpa using hv) hl

/-- The fields are the bytes of the `KEXINIT`. -/
theorem produces_fields (p : ClientProposal) : Writer.Produces p.fields p.kexInit.payload := by
  have hkex := Nat.lt_of_le_of_lt p.length_kexAlgorithms_le (show 70 < 2 ^ 32 by decide)
  have hkey := Nat.lt_of_le_of_lt p.length_hostKeyAlgorithms_le (show 80 < 2 ^ 32 by decide)
  have haes := produces_writeName aes128GcmOpenssh (by decide) (by decide)
  have hmac := produces_writeName (utf8 "hmac-sha2-256") (by decide) (by decide)
  have hnone := produces_writeName (utf8 "none") (by decide) (by decide)
  have hnil : Writer.Produces (writeNameList []) (lengthPrefixed (joinNames [])) :=
    produces_writeNameList (by simp) (by decide)
  exact (produces_writeBytes [Msg.kexInit]).seq
    ((produces_writeBytes p.cookie.toBytes).seq
    ((produces_writeNameList p.isValidName_kexAlgorithms hkex).seq
    ((produces_writeNameList p.isValidName_hostKeyAlgorithms hkey).seq
    (haes.seq (haes.seq (hmac.seq (hmac.seq (hnone.seq (hnone.seq (hnil.seq (hnil.seq
    ((produces_writeBytes [0]).seq
    (produces_writeBytes (beBytes 4 (0 : UInt32).toNat))))))))))))))

/-- **The proposal encodes**, to the bytes of its `KEXINIT`. -/
theorem encode_eq (p : ClientProposal) : p.encode = .ok p.kexInit.payload := by
  have hlen : p.kexInit.payload.length ≤ (List.replicate 512 (0 : UInt8)).length := by
    rw [length_replicate]
    exact p.length_payload_le
  obtain ⟨_, hrun, hout⟩ := p.produces_fields.run_eq hlen
  unfold encode
  simp only [hrun, hout]

/-- **The proposal decodes to itself**: the two `expect`s on it never fire. -/
theorem decode_kexInit (p : ClientProposal) : KexInit.decode p.kexInit.payload = .ok p.kexInit := by
  refine KexInit.decode_payload _ ?_
  have hkex := p.length_kexAlgorithms_le
  have hkey := p.length_hostKeyAlgorithms_le
  intro l hl
  simp only [KexInit.nameLists, kexInit, NameList.ofNames, mem_cons, not_mem_nil,
    or_false] at hl
  rcases hl with rfl | rfl | rfl | rfl | rfl | rfl | rfl | rfl | rfl | rfl
  · exact Nat.lt_of_le_of_lt hkex (by decide)
  · exact Nat.lt_of_le_of_lt hkey (by decide)
  all_goals decide

end ClientProposal

/-! ### Strict key exchange -/

/-- The strict-KEX markers of the two initial proposals and the resulting decision. -/
structure StrictKex where
  offeredPreStandard : Bool := false
  offeredStandard : Bool := false
  serverPreStandard : Bool := false
  serverStandard : Bool := false
  /-- Strict KEX is in effect: a matching pair of the same spelling. -/
  negotiated : Bool := false
  deriving DecidableEq, Repr

namespace StrictKex

/-- Whether a list carries the marker of a role in a spelling. -/
def marked (list : NameList) (role : StrictKexRole) (spelling : StrictKexSpelling) : Bool :=
  list.iter.any fun name =>
    (classifyStrictKexName name).any fun m => m.role == role && m.spelling == spelling

/-- Evaluates the markers of both initial proposals. -/
def evaluate (client server : KexInit) : StrictKex :=
  let offeredPreStandard := marked client.kexAlgorithms .client .openSshV00
  let offeredStandard := marked client.kexAlgorithms .client .standard
  let serverPreStandard := marked server.kexAlgorithms .server .openSshV00
  let serverStandard := marked server.kexAlgorithms .server .standard
  { offeredPreStandard, offeredStandard, serverPreStandard, serverStandard,
    negotiated := (offeredPreStandard && serverPreStandard) ||
      (offeredStandard && serverStandard) }

/-- The client side of the record, before the server's proposal is known. -/
def offered (client : KexInit) : StrictKex where
  offeredPreStandard := client.kexAlgorithms.contains (utf8 "kex-strict-c-v00@openssh.com")
  offeredStandard := client.kexAlgorithms.contains (utf8 "kex-strict-c")

end StrictKex

/-! ### Negotiation -/

/-- How packet integrity is provided in one direction. -/
inductive Mac where
  | implicitAead
  deriving DecidableEq, Repr

/-- Outcome of a successful negotiation. Names are the exact wire names. -/
structure Negotiated where
  kex : String
  hostKey : String
  encryptionClientToServer : String
  encryptionServerToClient : String
  macClientToServer : Mac
  macServerToClient : Mac
  compressionClientToServer : String
  compressionServerToClient : String
  strictKex : StrictKex
  /-- The server offered `ext-info-s`. -/
  extInfo : Bool
  /-- The server announced a guessed packet and guessed wrong. -/
  serverGuessWrong : Bool
  deriving DecidableEq, Repr

/-- Which direction a failure refers to. -/
inductive Direction where
  | clientToServer
  | serverToClient
  deriving DecidableEq, Repr

/-- Why negotiation failed. -/
inductive NegotiationError where
  | noCommonKex
  | noCommonHostKey
  | noCommonCipher (direction : Direction)
  | noMacImplemented (direction : Direction)
  | noCommonCompression (direction : Direction)
  | unsupportedSelection (field name : String)
  deriving DecidableEq, Repr

/-- Whether a cipher's integrity is built in. -/
def isAead (cipher : Bytes) : Bool := cipher == aes128GcmOpenssh

/-- Whether a key-exchange name is a real method. -/
def isMethod (name : Bytes) : Bool := classifyKexName name == .method

/-- First real key-exchange method of a proposal, skipping markers. -/
def firstMethod (k : KexInit) : Option Bytes := k.kexAlgorithms.iter.find? isMethod

/-- First entry of `client` that also appears in `server`. -/
def firstCommon (client server : NameList) : Option Bytes :=
  client.iter.find? fun name => server.contains name

/-- The value of an option, or the error. -/
def okOr {α ε : Type} (x : Option α) (e : ε) : Except ε α := x.elim (.error e) .ok

/-- The integrity of a cipher: the MAC lists are not consulted for an AEAD, and nothing else is
implemented. -/
def macOf (cipher : Bytes) (direction : Direction) : Except NegotiationError Mac :=
  if isAead cipher then .ok .implicitAead else .error (.noMacImplemented direction)

/-- Whether the server announced a guessed packet that does not fit what both sides list first. -/
def guessWrong (client server : KexInit) : Bool :=
  server.firstKexPacketFollows &&
    !(firstMethod client == firstMethod server &&
      client.serverHostKeyAlgorithms.iter.head? == server.serverHostKeyAlgorithms.iter.head?)

/-- Applies RFC 4253 §7.1 to two initial proposals. -/
def negotiate (client server : KexInit) : Except NegotiationError Negotiated := do
  let serverMethods := server.kexAlgorithms.iter.filter isMethod
  let kex ← okOr ((client.kexAlgorithms.iter.filter isMethod).find? (serverMethods.contains ·))
    .noCommonKex
  let hostKey ← okOr (firstCommon client.serverHostKeyAlgorithms server.serverHostKeyAlgorithms)
    .noCommonHostKey
  let encC2s ← okOr (firstCommon client.encryptionClientToServer server.encryptionClientToServer)
    (.noCommonCipher .clientToServer)
  let encS2c ← okOr (firstCommon client.encryptionServerToClient server.encryptionServerToClient)
    (.noCommonCipher .serverToClient)
  let macC2s ← macOf encC2s .clientToServer
  let macS2c ← macOf encS2c .serverToClient
  let compC2s ← okOr
    (firstCommon client.compressionClientToServer server.compressionClientToServer)
    (.noCommonCompression .clientToServer)
  let compS2c ← okOr
    (firstCommon client.compressionServerToClient server.compressionServerToClient)
    (.noCommonCompression .serverToClient)
  pure
    { kex := fromUtf8Lossy kex
      hostKey := fromUtf8Lossy hostKey
      encryptionClientToServer := fromUtf8Lossy encC2s
      encryptionServerToClient := fromUtf8Lossy encS2c
      macClientToServer := macC2s
      macServerToClient := macS2c
      compressionClientToServer := fromUtf8Lossy compC2s
      compressionServerToClient := fromUtf8Lossy compS2c
      strictKex := .evaluate client server
      extInfo := server.kexAlgorithms.contains (utf8 "ext-info-s")
      serverGuessWrong := guessWrong client server }

namespace Negotiated

/-- The negotiated host signature scheme, if it is a known one. -/
def hostKeyScheme (n : Negotiated) : Option SignatureScheme :=
  SignatureScheme.fromName (utf8 n.hostKey)

/-- Fails unless every selected algorithm is implemented. -/
def checkProfile (n : Negotiated) : Except NegotiationError Unit :=
  if utf8 n.kex != curve25519Sha256 then .error (.unsupportedSelection "kex_algorithms" n.kex)
  else if n.hostKeyScheme.isNone then
    .error (.unsupportedSelection "server_host_key_algorithms" n.hostKey)
  else if !isAead (utf8 n.encryptionClientToServer) then
    .error (.unsupportedSelection "encryption_algorithms_client_to_server"
      n.encryptionClientToServer)
  else if !isAead (utf8 n.encryptionServerToClient) then
    .error (.unsupportedSelection "encryption_algorithms_server_to_client"
      n.encryptionServerToClient)
  else if utf8 n.compressionClientToServer != utf8 "none" then
    .error (.unsupportedSelection "compression_algorithms_client_to_server"
      n.compressionClientToServer)
  else if utf8 n.compressionServerToClient != utf8 "none" then
    .error (.unsupportedSelection "compression_algorithms_server_to_client"
      n.compressionServerToClient)
  else .ok ()

end Negotiated

/-- Negotiation followed by the profile check, as the handshake does it. -/
def negotiateProfile (client server : KexInit) : Except NegotiationError Negotiated := do
  let n ← negotiate client server
  n.checkProfile
  pure n

end Tatami.Tcp
