import Tatami.Keys.HostKey
import Tatami.Tcp.Gcm
import Tatami.Tcp.Ident
import Tatami.Tcp.Initial
import Tatami.Tcp.Negotiate
import Tatami.Wire.ExtInfo

/-! # The state of the client handshake

Configuration, phases, outcomes and the fields of the client state machine. What `build` fixes once
and for all is the `Setup`; everything that changes is the `State`, except for the input buffer,
which is kept beside it so that what depends on buffered bytes is visible in the types.

`History` is a ghost: the machine writes it and never reads it. It records what was received, queued
and verified, in order, so that properties of whole runs can be stated about a state. -/

namespace Tatami.Tcp

open Tatami.Wire Tatami.Keys

/-! ### Configuration -/

/-- Configuration of one handshake. Numeric limits are local policy. -/
structure HandshakeConfig where
  softwareVersion : String
  /-- Offer `ext-info-c`. -/
  advertiseExtInfo : Bool
  /-- Offer both strict-KEX client markers. -/
  offerStrictKex : Bool
  ident : IdentLimits
  /-- Cap for both unprotected and protected packets. -/
  packet : PacketLimits
  /-- Packets accepted before the server `NEWKEYS`, inclusive. -/
  maxPreKexPackets : UInt64
  /-- Framed bytes accepted before the server `NEWKEYS`, inclusive. -/
  maxPreKexBytes : UInt64
  maxProtectedPackets : UInt64
  maxExtInfoExtensions : UInt64
  /-- Service requested after `NEWKEYS`. -/
  service : Bytes
  /-- Host signature schemes to offer; `none` for every scheme that can be verified. -/
  hostKeyAlgorithms : Option HostKeyAlgorithms
  deriving DecidableEq

/-- The default configuration. -/
def HandshakeConfig.default : HandshakeConfig where
  softwareVersion := "tatami_0.1.0"
  advertiseExtInfo := true
  offerStrictKex := true
  ident := .default
  packet := .default
  maxPreKexPackets := 16
  maxPreKexBytes := 256 * 1024
  maxProtectedPackets := 64
  maxExtInfoExtensions := 64
  service := utf8 "ssh-userauth"
  hostKeyAlgorithms := none

/-- Largest amount of unconsumed input the state machine will hold. -/
def HandshakeConfig.bufferCapacity (config : HandshakeConfig) : Checked Nat := do
  let cap := config.packet.maxPacketLength.toNat
  let unprotected ← Checked.addUsize cap headerLen
  let protectedLen ← Checked.addUsize (← Checked.addUsize cap lengthLen) tagLen
  let ident := config.ident.maxLine
  Checked.addUsize (max (max protectedLen unprotected) ident) ident

/-! ### Phases and outcomes -/

/-- Where the handshake is. -/
inductive Phase where
  | serverIdentification
  | serverKexInit
  | ecdhReply
  | trustDecision
  | serverNewKeys
  | service
  | finished
  deriving DecidableEq, Repr

/-- Owned copy of what a trust policy gets to see. -/
structure HostIdentityOwned where
  algorithm : String
  blob : Bytes
  sha256 : Sha256Fingerprint
  deriving DecidableEq, Repr

/-- The view of an owned copy that a policy is given. -/
def HostIdentityOwned.asIdentity (i : HostIdentityOwned) : HostIdentity where
  algorithm := utf8 i.algorithm
  blob := i.blob
  sha256 := i.sha256

/-- A protocol violation that ends the handshake. -/
inductive ProtocolViolation where
  | ident (error : IdentError)
  | packet (error : PacketError)
  | protectedPacket (error : OpenError)
  | emptyPayload
  | message (number : UInt8) (error : MessageError)
  | hostKey (error : KeyError)
  | kex (error : KexError)
  | extInfo (error : ExtInfoError)
  | serviceMismatch (requested accepted : Bytes)
  | seal (error : SealError)
  | encode (error : EncodeError)
  deriving DecidableEq, Repr

/-- Which local budget was exhausted. -/
inductive LimitKind where
  | preKexPackets (limit : UInt64)
  | preKexBytes (limit : UInt64)
  | protectedPackets (limit : UInt64)
  deriving DecidableEq, Repr

/-- Terminal outcome of a handshake. -/
inductive HandshakeOutcome where
  | completed
  | hostNotTrusted (reason : UntrustedReason)
  | signatureInvalid
  | negotiationFailed (error : NegotiationError)
  | strictKexViolation (detail : String)
  | protocolError (violation : ProtocolViolation)
  | serverDisconnected (reasonCode : UInt32) (description : Bytes)
  | rekeyNotSupported
  | unexpectedMessage (number : UInt8) (phase : Phase)
  | tagMismatch
  | eof (phase : Phase)
  | inputOverflow (overflow : InputOverflow)
  | limit (kind : LimitKind)
  deriving DecidableEq, Repr

/-- Result of `step`. -/
inductive Step where
  | needMore
  | send
  | trustDecisionRequired (identity : HostIdentityOwned)
  | finished (outcome : HandshakeOutcome)
  deriving DecidableEq, Repr

/-- Failure of construction. -/
inductive HandshakeInitError (ε : Type) where
  | identification (error : InvalidLocalIdentification)
  | entropy (error : ε)
  | encode (error : EncodeError)
  | hostKeyAlgorithm (scheme : SignatureScheme)

/-! ### Observations -/

/-- The presented host key, without the key itself. -/
structure HostKeySummary where
  algorithm : String
  fingerprint : Sha256Fingerprint
  blobLen : Nat
  deriving DecidableEq, Repr

/-- What the server's `EXT_INFO` said. -/
structure ExtInfoSummary where
  received : Bool := false
  serverSigAlgs : Option (List String) := none
  extensionNames : List String := []
  deriving DecidableEq, Repr

/-- A server `DISCONNECT`. -/
structure ServerDisconnect where
  reasonCode : UInt32
  description : Bytes
  deriving DecidableEq, Repr

/-- Everything observed, with no secret. -/
structure HandshakeReport where
  phase : Phase
  clientIdentification : Bytes
  serverPreludeLines : List Bytes
  serverIdentification : Option OwnedIdentification
  serverIdentificationAnomalies : List IdentAnomaly
  advertisedClient : OwnedKexInit
  advertisedServer : Option OwnedKexInit
  selected : Option Negotiated
  strictKex : StrictKex
  kexinitWasFirstPacket : Option Bool
  skippedMessages : List SkippedMessage
  serverGuessDiscarded : Bool
  hostKey : Option HostKeySummary
  signatureValid : Option Bool
  signatureError : Option String
  trust : Option TrustDecision
  newkeysSent : Bool
  newkeysReceived : Bool
  protectedPacketsSent : Nat
  protectedPacketsReceived : Nat
  sendSequence : Nat
  receiveSequence : Nat
  extInfo : Option ExtInfoSummary
  serviceAccepted : Option String
  serverDisconnect : Option ServerDisconnect
  outcome : Option HandshakeOutcome
  /-- Always `false`: this diagnostic never authenticates. -/
  userAuthenticated : Bool
  deriving DecidableEq

/-! ### Padding -/

/-- Padding bytes for outgoing packets: SHA-256 in counter mode over a seed. -/
structure PaddingSource where
  seed : ByteVec 32
  counter : UInt64
  block : ByteVec 32
  used : Nat
  used_le : used ≤ 32
  deriving DecidableEq

namespace PaddingSource

/-- A source that has not made its first block. -/
def new (seed : ByteVec 32) : PaddingSource := ⟨seed, 0, .zero 32, 32, Nat.le_refl _⟩

/-- A source with an unread byte in its block: the next block is made when the last one is used
up. -/
def refill (C : Crypto) (p : PaddingSource) : { q : PaddingSource // q.used < 32 } :=
  if h : p.used = 32 then
    ⟨⟨p.seed, p.counter + 1, C.sha256 (p.seed.toBytes ++ beBytes 8 p.counter.toNat), 0,
      Nat.zero_le _⟩, Nat.zero_lt_succ 31⟩
  else ⟨p, by have := p.used_le; omega⟩

/-- One byte. -/
def nextByte (C : Crypto) (p : PaddingSource) : UInt8 × PaddingSource :=
  let ⟨q, h⟩ := p.refill C
  (q.block.toBytes.getD q.used 0, { q with used := q.used + 1, used_le := h })

/-- Fills `n` bytes. -/
def fillBytes (C : Crypto) : (n : Nat) → PaddingSource → ByteVec n × PaddingSource
  | 0, p => (⟨[], rfl⟩, p)
  | n + 1, p =>
    let (b, p₁) := p.nextByte C
    let (rest, p₂) := fillBytes C n p₁
    (⟨b :: rest.toBytes, by rw [List.length_cons, ByteVec.length_toBytes]⟩, p₂)

end PaddingSource

/-! ### Ghost history -/

/-- One message appended to the output queue. -/
inductive Outgoing where
  /-- The identification line. -/
  | line (bytes : Bytes)
  /-- An unprotected packet: its payload and the frame. -/
  | framed (payload wire : Bytes)
  /-- A protected packet: the nonce, its payload and the sealed packet. -/
  | sealed (nonce : ByteVec 12) (payload wire : Bytes)
  deriving DecidableEq

/-- The bytes of an outgoing message. -/
def Outgoing.wire : Outgoing → Bytes
  | .line bytes => bytes
  | .framed _ wire => wire
  | .sealed _ _ wire => wire

/-- Whether an outgoing message is a packet. -/
def Outgoing.isPacket : Outgoing → Bool
  | .line _ => false
  | _ => true

/-- A signature that `HostKey.verify` accepted, with everything it was made over. -/
structure Verified where
  /-- The reply the signature came in. -/
  reply : KexEcdhReply
  inputs : ExchangeHashInputs
  secret : SharedSecret
  hash : ExchangeHash
  key : HostKey
  scheme : SignatureScheme
  signature : SignatureBlob
  deriving DecidableEq

/-- What happened so far. The machine never reads it. -/
structure History where
  /-- Everything `take_output` has returned. -/
  taken : Bytes := []
  /-- The bytes consumed as server identification line, terminator included. -/
  identLine : Option Bytes := none
  /-- Messages appended to the output queue. -/
  queued : List Outgoing := []
  /-- Payloads of the unprotected packets consumed. -/
  received : List Bytes := []
  /-- Nonces under which a tag verified. -/
  authenticated : List (ByteVec 12) := []
  /-- Payloads of the protected packets opened. -/
  opened : List Bytes := []
  /-- Payloads of the protected packets opened and within the budget. -/
  accepted : List Bytes := []
  /-- The accepted host signature. -/
  verified : Option Verified := none
  deriving DecidableEq

/-! ### The machine -/

/-- What `build` fixes for the lifetime of a handshake. -/
structure Setup where
  config : HandshakeConfig
  provider : Option SignatureProvider
  /-- Our identification line with its terminator. -/
  clientLine : Bytes
  /-- Our `KEXINIT` payload. -/
  iC : Bytes
  clientKexinit : OwnedKexInit
  qC : ByteVec 32

/-- The changing fields of the client handshake, except for the input buffer. -/
structure State where
  phase : Phase
  identReader : IdentificationReader
  out : Bytes
  /-- Outcome to adopt once the queued output has been taken. -/
  pendingOutcome : Option HandshakeOutcome
  outcome : Option HandshakeOutcome
  padding : PaddingSource
  ephemeral : Option EphemeralKeyPair
  preludeLines : List Bytes
  serverIdent : Option OwnedIdentification
  serverKexinit : Option OwnedKexInit
  iS : Option Bytes
  negotiated : Option Negotiated
  strict : StrictKex
  kexinitWasFirst : Option Bool
  preKexPackets : Nat
  preKexBytes : Nat
  skipped : List SkippedMessage
  guessDiscarded : Bool
  hostKey : Option HostKeySummary
  identity : Option HostIdentityOwned
  signatureValid : Option Bool
  signatureError : Option String
  trust : Option TrustDecision
  sessionId : Option SessionId
  keys : Option KeySet
  sendAead : Option AeadDirection
  recvAead : Option AeadDirection
  newkeysSent : Bool
  newkeysReceived : Bool
  sendSeq : Nat
  recvSeq : Nat
  protectedSent : Nat
  protectedReceived : Nat
  extInfo : Option ExtInfoSummary
  serviceAccepted : Option String
  serverDisconnect : Option ServerDisconnect
  /-- Ghost: never read. -/
  hist : History

/-- The client handshake state machine. -/
structure ClientHandshake where
  setup : Setup
  state : State
  buf : InputBuffer

/-- Internal result of one processing attempt. -/
inductive Flow where
  | again
  | needMore
  deriving DecidableEq, Repr

end Tatami.Tcp
