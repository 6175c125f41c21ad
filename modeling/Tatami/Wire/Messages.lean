import Tatami.Wire.Primitives

/-! # Transport and key-exchange messages

Message numbers, the helpers shared by whole-message decoders, and the codecs of the generic
transport messages (RFC 4253 §10, §11) and of the ECDH key-exchange pair with `NEWKEYS`. Decoders
are syntactic: they check the message number, take each field and reject trailing bytes; an error
names the field it failed in and the field's offset. -/

namespace Tatami.Wire

open Writer Cursor

/-! ### Message numbers -/

namespace Msg

/-- `SSH_MSG_DISCONNECT`. -/
def disconnect : UInt8 := 1
/-- `SSH_MSG_IGNORE`. -/
def ignore : UInt8 := 2
/-- `SSH_MSG_UNIMPLEMENTED`. -/
def unimplemented : UInt8 := 3
/-- `SSH_MSG_DEBUG`. -/
def debug : UInt8 := 4
/-- `SSH_MSG_SERVICE_REQUEST`. -/
def serviceRequest : UInt8 := 5
/-- `SSH_MSG_SERVICE_ACCEPT`. -/
def serviceAccept : UInt8 := 6
/-- `SSH_MSG_EXT_INFO`. -/
def extInfo : UInt8 := 7
/-- `SSH_MSG_KEXINIT`. -/
def kexInit : UInt8 := 20
/-- `SSH_MSG_NEWKEYS`. -/
def newKeys : UInt8 := 21
/-- `SSH_MSG_KEX_ECDH_INIT`. -/
def kexEcdhInit : UInt8 := 30
/-- `SSH_MSG_KEX_ECDH_REPLY`. -/
def kexEcdhReply : UInt8 := 31
/-- `SSH_MSG_CHANNEL_OPEN`. -/
def channelOpen : UInt8 := 90
/-- `SSH_MSG_CHANNEL_OPEN_CONFIRMATION`. -/
def channelOpenConfirmation : UInt8 := 91
/-- `SSH_MSG_CHANNEL_OPEN_FAILURE`. -/
def channelOpenFailure : UInt8 := 92

/-- Numbers 30–49, whose meaning depends on the negotiated method. -/
def isKexMethodSpecific (number : UInt8) : Bool := 30 ≤ number && number ≤ 49

/-- Name of a message number, for diagnostics. -/
def name (number : UInt8) : Option String :=
  if number = disconnect then some "SSH_MSG_DISCONNECT"
  else if number = ignore then some "SSH_MSG_IGNORE"
  else if number = unimplemented then some "SSH_MSG_UNIMPLEMENTED"
  else if number = debug then some "SSH_MSG_DEBUG"
  else if number = serviceRequest then some "SSH_MSG_SERVICE_REQUEST"
  else if number = serviceAccept then some "SSH_MSG_SERVICE_ACCEPT"
  else if number = extInfo then some "SSH_MSG_EXT_INFO"
  else if number = kexInit then some "SSH_MSG_KEXINIT"
  else if number = newKeys then some "SSH_MSG_NEWKEYS"
  else if number = kexEcdhInit then some "SSH_MSG_KEX_ECDH_INIT"
  else if number = kexEcdhReply then some "SSH_MSG_KEX_ECDH_REPLY"
  else if number = channelOpen then some "SSH_MSG_CHANNEL_OPEN"
  else if number = channelOpenConfirmation then some "SSH_MSG_CHANNEL_OPEN_CONFIRMATION"
  else if number = channelOpenFailure then some "SSH_MSG_CHANNEL_OPEN_FAILURE"
  else none

end Msg

/-! ### Helpers of whole-message decoders -/

/-- Reads the leading message number and checks it. -/
def expectMessage (expected : UInt8) : Decoder MessageError Unit := do
  let found ← Reader.readU8.mapError fun _ => MessageError.empty
  if found = expected then pure () else fail (.unexpectedMessage expected found)

/-- Decodes one named field, attaching its name and offset to any error. -/
def field {α : Type} (name : String) (read : Decoder DecodeError α) : Decoder MessageError α := do
  let r ← here
  read.mapError fun error => MessageError.field name r.pos error

/-- Fails unless the reader is exhausted. -/
def finish : Decoder MessageError Unit := do
  let r ← here
  match r.finish with
  | .ok () => pure ()
  | .error t => fail (.trailingBytes t.count)

/-- Runs a whole-message decoder over a payload. -/
def decodeWith {α : Type} (x : Decoder MessageError α) (payload : Bytes) :
    Except MessageError α := (x (Reader.new payload)).1

section Helpers

variable {α : Type} {r r' : Reader}

/-- `expectMessage` passes over exactly the expected number. -/
theorem expectMessage_ok_iff {expected : UInt8} {u : Unit} :
    expectMessage expected r = (.ok u, r') ↔ r.Advances [expected] r' := by
  unfold expectMessage
  rw [bind_ok_iff]
  simp only [mapError_ok_iff, Reader.readU8_ok_iff]
  constructor
  · rintro ⟨_, _, hfound, h⟩
    split at h
    · rename_i heq
      obtain ⟨-, rfl⟩ := pure_ok_iff.mp h
      rwa [heq] at hfound
    · exact absurd h fail_ne_ok
  · intro h
    exact ⟨expected, r', h, by simp⟩

/-- `field` succeeds exactly as its reader does. -/
theorem field_ok_iff {name : String} {read : Decoder DecodeError α} {a : α} :
    field name read r = (.ok a, r') ↔ read r = (.ok a, r') := by
  unfold field
  rw [bind_ok_iff]
  simp only [here_apply, mapError_ok_iff, Prod.mk.injEq, Except.ok.injEq]
  constructor
  · rintro ⟨_, _, ⟨rfl, rfl⟩, h⟩
    exact h
  · intro h
    exact ⟨r, r, ⟨rfl, rfl⟩, h⟩

/-- `finish` succeeds exactly at the end of the payload. -/
theorem finish_ok_iff {u : Unit} : finish r = (.ok u, r') ↔ r' = r ∧ r.remaining = [] := by
  rw [finish, bind_apply_ok (here_apply r), ← Reader.finish_ok_iff]
  cases hfin : r.finish with
  | ok => simp [eq_comm]
  | error => simp [fail]

/-- A decoder accepts a payload iff it runs to some reader. -/
theorem decodeWith_ok_iff {x : Decoder MessageError α} {payload : Bytes} {a : α} :
    decodeWith x payload = .ok a ↔ ∃ r', x (Reader.new payload) = (.ok a, r') :=
  fst_ok_iff

/-- A message that decodes starts with its number. -/
theorem head_of_decode {expected : UInt8} {f : Unit → Decoder MessageError α} {payload : Bytes}
    {a : α} (h : decodeWith (expectMessage expected >>= f) payload = .ok a) :
    payload.head? = some expected := by
  obtain ⟨_, hrun⟩ := decodeWith_ok_iff.mp h
  obtain ⟨u, _, hnumber, -⟩ := bind_ok_iff.mp hrun
  obtain ⟨-, hremaining⟩ := expectMessage_ok_iff.mp hnumber
  rw [show payload = (Reader.new payload).remaining from rfl, hremaining]
  rfl

end Helpers

/-! ### Generic transport messages -/

/-- `SSH_DISCONNECT_BY_APPLICATION`. -/
def disconnectByApplication : UInt32 := 11

/-- `SSH_MSG_DISCONNECT`. -/
structure Disconnect where
  reasonCode : UInt32
  description : Bytes
  languageTag : Bytes
  deriving DecidableEq, Repr

/-- Decodes a `DISCONNECT`. -/
def Disconnect.decode : Bytes → Except MessageError Disconnect := decodeWith do
  expectMessage Msg.disconnect
  let reasonCode ← field "reason_code" Reader.readU32
  let description ← field "description" Reader.readString
  let languageTag ← field "language_tag" Reader.readString
  finish
  pure { reasonCode, description, languageTag }

/-- Encodes a `DISCONNECT`. -/
def Disconnect.encode (m : Disconnect) : Bytes → Except EncodeError Nat × Bytes := run do
  writeU8 Msg.disconnect
  writeU32 m.reasonCode
  writeString m.description
  writeString m.languageTag

/-- `SSH_MSG_IGNORE`. -/
structure Ignore where
  data : Bytes
  deriving DecidableEq, Repr

/-- Decodes an `IGNORE`. -/
def Ignore.decode : Bytes → Except MessageError Ignore := decodeWith do
  expectMessage Msg.ignore
  let data ← field "data" Reader.readString
  finish
  pure { data }

/-- Encodes an `IGNORE`. -/
def Ignore.encode (m : Ignore) : Bytes → Except EncodeError Nat × Bytes := run do
  writeU8 Msg.ignore
  writeString m.data

/-- `SSH_MSG_UNIMPLEMENTED`. -/
structure Unimplemented where
  sequenceNumber : UInt32
  deriving DecidableEq, Repr

/-- Decodes an `UNIMPLEMENTED`. -/
def Unimplemented.decode : Bytes → Except MessageError Unimplemented := decodeWith do
  expectMessage Msg.unimplemented
  let sequenceNumber ← field "sequence_number" Reader.readU32
  finish
  pure { sequenceNumber }

/-- Encodes an `UNIMPLEMENTED`. -/
def Unimplemented.encode (m : Unimplemented) : Bytes → Except EncodeError Nat × Bytes :=
  run do
    writeU8 Msg.unimplemented
    writeU32 m.sequenceNumber

/-- `SSH_MSG_DEBUG`. -/
structure Debug where
  alwaysDisplay : Bool
  message : Bytes
  languageTag : Bytes
  deriving DecidableEq, Repr

/-- Decodes a `DEBUG`. -/
def Debug.decode : Bytes → Except MessageError Debug := decodeWith do
  expectMessage Msg.debug
  let alwaysDisplay ← field "always_display" Reader.readBool
  let message ← field "message" Reader.readString
  let languageTag ← field "language_tag" Reader.readString
  finish
  pure { alwaysDisplay, message, languageTag }

/-- Encodes a `DEBUG`. -/
def Debug.encode (m : Debug) : Bytes → Except EncodeError Nat × Bytes := run do
  writeU8 Msg.debug
  writeBool m.alwaysDisplay
  writeString m.message
  writeString m.languageTag

/-- `SSH_MSG_SERVICE_REQUEST`. -/
structure ServiceRequest where
  serviceName : Bytes
  deriving DecidableEq, Repr

/-- Decodes a `SERVICE_REQUEST`. -/
def ServiceRequest.decode : Bytes → Except MessageError ServiceRequest := decodeWith do
  expectMessage Msg.serviceRequest
  let serviceName ← field "service_name" Reader.readString
  finish
  pure { serviceName }

/-- Encodes a `SERVICE_REQUEST`. -/
def ServiceRequest.encode (m : ServiceRequest) : Bytes → Except EncodeError Nat × Bytes :=
  run do
    writeU8 Msg.serviceRequest
    writeString m.serviceName

/-- `SSH_MSG_SERVICE_ACCEPT`. -/
structure ServiceAccept where
  serviceName : Bytes
  deriving DecidableEq, Repr

/-- Decodes a `SERVICE_ACCEPT`. -/
def ServiceAccept.decode : Bytes → Except MessageError ServiceAccept := decodeWith do
  expectMessage Msg.serviceAccept
  let serviceName ← field "service_name" Reader.readString
  finish
  pure { serviceName }

/-- Encodes a `SERVICE_ACCEPT`. -/
def ServiceAccept.encode (m : ServiceAccept) : Bytes → Except EncodeError Nat × Bytes :=
  run do
    writeU8 Msg.serviceAccept
    writeString m.serviceName

/-! ### Key-exchange messages -/

/-- `SSH_MSG_KEX_ECDH_INIT`. -/
structure KexEcdhInit where
  /-- `Q_C`, the client's ephemeral public value. -/
  clientEphemeral : Bytes
  deriving DecidableEq, Repr

/-- Decodes a `KEX_ECDH_INIT`. -/
def KexEcdhInit.decode : Bytes → Except MessageError KexEcdhInit := decodeWith do
  expectMessage Msg.kexEcdhInit
  let clientEphemeral ← field "Q_C" Reader.readString
  finish
  pure { clientEphemeral }

/-- Encodes a `KEX_ECDH_INIT`. -/
def KexEcdhInit.encode (m : KexEcdhInit) : Bytes → Except EncodeError Nat × Bytes := run do
  writeU8 Msg.kexEcdhInit
  writeString m.clientEphemeral

/-- `SSH_MSG_KEX_ECDH_REPLY`. -/
structure KexEcdhReply where
  /-- `K_S`, the complete host-key blob. -/
  hostKeyBlob : Bytes
  /-- `Q_S`, the server's ephemeral public value. -/
  serverEphemeral : Bytes
  /-- The signature blob over the exchange hash. -/
  signatureBlob : Bytes
  deriving DecidableEq, Repr

/-- Decodes a `KEX_ECDH_REPLY`. -/
def KexEcdhReply.decode : Bytes → Except MessageError KexEcdhReply := decodeWith do
  expectMessage Msg.kexEcdhReply
  let hostKeyBlob ← field "K_S" Reader.readString
  let serverEphemeral ← field "Q_S" Reader.readString
  let signatureBlob ← field "signature" Reader.readString
  finish
  pure { hostKeyBlob, serverEphemeral, signatureBlob }

/-- Encodes a `KEX_ECDH_REPLY`. -/
def KexEcdhReply.encode (m : KexEcdhReply) : Bytes → Except EncodeError Nat × Bytes :=
  run do
    writeU8 Msg.kexEcdhReply
    writeString m.hostKeyBlob
    writeString m.serverEphemeral
    writeString m.signatureBlob

/-- `SSH_MSG_NEWKEYS`. -/
structure NewKeys where
  deriving DecidableEq, Repr

/-- Decodes a `NEWKEYS`. -/
def NewKeys.decode : Bytes → Except MessageError NewKeys := decodeWith do
  expectMessage Msg.newKeys
  finish
  pure {}

/-- Encodes a `NEWKEYS`. -/
def NewKeys.encode (_ : NewKeys) : Bytes → Except EncodeError Nat × Bytes := run do
  writeU8 Msg.newKeys

/-! ### The bytes of the messages a client sends -/

/-- The bytes of a `NEWKEYS`. -/
def NewKeys.payload : Bytes := [Msg.newKeys]

/-- The bytes of a `KEX_ECDH_INIT`. -/
def KexEcdhInit.payload (m : KexEcdhInit) : Bytes :=
  [Msg.kexEcdhInit] ++ lengthPrefixed m.clientEphemeral

/-- The bytes of a `SERVICE_REQUEST`. -/
def ServiceRequest.payload (m : ServiceRequest) : Bytes :=
  [Msg.serviceRequest] ++ lengthPrefixed m.serviceName

/-- The bytes of a `DISCONNECT`. -/
def Disconnect.payload (m : Disconnect) : Bytes :=
  [Msg.disconnect] ++ (beBytes 4 m.reasonCode.toNat ++
    (lengthPrefixed m.description ++ lengthPrefixed m.languageTag))

/-- A service name that does not fit its length prefix is refused. -/
theorem ServiceRequest.encode_too_long (m : ServiceRequest) (out : Bytes)
    (hlong : 2 ^ 32 ≤ m.serviceName.length) (h : 1 ≤ out.length) :
    ∃ out', m.encode out = (.error (.lengthOverflow m.serviceName.length), out') := by
  obtain ⟨w, hw, -⟩ := produces_writeBytes [Msg.serviceRequest] (new out) h
  refine ⟨w.out, ?_⟩
  rw [ServiceRequest.encode, run, writeU8, bind_apply_ok hw,
    writeString, writePrefixed, if_neg (Nat.not_lt.mpr hlong)]

end Tatami.Wire
