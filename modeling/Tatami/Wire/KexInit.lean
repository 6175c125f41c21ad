import Tatami.Wire.Messages

/-! # The `KEXINIT` message

The payload codec of RFC 4253 §7.1, the recognition of extension markers among the key-exchange
names, and the owned copy kept in reports. Decoding attaches no meaning to any name. -/

namespace Tatami.Wire

open Reader

/-- Length of the cookie in bytes. -/
def cookieLen : Nat := 16

/-- A decoded `KEXINIT`. -/
structure KexInit where
  cookie : ByteVec cookieLen
  kexAlgorithms : NameList
  serverHostKeyAlgorithms : NameList
  encryptionClientToServer : NameList
  encryptionServerToClient : NameList
  macClientToServer : NameList
  macServerToClient : NameList
  compressionClientToServer : NameList
  compressionServerToClient : NameList
  languagesClientToServer : NameList
  languagesServerToClient : NameList
  firstKexPacketFollows : Bool
  /-- The trailing `uint32`, as sent. -/
  reserved : UInt32
  deriving DecidableEq

namespace KexInit

/-- Decodes a `KEXINIT`. That the cookie has its length is in the type of `readBytes`, where the
source states it with an `expect`. -/
def decode : Bytes → Except MessageError KexInit := decodeWith do
  expectMessage Msg.kexInit
  let cookie ← field "cookie" (readBytes cookieLen)
  let kexAlgorithms ← field "kex_algorithms" readNameList
  let serverHostKeyAlgorithms ← field "server_host_key_algorithms" readNameList
  let encryptionClientToServer ←
    field "encryption_algorithms_client_to_server" readNameList
  let encryptionServerToClient ←
    field "encryption_algorithms_server_to_client" readNameList
  let macClientToServer ← field "mac_algorithms_client_to_server" readNameList
  let macServerToClient ← field "mac_algorithms_server_to_client" readNameList
  let compressionClientToServer ←
    field "compression_algorithms_client_to_server" readNameList
  let compressionServerToClient ←
    field "compression_algorithms_server_to_client" readNameList
  let languagesClientToServer ← field "languages_client_to_server" readNameList
  let languagesServerToClient ← field "languages_server_to_client" readNameList
  let firstKexPacketFollows ← field "first_kex_packet_follows" readBool
  let reserved ← field "reserved" readU32
  finish
  pure
    { cookie, kexAlgorithms, serverHostKeyAlgorithms, encryptionClientToServer,
      encryptionServerToClient, macClientToServer, macServerToClient, compressionClientToServer,
      compressionServerToClient, languagesClientToServer, languagesServerToClient,
      firstKexPacketFollows, reserved }

/-- The ten name lists in wire order. -/
def nameLists (k : KexInit) : List NameList :=
  [k.kexAlgorithms, k.serverHostKeyAlgorithms, k.encryptionClientToServer,
    k.encryptionServerToClient, k.macClientToServer, k.macServerToClient,
    k.compressionClientToServer, k.compressionServerToClient, k.languagesClientToServer,
    k.languagesServerToClient]

/-- Writes name lists, one behind the other. -/
def writeNameLists : List NameList → Encoder Unit
  | [] => pure ()
  | list :: rest => do
    Writer.writeNameList list.iter
    writeNameLists rest

/-- Encodes a `KEXINIT`. -/
def encode (k : KexInit) : Bytes → Except EncodeError Nat × Bytes := Writer.run do
  Writer.writeU8 Msg.kexInit
  Writer.writeBytes k.cookie.toBytes
  writeNameLists k.nameLists
  Writer.writeBool k.firstKexPacketFollows
  Writer.writeU32 k.reserved

/-- Names of the eight algorithm lists that RFC 4253 requires to be non-empty, in wire order. -/
def algorithmListNames : List String :=
  ["kex_algorithms", "server_host_key_algorithms", "encryption_algorithms_client_to_server",
    "encryption_algorithms_server_to_client", "mac_algorithms_client_to_server",
    "mac_algorithms_server_to_client", "compression_algorithms_client_to_server",
    "compression_algorithms_server_to_client"]

/-- The required algorithm lists that are empty. Language lists are never reported. -/
def emptyAlgorithmLists (k : KexInit) : List String :=
  ((algorithmListNames.zip k.nameLists).filter fun list => list.2.isEmpty).map (·.1)

/-- The bytes of a `KEXINIT`. -/
def payload (k : KexInit) : Bytes :=
  [Msg.kexInit] ++ (k.cookie.toBytes ++ (lengthPrefixed k.kexAlgorithms.body ++
    (lengthPrefixed k.serverHostKeyAlgorithms.body ++
    (lengthPrefixed k.encryptionClientToServer.body ++
    (lengthPrefixed k.encryptionServerToClient.body ++
    (lengthPrefixed k.macClientToServer.body ++ (lengthPrefixed k.macServerToClient.body ++
    (lengthPrefixed k.compressionClientToServer.body ++
    (lengthPrefixed k.compressionServerToClient.body ++
    (lengthPrefixed k.languagesClientToServer.body ++
    (lengthPrefixed k.languagesServerToClient.body ++
    ([if k.firstKexPacketFollows then 1 else 0] ++ beBytes 4 k.reserved.toNat))))))))))))

end KexInit

/-! ### Markers among the key-exchange names -/

/-- Which side sends a strict-KEX marker. -/
inductive StrictKexRole where
  | client
  | server
  deriving DecidableEq, Repr

/-- Spelling family of a strict-KEX marker. -/
inductive StrictKexSpelling where
  | standard
  | openSshV00
  deriving DecidableEq, Repr

/-- A recognised strict-KEX marker. -/
structure StrictKexMarker where
  role : StrictKexRole
  spelling : StrictKexSpelling
  deriving DecidableEq, Repr

/-- Semantic annotation of an entry of `kex_algorithms`. -/
inductive KexName where
  | method
  | extInfoClient
  | extInfoServer
  | strictKexClient
  | strictKexServer
  deriving DecidableEq, Repr

/-- Recognises the four strict-KEX marker names. -/
def classifyStrictKexName (name : Bytes) : Option StrictKexMarker :=
  if name = utf8 "kex-strict-c" then some ⟨.client, .standard⟩
  else if name = utf8 "kex-strict-s" then some ⟨.server, .standard⟩
  else if name = utf8 "kex-strict-c-v00@openssh.com" then some ⟨.client, .openSshV00⟩
  else if name = utf8 "kex-strict-s-v00@openssh.com" then some ⟨.server, .openSshV00⟩
  else none

/-- Classifies one entry of a `kex_algorithms` list. -/
def classifyKexName (name : Bytes) : KexName :=
  if name = utf8 "ext-info-c" then .extInfoClient
  else if name = utf8 "ext-info-s" then .extInfoServer
  else
    match classifyStrictKexName name with
    | some ⟨.client, _⟩ => .strictKexClient
    | some ⟨.server, _⟩ => .strictKexServer
    | none => .method

/-! ### Owned copies -/

/-- Owned copy of a decoded `KEXINIT`, for reports that outlive the payload. -/
structure OwnedKexInit where
  cookie : ByteVec cookieLen
  kexAlgorithms : List String
  serverHostKeyAlgorithms : List String
  encryptionClientToServer : List String
  encryptionServerToClient : List String
  macClientToServer : List String
  macServerToClient : List String
  compressionClientToServer : List String
  compressionServerToClient : List String
  languagesClientToServer : List String
  languagesServerToClient : List String
  firstKexPacketFollows : Bool
  reserved : UInt32
  deriving DecidableEq

/-- The names of a list as owned text. -/
def ownNames (list : NameList) : List String := list.iter.map fromUtf8Lossy

/-- Copies every field. -/
def KexInit.toOwned (k : KexInit) : OwnedKexInit where
  cookie := k.cookie
  kexAlgorithms := ownNames k.kexAlgorithms
  serverHostKeyAlgorithms := ownNames k.serverHostKeyAlgorithms
  encryptionClientToServer := ownNames k.encryptionClientToServer
  encryptionServerToClient := ownNames k.encryptionServerToClient
  macClientToServer := ownNames k.macClientToServer
  macServerToClient := ownNames k.macServerToClient
  compressionClientToServer := ownNames k.compressionClientToServer
  compressionServerToClient := ownNames k.compressionServerToClient
  languagesClientToServer := ownNames k.languagesClientToServer
  languagesServerToClient := ownNames k.languagesServerToClient
  firstKexPacketFollows := k.firstKexPacketFollows
  reserved := k.reserved

end Tatami.Wire
