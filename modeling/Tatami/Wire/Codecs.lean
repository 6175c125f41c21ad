import Tatami.Wire.Formats

/-! # Message codecs are exact

The codecs of the thirteen messages that have both directions. Each message gives its format, that
its decoder accepts exactly the strings of it (`delimited`, or `accepts` where a tail follows), how
many strings stand for one value (`format_iff`) and what it is encoded to (`encodesTo`); exactness
and self-delimitation are then put together from these (`message_codecs_exact`). -/

namespace Tatami.Wire

open Writer

/-! ### The messages -/

namespace NewKeys

/-- The strings of a `NEWKEYS`. -/
def format : Format NewKeys UInt8 :=
  (numberFormat Msg.newKeys).bind fun _ => Format.pure {}

theorem delimited : Delimited decode format :=
  Delimits.delimited <|
    number_delimits fun _ =>
    delimits_finish _

theorem format_iff (m : NewKeys) (p : Bytes) : format m p ↔ True ∧ p = NewKeys.payload := by
  obtain ⟨⟩ := m
  simp [format, Format.bind, Format.pure, numberFormat, payload]

theorem encodesTo (m : NewKeys) : EncodesTo m.encode NewKeys.payload :=
  (writes_writeBytes [Msg.newKeys]).encodesTo

end NewKeys

namespace KexEcdhInit

/-- The string fits its length field. -/
def Short (m : KexEcdhInit) : Prop := m.clientEphemeral.length < 2 ^ 32

/-- The strings of a `KEX_ECDH_INIT`. -/
def format : Format KexEcdhInit UInt8 :=
  (numberFormat Msg.kexEcdhInit).bind fun _ => stringFormat.bind fun clientEphemeral =>
    Format.pure { clientEphemeral }

theorem delimited : Delimited decode format :=
  Delimits.delimited <|
    number_delimits fun _ =>
    field_delimits decodes_readString fun _ =>
    delimits_finish _

theorem format_iff (m : KexEcdhInit) (p : Bytes) : format m p ↔ m.Short ∧ p = m.payload := by
  obtain ⟨⟩ := m
  simp [format, Format.bind, Format.pure, numberFormat, stringFormat,
    Short, payload, and_comm]

theorem encodesTo (m : KexEcdhInit) (h : m.Short) : EncodesTo m.encode m.payload :=
  ((writes_writeBytes [Msg.kexEcdhInit]).seq
    (writes_writePrefixed h)).encodesTo

end KexEcdhInit

namespace KexEcdhReply

/-- The bytes of a `KEX_ECDH_REPLY`. -/
def payload (m : KexEcdhReply) : Bytes :=
  [Msg.kexEcdhReply] ++ (lengthPrefixed m.hostKeyBlob ++ (lengthPrefixed m.serverEphemeral ++
    lengthPrefixed m.signatureBlob))

/-- The strings fit their length fields. -/
def Short (m : KexEcdhReply) : Prop :=
  m.hostKeyBlob.length < 2 ^ 32 ∧ m.serverEphemeral.length < 2 ^ 32 ∧
    m.signatureBlob.length < 2 ^ 32

/-- The strings of a `KEX_ECDH_REPLY`. -/
def format : Format KexEcdhReply UInt8 :=
  (numberFormat Msg.kexEcdhReply).bind fun _ => stringFormat.bind fun hostKeyBlob =>
    stringFormat.bind fun serverEphemeral => stringFormat.bind fun signatureBlob =>
    Format.pure { hostKeyBlob, serverEphemeral, signatureBlob }

theorem delimited : Delimited decode format :=
  Delimits.delimited <|
    number_delimits fun _ =>
    field_delimits decodes_readString fun _ =>
    field_delimits decodes_readString fun _ =>
    field_delimits decodes_readString fun _ =>
    delimits_finish _

theorem format_iff (m : KexEcdhReply) (p : Bytes) : format m p ↔ m.Short ∧ p = m.payload := by
  obtain ⟨⟩ := m
  simp [format, Format.bind, Format.pure, numberFormat, stringFormat,
    Short, payload, and_comm]

/-- **Exact decoding of the reply**: a payload is accepted iff it is the message number and the
three length-prefixed fields, with nothing after them. -/
theorem decode_ok_iff {p : Bytes} {m : KexEcdhReply} :
    decode p = .ok m ↔ m.Short ∧ p = m.payload :=
  (delimited.accepts p m).trans (format_iff m p)

theorem encodesTo (m : KexEcdhReply) (h : m.Short) : EncodesTo m.encode m.payload :=
  ((writes_writeBytes [Msg.kexEcdhReply]).seq
    ((writes_writePrefixed h.1).seq
    ((writes_writePrefixed h.2.1).seq
    (writes_writePrefixed h.2.2)))).encodesTo

end KexEcdhReply

namespace Disconnect

/-- The strings fit their length fields. -/
def Short (m : Disconnect) : Prop := m.description.length < 2 ^ 32 ∧ m.languageTag.length < 2 ^ 32

/-- The strings of a `DISCONNECT`. -/
def format : Format Disconnect UInt8 :=
  (numberFormat Msg.disconnect).bind fun _ => u32Format.bind fun reasonCode =>
    stringFormat.bind fun description => stringFormat.bind fun languageTag =>
    Format.pure { reasonCode, description, languageTag }

theorem delimited : Delimited decode format :=
  Delimits.delimited <|
    number_delimits fun _ =>
    field_delimits decodes_readU32 fun _ =>
    field_delimits decodes_readString fun _ =>
    field_delimits decodes_readString fun _ =>
    delimits_finish _

theorem format_iff (m : Disconnect) (p : Bytes) : format m p ↔ m.Short ∧ p = m.payload := by
  obtain ⟨⟩ := m
  simp [format, Format.bind, Format.pure, numberFormat, u32Format, stringFormat,
    Short, payload, and_comm]

theorem encodesTo (m : Disconnect) (h : m.Short) : EncodesTo m.encode m.payload :=
  ((writes_writeBytes [Msg.disconnect]).seq
    ((writes_writeBytes (beBytes 4 m.reasonCode.toNat)).seq
    ((writes_writePrefixed h.1).seq
    (writes_writePrefixed h.2)))).encodesTo

end Disconnect

namespace Ignore

/-- The bytes of an `IGNORE`. -/
def payload (m : Ignore) : Bytes :=
  [Msg.ignore] ++ lengthPrefixed m.data

/-- The string fits its length field. -/
def Short (m : Ignore) : Prop := m.data.length < 2 ^ 32

/-- The strings of an `IGNORE`. -/
def format : Format Ignore UInt8 :=
  (numberFormat Msg.ignore).bind fun _ => stringFormat.bind fun data => Format.pure { data }

theorem delimited : Delimited decode format :=
  Delimits.delimited <|
    number_delimits fun _ =>
    field_delimits decodes_readString fun _ =>
    delimits_finish _

theorem format_iff (m : Ignore) (p : Bytes) : format m p ↔ m.Short ∧ p = m.payload := by
  obtain ⟨⟩ := m
  simp [format, Format.bind, Format.pure, numberFormat, stringFormat,
    Short, payload, and_comm]

theorem encodesTo (m : Ignore) (h : m.Short) : EncodesTo m.encode m.payload :=
  ((writes_writeBytes [Msg.ignore]).seq
    (writes_writePrefixed h)).encodesTo

end Ignore

namespace Unimplemented

/-- The bytes of an `UNIMPLEMENTED`. -/
def payload (m : Unimplemented) : Bytes :=
  [Msg.unimplemented] ++ beBytes 4 m.sequenceNumber.toNat

/-- The strings of an `UNIMPLEMENTED`. -/
def format : Format Unimplemented UInt8 :=
  (numberFormat Msg.unimplemented).bind fun _ => u32Format.bind fun sequenceNumber =>
    Format.pure { sequenceNumber }

theorem delimited : Delimited decode format :=
  Delimits.delimited <|
    number_delimits fun _ =>
    field_delimits decodes_readU32 fun _ =>
    delimits_finish _

theorem format_iff (m : Unimplemented) (p : Bytes) : format m p ↔ True ∧ p = m.payload := by
  obtain ⟨⟩ := m
  simp [format, Format.bind, Format.pure, numberFormat, u32Format, payload]

theorem encodesTo (m : Unimplemented) : EncodesTo m.encode m.payload :=
  ((writes_writeBytes [Msg.unimplemented]).seq
    (writes_writeBytes (beBytes 4 m.sequenceNumber.toNat))).encodesTo

end Unimplemented

namespace ServiceRequest

/-- The string fits its length field. -/
def Short (m : ServiceRequest) : Prop := m.serviceName.length < 2 ^ 32

/-- The strings of a `SERVICE_REQUEST`. -/
def format : Format ServiceRequest UInt8 :=
  (numberFormat Msg.serviceRequest).bind fun _ => stringFormat.bind fun serviceName =>
    Format.pure { serviceName }

theorem delimited : Delimited decode format :=
  Delimits.delimited <|
    number_delimits fun _ =>
    field_delimits decodes_readString fun _ =>
    delimits_finish _

theorem format_iff (m : ServiceRequest) (p : Bytes) : format m p ↔ m.Short ∧ p = m.payload := by
  obtain ⟨⟩ := m
  simp [format, Format.bind, Format.pure, numberFormat, stringFormat,
    Short, payload, and_comm]

theorem encodesTo (m : ServiceRequest) (h : m.Short) : EncodesTo m.encode m.payload :=
  ((writes_writeBytes [Msg.serviceRequest]).seq
    (writes_writePrefixed h)).encodesTo

end ServiceRequest

namespace ServiceAccept

/-- The bytes of a `SERVICE_ACCEPT`. -/
def payload (m : ServiceAccept) : Bytes :=
  [Msg.serviceAccept] ++ lengthPrefixed m.serviceName

/-- The string fits its length field. -/
def Short (m : ServiceAccept) : Prop := m.serviceName.length < 2 ^ 32

/-- The strings of a `SERVICE_ACCEPT`. -/
def format : Format ServiceAccept UInt8 :=
  (numberFormat Msg.serviceAccept).bind fun _ => stringFormat.bind fun serviceName =>
    Format.pure { serviceName }

theorem delimited : Delimited decode format :=
  Delimits.delimited <|
    number_delimits fun _ =>
    field_delimits decodes_readString fun _ =>
    delimits_finish _

theorem format_iff (m : ServiceAccept) (p : Bytes) : format m p ↔ m.Short ∧ p = m.payload := by
  obtain ⟨⟩ := m
  simp [format, Format.bind, Format.pure, numberFormat, stringFormat,
    Short, payload, and_comm]

theorem encodesTo (m : ServiceAccept) (h : m.Short) : EncodesTo m.encode m.payload :=
  ((writes_writeBytes [Msg.serviceAccept]).seq
    (writes_writePrefixed h)).encodesTo

end ServiceAccept

namespace ChannelOpenFailure

/-- The bytes of a `CHANNEL_OPEN_FAILURE`. -/
def payload (m : ChannelOpenFailure) : Bytes :=
  [Msg.channelOpenFailure] ++ (beBytes 4 m.recipientChannel.toNat ++ (
    beBytes 4 m.reasonCode.toNat ++ (lengthPrefixed m.description ++
    lengthPrefixed m.languageTag)))

/-- The strings fit their length fields. -/
def Short (m : ChannelOpenFailure) : Prop :=
  m.description.length < 2 ^ 32 ∧ m.languageTag.length < 2 ^ 32

/-- The strings of a `CHANNEL_OPEN_FAILURE`. -/
def format : Format ChannelOpenFailure UInt8 :=
  (numberFormat Msg.channelOpenFailure).bind fun _ => u32Format.bind fun recipientChannel =>
    u32Format.bind fun reasonCode => stringFormat.bind fun description =>
    stringFormat.bind fun languageTag =>
    Format.pure { recipientChannel, reasonCode, description, languageTag }

theorem delimited : Delimited decode format :=
  Delimits.delimited <|
    number_delimits fun _ =>
    field_delimits decodes_readU32 fun _ =>
    field_delimits decodes_readU32 fun _ =>
    field_delimits decodes_readString fun _ =>
    field_delimits decodes_readString fun _ =>
    delimits_finish _

theorem format_iff (m : ChannelOpenFailure) (p : Bytes) : format m p ↔ m.Short ∧ p = m.payload := by
  obtain ⟨⟩ := m
  simp [format, Format.bind, Format.pure, numberFormat, u32Format, stringFormat,
    Short, payload, and_comm]

theorem encodesTo (m : ChannelOpenFailure) (h : m.Short) : EncodesTo m.encode m.payload :=
  ((writes_writeBytes [Msg.channelOpenFailure]).seq
    ((writes_writeBytes (beBytes 4 m.recipientChannel.toNat)).seq
    ((writes_writeBytes (beBytes 4 m.reasonCode.toNat)).seq
    ((writes_writePrefixed h.1).seq
    (writes_writePrefixed h.2))))).encodesTo

end ChannelOpenFailure

namespace ChannelOpen

/-- The bytes of a `CHANNEL_OPEN`. -/
def payload (m : ChannelOpen) : Bytes :=
  [Msg.channelOpen] ++ (lengthPrefixed m.channelType ++ (beBytes 4 m.senderChannel.toNat ++ (
    beBytes 4 m.initialWindowSize.toNat ++ (beBytes 4 m.maximumPacketSize.toNat ++
    m.typeSpecific))))

/-- The string fits its length field. -/
def Short (m : ChannelOpen) : Prop := m.channelType.length < 2 ^ 32

/-- The strings of a `CHANNEL_OPEN`. -/
def format : Format ChannelOpen UInt8 :=
  (numberFormat Msg.channelOpen).bind fun _ => stringFormat.bind fun channelType =>
    u32Format.bind fun senderChannel => u32Format.bind fun initialWindowSize =>
    u32Format.bind fun maximumPacketSize => fun m tail =>
    m = { channelType, senderChannel, initialWindowSize, maximumPacketSize, typeSpecific := tail }

theorem accepts : Accepts decode format :=
  DecodesAll.accepts <|
    Decodes.bindAll (decodes_expectMessage _) fun _ =>
    Decodes.bindAll (Decodes.field decodes_readString _) fun _ =>
    Decodes.bindAll (Decodes.field decodes_readU32 _) fun _ =>
    Decodes.bindAll (Decodes.field decodes_readU32 _) fun _ =>
    Decodes.bindAll (Decodes.field decodes_readU32 _) fun _ =>
    decodesAll_here _

theorem format_iff (m : ChannelOpen) (p : Bytes) : format m p ↔ m.Short ∧ p = m.payload := by
  obtain ⟨⟩ := m
  simp [format, Format.bind, numberFormat, u32Format, stringFormat,
    Short, payload, and_comm]

theorem encodesTo (m : ChannelOpen) (h : m.Short) : EncodesTo m.encode m.payload :=
  ((writes_writeBytes [Msg.channelOpen]).seq
    ((writes_writePrefixed h).seq
    ((writes_writeBytes (beBytes 4 m.senderChannel.toNat)).seq
    ((writes_writeBytes (beBytes 4 m.initialWindowSize.toNat)).seq
    ((writes_writeBytes (beBytes 4 m.maximumPacketSize.toNat)).seq
    (writes_writeBytes m.typeSpecific)))))).encodesTo

end ChannelOpen

namespace ChannelOpenConfirmation

/-- The bytes of a `CHANNEL_OPEN_CONFIRMATION`. -/
def payload (m : ChannelOpenConfirmation) : Bytes :=
  [Msg.channelOpenConfirmation] ++ (beBytes 4 m.recipientChannel.toNat ++ (
    beBytes 4 m.senderChannel.toNat ++ (beBytes 4 m.initialWindowSize.toNat ++ (
    beBytes 4 m.maximumPacketSize.toNat ++ m.typeSpecific))))

/-- The strings of a `CHANNEL_OPEN_CONFIRMATION`. -/
def format : Format ChannelOpenConfirmation UInt8 :=
  (numberFormat Msg.channelOpenConfirmation).bind fun _ => u32Format.bind fun recipientChannel =>
    u32Format.bind fun senderChannel => u32Format.bind fun initialWindowSize =>
    u32Format.bind fun maximumPacketSize => fun m tail =>
    m = { recipientChannel, senderChannel, initialWindowSize, maximumPacketSize,
          typeSpecific := tail }

theorem accepts : Accepts decode format :=
  DecodesAll.accepts <|
    Decodes.bindAll (decodes_expectMessage _) fun _ =>
    Decodes.bindAll (Decodes.field decodes_readU32 _) fun _ =>
    Decodes.bindAll (Decodes.field decodes_readU32 _) fun _ =>
    Decodes.bindAll (Decodes.field decodes_readU32 _) fun _ =>
    Decodes.bindAll (Decodes.field decodes_readU32 _) fun _ =>
    decodesAll_here _

theorem format_iff (m : ChannelOpenConfirmation) (p : Bytes) :
    format m p ↔ True ∧ p = m.payload := by
  obtain ⟨⟩ := m
  simp [format, Format.bind, numberFormat, u32Format, payload]

theorem encodesTo (m : ChannelOpenConfirmation) : EncodesTo m.encode m.payload :=
  ((writes_writeBytes [Msg.channelOpenConfirmation]).seq
    ((writes_writeBytes (beBytes 4 m.recipientChannel.toNat)).seq
    ((writes_writeBytes (beBytes 4 m.senderChannel.toNat)).seq
    ((writes_writeBytes (beBytes 4 m.initialWindowSize.toNat)).seq
    ((writes_writeBytes (beBytes 4 m.maximumPacketSize.toNat)).seq
    (writes_writeBytes m.typeSpecific)))))).encodesTo

end ChannelOpenConfirmation

namespace Debug

/-- The bytes of a `DEBUG`. -/
def payload (m : Debug) : Bytes :=
  [Msg.debug] ++ ([if m.alwaysDisplay then 1 else 0] ++
    (lengthPrefixed m.message ++ lengthPrefixed m.languageTag))

/-- The strings fit their length fields. -/
def Short (m : Debug) : Prop := m.message.length < 2 ^ 32 ∧ m.languageTag.length < 2 ^ 32

/-- The strings of a `DEBUG`. -/
def format : Format Debug UInt8 :=
  (numberFormat Msg.debug).bind fun _ => boolFormat.bind fun alwaysDisplay =>
    stringFormat.bind fun message => stringFormat.bind fun languageTag =>
    Format.pure { alwaysDisplay, message, languageTag }

theorem delimited : Delimited decode format :=
  Delimits.delimited <|
    number_delimits fun _ =>
    field_delimits decodes_readBool fun _ =>
    field_delimits decodes_readString fun _ =>
    field_delimits decodes_readString fun _ =>
    delimits_finish _

/-- The strings of a `DEBUG` differ in the byte of their boolean. -/
theorem format_iff (m : Debug) (p : Bytes) :
    format m p ↔ ∃ b : UInt8, p = [Msg.debug] ++ b :: (lengthPrefixed m.message ++
      lengthPrefixed m.languageTag) ∧ m.Short ∧ m.alwaysDisplay = (b != 0) := by
  obtain ⟨⟩ := m
  simp [format, Format.bind, Format.pure, numberFormat, boolFormat, stringFormat, Short,
    and_assoc, -Bool.exists_bool]

theorem encodesTo (m : Debug) (h : m.Short) : EncodesTo m.encode m.payload :=
  ((writes_writeBytes [Msg.debug]).seq
    ((writes_writeBytes [if m.alwaysDisplay then 1 else 0]).seq
    ((writes_writePrefixed h.1).seq
    (writes_writePrefixed h.2)))).encodesTo

end Debug

namespace KexInit

/-- The name lists fit their length fields. -/
def Short (k : KexInit) : Prop := ∀ l ∈ k.nameLists, l.body.length < 2 ^ 32

/-- The strings of a `KEXINIT`. -/
def format : Format KexInit UInt8 :=
  (numberFormat Msg.kexInit).bind fun _ => (bytesFormat cookieLen).bind fun cookie =>
    nameListFormat.bind fun kexAlgorithms => nameListFormat.bind fun serverHostKeyAlgorithms =>
    nameListFormat.bind fun encryptionClientToServer =>
    nameListFormat.bind fun encryptionServerToClient =>
    nameListFormat.bind fun macClientToServer => nameListFormat.bind fun macServerToClient =>
    nameListFormat.bind fun compressionClientToServer =>
    nameListFormat.bind fun compressionServerToClient =>
    nameListFormat.bind fun languagesClientToServer =>
    nameListFormat.bind fun languagesServerToClient =>
    boolFormat.bind fun firstKexPacketFollows => u32Format.bind fun reserved =>
    Format.pure
      { cookie, kexAlgorithms, serverHostKeyAlgorithms, encryptionClientToServer,
        encryptionServerToClient, macClientToServer, macServerToClient, compressionClientToServer,
        compressionServerToClient, languagesClientToServer, languagesServerToClient,
        firstKexPacketFollows, reserved }

theorem delimited : Delimited decode format :=
  Delimits.delimited <|
    number_delimits fun _ =>
    field_delimits (decodes_readBytes cookieLen) fun _ =>
    field_delimits decodes_readNameList fun _ =>
    field_delimits decodes_readNameList fun _ =>
    field_delimits decodes_readNameList fun _ =>
    field_delimits decodes_readNameList fun _ =>
    field_delimits decodes_readNameList fun _ =>
    field_delimits decodes_readNameList fun _ =>
    field_delimits decodes_readNameList fun _ =>
    field_delimits decodes_readNameList fun _ =>
    field_delimits decodes_readNameList fun _ =>
    field_delimits decodes_readNameList fun _ =>
    field_delimits decodes_readBool fun _ =>
    field_delimits decodes_readU32 fun _ =>
    delimits_finish _

/-- The bytes of a `KEXINIT` before its boolean. -/
def front (k : KexInit) : Bytes :=
  [Msg.kexInit] ++ (k.cookie.toBytes ++ k.nameLists.flatMap fun l => lengthPrefixed l.body)

/-- The bytes of a `KEXINIT`, around its boolean. -/
theorem payload_eq (k : KexInit) :
    k.payload = k.front ++
      (if k.firstKexPacketFollows then 1 else 0) :: beBytes 4 k.reserved.toNat := by
  simp [payload, front, nameLists]

/-- The strings of a `KEXINIT` differ in the byte of their boolean. -/
theorem format_iff (k : KexInit) (p : Bytes) :
    format k p ↔ ∃ b : UInt8, p = k.front ++ b :: beBytes 4 k.reserved.toNat ∧ k.Short ∧
      k.firstKexPacketFollows = (b != 0) := by
  obtain ⟨⟩ := k
  simp [format, Format.bind, Format.pure, numberFormat, bytesFormat, nameListFormat, u32Format,
    boolFormat, front, nameLists, Short, and_assoc, -Bool.exists_bool]

/-- The bytes of a `KEXINIT` are one of its strings. -/
theorem format_payload (k : KexInit) (h : k.Short) : format k k.payload := by
  refine (format_iff k _).mpr ⟨_, payload_eq k, h, ?_⟩
  cases k.firstKexPacketFollows <;> rfl

/-- Decoding the bytes of a `KEXINIT` gives it back. -/
theorem decode_payload (k : KexInit) (h : k.Short) : decode k.payload = .ok k :=
  (delimited.accepts _ k).mpr (format_payload k h)

theorem encodesTo (k : KexInit) (h : k.Short) : EncodesTo k.encode k.payload := by
  rw [payload_eq, front, List.append_assoc, List.append_assoc]
  exact ((writes_writeBytes [Msg.kexInit]).seq
    ((writes_writeBytes k.cookie.toBytes).seq
    ((writes_writeNameLists k.nameLists h).seq
    ((writes_writeBytes [if k.firstKexPacketFollows then 1 else 0]).seq
    (writes_writeBytes (beBytes 4 k.reserved.toNat)))))).encodesTo

end KexInit

/-! ### Every message -/

/-- The codec of a `DEBUG`, whose boolean is the byte behind the message number. -/
theorem Debug.exactCodec : ExactCodec Debug.decode Debug.encode Debug.Short (normalizeBool 1) := by
  refine .of_accepts delimited.accepts encodesTo (fun m hm => ?_) fun m p hp => ?_
  · refine (format_iff m _).mpr ⟨_, rfl, hm, ?_⟩
    cases m.alwaysDisplay <;> rfl
  · obtain ⟨b, rfl, hm, hb⟩ := (format_iff m p).mp hp
    refine ⟨hm, ?_⟩
    rw [show 1 = [Msg.debug].length from rfl, normalizeBool_append, ← hb]
    rfl

/-- The codec of a `KEXINIT`, whose boolean is the byte before the trailing `uint32`. -/
theorem KexInit.exactCodec : ExactCodec KexInit.decode KexInit.encode KexInit.Short
    (fun payload => normalizeBool (payload.length - 5) payload) := by
  refine .of_accepts delimited.accepts encodesTo format_payload fun k p hp => ?_
  obtain ⟨b, rfl, hk, hb⟩ := (format_iff k p).mp hp
  refine ⟨hk, ?_⟩
  have hindex : (k.front ++ b :: beBytes 4 k.reserved.toNat).length - 5 = k.front.length := by
    rw [List.length_append, List.length_cons, length_beBytes]
    omega
  rw [hindex, normalizeBool_append, ← hb, payload_eq]

/-- **Message codecs are exact and self-delimiting.** Whatever is short enough for its length fields
is decoded from what it is encoded to, and is refused by a buffer it does not fit in; what was
decoded encodes to its payload, the boolean of a `KEXINIT` or `DEBUG` written as zero or one; and
but for the two messages with a type-specific tail, no accepted payload is a proper beginning of
another one. -/
theorem message_codecs_exact :
    (ExactCodec KexInit.decode KexInit.encode KexInit.Short
        (fun payload => normalizeBool (payload.length - 5) payload) ∧
      SelfDelimiting KexInit.decode) ∧
    (ExactCodec KexEcdhInit.decode KexEcdhInit.encode KexEcdhInit.Short id ∧
      SelfDelimiting KexEcdhInit.decode) ∧
    (ExactCodec KexEcdhReply.decode KexEcdhReply.encode KexEcdhReply.Short id ∧
      SelfDelimiting KexEcdhReply.decode) ∧
    (ExactCodec NewKeys.decode NewKeys.encode (fun _ => True) id ∧
      SelfDelimiting NewKeys.decode) ∧
    (ExactCodec Disconnect.decode Disconnect.encode Disconnect.Short id ∧
      SelfDelimiting Disconnect.decode) ∧
    (ExactCodec Ignore.decode Ignore.encode Ignore.Short id ∧ SelfDelimiting Ignore.decode) ∧
    (ExactCodec Unimplemented.decode Unimplemented.encode (fun _ => True) id ∧
      SelfDelimiting Unimplemented.decode) ∧
    (ExactCodec Debug.decode Debug.encode Debug.Short (normalizeBool 1) ∧
      SelfDelimiting Debug.decode) ∧
    (ExactCodec ServiceRequest.decode ServiceRequest.encode ServiceRequest.Short id ∧
      SelfDelimiting ServiceRequest.decode) ∧
    (ExactCodec ServiceAccept.decode ServiceAccept.encode ServiceAccept.Short id ∧
      SelfDelimiting ServiceAccept.decode) ∧
    ExactCodec ChannelOpen.decode ChannelOpen.encode ChannelOpen.Short id ∧
    ExactCodec ChannelOpenConfirmation.decode ChannelOpenConfirmation.encode (fun _ => True) id ∧
    (ExactCodec ChannelOpenFailure.decode ChannelOpenFailure.encode ChannelOpenFailure.Short id ∧
      SelfDelimiting ChannelOpenFailure.decode) :=
  ⟨⟨KexInit.exactCodec, KexInit.delimited.selfDelimiting⟩,
    KexEcdhInit.delimited.exact KexEcdhInit.encodesTo KexEcdhInit.format_iff,
    KexEcdhReply.delimited.exact KexEcdhReply.encodesTo KexEcdhReply.format_iff,
    NewKeys.delimited.exact (fun m _ => m.encodesTo) NewKeys.format_iff,
    Disconnect.delimited.exact Disconnect.encodesTo Disconnect.format_iff,
    Ignore.delimited.exact Ignore.encodesTo Ignore.format_iff,
    Unimplemented.delimited.exact (fun m _ => m.encodesTo) Unimplemented.format_iff,
    ⟨Debug.exactCodec, Debug.delimited.selfDelimiting⟩,
    ServiceRequest.delimited.exact ServiceRequest.encodesTo ServiceRequest.format_iff,
    ServiceAccept.delimited.exact ServiceAccept.encodesTo ServiceAccept.format_iff,
    .of_unique ChannelOpen.accepts ChannelOpen.encodesTo ChannelOpen.format_iff,
    .of_unique ChannelOpenConfirmation.accepts (fun m _ => m.encodesTo)
      ChannelOpenConfirmation.format_iff,
    ChannelOpenFailure.delimited.exact ChannelOpenFailure.encodesTo
      ChannelOpenFailure.format_iff⟩

end Tatami.Wire
