import Tatami.Wire.Messages

/-! # Channel-opening messages

The codecs of RFC 4254 §5.1. The tail of `CHANNEL_OPEN` and of its confirmation is whatever follows
the fixed fields: neither decoder needs to understand a channel type to find the end. -/

namespace Tatami.Wire

open Writer Reader

/-- `SSH_MSG_CHANNEL_OPEN`. -/
structure ChannelOpen where
  channelType : Bytes
  senderChannel : UInt32
  initialWindowSize : UInt32
  maximumPacketSize : UInt32
  typeSpecific : Bytes
  deriving DecidableEq, Repr

/-- Decodes a `CHANNEL_OPEN`. -/
def ChannelOpen.decode : Bytes → Except MessageError ChannelOpen := decodeWith do
  expectMessage Msg.channelOpen
  let channelType ← field "channel_type" readString
  let senderChannel ← field "sender_channel" readU32
  let initialWindowSize ← field "initial_window_size" readU32
  let maximumPacketSize ← field "maximum_packet_size" readU32
  let r ← Cursor.here
  pure
    { channelType, senderChannel, initialWindowSize, maximumPacketSize,
      typeSpecific := r.remaining }

/-- Encodes a `CHANNEL_OPEN`. -/
def ChannelOpen.encode (m : ChannelOpen) : Bytes → Except EncodeError Nat × Bytes := run do
  writeU8 Msg.channelOpen
  writeString m.channelType
  writeU32 m.senderChannel
  writeU32 m.initialWindowSize
  writeU32 m.maximumPacketSize
  writeBytes m.typeSpecific

/-- `SSH_MSG_CHANNEL_OPEN_CONFIRMATION`. -/
structure ChannelOpenConfirmation where
  recipientChannel : UInt32
  senderChannel : UInt32
  initialWindowSize : UInt32
  maximumPacketSize : UInt32
  typeSpecific : Bytes
  deriving DecidableEq, Repr

/-- Decodes a `CHANNEL_OPEN_CONFIRMATION`. -/
def ChannelOpenConfirmation.decode : Bytes → Except MessageError ChannelOpenConfirmation :=
  decodeWith do
    expectMessage Msg.channelOpenConfirmation
    let recipientChannel ← field "recipient_channel" readU32
    let senderChannel ← field "sender_channel" readU32
    let initialWindowSize ← field "initial_window_size" readU32
    let maximumPacketSize ← field "maximum_packet_size" readU32
    let r ← Cursor.here
    pure
      { recipientChannel, senderChannel, initialWindowSize, maximumPacketSize,
        typeSpecific := r.remaining }

/-- Encodes a `CHANNEL_OPEN_CONFIRMATION`. -/
def ChannelOpenConfirmation.encode (m : ChannelOpenConfirmation) :
    Bytes → Except EncodeError Nat × Bytes := run do
  writeU8 Msg.channelOpenConfirmation
  writeU32 m.recipientChannel
  writeU32 m.senderChannel
  writeU32 m.initialWindowSize
  writeU32 m.maximumPacketSize
  writeBytes m.typeSpecific

/-- `SSH_MSG_CHANNEL_OPEN_FAILURE`. -/
structure ChannelOpenFailure where
  recipientChannel : UInt32
  reasonCode : UInt32
  description : Bytes
  languageTag : Bytes
  deriving DecidableEq, Repr

/-- Decodes a `CHANNEL_OPEN_FAILURE`. -/
def ChannelOpenFailure.decode : Bytes → Except MessageError ChannelOpenFailure := decodeWith do
  expectMessage Msg.channelOpenFailure
  let recipientChannel ← field "recipient_channel" readU32
  let reasonCode ← field "reason_code" readU32
  let description ← field "description" readString
  let languageTag ← field "language_tag" readString
  finish
  pure { recipientChannel, reasonCode, description, languageTag }

/-- Encodes a `CHANNEL_OPEN_FAILURE`. -/
def ChannelOpenFailure.encode (m : ChannelOpenFailure) : Bytes → Except EncodeError Nat × Bytes :=
  run do
    writeU8 Msg.channelOpenFailure
    writeU32 m.recipientChannel
    writeU32 m.reasonCode
    writeString m.description
    writeString m.languageTag

end Tatami.Wire
