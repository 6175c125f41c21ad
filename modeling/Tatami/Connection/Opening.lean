import Tatami.Lib.Slab
import Tatami.Wire.Channel

/-! # The channel-opening engine

The state between "someone wants a channel" and "both sides agree it exists" (RFC 4254 §5.1). The
application commands (`openChannel`, `cancel`, `accept`, `refuse`) and the peer's decoded messages
(`handleOpen`, `handleOpenConfirmation`, `handleOpenFailure`) are functions on the engine; every
index, counter and `unreachable!` of the source is checked. Channels live in a generational slot
table, local numbers count up and are never reused, and the numbers of cancelled opens are kept in a
bounded list of tombstones. -/

namespace Tatami.Connection

open Tatami.Wire (ChannelOpen ChannelOpenConfirmation ChannelOpenFailure)

/-- `SSH_OPEN_RESOURCE_SHORTAGE`. -/
def resourceShortage : UInt32 := 4

/-! ### Identities and parameters -/

/-- Our `sender channel` number for a channel. -/
structure LocalNumber where
  value : UInt32
  deriving DecidableEq, Repr

/-- The peer's `sender channel` number for a channel. -/
structure PeerNumber where
  value : UInt32
  deriving DecidableEq, Repr

/-- Application-facing handle: a slot and its generation. -/
abbrev ChannelHandle := Handle

/-- Window and maximum-packet parameters, kept as sent. -/
structure Credit where
  initialWindowSize : UInt32
  maximumPacketSize : UInt32
  deriving DecidableEq, Repr

/-- Resource bounds. -/
structure OpeningLimits where
  maxPendingOutgoing : Nat := 16
  maxPendingIncoming : Nat := 16
  maxChannels : Nat := 256
  maxTombstones : Nat := 64
  deriving DecidableEq, Repr

/-- Parameters for an outgoing open. -/
structure OpenParams where
  channelType : Bytes
  credit : Credit
  typeSpecific : Bytes
  deriving DecidableEq, Repr

/-- Parameters for accepting an incoming open. -/
structure AcceptParams where
  credit : Credit
  typeSpecific : Bytes
  deriving DecidableEq, Repr

/-- Which phase a channel is in. -/
inductive Phase where
  | pendingOutgoing
  | pendingIncoming
  | established
  deriving DecidableEq, Repr

/-! ### Events, messages and errors -/

/-- What the peer said to an open that was cancelled. -/
inductive LateReply where
  | confirmed (peerNumber : PeerNumber) (peer : Credit)
  | refused (reasonCode : UInt32)
  deriving DecidableEq, Repr

/-- Events for the application. -/
inductive Event where
  | incomingOpen (handle : ChannelHandle) (channelType : Bytes) (peerNumber : PeerNumber)
      (peer : Credit) (typeSpecific : Bytes)
  | established (handle : ChannelHandle) (channelType : Bytes) (localNumber : LocalNumber)
      (peerNumber : PeerNumber) (credit peer : Credit) (peerTypeSpecific : Bytes)
  | refused (handle : ChannelHandle) (reasonCode : UInt32) (description languageTag : Bytes)
  | incomingRefusedByLimit (peerNumber : PeerNumber) (channelType : Bytes)
  | lateReply (localNumber : LocalNumber) (reply : LateReply)
  | transportLost (handle : ChannelHandle) (phase : Phase)
  deriving DecidableEq, Repr

/-- Messages the binding must send, in order. -/
inductive Outgoing where
  | openChannel (channelType : Bytes) (senderChannel : LocalNumber) (credit : Credit)
      (typeSpecific : Bytes)
  | openConfirmation (recipientChannel : PeerNumber) (senderChannel : LocalNumber)
      (credit : Credit) (typeSpecific : Bytes)
  | openFailure (recipientChannel : PeerNumber) (reasonCode : UInt32)
      (description languageTag : Bytes)
  deriving DecidableEq, Repr

/-- Peer behaviour that violates RFC 4254. -/
inductive Violation where
  | unknownRecipient (recipient : UInt32)
  | duplicateReply (localNumber : LocalNumber)
  | replyToIncoming (recipient : UInt32)
  | duplicatePeerNumber (peerNumber : PeerNumber)
  deriving DecidableEq, Repr

/-- Why an open was rejected. -/
inductive OpenError where
  | tooManyPendingOutgoing
  | tooManyChannels
  | numbersExhausted
  deriving DecidableEq, Repr

/-- Why a handle-based command was rejected. -/
inductive HandleError where
  | stale
  | wrongPhase (actual : Phase)
  deriving DecidableEq, Repr

/-! ### The engine -/

/-- The state of a channel. -/
inductive Channel where
  | pendingOutgoing (channelType : Bytes) (localNumber : LocalNumber) (credit : Credit)
  | pendingIncoming (channelType : Bytes) (peerNumber : PeerNumber) (peer : Credit)
  | established (localNumber : LocalNumber) (peerNumber : PeerNumber)
  deriving DecidableEq, Repr

/-- The phase of a channel. -/
def Channel.phase : Channel → Phase
  | .pendingOutgoing .. => .pendingOutgoing
  | .pendingIncoming .. => .pendingIncoming
  | .established .. => .established

/-- The local number of a channel, if it has one. -/
def Channel.localNumber? : Channel → Option LocalNumber
  | .pendingOutgoing _ n _ => some n
  | .pendingIncoming .. => none
  | .established n _ => some n

/-- The peer number of a channel, if it has one. -/
def Channel.peerNumber? : Channel → Option PeerNumber
  | .pendingOutgoing .. => none
  | .pendingIncoming _ n _ => some n
  | .established _ n => some n

/-- The opening engine. `slab` holds the source's `slots`, `free` and `live`. -/
structure OpeningEngine where
  limits : OpeningLimits
  slab : Slab Channel
  nextLocal : UInt32
  numbersExhausted : Bool
  tombstones : List LocalNumber
  outgoing : List Outgoing
  pendingOutgoing : Nat
  pendingIncoming : Nat
  deriving DecidableEq

/-- What a reply answers. -/
inductive ReplyTarget where
  | pending (handle : ChannelHandle)
  | tombstone (localNumber : LocalNumber)
  deriving DecidableEq, Repr

namespace OpeningEngine

/-- An engine with the given limits. -/
def new (limits : OpeningLimits) : OpeningEngine where
  limits := limits
  slab := .empty
  nextLocal := 0
  numbersExhausted := false
  tombstones := []
  outgoing := []
  pendingOutgoing := 0
  pendingIncoming := 0

/-- Removes and returns the next message to send. -/
def nextOutgoing (e : OpeningEngine) : Option Outgoing × OpeningEngine :=
  (e.outgoing.head?, { e with outgoing := e.outgoing.tail })

/-- Current phase of a handle, if live. -/
def phase (e : OpeningEngine) (h : ChannelHandle) : Option Phase := (e.slab.get h).map Channel.phase

/-! #### Internals -/

/-- The next local number. -/
def allocateNumber (e : OpeningEngine) : Except OpenError LocalNumber × OpeningEngine :=
  if e.numbersExhausted then (.error .numbersExhausted, e)
  else if e.nextLocal.toNat + 1 < 2 ^ 32 then
    (.ok ⟨e.nextLocal⟩, { e with nextLocal := e.nextLocal + 1 })
  else (.ok ⟨e.nextLocal⟩, { e with numbersExhausted := true })

/-- Whether a channel of the peer with this number is live. -/
def peerNumberInUse (e : OpeningEngine) (n : PeerNumber) : Bool :=
  e.slab.slots.any fun slot => slot.state.any fun c => c.peerNumber? == some n

/-- The search of `locate_reply`, from a slot on. -/
def locateSlot (wanted : LocalNumber) :
    Nat → List (Slot Channel) → Option (Except Violation ReplyTarget)
  | _, [] => none
  | i, slot :: rest =>
    match slot.state with
    | some (.pendingOutgoing _ n _) =>
      if n = wanted then some (.ok (.pending ⟨UInt32.ofNat i, slot.generation⟩))
      else locateSlot wanted (i + 1) rest
    | some (.established n _) =>
      if n = wanted then some (.error (.duplicateReply wanted)) else locateSlot wanted (i + 1) rest
    | _ => locateSlot wanted (i + 1) rest

/-- Classifies the `recipient channel` of a reply. -/
def locateReply (e : OpeningEngine) (recipient : UInt32) : Except Violation ReplyTarget :=
  match locateSlot ⟨recipient⟩ 0 e.slab.slots with
  | some answer => answer
  | none =>
    if e.tombstones.contains ⟨recipient⟩ then .ok (.tombstone ⟨recipient⟩)
    else if (e.slab.slots.any fun slot => slot.state.any fun
        | .pendingIncoming _ n _ => n.value == recipient
        | _ => false) && e.nextLocal ≤ recipient then .error (.replyToIncoming recipient)
    else .error (.unknownRecipient recipient)

/-- Commits a located reply: a tombstone is consumed by its reply. -/
def consumeReply (e : OpeningEngine) : ReplyTarget → OpeningEngine
  | .pending _ => e
  | .tombstone n => { e with tombstones := e.tombstones.erase n }

/-! #### Application commands -/

/-- Requests a new channel. -/
def openChannel (params : OpenParams) (e : OpeningEngine) :
    Checked (Except OpenError ChannelHandle × OpeningEngine) :=
  if e.limits.maxPendingOutgoing ≤ e.pendingOutgoing then
    pure (.error .tooManyPendingOutgoing, e)
  else if e.limits.maxChannels ≤ e.slab.live then pure (.error .tooManyChannels, e)
  else
    match e.allocateNumber with
    | (.error err, e) => pure (.error err, e)
    | (.ok n, e) => do
      let (handle, slab) ← e.slab.insert (.pendingOutgoing params.channelType n params.credit)
      let pendingOutgoing ← Checked.addUsize e.pendingOutgoing 1
      pure (.ok handle, { e with
        slab, pendingOutgoing,
        outgoing := e.outgoing ++
          [.openChannel params.channelType n params.credit params.typeSpecific] })

/-- Withdraws interest in a pending outgoing open. -/
def cancel (h : ChannelHandle) (e : OpeningEngine) :
    Checked (Except HandleError Unit × OpeningEngine) :=
  match e.slab.get h with
  | none => pure (.error .stale, e)
  | some (.pendingOutgoing _ n _) => do
    let slab ← e.slab.remove h
    let pendingOutgoing ← Checked.sub e.pendingOutgoing 1
    let tombstones := e.tombstones ++ [n]
    -- pushed, then trimmed from the front to the limit
    pure (.ok (), { e with
      slab, pendingOutgoing,
      tombstones := tombstones.drop (tombstones.length - e.limits.maxTombstones) })
  | some c => pure (.error (.wrongPhase c.phase), e)

/-- Removes a pending incoming open and queues the failure. -/
def refuseWith (h : ChannelHandle) (n : PeerNumber) (reasonCode : UInt32) (description : Bytes)
    (e : OpeningEngine) : Checked OpeningEngine := do
  let slab ← e.slab.remove h
  let pendingIncoming ← Checked.sub e.pendingIncoming 1
  pure { e with
    slab, pendingIncoming,
    outgoing := e.outgoing ++ [.openFailure n reasonCode description []] }

/-- Accepts a pending incoming open. -/
def accept (h : ChannelHandle) (params : AcceptParams) (e : OpeningEngine) :
    Checked (Except HandleError Event × OpeningEngine) :=
  match e.slab.get h with
  | none => pure (.error .stale, e)
  | some (.pendingIncoming channelType peerNumber peer) =>
    match e.allocateNumber with
    | (.error _, e) => do
      let e ← refuseWith h peerNumber resourceShortage (utf8 "channel numbers exhausted") e
      pure (.error .stale, e)
    | (.ok n, e) => do
      let slab ← e.slab.set h (.established n peerNumber)
      let pendingIncoming ← Checked.sub e.pendingIncoming 1
      pure (.ok (.established h channelType n peerNumber params.credit peer []), { e with
        slab, pendingIncoming,
        outgoing := e.outgoing ++
          [.openConfirmation peerNumber n params.credit params.typeSpecific] })
  | some c => pure (.error (.wrongPhase c.phase), e)

/-- Refuses a pending incoming open. -/
def refuse (h : ChannelHandle) (reasonCode : UInt32) (description : Bytes) (e : OpeningEngine) :
    Checked (Except HandleError Unit × OpeningEngine) :=
  match e.slab.get h with
  | none => pure (.error .stale, e)
  | some (.pendingIncoming _ n _) => do
    let e ← refuseWith h n reasonCode description e
    pure (.ok (), e)
  | some c => pure (.error (.wrongPhase c.phase), e)

/-- The transport is gone: every live channel is reported as lost. -/
def transportLost (e : OpeningEngine) : List Event × OpeningEngine :=
  (e.slab.drain.1.map fun (h, c) => .transportLost h c.phase, { e with
    slab := e.slab.drain.2, pendingOutgoing := 0, pendingIncoming := 0, outgoing := [] })

/-! #### Peer messages -/

/-- Handles a `CHANNEL_OPEN` of the peer. -/
def handleOpen (msg : ChannelOpen) (e : OpeningEngine) :
    Checked (Except Violation Event × OpeningEngine) :=
  let peerNumber : PeerNumber := ⟨msg.senderChannel⟩
  if e.peerNumberInUse peerNumber then pure (.error (.duplicatePeerNumber peerNumber), e)
  else if e.limits.maxPendingIncoming ≤ e.pendingIncoming || e.limits.maxChannels ≤ e.slab.live then
    pure (.ok (.incomingRefusedByLimit peerNumber msg.channelType), { e with
      outgoing := e.outgoing ++
        [.openFailure peerNumber resourceShortage (utf8 "too many pending channels") []] })
  else do
    let peer : Credit := ⟨msg.initialWindowSize, msg.maximumPacketSize⟩
    let (handle, slab) ← e.slab.insert (.pendingIncoming msg.channelType peerNumber peer)
    let pendingIncoming ← Checked.addUsize e.pendingIncoming 1
    pure (.ok (.incomingOpen handle msg.channelType peerNumber peer msg.typeSpecific),
      { e with slab, pendingIncoming })

/-- Handles a `CHANNEL_OPEN_CONFIRMATION` of the peer. -/
def handleOpenConfirmation (msg : ChannelOpenConfirmation) (e : OpeningEngine) :
    Checked (Except Violation Event × OpeningEngine) :=
  let peerNumber : PeerNumber := ⟨msg.senderChannel⟩
  let peer : Credit := ⟨msg.initialWindowSize, msg.maximumPacketSize⟩
  match e.locateReply msg.recipientChannel with
  | .error v => pure (.error v, e)
  | .ok target =>
    if e.peerNumberInUse peerNumber then pure (.error (.duplicatePeerNumber peerNumber), e)
    else
      let e := e.consumeReply target
      match target with
      | .pending h =>
        match e.slab.get h with
        | some (.pendingOutgoing channelType n credit) => do
          let slab ← e.slab.set h (.established n peerNumber)
          let pendingOutgoing ← Checked.sub e.pendingOutgoing 1
          pure (.ok (.established h channelType n peerNumber credit peer msg.typeSpecific),
            { e with slab, pendingOutgoing })
        | _ => .error (.unreachable "locate_reply returned a pending outgoing slot")
      | .tombstone n => pure (.ok (.lateReply n (.confirmed peerNumber peer)), e)

/-- Handles a `CHANNEL_OPEN_FAILURE` of the peer. -/
def handleOpenFailure (msg : ChannelOpenFailure) (e : OpeningEngine) :
    Checked (Except Violation Event × OpeningEngine) :=
  match e.locateReply msg.recipientChannel with
  | .error v => pure (.error v, e)
  | .ok target =>
    let e := e.consumeReply target
    match target with
    | .pending h => do
      let slab ← e.slab.remove h
      let pendingOutgoing ← Checked.sub e.pendingOutgoing 1
      pure (.ok (.refused h msg.reasonCode msg.description msg.languageTag),
        { e with slab, pendingOutgoing })
    | .tombstone n => pure (.ok (.lateReply n (.refused msg.reasonCode)), e)

end OpeningEngine

/-! ### Calls -/

/-- A public call that may change the engine. -/
inductive Call where
  | openChannel (params : OpenParams)
  | cancel (h : ChannelHandle)
  | accept (h : ChannelHandle) (params : AcceptParams)
  | refuse (h : ChannelHandle) (reasonCode : UInt32) (description : Bytes)
  | transportLost
  | handleOpen (msg : ChannelOpen)
  | handleOpenConfirmation (msg : ChannelOpenConfirmation)
  | handleOpenFailure (msg : ChannelOpenFailure)
  | nextOutgoing
  deriving DecidableEq, Repr

/-- What a call returned. -/
inductive Answer where
  | opened (r : Except OpenError ChannelHandle)
  | done (r : Except HandleError Unit)
  | accepted (r : Except HandleError Event)
  | lost (events : List Event)
  | handled (r : Except Violation Event)
  | taken (message : Option Outgoing)
  deriving DecidableEq

/-- Makes a call. -/
def OpeningEngine.call (e : OpeningEngine) : Call → Checked (Answer × OpeningEngine)
  | .openChannel params => (fun (r, e) => (.opened r, e)) <$> e.openChannel params
  | .cancel h => (fun (r, e) => (.done r, e)) <$> e.cancel h
  | .accept h params => (fun (r, e) => (.accepted r, e)) <$> e.accept h params
  | .refuse h reasonCode description =>
    (fun (r, e) => (.done r, e)) <$> e.refuse h reasonCode description
  | .transportLost => pure (.lost e.transportLost.1, e.transportLost.2)
  | .handleOpen msg => (fun (r, e) => (.handled r, e)) <$> e.handleOpen msg
  | .handleOpenConfirmation msg =>
    (fun (r, e) => (.handled r, e)) <$> e.handleOpenConfirmation msg
  | .handleOpenFailure msg => (fun (r, e) => (.handled r, e)) <$> e.handleOpenFailure msg
  | .nextOutgoing => pure (.taken e.nextOutgoing.1, e.nextOutgoing.2)

end Tatami.Connection
