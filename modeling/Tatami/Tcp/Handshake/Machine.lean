import Tatami.Tcp.Handshake.State

/-! # The client handshake state machine

`build`, the public calls and the handlers behind `step`, function by function. A handler takes the
state it is called in and gives the state it leaves; `fail` is `finish`, since every failed handler
asks for another round of the loop, which then finds the outcome. Errors that a function returns
beside a changed state are a pair.

The loop of `step` runs on fuel. `rank` is enough of it: every round that asks for another one has
consumed a byte or set the outcome, or advanced the phase. -/

namespace Tatami.Tcp

open Tatami.Wire Tatami.Keys Checked

variable (C : Crypto)

/-! ### Shared pieces -/

namespace State

/-- Strict KEX is in effect. -/
def strictActive (s : State) : Bool := s.strict.negotiated

/-- Both `NEWKEYS` have passed. -/
def initialKexDone (s : State) : Bool := s.newkeysSent && s.newkeysReceived

/-- Ends the handshake. -/
def finish (o : HandshakeOutcome) (s : State) : State :=
  { s with
    phase := .finished, pendingOutcome := none, ephemeral := none, keys := none, outcome := some o }

/-- Ends the handshake with a protocol violation. -/
def violation (v : ProtocolViolation) (s : State) : State := s.finish (.protocolError v)

/-- Ends the handshake for a broken strict-KEX rule. -/
def strictViolation (detail : String) (s : State) : State := s.finish (.strictKexViolation detail)

/-- Ends the handshake for a message that is not valid in the current phase. -/
def unexpected (number : UInt8) (s : State) : State :=
  s.finish (.unexpectedMessage number s.phase)

/-- The next value of a sequence counter. Wrapping before the initial exchange completes is a
strict-KEX violation. -/
def nextSequence (s : State) (seq : Nat) : Except HandshakeOutcome Nat :=
  if seq + 1 < 2 ^ 32 then .ok (seq + 1)
  else if s.strictActive && !s.initialKexDone then
    .error (.strictKexViolation
      "packet sequence number wrapped before the initial key exchange completed")
  else .ok 0

/-- Advances the sending or the receiving counter. -/
def bumpSequence (send : Bool) (s : State) : Except HandshakeOutcome Unit × State :=
  match s.nextSequence (if send then s.sendSeq else s.recvSeq) with
  | .error o => (.error o, s)
  | .ok next => (.ok (), if send then { s with sendSeq := next } else { s with recvSeq := next })

end State

/-! ### Sending -/

/-- Queues one unprotected packet. -/
def sendUnprotected (payload : Bytes) (s : State) :
    Checked (Except HandshakeOutcome Unit × State) := do
  let available ← addUsize (← addUsize headerLen payload.length) 16
  match encodeInitialPacketWith payload available (PaddingSource.fillBytes C) s.padding with
  | (.error _, padding) =>
    pure (.error (.protocolError (.encode (.lengthOverflow payload.length))), { s with padding })
  | (.ok framed, padding) =>
    pure (State.bumpSequence true
      { s with
        padding, out := s.out ++ framed,
        hist := { s.hist with queued := s.hist.queued ++ [.framed payload framed] } })

/-- Seals and queues one protected packet. -/
def sendProtected (payload : Bytes) (s : State) :
    Checked (Except HandshakeOutcome Unit × State) := do
  let aead ← expect "protected send before NEWKEYS" s.sendAead
  let done := aead.sealPacket C payload (PaddingSource.fillBytes C) s.padding s.out
  let s₁ := { s with sendAead := some done.aead, padding := done.padding, out := done.out }
  match done.result with
  | .error e => pure (.error (.protocolError (.seal e)), s₁)
  | .ok _ =>
    let protectedSent ← add (2 ^ 32) s₁.protectedSent 1
    let wire := done.out.drop s.out.length
    pure (State.bumpSequence true
      { s₁ with
        protectedSent,
        hist := { s₁.hist with
          queued := s₁.hist.queued ++ [.sealed aead.nextNonce payload wire] } })

/-- The `DISCONNECT` with a description. -/
def byApplication (description : Bytes) : Disconnect :=
  { reasonCode := disconnectByApplication, description, languageTag := [] }

/-- Queues a `DISCONNECT`. -/
def sendDisconnect (description : Bytes) (s : State) :
    Checked (Except HandshakeOutcome Unit × State) :=
  let buf := List.replicate (1 + 4 + 4 + description.length + 4) 0
  match (byApplication description).encode buf with
  | (.error e, _) => pure (.error (.protocolError (.encode e)), s)
  | (.ok n, buf) => do
    let payload ← slice buf 0 n
    sendProtected C payload s

/-! ### Messages accepted in several phases -/

/-- A message that is recorded and skipped. -/
def skip (number : UInt8) (payload : Bytes) (s : State) : Checked State :=
  let malformed error := s.violation (.message number error)
  let record message := { s with skipped := s.skipped ++ [message] }
  if number = Msg.ignore then
    match Ignore.decode payload with
    | .ok i => pure (record (.ignored i.data.length))
    | .error e => pure (malformed e)
  else if number = Msg.debug then
    match Debug.decode payload with
    | .ok d => pure (record (.debug d.alwaysDisplay d.message d.languageTag))
    | .error e => pure (malformed e)
  else if number = Msg.unimplemented then
    match Unimplemented.decode payload with
    | .ok u => pure (record (.unimplemented u.sequenceNumber))
    | .error e => pure (malformed e)
  else .error (.unreachable "skip called for a non-skippable message")

/-- A server `DISCONNECT`. Its reason is recorded whether or not it breaks a strict-KEX rule. -/
def onDisconnect (payload : Bytes) (strictViolation : Bool) (s : State) : State :=
  match Disconnect.decode payload with
  | .error e => s.violation (.message Msg.disconnect e)
  | .ok d =>
    let s₁ := { s with serverDisconnect := some ⟨d.reasonCode, d.description⟩ }
    if strictViolation then
      let reasonCode := d.reasonCode
      s₁.strictViolation
        s!"SSH_MSG_DISCONNECT (reason code {reasonCode}) during the initial key exchange"
    else s₁.finish (.serverDisconnected d.reasonCode d.description)

/-! ### Key exchange -/

variable (u : Setup)

/-- `V_C`: our identification without its terminator. -/
def clientIdentificationLine : Checked Bytes := do
  let len ← sub u.clientLine.length 2
  slice u.clientLine 0 len

/-- The server `KEXINIT`. -/
def onServerKexinit (payload : Bytes) (s : State) : Checked State :=
  let wasFirst := s.preKexPackets == 1
  let s := { s with kexinitWasFirst := some wasFirst }
  match KexInit.decode payload with
  | .error e => pure (s.violation (.message Msg.kexInit e))
  | .ok server => do
    let s := { s with serverKexinit := some server.toOwned, iS := some payload }
    let client ← expect "our own KEXINIT decodes" (KexInit.decode u.iC).toOption
    match negotiateProfile client server with
    | .error e =>
      -- the markers are recorded even when negotiation fails
      pure ({ s with strict := .evaluate client server }.finish (.negotiationFailed e))
    | .ok n =>
      let s := { s with strict := n.strictKex, negotiated := some n }
      if s.strictActive && !wasFirst then
        pure (s.strictViolation "KEXINIT was not the first packet received")
      else
        let init : KexEcdhInit := { clientEphemeral := u.qC.toBytes }
        let (encoded, buf) := init.encode (List.replicate (1 + 4 + x25519Len) 0)
        let len ← expect "fixed-size buffer fits KEX_ECDH_INIT" encoded.toOption
        let ecdhInit ← slice buf 0 len
        match ← sendUnprotected C ecdhInit s with
        | (.error o, s) => pure (s.finish o)
        | (.ok (), s) => pure { s with phase := .ecdhReply }

/-- Whether the signature of a reply is accepted, or the text of the reason why it is not. The
accepted blob is given for the record. -/
def verifyReply (key : HostKey) (scheme : SignatureScheme) (h : ExchangeHash)
    (signatureBlob : Bytes) : Except String SignatureBlob :=
  match SignatureBlob.decode signatureBlob with
  | .error e => .error ("signature blob: " ++ e.display)
  | .ok sig =>
    match key.verify C scheme h.bytes.toBytes sig u.provider with
    | .error e => .error e.display
    | .ok () => .ok sig

/-- The part of `on_ecdh_reply` after the key type check: agreement, exchange hash, signature and
key derivation. -/
def finishReply (reply : KexEcdhReply) (key : HostKey) (scheme : SignatureScheme)
    (identity : HostIdentityOwned) (s : State) : Checked State :=
  match s.ephemeral with
  | none => pure (s.unexpected Msg.kexEcdhReply)
  | some ephemeral =>
    let s := { s with ephemeral := none }
    match ephemeral.agree C reply.serverEphemeral with
    | .error e => pure (s.violation (.kex e))
    | .ok k => do
      let vS ← expect "identification precedes KEX" s.serverIdent
      let iS ← expect "server KEXINIT precedes the reply" s.iS
      let vC ← clientIdentificationLine u
      let inputs : ExchangeHashInputs :=
        { vC, vS := vS.line, iC := u.iC, iS, kS := reply.hostKeyBlob, qC := u.qC.toBytes,
          qS := reply.serverEphemeral }
      let h ← exchangeHash C inputs k
      let sessionId := SessionId.fromInitialExchange h
      match verifyReply C u key scheme h reply.signatureBlob with
      | .error detail =>
        pure ({ s with signatureValid := some false, signatureError := some detail }.finish
          .signatureInvalid)
      | .ok signature => do
        let keys ← deriveAes128GcmKeys C k h sessionId
        pure
          { s with
            signatureValid := some true, keys := some keys, sessionId := some sessionId,
            identity := some identity, phase := .trustDecision,
            hist := { s.hist with
              verified := some { reply, inputs, secret := k, hash := h, key, scheme, signature } } }

/-- The server `KEX_ECDH_REPLY`. -/
def onEcdhReply (payload : Bytes) (s : State) : Checked State :=
  match KexEcdhReply.decode payload with
  | .error e => pure (s.violation (.message Msg.kexEcdhReply e))
  | .ok reply =>
    match PublicKeyBlob.decode reply.hostKeyBlob with
    | .error e => pure (s.violation (.hostKey (.blob e)))
    | .ok blob =>
      match HostKey.fromBlob C blob with
      | .error e => pure (s.violation (.hostKey e))
      | .ok key =>
        let identity := HostIdentity.fromBlob C blob
        let algorithm := fromUtf8Lossy identity.algorithm
        let s := { s with
          hostKey := some
            { algorithm, fingerprint := identity.sha256, blobLen := identity.blob.length } }
        let owned : HostIdentityOwned :=
          { algorithm, blob := identity.blob, sha256 := identity.sha256 }
        match s.negotiated.bind Negotiated.hostKeyScheme with
        | none => pure (s.unexpected Msg.kexEcdhReply)
        | some scheme =>
          if key.keyType ≠ scheme.keyType then
            pure (s.violation (.hostKey (.unexpectedKeyType scheme.keyType.name blob.algorithm)))
          else finishReply C u reply key scheme owned s

/-- The server `NEWKEYS`. -/
def onServerNewkeys (payload : Bytes) (s : State) : Checked State :=
  match NewKeys.decode payload with
  | .error e => pure (s.violation (.message Msg.newKeys e))
  | .ok _ => do
    let keys ← expect "keys derived before NEWKEYS" s.keys
    let s := { s with
      newkeysReceived := true, keys := none,
      recvAead := some (.new keys.serverToClient),
      recvSeq := if s.strictActive then 0 else s.recvSeq,
      phase := .service, extInfo := some {} }
    let request : ServiceRequest := { serviceName := u.config.service }
    let size ← addUsize (1 + 4) u.config.service.length
    let (encoded, buf) := request.encode (List.replicate size 0)
    let len ← expect "buffer sized for the service name" encoded.toOption
    let payload ← slice buf 0 len
    match ← sendProtected C payload s with
    | (.error o, s) => pure (s.finish o)
    | (.ok (), s) => pure s

/-- Messages after the server `KEXINIT` and before its `NEWKEYS`. -/
def handleKexMessage (number : UInt8) (payload : Bytes) (s : State) : Checked State :=
  let strict := s.strictActive
  let awaitingReply := s.phase == .ecdhReply
  let guessWrong := s.negotiated.any (·.serverGuessWrong)
  if Msg.isKexMethodSpecific number && awaitingReply && guessWrong && !s.guessDiscarded then
    -- the server's wrongly guessed first packet
    pure { s with guessDiscarded := true }
  else if number = Msg.kexEcdhReply && awaitingReply then onEcdhReply C u payload s
  else if number = Msg.newKeys && !awaitingReply then onServerNewkeys C u payload s
  else if number = Msg.kexInit && strict then
    pure (s.strictViolation "second KEXINIT during the initial key exchange")
  else if number = Msg.kexEcdhReply && strict then
    pure (s.strictViolation "second KEX_ECDH_REPLY during the initial key exchange")
  else if number = Msg.newKeys && strict then
    pure (s.strictViolation "NEWKEYS before KEX_ECDH_REPLY")
  else if Msg.isKexMethodSpecific number && strict then
    pure (s.strictViolation
      s!"unexpected key-exchange message {number} during the initial key exchange")
  else if (number = Msg.ignore || number = Msg.debug || number = Msg.unimplemented) && strict then
    pure (s.strictViolation (msgName number ++ " during the initial key exchange"))
  else if number = Msg.ignore || number = Msg.debug || number = Msg.unimplemented then
    skip number payload s
  else if number = Msg.disconnect then pure (onDisconnect payload strict s)
  else pure (s.unexpected number)

/-- One unprotected payload. -/
def handleUnprotected (payload : Bytes) (s : State) : Checked State :=
  match payload.head? with
  | none => pure (s.violation .emptyPayload)
  | some number =>
    match s.phase with
    | .serverKexInit =>
      if number = Msg.kexInit then onServerKexinit C u payload s
      else if number = Msg.ignore || number = Msg.debug || number = Msg.unimplemented then
        skip number payload s
      else if number = Msg.disconnect then pure (onDisconnect payload false s)
      else pure (s.unexpected number)
    | .ecdhReply => handleKexMessage C u number payload s
    | .serverNewKeys => handleKexMessage C u number payload s
    | _ => .error (.unreachable "unprotected packets are only read in the KEX phases")

/-! ### Protected messages -/

/-- The server `EXT_INFO`. -/
def onExtInfo (payload : Bytes) (s : State) : State :=
  match ExtInfo.decode payload with
  | .error e => s.violation (.message Msg.extInfo e)
  | .ok ext =>
    match ext.validate u.config.maxExtInfoExtensions.toNat with
    | .error e => s.violation (.extInfo e)
    | .ok _ =>
      let record serverSigAlgs := { s with
        extInfo := some { received := true, serverSigAlgs, extensionNames := ext.extensionNames } }
      match ext.serverSigAlgs with
      | none => record none
      | some (.ok list) => record (some (ownNames list))
      | some (.error e) => s.violation (.extInfo e)

/-- Description sent after `SERVICE_ACCEPT`. -/
def completeDescription : Bytes := utf8 "tatami diagnostic complete"

/-- Description sent in answer to a re-exchange request. -/
def rekeyDescription : Bytes := utf8 "rekeying is not supported by this diagnostic"

/-- Queues a `DISCONNECT` and the outcome to adopt once it has been taken. -/
def disconnectThen (description : Bytes) (o : HandshakeOutcome) (s : State) : Checked State := do
  match ← sendDisconnect C description s with
  | (.error o, s) => pure (s.finish o)
  | (.ok (), s) => pure { s with pendingOutcome := some o }

/-- The server `SERVICE_ACCEPT`. -/
def onServiceAccept (payload : Bytes) (s : State) : Checked State :=
  match ServiceAccept.decode payload with
  | .error e => pure (s.violation (.message Msg.serviceAccept e))
  | .ok accept =>
    if accept.serviceName ≠ u.config.service then
      pure (s.violation (.serviceMismatch u.config.service accept.serviceName))
    else
      disconnectThen C completeDescription .completed
        { s with serviceAccepted := some (fromUtf8Lossy accept.serviceName) }

/-- One protected payload. -/
def handleProtected (payload : Bytes) (s : State) : Checked State :=
  match payload.head? with
  | none => pure (s.violation .emptyPayload)
  | some number =>
    if number = Msg.extInfo && s.protectedReceived == 1 then pure (onExtInfo u payload s)
    else if number = Msg.ignore || number = Msg.debug then skip number payload s
    else if number = Msg.serviceAccept then onServiceAccept C u payload s
    else if number = Msg.disconnect then pure (onDisconnect payload false s)
    else if number = Msg.kexInit then disconnectThen C rekeyDescription .rekeyNotSupported s
    else pure (s.unexpected number)

/-! ### One round of the loop -/

/-- Looks for a prelude or identification line. -/
def stepIdentification (s : State) (b : InputBuffer) : Checked (Flow × State × InputBuffer) :=
  match s.identReader.feed b.buf with
  | (.ok .needMore, r) => pure (.needMore, { s with identReader := r }, b)
  | (.ok (.prelude line _ consumed), r) => do
    let b' ← b.consume consumed
    pure (.again, { s with identReader := r, preludeLines := s.preludeLines ++ [line] }, b')
  | (.ok (.identification ident consumed), r) => do
    let b' ← b.consume consumed
    pure (.again,
      { s with
        identReader := r, serverIdent := some ident.toOwned, phase := .serverKexInit,
        hist := { s.hist with identLine := some (b.buf.take consumed) } }, b')
  | (.error e, r) => pure (.again, { s with identReader := r }.violation (.ident e), b)

/-- Looks for an unprotected packet. -/
def stepUnprotected (s : State) (b : InputBuffer) : Checked (Flow × State × InputBuffer) := do
  match ← decodeInitialPacket b.buf u.config.packet with
  | .ok (.needMore _) => pure (.needMore, s, b)
  | .error e => pure (.again, s.violation (.packet e), b)
  | .ok (.complete packet) =>
    if u.config.maxPreKexPackets.toNat ≤ s.preKexPackets then
      pure (.again, s.finish (.limit (.preKexPackets u.config.maxPreKexPackets)), b)
    else
      let bytes := saturatingAdd s.preKexBytes packet.totalLen
      if u.config.maxPreKexBytes.toNat < bytes then
        pure (.again, s.finish (.limit (.preKexBytes u.config.maxPreKexBytes)), b)
      else
        let preKexPackets ← addUsize s.preKexPackets 1
        let b ← b.consume packet.totalLen
        let s := { s with
          preKexPackets, preKexBytes := bytes,
          hist := { s.hist with received := s.hist.received ++ [packet.payload] } }
        match s.bumpSequence false with
        | (.error o, s) => pure (.again, s.finish o, b)
        | (.ok (), s) => do
          let s ← handleUnprotected C u packet.payload s
          pure (.again, s, b)

/-- The buffer after decryption in place. -/
def InputBuffer.overwriteWith (b : InputBuffer) (bytes : Bytes) : Checked InputBuffer :=
  if h : bytes.length = b.buf.length then .ok ⟨bytes, b.capacity, h ▸ b.fits⟩
  else .error .outOfBounds

/-- The receiving direction after a look at the buffer. It has advanced exactly when a tag verified,
which the ghost records. -/
def State.recordOpening (a a' : AeadDirection) (s : State) : State :=
  { s with
    recvAead := some a',
    hist := { s.hist with
      authenticated := s.hist.authenticated ++ if a' = a then [] else [a.nextNonce] } }

/-- What `step_protected` does with the answer of `open`. -/
def stepOpened (result : Except OpenError OpenStep) (s : State) (b : InputBuffer) :
    Checked (Flow × State × InputBuffer) :=
  match result with
  | .ok (.needMore _) => pure (.needMore, s, b)
  | .error .tagMismatch => pure (.again, s.finish .tagMismatch, b)
  | .error e => pure (.again, s.violation (.protectedPacket e), b)
  | .ok (.packet payload totalLen) => do
    let s := { s with hist := { s.hist with opened := s.hist.opened ++ [payload] } }
    let b ← b.consume totalLen
    if u.config.maxProtectedPackets.toNat ≤ s.protectedReceived then
      pure (.again, s.finish (.limit (.protectedPackets u.config.maxProtectedPackets)), b)
    else
      let protectedReceived ← add (2 ^ 32) s.protectedReceived 1
      let s := { s with
        protectedReceived, hist := { s.hist with accepted := s.hist.accepted ++ [payload] } }
      match s.bumpSequence false with
      | (.error o, s) => pure (.again, s.finish o, b)
      | (.ok (), s) => do
        let s ← handleProtected C u payload s
        pure (.again, s, b)

/-- Looks for a protected packet. -/
def stepProtected (s : State) (b : InputBuffer) : Checked (Flow × State × InputBuffer) := do
  let aead ← expect "protected receive after NEWKEYS" s.recvAead
  let opened ← aead.openPacket C b.buf u.config.packet
  let b ← b.overwriteWith opened.buf
  stepOpened C u opened.result (s.recordOpening aead opened.aead) b

/-! ### The public calls -/

/-- The answer of a round after a processing attempt. -/
def ofFlow : Flow × State × InputBuffer → Option Step × State × InputBuffer
  | (.again, s, b) => (none, s, b)
  | (.needMore, s, b) => (some .needMore, s, b)

/-- What one round of the loop of `step` does: return an answer, or ask for another round. -/
def round (s : State) (b : InputBuffer) : Checked (Option Step × State × InputBuffer) :=
  match s.outcome with
  | some o => pure (some (.finished o), s, b)
  | none =>
    if s.out ≠ [] then pure (some .send, s, b)
    else
      match s.pendingOutcome with
      | some o => pure (none, s.finish o, b)
      | none =>
        match s.phase with
        | .serverIdentification => ofFlow <$> stepIdentification s b
        | .serverKexInit => ofFlow <$> stepUnprotected C u s b
        | .ecdhReply => ofFlow <$> stepUnprotected C u s b
        | .serverNewKeys => ofFlow <$> stepUnprotected C u s b
        | .trustDecision => do
          let identity ← expect "identity set with phase" s.identity
          pure (some (.trustDecisionRequired identity), s, b)
        | .service => ofFlow <$> stepProtected C u s b
        | .finished => .error (.unreachable "finished without an outcome")

/-- The loop of `step`. -/
def stepLoop : Nat → State → InputBuffer → Checked (Step × State × InputBuffer)
  | 0, _, _ => .error .outOfFuel
  | fuel + 1, s, b => do
    match ← round C u s b with
    | (some answer, s, b) => pure (answer, s, b)
    | (none, s, b) => stepLoop fuel s b

/-- What bounds the rounds of one call: the buffered bytes, and one for the outcome. -/
def rank (s : State) (b : InputBuffer) : Nat := b.buf.length + if s.outcome.isNone then 1 else 0

namespace ClientHandshake

/-- Advances the state machine as far as the buffered input allows. -/
def step (h : ClientHandshake) : Checked (Step × ClientHandshake) := do
  let (answer, state, buf) ← stepLoop C h.setup (rank h.state h.buf + 1) h.state h.buf
  pure (answer, { h with state, buf })

/-- Appends received bytes; input that does not fit ends the handshake. Ignored once finished. -/
def feed (data : Bytes) (h : ClientHandshake) : ClientHandshake :=
  if h.state.outcome.isSome then h
  else
    match h.buf.push data with
    | .ok buf => { h with buf }
    | .error e => { h with state := h.state.finish (.inputOverflow e) }

/-- Removes and returns every queued output byte. -/
def takeOutput (h : ClientHandshake) : Bytes × ClientHandshake :=
  (h.state.out, { h with
    state := { h.state with
      out := [], hist := { h.state.hist with taken := h.state.hist.taken ++ h.state.out } } })

/-- Signals end of input. -/
def inputEnded (h : ClientHandshake) : HandshakeOutcome × ClientHandshake :=
  match h.state.outcome with
  | some o => (o, h)
  | none =>
    let o := .eof h.state.phase
    (o, { h with state := h.state.finish o })

/-- Bytes that may still be fed. -/
def room (h : ClientHandshake) : Nat := h.buf.room

/-- Current phase. -/
def phase (h : ClientHandshake) : Phase := h.state.phase

end ClientHandshake

/-- Answers the trust question. Ignored in any other phase. -/
def provideTrust (decision : TrustDecision) (s : State) : Checked State :=
  if s.phase ≠ .trustDecision then pure s
  else
    let s := { s with trust := some decision }
    match decision with
    | .untrusted reason => pure (s.finish (.hostNotTrusted reason))
    | .trusted _ => do
      let (encoded, buf) := NewKeys.encode ⟨⟩ (List.replicate 1 0)
      let len ← expect "one byte fits" encoded.toOption
      let payload ← slice buf 0 len
      match ← sendUnprotected C payload s with
      | (.error o, s) => pure (s.finish o)
      | (.ok (), s) => do
        let keys ← expect "keys derived before trust decision" s.keys
        pure
          { s with
            newkeysSent := true, sendAead := some (.new keys.clientToServer),
            sendSeq := if s.strictActive then 0 else s.sendSeq, phase := .serverNewKeys }

/-- A snapshot of everything observed so far. -/
def report (s : State) : Checked HandshakeReport := do
  let clientIdentification ← clientIdentificationLine u
  pure
    { phase := s.phase
      clientIdentification
      serverPreludeLines := s.preludeLines
      serverIdentification := s.serverIdent
      serverIdentificationAnomalies := (s.serverIdent.map (·.anomalies)).getD []
      advertisedClient := u.clientKexinit
      advertisedServer := s.serverKexinit
      selected := s.negotiated
      strictKex := s.strict
      kexinitWasFirstPacket := s.kexinitWasFirst
      skippedMessages := s.skipped
      serverGuessDiscarded := s.guessDiscarded
      hostKey := s.hostKey
      signatureValid := s.signatureValid
      signatureError := s.signatureError
      trust := s.trust
      newkeysSent := s.newkeysSent
      newkeysReceived := s.newkeysReceived
      protectedPacketsSent := s.protectedSent
      protectedPacketsReceived := s.protectedReceived
      sendSequence := s.sendSeq
      receiveSequence := s.recvSeq
      extInfo := s.extInfo
      serviceAccepted := s.serviceAccepted
      serverDisconnect := s.serverDisconnect
      outcome := s.outcome
      userAuthenticated := false }

/-! ### Construction -/

/-- The schemes to offer: the configured ones if all can be verified, or every one that can. -/
def chooseHostKeyAlgorithms {ε : Type} (config : HandshakeConfig)
    (provider : Option SignatureProvider) : Except (HandshakeInitError ε) HostKeyAlgorithms :=
  let canVerify (s : SignatureScheme) : Bool :=
    s.isEnabled C && (!s.needsProvider || provider.any (·.supports s))
  match config.hostKeyAlgorithms with
  | some list =>
    match list.schemes.find? fun s => !canVerify s with
    | some s => .error (.hostKeyAlgorithm s)
    | none => .ok list
  | none => okOr (HostKeyAlgorithms.preferred canVerify) (.hostKeyAlgorithm .ed25519)

/-- The state before anything was queued. -/
def initialState (config : HandshakeConfig) (padding : PaddingSource)
    (ephemeral : EphemeralKeyPair) (strict : StrictKex) : State where
  phase := .serverIdentification
  identReader := .new config.ident
  out := []
  pendingOutcome := none
  outcome := none
  padding := padding
  ephemeral := some ephemeral
  preludeLines := []
  serverIdent := none
  serverKexinit := none
  iS := none
  negotiated := none
  strict := strict
  kexinitWasFirst := none
  preKexPackets := 0
  preKexBytes := 0
  skipped := []
  guessDiscarded := false
  hostKey := none
  identity := none
  signatureValid := none
  signatureError := none
  trust := none
  sessionId := none
  keys := none
  sendAead := none
  recvAead := none
  newkeysSent := false
  newkeysReceived := false
  sendSeq := 0
  recvSeq := 0
  protectedSent := 0
  protectedReceived := 0
  extInfo := none
  serviceAccepted := none
  serverDisconnect := none
  hist := {}

/-- Builds the machine around a proposal that has been encoded, and queues the identification and
the `KEXINIT`. -/
def buildWith (config : HandshakeConfig) (provider : Option SignatureProvider)
    (clientLine : Bytes) (ephemeral : EphemeralKeyPair) (seed : ByteVec 32) (iC : Bytes) :
    Checked ClientHandshake := do
  let clientKexinit ← expect "proposal encoder produces a decodable KEXINIT"
    (KexInit.decode iC).toOption
  let capacity ← config.bufferCapacity
  let s := initialState config (.new seed) ephemeral (.offered clientKexinit)
  let s := { s with
    out := s.out ++ clientLine,
    hist := { s.hist with queued := s.hist.queued ++ [.line clientLine] } }
  let setup : Setup :=
    { config, provider, clientLine, iC, clientKexinit := clientKexinit.toOwned,
      qC := ephemeral.pub }
  match ← sendUnprotected C iC s with
  | (.error o, s) => pure ⟨setup, s.finish o, .new capacity⟩
  | (.ok (), s) => pure ⟨setup, s, .new capacity⟩

/-- Draws the cookie, the ephemeral scalar and the padding seed from an entropy source, and builds
the machine. -/
def build {ρ ε : Type} (tryFillBytes : (n : Nat) → ρ → Except ε (ByteVec n × ρ))
    (config : HandshakeConfig) (rng : ρ) (provider : Option SignatureProvider) :
    Checked (Except (HandshakeInitError ε) ClientHandshake) :=
  match chooseHostKeyAlgorithms C config provider with
  | .error e => pure (.error e)
  | .ok hostKeyAlgorithms =>
    match buildIdentification config.softwareVersion with
    | .error e => pure (.error (.identification e))
    | .ok clientLine =>
      match tryFillBytes 16 rng with
      | .error e => pure (.error (.entropy e))
      | .ok (cookie, rng) =>
        match tryFillBytes 32 rng with
        | .error e => pure (.error (.entropy e))
        | .ok (secret, rng) =>
          match tryFillBytes 32 rng with
          | .error e => pure (.error (.entropy e))
          | .ok (seed, _) =>
            let proposal : ClientProposal :=
              { cookie, advertiseExtInfo := config.advertiseExtInfo,
                offerStrictKex := config.offerStrictKex, hostKeyAlgorithms }
            match proposal.encode with
            | .error e => pure (.error (.encode e))
            | .ok iC =>
              .ok <$> buildWith C config provider clientLine (.fromSecretBytes C secret) seed iC

/-! ### Calls and runs -/

/-- A public call with its arguments. -/
inductive Call where
  | feed (data : Bytes)
  | step
  | takeOutput
  | provideTrust (decision : TrustDecision)
  | inputEnded
  | report
  | room
  | phase
  deriving DecidableEq

/-- What a public call returns. -/
inductive Reply where
  | unit
  | step (answer : Step)
  | output (bytes : Bytes)
  | outcome (o : HandshakeOutcome)
  | report (r : HandshakeReport)
  | room (n : Nat)
  | phase (p : Phase)
  deriving DecidableEq

/-- Makes a public call. -/
def ClientHandshake.call (h : ClientHandshake) : Call → Checked (Reply × ClientHandshake)
  | .feed data => pure (.unit, h.feed data)
  | .step => do
    let (answer, h) ← h.step C
    pure (.step answer, h)
  | .takeOutput =>
    let (bytes, h) := h.takeOutput
    pure (.output bytes, h)
  | .provideTrust decision => do
    let state ← Tatami.Tcp.provideTrust C decision h.state
    pure (.unit, { h with state })
  | .inputEnded =>
    let (o, h) := h.inputEnded
    pure (.outcome o, h)
  | .report => do
    let r ← Tatami.Tcp.report h.setup h.state
    pure (.report r, h)
  | .room => pure (.room h.room, h)
  | .phase => pure (.phase h.phase, h)

/-- A call that was made: the phase it was made in, the call, and what it returned. -/
structure Event where
  phase : Phase
  call : Call
  reply : Reply
  deriving DecidableEq

/-- The step relation of a run of calls. -/
def Calls (h : ClientHandshake) (e : Event) (h' : ClientHandshake) : Prop :=
  e.phase = h.phase ∧ h.call C e.call = .ok (e.reply, h')

/-- The output bytes a call handed out. -/
def Reply.bytes : Reply → Bytes
  | .output bytes => bytes
  | _ => []

/-- The outcome a call reported. -/
def Reply.outcome? : Reply → Option HandshakeOutcome
  | .step (.finished o) => some o
  | .outcome o => some o
  | .report r => r.outcome
  | _ => none

/-- What a run has handed out, in order. -/
def outputs (events : List Event) : Bytes := events.flatMap fun e => e.reply.bytes

end Tatami.Tcp
