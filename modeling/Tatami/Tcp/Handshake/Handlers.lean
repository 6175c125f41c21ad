import Tatami.Tcp.Handshake.Sending

/-! # What handling a message can do

The inversion of the message handlers, said once: `Handled` lists what the handling of one
unprotected payload can do to the state, `HandledProtected` the same for a protected one. No later
proof unfolds a handler. -/

namespace Tatami.Tcp

open Tatami.Wire Tatami.Keys Checked

/-! ### Failing -/

/-- An outcome that a check sets on the spot, as against one that waits for its `DISCONNECT`. -/
def HandshakeOutcome.isFailure : HandshakeOutcome → Bool
  | .completed => false
  | .rekeyNotSupported => false
  | _ => true

/-- `s'` is `s` up to what a handler records for the report: nothing was sent, received or
counted. -/
structure Recorded (s s' : State) : Prop where
  out : s'.out = s.out := by rfl
  hist : s'.hist = s.hist := by rfl
  trust : s'.trust = s.trust := by rfl
  sendAead : s'.sendAead = s.sendAead := by rfl
  recvAead : s'.recvAead = s.recvAead := by rfl
  newkeysSent : s'.newkeysSent = s.newkeysSent := by rfl
  newkeysReceived : s'.newkeysReceived = s.newkeysReceived := by rfl
  sendSeq : s'.sendSeq = s.sendSeq := by rfl
  recvSeq : s'.recvSeq = s.recvSeq := by rfl
  protectedSent : s'.protectedSent = s.protectedSent := by rfl
  protectedReceived : s'.protectedReceived = s.protectedReceived := by rfl
  preludeLines : s'.preludeLines = s.preludeLines := by rfl
  serverIdent : s'.serverIdent = s.serverIdent := by rfl
  skipped : s'.skipped = s.skipped := by rfl
  sessionId : s'.sessionId = s.sessionId := by rfl
  identity : s'.identity = s.identity := by rfl
  ephemeral : s'.ephemeral = s.ephemeral ∨ s'.ephemeral = none := by first
    | exact .inl rfl
    | exact .inr rfl
  /-- Only the server `KEXINIT` changes what was negotiated. -/
  negotiated : s.phase = .serverKexInit ∨
    (s'.strict = s.strict ∧ s'.negotiated = s.negotiated ∧ s'.iS = s.iS) := by
      exact .inr ⟨rfl, rfl, rfl⟩
  serverKexinit : s.phase = .serverKexInit ∨ s'.serverKexinit = s.serverKexinit := by
      exact .inr rfl

/-- `s'` is `s` ended by a failed check. -/
structure Failed (s s' : State) : Prop extends Recorded s s' where
  phase : s'.phase = .finished
  pendingOutcome : s'.pendingOutcome = none
  outcome : ∃ o, s'.outcome = some o ∧ o.isFailure = true
  /-- Identification errors come from the identification phase. -/
  ident : s.phase ≠ .serverIdentification → ∀ e, s'.outcome ≠ some (.protocolError (.ident e))

/-- Finishing with a failure after something was recorded. -/
theorem Recorded.failed {s s' : State} (h : Recorded s s') {o : HandshakeOutcome}
    (ho : o.isFailure = true)
    (hident : s.phase ≠ .serverIdentification → ∀ e, o ≠ .protocolError (.ident e) := by
      intro _ _ h; cases h) : Failed s (s'.finish o) :=
  { h with
    ephemeral := .inr rfl, phase := rfl, pendingOutcome := rfl, outcome := ⟨o, rfl, ho⟩
    ident := fun hphase e heq => hident hphase e (Option.some.inj heq) }

theorem failed_finish {s : State} {o : HandshakeOutcome} (ho : o.isFailure = true)
    (hident : s.phase ≠ .serverIdentification → ∀ e, o ≠ .protocolError (.ident e) := by
      intro _ _ h; cases h) : Failed s (s.finish o) :=
  Recorded.failed {} ho hident

/-- The outcome is that input did not fit. -/
def HandshakeOutcome.overflow? : HandshakeOutcome → Option InputOverflow
  | .inputOverflow e => some e
  | _ => none

/-- The handshake did not end for input that did not fit. -/
def State.Fits (s : State) : Prop := s.outcome.bind HandshakeOutcome.overflow? = none

/-- `s'` is `s` ended by a failed check of what fitted. -/
structure Refused (s s' : State) : Prop extends Failed s s' where
  fits : s'.Fits

theorem Recorded.refused {s s' : State} (h : Recorded s s') {o : HandshakeOutcome}
    (ho : o.isFailure = true)
    (hident : s.phase ≠ .serverIdentification → ∀ e, o ≠ .protocolError (.ident e) := by
      intro _ _ h; cases h)
    (hfits : o.overflow? = none := by rfl) : Refused s (s'.finish o) :=
  { h.failed ho hident with fits := hfits }

/-- A state that ends with a failure refuses the payload. -/
theorem refused_finish {s : State} {o : HandshakeOutcome} (ho : o.isFailure = true)
    (hident : s.phase ≠ .serverIdentification → ∀ e, o ≠ .protocolError (.ident e) := by
      intro _ _ h; cases h)
    (hfits : o.overflow? = none := by rfl) : Refused s (s.finish o) :=
  Recorded.refused {} ho hident hfits

/-! ### Unprotected payloads -/

/-- A message that is recorded and skipped before `NEWKEYS`. -/
def isSkip (number : UInt8) : Bool :=
  number == Msg.ignore || number == Msg.debug || number == Msg.unimplemented

/-- The bytes of our `KEX_ECDH_INIT`. -/
def Setup.ecdhInit (u : Setup) : Bytes := KexEcdhInit.payload { clientEphemeral := u.qC.toBytes }

/-- The bytes of our `SERVICE_REQUEST`. -/
def Setup.serviceRequest (u : Setup) : Bytes :=
  ServiceRequest.payload { serviceName := u.config.service }

/-- The record of an accepted signature fits its reply, the negotiated scheme and the transcript a
state stores. -/
structure Covers (C : Crypto) (u : Setup) (s : State) (v : Verified) : Prop where
  key : ∃ blob, PublicKeyBlob.decode v.reply.hostKeyBlob = .ok blob ∧
    HostKey.fromBlob C blob = .ok v.key
  scheme : ∃ n, s.negotiated = some n ∧ n.hostKeyScheme = some v.scheme
  keyType : v.key.keyType = v.scheme.keyType
  vC : clientIdentificationLine u = .ok v.inputs.vC
  vS : ∃ i, s.serverIdent = some i ∧ v.inputs.vS = i.line
  iC : v.inputs.iC = u.iC
  iS : s.iS = some v.inputs.iS
  kS : v.inputs.kS = v.reply.hostKeyBlob
  qC : v.inputs.qC = u.qC.toBytes
  qS : v.inputs.qS = v.reply.serverEphemeral
  hash : exchangeHash C v.inputs v.secret = .ok v.hash
  signature : SignatureBlob.decode v.reply.signatureBlob = .ok v.signature
  verified : v.key.verify C v.scheme v.hash.bytes.toBytes v.signature u.provider = .ok ()

/-- What makes a reply acceptable in a state: the record of the accepted signature, with our secret
of the state. -/
structure Accepts (C : Crypto) (u : Setup) (s : State) (payload : Bytes) (v : Verified) : Prop
    extends Covers C u s v where
  decoded : KexEcdhReply.decode payload = .ok v.reply
  agreed : ∃ e, s.ephemeral = some e ∧ e.agree C v.reply.serverEphemeral = .ok v.secret

/-- The identity is the owned copy of the one in the host-key blob of a verified reply. -/
def Presents (C : Crypto) (v : Verified) (identity : HostIdentityOwned) : Prop :=
  ∃ blob, PublicKeyBlob.decode v.reply.hostKeyBlob = .ok blob ∧
    identity = ⟨fromUtf8Lossy blob.algorithm, blob.bytes, C.sha256 blob.bytes⟩

/-- The state after the server `KEXINIT`, before our `KEX_ECDH_INIT` is queued. -/
def State.negotiate (payload : Bytes) (server : KexInit) (n : Negotiated) (s : State) : State :=
  { s with
    kexinitWasFirst := some (s.preKexPackets == 1), serverKexinit := some server.toOwned,
    iS := some payload, strict := n.strictKex, negotiated := some n }

/-- The state after an accepted reply. -/
def State.verify (C : Crypto) (v : Verified) (summary : HostKeySummary)
    (identity : HostIdentityOwned) (s : State) : State :=
  { s with
    hostKey := some summary, ephemeral := none, signatureValid := some true,
    keys := some (keysOf C v.secret v.hash),
    sessionId := some (.fromInitialExchange v.hash), identity := some identity,
    phase := .trustDecision, hist := { s.hist with verified := some v } }

/-- The state after the server `NEWKEYS`, before our `SERVICE_REQUEST` is queued. -/
def State.protect (keys : KeySet) (s : State) : State :=
  { s with
    newkeysReceived := true, keys := none, recvAead := some (.new keys.serverToClient),
    recvSeq := if s.strictActive then 0 else s.recvSeq, phase := .service, extInfo := some {} }

/-- What the handling of one unprotected payload can do. -/
inductive Handled (C : Crypto) (u : Setup) (payload : Bytes) (s : State) : State → Prop where
  /-- A check failed. -/
  | failed {s' : State} (h : Failed s s') : Handled C u payload s s'
  /-- The message was recorded and skipped; after the server `KEXINIT` only without strict KEX. -/
  | skipped (number : UInt8) (message : SkippedMessage) (hnumber : payload.head? = some number)
      (hskip : isSkip number = true)
      (hphase : s.phase = .serverKexInit ∨
        ((s.phase = .ecdhReply ∨ s.phase = .serverNewKeys) ∧ s.strictActive = false)) :
      Handled C u payload s { s with skipped := s.skipped ++ [message] }
  /-- The server `KEXINIT`, answered by our `KEX_ECDH_INIT`. -/
  | kexinit (client server : KexInit) (n : Negotiated) (wire : Bytes) (padding : PaddingSource)
      (hphase : s.phase = .serverKexInit) (hnumber : payload.head? = some Msg.kexInit)
      (hserver : KexInit.decode payload = .ok server) (hclient : KexInit.decode u.iC = .ok client)
      (hneg : negotiateProfile client server = .ok n)
      (hfirst : n.strictKex.negotiated = true → s.preKexPackets = 1)
      (hwire : FrameOf u.ecdhInit wire) :
      Handled C u payload s
        { (s.negotiate payload server n).queueFramed u.ecdhInit wire padding with
          phase := .ecdhReply }
  /-- The wrongly guessed packet was dropped. -/
  | guess (number : UInt8) (n : Negotiated) (hphase : s.phase = .ecdhReply)
      (hnumber : payload.head? = some number) (hspecific : Msg.isKexMethodSpecific number = true)
      (hneg : s.negotiated = some n) (hwrong : n.serverGuessWrong = true)
      (hfirst : s.guessDiscarded = false) : Handled C u payload s { s with guessDiscarded := true }
  /-- The reply was accepted. -/
  | reply (v : Verified) (summary : HostKeySummary) (identity : HostIdentityOwned)
      (hphase : s.phase = .ecdhReply) (hnumber : payload.head? = some Msg.kexEcdhReply)
      (hguess : ∀ n, s.negotiated = some n → n.serverGuessWrong = true → s.guessDiscarded = true)
      (haccepts : Accepts C u s payload v) (hpresents : Presents C v identity) :
      Handled C u payload s (s.verify C v summary identity)
  /-- The server `NEWKEYS`, answered by our `SERVICE_REQUEST`. -/
  | newkeys (keys : KeySet) (a : AeadDirection) (h : a.counterAvailable = true) (wire : Bytes)
      (padding : PaddingSource) (hphase : s.phase = .serverNewKeys)
      (hnumber : payload.head? = some Msg.newKeys) (hkeys : s.keys = some keys)
      (haead : s.sendAead = some a) (hwire : SealedBy C a u.serviceRequest wire) :
      Handled C u payload s
        ((s.protect keys).queueSealed a (a.advance h) u.serviceRequest wire padding)
  /-- The server `NEWKEYS`, after which our `SERVICE_REQUEST` could not be sealed. -/
  | newkeysFailed (keys : KeySet) (e : SealError) (junk : Bytes) (padding : PaddingSource)
      (hphase : s.phase = .serverNewKeys) (hnumber : payload.head? = some Msg.newKeys)
      (hkeys : s.keys = some keys) (hjunk : C.SealTotal → junk = []) :
      Handled C u payload s
        (((s.protect keys).sealFailed junk padding).finish (.protocolError (.seal e)))

/-! ### Inversion of the handlers -/

section Handlers

variable {C : Crypto} {u : Setup} {number : UInt8} {payload : Bytes} {s s' : State}

/-- Refusing a payload is a way of handling it. -/
theorem Refused.handled (h : Refused s s') : Handled C u payload s s' ∧ (s.Fits → s'.Fits) :=
  ⟨.failed h.toFailed, fun _ => h.fits⟩

/-- A skipped message is recorded, or it is malformed. -/
theorem skip_cases (h : skip number payload s = .ok s') :
    isSkip number = true ∧ (Refused s s' ∨ ∃ m, s' = { s with skipped := s.skipped ++ [m] }) := by
  rw [skip] at h
  simp only at h
  split_ifs at h with hnum hnum hnum
  iterate 3
    · refine ⟨by simp [isSkip, hnum], ?_⟩
      split at h <;> cases h
      · exact .inr ⟨_, rfl⟩
      · exact .inl (refused_finish rfl)

/-- A server `DISCONNECT` ends the handshake. -/
theorem onDisconnect_refused (payload : Bytes) (strictViolation : Bool) (s : State) :
    Refused s (onDisconnect payload strictViolation s) := by
  rw [onDisconnect]
  split
  · exact refused_finish rfl
  · simp only
    split
    · exact Recorded.refused {} rfl
    · exact Recorded.refused {} rfl

theorem encode_ecdhInit (u : Setup) :
    ∃ buf, u.ecdhInit.length = 1 + 4 + x25519Len ∧
      KexEcdhInit.encode { clientEphemeral := u.qC.toBytes }
        (List.replicate (1 + 4 + x25519Len) 0) = (.ok u.ecdhInit.length, buf) ∧
      slice buf 0 u.ecdhInit.length = .ok u.ecdhInit := by
  have hlen : u.ecdhInit.length = 1 + 4 + x25519Len := by
    rw [Setup.ecdhInit, KexEcdhInit.payload, List.length_append, length_lengthPrefixed,
      ByteVec.length_toBytes]
    rfl
  have hshort : KexEcdhInit.Short { clientEphemeral := u.qC.toBytes } := by
    rw [KexEcdhInit.Short, ByteVec.length_toBytes]
    decide
  obtain ⟨buf, hrun, hout⟩ := (KexEcdhInit.encodesTo _ hshort).large
    (List.replicate (1 + 4 + x25519Len) 0)
    (by rw [List.length_replicate]; exact Nat.le_of_eq hlen)
  exact ⟨buf, hlen, hrun, slice_written hout⟩

/-- What a server `KEXINIT` that decodes comes to. -/
inductive KexinitCase (u : Setup) (payload : Bytes) (s : State) (client server : KexInit) :
    State → Prop where
  /-- Nothing in common. The markers are recorded all the same. -/
  | refused (e : NegotiationError) (hneg : negotiateProfile client server = .error e) :
      KexinitCase u payload s client server
        ({ s with
            kexinitWasFirst := some (s.preKexPackets == 1), serverKexinit := some server.toOwned,
            iS := some payload, strict := .evaluate client server }.finish (.negotiationFailed e))
  /-- Strict KEX, and another packet came first. -/
  | late (n : Negotiated) (hneg : negotiateProfile client server = .ok n)
      (hstrict : n.strictKex.negotiated = true) (hlate : s.preKexPackets ≠ 1) :
      KexinitCase u payload s client server
        ((s.negotiate payload server n).strictViolation
          "KEXINIT was not the first packet received")
  /-- It is answered by our `KEX_ECDH_INIT`. -/
  | answered (n : Negotiated) (wire : Bytes) (padding : PaddingSource)
      (hneg : negotiateProfile client server = .ok n)
      (hfirst : n.strictKex.negotiated = true → s.preKexPackets = 1)
      (hwire : FrameOf u.ecdhInit wire) :
      KexinitCase u payload s client server
        { (s.negotiate payload server n).queueFramed u.ecdhInit wire padding with
          phase := .ecdhReply }

/-- **The server `KEXINIT`, once it decodes**, is handled in one of these ways. -/
theorem onServerKexinit_decoded (C : Crypto) {client server : KexInit}
    (hclient : KexInit.decode u.iC = .ok client) (hserver : KexInit.decode payload = .ok server)
    (hseq : s.sendSeq + 1 < 2 ^ 32) :
    ∃ s', onServerKexinit C u payload s = .ok s' ∧ KexinitCase u payload s client server s' := by
  rw [onServerKexinit, hserver]
  simp only [hclient, Except.toOption, expect_some, ok_bind]
  cases hneg : negotiateProfile client server with
  | error e => exact ⟨_, rfl, .refused e hneg⟩
  | ok n =>
    simp only
    split
    · rename_i hstrict
      simp only [State.strictActive, Bool.and_eq_true, Bool.not_eq_true',
        beq_eq_false_iff_ne] at hstrict
      exact ⟨_, rfl, .late n hneg hstrict.1 hstrict.2⟩
    · rename_i hstrict
      obtain ⟨_, hlen, hrun, hslice⟩ := encode_ecdhInit u
      obtain ⟨padding, wire, hwire, hsend⟩ := sendUnprotected_eq C
        (s := s.negotiate payload server n)
        (show u.ecdhInit.length < 2 ^ 31 by rw [hlen]; decide) hseq
      simp only [hrun, expect_some, ok_bind, hslice]
      change ∃ s', (sendUnprotected C u.ecdhInit (s.negotiate payload server n) >>= _) = _ ∧ _
      rw [hsend, ok_bind]
      refine ⟨_, rfl, .answered n wire padding hneg ?_ hwire⟩
      intro hnegotiated
      simpa [State.strictActive, hnegotiated] using hstrict

/-- **Inversion of the server `KEXINIT`.** -/
theorem onServerKexinit_cases (hphase : s.phase = .serverKexInit)
    (hnumber : payload.head? = some Msg.kexInit) (hseq : s.sendSeq + 1 < 2 ^ 32)
    (h : onServerKexinit C u payload s = .ok s') :
    Handled C u payload s s' ∧ (s.Fits → s'.Fits) := by
  cases hserver : KexInit.decode payload with
  | error =>
    rw [onServerKexinit, hserver] at h
    cases h
    exact (Recorded.refused {} rfl).handled
  | ok server =>
    cases hclient : KexInit.decode u.iC with
    | error =>
      rw [onServerKexinit, hserver, hclient] at h
      cases h
    | ok client =>
      obtain ⟨_, hrun, hcase⟩ := onServerKexinit_decoded C hclient hserver hseq
      cases h.symm.trans hrun
      cases hcase with
      | refused | late =>
        exact (Recorded.refused
          { negotiated := .inl hphase, serverKexinit := .inl hphase } rfl).handled
      | answered n wire padding hneg hfirst hwire =>
        exact ⟨.kexinit client server n wire padding hphase hnumber hserver hclient hneg hfirst
          hwire, id⟩

/-- An accepted signature blob was decoded and verified. -/
theorem verifyReply_ok {key : HostKey} {scheme : SignatureScheme} {h : ExchangeHash}
    {blob : Bytes} {sig : SignatureBlob} (hok : verifyReply C u key scheme h blob = .ok sig) :
    SignatureBlob.decode blob = .ok sig ∧
      key.verify C scheme h.bytes.toBytes sig u.provider = .ok () := by
  rw [verifyReply] at hok
  split at hok
  · cases hok
  · rename_i sig' hdec
    split at hok
    · cases hok
    · rename_i hver
      cases hok
      exact ⟨hdec, hver⟩

/-- **Inversion of the reply**, after the key type was checked: it failed, or a record of the
accepted signature accounts for everything that was stored. -/
theorem finishReply_cases {reply : KexEcdhReply} {key : HostKey} {scheme : SignatureScheme}
    {identity : HostIdentityOwned} (h : finishReply C u reply key scheme identity s = .ok s') :
    Refused s s' ∨
    ∃ e vS v,
      s.ephemeral = some e ∧ e.agree C reply.serverEphemeral = .ok v.secret ∧
      s.serverIdent = some vS ∧ v.inputs.vS = vS.line ∧ s.iS = some v.inputs.iS ∧
      clientIdentificationLine u = .ok v.inputs.vC ∧ v.inputs.iC = u.iC ∧
      v.inputs.kS = reply.hostKeyBlob ∧ v.inputs.qC = u.qC.toBytes ∧
      v.inputs.qS = reply.serverEphemeral ∧
      exchangeHash C v.inputs v.secret = .ok v.hash ∧
      SignatureBlob.decode reply.signatureBlob = .ok v.signature ∧
      key.verify C scheme v.hash.bytes.toBytes v.signature u.provider = .ok () ∧
      v.reply = reply ∧ v.key = key ∧ v.scheme = scheme ∧
      s' = { s with
        ephemeral := none, signatureValid := some true, keys := some (keysOf C v.secret v.hash),
        sessionId := some (.fromInitialExchange v.hash), identity := some identity,
        phase := .trustDecision, hist := { s.hist with verified := some v } } := by
  rw [finishReply] at h
  split at h
  · cases h
    exact .inl (refused_finish rfl)
  rename_i e he
  simp only at h
  split at h
  · cases h
    exact .inl (Recorded.refused {} rfl)
  rename_i k hk
  obtain ⟨vS, hvS, h⟩ := bind_ok_iff.mp h
  obtain ⟨_, hiS, h⟩ := bind_ok_iff.mp h
  obtain ⟨_, hvC, h⟩ := bind_ok_iff.mp h
  obtain ⟨hash, hhash, h⟩ := bind_ok_iff.mp h
  split at h
  · cases h
    exact .inl (Recorded.refused {} rfl)
  rename_i sig hsig
  obtain ⟨hdec, hver⟩ := verifyReply_ok hsig
  rw [deriveAes128GcmKeys_eq, ok_bind] at h
  cases h
  exact .inr ⟨e, vS, ⟨reply, _, k, hash, key, scheme, sig⟩, he, hk, expect_ok_iff.mp hvS,
    rfl, expect_ok_iff.mp hiS, hvC, rfl, rfl, rfl, rfl, hhash, hdec, hver, rfl, rfl, rfl,
    rfl⟩

/-- **Inversion of the server `KEX_ECDH_REPLY`.** -/
theorem onEcdhReply_cases (hphase : s.phase = .ecdhReply)
    (hnumber : payload.head? = some Msg.kexEcdhReply)
    (hguess : ∀ n, s.negotiated = some n → n.serverGuessWrong = true → s.guessDiscarded = true)
    (h : onEcdhReply C u payload s = .ok s') : Handled C u payload s s' ∧ (s.Fits → s'.Fits) := by
  rw [onEcdhReply] at h
  split at h
  · cases h
    exact (refused_finish rfl).handled
  rename_i reply hreply
  split at h
  · cases h
    exact (refused_finish rfl).handled
  rename_i blob hblob
  split at h
  · cases h
    exact (refused_finish rfl).handled
  rename_i key hkey
  simp only at h
  split at h
  · cases h
    exact (Recorded.refused {} rfl).handled
  rename_i scheme hscheme
  split at h
  · cases h
    exact (Recorded.refused {} rfl).handled
  rename_i htype
  obtain ⟨n, hn, hns⟩ := Option.bind_eq_some_iff.mp hscheme
  rcases finishReply_cases h with hfail | hok
  · exact Refused.handled { hfail with }
  · obtain ⟨e, vS, v, he, hk, hvS, hvSline, hiS, hvC, hiC, hkS, hqC, hqS, hhash, hdec, hver, rfl,
      rfl, rfl, rfl⟩ := hok
    exact ⟨.reply v _ _ hphase hnumber hguess
      ⟨⟨⟨blob, hblob, hkey⟩, ⟨n, hn, hns⟩, not_not.mp htype, hvC, ⟨vS, hvS, hvSline⟩, hiC, hiS, hkS,
        hqC, hqS, hhash, hdec, hver⟩, hreply, ⟨e, he, hk⟩⟩ ⟨blob, hblob, rfl⟩, id⟩

theorem length_serviceRequest (u : Setup) :
    u.serviceRequest.length = 1 + 4 + u.config.service.length := by
  rw [Setup.serviceRequest, ServiceRequest.payload, List.length_append, length_lengthPrefixed]
  simp only [List.length_cons, List.length_nil]
  omega

/-- With the keys and a service name that encodes, the server `NEWKEYS` is answered by our
`SERVICE_REQUEST`. -/
theorem onServerNewkeys_decoded {m : NewKeys} {keys : KeySet} (hm : NewKeys.decode payload = .ok m)
    (hkeys : s.keys = some keys) (hshort : u.config.service.length < 2 ^ 32) :
    onServerNewkeys C u payload s =
      (sendProtected C u.serviceRequest (s.protect keys) >>= fun
        | (.error o, s) => pure (s.finish o)
        | (.ok (), s) => pure s) := by
  obtain ⟨_, hrun, hout⟩ :=
    (ServiceRequest.encodesTo { serviceName := u.config.service } hshort).large
      (List.replicate (1 + 4 + u.config.service.length) 0)
      (by rw [List.length_replicate]; exact Nat.le_of_eq (length_serviceRequest u))
  rw [onServerNewkeys, hm]
  simp only
  rw [hkeys, expect_some, ok_bind, addUsize_ok (by omega), ok_bind]
  simp only [hrun, Except.toOption, expect_some, ok_bind,
    slice_written hout]
  rfl

/-- **Inversion of the server `NEWKEYS`.** -/
theorem onServerNewkeys_cases (hphase : s.phase = .serverNewKeys)
    (hnumber : payload.head? = some Msg.newKeys) (hsent : s.protectedSent + 1 < 2 ^ 32)
    (hseq : s.sendSeq + 1 < 2 ^ 32) (h : onServerNewkeys C u payload s = .ok s') :
    Handled C u payload s s' ∧ (s.Fits → s'.Fits) := by
  cases hm : NewKeys.decode payload with
  | error =>
    rw [onServerNewkeys, hm] at h
    cases h
    exact (refused_finish rfl).handled
  | ok m =>
  cases hkeys : s.keys with
  | none =>
    rw [onServerNewkeys, hm, hkeys] at h
    cases h
  | some keys =>
  by_cases hshort : u.config.service.length < 2 ^ 32
  swap
  · -- the name does not encode
    obtain ⟨_, hrun⟩ := ServiceRequest.encode_too_long { serviceName := u.config.service }
      (List.replicate (1 + 4 + u.config.service.length) 0) (Nat.not_lt.mp hshort)
      (by rw [List.length_replicate]; omega)
    rw [onServerNewkeys, hm, hkeys] at h
    obtain ⟨_, hexpect, h⟩ := bind_ok_iff.mp h
    obtain ⟨_, hsize, h⟩ := bind_ok_iff.mp h
    obtain ⟨-, rfl⟩ := addUsize_ok_iff.mp hsize
    simp only [hrun] at h
    cases h
  rw [onServerNewkeys_decoded hm hkeys hshort] at h
  cases ha : s.sendAead with
  | none =>
    rw [sendProtected, show (s.protect keys).sendAead = none from ha] at h
    cases h
  | some a =>
    rcases sendProtected_cases C (s := s.protect keys) ha hsent hseq
      with ⟨havail, padding, wire, hwire, heq⟩ | ⟨e, padding, junk, hjunk, heq⟩
    · rw [heq, ok_bind] at h
      cases h
      exact ⟨.newkeys keys a havail wire padding hphase hnumber hkeys ha hwire, id⟩
    · rw [heq, ok_bind] at h
      cases h
      exact ⟨.newkeysFailed keys e junk padding hphase hnumber hkeys fun h => (hjunk h).1,
        fun _ => rfl⟩

/-- **Inversion of a message of the key exchange.** -/
theorem handleKexMessage_cases (hphase : s.phase = .ecdhReply ∨ s.phase = .serverNewKeys)
    (hnumber : payload.head? = some number) (hsent : s.protectedSent + 1 < 2 ^ 32)
    (hseq : s.sendSeq + 1 < 2 ^ 32) (h : handleKexMessage C u number payload s = .ok s') :
    Handled C u payload s s' ∧ (s.Fits → s'.Fits) := by
  rw [handleKexMessage] at h
  rcases ite_eq_iff.mp h with ⟨hguess, h⟩ | ⟨hguess, h⟩
  · -- the wrongly guessed packet
    simp only [Bool.and_eq_true, Bool.not_eq_true', beq_iff_eq] at hguess
    obtain ⟨⟨⟨hspecific, hreply⟩, hwrong⟩, hfirst⟩ := hguess
    obtain ⟨n, hn, hw⟩ := (Option.any_eq_true _ _).mp hwrong
    cases h
    exact ⟨.guess number n hreply hnumber hspecific hn hw hfirst, id⟩
  rcases ite_eq_iff.mp h with ⟨hreply, hrun⟩ | ⟨-, h⟩
  · simp only [Bool.and_eq_true, decide_eq_true_eq, beq_iff_eq] at hreply
    obtain ⟨rfl, hreply⟩ := hreply
    refine onEcdhReply_cases hreply hnumber ?_ hrun
    intro n hn hw
    simpa [hreply, hn, hw, show Msg.isKexMethodSpecific Msg.kexEcdhReply = true by decide]
      using hguess
  rcases ite_eq_iff.mp h with ⟨hnew, hrun⟩ | ⟨-, h⟩
  · simp only [Bool.and_eq_true, decide_eq_true_eq, Bool.not_eq_true', beq_eq_false_iff_ne] at hnew
    obtain ⟨rfl, hnot⟩ := hnew
    exact onServerNewkeys_cases (hphase.resolve_left hnot) hnumber hsent hseq hrun
  -- four strict-KEX violations, then one for the messages otherwise skipped
  iterate 4
    rcases ite_eq_iff.mp h with ⟨-, h⟩ | ⟨-, h⟩
    · cases h
      exact (refused_finish rfl).handled
  rcases ite_eq_iff.mp h with ⟨-, h⟩ | ⟨hnotStrict, h⟩
  · cases h
    exact (refused_finish rfl).handled
  rcases ite_eq_iff.mp h with ⟨hskip, h⟩ | ⟨-, h⟩
  · obtain ⟨hisSkip, hfail | ⟨m, rfl⟩⟩ := skip_cases h
    · exact hfail.handled
    · refine ⟨.skipped number m hnumber hisSkip (.inr ⟨hphase, ?_⟩), id⟩
      simpa [hskip] using hnotStrict
  rcases ite_eq_iff.mp h with ⟨-, h⟩ | ⟨-, h⟩
  · cases h
    exact (onDisconnect_refused _ _ _).handled
  · cases h
    exact (refused_finish rfl).handled

/-- **Inversion of the handling of one unprotected payload.** -/
theorem handleUnprotected_cases (hsent : s.protectedSent + 1 < 2 ^ 32)
    (hseq : s.sendSeq + 1 < 2 ^ 32) (h : handleUnprotected C u payload s = .ok s') :
    Handled C u payload s s' ∧ (s.Fits → s'.Fits) := by
  rw [handleUnprotected] at h
  split at h
  · cases h
    exact (refused_finish rfl).handled
  rename_i number hnumber
  split at h
  · rename_i hphase
    split at h
    · rename_i hkexinit
      exact onServerKexinit_cases hphase (hkexinit ▸ hnumber) hseq h
    split at h
    · obtain ⟨hisSkip, hfail | ⟨m, rfl⟩⟩ := skip_cases h
      · exact hfail.handled
      · exact ⟨.skipped number m hnumber hisSkip (.inl hphase), id⟩
    split at h
    · cases h
      exact (onDisconnect_refused _ _ _).handled
    · cases h
      exact (refused_finish rfl).handled
  · rename_i hphase
    exact handleKexMessage_cases (.inl hphase) hnumber hsent hseq h
  · rename_i hphase
    exact handleKexMessage_cases (.inr hphase) hnumber hsent hseq h
  · cases h

end Handlers

/-! ### Protected payloads -/

/-- What the handling of one protected payload can do. -/
inductive HandledProtected (C : Crypto) (u : Setup) (payload : Bytes) (s : State) :
    State → Prop where
  /-- A check failed. -/
  | failed {s' : State} (h : Failed s s') : HandledProtected C u payload s s'
  /-- The message was recorded and skipped. -/
  | skipped (number : UInt8) (message : SkippedMessage) (hnumber : payload.head? = some number)
      (hskip : number = Msg.ignore ∨ number = Msg.debug) :
      HandledProtected C u payload s { s with skipped := s.skipped ++ [message] }
  /-- The server `EXT_INFO`, which is the first protected packet. -/
  | extInfo (summary : ExtInfoSummary) (hnumber : payload.head? = some Msg.extInfo)
      (hfirst : s.protectedReceived = 1) :
      HandledProtected C u payload s { s with extInfo := some summary }
  /-- The server `SERVICE_ACCEPT` for the service we asked for, answered by our `DISCONNECT`. -/
  | accept (a : AeadDirection) (h : a.counterAvailable = true) (wire : Bytes)
      (padding : PaddingSource) (name : String) (hnumber : payload.head? = some Msg.serviceAccept)
      (hservice : ServiceAccept.decode payload = .ok { serviceName := u.config.service })
      (haead : s.sendAead = some a)
      (hwire : SealedBy C a (disconnectPayload completeDescription) wire) :
      HandledProtected C u payload s
        { { s with serviceAccepted := some name }.queueSealed a (a.advance h)
            (disconnectPayload completeDescription) wire padding with
          pendingOutcome := some .completed }
  /-- A re-exchange request, answered by our `DISCONNECT`. -/
  | rekey (a : AeadDirection) (h : a.counterAvailable = true) (wire : Bytes)
      (padding : PaddingSource) (hnumber : payload.head? = some Msg.kexInit)
      (haead : s.sendAead = some a)
      (hwire : SealedBy C a (disconnectPayload rekeyDescription) wire) :
      HandledProtected C u payload s
        { s.queueSealed a (a.advance h) (disconnectPayload rekeyDescription) wire padding with
          pendingOutcome := some .rekeyNotSupported }
  /-- The `DISCONNECT` could not be sealed. -/
  | sealFailed (e : SealError) (junk : Bytes) (padding : PaddingSource) (name : Option String)
      (hjunk : C.SealTotal → junk = []) :
      HandledProtected C u payload s
        (({ s with serviceAccepted := name }.sealFailed junk padding).finish
          (.protocolError (.seal e)))

section Protected

variable {C : Crypto} {u : Setup} {payload : Bytes} {s s' : State}

/-- Refusing a protected payload is a way of handling it. -/
theorem Refused.handledProtected (h : Refused s s') :
    HandledProtected C u payload s s' ∧ (s.Fits → s'.Fits) :=
  ⟨.failed h.toFailed, fun _ => h.fits⟩

/-- An `EXT_INFO` is recorded, or it fails validation. -/
theorem onExtInfo_cases (u : Setup) (payload : Bytes) (s : State) :
    Refused s (onExtInfo u payload s) ∨
      ∃ summary, onExtInfo u payload s = { s with extInfo := some summary } := by
  rw [onExtInfo]
  split
  · exact .inl (refused_finish rfl)
  split
  · exact .inl (refused_finish rfl)
  simp only
  split
  · exact .inr ⟨_, rfl⟩
  · exact .inr ⟨_, rfl⟩
  · exact .inl (refused_finish rfl)

/-- Queueing the `DISCONNECT` and an outcome: both are queued, or sealing failed. -/
theorem disconnectThen_cases {description : Bytes} {o : HandshakeOutcome}
    (hdesc : description.length < 2 ^ 32) (hsent : s.protectedSent + 1 < 2 ^ 32)
    (hseq : s.sendSeq + 1 < 2 ^ 32) (h : disconnectThen C description o s = .ok s') :
    (∃ a havail wire padding, s.sendAead = some a ∧
      SealedBy C a (disconnectPayload description) wire ∧
      s' = { s.queueSealed a (a.advance havail) (disconnectPayload description) wire padding with
        pendingOutcome := some o }) ∨
    ∃ e junk padding, (C.SealTotal → junk = []) ∧
      s' = (s.sealFailed junk padding).finish (.protocolError (.seal e)) := by
  rw [disconnectThen, sendDisconnect_eq C hdesc] at h
  cases ha : s.sendAead with
  | none =>
    rw [sendProtected, ha] at h
    cases h
  | some a =>
    rcases sendProtected_cases C ha hsent hseq with
      ⟨havail, padding, wire, hwire, heq⟩ | ⟨e, padding, junk, hjunk, heq⟩
    · rw [heq, ok_bind] at h
      cases h
      exact .inl ⟨a, havail, wire, padding, rfl, hwire, rfl⟩
    · rw [heq, ok_bind] at h
      cases h
      exact .inr ⟨e, junk, padding, fun h => (hjunk h).1, rfl⟩

/-- The two descriptions fit their length prefix. -/
theorem length_description_lt :
    completeDescription.length < 2 ^ 32 ∧ rekeyDescription.length < 2 ^ 32 := by
  decide

/-- **Inversion of the server `SERVICE_ACCEPT`.** -/
theorem onServiceAccept_cases (hnumber : payload.head? = some Msg.serviceAccept)
    (hsent : s.protectedSent + 1 < 2 ^ 32) (hseq : s.sendSeq + 1 < 2 ^ 32)
    (h : onServiceAccept C u payload s = .ok s') :
    HandledProtected C u payload s s' ∧ (s.Fits → s'.Fits) := by
  rw [onServiceAccept] at h
  split at h
  · cases h
    exact (refused_finish rfl).handledProtected
  rename_i accept hdec
  rcases ite_eq_iff.mp h with ⟨-, h⟩ | ⟨hname, h⟩
  · cases h
    exact (refused_finish rfl).handledProtected
  have haccept : accept = { serviceName := u.config.service } := by
    cases accept
    simpa using hname
  rcases disconnectThen_cases length_description_lt.1 (by exact hsent) (by exact hseq) h with
    ⟨a, havail, wire, padding, ha, hwire, rfl⟩ | ⟨e, junk, padding, hjunk, rfl⟩
  · exact ⟨.accept a havail wire padding _ hnumber (haccept ▸ hdec) ha hwire, id⟩
  · exact ⟨.sealFailed e junk padding _ hjunk, fun _ => rfl⟩

/-- **Inversion of the handling of one protected payload.** -/
theorem handleProtected_cases (hsent : s.protectedSent + 1 < 2 ^ 32)
    (hseq : s.sendSeq + 1 < 2 ^ 32) (h : handleProtected C u payload s = .ok s') :
    HandledProtected C u payload s s' ∧ (s.Fits → s'.Fits) := by
  rw [handleProtected] at h
  split at h
  · cases h
    exact (refused_finish rfl).handledProtected
  rename_i number hnumber
  rcases ite_eq_iff.mp h with ⟨hext, hrun⟩ | ⟨-, h⟩
  · simp only [Bool.and_eq_true, decide_eq_true_eq, beq_iff_eq] at hext
    obtain ⟨rfl, hfirst⟩ := hext
    cases hrun
    rcases onExtInfo_cases u payload s with hfail | ⟨summary, heq⟩
    · exact hfail.handledProtected
    · rw [heq]
      exact ⟨.extInfo summary hnumber hfirst, id⟩
  rcases ite_eq_iff.mp h with ⟨hskip, h⟩ | ⟨-, h⟩
  · simp only [Bool.or_eq_true, decide_eq_true_eq] at hskip
    obtain ⟨-, hfail | ⟨m, rfl⟩⟩ := skip_cases h
    · exact hfail.handledProtected
    · exact ⟨.skipped number m hnumber hskip, id⟩
  rcases ite_eq_iff.mp h with ⟨rfl, hrun⟩ | ⟨-, h⟩
  · exact onServiceAccept_cases hnumber hsent hseq hrun
  rcases ite_eq_iff.mp h with ⟨-, h⟩ | ⟨-, h⟩
  · cases h
    exact (onDisconnect_refused _ _ _).handledProtected
  rcases ite_eq_iff.mp h with ⟨rfl, hrun⟩ | ⟨-, h⟩
  · rcases disconnectThen_cases length_description_lt.2 hsent hseq hrun with
      ⟨a, havail, wire, padding, ha, hwire, rfl⟩ | ⟨e, junk, padding, hjunk, rfl⟩
    · exact ⟨.rekey a havail wire padding hnumber ha hwire, id⟩
    · exact ⟨.sealFailed e junk padding s.serviceAccepted hjunk, fun _ => rfl⟩
  · cases h
    exact (refused_finish rfl).handledProtected

end Protected

end Tatami.Tcp
