import Tatami.Tcp.Handshake.Grammar

/-! # No call panics

Every value a handler expects is there in the phases the handler runs in, every counter has room and
every length fits, so every public call returns; and the loop of `step` ends, since its rank goes
down with every round. -/

namespace Tatami.Tcp

open Tatami.Wire Tatami.Keys Checked Reference AeadDirection

variable {C : Crypto} {u : Setup} {payload : Bytes} {s s' : State} {b : InputBuffer}

/-! ### What the handlers rely on -/

/-- What the setup must satisfy. -/
structure Setup.Bounded (u : Setup) : Prop where
  clientLine : ∃ content, u.clientLine = content ++ [0x0d, 0x0a] ∧
    u.clientLine.length ≤ maxIdentificationLine
  iC_le : u.iC.length ≤ 512
  decodes : ∃ client, KexInit.decode u.iC = .ok client
  ident : u.config.ident.maxIdentificationLine.toNat < 2 ^ 32
  service : u.config.service.length < 2 ^ 32
  protectedPackets : u.config.maxProtectedPackets.toNat < 2 ^ 32

/-- What the handlers rely on in each phase. -/
structure Ready (s : State) : Prop where
  sendSeq : s.sendSeq + 1 < 2 ^ 32
  protectedSent : s.protectedSent + 1 < 2 ^ 32
  transcript : s.phase = .ecdhReply → ∃ i p, s.serverIdent = some i ∧ i.line.length < 2 ^ 32 ∧
    s.iS = some p ∧ p.length < 2 ^ 32
  keys : s.phase = .trustDecision ∨ s.phase = .serverNewKeys → ∃ k, s.keys = some k
  sendAead : s.phase = .serverNewKeys ∨ s.phase = .service → ∃ a, s.sendAead = some a
  recvAead : s.phase = .service → ∃ a, s.recvAead = some a
  identity : s.phase = .trustDecision → ∃ i, s.identity = some i
  finished : s.phase = .finished → s.outcome ≠ none

theorem ready_of_invariants (hu : u.Bounded) (hs : Basic s) (hv : Verification C u s)
    (ho : Output C u s) (hseq : Sequence C 0 s) : Ready s where
  sendSeq := hs.sendSeq_lt
  protectedSent := hs.protectedSent_lt
  transcript hphase := by
    obtain ⟨i, _, hi⟩ := hv.identified (.inr (.inl hphase))
    obtain ⟨n, _, _, p, hn⟩ := hv.negotiated (.inl hphase)
    exact ⟨i, p, hi.stored, Nat.lt_trans hi.short hu.ident, hn.iS, hn.short⟩
  keys hphase := by
    obtain ⟨v, hverified⟩ := Option.ne_none_iff_exists'.mp
      (hv.known (hphase.imp_right .inl))
    exact ⟨_, hv.keys hphase v hverified⟩
  sendAead hphase := by
    have hne : s.phase ≠ .finished := by rcases hphase with h | h <;> rw [h] <;> decide
    obtain ⟨v, a, -, ha, -⟩ := ho.sealing ((hs.sent_iff hne).mpr hphase)
    exact ⟨a, ha⟩
  recvAead hphase := by
    obtain ⟨v, a, -, ha, -, -⟩ := hseq.receiving
      ((hs.received_iff (by rw [hphase]; decide)).mpr hphase)
    exact ⟨a, ha⟩
  identity hphase := Option.ne_none_iff_exists'.mp (hv.identity hphase)
  finished := hs.finished_iff.mp

/-! ### Key exchange -/

/-- A message that may be skipped is handled. -/
theorem skip_returns {number : UInt8} (h : isSkip number = true) :
    Checked.Returns (skip number payload s) := by
  rw [isSkip, Bool.or_eq_true, Bool.or_eq_true, beq_iff_eq, beq_iff_eq, beq_iff_eq] at h
  rw [skip]
  simp only
  split_ifs with hignore hdebug hunimplemented
  · split <;> exact returns_ok _
  · split <;> exact returns_ok _
  · split <;> exact returns_ok _
  · tauto

/-- `V_C` is our identification line without its line end. -/
theorem clientIdentificationLine_of_eq {u : Setup} {vC : Bytes}
    (h : u.clientLine = vC ++ [0x0d, 0x0a]) : clientIdentificationLine u = .ok vC := by
  rw [clientIdentificationLine, h, sub_ok (by simp), ok_bind,
    slice_ok (Nat.zero_le _) (Nat.sub_le _ _)]
  simp

/-- `V_C` can be cut out of our identification line. -/
theorem clientIdentificationLine_returns (hline : ∃ content,
      u.clientLine = content ++ [0x0d, 0x0a] ∧ u.clientLine.length ≤ maxIdentificationLine) :
    ∃ vC, clientIdentificationLine u = .ok vC ∧ vC.length ≤ maxIdentificationLine := by
  obtain ⟨content, hline, hle⟩ := hline
  rw [hline, List.length_append] at hle
  exact ⟨content, clientIdentificationLine_of_eq hline, Nat.le_trans (Nat.le_add_right _ _) hle⟩

theorem onServerKexinit_returns (hu : u.Bounded) (hr : Ready s) :
    Checked.Returns (onServerKexinit C u payload s) := by
  cases hserver : KexInit.decode payload with
  | error =>
    rw [onServerKexinit, hserver]
    exact returns_ok _
  | ok =>
    obtain ⟨_, hclient⟩ := hu.decodes
    obtain ⟨_, hrun, -⟩ := onServerKexinit_decoded C hclient hserver hr.sendSeq
    rw [hrun]
    exact returns_ok _

/-- The reply is handled, after the key type was checked. -/
theorem finishReply_returns {reply : KexEcdhReply} {key : HostKey} {scheme : SignatureScheme}
    {identity : HostIdentityOwned} (hu : u.Bounded) (hr : Ready s) (hphase : s.phase = .ecdhReply)
    (hblob : reply.hostKeyBlob.length < 2 ^ 32) (hqS : reply.serverEphemeral.length < 2 ^ 32) :
    Checked.Returns (finishReply C u reply key scheme identity s) := by
  obtain ⟨i, p, hi, hline, hp, hplen⟩ := hr.transcript hphase
  obtain ⟨vC, hvC, hvClen⟩ := clientIdentificationLine_returns hu.clientLine
  rw [finishReply]
  split
  · exact returns_ok _
  simp only
  split
  · exact returns_ok _
  rename_i k hk
  simp only [hi, hp, hvC, expect_some, ok_bind]
  have hmax : maxIdentificationLine = 255 := rfl
  have hiC := hu.iC_le
  have hshort : ExchangeHashInputs.Short ⟨vC, i.line, u.iC, p, reply.hostKeyBlob, u.qC.toBytes,
      reply.serverEphemeral⟩ := by
    simp only [ExchangeHashInputs.Short, ExchangeHashInputs.parts, List.mem_cons,
      List.not_mem_nil, or_false, forall_eq_or_imp, forall_eq, ByteVec.length_toBytes]
    exact ⟨by omega, hline, by omega, hplen, hblob, by omega, hqS⟩
  rw [exchangeHash_ok_iff.mpr ⟨hshort, rfl⟩, ok_bind]
  split
  · exact returns_ok _
  · rw [deriveAes128GcmKeys_eq]
    exact returns_ok _

theorem onEcdhReply_returns (hu : u.Bounded) (hr : Ready s) (hphase : s.phase = .ecdhReply) :
    Checked.Returns (onEcdhReply C u payload s) := by
  rw [onEcdhReply]
  split
  · exact returns_ok _
  rename_i reply hreply
  obtain ⟨⟨hblob, hqS, -⟩, -⟩ := KexEcdhReply.decode_ok_iff.mp hreply
  split
  · exact returns_ok _
  split
  · exact returns_ok _
  simp only
  split
  · exact returns_ok _
  split
  · exact returns_ok _
  exact finishReply_returns hu { hr with } hphase hblob hqS

/-- Sending a protected packet returns while the direction is there and the counters have room. -/
theorem sendProtected_returns (ha : ∃ a, s.sendAead = some a) (hsent : s.protectedSent + 1 < 2 ^ 32)
    (hseq : s.sendSeq + 1 < 2 ^ 32) : Checked.Returns (sendProtected C payload s) := by
  obtain ⟨a, ha⟩ := ha
  rcases sendProtected_cases C ha hsent hseq with
    ⟨h, padding, wire, -, heq⟩ | ⟨e, padding, junk, -, heq⟩
  · exact ⟨_, heq⟩
  · exact ⟨_, heq⟩

theorem onServerNewkeys_returns (hu : u.Bounded) (hr : Ready s)
    (hphase : s.phase = .serverNewKeys) :
    Checked.Returns (onServerNewkeys C u payload s) := by
  obtain ⟨keys, hkeys⟩ := hr.keys (.inr hphase)
  cases hm : NewKeys.decode payload with
  | error =>
    rw [onServerNewkeys, hm]
    exact returns_ok _
  | ok =>
    obtain ⟨_, hsend⟩ : Checked.Returns (sendProtected C u.serviceRequest (s.protect keys)) :=
      sendProtected_returns (hr.sendAead (.inl hphase)) hr.protectedSent hr.sendSeq
    rw [onServerNewkeys_decoded hm hkeys hu.service, hsend, ok_bind]
    split <;> exact returns_ok _

/-- A message of the key exchange is handled. -/
theorem handleKexMessage_returns {number : UInt8} (hu : u.Bounded) (hr : Ready s)
    (hphase : s.phase = .ecdhReply ∨ s.phase = .serverNewKeys) :
    Checked.Returns (handleKexMessage C u number payload s) := by
  rw [handleKexMessage]
  split
  · exact returns_ok _
  split
  · rename_i hreply
    rw [Bool.and_eq_true, beq_iff_eq] at hreply
    exact onEcdhReply_returns hu hr hreply.2
  split
  · rename_i hnewkeys
    rw [Bool.and_eq_true, Bool.not_eq_true', beq_eq_false_iff_ne] at hnewkeys
    exact onServerNewkeys_returns hu hr (hphase.resolve_left hnewkeys.2)
  -- five strict-KEX violations
  iterate 5
    split
    · exact returns_ok _
  split
  · rename_i hskip
    exact skip_returns (by simpa [isSkip] using hskip)
  split
  · exact returns_ok _
  · exact returns_ok _

theorem handleUnprotected_returns (hu : u.Bounded) (hr : Ready s) (hphase : s.phase.isKex = true) :
    Checked.Returns (handleUnprotected C u payload s) := by
  rw [handleUnprotected]
  split
  · exact returns_ok _
  cases hp : s.phase with
  | serverKexInit =>
    simp only
    split
    · exact onServerKexinit_returns hu hr
    split
    · rename_i hskip
      exact skip_returns (by simpa [isSkip] using hskip)
    split
    · exact returns_ok _
    · exact returns_ok _
  | ecdhReply => exact handleKexMessage_returns hu hr (.inl hp)
  | serverNewKeys => exact handleKexMessage_returns hu hr (.inr hp)
  | serverIdentification | trustDecision | service | finished => rw [hp] at hphase; cases hphase

/-! ### Protected messages -/

theorem disconnectThen_returns {description : Bytes} {o : HandshakeOutcome}
    (hd : description.length < 2 ^ 32) (hr : Ready s) (hphase : s.phase = .service) :
    Checked.Returns (disconnectThen C description o s) := by
  obtain ⟨_, hsend⟩ := sendProtected_returns (C := C)
    (hr.sendAead (.inr hphase)) hr.protectedSent
    hr.sendSeq
  rw [disconnectThen, sendDisconnect_eq C hd, hsend, ok_bind]
  split <;> exact returns_ok _

theorem handleProtected_returns (hr : Ready s) (hphase : s.phase = .service) :
    Checked.Returns (handleProtected C u payload s) := by
  rw [handleProtected]
  split
  · exact returns_ok _
  split
  · exact returns_ok _
  split
  · rename_i hskip
    rw [Bool.or_eq_true, decide_eq_true_eq, decide_eq_true_eq] at hskip
    exact skip_returns (by rcases hskip with rfl | rfl <;> rfl)
  split
  · rw [onServiceAccept]
    split
    · exact returns_ok _
    split
    · exact returns_ok _
    exact disconnectThen_returns length_description_lt.1 { hr with } hphase
  split
  · exact returns_ok _
  split
  · exact disconnectThen_returns length_description_lt.2 hr hphase
  · exact returns_ok _

/-! ### Rounds -/

theorem stepIdentification_returns : Checked.Returns (stepIdentification s b) := by
  rw [stepIdentification]
  split
  · exact returns_ok _
  · rename_i line t consumed r hfeed
    obtain ⟨b', hb'⟩ := InputBuffer.consume_returns (IdentificationReader.feed_ok hfeed).2.2
    rw [hb']
    exact returns_ok _
  · rename_i ident consumed r hfeed
    obtain ⟨b', hb'⟩ := InputBuffer.consume_returns (IdentificationReader.feed_ok hfeed).2.2.2.1
    rw [hb']
    exact returns_ok _
  · exact returns_ok _

/-- A received packet is counted and handled. -/
theorem counted_returns {f : State → Checked State} (hf : Checked.Returns (f s.count)) :
    Checked.Returns (match s.bumpSequence false with
      | (.error o, s) => pure (Flow.again, s.finish o, b)
      | (.ok (), s) => do
        let s ← f s
        pure (Flow.again, s, b)) := by
  obtain ⟨_, hs'⟩ := hf
  rcases s.bumpSequence_receive with ⟨-, hbump⟩ | ⟨-, hbump⟩
  · rw [hbump]
    exact returns_ok _
  · simp only [hbump, hs']
    exact returns_ok _

/-- A look for an unprotected packet returns. -/
theorem stepUnprotected_returns (hu : u.Bounded) (hr : Ready s) (hphase : s.phase.isKex = true) :
    Checked.Returns (stepUnprotected C u s b) := by
  rw [stepUnprotected, decodeInitialPacket_eq, ok_bind]
  split
  · exact returns_ok _
  · exact returns_ok _
  rename_i packet hpacket
  obtain ⟨-, htotal, -⟩ := initialDecision_complete hpacket
  by_cases hbudget : u.config.maxPreKexPackets.toNat ≤ s.preKexPackets
  · rw [if_pos hbudget]
    exact returns_ok _
  rw [if_neg hbudget]
  simp only
  split
  · exact returns_ok _
  have hfits := u.config.maxPreKexPackets.toNat_lt
  obtain ⟨_, hb'⟩ := InputBuffer.consume_returns htotal
  rw [addUsize_ok (by omega), ok_bind, hb', ok_bind]
  exact counted_returns (handleUnprotected_returns hu { hr with } hphase)

/-- A look for a protected packet returns. -/
theorem stepProtected_returns (hu : u.Bounded) (hr : Ready s) (hphase : s.phase = .service) :
    Checked.Returns (stepProtected C u s b) := by
  obtain ⟨a, ha⟩ := hr.recvAead hphase
  have hlen := length_openDecision C a b.buf u.config.packet
  obtain ⟨b₁, hb₁⟩ : ∃ b₁, b.overwriteWith
      (openDecision C a b.buf u.config.packet).buf = .ok b₁ :=
    ⟨_, dif_pos hlen⟩
  obtain ⟨-, hbuf₁, -⟩ := overwriteWith_ok_iff.mp hb₁
  rw [stepProtected, ha, expect_some, ok_bind, openPacket_eq,
    ok_bind, hb₁, ok_bind]
  have hopen := openDecision_cases C a b.buf u.config.packet
  generalize openDecision C a b.buf u.config.packet = opened at *
  cases hopen with
  | needMore | badPadding => exact returns_ok _
  | refused e => cases e <;> exact returns_ok _
  | packet plain buf' payload totalLen havail hdec hpos hle hbuf hrest =>
    rw [recordOpening_advance, stepOpened]
    obtain ⟨_, hb₂⟩ := InputBuffer.consume_returns (b := b₁) (n := totalLen)
      (by rw [hbuf₁, hbuf]; exact hle)
    simp only [hb₂, ok_bind]
    split
    · exact returns_ok _
    rename_i hbudget
    have hfew := hu.protectedPackets
    have hlt : s.protectedReceived < u.config.maxProtectedPackets.toNat := Nat.not_le.mp hbudget
    rw [add_ok (a := (s.authenticate a (a.advance havail)).protectedReceived)
      (show s.protectedReceived + 1 < 2 ^ 32 by omega), ok_bind]
    exact counted_returns (handleProtected_returns
      { hr with recvAead := fun _ => ⟨_, rfl⟩ } hphase)

theorem round_returns (hu : u.Bounded) (hr : Ready s) : Checked.Returns (round C u s b) := by
  have hflow {x : Checked (Flow × State × InputBuffer)} (hx : Checked.Returns x) :
      Checked.Returns (ofFlow <$> x) := by
    obtain ⟨a, rfl⟩ := hx
    exact returns_ok _
  rw [round]
  split
  · exact returns_ok _
  rename_i hnone
  split
  · exact returns_ok _
  split
  · exact returns_ok _
  cases hphase : s.phase with
  | serverIdentification => exact hflow stepIdentification_returns
  | serverKexInit | ecdhReply | serverNewKeys =>
    exact hflow (stepUnprotected_returns hu hr (by rw [hphase]; rfl))
  | trustDecision =>
    obtain ⟨_, hidentity⟩ := hr.identity hphase
    rw [hidentity]
    exact returns_ok _
  | service => exact hflow (stepProtected_returns hu hr hphase)
  | finished => exact absurd hnone (hr.finished hphase)

/-! ### Calls -/

/-- The invariants that make every call return. -/
structure Sound (C : Crypto) (u : Setup) (s : State) : Prop where
  basic : Basic s
  verification : Verification C u s
  output : Output C u s
  sequence : Sequence C 0 s

theorem Sound.move (h : Sound C u s) (hm : Move C u s s') : Sound C u s' :=
  ⟨h.basic.move hm, h.verification.move hm, h.output.move h.basic h.verification hm,
    h.sequence.move h.basic h.output h.verification hm⟩

/-- Any number of moves keeps the invariants. -/
theorem Sound.moves (h : Sound C u s) (hm : Moves C u s s') : Sound C u s' := by
  induction hm with
  | refl => exact h
  | tail _ hlast ih => exact ih.move hlast

theorem Sound.ready (h : Sound C u s) (hu : u.Bounded) : Ready s :=
  ready_of_invariants hu h.basic h.verification h.output h.sequence

/-- The loop returns: its rank goes down with every round, and that many rounds it may make. -/
theorem stepLoop_returns {fuel : Nat} (hu : u.Bounded) (h : Sound C u s)
    (hfuel : rank s b < fuel) : Checked.Returns (stepLoop C u fuel s b) := by
  induction fuel generalizing s b with
  | zero => exact absurd hfuel (Nat.not_lt_zero _)
  | succ _ ih =>
    obtain ⟨r, hround⟩ := round_returns (C := C) (b := b) hu (h.ready hu)
    rw [stepLoop, hround, ok_bind]
    cases h.basic.round_cases hround with
    | again _ _ move => exact ih (h.move move) (by omega)
    | _ => exact returns_ok _

/-- A round that asks for another one has consumed input or set the outcome. -/
theorem round_progress {b' : InputBuffer} (h : Sound C u s)
    (hround : round C u s b = .ok (none, s', b')) :
    b'.buf.length < b.buf.length ∨ (s.outcome = none ∧ s'.outcome ≠ none) := by
  cases h.basic.round_cases hround with
  | again hnone _ _ _ hrank =>
    rw [rank, rank, hnone] at hrank
    by_cases hend : s'.outcome = none
    · rw [hend] at hrank
      simp only [Option.isNone_none, if_true] at hrank
      exact .inl (by omega)
    · exact .inr ⟨hnone, hend⟩

theorem provideTrust_returns {decision : TrustDecision} (hseq : s.sendSeq + 1 < 2 ^ 32)
    (hkeys : s.phase = .trustDecision → ∃ keys, s.keys = some keys) :
    Checked.Returns (provideTrust C decision s) := by
  by_cases hphase : s.phase = .trustDecision
  swap
  · rw [provideTrust, if_pos hphase]
    exact returns_ok _
  cases decision with
  | untrusted =>
    rw [provideTrust, if_neg (not_not.mpr hphase)]
    exact returns_ok _
  | trusted source =>
    obtain ⟨_, _, -, hrun⟩ := provideTrust_trusted C source hphase hseq
    obtain ⟨keys, hkeys⟩ := hkeys hphase
    rw [hrun, hkeys]
    exact returns_ok _

/-- The trust answer is handled in every sound state. -/
theorem Sound.provideTrust_returns (h : Sound C u s) (decision : TrustDecision) :
    Checked.Returns (provideTrust C decision s) := by
  refine Tcp.provideTrust_returns h.basic.sendSeq_lt fun hphase => ?_
  obtain ⟨v, hv⟩ := Option.ne_none_iff_exists'.mp (h.verification.known (.inl hphase))
  exact ⟨_, h.verification.keys (.inl hphase) v hv⟩

theorem call_returns {h : ClientHandshake} (hu : h.setup.Bounded) (hs : Sound C h.setup h.state)
    (c : Call) : Checked.Returns (h.call C c) := by
  cases c with
  | step =>
    obtain ⟨⟨_, state, _⟩, hloop⟩ := stepLoop_returns (b := h.buf) hu hs (Nat.lt_succ_self _)
    rw [ClientHandshake.call, ClientHandshake.step, hloop]
    exact returns_ok _
  | provideTrust =>
    obtain ⟨state, hstate⟩ := hs.provideTrust_returns _
    rw [ClientHandshake.call, hstate]
    exact returns_ok _
  | report =>
    obtain ⟨_, hvC, -⟩ := clientIdentificationLine_returns hu.clientLine
    rw [ClientHandshake.call, report, hvC]
    exact returns_ok _
  | _ => exact returns_ok _

/-! ### Construction -/

section Construction

variable {ρ ε : Type} {tryFillBytes : (n : Nat) → ρ → Except ε (ByteVec n × ρ)}
  {config : HandshakeConfig} {rng : ρ} {provider : Option SignatureProvider}

/-- The buffer capacity fits if the line limits do. -/
theorem bufferCapacity_returns (hprelude : config.ident.maxPreludeLine.toNat < 2 ^ 32)
    (hident : config.ident.maxIdentificationLine.toNat < 2 ^ 32) :
    Checked.Returns config.bufferCapacity := by
  have hcap := config.packet.maxPacketLength.toNat_lt
  have hheader : headerLen = 5 := rfl
  have hlength : lengthLen = 4 := rfl
  have htag : tagLen = 16 := rfl
  have hline : config.ident.maxLine < 2 ^ 32 := by
    rw [IdentLimits.maxLine]
    omega
  rw [HandshakeConfig.bufferCapacity, addUsize_ok (by omega), ok_bind,
    addUsize_ok (by omega), ok_bind, addUsize_ok (by omega),
    ok_bind, addUsize_ok (by omega)]
  exact returns_ok _

theorem build_returns (hcapacity : Checked.Returns config.bufferCapacity) :
    Checked.Returns (build C tryFillBytes config rng provider) := by
  rw [build]
  iterate 5
    split
    · exact returns_ok _
  simp only [ClientProposal.encode_eq]
  obtain ⟨capacity, hcapacity⟩ := hcapacity
  rename_i algorithms _ _ line _ _ cookie _ _ _ secret _ _ _ seed _ _
  generalize hp : (⟨cookie, config.advertiseExtInfo, config.offerStrictKex, algorithms⟩ :
    ClientProposal) = p
  have hshort := p.length_payload_le
  rw [buildWith, ClientProposal.decode_kexInit, hcapacity]
  obtain ⟨_, _, hwire, hsend⟩ := sendUnprotected_eq C
    (s := (initialState config (.new seed) (.fromSecretBytes C secret)
      (.offered p.kexInit)).queueLine line)
    (show p.kexInit.payload.length < 2 ^ 31 by omega) (show 0 + 1 < 2 ^ 32 by decide)
  change Checked.Returns (Except.ok <$> (sendUnprotected C p.kexInit.payload
    ((initialState config (.new seed) (.fromSecretBytes C secret)
      (.offered p.kexInit)).queueLine line) >>= _))
  rw [hsend]
  exact returns_ok _

/-- What `build` returns is bounded, for bounded limits. -/
theorem Built.bounded {h : ClientHandshake} (hb : Built C config provider h)
    (hident : config.ident.maxIdentificationLine.toNat < 2 ^ 32)
    (hservice : config.service.length < 2 ^ 32)
    (hpackets : config.maxProtectedPackets.toNat < 2 ^ 32) : h.setup.Bounded where
  clientLine := hb.clientLine
  iC_le := hb.iC_le
  decodes := by
    obtain ⟨client, _, _, _, _, hclient, -⟩ := hb.start
    exact ⟨client, hclient⟩
  ident := by rw [hb.config_eq]; exact hident
  service := by rw [hb.config_eq]; exact hservice
  protectedPackets := by rw [hb.config_eq]; exact hpackets

theorem Built.sound {h : ClientHandshake} (hb : Built C config provider h) :
    Sound C h.setup h.state :=
  ⟨hb.basic, hb.verification, hb.output, hb.sequence⟩

/-- **No call panics and `step` always ends.** With line limits and a service name shorter than
`2 ^ 32` and a packet budget that fits 32 bits, `build` returns, and after it every public call in
every order with every argument; in each of them a round that asks for another one has consumed a
buffered byte or set the outcome. -/
theorem handshake_total (hprelude : config.ident.maxPreludeLine.toNat < 2 ^ 32)
    (hident : config.ident.maxIdentificationLine.toNat < 2 ^ 32)
    (hservice : config.service.length < 2 ^ 32)
    (hpackets : config.maxProtectedPackets.toNat < 2 ^ 32) :
    (∃ r, build C tryFillBytes config rng provider = .ok r) ∧
    ∀ h, build C tryFillBytes config rng provider = .ok (.ok h) →
      ∀ events h', Run (Calls C) h events h' →
        (∀ c, ∃ r h'', h'.call C c = .ok (r, h'')) ∧
        ∀ t b t' b', Moves C h.setup h'.state t → round C h.setup t b = .ok (none, t', b') →
          b'.buf.length < b.buf.length ∨ (t.outcome = none ∧ t'.outcome ≠ none) := by
  refine ⟨build_returns (bufferCapacity_returns hprelude hident), fun h hb events h' hrun => ?_⟩
  have hbuilt := build_ok hb
  obtain ⟨hsetup, hmoves, -⟩ := run_effect hbuilt.basic hrun
  have hsound := hbuilt.sound.moves hmoves
  constructor
  · intro c
    obtain ⟨⟨r, h''⟩, hcall⟩ := call_returns (C := C) (h := h')
      (by rw [hsetup]; exact hbuilt.bounded hident hservice hpackets)
      (by rw [hsetup]; exact hsound) c
    exact ⟨r, h'', hcall⟩
  · intro t b t' b' ht hround
    exact round_progress (hsound.moves ht) hround

/-- A client of the default configuration: it completes its handshake, and then every call still
returns. -/
theorem handshake_total_default :
    ∃ h events h', build reference entropy .default 1 none = .ok (.ok h) ∧
      Run (Calls reference) h events h' ∧ h'.state.outcome = some .completed ∧
      ∀ c, ∃ r h'', h'.call reference c = .ok (r, h'') := by
  have hbuilt : ((built (build reference entropy .default 1 none)).bind fun h =>
      (calls reference (untilAsked ++ untilCompleted) h).toOption.map
        fun r => r.2.state.outcome) = some (some .completed) := by decide +kernel
  obtain ⟨h, hh, hcalls⟩ := Option.bind_eq_some_iff.mp hbuilt
  have hbuild := eq_of_built hh
  obtain ⟨events, h', hrun, hdone⟩ := exists_run _ (fun h => h.state.outcome) hcalls
  refine ⟨h, events, h', hbuild, hrun, hdone, ?_⟩
  exact ((handshake_total (by decide) (by decide) (by decide) (by decide)).2 h hbuild events h'
    hrun).1

end Construction

end Tatami.Tcp
