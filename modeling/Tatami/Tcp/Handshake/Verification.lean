import Tatami.Tcp.Handshake.Runs

/-! # What was verified

The invariant behind the authentication gate: from the moment the trust question is asked, the
record of the accepted signature fits the transcript the machine stores, which is what it sent and
received; the keys and the session identifier are those of that record. -/

namespace Tatami.Tcp

open Tatami.Wire Tatami.Keys

variable {C : Crypto} {u : Setup} {payload : Bytes} {s s' : State}

/-! ### The facts -/

/-- The server identification stored in a state is the line that was consumed. -/
structure Identified (u : Setup) (s : State) (ident : OwnedIdentification) (raw : Bytes) :
    Prop where
  stored : s.serverIdent = some ident
  consumed : s.hist.identLine = some raw
  line : ident.line <+: raw
  terminator : raw.length ≤ ident.line.length + 2
  short : ident.line.length < u.config.ident.maxIdentificationLine.toNat

/-- The negotiation stored in a state is that of the two `KEXINIT`s. -/
structure Negotiation (u : Setup) (s : State) (n : Negotiated) (client server : KexInit)
    (payload : Bytes) : Prop where
  stored : s.negotiated = some n
  strict : s.strict = n.strictKex
  iS : s.iS = some payload
  short : payload.length < 2 ^ 32
  received : payload ∈ s.hist.received
  client_eq : KexInit.decode u.iC = .ok client
  server_eq : KexInit.decode payload = .ok server
  result : negotiateProfile client server = .ok n

/-- An accepted signature, over the transcript a state stores. -/
structure Transcript (C : Crypto) (u : Setup) (s : State) (v : Verified) : Prop
    extends Covers C u s v where
  reply : ∃ payload ∈ s.hist.received, KexEcdhReply.decode payload = .ok v.reply
  agreed : ∃ secret, u.qC = C.x25519Public secret ∧
    (EphemeralKeyPair.fromSecretBytes C secret).agree C v.reply.serverEphemeral = .ok v.secret

/-- The invariant. -/
structure Verification (C : Crypto) (u : Setup) (s : State) : Prop where
  limits : s.phase = .serverIdentification → s.identReader.limits = u.config.ident
  fresh : s.phase = .serverIdentification ∨ s.phase = .serverKexInit ∨ s.phase = .ecdhReply →
    s.hist.verified = none
  known : s.phase = .trustDecision ∨ s.phase = .serverNewKeys ∨ s.phase = .service →
    s.hist.verified ≠ none
  keys : s.phase = .trustDecision ∨ s.phase = .serverNewKeys →
    ∀ v, s.hist.verified = some v → s.keys = some (keysOf C v.secret v.hash)
  early : s.phase = .serverIdentification ∨ s.phase = .serverKexInit →
    s.negotiated = none ∧ s.strict.negotiated = false
  ephemeral : ∀ e, s.ephemeral = some e →
    ∃ secret, e = .fromSecretBytes C secret ∧ u.qC = C.x25519Public secret
  identified : s.phase = .serverKexInit ∨ s.phase = .ecdhReply ∨ s.hist.verified ≠ none →
    ∃ ident raw, Identified u s ident raw
  negotiated : s.phase = .ecdhReply ∨ s.hist.verified ≠ none →
    ∃ n client server payload, Negotiation u s n client server payload
  transcript : ∀ v, s.hist.verified = some v → Transcript C u s v
  sessionId : ∀ v, s.hist.verified = some v →
    s.sessionId = some (.fromInitialExchange v.hash)
  presented : ∀ v, s.hist.verified = some v →
    ∃ identity, s.identity = some identity ∧ Presents C v identity

/-- While the question is open there is an identity to ask about. -/
theorem Verification.identity (h : Verification C u s) (hphase : s.phase = .trustDecision) :
    s.identity ≠ none := by
  obtain ⟨v, hv⟩ := Option.ne_none_iff_exists'.mp (h.known (.inl hphase))
  obtain ⟨identity, hidentity, -⟩ := h.presented v hv
  rw [hidentity]
  exact Option.some_ne_none identity

/-! ### States with the same transcript -/

/-- `s'` stores the transcript of `s`. -/
structure Kept (s s' : State) : Prop where
  limits : s'.phase = .serverIdentification →
    s'.identReader.limits = s.identReader.limits := by exact fun _ => rfl
  verified : s'.hist.verified = s.hist.verified := by rfl
  identLine : s'.hist.identLine = s.hist.identLine := by rfl
  received : s.hist.received ⊆ s'.hist.received := by exact List.Subset.refl _
  negotiated : s'.negotiated = s.negotiated := by rfl
  strict : s'.strict = s.strict := by rfl
  iS : s'.iS = s.iS := by rfl
  serverIdent : s'.serverIdent = s.serverIdent := by rfl
  sessionId : s'.sessionId = s.sessionId := by rfl
  identity : s'.identity = s.identity := by rfl
  ephemeral : s'.ephemeral = s.ephemeral ∨ s'.ephemeral = none := by first
    | exact .inl rfl
    | exact .inr rfl

theorem Identified.kept {ident : OwnedIdentification} {raw : Bytes} (h : Identified u s ident raw)
    (hk : Kept s s') : Identified u s' ident raw :=
  { h with stored := hk.serverIdent ▸ h.stored, consumed := hk.identLine ▸ h.consumed }

theorem Negotiation.kept {n : Negotiated} {client server : KexInit} {p : Bytes}
    (h : Negotiation u s n client server p) (hk : Kept s s') : Negotiation u s' n client server p :=
  { h with
    stored := hk.negotiated ▸ h.stored, strict := hk.strict ▸ h.strict, iS := hk.iS ▸ h.iS
    received := hk.received h.received }

theorem Transcript.kept {v : Verified} (h : Transcript C u s v) (hk : Kept s s') :
    Transcript C u s' v := by
  obtain ⟨payload, hp, hdec⟩ := h.reply
  exact { h with
    reply := ⟨payload, hk.received hp, hdec⟩, scheme := hk.negotiated ▸ h.scheme
    vS := hk.serverIdent ▸ h.vS, iS := hk.iS ▸ h.iS }

/-- **A state with the same transcript keeps the invariant**, if its phase asks for no more than the
old one and the keys are there when they are asked for. -/
theorem Verification.kept (h : Verification C u s) (hk : Kept s s')
    (hphase : s'.phase = s.phase ∨ s'.phase = .finished ∨
      (s'.phase = .serverNewKeys ∨ s'.phase = .service) ∧ s.hist.verified ≠ none)
    (hkeys : s'.phase = .trustDecision ∨ s'.phase = .serverNewKeys →
      ∀ v, s.hist.verified = some v → s'.keys = some (keysOf C v.secret v.hash)) :
    Verification C u s' where
  limits hident := by
    rw [hk.limits hident]
    rcases hphase with hp | hp | ⟨hp | hp, -⟩
    · exact h.limits (hp ▸ hident)
    all_goals simp [hp] at hident
  fresh hearly := by
    rw [hk.verified]
    rcases hphase with hp | hp | ⟨hp | hp, -⟩
    · exact h.fresh (hp ▸ hearly)
    all_goals simp [hp] at hearly
  known hlate := by
    rw [hk.verified]
    rcases hphase with hp | hp | ⟨-, hv⟩
    · exact h.known (hp ▸ hlate)
    · simp [hp] at hlate
    · exact hv
  keys hp v hv := hkeys hp v (hk.verified ▸ hv)
  early hearly := by
    rw [hk.negotiated, hk.strict]
    rcases hphase with hp | hp | ⟨hp | hp, -⟩
    · exact h.early (hp ▸ hearly)
    all_goals simp [hp] at hearly
  ephemeral e he := by
    rcases hk.ephemeral with heq | hnone
    · exact h.ephemeral e (heq ▸ he)
    · rw [hnone] at he
      cases he
  identified hp := by
    have hold : s.phase = .serverKexInit ∨ s.phase = .ecdhReply ∨ s.hist.verified ≠ none := by
      rw [hk.verified] at hp
      rcases hphase with heq | heq | ⟨heq, hv⟩
      · exact heq ▸ hp
      · exact .inr (.inr (by simpa [heq] using hp))
      · exact .inr (.inr hv)
    obtain ⟨ident, raw, hi⟩ := h.identified hold
    exact ⟨ident, raw, hi.kept hk⟩
  negotiated hp := by
    have hold : s.phase = .ecdhReply ∨ s.hist.verified ≠ none := by
      rw [hk.verified] at hp
      rcases hphase with heq | heq | ⟨heq, hv⟩
      · exact heq ▸ hp
      · exact .inr (by simpa [heq] using hp)
      · exact .inr hv
    obtain ⟨n, client, server, p, hn⟩ := h.negotiated hold
    exact ⟨n, client, server, p, hn.kept hk⟩
  transcript v hv := (h.transcript v (hk.verified ▸ hv)).kept hk
  sessionId v hv := hk.sessionId.trans (h.sessionId v (hk.verified ▸ hv))
  presented v hv := hk.identity ▸ h.presented v (hk.verified ▸ hv)

/-- A state that ended keeps the invariant if it keeps the transcript. -/
theorem Verification.ended (h : Verification C u s) (hk : Kept s s')
    (hphase : s'.phase = .finished) :
    Verification C u s' :=
  h.kept hk (.inr (.inl hphase)) (by simp [hphase])

/-- A state in the same phase keeps the invariant if it keeps the transcript and the keys. -/
theorem Verification.same (h : Verification C u s) (hk : Kept s s') (hphase : s'.phase = s.phase)
    (hkeys : s'.keys = s.keys) : Verification C u s' :=
  h.kept hk (.inl hphase) fun hp v hv => hkeys.trans (h.keys (hphase ▸ hp) v hv)

/-! ### Moves -/

/-- A failed check keeps the invariant: while the negotiation can still change, nothing rests on
it. -/
theorem Verification.failed (h : Verification C u s) (hf : Failed s s') : Verification C u s' := by
  rcases hf.negotiated with hphase | ⟨hstrict, hneg, hiS⟩
  · have hnone : s'.hist.verified = none := by
      rw [hf.hist]
      exact h.fresh (.inr (.inl hphase))
    exact {
      limits := by simp [hf.phase]
      fresh := fun _ => hnone
      known := by simp [hf.phase]
      keys := by simp [hf.phase]
      early := by simp [hf.phase]
      ephemeral := fun e he => (hf.ephemeral.elim (fun heq => h.ephemeral e (heq ▸ he))
        fun hnone => by simp [hnone] at he)
      identified := by simp [hf.phase, hnone]
      negotiated := by simp [hf.phase, hnone]
      transcript := by simp [hnone]
      sessionId := by simp [hnone]
      presented := by simp [hnone] }
  · exact h.ended {
      limits := by simp [hf.phase], verified := by rw [hf.hist], identLine := by rw [hf.hist]
      received := by rw [hf.hist]; exact List.Subset.refl _
      negotiated := hneg, strict := hstrict, iS := hiS, serverIdent := hf.serverIdent
      sessionId := hf.sessionId, identity := hf.identity
      ephemeral := hf.ephemeral } hf.phase

theorem Verification.handled (h : Verification C u s) (hin : payload ∈ s.hist.received)
    (hshort : payload.length < 2 ^ 32) (hh : Handled C u payload s s') : Verification C u s' := by
  cases hh with
  | failed hf => exact h.failed hf
  | skipped | guess => exact h.same {} rfl rfl
  | kexinit client server n _ _ hphase _ hserver hclient hneg =>
    have hnone := h.fresh (.inr (.inl hphase))
    obtain ⟨ident, raw, hident⟩ := h.identified (.inl hphase)
    exact { h with
      limits := by simp
      fresh := fun _ => hnone
      known := by simp
      keys := by simp
      early := by simp
      identified := fun _ => ⟨ident, raw, { hident with }⟩
      negotiated := fun _ => ⟨n, client, server, payload,
        ⟨rfl, rfl, rfl, hshort, hin, hclient, hserver, hneg⟩⟩
      transcript := fun v hv => absurd (hnone.symm.trans hv) (by simp)
      sessionId := fun v hv => absurd (hnone.symm.trans hv) (by simp)
      presented := fun v hv => absurd (hnone.symm.trans hv) (by simp) }
  | reply v summary identity hphase _ _ haccepts hpresents =>
    obtain ⟨ident, raw, hident⟩ := h.identified (.inr (.inl hphase))
    obtain ⟨n, client, server, p, hneg⟩ := h.negotiated (.inl hphase)
    obtain ⟨e, he, hagreed⟩ := haccepts.agreed
    obtain ⟨secret, rfl, hqC⟩ := h.ephemeral e he
    have htranscript : Transcript C u (s.verify C v summary identity) v :=
      { haccepts with
        reply := ⟨payload, hin, haccepts.decoded⟩
        agreed := ⟨secret, hqC, hagreed⟩ }
    exact {
      limits := by simp [State.verify]
      fresh := by simp [State.verify]
      known := by simp [State.verify]
      keys := by
        rintro - w hw
        cases hw
        rfl
      early := by simp [State.verify]
      ephemeral := by simp [State.verify]
      identified := fun _ => ⟨ident, raw, { hident with }⟩
      negotiated := fun _ => ⟨n, client, server, p, { hneg with }⟩
      transcript := by
        rintro w hw
        cases hw
        exact htranscript
      sessionId := by
        rintro w hw
        cases hw
        rfl
      presented := by
        rintro w hw
        cases hw
        exact ⟨identity, rfl, hpresents⟩ }
  | newkeys _ _ _ _ _ hphase =>
    refine h.kept {} (.inr (.inr ⟨.inr rfl, h.known (.inr (.inl hphase))⟩)) ?_
    simp [State.queueSealed, State.protect]
  | newkeysFailed => exact h.ended {} rfl

theorem Verification.handledProtected (h : Verification C u s)
    (hh : HandledProtected C u payload s s') : Verification C u s' := by
  cases hh with
  | failed hf => exact h.failed hf
  | sealFailed => exact h.ended {} rfl
  | _ => exact h.same {} rfl rfl

/-- **Every move keeps the invariant.** -/
theorem Verification.move (h : Verification C u s) (hm : Move C u s s') : Verification C u s' := by
  cases hm with
  | takeOutput => exact h.same {} rfl rfl
  | failed _ hf => exact h.failed hf
  | distrust | adopt | badPadding | overBudget | wrappedProtected => exact h.ended {} rfl
  | trust _ keys _ _ hphase =>
    exact h.kept {} (.inr (.inr ⟨.inl rfl, h.known (.inl hphase)⟩)) fun _ => h.keys (.inl hphase)
  | prelude _ _ _ _ hlimits => exact h.same { limits := fun _ => hlimits } rfl rfl
  | identified ident raw _ hphase hshort hline hraw =>
    have hnone := h.fresh (.inl hphase)
    exact { h with
      limits := by simp
      fresh := fun _ => hnone
      known := by simp
      keys := by simp
      early := fun _ => h.early (.inl hphase)
      identified := fun _ => ⟨ident.toOwned, raw, rfl, rfl, hline, hraw, h.limits hphase ▸ hshort⟩
      negotiated := by simp [hnone]
      transcript := fun v hv => absurd (hnone.symm.trans hv) (by simp)
      sessionId := fun v hv => absurd (hnone.symm.trans hv) (by simp)
      presented := fun v hv => absurd (hnone.symm.trans hv) (by simp) }
  | unprotected payload bytes _ _ _ hcap _ hh =>
    have htaken : Verification C u (s.take payload bytes).count :=
      h.same { received := List.subset_append_left _ _ } rfl rfl
    exact htaken.handled (List.mem_append_right _ (List.mem_singleton_self _))
      (Nat.lt_trans hcap u.config.packet.maxPacketLength.toNat_lt) hh
  | wrapped =>
    exact h.ended { received := List.subset_append_left _ _ } rfl
  | protectedPacket a havail payload _ _ _ _ _ _ hh =>
    have hopened :
        Verification C u ((s.takeOpened a (a.advance havail) payload).accept payload).count :=
      h.same {} rfl rfl
    exact hopened.handledProtected hh

theorem Built.verification {config : HandshakeConfig} {provider : Option SignatureProvider}
    {h : ClientHandshake} (hb : Built C config provider h) : Verification C h.setup h.state := by
  obtain ⟨_, secret, _, _, _, -, -, hqC, -, hstate⟩ := hb.start
  have hephemeral : h.state.ephemeral = some (.fromSecretBytes C secret) := by rw [hstate]; rfl
  have hphase : h.state.phase = .serverIdentification := by rw [hstate]; rfl
  have hnone : h.state.hist.verified = none := by rw [hstate]; rfl
  exact {
    limits := fun _ => by rw [hstate, hb.config_eq]; rfl
    fresh := fun _ => hnone
    known := by simp [hphase]
    keys := by simp [hphase]
    early := fun _ => by rw [hstate]; exact ⟨rfl, rfl⟩
    ephemeral := by
      intro e he
      rw [hephemeral] at he
      cases he
      exact ⟨secret, rfl, hqC⟩
    identified := by simp [hphase, hnone]
    negotiated := by simp [hphase, hnone]
    transcript := by simp [hnone]
    sessionId := by simp [hnone]
    presented := by simp [hnone] }

end Tatami.Tcp
