import Tatami.Tcp.Handshake.Output
import Tatami.Tcp.Handshake.Reference

/-! # The authentication gate

Nothing but the identification, the `KEXINIT` and the `KEX_ECDH_INIT` leaves before the host key was
trusted; the trust question is asked only about a key that signed this very exchange; and the
handshake completes only behind that gate. -/

namespace Tatami.Tcp

open Tatami.Wire Tatami.Keys

variable {C : Crypto} {u : Setup} {payload : Bytes} {s s' : State}

/-! ### Completion -/

/-- What completing took. -/
structure Completion (u : Setup) (s : State) : Prop where
  newkeys : s.newkeysReceived = true → ∃ p ∈ s.hist.received, p.head? = some Msg.newKeys
  accepted : s.pendingOutcome = some .completed ∨ s.outcome = some .completed →
    s.newkeysReceived = true ∧
      ∃ p ∈ s.hist.opened, ServiceAccept.decode p = .ok { serviceName := u.config.service }

/-- A state that received no less and did not complete keeps the invariant. -/
theorem Completion.kept (h : Completion u s) (hreceived : s.hist.received ⊆ s'.hist.received)
    (hopened : s.hist.opened ⊆ s'.hist.opened) (hnewkeys : s'.newkeysReceived = s.newkeysReceived)
    (hdone : s'.pendingOutcome = some .completed ∨ s'.outcome = some .completed →
      s.pendingOutcome = some .completed ∨ s.outcome = some .completed) : Completion u s' where
  newkeys := by
    intro hn
    obtain ⟨p, hp, hnumber⟩ := h.newkeys (hnewkeys ▸ hn)
    exact ⟨p, hreceived hp, hnumber⟩
  accepted := by
    intro hcompleted
    obtain ⟨hn, p, hp, hservice⟩ := h.accepted (hdone hcompleted)
    exact ⟨hnewkeys.trans hn, p, hopened hp, hservice⟩

theorem Completion.failed (h : Completion u s) (hf : Failed s s') : Completion u s' := by
  obtain ⟨o, ho, hfail⟩ := hf.outcome
  have hsame : s'.hist = s.hist := hf.hist
  refine h.kept (by rw [hsame]; exact List.Subset.refl _) (by rw [hsame]; exact List.Subset.refl _)
    hf.newkeysReceived ?_
  rw [hf.pendingOutcome, ho]
  rintro (hnone | hcompleted)
  · cases hnone
  · cases hcompleted
    cases hfail

theorem Completion.handled (h : Completion u s) (hidle : s.Idle)
    (hin : payload ∈ s.hist.received) (hh : Handled C u payload s s') : Completion u s' := by
  -- while the machine waits for input nothing has completed
  have hnot : ¬(s.pendingOutcome = some .completed ∨ s.outcome = some .completed) := by
    rw [hidle.outcome, hidle.pendingOutcome]
    simp
  cases hh with
  | failed hf => exact h.failed hf
  | newkeys _ _ _ _ _ _ hnumber =>
    exact ⟨fun _ => ⟨payload, hin, hnumber⟩, fun hdone => absurd hdone hnot⟩
  | newkeysFailed _ _ _ _ _ hnumber =>
    exact ⟨fun _ => ⟨payload, hin, hnumber⟩, by simp [State.finish]⟩
  | _ => exact h.kept (List.Subset.refl _) (List.Subset.refl _) rfl id

theorem Completion.handledProtected (h : Completion u s) (hs : Basic s) (hidle : s.Idle)
    (hphase : s.phase = .service) (hin : payload ∈ s.hist.opened)
    (hh : HandledProtected C u payload s s') : Completion u s' := by
  have hreceived : s.newkeysReceived = true :=
    (hs.received_iff (hs.phase_ne hidle.outcome)).mpr hphase
  cases hh with
  | failed hf => exact h.failed hf
  | accept _ _ _ _ _ _ hservice =>
    exact ⟨h.newkeys, fun _ => ⟨hreceived, payload, hin, hservice⟩⟩
  | rekey =>
    refine h.kept (List.Subset.refl _) (List.Subset.refl _) rfl ?_
    rintro (hpending | houtcome)
    · cases hpending
    · exact .inr houtcome
  | sealFailed =>
    refine h.kept (List.Subset.refl _) (List.Subset.refl _) rfl ?_
    simp [State.finish]
  | _ => exact h.kept (List.Subset.refl _) (List.Subset.refl _) rfl id

theorem Completion.move (h : Completion u s) (hs : Basic s) (hm : Move C u s s') :
    Completion u s' := by
  cases hm with
  | takeOutput | trust | prelude | identified =>
    exact h.kept (List.Subset.refl _) (List.Subset.refl _) rfl id
  | failed _ hf => exact h.failed hf
  | distrust | badPadding =>
    exact h.kept (List.Subset.refl _) (List.Subset.refl _) rfl (by simp [State.finish])
  | adopt _ _ _ hpending =>
    refine h.kept (List.Subset.refl _) (List.Subset.refl _) rfl ?_
    rintro (hp | ho)
    · cases hp
    · cases ho
      exact .inl hpending
  | unprotected payload bytes hidle _ _ _ _ hh =>
    have htaken : Completion u (s.take payload bytes).count :=
      h.kept (List.subset_append_left _ _) (List.Subset.refl _) rfl id
    exact htaken.handled { hidle with }
      (List.mem_append_right _ (List.mem_singleton_self _)) hh
  | wrapped =>
    exact h.kept (List.subset_append_left _ _) (List.Subset.refl _) rfl
      (by simp [State.finish, State.wrapped])
  | overBudget =>
    exact h.kept (List.Subset.refl _) (List.subset_append_left _ _) rfl (by simp [State.finish])
  | protectedPacket a havail payload hidle hphase _ _ _ _ hh =>
    have hopened :
        Completion u ((s.takeOpened a (a.advance havail) payload).accept payload).count :=
      h.kept (List.Subset.refl _) (List.subset_append_left _ _) rfl id
    exact hopened.handledProtected (hs.opened a (a.advance havail) payload)
      { hidle with } hphase
      (List.mem_append_right _ (List.mem_singleton_self _)) hh
  | wrappedProtected =>
    exact h.kept (List.Subset.refl _) (List.subset_append_left _ _) rfl
      (by simp [State.finish, State.wrapped])

/-! ### Invariants along a run -/

/-- All invariants of this development that later results share. -/
structure Invariants (C : Crypto) (u : Setup) (s : State) : Prop where
  verification : Verification C u s
  output : Output C u s
  completion : Completion u s

/-- The shared invariants hold along every run from `build`. -/
theorem run_invariants {config : HandshakeConfig} {provider : Option SignatureProvider}
    {h h' : ClientHandshake} {events : List Event} (hb : Built C config provider h)
    (hrun : Run (Calls C) h events h') : Invariants C h.setup h'.state := by
  refine run_invariant hrun hb.basic ⟨hb.verification, hb.output, ?_⟩ ?_
  · obtain ⟨_, _, _, _, _, -, -, -, -, hstate⟩ := hb.start
    rw [hstate]
    constructor <;> simp [initialState, State.queueLine, State.queueFramed]
  · intro t t' ht hi hm
    exact ⟨hi.verification.move hm, hi.output.move ht hi.verification hm,
      hi.completion.move ht hm⟩

/-- The basic invariant holds along every run from `build`. -/
theorem run_basic {config : HandshakeConfig} {provider : Option SignatureProvider}
    {h h' : ClientHandshake} {events : List Event} (hb : Built C config provider h)
    (hrun : Run (Calls C) h events h') : Basic h'.state :=
  hb.basic.moves (run_effect hb.basic hrun).2.1

/-! ### What the trust question is about -/

/-- The accepted signature was made over what this machine sent and received. -/
structure Authenticated (C : Crypto) (provider : Option SignatureProvider) (s : State)
    (v : Verified) : Prop where
  /-- `V_C` was sent as our identification line. -/
  vC : s.hist.queued[0]? = some (.line (v.inputs.vC ++ [0x0d, 0x0a]))
  /-- `I_C` was sent as our `KEXINIT`. -/
  iC : ∃ wire, FrameOf v.inputs.iC wire ∧ s.hist.queued[1]? = some (.framed v.inputs.iC wire)
  /-- `Q_C` was sent in our `KEX_ECDH_INIT`. -/
  qC : ∃ wire payload, payload = KexEcdhInit.payload { clientEphemeral := v.inputs.qC } ∧
    FrameOf payload wire ∧ s.hist.queued[2]? = some (.framed payload wire)
  /-- `V_S` was received as the server identification line. -/
  vS : ∃ raw, s.hist.identLine = some raw ∧ v.inputs.vS <+: raw ∧
    raw.length ≤ v.inputs.vS.length + 2
  /-- `I_S` was received as the server `KEXINIT`, and the signature scheme negotiated with it. -/
  iS : v.inputs.iS ∈ s.hist.received ∧ ∃ client server n, KexInit.decode v.inputs.iC = .ok client ∧
    KexInit.decode v.inputs.iS = .ok server ∧ negotiateProfile client server = .ok n ∧
    n.hostKeyScheme = some v.scheme
  /-- `K_S` and `Q_S` were received in the reply. -/
  reply : ∃ payload ∈ s.hist.received, KexEcdhReply.decode payload = .ok v.reply ∧
    v.inputs.kS = v.reply.hostKeyBlob ∧ v.inputs.qS = v.reply.serverEphemeral
  /-- `K` is the secret agreed between our scalar and `Q_S`. -/
  secret : ∃ scalar, v.inputs.qC = (C.x25519Public scalar).toBytes ∧
    (EphemeralKeyPair.fromSecretBytes C scalar).agree C v.inputs.qS = .ok v.secret
  /-- The host key is that of `K_S`, of the type the scheme asks for. -/
  key : ∃ blob, PublicKeyBlob.decode v.inputs.kS = .ok blob ∧
    HostKey.fromBlob C blob = .ok v.key ∧ v.key.keyType = v.scheme.keyType
  hash : exchangeHash C v.inputs v.secret = .ok v.hash
  /-- The signature of the reply verified over the exchange hash. -/
  verified : SignatureBlob.decode v.reply.signatureBlob = .ok v.signature ∧
    v.key.verify C v.scheme v.hash.bytes.toBytes v.signature provider = .ok ()

/-- The message of the plan at an index that has been reached. -/
theorem Output.planned (h : Output C u s) {i : Nat} (hi : i < s.hist.queued.length) :
    ∃ m, s.hist.queued[i]? = some m ∧ Planned C u s.hist.verified i m :=
  ⟨_, List.getElem?_eq_getElem hi, h.follows i _ (List.getElem?_eq_getElem hi)⟩

/-- `V_C` is our identification line without its terminator. -/
theorem clientIdentificationLine_eq {vC : Bytes}
    (hline : ∃ content, u.clientLine = content ++ [0x0d, 0x0a] ∧
      u.clientLine.length ≤ maxIdentificationLine)
    (h : clientIdentificationLine u = .ok vC) : u.clientLine = vC ++ [0x0d, 0x0a] := by
  obtain ⟨content, hcontent, -⟩ := hline
  rw [clientIdentificationLine] at h
  obtain ⟨_, hlen, h⟩ := Checked.bind_ok_iff.mp h
  obtain ⟨-, rfl⟩ := Checked.sub_ok_iff.mp hlen
  obtain ⟨-, -, rfl⟩ := Checked.slice_ok_iff.mp h
  rw [hcontent, List.length_append]
  simp

/-- **What was verified is what was sent and received**, once a signature was accepted. -/
theorem Invariants.authenticated {v : Verified} (h : Invariants C u s)
    (hline : ∃ content, u.clientLine = content ++ [0x0d, 0x0a] ∧
      u.clientLine.length ≤ maxIdentificationLine)
    (hqueued : 3 ≤ s.hist.queued.length) (hv : s.hist.verified = some v) :
    Authenticated C u.provider s v := by
  have hne : s.hist.verified ≠ none := by rw [hv]; exact Option.some_ne_none v
  have ht := h.verification.transcript v hv
  obtain ⟨ident, raw, hident⟩ := h.verification.identified (.inr (.inr hne))
  obtain ⟨n, client, server, payload, hneg⟩ := h.verification.negotiated (.inr hne)
  have hiS : payload = v.inputs.iS := Option.some.inj (hneg.iS.symm.trans ht.iS)
  obtain ⟨i, hi, hvS⟩ := ht.vS
  obtain rfl : i = ident := Option.some.inj (hi.symm.trans hident.stored)
  obtain ⟨n', hn', hscheme⟩ := ht.scheme
  obtain rfl : n' = n := Option.some.inj (hn'.symm.trans hneg.stored)
  obtain ⟨p, hp, hreply⟩ := ht.reply
  obtain ⟨blob, hblob, hkey⟩ := ht.key
  obtain ⟨scalar, hqC, hagreed⟩ := ht.agreed
  exact {
    vC := by
      obtain ⟨m, hm, hplan⟩ := h.output.planned (i := 0) (by omega)
      cases hplan
      rw [hm, clientIdentificationLine_eq hline ht.vC]
    iC := by
      obtain ⟨m, hm, hplan⟩ := h.output.planned (i := 1) (by omega)
      cases hplan with
      | kexinit wire hwire => exact ⟨wire, ht.iC ▸ hwire, ht.iC ▸ hm⟩
    qC := by
      obtain ⟨m, hm, hplan⟩ := h.output.planned (i := 2) (by omega)
      cases hplan with
      | ecdhInit wire hwire => exact ⟨wire, u.ecdhInit, by rw [ht.qC]; rfl, hwire, hm⟩
    vS := ⟨raw, hident.consumed, hvS ▸ hident.line, hvS ▸ hident.terminator⟩
    iS := ⟨hiS ▸ hneg.received, client, server, n', ht.iC ▸ hneg.client_eq,
      hiS ▸ hneg.server_eq, hneg.result, hscheme⟩
    reply := ⟨p, hp, hreply, ht.kS, ht.qS⟩
    secret := ⟨scalar, by rw [ht.qC, hqC], by rw [ht.qS]; exact hagreed⟩
    key := ⟨blob, by rw [ht.kS]; exact hblob, hkey, ht.keyType⟩
    hash := ht.hash
    verified := ⟨ht.signature, ht.verified⟩ }

/-! ### The gate -/

section Gate

variable {ρ ε : Type} {tryFillBytes : (n : Nat) → ρ → Except ε (ByteVec n × ρ)}
  {config : HandshakeConfig} {rng : ρ} {provider : Option SignatureProvider}
  {h h' : ClientHandshake} {events : List Event}

/-- A machine starts with nothing taken and no trust answer. -/
theorem Built.untouched (hb : Built C config provider h) :
    h.state.hist.taken = [] ∧ h.state.trust = none := by
  obtain ⟨_, _, _, _, _, -, -, -, -, hstate⟩ := hb.start
  rw [hstate]
  exact ⟨rfl, rfl⟩

end Gate

/-! ### Binding -/

section Binding

variable {ρ₁ ε₁ ρ₂ ε₂ : Type} {tryFillBytes₁ : (n : Nat) → ρ₁ → Except ε₁ (ByteVec n × ρ₁)}
  {tryFillBytes₂ : (n : Nat) → ρ₂ → Except ε₂ (ByteVec n × ρ₂)}
  {config₁ config₂ : HandshakeConfig} {rng₁ : ρ₁} {rng₂ : ρ₂}
  {provider₁ provider₂ : Option SignatureProvider}
  {h₁ h₁' h₂ h₂' : ClientHandshake} {events₁ events₂ : List Event}

/-- Two machines agree on everything the exchange hash covers, and on what follows from it. -/
structure SameExchange (h₁ h₂ : ClientHandshake) (v₁ v₂ : Verified) : Prop where
  clientLine : h₁.setup.clientLine = h₂.setup.clientLine
  serverLine : h₁.state.serverIdent.map (·.line) = h₂.state.serverIdent.map (·.line)
  clientKexInit : h₁.setup.iC = h₂.setup.iC
  serverKexInit : h₁.state.iS = h₂.state.iS
  hostKeyBlob : v₁.reply.hostKeyBlob = v₂.reply.hostKeyBlob
  clientEphemeral : h₁.setup.qC = h₂.setup.qC
  serverEphemeral : v₁.reply.serverEphemeral = v₂.reply.serverEphemeral
  secret : v₁.secret = v₂.secret
  negotiated : h₁.state.negotiated = h₂.state.negotiated
  keys : h₁.state.keys = h₂.state.keys

/-- What a machine that asks for trust knows about the signature it accepted. -/
theorem transcript_of_trustDecision {config : HandshakeConfig}
    {provider : Option SignatureProvider} {h h' : ClientHandshake} {events : List Event}
    (hb : Built C config provider h) (hrun : Run (Calls C) h events h')
    (hphase : h'.phase = .trustDecision) :
    ∃ v n client server, h'.state.hist.verified = some v ∧ Transcript C h.setup h'.state v ∧
      h'.state.sessionId = some (.fromInitialExchange v.hash) ∧
      h'.state.keys = some (keysOf C v.secret v.hash) ∧
      Negotiation h.setup h'.state n client server v.inputs.iS := by
  have hinv := (run_invariants hb hrun).verification
  have hphase : h'.state.phase = .trustDecision := hphase
  obtain ⟨v, hv⟩ := Option.ne_none_iff_exists'.mp (hinv.known (.inl hphase))
  obtain ⟨n, client, server, payload, hneg⟩ := hinv.negotiated (.inr (by rw [hv]; simp))
  have ht := hinv.transcript v hv
  obtain rfl : payload = v.inputs.iS := Option.some.inj (hneg.iS.symm.trans ht.iS)
  exact ⟨v, n, client, server, hv, ht, hinv.sessionId v hv, hinv.keys (.inl hphase) v hv, hneg⟩

/-- **Transcript binding.** The exchange hash is over an injective encoding of its inputs; so two
runs that ask for trust with the same session identifier, without a collision on what they hashed,
agree on the whole exchange, on what was negotiated and on the keys. -/
theorem transcript_binding
    (hb₁ : build C tryFillBytes₁ config₁ rng₁ provider₁ = .ok (.ok h₁))
    (hrun₁ : Run (Calls C) h₁ events₁ h₁') (hask₁ : h₁'.phase = .trustDecision)
    (hb₂ : build C tryFillBytes₂ config₂ rng₂ provider₂ = .ok (.ok h₂))
    (hrun₂ : Run (Calls C) h₂ events₂ h₂') (hask₂ : h₂'.phase = .trustDecision)
    (hsession : h₁'.state.sessionId = h₂'.state.sessionId)
    (hcollision : ∀ v₁ v₂, h₁'.state.hist.verified = some v₁ → h₂'.state.hist.verified = some v₂ →
      C.sha256 (hashInput v₁.inputs v₁.secret) = C.sha256 (hashInput v₂.inputs v₂.secret) →
      hashInput v₁.inputs v₁.secret = hashInput v₂.inputs v₂.secret) :
    (∀ i k, i.Short → exchangeHash C i k = .ok ⟨C.sha256 (hashInput i k)⟩) ∧
    (∀ i i' k k', i.Short → i'.Short → hashInput i k = hashInput i' k' → i = i' ∧ k = k') ∧
    ∃ v₁ v₂, h₁'.state.hist.verified = some v₁ ∧ h₂'.state.hist.verified = some v₂ ∧
      SameExchange h₁' h₂' v₁ v₂ := by
  refine ⟨fun i k hi => exchangeHash_ok_iff.mpr ⟨hi, rfl⟩,
    fun i i' k k' hi hi' heq => hashInput_inj hi hi' heq, ?_⟩
  have hbuilt₁ := build_ok hb₁
  have hbuilt₂ := build_ok hb₂
  obtain ⟨v₁, _, c₁, s₁, hv₁, ht₁, hid₁, hkeys₁, hneg₁⟩ :=
    transcript_of_trustDecision hbuilt₁ hrun₁ hask₁
  obtain ⟨v₂, _, c₂, s₂, hv₂, ht₂, hid₂, hkeys₂, hneg₂⟩ :=
    transcript_of_trustDecision hbuilt₂ hrun₂ hask₂
  obtain ⟨hshort₁, hhash₁⟩ := exchangeHash_ok_iff.mp ht₁.hash
  obtain ⟨hshort₂, hhash₂⟩ := exchangeHash_ok_iff.mp ht₂.hash
  -- equal session identifiers are equal hashes, and those are hashes of equal inputs
  have hhash : v₁.hash.bytes = v₂.hash.bytes := by
    rw [hid₁, hid₂] at hsession
    exact congrArg SessionId.bytes (Option.some.inj hsession)
  have hinput := hcollision v₁ v₂ hv₁ hv₂ (by rw [hhash₁, hhash₂] at hhash; exact hhash)
  obtain ⟨hinputs, hsecret⟩ := hashInput_inj hshort₁ hshort₂ hinput
  have hsetup₁ := (run_effect hbuilt₁.basic hrun₁).1
  have hsetup₂ := (run_effect hbuilt₂.basic hrun₂).1
  have hiC : h₁.setup.iC = h₂.setup.iC := by rw [← ht₁.iC, ← ht₂.iC, hinputs]
  have hiS : v₁.inputs.iS = v₂.inputs.iS := by rw [hinputs]
  refine ⟨v₁, v₂, hv₁, hv₂, ?_⟩
  exact {
    clientLine := by
      rw [hsetup₁, hsetup₂, clientIdentificationLine_eq hbuilt₁.clientLine ht₁.vC,
        clientIdentificationLine_eq hbuilt₂.clientLine ht₂.vC, hinputs]
    serverLine := by
      obtain ⟨_, hi₁, hvS₁⟩ := ht₁.vS
      obtain ⟨_, hi₂, hvS₂⟩ := ht₂.vS
      rw [hi₁, hi₂, Option.map_some, Option.map_some, ← hvS₁, ← hvS₂, hinputs]
    clientKexInit := by rw [hsetup₁, hsetup₂, hiC]
    serverKexInit := by rw [ht₁.iS, ht₂.iS, hiS]
    hostKeyBlob := by rw [← ht₁.kS, ← ht₂.kS, hinputs]
    clientEphemeral := by
      rw [hsetup₁, hsetup₂]
      exact ByteVec.ext (by rw [← ht₁.qC, ← ht₂.qC, hinputs])
    serverEphemeral := by rw [← ht₁.qS, ← ht₂.qS, hinputs]
    secret := hsecret
    negotiated := by
      -- both sides of the negotiation are decoded from what was hashed
      have hc : c₁ = c₂ := by
        have := hneg₁.client_eq
        rw [hiC, hneg₂.client_eq] at this
        exact (Except.ok.inj this).symm
      have hsv : s₁ = s₂ := by
        have := hneg₁.server_eq
        rw [hiS, hneg₂.server_eq] at this
        exact (Except.ok.inj this).symm
      have hn := hneg₁.result
      rw [hc, hsv, hneg₂.result] at hn
      rw [hneg₁.stored, hneg₂.stored, Except.ok.inj hn]
    keys := by
      rw [hkeys₁, hkeys₂, hsecret, hhash₁, hhash₂, hinput] }

/-- The reference handshake asks for trust, and what it verified is bound to its session
identifier. -/
theorem transcript_binding_reference :
    ∃ events h', Run (Calls reference) Reference.client events h' ∧ h'.phase = .trustDecision ∧
      ∃ v₁ v₂, h'.state.hist.verified = some v₁ ∧ h'.state.hist.verified = some v₂ ∧
        SameExchange h' h' v₁ v₂ := by
  obtain ⟨events, h', hrun, hask⟩ := Reference.exists_run_asked
  refine ⟨events, h', hrun, hask, (transcript_binding Reference.build_client hrun hask
    Reference.build_client hrun hask rfl ?_).2.2⟩
  intro v₁ v₂ hv₁ hv₂ _
  rw [Option.some.inj (hv₁.symm.trans hv₂)]

end Binding

end Tatami.Tcp
