import Tatami.Tcp.Handshake.Contract

/-! # Sequence numbers and nonces

The invariant behind the counters: each sequence number counts the packets of its direction, from
the start or, under strict KEX, from that direction's `NEWKEYS`; each nonce is the derived one moved
on by the number of packets before it. -/

namespace Tatami.Tcp

open Tatami.Wire Tatami.Keys AeadDirection List

variable {C : Crypto} {u : Setup} {payload : Bytes} {s s' : State} {k k' : Nat}

/-! ### The invariant -/

/-- How many unprotected packets a phase allows under strict KEX. -/
def Phase.strictPackets (guessDiscarded : Bool) : Phase → Nat
  | .ecdhReply => 1 + guessDiscarded.toNat
  | .trustDecision => 3
  | .serverNewKeys => 3
  | _ => 0

/-- What the counters count. While a packet is being handled, it may be one more than its phase
allows. -/
structure Sequence (C : Crypto) (handling : Nat) (s : State) : Prop where
  send : s.sendSeq =
    if s.strictActive = true ∧ s.newkeysSent = true then s.protectedSent
    else s.hist.queued.length - 1
  receive : s.recvSeq =
    if s.strictActive = true ∧ s.newkeysReceived = true then s.protectedReceived
    else (s.hist.received.length + s.hist.accepted.length) % 2 ^ 32
  protectedReceived_eq : s.protectedReceived = s.hist.accepted.length
  protectedReceived_lt : s.protectedReceived < 2 ^ 32
  unprotected : s.newkeysReceived = false → s.hist.accepted = [] ∧ s.hist.authenticated = []
  preKex : s.phase ≠ .finished → s.preKexPackets = s.hist.received.length
  strict : s.strictActive = true → s.phase.isKex = true ∨ s.phase = .trustDecision →
    s.hist.received.length ≤ s.phase.strictPackets s.guessDiscarded + handling
  receiving : s.newkeysReceived = true → ∃ v a, s.hist.verified = some v ∧ s.recvAead = some a ∧
    a.At (v.receiveKeys C) s.hist.authenticated.length ∧
    ∀ i nonce, s.hist.authenticated[i]? = some nonce →
      nonce = nonceAt (v.receiveKeys C) i

/-- `s'` has counted what `s` has counted. -/
structure Counted (s s' : State) : Prop where
  sendSeq : s'.sendSeq = s.sendSeq := by rfl
  recvSeq : s'.recvSeq = s.recvSeq := by rfl
  newkeysSent : s'.newkeysSent = s.newkeysSent := by rfl
  newkeysReceived : s'.newkeysReceived = s.newkeysReceived := by rfl
  protectedSent : s'.protectedSent = s.protectedSent := by rfl
  protectedReceived : s'.protectedReceived = s.protectedReceived := by rfl
  queued : s'.hist.queued = s.hist.queued := by rfl
  received : s'.hist.received = s.hist.received := by rfl
  accepted : s'.hist.accepted = s.hist.accepted := by rfl
  authenticated : s'.hist.authenticated = s.hist.authenticated := by rfl
  verified : s'.hist.verified = s.hist.verified := by rfl
  recvAead : s'.recvAead = s.recvAead := by rfl
  strict : s'.strictActive = s.strictActive ∨
    s.newkeysSent = false ∧ s.newkeysReceived = false := by exact .inl rfl

/-- A state that counted the same keeps the invariant, if its phase allows the packets received. -/
theorem Sequence.counted (h : Sequence C k s) (hc : Counted s s')
    (hpreKex : s'.phase ≠ .finished → s'.preKexPackets = s.hist.received.length)
    (hstrict : s'.strictActive = true → s'.phase.isKex = true ∨ s'.phase = .trustDecision →
      s.hist.received.length ≤ s'.phase.strictPackets s'.guessDiscarded + k') :
    Sequence C k' s' where
  send := by
    rw [hc.sendSeq, hc.newkeysSent, hc.protectedSent, hc.queued, h.send]
    rcases hc.strict with heq | ⟨hsent, -⟩
    · rw [heq]
    · simp [hsent]
  receive := by
    rw [hc.recvSeq, hc.newkeysReceived, hc.protectedReceived, hc.received, hc.accepted, h.receive]
    rcases hc.strict with heq | ⟨-, hreceived⟩
    · rw [heq]
    · simp [hreceived]
  protectedReceived_eq := by rw [hc.protectedReceived, hc.accepted]; exact h.protectedReceived_eq
  protectedReceived_lt := by rw [hc.protectedReceived]; exact h.protectedReceived_lt
  unprotected := by rw [hc.newkeysReceived, hc.accepted, hc.authenticated]; exact h.unprotected
  preKex := by rw [hc.received]; exact hpreKex
  strict := by rw [hc.received]; exact hstrict
  receiving := by
    rw [hc.newkeysReceived, hc.verified, hc.recvAead, hc.authenticated]
    exact h.receiving

/-- A state that ended and counted the same keeps the invariant. -/
theorem Sequence.ended (h : Sequence C k s) (hc : Counted s s') (hphase : s'.phase = .finished) :
    Sequence C k' s' :=
  h.counted hc (fun hne => absurd hphase hne) (by simp [hphase, Phase.isKex])

/-- A state in the same phase that counted the same keeps the invariant. -/
theorem Sequence.same (h : Sequence C k s) (hc : Counted s s') (hphase : s'.phase = s.phase)
    (hpreKex : s'.preKexPackets = s.preKexPackets) (hguess : s'.guessDiscarded = s.guessDiscarded)
    (hstrict : s'.strictActive = s.strictActive) : Sequence C k s' :=
  h.counted hc (by rw [hphase, hpreKex]; exact h.preKex)
    (by rw [hphase, hguess, hstrict]; exact h.strict)

theorem Sequence.failed (h : Sequence C k s) (hs : Basic s) (hf : Failed s s') :
    Sequence C k' s' := by
  refine h.ended ?_ hf.phase
  refine { sendSeq := hf.sendSeq, recvSeq := hf.recvSeq, newkeysSent := hf.newkeysSent,
           newkeysReceived := hf.newkeysReceived, protectedSent := hf.protectedSent,
           protectedReceived := hf.protectedReceived, queued := by rw [hf.hist],
           received := by rw [hf.hist], accepted := by rw [hf.hist],
           authenticated := by rw [hf.hist], verified := by rw [hf.hist],
           recvAead := hf.recvAead, strict := ?_ }
  rcases hf.negotiated with hphase | ⟨hstrict, -, -⟩
  · have hne : s.phase ≠ .finished := by rw [hphase]; decide
    have hsent := hs.sent_iff hne
    have hreceived := hs.received_iff hne
    rw [hphase] at hsent hreceived
    exact .inr ⟨by simpa using hsent, by simpa using hreceived⟩
  · exact .inl (by rw [State.strictActive, State.strictActive, hstrict])

/-! ### Counting a received packet -/

/-- The counter that may wrap counts modulo `2 ^ 32`. -/
theorem wrapSucc_mod (n : Nat) : wrapSucc (n % 2 ^ 32) = (n + 1) % 2 ^ 32 := by
  rw [wrapSucc]
  split
  · omega
  · omega

/-- In a phase of the key exchange nothing protected is read. -/
theorem Basic.unreceived (hs : Basic s) (hphase : s.phase.isKex = true) :
    s.newkeysReceived = false := by
  have hne : s.phase ≠ .finished := by
    intro hfin
    rw [hfin] at hphase
    cases hphase
  rw [← Bool.not_eq_true, hs.received_iff hne]
  intro hservice
  rw [hservice] at hphase
  cases hphase

/-- In a phase of the key exchange, under strict KEX, the counter is far from its end. -/
theorem Sequence.not_wraps (h : Sequence C 0 s) (hs : Basic s) (hphase : s.phase.isKex = true) :
    ¬s.Wraps := by
  rintro ⟨hend, hactive, -⟩
  have hreceived := hs.unreceived hphase
  have hfew := h.strict hactive (.inl hphase)
  have hle : s.phase.strictPackets s.guessDiscarded ≤ 3 := by
    cases s.phase <;> cases s.guessDiscarded <;> decide
  have hseq := h.receive
  rw [if_neg (by simp [hreceived]), (h.unprotected hreceived).1] at hseq
  simp only [length_nil, Nat.add_zero] at hseq
  omega

/-- After both `NEWKEYS` no wrap of the counter is a violation. -/
theorem Basic.not_wraps_service (hs : Basic s) (hphase : s.phase = .service) : ¬s.Wraps := by
  rintro ⟨-, -, hdone⟩
  have hne : s.phase ≠ .finished := by
    rw [hphase]
    decide
  rw [State.initialKexDone, (hs.sent_iff hne).mpr (.inr hphase),
    (hs.received_iff hne).mpr hphase] at hdone
  cases hdone

/-- Taking and counting a packet keeps the invariant, up to the packet being handled. -/
theorem Sequence.taken (h : Sequence C 0 s) (hs : Basic s) (hphase : s.phase.isKex = true)
    (bytes : Nat) : Sequence C 1 (s.take payload bytes).count := by
  have hreceived := hs.unreceived hphase
  exact { h with
    receive := by
      change wrapSucc s.recvSeq = _
      have hseq := h.receive
      rw [if_neg (by simp [hreceived])] at hseq
      rw [hseq, wrapSucc_mod]
      have hlen : (s.take payload bytes).count.hist.received.length =
          s.hist.received.length + 1 := length_append
      rw [hlen, if_neg (by simp [State.count, State.take, hreceived]), Nat.add_right_comm]
      rfl
    preKex := by
      intro hne
      change s.preKexPackets + 1 = (s.hist.received ++ [payload]).length
      rw [h.preKex hne, length_append, length_singleton]
    strict := by
      intro hactive hkex
      change (s.hist.received ++ [payload]).length ≤ _
      rw [length_append, length_singleton]
      exact Nat.succ_le_succ (h.strict hactive hkex) }

/-- Switching to protected input keeps the invariant. -/
theorem Sequence.protect {keys : KeySet} (h : Sequence C k s) (hs : Basic s)
    (hv : Verification C u s) (hphase : s.phase = .serverNewKeys) (hkeys : s.keys = some keys) :
    Sequence C k' (s.protect keys) := by
  have hne : s.phase ≠ .finished := by rw [hphase]; decide
  have hunreceived : s.newkeysReceived = false := by
    rw [← Bool.not_eq_true, hs.received_iff hne, hphase]
    decide
  obtain ⟨hnone, hunused⟩ := h.unprotected hunreceived
  obtain ⟨v, hverified⟩ := Option.ne_none_iff_exists'.mp (hv.known (.inr (.inl hphase)))
  have hkeysOf : keys = keysOf C v.secret v.hash :=
    Option.some.inj (hkeys.symm.trans (hv.keys (.inr hphase) v hverified))
  exact { h with
    receive := by
      change (if s.strictActive then 0 else s.recvSeq) = if s.strictActive = true ∧ true = true
        then s.protectedReceived else (s.hist.received.length + s.hist.accepted.length) % 2 ^ 32
      have hseq := h.receive
      rw [if_neg (by simp [hunreceived])] at hseq
      by_cases hactive : s.strictActive = true
      · rw [if_pos hactive, if_pos ⟨hactive, rfl⟩, h.protectedReceived_eq, hnone]
        rfl
      · rw [if_neg hactive, if_neg (fun hboth => hactive hboth.1), hseq]
    unprotected := by simp [State.protect]
    preKex := fun _ => h.preKex hne
    strict := by simp [State.protect, Phase.isKex]
    receiving := by
      refine fun _ => ⟨v, _, hverified, rfl, ?_, ?_⟩
      · change (new keys.serverToClient).At _ s.hist.authenticated.length
        rw [hunused, hkeysOf]
        exact at_new _
      · change ∀ i nonce, s.hist.authenticated[i]? = some nonce → _
        simp [hunused] }

/-- Queueing a protected packet keeps the invariant. -/
theorem Sequence.queueSealed {a a' : AeadDirection} {wire : Bytes} {padding : PaddingSource}
    (h : Sequence C k s) (hlen : 1 ≤ s.hist.queued.length) :
    Sequence C k (s.queueSealed a a' payload wire padding) := by
  refine { h with send := ?_ }
  change s.sendSeq + 1 = if s.strictActive = true ∧ s.newkeysSent = true then s.protectedSent + 1
    else (s.hist.queued ++ [_]).length - 1
  have hsend := h.send
  by_cases hactive : s.strictActive = true ∧ s.newkeysSent = true
  · rw [if_pos hactive] at hsend ⊢
    rw [hsend]
  · rw [if_neg hactive] at hsend ⊢
    rw [hsend, length_append, length_singleton]
    omega

/-! ### Moves -/

theorem Sequence.handled (h : Sequence C 1 s) (hs : Basic s) (hv : Verification C u s)
    (hidle : s.Idle) (hh : Handled C u payload s s') : Sequence C 0 s' := by
  have hne := hs.phase_ne hidle.outcome
  have hlen := hs.queued hne
  have hsentIff := hs.sent_iff hne
  have hreceivedIff := hs.received_iff hne
  have hpre := h.preKex hne
  rw [if_pos hidle.pendingOutcome] at hlen
  cases hh with
  | failed hf => exact h.failed hs hf
  | skipped _ _ _ _ hphase =>
    -- a skipped packet means that strict KEX is not in effect, or not yet known
    have hinactive : s.strictActive = false := by
      rcases hphase with hphase | ⟨-, hinactive⟩
      · exact (hv.early (.inr hphase)).2
      · exact hinactive
    refine h.counted {} (fun _ => hpre) (fun hactive => ?_)
    exact absurd (hinactive.symm.trans hactive) (by decide)
  | kexinit _ _ _ _ _ hphase _ _ _ _ hfirst =>
    rw [hphase] at hlen hsentIff hreceivedIff
    have hunsent : s.newkeysSent = false := by simpa using hsentIff
    have hunreceived : s.newkeysReceived = false := by simpa using hreceivedIff
    have hsend := h.send
    have hreceive := h.receive
    rw [if_neg (by simp [hunsent])] at hsend
    rw [if_neg (by simp [hunreceived])] at hreceive
    exact { h with
      send := by
        rw [if_neg (by simp [State.queueFramed, State.negotiate, hunsent])]
        change s.sendSeq + 1 = (s.hist.queued ++ [_]).length - 1
        rw [hsend, length_append, hlen]
        rfl
      receive := by
        rw [if_neg (by simp [State.queueFramed, State.negotiate, hunreceived])]
        exact hreceive
      preKex := fun _ => hpre
      strict := by
        intro hactive _
        change s.hist.received.length ≤ 1 + s.guessDiscarded.toNat + 0
        rw [← hpre, hfirst hactive]
        omega }
  | guess _ _ hphase _ _ _ _ hfirst =>
    refine h.counted {} (fun _ => hpre) fun hactive hkex => ?_
    have hfew := h.strict hactive hkex
    rw [hphase, hfirst] at hfew
    change _ ≤ s.phase.strictPackets true
    rw [hphase]
    exact hfew
  | reply _ _ _ hphase =>
    rw [hphase] at hreceivedIff
    have hunreceived : s.newkeysReceived = false := by simpa using hreceivedIff
    exact { h with
      preKex := fun _ => hpre
      strict := by
        intro hactive _
        have hfew := h.strict hactive (.inl (by rw [hphase]; rfl))
        rw [hphase] at hfew
        have hone := s.guessDiscarded.toNat_le
        change s.hist.received.length ≤ 3
        simp only [Phase.strictPackets] at hfew
        omega
      receiving := fun hreceived => absurd (hunreceived.symm.trans hreceived) (by decide) }
  | newkeys keys _ _ _ _ hphase _ hkeys =>
    have hprotect : Sequence C 0 (s.protect keys) := h.protect hs hv hphase hkeys
    refine hprotect.queueSealed ?_
    change 1 ≤ s.hist.queued.length
    rw [hlen, hphase]
    decide
  | newkeysFailed keys _ _ _ hphase _ hkeys =>
    have hprotect : Sequence C 0 (s.protect keys) := h.protect hs hv hphase hkeys
    exact hprotect.ended {} rfl

theorem Sequence.handledProtected (h : Sequence C 0 s) (hs : Basic s) (hidle : s.Idle)
    (hphase : s.phase = .service) (hh : HandledProtected C u payload s s') : Sequence C 0 s' := by
  have hne := hs.phase_ne hidle.outcome
  have hlen := hs.queued hne
  rw [if_pos hidle.pendingOutcome, hphase] at hlen
  have hone : 1 ≤ s.hist.queued.length := by rw [hlen]; decide
  cases hh with
  | failed hf => exact h.failed hs hf
  | skipped | extInfo => exact h.same {} rfl rfl rfl rfl
  | accept a havail wire padding =>
    have hqueued : Sequence C 0 (s.queueSealed a (a.advance havail)
        (disconnectPayload completeDescription) wire padding) := h.queueSealed hone
    exact hqueued.same {} rfl rfl rfl rfl
  | rekey a havail wire padding =>
    have hqueued : Sequence C 0 (s.queueSealed a (a.advance havail)
        (disconnectPayload rekeyDescription) wire padding) := h.queueSealed hone
    exact hqueued.same {} rfl rfl rfl rfl
  | sealFailed => exact h.ended {} rfl

/-- A tag that verified moves the receiving direction on by one nonce. -/
theorem Sequence.receiving_advance {a : AeadDirection} (h : Sequence C k s)
    (havail : a.counterAvailable = true) (hreceived : s.newkeysReceived = true)
    (haead : s.recvAead = some a) :
    ∃ v, s.hist.verified = some v ∧
      (a.advance havail).At (v.receiveKeys C) (s.hist.authenticated ++ [a.nextNonce]).length ∧
      ∀ i nonce, (s.hist.authenticated ++ [a.nextNonce])[i]? = some nonce →
        nonce = nonceAt (v.receiveKeys C) i := by
  obtain ⟨v, a₁, hv, ha₁, hat, hused⟩ := h.receiving hreceived
  obtain rfl : a₁ = a := Option.some.inj (ha₁.symm.trans haead)
  refine ⟨v, hv, ?_, ?_⟩
  · rw [length_append, length_singleton]
    exact hat.advance havail
  · intro i nonce hi
    rcases getElem?_snoc_cases hi with hold | ⟨rfl, rfl⟩
    · exact hused i nonce hold
    · exact hat.nextNonce_eq

/-- A verified tag alone keeps the invariant. -/
theorem Sequence.authenticated {a : AeadDirection} (h : Sequence C k s)
    (havail : a.counterAvailable = true) (hreceived : s.newkeysReceived = true)
    (haead : s.recvAead = some a) :
    Sequence C k (s.authenticate a (a.advance havail)) := by
  obtain ⟨v, hv, hat, hused⟩ := h.receiving_advance havail hreceived haead
  exact { h with
    unprotected := fun hnot => absurd (hnot.symm.trans hreceived) (by decide)
    receiving := fun _ => ⟨v, _, hv, rfl, hat, hused⟩ }

/-- Opening and counting a protected packet keeps the invariant. -/
theorem Sequence.opened {a : AeadDirection} (h : Sequence C k s)
    (havail : a.counterAvailable = true) (hreceived : s.newkeysReceived = true)
    (haead : s.recvAead = some a) (hroom : s.protectedReceived + 1 < 2 ^ 32) :
    Sequence C k ((s.takeOpened a (a.advance havail) payload).accept payload).count := by
  obtain ⟨v, hv, hat, hused⟩ := h.receiving_advance havail hreceived haead
  have hseq := h.receive
  exact { h with
    receive := by
      change wrapSucc s.recvSeq = if s.strictActive = true ∧ s.newkeysReceived = true
        then s.protectedReceived + 1
        else (s.hist.received.length + (s.hist.accepted ++ [payload]).length) % 2 ^ 32
      by_cases hactive : s.strictActive = true ∧ s.newkeysReceived = true
      · rw [if_pos hactive] at hseq ⊢
        rw [hseq, wrapSucc, if_pos hroom]
      · rw [if_neg hactive] at hseq ⊢
        rw [hseq, wrapSucc_mod, length_append, length_singleton, Nat.add_assoc]
    protectedReceived_eq := by
      change s.protectedReceived + 1 = (s.hist.accepted ++ [payload]).length
      rw [h.protectedReceived_eq, length_append, length_singleton]
    protectedReceived_lt := hroom
    unprotected := fun hnot => absurd (hnot.symm.trans hreceived) (by decide)
    receiving := fun _ => ⟨v, _, hv, rfl, hat, hused⟩ }

/-- Trusting the host key restarts the sending counter under strict KEX. -/
theorem Sequence.trusted {source : TrustSource} {keys : KeySet} {wire : Bytes}
    {padding : PaddingSource} (h : Sequence C 0 s) (hs : Basic s) (ho : Output C u s)
    (hphase : s.phase = .trustDecision) :
    Sequence C 0
      { { s with trust := some (.trusted source) }.queueFramed NewKeys.payload wire padding with
        newkeysSent := true, sendAead := some (.new keys.clientToServer),
        sendSeq := if s.strictActive then 0 else s.sendSeq + 1, phase := .serverNewKeys } := by
  have hne : s.phase ≠ .finished := by rw [hphase]; decide
  have hunsent : s.newkeysSent = false := by
    rw [← Bool.not_eq_true, hs.sent_iff hne, hphase]
    decide
  have hfew : s.hist.queued.length < 4 := by
    have := mt ho.sent_iff.mpr (by rw [hunsent]; decide)
    omega
  have hone : 1 ≤ s.hist.queued.length := by
    have hlen := hs.queued hne
    rw [hphase] at hlen
    rw [hlen]
    exact Nat.le_add_right_of_le (by decide)
  have hsend := h.send
  rw [if_neg (by simp [hunsent])] at hsend
  exact { h with
    send := by
      change (if s.strictActive then 0 else s.sendSeq + 1) =
        if s.strictActive = true ∧ true = true then s.protectedSent
        else (s.hist.queued ++ [_]).length - 1
      by_cases hactive : s.strictActive = true
      · rw [if_pos hactive, if_pos ⟨hactive, rfl⟩, ho.protectedSent]
        omega
      · rw [if_neg hactive, if_neg (fun hboth => hactive hboth.1), hsend, length_append,
          length_singleton]
        omega
    preKex := fun _ => h.preKex hne
    strict := by
      intro hactive _
      have hstrict := h.strict hactive (.inr hphase)
      rw [hphase] at hstrict
      exact hstrict }

/-- **Every move keeps the invariant.** -/
theorem Sequence.move (h : Sequence C 0 s) (hs : Basic s) (ho : Output C u s)
    (hv : Verification C u s) (hm : Move C u s s') : Sequence C 0 s' := by
  have hservice (hphase : s.phase = .service) : s.newkeysReceived = true :=
    (hs.received_iff (by rw [hphase]; decide)).mpr hphase
  cases hm with
  | takeOutput | prelude => exact h.same {} rfl rfl rfl rfl
  | failed _ hf => exact h.failed hs hf
  | distrust => exact h.ended {} rfl
  | adopt => exact h.ended {} rfl
  | trust _ _ _ _ hphase => exact h.trusted hs ho hphase
  | identified _ _ _ hphase =>
    refine h.counted {} (fun _ => h.preKex (by rw [hphase]; decide)) fun hactive => ?_
    exact absurd ((hv.early (.inl hphase)).2.symm.trans hactive) (by decide)
  | unprotected payload bytes hidle hphase _ _ _ hh =>
    have hidle' : (s.take payload bytes).count.Idle :=
      { hidle with }
    have hv' : Verification C u (s.take payload bytes).count :=
      hv.same { received := subset_append_left _ _ } rfl rfl
    exact (h.taken hs hphase bytes).handled (hs.taken payload bytes) hv' hidle' hh
  | wrapped _ _ _ hphase hseq =>
    exact absurd hseq (h.not_wraps hs hphase)
  | badPadding _ havail _ _ hphase haead | overBudget _ havail _ _ hphase haead =>
    exact (h.authenticated havail (hservice hphase) haead).ended {} rfl
  | protectedPacket a havail payload hidle hphase haead _ hroom _ hh =>
    exact (h.opened havail (hservice hphase) haead hroom).handledProtected
      (hs.opened a (a.advance havail) payload)
      { hidle with } hphase hh
  | wrappedProtected _ _ _ _ hphase _ hseq =>
    exact absurd hseq (hs.not_wraps_service hphase)

theorem Built.sequence {config : HandshakeConfig} {provider : Option SignatureProvider}
    {h : ClientHandshake} (hb : Built C config provider h) : Sequence C 0 h.state := by
  obtain ⟨_, _, _, _, _, -, -, -, -, hstate⟩ := hb.start
  rw [hstate]
  constructor
  all_goals simp [initialState, State.queueLine, State.queueFramed, State.strictActive,
    StrictKex.offered]

/-- The counters count in every state a run reaches. -/
theorem run_sequence {config : HandshakeConfig} {provider : Option SignatureProvider}
    {h h' : ClientHandshake} {events : List Event} (hb : Built C config provider h)
    (hrun : Run (Calls C) h events h') : Sequence C 0 h'.state := by
  refine (run_invariant hrun hb.basic (I := fun t => Verification C h.setup t ∧
    Output C h.setup t ∧ Sequence C 0 t) ⟨hb.verification, hb.output, hb.sequence⟩ ?_).2.2
  rintro t t' ht ⟨hv, ho, hseq⟩ hm
  exact ⟨hv.move hm, ho.move ht hv hm, hseq.move ht ho hv hm⟩

/-! ### Nonces -/

/-- The nonce a queued message was sealed under. -/
def Outgoing.nonce? : Outgoing → Option (ByteVec 12)
  | .sealed nonce _ _ => some nonce
  | _ => none

/-- The nonces of the packets sealed so far, in order. -/
def sealedNonces (queue : List Outgoing) : List (ByteVec 12) := queue.filterMap Outgoing.nonce?

/-- The nonces are those of these keys in order: the fixed field of the initial nonce followed by
its counter, as eight bytes, moved on by the index; none occurs twice. -/
structure NoncesOf (keys : AeadKeys) (nonces : List (ByteVec 12)) : Prop where
  bytes : ∀ i nonce, nonces[i]? = some nonce →
    nonce.toBytes = keys.iv.toBytes.take 4 ++ beBytes 8 (beNat (keys.iv.toBytes.drop 4) + i)
  lt : ∀ i < nonces.length, beNat (keys.iv.toBytes.drop 4) + i < 2 ^ 64
  nodup : nonces.Nodup

/-- Nonces that follow the counter of a direction are in order and all different. -/
theorem noncesOf_of_at {keys : AeadKeys} {nonces : List (ByteVec 12)}
    (hat : ∀ i nonce, nonces[i]? = some nonce → nonce = nonceAt keys i)
    (hlt : ∀ i < nonces.length, counterOf keys.iv + i < 2 ^ 64) :
    NoncesOf keys nonces where
  bytes := by
    intro i nonce hi
    rw [hat i nonce hi]
    rfl
  lt := hlt
  nodup := by
    have hmap : nonces = (List.range nonces.length).map (nonceAt keys) := by
      apply ext_getElem
      · simp
      · intro i h₁ h₂
        rw [getElem_map, getElem_range]
        exact hat i _ (List.getElem?_eq_getElem h₁)
    rw [hmap]
    refine List.Nodup.map_on ?_ nodup_range
    intro i hi j hj heq
    exact nonceAt_inj (hlt i (mem_range.mp hi))
      (hlt j (mem_range.mp hj)) heq

/-- The sealed packets of the plan are the packets of the sending direction, in order. -/
theorem Follows.sealedNonces {verified : Option Verified} {queue : List Outgoing}
    (h : Follows C u verified queue) :
    (sealedNonces queue).length = queue.length - 4 ∧
      ∀ i nonce, (sealedNonces queue)[i]? = some nonce → ∃ v, verified = some v ∧
        nonce = nonceAt (v.sendKeys C) i ∧
        counterOf (v.sendKeys C).iv + i < 2 ^ 64 := by
  induction queue using List.reverseRecOn with
  | nil => simp [Tatami.Tcp.sealedNonces]
  | append_singleton queue m ih =>
    have hinit : Follows C u verified queue := fun i m' hi => h i m' (getElem?_snoc_of_some hi)
    obtain ⟨hlen, hnonces⟩ := ih hinit
    have hm := h queue.length m List.getElem?_concat_length
    have hsnoc : Tatami.Tcp.sealedNonces (queue ++ [m]) =
        Tatami.Tcp.sealedNonces queue ++ m.nonce?.toList := by
      rw [Tatami.Tcp.sealedNonces, filterMap_append]
      cases hn : m.nonce? <;> simp [Tatami.Tcp.sealedNonces, hn]
    rw [hsnoc, length_append, length_append, length_singleton, hlen]
    -- the two sealed messages of the plan extend the list, the others leave it alone
    have hsealed {v : Verified} {k : Nat} {nonce : ByteVec 12} {p wire : Bytes}
        (hv : verified = some v) (hk : queue.length = 4 + k)
        (hs : SealedAt C (v.sendKeys C) k nonce p wire) (hn : m.nonce? = some nonce) :
        queue.length - 4 + m.nonce?.toList.length = queue.length + 1 - 4 ∧
          ∀ i nonce', (Tatami.Tcp.sealedNonces queue ++ m.nonce?.toList)[i]? = some nonce' →
            ∃ v, verified = some v ∧ nonce' = nonceAt (v.sendKeys C) i ∧
              counterOf (v.sendKeys C).iv + i < 2 ^ 64 := by
      obtain ⟨hnonce, a, hat, -⟩ := hs
      rw [hn, Option.toList_some]
      refine ⟨by rw [length_singleton]; omega, fun i nonce' hi => ?_⟩
      rcases getElem?_snoc_cases hi with hold | ⟨rfl, rfl⟩
      · exact hnonces i nonce' hold
      · have hindex : (Tatami.Tcp.sealedNonces queue).length = k := by omega
        rw [hindex]
        exact ⟨v, hv, hnonce, hat.counter_lt⟩
    generalize hn : queue.length = n at hm hsealed
    cases hm with
    | serviceRequest _ _ _ hv hs | disconnect _ _ _ _ hv _ hs =>
      exact hsealed hv rfl hs rfl
    | _ =>
      refine ⟨rfl, fun i nonce hi => hnonces i nonce ?_⟩
      rw [← hi]
      exact congrArg (·[i]?) (append_nil _).symm

/-! ### Packets -/

/-- How many packets were queued. -/
def packetsQueued (hist : History) : Nat := (hist.queued.filter Outgoing.isPacket).length

/-- How many packets were accepted: past framing, authentication and budget. -/
def packetsAccepted (hist : History) : Nat := hist.received.length + hist.accepted.length

/-- Every message of the plan but the first is a packet. -/
theorem Follows.packets {verified : Option Verified} {queue : List Outgoing}
    (h : Follows C u verified queue) :
    (queue.filter Outgoing.isPacket).length = queue.length - 1 := by
  induction queue using List.reverseRecOn with
  | nil => rfl
  | append_singleton queue m ih =>
    have hinit : Follows C u verified queue := fun i m' hi => h i m' (getElem?_snoc_of_some hi)
    have hm := h queue.length m List.getElem?_concat_length
    rw [filter_append, length_append, length_append, length_singleton,
      ih hinit]
    generalize queue.length = n at hm
    cases hm <;> rfl

/-- Under strict KEX, before both `NEWKEYS`, a packet that would wrap the counter ends the
handshake. -/
theorem stepUnprotected_of_wraps {b b' : InputBuffer} {flow : Flow} (hw : s.Wraps)
    (h : stepUnprotected C u s b = .ok (flow, s', b')) :
    (flow = .needMore ∧ s' = s ∧ b' = b) ∨ (flow = .again ∧ s'.outcome ≠ none) := by
  rw [stepUnprotected] at h
  obtain ⟨_, -, h⟩ := Checked.bind_ok_iff.mp h
  split at h
  · cases h
    exact .inl ⟨rfl, rfl, rfl⟩
  · cases h
    exact .inr ⟨rfl, Option.some_ne_none _⟩
  · rcases ite_eq_iff.mp h with ⟨-, h⟩ | ⟨-, h⟩
    · cases h
      exact .inr ⟨rfl, Option.some_ne_none _⟩
    simp only at h
    rcases ite_eq_iff.mp h with ⟨-, h⟩ | ⟨-, h⟩
    · cases h
      exact .inr ⟨rfl, Option.some_ne_none _⟩
    obtain ⟨_, -, h⟩ := Checked.bind_ok_iff.mp h
    obtain ⟨_, -, h⟩ := Checked.bind_ok_iff.mp h
    -- the packet was taken, and counting it fails
    rcases counted_cases h with ⟨-, h⟩ | ⟨hgoes, -⟩
    · cases h
      exact .inr ⟨rfl, Option.some_ne_none _⟩
    · exact absurd hw hgoes

/-! ### The contract of the counters -/

section Contract

variable {ρ ε : Type} {tryFillBytes : (n : Nat) → ρ → Except ε (ByteVec n × ρ)}
  {config : HandshakeConfig} {rng : ρ} {provider : Option SignatureProvider}
  {h h' : ClientHandshake} {events : List Event}

/-- What a report says about the counters. -/
structure Counters (r : HandshakeReport) (hist : History) : Prop where
  /-- Without strict KEX both count from the start. -/
  plain : r.strictKex.negotiated = false →
    r.sendSequence = packetsQueued hist % 2 ^ 32 ∧
      r.receiveSequence = packetsAccepted hist % 2 ^ 32
  /-- With strict KEX the sending one restarts at our `NEWKEYS`. -/
  strictSend : r.strictKex.negotiated = true → r.sendSequence =
    if r.newkeysSent then r.protectedPacketsSent else packetsQueued hist % 2 ^ 32
  /-- With strict KEX the receiving one restarts at the server `NEWKEYS`. -/
  strictReceive : r.strictKex.negotiated = true → r.receiveSequence =
    if r.newkeysReceived then r.protectedPacketsReceived else packetsAccepted hist % 2 ^ 32
  /-- The flag says whether our `NEWKEYS` was queued. -/
  newkeysSent_iff : r.newkeysSent = true ↔
    ∃ wire, hist.queued[3]? = some (.framed NewKeys.payload wire)

theorem Built.report_ok (hb : Built C config provider h) (s : State) :
    ∃ r, report h.setup s = .ok r := by
  obtain ⟨_, hline, -⟩ := hb.clientLine
  rw [report, clientIdentificationLine, Checked.sub_ok (by rw [hline]; simp), Checked.ok_bind,
    Checked.slice_ok (Nat.zero_le _) (Nat.sub_le _ _)]
  exact ⟨_, rfl⟩

/-- The reported counters, in every state a run reaches. -/
theorem counters_of_run {r : HandshakeReport} (hb : Built C config provider h)
    (hrun : Run (Calls C) h events h') (hr : report h.setup h'.state = .ok r) :
    Counters r h'.state.hist := by
  have hseq := run_sequence hb hrun
  have hinv := run_invariants hb hrun
  have hpackets : packetsQueued h'.state.hist % 2 ^ 32 = h'.state.hist.queued.length - 1 := by
    rw [packetsQueued, hinv.output.follows.packets]
    have := (run_basic hb hrun).queued_le
    omega
  obtain ⟨_, -, hreport⟩ := Checked.bind_ok_iff.mp hr
  cases hreport
  exact {
    plain := by
      intro hplain
      have hinactive : h'.state.strictActive = false := hplain
      have hsend := hseq.send
      have hreceive := hseq.receive
      rw [if_neg (by simp [hinactive])] at hsend hreceive
      exact ⟨hsend.trans hpackets.symm, hreceive⟩
    strictSend := by
      intro hstrict
      have hactive : h'.state.strictActive = true := hstrict
      have hsend := hseq.send
      simp only [hactive, true_and] at hsend
      rw [hpackets]
      exact hsend
    strictReceive := by
      intro hstrict
      have hactive : h'.state.strictActive = true := hstrict
      have hreceive := hseq.receive
      simp only [hactive, true_and] at hreceive
      exact hreceive
    newkeysSent_iff := by
      refine hinv.output.sent_iff.trans ⟨fun hlen => ?_, fun ⟨wire, hwire⟩ => ?_⟩
      · obtain ⟨m, hm, hplan⟩ := hinv.output.planned (i := 3) hlen
        cases hplan with
        | newkeys wire => exact ⟨wire, hm⟩
      · exact (List.getElem?_eq_some_iff.mp hwire).1 }

/-- The nonces used in both directions, in every state a run reaches. -/
theorem nonces_of_run {v : Verified} (hb : Built C config provider h)
    (hrun : Run (Calls C) h events h') (hv : h'.state.hist.verified = some v) :
    NoncesOf (v.sendKeys C) (sealedNonces h'.state.hist.queued) ∧
      NoncesOf (v.receiveKeys C) h'.state.hist.authenticated := by
  have hseq := run_sequence hb hrun
  obtain ⟨-, hsealed⟩ := (run_invariants hb hrun).output.follows.sealedNonces
  constructor
  · have hone (i : Nat) (nonce : ByteVec 12)
        (hi : (sealedNonces h'.state.hist.queued)[i]? = some nonce) :
        nonce = nonceAt (v.sendKeys C) i ∧
          counterOf (v.sendKeys C).iv + i < 2 ^ 64 := by
      obtain ⟨w, hw, hnonce, hlt⟩ := hsealed i nonce hi
      obtain rfl : w = v := Option.some.inj (hw.symm.trans hv)
      exact ⟨hnonce, hlt⟩
    exact noncesOf_of_at (fun i nonce hi => (hone i nonce hi).1)
      fun i hi => (hone i _ (List.getElem?_eq_getElem hi)).2
  · cases hreceived : h'.state.newkeysReceived with
    | false =>
      rw [(hseq.unprotected hreceived).2]
      exact noncesOf_of_at (by simp) (by simp)
    | true =>
      obtain ⟨w, a, hw, -, hat, hused⟩ := hseq.receiving hreceived
      obtain rfl : w = v := Option.some.inj (hw.symm.trans hv)
      refine noncesOf_of_at hused fun i hi => ?_
      have := hat.counter_lt
      omega

/-- Before a signature was accepted no nonce is used. -/
theorem no_nonces_of_run (hb : Built C config provider h) (hrun : Run (Calls C) h events h')
    (hnone : h'.state.hist.verified = none) :
    sealedNonces h'.state.hist.queued = [] ∧ h'.state.hist.authenticated = [] := by
  have hseq := run_sequence hb hrun
  obtain ⟨-, hsealed⟩ := (run_invariants hb hrun).output.follows.sealedNonces
  constructor
  · rw [eq_nil_iff_forall_not_mem]
    intro nonce hmem
    obtain ⟨i, hi⟩ := mem_iff_getElem?.mp hmem
    obtain ⟨v, hv, -⟩ := hsealed i nonce hi
    exact absurd (hnone.symm.trans hv) (by simp)
  · refine (hseq.unprotected ?_).2
    rw [← Bool.not_eq_true]
    intro hreceived
    obtain ⟨v, a, hv, -⟩ := hseq.receiving hreceived
    exact absurd (hnone.symm.trans hv) (by simp)

/-- **Sequence numbers and nonces.** In every state a run reaches, the reported sequence numbers
count the packets of their direction, from the start or, under strict KEX, from that direction's
`NEWKEYS`; the nonces used are the derived ones in order, each once. Under strict KEX a packet that
would wrap the receiving counter ends the handshake, and at its last counter value a direction seals
and opens nothing. -/
theorem sequence_and_nonces (hb : build C tryFillBytes config rng provider = .ok (.ok h))
    (hrun : Run (Calls C) h events h') :
    (∃ r, report h.setup h'.state = .ok r ∧ Counters r h'.state.hist) ∧
    (∀ v, h'.state.hist.verified = some v →
      NoncesOf (v.sendKeys C) (sealedNonces h'.state.hist.queued) ∧
        NoncesOf (v.receiveKeys C) h'.state.hist.authenticated) ∧
    (h'.state.hist.verified = none →
      sealedNonces h'.state.hist.queued = [] ∧ h'.state.hist.authenticated = []) ∧
    (∀ t b flow t' b', t.Wraps → stepUnprotected C h.setup t b = .ok (flow, t', b') →
      (flow = .needMore ∧ t' = t ∧ b' = b) ∨ (flow = .again ∧ t'.outcome ≠ none)) ∧
    (∀ a : AeadDirection, a.counter = 2 ^ 64 - 1 →
      (∀ payload padding out, a.sealPacket C payload (PaddingSource.fillBytes C) padding out =
        ⟨.error .counterExhausted, a, padding, out⟩) ∧
      ∀ buf limits, AeadDirection.WholePacket buf limits →
        a.openPacket C buf limits = .ok ⟨.error .counterExhausted, a, buf⟩) := by
  have hbuilt := build_ok hb
  obtain ⟨r, hr⟩ := hbuilt.report_ok h'.state
  refine ⟨⟨r, hr, counters_of_run hbuilt hrun hr⟩, fun v hv => nonces_of_run hbuilt hrun hv,
    no_nonces_of_run hbuilt hrun, fun t b flow t' b' hw hstep => stepUnprotected_of_wraps hw hstep,
    fun a hlast => ?_⟩
  have havail : a.counterAvailable = false := by
    rw [counterAvailable, hlast]
    rfl
  refine ⟨fun payload padding out => sealPacket_exhausted C havail _ _ _ _,
    fun buf limits hw => ?_⟩
  rw [openPacket_eq, openDecision_exhausted C havail hw]

/-- The reference handshake completes, and its report counts its packets. -/
theorem sequence_and_nonces_reference :
    ∃ events h' r, Run (Calls reference) Reference.client events h' ∧
      h'.state.outcome = some .completed ∧ report Reference.client.setup h'.state = .ok r ∧
      Counters r h'.state.hist := by
  obtain ⟨events, h', hrun, hdone⟩ := Reference.exists_run_completed
  obtain ⟨r, hr, hcounters⟩ := (sequence_and_nonces Reference.build_client hrun).1
  exact ⟨events, h', r, hrun, hdone, hr, hcounters⟩

end Contract

end Tatami.Tcp
