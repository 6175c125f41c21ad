import Tatami.Tcp.Handshake.Handlers

/-! # What a call can do

`Move` lists everything that can happen to the state, in a public call or in one round of `step`. A
round is one move or none (`round_cases`), and so is every other call; an invariant of the machine
is a property that every move keeps. -/

namespace Tatami.Tcp

open Tatami.Wire Tatami.Keys Checked InputBuffer

/-! ### Intermediate states -/

/-- The next value of a counter that may wrap. -/
def wrapSucc (seq : Nat) : Nat := if seq + 1 < 2 ^ 32 then seq + 1 else 0

namespace State

/-- The state after an unprotected packet was taken from the buffer, before it is counted. -/
def take (payload : Bytes) (bytes : Nat) (s : State) : State :=
  { s with
    preKexPackets := s.preKexPackets + 1, preKexBytes := bytes,
    hist := { s.hist with received := s.hist.received ++ [payload] } }

/-- The state after a tag verified under the next nonce of `a`, which is `a'` now. -/
def authenticate (a a' : AeadDirection) (s : State) : State :=
  { s with
    recvAead := some a',
    hist := { s.hist with authenticated := s.hist.authenticated ++ [a.nextNonce] } }

/-- The state after a protected packet was opened. -/
def takeOpened (a a' : AeadDirection) (payload : Bytes) (s : State) : State :=
  { s with
    recvAead := some a',
    hist := { s.hist with
      authenticated := s.hist.authenticated ++ [a.nextNonce],
      opened := s.hist.opened ++ [payload] } }

/-- The state after an opened packet passed the budget, before it is counted. -/
def accept (payload : Bytes) (s : State) : State :=
  { s with
    protectedReceived := s.protectedReceived + 1,
    hist := { s.hist with accepted := s.hist.accepted ++ [payload] } }

/-- The state after a packet was counted. -/
def count (s : State) : State := { s with recvSeq := wrapSucc s.recvSeq }

/-- A wrap would break a strict-KEX rule. -/
def Wraps (s : State) : Prop :=
  ¬s.recvSeq + 1 < 2 ^ 32 ∧ s.strictActive = true ∧ s.initialKexDone = false

/-- The outcome of a wrap. -/
def wrapped : HandshakeOutcome :=
  .strictKexViolation "packet sequence number wrapped before the initial key exchange completed"

/-- Counting a received packet wraps or goes on. -/
theorem bumpSequence_receive (s : State) :
    (s.Wraps ∧ s.bumpSequence false = (.error wrapped, s)) ∨
      (¬s.Wraps ∧ s.bumpSequence false = (.ok (), s.count)) := by
  rw [bumpSequence, nextSequence]
  simp only [Bool.false_eq_true, if_false]
  by_cases hlt : s.recvSeq + 1 < 2 ^ 32
  · rw [if_pos hlt]
    exact .inr ⟨fun h => h.1 hlt, by rw [count, wrapSucc, if_pos hlt]⟩
  rw [if_neg hlt]
  by_cases hstrict : (s.strictActive && !s.initialKexDone) = true
  · rw [if_pos hstrict]
    simp only [Bool.and_eq_true, Bool.not_eq_true'] at hstrict
    exact .inl ⟨⟨hlt, hstrict.1, hstrict.2⟩, rfl⟩
  · rw [if_neg hstrict]
    refine .inr ⟨?_, by rw [count, wrapSucc, if_neg hlt]⟩
    rintro ⟨-, hactive, hdone⟩
    simp [hactive, hdone] at hstrict

/-- The machine is waiting for input: no outcome, nothing to send, nothing pending. -/
structure Idle (s : State) : Prop where
  outcome : s.outcome = none
  out : s.out = []
  pendingOutcome : s.pendingOutcome = none

end State

/-! ### Moves -/

/-- A phase in which unprotected packets are read. -/
def Phase.isKex : Phase → Bool
  | .serverKexInit => true
  | .ecdhReply => true
  | .serverNewKeys => true
  | _ => false

/-- Everything that can happen to the state. -/
inductive Move (C : Crypto) (u : Setup) (s : State) : State → Prop where
  /-- The queued output was taken. -/
  | takeOutput :
      Move C u s
        { s with out := [], hist := { s.hist with taken := s.hist.taken ++ s.out } }
  /-- The input ended, did not fit, or failed a check before a packet was taken. -/
  | failed {s' : State} (hnone : s.outcome = none) (h : Failed s s') : Move C u s s'
  /-- The host key was not trusted. -/
  | distrust (reason : UntrustedReason) (hphase : s.phase = .trustDecision) :
      Move C u s
        ({ s with trust := some (.untrusted reason) }.finish (.hostNotTrusted reason))
  /-- The host key was trusted: our `NEWKEYS` is queued and sending is protected from now on. -/
  | trust (source : TrustSource) (keys : KeySet) (wire : Bytes) (padding : PaddingSource)
      (hphase : s.phase = .trustDecision) (hkeys : s.keys = some keys)
      (hwire : FrameOf NewKeys.payload wire) :
      Move C u s
        { { s with trust := some (.trusted source) }.queueFramed NewKeys.payload wire padding with
          newkeysSent := true, sendAead := some (.new keys.clientToServer),
          sendSeq := if s.strictActive then 0 else s.sendSeq + 1, phase := .serverNewKeys }
  /-- The outcome that waited for its `DISCONNECT` was adopted. -/
  | adopt (o : HandshakeOutcome) (hnone : s.outcome = none) (hout : s.out = [])
      (hpending : s.pendingOutcome = some o) : Move C u s (s.finish o)
  /-- A prelude line. -/
  | prelude (r : IdentificationReader) (line : Bytes) (hidle : s.Idle)
      (hphase : s.phase = .serverIdentification) (hlimits : r.limits = s.identReader.limits) :
      Move C u s { s with identReader := r, preludeLines := s.preludeLines ++ [line] }
  /-- The server identification. -/
  | identified (ident : Identification) (raw : Bytes) (hidle : s.Idle)
      (hphase : s.phase = .serverIdentification)
      (hshort : ident.line.length < s.identReader.limits.maxIdentificationLine.toNat)
      (hline : ident.line <+: raw) (hraw : raw.length ≤ ident.line.length + 2) :
      Move C u s
        { s with
          serverIdent := some ident.toOwned, phase := .serverKexInit,
          hist := { s.hist with identLine := some raw } }
  /-- An unprotected packet was taken and handled. -/
  | unprotected {s' : State} (payload : Bytes) (bytes : Nat) (hidle : s.Idle)
      (hphase : s.phase.isKex = true)
      (hbudget : s.preKexPackets < u.config.maxPreKexPackets.toNat)
      (hcap : payload.length < u.config.packet.maxPacketLength.toNat)
      (hseq : ¬(s.take payload bytes).Wraps)
      (h : Handled C u payload (s.take payload bytes).count s') : Move C u s s'
  /-- An unprotected packet was taken and the counter wrapped under strict KEX. -/
  | wrapped (payload : Bytes) (bytes : Nat) (hidle : s.Idle) (hphase : s.phase.isKex = true)
      (hseq : (s.take payload bytes).Wraps) :
      Move C u s ((s.take payload bytes).finish State.wrapped)
  /-- A tag verified, but the padding inside is malformed. -/
  | badPadding (a : AeadDirection) (h : a.counterAvailable = true) (e : OpenError) (hidle : s.Idle)
      (hphase : s.phase = .service) (haead : s.recvAead = some a) :
      Move C u s ((s.authenticate a (a.advance h)).finish (.protocolError (.protectedPacket e)))
  /-- A protected packet was opened over the budget. -/
  | overBudget (a : AeadDirection) (h : a.counterAvailable = true) (payload : Bytes)
      (hidle : s.Idle) (hphase : s.phase = .service) (haead : s.recvAead = some a) :
      Move C u s ((s.takeOpened a (a.advance h) payload).finish
        (.limit (.protectedPackets u.config.maxProtectedPackets)))
  /-- A protected packet was opened and handled. -/
  | protectedPacket {s' : State} (a : AeadDirection) (h : a.counterAvailable = true)
      (payload : Bytes) (hidle : s.Idle) (hphase : s.phase = .service)
      (haead : s.recvAead = some a)
      (hbudget : s.protectedReceived < u.config.maxProtectedPackets.toNat)
      (hroom : s.protectedReceived + 1 < 2 ^ 32)
      (hseq : ¬((s.takeOpened a (a.advance h) payload).accept payload).Wraps)
      (hhandled : HandledProtected C u payload
        ((s.takeOpened a (a.advance h) payload).accept payload).count s') : Move C u s s'
  /-- A protected packet was opened and the counter wrapped under strict KEX. -/
  | wrappedProtected (a : AeadDirection) (h : a.counterAvailable = true) (payload : Bytes)
      (hidle : s.Idle) (hphase : s.phase = .service) (haead : s.recvAead = some a)
      (hseq : ((s.takeOpened a (a.advance h) payload).accept payload).Wraps) :
      Move C u s (((s.takeOpened a (a.advance h) payload).accept payload).finish State.wrapped)

/-- Handling an unprotected payload leaves the trust answer alone. -/
theorem Handled.trust {C : Crypto} {u : Setup} {payload : Bytes} {s s' : State}
    (h : Handled C u payload s s') : s'.trust = s.trust := by
  cases h with
  | failed h => exact h.trust
  | _ => rfl

/-- Handling a protected payload leaves the trust answer alone. -/
theorem HandledProtected.trust {C : Crypto} {u : Setup} {payload : Bytes} {s s' : State}
    (h : HandledProtected C u payload s s') : s'.trust = s.trust := by
  cases h with
  | failed h => exact h.trust
  | _ => rfl

/-- Only an answer to the trust question changes the trust answer. -/
theorem Move.trust_eq {C : Crypto} {u : Setup} {s s' : State} (h : Move C u s s')
    (hphase : s.phase ≠ .trustDecision) : s'.trust = s.trust := by
  cases h with
  | failed _ h | unprotected _ _ _ _ _ _ _ h | protectedPacket _ _ _ _ _ _ _ _ _ h => exact h.trust
  | distrust _ hask | trust _ _ _ _ hask => exact absurd hask hphase
  | _ => rfl

/-! ### Inversion of a round -/

section Rounds

variable {C : Crypto} {u : Setup} {s s' : State} {b b' : InputBuffer} {flow : Flow}

/-- What an attempt to process input does: nothing, or one move that brings the rank down. -/
inductive Attempt (C : Crypto) (u : Setup) (s : State) (b : InputBuffer) :
    Flow × State × InputBuffer → Prop where
  | needMore : Attempt C u s b (.needMore, s, b)
  | again {s' : State} {b' : InputBuffer} (move : Move C u s s') (hrank : rank s' b' < rank s b)
      (hcapacity : b'.capacity = b.capacity) : Attempt C u s b (.again, s', b')

/-- Consuming brings the rank down, whatever happens to the state. -/
theorem rank_lt_of_consume {n : Nat} (hnone : s.outcome = none) (hpos : 1 ≤ n)
    (h : b.consume n = .ok b') (s' : State) : rank s' b' < rank s b := by
  obtain ⟨hn, hbuf, -⟩ := consume_ok_iff.mp h
  rw [rank, rank, hnone, hbuf, List.length_drop]
  have hone : (if s'.outcome.isNone = true then 1 else 0) ≤ 1 := by
    split
    · exact Nat.le_refl 1
    · exact Nat.zero_le 1
  simp only [Option.isNone_none, if_true]
  omega

/-- A failure brings the rank down, even if it leaves the buffer alone. -/
theorem rank_lt_of_failed (hnone : s.outcome = none) (h : s'.outcome.isSome = true)
    (hbuf : b'.buf.length = b.buf.length) : rank s' b' < rank s b := by
  obtain ⟨o, ho⟩ := Option.isSome_iff_exists.mp h
  rw [rank, rank, hnone, ho, hbuf]
  exact Nat.lt_succ_self _

theorem State.Idle.fits (h : s.Idle) : s.Fits := by
  rw [State.Fits, h.outcome]
  rfl

/-- Refusing is an attempt that ends the machine. -/
theorem Refused.attempt (h : Refused s s') (hidle : s.Idle) :
    Attempt C u s b (.again, s', b) ∧ s'.Fits := by
  obtain ⟨o, ho, -⟩ := h.outcome
  exact ⟨.again (.failed hidle.outcome h.toFailed)
    (rank_lt_of_failed hidle.outcome (by rw [ho]; rfl) rfl) rfl, h.fits⟩

/-- **Inversion of the identification phase.** -/
theorem stepIdentification_cases (hidle : s.Idle) (hphase : s.phase = .serverIdentification)
    {r : Flow × State × InputBuffer} (h : stepIdentification s b = .ok r) :
    Attempt C u s b r ∧ r.2.1.Fits := by
  rw [stepIdentification] at h
  split at h
  · rename_i reader hfeed
    have hreader : reader = s.identReader := (IdentificationReader.feed_ok hfeed).2
    cases h
    rw [hreader]
    exact ⟨.needMore, hidle.fits⟩
  · rename_i line t consumed reader hfeed
    obtain ⟨hlimits, hpos, -⟩ := IdentificationReader.feed_ok hfeed
    obtain ⟨b', hb', h⟩ := bind_ok_iff.mp h
    cases h
    exact ⟨.again (.prelude reader line hidle hphase hlimits)
      (rank_lt_of_consume hidle.outcome hpos hb' _) (consume_ok_iff.mp hb').2.2,
      hidle.fits⟩
  · rename_i ident consumed reader hfeed
    obtain ⟨-, hreader, hpos, hle, hshort, hline, hraw⟩ := IdentificationReader.feed_ok hfeed
    obtain ⟨b', hb', h⟩ := bind_ok_iff.mp h
    cases h
    rw [hreader]
    have hlen : (b.buf.take consumed).length ≤ ident.line.length + 2 := by
      rw [List.length_take]
      omega
    exact ⟨.again (.identified ident (b.buf.take consumed) hidle hphase hshort hline hlen)
      (rank_lt_of_consume hidle.outcome hpos hb' _) (consume_ok_iff.mp hb').2.2,
      hidle.fits⟩
  · cases h
    exact (Recorded.refused {} rfl fun hother => absurd hphase hother).attempt hidle

/-- Where the count does not wrap, the packet is handled. -/
theorem counted_goes {f : State → Checked State} (h : ¬s.Wraps) :
    (match s.bumpSequence false with
      | (.error o, s) => pure (Flow.again, s.finish o, b)
      | (.ok (), s) => do
        let s ← f s
        pure (Flow.again, s, b)) =
        (f s.count >>= fun s => (pure (Flow.again, s, b) : Checked _)) := by
  rcases s.bumpSequence_receive with ⟨hwraps, -⟩ | ⟨-, hbump⟩
  · exact absurd hwraps h
  · rw [hbump]

/-- A received packet is counted and handled, unless the count wraps. -/
theorem counted_cases {f : State → Checked State} {r : Flow × State × InputBuffer}
    (h : (match s.bumpSequence false with
      | (.error o, s) => pure (Flow.again, s.finish o, b)
      | (.ok (), s) => do
        let s ← f s
        pure (Flow.again, s, b)) = (.ok r : Checked _)) :
    (s.Wraps ∧ r = (.again, s.finish State.wrapped, b)) ∨
      (¬s.Wraps ∧ ∃ s', f s.count = .ok s' ∧ r = (.again, s', b)) := by
  rcases s.bumpSequence_receive with ⟨hwraps, hbump⟩ | ⟨hgoes, hbump⟩
  · rw [hbump] at h
    cases h
    exact .inl ⟨hwraps, rfl⟩
  · rw [hbump] at h
    obtain ⟨s', hs', h⟩ := bind_ok_iff.mp h
    cases h
    exact .inr ⟨hgoes, s', hs', rfl⟩

/-- **Inversion of the unprotected phases.** -/
theorem stepUnprotected_cases (hidle : s.Idle) (hphase : s.phase.isKex = true)
    (hsent : s.protectedSent + 1 < 2 ^ 32) (hseq : s.sendSeq + 1 < 2 ^ 32)
    {r : Flow × State × InputBuffer} (h : stepUnprotected C u s b = .ok r) :
    Attempt C u s b r ∧ r.2.1.Fits := by
  rw [stepUnprotected, decodeInitialPacket_eq, ok_bind] at h
  split at h
  · cases h
    exact ⟨.needMore, hidle.fits⟩
  · cases h
    exact (refused_finish rfl).attempt hidle
  rename_i packet hpacket
  obtain ⟨hmin, hle, hcap⟩ := initialDecision_complete hpacket
  rcases ite_eq_iff.mp h with ⟨-, h⟩ | ⟨hbudget, h⟩
  · cases h
    exact (refused_finish rfl).attempt hidle
  simp only at h
  rcases ite_eq_iff.mp h with ⟨-, h⟩ | ⟨-, h⟩
  · cases h
    exact (refused_finish rfl).attempt hidle
  obtain ⟨_, hpackets, h⟩ := bind_ok_iff.mp h
  obtain ⟨-, rfl⟩ := addUsize_ok_iff.mp hpackets
  obtain ⟨_, hb', h⟩ := bind_ok_iff.mp h
  have hpos : 1 ≤ packet.totalLen := Nat.le_trans (by decide) hmin
  have hrank := rank_lt_of_consume hidle.outcome hpos hb'
  have hcapacity := (consume_ok_iff.mp hb').2.2
  rcases counted_cases h with ⟨hwraps, rfl⟩ | ⟨hgoes, _, hs', rfl⟩
  · exact ⟨.again (.wrapped _ _ hidle hphase hwraps) (hrank _) hcapacity, rfl⟩
  · obtain ⟨hhandled, hfits⟩ := handleUnprotected_cases (by exact hsent) (by exact hseq) hs'
    exact ⟨.again (.unprotected packet.payload _ hidle hphase (by omega) hcap hgoes hhandled)
      (hrank _) hcapacity, hfits hidle.fits⟩

/-- The buffer after decryption keeps its size and capacity. -/
theorem overwriteWith_ok_iff {bytes : Bytes} :
    b.overwriteWith bytes = .ok b' ↔
      bytes.length = b.buf.length ∧ b'.buf = bytes ∧ b'.capacity = b.capacity := by
  rw [overwriteWith]
  constructor
  · intro h
    split at h
    · rename_i hlen
      cases h
      exact ⟨hlen, rfl, rfl⟩
    · cases h
  · rintro ⟨hlen, hbuf, hcap⟩
    rw [dif_pos hlen, Except.ok.injEq]
    exact ext hbuf.symm hcap.symm

/-- Opening that did not authenticate leaves the state as it is. -/
theorem recordOpening_self {a : AeadDirection} (haead : s.recvAead = some a) :
    s.recordOpening a a = s := by
  rw [State.recordOpening, if_pos rfl, List.append_nil, ← haead]

theorem recordOpening_advance {a : AeadDirection} (h : a.counterAvailable = true) (s : State) :
    s.recordOpening a (a.advance h) = s.authenticate a (a.advance h) := by
  rw [State.recordOpening, if_neg (AeadDirection.advance_ne h)]
  rfl

/-- **Inversion of the protected phase.** -/
theorem stepProtected_cases (hidle : s.Idle) (hphase : s.phase = .service)
    (hsent : s.protectedSent + 1 < 2 ^ 32) (hseq : s.sendSeq + 1 < 2 ^ 32)
    {r : Flow × State × InputBuffer} (h : stepProtected C u s b = .ok r) :
    Attempt C u s b r ∧ r.2.1.Fits := by
  rw [stepProtected] at h
  obtain ⟨a, haead, h⟩ := bind_ok_iff.mp h
  rw [expect_ok_iff] at haead
  rw [AeadDirection.openPacket_eq, ok_bind] at h
  obtain ⟨b₁, hb₁, h⟩ := bind_ok_iff.mp h
  obtain ⟨hlen, hbuf, hcapacity⟩ := overwriteWith_ok_iff.mp hb₁
  have hopen := AeadDirection.openDecision_cases C a b.buf u.config.packet
  generalize AeadDirection.openDecision C a b.buf u.config.packet = opened at *
  cases hopen with
  | needMore =>
    rw [recordOpening_self haead] at h
    cases h
    obtain rfl : b₁ = b := ext hbuf hcapacity
    exact ⟨.needMore, hidle.fits⟩
  | refused e he =>
    rw [recordOpening_self haead] at h
    obtain rfl : b₁ = b := ext hbuf hcapacity
    cases e with
    | badPadding l p => exact absurd rfl (he l p)
    | _ =>
      cases h
      exact (refused_finish rfl).attempt hidle
  | badPadding _ _ havail =>
    rw [recordOpening_advance] at h
    cases h
    refine ⟨.again (.badPadding a havail _ hidle hphase haead)
      (rank_lt_of_failed hidle.outcome rfl ?_) hcapacity, rfl⟩
    rw [hbuf]
    exact hlen
  | packet _ _ payload _ havail _ hpos _ hbuf' =>
    rw [recordOpening_advance, stepOpened] at h
    obtain ⟨b₂, hb₂, h⟩ := bind_ok_iff.mp h
    have hcapacity₂ : b₂.capacity = b.capacity :=
      (consume_ok_iff.mp hb₂).2.2.trans hcapacity
    have hrank : ∀ s' : State, rank s' b₂ < rank s b := by
      intro s'
      have hlt := rank_lt_of_consume hidle.outcome hpos hb₂ s'
      have hsame : rank s b₁ = rank s b := by rw [rank, rank, hbuf, hbuf']
      rwa [hsame] at hlt
    rcases ite_eq_iff.mp h with ⟨-, h⟩ | ⟨hbudget, h⟩
    · cases h
      exact ⟨.again (.overBudget a havail payload hidle hphase haead) (hrank _) hcapacity₂, rfl⟩
    obtain ⟨_, hreceived, h⟩ := bind_ok_iff.mp h
    obtain ⟨hroom, rfl⟩ := add_ok_iff.mp hreceived
    rcases counted_cases h with ⟨hwraps, rfl⟩ | ⟨hgoes, s', hs', rfl⟩
    · exact ⟨.again (.wrappedProtected a havail payload hidle hphase haead hwraps) (hrank _)
        hcapacity₂, rfl⟩
    · obtain ⟨hhandled, hfits⟩ := handleProtected_cases
        (s := ((s.takeOpened a (a.advance havail) payload).accept payload).count) hsent hseq hs'
      exact ⟨.again (.protectedPacket a havail payload hidle hphase haead (Nat.not_le.mp hbudget)
        hroom hgoes hhandled) (hrank _) hcapacity₂, hfits hidle.fits⟩

/-- What one round of the loop does. -/
inductive RoundCase (C : Crypto) (u : Setup) (s : State) (b : InputBuffer) :
    Option Step × State × InputBuffer → Prop where
  /-- There is an outcome. -/
  | finished (o : HandshakeOutcome) (h : s.outcome = some o) :
      RoundCase C u s b (some (.finished o), s, b)
  /-- There is output to send first. -/
  | send (hnone : s.outcome = none) (hout : s.out ≠ []) : RoundCase C u s b (some .send, s, b)
  /-- The buffered input is not enough. -/
  | needMore (hidle : s.Idle) (hphase : s.phase ≠ .trustDecision) :
      RoundCase C u s b (some .needMore, s, b)
  /-- The trust question is open. -/
  | ask (identity : HostIdentityOwned) (hidle : s.Idle) (hphase : s.phase = .trustDecision)
      (hidentity : s.identity = some identity) :
      RoundCase C u s b (some (.trustDecisionRequired identity), s, b)
  /-- Something moved, and the loop goes on. -/
  | again {s' : State} {b' : InputBuffer} (hnone : s.outcome = none) (hout : s.out = [])
      (move : Move C u s s') (htrust : s'.trust = s.trust) (hrank : rank s' b' < rank s b)
      (hcapacity : b'.capacity = b.capacity) : RoundCase C u s b (none, s', b')

theorem Attempt.roundCase {x : Checked (Flow × State × InputBuffer)}
    {r : Option Step × State × InputBuffer} (hidle : s.Idle) (hphase : s.phase ≠ .trustDecision)
    (hx : ∀ {a}, x = .ok a → Attempt C u s b a ∧ a.2.1.Fits) (h : ofFlow <$> x = .ok r) :
    RoundCase C u s b r ∧ r.2.1.Fits := by
  obtain ⟨a, ha, rfl⟩ := map_ok_iff.mp h
  obtain ⟨hattempt, hfits⟩ := hx ha
  cases hattempt with
  | needMore => exact ⟨.needMore hidle hphase, hfits⟩
  | again move hrank hcapacity =>
    exact ⟨.again hidle.outcome hidle.out move (move.trust_eq hphase) hrank hcapacity, hfits⟩

/-- **Inversion of a round.** It does not end the handshake for input that did not fit, unless that
was the outcome before, or pending. -/
theorem round_cases (hsent : s.protectedSent + 1 < 2 ^ 32) (hseq : s.sendSeq + 1 < 2 ^ 32)
    {r : Option Step × State × InputBuffer} (h : round C u s b = .ok r) :
    RoundCase C u s b r ∧
      (s.Fits → s.pendingOutcome.bind HandshakeOutcome.overflow? = none → r.2.1.Fits) := by
  rw [round] at h
  split at h
  · rename_i o ho
    cases h
    exact ⟨.finished o ho, fun hs _ => hs⟩
  rename_i hnone
  rcases ite_eq_iff.mp h with ⟨hout, h⟩ | ⟨hout, h⟩
  · cases h
    exact ⟨.send hnone hout, fun hs _ => hs⟩
  rw [ne_eq, not_not] at hout
  split at h
  · rename_i o ho
    cases h
    exact ⟨.again hnone hout (.adopt o hnone hout ho) rfl (rank_lt_of_failed hnone rfl rfl) rfl,
      fun _ h => by rwa [ho] at h⟩
  rename_i hpending
  have hidle : s.Idle := ⟨hnone, hout, hpending⟩
  suffices RoundCase C u s b r ∧ r.2.1.Fits from this.imp_right fun hfits _ _ => hfits
  cases hphase : s.phase with
  | serverIdentification =>
    rw [hphase] at h
    exact Attempt.roundCase hidle (by rw [hphase]; decide) (stepIdentification_cases hidle hphase) h
  | serverKexInit | ecdhReply | serverNewKeys =>
    rw [hphase] at h
    exact Attempt.roundCase hidle (by rw [hphase]; decide)
      (stepUnprotected_cases hidle (by rw [hphase]; rfl) hsent hseq) h
  | trustDecision =>
    rw [hphase] at h
    obtain ⟨identity, hidentity, h⟩ := bind_ok_iff.mp h
    cases h
    exact ⟨.ask identity hidle hphase (expect_ok_iff.mp hidentity), hidle.fits⟩
  | service =>
    rw [hphase] at h
    exact Attempt.roundCase hidle (by rw [hphase]; decide)
      (stepProtected_cases hidle hphase hsent hseq) h
  | finished =>
    rw [hphase] at h
    cases h

/-- Trusting the host key queues our `NEWKEYS`, if the keys are there. -/
theorem provideTrust_trusted (C : Crypto) (source : TrustSource) (hphase : s.phase = .trustDecision)
    (hseq : s.sendSeq + 1 < 2 ^ 32) :
    ∃ wire padding, FrameOf NewKeys.payload wire ∧ provideTrust C (.trusted source) s =
      (expect "keys derived before trust decision" s.keys >>= fun keys =>
        .ok {
          { s with trust := some (.trusted source) }.queueFramed NewKeys.payload wire padding with
          newkeysSent := true, sendAead := some (.new keys.clientToServer),
          sendSeq := if s.strictActive then 0 else s.sendSeq + 1, phase := .serverNewKeys }) := by
  obtain ⟨_, hrun, hout⟩ := (NewKeys.encodesTo ⟨⟩).large (List.replicate 1 0) (Nat.le_refl 1)
  obtain ⟨padding, wire, hwire, hsend⟩ := sendUnprotected_eq C
    (s := { s with trust := some (.trusted source) })
    (show NewKeys.payload.length < 2 ^ 31 by decide) hseq
  refine ⟨wire, padding, hwire, ?_⟩
  rw [provideTrust, if_neg (not_not.mpr hphase)]
  simp only [hrun, Except.toOption, expect_some, ok_bind,
    slice_written hout]
  rw [hsend, ok_bind]
  rfl

/-- **Inversion of the trust answer.** -/
theorem provideTrust_cases {decision : TrustDecision} (hseq : s.sendSeq + 1 < 2 ^ 32)
    (h : provideTrust C decision s = .ok s') :
    (s.phase ≠ .trustDecision ∧ s' = s) ∨
      (s.phase = .trustDecision ∧ s'.trust = some decision ∧
        s'.hist.taken = s.hist.taken ∧ Move C u s s') := by
  by_cases hphase : s.phase = .trustDecision
  swap
  · rw [provideTrust, if_pos hphase] at h
    cases h
    exact .inl ⟨hphase, rfl⟩
  refine .inr ⟨hphase, ?_⟩
  cases decision with
  | untrusted reason =>
    rw [provideTrust, if_neg (not_not.mpr hphase)] at h
    cases h
    exact ⟨rfl, rfl, .distrust reason hphase⟩
  | trusted source =>
    obtain ⟨wire, padding, hwire, hrun⟩ := provideTrust_trusted C source hphase hseq
    rw [hrun] at h
    obtain ⟨keys, hkeys, h⟩ := bind_ok_iff.mp h
    cases h
    exact ⟨rfl, rfl,
      .trust source keys wire padding hphase (expect_ok_iff.mp hkeys) hwire⟩

end Rounds

end Tatami.Tcp
