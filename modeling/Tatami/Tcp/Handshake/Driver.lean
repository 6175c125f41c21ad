import Tatami.Lib.Reactor
import Tatami.Tcp.Handshake.Total

/-! # Driving a handshake

A driver owns the stream: it takes the output when `step` asks it to send, answers the trust
question by a policy, feeds the next piece of the input when the machine needs more and signals the
end when there is none left (`drive`). One round of `step` together with the driver's answer is a
turn of a reactor, and no turn changes when more input follows (`stable_turn`): every decoder
decides on the bytes it needs and leaves the rest where it is. So how a stream is cut does not
matter (`chunking_invariance`). -/

namespace Tatami.Tcp

open Tatami.Wire Tatami.Keys Tatami.Reactor AeadDirection Checked ClientHandshake Reference

variable {C : Crypto} {u : Setup} {s s' : State} {b b' b₂ : InputBuffer} {d : Bytes}

/-! ### Rounds with more input -/

/-- The second result is the first one with `d` left over behind its input. -/
inductive Extended {α : Type} (d : Bytes) :
    Checked (α × State × InputBuffer) → Checked (α × State × InputBuffer) → Prop where
  | ok (a : α) (s : State) (b b₂ : InputBuffer) (h : b₂.buf = b.buf ++ d) :
      Extended d (.ok (a, s, b)) (.ok (a, s, b₂))
  | error (p : Panic) : Extended d (.error p) (.error p)

/-- What only changes the state does not see the input. -/
theorem Extended.state {α : Type} (a : α) (hb : b₂.buf = b.buf ++ d) (x : Checked State) :
    Extended d (x >>= fun s => pure (a, s, b)) (x >>= fun s => pure (a, s, b₂)) := by
  cases x with
  | error p => exact .error p
  | ok s => exact .ok a s b b₂ hb

theorem consume_append {n : Nat} (hb : b₂.buf = b.buf ++ d) (hn : n ≤ b.buf.length) :
    ∃ c c₂ : InputBuffer, b.consume n = .ok c ∧ b₂.consume n = .ok c₂ ∧ c₂.buf = c.buf ++ d := by
  have hn₂ : n ≤ b₂.buf.length := by
    rw [hb, List.length_append]
    omega
  refine ⟨_, _, if_pos hn, if_pos hn₂, ?_⟩
  change b₂.buf.drop n = b.buf.drop n ++ d
  rw [hb, List.drop_append_of_le_length hn]

/-- Looking for a line, when the reader decides alike. -/
theorem stepIdentification_append (hb : b₂.buf = b.buf ++ d)
    (hsame : s.identReader.feed b₂.buf = s.identReader.feed b.buf) :
    Extended d (stepIdentification s b) (stepIdentification s b₂) := by
  rw [stepIdentification, stepIdentification, hsame]
  split
  · exact .ok _ _ _ _ hb
  · rename_i line t consumed reader hfeed
    obtain ⟨-, -, hle⟩ := IdentificationReader.feed_ok hfeed
    obtain ⟨c, c₂, hc, hc₂, hrest⟩ := consume_append hb hle
    rw [hc, hc₂]
    exact .ok _ _ _ _ hrest
  · rename_i ident consumed reader hfeed
    obtain ⟨-, -, -, hle, -⟩ := IdentificationReader.feed_ok hfeed
    obtain ⟨c, c₂, hc, hc₂, hrest⟩ := consume_append hb hle
    rw [hc, hc₂, hb, List.take_append_of_le_length hle]
    exact .ok _ _ _ _ hrest
  · exact .ok _ _ _ _ hb

/-- Looking for an unprotected packet, when the decoder decides alike. -/
theorem stepUnprotected_append (hb : b₂.buf = b.buf ++ d)
    (hsame : initialDecision b₂.buf u.config.packet = initialDecision b.buf u.config.packet) :
    Extended d (stepUnprotected C u s b) (stepUnprotected C u s b₂) := by
  rw [stepUnprotected, stepUnprotected, decodeInitialPacket_eq, decodeInitialPacket_eq, hsame,
    ok_bind, ok_bind]
  split
  · exact .ok _ _ _ _ hb
  · exact .ok _ _ _ _ hb
  rename_i packet hpacket
  obtain ⟨-, hle, -⟩ := initialDecision_complete hpacket
  obtain ⟨c, c₂, hc, hc₂, hrest⟩ := consume_append hb hle
  split
  · exact .ok _ _ _ _ hb
  simp only [hc, hc₂]
  split
  · exact .ok _ _ _ _ hb
  cases addUsize s.preKexPackets 1 with
  | error p => exact .error p
  | ok =>
    simp only [ok_bind]
    split
    · exact .ok _ _ _ _ hrest
    · exact .state _ hrest _

/-- Handling what was opened does not see what follows it. -/
theorem stepOpened_append {result : Except OpenError OpenStep} (hb : b₂.buf = b.buf ++ d)
    (hfit : ∀ payload totalLen, result = .ok (.packet payload totalLen) →
      totalLen ≤ b.buf.length) :
    Extended d (stepOpened C u result s b) (stepOpened C u result s b₂) := by
  rw [stepOpened.eq_def, stepOpened.eq_def]
  split
  · exact .ok _ _ _ _ hb
  · exact .ok _ _ _ _ hb
  · exact .ok _ _ _ _ hb
  rename_i payload totalLen
  obtain ⟨c, c₂, hc, hc₂, hrest⟩ := consume_append hb (hfit payload totalLen rfl)
  simp only [hc, hc₂, ok_bind]
  split
  · exact .ok _ _ _ _ hrest
  cases add (2 ^ 32) s.protectedReceived 1 with
  | error p => exact .error p
  | ok =>
    simp only [ok_bind]
    split
    · exact .ok _ _ _ _ hrest
    · exact .state _ hrest _

/-- Looking for a protected packet, when opening decides alike. -/
theorem stepProtected_append (hb : b₂.buf = b.buf ++ d)
    (hsame : ∀ a, s.recvAead = some a → openDecision C a b₂.buf u.config.packet =
      { openDecision C a b.buf u.config.packet with
        buf := (openDecision C a b.buf u.config.packet).buf ++ d }) :
    Extended d (stepProtected C u s b) (stepProtected C u s b₂) := by
  rw [stepProtected, stepProtected]
  cases haead : s.recvAead with
  | none => exact .error _
  | some a =>
    rw [expect_some, ok_bind, ok_bind, openPacket_eq,
      openPacket_eq, ok_bind, ok_bind, hsame a haead]
    have hlen := length_openDecision C a b.buf u.config.packet
    have hfit : ∀ payload totalLen, (openDecision C a b.buf u.config.packet).result =
        .ok (.packet payload totalLen) → totalLen ≤ b.buf.length :=
      fun _ _ => le_of_openDecision
    generalize openDecision C a b.buf u.config.packet = opened at *
    obtain ⟨c, hc⟩ : ∃ c, b.overwriteWith opened.buf = .ok c := ⟨_, dif_pos hlen⟩
    have hlen₂ : (opened.buf ++ d).length = b₂.buf.length := by
      rw [hb, List.length_append, List.length_append, hlen]
    obtain ⟨c₂, hc₂⟩ : ∃ c₂, b₂.overwriteWith (opened.buf ++ d) = .ok c₂ := ⟨_, dif_pos hlen₂⟩
    have hrest : c₂.buf = c.buf ++ d := by
      rw [(overwriteWith_ok_iff.mp hc₂).2.1, (overwriteWith_ok_iff.mp hc).2.1]
    rw [hc, hc₂, ok_bind, ok_bind]
    refine stepOpened_append hrest fun payload totalLen h => ?_
    rw [(overwriteWith_ok_iff.mp hc).2.1, hlen]
    exact hfit payload totalLen h

/-- The answer of an attempt is extended with the attempt. -/
theorem Extended.ofFlow {x x₂ : Checked (Flow × State × InputBuffer)} (h : Extended d x x₂) :
    Extended d (Tcp.ofFlow <$> x) (Tcp.ofFlow <$> x₂) := by
  cases h with
  | error p => exact .error p
  | ok flow _ _ _ h =>
    cases flow with
    | again => exact .ok _ _ _ _ h
    | needMore => exact .ok _ _ _ _ h

/-- A phase that reads lines has room for the four bytes that tell one from the other. -/
def State.LongLines (s : State) : Prop :=
  s.phase = .serverIdentification → 4 ≤ s.identReader.limits.maxLine

/-- **More input changes no round** that does not ask for it. -/
theorem round_append (hlines : s.LongLines) (hb : b₂.buf = b.buf ++ d)
    (hmore : d = [] ∨ ∀ s' b', round C u s b ≠ .ok (some .needMore, s', b')) :
    Extended d (round C u s b) (round C u s b₂) := by
  have hbuf (hnil : d = []) : b₂.buf = b.buf := by rw [hb, hnil, List.append_nil]
  rw [round, round]
  rw [round] at hmore
  split at hmore
  · exact .ok _ _ _ _ hb
  split at hmore
  · rename_i hout
    rw [if_pos hout, if_pos hout]
    exact .ok _ _ _ _ hb
  rename_i hout
  rw [if_neg hout, if_neg hout]
  split at hmore
  · exact .ok _ _ _ _ hb
  have hkex (hmore : d = [] ∨ ∀ s' b', ofFlow <$> stepUnprotected C u s b ≠
      .ok (some .needMore, s', b')) :
      Extended d (ofFlow <$> stepUnprotected C u s b) (ofFlow <$> stepUnprotected C u s b₂) := by
    refine (stepUnprotected_append hb ?_).ofFlow
    rcases hmore with hnil | hmore
    · rw [hbuf hnil]
    rw [hb]
    refine initialDecision_append (fun t hneed => hmore s b ?_) d
    rw [stepUnprotected, decodeInitialPacket_eq, hneed]
    rfl
  split at hmore
  · rename_i hphase
    refine (stepIdentification_append hb ?_).ofFlow
    rcases hmore with hnil | hmore
    · rw [hbuf hnil]
    rw [hb]
    refine IdentificationReader.feed_append _ (hlines hphase) (fun hneed => ?_) d
    refine hmore { s with identReader := (s.identReader.feed b.buf).2 } b ?_
    rw [stepIdentification, ← Prod.mk.eta (p := s.identReader.feed b.buf), hneed]
    rfl
  · exact hkex hmore
  · exact hkex hmore
  · exact hkex hmore
  · cases s.identity with
    | none => exact .error _
    | some => exact .ok _ _ _ _ hb
  · refine (stepProtected_append hb fun a haead => ?_).ofFlow
    rcases hmore with hnil | hmore
    · rw [hbuf hnil, hnil, List.append_nil]
    rw [hb]
    refine openDecision_append C a (fun t hneed => ?_) d
    obtain ⟨c, hc⟩ : ∃ c, b.overwriteWith
        (openDecision C a b.buf u.config.packet).buf = .ok c :=
      ⟨_, dif_pos (length_openDecision C a b.buf u.config.packet)⟩
    refine hmore (s.recordOpening a
      (openDecision C a b.buf u.config.packet).aead) c ?_
    rw [stepProtected, haead, expect_some, ok_bind, openPacket_eq,
      ok_bind, hc, ok_bind, hneed]
    rfl
  · exact .error _

/-! ### The driver -/

/-- How a driven handshake ended. -/
inductive Driven where
  /-- There is an outcome; with it the final report and everything that was sent. -/
  | done (outcome : HandshakeOutcome) (report : HandshakeReport) (output : Bytes)
  | panicked (p : Panic)
  /-- A piece of the input was empty, or larger than the room for it. -/
  | badChunk
  | outOfFuel
  deriving DecidableEq

/-- The outcome of a handshake that ended. -/
def Driven.outcome : Driven → Option HandshakeOutcome
  | .done o _ _ => some o
  | _ => none

/-- A handshake with an outcome is done. -/
theorem Driven.eq_done {r : Driven} {o : HandshakeOutcome} (h : r.outcome = some o) :
    ∃ report output, r = .done o report output := by
  cases r with
  | done _ report output =>
    cases h
    exact ⟨report, output, rfl⟩
  | _ => cases h

/-- The end of a driven handshake. -/
def conclude (u : Setup) (o : HandshakeOutcome) (s : State) (output : Bytes) : Driven :=
  match report u s with
  | .error p => .panicked p
  | .ok r => .done o r output

/-- Drives a handshake: takes the output whenever there is some, answers the trust question by
`policy`, feeds a piece of the input whenever more is needed, and ends the input after the last
one. `output` is what has been sent so far. -/
def drive (C : Crypto) (policy : HostIdentityOwned → TrustDecision) :
    Nat → ClientHandshake → List Bytes → Bytes → Driven
  | 0, _, _, _ => .outOfFuel
  | fuel + 1, h, chunks, output =>
    match h.step C with
    | .error p => .panicked p
    | .ok (.finished o, h) => conclude h.setup o h.state output
    | .ok (.send, h) => drive C policy fuel h.takeOutput.2 chunks (output ++ h.takeOutput.1)
    | .ok (.trustDecisionRequired identity, h) =>
      match provideTrust C (policy identity) h.state with
      | .error p => .panicked p
      | .ok state => drive C policy fuel { h with state } chunks output
    | .ok (.needMore, h) =>
      match chunks with
      | [] => conclude h.setup h.inputEnded.1 h.inputEnded.2.state output
      | chunk :: chunks =>
        if chunk = [] ∨ h.room < chunk.length then .badChunk
        else drive C policy fuel (h.feed chunk) chunks output

/-- What is left to do in a state, input apart: an open outcome or trust question weighs more than
the output an answer to it queues. -/
def State.weight (s : State) : Nat :=
  (if s.out = [] then 0 else 1) + (if s.phase = .trustDecision then 2 else 0) +
    if s.outcome = none then 2 else 0

/-- What bounds the calls of a driver. Input weighs more than all that one packet can cause, and a
little less once it is in the buffer. -/
def driveRank (h : ClientHandshake) (chunks : List Bytes) : Nat :=
  7 * chunks.flatten.length + 6 * h.buf.buf.length + h.state.weight

/-- Drives a handshake to its end. -/
def ClientHandshake.driven (C : Crypto) (policy : HostIdentityOwned → TrustDecision)
    (h : ClientHandshake) (chunks : List Bytes) : Driven :=
  drive C policy (driveRank h chunks + 1) h chunks []

/-! ### The driven handshake as a reactor -/

/-- A buffer that holds just these bytes. -/
def InputBuffer.full (w : Bytes) : InputBuffer := ⟨w, w.length, Nat.le_refl _⟩

theorem InputBuffer.full_consume {w : Bytes} {n : Nat} (hn : n ≤ w.length) :
    ∃ b, (InputBuffer.full w).consume n = .ok b ∧ b.buf = w.drop n :=
  ⟨_, if_pos hn, rfl⟩

section Turns

variable (C u) (policy : HostIdentityOwned → TrustDecision)

/-- What the driver makes of a round. -/
def answerRound (output : Bytes) : Checked (Option Step × State × InputBuffer) →
    Turn (State × Bytes) UInt8 Driven
  | .error p => .stop (.panicked p)
  | .ok (none, s, b) => .go (s, output) b.buf
  | .ok (some (.finished o), s, _) => .stop (conclude u o s output)
  | .ok (some .send, s, b) =>
    .go ({ s with out := [], hist := { s.hist with taken := s.hist.taken ++ s.out } },
      output ++ s.out) b.buf
  | .ok (some (.trustDecisionRequired identity), s, b) =>
    match provideTrust C (policy identity) s with
    | .error p => .stop (.panicked p)
    | .ok s => .go (s, output) b.buf
  | .ok (some .needMore, _, _) => .wait

/-- One round and the driver's answer to it, in a state and with the output so far. -/
def turn (x : State × Bytes) (w : Bytes) : Turn (State × Bytes) UInt8 Driven :=
  answerRound C u policy x.2 (round C u x.1 (.full w))

/-- The end of the input. -/
def turnEnded (x : State × Bytes) : Driven :=
  let ended := (mk u x.1 (.full [])).inputEnded
  conclude u ended.1 ended.2.state x.2

end Turns

/-- A report can always be made of a machine that was built, and shows what was observed. -/
theorem conclude_eq_done {u : Setup} (hline : ∃ content,
      u.clientLine = content ++ [0x0d, 0x0a] ∧ u.clientLine.length ≤ maxIdentificationLine)
    (o : HandshakeOutcome) (s : State) (output : Bytes) :
    ∃ report, conclude u o s output = .done o report output ∧
      report.advertisedServer = s.serverKexinit ∧ report.serverPreludeLines = s.preludeLines ∧
      report.serverIdentification = s.serverIdent ∧ report.skippedMessages = s.skipped := by
  obtain ⟨vC, hvC, -⟩ := clientIdentificationLine_returns hline
  rw [conclude, report, hvC]
  exact ⟨_, rfl, rfl, rfl, rfl, rfl⟩

section Rounds

variable {policy : HostIdentityOwned → TrustDecision} {output : Bytes}

/-- A phase that reads unprotected packets looks for one. -/
theorem round_of_isKex {b : InputBuffer} (hidle : s.Idle) (hphase : s.phase.isKex = true) :
    round C u s b = ofFlow <$> stepUnprotected C u s b := by
  rw [round, hidle.outcome, hidle.pendingOutcome]
  simp only [hidle.out, ne_eq, not_true_eq_false, if_false]
  cases hp : s.phase with
  | serverKexInit => rfl
  | ecdhReply => rfl
  | serverNewKeys => rfl
  | serverIdentification | trustDecision | service | finished => rw [hp] at hphase; cases hphase

/-- While lines are read, a round looks for one. -/
theorem round_of_line {b : InputBuffer} (hidle : s.Idle)
    (hphase : s.phase = .serverIdentification) :
    round C u s b = ofFlow <$> stepIdentification s b := by
  rw [round, hidle.outcome, hidle.pendingOutcome, hphase]
  simp only [hidle.out, ne_eq, not_true_eq_false, if_false]

/-- The driver goes on where the loop does. -/
theorem answerRound_again {w : Bytes} (hrest : b.buf = w) :
    answerRound C u policy output (ofFlow <$> .ok (.again, s, b)) = .go (s, output) w :=
  congrArg (Turn.go (s, output)) hrest

/-- A packet within the budgets is taken, counted and handled. -/
theorem turn_accepted {packet : InitialPacket} {w : Bytes} (hidle : s.Idle)
    (hphase : s.phase.isKex = true)
    (hdecision : initialDecision w u.config.packet = .ok (.complete packet))
    (hpackets : s.preKexPackets < u.config.maxPreKexPackets.toNat)
    (hbytes : saturatingAdd s.preKexBytes packet.totalLen ≤ u.config.maxPreKexBytes.toNat)
    (hgoes : ¬(s.take packet.payload
      (saturatingAdd s.preKexBytes packet.totalLen)).Wraps)
    (hhandled : handleUnprotected C u packet.payload (s.take packet.payload
      (saturatingAdd s.preKexBytes packet.totalLen)).count = .ok s') :
    turn C u policy (s, output) w = .go (s', output) (w.drop packet.totalLen) := by
  have hfull : initialDecision (InputBuffer.full w).buf u.config.packet = _ := hdecision
  have hmax := u.config.maxPreKexPackets.toNat_lt
  obtain ⟨b', hconsume, hrest⟩ :=
    InputBuffer.full_consume (initialDecision_complete hdecision).2.1
  rw [turn, round_of_isKex hidle hphase, stepUnprotected, decodeInitialPacket_eq, hfull,
    ok_bind]
  simp only
  rw [if_neg (Nat.not_le.mpr hpackets), if_neg (Nat.not_lt.mpr hbytes),
    addUsize_ok (by omega), ok_bind, hconsume, ok_bind]
  rcases State.bumpSequence_receive _ with ⟨hwraps, -⟩ | ⟨-, hbump⟩
  · exact absurd hwraps hgoes
  rw [State.take] at hbump hhandled
  simp only [hbump]
  rw [hhandled]
  exact answerRound_again hrest

/-- Queued output is sent before anything else happens. -/
theorem turn_send (hnone : s.outcome = none) (hout : s.out ≠ []) (w : Bytes) :
    turn C u policy (s, output) w =
      .go ({ s with out := [], hist := { s.hist with taken := s.hist.taken ++ s.out } },
        output ++ s.out) w := by
  have hround : round C u s (.full w) = .ok (some .send, s, .full w) := by
    rw [round]
    split
    · rename_i o ho
      rw [hnone] at ho
      cases ho
    · rw [if_pos hout]
      rfl
  rw [turn, hround]
  rfl

/-- Where there is an outcome, the driver ends with it. -/
theorem turn_finished {o : HandshakeOutcome} (h : s.outcome = some o) (w : Bytes) :
    turn C u policy (s, output) w = .stop (conclude u o s output) := by
  have hround : round C u s (.full w) = .ok (some (.finished o), s, .full w) := by
    rw [round, h]
    rfl
  rw [turn, hround]
  rfl

/-- A driver stops in a state with an outcome, or for a panic. -/
theorem outcome_of_stop {r : Driven} {w : Bytes} (hs : Sound C u s)
    (hstop : turn C u policy (s, output) w = .stop r) :
    (∃ p, r = .panicked p) ∨ ∃ o, s.outcome = some o ∧ r = conclude u o s output := by
  rw [turn] at hstop
  match hround : round C u s (.full w) with
  | .error p =>
    rw [hround] at hstop
    cases hstop
    exact .inl ⟨p, rfl⟩
  | .ok (answer, s', b') =>
    rw [hround] at hstop
    cases hs.basic.round_cases hround with
    | finished o h =>
      cases hstop
      exact .inr ⟨o, h, rfl⟩
    | again | send | needMore => cases hstop
    | ask identity =>
      rw [answerRound] at hstop
      cases hstate : provideTrust C (policy identity) s with
      | error p =>
        rw [hstate] at hstop
        cases hstop
        exact .inl ⟨p, rfl⟩
      | ok =>
        rw [hstate] at hstop
        cases hstop

end Rounds

section Stability

variable {policy : HostIdentityOwned → TrustDecision} {output : Bytes}

/-- With long enough limits, a sound state has room for the bytes that tell lines apart. -/
theorem Sound.longLines (h : Sound C u s) (hmax : 4 ≤ u.config.ident.maxLine) : s.LongLines := by
  intro hphase
  rw [h.verification.limits hphase]
  exact hmax

/-- The driver answers alike, and leaves what follows. -/
theorem Extended.answer {x x₂ : Checked (Option Step × State × InputBuffer)}
    (h : Extended d x x₂) :
    answerRound C u policy output x₂ = (answerRound C u policy output x).extend d := by
  cases h with
  | error => rfl
  | ok answer _ _ _ hb =>
    match answer with
    | none => rw [answerRound, answerRound, Turn.extend, hb]
    | some .send => rw [answerRound, answerRound, Turn.extend, hb]
    | some (.finished o) => rfl
    | some .needMore => rfl
    | some (.trustDecisionRequired identity) =>
      rw [answerRound, answerRound]
      split
      · rfl
      · rw [Turn.extend, hb]

/-- A turn is the driver's answer to a round, whatever the capacity of the buffer. -/
theorem turn_eq (hs : Sound C u s) (hmax : 4 ≤ u.config.ident.maxLine) (b : InputBuffer)
    (output : Bytes) :
    turn C u policy (s, output) b.buf = answerRound C u policy output (round C u s b) := by
  have hsame : Extended [] (round C u s b) (round C u s (.full b.buf)) :=
    round_append (hs.longLines hmax) (List.append_nil _).symm (.inl rfl)
  rw [turn, hsame.answer, Turn.extend_nil]

/-- The answer to the trust question keeps the invariants. -/
theorem Sound.provideTrust {decision : TrustDecision} (hs : Sound C u s)
    (h : Tcp.provideTrust C decision s = .ok s') : Sound C u s' := by
  rcases provideTrust_cases (u := u) hs.basic.sendSeq_lt h with ⟨-, rfl⟩ | ⟨-, -, -, hmove⟩
  · exact hs
  · exact hs.move hmove

/-- Going on is a move, but for an answer that nobody asked for. -/
theorem move_of_go {r : Checked (Option Step × State × InputBuffer)} {y : State × Bytes}
    {w : Bytes} (hs : Sound C u s) (hround : round C u s b = r)
    (hgo : answerRound C u policy output r = .go y w) : y.1 = s ∨ Move C u s y.1 := by
  match r with
  | .error p => cases hgo
  | .ok (answer, s', b') =>
    cases hs.basic.round_cases hround with
    | again _ _ move =>
      cases hgo
      exact .inr move
    | send =>
      cases hgo
      exact .inr .takeOutput
    | finished => cases hgo
    | needMore => cases hgo
    | ask identity =>
      rw [answerRound] at hgo
      cases hstate : provideTrust C (policy identity) s with
      | error =>
        rw [hstate] at hgo
        cases hgo
      | ok =>
        rw [hstate] at hgo
        cases hgo
        rcases provideTrust_cases (u := u) hs.basic.sendSeq_lt hstate with
          ⟨-, rfl⟩ | ⟨-, -, -, hmove⟩
        · exact .inl rfl
        · exact .inr hmove

theorem sound_of_go {r : Checked (Option Step × State × InputBuffer)} {y : State × Bytes}
    {w : Bytes} (hs : Sound C u s) (hround : round C u s b = r)
    (hgo : answerRound C u policy output r = .go y w) : Sound C u y.1 := by
  rcases move_of_go hs hround hgo with hsame | hmove
  · exact hsame ▸ hs
  · exact hs.move hmove

/-- **No turn changes when more input follows.** -/
theorem stable_turn (hmax : 4 ≤ u.config.ident.maxLine) :
    Stable (turn C u policy) (fun x => Sound C u x.1) := by
  constructor
  · intro x y w w' hx hgo
    exact sound_of_go hx rfl hgo
  · intro x w hx htaken d
    -- a round that asks for more is one the driver waits after
    have hmore : Extended d (round C u x.1 (.full w)) (round C u x.1 (.full (w ++ d))) := by
      refine round_append (hx.longLines hmax) rfl (.inr fun s' b' hround => htaken ?_)
      rw [turn, hround]
      rfl
    exact hmore.answer

end Stability

/-! ### The driver runs the reactor -/

section Driving

variable {policy : HostIdentityOwned → TrustDecision} {output : Bytes} {chunks : List Bytes}
  {r : Driven} {fuel : Nat}

/-- The loop ends with the round that gives its answer. -/
theorem stepLoop_last {answer : Step} (hs : Sound C u s)
    (h : stepLoop C u fuel s b = .ok (answer, s', b')) :
    round C u s' b' = .ok (some answer, s', b') :=
  stepLoop_rule (P := fun _ _ => round C u s' b' = _) hs.basic h (fun _ hround => hround)
    fun _ _ hrest => hrest

/-- A round after which the loop goes on is a move. -/
theorem move_of_again (hs : Basic s) (h : round C u s b = .ok (none, s', b')) : Move C u s s' := by
  cases hs.round_cases h with
  | again _ _ move => exact move

/-- What the reactor does after the loop, it does before. -/
theorem chunked_of_stepLoop {answer : Step} (hmax : 4 ≤ u.config.ident.maxLine)
    (hs : Sound C u s) (h : stepLoop C u fuel s b = .ok (answer, s', b'))
    (rest : Chunked (turn C u policy) (turnEnded u) (s', output) b'.buf chunks r) :
    Chunked (turn C u policy) (turnEnded u) (s, output) b.buf chunks r := by
  refine stepLoop_rule (P := fun s b => Sound C u s →
    Chunked (turn C u policy) (turnEnded u) (s, output) b.buf chunks r) hs.basic h
    (fun _ _ _ => rest) ?_ hs
  intro s s₁ b b₁ hbasic hround hrest hs
  refine .go ?_ (hrest (hs.move (move_of_again hbasic hround)))
  rw [turn_eq hs hmax, hround]
  rfl

/-- A panic in the loop is a panic of a round. -/
theorem chunked_of_stepLoop_error {p : Panic} (hmax : 4 ≤ u.config.ident.maxLine)
    (hs : Sound C u s) (hfuel : rank s b < fuel) (h : stepLoop C u fuel s b = .error p) :
    Chunked (turn C u policy) (turnEnded u) (s, output) b.buf chunks (.panicked p) := by
  induction fuel generalizing s b with
  | zero => exact absurd hfuel (Nat.not_lt_zero _)
  | succ _ ih =>
    rw [stepLoop] at h
    cases hround : round C u s b with
    | error =>
      rw [hround] at h
      cases h
      refine .stop ?_
      rw [turn_eq hs hmax, hround]
      rfl
    | ok =>
      rw [hround, ok_bind] at h
      cases hs.basic.round_cases hround with
      | again _ _ move =>
        refine .go ?_ (ih (hs.move move) (by omega) h)
        rw [turn_eq hs hmax, hround]
        rfl
      | _ => cases h

theorem ClientHandshake.feed_fits {h : ClientHandshake} {chunk : Bytes}
    (hnone : h.state.outcome = none) (hroom : chunk.length ≤ h.room) :
    ∃ buf : InputBuffer, h.feed chunk = { h with buf } ∧ buf.buf = h.buf.buf ++ chunk := by
  have hfits : ¬h.buf.room < chunk.length := Nat.not_lt.mpr hroom
  rw [feed, hnone, InputBuffer.push, dif_neg hfits]
  exact ⟨_, rfl, rfl⟩

/-- A machine that needs more has no outcome. -/
theorem outcome_of_needMore (hs : Sound C u s)
    (h : round C u s b = .ok (some .needMore, s', b')) : s.outcome = none := by
  cases hs.basic.round_cases h with
  | needMore hidle => exact hidle.outcome

/-- A machine that sends has output. -/
theorem out_of_send (hs : Sound C u s) (h : round C u s b = .ok (some .send, s', b')) :
    s.out ≠ [] := by
  cases hs.basic.round_cases h with
  | send _ hout => exact hout

/-- The end of the input does not depend on the buffer. -/
theorem turnEnded_eq (h : ClientHandshake) (output : Bytes) :
    conclude h.setup h.inputEnded.1 h.inputEnded.2.state output =
      turnEnded h.setup (h.state, output) := by
  rw [turnEnded, inputEnded, inputEnded]
  cases h.state.outcome with
  | none => rfl
  | some => rfl

/-- **A driver runs the reactor.** -/
theorem drive_chunked {h : ClientHandshake} (hmax : 4 ≤ h.setup.config.ident.maxLine)
    (hs : Sound C h.setup h.state) (hdrive : drive C policy fuel h chunks output = r)
    (hbad : r ≠ .badChunk) (hend : r ≠ .outOfFuel) :
    Chunked (turn C h.setup policy) (turnEnded h.setup) (h.state, output) h.buf.buf chunks r := by
  induction fuel generalizing h chunks output with
  | zero => exact absurd hdrive.symm hend
  | succ _ ih =>
    rw [drive] at hdrive
    cases hloop : stepLoop C h.setup (rank h.state h.buf + 1) h.state h.buf with
    | error =>
      rw [step, hloop] at hdrive
      cases hdrive
      exact chunked_of_stepLoop_error hmax hs (Nat.lt_succ_self _) hloop
    | ok x =>
      obtain ⟨answer, state, buf⟩ := x
      rw [step, hloop, ok_bind] at hdrive
      refine chunked_of_stepLoop hmax hs hloop ?_
      have hlast := stepLoop_last hs hloop
      have hs' := hs.moves (stepLoop_moves hs.basic hloop).1
      have hturn : turn C h.setup policy (state, output) buf.buf =
          answerRound C h.setup policy output (.ok (some answer, state, buf)) := by
        rw [turn_eq hs' hmax, hlast]
      cases answer with
      | finished =>
        cases hdrive
        exact .stop hturn
      | send =>
        refine .go hturn ?_
        exact ih (h := { h with state := _, buf := buf }) hmax (hs'.move .takeOutput) hdrive
      | trustDecisionRequired identity =>
        simp only [pure, Except.pure] at hdrive
        rw [answerRound] at hturn
        cases hstate : provideTrust C (policy identity) state with
        | error =>
          rw [hstate] at hdrive hturn
          cases hdrive
          exact .stop hturn
        | ok state' =>
          rw [hstate] at hdrive hturn
          refine .go hturn ?_
          exact ih (h := { h with state := state', buf := buf }) hmax
            (hs'.provideTrust hstate) hdrive
      | needMore =>
        cases chunks with
        | nil =>
          have hr : turnEnded h.setup (state, output) = r :=
            (turnEnded_eq { h with state := state, buf := buf } output).symm.trans hdrive
          rw [← hr]
          exact .ended hturn
        | cons =>
          simp only [pure, Except.pure] at hdrive
          rcases ite_eq_iff.mp hdrive with ⟨-, hdrive⟩ | ⟨hgood, hdrive⟩
          · exact absurd hdrive.symm hbad
          obtain ⟨-, hroom⟩ := not_or.mp hgood
          obtain ⟨buf', hfeed, hbuf'⟩ := feed_fits
            (h := { h with state := state, buf := buf }) (outcome_of_needMore hs' hlast)
            (Nat.not_lt.mp hroom)
          refine .feed hturn ?_
          rw [← hbuf']
          exact ih (h := { h with state := state, buf := buf' }) hmax hs' (hfeed ▸ hdrive)

/-! ### The driver ends -/

theorem State.weight_le (s : State) : s.weight ≤ 5 := by
  rw [weight]
  repeat' split
  all_goals decide

/-- A state with an outcome weighs next to nothing. -/
theorem State.weight_of_outcome (hs : Basic s) (h : s.outcome ≠ none) : s.weight ≤ 1 := by
  have hphase : s.phase ≠ .trustDecision := by
    rw [hs.finished_iff.mpr h]
    decide
  rw [weight, if_neg h, if_neg hphase]
  split
  · decide
  · decide

theorem State.two_le_weight (h : s.outcome = none) : 2 ≤ s.weight := by
  rw [weight, if_pos h]
  exact Nat.le_add_left _ _

/-- A round makes what is left to do less. -/
theorem round_weight (hs : Sound C u s) (h : round C u s b = .ok (none, s', b')) :
    6 * b'.buf.length + s'.weight < 6 * b.buf.length + s.weight := by
  have hle := s'.weight_le
  cases hs.basic.round_cases h with
  | again hnone _ move _ hrank =>
    have htwo := State.two_le_weight hnone
    have hone : s'.outcome ≠ none → s'.weight ≤ 1 :=
      State.weight_of_outcome (hs.move move).basic
    rw [rank, rank, hnone] at hrank
    by_cases hend : s'.outcome = none
    · rw [hend] at hrank
      simp only [Option.isNone_none, if_true] at hrank
      omega
    · have := hone hend
      simp only [Option.isNone_none, if_true] at hrank
      omega

/-- `step` makes what is left to do no more. -/
theorem stepLoop_weight {answer : Step} (hs : Sound C u s)
    (h : stepLoop C u fuel s b = .ok (answer, s', b')) :
    6 * b'.buf.length + s'.weight ≤ 6 * b.buf.length + s.weight := by
  refine stepLoop_rule (P := fun s b => Sound C u s →
    6 * b'.buf.length + s'.weight ≤ 6 * b.buf.length + s.weight) hs.basic h
    (fun _ _ _ => Nat.le_refl _) ?_ hs
  intro s s₁ b b₁ hbasic hround hrest hs
  exact Nat.le_of_lt (Nat.lt_of_le_of_lt (hrest (hs.move (move_of_again hbasic hround)))
    (round_weight hs hround))

/-- Taking the output makes what is left to do less. -/
theorem takeOutput_weight {h : ClientHandshake} (hout : h.state.out ≠ []) :
    h.takeOutput.2.state.weight < h.state.weight := by
  rw [State.weight, State.weight, if_neg hout]
  change 0 + (if h.state.phase = .trustDecision then 2 else 0) +
    (if h.state.outcome = none then 2 else 0) < _
  omega

/-- The answer to the trust question makes what is left to do less. -/
theorem provideTrust_weight {identity : HostIdentityOwned} {decision : TrustDecision}
    (hs : Sound C u s) (hround : round C u s b = .ok (some (.trustDecisionRequired identity), s, b))
    (h : provideTrust C decision s = .ok s') : s'.weight < s.weight := by
  cases hs.basic.round_cases hround with
  | ask _ hidle hphase =>
    have hfour : s.weight = 4 := by
      rw [State.weight, hidle.out, hidle.outcome, hphase]
      rfl
    rcases provideTrust_cases (u := u) hs.basic.sendSeq_lt h with
      ⟨hother, -⟩ | ⟨-, htrust, -, hmove⟩
    · exact absurd hphase hother
    have hs' := hs.move hmove
    by_cases hend : s'.outcome = none
    swap
    · have := State.weight_of_outcome hs'.basic hend
      omega
    cases decision with
    | untrusted =>
      rw [provideTrust, if_neg (not_not.mpr hphase)] at h
      cases h
      cases hend
    | trusted source =>
      -- our `NEWKEYS` is queued, so the question is closed
      have hsent := hs'.output.trust.mpr ⟨source, htrust⟩
      have hclosed : s'.phase ≠ .trustDecision := by
        rcases (hs'.basic.sent_iff (hs'.basic.phase_ne hend)).mp hsent with hnext | hnext
        · rw [hnext]
          decide
        · rw [hnext]
          decide
      rw [hfour, State.weight, if_neg hclosed, if_pos hend]
      split
      · decide
      · decide

/-- A driver that concludes had fuel, and no bad piece. -/
theorem conclude_ne (u : Setup) (o : HandshakeOutcome) (s : State) (output : Bytes) :
    conclude u o s output ≠ .outOfFuel ∧ conclude u o s output ≠ .badChunk := by
  rw [conclude]
  split <;> exact ⟨nofun, nofun⟩

/-- **A driver ends.** -/
theorem drive_ne_outOfFuel {h : ClientHandshake} (hs : Sound C h.setup h.state)
    (hfuel : driveRank h chunks < fuel) : drive C policy fuel h chunks output ≠ .outOfFuel := by
  induction fuel generalizing h chunks output with
  | zero => exact absurd hfuel (Nat.not_lt_zero _)
  | succ fuel ih =>
    rw [drive]
    cases hloop : stepLoop C h.setup (rank h.state h.buf + 1) h.state h.buf with
    | error =>
      rw [step, hloop]
      exact Driven.noConfusion
    | ok x =>
      obtain ⟨answer, state, buf⟩ := x
      rw [step, hloop, ok_bind]
      have hlast := stepLoop_last hs hloop
      have hs' := hs.moves (stepLoop_moves hs.basic hloop).1
      have hweight := stepLoop_weight hs hloop
      rw [driveRank] at hfuel
      cases answer with
      | finished => exact (conclude_ne _ _ _ _).1
      | send =>
        have hless :
            (mk h.setup state buf).takeOutput.2.state.weight < state.weight :=
          takeOutput_weight (out_of_send hs' hlast)
        refine ih (hs'.move .takeOutput) ?_
        change 7 * chunks.flatten.length + 6 * buf.buf.length +
          (mk h.setup state buf).takeOutput.2.state.weight < fuel
        omega
      | trustDecisionRequired identity =>
        simp only [pure, Except.pure]
        cases hstate : provideTrust C (policy identity) state with
        | error => simp
        | ok state' =>
          have hless := provideTrust_weight hs' hlast hstate
          refine ih (h := { h with state := state', buf := buf }) (hs'.provideTrust hstate) ?_
          rw [driveRank]
          simp only
          omega
      | needMore =>
        cases chunks with
        | nil => exact (conclude_ne _ _ _ _).1
        | cons chunk chunks =>
          simp only [pure, Except.pure]
          split
          · simp
          rename_i hgood
          obtain ⟨hne, hroom⟩ := not_or.mp hgood
          obtain ⟨buf', hfeed, hbuf'⟩ := feed_fits
            (h := { h with state := state, buf := buf }) (outcome_of_needMore hs' hlast)
            (Nat.not_lt.mp hroom)
          rw [hfeed]
          refine ih (h := { h with state := state, buf := buf' }) hs' ?_
          have hpos := List.length_pos_iff.mpr hne
          rw [driveRank]
          rw [List.flatten_cons, List.length_append] at hfuel
          simp only [hbuf', List.length_append]
          omega

/-- With bounded limits, no turn panics. -/
theorem turn_ne_panicked (hu : u.Bounded) (hs : Sound C u s) (w : Bytes) (p : Panic) :
    turn C u policy (s, output) w ≠ .stop (.panicked p) := by
  obtain ⟨r, hround⟩ := round_returns (C := C) (b := .full w) hu (hs.ready hu)
  rw [turn, hround]
  cases hs.basic.round_cases hround with
  | finished o =>
    obtain ⟨report, hdone, -⟩ := conclude_eq_done hu.clientLine o s output
    rw [answerRound, hdone]
    nofun
  | ask identity =>
    obtain ⟨state, hstate⟩ := hs.provideTrust_returns (policy identity)
    rw [answerRound, hstate]
    nofun
  | _ => nofun

end Driving

/-! ### Chunking invariance -/

section Invariance

variable {ρ ε : Type} {tryFillBytes : (n : Nat) → ρ → Except ε (ByteVec n × ρ)}
  {config : HandshakeConfig} {rng : ρ} {provider : Option SignatureProvider} {h : ClientHandshake}
  {policy : HostIdentityOwned → TrustDecision}

/-- Driving what `build` returned runs the reactor on the whole stream. -/
theorem Built.driven_whole {chunks : List Bytes} (hb : Built C config provider h)
    (hline : 4 ≤ config.ident.maxLine) (hfit : h.driven C policy chunks ≠ .badChunk) :
    Whole (turn C h.setup policy) (turnEnded h.setup) (h.state, []) chunks.flatten
      (h.driven C policy chunks) := by
  have hmax : 4 ≤ h.setup.config.ident.maxLine := by
    rw [hb.config_eq]
    exact hline
  have hend : h.driven C policy chunks ≠ .outOfFuel :=
    drive_ne_outOfFuel hb.sound (Nat.lt_succ_self _)
  have hchunked := (drive_chunked hmax hb.sound rfl hfit hend).whole (stable_turn hmax) hb.sound
  obtain ⟨capacity, -, hbuf⟩ := hb.buf
  rwa [hbuf] at hchunked

/-- **How the stream is cut does not matter.** If both ways of cutting it respect the room at every
turn, the driver ends, and it ends alike: with the same outcome, final report and output, or with
the same panic, which limits that fit 32 bits rule out. -/
theorem chunking_invariance
    (hline : 4 ≤ max config.ident.maxPreludeLine.toNat config.ident.maxIdentificationLine.toNat)
    (hb : build C tryFillBytes config rng provider = .ok (.ok h)) {chunks₁ chunks₂ : List Bytes}
    (hsame : chunks₁.flatten = chunks₂.flatten) (hfit₁ : h.driven C policy chunks₁ ≠ .badChunk)
    (hfit₂ : h.driven C policy chunks₂ ≠ .badChunk) :
    h.driven C policy chunks₁ = h.driven C policy chunks₂ ∧
    h.driven C policy chunks₁ ≠ .outOfFuel ∧
    (config.ident.maxIdentificationLine.toNat < 2 ^ 32 → config.service.length < 2 ^ 32 →
      config.maxProtectedPackets.toNat < 2 ^ 32 →
      ∃ outcome report output, h.driven C policy chunks₁ = .done outcome report output) := by
  have hbuilt := build_ok hb
  have hwhole := hbuilt.driven_whole hline hfit₁
  rw [hsame] at hwhole
  have hend : h.driven C policy chunks₁ ≠ .outOfFuel :=
    drive_ne_outOfFuel hbuilt.sound (Nat.lt_succ_self _)
  refine ⟨hwhole.unique (hbuilt.driven_whole hline hfit₂), hend, fun hident hservice hpackets => ?_⟩
  have hu := hbuilt.bounded hident hservice hpackets
  have hdone (o : HandshakeOutcome) (s : State) (output : Bytes) :
      ∃ outcome report output', conclude h.setup o s output = .done outcome report output' := by
    obtain ⟨report, heq, -⟩ := conclude_eq_done hu.clientLine o s output
    exact ⟨o, report, output, heq⟩
  refine hwhole.result (I := fun x => Sound C h.setup x.1)
    (P := fun r => ∃ outcome report output, r = .done outcome report output) hbuilt.sound ?_ ?_ ?_
  · rintro ⟨s, output⟩ y w w' hs hgo
    exact sound_of_go hs rfl hgo
  · rintro ⟨s, output⟩ w r hs hstop
    rcases outcome_of_stop hs hstop with ⟨p, rfl⟩ | ⟨o, -, rfl⟩
    · exact absurd hstop (turn_ne_panicked hu hs w p)
    · exact hdone o s output
  · intro x _
    exact hdone _ _ _

/-- The reference client completes alike on everything the server sends in one piece and in two. -/
theorem chunking_invariance_reference : ∃ report output,
    client.driven reference (fun _ => .trusted .pinnedFingerprint) [stream] =
      .done .completed report output ∧
    client.driven reference (fun _ => .trusted .pinnedFingerprint)
      [stream.take 300, stream.drop 300] = .done .completed report output := by
  have hsame : client.driven reference (fun _ => .trusted .pinnedFingerprint)
      [stream] = client.driven reference
        (fun _ => .trusted .pinnedFingerprint)
        [stream.take 300, stream.drop 300] :=
    (chunking_invariance (by decide) build_client (by simp) (by decide +kernel)
      (by decide +kernel)).1
  rw [← hsame]
  obtain ⟨report, output, hdone⟩ := Driven.eq_done (o := .completed)
    (show (client.driven reference (fun _ => .trusted .pinnedFingerprint)
      [stream]).outcome = some .completed by decide +kernel)
  exact ⟨report, output, hdone, hdone⟩

end Invariance

end Tatami.Tcp
