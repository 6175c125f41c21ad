import Tatami.Lib.Run
import Tatami.Tcp.Handshake.Rounds

/-! # The basic invariant, and calls as moves

`Basic` says how phase, outcome, pending outcome and the number of queued messages go together; it
holds in every reachable state (`Basic.move`) and gives the counters the room the inversion lemmas
ask for. With it, a `step` that returns is a sequence of moves (`stepLoop_moves`). -/

namespace Tatami.Tcp

open Tatami.Wire Tatami.Keys

/-- How many messages have been queued by the time a phase is reached. -/
def Phase.queued : Phase → Nat
  | .serverIdentification => 2
  | .serverKexInit => 2
  | .ecdhReply => 3
  | .trustDecision => 3
  | .serverNewKeys => 4
  | .service => 5
  | .finished => 0

/-- How phase, outcome and counters go together. -/
structure Basic (s : State) : Prop where
  finished_iff : s.phase = .finished ↔ s.outcome ≠ none
  pending : ∀ o, s.pendingOutcome = some o → s.phase = .service ∧ o.isFailure = false
  queued : s.phase ≠ .finished → s.hist.queued.length =
    s.phase.queued + if s.pendingOutcome = none then 0 else 1
  queued_le : s.hist.queued.length ≤ 6
  sendSeq_le : s.sendSeq ≤ s.hist.queued.length
  protectedSent_le : s.protectedSent ≤ s.hist.queued.length
  sent_iff : s.phase ≠ .finished →
    (s.newkeysSent = true ↔ s.phase = .serverNewKeys ∨ s.phase = .service)
  received_iff : s.phase ≠ .finished → (s.newkeysReceived = true ↔ s.phase = .service)

namespace Basic

variable {C : Crypto} {u : Setup} {payload : Bytes} {s s' : State}

/-- A phase before the end goes with no outcome. -/
theorem outcome_eq_none (hs : Basic s) (h : s.phase ≠ .finished) : s.outcome = none :=
  not_not.mp (mt hs.finished_iff.mpr h)

/-- No outcome goes with a phase before the end. -/
theorem phase_ne (hs : Basic s) (h : s.outcome = none) : s.phase ≠ .finished := by
  intro hphase
  exact hs.finished_iff.mp hphase h

theorem sendSeq_lt (hs : Basic s) : s.sendSeq + 1 < 2 ^ 32 := by
  have h₁ := hs.sendSeq_le
  have h₂ := hs.queued_le
  omega

/-- The counter of protected packets has room. -/
theorem protectedSent_lt (hs : Basic s) : s.protectedSent + 1 < 2 ^ 32 := by
  have h₁ := hs.protectedSent_le
  have h₂ := hs.queued_le
  omega

/-- A finished state is basic if it queued no more and counted no more. -/
theorem ended {o : HandshakeOutcome} (hs : Basic s) (hphase : s'.phase = .finished)
    (houtcome : s'.outcome = some o) (hpending : s'.pendingOutcome = none)
    (hqueued : s'.hist.queued = s.hist.queued) (hseq : s'.sendSeq = s.sendSeq)
    (hsent : s'.protectedSent = s.protectedSent) : Basic s' where
  finished_iff := by simp [hphase, houtcome]
  pending := by simp [hpending]
  queued := fun h => absurd hphase h
  queued_le := hqueued ▸ hs.queued_le
  sendSeq_le := by rw [hseq, hqueued]; exact hs.sendSeq_le
  protectedSent_le := by rw [hsent, hqueued]; exact hs.protectedSent_le
  sent_iff := fun h => absurd hphase h
  received_iff := fun h => absurd hphase h

theorem failed (hs : Basic s) (h : Failed s s') : Basic s' := by
  obtain ⟨o, ho, -⟩ := h.outcome
  exact hs.ended h.phase ho h.pendingOutcome (by rw [h.hist]) h.sendSeq h.protectedSent

/-- A state before the end is basic if its counts fit its phase. -/
theorem ongoing (hphase : s'.phase ≠ .finished) (hnone : s'.outcome = none)
    (hpending : ∀ o, s'.pendingOutcome = some o → s'.phase = .service ∧ o.isFailure = false)
    (hqueued : s'.hist.queued.length =
      s'.phase.queued + if s'.pendingOutcome = none then 0 else 1)
    (hseq : s'.sendSeq ≤ s'.hist.queued.length) (hsent : s'.protectedSent ≤ s'.hist.queued.length)
    (hsentIff : s'.newkeysSent = true ↔ s'.phase = .serverNewKeys ∨ s'.phase = .service)
    (hreceivedIff : s'.newkeysReceived = true ↔ s'.phase = .service) : Basic s' where
  finished_iff := by simp [hphase, hnone]
  pending := hpending
  queued := fun _ => hqueued
  queued_le := by
    rw [hqueued]
    cases hp : s'.phase <;> simp only [Phase.queued] <;> split <;> simp
  sendSeq_le := hseq
  protectedSent_le := hsent
  sent_iff := fun _ => hsentIff
  received_iff := fun _ => hreceivedIff

/-- Taking and counting a packet changes nothing the invariant speaks of. -/
theorem taken (hs : Basic s) (payload : Bytes) (bytes : Nat) : Basic (s.take payload bytes).count :=
  ⟨hs.finished_iff, hs.pending, hs.queued, hs.queued_le, hs.sendSeq_le, hs.protectedSent_le,
    hs.sent_iff, hs.received_iff⟩

/-- Opening and counting a packet changes nothing the invariant speaks of. -/
theorem opened (hs : Basic s) (a a' : AeadDirection) (payload : Bytes) :
    Basic ((s.takeOpened a a' payload).accept payload).count :=
  ⟨hs.finished_iff, hs.pending, hs.queued, hs.queued_le, hs.sendSeq_le, hs.protectedSent_le,
    hs.sent_iff, hs.received_iff⟩

theorem handled (hs : Basic s) (hidle : s.Idle) (h : Handled C u payload s s') : Basic s' := by
  have hne := hs.phase_ne hidle.outcome
  have hqueued := hs.queued hne
  have hseq := hs.sendSeq_le
  have hsent := hs.protectedSent_le
  have hsentIff := hs.sent_iff hne
  have hreceivedIff := hs.received_iff hne
  rw [if_pos hidle.pendingOutcome] at hqueued
  cases h with
  | failed h => exact hs.failed h
  | skipped | guess =>
    exact ⟨hs.finished_iff, hs.pending, hs.queued, hs.queued_le, hseq, hsent, hs.sent_iff,
      hs.received_iff⟩
  | kexinit _ _ _ _ _ hphase =>
    rw [hphase] at hqueued hsentIff hreceivedIff
    apply ongoing
    case hseq | hsent =>
      simp only [State.queueFramed, State.negotiate, List.length_append, List.length_singleton]
      omega
    all_goals simp_all [State.queueFramed, State.negotiate, Phase.queued, hidle.outcome,
      hidle.pendingOutcome]
  | reply _ _ _ hphase =>
    rw [hphase] at hqueued hsentIff hreceivedIff
    apply ongoing
    all_goals simp_all [State.verify, Phase.queued, hidle.outcome, hidle.pendingOutcome]
  | newkeys _ _ _ _ _ hphase =>
    rw [hphase] at hqueued hsentIff hreceivedIff
    apply ongoing
    case hseq | hsent =>
      simp only [State.queueSealed, State.protect, List.length_append, List.length_singleton]
      omega
    all_goals simp_all [State.queueSealed, State.protect, Phase.queued, hidle.outcome,
      hidle.pendingOutcome]
  | newkeysFailed =>
    exact hs.ended rfl rfl rfl rfl rfl rfl

theorem handledProtected (hs : Basic s) (hidle : s.Idle) (hphase : s.phase = .service)
    (h : HandledProtected C u payload s s') : Basic s' := by
  have hne := hs.phase_ne hidle.outcome
  have hqueued := hs.queued hne
  have hseq := hs.sendSeq_le
  have hsent := hs.protectedSent_le
  have hsentIff := hs.sent_iff hne
  have hreceivedIff := hs.received_iff hne
  rw [if_pos hidle.pendingOutcome, hphase] at hqueued
  rw [hphase] at hsentIff hreceivedIff
  cases h with
  | failed h => exact hs.failed h
  | skipped | extInfo =>
    exact ⟨hs.finished_iff, hs.pending, hs.queued, hs.queued_le, hseq, hsent, hs.sent_iff,
      hs.received_iff⟩
  | accept | rekey =>
    apply ongoing
    case hseq | hsent =>
      simp only [State.queueSealed, List.length_append, List.length_singleton]
      omega
    all_goals simp_all [State.queueSealed, Phase.queued, hidle.outcome, HandshakeOutcome.isFailure]
  | sealFailed => exact hs.ended rfl rfl rfl rfl rfl rfl

/-- **Every move keeps the invariant.** -/
theorem move (hs : Basic s) (h : Move C u s s') : Basic s' := by
  cases h with
  | takeOutput | prelude =>
    exact ⟨hs.finished_iff, hs.pending, hs.queued, hs.queued_le, hs.sendSeq_le,
      hs.protectedSent_le, hs.sent_iff, hs.received_iff⟩
  | failed _ h => exact hs.failed h
  | distrust | adopt | wrapped | badPadding | overBudget | wrappedProtected =>
    exact hs.ended rfl rfl rfl rfl rfl rfl
  | trust _ _ _ _ hphase =>
    have hne : s.phase ≠ .finished := by rw [hphase]; decide
    have hpending : s.pendingOutcome = none := by
      cases hp : s.pendingOutcome with
      | none => rfl
      | some o =>
        have := (hs.pending o hp).1
        rw [hphase] at this
        cases this
    have hqueued := hs.queued hne
    have hsent := hs.protectedSent_le
    have hreceivedIff := hs.received_iff hne
    rw [hphase] at hqueued hreceivedIff
    apply ongoing
    all_goals simp_all [State.queueFramed, Phase.queued, hs.outcome_eq_none hne]
    · have := hs.sendSeq_le
      split <;> omega
    · omega
  | identified _ _ hidle hphase =>
    have hne := hs.phase_ne hidle.outcome
    have hqueued := hs.queued hne
    have hsentIff := hs.sent_iff hne
    have hreceivedIff := hs.received_iff hne
    have hseq := hs.sendSeq_le
    have hsent := hs.protectedSent_le
    rw [hphase] at hqueued hsentIff hreceivedIff
    apply ongoing
    all_goals simp_all [Phase.queued, hidle.outcome, hidle.pendingOutcome]
  | unprotected payload bytes hidle _ _ _ _ h =>
    exact (hs.taken payload bytes).handled { hidle with } h
  | protectedPacket a h payload hidle hphase _ _ _ _ hhandled =>
    exact (hs.opened a (a.advance h) payload).handledProtected
      { hidle with } hphase hhandled

end Basic

/-! ### Runs of moves -/

section Runs

variable {C : Crypto} {u : Setup} {s s' : State} {b b' : InputBuffer}

/-- Any number of moves. -/
def Moves (C : Crypto) (u : Setup) : State → State → Prop := Relation.ReflTransGen (Move C u)

theorem Basic.moves (hs : Basic s) (h : Moves C u s s') : Basic s' := by
  induction h with
  | refl => exact hs
  | tail _ hlast ih => exact ih.move hlast

/-- **Invariant rule**: what every move out of a basic state keeps holds after any number of
moves. -/
theorem Moves.invariant {I : State → Prop} (h : Moves C u s s') (hs : Basic s) (hinit : I s)
    (hmove : ∀ {t t' : State}, Basic t → I t → Move C u t t' → I t') : I s' := by
  induction h with
  | refl => exact hinit
  | tail hmoves hlast ih => exact hmove (hs.moves hmoves) ih hlast

/-- Inversion of a round out of a basic state. -/
theorem Basic.round_cases {r : Option Step × State × InputBuffer} (hs : Basic s)
    (h : round C u s b = .ok r) : RoundCase C u s b r :=
  (Tcp.round_cases hs.protectedSent_lt hs.sendSeq_lt h).1

/-- **Rule of the loop**: what holds at the round that answers, and goes back over the rounds before
it, holds where the loop begins. -/
theorem stepLoop_rule {fuel : Nat} {answer : Step} {P : State → InputBuffer → Prop} (hs : Basic s)
    (h : stepLoop C u fuel s b = .ok (answer, s', b'))
    (hlast : Basic s' → round C u s' b' = .ok (some answer, s', b') → P s' b')
    (hagain : ∀ {s s₁ b b₁}, Basic s → round C u s b = .ok (none, s₁, b₁) → P s₁ b₁ → P s b) :
    P s b := by
  induction fuel generalizing s b with
  | zero => cases h
  | succ _ ih =>
    rw [stepLoop] at h
    obtain ⟨r, hround, h⟩ := Checked.bind_ok_iff.mp h
    cases hs.round_cases hround with
    | again _ _ move => exact hagain hs hround (ih (hs.move move) h)
    | _ =>
      cases h
      exact hlast hs hround

/-- **The loop makes moves**, and ends in a state whose round answers at once. -/
theorem stepLoop_moves {fuel : Nat} {answer : Step} (hs : Basic s)
    (h : stepLoop C u fuel s b = .ok (answer, s', b')) :
    Moves C u s s' ∧ RoundCase C u s' b' (some answer, s', b') ∧ b'.capacity = b.capacity := by
  refine stepLoop_rule (P := fun s b => Moves C u s s' ∧ _ ∧ b'.capacity = b.capacity) hs h
    (fun hs' hround => ⟨.refl, hs'.round_cases hround, rfl⟩) ?_
  rintro s s₁ b b₁ hs hround ⟨hmoves, hlast, hcap⟩
  cases hs.round_cases hround with
  | again _ _ move _ _ hcapacity =>
    exact ⟨.head move hmoves, hlast, hcap.trans hcapacity⟩

end Runs

end Tatami.Tcp
