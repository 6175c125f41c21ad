import Tatami.Tcp.FlowControl
import Tatami.Tcp.Seam

/-! # The blocking driver

`run_handshake_on` drives a handshake over a socket until it ends, the deadline passes or the socket
fails. Whatever the socket and the clock do, the driver does what the pure one does with the pieces
it was given (`Drives`), so the pure one is a reference for it: it sends the same bytes, each once
and in order, and ends alike (`blocking_driver_refines`). -/

namespace Tatami.Tcp

open Tatami.Wire Tatami.Keys ClientHandshake Reference List

/-! ### The driver -/

/-- Why a run stopped, from the host's point of view. -/
inductive HandshakeEnd where
  /-- There is an outcome. -/
  | finished (outcome : HandshakeOutcome)
  /-- The deadline passed, with the phase and the bytes that were buffered. -/
  | timedOut (phase : Phase) (pendingBytes : Nat)
  /-- The socket failed. -/
  | io (phase : Phase) (error : SocketError)
  deriving DecidableEq

/-- How far a run has come. -/
inductive Ran where
  /-- It has not ended within the fuel. -/
  | running
  | panicked (p : Panic)
  | returned (ending : HandshakeEnd)
  deriving DecidableEq

/-- Bytes buffered but unconsumed. -/
def ClientHandshake.pendingBytes (h : ClientHandshake) : Nat := h.buf.buf.length

section Run

variable {σ : Type} (C : Crypto) (m : Seam σ) (policy : HostIdentity → TrustDecision)
  (deadline chunk : Nat)

/-- How a run ends for a socket error. -/
def endedFor (h : ClientHandshake) (e : SocketError) : HandshakeEnd :=
  if e.isTimeout then .timedOut h.phase h.pendingBytes else .io h.phase e

/-- The driver body: how far it came, the machine and the world afterwards. Reads are no larger than
`chunk`, and no larger than there is room for. -/
def runHandshakeOn : Nat → ClientHandshake → World σ → Ran × ClientHandshake × World σ
  | 0, h, w => (.running, h, w)
  | fuel + 1, h, w =>
    match h.step C with
    | .error p => (.panicked p, h, w)
    | .ok (.finished o, h) => (.returned (.finished o), h, w)
    | .ok (.send, h) =>
      let (out, h) := h.takeOutput
      match m.writeAllBy deadline fuel out w with
      | (none, w) => (.running, h, w)
      | (some (.ok ()), w) => runHandshakeOn fuel h w
      | (some (.error e), w) => (.returned (endedFor h e), h, w)
    | .ok (.trustDecisionRequired identity, h) =>
      let decision := policy identity.asIdentity
      let w := w.enter w.env (.decide identity.asIdentity decision)
      match provideTrust C decision h.state with
      | .error p => (.panicked p, h, w)
      | .ok state => runHandshakeOn fuel { h with state } w
    | .ok (.needMore, h) =>
      match m.remainingUntil deadline w with
      | (none, w) => (.returned (.timedOut h.phase h.pendingBytes), h, w)
      | (some remaining, w) =>
        match m.doSetReadTimeout remaining w with
        | (.error e, w) => (.returned (.io h.phase e), h, w)
        | (.ok (), w) =>
          -- a read of one byte into no room would let the machine report the overflow
          match m.doRead h.room (max (min (max chunk 1) h.room) 1) w with
          | (.ok [], w) => (.returned (.finished h.inputEnded.1), h.inputEnded.2, w)
          | (.ok (b :: bytes), w) => runHandshakeOn fuel (h.feed (b :: bytes)) w
          | (.error e, w) =>
            if e.isTimeout then (.returned (.timedOut h.phase h.pendingBytes), h, w)
            else if e.kind = .interrupted then runHandshakeOn fuel h w
            else (.returned (.io h.phase e), h, w)

end Run

/-! ### The pure driver, step by step -/

/-- What a step of the pure driver moved. -/
structure Moved where
  fed : List Bytes := []
  sent : Bytes := []
  asked : List HostIdentityOwned := []

/-- One step of the pure driver: it looks at the machine again, takes the output, answers the trust
question or feeds a piece that fits. -/
inductive Drives (C : Crypto) (policy : HostIdentityOwned → TrustDecision) :
    ClientHandshake → Moved → ClientHandshake → Prop where
  | look {h h' : ClientHandshake} {answer : Step} (hstep : h.step C = .ok (answer, h')) :
      Drives C policy h {} h'
  | send {h h' : ClientHandshake} (hstep : h.step C = .ok (.send, h')) :
      Drives C policy h { sent := h'.takeOutput.1 } h'.takeOutput.2
  | answer {h h' : ClientHandshake} {identity : HostIdentityOwned} {state : State}
      (hstep : h.step C = .ok (.trustDecisionRequired identity, h'))
      (hstate : provideTrust C (policy identity) h'.state = .ok state) :
      Drives C policy h { asked := [identity] } { h' with state }
  | feed {h h' : ClientHandshake} {piece : Bytes} (hstep : h.step C = .ok (.needMore, h'))
      (hne : piece ≠ []) (hroom : piece.length ≤ h'.room) :
      Drives C policy h { fed := [piece] } (h'.feed piece)

variable {h₁ : ClientHandshake} {answer : Step}

section Driving

variable {C : Crypto} {policy : HostIdentityOwned → TrustDecision} {h h' : ClientHandshake}
  {moved : List Moved} {output : Bytes} {chunks : List Bytes} {fuel : Nat}

/-- A machine that has answered answers again. -/
theorem ClientHandshake.step_again (hs : Sound C h.setup h.state)
    (hstep : h.step C = .ok (answer, h')) : h'.step C = .ok (answer, h') := by
  obtain ⟨⟨_, _, _⟩, hloop, heq⟩ := Checked.bind_ok_iff.mp hstep
  cases heq
  rw [step, stepLoop, stepLoop_last hs hloop]
  rfl

/-- The calls of a step respect the room. -/
theorem Drives.calls {l : Moved} (hd : Drives C policy h l h') :
    ∃ events, Run (fed C).respects h events h' := by
  have hquiet {l : Event} {n : Nat} (hl : (fed C).offered? l = none) :
      ∀ data, (fed C).offered? l = some data → data.length ≤ n := by
    rw [hl]
    intro data hdata
    cases hdata
  have hcalled {answer : Step} {h h₁ : ClientHandshake} (hstep : h.step C = .ok (answer, h₁)) :
      Run (fed C).respects h [⟨h.phase, .step, .step answer⟩] h₁ :=
    .snoc .nil ⟨⟨rfl, by rw [call, hstep]; rfl⟩, hquiet rfl⟩
  cases hd with
  | look hstep => exact ⟨_, hcalled hstep⟩
  | @send h' hstep =>
    exact ⟨_, (hcalled hstep).snoc (l := ⟨h'.phase, .takeOutput, .output h'.takeOutput.1⟩)
      ⟨⟨rfl, rfl⟩, hquiet rfl⟩⟩
  | @answer h' identity state hstep hstate =>
    refine ⟨_, (hcalled hstep).snoc (l := ⟨h'.phase, .provideTrust (policy identity), .unit⟩)
      ⟨⟨rfl, ?_⟩, hquiet rfl⟩⟩
    rw [call, hstate]
    rfl
  | @feed h' piece hstep hne hroom =>
    refine ⟨_, (hcalled hstep).snoc (l := ⟨h'.phase, .feed piece, .unit⟩) ⟨⟨rfl, rfl⟩, ?_⟩⟩
    intro data hdata
    cases hdata
    exact hroom

/-- The calls of a pure driver respect the room. -/
theorem drives_calls (hrun : Run (Drives C policy) h moved h') :
    ∃ events, Run (fed C).respects h events h' := by
  induction hrun with
  | nil => exact ⟨[], .nil⟩
  | snoc _ hlast ih =>
    obtain ⟨events, hevents⟩ := ih
    obtain ⟨_, hevents'⟩ := hlast.calls
    exact ⟨_, hevents.append hevents'⟩

/-- The invariants hold along the steps of a pure driver. -/
theorem Sound.drives (hs : Sound C h.setup h.state) (hrun : Run (Drives C policy) h moved h') :
    h'.setup = h.setup ∧ Sound C h'.setup h'.state := by
  obtain ⟨events, hevents⟩ := drives_calls hrun
  obtain ⟨hsetup, hmoves, -⟩ := run_effect hs.basic
    (show Run (Calls C) h events h' from hevents.imp fun hcall => hcall.1)
  exact ⟨hsetup, hsetup ▸ hs.moves hmoves⟩

/-- Looking at a machine again changes nothing for a driver. -/
theorem drive_look (hs : Sound C h.setup h.state) (hstep : h.step C = .ok (answer, h')) :
    drive C policy fuel h chunks output = drive C policy fuel h' chunks output := by
  cases fuel with
  | zero => rfl
  | succ => rw [drive, drive, hstep, step_again hs hstep]

/-- A step of a pure driver is a call of `drive` or none. -/
theorem Drives.drive_eq {l : Moved} (hd : Drives C policy h l h') (hs : Sound C h.setup h.state) :
    ∃ n, ∀ k rest output, drive C policy (k + n) h (l.fed ++ rest) output =
      drive C policy k h' rest (output ++ l.sent) := by
  cases hd with
  | look hstep =>
    refine ⟨0, fun k rest output => ?_⟩
    rw [append_nil]
    exact drive_look hs hstep
  | send hstep =>
    refine ⟨1, fun k rest output => ?_⟩
    rw [drive, hstep]
    rfl
  | answer hstep hstate =>
    refine ⟨1, fun k rest output => ?_⟩
    rw [drive, hstep, append_nil]
    simp only [hstate]
    rfl
  | @feed h₁ piece hstep hne hroom =>
    refine ⟨1, fun k rest output => ?_⟩
    have hgood : ¬(piece = [] ∨ h₁.room < piece.length) := not_or.mpr ⟨hne, Nat.not_lt.mpr hroom⟩
    rw [singleton_append, drive, hstep, append_nil]
    exact if_neg hgood

/-- **The steps of a pure driver are the calls of `drive`**, from where it goes on alike. -/
theorem drive_of_drives (output : Bytes) (hs : Sound C h.setup h.state)
    (hrun : Run (Drives C policy) h moved h') :
    ∃ n, ∀ k rest, drive C policy (k + n) h (moved.flatMap Moved.fed ++ rest) output =
      drive C policy k h' rest (output ++ moved.flatMap Moved.sent) := by
  induction hrun with
  | nil => exact ⟨0, fun k rest => by simp⟩
  | @snoc moved h₁ h₂ l hrun hlast ih =>
    obtain ⟨n, hn⟩ := ih
    obtain ⟨n', hn'⟩ := hlast.drive_eq (hs.drives hrun).2
    refine ⟨n' + n, fun k rest => ?_⟩
    rw [flatMap_append, flatMap_append, flatMap_singleton, flatMap_singleton,
      append_assoc, ← Nat.add_assoc, hn, hn', append_assoc]

/-- With more fuel a driver that ended ends alike. -/
theorem drive_mono (k : Nat) (hend : drive C policy fuel h chunks output ≠ .outOfFuel) :
    drive C policy (fuel + k) h chunks output = drive C policy fuel h chunks output := by
  induction fuel generalizing h chunks output with
  | zero => exact absurd rfl hend
  | succ fuel ih =>
    rw [Nat.add_right_comm]
    rw [drive] at hend ⊢
    rw [drive]
    split at hend
    · rfl
    · rfl
    · exact ih hend
    · split at hend
      · rfl
      · exact ih hend
    · split at hend
      · rfl
      · split at hend
        · rename_i hbad
          rw [if_pos hbad, if_pos hbad]
        · rename_i hgood
          rw [if_neg hgood, if_neg hgood]
          exact ih hend

/-- What a driver has sent, it has sent in the end. -/
theorem isPrefix_of_drive {o : HandshakeOutcome} {r : HandshakeReport} {all : Bytes}
    (hdone : drive C policy fuel h chunks output = .done o r all) : output <+: all := by
  have hconclude {u : Setup} {o' : HandshakeOutcome} {s : State} {output : Bytes}
      (hc : conclude u o' s output = .done o r all) : output <+: all := by
    rw [conclude] at hc
    split at hc
    · cases hc
    · cases hc
      exact prefix_refl _
  fun_induction drive C policy fuel h chunks output with
  | case1 | case2 | case5 | case8 => cases hdone
  | case3 | case7 => exact hconclude hdone
  | case4 _ _ _ _ _ _ ih => exact (prefix_append _ _).trans (ih hdone)
  | case6 _ _ _ _ _ _ _ _ _ ih | case9 _ _ _ _ _ _ _ _ ih => exact ih hdone

/-- A driver without further input offers no bad piece. -/
theorem drive_nil_ne_badChunk : drive C policy fuel h [] output ≠ .badChunk := by
  induction fuel generalizing h output with
  | zero => nofun
  | succ _ ih =>
    rw [drive]
    split
    · simp
    · exact (conclude_ne _ _ _ _).2
    · exact ih
    · split
      · simp
      · exact ih
    · exact (conclude_ne _ _ _ _).2

end Driving

/-! ### One question -/

section Question

variable {C : Crypto} {u : Setup} {policy : HostIdentityOwned → TrustDecision} {s s' : State}
  {h h' : ClientHandshake} {moved : List Moved}

/-- The trust question is behind the machine, and it was about a verified signature. -/
def State.Decided (s : State) : Prop :=
  (s.phase = .serverNewKeys ∨ s.phase = .service ∨ s.phase = .finished) ∧ s.hist.verified ≠ none

/-- A phase behind the trust question is none of those before it. -/
theorem State.Decided.phase_ne (hd : s.Decided) : s.phase ≠ .serverIdentification ∧
    s.phase ≠ .serverKexInit ∧ s.phase ≠ .ecdhReply ∧ s.phase ≠ .trustDecision := by
  rcases hd.1 with hphase | hphase | hphase <;> rw [hphase] <;> decide

/-- An ended state stays behind the question. -/
theorem State.Decided.ended (hd : s.Decided) (hphase : s'.phase = .finished)
    (hverified : s'.hist.verified = s.hist.verified) : s'.Decided :=
  ⟨.inr (.inr hphase), hverified ▸ hd.2⟩

/-- A state in the same phase stays behind the question. -/
theorem State.Decided.same (hd : s.Decided) (hphase : s'.phase = s.phase)
    (hverified : s'.hist.verified = s.hist.verified) : s'.Decided :=
  ⟨hphase ▸ hd.1, hverified ▸ hd.2⟩

/-- Handling an unprotected payload stays behind the question. -/
theorem State.Decided.handled {payload : Bytes} (hd : s.Decided) (hh : Handled C u payload s s') :
    s'.Decided := by
  obtain ⟨-, hkexinit, hreply, -⟩ := hd.phase_ne
  cases hh with
  | failed hf => exact hd.ended hf.phase (by rw [hf.hist])
  | skipped => exact hd.same rfl rfl
  | kexinit _ _ _ _ _ hphase => exact absurd hphase hkexinit
  | guess _ _ hphase | reply _ _ _ hphase => exact absurd hphase hreply
  | newkeys => exact ⟨.inr (.inl rfl), hd.2⟩
  | newkeysFailed => exact hd.ended rfl rfl

/-- The machine stays behind the question. -/
theorem State.Decided.move (hd : s.Decided) (hm : Move C u s s') : s'.Decided := by
  obtain ⟨hident, -, -, hask⟩ := hd.phase_ne
  cases hm with
  | takeOutput => exact hd.same rfl rfl
  | failed _ hf => exact hd.ended hf.phase (by rw [hf.hist])
  | distrust _ hphase | trust _ _ _ _ hphase => exact absurd hphase hask
  | adopt | wrapped | badPadding | overBudget | wrappedProtected => exact hd.ended rfl rfl
  | prelude _ _ _ hphase | identified _ _ _ hphase => exact absurd hphase hident
  | unprotected payload bytes _ _ _ _ _ hh =>
    have htaken : (s.take payload bytes).count.Decided := hd.same rfl rfl
    exact htaken.handled hh
  | protectedPacket _ _ _ _ _ _ _ _ _ hh =>
    cases hh with
    | failed hf => exact hd.ended hf.phase (by rw [hf.hist]; rfl)
    | sealFailed => exact hd.ended rfl rfl
    | _ => exact hd.same rfl rfl

/-- Nothing is verified while the question is open. -/
theorem Move.verified_eq (hm : Move C u s s') (hphase : s.phase = .trustDecision) :
    s'.hist.verified = s.hist.verified := by
  cases hm with
  | failed _ hf => rw [hf.hist]
  | unprotected _ _ _ hkex =>
    rw [hphase] at hkex
    cases hkex
  | protectedPacket _ _ _ _ hservice =>
    rw [hphase] at hservice
    cases hservice
  | _ => rfl

/-- The answer puts the question behind the machine. -/
theorem decided_of_provideTrust {decision : TrustDecision} (hs : Sound C u s)
    (hphase : s.phase = .trustDecision) (hstate : provideTrust C decision s = .ok s') :
    s'.Decided := by
  rcases provideTrust_cases (u := u) hs.basic.sendSeq_lt hstate with
    ⟨hother, -⟩ | ⟨-, htrust, -, hmove⟩
  · exact absurd hphase hother
  refine ⟨?_, (hmove.verified_eq hphase).symm ▸ hs.verification.known (.inl hphase)⟩
  have hs' := hs.move hmove
  by_cases hend : s'.phase = .finished
  · exact .inr (.inr hend)
  cases decision with
  | untrusted =>
    rw [provideTrust, if_neg (not_not.mpr hphase)] at hstate
    cases hstate
    exact absurd rfl hend
  | trusted source =>
    have hsent := hs'.output.trust.mpr ⟨source, htrust⟩
    rcases (hs'.basic.sent_iff hend).mp hsent with hnext | hnext
    · exact .inl hnext
    · exact .inr (.inl hnext)

/-- **A driver asks at most once**, and only about a verified signature. -/
theorem asked_once (hs : Sound C h.setup h.state) (hrun : Run (Drives C policy) h moved h') :
    (moved.flatMap Moved.asked).length ≤ 1 ∧
      (moved.flatMap Moved.asked ≠ [] → h'.state.Decided) := by
  induction hrun with
  | nil => exact ⟨Nat.zero_le 1, fun hne => absurd rfl hne⟩
  | @snoc moved h₁ h₂ l hrun hlast ih =>
    obtain ⟨honce, hdecided⟩ := ih
    have hs₁ := (hs.drives hrun).2
    obtain ⟨events, hevents⟩ := hlast.calls
    obtain ⟨-, hmoves, -⟩ := run_effect hs₁.basic
      (show Run (Calls C) h₁ events h₂ from hevents.imp fun hcall => hcall.1)
    have hstays (hne : moved.flatMap Moved.asked ≠ []) : h₂.state.Decided :=
      hmoves.invariant hs₁.basic (hdecided hne) fun _ hd hm => hd.move hm
    simp only [flatMap_append, flatMap_singleton]
    cases hlast with
    | @answer h₂ identity state hstep hstate =>
      obtain ⟨⟨_, _, _⟩, hloop, heq⟩ := Checked.bind_ok_iff.mp hstep
      cases heq
      have hmoves₂ := (stepLoop_moves hs₁.basic hloop).1
      have hs₂ := hs₁.moves hmoves₂
      cases hs₂.basic.round_cases (stepLoop_last hs₁ hloop)
        with
      | ask _ _ hphase =>
        have hfirst : moved.flatMap Moved.asked = [] := by
          by_contra hne
          have hd := hmoves₂.invariant hs₁.basic (hdecided hne) fun _ hd hm => hd.move hm
          exact hd.phase_ne.2.2.2 hphase
        rw [hfirst]
        exact ⟨Nat.le_refl 1, fun _ => decided_of_provideTrust hs₂ hphase hstate⟩
    | _ =>
      simp only [append_nil]
      exact ⟨honce, hstays⟩

end Question

/-! ### The simulation -/

section Simulation

variable {σ : Type} {C : Crypto} {m : Seam σ} {policy : HostIdentity → TrustDecision}
  {deadline chunk fuel : Nat} {start h h' : ClientHandshake} {w w' : World σ} {output : Bytes}
  {ran : Ran}

/-- The pure driver came from `start` to `h` with the pieces, the questions and the output of a
blocking one, whose reads were all within the room. -/
structure Tracks (C : Crypto) (policy : HostIdentity → TrustDecision) (start : ClientHandshake)
    (output : Bytes) (h : ClientHandshake) (w : World σ) : Prop where
  run : ∃ moved, Run (Drives C fun i => policy i.asIdentity) start moved h ∧
    moved.flatMap Moved.fed = w.pieces ∧ moved.flatMap Moved.sent = output ∧
    (moved.flatMap Moved.asked).map HostIdentityOwned.asIdentity = w.questions
  reads : ∀ {room want result}, Entry.read room want result ∈ w.log → 1 ≤ want ∧ want ≤ room

/-- A step of the pure driver and the calls it stands for. -/
theorem Tracks.step {moved : Moved} (ht : Tracks C policy start output h w)
    (hd : Drives C (fun i => policy i.asIdentity) h moved h')
    (hpieces : w'.pieces = w.pieces ++ moved.fed)
    (hquestions : w'.questions = w.questions ++ moved.asked.map HostIdentityOwned.asIdentity)
    (hreads : ∀ {room want result}, Entry.read room want result ∈ w'.log →
      Entry.read room want result ∈ w.log ∨ (1 ≤ want ∧ want ≤ room)) :
    Tracks C policy start (output ++ moved.sent) h' w' := by
  obtain ⟨_, hrun, hfed, hsent, hasked⟩ := ht.run
  refine ⟨⟨_, hrun.snoc hd, ?_, ?_, ?_⟩, fun hread => (hreads hread).elim ht.reads id⟩
  · rw [flatMap_append, flatMap_singleton, hfed, hpieces]
  · rw [flatMap_append, flatMap_singleton, hsent]
  · rw [flatMap_append, flatMap_singleton, map_append, hasked, hquestions]

/-- A step of the pure driver and calls that neither read nor ask. -/
theorem Tracks.aside {moved : Moved} (ht : Tracks C policy start output h w)
    (hd : Drives C (fun i => policy i.asIdentity) h moved h') (ha : Aside w w')
    (hfed : moved.fed = []) (hasked : moved.asked = []) :
    Tracks C policy start (output ++ moved.sent) h' w' := by
  refine ht.step hd ?_ ?_ fun hread => .inl (ha.reads hread)
  · rw [ha.pieces, hfed, append_nil]
  · rw [ha.questions, hasked, map_nil, append_nil]

/-- Looking at the machine again, and calls that neither read nor ask. -/
theorem Tracks.look (ht : Tracks C policy start output h w) (hstep : h.step C = .ok (answer, h'))
    (ha : Aside w w') : Tracks C policy start output h' w' := by
  have hlooked := ht.aside (.look hstep) ha rfl rfl
  rwa [append_nil] at hlooked

/-- A read within the room is the only one that is new. -/
theorem mem_read_enter {env : σ} {room want : Nat} {result : Except SocketError Bytes}
    (hwant : 1 ≤ want ∧ want ≤ room) {room' want' : Nat} {result' : Except SocketError Bytes}
    (hread : Entry.read room' want' result' ∈ (w.enter env (.read room want result)).log) :
    Entry.read room' want' result' ∈ w.log ∨ (1 ≤ want' ∧ want' ≤ room') := by
  rcases mem_append.mp hread with hold | hnew
  · exact .inl hold
  · cases mem_singleton.mp hnew
    exact .inr hwant

theorem Tracks.read {env : σ} {room want : Nat} {result : Except SocketError Bytes}
    (ht : Tracks C policy start output h w) (hstep : h.step C = .ok (answer, h'))
    (hwant : 1 ≤ want ∧ want ≤ room) (hnone : (Entry.read room want result).piece = []) :
    Tracks C policy start output h' (w.enter env (.read room want result)) := by
  have hlooked : Tracks C policy start (output ++ []) h' (w.enter env (.read room want result)) :=
    ht.step (.look hstep) (by simp [hnone]) (by simp [Entry.question]) (mem_read_enter hwant)
  rwa [append_nil] at hlooked

/-- How a blocking driver stops where the pure one is at `h`, and the machine it leaves. -/
inductive Stops (C : Crypto) (deadline : Nat) (h : ClientHandshake) (w : World σ) :
    Ran → ClientHandshake → Prop where
  | running : Stops C deadline h w .running h
  | panicked (p : Panic) (hstep : h.step C = .error p) : Stops C deadline h w (.panicked p) h
  /-- There is an outcome. -/
  | finished (o : HandshakeOutcome) (hstep : h.step C = .ok (.finished o, h)) :
      Stops C deadline h w (.returned (.finished o)) h
  /-- The input ended. -/
  | ended (hstep : h.step C = .ok (.needMore, h)) :
      Stops C deadline h w (.returned (.finished h.inputEnded.1)) h.inputEnded.2
  /-- Time ran out, for the deadline or in a call. -/
  | timedOut (e : SocketError) (hfailed : FailedBy deadline w e) (htimeout : e.isTimeout = true) :
      Stops C deadline h w (.returned (.timedOut h.phase h.pendingBytes)) h
  /-- A call failed. -/
  | io (e : SocketError) (hfailed : FailedBy deadline w e) :
      Stops C deadline h w (.returned (.io h.phase e)) h

theorem stops_endedFor {e : SocketError} (hfailed : FailedBy deadline w e) :
    Stops C deadline h w (.returned (endedFor h e)) h := by
  rw [endedFor]
  split
  · rename_i htimeout
    exact .timedOut e hfailed htimeout
  · exact .io e hfailed

/-- When a tracked machine needs more there is room. -/
theorem Tracks.room {capacity : Nat} (hflow : FlowControl (fed C) start capacity)
    (ht : Tracks C policy start output h w) (hstep : h.step C = .ok (.needMore, h')) :
    1 ≤ h'.room := by
  obtain ⟨_, hrun, -⟩ := ht.run
  obtain ⟨_, hevents⟩ := drives_calls hrun
  have hcall : Calls C h ⟨h.phase, .step, .step .needMore⟩ h' :=
    ⟨rfl, by rw [call, hstep]; rfl⟩
  exact hflow.room (hevents.imp fun hcall => hcall.1) hcall rfl

/-- **The blocking driver does what the pure one does.** -/
theorem runHandshakeOn_simulates {capacity : Nat}
    (hflow : FlowControl (fed C) start capacity)
    (hs : Sound C start.setup start.state) (ht : Tracks C policy start w.written h w)
    (hrun : runHandshakeOn C m policy deadline chunk fuel h w = (ran, h', w')) :
    ∃ h₁ output, Tracks C policy start output h₁ w' ∧ w'.written <+: output ∧
      (∀ o, ran = .returned (.finished o) → w'.written = output) ∧
      Stops C deadline h₁ w' ran h' := by
  induction fuel generalizing h w with
  | zero =>
    cases hrun
    exact ⟨_, _, ht, prefix_refl _, fun _ _ => rfl, .running⟩
  | succ fuel ih =>
    have hsound : Sound C h.setup h.state := by
      obtain ⟨moved, hmoved, -⟩ := ht.run
      exact (hs.drives hmoved).2
    rw [runHandshakeOn] at hrun
    split at hrun
    · rename_i p hstep
      cases hrun
      exact ⟨_, _, ht, prefix_refl _, fun _ _ => rfl, .panicked p hstep⟩
    · rename_i o h₁ hstep
      cases hrun
      exact ⟨_, _, ht.look hstep (.refl _), prefix_refl _, fun _ _ => rfl,
        .finished o (step_again hsound hstep)⟩
    · -- the output is written, in whole or in part
      rename_i h₁ hstep
      simp only at hrun
      have hwrote {r w₁} (hwrite : m.writeAllBy deadline fuel h₁.takeOutput.1 w = (r, w₁)) :
          Seam.Wrote deadline h₁.takeOutput.1 r w w₁ ∧
            Tracks C policy start (w.written ++ h₁.takeOutput.1) h₁.takeOutput.2 w₁ := by
        have hspec := Seam.writeAllBy_spec hwrite
        exact ⟨hspec, ht.aside (.send hstep) hspec.aside rfl rfl⟩
      split at hrun
      · rename_i w₁ hwrite
        cases hrun
        obtain ⟨hspec, ht'⟩ := hwrote hwrite
        obtain ⟨rest, hrest, -⟩ := hspec.sent
        exact ⟨_, _, ht', ⟨rest, hrest⟩, nofun, .running⟩
      · rename_i w₁ hwrite
        obtain ⟨hspec, ht'⟩ := hwrote hwrite
        obtain ⟨rest, hrest, hall⟩ := hspec.sent
        rw [hall rfl, append_nil] at hrest
        exact ih (hrest ▸ ht') hrun
      · rename_i e w₁ hwrite
        cases hrun
        obtain ⟨hspec, ht'⟩ := hwrote hwrite
        obtain ⟨rest, hrest, -⟩ := hspec.sent
        refine ⟨_, _, ht', ⟨rest, hrest⟩, fun o ho => ?_, stops_endedFor (hspec.failed e rfl)⟩
        rw [endedFor] at ho
        split at ho <;> cases ho
    · -- the policy is asked
      rename_i identity h₁ hstep
      simp only at hrun
      have hreturns : Checked.Returns (provideTrust C (policy identity.asIdentity) h₁.state) := by
        obtain ⟨moved, hmoved, -⟩ := (ht.look hstep (.refl w)).run
        exact (hs.drives hmoved).2.provideTrust_returns _
      obtain ⟨state, hstate⟩ := hreturns
      rw [hstate] at hrun
      have hasked : Tracks C policy start (w.written ++ []) { h₁ with state }
          (w.enter w.env (.decide identity.asIdentity (policy identity.asIdentity))) :=
        ht.step (.answer hstep hstate) (by simp [Entry.piece]) (by simp [Entry.question])
          fun hread => .inl (by simpa using hread)
      refine ih ?_ hrun
      rwa [World.written_enter]
    · -- more input is needed
      rename_i h₁ hstep
      have hstep' := step_again hsound hstep
      have hroom := ht.room hflow hstep
      split at hrun
      · rename_i w₁ hremaining
        cases hrun
        obtain ⟨ha, hsent, hfailed⟩ := Seam.remainingUntil_cases hremaining
        exact ⟨_, _, ht.look hstep ha, by rw [hsent], nofun, .timedOut _ (hfailed rfl) rfl⟩
      rename_i remaining w₁ hremaining
      obtain ⟨ha, hsent, -⟩ := Seam.remainingUntil_cases hremaining
      split at hrun
      · rename_i e w₂ htimeout
        cases hrun
        obtain ⟨env, rfl⟩ := Seam.doSetReadTimeout_cases htimeout
        exact ⟨_, _, ht.look hstep (ha.trans (.enter rfl)), by simp [Entry.sent, hsent], nofun,
          .io e (failedBy_enter rfl)⟩
      rename_i w₂ htimeout
      obtain ⟨env, rfl⟩ := Seam.doSetReadTimeout_cases htimeout
      have hlooked := ht.look hstep (ha.trans
        (show Aside w₁ (w₁.enter env (.setReadTimeout remaining (.ok ()))) from .enter rfl))
      have hwritten : (w₁.enter env (.setReadTimeout remaining (.ok ()))).written = w.written := by
        simp [Entry.sent, hsent]
      rw [← hwritten] at hlooked
      generalize w₁.enter env (.setReadTimeout remaining (.ok ())) = w₂ at hrun hlooked
      have hwant : 1 ≤ max (min (max chunk 1) h₁.room) 1 ∧
          max (min (max chunk 1) h₁.room) 1 ≤ h₁.room := by omega
      generalize max (min (max chunk 1) h₁.room) 1 = want at hrun hwant
      split at hrun
      · rename_i w₃ hread
        cases hrun
        obtain ⟨env', rfl, -⟩ := Seam.doRead_cases hread
        exact ⟨_, _, hlooked.read hstep' hwant rfl, by simp [Entry.sent],
          fun _ _ => by simp [Entry.sent], .ended hstep'⟩
      · rename_i b bytes w₃ hread
        obtain ⟨env', rfl, hle⟩ := Seam.doRead_cases hread
        refine ih ?_ hrun
        have hfed : Tracks C policy start (w₂.written ++ []) (h₁.feed (b :: bytes))
            (w₂.enter env' (.read h₁.room want (.ok (b :: bytes)))) :=
          hlooked.step (.feed hstep' (cons_ne_nil b bytes) ((hle _ rfl).trans hwant.2))
            (by simp [Entry.piece]) (by simp [Entry.question]) (mem_read_enter hwant)
        rwa [World.written_enter]
      · rename_i e w₃ hread
        obtain ⟨env', rfl, -⟩ := Seam.doRead_cases hread
        have hfailed (hother : e.kind ≠ .interrupted) : FailedBy deadline
            (w₂.enter env' (.read h₁.room want (.error e))) e :=
          failedBy_enter (if_neg hother)
        have htracks : Tracks C policy start
            (w₂.enter env' (.read h₁.room want (.error e))).written h₁
            (w₂.enter env' (.read h₁.room want (.error e))) := by
          have hnone : (Entry.read h₁.room want (.error e)).sent = [] := rfl
          rw [World.written_enter, hnone, append_nil]
          exact hlooked.read hstep' hwant rfl
        split at hrun
        · rename_i htimeout
          cases hrun
          have hother : e.kind ≠ .interrupted := by
            intro hinterrupted
            rw [SocketError.isTimeout, hinterrupted] at htimeout
            cases htimeout
          exact ⟨_, _, htracks, prefix_refl _, nofun, .timedOut e (hfailed hother) htimeout⟩
        split at hrun
        · exact ih htracks hrun
        · rename_i hother
          cases hrun
          exact ⟨_, _, htracks, prefix_refl _, nofun, .io e (hfailed hother)⟩

end Simulation

/-! ### Refinement -/

section Refinement

variable {ρ ε σ : Type} {C : Crypto} {tryFillBytes : (n : Nat) → ρ → Except ε (ByteVec n × ρ)}
  {config : HandshakeConfig} {rng : ρ} {provider : Option SignatureProvider}
  {m : Seam σ} {policy : HostIdentity → TrustDecision} {deadline chunk fuel : Nat}
  {h h' : ClientHandshake} {env : σ} {w : World σ} {ran : Ran}

/-- What a run of the blocking driver has to do with the machine it drives. -/
structure Refines (C : Crypto) (policy : HostIdentity → TrustDecision) (deadline : Nat)
    (start : ClientHandshake) (ran : Ran) (h : ClientHandshake) (w : World σ) : Prop where
  /-- The pure driver, fed the same pieces, came as far with what was sent as a prefix of its
  output. -/
  moved : ∃ h₁ moved, Run (Drives C fun i => policy i.asIdentity) start moved h₁ ∧
    moved.flatMap Moved.fed = w.pieces ∧ w.written <+: moved.flatMap Moved.sent
  /-- Driven to its end with these pieces, the machine panics, or it ends and what was sent is a
  prefix of its output. -/
  sent : (∃ p, start.driven C (fun i => policy i.asIdentity) w.pieces = .panicked p) ∨
    ∃ o report output, start.driven C (fun i => policy i.asIdentity) w.pieces =
      .done o report output ∧ w.written <+: output
  /-- An outcome is that of the machine, and all of its output was sent. -/
  finished : ∀ o, ran = .returned (.finished o) →
    ∃ report, start.driven C (fun i => policy i.asIdentity) w.pieces = .done o report w.written
  /-- Only the machine panics. -/
  panicked : ∀ p, ran = .panicked p →
    start.driven C (fun i => policy i.asIdentity) w.pieces = .panicked p
  /-- Any other end is due to the last call. -/
  failed : ∀ ending, ran = .returned ending → (∃ o, ending = .finished o) ∨
    ∃ e, FailedBy deadline w e ∧
      (ending = .timedOut h.phase h.pendingBytes ∧ e.isTimeout = true ∨ ending = .io h.phase e)
  /-- Every read asks for something, and for no more than there is room for. -/
  reads : ∀ {room want result}, Entry.read room want result ∈ w.log → 1 ≤ want ∧ want ≤ room
  /-- The input never overflows. -/
  fits : ∀ o, ran = .returned (.finished o) → o.overflow? = none
  /-- The policy is asked at most once. -/
  once : w.questions.length ≤ 1
  /-- The policy is asked only behind an accepted signature. -/
  verified : w.questions ≠ [] →
    ∃ v, h.state.hist.verified = some v ∧ Transcript C start.setup h.state v

/-- The pure driver goes on where a blocking one stopped. -/
theorem driven_eq_of_tracks {output : Bytes} (hs : Sound C h.setup h.state)
    (ht : Tracks C policy h output h₁ w) :
    ∃ fuel, h.driven C (fun i => policy i.asIdentity) w.pieces =
      drive C (fun i => policy i.asIdentity) (fuel + 1) h₁ [] output := by
  obtain ⟨_, hrun, hfed, hsent, -⟩ := ht.run
  obtain ⟨n, hn⟩ := drive_of_drives [] hs hrun
  have hend : h.driven C (fun i => policy i.asIdentity) w.pieces ≠ .outOfFuel :=
    drive_ne_outOfFuel hs (Nat.lt_succ_self _)
  have hgo := hn (driveRank h w.pieces + 1) []
  rw [append_nil, hfed, hsent, nil_append] at hgo
  refine ⟨driveRank h w.pieces, ?_⟩
  rw [← hgo, drive_mono n hend]
  rfl

/-- How the pure driver ends where a blocking one stopped with an outcome or a panic. -/
theorem Stops.driven {output : Bytes} (hb : Built C config provider h)
    (ht : Tracks C policy h output h₁ w) (hstops : Stops C deadline h₁ w ran h') :
    (∀ o, ran = .returned (.finished o) →
      ∃ report, h.driven C (fun i => policy i.asIdentity) w.pieces = .done o report output) ∧
    (∀ p, ran = .panicked p →
      h.driven C (fun i => policy i.asIdentity) w.pieces = .panicked p) := by
  obtain ⟨_, hdriven⟩ := driven_eq_of_tracks hb.sound ht
  have hsetup : h₁.setup = h.setup := by
    obtain ⟨_, hmoved, -⟩ := ht.run
    exact (hb.sound.drives hmoved).1
  have hline := hb.clientLine
  rw [← hsetup] at hline
  rw [hdriven, drive]
  cases hstops with
  | panicked p hstep =>
    rw [hstep]
    refine ⟨by simp, fun p' hp => ?_⟩
    cases hp
    rfl
  | finished o hstep =>
    rw [hstep]
    refine ⟨fun o' ho => ?_, by simp⟩
    cases ho
    exact (conclude_eq_done hline o _ output).imp fun report h => h.1
  | ended hstep =>
    rw [hstep]
    refine ⟨fun o' ho => ?_, by simp⟩
    cases ho
    exact (conclude_eq_done hline _ _ output).imp fun report h => h.1
  | _ => exact ⟨by simp, by simp⟩

/-- The machine that is left is the one the pure driver reached, or that one ended. -/
theorem Stops.machine (hstops : Stops C deadline h₁ w ran h') (hs : Sound C h₁.setup h₁.state) :
    h'.setup = h₁.setup ∧ Sound C h'.setup h'.state ∧
      h'.state.hist.verified = h₁.state.hist.verified := by
  cases hstops with
  | ended hstep =>
    rw [inputEnded]
    split
    · exact ⟨rfl, hs, rfl⟩
    · rename_i hnone
      exact ⟨rfl, hs.move (.failed hnone (failed_finish rfl)), rfl⟩
  | _ => exact ⟨rfl, hs, rfl⟩

/-- An outcome is not an overflow where the machine has none. -/
theorem Stops.fits (hstops : Stops C deadline h₁ w ran h') (hs : Sound C h₁.setup h₁.state)
    (hfits : h₁.state.Fits) {o : HandshakeOutcome} (ho : ran = .returned (.finished o)) :
    o.overflow? = none := by
  cases hstops with
  | finished o' hstep =>
    cases ho
    obtain ⟨⟨_, _, _⟩, hloop, heq⟩ := Checked.bind_ok_iff.mp hstep
    obtain ⟨rfl, hsame⟩ := Prod.mk.inj (Except.ok.inj heq)
    have hround := stepLoop_last hs hloop
    rw [← hsame] at hs hfits
    cases hs.basic.round_cases hround with
    | finished _ hout =>
      rw [State.Fits, hout] at hfits
      exact hfits
  | ended hstep =>
    cases ho
    rw [inputEnded]
    split
    · rename_i o' hout
      rw [State.Fits, hout] at hfits
      exact hfits
    · rfl
  | _ => cases ho

/-- **The blocking driver refines the pure machine**, whatever the socket and the clock do, under
any policy, deadline and size of reads, and however far the run has come. -/
theorem blocking_driver_refines (hb : build C tryFillBytes config rng provider = .ok (.ok h))
    (hrun : runHandshakeOn C m policy deadline chunk fuel h ⟨env, []⟩ = (ran, h', w)) :
    Refines C policy deadline h ran h' w := by
  have hbuilt := build_ok hb
  have hs := hbuilt.sound
  obtain ⟨_, hcapacity, -⟩ := hbuilt.buf
  have hflow := hbuilt.flowControl hcapacity
  have hstart : Tracks C policy h (World.written ⟨env, []⟩) h (⟨env, []⟩ : World σ) :=
    ⟨⟨[], .nil, rfl, rfl, rfl⟩, nofun⟩
  obtain ⟨h₁, _, ht, hprefix, hall, hstops⟩ := runHandshakeOn_simulates hflow hs hstart hrun
  obtain ⟨moved, hmoved, hfed, hsent, hasked⟩ := ht.run
  obtain ⟨hsetup, hs₁⟩ := hs.drives hmoved
  obtain ⟨hsetup', hs', hverified⟩ := hstops.machine hs₁
  obtain ⟨hfinished, hpanicked⟩ := hstops.driven hbuilt ht
  obtain ⟨honce, hdecided⟩ := asked_once hs hmoved
  exact {
    moved := ⟨h₁, moved, hmoved, hfed, hsent ▸ hprefix⟩
    sent := by
      obtain ⟨fuel, hdriven⟩ := driven_eq_of_tracks hs ht
      have hend : h.driven C (fun i => policy i.asIdentity) w.pieces ≠ .outOfFuel :=
        drive_ne_outOfFuel hs (Nat.lt_succ_self _)
      have hgood : h.driven C (fun i => policy i.asIdentity) w.pieces ≠ .badChunk := by
        rw [hdriven]
        exact drive_nil_ne_badChunk
      cases hresult : h.driven C (fun i => policy i.asIdentity) w.pieces with
      | panicked p => exact .inl ⟨p, rfl⟩
      | done o report all =>
        rw [hdriven] at hresult
        exact .inr ⟨o, report, all, rfl, hprefix.trans (isPrefix_of_drive hresult)⟩
      | badChunk => exact absurd hresult hgood
      | outOfFuel => exact absurd hresult hend
    finished := fun o ho => by
      obtain ⟨report, hdone⟩ := hfinished o ho
      exact ⟨report, by rw [hdone, hall o ho]⟩
    panicked := hpanicked
    failed := fun ending hending => by
      cases hstops with
      | finished o => exact .inl ⟨o, (Ran.returned.inj hending).symm⟩
      | ended => exact .inl ⟨_, (Ran.returned.inj hending).symm⟩
      | timedOut e hfailed htimeout =>
        exact .inr ⟨e, hfailed, .inl ⟨(Ran.returned.inj hending).symm, htimeout⟩⟩
      | io e hfailed => exact .inr ⟨e, hfailed, .inr (Ran.returned.inj hending).symm⟩
      | _ => cases hending
    reads := ht.reads
    fits := fun o ho => by
      obtain ⟨_, hevents⟩ := drives_calls hmoved
      exact hstops.fits hs₁ (hflow.fits hevents) ho
    once := by
      rw [← hasked, length_map]
      exact honce
    verified := fun hne => by
      have hne' : moved.flatMap Moved.asked ≠ [] := by
        rintro hnil
        rw [← hasked, hnil] at hne
        exact hne rfl
      obtain ⟨v, hv⟩ := Option.ne_none_iff_exists'.mp (hverified ▸ (hdecided hne').2)
      exact ⟨v, hv, (hsetup'.trans hsetup) ▸ hs'.verification.transcript v hv⟩ }

end Refinement

/-! ### The reference run -/

namespace Reference

/-- A socket that reads from a stream, and writes a hundred bytes at a time. -/
def socket : Seam Bytes where
  now s := (0, s)
  read want s := (.ok (s.take want), s.drop want)
  write data s := (.ok (min 100 data.length), s)
  flush s := (.ok (), s)
  setReadTimeout _ s := (.ok (), s)
  setWriteTimeout _ s := (.ok (), s)
  read_le h := by
    cases h
    exact length_take_le _ _
  write_le h := by
    cases h
    exact Nat.min_le_right _ _

/-- The reference handshake over that socket. -/
def blockingRun : Ran × ClientHandshake × World Bytes :=
  runHandshakeOn reference socket (fun _ => .trusted .pinnedFingerprint) 1 4096 100 client
    ⟨stream, []⟩

end Reference

/-- The reference handshake completes over a socket with short writes. -/
theorem blocking_driver_refines_reference :
    blockingRun.1 = .returned (.finished .completed) ∧
    Refines reference (fun _ => .trusted .pinnedFingerprint) 1 client
      blockingRun.1 blockingRun.2.1 blockingRun.2.2 := by
  refine ⟨by decide +kernel, ?_⟩
  match hrun : blockingRun with
  | (ran, h', w) => exact blocking_driver_refines build_client hrun

end Tatami.Tcp
