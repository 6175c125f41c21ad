import Tatami.Tcp.ChunkIndependence
import Tatami.Tcp.Handshake.Driver

/-! # The probe and the handshake agree up to the server `KEXINIT`

Two loops read the beginning of a server's stream: the one of the probe (`Probe.look`) and the one
of the client handshake (`turn`). On the same stream and with the same limits they move in step:

* `Aligned` relates a probe that has reported some events to a handshake without a server `KEXINIT`;
* `Aligned.keepsUp` is one step of both, `Aligned.run` a whole run;
* `Seen` is what a handshake keeps of the first part when it goes on behind the `KEXINIT`. -/

namespace Tatami.Tcp

open Tatami.Wire Tatami.Keys Tatami.Reactor Reference

variable {C : Crypto} {u : Setup} {policy : HostIdentityOwned → TrustDecision}

/-! ### The two vocabularies -/

namespace ProbeEvent

/-- The prelude lines among some events. -/
def preludeLines (events : List ProbeEvent) : List Bytes :=
  events.filterMap fun
    | .preludeLine line _ => some line
    | _ => none

/-- The server identification among some events. -/
def identification (events : List ProbeEvent) : Option OwnedIdentification :=
  events.findSome? fun
    | .serverIdentification ident => some ident
    | _ => none

/-- The messages that were skipped among some events. -/
def skipped (events : List ProbeEvent) : List SkippedMessage :=
  events.filterMap fun
    | .ignored dataLen => some (.ignored dataLen)
    | .debug alwaysDisplay message languageTag => some (.debug alwaysDisplay message languageTag)
    | .unimplemented sequenceNumber => some (.unimplemented sequenceNumber)
    | _ => none

variable (events later : List ProbeEvent)

/-- The prelude lines come one after the other. -/
theorem preludeLines_append :
    preludeLines (events ++ later) = preludeLines events ++ preludeLines later :=
  List.filterMap_append

theorem identification_append :
    identification (events ++ later) = (identification events).or (identification later) :=
  List.findSome?_append

/-- The skipped messages come one after the other. -/
theorem skipped_append : skipped (events ++ later) = skipped events ++ skipped later :=
  List.filterMap_append

/-- A skipped message is neither a line nor an identification. -/
theorem of_ofSkipped (message : SkippedMessage) :
    preludeLines [.ofSkipped message] = [] ∧ identification [.ofSkipped message] = none ∧
      skipped [.ofSkipped message] = [message] := by
  cases message <;> exact ⟨rfl, rfl, rfl⟩

end ProbeEvent

/-- The phase of a handshake that a stage of the probe corresponds to. -/
def Probe.Stage.phase : Probe.Stage → Phase
  | .identification => .serverIdentification
  | .initialPackets => .serverKexInit
  | .finished => .finished

/-- The outcome of a handshake that an error of the probe corresponds to. -/
def InitialError.outcome : InitialError → HandshakeOutcome
  | .ident e => .protocolError (.ident e)
  | .packet e => .protocolError (.packet e)
  | .emptyPayload => .protocolError .emptyPayload
  | .message number e => .protocolError (.message number e)
  | .unexpectedMessage number => .unexpectedMessage number .serverKexInit
  | .unsupportedTransition number => .unexpectedMessage number .serverKexInit
  | .packetBudgetExceeded limit => .limit (.preKexPackets limit)
  | .byteBudgetExceeded limit => .limit (.preKexBytes limit)
  | .inputOverflow overflow => .inputOverflow overflow

/-! ### One payload -/

section Payload

variable {payload : Bytes} {n : Nat} {s s' : State} {client : KexInit}

/-- What the handshake makes of a payload that the probe classified. -/
def HandledAs (u : Setup) (payload : Bytes) (client : KexInit) (s s' : State) : InitialStep → Prop
  | .needMore => False
  | .skipped message _ => s' = { s with skipped := s.skipped ++ [message] }
  | .kexInit server _ _ => KexinitCase u payload s client server s'
  | .disconnect d _ =>
    s'.outcome = some (.serverDisconnected d.reasonCode d.description) ∧
      s'.serverKexinit = s.serverKexinit
  | .error e => s'.outcome = some e.outcome ∧ s'.serverKexinit = s.serverKexinit

/-- **Both handle a payload alike** while the server `KEXINIT` is expected. -/
theorem handleUnprotected_classified (C : Crypto) (payload : Bytes) (n : Nat)
    (hphase : s.phase = .serverKexInit) (hclient : KexInit.decode u.iC = .ok client)
    (hseq : s.sendSeq + 1 < 2 ^ 32) :
    ∃ s', handleUnprotected C u payload s = .ok s' ∧
      HandledAs u payload client s s' (classifyInitial payload n) := by
  rw [handleUnprotected, classifyInitial]
  cases hhead : payload.head? with
  | none => exact ⟨_, rfl, rfl, rfl⟩
  | some number =>
    simp only [hphase]
    -- the probe asks for the numbers in another order, so that each is taken out here
    by_cases hignore : number = Msg.ignore
    · subst hignore
      rw [if_neg (by decide), if_pos (by decide), if_pos rfl, skip, if_pos rfl]
      cases hdec : Ignore.decode payload with
      | ok => exact ⟨_, rfl, rfl⟩
      | error => exact ⟨_, rfl, rfl, rfl⟩
    by_cases hdebug : number = Msg.debug
    · subst hdebug
      rw [if_neg (by decide), if_pos (by decide), if_neg hignore, if_pos rfl, skip,
        if_neg hignore, if_pos rfl]
      cases hdec : Debug.decode payload with
      | ok => exact ⟨_, rfl, rfl⟩
      | error => exact ⟨_, rfl, rfl, rfl⟩
    by_cases hunimplemented : number = Msg.unimplemented
    · subst hunimplemented
      rw [if_neg (by decide), if_pos (by decide), if_neg hignore, if_neg hdebug, if_pos rfl, skip,
        if_neg hignore, if_neg hdebug, if_pos rfl]
      cases hdec : Unimplemented.decode payload with
      | ok => exact ⟨_, rfl, rfl⟩
      | error => exact ⟨_, rfl, rfl, rfl⟩
    have hskip : ¬(decide (number = Msg.ignore) || decide (number = Msg.debug) ||
        decide (number = Msg.unimplemented)) = true := by
      simp [hignore, hdebug, hunimplemented]
    rw [if_neg hignore, if_neg hdebug, if_neg hunimplemented, if_neg hskip]
    by_cases hdisconnect : number = Msg.disconnect
    · subst hdisconnect
      rw [if_neg (by decide), if_pos rfl, if_pos rfl, onDisconnect]
      cases hdec : Disconnect.decode payload with
      | ok | error => exact ⟨_, rfl, rfl, rfl⟩
    rw [if_neg hdisconnect, if_neg hdisconnect]
    by_cases hkexinit : number = Msg.kexInit
    · subst hkexinit
      rw [if_pos rfl, if_pos rfl]
      cases hdec : KexInit.decode payload with
      | ok => exact onServerKexinit_decoded C hclient hdec hseq
      | error =>
        rw [onServerKexinit, hdec]
        exact ⟨_, rfl, rfl, rfl⟩
    rw [if_neg hkexinit, if_neg hkexinit]
    have hunexpected : (s.unexpected number).outcome =
        some (.unexpectedMessage number .serverKexInit) := by
      rw [← hphase]
      rfl
    split
    · exact ⟨_, rfl, hunexpected, rfl⟩
    split
    · exact ⟨_, rfl, hunexpected, rfl⟩
    · exact ⟨_, rfl, hunexpected, rfl⟩

end Payload

/-! ### Behind the server `KEXINIT` -/

/-- What a handshake keeps of the events up to the server `KEXINIT`. -/
structure Seen (server : OwnedKexInit) (events : List ProbeEvent) (s : State) : Prop where
  kexinit : s.serverKexinit = some server
  preludeLines : s.preludeLines = ProbeEvent.preludeLines events
  serverIdent : s.serverIdent = ProbeEvent.identification events
  skipped : ProbeEvent.skipped events <+: s.skipped
  phase : s.phase ≠ .serverIdentification ∧ s.phase ≠ .serverKexInit
  outcome : ∀ e, s.outcome ≠ some (.protocolError (.ident e))

namespace Seen

variable {server : OwnedKexInit} {events : List ProbeEvent} {s s' : State} {payload : Bytes}

theorem failed (h : Seen server events s) (hf : Failed s s') : Seen server events s' where
  kexinit := (hf.serverKexinit.resolve_left h.phase.2).trans h.kexinit
  preludeLines := hf.preludeLines.trans h.preludeLines
  serverIdent := hf.serverIdent.trans h.serverIdent
  skipped := hf.skipped ▸ h.skipped
  phase := by simp [hf.phase]
  outcome := hf.ident h.phase.1

/-- What was seen stays seen when the handshake ends. -/
theorem finish (h : Seen server events s) {o : HandshakeOutcome}
    (ho : ∀ e, o ≠ .protocolError (.ident e)) : Seen server events (s.finish o) :=
  { h with
    phase := ⟨nofun, nofun⟩
    outcome := fun e heq => ho e (Option.some.inj heq) }

theorem skip (h : Seen server events s) (message : SkippedMessage) :
    Seen server events { s with skipped := s.skipped ++ [message] } :=
  { h with skipped := h.skipped.trans (List.prefix_append _ _) }

theorem handled (h : Seen server events s) (hh : Handled C u payload s s') :
    Seen server events s' := by
  cases hh with
  | failed hf => exact h.failed hf
  | skipped _ message => exact h.skip message
  | kexinit _ _ _ _ _ hphase => exact absurd hphase h.phase.2
  | guess => exact { h with }
  | reply | newkeys => exact { h with phase := ⟨nofun, nofun⟩ }
  | newkeysFailed =>
    exact { h with phase := ⟨nofun, nofun⟩, outcome := nofun }

theorem handledProtected (h : Seen server events s) (hh : HandledProtected C u payload s s') :
    Seen server events s' := by
  cases hh with
  | failed hf => exact h.failed hf
  | skipped _ message => exact h.skip message
  | extInfo | accept | rekey => exact { h with }
  | sealFailed =>
    exact { h with phase := ⟨nofun, nofun⟩, outcome := nofun }

/-- **Every move of the handshake keeps** what it and the probe have seen in step. -/
theorem move (h : Seen server events s) (hs : Basic s) (hm : Move C u s s') :
    Seen server events s' := by
  cases hm with
  | takeOutput => exact { h with }
  | failed _ hf => exact h.failed hf
  | distrust | badPadding | overBudget => exact { h with phase := ⟨nofun, nofun⟩, outcome := nofun }
  | trust => exact { h with phase := ⟨nofun, nofun⟩ }
  | adopt o _ _ hpending =>
    -- only the outcomes of a `DISCONNECT` wait, and they are no errors
    refine h.finish fun e heq => ?_
    have hfailure := (hs.pending o hpending).2
    rw [heq] at hfailure
    cases hfailure
  | prelude _ _ _ hphase | identified _ _ _ hphase => exact absurd hphase h.phase.1
  | unprotected payload bytes _ _ _ _ _ hh =>
    have hcounted : Seen server events (s.take payload bytes).count := { h with }
    exact hcounted.handled hh
  | wrapped payload bytes =>
    have htaken : Seen server events (s.take payload bytes) := { h with }
    exact htaken.finish nofun
  | protectedPacket a havail payload _ _ _ _ _ _ hh =>
    have hcounted : Seen server events
      ((s.takeOpened a (a.advance havail) payload).accept payload).count := { h with }
    exact hcounted.handledProtected hh
  | wrappedProtected a havail payload =>
    have htaken : Seen server events
      ((s.takeOpened a (a.advance havail) payload).accept payload) := { h with }
    exact htaken.finish nofun

end Seen

/-! ### In step -/

/-- A probe that has reported `events` and a handshake that has seen the same. -/
structure Aligned (u : Setup) (x : ProbeState) (events : List ProbeEvent) (s : State) : Prop where
  ongoing : x.ending = none
  idle : s.Idle
  stage : x.stage = .identification ∨ x.stage = .initialPackets
  phase : s.phase = x.stage.phase
  ident : s.identReader = x.ident
  limits : x.packets.limits =
    ⟨u.config.packet, u.config.maxPreKexPackets, u.config.maxPreKexBytes⟩
  packets : s.preKexPackets = x.packets.packets
  bytes : s.preKexBytes = x.packets.bytes
  /-- Strict KEX is not in effect yet, so that no counter wraps. -/
  strict : s.strictActive = false
  kexinit : s.serverKexinit = none
  preludeLines : s.preludeLines = ProbeEvent.preludeLines events
  serverIdent : s.serverIdent = ProbeEvent.identification events
  unidentified : x.stage = .identification → s.serverIdent = none
  skipped : s.skipped = ProbeEvent.skipped events

/-- The state of a handshake where a probe comes to a verdict. -/
def CameTo (events : List ProbeEvent) : ProbeVerdict → State → Prop
  | .proposal kexinit _, s => Seen kexinit.toOwned events s
  | .fixed (.disconnected code description _), s =>
    s.outcome = some (.serverDisconnected code description) ∧ s.serverKexinit = none
  | .fixed (.error e), s => s.outcome = some e.outcome ∧ s.serverKexinit = none
  | .fixed (.proposal _), _ => False
  | .fixed (.eof _ _), _ => False
  | .eof _, _ => False

/-- A turn of the handshake keeps up with a look of the probe. -/
def KeepsUp (u : Setup) (events : List ProbeEvent) (output w : Bytes)
    (t : Turn (State × Bytes) UInt8 Driven) : Look ProbeState ProbeEvent ProbeVerdict → Prop
  | .needMore => t = .wait
  | .event e x n => ∃ s, t = .go (s, output) (w.drop n) ∧ Aligned u x (events ++ [e]) s
  | .finished v _ => ∃ s w', t = .go (s, output) w' ∧ CameTo events v s

namespace Aligned

variable {x : ProbeState} {events : List ProbeEvent} {s : State} {client : KexInit}
  (h : Aligned u x events s) (w output : Bytes)
include h

/-- While both look for the line of the server, one finds it when the other does. -/
theorem line (hstage : x.stage = .identification) :
    KeepsUp u events output w (turn C u policy (s, output) w) (Probe.lookLine x w) := by
  have hphase : s.phase = .serverIdentification := by rw [h.phase, hstage, Probe.Stage.phase]
  have hnone : ProbeEvent.identification events = none :=
    h.serverIdent.symm.trans (h.unidentified hstage)
  rw [turn, round_of_line h.idle hphase, stepIdentification, Probe.lookLine]
  have hsame : s.identReader.feed (InputBuffer.full w).buf = x.ident.feed w :=
    h.ident ▸ rfl
  rw [hsame]
  rcases hfeed : x.ident.feed w with ⟨e | (_ | ⟨line, t, n⟩ | ⟨ident, n⟩), r⟩
  · exact ⟨_, _, rfl, rfl, h.kexinit⟩
  · rfl
  · obtain ⟨-, -, hle⟩ := IdentificationReader.feed_ok hfeed
    obtain ⟨b', hconsume, hrest⟩ := InputBuffer.full_consume hle
    simp only [hconsume, Checked.ok_bind]
    refine ⟨_, answerRound_again hrest, { h with
      idle := { h.idle with }, ident := rfl, preludeLines := ?_, serverIdent := ?_,
      skipped := ?_ }⟩
    · rw [ProbeEvent.preludeLines_append, h.preludeLines]
      rfl
    · exact h.serverIdent.trans (by rw [ProbeEvent.identification_append, hnone]; rfl)
    · exact h.skipped.trans (by rw [ProbeEvent.skipped_append]; exact (List.append_nil _).symm)
  · obtain ⟨-, -, -, hle, -⟩ := IdentificationReader.feed_ok hfeed
    obtain ⟨b', hconsume, hrest⟩ := InputBuffer.full_consume hle
    simp only [hconsume, Checked.ok_bind]
    refine ⟨_, answerRound_again hrest, { h with
      idle := { h.idle with }, stage := .inr rfl, phase := rfl, ident := rfl,
      unidentified := by simp, preludeLines := ?_, serverIdent := ?_, skipped := ?_ }⟩
    · exact h.preludeLines.trans
        (by rw [ProbeEvent.preludeLines_append]; exact (List.append_nil _).symm)
    · rw [ProbeEvent.identification_append, hnone]
      rfl
    · exact h.skipped.trans (by rw [ProbeEvent.skipped_append]; exact (List.append_nil _).symm)

theorem seen {server : KexInit} {payload : Bytes} {s' : State}
    (hcase : KexinitCase u payload s client server s') : Seen server.toOwned events s' := by
  have hskipped : ProbeEvent.skipped events <+: s.skipped := h.skipped ▸ List.prefix_refl _
  have hnone := h.idle.outcome
  cases hcase with
  | refused | late =>
    exact ⟨rfl, h.preludeLines, h.serverIdent, hskipped, ⟨nofun, nofun⟩, nofun⟩
  | answered =>
    refine ⟨rfl, h.preludeLines, h.serverIdent, hskipped, ⟨nofun, nofun⟩, fun e heq => ?_⟩
    cases hnone.symm.trans heq

theorem count (payload : Bytes) (totalLen : Nat) :
    Aligned u
      { x with packets := { x.packets with
          packets := x.packets.packets + 1,
          bytes := Checked.saturatingAdd x.packets.bytes totalLen } }
      events (s.take payload (Checked.saturatingAdd s.preKexBytes totalLen)).count :=
  { h with
    idle := { h.idle with }
    packets := congrArg (· + 1) h.packets
    bytes := congrArg (Checked.saturatingAdd · totalLen) h.bytes }

/-- While both look for packets, one finds the next when the other does. -/
theorem packet (hstage : x.stage = .initialPackets) (hclient : KexInit.decode u.iC = .ok client)
    (hseq : s.sendSeq + 1 < 2 ^ 32) :
    KeepsUp u events output w (turn C u policy (s, output) w) (Probe.look x w) := by
  have hphase : s.phase = .serverKexInit := by rw [h.phase, hstage, Probe.Stage.phase]
  have hkex : s.phase.isKex = true := by rw [hphase]; rfl
  obtain ⟨step, packets, hstep, hcase⟩ := x.packets.step_returns w
  have hlook : Probe.look x w = Probe.front.lookStep x packets step :=
    Front.look_packet h.ongoing (congrArg Probe.Stage.front hstage) hstep
  rw [hlook, turn, round_of_isKex h.idle hkex, stepUnprotected,
    decodeInitialPacket_eq, InputBuffer.full]
  cases hcase with
  | needMore t hdecision =>
    rw [h.limits] at hdecision
    rw [hdecision]
    rfl
  | refused e hdecision =>
    rw [h.limits] at hdecision
    rw [hdecision]
    exact ⟨_, _, rfl, rfl, h.kexinit⟩
  | overPackets _ hdecision hpackets =>
    rw [h.limits] at hdecision hpackets ⊢
    rw [hdecision, Checked.ok_bind]
    simp only
    rw [if_pos (h.packets ▸ hpackets)]
    exact ⟨_, _, rfl, rfl, h.kexinit⟩
  | overBytes _ hdecision hpackets hbytes =>
    rw [h.limits] at hdecision hpackets hbytes ⊢
    rw [hdecision, Checked.ok_bind]
    simp only
    rw [if_neg (Nat.not_le.mpr (h.packets ▸ hpackets)), if_pos (h.bytes ▸ hbytes)]
    exact ⟨_, _, rfl, rfl, h.kexinit⟩
  | accepted packet hdecision hpackets hbytes =>
    have hcounted := h.count packet.payload packet.totalLen
    rw [h.limits] at hdecision hpackets hbytes
    obtain ⟨_, hhandled, has⟩ := handleUnprotected_classified C packet.payload packet.totalLen
      (hcounted.phase.trans (by rw [hstage]; rfl)) hclient hseq
    have hturn : turn C u policy (s, output) w = _ :=
      turn_accepted h.idle hkex hdecision (h.packets ▸ hpackets) (h.bytes ▸ hbytes)
        (fun hwraps => Bool.false_ne_true (h.strict.symm.trans hwraps.2.1)) hhandled
    rw [turn, round_of_isKex h.idle hkex, stepUnprotected, decodeInitialPacket_eq,
      InputBuffer.full] at hturn
    rw [hturn]
    cases hclassified : classifyInitial packet.payload packet.totalLen with
    | needMore =>
      rw [hclassified] at has
      exact has.elim
    | skipped message =>
      rw [hclassified] at has
      obtain rfl := classifyInitial_skipped hclassified
      subst has
      obtain ⟨hlines, hident, hskipped⟩ := ProbeEvent.of_ofSkipped message
      have hevent : Probe.front.skipped message = .ofSkipped message := rfl
      refine ⟨_, rfl, { hcounted with
        idle := { hcounted.idle with }, preludeLines := ?_, serverIdent := ?_, skipped := ?_ }⟩
      · rw [hevent, ProbeEvent.preludeLines_append, hlines, List.append_nil]
        exact h.preludeLines
      · rw [hevent, ProbeEvent.identification_append, hident, Option.or_none]
        exact h.serverIdent
      · rw [hevent, ProbeEvent.skipped_append, hskipped, ← h.skipped]
        rfl
    | kexInit =>
      rw [hclassified] at has
      exact ⟨_, _, rfl, hcounted.seen has⟩
    | disconnect | error =>
      rw [hclassified] at has
      exact ⟨_, _, rfl, has.1, has.2.trans h.kexinit⟩

/-- **One step of both**: what the probe finds in its input, the handshake takes in one turn. -/
theorem keepsUp (hclient : KexInit.decode u.iC = .ok client) (hseq : s.sendSeq + 1 < 2 ^ 32) :
    KeepsUp u events output w (turn C u policy (s, output) w) (Probe.look x w) := by
  rcases h.stage with hstage | hstage
  · have hlook : Probe.look x w = Probe.lookLine x w :=
      Front.look_line h.ongoing (congrArg Probe.Stage.front hstage) w
    rw [hlook]
    exact h.line w output hstage
  · exact h.packet w output hstage hclient hseq

end Aligned

/-! ### Whole runs -/

/-- How a probe that reported `events` and a handshake on the same stream come out. -/
inductive SameFate (events : List ProbeEvent) : ProbeEnd → Driven → Prop where
  /-- The handshake has the proposal too, whatever becomes of it afterwards. -/
  | proposal (p : Proposal) (o : HandshakeOutcome) (report : HandshakeReport) (output : Bytes)
      (hserver : report.advertisedServer = some p.kexinit)
      (hlines : report.serverPreludeLines = ProbeEvent.preludeLines events)
      (hident : report.serverIdentification = ProbeEvent.identification events)
      (hskipped : ProbeEvent.skipped events <+: report.skippedMessages)
      (ho : ∀ e, o ≠ .protocolError (.ident e)) :
      SameFate events (.proposal p) (.done o report output)
  | panicked (p : Proposal) (panic : Panic) : SameFate events (.proposal p) (.panicked panic)
  | disconnected (code : UInt32) (description languageTag : Bytes) (report : HandshakeReport)
      (output : Bytes) (hserver : report.advertisedServer = none) :
      SameFate events (.disconnected code description languageTag)
        (.done (.serverDisconnected code description) report output)
  | eof (stage : Probe.Stage) (pending : Nat) (report : HandshakeReport) (output : Bytes)
      (hserver : report.advertisedServer = none) :
      SameFate events (.eof stage pending) (.done (.eof stage.phase) report output)
  | error (e : InitialError) (report : HandshakeReport) (output : Bytes)
      (hserver : report.advertisedServer = none) :
      SameFate events (.error e) (.done e.outcome report output)

section Runs

variable {events : List ProbeEvent} {s : State} {w output rest : Bytes} {r : Driven}
  (hline : ∃ content, u.clientLine = content ++ [0x0d, 0x0a] ∧
    u.clientLine.length ≤ maxIdentificationLine)
include hline

/-- The report of a handshake that goes on behind the `KEXINIT` shows what was seen before. -/
theorem Seen.concluded {p : Proposal} (h : Seen p.kexinit events s) (o : HandshakeOutcome)
    (ho : ∀ e, o ≠ .protocolError (.ident e)) (output : Bytes) :
    SameFate events (.proposal p) (conclude u o s output) := by
  obtain ⟨report, hdone, hserver, hlines, hident, hskipped⟩ := conclude_eq_done hline o s output
  rw [hdone]
  exact .proposal p o report output (hserver.trans h.kexinit) (hlines.trans h.preludeLines)
    (hident.trans h.serverIdent) (hskipped ▸ h.skipped) ho

/-- **A run behind the `KEXINIT`.** -/
theorem Seen.run {p : Proposal} (h : Seen p.kexinit events s) (hs : Sound C u s)
    (hrun : Whole (turn C u policy) (turnEnded u) (s, output) w r) :
    SameFate events (.proposal p) r := by
  refine hrun.result (I := fun y => Sound C u y.1 ∧ Seen p.kexinit events y.1) ⟨hs, h⟩ ?_ ?_ ?_
  · rintro ⟨s, output⟩ y w w' ⟨hs, h⟩ hgo
    refine ⟨sound_of_go hs rfl hgo, ?_⟩
    rcases move_of_go hs rfl hgo with hsame | hmove
    · exact hsame ▸ h
    · exact h.move hs.basic hmove
  · rintro ⟨s, output⟩ w r ⟨hs, h⟩ hstop
    rcases outcome_of_stop hs hstop with ⟨panic, rfl⟩ | ⟨o, ho, rfl⟩
    · exact .panicked p panic
    · exact h.concluded hline o (fun e heq => h.outcome e (heq ▸ ho)) output
  · rintro ⟨s, output⟩ ⟨hs, h⟩
    rw [turnEnded, ClientHandshake.inputEnded]
    cases ho : s.outcome with
    | some o => exact h.concluded hline o (fun e heq => h.outcome e (heq ▸ ho)) output
    | none =>
      exact (h.finish (o := .eof s.phase) (by simp)).concluded hline (.eof s.phase) (by simp) output

/-- What a handshake comes to where the probe has come to a verdict. -/
theorem CameTo.fate {v : ProbeVerdict} (h : CameTo events v s) (hs : Sound C u s)
    (hrun : Whole (turn C u policy) (turnEnded u) (s, output) w r) (rest : Bytes) :
    SameFate events (v.outcome rest) r := by
  cases v with
  | proposal => exact Seen.run hline h hs hrun
  | eof => exact h.elim
  | fixed ending =>
    cases ending with
    | proposal => exact h.elim
    | eof => exact h.elim
    | disconnected code description languageTag =>
      obtain ⟨report, hdone, hserver, -⟩ :=
        conclude_eq_done hline (.serverDisconnected code description) s output
      rw [hrun.of_stop (turn_finished h.1 w), hdone]
      exact .disconnected code description languageTag report output (hserver.trans h.2)
    | error e =>
      obtain ⟨report, hdone, hserver, -⟩ := conclude_eq_done hline e.outcome s output
      rw [hrun.of_stop (turn_finished h.1 w), hdone]
      exact .error e report output (hserver.trans h.2)

/-- **A whole run of both**, by induction on the one of the probe. -/
theorem Aligned.run {x : Watch ProbeState ProbeEvent} {client : KexInit}
    {result : List ProbeEvent × Nat × ProbeVerdict}
    (hprobe : Whole (Watch.turn Probe.look) (Watch.ended fun s => .eof s.stage) x w result)
    (h : Aligned u x.state x.events s) (hs : Sound C u s)
    (hclient : KexInit.decode u.iC = .ok client)
    (hrun : Whole (turn C u policy) (turnEnded u) (s, output) w r) (rest : Bytes) :
    SameFate result.1 (result.2.2.outcome rest) r := by
  induction hprobe generalizing s with
  | @go x x' w w' result hturn _ ih =>
    have hstep : KeepsUp u x.events output w (turn C u policy (s, output) w) _ :=
      h.keepsUp w output hclient hs.basic.sendSeq_lt
    rw [Watch.turn] at hturn
    split at hturn
    · cases hturn
    · rename_i e state n hlook
      cases hturn
      rw [hlook] at hstep
      obtain ⟨s', hgo, haligned⟩ := hstep
      exact ih haligned (sound_of_go hs rfl hgo) (hrun.of_go hgo)
    · cases hturn
  | @ended x w hturn =>
    have hstep : KeepsUp u x.events output w (turn C u policy (s, output) w) _ :=
      h.keepsUp w output hclient hs.basic.sendSeq_lt
    have hlook : Probe.look x.state w = .needMore := by
      rw [Watch.turn] at hturn
      split at hturn
      · assumption
      all_goals cases hturn
    rw [hlook] at hstep
    obtain ⟨report, hdone, hserver, -⟩ := conclude_eq_done hline (.eof s.phase)
      (s.finish (.eof s.phase)) output
    rw [hrun.of_wait hstep, turnEnded, ClientHandshake.inputEnded]
    simp only [h.idle.outcome]
    rw [hdone, h.phase]
    exact .eof _ _ report output (hserver.trans h.kexinit)
  | @stop x w result hturn =>
    have hstep : KeepsUp u x.events output w (turn C u policy (s, output) w) _ :=
      h.keepsUp w output hclient hs.basic.sendSeq_lt
    rw [Watch.turn] at hturn
    split at hturn
    · cases hturn
    · cases hturn
    · rename_i v n hlook
      cases hturn
      rw [hlook] at hstep
      obtain ⟨s', w', hgo, hcame⟩ := hstep
      exact hcame.fate hline (sound_of_go hs rfl hgo) (hrun.of_go hgo) rest

end Runs

/-! ### The agreement -/

/-- **Agreement up to the server `KEXINIT`** of a probe and a driven handshake. -/
structure AgreeUpToKexinit (events : List ProbeEvent) (ending : ProbeEnd) (r : Driven) : Prop where
  /-- The handshake ends; if it panics, then behind the `KEXINIT`. -/
  ends : (∃ o report output, r = .done o report output) ∨
    (∃ panic, r = .panicked panic) ∧ ∃ p, ending = .proposal p
  /-- The probe has a proposal exactly when the handshake has it. -/
  proposal : ∀ {o report output}, r = .done o report output → ∀ kexinit,
    (∃ p : Proposal, ending = .proposal p ∧ p.kexinit = kexinit) ↔
      report.advertisedServer = some kexinit
  /-- Both have then observed the same. -/
  observed : ∀ {o report output p}, r = .done o report output → ending = .proposal p →
    ProbeEvent.preludeLines events = report.serverPreludeLines ∧
      ProbeEvent.identification events = report.serverIdentification ∧
      ProbeEvent.skipped events <+: report.skippedMessages
  /-- Both were disconnected, with the same reason. -/
  disconnected : ∀ {o report output}, r = .done o report output → ∀ code description,
    (∃ languageTag, ending = .disconnected code description languageTag) ↔
      o = .serverDisconnected code description ∧ report.advertisedServer = none
  /-- The input ended for both. -/
  eof : ∀ {o report output}, r = .done o report output →
    ((∃ stage pending, ending = .eof stage pending) ↔
      (∃ phase, o = .eof phase) ∧ report.advertisedServer = none)
  /-- Both met the same identification error. -/
  ident : ∀ {o report output}, r = .done o report output → ∀ e,
    ending = .error (.ident e) ↔ o = .protocolError (.ident e)
  /-- In the remaining cases both fail, for the same reason, and the handshake has no `KEXINIT`. -/
  failed : ∀ {o report output}, r = .done o report output → ∀ {e}, ending = .error e →
    o = e.outcome ∧ report.advertisedServer = none

/-- Errors of the probe are no disconnects, and identification errors are what they are. -/
theorem InitialError.outcome_cases (e : InitialError) :
    (∀ code description, e.outcome ≠ .serverDisconnected code description) ∧
      (∀ phase, e.outcome ≠ .eof phase) ∧
      ∀ e', e = .ident e' ↔ e.outcome = .protocolError (.ident e') := by
  cases e <;> simp [InitialError.outcome]

namespace SameFate

variable {events : List ProbeEvent} {ending : ProbeEnd} {o : HandshakeOutcome}
  {report : HandshakeReport} {output : Bytes} (h : SameFate events ending (.done o report output))
include h

/-- The probe ends with a proposal exactly if the handshake reports that `KEXINIT` as the one the
server sent. -/
theorem proposal_iff (kexinit : OwnedKexInit) :
    (∃ p : Proposal, ending = .proposal p ∧ p.kexinit = kexinit) ↔
      report.advertisedServer = some kexinit := by
  cases h with
  | proposal p _ _ _ hserver | disconnected _ _ _ _ _ hserver | eof _ _ _ _ hserver
  | error _ _ _ hserver => simp [hserver]

/-- The probe ends with a disconnect exactly if the handshake ended with the same one before it had
the `KEXINIT` of the server. -/
theorem disconnected_iff (code : UInt32) (description : Bytes) :
    (∃ languageTag, ending = .disconnected code description languageTag) ↔
      o = .serverDisconnected code description ∧ report.advertisedServer = none := by
  cases h with
  | proposal p _ _ _ hserver | disconnected _ _ _ _ _ hserver | eof _ _ _ _ hserver =>
    simp [hserver]
  | error e _ _ hserver => simp [hserver, e.outcome_cases.1]

/-- The probe meets the end of the input exactly if the handshake does before it has the `KEXINIT`
of the server. -/
theorem eof_iff : (∃ stage pending, ending = .eof stage pending) ↔
    (∃ phase, o = .eof phase) ∧ report.advertisedServer = none := by
  cases h with
  | proposal p _ _ _ hserver | disconnected _ _ _ _ _ hserver | eof _ _ _ _ hserver =>
    simp [hserver]
  | error e _ _ hserver => simp [hserver, e.outcome_cases.2.1]

/-- The probe ends with an identification error exactly if the handshake ended with the same one. -/
theorem ident_iff (e : IdentError) :
    ending = .error (.ident e) ↔ o = .protocolError (.ident e) := by
  cases h with
  | proposal _ _ _ _ _ _ _ _ ho => simp [ho e]
  | disconnected => simp
  | eof => simp
  | error e' => simp [e'.outcome_cases.2.2 e]

end SameFate

theorem SameFate.agree {events : List ProbeEvent} {ending : ProbeEnd} {r : Driven}
    (h : SameFate events ending r) : AgreeUpToKexinit events ending r where
  ends := by
    cases h with
    | panicked p panic => exact .inr ⟨⟨panic, rfl⟩, p, rfl⟩
    | proposal p o report output => exact .inl ⟨o, report, output, rfl⟩
    | disconnected _ _ _ report output | eof _ _ report output | error _ report output =>
      exact .inl ⟨_, report, output, rfl⟩
  proposal hdone := (hdone ▸ h).proposal_iff
  observed := by
    rintro o report output p rfl rfl
    cases h with
    | proposal _ _ _ _ _ hlines hident hskipped =>
      exact ⟨hlines.symm, hident.symm, hskipped⟩
  disconnected hdone := (hdone ▸ h).disconnected_iff
  eof hdone := (hdone ▸ h).eof_iff
  ident hdone := (hdone ▸ h).ident_iff
  failed := by
    rintro o report output rfl e rfl
    cases h with
    | error _ _ _ hserver => exact ⟨rfl, hserver⟩

/-- A handshake that has sent its first messages is aligned with a fresh probe. -/
theorem Built.aligned {config : HandshakeConfig} {provider : Option SignatureProvider}
    {h : ClientHandshake} (hb : Built C config provider h) {limits : InitialLimits}
    (hlimits : limits = ⟨config.packet, config.maxPreKexPackets, config.maxPreKexBytes⟩) :
    Aligned h.setup ⟨.identification, .new config.ident, .new limits, none⟩ []
      { h.state with
        out := [], hist := { h.state.hist with taken := h.state.hist.taken ++ h.state.out } } := by
  obtain ⟨_, _, _, _, _, -, -, -, -, hstate⟩ := hb.start
  rw [hstate]
  exact {
    ongoing := rfl, idle := ⟨rfl, rfl, rfl⟩, stage := .inl rfl, phase := rfl, ident := rfl
    limits := by rw [hb.config_eq, ← hlimits]; rfl
    packets := rfl, bytes := rfl, strict := rfl, kexinit := rfl, preludeLines := rfl
    serverIdent := rfl, unidentified := fun _ => rfl, skipped := rfl }

/-- A handshake that was built has something to send, and no outcome. -/
theorem Built.opens {config : HandshakeConfig} {provider : Option SignatureProvider}
    {h : ClientHandshake} (hb : Built C config provider h) :
    h.state.outcome = none ∧ h.state.out ≠ [] := by
  obtain ⟨_, _, _, wire, _, -, -, -, -, hstate⟩ := hb.start
  obtain ⟨content, hline, -⟩ := hb.clientLine
  rw [hstate, hline]
  refine ⟨rfl, fun hempty => ?_⟩
  change [] ++ (content ++ [0x0d, 0x0a]) ++ wire = [] at hempty
  simp at hempty

/-- **The probe and the handshake agree on everything up to the server `KEXINIT`.** With the same
limits and on the same stream, however it is cut for each of them within its room, and with room for
the four bytes of `SSH-`. -/
theorem probe_handshake_agree {ρ ε : Type}
    {tryFillBytes : (n : Nat) → ρ → Except ε (ByteVec n × ρ)} {config : HandshakeConfig} {rng : ρ}
    {provider : Option SignatureProvider} {h : ClientHandshake} {probeConfig : ProbeConfig}
    {p p' : Probe} {pieces chunks : List Bytes} {events : List ProbeEvent} {ending : ProbeEnd}
    {arrived : Bytes}
    (hlines : 4 ≤ max config.ident.maxPreludeLine.toNat config.ident.maxIdentificationLine.toNat)
    (hident : probeConfig.ident = config.ident) (hpacket : probeConfig.packet = config.packet)
    (hpackets : probeConfig.maxPacketsBeforeKexinit = config.maxPreKexPackets)
    (hbytes : probeConfig.maxBytesBeforeKexinit = config.maxPreKexBytes)
    (hprobe : Probe.new probeConfig = .ok (.ok p))
    (hbuild : build C tryFillBytes config rng provider = .ok (.ok h))
    (hsession : Probe.machine.Session p pieces events ending arrived p')
    (hstream : pieces.flatten = chunks.flatten) (hfit : h.driven C policy chunks ≠ .badChunk) :
    AgreeUpToKexinit events ending (h.driven C policy chunks) := by
  have hb := build_ok hbuild
  obtain ⟨_, -, -, -, -, hclient, -⟩ := hb.start
  obtain ⟨_, hcapacity, hkept, hheld, hstate⟩ := Probe.made hprobe
  have hmax : 4 ≤ p.state.ident.limits.maxLine := by
    rw [hstate, hident]
    exact hlines
  obtain ⟨n, v, hwhole, -, rfl, -⟩ := hsession.whole (Probe.machine_implements hcapacity)
    Probe.front.look_steady hkept hmax hheld
  -- the first turn of the handshake sends what was queued
  obtain ⟨hnone, hout⟩ := hb.opens
  have hsend : turn C h.setup policy (h.state, []) chunks.flatten = _ :=
    turn_send hnone hout chunks.flatten
  have hrun := (hb.driven_whole hlines hfit).of_go hsend
  have hlimits : probeConfig.initialLimits =
      ⟨config.packet, config.maxPreKexPackets, config.maxPreKexBytes⟩ := by
    rw [ProbeConfig.initialLimits, hpacket, hpackets, hbytes]
  have haligned := hb.aligned hlimits
  rw [hstate, hstream, hident] at hwhole
  exact (haligned.run hb.clientLine hwhole (sound_of_go hb.sound rfl hsend) hclient hrun _).agree

/-- A probe with the limits of the reference client. -/
def Reference.probeConfig : ProbeConfig where
  softwareVersion := "tatami_0.1.0"
  ident := config.ident
  packet := config.packet
  maxPacketsBeforeKexinit := config.maxPreKexPackets
  maxBytesBeforeKexinit := config.maxPreKexBytes

/-- The reference client and a probe, on the identification line and the `KEXINIT` of a server. -/
theorem probe_handshake_agree_reference :
    ∃ p pieces events ending arrived p', Probe.new probeConfig = .ok (.ok p) ∧
      Probe.machine.Session p pieces events ending arrived p' ∧
      pieces.flatten = serverLine ++ [0x0d, 0x0a] ++
        framed serverKexInit ∧
      AgreeUpToKexinit events ending (client.driven reference
        (fun _ => .untrusted .noPolicy)
        [serverLine ++ [0x0d, 0x0a], framed serverKexInit]) := by
  have hlines : 4 ≤ max config.ident.maxPreludeLine.toNat
      config.ident.maxIdentificationLine.toNat := by decide
  have hprobe : ∃ p, Probe.new probeConfig = .ok (.ok p) := ⟨_, rfl⟩
  obtain ⟨p, hprobe⟩ := hprobe
  have hmax : 4 ≤ probeConfig.ident.maxLine := hlines
  obtain ⟨pieces, events, ending, arrived, p', hpieces, hsession⟩ :=
    (Probe.chunkIndependent hmax hprobe).served (serverLine ++ [0x0d, 0x0a] ++
      framed serverKexInit)
  refine ⟨p, pieces, events, ending, arrived, p', hprobe, hsession, hpieces, ?_⟩
  exact probe_handshake_agree hlines rfl rfl rfl rfl hprobe build_client hsession
    (by rw [hpieces]; simp) (by decide +kernel)

/-! ### Limits too short for the four bytes -/

/-- The default configuration, with lines of at most three bytes. -/
def Reference.shortLines : HandshakeConfig :=
  { HandshakeConfig.default with
    ident := { IdentLimits.default with maxPreludeLine := 3, maxIdentificationLine := 3 } }

/-- A probe with lines of at most three bytes. -/
def Reference.shortProbe : ProbeConfig := { probeConfig with ident := shortLines.ident }

/-- Below four bytes the two can disagree: of `SSH-` in two pieces the probe makes a prelude line
that is too long, and of `SSH-` in one piece the handshake makes an identification that is. -/
theorem short_lines_disagree :
    ∃ h p arrived p' report output,
      build reference entropy shortLines 1 none = .ok (.ok h) ∧
      Probe.new shortProbe = .ok (.ok p) ∧
      Probe.machine.Session p [utf8 "SSH", utf8 "-"] [] (.error (.ident .preludeLineTooLong))
        arrived p' ∧
      h.driven reference (fun _ => .untrusted .noPolicy) [utf8 "SSH-"] =
        .done (.protocolError (.ident .identificationTooLong)) report output := by
  have hbuilt : ((built
      (build reference entropy shortLines 1 none)).bind fun h =>
        (h.driven reference (fun _ => .untrusted .noPolicy) [utf8 "SSH-"]).outcome) =
      some (.protocolError (.ident .identificationTooLong)) := by decide +kernel
  obtain ⟨h, hh, hdriven⟩ := Option.bind_eq_some_iff.mp hbuilt
  obtain ⟨report, output, hdone⟩ := Driven.eq_done hdriven
  have hsession : ∃ p arrived p', Probe.new shortProbe = .ok (.ok p) ∧
      Probe.machine.Session p [utf8 "SSH", utf8 "-"] [] (.error (.ident .preludeLineTooLong))
        arrived p' :=
    ⟨_, _, _, rfl, .feed rfl (by decide) (by decide) (.finished rfl)⟩
  obtain ⟨p, arrived, p', hprobe, hsession⟩ := hsession
  exact ⟨h, p, arrived, p', report, output, eq_of_built hh, hprobe, hsession, hdone⟩

end Tatami.Tcp
