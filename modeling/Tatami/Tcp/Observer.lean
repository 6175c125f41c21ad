import Tatami.Tcp.Front

/-! # The incoming-connection observer

The server side of the identification exchange and of the client's first `KEXINIT`. A client may not
send prelude lines: bytes that cannot start an identification end the observation with a bounded
sample of them. As the probe, it is one of the machines at the front of a connection
(`Observer.front`); the arm that the source calls unreachable is. -/

namespace Tatami.Tcp

open Tatami.Wire IdentificationReader

/-! ### Configuration -/

/-- Configuration of an observer. -/
structure ObserverConfig where
  softwareVersion : String
  initial : InitialLimits
  /-- Stop after a valid client identification. -/
  bannerOnly : Bool
  /-- Bytes of unexpected input kept as a sample. -/
  unexpectedSample : UInt64
  /-- Longest accepted client identification line, terminator included. -/
  maxIdentificationLine : UInt64
  deriving DecidableEq

namespace ObserverConfig

/-- The default configuration. -/
def default : ObserverConfig where
  softwareVersion := "tatami_observer_0.1.0"
  initial := .default
  bannerOnly := false
  unexpectedSample := 256
  maxIdentificationLine := 255

/-- Largest amount of unconsumed input the observer will hold. -/
def bufferCapacity (config : ObserverConfig) : Checked Nat := do
  let packet ← Checked.addUsize config.initial.packet.maxPacketLength.toNat headerLen
  Checked.addUsize (max packet config.maxIdentificationLine.toNat)
    config.maxIdentificationLine.toNat

/-- The limits of the reader: prelude lines are disabled. -/
def identLimits (config : ObserverConfig) : IdentLimits where
  maxPreludeLines := 0
  maxPreludeBytes := 0
  maxPreludeLine := config.maxIdentificationLine
  maxIdentificationLine := config.maxIdentificationLine

end ObserverConfig

/-! ### The machine -/

/-- Which phase the observer is in. -/
inductive ObserverStage where
  | clientIdentification
  | initialPackets
  | finished
  deriving DecidableEq, Repr

/-- A non-terminal observation. -/
inductive ObserverEvent where
  | clientIdentification (ident : OwnedIdentification)
  | skipped (message : SkippedMessage)
  deriving DecidableEq

/-- Terminal outcome of an observer. -/
inductive ObservationOutcome where
  | bannerOnly
  | proposal (proposal : Proposal)
  | disconnected (reasonCode : UInt32) (description languageTag : Bytes)
  | unexpectedInput (sample : Bytes) (truncated : Bool)
  | eof (stage : ObserverStage) (pendingBytes : Nat)
  | error (e : InitialError)
  deriving DecidableEq

/-- Result of `step`. -/
abbrev ObserverStep := Answer ObserverEvent ObservationOutcome

/-- The fields of an observer, except for the input buffer. -/
structure ObserverState where
  bannerOnly : Bool
  unexpectedSample : Nat
  stage : ObserverStage
  ident : IdentificationReader
  packets : InitialPackets
  /-- The terminal outcome, once there is one. -/
  ending : Option ObservationOutcome

/-- The observer. -/
structure Observer where
  serverLine : Bytes
  state : ObserverState
  buf : InputBuffer

/-- Ends the observation. -/
def ObserverState.finish (ending : ObservationOutcome) (s : ObserverState) : ObserverState :=
  { s with stage := .finished, ending := some ending }

namespace Observer

/-- What is kept of input that cannot start an identification. -/
def unexpectedInput (s : ObserverState) (buf : Bytes) : ObservationOutcome :=
  let n := min buf.length s.unexpectedSample
  .unexpectedInput (buf.take n) (decide (n < buf.length))

/-- Looks for the identification line. -/
def stepIdentification (s : ObserverState) (b : InputBuffer) :
    Checked (ObserverStep × ObserverState × InputBuffer) :=
  if startsIdentification b.buf = some false then
    let outcome := unexpectedInput s b.buf
    pure (.finished outcome, s.finish outcome, b.clear)
  else
    match s.ident.feed b.buf with
    | (.ok .needMore, r) => pure (.needMore, { s with ident := r }, b)
    | (.ok (.prelude _ _ _), _) =>
      .error (.unreachable "non-SSH lines are intercepted before the reader")
    | (.ok (.identification ident consumed), r) => do
      let b' ← b.consume consumed
      let s := { s with ident := r }
      -- in banner-only mode the next `step` returns the recorded outcome
      let s := if s.bannerOnly then s.finish .bannerOnly else { s with stage := .initialPackets }
      pure (.event (.clientIdentification ident.toOwned), s, b')
    | (.error e, r) =>
      pure (.finished (.error (.ident e)), { s with ident := r }.finish (.error (.ident e)), b)

/-- Looks for an initial packet. -/
def stepPacket (s : ObserverState) (b : InputBuffer) :
    Checked (ObserverStep × ObserverState × InputBuffer) := do
  let (step, packets) ← s.packets.step b.buf
  let s := { s with packets }
  match step with
  | .needMore => pure (.needMore, s, b)
  | .skipped message consumed =>
    let b ← b.consume consumed
    pure (.event (.skipped message), s, b)
  | .kexInit kexinit payload consumed =>
    let unexamined ← Checked.sub b.buf.length consumed
    let ending := .proposal (.fromKexinit kexinit payload unexamined)
    let b ← b.consume consumed
    pure (.finished ending, s.finish ending, b)
  | .disconnect disconnect consumed =>
    let ending :=
      .disconnected disconnect.reasonCode disconnect.description disconnect.languageTag
    let b ← b.consume consumed
    pure (.finished ending, s.finish ending, b)
  | .error e =>
    let b ← b.consume 0
    pure (.finished (.error e), s.finish (.error e), b)

/-- Advances by at most one observation. -/
def advance (s : ObserverState) (b : InputBuffer) :
    Checked (ObserverStep × ObserverState × InputBuffer) :=
  match s.ending with
  | some ending => pure (.finished ending, s, b)
  | none =>
    match s.stage with
    | .clientIdentification => stepIdentification s b
    | .initialPackets => stepPacket s b
    | .finished => .error (.unreachable "finished without outcome")

/-- Creates an observer. -/
def new (config : ObserverConfig) : Checked (Except InvalidLocalIdentification Observer) :=
  match buildIdentification config.softwareVersion with
  | .error e => pure (.error e)
  | .ok serverLine => do
    let capacity ← config.bufferCapacity
    pure (.ok
      { serverLine
        state :=
          { bannerOnly := config.bannerOnly,
            unexpectedSample := config.unexpectedSample.toNat,
            stage := .clientIdentification, ident := .new config.identLimits,
            packets := .new config.initial, ending := none }
        buf := .new capacity })

/-- Advances by at most one observation. -/
def step (o : Observer) : Checked (ObserverStep × Observer) := do
  let (answer, state, buf) ← advance o.state o.buf
  pure (answer, { o with state, buf })

/-- Appends received bytes; input that does not fit ends the observation. Ignored once finished. -/
def feed (data : Bytes) (o : Observer) : Observer :=
  if o.state.stage = .finished then o
  else
    match o.buf.push data with
    | .ok buf => { o with buf }
    | .error e => { o with state := o.state.finish (.error (.inputOverflow e)) }

/-- Signals end of input. -/
def inputEnded (o : Observer) : ObservationOutcome × Observer :=
  match o.state.ending with
  | some ending => (ending, o)
  | none =>
    let ending := .eof o.state.stage o.buf.buf.length
    (ending, { o with state := o.state.finish ending })

/-- Bytes that may still be fed. -/
def room (o : Observer) : Nat := o.buf.room

/-- The observer as a machine. -/
def machine : Machine Observer UInt8 ObserverEvent ObservationOutcome where
  step o := o.step
  feed data o := o.feed data
  inputEnded o := o.inputEnded
  room o := o.room

end Observer

/-! ### The observer at the front -/

/-- What an observer comes to, without the bytes behind it. -/
inductive ObserverVerdict where
  | fixed (outcome : ObservationOutcome)
  | proposal (kexinit : KexInit) (payload : Bytes)
  | unexpected (limit : Nat)
  | eof (stage : ObserverStage)

/-- The outcome, with the bytes behind the verdict. -/
def ObserverVerdict.outcome : ObserverVerdict → Bytes → ObservationOutcome
  | .fixed outcome, _ => outcome
  | .proposal kexinit payload, rest => .proposal (.fromKexinit kexinit payload rest.length)
  | .unexpected limit, rest => .unexpectedInput (rest.take limit) (decide (limit < rest.length))
  | .eof stage, rest => .eof stage rest.length

/-- What did not fit, if that ended the observation. -/
def ObservationOutcome.overflow? : ObservationOutcome → Option InputOverflow
  | .error e => e.overflow?
  | _ => none

/-- The stage at the front. -/
def ObserverStage.front : ObserverStage → FrontStage
  | .clientIdentification => .line
  | .initialPackets => .packets
  | .finished => .finished

namespace Observer

/-- What `stepIdentification` makes of the bytes that are held. There are no prelude lines. -/
def lookLine (s : ObserverState) (w : Bytes) : Look ObserverState ObserverEvent ObserverVerdict :=
  if startsIdentification w = some false then .finished (.unexpected s.unexpectedSample) 0
  else
    match s.ident.feed w with
    | (.ok (.identification ident n), r) =>
      let s := { s with ident := r }
      .event (.clientIdentification ident.toOwned)
        (if s.bannerOnly then s.finish .bannerOnly else { s with stage := .initialPackets }) n
    | (.error e, _) => .finished (.fixed (.error (.ident e))) 0
    | _ => .needMore

/-- The parts of the observer. -/
def parts : FrontParts Observer ObserverState ObserverEvent ObserverVerdict ObservationOutcome where
  state o := o.state
  buf o := o.buf
  put state buf o := { o with state, buf }
  stage s := s.stage.front
  ending s := s.ending
  ident s := s.ident
  packets s := s.packets
  withPackets packets s := { s with packets }
  finish := ObserverState.finish
  skipped := .skipped
  proposal := .proposal
  disconnected d := .disconnected d.reasonCode d.description d.languageTag
  error := .error
  eof s n := .eof s.stage n
  overflow? := ObservationOutcome.overflow?
  fixed := .fixed
  proposed := .proposal
  ended s := .eof s.stage
  outcome := ObserverVerdict.outcome
  stepLine := stepIdentification
  lookLine := lookLine
  stuck := "finished without outcome"

variable {s : ObserverState} {b : InputBuffer}

theorem unexpectedInput_eq (s : ObserverState) (w : Bytes) :
    unexpectedInput s w = ObserverVerdict.outcome (.unexpected s.unexpectedSample) w := by
  have hsample : w.take (min w.length s.unexpectedSample) = w.take s.unexpectedSample := by
    rw [List.take_eq_take_iff]
    omega
  have htruncated : min w.length s.unexpectedSample < w.length ↔ s.unexpectedSample < w.length := by
    omega
  rw [unexpectedInput, ObserverVerdict.outcome, hsample, decide_eq_decide.mpr htruncated]

/-- The search for a line answers what the look at the bytes held says. -/
theorem stepIdentification_look (hend : s.ending = none) :
    parts.AnswersBy s b (stepIdentification s b) (lookLine s b.buf) := by
  rw [stepIdentification, lookLine]
  by_cases hstart : startsIdentification b.buf = some false
  · rw [if_pos hstart, if_pos hstart, unexpectedInput_eq]
    exact ⟨_, b.clear, rfl, rfl, rfl, ⟨rfl, rfl⟩, rfl⟩
  rw [if_neg hstart, if_neg hstart]
  rcases hfeed : s.ident.feed b.buf with ⟨e | (_ | ⟨_, t, n⟩ | ⟨_, n⟩), r⟩
  · obtain rfl := feed_error hfeed
    exact ⟨_, b, rfl, rfl, rfl, ⟨rfl, rfl⟩, rfl⟩
  · obtain rfl : r = s.ident := (feed_ok hfeed).2
    exact ⟨rfl, hend⟩
  · exact absurd (feed_prelude_start hfeed) hstart
  · obtain ⟨-, -, -, hle, -⟩ := feed_ok hfeed
    obtain ⟨b', hb⟩ := InputBuffer.consume_returns hle
    simp only [hb]
    exact ⟨b', hb, rfl⟩

/-- More input changes no line that was found. -/
theorem lookLine_append {w : Bytes} (hs : 4 ≤ s.ident.limits.maxLine)
    (hlook : lookLine s w ≠ .needMore) (d : Bytes) : lookLine s (w ++ d) = lookLine s w := by
  cases hkind : startsIdentification w with
  | none =>
    -- Too few bytes to tell: the reader waits, whatever its limits.
    rw [lookLine, hkind, s.ident.feed_undecided hs hkind] at hlook
    exact absurd rfl hlook
  | some kind =>
    have hkind' := startsIdentification_append hkind d
    cases kind with
    | false => rw [lookLine, lookLine, if_pos hkind, if_pos hkind']
    | true =>
      have hfeed : (s.ident.feed w).1 ≠ .ok .needMore := by
        intro hmore
        apply hlook
        rw [lookLine, hkind, ← Prod.mk.eta (p := s.ident.feed w), hmore]
        rfl
      rw [lookLine, lookLine, hkind, hkind', s.ident.feed_append hs hfeed d]

/-- What a line can be: in banner-only mode it is the end. -/
theorem lookLine_cases (s : ObserverState) (w : Bytes) :
    match lookLine s w with
    | .needMore => w.length < s.ident.limits.maxLine
    | .event _ s' n => s'.ident.limits = s.ident.limits ∧ s'.packets = s.packets ∧
        (s'.ending = s.ending ∧ s'.stage = .initialPackets ∨
          s'.ending = some .bannerOnly ∧ s'.stage = .finished) ∧ 1 ≤ n ∧ n ≤ w.length
    | .finished v n => n = 0 ∧
        (v = .unexpected s.unexpectedSample ∨ ∃ e, v = .fixed (.error (.ident e))) := by
  rw [lookLine]
  by_cases hstart : startsIdentification w = some false
  · rw [if_pos hstart]
    exact ⟨rfl, .inl rfl⟩
  rw [if_neg hstart]
  rcases hfeed : s.ident.feed w with ⟨e | (_ | ⟨_, t, n⟩ | ⟨_, n⟩), r⟩
  · exact ⟨rfl, .inr ⟨e, rfl⟩⟩
  · exact feed_needMore hfeed
  · exact absurd (feed_prelude_start hfeed) hstart
  · obtain ⟨hlimits, -, hpos, hle, -⟩ := feed_ok hfeed
    dsimp only
    cases s.bannerOnly with
    | true => exact ⟨hlimits, rfl, .inr ⟨rfl, rfl⟩, hpos, hle⟩
    | false => exact ⟨hlimits, rfl, .inl ⟨rfl, rfl⟩, hpos, hle⟩

/-- **The observer is a machine at the front.** -/
def front : Front Observer ObserverState ObserverEvent ObserverVerdict ObservationOutcome where
  toFrontParts := parts
  state_put := rfl
  buf_put := rfl
  put_self := rfl
  stage_finish := rfl
  ending_finish := rfl
  limits_finish := ⟨rfl, rfl⟩
  stage_withPackets := rfl
  ending_withPackets := rfl
  ident_withPackets := rfl
  packets_withPackets := rfl
  withPackets_self := rfl
  outcome_fixed := rfl
  outcome_proposed := rfl
  outcome_ended := rfl
  overflow_proposal := rfl
  overflow_disconnected := rfl
  overflow_error := rfl
  overflow_eof := rfl
  stepLine_look := stepIdentification_look
  lookLine_append := lookLine_append
  lookLine_needMore {s w} h := by
    have hcases := lookLine_cases s w
    rwa [show lookLine s w = _ from h] at hcases
  lookLine_event {s w e s' n} hstage hend h := by
    have hcases := lookLine_cases s w
    rw [show lookLine s w = _ from h] at hcases
    obtain ⟨hlimits, hpackets, ⟨hsame, hnext⟩ | ⟨hbanner, hclosed⟩, huses⟩ := hcases
    · refine ⟨⟨hlimits, congrArg _ hpackets⟩, .inl ⟨?_, hsame.trans hend⟩, huses⟩
      change s'.stage.front ≠ _
      rw [hnext]
      nofun
    · refine ⟨⟨hlimits, congrArg _ hpackets⟩, .inr ⟨?_, _, hbanner, rfl⟩, huses⟩
      change s'.stage.front = _
      rw [hclosed]
      rfl
  lookLine_finished {s w v n} h := by
    have hcases := lookLine_cases s w
    rw [show lookLine s w = _ from h] at hcases
    obtain ⟨rfl, rfl | ⟨e, rfl⟩⟩ := hcases
    · exact ⟨Nat.zero_le _, fun _ => rfl⟩
    · exact ⟨Nat.zero_le _, fun _ => rfl⟩

/-- What a step makes of the bytes that are held. -/
abbrev look : ObserverState → Bytes → Look ObserverState ObserverEvent ObserverVerdict := front.look

theorem advance_eq (s : ObserverState) (b : InputBuffer) : advance s b = front.advance s b := by
  obtain ⟨_, _, stage, _, _, ending⟩ := s
  cases ending with
  | some => rfl
  | none => cases stage <;> rfl

theorem machine_eq : machine = front.machine := by
  rw [machine, FrontParts.machine, Machine.mk.injEq]
  refine ⟨funext fun o => ?_, funext fun data => funext fun o => ?_, funext fun o => ?_, rfl⟩
  · rw [step, advance_eq]
    rfl
  · obtain ⟨_, ⟨_, _, stage, _, _, _⟩, _⟩ := o
    cases stage <;> rfl
  · obtain ⟨_, ⟨_, _, _, _, _, ending⟩, _⟩ := o
    cases ending <;> rfl

/-! ### From `new` on -/

variable {config : ObserverConfig} {capacity : Nat} {o : Observer}

/-- What an observer is made with. -/
theorem made (h : new config = .ok (.ok o)) :
    ∃ capacity, config.bufferCapacity = .ok capacity ∧
      front.Kept config.identLimits config.initial capacity o ∧ o.buf.buf = [] ∧
      o.state = ⟨config.bannerOnly, config.unexpectedSample.toNat, .clientIdentification,
        .new config.identLimits, .new config.initial, none⟩ := by
  rw [new] at h
  split at h
  · cases h
  · obtain ⟨capacity, hcapacity, h⟩ := Checked.bind_ok_iff.mp h
    cases h
    exact ⟨capacity, hcapacity, ⟨⟨nofun, nofun⟩, rfl, rfl, rfl⟩, rfl, rfl⟩

/-- The capacity is above each unit that may have to be waited for. -/
theorem holds (h : config.bufferCapacity = .ok capacity) :
    Front.Holds config.identLimits config.initial capacity := by
  rw [ObserverConfig.bufferCapacity] at h
  obtain ⟨_, hpacket, h⟩ := Checked.bind_ok_iff.mp h
  obtain ⟨-, rfl⟩ := Checked.addUsize_ok_iff.mp hpacket
  obtain ⟨-, rfl⟩ := Checked.addUsize_ok_iff.mp h
  have hline : config.identLimits.maxLine = config.maxIdentificationLine.toNat := Nat.max_self _
  exact ⟨by omega, by omega⟩

theorem machine_implements (hcapacity : config.bufferCapacity = .ok capacity) :
    Implements machine look ObserverVerdict.outcome (fun s => .eof s.stage) (fun o => o.state)
      (fun o => o.buf.buf) (front.Kept config.identLimits config.initial capacity) := by
  rw [machine_eq]
  exact front.machine_implements (holds hcapacity)

end Observer

end Tatami.Tcp
