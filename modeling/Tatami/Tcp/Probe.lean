import Tatami.Tcp.Front

/-! # The initial-offer probe

The client side that observes a server's identification and first `KEXINIT` without negotiating
anything. `advance` is the body of `step` on the changing fields and the input buffer. The probe is
one of the machines at the front of a connection (`Probe.front`). -/

namespace Tatami.Tcp

open Tatami.Wire IdentificationReader

/-! ### Configuration -/

/-- Configuration of a probe. -/
structure ProbeConfig where
  softwareVersion : String
  ident : IdentLimits
  packet : PacketLimits
  /-- Packets accepted before `KEXINIT`, counting the `KEXINIT`. -/
  maxPacketsBeforeKexinit : UInt64
  /-- Packet bytes accepted before and including `KEXINIT`. -/
  maxBytesBeforeKexinit : UInt64
  deriving DecidableEq

namespace ProbeConfig

/-- The default configuration. -/
def default : ProbeConfig where
  softwareVersion := "tatami_0.1.0"
  ident := .default
  packet := InitialLimits.default.packet
  maxPacketsBeforeKexinit := InitialLimits.default.maxPackets
  maxBytesBeforeKexinit := InitialLimits.default.maxBytes

/-- The budgets of the packet decoder. -/
def initialLimits (config : ProbeConfig) : InitialLimits :=
  ⟨config.packet, config.maxPacketsBeforeKexinit, config.maxBytesBeforeKexinit⟩

/-- Largest amount of unconsumed input the probe will hold. -/
def bufferCapacity (config : ProbeConfig) : Checked Nat := do
  let packet ← Checked.addUsize config.packet.maxPacketLength.toNat headerLen
  let ident := config.ident.maxLine
  Checked.addUsize (max packet ident) ident

end ProbeConfig

/-! ### The machine -/

/-- Which phase of the exchange the probe is in. -/
inductive Probe.Stage where
  | identification
  | initialPackets
  | finished
  deriving DecidableEq, Repr

/-- A non-terminal observation. -/
inductive ProbeEvent where
  | preludeLine (line : Bytes) (terminator : LineTerminator)
  | serverIdentification (ident : OwnedIdentification)
  | ignored (dataLen : Nat)
  | debug (alwaysDisplay : Bool) (message languageTag : Bytes)
  | unimplemented (sequenceNumber : UInt32)
  deriving DecidableEq, Repr

/-- The observation of a skipped message. -/
def ProbeEvent.ofSkipped : SkippedMessage → ProbeEvent
  | .ignored dataLen => .ignored dataLen
  | .debug alwaysDisplay message languageTag => .debug alwaysDisplay message languageTag
  | .unimplemented sequenceNumber => .unimplemented sequenceNumber

/-- Terminal outcome of a probe. -/
inductive ProbeEnd where
  | proposal (proposal : Proposal)
  | disconnected (reasonCode : UInt32) (description languageTag : Bytes)
  | eof (stage : Probe.Stage) (pendingBytes : Nat)
  | error (e : InitialError)
  deriving DecidableEq

/-- Result of `step`. -/
abbrev Probe.Step := Answer ProbeEvent ProbeEnd

/-- The changing fields of a probe, except for the input buffer. -/
structure ProbeState where
  stage : Probe.Stage
  ident : IdentificationReader
  packets : InitialPackets
  /-- The terminal outcome, once there is one. -/
  ending : Option ProbeEnd

/-- The probe. -/
structure Probe where
  clientLine : Bytes
  state : ProbeState
  buf : InputBuffer

/-- Ends the probe. -/
def ProbeState.finish (ending : ProbeEnd) (s : ProbeState) : ProbeState :=
  { s with stage := .finished, ending := some ending }

namespace Probe

/-- Looks for a prelude or identification line. -/
def stepIdentification (s : ProbeState) (b : InputBuffer) :
    Checked (Step × ProbeState × InputBuffer) :=
  match s.ident.feed b.buf with
  | (.ok .needMore, r) => pure (.needMore, { s with ident := r }, b)
  | (.ok (.prelude line terminator consumed), r) => do
    let b' ← b.consume consumed
    pure (.event (.preludeLine line terminator), { s with ident := r }, b')
  | (.ok (.identification ident consumed), r) => do
    let b' ← b.consume consumed
    pure (.event (.serverIdentification ident.toOwned),
      { s with ident := r, stage := .initialPackets }, b')
  | (.error e, r) =>
    pure (.finished (.error (.ident e)), { s with ident := r }.finish (.error (.ident e)), b)

/-- Looks for an initial packet. -/
def stepPacket (s : ProbeState) (b : InputBuffer) : Checked (Step × ProbeState × InputBuffer) := do
  let (step, packets) ← s.packets.step b.buf
  let s := { s with packets }
  match step with
  | .needMore => pure (.needMore, s, b)
  | .skipped message consumed =>
    let b ← b.consume consumed
    pure (.event (.ofSkipped message), s, b)
  | .kexInit kexinit payload consumed =>
    let unexamined ← Checked.sub b.buf.length consumed
    let ending := .proposal (.fromKexinit kexinit payload unexamined)
    let b ← b.consume consumed
    pure (.finished ending, s.finish ending, b)
  | .disconnect disconnect consumed =>
    let ending :=
      .disconnected disconnect.reasonCode disconnect.description disconnect.languageTag
    let b ← b.consume consumed
    pure (.finished ending, s.finish ending, b)
  | .error e =>
    let b ← b.consume 0
    pure (.finished (.error e), s.finish (.error e), b)

/-- Advances by at most one observation. -/
def advance (s : ProbeState) (b : InputBuffer) : Checked (Step × ProbeState × InputBuffer) :=
  match s.ending with
  | some ending => pure (.finished ending, s, b)
  | none =>
    match s.stage with
    | .identification => stepIdentification s b
    | .initialPackets => stepPacket s b
    | .finished => .error (.unreachable "finished without end")

/-- Creates a probe. -/
def new (config : ProbeConfig) : Checked (Except InvalidLocalIdentification Probe) :=
  match buildIdentification config.softwareVersion with
  | .error e => pure (.error e)
  | .ok clientLine => do
    let capacity ← config.bufferCapacity
    pure (.ok
      { clientLine
        state :=
          { stage := .identification, ident := .new config.ident,
            packets := .new config.initialLimits, ending := none }
        buf := .new capacity })

/-- Advances the state machine by at most one observation. -/
def step (p : Probe) : Checked (Step × Probe) := do
  let (answer, state, buf) ← advance p.state p.buf
  pure (answer, { p with state, buf })

/-- Appends received bytes; input that does not fit ends the probe. Ignored once finished. -/
def feed (data : Bytes) (p : Probe) : Probe :=
  if p.state.stage = .finished then p
  else
    match p.buf.push data with
    | .ok buf => { p with buf }
    | .error e => { p with state := p.state.finish (.error (.inputOverflow e)) }

/-- Signals end of input. -/
def inputEnded (p : Probe) : ProbeEnd × Probe :=
  match p.state.ending with
  | some ending => (ending, p)
  | none =>
    let ending := .eof p.state.stage p.buf.buf.length
    (ending, { p with state := p.state.finish ending })

/-- Bytes that may still be fed. -/
def room (p : Probe) : Nat := p.buf.room

/-- The probe as a machine. -/
def machine : Machine Probe UInt8 ProbeEvent ProbeEnd where
  step p := p.step
  feed data p := p.feed data
  inputEnded p := p.inputEnded
  room p := p.room

end Probe

/-! ### The probe at the front -/

/-- What a probe comes to, without the bytes behind it. -/
inductive ProbeVerdict where
  | fixed (ending : ProbeEnd)
  | proposal (kexinit : KexInit) (payload : Bytes)
  | eof (stage : Probe.Stage)

/-- The outcome, with the bytes behind the verdict. -/
def ProbeVerdict.outcome : ProbeVerdict → Bytes → ProbeEnd
  | .fixed ending, _ => ending
  | .proposal kexinit payload, rest => .proposal (.fromKexinit kexinit payload rest.length)
  | .eof stage, rest => .eof stage rest.length

/-- What did not fit, if that ended the probe. -/
def ProbeEnd.overflow? : ProbeEnd → Option InputOverflow
  | .error e => e.overflow?
  | _ => none

namespace Probe

/-- The stage at the front. -/
def Stage.front : Stage → FrontStage
  | .identification => .line
  | .initialPackets => .packets
  | .finished => .finished

/-- What `stepIdentification` makes of the bytes that are held. -/
def lookLine (s : ProbeState) (w : Bytes) : Look ProbeState ProbeEvent ProbeVerdict :=
  match s.ident.feed w with
  | (.ok .needMore, _) => .needMore
  | (.ok (.prelude line terminator n), r) =>
    .event (.preludeLine line terminator) { s with ident := r } n
  | (.ok (.identification ident n), r) =>
    .event (.serverIdentification ident.toOwned) { s with ident := r, stage := .initialPackets } n
  | (.error e, _) => .finished (.fixed (.error (.ident e))) 0

/-- The parts of the probe. -/
def parts : FrontParts Probe ProbeState ProbeEvent ProbeVerdict ProbeEnd where
  state p := p.state
  buf p := p.buf
  put state buf p := { p with state, buf }
  stage s := s.stage.front
  ending s := s.ending
  ident s := s.ident
  packets s := s.packets
  withPackets packets s := { s with packets }
  finish := ProbeState.finish
  skipped := .ofSkipped
  proposal := .proposal
  disconnected d := .disconnected d.reasonCode d.description d.languageTag
  error := .error
  eof s n := .eof s.stage n
  overflow? := ProbeEnd.overflow?
  fixed := .fixed
  proposed := .proposal
  ended s := .eof s.stage
  outcome := ProbeVerdict.outcome
  stepLine := stepIdentification
  lookLine := lookLine
  stuck := "finished without end"

variable {s : ProbeState} {b : InputBuffer}

/-- The search for a line answers what the look at the bytes held says. -/
theorem stepIdentification_look (hend : s.ending = none) :
    parts.AnswersBy s b (stepIdentification s b) (lookLine s b.buf) := by
  rw [stepIdentification, lookLine]
  rcases hfeed : s.ident.feed b.buf with ⟨e | (_ | ⟨_, t, n⟩ | ⟨_, n⟩), r⟩
  · obtain rfl := feed_error hfeed
    exact ⟨_, b, rfl, rfl, rfl, ⟨rfl, rfl⟩, rfl⟩
  · obtain rfl : r = s.ident := (feed_ok hfeed).2
    exact ⟨rfl, hend⟩
  · obtain ⟨b', hb⟩ := InputBuffer.consume_returns (feed_ok hfeed).2.2
    simp only [hb]
    exact ⟨b', hb, rfl⟩
  · obtain ⟨-, -, -, hle, -⟩ := feed_ok hfeed
    obtain ⟨b', hb⟩ := InputBuffer.consume_returns hle
    simp only [hb]
    exact ⟨b', hb, rfl⟩

/-- More input changes no line that was found. -/
theorem lookLine_append {w : Bytes} (hs : 4 ≤ s.ident.limits.maxLine)
    (hlook : lookLine s w ≠ .needMore) (d : Bytes) : lookLine s (w ++ d) = lookLine s w := by
  have hfeed : (s.ident.feed w).1 ≠ .ok .needMore := by
    intro hmore
    apply hlook
    rw [lookLine, ← Prod.mk.eta (p := s.ident.feed w), hmore]
  rw [lookLine, lookLine, s.ident.feed_append hs hfeed d]

theorem lookLine_cases (s : ProbeState) (w : Bytes) :
    match lookLine s w with
    | .needMore => w.length < s.ident.limits.maxLine
    | .event _ s' n => s'.ident.limits = s.ident.limits ∧ s'.packets = s.packets ∧
        s'.ending = s.ending ∧ (s'.stage = s.stage ∨ s'.stage = .initialPackets) ∧ 1 ≤ n ∧
        n ≤ w.length
    | .finished v n => n = 0 ∧ ∃ e, v = .fixed (.error (.ident e)) := by
  rw [lookLine]
  rcases hfeed : s.ident.feed w with ⟨e | (_ | ⟨_, t, n⟩ | ⟨_, n⟩), r⟩
  · exact ⟨rfl, e, rfl⟩
  · exact feed_needMore hfeed
  · obtain ⟨hlimits, huses⟩ := feed_ok hfeed
    exact ⟨hlimits, rfl, rfl, .inl rfl, huses⟩
  · obtain ⟨hlimits, -, hpos, hle, -⟩ := feed_ok hfeed
    exact ⟨hlimits, rfl, rfl, .inr rfl, hpos, hle⟩

/-- **The probe is a machine at the front.** -/
def front : Front Probe ProbeState ProbeEvent ProbeVerdict ProbeEnd where
  toFrontParts := parts
  state_put := rfl
  buf_put := rfl
  put_self := rfl
  stage_finish := rfl
  ending_finish := rfl
  limits_finish := ⟨rfl, rfl⟩
  stage_withPackets := rfl
  ending_withPackets := rfl
  ident_withPackets := rfl
  packets_withPackets := rfl
  withPackets_self := rfl
  outcome_fixed := rfl
  outcome_proposed := rfl
  outcome_ended := rfl
  overflow_proposal := rfl
  overflow_disconnected := rfl
  overflow_error := rfl
  overflow_eof := rfl
  stepLine_look := stepIdentification_look
  lookLine_append := lookLine_append
  lookLine_needMore {s w} h := by
    have hcases := lookLine_cases s w
    rwa [show lookLine s w = _ from h] at hcases
  lookLine_event {s w e s' n} hstage hend h := by
    have hcases := lookLine_cases s w
    rw [show lookLine s w = _ from h] at hcases
    obtain ⟨hlimits, hpackets, hending, hopen, huses⟩ := hcases
    refine ⟨⟨hlimits, congrArg _ hpackets⟩, .inl ⟨?_, hending.trans hend⟩, huses⟩
    change s'.stage.front ≠ _
    rcases hopen with hsame | hnext
    · rw [hsame, show s.stage.front = _ from hstage]
      nofun
    · rw [hnext]
      nofun
  lookLine_finished {s w v n} h := by
    have hcases := lookLine_cases s w
    rw [show lookLine s w = _ from h] at hcases
    obtain ⟨rfl, e, rfl⟩ := hcases
    exact ⟨Nat.zero_le _, fun _ => rfl⟩

/-- What a step makes of the bytes that are held. -/
abbrev look : ProbeState → Bytes → Look ProbeState ProbeEvent ProbeVerdict := front.look

theorem advance_eq (s : ProbeState) (b : InputBuffer) : advance s b = front.advance s b := by
  obtain ⟨stage, _, _, ending⟩ := s
  cases ending with
  | some => rfl
  | none => cases stage <;> rfl

theorem machine_eq : machine = front.machine := by
  rw [machine, FrontParts.machine, Machine.mk.injEq]
  refine ⟨funext fun p => ?_, funext fun data => funext fun p => ?_, funext fun p => ?_, rfl⟩
  · rw [step, advance_eq]
    rfl
  · obtain ⟨_, ⟨stage, _, _, _⟩, _⟩ := p
    cases stage <;> rfl
  · obtain ⟨_, ⟨_, _, _, ending⟩, _⟩ := p
    cases ending <;> rfl

/-! ### From `new` on -/

variable {config : ProbeConfig} {capacity : Nat} {p : Probe}

/-- What a probe is made with. -/
theorem made (h : new config = .ok (.ok p)) :
    ∃ capacity, config.bufferCapacity = .ok capacity ∧
      front.Kept config.ident config.initialLimits capacity p ∧ p.buf.buf = [] ∧
      p.state = ⟨.identification, .new config.ident, .new config.initialLimits, none⟩ := by
  rw [new] at h
  split at h
  · cases h
  · obtain ⟨capacity, hcapacity, h⟩ := Checked.bind_ok_iff.mp h
    cases h
    exact ⟨capacity, hcapacity, ⟨⟨nofun, nofun⟩, rfl, rfl, rfl⟩, rfl, rfl⟩

/-- The capacity is above each unit that may have to be waited for. -/
theorem holds (h : config.bufferCapacity = .ok capacity) :
    Front.Holds config.ident config.initialLimits capacity := by
  rw [ProbeConfig.bufferCapacity] at h
  obtain ⟨_, hpacket, h⟩ := Checked.bind_ok_iff.mp h
  obtain ⟨-, rfl⟩ := Checked.addUsize_ok_iff.mp hpacket
  obtain ⟨-, rfl⟩ := Checked.addUsize_ok_iff.mp h
  have hpackets : config.initialLimits.packet = config.packet := rfl
  exact ⟨by rw [hpackets]; omega, by omega⟩

theorem machine_implements (hcapacity : config.bufferCapacity = .ok capacity) :
    Implements machine look ProbeVerdict.outcome (fun s => .eof s.stage) (fun p => p.state)
      (fun p => p.buf.buf) (front.Kept config.ident config.initialLimits capacity) := by
  rw [machine_eq]
  exact front.machine_implements (holds hcapacity)

end Probe

end Tatami.Tcp
