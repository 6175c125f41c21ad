import Tatami.Tcp.Observer
import Tatami.Tcp.Probe
import Tatami.Tcp.Seam

/-! # The probe and listener drivers

The two blocking loops that feed a probe or an observer from a socket: they send the identification,
then step the machine, and read whenever it asks for more. The loop over the events that a machine
has ready and the loop around the reads are one recursion here, with fuel; a run that has not ended
within it is still `running`. -/

namespace Tatami.Tcp

/-! ### How far a driver has come -/

/-- A driver that is still running, has panicked or has returned. -/
inductive Drive (α : Type) where
  /-- It has not ended within the fuel. -/
  | running
  | panicked (p : Panic)
  | returned (ending : α)
  deriving DecidableEq

/-! ### The probe driver -/

/-- Why a probe run stopped, from the host's point of view. -/
inductive RunEnd where
  /-- The probe has an outcome. -/
  | probe (ending : ProbeEnd)
  /-- The deadline passed. -/
  | timedOut (stage : Probe.Stage) (pendingBytes : Nat)
  /-- The socket failed. -/
  | io (stage : Probe.Stage) (error : SocketError)
  deriving DecidableEq

namespace Probe

variable {σ : Type} (m : Seam σ) (deadline chunk : Nat)

/-- Bytes buffered but unconsumed. -/
def pendingBytes (p : Probe) : Nat := p.buf.buf.length

/-- How a run ends at the deadline. -/
def timedOut (p : Probe) : RunEnd := .timedOut p.state.stage p.pendingBytes

/-- The loop of `drive`: how far it came, the probe, the collected events and the world. -/
def driveLoop : Nat → Probe → List ProbeEvent → World σ →
    Drive RunEnd × Probe × List ProbeEvent × World σ
  | 0, p, events, w => (.running, p, events, w)
  | fuel + 1, p, events, w =>
    match p.step with
    | .error e => (.panicked e, p, events, w)
    | .ok (.event e, p) => driveLoop fuel p (events ++ [e]) w
    | .ok (.finished ending, p) => (.returned (.probe ending), p, events, w)
    | .ok (.needMore, p) =>
      match m.remainingUntil deadline w with
      | (none, w) => (.returned p.timedOut, p, events, w)
      | (some remaining, w) =>
        match m.doSetReadTimeout remaining w with
        | (.error e, w) => (.returned (.io p.state.stage e), p, events, w)
        | (.ok (), w) =>
          -- a read of one byte into no room would let the probe report the overflow
          match m.doRead p.room (max (min (max chunk 1) p.room) 1) w with
          | (.ok [], w) => (.returned (.probe p.inputEnded.1), p.inputEnded.2, events, w)
          | (.ok (b :: bytes), w) => driveLoop fuel (p.feed (b :: bytes)) events w
          | (.error e, w) =>
            if e.isTimeout then (.returned p.timedOut, p, events, w)
            else if e.kind = .interrupted then driveLoop fuel p events w
            else (.returned (.io p.state.stage e), p, events, w)

/-- The driver body: sends the client identification, then loops. -/
def drive (fuel : Nat) (p : Probe) (w : World σ) :
    Drive RunEnd × Probe × List ProbeEvent × World σ :=
  match m.writeAllBy deadline fuel p.clientLine w with
  | (none, w) => (.running, p, [], w)
  | (some (.ok ()), w) => driveLoop m deadline chunk fuel p [] w
  | (some (.error e), w) =>
    (.returned (if e.isTimeout then p.timedOut else .io p.state.stage e), p, [], w)

end Probe

/-! ### The listener driver -/

/-- A millisecond, in the ticks of the clock. -/
def millisecond : Nat := 1000000

/-- A second. -/
def second : Nat := 1000 * millisecond

/-- Listener policy, but for the address. -/
structure ListenerConfig where
  /-- Maximum simultaneous observations. -/
  maxConcurrent : Nat := 32
  /-- Total time allowed per connection from acceptance. -/
  connectionTimeout : Nat := 5 * second
  /-- Stop after this many accepted connections, those dropped at capacity included. -/
  maxConnections : Option Nat := none
  /-- Stop after this long. -/
  runFor : Option Nat := none
  /-- Observer behaviour and limits. -/
  observer : ObserverConfig := .default
  /-- Size of each socket read. -/
  readChunk : Nat := 4096
  /-- Capacity of the record channel between workers and the sink. -/
  pendingRecords : Nat := 128
  /-- How long to wait for active workers after a stop condition. -/
  shutdownGrace : Nat := 5 * second
  /-- Poll interval of the accept loop and the reads. -/
  pollInterval : Nat := 25 * millisecond
  /-- Minimum spacing between overload records. -/
  overloadReportInterval : Nat := second

/-- How an observation ended, from the host's point of view. -/
inductive ObservationEnd where
  /-- The observer has an outcome. -/
  | observer (outcome : ObservationOutcome)
  /-- The deadline passed. -/
  | timedOut
  /-- The listener was stopping. -/
  | shutdown
  /-- The socket failed. -/
  | io (error : SocketError)
  deriving DecidableEq

/-- What is recorded about a connection. -/
structure Observation where
  /-- Sequence number, from 1. -/
  id : Nat
  bytesRead : Nat := 0
  bytesWritten : Nat := 0
  clientIdentification : Option OwnedIdentification := none
  /-- Messages skipped before the `KEXINIT`, in order. -/
  messages : List SkippedMessage := []
  proposal : Option Proposal := none
  /-- Last stage reached before the end. -/
  stage : ObserverStage := .clientIdentification
  deriving DecidableEq

/-- The proposal of an outcome. -/
def ObservationOutcome.proposal? : ObservationOutcome → Option Proposal
  | .proposal p => some p
  | _ => none

namespace Observer

variable {σ : Type} (m : Seam σ) (stop : σ → Bool × σ) (deadline : Nat) (config : ListenerConfig)

/-- The loop of `drive`: how far it came, the observer, the record and the world. The stop flag is
part of the environment. -/
def driveLoop : Nat → Observer → Observation → World σ →
    Drive ObservationEnd × Observer × Observation × World σ
  | 0, o, obs, w => (.running, o, obs, w)
  | fuel + 1, o, obs, w =>
    match o.step with
    | .error e => (.panicked e, o, obs, w)
    | .ok (.event (.clientIdentification i), o) =>
      driveLoop fuel o { obs with clientIdentification := some i } w
    | .ok (.event (.skipped message), o) =>
      driveLoop fuel o { obs with messages := obs.messages ++ [message] } w
    | .ok (.finished outcome, o) =>
      let proposal := outcome.proposal?.orElse fun _ => obs.proposal
      (.returned (.observer outcome), o, { obs with proposal, stage := .finished }, w)
    | .ok (.needMore, o) =>
      let obs := { obs with stage := o.state.stage }
      let (stopped, env) := stop w.env
      let w := { w with env }
      if stopped then (.returned .shutdown, o, obs, w)
      else
        match m.remainingUntil deadline w with
        | (none, w) => (.returned .timedOut, o, obs, w)
        | (some remaining, w) =>
          match m.doSetReadTimeout (min remaining (max config.pollInterval millisecond)) w with
          | (.error e, w) => (.returned (.io e), o, obs, w)
          | (.ok (), w) =>
            let want := max (min config.readChunk o.room) 1
            -- the slice `buf[..want]`
            if config.readChunk < want then (.panicked .outOfBounds, o, obs, w)
            else
              match m.doRead o.room want w with
              | (.ok [], w) =>
                let (outcome, o) := o.inputEnded
                (.returned (.observer outcome), o, { obs with stage := .finished }, w)
              | (.ok (b :: bytes), w) =>
                let obs := { obs with bytesRead := obs.bytesRead + (b :: bytes).length }
                driveLoop fuel (o.feed (b :: bytes)) obs w
              | (.error e, w) =>
                if e.isTimeout || e.kind = .interrupted then driveLoop fuel o obs w
                else (.returned (.io e), o, obs, w)

/-- The driver body: sends the banner, then loops. -/
def drive (fuel : Nat) (o : Observer) (obs : Observation) (w : World σ) :
    Drive ObservationEnd × Observer × Observation × World σ :=
  match m.writeAllBy deadline fuel o.serverLine w with
  | (none, w) => (.running, o, obs, w)
  | (some (.ok ()), w) =>
    let obs := { obs with bytesWritten := obs.bytesWritten + o.serverLine.length }
    driveLoop m stop deadline config fuel o obs w
  | (some (.error e), w) =>
    (.returned (if e.kind = .timedOut then .timedOut else .io e), o, obs, w)

end Observer

/-- The body of a worker: observes the connection with number `id`, accepted at `acceptedAt`. -/
def observeConnection {σ : Type} (m : Seam σ) (stop : σ → Bool × σ) (config : ListenerConfig)
    (fuel id acceptedAt : Nat) (env : σ) : Drive ObservationEnd × Observation × World σ :=
  match Observer.new config.observer with
  | .ok (.ok o) =>
    let deadline := acceptedAt + config.connectionTimeout
    let (r, _, obs, w) := o.drive m stop deadline config fuel { id } ⟨env, []⟩
    (r, obs, w)
  | .ok (.error _) => (.panicked (.expect "validated at bind"), { id }, ⟨env, []⟩)
  | .error e => (.panicked e, { id }, ⟨env, []⟩)

end Tatami.Tcp
