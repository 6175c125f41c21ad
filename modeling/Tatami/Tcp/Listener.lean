import Tatami.Lib.Outbox
import Tatami.Lib.Run
import Tatami.Tcp.Drivers

/-! # The listener and its threads

`Listener::run`: the accept loop, one worker thread for each admitted connection and the sink
thread, which share a few atomics and the record channel. Every access to something shared is a step
of its own, and so is every reading of the clock, so a run is any interleaving of the threads
(`Listener.step`). Time passes, a stop is requested, connections arrive and the sink answers as the
environment pleases; what a worker has to say about its connection is its own business.

A worker queues its record and then releases its capacity, in separate steps; a record that does not
fit is counted in a third. What the listener has generated and counted is kept as a history beside
its counters. -/

namespace Tatami.Tcp

/-! ### Events and counters -/

/-- Why the listener stopped. -/
inductive StopReason where
  | runDurationElapsed
  | connectionLimitReached
  | stopRequested
  | sinkFailed
  | acceptFailed
  deriving DecidableEq

/-- Final counters. -/
structure Summary where
  /-- Connections accepted, including those dropped at capacity. -/
  accepted : Nat
  /-- Connections that received a worker. -/
  observed : Nat
  /-- Connections accepted and closed because capacity was exhausted. -/
  droppedAtCapacity : Nat
  /-- Records that could not be queued for the sink. -/
  recordsDropped : Nat
  /-- Workers still running when the shutdown grace period expired. -/
  workersAbandoned : Nat
  reason : StopReason
  error : Option String
  elapsed : Nat
  deriving DecidableEq

/-- Records delivered to the sink, in order. -/
inductive ListenerEvent where
  | started
  /-- One connection's observation, and how it ended. -/
  | observation (obs : Observation) (ending : ObservationEnd)
  /-- Connections were dropped at capacity since the previous overload record. -/
  | overload (droppedSinceLast totalDropped : Nat)
  | stopped (summary : Summary)
  deriving DecidableEq

/-- Kinds of errors of `accept`; those that are not told apart by a code. -/
inductive AcceptErrorKind where
  | wouldBlock
  | interrupted
  | connectionAborted
  | connectionReset
  | timedOut
  | other (code : Nat)
  deriving DecidableEq

/-- An error of `accept`. -/
structure AcceptError where
  kind : AcceptErrorKind
  rawOsError : Option Nat
  message : String

/-- Errors after which `accept` is worth retrying after a pause: a peer that vanished, or a
temporary descriptor shortage. -/
def isTransientAcceptError (e : AcceptError) : Bool :=
  e.kind = .interrupted || e.kind = .connectionAborted || e.kind = .connectionReset ||
    e.kind = .timedOut || e.rawOsError = some 23 || e.rawOsError = some 24

namespace Listener

/-! ### Threads -/

/-- Where a worker is. -/
inductive WorkerPhase where
  | observing
  /-- Its record did not fit; about to count it. -/
  | counting
  /-- About to release its capacity. -/
  | releasing
  | released
  deriving DecidableEq

/-- A worker thread. -/
structure Worker where
  id : Nat
  phase : WorkerPhase
  deriving DecidableEq

/-- Where the accept loop is, with what it has computed since it left the loop. -/
inductive Pc where
  | starting
  | checkStop
  | checkSink
  | checkTime
  | checkOverload
  | sendOverload
  | countOverload
  | noteOverload
  | accept
  | acquire
  -- stop accepting, and wait for the workers
  | leaving (reason : StopReason)
  | startGrace (reason : StopReason)
  | graceActive (reason : StopReason) (graceEnd : Nat)
  | graceTime (reason : StopReason) (graceEnd : Nat)
  | cancelActive (reason : StopReason)
  | cancelStop (reason : StopReason)
  | startCancel (reason : StopReason)
  | waitActive (reason : StopReason) (cancelEnd : Nat)
  | waitTime (reason : StopReason) (cancelEnd : Nat)
  | abandon (reason : StopReason)
  -- the last records
  | checkLast (reason : StopReason) (abandoned : Nat)
  | sendLast (reason : StopReason) (abandoned : Nat)
  | countLast (reason : StopReason) (abandoned : Nat)
  | readError (reason : StopReason) (abandoned : Nat)
  | summarize (reason : StopReason) (abandoned : Nat)
  | readElapsed (reason : StopReason) (abandoned recordsDropped : Nat)
  | startGiveUp (summary : Summary)
  | sendStopped (summary : Summary) (giveUp : Nat)
  | retryStopped (summary : Summary) (giveUp : Nat)
  | countStopped (summary : Summary)
  | loadDropped (summary : Summary)
  | close (summary : Summary)
  | awaitSink (summary : Summary) (waitEnd : Nat)
  | awaitTime (summary : Summary) (waitEnd : Nat)
  | returned (summary : Summary)
  deriving DecidableEq

/-- An overload record that was generated, and whether it could be queued. -/
structure Report where
  droppedSinceLast : Nat
  totalDropped : Nat
  queued : Bool
  deriving DecidableEq

/-- The threads, what they share, and the locals of the accept loop. -/
structure State where
  clock : Nat
  -- shared
  stop : Bool
  active : Nat
  recordsDropped : Nat
  outbox : Outbox ListenerEvent
  workers : List Worker
  -- the accept loop
  pc : Pc
  started : Nat
  accepted : Nat
  observed : Nat
  dropped : Nat
  droppedReported : Nat
  lastOverloadReport : Option Nat
  error : Option String
  -- histories
  /-- The overload records that were generated. -/
  reports : List Report
  /-- The numbers of the connections whose records were counted as dropped. -/
  lost : List Nat
  deriving DecidableEq

/-- A run begins. -/
def init (config : ListenerConfig) (stop : Bool) (clock : Nat) : State where
  clock := clock
  stop := stop
  active := 0
  recordsDropped := 0
  outbox := .new config.pendingRecords
  workers := []
  pc := .starting
  started := clock
  accepted := 0
  observed := 0
  dropped := 0
  droppedReported := 0
  lastOverloadReport := none
  error := none
  reports := []
  lost := []

section Steps

variable (config : ListenerConfig)

/-- Queues an event and goes to `next`, or to `full` if it does not fit. -/
def emit (event : ListenerEvent) (next full : Pc) (s : State) : State :=
  match s.outbox.trySend event with
  | some outbox => { s with outbox, pc := next }
  | none => { s with pc := full }

/-- Queues an overload record. -/
def emitOverload (next full : Pc) (s : State) : State :=
  let sinceLast := s.dropped - s.droppedReported
  let report := ⟨sinceLast, s.dropped, s.outbox.fits⟩
  { emit (.overload sinceLast s.dropped) next full s with reports := s.reports ++ [report] }

/-- Counts a record that could not be queued. -/
def countDropped (next : Pc) (s : State) : State :=
  { s with recordsDropped := s.recordsDropped + 1, pc := next }

/-- Acquires capacity and spawns a worker, or drops the connection. -/
def acquire (s : State) : State :=
  if s.active < config.maxConcurrent then
    { s with
      active := s.active + 1, observed := s.observed + 1,
      workers := s.workers ++ [⟨s.observed + 1, .observing⟩], pc := .checkStop }
  else { s with dropped := s.dropped + 1, pc := .checkStop }

/-- The counters as the run ends. -/
def summary (reason : StopReason) (abandoned recordsDropped : Nat) (s : State) : Summary where
  accepted := s.accepted
  observed := s.observed
  droppedAtCapacity := s.dropped
  recordsDropped := recordsDropped
  workersAbandoned := abandoned
  reason := reason
  error := s.error
  elapsed := s.clock - s.started

/-- A step of the thread of the accept loop, other than the answer to `accept`; `none` if it is
blocked or has returned. -/
def mainStep (s : State) : Option State :=
  match s.pc with
  | .starting =>
    -- a blocking send
    match s.outbox.trySend .started with
    | some outbox => some { s with outbox, pc := .checkStop }
    | none => none
  | .checkStop => some { s with pc := if s.stop then .leaving .stopRequested else .checkSink }
  | .checkSink =>
    some { s with pc := if s.outbox.failed then .leaving .sinkFailed else .checkTime }
  | .checkTime =>
    let elapsed := config.runFor.any fun d => s.started + d ≤ s.clock
    let reached := config.maxConnections.any fun m => m ≤ s.accepted
    some { s with
      pc :=
        if elapsed then .leaving .runDurationElapsed
        else if reached then .leaving .connectionLimitReached
        else .checkOverload }
  | .checkOverload =>
    let due := s.lastOverloadReport.all fun t => t + config.overloadReportInterval ≤ s.clock
    some { s with pc := if s.droppedReported < s.dropped ∧ due then .sendOverload else .accept }
  | .sendOverload => some (emitOverload .noteOverload .countOverload s)
  | .countOverload => some (countDropped .noteOverload s)
  | .noteOverload =>
    some { s with
      droppedReported := s.dropped, lastOverloadReport := some s.clock, pc := .accept }
  | .accept => none
  | .acquire => some (acquire config s)
  | .leaving reason =>
    let fatal := reason = .sinkFailed ∨ reason = .acceptFailed
    some { s with stop := s.stop || fatal, pc := .startGrace reason }
  | .startGrace reason => some { s with pc := .graceActive reason (s.clock + config.shutdownGrace) }
  | .graceActive reason graceEnd =>
    some { s with pc := if 0 < s.active then .graceTime reason graceEnd else .cancelActive reason }
  | .graceTime reason graceEnd =>
    some { s with
      pc := if s.clock < graceEnd then .graceActive reason graceEnd else .cancelActive reason }
  | .cancelActive reason =>
    some { s with pc := if 0 < s.active then .cancelStop reason else .abandon reason }
  | .cancelStop reason => some { s with stop := true, pc := .startCancel reason }
  | .startCancel reason => some { s with pc := .waitActive reason (s.clock + config.shutdownGrace) }
  | .waitActive reason cancelEnd =>
    some { s with pc := if 0 < s.active then .waitTime reason cancelEnd else .abandon reason }
  | .waitTime reason cancelEnd =>
    some { s with
      pc := if s.clock < cancelEnd then .waitActive reason cancelEnd else .abandon reason }
  | .abandon reason => some { s with pc := .checkLast reason s.active }
  | .checkLast reason abandoned =>
    some { s with
      pc :=
        if s.droppedReported < s.dropped then .sendLast reason abandoned
        else .readError reason abandoned }
  | .sendLast reason abandoned =>
    some (emitOverload (.readError reason abandoned) (.countLast reason abandoned) s)
  | .countLast reason abandoned => some (countDropped (.readError reason abandoned) s)
  | .readError reason abandoned =>
    let error := if reason = .sinkFailed then s.outbox.error else s.error
    some { s with error, pc := .summarize reason abandoned }
  | .summarize reason abandoned =>
    some { s with pc := .readElapsed reason abandoned s.recordsDropped }
  | .readElapsed reason abandoned recordsDropped =>
    some { s with pc := .startGiveUp (summary reason abandoned recordsDropped s) }
  | .startGiveUp summary =>
    some { s with pc := .sendStopped summary (s.clock + config.shutdownGrace) }
  | .sendStopped summary giveUp =>
    some (emit (.stopped summary) (.loadDropped summary) (.retryStopped summary giveUp) s)
  | .retryStopped summary giveUp =>
    some { s with
      pc := if s.clock < giveUp then .sendStopped summary giveUp else .countStopped summary }
  | .countStopped summary => some (countDropped (.loadDropped summary) s)
  | .loadDropped summary =>
    some { s with pc := .close { summary with recordsDropped := s.recordsDropped } }
  | .close summary => some { s with pc := .awaitSink summary (s.clock + config.shutdownGrace) }
  | .awaitSink summary waitEnd =>
    some { s with
      pc := if s.outbox.consumer = .done then .returned summary else .awaitTime summary waitEnd }
  | .awaitTime summary waitEnd =>
    some { s with
      pc := if s.clock < waitEnd then .awaitSink summary waitEnd else .returned summary }
  | .returned _ => none

/-- The answer to `accept`, if the loop is there. -/
def acceptStep (answer : Except AcceptError Unit) (s : State) : Option State :=
  if s.pc = .accept then
    match answer with
    | .ok () => some { s with accepted := s.accepted + 1, pc := .acquire }
    | .error e =>
      if e.kind = .wouldBlock ∨ isTransientAcceptError e then some { s with pc := .checkStop }
      else some { s with error := some e.message, pc := .leaving .acceptFailed }
  else none

/-- Worker `i` has its record and queues it. -/
def workerEmit (i : Nat) (obs : Observation) (ending : ObservationEnd) (s : State) :
    Option State :=
  match s.workers[i]? with
  | some ⟨id, .observing⟩ =>
    if obs.id = id then
      match s.outbox.trySend (.observation obs ending) with
      | some outbox => some { s with outbox, workers := s.workers.set i ⟨id, .releasing⟩ }
      | none => some { s with workers := s.workers.set i ⟨id, .counting⟩ }
    else none
  | _ => none

/-- Worker `i` goes on behind its record. -/
def workerStep (i : Nat) (s : State) : Option State :=
  match s.workers[i]? with
  | some ⟨id, .counting⟩ =>
    some { s with
      recordsDropped := s.recordsDropped + 1, lost := s.lost ++ [id],
      workers := s.workers.set i ⟨id, .releasing⟩ }
  | some ⟨id, .releasing⟩ =>
    some { s with active := s.active - 1, workers := s.workers.set i ⟨id, .released⟩ }
  | _ => none

end Steps

/-- The accept loop has given up its end of the channel. -/
def Pc.closed : Pc → Bool
  | .awaitSink _ _ => true
  | .awaitTime _ _ => true
  | .returned _ => true
  | _ => false

/-- Nobody is left to put something into the channel. -/
def State.closed (s : State) : Bool :=
  s.pc.closed && s.workers.all fun w => w.phase = .released

/-- What happens next. -/
inductive Action where
  /-- Time passes. -/
  | tick (ticks : Nat)
  /-- Somebody uses the stop handle. -/
  | requestStop
  | main
  | accept (answer : Except AcceptError Unit)
  | workerEmit (i : Nat) (obs : Observation) (ending : ObservationEnd)
  | worker (i : Nat)
  /-- The sink thread; `answer` is that of the sink, if it is called. -/
  | sink (answer : Except String Unit)

/-- One step of one of the threads, or of the environment. -/
def step (config : ListenerConfig) (s : State) : Action → Option State
  | .tick ticks => some { s with clock := s.clock + ticks }
  | .requestStop => some { s with stop := true }
  | .main => mainStep config s
  | .accept answer => acceptStep answer s
  | .workerEmit i obs ending => workerEmit i obs ending s
  | .worker i => workerStep i s
  | .sink answer =>
    match s.outbox.consume s.closed answer with
    | some outbox => some { s with outbox }
    | none => none

/-- The runs of the listener. -/
def Steps (config : ListenerConfig) (s : State) (a : Action) (s' : State) : Prop :=
  step config s a = some s'

/-- Takes the steps one after the other, if none is blocked. -/
def exec (config : ListenerConfig) (s : State) : List Action → Option State
  | [] => some s
  | a :: actions =>
    match step config s a with
    | some s' => exec config s' actions
    | none => none

/-- Steps that were taken are a run. -/
theorem run_of_exec {config : ListenerConfig} {s s' : State} {actions : List Action}
    (h : exec config s actions = some s') : Run (Steps config) s actions s' := by
  induction actions generalizing s with
  | nil =>
    cases h
    exact .nil
  | cons a actions ih =>
    rw [exec] at h
    split at h
    · rename_i s₁ hstep
      exact .cons hstep (ih h)
    · cases h

end Listener

end Tatami.Tcp
