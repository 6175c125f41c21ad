import Tatami.Tcp.Drivers

/-! # What the drivers do, round by round

Both drivers pump a machine: they collect an event, or read when the machine asks for more, and stop
for one of a few reasons. `Pumped` says this of any machine, with the calls that were made; each
driver is an instance of it (`Probe.driveLoop_pumped`, `Observer.driveLoop_pumped`). What a driver
reports and how it keeps its deadline are read off the rounds. -/

namespace Tatami.Tcp

open Tatami.Wire Seam

/-! ### Rounds -/

section Pump

variable {μ ε ω : Type}

/-- A timeout that ends no later than the deadline. -/
structure InTime (deadline instant timeout : Nat) : Prop where
  pos : 0 < timeout
  le : instant + timeout ≤ deadline

/-- The calls around a read. -/
def reading (instant timeout room want : Nat) (result : Except SocketError Bytes) : List Entry :=
  [.now instant, .setReadTimeout timeout (.ok ()), .read room want result]

/-- How much is asked for, of a buffer for `chunk` bytes. -/
def wanted (chunk room : Nat) : Nat := max (min chunk room) 1

/-- What one round of a driver added. -/
structure Round (ε : Type) where
  events : List ε := []
  entries : List Entry := []

/-- A round after which the driver goes on. -/
inductive Pumps (A : Machine μ UInt8 ε ω) (deadline chunk : Nat) : μ → Round ε → μ → Prop where
  | event {m m' : μ} {e : ε} (hstep : A.step m = .ok (.event e, m')) :
      Pumps A deadline chunk m { events := [e] } m'
  | fed {m m' : μ} {instant timeout : Nat} {piece : Bytes}
      (hstep : A.step m = .ok (.needMore, m')) (htime : InTime deadline instant timeout)
      (hpiece : piece ≠ []) (hlength : piece.length ≤ wanted chunk (A.room m')) :
      Pumps A deadline chunk m
        { entries := reading instant timeout (A.room m') (wanted chunk (A.room m')) (.ok piece) }
        (A.feed piece m')
  /-- A read that is repeated. -/
  | again {m m' : μ} {instant timeout : Nat} {e : SocketError}
      (hstep : A.step m = .ok (.needMore, m')) (htime : InTime deadline instant timeout) :
      Pumps A deadline chunk m
        { entries := reading instant timeout (A.room m') (wanted chunk (A.room m')) (.error e) } m'

/-- Why a driver stopped. -/
inductive Halt (ω : Type) where
  | running
  | panicked (p : Panic)
  /-- The machine has an outcome. -/
  | finished (o : ω)
  /-- The input ended, and what the machine made of it. -/
  | ended (o : ω)
  /-- The driver was told to stop. -/
  | shutdown
  /-- The deadline had passed. -/
  | late
  /-- A timeout could not be set. -/
  | refused (e : SocketError)
  /-- A read failed. -/
  | failed (e : SocketError)

/-- The error that a driver stopped for. -/
def Halt.error? : Halt ω → Option SocketError
  | .late => some .deadlinePassed
  | .refused e => some e
  | .failed e => some e
  | _ => none

/-- The last round of a driver: why it stopped, its calls and the machine it leaves. -/
inductive Halts (A : Machine μ UInt8 ε ω) (deadline chunk : Nat) (m : μ) :
    Halt ω → List Entry → μ → Prop where
  | running : Halts A deadline chunk m .running [] m
  | panicked (p : Panic) (hstep : A.step m = .error p) :
      Halts A deadline chunk m (.panicked p) [] m
  | finished {m' : μ} (o : ω) (hstep : A.step m = .ok (.finished o, m')) :
      Halts A deadline chunk m (.finished o) [] m'
  /-- The input ended. -/
  | ended {m' : μ} {instant timeout : Nat} (hstep : A.step m = .ok (.needMore, m'))
      (htime : InTime deadline instant timeout) :
      Halts A deadline chunk m (.ended (A.inputEnded m').1)
        (reading instant timeout (A.room m') (wanted chunk (A.room m')) (.ok []))
        (A.inputEnded m').2
  | shutdown {m' : μ} (hstep : A.step m = .ok (.needMore, m')) :
      Halts A deadline chunk m .shutdown [] m'
  | late {m' : μ} {instant : Nat} (hstep : A.step m = .ok (.needMore, m'))
      (hlate : deadline ≤ instant) : Halts A deadline chunk m .late [.now instant] m'
  | refused {m' : μ} {instant timeout : Nat} {e : SocketError}
      (hstep : A.step m = .ok (.needMore, m')) (htime : InTime deadline instant timeout) :
      Halts A deadline chunk m (.refused e)
        [.now instant, .setReadTimeout timeout (.error e)] m'
  /-- The buffer for the reads is empty. -/
  | sliced {m' : μ} {instant timeout : Nat} (hstep : A.step m = .ok (.needMore, m'))
      (htime : InTime deadline instant timeout) (hchunk : chunk = 0) :
      Halts A deadline chunk m (.panicked .outOfBounds)
        [.now instant, .setReadTimeout timeout (.ok ())] m'
  | failed {m' : μ} {instant timeout : Nat} {e : SocketError}
      (hstep : A.step m = .ok (.needMore, m')) (htime : InTime deadline instant timeout)
      (hkind : e.kind ≠ .interrupted) :
      Halts A deadline chunk m (.failed e)
        (reading instant timeout (A.room m') (wanted chunk (A.room m')) (.error e)) m'

/-- A driver of `m` stopped, with these events and calls. -/
def Pumped (A : Machine μ UInt8 ε ω) (deadline chunk : Nat) (m : μ) (halt : Halt ω)
    (events : List ε) (log : List Entry) (m' : μ) : Prop :=
  ∃ rounds m₁ last, Run (Pumps A deadline chunk) m rounds m₁ ∧
    Halts A deadline chunk m₁ halt last m' ∧ events = rounds.flatMap Round.events ∧
    log = rounds.flatMap Round.entries ++ last

variable {A : Machine μ UInt8 ε ω} {deadline chunk : Nat} {m m₁ m' : μ} {halt : Halt ω}
  {events : List ε} {log : List Entry}

theorem Halts.pumped (h : Halts A deadline chunk m halt log m') :
    Pumped A deadline chunk m halt [] log m' :=
  ⟨[], m, log, .nil, h, rfl, rfl⟩

theorem Pumps.pumped {round : Round ε} (h : Pumps A deadline chunk m round m₁)
    (hrest : Pumped A deadline chunk m₁ halt events log m') :
    Pumped A deadline chunk m halt (round.events ++ events) (round.entries ++ log) m' := by
  obtain ⟨rounds, m₂, last, hrun, hhalts, rfl, rfl⟩ := hrest
  refine ⟨round :: rounds, m₂, last, .cons h hrun, hhalts, ?_, ?_⟩
  · rw [List.flatMap_cons]
  · rw [List.flatMap_cons, List.append_assoc]

/-- A round is spent on an event or on calls. -/
theorem Pumps.spends {round : Round ε} {fuel : Nat} (h : Pumps A deadline chunk m round m₁)
    (hrest : fuel ≤ events.length + log.length) :
    fuel + 1 ≤ (round.events ++ events).length + (round.entries ++ log).length := by
  cases h <;> simp [reading] <;> omega

/-- A driver that stopped for an error did so for its last call. -/
theorem Pumped.failedBy {σ : Type} {w w' : World σ} {e : SocketError}
    (h : Pumped A deadline chunk m halt events log m') (he : halt.error? = some e)
    (hlog : w'.log = w.log ++ log) : FailedBy deadline w' e := by
  obtain ⟨rounds, _, last, -, hhalts, -, rfl⟩ := h
  have hlast : ∃ first entry, last = first ++ [entry] ∧ entry.failure deadline = some e := by
    cases hhalts with
    | @late _ instant _ hlate =>
      exact ⟨[], .now instant, rfl, he ▸ if_pos hlate⟩
    | @refused _ instant timeout e' =>
      exact ⟨[.now instant], .setReadTimeout timeout (.error e'), rfl, he⟩
    | @failed m' instant timeout e' _ _ hkind =>
      exact ⟨[.now instant, .setReadTimeout timeout (.ok ())],
        .read (A.room m') (wanted chunk (A.room m')) (.error e'), rfl, he ▸ if_neg hkind⟩
    | _ => cases he
  obtain ⟨first, entry, rfl, hentry⟩ := hlast
  refine ⟨entry, ?_, hentry⟩
  rw [hlog, ← List.append_assoc, ← List.append_assoc, List.getLast?_concat]

end Pump

/-! ### The calls of a round -/

namespace Seam

variable {σ : Type} {m : Seam σ} {deadline : Nat} {w w' : World σ}

/-- What the clock said, and what is left. -/
theorem remainingUntil_eq {r : Option Nat} (h : m.remainingUntil deadline w = (r, w')) :
    ∃ instant env, w' = w.enter env (.now instant) ∧
      r = if deadline ≤ instant then none else some (deadline - instant) := by
  cases h
  exact ⟨_, _, rfl, rfl⟩

theorem remainingUntil_none (h : m.remainingUntil deadline w = (none, w')) :
    ∃ instant, deadline ≤ instant ∧ w'.log = w.log ++ [.now instant] := by
  obtain ⟨instant, _, rfl, hr⟩ := remainingUntil_eq h
  by_cases hlate : deadline ≤ instant
  · exact ⟨instant, hlate, rfl⟩
  · rw [if_neg hlate] at hr
    cases hr

/-- Some time is left: a timeout that is no longer ends by the deadline. -/
theorem remainingUntil_some {remaining : Nat}
    (h : m.remainingUntil deadline w = (some remaining, w')) :
    0 < remaining ∧ ∃ instant, w'.log = w.log ++ [.now instant] ∧
      ∀ timeout, 0 < timeout → timeout ≤ remaining → InTime deadline instant timeout := by
  obtain ⟨instant, _, rfl, hr⟩ := remainingUntil_eq h
  by_cases hlate : deadline ≤ instant
  · rw [if_pos hlate] at hr
    cases hr
  · rw [if_neg hlate] at hr
    cases hr
    exact ⟨by omega, instant, rfl, fun timeout hpos hle => ⟨hpos, by omega⟩⟩

end Seam

/-! ### The probe driver -/

namespace Probe

variable {σ : Type} {m : Seam σ} {deadline chunk fuel : Nat} {p p' : Probe}
  {events events' : List ProbeEvent} {w w' : World σ} {r : Drive RunEnd}

/-- What the driver makes of the reason it stopped for. -/
def EndsAs (p : Probe) : Halt ProbeEnd → Drive RunEnd → Prop
  | .running, r => r = .running
  | .panicked e, r => r = .panicked e
  | .finished ending, r => r = .returned (.probe ending)
  | .ended ending, r => r = .returned (.probe ending)
  | .shutdown, _ => False
  | .late, r => r = .returned p.timedOut
  | .refused e, r => r = .returned (.io p.state.stage e)
  | .failed e, r => r = .returned (if e.isTimeout then p.timedOut else .io p.state.stage e)

/-- **The loop of the probe driver pumps the probe.** -/
theorem driveLoop_pumped (h : driveLoop m deadline chunk fuel p events w = (r, p', events', w')) :
    ∃ halt new later, Pumped machine deadline (max chunk 1) p halt new later p' ∧
      EndsAs p' halt r ∧ events' = events ++ new ∧ w'.log = w.log ++ later ∧
      (halt = .running → fuel ≤ new.length + later.length) := by
  induction fuel generalizing p events w with
  | zero =>
    cases h
    exact ⟨_, _, _, Halts.running.pumped, rfl, by simp, by simp, fun _ => Nat.zero_le _⟩
  | succ fuel ih =>
    rw [driveLoop] at h
    split at h
    · rename_i e hstep
      cases h
      exact ⟨_, _, _, (Halts.panicked e hstep).pumped, rfl, by simp, by simp, nofun⟩
    · rename_i e p₁ hstep
      obtain ⟨halt, new, later, hpumped, hends, rfl, hlog, hfuel⟩ := ih h
      have hevent : Pumps machine deadline (max chunk 1) p _ p₁ := .event hstep
      exact ⟨halt, _, _, hevent.pumped hpumped, hends, by simp, by simp [hlog],
        fun hr => hevent.spends (hfuel hr)⟩
    · rename_i ending p₁ hstep
      cases h
      exact ⟨_, _, _, (Halts.finished ending hstep).pumped, rfl, by simp, by simp, nofun⟩
    · rename_i p₁ hstep
      split at h
      · rename_i w₁ hremaining
        cases h
        obtain ⟨instant, hlate, hlog⟩ := remainingUntil_none hremaining
        exact ⟨_, _, _, (Halts.late hstep hlate).pumped, rfl, by simp, hlog, nofun⟩
      rename_i remaining w₁ hremaining
      obtain ⟨hpos, instant, hlog, htime⟩ := remainingUntil_some hremaining
      replace htime := htime remaining hpos (Nat.le_refl _)
      split at h
      · rename_i e w₂ htimeout
        cases h
        obtain ⟨env, rfl⟩ := doSetReadTimeout_cases htimeout
        exact ⟨_, _, _, (Halts.refused hstep htime).pumped, rfl, by simp, by simp [hlog], nofun⟩
      rename_i w₂ htimeout
      obtain ⟨env, rfl⟩ := doSetReadTimeout_cases htimeout
      split at h
      · rename_i w₃ hread
        cases h
        obtain ⟨env', rfl, -⟩ := doRead_cases hread
        exact ⟨_, _, _, (Halts.ended hstep htime).pumped, rfl, by simp, by simp [hlog]; rfl, nofun⟩
      · rename_i b bytes w₃ hread
        obtain ⟨env', rfl, hle⟩ := doRead_cases hread
        obtain ⟨halt, new, later, hpumped, hends, rfl, hlog', hfuel⟩ := ih h
        have hfed : Pumps machine deadline (max chunk 1) p _ (p₁.feed (b :: bytes)) :=
          .fed hstep htime (List.cons_ne_nil b bytes) (hle _ rfl)
        exact ⟨halt, _, _, hfed.pumped hpumped, hends, by simp, by simp [hlog', hlog]; rfl,
          fun hr => hfed.spends (hfuel hr)⟩
      · rename_i e w₃ hread
        obtain ⟨env', rfl, -⟩ := doRead_cases hread
        split at h
        · rename_i htimedOut
          cases h
          refine ⟨_, _, _, (Halts.failed (e := e) hstep htime ?_).pumped, ?_, by simp,
            by simp [hlog]; rfl, nofun⟩
          · intro hkind
            simp [SocketError.isTimeout, hkind] at htimedOut
          · rw [EndsAs, if_pos htimedOut]
        rename_i htimedOut
        split at h
        · obtain ⟨halt, new, later, hpumped, hends, rfl, hlog', hfuel⟩ := ih h
          have hagain : Pumps machine deadline (max chunk 1) p _ p₁ := .again (e := e) hstep htime
          exact ⟨halt, _, _, hagain.pumped hpumped, hends, by simp, by simp [hlog', hlog]; rfl,
            fun hr => hagain.spends (hfuel hr)⟩
        · rename_i hkind
          cases h
          refine ⟨_, _, _, (Halts.failed hstep htime hkind).pumped, ?_, by simp,
            by simp [hlog]; rfl, nofun⟩
          rw [EndsAs, if_neg htimedOut]

end Probe

/-! ### The listener driver -/

/-- The identification of an event. -/
def ObserverEvent.identification? : ObserverEvent → Option OwnedIdentification
  | .clientIdentification i => some i
  | .skipped _ => none

/-- The message of an event. -/
def ObserverEvent.message? : ObserverEvent → Option SkippedMessage
  | .clientIdentification _ => none
  | .skipped message => some message

/-- The record was brought from `obs` to `obs'` by the events and the calls. -/
structure Records (obs : Observation) (events : List ObserverEvent) (log : List Entry)
    (obs' : Observation) : Prop where
  clientIdentification : obs'.clientIdentification =
    (events.filterMap ObserverEvent.identification?).getLast?.or obs.clientIdentification
  messages : obs'.messages = obs.messages ++ events.filterMap ObserverEvent.message?
  bytesRead : obs'.bytesRead = obs.bytesRead + (log.flatMap Entry.piece).flatten.length
  bytesWritten : obs'.bytesWritten = obs.bytesWritten

/-- Calls that receive nothing change at most the end of a record. -/
theorem Records.idle {obs : Observation} {proposal : Option Proposal} {stage : ObserverStage}
    {log : List Entry} (hlog : log.flatMap Entry.piece = []) :
    Records obs [] log { obs with proposal, stage } := by
  refine ⟨rfl, ?_, ?_, rfl⟩
  · rw [List.filterMap_nil, List.append_nil]
  · rw [hlog, List.flatten_nil, List.length_nil, Nat.add_zero]

namespace Observer

variable {σ : Type} {m : Seam σ} {stop : σ → Bool × σ} {deadline fuel : Nat}
  {config : ListenerConfig} {o o' : Observer} {obs obs' : Observation} {w w' : World σ}
  {r : Drive ObservationEnd}

/-- What the driver makes of the reason it stopped for. -/
def driveEnd : Halt ObservationOutcome → Drive ObservationEnd
  | .running => .running
  | .panicked e => .panicked e
  | .finished outcome => .returned (.observer outcome)
  | .ended outcome => .returned (.observer outcome)
  | .shutdown => .returned .shutdown
  | .late => .returned .timedOut
  | .refused e => .returned (.io e)
  | .failed e => .returned (.io e)

/-- What the record of a driver that returned says of the end. -/
def Closes (o : Observer) (obs obs' : Observation) : Halt ObservationOutcome → Prop
  | .running => True
  | .panicked _ => True
  | .finished outcome => obs'.stage = .finished ∧
      obs'.proposal = outcome.proposal?.orElse fun _ => obs.proposal
  | .ended _ => obs'.stage = .finished ∧ obs'.proposal = obs.proposal
  | _ => obs'.stage = o.state.stage ∧ obs'.proposal = obs.proposal

theorem poll_pos {remaining : Nat} (interval : Nat) (h : 0 < remaining) :
    0 < min remaining (max interval millisecond) ∧
      min remaining (max interval millisecond) ≤ remaining := by
  have hms : 0 < millisecond := by decide
  omega

/-- **The loop of the listener driver pumps the observer.** -/
theorem driveLoop_pumped
    (h : driveLoop m stop deadline config fuel o obs w = (r, o', obs', w')) :
    ∃ halt new later, Pumped machine deadline config.readChunk o halt new later o' ∧
      r = driveEnd halt ∧ Records obs new later obs' ∧ Closes o' obs obs' halt ∧
      w'.log = w.log ++ later ∧ (halt = .running → fuel ≤ new.length + later.length) ∧
      (halt = .shutdown → ∃ env, stop env = (true, w'.env)) := by
  induction fuel generalizing o obs w with
  | zero =>
    cases h
    exact ⟨_, _, _, Halts.running.pumped, rfl, .idle rfl, trivial, by simp,
      fun _ => Nat.zero_le _, nofun⟩
  | succ fuel ih =>
    rw [driveLoop] at h
    split at h
    · rename_i e hstep
      cases h
      exact ⟨_, _, _, (Halts.panicked e hstep).pumped, rfl, .idle rfl, trivial, by simp, nofun,
        nofun⟩
    · rename_i i o₁ hstep
      obtain ⟨halt, new, later, hpumped, hends, hrec, hcloses, hlog, hfuel, hstop⟩ := ih h
      have hevent : Pumps machine deadline config.readChunk o _ o₁ := .event hstep
      refine ⟨halt, _, _, hevent.pumped hpumped, hends,
        ⟨?_, hrec.messages, hrec.bytesRead, hrec.bytesWritten⟩, hcloses, hlog,
        fun hr => hevent.spends (hfuel hr), hstop⟩
      -- a later identification would replace this one
      change _ = (i :: new.filterMap ObserverEvent.identification?).getLast?.or _
      rw [hrec.clientIdentification, List.getLast?_cons]
      cases (new.filterMap ObserverEvent.identification?).getLast? with
      | none => rfl
      | some => rfl
    · rename_i message o₁ hstep
      obtain ⟨halt, new, later, hpumped, hends, hrec, hcloses, hlog, hfuel, hstop⟩ := ih h
      have hevent : Pumps machine deadline config.readChunk o _ o₁ := .event hstep
      refine ⟨halt, _, _, hevent.pumped hpumped, hends,
        ⟨hrec.clientIdentification, ?_, hrec.bytesRead, hrec.bytesWritten⟩, hcloses, hlog,
        fun hr => hevent.spends (hfuel hr), hstop⟩
      rw [hrec.messages, List.append_assoc]
      rfl
    · rename_i outcome o₁ hstep
      cases h
      exact ⟨_, _, _, (Halts.finished outcome hstep).pumped, rfl, .idle rfl, ⟨rfl, rfl⟩, by simp,
        nofun, nofun⟩
    · rename_i o₁ hstep
      simp only at h
      split at h
      · rename_i hstopped
        cases h
        exact ⟨_, _, _, (Halts.shutdown hstep).pumped, rfl, .idle rfl, ⟨rfl, rfl⟩, by simp, nofun,
          fun _ => ⟨w.env, Prod.ext hstopped rfl⟩⟩
      split at h
      · rename_i w₁ hremaining
        cases h
        obtain ⟨instant, hlate, hlog⟩ := remainingUntil_none hremaining
        exact ⟨_, _, _, (Halts.late hstep hlate).pumped, rfl, .idle rfl, ⟨rfl, rfl⟩, hlog, nofun,
          nofun⟩
      rename_i remaining w₁ hremaining
      obtain ⟨hpos, instant, hlog, htime⟩ := remainingUntil_some hremaining
      have hslice := poll_pos config.pollInterval hpos
      replace htime := htime _ hslice.1 hslice.2
      split at h
      · rename_i e w₂ htimeout
        cases h
        obtain ⟨env, rfl⟩ := doSetReadTimeout_cases htimeout
        exact ⟨_, _, _, (Halts.refused hstep htime).pumped, rfl, .idle rfl, ⟨rfl, rfl⟩,
          by simp [hlog], nofun, nofun⟩
      rename_i w₂ htimeout
      obtain ⟨env, rfl⟩ := doSetReadTimeout_cases htimeout
      split at h
      · rename_i hshort
        cases h
        have hchunk : config.readChunk = 0 := by omega
        exact ⟨_, _, _, (Halts.sliced hstep htime hchunk).pumped, rfl, .idle rfl, trivial,
          by simp [hlog], nofun, nofun⟩
      split at h
      · rename_i w₃ hread
        cases h
        obtain ⟨env', rfl, -⟩ := doRead_cases hread
        exact ⟨_, _, _, (Halts.ended hstep htime).pumped, rfl, .idle rfl, ⟨rfl, rfl⟩,
          by simp [hlog]; rfl, nofun, nofun⟩
      · rename_i b bytes w₃ hread
        obtain ⟨env', rfl, hle⟩ := doRead_cases hread
        obtain ⟨halt, new, later, hpumped, hends, hrec, hcloses, hlog', hfuel, hstop⟩ := ih h
        have hfed : Pumps machine deadline config.readChunk o _ (o₁.feed (b :: bytes)) :=
          .fed hstep htime (List.cons_ne_nil b bytes) (hle _ rfl)
        refine ⟨halt, _, _, hfed.pumped hpumped, hends, ⟨hrec.clientIdentification, hrec.messages,
          ?_, hrec.bytesWritten⟩, hcloses, by simp [hlog', hlog]; rfl,
          fun hr => hfed.spends (hfuel hr), hstop⟩
        rw [hrec.bytesRead]
        simp [reading, Entry.piece]
        omega
      · rename_i e w₃ hread
        obtain ⟨env', rfl, -⟩ := doRead_cases hread
        split at h
        · obtain ⟨halt, new, later, hpumped, hends, hrec, hcloses, hlog', hfuel, hstop⟩ := ih h
          have hagain : Pumps machine deadline config.readChunk o _ o₁ :=
            .again (e := e) hstep htime
          refine ⟨halt, _, _, hagain.pumped hpumped, hends,
            ⟨hrec.clientIdentification, hrec.messages, ?_, hrec.bytesWritten⟩, hcloses,
            by simp [hlog', hlog]; rfl, fun hr => hagain.spends (hfuel hr), hstop⟩
          rw [hrec.bytesRead]
          rfl
        · rename_i hkind
          cases h
          have hother : e.kind ≠ .interrupted := fun heq => hkind (by rw [heq]; simp)
          exact ⟨_, _, _, (Halts.failed hstep htime hother).pumped, rfl, .idle rfl, ⟨rfl, rfl⟩,
            by simp [hlog]; rfl, nofun, nofun⟩

end Observer

end Tatami.Tcp
