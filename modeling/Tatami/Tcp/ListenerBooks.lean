import Mathlib.Data.List.Nodup
import Tatami.Lib.Lists
import Tatami.Tcp.Listener

/-! # The listener's books

What the listener counts does not depend on the clock, on the stop flag, on the capacity of the
channel or on the sink. `Books` is the listener without them: its accept loop only has the few
phases that the counters tell apart, and a record is queued or not, as it happens. Every step of the
threads is a step of the books or leaves them alone (`step_books`), so what the books keep holds in
every interleaving (`listener_accounting`). -/

namespace Tatami.Tcp.Listener

open List

/-! ### The books -/

/-- What the counters tell apart of the accept loop. An overload record is made in the loop, or is
the last one, when the number of abandoned workers is known. -/
inductive Phase where
  | starting
  | open
  | reporting (abandoned : Option Nat)
  | counting (abandoned : Option Nat)
  | reported (abandoned : Option Nat)
  | admitting
  | last (abandoned : Nat)
  /-- The number of dropped records was read for the summary. -/
  | read (abandoned recordsDropped : Nat)
  | stopping (summary : Summary)
  | countingStopped (summary : Summary)
  | loading (summary : Summary)
  | closed (summary : Summary)

/-- The number of abandoned workers, once it is known. -/
def Phase.abandoned? : Phase → Option Nat
  | .reporting abandoned => abandoned
  | .counting abandoned => abandoned
  | .reported abandoned => abandoned
  | .last abandoned => some abandoned
  | .read abandoned _ => some abandoned
  | .stopping summary => some summary.workersAbandoned
  | .countingStopped summary => some summary.workersAbandoned
  | .loading summary => some summary.workersAbandoned
  | .closed summary => some summary.workersAbandoned
  | _ => none

/-- The last event has been queued or counted. -/
def Phase.ended : Phase → Bool
  | .loading _ => true
  | .closed _ => true
  | _ => false

/-- The accept loop has started, and has not come to the last event. -/
def Phase.midway : Phase → Bool
  | .starting => false
  | .loading _ => false
  | .closed _ => false
  | _ => true

/-- What a phase on the way is not. -/
theorem Phase.of_midway {phase : Phase} (h : phase.midway = true) :
    phase ≠ .starting ∧ phase.ended = false := by
  cases phase with
  | starting => cases h
  | loading => cases h
  | closed => cases h
  | _ => exact ⟨nofun, rfl⟩

/-- The records that the accept loop has failed to queue and not yet counted. -/
def Phase.uncounted : Phase → Nat
  | .counting _ => 1
  | _ => 0

/-- The summary, once it is known. -/
def Phase.summary? : Phase → Option Summary
  | .stopping summary => some summary
  | .countingStopped summary => some summary
  | .loading summary => some summary
  | .closed summary => some summary
  | _ => none

/-- The phase of the accept loop. -/
def Pc.phase : Pc → Phase
  | .starting => .starting
  | .sendOverload => .reporting none
  | .countOverload => .counting none
  | .noteOverload => .reported none
  | .acquire => .admitting
  | .checkLast _ abandoned => .last abandoned
  | .sendLast _ abandoned => .reporting (some abandoned)
  | .countLast _ abandoned => .counting (some abandoned)
  | .readError _ abandoned => .reported (some abandoned)
  | .summarize _ abandoned => .reported (some abandoned)
  | .readElapsed _ abandoned recordsDropped => .read abandoned recordsDropped
  | .startGiveUp summary => .stopping summary
  | .sendStopped summary _ => .stopping summary
  | .retryStopped summary _ => .stopping summary
  | .countStopped summary => .countingStopped summary
  | .loadDropped summary => .loading summary
  | .close summary => .closed summary
  | .awaitSink summary _ => .closed summary
  | .awaitTime summary _ => .closed summary
  | .returned summary => .closed summary
  | _ => .open

/-- The counters and histories of a listener. -/
structure Books where
  phase : Phase
  workers : List Worker
  active : Nat
  recordsDropped : Nat
  accepted : Nat
  observed : Nat
  dropped : Nat
  droppedReported : Nat
  /-- What was put into the channel. -/
  put : List ListenerEvent
  reports : List Report
  lost : List Nat

/-- The books of a state. -/
def State.books (s : State) : Books where
  phase := s.pc.phase
  workers := s.workers
  active := s.active
  recordsDropped := s.recordsDropped
  accepted := s.accepted
  observed := s.observed
  dropped := s.dropped
  droppedReported := s.droppedReported
  put := s.outbox.put
  reports := s.reports
  lost := s.lost

namespace Books

/-- The overload record that is due. -/
def report (b : Books) (queued : Bool) : Report :=
  ⟨b.dropped - b.droppedReported, b.dropped, queued⟩

/-- What can happen to the books. -/
inductive Moves (maxConcurrent : Nat) (b : Books) : Books → Prop where
  | start (hphase : b.phase = .starting) :
      Moves maxConcurrent b { b with put := b.put ++ [.started], phase := .open }
  /-- An overload record is due, in the loop. -/
  | due (hphase : b.phase = .open) (hdue : b.droppedReported < b.dropped) :
      Moves maxConcurrent b { b with phase := .reporting none }
  /-- The last one is due. -/
  | dueLast (n : Nat) (hphase : b.phase = .last n) (hdue : b.droppedReported < b.dropped) :
      Moves maxConcurrent b { b with phase := .reporting (some n) }
  | notDue (n : Nat) (hphase : b.phase = .last n) :
      Moves maxConcurrent b { b with phase := .reported (some n) }
  | reportQueued (k : Option Nat) (hphase : b.phase = .reporting k) :
      Moves maxConcurrent b
        { b with
          put := b.put ++ [.overload (b.dropped - b.droppedReported) b.dropped],
          reports := b.reports ++ [b.report true], phase := .reported k }
  | reportLost (k : Option Nat) (hphase : b.phase = .reporting k) :
      Moves maxConcurrent b
        { b with reports := b.reports ++ [b.report false], phase := .counting k }
  | count (k : Option Nat) (hphase : b.phase = .counting k) :
      Moves maxConcurrent b
        { b with recordsDropped := b.recordsDropped + 1, phase := .reported k }
  | note (hphase : b.phase = .reported none) :
      Moves maxConcurrent b { b with droppedReported := b.dropped, phase := .open }
  | accept (hphase : b.phase = .open) :
      Moves maxConcurrent b { b with accepted := b.accepted + 1, phase := .admitting }
  | acquire (hphase : b.phase = .admitting) (hcapacity : b.active < maxConcurrent) :
      Moves maxConcurrent b
        { b with
          active := b.active + 1, observed := b.observed + 1,
          workers := b.workers ++ [⟨b.observed + 1, .observing⟩], phase := .open }
  | refuse (hphase : b.phase = .admitting) :
      Moves maxConcurrent b { b with dropped := b.dropped + 1, phase := .open }
  | abandon (hphase : b.phase = .open) :
      Moves maxConcurrent b { b with phase := .last b.active }
  | read (n : Nat) (hphase : b.phase = .reported (some n)) :
      Moves maxConcurrent b { b with phase := .read n b.recordsDropped }
  | summarize (n : Nat) (summary : Summary) (hphase : b.phase = .read n summary.recordsDropped)
      (hsummary : summary.accepted = b.accepted ∧ summary.observed = b.observed ∧
        summary.droppedAtCapacity = b.dropped ∧ summary.workersAbandoned = n) :
      Moves maxConcurrent b { b with phase := .stopping summary }
  | stopQueued (summary : Summary) (hphase : b.phase = .stopping summary) :
      Moves maxConcurrent b { b with put := b.put ++ [.stopped summary], phase := .loading summary }
  | giveUp (summary : Summary) (hphase : b.phase = .stopping summary) :
      Moves maxConcurrent b { b with phase := .countingStopped summary }
  | countStopped (summary : Summary) (hphase : b.phase = .countingStopped summary) :
      Moves maxConcurrent b
        { b with recordsDropped := b.recordsDropped + 1, phase := .loading summary }
  | load (summary : Summary) (hphase : b.phase = .loading summary) :
      Moves maxConcurrent b
        { b with phase := .closed { summary with recordsDropped := b.recordsDropped } }
  | emitQueued (i : Nat) (obs : Observation) (ending : ObservationEnd)
      (hworker : b.workers[i]? = some ⟨obs.id, .observing⟩) :
      Moves maxConcurrent b
        { b with
          put := b.put ++ [.observation obs ending],
          workers := b.workers.set i ⟨obs.id, .releasing⟩ }
  | emitLost (i id : Nat) (hworker : b.workers[i]? = some ⟨id, .observing⟩) :
      Moves maxConcurrent b { b with workers := b.workers.set i ⟨id, .counting⟩ }
  | countLost (i id : Nat) (hworker : b.workers[i]? = some ⟨id, .counting⟩) :
      Moves maxConcurrent b
        { b with
          recordsDropped := b.recordsDropped + 1, lost := b.lost ++ [id],
          workers := b.workers.set i ⟨id, .releasing⟩ }
  | release (i id : Nat) (hworker : b.workers[i]? = some ⟨id, .releasing⟩) :
      Moves maxConcurrent b
        { b with active := b.active - 1, workers := b.workers.set i ⟨id, .released⟩ }

end Books

variable {workers : List Worker} {i id : Nat} {p : WorkerPhase}

/-! ### The steps of the threads -/

section Steps

variable {config : ListenerConfig} {s s' : State}

theorem emit_books (s : State) (event : ListenerEvent) (next full : Pc) :
    (∃ outbox, s.outbox.trySend event = some outbox ∧ s.outbox.fits = true ∧
      (emit event next full s).books =
        { s.books with put := s.outbox.put ++ [event], phase := next.phase }) ∨
    (s.outbox.fits = false ∧
      (emit event next full s).books = { s.books with phase := full.phase }) := by
  rw [emit]
  cases hsend : s.outbox.trySend event with
  | some =>
    obtain ⟨hfits, rfl⟩ := Outbox.trySend_eq_some hsend
    exact .inl ⟨_, rfl, hfits, rfl⟩
  | none =>
    refine .inr ⟨?_, rfl⟩
    rw [Outbox.trySend] at hsend
    split at hsend
    · cases hsend
    · rename_i hfits
      exact Bool.eq_false_iff.mpr hfits

/-- A step within a phase leaves the books alone. -/
theorem books_eq {pc : Pc} (hpc : s.pc = pc) (h : s'.books = { s.books with phase := s'.pc.phase })
    (hphase : s'.pc.phase = pc.phase) : s'.books = s.books := by
  rw [h, hphase, ← hpc]
  rfl

theorem emitOverload_moves {next full : Pc} {k : Option Nat} (hpc : s.pc.phase = .reporting k)
    (hnext : next.phase = .reported k) (hfull : full.phase = .counting k) :
    Books.Moves config.maxConcurrent s.books (emitOverload next full s).books := by
  have hphase : s.books.phase = .reporting k := hpc
  have hreports (event : ListenerEvent) (next full : Pc) (reports : List Report) :
      ({ emit event next full s with reports } : State).books =
        { (emit event next full s).books with reports } := rfl
  rw [emitOverload, hreports]
  rcases emit_books s (.overload (s.dropped - s.droppedReported) s.dropped) next full with
    ⟨outbox, -, hfits, hbooks⟩ | ⟨hfits, hbooks⟩
  · rw [hbooks, hfits, hnext]
    exact .reportQueued k hphase
  · rw [hbooks, hfits, hfull]
    exact .reportLost k hphase

/-- **A step of the accept loop is a move of the books, or leaves them alone.** -/
theorem mainStep_books (h : mainStep config s = some s') :
    s'.books = s.books ∨ Books.Moves config.maxConcurrent s.books s'.books := by
  have hphase {pc : Pc} (hpc : s.pc = pc) : s.books.phase = pc.phase := congrArg Pc.phase hpc
  cases hpc : s.pc <;> simp only [mainStep, hpc] at h
  case starting =>
    split at h
    · rename_i outbox hsend
      cases h
      obtain ⟨-, rfl⟩ := Outbox.trySend_eq_some hsend
      exact .inr (.start (hphase hpc))
    · cases h
  case checkStop =>
    cases h
    refine .inl (books_eq hpc rfl ?_)
    cases s.stop <;> rfl
  case checkSink =>
    cases h
    refine .inl (books_eq hpc rfl ?_)
    cases s.outbox.failed <;> rfl
  case checkTime =>
    cases h
    refine .inl (books_eq hpc rfl ?_)
    dsimp only
    split
    · rfl
    · split <;> rfl
  case checkOverload =>
    split at h
    · rename_i hdue
      cases h
      exact .inr (.due (hphase hpc) hdue.1)
    · cases h
      exact .inl (books_eq hpc rfl rfl)
  case sendOverload | sendLast =>
    cases h
    exact .inr (emitOverload_moves (congrArg Pc.phase hpc) rfl rfl)
  case countOverload =>
    cases h
    exact .inr (.count none (hphase hpc))
  case noteOverload =>
    cases h
    exact .inr (.note (hphase hpc))
  case accept | returned =>
    cases h
  case acquire =>
    rw [acquire] at h
    split at h
    · rename_i hcapacity
      cases h
      exact .inr (.acquire (hphase hpc) hcapacity)
    · cases h
      exact .inr (.refuse (hphase hpc))
  case leaving | startGrace | cancelStop | startCancel | readError | startGiveUp | close =>
    cases h
    exact .inl (books_eq hpc rfl rfl)
  case graceActive | graceTime | cancelActive | waitActive | waitTime | awaitSink | awaitTime =>
    cases h
    refine .inl (books_eq hpc rfl ?_)
    dsimp only
    split <;> rfl
  case abandon =>
    cases h
    exact .inr (.abandon (hphase hpc))
  case checkLast reason abandoned =>
    split at h
    · rename_i hdue
      cases h
      exact .inr (.dueLast abandoned (hphase hpc) hdue)
    · cases h
      exact .inr (.notDue abandoned (hphase hpc))
  case countLast reason abandoned =>
    cases h
    exact .inr (.count (some abandoned) (hphase hpc))
  case summarize reason abandoned =>
    cases h
    exact .inr (.read abandoned (hphase hpc))
  case readElapsed reason abandoned recordsDropped =>
    cases h
    exact .inr (.summarize abandoned (summary reason abandoned recordsDropped s) (hphase hpc)
      ⟨rfl, rfl, rfl, rfl⟩)
  case sendStopped summary giveUp =>
    cases h
    rcases emit_books s (.stopped summary) (.loadDropped summary) (.retryStopped summary giveUp)
      with ⟨outbox, -, -, hbooks⟩ | ⟨-, hbooks⟩
    · rw [hbooks]
      exact .inr (.stopQueued summary (hphase hpc))
    · left
      rw [hbooks]
      change { s.books with phase := (Pc.sendStopped summary giveUp).phase } = s.books
      rw [← hpc]
      rfl
  case retryStopped summary giveUp =>
    split at h
    · cases h
      exact .inl (books_eq hpc rfl rfl)
    · cases h
      exact .inr (.giveUp summary (hphase hpc))
  case countStopped summary =>
    cases h
    exact .inr (.countStopped summary (hphase hpc))
  case loadDropped summary =>
    cases h
    exact .inr (.load summary (hphase hpc))

theorem acceptStep_books {answer : Except AcceptError Unit} (h : acceptStep answer s = some s') :
    s'.books = s.books ∨ Books.Moves config.maxConcurrent s.books s'.books := by
  unfold acceptStep at h
  split at h
  · rename_i hpc
    split at h
    · cases h
      exact .inr (.accept (congrArg Pc.phase hpc))
    · split at h
      · cases h
        exact .inl (books_eq hpc rfl rfl)
      · cases h
        exact .inl (books_eq hpc rfl rfl)
  · cases h

/-- A worker that has its record, and the books. -/
theorem workerEmit_books {obs : Observation} {ending : ObservationEnd}
    (h : workerEmit i obs ending s = some s') :
    Books.Moves config.maxConcurrent s.books s'.books := by
  rw [workerEmit] at h
  split at h
  · rename_i id hworker
    split at h
    · rename_i hid
      obtain rfl := hid
      split at h
      · rename_i outbox hsend
        cases h
        obtain ⟨-, rfl⟩ := Outbox.trySend_eq_some hsend
        exact .emitQueued i obs ending hworker
      · cases h
        exact .emitLost i obs.id hworker
    · cases h
  · cases h

/-- A worker behind its record, and the books. -/
theorem workerStep_books (h : workerStep i s = some s') :
    Books.Moves config.maxConcurrent s.books s'.books := by
  rw [workerStep] at h
  split at h
  · rename_i id hworker
    cases h
    exact .countLost i id hworker
  · rename_i id hworker
    cases h
    exact .release i id hworker
  · cases h

/-- **Every step is a move of the books, or leaves them alone.** -/
theorem step_books {a : Action} (h : Steps config s a s') :
    s'.books = s.books ∨ Books.Moves config.maxConcurrent s.books s'.books := by
  cases a with
  | tick =>
    cases h
    exact .inl rfl
  | requestStop =>
    cases h
    exact .inl rfl
  | main => exact mainStep_books h
  | accept => exact acceptStep_books h
  | workerEmit => exact .inr (workerEmit_books h)
  | worker => exact .inr (workerStep_books h)
  | sink answer =>
    rw [Steps, step] at h
    split at h
    · rename_i outbox hconsume
      cases h
      left
      rw [State.books, State.books, Outbox.consume_put hconsume]
    · cases h

/-- **Invariant rule**: what the books keep holds in every interleaving. -/
theorem books_invariant {I : Books → Prop} {stop : Bool} {clock : Nat} {actions : List Action}
    (hrun : Run (Steps config) (init config stop clock) actions s)
    (hinit : I (init config stop clock).books)
    (hmove : ∀ {b b'}, I b → Books.Moves config.maxConcurrent b b' → I b') : I s.books := by
  refine hrun.invariant (I := fun s => I s.books) hinit ?_
  intro s a s' hs hstep
  rcases step_books hstep with hsame | hmoves
  · rwa [hsame]
  · exact hmove hs hmoves

end Steps

/-! ### What the books keep -/

/-- The number of workers that have not released their capacity. -/
def unreleased (workers : List Worker) : Nat := workers.countP fun w => w.phase ≠ .released

/-- The numbers of the workers whose record is neither queued nor counted. -/
def pendingIds (workers : List Worker) : List Nat :=
  (workers.filter fun w => w.phase = .observing ∨ w.phase = .counting).map Worker.id

/-- The numbers of the observations among some events. -/
def observationIds (events : List ListenerEvent) : List Nat :=
  events.filterMap fun
    | .observation obs _ => some obs.id
    | _ => none

/-- The overload records among some events. -/
def overloads (events : List ListenerEvent) : List (Nat × Nat) :=
  events.filterMap fun
    | .overload sinceLast total => some (sinceLast, total)
    | _ => none

/-- The event that ends a run. -/
def isStopped : ListenerEvent → Bool
  | .stopped _ => true
  | _ => false

namespace Books

variable {maxConcurrent : Nat} {b b' : Books}

/-- The capacity is that of the workers that hold it. -/
structure Within (maxConcurrent : Nat) (b : Books) : Prop where
  active : b.active = unreleased b.workers
  le : b.active ≤ maxConcurrent

/-- A worker goes on with its capacity. -/
theorem unreleased_set {p' : WorkerPhase} (h : workers[i]? = some ⟨id, p⟩) (hp : p ≠ .released)
    (hp' : p' ≠ .released) : unreleased workers = unreleased (workers.set i ⟨id, p'⟩) := by
  obtain ⟨_, _, rfl, hset⟩ := exists_set_eq h
  rw [hset, unreleased, unreleased, countP_append, countP_append, countP_cons,
    countP_cons]
  simp [hp, hp']

theorem unreleased_release (h : workers[i]? = some ⟨id, p⟩) (hp : p ≠ .released) :
    unreleased (workers.set i ⟨id, .released⟩) + 1 = unreleased workers := by
  obtain ⟨_, _, rfl, hset⟩ := exists_set_eq h
  rw [hset, unreleased, unreleased, countP_append, countP_append, countP_cons,
    countP_cons]
  simp [hp]
  omega

theorem Within.move (h : Within maxConcurrent b) (hm : Moves maxConcurrent b b') :
    Within maxConcurrent b' := by
  cases hm with
  | acquire _ hcapacity =>
    refine ⟨?_, hcapacity⟩
    rw [h.active]
    simp [unreleased]
  | emitQueued _ _ _ hworker | emitLost _ _ hworker | countLost _ _ hworker =>
    exact ⟨h.active.trans (unreleased_set hworker nofun nofun), h.le⟩
  | release _ _ hworker =>
    have hset := unreleased_release hworker nofun
    have hactive := h.active
    have hle := h.le
    exact ⟨by dsimp only; omega, by dsimp only; omega⟩
  | _ => exact ⟨h.active, h.le⟩

/-- A connection is observed or dropped, once it has been decided. -/
def Tallied (b : Books) : Prop :=
  b.accepted = b.observed + b.dropped +
    match b.phase with
    | .admitting => 1
    | _ => 0

theorem Tallied.move (h : Tallied b) (hm : Moves maxConcurrent b b') : Tallied b' := by
  rw [Tallied] at h ⊢
  cases hm with
  | accept hphase | acquire hphase | refuse hphase =>
    simp only [hphase] at h ⊢
    omega
  | _ => simp_all only

/-- The workers are numbered from 1, and each number is that of a queued record, of one that was
counted as dropped, or of a worker that still has it. -/
structure Numbered (b : Books) : Prop where
  ids : b.workers.map Worker.id = List.range' 1 b.observed
  partition :
    (observationIds b.put ++ b.lost ++ pendingIds b.workers).Perm (b.workers.map Worker.id)

theorem map_id_set (h : workers[i]? = some ⟨id, p⟩) (p' : WorkerPhase) :
    (workers.set i ⟨id, p'⟩).map Worker.id = workers.map Worker.id := by
  obtain ⟨_, _, rfl, hset⟩ := exists_set_eq h
  rw [hset, map_append, map_append, map_cons, map_cons]

/-- A worker that goes on without deciding what becomes of its record. -/
theorem pendingIds_set (h : workers[i]? = some ⟨id, p⟩) (p' : WorkerPhase)
    (hphase : (p' = .observing ∨ p' = .counting) ↔ (p = .observing ∨ p = .counting)) :
    pendingIds (workers.set i ⟨id, p'⟩) = pendingIds workers := by
  obtain ⟨_, _, rfl, hset⟩ := exists_set_eq h
  simp only [hset, pendingIds, filter_append, filter_cons, map_append, hphase]
  split <;> rfl

/-- A worker that is done with its record. -/
theorem pendingIds_settle (h : workers[i]? = some ⟨id, p⟩)
    (hphase : p = .observing ∨ p = .counting) :
    (id :: pendingIds (workers.set i ⟨id, .releasing⟩)).Perm (pendingIds workers) := by
  obtain ⟨_, _, rfl, hset⟩ := exists_set_eq h
  simp only [hset, pendingIds, filter_append, filter_cons, map_append, hphase,
    decide_true, if_true, map_cons]
  exact perm_middle.symm

/-- What is appended to the first of three parts may be put before the last. -/
theorem perm_shift (xs ys zs : List Nat) (x : Nat) :
    (xs ++ [x] ++ ys ++ zs).Perm (xs ++ ys ++ x :: zs) := by
  rw [append_assoc, append_assoc, append_assoc, singleton_append]
  exact List.Perm.append_left xs perm_middle.symm

theorem Numbered.move (h : Numbered b) (hm : Moves maxConcurrent b b') : Numbered b' := by
  cases hm with
  | acquire =>
    refine ⟨?_, ?_⟩
    · rw [map_append, h.ids, List.range'_concat, Nat.one_mul, Nat.add_comm]
      rfl
    · have hpending : pendingIds (b.workers ++ [⟨b.observed + 1, .observing⟩]) =
          pendingIds b.workers ++ [b.observed + 1] := by
        rw [pendingIds, filter_append, map_append]
        rfl
      rw [hpending, map_append, ← append_assoc]
      exact h.partition.append_right _
  | emitQueued i obs ending hworker =>
    have hids := map_id_set hworker .releasing
    refine ⟨hids.trans h.ids, ?_⟩
    have hput : observationIds (b.put ++ [.observation obs ending]) =
        observationIds b.put ++ [obs.id] := by
      rw [observationIds, filterMap_append]
      rfl
    rw [hids, hput]
    exact ((perm_shift _ _ _ _).trans
      (List.Perm.append_left _ (pendingIds_settle hworker (.inl rfl)))).trans h.partition
  | emitLost _ _ hworker =>
    have hids := map_id_set hworker .counting
    refine ⟨hids.trans h.ids, ?_⟩
    rw [hids, pendingIds_set hworker .counting (by simp)]
    exact h.partition
  | countLost i id hworker =>
    have hids := map_id_set hworker .releasing
    refine ⟨hids.trans h.ids, ?_⟩
    rw [hids]
    have hshift := perm_shift (observationIds b.put ++ b.lost) [] (pendingIds (b.workers.set i
      ⟨id, .releasing⟩)) id
    rw [append_nil, append_nil, append_assoc (observationIds b.put)] at hshift
    exact (hshift.trans
      (List.Perm.append_left _ (pendingIds_settle hworker (.inr rfl)))).trans h.partition
  | release _ _ hworker =>
    have hids := map_id_set hworker .released
    refine ⟨hids.trans h.ids, ?_⟩
    rw [hids, pendingIds_set hworker .released (by simp)]
    exact h.partition
  | start | reportQueued | stopQueued =>
    exact ⟨h.ids, by simpa [observationIds] using h.partition⟩
  | _ => exact ⟨h.ids, h.partition⟩

/-- When no worker was abandoned, all of them have released their capacity. -/
def Settled (b : Books) : Prop :=
  b.phase.abandoned? = some 0 → ∀ w ∈ b.workers, w.phase = .released

/-- Then no worker has anything left to do. -/
theorem Settled.released (h : Settled b) (hnone : b.phase.abandoned? = some 0)
    (hworker : b.workers[i]? = some ⟨id, p⟩) : p = .released :=
  h hnone _ (mem_of_getElem? hworker)

theorem Settled.move (h : Settled b) (hwithin : Within maxConcurrent b)
    (hm : Moves maxConcurrent b b') : Settled b' := by
  have hkeep {phase : Phase} (hsame : phase.abandoned? = b.phase.abandoned?) :
      Settled { b with phase } := fun hnone => h (hsame ▸ hnone)
  -- a worker that moves has not released its capacity
  have hmoves {i id : Nat} {p : WorkerPhase} {b' : Books} (hsame : b'.phase = b.phase)
      (hworker : b.workers[i]? = some ⟨id, p⟩) (hp : p ≠ .released) : Settled b' :=
    fun hnone => absurd (h.released (hsame ▸ hnone) hworker) hp
  cases hm with
  | abandon =>
    intro hnone
    have hactive : unreleased b.workers = 0 := hwithin.active.symm.trans (Option.some.inj hnone)
    rw [unreleased, countP_eq_zero] at hactive
    intro w hw
    simpa using hactive w hw
  | dueLast _ hphase | notDue _ hphase | read _ hphase | giveUp _ hphase | load _ hphase =>
    exact hkeep (by rw [hphase]; rfl)
  | reportQueued k hphase | count k hphase =>
    have hsame : (Phase.reported k).abandoned? = b.phase.abandoned? := by rw [hphase]; rfl
    exact hkeep hsame
  | reportLost k hphase =>
    have hsame : (Phase.counting k).abandoned? = b.phase.abandoned? := by rw [hphase]; rfl
    exact hkeep hsame
  | summarize _ _ hphase hsummary =>
    exact hkeep (by rw [hphase, ← hsummary.2.2.2]; rfl)
  | stopQueued summary hphase | countStopped summary hphase =>
    have hsame : (Phase.loading summary).abandoned? = b.phase.abandoned? := by rw [hphase]; rfl
    exact hkeep hsame
  | emitQueued _ _ _ hworker | emitLost _ _ hworker | countLost _ _ hworker | release _ _ hworker =>
    exact hmoves rfl hworker nofun
  | _ => nofun

/-- The events are put in order: the start comes first, and the end comes last unless a worker was
abandoned. -/
structure Ordered (b : Books) : Prop where
  fresh : b.phase = .starting → b.workers = [] ∧ b.put = []
  first : b.phase ≠ .starting → b.put.head? = some .started
  unstopped : b.phase.ended = false → ∀ e ∈ b.put, isStopped e = false
  last : b.phase.ended = true → b.phase.abandoned? = some 0 →
    ∀ {before e after}, b.put = before ++ e :: after → isStopped e = true → after = []

/-- An event behind others leaves the first one in place. -/
theorem head?_snoc {events : List ListenerEvent} {e e' : ListenerEvent}
    (h : events.head? = some e) : (events ++ [e']).head? = some e := by
  rw [List.head?_append, h, Option.some_or]

/-- Where no event is the end, none is it too early. -/
theorem last_of_unstopped {events before after : List ListenerEvent} {e : ListenerEvent}
    (h : ∀ e ∈ events, isStopped e = false) (hsplit : events = before ++ e :: after)
    (he : isStopped e = true) : after = [] := by
  cases (h e (mem_iff_append.mpr ⟨_, _, hsplit⟩)).symm.trans he

theorem Ordered.move (h : Ordered b) (hsettled : Settled b) (hm : Moves maxConcurrent b b') :
    Ordered b' := by
  -- one more event that is not the end, within the run
  have hsnoc {event : ListenerEvent} (hevent : isStopped event = false)
      (hended : b.phase.ended = false) : ∀ e ∈ b.put ++ [event], isStopped e = false := by
    intro e he
    rcases mem_append.mp he with hold | hnew
    · exact h.unstopped hended e hold
    · rwa [mem_singleton.mp hnew]
  -- the phase changes within the run, and nothing is put
  have hgo {b' : Books} (hfrom : b.phase.midway = true) (hto : b'.phase.midway = true)
      (hput : b'.put = b.put) : Ordered b' := by
    obtain ⟨hstarted, hended⟩ := Phase.of_midway hfrom
    obtain ⟨hstarted', hended'⟩ := Phase.of_midway hto
    refine ⟨fun hs => absurd hs hstarted', fun _ => hput ▸ h.first hstarted,
      fun _ => hput ▸ h.unstopped hended, fun htrue => ?_⟩
    cases hended'.symm.trans htrue
  cases hm with
  | start hphase =>
    obtain ⟨-, hput⟩ := h.fresh hphase
    refine ⟨nofun, fun _ => ?_, fun _ => hsnoc rfl (by rw [hphase]; rfl), nofun⟩
    rw [hput]
    rfl
  | reportQueued k hphase =>
    exact ⟨nofun, fun _ => head?_snoc (h.first (by rw [hphase]; nofun)),
      fun _ => hsnoc rfl (by rw [hphase]; rfl), nofun⟩
  | stopQueued _ hphase =>
    have hnone := h.unstopped (by rw [hphase]; rfl)
    refine ⟨nofun, fun _ => head?_snoc (h.first (by rw [hphase]; nofun)), nofun, ?_⟩
    intro _ _ before e after hsplit he
    cases after using List.reverseRecOn with
    | nil => rfl
    | append_singleton =>
      -- an event before the new one is not the end
      rw [← cons_append, ← append_assoc] at hsplit
      have hinit := (append_inj' hsplit rfl).1
      cases (hnone e (mem_iff_append.mpr ⟨_, _, hinit⟩)).symm.trans he
  | countStopped _ hphase =>
    have hnone := h.unstopped (by rw [hphase]; rfl)
    exact ⟨nofun, fun _ => h.first (by rw [hphase]; nofun), nofun,
      fun _ _ _ _ _ hsplit he => last_of_unstopped hnone hsplit he⟩
  | load _ hphase =>
    exact ⟨nofun, fun _ => h.first (by rw [hphase]; nofun), nofun,
      fun _ hnone _ _ _ hsplit he => h.last (by rw [hphase]; rfl) (by rw [hphase]; exact hnone)
        hsplit he⟩
  | emitQueued _ _ _ hworker =>
    have hstarted : b.phase ≠ .starting := by
      intro hstarting
      rw [(h.fresh hstarting).1] at hworker
      cases hworker
    refine ⟨fun hstarting => absurd hstarting hstarted, fun _ => head?_snoc (h.first hstarted),
      fun hended => hsnoc rfl hended, ?_⟩
    intro _ hnone before e after hsplit he
    cases hsettled.released hnone hworker
  | emitLost _ _ hworker | countLost _ _ hworker | release _ _ hworker =>
    refine ⟨fun hstarting => ?_, h.first, h.unstopped, h.last⟩
    rw [(h.fresh hstarting).1] at hworker
    cases hworker
  | _ => exact hgo (by simp_all only [Phase.midway]) rfl rfl

/-- Whether the event that ends the run was given up. -/
def stopLost (b : Books) : Bool := b.phase.ended && b.put.all fun e => !isStopped e

/-- Every record that could not be queued is counted once. -/
def Counted (b : Books) : Prop :=
  b.recordsDropped + b.phase.uncounted =
    b.lost.length + (b.reports.filter fun r => !r.queued).length + b.stopLost.toNat

theorem Counted.move (h : Counted b) (hordered : Ordered b) (hm : Moves maxConcurrent b b') :
    Counted b' := by
  rw [Counted] at h ⊢
  -- before the last event is decided it is not lost
  have hopen {phase : Phase} (hphase : b.phase = phase) (hended : phase.ended = false) :
      b.stopLost = false := by rw [stopLost, hphase, hended, Bool.false_and]
  cases hm with
  | reportLost k hphase =>
    rw [hopen hphase rfl, hphase] at h
    simp only [stopLost, Phase.ended, Phase.uncounted, filter_append, length_append,
      report, Bool.false_and] at h ⊢
    exact congrArg (· + 1) h
  | reportQueued k hphase =>
    rw [hopen hphase rfl, hphase] at h
    simpa [stopLost, Phase.ended, Phase.uncounted, report] using h
  | count k hphase =>
    rw [hopen hphase rfl, hphase] at h
    simpa [stopLost, Phase.ended, Phase.uncounted] using h
  | stopQueued _ hphase =>
    rw [hopen hphase rfl, hphase] at h
    simpa [stopLost, Phase.ended, Phase.uncounted, isStopped] using h
  | countStopped _ hphase =>
    rw [hopen hphase rfl, hphase] at h
    have hnone : (b.put.all fun e => !isStopped e) = true := by
      rw [all_eq_true]
      intro e he
      rw [hordered.unstopped (by rw [hphase]; rfl) e he]
      rfl
    simp only [stopLost, Phase.ended, Phase.uncounted, hnone, Bool.and_true] at h ⊢
    exact congrArg (· + 1) h
  | load _ hphase =>
    rw [stopLost, hphase] at h
    exact h
  | emitQueued i obs ending =>
    have hsame : (b.put ++ [ListenerEvent.observation obs ending]).all (fun e => !isStopped e) =
        b.put.all fun e => !isStopped e := by
      simp [isStopped]
    rw [stopLost, hsame]
    exact h
  | countLost =>
    rw [length_append, length_singleton]
    change b.recordsDropped + 1 + b.phase.uncounted = b.lost.length + 1 +
      (b.reports.filter fun r => !r.queued).length + b.stopLost.toNat
    omega
  | emitLost => exact h
  | release => exact h
  | _ => simp_all [stopLost, Phase.ended, Phase.uncounted]

/-- The overload records that were put are those that could be queued. -/
def Filed (b : Books) : Prop :=
  overloads b.put = (b.reports.filter Report.queued).map fun r =>
    (r.droppedSinceLast, r.totalDropped)

theorem Filed.move (h : Filed b) (hm : Moves maxConcurrent b b') : Filed b' := by
  rw [Filed, overloads] at h ⊢
  cases hm with
  | start | stopQueued | emitQueued => simpa using h
  | reportQueued =>
    rw [filterMap_append, h, filter_append, map_append]
    rfl
  | reportLost =>
    rw [filter_append, map_append, ← h]
    exact (append_nil _).symm
  | _ => exact h

/-- The summary has the final counters. -/
structure Summed (b : Books) : Prop where
  counters : ∀ {summary}, b.phase.summary? = some summary → summary.accepted = b.accepted ∧
    summary.observed = b.observed ∧ summary.droppedAtCapacity = b.dropped
  recordsDropped : ∀ {summary}, b.phase = .closed summary → summary.workersAbandoned = 0 →
    summary.recordsDropped = b.recordsDropped

/-- A move keeps the summary equal to the counts. -/
theorem Summed.move (h : Summed b) (hsettled : Settled b) (hm : Moves maxConcurrent b b') :
    Summed b' := by
  -- a worker that moves was abandoned
  have hworkers {i id : Nat} {p : WorkerPhase} (hworker : b.workers[i]? = some ⟨id, p⟩)
      (hp : p ≠ .released) {summary : Summary} (hphase : b.phase = .closed summary) :
      summary.workersAbandoned ≠ 0 := by
    intro hnone
    refine hp (hsettled.released ?_ hworker)
    rw [hphase, ← hnone]
    rfl
  cases hm with
  | summarize _ _ _ hsummary =>
    refine ⟨fun hsome => ?_, nofun⟩
    cases hsome
    exact ⟨hsummary.1, hsummary.2.1, hsummary.2.2.1⟩
  | stopQueued _ hphase | giveUp _ hphase | countStopped _ hphase =>
    exact ⟨fun hsome => h.counters (by rw [hphase]; exact hsome), nofun⟩
  | load summary hphase =>
    refine ⟨fun hsome => ?_, fun hclosed _ => ?_⟩
    · have hcounters := h.counters (show b.phase.summary? = some summary by rw [hphase]; rfl)
      cases hsome
      exact hcounters
    · cases hclosed
      rfl
  | emitQueued | emitLost | release => exact ⟨h.counters, h.recordsDropped⟩
  | countLost _ _ hworker =>
    exact ⟨h.counters, fun hclosed hnone => absurd hnone (hworkers hworker nofun hclosed)⟩
  | _ => exact ⟨nofun, nofun⟩

/-- Everything the books keep. -/
structure Balanced (maxConcurrent : Nat) (b : Books) : Prop where
  within : Within maxConcurrent b
  tallied : Tallied b
  numbered : Numbered b
  settled : Settled b
  ordered : Ordered b
  counted : Counted b
  filed : Filed b
  summed : Summed b

/-- **One move keeps the balance.** -/
theorem Balanced.move (h : Balanced maxConcurrent b) (hm : Moves maxConcurrent b b') :
    Balanced maxConcurrent b' where
  within := h.within.move hm
  tallied := h.tallied.move hm
  numbered := h.numbered.move hm
  settled := h.settled.move h.within hm
  ordered := h.ordered.move h.settled hm
  counted := h.counted.move h.ordered hm
  filed := h.filed.move hm
  summed := h.summed.move h.settled hm

end Books

/-- The books of a run that begins are balanced. -/
theorem init_balanced (config : ListenerConfig) (stop : Bool) (clock : Nat) :
    Books.Balanced config.maxConcurrent (init config stop clock).books where
  within := ⟨rfl, Nat.zero_le _⟩
  tallied := rfl
  numbered := ⟨rfl, .refl _⟩
  settled := nofun
  ordered := ⟨fun _ => ⟨rfl, rfl⟩, fun h => absurd rfl h, fun _ _ => nofun, nofun⟩
  counted := rfl
  filed := rfl
  summed := ⟨nofun, nofun⟩

/-- **The books are balanced in every interleaving.** -/
theorem run_balanced {config : ListenerConfig} {stop : Bool} {clock : Nat}
    {actions : List Action} {s : State}
    (hrun : Run (Steps config) (init config stop clock) actions s) :
    Books.Balanced config.maxConcurrent s.books :=
  books_invariant hrun (init_balanced config stop clock) fun h hm => h.move hm

/-! ### Accounting -/

/-- What the summary of a run that has returned says. -/
structure Closed (s : State) (summary : Summary) : Prop where
  tally : summary.accepted = summary.observed + summary.droppedAtCapacity
  observed : summary.observed = s.observed
  /-- Without abandoned workers every record was queued or counted, the end of the run included. -/
  balance : summary.workersAbandoned = 0 →
    (observationIds s.outbox.put).length + (overloads s.outbox.put).length +
        summary.recordsDropped =
      summary.observed + s.reports.length + if s.outbox.put.any isStopped then 0 else 1
  /-- The start was put first. -/
  first : s.outbox.put.head? = some .started
  /-- Without abandoned workers the end was put last, if it was put. -/
  last : summary.workersAbandoned = 0 → ∀ {before e after},
    s.outbox.put = before ++ e :: after → isStopped e = true → after = []

/-- What can be said of a listener at any time. -/
structure Accounted (config : ListenerConfig) (s : State) : Prop where
  /-- No more workers hold capacity than there is. -/
  capacity : unreleased s.workers ≤ config.maxConcurrent
  /-- The workers are numbered from 1. -/
  numbers : s.workers.map Worker.id = List.range' 1 s.observed
  /-- No record is queued twice, counted twice, or both. -/
  once : (observationIds s.outbox.put ++ s.lost).Nodup
  /-- Records are those of workers. -/
  ofWorkers : ∀ id ∈ observationIds s.outbox.put ++ s.lost, 1 ≤ id ∧ id ≤ s.observed
  returned : ∀ {summary}, s.pc = .returned summary → Closed s summary

namespace Books.Balanced

variable {maxConcurrent : Nat} {s : State}

/-- The queued and the counted records are those of different workers. -/
theorem ofWorkers (h : Balanced maxConcurrent s.books) :
    (observationIds s.outbox.put ++ s.lost).Nodup ∧
      ∀ id ∈ observationIds s.outbox.put ++ s.lost, 1 ≤ id ∧ id ≤ s.observed := by
  have hperm : (observationIds s.outbox.put ++ s.lost ++ pendingIds s.workers).Perm
      (List.range' 1 s.observed) := h.numbered.partition.trans (.of_eq h.numbered.ids)
  refine ⟨((hperm.nodup_iff.mpr (nodup_range' ..)).of_append_left), fun id hid => ?_⟩
  have hmem := hperm.subset (mem_append_left _ hid)
  rw [mem_range'_1] at hmem
  omega

/-- **What a run that has returned says.** -/
theorem closed (h : Balanced maxConcurrent s.books) {summary : Summary}
    (hpc : s.pc = .returned summary) : Closed s summary := by
  have hphase : s.books.phase = .closed summary := congrArg Pc.phase hpc
  obtain ⟨haccepted, hobserved, hdropped⟩ := h.summed.counters (by rw [hphase]; rfl)
  refine ⟨?_, hobserved, fun hnone => ?_, h.ordered.first (by rw [hphase]; nofun), fun hnone => ?_⟩
  · have htally := h.tallied
    rw [Tallied, hphase] at htally
    rw [haccepted, hobserved, hdropped]
    exact htally
  · have habandoned : s.books.phase.abandoned? = some 0 := by
      rw [hphase, ← hnone]
      rfl
    -- every worker is done with its record
    have hpending : pendingIds s.workers = [] := by
      rw [pendingIds, map_eq_nil_iff, filter_eq_nil_iff]
      intro w hw
      rw [h.settled habandoned w hw]
      decide
    have hobservations : (observationIds s.outbox.put).length + s.lost.length = s.observed := by
      have hlength := h.numbered.partition.length_eq
      rw [h.numbered.ids, length_range', length_append, length_append] at hlength
      change _ + (pendingIds s.workers).length = _ at hlength
      rwa [hpending] at hlength
    have hoverloads : (overloads s.outbox.put).length +
        (s.reports.filter fun r => !r.queued).length = s.reports.length := by
      have hfiled := congrArg List.length h.filed
      rw [length_map] at hfiled
      rw [length_eq_length_filter_add (l := s.reports) Report.queued]
      exact congrArg (· + _) hfiled
    have hlost : s.recordsDropped = s.lost.length +
        (s.reports.filter fun r => !r.queued).length +
        if s.outbox.put.any isStopped then 0 else 1 := by
      have hcounted := h.counted
      rw [Counted, stopLost, hphase, all_eq_not_any_not] at hcounted
      simp only [Bool.not_not] at hcounted
      change s.recordsDropped + 0 = s.lost.length +
        (s.reports.filter fun r => !r.queued).length +
        (true && !s.outbox.put.any isStopped).toNat at hcounted
      cases hany : s.outbox.put.any isStopped <;> simpa [hany] using hcounted
    rw [h.summed.recordsDropped hphase hnone, hobserved]
    change _ + s.recordsDropped = s.observed + _ + _
    omega
  · refine h.ordered.last (by rw [hphase]; rfl) ?_
    rw [hphase, ← hnone]
    rfl

end Books.Balanced

/-- **The listener's accounting holds in every interleaving** of the accept loop, the workers and
the sink, for every capacity of the channel. -/
theorem listener_accounting (config : ListenerConfig) (stop : Bool) (clock : Nat)
    {actions : List Action} {s : State}
    (hrun : Run (Steps config) (init config stop clock) actions s) : Accounted config s := by
  have h := run_balanced hrun
  exact ⟨h.within.active ▸ h.within.le, h.numbered.ids, h.ofWorkers.1, h.ofWorkers.2,
    fun hpc => h.closed hpc⟩

/-- A listener for two connections, one at a time. -/
def twoConnections : ListenerConfig where
  maxConcurrent := 1
  maxConnections := some 2
  shutdownGrace := 0

/-- The accept loop takes a connection. -/
def takesConnection : List Action := List.replicate 4 .main ++ [.accept (.ok ()), .main]

/-- A run with one observation, one dropped connection and its record. -/
def twoConnectionsRun : List Action :=
  .main :: takesConnection ++ takesConnection ++ List.replicate 5 .main ++
    [.workerEmit 0 { id := 1 } .timedOut, .worker 0] ++ List.replicate 14 .main

/-- The run of two connections is accounted for. -/
theorem listener_accounting_twoConnections :
    ∃ s summary, Run (Steps twoConnections) (init twoConnections false 0) twoConnectionsRun s ∧
      s.pc = .returned summary ∧ summary.observed = 1 ∧ summary.droppedAtCapacity = 1 ∧
      summary.workersAbandoned = 0 ∧ s.outbox.put.any isStopped = true ∧
      Accounted twoConnections s := by
  have hexec : ∃ s summary, exec twoConnections (init twoConnections false 0) twoConnectionsRun =
      some s ∧ s.pc = .returned summary ∧ summary.observed = 1 ∧ summary.droppedAtCapacity = 1 ∧
      summary.workersAbandoned = 0 ∧ s.outbox.put.any isStopped = true :=
    ⟨_, _, rfl, rfl, rfl, rfl, rfl, rfl⟩
  obtain ⟨s, summary, hs, hpc, hobserved, hdropped, hnone, hstopped⟩ := hexec
  have hrun := run_of_exec hs
  exact ⟨s, summary, hrun, hpc, hobserved, hdropped, hnone, hstopped,
    listener_accounting twoConnections false 0 hrun⟩

end Tatami.Tcp.Listener
