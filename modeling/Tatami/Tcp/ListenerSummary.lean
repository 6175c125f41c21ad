import Tatami.Tcp.ListenerBooks

/-! # The summary that is delivered and the one that is returned

`Listener::run` reads its counters for the last event, and the number of dropped records once more
when the event is in the channel. A worker that was abandoned goes on in between. The two summaries
are the same exactly if no worker counts a lost record between the two reads. -/

namespace Tatami.Tcp.Listener

/-! ### The two reads -/

/-- The accept loop is between the two reads. -/
def Phase.between : Phase → Bool
  | .read _ _ => true
  | .stopping _ => true
  | .countingStopped _ => true
  | .loading _ => true
  | _ => false

/-- The steps, labelled with the states in which they are taken. -/
def StepsFrom (config : ListenerConfig) (s : State) (l : State × Action) (s' : State) : Prop :=
  l.1 = s ∧ Steps config s l.2 s'

/-- In this step a worker counts its lost record. -/
def CountsLost (l : State × Action) : Prop :=
  ∃ i id, l.2 = .worker i ∧ l.1.workers[i]? = some ⟨id, .counting⟩

/-- No worker counts a lost record between the two reads. -/
def Quiet (trace : List (State × Action)) : Prop :=
  ∀ l ∈ trace, l.1.pc.phase.between = true → ¬CountsLost l

theorem quiet_snoc {trace : List (State × Action)} {l : State × Action} :
    Quiet (trace ++ [l]) ↔ Quiet trace ∧ (l.1.pc.phase.between = true → ¬CountsLost l) := by
  simp only [Quiet, List.forall_mem_append, List.forall_mem_singleton]

/-! ### What workers lose -/

section Lost

variable {config : ListenerConfig} {s s' : State} {a : Action}

theorem mainStep_lost (h : mainStep config s = some s') : s'.lost = s.lost := by
  have hemit (event : ListenerEvent) (next full : Pc) :
      (emit event next full s).lost = s.lost := by
    rw [emit]
    split <;> rfl
  cases hpc : s.pc <;> simp only [mainStep, hpc] at h
  case sendOverload | sendLast | sendStopped =>
    cases h
    exact hemit _ _ _
  case acquire =>
    cases h
    rw [acquire]
    split <;> rfl
  case starting | checkOverload | checkLast | retryStopped => split at h <;> cases h <;> rfl
  all_goals cases h <;> rfl

/-- Only this step adds to what workers lost. -/
theorem lost_eq_iff (h : Steps config s a s') : s'.lost = s.lost ↔ ¬CountsLost (s, a) := by
  have hother (hlost : s'.lost = s.lost) (ha : ∀ i, a ≠ .worker i) :
      s'.lost = s.lost ↔ ¬CountsLost (s, a) := by
    refine iff_of_true hlost ?_
    rintro ⟨i, _, hi, _⟩
    exact ha i hi
  cases a with
  | worker i =>
    have h : workerStep i s = some s' := h
    rw [workerStep] at h
    split at h
    · rename_i id hworker
      cases h
      exact iff_of_false (by simp) (not_not_intro ⟨i, id, rfl, hworker⟩)
    · rename_i id hworker
      cases h
      refine iff_of_true rfl ?_
      rintro ⟨_, _, hi, hcounting⟩
      cases hi
      cases hworker.symm.trans hcounting
    · cases h
  | main => exact hother (mainStep_lost h) (by simp)
  | _ =>
    refine hother ?_ (by simp)
    simp only [Steps, step, acceptStep, workerEmit] at h
    repeat' split at h
    all_goals cases h <;> rfl

end Lost

/-! ### What the reads come to -/

/-- A number was `n`, and still is exactly if it was quiet since. -/
def Since (n count : Nat) (quiet : Prop) : Prop := n ≤ count ∧ (count = n ↔ quiet)

namespace Books

variable {maxConcurrent : Nat} {quiet : Prop} {b b' : Books}

/-- What is known of the reads, phase by phase. -/
def Reads (b : Books) (quiet : Prop) : Prop :=
  match b.phase with
  | .read _ n => Since n b.recordsDropped quiet
  | .stopping summary => Since summary.recordsDropped b.recordsDropped quiet
  | .countingStopped _ => True
  | .loading summary => ∀ d, .stopped d ∈ b.put →
      d = summary ∧ Since summary.recordsDropped b.recordsDropped quiet
  | .closed summary => ∀ d, .stopped d ∈ b.put → (summary = d ↔ quiet)
  | _ => quiet

/-- **A move keeps track of the reads.** -/
theorem Reads.move (h : b.Reads quiet) (hordered : b.Ordered) (hm : Moves maxConcurrent b b') :
    b'.Reads (quiet ∧ (b.phase.between = true → b'.lost = b.lost)) := by
  have hkeep (hlost : b'.lost = b.lost) :
      (quiet ∧ (b.phase.between = true → b'.lost = b.lost)) = quiet := by
    simp only [hlost, implies_true, and_true]
  unfold Reads at h ⊢
  cases hm with
  | countLost i id =>
    -- from here on the number that was read is too small
    have hlater {n : Nat} (hsince : Since n b.recordsDropped quiet) :
        Since n (b.recordsDropped + 1) (quiet ∧ (true = true → b.lost ++ [id] = b.lost)) :=
      ⟨Nat.le_succ_of_le hsince.1, iff_of_false (Nat.ne_of_gt (Nat.lt_succ_of_le hsince.1))
        (by simp)⟩
    cases hphase : b.phase <;> simp only [hphase] at h ⊢
    case read | stopping => exact hlater h
    case loading => exact fun d hd => ⟨(h d hd).1, hlater (h d hd).2⟩
    case closed => simpa [Phase.between] using h
    all_goals exact ⟨h, nofun⟩
  | emitQueued | emitLost | release =>
    rw [hkeep rfl]
    simpa using h
  | stopQueued summary hphase =>
    rw [hkeep rfl]
    rw [hphase] at h
    intro d hd
    rcases List.mem_append.mp hd with hold | hnew
    · cases hordered.unstopped (by rw [hphase]; rfl) _ hold
    · cases List.mem_singleton.mp hnew
      exact ⟨rfl, h⟩
  | giveUp => trivial
  | countStopped summary hphase =>
    -- the event was given up: there is none in the channel
    intro d hd
    cases hordered.unstopped (by rw [hphase]; rfl) _ hd
  | load summary hphase =>
    rw [hkeep rfl]
    rw [hphase] at h
    intro d hd
    obtain ⟨rfl, -, hiff⟩ := h d hd
    refine Iff.trans ?_ hiff
    cases d
    simp
  | read n hphase =>
    rw [hkeep rfl]
    rw [hphase] at h
    exact ⟨Nat.le_refl _, iff_of_true rfl h⟩
  | _ =>
    rw [hkeep rfl]
    simp_all only

end Books

variable {config : ListenerConfig} {stop : Bool} {clock : Nat} {trace : List (State × Action)}
  {s : State}

/-- **Every run keeps track of its reads.** -/
theorem run_reads (hrun : Run (StepsFrom config) (init config stop clock) trace s) :
    Books.Balanced config.maxConcurrent s.books ∧ s.books.Reads (Quiet trace) := by
  refine hrun.history (I := fun trace s => Books.Balanced config.maxConcurrent s.books ∧
    s.books.Reads (Quiet trace)) ⟨init_balanced config stop clock, fun _ hl => nomatch hl⟩ ?_
  rintro trace _ ⟨s, a⟩ s' ⟨hbalanced, hreads⟩ ⟨rfl, hstep⟩
  rw [quiet_snoc, ← lost_eq_iff hstep]
  rcases step_books hstep with hsame | hmove
  · rw [show s'.lost = s.lost from congrArg Books.lost hsame, hsame]
    simpa only [implies_true, and_true] using ⟨hbalanced, hreads⟩
  · exact ⟨hbalanced.move hmove, hreads.move hbalanced.ordered hmove⟩

/-- **The summary that is returned is the one that was delivered if and only if no worker counts a
lost record between the two reads.** -/
theorem returned_eq_stopped_iff {delivered returned : Summary}
    (hrun : Run (StepsFrom config) (init config stop clock) trace s)
    (hreturned : s.pc = .returned returned) (hput : .stopped delivered ∈ s.outbox.put) :
    returned = delivered ↔ Quiet trace := by
  have hreads := (run_reads hrun).2
  rw [Books.Reads, show s.books.phase = .closed returned from congrArg Pc.phase hreturned] at hreads
  exact hreads delivered hput

/-! ### A worker that is abandoned -/

/-- Every run has a trace. -/
theorem exists_trace {s' : State} {actions : List Action} (h : Run (Steps config) s actions s') :
    ∃ trace, trace.map Prod.snd = actions ∧ Run (StepsFrom config) s trace s' := by
  induction h with
  | nil => exact ⟨[], rfl, .nil⟩
  | @snoc _ t _ a _ hlast ih =>
    obtain ⟨trace, rfl, htrace⟩ := ih
    exact ⟨trace ++ [(t, a)], List.map_append, .snoc htrace ⟨rfl, hlast⟩⟩

/-- A listener with room for one record. -/
def oneRecord : ListenerConfig where
  maxConcurrent := 1
  pendingRecords := 1
  shutdownGrace := 0

/-- A stop is requested while a worker runs; it is abandoned, and loses its record when the last
event is in the channel. -/
def abandonRun : List Action :=
  .main :: List.replicate 3 (.sink (.ok ())) ++ takesConnection ++ [.requestStop] ++
    List.replicate 17 .main ++ [.workerEmit 0 { id := 1 } .shutdown, .worker 0] ++
    List.replicate 4 .main

theorem exec_abandonRun : ∃ s delivered returned,
    exec oneRecord (init oneRecord false 0) abandonRun = some s ∧ s.pc = .returned returned ∧
      .stopped delivered ∈ s.outbox.put ∧ delivered.recordsDropped = 0 ∧
      returned.recordsDropped = 1 :=
  ⟨_, ⟨1, 1, 0, 0, 1, .stopRequested, none, 0⟩, _, rfl, rfl, by decide, rfl, rfl⟩

/-- That run is not quiet. -/
theorem returned_eq_stopped_iff_abandonRun :
    ∃ trace s, trace.map Prod.snd = abandonRun ∧
      Run (StepsFrom oneRecord) (init oneRecord false 0) trace s ∧ ¬Quiet trace := by
  obtain ⟨s, _, _, hexec, hpc, hput, hdelivered, hreturned⟩ := exec_abandonRun
  obtain ⟨trace, hactions, htrace⟩ := exists_trace (run_of_exec hexec)
  refine ⟨trace, s, hactions, htrace, ?_⟩
  rw [← returned_eq_stopped_iff htrace hpc hput]
  rintro rfl
  cases hdelivered.symm.trans hreturned

/-- **An abandoned worker can lose its record between the two reads**: the last event says that no
record was dropped, the summary that is returned says that one was. -/
theorem returned_ne_stopped :
    ∃ s delivered returned, Run (Steps oneRecord) (init oneRecord false 0) abandonRun s ∧
      s.pc = .returned returned ∧ .stopped delivered ∈ s.outbox.put ∧
      delivered.recordsDropped = 0 ∧ returned.recordsDropped = 1 := by
  obtain ⟨s, delivered, returned, hexec, hends⟩ := exec_abandonRun
  exact ⟨s, delivered, returned, run_of_exec hexec, hends⟩

end Tatami.Tcp.Listener
