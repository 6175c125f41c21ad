import Tatami.Tcp.ChunkIndependence
import Tatami.Tcp.Handshake.Blocking
import Tatami.Tcp.Pump

/-! # The drivers report what the machines saw

Whatever the socket, the clock and the stop flag do, the events and the outcome that a driver
reports are those of a machine that was fed the received bytes and nothing else (`Saw`). Nothing is
read before the identification is out, and every read is within the room there is, so the input
never overflows. -/

namespace Tatami.Tcp

open Tatami.Wire Reference List Seam

/-! ### Machines that were pumped -/

section Pump

variable {μ σ ε ω ν : Type}

/-- A call of a driver that only reads: within the room, and for something. -/
def Entry.Reading : Entry → Prop
  | .read room want _ => 1 ≤ want ∧ want ≤ room
  | .write _ _ => False
  | _ => True

/-- What a driver came to, as far as the machine is concerned: its outcome, if it has one. -/
def Halt.result : Halt ω → Drive (Option ω)
  | .running => .running
  | .panicked p => .panicked p
  | .finished o => .returned (some o)
  | .ended o => .returned (some o)
  | _ => .returned none

/-- The result of a driver, without what does not concern the machine. -/
def Drive.map {α β : Type} (f : α → β) : Drive α → Drive β
  | .running => .running
  | .panicked p => .panicked p
  | .returned a => .returned (f a)

/-- The events are all that `m` said when it was fed the pieces, and its outcome is what a driver
returned. One that returned without it had seen the machine ask for more, or had not begun. -/
def Saw (A : Machine μ UInt8 ε ω) (m : μ) (pieces : List Bytes) (events : List ε) :
    Drive (Option ω) → μ → Prop
  | .running, m' => A.Progress m pieces events m'
  | .panicked _, _ => False
  | .returned (some o), m' => A.Session m pieces events o pieces.flatten m' ∧ A.Rests o m'
  | .returned none, m' => A.Progress m pieces events m' ∧
      (A.step m' = .ok (.needMore, m') ∨ pieces = [] ∧ m' = m)

section Implements

variable {A : Machine μ UInt8 ε ω} {look : σ → Bytes → Look σ ε ν} {outcome : ν → Bytes → ω}
  {eof : σ → ν} {view : μ → σ} {held : μ → Bytes} {I : μ → Prop} {deadline chunk : Nat}
  {m m₁ m' : μ} {halt : Halt ω} {pieces : List Bytes} {events : List ε} {log : List Entry}

/-- Where there is room, no more is asked for than fits. -/
theorem wanted_le {room : Nat} (h : 1 ≤ room) :
    1 ≤ wanted chunk room ∧ wanted chunk room ≤ room := by
  rw [wanted]
  omega

/-- The calls around a read within the room. -/
theorem reading_reads {instant timeout room : Nat} {result : Except SocketError Bytes}
    (h : 1 ≤ room) :
    ∀ entry ∈ reading instant timeout room (wanted chunk room) result, entry.Reading := by
  rw [reading, forall_mem_cons, forall_mem_cons, forall_mem_singleton]
  exact ⟨trivial, trivial, wanted_le h⟩

/-- **One round**: the machine goes on with what was received, and the read was within the room. -/
theorem Pumps.progress (himpl : Implements A look outcome eof view held I) (hm : I m)
    (hprogress : A.Progress m pieces events m₁) {round : Round ε}
    (h : Pumps A deadline chunk m₁ round m') :
    A.Progress m (pieces ++ round.entries.flatMap Entry.piece) (events ++ round.events) m' ∧
      ∀ entry ∈ round.entries, entry.Reading := by
  have hm₁ := hprogress.keeps himpl hm
  cases h with
  | event hstep =>
    rw [flatMap_nil, append_nil]
    exact ⟨hprogress.event hstep, nofun⟩
  | @fed m₂ instant timeout piece hstep htime hpiece hlength =>
    obtain ⟨hlook, rfl⟩ := himpl.of_needMore hm₁ hstep
    have hroom := himpl.room hm₁ hlook
    rw [append_nil]
    refine ⟨?_, reading_reads hroom⟩
    have hpieces : (reading instant timeout (A.room m₂) (wanted chunk (A.room m₂))
        (.ok piece)).flatMap Entry.piece = [piece] := by
      cases piece with
      | nil => exact absurd rfl hpiece
      | cons => rfl
    rw [hpieces]
    exact hprogress.feed hstep hpiece (hlength.trans (wanted_le hroom).2)
  | again hstep =>
    obtain ⟨hlook, rfl⟩ := himpl.of_needMore hm₁ hstep
    rw [append_nil]
    refine ⟨?_, reading_reads (himpl.room hm₁ hlook)⟩
    have hsame := hprogress.look hstep
    rwa [← append_nil pieces] at hsame

theorem progress_of_rounds (himpl : Implements A look outcome eof view held I) (hm : I m)
    {rounds : List (Round ε)} (h : Run (Pumps A deadline chunk) m rounds m₁) :
    A.Progress m ((rounds.flatMap Round.entries).flatMap Entry.piece)
        (rounds.flatMap Round.events) m₁ ∧
      ∀ entry ∈ rounds.flatMap Round.entries, entry.Reading := by
  induction h with
  | nil => exact ⟨.start, nofun⟩
  | snoc _ hlast ih =>
    obtain ⟨hprogress, hreads⟩ := hlast.progress himpl hm ih.1
    simp only [flatMap_append, flatMap_singleton]
    exact ⟨hprogress, forall_mem_append.mpr ⟨ih.2, hreads⟩⟩

/-- **The last round** completes what the driver saw: after the progress made before it, the machine
has answered as it does in a session on the pieces that were read. -/
theorem Halts.saw (himpl : Implements A look outcome eof view held I) (hm : I m)
    (hprogress : A.Progress m pieces events m₁) (hchunk : 1 ≤ chunk)
    (h : Halts A deadline chunk m₁ halt log m') :
    Saw A m (pieces ++ log.flatMap Entry.piece) events halt.result m' ∧
      ∀ entry ∈ log, entry.Reading := by
  have hm₁ := hprogress.keeps himpl hm
  -- a driver that stops when the machine asks for more leaves it waiting
  have hwaits {m₂ : μ} (hstep : A.step m₁ = .ok (.needMore, m₂)) :
      1 ≤ A.room m₂ ∧ A.Progress m (pieces ++ []) events m₂ ∧
        (A.step m₂ = .ok (.needMore, m₂) ∨ pieces ++ [] = [] ∧ m₂ = m) := by
    obtain ⟨hlook, rfl⟩ := himpl.of_needMore hm₁ hstep
    rw [append_nil]
    exact ⟨himpl.room hm₁ hlook, hprogress, .inl hstep⟩
  cases h with
  | running =>
    rw [flatMap_nil, append_nil]
    exact ⟨hprogress, nofun⟩
  | panicked p hstep =>
    -- every look has an answer
    exfalso
    cases hlook : look (view m₁) (held m₁) with
    | needMore => cases hstep.symm.trans (himpl.needMore hm₁ hlook)
    | event =>
      obtain ⟨m₂, hevent, -⟩ := himpl.event hm₁ hlook
      cases hstep.symm.trans hevent
    | finished =>
      obtain ⟨m₂, hfinished, -⟩ := himpl.finished hm₁ hlook
      cases hstep.symm.trans hfinished
  | finished o hstep =>
    obtain ⟨v, n, -, -, hrests⟩ := himpl.of_finished hm₁ hstep
    have hsession := hprogress.session himpl hm
      (show A.Session m₁ [] [] o [] m' from .finished hstep)
    rw [append_nil, append_nil, append_nil] at hsession
    rw [flatMap_nil, append_nil]
    exact ⟨⟨hsession, hrests⟩, nofun⟩
  | @ended m₂ instant timeout hstep htime =>
    obtain ⟨hlook, rfl⟩ := himpl.of_needMore hm₁ hstep
    obtain ⟨_, hended, hrests⟩ := himpl.ended hm₁ hlook
    have hsession := hprogress.session himpl hm (.ended hstep hended)
    rw [append_nil, append_nil, append_nil] at hsession
    rw [hended]
    refine ⟨?_, reading_reads (hwaits hstep).1⟩
    change Saw A m (pieces ++ []) events _ _
    rw [append_nil]
    exact ⟨hsession, hrests⟩
  | shutdown hstep => exact ⟨(hwaits hstep).2, nofun⟩
  | late hstep =>
    exact ⟨(hwaits hstep).2, forall_mem_singleton.mpr trivial⟩
  | refused hstep =>
    exact ⟨(hwaits hstep).2,
      forall_mem_cons.mpr ⟨trivial, forall_mem_singleton.mpr trivial⟩⟩
  | sliced => omega
  | failed hstep => exact ⟨(hwaits hstep).2, reading_reads (hwaits hstep).1⟩

/-- **A machine that is pumped says what one says that is fed the same pieces.** -/
theorem Pumped.saw (himpl : Implements A look outcome eof view held I) (hm : I m)
    (hchunk : 1 ≤ chunk) (h : Pumped A deadline chunk m halt events log m') :
    Saw A m (log.flatMap Entry.piece) events halt.result m' ∧ ∀ entry ∈ log, entry.Reading := by
  obtain ⟨_, _, _, hrun, hhalts, rfl, rfl⟩ := h
  obtain ⟨hprogress, hreads⟩ := progress_of_rounds himpl hm hrun
  obtain ⟨hsaw, hlast⟩ := hhalts.saw himpl hm hprogress hchunk
  rw [flatMap_append]
  exact ⟨hsaw, forall_mem_append.mpr ⟨hreads, hlast⟩⟩

/-- When the input ends, the outcome is that of the end. -/
theorem Pumped.ended_eq (himpl : Implements A look outcome eof view held I) (hm : I m) {o : ω}
    (h : Pumped A deadline chunk m (.ended o) events log m') :
    ∃ s rest, o = outcome (eof s) rest := by
  obtain ⟨_, _, _, hrun, hhalts, -, -⟩ := h
  have hm₁ := (progress_of_rounds himpl hm hrun).1.keeps himpl hm
  cases hhalts with
  | ended hstep =>
    obtain ⟨hlook, rfl⟩ := himpl.of_needMore hm₁ hstep
    obtain ⟨_, hended, -⟩ := himpl.ended hm₁ hlook
    exact ⟨_, _, congrArg Prod.fst hended⟩

end Implements

/-- The calls of a session respect the room. -/
theorem Session.run {A : Machine μ UInt8 ε ω} {buf : μ → InputBuffer} {ending : μ → Option ω}
    {overflow? : ω → Option InputOverflow} (hbuf : ∀ m, A.room m = (buf m).room) {m m' : μ}
    {pieces : List Bytes} {events : List ε} {o : ω} {arrived : Bytes}
    (hsession : A.Session m pieces events o arrived m') :
    ∃ ls, Run (Fed.ofMachine A buf ending overflow?).respects m ls m' := by
  induction hsession with
  | event hstep _ ih =>
    obtain ⟨ls, hls⟩ := ih
    exact ⟨.step _ :: ls, .cons ⟨hstep, nofun⟩ hls⟩
  | @feed m m₁ _ piece _ _ _ _ hstep _ hroom _ ih =>
    obtain ⟨ls, hls⟩ := ih
    refine ⟨.step _ :: .feed piece :: ls,
      .cons ⟨hstep, nofun⟩ (.cons ⟨rfl, fun data hdata => ?_⟩ hls)⟩
    cases hdata
    exact hbuf m₁ ▸ hroom
  | ended hstep hended =>
    exact ⟨[.step _, .inputEnded _], .cons ⟨hstep, nofun⟩ (.cons ⟨hended, nofun⟩ .nil)⟩
  | finished hstep => exact ⟨[.step _], .cons ⟨hstep, nofun⟩ .nil⟩

/-- A session of a machine at the front does not overflow, and finishes it. -/
theorem Front.session_fits {F : Front μ σ ε ν ω} {lines : IdentLimits} {initial : InitialLimits}
    {capacity : Nat} {m m' : μ} {pieces : List Bytes} {events : List ε} {o : ω} {arrived : Bytes}
    (hkept : F.Kept lines initial capacity m) (hholds : Holds lines initial capacity)
    (hnone : F.ending (F.state m) = none)
    (hsession : F.machine.Session m pieces events o arrived m')
    (hrests : F.machine.Rests o m') :
    F.overflow? o = none ∧ F.stage (F.state m') = .finished := by
  obtain ⟨_, hrun⟩ := Session.run (fun _ => rfl) hsession
  have hfits := (flowControl hkept hholds hnone).fits hrun
  have hkept' := hrun.invariant hkept fun hk hcall => hk.call hcall.1
  have hend := ending_of_rests hrests
  refine ⟨?_, hkept'.settled.mpr (by rw [hend]; rfl)⟩
  simpa only [Fed.ofMachine, hend, Option.bind_some] using hfits

end Pump

/-! ### What precedes the reads -/

/-- No read before `line` is out: whatever precedes a read has sent exactly the line. -/
def LineFirst (line : Bytes) (log : List Entry) : Prop :=
  ∀ {before after room want result}, log = before ++ Entry.read room want result :: after →
    before.flatMap Entry.sent = line

/-- Calls that only read send nothing. -/
theorem sent_of_reading {log : List Entry} (h : ∀ entry ∈ log, entry.Reading) :
    log.flatMap Entry.sent = [] := by
  rw [flatMap_eq_nil_iff]
  intro entry hentry
  cases entry with
  | write => exact (h _ hentry).elim
  | _ => rfl

/-- Calls that write the line, then calls that only read. -/
theorem lineFirst_append {line : Bytes} {first later : List Entry}
    (hfirst : ∀ {room want result}, Entry.read room want result ∉ first)
    (hsent : later ≠ [] → first.flatMap Entry.sent = line)
    (hlater : ∀ entry ∈ later, entry.Reading) : LineFirst line (first ++ later) := by
  intro before after room want result hlog
  rcases append_eq_append_iff.mp hlog with ⟨a, rfl, hlater'⟩ | ⟨a, rfl, hread⟩
  · -- the read is one of the later calls
    have hne : later ≠ [] := by
      rw [hlater']
      exact append_ne_nil_of_right_ne_nil _ (cons_ne_nil _ _)
    have hnone : a.flatMap Entry.sent = [] := by
      apply sent_of_reading
      intro entry hentry
      apply hlater
      rw [hlater']
      exact mem_append_left _ hentry
    rw [flatMap_append, hnone, append_nil]
    exact hsent hne
  · cases a with
    | nil =>
      rw [nil_append] at hread
      have hne : later ≠ [] := hread ▸ cons_ne_nil _ _
      rw [append_nil] at hsent
      exact hsent hne
    | cons =>
      -- it is not one of those that write
      cases hread
      exact absurd (mem_append_right before (mem_cons_self ..)) hfirst

theorem reads_of_append {first later : List Entry}
    (hfirst : ∀ {room want result}, Entry.read room want result ∉ first)
    (hlater : ∀ entry ∈ later, entry.Reading) {room want : Nat} {result : Except SocketError Bytes}
    (h : Entry.read room want result ∈ first ++ later) : 1 ≤ want ∧ want ≤ room :=
  (mem_append.mp h).elim (fun hold => absurd hold hfirst) (hlater _)

/-! ### The probe driver -/

/-- The outcome of the probe, if a run ended with it. -/
def RunEnd.outcome? : RunEnd → Option ProbeEnd
  | .probe ending => some ending
  | _ => none

/-- Where nothing was read, nothing was read too early. -/
theorem lineFirst_of_unread {line : Bytes} {log : List Entry}
    (h : ∀ {room want result}, Entry.read room want result ∉ log) : LineFirst line log := by
  intro before after room want result hlog
  exact absurd (mem_iff_append.mpr ⟨_, _, hlog⟩) h

/-- Nothing is read while the line is written. -/
theorem Seam.Wrote.unread {σ : Type} {deadline : Nat} {data : Bytes}
    {r : Option (Except SocketError Unit)} {env : σ} {w : World σ}
    (h : Seam.Wrote deadline data r ⟨env, []⟩ w) : w.pieces = [] ∧
      (∀ {room want result}, Entry.read room want result ∉ w.log) ∧
      (r = some (.ok ()) → w.written = data) := by
  refine ⟨h.aside.pieces, fun hread => ?_, fun hok => ?_⟩
  · cases h.aside.reads hread
  · obtain ⟨_, hrest, hall⟩ := h.sent
    rw [hall hok, append_nil] at hrest
    exact hrest

/-- Every round of a write that has not ended is spent on calls. -/
theorem Seam.writeAllBy_spends {σ : Type} {m : Seam σ} {deadline fuel : Nat} {data : Bytes}
    {w w' : World σ} (h : m.writeAllBy deadline fuel data w = (none, w')) :
    w.log.length + fuel ≤ w'.log.length := by
  fun_induction writeAllBy m deadline fuel data w with
  | case1 =>
    cases h
    exact Nat.le_refl _
  | case6 _ _ _ _ _ _ hremaining _ htimeout _ _ hwrite ih
  | case7 _ _ _ _ _ _ hremaining _ htimeout _ _ hwrite _ ih =>
    obtain ⟨_, _, rfl, -⟩ := remainingUntil_eq hremaining
    obtain ⟨_, rfl⟩ := doSetWriteTimeout_cases htimeout
    obtain ⟨_, rfl, -⟩ := doWrite_cases hwrite
    have hrest := ih h
    simp only [World.log_enter, length_append, length_singleton] at hrest
    omega
  | _ => cases h

namespace Probe

/-- What the probe driver reports of a run. -/
structure Reported {σ : Type} (p : Probe) (deadline fuel : Nat) (r : Drive RunEnd) (p' : Probe)
    (events : List ProbeEvent) (w : World σ) : Prop where
  /-- The events and the outcome are those of the probe on the received bytes. -/
  saw : Saw machine p w.pieces events (r.map RunEnd.outcome?) p'
  /-- An end without an outcome has a cause, the last call: the deadline had passed or the call
  failed. The stage of the probe is reported with it. -/
  cause : ∀ ending, r = .returned ending → ending.outcome? = none → ∃ e, FailedBy deadline w e ∧
    (ending = p'.timedOut ∧ e.isTimeout = true ∨ ending = .io p'.state.stage e)
  /-- A run that has not ended used up its fuel. -/
  running : r = .running → fuel ≤ events.length + w.log.length
  /-- Nothing is read before the identification is out. -/
  first : LineFirst p.clientLine w.log
  /-- A read asks for something, and for no more than there is room for. -/
  reads : ∀ {room want result}, Entry.read room want result ∈ w.log → 1 ≤ want ∧ want ≤ room
  /-- The input never overflows. -/
  fits : ∀ ending, r = .returned (.probe ending) → ending.overflow? = none

section Drive

variable {σ : Type} {m : Seam σ} {deadline chunk fuel : Nat} {p p' : Probe} {r : Drive RunEnd}
  {halt : Halt ProbeEnd} {config : ProbeConfig} {events : List ProbeEvent} {env : σ} {w : World σ}

/-- The outcome that the driver returns is that of the machine. -/
theorem EndsAs.result (h : EndsAs p halt r) : r.map RunEnd.outcome? = halt.result := by
  cases halt with
  | shutdown => exact h.elim
  | failed e =>
    rw [EndsAs] at h
    rw [h]
    cases e.isTimeout <;> rfl
  | _ =>
    rw [EndsAs] at h
    rw [h]
    rfl

/-- A driver that is still running was not stopped. -/
theorem EndsAs.running (h : EndsAs p halt r) (hr : r = .running) : halt = .running := by
  cases halt with
  | running => rfl
  | shutdown => exact h.elim
  | _ => cases h.symm.trans hr

/-- An end without an outcome has a cause. -/
theorem EndsAs.cause {ending : RunEnd} (h : EndsAs p halt (.returned ending))
    (hnone : ending.outcome? = none) : ∃ e, halt.error? = some e ∧
      (ending = p.timedOut ∧ e.isTimeout = true ∨ ending = .io p.state.stage e) := by
  cases halt with
  | late =>
    cases h
    exact ⟨_, rfl, .inl ⟨rfl, rfl⟩⟩
  | refused =>
    cases h
    exact ⟨_, rfl, .inr rfl⟩
  | failed e =>
    cases h
    refine ⟨e, rfl, ?_⟩
    cases he : e.isTimeout with
    | true => exact .inl ⟨rfl, rfl⟩
    | false => exact .inr rfl
  | shutdown => exact h.elim
  | _ => cases h <;> cases hnone

/-- **The probe driver reports what the probe saw.** -/
theorem drive_reported (h : new config = .ok (.ok p))
    (hdrive : drive m deadline chunk fuel p ⟨env, []⟩ = (r, p', events, w)) :
    Reported p deadline fuel r p' events w := by
  obtain ⟨_, hcapacity, hkept, -, hstate⟩ := made h
  rw [drive] at hdrive
  split at hdrive
  · rename_i w₁ hwrite
    cases hdrive
    obtain ⟨hpieces, hunread, -⟩ := (writeAllBy_spec hwrite).unread
    have hspent := writeAllBy_spends hwrite
    refine ⟨?_, ?_, fun _ => by simpa using hspent, lineFirst_of_unread hunread,
      fun hread => absurd hread hunread, ?_⟩
    · rw [hpieces]
      exact .start
    · rintro _ ⟨⟩
    · rintro _ ⟨⟩
  · rename_i w₁ hwrite
    obtain ⟨hpieces, hunread, hwritten⟩ := (writeAllBy_spec hwrite).unread
    obtain ⟨halt, new, later, hpumped, hends, hevents, hlog, hfuel⟩ := driveLoop_pumped hdrive
    obtain rfl : events = new := hevents
    obtain ⟨hsaw, hreading⟩ := hpumped.saw (machine_implements hcapacity) hkept (by omega)
    have hall : w.pieces = later.flatMap Entry.piece := by
      rw [World.pieces] at hpieces
      rw [World.pieces, hlog, flatMap_append, hpieces, nil_append]
    rw [← hall, ← hends.result] at hsaw
    refine ⟨hsaw, ?_, ?_, ?_, ?_, ?_⟩
    · rintro ending rfl hnone
      obtain ⟨e, he, hending⟩ := hends.cause hnone
      exact ⟨e, hpumped.failedBy he hlog, hending⟩
    · rintro rfl
      have hspent := hfuel (hends.running rfl)
      rw [hlog, length_append]
      omega
    · rw [hlog]
      exact lineFirst_append hunread (fun _ => hwritten rfl) hreading
    · rw [hlog]
      exact reads_of_append hunread hreading
    · rintro ending rfl
      rw [machine_eq] at hsaw
      exact (Front.session_fits hkept (holds hcapacity) (congrArg _ hstate) hsaw.1 hsaw.2).1
  · rename_i e w₁ hwrite
    cases hdrive
    have hwrote := writeAllBy_spec hwrite
    obtain ⟨hpieces, hunread, -⟩ := hwrote.unread
    have hends : EndsAs p (.failed e) _ := rfl
    refine ⟨?_, ?_, ?_, lineFirst_of_unread hunread, fun hread => absurd hread hunread, ?_⟩
    · rw [hends.result, hpieces]
      exact ⟨.start, .inr ⟨rfl, rfl⟩⟩
    · intro ending hr hnone
      obtain ⟨_, he, hending⟩ := EndsAs.cause (hr ▸ hends) hnone
      cases he
      exact ⟨e, hwrote.failed e rfl, hending⟩
    · rintro ⟨⟩
    · intro ending hr
      have hresult := hends.result
      rw [hr] at hresult
      cases hresult

end Drive

end Probe

/-! ### The listener driver -/

/-- The outcome of the observer, if an observation ended with it. -/
def ObservationEnd.outcome? : ObservationEnd → Option ObservationOutcome
  | .observer outcome => some outcome
  | _ => none

namespace Observer

/-- What the listener driver reports of a connection. -/
structure Reported {σ : Type} (o : Observer) (stop : σ → Bool × σ) (deadline fuel : Nat)
    (r : Drive ObservationEnd) (o' : Observer) (obs : Observation) (w : World σ) : Prop where
  /-- The record and the outcome are those of the observer on the received bytes. A driver that has
  not ended used up its fuel. -/
  saw : ∃ events, Saw machine o w.pieces events (r.map ObservationEnd.outcome?) o' ∧
    obs.clientIdentification = (events.filterMap ObserverEvent.identification?).getLast? ∧
    obs.messages = events.filterMap ObserverEvent.message? ∧
    (r = .running → fuel ≤ events.length + w.log.length)
  /-- An end without an outcome has a cause: the driver was told to stop, or in its last call the
  deadline had passed or the call failed. -/
  cause : ∀ ending, r = .returned ending → ending.outcome? = none →
    ending = .shutdown ∧ (∃ env, stop env = (true, w.env)) ∨ ∃ e, FailedBy deadline w e ∧
      (ending = .timedOut ∧ e.kind = .timedOut ∨ ending = .io e)
  /-- The record has the proposal of the outcome, and only that. -/
  proposal : ∀ ending, r = .returned ending →
    obs.proposal = ending.outcome?.bind ObservationOutcome.proposal?
  bytesRead : obs.bytesRead = w.pieces.flatten.length
  /-- The stage is that of the observer. -/
  stage : ∀ ending, r = .returned ending → obs.stage = o'.state.stage
  /-- Nothing is read before the identification is out. -/
  first : LineFirst o.serverLine w.log
  /-- A read asks for something, and for no more than there is room for. -/
  reads : ∀ {room want result}, Entry.read room want result ∈ w.log → 1 ≤ want ∧ want ≤ room
  /-- The input never overflows. -/
  fits : ∀ outcome, r = .returned (.observer outcome) → outcome.overflow? = none

section Drive

variable {σ : Type} {m : Seam σ} {stop : σ → Bool × σ} {deadline fuel id : Nat}
  {listener : ListenerConfig} {config : ObserverConfig} {o o' : Observer} {obs : Observation}
  {r : Drive ObservationEnd} {env : σ} {w : World σ}

/-- The outcome that the driver returns is that of the machine. -/
theorem driveEnd_result (halt : Halt ObservationOutcome) :
    (driveEnd halt).map ObservationEnd.outcome? = halt.result := by
  cases halt <;> rfl

/-- A driver that is still running was not stopped. -/
theorem driveEnd_running {halt : Halt ObservationOutcome} (h : driveEnd halt = .running) :
    halt = .running := by
  cases halt with
  | running => rfl
  | _ => cases h

/-- An end without an outcome has a cause. -/
theorem driveEnd_cause {halt : Halt ObservationOutcome} {ending : ObservationEnd}
    (h : driveEnd halt = .returned ending) (hnone : ending.outcome? = none) :
    ending = .shutdown ∧ halt = .shutdown ∨ ∃ e, halt.error? = some e ∧
      (ending = .timedOut ∧ e.kind = .timedOut ∨ ending = .io e) := by
  cases halt with
  | shutdown =>
    cases h
    exact .inl ⟨rfl, rfl⟩
  | late =>
    cases h
    exact .inr ⟨_, rfl, .inl ⟨rfl, rfl⟩⟩
  | refused | failed =>
    cases h
    exact .inr ⟨_, rfl, .inr rfl⟩
  | _ => cases h <;> cases hnone

/-- The stage of an observer that is finished. -/
theorem finished_of_front {stage : ObserverStage} (h : stage.front = .finished) :
    stage = .finished := by
  cases stage with
  | finished => rfl
  | _ => cases h

/-- What the record says of the proposal and the stage of an observer that is done. -/
theorem Closes.report {new : List ObserverEvent} {later : List Entry} {obs₀ : Observation}
    {halt : Halt ObservationOutcome} {capacity : Nat}
    (hcapacity : config.bufferCapacity = .ok capacity)
    (hkept : front.Kept config.identLimits config.initial capacity o)
    (hpumped : Pumped machine deadline listener.readChunk o halt new later o')
    (hproposal : obs₀.proposal = none) (hcloses : Closes o' obs₀ obs halt)
    (hstage : ∀ outcome, halt.result = .returned (some outcome) →
      o'.state.stage.front = .finished)
    {ending : ObservationEnd} (hr : driveEnd halt = .returned ending) :
    obs.proposal = ending.outcome?.bind ObservationOutcome.proposal? ∧
      obs.stage = o'.state.stage := by
  cases halt with
  | running => cases hr
  | panicked => cases hr
  | finished outcome =>
    cases hr
    refine ⟨?_, hcloses.1.trans (finished_of_front (hstage outcome rfl)).symm⟩
    rw [hcloses.2, hproposal]
    cases outcome <;> rfl
  | ended outcome =>
    cases hr
    refine ⟨?_, hcloses.1.trans (finished_of_front (hstage outcome rfl)).symm⟩
    obtain ⟨s, _, rfl⟩ := hpumped.ended_eq (machine_implements hcapacity) hkept
    rw [hcloses.2, hproposal]
    rfl
  | _ =>
    cases hr
    exact ⟨hcloses.2.trans hproposal, hcloses.1⟩

/-- **The listener driver reports what the observer saw.** -/
theorem drive_reported (h : new config = .ok (.ok o)) (hchunk : 1 ≤ listener.readChunk)
    (hdrive : drive m stop deadline listener fuel o { id } ⟨env, []⟩ = (r, o', obs, w)) :
    Reported o stop deadline fuel r o' obs w := by
  obtain ⟨_, hcapacity, hkept, -, hstate⟩ := made h
  rw [drive] at hdrive
  split at hdrive
  · rename_i w₁ hwrite
    cases hdrive
    obtain ⟨hpieces, hunread, -⟩ := (writeAllBy_spec hwrite).unread
    have hspent := writeAllBy_spends hwrite
    refine ⟨⟨[], ?_, rfl, rfl, fun _ => by simpa using hspent⟩, ?_, ?_, ?_, ?_,
      lineFirst_of_unread hunread, fun hread => absurd hread hunread, ?_⟩
    · rw [hpieces]
      exact .start
    · rintro _ ⟨⟩
    · rintro _ ⟨⟩
    · rw [hpieces]
      rfl
    · rintro _ ⟨⟩
    · rintro _ ⟨⟩
  · rename_i w₁ hwrite
    obtain ⟨hpieces, hunread, hwritten⟩ := (writeAllBy_spec hwrite).unread
    obtain ⟨halt, new, later, hpumped, rfl, hrec, hcloses, hlog, hfuel, hstop⟩ :=
      driveLoop_pumped hdrive
    obtain ⟨hsaw, hreading⟩ := hpumped.saw (machine_implements hcapacity) hkept hchunk
    have hall : w.pieces = later.flatMap Entry.piece := by
      rw [World.pieces] at hpieces
      rw [World.pieces, hlog, flatMap_append, hpieces, nil_append]
    rw [← hall] at hsaw
    have hdone (outcome : ObservationOutcome) (hr : halt.result = .returned (some outcome)) :
        outcome.overflow? = none ∧ o'.state.stage.front = .finished := by
      rw [hr, machine_eq] at hsaw
      exact Front.session_fits hkept (holds hcapacity) (congrArg _ hstate) hsaw.1 hsaw.2
    have hends {ending : ObservationEnd} (hr : driveEnd halt = .returned ending) :=
      hcloses.report hcapacity hkept hpumped rfl (fun outcome hr => (hdone outcome hr).2) hr
    refine ⟨⟨new, ?_, ?_, hrec.messages, fun hr => ?_⟩, fun ending hr hnone => ?_,
      fun ending hr => (hends hr).1, ?_, fun ending hr => (hends hr).2, ?_, ?_, ?_⟩
    · rwa [driveEnd_result]
    · rw [hrec.clientIdentification, Option.or_none]
    · have hspent := hfuel (driveEnd_running hr)
      rw [hlog, length_append]
      omega
    · refine (driveEnd_cause hr hnone).imp (fun hshut => ⟨hshut.1, hstop hshut.2⟩) ?_
      rintro ⟨e, he, hending⟩
      exact ⟨e, hpumped.failedBy he hlog, hending⟩
    · rw [hrec.bytesRead, hall, Nat.zero_add]
    · rw [hlog]
      exact lineFirst_append hunread (fun _ => hwritten rfl) hreading
    · rw [hlog]
      exact reads_of_append hunread hreading
    · intro outcome hr
      have hresult := driveEnd_result halt
      rw [hr] at hresult
      exact (hdone outcome hresult.symm).1
  · rename_i e w₁ hwrite
    cases hdrive
    have hwrote := writeAllBy_spec hwrite
    obtain ⟨hpieces, hunread, -⟩ := hwrote.unread
    have hnone :
        ObservationEnd.outcome? (if e.kind = .timedOut then .timedOut else .io e) = none := by
      split <;> rfl
    refine ⟨⟨[], ?_, rfl, rfl, by simp⟩, fun ending hr _ => ?_, fun ending hr => ?_, ?_,
      fun ending hr => by rw [hstate], lineFirst_of_unread hunread,
      fun hread => absurd hread hunread, fun outcome hr => ?_⟩
    · rw [Drive.map, hnone, hpieces]
      exact ⟨.start, .inr ⟨rfl, rfl⟩⟩
    · refine .inr ⟨e, hwrote.failed e rfl, ?_⟩
      cases hr
      split
      · exact .inl ⟨rfl, by assumption⟩
      · exact .inr rfl
    · cases hr
      rw [hnone]
      rfl
    · rw [hpieces]
      rfl
    · cases (congrArg ObservationEnd.outcome? (Drive.returned.inj hr)).symm.trans hnone

end Drive

end Observer

/-! ### Both drivers -/

/-- **The drivers report exactly what the machines saw**, on any socket, with any clock, deadline,
configuration and stop flag; the listener's buffer for reads must not be empty. -/
theorem drivers_report_what_was_seen {σ : Type} (m : Seam σ) (deadline : Nat) :
    (∀ {config : ProbeConfig} {p : Probe}, Probe.new config = .ok (.ok p) →
      ∀ (chunk fuel : Nat) (env : σ) {r p' events w},
        Probe.drive m deadline chunk fuel p ⟨env, []⟩ = (r, p', events, w) →
          p.Reported deadline fuel r p' events w) ∧
    (∀ {config : ObserverConfig} {o : Observer}, Observer.new config = .ok (.ok o) →
      ∀ (stop : σ → Bool × σ) {listener : ListenerConfig}, 1 ≤ listener.readChunk →
        ∀ (fuel id : Nat) (env : σ) {r o' obs w},
          Observer.drive m stop deadline listener fuel o { id } ⟨env, []⟩ = (r, o', obs, w) →
            o.Reported stop deadline fuel r o' obs w) := by
  constructor
  · intro config p hnew chunk fuel env r p' events w hdrive
    exact Probe.drive_reported hnew hdrive
  · intro config o hnew stop listener hchunk fuel id env r o' obs w hdrive
    exact Observer.drive_reported hnew hchunk hdrive

/-- A probe on the server's hello and an observer on the client's, over a socket with short writes:
each ends with the proposal. -/
theorem drivers_report_what_was_seen_reference :
    (∃ p p' events w, Probe.new .default = .ok (.ok p) ∧
      Probe.drive socket 1 64 20 p ⟨serverHello, []⟩ =
        (.returned (.probe (.proposal (serverProposal 0))), p', events, w) ∧
      p.Reported 1 20 (.returned (.probe (.proposal (serverProposal 0)))) p' events w) ∧
    ∃ o o' obs w, Observer.new .default = .ok (.ok o) ∧
      o.drive socket (fun s => (false, s)) 1 { readChunk := 64 } 20 { id := 1 }
        ⟨client.takeOutput.1, []⟩ = (.returned (.observer (.proposal
          ⟨client.setup.clientKexinit, client.setup.iC, [], 0⟩)), o', obs, w) ∧
      o.Reported (fun s => (false, s)) 1 20 (.returned (.observer (.proposal
        ⟨client.setup.clientKexinit, client.setup.iC, [], 0⟩))) o' obs w := by
  have hprobe : ∃ p, Probe.new .default = .ok (.ok p) ∧
      (Probe.drive socket 1 64 20 p ⟨serverHello, []⟩).1 =
        .returned (.probe (.proposal (serverProposal 0))) := ⟨_, rfl, by decide +kernel⟩
  have hobserver : ∃ o, Observer.new .default = .ok (.ok o) ∧
      (o.drive socket (fun s => (false, s)) 1 { readChunk := 64 } 20 { id := 1 }
        ⟨client.takeOutput.1, []⟩).1 = .returned (.observer (.proposal
          ⟨client.setup.clientKexinit, client.setup.iC, [], 0⟩)) :=
    ⟨_, rfl, by decide +kernel⟩
  obtain ⟨p, hp, hends⟩ := hprobe
  obtain ⟨o, ho, hobserves⟩ := hobserver
  constructor
  · refine ⟨p, _, _, _, hp, Prod.ext hends rfl, ?_⟩
    exact (drivers_report_what_was_seen _ 1).1 hp 64 20 _ (Prod.ext hends rfl)
  · refine ⟨o, _, _, _, ho, Prod.ext hobserves rfl, ?_⟩
    exact (drivers_report_what_was_seen _ 1).2 ho _ (by decide) 20 1 _ (Prod.ext hobserves rfl)

/-! ### The count of written bytes -/

section Written

variable {μ ε ω : Type} {A : Machine μ UInt8 ε ω} {deadline chunk : Nat} {m m' : μ}

/-- A round that goes on adds nothing to the bytes the socket has accepted: it steps, feeds and
reads. -/
theorem Pumps.unsent {round : Round ε} (h : Pumps A deadline chunk m round m') :
    round.entries.flatMap Entry.sent = [] := by
  cases h <;> rfl

/-- The round a driver ends with adds nothing to the bytes the socket has accepted. -/
theorem Halts.unsent {halt : Halt ω} {log : List Entry} (h : Halts A deadline chunk m halt log m') :
    log.flatMap Entry.sent = [] := by
  cases h <;> rfl

/-- A driver that pumps its machine sends nothing. -/
theorem Pumped.unsent {halt : Halt ω} {events : List ε} {log : List Entry}
    (h : Pumped A deadline chunk m halt events log m') : log.flatMap Entry.sent = [] := by
  obtain ⟨rounds, _, _, hrun, hhalts, -, rfl⟩ := h
  rw [flatMap_append, hhalts.unsent, append_nil]
  refine hrun.history (I := fun rounds _ => (rounds.flatMap Round.entries).flatMap Entry.sent = [])
    rfl ?_
  intro rounds m₂ round m₃ hrounds hround
  rw [flatMap_append, flatMap_append, hrounds, flatMap_singleton, hround.unsent]
  rfl

end Written

namespace Seam

open Relation (ReflTransGen)

variable {σ : Type} (m : Seam σ) (deadline : Nat)

/-- The clock and the socket answer an offer of `data`: the deadline has not passed, the timeout is
set, and the write returns `r`. -/
def Answers (data : Bytes) (env : σ) (r : Except SocketError Nat) (env' : σ) : Prop :=
  ∃ instant env₁ env₂, m.now env = (instant, env₁) ∧ instant < deadline ∧
    m.setWriteTimeout (deadline - instant) env₁ = (.ok (), env₂) ∧ m.write data env₂ = (r, env')

/-- An offer that is followed by another: some of the data was taken, or the write was
interrupted. -/
inductive Goes : Bytes × σ → Bytes × σ → Prop where
  | took {data : Bytes} {env env' : σ} {n : Nat} : data ≠ [] →
      m.Answers deadline data env (.ok (n + 1)) env' → Goes (data, env) (data.drop (n + 1), env')
  | interrupted {data : Bytes} {env env' : σ} {e : SocketError} : data ≠ [] →
      m.Answers deadline data env (.error e) env' → e.kind = .interrupted →
      Goes (data, env) (data, env')

/-- An offer that fails: the deadline has passed, the timeout cannot be set, the write takes nothing
or fails, or with nothing left to offer the flush fails. -/
inductive Stops : Bytes × σ → Prop where
  | late {data : Bytes} {env : σ} : data ≠ [] → deadline ≤ (m.now env).1 → Stops (data, env)
  | timeout {data : Bytes} {env env₁ : σ} {instant : Nat} {e : SocketError} : data ≠ [] →
      m.now env = (instant, env₁) → (m.setWriteTimeout (deadline - instant) env₁).1 = .error e →
      Stops (data, env)
  | zero {data : Bytes} {env env' : σ} : data ≠ [] → m.Answers deadline data env (.ok 0) env' →
      Stops (data, env)
  | failed {data : Bytes} {env env' : σ} {e : SocketError} : data ≠ [] →
      m.Answers deadline data env (.error e) env' → e.kind ≠ .interrupted → Stops (data, env)
  | unflushed {env : σ} {e : SocketError} : (m.flush env).1 = .error e → Stops ([], env)

/-- The answers to the offers of `data` come to one that fails, with `left` still to be taken. -/
def StopsAt (data : Bytes) (env : σ) (left : Bytes) : Prop :=
  ∃ env', ReflTransGen (m.Goes deadline) (data, env) (left, env') ∧ m.Stops deadline (left, env')

variable {m deadline} {data left : Bytes} {env env' env'' : σ} {r r' : Except SocketError Nat}

theorem Answers.unique (h : m.Answers deadline data env r env')
    (h' : m.Answers deadline data env r' env'') : r = r' ∧ env' = env'' := by
  obtain ⟨_, _, _, hnow, -, htimeout, hwrite⟩ := h
  obtain ⟨_, _, _, hnow', -, htimeout', hwrite'⟩ := h'
  cases hnow.symm.trans hnow'
  cases htimeout.symm.trans htimeout'
  cases hwrite.symm.trans hwrite'
  exact ⟨rfl, rfl⟩

theorem Goes.unique {x y z : Bytes × σ} (h : m.Goes deadline x y) (h' : m.Goes deadline x z) :
    y = z := by
  cases h with
  | took _ h =>
    cases h' with
    | took _ h' =>
      obtain ⟨⟨⟩, rfl⟩ := h.unique h'
      rfl
    | interrupted _ h' => cases (h.unique h').1
  | interrupted _ h =>
    cases h' with
    | took _ h' => cases (h.unique h').1
    | interrupted _ h' =>
      obtain ⟨-, rfl⟩ := h.unique h'
      rfl

/-- An offer that fails is not followed by another. -/
theorem Stops.not_goes {x y : Bytes × σ} (h : m.Stops deadline x) : ¬m.Goes deadline x y := by
  intro hgoes
  have hanswers : x.1 ≠ [] ∧ ∃ r env', m.Answers deadline x.1 x.2 r env' ∧ r ≠ .ok 0 ∧
      ∀ e, r = .error e → e.kind = .interrupted := by
    cases hgoes with
    | took hdata hanswers => exact ⟨hdata, _, _, hanswers, nofun, nofun⟩
    | interrupted hdata hanswers he =>
      refine ⟨hdata, _, _, hanswers, nofun, fun e heq => ?_⟩
      cases heq
      exact he
  obtain ⟨hdata, r, env', hanswers, hzero, herror⟩ := hanswers
  cases h with
  | late _ hlate =>
    obtain ⟨_, _, _, hnow, hlt, -⟩ := hanswers
    rw [hnow] at hlate
    exact Nat.not_le.mpr hlt hlate
  | timeout _ hnow herr =>
    obtain ⟨_, _, _, hnow', -, htimeout, -⟩ := hanswers
    cases hnow.symm.trans hnow'
    cases (congrArg Prod.fst htimeout).symm.trans herr
  | zero _ h => exact hzero (hanswers.unique h).1
  | failed _ h hkind => exact hkind (herror _ (hanswers.unique h).1)
  | unflushed => exact hdata rfl

/-- What follows an offer decides where it comes to. -/
theorem Goes.stopsAt_iff {rest : Bytes} (h : m.Goes deadline (data, env) (rest, env')) :
    m.StopsAt deadline data env left ↔ m.StopsAt deadline rest env' left := by
  constructor
  · rintro ⟨env'', hreach, hstops⟩
    rcases ReflTransGen.cases_head hreach with heq | ⟨y, hfirst, hrest⟩
    · rw [heq] at h
      exact absurd h hstops.not_goes
    · rw [← h.unique hfirst] at hrest
      exact ⟨env'', hrest, hstops⟩
  · rintro ⟨env'', hreach, hstops⟩
    exact ⟨env'', hreach.head h, hstops⟩

/-- An offer that fails leaves all of its data. -/
theorem Stops.stopsAt_iff (h : m.Stops deadline (data, env)) :
    m.StopsAt deadline data env left ↔ left = data := by
  constructor
  · rintro ⟨env', hreach, -⟩
    rcases ReflTransGen.cases_head hreach with heq | ⟨y, hfirst, -⟩
    · exact (congrArg Prod.fst heq).symm
    · exact absurd hfirst h.not_goes
  · rintro rfl
    exact ⟨env, .refl, h⟩

variable {w w' w₁ w₂ w₃ : World σ} {remaining : Nat}

theorem now_of_remainingUntil {r : Option Nat} (h : m.remainingUntil deadline w = (r, w₁)) :
    m.now w.env = ((m.now w.env).1, w₁.env) ∧ w₁.written = w.written ∧
      (r = none → deadline ≤ (m.now w.env).1) ∧
      ∀ remaining, r = some remaining → (m.now w.env).1 < deadline ∧
        remaining = deadline - (m.now w.env).1 := by
  cases h
  refine ⟨rfl, by simp [Entry.sent], fun hnone => ?_, fun remaining hsome => ?_⟩
  · by_contra hle
    rw [if_neg hle] at hnone
    cases hnone
  · split at hsome
    · cases hsome
    · next hle =>
      cases hsome
      exact ⟨Nat.not_le.mp hle, rfl⟩

theorem answers_of_calls (hremaining : m.remainingUntil deadline w = (some remaining, w₁))
    (htimeout : m.doSetWriteTimeout remaining w₁ = (.ok (), w₂))
    (hwrite : m.doWrite data w₂ = (r, w₃)) :
    m.Answers deadline data w.env r w₃.env ∧
      w₃.written = w.written ++ Entry.sent (.write data r) := by
  obtain ⟨hnow, hwritten, -, hsome⟩ := now_of_remainingUntil hremaining
  obtain ⟨hlt, rfl⟩ := hsome remaining rfl
  obtain ⟨hok, rfl⟩ := Prod.mk.inj htimeout
  obtain ⟨rfl, rfl⟩ := Prod.mk.inj hwrite
  refine ⟨⟨_, _, _, hnow, hlt, Prod.ext hok rfl, rfl⟩, ?_⟩
  simp [Entry.sent, hwritten]

/-- **Where `write_all_by` comes to**: it fails exactly if the answers stop it, and what was then
still to be taken was not sent. -/
theorem writeAllBy_stopsAt_iff {fuel : Nat} {r : Except SocketError Unit}
    (h : m.writeAllBy deadline fuel data w = (some r, w')) :
    m.StopsAt deadline data w.env left ↔ r ≠ .ok () ∧ w'.written ++ left = w.written ++ data := by
  -- an offer that fails sends nothing
  have hfails {data : Bytes} {w : World σ} {e : SocketError}
      (hstops : m.Stops deadline (data, w.env))
      (hr : r = .error e) (hsent : w'.written = w.written) : m.StopsAt deadline data w.env left ↔
        r ≠ .ok () ∧ w'.written ++ left = w.written ++ data := by
    rw [hstops.stopsAt_iff, hr, hsent, append_cancel_left_eq]
    simp
  fun_induction writeAllBy m deadline fuel data w with
  | case1 => cases h
  | case2 fuel w result w₁ hflush =>
    cases h
    obtain ⟨hr, rfl⟩ := Prod.mk.inj hflush
    cases r with
    | error e => exact hfails (.unflushed hr) rfl (by simp [Entry.sent])
    | ok =>
      -- a flush that succeeds is the end
      refine iff_of_false ?_ fun h => h.1 rfl
      rintro ⟨env', hreach, hstops⟩
      rcases ReflTransGen.cases_head hreach with heq | ⟨y, hfirst, -⟩
      · obtain ⟨rfl, rfl⟩ := Prod.mk.inj heq
        cases hstops with
        | unflushed herr => cases hr.symm.trans herr
        | _ hdata => exact hdata rfl
      · cases hfirst with
        | _ hdata => exact hdata rfl
  | case3 fuel data w hdata w₁ hremaining =>
    cases h
    obtain ⟨-, hwritten, hnone, -⟩ := now_of_remainingUntil hremaining
    exact hfails (.late hdata (hnone rfl)) rfl hwritten
  | case4 fuel data w hdata remaining w₁ hremaining e w₂ htimeout =>
    cases h
    obtain ⟨hnow, hwritten, -, hsome⟩ := now_of_remainingUntil hremaining
    obtain ⟨-, rfl⟩ := hsome remaining rfl
    obtain ⟨herr, rfl⟩ := Prod.mk.inj htimeout
    exact hfails (.timeout hdata hnow herr) rfl (by simp [Entry.sent, hwritten])
  | case5 fuel data w hdata remaining w₁ hremaining w₂ htimeout w₃ hwrite =>
    cases h
    obtain ⟨hanswers, hsent⟩ := answers_of_calls hremaining htimeout hwrite
    exact hfails (.zero hdata hanswers) rfl (by simpa [Entry.sent] using hsent)
  | case6 fuel data w hdata remaining w₁ hremaining w₂ htimeout n w₃ hwrite ih =>
    obtain ⟨hanswers, hsent⟩ := answers_of_calls hremaining htimeout hwrite
    refine (Goes.took hdata hanswers).stopsAt_iff.trans ((ih h).trans ?_)
    rw [hsent]
    simp [Entry.sent]
  | case7 fuel data w hdata remaining w₁ hremaining w₂ htimeout e w₃ hwrite he ih =>
    obtain ⟨hanswers, hsent⟩ := answers_of_calls hremaining htimeout hwrite
    refine (Goes.interrupted hdata hanswers he).stopsAt_iff.trans ((ih h).trans ?_)
    rw [hsent]
    simp [Entry.sent]
  | case8 fuel data w hdata remaining w₁ hremaining w₂ htimeout e w₃ hwrite he
  | case9 fuel data w hdata remaining w₁ hremaining w₂ htimeout e w₃ hwrite he =>
    cases h
    obtain ⟨hanswers, hsent⟩ := answers_of_calls hremaining htimeout hwrite
    exact hfails (.failed hdata hanswers he) rfl (by simpa [Entry.sent] using hsent)

end Seam

/-- **The written bytes are counted exactly if the banner is stopped before its first byte or not at
all.** In every run of the driver that has come to its end: the count is right unless the answers of
the socket and the clock stop the banner after a part of it was taken, or all of it but for the
flush. -/
theorem bytesWritten_eq_iff {σ : Type} {m : Seam σ} {stop : σ → Bool × σ} {deadline : Nat}
    {config : ListenerConfig} {fuel : Nat} {o o' : Observer} {id : Nat} {env : σ}
    {r : Drive ObservationEnd} {obs : Observation} {w : World σ}
    (hdrive : o.drive m stop deadline config fuel { id } ⟨env, []⟩ = (r, o', obs, w))
    (hended : r ≠ .running) :
    obs.bytesWritten = w.written.length ↔
      ∀ left, m.StopsAt deadline o.serverLine env left → left = o.serverLine := by
  rw [Observer.drive] at hdrive
  split at hdrive
  · cases hdrive
    exact absurd rfl hended
  · rename_i w₁ hwrite
    have hstops {left : Bytes} (h : m.StopsAt deadline o.serverLine env left) :=
      (writeAllBy_stopsAt_iff hwrite).mp h
    obtain ⟨-, -, hall⟩ := (writeAllBy_spec hwrite).unread
    obtain ⟨halt, _, _, hpumped, -, hrec, -, hlog, -⟩ := Observer.driveLoop_pumped hdrive
    -- all of it was taken, and nothing else is written
    refine iff_of_true (hrec.bytesWritten.trans ?_) fun left h => absurd rfl (hstops h).1
    rw [World.written, hlog, flatMap_append, hpumped.unsent, append_nil]
    change 0 + o.serverLine.length = w₁.written.length
    rw [hall rfl, Nat.zero_add]
  · rename_i e w₁ hwrite
    cases hdrive
    have hstops (left : Bytes) : m.StopsAt deadline o.serverLine env left ↔ _ :=
      writeAllBy_stopsAt_iff hwrite
    obtain ⟨rest, hrest, -⟩ := (writeAllBy_spec hwrite).sent
    -- the count is that of a new record, and what was taken is what is not left
    change w.written ++ rest = o.serverLine at hrest
    have hzero : ({ id } : Observation).bytesWritten = w.written.length ↔ w.written = [] := by
      rw [eq_comm, length_eq_zero_iff]
    rw [hzero]
    constructor
    · intro hnil left h
      have hleft : w.written ++ left = o.serverLine := ((hstops left).mp h).2
      rwa [hnil, nil_append] at hleft
    · intro hwhole
      have hleft := hwhole rest ((hstops rest).mpr ⟨by simp, hrest⟩)
      rw [hleft] at hrest
      exact append_left_eq_self.mp hrest

/-- On a socket that takes the whole banner, a hundred bytes at a time, nothing stops it and it is
counted. -/
theorem bytesWritten_eq_iff_reference :
    ∃ o r o' obs w, Observer.new .default = .ok (.ok o) ∧
      o.drive socket (fun s => (false, s)) 1 {} 20 { id := 1 } ⟨[], []⟩ =
        (r, o', obs, w) ∧ r ≠ .running ∧ 0 < w.written.length ∧
      obs.bytesWritten = w.written.length ∧
      ∀ left, socket.StopsAt 1 o.serverLine [] left → left = o.serverLine := by
  have hrun : ∃ o, Observer.new .default = .ok (.ok o) ∧
      (o.drive socket (fun s => (false, s)) 1 {} 20 { id := 1 } ⟨[], []⟩).1 ≠ .running ∧
      0 < (o.drive socket (fun s => (false, s)) 1 {} 20 { id := 1 }
        ⟨[], []⟩).2.2.2.written.length ∧
      (o.drive socket (fun s => (false, s)) 1 {} 20 { id := 1 }
        ⟨[], []⟩).2.2.1.bytesWritten = (o.drive socket (fun s => (false, s)) 1 {} 20
          { id := 1 } ⟨[], []⟩).2.2.2.written.length :=
    ⟨_, rfl, by decide +kernel, by decide +kernel, by decide +kernel⟩
  obtain ⟨o, ho, hended, hpos, hcount⟩ := hrun
  exact ⟨o, _, _, _, _, ho, rfl, hended, hpos, hcount, (bytesWritten_eq_iff rfl hended).mp hcount⟩

/-- A socket that takes one byte in each tick of the clock. -/
def byteAtATime : Seam Nat where
  now clock := (clock, clock)
  read _ clock := (.ok [], clock)
  write data clock := (.ok (min 1 data.length), clock + 1)
  flush clock := (.ok (), clock)
  setReadTimeout _ clock := (.ok (), clock)
  setWriteTimeout _ clock := (.ok (), clock)
  read_le := by
    rintro want s bytes s' ⟨⟩
    exact Nat.zero_le _
  write_le := by
    rintro data s n s' ⟨⟩
    exact Nat.min_le_right _ _

/-- **A banner that is written in part is not counted**: the deadline passes behind its first
byte. -/
theorem observeConnection_miscounts :
    ∃ obs w, observeConnection byteAtATime (fun clock => (false, clock)) { connectionTimeout := 1 }
        2 1 0 0 = (.returned .timedOut, obs, w) ∧ obs.bytesWritten = 0 ∧ w.written = [83] :=
  ⟨_, _, rfl, rfl, rfl⟩

end Tatami.Tcp
