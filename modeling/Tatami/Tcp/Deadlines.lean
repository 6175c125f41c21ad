import Tatami.Tcp.Handshake.Blocking
import Tatami.Tcp.Pump

/-! # Deadlines

What a driver has to do with its deadline can be read off its calls (`OnTime`): before every read
and every write it asked the clock and set a timeout that ends by the deadline, and a clock reading
at or past the deadline is its last call, after which it reports that time ran out. Logs of this
kind can be put one after the other (`OnTime.append`), so this is shown round by round for
`write_all_by` and for the three drivers. The clock may say anything; it need not be monotone. -/

namespace Tatami.Tcp

open Tatami.Wire Tatami.Keys List

/-! ### Logs that keep a deadline -/

/-- Whether a call moves bytes. -/
def Entry.transfers : Entry → Bool
  | .read .. => true
  | .write .. => true
  | _ => false

/-- A timeout and the transfer it is for. -/
inductive Arms (timeout : Nat) : Entry → Entry → Prop where
  | read {room want : Nat} {result : Except SocketError Bytes} :
      Arms timeout (.setReadTimeout timeout (.ok ())) (.read room want result)
  | write {data : Bytes} {result : Except SocketError Nat} :
      Arms timeout (.setWriteTimeout timeout (.ok ())) (.write data result)

/-- The calls keep the deadline; `timedOut` is how the driver ends when it has passed. -/
structure OnTime (deadline : Nat) (log : List Entry) (timedOut : Prop) : Prop where
  /-- Right before a transfer the clock was asked and a timeout set that ends by the deadline. -/
  armed : ∀ {before e after}, log = before ++ e :: after → e.transfers = true →
    ∃ earlier instant set timeout, before = earlier ++ [.now instant, set] ∧
      Arms timeout set e ∧ InTime deadline instant timeout
  /-- A clock reading at or past the deadline is the last call. -/
  last : ∀ {before instant after}, log = before ++ .now instant :: after →
    deadline ≤ instant → after = []
  /-- Then time has run out. -/
  late : ∀ {instant}, Entry.now instant ∈ log → deadline ≤ instant → timedOut

section OnTime

variable {deadline instant timeout : Nat} {log later : List Entry} {P Q : Prop}

/-- Calls that keep the deadline keep it with any weaker account of what a passed deadline ends
in. -/
theorem OnTime.imp (h : OnTime deadline log P) (hPQ : P → Q) : OnTime deadline log Q :=
  ⟨h.armed, h.last, fun hmem hlate => hPQ (h.late hmem hlate)⟩

theorem onTime_of_idle
    (h : ∀ e ∈ log, e.transfers = false ∧ ∀ instant, e = .now instant → instant < deadline) :
    OnTime deadline log P where
  armed hlog hmoves := by
    have hidle := (h _ (mem_iff_append.mpr ⟨_, _, hlog⟩)).1
    cases hidle.symm.trans hmoves
  last hlog hlate := by
    have hearly := (h _ (mem_iff_append.mpr ⟨_, _, hlog⟩)).2 _ rfl
    omega
  late hmem hlate := by
    have hearly := (h _ hmem).2 _ rfl
    omega

/-- The clock says that it is too late. -/
theorem onTime_late (hP : P) : OnTime deadline [.now instant] P where
  armed hlog hmoves := by
    cases mem_singleton.mp (mem_iff_append.mpr ⟨_, _, hlog⟩)
    cases hmoves
  last hlog _ := by
    have hlength := congrArg List.length hlog
    simp only [length_cons, length_append, length_nil] at hlength
    exact length_eq_zero_iff.mp (by omega)
  late _ _ := hP

/-- **Calls before the deadline and the calls after them.** -/
theorem OnTime.append (h : OnTime deadline log False) (hlater : OnTime deadline later P) :
    OnTime deadline (log ++ later) P where
  armed {before e after} hlog hmoves := by
    rcases append_eq_append_iff.mp hlog with ⟨a, rfl, hsplit⟩ | ⟨a, hsplit, hsplit'⟩
    · obtain ⟨earlier, instant, set, timeout, rfl, harms, htime⟩ := hlater.armed hsplit hmoves
      exact ⟨log ++ earlier, instant, set, timeout, by rw [append_assoc], harms, htime⟩
    · cases a with
      | nil =>
        rw [nil_append] at hsplit'
        rw [append_nil] at hsplit
        obtain ⟨earlier, instant, set, timeout, hnil, -⟩ :=
          hlater.armed (show later = [] ++ e :: after from hsplit'.symm) hmoves
        cases nil_eq_append_iff.mp hnil |>.2
      | cons =>
        cases hsplit'
        exact h.armed hsplit hmoves
  last {before instant after} hlog hlate := by
    rcases append_eq_append_iff.mp hlog with ⟨a, rfl, hsplit⟩ | ⟨a, hsplit, hsplit'⟩
    · exact hlater.last hsplit hlate
    · cases a with
      | nil => exact hlater.last (show later = [] ++ _ from hsplit'.symm) hlate
      | cons =>
        cases hsplit'
        refine (h.late ?_ hlate).elim
        rw [hsplit]
        exact mem_append_right _ (mem_cons_self ..)
  late hmem hlate := by
    rcases mem_append.mp hmem with hold | hnew
    · exact (h.late hold hlate).elim
    · exact hlater.late hnew hlate

theorem onTime_transfer {set e : Entry} (harms : Arms timeout set e)
    (htime : InTime deadline instant timeout) : OnTime deadline [.now instant, set, e] P := by
  have hset : set.transfers = false ∧ ∀ i, set ≠ .now i := by
    cases harms <;> exact ⟨rfl, nofun⟩
  have he : ∀ i, e ≠ .now i := by
    cases harms <;> nofun
  have hnow {i : Nat} (hmem : Entry.now i ∈ [.now instant, set, e]) : i = instant := by
    rcases mem_cons.mp hmem with heq | hmem
    · cases heq
      rfl
    rcases mem_cons.mp hmem with heq | hmem
    · exact absurd heq.symm (hset.2 i)
    · exact absurd (mem_singleton.mp hmem).symm (he i)
  have hlt : ¬deadline ≤ instant := by
    have hpos := htime.pos
    have hle := htime.le
    omega
  refine ⟨?_, ?_, ?_⟩
  · intro before e' after hlog hmoves
    match before, hlog with
    | [], hlog =>
      cases hlog
      cases hmoves
    | [_], hlog =>
      cases hlog
      cases hset.1.symm.trans hmoves
    | [_, _], hlog =>
      cases hlog
      exact ⟨[], instant, set, timeout, rfl, harms, htime⟩
    | _ :: _ :: _ :: before, hlog =>
      have hlength := congrArg List.length hlog
      simp only [length_cons, length_append, length_nil] at hlength
      omega
  · intro before i after hlog hlate
    obtain rfl := hnow (mem_iff_append.mpr ⟨_, _, hlog⟩)
    exact absurd hlate hlt
  · intro i hmem hlate
    obtain rfl := hnow hmem
    exact absurd hlate hlt

/-- A timeout that was set, or that could not be, without a transfer. -/
theorem onTime_unused {set : Entry} (hset : set.transfers = false ∧ ∀ i, set ≠ .now i)
    (htime : InTime deadline instant timeout) : OnTime deadline [.now instant, set] P := by
  refine onTime_of_idle fun e he => ?_
  rcases mem_cons.mp he with rfl | he
  · refine ⟨rfl, fun i hi => ?_⟩
    cases hi
    have hpos := htime.pos
    have hle := htime.le
    omega
  · obtain rfl := mem_singleton.mp he
    exact ⟨hset.1, fun i hi => absurd hi (hset.2 i)⟩

end OnTime

/-! ### Calls that keep a deadline -/

/-- `w'` is `w` after calls that keep the deadline. -/
def Keeps {σ : Type} (deadline : Nat) (w w' : World σ) (timedOut : Prop) : Prop :=
  ∃ later, w'.log = w.log ++ later ∧ OnTime deadline later timedOut

section Keeps

variable {σ : Type} {m : Seam σ} {deadline remaining : Nat} {w w₁ w₂ w' : World σ} {P Q : Prop}

/-- Without a call the deadline is kept. -/
theorem Keeps.refl (w : World σ) : Keeps deadline w w P :=
  ⟨[], by rw [append_nil], onTime_of_idle nofun⟩

/-- Calls that keep the deadline, after others that kept it and met no passed one. -/
theorem Keeps.trans (h : Keeps deadline w w₁ False) (h' : Keeps deadline w₁ w' P) :
    Keeps deadline w w' P := by
  obtain ⟨log, hlog, hon⟩ := h
  obtain ⟨later, hlater, hon'⟩ := h'
  exact ⟨log ++ later, by rw [hlater, hlog, append_assoc], hon.append hon'⟩

/-- A driver that keeps the deadline keeps it with any weaker account of what a passed deadline ends
in. -/
theorem Keeps.imp (h : Keeps deadline w w' P) (hPQ : P → Q) : Keeps deadline w w' Q := by
  obtain ⟨later, hlater, hon⟩ := h
  exact ⟨later, hlater, hon.imp hPQ⟩

/-- A call that neither asks the clock nor moves bytes. -/
theorem keeps_enter {env : σ} {entry : Entry} (hmoves : entry.transfers = false)
    (hnow : ∀ i, entry ≠ .now i) : Keeps deadline w (w.enter env entry) P := by
  refine ⟨[entry], rfl, onTime_of_idle fun e he => ?_⟩
  obtain rfl := mem_singleton.mp he
  exact ⟨hmoves, fun i hi => absurd hi (hnow i)⟩

theorem keeps_late (hremaining : m.remainingUntil deadline w = (none, w')) (hP : P) :
    Keeps deadline w w' P := by
  obtain ⟨_, -, hlog⟩ := Seam.remainingUntil_none hremaining
  exact ⟨_, hlog, onTime_late hP⟩

section Remaining

variable (hremaining : m.remainingUntil deadline w = (some remaining, w₁))
include hremaining

/-- Calls after the clock was asked, with what is left. -/
theorem keeps_remaining {entries : List Entry} (hentries : w'.log = w₁.log ++ entries)
    (h : ∀ {instant}, InTime deadline instant remaining →
      OnTime deadline (.now instant :: entries) P) : Keeps deadline w w' P := by
  obtain ⟨hpos, instant, hlog, htime⟩ := Seam.remainingUntil_some hremaining
  exact ⟨_, by simp [hentries, hlog], h (htime _ hpos (Nat.le_refl _))⟩

/-- A timeout for reads could not be set. -/
theorem keeps_refusedRead {e : SocketError}
    (htimeout : m.doSetReadTimeout remaining w₁ = (.error e, w')) : Keeps deadline w w' P := by
  obtain ⟨_, rfl⟩ := Seam.doSetReadTimeout_cases htimeout
  exact keeps_remaining hremaining rfl (onTime_unused ⟨rfl, nofun⟩)

/-- A timeout for writes could not be set. -/
theorem keeps_refusedWrite {e : SocketError}
    (htimeout : m.doSetWriteTimeout remaining w₁ = (.error e, w')) : Keeps deadline w w' P := by
  obtain ⟨_, rfl⟩ := Seam.doSetWriteTimeout_cases htimeout
  exact keeps_remaining hremaining rfl (onTime_unused ⟨rfl, nofun⟩)

theorem keeps_read {room want : Nat} {result : Except SocketError Bytes}
    (htimeout : m.doSetReadTimeout remaining w₁ = (.ok (), w₂))
    (hread : m.doRead room want w₂ = (result, w')) : Keeps deadline w w' P := by
  obtain ⟨_, rfl⟩ := Seam.doSetReadTimeout_cases htimeout
  obtain ⟨_, rfl, -⟩ := Seam.doRead_cases hread
  exact keeps_remaining hremaining (append_assoc ..) (onTime_transfer .read)

theorem keeps_write {data : Bytes} {result : Except SocketError Nat}
    (htimeout : m.doSetWriteTimeout remaining w₁ = (.ok (), w₂))
    (hwrite : m.doWrite data w₂ = (result, w')) : Keeps deadline w w' P := by
  obtain ⟨_, rfl⟩ := Seam.doSetWriteTimeout_cases htimeout
  obtain ⟨_, rfl, -⟩ := Seam.doWrite_cases hwrite
  exact keeps_remaining hremaining (append_assoc ..) (onTime_transfer .write)

end Remaining

/-- **`write_all_by` keeps its deadline.** -/
theorem writeAllBy_keeps {fuel : Nat} {data : Bytes} {r : Option (Except SocketError Unit)}
    (h : m.writeAllBy deadline fuel data w = (r, w')) :
    Keeps deadline w w' (r = some (.error .deadlinePassed)) := by
  fun_induction Seam.writeAllBy m deadline fuel data w with
  | case1 =>
    cases h
    exact .refl _
  | case2 _ _ _ _ hflush =>
    cases h
    cases hflush
    exact keeps_enter rfl nofun
  | case3 =>
    cases h
    exact keeps_late ‹_› rfl
  | case4 =>
    cases h
    exact keeps_refusedWrite ‹_› ‹_›
  | case5 | case8 | case9 =>
    cases h
    exact keeps_write ‹_› ‹_› ‹_›
  | case6 _ _ _ _ _ _ _ _ _ _ _ _ ih | case7 _ _ _ _ _ _ _ _ _ _ _ _ _ ih =>
    exact (keeps_write ‹_› ‹_› ‹_›).trans (ih h)

end Keeps

/-! ### The drivers -/

section Pump

variable {μ ε ω : Type} {A : Machine μ UInt8 ε ω} {deadline chunk : Nat} {m m' : μ}
  {halt : Halt ω} {events : List ε} {log : List Entry} {P : Prop}

theorem onTime_reading {instant timeout room want : Nat} {result : Except SocketError Bytes}
    (htime : InTime deadline instant timeout) :
    OnTime deadline (reading instant timeout room want result) P :=
  onTime_transfer .read htime

theorem Pumps.onTime {round : Round ε} (h : Pumps A deadline chunk m round m') :
    OnTime deadline round.entries P := by
  cases h with
  | event => exact onTime_of_idle nofun
  | fed _ htime | again _ htime => exact onTime_reading htime

theorem Halts.onTime (h : Halts A deadline chunk m halt log m') :
    OnTime deadline log (halt = .late) := by
  cases h with
  | late => exact onTime_late rfl
  | ended _ htime | failed _ htime => exact onTime_reading htime
  | refused _ htime | sliced _ htime => exact onTime_unused ⟨rfl, nofun⟩ htime
  | _ => exact onTime_of_idle nofun

/-- **A driver that pumps a machine keeps its deadline.** -/
theorem Pumped.onTime (h : Pumped A deadline chunk m halt events log m') :
    OnTime deadline log (halt = .late) := by
  obtain ⟨_, _, _, hrun, hhalts, -, rfl⟩ := h
  refine OnTime.append ?_ hhalts.onTime
  clear hhalts
  induction hrun with
  | nil => exact onTime_of_idle nofun
  | snoc _ hlast ih =>
    rw [flatMap_append, flatMap_singleton]
    exact ih.append hlast.onTime

end Pump

section Drivers

variable {σ : Type} {m : Seam σ} {deadline chunk fuel : Nat} {w w' : World σ}

theorem Probe.drive_keeps {p p' : Probe} {r : Drive RunEnd} {events : List ProbeEvent}
    (h : Probe.drive m deadline chunk fuel p w = (r, p', events, w')) :
    Keeps deadline w w' (∃ stage n, r = .returned (.timedOut stage n)) := by
  rw [Probe.drive] at h
  split at h
  · rename_i w₁ hwrite
    cases h
    exact (writeAllBy_keeps hwrite).imp nofun
  · rename_i w₁ hwrite
    obtain ⟨halt, _, later, hpumped, hends, -, hlog, -⟩ := Probe.driveLoop_pumped h
    refine ((writeAllBy_keeps hwrite).imp nofun).trans ⟨later, hlog, hpumped.onTime.imp ?_⟩
    rintro rfl
    exact ⟨_, _, hends⟩
  · rename_i e w₁ hwrite
    cases h
    refine (writeAllBy_keeps hwrite).imp fun hlate => ?_
    cases hlate
    exact ⟨_, _, rfl⟩

theorem Observer.drive_keeps {stop : σ → Bool × σ} {config : ListenerConfig} {o o' : Observer}
    {obs obs' : Observation} {r : Drive ObservationEnd}
    (h : Observer.drive m stop deadline config fuel o obs w = (r, o', obs', w')) :
    Keeps deadline w w' (r = .returned .timedOut) := by
  rw [Observer.drive] at h
  split at h
  · rename_i w₁ hwrite
    cases h
    exact (writeAllBy_keeps hwrite).imp nofun
  · rename_i w₁ hwrite
    obtain ⟨halt, _, later, hpumped, rfl, -, -, hlog, -⟩ := Observer.driveLoop_pumped h
    refine ((writeAllBy_keeps hwrite).imp nofun).trans ⟨later, hlog, hpumped.onTime.imp ?_⟩
    rintro rfl
    rfl
  · rename_i e w₁ hwrite
    cases h
    refine (writeAllBy_keeps hwrite).imp fun hlate => ?_
    cases hlate
    rfl

theorem runHandshakeOn_keeps {C : Crypto} {policy : HostIdentity → TrustDecision}
    {h h' : ClientHandshake} {ran : Ran}
    (hrun : runHandshakeOn C m policy deadline chunk fuel h w = (ran, h', w')) :
    Keeps deadline w w' (∃ phase n, ran = .returned (.timedOut phase n)) := by
  fun_induction runHandshakeOn C m policy deadline chunk fuel h w with
  | case1 | case2 | case3 =>
    cases hrun
    exact .refl _
  -- the output is written
  | case4 _ _ _ _ _ _ _ _ _ hwrite =>
    cases hrun
    exact (writeAllBy_keeps hwrite).imp nofun
  | case5 _ _ _ _ _ _ _ _ _ hwrite ih =>
    exact ((writeAllBy_keeps hwrite).imp nofun).trans (ih hrun)
  | case6 _ _ _ _ _ _ _ _ _ _ hwrite =>
    cases hrun
    refine (writeAllBy_keeps hwrite).imp fun hlate => ?_
    cases hlate
    exact ⟨_, _, rfl⟩
  -- the policy is asked
  | case7 =>
    have hw : _ = w' := congrArg (·.2.2) hrun
    rw [← hw]
    exact keeps_enter rfl nofun
  | case8 _ _ _ _ _ _ _ _ _ _ ih =>
    refine Keeps.trans ?_ (ih hrun)
    exact keeps_enter rfl nofun
  -- more input is needed
  | case9 =>
    cases hrun
    exact keeps_late ‹_› ⟨_, _, rfl⟩
  | case10 =>
    cases hrun
    exact keeps_refusedRead ‹_› ‹_›
  | case11 | case13 | case15 =>
    cases hrun
    exact keeps_read ‹_› ‹_› ‹_›
  | case12 _ _ _ _ _ _ _ _ _ _ _ _ _ _ ih | case14 _ _ _ _ _ _ _ _ _ _ _ _ _ _ _ ih =>
    exact (keeps_read ‹_› ‹_› ‹_›).trans (ih hrun)

/-- The whole log of a run that starts with none. -/
theorem Keeps.onTime {env : σ} {P : Prop} (h : Keeps deadline ⟨env, []⟩ w P) :
    OnTime deadline w.log P := by
  obtain ⟨_, hlog, hon⟩ := h
  rw [hlog]
  exact hon

end Drivers

/-- **The blocking drivers keep their deadline**, on any socket and with any clock, and
`write_all_by` sends its data once and in order, or a part from its beginning. -/
theorem deadline_discipline {σ : Type} (m : Seam σ) (deadline : Nat) :
    (∀ (fuel : Nat) (data : Bytes) (env : σ) {r w},
      m.writeAllBy deadline fuel data ⟨env, []⟩ = (r, w) →
        OnTime deadline w.log (r = some (.error .deadlinePassed)) ∧ w.written <+: data ∧
          (r = some (.ok ()) → w.written = data)) ∧
    (∀ (C : Crypto) (policy : HostIdentity → TrustDecision) (chunk fuel : Nat)
      (h : ClientHandshake) (env : σ) {ran h' w},
      runHandshakeOn C m policy deadline chunk fuel h ⟨env, []⟩ = (ran, h', w) →
        OnTime deadline w.log (∃ phase n, ran = .returned (.timedOut phase n))) ∧
    (∀ (chunk fuel : Nat) (p : Probe) (env : σ) {r p' events w},
      Probe.drive m deadline chunk fuel p ⟨env, []⟩ = (r, p', events, w) →
        OnTime deadline w.log (∃ stage n, r = .returned (.timedOut stage n))) ∧
    (∀ (stop : σ → Bool × σ) (config : ListenerConfig) (fuel : Nat) (o : Observer)
      (obs : Observation) (env : σ) {r o' obs' w},
      Observer.drive m stop deadline config fuel o obs ⟨env, []⟩ = (r, o', obs', w) →
        OnTime deadline w.log (r = .returned .timedOut)) := by
  refine ⟨?_, ?_, ?_, ?_⟩
  · intro fuel data env r w hwrite
    obtain ⟨rest, hrest, hall⟩ := (Seam.writeAllBy_spec hwrite).sent
    refine ⟨(writeAllBy_keeps hwrite).onTime, ⟨rest, hrest⟩, fun hok => ?_⟩
    rw [hall hok, append_nil] at hrest
    exact hrest
  · intro C policy chunk fuel h env ran h' w hrun
    exact (runHandshakeOn_keeps hrun).onTime
  · intro chunk fuel p env r p' events w hdrive
    exact (Probe.drive_keeps hdrive).onTime
  · intro stop config fuel o obs env r o' obs' w hdrive
    exact (Observer.drive_keeps hdrive).onTime

end Tatami.Tcp
