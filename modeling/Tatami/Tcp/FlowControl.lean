import Tatami.Tcp.Handshake.Flow
import Tatami.Tcp.Observer
import Tatami.Tcp.Probe

/-! # Flow control

Three machines read from a bounded input buffer: the client handshake, the probe and the observer.
What their callers rely on is one property (`FlowControl`): whenever `step` asks for more there is
room for it, so a caller that never feeds more than there is room for can always go on and never
overflows the buffer, and input that does not fit is refused as a whole. It follows from one-step
facts (`FlowControl.of_steps`), which the handshake supplies for itself and `Front.flowControl` for
the machines at the front of a connection. -/

namespace Tatami.Tcp

open Tatami.Wire Tatami.Keys ClientHandshake

/-! ### The property -/

/-- A machine that is fed through an input buffer, and its calls. -/
structure Fed (σ ℓ : Type) where
  buf : σ → InputBuffer
  /-- There is an outcome. -/
  finished : σ → Bool
  /-- What did not fit, if that is the outcome. -/
  overflow? : σ → Option InputOverflow
  feed : Bytes → σ → σ
  calls : σ → ℓ → σ → Prop
  /-- The input that a call offers. -/
  offered? : ℓ → Option Bytes
  /-- The call was a `step` that asked for more input. -/
  asks : ℓ → Bool

namespace Fed

variable {σ ℓ : Type}

/-- The calls of a caller that offers no more than there is room for. -/
def respects (m : Fed σ ℓ) (s : σ) (l : ℓ) (s' : σ) : Prop :=
  m.calls s l s' ∧ ∀ data, m.offered? l = some data → data.length ≤ (m.buf s).room

end Fed

/-- What a caller can rely on, after any calls. -/
structure FlowControl {σ ℓ : Type} (m : Fed σ ℓ) (start : σ) (capacity : Nat) : Prop where
  /-- The buffer never holds more than its capacity. -/
  bounded : ∀ {ls s}, Run m.calls start ls s →
    (m.buf s).capacity = capacity ∧ (m.buf s).buf.length ≤ capacity
  /-- When more input is asked for there is room for it. -/
  room : ∀ {ls s l s'}, Run m.calls start ls s → m.calls s l s' → m.asks l = true →
    1 ≤ (m.buf s').room
  /-- A caller that offers no more than there is room for never overflows the buffer. -/
  fits : ∀ {ls s}, Run m.respects start ls s → m.overflow? s = none
  /-- Input that does not fit is not copied and ends an unfinished machine. -/
  refuses : ∀ {ls s data}, Run m.calls start ls s → m.finished s = false →
    (m.buf s).room < data.length → m.buf (m.feed data s) = m.buf s ∧
      m.overflow? (m.feed data s) = some ⟨capacity, (m.buf s).buf.length, data.length⟩

/-- **Flow control from one-step facts**, with an invariant of the machine. -/
theorem FlowControl.of_steps {σ ℓ : Type} {m : Fed σ ℓ} {start : σ} {capacity : Nat}
    (I : σ → Prop) (hstart : I start) (hfits : m.overflow? start = none)
    (hstep : ∀ {s l s'}, I s → m.calls s l s' → I s')
    (hcapacity : ∀ {s}, I s → (m.buf s).capacity = capacity)
    (hroom : ∀ {s l s'}, I s → m.calls s l s' → m.asks l = true →
      (m.buf s').buf.length < capacity)
    (hkeep : ∀ {s l s'}, I s → m.respects s l s' → m.overflow? s = none → m.overflow? s' = none)
    (hrefuse : ∀ {s data}, I s → m.finished s = false → (m.buf s).room < data.length →
      m.buf (m.feed data s) = m.buf s ∧ m.overflow? (m.feed data s) =
        some ⟨(m.buf s).capacity, (m.buf s).buf.length, data.length⟩) :
    FlowControl m start capacity where
  bounded hrun := by
    have hcap := hcapacity (hrun.invariant hstart hstep)
    exact ⟨hcap, hcap ▸ (m.buf _).fits⟩
  room hrun hcall hasks := by
    have hs := hrun.invariant hstart hstep
    have hlt := hroom hs hcall hasks
    rw [InputBuffer.room, hcapacity (hstep hs hcall)]
    omega
  fits hrun := by
    refine (hrun.invariant (I := fun s => I s ∧ m.overflow? s = none) ⟨hstart, hfits⟩ ?_).2
    rintro s l s' ⟨hs, hnone⟩ hcall
    exact ⟨hstep hs hcall.1, hkeep hs hcall hnone⟩
  refuses hrun hopen hlarge := by
    have hs := hrun.invariant hstart hstep
    have hend := hrefuse hs hopen hlarge
    rwa [hcapacity hs] at hend

/-! ### The client handshake -/

section Handshake

variable {C : Crypto}

/-- The client handshake as a machine that is fed. -/
def ClientHandshake.fed (C : Crypto) : Fed ClientHandshake Event where
  buf h := h.buf
  finished h := h.state.outcome.isSome
  overflow? h := h.state.outcome.bind HandshakeOutcome.overflow?
  feed data h := h.feed data
  calls := Calls C
  offered? e :=
    match e.call with
    | .feed data => some data
    | _ => none
  asks e := e.reply == .step .needMore

/-- A call within the room does not overflow. -/
theorem ClientHandshake.call_fits {h h' : ClientHandshake} {c : Call} {r : Reply}
    (hbasic : Basic h.state) (hcall : h.call C c = .ok (r, h'))
    (hroom : ∀ data, c = .feed data → data.length ≤ h.room) (hs : h.state.Fits) :
    h'.state.Fits := by
  cases c with
  | feed data =>
    cases hcall
    rw [feed]
    split
    · exact hs
    · obtain ⟨buf, hpush⟩ := InputBuffer.push_fits (hroom data rfl)
      rw [hpush]
      exact hs
  | step =>
    obtain ⟨⟨_, h₁⟩, hstep, hcall⟩ := Checked.bind_ok_iff.mp hcall
    cases hcall
    obtain ⟨⟨_, state, buf⟩, hloop, heq⟩ := Checked.bind_ok_iff.mp hstep
    cases heq
    exact stepLoop_fits hbasic hs hloop
  | takeOutput | room | phase =>
    cases hcall
    exact hs
  | provideTrust =>
    obtain ⟨state, hstate, hcall⟩ := Checked.bind_ok_iff.mp hcall
    cases hcall
    exact provideTrust_fits hbasic hs hstate
  | inputEnded =>
    simp only [call, inputEnded] at hcall
    split at hcall
    · cases hcall
      exact hs
    · cases hcall
      rfl
  | report =>
    obtain ⟨report, -, hcall⟩ := Checked.bind_ok_iff.mp hcall
    cases hcall
    exact hs

theorem Built.flowControl {config : HandshakeConfig} {provider : Option SignatureProvider}
    {h : ClientHandshake} {capacity : Nat} (hb : Built C config provider h)
    (hcapacity : config.bufferCapacity = .ok capacity) :
    FlowControl (fed C) h capacity := by
  refine .of_steps (fun t => t.setup.config = config ∧ Sound C t.setup t.state ∧
    t.buf.capacity = capacity) ⟨hb.config_eq, hb.sound, ?_⟩ ?_ ?_ (fun hs => hs.2.2) ?_ ?_ ?_
  · obtain ⟨_, hcapacity', hbuf⟩ := hb.buf
    rw [hcapacity] at hcapacity'
    cases hcapacity'
    rw [hbuf]
    rfl
  · obtain ⟨_, _, _, _, _, -, -, -, -, hstate⟩ := hb.start
    change h.state.outcome.bind _ = none
    rw [hstate]
    rfl
  · rintro s e s' ⟨hconfig, hs, hcap⟩ ⟨-, hcall⟩
    have heffect := call_effect hs.basic hcall
    exact ⟨by rw [heffect.setup, hconfig], heffect.setup ▸ hs.moves heffect.moves,
      heffect.capacity.trans hcap⟩
  · rintro s ⟨phase, call, reply⟩ s' ⟨hconfig, hs, hcap⟩ ⟨-, hcall⟩ hasks
    obtain rfl : reply = .step .needMore := eq_of_beq hasks
    cases call with
    | step =>
      obtain ⟨⟨_, h₁⟩, hstep, hcall⟩ := Checked.bind_ok_iff.mp hcall
      cases hcall
      obtain ⟨⟨_, state, _⟩, hloop, heq⟩ := Checked.bind_ok_iff.mp hstep
      cases heq
      have hs' := hs.moves (stepLoop_moves hs.basic hloop).1
      exact round_room (by rw [hconfig]; exact hcapacity) hs'.verification.limits
        (stepLoop_last hs hloop)
    | provideTrust =>
      obtain ⟨state, -, hcall⟩ := Checked.bind_ok_iff.mp hcall
      cases hcall
    | report =>
      obtain ⟨report, -, hcall⟩ := Checked.bind_ok_iff.mp hcall
      cases hcall
    | _ => cases hcall
  · rintro s ⟨phase, call, reply⟩ s' ⟨hconfig, hs, hcap⟩ ⟨⟨-, hcall⟩, hroom⟩ hfits
    refine call_fits hs.basic hcall (fun data hdata => hroom data ?_) hfits
    obtain rfl : call = .feed data := hdata
    rfl
  · rintro s data ⟨hconfig, hs, hcap⟩ hopen hlarge
    have hopen' : ¬s.state.outcome.isSome = true := Bool.eq_false_iff.mp hopen
    change (s.feed data).buf = _ ∧ (s.feed data).state.outcome.bind _ = _
    rw [feed, if_neg hopen', InputBuffer.push_refused (b := s.buf) hlarge]
    exact ⟨rfl, rfl⟩

/-- A driver that offers one byte at a time never offers too much. -/
theorem FlowControl.drive_bytes {policy : HostIdentityOwned → TrustDecision}
    {start h : ClientHandshake} {capacity fuel : Nat} {events : List Event} {chunks : List Bytes}
    {output : Bytes} (hflow : FlowControl (fed C) start capacity)
    (hrun : Run (Calls C) start events h) (hbytes : ∀ chunk ∈ chunks, chunk.length = 1) :
    drive C policy fuel h chunks output ≠ .badChunk := by
  induction fuel generalizing h events chunks output with
  | zero => nofun
  | succ _ ih =>
    rw [drive]
    rcases hstep : h.step C with p | ⟨answer, h₁⟩
    · simp
    · have hcall : Calls C h ⟨h.phase, .step, .step answer⟩ h₁ :=
        ⟨rfl, by rw [call, hstep]; rfl⟩
      have hrun₁ := hrun.snoc hcall
      cases answer with
      | finished => exact (conclude_ne _ _ _ _).2
      | send => exact ih (hrun₁.snoc (l := ⟨h₁.phase, .takeOutput, _⟩) ⟨rfl, rfl⟩) hbytes
      | trustDecisionRequired identity =>
        simp only
        split
        · simp
        · case h_2 state hstate =>
          refine ih (hrun₁.snoc (l := ⟨h₁.phase, .provideTrust (policy identity), .unit⟩)
            ⟨rfl, ?_⟩) hbytes
          rw [call, hstate]
          rfl
      | needMore =>
        cases chunks with
        | nil => exact (conclude_ne _ _ _ _).2
        | cons chunk =>
          have hone := hbytes chunk List.mem_cons_self
          have hroom : 1 ≤ h₁.room := hflow.room hrun hcall (by rfl)
          have hok : ¬(chunk = [] ∨ h₁.room < chunk.length) := by
            rintro (rfl | hlarge)
            · cases hone
            · omega
          simp only
          rw [if_neg hok]
          exact ih (hrun₁.snoc (l := ⟨h₁.phase, .feed chunk, .unit⟩) ⟨rfl, rfl⟩)
            fun c hc => hbytes c (List.mem_cons_of_mem _ hc)

end Handshake

/-! ### Machines at the front -/

/-- A machine with a buffer and an outcome as one that is fed. -/
def Fed.ofMachine {μ ε ω : Type} (A : Machine μ UInt8 ε ω) (buf : μ → InputBuffer)
    (ending : μ → Option ω) (overflow? : ω → Option InputOverflow) :
    Fed μ (Machine.Call UInt8 ε ω) where
  buf := buf
  finished m := (ending m).isSome
  overflow? m := (ending m).bind overflow?
  feed := A.feed
  calls := A.Calls
  offered?
    | .feed data => some data
    | _ => none
  asks
    | .step .needMore => true
    | _ => false

namespace Front

variable {μ σ ε ν ω : Type} {F : Front μ σ ε ν ω} {lines : IdentLimits} {initial : InitialLimits}
  {capacity : Nat} {m m' : μ}

theorem Kept.step_fits {answer : Answer ε ω} (h : F.Kept lines initial capacity m)
    (hholds : Holds lines initial capacity) (hstep : F.machine.step m = .ok (answer, m'))
    (hfits : (F.ending (F.state m)).bind F.overflow? = none) :
    (F.ending (F.state m')).bind F.overflow? = none := by
  have himpl := F.machine_implements hholds
  cases answer with
  | needMore =>
    obtain ⟨-, rfl⟩ := himpl.of_needMore h hstep
    exact hfits
  | event =>
    obtain ⟨_, hlook, -⟩ := himpl.of_event h hstep
    exact (look_event hlook).2.2.1
  | finished =>
    obtain ⟨_, _, hlook, rfl, hrests⟩ := himpl.of_finished h hstep
    rw [ending_of_rests hrests]
    exact (look_finished hlook).2 hfits _

/-- **A machine at the front controls its flow.** -/
theorem flowControl (hkept : F.Kept lines initial capacity m)
    (hholds : Holds lines initial capacity) (hnone : F.ending (F.state m) = none) :
    FlowControl (.ofMachine F.machine F.buf (fun m => F.ending (F.state m)) F.overflow?) m
      capacity := by
  refine .of_steps (F.Kept lines initial capacity) hkept ?_ (fun hs hcall => hs.call hcall)
    (fun hs => hs.capacity) ?_ ?_ ?_
  · simp only [Fed.ofMachine, hnone, Option.bind_none]
  · intro s c s' hs hcall hasks
    cases c with
    | step answer =>
      cases answer with
      | needMore =>
        obtain ⟨hlook, rfl⟩ := (F.machine_implements hholds).of_needMore hs hcall
        exact hs.room hholds hlook
      | _ => cases hasks
    | _ => cases hasks
  · rintro s c s' hs ⟨hcall, hroom⟩ hfits
    cases c with
    | feed data =>
      cases hcall
      obtain ⟨_, hpush⟩ := InputBuffer.push_fits (b := F.buf s) (hroom data rfl)
      simp only [Fed.ofMachine, FrontParts.machine, hpush]
      split
      · exact hfits
      · rw [F.state_put]
        exact hfits
    | step => exact hs.step_fits hholds hcall hfits
    | inputEnded =>
      simp only [Fed.ofMachine, Machine.Calls, FrontParts.machine] at hcall
      split at hcall
      · cases hcall
        exact hfits
      · cases hcall
        simp only [Fed.ofMachine, F.state_put, F.ending_finish, Option.bind_some, F.overflow_eof]
  · intro s data hs hopen hlarge
    have hstage : F.stage (F.state s) ≠ .finished := fun hfinished =>
      Bool.eq_false_iff.mp hopen (hs.settled.mp hfinished)
    have hpush := InputBuffer.push_refused (b := F.buf s) hlarge
    simp only [Fed.ofMachine, FrontParts.machine, if_neg hstage, hpush, F.buf_put, F.state_put,
      F.ending_finish, Option.bind_some, F.overflow_error]
    exact ⟨trivial, rfl⟩

end Front

namespace Probe

/-- The probe as a machine that is fed. -/
def fed : Fed Probe (Machine.Call UInt8 ProbeEvent ProbeEnd) :=
  .ofMachine machine (fun p => p.buf) (fun p => p.state.ending) ProbeEnd.overflow?

theorem flowControl {config : ProbeConfig} {capacity : Nat} {p : Probe}
    (hcapacity : config.bufferCapacity = .ok capacity) (h : new config = .ok (.ok p)) :
    FlowControl fed p capacity := by
  obtain ⟨_, hmade, hkept, -, hstate⟩ := made h
  cases hcapacity.symm.trans hmade
  rw [fed, machine_eq]
  exact Front.flowControl hkept (holds hcapacity) (congrArg _ hstate)

end Probe

namespace Observer

/-- A call that changes the observer, with what it returned. -/
abbrev Call := Machine.Call UInt8 ObserverEvent ObservationOutcome

/-- The step relation of a run of calls. -/
abbrev Calls : Observer → Call → Observer → Prop := machine.Calls

/-- The observer as a machine that is fed. -/
def fed : Fed Observer Call :=
  .ofMachine machine (fun o => o.buf) (fun o => o.state.ending) ObservationOutcome.overflow?

theorem flowControl {config : ObserverConfig} {capacity : Nat} {o : Observer}
    (hcapacity : config.bufferCapacity = .ok capacity) (h : new config = .ok (.ok o)) :
    FlowControl fed o capacity := by
  obtain ⟨_, hmade, hkept, -, hstate⟩ := made h
  cases hcapacity.symm.trans hmade
  rw [fed, machine_eq]
  exact Front.flowControl hkept (holds hcapacity) (congrArg _ hstate)

end Observer

/-! ### All three -/

/-- **Flow control cannot stall or overflow.** For each machine, with any configuration whose buffer
capacity fits its type and after any calls: when `step` asks for more there is room, a caller that
offers no more than there is room for never overflows, the buffer is never over its capacity, and
input that does not fit is not copied and ends an unfinished machine with the true sizes. -/
theorem flow_control :
    (∀ {ρ ε : Type} {C : Crypto} {tryFillBytes : (n : Nat) → ρ → Except ε (ByteVec n × ρ)}
      {config : HandshakeConfig} {rng : ρ} {provider : Option SignatureProvider}
      {h : ClientHandshake} {capacity : Nat}, config.bufferCapacity = .ok capacity →
      build C tryFillBytes config rng provider = .ok (.ok h) →
      FlowControl (fed C) h capacity) ∧
    (∀ {config : ProbeConfig} {p : Probe} {capacity : Nat},
      config.bufferCapacity = .ok capacity → Probe.new config = .ok (.ok p) →
      FlowControl Probe.fed p capacity) ∧
    (∀ {config : ObserverConfig} {o : Observer} {capacity : Nat},
      config.bufferCapacity = .ok capacity → Observer.new config = .ok (.ok o) →
      FlowControl Observer.fed o capacity) :=
  ⟨fun hcapacity hb => (build_ok hb).flowControl hcapacity, Probe.flowControl, Observer.flowControl⟩

/-- The reference client, and a probe and an observer of the default configuration, with their
capacities. -/
theorem flow_control_default :
    FlowControl (fed reference) Reference.client 66580 ∧
    (∃ p, Probe.new .default = .ok (.ok p) ∧ FlowControl Probe.fed p 66565) ∧
    ∃ o, Observer.new .default = .ok (.ok o) ∧ FlowControl Observer.fed o 65796 := by
  have hprobe : ProbeConfig.default.bufferCapacity = .ok 66565 := by decide
  have hobserver : ObserverConfig.default.bufferCapacity = .ok 65796 := by decide
  exact ⟨flow_control.1 (by decide) Reference.build_client,
    ⟨_, rfl, flow_control.2.1 hprobe rfl⟩, _, rfl, flow_control.2.2 hobserver rfl⟩

end Tatami.Tcp
