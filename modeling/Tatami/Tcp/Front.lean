import Tatami.Lib.Run
import Tatami.Lib.Session
import Tatami.Tcp.InitialPackets

/-! # Machines at the front of a connection

The client probe and the server observer do the same around their first line: they hold input in a
buffer, look for a line and then for initial packets, and stay with the outcome they come to.
`Front` is what the two have in common, with what has to hold of the parts in which they differ.
Each answer is a function of the state and of the bytes held (`FrontParts.look`), and bytes behind
those that an answer is about do not change it (`Front.look_steady`). So such a machine is one whose
sessions are runs on the whole stream (`Front.machine_implements`), and no call of it panics. -/

namespace Tatami.Tcp

open Tatami.Wire Tatami.Reactor InputBuffer

/-! ### Proposals -/

/-- Something a conforming peer would not send in a `KEXINIT`. -/
inductive ProposalAnomaly where
  | nonzeroReserved (value : UInt32)
  | emptyAlgorithmList (name : String)
  deriving DecidableEq, Repr

/-- A peer's first `KEXINIT`, as advertised. -/
structure Proposal where
  kexinit : OwnedKexInit
  rawPayload : Bytes
  anomalies : List ProposalAnomaly
  /-- Bytes received after the `KEXINIT` packet that were not examined. -/
  unexaminedBytes : Nat
  deriving DecidableEq

/-- The record of a decoded `KEXINIT`, with its anomalies. -/
def Proposal.fromKexinit (kexinit : KexInit) (payload : Bytes) (unexaminedBytes : Nat) :
    Proposal where
  kexinit := kexinit.toOwned
  rawPayload := payload
  anomalies := (if kexinit.reserved ≠ 0 then [.nonzeroReserved kexinit.reserved] else []) ++
    kexinit.emptyAlgorithmLists.map .emptyAlgorithmList
  unexaminedBytes := unexaminedBytes

/-! ### What the machines have in common -/

/-- What did not fit, if that is the error. -/
def InitialError.overflow? : InitialError → Option InputOverflow
  | .inputOverflow e => some e
  | _ => none

/-- How far such a machine has come. -/
inductive FrontStage where
  | line
  | packets
  | finished
  deriving DecidableEq

/-- The parts of such a machine. A verdict is an outcome but for what it says about the bytes behind
it. -/
structure FrontParts (μ σ ε ν ω : Type) where
  state : μ → σ
  buf : μ → InputBuffer
  put : σ → InputBuffer → μ → μ
  stage : σ → FrontStage
  /-- The terminal outcome, once there is one. -/
  ending : σ → Option ω
  ident : σ → IdentificationReader
  packets : σ → InitialPackets
  withPackets : InitialPackets → σ → σ
  finish : ω → σ → σ
  skipped : SkippedMessage → ε
  proposal : Proposal → ω
  disconnected : Disconnect → ω
  error : InitialError → ω
  eof : σ → Nat → ω
  overflow? : ω → Option InputOverflow
  fixed : ω → ν
  proposed : KexInit → Bytes → ν
  ended : σ → ν
  /-- The outcome, with the bytes behind the verdict. -/
  outcome : ν → Bytes → ω
  /-- Looks for a line. -/
  stepLine : σ → InputBuffer → Checked (Answer ε ω × σ × InputBuffer)
  /-- What `stepLine` makes of the bytes that are held. -/
  lookLine : σ → Bytes → Look σ ε ν
  /-- What is said of a finished machine without an outcome. -/
  stuck : String

namespace FrontParts

variable {μ σ ε ν ω : Type} (F : FrontParts μ σ ε ν ω)

/-- Looks for an initial packet. -/
def stepPacket (s : σ) (b : InputBuffer) : Checked (Answer ε ω × σ × InputBuffer) := do
  let (step, packets) ← (F.packets s).step b.buf
  let s := F.withPackets packets s
  match step with
  | .needMore => pure (.needMore, s, b)
  | .skipped message consumed =>
    let b ← b.consume consumed
    pure (.event (F.skipped message), s, b)
  | .kexInit kexinit payload consumed =>
    let unexamined ← Checked.sub b.buf.length consumed
    let ending := F.proposal (.fromKexinit kexinit payload unexamined)
    let b ← b.consume consumed
    pure (.finished ending, F.finish ending s, b)
  | .disconnect disconnect consumed =>
    let ending := F.disconnected disconnect
    let b ← b.consume consumed
    pure (.finished ending, F.finish ending s, b)
  | .error e =>
    let b ← b.consume 0
    pure (.finished (F.error e), F.finish (F.error e) s, b)

/-- Advances by at most one observation. -/
def advance (s : σ) (b : InputBuffer) : Checked (Answer ε ω × σ × InputBuffer) :=
  match F.ending s with
  | some ending => pure (.finished ending, s, b)
  | none =>
    match F.stage s with
    | .line => F.stepLine s b
    | .packets => F.stepPacket s b
    | .finished => .error (.unreachable F.stuck)

/-- The machine. -/
def machine : Machine μ UInt8 ε ω where
  step m := do
    let (answer, s, b) ← F.advance (F.state m) (F.buf m)
    pure (answer, F.put s b m)
  feed data m :=
    if F.stage (F.state m) = .finished then m
    else
      match (F.buf m).push data with
      | .ok b => F.put (F.state m) b m
      | .error e => F.put (F.finish (F.error (.inputOverflow e)) (F.state m)) (F.buf m) m
  inputEnded m :=
    match F.ending (F.state m) with
    | some ending => (ending, m)
    | none =>
      let ending := F.eof (F.state m) (F.buf m).buf.length
      (ending, F.put (F.finish ending (F.state m)) (F.buf m) m)
  room m := (F.buf m).room

/-- What a packet comes to that was looked at. -/
def lookStep (s : σ) (packets : InitialPackets) : InitialStep → Look σ ε ν
  | .needMore => .needMore
  | .skipped message n => .event (F.skipped message) (F.withPackets packets s) n
  | .kexInit kexinit payload n => .finished (F.proposed kexinit payload) n
  | .disconnect d n => .finished (F.fixed (F.disconnected d)) n
  | .error e => .finished (F.fixed (F.error e)) 0

/-- What `stepPacket` makes of the bytes that are held. -/
def lookPacket (s : σ) (w : Bytes) : Look σ ε ν :=
  match (F.packets s).step w with
  | .ok (step, packets) => F.lookStep s packets step
  | .error _ => .needMore

/-- What a step makes of them. -/
def look (s : σ) (w : Bytes) : Look σ ε ν :=
  match F.ending s with
  | some ending => .finished (F.fixed ending) 0
  | none =>
    match F.stage s with
    | .line => F.lookLine s w
    | .packets => F.lookPacket s w
    | .finished => .needMore

/-- There is an outcome when the machine is finished. -/
def Settled (s : σ) : Prop := F.stage s = .finished ↔ (F.ending s).isSome = true

/-- `s'` has the limits of `s`. -/
def SameLimits (s s' : σ) : Prop :=
  (F.ident s').limits = (F.ident s).limits ∧ (F.packets s').limits = (F.packets s).limits

/-- The step `x` answers by the look, and leaves the state and the buffer accordingly. -/
def AnswersBy (s : σ) (b : InputBuffer) (x : Checked (Answer ε ω × σ × InputBuffer)) :
    Look σ ε ν → Prop
  | .needMore => x = .ok (.needMore, s, b) ∧ F.ending s = none
  | .event e s' n => ∃ b', b.consume n = .ok b' ∧ x = .ok (.event e, s', b')
  | .finished v n => ∃ s' b', x = .ok (.finished (F.outcome v (b.buf.drop n)), s', b') ∧
      F.ending s' = some (F.outcome v (b.buf.drop n)) ∧ F.stage s' = .finished ∧
      F.SameLimits s s' ∧ b'.capacity = b.capacity

end FrontParts

/-- A machine at the front of a connection: how its parts go together. -/
structure Front (μ σ ε ν ω : Type) extends FrontParts μ σ ε ν ω where
  state_put : ∀ {s b m}, state (put s b m) = s
  buf_put : ∀ {s b m}, buf (put s b m) = b
  put_self : ∀ {m}, put (state m) (buf m) m = m
  stage_finish : ∀ {o s}, stage (finish o s) = .finished
  ending_finish : ∀ {o s}, ending (finish o s) = some o
  limits_finish : ∀ {o s}, toFrontParts.SameLimits s (finish o s)
  stage_withPackets : ∀ {p s}, stage (withPackets p s) = stage s
  ending_withPackets : ∀ {p s}, ending (withPackets p s) = ending s
  ident_withPackets : ∀ {p s}, ident (withPackets p s) = ident s
  packets_withPackets : ∀ {p s}, packets (withPackets p s) = p
  withPackets_self : ∀ {s}, withPackets (packets s) s = s
  outcome_fixed : ∀ {o w}, outcome (fixed o) w = o
  outcome_proposed : ∀ {kexinit payload w},
    outcome (proposed kexinit payload) w = proposal (.fromKexinit kexinit payload w.length)
  outcome_ended : ∀ {s w}, outcome (ended s) w = eof s w.length
  overflow_proposal : ∀ {p}, overflow? (proposal p) = none
  overflow_disconnected : ∀ {d}, overflow? (disconnected d) = none
  overflow_error : ∀ {e}, overflow? (error e) = e.overflow?
  overflow_eof : ∀ {s n}, overflow? (eof s n) = none
  /-- Looking for a line answers by its look. -/
  stepLine_look : ∀ {s b}, ending s = none →
    toFrontParts.AnswersBy s b (stepLine s b) (lookLine s b.buf)
  /-- More input changes no line that was found. -/
  lookLine_append : ∀ {s w}, 4 ≤ (ident s).limits.maxLine → lookLine s w ≠ .needMore →
    ∀ d, lookLine s (w ++ d) = lookLine s w
  /-- A line that is not complete is short. -/
  lookLine_needMore : ∀ {s w}, lookLine s w = .needMore → w.length < (ident s).limits.maxLine
  /-- A line that is an event uses up some of the bytes, and may be the end of it. -/
  lookLine_event : ∀ {s w e s' n}, stage s = .line → ending s = none →
    lookLine s w = .event e s' n → toFrontParts.SameLimits s s' ∧
      (stage s' ≠ .finished ∧ ending s' = none ∨
        stage s' = .finished ∧ ∃ o, ending s' = some o ∧ overflow? o = none) ∧
      1 ≤ n ∧ n ≤ w.length
  /-- A verdict about a line is about bytes that are held, and no overflow. -/
  lookLine_finished : ∀ {s w v n}, lookLine s w = .finished v n →
    n ≤ w.length ∧ ∀ rest, overflow? (outcome v rest) = none

namespace Front

variable {μ σ ε ν ω : Type} {F : Front μ σ ε ν ω} {s s' : σ} {b : InputBuffer} {w : Bytes} {e : ε}
  {v : ν} {n : Nat}

/-! ### Looks -/

/-- A packet that was decoded leaves the limits as they are. -/
theorem sameLimits_withPackets {packets : InitialPackets}
    (h : packets.limits = (F.packets s).limits) : F.SameLimits s (F.withPackets packets s) := by
  refine ⟨by rw [F.ident_withPackets], ?_⟩
  rw [F.packets_withPackets, h]

/-- An outcome leaves the limits as they are. -/
theorem sameLimits_finish {o : ω} (h : F.SameLimits s s') :
    F.SameLimits s (F.finish o s') :=
  ⟨F.limits_finish.1.trans h.1, F.limits_finish.2.trans h.2⟩

theorem look_line (hend : F.ending s = none) (hstage : F.stage s = .line) (w : Bytes) :
    F.look s w = F.lookLine s w := by
  rw [FrontParts.look, hend, hstage]

theorem look_packet {step : InitialStep} {packets : InitialPackets} (hend : F.ending s = none)
    (hstage : F.stage s = .packets) (hstep : (F.packets s).step w = .ok (step, packets)) :
    F.look s w = F.lookStep s packets step := by
  rw [FrontParts.look, hend, hstage]
  simp only [FrontParts.lookPacket, hstep]

/-- Inversion of a look that found something: there is an outcome, or it is a line or a packet. -/
theorem look_found {l : Look σ ε ν} (h : F.look s w = l) (hl : l ≠ .needMore) :
    (∃ o, F.ending s = some o ∧ .finished (F.fixed o) 0 = l) ∨
      F.ending s = none ∧ (F.stage s = .line ∧ F.lookLine s w = l ∨
        F.stage s = .packets ∧ ∃ step packets, (F.packets s).step w = .ok (step, packets) ∧
          F.lookStep s packets step = l) := by
  cases hend : F.ending s with
  | some o =>
    rw [FrontParts.look, hend] at h
    exact .inl ⟨o, rfl, h⟩
  | none =>
    refine .inr ⟨rfl, ?_⟩
    cases hstage : F.stage s with
    | line => exact .inl ⟨rfl, (look_line hend hstage w).symm.trans h⟩
    | packets =>
      obtain ⟨step, packets, hstep, -⟩ := (F.packets s).step_returns w
      exact .inr ⟨rfl, step, packets, hstep, (look_packet hend hstage hstep).symm.trans h⟩
    | finished =>
      rw [FrontParts.look, hend, hstage] at h
      exact absurd h.symm hl

/-- What events have in common: the limits stay, the machine is settled and has not overflowed, and
some of the bytes are used up. -/
theorem look_event (h : F.look s w = .event e s' n) : F.SameLimits s s' ∧
    (F.Settled s → F.Settled s') ∧ (F.ending s').bind F.overflow? = none ∧ 1 ≤ n ∧
      n ≤ w.length := by
  obtain ⟨o, -, hlook⟩ | ⟨hend, ⟨hstage, hlook⟩ | ⟨-, step, packets, hstep, hlook⟩⟩ :=
    look_found h nofun
  · cases hlook
  · obtain ⟨hlimits, ⟨hopen, hnone⟩ | ⟨hclosed, o, hsome, hfits⟩, huses⟩ :=
      F.lookLine_event hstage hend hlook
    · refine ⟨hlimits, fun _ => ?_, by rw [hnone]; rfl, huses⟩
      rw [FrontParts.Settled, hnone]
      exact ⟨fun h => absurd h hopen, nofun⟩
    · refine ⟨hlimits, fun _ => ?_, by rw [hsome]; exact hfits, huses⟩
      rw [FrontParts.Settled, hclosed, hsome]
      exact ⟨fun _ => rfl, fun _ => rfl⟩
  · have hcase := InitialPackets.step_cases hstep
    cases step with
    | skipped =>
      cases hlook
      refine ⟨sameLimits_withPackets hcase.limits_eq, fun hs => ?_, ?_, hcase.skipped_pos rfl,
        hcase.consumed_le⟩
      · rwa [FrontParts.Settled, F.stage_withPackets, F.ending_withPackets]
      · rw [F.ending_withPackets, hend]
        rfl
    | _ => cases hlook

/-- A verdict is about bytes that are held, and is no overflow unless there was one. -/
theorem look_finished (h : F.look s w = .finished v n) : n ≤ w.length ∧
    ((F.ending s).bind F.overflow? = none → ∀ rest, F.overflow? (F.outcome v rest) = none) := by
  obtain ⟨o, hend, hlook⟩ | ⟨-, ⟨-, hlook⟩ | ⟨-, step, packets, hstep, hlook⟩⟩ :=
    look_found h nofun
  · cases hlook
    refine ⟨Nat.zero_le _, fun hfits rest => ?_⟩
    rw [F.outcome_fixed]
    rwa [hend] at hfits
  · obtain ⟨hle, hfits⟩ := F.lookLine_finished hlook
    exact ⟨hle, fun _ => hfits⟩
  · have hcase := InitialPackets.step_cases hstep
    cases step with
    | kexInit =>
      cases hlook
      refine ⟨hcase.consumed_le, fun _ rest => ?_⟩
      rw [F.outcome_proposed, F.overflow_proposal]
    | disconnect =>
      cases hlook
      refine ⟨hcase.consumed_le, fun _ rest => ?_⟩
      rw [F.outcome_fixed, F.overflow_disconnected]
    | error e =>
      cases hlook
      refine ⟨Nat.zero_le _, fun _ rest => ?_⟩
      rw [F.outcome_fixed, F.overflow_error]
      -- a decoder does not fill the buffer
      cases e with
      | inputOverflow e => exact absurd rfl (hcase.ne_inputOverflow e)
      | _ => rfl
    | _ => cases hlook

/-- More input changes no packet that was found. -/
theorem lookPacket_append (hlook : F.lookPacket s w ≠ .needMore) (d : Bytes) :
    F.lookPacket s (w ++ d) = F.lookPacket s w := by
  obtain ⟨step, _, hstep, -⟩ := (F.packets s).step_returns w
  have hfound : step ≠ .needMore := by
    rintro rfl
    apply hlook
    rw [FrontParts.lookPacket, hstep]
    rfl
  rw [FrontParts.lookPacket, FrontParts.lookPacket, InitialPackets.step_append hstep hfound d,
    hstep]

/-- **The looks are steady.** -/
theorem look_steady (F : Front μ σ ε ν ω) :
    Steady F.look fun s => 4 ≤ (F.ident s).limits.maxLine where
  fits {s w} hs := by
    cases hlook : F.look s w with
    | needMore => trivial
    | event =>
      obtain ⟨hlimits, -, -, hpos, hle⟩ := look_event hlook
      refine ⟨?_, hpos, hle⟩
      show 4 ≤ _
      rwa [hlimits.1]
    | finished => exact (look_finished hlook).1
  append {s w} hs hlook d := by
    rw [FrontParts.look] at hlook
    rw [FrontParts.look, FrontParts.look]
    cases hend : F.ending s with
    | some => rfl
    | none =>
      rw [hend] at hlook
      cases hstage : F.stage s with
      | line =>
        rw [hstage] at hlook
        exact F.lookLine_append hs hlook d
      | packets =>
        rw [hstage] at hlook
        exact lookPacket_append hlook d
      | finished => rfl

/-! ### Steps answer by their looks -/

theorem answersBy_finished {x : Checked (Answer ε ω × σ × InputBuffer)} {o : ω} {b' : InputBuffer}
    (ho : F.outcome v (b.buf.drop n) = o) (hx : x = .ok (.finished o, F.finish o s', b'))
    (hlimits : F.SameLimits s s') (hcapacity : b'.capacity = b.capacity) :
    F.AnswersBy s b x (.finished v n) := by
  subst ho
  exact ⟨_, b', hx, F.ending_finish, F.stage_finish, sameLimits_finish hlimits, hcapacity⟩

/-- The search for a packet answers what the look at the bytes held says. -/
theorem stepPacket_look (hend : F.ending s = none) :
    F.AnswersBy s b (F.stepPacket s b) (F.lookPacket s b.buf) := by
  obtain ⟨step, packets, hstep, hcase⟩ := (F.packets s).step_returns b.buf
  have hle := hcase.consumed_le
  have hlimits := sameLimits_withPackets (F := F) (s := s) hcase.limits_eq
  obtain ⟨b', hb⟩ := consume_returns hle
  have hcapacity := (consume_ok_iff.mp hb).2.2
  rw [FrontParts.stepPacket, FrontParts.lookPacket, hstep, Checked.ok_bind]
  cases step with
  | needMore =>
    obtain ⟨rfl, -⟩ := hcase.of_needMore rfl
    refine ⟨?_, hend⟩
    change Except.ok (_, F.withPackets _ s, b) = _
    rw [F.withPackets_self]
  | skipped =>
    simp only [InitialStep.consumed] at hb
    simp only [hb, Checked.ok_bind]
    exact ⟨b', hb, rfl⟩
  | kexInit =>
    simp only [InitialStep.consumed] at hb hle
    simp only [Checked.sub_ok hle, hb, Checked.ok_bind, ← List.length_drop]
    exact answersBy_finished F.outcome_proposed rfl hlimits hcapacity
  | disconnect | error =>
    simp only [InitialStep.consumed] at hb
    simp only [hb, Checked.ok_bind]
    exact answersBy_finished F.outcome_fixed rfl hlimits hcapacity

/-- **A step answers by its look.** -/
theorem advance_look (hs : F.Settled s) : F.AnswersBy s b (F.advance s b) (F.look s b.buf) := by
  rw [FrontParts.look, FrontParts.advance]
  cases hend : F.ending s with
  | some =>
    refine ⟨s, b, ?_, ?_, hs.mpr (by rw [hend]; rfl), ⟨rfl, rfl⟩, rfl⟩
    · rw [F.outcome_fixed]
      rfl
    · rw [F.outcome_fixed, hend]
  | none =>
    cases hstage : F.stage s with
    | line => exact F.stepLine_look hend
    | packets => exact stepPacket_look hend
    | finished =>
      have hsome := hs.mp hstage
      rw [hend] at hsome
      cases hsome

/-! ### The machine -/

/-- What holds of a machine after any calls. -/
structure Kept (F : Front μ σ ε ν ω) (lines : IdentLimits) (initial : InitialLimits)
    (capacity : Nat) (m : μ) : Prop where
  settled : F.Settled (F.state m)
  ident : (F.ident (F.state m)).limits = lines
  packets : (F.packets (F.state m)).limits = initial
  capacity : (F.buf m).capacity = capacity

/-- The capacity is above each unit that may have to be waited for. -/
structure Holds (lines : IdentLimits) (initial : InitialLimits) (capacity : Nat) : Prop where
  packet : initial.packet.maxPacketLength.toNat + headerLen ≤ capacity
  line : lines.maxLine ≤ capacity

variable {lines : IdentLimits} {initial : InitialLimits} {capacity : Nat} {m m' : μ}

/-- The machine steps as `advance` does. -/
theorem machine_step {answer : Answer ε ω}
    (h : F.advance (F.state m) (F.buf m) = .ok (answer, s, b)) :
    F.machine.step m = .ok (answer, F.put s b m) := by
  simp only [FrontParts.machine, h]
  rfl

/-- A machine with an outcome stays with it. -/
theorem rests {ending : ω} (hs : F.stage (F.state m) = .finished)
    (h : F.ending (F.state m) = some ending) : F.machine.Rests ending m where
  step := by
    have hadvance :
        F.advance (F.state m) (F.buf m) = .ok (.finished ending, F.state m, F.buf m) := by
      rw [FrontParts.advance, h]
      rfl
    rw [machine_step hadvance, F.put_self]
  inputEnded := by simp only [FrontParts.machine, h]
  feed d := by simp only [FrontParts.machine, if_pos hs]

/-- A machine that stays with an outcome has it. -/
theorem ending_of_rests {ending : ω} (h : F.machine.Rests ending m) :
    F.ending (F.state m) = some ending := by
  have hended := h.inputEnded
  simp only [FrontParts.machine] at hended
  split at hended
  · rename_i e he
    cases hended
    exact he
  · rename_i hnone
    have hsome := congrArg (fun x => F.ending (F.state x.2)) hended
    dsimp only at hsome
    rw [F.state_put, F.ending_finish, hnone] at hsome
    cases hsome

/-- A machine that was finished is kept. -/
theorem Kept.finish {o : ω} (h : F.Kept lines initial capacity m) :
    F.Kept lines initial capacity (F.put (F.finish o (F.state m)) (F.buf m) m) where
  settled := by
    rw [F.state_put, FrontParts.Settled, F.stage_finish, F.ending_finish]
    exact ⟨fun _ => rfl, fun _ => rfl⟩
  ident := by rw [F.state_put, F.limits_finish.1, h.ident]
  packets := by rw [F.state_put, F.limits_finish.2, h.packets]
  capacity := by rw [F.buf_put, h.capacity]

/-- **Every step returns**, and keeps what is kept. -/
theorem Kept.step (h : F.Kept lines initial capacity m) :
    ∃ answer m', F.machine.step m = .ok (answer, m') ∧ F.Kept lines initial capacity m' := by
  have hanswers := advance_look (b := F.buf m) h.settled
  cases hlook : F.look (F.state m) (F.buf m).buf with
  | needMore =>
    rw [hlook] at hanswers
    refine ⟨_, _, machine_step hanswers.1, ?_⟩
    rwa [F.put_self]
  | event =>
    rw [hlook] at hanswers
    obtain ⟨b', hb, hadvance⟩ := hanswers
    obtain ⟨hlimits, hsettled, -⟩ := look_event hlook
    refine ⟨_, _, machine_step hadvance, ?_, ?_, ?_, ?_⟩
    · rw [F.state_put]
      exact hsettled h.settled
    · rw [F.state_put, hlimits.1, h.ident]
    · rw [F.state_put, hlimits.2, h.packets]
    · rw [F.buf_put, (consume_ok_iff.mp hb).2.2, h.capacity]
  | finished =>
    rw [hlook] at hanswers
    obtain ⟨s', b', hadvance, hend, hstage, hlimits, hcapacity⟩ := hanswers
    refine ⟨_, _, machine_step hadvance, ?_, ?_, ?_, ?_⟩
    · rw [F.state_put, FrontParts.Settled, hstage, hend]
      exact ⟨fun _ => rfl, fun _ => rfl⟩
    · rw [F.state_put, hlimits.1, h.ident]
    · rw [F.state_put, hlimits.2, h.packets]
    · rw [F.buf_put, hcapacity, h.capacity]

/-- Every call keeps the configuration and the capacity. -/
theorem Kept.call {c : Machine.Call UInt8 ε ω} (h : F.Kept lines initial capacity m)
    (hcall : F.machine.Calls m c m') : F.Kept lines initial capacity m' := by
  cases c with
  | feed data =>
    cases hcall
    simp only [FrontParts.machine]
    split
    · exact h
    · split
      · rename_i b hpush
        refine ⟨?_, ?_, ?_, ?_⟩
        · rw [F.state_put]
          exact h.settled
        · rw [F.state_put, h.ident]
        · rw [F.state_put, h.packets]
        · rw [F.buf_put, (push_ok_iff.mp hpush).2.2, h.capacity]
      · exact h.finish
  | step =>
    obtain ⟨_, _, hstep, hkept⟩ := h.step
    cases hstep.symm.trans hcall
    exact hkept
  | inputEnded =>
    simp only [Machine.Calls, FrontParts.machine] at hcall
    split at hcall
    · cases hcall
      exact h
    · cases hcall
      exact h.finish

/-- A machine that asks for more has room for it. -/
theorem Kept.room (hholds : Holds lines initial capacity) (h : F.Kept lines initial capacity m)
    (hlook : F.look (F.state m) (F.buf m).buf = .needMore) : (F.buf m).buf.length < capacity := by
  rw [FrontParts.look] at hlook
  split at hlook
  · cases hlook
  rename_i hend
  split at hlook
  · have hshort := F.lookLine_needMore hlook
    rw [h.ident] at hshort
    exact Nat.lt_of_lt_of_le hshort hholds.line
  · obtain ⟨step, _, hstep, hcase⟩ := (F.packets (F.state m)).step_returns (F.buf m).buf
    rw [FrontParts.lookPacket, hstep] at hlook
    cases step with
    | needMore =>
      obtain ⟨-, t, hneed⟩ := hcase.of_needMore rfl
      rw [h.packets] at hneed
      exact Nat.lt_of_lt_of_le (initialDecision_needMore hneed) hholds.packet
    | _ => cases hlook
  · rename_i hstage
    have hsome := h.settled.mp hstage
    rw [hend] at hsome
    cases hsome

/-- **The machine answers by its looks.** -/
theorem machine_implements (F : Front μ σ ε ν ω) (hholds : Holds lines initial capacity) :
    Implements F.machine F.look F.outcome F.ended F.state (fun m => (F.buf m).buf)
      (F.Kept lines initial capacity) where
  needMore {m} hm hlook := by
    have hanswers := advance_look (b := F.buf m) hm.settled
    rw [hlook] at hanswers
    rw [machine_step hanswers.1, F.put_self]
  event {m e s n} hm hlook := by
    have hanswers := advance_look (b := F.buf m) hm.settled
    rw [hlook] at hanswers
    obtain ⟨b', hb, hadvance⟩ := hanswers
    have hstep := machine_step hadvance
    refine ⟨_, hstep, hm.call (c := .step (.event e)) hstep, F.state_put, ?_⟩
    rw [F.buf_put]
    exact (consume_ok_iff.mp hb).2.1
  finished {m v n} hm hlook := by
    have hanswers := advance_look (b := F.buf m) hm.settled
    rw [hlook] at hanswers
    obtain ⟨s', b', hadvance, hend, hstage, -⟩ := hanswers
    refine ⟨_, machine_step hadvance, rests ?_ ?_⟩
    · rw [F.state_put, hstage]
    · rw [F.state_put, hend]
  feed {m d} hm hlook hroom := by
    have hanswers := advance_look (b := F.buf m) hm.settled
    rw [hlook] at hanswers
    have hstage : F.stage (F.state m) ≠ .finished :=
      mt hm.settled.mp (by rw [hanswers.2]; exact Bool.false_ne_true)
    obtain ⟨b, hpush⟩ := push_fits (b := F.buf m) hroom
    have hfeed : F.machine.feed d m = F.put (F.state m) b m := by
      simp only [FrontParts.machine, if_neg hstage, hpush]
    refine ⟨hm.call (c := .feed d) rfl, ?_, ?_⟩
    · rw [hfeed, F.state_put]
    · rw [hfeed, F.buf_put]
      exact (push_ok_iff.mp hpush).2.1
  ended {m} hm hlook := by
    have hanswers := advance_look (b := F.buf m) hm.settled
    rw [hlook] at hanswers
    have hended : F.machine.inputEnded m = (F.eof (F.state m) (F.buf m).buf.length,
        F.put (F.finish (F.eof (F.state m) (F.buf m).buf.length) (F.state m)) (F.buf m) m) := by
      simp only [FrontParts.machine, hanswers.2]
    rw [F.outcome_ended]
    refine ⟨_, hended, rests ?_ ?_⟩
    · rw [F.state_put, F.stage_finish]
    · rw [F.state_put, F.ending_finish]
  room {m} hm hlook := by
    have hlt := hm.room hholds hlook
    change 1 ≤ (F.buf m).capacity - (F.buf m).buf.length
    rw [hm.capacity]
    omega

end Front

end Tatami.Tcp
