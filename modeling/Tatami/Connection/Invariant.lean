import Tatami.Connection.Numbers
import Tatami.Lib.Run

/-! # The opening engine over whole runs

A run makes any public calls with any arguments, in any order. Whatever the limits, the local
numbers queued in a run are `0, 1, …` in order (`queuedNumbers_of_run`). With at most `2 ^ 32`
channels, in every state the representation invariant holds and every call returns; no number is
used twice, and numbers run out only after the last one (`opening_invariant`). A call that returns
an error leaves the engine as it was, `accept` without a number left apart (`error_atomic`). -/

namespace Tatami.Connection

open Tatami List

/-! ### Runs -/

/-- One call, what it returned, and the messages it queued. -/
structure Happening where
  call : Call
  answer : Answer
  queued : List Outgoing

/-- The engine makes a call. What was queued is what stands behind the old queue. -/
def Calls (e : OpeningEngine) (h : Happening) (e' : OpeningEngine) : Prop :=
  e.call h.call = .ok (h.answer, e') ∧ h.queued = e'.outgoing.drop e.outgoing.length

/-- The local numbers queued in a run. -/
def queuedNumbers (happenings : List Happening) : List LocalNumber :=
  happenings.flatMap fun h => h.queued.filterMap Outgoing.localNumber?

section Runs

variable {limits : OpeningLimits} {happenings : List Happening} {e e' : OpeningEngine}

/-- Every state of a run is sound. -/
theorem sound_of_run (hmax : limits.maxChannels ≤ 2 ^ 32)
    (hrun : Run Calls (.new limits) happenings e) : Sound e :=
  hrun.invariant (sound_new hmax) fun hs hstep => (effect_of_call hs hstep.1).sound hs

/-! ### Local numbers -/

/-- What one call queues: no number, or the next one. -/
theorem Effect.numbers {c : Call} {a : Answer} (h : Effect e c a e') :
    (e'.outgoing.drop e.outgoing.length).filterMap Outgoing.localNumber? = [] ∧
      e'.allocated = e.allocated ∨
    (e'.outgoing.drop e.outgoing.length).filterMap Outgoing.localNumber? = [⟨e.nextLocal⟩] ∧
      e.numbersExhausted = false ∧ e'.allocated = e.allocated + 1 := by
  cases h with
  | opened _ _ _ _ _ hnumber | accepted _ _ _ _ _ _ _ hnumber =>
    refine .inr ⟨?_, hnumber, allocated_withNext hnumber⟩
    rw [drop_left]
    rfl
  | acceptExhausted | refused | openRefused =>
    refine .inl ⟨?_, rfl⟩
    rw [drop_left]
    rfl
  | took =>
    refine .inl ⟨?_, rfl⟩
    rw [drop_eq_nil_of_le (by rw [length_tail]; omega)]
    rfl
  | lost =>
    refine .inl ⟨?_, rfl⟩
    rw [drop_nil]
    rfl
  | _ =>
    refine .inl ⟨?_, rfl⟩
    rw [drop_length]
    rfl

/-- The local numbers queued in a run are `0, 1, …` in order, and they run out at the last one. -/
theorem queuedNumbers_of_run (hrun : Run Calls (.new limits) happenings e) :
    (queuedNumbers happenings = (List.range e.allocated).map fun i => ⟨UInt32.ofNat i⟩) ∧
      (e.numbersExhausted = true → e.nextLocal.toNat + 1 = 2 ^ 32) := by
  refine hrun.history
    (I := fun happenings e =>
      (queuedNumbers happenings = (List.range e.allocated).map fun i => ⟨UInt32.ofNat i⟩) ∧
        (e.numbersExhausted = true → e.nextLocal.toNat + 1 = 2 ^ 32)) ⟨rfl, nofun⟩ ?_
  rintro happenings e ⟨call, answer, queued⟩ e' ⟨hnumbers, hexhausted⟩ ⟨hcall, rfl⟩
  have hnumbering := (step_of_call hcall).numbering
  have hallocated := hnumbering.allocated_eq
  refine ⟨?_, hnumbering.exhausted hexhausted⟩
  rw [queuedNumbers, flatMap_append, flatMap_singleton]
  change queuedNumbers happenings ++ (e'.outgoing.drop e.outgoing.length).filterMap _ = _
  generalize (e'.outgoing.drop e.outgoing.length).filterMap _ = numbers at hnumbering hallocated
  rw [hnumbers, hallocated]
  cases hnumbering with
  | same => rw [append_nil]; rfl
  | next hnumber =>
    rw [length_singleton, range_succ, map_append, map_singleton,
      allocated_of_not_exhausted hnumber, UInt32.ofNat_toNat]

/-- No more numbers are handed out than there are. -/
theorem allocated_le (hexhausted : e.numbersExhausted = true → e.nextLocal.toNat + 1 = 2 ^ 32) :
    e.allocated ≤ 2 ^ 32 := by
  have hlt := e.nextLocal.toNat_lt
  rw [OpeningEngine.allocated]
  split
  · rename_i h
    rw [hexhausted h]
  · omega

/-- The numbers queued in a run are the first ones. -/
theorem mem_queuedNumbers (hrun : Run Calls (.new limits) happenings e) {n : LocalNumber} :
    n ∈ queuedNumbers happenings ↔ n.value.toNat < e.allocated := by
  obtain ⟨hnumbers, hexhausted⟩ := queuedNumbers_of_run hrun
  have hle := allocated_le hexhausted
  rw [hnumbers, mem_map]
  constructor
  · rintro ⟨i, hi, rfl⟩
    rw [mem_range] at hi
    rwa [UInt32.toNat_ofNat_of_lt' (show i < 2 ^ 32 by omega)]
  · intro hlt
    exact ⟨n.value.toNat, mem_range.mpr hlt, by rw [UInt32.ofNat_toNat]⟩

/-- No number is queued twice in a run. -/
theorem nodup_queuedNumbers (hrun : Run Calls (.new limits) happenings e) :
    (queuedNumbers happenings).Nodup := by
  obtain ⟨hnumbers, hexhausted⟩ := queuedNumbers_of_run hrun
  have hle := allocated_le hexhausted
  rw [hnumbers]
  refine List.Nodup.map_on (fun i hi j hj hsame => ?_) nodup_range
  rw [mem_range] at hi hj
  have hvalue := congrArg (fun n => n.value.toNat) hsame
  simp only at hvalue
  rwa [UInt32.toNat_ofNat_of_lt' (show i < 2 ^ 32 by omega),
    UInt32.toNat_ofNat_of_lt' (show j < 2 ^ 32 by omega)] at hvalue

/-- **Representation invariant of the opening engine.** In every state of every run: the counters,
the free list, the limits, the tombstones and the peer numbers are as they should be (`Sound`); no
local number was queued twice; if none is left, all were queued; and no call panics. -/
theorem opening_invariant (hmax : limits.maxChannels ≤ 2 ^ 32)
    (hrun : Run Calls (.new limits) happenings e) :
    Sound e ∧ (queuedNumbers happenings).Nodup ∧
      (e.allocateNumber.1 = .error .numbersExhausted → ∀ n, n ∈ queuedNumbers happenings) ∧
      ∀ c, Checked.Returns (e.call c) := by
  have hs := sound_of_run hmax hrun
  refine ⟨hs, nodup_queuedNumbers hrun, fun hnone n => ?_, fun c => ?_⟩
  · rw [allocateNumber_eq] at hnone
    cases hexhausted : e.numbersExhausted with
    | false =>
      rw [hexhausted] at hnone
      cases hnone
    | true =>
      have hall : e.allocated = 2 ^ 32 := by
        rw [OpeningEngine.allocated, hexhausted, ← hs.exhausted hexhausted]
        rfl
      rw [mem_queuedNumbers hrun, hall]
      exact n.value.toNat_lt
  · obtain ⟨a, _, hcall, -⟩ := call_effect hs c
    exact ⟨_, hcall⟩

/-- The parameters of a session channel. -/
def sessionParams : OpenParams := ⟨utf8 "session", ⟨0x200000, 0x8000⟩, []⟩

/-- An engine that has asked for one session channel and may not ask for another. -/
def askedOnce : OpeningEngine where
  limits := { maxPendingOutgoing := 1 }
  slab := ⟨[⟨0, some (.pendingOutgoing sessionParams.channelType ⟨0⟩ sessionParams.credit)⟩], [], 1⟩
  nextLocal := 1
  numbersExhausted := false
  tombstones := []
  outgoing := [.openChannel sessionParams.channelType ⟨0⟩ sessionParams.credit []]
  pendingOutgoing := 1
  pendingIncoming := 0

theorem run_askedOnce : Run Calls (.new { maxPendingOutgoing := 1 })
    [⟨.openChannel sessionParams, .opened (.ok ⟨0, 0⟩), askedOnce.outgoing⟩] askedOnce :=
  .snoc .nil ⟨rfl, rfl⟩

/-- A session channel that the peer asks for under number 7. -/
def peerSession : Wire.ChannelOpen := ⟨utf8 "session", 7, 0x200000, 0x8000, []⟩

/-- The message that asks for a session channel under a number. -/
def sessionOpenAs (n : UInt32) : Outgoing :=
  .openChannel sessionParams.channelType ⟨n⟩ sessionParams.credit []

/-- An open is sent and cancelled, the peer asks for a channel, and another open is queued. -/
def busyCalls : List Happening :=
  [⟨.openChannel sessionParams, .opened (.ok ⟨0, 0⟩), [sessionOpenAs 0]⟩,
    ⟨.nextOutgoing, .taken (some (sessionOpenAs 0)), []⟩,
    ⟨.cancel ⟨0, 0⟩, .done (.ok ()), []⟩,
    ⟨.handleOpen peerSession, .handled (.ok (.incomingOpen ⟨0, 1⟩ (utf8 "session") ⟨7⟩
      ⟨0x200000, 0x8000⟩ [])), []⟩,
    ⟨.openChannel sessionParams, .opened (.ok ⟨1, 0⟩), [sessionOpenAs 1]⟩]

/-- The engine after these calls. -/
def busy : OpeningEngine where
  limits := {}
  slab := ⟨[⟨1, some (.pendingIncoming (utf8 "session") ⟨7⟩ ⟨0x200000, 0x8000⟩)⟩,
    ⟨0, some (.pendingOutgoing sessionParams.channelType ⟨1⟩ sessionParams.credit)⟩], [], 2⟩
  nextLocal := 2
  numbersExhausted := false
  tombstones := [⟨0⟩]
  outgoing := [sessionOpenAs 1]
  pendingOutgoing := 1
  pendingIncoming := 1

theorem run_busy : Run Calls (.new {}) busyCalls busy :=
  .cons ⟨rfl, rfl⟩ (.cons ⟨rfl, rfl⟩ (.cons ⟨rfl, rfl⟩ (.cons ⟨rfl, rfl⟩ (.cons ⟨rfl, rfl⟩ .nil))))

/-- The invariant with a tombstone and an open pending in each direction. -/
theorem opening_invariant_busy : queuedNumbers busyCalls = [⟨0⟩, ⟨1⟩] ∧ busy.tombstones = [⟨0⟩] ∧
    Sound busy ∧ (queuedNumbers busyCalls).Nodup ∧
    (busy.allocateNumber.1 = .error .numbersExhausted → ∀ n, n ∈ queuedNumbers busyCalls) ∧
    ∀ c, Checked.Returns (busy.call c) :=
  ⟨rfl, rfl, opening_invariant (by decide) run_busy⟩

/-! ### Errors -/

/-- The answer is an error. -/
def Answer.isError : Answer → Bool
  | .opened (.error _) => true
  | .done (.error _) => true
  | .accepted (.error _) => true
  | .handled (.error _) => true
  | _ => false

/-- **Calls are atomic on error.** In every state of every run, a call that returns an error leaves
the whole engine as it was, with one exception: `accept` on a pending incoming open, when no local
number is left, removes exactly that channel and queues exactly one failure that names its peer
number. -/
theorem error_atomic (hmax : limits.maxChannels ≤ 2 ^ 32)
    (hrun : Run Calls (.new limits) happenings e) {c : Call} {a : Answer}
    (hcall : e.call c = .ok (a, e')) (herror : a.isError = true) :
    e' = e ∧ (∀ h params, c = .accept h params → e.numbersExhausted = true →
      e.phase h ≠ some .pendingIncoming) ∨
    ∃ h params channelType n peer, c = .accept h params ∧ e.numbersExhausted = true ∧
      e.slab.get h = some (.pendingIncoming channelType n peer) ∧
      e' = { e with
        slab := e.slab.without h, pendingIncoming := e.pendingIncoming - 1,
        outgoing := e.outgoing ++
          [.openFailure n resourceShortage (utf8 "channel numbers exhausted") []] } := by
  have hs := sound_of_run hmax hrun
  cases effect_of_call hs hcall with
  | acceptExhausted h params channelType n peer hget hnumber =>
    exact .inr ⟨h, params, channelType, n, peer, rfl, hnumber, hget, rfl⟩
  | acceptRejected _ _ _ hnot =>
    refine .inl ⟨rfl, fun h' params' hcall' _ hphase => ?_⟩
    cases hcall'
    obtain ⟨c, hget, hc⟩ := Option.map_eq_some_iff.mp hphase
    cases c with
    | pendingIncoming => exact hnot _ _ _ hget
    | pendingOutgoing => cases hc
    | established => cases hc
  | openRejected | cancelRejected | refuseRejected | openDuplicate | confirmationRejected
  | failureRejected => exact .inl ⟨rfl, nofun⟩
  | _ => cases herror

/-- A second open is rejected, and nothing changes. -/
theorem error_atomic_second_open :
    askedOnce.call (.openChannel sessionParams) =
      .ok (.opened (.error .tooManyPendingOutgoing), askedOnce) ∧
    (askedOnce = askedOnce ∧ (∀ h params, Call.openChannel sessionParams = .accept h params →
      askedOnce.numbersExhausted = true → askedOnce.phase h ≠ some .pendingIncoming) ∨
    ∃ h params channelType n peer, Call.openChannel sessionParams = .accept h params ∧
      askedOnce.numbersExhausted = true ∧
      askedOnce.slab.get h = some (.pendingIncoming channelType n peer) ∧
      askedOnce = { askedOnce with
        slab := askedOnce.slab.without h, pendingIncoming := askedOnce.pendingIncoming - 1,
        outgoing := askedOnce.outgoing ++
          [.openFailure n resourceShortage (utf8 "channel numbers exhausted") []] }) :=
  ⟨rfl, error_atomic (by decide) run_askedOnce rfl rfl⟩

end Runs

end Tatami.Connection
