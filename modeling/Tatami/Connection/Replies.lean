import Tatami.Connection.Exchange
import Tatami.Connection.Handles

/-! # Replies nobody waits for

A reply may name a number that no live channel has and that was not cancelled. The engine then says
whether the reply was meant for an open of the peer (`ReplyToIncoming`) or for nothing at all
(`UnknownRecipient`). It takes a number for one that it never handed out if it is not below the next
number. The next number stops at the last one, so the last number counts as never handed out even
when it was (`told_apart_iff`).

Losing the transport empties the engine but for the tombstones: the open that was cancelled may
still be answered, and the answer is then late. What else holds after the loss is in `LeftEmpty`. -/

namespace Tatami.Connection

open Tatami OpeningEngine
open Tatami.Wire (ChannelOpenConfirmation ChannelOpenFailure)

/-! ### Replies that are rejected -/

/-- Both handlers reject a reply to the number, and change nothing. -/
def Rejects (e : OpeningEngine) (r : UInt32) (v : Violation) : Prop :=
  ∀ c, c.recipient? = some ⟨r⟩ → e.call c = .ok (.handled (.error v), e)

variable {e e' : OpeningEngine} {r : UInt32}

/-- A reply that is not located is rejected. -/
theorem rejects_of_locateReply {v : Violation} (h : e.locateReply r = .error v) :
    Rejects e r v := by
  intro c hc
  cases c with
  | handleOpenConfirmation msg =>
    obtain rfl : msg.recipientChannel = r := congrArg LocalNumber.value (Option.some.inj hc)
    rw [call, handleOpenConfirmation, h]
    rfl
  | handleOpenFailure msg =>
    obtain rfl : msg.recipientChannel = r := congrArg LocalNumber.value (Option.some.inj hc)
    rw [call, handleOpenFailure, h]
    rfl
  | _ => cases hc

/-- A failure that names the number. -/
def failureTo (r : UInt32) : Call := .handleOpenFailure ⟨r, 2, [], []⟩

/-- A reply is rejected for one reason. -/
theorem Rejects.unique {v w : Violation} (hv : Rejects e r v) (hw : Rejects e r w) : v = w := by
  have hsame := (hv (failureTo r) rfl).symm.trans (hw (failureTo r) rfl)
  simpa using hsame

/-- The peer's pending opens are searched for the number. -/
theorem any_pendingFrom_iff :
    (e.slab.slots.any fun slot => slot.state.any fun
      | .pendingIncoming _ n _ => n.value == r
      | _ => false) = true ↔ e.PendingFrom r := by
  rw [List.any_eq_true]
  constructor
  · rintro ⟨slot, hmem, hany⟩
    obtain ⟨c, hstate, hc⟩ := (Option.any_eq_true _ _).mp hany
    obtain ⟨i, hi, rfl⟩ := List.getElem_of_mem hmem
    cases c with
    | pendingIncoming channelType n peer =>
      obtain rfl := beq_iff_eq.mp hc
      refine ⟨i, channelType, peer, ?_⟩
      rw [Slab.entry, List.getElem?_eq_getElem hi]
      exact hstate
    | pendingOutgoing => cases hc
    | established => cases hc
  · rintro ⟨i, channelType, peer, hentry⟩
    refine ⟨_, List.mem_of_getElem? (Slab.slot_of_entry hentry), ?_⟩
    simp

/-- The search for a number that no live channel has. -/
theorem locateSlot_of_unused (hunused : ¬e.Uses ⟨r⟩) :
    locateSlot ⟨r⟩ 0 e.slab.slots = none := by
  have hlocated := located ⟨r⟩ 0 e.slab.slots
  generalize locateSlot ⟨r⟩ 0 e.slab.slots = answer at hlocated
  cases hlocated with
  | absent => rfl
  | pending k _ _ _ h | duplicate k _ _ h =>
    exact absurd ⟨k, _, by rw [Slab.entry, h]; rfl, rfl⟩ hunused

/-- A reply to a number that is neither live nor a tombstone. -/
theorem rejects_of_unused (hunused : ¬e.Uses ⟨r⟩) (htombstone : ⟨r⟩ ∉ e.tombstones) :
    (e.PendingFrom r ∧ e.nextLocal ≤ r → Rejects e r (.replyToIncoming r)) ∧
      (¬(e.PendingFrom r ∧ e.nextLocal ≤ r) → Rejects e r (.unknownRecipient r)) := by
  have hcontains : e.tombstones.contains ⟨r⟩ = false :=
    Bool.eq_false_iff.mpr fun h => htombstone (List.contains_iff_mem.mp h)
  have hpending : ((e.slab.slots.any fun slot => slot.state.any fun
      | .pendingIncoming _ n _ => n.value == r
      | _ => false) && e.nextLocal ≤ r) = true ↔ e.PendingFrom r ∧ e.nextLocal ≤ r := by
    rw [Bool.and_eq_true, any_pendingFrom_iff, decide_eq_true_eq]
  constructor
  · intro h
    refine rejects_of_locateReply ?_
    rw [locateReply, locateSlot_of_unused hunused]
    simp only [hcontains, Bool.false_eq_true, if_false]
    exact if_pos (hpending.mpr h)
  · intro h
    refine rejects_of_locateReply ?_
    rw [locateReply, locateSlot_of_unused hunused]
    simp only [hcontains, Bool.false_eq_true, if_false]
    exact if_neg fun hsome => h (hpending.mp hsome)

section Runs

variable {limits : OpeningLimits} {happenings : List Happening}

/-- What the comparison with the next number says: the number was never handed out, or it is the
last one. -/
theorem nextLocal_le_iff (hrun : Run Calls (.new limits) happenings e) :
    e.nextLocal ≤ r ↔ ⟨r⟩ ∉ queuedNumbers happenings ∨ r.toNat + 1 = 2 ^ 32 := by
  have hexhausted := (queuedNumbers_of_run hrun).2
  have hr := r.toNat_lt
  have hnext := e.nextLocal.toNat_lt
  rw [mem_queuedNumbers hrun, UInt32.le_iff_toNat_le, allocated]
  change _ ↔ ¬r.toNat < _ ∨ _
  cases hnumber : e.numbersExhausted with
  | false =>
    rw [if_neg Bool.false_ne_true]
    omega
  | true =>
    have hlast := hexhausted hnumber
    rw [if_pos rfl]
    omega

/-- `ReplyToIncoming` exactly for a number that was never handed out and that a pending open of the
peer has, and `UnknownRecipient` otherwise. -/
def ToldApart (happenings : List Happening) (e : OpeningEngine) (r : UInt32) : Prop :=
  (⟨r⟩ ∉ queuedNumbers happenings ∧ e.PendingFrom r → Rejects e r (.replyToIncoming r)) ∧
    (¬(⟨r⟩ ∉ queuedNumbers happenings ∧ e.PendingFrom r) → Rejects e r (.unknownRecipient r))

/-- **Replies to nobody.** In every state of every run, for a number that no live channel has and
that is not a tombstone: the two violations are told apart as they should be, unless the number is
the last one, it was handed out, and a pending open of the peer has the same number. -/
theorem told_apart_iff (hrun : Run Calls (.new limits) happenings e) (hunused : ¬e.Uses ⟨r⟩)
    (htombstone : ⟨r⟩ ∉ e.tombstones) :
    ToldApart happenings e r ↔
      ¬(⟨r⟩ ∈ queuedNumbers happenings ∧ r.toNat + 1 = 2 ^ 32 ∧ e.PendingFrom r) := by
  obtain ⟨hincoming, hunknown⟩ := rejects_of_unused hunused htombstone
  rw [nextLocal_le_iff hrun] at hincoming hunknown
  constructor
  · rintro ⟨-, htold⟩ ⟨hmem, hlast, hpending⟩
    -- the engine takes the number for one it never handed out
    have hrejects := htold fun h => h.1 hmem
    cases hrejects.unique (hincoming ⟨hpending, .inr hlast⟩)
  · intro hnot
    refine ⟨fun h => hincoming ⟨h.2, .inl h.1⟩, fun h => hunknown ?_⟩
    rintro ⟨hpending, hnew | hlast⟩
    · exact h ⟨hnew, hpending⟩
    · by_cases hmem : ⟨r⟩ ∈ queuedNumbers happenings
      · exact hnot ⟨hmem, hlast, hpending⟩
      · exact h ⟨hmem, hpending⟩

/-- Replies to the number of the peer's open and to one that nobody has. -/
theorem told_apart_iff_busy :
    (ToldApart busyCalls busy 7 ∧ Rejects busy 7 (.replyToIncoming 7)) ∧
      ToldApart busyCalls busy 5 ∧ Rejects busy 5 (.unknownRecipient 5) := by
  have hunused {r : UInt32} (hr : r ≠ 1) : ¬busy.Uses ⟨r⟩ := by
    rintro ⟨i, c, hc, hn⟩
    match i with
    | 0 =>
      cases hc
      cases hn
    | 1 =>
      cases hc
      exact hr (congrArg LocalNumber.value (Option.some.inj hn)).symm
    | i + 2 => cases hc
  have hincoming : ToldApart busyCalls busy 7 :=
    (told_apart_iff run_busy (hunused (by decide)) (by decide)).mpr
      fun h => absurd h.2.1 (by decide)
  have hunknown : ToldApart busyCalls busy 5 :=
    (told_apart_iff run_busy (hunused (by decide)) (by decide)).mpr
      fun h => absurd h.2.1 (by decide)
  refine ⟨⟨hincoming, hincoming.1 ⟨by decide, 0, _, _, rfl⟩⟩, hunknown, hunknown.2 ?_⟩
  rintro ⟨-, i, _, _, hc⟩
  match i with
  | 0 | 1 => cases hc
  | i + 2 => cases hc

end Runs

/-! ### All numbers used up -/

/-- An engine for one channel whose opens were all refused, as many as its slot's generation. -/
def refusedSoFar (n : UInt32) : OpeningEngine where
  limits := { maxChannels := 1 }
  slab := ⟨[⟨n, none⟩], [0], 0⟩
  nextLocal := n
  numbersExhausted := false
  tombstones := []
  outgoing := []
  pendingOutgoing := 0
  pendingIncoming := 0

/-- A session channel is asked for, and the peer refuses it. -/
def failRound (n : UInt32) : List Happening :=
  [⟨.openChannel sessionParams, .opened (.ok ⟨0, n⟩), [sessionOpenAs n]⟩,
    ⟨.nextOutgoing, .taken (some (sessionOpenAs n)), []⟩,
    ⟨failureTo n, .handled (.ok (.refused ⟨0, n⟩ 2 [] [])), []⟩]

/-- The engine while the peer decides. -/
def askedAs (n : UInt32) : OpeningEngine := { (refusedSoFar n).withNext with
  slab := ⟨[⟨n, some (.pendingOutgoing sessionParams.channelType ⟨n⟩ sessionParams.credit)⟩], [], 1⟩
  pendingOutgoing := 1 }

/-- The engine after the peer refused. -/
def refusedAs (n : UInt32) : OpeningEngine := { (refusedSoFar n).withNext with
  slab := ⟨[⟨n + 1, none⟩], [0], 0⟩ }

theorem calls_refused (n : UInt32) :
    Calls (askedAs n) ⟨failureTo n, .handled (.ok (.refused ⟨0, n⟩ 2 [] [])), []⟩
      (refusedAs n) := by
  refine ⟨?_, rfl⟩
  have hlocate : (askedAs n).locateReply n = .ok (.pending ⟨0, n⟩) := by
    simp [locateReply, locateSlot, askedAs]
  rw [failureTo, call, handleOpenFailure, hlocate]
  rfl

/-- A round uses up one number. -/
theorem run_failRound {e : OpeningEngine} {happenings : List Happening} {n : UInt32}
    (h : Run Calls e happenings (refusedSoFar n)) :
    Run Calls e (happenings ++ failRound n) (refusedAs n) := by
  have hopen : Calls (refusedSoFar n)
      ⟨.openChannel sessionParams, .opened (.ok ⟨0, n⟩), [sessionOpenAs n]⟩
      { askedAs n with outgoing := [sessionOpenAs n] } := by
    refine ⟨?_, rfl⟩
    rw [call, openChannel, allocateNumber_eq]
    rfl
  have htake : Calls { askedAs n with outgoing := [sessionOpenAs n] }
      ⟨.nextOutgoing, .taken (some (sessionOpenAs n)), []⟩ (askedAs n) := ⟨rfl, rfl⟩
  have hrun := ((h.snoc hopen).snoc htake).snoc (calls_refused n)
  rwa [List.append_assoc, List.append_assoc] at hrun

/-- Handing out a number that is not the last one. -/
theorem withNext_eq {e : OpeningEngine} (h : e.nextLocal.toNat + 1 < 2 ^ 32) :
    e.withNext = { e with nextLocal := e.nextLocal + 1, numbersExhausted := false } := by
  rw [withNext, if_pos h, decide_eq_true h, Bool.not_true]

theorem refusedAs_eq {n : UInt32} (h : n.toNat + 1 < 2 ^ 32) :
    refusedAs n = refusedSoFar (n + 1) := by
  rw [refusedAs, withNext_eq h]
  rfl

/-- So many rounds. -/
def failRounds : Nat → List Happening
  | 0 => []
  | n + 1 => failRounds n ++ failRound (UInt32.ofNat n)

/-- Every number is used up in turn. -/
theorem run_failRounds {n : Nat} (h : n + 1 < 2 ^ 32) :
    Run Calls (.new { maxChannels := 1 }) (failRounds (n + 1))
      (refusedSoFar (UInt32.ofNat (n + 1))) := by
  induction n with
  | zero =>
    have hfirst : Run Calls (.new { maxChannels := 1 })
        [⟨.openChannel sessionParams, .opened (.ok ⟨0, 0⟩), [sessionOpenAs 0]⟩,
          ⟨.nextOutgoing, .taken (some (sessionOpenAs 0)), []⟩] (askedAs 0) := run_awaitingReply
    have hrun := hfirst.snoc (calls_refused 0)
    rw [refusedAs_eq (by decide)] at hrun
    exact hrun
  | succ n ih =>
    have hrun := run_failRound (ih (by omega))
    have hto : (UInt32.ofNat (n + 1)).toNat = n + 1 :=
      UInt32.toNat_ofNat_of_lt' (show n + 1 < 2 ^ 32 by omega)
    have hnext : UInt32.ofNat (n + 1) + 1 = UInt32.ofNat (n + 1 + 1) :=
      (UInt32.ofNat_add (n + 1) 1).symm
    rwa [refusedAs_eq (by rw [hto]; exact h), hnext] at hrun

/-- The last number. -/
def lastNumber : UInt32 := 0xffffffff

/-- The peer's request under the last number. -/
def lastRequest : Happening :=
  ⟨.handleOpen ⟨utf8 "session", lastNumber, 0x200000, 0x8000, []⟩,
    .handled (.ok (.incomingOpen ⟨0, 0⟩ (utf8 "session") ⟨lastNumber⟩ ⟨0x200000, 0x8000⟩ [])), []⟩

/-- The engine without a number left, while the peer's request is pending. -/
def lastRequested : OpeningEngine := { refusedAs lastNumber with
  slab := ⟨[⟨0, some (.pendingIncoming (utf8 "session") ⟨lastNumber⟩ ⟨0x200000, 0x8000⟩)⟩], [], 1⟩
  pendingIncoming := 1 }

/-- All numbers are used up, and then the peer asks for a channel. -/
theorem run_lastRequested :
    Run Calls (.new { maxChannels := 1 })
      (failRounds (2 ^ 32 - 1) ++ failRound lastNumber ++ [lastRequest]) lastRequested := by
  have hrun := run_failRound (run_failRounds (n := 2 ^ 32 - 2) (by decide))
  exact hrun.snoc ⟨rfl, rfl⟩

/-- **The last number.** All numbers are handed out and refused, and the peer asks for a channel of
its own under the last of them. A reply to that number is taken for one to the peer's open, although
this engine handed the number out. -/
theorem last_number_not_told_apart :
    Run Calls (.new { maxChannels := 1 })
      (failRounds (2 ^ 32 - 1) ++ failRound lastNumber ++ [lastRequest]) lastRequested ∧
    ⟨lastNumber⟩ ∈
      queuedNumbers (failRounds (2 ^ 32 - 1) ++ failRound lastNumber ++ [lastRequest]) ∧
    ¬lastRequested.Uses ⟨lastNumber⟩ ∧ ⟨lastNumber⟩ ∉ lastRequested.tombstones ∧
    lastRequested.call (failureTo lastNumber) =
      .ok (.handled (.error (.replyToIncoming lastNumber)), lastRequested) := by
  refine ⟨run_lastRequested, ?_, ?_, nofun, rfl⟩
  · rw [mem_queuedNumbers run_lastRequested]
    decide
  · rintro ⟨i, c, hc, hn⟩
    match i with
    | 0 =>
      cases hc
      cases hn
    | i + 1 => cases hc

/-! ### Losing the transport -/

/-- A reply to the number is late: whatever it says, it is reported and uses up the tombstone, but
for a confirmation with a number that another channel of the peer has. -/
structure IsLate (e : OpeningEngine) (r : UInt32) : Prop where
  failure : ∀ msg : ChannelOpenFailure, msg.recipientChannel = r →
    e.call (.handleOpenFailure msg) = .ok
      (.handled (.ok (.lateReply ⟨r⟩ (.refused msg.reasonCode))),
        { e with tombstones := e.tombstones.erase ⟨r⟩ })
  confirmation : ∀ msg : ChannelOpenConfirmation, msg.recipientChannel = r →
    e.peerNumberInUse ⟨msg.senderChannel⟩ = false →
    e.call (.handleOpenConfirmation msg) = .ok (.handled (.ok (.lateReply ⟨r⟩
      (.confirmed ⟨msg.senderChannel⟩ ⟨msg.initialWindowSize, msg.maximumPacketSize⟩))),
      { e with tombstones := e.tombstones.erase ⟨r⟩ })
  duplicate : ∀ msg : ChannelOpenConfirmation, msg.recipientChannel = r →
    e.peerNumberInUse ⟨msg.senderChannel⟩ = true →
    e.call (.handleOpenConfirmation msg) =
      .ok (.handled (.error (.duplicatePeerNumber ⟨msg.senderChannel⟩)), e)

/-- What holds when the transport was lost after a run. -/
structure LeftEmpty (happenings : List Happening) (e : OpeningEngine) : Prop where
  /-- One event for each live channel, in the order of the slots, with its handle and phase. -/
  events : e.transportLost.1 = e.slab.slots.zipIdx.filterMap fun (slot, i) =>
    slot.state.map fun c => .transportLost ⟨UInt32.ofNat i, slot.generation⟩ c.phase
  live : e.transportLost.2.slab.live = 0
  pendingOutgoing : e.transportLost.2.pendingOutgoing = 0
  pendingIncoming : e.transportLost.2.pendingIncoming = 0
  silent : e.transportLost.2.nextOutgoing.1 = none
  stale : ∀ h, Dead e.transportLost.2 h
  /-- From then on, a reply to a number handed out before the loss is late if the number is a
  tombstone, which then was one at the loss, and to nobody if it is none. What a pending open of the
  peer under the last number is taken for is said in `told_apart_iff`. -/
  replies : ∀ later e' r, Run Calls e.transportLost.2 later e' → ⟨r⟩ ∈ queuedNumbers happenings →
    (⟨r⟩ ∈ e'.tombstones → ⟨r⟩ ∈ e.tombstones ∧ IsLate e' r) ∧
    (⟨r⟩ ∉ e'.tombstones → ¬(r = lastNumber ∧ e'.PendingFrom r) →
      Rejects e' r (.unknownRecipient r))
  /-- From then on, a number that is handed out was never used before. -/
  fresh : ∀ later e', Run Calls e.transportLost.2 later e' →
    ∀ n ∈ queuedNumbers later, n ∉ queuedNumbers happenings

section Loss

variable {limits : OpeningLimits} {happenings later : List Happening}

/-- Nothing is live after the loss. -/
theorem entry_transportLost (e : OpeningEngine) (i : Nat) : e.transportLost.2.slab.entry i = none :=
  Slab.entry_drain e.slab i

/-- The loss as a part of the run. -/
theorem run_transportLost (hrun : Run Calls (.new limits) happenings e)
    (hlater : Run Calls e.transportLost.2 later e') :
    Run Calls (.new limits)
      (happenings ++ [⟨.transportLost, .lost e.transportLost.1, []⟩] ++ later) e' :=
  (hrun.snoc ⟨rfl, List.drop_nil.symm⟩).append hlater

/-- The numbers of a run with a loss in it. -/
theorem queuedNumbers_transportLost {events : List Event} :
    queuedNumbers (happenings ++ [⟨.transportLost, .lost events, []⟩] ++ later) =
      queuedNumbers happenings ++ queuedNumbers later := by
  simp [queuedNumbers]

/-- Live channels have numbers from `bound` on, and so have tombstones that are not old ones. -/
structure FreshFrom (bound : Nat) (old : List LocalNumber) (e : OpeningEngine) : Prop where
  uses : ∀ n, e.Uses n → bound ≤ n.value.toNat
  tombstones : ∀ n ∈ e.tombstones, bound ≤ n.value.toNat ∨ n ∈ old
  allocated : bound ≤ e.allocated

/-- New numbers are not below the ones handed out. -/
theorem FreshFrom.step {bound : Nat} {old : List LocalNumber} (h : FreshFrom bound old e)
    (hstep : Step e e') : FreshFrom bound old e' where
  uses n hn := by
    have hnumbering := hstep.numbering
    generalize (e'.outgoing.drop e.outgoing.length).filterMap _ = numbers at hnumbering
    cases hnumbering with
    | same _ _ huses => exact h.uses n (huses n hn)
    | next hnumber _ _ huses =>
      rcases huses n hn with hold | rfl
      · exact h.uses n hold
      · rw [← allocated_of_not_exhausted hnumber]
        exact h.allocated
  tombstones n hn := by
    rcases hstep.tombstones n hn with hold | huses
    · exact h.tombstones n hold
    · exact .inl (h.uses n huses)
  allocated := by
    rw [hstep.numbering.allocated_eq]
    exact Nat.le_trans h.allocated (Nat.le_add_right _ _)

/-- After the loss, what is in use is new, and tombstones that are not are from before. -/
theorem freshFrom_transportLost (hlater : Run Calls e.transportLost.2 later e') :
    FreshFrom e.allocated e.tombstones e' := by
  refine hlater.invariant ⟨?_, fun n hn => .inr hn, Nat.le_refl _⟩
    fun h hcalls => h.step (step_of_call hcalls.1)
  rintro n ⟨i, c, hc, -⟩
  cases (entry_transportLost e i).symm.trans hc

/-- A reply to a tombstone is late. -/
theorem isLate_of_tombstone (hunused : ¬e.Uses ⟨r⟩) (hmem : ⟨r⟩ ∈ e.tombstones) : IsLate e r := by
  have hlocate : e.locateReply r = .ok (.tombstone ⟨r⟩) := by
    rw [locateReply, locateSlot_of_unused hunused]
    exact if_pos (List.contains_iff_mem.mpr hmem)
  refine ⟨?_, ?_, ?_⟩
  · rintro msg rfl
    rw [call, handleOpenFailure, hlocate]
    rfl
  · rintro msg rfl hnew
    rw [call, handleOpenConfirmation, hlocate]
    simp only [hnew]
    rfl
  · rintro msg rfl hused
    rw [call, handleOpenConfirmation, hlocate]
    simp only [hused]
    rfl

/-- **Losing the transport.** After every run: one event for each live channel, empty counters, no
message, no handle alive, and only new numbers from then on. Replies to old numbers are to nobody,
but for those to opens that were cancelled before. -/
theorem left_empty (hrun : Run Calls (.new limits) happenings e) : LeftEmpty happenings e := by
  refine ⟨?_, rfl, rfl, rfl, rfl, fun h => ?_, fun later e' r hlater hmem => ?_,
    fun later e' hlater n hn hmem => ?_⟩
  · change (Slab.drainLoop 0 e.slab.slots).1.map _ = _
    rw [Slab.drainLoop_entries, List.map_filterMap]
    simp only [Option.map_map]
    rfl
  · refine dead_iff.mpr (Option.eq_none_iff_forall_ne_some.mpr fun c hc => ?_)
    cases (entry_transportLost e _).symm.trans (Slab.entry_of_get hc)
  · have hfresh := freshFrom_transportLost hlater
    have hold : ¬e.allocated ≤ r.toNat := Nat.not_le.mpr ((mem_queuedNumbers hrun).mp hmem)
    have hunused : ¬e'.Uses ⟨r⟩ := fun h => hold (hfresh.uses _ h)
    refine ⟨fun hin => ⟨(hfresh.tombstones _ hin).resolve_left hold,
      isLate_of_tombstone hunused hin⟩, fun hout hlast => ?_⟩
    refine (rejects_of_unused hunused hout).2 ?_
    rintro ⟨hpending, hnext⟩
    rw [nextLocal_le_iff (run_transportLost hrun hlater), queuedNumbers_transportLost] at hnext
    rcases hnext with hnew | hmax
    · exact hnew (List.mem_append_left _ hmem)
    · refine hlast ⟨UInt32.toNat_inj.mp ?_, hpending⟩
      rw [lastNumber]
      simp
      omega
  · have hnodup := nodup_queuedNumbers (run_transportLost hrun hlater)
    rw [queuedNumbers_transportLost] at hnodup
    exact (List.nodup_append.mp hnodup).2.2 n hmem n hn rfl

/-- The transport is lost with a cancelled open, one of the peer's and one of our own: the reply to
the first is late, and one to the last is to nobody. -/
theorem left_empty_busy :
    LeftEmpty busyCalls busy ∧
    busy.transportLost.1 =
      [.transportLost ⟨0, 1⟩ .pendingIncoming, .transportLost ⟨1, 0⟩ .pendingOutgoing] ∧
    IsLate busy.transportLost.2 0 ∧ Rejects busy.transportLost.2 1 (.unknownRecipient 1) := by
  have hempty := left_empty run_busy
  refine ⟨hempty, rfl, ((hempty.replies [] _ 0 .nil (by decide)).1 (by decide)).2, ?_⟩
  exact (hempty.replies [] _ 1 .nil (by decide)).2 (by decide) fun h => absurd h.1 (by decide)

/-- **A late reply after the loss.** An open is sent and cancelled, and the transport is lost. The
number is not live and was handed out before, but a reply to it is reported as late. -/
theorem late_reply_after_loss :
    Run Calls (.new { maxChannels := 1 })
      ([⟨.openChannel sessionParams, .opened (.ok ⟨0, 0⟩), [sessionOpen]⟩,
        ⟨.nextOutgoing, .taken (some sessionOpen), []⟩] ++
        [⟨.cancel ⟨0, 0⟩, .done (.ok ()), []⟩]) (vacated 1) ∧
    ⟨0⟩ ∈ queuedNumbers ([⟨.openChannel sessionParams, .opened (.ok ⟨0, 0⟩), [sessionOpen]⟩,
        ⟨.nextOutgoing, .taken (some sessionOpen), []⟩] ++
        [⟨.cancel ⟨0, 0⟩, .done (.ok ()), []⟩]) ∧
    (vacated 1).transportLost = ([], vacated 1) ∧
    (vacated 1).call (failureTo 0) = .ok (.handled (.ok (.lateReply ⟨0⟩ (.refused 2))),
      { vacated 1 with tombstones := [] }) :=
  ⟨run_awaitingReply.snoc ⟨rfl, rfl⟩, by decide, rfl, rfl⟩

end Loss

end Tatami.Connection
