import Tatami.Connection.Invariant

/-! # Stale handles

A handle names a slot and the generation of its channel. When the channel is resolved, the slot's
generation moves on, and the handle is dead: it finds nothing, and every command with it is rejected
as stale. The generation has 32 bits and wraps, and an incoming open that is refused uses a slot but
no local number, so a slot can be reused without end. `dead_iff_few_reuses` says when a dead handle
stays dead: as long as its slot is reused fewer than `2 ^ 32` times. -/

namespace Tatami.Connection

open Tatami OpeningEngine
open Tatami.Wire (ChannelOpen ChannelOpenConfirmation ChannelOpenFailure)

/-! ### Dead handles -/

/-- The handle finds nothing, and every command with it is rejected as stale and changes nothing. -/
structure Dead (e : OpeningEngine) (h : ChannelHandle) : Prop where
  phase : e.phase h = none
  cancel : e.cancel h = .ok (.error .stale, e)
  accept : ∀ params, e.accept h params = .ok (.error .stale, e)
  refuse : ∀ reasonCode description, e.refuse h reasonCode description = .ok (.error .stale, e)

/-- A handle is dead if it finds nothing. -/
theorem dead_iff {e : OpeningEngine} {h : ChannelHandle} : Dead e h ↔ e.slab.get h = none := by
  constructor
  · intro hdead
    exact Option.map_eq_none_iff.mp hdead.phase
  · intro hget
    refine ⟨?_, ?_, fun params => ?_, fun reasonCode description => ?_⟩
    · rw [phase, hget]
      rfl
    · rw [cancel, hget]
      rfl
    · rw [accept, hget]
      rfl
    · rw [refuse, hget]
      rfl

/-- The call resolved the channel of a handle: it was cancelled, refused, refused by the peer, or
lost. -/
inductive Resolves (e : OpeningEngine) (h : ChannelHandle) : Happening → Prop where
  | cancelled (queued : List Outgoing) : Resolves e h ⟨.cancel h, .done (.ok ()), queued⟩
  | refused (reasonCode : UInt32) (description : Bytes) (queued : List Outgoing) :
      Resolves e h ⟨.refuse h reasonCode description, .done (.ok ()), queued⟩
  | shortage (params : AcceptParams) (queued : List Outgoing)
      (hphase : e.phase h = some .pendingIncoming) :
      Resolves e h ⟨.accept h params, .accepted (.error .stale), queued⟩
  | failed (msg : ChannelOpenFailure) (reasonCode : UInt32) (description languageTag : Bytes)
      (queued : List Outgoing) :
      Resolves e h ⟨.handleOpenFailure msg,
        .handled (.ok (.refused h reasonCode description languageTag)), queued⟩
  | lost (events : List Event) (phase : Phase) (queued : List Outgoing)
      (hmem : .transportLost h phase ∈ events) : Resolves e h ⟨.transportLost, .lost events, queued⟩

/-- The handle a call gave out. -/
def Answer.issued? : Answer → Option ChannelHandle
  | .opened (.ok h) => some h
  | .handled (.ok (.incomingOpen h _ _ _ _)) => some h
  | _ => none

/-- How often a slot was given out in a run. -/
def reuses (index : UInt32) (happenings : List Happening) : Nat :=
  happenings.countP fun h => h.answer.issued?.any (·.index == index)

/-! ### One slot over a run -/

variable {e e' : OpeningEngine}

/-- What a call can do to one slot. -/
inductive SlotChange (index : UInt32) (a : Answer) (b b' : Slab Channel) : Prop where
  | kept (hissued : a.issued?.any (·.index == index) = false)
      (hentry : (b'.entry index.toNat).isSome = (b.entry index.toNat).isSome)
      (hgeneration : b'.generation index.toNat = b.generation index.toNat)
  | filled (hissued : a.issued?.any (·.index == index) = true)
      (hold : (b.entry index.toNat).isSome = false) (hnew : (b'.entry index.toNat).isSome = true)
      (hgeneration : b'.generation index.toNat = b.generation index.toNat)
  | emptied (hissued : a.issued?.any (·.index == index) = false)
      (hold : (b.entry index.toNat).isSome = true) (hnew : (b'.entry index.toNat).isSome = false)
      (hgeneration : b'.generation index.toNat = b.generation index.toNat + 1)

section SlotChanges

variable {b b' : Slab Channel} {index : UInt32} {a : Answer} {h : ChannelHandle} {c old : Channel}

/-- A channel was entered and its handle given out. -/
theorem SlotChange.of_placed (hp : b.Placed c h b') (hissued : a.issued? = some h) :
    SlotChange index a b b' := by
  by_cases hindex : index = h.index
  · refine .filled ?_ ?_ ?_ (hp.generation_keep _)
    · rw [hissued, hindex]
      simp
    · rw [hindex, hp.vacant]
      rfl
    · rw [hp.entry_eq, hindex, if_pos rfl]
      rfl
  · refine .kept ?_ ?_ (hp.generation_keep _)
    · rw [hissued]
      simpa using fun heq => hindex heq.symm
    · rw [hp.entry_eq, if_neg fun heq => hindex (UInt32.toNat_inj.mp heq)]

theorem SlotChange.of_updated {i : Nat} (hu : b.Updated i old c b') (hissued : a.issued? = none) :
    SlotChange index a b b' := by
  refine .kept (by rw [hissued]; rfl) ?_ (hu.generation_keep _)
  rw [hu.entry_eq]
  split
  · rename_i hi
    rw [hi, hu.entry_old]
    rfl
  · rfl

theorem SlotChange.of_released (hr : b.Released h.index.toNat old b') (hissued : a.issued? = none) :
    SlotChange index a b b' := by
  by_cases hindex : index = h.index
  · refine .emptied (by rw [hissued]; rfl) ?_ ?_ ?_
    · rw [hindex, hr.entry_old]
      rfl
    · rw [hr.entry_eq, hindex, if_pos rfl]
      rfl
    · rw [hr.generation_eq, hindex, if_pos rfl]
  · have hne : index.toNat ≠ h.index.toNat := fun heq => hindex (UInt32.toNat_inj.mp heq)
    refine .kept (by rw [hissued]; rfl) ?_ ?_
    · rw [hr.entry_eq, if_neg hne]
    · rw [hr.generation_eq, if_neg hne]

theorem SlotChange.of_drained {entries : List (Handle × Channel)} (hd : b.Drained entries b')
    (hissued : a.issued? = none) : SlotChange index a b b' := by
  have hgeneration := hd.generation_eq index.toNat
  cases hold : (b.entry index.toNat).isSome with
  | true =>
    rw [if_pos hold] at hgeneration
    exact .emptied (by rw [hissued]; rfl) hold (by rw [hd.entry_eq]; rfl) hgeneration
  | false =>
    rw [if_neg (Bool.eq_false_iff.mp hold)] at hgeneration
    exact .kept (by rw [hissued]; rfl) (by rw [hd.entry_eq, hold]; rfl) hgeneration

theorem SlotChange.refl (hissued : a.issued? = none) : SlotChange index a b b :=
  .kept (by rw [hissued]; rfl) rfl rfl

end SlotChanges

theorem Effect.slotChange {call : Call} {a : Answer} (h : Effect e call a e') (index : UInt32) :
    SlotChange index a e.slab e'.slab := by
  cases h with
  | opened _ _ _ _ _ _ hplaced | incoming _ _ _ _ _ _ hplaced => exact .of_placed hplaced rfl
  | accepted _ _ _ _ _ _ _ _ hupdated | confirmed _ _ _ _ _ _ _ hupdated =>
    exact .of_updated hupdated rfl
  | cancelled _ _ _ _ _ _ hreleased | acceptExhausted _ _ _ _ _ _ _ hreleased
  | refused _ _ _ _ _ _ _ _ hreleased | failed _ _ _ _ _ _ hreleased =>
    exact .of_released hreleased rfl
  | lost _ _ hdrained => exact .of_drained hdrained rfl
  | openRejected | cancelRejected | acceptRejected | refuseRejected | openDuplicate | openRefused
  | confirmationRejected | confirmedLate | failureRejected | failedLate | took => exact .refl rfl

/-- What a slot looks like after it was given out so many times since the handle was resolved. -/
def Tracked (h : ChannelHandle) (r : Nat) (b : Slab Channel) : Prop :=
  if (b.entry h.index.toNat).isSome then
    1 ≤ r ∧ b.generation h.index.toNat = h.generation + UInt32.ofNat r
  else b.generation h.index.toNat = h.generation + UInt32.ofNat (r + 1)

variable {h : ChannelHandle} {r : Nat} {b b' : Slab Channel}

/-- A call keeps track of the slot of a handle. -/
theorem Tracked.step {a : Answer} (ht : Tracked h r b) (hc : SlotChange h.index a b b') :
    Tracked h (r + if a.issued?.any (·.index == h.index) then 1 else 0) b' := by
  rw [Tracked] at ht ⊢
  cases hc with
  | kept hissued hentry hgeneration =>
    rw [hissued, hentry, hgeneration]
    exact ht
  | filled hissued hold hnew hgeneration =>
    rw [if_neg (Bool.eq_false_iff.mp hold)] at ht
    rw [if_pos hnew, if_pos hissued, hgeneration]
    exact ⟨Nat.le_add_left 1 r, ht⟩
  | emptied hissued hold hnew hgeneration =>
    rw [if_pos hold] at ht
    rw [if_neg (Bool.eq_false_iff.mp hnew), if_neg (Bool.eq_false_iff.mp hissued), hgeneration,
      ht.2,
      Nat.add_zero, UInt32.ofNat_add, UInt32.add_assoc]
    rfl

/-- A resolved handle's slot was just emptied. -/
theorem Resolves.tracked {happening : Happening} (hr : Resolves e h happening) (hs : Sound e)
    (hcalls : Calls e happening e') :
    (e'.slab.entry h.index.toNat).isSome = false ∧ Tracked h 0 e'.slab := by
  -- the handle found its channel, and the slot was emptied
  suffices hemptied : ∃ c, e.slab.get h = some c ∧ e'.slab.entry h.index.toNat = none ∧
      e'.slab.generation h.index.toNat = e.slab.generation h.index.toNat + 1 by
    obtain ⟨c, hget, hentry, hgeneration⟩ := hemptied
    have hold : e.slab.generation h.index.toNat = h.generation := by
      rw [Slab.generation, Slab.get_eq_some_iff.mp hget]
      rfl
    rw [Tracked, hentry, hgeneration, hold]
    exact ⟨rfl, rfl⟩
  have hreleased {c : Channel} {slab : Slab Channel} (hr : e.slab.Released h.index.toNat c slab) :
      slab.entry h.index.toNat = none ∧
        slab.generation h.index.toNat = e.slab.generation h.index.toNat + 1 := by
    rw [hr.entry_eq, hr.generation_eq, if_pos rfl, if_pos rfl]
    exact ⟨rfl, rfl⟩
  have heffect := effect_of_call hs hcalls.1
  cases hr with
  | cancelled =>
    cases heffect with
    | cancelled _ _ _ _ _ hget hr => exact ⟨_, hget, hreleased hr⟩
  | refused reasonCode description =>
    cases heffect with
    | refused _ _ _ _ _ _ _ hget hr =>
      exact ⟨_, hget, hreleased hr⟩
  | shortage params _ hphase =>
    cases heffect with
    | acceptExhausted _ _ _ _ _ hget _ hr => exact ⟨_, hget, hreleased hr⟩
    | acceptRejected _ _ _ hnot =>
      obtain ⟨c, hget, hc⟩ := Option.map_eq_some_iff.mp hphase
      cases c with
      | pendingIncoming => exact absurd hget (hnot _ _ _)
      | pendingOutgoing => cases hc
      | established => cases hc
  | failed msg =>
    cases heffect with
    | failed _ _ _ _ _ hget hr => exact ⟨_, hget, hreleased hr⟩
  | lost _ _ _ hmem =>
    cases heffect with
    | lost _ _ hd =>
      obtain ⟨⟨h', c⟩, hin, hevent⟩ := List.mem_map.mp hmem
      cases hevent
      have hget := (hd.mem_entries h c).mp hin
      refine ⟨c, hget, hd.entry_eq _, ?_⟩
      rw [hd.generation_eq, Slab.entry_of_get hget]
      rfl

/-- A tracked handle finds something exactly if its slot is in use again, after a multiple of
`2 ^ 32` times. -/
theorem Tracked.get_eq_none_iff (ht : Tracked h r b) :
    b.get h = none ↔ ¬((b.entry h.index.toNat).isSome = true ∧ 2 ^ 32 ∣ r) := by
  rw [Tracked] at ht
  cases hentry : b.entry h.index.toNat with
  | none =>
    refine ⟨fun _ hboth => absurd hboth.1 (by decide), fun _ => ?_⟩
    cases hget : b.get h with
    | none => rfl
    | some =>
      rw [Slab.entry_of_get hget] at hentry
      cases hentry
  | some c =>
    rw [hentry, if_pos (show (some c).isSome = true from rfl)] at ht
    have hslot := Slab.slot_of_entry hentry
    have hsame : b.generation h.index.toNat = h.generation ↔ 2 ^ 32 ∣ r := by
      rw [ht.2, ← UInt32.toNat_inj, UInt32.toNat_add, UInt32.toNat_ofNat']
      have hlt := h.generation.toNat_lt
      omega
    rw [← hsame, Slab.get, hslot]
    simp

/-- A slot that was given out last is in use. -/
theorem isSome_of_issued {a : Answer} (hc : SlotChange h.index a b b')
    (hissued : a.issued?.any (·.index == h.index) = true) :
    (b'.entry h.index.toNat).isSome = true := by
  cases hc with
  | kept hnot | emptied hnot => exact absurd (hissued.symm.trans hnot) (by decide)
  | filled _ _ hnew => exact hnew

/-! ### Whole runs -/

section Runs

variable {limits : OpeningLimits} {before later : List Happening} {happening : Happening}
  {e₁ e₂ e₃ : OpeningEngine}

/-- One more call reuses the slot once more exactly if it issues a handle there. -/
theorem reuses_snoc (index : UInt32) (happenings : List Happening) (last : Happening) :
    reuses index (happenings ++ [last]) =
      reuses index happenings + if last.answer.issued?.any (·.index == index) then 1 else 0 := by
  rw [reuses, List.countP_append, List.countP_singleton]
  rfl

/-- The slot of a resolved handle over a run. -/
theorem run_tracked (hs : Sound e₂) (ht : Tracked h 0 e₂.slab) (hrun : Run Calls e₂ later e₃) :
    Sound e₃ ∧ Tracked h (reuses h.index later) e₃.slab := by
  refine hrun.history (I := fun later e => Sound e ∧ Tracked h (reuses h.index later) e.slab)
    ⟨hs, ht⟩ ?_
  rintro later e happening e' ⟨hs, ht⟩ hcalls
  have heffect := effect_of_call hs hcalls.1
  refine ⟨heffect.sound hs, ?_⟩
  rw [reuses_snoc]
  exact ht.step (heffect.slotChange h.index)

/-- Every number of reuses up to the last one is reached right when the slot is given out. -/
theorem exists_reused (hs : Sound e₂) (hrun : Run Calls e₂ later e₃) {k : Nat} (hpos : 1 ≤ k)
    (hk : k ≤ reuses h.index later) :
    ∃ part e, part <+: later ∧ Run Calls e₂ part e ∧ reuses h.index part = k ∧
      (e.slab.entry h.index.toNat).isSome = true := by
  induction hrun with
  | nil => exact absurd hk (by rw [reuses, List.countP_nil]; omega)
  | snoc run last ih =>
    rename_i happenings e e' happening
    by_cases hearlier : k ≤ reuses h.index happenings
    · obtain ⟨part, e'', hpart, hreached, hcount, hused⟩ := ih hearlier
      exact ⟨part, e'', hpart.trans (List.prefix_append _ _), hreached, hcount, hused⟩
    · have hsound : Sound e := run.invariant hs fun hs hstep =>
        (effect_of_call hs hstep.1).sound hs
      rw [reuses_snoc] at hk
      have hissued : happening.answer.issued?.any (·.index == h.index) = true := by
        by_contra hnot
        rw [if_neg hnot] at hk
        omega
      refine ⟨_, e', List.prefix_refl _, run.snoc last, ?_, ?_⟩
      · rw [reuses_snoc]
        rw [if_pos hissued] at hk ⊢
        omega
      · exact isSome_of_issued ((effect_of_call hsound last.1).slotChange h.index) hissued

/-- **Stale handles.** After the channel of a handle was resolved, in a run of any length: the
handle is dead in every later state exactly if its slot was given out fewer than `2 ^ 32` times
since. -/
theorem dead_iff_few_reuses (hmax : limits.maxChannels ≤ 2 ^ 32)
    (hbefore : Run Calls (.new limits) before e₁) (hcalls : Calls e₁ happening e₂)
    (hresolves : Resolves e₁ h happening) (hlater : Run Calls e₂ later e₃) :
    (∀ part e, part <+: later → Run Calls e₂ part e → Dead e h) ↔
      reuses h.index later < 2 ^ 32 := by
  have hs₁ := sound_of_run hmax hbefore
  have hs₂ := (effect_of_call hs₁ hcalls.1).sound hs₁
  obtain ⟨-, ht⟩ := hresolves.tracked hs₁ hcalls
  constructor
  · intro hdead
    by_contra hmany
    obtain ⟨part, e, hpart, hrun, hcount, hused⟩ :=
      exists_reused hs₂ hlater (by decide) (Nat.not_lt.mp hmany)
    have htracked := (run_tracked hs₂ ht hrun).2
    rw [hcount] at htracked
    have hnone := dead_iff.mp (hdead part e hpart hrun)
    exact htracked.get_eq_none_iff.mp hnone ⟨hused, Nat.dvd_refl _⟩
  · intro hfew part e hpart hrun
    have htracked := (run_tracked hs₂ ht hrun).2
    have hle : reuses h.index part ≤ reuses h.index later := hpart.sublist.countP_le
    rw [dead_iff, htracked.get_eq_none_iff]
    rintro ⟨hused, hdvd⟩
    rw [Tracked, if_pos hused] at htracked
    have := Nat.le_of_dvd htracked.1 hdvd
    omega

end Runs

/-! ### A handle that comes back -/

/-- An engine for one channel, whose own open was sent and cancelled, with its slot empty and in
some generation. -/
def vacated (g : UInt32) : OpeningEngine where
  limits := { maxChannels := 1 }
  slab := ⟨[⟨g, none⟩], [0], 0⟩
  nextLocal := 1
  numbersExhausted := false
  tombstones := [⟨0⟩]
  outgoing := []
  pendingOutgoing := 0
  pendingIncoming := 0

/-- The same engine before the open was cancelled. -/
def awaitingReply : OpeningEngine where
  limits := { maxChannels := 1 }
  slab := ⟨[⟨0, some (.pendingOutgoing sessionParams.channelType ⟨0⟩ sessionParams.credit)⟩], [], 1⟩
  nextLocal := 1
  numbersExhausted := false
  tombstones := []
  outgoing := []
  pendingOutgoing := 1
  pendingIncoming := 0

/-- The message that asks for a session channel. -/
def sessionOpen : Outgoing := .openChannel sessionParams.channelType ⟨0⟩ sessionParams.credit []

theorem run_awaitingReply : Run Calls (.new { maxChannels := 1 })
    [⟨.openChannel sessionParams, .opened (.ok ⟨0, 0⟩), [sessionOpen]⟩,
      ⟨.nextOutgoing, .taken (some sessionOpen), []⟩] awaitingReply :=
  .snoc (.snoc .nil ⟨rfl, rfl⟩ : Run Calls (.new { maxChannels := 1 })
    [⟨.openChannel sessionParams, .opened (.ok ⟨0, 0⟩), [sessionOpen]⟩]
    { awaitingReply with outgoing := [sessionOpen] }) ⟨rfl, rfl⟩

/-- The peer's request for its channel zero. -/
def peerOpen : ChannelOpen := ⟨utf8 "session", 0, 0x200000, 0x8000, []⟩

/-- The peer's request is put into the slot. -/
def peerOpened (g : UInt32) : Happening :=
  ⟨.handleOpen peerOpen,
    .handled (.ok (.incomingOpen ⟨0, g⟩ peerOpen.channelType ⟨0⟩ ⟨0x200000, 0x8000⟩ [])), []⟩

/-- The answer to a refused request. -/
def prohibited : Outgoing := .openFailure ⟨0⟩ 1 [] []

/-- The request is refused, and the refusal sent: the slot is used once, no local number is. -/
def refuseRound (g : UInt32) : List Happening :=
  [peerOpened g, ⟨.refuse ⟨0, g⟩ 1 [], .done (.ok ()), [prohibited]⟩,
    ⟨.nextOutgoing, .taken (some prohibited), []⟩]

/-- The engine while the peer's request is pending. -/
def requested (g : UInt32) : OpeningEngine := { vacated g with
  slab := ⟨[⟨g, some (.pendingIncoming peerOpen.channelType ⟨0⟩ ⟨0x200000, 0x8000⟩)⟩], [], 1⟩
  pendingIncoming := 1 }

/-- The peer's request is put into the slot. -/
theorem calls_peerOpened (g : UInt32) : Calls (vacated g) (peerOpened g) (requested g) :=
  ⟨rfl, rfl⟩

/-- A round after a run moves the slot to the next generation. -/
theorem run_refuseRound {e : OpeningEngine} {happenings : List Happening} {g : UInt32}
    (h : Run Calls e happenings (vacated g)) :
    Run Calls e (happenings ++ refuseRound g) (vacated (g + 1)) := by
  have hrefuse : Calls (requested g) ⟨.refuse ⟨0, g⟩ 1 [], .done (.ok ()), [prohibited]⟩
      { vacated (g + 1) with outgoing := [prohibited] } := by
    refine ⟨?_, rfl⟩
    have hget : (requested g).slab.get ⟨0, g⟩ =
        some (.pendingIncoming peerOpen.channelType ⟨0⟩ ⟨0x200000, 0x8000⟩) :=
      Slab.get_eq_some_iff.mpr rfl
    rw [call, refuse, hget]
    rfl
  have hrun := ((h.snoc (calls_peerOpened g)).snoc hrefuse).snoc
    (show Calls { vacated (g + 1) with outgoing := [prohibited] }
      ⟨.nextOutgoing, .taken (some prohibited), []⟩ (vacated (g + 1)) from ⟨rfl, rfl⟩)
  rwa [List.append_assoc, List.append_assoc] at hrun

/-- So many rounds. -/
def refuseRounds : Nat → List Happening
  | 0 => []
  | n + 1 => refuseRounds n ++ refuseRound (1 + UInt32.ofNat n)

/-- The slot goes through its generations. -/
theorem run_refuseRounds (n : Nat) :
    Run Calls (vacated 1) (refuseRounds n) (vacated (1 + UInt32.ofNat n)) := by
  induction n with
  | zero => exact .nil
  | succ n ih =>
    have hrun := run_refuseRound ih
    rwa [UInt32.add_assoc, show UInt32.ofNat n + 1 = UInt32.ofNat (n + 1) by
      rw [UInt32.ofNat_add]; rfl] at hrun

/-- **A stale handle that comes back.** The channel of the first handle is cancelled, the peer's
requests are refused `2 ^ 32 - 1` times, and the handle then finds the channel of the next request:
it can even be refused through it. -/
theorem stale_handle_finds_new_channel :
    Run Calls (.new { maxChannels := 1 })
      [⟨.openChannel sessionParams, .opened (.ok ⟨0, 0⟩), [sessionOpen]⟩,
        ⟨.nextOutgoing, .taken (some sessionOpen), []⟩] awaitingReply ∧
    Calls awaitingReply ⟨.cancel ⟨0, 0⟩, .done (.ok ()), []⟩ (vacated 1) ∧
    Resolves awaitingReply ⟨0, 0⟩ ⟨.cancel ⟨0, 0⟩, .done (.ok ()), []⟩ ∧
    Run Calls (vacated 1) (refuseRounds (2 ^ 32 - 1) ++ [peerOpened 0]) (requested 0) ∧
    (requested 0).phase ⟨0, 0⟩ = some .pendingIncoming ∧
    (requested 0).refuse ⟨0, 0⟩ 1 [] =
      .ok (.ok (), { vacated 1 with outgoing := [prohibited] }) := by
  refine ⟨run_awaitingReply, ⟨rfl, rfl⟩, .cancelled [], ?_, rfl, rfl⟩
  have hrun := run_refuseRounds (2 ^ 32 - 1)
  rw [show (1 : UInt32) + UInt32.ofNat (2 ^ 32 - 1) = 0 by decide] at hrun
  exact hrun.snoc (calls_peerOpened 0)

/-- After one round the handle is still dead. -/
theorem dead_iff_few_reuses_one_round :
    (∀ part e, part <+: [] ++ refuseRound 1 → Run Calls (vacated 1) part e → Dead e ⟨0, 0⟩) ↔
      reuses 0 ([] ++ refuseRound 1) < 2 ^ 32 :=
  dead_iff_few_reuses (h := ⟨0, 0⟩) (by decide) run_awaitingReply ⟨rfl, rfl⟩ (.cancelled [])
    (run_refuseRound .nil)

end Tatami.Connection
