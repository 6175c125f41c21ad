import Tatami.Connection.Effects

/-! # Local numbers, whatever the limits

The representation invariant needs at most `2 ^ 32` channels: with more of them, handles repeat.
What a call does to local numbers does not depend on handles. `Step` says it for every engine and
every call that returned:

* a call queues no number or exactly the next one, and hands it out (`Numbering`);
* a live channel keeps its number, or has the one just handed out;
* a tombstone is an old one, or the number of a channel that was live. -/

namespace Tatami.Connection

open Tatami OpeningEngine Checked
open Tatami.Wire (ChannelOpen ChannelOpenConfirmation ChannelOpenFailure)

/-- The local number a message makes known. -/
def Outgoing.localNumber? : Outgoing → Option LocalNumber
  | .openChannel _ n _ _ => some n
  | .openConfirmation _ n _ _ => some n
  | .openFailure .. => none

/-- A live channel has the local number. -/
def OpeningEngine.Uses (e : OpeningEngine) (n : LocalNumber) : Prop :=
  ∃ i c, e.slab.entry i = some c ∧ c.localNumber? = some n

/-- An open of the peer with this number is pending. -/
def OpeningEngine.PendingFrom (e : OpeningEngine) (r : UInt32) : Prop :=
  ∃ i channelType peer, e.slab.entry i = some (.pendingIncoming channelType ⟨r⟩ peer)

variable {e e' : OpeningEngine}

/-- How the next number changed, given the numbers queued. -/
inductive Numbering (e e' : OpeningEngine) : List LocalNumber → Prop where
  | same (hnext : e'.nextLocal = e.nextLocal)
      (hexhausted : e'.numbersExhausted = e.numbersExhausted)
      (huses : ∀ n, e'.Uses n → e.Uses n) : Numbering e e' []
  | next (hnumber : e.numbersExhausted = false) (hnext : e'.nextLocal = e.withNext.nextLocal)
      (hexhausted : e'.numbersExhausted = e.withNext.numbersExhausted)
      (huses : ∀ n, e'.Uses n → e.Uses n ∨ n = ⟨e.nextLocal⟩) :
      Numbering e e' [⟨e.nextLocal⟩]

/-- What a call can do to local numbers. -/
structure Step (e e' : OpeningEngine) : Prop where
  tombstones : ∀ n ∈ e'.tombstones, n ∈ e.tombstones ∨ e.Uses n
  numbering : Numbering e e' ((e'.outgoing.drop e.outgoing.length).filterMap Outgoing.localNumber?)

/-! ### Each call -/

variable {handle : ChannelHandle} {i : Nat}

/-- The numbers in use after one place got another entry. -/
theorem uses_cases {state : Option Channel} {n : LocalNumber}
    (hentry : ∀ j, e'.slab.entry j = if j = i then state else e.slab.entry j) (h : e'.Uses n) :
    e.Uses n ∨ ∃ c, state = some c ∧ c.localNumber? = some n := by
  obtain ⟨j, c, hc, hn⟩ := h
  rw [hentry] at hc
  split at hc
  · exact .inr ⟨c, hc, hn⟩
  · exact .inl ⟨j, c, hc, hn⟩

/-- The numbers in use after a channel without a local number came or went. -/
theorem uses_of_entry {state : Option Channel} {n : LocalNumber}
    (hentry : ∀ j, e'.slab.entry j = if j = i then state else e.slab.entry j)
    (hstate : ∀ c, state = some c → c.localNumber? = none) (h : e'.Uses n) : e.Uses n := by
  rcases uses_cases hentry h with hold | ⟨c, hc, hn⟩
  · exact hold
  · rw [hstate c hc] at hn
    cases hn

/-- The numbers in use after a channel went. -/
theorem uses_of_removed {n : LocalNumber}
    (hentry : ∀ j, e'.slab.entry j = if j = i then none else e.slab.entry j) (h : e'.Uses n) :
    e.Uses n :=
  uses_of_entry hentry (fun _ hc => by cases hc) h

/-- The numbers in use after a channel with a local number came. -/
theorem uses_of_numbered {c : Channel} {n number : LocalNumber}
    (hentry : ∀ j, e'.slab.entry j = if j = i then some c else e.slab.entry j)
    (hnumber : c.localNumber? = some number) (h : e'.Uses n) : e.Uses n ∨ n = number := by
  rcases uses_cases hentry h with hold | ⟨c, ⟨⟩, hc⟩
  · exact .inl hold
  · rw [hnumber] at hc
    cases hc
    exact .inr rfl

theorem uses_of_get {h : ChannelHandle} {c : Channel} {n : LocalNumber}
    (hget : e.slab.get h = some c) (hn : c.localNumber? = some n) : e.Uses n :=
  ⟨_, c, Slab.entry_of_get hget, hn⟩

/-- Nothing was handed out, and messages without a number were queued. -/
theorem Numbering.queued {messages : List Outgoing} (hnext : e'.nextLocal = e.nextLocal)
    (hexhausted : e'.numbersExhausted = e.numbersExhausted)
    (huses : ∀ n, e'.Uses n → e.Uses n) (houtgoing : e'.outgoing = e.outgoing ++ messages)
    (hnone : messages.filterMap Outgoing.localNumber? = []) :
    Numbering e e' ((e'.outgoing.drop e.outgoing.length).filterMap Outgoing.localNumber?) := by
  rw [houtgoing, List.drop_left, hnone]
  exact .same hnext hexhausted huses

/-- Nothing was handed out, and nothing queued. -/
theorem Numbering.quiet (hnext : e'.nextLocal = e.nextLocal)
    (hexhausted : e'.numbersExhausted = e.numbersExhausted)
    (huses : ∀ n, e'.Uses n → e.Uses n) (houtgoing : e'.outgoing = e.outgoing) :
    Numbering e e' ((e'.outgoing.drop e.outgoing.length).filterMap Outgoing.localNumber?) :=
  .queued hnext hexhausted huses (houtgoing.trans (List.append_nil _).symm) rfl

/-- A number was handed out and queued. -/
theorem Numbering.announced {message : Outgoing} (hnumber : e.numbersExhausted = false)
    (hnext : e'.nextLocal = e.withNext.nextLocal)
    (hexhausted : e'.numbersExhausted = e.withNext.numbersExhausted)
    (huses : ∀ n, e'.Uses n → e.Uses n ∨ n = ⟨e.nextLocal⟩)
    (houtgoing : e'.outgoing = e.outgoing ++ [message])
    (hmessage : message.localNumber? = some ⟨e.nextLocal⟩) :
    Numbering e e' ((e'.outgoing.drop e.outgoing.length).filterMap Outgoing.localNumber?) := by
  rw [houtgoing, List.drop_left, List.filterMap_cons, hmessage]
  exact .next hnumber hnext hexhausted huses

theorem Step.refl (e : OpeningEngine) : Step e e :=
  ⟨fun _ => .inl, .quiet rfl rfl (fun _ => id) rfl⟩

theorem openChannel_step {params : OpenParams} {r : Except OpenError ChannelHandle}
    (h : e.openChannel params = .ok (r, e')) : Step e e' := by
  rw [openChannel] at h
  by_cases hpending : e.limits.maxPendingOutgoing ≤ e.pendingOutgoing
  · rw [if_pos hpending] at h
    cases h
    exact .refl e
  rw [if_neg hpending] at h
  by_cases hlive : e.limits.maxChannels ≤ e.slab.live
  · rw [if_pos hlive] at h
    cases h
    exact .refl e
  rw [if_neg hlive, allocateNumber_eq] at h
  cases hnumber : e.numbersExhausted with
  | true =>
    rw [hnumber, if_pos rfl] at h
    cases h
    exact .refl e
  | false =>
    rw [hnumber, if_neg Bool.false_ne_true] at h
    obtain ⟨⟨handle, _⟩, hinsert, h⟩ := bind_ok_iff.mp h
    obtain ⟨_, -, h⟩ := bind_ok_iff.mp h
    cases h
    obtain ⟨i, hentry⟩ := Slab.insert_returned hinsert
    exact ⟨fun _ => .inl,
      .announced hnumber rfl rfl (fun n hn => uses_of_numbered hentry rfl hn) rfl rfl⟩

theorem cancel_step {r : Except HandleError Unit} (h : e.cancel handle = .ok (r, e')) :
    Step e e' := by
  rw [cancel] at h
  split at h
  · cases h
    exact .refl e
  · rename_i hget
    obtain ⟨_, hremove, h⟩ := bind_ok_iff.mp h
    obtain ⟨_, -, h⟩ := bind_ok_iff.mp h
    cases h
    have hentry := Slab.remove_returned hremove
    refine ⟨fun m hm => ?_, .quiet rfl rfl (fun _ => uses_of_removed hentry) rfl⟩
    rcases List.mem_append.mp (List.mem_of_mem_drop hm) with hold | hnew
    · exact .inl hold
    · rw [List.mem_singleton.mp hnew]
      exact .inr (uses_of_get hget rfl)
  · cases h
    exact .refl e

theorem refuseWith_step {n : PeerNumber} {reasonCode : UInt32} {description : Bytes}
    (h : e.refuseWith handle n reasonCode description = .ok e') : Step e e' := by
  obtain ⟨_, hremove, h⟩ := bind_ok_iff.mp h
  obtain ⟨_, -, h⟩ := bind_ok_iff.mp h
  cases h
  have hentry := Slab.remove_returned hremove
  exact ⟨fun _ => .inl, .queued rfl rfl (fun _ => uses_of_removed hentry) rfl rfl⟩

theorem accept_step {params : AcceptParams} {r : Except HandleError Event}
    (h : e.accept handle params = .ok (r, e')) : Step e e' := by
  rw [accept] at h
  split at h
  · cases h
    exact .refl e
  · rw [allocateNumber_eq] at h
    cases hnumber : e.numbersExhausted with
    | true =>
      rw [hnumber, if_pos rfl] at h
      obtain ⟨_, hrefuse, h⟩ := bind_ok_iff.mp h
      cases h
      exact refuseWith_step hrefuse
    | false =>
      rw [hnumber, if_neg Bool.false_ne_true] at h
      obtain ⟨_, hset, h⟩ := bind_ok_iff.mp h
      obtain ⟨_, -, h⟩ := bind_ok_iff.mp h
      cases h
      have hentry := Slab.set_returned hset
      exact ⟨fun _ => .inl,
        .announced hnumber rfl rfl (fun n hn => uses_of_numbered hentry rfl hn) rfl rfl⟩
  · cases h
    exact .refl e

theorem refuse_step {reasonCode : UInt32} {description : Bytes} {r : Except HandleError Unit}
    (h : e.refuse handle reasonCode description = .ok (r, e')) : Step e e' := by
  rw [refuse] at h
  split at h
  · cases h
    exact .refl e
  · obtain ⟨_, hrefuse, h⟩ := bind_ok_iff.mp h
    cases h
    exact refuseWith_step hrefuse
  · cases h
    exact .refl e

theorem transportLost_step (e : OpeningEngine) : Step e e.transportLost.2 where
  tombstones _ := .inl
  numbering := by
    change Numbering e _ ((List.drop e.outgoing.length []).filterMap Outgoing.localNumber?)
    rw [List.drop_nil]
    refine .same rfl rfl ?_
    rintro n ⟨i, c, hc, -⟩
    cases (Slab.entry_drain e.slab i).symm.trans hc

theorem handleOpen_step {msg : ChannelOpen} {r : Except Violation Event}
    (h : e.handleOpen msg = .ok (r, e')) : Step e e' := by
  rw [handleOpen] at h
  dsimp only at h
  split at h
  · cases h
    exact .refl e
  split at h
  · cases h
    exact ⟨fun _ => .inl, .queued rfl rfl (fun _ => id) rfl rfl⟩
  · obtain ⟨⟨handle, _⟩, hinsert, h⟩ := bind_ok_iff.mp h
    obtain ⟨_, -, h⟩ := bind_ok_iff.mp h
    cases h
    obtain ⟨i, hentry⟩ := Slab.insert_returned hinsert
    refine ⟨fun _ => .inl, .quiet rfl rfl (fun n => uses_of_entry hentry ?_) rfl⟩
    rintro c ⟨⟩
    rfl

theorem consumeReply_step (e : OpeningEngine) (target : ReplyTarget) :
    Step e (e.consumeReply target) := by
  cases target with
  | pending => exact .refl e
  | tombstone =>
    exact ⟨fun m hm => .inl (List.mem_of_mem_erase hm), .quiet rfl rfl (fun _ => id) rfl⟩

theorem handleOpenConfirmation_step {msg : ChannelOpenConfirmation} {r : Except Violation Event}
    (h : e.handleOpenConfirmation msg = .ok (r, e')) : Step e e' := by
  rw [handleOpenConfirmation] at h
  dsimp only at h
  split at h
  · cases h
    exact .refl e
  split at h
  · cases h
    exact .refl e
  split at h
  · split at h
    · rename_i hget
      obtain ⟨_, hset, h⟩ := bind_ok_iff.mp h
      obtain ⟨_, -, h⟩ := bind_ok_iff.mp h
      cases h
      have hentry := Slab.set_returned hset
      refine ⟨fun _ => .inl, .quiet rfl rfl (fun m hm => ?_) rfl⟩
      rcases uses_of_numbered hentry rfl hm with hold | rfl
      · exact hold
      · exact uses_of_get hget rfl
    · cases h
  · cases h
    exact consumeReply_step e (.tombstone _)

theorem handleOpenFailure_step {msg : ChannelOpenFailure} {r : Except Violation Event}
    (h : e.handleOpenFailure msg = .ok (r, e')) : Step e e' := by
  rw [handleOpenFailure] at h
  split at h
  · cases h
    exact .refl e
  dsimp only at h
  split at h
  · obtain ⟨_, hremove, h⟩ := bind_ok_iff.mp h
    obtain ⟨_, -, h⟩ := bind_ok_iff.mp h
    cases h
    have hentry := Slab.remove_returned hremove
    exact ⟨fun _ => .inl, .quiet rfl rfl (fun _ => uses_of_removed hentry) rfl⟩
  · cases h
    exact consumeReply_step e (.tombstone _)

theorem nextOutgoing_step (e : OpeningEngine) : Step e e.nextOutgoing.2 where
  tombstones _ := .inl
  numbering := by
    change Numbering e _ ((e.outgoing.tail.drop e.outgoing.length).filterMap _)
    rw [List.drop_eq_nil_of_le (by rw [List.length_tail]; omega)]
    exact .same rfl rfl fun _ => id

/-- The step of the function behind a call is that of the call. -/
theorem step_map {α : Type} {x : Checked (α × OpeningEngine)} {f : α → Answer} {a : Answer}
    (hx : ∀ {r}, x = .ok (r, e') → Step e e')
    (h : (fun y => (f y.1, y.2)) <$> x = .ok (a, e')) : Step e e' := by
  obtain ⟨_, hrun, ⟨⟩⟩ := map_ok_iff.mp h
  exact hx hrun

/-- **Every call** that returns is a step. -/
theorem step_of_call {c : Call} {a : Answer} (h : e.call c = .ok (a, e')) : Step e e' := by
  cases c with
  | openChannel => exact step_map openChannel_step h
  | cancel => exact step_map cancel_step h
  | accept => exact step_map accept_step h
  | refuse => exact step_map refuse_step h
  | transportLost =>
    cases h
    exact transportLost_step e
  | handleOpen => exact step_map handleOpen_step h
  | handleOpenConfirmation => exact step_map handleOpenConfirmation_step h
  | handleOpenFailure => exact step_map handleOpenFailure_step h
  | nextOutgoing =>
    cases h
    exact nextOutgoing_step e

/-! ### The numbers handed out -/

theorem Numbering.allocated_eq {numbers : List LocalNumber} (h : Numbering e e' numbers) :
    e'.allocated = e.allocated + numbers.length := by
  cases h with
  | same hnext hexhausted =>
    rw [allocated, hnext, hexhausted]
    rfl
  | next hnumber hnext hexhausted =>
    rw [allocated, hnext, hexhausted]
    exact allocated_withNext hnumber

/-- The numbers run out at the last one. -/
theorem Numbering.exhausted {numbers : List LocalNumber} (h : Numbering e e' numbers)
    (hold : e.numbersExhausted = true → e.nextLocal.toNat + 1 = 2 ^ 32) :
    e'.numbersExhausted = true → e'.nextLocal.toNat + 1 = 2 ^ 32 := by
  cases h with
  | same hnext hexhausted => rwa [hnext, hexhausted]
  | next _ hnext hexhausted =>
    rw [hnext, hexhausted]
    exact exhausted_withNext

end Tatami.Connection
