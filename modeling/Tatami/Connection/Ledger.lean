import Tatami.Connection.Replies
import Tatami.Lib.Lists

/-! # Replies and the history of the opens

The engine keeps only the live channels and a bounded queue of cancelled numbers. What a reply
should mean is a matter of the whole history: which open queued the number, whether it was
cancelled, and whether it was answered before. `Ledger` collects that from the calls and their
answers alone, and `Kept` says what the engine keeps of it:

* the pending outgoing channels are exactly the opens that were neither cancelled nor answered;
* the tombstones are cancelled opens without an answer, in the order of the cancellations, and the
  last `max_tombstones` cancellations are all among them.

From this follows how every reply is classified (`replies_classified`). -/

namespace Tatami.Connection

open Tatami Slab List
open Tatami.Wire (ChannelOpen ChannelOpenConfirmation ChannelOpenFailure)

/-! ### The ledger of a run -/

/-- An open: the number it queued, the handle it returned and its parameters. -/
structure OpenRecord where
  number : LocalNumber
  handle : ChannelHandle
  params : OpenParams
  deriving DecidableEq

/-- What the calls of a run and their answers say about its opens. -/
structure Ledger where
  opens : List OpenRecord
  /-- The numbers of the cancelled opens, in the order of the cancellations. -/
  cancelled : List LocalNumber
  /-- The numbers of the accepted replies, in the order of the replies. -/
  replied : List LocalNumber

namespace Ledger

/-- The last open that returned the handle. -/
def opener? (l : Ledger) (h : ChannelHandle) : Option OpenRecord :=
  l.opens.reverse.find? (·.handle == h)

/-- Enters a call. -/
def enter (l : Ledger) (happening : Happening) : Ledger :=
  match happening.call, happening.answer with
  | .openChannel params, .opened (.ok handle) => { l with
      opens := l.opens ++
        (happening.queued.filterMap Outgoing.localNumber?).map (⟨·, handle, params⟩) }
  | .cancel handle, .done (.ok _) => { l with
      cancelled := l.cancelled ++ ((l.opener? handle).map OpenRecord.number).toList }
  | .handleOpenConfirmation msg, .handled (.ok _) => { l with
      replied := l.replied ++ [⟨msg.recipientChannel⟩] }
  | .handleOpenFailure msg, .handled (.ok _) => { l with
      replied := l.replied ++ [⟨msg.recipientChannel⟩] }
  | _, _ => l

/-- The ledger of a run. -/
def ofRun (happenings : List Happening) : Ledger := happenings.foldl enter ⟨[], [], []⟩

/-- The open was neither cancelled nor answered. -/
def Awaited (l : Ledger) (n : LocalNumber) : Prop := n ∉ l.replied ∧ n ∉ l.cancelled

/-- The cancelled opens without an answer, in the order of the cancellations. -/
def unanswered (l : Ledger) : List LocalNumber := l.cancelled.filter (· ∉ l.replied)

end Ledger

/-! ### What the engine keeps of it -/

/-- What the state of the engine has to do with the ledger. -/
structure Kept (l : Ledger) (e : OpeningEngine) : Prop where
  sound : Sound e
  opens_lt : ∀ o ∈ l.opens, o.number.value.toNat < e.allocated
  cancelled_lt : ∀ n ∈ l.cancelled, n.value.toNat < e.allocated
  replied_lt : ∀ n ∈ l.replied, n.value.toNat < e.allocated
  opens_inj : ∀ o ∈ l.opens, ∀ o' ∈ l.opens, o.number = o'.number → o = o'
  pending_iff : ∀ h channelType n credit,
    e.slab.get h = some (.pendingOutgoing channelType n credit) ↔
      ∃ o ∈ l.opens, l.Awaited o.number ∧ o.handle = h ∧ o.params.channelType = channelType ∧
        o.number = n ∧ o.params.credit = credit
  opener : ∀ o ∈ l.opens, l.Awaited o.number → l.opener? o.handle = some o
  tombstones_sublist : e.tombstones.Sublist l.unanswered
  recent : ∀ before n after, l.cancelled = before ++ n :: after →
    after.length < e.limits.maxTombstones → n ∉ l.replied → n ∈ e.tombstones
  cancelled_nodup : l.cancelled.Nodup
  replied_nodup : l.replied.Nodup

theorem kept_new {limits : OpeningLimits} (h : limits.maxChannels ≤ 2 ^ 32) :
    Kept ⟨[], [], []⟩ (.new limits) where
  sound := sound_new h
  opens_lt := nofun
  cancelled_lt := nofun
  replied_lt := nofun
  opens_inj := nofun
  pending_iff h channelType n credit := ⟨nofun, by rintro ⟨o, ⟨⟩, -⟩⟩
  opener := nofun
  tombstones_sublist := .slnil
  recent before n after h := by
    cases before <;> cases h
  cancelled_nodup := nodup_nil
  replied_nodup := nodup_nil

variable {a : Answer} {channelType : Bytes} {h : ChannelHandle} {credit : Credit} {n : LocalNumber}

section Steps

variable {l : Ledger} {e e' : OpeningEngine}

theorem Kept.exists_open (hk : Kept l e)
    (hget : e.slab.get h = some (.pendingOutgoing channelType n credit)) :
    ∃ o ∈ l.opens, l.Awaited n ∧ o.handle = h ∧ o.params.channelType = channelType ∧
      o.number = n ∧ o.params.credit = credit := by
  obtain ⟨o, ho, hawaited, hhandle, htype, rfl, hcredit⟩ := (hk.pending_iff ..).mp hget
  exact ⟨o, ho, hawaited, hhandle, htype, rfl, hcredit⟩

theorem Kept.get_of_open (hk : Kept l e) {o : OpenRecord} (ho : o ∈ l.opens)
    (hawaited : l.Awaited o.number) :
    e.slab.get o.handle = some (.pendingOutgoing o.params.channelType o.number o.params.credit) :=
  (hk.pending_iff ..).mpr ⟨o, ho, hawaited, rfl, rfl, rfl, rfl⟩

/-- The number of a pending channel is that of the open with its handle. -/
theorem Kept.number_eq (hk : Kept l e) {o : OpenRecord} (ho : o ∈ l.opens)
    (hawaited : l.Awaited o.number)
    (hget : e.slab.get o.handle = some (.pendingOutgoing channelType n credit)) : o.number = n := by
  have hsame := (hk.get_of_open ho hawaited).symm.trans hget
  exact (Channel.pendingOutgoing.inj (Option.some.inj hsame)).2.1

/-- The call said nothing about opens, and the engine kept what it kept. -/
theorem Kept.same (hk : Kept l e) (hsound : Sound e')
    (hpending : ∀ h channelType n credit,
      e'.slab.get h = some (.pendingOutgoing channelType n credit) ↔
        e.slab.get h = some (.pendingOutgoing channelType n credit))
    (htombstones : e'.tombstones = e.tombstones) (hlimits : e'.limits = e.limits)
    (hallocated : e.allocated ≤ e'.allocated) : Kept l e' where
  sound := hsound
  opens_lt o ho := Nat.lt_of_lt_of_le (hk.opens_lt o ho) hallocated
  cancelled_lt n hn := Nat.lt_of_lt_of_le (hk.cancelled_lt n hn) hallocated
  replied_lt n hn := Nat.lt_of_lt_of_le (hk.replied_lt n hn) hallocated
  opens_inj := hk.opens_inj
  pending_iff h channelType n credit :=
    (hpending h channelType n credit).trans (hk.pending_iff h channelType n credit)
  opener := hk.opener
  tombstones_sublist := htombstones ▸ hk.tombstones_sublist
  recent := by
    rw [htombstones, hlimits]
    exact hk.recent
  cancelled_nodup := hk.cancelled_nodup
  replied_nodup := hk.replied_nodup

theorem Kept.opened (hk : Kept l e) {handle : ChannelHandle} {params : OpenParams}
    (hsound : Sound e') (hnumber : e.numbersExhausted = false)
    (hplaced : e.slab.Placed (.pendingOutgoing params.channelType ⟨e.nextLocal⟩ params.credit)
      handle e'.slab)
    (htombstones : e'.tombstones = e.tombstones) (hlimits : e'.limits = e.limits)
    (hallocated : e'.allocated = e.allocated + 1) :
    Kept { l with opens := l.opens ++ [⟨⟨e.nextLocal⟩, handle, params⟩] } e' := by
  have hnext := allocated_of_not_exhausted hnumber
  have hnew (n : LocalNumber) (hn : n.value.toNat < e.allocated) : n ≠ ⟨e.nextLocal⟩ := by
    rintro rfl
    exact absurd hn (by rw [hnext]; exact Nat.lt_irrefl _)
  have hfree : l.Awaited ⟨e.nextLocal⟩ :=
    ⟨fun h => hnew _ (hk.replied_lt _ h) rfl, fun h => hnew _ (hk.cancelled_lt _ h) rfl⟩
  refine ⟨hsound, fun o ho => ?_, fun n hn => ?_, fun n hn => ?_, fun o ho o' ho' hsame => ?_,
    fun h channelType n credit => ?_, fun o ho hawaited => ?_, htombstones ▸ hk.tombstones_sublist,
    by rw [htombstones, hlimits]; exact hk.recent, hk.cancelled_nodup, hk.replied_nodup⟩
  · rcases mem_append.mp ho with hold | hone
    · have := hk.opens_lt o hold
      omega
    · rw [mem_singleton.mp hone, hallocated, hnext]
      exact Nat.lt_succ_self _
  · have := hk.cancelled_lt n hn
    omega
  · have := hk.replied_lt n hn
    omega
  · rcases mem_append.mp ho with hold | hone
    · rcases mem_append.mp ho' with hold' | hone'
      · exact hk.opens_inj o hold o' hold' hsame
      · rw [mem_singleton.mp hone'] at hsame
        exact absurd hsame (hnew _ (hk.opens_lt o hold))
    · rcases mem_append.mp ho' with hold' | hone'
      · rw [mem_singleton.mp hone] at hsame
        exact absurd hsame.symm (hnew _ (hk.opens_lt o' hold'))
      · rw [mem_singleton.mp hone, mem_singleton.mp hone']
  · rw [hplaced.get_iff, hk.pending_iff]
    constructor
    · rintro (⟨rfl, heq⟩ | ⟨o, ho, h⟩)
      · cases heq
        exact ⟨_, mem_append_right _ (mem_singleton_self _), hfree, rfl, rfl, rfl, rfl⟩
      · exact ⟨o, mem_append_left _ ho, h⟩
    · rintro ⟨o, ho, h⟩
      rcases mem_append.mp ho with hold | hone
      · exact .inr ⟨o, hold, h⟩
      · obtain rfl := mem_singleton.mp hone
        obtain ⟨-, rfl, rfl, rfl, rfl⟩ := h
        exact .inl ⟨rfl, rfl⟩
  · rw [Ledger.opener?, reverse_append, reverse_singleton, singleton_append]
    rcases mem_append.mp ho with hold | hone
    · -- the new channel is in a free slot, so the handle is not one of a pending channel
      have hother : handle ≠ o.handle := by
        rintro rfl
        have hentry := entry_of_get (hk.get_of_open hold hawaited)
        cases hplaced.vacant.symm.trans hentry
      rw [List.find?_cons_of_neg (by simpa using hother)]
      exact hk.opener o hold hawaited
    · obtain rfl := mem_singleton.mp hone
      exact List.find?_cons_of_pos (beq_self_eq_true _)

/-- The open of a pending channel is no longer awaited, and the channel is no longer pending. -/
theorem Kept.settled (hk : Kept l e) {l' : Ledger}
    (hget : e.slab.get h = some (.pendingOutgoing channelType n credit))
    (hawaited : ∀ m, l'.Awaited m ↔ l.Awaited m ∧ m ≠ n)
    (hpending : ∀ h' channelType n credit,
      e'.slab.get h' = some (.pendingOutgoing channelType n credit) ↔
        h' ≠ h ∧ e.slab.get h' = some (.pendingOutgoing channelType n credit)) :
    ∀ h channelType n credit, e'.slab.get h = some (.pendingOutgoing channelType n credit) ↔
      ∃ o ∈ l.opens, l'.Awaited o.number ∧ o.handle = h ∧ o.params.channelType = channelType ∧
        o.number = n ∧ o.params.credit = credit := by
  obtain ⟨o, ho, -, rfl, -, rfl, -⟩ := hk.exists_open hget
  intro h channelType n credit
  rw [hpending, hk.pending_iff]
  simp only [hawaited]
  constructor
  · rintro ⟨hother, o', ho', hold, rfl, h⟩
    have hne (hsame : o'.number = o.number) : False :=
      hother (congrArg _ (hk.opens_inj o' ho' o ho hsame))
    exact ⟨o', ho', ⟨hold, hne⟩, rfl, h⟩
  · rintro ⟨o', ho', ⟨hold, hne⟩, rfl, h⟩
    exact ⟨fun hsame => hne (hk.number_eq ho' hold (hsame ▸ hget)), o', ho', hold, rfl, h⟩

/-- An open got its answer while it was pending. -/
theorem Kept.answered (hk : Kept l e)
    (hget : e.slab.get h = some (.pendingOutgoing channelType n credit)) (hsound : Sound e')
    (hpending : ∀ h' channelType n credit,
      e'.slab.get h' = some (.pendingOutgoing channelType n credit) ↔
        h' ≠ h ∧ e.slab.get h' = some (.pendingOutgoing channelType n credit))
    (htombstones : e'.tombstones = e.tombstones) (hlimits : e'.limits = e.limits)
    (hallocated : e'.allocated = e.allocated) : Kept { l with replied := l.replied ++ [n] } e' := by
  have hawaited (m : LocalNumber) :
      ({ l with replied := l.replied ++ [n] } : Ledger).Awaited m ↔ l.Awaited m ∧ m ≠ n := by
    simp [Ledger.Awaited, and_right_comm]
  have hsettled := hk.settled hget hawaited hpending
  obtain ⟨o, ho, ⟨hunreplied, huncancelled⟩, rfl, -, rfl, -⟩ := hk.exists_open hget
  have hunanswered : ({ l with replied := l.replied ++ [o.number] } : Ledger).unanswered =
      l.unanswered := by
    refine filter_congr fun m hm => ?_
    have hne : m ≠ o.number := fun heq => huncancelled (heq ▸ hm)
    simp [hne]
  refine ⟨hsound, hallocated ▸ hk.opens_lt, hallocated ▸ hk.cancelled_lt, ?_, hk.opens_inj,
    hsettled, fun o' ho' h => hk.opener o' ho' ((hawaited _).mp h).1, ?_,
    fun before m after hcancelled hlength hm => ?_, hk.cancelled_nodup, ?_⟩
  · rw [hallocated]
    exact forall_mem_append.mpr
      ⟨hk.replied_lt, forall_mem_singleton.mpr (hk.opens_lt o ho)⟩
  · rw [hunanswered, htombstones]
    exact hk.tombstones_sublist
  · rw [htombstones]
    rw [hlimits] at hlength
    exact hk.recent before m after hcancelled hlength fun hmem => hm (mem_append_left _ hmem)
  · exact nodup_append_comm.mp (nodup_cons.mpr ⟨hunreplied, hk.replied_nodup⟩)

/-- A tombstone is a cancelled open without an answer. -/
theorem Kept.mem_tombstones (hk : Kept l e) (hn : n ∈ e.tombstones) :
    n ∈ l.cancelled ∧ n ∉ l.replied := by
  obtain ⟨hcancelled, hunreplied⟩ := mem_filter.mp (hk.tombstones_sublist.subset hn)
  exact ⟨hcancelled, of_decide_eq_true hunreplied⟩

/-- The answer to a cancelled open came. -/
theorem Kept.answeredLate (hk : Kept l e) (hn : n ∈ e.tombstones) (hsound : Sound e')
    (hslab : e'.slab = e.slab) (htombstones : e'.tombstones = e.tombstones.erase n)
    (hlimits : e'.limits = e.limits) (hallocated : e'.allocated = e.allocated) :
    Kept { l with replied := l.replied ++ [n] } e' := by
  obtain ⟨hcancelled, hunreplied⟩ := hk.mem_tombstones hn
  have hawaited (m : LocalNumber) :
      ({ l with replied := l.replied ++ [n] } : Ledger).Awaited m ↔ l.Awaited m := by
    have hne (hm : m ∉ l.cancelled) : m ≠ n := fun heq => hm (heq ▸ hcancelled)
    simp only [Ledger.Awaited, mem_append, mem_singleton]
    tauto
  have hunanswered : ({ l with replied := l.replied ++ [n] } : Ledger).unanswered =
      l.unanswered.filter (· != n) := by
    rw [Ledger.unanswered, Ledger.unanswered, filter_filter]
    refine filter_congr fun m _ => ?_
    rw [Bool.eq_iff_iff]
    simp [and_comm]
  refine ⟨hsound, hallocated ▸ hk.opens_lt, hallocated ▸ hk.cancelled_lt, ?_,
    hk.opens_inj, fun h channelType m credit => ?_, fun o ho ha => ?_, ?_,
    fun before m after hsplit hlength hm => ?_, hk.cancelled_nodup, ?_⟩
  · rw [hallocated]
    exact forall_mem_append.mpr
      ⟨hk.replied_lt, forall_mem_singleton.mpr (hk.cancelled_lt n hcancelled)⟩
  · rw [hslab, hk.pending_iff]
    simp only [hawaited]
  · exact hk.opener o ho ((hawaited _).mp ha)
  · rw [hunanswered, htombstones, hk.sound.tombstones_nodup.erase_eq_filter]
    exact hk.tombstones_sublist.filter _
  · rw [hlimits] at hlength
    rw [mem_append, mem_singleton, not_or] at hm
    rw [htombstones, mem_erase_of_ne hm.2]
    exact hk.recent before m after hsplit hlength hm.1
  · exact nodup_append_comm.mp (nodup_cons.mpr ⟨hunreplied, hk.replied_nodup⟩)

theorem Kept.cancelled (hk : Kept l e)
    (hget : e.slab.get h = some (.pendingOutgoing channelType n credit)) (hsound : Sound e')
    (hpending : ∀ h' channelType n credit,
      e'.slab.get h' = some (.pendingOutgoing channelType n credit) ↔
        h' ≠ h ∧ e.slab.get h' = some (.pendingOutgoing channelType n credit))
    (htombstones : e'.tombstones = (e.tombstones ++ [n]).drop
      ((e.tombstones ++ [n]).length - e.limits.maxTombstones)) (hlimits : e'.limits = e.limits)
    (hallocated : e'.allocated = e.allocated) :
    Kept { l with cancelled := l.cancelled ++ [n] } e' := by
  have hawaited (m : LocalNumber) :
      ({ l with cancelled := l.cancelled ++ [n] } : Ledger).Awaited m ↔ l.Awaited m ∧ m ≠ n := by
    simp [Ledger.Awaited, and_assoc]
  have hsettled := hk.settled hget hawaited hpending
  obtain ⟨o, ho, ⟨hunreplied, huncancelled⟩, rfl, -, rfl, -⟩ := hk.exists_open hget
  have hnodup : (l.cancelled ++ [o.number]).Nodup :=
    nodup_append_comm.mp (nodup_cons.mpr ⟨huncancelled, hk.cancelled_nodup⟩)
  have hunanswered : ({ l with cancelled := l.cancelled ++ [o.number] } : Ledger).unanswered =
      l.unanswered ++ [o.number] := by
    simp [Ledger.unanswered, hunreplied]
  have hsublist : (e.tombstones ++ [o.number]).Sublist (l.unanswered ++ [o.number]) :=
    hk.tombstones_sublist.append_right _
  refine ⟨hsound, hallocated ▸ hk.opens_lt, ?_, hallocated ▸ hk.replied_lt, hk.opens_inj, hsettled,
    fun o' ho' h => hk.opener o' ho' ((hawaited _).mp h).1, ?_,
    fun before m after hsplit hlength hm => ?_, hnodup, hk.replied_nodup⟩
  · rw [hallocated]
    exact forall_mem_append.mpr
      ⟨hk.cancelled_lt, forall_mem_singleton.mpr (hk.opens_lt o ho)⟩
  · rw [hunanswered, htombstones]
    exact (drop_sublist _ _).trans hsublist
  · rw [hlimits] at hlength
    change l.cancelled ++ [o.number] = before ++ m :: after at hsplit
    have hmem : m ∈ e.tombstones ++ [o.number] := by
      rcases eq_nil_or_concat' after with rfl | ⟨after, last, rfl⟩
      · -- the one cancelled just now
        obtain ⟨-, heq⟩ := append_inj' hsplit rfl
        rw [singleton_inj.mp heq]
        exact mem_append_right _ (mem_singleton_self _)
      · rw [← cons_append, ← append_assoc] at hsplit
        obtain ⟨hsplit, -⟩ := append_inj' hsplit rfl
        rw [length_append] at hlength
        exact mem_append_left _ (hk.recent before m after hsplit (by omega) hm)
    have hall : (e.tombstones ++ [o.number]).Sublist (before ++ m :: after) := by
      rw [← hsplit]
      exact hsublist.trans (filter_sublist.append_right _)
    obtain ⟨_, _, heq, hafter⟩ := exists_split_of_sublist hall (hsplit ▸ hnodup) hmem
    rw [htombstones, heq]
    exact mem_last (Nat.lt_of_le_of_lt hafter.length_le hlength)

/-- **One call**: the engine keeps of the ledger what it should. -/
theorem Kept.enter (hk : Kept l e) {happening : Happening} (hcalls : Calls e happening e')
    (hkept : happening.call ≠ .transportLost) : Kept (l.enter happening) e' := by
  obtain ⟨⟩ := happening
  obtain ⟨hcall, rfl⟩ := hcalls
  have heffect := effect_of_call hk.sound hcall
  have hsound := heffect.sound hk.sound
  cases heffect with
  | lost => exact absurd rfl hkept
  | openRejected | cancelRejected | acceptRejected | refuseRejected | openDuplicate
  | confirmationRejected | failureRejected => exact hk
  | openRefused | took =>
    exact hk.same hsound (fun _ _ _ _ => .rfl) rfl rfl (Nat.le_refl _)
  | opened _ _ _ _ _ hnumber hplaced =>
    have hopened := hk.opened hsound hnumber hplaced rfl rfl (allocated_withNext hnumber)
    rw [Ledger.enter]
    dsimp only
    rw [drop_left]
    exact hopened
  | incoming _ _ _ _ _ _ hplaced =>
    refine hk.same hsound (fun h channelType n credit => ?_) rfl rfl (Nat.le_refl _)
    refine hplaced.get_iff.trans ⟨?_, .inr⟩
    rintro (⟨-, ⟨⟩⟩ | hold)
    exact hold
  | accepted _ _ channelType n _ _ hget hnumber hupdated =>
    have hle : e.allocated ≤ e.withNext.allocated := by
      rw [allocated_withNext hnumber]
      exact Nat.le_succ _
    refine hk.same hsound (fun h channelType n credit => ?_) rfl rfl hle
    refine (Slab.Updated.get_iff hget hupdated).trans ⟨?_, fun hold => .inr ⟨?_, hold⟩⟩
    · rintro (⟨-, ⟨⟩⟩ | ⟨-, hold⟩)
      exact hold
    · rintro rfl
      cases hget.symm.trans hold
  | acceptExhausted _ _ channelType n _ hget _ hreleased
  | refused _ _ _ channelType n _ _ hget hreleased =>
    refine hk.same hsound (fun h channelType n credit => ?_) rfl rfl (Nat.le_refl _)
    refine (Slab.Released.get_iff hget hreleased).trans ⟨And.right, fun hold => ⟨?_, hold⟩⟩
    rintro rfl
    cases hget.symm.trans hold
  | confirmed _ _ channelType credit _ _ hget hupdated =>
    refine hk.answered hget hsound (fun h' channelType n credit => ?_) rfl rfl rfl
    refine (Slab.Updated.get_iff hget hupdated).trans ⟨?_, .inr⟩
    rintro (⟨-, ⟨⟩⟩ | hold)
    exact hold
  | failed _ _ _ _ _ hget hreleased =>
    exact hk.answered hget hsound (fun _ _ _ _ => Slab.Released.get_iff hget hreleased) rfl rfl rfl
  | confirmedLate _ _ hmem | failedLate _ hmem =>
    exact hk.answeredLate hmem hsound rfl rfl rfl rfl
  | cancelled _ _ _ _ _ hget hreleased =>
    obtain ⟨o, ho, hawaited, rfl, -, rfl, -⟩ := hk.exists_open hget
    rw [Ledger.enter]
    dsimp only
    rw [hk.opener o ho hawaited]
    exact hk.cancelled hget hsound (fun _ _ _ _ => Slab.Released.get_iff hget hreleased) rfl rfl rfl

end Steps

/-- **A whole run**: the engine keeps of the ledger what it should. -/
theorem kept_of_run {limits : OpeningLimits} {happenings : List Happening} {e : OpeningEngine}
    (hmax : limits.maxChannels ≤ 2 ^ 32) (hrun : Run Calls (.new limits) happenings e)
    (hkept : ∀ h ∈ happenings, h.call ≠ .transportLost) : Kept (.ofRun happenings) e := by
  refine hrun.history
    (I := fun happenings e => (∀ h ∈ happenings, h.call ≠ .transportLost) →
      Kept (.ofRun happenings) e) (fun _ => kept_new hmax) ?_ hkept
  intro happenings e happening e' ih hcalls hkept
  rw [Ledger.ofRun, foldl_append]
  exact (ih fun h hh => hkept h (mem_append_left _ hh)).enter hcalls
    (hkept happening (mem_append_right _ (mem_singleton_self _)))

/-! ### How replies are classified -/

/-- The sender's number of a confirmation. -/
def Call.sender? : Call → Option PeerNumber
  | .handleOpenConfirmation msg => some ⟨msg.senderChannel⟩
  | _ => none

/-- A live channel has the peer number. -/
def OpeningEngine.PeerUses (e : OpeningEngine) (n : PeerNumber) : Prop :=
  ∃ i c, e.slab.entry i = some c ∧ c.peerNumber? = some n

/-- The event of a confirmation of an open. -/
def OpenRecord.established (o : OpenRecord) (msg : ChannelOpenConfirmation) : Event :=
  .established o.handle o.params.channelType o.number ⟨msg.senderChannel⟩ o.params.credit
    ⟨msg.initialWindowSize, msg.maximumPacketSize⟩ msg.typeSpecific

/-- The event of a refusal of an open. -/
def OpenRecord.refused (o : OpenRecord) (msg : ChannelOpenFailure) : Event :=
  .refused o.handle msg.reasonCode msg.description msg.languageTag

/-- An open was established. -/
def Event.isEstablished : Event → Bool
  | .established .. => true
  | _ => false

/-- An open was refused. -/
def Event.isRefused : Event → Bool
  | .refused .. => true
  | _ => false

/-- A reply came late. -/
def Event.isLate : Event → Bool
  | .lateReply .. => true
  | _ => false

/-- What every reply gets in a state, given the ledger of the run up to it. -/
structure Classified (l : Ledger) (e : OpeningEngine) : Prop where
  /-- A confirmation establishes exactly the open that queued the number, if that is neither
  cancelled nor answered and the sender's number is free. -/
  confirmation : ∀ msg a e', e.call (.handleOpenConfirmation msg) = .ok (a, e') → ∀ event,
    a = .handled (.ok event) ∧ event.isEstablished = true ↔
      ∃ o ∈ l.opens, o.number = ⟨msg.recipientChannel⟩ ∧ l.Awaited o.number ∧
        ¬e.PeerUses ⟨msg.senderChannel⟩ ∧ event = o.established msg
  /-- A failure refuses exactly the open that queued the number, if that is neither cancelled nor
  answered. -/
  failure : ∀ msg a e', e.call (.handleOpenFailure msg) = .ok (a, e') → ∀ event,
    a = .handled (.ok event) ∧ event.isRefused = true ↔
      ∃ o ∈ l.opens, o.number = ⟨msg.recipientChannel⟩ ∧ l.Awaited o.number ∧
        event = o.refused msg
  /-- A second reply is one to a channel that is established. -/
  duplicate : ∀ c r a e', c.recipient? = some r → e.call c = .ok (a, e') →
    (a = .handled (.error (.duplicateReply r)) ↔
      ∃ i peer, e.slab.entry i = some (.established r peer))
  /-- A late reply is one to a cancelled open without an answer. -/
  late : ∀ c r a e', c.recipient? = some r → e.call c = .ok (a, e') → ∀ n reply,
    a = .handled (.ok (.lateReply n reply)) → n = r ∧ r ∈ l.cancelled ∧ r ∉ l.replied
  /-- A reply to a cancelled open without an answer is late, if not too many were cancelled
  after it. -/
  recent : ∀ c r a e', c.recipient? = some r → e.call c = .ok (a, e') →
    ∀ before after, l.cancelled = before ++ r :: after → after.length < e.limits.maxTombstones →
      r ∉ l.replied → (∀ p, c.sender? = some p → ¬e.PeerUses p) →
      ∃ reply, a = .handled (.ok (.lateReply r reply))
  /-- A reply that is accepted is one of the three. -/
  accepted : ∀ c r event e', c.recipient? = some r → e.call c = .ok (.handled (.ok event), e') →
    event.isEstablished = true ∨ event.isRefused = true ∨ event.isLate = true

section Replies

variable {l : Ledger} {e e' : OpeningEngine}

/-- A number is free exactly if the engine says so. -/
theorem not_peerUses_iff {n : PeerNumber} : ¬e.PeerUses n ↔ e.peerNumberInUse n = false := by
  rw [OpeningEngine.PeerUses, ← peerNumberInUse_iff, Bool.not_eq_true]

/-- The search says that a reply is the second one exactly if the channel is established. -/
theorem Sound.locateReply_duplicate (hs : Sound e) {r : UInt32} :
    e.locateReply r = .error (.duplicateReply ⟨r⟩) ↔
      ∃ i peer, e.slab.entry i = some (.established ⟨r⟩ peer) := by
  rw [OpeningEngine.locateReply]
  have hlocated := located ⟨r⟩ 0 e.slab.slots
  generalize OpeningEngine.locateSlot ⟨r⟩ 0 e.slab.slots = answer at hlocated
  cases hlocated with
  | absent h =>
    constructor
    · intro heq
      dsimp only at heq
      split at heq
      · cases heq
      · split at heq <;> cases heq
    · rintro ⟨i, peer, hentry⟩
      exact absurd rfl (h i _ _ (slot_of_entry hentry))
  | pending k g channelType credit h =>
    refine ⟨by rintro ⟨⟩, ?_⟩
    rintro ⟨i, peer, hentry⟩
    have hpending : e.slab.entry k = some (.pendingOutgoing channelType ⟨r⟩ credit) := by
      rw [entry, h]
      rfl
    obtain rfl := hs.local_inj hpending hentry rfl rfl
    cases hpending.symm.trans hentry
  | duplicate k g peer h =>
    refine ⟨fun _ => ⟨k, peer, ?_⟩, fun _ => rfl⟩
    rw [entry, h]
    rfl

/-- A located reply is not one of those that the search rejects. -/
theorem Sound.not_reply_error (hs : Sound e) {r : UInt32} {target : ReplyTarget} {v : Violation}
    (hlocate : e.locateReply r = .ok target) : ¬Reply e ⟨r⟩ (.error v) := by
  have hreply := hs.reply r
  rw [hlocate] at hreply
  rintro (_ | _ | ⟨v, htombstone, hnot⟩)
  cases hreply with
  | pending _ _ _ hget => exact hnot _ _ _ (entry_of_get hget)
  | tombstone hmem => exact htombstone hmem

/-- A call says that a reply is the second one exactly if the search does. -/
theorem Sound.call_duplicate (hs : Sound e) {c : Call} {r : UInt32} (hc : c.recipient? = some ⟨r⟩)
    (hcall : e.call c = .ok (a, e')) :
    a = .handled (.error (.duplicateReply ⟨r⟩)) ↔
      e.locateReply r = .error (.duplicateReply ⟨r⟩) := by
  cases hlocate : e.locateReply r with
  | error =>
    cases hcall.symm.trans (rejects_of_locateReply hlocate c hc)
    simp
  | ok =>
    refine ⟨?_, nofun⟩
    rintro rfl
    cases c with
    | handleOpenConfirmation msg =>
      obtain rfl : msg.recipientChannel = r := congrArg LocalNumber.value (Option.some.inj hc)
      cases hused : e.peerNumberInUse ⟨msg.senderChannel⟩ with
      | true =>
        rw [OpeningEngine.call, OpeningEngine.handleOpenConfirmation, hlocate] at hcall
        dsimp only at hcall
        rw [hused] at hcall
        cases hcall
      | false =>
        cases effect_of_call hs hcall with
        | confirmationRejected _ v h =>
          rw [hused] at h
          exact absurd (h.resolve_right Bool.false_ne_true) (hs.not_reply_error hlocate)
    | handleOpenFailure msg =>
      obtain rfl : msg.recipientChannel = r := congrArg LocalNumber.value (Option.some.inj hc)
      cases effect_of_call hs hcall with
      | failureRejected _ v h => exact absurd h (hs.not_reply_error hlocate)
    | _ => cases hc

/-- A reply to a pending open is not rejected. -/
theorem not_reply_error_of_get {v : Violation}
    (hget : e.slab.get h = some (.pendingOutgoing channelType n credit)) :
    ¬Reply e n (.error v) := by
  rintro (_ | _ | ⟨v, -, hnot⟩)
  exact hnot _ _ _ (entry_of_get hget)

/-- A pending open is the only channel with its number. -/
theorem Sound.get_unique (hs : Sound e) {h' : ChannelHandle} {channelType' : Bytes}
    {credit' : Credit} (hget : e.slab.get h = some (.pendingOutgoing channelType n credit))
    (hget' : e.slab.get h' = some (.pendingOutgoing channelType' n credit')) :
    h = h' ∧ channelType = channelType' ∧ credit = credit' := by
  have hindex := hs.local_inj (entry_of_get hget) (entry_of_get hget') rfl rfl
  have hgeneration := (get_eq_some_iff_entry.mp hget).2
  rw [hindex, (get_eq_some_iff_entry.mp hget').2] at hgeneration
  obtain rfl := handle_ext hindex hgeneration.symm
  cases hget.symm.trans hget'
  exact ⟨rfl, rfl, rfl⟩

theorem Kept.confirmation (hk : Kept l e) {msg : ChannelOpenConfirmation}
    (hcall : e.call (.handleOpenConfirmation msg) = .ok (a, e')) (event : Event) :
    a = .handled (.ok event) ∧ event.isEstablished = true ↔
      ∃ o ∈ l.opens, o.number = ⟨msg.recipientChannel⟩ ∧ l.Awaited o.number ∧
        ¬e.PeerUses ⟨msg.senderChannel⟩ ∧ event = o.established msg := by
  have hs := hk.sound
  have heffect := effect_of_call hs hcall
  constructor
  · rintro ⟨rfl, hestablished⟩
    cases heffect with
    | confirmed _ _ _ _ _ hunused hget =>
      obtain ⟨o, ho, hawaited, rfl, rfl, hnumber, rfl⟩ := hk.exists_open hget
      refine ⟨o, ho, hnumber, hnumber ▸ hawaited, not_peerUses_iff.mpr hunused, ?_⟩
      rw [OpenRecord.established, hnumber]
    | confirmedLate => cases hestablished
  · rintro ⟨o, ho, hnumber, hawaited, hunused, rfl⟩
    have hget := hk.get_of_open ho hawaited
    rw [hnumber] at hget
    refine ⟨?_, rfl⟩
    cases heffect with
    | confirmationRejected _ v h =>
      rw [not_peerUses_iff.mp hunused] at h
      exact absurd (h.resolve_right Bool.false_ne_true) (not_reply_error_of_get hget)
    | confirmed _ _ _ _ _ _ hget' =>
      obtain ⟨rfl, rfl, rfl⟩ := hs.get_unique hget' hget
      rw [OpenRecord.established, hnumber]
    | confirmedLate _ _ hmem =>
      exact absurd hmem (hs.not_tombstone (entry_of_get hget) rfl)

theorem Kept.failure (hk : Kept l e) {msg : ChannelOpenFailure}
    (hcall : e.call (.handleOpenFailure msg) = .ok (a, e')) (event : Event) :
    a = .handled (.ok event) ∧ event.isRefused = true ↔
      ∃ o ∈ l.opens, o.number = ⟨msg.recipientChannel⟩ ∧ l.Awaited o.number ∧
        event = o.refused msg := by
  have hs := hk.sound
  have heffect := effect_of_call hs hcall
  constructor
  · rintro ⟨rfl, hrefused⟩
    cases heffect with
    | failed _ _ _ _ _ hget =>
      obtain ⟨o, ho, hawaited, rfl, -, hnumber, -⟩ := hk.exists_open hget
      exact ⟨o, ho, hnumber, hnumber ▸ hawaited, rfl⟩
    | failedLate => cases hrefused
  · rintro ⟨o, ho, hnumber, hawaited, rfl⟩
    have hget := hk.get_of_open ho hawaited
    rw [hnumber] at hget
    refine ⟨?_, rfl⟩
    cases heffect with
    | failureRejected _ v h => exact absurd h (not_reply_error_of_get hget)
    | failed _ _ _ _ _ hget' =>
      obtain ⟨rfl, -, -⟩ := hs.get_unique hget' hget
      rfl
    | failedLate _ hmem => exact absurd hmem (hs.not_tombstone (entry_of_get hget) rfl)

/-- A reply to a tombstone is late. -/
theorem Sound.late_of_tombstone (hs : Sound e) {c : Call} {r : LocalNumber}
    (hc : c.recipient? = some r) (hcall : e.call c = .ok (a, e')) (hmem : r ∈ e.tombstones)
    (hfree : ∀ p, c.sender? = some p → ¬e.PeerUses p) :
    ∃ reply, a = .handled (.ok (.lateReply r reply)) := by
  have hnot {v : Violation} : ¬Reply e r (.error v) := by
    rintro (_ | _ | ⟨v, htombstone, -⟩)
    exact htombstone hmem
  cases effect_of_call hs hcall with
  | confirmationRejected _ _ h =>
    cases hc
    rw [not_peerUses_iff.mp (hfree _ rfl)] at h
    exact absurd (h.resolve_right Bool.false_ne_true) hnot
  | confirmed _ _ _ _ _ _ hget | failed _ _ _ _ _ hget =>
    cases hc
    exact absurd hmem (hs.not_tombstone (entry_of_get hget) rfl)
  | confirmedLate | failedLate =>
    cases hc
    exact ⟨_, rfl⟩
  | failureRejected _ _ h =>
    cases hc
    exact absurd h hnot
  | _ => cases hc

/-- What the engine keeps is enough to classify replies. -/
theorem Kept.classified (hk : Kept l e) : Classified l e where
  confirmation _ _ _ hcall event := hk.confirmation hcall event
  failure _ _ _ hcall event := hk.failure hcall event
  duplicate c r a e' hc hcall :=
    (hk.sound.call_duplicate hc hcall).trans hk.sound.locateReply_duplicate
  late c r a e' hc hcall n reply ha := by
    subst ha
    cases effect_of_call hk.sound hcall with
    | confirmedLate _ _ hmem | failedLate _ hmem =>
      cases hc
      exact ⟨rfl, hk.mem_tombstones hmem⟩
  recent c r a e' hc hcall before after hsplit hlength hunreplied hfree :=
    hk.sound.late_of_tombstone hc hcall (hk.recent before r after hsplit hlength hunreplied) hfree
  accepted c r event e' hc hcall := by
    cases effect_of_call hk.sound hcall with
    | incoming => cases hc
    | openRefused => cases hc
    | confirmed => exact .inl rfl
    | failed => exact .inr (.inl rfl)
    | confirmedLate | failedLate => exact .inr (.inr rfl)

/-- **Replies by history.** After every run without a loss of the transport, every reply is
classified by what the calls and answers of the run say about the open it names, and no open was
answered twice. -/
theorem replies_classified {limits : OpeningLimits} {happenings : List Happening}
    (hmax : limits.maxChannels ≤ 2 ^ 32) (hrun : Run Calls (.new limits) happenings e)
    (hkept : ∀ h ∈ happenings, h.call ≠ .transportLost) :
    Classified (.ofRun happenings) e ∧ (Ledger.ofRun happenings).replied.Nodup := by
  have hk := kept_of_run hmax hrun hkept
  exact ⟨hk.classified, hk.replied_nodup⟩

/-- Replies after one open that was sent. -/
theorem replies_classified_awaitingReply :
    Classified (.ofRun [⟨.openChannel sessionParams, .opened (.ok ⟨0, 0⟩), [sessionOpen]⟩,
      ⟨.nextOutgoing, .taken (some sessionOpen), []⟩]) awaitingReply ∧
    (Ledger.ofRun [⟨.openChannel sessionParams, .opened (.ok ⟨0, 0⟩), [sessionOpen]⟩,
      ⟨.nextOutgoing, .taken (some sessionOpen), []⟩]).replied.Nodup := by
  refine replies_classified (by decide) run_awaitingReply ?_
  simp

end Replies

end Tatami.Connection
