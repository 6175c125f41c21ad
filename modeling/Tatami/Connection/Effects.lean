import Tatami.Connection.Opening

/-! # What one call to the opening engine does

`Sound` is the representation invariant of the engine. On a sound engine every call returns, and
`Effect` lists everything it can have done (`call_effect`); that the invariant is kept is then one
short case for each effect (`Effect.sound`). -/

namespace Tatami.Connection

open Tatami OpeningEngine Checked Slab
open Tatami.Wire (ChannelOpen ChannelOpenConfirmation ChannelOpenFailure)

/-! ### The representation invariant -/

/-- How many local numbers were handed out. -/
def OpeningEngine.allocated (e : OpeningEngine) : Nat :=
  e.nextLocal.toNat + if e.numbersExhausted then 1 else 0

/-- The representation invariant. -/
structure Sound (e : OpeningEngine) : Prop where
  channels : e.limits.maxChannels ≤ 2 ^ 32
  valid : e.slab.Valid
  length_le : e.slab.slots.length ≤ e.limits.maxChannels
  live_le : e.slab.live ≤ e.limits.maxChannels
  pendingOutgoing_eq : e.pendingOutgoing = e.slab.count (·.phase == .pendingOutgoing)
  pendingIncoming_eq : e.pendingIncoming = e.slab.count (·.phase == .pendingIncoming)
  pendingOutgoing_le : e.pendingOutgoing ≤ e.limits.maxPendingOutgoing
  pendingIncoming_le : e.pendingIncoming ≤ e.limits.maxPendingIncoming
  tombstones_le : e.tombstones.length ≤ e.limits.maxTombstones
  tombstones_nodup : e.tombstones.Nodup
  /-- The number of a live channel is not a tombstone. -/
  not_tombstone : ∀ {i c n}, e.slab.entry i = some c → c.localNumber? = some n → n ∉ e.tombstones
  local_inj : ∀ {i j c d n}, e.slab.entry i = some c → e.slab.entry j = some d →
    c.localNumber? = some n → d.localNumber? = some n → i = j
  peer_inj : ∀ {i j c d n}, e.slab.entry i = some c → e.slab.entry j = some d →
    c.peerNumber? = some n → d.peerNumber? = some n → i = j
  /-- Numbers in use were handed out. -/
  local_lt : ∀ {i c n}, e.slab.entry i = some c → c.localNumber? = some n →
    n.value.toNat < e.allocated
  tombstone_lt : ∀ {n}, n ∈ e.tombstones → n.value.toNat < e.allocated
  exhausted : e.numbersExhausted = true → e.nextLocal.toNat + 1 = 2 ^ 32

theorem sound_new {limits : OpeningLimits} (h : limits.maxChannels ≤ 2 ^ 32) :
    Sound (.new limits) where
  channels := h
  valid := valid_empty
  length_le := Nat.zero_le _
  live_le := Nat.zero_le _
  pendingOutgoing_eq := rfl
  pendingIncoming_eq := rfl
  pendingOutgoing_le := Nat.zero_le _
  pendingIncoming_le := Nat.zero_le _
  tombstones_le := Nat.zero_le _
  tombstones_nodup := List.nodup_nil
  not_tombstone := nofun
  local_inj := nofun
  peer_inj := nofun
  local_lt := nofun
  tombstone_lt := nofun
  exhausted := nofun

variable {e e' : OpeningEngine}

/-! ### Looking up numbers -/

/-- A peer number is in use if a live channel has it. -/
theorem peerNumberInUse_iff {n : PeerNumber} :
    e.peerNumberInUse n = true ↔ ∃ i c, e.slab.entry i = some c ∧ c.peerNumber? = some n := by
  rw [peerNumberInUse, List.any_eq_true]
  constructor
  · rintro ⟨_, hmem, hany⟩
    obtain ⟨c, hstate, hc⟩ := (Option.any_eq_true _ _).mp hany
    obtain ⟨i, hi, rfl⟩ := List.getElem_of_mem hmem
    refine ⟨i, c, ?_, beq_iff_eq.mp hc⟩
    rw [entry, List.getElem?_eq_getElem hi]
    exact hstate
  · rintro ⟨i, c, hentry, hc⟩
    refine ⟨_, List.mem_of_getElem? (slot_of_entry hentry), ?_⟩
    simp [hc]

/-- What the search for a local number can find. -/
inductive Located (wanted : LocalNumber) (i : Nat) (slots : List (Slot Channel)) :
    Option (Except Violation ReplyTarget) → Prop where
  | absent (h : ∀ (k : Nat) g (c : Channel), slots[k]? = some (Slot.mk g (some c)) →
        c.localNumber? ≠ some wanted) :
      Located wanted i slots none
  | pending (k : Nat) (g : UInt32) (channelType : Bytes) (credit : Credit)
      (h : slots[k]? = some (Slot.mk g (some (.pendingOutgoing channelType wanted credit)))) :
      Located wanted i slots (some (.ok (.pending ⟨UInt32.ofNat (i + k), g⟩)))
  | duplicate (k : Nat) (g : UInt32) (peer : PeerNumber)
      (h : slots[k]? = some (Slot.mk g (some (.established wanted peer)))) :
      Located wanted i slots (some (.error (.duplicateReply wanted)))

/-- The search goes on past a slot without the number. -/
theorem Located.cons {wanted : LocalNumber} {i : Nat} {slots : List (Slot Channel)} {g : UInt32}
    {state : Option Channel} {r : Option (Except Violation ReplyTarget)}
    (h : Located wanted (i + 1) slots r)
    (hother : ∀ c : Channel, state = some c → c.localNumber? ≠ some wanted) :
    Located wanted i (⟨g, state⟩ :: slots) r := by
  cases h with
  | absent hall =>
    refine .absent fun k g' c hk => ?_
    cases k with
    | zero =>
      rw [List.getElem?_cons_zero, Option.some.injEq, Slot.mk.injEq] at hk
      exact hother c hk.2
    | succ k => exact hall k g' c hk
  | pending k g' channelType credit hk =>
    rw [Nat.add_assoc, Nat.add_comm 1 k]
    exact .pending (k + 1) g' channelType credit hk
  | duplicate k g' peer hk => exact .duplicate (k + 1) g' peer hk

theorem located (wanted : LocalNumber) (i : Nat) (slots : List (Slot Channel)) :
    Located wanted i slots (locateSlot wanted i slots) := by
  induction slots generalizing i with
  | nil => exact .absent fun k g c h => by simp at h
  | cons slot _ ih =>
    obtain ⟨g, state⟩ := slot
    cases state with
    | none => exact (ih (i + 1)).cons nofun
    | some c =>
      cases c with
      | pendingOutgoing channelType n credit =>
        simp only [locateSlot]
        by_cases hn : n = wanted
        · subst hn
          rw [if_pos rfl]
          exact .pending 0 g channelType credit rfl
        · rw [if_neg hn]
          refine (ih (i + 1)).cons fun c hc => ?_
          cases hc
          exact fun heq => hn (Option.some.inj heq)
      | pendingIncoming =>
        refine (ih (i + 1)).cons fun c hc => ?_
        cases hc
        nofun
      | established n peer =>
        simp only [locateSlot]
        by_cases hn : n = wanted
        · subst hn
          rw [if_pos rfl]
          exact .duplicate 0 g peer rfl
        · rw [if_neg hn]
          refine (ih (i + 1)).cons fun c hc => ?_
          cases hc
          exact fun heq => hn (Option.some.inj heq)

/-- What a reply can be taken for. -/
inductive Reply (e : OpeningEngine) (n : LocalNumber) : Except Violation ReplyTarget → Prop where
  | pending (h : ChannelHandle) (channelType : Bytes) (credit : Credit)
      (hget : e.slab.get h = some (.pendingOutgoing channelType n credit)) :
      Reply e n (.ok (.pending h))
  | tombstone (hmem : n ∈ e.tombstones) : Reply e n (.ok (.tombstone n))
  | violation (v : Violation) (hmem : n ∉ e.tombstones)
      (hnot : ∀ i channelType credit,
        e.slab.entry i ≠ some (.pendingOutgoing channelType n credit)) :
      Reply e n (.error v)

theorem Sound.reply (hs : Sound e) (recipient : UInt32) :
    Reply e ⟨recipient⟩ (e.locateReply recipient) := by
  rw [locateReply]
  have hlocated := located ⟨recipient⟩ 0 e.slab.slots
  generalize locateSlot ⟨recipient⟩ 0 e.slab.slots = answer at hlocated
  cases hlocated with
  | pending k g channelType credit hk =>
    refine .pending _ channelType credit (get_eq_some_iff.mpr ?_)
    have hlt := (List.getElem?_eq_some_iff.mp hk).1
    change e.slab.slots[(UInt32.ofNat (0 + k)).toNat]? = _
    rwa [Nat.zero_add, UInt32.toNat_ofNat_of_lt' (Nat.lt_of_lt_of_le hlt hs.valid.small)]
  | duplicate k g peer hk =>
    have hentry : e.slab.entry k = some (.established ⟨recipient⟩ peer) := by
      rw [entry, hk]
      rfl
    refine .violation _ (hs.not_tombstone hentry rfl) fun i channelType credit hother => ?_
    obtain rfl := hs.local_inj hentry hother rfl rfl
    cases hentry.symm.trans hother
  | absent hall =>
    have hnot (i : Nat) (channelType : Bytes) (credit : Credit) :
        e.slab.entry i ≠ some (.pendingOutgoing channelType ⟨recipient⟩ credit) := fun hentry =>
      hall i _ _ (slot_of_entry hentry) rfl
    simp only
    split
    · rename_i hmem
      exact .tombstone (List.contains_iff_mem.mp hmem)
    · rename_i hmem
      have hmem : (⟨recipient⟩ : LocalNumber) ∉ e.tombstones := fun hin =>
        hmem (List.contains_iff_mem.mpr hin)
      split
      · exact .violation _ hmem hnot
      · exact .violation _ hmem hnot

/-! ### Effects -/

/-- The engine after a number was handed out. -/
def OpeningEngine.withNext (e : OpeningEngine) : OpeningEngine := { e with
  nextLocal := if e.nextLocal.toNat + 1 < 2 ^ 32 then e.nextLocal + 1 else e.nextLocal
  numbersExhausted := !decide (e.nextLocal.toNat + 1 < 2 ^ 32) }

/-- A number is handed out unless none is left. -/
theorem allocateNumber_eq (e : OpeningEngine) :
    e.allocateNumber =
      if e.numbersExhausted then (.error .numbersExhausted, e)
      else (.ok ⟨e.nextLocal⟩, e.withNext) := by
  rw [allocateNumber, withNext]
  by_cases hexhausted : e.numbersExhausted = true
  · rw [if_pos hexhausted, if_pos hexhausted]
  · rw [if_neg hexhausted, if_neg hexhausted]
    by_cases hnext : e.nextLocal.toNat + 1 < 2 ^ 32
    · have hnot : e.numbersExhausted = false := Bool.not_eq_true _ ▸ hexhausted
      rw [if_pos hnext, if_pos hnext, decide_eq_true hnext, Bool.not_true, ← hnot]
    · rw [if_neg hnext, if_neg hnext, decide_eq_false hnext, Bool.not_false]

/-- Everything one call can have done to a sound engine. -/
inductive Effect (e : OpeningEngine) : Call → Answer → OpeningEngine → Prop where
  | openRejected (params : OpenParams) (err : OpenError)
      (h : err = .numbersExhausted → e.numbersExhausted = true) :
      Effect e (.openChannel params) (.opened (.error err)) e
  | opened (params : OpenParams) (handle : ChannelHandle) (slab : Slab Channel)
      (hpending : e.pendingOutgoing < e.limits.maxPendingOutgoing)
      (hlive : e.slab.live < e.limits.maxChannels) (hnumber : e.numbersExhausted = false)
      (hplaced : e.slab.Placed (.pendingOutgoing params.channelType ⟨e.nextLocal⟩ params.credit)
        handle slab) :
      Effect e (.openChannel params) (.opened (.ok handle)) { e.withNext with
        slab, pendingOutgoing := e.pendingOutgoing + 1,
        outgoing := e.outgoing ++
          [.openChannel params.channelType ⟨e.nextLocal⟩ params.credit params.typeSpecific] }
  | cancelRejected (h : ChannelHandle) (err : HandleError) :
      Effect e (.cancel h) (.done (.error err)) e
  | cancelled (h : ChannelHandle) (channelType : Bytes) (n : LocalNumber) (credit : Credit)
      (slab : Slab Channel) (hget : e.slab.get h = some (.pendingOutgoing channelType n credit))
      (hreleased : e.slab.Released h.index.toNat (.pendingOutgoing channelType n credit) slab) :
      Effect e (.cancel h) (.done (.ok ())) { e with
        slab, pendingOutgoing := e.pendingOutgoing - 1,
        tombstones := (e.tombstones ++ [n]).drop
          ((e.tombstones ++ [n]).length - e.limits.maxTombstones) }
  | acceptRejected (h : ChannelHandle) (params : AcceptParams) (err : HandleError)
      (hnot : ∀ channelType n peer,
        e.slab.get h ≠ some (.pendingIncoming channelType n peer)) :
      Effect e (.accept h params) (.accepted (.error err)) e
  | acceptExhausted (h : ChannelHandle) (params : AcceptParams) (channelType : Bytes)
      (n : PeerNumber) (peer : Credit)
      (hget : e.slab.get h = some (.pendingIncoming channelType n peer))
      (hnumber : e.numbersExhausted = true)
      (hreleased : e.slab.Released h.index.toNat (.pendingIncoming channelType n peer)
        (e.slab.without h)) :
      Effect e (.accept h params) (.accepted (.error .stale)) { e with
        slab := e.slab.without h, pendingIncoming := e.pendingIncoming - 1,
        outgoing := e.outgoing ++
          [.openFailure n resourceShortage (utf8 "channel numbers exhausted") []] }
  | accepted (h : ChannelHandle) (params : AcceptParams) (channelType : Bytes) (n : PeerNumber)
      (peer : Credit) (slab : Slab Channel)
      (hget : e.slab.get h = some (.pendingIncoming channelType n peer))
      (hnumber : e.numbersExhausted = false)
      (hupdated : e.slab.Updated h.index.toNat (.pendingIncoming channelType n peer)
        (.established ⟨e.nextLocal⟩ n) slab) :
      Effect e (.accept h params)
        (.accepted (.ok (.established h channelType ⟨e.nextLocal⟩ n params.credit peer [])))
        { e.withNext with
          slab, pendingIncoming := e.pendingIncoming - 1,
          outgoing := e.outgoing ++
            [.openConfirmation n ⟨e.nextLocal⟩ params.credit params.typeSpecific] }
  | refuseRejected (h : ChannelHandle) (reasonCode : UInt32) (description : Bytes)
      (err : HandleError) : Effect e (.refuse h reasonCode description) (.done (.error err)) e
  | refused (h : ChannelHandle) (reasonCode : UInt32) (description : Bytes) (channelType : Bytes)
      (n : PeerNumber) (peer : Credit) (slab : Slab Channel)
      (hget : e.slab.get h = some (.pendingIncoming channelType n peer))
      (hreleased : e.slab.Released h.index.toNat (.pendingIncoming channelType n peer) slab) :
      Effect e (.refuse h reasonCode description) (.done (.ok ())) { e with
        slab, pendingIncoming := e.pendingIncoming - 1,
        outgoing := e.outgoing ++ [.openFailure n reasonCode description []] }
  | lost (entries : List (Handle × Channel)) (slab : Slab Channel)
      (hdrained : e.slab.Drained entries slab) :
      Effect e .transportLost (.lost (entries.map fun (h, c) => .transportLost h c.phase)) { e with
        slab, pendingOutgoing := 0, pendingIncoming := 0, outgoing := [] }
  | openDuplicate (msg : ChannelOpen) (hused : e.peerNumberInUse ⟨msg.senderChannel⟩ = true) :
      Effect e (.handleOpen msg) (.handled (.error (.duplicatePeerNumber ⟨msg.senderChannel⟩))) e
  | openRefused (msg : ChannelOpen) (hunused : e.peerNumberInUse ⟨msg.senderChannel⟩ = false) :
      Effect e (.handleOpen msg)
        (.handled (.ok (.incomingRefusedByLimit ⟨msg.senderChannel⟩ msg.channelType)))
        { e with outgoing := e.outgoing ++
          [.openFailure ⟨msg.senderChannel⟩ resourceShortage (utf8 "too many pending channels")
            []] }
  | incoming (msg : ChannelOpen) (handle : ChannelHandle) (slab : Slab Channel)
      (hunused : e.peerNumberInUse ⟨msg.senderChannel⟩ = false)
      (hpending : e.pendingIncoming < e.limits.maxPendingIncoming)
      (hlive : e.slab.live < e.limits.maxChannels)
      (hplaced : e.slab.Placed (.pendingIncoming msg.channelType ⟨msg.senderChannel⟩
        ⟨msg.initialWindowSize, msg.maximumPacketSize⟩) handle slab) :
      Effect e (.handleOpen msg)
        (.handled (.ok (.incomingOpen handle msg.channelType ⟨msg.senderChannel⟩
          ⟨msg.initialWindowSize, msg.maximumPacketSize⟩ msg.typeSpecific)))
        { e with slab, pendingIncoming := e.pendingIncoming + 1 }
  | confirmationRejected (msg : ChannelOpenConfirmation) (v : Violation)
      (h : Reply e ⟨msg.recipientChannel⟩ (.error v) ∨
        e.peerNumberInUse ⟨msg.senderChannel⟩ = true) :
      Effect e (.handleOpenConfirmation msg) (.handled (.error v)) e
  | confirmed (msg : ChannelOpenConfirmation) (h : ChannelHandle) (channelType : Bytes)
      (credit : Credit) (slab : Slab Channel)
      (hunused : e.peerNumberInUse ⟨msg.senderChannel⟩ = false)
      (hget : e.slab.get h = some (.pendingOutgoing channelType ⟨msg.recipientChannel⟩ credit))
      (hupdated : e.slab.Updated h.index.toNat
        (.pendingOutgoing channelType ⟨msg.recipientChannel⟩ credit)
        (.established ⟨msg.recipientChannel⟩ ⟨msg.senderChannel⟩) slab) :
      Effect e (.handleOpenConfirmation msg)
        (.handled (.ok (.established h channelType ⟨msg.recipientChannel⟩ ⟨msg.senderChannel⟩
          credit ⟨msg.initialWindowSize, msg.maximumPacketSize⟩ msg.typeSpecific)))
        { e with slab, pendingOutgoing := e.pendingOutgoing - 1 }
  | confirmedLate (msg : ChannelOpenConfirmation)
      (hunused : e.peerNumberInUse ⟨msg.senderChannel⟩ = false)
      (hmem : ⟨msg.recipientChannel⟩ ∈ e.tombstones) :
      Effect e (.handleOpenConfirmation msg)
        (.handled (.ok (.lateReply ⟨msg.recipientChannel⟩ (.confirmed ⟨msg.senderChannel⟩
          ⟨msg.initialWindowSize, msg.maximumPacketSize⟩))))
        { e with tombstones := e.tombstones.erase ⟨msg.recipientChannel⟩ }
  | failureRejected (msg : ChannelOpenFailure) (v : Violation)
      (h : Reply e ⟨msg.recipientChannel⟩ (.error v)) :
      Effect e (.handleOpenFailure msg) (.handled (.error v)) e
  | failed (msg : ChannelOpenFailure) (h : ChannelHandle) (channelType : Bytes) (credit : Credit)
      (slab : Slab Channel)
      (hget : e.slab.get h = some (.pendingOutgoing channelType ⟨msg.recipientChannel⟩ credit))
      (hreleased : e.slab.Released h.index.toNat
        (.pendingOutgoing channelType ⟨msg.recipientChannel⟩ credit) slab) :
      Effect e (.handleOpenFailure msg)
        (.handled (.ok (.refused h msg.reasonCode msg.description msg.languageTag)))
        { e with slab, pendingOutgoing := e.pendingOutgoing - 1 }
  | failedLate (msg : ChannelOpenFailure) (hmem : ⟨msg.recipientChannel⟩ ∈ e.tombstones) :
      Effect e (.handleOpenFailure msg)
        (.handled (.ok (.lateReply ⟨msg.recipientChannel⟩ (.refused msg.reasonCode))))
        { e with tombstones := e.tombstones.erase ⟨msg.recipientChannel⟩ }
  | took : Effect e .nextOutgoing (.taken e.outgoing.head?) { e with outgoing := e.outgoing.tail }

section CallEffect

variable (hs : Sound e)

include hs

theorem Sound.pendingOutgoing_pos {h : ChannelHandle} {channelType : Bytes} {n : LocalNumber}
    {credit : Credit} (hget : e.slab.get h = some (.pendingOutgoing channelType n credit)) :
    1 ≤ e.pendingOutgoing := by
  rw [hs.pendingOutgoing_eq]
  exact count_pos (entry_of_get hget) rfl

theorem Sound.pendingIncoming_pos {h : ChannelHandle} {channelType : Bytes} {n : PeerNumber}
    {peer : Credit} (hget : e.slab.get h = some (.pendingIncoming channelType n peer)) :
    1 ≤ e.pendingIncoming := by
  rw [hs.pendingIncoming_eq]
  exact count_pos (entry_of_get hget) rfl

/-- The counters are far from their bounds. -/
theorem Sound.counters_lt :
    e.pendingOutgoing + 1 < 2 ^ 64 ∧ e.pendingIncoming + 1 < 2 ^ 64 := by
  have hout := count_le_live hs.valid (·.phase == .pendingOutgoing)
  have hin := count_le_live hs.valid (·.phase == .pendingIncoming)
  have hlive := hs.live_le
  have hchannels := hs.channels
  rw [← hs.pendingOutgoing_eq] at hout
  rw [← hs.pendingIncoming_eq] at hin
  omega

theorem openChannel_effect (params : OpenParams) :
    ∃ r e', e.openChannel params = .ok (r, e') ∧ Effect e (.openChannel params) (.opened r) e' := by
  rw [openChannel]
  by_cases hpending : e.limits.maxPendingOutgoing ≤ e.pendingOutgoing
  · rw [if_pos hpending]
    exact ⟨_, _, rfl, .openRejected params _ nofun⟩
  rw [if_neg hpending]
  by_cases hlive : e.limits.maxChannels ≤ e.slab.live
  · rw [if_pos hlive]
    exact ⟨_, _, rfl, .openRejected params _ nofun⟩
  rw [if_neg hlive, allocateNumber_eq]
  cases hnumber : e.numbersExhausted with
  | true => exact ⟨_, _, rfl, .openRejected params _ fun _ => hnumber⟩
  | false =>
    have hchannels := hs.channels
    obtain ⟨handle, slab, hinsert, hplaced⟩ := insert_ok hs.valid (by omega)
      (.pendingOutgoing params.channelType ⟨e.nextLocal⟩ params.credit)
    simp only [Bool.false_eq_true, if_false]
    change ∃ r e', (e.slab.insert _ >>= _) = _ ∧ _
    rw [hinsert, ok_bind]
    change ∃ r e', (addUsize e.pendingOutgoing 1 >>= _) = _ ∧ _
    rw [addUsize_ok hs.counters_lt.1, ok_bind]
    exact ⟨_, _, rfl, .opened params handle slab (by omega) (by omega) hnumber hplaced⟩

theorem cancel_effect (h : ChannelHandle) :
    ∃ r e', e.cancel h = .ok (r, e') ∧ Effect e (.cancel h) (.done r) e' := by
  rw [cancel]
  cases hget : e.slab.get h with
  | none => exact ⟨_, _, rfl, .cancelRejected h _⟩
  | some c =>
    cases c with
    | pendingOutgoing channelType n credit =>
      obtain ⟨hremove, hreleased⟩ := remove_ok hs.valid (entry_of_get hget)
      simp only [hremove, ok_bind, sub_ok (hs.pendingOutgoing_pos hget)]
      exact ⟨_, _, rfl, .cancelled h channelType n credit _ hget hreleased⟩
    | pendingIncoming | established => exact ⟨_, _, rfl, .cancelRejected h _⟩

theorem refuseWith_ok {h : ChannelHandle} {channelType : Bytes} {n : PeerNumber} {peer : Credit}
    (hget : e.slab.get h = some (.pendingIncoming channelType n peer)) (reasonCode : UInt32)
    (description : Bytes) :
    e.slab.Released h.index.toNat (.pendingIncoming channelType n peer) (e.slab.without h) ∧
      e.refuseWith h n reasonCode description = .ok { e with
        slab := e.slab.without h, pendingIncoming := e.pendingIncoming - 1,
        outgoing := e.outgoing ++ [.openFailure n reasonCode description []] } := by
  obtain ⟨hremove, hreleased⟩ := remove_ok hs.valid (entry_of_get hget)
  refine ⟨hreleased, ?_⟩
  rw [refuseWith, hremove, ok_bind,
    sub_ok (hs.pendingIncoming_pos hget)]
  rfl

theorem accept_effect (h : ChannelHandle) (params : AcceptParams) :
    ∃ r e', e.accept h params = .ok (r, e') ∧ Effect e (.accept h params) (.accepted r) e' := by
  rw [accept]
  cases hget : e.slab.get h with
  | none => exact ⟨_, _, rfl, .acceptRejected h params _ (by rw [hget]; nofun)⟩
  | some c =>
    cases c with
    | pendingOutgoing | established =>
      exact ⟨_, _, rfl, .acceptRejected h params _ (by rw [hget]; nofun)⟩
    | pendingIncoming channelType n peer =>
      simp only [allocateNumber_eq]
      cases hnumber : e.numbersExhausted with
      | true =>
        obtain ⟨hreleased, hrefuse⟩ := refuseWith_ok hs hget resourceShortage
          (utf8 "channel numbers exhausted")
        simp only [if_true, hrefuse, ok_bind]
        exact ⟨_, _, rfl, .acceptExhausted h params channelType n peer hget hnumber hreleased⟩
      | false =>
        obtain ⟨slab, hset, hupdated⟩ := set_ok hs.valid (entry_of_get hget)
          (.established ⟨e.nextLocal⟩ n)
        simp only [Bool.false_eq_true, if_false]
        change ∃ r e', (e.slab.set h _ >>= _) = _ ∧ _
        rw [hset, ok_bind]
        change ∃ r e', (sub e.pendingIncoming 1 >>= _) = _ ∧ _
        rw [sub_ok (hs.pendingIncoming_pos hget), ok_bind]
        exact ⟨_, _, rfl, .accepted h params channelType n peer slab hget hnumber hupdated⟩

theorem refuse_effect (h : ChannelHandle) (reasonCode : UInt32) (description : Bytes) :
    ∃ r e', e.refuse h reasonCode description = .ok (r, e') ∧
      Effect e (.refuse h reasonCode description) (.done r) e' := by
  rw [refuse]
  cases hget : e.slab.get h with
  | none => exact ⟨_, _, rfl, .refuseRejected h _ _ _⟩
  | some c =>
    cases c with
    | pendingIncoming channelType n peer =>
      obtain ⟨hreleased, hrefuse⟩ := refuseWith_ok hs hget reasonCode description
      simp only [hrefuse, ok_bind]
      exact ⟨_, _, rfl, .refused h reasonCode description channelType n peer _ hget hreleased⟩
    | pendingOutgoing | established => exact ⟨_, _, rfl, .refuseRejected h _ _ _⟩

theorem handleOpen_effect (msg : ChannelOpen) :
    ∃ r e', e.handleOpen msg = .ok (r, e') ∧ Effect e (.handleOpen msg) (.handled r) e' := by
  rw [handleOpen]
  cases hused : e.peerNumberInUse ⟨msg.senderChannel⟩ with
  | true => exact ⟨_, _, rfl, .openDuplicate msg hused⟩
  | false =>
    simp only [Bool.false_eq_true, if_false]
    by_cases hlimit : (decide (e.limits.maxPendingIncoming ≤ e.pendingIncoming) ||
        decide (e.limits.maxChannels ≤ e.slab.live)) = true
    · rw [if_pos hlimit]
      exact ⟨_, _, rfl, .openRefused msg hused⟩
    rw [if_neg hlimit]
    simp only [Bool.or_eq_true, decide_eq_true_eq, not_or, Nat.not_le] at hlimit
    have hchannels := hs.channels
    obtain ⟨handle, slab, hinsert, hplaced⟩ := insert_ok hs.valid (by omega)
      (.pendingIncoming msg.channelType ⟨msg.senderChannel⟩
        ⟨msg.initialWindowSize, msg.maximumPacketSize⟩)
    simp only [hinsert, ok_bind, addUsize_ok hs.counters_lt.2]
    exact ⟨_, _, rfl, .incoming msg handle slab hused hlimit.1 hlimit.2 hplaced⟩

theorem handleOpenConfirmation_effect (msg : ChannelOpenConfirmation) :
    ∃ r e', e.handleOpenConfirmation msg = .ok (r, e') ∧
      Effect e (.handleOpenConfirmation msg) (.handled r) e' := by
  rw [handleOpenConfirmation]
  have hreply := hs.reply msg.recipientChannel
  generalize e.locateReply msg.recipientChannel = answer at hreply
  cases hused : e.peerNumberInUse ⟨msg.senderChannel⟩ with
  | true =>
    cases answer with
    | error v => exact ⟨_, _, rfl, .confirmationRejected msg v (.inr hused)⟩
    | ok => exact ⟨_, _, rfl, .confirmationRejected msg _ (.inr hused)⟩
  | false =>
    cases hreply with
    | violation v hmem hnot =>
      exact ⟨_, _, rfl, .confirmationRejected msg v (.inl (.violation v hmem hnot))⟩
    | tombstone hmem => exact ⟨_, _, rfl, .confirmedLate msg hused hmem⟩
    | pending h channelType credit hget =>
      obtain ⟨slab, hset, hupdated⟩ := set_ok hs.valid (entry_of_get hget)
        (.established ⟨msg.recipientChannel⟩ ⟨msg.senderChannel⟩)
      simp only [Bool.false_eq_true, if_false, consumeReply, hget, hset,
        ok_bind, sub_ok (hs.pendingOutgoing_pos hget)]
      exact ⟨_, _, rfl, .confirmed msg h channelType credit slab hused hget hupdated⟩

theorem handleOpenFailure_effect (msg : ChannelOpenFailure) :
    ∃ r e', e.handleOpenFailure msg = .ok (r, e') ∧
      Effect e (.handleOpenFailure msg) (.handled r) e' := by
  rw [handleOpenFailure]
  have hreply := hs.reply msg.recipientChannel
  generalize e.locateReply msg.recipientChannel = answer at hreply
  cases hreply with
  | violation v hmem hnot =>
    exact ⟨_, _, rfl, .failureRejected msg v (.violation v hmem hnot)⟩
  | tombstone hmem => exact ⟨_, _, rfl, .failedLate msg hmem⟩
  | pending h channelType credit hget =>
    obtain ⟨hremove, hreleased⟩ := remove_ok hs.valid (entry_of_get hget)
    simp only [consumeReply, hremove, ok_bind,
      sub_ok (hs.pendingOutgoing_pos hget)]
    exact ⟨_, _, rfl, .failed msg h channelType credit _ hget hreleased⟩

omit hs in
/-- What the function behind a call does, the call does. -/
theorem effect_map {α : Type} {x : Checked (α × OpeningEngine)} {c : Call} {f : α → Answer}
    (h : ∃ r e', x = .ok (r, e') ∧ Effect e c (f r) e') :
    ∃ a e', (fun y => (f y.1, y.2)) <$> x = .ok (a, e') ∧ Effect e c a e' := by
  obtain ⟨r, e', rfl, heffect⟩ := h
  exact ⟨_, e', rfl, heffect⟩

/-- **Every call** on a sound engine returns, with one of the effects. -/
theorem call_effect (c : Call) : ∃ a e', e.call c = .ok (a, e') ∧ Effect e c a e' := by
  cases c with
  | openChannel params => exact effect_map (openChannel_effect hs params)
  | cancel h => exact effect_map (cancel_effect hs h)
  | accept h params => exact effect_map (accept_effect hs h params)
  | refuse h reasonCode description => exact effect_map (refuse_effect hs h reasonCode description)
  | transportLost => exact ⟨_, _, rfl, .lost _ _ (drain_spec hs.valid)⟩
  | handleOpen msg => exact effect_map (handleOpen_effect hs msg)
  | handleOpenConfirmation msg => exact effect_map (handleOpenConfirmation_effect hs msg)
  | handleOpenFailure msg => exact effect_map (handleOpenFailure_effect hs msg)
  | nextOutgoing => exact ⟨_, _, rfl, .took⟩

/-- What a call did is one of the effects. -/
theorem effect_of_call {c : Call} {a : Answer} (h : e.call c = .ok (a, e')) : Effect e c a e' := by
  obtain ⟨_, _, hrun, heffect⟩ := call_effect hs c
  cases h.symm.trans hrun
  exact heffect

end CallEffect

/-! ### The invariant is kept -/

/-- The next number is the number of those handed out. -/
theorem allocated_of_not_exhausted (h : e.numbersExhausted = false) :
    e.allocated = e.nextLocal.toNat := by
  rw [allocated, h]
  rfl

theorem allocated_withNext (h : e.numbersExhausted = false) :
    e.withNext.allocated = e.allocated + 1 := by
  rw [allocated_of_not_exhausted h, allocated, withNext]
  by_cases hnext : e.nextLocal.toNat + 1 < 2 ^ 32
  · simp only [if_pos hnext, decide_eq_true hnext, Bool.not_true, Bool.false_eq_true, if_false]
    rw [UInt32.toNat_add]
    exact Nat.mod_eq_of_lt hnext
  · simp only [if_neg hnext, decide_eq_false hnext, Bool.not_false, if_true]

/-- Handing out a number takes none back. -/
theorem allocated_le_withNext (h : e.numbersExhausted = false) :
    e.allocated ≤ e.withNext.allocated := by
  rw [allocated_withNext h]
  exact Nat.le_succ _

/-- The next number is a new one. -/
theorem next_is_new (h : e.numbersExhausted = false) :
    e.allocated ≤ e.nextLocal.toNat ∧ e.nextLocal.toNat < e.withNext.allocated := by
  rw [allocated_withNext h, allocated_of_not_exhausted h]
  exact ⟨Nat.le_refl _, Nat.lt_succ_self _⟩

/-- There is room where a channel was removed. -/
theorem Sound.live_le_of_released {i : Nat} {old : Channel} {slab : Slab Channel} (hs : Sound e)
    (h : e.slab.Released i old slab) : slab.live ≤ e.limits.maxChannels := by
  have hlive := h.live_eq
  have hold := hs.live_le
  omega

/-- The numbers run out at the last one. -/
theorem exhausted_withNext (h : e.withNext.numbersExhausted = true) :
    e.withNext.nextLocal.toNat + 1 = 2 ^ 32 := by
  have hlt := e.nextLocal.toNat_lt
  by_cases hnext : e.nextLocal.toNat + 1 < 2 ^ 32
  · rw [withNext] at h
    simp only [decide_eq_true hnext, Bool.not_true, Bool.false_eq_true] at h
  · rw [withNext]
    simp only [if_neg hnext]
    omega

/-- A number that one kind of number is taken from was not there before, or it was at the place
that changed. -/
theorem inj_of_changed {b b' : Slab Channel} {i : Nat} {old new : Option Channel} {ν : Type}
    {number? : Channel → Option ν} (hchanged : b.Changed i old new b')
    (hinj : ∀ {i j c d n}, b.entry i = some c → b.entry j = some d → number? c = some n →
      number? d = some n → i = j)
    (hnew : ∀ {c n j d}, new = some c → number? c = some n → b.entry j = some d →
      number? d = some n → j = i) {j k : Nat} {c d : Channel} {n : ν} (hj : b'.entry j = some c)
    (hk : b'.entry k = some d) (hc : number? c = some n) (hd : number? d = some n) : j = k := by
  rcases hchanged.entry_cases hj with ⟨rfl, hc'⟩ | ⟨-, hj⟩
  · rcases hchanged.entry_cases hk with ⟨rfl, -⟩ | ⟨-, hk⟩
    · rfl
    · exact (hnew hc' hc hk hd).symm
  · rcases hchanged.entry_cases hk with ⟨rfl, hd'⟩ | ⟨-, hk⟩
    · exact hnew hd' hd hj hc
    · exact hinj hj hk hc hd

/-- One channel was entered, established or removed: its numbers are the ones it had or new ones,
and if it is removed its local number may be a tombstone now. -/
theorem Sound.changed {i : Nat} {old new : Option Channel} (hs : Sound e)
    (hchanged : e.slab.Changed i old new e'.slab) (hlimits : e'.limits = e.limits)
    (hlive : e'.slab.live ≤ e.limits.maxChannels)
    (hout : e'.pendingOutgoing + (if old.any (·.phase == .pendingOutgoing) then 1 else 0) =
      e.pendingOutgoing + if new.any (·.phase == .pendingOutgoing) then 1 else 0)
    (hin : e'.pendingIncoming + (if old.any (·.phase == .pendingIncoming) then 1 else 0) =
      e.pendingIncoming + if new.any (·.phase == .pendingIncoming) then 1 else 0)
    (hout_le : e'.pendingOutgoing ≤ e.limits.maxPendingOutgoing)
    (hin_le : e'.pendingIncoming ≤ e.limits.maxPendingIncoming)
    (hnodup : e'.tombstones.Nodup) (hlength : e'.tombstones.length ≤ e.limits.maxTombstones)
    (hmem : ∀ n ∈ e'.tombstones, n ∈ e.tombstones ∨
      new = none ∧ old.bind Channel.localNumber? = some n)
    (hlocal : ∀ c n, new = some c → c.localNumber? = some n →
      old.bind Channel.localNumber? = some n ∨
        e.allocated ≤ n.value.toNat ∧ n.value.toNat < e'.allocated)
    (hpeer : ∀ c n, new = some c → c.peerNumber? = some n →
      old.bind Channel.peerNumber? = some n ∨ e.peerNumberInUse n = false)
    (hmono : e.allocated ≤ e'.allocated)
    (hexhausted : e'.numbersExhausted = true → e'.nextLocal.toNat + 1 = 2 ^ 32) : Sound e' where
  channels := hlimits ▸ hs.channels
  valid := hchanged.valid
  length_le := by
    have hlength := hchanged.length_le
    have hold := hs.length_le
    rw [hlimits]
    omega
  live_le := hlimits ▸ hlive
  pendingOutgoing_eq := by
    have hcount := hchanged.count_eq (·.phase == .pendingOutgoing)
    rw [← hs.pendingOutgoing_eq, ← hout] at hcount
    exact (Nat.add_right_cancel hcount).symm
  pendingIncoming_eq := by
    have hcount := hchanged.count_eq (·.phase == .pendingIncoming)
    rw [← hs.pendingIncoming_eq, ← hin] at hcount
    exact (Nat.add_right_cancel hcount).symm
  pendingOutgoing_le := hlimits ▸ hout_le
  pendingIncoming_le := hlimits ▸ hin_le
  tombstones_le := hlimits ▸ hlength
  tombstones_nodup := hnodup
  not_tombstone hentry hn hin := by
    rcases hchanged.entry_cases hentry with ⟨-, hc⟩ | ⟨hother, hentry⟩
    · rcases hmem _ hin with hin | ⟨hnone, -⟩
      · rcases hlocal _ _ hc hn with hold | hnew
        · obtain ⟨o, ho, hn⟩ := Option.bind_eq_some_iff.mp hold
          exact hs.not_tombstone (hchanged.entry_old.trans ho) hn hin
        · exact absurd (hs.tombstone_lt hin) (Nat.not_lt.mpr hnew.1)
      · cases hnone.symm.trans hc
    · rcases hmem _ hin with hin | ⟨-, hold⟩
      · exact hs.not_tombstone hentry hn hin
      · obtain ⟨o, ho, hm⟩ := Option.bind_eq_some_iff.mp hold
        exact hother (hs.local_inj hentry (hchanged.entry_old.trans ho) hn hm)
  local_inj := by
    refine inj_of_changed hchanged hs.local_inj fun hc hn hj hd => ?_
    rcases hlocal _ _ hc hn with hold | hnew
    · obtain ⟨o, ho, hn⟩ := Option.bind_eq_some_iff.mp hold
      exact hs.local_inj hj (hchanged.entry_old.trans ho) hd hn
    · exact absurd (hs.local_lt hj hd) (Nat.not_lt.mpr hnew.1)
  peer_inj := by
    refine inj_of_changed hchanged hs.peer_inj fun hc hn hj hd => ?_
    rcases hpeer _ _ hc hn with hold | hnew
    · obtain ⟨o, ho, hn⟩ := Option.bind_eq_some_iff.mp hold
      exact hs.peer_inj hj (hchanged.entry_old.trans ho) hd hn
    · exact absurd (peerNumberInUse_iff.mpr ⟨_, _, hj, hd⟩) (Bool.eq_false_iff.mp hnew)
  local_lt hentry hn := by
    rcases hchanged.entry_cases hentry with ⟨-, hc⟩ | ⟨-, hentry⟩
    · rcases hlocal _ _ hc hn with hold | hnew
      · obtain ⟨o, ho, hn⟩ := Option.bind_eq_some_iff.mp hold
        exact Nat.lt_of_lt_of_le (hs.local_lt (hchanged.entry_old.trans ho) hn) hmono
      · exact hnew.2
    · exact Nat.lt_of_lt_of_le (hs.local_lt hentry hn) hmono
  tombstone_lt hin := by
    refine Nat.lt_of_lt_of_le ?_ hmono
    rcases hmem _ hin with hold | ⟨-, hnew⟩
    · exact hs.tombstone_lt hold
    · obtain ⟨o, ho, hn⟩ := Option.bind_eq_some_iff.mp hnew
      exact hs.local_lt (hchanged.entry_old.trans ho) hn
  exhausted := hexhausted

/-- Nothing but the messages and the tombstones changed. -/
theorem Sound.tombstones {tombstones : List LocalNumber} (hs : Sound e)
    (hsub : tombstones.Sublist e.tombstones) (outgoing : List Outgoing) :
    Sound { e with tombstones, outgoing } :=
  { hs with
    tombstones_le := Nat.le_trans hsub.length_le hs.tombstones_le
    tombstones_nodup := hs.tombstones_nodup.sublist hsub
    not_tombstone := fun hentry hn hmem => hs.not_tombstone hentry hn (hsub.subset hmem)
    tombstone_lt := fun hmem => hs.tombstone_lt (hsub.subset hmem) }

/-- **The invariant is kept** by every call. -/
theorem Effect.sound {c : Call} {a : Answer} (h : Effect e c a e') (hs : Sound e) : Sound e' := by
  cases h with
  | openRejected | cancelRejected | acceptRejected | refuseRejected | openDuplicate
  | confirmationRejected | failureRejected => exact hs
  | openRefused | took => exact hs.tombstones (.refl _) _
  | confirmedLate | failedLate => exact hs.tombstones List.erase_sublist _
  | opened _ _ _ hpending hlive hnumber hplaced =>
    refine hs.changed hplaced.changed rfl (hplaced.live_eq ▸ hlive) rfl rfl hpending
      hs.pendingIncoming_le hs.tombstones_nodup hs.tombstones_le (fun _ => .inl) ?_ nofun
      (allocated_le_withNext hnumber) exhausted_withNext
    rintro _ n ⟨⟩ ⟨⟩
    exact .inr (next_is_new hnumber)
  | incoming _ _ _ hunused hpending hlive hplaced =>
    refine hs.changed hplaced.changed rfl (hplaced.live_eq ▸ hlive) rfl rfl hs.pendingOutgoing_le
      hpending hs.tombstones_nodup hs.tombstones_le (fun _ => .inl) nofun ?_ (Nat.le_refl _)
      hs.exhausted
    rintro _ n ⟨⟩ ⟨⟩
    exact .inr hunused
  | accepted _ _ _ _ _ _ hget hnumber hupdated =>
    refine hs.changed hupdated.changed rfl (hupdated.live_eq ▸ hs.live_le) rfl
      (Nat.sub_add_cancel (hs.pendingIncoming_pos hget)) hs.pendingOutgoing_le
      (Nat.le_trans (Nat.sub_le _ _) hs.pendingIncoming_le) hs.tombstones_nodup hs.tombstones_le
      (fun _ => .inl) ?_ ?_ (allocated_le_withNext hnumber) exhausted_withNext
    · rintro _ m ⟨⟩ ⟨⟩
      exact .inr (next_is_new hnumber)
    · rintro _ m ⟨⟩ ⟨⟩
      exact .inl rfl
  | confirmed _ _ _ _ _ hunused hget hupdated =>
    refine hs.changed hupdated.changed rfl (hupdated.live_eq ▸ hs.live_le)
      (Nat.sub_add_cancel (hs.pendingOutgoing_pos hget)) rfl
      (Nat.le_trans (Nat.sub_le _ _) hs.pendingOutgoing_le) hs.pendingIncoming_le
      hs.tombstones_nodup hs.tombstones_le (fun _ => .inl) ?_ ?_ (Nat.le_refl _) hs.exhausted
    · rintro _ m ⟨⟩ ⟨⟩
      exact .inl rfl
    · rintro _ m ⟨⟩ ⟨⟩
      exact .inr hunused
  | cancelled _ _ n _ _ hget hreleased =>
    have hfresh := hs.not_tombstone (entry_of_get hget) rfl
    have hsub := List.drop_sublist
      ((e.tombstones ++ [n]).length - e.limits.maxTombstones) (e.tombstones ++ [n])
    refine hs.changed hreleased.changed rfl (hs.live_le_of_released hreleased)
      (Nat.sub_add_cancel (hs.pendingOutgoing_pos hget)) rfl
      (Nat.le_trans (Nat.sub_le _ _) hs.pendingOutgoing_le) hs.pendingIncoming_le ?_ ?_ ?_ nofun
      nofun (Nat.le_refl _) hs.exhausted
    · refine List.Nodup.sublist hsub (List.nodup_append.mpr
        ⟨hs.tombstones_nodup, List.nodup_singleton _, fun x hx y hy => ?_⟩)
      rw [List.mem_singleton.mp hy]
      exact fun heq => hfresh (heq ▸ hx)
    · rw [List.length_drop]
      omega
    · intro m hm
      rcases List.mem_append.mp (hsub.subset hm) with hold | hnew
      · exact .inl hold
      · rw [List.mem_singleton.mp hnew]
        exact .inr ⟨rfl, rfl⟩
  | acceptExhausted _ _ _ _ _ hget _ hreleased | refused _ _ _ _ _ _ _ hget hreleased =>
    exact hs.changed hreleased.changed rfl (hs.live_le_of_released hreleased) rfl
      (Nat.sub_add_cancel (hs.pendingIncoming_pos hget)) hs.pendingOutgoing_le
      (Nat.le_trans (Nat.sub_le _ _) hs.pendingIncoming_le) hs.tombstones_nodup hs.tombstones_le
      (fun _ => .inl) nofun nofun (Nat.le_refl _) hs.exhausted
  | failed _ _ _ _ _ hget hreleased =>
    exact hs.changed hreleased.changed rfl (hs.live_le_of_released hreleased)
      (Nat.sub_add_cancel (hs.pendingOutgoing_pos hget)) rfl
      (Nat.le_trans (Nat.sub_le _ _) hs.pendingOutgoing_le) hs.pendingIncoming_le
      hs.tombstones_nodup hs.tombstones_le (fun _ => .inl) nofun nofun (Nat.le_refl _) hs.exhausted
  | lost _ slab hdrained =>
    have hnone {i : Nat} {c : Channel} (hentry : slab.entry i = some c) : False := by
      rw [hdrained.entry_eq] at hentry
      cases hentry
    exact ⟨hs.channels, hdrained.valid, by rw [hdrained.length_eq]; exact hs.length_le,
      by rw [hdrained.live_eq]; exact Nat.zero_le _, (hdrained.count_eq _).symm,
      (hdrained.count_eq _).symm, Nat.zero_le _, Nat.zero_le _, hs.tombstones_le,
      hs.tombstones_nodup, fun hentry => (hnone hentry).elim, fun hentry => (hnone hentry).elim,
      fun hentry => (hnone hentry).elim, fun hentry => (hnone hentry).elim, hs.tombstone_lt,
      hs.exhausted⟩

end Tatami.Connection
