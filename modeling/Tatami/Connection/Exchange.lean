import Tatami.Connection.Invariant
import Mathlib.Data.Multiset.Count

/-! # What a call does to the numbers both sides share

Two engines know each other's channels by the numbers in the messages between them. For each of the
quantities that the argument about a pair of engines counts or looks up (messages that send a
number, replies to a number, pending and established channels), one lemma here says what a call can
do to it. The argument itself then never looks at a call again. -/

namespace Tatami.Connection

open Tatami List
open Tatami.Wire (ChannelOpen ChannelOpenConfirmation ChannelOpenFailure)

/-! ### Messages and channels that carry a number -/

/-- The message opens the sender's channel `v`. -/
def Outgoing.opens (v : UInt32) : Outgoing → Bool
  | .openChannel _ n _ _ => n.value == v
  | _ => false

/-- The message makes the sender's number `v` known. -/
def Outgoing.sends (v : UInt32) (m : Outgoing) : Bool := m.localNumber?.any (·.value == v)

/-- The message answers the receiver's open `v`. -/
def Outgoing.repliesTo (v : UInt32) : Outgoing → Bool
  | .openConfirmation n _ _ _ => n.value == v
  | .openFailure n _ _ _ => n.value == v
  | _ => false

/-- The channel waits for a decision on the peer's open `v`. -/
def Channel.pendingFrom (v : UInt32) : Channel → Bool
  | .pendingIncoming _ n _ => n.value == v
  | _ => false

/-- The channel has the peer's number `v`. -/
def Channel.hasPeer (v : UInt32) (c : Channel) : Bool := c.peerNumber?.any (·.value == v)

/-- The peer's open that a call hands over. -/
def Call.opens (v : UInt32) : Call → Bool
  | .handleOpen msg => msg.senderChannel == v
  | _ => false

/-- The peer's number that a call hands over. -/
def Call.sends (v : UInt32) : Call → Bool
  | .handleOpen msg => msg.senderChannel == v
  | .handleOpenConfirmation msg => msg.senderChannel == v
  | _ => false

/-- Our open that a call hands over the answer to. -/
def Call.recipient? : Call → Option LocalNumber
  | .handleOpenConfirmation msg => some ⟨msg.recipientChannel⟩
  | .handleOpenFailure msg => some ⟨msg.recipientChannel⟩
  | _ => none

/-- The call that hands a message to its receiver. -/
def Outgoing.delivery : Outgoing → Call
  | .openChannel channelType n credit typeSpecific =>
    .handleOpen ⟨channelType, n.value, credit.initialWindowSize, credit.maximumPacketSize,
      typeSpecific⟩
  | .openConfirmation r n credit typeSpecific =>
    .handleOpenConfirmation ⟨r.value, n.value, credit.initialWindowSize,
      credit.maximumPacketSize, typeSpecific⟩
  | .openFailure r reasonCode description languageTag =>
    .handleOpenFailure ⟨r.value, reasonCode, description, languageTag⟩

/-- A command of the application. -/
def Call.isCommand : Call → Bool
  | .openChannel _ => true
  | .cancel _ => true
  | .accept _ _ => true
  | .refuse _ _ _ => true
  | _ => false

/-- A call of the exchange: a command, or the delivery of a message. -/
def Call.exchanges : Call → Bool
  | .transportLost => false
  | .nextOutgoing => false
  | _ => true

/-- The messages a call queued. -/
def newMessages (e e' : OpeningEngine) : List Outgoing := e'.outgoing.drop e.outgoing.length

/-- The numbers of the opens a call cancelled. -/
def cancelledBy (e : OpeningEngine) : Call → Answer → List LocalNumber
  | .cancel h, .done (.ok ()) => ((e.slab.get h).bind Channel.localNumber?).toList
  | _, _ => []

variable {e e' : OpeningEngine} {c : Call} {a : Answer}

/-! ### Queued messages -/

/-- A call of the exchange only adds to the queue. -/
theorem Effect.outgoing_eq (h : Effect e c a e') (hc : c.exchanges = true) :
    e'.outgoing = e.outgoing ++ newMessages e e' := by
  rw [newMessages]
  cases h with
  | took => cases hc
  | lost => cases hc
  | opened | accepted | acceptExhausted | refused | openRefused => rw [drop_left]
  | _ => rw [drop_length, append_nil]

/-- What a call queues, message by message. -/
inductive Queued (e : OpeningEngine) (a : Answer) (e' : OpeningEngine) : List Outgoing → Prop where
  | nothing : Queued e a e' []
  | opening (channelType : Bytes) (credit : Credit) (typeSpecific : Bytes) (i : Nat)
      (hnew : e'.slab.entry i = some (.pendingOutgoing channelType ⟨e.nextLocal⟩ credit)) :
      Queued e a e' [.openChannel channelType ⟨e.nextLocal⟩ credit typeSpecific]
  | confirmation (handle : ChannelHandle) (channelType : Bytes) (n : PeerNumber)
      (credit peer : Credit) (typeSpecific : Bytes) (i : Nat)
      (hold : e.slab.entry i = some (.pendingIncoming channelType n peer))
      (hnew : e'.slab.entry i = some (.established ⟨e.nextLocal⟩ n))
      (hanswer : a = .accepted
        (.ok (.established handle channelType ⟨e.nextLocal⟩ n credit peer []))) :
      Queued e a e' [.openConfirmation n ⟨e.nextLocal⟩ credit typeSpecific]
  | failure (n : PeerNumber) (reasonCode : UInt32) (description : Bytes) :
      Queued e a e' [.openFailure n reasonCode description []]

theorem Effect.queued (h : Effect e c a e') : Queued e a e' (newMessages e e') := by
  rw [newMessages]
  cases h with
  | opened _ handle slab _ _ _ hplaced =>
    rw [drop_left]
    refine .opening _ _ _ handle.index.toNat ?_
    change slab.entry _ = _
    rw [hplaced.entry_eq, if_pos rfl]
  | accepted h _ channelType n peer slab _ _ hupdated =>
    rw [drop_left]
    refine .confirmation h channelType n _ peer _ h.index.toNat hupdated.entry_old ?_ rfl
    change slab.entry _ = _
    rw [hupdated.entry_eq, if_pos rfl]
  | acceptExhausted | refused | openRefused =>
    rw [drop_left]
    exact .failure _ _ _
  | took =>
    rw [drop_eq_nil_of_le (by rw [length_tail]; omega)]
    exact .nothing
  | lost =>
    rw [drop_nil]
    exact .nothing
  | _ =>
    rw [drop_length]
    exact .nothing

/-! ### Counted channels -/

/-- Only the delivery of a number adds a channel with it. -/
theorem Effect.count_hasPeer_le (h : Effect e c a e') (v : UInt32) :
    e'.slab.count (·.hasPeer v) ≤ e.slab.count (·.hasPeer v) + if c.sends v then 1 else 0 := by
  cases h with
  | opened _ _ _ _ _ _ hplaced | incoming _ _ _ _ _ _ hplaced =>
    exact (hplaced.count_eq _).le
  | accepted _ _ _ _ _ _ _ _ hupdated =>
    exact (Nat.add_right_cancel (hupdated.count_eq (·.hasPeer v))).le
  | confirmed _ _ _ _ _ _ _ hupdated =>
    exact (hupdated.count_eq (·.hasPeer v)).le
  | cancelled _ _ _ _ _ _ hreleased | acceptExhausted _ _ _ _ _ _ _ hreleased
  | refused _ _ _ _ _ _ _ _ hreleased | failed _ _ _ _ _ _ hreleased =>
    exact Nat.le_of_add_right_le (hreleased.count_eq (·.hasPeer v)).le
  | lost _ _ hdrained =>
    rw [hdrained.count_eq]
    exact Nat.zero_le _
  | _ => exact Nat.le_add_right _ _

/-- An open that is delivered becomes pending or is answered; a pending one stays or is answered. -/
theorem Effect.count_pendingFrom_le (h : Effect e c a e') (v : UInt32) :
    e'.slab.count (·.pendingFrom v) + (newMessages e e').countP (·.repliesTo v) ≤
      e.slab.count (·.pendingFrom v) + if c.opens v then 1 else 0 := by
  rw [newMessages]
  cases h with
  | opened _ _ _ _ _ _ hplaced =>
    rw [drop_left]
    exact (hplaced.count_eq _).le
  | incoming _ _ _ _ _ _ hplaced =>
    rw [drop_length]
    exact (hplaced.count_eq _).le
  | accepted _ _ _ _ _ _ _ _ hupdated =>
    rw [drop_left, countP_singleton]
    exact (hupdated.count_eq (·.pendingFrom v)).le
  | confirmed _ _ _ _ _ _ _ hupdated =>
    rw [drop_length]
    exact (hupdated.count_eq (·.pendingFrom v)).le
  | cancelled _ _ _ _ _ _ hreleased | failed _ _ _ _ _ _ hreleased =>
    rw [drop_length]
    exact (hreleased.count_eq (·.pendingFrom v)).le
  | acceptExhausted _ _ _ _ _ _ _ hreleased | refused _ _ _ _ _ _ _ _ hreleased =>
    rw [drop_left, countP_singleton]
    exact (hreleased.count_eq (·.pendingFrom v)).le
  | openRefused =>
    rw [drop_left, countP_singleton]
    exact Nat.le_refl _
  | lost _ _ hdrained =>
    rw [hdrained.count_eq, drop_nil]
    exact Nat.zero_le _
  | took =>
    rw [drop_eq_nil_of_le (by rw [length_tail]; omega)]
    exact Nat.le_add_right _ _
  | _ =>
    rw [drop_length]
    exact Nat.le_add_right _ _

/-! ### Channels that stay -/

theorem Effect.established_keep (h : Effect e c a e') (hc : c.exchanges = true) {i : Nat}
    {n : LocalNumber} {p : PeerNumber} (hentry : e.slab.entry i = some (.established n p)) :
    e'.slab.entry i = some (.established n p) := by
  cases h with
  | opened _ _ _ _ _ _ hplaced | incoming _ _ _ _ _ _ hplaced =>
    exact (hplaced.changed.entry_keep hentry).resolve_right nofun
  | accepted _ _ _ _ _ _ _ _ hupdated | confirmed _ _ _ _ _ _ _ hupdated =>
    exact (hupdated.changed.entry_keep hentry).resolve_right nofun
  | cancelled _ _ _ _ _ _ hreleased | acceptExhausted _ _ _ _ _ _ _ hreleased
  | refused _ _ _ _ _ _ _ _ hreleased | failed _ _ _ _ _ _ hreleased =>
    exact (hreleased.changed.entry_keep hentry).resolve_right nofun
  | lost => cases hc
  | _ => exact hentry

/-- What becomes of a pending outgoing open: it stays, it is cancelled, it is established by its
confirmation, or it is dropped by its failure. -/
inductive Awaited (e : OpeningEngine) (c : Call) (a : Answer) (e' : OpeningEngine) (i : Nat)
    (channelType : Bytes) (n : LocalNumber) (credit : Credit) : Prop where
  | kept (h : e'.slab.entry i = some (.pendingOutgoing channelType n credit))
  | cancelled (h : n ∈ cancelledBy e c a)
  | confirmed (handle : ChannelHandle) (p : PeerNumber) (peer : Credit) (typeSpecific : Bytes)
      (hcall : c = .handleOpenConfirmation
        ⟨n.value, p.value, peer.initialWindowSize, peer.maximumPacketSize, typeSpecific⟩)
      (hentry : e'.slab.entry i = some (.established n p))
      (hanswer : a = .handled
        (.ok (.established handle channelType n p credit peer typeSpecific)))
  | failed (msg : ChannelOpenFailure) (hcall : c = .handleOpenFailure msg)
      (hn : n = ⟨msg.recipientChannel⟩)

theorem Effect.awaited (h : Effect e c a e') (hc : c.exchanges = true) {i : Nat}
    {channelType : Bytes} {n : LocalNumber} {credit : Credit}
    (hentry : e.slab.entry i = some (.pendingOutgoing channelType n credit)) :
    Awaited e c a e' i channelType n credit := by
  cases h with
  | opened _ _ _ _ _ _ hplaced | incoming _ _ _ _ _ _ hplaced =>
    exact .kept ((hplaced.changed.entry_keep hentry).resolve_right nofun)
  | accepted _ _ _ _ _ _ _ _ hupdated =>
    exact .kept ((hupdated.changed.entry_keep hentry).resolve_right nofun)
  | acceptExhausted _ _ _ _ _ _ _ hreleased | refused _ _ _ _ _ _ _ _ hreleased =>
    exact .kept ((hreleased.changed.entry_keep hentry).resolve_right nofun)
  | cancelled _ _ _ _ _ hget hreleased =>
    rcases hreleased.changed.entry_keep hentry with hkept | ⟨-, ⟨⟩⟩
    · exact .kept hkept
    · refine .cancelled ?_
      rw [cancelledBy, hget]
      exact mem_singleton_self _
  | confirmed msg h _ _ slab _ _ hupdated =>
    rcases hupdated.changed.entry_keep hentry with hkept | ⟨hi, ⟨⟩⟩
    · exact .kept hkept
    · refine .confirmed h ⟨msg.senderChannel⟩ ⟨msg.initialWindowSize, msg.maximumPacketSize⟩
        msg.typeSpecific rfl ?_ rfl
      change slab.entry i = _
      rw [hupdated.entry_eq, if_pos hi]
  | failed msg _ _ _ _ _ hreleased =>
    rcases hreleased.changed.entry_keep hentry with hkept | ⟨-, ⟨⟩⟩
    · exact .kept hkept
    · exact .failed msg rfl rfl
  | lost => cases hc
  | _ => exact .kept hentry

/-! ### Channels that are new -/

/-- Where a channel of the engine comes from. -/
inductive Origin (e : OpeningEngine) (c : Call) (a : Answer) (e' : OpeningEngine) (i : Nat) :
    Channel → Prop where
  | old {d : Channel} (h : e.slab.entry i = some d) : Origin e c a e' i d
  | opened (channelType : Bytes) (n : LocalNumber) (credit : Credit) (typeSpecific : Bytes)
      (hnew : .openChannel channelType n credit typeSpecific ∈ newMessages e e')
      (hn : n = ⟨e.nextLocal⟩) :
      Origin e c a e' i (.pendingOutgoing channelType n credit)
  | incoming (channelType : Bytes) (n : PeerNumber) (peer : Credit) (typeSpecific : Bytes)
      (hcall : c = .handleOpen
        ⟨channelType, n.value, peer.initialWindowSize, peer.maximumPacketSize, typeSpecific⟩) :
      Origin e c a e' i (.pendingIncoming channelType n peer)
  | accepted (handle : ChannelHandle) (channelType : Bytes) (n : LocalNumber) (p : PeerNumber)
      (credit peer : Credit) (typeSpecific : Bytes)
      (hold : e.slab.entry i = some (.pendingIncoming channelType p peer))
      (hnew : .openConfirmation p n credit typeSpecific ∈ newMessages e e')
      (hn : n = ⟨e.nextLocal⟩)
      (hanswer : a = .accepted (.ok (.established handle channelType n p credit peer []))) :
      Origin e c a e' i (.established n p)
  | confirmed (handle : ChannelHandle) (channelType : Bytes) (n : LocalNumber) (p : PeerNumber)
      (credit peer : Credit) (typeSpecific : Bytes)
      (hold : e.slab.entry i = some (.pendingOutgoing channelType n credit))
      (hcall : c = .handleOpenConfirmation
        ⟨n.value, p.value, peer.initialWindowSize, peer.maximumPacketSize, typeSpecific⟩)
      (hanswer : a = .handled
        (.ok (.established handle channelType n p credit peer typeSpecific))) :
      Origin e c a e' i (.established n p)

theorem Effect.origin (h : Effect e c a e') {i : Nat} {d : Channel}
    (hentry : e'.slab.entry i = some d) : Origin e c a e' i d := by
  cases h with
  | opened params _ _ _ _ _ hplaced =>
    rcases hplaced.changed.entry_cases hentry with ⟨-, ⟨⟩⟩ | ⟨-, hold⟩
    · refine .opened _ _ _ params.typeSpecific ?_ rfl
      rw [newMessages, drop_left]
      exact mem_singleton_self _
    · exact .old hold
  | incoming msg _ _ _ _ _ hplaced =>
    rcases hplaced.changed.entry_cases hentry with ⟨-, ⟨⟩⟩ | ⟨-, hold⟩
    · exact .incoming _ _ _ msg.typeSpecific rfl
    · exact .old hold
  | accepted h params channelType n peer _ _ _ hupdated =>
    rcases hupdated.changed.entry_cases hentry with ⟨hi, ⟨⟩⟩ | ⟨-, hold⟩
    · refine .accepted h channelType _ n params.credit peer params.typeSpecific
        (hi ▸ hupdated.entry_old) ?_ rfl rfl
      rw [newMessages, drop_left]
      exact mem_singleton_self _
    · exact .old hold
  | confirmed msg h channelType credit _ _ _ hupdated =>
    rcases hupdated.changed.entry_cases hentry with ⟨hi, ⟨⟩⟩ | ⟨-, hold⟩
    · exact .confirmed h channelType _ _ credit ⟨msg.initialWindowSize, msg.maximumPacketSize⟩
        msg.typeSpecific (hi ▸ hupdated.entry_old) rfl rfl
    · exact .old hold
  | cancelled _ _ _ _ _ _ hreleased | acceptExhausted _ _ _ _ _ _ _ hreleased
  | refused _ _ _ _ _ _ _ _ hreleased | failed _ _ _ _ _ _ hreleased =>
    exact .old ((hreleased.changed.entry_cases hentry).resolve_left nofun).2
  | lost _ slab hdrained =>
    change slab.entry i = _ at hentry
    rw [hdrained.entry_eq] at hentry
    cases hentry
  | _ => exact .old hentry

/-! ### Tombstones -/

/-- What a call does to the tombstones. -/
inductive Buried (e : OpeningEngine) (c : Call) (a : Answer) (e' : OpeningEngine) : Prop where
  | kept (htombstones : e'.tombstones = e.tombstones) (hnone : cancelledBy e c a = [])
      (hreply : ∀ n, c.recipient? = some n →
        (∃ i channelType credit, e.slab.entry i = some (.pendingOutgoing channelType n credit) ∧
          e'.slab.entry i ≠ some (.pendingOutgoing channelType n credit)) ∨
        ∃ v, a = .handled (.error v))
  | cancelled (i : Nat) (channelType : Bytes) (n : LocalNumber) (credit : Credit)
      (hold : e.slab.entry i = some (.pendingOutgoing channelType n credit))
      (hnew : e'.slab.entry i = none) (hone : cancelledBy e c a = [n])
      (hnot : c.recipient? = none)
      (htombstones : e'.tombstones = (e.tombstones ++ [n]).drop
        ((e.tombstones ++ [n]).length - e.limits.maxTombstones))
  | late (n : LocalNumber) (hmem : n ∈ e.tombstones) (hnone : cancelledBy e c a = [])
      (hreply : c.recipient? = some n) (htombstones : e'.tombstones = e.tombstones.erase n)

theorem Effect.buried (h : Effect e c a e') : Buried e c a e' := by
  cases h with
  | cancelled h channelType n credit slab hget hreleased =>
    refine .cancelled h.index.toNat channelType n credit hreleased.entry_old ?_ ?_ rfl rfl
    · change slab.entry _ = _
      rw [hreleased.entry_eq, if_pos rfl]
    · rw [cancelledBy, hget]
      rfl
  | confirmed _ h channelType credit slab _ _ hupdated =>
    refine .kept rfl rfl fun n hn => .inl ?_
    cases hn
    refine ⟨h.index.toNat, channelType, credit, hupdated.entry_old, ?_⟩
    change slab.entry _ ≠ _
    rw [hupdated.entry_eq, if_pos rfl]
    nofun
  | failed _ h channelType credit slab _ hreleased =>
    refine .kept rfl rfl fun n hn => .inl ?_
    cases hn
    refine ⟨h.index.toNat, channelType, credit, hreleased.entry_old, ?_⟩
    change slab.entry _ ≠ _
    rw [hreleased.entry_eq, if_pos rfl]
    nofun
  | confirmationRejected _ v | failureRejected _ v =>
    exact .kept rfl rfl fun n _ => .inr ⟨v, rfl⟩
  | confirmedLate _ _ hmem | failedLate _ hmem => exact .late _ hmem rfl rfl rfl
  | cancelRejected | _ => exact .kept rfl rfl nofun

/-- The delivery of a reply to an open that waits, with a number not in use, is no violation. -/
theorem Effect.no_violation {v : Violation} (h : Effect e c (.handled (.error v)) e')
    (hreply : ∀ n, c.recipient? = some n → n ∈ e.tombstones ∨
      ∃ i channelType credit, e.slab.entry i = some (.pendingOutgoing channelType n credit))
    (hunused : ∀ n, c.sends n.value = true → e.peerNumberInUse n = false) : False := by
  have hrejected {n : LocalNumber} (hr : Reply e n (.error v)) (hn : c.recipient? = some n) :
      False := by
    cases hr with
    | violation _ hmem hnot =>
      rcases hreply n hn with hin | ⟨i, channelType, credit, hentry⟩
      · exact hmem hin
      · exact hnot i channelType credit hentry
  cases h with
  | openDuplicate msg hused =>
    exact absurd ((hunused ⟨msg.senderChannel⟩ (beq_self_eq_true _)).symm.trans hused) (by decide)
  | confirmationRejected msg v hcause =>
    rcases hcause with hr | hused
    · exact hrejected hr rfl
    · exact absurd ((hunused ⟨msg.senderChannel⟩ (beq_self_eq_true _)).symm.trans hused)
        (by decide)
  | failureRejected _ _ hcause => exact hrejected hcause rfl

end Tatami.Connection
