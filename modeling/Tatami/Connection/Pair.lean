import Tatami.Connection.Exchange
import Mathlib.Data.Multiset.AddSub
import Mathlib.Logic.Relation

/-! # Two engines that talk to each other

Two fresh engines are connected. The applications issue commands, messages are taken from the queue
of one side and handed to the other exactly once, in any order; the transport is never lost, and
neither side ever has more cancelled opens without an answer than it keeps tombstones. Then no side
accuses the other, each open is answered at most once, and the two sides agree on their channels
(`honest_pair`).

The argument counts where an open is: its message is under way, or it is pending at the peer, or it
was answered, and never two of these (`Link.once`); while it is under way, pending, or its answer is
under way, the opener still expects the answer (`Link.waits`). A number is sent at most once, so the
peer never sees it twice (`Link.senders`). -/

namespace Tatami.Connection

open Tatami List

/-! ### The system -/

/-- How many messages have a property. -/
def tally (p : Outgoing → Bool) (s : Multiset Outgoing) : Nat := s.countP fun m => p m = true

/-- The events an answer hands to the application. -/
def Answer.events : Answer → List Event
  | .accepted (.ok event) => [event]
  | .handled (.ok event) => [event]
  | .lost events => events
  | _ => []

/-- One side: its engine and the messages taken from it that were not delivered yet. The other
fields record the past and are never read by a step. -/
structure Side where
  engine : OpeningEngine
  wire : Multiset Outgoing
  /-- Every message that was ever queued. -/
  queued : Multiset Outgoing
  /-- Every event that was returned. -/
  events : List Event
  /-- The opens that were cancelled. -/
  cancelled : List LocalNumber
  /-- The opens whose reply was delivered. -/
  answered : List LocalNumber

namespace Side

/-- A side with a fresh engine. -/
def start (limits : OpeningLimits) : Side := ⟨.new limits, 0, 0, [], [], []⟩

/-- The messages that were queued and not delivered. -/
def flight (x : Side) : Multiset Outgoing := (x.engine.outgoing : Multiset Outgoing) + x.wire

/-- A side after a call. -/
def after (x : Side) (c : Call) (a : Answer) (e : OpeningEngine) : Side where
  engine := e
  wire := x.wire
  queued := x.queued + (newMessages x.engine e : Multiset Outgoing)
  events := x.events ++ a.events
  cancelled := x.cancelled ++ cancelledBy x.engine c a
  answered := x.answered ++ c.recipient?.toList

/-- No more cancelled opens wait for their reply than the engine keeps tombstones. -/
def Bounded (x : Side) : Prop :=
  (x.cancelled.filter (· ∉ x.answered)).length ≤ x.engine.limits.maxTombstones

/-- The side sent an open with this number, type and credit. -/
def Opened (x : Side) (n : LocalNumber) (channelType : Bytes) (credit : Credit) : Prop :=
  ∃ typeSpecific, .openChannel channelType n credit typeSpecific ∈ x.queued

/-- The side has an established channel with these numbers. -/
def Holds (x : Side) (n : LocalNumber) (p : PeerNumber) : Prop :=
  ∃ i, x.engine.slab.entry i = some (.established n p)

/-- The side was told of an established channel. -/
def Told (x : Side) (n : LocalNumber) (p : PeerNumber) (channelType : Bytes)
    (credit peer : Credit) :
    Prop :=
  ∃ handle typeSpecific, .established handle channelType n p credit peer typeSpecific ∈ x.events

/-- The side has a pending open with this number. -/
def Pending (x : Side) (n : LocalNumber) : Prop :=
  ∃ i channelType credit, x.engine.slab.entry i = some (.pendingOutgoing channelType n credit)

/-- The open with this number was cancelled or its reply was delivered. -/
def Settled (x : Side) (n : LocalNumber) : Prop := n ∈ x.cancelled ∨ n ∈ x.answered

end Side

/-- Where a call comes from: the application, or a message of the other side. -/
inductive Hands (y : Side) (c : Call) : Side → Prop where
  | command (hc : c.isCommand = true) : Hands y c y
  | message (m : Outgoing) (hm : m ∈ y.wire) (hc : c = m.delivery) :
      Hands y c { y with wire := y.wire.erase m }

/-- A step of side `x`, with the other side `y`: a message is taken from its queue, or it handles a
command or a message. -/
inductive SideStep (x y : Side) : Side → Side → Prop where
  | take (m : Outgoing) (e : OpeningEngine) (h : x.engine.nextOutgoing = (some m, e)) :
      SideStep x y { x with engine := e, wire := m ::ₘ x.wire } y
  | act (c : Call) (y' : Side) (hhands : Hands y c y') (a : Answer) (e : OpeningEngine)
      (hcall : x.engine.call c = .ok (a, e)) : SideStep x y (x.after c a e) y'

/-- The two sides. -/
structure Pair where
  a : Side
  b : Side

/-- A step of the pair, in which neither side has too many cancelled opens. -/
inductive PairStep : Pair → Pair → Prop where
  | left {a b a' b' : Side} (h : SideStep a b a' b') (ha : a'.Bounded) (hb : b'.Bounded) :
      PairStep ⟨a, b⟩ ⟨a', b'⟩
  | right {a b a' b' : Side} (h : SideStep b a b' a') (ha : a'.Bounded) (hb : b'.Bounded) :
      PairStep ⟨a, b⟩ ⟨a', b'⟩

/-! ### The invariant -/

/-- What holds of each side. -/
structure SideInv (x : Side) : Prop where
  sound : Sound x.engine
  flight_le : x.flight ≤ x.queued
  sends_le : ∀ v, tally (·.sends v) x.queued ≤ 1
  sends_lt : ∀ v, 0 < tally (·.sends v) x.queued → v.toNat < x.engine.allocated
  opened : ∀ {i channelType n credit},
    x.engine.slab.entry i = some (.pendingOutgoing channelType n credit) →
    x.Opened n channelType credit
  tombstones_eq : x.engine.tombstones = x.cancelled.filter (· ∉ x.answered)
  settled_lt : ∀ {n}, x.Settled n → n.value.toNat < x.engine.allocated
  settled_gone : ∀ {n}, x.Settled n → ¬x.Pending n

/-- The opener still expects the reply to its open. -/
def Side.Awaits (x : Side) (n : LocalNumber) : Prop := x.Pending n ∨ n ∈ x.engine.tombstones

/-- What holds between an opener `x` and its peer `y`. -/
structure Link (x y : Side) : Prop where
  /-- An open is under way, pending or answered, once. -/
  once : ∀ v, tally (·.opens v) x.flight + y.engine.slab.count (·.pendingFrom v) +
    tally (·.repliesTo v) y.queued ≤ 1
  /-- Only a number that was handed out is opened or answered. -/
  once_lt : ∀ v, 0 < tally (·.opens v) x.flight + y.engine.slab.count (·.pendingFrom v) +
    tally (·.repliesTo v) y.queued → v.toNat < x.engine.allocated
  /-- Until the reply is there, it is expected. -/
  waits : ∀ v, 0 < tally (·.opens v) x.flight + y.engine.slab.count (·.pendingFrom v) +
    tally (·.repliesTo v) y.flight → x.Awaits ⟨v⟩
  /-- A number is under way or known to the peer, once. -/
  senders : ∀ v, tally (·.sends v) x.flight + y.engine.slab.count (·.hasPeer v) ≤ 1
  senders_lt : ∀ v, 0 < y.engine.slab.count (·.hasPeer v) → v.toNat < x.engine.allocated
  /-- A pending incoming open is what the opener sent. -/
  asked : ∀ {i channelType n peer},
    y.engine.slab.entry i = some (.pendingIncoming channelType n peer) →
    x.Opened ⟨n.value⟩ channelType peer
  /-- A confirmation under way is of a channel that is established at its sender. -/
  confirmed : ∀ {p n credit typeSpecific}, .openConfirmation p n credit typeSpecific ∈ y.flight →
    y.Holds n p ∧ ∃ channelType peer, y.Told n p channelType credit peer ∧
      x.Opened ⟨p.value⟩ channelType peer
  /-- An established channel is established at the opener too, or it is the opener's and was
  cancelled or not confirmed there yet. -/
  matched : ∀ {n p}, y.Holds n p → ∃ channelType credit peer, y.Told n p channelType credit peer ∧
    (x.Holds ⟨p.value⟩ ⟨n.value⟩ ∧ x.Told ⟨p.value⟩ ⟨n.value⟩ channelType peer credit ∨
      x.Opened ⟨p.value⟩ channelType peer ∧ (⟨p.value⟩ ∈ x.cancelled ∨
        x.Pending ⟨p.value⟩ ∧
          ∃ typeSpecific, .openConfirmation p n credit typeSpecific ∈ y.flight))

variable {channelType : Bytes} {credit : Credit} {n : LocalNumber} {e' : OpeningEngine}
  {m : Outgoing}

/-! ### Counting messages -/

section Tally

variable {p : Outgoing → Bool} {s t : Multiset Outgoing}

/-- Of messages in two places, the counts add up. -/
theorem tally_add (p : Outgoing → Bool) (s t : Multiset Outgoing) :
    tally p (s + t) = tally p s + tally p t := Multiset.countP_add _ _ _

theorem tally_coe (p : Outgoing → Bool) (l : List Outgoing) :
    tally p (l : Multiset Outgoing) = l.countP p := by
  rw [tally, Multiset.coe_countP]
  simp

/-- One message more adds one to the count if it is of the kind. -/
theorem tally_cons (p : Outgoing → Bool) (m : Outgoing) (s : Multiset Outgoing) :
    tally p (m ::ₘ s) = tally p s + if p m then 1 else 0 := Multiset.countP_cons _ _ _

/-- Among fewer messages no more are of the kind. -/
theorem tally_le_of_le (h : s ≤ t) : tally p s ≤ tally p t := Multiset.countP_le_of_le _ h

theorem tally_pos (hm : m ∈ s) (hp : p m = true) : 0 < tally p s :=
  Multiset.countP_pos.mpr ⟨m, hm, hp⟩

/-- Of messages that are counted once there is one. -/
theorem eq_of_tally_le_one {m' : Outgoing} (h : tally p s ≤ 1) (hm : m ∈ s) (hm' : m' ∈ s)
    (hp : p m = true) (hp' : p m' = true) : m = m' := by
  by_contra hne
  obtain ⟨t, rfl⟩ := Multiset.exists_cons_of_mem hm
  rw [tally_cons, if_pos hp] at h
  have hin : m' ∈ t := (Multiset.mem_cons.mp hm').resolve_left (Ne.symm hne)
  have := tally_pos hin hp'
  omega

theorem tally_opens_le (v : UInt32) (s : Multiset Outgoing) :
    tally (·.opens v) s ≤ tally (·.sends v) s := by
  induction s using Multiset.induction_on with
  | empty => exact Nat.le_refl _
  | cons m s ih =>
    rw [tally_cons, tally_cons]
    refine Nat.add_le_add ih ?_
    cases m with
    | openChannel => exact Nat.le_refl _
    | openConfirmation => exact Nat.zero_le _
    | openFailure => exact Nat.zero_le _

end Tally

/-! ### Messages that are handed over -/

section Handing

variable {x y y' : Side} {c : Call}

/-- Only calls of the exchange are made. -/
theorem Hands.exchanges (h : Hands y c y') : c.exchanges = true := by
  cases h with
  | command hc =>
    cases c with
    | transportLost => cases hc
    | nextOutgoing => cases hc
    | _ => rfl
  | message m _ hc =>
    rw [hc]
    cases m <;> rfl

/-- What is handed over leaves the flight. -/
theorem Hands.tally {p : Outgoing → Bool} {q : Call → Bool} (h : Hands y c y')
    (hcommand : ∀ c, c.isCommand = true → q c = false) (hmessage : ∀ m, q m.delivery = p m) :
    tally p y.flight = tally p y'.flight + if q c then 1 else 0 := by
  cases h with
  | command hc => rw [hcommand c hc, if_neg Bool.false_ne_true, Nat.add_zero]
  | message m hm hc =>
    rw [hc, hmessage m, Side.flight, Side.flight, tally_add, tally_add, Nat.add_assoc]
    change _ = _ + (tally p (y.wire.erase m) + _)
    rw [← tally_cons, Multiset.cons_erase hm]

/-- An open that is handed over leaves the flight. -/
theorem Hands.tally_opens (h : Hands y c y') (v : UInt32) :
    Connection.tally (·.opens v) y.flight =
      Connection.tally (·.opens v) y'.flight + if c.opens v then 1 else 0 := by
  refine h.tally (q := (·.opens v)) (fun c hc => ?_) (fun m => by cases m <;> rfl)
  cases c <;> first | rfl | cases hc

/-- A number that is handed over leaves the flight. -/
theorem Hands.tally_sends (h : Hands y c y') (v : UInt32) :
    Connection.tally (·.sends v) y.flight =
      Connection.tally (·.sends v) y'.flight + if c.sends v then 1 else 0 := by
  refine h.tally (q := (·.sends v)) (fun c hc => ?_) (fun m => by cases m <;> rfl)
  cases c <;> first | rfl | cases hc

/-- A reply that is handed over leaves the flight. -/
theorem Hands.tally_repliesTo (h : Hands y c y') (v : UInt32) :
    Connection.tally (·.repliesTo v) y.flight = Connection.tally (·.repliesTo v) y'.flight +
      if c.recipient?.any (·.value == v) then 1 else 0 := by
  refine h.tally (p := (·.repliesTo v)) (q := fun c => c.recipient?.any (·.value == v))
    (fun c hc => ?_) (fun m => by cases m <;> rfl)
  cases c <;> first | rfl | cases hc

/-- A message that is still under way was under way. -/
theorem Hands.mem_of_mem (h : Hands y c y') (hm : m ∈ y'.flight) : m ∈ y.flight := by
  cases h with
  | command => exact hm
  | message =>
    rcases Multiset.mem_add.mp hm with hqueue | hwire
    · exact Multiset.mem_add.mpr (.inl hqueue)
    · exact Multiset.mem_add.mpr (.inr (Multiset.mem_of_mem_erase hwire))

/-- A message that was under way is still, or is the one that is handed over. -/
theorem Hands.mem_or_eq (h : Hands y c y') (hm : m ∈ y.flight) :
    m ∈ y'.flight ∨ c = m.delivery := by
  cases h with
  | command => exact .inl hm
  | message m' _ hc =>
    by_cases heq : m = m'
    · exact .inr (heq ▸ hc)
    · refine .inl ?_
      rcases Multiset.mem_add.mp hm with hqueue | hwire
      · exact Multiset.mem_add.mpr (.inl hqueue)
      · exact Multiset.mem_add.mpr (.inr ((Multiset.mem_erase_of_ne heq).mpr hwire))

theorem Hands.message_mem (h : Hands y c y') (hc : c.isCommand = false) :
    ∃ m ∈ y.flight, c = m.delivery := by
  cases h with
  | command hcommand => exact absurd (hcommand.symm.trans hc) (by decide)
  | message m hm hc => exact ⟨m, Multiset.mem_add.mpr (.inr hm), hc⟩

end Handing

/-! ### What a call does to its side -/

section Acting

variable {x y y' : Side} {c : Call} {a : Answer} {e : OpeningEngine}

/-- What is handed over changes nothing else. -/
theorem Hands.exists_eq (h : Hands y c y') : ∃ wire, y' = { y with wire := wire } := by
  cases h with
  | command => exact ⟨y.wire, rfl⟩
  | message => exact ⟨_, rfl⟩

theorem Hands.flight_le (h : Hands y c y') : y'.flight ≤ y.flight := by
  cases h with
  | command => exact le_refl _
  | message m => exact (Multiset.add_le_add_iff_left).mpr (Multiset.erase_le m y.wire)

theorem flight_after (heffect : Effect x.engine c a e) (hc : c.exchanges = true) :
    (x.after c a e).flight = x.flight + (newMessages x.engine e : Multiset Outgoing) := by
  have hout := heffect.outgoing_eq hc
  change (e.outgoing : Multiset Outgoing) + x.wire = _
  rw [hout, ← Multiset.coe_add, Side.flight, Multiset.add_assoc, Multiset.add_assoc,
    Multiset.add_comm x.wire]

/-- A number that a call sends is the next one. -/
theorem Effect.countP_sends {e : OpeningEngine} (h : Effect e c a e') (v : UInt32) :
    (newMessages e e').countP (·.sends v) = 0 ∨
    (newMessages e e').countP (·.sends v) = 1 ∧ v.toNat = e.allocated ∧
      v.toNat < e'.allocated := by
  have hsends (l : List Outgoing) :
      l.countP (·.sends v) = (l.filterMap Outgoing.localNumber?).countP (·.value == v) := by
    induction l with
    | nil => rfl
    | cons m l ih =>
      rw [countP_cons, ih, Outgoing.sends]
      cases hm : m.localNumber? with
      | none => rw [filterMap_cons_none hm]; rfl
      | some => rw [filterMap_cons_some hm, countP_cons]; rfl
  rw [hsends, newMessages]
  rcases h.numbers with ⟨hnone, -⟩ | ⟨hone, hnumber, hnext⟩
  · exact .inl (by rw [hnone]; rfl)
  · rw [hone, countP_singleton]
    by_cases hv : e.nextLocal = v
    · have hallocated := allocated_of_not_exhausted hnumber
      subst hv
      exact .inr ⟨if_pos (beq_self_eq_true _), hallocated.symm, by omega⟩
    · exact .inl (if_neg (by simpa using hv))

/-- A message that a call queues sends the next number. -/
theorem Effect.sends_new {e : OpeningEngine} (h : Effect e c a e') {v : UInt32}
    (hm : m ∈ newMessages e e') (hv : m.sends v = true) : v.toNat = e.allocated := by
  rcases h.countP_sends v with hzero | ⟨-, hnext, -⟩
  · exact absurd hv (by simpa using countP_eq_zero.mp hzero m hm)
  · exact hnext

/-- The numbers handed out do not become fewer. -/
theorem Effect.allocated_le {e : OpeningEngine} (h : Effect e c a e') :
    e.allocated ≤ e'.allocated := by
  rcases h.numbers with ⟨-, hsame⟩ | ⟨-, -, hnext⟩ <;> omega

theorem Effect.limits_eq {e : OpeningEngine} (h : Effect e c a e') : e'.limits = e.limits := by
  cases h <;> rfl

theorem Opened.after (h : x.Opened n channelType credit) :
    (x.after c a e).Opened n channelType credit := by
  obtain ⟨typeSpecific, hm⟩ := h
  exact ⟨typeSpecific, Multiset.mem_add.mpr (.inl hm)⟩

/-- What a side was told it was told. -/
theorem Told.after {p : PeerNumber} {peer : Credit} (h : x.Told n p channelType credit peer) :
    (x.after c a e).Told n p channelType credit peer := by
  obtain ⟨handle, typeSpecific, hm⟩ := h
  exact ⟨handle, typeSpecific, mem_append_left _ hm⟩

/-- A pending open was pending, or has the next number. -/
theorem Effect.pending_cases (heffect : Effect x.engine c a e) (h : (x.after c a e).Pending n) :
    x.Pending n ∨ n.value.toNat = x.engine.allocated := by
  obtain ⟨i, channelType, credit, hentry⟩ := h
  cases heffect.origin hentry with
  | old hold => exact .inl ⟨i, channelType, credit, hold⟩
  | opened _ _ _ _ hnew =>
    exact .inr (heffect.sends_new hnew (beq_self_eq_true n.value))

/-- An open that a call sends is pending. -/
theorem Effect.pending_new (heffect : Effect x.engine c a e) {v : UInt32}
    (hm : m ∈ newMessages x.engine e) (hv : m.opens v = true) : (x.after c a e).Pending ⟨v⟩ := by
  have hqueued := heffect.queued
  generalize newMessages x.engine e = l at hqueued hm
  cases hqueued with
  | nothing => cases hm
  | opening channelType credit _ i hnew =>
    cases mem_singleton.mp hm
    rw [← eq_of_beq hv]
    exact ⟨i, channelType, credit, hnew⟩
  | confirmation | failure =>
    cases mem_singleton.mp hm
    cases hv

namespace SideInv

/-- An open determines its type and credit. -/
theorem opened_unique (hx : SideInv x) {channelType' : Bytes} {credit' : Credit}
    (h : x.Opened n channelType credit) (h' : x.Opened n channelType' credit') :
    channelType = channelType' ∧ credit = credit' := by
  obtain ⟨t, hm⟩ := h
  obtain ⟨_, hm'⟩ := h'
  have heq := eq_of_tally_le_one (p := (·.sends n.value)) (hx.sends_le n.value) hm hm'
    (beq_self_eq_true n.value) (beq_self_eq_true n.value)
  cases heq
  exact ⟨rfl, rfl⟩

/-- A pending open has a number that was handed out. -/
theorem pending_lt (hx : SideInv x) (h : x.Pending n) : n.value.toNat < x.engine.allocated := by
  obtain ⟨i, _, _, hentry⟩ := h
  exact hx.sound.local_lt hentry rfl

/-- A pending open whose slot changes is pending no more. -/
theorem not_pending_after (hx : SideInv x) (heffect : Effect x.engine c a e) {i : Nat}
    (hold : x.engine.slab.entry i = some (.pendingOutgoing channelType n credit))
    (hnew : e.slab.entry i ≠ some (.pendingOutgoing channelType n credit)) :
    ¬(x.after c a e).Pending n := by
  rintro ⟨j, _, _, hentry⟩
  cases heffect.origin hentry with
  | old hold' =>
    have hij : i = j := hx.sound.local_inj hold hold' rfl rfl
    subst hij
    rw [hold] at hold'
    cases hold'
    exact hnew hentry
  | opened _ _ _ _ hsent =>
    have hnext := heffect.sends_new hsent (beq_self_eq_true n.value)
    have hlt := hx.pending_lt ⟨i, channelType, credit, hold⟩
    omega

/-- An open that was settled does not become pending again. -/
theorem settled_after (hx : SideInv x) (heffect : Effect x.engine c a e) (h : x.Settled n) :
    ¬(x.after c a e).Pending n := by
  intro hpending
  rcases heffect.pending_cases hpending with hold | hnext
  · exact hx.settled_gone h hold
  · have hlt := hx.settled_lt h
    omega

/-- The tombstones after a call are the cancelled opens without a reply. -/
theorem tombstones_after (hx : SideInv x) (heffect : Effect x.engine c a e)
    (hbounded : (x.after c a e).Bounded) (hviolation : ∀ v, a ≠ .handled (.error v)) :
    e.tombstones = (x.after c a e).cancelled.filter (· ∉ (x.after c a e).answered) := by
  rw [Side.Bounded] at hbounded
  change _ = (x.cancelled ++ cancelledBy x.engine c a).filter
    (· ∉ x.answered ++ c.recipient?.toList)
  change ((x.cancelled ++ cancelledBy x.engine c a).filter
    (· ∉ x.answered ++ c.recipient?.toList)).length ≤ e.limits.maxTombstones at hbounded
  cases heffect.buried with
  | kept htombstones hnone hreply =>
    rw [htombstones, hnone, append_nil, hx.tombstones_eq]
    refine filter_congr fun n hn => ?_
    -- A reply that is not late is to a pending open, which was not cancelled.
    have hother : n ∉ c.recipient?.toList := by
      intro hmem
      rcases hreply n (Option.mem_toList.mp hmem) with ⟨i, channelType, credit, hold, -⟩ | ⟨v, hv⟩
      · exact hx.settled_gone (.inl hn) ⟨i, channelType, credit, hold⟩
      · exact hviolation v hv
    simp [hother]
  | cancelled i channelType n credit hold _ hone hnot htombstones =>
    have hpending : x.Pending n := ⟨i, channelType, credit, hold⟩
    have hunanswered : n ∉ x.answered := fun hmem => hx.settled_gone (.inr hmem) hpending
    have heq : (x.cancelled ++ [n]).filter (· ∉ x.answered) = x.engine.tombstones ++ [n] := by
      rw [filter_append, ← hx.tombstones_eq, filter_singleton]
      simp [hunanswered]
    rw [hone, hnot, Option.toList_none, append_nil, heq, heffect.limits_eq] at hbounded
    rw [hone, hnot, Option.toList_none, append_nil, heq, htombstones,
      Nat.sub_eq_zero_of_le hbounded, drop_zero]
  | late _ _ hnone hreply htombstones =>
    rw [hnone, hreply, append_nil, htombstones, hx.sound.tombstones_nodup.erase_eq_filter,
      hx.tombstones_eq, filter_filter]
    refine filter_congr fun k hk => Bool.eq_iff_iff.mpr ?_
    simp [not_or, and_comm]

/-- Settled opens after a call were settled, or are pending no more. -/
theorem settled_cases (hx : SideInv x) (heffect : Effect x.engine c a e)
    (hviolation : ∀ v, a ≠ .handled (.error v)) (h : (x.after c a e).Settled n) :
    n.value.toNat < x.engine.allocated ∧ ¬(x.after c a e).Pending n := by
  have hchanged {i : Nat} {channelType : Bytes} {credit : Credit}
      (hold : x.engine.slab.entry i = some (.pendingOutgoing channelType n credit))
      (hnew : e.slab.entry i ≠ some (.pendingOutgoing channelType n credit)) :
      n.value.toNat < x.engine.allocated ∧ ¬(x.after c a e).Pending n :=
    ⟨hx.pending_lt ⟨i, channelType, credit, hold⟩, hx.not_pending_after heffect hold hnew⟩
  have hsettled (hold : x.Settled n) :
      n.value.toNat < x.engine.allocated ∧ ¬(x.after c a e).Pending n :=
    ⟨hx.settled_lt hold, hx.settled_after heffect hold⟩
  have hcases : x.Settled n ∨ n ∈ cancelledBy x.engine c a ∨ c.recipient? = some n := by
    rcases h with hcancelled | hanswered
    · exact (mem_append.mp hcancelled).imp .inl .inl
    · exact (mem_append.mp hanswered).imp .inr fun hmem => .inr (Option.mem_toList.mp hmem)
  rcases hcases with hold | hnew
  · exact hsettled hold
  cases heffect.buried with
  | kept _ hnone hreply =>
    rw [hnone] at hnew
    rcases hreply n (hnew.resolve_left not_mem_nil) with
      ⟨i, channelType, credit, hold, hchange⟩ | ⟨v, hv⟩
    · exact hchanged hold hchange
    · exact absurd hv (hviolation v)
  | cancelled _ _ _ _ hold hchange hone hnot =>
    rw [hone, hnot] at hnew
    rcases hnew with hmem | hnone
    · cases mem_singleton.mp hmem
      exact hchanged hold (by rw [hchange]; nofun)
    · cases hnone
  | late _ hmem hnone hreply =>
    rw [hnone, hreply] at hnew
    rcases hnew with hnil | heq
    · cases hnil
    · cases heq
      rw [hx.tombstones_eq] at hmem
      exact hsettled (.inl (mem_of_mem_filter hmem))

end SideInv

end Acting

/-! ### One step keeps the invariant -/

section Step

variable {x y y' : Side} {c : Call} {a : Answer} {e : OpeningEngine}

/-- A reply that is delivered was the only trace of its open. -/
theorem Link.delivered_once (hxy : Link x y) (hy : SideInv y) (hhands : Hands y c y') {v : UInt32}
    (hc : c.recipient? = some ⟨v⟩) :
    tally (·.opens v) x.flight + y.engine.slab.count (·.pendingFrom v) +
      tally (·.repliesTo v) y'.flight = 0 := by
  have hone := hhands.tally_repliesTo v
  rw [hc, if_pos (show (some (⟨v⟩ : LocalNumber)).any (·.value == v) = true from
    beq_self_eq_true v)] at hone
  have honce := hxy.once v
  have hle : tally (·.repliesTo v) y.flight ≤ tally (·.repliesTo v) y.queued :=
    tally_le_of_le hy.flight_le
  omega

theorem Link.no_violation (hxy : Link x y) (hyx : Link y x) (hhands : Hands y c y')
    (heffect : Effect x.engine c a e) (v : Violation) : a ≠ .handled (.error v) := by
  rintro rfl
  refine heffect.no_violation (fun n hn => ?_) fun n hn => ?_
  · have hone := hhands.tally_repliesTo n.value
    rw [hn, if_pos (show (some n).any (·.value == n.value) = true from
      beq_self_eq_true n.value)] at hone
    exact (hxy.waits n.value (by omega)).symm
  · have hone := hhands.tally_sends n.value
    rw [if_pos hn] at hone
    have hsenders := hyx.senders n.value
    by_contra hused
    obtain ⟨i, d, hentry, hpeer⟩ := peerNumberInUse_iff.mp (Bool.eq_true_of_not_eq_false hused)
    have hpos : 0 < x.engine.slab.count (·.hasPeer n.value) := by
      refine Slab.count_pos hentry ?_
      rw [Channel.hasPeer, hpeer]
      exact beq_self_eq_true n.value
    omega

/-- What holds of a side after its step. -/
theorem SideInv.after (hx : SideInv x) (heffect : Effect x.engine c a e)
    (hc : c.exchanges = true) (hbounded : (x.after c a e).Bounded)
    (hviolation : ∀ v, a ≠ .handled (.error v)) : SideInv (x.after c a e) where
  sound := heffect.sound hx.sound
  flight_le := by
    rw [flight_after heffect hc]
    exact (Multiset.add_le_add_iff_right).mpr hx.flight_le
  sends_le := by
    intro v
    change tally _ (x.queued + _) ≤ 1
    rw [tally_add, tally_coe]
    have hle := hx.sends_le v
    have hlt := hx.sends_lt v
    rcases heffect.countP_sends v with hzero | ⟨hone, hnext, -⟩ <;> omega
  sends_lt := by
    intro v hpos
    change 0 < tally _ (x.queued + _) at hpos
    change _ < e.allocated
    rw [tally_add, tally_coe] at hpos
    have hlt := hx.sends_lt v
    have hle := heffect.allocated_le
    rcases heffect.countP_sends v with hzero | ⟨hone, -, hlast⟩ <;> omega
  opened := by
    intro i channelType n credit hentry
    cases heffect.origin hentry with
    | old hold => exact Opened.after (hx.opened hold)
    | opened _ _ _ typeSpecific hnew =>
      exact ⟨typeSpecific, Multiset.mem_add.mpr (.inr (Multiset.mem_coe.mpr hnew))⟩
  tombstones_eq := hx.tombstones_after heffect hbounded hviolation
  settled_lt := fun h =>
    lt_of_lt_of_le (hx.settled_cases heffect hviolation h).1 heffect.allocated_le
  settled_gone := fun h => (hx.settled_cases heffect hviolation h).2

/-- Handing a message over keeps what holds of its sender. -/
theorem SideInv.handed (hy : SideInv y) (hhands : Hands y c y') : SideInv y' := by
  have hle := hhands.flight_le
  obtain ⟨_, rfl⟩ := hhands.exists_eq
  exact { hy with flight_le := le_trans hle hy.flight_le }

/-- An open that waits for its reply does so until the reply is there. -/
theorem SideInv.awaits_after (hx : SideInv x) (hx' : SideInv (x.after c a e))
    (heffect : Effect x.engine c a e) (hc : c.exchanges = true) (h : x.Awaits n) :
    (x.after c a e).Awaits n ∨ c.recipient? = some n := by
  by_cases hreply : c.recipient? = some n
  · exact .inr hreply
  refine .inl ?_
  have hburied (hcancelled : n ∈ (x.after c a e).cancelled) (hunanswered : n ∉ x.answered) :
      (x.after c a e).Awaits n := by
    refine .inr ?_
    rw [hx'.tombstones_eq]
    refine mem_filter.mpr ⟨hcancelled, decide_eq_true fun hanswered => ?_⟩
    rcases mem_append.mp hanswered with hold | hnew
    · exact hunanswered hold
    · exact hreply (Option.mem_toList.mp hnew)
  rcases h with ⟨i, channelType, credit, hentry⟩ | htombstone
  · cases heffect.awaited hc hentry with
    | kept hkept => exact .inl ⟨i, channelType, credit, hkept⟩
    | cancelled hcancelled =>
      exact hburied (mem_append_right _ hcancelled) fun hmem =>
        hx.settled_gone (.inr hmem) ⟨i, channelType, credit, hentry⟩
    | confirmed _ _ _ _ hcall => exact absurd (hcall ▸ rfl) hreply
    | failed _ hcall hn => exact absurd (hcall ▸ hn ▸ rfl) hreply
  · rw [hx.tombstones_eq] at htombstone
    obtain ⟨hcancelled, hunanswered⟩ := mem_filter.mp htombstone
    exact hburied (mem_append_left _ hcancelled) (of_decide_eq_true hunanswered)

theorem Link.opener_after (hx : SideInv x) (hy : SideInv y) (hx' : SideInv (x.after c a e))
    (hxy : Link x y) (hhands : Hands y c y') (heffect : Effect x.engine c a e) :
    Link (x.after c a e) y' := by
  have hc := hhands.exchanges
  have hflight := flight_after heffect hc
  have hle := heffect.allocated_le
  have hsent (v : UInt32) : tally (·.opens v) (newMessages x.engine e : Multiset Outgoing) ≤
      (newMessages x.engine e).countP (·.sends v) := by
    rw [← tally_coe]
    exact tally_opens_le v _
  have hdelivered (v : UInt32) := hxy.delivered_once hy hhands (v := v)
  have hmem {m : Outgoing} (hm : m ∈ y'.flight) : m ∈ y.flight := hhands.mem_of_mem hm
  have hmemOr {m : Outgoing} (hm : m ∈ y.flight) := hhands.mem_or_eq hm
  have hless := hhands.flight_le
  obtain ⟨wire, rfl⟩ := hhands.exists_eq
  constructor
  case once =>
    intro v
    rw [hflight, tally_add]
    have hone := hxy.once v
    have hlt := hxy.once_lt v
    have hnew := hsent v
    change _ + y.engine.slab.count _ + tally _ y.queued ≤ 1
    rcases heffect.countP_sends v with hzero | ⟨hcount, hnext, -⟩ <;> omega
  case once_lt =>
    intro v hpos
    rw [hflight, tally_add] at hpos
    change 0 < _ + y.engine.slab.count _ + tally _ y.queued at hpos
    change _ < e.allocated
    have hlt := hxy.once_lt v
    have hnew := hsent v
    rcases heffect.countP_sends v with hzero | ⟨-, -, hlast⟩ <;> omega
  case waits =>
    intro v hpos
    rw [hflight, tally_add] at hpos
    by_cases hnew : 0 < tally (·.opens v) (newMessages x.engine e : Multiset Outgoing)
    · obtain ⟨m, hm, hv⟩ := Multiset.countP_pos.mp hnew
      exact .inl (heffect.pending_new (Multiset.mem_coe.mp hm) hv)
    · change 0 < _ + y.engine.slab.count _ + _ at hpos
      have hfewer := tally_le_of_le (p := (·.repliesTo v)) hless
      have hold : x.Awaits ⟨v⟩ := hxy.waits v (by omega)
      refine (hx.awaits_after hx' heffect hc hold).resolve_right fun hreply => ?_
      have hzero := hdelivered v hreply
      omega
  case senders =>
    intro v
    rw [hflight, tally_add, tally_coe]
    have hone := hxy.senders v
    have hlt := hxy.senders_lt v
    have hsendslt := hx.sends_lt v
    have hqueued := tally_le_of_le (p := (·.sends v)) hx.flight_le
    change _ + y.engine.slab.count _ ≤ 1
    rcases heffect.countP_sends v with hzero | ⟨hcount, hnext, -⟩ <;> omega
  case senders_lt => exact fun v hpos => lt_of_lt_of_le (hxy.senders_lt v hpos) hle
  case asked => exact fun hentry => Opened.after (hxy.asked hentry)
  case confirmed =>
    intro p n credit typeSpecific hm
    obtain ⟨hholds, channelType, peer, htold, hopened⟩ := hxy.confirmed (hmem hm)
    exact ⟨hholds, channelType, peer, htold, Opened.after hopened⟩
  case matched =>
    intro n p hholds
    obtain ⟨channelType, credit, peer, htold, hcase⟩ := hxy.matched hholds
    refine ⟨channelType, credit, peer, htold, ?_⟩
    rcases hcase with ⟨⟨i, hi⟩, htold'⟩ | ⟨hopened, hrest⟩
    · exact .inl ⟨⟨i, heffect.established_keep hc hi⟩, Told.after htold'⟩
    rcases hrest with hcancelled | ⟨⟨i, channelType', credit', hentry⟩, typeSpecific, hm⟩
    · exact .inr ⟨Opened.after hopened, .inl (mem_append_left _ hcancelled)⟩
    have hgone (hreply : c.recipient? = some ⟨p.value⟩) :
        .openConfirmation p n credit typeSpecific ∉ Side.flight { y with wire := wire } := by
      intro hstill
      have hzero := hdelivered p.value hreply
      have hpos := tally_pos (p := (·.repliesTo p.value)) hstill (beq_self_eq_true p.value)
      omega
    cases heffect.awaited hc hentry with
    | kept hkept =>
      have hpending : (x.after c a e).Pending ⟨p.value⟩ := ⟨i, channelType', credit', hkept⟩
      refine .inr ⟨Opened.after hopened, .inr ⟨hpending, typeSpecific, ?_⟩⟩
      refine (hmemOr hm).resolve_right fun hcall => ?_
      refine hx'.settled_gone (.inr (mem_append_right _ ?_)) hpending
      rw [hcall]
      exact mem_singleton_self _
    | cancelled hcancelled =>
      exact .inr ⟨Opened.after hopened, .inl (mem_append_right _ hcancelled)⟩
    | failed _ hcall hn =>
      have hdelivery := (hmemOr hm).resolve_left (hgone (by rw [hcall, hn]; rfl))
      rw [hcall] at hdelivery
      cases hdelivery
    | confirmed handle p' peer' _ hcall hnew hanswer =>
      have hdelivery := (hmemOr hm).resolve_left (hgone (by rw [hcall]; rfl))
      rw [hcall] at hdelivery
      obtain ⟨⟩ := p'
      obtain ⟨⟩ := peer'
      cases hdelivery
      obtain ⟨rfl, rfl⟩ := hx.opened_unique hopened (hx.opened hentry)
      refine .inl ⟨⟨i, hnew⟩, handle, typeSpecific, mem_append_right _ ?_⟩
      rw [hanswer]
      exact mem_singleton_self _

/-- A message is determined by the call that delivers it. -/
theorem eq_of_delivery_confirmation {p : PeerNumber} {peer : Credit} {typeSpecific : Bytes}
    (h : Call.handleOpenConfirmation
        ⟨n.value, p.value, peer.initialWindowSize, peer.maximumPacketSize, typeSpecific⟩ =
      m.delivery) :
    m = .openConfirmation ⟨n.value⟩ ⟨p.value⟩ peer typeSpecific := by
  cases m with
  | openConfirmation r k credit =>
    obtain ⟨n⟩ := n
    obtain ⟨p⟩ := p
    obtain ⟨⟩ := peer
    obtain ⟨⟩ := credit
    cases h
    rfl
  | openChannel => cases h
  | openFailure => cases h

/-- An open is determined by the call that delivers it. -/
theorem eq_of_delivery_open {n : PeerNumber} {peer : Credit} {typeSpecific : Bytes}
    (h : Call.handleOpen
      ⟨channelType, n.value, peer.initialWindowSize, peer.maximumPacketSize, typeSpecific⟩ =
        m.delivery) : m = .openChannel channelType ⟨n.value⟩ peer typeSpecific := by
  cases m with
  | openChannel _ _ credit =>
    obtain ⟨n⟩ := n
    obtain ⟨⟩ := peer
    obtain ⟨⟩ := credit
    cases h
    rfl
  | openConfirmation => cases h
  | openFailure => cases h

theorem Link.peer_after (hx : SideInv x) (hy : SideInv y) (hxy : Link x y) (hyx : Link y x)
    (hhands : Hands y c y') (heffect : Effect x.engine c a e) : Link y' (x.after c a e) := by
  have hc := hhands.exchanges
  have hflight := flight_after heffect hc
  have hopens := hhands.tally_opens
  have hsends := hhands.tally_sends
  have hmessage := hhands.message_mem
  have hpendingFrom (v : UInt32) := heffect.count_pendingFrom_le v
  obtain ⟨_, rfl⟩ := hhands.exists_eq
  constructor
  case once =>
    intro v
    change _ + e.slab.count _ + tally _ (x.queued + _) ≤ 1
    rw [tally_add, tally_coe]
    have hone := hyx.once v
    have hmove := hopens v
    have hcount := hpendingFrom v
    omega
  case once_lt =>
    intro v hpos
    change 0 < _ + e.slab.count _ + tally _ (x.queued + _) at hpos
    rw [tally_add, tally_coe] at hpos
    have hmove := hopens v
    have hcount := hpendingFrom v
    exact hyx.once_lt v (by omega)
  case waits =>
    intro v hpos
    change 0 < _ + e.slab.count _ + _ at hpos
    rw [hflight, tally_add, tally_coe] at hpos
    have hmove := hopens v
    have hcount := hpendingFrom v
    exact hyx.waits v (by omega)
  case senders =>
    intro v
    change _ + e.slab.count _ ≤ 1
    have hone := hyx.senders v
    have hmove := hsends v
    have hcount := heffect.count_hasPeer_le v
    omega
  case senders_lt =>
    intro v hpos
    change 0 < e.slab.count _ at hpos
    have hmove := hsends v
    have hcount := heffect.count_hasPeer_le v
    have hqueued := tally_le_of_le (p := (·.sends v)) hy.flight_le
    by_cases hold : 0 < x.engine.slab.count (·.hasPeer v)
    · exact hyx.senders_lt v hold
    · exact hy.sends_lt v (by omega)
  case asked =>
    intro i channelType n peer hentry
    cases heffect.origin hentry with
    | old hold => exact hyx.asked hold
    | incoming _ _ _ typeSpecific hcall =>
      obtain ⟨m, hm, hdelivery⟩ := hmessage (by rw [hcall]; rfl)
      rw [hcall] at hdelivery
      rw [eq_of_delivery_open hdelivery] at hm
      exact ⟨typeSpecific, Multiset.mem_of_le hy.flight_le hm⟩
  case confirmed =>
    intro p n credit typeSpecific hm
    rw [hflight] at hm
    rcases Multiset.mem_add.mp hm with hold | hnew
    · obtain ⟨⟨i, hi⟩, channelType, peer, htold, hopened⟩ := hyx.confirmed hold
      exact ⟨⟨i, heffect.established_keep hc hi⟩, channelType, peer, Told.after htold, hopened⟩
    · have hqueued := heffect.queued
      rw [Multiset.mem_coe] at hnew
      generalize newMessages x.engine e = l at hqueued hnew
      cases hqueued with
      | nothing => cases hnew
      | opening | failure => cases mem_singleton.mp hnew
      | confirmation handle channelType _ _ peer _ i hold hestablished hanswer =>
        cases mem_singleton.mp hnew
        refine ⟨⟨i, hestablished⟩, channelType, peer, ⟨handle, [], ?_⟩, hyx.asked hold⟩
        refine mem_append_right _ ?_
        rw [hanswer]
        exact mem_singleton_self _
  case matched =>
    rintro n p ⟨i, hentry⟩
    cases heffect.origin hentry with
    | old hold =>
      obtain ⟨channelType, credit, peer, htold, hcase⟩ := hyx.matched ⟨i, hold⟩
      refine ⟨channelType, credit, peer, Told.after htold, hcase.imp_right ?_⟩
      refine And.imp_right (Or.imp_right (And.imp_right ?_))
      rintro ⟨typeSpecific, hm⟩
      refine ⟨typeSpecific, ?_⟩
      rw [hflight]
      exact Multiset.mem_add.mpr (.inl hm)
    | accepted handle channelType _ _ credit peer typeSpecific hold hnew _ hanswer =>
      refine ⟨channelType, credit, peer, ⟨handle, [], mem_append_right _ ?_⟩,
        .inr ⟨hyx.asked hold, ?_⟩⟩
      · rw [hanswer]
        exact mem_singleton_self _
      · have hcount := Slab.count_pos (p := (·.pendingFrom p.value)) hold
          (beq_self_eq_true p.value)
        rcases hyx.waits p.value (by omega) with hpending | htombstone
        · refine .inr ⟨hpending, typeSpecific, ?_⟩
          rw [hflight]
          exact Multiset.mem_add.mpr (.inr (Multiset.mem_coe.mpr hnew))
        · rw [hy.tombstones_eq] at htombstone
          exact .inl (mem_of_mem_filter htombstone)
    | confirmed handle _ _ _ _ peer typeSpecific hold hcall hanswer =>
      obtain ⟨m, hm, hdelivery⟩ := hmessage (by rw [hcall]; rfl)
      rw [hcall] at hdelivery
      rw [eq_of_delivery_confirmation hdelivery] at hm
      obtain ⟨hholds, channelType', credit', htold, hopened⟩ := hxy.confirmed hm
      obtain ⟨rfl, rfl⟩ := hx.opened_unique hopened (hx.opened hold)
      refine ⟨channelType', credit', peer, ⟨handle, typeSpecific, mem_append_right _ ?_⟩,
        .inl ⟨hholds, htold⟩⟩
      rw [hanswer]
      exact mem_singleton_self _

/-- Taking a message from the queue changes nothing but where it is. -/
theorem take_cases (h : x.engine.nextOutgoing = (some m, e')) :
    e' = { x.engine with outgoing := x.engine.outgoing.tail } ∧
      x.engine.outgoing = m :: x.engine.outgoing.tail := by
  obtain ⟨hhead, rfl⟩ := Prod.mk.inj h
  refine ⟨rfl, ?_⟩
  cases hqueue : x.engine.outgoing with
  | nil => rw [hqueue] at hhead; cases hhead
  | cons => rw [hqueue] at hhead; cases hhead; rfl

end Step

/-- What holds between two sides. -/
structure Agreement (x y : Side) : Prop where
  left : SideInv x
  right : SideInv y
  forth : Link x y
  back : Link y x

theorem Agreement.symm {x y : Side} (h : Agreement x y) : Agreement y x :=
  ⟨h.right, h.left, h.back, h.forth⟩

/-- A step of one side keeps the agreement. -/
theorem SideStep.agreement {x y x' y' : Side} (h : SideStep x y x' y') (hbounded : x'.Bounded)
    (hi : Agreement x y) : Agreement x' y' := by
  obtain ⟨hx, hy, hxy, hyx⟩ := hi
  cases h with
  | take m e htake =>
    obtain ⟨rfl, hqueue⟩ := take_cases htake
    have hflight : Side.flight { x with
        engine := { x.engine with outgoing := x.engine.outgoing.tail }, wire := m ::ₘ x.wire } =
        x.flight := by
      rw [Side.flight, Side.flight, hqueue, ← Multiset.cons_coe, Multiset.cons_add,
        Multiset.add_cons]
      rfl
    constructor
    case left =>
      exact { hx with
        sound := (Effect.took : Effect x.engine _ _ _).sound hx.sound
        flight_le := hflight ▸ hx.flight_le }
    case right => exact hy
    case forth =>
      exact { hxy with
        once := hflight ▸ hxy.once
        once_lt := hflight ▸ hxy.once_lt
        waits := hflight ▸ hxy.waits
        senders := hflight ▸ hxy.senders }
    case back =>
      exact { hyx with
        waits := hflight ▸ hyx.waits
        confirmed := hflight ▸ hyx.confirmed
        matched := hflight ▸ hyx.matched }
  | act _ _ hhands _ _ hcall =>
    have heffect := effect_of_call hx.sound hcall
    have hx' := hx.after heffect hhands.exchanges hbounded
      (hxy.no_violation hyx hhands heffect)
    exact ⟨hx', hy.handed hhands, hxy.opener_after hx hy hx' hhands heffect,
      Link.peer_after hx hy hxy hyx hhands heffect⟩

/-! ### Runs of the pair -/

section Pairs

variable {la lb : OpeningLimits} {P : Pair}

/-- A fresh engine satisfies the invariant of a side. -/
theorem sideInv_start (h : la.maxChannels ≤ 2 ^ 32) : SideInv (.start la) where
  sound := sound_new h
  flight_le := le_refl _
  sends_le := fun _ => Nat.zero_le _
  sends_lt := fun _ h => absurd h (Nat.lt_irrefl 0)
  opened := nofun
  tombstones_eq := rfl
  settled_lt := fun h => (h.elim nofun nofun)
  settled_gone := fun h => (h.elim nofun nofun)

/-- Two fresh engines are linked: nothing was sent. -/
theorem link_start : Link (.start la) (.start lb) where
  once := fun _ => Nat.zero_le _
  once_lt := fun _ h => absurd h (Nat.lt_irrefl 0)
  waits := fun _ h => absurd h (Nat.lt_irrefl 0)
  senders := fun _ => Nat.zero_le _
  senders_lt := fun _ h => absurd h (Nat.lt_irrefl 0)
  asked := nofun
  confirmed := nofun
  matched := fun ⟨_, h⟩ => nomatch h

theorem agreement_of_run (ha : la.maxChannels ≤ 2 ^ 32) (hb : lb.maxChannels ≤ 2 ^ 32)
    (hrun : Relation.ReflTransGen PairStep ⟨.start la, .start lb⟩ P) : Agreement P.a P.b := by
  induction hrun with
  | refl => exact ⟨sideInv_start ha, sideInv_start hb, link_start, link_start⟩
  | tail _ hstep ih =>
    cases hstep with
    | left h ha' => exact h.agreement ha' ih
    | right h _ hb' => exact (h.agreement hb' ih.symm).symm

/-- A delivery between sides that agree is handled. -/
theorem Agreement.delivered {x y : Side} (h : Agreement x y) (hm : m ∈ y.wire) :
    ∃ event e, x.engine.call m.delivery = .ok (.handled (.ok event), e) := by
  obtain ⟨a, e, hcall, heffect⟩ := call_effect h.left.sound m.delivery
  have hhands : Hands y m.delivery { y with wire := y.wire.erase m } := .message m hm rfl
  have hno := h.forth.no_violation h.back hhands heffect
  have hhandled : ∃ r, a = .handled r := by
    cases m with
    | openChannel | openConfirmation | openFailure =>
      cases heffect <;> exact ⟨_, rfl⟩
  obtain ⟨r, rfl⟩ := hhandled
  cases r with
  | ok event => exact ⟨event, e, hcall⟩
  | error v => exact absurd rfl (hno v)

/-- **Two honest engines never accuse each other.** At every time of every run of two fresh engines,
seen from either side: every message on its way is handled without a violation; each open has a
number of its own and is answered at most once; and an established channel of one side is
established at the other with the numbers exchanged, the same channel type and the credits
exchanged, unless the other side is its opener and has cancelled it or not received the confirmation
yet. -/
theorem honest_pair (ha : la.maxChannels ≤ 2 ^ 32) (hb : lb.maxChannels ≤ 2 ^ 32)
    (hrun : Relation.ReflTransGen PairStep ⟨.start la, .start lb⟩ P) {x y : Side}
    (hsides : x = P.a ∧ y = P.b ∨ x = P.b ∧ y = P.a) :
    (∀ m ∈ y.wire, ∃ event e, x.engine.call m.delivery = .ok (.handled (.ok event), e)) ∧
    (∀ v, tally (·.opens v) x.queued ≤ 1 ∧ tally (·.repliesTo v) y.queued ≤ 1) ∧
    ∀ n p, y.Holds n p → ∃ channelType credit peer, y.Told n p channelType credit peer ∧
      (x.Holds ⟨p.value⟩ ⟨n.value⟩ ∧ x.Told ⟨p.value⟩ ⟨n.value⟩ channelType peer credit ∨
        x.Opened ⟨p.value⟩ channelType peer ∧ (⟨p.value⟩ ∈ x.cancelled ∨
          x.Pending ⟨p.value⟩ ∧
            ∃ typeSpecific, .openConfirmation p n credit typeSpecific ∈ y.flight)) := by
  have h : Agreement x y := by
    rcases hsides with ⟨rfl, rfl⟩ | ⟨rfl, rfl⟩
    · exact agreement_of_run ha hb hrun
    · exact (agreement_of_run ha hb hrun).symm
  refine ⟨fun m hm => h.delivered hm, fun v => ⟨?_, ?_⟩, fun n p hholds => h.forth.matched hholds⟩
  · exact le_trans (tally_opens_le v _) (h.left.sends_le v)
  · have honce := h.forth.once v
    omega

/-- An engine that accepted one session channel and has not sent the confirmation. -/
def acceptedOnce : OpeningEngine where
  limits := {}
  slab := ⟨[⟨0, some (.established ⟨0⟩ ⟨0⟩)⟩], [], 1⟩
  nextLocal := 1
  numbersExhausted := false
  tombstones := []
  outgoing := [.openConfirmation ⟨0⟩ ⟨0⟩ sessionParams.credit []]
  pendingOutgoing := 0
  pendingIncoming := 0

/-- One side opens a session and the other accepts it. -/
theorem run_acceptedOnce : ∃ P, Relation.ReflTransGen PairStep
    ⟨.start { maxPendingOutgoing := 1 }, .start {}⟩ P ∧ P.b.engine = acceptedOnce := by
  refine ⟨_, .tail (.tail (.tail (.tail .refl
    (.left (.act (.openChannel sessionParams) _ (.command rfl) _ askedOnce rfl) ?_ ?_))
    (.left (.take _ _ rfl) ?_ ?_))
    (.right (.act _ _ (.message (.openChannel sessionParams.channelType ⟨0⟩ sessionParams.credit [])
      (Multiset.mem_singleton_self _) rfl) _ _ rfl) ?_ ?_))
    (.right (.act (.accept ⟨0, 0⟩ ⟨sessionParams.credit, []⟩) _ (.command rfl) _ _ rfl) ?_ ?_),
    rfl⟩
  all_goals exact Nat.zero_le _

/-- The two sides agree while the confirmation is not sent yet. -/
theorem honest_pair_acceptedOnce : ∃ P : Pair, P.b.engine = acceptedOnce ∧ P.b.Holds ⟨0⟩ ⟨0⟩ ∧
    ∃ channelType credit peer, P.b.Told ⟨0⟩ ⟨0⟩ channelType credit peer ∧
      (P.a.Holds ⟨0⟩ ⟨0⟩ ∧ P.a.Told ⟨0⟩ ⟨0⟩ channelType peer credit ∨
        P.a.Opened ⟨0⟩ channelType peer ∧ (⟨0⟩ ∈ P.a.cancelled ∨ P.a.Pending ⟨0⟩ ∧
          ∃ typeSpecific, .openConfirmation ⟨0⟩ ⟨0⟩ credit typeSpecific ∈ P.b.flight)) := by
  obtain ⟨P, hrun, hengine⟩ := run_acceptedOnce
  have hholds : P.b.Holds ⟨0⟩ ⟨0⟩ := ⟨0, by rw [hengine]; rfl⟩
  exact ⟨P, hengine, hholds,
    (honest_pair (by decide) (by decide) hrun (.inl ⟨rfl, rfl⟩)).2.2 ⟨0⟩ ⟨0⟩ hholds⟩

end Pairs

end Tatami.Connection
