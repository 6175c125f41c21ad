import Tatami.Lib.Lists
import Tatami.Tcp.Handshake.Verification

/-! # What is sent

The invariant behind the output contract: the messages queued so far are the first ones of a fixed
plan, and the bytes taken and still queued are exactly theirs. -/

namespace Tatami.Tcp

open Tatami.Wire Tatami.Keys List

variable {C : Crypto} {u : Setup} {payload : Bytes} {s s' : State}

/-! ### The plan -/

/-- The keys that protect what we send, once a signature was accepted. -/
def Verified.sendKeys (C : Crypto) (v : Verified) : AeadKeys :=
  (keysOf C v.secret v.hash).clientToServer

/-- The keys that protect what we receive, once a signature was accepted. -/
def Verified.receiveKeys (C : Crypto) (v : Verified) : AeadKeys :=
  (keysOf C v.secret v.hash).serverToClient

/-- `wire` is protected packet `n` (from zero) of these keys over this payload, and `nonce` is the
nonce it was sealed under. -/
def SealedAt (C : Crypto) (keys : AeadKeys) (n : Nat) (nonce : ByteVec 12) (payload wire : Bytes) :
    Prop :=
  nonce = AeadDirection.nonceAt keys n ∧
    ∃ a : AeadDirection, a.At keys n ∧ SealedBy C a payload wire

/-- What the message at an index of the queue is. -/
inductive Planned (C : Crypto) (u : Setup) (verified : Option Verified) :
    Nat → Outgoing → Prop where
  | line : Planned C u verified 0 (.line u.clientLine)
  | kexinit (wire : Bytes) (h : FrameOf u.iC wire) : Planned C u verified 1 (.framed u.iC wire)
  | ecdhInit (wire : Bytes) (h : FrameOf u.ecdhInit wire) :
      Planned C u verified 2 (.framed u.ecdhInit wire)
  | newkeys (wire : Bytes) (h : FrameOf NewKeys.payload wire) :
      Planned C u verified 3 (.framed NewKeys.payload wire)
  | serviceRequest (v : Verified) (nonce : ByteVec 12) (wire : Bytes) (hv : verified = some v)
      (h : SealedAt C (v.sendKeys C) 0 nonce u.serviceRequest wire) :
      Planned C u verified 4 (.sealed nonce u.serviceRequest wire)
  | disconnect (v : Verified) (nonce : ByteVec 12) (description wire : Bytes)
      (hv : verified = some v)
      (hd : description = completeDescription ∨ description = rekeyDescription)
      (h : SealedAt C (v.sendKeys C) 1 nonce (disconnectPayload description) wire) :
      Planned C u verified 5 (.sealed nonce (disconnectPayload description) wire)

/-- The unprotected part of the plan does not depend on the accepted signature. -/
theorem Planned.congr {verified : Option Verified} {i : Nat} {m : Outgoing} (hi : i < 4)
    (h : Planned C u verified i m) (verified' : Option Verified) : Planned C u verified' i m := by
  cases h with
  | line => exact .line
  | kexinit wire h => exact .kexinit wire h
  | ecdhInit wire h => exact .ecdhInit wire h
  | newkeys wire h => exact .newkeys wire h
  | serviceRequest | disconnect =>
    exact absurd hi (by decide)

/-- The messages are the first ones of the plan. -/
def Follows (C : Crypto) (u : Setup) (verified : Option Verified) (queue : List Outgoing) : Prop :=
  ∀ i m, queue[i]? = some m → Planned C u verified i m

theorem Follows.snoc {verified : Option Verified} {queue : List Outgoing} {m : Outgoing}
    (h : Follows C u verified queue) (hm : Planned C u verified queue.length m) :
    Follows C u verified (queue ++ [m]) := by
  intro i m' hi
  rcases getElem?_snoc_cases hi with hold | ⟨rfl, rfl⟩
  · exact h i m' hold
  · exact hm

/-- The bytes of a queue. -/
def wires (queue : List Outgoing) : Bytes := (queue.map Outgoing.wire).flatten

/-- The bytes of a queue with one more message. -/
theorem wires_snoc (queue : List Outgoing) (m : Outgoing) :
    wires (queue ++ [m]) = wires queue ++ m.wire := by
  rw [wires, wires, map_append, flatten_append, map_singleton,
    flatten_singleton]

/-! ### The invariant -/

/-- What was sent so far. -/
structure Output (C : Crypto) (u : Setup) (s : State) : Prop where
  follows : Follows C u s.hist.verified s.hist.queued
  bytes : C.SealTotal ∨ s.newkeysSent = false → s.hist.taken ++ s.out = wires s.hist.queued
  sent_iff : s.newkeysSent = true ↔ 4 ≤ s.hist.queued.length
  sealing : s.newkeysSent = true → ∃ v a, s.hist.verified = some v ∧ s.sendAead = some a ∧
    a.At (v.sendKeys C) s.protectedSent
  protectedSent : s.protectedSent = s.hist.queued.length - 4
  trust : s.newkeysSent = true ↔ ∃ source, s.trust = some (.trusted source)
  answered : ∀ o, s.outcome = some o → o.isFailure = false →
    s.hist.queued.length = 6 ∧ s.out = []

/-- `s'` has sent what `s` has sent. -/
structure Quiet (s s' : State) : Prop where
  queued : s'.hist.queued = s.hist.queued := by rfl
  bytes : s'.hist.taken ++ s'.out = s.hist.taken ++ s.out := by rfl
  newkeysSent : s'.newkeysSent = s.newkeysSent := by rfl
  sendAead : s'.sendAead = s.sendAead := by rfl
  protectedSent : s'.protectedSent = s.protectedSent := by rfl
  trust : s'.trust = s.trust := by rfl
  verified : s'.hist.verified = s.hist.verified := by rfl

/-- A state that has sent the same keeps the invariant, if its outcome waited for its
`DISCONNECT`. -/
theorem Output.quiet (h : Output C u s) (hq : Quiet s s')
    (hanswered : ∀ o, s'.outcome = some o → o.isFailure = false →
      s'.hist.queued.length = 6 ∧ s'.out = []) : Output C u s' where
  follows := by rw [hq.verified, hq.queued]; exact h.follows
  bytes := by rw [hq.bytes, hq.queued, hq.newkeysSent]; exact h.bytes
  sent_iff := by rw [hq.newkeysSent, hq.queued]; exact h.sent_iff
  sealing := by rw [hq.newkeysSent, hq.verified, hq.sendAead, hq.protectedSent]; exact h.sealing
  protectedSent := by rw [hq.protectedSent, hq.queued]; exact h.protectedSent
  trust := by rw [hq.newkeysSent, hq.trust]; exact h.trust
  answered := hanswered

/-- A state that ended with a failure keeps the invariant if it has sent the same. -/
theorem Output.ended (h : Output C u s) (hq : Quiet s s') {o : HandshakeOutcome}
    (houtcome : s'.outcome = some o) (ho : o.isFailure = true) : Output C u s' := by
  refine h.quiet hq fun o' ho' hfail => ?_
  rw [houtcome] at ho'
  cases ho'
  rw [ho] at hfail
  cases hfail

/-- A state without an outcome keeps the invariant if it has sent the same. -/
theorem Output.ongoing (h : Output C u s) (hq : Quiet s s') (hnone : s'.outcome = none) :
    Output C u s' :=
  h.quiet hq (by simp [hnone])

theorem Output.failed (h : Output C u s) (hf : Failed s s') : Output C u s' := by
  obtain ⟨o, ho, hfail⟩ := hf.outcome
  refine h.ended ?_ ho hfail
  exact { queued := by rw [hf.hist], bytes := by rw [hf.hist, hf.out],
          newkeysSent := hf.newkeysSent, sendAead := hf.sendAead,
          protectedSent := hf.protectedSent, trust := hf.trust, verified := by rw [hf.hist] }

/-- A state whose sealing failed keeps the invariant: with a cipher that always seals nothing was
appended. -/
theorem Output.sealFailed {junk : Bytes} (h : Output C u s) (hjunk : C.SealTotal → junk = [])
    (hsent : s.newkeysSent = true) (hq : s'.hist = s.hist) (hout : s'.out = s.out ++ junk)
    (hnewkeys : s'.newkeysSent = s.newkeysSent) (haead : s'.sendAead = s.sendAead)
    (hprotected : s'.protectedSent = s.protectedSent) (htrust : s'.trust = s.trust)
    {o : HandshakeOutcome} (houtcome : s'.outcome = some o) (ho : o.isFailure = true) :
    Output C u s' where
  follows := by rw [hq]; exact h.follows
  bytes := by
    rintro (htotal | hunsent)
    · rw [hq, hout, hjunk htotal, append_nil]
      exact h.bytes (.inl htotal)
    · rw [hnewkeys, hsent] at hunsent
      cases hunsent
  sent_iff := by rw [hnewkeys, hq]; exact h.sent_iff
  sealing := by rw [hnewkeys, hq, haead, hprotected]; exact h.sealing
  protectedSent := by rw [hprotected, hq]; exact h.protectedSent
  trust := by rw [hnewkeys, htrust]; exact h.trust
  answered := by
    intro o' ho' hfail
    rw [houtcome] at ho'
    cases ho'
    rw [ho] at hfail
    cases hfail

/-- A state that queued the next protected packet keeps the invariant. -/
theorem Output.sealed {a : AeadDirection} {havail : a.counterAvailable = true} {wire : Bytes}
    (h : Output C u s) (hsent : s.newkeysSent = true) (haead : s.sendAead = some a)
    (hwire : SealedBy C a payload wire)
    (hplanned : ∀ v, s.hist.verified = some v →
      SealedAt C (v.sendKeys C) (s.hist.queued.length - 4) a.nextNonce payload wire →
      Planned C u s.hist.verified s.hist.queued.length (.sealed a.nextNonce payload wire))
    (hqueued : s'.hist.queued = s.hist.queued ++ [.sealed a.nextNonce payload wire])
    (hbytes : s'.hist.taken ++ s'.out = s.hist.taken ++ s.out ++ wire)
    (hverified : s'.hist.verified = s.hist.verified) (hnewkeys : s'.newkeysSent = s.newkeysSent)
    (haead' : s'.sendAead = some (a.advance havail))
    (hprotected : s'.protectedSent = s.protectedSent + 1) (htrust : s'.trust = s.trust)
    (hnone : s'.outcome = none) : Output C u s' := by
  obtain ⟨v, a₁, hv, ha₁, hat⟩ := h.sealing hsent
  obtain rfl : a₁ = a := Option.some.inj (ha₁.symm.trans haead)
  have hlen := h.sent_iff.mp hsent
  have hsealed :
      SealedAt C (v.sendKeys C) (s.hist.queued.length - 4) a₁.nextNonce payload wire := by
    rw [← h.protectedSent]
    exact ⟨hat.nextNonce_eq, a₁, hat, hwire⟩
  exact {
    follows := by
      rw [hverified, hqueued]
      exact h.follows.snoc (hplanned v hv hsealed)
    bytes := by
      rw [hbytes, hqueued, wires_snoc, hnewkeys]
      intro htotal
      rw [h.bytes htotal]
      rfl
    sent_iff := by
      rw [hnewkeys, hqueued, length_append, length_singleton]
      exact ⟨fun _ => by omega, fun _ => hsent⟩
    sealing := fun _ => ⟨v, _, hverified.trans hv, haead', hprotected ▸ hat.advance havail⟩
    protectedSent := by
      rw [hprotected, h.protectedSent, hqueued, length_append, length_singleton]
      omega
    trust := by rw [hnewkeys, htrust]; exact h.trust
    answered := by simp [hnone] }

/-! ### Moves -/

/-- Until four messages are queued, our `NEWKEYS` is not among them. -/
theorem Output.unsent (h : Output C u s) (hlen : s.hist.queued.length < 4) :
    s.newkeysSent = false := by
  rw [← Bool.not_eq_true, h.sent_iff]
  exact Nat.not_le_of_lt hlen

theorem Output.handled (h : Output C u s) (hs : Basic s) (hidle : s.Idle)
    (hh : Handled C u payload s s') : Output C u s' := by
  have hne := hs.phase_ne hidle.outcome
  have hlen := hs.queued hne
  rw [if_pos hidle.pendingOutcome] at hlen
  cases hh with
  | failed hf => exact h.failed hf
  | skipped | guess => exact h.ongoing {} hidle.outcome
  | kexinit _ _ _ wire _ hphase _ _ _ _ _ hwire =>
    rw [hphase] at hlen
    have hunsent := h.unsent (by rw [hlen]; decide)
    exact { h with
      follows := h.follows.snoc (by rw [hlen]; exact .ecdhInit wire hwire)
      bytes := by
        intro htotal
        change s.hist.taken ++ (s.out ++ wire) = wires (s.hist.queued ++ [.framed _ wire])
        rw [wires_snoc, ← h.bytes htotal, append_assoc]
        rfl
      sent_iff := by
        change s.newkeysSent = true ↔ 4 ≤ (s.hist.queued ++ [_]).length
        rw [hunsent, length_append, length_singleton, hlen]
        decide
      sealing := fun hsent => absurd (hunsent.symm.trans hsent) (by decide)
      protectedSent := by
        change s.protectedSent = (s.hist.queued ++ [_]).length - 4
        rw [h.protectedSent, length_append, hlen]
        rfl
      answered := fun o ho => absurd (hidle.outcome.symm.trans ho) (by simp) }
  | reply _ _ _ hphase =>
    rw [hphase] at hlen
    have hunsent := h.unsent (by rw [hlen]; decide)
    -- what was queued so far does not depend on the signature that was accepted now
    exact { h with
      follows := fun i m hm => (h.follows i m hm).congr
        (Nat.lt_of_lt_of_le (List.getElem?_eq_some_iff.mp hm).1
          (show s.hist.queued.length ≤ 4 by rw [hlen]; decide)) _
      sealing := fun hsent => absurd (hunsent.symm.trans hsent) (by decide)
      answered := fun o ho => absurd (hidle.outcome.symm.trans ho) (by simp) }
  | newkeys _ _ _ wire _ hphase _ _ haead hwire =>
    rw [hphase] at hlen
    have hsent : s.newkeysSent = true := h.sent_iff.mpr (by rw [hlen]; decide)
    refine h.sealed hsent haead hwire ?_ rfl ?_ rfl rfl rfl rfl rfl
      hidle.outcome
    · intro v hv hsealed
      rw [hlen] at hsealed ⊢
      exact .serviceRequest v _ wire hv hsealed
    · exact (append_assoc _ _ _).symm
  | newkeysFailed _ _ _ _ hphase _ _ hjunk =>
    have hsent : s.newkeysSent = true := (hs.sent_iff hne).mpr (.inl hphase)
    exact h.sealFailed hjunk hsent rfl rfl rfl rfl rfl rfl rfl rfl

theorem Output.handledProtected (h : Output C u s) (hs : Basic s) (hidle : s.Idle)
    (hphase : s.phase = .service) (hh : HandledProtected C u payload s s') : Output C u s' := by
  have hne := hs.phase_ne hidle.outcome
  have hsent : s.newkeysSent = true := (hs.sent_iff hne).mpr (.inr hphase)
  have hlen := hs.queued hne
  rw [if_pos hidle.pendingOutcome, hphase] at hlen
  -- both ways of leaving queue a `DISCONNECT`, which differs in its description
  have hdisconnect {description wire : Bytes} {a : AeadDirection}
      (hd : description = completeDescription ∨ description = rekeyDescription) (v : Verified)
      (hv : s.hist.verified = some v)
      (hsealed : SealedAt C (v.sendKeys C) (s.hist.queued.length - 4) a.nextNonce
        (disconnectPayload description) wire) :
      Planned C u s.hist.verified s.hist.queued.length
        (.sealed a.nextNonce (disconnectPayload description) wire) := by
    rw [hlen] at hsealed ⊢
    exact .disconnect v _ description wire hv hd hsealed
  cases hh with
  | failed hf => exact h.failed hf
  | skipped | extInfo => exact h.ongoing {} hidle.outcome
  | accept _ _ _ _ _ _ _ haead hwire =>
    exact h.sealed hsent haead hwire (hdisconnect (.inl rfl)) rfl
      (append_assoc _ _ _).symm rfl rfl rfl rfl rfl hidle.outcome
  | rekey _ _ _ _ _ haead hwire =>
    exact h.sealed hsent haead hwire (hdisconnect (.inr rfl)) rfl
      (append_assoc _ _ _).symm rfl rfl rfl rfl rfl hidle.outcome
  | sealFailed _ _ _ _ hjunk =>
    exact h.sealFailed hjunk hsent rfl rfl rfl rfl rfl rfl rfl rfl

/-- Trusting the host key queues our `NEWKEYS`. -/
theorem Output.trusted {source : TrustSource} {keys : KeySet} {wire : Bytes}
    {padding : PaddingSource} (h : Output C u s) (hs : Basic s) (hv : Verification C u s)
    (hphase : s.phase = .trustDecision) (hkeys : s.keys = some keys)
    (hwire : FrameOf NewKeys.payload wire) :
    Output C u { { s with trust := some (.trusted source) }.queueFramed NewKeys.payload wire padding
      with newkeysSent := true, sendAead := some (.new keys.clientToServer),
           sendSeq := if s.strictActive then 0 else s.sendSeq + 1, phase := .serverNewKeys } := by
  have hne : s.phase ≠ .finished := by rw [hphase]; decide
  have hlen := hs.queued hne
  have hpending : s.pendingOutcome = none := by
    rw [Option.eq_none_iff_forall_ne_some]
    intro o ho
    have := (hs.pending o ho).1
    rw [hphase] at this
    cases this
  rw [if_pos hpending, hphase] at hlen
  have hunsent := h.unsent (by rw [hlen]; decide)
  obtain ⟨v, hverified⟩ := Option.ne_none_iff_exists'.mp (hv.known (.inl hphase))
  have hkeysOf : keys = keysOf C v.secret v.hash :=
    Option.some.inj (hkeys.symm.trans (hv.keys (.inl hphase) v hverified))
  have hzero : s.protectedSent = 0 := by rw [h.protectedSent, hlen]; rfl
  exact {
    follows := h.follows.snoc (by rw [hlen]; exact .newkeys wire hwire)
    bytes := by
      intro _
      change s.hist.taken ++ (s.out ++ wire) = wires (s.hist.queued ++ [.framed _ wire])
      rw [wires_snoc, ← h.bytes (.inr hunsent), append_assoc]
      rfl
    sent_iff := by
      change true = true ↔ 4 ≤ (s.hist.queued ++ [_]).length
      rw [length_append, length_singleton, hlen]
      decide
    sealing := by
      refine fun _ => ⟨v, _, hverified, rfl, ?_⟩
      change (AeadDirection.new keys.clientToServer).At _ s.protectedSent
      rw [hzero, hkeysOf]
      exact AeadDirection.at_new _
    protectedSent := by
      change s.protectedSent = (s.hist.queued ++ [_]).length - 4
      rw [hzero, length_append, hlen]
      rfl
    trust := ⟨fun _ => ⟨source, rfl⟩, fun _ => rfl⟩
    answered := fun o ho => absurd ((hs.outcome_eq_none hne).symm.trans ho) (by simp) }

/-- **Every move keeps the invariant.** -/
theorem Output.move (h : Output C u s) (hs : Basic s) (hv : Verification C u s)
    (hm : Move C u s s') : Output C u s' := by
  cases hm with
  | takeOutput =>
    refine h.quiet { bytes := append_nil _ } fun o ho hfail => ?_
    exact ⟨(h.answered o ho hfail).1, rfl⟩
  | failed _ hf => exact h.failed hf
  | distrust _ hphase =>
    have hunsent : s.newkeysSent = false := by
      rw [← Bool.not_eq_true, hs.sent_iff (by rw [hphase]; decide), hphase]
      decide
    exact { h with
      trust := by simp [State.finish, hunsent]
      answered := by
        rintro o ho hfail
        cases ho
        cases hfail }
  | trust _ _ _ _ hphase hkeys hwire => exact h.trusted hs hv hphase hkeys hwire
  | adopt o _ hout hpending =>
    have hphase := (hs.pending o hpending).1
    have hlen := hs.queued (by rw [hphase]; decide)
    rw [if_neg (by simp [hpending]), hphase] at hlen
    exact h.quiet {} fun _ _ _ => ⟨hlen, hout⟩
  | prelude _ _ hidle | identified _ _ hidle => exact h.ongoing {} hidle.outcome
  | unprotected payload bytes hidle _ _ _ _ hh =>
    have htaken : Output C u (s.take payload bytes).count := h.ongoing {} hidle.outcome
    exact htaken.handled (hs.taken payload bytes)
      { hidle with } hh
  | wrapped | badPadding | overBudget | wrappedProtected => exact h.ended {} rfl rfl
  | protectedPacket a havail payload hidle hphase _ _ _ _ hh =>
    have hopened : Output C u ((s.takeOpened a (a.advance havail) payload).accept payload).count :=
      h.ongoing {} hidle.outcome
    exact hopened.handledProtected (hs.opened a (a.advance havail) payload)
      { hidle with } hphase hh

theorem Built.output {config : HandshakeConfig} {provider : Option SignatureProvider}
    {h : ClientHandshake} (hb : Built C config provider h) : Output C h.setup h.state := by
  obtain ⟨_, _, _, wire, _, -, -, -, hwire, hstate⟩ := hb.start
  have hqueued : h.state.hist.queued = ([] ++ [.line h.setup.clientLine]) ++
      [.framed h.setup.iC wire] := by rw [hstate]; rfl
  have hnil : Follows C h.setup h.state.hist.verified [] := by simp [Follows]
  exact {
    follows := by
      rw [hqueued]
      exact (hnil.snoc .line).snoc (.kexinit wire hwire)
    bytes := by
      intro _
      rw [hqueued, wires_snoc, wires_snoc, hstate]
      rfl
    sent_iff := by rw [hqueued, hstate]; simp [initialState, State.queueLine, State.queueFramed]
    sealing := by rw [hstate]; simp [initialState, State.queueLine, State.queueFramed]
    protectedSent := by rw [hqueued, hstate]; rfl
    trust := by rw [hstate]; simp [initialState, State.queueLine, State.queueFramed]
    answered := by rw [hstate]; simp [initialState, State.queueLine, State.queueFramed] }

end Tatami.Tcp
