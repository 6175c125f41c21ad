import Tatami.Tcp.Handshake.Machine

/-! # What sending does

Each of the three kinds of sending, in one lemma: which bytes it appends, which counters it moves
and when it can fail. The handlers are then read through these lemmas and never through the
framing. -/

namespace Tatami.Tcp

open Tatami.Wire Tatami.Keys AeadDirection Checked

/-! ### Shapes of outgoing packets -/

/-- `wire` is an unprotected packet with this payload and legal padding. -/
def FrameOf (payload wire : Bytes) : Prop :=
  ∃ padding, LegalFrame ⟨4294967295⟩ payload padding ∧ wire = initialFrame payload padding

/-- The body of a protected packet. -/
def sealedBody (payload padding : Bytes) : Bytes :=
  UInt8.ofNat padding.length :: (payload ++ padding)

/-- What RFC 4253 §6 asks of the padding of a protected packet. -/
structure LegalBody (payload padding : Bytes) : Prop where
  minPadding_le : minPadding ≤ padding.length
  padding_lt : padding.length < 256
  aligned : (1 + payload.length + padding.length) % blockSize = 0
  fits : 1 + payload.length + padding.length < 2 ^ 32

/-- `wire` is the packet a direction seals next over this payload, with legal padding. -/
def SealedBy (C : Crypto) (a : AeadDirection) (payload wire : Bytes) : Prop :=
  ∃ padding, LegalBody payload padding ∧
    ∃ sealed tag, C.encrypt a.key a.nextNonce (beBytes 4 (sealedBody payload padding).length)
        (sealedBody payload padding) = some (sealed, tag) ∧
      wire = beBytes 4 (sealedBody payload padding).length ++ sealed.toBytes ++ tag.toBytes

/-- **A sealed packet is opened** by the direction that would seal it, with whatever follows it left
alone. -/
theorem openDecision_sealed {C : Crypto} (hlaw : C.OpensSealed) {a : AeadDirection}
    (havail : a.counterAvailable = true) {payload wire : Bytes} (h : SealedBy C a payload wire)
    {limits : PacketLimits} (hcap : wire.length ≤ lengthLen + limits.maxPacketLength.toNat + tagLen)
    (rest : Bytes) :
    ∃ buf, a.openDecision C (wire ++ rest) limits =
        ⟨.ok (.packet payload wire.length), a.advance havail, buf⟩ ∧
      buf.drop wire.length = rest := by
  obtain ⟨padding, hlegal, sealed, tag, henc, rfl⟩ := h
  have hplain := hlaw _ _ _ _ _ _ henc
  have hlen : sealed.toBytes.length = (sealedBody payload padding).length := sealed.length_toBytes
  have hbody : (sealedBody payload padding).length = 1 + payload.length + padding.length := by
    simp only [sealedBody, List.length_cons, List.length_append]
    omega
  generalize sealed.toBytes = cipher at hplain hlen hcap ⊢
  rw [← hlen] at hplain hcap ⊢
  rw [hbody] at hlen
  change (sealedFrame cipher tag).length ≤ _ at hcap
  change ∃ buf, a.openDecision C (sealedFrame cipher tag ++ rest) limits =
    ⟨.ok (.packet payload (sealedFrame cipher tag).length), _, buf⟩ ∧
      buf.drop (sealedFrame cipher tag).length = rest
  rw [length_sealedFrame] at hcap ⊢
  exact openDecision_frame havail (by omega) hlen (by rw [hlen]; exact hlegal.aligned)
    hlegal.minPadding_le hlegal.padding_lt hplain rest

/-- The padding of a sealed packet is legal. -/
theorem paddingFor_bounds (unpadded : Nat) :
    minPadding ≤ paddingFor unpadded ∧ paddingFor unpadded < 20 ∧
      (unpadded + paddingFor unpadded) % blockSize = 0 := by
  have hmod := Nat.mod_lt unpadded (show 0 < blockSize by decide)
  have hdiv := Nat.div_add_mod unpadded blockSize
  have hblock : blockSize = 16 := rfl
  have hleast : minPadding = 4 := rfl
  rw [paddingFor]
  split
  · rename_i hlt
    simp only [hblock, hleast] at *
    omega
  · rename_i hge
    simp only [hblock, hleast] at *
    omega

/-- A direction can seal a payload: it has a nonce left, and the packet fits its length field. -/
def CanSeal (a : AeadDirection) (payload : Bytes) : Prop :=
  a.counterAvailable = true ∧
    payload.length + 1 + paddingFor (payload.length + 1) < 2 ^ 32

section Sealing

variable {σ : Type} (C : Crypto) {a : AeadDirection} {payload : Bytes}
  (fill : (n : Nat) → σ → ByteVec n × σ) (s : σ) (out : Bytes)

/-- The body of a sealed packet is as long as was announced. -/
theorem length_sealedBody (pad : ByteVec (paddingFor (payload.length + 1))) :
    (sealedBody payload pad.toBytes).length =
      payload.length + 1 + paddingFor (payload.length + 1) := by
  rw [sealedBody, List.length_cons, List.length_append, pad.length_toBytes]
  omega

/-- What becomes of a payload that can be sealed is up to the cipher. -/
theorem sealPacket_of_canSeal (h : CanSeal a payload) :
    a.sealPacket C payload fill s out =
      let pad := fill (paddingFor (payload.length + 1)) s
      let body := sealedBody payload pad.1.toBytes
      match C.encrypt a.key a.nextNonce (beBytes 4 body.length) body with
      | none => ⟨.error .payloadTooLarge, a, pad.2, out ++ beBytes 4 body.length ++ body⟩
      | some (sealed, tag) =>
        let wire := beBytes 4 body.length ++ sealed.toBytes ++ tag.toBytes
        ⟨.ok wire.length, a.advance h.1, pad.2, out ++ wire⟩ := by
  obtain ⟨havail, hfits⟩ := h
  have hmax := (paddingFor_bounds (payload.length + 1)).2.1
  rw [sealPacket, dif_pos havail, checkedAdd_eq_some_iff.mpr ⟨by omega, rfl⟩]
  dsimp only
  rw [checkedAdd_eq_some_iff.mpr ⟨by omega, rfl⟩]
  dsimp only
  rw [if_neg (by omega), if_neg (by omega)]
  generalize fill _ s = pad
  have hbody : UInt8.ofNat (paddingFor (payload.length + 1)) ::
      (payload ++ pad.1.toBytes) = sealedBody payload pad.1.toBytes := by
    rw [sealedBody, pad.1.length_toBytes]
  rw [hbody, congrArg (beBytes 4) (length_sealedBody pad.1)]
  rfl

/-- A payload that cannot be sealed is refused before anything is drawn or written. -/
theorem sealPacket_of_not_canSeal (h : ¬CanSeal a payload) :
    ∃ e, a.sealPacket C payload fill s out = ⟨.error e, a, s, out⟩ := by
  rw [sealPacket]
  by_cases havail : a.counterAvailable = true
  swap
  · exact ⟨_, dif_neg havail⟩
  rw [dif_pos havail]
  cases hunpadded : checkedAdd payload.length 1 with
  | none => exact ⟨_, rfl⟩
  | some =>
    obtain ⟨-, rfl⟩ := checkedAdd_eq_some_iff.mp hunpadded
    dsimp only
    cases hlength : checkedAdd (payload.length + 1) _ with
    | none => exact ⟨_, rfl⟩
    | some =>
      obtain ⟨-, rfl⟩ := checkedAdd_eq_some_iff.mp hlength
      exact ⟨_, if_pos (Nat.not_lt.mp fun hlt => h ⟨havail, hlt⟩)⟩

/-- **Inversion of sealing.** Either one packet is appended and the direction advances, or nothing
but the padding source changes; only a cipher that refuses leaves bytes behind, or fails where the
direction could seal. -/
theorem sealPacket_cases (a : AeadDirection) (payload : Bytes) :
    (∃ h s' wire, SealedBy C a payload wire ∧
      a.sealPacket C payload fill s out = ⟨.ok wire.length, a.advance h, s', out ++ wire⟩) ∨
    (∃ e s' junk, (C.SealTotal → junk = [] ∧ ¬CanSeal a payload) ∧
      a.sealPacket C payload fill s out = ⟨.error e, a, s', out ++ junk⟩) := by
  by_cases hcan : CanSeal a payload
  swap
  · obtain ⟨e, he⟩ := sealPacket_of_not_canSeal C fill s out hcan
    exact .inr ⟨e, s, [], fun _ => ⟨rfl, hcan⟩, by rw [he, List.append_nil]⟩
  obtain ⟨hmin, hmax, halign⟩ := paddingFor_bounds (payload.length + 1)
  have hfits := hcan.2
  rw [sealPacket_of_canSeal C fill s out hcan]
  -- the padding is drawn, and the rest depends on the cipher
  obtain ⟨pad, s'⟩ := fill (paddingFor (payload.length + 1)) s
  dsimp only
  have hlegal : LegalBody payload pad.toBytes := by
    refine ⟨?_, ?_, ?_, ?_⟩ <;> rw [pad.length_toBytes]
    · exact hmin
    · omega
    · rwa [Nat.add_comm 1]
    · omega
  cases henc : C.encrypt a.key a.nextNonce (beBytes 4 (sealedBody payload pad.toBytes).length)
      (sealedBody payload pad.toBytes) with
  | none =>
    refine .inr ⟨.payloadTooLarge, s', _, fun htotal => ?_, by rw [List.append_assoc]⟩
    have hsome := htotal a.key a.nextNonce (beBytes 4 (sealedBody payload pad.toBytes).length)
      (sealedBody payload pad.toBytes) (by rwa [length_sealedBody])
    rw [henc] at hsome
    cases hsome
  | some pair =>
    obtain ⟨sealed, tag⟩ := pair
    exact .inl ⟨hcan.1, s', _, ⟨pad.toBytes, hlegal, sealed, tag, henc, rfl⟩, rfl⟩

end Sealing

/-! ### Queueing -/

namespace State

/-- The state after an unprotected packet was queued. -/
def queueFramed (payload wire : Bytes) (padding : PaddingSource) (s : State) : State :=
  { s with
    padding, out := s.out ++ wire, sendSeq := s.sendSeq + 1,
    hist := { s.hist with queued := s.hist.queued ++ [.framed payload wire] } }

/-- The state after a protected packet was queued by `a`, which is `a'` now. -/
def queueSealed (a a' : AeadDirection) (payload wire : Bytes) (padding : PaddingSource)
    (s : State) : State :=
  { s with
    sendAead := some a', padding, out := s.out ++ wire, protectedSent := s.protectedSent + 1,
    sendSeq := s.sendSeq + 1,
    hist := { s.hist with queued := s.hist.queued ++ [.sealed a.nextNonce payload wire] } }

/-- The state after sealing failed. -/
def sealFailed (junk : Bytes) (padding : PaddingSource) (s : State) : State :=
  { s with padding, out := s.out ++ junk }

/-- Below the last value a counter is just incremented. -/
theorem bumpSequence_send {s : State} (h : s.sendSeq + 1 < 2 ^ 32) :
    s.bumpSequence true = (.ok (), { s with sendSeq := s.sendSeq + 1 }) := by
  rw [bumpSequence, nextSequence]
  simp only [if_true]
  rw [if_pos h]

end State

/-- **Queueing an unprotected packet** goes through for every short payload while the counter has
room. -/
theorem sendUnprotected_eq (C : Crypto) {payload : Bytes} {s : State}
    (hlen : payload.length < 2 ^ 31) (hseq : s.sendSeq + 1 < 2 ^ 32) :
    ∃ padding wire, FrameOf payload wire ∧
      sendUnprotected C payload s = .ok (.ok (), s.queueFramed payload wire padding) := by
  have hheader : headerLen = 5 := rfl
  have hblock : initialBlockSize = 8 := rfl
  have hleast : minPadding = 4 := rfl
  have hroom : minTotalLen = 16 := rfl
  obtain ⟨hmin, hmax⟩ := initialPadding_bounds (headerLen + payload.length)
  have halign := initialPadding_aligned (headerLen + payload.length)
  rw [sendUnprotected, addUsize_ok (by omega), ok_bind,
    addUsize_ok (by omega), ok_bind,
    encodeInitialPacketWith_ok _ _ hlen (Nat.le_refl _)]
  obtain ⟨pad, padding⟩ := PaddingSource.fillBytes C
    (initialPadding (headerLen + payload.length)) s.padding
  have hlegal : LegalFrame ⟨4294967295⟩ payload pad.toBytes := by
    have hcap : (4294967295 : UInt32).toNat = 4294967295 := rfl
    refine ⟨?_, ?_, ?_, ?_, ?_⟩
    all_goals rw [ByteVec.length_toBytes]
    · exact hmin
    · omega
    · exact halign
    · simp only [hblock] at halign
      omega
    · simp only [hcap]
      omega
  refine ⟨padding, initialFrame payload pad.toBytes, ⟨pad.toBytes, hlegal, rfl⟩, ?_⟩
  exact congrArg Except.ok (State.bumpSequence_send (by exact hseq))

/-- **Queueing a protected packet**, while the counters have room: one sealed packet is queued, or
sealing failed and nothing was. -/
theorem sendProtected_cases (C : Crypto) {payload : Bytes} {s : State} {a : AeadDirection}
    (ha : s.sendAead = some a) (hsent : s.protectedSent + 1 < 2 ^ 32)
    (hseq : s.sendSeq + 1 < 2 ^ 32) :
    (∃ h padding wire, SealedBy C a payload wire ∧
      sendProtected C payload s =
        .ok (.ok (), s.queueSealed a (a.advance h) payload wire padding)) ∨
    (∃ e padding junk, (C.SealTotal → junk = [] ∧ ¬CanSeal a payload) ∧
      sendProtected C payload s =
        .ok (.error (.protocolError (.seal e)), s.sealFailed junk padding)) := by
  rw [sendProtected, ha, expect_some, ok_bind]
  simp only
  rcases sealPacket_cases C (PaddingSource.fillBytes C) s.padding s.out a payload with
    ⟨h, padding, wire, hwire, heq⟩ | ⟨e, padding, junk, hjunk, heq⟩
  · refine .inl ⟨h, padding, wire, hwire, ?_⟩
    rw [heq]
    simp only [List.drop_left]
    rw [add_ok hsent, ok_bind]
    exact congrArg Except.ok (State.bumpSequence_send (by exact hseq))
  · refine .inr ⟨e, padding, junk, hjunk, ?_⟩
    rw [heq]
    simp only [pure_eq_ok, State.sealFailed]
    rw [← ha]

/-- The bytes of the `DISCONNECT` with a description. -/
def disconnectPayload (description : Bytes) : Bytes := (byApplication description).payload

/-- Queueing a `DISCONNECT` is queueing its bytes. -/
theorem sendDisconnect_eq (C : Crypto) {description : Bytes} (h : description.length < 2 ^ 32)
    (s : State) :
    sendDisconnect C description s = sendProtected C (disconnectPayload description) s := by
  have hlen : (byApplication description).payload.length = 1 + 4 + 4 + description.length + 4 := by
    rw [Disconnect.payload, byApplication]
    simp only [List.length_append, List.length_cons, List.length_nil, length_beBytes,
      length_lengthPrefixed]
    omega
  have hshort : (byApplication description).Short := ⟨h, show 0 < 2 ^ 32 by decide⟩
  obtain ⟨_, hrun, hout⟩ := ((byApplication description).encodesTo hshort).large
    (List.replicate (1 + 4 + 4 + description.length + 4) 0) (by rw [List.length_replicate, hlen])
  unfold sendDisconnect
  simp only [hrun, slice_written hout, ok_bind]
  rfl

end Tatami.Tcp
