import Tatami.Tcp.Handshake.Driver

/-! # The input buffer of the handshake

Two facts about `step` and the input buffer. It asks for more only while the largest unit it may
have to wait for does not fill the buffer (`round_room`). And it never ends the handshake for input
that did not fit: only `feed` does (`round_fits`). -/

namespace Tatami.Tcp

open Tatami.Wire Tatami.Keys Checked

variable {C : Crypto} {u : Setup} {s s' : State} {b b' : InputBuffer}

/-! ### Only `feed` overflows -/

/-- **A round does not overflow.** -/
theorem round_fits {answer : Option Step} (hbasic : Basic s) (hs : s.Fits)
    (h : round C u s b = .ok (answer, s', b')) : s'.Fits := by
  refine (round_cases hbasic.protectedSent_lt hbasic.sendSeq_lt h).2 hs ?_
  -- only two outcomes wait for their `DISCONNECT`
  rw [Option.bind_eq_none_iff]
  intro o ho
  have hfailure := (hbasic.pending o ho).2
  cases o with
  | completed => rfl
  | rekeyNotSupported => rfl
  | _ => cases hfailure

/-- **`step` does not overflow.** -/
theorem stepLoop_fits {fuel : Nat} {answer : Step} (hbasic : Basic s) (hs : s.Fits)
    (h : stepLoop C u fuel s b = .ok (answer, s', b')) : s'.Fits := by
  refine stepLoop_rule (P := fun s _ => s.Fits → s'.Fits) hbasic h (fun _ _ => id) ?_ hs
  intro s s₁ b b₁ hbasic hround hrest hs
  exact hrest (round_fits hbasic hs hround)

/-- The answer to the trust question does not overflow. -/
theorem provideTrust_fits {decision : TrustDecision} (hbasic : Basic s) (hs : s.Fits)
    (h : provideTrust C decision s = .ok s') : s'.Fits := by
  by_cases hphase : s.phase = .trustDecision
  swap
  · rw [provideTrust, if_pos hphase] at h
    cases h
    exact hs
  cases decision with
  | untrusted =>
    rw [provideTrust, if_neg (not_not.mpr hphase)] at h
    cases h
    rfl
  | trusted source =>
    obtain ⟨_, _, -, hrun⟩ := provideTrust_trusted C source hphase hbasic.sendSeq_lt
    rw [hrun] at h
    obtain ⟨_, -, h⟩ := bind_ok_iff.mp h
    cases h
    exact hs

/-! ### Room for what is waited for -/

/-- The capacity is above each unit that may have to be waited for. -/
theorem HandshakeConfig.bufferCapacity_ge {config : HandshakeConfig} {capacity : Nat}
    (h : config.bufferCapacity = .ok capacity) :
    lengthLen + config.packet.maxPacketLength.toNat + tagLen ≤ capacity ∧
      config.packet.maxPacketLength.toNat + headerLen ≤ capacity ∧
      config.ident.maxLine ≤ capacity := by
  rw [bufferCapacity] at h
  obtain ⟨_, hunprotected, h⟩ := bind_ok_iff.mp h
  obtain ⟨-, rfl⟩ := addUsize_ok_iff.mp hunprotected
  obtain ⟨_, hbody, h⟩ := bind_ok_iff.mp h
  obtain ⟨-, rfl⟩ := addUsize_ok_iff.mp hbody
  obtain ⟨_, hprotected, h⟩ := bind_ok_iff.mp h
  obtain ⟨-, rfl⟩ := addUsize_ok_iff.mp hprotected
  obtain ⟨-, rfl⟩ := addUsize_ok_iff.mp h
  omega

/-- **A round that asks for more leaves room for it.** -/
theorem round_room {capacity : Nat} (hcapacity : u.config.bufferCapacity = .ok capacity)
    (hlimits : s.phase = .serverIdentification → s.identReader.limits = u.config.ident)
    (h : round C u s b = .ok (some .needMore, s', b')) : b.buf.length < capacity := by
  obtain ⟨hprotected, hunprotected, hline⟩ := HandshakeConfig.bufferCapacity_ge hcapacity
  -- an attempt that asks for more is one that the decoder of its phase answers so
  have hattempt {x : Checked (Flow × State × InputBuffer)}
      (h : ofFlow <$> x = .ok (some .needMore, s', b')) : x = .ok (.needMore, s', b') := by
    obtain ⟨⟨flow, _, b₁⟩, hok, heq⟩ := map_ok_iff.mp h
    cases flow with
    | again => cases heq
    | needMore => cases heq; exact hok
  have hkex (h : stepUnprotected C u s b = .ok (.needMore, s', b')) : b.buf.length < capacity := by
    rw [stepUnprotected, decodeInitialPacket_eq, ok_bind] at h
    split at h
    · rename_i t hneed
      exact Nat.lt_of_lt_of_le (initialDecision_needMore hneed) hunprotected
    · cases h
    rcases ite_eq_iff.mp h with ⟨-, h⟩ | ⟨-, h⟩
    · cases h
    simp only at h
    rcases ite_eq_iff.mp h with ⟨-, h⟩ | ⟨-, h⟩
    · cases h
    obtain ⟨_, -, h⟩ := bind_ok_iff.mp h
    obtain ⟨b₁, -, h⟩ := bind_ok_iff.mp h
    rcases counted_cases h with ⟨-, h⟩ | ⟨-, s', -, h⟩ <;> cases h
  rw [round] at h
  split at h
  · cases h
  rcases ite_eq_iff.mp h with ⟨-, h⟩ | ⟨-, h⟩
  · cases h
  split at h
  · cases h
  split at h
  · rename_i hphase
    have h := hattempt h
    rw [stepIdentification] at h
    split at h
    · rename_i r hfeed
      have hshort := IdentificationReader.feed_needMore hfeed
      rw [hlimits hphase] at hshort
      exact Nat.lt_of_lt_of_le hshort hline
    · obtain ⟨_, -, h⟩ := bind_ok_iff.mp h
      cases h
    · obtain ⟨_, -, h⟩ := bind_ok_iff.mp h
      cases h
    · cases h
  · exact hkex (hattempt h)
  · exact hkex (hattempt h)
  · exact hkex (hattempt h)
  · obtain ⟨_, -, h⟩ := bind_ok_iff.mp h
    cases h
  · have h := hattempt h
    rw [stepProtected] at h
    obtain ⟨a, -, h⟩ := bind_ok_iff.mp h
    rw [AeadDirection.openPacket_eq, ok_bind] at h
    obtain ⟨b₁, -, h⟩ := bind_ok_iff.mp h
    have hopen := AeadDirection.openDecision_cases C a b.buf u.config.packet
    generalize AeadDirection.openDecision C a b.buf u.config.packet = opened at *
    cases hopen with
    | needMore t hshort => exact Nat.lt_of_lt_of_le hshort hprotected
    | refused e he =>
      cases e with
      | badPadding l p => exact absurd rfl (he l p)
      | _ => cases h
    | badPadding => cases h
    | packet =>
      rw [stepOpened] at h
      obtain ⟨_, -, h⟩ := bind_ok_iff.mp h
      rcases ite_eq_iff.mp h with ⟨-, h⟩ | ⟨-, h⟩
      · cases h
      obtain ⟨_, -, h⟩ := bind_ok_iff.mp h
      rcases counted_cases h with ⟨-, h⟩ | ⟨-, s', -, h⟩ <;> cases h
  · cases h

end Tatami.Tcp
