import Tatami.Tcp.Ident
import Tatami.Tcp.Initial
import Tatami.Tcp.Packet
import Tatami.Wire.KexInit

/-! # Initial packets with budgets

What the client probe and the server observer share: initial packets are decoded from a buffer, the
packet and byte budgets are applied, and each message is classified the same way for both roles.
`IGNORE`, `DEBUG` and `UNIMPLEMENTED` are reported and skipped, `DISCONNECT` and `KEXINIT` end the
phase, everything else is an error. -/

namespace Tatami.Tcp

open Tatami.Wire Checked

/-! ### Budgets, errors and steps -/

/-- Budgets for the initial packet phase. -/
structure InitialLimits where
  packet : PacketLimits
  /-- Packets accepted through and including `KEXINIT`. -/
  maxPackets : UInt64
  /-- Framed bytes accepted through and including `KEXINIT`. -/
  maxBytes : UInt64
  deriving DecidableEq, Repr

/-- The default budgets. -/
def InitialLimits.default : InitialLimits := ⟨.default, 16, 256 * 1024⟩

/-- Failure of the identification or initial packet phase. -/
inductive InitialError where
  | ident (error : IdentError)
  | packet (error : PacketError)
  | emptyPayload
  | message (number : UInt8) (error : MessageError)
  | unexpectedMessage (number : UInt8)
  | unsupportedTransition (number : UInt8)
  | packetBudgetExceeded (limit : UInt64)
  | byteBudgetExceeded (limit : UInt64)
  | inputOverflow (overflow : InputOverflow)
  deriving DecidableEq, Repr

/-- Result of one look at the buffer. -/
inductive InitialStep where
  | needMore
  | skipped (message : SkippedMessage) (consumed : Nat)
  | kexInit (kexinit : KexInit) (payload : Bytes) (consumed : Nat)
  | disconnect (disconnect : Disconnect) (consumed : Nat)
  | error (e : InitialError)
  deriving DecidableEq

/-- Initial-packet decoder with budgets. -/
structure InitialPackets where
  limits : InitialLimits
  packets : Nat
  bytes : Nat
  deriving DecidableEq

/-! ### One packet -/

/-- What is made of a payload that took `consumed` bytes. -/
def classifyInitial (payload : Bytes) (consumed : Nat) : InitialStep :=
  match payload.head? with
  | none => .error .emptyPayload
  | some number =>
    let malformed e := InitialStep.error (.message number e)
    if number = Msg.ignore then
      match Ignore.decode payload with
      | .ok i => .skipped (.ignored i.data.length) consumed
      | .error e => malformed e
    else if number = Msg.debug then
      match Debug.decode payload with
      | .ok d => .skipped (.debug d.alwaysDisplay d.message d.languageTag) consumed
      | .error e => malformed e
    else if number = Msg.unimplemented then
      match Unimplemented.decode payload with
      | .ok u => .skipped (.unimplemented u.sequenceNumber) consumed
      | .error e => malformed e
    else if number = Msg.disconnect then
      match Disconnect.decode payload with
      | .ok d => .disconnect d consumed
      | .error e => malformed e
    else if number = Msg.kexInit then
      match KexInit.decode payload with
      | .ok k => .kexInit k payload consumed
      | .error e => malformed e
    else if number = Msg.newKeys then .error (.unsupportedTransition number)
    else if Msg.isKexMethodSpecific number then .error (.unsupportedTransition number)
    else .error (.unexpectedMessage number)

namespace InitialPackets

/-- A decoder that has accepted nothing yet. -/
def new (limits : InitialLimits) : InitialPackets := ⟨limits, 0, 0⟩

/-- Examines the front of `buf` for one complete packet. -/
def step (p : InitialPackets) (buf : Bytes) : Checked (InitialStep × InitialPackets) := do
  match ← decodeInitialPacket buf p.limits.packet with
  | .ok (.needMore _) => pure (.needMore, p)
  | .error e => pure (.error (.packet e), p)
  | .ok (.complete packet) =>
    if p.limits.maxPackets.toNat ≤ p.packets then
      pure (.error (.packetBudgetExceeded p.limits.maxPackets), p)
    else
      let bytes := saturatingAdd p.bytes packet.totalLen
      if p.limits.maxBytes.toNat < bytes then
        pure (.error (.byteBudgetExceeded p.limits.maxBytes), p)
      else
        let packets ← addUsize p.packets 1
        pure (classifyInitial packet.payload packet.totalLen, { p with packets, bytes })

end InitialPackets

/-! ### What a step can be -/

/-- The bytes a step asks to consume. -/
def InitialStep.consumed : InitialStep → Nat
  | .skipped _ n => n
  | .kexInit _ _ n => n
  | .disconnect _ n => n
  | _ => 0

/-- A classified payload is not waited for, consumes its own bytes or none, and never overflows the
input. -/
theorem classifyInitial_cases (payload : Bytes) (n : Nat) :
    classifyInitial payload n ≠ .needMore ∧ (classifyInitial payload n).consumed ≤ n ∧
      ∀ e, classifyInitial payload n ≠ .error (.inputOverflow e) := by
  rw [classifyInitial]
  split
  · exact ⟨nofun, Nat.zero_le _, nofun⟩
  simp only
  repeat' split
  all_goals exact ⟨nofun, by first | exact Nat.le_refl _ | exact Nat.zero_le _, nofun⟩

/-- A message that is skipped takes its bytes with it. -/
theorem classifyInitial_skipped {payload : Bytes} {n k : Nat} {message : SkippedMessage}
    (h : classifyInitial payload n = .skipped message k) : k = n := by
  rw [classifyInitial] at h
  split at h
  · cases h
  simp only at h
  repeat' split at h
  all_goals cases h
  all_goals rfl

namespace InitialPackets

variable {p p' : InitialPackets} {buf : Bytes} {s : InitialStep}

/-- Every case of one look at the buffer. -/
inductive StepCase (p : InitialPackets) (buf : Bytes) : InitialStep → InitialPackets → Prop where
  | needMore (t : Option Nat) (h : initialDecision buf p.limits.packet = .ok (.needMore t)) :
      StepCase p buf .needMore p
  | refused (e : PacketError) (h : initialDecision buf p.limits.packet = .error e) :
      StepCase p buf (.error (.packet e)) p
  | overPackets (packet : InitialPacket)
      (h : initialDecision buf p.limits.packet = .ok (.complete packet))
      (hpackets : p.limits.maxPackets.toNat ≤ p.packets) :
      StepCase p buf (.error (.packetBudgetExceeded p.limits.maxPackets)) p
  | overBytes (packet : InitialPacket)
      (h : initialDecision buf p.limits.packet = .ok (.complete packet))
      (hpackets : p.packets < p.limits.maxPackets.toNat)
      (hbytes : p.limits.maxBytes.toNat < saturatingAdd p.bytes packet.totalLen) :
      StepCase p buf (.error (.byteBudgetExceeded p.limits.maxBytes)) p
  | accepted (packet : InitialPacket)
      (h : initialDecision buf p.limits.packet = .ok (.complete packet))
      (hpackets : p.packets < p.limits.maxPackets.toNat)
      (hbytes : saturatingAdd p.bytes packet.totalLen ≤ p.limits.maxBytes.toNat) :
      StepCase p buf (classifyInitial packet.payload packet.totalLen)
        { p with
          packets := p.packets + 1, bytes := saturatingAdd p.bytes packet.totalLen }

/-- **A step returns**, and is one of its cases. -/
theorem step_returns (p : InitialPackets) (buf : Bytes) :
    ∃ s p', p.step buf = .ok (s, p') ∧ StepCase p buf s p' := by
  rw [step, decodeInitialPacket_eq, ok_bind]
  cases h : initialDecision buf p.limits.packet with
  | error e => exact ⟨_, _, rfl, .refused e h⟩
  | ok d =>
    cases d with
    | needMore t => exact ⟨_, _, rfl, .needMore t h⟩
    | complete packet =>
      simp only
      by_cases hpackets : p.limits.maxPackets.toNat ≤ p.packets
      · rw [if_pos hpackets]
        exact ⟨_, _, rfl, .overPackets packet h hpackets⟩
      rw [if_neg hpackets]
      by_cases hbytes : p.limits.maxBytes.toNat < saturatingAdd p.bytes packet.totalLen
      · rw [if_pos hbytes]
        exact ⟨_, _, rfl, .overBytes packet h (Nat.not_le.mp hpackets) hbytes⟩
      have hmax := p.limits.maxPackets.toNat_lt
      rw [if_neg hbytes, addUsize_ok (by omega), ok_bind]
      exact ⟨_, _, rfl,
        .accepted packet h (Nat.not_le.mp hpackets) (Nat.not_lt.mp hbytes)⟩

/-- **Inversion of a step.** -/
theorem step_cases (h : p.step buf = .ok (s, p')) : StepCase p buf s p' := by
  obtain ⟨_, _, hstep, hcase⟩ := p.step_returns buf
  cases h.symm.trans hstep
  exact hcase

/-- **More input changes no step** that does not ask for it. -/
theorem step_append (h : p.step buf = .ok (s, p')) (hs : s ≠ .needMore) (d : Bytes) :
    p.step (buf ++ d) = .ok (s, p') := by
  rw [step, decodeInitialPacket_eq] at h ⊢
  rw [initialDecision_append (fun t hneed => hs ?_) d]
  · exact h
  · rw [hneed] at h
    cases h
    rfl

namespace StepCase

/-- A decoder asks for more while the packet is incomplete, and stays as it is. -/
theorem of_needMore (h : StepCase p buf s p') (hs : s = .needMore) :
    p' = p ∧ ∃ t, initialDecision buf p.limits.packet = .ok (.needMore t) := by
  cases h with
  | needMore t h => exact ⟨rfl, t, h⟩
  | accepted => exact absurd hs (classifyInitial_cases _ _).1
  | _ => cases hs

/-- What is consumed is in the buffer. -/
theorem consumed_le (h : StepCase p buf s p') : s.consumed ≤ buf.length := by
  cases h with
  | accepted _ hcomplete =>
    exact Nat.le_trans (classifyInitial_cases _ _).2.1 (initialDecision_complete hcomplete).2.1
  | _ => exact Nat.zero_le _

/-- Something is consumed with a message that is skipped. -/
theorem skipped_pos {message : SkippedMessage} {n : Nat} (h : StepCase p buf s p')
    (hs : s = .skipped message n) : 1 ≤ n := by
  cases h with
  | accepted packet hcomplete =>
    have hmin : 16 ≤ packet.totalLen := (initialDecision_complete hcomplete).1
    rw [classifyInitial_skipped hs]
    omega
  | _ => cases hs

/-- No step reports an overflow of the input. -/
theorem ne_inputOverflow (h : StepCase p buf s p') (e : InputOverflow) :
    s ≠ .error (.inputOverflow e) := by
  cases h with
  | accepted => exact (classifyInitial_cases _ _).2.2 e
  | _ => nofun

theorem limits_eq (h : StepCase p buf s p') : p'.limits = p.limits := by
  cases h <;> rfl

end StepCase

end InitialPackets

end Tatami.Tcp
