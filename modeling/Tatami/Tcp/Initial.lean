import Tatami.Lib.Checked
import Tatami.Wire.Messages

/-! # Pieces shared by the pre-`NEWKEYS` phases

The bounded input buffer, the messages that are reported and skipped, and the text of a message
number. The buffer carries its own bound: it rejects excess input before it copies any of it. -/

namespace Tatami.Tcp

open Tatami.Wire

/-! ### Input buffer -/

/-- Byte buffer with an enforced capacity. -/
structure InputBuffer where
  buf : Bytes
  capacity : Nat
  fits : buf.length ≤ capacity
  deriving DecidableEq

/-- What was offered and did not fit. -/
structure InputOverflow where
  capacity : Nat
  pending : Nat
  offered : Nat
  deriving DecidableEq, Repr

namespace InputBuffer

/-- An empty buffer. -/
def new (capacity : Nat) : InputBuffer := ⟨[], capacity, Nat.zero_le _⟩

/-- Bytes that may still be pushed; the buffer is never over its capacity. -/
def room (b : InputBuffer) : Nat := b.capacity - b.buf.length

/-- Appends `data`, or fails before copying if it would not fit. -/
def push (b : InputBuffer) (data : Bytes) : Except InputOverflow InputBuffer :=
  if h : b.room < data.length then .error ⟨b.capacity, b.buf.length, data.length⟩
  else
    .ok ⟨b.buf ++ data, b.capacity, by
      have := b.fits
      rw [room] at h
      rw [List.length_append]
      omega⟩

/-- Removes the first `n` bytes (`Vec::drain(..n)`). -/
def consume (b : InputBuffer) (n : Nat) : Checked InputBuffer :=
  if n ≤ b.buf.length then
    .ok ⟨b.buf.drop n, b.capacity, by
      have := b.fits
      rw [List.length_drop]
      omega⟩
  else .error .outOfBounds

/-- Discards everything. -/
def clear (b : InputBuffer) : InputBuffer := ⟨[], b.capacity, Nat.zero_le _⟩

/-- Buffers are equal when their contents and capacities are. -/
@[ext] theorem ext {a b : InputBuffer} (hbuf : a.buf = b.buf) (hcap : a.capacity = b.capacity) :
    a = b := by
  cases a
  cases b
  simp_all

/-- A pushed buffer holds the data behind what it held. -/
theorem push_ok_iff {b b' : InputBuffer} {data : Bytes} :
    b.push data = .ok b' ↔
      data.length ≤ b.room ∧ b'.buf = b.buf ++ data ∧ b'.capacity = b.capacity := by
  rw [push]
  constructor
  · intro h
    split at h
    · cases h
    · cases h
      exact ⟨by omega, rfl, rfl⟩
  · rintro ⟨hroom, hbuf, hcap⟩
    rw [dif_neg (by omega), Except.ok.injEq]
    exact InputBuffer.ext hbuf.symm hcap.symm

theorem push_fits {b : InputBuffer} {data : Bytes} (h : data.length ≤ b.room) :
    ∃ b', b.push data = .ok b' :=
  ⟨_, dif_neg (Nat.not_lt.mpr h)⟩

/-- Data that does not fit is refused with the true sizes. -/
theorem push_refused {b : InputBuffer} {data : Bytes} (h : b.room < data.length) :
    b.push data = .error ⟨b.capacity, b.buf.length, data.length⟩ :=
  dif_pos h

theorem consume_ok_iff {b b' : InputBuffer} {n : Nat} :
    b.consume n = .ok b' ↔
      n ≤ b.buf.length ∧ b'.buf = b.buf.drop n ∧ b'.capacity = b.capacity := by
  rw [consume]
  constructor
  · intro h
    split at h
    · rename_i hn
      cases h
      exact ⟨hn, rfl, rfl⟩
    · cases h
  · rintro ⟨hn, hbuf, hcap⟩
    rw [if_pos hn, Except.ok.injEq]
    exact InputBuffer.ext hbuf.symm hcap.symm

/-- Consuming returns when the bytes are there. -/
theorem consume_returns {b : InputBuffer} {n : Nat} (h : n ≤ b.buf.length) :
    ∃ b', b.consume n = .ok b' :=
  ⟨_, if_pos h⟩

end InputBuffer

/-! ### Skipped messages -/

/-- A message that is reported and skipped. -/
inductive SkippedMessage where
  | ignored (dataLen : Nat)
  | debug (alwaysDisplay : Bool) (message languageTag : Bytes)
  | unimplemented (sequenceNumber : UInt32)
  deriving DecidableEq, Repr

/-- A message number with its registered name, for diagnostics. -/
def msgName (number : UInt8) : String :=
  match Msg.name number with
  | some n => n ++ " (" ++ toString number ++ ")"
  | none => "message number " ++ toString number

end Tatami.Tcp
