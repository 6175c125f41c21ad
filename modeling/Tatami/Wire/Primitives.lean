import Tatami.Lib.Cursor
import Tatami.Wire.NameList

/-! # Reader and writer for the SSH primitive types

The checked cursors of RFC 4251 §5. A `Reader` and a `Writer` carry the fact that their position is
inside the buffer, so that every slice the source takes is in bounds by construction and no position
arithmetic can leave the range of a slice length.

* `Reader.Advances r b r'` says that `r'` is `r` moved over exactly the bytes `b`. Each read is
  inverted by an `_ok_iff` lemma in these terms, which also runs it.
* `Writer.Produces x b` says that the encoder `x` succeeds whenever `b` fits and appends exactly
  `b`. -/

namespace Tatami.Wire

open List

/-! ### Reader -/

/-- Borrowed cursor over an already delimited payload. -/
structure Reader where
  input : Bytes
  pos : Nat
  pos_le : pos ≤ input.length

/-- A decoder of a value from a reader. -/
abbrev Decoder (ε α : Type) := Cursor Reader ε α

variable {b : Bytes} {r r' : Reader}

namespace Reader

/-- A reader at the start of `input`. -/
def new (input : Bytes) : Reader := ⟨input, 0, Nat.zero_le _⟩

/-- Bytes not yet consumed. -/
def remaining (r : Reader) : Bytes := r.input.drop r.pos

/-- Number of bytes not yet consumed. -/
def remainingLen (r : Reader) : Nat := r.input.length - r.pos

/-- Whether every byte has been consumed. -/
def isEmpty (r : Reader) : Bool := r.pos == r.input.length

/-- The reader moved over the next `n` bytes, which are there. -/
def skip (r : Reader) (n : Nat) (h : n ≤ r.remainingLen) : Reader :=
  ⟨r.input, r.pos + n, by have := r.pos_le; unfold remainingLen at h; omega⟩

/-- The slice `input[pos..pos + n]` of bytes that are there. -/
def peek (r : Reader) (n : Nat) (h : n ≤ r.remainingLen) : ByteVec n :=
  ⟨(r.input.take (r.pos + n)).drop r.pos, by
    have := r.pos_le
    unfold remainingLen at h
    simp only [length_drop, length_take]
    omega⟩

/-- Consumes exactly `n` bytes. -/
def readBytes (n : Nat) : Decoder DecodeError (ByteVec n) := fun r =>
  if h : n ≤ r.remainingLen then (.ok (r.peek n h), r.skip n h)
  else (.error (.truncated n r.remainingLen), r)

/-- Reads a `byte`. -/
def readU8 : Decoder DecodeError UInt8 := do
  let b ← readBytes 1
  pure (b.toBytes.get ⟨0, by simp⟩)

/-- Reads a `boolean`; any nonzero value is `true`. -/
def readBool : Decoder DecodeError Bool := do
  let b ← readU8
  pure (b != 0)

/-- Reads a network-order `uint32`. -/
def readU32 : Decoder DecodeError UInt32 := do
  let b ← readBytes 4
  pure (UInt32.ofNat (beNat b.toBytes))

/-- Reads a `string`: a `uint32` length and that many bytes. On failure the cursor goes back to
where the length began. A `uint32` always fits the 64-bit `usize`. -/
def readString : Decoder DecodeError Bytes := fun r =>
  match readU32 r with
  | (.error e, r₁) => (.error e, r₁)
  | (.ok len, r₁) =>
    if h : len.toNat ≤ r₁.remainingLen then
      (.ok (r₁.peek len.toNat h).toBytes, r₁.skip len.toNat h)
    else (.error (.lengthOverflow len r₁.remainingLen), r)

/-- Reads a `name-list`; on a malformed body the cursor goes back to the start. -/
def readNameList : Decoder DecodeError NameList := fun r =>
  match readString r with
  | (.error e, r₁) => (.error e, r₁)
  | (.ok body, r₁) =>
    match NameList.parse body with
    | .ok list => (.ok list, r₁)
    | .error e => (.error (.invalidEncoding e), r)

/-- Bytes left over after a whole message. -/
structure TrailingBytes where
  count : Nat
  deriving DecidableEq, Repr

/-- Fails unless the input is fully consumed. -/
def finish (r : Reader) : Except TrailingBytes Unit :=
  if r.isEmpty then .ok () else .error ⟨r.remainingLen⟩

/-! ### What a successful read says -/

/-- `r'` is `r` moved over exactly the bytes `b`. -/
def Advances (r : Reader) (b : Bytes) (r' : Reader) : Prop :=
  r'.input = r.input ∧ r.remaining = b ++ r'.remaining

/-- The number of remaining bytes is `remainingLen`. -/
@[simp] theorem length_remaining (r : Reader) : r.remaining.length = r.remainingLen := by
  simp [remaining, remainingLen]

/-- A fresh reader has everything before it. -/
@[simp] theorem remaining_new (input : Bytes) : (new input).remaining = input := rfl

/-- Readers over one input that have the same bytes left are equal. -/
theorem eq_of_remaining_eq (hi : r'.input = r.input) (hr : r'.remaining = r.remaining) :
    r' = r := by
  obtain ⟨_, pos, hpos⟩ := r
  obtain ⟨_, pos', hpos'⟩ := r'
  simp only at hi
  subst hi
  have hlen := congrArg List.length hr
  simp only [remaining, length_drop] at hlen
  have : pos' = pos := by omega
  subst this
  rfl

/-- What is next and what is left after it. -/
theorem remaining_eq_peek_append (r : Reader) (n : Nat) (h : n ≤ r.remainingLen) :
    r.remaining = (r.peek n h).toBytes ++ (r.skip n h).remaining := by
  have hpeek : (r.peek n h).toBytes = (r.input.drop r.pos).take n := by
    show (r.input.take (r.pos + n)).drop r.pos = _
    rw [drop_take, Nat.add_sub_cancel_left]
  have hskip : (r.skip n h).remaining = (r.input.drop r.pos).drop n := by
    show r.input.drop (r.pos + n) = _
    rw [drop_drop]
  rw [hpeek, hskip, take_append_drop]
  rfl

theorem advances_skip (r : Reader) (n : Nat) (h : n ≤ r.remainingLen) :
    r.Advances (r.peek n h).toBytes (r.skip n h) :=
  ⟨rfl, r.remaining_eq_peek_append n h⟩

/-- Where a reader gets to is determined by the number of bytes it moved over. -/
theorem Advances.eq_skip {n : Nat} (h : r.Advances b r') (hn : b.length = n) :
    ∃ hb : n ≤ r.remainingLen, (r.peek n hb).toBytes = b ∧ r' = r.skip n hb := by
  obtain ⟨hi, hr⟩ := h
  have hlen := congrArg List.length hr
  simp only [length_remaining, length_append] at hlen
  refine ⟨by omega, ?_⟩
  have hsplit := r.remaining_eq_peek_append n (by omega)
  rw [hr] at hsplit
  obtain ⟨hfst, hsnd⟩ := append_inj hsplit (by simp [hn])
  exact ⟨hfst.symm, eq_of_remaining_eq hi hsnd⟩

/-- A reader that advances over some bytes and then over others advances over both. -/
theorem Advances.trans {r₁ r₂ : Reader} {a : Bytes} (h₁ : r.Advances a r₁) (h₂ : r₁.Advances b r₂) :
    r.Advances (a ++ b) r₂ := by
  refine ⟨h₂.1.trans h₁.1, ?_⟩
  rw [h₁.2, h₂.2, append_assoc]

/-- A move over two parts goes through a reader between them. -/
theorem Advances.split {r₂ : Reader} {a : Bytes} (h : r.Advances (a ++ b) r₂) :
    ∃ r₁, r.Advances a r₁ ∧ r₁.Advances b r₂ := by
  obtain ⟨hi, hr⟩ := h
  have hlen := congrArg List.length hr
  simp only [length_remaining, length_append] at hlen
  have hsplit := r.remaining_eq_peek_append a.length (by omega)
  rw [hr, append_assoc] at hsplit
  obtain ⟨hfst, hsnd⟩ := append_inj hsplit (by simp)
  refine ⟨r.skip a.length (by omega), ⟨rfl, ?_⟩, ⟨hi, hsnd.symm⟩⟩
  rw [hr, append_assoc, hsnd]

/-- A fresh reader can be moved over all of its input. -/
theorem exists_advances_all (input : Bytes) :
    ∃ r, (new input).Advances input r ∧ r.remaining = [] := by
  refine ⟨⟨input, input.length, le_rfl⟩, ⟨rfl, ?_⟩, drop_length⟩
  show input = input ++ input.drop input.length
  rw [drop_length, append_nil]

/-- `readBytes` succeeds exactly on the bytes that are next. -/
theorem readBytes_ok_iff {n : Nat} {v : ByteVec n} :
    readBytes n r = (.ok v, r') ↔ r.Advances v.toBytes r' := by
  unfold readBytes
  constructor
  · intro h
    split at h
    · cases h
      exact r.advances_skip n _
    · cases h
  · intro h
    obtain ⟨hfit, hpeek, rfl⟩ := h.eq_skip v.length_toBytes
    rw [dif_pos hfit, ByteVec.ext hpeek]

theorem readU8_ok_iff {b : UInt8} : readU8 r = (.ok b, r') ↔ r.Advances [b] r' := by
  unfold readU8
  rw [Cursor.bind_ok_iff]
  constructor
  · rintro ⟨v, _, hv, hb⟩
    rw [Cursor.pure_ok_iff] at hb
    obtain ⟨rfl, rfl⟩ := hb
    have hone : v.toBytes = [v.toBytes.get ⟨0, by simp⟩] := by
      obtain ⟨l, hl⟩ := v
      match l, hl with
      | [x], _ => rfl
    rw [← hone]
    exact readBytes_ok_iff.mp hv
  · intro h
    exact ⟨⟨[b], rfl⟩, r', readBytes_ok_iff.mpr h, rfl⟩

/-- `readBool` reads one byte of either truth value. -/
theorem readBool_ok_iff {v : Bool} :
    readBool r = (.ok v, r') ↔ ∃ b, r.Advances [b] r' ∧ v = (b != 0) := by
  unfold readBool
  rw [Cursor.bind_ok_iff]
  simp only [readU8_ok_iff, Cursor.pure_ok_iff]
  constructor
  · rintro ⟨b, _, hb, rfl, rfl⟩
    exact ⟨b, hb, rfl⟩
  · rintro ⟨b, hb, rfl⟩
    exact ⟨b, r', hb, rfl, rfl⟩

/-- `readU32` reads the four big-endian bytes of its result. -/
theorem readU32_ok_iff {n : UInt32} :
    readU32 r = (.ok n, r') ↔ r.Advances (beBytes 4 n.toNat) r' := by
  rw [readU32, Cursor.bind_ok_iff]
  constructor
  · rintro ⟨v, _, hv, hn⟩
    rw [Cursor.pure_ok_iff] at hn
    obtain ⟨rfl, rfl⟩ := hn
    have hlt := beNat_lt v.toBytes
    have hbytes := beBytes_beNat v.toBytes
    rw [ByteVec.length_toBytes] at hlt hbytes
    rw [UInt32.toNat_ofNat_of_lt' hlt, hbytes]
    exact readBytes_ok_iff.mp hv
  · intro h
    refine ⟨⟨beBytes 4 n.toNat, length_beBytes 4 _⟩, r', readBytes_ok_iff.mpr h, ?_⟩
    rw [Cursor.pure_ok_iff]
    refine ⟨?_, rfl⟩
    change n = UInt32.ofNat (beNat (beBytes 4 n.toNat))
    rw [beNat_beBytes n.toNat_lt, UInt32.ofNat_toNat]

theorem readString_ok_iff :
    readString r = (.ok b, r') ↔ b.length < 2 ^ 32 ∧ r.Advances (lengthPrefixed b) r' := by
  unfold readString lengthPrefixed
  constructor
  · intro h
    split at h
    · cases h
    · rename_i len r₁ hlen
      split at h
      · rename_i hfit
        cases h
        have hadv := readU32_ok_iff.mp hlen
        rw [ByteVec.length_toBytes]
        exact ⟨len.toNat_lt, hadv.trans (r₁.advances_skip len.toNat hfit)⟩
      · cases h
  · rintro ⟨hlt, h⟩
    obtain ⟨r₁, h₁, h₂⟩ := h.split
    have hlen : (UInt32.ofNat b.length).toNat = b.length := UInt32.toNat_ofNat_of_lt' hlt
    rw [← hlen] at h₁
    rw [readU32_ok_iff.mpr h₁]
    obtain ⟨hfit, hpeek, rfl⟩ := h₂.eq_skip hlen.symm
    simp only
    rw [dif_pos hfit, hpeek]

/-- `readNameList` reads a length-prefixed body that passes the check. -/
theorem readNameList_ok_iff {l : NameList} :
    readNameList r = (.ok l, r') ↔
      l.body.length < 2 ^ 32 ∧ r.Advances (lengthPrefixed l.body) r' := by
  rw [← readString_ok_iff]
  unfold readNameList
  constructor
  · intro h
    split at h
    · cases h
    · rename_i body r₁ hbody
      split at h
      · rename_i list hlist
        cases h
        rw [NameList.parse_ok_iff.mp hlist]
        exact hbody
      · cases h
  · intro h
    rw [h]
    simp only
    rw [NameList.parse_ok_iff.mpr rfl]

theorem finish_ok_iff : r.finish = .ok () ↔ r.remaining = [] := by
  have := r.pos_le
  unfold finish isEmpty remaining
  rw [drop_eq_nil_iff]
  by_cases h : r.pos = r.input.length
  · simp [h]
  · simp only [beq_iff_eq, h, if_false, reduceCtorEq, false_iff]
    omega

end Reader

/-! ### Multiple-precision integers -/

/-- `mpint`: the two's-complement bytes exactly as received. -/
structure Mpint where
  bytes : Bytes
  deriving DecidableEq, Repr

/-- Reads an `mpint` without any check of its form. -/
def Reader.readMpint : Decoder DecodeError Mpint := do
  let bytes ← Reader.readString
  pure ⟨bytes⟩

/-- The bytes after all leading zeros. -/
def stripLeadingZeros (bytes : Bytes) : Bytes := bytes.dropWhile (· == 0)

/-- Whether the top bit of a byte is set. -/
def highBit (b : UInt8) : Bool := b &&& 0x80 != 0

namespace Mpint

/-- The empty encoding, which is zero. -/
def isZero (m : Mpint) : Bool := m.bytes.isEmpty

/-- Whether the sign bit is set. -/
def isNegative (m : Mpint) : Bool :=
  match m.bytes with
  | b :: _ => highBit b
  | [] => false

/-- Whether the encoding is the minimal one. -/
def isCanonical (m : Mpint) : Bool :=
  match m.bytes with
  | [] => true
  | [b] => b != 0
  | b :: next :: _ =>
    if b = 0 then highBit next else if b = 0xff then !highBit next else true

/-- The magnitude of a non-negative value, without leading zeros. -/
def positiveMagnitude (m : Mpint) : Option Bytes :=
  if m.isNegative then none else some (stripLeadingZeros m.bytes)

end Mpint

/-- The body of the `mpint` of a magnitude: no leading zeros, and one zero byte when the top bit
would read as a sign. -/
def mpintPositiveBody (magnitude : Bytes) : Bytes :=
  match stripLeadingZeros magnitude with
  | [] => []
  | b :: rest => if highBit b then 0 :: b :: rest else b :: rest

/-- Encoded length, with the length prefix, of the positive `mpint` of a magnitude. -/
def mpintPositiveLen (magnitude : Bytes) : Nat :=
  match stripLeadingZeros magnitude with
  | [] => 4
  | b :: rest => 4 + (b :: rest).length + (if highBit b then 1 else 0)

/-- The announced length is the length of the body and its prefix. -/
theorem mpintPositiveLen_eq (magnitude : Bytes) :
    mpintPositiveLen magnitude = (lengthPrefixed (mpintPositiveBody magnitude)).length := by
  rw [length_lengthPrefixed, mpintPositiveLen, mpintPositiveBody]
  split
  · rfl
  · split
    · simp only [length_cons]
      omega
    · rfl

/-- The first byte after the leading zeros is not zero. -/
theorem head_stripLeadingZeros_ne_zero {m rest : Bytes} {b : UInt8}
    (h : stripLeadingZeros m = b :: rest) : b ≠ 0 := by
  have hhead := List.head?_dropWhile_not (· == (0 : UInt8)) m
  rw [show m.dropWhile (· == 0) = b :: rest from h] at hhead
  simpa using hhead

theorem stripLeadingZeros_cons_of_ne_zero {b : UInt8} (hb : b ≠ 0) (rest : Bytes) :
    stripLeadingZeros (b :: rest) = b :: rest := by
  rw [stripLeadingZeros, dropWhile_cons_of_neg (by simpa using hb)]

theorem stripLeadingZeros_zero_cons (m : Bytes) :
    stripLeadingZeros (0 :: m) = stripLeadingZeros m :=
  dropWhile_cons_of_pos rfl

/-- The magnitude, up to leading zeros, can be read off the body. -/
theorem stripLeadingZeros_mpintPositiveBody (m : Bytes) :
    stripLeadingZeros (mpintPositiveBody m) = stripLeadingZeros m := by
  rw [mpintPositiveBody]
  cases h : stripLeadingZeros m with
  | nil => rfl
  | cons b rest =>
    have hb := head_stripLeadingZeros_ne_zero h
    simp only
    split
    · rw [stripLeadingZeros_zero_cons]
      exact stripLeadingZeros_cons_of_ne_zero hb rest
    · exact stripLeadingZeros_cons_of_ne_zero hb rest

/-- A magnitude is its zeros followed by the rest. -/
theorem replicate_append_stripLeadingZeros (m : Bytes) :
    List.replicate (m.length - (stripLeadingZeros m).length) 0 ++ stripLeadingZeros m = m := by
  induction m with
  | nil => rfl
  | cons b rest ih =>
    by_cases hb : b = 0
    · subst hb
      have hstrip := stripLeadingZeros_zero_cons rest
      have hle : (stripLeadingZeros rest).length ≤ rest.length :=
        (dropWhile_sublist _).length_le
      rw [hstrip, length_cons, Nat.succ_sub hle, replicate_succ, cons_append, ih]
    · rw [stripLeadingZeros_cons_of_ne_zero hb, Nat.sub_self]
      rfl

/-- **Fixed-width magnitudes are determined by their `mpint`.** -/
theorem mpintPositiveBody_inj {m m' : Bytes} (hlen : m.length = m'.length)
    (h : mpintPositiveBody m = mpintPositiveBody m') : m = m' := by
  have hstrip : stripLeadingZeros m = stripLeadingZeros m' := by
    rw [← stripLeadingZeros_mpintPositiveBody m, h, stripLeadingZeros_mpintPositiveBody]
  rw [← replicate_append_stripLeadingZeros m, ← replicate_append_stripLeadingZeros m', hstrip, hlen]

/-- A body is at most one byte longer than its magnitude. -/
theorem length_mpintPositiveBody_le (m : Bytes) : (mpintPositiveBody m).length ≤ m.length + 1 := by
  have hle : (stripLeadingZeros m).length ≤ m.length := (dropWhile_sublist _).length_le
  rw [mpintPositiveBody]
  split
  · exact Nat.zero_le _
  · rename_i h
    rw [h, length_cons] at hle
    split
    · simp only [length_cons]
      omega
    · simp only [length_cons]
      omega

/-! ### Writer -/

/-- Cursor that encodes into a buffer of the caller. -/
structure Writer where
  out : Bytes
  pos : Nat
  pos_le : pos ≤ out.length

/-- An encoder of a value through a writer. -/
abbrev Encoder (α : Type) := Cursor Writer EncodeError α

namespace Writer

/-- A writer at the start of `out`. -/
def new (out : Bytes) : Writer := ⟨out, 0, Nat.zero_le _⟩

/-- Bytes still available. -/
def capacityRemaining (w : Writer) : Nat := w.out.length - w.pos

/-- The bytes written so far. -/
def written (w : Writer) : Bytes := w.out.take w.pos

/-- Fails unless `needed` bytes are available. -/
def reserve (w : Writer) (needed : Nat) : Except EncodeError Unit :=
  if w.capacityRemaining < needed then
    .error (.insufficientCapacity needed w.capacityRemaining)
  else .ok ()

/-- The writer after copying `bytes` into the buffer, where they fit. -/
def push (w : Writer) (bytes : Bytes) (_h : bytes.length ≤ w.capacityRemaining) : Writer :=
  ⟨w.out.take w.pos ++ bytes ++ w.out.drop (w.pos + bytes.length), w.pos + bytes.length, by
    have := w.pos_le
    simp only [length_append, length_take]
    omega⟩

/-- Writes raw bytes. -/
def writeBytes (bytes : Bytes) : Encoder Unit := fun w =>
  if h : bytes.length ≤ w.capacityRemaining then (.ok (), w.push bytes h)
  else (.error (.insufficientCapacity bytes.length w.capacityRemaining), w)

/-- Writes a `byte`. -/
def writeU8 (v : UInt8) : Encoder Unit := writeBytes [v]

/-- Writes a `boolean` as exactly zero or one. -/
def writeBool (v : Bool) : Encoder Unit := writeU8 (if v then 1 else 0)

/-- Writes a network-order `uint32`. -/
def writeU32 (v : UInt32) : Encoder Unit := writeBytes (beBytes 4 v.toNat)

/-- Writes a body behind its `uint32` length: the part common to `write_string`,
`write_mpint_positive` and `write_name_list`. Room for both is reserved first, so neither of the two
writes can fail and their results are dropped. -/
def writePrefixed (body : Bytes) : Encoder Unit := fun w =>
  if body.length < 2 ^ 32 then
    match w.reserve (4 + body.length) with
    | .error e => (.error e, w)
    | .ok () =>
      let w₁ := (writeU32 (UInt32.ofNat body.length) w).2
      (.ok (), (writeBytes body w₁).2)
  else (.error (.lengthOverflow body.length), w)

/-- Writes a `string`. -/
def writeString (bytes : Bytes) : Encoder Unit := writePrefixed bytes

/-- Writes a magnitude as a positive `mpint`. -/
def writeMpintPositive (magnitude : Bytes) : Encoder Unit :=
  writePrefixed (mpintPositiveBody magnitude)

/-- Writes a `name-list`, checking each name first. -/
def writeNameList (names : List Bytes) : Encoder Unit := fun w =>
  match names.findIdx? (fun name => !isValidName name) with
  | some index => (.error (.invalidName index), w)
  | none => writePrefixed (joinNames names) w

/-- Runs an encoder over `out` and returns how many bytes it wrote, beside the buffer: the shape of
every `encode(&self, out)`. -/
def run (x : Encoder Unit) (out : Bytes) : Except EncodeError Nat × Bytes :=
  match x (new out) with
  | (.ok (), w) => (.ok w.pos, w.out)
  | (.error e, w) => (.error e, w.out)

/-! ### What an encoder produces -/

/-- `x` appends exactly `bytes` whenever they fit, and keeps the size of the buffer. -/
def Produces (x : Encoder Unit) (bytes : Bytes) : Prop :=
  ∀ w : Writer, bytes.length ≤ w.capacityRemaining →
    ∃ w', x w = (.ok (), w') ∧ w'.written = w.written ++ bytes ∧ w'.pos = w.pos + bytes.length ∧
      w'.out.length = w.out.length

theorem produces_writeBytes (bytes : Bytes) : Produces (writeBytes bytes) bytes := by
  intro w h
  have hpos := w.pos_le
  refine ⟨w.push bytes h, dif_pos h, ?_, rfl, ?_⟩
  · show List.take (w.pos + bytes.length)
      (w.out.take w.pos ++ bytes ++ w.out.drop (w.pos + bytes.length)) = w.out.take w.pos ++ bytes
    rw [take_append_of_le_length (by simp; omega), take_of_length_le (by simp)]
  · show (w.out.take w.pos ++ bytes ++ w.out.drop (w.pos + bytes.length)).length = _
    unfold capacityRemaining at h
    simp only [length_append, length_take, length_drop]
    omega

/-- Two encoders one after the other produce both parts. -/
theorem Produces.seq {x y : Encoder Unit} {a : Bytes} (hx : Produces x a) (hy : Produces y b) :
    Produces (x >>= fun _ => y) (a ++ b) := by
  intro w h
  simp only [length_append, capacityRemaining] at h
  obtain ⟨w₁, h₁, hw₁, hp₁, hl₁⟩ := hx w (by unfold capacityRemaining; omega)
  obtain ⟨w₂, h₂, hw₂, hp₂, hl₂⟩ := hy w₁ (by unfold capacityRemaining; omega)
  refine ⟨w₂, ?_, ?_, ?_, ?_⟩
  · rw [Cursor.bind_apply_ok h₁, h₂]
  · rw [hw₂, hw₁, append_assoc]
  · rw [hp₂, hp₁, length_append, Nat.add_assoc]
  · rw [hl₂, hl₁]

theorem produces_writePrefixed {body : Bytes} (hlt : body.length < 2 ^ 32) :
    Produces (writePrefixed body) (lengthPrefixed body) := by
  intro w h
  have hlen : (UInt32.ofNat body.length).toNat = body.length := UInt32.toNat_ofNat_of_lt' hlt
  have hboth := (produces_writeBytes (beBytes 4 body.length)).seq (produces_writeBytes body)
  obtain ⟨w', hw', hrest⟩ := hboth w h
  obtain ⟨_, _, h₁, h₂⟩ := Cursor.bind_ok_iff.mp hw'
  refine ⟨w', ?_, hrest⟩
  simp only [length_lengthPrefixed] at h
  unfold writePrefixed reserve writeU32
  rw [if_pos hlt, if_neg (by omega), hlen]
  simp only [h₁, h₂]

/-- Valid names are written joined, behind their length. -/
theorem writeNameList_eq {names : List Bytes} (hvalid : ∀ n ∈ names, isValidName n = true) :
    writeNameList names = writePrefixed (joinNames names) := by
  have hnone : names.findIdx? (fun name => !isValidName name) = none := by
    rw [List.findIdx?_eq_none_iff]
    intro n hn
    simp [hvalid n hn]
  funext w
  unfold writeNameList
  rw [hnone]

/-- `writeNameList` produces the joined names behind their length. -/
theorem produces_writeNameList {names : List Bytes} (hvalid : ∀ n ∈ names, isValidName n = true)
    (hlt : (joinNames names).length < 2 ^ 32) :
    Produces (writeNameList names) (lengthPrefixed (joinNames names)) := by
  rw [writeNameList_eq hvalid]
  exact produces_writePrefixed hlt

/-- Running an encoder over a buffer that is large enough. -/
theorem Produces.run_eq {x : Encoder Unit} {bytes out : Bytes} (hx : Produces x bytes)
    (h : bytes.length ≤ out.length) :
    ∃ out', run x out = (.ok bytes.length, out') ∧ out'.take bytes.length = bytes := by
  obtain ⟨w, hw, hwritten, hpos, -⟩ := hx (new out) h
  refine ⟨w.out, ?_, ?_⟩
  · unfold run
    rw [hw]
    simp [hpos, new]
  · simpa [written, new, hpos] using hwritten

/-- Running an encoder over a zeroed buffer of just the right size fills it. -/
theorem Produces.run_replicate {x : Encoder Unit} {bytes : Bytes} {len : Nat}
    (hx : Produces x bytes)
    (h : len = bytes.length) : (run x (List.replicate len 0)).2 = bytes := by
  have hout : (List.replicate len (0 : UInt8)).length = bytes.length := by
    rw [length_replicate, h]
  obtain ⟨w, hw, hwritten, hpos, hlen⟩ := hx (new (List.replicate len 0)) (Nat.le_of_eq hout.symm)
  have hpos : w.pos = bytes.length := hpos.trans (Nat.zero_add _)
  have hfull : w.out.length ≤ w.pos := by
    rw [hlen, hpos]
    exact Nat.le_of_eq hout
  rw [run, hw]
  exact (take_of_length_le hfull).symm.trans hwritten

end Writer

end Tatami.Wire
