import Tatami.Lib.Checked
import Tatami.Lib.Octets

/-! # Initial binary packets

Framing before the first `NEWKEYS` (RFC 4253 §6): four bytes of `packet_length`, one of
`padding_length`, the payload and the padding, with a block size of eight and no MAC. The decoder
takes every decision it can from the header before it waits for the body; what it decides on a
buffer it decides on every extension (`initialDecision_append`), and it accepts a frame with any
legal padding (`initialDecision_frame`). -/

namespace Tatami.Tcp

open Checked List

/-- Block size of the `none` cipher. -/
def initialBlockSize : Nat := 8
/-- Minimum total packet size. -/
def minTotalLen : Nat := 16
/-- Minimum `padding_length`. -/
def minPadding : Nat := 4
/-- Header bytes needed before the body length is known. -/
def headerLen : Nat := 5

/-- Limits of packet decoding. -/
structure PacketLimits where
  /-- Largest accepted `packet_length`. -/
  maxPacketLength : UInt32
  deriving DecidableEq, Repr

/-- The default cap of 64 KiB. -/
def PacketLimits.default : PacketLimits := ⟨64 * 1024⟩

/-- A complete initial packet. -/
structure InitialPacket where
  payload : Bytes
  padding : Bytes
  /-- Bytes the packet occupied in the input. -/
  totalLen : Nat
  deriving DecidableEq, Repr

/-- Result of one look at the buffer. -/
inductive PacketStep where
  | needMore (totalLen : Option Nat)
  | complete (packet : InitialPacket)
  deriving DecidableEq, Repr

/-- Why a packet header is refused. -/
inductive PacketError where
  | tooLarge (packetLength limit : UInt32)
  | tooSmall (packetLength : UInt32)
  | misaligned (packetLength : UInt32)
  | badPadding (packetLength : UInt32) (paddingLength : UInt8)
  deriving DecidableEq, Repr

/-- The `packet_length` field at the start of a buffer of at least four bytes. -/
def packetLengthOf (buf : Bytes) : UInt32 := UInt32.ofNat (beNat (buf.take 4))

/-- Attempts to decode one initial packet from the front of `buf`. The sum `packet_length + 4` is
taken in 64 bits and cannot overflow. -/
def decodeInitialPacket (buf : Bytes) (limits : PacketLimits) :
    Checked (Except PacketError PacketStep) :=
  if buf.length < 4 then pure (.ok (.needMore none))
  else
    let packetLength := packetLengthOf buf
    let totalLen := packetLength.toNat + 4
    if limits.maxPacketLength < packetLength then
      pure (.error (.tooLarge packetLength limits.maxPacketLength))
    else if totalLen < minTotalLen then pure (.error (.tooSmall packetLength))
    else if totalLen % initialBlockSize ≠ 0 then pure (.error (.misaligned packetLength))
    else if buf.length < headerLen then pure (.ok (.needMore (some totalLen)))
    else do
      let paddingLength ← index buf 4
      -- `payload_len = packet_length - padding_length - 1`, checked
      if packetLength.toNat < paddingLength.toNat + 1 then
        pure (.error (.badPadding packetLength paddingLength))
      else if paddingLength.toNat < minPadding then
        pure (.error (.badPadding packetLength paddingLength))
      else if buf.length < totalLen then pure (.ok (.needMore (some totalLen)))
      else
        let payloadLen := packetLength.toNat - paddingLength.toNat - 1
        let payload ← slice buf headerLen (headerLen + payloadLen)
        let padding ← slice buf (headerLen + payloadLen) totalLen
        pure (.ok (.complete { payload, padding, totalLen }))

/-! ### One description of what it decides

`initialDecision` is the decoder with its slices taken for granted. The two agree, so the decoder
never panics, and what is proved about decisions is proved on the plain function. -/

/-- What the decoder decides, as a plain function. -/
def initialDecision (buf : Bytes) (limits : PacketLimits) : Except PacketError PacketStep :=
  if buf.length < 4 then .ok (.needMore none)
  else
    let packetLength := packetLengthOf buf
    let totalLen := packetLength.toNat + 4
    let paddingLength := buf.getD 4 0
    if limits.maxPacketLength < packetLength then
      .error (.tooLarge packetLength limits.maxPacketLength)
    else if totalLen < minTotalLen then .error (.tooSmall packetLength)
    else if totalLen % initialBlockSize ≠ 0 then .error (.misaligned packetLength)
    else if buf.length < headerLen then .ok (.needMore (some totalLen))
    else if packetLength.toNat < paddingLength.toNat + 1 then
      .error (.badPadding packetLength paddingLength)
    else if paddingLength.toNat < minPadding then .error (.badPadding packetLength paddingLength)
    else if buf.length < totalLen then .ok (.needMore (some totalLen))
    else
      let payloadLen := packetLength.toNat - paddingLength.toNat - 1
      .ok (.complete
        { payload := (buf.drop headerLen).take payloadLen
          padding := (buf.drop (headerLen + payloadLen)).take paddingLength.toNat
          totalLen })

/-- **The decoder never panics** and decides as described. -/
theorem decodeInitialPacket_eq (buf : Bytes) (limits : PacketLimits) :
    decodeInitialPacket buf limits = .ok (initialDecision buf limits) := by
  rw [decodeInitialPacket, initialDecision]
  split
  · rfl
  simp only
  split
  · rfl
  split
  · rfl
  split
  · rfl
  split
  · rfl
  rename_i hheader
  simp only [headerLen] at hheader
  have hindex : index buf 4 = .ok (buf.getD 4 0) := by
    rw [index_ok (by omega), getD_eq_getElem?_getD,
      List.getElem?_eq_getElem (by omega),
      Option.getD_some]
  rw [hindex, ok_bind]
  split
  · rfl
  rename_i hpad
  split
  · rfl
  split
  · rfl
  rename_i hlen
  rw [slice_add_ok (by simp only [headerLen]; omega), ok_bind]
  have hend : (packetLengthOf buf).toNat + 4 =
      headerLen + ((packetLengthOf buf).toNat - (buf.getD 4 0).toNat - 1) +
        (buf.getD 4 0).toNat := by
    simp only [headerLen]
    omega
  rw [hend, slice_add_ok (by omega)]
  rfl

/-! ### What more input cannot change -/

variable {buf : Bytes} {limits : PacketLimits}

/-- The length field is not touched by what is appended. -/
theorem packetLengthOf_append (h : 4 ≤ buf.length) (d : Bytes) :
    packetLengthOf (buf ++ d) = packetLengthOf buf := by
  rw [packetLengthOf, packetLengthOf, take_append_of_le_length h]

/-- A byte that is there is not touched by what is appended. -/
theorem getD_append_left {i : Nat} (h : i < buf.length) (d : Bytes) :
    (buf ++ d).getD i 0 = buf.getD i 0 := by
  rw [getD_eq_getElem?_getD, getD_eq_getElem?_getD, List.getElem?_append_left h]

/-- A part that is there is not touched by what is appended. -/
theorem take_drop_append_left {i n : Nat} (h : i + n ≤ buf.length) (d : Bytes) :
    ((buf ++ d).drop i).take n = (buf.drop i).take n := by
  rw [drop_append_of_le_length (by omega), take_append_of_le_length]
  rw [length_drop]
  omega

/-- **Chunking does not matter to the packet decoder**: a decision taken on a buffer is taken on
every extension of it. -/
theorem initialDecision_append (h : ∀ t, initialDecision buf limits ≠ .ok (.needMore t))
    (d : Bytes) :
    initialDecision (buf ++ d) limits = initialDecision buf limits := by
  have hlen : (buf ++ d).length = buf.length + d.length := length_append
  have h4 : ¬buf.length < 4 := by
    intro hlt
    apply h none
    rw [initialDecision, if_pos hlt]
  rw [initialDecision, if_neg h4] at h
  rw [initialDecision, initialDecision, if_neg h4, if_neg (by omega),
    packetLengthOf_append (by omega)]
  simp only at h ⊢
  -- each check of the header is the same; the body is complete in both
  split
  · rfl
  rename_i hlarge
  split
  · rfl
  rename_i hsmall
  split
  · rfl
  rename_i halign
  rw [if_neg hlarge, if_neg hsmall, if_neg halign] at h
  have h5 : ¬buf.length < headerLen := by
    intro hlt
    rw [if_pos hlt] at h
    exact h _ rfl
  have hheader : 5 ≤ buf.length := Nat.not_lt.mp h5
  rw [if_neg h5] at h
  rw [if_neg h5, if_neg (by omega), getD_append_left (by omega)]
  split
  · rfl
  rename_i hpad
  split
  · rfl
  rename_i hmin
  rw [if_neg hpad, if_neg hmin] at h
  have htotal : ¬buf.length < (packetLengthOf buf).toNat + 4 := by
    intro hlt
    rw [if_pos hlt] at h
    exact h _ rfl
  rw [if_neg htotal, if_neg (by omega),
    take_drop_append_left (by simp only [headerLen]; omega),
    take_drop_append_left (by simp only [headerLen]; omega)]

/-! ### Accepted packets -/

/-- The four ways a look at the buffer ends, with what is then known of the header. -/
inductive InitialCase (buf : Bytes) (limits : PacketLimits) : Except PacketError PacketStep → Prop
  | short (hlen : buf.length < 4) : InitialCase buf limits (.ok (.needMore none))
  | refused (e : PacketError) : InitialCase buf limits (.error e)
  | waits (hfield : 4 ≤ buf.length)
      (hcap : (packetLengthOf buf).toNat ≤ limits.maxPacketLength.toNat)
      (hlen : buf.length < (packetLengthOf buf).toNat + 4) :
      InitialCase buf limits (.ok (.needMore (some ((packetLengthOf buf).toNat + 4))))
  | complete (hcap : (packetLengthOf buf).toNat ≤ limits.maxPacketLength.toNat)
      (hmin : minTotalLen ≤ (packetLengthOf buf).toNat + 4)
      (hpad : (buf.getD 4 0).toNat + 1 ≤ (packetLengthOf buf).toNat)
      (hlen : (packetLengthOf buf).toNat + 4 ≤ buf.length) :
      InitialCase buf limits (.ok (.complete
        { payload := (buf.drop headerLen).take
            ((packetLengthOf buf).toNat - (buf.getD 4 0).toNat - 1)
          padding := (buf.drop (headerLen +
            ((packetLengthOf buf).toNat - (buf.getD 4 0).toNat - 1))).take (buf.getD 4 0).toNat
          totalLen := (packetLengthOf buf).toNat + 4 }))

/-- Every look ends in one of these ways. -/
theorem initialDecision_case (buf : Bytes) (limits : PacketLimits) :
    InitialCase buf limits (initialDecision buf limits) := by
  have hheader : headerLen = 5 := rfl
  have hleast : minTotalLen = 16 := rfl
  rw [initialDecision]
  split
  · rename_i hshort
    exact .short hshort
  rename_i hfield
  dsimp only
  split
  · exact .refused _
  rename_i hcap
  have hcap' : (packetLengthOf buf).toNat ≤ limits.maxPacketLength.toNat :=
    UInt32.not_lt.mp hcap
  split
  · exact .refused _
  rename_i hmin
  split
  · exact .refused _
  split
  · exact .waits (by omega) hcap' (by omega)
  split
  · exact .refused _
  rename_i hpad
  split
  · exact .refused _
  split
  · rename_i hlen
    exact .waits (by omega) hcap' hlen
  · rename_i hlen
    exact .complete hcap' (by omega) (by omega) (by omega)

/-- A complete packet is in the buffer, takes at least sixteen bytes, and its payload is shorter
than the cap. -/
theorem initialDecision_complete {p : InitialPacket}
    (h : initialDecision buf limits = .ok (.complete p)) :
    minTotalLen ≤ p.totalLen ∧ p.totalLen ≤ buf.length ∧
      p.payload.length < limits.maxPacketLength.toNat := by
  have hcase := initialDecision_case buf limits
  rw [h] at hcase
  cases hcase with
  | complete _ hmin _ hlen =>
    refine ⟨hmin, hlen, ?_⟩
    rw [length_take, length_drop]
    omega

/-- The size of a complete packet is in the length field. -/
theorem initialDecision_complete_totalLen {p : InitialPacket}
    (h : initialDecision buf limits = .ok (.complete p)) :
    p.totalLen = (packetLengthOf buf).toNat + 4 := by
  have hcase := initialDecision_case buf limits
  rw [h] at hcase
  cases hcase with
  | complete => rfl

/-- A packet that is waited for is within the cap. -/
theorem initialDecision_needMore {t : Option Nat}
    (h : initialDecision buf limits = .ok (.needMore t)) :
    buf.length < limits.maxPacketLength.toNat + headerLen := by
  have hheader : headerLen = 5 := rfl
  have hcase := initialDecision_case buf limits
  rw [h] at hcase
  cases hcase with
  | short => omega
  | waits => omega

/-- The size the decoder waits for is in the length field. -/
theorem initialDecision_needMore_some {t : Nat}
    (h : initialDecision buf limits = .ok (.needMore (some t))) :
    4 ≤ buf.length ∧ t = (packetLengthOf buf).toNat + 4 := by
  have hcase := initialDecision_case buf limits
  rw [h] at hcase
  cases hcase with
  | waits hfield => exact ⟨hfield, rfl⟩

/-! ### Frames -/

/-- A payload and its padding in a frame. -/
def initialFrame (payload padding : Bytes) : Bytes :=
  beBytes 4 (1 + payload.length + padding.length) ++
    (UInt8.ofNat padding.length :: (payload ++ padding))

/-- What RFC 4253 §6 and the cap ask of a payload and its padding. -/
structure LegalFrame (limits : PacketLimits) (payload padding : Bytes) : Prop where
  minPadding_le : minPadding ≤ padding.length
  padding_lt : padding.length < 256
  aligned : (headerLen + payload.length + padding.length) % initialBlockSize = 0
  minTotal_le : minTotalLen ≤ headerLen + payload.length + padding.length
  within_cap : 1 + payload.length + padding.length ≤ limits.maxPacketLength.toNat

@[simp] theorem length_initialFrame (payload padding : Bytes) :
    (initialFrame payload padding).length = headerLen + payload.length + padding.length := by
  simp only [initialFrame, length_append, length_beBytes, length_cons, headerLen]
  omega

/-- **A legal frame is accepted**, with whatever follows it left alone. -/
theorem initialDecision_frame {payload padding : Bytes} (h : LegalFrame limits payload padding)
    (rest : Bytes) :
    initialDecision (initialFrame payload padding ++ rest) limits =
      .ok (.complete
        { payload, padding, totalLen := headerLen + payload.length + padding.length }) := by
  obtain ⟨hmin, hpad, halign, htotal, hcap⟩ := h
  have hcap32 := limits.maxPacketLength.toNat_lt
  have hlen : (initialFrame payload padding ++ rest).length =
      headerLen + payload.length + padding.length + rest.length := by
    rw [length_append, length_initialFrame]
  -- the fields of the header
  have hfield : packetLengthOf (initialFrame payload padding ++ rest) =
      UInt32.ofNat (1 + payload.length + padding.length) := by
    rw [packetLengthOf, initialFrame, append_assoc,
      take_left' (length_beBytes 4 _), beNat_beBytes (by omega)]
  have hvalue : (UInt32.ofNat (1 + payload.length + padding.length)).toNat =
      1 + payload.length + padding.length :=
    UInt32.toNat_ofNat_of_lt' (Nat.lt_of_le_of_lt hcap hcap32)
  have hpadByte : (initialFrame payload padding ++ rest).getD 4 0 =
      UInt8.ofNat padding.length := by
    rw [initialFrame, append_assoc, getD_eq_getElem?_getD,
      List.getElem?_append_right (by simp)]
    simp
  have hpadValue : (UInt8.ofNat padding.length).toNat = padding.length := by
    rw [UInt8.toNat_ofNat', Nat.mod_eq_of_lt hpad]
  -- where the payload and the padding lie
  have hhead : (beBytes 4 (1 + payload.length + padding.length) ++
      [UInt8.ofNat padding.length]).length = headerLen := by simp [headerLen]
  have hshape : initialFrame payload padding ++ rest =
      (beBytes 4 (1 + payload.length + padding.length) ++ [UInt8.ofNat padding.length]) ++
        (payload ++ (padding ++ rest)) := by simp [initialFrame]
  have hpayload : ((initialFrame payload padding ++ rest).drop headerLen).take payload.length =
      payload := by
    rw [hshape, ← hhead, drop_left, take_left]
  have hpadding : ((initialFrame payload padding ++ rest).drop
      (headerLen + payload.length)).take padding.length = padding := by
    rw [hshape, ← hhead, ← drop_drop, drop_left, drop_left, take_left]
  have hpayloadLen : 1 + payload.length + padding.length - padding.length - 1 =
      payload.length := by omega
  have htotalLen : 1 + payload.length + padding.length + 4 =
      headerLen + payload.length + padding.length := by
    simp only [headerLen]
    omega
  have hheader : headerLen = 5 := rfl
  rw [initialDecision, if_neg (by omega)]
  simp only [hfield, hpadByte, hvalue, hpadValue, hpayloadLen, htotalLen, hpayload, hpadding]
  rw [if_neg (by rw [UInt32.lt_iff_toNat_lt, hvalue]; omega), if_neg (by omega),
    if_neg (by rw [halign]; simp), if_neg (by omega), if_neg (by omega), if_neg (by omega),
    if_neg (by omega)]

/-! ### Sending -/

/-- Why a payload cannot be framed. -/
inductive EncodeInitialError where
  | insufficientCapacity (needed available : Nat)
  | payloadTooLarge
  deriving DecidableEq, Repr

/-- The least padding that aligns a frame and has at least four bytes. -/
def initialPadding (base : Nat) : Nat :=
  let padding := initialBlockSize - base % initialBlockSize
  if padding < minPadding then padding + initialBlockSize else padding

/-- The bytes `encode_initial_packet_with` writes at the start of a buffer of `available` bytes; the
padding comes from `fill`, which is asked once and only when nothing can fail any more. -/
def encodeInitialPacketWith {σ : Type} (payload : Bytes) (available : Nat)
    (fill : (n : Nat) → σ → ByteVec n × σ) (s : σ) : Except EncodeInitialError Bytes × σ :=
  match checkedAdd headerLen payload.length with
  | none => (.error .payloadTooLarge, s)
  | some base =>
    let padding := initialPadding base
    let total := base + padding
    if 2 ^ 32 ≤ total - 4 then (.error .payloadTooLarge, s)
    else if 255 < padding then (.error .payloadTooLarge, s)
    else if available < total then (.error (.insufficientCapacity total available), s)
    else
      let (pad, s') := fill padding s
      (.ok (beBytes 4 (total - 4) ++ (UInt8.ofNat padding :: (payload ++ pad.toBytes))), s')

/-- The padding of a sender is between four and eleven bytes. -/
theorem initialPadding_bounds (base : Nat) :
    minPadding ≤ initialPadding base ∧ initialPadding base < 12 := by
  have hmod := Nat.mod_lt base (show 0 < initialBlockSize by decide)
  have hblock : initialBlockSize = 8 := rfl
  have hleast : minPadding = 4 := rfl
  rw [initialPadding]
  split
  · omega
  · omega

/-- The padding of a sender aligns the frame. -/
theorem initialPadding_aligned (base : Nat) :
    (base + initialPadding base) % initialBlockSize = 0 := by
  have hmod := Nat.mod_lt base (show 0 < initialBlockSize by decide)
  have hdiv := Nat.div_add_mod base initialBlockSize
  have hblock : initialBlockSize = 8 := rfl
  rw [initialPadding]
  split
  · simp only [hblock] at *
    omega
  · simp only [hblock] at *
    omega

/-- A short payload is framed with the least padding. -/
theorem encodeInitialPacketWith_ok {σ : Type} {payload : Bytes} {available : Nat}
    (fill : (n : Nat) → σ → ByteVec n × σ) (s : σ) (hlen : payload.length < 2 ^ 31)
    (hav : headerLen + payload.length + 16 ≤ available) :
    encodeInitialPacketWith payload available fill s =
      (.ok (initialFrame payload
        (fill (initialPadding (headerLen + payload.length)) s).1.toBytes),
        (fill (initialPadding (headerLen + payload.length)) s).2) := by
  obtain ⟨hmin, hmax⟩ := initialPadding_bounds (headerLen + payload.length)
  have hheader : headerLen = 5 := rfl
  have hadd : checkedAdd headerLen payload.length = some (headerLen + payload.length) :=
    checkedAdd_eq_some_iff.mpr ⟨by omega, rfl⟩
  have htotal : headerLen + payload.length + initialPadding (headerLen + payload.length) - 4 =
      1 + payload.length + initialPadding (headerLen + payload.length) := by omega
  rw [encodeInitialPacketWith, hadd]
  simp only [htotal, initialFrame, ByteVec.length_toBytes]
  rw [if_neg (by omega), if_neg (by omega), if_neg (by omega)]

end Tatami.Tcp
