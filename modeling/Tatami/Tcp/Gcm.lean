import Tatami.Tcp.Packet
import Tatami.Tcp.Transcript

/-! # Protected binary packets

`aes128-gcm@openssh.com`: four clear bytes of `packet_length` as associated data, then the encrypted
`padding_length`, payload and padding, then the tag. A direction carries its nonce state: four fixed
bytes and a counter that goes up by one with every packet and never wraps. That the number of
packets is at most the counter is part of the type, so neither can overflow once the counter is
known not to stand at its last value.

`openPacket` is incremental over the caller's buffer and decrypts in place; as with unprotected
packets, what it decides on a buffer it decides on every extension (`openDecision_append`), and
what follows the packet is never touched. -/

namespace Tatami.Tcp

open Checked ByteVec List

/-- Cipher block size, which governs alignment. -/
def blockSize : Nat := 16
/-- Length of the clear length field. -/
def lengthLen : Nat := 4
/-- Smallest accepted `packet_length`. -/
def minPacketLength : UInt32 := 16

/-- Failure of sealing. -/
inductive SealError where
  | payloadTooLarge
  | counterExhausted
  deriving DecidableEq, Repr

/-- Failure of opening; every one is terminal. -/
inductive OpenError where
  | tooLarge (packetLength limit : UInt32)
  | tooSmall (packetLength : UInt32)
  | misaligned (packetLength : UInt32)
  | badPadding (packetLength : UInt32) (paddingLength : UInt8)
  | tagMismatch
  | counterExhausted
  deriving DecidableEq, Repr

/-- Result of one look at the buffer. -/
inductive OpenStep where
  | needMore (totalLen : Option Nat)
  | packet (payload : Bytes) (totalLen : Nat)
  deriving DecidableEq, Repr

/-- One direction of protected traffic. -/
structure AeadDirection where
  key : ByteVec 16
  fixed : ByteVec 4
  counter : Nat
  packets : Nat
  counter_lt : counter < 2 ^ 64
  packets_le : packets ≤ counter
  deriving DecidableEq

namespace AeadDirection

/-- The fixed field of an initial nonce. -/
def fixedOf (iv : ByteVec 12) : ByteVec 4 :=
  ⟨iv.toBytes.take 4, by rw [length_take, length_toBytes]; rfl⟩

/-- The first counter value of an initial nonce. -/
def counterOf (iv : ByteVec 12) : Nat := beNat (iv.toBytes.drop 4)

/-- A first counter value fits its eight bytes. -/
theorem counterOf_lt (iv : ByteVec 12) : counterOf iv < 2 ^ 64 := by
  have hlt := beNat_lt (iv.toBytes.drop 4)
  rw [length_drop, length_toBytes] at hlt
  simpa [counterOf] using hlt

/-- Installs the derived key and initial nonce of one direction. -/
def new (keys : AeadKeys) : AeadDirection where
  key := keys.key
  fixed := fixedOf keys.iv
  counter := counterOf keys.iv
  packets := 0
  counter_lt := counterOf_lt keys.iv
  packets_le := Nat.zero_le _

/-- The nonce made of a fixed field and a counter. -/
def nonceOf (fixed : ByteVec 4) (counter : Nat) : ByteVec 12 :=
  ⟨fixed.toBytes ++ beBytes 8 counter, by
    rw [length_append, length_toBytes, length_beBytes]⟩

/-- The nonce the next packet will use. -/
def nextNonce (a : AeadDirection) : ByteVec 12 := nonceOf a.fixed a.counter

/-- The counter's last value is never used. -/
def counterAvailable (a : AeadDirection) : Bool := a.counter != 2 ^ 64 - 1

/-- The direction after one more packet. -/
def advance (a : AeadDirection) (h : a.counterAvailable = true) : AeadDirection where
  key := a.key
  fixed := a.fixed
  counter := a.counter + 1
  packets := a.packets + 1
  counter_lt := by
    have hlt := a.counter_lt
    have hne : a.counter ≠ 2 ^ 64 - 1 := by simpa [counterAvailable] using h
    omega
  packets_le := Nat.succ_le_succ a.packets_le

variable {a : AeadDirection} {keys : AeadKeys} {buf : Bytes} {n : Nat} {limits : PacketLimits}

/-- An advanced direction is another direction. -/
theorem advance_ne (h : a.counterAvailable = true) : a.advance h ≠ a := by
  intro heq
  have hcounter : a.counter + 1 = a.counter := congrArg AeadDirection.counter heq
  omega

/-! ### Sealing -/

/-- The least padding that aligns a body and has at least four bytes. -/
def paddingFor (unpadded : Nat) : Nat :=
  let padding := blockSize - unpadded % blockSize
  if padding < minPadding then padding + blockSize else padding

/-- What sealing leaves behind: its answer, the direction, the padding source and the output. -/
structure Sealed (σ : Type) where
  result : Except SealError Nat
  aead : AeadDirection
  padding : σ
  out : Bytes

/-- Appends one sealed packet to `out`. When the cipher refuses, the unencrypted packet has already
been appended and stays there. -/
def sealPacket {σ : Type} (C : Crypto) (a : AeadDirection) (payload : Bytes)
    (fill : (n : Nat) → σ → ByteVec n × σ) (s : σ) (out : Bytes) : Sealed σ :=
  if h : a.counterAvailable = true then
    match checkedAdd payload.length 1 with
    | none => ⟨.error .payloadTooLarge, a, s, out⟩
    | some unpadded =>
      let padding := paddingFor unpadded
      match checkedAdd unpadded padding with
      | none => ⟨.error .payloadTooLarge, a, s, out⟩
      | some packetLength =>
        if 2 ^ 32 ≤ packetLength then ⟨.error .payloadTooLarge, a, s, out⟩
        else if 256 ≤ padding then ⟨.error .payloadTooLarge, a, s, out⟩
        else
          let pad := fill padding s
          let aad := beBytes 4 packetLength
          let body := UInt8.ofNat padding :: (payload ++ pad.1.toBytes)
          match C.encrypt a.key a.nextNonce aad body with
          | none => ⟨.error .payloadTooLarge, a, pad.2, out ++ aad ++ body⟩
          | some (sealed, tag) =>
            let packet := aad ++ sealed.toBytes ++ tag.toBytes
            ⟨.ok packet.length, a.advance h, pad.2, out ++ packet⟩
  else ⟨.error .counterExhausted, a, s, out⟩

/-! ### Opening -/

/-- What opening leaves behind: its answer, the direction and the buffer. -/
structure Opened where
  result : Except OpenError OpenStep
  aead : AeadDirection
  buf : Bytes

/-- Examines the front of `buf` for one protected packet and decrypts it in place. A failed tag
check leaves the buffer alone. -/
def openPacket (C : Crypto) (a : AeadDirection) (buf : Bytes) (limits : PacketLimits) :
    Checked Opened :=
  if buf.length < lengthLen then pure ⟨.ok (.needMore none), a, buf⟩
  else
    let packetLength := packetLengthOf buf
    let bodyLen := packetLength.toNat
    let totalLen := lengthLen + bodyLen + tagLen
    if limits.maxPacketLength < packetLength then
      pure ⟨.error (.tooLarge packetLength limits.maxPacketLength), a, buf⟩
    else if packetLength < minPacketLength then pure ⟨.error (.tooSmall packetLength), a, buf⟩
    else if packetLength.toNat % blockSize ≠ 0 then
      pure ⟨.error (.misaligned packetLength), a, buf⟩
    else if buf.length < totalLen then pure ⟨.ok (.needMore (some totalLen)), a, buf⟩
    else if h : a.counterAvailable = true then do
      let aad ← slice buf 0 lengthLen
      let body ← slice buf lengthLen (lengthLen + bodyLen)
      let tagBytes ← slice buf (lengthLen + bodyLen) totalLen
      let tag ← expect "sixteen bytes" (ofBytes? tagLen tagBytes)
      match C.decrypt a.key a.nextNonce aad body tag with
      | none => pure ⟨.error .tagMismatch, a, buf⟩
      | some plain =>
        let a' := a.advance h
        let buf' := aad ++ plain.toBytes ++ buf.drop (lengthLen + bodyLen)
        let paddingLength ← index plain.toBytes 0
        if bodyLen < 1 + paddingLength.toNat || paddingLength.toNat < minPadding then
          pure ⟨.error (.badPadding packetLength paddingLength), a', buf'⟩
        else
          let payloadLen := bodyLen - 1 - paddingLength.toNat
          let payload ← slice plain.toBytes 1 (1 + payloadLen)
          pure ⟨.ok (.packet payload totalLen), a', buf'⟩
    else pure ⟨.error .counterExhausted, a, buf⟩

/-- The body of the packet at the front of a buffer. -/
def bodyOf (buf : Bytes) : Bytes := (buf.drop lengthLen).take (packetLengthOf buf).toNat

/-- The tag of the packet at the front of a buffer, zeros standing in for bytes not there. -/
def tagOf (buf : Bytes) : ByteVec tagLen :=
  ⟨(((buf.drop (lengthLen + (packetLengthOf buf).toNat)) ++ List.replicate tagLen 0).take tagLen),
    by simp⟩

/-- The decryption of the packet at the front of a buffer. -/
def decryptFront (C : Crypto) (a : AeadDirection) (buf : Bytes) : Option Bytes :=
  (C.decrypt a.key a.nextNonce (buf.take lengthLen) (bodyOf buf) (tagOf buf)).map (·.toBytes)

/-- What opening decides, as a plain function: `openPacket` with its slices taken for granted. -/
def openDecision (C : Crypto) (a : AeadDirection) (buf : Bytes) (limits : PacketLimits) : Opened :=
  if buf.length < lengthLen then ⟨.ok (.needMore none), a, buf⟩
  else
    let packetLength := packetLengthOf buf
    let bodyLen := packetLength.toNat
    let totalLen := lengthLen + bodyLen + tagLen
    if limits.maxPacketLength < packetLength then
      ⟨.error (.tooLarge packetLength limits.maxPacketLength), a, buf⟩
    else if packetLength < minPacketLength then ⟨.error (.tooSmall packetLength), a, buf⟩
    else if packetLength.toNat % blockSize ≠ 0 then ⟨.error (.misaligned packetLength), a, buf⟩
    else if buf.length < totalLen then ⟨.ok (.needMore (some totalLen)), a, buf⟩
    else if h : a.counterAvailable = true then
      match decryptFront C a buf with
      | none => ⟨.error .tagMismatch, a, buf⟩
      | some plain =>
        let buf' := buf.take lengthLen ++ plain ++ buf.drop (lengthLen + bodyLen)
        let paddingLength := plain.getD 0 0
        if bodyLen < 1 + paddingLength.toNat || paddingLength.toNat < minPadding then
          ⟨.error (.badPadding packetLength paddingLength), a.advance h, buf'⟩
        else
          ⟨.ok (.packet ((plain.drop 1).take (bodyLen - 1 - paddingLength.toNat)) totalLen),
            a.advance h, buf'⟩
    else ⟨.error .counterExhausted, a, buf⟩

/-- A decryption has the length of the body it was made from. -/
theorem length_of_decryptFront {C : Crypto} {plain : Bytes}
    (h : decryptFront C a buf = some plain) :
    plain.length = (bodyOf buf).length := by
  rw [decryptFront, Option.map_eq_some_iff] at h
  obtain ⟨v, -, rfl⟩ := h
  exact v.length_toBytes

/-- The body of a packet that is complete. -/
theorem length_bodyOf (h : lengthLen + (packetLengthOf buf).toNat ≤ buf.length) :
    (bodyOf buf).length = (packetLengthOf buf).toNat := by
  rw [bodyOf, length_take, length_drop]
  omega

/-- The tag of a packet that is complete. -/
theorem toBytes_tagOf (h : lengthLen + (packetLengthOf buf).toNat + tagLen ≤ buf.length) :
    (tagOf buf).toBytes = (buf.drop (lengthLen + (packetLengthOf buf).toNat)).take tagLen := by
  show List.take tagLen (_ ++ _) = _
  rw [take_append_of_le_length]
  rw [length_drop]
  omega

/-- **Opening never panics** and decides as described. -/
theorem openPacket_eq (C : Crypto) (a : AeadDirection) (buf : Bytes) (limits : PacketLimits) :
    openPacket C a buf limits = .ok (openDecision C a buf limits) := by
  rw [openPacket, openDecision]
  split
  · rfl
  simp only
  split
  · rfl
  split
  · rfl
  rename_i hmin
  split
  · rfl
  split
  · rfl
  rename_i htotal
  split
  · -- the three slices are there, and they are the parts `decryptFront` reads
    rename_i havail
    have haad : slice buf 0 lengthLen = .ok (buf.take lengthLen) := by
      rw [slice_ok (Nat.zero_le _) (by omega), drop_zero]
    have hbody : slice buf lengthLen (lengthLen + (packetLengthOf buf).toNat) =
        .ok (bodyOf buf) := slice_add_ok (by omega)
    have htag : slice buf (lengthLen + (packetLengthOf buf).toNat)
        (lengthLen + (packetLengthOf buf).toNat + tagLen) = .ok (tagOf buf).toBytes := by
      rw [slice_add_ok (by omega), toBytes_tagOf (by omega)]
    have hvec : ofBytes? tagLen (tagOf buf).toBytes = some (tagOf buf) :=
      ofBytes?_eq_some_iff.mpr rfl
    rw [haad, ok_bind, hbody, ok_bind, htag, ok_bind, hvec,
      expect_some, ok_bind]
    cases hdec : C.decrypt a.key a.nextNonce (buf.take lengthLen) (bodyOf buf) (tagOf buf) with
    | none =>
      rw [decryptFront, hdec]
      rfl
    | some plain =>
      have hlen : plain.toBytes.length = (packetLengthOf buf).toNat := by
        rw [length_toBytes, length_bodyOf (by omega)]
      have hpos : 0 < plain.toBytes.length := by
        have hle : minPacketLength.toNat ≤ (packetLengthOf buf).toNat := UInt32.not_lt.mp hmin
        have : minPacketLength.toNat = 16 := rfl
        omega
      have hindex : index plain.toBytes 0 = .ok (plain.toBytes.getD 0 0) := by
        rw [index_ok hpos, getD_eq_getElem?_getD, List.getElem?_eq_getElem hpos,
          Option.getD_some]
      rw [decryptFront, hdec]
      simp only [Option.map_some]
      rw [hindex, ok_bind]
      split
      · rfl
      · rename_i hpad
        simp only [Bool.or_eq_true, decide_eq_true_eq, not_or, not_lt] at hpad
        rw [slice_add_ok (by omega)]
        rfl
  · rfl

/-! ### What more input cannot change -/

/-- The body is not touched by what is appended. -/
theorem bodyOf_append (h : lengthLen + (packetLengthOf buf).toNat ≤ buf.length) (d : Bytes) :
    bodyOf (buf ++ d) = bodyOf buf := by
  have h4 : 4 ≤ buf.length := by
    have : lengthLen = 4 := rfl
    omega
  rw [bodyOf, bodyOf, packetLengthOf_append h4, take_drop_append_left h]

/-- The tag is not touched by what is appended. -/
theorem tagOf_append (h : lengthLen + (packetLengthOf buf).toNat + tagLen ≤ buf.length)
    (d : Bytes) :
    tagOf (buf ++ d) = tagOf buf := by
  have h4 : 4 ≤ buf.length := by
    have : lengthLen = 4 := rfl
    omega
  apply ext
  rw [toBytes_tagOf h, toBytes_tagOf (by rw [packetLengthOf_append h4, length_append]; omega),
    packetLengthOf_append h4, take_drop_append_left h]

/-- The decryption is not touched by what is appended. -/
theorem decryptFront_append (C : Crypto) (a : AeadDirection)
    (h : lengthLen + (packetLengthOf buf).toNat + tagLen ≤ buf.length) (d : Bytes) :
    decryptFront C a (buf ++ d) = decryptFront C a buf := by
  rw [decryptFront, decryptFront, tagOf_append h, bodyOf_append (by omega),
    take_append_of_le_length (by omega)]

/-- **Chunking does not matter to opening**: a decision taken on a buffer is taken on every
extension of it, and the appended bytes stay where they are. -/
theorem openDecision_append (C : Crypto) (a : AeadDirection)
    (h : ∀ t, (openDecision C a buf limits).result ≠ .ok (.needMore t)) (d : Bytes) :
    openDecision C a (buf ++ d) limits =
      { openDecision C a buf limits with buf := (openDecision C a buf limits).buf ++ d } := by
  have hlen : (buf ++ d).length = buf.length + d.length := length_append
  have h4 : ¬buf.length < lengthLen := by
    intro hlt
    apply h none
    rw [openDecision, if_pos hlt]
  have h4' : 4 ≤ buf.length := Nat.not_lt.mp h4
  rw [openDecision, if_neg h4] at h
  rw [openDecision, openDecision, if_neg h4, if_neg (by omega), packetLengthOf_append h4']
  simp only at h ⊢
  split
  · rfl
  rename_i hlarge
  split
  · rfl
  rename_i hsmall
  split
  · rfl
  rename_i halign
  rw [if_neg hlarge, if_neg hsmall, if_neg halign] at h
  have htotal : ¬buf.length < lengthLen + (packetLengthOf buf).toNat + tagLen := by
    intro hlt
    rw [if_pos hlt] at h
    exact h _ rfl
  rw [if_neg htotal, if_neg (by omega)]
  split
  · rw [decryptFront_append C a (by omega)]
    cases decryptFront C a buf with
    | none => rfl
    | some plain =>
      have hbuf : (buf ++ d).take lengthLen ++ plain ++
          (buf ++ d).drop (lengthLen + (packetLengthOf buf).toNat) =
          buf.take lengthLen ++ plain ++
            buf.drop (lengthLen + (packetLengthOf buf).toNat) ++ d := by
        rw [take_append_of_le_length (by omega), drop_append_of_le_length (by omega),
          append_assoc, append_assoc, append_assoc]
      simp only [hbuf]
      split
      · rfl
      · rfl
  · rfl

/-! ### What opening can answer -/

/-- What opening can answer, and the state it leaves: only a packet whose tag verified advances the
direction, once and when a counter value was left. -/
inductive OpenCase (C : Crypto) (a : AeadDirection) (buf : Bytes) (limits : PacketLimits) :
    Opened → Prop where
  /-- Nothing was decided; nothing changed. The packet that is waited for is within the cap. -/
  | needMore (t : Option Nat)
      (hshort : buf.length < lengthLen + limits.maxPacketLength.toNat + tagLen) :
      OpenCase C a buf limits ⟨.ok (.needMore t), a, buf⟩
  /-- The header, the counter or the tag was refused; nothing changed. -/
  | refused (e : OpenError) (he : ∀ l p, e ≠ .badPadding l p) :
      OpenCase C a buf limits ⟨.error e, a, buf⟩
  /-- The tag verified, the padding inside is malformed. -/
  | badPadding (plain buf' : Bytes) (h : a.counterAvailable = true) (l : UInt32) (p : UInt8)
      (hdec : decryptFront C a buf = some plain) (hbuf : buf'.length = buf.length) :
      OpenCase C a buf limits ⟨.error (.badPadding l p), a.advance h, buf'⟩
  /-- A verified packet. -/
  | packet (plain buf' payload : Bytes) (totalLen : Nat) (h : a.counterAvailable = true)
      (hdec : decryptFront C a buf = some plain) (hpos : 1 ≤ totalLen)
      (hle : totalLen ≤ buf.length) (hbuf : buf'.length = buf.length)
      (hrest : buf'.drop totalLen = buf.drop totalLen) :
      OpenCase C a buf limits ⟨.ok (.packet payload totalLen), a.advance h, buf'⟩

/-- **Inversion of opening.** -/
theorem openDecision_cases (C : Crypto) (a : AeadDirection) (buf : Bytes) (limits : PacketLimits) :
    OpenCase C a buf limits (openDecision C a buf limits) := by
  have htag : tagLen = 16 := rfl
  rw [openDecision]
  split
  · exact .needMore none (by omega)
  simp only
  split
  · exact .refused _ (by simp)
  rename_i hcap
  have hcap' : (packetLengthOf buf).toNat ≤ limits.maxPacketLength.toNat :=
    UInt32.not_lt.mp hcap
  split
  · exact .refused _ (by simp)
  split
  · exact .refused _ (by simp)
  split
  · exact .needMore _ (by omega)
  rename_i htotal
  split
  · rename_i havail
    cases hdec : decryptFront C a buf with
    | none => exact .refused _ (by simp)
    | some plain =>
      have hplain : plain.length = (packetLengthOf buf).toNat := by
        rw [length_of_decryptFront hdec, length_bodyOf (by omega)]
      have htake : (buf.take lengthLen ++ plain).length =
          lengthLen + (packetLengthOf buf).toNat := by
        rw [length_append, length_take, hplain]
        omega
      have hbuf : (buf.take lengthLen ++ plain ++
          buf.drop (lengthLen + (packetLengthOf buf).toNat)).length = buf.length := by
        rw [length_append, htake, length_drop]
        omega
      simp only
      split
      · exact .badPadding plain _ havail _ _ hdec hbuf
      · refine .packet plain _ _ _ havail hdec ?_ (by omega) hbuf ?_
        · have : lengthLen = 4 := rfl
          omega
        · rw [← htake, ← drop_drop, drop_left, htake, drop_drop]
  · exact .refused _ (by simp)

/-- Opening leaves the length of the buffer alone. -/
theorem length_openDecision (C : Crypto) (a : AeadDirection) (buf : Bytes) (limits : PacketLimits) :
    (openDecision C a buf limits).buf.length = buf.length := by
  have hcases := openDecision_cases C a buf limits
  generalize openDecision C a buf limits = opened at hcases
  cases hcases with
  | needMore => rfl
  | refused => rfl
  | badPadding _ _ _ _ _ _ hbuf => exact hbuf
  | packet _ _ _ _ _ _ _ _ hbuf => exact hbuf

/-- An opened packet lies in the buffer. -/
theorem le_of_openDecision {payload : Bytes} {totalLen : Nat}
    (h : (openDecision C a buf limits).result = .ok (.packet payload totalLen)) :
    totalLen ≤ buf.length := by
  have hcases := openDecision_cases C a buf limits
  generalize openDecision C a buf limits = opened at hcases h
  cases hcases with
  | packet _ _ _ _ _ _ _ hle =>
    cases h
    exact hle
  | _ => cases h

/-! ### Accepted packets -/

/-- A packet on the wire: the length of the body, the body and the tag. -/
def sealedFrame (cipher : Bytes) (tag : ByteVec tagLen) : Bytes :=
  beBytes 4 cipher.length ++ cipher ++ tag.toBytes

/-- The size of a packet on the wire. -/
theorem length_sealedFrame (cipher : Bytes) (tag : ByteVec tagLen) :
    (sealedFrame cipher tag).length = lengthLen + cipher.length + tagLen := by
  simp only [sealedFrame, length_append, length_beBytes, length_toBytes, lengthLen]

/-- **A packet whose tag verifies is opened**, with whatever follows it left alone. -/
theorem openDecision_frame {C : Crypto} (havail : a.counterAvailable = true)
    {cipher payload padding : Bytes} {tag : ByteVec tagLen}
    (hcap : cipher.length ≤ limits.maxPacketLength.toNat)
    (hlen : cipher.length = 1 + payload.length + padding.length)
    (halign : cipher.length % blockSize = 0) (hmin : minPadding ≤ padding.length)
    (hpad : padding.length < 256)
    (hplain : (C.decrypt a.key a.nextNonce (beBytes 4 cipher.length) cipher tag).map (·.toBytes) =
      some (UInt8.ofNat padding.length :: (payload ++ padding))) (rest : Bytes) :
    ∃ buf, a.openDecision C (sealedFrame cipher tag ++ rest) limits =
        ⟨.ok (.packet payload (lengthLen + cipher.length + tagLen)), a.advance havail, buf⟩ ∧
      buf.drop (lengthLen + cipher.length + tagLen) = rest := by
  have hlength : lengthLen = 4 := rfl
  have hblock : blockSize = 16 := rfl
  have hleast : minPadding = 4 := rfl
  have hcap32 := limits.maxPacketLength.toNat_lt
  have hfour : (beBytes 4 cipher.length).length = lengthLen := length_beBytes 4 cipher.length
  have hlong : 16 ≤ cipher.length := by
    rw [hblock] at halign
    omega
  have htotal : (sealedFrame cipher tag ++ rest).length =
      lengthLen + cipher.length + tagLen + rest.length := by
    rw [length_append, length_sealedFrame]
  -- the parts of the packet
  have hshape : sealedFrame cipher tag ++ rest =
      beBytes 4 cipher.length ++ (cipher ++ (tag.toBytes ++ rest)) := by
    simp only [sealedFrame, append_assoc]
  have hfield : packetLengthOf (sealedFrame cipher tag ++ rest) = UInt32.ofNat cipher.length := by
    rw [packetLengthOf, hshape, take_left' (length_beBytes 4 _), beNat_beBytes (by omega)]
  have hvalue : (UInt32.ofNat cipher.length).toNat = cipher.length :=
    UInt32.toNat_ofNat_of_lt' (Nat.lt_of_le_of_lt hcap hcap32)
  have haad : (sealedFrame cipher tag ++ rest).take lengthLen = beBytes 4 cipher.length := by
    rw [hshape, take_left' hfour]
  have hbody : bodyOf (sealedFrame cipher tag ++ rest) = cipher := by
    rw [bodyOf, hfield, hvalue, hshape, drop_left' hfour, take_left]
  have hdrop : (sealedFrame cipher tag ++ rest).drop (lengthLen + cipher.length) =
      tag.toBytes ++ rest := by
    rw [hshape, ← drop_drop, drop_left' hfour, drop_left]
  have htag : tagOf (sealedFrame cipher tag ++ rest) = tag := by
    apply ext
    rw [toBytes_tagOf (by rw [hfield, hvalue]; omega), hfield, hvalue, hdrop,
      take_left' tag.length_toBytes]
  have hdec : decryptFront C a (sealedFrame cipher tag ++ rest) =
      some (UInt8.ofNat padding.length :: (payload ++ padding)) := by
    rw [decryptFront, haad, hbody, htag, hplain]
  have hpadValue : (UInt8.ofNat padding.length).toNat = padding.length := by
    rw [UInt8.toNat_ofNat', Nat.mod_eq_of_lt hpad]
  have hpayloadLen : cipher.length - 1 - padding.length = payload.length := by omega
  rw [openDecision, if_neg (by omega)]
  simp only [hfield, hvalue]
  rw [if_neg (by rw [UInt32.lt_iff_toNat_lt, hvalue]; omega),
    if_neg (by rw [UInt32.lt_iff_toNat_lt, hvalue]; exact Nat.not_lt.mpr hlong),
    if_neg (not_not.mpr halign), if_neg (by omega), dif_pos havail, hdec]
  simp only [getD_cons_zero, hpadValue]
  rw [if_neg (by simp only [Bool.or_eq_true, decide_eq_true_eq]; omega), hpayloadLen,
    drop_one, tail_cons, take_left]
  refine ⟨_, rfl, ?_⟩
  rw [haad, hdrop, ← append_assoc]
  refine drop_left' ?_
  simp only [length_append, length_cons, hfour, tag.length_toBytes]
  omega

/-! ### Where a direction is -/

/-- The direction of these keys, after `n` packets. -/
structure At (keys : AeadKeys) (n : Nat) (a : AeadDirection) : Prop where
  key : a.key = keys.key
  fixed : a.fixed = fixedOf keys.iv
  counter : a.counter = counterOf keys.iv + n

/-- A direction starts after no packet. -/
theorem at_new (keys : AeadKeys) : (new keys).At keys 0 := ⟨rfl, rfl, rfl⟩

/-- A direction advances by one packet. -/
theorem At.advance (ha : At keys n a) (h : a.counterAvailable = true) :
    At keys (n + 1) (a.advance h) :=
  ⟨ha.key, ha.fixed, by rw [← Nat.add_assoc, ← ha.counter]; rfl⟩

/-- The nonce under which packet `n` (from zero) of these keys is sealed or opened. -/
def nonceAt (keys : AeadKeys) (n : Nat) : ByteVec 12 :=
  nonceOf (fixedOf keys.iv) (counterOf keys.iv + n)

/-- The next nonce of a direction is that of its next packet. -/
theorem At.nextNonce_eq (ha : At keys n a) : a.nextNonce = nonceAt keys n := by
  rw [nextNonce, nonceAt, ha.fixed, ha.counter]

/-- A direction that has come so far has not wrapped. -/
theorem At.counter_lt (ha : At keys n a) : counterOf keys.iv + n < 2 ^ 64 :=
  ha.counter ▸ a.counter_lt

/-- Different packets have different nonces, as long as the counter does not wrap. -/
theorem nonceAt_inj {m : Nat} (hm : counterOf keys.iv + m < 2 ^ 64)
    (hn : counterOf keys.iv + n < 2 ^ 64) (h : nonceAt keys m = nonceAt keys n) : m = n := by
  have hbytes := congrArg toBytes h
  have hcounters := append_cancel_left hbytes
  have := beBytes_inj (show _ < 256 ^ 8 by omega) (show _ < 256 ^ 8 by omega) hcounters
  omega

/-! ### Exhaustion -/

/-- A direction at its last counter value seals nothing. -/
theorem sealPacket_exhausted {σ : Type} (C : Crypto) (h : a.counterAvailable = false)
    (payload : Bytes) (fill : (n : Nat) → σ → ByteVec n × σ) (s : σ) (out : Bytes) :
    a.sealPacket C payload fill s out = ⟨.error .counterExhausted, a, s, out⟩ := by
  rw [sealPacket, dif_neg (by rw [h]; decide)]

/-- A whole packet of an acceptable size is at the front of the buffer. -/
structure WholePacket (buf : Bytes) (limits : PacketLimits) : Prop where
  header : lengthLen ≤ buf.length
  le_limit : packetLengthOf buf ≤ limits.maxPacketLength
  minimum : minPacketLength ≤ packetLengthOf buf
  aligned : (packetLengthOf buf).toNat % blockSize = 0
  whole : lengthLen + (packetLengthOf buf).toNat + tagLen ≤ buf.length

/-- A direction at its last counter value opens nothing. -/
theorem openDecision_exhausted (C : Crypto) (h : a.counterAvailable = false)
    (hw : WholePacket buf limits) :
    a.openDecision C buf limits = ⟨.error .counterExhausted, a, buf⟩ := by
  rw [openDecision, if_neg (Nat.not_lt.mpr hw.header)]
  simp only
  rw [if_neg (UInt32.not_lt.mpr hw.le_limit), if_neg (UInt32.not_lt.mpr hw.minimum),
    if_neg (not_not.mpr hw.aligned), if_neg (Nat.not_lt.mpr hw.whole), dif_neg (by rw [h]; decide)]

end AeadDirection

end Tatami.Tcp
