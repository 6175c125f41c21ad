import Tatami.Tcp.Packet

/-! # Streams of initial packets

`encode_initial_packet_with` writes into a buffer of its caller and `decode_initial_packet` reads
off the front of one. Here both stand in their buffers:

* `encodeInitialPacketInto` — the sender, copy by copy; `encodeInitialPacketInto_eq_with` says that
  it is the sender of `Packet` in a buffer.
* `decodePackets` — the decoder called again and again, dropping each packet.
* `packet_framing` — what is decided of a buffer is decided of its extensions, and a stream of
  frames is decoded to the payloads it was made of. -/

namespace Tatami.Tcp

open Checked List

/-! ### Sending into a buffer -/

/-- The part of `encode_initial_packet_with` that writes: the two fields, the payload and, through
the filler, the padding, whose region is handed over with what stood there. -/
def writeInitialFrame {σ : Type} (payload out : Bytes) (padding : Nat)
    (fill : (region : Bytes) → σ → ByteVec region.length × σ) (s : σ) : Checked (Bytes × σ) := do
  let total := headerLen + payload.length + padding
  let out ← overwrite out 0 (beBytes 4 (total - 4))
  let out ← overwrite out 4 [UInt8.ofNat padding]
  let out ← overwrite out headerLen payload
  let region ← slice out (headerLen + payload.length) total
  let out ← overwrite out (headerLen + payload.length) (fill region s).1.toBytes
  pure (out, (fill region s).2)

/-- `encode_initial_packet_with`: frames a payload at the start of `out`. -/
def encodeInitialPacketInto {σ : Type} (payload out : Bytes)
    (fill : (region : Bytes) → σ → ByteVec region.length × σ) (s : σ) :
    Checked (Except EncodeInitialError Nat × Bytes × σ) :=
  match checkedAdd headerLen payload.length with
  | none => pure (.error .payloadTooLarge, out, s)
  | some base => do
    let padding := initialPadding base
    let total ← addUsize base padding
    if 2 ^ 32 ≤ total - 4 then pure (.error .payloadTooLarge, out, s)
    else if 255 < padding then pure (.error .payloadTooLarge, out, s)
    else if out.length < total then pure (.error (.insufficientCapacity total out.length), out, s)
    else
      let (out, s) ← writeInitialFrame payload out padding fill s
      pure (.ok total, out, s)

/-- The size of the frame a payload is sent in. -/
def framedLen (payload : Bytes) : Nat :=
  headerLen + payload.length + initialPadding (headerLen + payload.length)

section Sending

variable {σ : Type} {payload out : Bytes} {fill : (region : Bytes) → σ → ByteVec region.length × σ}
  {s : σ}

/-- What is written where there is room for it: the frame stands at the start of the buffer, and
what was behind it still is. -/
theorem writeInitialFrame_ok {padding : Nat}
    (fill : (region : Bytes) → σ → ByteVec region.length × σ) (s : σ)
    (hroom : headerLen + payload.length + padding ≤ out.length) :
    ∃ region : Bytes, region.length = padding ∧
      writeInitialFrame payload out padding fill s =
        .ok (initialFrame payload (fill region s).1.toBytes ++
          out.drop (headerLen + payload.length + padding), (fill region s).2) := by
  have hheader : headerLen = 5 := rfl
  have hfield : 1 + payload.length + padding = headerLen + payload.length + padding - 4 := by omega
  have hregion : ((out.drop (headerLen + payload.length)).take padding).length = padding := by
    rw [length_take, length_drop]
    omega
  refine ⟨(out.drop (headerLen + payload.length)).take padding, hregion, ?_⟩
  generalize hpad : (out.drop (headerLen + payload.length)).take padding = region at hregion ⊢
  -- the bytes written so far, one copy after the other
  have hlength := length_beBytes 4 (1 + payload.length + padding)
  have hhead : (beBytes 4 (1 + payload.length + padding) ++
      [UInt8.ofNat padding]).length = headerLen := by
    rw [length_append, hlength]
    rfl
  have hbody : (beBytes 4 (1 + payload.length + padding) ++ [UInt8.ofNat padding] ++
      payload).length = headerLen + payload.length := by
    rw [length_append, hhead]
  have hfirst := overwrite_next (show ([] : Bytes).length = 0 from rfl)
    (show 0 + (beBytes 4 (1 + payload.length + padding)).length ≤ out.length by omega)
  rw [hlength, nil_append, nil_append, drop_zero, Nat.zero_add] at hfirst
  have hsecond := overwrite_next hlength
    (show 4 + [UInt8.ofNat padding].length ≤ out.length by rw [length_singleton]; omega)
  have hthird := overwrite_next hhead
    (show headerLen + payload.length ≤ out.length by omega)
  have hslice : slice (beBytes 4 (1 + payload.length + padding) ++ [UInt8.ofNat padding] ++
      payload ++ out.drop (headerLen + payload.length)) (headerLen + payload.length)
        (headerLen + payload.length + padding) = .ok region := by
    rw [slice_add_ok, drop_left' hbody, hpad]
    rw [length_append, hbody, length_drop]
    omega
  have hfilled : (fill region s).1.toBytes.length = padding := by
    rw [ByteVec.length_toBytes, hregion]
  have hlast := overwrite_next hbody
    (show headerLen + payload.length + (fill region s).1.toBytes.length ≤ out.length by omega)
  rw [hfilled] at hlast
  rw [writeInitialFrame, ← hfield, hfirst, ok_bind, hsecond, ok_bind]
  simp only [length_singleton]
  rw [show 4 + 1 = headerLen from rfl, hthird, ok_bind, hslice, ok_bind, hlast]
  simp [initialFrame, hfilled]

/-- What a payload that fits is framed to. -/
theorem encodeInitialPacketInto_ok (fill : (region : Bytes) → σ → ByteVec region.length × σ)
    (s : σ) (hsize : framedLen payload - 4 < 2 ^ 32) (hroom : framedLen payload ≤ out.length) :
    ∃ region : Bytes, region.length = initialPadding (headerLen + payload.length) ∧
      encodeInitialPacketInto payload out fill s =
        .ok (.ok (framedLen payload), initialFrame payload (fill region s).1.toBytes ++
          out.drop (framedLen payload), (fill region s).2) := by
  obtain ⟨-, hmax⟩ := initialPadding_bounds (headerLen + payload.length)
  obtain ⟨region, hregion, hwrite⟩ := writeInitialFrame_ok fill s hroom
  have hsize' : headerLen + payload.length + initialPadding (headerLen + payload.length) - 4 <
    2 ^ 32 := hsize
  refine ⟨region, hregion, ?_⟩
  rw [encodeInitialPacketInto, checkedAdd_eq_some_iff.mpr ⟨by omega, rfl⟩]
  dsimp only
  rw [addUsize_ok (by omega), ok_bind, if_neg (by omega), if_neg (by omega),
    if_neg (by rw [framedLen] at hroom; omega), hwrite]
  rfl

/-- **A refused payload leaves the buffer alone.** -/
theorem encodeInitialPacketInto_error {e : EncodeInitialError} {out' : Bytes} {s' : σ}
    (h : encodeInitialPacketInto payload out fill s = .ok (.error e, out', s')) :
    out' = out ∧ s' = s := by
  rw [encodeInitialPacketInto] at h
  split at h
  · cases h
    exact ⟨rfl, rfl⟩
  obtain ⟨_, -, h⟩ := bind_ok_iff.mp h
  split at h
  · cases h
    exact ⟨rfl, rfl⟩
  split at h
  · cases h
    exact ⟨rfl, rfl⟩
  split at h
  · cases h
    exact ⟨rfl, rfl⟩
  · obtain ⟨_, -, h⟩ := bind_ok_iff.mp h
    cases h

/-- A payload that was framed had room and fits its length field. -/
theorem encodeInitialPacketInto_sent {total : Nat} {out' : Bytes} {s' : σ}
    (h : encodeInitialPacketInto payload out fill s = .ok (.ok total, out', s')) :
    total = framedLen payload ∧ framedLen payload - 4 < 2 ^ 32 ∧
      framedLen payload ≤ out.length := by
  rw [encodeInitialPacketInto] at h
  split at h
  · cases h
  rename_i base hbase
  obtain ⟨-, rfl⟩ := checkedAdd_eq_some_iff.mp hbase
  obtain ⟨n, hn, h⟩ := bind_ok_iff.mp h
  obtain ⟨-, rfl⟩ := addUsize_ok_iff.mp hn
  split at h
  · cases h
  rename_i hsize
  split at h
  · cases h
  split at h
  · cases h
  rename_i hroom
  obtain ⟨⟨_, _⟩, -, h⟩ := bind_ok_iff.mp h
  cases h
  exact ⟨rfl, Nat.not_le.mp hsize, Nat.not_lt.mp hroom⟩

/-- **The two models of the sender agree**: in a buffer, `encodeInitialPacketInto` returns what
`encodeInitialPacketWith` does and leaves the frame at its start. A slice has less than `2 ^ 63`
bytes. -/
theorem encodeInitialPacketInto_eq_with (fill : (n : Nat) → σ → ByteVec n × σ)
    (hlen : payload.length < 2 ^ 63) :
    encodeInitialPacketInto payload out (fun region => fill region.length) s =
      .ok (match encodeInitialPacketWith payload out.length fill s with
        | (.error e, s') => (.error e, out, s')
        | (.ok framed, s') => (.ok framed.length, framed ++ out.drop framed.length, s')) := by
  obtain ⟨-, hmax⟩ := initialPadding_bounds (headerLen + payload.length)
  have hheader : headerLen = 5 := rfl
  rw [encodeInitialPacketInto, encodeInitialPacketWith,
    checkedAdd_eq_some_iff.mpr ⟨by omega, rfl⟩]
  dsimp only
  rw [addUsize_ok (by omega), ok_bind]
  generalize initialPadding (headerLen + payload.length) = padding at *
  split
  · rfl
  split
  · rfl
  split
  · rfl
  · rename_i hroom
    obtain ⟨region, rfl, hwrite⟩ := writeInitialFrame_ok (fun region => fill region.length) s
      (Nat.not_lt.mp hroom)
    have hframe : beBytes 4 (headerLen + payload.length + region.length - 4) ++
        (UInt8.ofNat region.length :: (payload ++ (fill region.length s).1.toBytes)) =
        initialFrame payload (fill region.length s).1.toBytes := by
      rw [initialFrame, ByteVec.length_toBytes, hheader]
      congr 2
      omega
    rw [hwrite, ok_bind, hframe]
    dsimp only
    rw [length_initialFrame, ByteVec.length_toBytes]
    rfl

end Sending

/-! ### The size a frame is sent in -/

variable {limits : PacketLimits}

/-- What is sent is a legal frame for every receiver whose cap it keeps. -/
theorem legalFrame_of_framedLen {payload pad : Bytes}
    (hpad : pad.length = initialPadding (headerLen + payload.length))
    (hcap : framedLen payload ≤ limits.maxPacketLength.toNat + 4) :
    LegalFrame limits payload pad := by
  obtain ⟨hmin, hmax⟩ := initialPadding_bounds (headerLen + payload.length)
  have haligned := initialPadding_aligned (headerLen + payload.length)
  have hheader : headerLen = 5 := rfl
  have hblock : initialBlockSize = 8 := rfl
  have hleast : minPadding = 4 := rfl
  rw [framedLen] at hcap
  rw [← hpad] at *
  refine ⟨hmin, by omega, haligned, ?_, by omega⟩
  rw [hblock] at haligned
  -- A multiple of eight that is at least nine is at least sixteen.
  rw [minTotalLen]
  omega

/-- No smaller padding of at least four bytes aligns the frame. -/
theorem initialPadding_least {base q : Nat} (hq : minPadding ≤ q)
    (haligned : (base + q) % initialBlockSize = 0) : initialPadding base ≤ q := by
  have hmod := Nat.mod_lt base (show 0 < initialBlockSize by decide)
  have hblock : initialBlockSize = 8 := rfl
  have hleast : minPadding = 4 := rfl
  rw [initialPadding]
  simp only [hblock] at *
  split
  · omega
  · omega

/-- What the sender leaves in its buffer: a frame of `total` bytes with the least legal padding, and
behind it what was there before. -/
structure SentFrame (payload out out' : Bytes) (total : Nat) : Prop where
  aligned : total % 8 = 0
  minTotal_le : 16 ≤ total
  padding_range : headerLen + payload.length + 4 ≤ total ∧ total ≤ headerLen + payload.length + 11
  padding_least : ∀ q, 4 ≤ q → (headerLen + payload.length + q) % 8 = 0 →
    total ≤ headerLen + payload.length + q
  written : ∃ pad, pad.length = total - (headerLen + payload.length) ∧
    out'.take total = initialFrame payload pad
  untouched : out'.drop total = out.drop total
  length_eq : out'.length = out.length

/-- The frame of a payload with its filled padding is what the sender leaves. -/
theorem sentFrame {payload pad out : Bytes}
    (hpad : pad.length = initialPadding (headerLen + payload.length))
    (hroom : framedLen payload ≤ out.length) :
    SentFrame payload out (initialFrame payload pad ++ out.drop (framedLen payload))
      (framedLen payload) := by
  obtain ⟨hmin, hmax⟩ := initialPadding_bounds (headerLen + payload.length)
  have haligned := initialPadding_aligned (headerLen + payload.length)
  have hframe : (initialFrame payload pad).length = framedLen payload := by
    rw [length_initialFrame, hpad, framedLen]
  have hleast : minPadding = 4 := rfl
  have hheader : headerLen = 5 := rfl
  have hblock : initialBlockSize = 8 := rfl
  rw [hblock] at haligned
  refine ⟨haligned, ?_, ?_, ?_, ?_, drop_left' hframe, ?_⟩
  · rw [framedLen]
    omega
  · rw [framedLen]
    omega
  · intro q hq hqaligned
    have hle := initialPadding_least (hleast ▸ hq) (hblock ▸ hqaligned)
    rw [framedLen]
    omega
  · refine ⟨pad, ?_, take_left' hframe⟩
    rw [hpad, framedLen]
    omega
  · rw [length_append, hframe, length_drop]
    omega

/-! ### Receiving a stream -/

/-- Calls the decoder on what is left of a buffer until it asks for more or refuses: the payloads,
the bytes that are left, and how it stopped. -/
def decodePackets (limits : PacketLimits) :
    Nat → Bytes → Checked (List Bytes × Bytes × Except PacketError (Option Nat))
  | 0, _ => .error .outOfFuel
  | fuel + 1, buf => do
    match ← decodeInitialPacket buf limits with
    | .error e => pure ([], buf, .error e)
    | .ok (.needMore t) => pure ([], buf, .ok t)
    | .ok (.complete p) =>
      let (payloads, rest, stop) ← decodePackets limits fuel (buf.drop p.totalLen)
      pure (p.payload :: payloads, rest, stop)

/-- The bytes a payload was sent as, within the cap of the receiver: whatever the buffer was and
however the padding was filled. -/
def SentAs (limits : PacketLimits) (payload frame : Bytes) : Prop :=
  ∃ (σ : Type) (out : Bytes) (fill : (region : Bytes) → σ → ByteVec region.length × σ) (s : σ)
    (total : Nat) (out' : Bytes) (s' : σ),
    encodeInitialPacketInto payload out fill s = .ok (.ok total, out', s') ∧
      total ≤ limits.maxPacketLength.toNat + 4 ∧ frame = out'.take total

/-- What was sent is a legal frame. -/
theorem SentAs.exists_pad {payload frame : Bytes} (h : SentAs limits payload frame) :
    ∃ pad, LegalFrame limits payload pad ∧ frame = initialFrame payload pad := by
  obtain ⟨σ, _, fill, s, _, _, _, hsend, hcap, rfl⟩ := h
  obtain ⟨rfl, hsize, hroom⟩ := encodeInitialPacketInto_sent hsend
  obtain ⟨region, hregion, hok⟩ := encodeInitialPacketInto_ok fill s hsize hroom
  rw [hok] at hsend
  cases hsend
  have hpad : (fill region s).1.toBytes.length = initialPadding (headerLen + payload.length) := by
    rw [ByteVec.length_toBytes, hregion]
  refine ⟨_, legalFrame_of_framedLen hpad hcap, take_left' ?_⟩
  rw [length_initialFrame, hpad, framedLen]

/-- Nothing is waited for on an empty buffer. -/
theorem decodePackets_nil (limits : PacketLimits) (fuel : Nat) :
    decodePackets limits (fuel + 1) [] = .ok ([], [], .ok none) := rfl

/-- A frame is decoded and dropped. -/
theorem decodePackets_frame {payload pad : Bytes} (h : LegalFrame limits payload pad) (fuel : Nat)
    (rest : Bytes) :
    decodePackets limits (fuel + 1) (initialFrame payload pad ++ rest) =
      (fun r => (payload :: r.1, r.2)) <$> decodePackets limits fuel rest := by
  rw [decodePackets, decodeInitialPacket_eq, initialDecision_frame h, ok_bind]
  dsimp only
  rw [drop_left' (length_initialFrame payload pad)]
  cases decodePackets limits fuel rest with
  | error => rfl
  | ok => rfl

/-- A stream of frames is decoded to its payloads. -/
theorem decodePackets_flatten {payloads frames : List Bytes}
    (h : List.Forall₂ (SentAs limits) payloads frames) {fuel : Nat}
    (hfuel : payloads.length < fuel) :
    decodePackets limits fuel frames.flatten = .ok (payloads, [], .ok none) := by
  induction h generalizing fuel with
  | nil =>
    obtain ⟨k, rfl⟩ := Nat.exists_eq_add_of_lt hfuel
    exact decodePackets_nil limits _
  | @cons payload frame payloads frames hsent _ ih =>
    cases fuel with
    | zero => exact absurd hfuel (Nat.not_lt_zero _)
    | succ =>
      obtain ⟨_, hlegal, rfl⟩ := hsent.exists_pad
      rw [flatten_cons, decodePackets_frame hlegal,
        ih (Nat.lt_of_succ_lt_succ hfuel)]
      rfl

/-- **Initial packet framing.** For all limits: what the decoder decides of a buffer, an error or a
packet, it decides of every extension, and the size it waits for is the size of the packet that then
comes; a payload that fits its length field is framed in every buffer that has room for it, with the
least padding and nothing touched behind the frame; a refused payload changes nothing; and a stream
of frames is decoded to the payloads it was made of, with nothing left over. -/
theorem packet_framing (limits : PacketLimits) :
    (∀ b d : Bytes, (∀ t, decodeInitialPacket b limits ≠ .ok (.ok (.needMore t))) →
      decodeInitialPacket (b ++ d) limits = decodeInitialPacket b limits) ∧
    (∀ (b d : Bytes) (t : Nat) (p : InitialPacket),
      decodeInitialPacket b limits = .ok (.ok (.needMore (some t))) →
      decodeInitialPacket (b ++ d) limits = .ok (.ok (.complete p)) → p.totalLen = t) ∧
    (∀ (σ : Type) (payload out : Bytes)
      (fill : (region : Bytes) → σ → ByteVec region.length × σ) (s : σ),
      framedLen payload - 4 < 2 ^ 32 → framedLen payload ≤ out.length →
      ∃ total out' s', encodeInitialPacketInto payload out fill s = .ok (.ok total, out', s') ∧
        SentFrame payload out out' total) ∧
    (∀ (σ : Type) (payload out : Bytes)
      (fill : (region : Bytes) → σ → ByteVec region.length × σ) (s : σ) (e : EncodeInitialError)
      (out' : Bytes) (s' : σ),
      encodeInitialPacketInto payload out fill s = .ok (.error e, out', s') → out' = out) ∧
    (∀ (payloads frames : List Bytes) (fuel : Nat),
      List.Forall₂ (SentAs limits) payloads frames → payloads.length < fuel →
      decodePackets limits fuel frames.flatten = .ok (payloads, [], .ok none)) := by
  refine ⟨?_, ?_, ?_, ?_, ?_⟩
  · intro b d hdecided
    simp only [decodeInitialPacket_eq, ne_eq, Except.ok.injEq] at hdecided ⊢
    exact initialDecision_append hdecided d
  · intro b d t p hwaits hcomplete
    simp only [decodeInitialPacket_eq, Except.ok.injEq] at hwaits hcomplete
    obtain ⟨hfield, rfl⟩ := initialDecision_needMore_some hwaits
    rw [initialDecision_complete_totalLen hcomplete, packetLengthOf_append hfield]
  · intro σ payload out fill s hsize hroom
    obtain ⟨region, hregion, hok⟩ :=
      encodeInitialPacketInto_ok fill s hsize hroom
    exact ⟨_, _, _, hok, sentFrame (by rw [ByteVec.length_toBytes, hregion]) hroom⟩
  · intro σ payload out fill s e out' s' h
    exact (encodeInitialPacketInto_error h).1
  · intro payloads frames fuel hsent hfuel
    exact decodePackets_flatten hsent hfuel

/-- Padding of `0xee`, as in the fixtures of the source. -/
def eePadding (region : Bytes) (s : Unit) : ByteVec region.length × Unit :=
  (⟨List.replicate region.length 0xee, length_replicate⟩, s)

/-- Two packets: the `IGNORE` with empty data of the source's own fixture, and one with a byte of
data. -/
theorem packet_framing_ignores :
    decodePackets ⟨1024⟩ 3 (List.flatten
      [[0, 0, 0, 12, 6, 2, 0, 0, 0, 0, 0xee, 0xee, 0xee, 0xee, 0xee, 0xee],
        [0, 0, 0, 12, 5, 2, 0, 0, 0, 1, 7, 0xee, 0xee, 0xee, 0xee, 0xee]]) =
      .ok ([[2, 0, 0, 0, 0], [2, 0, 0, 0, 1, 7]], [], .ok none) :=
  (packet_framing ⟨1024⟩).2.2.2.2 _ _ _
    (.cons ⟨Unit, List.replicate 16 0, eePadding, (), 16, _, (), rfl, by decide, rfl⟩
      (.cons ⟨Unit, List.replicate 16 0, eePadding, (), 16, _, (), rfl, by decide, rfl⟩ .nil))
    (by decide)

end Tatami.Tcp
