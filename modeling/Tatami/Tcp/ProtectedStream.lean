import Tatami.Tcp.Handshake.Reference

/-! # Streams of protected packets

One direction seals payloads one after the other, another one made from the same keys opens what
arrives, piece by piece and dropping what it has opened.

* `sealAll` and `sealings` — the sender, and the calls of the cipher it makes.
* `Receiver` — the receiving end: its buffer, what it opened, and the error it stopped at.
* `Crypto.IdealFor` — an ideal cipher: it decrypts what was encrypted and nothing else.
* `protected_stream` — whatever bytes arrive and however they are cut, what is opened are the
  payloads of the packets that arrived unaltered from the start on. -/

namespace Tatami

/-- One call of the cipher under some key, with its answer. -/
structure Encryption where
  nonce : ByteVec 12
  aad : Bytes
  body : Bytes
  cipher : Bytes
  tag : ByteVec tagLen
  deriving DecidableEq

/-- The packet on the wire. -/
def Encryption.wire (e : Encryption) : Bytes := e.aad ++ e.cipher ++ e.tag.toBytes

/-- An ideal cipher, as seen by one who receives under a key for which `made` are all encryptions
that were made: it accepts exactly what they produced, and gives the body back. -/
def Crypto.IdealFor (C : Crypto) (key : ByteVec 16) (made : List Encryption) : Prop :=
  ∀ nonce aad cipher tag plain,
    (C.decrypt key nonce aad cipher tag).map (·.toBytes) = some plain ↔
      (⟨nonce, aad, plain, cipher, tag⟩ : Encryption) ∈ made

/-- The body of an encryption, if it is what arrived. -/
def Encryption.opened? (e : Encryption) (nonce : ByteVec 12) (aad cipher : Bytes)
    (tag : ByteVec tagLen) : Option (ByteVec cipher.length) :=
  if h : nonce = e.nonce ∧ aad = e.aad ∧ tag = e.tag ∧ cipher = e.cipher ∧
      e.body.length = e.cipher.length then
    some ⟨e.body, by rw [h.2.2.2.1, h.2.2.2.2]⟩
  else none

/-- A cipher that accepts these encryptions under a key, and nothing else. -/
def idealCipher (C : Crypto) (key : ByteVec 16) (made : List Encryption) : Crypto :=
  { C with
    decrypt := fun key' nonce aad cipher tag =>
      if key' = key then made.findSome? (·.opened? nonce aad cipher tag) else none }

/-- It is ideal, if no two encryptions were made with one nonce. -/
theorem idealFor_idealCipher {C : Crypto} {key : ByteVec 16} {made : List Encryption}
    (hlength : ∀ e ∈ made, e.body.length = e.cipher.length)
    (hnonce : ∀ e ∈ made, ∀ e' ∈ made, e.nonce = e'.nonce → e = e') :
    (idealCipher C key made).IdealFor key made := by
  intro nonce aad cipher tag plain
  have hdecrypt : (idealCipher C key made).decrypt key nonce aad cipher tag =
      made.findSome? (·.opened? nonce aad cipher tag) := if_pos rfl
  rw [hdecrypt]
  constructor
  · intro h
    obtain ⟨body, hfound, rfl⟩ := Option.map_eq_some_iff.mp h
    obtain ⟨e, he, hopened⟩ := List.exists_of_findSome?_eq_some hfound
    rw [Encryption.opened?] at hopened
    split at hopened
    · rename_i heq
      have hbody : e.body = body.toBytes := congrArg ByteVec.toBytes (Option.some.inj hopened)
      rw [← hbody, heq.1, heq.2.1, heq.2.2.1, heq.2.2.2.1]
      exact he
    · cases hopened
  · intro hmade
    have hsome :
        Encryption.opened? ⟨nonce, aad, plain, cipher, tag⟩ nonce aad cipher tag ≠ none := by
      rw [Encryption.opened?, dif_pos ⟨rfl, rfl, rfl, rfl, hlength _ hmade⟩]
      nofun
    cases hfound : made.findSome? (·.opened? nonce aad cipher tag) with
    | none => exact absurd (List.findSome?_eq_none_iff.mp hfound _ hmade) hsome
    | some body =>
      obtain ⟨e, he, hopened⟩ := List.exists_of_findSome?_eq_some hfound
      rw [Encryption.opened?] at hopened
      split at hopened
      · rename_i heq
        cases hnonce _ hmade e he heq.1
        cases hopened
        rfl
      · cases hopened

end Tatami

namespace Tatami.Tcp

open AeadDirection Reference Encryption List

/-! ### The sender -/

section Sender

variable {σ : Type} (C : Crypto) (fill : (n : Nat) → σ → ByteVec n × σ)

/-- Seals payloads one after the other into one output, and stops at the first refusal. -/
def sealAll : List Bytes → AeadDirection → σ → Bytes → Except SealError (AeadDirection × σ × Bytes)
  | [], a, s, out => .ok (a, s, out)
  | payload :: payloads, a, s, out =>
    let done := a.sealPacket C payload fill s out
    match done.result with
    | .error e => .error e
    | .ok _ => sealAll payloads done.aead done.padding done.out

/-- The call of the cipher that protects a payload as packet `n` of these keys. -/
def encryptionOf (keys : AeadKeys) (n : Nat) (payload padding : Bytes) : Option Encryption :=
  let body := sealedBody payload padding
  (C.encrypt keys.key (nonceAt keys n) (beBytes 4 body.length) body).map fun answer =>
    ⟨nonceAt keys n, beBytes 4 body.length, body, answer.1.toBytes, answer.2⟩

/-- The calls of the cipher that protect payloads from packet `n` on. -/
def sealings (keys : AeadKeys) : Nat → List Bytes → σ → List Encryption
  | _, [], _ => []
  | n, payload :: payloads, s =>
    let padding := fill (paddingFor (payload.length + 1)) s
    match encryptionOf C keys n payload padding.1.toBytes with
    | none => []
    | some e => e :: sealings keys (n + 1) payloads padding.2

end Sender

/-- An encryption is that of packet `n` of these keys over this payload, with legal padding. -/
structure Carries (keys : AeadKeys) (n : Nat) (payload : Bytes) (e : Encryption) : Prop where
  nonce : e.nonce = nonceAt keys n
  aad : e.aad = beBytes 4 e.body.length
  length : e.cipher.length = e.body.length
  aligned : e.body.length % 16 = 0
  body : ∃ padding, e.body = sealedBody payload padding ∧ 4 ≤ padding.length ∧ padding.length ≤ 19
  fits : e.body.length = payload.length + 1 + paddingFor (payload.length + 1)

section Sender

variable {σ : Type} {C : Crypto} {fill : (n : Nat) → σ → ByteVec n × σ} {keys : AeadKeys} {n : Nat}
  {payload : Bytes} {payloads : List Bytes} {s : σ}

/-- A cipher that never fails encrypts the body of every payload that fits. -/
theorem exists_encryptionOf (keys : AeadKeys) (n : Nat) (htotal : C.SealTotal)
    (hfits : payload.length + 1 + paddingFor (payload.length + 1) < 2 ^ 32)
    (padding : ByteVec (paddingFor (payload.length + 1))) :
    ∃ e, encryptionOf C keys n payload padding.toBytes = some e ∧ Carries keys n payload e := by
  obtain ⟨hmin, hmax, haligned⟩ := paddingFor_bounds (payload.length + 1)
  have hleast : minPadding = 4 := rfl
  have hlength := length_sealedBody padding
  obtain ⟨answer, hanswer⟩ := Option.isSome_iff_exists.mp (htotal keys.key (nonceAt keys n)
    (beBytes 4 (sealedBody payload padding.toBytes).length) (sealedBody payload padding.toBytes)
    (by omega))
  refine ⟨_, by rw [encryptionOf, hanswer]; rfl, rfl, rfl, answer.1.length_toBytes, ?_,
    ⟨_, rfl, ?_, ?_⟩, hlength⟩
  · rw [hlength]
    exact haligned
  · rw [ByteVec.length_toBytes]
    omega
  · rw [ByteVec.length_toBytes]
    omega

/-- Sealing a payload that fits appends the packet of the one call it makes. -/
theorem sealPacket_eq {a : AeadDirection} (ha : a.At keys n) (havail : a.counterAvailable = true)
    (hfits : payload.length + 1 + paddingFor (payload.length + 1) < 2 ^ 32) {e : Encryption}
    (he : encryptionOf C keys n payload
      (fill (paddingFor (payload.length + 1)) s).1.toBytes = some e) (out : Bytes) :
    a.sealPacket C payload fill s out =
      ⟨.ok e.wire.length, a.advance havail, (fill (paddingFor (payload.length + 1)) s).2,
        out ++ e.wire⟩ := by
  rw [encryptionOf, Option.map_eq_some_iff] at he
  obtain ⟨_, hanswer, rfl⟩ := he
  rw [← ha.key, ← ha.nextNonce_eq] at hanswer
  simp only [sealPacket_of_canSeal C fill s out ⟨havail, hfits⟩, hanswer]
  rfl

/-- **The sender.** Payloads that fit are sealed one after the other; what is sent are the packets
of the calls it makes, and its counters move by the number of packets. -/
theorem sealAll_eq (fill : (n : Nat) → σ → ByteVec n × σ) (s : σ) (htotal : C.SealTotal)
    (hfits : ∀ p ∈ payloads, p.length + 1 + paddingFor (p.length + 1) < 2 ^ 32)
    {a : AeadDirection} (ha : a.At keys n)
    (hcounter : counterOf keys.iv + n + payloads.length < 2 ^ 64) (out : Bytes) :
    ∃ a' s', sealAll C fill payloads a s out =
        .ok (a', s', out ++ (sealings C fill keys n payloads s).flatMap wire) ∧
      a'.At keys (n + payloads.length) ∧ a'.packets = a.packets + payloads.length := by
  induction payloads generalizing a n s out with
  | nil => exact ⟨a, s, by simp [sealAll, sealings], ha, rfl⟩
  | cons payload payloads ih =>
    rw [length_cons] at hcounter
    obtain ⟨hfits₁, hfits⟩ := forall_mem_cons.mp hfits
    have havail : a.counterAvailable = true := by
      rw [counterAvailable, ha.counter, bne_iff_ne]
      omega
    obtain ⟨e, he, -⟩ := exists_encryptionOf keys n htotal hfits₁
      (fill (paddingFor (payload.length + 1)) s).1
    have hseal := sealPacket_eq ha havail hfits₁ he out
    obtain ⟨a', s', hrest, ha', hpackets⟩ :=
      ih (fill (paddingFor (payload.length + 1)) s).2 hfits (ha.advance havail) (by omega)
        (out ++ e.wire)
    refine ⟨a', s', ?_, ?_, ?_⟩
    · rw [sealAll, sealings, he, hseal]
      dsimp only
      rw [hrest, flatMap_cons, append_assoc]
    · rw [length_cons, Nat.add_comm payloads.length, ← Nat.add_assoc]
      exact ha'
    · rw [hpackets, length_cons]
      show a.packets + 1 + payloads.length = _
      omega

/-- Each payload is in the packet at its place. -/
theorem carries_sealings (fill : (n : Nat) → σ → ByteVec n × σ) (keys : AeadKeys) (n : Nat)
    (s : σ) (htotal : C.SealTotal)
    (hfits : ∀ p ∈ payloads, p.length + 1 + paddingFor (p.length + 1) < 2 ^ 32) :
    (sealings C fill keys n payloads s).length = payloads.length ∧
      ∀ (k : Nat) (payload : Bytes) (e : Encryption), payloads[k]? = some payload →
        (sealings C fill keys n payloads s)[k]? = some e → Carries keys (n + k) payload e := by
  induction payloads generalizing n s with
  | nil => exact ⟨rfl, nofun⟩
  | cons payload _ ih =>
    obtain ⟨hfits₁, hfits⟩ := forall_mem_cons.mp hfits
    obtain ⟨e, he, hcarries⟩ := exists_encryptionOf keys n htotal hfits₁
      (fill (paddingFor (payload.length + 1)) s).1
    obtain ⟨hlength, hrest⟩ :=
      ih (n + 1) (fill (paddingFor (payload.length + 1)) s).2 hfits
    rw [sealings, he]
    refine ⟨by rw [length_cons, length_cons, hlength], fun k p e' hp he' => ?_⟩
    cases k with
    | zero =>
      cases hp
      cases he'
      exact hcarries
    | succ k =>
      rw [List.getElem?_cons_succ] at hp he'
      rw [Nat.add_comm k, ← Nat.add_assoc]
      exact hrest k p e' hp he'

end Sender

/-! ### The receiver -/

/-- The receiving end of a protected stream: what it has not used yet, what it opened, and the error
it stopped at. -/
structure Receiver where
  aead : AeadDirection
  buf : Bytes
  opened : List Bytes
  failed : Option OpenError

namespace Receiver

/-- A receiver that was given nothing yet. -/
def new (keys : AeadKeys) : Receiver := ⟨.new keys, [], [], none⟩

/-- Opens packet after packet and drops each one, until more input is needed or an error is met. -/
def drain (C : Crypto) (limits : PacketLimits) : Nat → Receiver → Checked Receiver
  | 0, _ => .error .outOfFuel
  | fuel + 1, r => do
    let o ← openPacket C r.aead r.buf limits
    match o.result with
    | .error e => pure ⟨o.aead, o.buf, r.opened, some e⟩
    | .ok (.needMore _) => pure ⟨o.aead, o.buf, r.opened, r.failed⟩
    | .ok (.packet payload totalLen) =>
      drain C limits fuel ⟨o.aead, o.buf.drop totalLen, r.opened ++ [payload], r.failed⟩

/-- Takes a piece of input. An error is terminal. -/
def receive (C : Crypto) (limits : PacketLimits) (r : Receiver) (chunk : Bytes) :
    Checked Receiver :=
  match r.failed with
  | some _ => pure r
  | none => drain C limits (r.buf.length + chunk.length + 1) { r with buf := r.buf ++ chunk }

/-- Takes its input piece by piece. -/
def receiveAll (C : Crypto) (limits : PacketLimits) (r : Receiver) (chunks : List Bytes) :
    Checked Receiver :=
  chunks.foldlM (receive C limits) r

end Receiver

section Receiver

variable {C : Crypto} {keys : AeadKeys} {limits : PacketLimits} {payloads : List Bytes}
  {made : List Encryption} {k : Nat} {a : AeadDirection} {buf stream : Bytes} {r : Receiver}

/-- What is known of a stream and of the cipher: each payload is in the packet at its place and fits
the receiver's cap, no nonce is used twice, and the cipher is ideal. -/
structure Protected (C : Crypto) (keys : AeadKeys) (limits : PacketLimits) (payloads : List Bytes)
    (made : List Encryption) : Prop where
  length : made.length = payloads.length
  carries : ∀ (k : Nat) (payload : Bytes) (e : Encryption), payloads[k]? = some payload →
    made[k]? = some e → Carries keys k payload e
  cap : ∀ p ∈ payloads, p.length + 1 + paddingFor (p.length + 1) ≤ limits.maxPacketLength.toNat
  counter : counterOf keys.iv + payloads.length < 2 ^ 64
  ideal : C.IdealFor keys.key made

/-- Only a whole packet moves a direction. -/
theorem whole_of_aead_ne (h : (a.openDecision C buf limits).aead ≠ a) :
    lengthLen + (packetLengthOf buf).toNat + tagLen ≤ buf.length := by
  by_contra hshort
  apply h
  rw [openDecision]
  split
  · rfl
  dsimp only
  split
  · rfl
  split
  · rfl
  split
  · rfl
  rw [if_pos (Nat.not_le.mp hshort)]

/-- The receiver has opened the first `k` packets of what arrived, and holds the rest. -/
structure Holds (keys : AeadKeys) (payloads : List Bytes) (made : List Encryption) (stream : Bytes)
    (k : Nat) (r : Receiver) : Prop where
  le : k ≤ payloads.length
  opened : r.opened = payloads.take k
  place : r.aead.At keys k
  packets : r.aead.packets = k
  arrived : (made.take k).flatMap wire <+: stream

/-- The receiver has nothing more to do with what arrived: it holds the rest and waits for more, or
it stopped at an error. -/
inductive Settled (C : Crypto) (keys : AeadKeys) (limits : PacketLimits) (payloads : List Bytes)
    (made : List Encryption) (stream : Bytes) (k : Nat) (r : Receiver) : Prop
  | waits (t : Option Nat) (holds : Holds keys payloads made stream k r) (hgood : r.failed = none)
      (hall : (made.take k).flatMap wire ++ r.buf = stream)
      (hwait : (r.aead.openDecision C r.buf limits).result = .ok (.needMore t))
  | stopped (e : OpenError) (rest more : Bytes) (holds : Holds keys payloads made stream k r)
      (hbad : r.failed = some e)
      (hall : (made.take k).flatMap wire ++ (rest ++ more) = stream)
      (herror : (r.aead.openDecision C rest limits).result = .error e)

/-- Waiting or stopped, it has opened what it has opened. -/
theorem Settled.holds (hs : Settled C keys limits payloads made stream k r) :
    Holds keys payloads made stream k r := by
  cases hs with
  | waits _ hh => exact hh
  | stopped _ _ _ hh => exact hh

/-- A receiver that was given nothing has nothing to do. -/
theorem settled_new : Settled C keys limits payloads made [] 0 (.new keys) :=
  .waits none ⟨Nat.zero_le _, rfl, at_new keys, rfl, nil_prefix⟩ rfl rfl rfl

/-- Fewer packets are the beginning of more packets. -/
theorem flatMap_wire_isPrefix {i j : Nat} (h : i ≤ j) :
    (made.take i).flatMap wire <+: (made.take j).flatMap wire := by
  obtain ⟨_, hrest⟩ := take_prefix_take_left (l := made) h
  rw [← hrest, flatMap_append]
  exact prefix_append _ _

/-- When exactly the packets arrived, nothing is left and no error was met. -/
theorem Settled.intact (hs : Settled C keys limits payloads made stream k r)
    (hstream : stream = (made.take k).flatMap wire) : r.failed = none ∧ r.buf = [] := by
  cases hs with
  | waits _ _ hgood hall =>
    rw [hstream] at hall
    exact ⟨hgood, append_right_eq_self.mp hall⟩
  | stopped _ _ _ _ _ hall herror =>
    rw [hstream] at hall
    obtain ⟨rfl, -⟩ := append_eq_nil_iff.mp (append_right_eq_self.mp hall)
    cases herror

variable (hp : Protected C keys limits payloads made)

include hp

/-- The packet at a place, with its payload. -/
theorem Protected.exists_payload {e : Encryption} (he : made[k]? = some e) :
    ∃ payload, payloads[k]? = some payload ∧ Carries keys k payload e := by
  have hlt : k < payloads.length := by
    rw [← hp.length]
    exact (List.getElem?_eq_some_iff.mp he).1
  have hpayload : payloads[k]? = some payloads[k] := List.getElem?_eq_getElem hlt
  exact ⟨_, hpayload, hp.carries k _ e hpayload he⟩

/-- **What is accepted was sealed as this packet.** -/
theorem Protected.accepted (ha : a.At keys k) {aad cipher plain : Bytes} {tag : ByteVec tagLen}
    (hdec : (C.decrypt a.key a.nextNonce aad cipher tag).map (·.toBytes) = some plain) :
    made[k]? = some ⟨nonceAt keys k, aad, plain, cipher, tag⟩ := by
  rw [ha.key, ha.nextNonce_eq] at hdec
  have hmem := (hp.ideal _ _ _ _ _).mp hdec
  obtain ⟨j, hj⟩ := mem_iff_getElem?.mp hmem
  obtain ⟨_, hpayload, hcarries⟩ := hp.exists_payload hj
  -- Both nonces are in range, so the packets are the same.
  have hlt : j < payloads.length := (List.getElem?_eq_some_iff.mp hpayload).1
  have hcounter := hp.counter
  obtain rfl : k = j := nonceAt_inj ha.counter_lt (by omega) hcarries.nonce
  exact hj

/-- A packet that was sealed is opened by the direction that is at its place. -/
theorem Protected.opens (ha : a.At keys k) {e : Encryption} (he : made[k]? = some e)
    (rest : Bytes) :
    ∃ payload havail buf', payloads[k]? = some payload ∧
      a.openDecision C (e.wire ++ rest) limits =
        ⟨.ok (.packet payload e.wire.length), a.advance havail, buf'⟩ ∧
      buf'.drop e.wire.length = rest := by
  obtain ⟨payload, hpayload, hcarries⟩ := hp.exists_payload he
  have hlt : k < payloads.length := (List.getElem?_eq_some_iff.mp hpayload).1
  have hcounter := hp.counter
  have havail : a.counterAvailable = true := by
    rw [counterAvailable, ha.counter, bne_iff_ne]
    omega
  obtain ⟨padding, hbody, hmin, hmax⟩ := hcarries.body
  have hcap := hp.cap payload (mem_of_getElem? hpayload)
  have hsize : e.body.length = 1 + payload.length + padding.length := by
    rw [hbody, sealedBody, length_cons, length_append]
    omega
  have hplain : (C.decrypt a.key a.nextNonce (beBytes 4 e.cipher.length) e.cipher e.tag).map
      (·.toBytes) = some (UInt8.ofNat padding.length :: (payload ++ padding)) := by
    have haad : beBytes 4 e.cipher.length = e.aad := by rw [hcarries.length, hcarries.aad]
    rw [haad, ha.key, ha.nextNonce_eq, ← hcarries.nonce]
    refine (hp.ideal _ _ _ _ _).mpr ?_
    show (⟨e.nonce, e.aad, sealedBody payload padding, e.cipher, e.tag⟩ : Encryption) ∈ made
    rw [← hbody]
    exact mem_of_getElem? he
  have hfits := hcarries.fits
  have hlength := hcarries.length
  obtain ⟨buf', hopen, hrest⟩ := openDecision_frame havail
    (show e.cipher.length ≤ limits.maxPacketLength.toNat by omega)
    (hlength.trans hsize) (hlength ▸ hcarries.aligned) hmin (by omega) hplain rest
  have hwire : e.wire = sealedFrame e.cipher e.tag := by
    rw [wire, sealedFrame, hcarries.aad, hcarries.length]
  rw [← length_sealedFrame e.cipher e.tag] at hopen hrest
  rw [hwire]
  exact ⟨payload, havail, buf', hpayload, hopen, hrest⟩

/-- **Nothing else is accepted**: a decryption that succeeds is that of the packet that was sealed,
which stands at the front of the buffer. -/
theorem Protected.front (ha : a.At keys k) {plain : Bytes}
    (hdec : decryptFront C a buf = some plain)
    (hwhole : lengthLen + (packetLengthOf buf).toNat + tagLen ≤ buf.length) :
    ∃ e rest, made[k]? = some e ∧ buf = e.wire ++ rest := by
  refine ⟨_, buf.drop (lengthLen + (packetLengthOf buf).toNat + tagLen),
    hp.accepted ha hdec, ?_⟩
  have hsplit (i n : Nat) : (buf.drop i).take n ++ buf.drop (i + n) = buf.drop i := by
    rw [← drop_drop, take_append_drop]
  rw [wire, toBytes_tagOf hwhole, bodyOf]
  dsimp only
  rw [append_assoc, append_assoc, hsplit, hsplit, take_append_drop]

/-- **One look at the buffer**: it ends the look, or the next packet was at its front. -/
theorem Protected.look (hh : Holds keys payloads made stream k r)
    (hall : (made.take k).flatMap wire ++ r.buf = stream) :
    (∃ t, r.aead.openDecision C r.buf limits = ⟨.ok (.needMore t), r.aead, r.buf⟩) ∨
    (∃ e, r.aead.openDecision C r.buf limits = ⟨.error e, r.aead, r.buf⟩) ∨
    ∃ payload totalLen havail buf', 0 < totalLen ∧ totalLen ≤ r.buf.length ∧
      r.aead.openDecision C r.buf limits =
        ⟨.ok (.packet payload totalLen), r.aead.advance havail, buf'⟩ ∧
      buf'.length = r.buf.length ∧
      Holds keys payloads made stream (k + 1)
        ⟨r.aead.advance havail, buf'.drop totalLen, r.opened ++ [payload], r.failed⟩ ∧
      (made.take (k + 1)).flatMap wire ++ buf'.drop totalLen = stream := by
  -- A decryption that succeeds leaves only the packet that was sealed.
  have hpacket {plain : Bytes} (hdec : decryptFront C r.aead r.buf = some plain)
      (hne : (r.aead.openDecision C r.buf limits).aead ≠ r.aead) :
      ∃ payload totalLen havail buf', 0 < totalLen ∧ totalLen ≤ r.buf.length ∧
        r.aead.openDecision C r.buf limits =
          ⟨.ok (.packet payload totalLen), r.aead.advance havail, buf'⟩ ∧
        buf'.length = r.buf.length ∧
        Holds keys payloads made stream (k + 1)
          ⟨r.aead.advance havail, buf'.drop totalLen, r.opened ++ [payload], r.failed⟩ ∧
        (made.take (k + 1)).flatMap wire ++ buf'.drop totalLen = stream := by
    obtain ⟨e, rest, he, hbuf⟩ := hp.front hh.place hdec (whole_of_aead_ne hne)
    obtain ⟨payload, havail, buf', hpayload, hopen, hrest⟩ := hp.opens hh.place he rest
    rw [← hbuf] at hopen
    have hlength := length_openDecision C r.aead r.buf limits
    rw [hopen] at hlength
    have hlt : k < payloads.length := (List.getElem?_eq_some_iff.mp hpayload).1
    have hstream : (made.take (k + 1)).flatMap wire ++ rest = stream := by
      rw [take_add_one, he, flatMap_append, ← hall, hbuf]
      simp
    refine ⟨payload, e.wire.length, havail, buf', ?_, ?_, hopen, hlength, ⟨hlt, ?_, ?_, ?_, ?_⟩, ?_⟩
    · rw [wire, length_append, ByteVec.length_toBytes, tagLen]
      omega
    · rw [hbuf, length_append]
      omega
    · show r.opened ++ [payload] = _
      rw [hh.opened, take_add_one, hpayload]
      rfl
    · exact hh.place.advance havail
    · exact congrArg (· + 1) hh.packets
    · exact ⟨rest, hstream⟩
    · rw [hrest, hstream]
  have hcases := openDecision_cases C r.aead r.buf limits
  generalize hopened : r.aead.openDecision C r.buf limits = opened at hcases hpacket
  cases hcases with
  | needMore t => exact .inl ⟨t, rfl⟩
  | refused e => exact .inr (.inl ⟨e, rfl⟩)
  | badPadding _ _ havail _ _ hdec | packet _ _ _ _ havail hdec =>
    exact .inr (.inr (hpacket hdec (AeadDirection.advance_ne havail)))

/-- Opening all that is there leaves a receiver that has nothing more to do. -/
theorem Protected.drain (hh : Holds keys payloads made stream k r) (hgood : r.failed = none)
    (hall : (made.take k).flatMap wire ++ r.buf = stream) {fuel : Nat}
    (hfuel : r.buf.length < fuel) :
    ∃ r' k', r.drain C limits fuel = .ok r' ∧
      Settled C keys limits payloads made stream k' r' := by
  induction fuel generalizing k r with
  | zero => exact absurd hfuel (Nat.not_lt_zero _)
  | succ fuel ih =>
    rw [Receiver.drain, openPacket_eq, Checked.ok_bind]
    rcases hp.look hh hall with ⟨t, hopen⟩ | ⟨e, hopen⟩ |
      ⟨_, totalLen, havail, buf', hpos, hle, hopen, hlength, hh', hall'⟩
    · rw [hopen]
      refine ⟨_, k, rfl,
        .waits t ⟨hh.le, hh.opened, hh.place, hh.packets, hh.arrived⟩ hgood hall ?_⟩
      show (r.aead.openDecision C r.buf limits).result = _
      rw [hopen]
    · rw [hopen]
      refine ⟨_, k, rfl, .stopped e r.buf [] ⟨hh.le, hh.opened, hh.place, hh.packets, hh.arrived⟩
        rfl ?_ ?_⟩
      · rw [append_nil]
        exact hall
      · show (r.aead.openDecision C r.buf limits).result = _
        rw [hopen]
    · rw [hopen]
      refine ih hh' hgood hall' ?_
      show (buf'.drop totalLen).length < fuel
      rw [length_drop]
      omega

theorem Protected.receive (hs : Settled C keys limits payloads made stream k r) (chunk : Bytes) :
    ∃ r' k', r.receive C limits chunk = .ok r' ∧
      Settled C keys limits payloads made (stream ++ chunk) k' r' := by
  cases hs with
  | waits _ hh hgood hall =>
    rw [Receiver.receive, hgood]
    have hall' : (made.take k).flatMap wire ++ (r.buf ++ chunk) = stream ++ chunk := by
      rw [← hall, append_assoc]
    refine hp.drain (r := ⟨r.aead, r.buf ++ chunk, r.opened, none⟩)
      ⟨hh.le, hh.opened, hh.place, hh.packets, ⟨_, hall'⟩⟩ rfl hall' ?_
    rw [length_append]
    omega
  | stopped e rest more hh hbad hall herror =>
    rw [Receiver.receive, hbad]
    have hall' : (made.take k).flatMap wire ++ (rest ++ (more ++ chunk)) =
        stream ++ chunk := by
      rw [← hall]
      simp only [append_assoc]
    exact ⟨r, k, rfl, .stopped e rest (more ++ chunk)
      ⟨hh.le, hh.opened, hh.place, hh.packets, ⟨_, hall'⟩⟩ hbad hall' herror⟩

/-- Pieces of the protected stream, one after the other, keep the receiver in step with it. -/
theorem Protected.receiveAll (chunks : List Bytes)
    (hs : Settled C keys limits payloads made stream k r) :
    ∃ r' k', r.receiveAll C limits chunks = .ok r' ∧
      Settled C keys limits payloads made (stream ++ chunks.flatten) k' r' := by
  induction chunks generalizing stream k r with
  | nil =>
    rw [flatten_nil, append_nil]
    exact ⟨r, k, rfl, hs⟩
  | cons chunk _ ih =>
    obtain ⟨_, _, hreceive, hs₁⟩ := hp.receive hs chunk
    obtain ⟨r', k', hrest, hs'⟩ := ih hs₁
    refine ⟨r', k', ?_, ?_⟩
    · rw [Receiver.receiveAll, foldlM_cons, hreceive, Checked.ok_bind]
      exact hrest
    · rw [flatten_cons, ← append_assoc]
      exact hs'

/-- **No packet that arrived unaltered is left unopened.** -/
theorem Protected.maximal (hs : Settled C keys limits payloads made stream k r)
    (hlt : k < payloads.length) : ¬(made.take (k + 1)).flatMap wire <+: stream := by
  rintro ⟨tail, htail⟩
  obtain ⟨e, he⟩ : ∃ e, made[k]? = some e :=
    ⟨_, List.getElem?_eq_getElem (show k < made.length by rw [hp.length]; exact hlt)⟩
  rw [take_add_one, he, flatMap_append, Option.toList_some, flatMap_singleton,
    append_assoc] at htail
  cases hs with
  | waits _ hh _ hall hwait =>
    obtain ⟨payload, havail, buf', -, hopen, -⟩ := hp.opens hh.place he tail
    have hbuf : r.buf = e.wire ++ tail := append_cancel_left (hall.trans htail.symm)
    rw [hbuf, hopen] at hwait
    cases hwait
  | stopped _ rest more hh _ hall herror =>
    -- The error was met on the first part of what is there, and stands for the whole of it.
    obtain ⟨payload, havail, buf', -, hopen, -⟩ := hp.opens hh.place he tail
    have hbuf : rest ++ more = e.wire ++ tail := append_cancel_left (hall.trans htail.symm)
    have hdecided : ∀ t, (r.aead.openDecision C rest limits).result ≠ .ok (.needMore t) := by
      rw [herror]
      nofun
    have hwhole := openDecision_append C r.aead hdecided more
    rw [hbuf, hopen] at hwhole
    have hresult := congrArg Opened.result hwhole
    rw [herror] at hresult
    cases hresult

/-- What is opened is determined by what arrived. -/
theorem Protected.place_eq (hs : Settled C keys limits payloads made stream k r) {j : Nat}
    (hj : j ≤ payloads.length) (harrived : (made.take j).flatMap wire <+: stream)
    (haltered : j < payloads.length → ¬(made.take (j + 1)).flatMap wire <+: stream) :
    k = j := by
  rcases Nat.lt_trichotomy k j with hlt | rfl | hgt
  · exact absurd ((flatMap_wire_isPrefix hlt).trans harrived)
      (hp.maximal hs (Nat.lt_of_lt_of_le hlt hj))
  · rfl
  · exact absurd ((flatMap_wire_isPrefix hgt).trans hs.holds.arrived)
      (haltered (Nat.lt_of_lt_of_le hgt hs.holds.le))

end Receiver

/-! ### The stream -/

/-- What a receiver has when the first `k` packets arrived unaltered and no more: their payloads,
and counters that moved by `k`. -/
structure Opens (keys : AeadKeys) (payloads : List Bytes) (k : Nat) (r : Receiver) : Prop where
  opened : r.opened = payloads.take k
  counter : r.aead.counter = counterOf keys.iv + k
  packets : r.aead.packets = k

/-- **A protected packet stream.** Let the cipher encrypt every body of less than 2³² bytes, and let
it be ideal for the encryptions the sender makes. For all keys, payloads whose packets fit the
length field and the receiver's cap, and padding sources, as long as the counter does not reach its
last value:

* the sender seals them all, and its counters move by the number of packets;
* every packet is a multiple of sixteen bytes long and has four to nineteen bytes of padding;
* the receiver, given any bytes in any pieces, opens the payloads of the packets that arrived
  unaltered from the start on, and no others; given exactly the packets, it opens all payloads, with
  nothing left over;
* waiting for more changes neither the buffer nor the counters, an error of sealing changes neither
  the output nor the counters, and an error of opening other than bad padding does not change the
  counters. -/
theorem protected_stream {σ : Type} {C : Crypto} (htotal : C.SealTotal) (keys : AeadKeys)
    (limits : PacketLimits) (payloads : List Bytes) (fill : (n : Nat) → σ → ByteVec n × σ) (s : σ)
    (hfits : ∀ p ∈ payloads,
      p.length + 1 + paddingFor (p.length + 1) ≤ limits.maxPacketLength.toNat)
    (hcounter : counterOf keys.iv + payloads.length ≤ 2 ^ 64 - 1)
    (hideal : C.IdealFor keys.key (sealings C fill keys 0 payloads s)) :
    (∃ a s', sealAll C fill payloads (.new keys) s [] =
        .ok (a, s', (sealings C fill keys 0 payloads s).flatMap wire) ∧
      a.counter = counterOf keys.iv + payloads.length ∧ a.packets = payloads.length) ∧
    (∀ (k : Nat) (e : Encryption), (sealings C fill keys 0 payloads s)[k]? = some e →
      ∃ payload, payloads[k]? = some payload ∧ Carries keys k payload e) ∧
    (∀ (chunks : List Bytes) (k : Nat), k ≤ payloads.length →
      ((sealings C fill keys 0 payloads s).take k).flatMap wire <+: chunks.flatten →
      (k < payloads.length → ¬((sealings C fill keys 0 payloads s).take (k + 1)).flatMap
        wire <+: chunks.flatten) →
      ∃ r, Receiver.receiveAll C limits (.new keys) chunks = .ok r ∧ Opens keys payloads k r) ∧
    (∀ chunks : List Bytes,
      chunks.flatten = (sealings C fill keys 0 payloads s).flatMap wire →
      ∃ r, Receiver.receiveAll C limits (.new keys) chunks = .ok r ∧
        Opens keys payloads payloads.length r ∧ r.failed = none ∧ r.buf = []) ∧
    (∀ (a : AeadDirection) (buf : Bytes) (cap : PacketLimits) (o : Opened),
      openPacket C a buf cap = .ok o →
        (∀ t, o.result = .ok (.needMore t) → o.buf = buf ∧ o.aead = a) ∧
        ∀ e, o.result = .error e → (∀ l p, e ≠ .badPadding l p) → o.aead = a) ∧
    (∀ (a : AeadDirection) (payload : Bytes) (s : σ) (out : Bytes) (e : SealError),
      (a.sealPacket C payload fill s out).result = .error e →
        (a.sealPacket C payload fill s out).aead = a ∧
        (a.sealPacket C payload fill s out).out = out) := by
  have hcap := limits.maxPacketLength.toNat_lt
  have hfits32 : ∀ p ∈ payloads, p.length + 1 + paddingFor (p.length + 1) < 2 ^ 32 :=
    fun p hp => Nat.lt_of_le_of_lt (hfits p hp) hcap
  obtain ⟨hlength, hcarries⟩ := carries_sealings fill keys 0 s htotal hfits32
  have hp : Protected C keys limits payloads (sealings C fill keys 0 payloads s) := by
    refine ⟨hlength, fun k payload e hpayload he => ?_, hfits, by omega, hideal⟩
    rw [← Nat.zero_add k]
    exact hcarries k payload e hpayload he
  refine ⟨?_, fun k e he => hp.exists_payload he, ?_, ?_, ?_, ?_⟩
  · obtain ⟨a, s', hseal, ha, hpackets⟩ := sealAll_eq fill s htotal hfits32
      (at_new keys) (show counterOf keys.iv + 0 + payloads.length < 2 ^ 64 by omega) []
    rw [Nat.zero_add] at ha
    refine ⟨a, s', hseal, ha.counter, ?_⟩
    rw [hpackets]
    exact Nat.zero_add _
  · intro chunks k hk harrived haltered
    obtain ⟨r, _, hreceive, hs⟩ := hp.receiveAll chunks settled_new
    rw [nil_append] at hs
    obtain rfl := hp.place_eq hs hk harrived haltered
    exact ⟨r, hreceive, hs.holds.opened, hs.holds.place.counter, hs.holds.packets⟩
  · intro chunks hchunks
    obtain ⟨r, k, hreceive, hs⟩ := hp.receiveAll chunks settled_new
    have hall : (sealings C fill keys 0 payloads s).take payloads.length =
        sealings C fill keys 0 payloads s := take_of_length_le (Nat.le_of_eq hlength)
    rw [nil_append, hchunks] at hs
    obtain rfl : k = payloads.length := by
      refine hp.place_eq hs (Nat.le_refl _) ?_ fun hlt => absurd hlt (Nat.lt_irrefl _)
      exact ⟨[], by rw [hall, append_nil]⟩
    obtain ⟨hgood, hbuf⟩ := hs.intact (by rw [hall])
    exact ⟨r, hreceive, ⟨hs.holds.opened, hs.holds.place.counter, hs.holds.packets⟩, hgood, hbuf⟩
  · intro a buf cap o hopen
    rw [openPacket_eq, Except.ok.injEq] at hopen
    have hcases := openDecision_cases C a buf cap
    rw [hopen] at hcases
    cases hcases with
    | needMore => exact ⟨fun _ _ => ⟨rfl, rfl⟩, nofun⟩
    | refused => exact ⟨nofun, fun _ _ _ => rfl⟩
    | badPadding _ _ _ l p =>
      refine ⟨nofun, fun e he hne => ?_⟩
      cases he
      exact absurd rfl (hne l p)
    | packet => exact ⟨nofun, nofun⟩
  · intro a payload s out e hresult
    rcases sealPacket_cases C fill s out a payload with ⟨h, s', _, -, hseal⟩ |
      ⟨_, s', _, hquiet, hseal⟩
    · rw [hseal] at hresult
      cases hresult
    · rw [hseal, (hquiet htotal).1]
      exact ⟨rfl, append_nil _⟩

/-! ### A stream of two packets -/

namespace Reference

/-- Keys of zeros. -/
def zeroKeys : AeadKeys := ⟨.zero 16, .zero 12⟩

/-- Padding of zeros. -/
def zeroPadding (n : Nat) (s : Unit) : ByteVec n × Unit := (.zero n, s)

/-- An `IGNORE` without data and one with a byte of it. -/
def ignores : List Bytes := [[2, 0, 0, 0, 0], [2, 0, 0, 0, 1, 7]]

/-- The encryptions that protect them. -/
def ignoresSealed : List Encryption := sealings reference zeroPadding zeroKeys 0 ignores ()

/-- The packets on the wire. -/
def ignoresWire : Bytes := ignoresSealed.flatMap wire

end Reference

/-- Both packets cut inside the second, and then with a byte of the second altered. -/
theorem protected_stream_ignores :
    (∃ r, Receiver.receiveAll (idealCipher reference zeroKeys.key ignoresSealed) .default
        (.new zeroKeys) [ignoresWire.take 60, ignoresWire.drop 60] = .ok r ∧
      r.opened = ignores) ∧
    ∃ r, Receiver.receiveAll (idealCipher reference zeroKeys.key ignoresSealed) .default
        (.new zeroKeys) [ignoresWire.take 60, 0xff :: ignoresWire.drop 61] = .ok r ∧
      r.opened = [[2, 0, 0, 0, 0]] := by
  have hideal : (idealCipher reference zeroKeys.key ignoresSealed).IdealFor zeroKeys.key
      ignoresSealed :=
    idealFor_idealCipher (by decide +kernel) (by decide +kernel)
  obtain ⟨-, -, haltered, hintact, -⟩ := protected_stream
    (C := idealCipher reference zeroKeys.key ignoresSealed) reference_sealTotal zeroKeys .default
    ignores zeroPadding () (by decide) (by decide) hideal
  constructor
  · obtain ⟨r, hreceive, hopens, -⟩ :=
      hintact [ignoresWire.take 60, ignoresWire.drop 60] (by decide +kernel)
    exact ⟨r, hreceive, hopens.opened⟩
  · obtain ⟨r, hreceive, hopens⟩ := haltered [ignoresWire.take 60, 0xff :: ignoresWire.drop 61] 1
      (by decide) (by decide +kernel) (fun _ => by decide +kernel)
    exact ⟨r, hreceive, hopens.opened⟩

end Tatami.Tcp
