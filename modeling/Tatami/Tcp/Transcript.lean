import Tatami.Crypto
import Tatami.Lib.Checked
import Tatami.Wire.Primitives

/-! # Exchange hash and key derivation

The key agreement, exchange hash and key expansion of `curve25519-sha256` (RFC 4253 §§7.2, 8;
RFC 5656 §4; RFC 8731 §3). The hash is fed seven length-prefixed strings and the shared secret as an
`mpint`; the bytes it is fed determine every one of them (`hashInput_inj`), which is what ties a
signature to a whole transcript. -/

namespace Tatami.Tcp

open Tatami.Wire Checked ByteVec List

/-! ### Key agreement -/

/-- Length of an X25519 value. -/
def x25519Len : Nat := 32

/-- Failure of the key-agreement step. -/
inductive KexError where
  | serverEphemeralLength (found : Nat)
  | allZeroSharedSecret
  deriving DecidableEq, Repr

/-- The client's ephemeral key pair. -/
structure EphemeralKeyPair where
  secret : ByteVec 32
  pub : ByteVec 32
  deriving DecidableEq, Repr

/-- The key pair of drawn secret bytes. -/
def EphemeralKeyPair.fromSecretBytes (C : Crypto) (bytes : ByteVec 32) : EphemeralKeyPair :=
  ⟨bytes, C.x25519Public bytes⟩

/-- The shared secret `K`. -/
structure SharedSecret where
  bytes : ByteVec 32
  deriving DecidableEq, Repr

/-- Computes the shared secret with the server's `Q_S`. -/
def EphemeralKeyPair.agree (C : Crypto) (e : EphemeralKeyPair) (serverPublic : Bytes) :
    Except KexError SharedSecret :=
  match ofBytes? 32 serverPublic with
  | none => .error (.serverEphemeralLength serverPublic.length)
  | some qS =>
    let k := C.diffieHellman e.secret qS
    if k = zero 32 then .error .allZeroSharedSecret else .ok ⟨k⟩

/-- `K` as a positive `mpint` with its length prefix, written into a buffer of the announced
size. -/
def SharedSecret.mpint (k : SharedSecret) : Checked Bytes :=
  let len := mpintPositiveLen k.bytes.toBytes
  match Writer.run (Writer.writeMpintPositive k.bytes.toBytes) (List.replicate len 0) with
  | (.ok _, buf) => .ok (buf.take len)
  | (.error _, _) => .error (.expect "buffer sized by mpint_positive_len")

/-- The bytes of `K` as an `mpint`. -/
def SharedSecret.mpintBytes (k : SharedSecret) : Bytes :=
  lengthPrefixed (mpintPositiveBody k.bytes.toBytes)

/-- The length of `K` fits its prefix. -/
theorem SharedSecret.body_short (k : SharedSecret) :
    (mpintPositiveBody k.bytes.toBytes).length < 2 ^ 32 := by
  have hle := length_mpintPositiveBody_le k.bytes.toBytes
  rw [length_toBytes] at hle
  omega

/-- The buffer for `K` is always large enough. -/
theorem SharedSecret.mpint_eq (k : SharedSecret) : k.mpint = .ok k.mpintBytes := by
  have hlen := mpintPositiveLen_eq k.bytes.toBytes
  obtain ⟨_, hrun, htake⟩ := (Writer.produces_writePrefixed k.body_short).run_eq
    (show (lengthPrefixed (mpintPositiveBody k.bytes.toBytes)).length ≤
      (List.replicate (mpintPositiveLen k.bytes.toBytes) (0 : UInt8)).length by
        rw [length_replicate, hlen])
  rw [SharedSecret.mpint, Writer.writeMpintPositive]
  simp only [hrun]
  rw [hlen, htake]
  rfl

/-- `K` is determined by its `mpint`. -/
theorem SharedSecret.mpintBytes_inj {k k' : SharedSecret} (h : k.mpintBytes = k'.mpintBytes) :
    k = k' := by
  have hbody : mpintPositiveBody k.bytes.toBytes = mpintPositiveBody k'.bytes.toBytes :=
    (lengthPrefixed_append_inj (s := []) (t := []) k.body_short k'.body_short
      (congrArg (· ++ []) h)).1
  have hbytes : k.bytes.toBytes = k'.bytes.toBytes := mpintPositiveBody_inj (by simp) hbody
  cases k
  cases k'
  rw [SharedSecret.mk.injEq]
  exact ext hbytes

/-! ### Exchange hash -/

/-- The exchange hash of one key exchange. -/
structure ExchangeHash where
  bytes : ByteVec 32
  deriving DecidableEq, Repr

/-- The session identifier: the hash of the initial exchange. -/
structure SessionId where
  bytes : ByteVec 32
  deriving DecidableEq, Repr

/-- Adopts the hash of the initial exchange. -/
def SessionId.fromInitialExchange (h : ExchangeHash) : SessionId := ⟨h.bytes⟩

/-- The public inputs of the exchange hash. -/
structure ExchangeHashInputs where
  vC : Bytes
  vS : Bytes
  iC : Bytes
  iS : Bytes
  kS : Bytes
  qC : Bytes
  qS : Bytes
  deriving DecidableEq, Repr

/-- The inputs in the order they are hashed. -/
def ExchangeHashInputs.parts (i : ExchangeHashInputs) : List Bytes :=
  [i.vC, i.vS, i.iC, i.iS, i.kS, i.qC, i.qS]

/-- Feeds one string to the hash: its length, then its bytes. -/
def updateString (fed bytes : Bytes) : Checked Bytes :=
  if bytes.length < 2 ^ 32 then .ok (fed ++ lengthPrefixed bytes)
  else .error (.expect "hash inputs are bounded packet fields")

/-- Computes `H`. -/
def exchangeHash (C : Crypto) (inputs : ExchangeHashInputs) (k : SharedSecret) :
    Checked ExchangeHash := do
  let fed ← inputs.parts.foldlM updateString []
  let kBytes ← k.mpint
  pure ⟨C.sha256 (fed ++ kBytes)⟩

/-- Whether every input has a length that fits its prefix. -/
def ExchangeHashInputs.Short (i : ExchangeHashInputs) : Prop := ∀ p ∈ i.parts, p.length < 2 ^ 32

instance (i : ExchangeHashInputs) : Decidable i.Short := List.decidableBAll _ _

/-- The bytes `H` is the hash of. -/
def hashInput (i : ExchangeHashInputs) (k : SharedSecret) : Bytes :=
  lengthPrefixed i.vC ++ (lengthPrefixed i.vS ++ (lengthPrefixed i.iC ++ (lengthPrefixed i.iS ++
    (lengthPrefixed i.kS ++ (lengthPrefixed i.qC ++ (lengthPrefixed i.qS ++ k.mpintBytes))))))

/-- Feeding the hash goes through exactly when no string is too long. -/
theorem foldlM_updateString_ok_iff {parts : List Bytes} {fed fed' : Bytes} :
    parts.foldlM updateString fed = .ok fed' ↔
      (∀ p ∈ parts, p.length < 2 ^ 32) ∧ fed' = fed ++ parts.flatMap lengthPrefixed := by
  induction parts generalizing fed with
  | nil => simp [eq_comm]
  | cons p _ ih =>
    rw [foldlM_cons, forall_mem_cons, flatMap_cons]
    by_cases hp : p.length < 2 ^ 32
    · rw [updateString, if_pos hp, ok_bind, ih, append_assoc]
      exact ⟨fun h => ⟨⟨hp, h.1⟩, h.2⟩, fun h => ⟨h.1.2, h.2⟩⟩
    · rw [updateString, if_neg hp, error_bind]
      constructor
      · intro h
        cases h
      · intro h
        exact absurd h.1.1 hp

/-- **The exchange hash is computed exactly when its inputs are short**, over `hashInput`. -/
theorem exchangeHash_ok_iff {C : Crypto} {i : ExchangeHashInputs} {k : SharedSecret}
    {h : ExchangeHash} :
    exchangeHash C i k = .ok h ↔ i.Short ∧ h = ⟨C.sha256 (hashInput i k)⟩ := by
  rw [exchangeHash, bind_ok_iff]
  simp only [foldlM_updateString_ok_iff, SharedSecret.mpint_eq, ok_bind,
    pure_eq_ok, Except.ok.injEq]
  have hfed : i.parts.flatMap lengthPrefixed ++ k.mpintBytes = hashInput i k := by
    simp [ExchangeHashInputs.parts, hashInput]
  constructor
  · rintro ⟨_, ⟨hshort, rfl⟩, rfl⟩
    exact ⟨hshort, by rw [nil_append, hfed]⟩
  · rintro ⟨hshort, rfl⟩
    exact ⟨_, ⟨hshort, rfl⟩, by rw [nil_append, hfed]⟩

/-- **Transcript binding.** The hashed bytes determine every input and the secret. -/
theorem hashInput_inj {i i' : ExchangeHashInputs} {k k' : SharedSecret} (hi : i.Short)
    (hi' : i'.Short) (h : hashInput i k = hashInput i' k') : i = i' ∧ k = k' := by
  simp only [ExchangeHashInputs.Short, ExchangeHashInputs.parts, mem_cons, not_mem_nil,
    or_false, forall_eq_or_imp, forall_eq] at hi hi'
  obtain ⟨h₁, h₂, h₃, h₄, h₅, h₆, h₇⟩ := hi
  obtain ⟨h₁', h₂', h₃', h₄', h₅', h₆', h₇'⟩ := hi'
  rw [hashInput, hashInput] at h
  obtain ⟨_, h⟩ := lengthPrefixed_append_inj h₁ h₁' h
  obtain ⟨_, h⟩ := lengthPrefixed_append_inj h₂ h₂' h
  obtain ⟨_, h⟩ := lengthPrefixed_append_inj h₃ h₃' h
  obtain ⟨_, h⟩ := lengthPrefixed_append_inj h₄ h₄' h
  obtain ⟨_, h⟩ := lengthPrefixed_append_inj h₅ h₅' h
  obtain ⟨_, h⟩ := lengthPrefixed_append_inj h₆ h₆' h
  obtain ⟨_, h⟩ := lengthPrefixed_append_inj h₇ h₇' h
  refine ⟨?_, SharedSecret.mpintBytes_inj h⟩
  cases i
  cases i'
  simp_all

/-! ### Key derivation -/

/-- Key and initial nonce of one direction. -/
structure AeadKeys where
  key : ByteVec 16
  iv : ByteVec 12
  deriving DecidableEq, Repr

/-- Both directions' key material. -/
structure KeySet where
  clientToServer : AeadKeys
  serverToClient : AeadKeys
  deriving DecidableEq, Repr

/-- The blocks of an expansion: `base` is what the running hasher was fed and `block` the last block
it gave; each further block is the hash of everything before it. -/
def expandBlocks (C : Crypto) : Nat → Bytes → ByteVec 32 → Nat → Bytes
  | 0, _, block, need => block.toBytes.take need
  | fuel + 1, base, block, need =>
    if need ≤ 32 then block.toBytes.take need
    else
      block.toBytes ++
        expandBlocks C fuel (base ++ block.toBytes) (C.sha256 (base ++ block.toBytes)) (need - 32)

/-- An expansion gives as many bytes as asked for. -/
theorem length_expandBlocks (C : Crypto) {fuel need : Nat} (h : need ≤ 32 * (fuel + 1))
    (base : Bytes) (block : ByteVec 32) : (expandBlocks C fuel base block need).length = need := by
  induction fuel generalizing base block need with
  | zero =>
    rw [expandBlocks, length_take, length_toBytes]
    omega
  | succ _ ih =>
    rw [expandBlocks]
    split
    · rw [length_take, length_toBytes]
      omega
    · rw [length_append, length_toBytes, ih (by omega)]
      omega

/-- RFC 4253 §7.2 key expansion for one letter, as many bytes as the type asks for. -/
def deriveKey (C : Crypto) (kBytes : Bytes) (h : ExchangeHash) (letter : UInt8)
    (sessionId : SessionId) (n : Nat) : ByteVec n :=
  let base := kBytes ++ h.bytes.toBytes
  let block := C.sha256 (base ++ [letter] ++ sessionId.bytes.toBytes)
  ⟨expandBlocks C n base block n, length_expandBlocks C (by omega) base block⟩

/-! ### The expansion loop against the RFC -/

/-- The variables of the expansion loop: `base` is what the running hasher was fed, `block` the
block it gave last, and the first `filled` bytes of `out` are key. -/
structure Expansion where
  base : Bytes
  block : ByteVec 32
  out : Bytes
  filled : Nat

/-- The loop of `derive_key`: copies what still fits of the block, and feeds the block back to the
hasher for the next one. -/
def expandLoop (C : Crypto) : Nat → Expansion → Checked Bytes
  | 0, _ => .error .outOfFuel
  | fuel + 1, e => do
    let n := min 32 (← sub e.out.length e.filled)
    let out ← overwrite e.out e.filled (e.block.toBytes.take n)
    let filled := e.filled + n
    if filled = out.length then pure out
    else
      let base := e.base ++ e.block.toBytes
      expandLoop C fuel ⟨base, C.sha256 base, out, filled⟩

/-- `derive_key`: fills `out` for one letter. A pass fills at least one byte or ends the loop. -/
def deriveKeyInto (C : Crypto) (k : SharedSecret) (h : ExchangeHash) (letter : UInt8)
    (sessionId : SessionId) (out : Bytes) : Checked Bytes := do
  let base := (← k.mpint) ++ h.bytes.toBytes
  expandLoop C (out.length + 1)
    ⟨base, C.sha256 (base ++ [letter] ++ sessionId.bytes.toBytes), out, 0⟩

/-- `K1 || … || Ki` of RFC 4253 §7.2 for any hash: `K1` is the hash of `K`, `H`, the letter and the
session identifier, and each further block the hash of `K`, `H` and all blocks before it. -/
def rfcBlocks (hash : Bytes → ByteVec 32) (k h : Bytes) (letter : UInt8) (sessionId : Bytes) :
    Nat → Bytes
  | 0 => []
  | 1 => (hash (k ++ h ++ [letter] ++ sessionId)).toBytes
  | i + 2 =>
    rfcBlocks hash k h letter sessionId (i + 1) ++
      (hash (k ++ h ++ rfcBlocks hash k h letter sessionId (i + 1))).toBytes

section Expansion

variable {C : Crypto} {k h sessionId : Bytes} {letter : UInt8}

/-- Each block has the length of the hash. -/
theorem length_rfcBlocks (hash : Bytes → ByteVec 32) (i : Nat) :
    (rfcBlocks hash k h letter sessionId i).length = 32 * i := by
  induction i using rfcBlocks.induct with
  | case1 => rfl
  | case2 => rw [rfcBlocks, length_toBytes]
  | case3 i ih =>
    rw [rfcBlocks, length_append, ih, length_toBytes]
    omega

/-- The loop returns what it had filled, followed by the rest of the expansion. -/
theorem expandLoop_eq {fuel : Nat} {e : Expansion} (hfilled : e.filled ≤ e.out.length)
    (hfuel : e.out.length - e.filled ≤ 32 * fuel) :
    expandLoop C (fuel + 1) e = .ok (e.out.take e.filled ++
      expandBlocks C fuel e.base e.block (e.out.length - e.filled)) := by
  induction fuel generalizing e with
  | zero =>
    obtain ⟨base, block, out, filled⟩ := e
    obtain rfl : filled = out.length := by simp only at hfilled hfuel; omega
    simp [expandLoop, sub, overwrite, expandBlocks]
  | succ _ ih =>
    obtain ⟨base, block, out, filled⟩ := e
    dsimp only at hfilled hfuel ⊢
    have hcopied : (block.toBytes.take (min 32 (out.length - filled))).length =
        min 32 (out.length - filled) := by
      rw [length_take, length_toBytes]
      omega
    obtain ⟨_, hout', hlength, htake⟩ := exists_overwrite_eq_ok
      (show filled + (block.toBytes.take (min 32 (out.length - filled))).length ≤ out.length by
        omega)
    rw [hcopied] at htake
    rw [expandLoop, sub_ok hfilled, ok_bind]
    dsimp only
    rw [hout', ok_bind, expandBlocks]
    by_cases hlast : out.length - filled ≤ 32
    · -- The rest fits in this block, and nothing of the buffer is left after it.
      rw [Nat.min_eq_right hlast] at htake ⊢
      rw [if_pos (by omega), if_pos hlast, ← htake, take_of_length_le (by omega)]
      rfl
    · rw [Nat.min_eq_left (by omega)] at htake ⊢
      rw [if_neg (by omega), if_neg hlast, ih (by dsimp only; omega) (by dsimp only; omega)]
      have hblock : block.toBytes.take 32 = block.toBytes :=
        take_of_length_le (by rw [length_toBytes])
      dsimp only
      rw [htake, hlength, hblock, append_assoc, Nat.sub_sub]

/-- A longer stream begins with the shorter one. -/
theorem isPrefix_rfcBlocks (hash : Bytes → ByteVec 32) (i m : Nat) :
    rfcBlocks hash k h letter sessionId i <+: rfcBlocks hash k h letter sessionId (i + m) := by
  induction m with
  | zero => exact prefix_refl _
  | succ m ih =>
    refine ih.trans ?_
    rw [← Nat.add_assoc]
    cases i + m with
    | zero => exact nil_prefix
    | succ =>
      rw [rfcBlocks]
      exact prefix_append _ _

section Stream

variable {blocks : Nat → Bytes} (hlength : ∀ i, (blocks i).length = 32 * i)
  (hgrows : ∀ i m, blocks i <+: blocks (i + m))
include hlength hgrows

/-- How many blocks a stream has does not matter for the bytes that all of them have. -/
theorem take_blocks {n i j : Nat} (hi : n ≤ 32 * i) (hj : n ≤ 32 * j) :
    (blocks i).take n = (blocks j).take n := by
  have hle {a b : Nat} (hab : a ≤ b) (ha : n ≤ 32 * a) : (blocks a).take n = (blocks b).take n := by
    obtain ⟨m, rfl⟩ := Nat.exists_eq_add_of_le hab
    obtain ⟨_, hrest⟩ := hgrows a m
    rw [← hrest, take_append_of_le_length (by rw [hlength]; exact ha)]
  rcases Nat.le_total i j with hij | hji
  · exact hle hij hi
  · exact (hle hji hj).symm

/-- The last block of an output, of which only the start is used. -/
theorem blocks_append_take {i last need : Nat} {block : ByteVec 32}
    (hblock : blocks i ++ block.toBytes = blocks (i + 1)) (hneed : need ≤ 32)
    (hlast : 32 * i + need ≤ 32 * last) :
    blocks i ++ block.toBytes.take need = (blocks last).take (32 * i + need) := by
  have hall : (blocks i).take (32 * i + need) = blocks i :=
    take_of_length_le (by rw [hlength]; omega)
  rw [take_blocks hlength hgrows hlast (show 32 * i + need ≤ 32 * (i + 1) by omega), ← hblock,
    take_append, hall, hlength, Nat.add_sub_cancel_left]

/-- The loop invariant: after `i` blocks the hasher was fed `base` and these blocks, and what is
still to come continues the stream. -/
theorem blocks_append_expandBlocks {base : Bytes} {i last fuel need : Nat} {block : ByteVec 32}
    (hnext : ∀ i, blocks (i + 2) = blocks (i + 1) ++ (C.sha256 (base ++ blocks (i + 1))).toBytes)
    (hblock : blocks i ++ block.toBytes = blocks (i + 1)) (hfuel : need ≤ 32 * (fuel + 1))
    (hlast : 32 * i + need ≤ 32 * last) :
    blocks i ++ expandBlocks C fuel (base ++ blocks i) block need =
      (blocks last).take (32 * i + need) := by
  induction fuel generalizing i need block with
  | zero =>
    rw [expandBlocks]
    exact blocks_append_take hlength hgrows hblock hfuel hlast
  | succ _ ih =>
    rw [expandBlocks]
    by_cases hneed : need ≤ 32
    · rw [if_pos hneed]
      exact blocks_append_take hlength hgrows hblock hneed hlast
    · -- The block goes out whole and back into the hasher, which has then been fed one block more.
      have hfed : base ++ blocks i ++ block.toBytes = base ++ blocks (i + 1) := by
        rw [append_assoc, hblock]
      rw [if_neg hneed, hfed, ← append_assoc, hblock, ih (hnext i).symm (by omega) (by omega)]
      congr 1
      omega

end Stream

/-- `derive_key` fills its buffer with the key of the same length. -/
theorem deriveKeyInto_eq (C : Crypto) (k : SharedSecret) (h : ExchangeHash) (letter : UInt8)
    (sessionId : SessionId) (out : Bytes) :
    deriveKeyInto C k h letter sessionId out =
      .ok (deriveKey C k.mpintBytes h letter sessionId out.length).toBytes := by
  rw [deriveKeyInto, SharedSecret.mpint_eq, ok_bind]
  dsimp only
  rw [expandLoop_eq (Nat.zero_le _) (by dsimp only; omega)]
  rfl

/-- The key of a letter is the start of the RFC's stream. -/
theorem deriveKey_eq_take (C : Crypto) (kBytes : Bytes) (h : ExchangeHash) (letter : UInt8)
    (sessionId : SessionId) {n last : Nat} (hlast : n ≤ 32 * last) :
    (deriveKey C kBytes h letter sessionId n).toBytes =
      (rfcBlocks C.sha256 kBytes h.bytes.toBytes letter sessionId.bytes.toBytes last).take n := by
  have hlength (i : Nat) : (rfcBlocks C.sha256 kBytes h.bytes.toBytes letter
      sessionId.bytes.toBytes i).length = 32 * i := length_rfcBlocks _ i
  have hinv := blocks_append_expandBlocks hlength (isPrefix_rfcBlocks _) (fun _ => rfl) (i := 0) rfl
    (show n ≤ 32 * (n + 1) by omega) (show 32 * 0 + n ≤ 32 * last by omega)
  rw [rfcBlocks, nil_append, append_nil, Nat.mul_zero, Nat.zero_add] at hinv
  exact hinv

end Expansion

/-- **Key derivation is that of RFC 4253 §7.2.** For every secret, hash, letter, session identifier
and buffer the loop ends without a panic and the buffer holds the first bytes of `K1 || K2 || …`,
however many blocks that stream is continued for; so two outputs for the same inputs are one the
beginning of the other. -/
theorem key_derivation (C : Crypto) (k : SharedSecret) (h : ExchangeHash) (letter : UInt8)
    (sessionId : SessionId) :
    (∀ (out : Bytes) (more : Nat), deriveKeyInto C k h letter sessionId out =
      .ok ((rfcBlocks C.sha256 k.mpintBytes h.bytes.toBytes letter sessionId.bytes.toBytes
        ((out.length + 31) / 32 + more)).take out.length)) ∧
    ∀ out out' : Bytes, ∃ key key', deriveKeyInto C k h letter sessionId out = .ok key ∧
      deriveKeyInto C k h letter sessionId out' = .ok key' ∧ (key <+: key' ∨ key' <+: key) := by
  have hkey (out : Bytes) (more : Nat) := (deriveKeyInto_eq C k h letter sessionId out).trans
    (congrArg Except.ok (deriveKey_eq_take C k.mpintBytes h letter sessionId
      (show out.length ≤ 32 * ((out.length + 31) / 32 + more) by omega)))
  refine ⟨hkey, fun out out' => ?_⟩
  have hkey' := hkey out' ((out.length + 31) / 32)
  rw [Nat.add_comm] at hkey'
  refine ⟨_, _, hkey out ((out'.length + 31) / 32), hkey', ?_⟩
  rcases Nat.le_total out.length out'.length with hle | hle
  · exact .inl (take_prefix_take_left hle)
  · exact .inr (take_prefix_take_left hle)

/-! ### Keys of the cipher -/

/-- Derives the four values the cipher needs. -/
def deriveAes128GcmKeys (C : Crypto) (k : SharedSecret) (h : ExchangeHash)
    (sessionId : SessionId) : Checked KeySet := do
  let kBytes ← k.mpint
  pure
    { clientToServer :=
        { key := deriveKey C kBytes h 0x43 sessionId 16
          iv := deriveKey C kBytes h 0x41 sessionId 12 }
      serverToClient :=
        { key := deriveKey C kBytes h 0x44 sessionId 16
          iv := deriveKey C kBytes h 0x42 sessionId 12 } }

/-- The keys of a secret and a hash. -/
def keysOf (C : Crypto) (k : SharedSecret) (h : ExchangeHash) : KeySet where
  clientToServer :=
    { key := deriveKey C k.mpintBytes h 0x43 (.fromInitialExchange h) 16
      iv := deriveKey C k.mpintBytes h 0x41 (.fromInitialExchange h) 12 }
  serverToClient :=
    { key := deriveKey C k.mpintBytes h 0x44 (.fromInitialExchange h) 16
      iv := deriveKey C k.mpintBytes h 0x42 (.fromInitialExchange h) 12 }

/-- In the initial exchange the derived keys are a function of the secret and the hash. -/
theorem deriveAes128GcmKeys_eq (C : Crypto) (k : SharedSecret) (h : ExchangeHash) :
    deriveAes128GcmKeys C k h (.fromInitialExchange h) = .ok (keysOf C k h) := by
  rw [deriveAes128GcmKeys, SharedSecret.mpint_eq]
  rfl

end Tatami.Tcp
