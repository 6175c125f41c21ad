import Tatami.Lib.Octets

/-! # AES-128-GCM

The block cipher AES with 128-bit keys in Galois/counter mode, on numbers: a block is one 128-bit
number and a message body one number of as many bits as it has. In this form a seal can be evaluated
by the kernel.

* `Aes.encryptBlock` — the block cipher.
* `Gcm.encrypt`, `Gcm.decrypt` — the mode with 96-bit nonces and 128-bit tags.
* `Gcm.decrypt_encrypt` — what was sealed is opened under the same key, nonce and associated
  data. -/

namespace Aes

/-- The substitution box as one number: its sixteen rows, entry `0` in the highest byte. -/
def sboxTable : Nat := [
  0x637c777bf26b6fc53001672bfed7ab76, 0xca82c97dfa5947f0add4a2af9ca472c0,
  0xb7fd9326363ff7cc34a5e5f171d83115, 0x04c723c31896059a071280e2eb27b275,
  0x09832c1a1b6e5aa0523bd6b329e32f84, 0x53d100ed20fcb15b6acbbe394a4c58cf,
  0xd0efaafb434d338545f9027f503c9fa8, 0x51a3408f929d38f5bcb6da2110fff3d2,
  0xcd0c13ec5f974417c4a77e3d645d1973, 0x60814fdc222a908846eeb814de5e0bdb,
  0xe0323a0a4906245cc2d3ac629195e479, 0xe7c8376d8dd54ea96c56f4ea657aae08,
  0xba78252e1ca6b4c6e8dd741f4bbd8b8a, 0x703eb5664803f60e613557b986c11d9e,
  0xe1f8981169d98e949b1e87e9ce5528df, 0x8ca1890dbfe6426841992d0fb054bb16].foldl
    (fun acc row => acc * 2 ^ 128 + row) 0

/-- The substitution of one byte. -/
def sbox (x : Nat) : Nat := sboxTable >>> (8 * (255 - x)) % 256

/-- Byte `i` of a block, counted from the most significant end. -/
def byteAt (x i : Nat) : Nat := x >>> (8 * (15 - i)) % 256

/-- The block of sixteen bytes given by their index. -/
def ofBytes (f : Nat → Nat) : Nat := (List.range 16).foldl (fun acc i => acc * 256 + f i) 0

/-- Doubling in the field of 256 elements. -/
def double (x : Nat) : Nat := if x < 128 then 2 * x else 2 * x ^^^ 0x11b

/-- The substitution on every byte, and the rows rotated. -/
def subShift (x : Nat) : Nat := ofBytes fun i => sbox (byteAt x (5 * i % 16))

/-- The columns multiplied by the mixing matrix. -/
def mixColumns (x : Nat) : Nat := ofBytes fun i =>
  let a := byteAt x
  let column := i / 4 * 4
  let next := a (column + (i + 1) % 4)
  double (a i) ^^^ double next ^^^ next ^^^ a (column + (i + 2) % 4) ^^^ a (column + (i + 3) % 4)

/-- The next round key. -/
def nextKey (key rcon : Nat) : Nat :=
  let sub (i : Nat) := sbox (byteAt key i)
  let t := ((((sub 13 ^^^ rcon) * 256 + sub 14) * 256 + sub 15) * 256) + sub 12
  let w₀ := key >>> 96 ^^^ t
  let w₁ := key >>> 64 % 2 ^ 32 ^^^ w₀
  let w₂ := key >>> 32 % 2 ^ 32 ^^^ w₁
  let w₃ := key % 2 ^ 32 ^^^ w₂
  ((w₀ * 2 ^ 32 + w₁) * 2 ^ 32 + w₂) * 2 ^ 32 + w₃

/-- The full rounds whose round constants are given, then the last round, which mixes nothing. -/
def rounds : List Nat → Nat → Nat → Nat
  | [], key, x => subShift x ^^^ nextKey key 0x36
  | rcon :: rest, key, x =>
    rounds rest (nextKey key rcon) (mixColumns (subShift x) ^^^ nextKey key rcon)

/-- The block cipher with a 128-bit key. -/
def encryptBlock (key x : Nat) : Nat :=
  rounds [0x01, 0x02, 0x04, 0x08, 0x10, 0x20, 0x40, 0x80, 0x1b] key (x ^^^ key)

example : encryptBlock 0x000102030405060708090a0b0c0d0e0f 0x00112233445566778899aabbccddeeff =
    0x69c4e0d86a7b0430d8cdb78070b4c55a := by
  decide +kernel

end Aes

namespace Gcm

/-- Multiplication in the field of 2¹²⁸ elements, the first bit of a block being its constant
coefficient. -/
def mul (x y : Nat) : Nat :=
  ((List.range 128).foldl (fun (zv : Nat × Nat) i =>
    (if x.testBit (127 - i) then zv.1 ^^^ zv.2 else zv.1,
      if zv.2 % 2 = 1 then zv.2 >>> 1 ^^^ 0xe1 <<< 120 else zv.2 >>> 1)) (0, y)).1

/-- The blocks a byte string of `len` bytes and value `x` takes, the last one filled up with
zeros. -/
def blocksOf (len x : Nat) : List Nat :=
  let blocks := (len + 15) / 16
  let padded := x <<< (8 * (16 * blocks - len))
  (List.range blocks).map fun i => padded >>> (128 * (blocks - 1 - i)) % 2 ^ 128

/-- The keyed hash of a list of blocks. -/
def ghash (h : Nat) (blocks : List Nat) : Nat := blocks.foldl (fun y x => mul (y ^^^ x) h) 0

/-- The counter block of a nonce. The body is encrypted from counter two on; counter one hides the
tag. -/
def counterBlock (nonce counter : Nat) : Nat := nonce * 2 ^ 32 + counter % 2 ^ 32

/-- The first `len` bytes of the key stream. -/
def keystream (key nonce len : Nat) : Nat :=
  let blocks := (len + 15) / 16
  (List.range blocks).foldl
    (fun acc i => acc * 2 ^ 128 + Aes.encryptBlock key (counterBlock nonce (i + 2))) 0
      >>> (8 * (16 * blocks - len)) % 256 ^ len

/-- The tag over the associated data and the encrypted body. -/
def tag (key nonce : Nat) (aad sealed : Bytes) : ByteVec 16 :=
  let h := Aes.encryptBlock key 0
  let lengths := 8 * aad.length * 2 ^ 64 + 8 * sealed.length
  let s := ghash h (blocksOf aad.length (beNat aad) ++
    blocksOf sealed.length (beNat sealed) ++ [lengths])
  ⟨beBytes 16 (s ^^^ Aes.encryptBlock key (counterBlock nonce 1)), length_beBytes 16 _⟩

/-- A body combined with the key stream, which both encrypts and decrypts. -/
def mask (key nonce : Nat) (body : Bytes) : ByteVec body.length :=
  ⟨beBytes body.length (beNat body ^^^ keystream key nonce body.length), length_beBytes _ _⟩

/-- Combining with the key stream twice gives the body back. -/
theorem mask_mask (key nonce : Nat) (body : Bytes) :
    (mask key nonce (mask key nonce body).toBytes).toBytes = body := by
  have hpow : 256 ^ body.length = 2 ^ (8 * body.length) := by
    rw [Nat.pow_mul]
  have hstream : keystream key nonce body.length < 2 ^ (8 * body.length) := by
    rw [← hpow]
    exact Nat.mod_lt _ (Nat.pow_pos (by decide))
  have hbody : beNat body < 2 ^ (8 * body.length) := hpow ▸ beNat_lt body
  have hmask : beNat (mask key nonce body).toBytes =
      beNat body ^^^ keystream key nonce body.length :=
    beNat_beBytes (hpow ▸ Nat.xor_lt_two_pow hbody hstream)
  change beBytes (mask key nonce body).toBytes.length (beNat (mask key nonce body).toBytes ^^^
    keystream key nonce (mask key nonce body).toBytes.length) = body
  rw [hmask, ByteVec.length_toBytes, Nat.xor_assoc, Nat.xor_self, Nat.xor_zero, beBytes_beNat]

/-- Seals a body; refuses one longer than the counter can number. -/
def encrypt (key : ByteVec 16) (nonce : ByteVec 12) (aad body : Bytes) :
    Option (ByteVec body.length × ByteVec 16) :=
  if body.length ≤ 2 ^ 36 - 32 then
    let sealed := mask (beNat key.toBytes) (beNat nonce.toBytes) body
    some (sealed, tag (beNat key.toBytes) (beNat nonce.toBytes) aad sealed.toBytes)
  else none

/-- Opens a body when its tag is the right one. -/
def decrypt (key : ByteVec 16) (nonce : ByteVec 12) (aad body : Bytes) (t : ByteVec 16) :
    Option (ByteVec body.length) :=
  if body.length ≤ 2 ^ 36 - 16 ∧ t = tag (beNat key.toBytes) (beNat nonce.toBytes) aad body then
    some (mask (beNat key.toBytes) (beNat nonce.toBytes) body)
  else none

/-- What was sealed is opened under the same key, nonce and associated data. -/
theorem decrypt_encrypt {key : ByteVec 16} {nonce : ByteVec 12} {aad body : Bytes}
    {sealed : ByteVec body.length} {t : ByteVec 16}
    (h : encrypt key nonce aad body = some (sealed, t)) :
    (decrypt key nonce aad sealed.toBytes t).map (·.toBytes) = some body := by
  unfold encrypt at h
  split at h
  case isFalse => cases h
  case isTrue hlen =>
    cases h
    have hfits : (mask (beNat key.toBytes) (beNat nonce.toBytes) body).toBytes.length ≤
        2 ^ 36 - 16 := by
      rw [ByteVec.length_toBytes]
      omega
    rw [decrypt, if_pos ⟨hfits, rfl⟩, Option.map_some, mask_mask]

end Gcm
