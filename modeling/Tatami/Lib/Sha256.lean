import Tatami.Lib.Octets

/-! # SHA-256

The hash on numbers: a message block is one 512-bit number, a chaining value one
256-bit number, and the words of both are read off by shifting. In this form a hash can be evaluated
by the kernel.

* `Sha256.rounds` — the 64 rounds on a chaining value, with the message schedule running beside
  them.
* `Sha256.digest` — padding, the blocks in turn, and the 32 bytes of the last chaining value. -/

namespace Sha256

/-- Rotates a 32-bit word to the right. -/
def rotr (n x : Nat) : Nat := (x >>> n ||| x <<< (32 - n)) % 2 ^ 32

/-- The word that lies `bits` above the least significant end of a number. -/
def wordAt (x bits : Nat) : Nat := x >>> bits % 2 ^ 32

/-- The round constants, in the order they are used. -/
def roundConstants : List Nat := [
  0x428a2f98, 0x71374491, 0xb5c0fbcf, 0xe9b5dba5, 0x3956c25b, 0x59f111f1, 0x923f82a4, 0xab1c5ed5,
  0xd807aa98, 0x12835b01, 0x243185be, 0x550c7dc3, 0x72be5d74, 0x80deb1fe, 0x9bdc06a7, 0xc19bf174,
  0xe49b69c1, 0xefbe4786, 0x0fc19dc6, 0x240ca1cc, 0x2de92c6f, 0x4a7484aa, 0x5cb0a9dc, 0x76f988da,
  0x983e5152, 0xa831c66d, 0xb00327c8, 0xbf597fc7, 0xc6e00bf3, 0xd5a79147, 0x06ca6351, 0x14292967,
  0x27b70a85, 0x2e1b2138, 0x4d2c6dfc, 0x53380d13, 0x650a7354, 0x766a0abb, 0x81c2c92e, 0x92722c85,
  0xa2bfe8a1, 0xa81a664b, 0xc24b8b70, 0xc76c51a3, 0xd192e819, 0xd6990624, 0xf40e3585, 0x106aa070,
  0x19a4c116, 0x1e376c08, 0x2748774c, 0x34b0bcb5, 0x391c0cb3, 0x4ed8aa4a, 0x5b9cca4f, 0x682e6ff3,
  0x748f82ee, 0x78a5636f, 0x84c87814, 0x8cc70208, 0x90befffa, 0xa4506ceb, 0xbef9a3f7, 0xc67178f2]

/-- The chaining value a hash starts from. -/
def initial : Nat := 0x6a09e667bb67ae853c6ef372a54ff53a510e527f9b05688c1f83d9ab5be0cd19

/-- The schedule window one word on: the oldest word leaves and the next one comes in below. -/
def nextWindow (m : Nat) : Nat :=
  let w₁₅ := wordAt m 448
  let w₂ := wordAt m 32
  let s₀ := rotr 7 w₁₅ ^^^ rotr 18 w₁₅ ^^^ w₁₅ >>> 3
  let s₁ := rotr 17 w₂ ^^^ rotr 19 w₂ ^^^ w₂ >>> 10
  m % 2 ^ 480 * 2 ^ 32 + (s₁ + wordAt m 192 + s₀ + wordAt m 480) % 2 ^ 32

/-- One round: the constant `k` and the oldest word of the window go into the chaining value. -/
def round (v m k : Nat) : Nat :=
  let a := wordAt v 224
  let b := wordAt v 192
  let c := wordAt v 160
  let e := wordAt v 96
  let f := wordAt v 64
  let g := wordAt v 32
  let t₁ := wordAt v 0 + (rotr 6 e ^^^ rotr 11 e ^^^ rotr 25 e) +
    (e &&& f ^^^ (2 ^ 32 - 1 - e) &&& g) + k + wordAt m 480
  let t₂ := (rotr 2 a ^^^ rotr 13 a ^^^ rotr 22 a) + (a &&& b ^^^ a &&& c ^^^ b &&& c)
  -- the words move down by one place; the first and the fifth are new
  ((t₁ + t₂) % 2 ^ 32 * 2 ^ 96 + v >>> 160) * 2 ^ 128 +
    (wordAt v 128 + t₁) % 2 ^ 32 * 2 ^ 96 + v >>> 32 % 2 ^ 96

/-- The rounds of the given constants, with the schedule window `m`. -/
def rounds : List Nat → Nat → Nat → Nat
  | [], _, v => v
  | k :: ks, m, v => rounds ks (nextWindow m) (round v m k)

/-- Two chaining values added word by word. -/
def addWords (v w : Nat) : Nat :=
  [224, 192, 160, 128, 96, 64, 32, 0].foldl
    (fun acc bits => acc * 2 ^ 32 + (wordAt v bits + wordAt w bits) % 2 ^ 32) 0

/-- The chaining value after one more block. -/
def compress (v block : Nat) : Nat := addWords v (rounds roundConstants block v)

/-- The chaining value after the `n` lowest blocks of the padded message `m`, the highest of them
first. The two last cases are the same; the match makes the kernel evaluate one block before it goes
on to the next. -/
def absorb (m : Nat) : Nat → Nat → Nat
  | 0, v => v
  | n + 1, 0 => absorb m n (compress 0 (m >>> (512 * n) % 2 ^ 512))
  | n + 1, v + 1 => absorb m n (compress (v + 1) (m >>> (512 * n) % 2 ^ 512))

/-- The hash of a message: a one bit, zeros, and the length in bits fill up the last block. -/
def digest (msg : Bytes) : ByteVec 32 :=
  let blocks := (msg.length + 8) / 64 + 1
  let padded := (beNat msg * 256 + 128) <<< (8 * (64 * blocks - msg.length - 1)) + 8 * msg.length
  ⟨beBytes 32 (absorb padded blocks initial), length_beBytes 32 _⟩

example : beNat (digest [97, 98, 99]).toBytes =
    0xba7816bf8f01cfea414140de5dae2223b00361a396177a9cb410ff61f20015ad := by
  decide +kernel

end Sha256
