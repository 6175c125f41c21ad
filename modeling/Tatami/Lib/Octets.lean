import Mathlib.Tactic.Ring
import Mathlib.Tactic.NormNum

/-! # Octet strings

Byte strings as lists of `UInt8`, big-endian numbers of a fixed width, and strings that carry their
own length in front.

* `Bytes`, `ByteVec n` — byte strings, and byte strings of a length fixed by the type.
* `beNat`, `beBytes` — the big-endian value of a byte string and the encoding of a number in a fixed
  number of bytes; they are inverse on the numbers that fit.
* `lengthPrefixed` — four bytes of length, then the string. It is self-delimiting
  (`lengthPrefixed_append_inj`): what follows it can be recovered. -/

/-- A string of octets. -/
abbrev Bytes := List UInt8

/-- A byte string whose length is fixed by its type (`[u8; n]`). -/
def ByteVec (n : Nat) := { b : Bytes // b.length = n }

namespace ByteVec

variable {n : Nat}

instance : DecidableEq (ByteVec n) := inferInstanceAs (DecidableEq { b : Bytes // b.length = n })

instance : Repr (ByteVec n) := ⟨fun v => reprPrec v.val⟩

/-- The bytes of a fixed-width string. -/
def toBytes (v : ByteVec n) : Bytes := v.val

/-- The bytes of a fixed-width string have the width of the type. -/
@[simp] theorem length_toBytes (v : ByteVec n) : v.toBytes.length = n := v.property

/-- Fixed-width strings are equal when their bytes are. -/
@[ext] theorem ext {v w : ByteVec n} (h : v.toBytes = w.toBytes) : v = w := Subtype.ext h

/-- The all-zero string (`[0; n]`). -/
def zero (n : Nat) : ByteVec n := ⟨List.replicate n 0, List.length_replicate⟩

instance : Inhabited (ByteVec n) := ⟨zero n⟩

/-- Reading a byte string as one of fixed width, when its length is right
(`TryFrom<&[u8]> for [u8; n]`). -/
def ofBytes? (n : Nat) (b : Bytes) : Option (ByteVec n) :=
  if h : b.length = n then some ⟨b, h⟩ else none

/-- `ofBytes?` answers exactly on the right length, with the same bytes. -/
theorem ofBytes?_eq_some_iff {b : Bytes} {v : ByteVec n} :
    ofBytes? n b = some v ↔ v.toBytes = b := by
  unfold ofBytes?
  constructor
  · intro h
    split at h
    · cases h
      rfl
    · cases h
  · rintro rfl
    exact dif_pos v.property

end ByteVec

/-! ### Big-endian numbers -/

/-- The value of a byte string read as a big-endian number. -/
def beNat (b : Bytes) : Nat := b.foldl (fun acc x => acc * 256 + x.toNat) 0

/-- The low `256 ^ width` part of `n` as `width` big-endian bytes. -/
def beBytes : Nat → Nat → Bytes
  | 0, _ => []
  | width + 1, n => UInt8.ofNat (n / 256 ^ width) :: beBytes width n

/-- `beBytes` writes as many bytes as asked for. -/
@[simp] theorem length_beBytes (width n : Nat) : (beBytes width n).length = width := by
  induction width with
  | zero => rfl
  | succ w ih => simp [beBytes, ih]

/-- Reading on from an accumulator shifts it by one byte per byte read. -/
theorem beNat_foldl (b : Bytes) (acc : Nat) :
    b.foldl (fun acc x => acc * 256 + x.toNat) acc = acc * 256 ^ b.length + beNat b := by
  unfold beNat
  induction b generalizing acc with
  | nil => simp
  | cons x _ ih =>
    simp only [List.foldl_cons, List.length_cons]
    rw [ih, ih (0 * 256 + x.toNat)]
    ring

/-- The empty string has value zero. -/
@[simp] theorem beNat_nil : beNat [] = 0 := rfl

/-- The first byte is the most significant one. -/
theorem beNat_cons (x : UInt8) (xs : Bytes) :
    beNat (x :: xs) = x.toNat * 256 ^ xs.length + beNat xs := by
  rw [beNat, List.foldl_cons, beNat_foldl]
  ring

/-- A byte string of length `n` is worth less than `256 ^ n`. -/
theorem beNat_lt (b : Bytes) : beNat b < 256 ^ b.length := by
  induction b with
  | nil => simp
  | cons x xs =>
    have hx : x.toNat + 1 ≤ 256 := x.toNat_lt
    have hstep : (x.toNat + 1) * 256 ^ xs.length ≤ 256 * 256 ^ xs.length :=
      Nat.mul_le_mul_right _ hx
    rw [beNat_cons, List.length_cons, Nat.pow_succ, Nat.mul_comm (256 ^ xs.length)]
    rw [Nat.add_mul] at hstep
    omega

/-- Encoding and reading back keeps the part of the number that fits. -/
theorem beNat_beBytes_mod (width n : Nat) : beNat (beBytes width n) = n % 256 ^ width := by
  induction width with
  | zero => simp [beBytes, Nat.mod_one]
  | succ w ih =>
    have hbyte : (UInt8.ofNat (n / 256 ^ w)).toNat = n / 256 ^ w % 256 := UInt8.toNat_ofNat'
    have hsplit : n % 256 ^ (w + 1) = n % 256 ^ w + 256 ^ w * (n / 256 ^ w % 256) :=
      Nat.mod_mul
    rw [beBytes, beNat_cons, length_beBytes, ih, hbyte, hsplit]
    ring

/-- Encoding and reading back a number that fits. -/
theorem beNat_beBytes {width n : Nat} (h : n < 256 ^ width) : beNat (beBytes width n) = n := by
  rw [beNat_beBytes_mod, Nat.mod_eq_of_lt h]

/-- Encoding depends on the number only modulo its range. -/
theorem beBytes_mod (width n k : Nat) (hk : width ≤ k) :
    beBytes width (n % 256 ^ k) = beBytes width n := by
  induction width with
  | zero => rfl
  | succ w ih =>
    have hdvd : 256 ∣ 256 ^ (k - w) := dvd_pow_self 256 (by omega)
    have hsplit : 256 ^ k = 256 ^ w * 256 ^ (k - w) := by
      rw [← Nat.pow_add]
      congr 1
      omega
    have hdiv : n % 256 ^ k / 256 ^ w = n / 256 ^ w % 256 ^ (k - w) := by
      rw [hsplit, Nat.mod_mul_right_div_self]
    rw [beBytes, beBytes, ih (by omega), hdiv]
    congr 1
    apply UInt8.toNat_inj.mp
    simp only [UInt8.toNat_ofNat']
    exact Nat.mod_mod_of_dvd _ hdvd

/-- Reading and encoding again gives the string back. -/
theorem beBytes_beNat (b : Bytes) : beBytes b.length (beNat b) = b := by
  induction b with
  | nil => rfl
  | cons x xs ih =>
    have hlt := beNat_lt xs
    have hpos : 0 < 256 ^ xs.length := Nat.pow_pos (by decide)
    have hdiv : (x.toNat * 256 ^ xs.length + beNat xs) / 256 ^ xs.length = x.toNat := by
      rw [Nat.mul_comm, Nat.mul_add_div hpos, Nat.div_eq_of_lt hlt, Nat.add_zero]
    have hmod : (x.toNat * 256 ^ xs.length + beNat xs) % 256 ^ xs.length = beNat xs := by
      rw [Nat.mul_comm, Nat.mul_add_mod, Nat.mod_eq_of_lt hlt]
    rw [List.length_cons, beBytes, beNat_cons, hdiv,
      ← beBytes_mod xs.length (x.toNat * 256 ^ xs.length + beNat xs) xs.length le_rfl, hmod, ih]
    simp

/-- Equal encodings of numbers that fit are encodings of one number. -/
theorem beBytes_inj {width m n : Nat} (hm : m < 256 ^ width) (hn : n < 256 ^ width)
    (h : beBytes width m = beBytes width n) : m = n := by
  rw [← beNat_beBytes hm, h, beNat_beBytes hn]

/-- Zeros in front do not change the integer. -/
theorem beNat_replicate_append (k : Nat) (b : Bytes) :
    beNat (List.replicate k 0 ++ b) = beNat b := by
  induction k with
  | zero => rfl
  | succ k ih =>
    rw [List.replicate_succ, List.cons_append, beNat_cons, ih]
    simp

/-- Two byte strings of one length that stand for the same integer are equal. -/
theorem bytes_eq_of_beNat_eq {a b : Bytes} (hlen : a.length = b.length) (h : beNat a = beNat b) :
    a = b := by
  rw [← beBytes_beNat a, ← beBytes_beNat b, hlen, h]

/-- What holds of the numbers below 256 holds of every byte. -/
theorem forall_byte {P : UInt8 → Prop} (h : ∀ n : Fin 256, P (UInt8.ofNat n)) (b : UInt8) :
    P b := by
  have hb := h ⟨b.toNat, b.toNat_lt⟩
  rwa [UInt8.ofNat_toNat] at hb

/-! ### Strings with a length in front -/

/-- Four bytes of length, then the string itself. -/
def lengthPrefixed (b : Bytes) : Bytes := beBytes 4 b.length ++ b

/-- A length-prefixed string is four bytes longer than its content. -/
@[simp] theorem length_lengthPrefixed (b : Bytes) : (lengthPrefixed b).length = 4 + b.length := by
  simp [lengthPrefixed]

/-- **Self-delimiting.** Of a length-prefixed string followed by anything, both parts can be
recovered. -/
theorem lengthPrefixed_append_inj {a b s t : Bytes} (ha : a.length < 2 ^ 32)
    (hb : b.length < 2 ^ 32) (h : lengthPrefixed a ++ s = lengthPrefixed b ++ t) :
    a = b ∧ s = t := by
  simp only [lengthPrefixed, List.append_assoc] at h
  obtain ⟨hlen, hrest⟩ := List.append_inj h (by simp)
  have hab : a.length = b.length := beBytes_inj (by simpa using ha) (by simpa using hb) hlen
  exact List.append_inj hrest hab
