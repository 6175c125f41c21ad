import Tatami.Keys.BlobCodec
import Tatami.Lib.Fallible

/-! # RSA host private keys

The import of an RSA key pair: public-key policy, sizes, `d < n`, `p · q = n` on fixed-width
integers, and the CRT exponents that the container does not store. The integers are 8192 bits wide;
a magnitude is copied into a buffer of that size first, which would panic on a longer one.

`fromKeypair_gives_iff` says, in integers, which key pairs are imported and as what. -/

namespace Tatami.Keys

open Fallible Tatami.Wire Checked

/-! ### Fixed-width integers -/

/-- The number of bits of `U8192`, sealed so that its powers stay unevaluated. -/
@[irreducible] def wideBits : Nat := 8192

/-- `U8192`, with the exact operations of `crypto_bigint`. -/
abbrev U8192 := BitVec wideBits

/-- `from_be_slice`. -/
def U8192.fromBeSlice (bytes : Bytes) : U8192 := BitVec.ofNat wideBits (beNat bytes)

/-- `to_be_bytes`. -/
def U8192.toBeBytes (x : U8192) : Bytes := beBytes 1024 x.toNat

/-- `mul_wide`: the low and the high half of the product. -/
def U8192.mulWide (x y : U8192) : U8192 × U8192 :=
  (BitVec.ofNat wideBits (x.toNat * y.toNat),
    BitVec.ofNat wideBits (x.toNat * y.toNat / 2 ^ wideBits))

/-! ### The import -/

/-- An `Mpint` of a decoded container, of which the bytes of its positive value are read. -/
structure SshMpint where
  asPositiveBytes : Option Bytes
  deriving DecidableEq, Repr

/-- The key pair of a decoded container. -/
structure RsaKeypair where
  n : SshMpint
  e : SshMpint
  d : SshMpint
  p : SshMpint
  q : SshMpint
  iqmp : SshMpint
  deriving DecidableEq, Repr

/-- Why a key pair is not imported. -/
inductive PrivateKeyError where
  | malformed (reason : String)
  | publicKeyMismatch
  | policy (error : KeyError)
  deriving DecidableEq, Repr

/-- A validated RSA host private key. -/
structure RsaHostPrivateKey where
  publicKey : RsaPublicKey
  d : Bytes
  p : Bytes
  q : Bytes
  iqmp : Bytes
  dp : Bytes
  dq : Bytes
  deriving DecidableEq, Repr

/-- The magnitude of a positive integer. -/
def positive (m : SshMpint) (what : String) : Except PrivateKeyError Bytes :=
  match m.asPositiveBytes.filter fun b => !b.isEmpty with
  | some b => .ok b
  | none => .error (.malformed s!"RSA {what} is not a positive integer")

/-- A magnitude as a fixed-width integer, by way of a zeroed buffer. -/
def wide (m : Bytes) : Checked U8192 := do
  let start ← sub 1024 m.length
  let buf ← overwrite (List.replicate 1024 0) start m
  pure (U8192.fromBeSlice buf)

/-- The checks of the private exponent and of the factors. -/
def checkFactors (n d p q : U8192) : Except PrivateKeyError Unit :=
  if n ≤ d then .error .publicKeyMismatch
  else
    let (lo, hi) := U8192.mulWide p q
    if hi ≠ 0 ∨ lo ≠ n then .error .publicKeyMismatch else .ok ()

/-- A CRT exponent: the private exponent modulo a factor less one, without leading zeros. -/
def crt (d prime : U8192) : Fallible PrivateKeyError Bytes :=
  let pm1 := prime - 1
  if pm1 = 0 then throw .publicKeyMismatch
  else
    let bytes := U8192.toBeBytes (d % pm1)
    let start := (bytes.findIdx? (· != 0)).getD bytes.length
    liftM (slice bytes start bytes.length)

/-- The second half of `from_keypair`: the checks on fixed-width integers. -/
def RsaHostPrivateKey.fromMagnitudes (publicKey : RsaPublicKey) (n d p q iqmp : Bytes) :
    Fallible PrivateKeyError RsaHostPrivateKey := do
  let nw ← (wide n : Checked _)
  let dw ← (wide d : Checked _)
  let pw ← (wide p : Checked _)
  let qw ← (wide q : Checked _)
  checkFactors nw dw pw qw
  let dp ← crt dw pw
  let dq ← crt dw qw
  if dp.isEmpty || dq.isEmpty then throw .publicKeyMismatch
  else pure { publicKey, d, p, q, iqmp, dp, dq }

/-- Imports a key pair. -/
def RsaHostPrivateKey.fromKeypair (pair : RsaKeypair) :
    Fallible PrivateKeyError RsaHostPrivateKey := do
  let n ← positive pair.n "n"
  let e ← positive pair.e "e"
  let publicKey ←
    ((RsaPublicKey.fromComponents e n).mapError PrivateKeyError.policy : Except _ RsaPublicKey)
  let d ← positive pair.d "d"
  let p ← positive pair.p "p"
  let q ← positive pair.q "q"
  let iqmp ← positive pair.iqmp "iqmp"
  if n.length < d.length || n.length < p.length || n.length < q.length ||
      p.length < iqmp.length then
    throw .publicKeyMismatch
  else RsaHostPrivateKey.fromMagnitudes publicKey n d p q iqmp

/-! ### The public-key policy, in integers -/

/-- The policy of the public key: an odd modulus of 2048 to 8192 bits and an odd exponent of at
least 3 below 2³². -/
structure RsaPolicy (e n : Nat) : Prop where
  exponent_odd : e % 2 = 1
  exponent_min : 3 ≤ e
  exponent_max : e < 2 ^ 32
  modulus_odd : n % 2 = 1
  modulus_min : 2 ^ 2047 ≤ n
  modulus_max : n < 2 ^ 8192

/-- Powers of 256 are powers of two. -/
theorem pow_256 (k : Nat) : 256 ^ k = 2 ^ (8 * k) := by
  rw [Nat.pow_mul]

/-- The value of a byte lies between the powers of two of its bits. -/
theorem byteBits_bounds {b : UInt8} (h : b ≠ 0) :
    1 ≤ byteBits b ∧ 2 ^ (byteBits b - 1) ≤ b.toNat ∧ b.toNat < 2 ^ byteBits b := by
  have hne : b.toNat ≠ 0 := fun hzero => h (UInt8.toNat_inj.mp hzero)
  rw [byteBits, if_neg h, Nat.add_sub_cancel]
  exact ⟨by omega, Nat.log2_self_le hne, Nat.lt_log2_self⟩

variable {d iqmp m n p q : Bytes}

/-- The value of a magnitude lies between the powers of two of its bits. -/
theorem Magnitude.bitLen_bounds (h : Magnitude m) :
    1 ≤ bitLen m ∧ 2 ^ (bitLen m - 1) ≤ beNat m ∧ beNat m < 2 ^ bitLen m := by
  match m, h with
  | [], h => exact absurd rfl h.1
  | top :: rest, h =>
    have htop : top ≠ 0 := fun hzero => h.2 (by rw [hzero]; rfl)
    obtain ⟨hpos, hlow, hhigh⟩ := byteBits_bounds htop
    have hrest := beNat_lt rest
    rw [pow_256] at hrest
    rw [bitLen, beNat_cons, pow_256, Nat.mul_comm rest.length]
    refine ⟨by omega, ?_, ?_⟩
    · calc 2 ^ (8 * rest.length + byteBits top - 1)
          = 2 ^ (byteBits top - 1) * 2 ^ (8 * rest.length) := by
            rw [← Nat.pow_add]
            congr 1
            omega
        _ ≤ top.toNat * 2 ^ (8 * rest.length) := Nat.mul_le_mul_right _ hlow
        _ ≤ _ := Nat.le_add_right _ _
    · calc top.toNat * 2 ^ (8 * rest.length) + beNat rest
          < top.toNat * 2 ^ (8 * rest.length) + 2 ^ (8 * rest.length) := by omega
        _ = (top.toNat + 1) * 2 ^ (8 * rest.length) := (Nat.succ_mul _ _).symm
        _ ≤ 2 ^ byteBits top * 2 ^ (8 * rest.length) := Nat.mul_le_mul_right _ hhigh
        _ = 2 ^ (8 * rest.length + byteBits top) := by rw [← Nat.pow_add, Nat.add_comm]

/-- **Bit length**: a magnitude is below a power of two exactly if it has no more bits. -/
theorem Magnitude.bitLen_le_iff (h : Magnitude m) (k : Nat) : bitLen m ≤ k ↔ beNat m < 2 ^ k := by
  obtain ⟨hpos, hlow, hhigh⟩ := h.bitLen_bounds
  constructor
  · intro hle
    exact Nat.lt_of_lt_of_le hhigh (Nat.pow_le_pow_right (by decide) hle)
  · intro hlt
    have := (Nat.pow_lt_pow_iff_right (by decide)).mp (Nat.lt_of_le_of_lt hlow hlt)
    omega

/-- A last digit is added at the end. -/
theorem beNat_concat (b : Bytes) (x : UInt8) : beNat (b ++ [x]) = beNat b * 256 + x.toNat := by
  simp [beNat]

/-- The last byte tells whether a number is even. -/
theorem lastEven_iff (h : m ≠ []) : lastEven m = true ↔ beNat m % 2 = 0 := by
  obtain ⟨init, x, rfl⟩ : ∃ init x, m = init ++ [x] :=
    ⟨_, _, (List.dropLast_concat_getLast h).symm⟩
  have hlow : (x &&& 1 == 0) = true ↔ x.toNat % 2 = 0 := by
    rw [beq_iff_eq, ← UInt8.toNat_inj, UInt8.toNat_and]
    exact Nat.and_one_is_mod _ ▸ Iff.rfl
  rw [lastEven, List.getLast?_append, List.getLast?_singleton, Option.some_or, Option.any_some,
    hlow, beNat_concat]
  omega

/-- A magnitude has at most four bytes exactly if it is below 2³². -/
theorem Magnitude.length_le_four_iff (h : Magnitude m) :
    m.length ≤ maxExponentBytes ↔ beNat m < 2 ^ 32 := by
  have hpow : (2 : Nat) ^ 32 = 256 ^ 4 := by decide
  rw [hpow]
  constructor
  · intro hle
    exact Nat.lt_of_lt_of_le (beNat_lt m) (Nat.pow_le_pow_right (by decide) hle)
  · intro hlt
    have := (Nat.pow_lt_pow_iff_right (by decide)).mp (Nat.lt_of_le_of_lt h.le_beNat hlt)
    unfold maxExponentBytes
    omega

/-- The one-byte check refuses the numbers below 3. -/
theorem Magnitude.small_iff (h : Magnitude m) :
    (m.length == 1 && decide (m.getD 0 0 < 3)) = true ↔ beNat m < 3 := by
  rw [Bool.and_eq_true, beq_iff_eq, decide_eq_true_eq]
  match m, h with
  | [], h => exact absurd rfl h.1
  | [x], _ => simp [beNat, UInt8.lt_iff_toNat_lt]
  | x :: y :: rest, h =>
    have hlarge : 256 ^ (rest.length + 1) ≤ beNat (x :: y :: rest) := h.le_beNat
    have hpow : 256 ≤ 256 ^ (rest.length + 1) := Nat.le_self_pow (Nat.succ_ne_zero _) 256
    constructor
    · intro hsmall
      simp at hsmall
    · omega

/-- **The policy is checked in integers.** -/
theorem RsaPublicKey.fromComponents_ok_iff {e : Bytes} (he : Magnitude e) (hn : Magnitude n)
    {key : RsaPublicKey} :
    RsaPublicKey.fromComponents e n = .ok key ↔ key = ⟨e, n⟩ ∧ RsaPolicy (beNat e) (beNat n) := by
  have hmin : minModulusBits ≤ bitLen n ↔ 2 ^ 2047 ≤ beNat n := by
    rw [← Nat.not_lt (a := beNat n), ← hn.bitLen_le_iff 2047]
    unfold minModulusBits
    omega
  have hmax : bitLen n ≤ maxModulusBits ↔ beNat n < 2 ^ 8192 := hn.bitLen_le_iff 8192
  have hodd {m : Bytes} (h : Magnitude m) : ¬ lastEven m = true ↔ beNat m % 2 = 1 := by
    rw [lastEven_iff h.1]
    omega
  unfold RsaPublicKey.fromComponents
  rw [if_neg he.2, if_neg hn.2]
  constructor
  · intro h
    split at h
    · cases h
    next hexponent =>
    dsimp only at h
    split at h
    · cases h
    next hmodulus =>
    cases h
    simp only [Bool.or_eq_true, not_or, decide_eq_true_eq, Nat.not_lt] at hexponent hmodulus
    obtain ⟨⟨⟨-, hlen⟩, hexpOdd⟩, hsmall⟩ := hexponent
    obtain ⟨⟨hbits, hbits'⟩, hmodOdd⟩ := hmodulus
    rw [he.small_iff] at hsmall
    exact ⟨rfl, (hodd he).mp hexpOdd, Nat.not_lt.mp hsmall, he.length_le_four_iff.mp hlen,
      (hodd hn).mp hmodOdd, hmin.mp hbits, hmax.mp hbits'⟩
  · rintro ⟨rfl, hpolicy⟩
    have hempty : ¬ e.isEmpty = true := fun h => he.1 (List.isEmpty_iff.mp h)
    rw [if_neg, if_neg]
    · simp only [Bool.or_eq_true, not_or, decide_eq_true_eq, Nat.not_lt]
      exact ⟨⟨hmin.mpr hpolicy.modulus_min, hmax.mpr hpolicy.modulus_max⟩,
        (hodd hn).mpr hpolicy.modulus_odd⟩
    · simp only [Bool.or_eq_true, not_or, decide_eq_true_eq, Nat.not_lt]
      refine ⟨⟨⟨hempty, he.length_le_four_iff.mpr hpolicy.exponent_max⟩,
        (hodd he).mpr hpolicy.exponent_odd⟩, ?_⟩
      rw [he.small_iff]
      exact Nat.not_lt.mpr hpolicy.exponent_min

/-! ### Fixed-width integers are exact here -/

theorem two_pow_wideBits : 2 ^ wideBits = 256 ^ 1024 := by
  rw [pow_256, wideBits]

/-- What fits into 1024 bytes fits into the integers. -/
theorem beNat_lt_of_length (h : m.length ≤ 1024) : beNat m < 2 ^ wideBits := by
  have hpow (k : Nat) (hk : m.length ≤ k) : beNat m < 256 ^ k :=
    Nat.lt_of_lt_of_le (beNat_lt m) (Nat.pow_le_pow_right (by decide) hk)
  rw [two_pow_wideBits]
  exact hpow 1024 h

/-- A magnitude of at most 1024 bytes is widened without a panic and keeps its value. -/
theorem exists_wide_eq (h : m.length ≤ 1024) : ∃ x : U8192, wide m = .ok x ∧ x.toNat = beNat m := by
  have hroom : 1024 - m.length + m.length ≤ (List.replicate 1024 (0 : UInt8)).length := by
    rw [List.length_replicate]
    omega
  have hbuf : overwrite (List.replicate 1024 0) (1024 - m.length) m =
      .ok (List.replicate (1024 - m.length) 0 ++ m) := by
    rw [overwrite, if_pos hroom, List.take_replicate, List.drop_replicate]
    have hmin : min (1024 - m.length) 1024 = 1024 - m.length := by omega
    have hrest : 1024 - (1024 - m.length + m.length) = 0 := by omega
    rw [hmin, hrest, List.replicate_zero, List.append_nil]
  refine ⟨U8192.fromBeSlice (List.replicate (1024 - m.length) 0 ++ m), ?_, ?_⟩
  · rw [wide, sub_ok h, ok_bind, hbuf, ok_bind]
    rfl
  · rw [U8192.fromBeSlice, beNat_replicate_append, BitVec.toNat_ofNat,
      Nat.mod_eq_of_lt (beNat_lt_of_length h)]

/-- The high half of a product is zero exactly if the product fits. -/
theorem U8192.mulWide_hi_eq_zero_iff {x y : U8192} :
    (U8192.mulWide x y).2 = 0 ↔ x.toNat * y.toNat < 2 ^ wideBits := by
  have hwide : x.toNat * y.toNat < 2 ^ wideBits * 2 ^ wideBits := Nat.mul_lt_mul'' x.isLt y.isLt
  have hhalf : x.toNat * y.toNat / 2 ^ wideBits < 2 ^ wideBits := Nat.div_lt_of_lt_mul hwide
  rw [U8192.mulWide, ← BitVec.toNat_inj, BitVec.toNat_ofNat, Nat.mod_eq_of_lt hhalf]
  change _ = 0 ↔ _
  rw [Nat.div_eq_zero_iff_lt (Nat.two_pow_pos wideBits)]

/-- **The product is compared in full width.** -/
theorem checkFactors_ok_iff {n d p q : U8192} {u : Unit} :
    checkFactors n d p q = .ok u ↔ d.toNat < n.toNat ∧ p.toNat * q.toNat = n.toNat := by
  have hlo : (U8192.mulWide p q).1 = n ↔ p.toNat * q.toNat % 2 ^ wideBits = n.toNat := by
    rw [U8192.mulWide, ← BitVec.toNat_inj, BitVec.toNat_ofNat]
  unfold checkFactors
  by_cases hd : n ≤ d
  · rw [if_pos hd]
    exact ⟨nofun, fun h => absurd (BitVec.le_def.mp hd) (Nat.not_le.mpr h.1)⟩
  · rw [if_neg hd]
    have hlt : d.toNat < n.toNat := Nat.not_le.mp fun hle => hd (BitVec.le_def.mpr hle)
    dsimp only
    split
    · next hbad =>
      refine ⟨nofun, fun h => absurd hbad ?_⟩
      have hfits : p.toNat * q.toNat < 2 ^ wideBits := h.2 ▸ n.isLt
      rw [not_or, not_not, not_not, U8192.mulWide_hi_eq_zero_iff, hlo, Nat.mod_eq_of_lt hfits]
      exact ⟨hfits, h.2⟩
    · next hgood =>
      rw [not_or, not_not, not_not, U8192.mulWide_hi_eq_zero_iff, hlo] at hgood
      rw [Nat.mod_eq_of_lt hgood.1] at hgood
      exact ⟨fun _ => ⟨hlt, hgood.2⟩, fun _ => rfl⟩

/-- The bytes of a number without leading zeros. -/
def minimalBytes (v : Nat) : Bytes := stripLeadingZeros (beBytes 1024 v)

/-- The minimal bytes of a number have its value. -/
theorem beNat_minimalBytes {v : Nat} (h : v < 2 ^ wideBits) : beNat (minimalBytes v) = v := by
  have hstrip := replicate_append_stripLeadingZeros (beBytes 1024 v)
  have hvalue : beNat (beBytes 1024 v) = v := beNat_beBytes (Nat.lt_of_lt_of_eq h two_pow_wideBits)
  rw [← hstrip, beNat_replicate_append] at hvalue
  exact hvalue

theorem head_minimalBytes_ne (v : Nat) : (minimalBytes v).head? ≠ some 0 := by
  intro hzero
  obtain ⟨_, hrest⟩ := List.head?_eq_some_iff.mp hzero
  exact head_stripLeadingZeros_ne_zero hrest rfl

/-- A magnitude is a positive number. -/
theorem Magnitude.pos (h : Magnitude m) : 1 ≤ beNat m :=
  Nat.le_trans (Nat.pow_pos (by decide)) h.le_beNat

theorem minimalBytes_eq_nil_iff {v : Nat} (h : v < 2 ^ wideBits) : minimalBytes v = [] ↔ v = 0 := by
  have hvalue := beNat_minimalBytes h
  constructor
  · intro hnil
    rw [hnil] at hvalue
    exact hvalue.symm
  · rintro rfl
    by_contra hne
    have hpos := Magnitude.pos ⟨hne, head_minimalBytes_ne 0⟩
    omega

theorem magnitude_minimalBytes {v : Nat} (h : v < 2 ^ wideBits) (hne : v ≠ 0) :
    Magnitude (minimalBytes v) :=
  ⟨mt (minimalBytes_eq_nil_iff h).mp hne, head_minimalBytes_ne v⟩

/-- A CRT exponent is the remainder. -/
theorem crt_gives_iff {d prime : U8192} (hprime : 1 ≤ prime.toNat) :
    Gives (crt d prime) m ↔
      prime.toNat ≠ 1 ∧ m = minimalBytes (d.toNat % (prime.toNat - 1)) := by
  have hone : (1 : U8192).toNat = 1 := BitVec.toNat_one (by rw [wideBits]; decide)
  have hsub : (prime - 1).toNat = prime.toNat - 1 := by
    rw [BitVec.toNat_sub_of_le (BitVec.le_def.mpr (hone ▸ hprime)), hone]
  have hzero : prime - 1 = 0 ↔ prime.toNat = 1 := by
    rw [← BitVec.toNat_inj, hsub]
    change _ = 0 ↔ _
    omega
  unfold crt
  dsimp only
  by_cases hfactor : prime.toNat = 1
  · rw [if_pos (hzero.mpr hfactor)]
    exact ⟨fun h => absurd h not_gives_throw, fun h => absurd hfactor h.1⟩
  · rw [if_neg fun h => hfactor (hzero.mp h), gives_liftChecked_iff,
      ← List.findIdx_eq_getD_findIdx?, slice_ok List.findIdx_le_length (Nat.le_refl _),
      List.take_length, Except.ok.injEq, U8192.toBeBytes, BitVec.toNat_umod, hsub, minimalBytes,
      stripLeadingZeros, List.dropWhile_eq_drop_findIdx_not]
    exact ⟨fun h => ⟨hfactor, h.symm⟩, fun h => h.2.symm⟩

/-- Computing a CRT exponent does not panic. -/
theorem crt_safe (d prime : U8192) : Safe (crt d prime) := by
  unfold crt
  dsimp only
  split
  · exact safe_throw _
  · rw [← List.findIdx_eq_getD_findIdx?]
    exact safe_liftChecked ⟨_, slice_ok List.findIdx_le_length (Nat.le_refl _)⟩

/-! ### Which key pairs are imported -/

/-- The integers of the pair yield these minimal magnitudes. -/
structure Yields (pair : RsaKeypair) (n e d p q iqmp : Bytes) : Prop where
  n_eq : pair.n.asPositiveBytes = some n ∧ Magnitude n
  e_eq : pair.e.asPositiveBytes = some e ∧ Magnitude e
  d_eq : pair.d.asPositiveBytes = some d ∧ Magnitude d
  p_eq : pair.p.asPositiveBytes = some p ∧ Magnitude p
  q_eq : pair.q.asPositiveBytes = some q ∧ Magnitude q
  iqmp_eq : pair.iqmp.asPositiveBytes = some iqmp ∧ Magnitude iqmp

/-- What is asked of the integers of a key. -/
structure SoundKey (n e d p q : Nat) : Prop where
  product : p * q = n
  private_lt : d < n
  one_lt_p : 1 < p
  one_lt_q : 1 < q
  dp_ne_zero : d % (p - 1) ≠ 0
  dq_ne_zero : d % (q - 1) ≠ 0
  policy : RsaPolicy e n

/-- A magnitude is taken as it is. -/
theorem positive_eq {m : SshMpint} {what : String} {b : Bytes}
    (h : m.asPositiveBytes = some b ∧ Magnitude b) : positive m what = .ok b := by
  have hne : (!b.isEmpty) = true := by simp [h.2.1]
  rw [positive, h.1, Option.filter_some, if_pos hne]

theorem fromMagnitudes_gives_iff {publicKey : RsaPublicKey} (hn : n.length ≤ 1024)
    (hd : d.length ≤ 1024) (hp : p.length ≤ 1024) (hq : q.length ≤ 1024) (hmp : Magnitude p)
    (hmq : Magnitude q) {key : RsaHostPrivateKey} :
    Gives (RsaHostPrivateKey.fromMagnitudes publicKey n d p q iqmp) key ↔
      (beNat d < beNat n ∧ beNat p * beNat q = beNat n) ∧ beNat p ≠ 1 ∧ beNat q ≠ 1 ∧
      beNat d % (beNat p - 1) ≠ 0 ∧ beNat d % (beNat q - 1) ≠ 0 ∧
      key = { publicKey, d, p, q, iqmp, dp := minimalBytes (beNat d % (beNat p - 1)),
              dq := minimalBytes (beNat d % (beNat q - 1)) } := by
  obtain ⟨_, hnw, hnv⟩ := exists_wide_eq hn
  obtain ⟨_, hdw, hdv⟩ := exists_wide_eq hd
  obtain ⟨_, hpw, hpv⟩ := exists_wide_eq hp
  obtain ⟨_, hqw, hqv⟩ := exists_wide_eq hq
  have hrem (v : Nat) : beNat d % v < 2 ^ wideBits :=
    Nat.lt_of_le_of_lt (Nat.mod_le _ _) (beNat_lt_of_length hd)
  unfold RsaHostPrivateKey.fromMagnitudes
  simp only [hnw, hdw, hpw, hqw, liftChecked_ok, pure_bind, gives_bind_iff, gives_liftExcept_iff,
    checkFactors_ok_iff, crt_gives_iff (hpv ▸ hmp.pos), crt_gives_iff (hqv ▸ hmq.pos), hnv, hdv,
    hpv, hqv]
  constructor
  · rintro ⟨-, hfactors, dp, ⟨hpne, rfl⟩, dq, ⟨hqne, rfl⟩, h⟩
    split at h
    · exact absurd h not_gives_throw
    · next hempty =>
      rw [gives_pure_iff] at h
      simp only [Bool.or_eq_true, List.isEmpty_iff, not_or, minimalBytes_eq_nil_iff (hrem _)]
        at hempty
      exact ⟨hfactors, hpne, hqne, hempty.1, hempty.2, h⟩
  · rintro ⟨hfactors, hpne, hqne, hdp, hdq, rfl⟩
    refine ⟨(), hfactors, _, ⟨hpne, rfl⟩, _, ⟨hqne, rfl⟩, ?_⟩
    rw [if_neg, gives_pure_iff]
    simp only [Bool.or_eq_true, List.isEmpty_iff, not_or, minimalBytes_eq_nil_iff (hrem _)]
    exact ⟨hdp, hdq⟩

/-- The fixed-width half does not panic. -/
theorem fromMagnitudes_safe (publicKey : RsaPublicKey) (hn : n.length ≤ 1024) (hd : d.length ≤ 1024)
    (hp : p.length ≤ 1024) (hq : q.length ≤ 1024) :
    Safe (RsaHostPrivateKey.fromMagnitudes publicKey n d p q iqmp) := by
  have hwide {m : Bytes} (h : m.length ≤ 1024) :
      Safe (liftM (wide m) : Fallible PrivateKeyError U8192) := by
    obtain ⟨x, hx, -⟩ := exists_wide_eq h
    exact safe_liftChecked ⟨x, hx⟩
  refine Safe.bind (hwide hn) fun nw => Safe.bind (hwide hd) fun dw => Safe.bind (hwide hp)
    fun pw => Safe.bind (hwide hq) fun qw => Safe.bind (safe_liftExcept _) fun _ =>
      Safe.bind (crt_safe _ _) fun dp => Safe.bind (crt_safe _ _) fun dq => ?_
  split
  · exact safe_throw _
  · exact safe_pure _

/-- The sizes of a sound key: a factor and the private exponent are no longer than the modulus,
being no larger. -/
theorem Yields.lengths {pair : RsaKeypair} {e : Bytes} (h : Yields pair n e d p q iqmp)
    (hsound : SoundKey (beNat n) (beNat e) (beNat d) (beNat p) (beNat q)) :
    e.length ≤ 4 ∧ n.length ≤ 1024 ∧ d.length ≤ n.length ∧ p.length ≤ n.length ∧
      q.length ≤ n.length := by
  have hpublic := (RsaPublicKey.fromComponents_ok_iff h.e_eq.2 h.n_eq.2).mpr ⟨rfl, hsound.policy⟩
  obtain ⟨-, -, he, hn⟩ := RsaPublicKey.fromComponents_ok hpublic
  have hp : beNat p ≤ beNat n := hsound.product ▸ Nat.le_mul_of_pos_right _ h.q_eq.2.pos
  have hq : beNat q ≤ beNat n := hsound.product ▸ Nat.le_mul_of_pos_left _ h.p_eq.2.pos
  exact ⟨he, hn, h.d_eq.2.length_le hsound.private_lt.le, h.p_eq.2.length_le hp,
    h.q_eq.2.length_le hq⟩

/-- **Which key pairs are imported**, in integers, and as what. -/
theorem fromKeypair_gives_iff {pair : RsaKeypair} {e : Bytes} (h : Yields pair n e d p q iqmp)
    {key : RsaHostPrivateKey} :
    Gives (RsaHostPrivateKey.fromKeypair pair) key ↔
      SoundKey (beNat n) (beNat e) (beNat d) (beNat p) (beNat q) ∧ iqmp.length ≤ p.length ∧
      key = { publicKey := ⟨e, n⟩, d, p, q, iqmp, dp := minimalBytes (beNat d % (beNat p - 1)),
              dq := minimalBytes (beNat d % (beNat q - 1)) } := by
  unfold RsaHostPrivateKey.fromKeypair
  simp only [gives_bind_iff, gives_liftExcept_iff, positive_eq h.n_eq, positive_eq h.e_eq,
    positive_eq h.d_eq, positive_eq h.p_eq, positive_eq h.q_eq, positive_eq h.iqmp_eq,
    Except.ok.injEq, exists_eq_left', Except.mapError_ok_iff]
  constructor
  · rintro ⟨publicKey, hpublic, hgives⟩
    have hlen := (RsaPublicKey.fromComponents_ok hpublic).2.2.2
    obtain ⟨rfl, hpolicy⟩ := (RsaPublicKey.fromComponents_ok_iff h.e_eq.2 h.n_eq.2).mp hpublic
    split at hgives
    · exact absurd hgives not_gives_throw
    · next hsizes =>
      simp only [Bool.or_eq_true, decide_eq_true_eq, not_or, Nat.not_lt] at hsizes
      obtain ⟨⟨⟨hd, hp⟩, hq⟩, hiqmp⟩ := hsizes
      obtain ⟨⟨hlt, hproduct⟩, hpne, hqne, hdp, hdq, rfl⟩ := (fromMagnitudes_gives_iff hlen
        (hd.trans hlen) (hp.trans hlen) (hq.trans hlen) h.p_eq.2 h.q_eq.2).mp hgives
      have hppos := h.p_eq.2.pos
      have hqpos := h.q_eq.2.pos
      exact ⟨⟨hproduct, hlt, by omega, by omega, hdp, hdq, hpolicy⟩, hiqmp, rfl⟩
  · rintro ⟨hsound, hiqmp, rfl⟩
    have hpublic := (RsaPublicKey.fromComponents_ok_iff h.e_eq.2 h.n_eq.2).mpr
      ⟨rfl, hsound.policy⟩
    obtain ⟨-, hlen, hd, hp, hq⟩ := h.lengths hsound
    refine ⟨⟨e, n⟩, hpublic, ?_⟩
    rw [if_neg, fromMagnitudes_gives_iff hlen (hd.trans hlen) (hp.trans hlen) (hq.trans hlen)
      h.p_eq.2 h.q_eq.2]
    · exact ⟨⟨hsound.private_lt, hsound.product⟩, hsound.one_lt_p.ne', hsound.one_lt_q.ne',
        hsound.dp_ne_zero, hsound.dq_ne_zero, rfl⟩
    · simp only [Bool.or_eq_true, decide_eq_true_eq, not_or, Nat.not_lt]
      exact ⟨⟨⟨hd, hp⟩, hq⟩, hiqmp⟩

/-- **The import does not panic**: what reaches the fixed-width integers fits them. -/
theorem fromKeypair_safe (pair : RsaKeypair) : Safe (RsaHostPrivateKey.fromKeypair pair) := by
  refine Safe.bind (safe_liftExcept _) fun n => Safe.bind (safe_liftExcept _) fun e =>
    Safe.bind_of_gives (safe_liftExcept _) fun publicKey hpublic => Safe.bind (safe_liftExcept _)
      fun d => Safe.bind (safe_liftExcept _) fun p => Safe.bind (safe_liftExcept _) fun q =>
        Safe.bind (safe_liftExcept _) fun iqmp => ?_
  rw [gives_liftExcept_iff, Except.mapError_ok_iff] at hpublic
  have hlen := (RsaPublicKey.fromComponents_ok hpublic).2.2.2
  split
  · exact safe_throw _
  · next hsizes =>
    simp only [Bool.or_eq_true, decide_eq_true_eq, not_or, Nat.not_lt] at hsizes
    obtain ⟨⟨⟨hd, hp⟩, hq⟩, -⟩ := hsizes
    exact fromMagnitudes_safe publicKey hlen (hd.trans hlen) (hp.trans hlen) (hq.trans hlen)

end Tatami.Keys
