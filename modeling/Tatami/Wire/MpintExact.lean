import Tatami.Wire.Primitives

/-! # Multiple-precision integers and their shortest form

An `mpint` is an integer in two's complement, most significant byte first (`Mpint.value`).
`is_canonical` tells the shortest of the encodings of a value: an encoding of `n + 1` bytes holds
the integers between `-128 * 256 ^ n` and `128 * 256 ^ n`, and its first byte is needed exactly if
the value is outside of the range of one byte less. -/

namespace Tatami.Wire

/-! ### The value -/

/-- The first byte, with its sign. -/
def signed (b : UInt8) : Int := if highBit b then b.toNat - 256 else b.toNat

/-- The sign, by the size of the byte. -/
theorem signed_cases : ∀ b : UInt8,
    b.toNat < 128 ∧ highBit b = false ∧ signed b = b.toNat ∨
      128 ≤ b.toNat ∧ b.toNat < 256 ∧ highBit b = true ∧ signed b = b.toNat - 256 :=
  forall_byte (by decide +kernel)

namespace Mpint

/-- The integer whose two's complement an `mpint` is. -/
def value (m : Mpint) : Int :=
  match m.bytes with
  | [] => 0
  | b :: rest => signed b * 256 ^ rest.length + beNat rest

theorem tail_bounds (rest : Bytes) :
    (0 : Int) < 256 ^ rest.length ∧ (beNat rest : Int) < 256 ^ rest.length := by
  refine ⟨Int.pow_pos (by decide), ?_⟩
  exact_mod_cast beNat_lt rest

theorem value_bounds {m : Mpint} {n : Nat} (h : m.bytes.length ≤ n + 1) :
    -128 * 256 ^ n ≤ m.value ∧ m.value < 128 * 256 ^ n := by
  obtain ⟨bytes⟩ := m
  cases bytes with
  | nil =>
    have hpos : (0 : Int) < 256 ^ n := Int.pow_pos (by decide)
    change -128 * 256 ^ n ≤ (0 : Int) ∧ (0 : Int) < 128 * 256 ^ n
    omega
  | cons b rest =>
    obtain ⟨hpos, hlt⟩ := tail_bounds rest
    have hle : (256 : Int) ^ rest.length ≤ 256 ^ n := by
      exact_mod_cast Nat.pow_le_pow_right (by decide) (Nat.le_of_succ_le_succ h)
    have hsigned : -128 ≤ signed b ∧ signed b ≤ 127 := by
      rcases signed_cases b with ⟨_, _, hb⟩ | ⟨_, _, _, hb⟩ <;> omega
    have hlow := Int.mul_le_mul_of_nonneg_right hsigned.1 (Int.le_of_lt hpos)
    have hhigh := Int.mul_le_mul_of_nonneg_right hsigned.2 (Int.le_of_lt hpos)
    change -128 * 256 ^ n ≤ signed b * 256 ^ rest.length + beNat rest ∧
      signed b * 256 ^ rest.length + beNat rest < 128 * 256 ^ n
    omega

/-- As many bytes hold a value once. -/
theorem eq_of_value_eq {m m' : Mpint} (hlength : m.bytes.length = m'.bytes.length)
    (h : m.value = m'.value) : m = m' := by
  obtain ⟨bytes⟩ := m
  obtain ⟨bytes'⟩ := m'
  cases bytes with
  | nil => exact congrArg mk (List.length_eq_zero_iff.mp hlength.symm).symm
  | cons b rest =>
    cases bytes' with
    | nil => cases hlength
    | cons b' rest' =>
      have hlen : rest.length = rest'.length := Nat.succ.inj hlength
      obtain ⟨hpos, hlt⟩ := tail_bounds rest
      obtain ⟨-, hlt'⟩ := tail_bounds rest'
      change signed b * 256 ^ rest.length + beNat rest =
        signed b' * 256 ^ rest'.length + beNat rest' at h
      rw [← hlen] at h hlt'
      -- the two parts are quotient and remainder
      have hrest : (beNat rest : Int) = beNat rest' := by
        have hmod := congrArg (· % 256 ^ rest.length) h
        simpa [Int.add_comm, Int.emod_eq_of_lt (Int.natCast_nonneg _), hlt, hlt'] using hmod
      have hfirst : signed b = signed b' := by
        rw [hrest] at h
        exact Int.eq_of_mul_eq_mul_right (Int.ne_of_gt hpos) (add_right_cancel h)
      have hbyte : b = b' := by
        apply UInt8.toNat_inj.mp
        rcases signed_cases b with ⟨_, _, hb⟩ | ⟨_, _, _, hb⟩ <;>
          rcases signed_cases b' with ⟨_, _, hb'⟩ | ⟨_, _, _, hb'⟩ <;> omega
      rw [hbyte, bytes_eq_of_beNat_eq hlen (by exact_mod_cast hrest)]

/-! ### The shortest form -/

/-- **The first of several bytes is needed**: the rest cannot hold the value, or holds it as
well. -/
theorem isCanonical_cons_cons (b next : UInt8) (rest : Bytes) :
    (isCanonical ⟨b :: next :: rest⟩ = true →
      ¬(-128 * 256 ^ rest.length ≤ value ⟨b :: next :: rest⟩ ∧
        value ⟨b :: next :: rest⟩ < 128 * 256 ^ rest.length)) ∧
      (isCanonical ⟨b :: next :: rest⟩ = false →
        value ⟨b :: next :: rest⟩ = value ⟨next :: rest⟩) := by
  obtain ⟨hpos, hlt⟩ := tail_bounds rest
  have hvalue : value ⟨b :: next :: rest⟩ =
      (signed b * 256 + next.toNat) * 256 ^ rest.length + beNat rest := by
    change signed b * 256 ^ (rest.length + 1) + (beNat (next :: rest) : Int) = _
    rw [beNat_cons, Int.pow_succ]
    push_cast
    ring
  -- the two first bytes are outside of the range of one
  have hneeded : isCanonical ⟨b :: next :: rest⟩ = true ↔
      ¬(-128 ≤ signed b * 256 + next.toNat ∧ signed b * 256 + next.toNat ≤ 127) := by
    have hzero : b = 0 ↔ b.toNat = 0 := by rw [← UInt8.toNat_inj]; rfl
    have hones : b = 0xff ↔ b.toNat = 255 := by rw [← UInt8.toNat_inj]; rfl
    simp only [isCanonical, hzero, hones]
    rcases signed_cases b with ⟨_, _, hb⟩ | ⟨_, _, _, hb⟩ <;>
      rcases signed_cases next with ⟨_, hn, _⟩ | ⟨_, _, hn, _⟩ <;>
      rw [hn, hb] <;> split <;> (try split) <;> simp <;> omega
  rw [hvalue]
  generalize hk : signed b * 256 + (next.toNat : Int) = k at hneeded
  constructor
  · rintro hcanonical ⟨hlow, hhigh⟩
    refine hneeded.mp hcanonical ⟨?_, ?_⟩
    · by_contra hnot
      have hmul := Int.mul_le_mul_of_nonneg_right (show k ≤ -129 by omega) (Int.le_of_lt hpos)
      omega
    · by_contra hnot
      have hmul := Int.mul_le_mul_of_nonneg_right (show 128 ≤ k by omega) (Int.le_of_lt hpos)
      omega
  · intro hnot
    have hin := not_not.mp (mt hneeded.mpr (Bool.eq_false_iff.mp hnot))
    change _ = signed next * 256 ^ rest.length + (beNat rest : Int)
    rw [show k = signed next by rcases signed_cases next with ⟨_, _, hn⟩ | ⟨_, _, _, hn⟩ <;> omega]

/-- **Canonical encodings are the shortest** of their value, and the only ones of that length. -/
theorem isCanonical_iff (m : Mpint) :
    m.isCanonical = true ↔
      ∀ m' : Mpint, m'.value = m.value → m' = m ∨ m.bytes.length < m'.bytes.length := by
  have hshorter (hnone : ∀ m' : Mpint, m'.bytes.length < m.bytes.length → m'.value ≠ m.value)
      (m' : Mpint) (hvalue : m'.value = m.value) :
      m' = m ∨ m.bytes.length < m'.bytes.length := by
    rcases Nat.lt_trichotomy m'.bytes.length m.bytes.length with hlt | heq | hgt
    · exact absurd hvalue (hnone m' hlt)
    · exact .inl (eq_of_value_eq heq hvalue)
    · exact .inr hgt
  obtain ⟨bytes⟩ := m
  match bytes with
  | [] => exact ⟨fun _ => hshorter fun m' h => absurd h (Nat.not_lt_zero _), fun _ => rfl⟩
  | [b] =>
    have hall : ∀ b, isCanonical ⟨[b]⟩ = true ↔ value ⟨[b]⟩ ≠ 0 := forall_byte (by decide +kernel)
    rw [hall]
    refine ⟨fun hne => hshorter fun m' hlt hvalue => ?_, fun h hzero => ?_⟩
    · obtain ⟨bytes'⟩ := m'
      obtain rfl : bytes' = [] := List.length_eq_zero_iff.mp (Nat.lt_one_iff.mp hlt)
      exact hne hvalue.symm
    · rcases h ⟨[]⟩ hzero.symm with heq | hlt
      · cases heq
      · cases hlt
  | b :: next :: rest =>
    obtain ⟨hcanonical, htail⟩ := isCanonical_cons_cons b next rest
    constructor
    · intro h
      refine hshorter fun m' hlt hvalue => hcanonical h ?_
      rw [← hvalue]
      exact value_bounds (Nat.le_of_lt_succ hlt)
    · intro h
      by_contra hnot
      rcases h ⟨next :: rest⟩ (htail (Bool.eq_false_iff.mpr hnot)).symm with heq | hlt
      · have hlength := congrArg (fun m => m.bytes.length) heq
        exact absurd hlength (Nat.ne_of_lt (Nat.lt_succ_self _))
      · exact absurd hlt (Nat.not_lt.mpr (Nat.le_succ _))

end Mpint

/-! ### Positive integers -/

theorem beNat_stripLeadingZeros (m : Bytes) : beNat (stripLeadingZeros m) = beNat m := by
  have hsplit := replicate_append_stripLeadingZeros m
  conv_rhs => rw [← hsplit, beNat_replicate_append]

/-- The body for a magnitude is canonical, not negative and has its value. -/
theorem mpintPositiveBody_spec (m : Bytes) :
    (Mpint.mk (mpintPositiveBody m)).isCanonical = true ∧
      (Mpint.mk (mpintPositiveBody m)).isNegative = false ∧
      (Mpint.mk (mpintPositiveBody m)).value = beNat m := by
  rw [← beNat_stripLeadingZeros m, mpintPositiveBody]
  cases hstrip : stripLeadingZeros m with
  | nil => exact ⟨rfl, rfl, rfl⟩
  | cons b rest =>
    have hb := head_stripLeadingZeros_ne_zero hstrip
    rcases signed_cases b with ⟨_, hsign, hsigned⟩ | ⟨_, _, hsign, hsigned⟩
    · simp only [hsign, Bool.false_eq_true, if_false]
      refine ⟨?_, hsign, ?_⟩
      · have hones : b ≠ 0xff := by
          rintro rfl
          cases hsign
        cases rest with
        | nil => simpa [Mpint.isCanonical] using hb
        | cons => simp [Mpint.isCanonical, hb, hones]
      · change signed b * 256 ^ rest.length + (beNat rest : Int) = _
        rw [beNat_cons, hsigned]
        push_cast
        rfl
    · simp only [hsign, if_true]
      refine ⟨hsign, rfl, ?_⟩
      change (0 : Int) * _ + (beNat (b :: rest) : Int) = _
      rw [Int.zero_mul, Int.zero_add]

/-- **The `mpint` encoding.** Canonical encodings are the shortest ones of their integers. What is
written for a magnitude has the announced length and is read back as the canonical encoding of its
value, from which the magnitude can be read off; two magnitudes are written alike exactly if they
are the same number. -/
theorem mpint_encoding_exact :
    (∀ m : Mpint, m.isCanonical = true ↔
      ∀ m' : Mpint, m'.value = m.value → m' = m ∨ m.bytes.length < m'.bytes.length) ∧
    (∀ m : Bytes, m.length < 2 ^ 32 - 1 → ∀ out : Bytes, mpintPositiveLen m ≤ out.length →
      ∃ out' v r, Writer.run (Writer.writeMpintPositive m) out = (.ok (mpintPositiveLen m), out') ∧
        out'.take (mpintPositiveLen m) = lengthPrefixed (mpintPositiveBody m) ∧
        Reader.readMpint (.new (out'.take (mpintPositiveLen m))) = (.ok v, r) ∧ r.remaining = [] ∧
        v.isCanonical = true ∧ v.isNegative = false ∧ v.value = beNat m ∧
        v.positiveMagnitude = some (stripLeadingZeros m)) ∧
    ∀ m m' : Bytes, m.length < 2 ^ 32 - 1 → m'.length < 2 ^ 32 - 1 →
      (lengthPrefixed (mpintPositiveBody m) = lengthPrefixed (mpintPositiveBody m') ↔
        beNat m = beNat m') := by
  have hshort {m : Bytes} (h : m.length < 2 ^ 32 - 1) : (mpintPositiveBody m).length < 2 ^ 32 := by
    have hle := length_mpintPositiveBody_le m
    omega
  refine ⟨Mpint.isCanonical_iff, ?_, ?_⟩
  · intro m hm out hout
    obtain ⟨hcanonical, hsign, hvalue⟩ := mpintPositiveBody_spec m
    rw [mpintPositiveLen_eq] at hout ⊢
    obtain ⟨out', hrun, htake⟩ := (Writer.produces_writePrefixed (hshort hm)).run_eq hout
    obtain ⟨r, hadvances, hleft⟩ :=
      Reader.exists_advances_all (lengthPrefixed (mpintPositiveBody m))
    refine ⟨out', ⟨mpintPositiveBody m⟩, r, hrun, htake, ?_, hleft, hcanonical, hsign, hvalue, ?_⟩
    · rw [htake, Reader.readMpint, Cursor.bind_ok_iff]
      exact ⟨_, r, Reader.readString_ok_iff.mpr ⟨hshort hm, hadvances⟩, rfl⟩
    · rw [Mpint.positiveMagnitude, hsign]
      exact congrArg some (stripLeadingZeros_mpintPositiveBody m)
  · intro m m' hm hm'
    obtain ⟨hcanonical, -, hvalue⟩ := mpintPositiveBody_spec m
    obtain ⟨hcanonical', -, hvalue'⟩ := mpintPositiveBody_spec m'
    constructor
    · intro h
      obtain ⟨hbody, -⟩ := lengthPrefixed_append_inj (hshort hm) (hshort hm') (congrArg (· ++ []) h)
      rw [hbody, hvalue'] at hvalue
      exact_mod_cast hvalue.symm
    · intro h
      -- two canonical encodings of one value
      have hsame : (Mpint.mk (mpintPositiveBody m)).value =
          (Mpint.mk (mpintPositiveBody m')).value :=
        by rw [hvalue, hvalue', h]
      rcases (Mpint.isCanonical_iff _).mp hcanonical' _ hsame with heq | hlt
      · exact congrArg (fun v => lengthPrefixed v.bytes) heq
      · rcases (Mpint.isCanonical_iff _).mp hcanonical _ hsame.symm with heq | hgt
        · exact congrArg (fun v => lengthPrefixed v.bytes) heq.symm
        · exact absurd hlt (Nat.not_lt.mpr (Nat.le_of_lt hgt))

end Tatami.Wire
