import Tatami.Lib.Octets

/-! # Text and its bytes

A byte string literal is the UTF-8 encoding of a text, and `fromUtf8Lossy` reads any byte string as
a text by putting U+FFFD in place of every maximal ill-formed part. On ASCII the two are inverse
(`utf8_fromUtf8Lossy`), which is all that names made of printable bytes need. -/

/-- The UTF-8 bytes of a text (`b"..."`, `str::as_bytes`). -/
def utf8 (s : String) : Bytes := s.toUTF8.data.toList

/-! ### Lossy decoding -/

/-- Whether a byte continues a multi-byte character. -/
def isContinuation (b : UInt8) : Bool := b &&& 0xC0 == 0x80

/-- Whether `b` may follow the lead byte `lead` of a three-byte character: no overlong form and no
surrogate. -/
def isSecondOfThree (lead b : UInt8) : Bool :=
  if lead = 0xE0 then 0xA0 ≤ b && b ≤ 0xBF
  else if lead = 0xED then 0x80 ≤ b && b ≤ 0x9F
  else isContinuation b

/-- Whether `b` may follow the lead byte `lead` of a four-byte character: no overlong form and
nothing past U+10FFFF. -/
def isSecondOfFour (lead b : UInt8) : Bool :=
  if lead = 0xF0 then 0x90 ≤ b && b ≤ 0xBF
  else if lead = 0xF4 then 0x80 ≤ b && b ≤ 0x8F
  else isContinuation b

/-- U+FFFD, the replacement character. -/
def replacement : Char := Char.ofNat 0xFFFD

/-- The low six bits of a continuation byte. -/
def low6 (b : UInt8) : Nat := b.toNat % 64

/-- The next character of a text that starts with `b`, and how many of the bytes after `b` it takes.
A byte past the end reads as zero, which continues nothing. -/
def lossyNext (b : UInt8) (rest : Bytes) : Char × Nat :=
  let b₁ := rest.getD 0 0
  let b₂ := rest.getD 1 0
  let b₃ := rest.getD 2 0
  if b < 0x80 then (Char.ofNat b.toNat, 0)
  else if 0xC2 ≤ b && b ≤ 0xDF then
    if isContinuation b₁ then (Char.ofNat (b.toNat % 32 * 64 + low6 b₁), 1) else (replacement, 0)
  else if 0xE0 ≤ b && b ≤ 0xEF then
    if !isSecondOfThree b b₁ then (replacement, 0)
    else if !isContinuation b₂ then (replacement, 1)
    else (Char.ofNat (b.toNat % 16 * 4096 + low6 b₁ * 64 + low6 b₂), 2)
  else if 0xF0 ≤ b && b ≤ 0xF4 then
    if !isSecondOfFour b b₁ then (replacement, 0)
    else if !isContinuation b₂ then (replacement, 1)
    else if !isContinuation b₃ then (replacement, 2)
    else (Char.ofNat (b.toNat % 8 * 262144 + low6 b₁ * 4096 + low6 b₂ * 64 + low6 b₃), 3)
  else (replacement, 0)

/-- The characters of a byte string read as text, with fuel for the bytes it still holds. -/
def lossyChars : Nat → Bytes → List Char
  | 0, _ => []
  | _ + 1, [] => []
  | fuel + 1, b :: rest =>
    (lossyNext b rest).1 :: lossyChars fuel (rest.drop (lossyNext b rest).2)

/-- `String::from_utf8_lossy`: every maximal ill-formed part becomes one U+FFFD. -/
def fromUtf8Lossy (b : Bytes) : String := String.ofList (lossyChars b.length b)

/-! ### ASCII -/

/-- An ASCII byte stands for itself. -/
theorem lossyNext_ascii {b : UInt8} (hb : b < 0x80) (rest : Bytes) :
    lossyNext b rest = (Char.ofNat b.toNat, 0) := by
  simp [lossyNext, hb]

/-- The characters of an ASCII string are its bytes. -/
theorem lossyChars_ascii {b : Bytes} (hb : ∀ x ∈ b, x < 0x80) :
    lossyChars b.length b = b.map fun x => Char.ofNat x.toNat := by
  induction b with
  | nil => rfl
  | cons x xs ih =>
    have hx : x < 0x80 := hb x List.mem_cons_self
    have hxs : ∀ y ∈ xs, y < 0x80 := fun y hy => hb y (List.mem_cons_of_mem x hy)
    rw [List.length_cons, lossyChars, lossyNext_ascii hx]
    simp only [List.drop_zero, List.map_cons]
    rw [ih hxs]

/-- The encoding of an ASCII character is the one byte it came from. -/
theorem utf8EncodeChar_ascii {x : UInt8} (hx : x < 0x80) :
    String.utf8EncodeChar (Char.ofNat x.toNat) = [x] := by
  have hlt : x.toNat < 128 := hx
  have hval : (Char.ofNat x.toNat).val.toNat = x.toNat := by
    have hvalid : x.toNat.isValidChar := Or.inl (by omega)
    rw [Char.ofNat, dif_pos hvalid]
    rfl
  simp only [String.utf8EncodeChar, hval]
  rw [if_pos (by omega)]
  simp

/-- **ASCII text survives lossy decoding**: its bytes are the bytes it was read from. -/
theorem utf8_fromUtf8Lossy {b : Bytes} (hb : ∀ x ∈ b, x < 0x80) : utf8 (fromUtf8Lossy b) = b := by
  rw [utf8, fromUtf8Lossy, lossyChars_ascii hb, String.toUTF8, String.toByteArray_ofList]
  induction b with
  | nil => rfl
  | cons x xs ih =>
    have hx : x < 0x80 := hb x List.mem_cons_self
    have hxs : ∀ y ∈ xs, y < 0x80 := fun y hy => hb y (List.mem_cons_of_mem x hy)
    rw [List.map_cons, List.utf8Encode_cons, ByteArray.data_append, Array.toList_append, ih hxs]
    simp [List.utf8Encode, utf8EncodeChar_ascii hx]

/-- A text is known by its bytes. -/
theorem utf8_injective {s t : String} (h : utf8 s = utf8 t) : s = t := by
  have hdata : s.toUTF8.data = t.toUTF8.data := Array.toList_inj.mp h
  exact String.toByteArray_inj.mp (ByteArray.ext hdata)

/-- Text whose bytes are ASCII is read back as it was. -/
theorem fromUtf8Lossy_utf8 {s : String} (hs : ∀ x ∈ utf8 s, x < 0x80) :
    fromUtf8Lossy (utf8 s) = s :=
  utf8_injective (utf8_fromUtf8Lossy hs)

/-! ### Decimal numbers -/

/-- The bytes of a text are those of its characters. -/
theorem utf8_ofList (cs : List Char) :
    utf8 (String.ofList cs) = cs.flatMap String.utf8EncodeChar := by
  rw [utf8, String.toUTF8, String.toByteArray_ofList]
  simp [List.utf8Encode]

/-- A number is known by its decimal digits. -/
theorem toString_injective {m n : Nat} (h : toString m = toString n) : m = n := by
  rw [Nat.toString_eq_ofList_toDigits, Nat.toString_eq_ofList_toDigits] at h
  have hdigits := congrArg (Nat.ofDigitChars 10 · 0) (String.ofList_injective h)
  simpa only [Nat.ofDigitChars_ten_toDigits] using hdigits

/-- A number is written with the digits. -/
theorem digit_of_mem_utf8_toString {n : Nat} {b : UInt8} (h : b ∈ utf8 (toString n)) :
    48 ≤ b.toNat ∧ b.toNat ≤ 57 := by
  have hrepr : toString n = String.ofList (Nat.toDigits 10 n) := rfl
  rw [hrepr, utf8_ofList] at h
  obtain ⟨c, hc, hb⟩ := List.mem_flatMap.mp h
  have hdigit := Nat.isDigit_of_mem_toDigits (by decide) (by decide) hc
  have hrange : 48 ≤ c.val.toNat ∧ c.val.toNat ≤ 57 := by
    simpa [Char.isDigit, UInt32.le_iff_toNat_le] using hdigit
  rw [String.utf8EncodeChar, if_pos (by omega), List.mem_singleton] at hb
  rw [hb, UInt8.toNat_ofNat']
  omega
