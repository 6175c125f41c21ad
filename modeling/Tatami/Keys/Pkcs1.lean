import Mathlib.Algebra.Order.BigOperators.Group.List
import Mathlib.Data.Nat.Digits.Lemmas
import Tatami.Keys.RsaPrivateKey
import Tatami.Keys.Spki

/-! # The PKCS#1 form of an RSA private key

The writer fills one buffer of a size computed beforehand. What it should contain is said on
integers: `octets` are the digits of a number in base 256, `derNatural` and `derSequence` the
minimal DER of numbers and of a sequence. `rsa_import_sound` is the result for the import and the
writer together. -/

namespace Tatami.Keys

open Fallible Tatami.Wire RsaHostPrivateKey Der List

/-! ### The writer -/

namespace Der

/-- Number of bytes of a tag and a length. -/
def headerLen (len : Nat) : Nat := 1 + if len < 0x80 then 1 else if len < 0x100 then 2 else 3

/-- Appends a tag and a length. -/
def pushHeader (out : Bytes) (tag : UInt8) (len : Nat) : Bytes := out ++ [tag] ++ lengthBytes len

/-- Content length of the minimal INTEGER of a magnitude; the empty one is zero. -/
def integerContentLen (magnitude : Bytes) : Nat :=
  magnitude.length + if magnitude.head?.all highBit then 1 else 0

/-- Length of that INTEGER. -/
def integerLen (magnitude : Bytes) : Nat :=
  headerLen (integerContentLen magnitude) + integerContentLen magnitude

/-- Appends that INTEGER. -/
def pushInteger (out : Bytes) (magnitude : Bytes) : Bytes :=
  let out := pushHeader out tagInteger (integerContentLen magnitude)
  let out := if magnitude.head?.all highBit then out ++ [0] else out
  out ++ magnitude

end Der

namespace RsaHostPrivateKey

/-- The nine integers of the structure, the version first. -/
def pkcs1Parts (key : RsaHostPrivateKey) : List Bytes :=
  [[], key.publicKey.n, key.publicKey.e, key.d, key.p, key.q, key.dp, key.dq, key.iqmp]

/-- The computed length of the body. -/
def pkcs1Body (key : RsaHostPrivateKey) : Nat := (key.pkcs1Parts.map integerLen).sum

/-- The computed length of the whole, which is the capacity of the buffer. -/
def pkcs1Total (key : RsaHostPrivateKey) : Nat := headerLen key.pkcs1Body + key.pkcs1Body

/-- The PKCS#1 structure. -/
def toPkcs1Der (key : RsaHostPrivateKey) : Bytes :=
  key.pkcs1Parts.foldl pushInteger (pushHeader [] tagSequence key.pkcs1Body)

end RsaHostPrivateKey

/-! ### Minimal DER of numbers -/

/-- The digits of a number in base 256, the highest first; none for zero. -/
def octets (v : Nat) : Bytes := (Nat.digits 256 v).reverse.map UInt8.ofNat

/-- The length octets: one below 128, otherwise the number of digits and the digits. -/
def derLength (len : Nat) : Bytes :=
  if len < 128 then [UInt8.ofNat len] else UInt8.ofNat (128 + (octets len).length) :: octets len

/-- A tag, the length of the content and the content. -/
def derElement (tag : UInt8) (content : Bytes) : Bytes :=
  tag :: (derLength content.length ++ content)

/-- The INTEGER of a number: its digits, after a zero if the first would be read as a sign or if
there is none. -/
def derNatural (v : Nat) : Bytes :=
  derElement tagInteger (if (octets v).head?.all highBit then 0 :: octets v else octets v)

/-- The SEQUENCE of these elements. -/
def derSequence (elements : List Bytes) : Bytes := derElement tagSequence elements.flatten

/-- The digits have the value of the number. -/
theorem beNat_octets (v : Nat) : beNat (octets v) = v := by
  have hdigits (ds : List Nat) (h : ∀ d ∈ ds, d < 256) :
      beNat (ds.reverse.map UInt8.ofNat) = Nat.ofDigits 256 ds := by
    induction ds with
    | nil => rfl
    | cons d _ ih =>
      have hd : (UInt8.ofNat d).toNat = d := by
        rw [UInt8.toNat_ofNat']
        exact Nat.mod_eq_of_lt (h d mem_cons_self)
      rw [reverse_cons, map_append, map_singleton, beNat_concat, hd,
        ih fun x hx => h x (mem_cons_of_mem d hx), Nat.ofDigits_cons]
      ring
  rw [octets, hdigits _ fun d hd => Nat.digits_lt_base (by decide) hd, Nat.ofDigits_digits]

/-- The digits of a positive number are a magnitude. -/
theorem magnitude_octets {v : Nat} (h : v ≠ 0) : Magnitude (octets v) := by
  have hne : Nat.digits 256 v ≠ [] := Nat.digits_ne_nil_iff_ne_zero.mpr h
  refine ⟨by simpa [octets] using hne, fun hzero => ?_⟩
  rw [octets, List.head?_map, List.head?_reverse, List.getLast?_eq_some_getLast hne,
    Option.map_some, Option.some.injEq, ← UInt8.toNat_inj, UInt8.toNat_ofNat',
    Nat.mod_eq_of_lt (Nat.digits_lt_base (by decide) (getLast_mem hne))] at hzero
  exact Nat.getLast_digit_ne_zero 256 h hzero

/-- **Digits are unique**: bytes without a leading zero are the digits of their value. -/
theorem octets_beNat {m : Bytes} (h : m.head? ≠ some 0) : octets (beNat m) = m := by
  cases m with
  | nil => simp [octets]
  | cons b rest =>
    have hm : Magnitude (b :: rest) := ⟨nofun, h⟩
    exact (magnitude_octets (Nat.pos_iff_ne_zero.mp hm.pos)).eq_of_beNat_eq hm (beNat_octets _)

/-- Below 65536 the length octets are those of the writer. -/
theorem lengthBytes_eq {len : Nat} (h : len < 65536) : lengthBytes len = derLength len := by
  unfold lengthBytes derLength
  by_cases hshort : len < 128
  · rw [if_pos hshort, if_pos hshort]
  · rw [if_neg hshort, if_neg hshort]
    have hlow : (UInt8.ofNat len).toNat = len % 256 := UInt8.toNat_ofNat'
    by_cases hone : len < 256
    · have hocts : octets len = [UInt8.ofNat len] := by
        have hvalue : beNat [UInt8.ofNat len] = len := by
          rw [beNat_cons, hlow, beNat_nil, length_nil]
          omega
        rw [← hvalue, octets_beNat, hvalue]
        intro hzero
        rw [List.head?_cons, Option.some.injEq, ← UInt8.toNat_inj, hlow] at hzero
        change len % 256 = 0 at hzero
        omega
      rw [if_pos hone, hocts]
      rfl
    · have hhigh : (UInt8.ofNat (len / 256)).toNat = len / 256 := by
        rw [UInt8.toNat_ofNat']
        omega
      have hocts : octets len = [UInt8.ofNat (len / 256), UInt8.ofNat len] := by
        have hvalue : beNat [UInt8.ofNat (len / 256), UInt8.ofNat len] = len := by
          rw [beNat_cons, beNat_cons, hlow, hhigh, beNat_nil, length_cons, length_nil]
          omega
        rw [← hvalue, octets_beNat, hvalue]
        intro hzero
        rw [List.head?_cons, Option.some.injEq, ← UInt8.toNat_inj, hhigh] at hzero
        change len / 256 = 0 at hzero
        omega
      rw [if_neg hone, hocts]
      rfl

/-! ### What is written -/

/-- The content of the INTEGER of a magnitude. -/
def integerContent (m : Bytes) : Bytes := if m.head?.all highBit then 0 :: m else m

/-- The INTEGER of a magnitude. -/
def integer (m : Bytes) : Bytes := tlv tagInteger (integerContent m)

/-- The computed length of the content is right. -/
theorem integerContentLen_eq (m : Bytes) : integerContentLen m = (integerContent m).length := by
  unfold integerContentLen integerContent
  split <;> rfl

/-- The computed length of a header is right. -/
theorem headerLen_eq (len : Nat) : headerLen len = 1 + (lengthBytes len).length := by
  unfold headerLen lengthBytes
  split
  · rfl
  · split <;> rfl

/-- An INTEGER is appended as one element. -/
theorem pushInteger_eq (out m : Bytes) : pushInteger out m = out ++ integer m := by
  unfold pushInteger pushHeader integer tlv
  rw [integerContentLen_eq]
  dsimp only
  unfold integerContent
  split <;> simp

/-- The computed length of an INTEGER is right. -/
theorem integerLen_eq (m : Bytes) : integerLen m = (integer m).length := by
  rw [integerLen, headerLen_eq, integerContentLen_eq, integer, tlv, length_cons,
    length_append]
  omega

/-- The INTEGERs are appended one after the other. -/
theorem foldl_pushInteger_eq (parts : List Bytes) (out : Bytes) :
    parts.foldl pushInteger out = out ++ (parts.map integer).flatten := by
  induction parts generalizing out with
  | nil => simp
  | cons _ _ ih => rw [foldl_cons, ih, pushInteger_eq, map_cons, flatten_cons,
      append_assoc]

/-- The computed length of the body is right. -/
theorem pkcs1Body_eq (key : RsaHostPrivateKey) : key.pkcs1Body =
    (key.pkcs1Parts.map integer).flatten.length := by
  rw [pkcs1Body, length_flatten, map_map]
  exact congrArg List.sum (map_congr_left fun m _ => integerLen_eq m)

/-- **The structure is one element**, as long as computed. -/
theorem toPkcs1Der_eq (key : RsaHostPrivateKey) :
    key.toPkcs1Der = tlv tagSequence (key.pkcs1Parts.map integer).flatten := by
  rw [toPkcs1Der, foldl_pushInteger_eq, pushHeader, pkcs1Body_eq, tlv]
  simp

/-- The size of the structure is the computed one. -/
theorem length_toPkcs1Der (key : RsaHostPrivateKey) : key.toPkcs1Der.length = key.pkcs1Total := by
  rw [toPkcs1Der_eq, tlv, length_cons, length_append, pkcs1Total,
    headerLen_eq, pkcs1Body_eq]
  omega

/-! ### It is minimal, and known by its bytes -/

/-- The integers of a key as the writer is given them: without leading zeros and of bounded size. -/
def Bounded (key : RsaHostPrivateKey) : Prop :=
  ∀ m ∈ key.pkcs1Parts, m.head? ≠ some 0 ∧ m.length ≤ 1024

/-- Content is at most one byte longer than the magnitude. -/
theorem length_integerContent_le (m : Bytes) : (integerContent m).length ≤ m.length + 1 := by
  unfold integerContent
  split
  · rfl
  · exact Nat.le_succ _

/-- Magnitudes of bounded size are written minimally. -/
theorem tlv_integerContent_eq {m : Bytes} (hzero : m.head? ≠ some 0) (hlen : m.length ≤ 1024) :
    integer m = derNatural (beNat m) := by
  have hle := length_integerContent_le m
  rw [derNatural, octets_beNat hzero, derElement, integer, tlv, lengthBytes_eq (by omega)]
  rfl

/-- A body of bounded parts is not too long for its header. -/
theorem Bounded.length_body_lt {key : RsaHostPrivateKey} (h : Bounded key) :
    (key.pkcs1Parts.map integer).flatten.length < 65536 := by
  have hpart (m : Bytes) (hm : m ∈ key.pkcs1Parts) : (integer m).length ≤ 1029 := by
    have hle := length_integerContent_le m
    have hlen := (h m hm).2
    have hheader : headerLen (integerContent m).length ≤ 4 := by
      unfold headerLen
      split
      · decide
      · split <;> decide
    rw [← integerLen_eq, integerLen, integerContentLen_eq]
    omega
  have hsum : (List.map List.length (key.pkcs1Parts.map integer)).sum ≤ 9 * 1029 := by
    refine sum_le_card_nsmul _ 1029 fun len hlen => ?_
    rw [map_map] at hlen
    obtain ⟨m, hm, rfl⟩ := mem_map.mp hlen
    exact hpart m hm
  rw [length_flatten]
  omega

/-- **The structure is the minimal DER** of the nine numbers. -/
theorem Bounded.toPkcs1Der_eq {key : RsaHostPrivateKey} (h : Bounded key) :
    key.toPkcs1Der = derSequence (key.pkcs1Parts.map fun m => derNatural (beNat m)) := by
  have hparts : key.pkcs1Parts.map integer = key.pkcs1Parts.map fun m => derNatural (beNat m) :=
    map_congr_left fun m hm => tlv_integerContent_eq (h m hm).1 (h m hm).2
  have hlen := h.length_body_lt
  rw [Keys.toPkcs1Der_eq, derSequence, derElement, tlv, lengthBytes_eq hlen, hparts]

/-- An element in front is known by its bytes. -/
theorem tlv_append_inj {tag : UInt8} {c c' rest rest' : Bytes} (hc : c.length < 65536)
    (hc' : c'.length < 65536) (h : tlv tag c ++ rest = tlv tag c' ++ rest') :
    c = c' ∧ rest = rest' := by
  have hread : read tag "" (tlv tag c ++ rest) = .ok (c, rest) :=
    read_ok_iff.mpr ⟨hc, rfl⟩
  rw [read_ok_iff.mpr ⟨hc', h⟩] at hread
  simpa using hread.symm

/-- The content of an INTEGER gives back its magnitude. -/
theorem stripLeadingZeros_integerContent {m : Bytes} (h : m.head? ≠ some 0) :
    stripLeadingZeros (integerContent m) = m := by
  cases m with
  | nil => rfl
  | cons b rest =>
    have hb : b ≠ 0 := fun hzero => h (by rw [hzero]; rfl)
    unfold integerContent
    split
    · rw [stripLeadingZeros_zero_cons]
      exact stripLeadingZeros_cons_of_ne_zero hb rest
    · exact stripLeadingZeros_cons_of_ne_zero hb rest

/-- As many INTEGERs are known by their bytes. -/
theorem integers_inj {parts parts' : List Bytes} (hlen : parts.length = parts'.length)
    (h : ∀ m ∈ parts, m.head? ≠ some 0 ∧ m.length ≤ 1024)
    (h' : ∀ m ∈ parts', m.head? ≠ some 0 ∧ m.length ≤ 1024)
    (heq : (parts.map integer).flatten = (parts'.map integer).flatten) : parts = parts' := by
  induction parts generalizing parts' with
  | nil => exact (length_eq_zero_iff.mp hlen.symm).symm
  | cons m _ ih =>
    cases parts' with
    | nil => cases hlen
    | cons m' =>
      rw [forall_mem_cons] at h h'
      rw [map_cons, map_cons, flatten_cons, flatten_cons] at heq
      have hle := length_integerContent_le m
      have hle' := length_integerContent_le m'
      obtain ⟨hcontent, hrest⟩ := tlv_append_inj (by omega) (by omega) heq
      have hm : m = m' := by
        rw [← stripLeadingZeros_integerContent h.1.1, hcontent,
          stripLeadingZeros_integerContent h'.1.1]
      rw [hm, ih (Nat.succ.inj hlen) h.2 h'.2 hrest]

/-- **Distinct keys have distinct structures.** -/
theorem Bounded.toPkcs1Der_inj {key key' : RsaHostPrivateKey} (h : Bounded key)
    (h' : Bounded key') (heq : key.toPkcs1Der = key'.toPkcs1Der) : key = key' := by
  rw [Keys.toPkcs1Der_eq, Keys.toPkcs1Der_eq] at heq
  obtain ⟨hbody, -⟩ := tlv_append_inj h.length_body_lt h'.length_body_lt
    (congrArg (· ++ []) heq)
  have hlen : key.pkcs1Parts.length = key'.pkcs1Parts.length := rfl
  have hparts := integers_inj hlen h h' hbody
  obtain ⟨⟨e, n⟩, d, p, q, _, _, _⟩ := key
  obtain ⟨⟨_, _⟩, _, _, _, _, _, _⟩ := key'
  simp only [pkcs1Parts, List.cons.injEq, and_true, true_and] at hparts
  obtain ⟨rfl, rfl, rfl, rfl, rfl, rfl, rfl, rfl⟩ := hparts
  rfl

/-! ### The result -/

/-- The bytes of a number without leading zeros are bounded. -/
theorem minimalBytes_bounded (v : Nat) :
    (minimalBytes v).head? ≠ some 0 ∧ (minimalBytes v).length ≤ 1024 := by
  have hle : (minimalBytes v).length ≤ (beBytes 1024 v).length :=
    (dropWhile_sublist _).length_le
  rw [length_beBytes] at hle
  exact ⟨head_minimalBytes_ne v, hle⟩

theorem Yields.bounded {pair : RsaKeypair} {n e d p q iqmp : Bytes} {key : RsaHostPrivateKey}
    (h : Yields pair n e d p q iqmp) (hkey : Gives (fromKeypair pair) key) :
    Bounded key := by
  obtain ⟨hsound, hiqmp, rfl⟩ := (fromKeypair_gives_iff h).mp hkey
  obtain ⟨he, hn, hd, hp, hq⟩ := h.lengths hsound
  intro m hm
  simp only [pkcs1Parts, mem_cons, not_mem_nil, or_false] at hm
  rcases hm with rfl | rfl | rfl | rfl | rfl | rfl | rfl | rfl | rfl
  · exact ⟨nofun, Nat.zero_le _⟩
  · exact ⟨h.n_eq.2.2, hn⟩
  · exact ⟨h.e_eq.2.2, by omega⟩
  · exact ⟨h.d_eq.2.2, by omega⟩
  · exact ⟨h.p_eq.2.2, by omega⟩
  · exact ⟨h.q_eq.2.2, by omega⟩
  · exact minimalBytes_bounded _
  · exact minimalBytes_bounded _
  · exact ⟨h.iqmp_eq.2.2, by omega⟩

/-- **The import of RSA keys is sound, and complete.** It does not panic. What it imports has `p · q
= n`, `d < n`, factors above one, CRT exponents that are the remainders, not zero and minimal, and a
public key within the policy; and every key with these properties, whose coefficient is not longer
than `p`, is imported. The PKCS#1 structure of an imported key is the minimal DER of its nine
numbers, as long as computed, and no two keys share one. -/
theorem rsa_import_sound :
    (∀ pair n e d p q iqmp, Yields pair n e d p q iqmp →
      Safe (fromKeypair pair) ∧
      (∀ key, Gives (fromKeypair pair) key →
        (key.publicKey = ⟨e, n⟩ ∧ key.d = d ∧ key.p = p ∧ key.q = q ∧ key.iqmp = iqmp) ∧
        SoundKey (beNat n) (beNat e) (beNat d) (beNat p) (beNat q) ∧
        (Magnitude key.dp ∧ beNat key.dp = beNat d % (beNat p - 1)) ∧
        (Magnitude key.dq ∧ beNat key.dq = beNat d % (beNat q - 1)) ∧
        key.toPkcs1Der = derSequence ([0, beNat n, beNat e, beNat d, beNat p, beNat q,
          beNat d % (beNat p - 1), beNat d % (beNat q - 1), beNat iqmp].map derNatural) ∧
        key.toPkcs1Der.length = key.pkcs1Total) ∧
      (SoundKey (beNat n) (beNat e) (beNat d) (beNat p) (beNat q) → iqmp.length ≤ p.length →
        ∃ key, Gives (fromKeypair pair) key)) ∧
    (∀ pair n e d p q iqmp pair' n' e' d' p' q' iqmp' key key',
      Yields pair n e d p q iqmp → Yields pair' n' e' d' p' q' iqmp' →
      Gives (fromKeypair pair) key →
      Gives (fromKeypair pair') key' →
      key.toPkcs1Der = key'.toPkcs1Der → key = key') := by
  refine ⟨fun pair n e d p q iqmp h => ⟨fromKeypair_safe pair, fun key hkey => ?_,
    fun hsound hiqmp => ⟨_, (fromKeypair_gives_iff h).mpr ⟨hsound, hiqmp, rfl⟩⟩⟩, ?_⟩
  · have hder := (h.bounded hkey).toPkcs1Der_eq
    have hlen := length_toPkcs1Der key
    obtain ⟨hsound, -, rfl⟩ := (fromKeypair_gives_iff h).mp hkey
    obtain ⟨-, hn, hd, -⟩ := h.lengths hsound
    have hrem (v : Nat) : beNat d % v < 2 ^ wideBits :=
      Nat.lt_of_le_of_lt (Nat.mod_le _ _) (beNat_lt_of_length (hd.trans hn))
    refine ⟨⟨rfl, rfl, rfl, rfl, rfl⟩, hsound,
      ⟨magnitude_minimalBytes (hrem _) hsound.dp_ne_zero, beNat_minimalBytes (hrem _)⟩,
      ⟨magnitude_minimalBytes (hrem _) hsound.dq_ne_zero, beNat_minimalBytes (hrem _)⟩, ?_, hlen⟩
    rw [hder]
    simp only [pkcs1Parts, map_cons, map_nil, beNat_nil,
      beNat_minimalBytes (hrem _)]
  · intro pair n e d p q iqmp pair' n' e' d' p' q' iqmp' key key' h h' hkey hkey' heq
    exact (h.bounded hkey).toPkcs1Der_inj (h'.bounded hkey') heq

end Tatami.Keys
