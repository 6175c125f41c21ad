import Mathlib.Data.List.TakeWhile
import Tatami.Keys.HostKey
import Tatami.Lib.Units

/-! # Text for terminals

The escaping of peer-supplied bytes (`text.rs`). Both forms write one unit for each byte: the byte
itself if it is printable, a backslash with the character behind it, or a backslash with two
hexadecimal digits. A `String` is the list of its characters. -/

namespace Tatami.Report

open Tatami.Keys (hexDigit)

/-- The characters of a `String`. -/
abbrev Text := List Char

/-! ### Escaping -/

/-- What is written for one byte; in a quoted literal a quotation mark is escaped, too. -/
def escapeUnit (quoting : Bool) (b : UInt8) : Text :=
  if quoting && b == 0x22 then ['\\', '"']
  else if b == 0x5c then ['\\', '\\']
  else if 0x20 ≤ b && b ≤ 0x7e then [Char.ofNat b.toNat]
  else ['\\', 'x', hexDigit (b.toNat / 16), hexDigit (b.toNat % 16)]

/-- Escapes bytes for display. -/
def escapeBytes (bytes : Bytes) : Text := bytes.flatMap (escapeUnit false)

/-- Bytes as a quoted, escaped string literal. -/
def quoted (bytes : Bytes) : Text := '"' :: (bytes.flatMap (escapeUnit true) ++ ['"'])

theorem escapeUnit_printable (quoting : Bool) :
    ∀ b, ∀ c ∈ escapeUnit quoting b, 0x20 ≤ c.toNat ∧ c.toNat ≤ 0x7e := by
  have hall : ∀ b, (escapeUnit quoting b).all fun c => 0x20 ≤ c.toNat ∧ c.toNat ≤ 0x7e :=
    forall_byte (by cases quoting <;> decide +kernel)
  exact fun b c hc => of_decide_eq_true (List.all_eq_true.mp (hall b) c hc)

/-- The value of a hexadecimal digit. -/
def hexValue (c : Char) : Nat := if c.toNat < 58 then c.toNat - 48 else c.toNat - 87

/-- What the unit of a byte is: one of four forms, each of which tells the byte. -/
theorem escapeUnit_cases (quoting : Bool) : ∀ b : UInt8,
    escapeUnit quoting b = ['\\', '"'] ∧ b = 0x22 ∨
    escapeUnit quoting b = ['\\', '\\'] ∧ b = 0x5c ∨
    (let c := Char.ofNat b.toNat
    escapeUnit quoting b = [c] ∧ UInt8.ofNat c.toNat = b ∧ c ≠ '\\' ∧ (quoting = true → c ≠ '"')) ∨
    let high := hexDigit (b.toNat / 16)
    let low := hexDigit (b.toNat % 16)
    escapeUnit quoting b = ['\\', 'x', high, low] ∧
      UInt8.ofNat (16 * hexValue high + hexValue low) = b ∧ (high ≠ '\\' ∧ high ≠ '"') ∧
      low ≠ '\\' ∧ low ≠ '"' :=
  forall_byte (by cases quoting <;> decide +kernel)

/-! ### Reading back -/

/-- Takes the next byte off an escaped text; a quoted one ends at a quotation mark. -/
def readUnit (quoting : Bool) : Text → Option (UInt8 × Text)
  | [] => none
  | '\\' :: 'x' :: high :: low :: rest =>
    some (UInt8.ofNat (16 * hexValue high + hexValue low), rest)
  | '\\' :: c :: rest => some (UInt8.ofNat c.toNat, rest)
  | c :: rest => if quoting && c == '"' then none else some (UInt8.ofNat c.toNat, rest)

/-- The bytes of an escaped text. -/
def unescape (text : Text) : Bytes := (Units.readAll (readUnit false) text.length text).1

/-- Takes a quoted literal off a text, with what stands before it. -/
def readQuoted (text : Text) : Option ((Text × Bytes) × Text) :=
  match text.dropWhile (· != '"') with
  | [] => none
  | _ :: body =>
    match Units.readAll (readUnit true) body.length body with
    | (bytes, _ :: rest) => some ((text.takeWhile (· != '"'), bytes), rest)
    | (_, []) => none

/-- Takes all quoted literals off a text, each with what stands before it. -/
def readFields (text : Text) : List (Text × Bytes) × Text :=
  Units.readAll readQuoted text.length text

/-- A unit is read as the byte that it was written for. -/
theorem readUnit_escapeUnit (quoting : Bool) (b : UInt8) (rest : Text) :
    readUnit quoting (escapeUnit quoting b ++ rest) = some (b, rest) := by
  rcases escapeUnit_cases quoting b with
    ⟨hunit, rfl⟩ | ⟨hunit, rfl⟩ | ⟨hunit, hb, hc, hq⟩ | ⟨hunit, hb, -⟩
  · rw [hunit]
    rfl
  · rw [hunit]
    rfl
  · have hnot : (quoting && Char.ofNat b.toNat == '"') = false := by
      cases quoting with
      | false => rfl
      | true => simpa using hq rfl
    rw [hunit, List.singleton_append, readUnit, hnot]
    · exact congrArg (fun b => some (b, rest)) hb
    · rintro _ _ _ heq
      exact absurd heq hc
    · rintro _ _ heq
      exact absurd heq hc
  · rw [hunit]
    exact congrArg (fun b => some (b, rest)) hb

theorem escapeUnit_ne_nil (quoting : Bool) : ∀ b, escapeUnit quoting b ≠ [] :=
  forall_byte (by cases quoting <;> decide +kernel)

/-- The units of some bytes are read back, up to where no unit begins. -/
theorem readAll_units (quoting : Bool) (bytes : Bytes) {rest : Text}
    (hrest : readUnit quoting rest = none) :
    Units.readAll (readUnit quoting) (bytes.flatMap (escapeUnit quoting) ++ rest).length
      (bytes.flatMap (escapeUnit quoting) ++ rest) = (bytes, rest) := by
  refine Units.readAll_flatMap bytes (fun b _ => readUnit_escapeUnit quoting b) hrest ?_
  have hle := Units.length_le_flatMap (escapeUnit_ne_nil quoting) bytes
  rw [List.length_append]
  omega

theorem unescape_escapeBytes (bytes : Bytes) : unescape (escapeBytes bytes) = bytes := by
  have hread := readAll_units false bytes (show readUnit false [] = none from rfl)
  rw [List.append_nil] at hread
  rw [unescape, escapeBytes, hread]

/-- A quoted literal is recovered behind any text without quotation marks. -/
theorem readQuoted_quoted {before : Text} (hbefore : '"' ∉ before) (bytes : Bytes) (rest : Text) :
    readQuoted (before ++ quoted bytes ++ rest) = some ((before, bytes), rest) := by
  have hall : ∀ c ∈ before, (c != '"') = true := fun c hc =>
    bne_iff_ne.mpr fun h => hbefore (h ▸ hc)
  have hstop : readUnit true ('"' :: rest) = none := rfl
  have hread := readAll_units true bytes hstop
  have htext : before ++ quoted bytes ++ rest =
      before ++ '"' :: (bytes.flatMap (escapeUnit true) ++ '"' :: rest) := by
    simp [quoted]
  rw [htext, readQuoted, List.dropWhile_append_of_pos hall, List.takeWhile_append_of_pos hall]
  simp only [List.dropWhile_cons, List.takeWhile_cons, bne_self_eq_false, Bool.false_eq_true,
    if_false, hread, List.append_nil]

/-! ### Quotation marks -/

/-- The backslashes right at the end of a text. -/
def backslashes (text : Text) : Nat := (text.reverse.takeWhile (· == '\\')).length

theorem backslashes_snoc (text : Text) (c : Char) :
    backslashes (text ++ [c]) = if c = '\\' then backslashes text + 1 else 0 := by
  rw [backslashes, List.reverse_append, List.reverse_singleton, List.singleton_append,
    List.takeWhile_cons]
  by_cases h : c = '\\' <;> simp [h, backslashes]

/-- Whether every quotation mark stands behind an odd number of backslashes, `odd` telling about
those before the text. -/
def quotesEscaped : Bool → Text → Bool
  | _, [] => true
  | odd, c :: text =>
    if c = '\\' then quotesEscaped (!odd) text else (odd || c != '"') && quotesEscaped false text

theorem odd_backslashes {text before after : Text} {odd : Bool} (pre : Text)
    (hpre : odd = true ↔ Odd (backslashes pre)) (h : quotesEscaped odd text = true)
    (htext : text = before ++ '"' :: after) : Odd (backslashes (pre ++ before)) := by
  induction before generalizing pre text odd with
  | nil =>
    rw [htext, List.nil_append, quotesEscaped] at h
    rw [List.append_nil]
    simpa [hpre] using (Bool.and_eq_true_iff.mp h).1
  | cons c _ ih =>
    have hsnoc := backslashes_snoc pre c
    rw [htext, List.cons_append, quotesEscaped] at h
    rw [List.append_cons]
    split at h
    case isTrue hc =>
      refine ih (pre ++ [c]) ?_ h rfl
      rw [hsnoc, if_pos hc, Nat.odd_add_one, ← hpre]
      cases odd <;> simp
    case isFalse hc =>
      refine ih (pre ++ [c]) ?_ (Bool.and_eq_true_iff.mp h).2 rfl
      rw [hsnoc, if_neg hc]
      simp

/-- Whole units leave an even number of backslashes. -/
theorem quotesEscaped_units (bytes : Bytes) :
    quotesEscaped false (bytes.flatMap (escapeUnit true)) = true := by
  induction bytes with
  | nil => rfl
  | cons b _ ih =>
    rw [List.flatMap_cons]
    rcases escapeUnit_cases true b with
      ⟨hunit, -⟩ | ⟨hunit, -⟩ | ⟨hunit, -, hc, hq⟩ | ⟨hunit, -, hhigh, hlow⟩
    · simpa [hunit, quotesEscaped] using ih
    · simpa [hunit, quotesEscaped] using ih
    · simpa [hunit, quotesEscaped, hc, hq rfl] using ih
    · simpa [hunit, quotesEscaped, hhigh, hlow] using ih

/-- **Escaping is safe and reversible.** Both forms are printable ASCII and have a decoder. Escaping
is byte by byte. A quoted literal is delimited by its only two quotation marks that do not stand
behind an odd number of backslashes, and literals between any texts without quotation marks are told
apart from them. -/
theorem escaping_exact :
    (∀ bytes, ∀ c ∈ escapeBytes bytes, 0x20 ≤ c.toNat ∧ c.toNat ≤ 0x7e) ∧
    (∀ bytes, ∀ c ∈ quoted bytes, 0x20 ≤ c.toNat ∧ c.toNat ≤ 0x7e) ∧
    (∀ bytes, unescape (escapeBytes bytes) = bytes) ∧
    (∀ bytes, readQuoted (quoted bytes) = some (([], bytes), [])) ∧
    (∀ a b, escapeBytes (a ++ b) = escapeBytes a ++ escapeBytes b) ∧
    (∀ bytes, ∃ body, quoted bytes = ['"'] ++ body ++ ['"'] ∧
      ∀ before after, body = before ++ '"' :: after → Odd (backslashes ('"' :: before))) ∧
    ∀ (fields : List (Text × Bytes)) (rest : Text), (∀ field ∈ fields, '"' ∉ field.1) →
      '"' ∉ rest →
      readFields (fields.flatMap (fun field => field.1 ++ quoted field.2) ++ rest) =
        (fields, rest) := by
  refine ⟨?_, ?_, unescape_escapeBytes, ?_, fun a b => List.flatMap_append, ?_, ?_⟩
  · intro bytes c hc
    obtain ⟨b, -, hb⟩ := List.mem_flatMap.mp hc
    exact escapeUnit_printable _ b c hb
  · intro bytes c hc
    rw [quoted, List.mem_cons, List.mem_append, List.mem_singleton] at hc
    rcases hc with rfl | hc | rfl
    · decide
    · obtain ⟨b, -, hb⟩ := List.mem_flatMap.mp hc
      exact escapeUnit_printable _ b c hb
    · decide
  · intro bytes
    have hread := readQuoted_quoted List.not_mem_nil bytes []
    rwa [List.append_nil, List.nil_append] at hread
  · intro bytes
    refine ⟨_, (List.cons_append).symm, fun before after heq => ?_⟩
    exact odd_backslashes ['"'] (by simp [backslashes]) (quotesEscaped_units bytes) heq
  · intro fields rest hfields hrest
    have hne : ∀ field : Text × Bytes, field.1 ++ quoted field.2 ≠ [] := by simp [quoted]
    have hle := Units.length_le_flatMap hne fields
    refine Units.readAll_flatMap fields (fun field hmem => ?_) ?_ (by
      rw [List.length_append]; omega)
    · intro rest
      rw [readQuoted_quoted (hfields field hmem)]
    · have hdrop : rest.dropWhile (· != '"') = [] := by
        rw [List.dropWhile_eq_nil_iff]
        exact fun c hc => bne_iff_ne.mpr fun h => hrest (h ▸ hc)
      rw [readQuoted, hdrop]

end Tatami.Report
