import Tatami.Lib.Checked
import Tatami.Lib.Lists
import Tatami.Lib.Utf8

/-! # Identification content

The transport-independent syntax `SSH-protoversion-softwareversion [SP comments]` of RFC 4253 §4.2:
content only, with no line terminator, no length accounting and no version policy. `Parsed` says in
terms of the grammar what the parser makes of its input. -/

namespace Tatami.Wire.Ident

open Checked List

/-- The mandatory start of an identification. -/
def sshDash : Bytes := utf8 "SSH-"

/-- Bytes that may never appear in identification content: CR, LF and NUL. -/
def isForbiddenByte (b : UInt8) : Bool := b == 0x0d || b == 0x0a || b == 0

/-- A byte allowed inside a version token. -/
def isTokenByte (b : UInt8) : Bool := 0x20 < b && b < 0x7f && b != 0x2d

/-- A valid `protoversion` or `softwareversion`. -/
def isVersionToken (token : Bytes) : Bool := !token.isEmpty && token.all isTokenByte

/-- Why content failed to parse. -/
inductive IdentSyntaxError where
  | missingPrefix
  | missingSeparator
  | badProtocolVersion
  | badSoftwareVersion
  | controlCharacter
  deriving DecidableEq, Repr

/-- Parsed identification content. -/
structure Identification where
  input : Bytes
  protocolVersion : Bytes
  softwareVersion : Bytes
  comments : Option Bytes
  deriving DecidableEq, Repr

/-- The part after the first space, if there is a space, and what stands before it. -/
def splitComments (after : Bytes) : Bytes × Option Bytes :=
  match after.findIdx? (· == 0x20) with
  | some sp => (after.take sp, some (after.drop (sp + 1)))
  | none => (after, none)

/-- `Identification::parse`. -/
def parse (input : Bytes) : Except IdentSyntaxError Identification :=
  if input.any isForbiddenByte then .error .controlCharacter
  else if input.take sshDash.length ≠ sshDash then .error .missingPrefix
  else
    let rest := input.drop sshDash.length
    match rest.findIdx? (· == 0x2d) with
    | none => .error .missingSeparator
    | some dash =>
      let protocolVersion := rest.take dash
      if !isVersionToken protocolVersion then .error .badProtocolVersion
      else
        let (softwareVersion, comments) := splitComments (rest.drop (dash + 1))
        if !isVersionToken softwareVersion then .error .badSoftwareVersion
        else .ok { input, protocolVersion, softwareVersion, comments }

variable {input proto software : Bytes}

/-- Parsing keeps the exact input bytes, which start with `SSH-` and hold no forbidden byte. -/
theorem parse_ok {id : Identification} (h : parse input = .ok id) :
    id.input = input ∧ input.any isForbiddenByte = false ∧
      input.take sshDash.length = sshDash := by
  rw [parse] at h
  split at h
  · cases h
  rename_i hforbidden
  split at h
  · cases h
  rename_i hstart
  refine ⟨?_, Bool.not_eq_true _ ▸ hforbidden, not_not.mp hstart⟩
  simp only at h
  split at h
  · cases h
  · split at h
    · cases h
    · split at h
      · cases h
      · cases h
        rfl

/-! ### The grammar -/

/-- A version token: printable ASCII without space and minus, and not empty. -/
def VersionToken (token : Bytes) : Prop :=
  token ≠ [] ∧ ∀ b ∈ token, 0x21 ≤ b ∧ b ≤ 0x7e ∧ b ≠ 0x2d

/-- No CR, LF or NUL. -/
def Clean (input : Bytes) : Prop := ∀ b ∈ input, b ≠ 0x0d ∧ b ≠ 0x0a ∧ b ≠ 0

/-- What stands behind the software version. -/
def commentBytes : Option Bytes → Bytes
  | none => []
  | some c => 0x20 :: c

/-- What an input is, by the grammar: well formed, or at fault where the parser first looks. -/
inductive Parsed (input : Bytes) : Except IdentSyntaxError Identification → Prop where
  | controlCharacter (h : ¬Clean input) : Parsed input (.error .controlCharacter)
  | missingPrefix (hclean : Clean input) (h : ¬sshDash <+: input) :
      Parsed input (.error .missingPrefix)
  | missingSeparator (hclean : Clean input) (rest : Bytes) (hinput : input = sshDash ++ rest)
      (h : 0x2d ∉ rest) : Parsed input (.error .missingSeparator)
  | badProtocolVersion (hclean : Clean input) (proto after : Bytes)
      (hinput : input = sshDash ++ (proto ++ 0x2d :: after)) (hdash : 0x2d ∉ proto)
      (h : ¬VersionToken proto) : Parsed input (.error .badProtocolVersion)
  | badSoftwareVersion (hclean : Clean input) (proto software : Bytes) (comments : Option Bytes)
      (hinput : input = sshDash ++ (proto ++ 0x2d :: (software ++ commentBytes comments)))
      (hproto : VersionToken proto) (hspace : 0x20 ∉ software) (h : ¬VersionToken software) :
      Parsed input (.error .badSoftwareVersion)
  | wellFormed (hclean : Clean input) (proto software : Bytes) (comments : Option Bytes)
      (hinput : input = sshDash ++ (proto ++ 0x2d :: (software ++ commentBytes comments)))
      (hproto : VersionToken proto) (hsoftware : VersionToken software) :
      Parsed input (.ok ⟨input, proto, software, comments⟩)

theorem isVersionToken_iff {token : Bytes} : isVersionToken token = true ↔ VersionToken token := by
  have hbyte (b : UInt8) : isTokenByte b = true ↔ 0x21 ≤ b ∧ b ≤ 0x7e ∧ b ≠ 0x2d := by
    rw [isTokenByte, Bool.and_eq_true, Bool.and_eq_true, decide_eq_true_eq, decide_eq_true_eq,
      bne_iff_ne, and_assoc, UInt8.lt_iff_toNat_lt, UInt8.lt_iff_toNat_lt, UInt8.le_iff_toNat_le,
      UInt8.le_iff_toNat_le]
    refine and_congr ?_ (and_congr ?_ .rfl)
    · change 32 < _ ↔ 33 ≤ _
      omega
    · change _ < 127 ↔ _ ≤ 126
      omega
  rw [isVersionToken, VersionToken, Bool.and_eq_true, all_eq_true]
  simp only [hbyte, Bool.not_eq_true', isEmpty_eq_false_iff]

theorem any_isForbiddenByte_iff : input.any isForbiddenByte = false ↔ Clean input := by
  simp [isForbiddenByte, Clean, and_assoc]

/-- A version token holds no minus and no space. -/
theorem VersionToken.not_mem {token : Bytes} (h : VersionToken token) :
    0x2d ∉ token ∧ 0x20 ∉ token :=
  ⟨fun hmem => (h.2 _ hmem).2.2 rfl, fun hmem => absurd (h.2 _ hmem).1 (by decide)⟩

/-- Comments are split off at the first space. -/
theorem splitComments_eq (h : 0x20 ∉ software) (comments : Option Bytes) :
    splitComments (software ++ commentBytes comments) = (software, comments) := by
  rw [splitComments]
  cases comments with
  | none =>
    rw [commentBytes, append_nil, findIdx?_eq_none_of_not_mem h]
  | some =>
    rw [commentBytes, findIdx?_append_cons h]
    simp

/-- The parser on an input of the right start. -/
theorem parse_append {rest : Bytes} (hclean : Clean (sshDash ++ rest)) :
    parse (sshDash ++ rest) =
      match rest.findIdx? (· == 0x2d) with
      | none => .error .missingSeparator
      | some dash =>
        if !isVersionToken (rest.take dash) then .error .badProtocolVersion
        else
          let (softwareVersion, comments) := splitComments (rest.drop (dash + 1))
          if !isVersionToken softwareVersion then .error .badSoftwareVersion
          else .ok ⟨sshDash ++ rest, rest.take dash, softwareVersion, comments⟩ := by
  rw [parse, any_isForbiddenByte_iff.mpr hclean, if_neg Bool.false_ne_true, take_left,
    if_neg (not_not.mpr rfl), drop_left]

/-- **The parser keeps to the grammar.** -/
theorem parse_of_parsed {r : Except IdentSyntaxError Identification} (h : Parsed input r) :
    parse input = r := by
  cases h with
  | controlCharacter h =>
    rw [parse, if_pos]
    exact Bool.not_eq_false _ ▸ fun hfalse => h (any_isForbiddenByte_iff.mp hfalse)
  | missingPrefix hclean h =>
    rw [parse, any_isForbiddenByte_iff.mpr hclean, if_neg Bool.false_ne_true, if_pos]
    exact fun heq => h (prefix_iff_eq_take.mpr heq.symm)
  | missingSeparator hclean _ hinput h =>
    subst hinput
    rw [parse_append hclean, findIdx?_eq_none_of_not_mem h]
  | badProtocolVersion hclean proto _ hinput hdash h =>
    subst hinput
    have hproto : isVersionToken proto = false :=
      Bool.eq_false_iff.mpr fun htrue => h (isVersionToken_iff.mp htrue)
    rw [parse_append hclean, findIdx?_append_cons hdash]
    simp [hproto]
  | badSoftwareVersion hclean _ software _ hinput hproto hspace h =>
    subst hinput
    have hsoftware : isVersionToken software = false :=
      Bool.eq_false_iff.mpr fun htrue => h (isVersionToken_iff.mp htrue)
    rw [parse_append hclean, findIdx?_append_cons hproto.not_mem.1]
    simp [isVersionToken_iff.mpr hproto, splitComments_eq hspace, hsoftware]
  | wellFormed hclean _ _ _ hinput hproto hsoftware =>
    subst hinput
    rw [parse_append hclean, findIdx?_append_cons hproto.not_mem.1]
    simp [isVersionToken_iff.mpr hproto, splitComments_eq hsoftware.not_mem.2,
      isVersionToken_iff.mpr hsoftware]

/-- Every input is well formed or at fault. -/
theorem exists_parsed (input : Bytes) : ∃ r, Parsed input r := by
  by_cases hclean : Clean input
  swap
  · exact ⟨_, .controlCharacter hclean⟩
  by_cases hstart : sshDash <+: input
  swap
  · exact ⟨_, .missingPrefix hclean hstart⟩
  obtain ⟨rest, hinput⟩ := hstart
  rcases first_cases 0x2d rest with hnone | ⟨proto, after, rfl, hdash⟩
  · exact ⟨_, .missingSeparator hclean rest hinput.symm hnone⟩
  by_cases hproto : VersionToken proto
  swap
  · exact ⟨_, .badProtocolVersion hclean proto after hinput.symm hdash hproto⟩
  obtain ⟨software, comments, rfl, hspace⟩ :
      ∃ software comments, after = software ++ commentBytes comments ∧ 0x20 ∉ software := by
    rcases first_cases 0x20 after with hnone | ⟨software, c, rfl, hspace⟩
    · exact ⟨after, none, (append_nil _).symm, hnone⟩
    · exact ⟨software, some c, rfl, hspace⟩
  by_cases hsoftware : VersionToken software
  · exact ⟨_, .wellFormed hclean proto software comments hinput.symm hproto hsoftware⟩
  · exact ⟨_, .badSoftwareVersion hclean proto software comments hinput.symm hproto hspace
      hsoftware⟩

/-- **What the parser says is what the grammar says.** -/
theorem parsed_iff {r : Except IdentSyntaxError Identification} :
    Parsed input r ↔ parse input = r := by
  refine ⟨parse_of_parsed, ?_⟩
  rintro rfl
  obtain ⟨r, h⟩ := exists_parsed input
  rwa [parse_of_parsed h]

/-- A version token is clean text of ASCII. -/
theorem VersionToken.clean {token : Bytes} (h : VersionToken token) :
    Clean token ∧ ∀ b ∈ token, b < 0x80 := by
  refine ⟨fun b hb => ?_, fun b hb => ?_⟩
  · obtain ⟨hlow, -, -⟩ := h.2 b hb
    refine ⟨?_, ?_, ?_⟩
    all_goals
      rintro rfl
      exact absurd hlow (by decide)
  · obtain ⟨-, hhigh, -⟩ := h.2 b hb
    exact UInt8.lt_of_le_of_lt hhigh (by decide)

/-- The content of an identification with these fields. -/
def content (proto software : Bytes) (comments : Option Bytes) : Bytes :=
  sshDash ++ (proto ++ 0x2d :: (software ++ commentBytes comments))

/-- The comments of an identification hold no forbidden byte. -/
def CleanComments (comments : Option Bytes) : Prop := ∀ c ∈ comments, Clean c

/-- Version tokens and clean comments make clean content. -/
theorem clean_content {comments : Option Bytes} (hproto : VersionToken proto)
    (hsoftware : VersionToken software) :
    Clean (content proto software comments) ↔ CleanComments comments := by
  have hdash : Clean sshDash := any_isForbiddenByte_iff.mp (by decide)
  constructor
  · rintro h c rfl b hb
    refine h b ?_
    simp [content, commentBytes, hb]
  · intro h b hb
    rw [content, mem_append, mem_append, mem_cons, mem_append] at hb
    rcases hb with hb | hb | rfl | hb | hb
    · exact hdash b hb
    · exact hproto.clean.1 b hb
    · decide
    · exact hsoftware.clean.1 b hb
    · cases comments with
      | none => cases hb
      | some c =>
        rcases mem_cons.mp hb with rfl | hb
        · decide
        · exact h c rfl b hb

/-- **What is parsed** is the content of the fields. -/
theorem parse_ok_iff {comments : Option Bytes} :
    parse input = .ok ⟨input, proto, software, comments⟩ ↔
      input = content proto software comments ∧ VersionToken proto ∧ VersionToken software ∧
        Clean input := by
  rw [← parsed_iff]
  constructor
  · intro h
    cases h with
    | wellFormed hclean _ _ _ hinput hproto hsoftware => exact ⟨hinput, hproto, hsoftware, hclean⟩
  · rintro ⟨hinput, hproto, hsoftware, hclean⟩
    exact .wellFormed hclean proto software comments hinput hproto hsoftware

/-- Two version tokens make a well-formed line. -/
theorem VersionToken.parsed (hproto : VersionToken proto) (hsoftware : VersionToken software) :
    parse (sshDash ++ (proto ++ 0x2d :: software)) =
      .ok ⟨sshDash ++ (proto ++ 0x2d :: software), proto, software, none⟩ := by
  have hline : sshDash ++ (proto ++ 0x2d :: software) = content proto software none := by
    rw [content, commentBytes, append_nil]
  exact parse_ok_iff.mpr ⟨hline, hproto, hsoftware,
    hline ▸ (clean_content hproto hsoftware).mpr nofun⟩

/-! ### Versions and encoding -/

/-- Well-known `protoversion` values. -/
inductive ProtocolVersionClass where
  | ssh2
  | ssh2Compatibility
  | other
  deriving DecidableEq, Repr

/-- Classifies a `protoversion` token. -/
def classifyProtocolVersion (token : Bytes) : ProtocolVersionClass :=
  if token = utf8 "2.0" then .ssh2
  else if token = utf8 "1.99" then .ssh2Compatibility
  else .other

/-- Number of bytes an encoding takes, or `none` if the fields are invalid or the size overflows. -/
def encodedLen (protocolVersion softwareVersion : Bytes) (comments : Option Bytes) : Option Nat :=
  if !isVersionToken protocolVersion || !isVersionToken softwareVersion then none
  else if comments.any fun c => c.any isForbiddenByte then none
  else do
    let n ← checkedAdd sshDash.length protocolVersion.length
    let n ← checkedAdd n 1
    let n ← checkedAdd n softwareVersion.length
    match comments with
    | none => some n
    | some c =>
      let n ← checkedAdd n 1
      checkedAdd n c.length

/-- Why an encoding was refused. -/
inductive IdentEncodeError where
  | badProtocolVersion
  | badSoftwareVersion
  | badComments
  | insufficientCapacity (needed available : Nat)
  | lengthOverflow
  deriving DecidableEq, Repr

/-- The bytes `encode` writes at the start of a buffer of `available` bytes. All checks come before
the first write. -/
def encode (protocolVersion softwareVersion : Bytes) (comments : Option Bytes) (available : Nat) :
    Except IdentEncodeError Bytes :=
  if !isVersionToken protocolVersion then .error .badProtocolVersion
  else if !isVersionToken softwareVersion then .error .badSoftwareVersion
  else if comments.any fun c => c.any isForbiddenByte then .error .badComments
  else
    match encodedLen protocolVersion softwareVersion comments with
    | none => .error .lengthOverflow
    | some needed =>
      if available < needed then .error (.insufficientCapacity needed available)
      else
        .ok (sshDash ++ protocolVersion ++ [0x2d] ++ softwareVersion ++
          match comments with
          | none => []
          | some c => 0x20 :: c)

theorem any_any_isForbiddenByte_iff {comments : Option Bytes} :
    (comments.any fun c => c.any isForbiddenByte) = false ↔ CleanComments comments := by
  cases comments with
  | none => simp [CleanComments]
  | some => simpa [CleanComments] using any_isForbiddenByte_iff

/-- Fields have an encoding if they are well formed and it is not too long. -/
theorem encodedLen_eq_some_iff {comments : Option Bytes} {n : Nat} :
    encodedLen proto software comments = some n ↔
      VersionToken proto ∧ VersionToken software ∧ CleanComments comments ∧
        n = (content proto software comments).length ∧ n < 2 ^ 64 := by
  rw [encodedLen, ← isVersionToken_iff, ← isVersionToken_iff, ← any_any_isForbiddenByte_iff]
  cases isVersionToken proto with
  | false => simp
  | true =>
    cases isVersionToken software with
    | false => simp
    | true =>
      cases comments.any fun c => c.any isForbiddenByte with
      | true => simp
      | false =>
        simp only [Bool.not_true, Bool.or_self, Bool.false_eq_true, if_false, Option.bind_eq_bind,
          Option.bind_eq_some_iff, checkedAdd_eq_some_iff, content, length_append,
          length_cons, true_and]
        cases comments with
        | none =>
          simp only [commentBytes, length_nil, Option.some.injEq]
          constructor
          · rintro ⟨_, ⟨-, rfl⟩, _, ⟨-, rfl⟩, _, ⟨h, rfl⟩, rfl⟩
            omega
          · rintro ⟨rfl, h⟩
            exact ⟨_, ⟨by omega, rfl⟩, _, ⟨by omega, rfl⟩, _, ⟨by omega, rfl⟩, by omega⟩
        | some =>
          simp only [commentBytes, length_cons, Option.bind_eq_some_iff,
            checkedAdd_eq_some_iff]
          constructor
          · rintro ⟨_, ⟨-, rfl⟩, _, ⟨-, rfl⟩, _, ⟨-, rfl⟩, _, ⟨-, rfl⟩, h, rfl⟩
            omega
          · rintro ⟨rfl, h⟩
            exact ⟨_, ⟨by omega, rfl⟩, _, ⟨by omega, rfl⟩, _, ⟨by omega, rfl⟩, _,
              ⟨by omega, rfl⟩, by omega, by omega⟩

/-- **What is encoded** is the content of the fields, if it has an encoding and there is room. -/
theorem encode_ok_iff {bytes : Bytes} {comments : Option Bytes} {available : Nat} :
    encode proto software comments available = .ok bytes ↔
      encodedLen proto software comments = some bytes.length ∧ bytes.length ≤ available ∧
        bytes = content proto software comments := by
  have hform : content proto software comments =
      sshDash ++ proto ++ [0x2d] ++ software ++
        match comments with
        | none => []
        | some c => 0x20 :: c := by
    cases comments <;> simp [content, commentBytes]
  unfold encode
  rw [← hform]
  cases hlen : encodedLen proto software comments with
  | none =>
    refine ⟨fun h => ?_, nofun⟩
    split at h
    · cases h
    split at h
    · cases h
    split at h
    · cases h
    cases h
  | some =>
    obtain ⟨hproto, hsoftware, hcomments, hneeded, -⟩ := encodedLen_eq_some_iff.mp hlen
    rw [isVersionToken_iff.mpr hproto, isVersionToken_iff.mpr hsoftware,
      any_any_isForbiddenByte_iff.mpr hcomments]
    simp only [Bool.not_true, Bool.false_eq_true, if_false, Option.some.injEq]
    constructor
    · intro h
      split at h
      · cases h
      · cases h
        exact ⟨hneeded, by omega, rfl⟩
    · rintro ⟨hlength, hroom, rfl⟩
      rw [if_neg (by omega)]

/-! ### Encoding into a buffer -/

/-- The loop that copies parts one behind the other. -/
def copyParts : List Bytes → Nat → Bytes → Checked (Nat × Bytes)
  | [], pos, out => pure (pos, out)
  | part :: parts, pos, out => do
    let next ← addUsize pos part.length
    let out ← overwrite out pos part
    copyParts parts next out

/-- The parts of an identification. -/
def parts (protocolVersion softwareVersion : Bytes) (comments : Option Bytes) : List Bytes :=
  [sshDash, protocolVersion, [0x2d], softwareVersion] ++
    match comments with
    | none => []
    | some c => [[0x20], c]

/-- `encode` on its buffer: what it returns, and the buffer after it. The checks are those of
`encode` above. -/
def encodeInto (protocolVersion softwareVersion : Bytes) (comments : Option Bytes) (out : Bytes) :
    Checked (Except IdentEncodeError Nat × Bytes) :=
  match encode protocolVersion softwareVersion comments out.length with
  | .error e => pure (.error e, out)
  | .ok _ => do
    let (pos, out) ← copyParts (parts protocolVersion softwareVersion comments) 0 out
    pure (.ok pos, out)

/-- Copied parts stand behind what was copied before, and nothing else changes. -/
theorem copyParts_eq {parts : List Bytes} {done out : Bytes}
    (hroom : (done ++ parts.flatten).length ≤ out.length)
    (hlen : (done ++ parts.flatten).length < 2 ^ 64) :
    copyParts parts done.length (done ++ out.drop done.length) =
      .ok ((done ++ parts.flatten).length,
        done ++ parts.flatten ++ out.drop (done ++ parts.flatten).length) := by
  induction parts generalizing done with
  | nil => rw [flatten_nil, append_nil]; rfl
  | cons part parts ih =>
    rw [flatten_cons, ← append_assoc] at hroom hlen ⊢
    have hpart : done.length + part.length = (done ++ part).length := length_append.symm
    have hle : (done ++ part).length ≤ (done ++ part ++ parts.flatten).length :=
      (prefix_append _ _).length_le
    rw [copyParts, addUsize_ok (by omega), ok_bind,
      overwrite_next rfl (by omega), ok_bind, hpart]
    exact ih hroom hlen

/-- **Encoding into a buffer** fills its start, or fails and leaves it alone. -/
theorem encodeInto_eq (proto software : Bytes) (comments : Option Bytes) (out : Bytes) :
    encodeInto proto software comments out =
      .ok (match encode proto software comments out.length with
        | .error e => (.error e, out)
        | .ok bytes => (.ok bytes.length, bytes ++ out.drop bytes.length)) := by
  rw [encodeInto]
  cases hencode : encode proto software comments out.length with
  | error => rfl
  | ok =>
    obtain ⟨hlen, hroom, rfl⟩ := encode_ok_iff.mp hencode
    obtain ⟨-, -, -, -, hlimit⟩ := encodedLen_eq_some_iff.mp hlen
    have hparts : content proto software comments = (parts proto software comments).flatten := by
      cases comments <;> simp [content, parts, commentBytes]
    rw [hparts] at hroom hlimit ⊢
    dsimp only
    rw [← nil_append (List.flatten _)] at hroom hlimit
    have hcopy := copyParts_eq hroom hlimit
    rw [nil_append, length_nil, drop_zero, nil_append] at hcopy
    rw [hcopy]
    rfl

/-! ### Owned copies -/

/-- Owned identification content: the bytes and where the fields end. -/
structure OwnedIdentification where
  bytes : Bytes
  protocolEnd : Nat
  softwareEnd : Nat
  hasComments : Bool
  deriving DecidableEq, Repr

namespace OwnedIdentification

/-- Copies a borrowed identification. -/
def fromBorrowed (id : Identification) : Checked OwnedIdentification := do
  let protocolEnd ← addUsize sshDash.length id.protocolVersion.length
  let separatorEnd ← addUsize protocolEnd 1
  let softwareEnd ← addUsize separatorEnd id.softwareVersion.length
  pure { bytes := id.input, protocolEnd, softwareEnd, hasComments := id.comments.isSome }

/-- The comments of the stored bytes. -/
def comments (owned : OwnedIdentification) : Checked (Option Bytes) :=
  if owned.hasComments then do
    let start ← addUsize owned.softwareEnd 1
    some <$> slice owned.bytes start owned.bytes.length
  else pure none

/-- The borrowed view over the stored bytes. -/
def asBorrowed (owned : OwnedIdentification) : Checked Identification := do
  let comments ← owned.comments
  let protocolVersion ← slice owned.bytes sshDash.length owned.protocolEnd
  let start ← addUsize owned.protocolEnd 1
  let softwareVersion ← slice owned.bytes start owned.softwareEnd
  pure { input := owned.bytes, protocolVersion, softwareVersion, comments }

/-- A part of some bytes, by where it starts and ends. -/
theorem slice_middle {before part after : Bytes} {lo hi : Nat} (hlo : lo = before.length)
    (hhi : hi = lo + part.length) : slice (before ++ (part ++ after)) lo hi = .ok part := by
  subst hhi hlo
  rw [slice_add_ok (by simp), drop_left, take_left]

/-- **An owned copy has the fields** of what was parsed. -/
theorem asBorrowed_fromBorrowed {id : Identification} (hlen : input.length < 2 ^ 64)
    (h : parse input = .ok id) :
    ∃ owned, fromBorrowed id = .ok owned ∧ owned.asBorrowed = .ok id := by
  obtain ⟨input', proto, software, comments⟩ := id
  obtain rfl : input' = input := (parse_ok h).1
  obtain ⟨rfl, -⟩ := parse_ok_iff.mp h
  have hlength : (content proto software comments).length =
      sshDash.length + proto.length + 1 + software.length + (commentBytes comments).length := by
    simp only [content, length_append, length_cons]
    omega
  refine ⟨⟨content proto software comments, sshDash.length + proto.length,
    sshDash.length + proto.length + 1 + software.length, comments.isSome⟩, ?_, ?_⟩
  · rw [fromBorrowed]
    dsimp only
    rw [addUsize_ok (by omega), ok_bind, addUsize_ok (by omega),
      ok_bind, addUsize_ok (by omega)]
    rfl
  · have hcomments : OwnedIdentification.comments ⟨content proto software comments,
        sshDash.length + proto.length, sshDash.length + proto.length + 1 + software.length,
        comments.isSome⟩ = .ok comments := by
      cases comments with
      | none => rfl
      | some c =>
        have hc : (commentBytes (some c)).length = c.length + 1 := rfl
        have hform : content proto software (some c) =
            (sshDash ++ proto ++ [0x2d] ++ software ++ [0x20]) ++ (c ++ []) := by
          simp [content, commentBytes]
        rw [OwnedIdentification.comments]
        dsimp only [Option.isSome_some]
        rw [if_pos rfl, addUsize_ok (by omega), ok_bind, hlength, hform,
          slice_middle]
        · rfl
        · simp only [length_append, length_singleton]
        · omega
    have hproto : content proto software comments =
        sshDash ++ (proto ++ 0x2d :: (software ++ commentBytes comments)) := rfl
    have hsoftware : content proto software comments =
        (sshDash ++ proto ++ [0x2d]) ++ (software ++ commentBytes comments) := by simp [content]
    rw [asBorrowed, hcomments, ok_bind]
    dsimp only
    rw [hproto, slice_middle rfl rfl, ← hproto, ok_bind, addUsize_ok (by omega),
      ok_bind, hsoftware, slice_middle (by simp only [length_append,
        length_singleton]) rfl]
    rfl

end OwnedIdentification

/-- **The grammar of identifications.** What is parsed are the contents of the fields without
forbidden bytes, and encoding the fields gives them back. Encoding succeeds exactly if the fields
have a length and there is room for it; what it writes is parsed to the same fields, and an error
leaves the buffer alone. An owned copy has the fields of what was copied. -/
theorem identification_grammar_exact :
    (∀ s proto software comments, parse s = .ok ⟨s, proto, software, comments⟩ ↔
      s = sshDash ++ (proto ++ 0x2d :: (software ++ commentBytes comments)) ∧
        VersionToken proto ∧ VersionToken software ∧ Clean s) ∧
    (∀ s id, parse s = .ok id → id.input = s) ∧
    (∀ s proto software comments, s.length < 2 ^ 64 →
      parse s = .ok ⟨s, proto, software, comments⟩ →
      encodedLen proto software comments = some s.length ∧ ∀ out, s.length ≤ out.length →
        encodeInto proto software comments out = .ok (.ok s.length, s ++ out.drop s.length)) ∧
    (∀ proto software comments out, ∃ r out',
      encodeInto proto software comments out = .ok (r, out') ∧
      (∀ e, r = .error e → out' = out) ∧
      ((∃ n, r = .ok n) ↔ ∃ n, encodedLen proto software comments = some n ∧ n ≤ out.length) ∧
      ∀ n, r = .ok n → encodedLen proto software comments = some n ∧
        parse (out'.take n) = .ok ⟨out'.take n, proto, software, comments⟩ ∧
        out'.drop n = out.drop n) ∧
    ∀ s id, s.length < 2 ^ 64 → parse s = .ok id →
      ∃ owned, OwnedIdentification.fromBorrowed id = .ok owned ∧ owned.asBorrowed = .ok id := by
  refine ⟨fun s proto software comments => parse_ok_iff, fun s id h => (parse_ok h).1, ?_, ?_,
    fun s id hlen h => OwnedIdentification.asBorrowed_fromBorrowed hlen h⟩
  · intro s proto software comments hlen h
    obtain ⟨rfl, hproto, hsoftware, hclean⟩ := parse_ok_iff.mp h
    have hencoded := encodedLen_eq_some_iff.mpr
      ⟨hproto, hsoftware, (clean_content hproto hsoftware).mp hclean, rfl, hlen⟩
    refine ⟨hencoded, fun out hroom => ?_⟩
    rw [encodeInto_eq, encode_ok_iff.mpr ⟨hencoded, hroom, rfl⟩]
  · intro proto software comments out
    refine ⟨_, _, encodeInto_eq proto software comments out, ?_⟩
    cases hencode : encode proto software comments out.length with
    | error =>
      refine ⟨fun _ _ => rfl, ⟨nofun, ?_⟩, nofun⟩
      rintro ⟨n, hlen, hroom⟩
      obtain ⟨-, -, -, rfl, -⟩ := encodedLen_eq_some_iff.mp hlen
      cases hencode.symm.trans (encode_ok_iff.mpr ⟨hlen, hroom, rfl⟩)
    | ok =>
      obtain ⟨hlen, hroom, rfl⟩ := encode_ok_iff.mp hencode
      refine ⟨nofun, ⟨fun _ => ⟨_, hlen, hroom⟩, fun _ => ⟨_, rfl⟩⟩, ?_⟩
      rintro n hn
      obtain rfl := Except.ok.inj hn
      obtain ⟨hproto, hsoftware, hcomments, -⟩ := encodedLen_eq_some_iff.mp hlen
      dsimp only
      rw [take_left, drop_left]
      exact ⟨hlen, parse_ok_iff.mpr ⟨rfl, hproto, hsoftware,
        (clean_content hproto hsoftware).mpr hcomments⟩, rfl⟩

end Tatami.Wire.Ident
