import Tatami.Wire.Ident

/-! # Protocol version exchange over TCP

The server's prelude lines and its identification line (RFC 4253 §4.2): finding line ends across
read boundaries, the limits on both kinds of line, acceptance of a bare LF, and the supported
versions. The reader looks at all unconsumed bytes and says how many of them it took; on a partial
line it decides only what more input cannot change (`feed_append`). -/

namespace Tatami.Tcp

open Tatami.Wire List

/-- Maximum identification line length including CR LF. -/
def maxIdentificationLine : Nat := 255

/-- Resource limits of the identification phase. -/
structure IdentLimits where
  maxPreludeLines : UInt64
  maxPreludeBytes : UInt64
  maxPreludeLine : UInt64
  maxIdentificationLine : UInt64
  deriving DecidableEq, Repr

/-- The defaults. -/
def IdentLimits.default : IdentLimits where
  maxPreludeLines := 64
  maxPreludeBytes := 8 * 1024
  maxPreludeLine := 1024
  maxIdentificationLine := 255

/-- The longer of the two line limits, which bounds a line of either kind. -/
def IdentLimits.maxLine (l : IdentLimits) : Nat :=
  max l.maxPreludeLine.toNat l.maxIdentificationLine.toNat

/-- Line terminator observed on the wire. -/
inductive LineTerminator where
  | crLf
  | lf
  deriving DecidableEq, Repr

/-- Length of a terminator in bytes. -/
def LineTerminator.byteLen : LineTerminator → Nat
  | .crLf => 2
  | .lf => 1

/-- How a protocol version relates to SSH-2. -/
inductive VersionSupport where
  | ssh2
  | ssh2Compatibility
  deriving DecidableEq, Repr

/-- A parsed identification line. -/
structure Identification where
  /-- Exact line bytes with the terminator removed. -/
  line : Bytes
  terminator : LineTerminator
  protocolVersion : Bytes
  softwareVersion : Bytes
  comments : Option Bytes
  support : VersionSupport
  deriving DecidableEq, Repr

/-- What a conforming modern peer would not send. -/
inductive IdentAnomaly where
  | lfOnlyTerminator
  | compatibilityVersion
  deriving DecidableEq, Repr

/-- Owned copy of an identification. -/
structure OwnedIdentification where
  line : Bytes
  terminator : LineTerminator
  protocolVersion : String
  softwareVersion : String
  comments : Option Bytes
  support : VersionSupport
  deriving DecidableEq, Repr

/-- Anomalies present in an identification. -/
def OwnedIdentification.anomalies (i : OwnedIdentification) : List IdentAnomaly :=
  (if i.terminator = .lf then [.lfOnlyTerminator] else []) ++
    (if i.support = .ssh2Compatibility then [.compatibilityVersion] else [])

/-- Copies an identification. -/
def Identification.toOwned (i : Identification) : OwnedIdentification where
  line := i.line
  terminator := i.terminator
  protocolVersion := fromUtf8Lossy i.protocolVersion
  softwareVersion := fromUtf8Lossy i.softwareVersion
  comments := i.comments
  support := i.support

/-! ### Our own line -/

/-- Why an outgoing identification could not be built. -/
inductive InvalidLocalIdentification where
  | badSoftwareVersion
  | tooLong (len : Nat)
  deriving DecidableEq, Repr

/-- Builds our own line `SSH-2.0-<software_version>\r\n`. -/
def buildIdentification (softwareVersion : String) : Except InvalidLocalIdentification Bytes :=
  match Ident.encodedLen (utf8 "2.0") (utf8 softwareVersion) none with
  | none => .error .badSoftwareVersion
  | some contentLen =>
    match Checked.checkedAdd contentLen 2 with
    | none => .error (.tooLong (2 ^ 64 - 1))
    | some len =>
      if maxIdentificationLine < len then .error (.tooLong len)
      else
        match Ident.encode (utf8 "2.0") (utf8 softwareVersion) none len with
        | .error _ => .error .badSoftwareVersion
        | .ok content => .ok (content ++ [0x0d, 0x0a])

variable {buf content line : Bytes} {r r' : IdentificationReader} {t : LineTerminator} {n : Nat}

/-- A line we send: `SSH-2.0-` and the software version, which is a version token. -/
theorem buildIdentification_eq {softwareVersion : String}
    (h : buildIdentification softwareVersion = .ok line) :
    Ident.VersionToken (utf8 softwareVersion) ∧
      line = (Ident.sshDash ++ (utf8 "2.0" ++ 0x2d :: utf8 softwareVersion)) ++ [0x0d, 0x0a] ∧
      line.length ≤ maxIdentificationLine := by
  rw [buildIdentification] at h
  split at h
  · cases h
  rename_i contentLen hlen
  split at h
  · cases h
  rename_i len hadd
  split at h
  · cases h
  rename_i hmax
  split at h
  · cases h
  rename_i content hcontent
  cases h
  obtain ⟨hcl, -, heq⟩ := Ident.encode_ok_iff.mp hcontent
  obtain ⟨-, htoken, -⟩ := Ident.encodedLen_eq_some_iff.mp hcl
  refine ⟨htoken, by rw [heq, Ident.content, Ident.commentBytes, append_nil], ?_⟩
  obtain ⟨-, rfl⟩ := Checked.checkedAdd_eq_some_iff.mp hadd
  rw [hlen, Option.some.injEq] at hcl
  rw [length_append, ← hcl, length_cons, length_singleton]
  omega

theorem buildIdentification_ok {softwareVersion : String}
    (h : buildIdentification softwareVersion = .ok line) :
    ∃ content, line = content ++ [0x0d, 0x0a] ∧ line.length ≤ maxIdentificationLine :=
  ⟨_, (buildIdentification_eq h).2⟩

/-! ### Reading the peer's lines -/

/-- Detail of a malformed identification. -/
inductive InvalidIdentification where
  | missingSeparator
  | badProtocolVersion
  | badSoftwareVersion
  | controlCharacter
  deriving DecidableEq, Repr

/-- Reason an identification line was rejected. -/
inductive IdentError where
  | preludeLineTooLong
  | tooManyPreludeLines
  | preludeBytesExceeded
  | identificationTooLong
  | invalidIdentification (detail : InvalidIdentification)
  | unsupportedVersion
  deriving DecidableEq, Repr

/-- Result of one look at the buffer. -/
inductive IdentStep where
  | needMore
  | prelude (line : Bytes) (terminator : LineTerminator) (consumed : Nat)
  | identification (ident : Identification) (consumed : Nat)
  deriving DecidableEq, Repr

/-- Incremental reader of the peer's prelude and identification. -/
structure IdentificationReader where
  limits : IdentLimits
  preludeLines : Nat
  preludeBytes : Nat
  deriving DecidableEq, Repr

/-- A reader with the given limits. -/
def IdentificationReader.new (limits : IdentLimits) : IdentificationReader := ⟨limits, 0, 0⟩

/-- Whether a buffer starts with `SSH-`; `none` while too few bytes are there to tell. -/
def startsIdentification (buf : Bytes) : Option Bool :=
  if Ident.sshDash.length ≤ buf.length then
    some (buf.take Ident.sshDash.length == Ident.sshDash)
  else if buf = Ident.sshDash.take buf.length then none
  else some false

/-- Content length and terminator of the first line, once its end is there. -/
def findLine (buf : Bytes) : Option (Nat × LineTerminator) :=
  match buf.findIdx? (· == 0x0a) with
  | none => none
  | some lf =>
    if 0 < lf && buf.getD (lf - 1) 0 == 0x0d then some (lf - 1, .crLf) else some (lf, .lf)

/-- Translation of a syntax error of the shared parser. -/
def InvalidIdentification.ofSyntax : Ident.IdentSyntaxError → InvalidIdentification
  | .missingPrefix => .missingSeparator
  | .missingSeparator => .missingSeparator
  | .badProtocolVersion => .badProtocolVersion
  | .badSoftwareVersion => .badSoftwareVersion
  | .controlCharacter => .controlCharacter

/-- Parses an identification line and applies the version policy. -/
def parseIdentification (line : Bytes) (terminator : LineTerminator) :
    Except IdentError Identification :=
  match Ident.parse line with
  | .error e => .error (.invalidIdentification (.ofSyntax e))
  | .ok content =>
    let accept (support : VersionSupport) : Except IdentError Identification :=
      .ok
        { line := content.input, terminator, protocolVersion := content.protocolVersion,
          softwareVersion := content.softwareVersion, comments := content.comments, support }
    match Ident.classifyProtocolVersion content.protocolVersion with
    | .ssh2 => accept .ssh2
    | .ssh2Compatibility => accept .ssh2Compatibility
    | .other => .error .unsupportedVersion

/-- A parsed line keeps its exact bytes, which start with `SSH-` and hold no forbidden byte. -/
theorem parseIdentification_ok {terminator : LineTerminator} {ident : Identification}
    (h : parseIdentification line terminator = .ok ident) :
    ident.line = line ∧ line.any Ident.isForbiddenByte = false ∧
      line.take Ident.sshDash.length = Ident.sshDash := by
  rw [parseIdentification] at h
  split at h
  · cases h
  · rename_i content hcontent
    obtain ⟨hinput, hshape⟩ := Ident.parse_ok hcontent
    simp only at h
    split at h
    · cases h
      exact ⟨hinput, hshape⟩
    · cases h
      exact ⟨hinput, hshape⟩
    · cases h

/-- Our protocol version is a version token. -/
theorem versionToken_two : Ident.VersionToken (utf8 "2.0") :=
  Ident.isVersionToken_iff.mp (by decide)

/-- A line we send is an SSH 2.0 identification with our software version and no comments. -/
theorem parseIdentification_own {software : Bytes} (h : Ident.VersionToken software)
    (terminator : LineTerminator) :
    parseIdentification (Ident.sshDash ++ (utf8 "2.0" ++ 0x2d :: software)) terminator =
      .ok ⟨Ident.sshDash ++ (utf8 "2.0" ++ 0x2d :: software), terminator, utf8 "2.0", software,
        none, .ssh2⟩ := by
  rw [parseIdentification, versionToken_two.parsed h]
  rfl

namespace IdentificationReader

/-- The limit that applies to the line being read. -/
def lineLimit (r : IdentificationReader) : Option Bool → Nat
  | some true => r.limits.maxIdentificationLine.toNat
  | some false => r.limits.maxPreludeLine.toNat
  | none => r.limits.maxLine

/-- The error for a line over its limit. -/
def tooLong : Option Bool → IdentError
  | some true => .identificationTooLong
  | _ => .preludeLineTooLong

/-- `feed`: looks at all unconsumed bytes for the next complete line. The counter of prelude lines
stays below its limit, so its increment cannot overflow. -/
def feed (r : IdentificationReader) (buf : Bytes) :
    Except IdentError IdentStep × IdentificationReader :=
  let isIdent := startsIdentification buf
  match findLine buf with
  | none =>
    if r.lineLimit isIdent ≤ buf.length then (.error (tooLong isIdent), r)
    else (.ok .needMore, r)
  | some (contentLen, terminator) =>
    let consumed := contentLen + terminator.byteLen
    let line := buf.take contentLen
    if isIdent = some true then
      if r.limits.maxIdentificationLine.toNat < consumed then (.error .identificationTooLong, r)
      else
        match parseIdentification line terminator with
        | .error e => (.error e, r)
        | .ok ident => (.ok (.identification ident consumed), r)
    else if r.limits.maxPreludeLine.toNat < consumed then (.error .preludeLineTooLong, r)
    else if r.limits.maxPreludeLines.toNat ≤ r.preludeLines then (.error .tooManyPreludeLines, r)
    else
      let total := Checked.saturatingAdd r.preludeBytes consumed
      if r.limits.maxPreludeBytes.toNat < total then (.error .preludeBytesExceeded, r)
      else
        (.ok (.prelude line terminator consumed),
          { r with preludeLines := r.preludeLines + 1, preludeBytes := total })

end IdentificationReader

/-! ### Where a line ends -/

/-- A line in front of its LF, without the CR that may end it. -/
def cutCr (piece : Bytes) : Bytes × LineTerminator :=
  if piece.getLast? = some 0x0d then (piece.dropLast, .crLf) else (piece, .lf)

theorem startsIdentification_eq (buf : Bytes) :
    startsIdentification buf =
      if Ident.sshDash <+: buf then some true else if buf <+: Ident.sshDash then none
      else some false := by
  rw [startsIdentification]
  by_cases hlen : Ident.sshDash.length ≤ buf.length
  · rw [if_pos hlen]
    by_cases hpre : Ident.sshDash <+: buf
    · rw [if_pos hpre, ← prefix_iff_eq_take.mp hpre, beq_self_eq_true]
    · have hne : buf.take Ident.sshDash.length ≠ Ident.sshDash := fun heq =>
        hpre (prefix_iff_eq_take.mpr heq.symm)
      have hnot : ¬buf <+: Ident.sshDash := fun h => by
        have heq := h.eq_of_length (Nat.le_antisymm h.length_le hlen)
        exact hpre (heq ▸ prefix_refl _)
      rw [if_neg hpre, if_neg hnot, beq_eq_false_iff_ne.mpr hne]
  · have hpre : ¬Ident.sshDash <+: buf := fun h => hlen h.length_le
    rw [if_neg hlen, if_neg hpre]
    by_cases heq : buf = Ident.sshDash.take buf.length
    · rw [if_pos heq, if_pos (prefix_iff_eq_take.mpr heq)]
    · rw [if_neg heq, if_neg fun h => heq (prefix_iff_eq_take.mp h)]

/-- Without an LF there is no line. -/
theorem findLine_of_not_mem {piece : Bytes} (h : 0x0a ∉ piece) : findLine piece = none := by
  rw [findLine, findIdx?_eq_none_of_not_mem h]

/-- The length of a line without its terminator. -/
theorem length_cutCr (piece : Bytes) :
    (cutCr piece).1.length + (cutCr piece).2.byteLen = piece.length + 1 := by
  rw [cutCr]
  split
  · rename_i hlast
    have hne : piece ≠ [] := by
      rintro rfl
      cases hlast
    have hpos := length_pos_of_ne_nil hne
    simp only [length_dropLast, LineTerminator.byteLen]
    omega
  · rfl

/-- The first line is found up to the first LF. -/
theorem findLine_piece {piece : Bytes} (h : 0x0a ∉ piece) (rest : Bytes) :
    findLine (piece ++ 0x0a :: rest) = some ((cutCr piece).1.length, (cutCr piece).2) := by
  have hlast : (0 < piece.length && (piece ++ 0x0a :: rest).getD (piece.length - 1) 0 == 0x0d) =
      decide (piece.getLast? = some 0x0d) := by
    rcases eq_nil_or_concat' piece with rfl | ⟨front, b, rfl⟩
    · rfl
    · rw [Bool.eq_iff_iff]
      simp [getD_eq_getElem?_getD]
  rw [findLine, findIdx?_append_cons h, cutCr]
  simp only [hlast, decide_eq_true_eq]
  split
  · rw [length_dropLast]
  · rfl

/-- A line that is found stands in front of the first LF. -/
theorem findLine_cases (h : findLine buf = some (n, t)) :
    ∃ piece rest, buf = piece ++ 0x0a :: rest ∧ 0x0a ∉ piece ∧ n = (cutCr piece).1.length ∧
      t = (cutCr piece).2 ∧ n + t.byteLen = piece.length + 1 := by
  rcases first_cases 0x0a buf with hnone | ⟨piece, rest, rfl, hpiece⟩
  · rw [findLine_of_not_mem hnone] at h
    cases h
  · rw [findLine_piece hpiece] at h
    cases h
    exact ⟨piece, rest, rfl, hpiece, rfl, rfl, length_cutCr piece⟩

/-! ### What more input cannot change -/

/-- Once the kind of a line is known it stays known. -/
theorem startsIdentification_append {b : Bool} (h : startsIdentification buf = some b) (d : Bytes) :
    startsIdentification (buf ++ d) = some b := by
  have hfront := prefix_append buf d
  rw [startsIdentification_eq] at h ⊢
  by_cases hssh : Ident.sshDash <+: buf
  · rw [if_pos hssh] at h
    rw [if_pos (hssh.trans hfront), h]
  rw [if_neg hssh] at h
  by_cases hpre : buf <+: Ident.sshDash
  · rw [if_pos hpre] at h
    cases h
  -- the bytes that are there already disagree, and they stay in front
  rw [if_neg hpre] at h
  rw [if_neg fun hmore => (List.prefix_or_prefix_of_prefix hmore hfront).elim hssh hpre,
    if_neg fun hmore => hpre (hfront.trans hmore), h]

/-- A prefix of `SSH-` holds no line end. -/
theorem findLine_of_undecided (h : startsIdentification buf = none) :
    findLine buf = none ∧ buf.length < 4 := by
  rw [startsIdentification_eq] at h
  split_ifs at h with hssh hpre
  refine ⟨findLine_of_not_mem fun hlf => absurd (hpre.subset hlf) (by decide), ?_⟩
  by_contra hlong
  exact hssh (hpre.eq_of_length_le (Nat.not_lt.mp hlong) ▸ prefix_refl _)

/-- A line that is complete stays the first line. -/
theorem findLine_append (h : findLine buf = some (n, t)) (d : Bytes) :
    findLine (buf ++ d) = some (n, t) := by
  obtain ⟨_, rest, rfl, hpiece, rfl, rfl, -⟩ := findLine_cases h
  rw [append_assoc]
  exact findLine_piece hpiece (rest ++ d)

/-- A complete line and its terminator are in the buffer. -/
theorem findLine_some (h : findLine buf = some (n, t)) :
    1 ≤ t.byteLen ∧ n + t.byteLen ≤ buf.length := by
  obtain ⟨_, _, rfl, -, -, -, hlength⟩ := findLine_cases h
  refine ⟨by cases t <;> decide, ?_⟩
  rw [hlength, length_append, length_cons]
  omega

/-- A line end that only later input brings lies past everything buffered before. -/
theorem findLine_append_of_none {d : Bytes} (hnone : findLine buf = none)
    (h : findLine (buf ++ d) = some (n, t)) : buf.length < n + t.byteLen := by
  obtain ⟨piece, rest, hbuf, -, -, -, hlength⟩ := findLine_cases h
  rcases first_cases 0x0a buf with hno | ⟨piece', rest', rfl, hpiece'⟩
  · by_contra hlong
    have hfront : piece ++ [0x0a] <+: buf ++ d := ⟨rest, by rw [hbuf, append_assoc]; rfl⟩
    have hin := prefix_of_prefix_length_le hfront (prefix_append buf d)
      (by rw [length_append, length_singleton]; omega)
    exact hno (hin.subset (by simp))
  · rw [findLine_piece hpiece'] at hnone
    cases hnone

namespace IdentificationReader

/-- With room for the four bytes of `SSH-`, a proper beginning of them is waited on. -/
theorem feed_undecided (r : IdentificationReader) (hmax : 4 ≤ r.limits.maxLine)
    (hkind : startsIdentification buf = none) : r.feed buf = (.ok .needMore, r) := by
  obtain ⟨hnone, hshort⟩ := findLine_of_undecided hkind
  have hlimit : ¬r.lineLimit none ≤ buf.length := by
    rw [lineLimit]
    omega
  rw [feed, hnone, hkind]
  simp only
  rw [if_neg hlimit]

/-- **Chunking does not matter to the reader.** With room for the four bytes of `SSH-`, a decision
taken on a buffer is taken on every extension of it. -/
theorem feed_append (r : IdentificationReader) (hmax : 4 ≤ r.limits.maxLine)
    (h : (r.feed buf).1 ≠ .ok .needMore) (d : Bytes) : r.feed (buf ++ d) = r.feed buf := by
  cases hkind : startsIdentification buf with
  | none => exact absurd (congrArg Prod.fst (r.feed_undecided hmax hkind)) h
  | some kind =>
    have hkind' := startsIdentification_append hkind d
    cases hline : findLine buf with
    | some p =>
      obtain ⟨n, t⟩ := p
      have hn := (findLine_some hline).2
      rw [feed, feed, hkind, hkind', hline, findLine_append hline d]
      simp only
      rw [take_append_of_le_length (by omega)]
    | none =>
      -- the buffered part alone is over the limit
      have hover : r.lineLimit (some kind) ≤ buf.length := by
        by_contra hlt
        apply h
        rw [feed, hline, hkind]
        simp only
        rw [if_neg hlt]
      have hbuf : r.feed buf = (.error (tooLong (some kind)), r) := by
        rw [feed, hline, hkind]
        simp only
        rw [if_pos hover]
      rw [hbuf, feed, hkind']
      cases hline' : findLine (buf ++ d) with
      | none =>
        simp only
        rw [if_pos (by rw [length_append]; omega)]
      | some p =>
        obtain ⟨n, t⟩ := p
        have hlen := findLine_append_of_none hline hline'
        cases kind with
        | true =>
          simp only [lineLimit] at hover
          simp only [if_true]
          rw [if_pos (by omega)]
          rfl
        | false =>
          simp only [lineLimit] at hover
          simp only [Option.some.injEq, Bool.false_eq_true, if_false]
          rw [if_pos (by omega)]
          rfl

/-- What a reader takes is in the buffer and not empty; an identification is shorter than its
limit, and stands at the start of what is taken with nothing but its terminator behind it. -/
theorem feed_ok {s : IdentStep} (h : r.feed buf = (.ok s, r')) :
    r'.limits = r.limits ∧
      match s with
      | .needMore => r' = r
      | .prelude _ _ consumed => 1 ≤ consumed ∧ consumed ≤ buf.length
      | .identification ident consumed => r' = r ∧ 1 ≤ consumed ∧ consumed ≤ buf.length ∧
          ident.line.length < r.limits.maxIdentificationLine.toNat ∧
          ident.line <+: buf.take consumed ∧ consumed ≤ ident.line.length + 2 := by
  rw [feed] at h
  cases hline : findLine buf with
  | none =>
    rw [hline] at h
    simp only at h
    split at h
    · cases h
    · cases h
      exact ⟨rfl, rfl⟩
  | some p =>
    obtain ⟨n, t⟩ := p
    obtain ⟨hpos, hle⟩ := findLine_some hline
    rw [hline] at h
    simp only at h
    split at h
    · split at h
      · cases h
      · rename_i hlimit
        split at h
        · cases h
        · rename_i ident hident
          cases h
          have hident : ident.line = buf.take n := (parseIdentification_ok hident).1
          have hlen : ident.line.length = n := by
            rw [hident, length_take]
            omega
          have htwo : t.byteLen ≤ 2 := by cases t <;> decide
          refine ⟨rfl, rfl, by omega, hle, by omega, ?_, by omega⟩
          rw [hident]
          exact take_prefix_take_left (by omega)
    · split at h
      · cases h
      · split at h
        · cases h
        · split at h
          · cases h
          · cases h
            exact ⟨rfl, by omega, hle⟩

/-- A reader that refuses a line stays as it is. -/
theorem feed_error {e : IdentError} (h : r.feed buf = (.error e, r')) : r' = r := by
  rw [feed] at h
  simp only at h
  repeat' split at h
  all_goals cases h
  all_goals rfl

/-- A reader takes a prelude line only from bytes that are not an identification. -/
theorem feed_prelude_start (h : r.feed buf = (.ok (.prelude line t n), r')) :
    startsIdentification buf = some false := by
  cases hkind : startsIdentification buf with
  | none =>
    rw [feed, (findLine_of_undecided hkind).1] at h
    rcases ite_eq_iff.mp h with ⟨-, h⟩ | ⟨-, h⟩
    · cases h
    · cases h
  | some kind =>
    cases kind with
    | false => rfl
    | true =>
      rw [feed, hkind] at h
      simp only [if_true] at h
      repeat' split at h
      all_goals cases h

/-- A reader asks for more while the line is within the looser limit. -/
theorem feed_needMore (h : r.feed buf = (.ok .needMore, r')) : buf.length < r.limits.maxLine := by
  rw [feed] at h
  cases hline : findLine buf with
  | none =>
    rw [hline] at h
    simp only at h
    rcases ite_eq_iff.mp h with ⟨-, h⟩ | ⟨hshort, -⟩
    · cases h
    refine Nat.lt_of_lt_of_le (Nat.not_le.mp hshort) ?_
    cases startsIdentification buf with
    | none => exact Nat.le_refl _
    | some kind =>
      cases kind with
      | true => exact Nat.le_max_right _ _
      | false => exact Nat.le_max_left _ _
  | some =>
    rw [hline] at h
    simp only at h
    repeat' split at h
    all_goals cases h

end IdentificationReader

/-! ### Lines within the limits -/

/-- The bytes of a terminator. -/
def LineTerminator.bytes : LineTerminator → Bytes
  | .crLf => [0x0d, 0x0a]
  | .lf => [0x0a]

/-- Content without CR and LF is found with the terminator behind it. -/
theorem findLine_content (hlf : 0x0a ∉ content) (hcr : 0x0d ∉ content) (t : LineTerminator)
    (rest : Bytes) : findLine (content ++ (t.bytes ++ rest)) = some (content.length, t) := by
  cases t with
  | crLf =>
    have hpiece := findLine_piece (show 0x0a ∉ content ++ [0x0d] by simp [hlf]) rest
    rw [cutCr, if_pos List.getLast?_concat, dropLast_concat, append_assoc] at hpiece
    exact hpiece
  | lf =>
    have hpiece := findLine_piece hlf rest
    rw [cutCr, if_neg fun hlast => hcr (mem_of_getLast? hlast)] at hpiece
    exact hpiece

/-- A line that does not start with `SSH-` is not taken for an identification. -/
theorem startsIdentification_prelude (h : ¬Ident.sshDash <+: content) (rest : Bytes) :
    startsIdentification (content ++ 0x0a :: rest) ≠ some true := by
  rw [startsIdentification_eq]
  intro hstart
  split_ifs at hstart with hssh
  swap
  · cases hstart
  have hfront : content ++ [0x0a] <+: content ++ 0x0a :: rest := ⟨rest, append_assoc _ _ _⟩
  rcases List.prefix_or_prefix_of_prefix hfront hssh with hpre | hpre
  · -- the LF would have to be a byte of `SSH-`
    exact absurd (hpre.subset (mem_append_right _ (mem_singleton_self _))) (by decide)
  · rcases prefix_concat_iff.mp hpre with heq | hpre
    · exact absurd (heq ▸ mem_append_right content (mem_singleton_self (0x0a : UInt8)))
        (by decide)
    · exact h hpre

namespace IdentificationReader

/-- A prelude line within the limits is taken. -/
theorem feed_prelude (hlf : 0x0a ∉ content) (hssh : ¬Ident.sshDash <+: content)
    (hline : content.length + 1 ≤ r.limits.maxPreludeLine.toNat)
    (hlines : r.preludeLines < r.limits.maxPreludeLines.toNat)
    (hbytes : r.preludeBytes + (content.length + 1) ≤ r.limits.maxPreludeBytes.toNat)
    (rest : Bytes) :
    ∃ line t, r.feed (content ++ 0x0a :: rest) =
      (.ok (.prelude line t (content.length + 1)),
        { r with
          preludeLines := r.preludeLines + 1,
          preludeBytes := r.preludeBytes + (content.length + 1) }) := by
  have hconsumed := length_cutCr content
  have hfits := r.limits.maxPreludeBytes.toNat_lt
  have htotal : Checked.saturatingAdd r.preludeBytes (content.length + 1) =
      r.preludeBytes + (content.length + 1) := by
    rw [Checked.saturatingAdd]
    omega
  rw [feed, findLine_piece hlf]
  simp only [hconsumed, htotal]
  rw [if_neg (startsIdentification_prelude hssh rest), if_neg (by omega), if_neg (by omega),
    if_neg (by omega)]
  exact ⟨_, _, rfl⟩

/-- An identification line within its limit that parses is taken. -/
theorem feed_identification {ident : Identification}
    (hparse : parseIdentification line t = .ok ident)
    (hline : line.length + t.byteLen ≤ r.limits.maxIdentificationLine.toNat) (rest : Bytes) :
    r.feed (line ++ (t.bytes ++ rest)) =
      (.ok (.identification ident (line.length + t.byteLen)), r) := by
  obtain ⟨-, hforbidden, hssh⟩ := parseIdentification_ok hparse
  have hclean : ∀ b ∈ line, Ident.isForbiddenByte b = false := by
    simpa using hforbidden
  have hlf : 0x0a ∉ line := fun hmem => absurd (hclean _ hmem) (by decide)
  have hcr : 0x0d ∉ line := fun hmem => absurd (hclean _ hmem) (by decide)
  have hstart : startsIdentification (line ++ (t.bytes ++ rest)) = some true := by
    rw [startsIdentification_eq, if_pos]
    exact (prefix_iff_eq_take.mpr hssh.symm).trans (prefix_append _ _)
  rw [feed, findLine_content hlf hcr, hstart]
  simp only [if_true]
  rw [if_neg (by omega), take_left, hparse]

end IdentificationReader

end Tatami.Tcp
