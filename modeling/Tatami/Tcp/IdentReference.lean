import Mathlib.Data.UInt
import Tatami.Lib.Reactor
import Tatami.Tcp.Ident

/-! # The identification phase on a whole stream

The reader sees a stream in pieces and decides on partial lines. `Reads` is what it should come to
on the whole stream, read off the lines between the LFs: prelude lines within the limits up to the
first line that starts with `SSH-`, and that one by the grammar and the versions.

* `Judged`: what an identification line is worth;
* `Reads`: prelude lines and ending of a stream, for a limit on the bytes of the prelude or none;
* `identification_phase`: fed in any pieces, the reader comes to exactly that, where a byte limit of
  `usize::MAX` is no limit: the total saturates there. -/

namespace Tatami.Tcp

open Tatami.Wire Tatami.Reactor Ident IdentificationReader List

/-! ### The reference -/

/-- How the phase stands at the end of a stream. -/
inductive IdentEnding where
  | needMore
  | failed (e : IdentError)
  | identified (ident : Identification)
  deriving DecidableEq

/-- What an identification line is worth: syntax first, then the version. -/
inductive Judged (line : Bytes) (terminator : LineTerminator) : IdentEnding → Prop where
  | malformed (e : Ident.IdentSyntaxError) (h : Ident.Parsed line (.error e)) :
      Judged line terminator (.failed (.invalidIdentification (.ofSyntax e)))
  | unsupported (c : Ident.Identification) (h : Ident.Parsed line (.ok c))
      (hssh2 : c.protocolVersion ≠ utf8 "2.0") (hcompatible : c.protocolVersion ≠ utf8 "1.99") :
      Judged line terminator (.failed .unsupportedVersion)
  | ssh2 (c : Ident.Identification) (h : Ident.Parsed line (.ok c))
      (hversion : c.protocolVersion = utf8 "2.0") :
      Judged line terminator (.identified
        ⟨line, terminator, c.protocolVersion, c.softwareVersion, c.comments, .ssh2⟩)
  | compatible (c : Ident.Identification) (h : Ident.Parsed line (.ok c))
      (hversion : c.protocolVersion = utf8 "1.99") :
      Judged line terminator (.identified
        ⟨line, terminator, c.protocolVersion, c.softwareVersion, c.comments, .ssh2Compatibility⟩)

/-- The fault of a prelude line of `length` bytes after `lines` lines of `bytes` bytes: its length,
then the number of lines, then the total. -/
def preludeFault (limits : IdentLimits) (byteLimit : Option Nat) (lines bytes length : Nat) :
    Option IdentError :=
  if limits.maxPreludeLine.toNat < length then some .preludeLineTooLong
  else if limits.maxPreludeLines.toNat ≤ lines then some .tooManyPreludeLines
  else if byteLimit.any (· < bytes + length) then some .preludeBytesExceeded
  else none

/-- The ending on a line that has no end yet: it may be as long as its limit already. -/
def unfinished (limits : IdentLimits) (piece : Bytes) : IdentEnding :=
  if sshDash <+: piece then
    if limits.maxIdentificationLine.toNat ≤ piece.length then .failed .identificationTooLong
    else .needMore
  else if piece <+: sshDash then
    if limits.maxLine ≤ piece.length then .failed .preludeLineTooLong else .needMore
  else if limits.maxPreludeLine.toNat ≤ piece.length then .failed .preludeLineTooLong
  else .needMore

/-- What the pieces of a stream between its LFs come to, after `lines` prelude lines of `bytes`
bytes: more prelude lines and an ending. The last piece has no LF behind it. -/
inductive Reads (limits : IdentLimits) (byteLimit : Option Nat) :
    Nat → Nat → List Bytes → List (Bytes × LineTerminator) → IdentEnding → Prop where
  | unfinished (lines bytes : Nat) (piece : Bytes) :
      Reads limits byteLimit lines bytes [piece] [] (unfinished limits piece)
  | tooLong (lines bytes : Nat) (piece next : Bytes) (pieces : List Bytes)
      (hssh : sshDash <+: piece)
      (hlong : limits.maxIdentificationLine.toNat < piece.length + 1) :
      Reads limits byteLimit lines bytes (piece :: next :: pieces) []
        (.failed .identificationTooLong)
  | identification (lines bytes : Nat) (piece next : Bytes) (pieces : List Bytes)
      (ending : IdentEnding) (hssh : sshDash <+: piece)
      (hfits : piece.length + 1 ≤ limits.maxIdentificationLine.toNat)
      (hjudged : Judged (cutCr piece).1 (cutCr piece).2 ending) :
      Reads limits byteLimit lines bytes (piece :: next :: pieces) [] ending
  | refused (lines bytes : Nat) (piece next : Bytes) (pieces : List Bytes) (e : IdentError)
      (hssh : ¬sshDash <+: piece)
      (hfault : preludeFault limits byteLimit lines bytes (piece.length + 1) = some e) :
      Reads limits byteLimit lines bytes (piece :: next :: pieces) [] (.failed e)
  | prelude (lines bytes : Nat) (piece next : Bytes) (pieces : List Bytes)
      (more : List (Bytes × LineTerminator)) (ending : IdentEnding)
      (hssh : ¬sshDash <+: piece)
      (hfault : preludeFault limits byteLimit lines bytes (piece.length + 1) = none)
      (rest : Reads limits byteLimit (lines + 1) (bytes + (piece.length + 1)) (next :: pieces) more
        ending) :
      Reads limits byteLimit lines bytes (piece :: next :: pieces) (cutCr piece :: more) ending

/-- The limit on the bytes of the prelude; the largest one is none. -/
def IdentLimits.byteLimit (limits : IdentLimits) : Option Nat :=
  if limits.maxPreludeBytes.toNat = 2 ^ 64 - 1 then none else some limits.maxPreludeBytes.toNat

/-! ### The reader as a reactor -/

/-- The reader, and the prelude lines it gave out. -/
structure Reading where
  reader : IdentificationReader
  lines : List (Bytes × LineTerminator)

/-- One call of `feed` on all unconsumed bytes. What was consumed is dropped. -/
def Reading.turn (s : Reading) (w : Bytes) :
    Turn Reading UInt8 (List (Bytes × LineTerminator) × IdentEnding) :=
  match s.reader.feed w with
  | (.ok .needMore, _) => .wait
  | (.ok (.prelude line terminator consumed), r) =>
    .go ⟨r, s.lines ++ [(line, terminator)]⟩ (w.drop consumed)
  | (.ok (.identification ident _), _) => .stop (s.lines, .identified ident)
  | (.error e, _) => .stop (s.lines, .failed e)

/-- How it stands when nothing more comes. -/
def Reading.ended (s : Reading) : List (Bytes × LineTerminator) × IdentEnding :=
  (s.lines, .needMore)

/-- Calling `feed` on growing input, piece by piece. -/
def ReadsChunks (limits : IdentLimits) (chunks : List Bytes)
    (lines : List (Bytes × LineTerminator)) (ending : IdentEnding) : Prop :=
  Chunked Reading.turn Reading.ended ⟨.new limits, []⟩ [] chunks (lines, ending)

/-- How the input was cut does not matter to the reader. -/
theorem Reading.stable : Stable Reading.turn fun s => 4 ≤ s.reader.limits.maxLine where
  keeps := by
    intro s s' w w' hs hturn
    rw [turn] at hturn
    split at hturn
    · cases hturn
    · rename_i line t n r hfeed
      cases hturn
      change 4 ≤ r.limits.maxLine
      rw [(feed_ok hfeed).1]
      exact hs
    · cases hturn
    · cases hturn
  append := by
    intro s w hs hturn d
    have hfeed : (s.reader.feed w).1 ≠ .ok .needMore := by
      intro hmore
      apply hturn
      rw [turn]
      split
      · rfl
      all_goals simp_all
    rw [turn, turn, s.reader.feed_append hs hfeed d]
    split
    · rfl
    · rename_i line t n r hprelude
      have hle := (feed_ok hprelude).2.2
      rw [Turn.extend, drop_append_of_le_length hle]
    · rfl
    · rfl

/-- The reader uses up every line that it gives out. -/
theorem Reading.shrinks {s s' : Reading} {w w' : Bytes} (h : s.turn w = .go s' w') :
    w'.length < w.length := by
  rw [turn] at h
  split at h
  · cases h
  · rename_i line t n r hfeed
    cases h
    have hn := (feed_ok hfeed).2
    rw [length_drop]
    omega
  · cases h
  · cases h

/-! ### One line -/

/-- A line without its terminator stands at the front. -/
theorem cutCr_prefix (piece : Bytes) : (cutCr piece).1 <+: piece := by
  rw [cutCr]
  split
  · exact dropLast_prefix piece
  · exact prefix_refl piece

/-- What is taken of a stream as its first line. -/
theorem take_cutCr (piece rest : Bytes) :
    (piece ++ rest).take (cutCr piece).1.length = (cutCr piece).1 := by
  have hpre := cutCr_prefix piece
  rw [take_append_of_le_length hpre.length_le]
  exact (prefix_iff_eq_take.mp hpre).symm

/-- The ending that a parsed line brings. -/
def IdentEnding.ofParse : Except IdentError Identification → IdentEnding
  | .ok ident => .identified ident
  | .error e => .failed e

variable {ending : IdentEnding}

/-- A line is judged as it is parsed. -/
theorem Judged.parse {line : Bytes} {terminator : LineTerminator}
    (h : Judged line terminator ending) :
    .ofParse (parseIdentification line terminator) = ending := by
  rw [parseIdentification]
  cases h with
  | malformed e h =>
    rw [parse_of_parsed h]
    rfl
  | unsupported c h hssh2 hcompatible =>
    rw [parse_of_parsed h]
    simp only [classifyProtocolVersion, if_neg hssh2, if_neg hcompatible]
    rfl
  | ssh2 c h hversion =>
    have hinput := (parse_ok (parse_of_parsed h)).1
    rw [parse_of_parsed h]
    simp only [classifyProtocolVersion, if_pos hversion, hinput]
    rfl
  | compatible c h hversion =>
    have hinput := (parse_ok (parse_of_parsed h)).1
    have hother : c.protocolVersion ≠ utf8 "2.0" := by
      rw [hversion]
      decide
    rw [parse_of_parsed h]
    simp only [classifyProtocolVersion, if_neg hother, if_pos hversion, hinput]
    rfl

theorem exists_judged (line : Bytes) (terminator : LineTerminator) :
    ∃ ending, Judged line terminator ending := by
  obtain ⟨r, h⟩ := exists_parsed line
  cases r with
  | error e => exact ⟨_, .malformed e h⟩
  | ok c =>
    by_cases hssh2 : c.protocolVersion = utf8 "2.0"
    · exact ⟨_, .ssh2 c h hssh2⟩
    by_cases hcompatible : c.protocolVersion = utf8 "1.99"
    · exact ⟨_, .compatible c h hcompatible⟩
    · exact ⟨_, .unsupported c h hssh2 hcompatible⟩

section Lines

variable {limits : IdentLimits} {lines bytes : Nat} {given : List (Bytes × LineTerminator)}
variable {piece : Bytes}

/-- The reader after so many prelude lines of so many bytes. -/
def Reading.after (limits : IdentLimits) (lines bytes : Nat)
    (given : List (Bytes × LineTerminator)) : Reading :=
  ⟨⟨limits, lines, min bytes (2 ^ 64 - 1)⟩, given⟩

/-- The reader on a line without an end. -/
theorem whole_unfinished (h : 0x0a ∉ piece) :
    Whole Reading.turn Reading.ended (.after limits lines bytes given) piece
      (given, unfinished limits piece) := by
  have hstop {e : IdentError} {kind : Option Bool} {limit : Nat}
      (hkind : startsIdentification piece = kind)
      (hlimit : lineLimit ⟨limits, lines, min bytes (2 ^ 64 - 1)⟩ kind = limit)
      (herror : tooLong kind = e) :
      Whole Reading.turn Reading.ended (.after limits lines bytes given) piece
        (given, if limit ≤ piece.length then .failed e else .needMore) := by
    subst hlimit herror
    split
    · rename_i hlong
      refine .stop ?_
      rw [Reading.turn, Reading.after, feed, findLine_of_not_mem h, hkind]
      simp only [if_pos hlong]
    · rename_i hshort
      refine .ended ?_
      rw [Reading.turn, Reading.after, feed, findLine_of_not_mem h, hkind]
      simp only [if_neg hshort]
  have hstart := startsIdentification_eq piece
  rw [unfinished]
  by_cases hssh : sshDash <+: piece
  · rw [if_pos hssh] at hstart ⊢
    exact hstop hstart rfl rfl
  rw [if_neg hssh] at hstart ⊢
  by_cases hpre : piece <+: sshDash
  · rw [if_pos hpre] at hstart ⊢
    exact hstop hstart rfl rfl
  · rw [if_neg hpre] at hstart ⊢
    exact hstop hstart rfl rfl

theorem whole_identification {rest : Bytes} (h : 0x0a ∉ piece) (hssh : sshDash <+: piece)
    (hending : (if limits.maxIdentificationLine.toNat < piece.length + 1
      then .failed .identificationTooLong
      else .ofParse (parseIdentification (cutCr piece).1 (cutCr piece).2)) = ending) :
    Whole Reading.turn Reading.ended (.after limits lines bytes given) (piece ++ 0x0a :: rest)
      (given, ending) := by
  have hstart : startsIdentification (piece ++ 0x0a :: rest) = some true := by
    rw [startsIdentification_eq, if_pos (hssh.trans (prefix_append _ _))]
  have hlength := length_cutCr piece
  subst hending
  refine .stop ?_
  rw [Reading.turn, Reading.after, feed, findLine_piece h, hstart]
  simp only [if_true, take_cutCr, hlength]
  by_cases hlong : limits.maxIdentificationLine.toNat < piece.length + 1
  · simp only [if_pos hlong]
  · simp only [if_neg hlong]
    cases parseIdentification (cutCr piece).1 (cutCr piece).2 with
    | error => rfl
    | ok => rfl

/-- The total of the prelude saturates, and stays within the limit while it should. -/
theorem saturatingAdd_min (bytes n : Nat) :
    Checked.saturatingAdd (min bytes (2 ^ 64 - 1)) n = min (bytes + n) (2 ^ 64 - 1) := by
  rw [Checked.saturatingAdd]
  omega

/-- The byte limit is exceeded for the saturated total exactly if it is for the total. -/
theorem byteLimit_any_iff {n : Nat} :
    limits.byteLimit.any (· < n) = true ↔
      limits.maxPreludeBytes.toNat < min n (2 ^ 64 - 1) := by
  have hlt := limits.maxPreludeBytes.toNat_lt
  rw [IdentLimits.byteLimit]
  split
  · rw [Option.any_none]
    refine ⟨nofun, fun h => ?_⟩
    omega
  · rw [Option.any_some, decide_eq_true_eq]
    omega

theorem turn_prelude {rest : Bytes} (h : 0x0a ∉ piece) (hssh : ¬sshDash <+: piece) :
    (Reading.after limits lines bytes given).turn (piece ++ 0x0a :: rest) =
      match preludeFault limits limits.byteLimit lines bytes (piece.length + 1) with
      | some e => .stop (given, .failed e)
      | none =>
        .go (.after limits (lines + 1) (bytes + (piece.length + 1)) (given ++ [cutCr piece]))
          rest := by
  have hstart := startsIdentification_prelude hssh rest
  have hlength := length_cutCr piece
  have htotal := saturatingAdd_min bytes (piece.length + 1)
  rw [Reading.turn, Reading.after, feed, findLine_piece h]
  simp only [if_neg hstart, take_cutCr, hlength, htotal, preludeFault, byteLimit_any_iff]
  by_cases hlong : limits.maxPreludeLine.toNat < piece.length + 1
  · simp only [if_pos hlong]
  simp only [if_neg hlong]
  by_cases hmany : limits.maxPreludeLines.toNat ≤ lines
  · simp only [if_pos hmany]
  simp only [if_neg hmany]
  by_cases hbytes :
      limits.maxPreludeBytes.toNat < min (bytes + (piece.length + 1)) (2 ^ 64 - 1)
  · simp only [if_pos hbytes]
  · simp only [if_neg hbytes]
    rw [← drop_drop, drop_left]
    rfl

/-- A line is cut off at its LF. -/
theorem splitOn_line (h : 0x0a ∉ piece) (rest : Bytes) :
    (piece ++ 0x0a :: rest).splitOn 0x0a = piece :: rest.splitOn 0x0a :=
  splitOnP_append_cons_of_forall_mem
    (List.findIdx?_eq_none_iff.mp (findIdx?_eq_none_of_not_mem h)) 0x0a rfl rest

/-- The pieces of a stream: the last one, or a line and the pieces of what follows it. -/
theorem splitOn_cases (stream : Bytes) :
    0x0a ∉ stream ∧ stream.splitOn 0x0a = [stream] ∨
      ∃ piece rest next pieces, stream = piece ++ 0x0a :: rest ∧ 0x0a ∉ piece ∧
        rest.splitOn 0x0a = next :: pieces ∧ stream.splitOn 0x0a = piece :: next :: pieces := by
  rcases first_cases 0x0a stream with hnone | ⟨piece, rest, rfl, hpiece⟩
  · exact .inl ⟨hnone, splitOnP_eq_singleton
      (List.findIdx?_eq_none_iff.mp (findIdx?_eq_none_of_not_mem hnone))⟩
  · right
    have hsplit := splitOn_line hpiece rest
    cases hrest : rest.splitOn 0x0a with
    | nil => exact absurd hrest (splitOnP_ne_nil _ _)
    | cons next pieces =>
      rw [hrest] at hsplit
      exact ⟨piece, rest, next, pieces, rfl, hpiece, hrest, hsplit⟩

theorem of_splitOn_eq_cons {stream next : Bytes} {pieces : List Bytes}
    (h : stream.splitOn 0x0a = piece :: next :: pieces) :
    ∃ rest, stream = piece ++ 0x0a :: rest ∧ 0x0a ∉ piece ∧
      rest.splitOn 0x0a = next :: pieces := by
  rcases splitOn_cases stream with ⟨-, hone⟩ | ⟨p, rest, n, _, hstream, hp, hrest, hsplit⟩
  · cases hone.symm.trans h
  · cases hsplit.symm.trans h
    exact ⟨rest, hstream, hp, hrest⟩

/-- **The reader comes to what the reference says.** -/
theorem Reads.whole {pieces : List Bytes} {more : List (Bytes × LineTerminator)}
    (h : Reads limits limits.byteLimit lines bytes pieces more ending) {stream : Bytes}
    (hstream : stream.splitOn 0x0a = pieces) (given : List (Bytes × LineTerminator)) :
    Whole Reading.turn Reading.ended (.after limits lines bytes given) stream
      (given ++ more, ending) := by
  -- along the lines of the stream; the counters and the lines given out grow with it
  induction h generalizing stream given with
  | unfinished lines bytes piece =>
    rcases splitOn_cases stream with ⟨hnone, hone⟩ | ⟨p, rest, _, pieces, -, -, -, hsplit⟩
    · obtain rfl : stream = piece := singleton_inj.mp (hone.symm.trans hstream)
      rw [append_nil]
      exact whole_unfinished hnone
    · cases hsplit.symm.trans hstream
  | tooLong _ _ _ _ _ hssh hlong =>
    obtain ⟨rest, rfl, hpiece, -⟩ := of_splitOn_eq_cons hstream
    rw [append_nil]
    exact whole_identification hpiece hssh (if_pos hlong)
  | identification _ _ _ _ _ _ hssh hfits hjudged =>
    obtain ⟨rest, rfl, hpiece, -⟩ := of_splitOn_eq_cons hstream
    rw [append_nil]
    exact whole_identification hpiece hssh ((if_neg (Nat.not_lt.mpr hfits)).trans hjudged.parse)
  | refused _ _ _ _ _ _ hssh hfault =>
    obtain ⟨rest, rfl, hpiece, -⟩ := of_splitOn_eq_cons hstream
    refine .stop ?_
    rw [turn_prelude hpiece hssh, hfault, append_nil]
  | prelude _ _ piece _ _ more _ hssh hfault _ ih =>
    obtain ⟨rest, rfl, hpiece, hnext⟩ := of_splitOn_eq_cons hstream
    refine .go ((turn_prelude hpiece hssh).trans (by rw [hfault])) ?_
    rw [append_cons given (cutCr piece) more]
    exact ih hnext _

/-- The reference says something about every stream. -/
theorem exists_reads (limits : IdentLimits) (byteLimit : Option Nat) (lines bytes : Nat)
    (piece : Bytes) (pieces : List Bytes) :
    ∃ more ending, Reads limits byteLimit lines bytes (piece :: pieces) more ending := by
  induction pieces generalizing lines bytes piece with
  | nil => exact ⟨_, _, .unfinished lines bytes piece⟩
  | cons next pieces ih =>
    by_cases hssh : sshDash <+: piece
    · by_cases hlong : limits.maxIdentificationLine.toNat < piece.length + 1
      · exact ⟨_, _, .tooLong lines bytes piece next pieces hssh hlong⟩
      · obtain ⟨ending, hjudged⟩ := exists_judged (cutCr piece).1 (cutCr piece).2
        exact ⟨_, _, .identification lines bytes piece next pieces ending hssh
          (Nat.not_lt.mp hlong) hjudged⟩
    · cases hfault : preludeFault limits byteLimit lines bytes (piece.length + 1) with
      | some e => exact ⟨_, _, .refused lines bytes piece next pieces e hssh hfault⟩
      | none =>
        obtain ⟨more, ending, hrest⟩ := ih (lines + 1) (bytes + (piece.length + 1)) next
        exact ⟨_, _, .prelude lines bytes piece next pieces more ending hssh hfault hrest⟩

end Lines

/-- Fed in pieces, the reader comes to what the reference says of the whole stream. -/
theorem Reads.chunked {limits : IdentLimits} {chunks : List Bytes}
    {lines : List (Bytes × LineTerminator)} (hmax : 4 ≤ limits.maxLine)
    (h : Reads limits limits.byteLimit 0 0 (chunks.flatten.splitOn 0x0a) lines ending) :
    ReadsChunks limits chunks lines ending :=
  (chunked_iff_whole Reading.stable Reading.shrinks hmax).mpr (h.whole rfl [])

/-- **The identification phase is exact.** For limits that leave room for `SSH-`, every stream and
every way to cut it: calling `feed` on the growing input gives out the prelude lines and comes to
the ending that the reference reads off the whole stream. -/
theorem identification_phase {limits : IdentLimits} {chunks : List Bytes}
    {lines : List (Bytes × LineTerminator)} {ending : IdentEnding}
    (hmax : 4 ≤ max limits.maxPreludeLine.toNat limits.maxIdentificationLine.toNat) :
    ReadsChunks limits chunks lines ending ↔
      Reads limits limits.byteLimit 0 0 (chunks.flatten.splitOn 0x0a) lines ending := by
  refine ⟨fun h => ?_, fun h => h.chunked hmax⟩
  cases hpieces : chunks.flatten.splitOn 0x0a with
  | nil => exact absurd hpieces (splitOnP_ne_nil _ _)
  | cons piece pieces =>
    obtain ⟨_, _, hreads⟩ := exists_reads limits limits.byteLimit 0 0 piece pieces
    have hwhole : Whole Reading.turn Reading.ended (.after limits 0 0 []) chunks.flatten
        (lines, ending) :=
      (chunked_iff_whole Reading.stable Reading.shrinks (show 4 ≤ limits.maxLine from hmax)).mp h
    cases hwhole.unique (hreads.whole hpieces [])
    exact hreads

/-- A server identification that arrives in two pieces. -/
theorem identification_phase_two_pieces :
    ReadsChunks .default [utf8 "SS", utf8 "H-2.0-x\r\n"] []
      (.identified ⟨utf8 "SSH-2.0-x", .crLf, utf8 "2.0", utf8 "x", none, .ssh2⟩) := by
  refine (identification_phase (by decide)).mpr ?_
  have hparsed : Ident.Parsed (utf8 "SSH-2.0-x")
      (.ok ⟨utf8 "SSH-2.0-x", utf8 "2.0", utf8 "x", none⟩) := parsed_iff.mpr (by decide)
  exact .identification 0 0 (utf8 "SSH-2.0-x\r") [] [] _ (by decide) (by decide)
    (.ssh2 _ hparsed rfl)

/-! ### A prelude of more than `usize::MAX` bytes -/

/-- A line of letters. -/
def letters (n : Nat) : Bytes := List.replicate n 0x61

/-- A line of letters is neither the start of an identification nor the end of a line. -/
theorem letters_plain (n : Nat) : 0x0a ∉ letters n ∧ ¬sshDash <+: letters n ∧
    cutCr (letters n) = (letters n, .lf) := by
  have hmem {b : UInt8} (h : b ∈ letters n) : b = 0x61 := (mem_replicate.mp h).2
  refine ⟨fun h => absurd (hmem h) (by decide), fun h => ?_, ?_⟩
  · have hfirst : 0x53 ∈ sshDash := by decide
    exact absurd (hmem (h.subset hfirst)) (by decide)
  · rw [cutCr, if_neg]
    intro hlast
    exact absurd (hmem (mem_of_getLast? hlast)) (by decide)

/-- The pieces of so many lines of letters. -/
theorem splitOn_letters (n k : Nat) :
    (List.replicate k (letters n ++ [0x0a])).flatten.splitOn 0x0a =
      List.replicate k (letters n) ++ [[]] := by
  induction k with
  | zero => rfl
  | succ k ih =>
    rw [replicate_succ, flatten_cons, append_assoc, replicate_succ]
    exact (splitOn_line (letters_plain n).1 _).trans (congrArg _ ih)

/-- Without a limit on the bytes, the lines of letters are all prelude. -/
theorem reads_letters {limits : IdentLimits} {n k lines bytes : Nat}
    (hline : n + 1 ≤ limits.maxPreludeLine.toNat)
    (hlines : lines + k ≤ limits.maxPreludeLines.toNat) :
    Reads limits none lines bytes (List.replicate k (letters n) ++ [[]])
      (List.replicate k (letters n, .lf)) .needMore := by
  obtain ⟨-, hssh, hcut⟩ := letters_plain n
  induction k generalizing lines bytes with
  | zero =>
    have hmore : unfinished limits [] = .needMore := by
      rw [unfinished, if_neg (by decide), if_pos nil_prefix, if_neg]
      rw [IdentLimits.maxLine, length_nil]
      omega
    rw [← hmore]
    exact .unfinished lines bytes []
  | succ k ih =>
    have hlength : (letters n).length = n := length_replicate
    have hfault : preludeFault limits none lines bytes ((letters n).length + 1) = none := by
      rw [preludeFault, hlength, if_neg (by omega), if_neg (by omega)]
      rfl
    have hrest : Reads limits none (lines + 1) (bytes + ((letters n).length + 1)) _ _ _ :=
      ih (by omega)
    rw [replicate_succ, replicate_succ, cons_append]
    -- There is a piece behind this one, if only the empty one at the end.
    obtain ⟨next, pieces, hpieces⟩ :
        ∃ next pieces, List.replicate k (letters n) ++ [[]] = next :: pieces := by
      cases k with
      | zero => exact ⟨_, _, rfl⟩
      | succ => exact ⟨_, _, rfl⟩
    rw [hpieces] at hrest ⊢
    have h := Reads.prelude lines bytes (letters n) next pieces _ _ hssh hfault hrest
    rwa [hcut] at h

/-- With one, lines that are still waited on are within it. -/
theorem bytes_le_of_reads_letters {limits : IdentLimits} {most n k lines bytes : Nat}
    {more : List (Bytes × LineTerminator)}
    (h : Reads limits (some most) lines bytes (List.replicate k (letters n) ++ [[]]) more ending)
    (hending : ending = .needMore) (hbytes : bytes ≤ most) : bytes + k * (n + 1) ≤ most := by
  induction k generalizing lines bytes more with
  | zero => omega
  | succ k ih =>
    obtain ⟨-, hssh, -⟩ := letters_plain n
    have hlength : (letters n).length = n := length_replicate
    rw [replicate_succ, cons_append] at h
    generalize hpieces : List.replicate k (letters n) ++ [[]] = pieces at h
    cases h with
    | unfinished => cases k <;> cases hpieces
    | tooLong => cases hending
    | identification _ _ _ _ _ _ hdash => exact absurd hdash hssh
    | refused => cases hending
    | prelude _ _ _ _ _ _ _ _ hfault hrest =>
      have hle : bytes + (n + 1) ≤ most := by
        by_contra hlt
        have hany : (some most).any (· < bytes + (n + 1)) = true :=
          decide_eq_true (Nat.lt_of_not_le hlt)
        rw [preludeFault, hlength, if_pos hany] at hfault
        split_ifs at hfault
      rw [← hpieces, hlength] at hrest
      have hmost := ih hrest hle
      rw [Nat.succ_mul]
      omega

/-- A configuration whose only limit is the length of a line. -/
def unlimitedPrelude : IdentLimits where
  maxPreludeLines := 2 ^ 64 - 1
  maxPreludeBytes := 2 ^ 64 - 1
  maxPreludeLine := 2 ^ 16
  maxIdentificationLine := 255

/-- **The largest byte limit is none.** Lines of 64 KiB, one `read` each, `usize::MAX + 1` bytes of
them: the total saturates at the limit and the reader goes on to wait, where a limit of `usize::MAX`
bytes is exceeded. -/
theorem saturated_total_not_refused :
    ReadsChunks unlimitedPrelude (List.replicate (2 ^ 48) (letters (2 ^ 16 - 1) ++ [0x0a]))
        (List.replicate (2 ^ 48) (letters (2 ^ 16 - 1), .lf)) .needMore ∧
      ∀ lines, ¬Reads unlimitedPrelude (some unlimitedPrelude.maxPreludeBytes.toNat) 0 0
        ((List.replicate (2 ^ 48) (letters (2 ^ 16 - 1) ++ [0x0a])).flatten.splitOn 0x0a) lines
        .needMore := by
  rw [splitOn_letters]
  constructor
  · refine Reads.chunked (by decide) ?_
    rw [splitOn_letters, show unlimitedPrelude.byteLimit = none from rfl]
    exact reads_letters (by decide) (by decide)
  · intro lines h
    have hle := bytes_le_of_reads_letters h rfl (Nat.zero_le _)
    exact absurd hle (by decide)

end Tatami.Tcp
