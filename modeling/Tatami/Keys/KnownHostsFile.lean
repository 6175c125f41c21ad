import Tatami.Keys.KnownHosts
import Tatami.Lib.Lists

/-! # A `known_hosts` file is parsed completely or not at all

What the parser does with every line of a file:

* `fieldOf`, `HasParts`, `HostsOf`, `KeyOk` say what a line consists of, without the parser's
  control flow, and `parseLine_gives_iff` that a line is accepted exactly if it consists of that;
* `parseLines_gives_iff` and `parseLines_fails_iff` carry it over the loop;
* `known_hosts_all_or_nothing` is the result for whole files. -/

namespace Tatami.Keys

open Fallible KnownHosts List

/-! ### Fields -/

/-- The next field of a text and what follows it. -/
def fieldOf (s : Bytes) : Option (Bytes × Bytes) :=
  let s := s.dropWhile isSpace
  if s = [] then none
  else some (s.takeWhile fun b => !isSpace b, s.dropWhile fun b => !isSpace b)

theorem trimStart_eq (s : Bytes) : trimStart s = .ok (s.dropWhile isSpace) := by
  have hle : (s.takeWhile isSpace).length ≤ s.length := (takeWhile_sublist _).length_le
  have hsplit : s.takeWhile isSpace ++ s.dropWhile isSpace = s := takeWhile_append_dropWhile
  rw [trimStart, Checked.slice_ok hle (Nat.le_refl _), take_length]
  refine congrArg Except.ok ?_
  conv_lhs => rw [← hsplit]
  exact drop_left' (by rw [hsplit])

/-- Splitting off a field stays within the text. -/
theorem nextField_eq (s : Bytes) : nextField s = .ok (fieldOf s) := by
  unfold nextField fieldOf
  rw [trimStart_eq, Checked.ok_bind]
  generalize s.dropWhile isSpace = t
  cases t with
  | nil => rfl
  | cons b t =>
    rw [if_neg (by simp), if_neg (cons_ne_nil b t), ← findIdx_eq_getD_findIdx?]
    dsimp only
    rw [Checked.slice_ok (Nat.zero_le _) findIdx_le_length,
      Checked.slice_ok findIdx_le_length (Nat.le_refl _)]
    simp only [Checked.ok_bind, Checked.pure_eq_ok, take_length, drop_zero,
      takeWhile_eq_take_findIdx_not, dropWhile_eq_drop_findIdx_not, Bool.not_not]

variable {content raw : Bytes} {e : KnownHostsError} {before line number : Nat}

/-- A required field is the next one. -/
theorem requireField_gives_iff {what : String} {s : Bytes} {split : Bytes × Bytes} :
    Gives (requireField line what s) split ↔ fieldOf s = some split := by
  unfold requireField
  rw [nextField_eq]
  simp only [gives_bind_iff, gives_liftChecked_iff, Except.ok.injEq, exists_eq_left']
  cases fieldOf s with
  | none => exact ⟨nofun, nofun⟩
  | some => exact gives_pure_iff.trans ⟨fun h => h ▸ rfl, fun h => (Option.some.inj h).symm⟩

/-- Asking for a field does not panic. -/
theorem requireField_safe (line : Nat) (what : String) (s : Bytes) :
    Safe (requireField line what s) := by
  unfold requireField
  refine Safe.bind (safe_liftChecked ⟨_, nextField_eq s⟩) fun field => ?_
  cases field with
  | none => exact safe_throw _
  | some x => exact safe_pure x

/-! ### Lines -/

/-- The marker of a line, its host field and what follows that. -/
def HasStart (content : Bytes) (marker : Marker) (hostField rest : Bytes) : Prop :=
  ∃ first rest₀, fieldOf content = some (first, rest₀) ∧
    (first.head? ≠ some 64 ∧ marker = .none ∧ hostField = first ∧ rest = rest₀ ∨
      (first = utf8 "@revoked" ∧ marker = .revoked ∨
        first = utf8 "@cert-authority" ∧ marker = .certAuthority) ∧
        fieldOf rest₀ = some (hostField, rest))

/-- The marker, the host field, the key type and the key field of a line. -/
def HasParts (content : Bytes) (marker : Marker) (hostField keyType keyField : Bytes) : Prop :=
  ∃ rest rest₁ comment, HasStart content marker hostField rest ∧
    fieldOf rest = some (keyType, rest₁) ∧ fieldOf rest₁ = some (keyField, comment)

/-- A part of the host field as a pattern. -/
def toPattern (raw : Bytes) : Pattern where
  negated := (splitNegation raw).1
  text := toAsciiLowercase (splitNegation raw).2

/-- What the host field of an accepted line stands for: a hashed name, or patterns. -/
def HostsOf (K : Compat) (limits : Limits) (field : Bytes) (hosts : Hosts) : Prop :=
  field.head? = some 124 ∧ K.featureHashedHosts = true ∧ hosts = .hashed field ∧
      (∃ salt digest, IsHashedField K field salt digest) ∨
    field.head? ≠ some 124 ∧ (field.splitOn 44).length ≤ limits.maxPatternsPerLine ∧
      hosts = .patterns ((field.splitOn 44).map toPattern) ∧
      ∀ raw ∈ field.splitOn 44, (splitNegation raw).2 ≠ [] ∧
        (splitNegation raw).2.head? ≠ some 124

/-- The key field is text and base64 of this blob. -/
def IsKeyText (K : Compat) (field blob : Bytes) : Prop :=
  (String.fromUTF8? ⟨field.toArray⟩).isSome = true ∧ K.decode field = some blob

/-- The key of an accepted line: the blob names its type, and a key of an enabled type is well
formed or only outside the RSA policy. -/
def KeyOk (C : Crypto) (keyType blob : Bytes) : Prop :=
  (∃ parsed, PublicKeyBlob.decode blob = .ok parsed ∧ parsed.algorithm = keyType) ∧
  ∀ t, KeyType.fromName keyType = some t → t.isEnabled C = true →
    (∃ key, HostKey.parse C blob = .ok key) ∨
    (∃ bits, HostKey.parse C blob = .error (.rsaModulus bits)) ∨
    HostKey.parse C blob = .error .rsaExponent

/-- What an accepted line says, but for its number. -/
def LineSays (C : Crypto) (K : Compat) (limits : Limits) (content : Bytes) (entry : Entry) : Prop :=
  0 ∉ content ∧ ∃ hostField keyField,
    HasParts content entry.marker hostField entry.keyType keyField ∧
    HostsOf K limits hostField entry.hosts ∧ IsKeyText K keyField entry.blob ∧
    KeyOk C entry.keyType entry.blob

variable {C : Crypto} {K : Compat} {limits : Limits}

theorem parseMarker_ok_iff {first : Bytes} {marker : Marker} :
    parseMarker first line = .ok marker ↔
      first = utf8 "@revoked" ∧ marker = .revoked ∨
        first = utf8 "@cert-authority" ∧ marker = .certAuthority := by
  unfold parseMarker
  have hne : utf8 "@revoked" ≠ utf8 "@cert-authority" := by decide
  by_cases hrevoked : first = utf8 "@revoked"
  · subst hrevoked
    simp [hne, eq_comm]
  · by_cases hauthority : first = utf8 "@cert-authority"
    · subst hauthority
      simp [hrevoked, eq_comm]
    · simp [hrevoked, hauthority]

/-- The start of a line is read as it is. -/
theorem parseStart_gives_iff {marker : Marker} {hostField rest : Bytes} :
    Gives (parseStart content line) (marker, hostField, rest) ↔
      HasStart content marker hostField rest := by
  unfold parseStart HasStart
  simp only [gives_bind_iff, requireField_gives_iff, Prod.exists]
  refine exists_congr fun first => exists_congr fun rest₀ => and_congr_right fun _ => ?_
  by_cases hmark : first.head? = some 64
  · rw [if_pos hmark]
    simp only [gives_bind_iff, gives_liftExcept_iff, requireField_gives_iff, Prod.exists,
      gives_pure_iff, Prod.mk.injEq, parseMarker_ok_iff]
    constructor
    · rintro ⟨m, hm, f, r, hfield, rfl, rfl, rfl⟩
      exact .inr ⟨hm, hfield⟩
    · rintro (⟨hnot, -⟩ | ⟨hm, hfield⟩)
      · exact absurd hmark hnot
      · exact ⟨marker, hm, hostField, rest, hfield, rfl, rfl, rfl⟩
  · rw [if_neg hmark, gives_pure_iff, Prod.mk.injEq, Prod.mk.injEq]
    constructor
    · exact fun h => .inl ⟨hmark, h⟩
    · rintro (⟨-, h⟩ | ⟨⟨rfl, -⟩ | ⟨rfl, -⟩, -⟩)
      · exact h
      · exact absurd (by decide) hmark
      · exact absurd (by decide) hmark

/-- The loop over the parts of a host field. -/
theorem parsePatterns_ok_iff {raws : List Bytes} {patterns result : List Pattern}
    (hlen : patterns.length ≤ limits.maxPatternsPerLine) :
    parsePatterns line limits raws patterns = .ok result ↔
      patterns.length + raws.length ≤ limits.maxPatternsPerLine ∧
      result = patterns ++ raws.map toPattern ∧
      ∀ raw ∈ raws, (splitNegation raw).2 ≠ [] ∧ (splitNegation raw).2.head? ≠ some 124 := by
  induction raws generalizing patterns with
  | nil =>
    rw [parsePatterns, Except.ok.injEq, map_nil, append_nil, eq_comm]
    exact ⟨fun h => ⟨hlen, h, nofun⟩, fun h => h.2.1⟩
  | cons raw _ ih =>
    rw [parsePatterns]
    by_cases hfull : limits.maxPatternsPerLine ≤ patterns.length
    · rw [if_pos hfull, length_cons]
      exact ⟨nofun, fun h => absurd h.1 (by omega)⟩
    rw [if_neg hfull]
    dsimp only
    by_cases hempty : (splitNegation raw).2 = []
    · rw [if_pos (List.isEmpty_iff.mpr hempty)]
      exact ⟨nofun, fun h => absurd hempty (h.2.2 raw mem_cons_self).1⟩
    rw [if_neg (fun h => hempty (List.isEmpty_iff.mp h))]
    by_cases hbar : (splitNegation raw).2.head? = some 124
    · rw [if_pos hbar]
      exact ⟨nofun, fun h => absurd hbar (h.2.2 raw mem_cons_self).2⟩
    rw [if_neg hbar, ih (by rw [length_append]; exact Nat.lt_of_not_le hfull),
      forall_mem_cons, length_append, length_cons, length_nil,
      length_cons, append_assoc]
    constructor
    · rintro ⟨hle, hresult, hrest⟩
      exact ⟨by omega, hresult, ⟨hempty, hbar⟩, hrest⟩
    · rintro ⟨hle, hresult, -, hrest⟩
      exact ⟨by omega, hresult, hrest⟩

/-- The host field is accepted exactly if it stands for something. -/
theorem parseHosts_ok_iff {field : Bytes} {hosts : Hosts} :
    parseHosts K field line limits = .ok hosts ↔ HostsOf K limits field hosts := by
  unfold parseHosts HostsOf
  by_cases hhead : field.head? = some 124
  · rw [if_pos hhead, parseHashed]
    constructor
    · intro h
      split at h
      · next hfeature =>
        split at h
        · next b hmatch =>
          cases h
          obtain ⟨-, salt, digest, hfield, -⟩ := matchesHashedHostname_ok_iff.mp hmatch
          exact .inl ⟨hhead, hfeature, rfl, salt, digest, hfield⟩
        · cases h
      · cases h
    · rintro (⟨-, hfeature, rfl, salt, digest, hfield⟩ | ⟨hnot, -⟩)
      · rw [if_pos hfeature, matchesHashedHostname_ok_iff.mpr
          ⟨Nat.zero_le _, salt, digest, hfield, rfl⟩]
      · exact absurd hhead hnot
  · rw [if_neg hhead, Except.map_ok_iff]
    have hnil : ([] : List Pattern).length ≤ limits.maxPatternsPerLine := Nat.zero_le _
    simp only [parsePatterns_ok_iff hnil, length_nil, Nat.zero_add, nil_append]
    constructor
    · rintro ⟨_, ⟨hlen, rfl, hraws⟩, rfl⟩
      exact .inr ⟨hhead, hlen, rfl, hraws⟩
    · rintro (⟨hbar, -⟩ | ⟨-, hlen, rfl, hraws⟩)
      · exact absurd hbar hhead
      · exact ⟨_, ⟨hlen, rfl, hraws⟩, rfl⟩

/-- The key field is accepted exactly if it is text and base64. -/
theorem decodeKey_ok_iff {field blob : Bytes} :
    decodeKey K field line = .ok blob ↔ IsKeyText K field blob := by
  unfold decodeKey IsKeyText
  split
  · next htext =>
    cases K.decode field with
    | none => exact ⟨nofun, nofun⟩
    | some => simp [htext]
  · next htext => exact ⟨nofun, fun h => absurd h.1 htext⟩

/-- The key is accepted exactly if it passes its checks. -/
theorem checkKey_ok_iff {keyType blob : Bytes} {u : Unit} :
    checkKey C keyType blob line = .ok u ↔ KeyOk C keyType blob := by
  unfold checkKey KeyOk
  cases hblob : PublicKeyBlob.decode blob with
  | error => exact ⟨nofun, fun ⟨⟨_, h, _⟩, _⟩ => nomatch h⟩
  | ok parsed =>
    simp only [Except.ok.injEq, exists_eq_left']
    by_cases halgorithm : parsed.algorithm = keyType
    · rw [if_neg (not_not.mpr halgorithm)]
      cases htype : (KeyType.fromName keyType).filter fun t => t.isEnabled C with
      | none =>
        refine ⟨fun _ => ⟨halgorithm, fun t hname henabled => ?_⟩, fun _ => rfl⟩
        rw [hname, Option.filter_some, if_pos henabled] at htype
        cases htype
      | some =>
        obtain ⟨hname, henabled⟩ := Option.filter_eq_some_iff.mp htype
        rw [hname]
        simp only [Option.some.injEq, forall_eq', henabled, true_implies]
        cases hkey : HostKey.parse C blob with
        | ok => simp [halgorithm]
        | error e => cases e <;> simp [halgorithm]
    · rw [if_pos halgorithm]
      exact ⟨nofun, fun h => absurd h.1 halgorithm⟩

/-- **What an accepted line consists of.** The number of the line goes into the entry and nowhere
else. -/
theorem parseLine_gives_iff {entry : Entry} :
    Gives (parseLine C K content line limits) entry ↔
      entry.line = line ∧ LineSays C K limits content entry := by
  unfold parseLine LineSays
  by_cases hnul : content.contains 0 = true
  · rw [if_pos hnul]
    exact ⟨fun h => absurd h not_gives_throw, fun h => absurd (contains_iff_mem.mp hnul) h.2.1⟩
  · rw [if_neg hnul]
    simp only [gives_bind_iff, requireField_gives_iff, gives_liftExcept_iff, Prod.exists,
      parseStart_gives_iff, parseHosts_ok_iff, decodeKey_ok_iff, checkKey_ok_iff, gives_pure_iff]
    constructor
    · rintro ⟨_, hostField, rest, hstart, hosts, hhosts, _, rest₁, htype, keyField,
        comment, hkey, _, hblob, -, hok, rfl⟩
      exact ⟨rfl, fun hmem => hnul (contains_iff_mem.mpr hmem), hostField, keyField,
        ⟨rest, rest₁, comment, hstart, htype, hkey⟩, hhosts, hblob, hok⟩
    · rintro ⟨hline, -, hostField, keyField, ⟨rest, rest₁, comment, hstart, htype, hkey⟩, hhosts,
        hblob, hok⟩
      exact ⟨entry.marker, hostField, rest, hstart, entry.hosts, hhosts, entry.keyType, rest₁,
        htype,
        keyField, comment, hkey, entry.blob, hblob, (), hok, by rw [← hline]⟩

/-- The start of a line does not panic. -/
theorem parseStart_safe (content : Bytes) (line : Nat) : Safe (parseStart content line) := by
  refine Safe.bind (requireField_safe _ _ _) fun first => ?_
  dsimp only
  split
  · exact Safe.bind (safe_liftExcept _) fun marker =>
      Safe.bind (requireField_safe _ _ _) fun field => safe_pure _
  · exact safe_pure _

theorem parseLine_safe (content : Bytes) (line : Nat) :
    Safe (parseLine C K content line limits) := by
  unfold parseLine
  split
  · exact safe_throw _
  · refine Safe.bind (parseStart_safe content line) fun start =>
      Safe.bind (safe_liftExcept _) fun hosts =>
      Safe.bind (requireField_safe _ _ _) fun keyType => Safe.bind (requireField_safe _ _ _)
        fun key => Safe.bind (safe_liftExcept _) fun blob => Safe.bind (safe_liftExcept _)
          fun _ => safe_pure _

/-! ### Files -/

/-- The content of a line, if it is neither blank nor a comment. -/
def contentOf (raw : Bytes) : Option Bytes :=
  let content := (stripCr raw).dropWhile isSpace
  if content = [] ∨ content.head? = some 35 then none else some content

/-- The content lines of a file with their numbers, the first line having this one. -/
def contentLines : List Bytes → Nat → List (Nat × Bytes)
  | [], _ => []
  | raw :: rest, number =>
    match contentOf raw with
    | some content => (number, content) :: contentLines rest (number + 1)
    | none => contentLines rest (number + 1)

/-- What is wrong with a line that so many content lines precede. -/
def offence (C : Crypto) (K : Compat) (limits : Limits) (raw : Bytes) (number before : Nat) :
    Option KnownHostsError :=
  if limits.maxLineBytes < (stripCr raw).length then
    some (.lineTooLong number limits.maxLineBytes)
  else
    match contentOf raw with
    | none => none
    | some content =>
      if limits.maxEntries ≤ before then some (.tooManyEntries limits.maxEntries)
      else
        match (parseLine C K content number limits).run with
        | .ok (.error e) => some e
        | _ => none

/-- Telling blank lines and comments apart stays within the line. -/
theorem isIgnored_eq (content : Bytes) :
    isIgnored content = .ok (decide (content = [] ∨ content.head? = some 35)) := by
  cases content with
  | nil => rfl
  | cons b rest =>
    have hindex : Checked.index (b :: rest) 0 = .ok b := Checked.index_ok (Nat.succ_pos _)
    rw [isIgnored, if_neg (by simp), hindex]
    refine congrArg Except.ok (Bool.eq_iff_iff.mpr ?_)
    simp

/-- **One round of the loop**: a line that is too long fails, one without content is passed over,
and any other is parsed if there is room for it. -/
theorem parseLines_cons (raw : Bytes) (rest : List Bytes) (line : Nat) (entries : List Entry) :
    parseLines C K limits (raw :: rest) line entries =
      if limits.maxLineBytes < (stripCr raw).length then
        throw (.lineTooLong line limits.maxLineBytes)
      else
        match contentOf raw with
        | none => parseLines C K limits rest (line + 1) entries
        | some content =>
          if limits.maxEntries ≤ entries.length then throw (.tooManyEntries limits.maxEntries)
          else parseLine C K content line limits >>= fun entry =>
            parseLines C K limits rest (line + 1) (entries ++ [entry]) := by
  rw [parseLines, trimStart_eq, contentOf]
  split
  · rfl
  · rw [liftChecked_ok, pure_bind, isIgnored_eq, liftChecked_ok, pure_bind]
    by_cases hignored : (stripCr raw).dropWhile isSpace = [] ∨
        ((stripCr raw).dropWhile isSpace).head? = some 35
    · rw [decide_eq_true hignored, if_pos rfl, if_pos hignored]
    · rw [decide_eq_false hignored, if_neg Bool.false_ne_true, if_neg hignored]

theorem parseLines_safe (lines : List Bytes) (line : Nat) (entries : List Entry) :
    Safe (parseLines C K limits lines line entries) := by
  induction lines generalizing line entries with
  | nil => exact safe_pure entries
  | cons _ _ ih =>
    rw [parseLines_cons]
    split
    · exact safe_throw _
    · split
      · exact ih _ _
      · split
        · exact safe_throw _
        · exact Safe.bind (parseLine_safe _ _) fun entry => ih _ _

/-- **The loop gives one entry for every content line**, and only if nothing is wrong. -/
theorem parseLines_gives_iff {lines : List Bytes} {entries result : List Entry}
    (hroom : entries.length ≤ limits.maxEntries) :
    Gives (parseLines C K limits lines line entries) result ↔
      (∀ raw ∈ lines, (stripCr raw).length ≤ limits.maxLineBytes) ∧
      entries.length + (contentLines lines line).length ≤ limits.maxEntries ∧
      ∃ new, result = entries ++ new ∧ List.Forall₂ (fun content entry =>
        Gives (parseLine C K content.2 content.1 limits) entry) (contentLines lines line) new := by
  induction lines generalizing line entries with
  | nil =>
    rw [parseLines, gives_pure_iff]
    constructor
    · rintro rfl
      exact ⟨nofun, hroom, [], (append_nil _).symm, .nil⟩
    · rintro ⟨-, -, new, rfl, hnew⟩
      cases hnew
      exact append_nil entries
  | cons raw _ ih =>
    rw [parseLines_cons, forall_mem_cons]
    by_cases hlong : limits.maxLineBytes < (stripCr raw).length
    · rw [if_pos hlong]
      exact ⟨fun h => absurd h not_gives_throw, fun h => absurd h.1.1 (Nat.not_le.mpr hlong)⟩
    · rw [if_neg hlong, contentLines]
      have hshort := Nat.not_lt.mp hlong
      cases contentOf raw with
      | none => simp only [ih hroom, hshort, true_and]
      | some =>
        dsimp only
        by_cases hfull : limits.maxEntries ≤ entries.length
        · rw [if_pos hfull]
          refine ⟨fun h => absurd h not_gives_throw, fun ⟨_, hcount, _⟩ => ?_⟩
          rw [length_cons] at hcount
          omega
        · have hnext (entry : Entry) : (entries ++ [entry]).length ≤ limits.maxEntries := by
            rw [length_append, length_singleton]
            omega
          rw [if_neg hfull, gives_bind_iff]
          simp only [ih (hnext _), hshort, true_and, length_append, length_cons,
            length_nil]
          constructor
          · rintro ⟨entry, hentry, hlines, hcount, new, rfl, hnew⟩
            exact ⟨hlines, by omega, entry :: new, by simp, .cons hentry hnew⟩
          · rintro ⟨hlines, hcount, new, rfl, hnew⟩
            cases hnew with | cons hentry hnew =>
            exact ⟨_, hentry, hlines, by omega, _, by simp, hnew⟩

/-- A line's own error is an offence. -/
theorem offence_of_fails (hshort : ¬ limits.maxLineBytes < (stripCr raw).length)
    (hcontent : contentOf raw = some content) (hroom : ¬ limits.maxEntries ≤ before)
    (h : Fails (parseLine C K content number limits) e) :
    offence C K limits raw number before = some e := by
  unfold Fails at h
  rw [offence, if_neg hshort, hcontent]
  dsimp only
  rw [if_neg hroom, h]

/-- A line that gives an entry is no offence. -/
theorem offence_of_gives {entry : Entry} (hshort : ¬ limits.maxLineBytes < (stripCr raw).length)
    (hcontent : contentOf raw = some content) (hroom : ¬ limits.maxEntries ≤ before)
    (h : Gives (parseLine C K content number limits) entry) :
    offence C K limits raw number before = none := by
  unfold Gives at h
  rw [offence, if_neg hshort, hcontent]
  dsimp only
  rw [if_neg hroom, h]

/-- The first offending line in file order has this offence, and no line before it has any. -/
def FirstOffends (C : Crypto) (K : Compat) (limits : Limits) (lines : List Bytes)
    (number before : Nat) (e : KnownHostsError) : Prop :=
  ∃ earlier raw later, lines = earlier ++ raw :: later ∧
    offence C K limits raw (number + earlier.length)
      (before + (contentLines earlier number).length) = some e ∧
    ∀ earlier' raw' later', earlier = earlier' ++ raw' :: later' →
      offence C K limits raw' (number + earlier'.length)
        (before + (contentLines earlier' number).length) = none

/-- A first line that offends is the first that does. -/
theorem firstOffends_cons_of_some {rest : List Bytes} {e' : KnownHostsError}
    (h : offence C K limits raw number before = some e') :
    FirstOffends C K limits (raw :: rest) number before e ↔ e' = e := by
  constructor
  · rintro ⟨earlier, raw', _, hlines, hoffence, hnone⟩
    cases earlier with
    | nil =>
      cases hlines
      exact Option.some.inj (h.symm.trans hoffence)
    | cons x earlier =>
      cases hlines
      cases h.symm.trans (hnone [] raw earlier rfl)
  · rintro rfl
    exact ⟨[], raw, rest, rfl, h, fun earlier' raw' later' hnil => by simp at hnil⟩

/-- After a line that does not offend, the first offence is that of the rest. -/
theorem firstOffends_cons_of_none {rest : List Bytes}
    (h : offence C K limits raw number before = none) :
    FirstOffends C K limits (raw :: rest) number before e ↔
      FirstOffends C K limits rest (number + 1)
        (if (contentOf raw).isSome then before + 1 else before) e := by
  -- The number and the count that a later line has are the same from either start.
  have hnumber (earlier : List Bytes) :
      number + (raw :: earlier).length = number + 1 + earlier.length := by
    rw [length_cons]
    omega
  have hcount (earlier : List Bytes) :
      before + (contentLines (raw :: earlier) number).length =
        (if (contentOf raw).isSome then before + 1 else before) +
          (contentLines earlier (number + 1)).length := by
    rw [contentLines]
    cases contentOf raw with
    | none => rfl
    | some =>
      rw [length_cons, Option.isSome_some, if_pos rfl]
      omega
  constructor
  · rintro ⟨earlier, raw', later, hlines, hoffence, hnone⟩
    cases earlier with
    | nil =>
      cases hlines
      cases h.symm.trans hoffence
    | cons x earlier =>
      cases hlines
      rw [hnumber, hcount] at hoffence
      refine ⟨earlier, raw', later, rfl, hoffence, fun earlier' raw'' later' heq => ?_⟩
      have := hnone (raw :: earlier') raw'' later' (by rw [heq, cons_append])
      rwa [hnumber, hcount] at this
  · rintro ⟨earlier, raw', later, rfl, hoffence, hnone⟩
    refine ⟨raw :: earlier, raw', later, rfl, ?_, fun earlier' raw'' later' heq => ?_⟩
    · rw [hnumber, hcount]
      exact hoffence
    · cases earlier' with
      | nil =>
        cases heq
        exact h
      | cons x earlier' =>
        cases heq
        rw [hnumber, hcount]
        exact hnone earlier' raw'' later' rfl

/-- **The loop fails as the first offending line does.** -/
theorem parseLines_fails_iff {lines : List Bytes} {entries : List Entry} :
    Fails (parseLines C K limits lines line entries) e ↔
      FirstOffends C K limits lines line entries.length e := by
  induction lines generalizing line entries with
  | nil => exact ⟨fun h => absurd h not_fails_pure, fun ⟨earlier, _, _, h, _⟩ => by simp at h⟩
  | cons raw _ ih =>
    rw [parseLines_cons]
    by_cases hlong : limits.maxLineBytes < (stripCr raw).length
    · have hoffence : offence C K limits raw line entries.length =
          some (.lineTooLong line limits.maxLineBytes) := by
        rw [offence, if_pos hlong]
      rw [if_pos hlong, fails_throw_iff, firstOffends_cons_of_some hoffence]
    · rw [if_neg hlong]
      cases hcontent : contentOf raw with
      | none =>
        have hoffence : offence C K limits raw line entries.length = none := by
          rw [offence, if_neg hlong, hcontent]
        rw [firstOffends_cons_of_none hoffence, hcontent]
        exact ih
      | some content =>
        dsimp only
        by_cases hfull : limits.maxEntries ≤ entries.length
        · have hoffence : offence C K limits raw line entries.length =
              some (.tooManyEntries limits.maxEntries) := by
            rw [offence, if_neg hlong, hcontent]
            exact if_pos hfull
          rw [if_pos hfull, fails_throw_iff, firstOffends_cons_of_some hoffence]
        · rw [if_neg hfull]
          -- The line itself decides: it is accepted and the loop goes on, or the file fails.
          obtain ⟨_, hentry⟩ | ⟨_, hfails⟩ :=
            (parseLine_safe content line : Safe (parseLine C K content line limits)).gives_or_fails
          · rw [fails_bind_of_gives hentry, ih,
              firstOffends_cons_of_none (offence_of_gives hlong hcontent hfull hentry), hcontent,
              length_append, length_singleton]
            rfl
          · rw [fails_bind_of_fails hfails,
              firstOffends_cons_of_some (offence_of_fails hlong hcontent hfull hfails)]

/-- What holds of every entry of a parsed file: it has patterns, not too many and none of them
empty, or a validated hashed field, and its key names its type and is well formed. -/
structure WellFormedEntry (C : Crypto) (K : Compat) (limits : Limits) (entry : Entry) : Prop where
  patterns : ∀ patterns, entry.hosts = .patterns patterns →
    1 ≤ patterns.length ∧ patterns.length ≤ limits.maxPatternsPerLine ∧
      ∀ p ∈ patterns, p.text ≠ []
  hashed : ∀ field, entry.hosts = .hashed field → ∃ salt digest, IsHashedField K field salt digest
  key : KeyOk C entry.keyType entry.blob

/-- A line that says something makes a well-formed entry. -/
theorem LineSays.wellFormed {entry : Entry} (h : LineSays C K limits content entry) :
    WellFormedEntry C K limits entry := by
  obtain ⟨-, hostField, _, -, hhosts, -, hkey⟩ := h
  rcases hhosts with ⟨-, -, heq, hfield⟩ | ⟨-, hlen, heq, hraws⟩
  · refine ⟨fun patterns hp => ?_, fun field hf => ?_, hkey⟩
    · cases heq.symm.trans hp
    · cases heq.symm.trans hf
      exact hfield
  · refine ⟨fun patterns hp => ?_, fun field hf => ?_, hkey⟩
    · cases heq.symm.trans hp
      rw [length_map]
      refine ⟨length_pos_of_ne_nil (splitOn_ne_nil 44 hostField), hlen, fun p hmem => ?_⟩
      obtain ⟨raw, hraw, rfl⟩ := mem_map.mp hmem
      exact fun hnil => (hraws raw hraw).1 (map_eq_nil_iff.mp hnil)
    · cases heq.symm.trans hf

/-- A file gives what its lines give. -/
theorem KnownHosts.parse_gives_iff {bytes : Bytes} {hosts : KnownHosts} :
    Gives (parse C K bytes limits) hosts ↔
      bytes.length ≤ limits.maxFileBytes ∧
      (∀ raw ∈ bytes.splitOn 10, (stripCr raw).length ≤ limits.maxLineBytes) ∧
      (contentLines (bytes.splitOn 10) 1).length ≤ limits.maxEntries ∧
      List.Forall₂ (fun content entry => Gives (parseLine C K content.2 content.1 limits) entry)
        (contentLines (bytes.splitOn 10) 1) hosts.entries := by
  unfold parse
  by_cases hlarge : limits.maxFileBytes < bytes.length
  · rw [if_pos hlarge]
    exact ⟨fun h => absurd h not_gives_throw, fun h => absurd h.1 (Nat.not_le.mpr hlarge)⟩
  · rw [if_neg hlarge]
    have hnil : ([] : List Entry).length ≤ limits.maxEntries := Nat.zero_le _
    simp only [gives_bind_iff, parseLines_gives_iff hnil, gives_pure_iff, nil_append,
      length_nil, Nat.zero_add]
    constructor
    · rintro ⟨_, ⟨hlines, hcount, _, rfl, hnew⟩, rfl⟩
      exact ⟨Nat.not_lt.mp hlarge, hlines, hcount, hnew⟩
    · rintro ⟨-, hlines, hcount, hnew⟩
      exact ⟨hosts.entries, ⟨hlines, hcount, hosts.entries, rfl, hnew⟩, rfl⟩

/-- A file fails as its size or its first offence says. -/
theorem KnownHosts.parse_fails_iff {bytes : Bytes} :
    Fails (parse C K bytes limits) e ↔
      limits.maxFileBytes < bytes.length ∧ e = .fileTooLarge limits.maxFileBytes ∨
      bytes.length ≤ limits.maxFileBytes ∧
        FirstOffends C K limits (bytes.splitOn 10) 1 0 e := by
  unfold parse
  by_cases hlarge : limits.maxFileBytes < bytes.length
  · rw [if_pos hlarge, fails_throw_iff]
    exact ⟨fun h => .inl ⟨hlarge, h.symm⟩, fun h => h.elim (fun h => h.2.symm)
      fun h => absurd h.1 (Nat.not_le.mpr hlarge)⟩
  · rw [if_neg hlarge]
    rw [fails_bind_pure_iff, parseLines_fails_iff]
    exact ⟨fun h => .inr ⟨Nat.not_lt.mp hlarge, h⟩, fun h => h.elim
      (fun h => absurd h.1 hlarge) fun h => h.2⟩

theorem KnownHosts.parse_safe (bytes : Bytes) : Safe (parse C K bytes limits) := by
  unfold parse
  split
  · exact safe_throw _
  · exact Safe.bind (parseLines_safe _ _ _) fun entries => safe_pure _

/-- **Parsing a file is all or nothing.** It does not panic; it succeeds exactly if the file, its
lines and the number of its content lines are within their limits and every content line is
accepted; it then has one well-formed entry for every content line, in order and with its number;
and otherwise it fails because of the size of the file or as the first offending line does. -/
theorem known_hosts_all_or_nothing (C : Crypto) (K : Compat) (bytes : Bytes) (limits : Limits) :
    Safe (parse C K bytes limits) ∧
    ((∃ hosts, Gives (parse C K bytes limits) hosts) ↔
      bytes.length ≤ limits.maxFileBytes ∧
      (∀ raw ∈ bytes.splitOn 10, (stripCr raw).length ≤ limits.maxLineBytes) ∧
      (contentLines (bytes.splitOn 10) 1).length ≤ limits.maxEntries ∧
      ∀ content ∈ contentLines (bytes.splitOn 10) 1,
        ∃ entry, Gives (parseLine C K content.2 content.1 limits) entry) ∧
    (∀ hosts, Gives (parse C K bytes limits) hosts →
      List.Forall₂ (fun content entry => Gives (parseLine C K content.2 content.1 limits) entry ∧
          entry.line = content.1 ∧ LineSays C K limits content.2 entry ∧
          WellFormedEntry C K limits entry)
        (contentLines (bytes.splitOn 10) 1) hosts.entries) ∧
    (∀ e, Fails (parse C K bytes limits) e ↔
      limits.maxFileBytes < bytes.length ∧ e = .fileTooLarge limits.maxFileBytes ∨
      bytes.length ≤ limits.maxFileBytes ∧
        FirstOffends C K limits (bytes.splitOn 10) 1 0 e) := by
  refine ⟨parse_safe bytes, ?_, fun hosts hparse => ?_,
    fun e => parse_fails_iff⟩
  · rw [← exists_forall₂_iff]
    constructor
    · rintro ⟨hosts, hparse⟩
      obtain ⟨hfile, hlines, hcount, hentries⟩ := parse_gives_iff.mp hparse
      exact ⟨hfile, hlines, hcount, hosts.entries, hentries⟩
    · rintro ⟨hfile, hlines, hcount, entries, hentries⟩
      exact ⟨⟨entries⟩, parse_gives_iff.mpr ⟨hfile, hlines, hcount, hentries⟩⟩
  · obtain ⟨-, -, -, hentries⟩ := parse_gives_iff.mp hparse
    refine hentries.imp fun content entry hentry => ?_
    obtain ⟨hline, hsays⟩ := parseLine_gives_iff.mp hentry
    exact ⟨hentry, hline, hsays, hsays.wellFormed⟩

end Tatami.Keys
