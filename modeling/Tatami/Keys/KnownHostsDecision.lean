import Tatami.Keys.KnownHostsFile
import Tatami.Keys.Trust

/-! # What a `known_hosts` file says about a host key

Matching and the decision, against what they are for:

* `FieldApplies` says which host fields apply to a name, `Says` what a content line that
  applies says, both on the text of the line;
* `verdict` is the order of the decisions, over the findings of any list of lines, and its kind
  depends only on which findings there are (`verdict_kind`);
* `hashed_fields_validated_once` and `known_hosts_decision_exact` connect them to the code. -/

namespace Tatami.Keys

open Fallible KnownHosts List

variable {C : Crypto} {K : Compat} {limits : Limits}

/-! ### Hashed entries -/

variable {field host name : Bytes} {entry : Entry} {hosts : KnownHosts} {port : UInt16}

/-- On short names the errors of the matcher are those of the field. -/
theorem matchesHashedHostname_error_iff {x y : Bytes} {e : HashedHostnameError}
    (hx : x.length ≤ maxLookupNameLen) (hy : y.length ≤ maxLookupNameLen) :
    matchesHashedHostname K field x = .error e ↔ matchesHashedHostname K field y = .error e := by
  rw [matchesHashedHostname_eq hx, matchesHashedHostname_eq hy]
  split
  · rfl
  · cases decodeField K field with
    | error => rfl
    | ok => exact ⟨nofun, nofun⟩

/-- On a validated field the matcher fails only because of the name. -/
theorem IsHashedField.error {salt digest : ByteVec hashLen} {e : HashedHostnameError}
    (h : IsHashedField K field salt digest) (he : matchesHashedHostname K field name = .error e) :
    e = .lookupNameTooLong ∧ maxLookupNameLen < name.length := by
  by_cases hname : name.length ≤ maxLookupNameLen
  · rw [matchesHashedHostname_ok_iff.mpr ⟨hname, salt, digest, h, rfl⟩] at he
    cases he
  · have hlong := Nat.not_le.mp hname
    rw [matchesHashedHostname, if_neg (Nat.not_lt.mpr h.1), if_pos hlong] at he
    cases he
    exact ⟨rfl, hlong⟩

/-- **A hashed entry applies to the names it is the digest of.** -/
theorem Entry.appliesTo_hashed_iff {salt digest : ByteVec hashLen}
    (hhosts : entry.hosts = .hashed field) (h : IsHashedField K field salt digest) :
    entry.appliesTo K name = true ↔
      name.length ≤ maxLookupNameLen ∧ K.hmacSha1 salt.toBytes name = digest := by
  unfold Entry.appliesTo
  rw [hhosts]
  dsimp only
  cases hmatch : matchesHashedHostname K field name with
  | error =>
    have hlong := (h.error hmatch).2
    exact ⟨nofun, fun hshort => absurd hshort.1 (Nat.not_le.mpr hlong)⟩
  | ok =>
    obtain ⟨hname, _, _, h', rfl⟩ := matchesHashedHostname_ok_iff.mp hmatch
    obtain ⟨rfl, rfl⟩ := h.unique h'
    exact ⟨fun heq => ⟨hname, eq_of_beq heq⟩, fun heq => beq_iff_eq.mpr heq.2⟩

/-- A name that is too long has no applicable entry. -/
theorem KnownHosts.policyForName_of_long (hosts : KnownHosts)
    (h : maxLookupNameBytes < name.length) :
    (hosts.policyForName K name).applicable = [] := by
  simp [policyForName, h]

/-- Nothing is trusted without an entry. -/
theorem KnownHostsPolicy.decide_of_nil {policy : KnownHostsPolicy} (h : policy.applicable = [])
    (host : HostIdentity) : policy.decide host = .untrusted .unknownHost := by
  simp [KnownHostsPolicy.decide, h]

/-- Every entry of a parsed file is well formed. -/
theorem KnownHosts.wellFormed_of_parse {bytes : Bytes}
    (hparse : Gives (parse C K bytes limits) hosts) (hmem : entry ∈ hosts.entries) :
    WellFormedEntry C K limits entry := by
  obtain ⟨-, -, -, hentries⟩ := parse_gives_iff.mp hparse
  obtain ⟨_, -, hentry⟩ := exists_of_forall₂_right hentries hmem
  exact (parseLine_gives_iff.mp hentry).2.wellFormed

/-- **Hashed fields are validated once.** Whether the matcher fails on a short name depends on the
field alone, and it succeeds on exactly the fields `|1|salt|digest` with two canonical encodings of
20 bytes. So a hashed entry of a parsed file applies exactly to the short names it is the digest of,
its matching fails at most because the name is too long, and such a name is never trusted. -/
theorem hashed_fields_validated_once (C : Crypto) (K : Compat) :
    (∀ field x y e, x.length ≤ maxLookupNameLen → y.length ≤ maxLookupNameLen →
      (matchesHashedHostname K field x = .error e ↔
        matchesHashedHostname K field y = .error e)) ∧
    (∀ field x, x.length ≤ maxLookupNameLen →
      ((∃ b, matchesHashedHostname K field x = .ok b) ↔
        ∃ salt digest, IsHashedField K field salt digest)) ∧
    (∀ bytes limits hosts, Gives (parse C K bytes limits) hosts →
      ∀ entry ∈ hosts.entries, ∀ field, entry.hosts = .hashed field →
        ∃ salt digest, IsHashedField K field salt digest ∧ ∀ name,
          (entry.appliesTo K name = true ↔
            name.length ≤ maxLookupNameLen ∧ K.hmacSha1 salt.toBytes name = digest) ∧
          ∀ e, matchesHashedHostname K field name = .error e →
            e = .lookupNameTooLong ∧ maxLookupNameLen < name.length) ∧
    (∀ (hosts : KnownHosts) name, maxLookupNameBytes < name.length →
      (hosts.policyForName K name).applicable = [] ∧
      ∀ host, ((hosts.policyForName K name).decide host).isTrusted = false) := by
  refine ⟨fun field x y e hx hy => matchesHashedHostname_error_iff hx hy, fun field x hx => ?_,
    fun bytes limits hosts hparse entry hmem field hfield => ?_, fun hosts name hlong => ?_⟩
  · constructor
    · rintro ⟨b, hb⟩
      obtain ⟨-, salt, digest, hfield, -⟩ := matchesHashedHostname_ok_iff.mp hb
      exact ⟨salt, digest, hfield⟩
    · rintro ⟨salt, digest, hfield⟩
      exact ⟨_, matchesHashedHostname_ok_iff.mpr ⟨hx, salt, digest, hfield, rfl⟩⟩
  · obtain ⟨salt, digest, hhashed⟩ :=
      (wellFormed_of_parse hparse hmem).hashed field hfield
    exact ⟨salt, digest, hhashed, fun name =>
      ⟨Entry.appliesTo_hashed_iff hfield hhashed, fun e he => hhashed.error he⟩⟩
  · have hnil := hosts.policyForName_of_long (K := K) hlong
    exact ⟨hnil, fun host => by rw [KnownHostsPolicy.decide_of_nil hnil]; rfl⟩

/-! ### Lookup names -/

theorem toNat_lowerByte (b : UInt8) :
    (lowerByte b).toNat = if 65 ≤ b.toNat ∧ b.toNat ≤ 90 then b.toNat + 32 else b.toNat := by
  unfold lowerByte
  simp only [Bool.and_eq_true, decide_eq_true_eq, UInt8.le_iff_toNat_le]
  change (if 65 ≤ b.toNat ∧ b.toNat ≤ 90 then b + 32 else b).toNat = _
  split
  · rw [UInt8.toNat_add]
    change (b.toNat + 32) % 256 = _
    omega
  · rfl

theorem lookupName_inv (h : lookupName host port = .ok name) :
    (∀ b ∈ host, isInvalidHostByte b = false) ∧ name.length ≤ maxLookupNameBytes ∧
      (port = defaultPort ∧ name = toAsciiLowercase host ∨ port ≠ defaultPort ∧
        name = utf8 "[" ++ toAsciiLowercase host ++ utf8 "]:" ++ utf8 (toString port.toNat)) := by
  unfold lookupName at h
  split at h
  · cases h
  split at h
  · cases h
  next hvalid =>
  dsimp only at h
  have hhost (b : UInt8) (hb : b ∈ host) : isInvalidHostByte b = false :=
    Bool.eq_false_iff.mpr fun hinvalid => hvalid (any_eq_true.mpr ⟨b, hb, hinvalid⟩)
  by_cases hport : port = defaultPort
  · simp only [if_pos hport] at h
    split at h
    · cases h
    · next hlen =>
      cases h
      exact ⟨hhost, Nat.not_lt.mp hlen, .inl ⟨hport, rfl⟩⟩
  · simp only [if_neg hport] at h
    split at h
    · cases h
    · next hlen =>
      cases h
      exact ⟨hhost, Nat.not_lt.mp hlen, .inr ⟨hport, rfl⟩⟩

/-- A byte that is no capital letter is kept by lowering. -/
theorem lowerByte_eq_of_not_upper {b : UInt8} (h : ¬ (65 ≤ b.toNat ∧ b.toNat ≤ 90)) :
    lowerByte b = b := by
  apply UInt8.toNat_inj.mp
  rw [toNat_lowerByte, if_neg h]

theorem lowerByte_lowerByte (b : UInt8) : lowerByte (lowerByte b) = lowerByte b := by
  have hlower := toNat_lowerByte b
  apply lowerByte_eq_of_not_upper
  split at hlower <;> omega

/-- Lowering makes no byte below the small letters. -/
theorem eq_of_lowerByte_eq {b c : UInt8} (hc : c.toNat < 97) (h : lowerByte b = c) : b = c := by
  have hlower := toNat_lowerByte b
  rw [h] at hlower
  apply UInt8.toNat_inj.mp
  split at hlower <;> omega

/-- A byte below the small letters that no host may have is not in the lowercase of one. -/
theorem not_mem_toAsciiLowercase {c : UInt8} (hhost : ∀ b ∈ host, isInvalidHostByte b = false)
    (hc : c.toNat < 97) (hinvalid : isInvalidHostByte c = true) : c ∉ toAsciiLowercase host := by
  intro hmem
  obtain ⟨b, hb, hlower⟩ := mem_map.mp hmem
  have hvalid := hhost b hb
  rw [eq_of_lowerByte_eq hc hlower, hinvalid] at hvalid
  cases hvalid

/-- A byte of a lookup name is in lowercase and no `*`. -/
theorem lookupName_mem (h : lookupName host port = .ok name) {b : UInt8} (hb : b ∈ name) :
    lowerByte b = b ∧ b ≠ starByte := by
  obtain ⟨hhost, -, hname⟩ := lookupName_inv h
  have hstar := not_mem_toAsciiLowercase (c := starByte) hhost (by decide) (by decide)
  have hlower (hb : b ∈ toAsciiLowercase host) : lowerByte b = b ∧ b ≠ starByte := by
    refine ⟨?_, fun heq => hstar (heq ▸ hb)⟩
    obtain ⟨c, -, rfl⟩ := mem_map.mp hb
    exact lowerByte_lowerByte c
  rcases hname with ⟨-, rfl⟩ | ⟨-, rfl⟩
  · exact hlower hb
  · -- The bytes of the host are lowered, those of the brackets and of the port are no letters.
    have hall : (utf8 "[" ++ utf8 "]:").all fun b => lowerByte b = b ∧ b ≠ starByte := by decide
    have hbrackets b hb := of_decide_eq_true (all_eq_true.mp hall b hb)
    rcases mem_append.mp hb with hb | hdigit
    · rcases mem_append.mp hb with hb | hclose
      · rcases mem_append.mp hb with hopen | hb
        · exact hbrackets b (mem_append_left _ hopen)
        · exact hlower hb
      · exact hbrackets b (mem_append_right _ hclose)
    · have hrange := digit_of_mem_utf8_toString hdigit
      refine ⟨lowerByte_eq_of_not_upper (by omega), fun heq => ?_⟩
      rw [heq] at hrange
      exact absurd hrange.1 (by decide)

/-- **A lookup name belongs to one host and one port.** The bracket tells the two forms apart, and
the host ends before the first closing one. -/
theorem lookupName_inj {host' : Bytes} {port' : UInt16} (h : lookupName host port = .ok name)
    (h' : lookupName host' port' = .ok name) :
    port = port' ∧ toAsciiLowercase host = toAsciiLowercase host' := by
  obtain ⟨hhost, -, hname⟩ := lookupName_inv h
  obtain ⟨hhost', -, hname'⟩ := lookupName_inv h'
  have hopen {host rest : Bytes} (hhost : ∀ b ∈ host, isInvalidHostByte b = false) :
      toAsciiLowercase host ≠ 91 :: rest := fun heq =>
    not_mem_toAsciiLowercase hhost (by decide) (by decide) (heq ▸ mem_cons_self)
  have hclose {host : Bytes} (hhost : ∀ b ∈ host, isInvalidHostByte b = false) :
      (93 : UInt8) ∉ toAsciiLowercase host :=
    not_mem_toAsciiLowercase hhost (by decide) (by decide)
  have hform (lower digits : Bytes) :
      utf8 "[" ++ lower ++ utf8 "]:" ++ digits = 91 :: (lower ++ 93 :: 58 :: digits) := by
    rw [show utf8 "[" = [91] from rfl, show utf8 "]:" = [93, 58] from rfl]
    simp
  rw [hform] at hname hname'
  rcases hname with ⟨hport, hname⟩ | ⟨hport, hname⟩ <;>
    rcases hname' with ⟨hport', hname'⟩ | ⟨hport', hname'⟩
  · exact ⟨hport.trans hport'.symm, hname.symm.trans hname'⟩
  · exact absurd (hname.symm.trans hname') (hopen hhost)
  · exact absurd (hname'.symm.trans hname) (hopen hhost')
  · have hboth := (List.cons.inj (hname.symm.trans hname')).2
    obtain ⟨hlower, hrest⟩ := append_cons_inj_of_not_mem (hclose hhost) (hclose hhost') hboth
    have hdigits := toString_injective (utf8_injective (List.cons.inj hrest).2)
    exact ⟨UInt16.toNat_inj.mp hdigits, hlower⟩

/-- The parts of a lookup name that matching depends on. -/
theorem lookupName_ok (h : lookupName host port = .ok name) :
    starByte ∉ name ∧ toAsciiLowercase name = name ∧ name.length ≤ maxLookupNameBytes := by
  refine ⟨fun hmem => (lookupName_mem h hmem).2 rfl, ?_, (lookupName_inv h).2.1⟩
  exact (map_congr_left fun b hb => (lookupName_mem h hb).1).trans (map_id name)

/-! ### Which lines apply -/

/-- The name belongs to the language of a pattern, in any ASCII case. -/
def MatchesFold (text name : Bytes) : Prop :=
  GlobMatches (toAsciiLowercase text) (toAsciiLowercase name)

/-- A host field applies to a name: it is hashed and the digest is that of the name, or it has a
positive pattern and no negated one that matches. -/
def FieldApplies (K : Compat) (field name : Bytes) : Prop :=
  field.head? = some 124 ∧ (∃ salt digest, IsHashedField K field salt digest ∧
      K.hmacSha1 salt.toBytes name = digest) ∨
    field.head? ≠ some 124 ∧
      (∃ raw ∈ field.splitOn 44,
        (splitNegation raw).1 = false ∧ MatchesFold (splitNegation raw).2 name) ∧
      ∀ raw ∈ field.splitOn 44,
        (splitNegation raw).1 = true → ¬ MatchesFold (splitNegation raw).2 name

/-- A content line applies to a name and has this marker, this key type and this key. -/
def Says (K : Compat) (name content : Bytes) (marker : Marker) (keyType blob : Bytes) : Prop :=
  ∃ hostField keyField, HasParts content marker hostField keyType keyField ∧
    FieldApplies K hostField name ∧ IsKeyText K keyField blob

/-- The loop over the patterns: one that is positive and none that is negated. -/
theorem patternsApply_iff {patterns : List Pattern} {positive : Bool} :
    patternsApply name patterns positive = true ↔
      (positive = true ∨ ∃ p ∈ patterns, p.negated = false ∧ globMatch p.text name = true) ∧
      ∀ p ∈ patterns, p.negated = true → ¬ globMatch p.text name = true := by
  induction patterns generalizing positive with
  | nil => simp [patternsApply]
  | cons p _ ih =>
    rw [patternsApply]
    by_cases hmatch : globMatch p.text name = true
    · rw [if_pos hmatch]
      cases hneg : p.negated with
      | true =>
        rw [if_pos rfl]
        exact ⟨nofun, fun h => absurd hmatch (h.2 p mem_cons_self hneg)⟩
      | false =>
        rw [if_neg Bool.false_ne_true, ih]
        simp [hmatch, hneg]
    · rw [if_neg hmatch, ih]
      simp [hmatch]

/-- **An entry applies exactly if the host field of its line does.** -/
theorem Entry.appliesTo_iff {hostField : Bytes} (hhosts : HostsOf K limits hostField entry.hosts)
    (hname : lookupName host port = .ok name) :
    entry.appliesTo K name = true ↔ FieldApplies K hostField name := by
  obtain ⟨hstar, hlower, hlen⟩ := lookupName_ok hname
  rcases hhosts with ⟨hbar, -, heq, salt, digest, hfield⟩ | ⟨hbar, -, heq, -⟩
  · rw [Entry.appliesTo_hashed_iff heq hfield]
    constructor
    · exact fun h => .inl ⟨hbar, salt, digest, hfield, h.2⟩
    · rintro (⟨-, salt', digest', hfield', h⟩ | ⟨hnot, -⟩)
      · obtain ⟨rfl, rfl⟩ := hfield.unique hfield'
        exact ⟨hlen, h⟩
      · exact absurd hbar hnot
  · have hglob (raw : Bytes) : globMatch (toPattern raw).text name = true ↔
        MatchesFold (splitNegation raw).2 name := by
      rw [globMatch_iff hstar, MatchesFold, hlower]
      rfl
    unfold Entry.appliesTo
    rw [heq]
    dsimp only
    rw [patternsApply_iff]
    simp only [Bool.false_eq_true, false_or, mem_map, exists_exists_and_eq_and,
      forall_exists_index, and_imp, forall_apply_eq_imp_iff₂, hglob]
    constructor
    · exact fun h => .inr ⟨hbar, h⟩
    · exact fun h => h.elim (fun h => absurd h.1 hbar) fun h => h.2

/-- A pattern of letters matches itself only. -/
theorem eq_of_globMatches {text : Bytes} (hstar : starByte ∉ text) (hquestion : questionByte ∉ text)
    (h : GlobMatches text name) : name = text := by
  have hletters : text.map globToken = text.map .lit := by
    apply map_congr_left
    intro b hb
    have hb₁ : b ≠ starByte := fun heq => hstar (heq ▸ hb)
    have hb₂ : b ≠ questionByte := fun heq => hquestion (heq ▸ hb)
    rw [globToken, if_neg hb₁, if_neg hb₂]
  rw [GlobMatches, hletters] at h
  exact Wildcard.matches_letters_iff.mp h

/-- A host field that is one pattern of letters applies to that name only. -/
theorem FieldApplies.eq_toAsciiLowercase (h : FieldApplies K field name)
    (hname : toAsciiLowercase name = name) (hbar : field.head? ≠ some 124)
    (hnegation : field.head? ≠ some 33) (hcomma : 44 ∉ field) (hstar : starByte ∉ field)
    (hquestion : questionByte ∉ field) : name = toAsciiLowercase field := by
  have hnot {c : UInt8} (hc : c.toNat < 97) (h : c ∉ field) : c ∉ toAsciiLowercase field := by
    intro hmem
    obtain ⟨b, hb, hlower⟩ := mem_map.mp hmem
    exact h (eq_of_lowerByte_eq hc hlower ▸ hb)
  rcases h with ⟨hhashed, -⟩ | ⟨-, ⟨raw, hraw, -, hmatches⟩, -⟩
  · exact absurd hhashed hbar
  · rw [splitOn_eq_singleton hcomma, mem_singleton] at hraw
    subst hraw
    have hstrip : stripStart (utf8 "!") raw = none := by
      rw [Option.eq_none_iff_forall_ne_some]
      intro rest hrest
      rw [stripStart_eq_some_iff] at hrest
      exact hnegation (by rw [hrest]; rfl)
    have hsplit : (splitNegation raw).2 = raw := by rw [splitNegation, hstrip]
    rw [hsplit, MatchesFold, hname] at hmatches
    exact eq_of_globMatches (hnot (by decide) hstar) (hnot (by decide) hquestion) hmatches

theorem HasStart.unique {content hostField rest hostField' rest' : Bytes} {marker marker' : Marker}
    (h : HasStart content marker hostField rest) (h' : HasStart content marker' hostField' rest') :
    marker = marker' ∧ hostField = hostField' ∧ rest = rest' := by
  have hgives : Gives (parseStart content 0) (marker, hostField, rest) :=
    parseStart_gives_iff.mpr h
  have hgives' : Gives (parseStart content 0) (marker', hostField', rest') :=
    parseStart_gives_iff.mpr h'
  unfold Gives at hgives hgives'
  simpa using hgives.symm.trans hgives'

/-- A line has its parts once. -/
theorem HasParts.unique {content : Bytes} {marker marker' : Marker}
    {hostField keyType keyField hostField' keyType' keyField' : Bytes}
    (h : HasParts content marker hostField keyType keyField)
    (h' : HasParts content marker' hostField' keyType' keyField') :
    marker = marker' ∧ hostField = hostField' ∧ keyType = keyType' ∧ keyField = keyField' := by
  obtain ⟨_, _, _, hstart, htype, hkey⟩ := h
  obtain ⟨_, _, _, hstart', htype', hkey'⟩ := h'
  obtain ⟨rfl, rfl, rfl⟩ := hstart.unique hstart'
  cases htype.symm.trans htype'
  cases hkey.symm.trans hkey'
  exact ⟨rfl, rfl, rfl, rfl⟩

/-- **What an accepted line says** is what its entry has, if the entry applies. -/
theorem LineSays.says_iff {content : Bytes} (h : LineSays C K limits content entry)
    (hname : lookupName host port = .ok name) {marker : Marker} {keyType blob : Bytes} :
    Says K name content marker keyType blob ↔ entry.appliesTo K name = true ∧
      entry.marker = marker ∧ entry.keyType = keyType ∧ entry.blob = blob := by
  obtain ⟨-, hostField, keyField, hparts, hhosts, hkey, -⟩ := h
  rw [Entry.appliesTo_iff hhosts hname]
  constructor
  · rintro ⟨hostField', _, hparts', happlies, hkey'⟩
    obtain ⟨rfl, rfl, rfl, rfl⟩ := hparts.unique hparts'
    exact ⟨happlies, rfl, rfl, Option.some.inj (hkey.2.symm.trans hkey'.2)⟩
  · rintro ⟨happlies, rfl, rfl, rfl⟩
    exact ⟨hostField, keyField, hparts, happlies, hkey⟩

/-! ### The order of the decisions -/

/-- What a line contributes to the decision about a key. -/
structure Finding where
  /-- The number of the line. -/
  line : Nat
  /-- It revokes the key. -/
  revokes : Bool
  /-- It lists the key, unmarked. -/
  lists : Bool
  /-- It lists a key of the same algorithm, unmarked. -/
  sameAlgorithm : Bool
  /-- It lists any key, unmarked. -/
  plain : Bool
  /-- It names a certificate authority. -/
  authority : Bool

/-- The documented decision: the first finding of the first kind there is. -/
def verdict (findings : List Finding) : TrustDecision :=
  match findings.find? (·.revokes) with
  | some f => .untrusted (.revoked f.line)
  | none =>
    match findings.find? (·.lists) with
    | some f => .trusted (.knownHosts f.line)
    | none =>
      match findings.find? (·.sameAlgorithm) with
      | some f => .untrusted (.keyChanged f.line)
      | none =>
        if findings.any (·.plain) then .untrusted .noKeyForAlgorithm
        else if findings.any (·.authority) then .untrusted .certificateAuthorityOnly
        else .untrusted .unknownHost

/-- A decision without the line it names. -/
def TrustDecision.kind : TrustDecision → TrustDecision
  | .trusted (.knownHosts _) => .trusted (.knownHosts 0)
  | .untrusted (.keyChanged _) => .untrusted (.keyChanged 0)
  | .untrusted (.revoked _) => .untrusted (.revoked 0)
  | decision => decision

/-- **The kind of the decision** depends only on which findings there are. -/
theorem verdict_kind (findings : List Finding) :
    (verdict findings).kind =
      if findings.any (·.revokes) then .untrusted (.revoked 0)
      else if findings.any (·.lists) then .trusted (.knownHosts 0)
      else if findings.any (·.sameAlgorithm) then .untrusted (.keyChanged 0)
      else if findings.any (·.plain) then .untrusted .noKeyForAlgorithm
      else if findings.any (·.authority) then .untrusted .certificateAuthorityOnly
      else .untrusted .unknownHost := by
  unfold verdict
  simp only [← isSome_find? (f := Finding.revokes), ← isSome_find? (f := Finding.lists),
    ← isSome_find? (f := Finding.sameAlgorithm)]
  cases findings.find? (·.revokes) with
  | some => rfl
  | none =>
    cases findings.find? (·.lists) with
    | some => rfl
    | none =>
      cases findings.find? (·.sameAlgorithm) with
      | some => rfl
      | none =>
        dsimp only
        split
        · rfl
        · split <;> rfl

open Classical in
/-- What a content line contributes, read off its text. -/
noncomputable def lineFinding (K : Compat) (name : Bytes) (host : HostIdentity)
    (content : Nat × Bytes) : Finding where
  line := content.1
  revokes := decide (∃ keyType, Says K name content.2 .revoked keyType host.blob)
  lists := decide (∃ keyType, Says K name content.2 .none keyType host.blob)
  sameAlgorithm := decide (∃ blob, Says K name content.2 .none host.algorithm blob)
  plain := decide (∃ keyType blob, Says K name content.2 .none keyType blob)
  authority := decide (∃ keyType blob, Says K name content.2 .certAuthority keyType blob)

/-- The documented decision about a key, from the content lines of a file. -/
noncomputable def documentedDecision (K : Compat) (name : Bytes) (lines : List (Nat × Bytes))
    (host : HostIdentity) : TrustDecision :=
  verdict (lines.map (lineFinding K name host))

/-- What an entry contributes. -/
def Entry.finding (K : Compat) (name : Bytes) (host : HostIdentity) (entry : Entry) : Finding where
  line := entry.line
  revokes := entry.appliesTo K name && (entry.marker == .revoked && entry.blob == host.blob)
  lists := entry.appliesTo K name && (entry.marker == .none && entry.blob == host.blob)
  sameAlgorithm :=
    entry.appliesTo K name && (entry.marker == .none && entry.keyType == host.algorithm)
  plain := entry.appliesTo K name && entry.marker == .none
  authority := entry.appliesTo K name && entry.marker == .certAuthority

/-- The code decides from what the entries contribute. -/
theorem KnownHosts.decide_eq_verdict (hosts : KnownHosts) (hname : name.length ≤ maxLookupNameBytes)
    (host : HostIdentity) :
    (hosts.policyForName K name).decide host =
      verdict (hosts.entries.map (Entry.finding K name host)) := by
  -- The unmarked entries are filtered after those that apply, the finding asks the other way round.
  have hplain (e : Entry) : (e.marker == .none && e.appliesTo K name) =
      (e.appliesTo K name && e.marker == .none) := Bool.and_comm _ _
  unfold KnownHostsPolicy.decide policyForName verdict
  simp only [decide_eq_false (Nat.not_lt.mpr hname), Bool.not_false, Bool.true_and,
    List.find?_map, List.find?_filter, filter_map, List.head?_filter, any_map,
    any_filter, Function.comp_def, Entry.finding, Bool.decide_and, Bool.decide_eq_true,
    filter_filter, List.head?_map, Option.isSome_map, isSome_find?, hplain,
    Bool.and_assoc]
  cases hosts.entries.find? fun e =>
      e.appliesTo K name && (e.marker == .revoked && e.blob == host.blob) with
  | some => rfl
  | none =>
    cases hosts.entries.find? fun e =>
        e.appliesTo K name && (e.marker == .none && e.blob == host.blob) with
    | some => rfl
    | none =>
      cases hosts.entries.find? fun e =>
          e.appliesTo K name && (e.marker == .none && e.keyType == host.algorithm) with
      | some => rfl
      | none => rfl

/-- An accepted line and its entry contribute the same. -/
theorem LineSays.finding_eq {content : Nat × Bytes} (hline : entry.line = content.1)
    (h : LineSays C K limits content.2 entry) (hname : lookupName host port = .ok name)
    (identity : HostIdentity) :
    lineFinding K name identity content = entry.finding K name identity := by
  unfold lineFinding Entry.finding
  rw [Finding.mk.injEq]
  refine ⟨hline.symm, ?_, ?_, ?_, ?_, ?_⟩ <;> rw [Bool.eq_iff_iff] <;> simp [h.says_iff hname]

/-- Accepted lines and their entries contribute the same. -/
theorem map_finding_eq {lines : List (Nat × Bytes)} {entries : List Entry}
    (h : List.Forall₂ (fun content entry =>
      Gives (parseLine C K content.2 content.1 limits) entry) lines entries)
    (hname : lookupName host port = .ok name) (identity : HostIdentity) :
    entries.map (Entry.finding K name identity) = lines.map (lineFinding K name identity) := by
  induction h with
  | nil => rfl
  | cons hentry _ ih =>
    obtain ⟨hline, hsays⟩ := parseLine_gives_iff.mp hentry
    rw [map_cons, map_cons, hsays.finding_eq hline hname, ih]

theorem KnownHosts.decide_eq_documented {bytes : Bytes}
    (hparse : Gives (parse C K bytes limits) hosts)
    (hname : lookupName host port = .ok name) (identity : HostIdentity) :
    (hosts.policyForName K name).decide identity =
      documentedDecision K name (contentLines (bytes.splitOn 10) 1) identity := by
  obtain ⟨-, -, -, hentries⟩ := parse_gives_iff.mp hparse
  rw [hosts.decide_eq_verdict (lookupName_ok hname).2.2, documentedDecision,
    map_finding_eq hentries hname]

/-! ### Other orders and other lines -/

/-- The contents of the content lines, whatever their numbers. -/
theorem contentLines_map_snd (lines : List Bytes) (number : Nat) :
    (contentLines lines number).map Prod.snd = lines.filterMap contentOf := by
  induction lines generalizing number with
  | nil => rfl
  | cons raw _ ih =>
    rw [contentLines]
    cases h : contentOf raw with
    | none => rw [filterMap_cons_none h, ih]
    | some => rw [filterMap_cons_some h, map_cons, ih]

/-- A finding among the content lines does not depend on their numbers. -/
theorem contentLines_any (p : Bytes → Bool) (lines : List Bytes) (number : Nat) :
    ((contentLines lines number).any fun content => p content.2) =
      (lines.filterMap contentOf).any p := by
  rw [← contentLines_map_snd lines number, any_map]
  rfl

/-- Lines in another order, and lines that say nothing, do not change the kind of the decision. -/
theorem documentedDecision_kind_congr {lines lines' extra : List Bytes}
    (hperm : lines'.Perm (lines ++ extra))
    (hextra : ∀ raw ∈ extra, ∀ content, contentOf raw = some content →
      ∀ marker keyType blob, ¬ Says K name content marker keyType blob) (host : HostIdentity) :
    (documentedDecision K name (contentLines lines' 1) host).kind =
      (documentedDecision K name (contentLines lines 1) host).kind := by
  have hany (p : Bytes → Bool) (hp : ∀ raw ∈ extra, ∀ content, contentOf raw = some content →
      p content = false) : ((contentLines lines' 1).any fun content => p content.2) =
        (contentLines lines 1).any fun content => p content.2 := by
    have hnone : (extra.filterMap contentOf).any p = false := by
      rw [any_eq_false]
      intro content hmem
      obtain ⟨raw, hraw, hcontent⟩ := mem_filterMap.mp hmem
      rw [hp raw hraw content hcontent]
      exact Bool.false_ne_true
    rw [contentLines_any, contentLines_any, (hperm.filterMap contentOf).any_eq,
      filterMap_append, any_append, hnone, Bool.or_false]
  classical
  unfold documentedDecision
  rw [verdict_kind, verdict_kind]
  simp only [any_map, Function.comp_def, lineFinding]
  rw [hany (fun content => decide (∃ keyType, Says K name content .revoked keyType host.blob)) ?_,
    hany (fun content => decide (∃ keyType, Says K name content .none keyType host.blob)) ?_,
    hany (fun content => decide (∃ blob, Says K name content .none host.algorithm blob)) ?_,
    hany (fun content => decide (∃ keyType blob, Says K name content .none keyType blob)) ?_,
    hany (fun content =>
      decide (∃ keyType blob, Says K name content .certAuthority keyType blob)) ?_]
  all_goals
    intro raw hraw content hcontent
    simp [hextra raw hraw content hcontent]

/-- Whether a file is accepted does not depend on the order of its lines. -/
theorem KnownHosts.parse_perm {bytes bytes' : Bytes}
    (hperm : (bytes'.splitOn 10).Perm (bytes.splitOn 10))
    (hparse : Gives (parse C K bytes limits) hosts) :
    ∃ hosts', Gives (parse C K bytes' limits) hosts' := by
  obtain ⟨hfile, hlines, hcount, hentries⟩ := parse_gives_iff.mp hparse
  have hcontents := hperm.filterMap contentOf
  -- Every content line of the new file is one of the old file, under another number.
  have haccepted : ∀ content ∈ contentLines (bytes'.splitOn 10) 1,
      ∃ entry, Gives (parseLine C K content.2 content.1 limits) entry := by
    intro content hmem
    have hnew : content.2 ∈ (bytes'.splitOn 10).filterMap contentOf := by
      rw [← contentLines_map_snd _ 1]
      exact mem_map_of_mem hmem
    have hold := hcontents.mem_iff.mp hnew
    rw [← contentLines_map_snd _ 1] at hold
    obtain ⟨old, hold, heq⟩ := mem_map.mp hold
    obtain ⟨entry, hentry⟩ := exists_forall₂_iff.mp ⟨_, hentries⟩ old hold
    obtain ⟨-, hsays⟩ := parseLine_gives_iff.mp hentry
    exact ⟨{ entry with line := content.1 }, parseLine_gives_iff.mpr ⟨rfl, heq ▸ hsays⟩⟩
  obtain ⟨entries, hentries'⟩ := exists_forall₂_iff.mpr haccepted
  have hlength : (contentLines (bytes'.splitOn 10) 1).length =
      (contentLines (bytes.splitOn 10) 1).length := by
    rw [← length_map (f := Prod.snd), ← length_map (f := Prod.snd),
      contentLines_map_snd, contentLines_map_snd, hcontents.length_eq]
  refine ⟨⟨entries⟩, parse_gives_iff.mpr ⟨?_, fun raw hraw => ?_, ?_, hentries'⟩⟩
  · rw [length_eq_of_splitOn_perm hperm]
    exact hfile
  · exact hlines raw (hperm.mem_iff.mp hraw)
  · rw [hlength]
    exact hcount

/-- A policy is that of the lookup name. -/
theorem KnownHosts.policyFor_ok_iff {policy : KnownHostsPolicy} :
    hosts.policyFor K host port = .ok policy ↔
      ∃ name, lookupName host port = .ok name ∧ policy = hosts.policyForName K name := by
  unfold policyFor
  rw [Except.bind_ok_iff]
  exact exists_congr fun name => and_congr_right fun _ => ⟨fun h => (Except.ok.inj h).symm,
    fun h => congrArg Except.ok h.symm⟩

/-- **The decision is the documented one.** For an accepted file and a host with a lookup name, it
is the decision read off the content lines of the file: the first line that revokes the key,
otherwise the first that lists it, otherwise the first that lists another key of the algorithm,
otherwise whether any line lists a key or names an authority. The same lines in another order are
accepted and decide with the same kind, and so does an accepted file with more lines that do not
apply. -/
theorem known_hosts_decision_exact (C : Crypto) (K : Compat) (limits : Limits) :
    (∀ bytes hosts host port policy, Gives (parse C K bytes limits) hosts →
      hosts.policyFor K host port = .ok policy →
      lookupName host port = .ok policy.lookupName ∧
      ∀ identity, policy.decide identity =
        documentedDecision K policy.lookupName (contentLines (bytes.splitOn 10) 1) identity) ∧
    (∀ bytes bytes' hosts host port policy, Gives (parse C K bytes limits) hosts →
      hosts.policyFor K host port = .ok policy →
      (bytes'.splitOn 10).Perm (bytes.splitOn 10) →
      ∃ hosts' policy', Gives (parse C K bytes' limits) hosts' ∧
        hosts'.policyFor K host port = .ok policy' ∧
        ∀ identity, (policy'.decide identity).kind = (policy.decide identity).kind) ∧
    (∀ bytes bytes' hosts hosts' host port policy policy' extra,
      Gives (parse C K bytes limits) hosts →
      hosts.policyFor K host port = .ok policy →
      Gives (parse C K bytes' limits) hosts' →
      hosts'.policyFor K host port = .ok policy' →
      (bytes'.splitOn 10).Perm (bytes.splitOn 10 ++ extra) →
      (∀ raw ∈ extra, ∀ content, contentOf raw = some content →
        ∀ marker keyType blob, ¬ Says K policy.lookupName content marker keyType blob) →
      ∀ identity, (policy'.decide identity).kind = (policy.decide identity).kind) := by
  refine ⟨?_, ?_, ?_⟩
  · intro bytes hosts host port policy hparse hpolicy
    obtain ⟨name, hname, rfl⟩ := policyFor_ok_iff.mp hpolicy
    exact ⟨hname, fun identity => decide_eq_documented hparse hname identity⟩
  · intro bytes bytes' hosts host port policy hparse hpolicy hperm
    obtain ⟨name, hname, rfl⟩ := policyFor_ok_iff.mp hpolicy
    obtain ⟨hosts', hparse'⟩ := parse_perm hperm hparse
    refine ⟨hosts', _, hparse', policyFor_ok_iff.mpr ⟨name, hname, rfl⟩,
      fun identity => ?_⟩
    rw [decide_eq_documented hparse' hname, decide_eq_documented hparse hname]
    rw [← append_nil (bytes.splitOn 10)] at hperm
    exact documentedDecision_kind_congr hperm nofun identity
  · intro bytes bytes' hosts hosts' host port policy policy' extra hparse hpolicy hparse' hpolicy'
      hperm hextra identity
    obtain ⟨name, hname, rfl⟩ := policyFor_ok_iff.mp hpolicy
    obtain ⟨_, hname', rfl⟩ := policyFor_ok_iff.mp hpolicy'
    cases hname.symm.trans hname'
    rw [decide_eq_documented hparse' hname, decide_eq_documented hparse hname]
    exact documentedDecision_kind_congr hperm hextra identity

/-! ### Endpoints -/

/-- **Lookup names tell endpoints apart.** Two of them are equal exactly if the ports are and the
hosts are up to ASCII case. So a line whose host field is one positive pattern without wildcards
applies to one endpoint at most, up to case. -/
theorem endpoints_told_apart (C : Crypto) (K : Compat) :
    (∀ host port name host' port' name', lookupName host port = .ok name →
      lookupName host' port' = .ok name' →
      (name = name' ↔ port = port' ∧ toAsciiLowercase host = toAsciiLowercase host')) ∧
    ∀ limits content line entry marker field rest,
      Gives (parseLine C K content line limits) entry → HasStart content marker field rest →
      field.head? ≠ some 124 → field.head? ≠ some 33 → 44 ∉ field → starByte ∉ field →
      questionByte ∉ field →
      ∀ host port name host' port' name', lookupName host port = .ok name →
        lookupName host' port' = .ok name' → entry.appliesTo K name = true →
        entry.appliesTo K name' = true →
        port = port' ∧ toAsciiLowercase host = toAsciiLowercase host' := by
  constructor
  · intro host port name host' port' name' h h'
    refine ⟨fun heq => lookupName_inj h (heq ▸ h'), ?_⟩
    rintro ⟨rfl, hlower⟩
    obtain ⟨-, -, hname⟩ := lookupName_inv h
    obtain ⟨-, -, hname'⟩ := lookupName_inv h'
    rw [← hlower] at hname'
    rcases hname with ⟨hport, rfl⟩ | ⟨hport, rfl⟩
    · exact (hname'.resolve_right fun hnot => hnot.1 hport).2.symm
    · exact (hname'.resolve_left fun hdefault => hport hdefault.1).2.symm
  · intro limits content line entry marker field rest hgives hstart hbar hnegation hcomma hstar
      hquestion host port name host' port' name' h h' happlies happlies'
    obtain ⟨-, -, hostField, _, ⟨_, _, _, hstart', -⟩, hhosts, -⟩ :=
      parseLine_gives_iff.mp hgives
    obtain ⟨-, rfl, -⟩ := hstart.unique hstart'
    -- the pattern is the one name that the line applies to
    have hunique {host name : Bytes} {port : UInt16} (hname : lookupName host port = .ok name)
        (happlies : entry.appliesTo K name = true) : name = toAsciiLowercase field :=
      ((Entry.appliesTo_iff hhosts hname).mp happlies).eq_toAsciiLowercase (lookupName_ok hname).2.1
        hbar hnegation hcomma hstar hquestion
    rw [hunique h happlies] at h
    rw [hunique h' happlies'] at h'
    exact lookupName_inj h h'

end Tatami.Keys
