import Tatami.Keys.Glob
import Tatami.Keys.HashedHost
import Tatami.Keys.HostKey
import Tatami.Lib.Fallible

/-! # The `known_hosts` file

Parsing, matching and the trust decision of the `known_hosts` module. The file is read as bytes and
validated completely; a lookup name, the UTF-8 bytes of a `str`, binds it to a policy; the policy
decides about a presented key. Indexing and slicing are checked, so that a panic of the parser would
be an outcome of the model. -/

namespace Tatami.Keys

/-! ### Limits, markers and errors -/

/-- The default SSH port. -/
def defaultPort : UInt16 := 22

/-- Longest lookup name, in bytes. -/
def maxLookupNameBytes : Nat := 1024

/-- Resource bounds applied while parsing. -/
structure Limits where
  maxFileBytes : Nat := 1048576
  maxLineBytes : Nat := 16384
  maxEntries : Nat := 10000
  maxPatternsPerLine : Nat := 256
  deriving DecidableEq, Repr

/-- Line marker. -/
inductive Marker where
  | none
  | revoked
  | certAuthority
  deriving DecidableEq, Repr

/-- What is wrong with one line. -/
inductive Malformed where
  | unknownMarker
  | missingField (what : String)
  | emptyPattern
  | hashedHost
  | base64
  | blob
  | keyTypeMismatch
  | invalidKey (keyType : KeyType)
  | nulByte
  deriving DecidableEq, Repr

/-- A well-formed construct that is not supported. -/
inductive Unsupported where
  | hashedHostnames
  deriving DecidableEq, Repr

/-- A configuration error: the file as a whole is rejected. -/
inductive KnownHostsError where
  | fileTooLarge (limit : Nat)
  | lineTooLong (line limit : Nat)
  | tooManyEntries (limit : Nat)
  | tooManyPatterns (line limit : Nat)
  | malformed (line : Nat) (what : Malformed)
  | unsupported (line : Nat) (what : Unsupported)
  deriving DecidableEq, Repr

/-- Why a host and a port cannot form a lookup name. -/
inductive LookupNameError where
  | empty
  | invalidCharacter
  | tooLong
  deriving DecidableEq, Repr

/-! ### Lookup names -/

/-- ASCII lowercase. -/
def lowerByte (b : UInt8) : UInt8 := if 65 ≤ b && b ≤ 90 then b + 32 else b

/-- ASCII lowercase of a text. -/
def toAsciiLowercase (text : Bytes) : Bytes := text.map lowerByte

/-- Bytes that would change how a host matches. -/
def isInvalidHostByte (b : UInt8) : Bool :=
  b ≤ 32 || b == 127 || b == 44 || b == 91 || b == 93 || b == 42 || b == 63 || b == 33

/-- The lookup name of a host and a port: bare for the default port, `[host]:port` otherwise. -/
def lookupName (host : Bytes) (port : UInt16) : Except LookupNameError Bytes :=
  if host.isEmpty then .error .empty
  else if host.any isInvalidHostByte then .error .invalidCharacter
  else
    let lower := toAsciiLowercase host
    let name :=
      if port = defaultPort then lower
      else utf8 "[" ++ lower ++ utf8 "]:" ++ utf8 (toString port.toNat)
    if maxLookupNameBytes < name.length then .error .tooLong else .ok name

/-! ### Entries -/

/-- One host pattern. -/
structure Pattern where
  negated : Bool
  /-- The pattern in ASCII lowercase. -/
  text : Bytes
  deriving DecidableEq, Repr

/-- The host field of a line. -/
inductive Hosts where
  | patterns (patterns : List Pattern)
  /-- A `|1|salt|hash` field as it stands. -/
  | hashed (field : Bytes)
  deriving DecidableEq, Repr

/-- One validated entry. -/
structure Entry where
  /-- Counted from one. -/
  line : Nat
  marker : Marker
  hosts : Hosts
  keyType : Bytes
  blob : Bytes
  deriving DecidableEq, Repr

/-- The loop over the patterns of an entry; a negated pattern that matches ends it. -/
def patternsApply (name : Bytes) : List Pattern → Bool → Bool
  | [], positive => positive
  | p :: rest, positive =>
    if globMatch p.text name then
      if p.negated then false else patternsApply name rest true
    else patternsApply name rest positive

/-- Whether a line applies to a name. -/
def Entry.appliesTo (K : Compat) (entry : Entry) (name : Bytes) : Bool :=
  match entry.hosts with
  | .hashed field =>
    match matchesHashedHostname K field name with
    | .ok b => b
    | .error _ => false
  | .patterns patterns => patternsApply name patterns false

/-! ### Parsing -/

/-- Space or tab. -/
def isSpace (b : UInt8) : Bool := b == 32 || b == 9

/-- The text from its first byte that is no space on. -/
def trimStart (s : Bytes) : Checked Bytes :=
  Checked.slice s (s.takeWhile isSpace).length s.length

/-- Splits off the next field. -/
def nextField (s : Bytes) : Checked (Option (Bytes × Bytes)) := do
  let s ← trimStart s
  if s.isEmpty then pure none
  else
    let fin := (s.findIdx? isSpace).getD s.length
    let field ← Checked.slice s 0 fin
    let rest ← Checked.slice s fin s.length
    pure (some (field, rest))

/-- The next field of a line, or the error that it is missing. -/
def requireField (line : Nat) (what : String) (s : Bytes) :
    Fallible KnownHostsError (Bytes × Bytes) := do
  match ← (nextField s : Checked _) with
  | some split => pure split
  | none => throw (.malformed line (.missingField what))

/-- A host field that starts with `|`: validated now, or refused without the feature. -/
def parseHashed (K : Compat) (field : Bytes) (line : Nat) : Except KnownHostsError Hosts :=
  if K.featureHashedHosts then
    match matchesHashedHostname K field [] with
    | .ok _ => .ok (.hashed field)
    | .error _ => .error (.malformed line .hashedHost)
  else .error (.unsupported line .hashedHostnames)

/-- Whether a part of the field is negated, and its text. -/
def splitNegation (raw : Bytes) : Bool × Bytes :=
  match stripStart (utf8 "!") raw with
  | some text => (true, text)
  | none => (false, raw)

/-- The loop of `parse_hosts` over the parts of the field. -/
def parsePatterns (line : Nat) (limits : Limits) :
    List Bytes → List Pattern → Except KnownHostsError (List Pattern)
  | [], patterns => .ok patterns
  | raw :: rest, patterns =>
    if limits.maxPatternsPerLine ≤ patterns.length then
      .error (.tooManyPatterns line limits.maxPatternsPerLine)
    else
      let (negated, text) := splitNegation raw
      if text.isEmpty then .error (.malformed line .emptyPattern)
      else if text.head? = some 124 then .error (.malformed line .hashedHost)
      else parsePatterns line limits rest (patterns ++ [{ negated, text := toAsciiLowercase text }])

/-- The host field of a line. -/
def parseHosts (K : Compat) (field : Bytes) (line : Nat) (limits : Limits) :
    Except KnownHostsError Hosts :=
  if field.head? = some 124 then parseHashed K field line
  else (parsePatterns line limits (field.splitOn 44) []).map .patterns

/-- The marker of a line whose first field starts with `@`. -/
def parseMarker (first : Bytes) (line : Nat) : Except KnownHostsError Marker :=
  if first = utf8 "@revoked" then .ok .revoked
  else if first = utf8 "@cert-authority" then .ok .certAuthority
  else .error (.malformed line .unknownMarker)

/-- The marker of a line, its host field and what follows that. -/
def parseStart (content : Bytes) (line : Nat) :
    Fallible KnownHostsError (Marker × Bytes × Bytes) := do
  let (first, rest) ← requireField line "host patterns" content
  if first.head? = some 64 then do
    let marker ← parseMarker first line
    let (first, rest) ← requireField line "host patterns" rest
    pure (marker, first, rest)
  else pure (.none, first, rest)

/-- The key field of a line, which has to be text and base64. -/
def decodeKey (K : Compat) (field : Bytes) (line : Nat) : Except KnownHostsError Bytes :=
  if (String.fromUTF8? ⟨field.toArray⟩).isSome then
    match K.decode field with
    | some blob => .ok blob
    | none => .error (.malformed line .base64)
  else .error (.malformed line .base64)

/-- The checks of the key: it names its type, and a key of an enabled type is well formed. A key
that is only outside the RSA policy is kept. -/
def checkKey (C : Crypto) (keyType blob : Bytes) (line : Nat) : Except KnownHostsError Unit :=
  match PublicKeyBlob.decode blob with
  | .error _ => .error (.malformed line .blob)
  | .ok parsed =>
    if parsed.algorithm ≠ keyType then .error (.malformed line .keyTypeMismatch)
    else
      match (KeyType.fromName keyType).filter fun t => t.isEnabled C with
      | none => .ok ()
      | some t =>
        match HostKey.parse C blob with
        | .ok _ => .ok ()
        | .error (.rsaModulus _) => .ok ()
        | .error .rsaExponent => .ok ()
        | .error _ => .error (.malformed line (.invalidKey t))

/-- One content line. -/
def parseLine (C : Crypto) (K : Compat) (content : Bytes) (line : Nat) (limits : Limits) :
    Fallible KnownHostsError Entry :=
  if content.contains 0 then throw (.malformed line .nulByte)
  else do
    let (marker, hostField, rest) ← parseStart content line
    let hosts ← parseHosts K hostField line limits
    let (keyType, rest) ← requireField line "key type" rest
    let (keyB64, _) ← requireField line "key" rest
    let blob ← decodeKey K keyB64 line
    checkKey C keyType blob line
    pure { line, marker, hosts, keyType, blob }

/-- A parsed file. -/
structure KnownHosts where
  entries : List Entry
  deriving DecidableEq, Repr

/-- A line without its carriage return. -/
def stripCr (raw : Bytes) : Bytes := if raw.getLast? = some 13 then raw.dropLast else raw

/-- Whether a line has no content: it is blank or a comment. -/
def isIgnored (content : Bytes) : Checked Bool :=
  if content.isEmpty then pure true
  else do
    let first ← Checked.index content 0
    pure (first == 35)

/-- The loop of `parse` over the lines, the next one numbered `line`. -/
def parseLines (C : Crypto) (K : Compat) (limits : Limits) :
    List Bytes → Nat → List Entry → Fallible KnownHostsError (List Entry)
  | [], _, entries => pure entries
  | raw :: rest, line, entries =>
    if limits.maxLineBytes < (stripCr raw).length then
      throw (.lineTooLong line limits.maxLineBytes)
    else do
      let content ← (trimStart (stripCr raw) : Checked _)
      if ← (isIgnored content : Checked _) then parseLines C K limits rest (line + 1) entries
      else if limits.maxEntries ≤ entries.length then throw (.tooManyEntries limits.maxEntries)
      else do
        let entry ← parseLine C K content line limits
        parseLines C K limits rest (line + 1) (entries ++ [entry])

/-- Parses and validates a file completely. -/
def KnownHosts.parse (C : Crypto) (K : Compat) (bytes : Bytes) (limits : Limits) :
    Fallible KnownHostsError KnownHosts :=
  if limits.maxFileBytes < bytes.length then throw (.fileTooLarge limits.maxFileBytes)
  else do
    let entries ← parseLines C K limits (bytes.splitOn 10) 1 []
    pure { entries }

/-! ### Policies -/

/-- What a policy keeps of an entry that applies. -/
structure Applicable where
  line : Nat
  marker : Marker
  keyType : Bytes
  blob : Bytes
  deriving DecidableEq, Repr

/-- A file bound to one lookup name. -/
structure KnownHostsPolicy where
  lookupName : Bytes
  applicable : List Applicable
  deriving DecidableEq, Repr

/-- Binds a file to a lookup name; a name that is too long matches no entry. -/
def KnownHosts.policyForName (K : Compat) (hosts : KnownHosts) (name : Bytes) :
    KnownHostsPolicy where
  lookupName := name
  applicable := (hosts.entries.filter fun e =>
      !decide (maxLookupNameBytes < name.length) && e.appliesTo K name).map fun e =>
    { line := e.line, marker := e.marker, keyType := e.keyType, blob := e.blob }

/-- Binds a file to the lookup name of a host and a port. -/
def KnownHosts.policyFor (K : Compat) (hosts : KnownHosts) (host : Bytes) (port : UInt16) :
    Except LookupNameError KnownHostsPolicy := do
  let name ← lookupName host port
  pure (hosts.policyForName K name)

/-- The decision about a presented key. -/
def KnownHostsPolicy.decide (policy : KnownHostsPolicy) (host : HostIdentity) : TrustDecision :=
  match policy.applicable.find? fun a => a.marker == .revoked && a.blob == host.blob with
  | some r => .untrusted (.revoked r.line)
  | none =>
    match policy.applicable.find? fun a => a.marker == .none && a.blob == host.blob with
    | some t => .trusted (.knownHosts t.line)
    | none =>
      let plain := policy.applicable.filter fun a => a.marker == .none
      match plain.find? fun a => a.keyType == host.algorithm with
      | some sameAlg => .untrusted (.keyChanged sameAlg.line)
      | none =>
        if plain.head?.isSome then .untrusted .noKeyForAlgorithm
        else if policy.applicable.any fun a => a.marker == .certAuthority then
          .untrusted .certificateAuthorityOnly
        else .untrusted .unknownHost

end Tatami.Keys
