import Tatami.Wire.Messages

/-! # The `EXT_INFO` message

The payload codec of RFC 8308 §2.3. `decode` checks the number and bounds the count by what the
payload can hold, `validate` walks all pairs, and `extensions` lists the pairs lazily read;
`Extensions` is the iterator that reads them. -/

namespace Tatami.Wire

/-- Smallest encoding of one pair: two empty strings. -/
def minPairLen : Nat := 8

/-- Failure of `ExtInfo.validate` or `ExtInfo.serverSigAlgs`. -/
inductive ExtInfoError where
  | message (error : MessageError)
  | tooManyExtensions (claimed : UInt32) (max : Nat)
  | countMismatch (claimed : UInt32) (found : Nat)
  | invalidServerSigAlgs (error : InvalidEncoding)
  deriving DecidableEq, Repr

/-- A payload whose header has been checked. -/
structure ExtInfo where
  claimed : UInt32
  /-- The count, which the remaining bytes can hold. -/
  count : Nat
  /-- Positioned at the first pair. -/
  body : Reader

namespace ExtInfo

/-- Decodes the header. -/
def decode : Bytes → Except MessageError ExtInfo := decodeWith do
  expectMessage Msg.extInfo
  let start ← Cursor.here
  let claimed ← field "nr-extensions" Reader.readU32
  let r ← Cursor.here
  if claimed.toNat ≤ r.remainingLen / minPairLen then
    pure { claimed, count := claimed.toNat, body := r }
  else
    Cursor.fail (.field "nr-extensions" start.pos (.lengthOverflow claimed r.remainingLen))

/-- Reads one pair, naming the failing field. -/
def readPair : Decoder MessageError (Bytes × Bytes) := do
  let name ← field "extension-name" Reader.readString
  let value ← field "extension-value" Reader.readString
  pure (name, value)

/-- The loop of `validate` over the pairs still to come; `found` of them were read. -/
def validatePairs (claimed : UInt32) : Nat → Nat → Reader → Except ExtInfoError Reader
  | 0, _, r => .ok r
  | left + 1, found, r =>
    if r.isEmpty then .error (.countMismatch claimed found)
    else
      match readPair r with
      | (.error e, _) => .error (.message e)
      | (.ok _, r') => validatePairs claimed left (found + 1) r'

/-- Walks the entire message and returns the number of pairs. -/
def validate (e : ExtInfo) (maxExtensions : Nat) : Except ExtInfoError Nat :=
  if maxExtensions < e.count then .error (.tooManyExtensions e.claimed maxExtensions)
  else
    match validatePairs e.claimed e.count 0 e.body with
    | .error err => .error err
    | .ok r =>
      match (finish r).1 with
      | .error err => .error (.message err)
      | .ok () => .ok e.count

/-- The iterator `Extensions` run to its end: it stops after `remaining` pairs or at the first
malformed one. -/
def pairs : Nat → Reader → List (Except MessageError (Bytes × Bytes))
  | 0, _ => []
  | remaining + 1, r =>
    match readPair r with
    | (.ok pair, r') => .ok pair :: pairs remaining r'
    | (.error e, _) => [.error e]

/-- `ExtInfo::extensions` run to its end. -/
def extensions (e : ExtInfo) : List (Except MessageError (Bytes × Bytes)) := pairs e.count e.body

/-- The iterator over the pairs. -/
structure Extensions where
  r : Reader
  remaining : Nat
  failed : Bool

/-- `ExtInfo::extensions`, before any pair is read. -/
def iterator (e : ExtInfo) : Extensions := ⟨e.body, e.count, false⟩

/-- `Extensions::next`. -/
def Extensions.next (it : Extensions) :
    Option (Except MessageError (Bytes × Bytes)) × Extensions :=
  if it.failed || it.remaining == 0 then (none, it)
  else
    match readPair it.r with
    | (.ok pair, r') => (some (.ok pair), { it with r := r', remaining := it.remaining - 1 })
    | (.error e, r') => (some (.error e), { it with r := r', failed := true })

/-- The search of `server_sig_algs` through the pairs. -/
def findServerSigAlgs :
    List (Except MessageError (Bytes × Bytes)) → Option (Except ExtInfoError NameList)
  | [] => none
  | .error e :: _ => some (.error (.message e))
  | .ok (name, value) :: rest =>
    if name = utf8 "server-sig-algs" then
      match NameList.parse value with
      | .ok list => some (.ok list)
      | .error e => some (.error (.invalidServerSigAlgs e))
    else findServerSigAlgs rest

/-- Finds the first `server-sig-algs` extension and parses its value. -/
def serverSigAlgs (e : ExtInfo) : Option (Except ExtInfoError NameList) :=
  findServerSigAlgs e.extensions

/-- The names of the pairs that could be read, as text. -/
def extensionNames (e : ExtInfo) : List String :=
  e.extensions.filterMap fun
    | .ok (name, _) => some (fromUtf8Lossy name)
    | .error _ => none

end ExtInfo

/-- Writes pairs, one behind the other. -/
def writePairs : List (Bytes × Bytes) → Encoder Unit
  | [] => pure ()
  | (name, value) :: rest => do
    Writer.writeString name
    Writer.writeString value
    writePairs rest

/-- Encodes an `EXT_INFO` from its pairs. -/
def encodeExtInfo (pairs : List (Bytes × Bytes)) (out : Bytes) :
    Except EncodeError Nat × Bytes :=
  if pairs.length < 2 ^ 32 then
    Writer.run (do
      Writer.writeU8 Msg.extInfo
      Writer.writeU32 (UInt32.ofNat pairs.length)
      writePairs pairs) out
  else (.error (.lengthOverflow pairs.length), out)

end Tatami.Wire
