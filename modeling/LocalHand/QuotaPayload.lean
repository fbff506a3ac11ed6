/-
The transports of a bootstrap's plan (`bootstrap.py`, `quota_payload.py`): the
legacy one prints it in base 64, the extended one compresses it first and takes
the values the legacy one refuses. Text is a list of characters.
-/
import LocalHand.QuotaContract
import LocalHand.Lib.Base64

namespace LocalHand.QuotaPayload

open PyJson ResultReader
open Framing (Bytes)

variable {F : Type}

/-- What a decompressor has given: the bytes, whether the stream has ended, and
the input it has not consumed and does not use. -/
structure Inflated where
  raw : Bytes
  eof : Bool
  unconsumedTail : Bytes
  unusedData : Bytes
  deriving Repr, DecidableEq

/-- `zlib`: `compress(raw, 9)`, and `decompressobj().decompress(data, limit)`, which
gives a whole compressed text back within its limit. -/
structure Zlib where
  compress : Bytes → Bytes
  decompress : Bytes → Nat → Option Inflated
  inflate : ∀ raw limit, raw.length < limit → decompress (compress raw) limit = some ⟨raw, true, [], []⟩

example : Zlib := ⟨id, fun raw _ => some ⟨raw, true, [], []⟩, fun _ _ _ => rfl⟩

/-- What the encodings take from Python: how floats print, which are negative and
which equal an integer, `str.lower`, and `zlib`. -/
structure Host (F : Type) where
  floats : FloatText F
  negative : F → Bool
  intOf : F → Option Int
  lower : String → String
  zlib : Zlib

def unsupported (message : String) : Fault := .job "UNSUPPORTED" message

def exceeded (message : String) : Fault := .job "LIMIT_EXCEEDED" message

/-! ## `bootstrap.py` -/

def maxPayloadBytes : Nat := 64 * 1024
def maxPayloadText : Nat := (maxPayloadBytes + 2) / 3 * 4
def argumentChunk : Nat := 64 * 1024
def maxExtendedText : Nat := 512 * 1024

def secretKeys : List String :=
  ["token", "access_token", "refresh_token", "secret", "password", "authorization", "cookie", "private_key", "client_secret"]

def environmentKeys : List String :=
  ["PATH", "LANG", "LC_ALL", "TMPDIR", "TMP", "TEMP", "PYTHONNOUSERSITE", "PYTHONDONTWRITEBYTECODE", "PIP_CONFIG_FILE",
    "PIP_NO_INDEX", "PIP_DISABLE_PIP_VERSION_CHECK", "PIP_NO_CACHE_DIR", "PYTHONPATH", "A2_RESOURCE_TESTS",
    "SETUPTOOLS_USE_DISTUTILS"]

/-- A value of the fixed clean environment. -/
def cleanEnvironment (child : Value F) : Bool :=
  match child with
  | .obj fields => fields.all (fun f => environmentKeys.contains f.1) && match lookup fields "SETUPTOOLS_USE_DISTUTILS" with
    | none => true
    | some (.str s) => s = "stdlib"
    | some _ => false
  | _ => false

section

variable (host : Host F)

mutual
/-- `_check_data` -/
def checkData (depth : Nat) : Value F → Except Fault Unit
  | .obj fields => do
    require (depth ≤ 24) (exceeded "Bootstrap plan nesting exceeds its fixed bound")
    require (fields.all fun f => !secretKeys.contains (host.lower f.1))
      (unsupported "Bootstrap transport does not accept credential fields")
    checkFields (depth + 1) fields
  | .arr xs => do
    require (depth ≤ 24) (exceeded "Bootstrap plan nesting exceeds its fixed bound")
    checkItems (depth + 1) xs
  | .float _ => do
    require (depth ≤ 24) (exceeded "Bootstrap plan nesting exceeds its fixed bound")
    .error (unsupported "Bootstrap transport requires fixed JSON data")
  | _ => require (depth ≤ 24) (exceeded "Bootstrap plan nesting exceeds its fixed bound")

def checkItems (depth : Nat) : List (Value F) → Except Fault Unit
  | [] => .ok ()
  | x :: xs => do
    checkData depth x
    checkItems depth xs

def checkFields (depth : Nat) : List (String × Value F) → Except Fault Unit
  | [] => .ok ()
  | (k, v) :: rest => do
    require (!(k = "env" || k = "environment") || cleanEnvironment v)
      (unsupported "Bootstrap transport requires the fixed clean environment")
    checkData depth v
    checkFields depth rest
end

/-- `json.dumps`, in ASCII. -/
def printed (value : Value F) : Except Fault Bytes :=
  match dumps host.floats true value with
  | none => .error (.value "Exceeds the limit for integer string conversion")
  | some text => .ok (encodeText text)

/-- `encode_payload` -/
def encodePayload (payload : Value F) : Except Fault (List Char) := do
  checkData host 0 payload
  let raw ← printed host payload
  require (raw.length ≤ maxPayloadBytes) (exceeded "Bootstrap plan exceeds its bounded launch transport")
  return Base64.encode raw

/-! ## `quota_payload.py` -/

def maxDecodedBytes : Nat := 2 * 1024 * 1024
def bootstrapPrefix : List Char := "lhq2-bootstrap-z1:".toList
def proofPrefix : List Char := "lhq2-proof-z1:".toList
def proofSchema : String := "local-hand-q2-ordinary-proof/v1"

def invalid (message : String) : Fault := unsupported message

def invalidPayload : Fault := invalid "Invalid bounded Q2 payload"

/-- `_raw` -/
def raw (value : Value F) : Except Fault Bytes :=
  match printed host value with
  | .error _ => .error invalidPayload
  | .ok raw => do
    require (raw.length ≤ maxDecodedBytes) (exceeded "Q2 payload exceeds the fixed decoded bound")
    return raw

/-- A step from a value to one inside it. -/
inductive Seg where
  | key (name : String)
  | index (i : Nat)
  deriving Repr, DecidableEq

/-- Where one historical measurement stands: a field of an item of the list there. -/
def measured (path : List Seg) (field : String) (place : List String) : Bool :=
  path.length = place.length + 2 && path.take place.length = place.map Seg.key && match path.drop place.length with
    | [.index _, .key name] => name = field
    | _ => false

def tooNested : Fault := invalid "Q2 payload nesting exceeds its fixed bound"

section

variable (places : List (List String)) (field : String)

mutual
/-- `_numeric_view` -/
def numericView (path : List Seg) : Value F → Except Fault (Value F)
  | .obj fields => do
    require (path.length ≤ 24) tooNested
    let fields ← viewFields path fields
    return .obj fields
  | .arr xs => do
    require (path.length ≤ 24) tooNested
    let xs ← viewItems path 0 xs
    return .arr xs
  | .float x => do
    require (path.length ≤ 24) tooNested
    require (!(field = "elapsed_seconds" && host.negative x) && places.any (measured path field))
      (invalid "Float lies outside the fixed historical measurement paths")
    return .int 0
  | v => do
    require (path.length ≤ 24) tooNested
    return v

def viewItems (path : List Seg) (i : Nat) : List (Value F) → Except Fault (List (Value F))
  | [] => .ok []
  | x :: xs => do
    let x ← numericView (path ++ [.index i]) x
    let xs ← viewItems path (i + 1) xs
    return x :: xs

def viewFields (path : List Seg) : List (String × Value F) → Except Fault (List (String × Value F))
  | [] => .ok []
  | (k, v) :: rest => do
    let v ← numericView (path ++ [.key k]) v
    let rest ← viewFields path rest
    return (k, v) :: rest
end

end

def versionTwo (value : Value F) : Bool :=
  match value with
  | .int i => i = 2
  | _ => false

def isStr (value : Option (Value F)) (text : String) : Bool :=
  match value with
  | some (.str s) => s = text
  | _ => false

/-- `_checked(value, payload=True)`, with the fields of the execution. -/
def checked (value : Value F) : Except Fault (List (String × Value F)) := do
  let view ← numericView host [["execution", "evidence_snapshot", "broker_events"], ["execution", "broker_events"]]
    "observed_at" [] value
  checkData host 0 view
  match value with
  | .obj fields =>
    match lookup fields "execution" with
    | some (.obj execution) => do
      require (keysAre fields ["version", "execution", "allocation", "observation"]
          && (lookup fields "version").any versionTwo)
        (invalid "Compressed bootstrap requires the exact Q2 envelope")
      require (!((lookup execution "evidence_snapshot").isSome || (lookup execution "broker_events").isSome)
          || isStr (lookup execution "phase") "evidence")
        (invalid "Historical payload requires the original evidence phase")
      return execution
    | _ => .error invalidPayload
  | _ => .error invalidPayload

/-- `_pack` -/
def pack (value : Value F) (mark : List Char) : Except Fault (List Char) := do
  let raw ← raw host value
  let encoded := mark ++ Base64.encode (host.zlib.compress raw)
  require (encoded.length ≤ maxExtendedText) (exceeded "Q2 payload exceeds the fixed encoded bound")
  return encoded

/-- `raw.decode("ascii")` -/
def decodeAscii (raw : Bytes) : Option (List Char) := if raw.all (· < 128) then decodeText raw else none

def invalidCompressed : Fault := invalid "Q2 compressed JSON is invalid"

/-- The body of `_unpack` that its `except` guards. -/
def inflated (encoded : List Char) (mark : List Char) : Option (Bytes × Value F) := do
  let compressed ← Base64.decode (encoded.drop mark.length)
  let out ← host.zlib.decompress compressed (maxDecodedBytes + 1)
  if out.raw.length ≤ maxDecodedBytes ∧ out.eof ∧ out.unconsumedTail = [] ∧ out.unusedData = [] then do
    let text ← decodeAscii out.raw
    let value ← loads host.floats text
    return (out.raw, value)
  else none

/-- `_unpack` -/
def unpack (encoded : List Char) (mark : List Char) : Except Fault (Value F) := do
  require (mark.isPrefixOf encoded && encoded.length ≤ maxExtendedText) (invalid "Invalid bounded Q2 encoding")
  match inflated host encoded mark with
  | none => .error invalidCompressed
  | some (read, value) => do
    let again ← raw host value
    require (again = read) invalidCompressed
    let packed ← pack host value mark
    require (packed = encoded) invalidCompressed
    return value

/-! ### Bridge values -/

def snapshotKeys : List String := ["preparation", "observation", "pending", "closed"]

def isSnapshot (fields : List (String × Value F)) : Bool :=
  keysAre fields snapshotKeys || keysAre fields (snapshotKeys ++ ["task"])

/-- `dict(value, name=new)` of a dict that has the key. -/
def replaceField (name : String) (new : Value F) (fields : List (String × Value F)) : List (String × Value F) :=
  fields.map fun f => if f.1 = name then (name, new) else f

/-- `_ordinary` -/
def ordinary (proof : Value F) : Except Fault Unit :=
  match proof with
  | .obj _ => do
    let view ← numericView host [["result", "stages"]] "elapsed_seconds" [] proof
    checkData host 0 view
  | _ => .error (invalid "Original ordinary proof must be an object")

/-- The fields of a snapshot and of its pending record; `none` where there is nothing to wrap. -/
def pendingOf (value : Value F) : Except Fault (Option (List (String × Value F) × List (String × Value F))) :=
  match value with
  | .obj fields =>
    if isSnapshot fields then
      match lookup fields "pending" with
      | some .null => .ok none
      | some (.obj pending) =>
        if keysAre pending ["phase", "proof"] then .ok (some (fields, pending))
        else .error (invalid "Original pending proof shape changed")
      | _ => .error (invalid "Original pending proof shape changed")
    else .ok none
  | _ => .ok none

/-- A snapshot with another proof in its pending record. -/
def withProof (fields pending : List (String × Value F)) (proof : Value F) : Value F :=
  .obj (replaceField "pending" (.obj (replaceField "proof" proof pending)) fields)

/-- `encode_bridge_value` -/
def encodeBridgeValue (value : Value F) : Except Fault (Value F) := do
  match ← pendingOf value with
  | none => return value
  | some (fields, pending) => do
    let proof := QuotaContract.item pending "proof"
    ordinary host proof
    let encoded ← pack host proof proofPrefix
    return withProof fields pending (.obj [("encoded_proof", .str (String.ofList encoded)), ("schema", .str proofSchema)])

/-- The encoded proof of a wrapper. -/
def unwrap (wrapped : Value F) : Except Fault (List Char) :=
  match wrapped with
  | .obj fields =>
    if keysAre fields ["schema", "encoded_proof"] && isStr (lookup fields "schema") proofSchema then
      match lookup fields "encoded_proof" with
      | some (.str encoded) => .ok encoded.toList
      | _ => .error (invalid "Invalid bounded Q2 encoding")
    else .error (invalid "Unknown ordinary proof transport")
  | _ => .error (invalid "Unknown ordinary proof transport")

/-- `decode_bridge_value` -/
def decodeBridgeValue (value : Value F) : Except Fault (Value F) := do
  match ← pendingOf value with
  | none => return value
  | some (fields, pending) => do
    let encoded ← unwrap (QuotaContract.item pending "proof")
    let proof ← unpack host encoded proofPrefix
    ordinary host proof
    return withProof fields pending proof

/-! ### Bootstraps -/

def noBudget : Fault := invalid "Q2 execution plan has no original artifact budget"

/-- `value[name]`; `none` is a `KeyError` or a `TypeError`. -/
def at' (value : Value F) (name : String) : Option (Value F) :=
  match value with
  | .obj fields => lookup fields name
  | _ => none

def positive (value : Value F) : Option Nat :=
  match value with
  | .int i => if 0 < i then some i.toNat else none
  | _ => none

/-- The roots of the observation whose role is `evidence`. -/
def evidenceRoots (roots : Value F) : Option (List (Value F)) :=
  match roots with
  | .arr roots => do
    let roles ← roots.mapM fun root => at' root "role"
    return ((roots.zip roles).filter fun r => isStr (some r.2) "evidence").map Prod.fst
  | .obj [] | .str "" => some []
  | _ => none

/-- The limits `_artifact_budget` compares with: of temporary bytes, of the
reservation and of the evidence root. -/
def artifactBounds [DecidableEq F] (value : Value F) : Option (Nat × Nat × Nat) := do
  let execution ← at' value "execution"
  let grant ← at' execution "budget_grant"
  let limits ← at' grant "limits"
  let budgets ← at' execution "budgets"
  if budgets.same host.intOf limits then do
    let temporary ← at' limits "temporary_bytes"
    let reservation ← at' limits "reservation_bytes"
    let observation ← at' value "observation"
    let roots ← at' observation "roots"
    match ← evidenceRoots roots with
    | [root] => do
      let hard ← at' root "hard_bytes"
      let temporary ← positive temporary
      let reservation ← positive reservation
      let hard ← positive hard
      return (temporary, reservation, hard)
    | _ => none
  else none

def rounded (size : Nat) : Nat := (size + 4096 - 1) / 4096 * 4096

/-- `_artifact_budget` -/
def artifactBudget [DecidableEq F] (value : Value F) : Except Fault Unit :=
  match artifactBounds host value, at' value "execution" with
  | some (temporary, reservation, hard), some execution => do
    let raw ← raw host execution
    let logical := raw.length + QuotaContract.responseLimit + 1024
    let charged := rounded logical + 4096 + 4096
    require (logical ≤ temporary && charged ≤ min reservation hard)
      (exceeded "Q2 execution plan exceeds its original artifact budget")
  | _, _ => .error noBudget

/-- `encode_bootstrap` -/
def encodeBootstrap [DecidableEq F] (value : Value F) : Except Fault (List Char) := do
  let _ ← checked host value
  match encodePayload host value with
  | .ok encoded => .ok encoded
  | .error (.job _ _) => do
    artifactBudget host value
    pack host value bootstrapPrefix
  | .error fault => .error fault

/-- `decode_bootstrap` -/
def decodeBootstrap [DecidableEq F] (encoded : List Char) : Except Fault (Value F) := do
  let value ← unpack host encoded bootstrapPrefix
  let _ ← checked host value
  artifactBudget host value
  let again ← encodeBootstrap host value
  require (again = encoded) (invalid "Q2 payload does not use its canonical transport")
  return value

/-! ## Arguments (`bootstrap.py`) -/

/-- The legacy part of `decode_payload`. -/
def decodeLegacy (encoded : List Char) : Except Fault (Value F) := do
  require (encoded.length ≤ maxPayloadText) (exceeded "Bootstrap plan exceeds its bounded launch transport")
  match Base64.decode encoded with
  | none => .error (unsupported "Bootstrap plan encoding is invalid")
  | some raw => do
    require (raw.length ≤ maxPayloadBytes) (exceeded "Bootstrap plan exceeds its bounded launch transport")
    match (decodeText raw).bind (loads host.floats) with
    | none => .error (unsupported "Bootstrap plan JSON is invalid")
    | some value => do
      checkData host 0 value
      let again ← encodePayload host value
      require (again = encoded) (unsupported "Bootstrap plan JSON is invalid")
      return value

/-- `decode_payload` -/
def decodePayload [DecidableEq F] (encoded : List Char) : Except Fault (Value F) :=
  if bootstrapPrefix.isPrefixOf encoded then decodeBootstrap host encoded else decodeLegacy host encoded

def notBounded : Fault := exceeded "Bootstrap arguments exceed their bounded transport"

/-- The text in pieces of `argumentChunk`, as many as `count` says. -/
def pieces : Nat → List Char → List (List Char)
  | 0, _ => []
  | count + 1, text => text.take argumentChunk :: pieces count (text.drop argumentChunk)

/-- `payload_arguments` -/
def payloadArguments (encoded : List Char) : Except Fault (List (List Char)) := do
  require (0 < encoded.length && encoded.length ≤ maxExtendedText) notBounded
  return pieces ((encoded.length + argumentChunk - 1) / argumentChunk) encoded

/-- `decode_arguments` -/
def decodeArguments [DecidableEq F] (parts : List (List Char)) : Except Fault (Value F) := do
  require (1 ≤ parts.length && parts.length ≤ 8 && parts.all (fun part => part ≠ [])
    && (parts.map List.length).sum ≤ maxExtendedText) notBounded
  decodePayload host parts.flatten

end

end LocalHand.QuotaPayload
