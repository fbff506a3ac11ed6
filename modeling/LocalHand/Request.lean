/-
Submissions (`contract.py`): the request grammar as the schema `_matches`
walks, the workspace checks beside it, and the digest a request is bound by.
-/
import LocalHand.StrictJson

namespace LocalHand.Request

open PyJson ResultReader
open Framing (Bytes)

variable {F : Type}

def maxCanonicalBytes : Nat := 128 * 1024

def maxInputBytes : Nat := 120 * 1024

def maxWorkspaceTextBytes : Nat := maxInputBytes

/-- The tables of `unicodedata` and `str` that a workspace path is checked with. -/
structure Unicode where
  nfc : Text → Text
  casefold : Text → Text
  upper : Text → Text

/-! ## Schemas -/

inductive Pattern where
  | ref | uuid | uuid4 | digest
  deriving Repr, DecidableEq

def isRefStart (c : Char) : Bool := c.isDigit || ('a' ≤ c && c ≤ 'z')

def isRefChar (c : Char) : Bool := isRefStart c || c = '.' || c = '_' || c = '-'

def Pattern.fullmatch : Pattern → List Char → Bool
  | .ref, [] => false
  | .ref, c :: cs => isRefStart c && cs.length ≤ 127 && cs.all isRefChar
  | .uuid, cs => hexRuns [8, 4, 4, 4, 12] cs
  | .uuid4, cs => hexRuns [8, 4, 4, 4, 12] cs && cs[14]? = some '4'
      && (cs[19]? = some '8' || cs[19]? = some '9' || cs[19]? = some 'a' || cs[19]? = some 'b')
  | .digest, cs => hexRuns [64] cs

/-- A schema as the contract writes them; every `const` is a string. -/
inductive Schema where
  | oneOf (candidates : List Schema)
  | const (text : String)
  | object (properties : List (String × Schema)) (required : List String)
  | string (maxLength : Option Nat) (enumeration : Option (List String)) (pattern : Option Pattern)
  | integer (minimum maximum : Int)

mutual
/-- `_matches` -/
def matchesSchema : Schema → Data F → Bool
  | .oneOf candidates, v => matchCount candidates v = 1
  | .const text, .str s => s = points text
  | .object properties required, .dict fields =>
    required.all (fun name => (field (points name) fields).isSome)
      && fields.all fun f => matchesProperty properties f.1 f.2
  | .string maxLength enumeration pattern, .str s =>
    s.length ≤ maxLength.getD maxRequestBytes
      && enumeration.all (fun names => names.any fun name => s = points name)
      && pattern.all fun p => !s.any isSurrogate && p.fullmatch (s.map charOf)
  | .integer minimum maximum, .int i => minimum ≤ i && i ≤ maximum
  | _, _ => false

def matchCount : List Schema → Data F → Nat
  | [], _ => 0
  | candidate :: rest, v => (if matchesSchema candidate v then 1 else 0) + matchCount rest v

/-- An item against the property of its key; a key with no property fails. -/
def matchesProperty : List (String × Schema) → Key F → Data F → Bool
  | [], _, _ => false
  | (name, schema) :: rest, k, v => if k.is (points name) then matchesSchema schema v else matchesProperty rest k v
end

/-- `_object` with every property required. -/
def object (properties : List (String × Schema)) : Schema := .object properties (properties.map (·.1))

/-- `_string` -/
def string (pattern : Pattern) : Schema := .string none none (some pattern)

def natural : Schema := .integer 0 maxSafeInteger

def positive : Schema := .integer 1 maxSafeInteger

/-- `EXPECTED_SCHEMA` -/
def expectedSchema : Schema :=
  object [("node_id", string .ref), ("install_uuid", string .uuid), ("deployment_epoch", positive),
    ("profile_digest", string .digest), ("policy_digest", string .digest), ("registry_digest", string .digest)]

def suites : List String :=
  ["a1_resources", "a1_response_boundaries", "a2_snapshot_resources", "a2_semantic_resources"]

/-- `KINDS`, each with its `INPUT_SCHEMAS`. -/
def kinds : List (String × Schema) :=
  [("host.inspect", object []),
    ("ledger.prepare", object [("source_ref", string .ref), ("build_cache_ref", string .ref)]),
    ("ledger.test.source", object [("prepared_ref", string .ref)]),
    ("ledger.test.resources",
      object [("prepared_ref", string .ref), ("suite", .string none (some suites) none)]),
    ("ledger.test.installed_local", object [("prepared_ref", string .ref)]),
    ("ledger.nas.roundtrip", object [("prepared_ref", string .ref), ("storage_ref", string .ref)]),
    ("workspace.edit",
      object [("source_ref", string .ref), ("relative_path", .string (some 256) none none),
        ("expected_sha256", string .digest), ("content", .string (some maxWorkspaceTextBytes) none none),
        ("validation_ref", string .ref)]),
    ("ledger.test.local_a2", object [("runtime_ref", string .ref)])]

/-- One candidate of `SUBMIT_SCHEMA`. -/
def submission (kind : String × Schema) : Schema :=
  object [("schema_version", .const "lh-job-v1"), ("operation_id", string .uuid4), ("kind", .const kind.1),
    ("profile_ref", string .ref), ("expected", expectedSchema), ("inputs", kind.2), ("expires_at", natural),
    ("request_digest", string .digest)]

/-- `SUBMIT_SCHEMA` -/
def submitSchema : Schema := .oneOf (kinds.map submission)

/-! ## Workspace inputs -/

def windowsReserved : List String :=
  ["CON", "PRN", "AUX", "NUL", "CONIN$", "CONOUT$", "COM1", "COM2", "COM3", "COM4", "COM5", "COM6", "COM7", "COM8",
    "COM9", "LPT1", "LPT2", "LPT3", "LPT4", "LPT5", "LPT6", "LPT7", "LPT8", "LPT9", "COM¹", "COM²", "COM³", "LPT¹",
    "LPT²", "LPT³"]

def windowsForbidden : Text := points "<>:\"|?*"

/-- `text.rstrip(characters)` -/
def rstrip (characters : Text) (text : Text) : Text :=
  (text.reverse.dropWhile fun p => characters.contains p).reverse

/-- `PurePosixPath(value).parts` of a relative path. -/
def pathParts (value : Text) : List Text :=
  (value.splitOn (pointOf '/')).filter fun part => part ≠ [] ∧ part ≠ points "."

/-- The checks `_canonical_relative_posix` makes of one component. -/
def checkPart (unicode : Unicode) (part : Text) : Except String Unit :=
  let normalized := rstrip (points " .") part
  if part.any fun p => windowsForbidden.contains p then .error "windows_path_alias_rejected"
  else if part.getLast? = some (pointOf ' ') ∨ part.getLast? = some (pointOf '.') then
    .error "windows_path_alias_rejected"
  else if unicode.casefold normalized = points ".git" then .error "git_metadata_rejected"
  else if windowsReserved.any fun name =>
      unicode.upper (rstrip (points " ") (normalized.takeWhile fun p => p ≠ pointOf '.')) = points name then
    .error "windows_path_alias_rejected"
  else .ok ()

/-- `_canonical_relative_posix`, with the codes of its errors. -/
def canonicalRelativePosix (unicode : Unicode) (value : Text) : Except String (List Text) :=
  if value.any fun p => p.val < 32 ∨ p.val = 127 then .error "path_syntax_rejected"
  else if unicode.nfc value ≠ value then .error "path_unicode_normalization_rejected"
  else if value.contains (pointOf '\\') then .error "path_separator_rejected"
  else if value.head? = some (pointOf '/') ∨ points ".." ∈ pathParts value then .error "path_escape"
  else if pathParts value = [] then .error "invalid_path"
  else if [pointOf '/'].intercalate (pathParts value) ≠ value then .error "path_not_canonical"
  else do
    (pathParts value).forM (checkPart unicode)
    return pathParts value

/-- `_workspace_path` -/
def workspacePath (unicode : Unicode) (path : Data F) : Except Fault Unit :=
  match path with
  | .str value =>
    match canonicalRelativePosix unicode value with
    | .error _ => .error (invalid "Workspace file must be a canonical relative path outside Git metadata")
    | .ok _ => .ok ()
  | _ => .error (.value "Workspace path is not text")

section

variable (fl : FloatText F) (unicode : Unicode) (sha256 : Sha256)

/-- `_workspace_inputs` -/
def workspaceInputs (inputs : Data F) : Except Fault Unit := do
  let path ← subscript inputs "relative_path"
  workspacePath unicode path
  let raw ← canonicalBytes fl inputs
  require (raw.length ≤ maxInputBytes)
    (.job "LIMIT_EXCEEDED" "Canonical workspace inputs exceed 120 KiB (including JSON escapes)")

/-! ## Submission -/

def digestName : Text := points "request_digest"

/-- `dict(request)` with `setdefault("request_digest", "0" * 64)`. -/
def withDefault (fields : List (Key F × Data F)) : List (Key F × Data F) :=
  if (field digestName fields).isSome then fields
  else setField digestName (.str (List.replicate 64 (pointOf '0'))) fields

/-- The workspace checks of a submission of that kind. -/
def kindInputs (candidate : List (Key F × Data F)) : Except Fault Unit := do
  let kind ← subscript (.dict candidate) "kind"
  match kind with
  | .str s =>
    if s = points "workspace.edit" then do
      let inputs ← subscript (.dict candidate) "inputs"
      workspaceInputs fl unicode inputs
    else .ok ()
  | _ => .ok ()

/-- `_submit_without_digest`: the request without its digest. -/
def submitWithoutDigest (request : Data F) : Except Fault (Data F) :=
  match request with
  | .dict fields => do
    tree 0 (.dict (withDefault fields))
    require (matchesSchema submitSchema (.dict (withDefault fields))) offContract
    kindInputs fl unicode (withDefault fields)
    let raw ← canonicalBytes fl (.dict (popField digestName (withDefault fields)))
    require (raw.length ≤ maxCanonicalBytes) (.job "LIMIT_EXCEEDED" "Canonical submission exceeds 128 KiB")
    return .dict (popField digestName (withDefault fields))
  | _ => .error offContract

/-- `request_digest` -/
def requestDigest (request : Data F) : Except Fault String := do
  let candidate ← submitWithoutDigest fl unicode request
  let raw ← canonicalBytes fl candidate
  return sha256.hexdigest raw

/-- What a caller hands to `validate_submit`. -/
inductive Submission (F : Type) where
  | raw (document : Raw)
  | value (value : Data F)

/-- `json.loads(raw)` -/
def loadsBytes (raw : Bytes) : Except Fault (Data F) :=
  match (decodeText raw).bind (loads fl) with
  | none => .error (.value "Expecting value")
  | some value => .ok value.data

/-- `validate_submit` of a decoded request. -/
def validateValue (request : Data F) : Except Fault (Data F) :=
  match request with
  | .dict fields =>
    match field digestName fields with
    | none => .error offContract
    | some claimed => do
      let expected ← requestDigest fl unicode sha256 request
      require (match claimed with | .str s => s = points expected | _ => false)
        (.job "CONFLICT" "Request digest does not match canonical request")
      let raw ← canonicalBytes fl request
      loadsBytes fl raw
  | _ => .error offContract

/-- `validate_submit` -/
def validateSubmit (submission : Submission F) : Except Fault (Data F) :=
  match submission with
  | .raw document => do
    let request ← strictLoads fl document maxRequestBytes
    validateValue fl unicode sha256 request
  | .value request => validateValue fl unicode sha256 request

end

end LocalHand.Request
