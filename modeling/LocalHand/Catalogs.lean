/-
The two catalogs a principal reads page by page: the evidence of an operation
(`evidence.py`, `manifest`) and its own profiles (`policy.py`, `capabilities`).
A cursor is the offset with what it is bound to, under the key of the store that
gave it.
-/
import LocalHand.QuotaContract
import LocalHand.Lib.Paging
import LocalHand.Lib.Base64Url
import Mathlib.Data.Finset.Sort

namespace LocalHand.Catalogs

open PyJson ResultReader QuotaContract
open Framing (Bytes)

variable {F : Type}

/-- What the catalogs take from Python: how floats print, `sha256`, the store's `hmac`, and
`urlsafe_b64decode` of a text with its padding put back, of which only what it makes of encoded
bytes is fixed. -/
structure Host (F : Type) where
  floats : FloatText F
  sha256 : Bytes → String
  hmac : Bytes → Bytes
  unpack : List Char → Option Bytes
  length_hmac : ∀ raw, (hmac raw).length = 32
  unpack_urlEncode : ∀ raw, unpack (Base64.urlEncode raw) = some raw

variable (host : Host F)

/-- `_json`, `canonical_bytes` -/
def Host.json (value : Value F) : Bytes := wire host.floats value

/-- A cursor: the bytes and their tag. -/
def Host.pack (raw : Bytes) : List Char := Base64.urlEncode (raw ++ host.hmac raw)

/-- The bytes of a cursor, where their tag is right. -/
def Host.opened (cursor : List Char) : Option Bytes :=
  (host.unpack cursor).bind fun packed =>
    let raw := packed.take (packed.length - 32)
    if host.hmac raw = packed.drop (packed.length - 32) then some raw else none

def Host.loads (raw : Bytes) : Option (Value F) := (decodeText raw).bind (PyJson.loads host.floats)

/-- `Principal`, or the `str` of another one. -/
inductive Principal where
  | verified (id : { s : String // 0 < s.toList.length ∧ s.toList.length ≤ 256 }) (scopes : Finset String)
  | other (text : String)
  deriving DecidableEq

/-- `subject` -/
def Principal.subject : Principal → Value F
  | .verified id scopes =>
    .obj [("principal_id", .str id.val), ("scopes", .arr ((scopes.sort (· ≤ ·)).map .str))]
  | .other text => .str text

/-! ## Evidence -/

def maxResponse : Nat := 512 * 1024

/-- A seal as `_record` reads it. -/
structure Record (F : Type) where
  eventSeq : Int
  sealId : String
  reconcileId : Value F
  sealSha256 : String
  artifacts : List (List (String × Value F))

structure Evidence (F : Type) where
  host : Host F
  authorize : Principal → String → Except Fault Unit
  /-- The records of an operation's seals, in the order they are listed. -/
  records : String → Except Fault (List (Record F))

structure Page (F : Type) where
  operationId : String
  catalogDigest : String
  artifacts : List (Value F)
  nextCursor : Option (List Char)

def setField (name : String) (value : Value F) : List (String × Value F) → List (String × Value F)
  | [] => [(name, value)]
  | (k, v) :: rest =>
    if k = name then (name, value) :: rest
    else if name < k then (name, value) :: (k, v) :: rest
    else (k, v) :: setField name value rest

/-- `(r["event_seq"], r["seal_id"])` -/
def Record.before (r s : Record F) : Bool := r.eventSeq < s.eventSeq || (r.eventSeq = s.eventSeq && r.sealId ≤ s.sealId)

/-- The artifacts of the records, in the order of the catalog. -/
def itemsOf (operationId : String) (records : List (Record F)) : List (Value F) :=
  (records.mergeSort Record.before).flatMap fun r => r.artifacts.map fun a =>
    .obj ([("operation_id", .str operationId), ("seal_id", .str r.sealId), ("event_seq", .int r.eventSeq),
      ("reconcile_id", r.reconcileId), ("seal_sha256", .str r.sealSha256)].foldl (fun fields f => setField f.1 f.2 fields) a)

/-- What a manifest's cursor is bound to. -/
structure Binding where
  operationId : String
  principal : Principal
  version : String
  deriving DecidableEq

def Binding.fields (b : Binding) : List (String × Value F) :=
  [("operation_id", .str b.operationId), ("principal", b.principal.subject), ("version", .str b.version)]

def Binding.at (b : Binding) (offset : Nat) : Value F := .obj (("offset", .int offset) :: b.fields)

def Host.cursor (b : Binding) (offset : Nat) : List Char := host.pack (host.json (b.at offset))

def conflict : Fault := .job "CONFLICT" "manifest cursor expired or changed"

def manifestLimit : Fault := .job "LIMIT_EXCEEDED" "evidence response budget exceeded"

/-- The offset of a cursor over so many items. -/
def readOffset [DecidableEq F] (b : Binding) (count : Nat) (cursor : List Char) : Except Fault Nat := do
  require (cursor.length ≤ 2048 && cursor ≠ [] && cursor.all Base64.isUrlDigit) conflict
  match (host.opened cursor).bind host.loads with
  | some (.obj fields) =>
    match lookup fields "offset" with
    | some (.int offset) => do
      require (fields.filter (·.1 ≠ "offset") = b.fields && (0 ≤ offset && offset ≤ count)) conflict
      return offset.toNat
    | _ => .error conflict
  | _ => .error conflict

/-- The response as it is measured. -/
def Page.value (page : Page F) : Value F :=
  .obj [("artifacts", .arr page.artifacts), ("catalog_digest", .str page.catalogDigest),
    ("next_cursor", (page.nextCursor.map fun c => Value.str (String.ofList c)).getD .null),
    ("operation_id", .str page.operationId), ("schema_version", .str "lh-evidence-page-v1")]

/-- The page from an offset. -/
def pageFrom (b : Binding) (items : List (Value F)) (offset pageSize : Nat) : Except Fault (Page F) := do
  let page := (items.drop offset).take pageSize
  let next := if offset + page.length < items.length then some (host.cursor b (offset + page.length)) else none
  let result : Page F := ⟨b.operationId, b.version, page, next⟩
  require ((host.json result.value).length ≤ maxResponse) manifestLimit
  return result

/-- `1 <= page_size <= 100` -/
def isPageSize (pageSize : Nat) : Prop := 1 ≤ pageSize ∧ pageSize ≤ 100

instance (pageSize : Nat) : Decidable (isPageSize pageSize) := inferInstanceAs (Decidable (1 ≤ pageSize ∧ pageSize ≤ 100))

def bindingOf (operationId : String) (principal : Principal) (items : List (Value F)) : Binding :=
  ⟨operationId, principal, host.sha256 (host.json (.arr items))⟩

/-- `manifest` -/
def Evidence.manifest [DecidableEq F] (evidence : Evidence F) (operationId : String) (principal : Principal)
    (cursor : Option (List Char)) (pageSize : Nat) : Except Fault (Page F) := do
  evidence.authorize principal operationId
  require (isPageSize pageSize) (.job "LIMIT_EXCEEDED" "invalid manifest page size")
  let records ← evidence.records operationId
  require (!records.isEmpty) (.job "NOT_SEALED" "no complete evidence has been sealed")
  let items := itemsOf operationId records
  let b := bindingOf evidence.host operationId principal items
  let offset ← match cursor with
    | none => .ok 0
    | some cursor => readOffset evidence.host b items.length cursor
  let page ← pageFrom evidence.host b items offset pageSize
  evidence.authorize principal operationId
  return page

/-! ## Capabilities -/

structure Policy (F : Type) where
  host : Host F
  authorize : Principal → Except Fault Unit
  /-- The profiles a principal is admitted to, as the policy and its prepared references make them. -/
  profiles : String → List (Value F)
  policyDigest : String
  /-- No list is as long as `sys.maxsize`. -/
  short : ∀ id, (profiles id).length < 2 ^ 63

structure Capabilities (F : Type) where
  catalogVersion : String
  profiles : List (Value F)
  nextCursor : Option (List Char)

def maxProfilesBytes : Nat := 500 * 1024

def capabilityVersion (principalId policyDigest : String) (profiles : List (Value F)) : String :=
  host.sha256 (host.json (.obj [("policy", .str policyDigest), ("principal", .str principalId), ("profiles", .arr profiles)]))

def capabilityAt (principalId version : String) (offset : Nat) : Value F :=
  .obj [("offset", .int offset), ("principal", .str principalId), ("version", .str version)]

def Host.capabilityCursor (principalId version : String) (offset : Nat) : List Char :=
  host.pack (host.json (capabilityAt principalId version offset))

def invalidCursor : Fault := .job "INVALID_REQUEST" "Invalid capability cursor"

def staleCursor : Fault := .job "STALE_DEPLOYMENT" "Capability cursor no longer matches this catalog"

def catalogLimit : Fault := .job "LIMIT_EXCEEDED" "Profile catalog exceeds the response bound"

/-- The offset of a cursor over so many profiles. -/
def readCapabilityOffset [DecidableEq F] (principalId version : String) (count : Nat) (cursor : List Char) :
    Except Fault Nat :=
  match (host.opened cursor).bind host.loads with
  | some (.obj fields) =>
    match lookup fields "principal", lookup fields "version" with
    | some principal, some version' => do
      require (principal = .str principalId && version' = .str version) staleCursor
      match lookup fields "offset" with
      | some (.int offset) => do
        require (0 ≤ offset && offset ≤ count) invalidCursor
        return offset.toNat
      | _ => .error invalidCursor
    | _, _ => .error invalidCursor
  | _ => .error invalidCursor

/-- The loop that fills a page, cut by its count and by its encoded size. -/
def fillPage (pageSize : Nat) (page : List (Value F)) : List (Value F) → Except Fault (List (Value F))
  | [] => .ok page
  | candidate :: rest =>
    if page.length < pageSize then
      if maxProfilesBytes < (host.json (.arr (page ++ [candidate]))).length then
        if page.isEmpty then .error catalogLimit else .ok page
      else fillPage pageSize (page ++ [candidate]) rest
    else .ok page

/-- `capabilities` -/
def Policy.capabilities [DecidableEq F] (policy : Policy F) (principal : Principal) (cursor : Option (List Char))
    (pageSize : Nat) : Except Fault (Capabilities F) :=
  match principal with
  | .other _ => .error (.job "UNAUTHORIZED" "A verified principal is required")
  | .verified id _ => do
    policy.authorize principal
    require (isPageSize pageSize) (.job "LIMIT_EXCEEDED" "Capability page size exceeds its bound")
    let profiles := policy.profiles id.val
    let version := capabilityVersion policy.host id.val policy.policyDigest profiles
    let offset ← match cursor with
      | none => .ok 0
      | some cursor => readCapabilityOffset policy.host id.val version profiles.length cursor
    let page ← fillPage policy.host pageSize [] (profiles.drop offset)
    let next := if offset + page.length < profiles.length
      then some (policy.host.capabilityCursor id.val version (offset + page.length)) else none
    return ⟨version, page, next⟩

end LocalHand.Catalogs
