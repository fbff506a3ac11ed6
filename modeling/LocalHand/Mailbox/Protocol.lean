/-
Tasks and results of the mailbox (`protocol.py` and the checks of `worker.py`),
as `json` has read them.

A dict stands in key order; what `json` prints for one is the host's.
-/
import LocalHand.QuotaPayload

namespace LocalHand.Mailbox

open PyJson ResultReader QuotaContract
open QuotaPayload (isStr replaceField)
open Framing (Bytes)

def taskSchema : String := "local-hand-task/v1"
def resultSchema : String := "local-hand-result/v1"
def workerVersion : String := "local-hand-v0.1"
def maxTaskIdDigits : Nat := 64
def maxTaskJsonBytes : Nat := 8 * 1024 * 1024
def maxResultJsonBytes : Nat := 8 * 1024 * 1024
def maxReceiptJsonBytes : Nat := maxResultJsonBytes + 1024 * 1024
def resultStatuses : List String := ["succeeded", "failed", "rejected", "stale", "indeterminate"]
def taskFields : List String := ["schema_version", "task_id", "target_node", "action", "params"]

def resultFields : List String :=
  ["schema_version", "task_id", "task_digest", "target_node", "node_id", "action", "worker_version", "implementation_commit",
   "package_digest", "profile_digest", "status", "details", "error_code", "error"]

/-- `LocalHandError` -/
structure Failure where
  code : String
  message : String
  status : String
  deriving Repr, DecidableEq

/-- A `LocalHandError` of the default status. -/
def rejected (code message : String) : Failure := ⟨code, message, "rejected"⟩

def indeterminate (code message : String) : Failure := ⟨code, message, "indeterminate"⟩

def check (ok : Bool) (failure : Failure) : Except Failure Unit := if ok then .ok () else .error failure

@[simp] theorem check_ok {ok : Bool} {failure : Failure} {u : Unit} : check ok failure = .ok u ↔ ok = true := by
  cases ok <;> simp [check]

/-- What the mailbox takes from Python: `json.loads` of bytes that are UTF-8, the
text of `json.dumps` with its newline and `canonical_json`, both in UTF-8, and the
hexadecimal digest of `sha256`. -/
structure Host (F : Type) where
  load : Bytes → Option (Value F)
  print : Value F → Option Bytes
  canonical : Value F → Option Bytes
  sha256 : Bytes → String
  load_wf : ∀ raw v, load raw = some v → v.WF
  load_print : ∀ v raw, v.WF → print v = some raw → load raw = some v
  sha256_hex : ∀ raw, hexText 64 (sha256 raw) = true

variable {F : Type} (host : Host F)

/-! ## Identities -/

/-- `TASK_ID_RE` -/
def isTaskId (id : String) : Bool :=
  let digits := id.toList.drop 2
  id.toList.take 2 = ['L', 'H'] && 4 ≤ digits.length && digits.length ≤ maxTaskIdDigits && digits.all (·.isDigit)

def isHex (c : Char) : Bool := isLowerHex c || ('A' ≤ c && c ≤ 'F')

/-- `DIGEST_RE` -/
def isDigest (text : String) : Bool := text.toList.length = 64 && text.toList.all isHex

/-- `COMMIT_RE` -/
def isCommit (text : String) : Bool := 40 ≤ text.toList.length && text.toList.length ≤ 64 && text.toList.all isHex

/-- `text.lower()` of hexadecimal digits. -/
def lower (text : String) : String := String.ofList (text.toList.map Char.toLower)

/-- `conflict_filename` -/
def conflictName (digest : String) : String := "CONFLICT-" ++ lower digest ++ ".json"

def conflictFilename (digest : String) : Except Failure String :=
  if isDigest digest then .ok (conflictName digest)
  else .error (indeterminate "conflict_identity_invalid" "unsafe conflict digest")

/-- `_conflict_filename` -/
def conflictFilenameOf (taskId digest : String) : Except Failure String :=
  if isTaskId taskId && isDigest digest then conflictFilename digest
  else .error (indeterminate "conflict_identity_invalid" "unsafe conflict identity")

/-- The name of a result, a receipt or a task. -/
def fileName (taskId : String) : String := taskId ++ ".json"

/-- `path.stem` of a name that ends in `.json`. -/
def stem (name : String) : String := String.ofList (name.toList.take (name.toList.length - 5))

def isJson (name : String) : Bool := name.toList.drop (name.toList.length - 5) = ".json".toList

/-- `_is_conflict_outbox` -/
def isConflictOutbox (name : String) : Bool := name.toList.take 9 = "CONFLICT-".toList

/-- The text of a field that is a string. -/
def text? (value : Value F) (key : String) : Option String :=
  match value.get? key with
  | some (.str s) => some s
  | _ => none

/-- `task_digest`, where the task has a canonical UTF-8 text; of a result `_result_digest`. -/
def Host.digest (value : Value F) : Option String := (host.canonical value).map host.sha256

/-! ## Tasks -/

/-- `_validate_task_envelope` -/
def validateTaskEnvelope (task : Value F) : Except Failure Unit :=
  match task with
  | .obj _ => do
    check (isStr (task.get? "schema_version") taskSchema) (rejected "unsupported_schema" "unsupported schema_version")
    check ((text? task "task_id").any isTaskId) (rejected "invalid_task_id" "task_id must match LH[0-9]\x7b4,64\x7d")
    check ((text? task "target_node").any (· ≠ "")) (rejected "target_node_required" "target_node required")
  | _ => .error (rejected "invalid_task" "task must be an object")

/-- `_ACTION_PARAM_SCHEMAS`: the required and the optional parameters. -/
def actionParams : List (String × List String × List String) :=
  [("node.status", [], []),
   ("repo.audit", ["repository"], []),
   ("fs.list", ["repository"], ["relative_path"]),
   ("fs.read_text", ["relative_path", "repository"], []),
   ("fs.write_text_cas", ["content", "expected_sha256", "relative_path", "repository"], []),
   ("git.status", ["repository"], []),
   ("git.diff", ["repository"], []),
   ("validation.run_profile", ["profile", "repository"], [])]

def joined (names : List String) : String := String.intercalate ", " names

/-- The loop over the parameters a task has. -/
def validateParams (params : List (String × Value F)) : List String → Except Failure Unit
  | [] => .ok ()
  | name :: rest =>
    match lookup params name with
    | some (.str s) => do
      check (name = "content" || s ≠ "") (rejected "invalid_params" (name ++ " must be a non-empty string"))
      validateParams params rest
    | _ => .error (rejected "invalid_params" (name ++ " must be a string"))

/-- `_validate_action_params` -/
def validateActionParams (action : String) (params : List (String × Value F)) : Except Failure Unit :=
  match actionParams.find? (·.1 = action) with
  | none => .error (rejected "action_not_allowlisted" ("action not allowlisted: " ++ action))
  | some (_, required, optional) => do
    let missing := required.filter fun name => (lookup params name).isNone
    let unknown := (params.map (·.1)).filter fun name => !(required ++ optional).contains name
    check missing.isEmpty (rejected "invalid_params" ("missing required params for " ++ action ++ ": " ++ joined missing))
    check unknown.isEmpty (rejected "invalid_params" ("unknown params for " ++ action ++ ": " ++ joined unknown))
    validateParams params
      ((required ++ optional.filter fun name => (lookup params name).isSome).mergeSort fun a b => decide (a ≤ b))

/-- `_validate_task_contract` -/
def validateTaskContract (task : Value F) : Except Failure Unit :=
  match task with
  | .obj fields =>
    match text? task "action" with
    | some action => do
      check (action ≠ "") (rejected "action_not_allowlisted" "action must be a non-empty allowlisted string")
      match lookup fields "params" with
      | none => .error (rejected "invalid_params" "params is required and must be an object")
      | some (.obj params) => do
        validateActionParams action params
        check (keysAre fields taskFields)
          (rejected "invalid_task" "Task v1 requires exactly schema_version, task_id, target_node, action and params")
      | some _ => .error (rejected "invalid_params" "params must be an object")
    | none => .error (rejected "action_not_allowlisted" "action must be a non-empty allowlisted string")
  | _ => .error (rejected "invalid_task" "task must be an object")

/-- `validate_task` -/
def validateTask (task : Value F) : Except Failure Unit := do
  validateTaskEnvelope task
  validateTaskContract task

/-- A task whose identity a worker of this node can keep. -/
structure Task (F : Type) where
  value : Value F
  id : String
  action : String

/-- `_trusted_local_identity` -/
def trustedLocalIdentity (nodeId name : String) (task : Value F) : Option (Task F) :=
  match task, text? task "task_id", text? task "action" with
  | .obj _, some id, some action =>
    if isStr (task.get? "target_node") nodeId && isTaskId id && id = stem name && action ≠ "" then some ⟨task, id, action⟩
    else none
  | _, _, _ => none

/-! ## Results -/

/-- `validate_result_contract` -/
def validateResultContract (value : Value F) : Except Failure Unit :=
  match value with
  | .obj fields => do
    check (keysAre fields resultFields && (lookup fields "details").any fun d => match d with | .obj _ => true | _ => false)
      (indeterminate "result_invalid" "Result v1 requires the exact envelope and structured details")
    match text? value "status" with
    | none => .error (indeterminate "result_invalid" "Result v1 status invalid")
    | some status => do
      check (resultStatuses.contains status) (indeterminate "result_invalid" "Result v1 status invalid")
      let valid := if status = "succeeded" then ["error_code", "error"].all fun key => match lookup fields key with
          | some .null => true
          | _ => false
        else ["error_code", "error"].all fun key => (text? value key).any (· ≠ "")
      check valid (indeterminate "result_invalid" "Result v1 status/error fields are inconsistent")
  | _ => .error (indeterminate "result_invalid" "Result v1 requires the exact envelope and structured details")

/-- `_json_bytes` with a limit; `none` where the text has no UTF-8 form. -/
def jsonBytes (value : Value F) (maxBytes : Nat) (code : String) : Option (Except Failure Bytes) :=
  (host.print value).map fun data => do
    check (data.length ≤ maxBytes) ⟨code, "serialized JSON exceeds " ++ toString maxBytes ++ " bytes", "failed"⟩
    return data

/-- The checks of the strings in a result, in their order. -/
def textChecks : List (String × (String → Bool)) :=
  [("task_id", isTaskId), ("task_digest", isDigest), ("status", fun s => resultStatuses.contains s), ("action", (· ≠ "")),
   ("target_node", (· ≠ "")), ("node_id", (· ≠ "")), ("worker_version", (· ≠ ""))]

def provenanceChecks : List (String × (String → Bool)) :=
  [("implementation_commit", isCommit), ("package_digest", isDigest), ("profile_digest", isDigest)]

def checkTexts (value : Value F) (checks : List (String × (String → Bool))) : Except Failure Unit :=
  match checks with
  | [] => .ok ()
  | (field, valid) :: rest => do
    check ((text? value field).any valid) (indeterminate "result_invalid" ("result " ++ field ++ " invalid"))
    checkTexts value rest

/-- `_validate_result_shape` -/
def validateResultShape (value : Value F) : Except Failure Unit := do
  validateResultContract value
  check (isStr (value.get? "schema_version") resultSchema) (indeterminate "result_invalid" "result schema/object invalid")
  checkTexts value textChecks
  check (text? value "node_id" = text? value "target_node")
    (indeterminate "result_invalid" "result node_id/target_node mismatch")
  checkTexts value provenanceChecks
  match jsonBytes host value maxResultJsonBytes "result_too_large" with
  | none => .error (indeterminate "result_invalid" "Result cannot be represented as UTF-8 JSON")
  | some (.error failure) => .error failure
  | some (.ok _) => return

/-- `validate_remote_result`; `none` is an expectation there is not. -/
def validateRemoteResult (value : Value F) (taskId : String) (action targetNode digest : Option String) : Except Failure Unit := do
  match validateResultShape host value with
  | .error failure => .error (indeterminate "remote_result_invalid" failure.message)
  | .ok _ => .ok ()
  check (text? value "task_id" = some taskId) (indeterminate "remote_result_invalid" "remote result task_id/path mismatch")
  check (action.isNone || text? value "action" = action)
    (indeterminate "remote_result_invalid" "remote result action/task mismatch")
  check (targetNode.isNone || (text? value "target_node" = targetNode && text? value "node_id" = targetNode))
    (indeterminate "remote_result_invalid" "remote result node/target mismatch")
  check (digest.isNone || (text? value "task_digest").map lower = digest.map lower)
    (indeterminate "remote_result_invalid" "remote result digest/task mismatch")

/-- `_validate_local_outbox_result` -/
def validateLocalOutboxResult (value : Value F) (name : String) : Except Failure Unit := do
  match validateResultShape host value with
  | .error failure => .error (indeterminate "local_outbox_invalid" failure.message)
  | .ok _ => .ok ()
  if isConflictOutbox name then
    check ((text? value "task_digest").any fun digest => conflictFilename digest = .ok name && text? value "status" ≠ some "succeeded")
      (indeterminate "local_outbox_invalid" "conflict filename/digest or status invalid")
  else
    check (text? value "task_id" = some (stem name))
      (indeterminate "local_outbox_invalid" "canonical outbox filename/task_id mismatch")

/-- `build_provenance` -/
structure Provenance where
  implementationCommit : String
  packageDigest : String
  profileDigest : String
  deriving Repr, DecidableEq

/-- What a handler raises, or a check of the task: the status, code and message
`result_error` takes from an exception, and its details where it has a dict. -/
structure Raised (F : Type) where
  failure : Failure
  details : List (String × Value F)

/-- `_base_result` with the four fields of its outcome. -/
def resultOf (task : Task F) (digest nodeId : String) (provenance : Provenance) (status : String)
    (details errorCode error : Value F) : Value F :=
  .obj [("action", .str task.action), ("details", details), ("error", error), ("error_code", errorCode),
    ("implementation_commit", .str provenance.implementationCommit), ("node_id", .str nodeId),
    ("package_digest", .str provenance.packageDigest), ("profile_digest", .str provenance.profileDigest),
    ("schema_version", .str resultSchema), ("status", .str status), ("target_node", .str nodeId),
    ("task_digest", .str digest), ("task_id", .str task.id), ("worker_version", .str workerVersion)]

/-- `result_success` -/
def resultSuccess (task : Task F) (digest nodeId : String) (provenance : Provenance) (details : Value F) : Value F :=
  resultOf task digest nodeId provenance "succeeded" details .null .null

/-- `result_error` -/
def resultError (task : Task F) (digest nodeId : String) (raised : Raised F) (provenance : Provenance) : Value F :=
  resultOf task digest nodeId provenance raised.failure.status (.obj raised.details) (.str raised.failure.code)
    (.str raised.failure.message)

/-- Fields of a dict replaced, one after another. -/
def withFields (value : Value F) (new : List (String × Value F)) : Value F :=
  match value with
  | .obj fields => .obj (new.foldl (fun fields f => replaceField f.1 f.2 fields) fields)
  | v => v

/-- `_bounded_execution_result` -/
def boundedExecutionResult (result : Value F) : Except Failure (Value F) :=
  match validateResultShape host result with
  | .ok _ => .ok result
  | .error failure =>
    if failure.code ≠ "result_too_large" then .error failure
    else
      let original := (host.print result).getD []
      let code := text? result "error_code"
      let summary : Value F := .obj
        [("original_details_omitted", .bool true),
         ("original_error_code", (code.map fun c => Value.str (String.ofList (c.toList.take 128))).getD .null),
         ("original_error_code_truncated", .bool (code.any fun c => 128 < c.toList.length)),
         ("original_result_json_bytes", .int original.length),
         ("original_result_sha256", .str (host.sha256 original)),
         ("original_status", (result.get? "status").getD .null),
         ("result_limit_bytes", .int maxResultJsonBytes)]
      let reduced := withFields result
        [("status", if isStr (result.get? "status") "succeeded" then .str "indeterminate" else (result.get? "status").getD .null),
         ("error_code", .str "result_too_large"),
         ("error", .str "serialized Result exceeds the publication limit; original details omitted; do not replay execution"),
         ("details", summary)]
      do
        validateResultShape host reduced
        return reduced

end LocalHand.Mailbox
