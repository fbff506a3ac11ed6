/-
What a query of the quota observer reports and how it is checked
(`quota_contract.py`): the request, the declared and the reported roots, the
calls made of the kernel and the exit claims.
-/
import LocalHand.QuotaGrant
import Mathlib.Data.List.AList
import Mathlib.Algebra.BigOperators.Group.Finset.Basic

namespace LocalHand.QuotaReceipt

open PyJson ResultReader QuotaContract
open Framing (Bytes)

variable {F : Type}

def requestLimit : Nat := 8192

def rootRoles : List String := ["work", "evidence", "temporary", "retained_store"]

def callOperations : List String := ["STATE_BEFORE", "GET_QUOTA", "STATE_AFTER"]

def exitFlags : List String :=
  ["delivery_settled", "future_start_blocked", "job_empty", "unit_terminal", "tree_empty", "collectors_stopped",
    "stdout_eof", "stderr_eof"]

def requestKeys : List String :=
  ["schema", "operation", "request_id", "authority_digest", "installation_digest", "manifest_digest", "epoch",
    "generation", "boot_id", "slot_ref", "execution_id", "phase", "allocation_digest", "observation_grant_digest",
    "deadline_ns"]

def rootFlags : List String := ["accounting", "enforcement", "identity_unchanged"]

def rootKeys : List String :=
  ["role", "device", "inode", "uid", "gid", "mode", "filesystem", "filesystem_uuid", "project_id", "xflags",
    "hard_bytes"] ++ rootFlags

def receiptKeys : List String :=
  ["schema", "request_digest", "status", "reason", "deadline_ns", "started_ns", "finished_ns", "query", "roots", "calls",
    "exit"]

/-- The checks of a text, with the text. -/
def text (value : Value F) (pattern : String → Bool) (code : String) : Except Fault String :=
  match value with
  | .str s => if pattern s then .ok s else .error (quotaError code)
  | _ => .error (quotaError code)

def flag (value : Value F) (code : String) : Except Fault Bool :=
  match value with
  | .bool b => .ok b
  | _ => .error (quotaError code)

/-! ## Requests -/

/-- `_PHASES` -/
def phasesOf : String → List String
  | "job" => ["preflight", "business", "evidence"]
  | "reconcile" => ["reconcile", "evidence"]
  | _ => []

/-- `[a-z0-9][a-z0-9._-]{0,127}` -/
def slotRefText (s : String) : Bool :=
  match s.toList with
  | c :: rest => (c.isDigit || c.isLower) && rest.length ≤ 127
      && rest.all fun d => d.isDigit || d.isLower || d = '.' || d = '_' || d = '-'
  | [] => false

/-- `[a-zA-Z0-9:_.-]{1,200}` -/
def executionText (s : String) : Bool :=
  1 ≤ s.toList.length && s.toList.length ≤ 200
    && s.toList.all fun c => c.isAlphanum || c = ':' || c = '_' || c = '.' || c = '-'

/-- The namespace before the first `-`, the phase after the last one, and a record between them. -/
def executionPhase (execution phase : String) : Bool :=
  let namespc := execution.toList.takeWhile (· ≠ '-')
  let recordPhase := execution.toList.drop (namespc.length + 1)
  let suffix := (recordPhase.reverse.takeWhile (· ≠ '-')).reverse
  (phasesOf (String.ofList namespc)).contains phase && suffix.length + 1 < recordPhase.length
    && String.ofList suffix = phase

/-- `Request` -/
structure Request where
  wire : Bytes

variable (fl : FloatText F)

/-- `Request.digest` -/
def Request.digest (sha256 : Bytes → String) (request : Request) : String := sha256 request.wire

/-- `Request.query_unit` -/
def Request.queryUnit (sha256 : Bytes → String) (request : Request) : String :=
  "lhqo-" ++ request.digest sha256 ++ ".service"

/-- `Request.as_dict`, `Receipt.as_dict` -/
def asDict (wire : Bytes) : Except Fault (Value F) :=
  match (decodeText wire).bind (loads fl) with
  | none => .error (.value "JSON")
  | some value => .ok value

/-- `decode_request` -/
def decodeRequest (raw : Bytes) : Except Fault Request := do
  let value ← load fl raw requestLimit 4
  let fields ← keys value requestKeys
  let _ ← text (item fields "schema") (· = "local-hand-quota-observe/v1") "SCHEMA"
  let _ ← text (item fields "operation") (· = "observe") "SCHEMA"
  ["request_id", "epoch", "generation"].forM fun key => matchText (item fields key) (hexText 32)
  ["authority_digest", "installation_digest", "manifest_digest", "allocation_digest",
    "observation_grant_digest"].forM fun key => matchText (item fields key) (hexText 64)
  matchText (item fields "boot_id") uuidText
  matchText (item fields "slot_ref") slotRefText
  let execution ← text (item fields "execution_id") executionText "IDENTITY"
  let _ ← text (item fields "phase") (executionPhase execution) "EXECUTION_PHASE"
  let _ ← integer (item fields "deadline_ns") 1 maxInteger
  let wire ← canonical fl value requestLimit
  return ⟨wire⟩

/-! ## Roots -/

/-- A root as a document gives it, with its flags. -/
structure Reported where
  root : QuotaGrant.Root
  accounting : Bool
  enforcement : Bool
  identityUnchanged : Bool
  deriving DecidableEq

/-- The quota domain a root is charged to. -/
def Reported.domain (r : Reported) : String × Int := (r.root.filesystemUuid, r.root.projectId)

def Reported.hardBytes (r : Reported) : Int := r.root.hardBytes

/-- `all(root[key] for key in _ROOT_FLAGS)` -/
def Reported.flags (r : Reported) : Bool := r.accounting && r.enforcement && r.identityUnchanged

/-- `_root`, with the root it has checked. -/
def root (value : Value F) : Except Fault Reported := do
  let fields ← keys value rootKeys
  let role ← text (item fields "role") rootRoles.contains "ROOT_ROLE"
  let device ← integer (item fields "device") 0 maxInteger
  let inode ← integer (item fields "inode") 1 maxInteger
  let uid ← integer (item fields "uid") 1 (2 ^ 32 - 2)
  let gid ← integer (item fields "gid") 0 (2 ^ 32 - 2)
  let projectId ← integer (item fields "project_id") 1 (2 ^ 32 - 1)
  let xflags ← integer (item fields "xflags") 0 (2 ^ 32 - 1)
  let mode ← integer (item fields "mode") 0 maxInteger
  require (mode = 0o40700) (quotaError "ROOT_MODE")
  let filesystem ← text (item fields "filesystem") ["ext4", "xfs"].contains "FILESYSTEM"
  let filesystemUuid ← text (item fields "filesystem_uuid") uuidText "IDENTITY"
  require (xflags.toNat &&& 0x200 ≠ 0) (quotaError "PROJECT_INHERITANCE")
  let hardBytes ← integer (item fields "hard_bytes") 1 maxInteger
  require (hardBytes % 1024 = 0) (quotaError "HARD_LIMIT")
  let accounting ← flag (item fields "accounting") "ROOT_FLAG"
  let enforcement ← flag (item fields "enforcement") "ROOT_FLAG"
  let identityUnchanged ← flag (item fields "identity_unchanged") "ROOT_FLAG"
  return ⟨⟨role, device, inode, uid, gid, mode, filesystem, filesystemUuid, projectId, xflags, hardBytes⟩,
    accounting, enforcement, identityUnchanged⟩

/-- The variables of `_roots`; `roots` are the values of `by_role`, in their order. -/
structure Seen where
  roots : List Reported
  identities : List (Int × Int)
  fsDevices : AList fun _ : String => Int
  deviceFs : AList fun _ : Int => String × String
  domains : AList fun _ : String × Int => Int

def Seen.none : Seen := ⟨[], [], ∅, ∅, ∅⟩

def Seen.byRole (seen : Seen) (role : String) : Option Reported := seen.roots.find? (·.root.role = role)

/-- One turn of the loop of `_roots`. -/
def rootStep (phase : String) (seen : Seen) (value : Value F) : Except Fault Seen := do
  let r ← root value
  let role := r.root.role
  require ((seen.byRole role).isNone && (role ≠ "retained_store" || phase = "evidence")) (quotaError "ROOT_ROLE")
  let identity := (r.root.device, r.root.inode)
  require (!seen.identities.contains identity) (quotaError "ROOT_ALIAS")
  let fs := r.root.filesystemUuid
  let device := r.root.device
  let filesystem := (fs, r.root.filesystem)
  require ((seen.fsDevices.lookup fs).getD device = device && (seen.deviceFs.lookup device).getD filesystem = filesystem)
    (quotaError "FILESYSTEM_ALIAS")
  require ((seen.domains.lookup r.domain).getD r.hardBytes = r.hardBytes) (quotaError "DOMAIN_LIMIT_CONFLICT")
  return ⟨seen.roots ++ [r], identity :: seen.identities, seen.fsDevices.insert fs device,
    seen.deviceFs.insert device filesystem, seen.domains.insert r.domain r.hardBytes⟩

/-- `_roots`, with the sum over its domains. -/
def roots (value : Value F) (phase : String) (complete : Bool) : Except Fault (Seen × Int) :=
  match value with
  | .arr values => do
    require (values.length ≤ 4) (quotaError "ROOT_COUNT")
    let seen ← values.foldlM (rootStep phase) Seen.none
    require (!complete || (rootRoles.take 3).all fun role => (seen.byRole role).isSome) (quotaError "ROOT_COUNT")
    let total ← integer (.int (F := F) (seen.domains.entries.map fun e => e.2).sum) 0 maxInteger
    return (seen, total)
  | _ => .error (quotaError "ROOT_COUNT")

/-- `validate_expected_roots` -/
def validateExpectedRoots (values : Value F) (phase : String) : Except Fault (Value F) := do
  require (["preflight", "business", "reconcile", "evidence"].contains phase) (quotaError "EXECUTION_PHASE")
  let (seen, _) ← roots values phase true
  require (seen.roots.all Reported.flags) (quotaError "EXPECTED_ENFORCEMENT")
  let wire ← canonical fl values responseLimit
  load fl wire responseLimit 6

/-! ## Calls -/

/-- The variables of `_calls`. -/
structure Progress where
  positions : AList fun _ : String => Nat
  active : Option String
  failed : Bool

def Progress.start : Progress := ⟨∅, none, false⟩

/-- `positions.get(role, 0)` -/
def Progress.position (s : Progress) (role : String) : Nat := (s.positions.lookup role).getD 0

/-- The active role has made all its calls. -/
def Progress.turned (s : Progress) : Bool :=
  match s.active with
  | none => true
  | some active => s.position active = 3

/-- One turn of the loop of `_calls`. -/
def callStep (expected : Finset String) (s : Progress) (value : Value F) : Except Fault Progress := do
  let fields ← keys value ["role", "operation", "rc", "errno"]
  let role ← text (item fields "role") (· ∈ expected) "CALL_ROLE"
  require (!s.failed) (quotaError "CALL_AFTER_FAILURE")
  require (s.active = some role || (role ∉ s.positions && s.turned)) (quotaError "CALL_ORDER")
  let _ ← text (item fields "operation") (fun operation => callOperations[s.position role]? = some operation) "CALL_ORDER"
  let rc ← integer (item fields "rc") (-1) 0
  let _ ← integer (item fields "errno") 0 4095
  return { positions := s.positions.insert role (s.position role + 1), active := some role, failed := rc = -1 }

/-- `_calls` -/
def calls (value : Value F) (expected : Finset String) (observed : Bool) : Except Fault Unit :=
  match value with
  | .arr values => do
    require (values.length ≤ 12) (quotaError "CALL_COUNT")
    let s ← values.foldlM (callStep expected) Progress.start
    require (!observed || (!s.failed && s.positions.keys.toFinset = expected
      && ∀ role ∈ expected, s.positions.lookup role = some 3)) (quotaError "CALLS_INCOMPLETE")
  | _ => .error (quotaError "CALL_COUNT")

/-! ## Receipts -/

/-- `Receipt` -/
structure Receipt where
  wire : Bytes
  domainHardBytes : Int

def pathParts (path : String) : List (List Char) := (path.toList.drop 1).splitOn '/'

/-- `canonical_path`, with the text. -/
def canonicalPath (value : Value F) : Except Fault String :=
  text value (fun path => 1 < path.toList.length && path.toList.length ≤ 4096 && path.toList.head? = some '/'
    && (pathParts path).all (fun part => part ≠ [] && part ≠ ['.'] && part ≠ ['.', '.'])
    && path.toList.all fun c => c.isAlphanum || c = '.' || c = '/' || c = '_' || c = '@' || c = '-') "PATH"

/-- A field that is `None`, or an integer in its range. -/
def optional (value : Value F) (low high : Int) : Except Fault (Option Int) :=
  match value with
  | .null => .ok none
  | value => some <$> integer value low high

/-- `started_ns` and `finished_ns` -/
def times (fields : List (String × Value F)) (observed : Bool) (deadline now : Int) : Except Fault Unit := do
  let start ← optional (item fields "started_ns") 0 now
  let finish ← optional (item fields "finished_ns") (start.getD 0) now
  require (finish.isNone || start.isSome) (quotaError "TIMING")
  require (!observed || (start.isSome && finish.any (· < deadline))) (quotaError "TIMING")

/-- `query` -/
def query (value : Value F) (observed : Bool) (unit : String) : Except Fault Unit :=
  match value with
  | .null => require (!observed) (quotaError "QUERY_MISSING")
  | value => do
    let fields ← keys value ["unit", "invocation_id", "cgroup"]
    let _ ← text (item fields "unit") (· = unit) "QUERY_BINDING"
    matchText (item fields "invocation_id") (hexText 32)
    let cgroup ← canonicalPath (item fields "cgroup")
    require ((pathParts cgroup).getLast? = some unit.toList) (quotaError "QUERY_BINDING")

/-- The proof of exit. -/
def exitProof (value : Value F) (observed : Bool) : Except Fault Unit := do
  let fields ← keys value (exitFlags ++ ["proof_digest", "exec_main_code", "exec_main_status", "client_returncode"])
  let flags ← exitFlags.mapM fun key => flag (item fields key) "EXIT_FLAG"
  match item fields "proof_digest" with
  | .null => require (!observed) (quotaError "EXIT_UNPROVEN")
  | digest => matchText digest (hexText 64)
  let code ← optional (item fields "exec_main_code") 0 6
  let status ← optional (item fields "exec_main_status") 0 255
  let returncode ← optional (item fields "client_returncode") (-255) 255
  require (!observed || (flags.all id && (code, status, returncode) = (some 1, some 0, some 0)))
    (quotaError "EXIT_UNPROVEN")

/-- A reported root is the declared one of its role. -/
def bound (observed : Bool) (expected : Seen) (r : Reported) : Bool :=
  match expected.byRole r.root.role with
  | none => false
  | some e => if observed then r = e else r.root = e.root

/-- `roots.keys()` -/
def Seen.names (seen : Seen) : Finset String := (seen.roots.map fun r => r.root.role).toFinset

def statuses : List String := ["OBSERVED", "UNKNOWN", "REJECTED", "UNSUPPORTED"]

/-- `[A-Z][A-Z0-9_]{0,63}` -/
def reasonText (s : String) : Bool :=
  match s.toList with
  | c :: rest => c.isUpper && rest.length ≤ 63 && rest.all fun d => d.isUpper || d.isDigit || d = '_'
  | [] => false

/-- `decode_receipt` -/
def decodeReceipt (sha256 : Bytes → String) (raw : Bytes) (request : Request) (expectedRoots : Value F) (nowNs : Int) :
    Except Fault Receipt := do
  let request ← decodeRequest fl request.wire
  let original ← asDict fl request.wire
  let original ← keys original requestKeys
  let phase ← text (item original "phase") (fun _ => true) "EXECUTION_PHASE"
  let limit ← integer (item original "deadline_ns") 1 maxInteger
  let expected ← validateExpectedRoots fl expectedRoots phase
  let (expected, _) ← roots expected phase true
  let value ← load fl raw responseLimit 6
  let fields ← keys value receiptKeys
  let _ ← text (item fields "schema") (· = "local-hand-quota-receipt/v1") "SCHEMA"
  let _ ← text (item fields "request_digest") (· = request.digest sha256) "REQUEST_BINDING"
  let status ← text (item fields "status") statuses.contains "STATUS"
  matchText (item fields "reason") reasonText
  let observed := status = "OBSERVED"
  let deadline ← integer (item fields "deadline_ns") 1 limit
  let now ← integer (.int (F := F) nowNs) 0 maxInteger
  require (now < deadline) (quotaError "DEADLINE")
  times fields observed deadline now
  query (item fields "query") observed (request.queryUnit sha256)
  let (reported, total) ← roots (item fields "roots") phase observed
  require (reported.names ⊆ expected.names && (!observed || reported.names = expected.names)) (quotaError "ROOT_BINDING")
  require (reported.roots.all (bound observed expected)) (quotaError "ROOT_BINDING")
  calls (item fields "calls") expected.names observed
  exitProof (item fields "exit") observed
  let wire ← canonical fl value responseLimit
  return ⟨wire, total⟩

end LocalHand.QuotaReceipt
