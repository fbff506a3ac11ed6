/-
The data of the quota observer's start journal: the checks of `admission.py`,
the binding of one query to a slot (`supervision.py`), and the intent
`journal.py` stores for it.

An intent is a dict. Python keeps it in the order written and prints it
sorted, so it is written here in key order.
-/
import LocalHand.StrictJson

namespace LocalHand.Observer

open PyJson ResultReader
open Framing (Bytes)

/-- A stored dict; a float is refused wherever one could be read. -/
abbrev Json := Value Empty

/-! ## `admission.py` -/

/-- `Rejected(code)`, a `ValueError`. -/
def rejected (code : String) : Fault := .value code

def uint64Max : Int := 18446744073709551615

/-- `value[name]` of a dict that has the key. -/
def item (value : Json) (name : String) : Json := (value.get? name).getD .null

/-- `fields`: a dict with exactly the expected keys. -/
def hasFields (value : Json) (expected : List String) : Bool :=
  match value with
  | .obj fields => fields.all (fun f => expected.contains f.1) && expected.all fun k => (lookup fields k).isSome
  | _ => false

def fields (value : Json) (expected : List String) : Except Fault Unit :=
  require (hasFields value expected) (rejected "FIELDS")

def integer (value : Json) (low high : Int) : Except Fault Int :=
  match value with
  | .int i => if low ≤ i ∧ i ≤ high then .ok i else .error (rejected "INTEGER")
  | _ => .error (rejected "INTEGER")

/-- `token`; the pattern is the predicate its `re.fullmatch` decides. -/
def token (value : Json) (pattern : String → Bool) : Except Fault String :=
  match value with
  | .str s => if pattern s then .ok s else .error (rejected "TOKEN")
  | _ => .error (rejected "TOKEN")

/-- `[a-z0-9][a-z0-9_.-]{0,63}` -/
def slotRefText (s : String) : Bool :=
  match s.toList with
  | c :: rest => (c.isDigit || c.isLower) && rest.length ≤ 63
      && rest.all fun d => d.isDigit || d.isLower || d = '_' || d = '.' || d = '-'
  | [] => false

/-- `ext4|xfs` -/
def filesystemText (s : String) : Bool := s = "ext4" || s = "xfs"

/-- `/[A-Za-z0-9_./@-]{1,1023}` -/
def pathChars (s : String) : Bool :=
  match s.toList with
  | '/' :: rest => 1 ≤ rest.length && rest.length ≤ 1023
      && rest.all fun c => c.isAlphanum || c = '_' || c = '.' || c = '/' || c = '@' || c = '-'
  | _ => false

/-- `path`: an absolute path that `PurePosixPath` leaves as it is, without `..`. -/
def path (value : Json) : Except Fault String := do
  let s ← token value pathChars
  require (((s.toList.splitOn '/').drop 1).all fun part => part ≠ [] && part ≠ ['.'] && part ≠ ['.', '.'])
    (rejected "PATH")
  return s

mutual
/-- `parse_int`: no integer literal is longer than 21 characters. -/
def smallInts : Json → Except Fault Unit
  | .int i => require ((intText i).length ≤ 21) (rejected "INTEGER_SIZE")
  | .arr xs => smallIntsItems xs
  | .obj fs => smallIntsFields fs
  | _ => .ok ()

def smallIntsItems : List Json → Except Fault Unit
  | [] => .ok ()
  | x :: xs => do
    smallInts x
    smallIntsItems xs

def smallIntsFields : List (String × Json) → Except Fault Unit
  | [] => .ok ()
  | (_, v) :: rest => do
    smallInts v
    smallIntsFields rest
end

/-- The loop over `pending`, with the nodes it may still visit. -/
def complexity (depth : Nat) : Nat → List (Json × Nat) → Except Fault Unit
  | _, [] => .ok ()
  | 0, _ => .error (rejected "JSON_COMPLEXITY")
  | n + 1, (value, level) :: pending =>
    if level > depth then .error (rejected "JSON_COMPLEXITY")
    else complexity depth n (((children value).map fun child => (child, level + 1)).reverse ++ pending)

/-- `strict_json`; whatever `loads` refuses is one code here. -/
def strictJson (raw : Bytes) (maximum depth : Nat) : Except Fault Json := do
  require (0 < raw.length && raw.length ≤ maximum) (rejected "BYTE_LIMIT")
  match (decodeText raw).bind (loads noFloats) with
  | none => .error (rejected "JSON")
  | some value => do
    smallInts value
    complexity depth 4096 [(value, 0)]
    return value

/-! ## `supervision.py` -/

structure Root where
  device : Int
  inode : Int
  uid : Int
  gid : Int
  mode : Int
  deriving Repr, DecidableEq

structure Slot where
  ref : String
  generation : String
  path : String
  filesystem : String
  filesystemUuid : String
  root : Root
  projectId : Int
  xflags : Int
  hardBytes : Int
  deriving Repr, DecidableEq

structure Manifest where
  digest : String
  authorityDigest : String
  installationDigest : String
  sourceCommit : String
  bootId : String
  epoch : String
  cgroupParent : String
  maxQueryNs : Int
  slots : List Slot
  deriving Repr, DecidableEq

/-- `Manifest.slot` -/
def Manifest.slot (manifest : Manifest) (ref generation : String) : Except Fault Slot := do
  let _ ← token (.str ref) slotRefText
  let _ ← token (.str generation) (hexText 32)
  match manifest.slots.filter fun slot => slot.ref = ref && slot.generation = generation with
  | [slot] => .ok slot
  | _ => .error (rejected "SLOT_GENERATION")

structure Binding where
  manifest : Manifest
  slot : Slot
  requestId : String
  allocationDigest : String
  executionId : String
  phase : String
  issuedNs : Int
  deadlineNs : Int
  unit : String
  cgroup : String
  deriving Repr, DecidableEq

def isPhase (phase : String) : Bool :=
  ["preflight", "business", "reconcile", "evidence"].contains phase

section

variable (sha256 : Sha256)

/-- The unit name of an identity, the list of what fixes it. -/
def unitOf (identity : List Json) : String :=
  "lhq-" ++ sha256.hexdigest (encodeText (dump noFloats true (.arr identity))) ++ ".service"

/-- `bind_query` -/
def bindQuery (manifest : Manifest) (slotRef generation requestId allocationDigest executionId phase : String)
    (nowNs phaseDeadlineNs : Int) : Except Fault Binding := do
  let slot ← manifest.slot slotRef generation
  let _ ← token (.str requestId) (hexText 32)
  let _ ← token (.str allocationDigest) (hexText 64)
  let _ ← token (.str executionId) (hexText 32)
  require (isPhase phase) (rejected "PHASE")
  let _ ← integer (.int nowNs) 0 uint64Max
  let _ ← integer (.int phaseDeadlineNs) (nowNs + 1) uint64Max
  let last ← integer (.int (nowNs + manifest.maxQueryNs)) 0 uint64Max
  let unit := unitOf sha256 [.str manifest.digest, .str slot.ref, .str slot.generation, .str requestId,
    .str allocationDigest, .str executionId, .str phase]
  return ⟨manifest, slot, requestId, allocationDigest, executionId, phase, nowNs, min phaseDeadlineNs last, unit,
    manifest.cgroupParent ++ "/" ++ unit⟩

/-! ## `journal.py` -/

def intentSchema : String := "local-hand-quota-q1-intent/v1"

/-- The dict of `_binding_value`. -/
def Binding.value (b : Binding) : Json := .obj [
  ("allocation_digest", .str b.allocationDigest), ("authority_digest", .str b.manifest.authorityDigest),
  ("boot_id", .str b.manifest.bootId), ("cgroup", .str b.cgroup), ("deadline_ns", .int b.deadlineNs),
  ("epoch", .str b.manifest.epoch), ("execution_id", .str b.executionId), ("filesystem", .str b.slot.filesystem),
  ("filesystem_uuid", .str b.slot.filesystemUuid), ("generation", .str b.slot.generation),
  ("hard_bytes", .int b.slot.hardBytes), ("installation_digest", .str b.manifest.installationDigest),
  ("issued_ns", .int b.issuedNs), ("manifest_digest", .str b.manifest.digest), ("phase", .str b.phase),
  ("project_id", .int b.slot.projectId), ("request_id", .str b.requestId), ("root_device", .int b.slot.root.device),
  ("root_inode", .int b.slot.root.inode), ("schema", .str intentSchema), ("slot_ref", .str b.slot.ref),
  ("source_commit", .str b.manifest.sourceCommit), ("unit", .str b.unit), ("xflags", .int b.slot.xflags)]

def intentFields : List String :=
  ["schema", "manifest_digest", "authority_digest", "installation_digest", "source_commit", "epoch", "boot_id",
    "request_id", "allocation_digest", "execution_id", "phase", "slot_ref", "generation", "issued_ns",
    "deadline_ns", "unit", "cgroup", "root_device", "root_inode", "filesystem_uuid", "filesystem", "project_id",
    "xflags", "hard_bytes"]

/-- What an intent's unit name is made of. -/
def identityFields : List String :=
  ["manifest_digest", "slot_ref", "generation", "request_id", "allocation_digest", "execution_id", "phase"]

/-- `_validate_intent` -/
def validateIntent (value : Json) : Except Fault Unit := do
  fields value intentFields
  require (item value "schema" = .str intentSchema) (rejected "INTENT_SCHEMA")
  ["manifest_digest", "authority_digest", "installation_digest", "allocation_digest"].forM fun field => do
    let _ ← token (item value field) (hexText 64)
  let _ ← token (item value "source_commit") (hexText 40)
  ["epoch", "request_id", "execution_id", "generation"].forM fun field => do
    let _ ← token (item value field) (hexText 32)
  let _ ← token (item value "boot_id") uuidText
  let _ ← token (item value "filesystem_uuid") uuidText
  let _ ← token (item value "filesystem") filesystemText
  let _ ← integer (item value "root_device") 0 uint64Max
  let _ ← integer (item value "root_inode") 1 uint64Max
  let _ ← integer (item value "project_id") 1 4294967295
  let xflags ← integer (item value "xflags") 0 4294967295
  require (xflags.toNat.testBit 9) (rejected "PROJECT_INHERIT")
  let hardBytes ← integer (item value "hard_bytes") 1024 uint64Max
  require (hardBytes % 1024 = 0) (rejected "PROJECT_LIMIT")
  let _ ← token (item value "slot_ref") slotRefText
  require (match item value "phase" with | .str phase => isPhase phase | _ => false) (rejected "PHASE")
  let issued ← integer (item value "issued_ns") 0 uint64Max
  let _ ← integer (item value "deadline_ns") (issued + 1) uint64Max
  let unit := unitOf sha256 (identityFields.map (item value))
  require (item value "unit" = .str unit) (rejected "UNIT_BINDING")
  let cgroup ← path (item value "cgroup")
  require (("/" ++ unit).toList.isSuffixOf cgroup.toList) (rejected "UNIT_BINDING")

/-- `_binding_value` -/
def bindingValue (b : Binding) : Except Fault Json := do
  let checked ← bindQuery sha256 b.manifest b.slot.ref b.slot.generation b.requestId b.allocationDigest b.executionId
    b.phase b.issuedNs b.deadlineNs
  require (checked = b) (rejected "BINDING_CHANGED")
  validateIntent sha256 b.value
  return b.value

/-- `_encode` -/
def encode (value : Json) : Bytes := encodeText (dump noFloats true value ++ ['\n'])

end

end LocalHand.Observer
