/-
The node's admission barrier (`maintenance.py`): one durable record, `OPEN` or
`CLOSED` under an owner, with the responsibilities accepted under it.

Every mutator reads the record under the lock, decides, and either leaves the
record (re-syncing it) or writes a whole new one. The decision is a pure
function of the record read; `locked` runs it, with the I/O fault of this call
as an input. The record is kept as typed data, and a read or a write that
fails for its size, nesting or encoding is one of those faults.
-/
import LocalHand.Contract
import LocalHand.Lib.Json
import LocalHand.Lib.Run
import Mathlib.Data.List.AList

namespace LocalHand.Maintenance

open PyJson Machine

variable {F : Type} [DecidableEq F]

/-- What the gate takes from outside: its node, `sha256` over canonical JSON,
and when a float equals an integer. -/
structure Site (F : Type) where
  nodeId : String
  digest : Value F → String
  intOf : F → Option Int

inductive GateState where
  | «open» | closed
  deriving Repr, DecidableEq

inductive Kind where
  | prepare | execute
  deriving Repr, DecidableEq

inductive DutyState where
  | accepted | dispatching | closed
  deriving Repr, DecidableEq

/-- The two closure proofs `_validate_closure` lets through. -/
inductive Closure where
  | neverDispatched
  | processExitedAndWritersStopped
  deriving Repr, DecidableEq

structure Loaded where
  nodeId : String
  deploymentDigest : String
  configurationDigest : String
  payloadDigest : String
  bootId : String
  component : String
  deriving Repr, DecidableEq

structure Prepared where
  operationId : String
  attemptId : String
  requestDigest : String
  resourceDigest : String
  deploymentDigest : String
  configurationDigest : String
  payloadDigest : String
  bootId : String
  deriving Repr, DecidableEq

structure Compatibility where
  prepared : Prepared
  targetDeploymentDigest : String
  owner : String
  targetLoaded : Option Loaded
  deriving DecidableEq

structure Responsibility (F : Type) where
  id : String
  kind : Kind
  operationId : String
  attemptId : String
  binding : Value F
  bindingDigest : String
  loaded : Loaded
  state : DutyState
  acceptedSequence : Int
  proof : Option Closure
  deriving DecidableEq

inductive Transition where
  | close (owner : String)
  | handoff (owner successor : String)
  | release (owner decisionId deploymentDigest : String)
  deriving Repr, DecidableEq

abbrev Duties (F : Type) := AList fun _ : String => Responsibility F

/-- The record `gate.json` holds. -/
structure Gate (F : Type) where
  nodeId : String
  state : GateState
  sequence : Int
  owner : Option String
  decisionId : String
  deploymentDigest : String
  responsibilities : Duties F
  compatibility : AList fun _ : String => Compatibility
  lastTransition : Option Transition
  retiredOwners : List String
  deriving DecidableEq

/-! ## Validation -/

def isIdentifier (value : String) : Bool :=
  value ≠ "" && value.length ≤ 4096 && !value.toList.contains '\x00'

def isDigest (value : String) : Bool := hexText 64 value

/-- `_identifier` -/
def identifier (value : String) : Except Fault Unit :=
  require (isIdentifier value) (.job "MAINTENANCE_UNKNOWN" "Maintenance identity is invalid")

/-- `_digest` -/
def checkDigest (value : String) : Except Fault Unit :=
  require (isDigest value) (.job "MAINTENANCE_UNKNOWN" "Maintenance deployment binding is invalid")

def Prepared.toValue (p : Prepared) : Value F :=
  .obj [("attempt_id", .str p.attemptId), ("boot_id", .str p.bootId),
    ("configuration_digest", .str p.configurationDigest),
    ("deployment_digest", .str p.deploymentDigest), ("operation_id", .str p.operationId),
    ("payload_digest", .str p.payloadDigest), ("request_digest", .str p.requestDigest),
    ("resource_digest", .str p.resourceDigest)]

/-- `_validate_loaded` -/
def validateLoaded (site : Site F) (loaded : Loaded) : Except Fault Unit := do
  require (loaded.nodeId = site.nodeId) (.job "STALE_DEPLOYMENT" "Loaded deployment proof is invalid")
  checkDigest loaded.deploymentDigest
  checkDigest loaded.configurationDigest
  checkDigest loaded.payloadDigest
  identifier loaded.bootId
  identifier loaded.component

/-- `_validate_prepared`; an incomplete binding is `none`. -/
def validatePrepared : Option Prepared → Except Fault Prepared
  | none => .error (.job "STALE_DEPLOYMENT" "Prepared task has no complete deployment binding")
  | some p => do
    identifier p.operationId
    identifier p.attemptId
    identifier p.bootId
    checkDigest p.requestDigest
    checkDigest p.resourceDigest
    checkDigest p.deploymentDigest
    checkDigest p.configurationDigest
    checkDigest p.payloadDigest
    return p

/-- `_validate_closure` -/
def validateClosure (proof : Value F) : Except Fault Closure :=
  if proof = .obj [("never_dispatched", .bool true)] then .ok .neverDispatched
  else if proof = .obj [("process_exited", .bool true), ("writers_stopped", .bool true)] then
    .ok .processExitedAndWritersStopped
  else .error (.job "IO_UNCERTAIN" "Responsibility needs positive closure proof")

/-- One entry of `responsibilities`. -/
def validateDuty (site : Site F) (sequence : Int) (identity : String) (item : Responsibility F) :
    Except Fault Unit := do
  require (item.id = identity && hexText 32 identity && 1 ≤ item.acceptedSequence
    && item.acceptedSequence ≤ sequence && (item.binding matches .obj _)) (.value "responsibility")
  if item.state = .closed then
    require item.proof.isSome (.job "IO_UNCERTAIN" "Responsibility needs positive closure proof")
  else
    require item.proof.isNone (.value "unclosed proof")
  identifier item.operationId
  identifier item.attemptId
  validateLoaded site item.loaded
  checkDigest item.bindingDigest
  require (site.digest item.binding = item.bindingDigest) (.value "binding")

/-- One entry of `compatibility`. -/
def validateCompatibility (site : Site F) (key : String) (item : Compatibility) :
    Except Fault Unit := do
  require (key = site.digest item.prepared.toValue) (.value "compatibility")
  checkDigest item.targetDeploymentDigest
  identifier item.owner
  let _ ← validatePrepared (some item.prepared)
  match item.targetLoaded with
  | none => return
  | some loaded =>
    validateLoaded site loaded
    require (loaded.deploymentDigest = item.targetDeploymentDigest) (.value "compatibility target")

def validateOwner (value : Gate F) : Except Fault Unit :=
  match value.state, value.owner with
  | .closed, none => .error (.job "MAINTENANCE_UNKNOWN" "Maintenance identity is invalid")
  | .closed, some owner => do
    identifier owner
    require (owner ∉ value.retiredOwners) (.value "retired current owner")
  | .open, owner => require (owner = none) (.value "open owner")

def validateTransition (value : Gate F) : Except Fault Unit :=
  match value.lastTransition with
  | none => require (value.sequence = 1 && value.state = .open) (.value "missing transition")
  | some (.close owner) =>
    require (value.state = .closed && value.owner = some owner) (.value "close transition")
  | some (.handoff owner successor) =>
    require (value.state = .closed && value.owner = some successor && owner ∈ value.retiredOwners)
      (.value "handoff transition")
  | some (.release owner decisionId deploymentDigest) =>
    require (value.state = .open && owner ∈ value.retiredOwners && decisionId = value.decisionId
      && deploymentDigest = value.deploymentDigest) (.value "release transition")

/-- `_validate` -/
def validate (site : Site F) (value : Gate F) : Except Fault Unit := do
  require (value.nodeId = site.nodeId && 1 ≤ value.sequence) (.value "marker")
  value.retiredOwners.forM identifier
  require value.retiredOwners.Nodup (.value "retired owners")
  checkDigest value.deploymentDigest
  validateOwner value
  identifier value.decisionId
  value.responsibilities.entries.forM fun e => validateDuty site value.sequence e.1 e.2
  value.compatibility.entries.forM fun e => validateCompatibility site e.1 e.2
  validateTransition value

/-! ## One call under the lock -/

/-- Which I/O step of a call fails, if any: taking the lock, reading the
record, re-syncing a record that stays, writing the new one, or syncing the
directory after the new one has replaced the old. -/
inductive Io where
  | ok | lock | read | confirm | write | replaced
  deriving Repr, DecidableEq

/-- What a call decides from the record: keep it, or write another. -/
inductive Decision (F ρ : Type) where
  | confirm (reply : ρ)
  | write (value : Gate F) (reply : ρ)

/-- The durable record before and after a call, and what the call returns. -/
abbrev Op (F ρ : Type) := Option (Gate F) → Except Fault ρ × Option (Gate F)

def notEstablished : Fault := .job "MAINTENANCE_UNKNOWN" "Maintenance state cannot be established"

def invalidRecord : Fault := .job "MAINTENANCE_UNKNOWN" "Maintenance record is incomplete or invalid"

/-- Argument checks made before the lock is taken. -/
def checked {ρ : Type} (checks : Except Fault Unit) (op : Op F ρ) : Op F ρ := fun record =>
  match checks with
  | .error fault => (.error fault, record)
  | .ok () => op record

/-- `_write`: validate the whole record, then replace the file. -/
def write {ρ : Type} (site : Site F) (io : Io) (value : Gate F) (reply : ρ) : Op F ρ := fun record =>
  match validate site value with
  | .error fault => (.error fault, record)
  | .ok () =>
    if io = .write then (.error notEstablished, record)
    else if io = .replaced then (.error notEstablished, some value)
    else (.ok reply, some value)

/-- `_locked`, `_read` and then the call's own decision. -/
def locked {ρ : Type} (site : Site F) (io : Io) (decide : Gate F → Except Fault (Decision F ρ)) :
    Op F ρ := fun record =>
  match record with
  | none => (.error notEstablished, none)
  | some value =>
    if io = .lock then (.error notEstablished, record)
    else if io = .read then (.error invalidRecord, record)
    else match validate site value with
    | .error _ => (.error invalidRecord, record)
    | .ok () =>
      match decide value with
      | .error fault => (.error fault, record)
      | .ok (.confirm reply) =>
        if io = .confirm then (.error notEstablished, record) else (.ok reply, record)
      | .ok (.write value' reply) => write site io value' reply record

/-! ## The marker -/

/-- A field of the marker, as a caller's expectation names it. -/
def Gate.marker (value : Gate F) : List (String × Value F) :=
  [("sequence", .int value.sequence),
    ("state", .str (match value.state with | .open => "OPEN" | .closed => "CLOSED")),
    ("owner", match value.owner with | none => .null | some owner => .str owner),
    ("decision_id", .str value.decisionId), ("deployment_digest", .str value.deploymentDigest),
    ("node_id", .str value.nodeId)]

/-- `_expected` -/
def checkExpected (site : Site F) (value : Gate F) (expected : Option (Value F)) : Except Fault Unit :=
  match expected with
  | none => .ok ()
  | some expected =>
    require (match expected with
      | .int n => value.sequence = n
      | .obj fields => value.marker.all fun (key, actual) =>
        actual.same site.intOf ((lookup fields key).getD .null)
      | _ => false)
      (.job "CONFLICT" "Maintenance marker changed; observe the original operation")

/-- The record `initialize` writes where there is none. -/
def freshGate (site : Site F) (deploymentDigest decisionId : String) : Gate F where
  nodeId := site.nodeId
  state := .open
  sequence := 1
  owner := none
  decisionId := decisionId
  deploymentDigest := deploymentDigest
  responsibilities := ∅
  compatibility := ∅
  lastTransition := none
  retiredOwners := []

def initializeGate (site : Site F) (io : Io) (deploymentDigest decisionId : String) (bootstrap : Bool) :
    Op F (Gate F) :=
  checked (do
    require bootstrap (.job "UNAUTHORIZED" "Initialization requires explicit trusted bootstrap")
    checkDigest deploymentDigest
    identifier decisionId) fun record =>
  match record with
  | none =>
    if io = .lock then (.error notEstablished, none)
    else if io = .read then (.error invalidRecord, none)
    else write site io (freshGate site deploymentDigest decisionId)
      (freshGate site deploymentDigest decisionId) none
  | some _ => locked site io (fun value => do
      require (value.sequence = 1 && value.state = .open && value.deploymentDigest = deploymentDigest
        && value.decisionId = decisionId)
        (.job "CONFLICT" "An existing maintenance record cannot be initialized again")
      return .confirm value) record

/-- `snapshot` reads and re-syncs nothing. -/
def snapshot (site : Site F) (io : Io) : Op F (Gate F) :=
  locked site (if io = .confirm then .ok else io) fun value => .ok (.confirm value)

/-- `active` -/
def active (site : Site F) (io : Io) : Op F (List (Responsibility F)) :=
  locked site (if io = .confirm then .ok else io) fun value =>
    .ok (.confirm ((value.responsibilities.entries.map (·.2)).filter (·.state ≠ .closed)))

def close (site : Site F) (io : Io) (owner : String) (expected : Option (Value F)) : Op F (Gate F) :=
  checked (identifier owner) <| locked site io fun value => do
    if value.state = .closed && value.owner = some owner then
      return .confirm value
    checkExpected site value expected
    require (value.state = .open && owner ∉ value.retiredOwners)
      (.job "CONFLICT" "Another operation owns maintenance")
    let value := { value with
      state := .closed, owner := some owner, sequence := value.sequence + 1,
      lastTransition := some (.close owner) }
    return .write value value

def release (site : Site F) (io : Io) (owner decisionId deploymentDigest : String)
    (expected : Option (Value F)) : Op F (Gate F) :=
  checked (do
    identifier owner
    identifier decisionId
    checkDigest deploymentDigest) <| locked site io fun value => do
    if value.state = .open
        && value.lastTransition = some (.release owner decisionId deploymentDigest) then
      return .confirm value
    checkExpected site value expected
    require (value.state = .closed && value.owner = some owner)
      (.job "CONFLICT" "Only the current maintenance owner may release")
    let value := { value with
      state := .open, owner := none, decisionId, deploymentDigest, sequence := value.sequence + 1,
      lastTransition := some (.release owner decisionId deploymentDigest),
      retiredOwners := value.retiredOwners ++ [owner] }
    return .write value value

def handoff (site : Site F) (io : Io) (owner successor : String) (expected : Option (Value F)) :
    Op F (Gate F) :=
  checked (do
    identifier owner
    identifier successor
    require (owner ≠ successor)
      (.job "CONFLICT" "Maintenance successor must be a distinct operation")) <|
  locked site io fun value => do
    if value.state = .closed && value.owner = some successor
        && value.lastTransition = some (.handoff owner successor) then
      return .confirm value
    checkExpected site value expected
    require (value.state = .closed && value.owner = some owner && successor ∉ value.retiredOwners)
      (.job "CONFLICT" "Only the current maintenance owner may hand off")
    let value := { value with
      owner := some successor, sequence := value.sequence + 1,
      lastTransition := some (.handoff owner successor),
      retiredOwners := value.retiredOwners ++ [owner] }
    return .write value value

/-! ## Compatibility decisions -/

def authorizeCompatibility (site : Site F) (io : Io) (owner : String) (prepared : Option Prepared)
    (targetDeploymentDigest : String) (targetLoaded : Loaded) : Op F Unit := fun record =>
  match (do
    checkDigest targetDeploymentDigest
    let prepared ← validatePrepared prepared
    validateLoaded site targetLoaded
    require (targetLoaded.deploymentDigest = targetDeploymentDigest)
      (.job "STALE_DEPLOYMENT" "Compatibility target does not match its loaded binding")
    return prepared) with
  | .error fault => (.error fault, record)
  | .ok prepared => locked site io (fun value => do
      require (value.state = .closed && value.owner = some owner)
        (.job "CONFLICT" "Compatibility decision needs the current maintenance owner")
      let key := site.digest prepared.toValue
      let decision : Compatibility :=
        { prepared, targetDeploymentDigest, owner, targetLoaded := some targetLoaded }
      if value.compatibility.lookup key = some decision then
        return .confirm ()
      return .write { value with compatibility := value.compatibility.insert key decision } ()) record

/-- `_prepared`: the execution runs what was prepared, under the same
deployment or one its owner decided to be compatible. -/
def checkPrepared (site : Site F) (value : Gate F) (prepared : Option Prepared) (loaded : Loaded) :
    Except Fault Prepared := do
  let prepared ← validatePrepared prepared
  let same := prepared.deploymentDigest = loaded.deploymentDigest
    && prepared.configurationDigest = loaded.configurationDigest
    && prepared.payloadDigest = loaded.payloadDigest && prepared.bootId = loaded.bootId
  let compatible := match value.compatibility.lookup (site.digest prepared.toValue) with
    | none => false
    | some decision => decision.prepared = prepared && decision.targetLoaded = some loaded
  require (same || compatible)
    (.job "STALE_DEPLOYMENT" "Prepared task requires exact deployment compatibility")
  return prepared

/-! ## Responsibilities -/

/-- What names a responsibility. -/
abbrev Attempt := Kind × String × String

def Responsibility.attempt (item : Responsibility F) : Attempt :=
  (item.kind, item.operationId, item.attemptId)

/-- The items accepted for the attempt. -/
def matching (value : Gate F) (attempt : Attempt) : List (Responsibility F) :=
  (value.responsibilities.entries.map (·.2)).filter (·.attempt = attempt)

/-- `accept`. `identity` is what `uuid.uuid4().hex` draws, `authorized` what
`authorization.require_current()` answers, and an unknown kind is `none`. -/
def accept (site : Site F) (io : Io) (identity : String) (authorized : Except Fault Unit)
    (kind : Option Kind) (operationId attemptId : String) (binding : Value F) (loaded : Loaded)
    (prepared : Option Prepared) : Op F (Responsibility F) := fun record =>
  match kind, binding with
  | some kind, .obj fields =>
    checked (do
      identifier operationId
      identifier attemptId
      validateLoaded site loaded) (locked site io fun value => do
      authorized
      match matching value (kind, operationId, attemptId) with
      | old :: _ =>
        require (old.binding.same site.intOf (.obj fields) && old.loaded = loaded && old.state ≠ .closed)
          (.job "CONFLICT" "Admission attempt cannot be rebound or reopened")
        return .confirm old
      | [] =>
        require (value.state = .open)
          (.job "MAINTENANCE" "New preparation and execution are temporarily closed")
        require (value.deploymentDigest = loaded.deploymentDigest)
          (.job "STALE_DEPLOYMENT" "Loaded deployment is no longer selected")
        if kind = .execute then
          let prepared ← checkPrepared site value prepared loaded
          require (prepared.operationId = operationId
            && (lookup fields "prepared").any (·.same site.intOf prepared.toValue))
            (.job "STALE_DEPLOYMENT" "Execution does not bind the original preparation")
        let item : Responsibility F :=
          { id := identity, kind, operationId, attemptId, binding := .obj fields,
            bindingDigest := site.digest (.obj fields), loaded, state := .accepted,
            acceptedSequence := value.sequence, proof := none }
        return .write { value with responsibilities := value.responsibilities.insert identity item }
          item) record
  | _, _ => (.error (.job "MAINTENANCE_UNKNOWN" "Admission responsibility is invalid"), record)

/-- What a caller presents to name a responsibility. -/
structure Receipt (F : Type) where
  id : String
  kind : Kind
  operationId : String
  attemptId : String
  binding : Value F
  bindingDigest : String
  loaded : Loaded
  acceptedSequence : Int
  deriving DecidableEq

def Responsibility.receipt (item : Responsibility F) : Receipt F :=
  { item with }

/-- `_receipt` -/
def findReceipt (site : Site F) (value : Gate F) (receipt : Receipt F) :
    Except Fault (Responsibility F) :=
  match value.responsibilities.lookup receipt.id with
  | none => .error (.job "CONFLICT" "Admission responsibility does not match its original attempt")
  | some item => do
    require (item.id = receipt.id && item.kind = receipt.kind
      && item.operationId = receipt.operationId && item.attemptId = receipt.attemptId
      && item.binding.same site.intOf receipt.binding && item.bindingDigest = receipt.bindingDigest
      && item.loaded = receipt.loaded && item.acceptedSequence = receipt.acceptedSequence)
      (.job "CONFLICT" "Admission responsibility does not match its original attempt")
    return item

/-- The record with one responsibility rewritten in place. -/
def Gate.update (value : Gate F) (item : Responsibility F) : Gate F :=
  { value with responsibilities := value.responsibilities.insert item.id item }

def dispatch (site : Site F) (io : Io) (authorized : Except Fault Unit) (receipt : Receipt F) :
    Op F (Responsibility F) :=
  locked site io fun value => do
    let item ← findReceipt site value receipt
    authorized
    require (item.state = .accepted)
      (.job "IO_UNCERTAIN" "The original dispatch must be observed, not repeated")
    let item := { item with state := .dispatching }
    return .write (value.update item) item

def finish (site : Site F) (io : Io) (receipt : Receipt F) (proof : Value F) :
    Op F (Responsibility F) := fun record =>
  match validateClosure proof with
  | .error fault => (.error fault, record)
  | .ok closure => locked site io (fun value => do
      let item ← findReceipt site value receipt
      if item.state = .closed then
        require (item.proof = some closure)
          (.job "CONFLICT" "Original responsibility closure differs")
        return .confirm item
      let item := { item with state := .closed, proof := some closure }
      return .write (value.update item) item) record

/-! ## Calls -/

inductive Call (F : Type) where
  | initializeGate (deploymentDigest decisionId : String) (bootstrap : Bool)
  | close (owner : String) (expected : Option (Value F))
  | release (owner decisionId deploymentDigest : String) (expected : Option (Value F))
  | handoff (owner successor : String) (expected : Option (Value F))
  | authorizeCompatibility (owner : String) (prepared : Option Prepared)
      (targetDeploymentDigest : String) (targetLoaded : Loaded)
  | accept (identity : String) (authorized : Except Fault Unit) (kind : Option Kind)
      (operationId attemptId : String) (binding : Value F) (loaded : Loaded)
      (prepared : Option Prepared)
  | dispatch (authorized : Except Fault Unit) (receipt : Receipt F)
  | finish (receipt : Receipt F) (proof : Value F)

inductive Reply (F : Type) where
  | gate (value : Gate F)
  | duty (item : Responsibility F)
  | done

/-- One call of any caller, with the I/O fault it meets. -/
def perform (site : Site F) (call : Call F) (io : Io) (record : Option (Gate F)) :
    Except Fault (Reply F) × Option (Gate F) :=
  match call with
  | .initializeGate deploymentDigest decisionId bootstrap =>
    (initializeGate site io deploymentDigest decisionId bootstrap record).map (.map .gate) id
  | .close owner expected => (close site io owner expected record).map (.map .gate) id
  | .release owner decisionId deploymentDigest expected =>
    (release site io owner decisionId deploymentDigest expected record).map (.map .gate) id
  | .handoff owner successor expected =>
    (handoff site io owner successor expected record).map (.map .gate) id
  | .authorizeCompatibility owner prepared targetDeploymentDigest targetLoaded =>
    (authorizeCompatibility site io owner prepared targetDeploymentDigest targetLoaded record).map
      (.map fun _ => .done) id
  | .accept identity authorized kind operationId attemptId binding loaded prepared =>
    (accept site io identity authorized kind operationId attemptId binding loaded prepared record).map
      (.map .duty) id
  | .dispatch authorized receipt => (dispatch site io authorized receipt record).map (.map .duty) id
  | .finish receipt proof => (finish site io receipt proof record).map (.map .duty) id

/-- The durable record after a call. -/
def step (site : Site F) (record : Option (Gate F)) (label : Call F × Io) : Option (Gate F) :=
  (perform site label.1 label.2 record).2

end LocalHand.Maintenance
