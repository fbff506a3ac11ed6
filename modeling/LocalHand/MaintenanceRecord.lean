/-
The barrier's record as it is on disk (`maintenance.py`): what `_validate` asks
of the Python data a file decodes to, what every call does to that data, and
the bytes `_write` puts in its place. `Maintenance.lean` has the same calls on
a typed record, without the file.
-/
import LocalHand.StrictJson

namespace LocalHand.MaintenanceRecord

open PyJson ResultReader
open Framing (Bytes)

variable {F : Type} [DecidableEq F]

def maxStateBytes : Nat := 8 * 1024 * 1024

/-- What the gate takes from outside: its node, `sha256`, and floats. -/
structure Node (F : Type) where
  nodeId : Text
  floats : FloatText F
  intOf : F → Option Int
  sha256 : Sha256

abbrev Fields (F : Type) := List (Key F × Data F)

def isIdentifier : Data F → Bool
  | .str s => s ≠ [] && s.length ≤ 4096 && !s.contains (pointOf '\x00')
  | _ => false

/-- `_identifier` -/
def identifier (value : Data F) : Except Fault Unit :=
  require (isIdentifier value) (.job "MAINTENANCE_UNKNOWN" "Maintenance identity is invalid")

def isHex (n : Nat) (s : Text) : Bool := !s.any isSurrogate && hexText n (String.ofList (s.map charOf))

def isDigest : Data F → Bool
  | .str s => isHex 64 s
  | _ => false

/-- `_digest` -/
def checkDigest (value : Data F) : Except Fault Unit :=
  require (isDigest value) (.job "MAINTENANCE_UNKNOWN" "Maintenance deployment binding is invalid")

/-- `set(value) == names` -/
def hasKeys (names : List String) (fields : Fields F) : Bool :=
  names.all (fun name => (field (points name) fields).isSome)
    && fields.all fun f => names.any fun name => f.1.is (points name)

def isText (text : String) : Data F → Bool
  | .str s => s = points text
  | _ => false

/-- `value[name]` of a dict. -/
def item (fields : Fields F) (name : String) : Except Fault (Data F) :=
  match field (points name) fields with
  | none => .error (.key name)
  | some v => .ok v

/-- `value.update(...)` -/
def update (fields : Fields F) (changes : List (String × Data F)) : Fields F :=
  changes.foldl (fun fields change => setField (points change.1) change.2 fields) fields

/-- `dict(...)` -/
def dict (items : List (String × Data F)) : Data F := .dict (update [] items)

def text (s : String) : Data F := .str (points s)

section

variable (node : Node F)

/-- `digest(value)` -/
def digest (value : Data F) : Except Fault (Data F) := do
  let raw ← canonicalBytes node.floats value
  return text (node.sha256.hexdigest raw)

abbrev Node.same (v w : Data F) : Bool := v.same node.intOf w

/-! ## Validation -/

/-- `_validate_loaded` -/
def validateLoaded (loaded : Data F) : Except Fault Unit :=
  match loaded with
  | .dict fields => do
    require (hasKeys ["node_id", "deployment_digest", "configuration_digest", "payload_digest", "boot_id",
        "component"] fields && (field (points "node_id") fields).any fun v => node.same v (.str node.nodeId))
      (.job "STALE_DEPLOYMENT" "Loaded deployment proof is invalid")
    ["deployment_digest", "configuration_digest", "payload_digest"].forM fun name =>
      item fields name >>= checkDigest
    item fields "boot_id" >>= identifier
    item fields "component" >>= identifier
  | _ => .error (.job "STALE_DEPLOYMENT" "Loaded deployment proof is invalid")

/-- `_validate_prepared` -/
def validatePrepared (prepared : Data F) : Except Fault Unit :=
  match prepared with
  | .dict fields => do
    require (hasKeys ["operation_id", "attempt_id", "request_digest", "resource_digest", "deployment_digest",
        "configuration_digest", "payload_digest", "boot_id"] fields)
      (.job "STALE_DEPLOYMENT" "Prepared task has no complete deployment binding")
    ["operation_id", "attempt_id", "boot_id"].forM fun name => item fields name >>= identifier
    ["request_digest", "resource_digest", "deployment_digest", "configuration_digest", "payload_digest"].forM
      fun name => item fields name >>= checkDigest
  | _ => .error (.job "STALE_DEPLOYMENT" "Prepared task has no complete deployment binding")

def isTrue : Option (Data F) → Bool
  | some (.bool true) => true
  | _ => false

/-- `_validate_closure` -/
def validateClosure (proof : Data F) : Except Fault Unit :=
  require (match proof with
    | .dict fields =>
      hasKeys ["never_dispatched"] fields && isTrue (field (points "never_dispatched") fields)
        || hasKeys ["process_exited", "writers_stopped"] fields
          && isTrue (field (points "process_exited") fields) && isTrue (field (points "writers_stopped") fields)
    | _ => false)
    (.job "IO_UNCERTAIN" "Responsibility needs positive closure proof")

/-- The proof of a responsibility, by its state. -/
def validateProof (state proof : Data F) : Except Fault Unit :=
  if isText "CLOSED" state then validateClosure proof
  else require (proof matches .null) (.value "unclosed proof")

/-- One entry of `responsibilities`. -/
def validateDuty (sequence : Int) (identity : Key F) (duty : Data F) : Except Fault Unit :=
  match identity, duty with
  | .str key, .dict fields => do
    require (hasKeys ["id", "kind", "operation_id", "attempt_id", "binding", "binding_digest", "loaded", "state",
        "accepted_sequence", "proof"] fields) (.value "responsibility")
    let kind ← item fields "kind"
    let state ← item fields "state"
    let accepted ← item fields "accepted_sequence"
    let binding ← item fields "binding"
    let loaded ← item fields "loaded"
    let id ← item fields "id"
    require (node.same id (.str key) && isHex 32 key && (isText "prepare" kind || isText "execute" kind)
        && (isText "ACCEPTED" state || isText "DISPATCHING" state || isText "CLOSED" state)
        && (match accepted with | .int n => 1 ≤ n && n ≤ sequence | _ => false)
        && (binding matches .dict _) && (loaded matches .dict _)) (.value "responsibility")
    item fields "proof" >>= validateProof state
    item fields "operation_id" >>= identifier
    item fields "attempt_id" >>= identifier
    validateLoaded node loaded
    let stored ← item fields "binding_digest"
    checkDigest stored
    let actual ← digest node binding
    require (node.same actual stored) (.value "binding")
  | _, _ => .error (.value "responsibility")

/-- The target of a compatibility decision, where it names one. -/
def validateTarget (fields : Fields F) : Except Fault Unit :=
  match field (points "target_loaded") fields with
  | none => .ok ()
  | some target => do
    validateLoaded node target
    let loaded ← subscript target "deployment_digest"
    let stored ← item fields "target_deployment_digest"
    require (node.same loaded stored) (.value "compatibility target")

/-- One entry of `compatibility`. -/
def validateCompatibility (key : Key F) (decision : Data F) : Except Fault Unit :=
  match key, decision with
  | .str key, .dict fields => do
    require (["prepared", "target_deployment_digest", "owner"].all (fun name => (field (points name) fields).isSome)
        && fields.all fun f => ["prepared", "target_deployment_digest", "owner", "target_loaded"].any fun name =>
          f.1.is (points name)) (.value "compatibility")
    let prepared ← item fields "prepared"
    let expected ← digest node prepared
    require (node.same expected (.str key) && (prepared matches .dict _)) (.value "compatibility")
    item fields "target_deployment_digest" >>= checkDigest
    item fields "owner" >>= identifier
    validatePrepared prepared
    validateTarget node fields
  | _, _ => .error (.value "compatibility")

/-- The members of the record that the calls use. -/
structure Marker (F : Type) where
  state : Data F
  sequence : Int
  owner : Data F
  decisionId : Data F
  deploymentDigest : Data F
  responsibilities : Fields F
  compatibility : Fields F
  lastTransition : Data F
  retiredOwners : List (Data F)

/-- The first check of `_validate`: the members and their types. -/
def marker (fields : Fields F) : Except Fault (Marker F) := do
  require (hasKeys ["schema", "node_id", "state", "sequence", "owner", "decision_id", "deployment_digest",
      "responsibilities", "compatibility", "last_transition", "retired_owners"] fields) (.value "marker")
  let schema ← item fields "schema"
  let nodeId ← item fields "node_id"
  let state ← item fields "state"
  let sequence ← item fields "sequence"
  let owner ← item fields "owner"
  let decisionId ← item fields "decision_id"
  let deploymentDigest ← item fields "deployment_digest"
  let responsibilities ← item fields "responsibilities"
  let compatibility ← item fields "compatibility"
  let lastTransition ← item fields "last_transition"
  let retiredOwners ← item fields "retired_owners"
  match sequence, responsibilities, compatibility, retiredOwners with
  | .int sequence, .dict responsibilities, .dict compatibility, .list retiredOwners => do
    require (node.same schema (text "local-hand-maintenance/v1") && node.same nodeId (.str node.nodeId)
      && (isText "OPEN" state || isText "CLOSED" state) && 1 ≤ sequence) (.value "marker")
    return ⟨state, sequence, owner, decisionId, deploymentDigest, responsibilities, compatibility, lastTransition,
      retiredOwners⟩
  | _, _, _, _ => .error (.value "marker")

/-- `owner in value["retired_owners"]` -/
def Marker.retired (m : Marker F) (owner : Data F) : Bool := m.retiredOwners.any fun v => node.same v owner

def asText : Data F → Option Text
  | .str s => some s
  | _ => none

def validateOwner (m : Marker F) : Except Fault Unit :=
  if isText "CLOSED" m.state then do
    identifier m.owner
    require (!m.retired node m.owner) (.value "retired current owner")
  else require (m.owner matches .null) (.value "open owner")

/-- A transition's member equals that of the record. -/
def agrees (transition : Fields F) (name : String) (v : Data F) : Bool :=
  (field (points name) transition).any fun w => node.same w v

def transitionRetired (m : Marker F) (transition : Fields F) : Bool :=
  (field (points "owner") transition).any fun owner => m.retired node owner

def validateTransition (m : Marker F) : Except Fault Unit :=
  match m.lastTransition with
  | .null => require (m.sequence = 1 && isText "OPEN" m.state) (.value "missing transition")
  | .dict fields =>
    if (field (points "kind") fields).any (isText "close") then
      require (hasKeys ["kind", "owner"] fields && isText "CLOSED" m.state && agrees node fields "owner" m.owner)
        (.value "close transition")
    else if (field (points "kind") fields).any (isText "handoff") then
      require (hasKeys ["kind", "owner", "successor"] fields && isText "CLOSED" m.state
        && agrees node fields "successor" m.owner && transitionRetired node m fields) (.value "handoff transition")
    else if (field (points "kind") fields).any (isText "release") then
      require (hasKeys ["kind", "owner", "decision_id", "deployment_digest"] fields && isText "OPEN" m.state
        && transitionRetired node m fields && agrees node fields "decision_id" m.decisionId
        && agrees node fields "deployment_digest" m.deploymentDigest) (.value "release transition")
    else .error (.value "unknown transition")
  | _ => .error (.value "transition")

/-- `_validate` -/
def validate (value : Data F) : Except Fault (Marker F) :=
  match value with
  | .dict fields => do
    let m ← marker node fields
    m.retiredOwners.forM identifier
    require (m.retiredOwners.filterMap asText).Nodup (.value "retired owners")
    checkDigest m.deploymentDigest
    validateOwner node m
    identifier m.decisionId
    m.responsibilities.forM fun e => validateDuty node m.sequence e.1 e.2
    m.compatibility.forM fun e => validateCompatibility node e.1 e.2
    validateTransition node m
    return m
  | _ => .error (.value "marker")

/-! ## The file -/

/-- `_read`: every failure comes out under one code. -/
def read (disk : Bytes) : Except Fault (Data F × Marker F) :=
  match (do
    require (disk.length ≤ maxStateBytes) (.job "MAINTENANCE_UNKNOWN" "Maintenance record exceeds its bound")
    let value ← strictLoads node.floats (.bytes disk) maxStateBytes
    let m ← validate node value
    return (value, m) : Except Fault (Data F × Marker F)) with
  | .ok found => .ok found
  | .error _ => .error (.job "MAINTENANCE_UNKNOWN" "Maintenance record is incomplete or invalid")

/-- `_write`: the bytes that replace the file. -/
def write (value : Data F) : Except Fault Bytes := do
  let _ ← validate node value
  let raw ← canonicalBytes node.floats value
  require (raw.length + 1 ≤ maxStateBytes)
    (.job "LIMIT_EXCEEDED" "Maintenance history needs explicit retention management")
  return raw ++ [10]

/-! ## The calls -/

/-- What a call decides from the record: keep it, or write another. -/
inductive Decision (F : Type) where
  | confirm (reply : Data F)
  | write (fields : Fields F) (reply : Data F)

/-- `_expected` -/
def checkExpected (fields : Fields F) (m : Marker F) (expected : Data F) : Except Fault Unit :=
  require (match expected with
    | .null => true
    | .int n => m.sequence = n
    | .dict wanted =>
      ["sequence", "state", "owner", "decision_id", "deployment_digest", "node_id"].all fun name =>
        node.same ((field (points name) fields).getD .null) ((field (points name) wanted).getD .null)
    | _ => false)
    (.job "CONFLICT" "Maintenance marker changed; observe the original operation")

def conflict (message : String) : Fault := .job "CONFLICT" message

def close (owner expected : Data F) (fields : Fields F) (m : Marker F) : Except Fault (Decision F) := do
  if isText "CLOSED" m.state && node.same m.owner owner then return .confirm (.dict fields)
  checkExpected node fields m expected
  require (isText "OPEN" m.state && !m.retired node owner) (conflict "Another operation owns maintenance")
  let fields' := update fields [("state", text "CLOSED"), ("owner", owner), ("sequence", .int (m.sequence + 1)),
    ("last_transition", dict [("kind", text "close"), ("owner", owner)])]
  return .write fields' (.dict fields')

def releaseTransition (owner decisionId deploymentDigest : Data F) : Data F :=
  dict [("kind", text "release"), ("owner", owner), ("decision_id", decisionId),
    ("deployment_digest", deploymentDigest)]

def release (owner decisionId deploymentDigest expected : Data F) (fields : Fields F) (m : Marker F) :
    Except Fault (Decision F) := do
  if isText "OPEN" m.state && node.same m.lastTransition (releaseTransition owner decisionId deploymentDigest) then
    return .confirm (.dict fields)
  checkExpected node fields m expected
  require (isText "CLOSED" m.state && node.same m.owner owner)
    (conflict "Only the current maintenance owner may release")
  let fields' := update fields [("state", text "OPEN"), ("owner", .null), ("decision_id", decisionId),
    ("deployment_digest", deploymentDigest), ("sequence", .int (m.sequence + 1)),
    ("last_transition", releaseTransition owner decisionId deploymentDigest),
    ("retired_owners", .list (m.retiredOwners ++ [owner]))]
  return .write fields' (.dict fields')

def handoff (owner successor expected : Data F) (fields : Fields F) (m : Marker F) : Except Fault (Decision F) := do
  let transition := dict [("kind", text "handoff"), ("owner", owner), ("successor", successor)]
  if isText "CLOSED" m.state && node.same m.owner successor && node.same m.lastTransition transition then
    return .confirm (.dict fields)
  checkExpected node fields m expected
  require (isText "CLOSED" m.state && node.same m.owner owner && !m.retired node successor)
    (conflict "Only the current maintenance owner may hand off")
  let fields' := update fields [("owner", successor), ("sequence", .int (m.sequence + 1)),
    ("last_transition", transition), ("retired_owners", .list (m.retiredOwners ++ [owner]))]
  return .write fields' (.dict fields')

def authorizeCompatibility (owner prepared target targetLoaded : Data F) (fields : Fields F) (m : Marker F) :
    Except Fault (Decision F) := do
  require (isText "CLOSED" m.state && node.same m.owner owner)
    (conflict "Compatibility decision needs the current maintenance owner")
  let decision := dict [("owner", owner), ("prepared", prepared), ("target_deployment_digest", target),
    ("target_loaded", targetLoaded)]
  let raw ← canonicalBytes node.floats prepared
  let key := points (node.sha256.hexdigest raw)
  if (field key m.compatibility).any fun old => node.same old decision then return .confirm .null
  return .write (update fields [("compatibility", .dict (setField key decision m.compatibility))]) .null

/-- `_prepared` -/
def checkPrepared (m : Marker F) (prepared loaded : Data F) : Except Fault Unit := do
  validatePrepared prepared
  let raw ← canonicalBytes node.floats prepared
  let exact := ["deployment_digest", "configuration_digest", "payload_digest", "boot_id"].all fun name =>
    match subscript prepared name, subscript loaded name with
    | .ok v, .ok w => node.same v w
    | _, _ => false
  let decided := match field (points (node.sha256.hexdigest raw)) m.compatibility with
    | some (.dict decision) => (field (points "prepared") decision).any (fun v => node.same v prepared)
      && (field (points "target_loaded") decision).any fun v => node.same v loaded
    | _ => false
  require (exact || decided) (.job "STALE_DEPLOYMENT" "Prepared task requires exact deployment compatibility")

/-- An execution is bound to the preparation it names. -/
def checkExecution (m : Marker F) (kind operationId binding loaded prepared : Data F) : Except Fault Unit :=
  if isText "execute" kind then do
    checkPrepared node m prepared loaded
    require (match subscript prepared "operation_id", binding with
      | .ok id, .dict fields => node.same id operationId
        && node.same ((field (points "prepared") fields).getD .null) prepared
      | _, _ => false)
      (.job "STALE_DEPLOYMENT" "Execution does not bind the original preparation")
  else .ok ()

/-- The responsibility of the same attempt, if one was accepted. -/
def matching (m : Marker F) (kind operationId attemptId : Data F) : Option (Fields F) :=
  m.responsibilities.findSome? fun e =>
    match e.2 with
    | .dict duty =>
      if agrees node duty "kind" kind && agrees node duty "operation_id" operationId
        && agrees node duty "attempt_id" attemptId then some duty else none
    | _ => none

/-- A new responsibility; `identity` is `uuid.uuid4().hex`. -/
def newDuty (identity : String) (kind operationId attemptId binding bindingDigest loaded : Data F) (sequence : Int) :
    Data F :=
  dict [("id", text identity), ("kind", kind), ("operation_id", operationId), ("attempt_id", attemptId),
    ("binding", binding), ("binding_digest", bindingDigest), ("loaded", loaded), ("state", text "ACCEPTED"),
    ("accepted_sequence", .int sequence), ("proof", .null)]

def accept (kind operationId attemptId binding loaded prepared : Data F) (authorization : Except Fault Unit)
    (identity : String) (fields : Fields F) (m : Marker F) : Except Fault (Decision F) := do
  authorization
  match matching node m kind operationId attemptId with
  | some old => do
    require (agrees node old "binding" binding && agrees node old "loaded" loaded
      && !(field (points "state") old).any (isText "CLOSED"))
      (conflict "Admission attempt cannot be rebound or reopened")
    return .confirm (.dict old)
  | none => do
    require (isText "OPEN" m.state)
      (.job "MAINTENANCE" "New preparation and execution are temporarily closed")
    let deployment ← subscript loaded "deployment_digest"
    require (node.same m.deploymentDigest deployment)
      (.job "STALE_DEPLOYMENT" "Loaded deployment is no longer selected")
    checkExecution node m kind operationId binding loaded prepared
    let bindingDigest ← digest node binding
    let duty := newDuty identity kind operationId attemptId binding bindingDigest loaded m.sequence
    return .write (update fields [("responsibilities", .dict (setField (points identity) duty m.responsibilities))])
      duty

/-- `_receipt`: the key of the responsibility and its members. -/
def findReceipt (m : Marker F) (receipt : Data F) : Except Fault (Text × Fields F) :=
  match receipt with
  | .dict claimed =>
    match field (points "id") claimed with
    | some (.str key) =>
      match field key m.responsibilities with
      | some (.dict duty) => do
        require (["id", "kind", "operation_id", "attempt_id", "binding", "binding_digest", "loaded",
            "accepted_sequence"].all fun name =>
          node.same ((field (points name) duty).getD .null) ((field (points name) claimed).getD .null))
          (conflict "Admission responsibility does not match its original attempt")
        return (key, duty)
      | _ => .error (conflict "Admission responsibility does not match its original attempt")
    | _ => .error (conflict "Admission responsibility does not match its original attempt")
  | _ => .error (conflict "Admission responsibility does not match its original attempt")

/-- `value["responsibilities"][key]` after the changes. -/
def putDuty (fields : Fields F) (m : Marker F) (key : Text) (duty : Data F) : Fields F :=
  update fields [("responsibilities", .dict (setField key duty m.responsibilities))]

def dispatch (receipt : Data F) (authorization : Except Fault Unit) (fields : Fields F) (m : Marker F) :
    Except Fault (Decision F) := do
  let (key, duty) ← findReceipt node m receipt
  authorization
  require ((field (points "state") duty).any (isText "ACCEPTED"))
    (.job "IO_UNCERTAIN" "The original dispatch must be observed, not repeated")
  let duty' : Data F := .dict (update duty [("state", text "DISPATCHING")])
  return .write (putDuty fields m key duty') duty'

def finish (receipt proof : Data F) (fields : Fields F) (m : Marker F) : Except Fault (Decision F) := do
  let (key, duty) ← findReceipt node m receipt
  if (field (points "state") duty).any (isText "CLOSED") then do
    require (agrees node duty "proof" proof) (conflict "Original responsibility closure differs")
    return .confirm (.dict duty)
  else do
    let duty' : Data F := .dict (update duty [("state", text "CLOSED"), ("proof", proof)])
    return .write (putDuty fields m key duty') duty'

/-- A call of the gate with the Python values it is given; `authorization` is
what `require_current` answers, and `ok` where there is none. -/
inductive Call (F : Type) where
  | close (owner expected : Py F)
  | release (owner decisionId deploymentDigest expected : Py F)
  | handoff (owner successor expected : Py F)
  | authorizeCompatibility (owner prepared target targetLoaded : Py F)
  | accept (kind operationId attemptId binding loaded prepared : Py F) (authorization : Except Fault Unit)
      (identity : String)
  | dispatch (receipt : Py F) (authorization : Except Fault Unit)
  | finish (receipt proof : Py F)

/-- The checks a call makes of its arguments before it takes the lock. -/
def Call.checks : Call F → Except Fault Unit
  | .close owner _ => identifier owner.data
  | .release owner decisionId deploymentDigest _ => do
    identifier owner.data
    identifier decisionId.data
    checkDigest deploymentDigest.data
  | .handoff owner successor _ => do
    identifier owner.data
    identifier successor.data
    require (!node.same owner.data successor.data) (conflict "Maintenance successor must be a distinct operation")
  | .authorizeCompatibility _ prepared target targetLoaded => do
    checkDigest target.data
    validatePrepared prepared.data
    validateLoaded node targetLoaded.data
    let deployment ← subscript targetLoaded.data "deployment_digest"
    require (node.same deployment target.data)
      (.job "STALE_DEPLOYMENT" "Compatibility target does not match its loaded binding")
  | .accept kind operationId attemptId binding loaded _ _ _ => do
    require ((isText "prepare" kind.data || isText "execute" kind.data) && (binding.data matches .dict _))
      (.job "MAINTENANCE_UNKNOWN" "Admission responsibility is invalid")
    identifier operationId.data
    identifier attemptId.data
    validateLoaded node loaded.data
  | .dispatch _ _ => .ok ()
  | .finish _ proof => validateClosure proof.data

/-- What a call decides from the record. -/
def Call.decide : Call F → Fields F → Marker F → Except Fault (Decision F)
  | .close owner expected => MaintenanceRecord.close node owner.data expected.data
  | .release owner decisionId deploymentDigest expected =>
    MaintenanceRecord.release node owner.data decisionId.data deploymentDigest.data expected.data
  | .handoff owner successor expected => MaintenanceRecord.handoff node owner.data successor.data expected.data
  | .authorizeCompatibility owner prepared target targetLoaded =>
    MaintenanceRecord.authorizeCompatibility node owner.data prepared.data target.data targetLoaded.data
  | .accept kind operationId attemptId binding loaded prepared authorization identity =>
    MaintenanceRecord.accept node kind.data operationId.data attemptId.data binding.data loaded.data prepared.data
      authorization identity
  | .dispatch receipt authorization => MaintenanceRecord.dispatch node receipt.data authorization
  | .finish receipt proof => MaintenanceRecord.finish node receipt.data proof.data

/-- What a call that succeeds returns, and the value and the bytes it has written. -/
structure Outcome (F : Type) where
  reply : Data F
  written : Option (Data F × Bytes)

/-- A call on a record that was read. -/
def Call.act (call : Call F) (value : Data F) (m : Marker F) : Except Fault (Outcome F) :=
  match value with
  | .dict fields => do
    let decision ← call.decide node fields m
    match decision with
    | .confirm reply => return ⟨reply, none⟩
    | .write fields' reply => do
      let raw ← MaintenanceRecord.write node (.dict fields')
      return ⟨reply, some (.dict fields', raw)⟩
  | _ => .error (.value "marker")

/-- A call on the file. -/
def Call.run (call : Call F) (disk : Bytes) : Except Fault (Outcome F) := do
  call.checks node
  let (value, m) ← read node disk
  call.act node value m

end

end LocalHand.MaintenanceRecord
