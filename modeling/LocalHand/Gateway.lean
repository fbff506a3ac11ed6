/-
The system manager's gateway (`server.py`): the phases it authorizes and closes, the
delivery of their stages to the manager, and the peers that recover them.

The calls of a gateway hold its lock, so they come one after another. What the manager,
the journal, the clock, the files and the local clients answer, and where an exception
comes from, is in the environment, by the number of the question.
-/
import LocalHand.ManagerChannel
import LocalHand.Lib.Asking
import LocalHand.Lib.History

namespace LocalHand.Gateway

open QuotaContract Asking

/-! ## Data -/

/-- `PHASES` -/
def phaseOrder : List Phase := [.preflight, .business, .evidence]

/-- `STAGES` -/
def stageOrder : List Stage := [.bootstrap, .helper, .resultReader]

/-- The stage before one in `STAGES`. -/
def previousStage : Stage → Option Stage
  | .bootstrap => none
  | .helper => some .bootstrap
  | .resultReader => some .helper

abbrev Key := Phase × Stage

/-- A unit's properties, by name. -/
abbrev Values := String → String

structure Execution where
  executionId : String
  operationId : String
  allocationDigest : String
  grantDeadline : Int
  grantPhaseDeadline : Int
  phaseDeadline : Int
  deriving DecidableEq

/-- What a phase was authorized with. -/
structure Registered where
  execution : Execution
  requestDigest : Option String
  grantDigest : String

structure PipeIdentity where
  device : Int
  inode : Int
  deriving DecidableEq

structure Pipes where
  stdout : PipeIdentity
  stderr : PipeIdentity

/-- The delivery of a stage. -/
structure Part where
  unit : String
  token : String
  properties : Values
  invocationId : Option String
  isSealed : Bool
  stopOk : Bool
  process : Option Int
  startTicks : Option Int
  pidfd : Bool
  pipes : Option Pipes
  identityObservation : Option Values
  terminal : Option Values
  after : Option Values
  collectorsLost : Bool
  recoveryObserved : Bool

structure Plan where
  phase : Phase
  executionId : String
  operationId : String
  requestDigest : String
  units : Stage → String
  budgetDeadline : Int
  phaseDeadline : Int
  controllerDeadline : Int
  collectorStarted : Bool

/-- An ordinary peer's channel. The requests and the bytes that went over it are counted
outside. -/
structure Channel where
  pid : Int
  uid : Int
  gid : Int
  bootId : String
  deadline : Int
  sessionId : String

structure Ref where
  executionId : String
  phase : Phase
  stage : Stage

def Ref.key (ref : Ref) : Key := (ref.phase, ref.stage)

inductive View where
  | full | invocation | identity
  deriving DecidableEq

structure Bindings where
  allocationDigest : String
  grantDigest : String
  deriving DecidableEq

/-- An operation with its body. -/
inductive Request where
  | support
  | inventory
  | observe (ref : Ref) (view : View)
  | stop (ref : Ref) (invocationId : String)
  | launch (ref : Ref) (bindings : Bindings)
  | clientPoll (ref : Ref) (token : String)
  | clientStop (ref : Ref) (token : String)
  | sealStage (ref : Ref) (token : String)
  | recoveryArm (plan : Plan)
  | recoveryFinish

/-! ## Surroundings -/

inductive Command where
  | showUnit (unit : String)
  | listUnits
  | stop (unit : String)

/-- What the manager answers a command, with the properties or the units it lists. -/
structure Reply where
  returncode : Int
  values : Except Fault Values
  units : List String

/-- The peer of a quota intent. -/
structure Peer where
  unit : String
  invocationId : Option String
  parent : String
  cgroup : String

/-- A grant's state in the journal. -/
structure Row where
  status : String
  receiptStatus : Option String
  peer : Option Peer
  fence : Option String

/-- How `Popen` ends: with a client, or with an exception and one or none. -/
inductive Spawn where
  | client (pid : Int)
  | lost (fault : Fault)
  | refused (fault : Fault)

structure Built where
  properties : Values
  template : List String

/-- What a gateway is made with. -/
structure Site where
  uid : Int
  gid : Int
  bootId : String
  parent : String
  deadline : Int
  unitOf : String → Stage → String
  tokenOf : String → Key → String
  recoverySession : String → String
  managementUnit : Registered → String → String
  managementGroup : Registered → String → String

structure Env where
  site : Site
  fault : Nat → Option Fault
  clock : Nat → Except Fault Int
  bootClock : Nat → Except Fault (String × Int)
  parentEmpty : Nat → Except Fault Bool
  manager : Command → Nat → Reply
  journal : Nat → Except Fault Row
  build : Nat → Except Fault Built
  matchesUnit : Values → Values → Except Fault Unit
  spawn : Nat → Spawn
  poll : Nat → Option Int
  startTicks : Nat → Except Bool Int
  exited : Nat → Bool
  pipes : Nat → Except Fault Pipes
  drained : Nat → Except Fault Bool

/-- A visible step. A binding is the invocation an observation of the unit gave; a stop is
of the invocation observed before it, acknowledged. -/
inductive Mark where
  | authorized (phase : Phase)
  | closed (phase : Phase)
  | intended (key : Key)
  | spawned (key : Key)
  | bound (key : Key) (invocation : String)
  | stopAcked (key : Key) (invocation : String)
  | sealedStage (key : Key)
  | signalled (key : Key)
  | armed
  | rebound
  deriving DecidableEq

/-- A gateway, and its intent directory. A dict is its keys in their order and what each
has. -/
structure Core where
  channel : Channel
  peerPidfd : Bool
  phases : List (Phase × Registered)
  partKeys : List Key
  parts : Key → Option Part
  closedPhases : List Phase
  failure : Option String
  closed : Bool
  serving : Bool
  controls : Nat
  pendingControl : Bool
  recoveryOnly : Bool
  recoveryFinished : Bool
  recoveryRebinds : Nat
  recoveryArmed : Bool
  recoveryArmAck : Bool
  serviceRecovery : Bool
  recoveryPlan : Option Plan
  files : List String
  trace : List Mark

abbrev Act := Op Core Fault

/-! ## Steps -/

def Core.mark (c : Core) (k : Mark) : Core := { c with trace := c.trace ++ [k] }

/-- A part changed. -/
def Core.setPart (c : Core) (key : Key) (f : Part → Part) : Core :=
  { c with parts := Function.update c.parts key ((c.parts key).map f) }

/-- `_time`. The boot, the wire and the call limits and the channel are outside. -/
def time (env : Env) : Act Int := do
  let c ← core
  demand (!c.closed && c.failure.isNone) (quotaError "SYSTEM_GATEWAY_UNAVAILABLE")
  let now ← ask env.clock
  let ns ← lift now
  demand (ns < env.site.deadline) (quotaError "SYSTEM_GATEWAY_UNAVAILABLE")
  return ns

/-- `_recovery_time` -/
def recoveryTime (env : Env) : Act Int := do
  let ns ← time env
  let c ← core
  demand (c.serviceRecovery || c.recoveryPlan.any fun plan => ns < min (min plan.phaseDeadline plan.budgetDeadline) env.site.deadline)
    (quotaError "SYSTEM_RECOVERY_DEADLINE")
  return ns

/-- `_parent` -/
def parent (env : Env) (empty : Bool) : Act Unit := do
  let answer ← ask env.parentEmpty
  let isEmpty ← lift answer
  demand (!empty || isEmpty) (quotaError "SYSTEM_PARENT_OCCUPIED")

/-- `_command`: one that does not settle stays pending. -/
def command (env : Env) (what : Command) : Act Reply := do
  let _ ← time env
  change fun c => { c with controls := c.controls + 1 }
  let c ← core
  demand (!c.pendingControl) (quotaError "SYSTEM_CONTROL_PENDING")
  demand (c.controls ≤ 256) (quotaError "SYSTEM_CONTROL_LIMIT")
  change fun c => { c with pendingControl := true }
  pass env.fault
  let reply ← ask (env.manager what)
  change fun c => { c with pendingControl := false }
  return reply

/-- `_journal` -/
def journal (env : Env) : Act Row := do
  let row ← ask env.journal
  lift row

def partOf (key : Key) : Act Part := do
  let c ← core
  lift ((c.parts key).elim (.error (.key "part")) .ok)

def registered (phase : Phase) : Act Registered := do
  let c ← core
  lift ((c.phases.lookup phase).elim (.error (quotaError "SYSTEM_PHASE_UNREGISTERED")) .ok)

/-- The phase of `_get`, for its execution. -/
def item (ref : Ref) : Act Registered := do
  let found ← registered ref.phase
  demand (found.execution.executionId = ref.executionId) (quotaError "SYSTEM_EXECUTION_REFERENCE")
  return found

def noJob (values : Values) : Bool := values "Job" = "" || values "Job" = "0"

/-! ## Phases -/

/-- `authorize_phase`, by the phase of its grant. -/
def authorizePhase (env : Env) (phase : Phase) (found : Registered) : Act Unit := do
  let _ ← time env
  let c ← core
  demand (phaseOrder[c.phases.length]? = some phase && c.closedPhases = c.phases.map Prod.fst) (quotaError "SYSTEM_PHASE_ORDER")
  pass env.fault
  parent env true
  change fun c => { c with phases := c.phases ++ [(phase, found)] }.mark (.authorized phase)

def Core.sealed (c : Core) (key : Key) : Bool := (c.parts key).any Part.isSealed

/-- `close_phase` -/
def closePhase (env : Env) (fence : String) : Act Unit := do
  let _ ← time env
  let c ← core
  demand (c.closedPhases.length < c.phases.length) (quotaError "SYSTEM_PHASE_ORDER")
  let phase ← lift (phaseOrder[c.closedPhases.length]?.elim (.error (.key "phase")) .ok)
  demand (!c.pendingControl && stageOrder.all fun stage => c.sealed (phase, stage)) (quotaError "SYSTEM_PHASE_UNSEALED")
  let row ← journal env
  demand (row.status = "CLOSED" && row.fence = some fence) (quotaError "SYSTEM_PHASE_FENCE")
  parent env true
  change fun c => { c with closedPhases := c.closedPhases ++ [phase] }.mark (.closed phase)

/-! ## Observation -/

structure ClientState where
  token : String
  pid : Int
  startTicks : Int
  returncode : Option Int

/-- The client's `start_ticks` and exit, of one that `poll` still sees. -/
def liveCode (env : Env) (part : Part) (ticks : Int) : Act (Option Int) := do
  match ← ask env.startTicks with
  | .ok seen => do
    demand (seen = ticks) (quotaError "SYSTEM_CLIENT_CHANGED")
    return none
  | .error gone => do
    let code ← ask env.poll
    let readable ← ask env.exited
    demand (gone && code.isSome && part.pidfd && readable) .os
    return code

/-- `_state` -/
def state (env : Env) (key : Key) : Act ClientState := do
  let part ← partOf key
  let pid ← lift (part.process.elim (.error (.key "process")) .ok)
  let ticks ← lift (part.startTicks.elim (.error (.key "start_ticks")) .ok)
  match ← ask env.poll with
  | some code => return ⟨part.token, pid, ticks, some code⟩
  | none => return ⟨part.token, pid, ticks, ← liveCode env part ticks⟩

def cgroupOf (env : Env) (part : Part) : String := env.site.parent ++ "/" ++ part.unit

/-- What a retained unit must still be configured as. -/
def required : List (String × String) :=
  [("Restart", "no"), ("TriggeredBy", ""), ("ExecStop", ""), ("ExecStopPost", ""), ("ExecReload", ""),
    ("KillMode", "control-group"), ("Type", "exec"), ("ExitType", "cgroup"), ("RemainAfterExit", "yes"),
    ("ExecStartPre", ""), ("ExecStartPost", ""), ("OnFailure", ""), ("OnSuccess", ""), ("RestartForceExitStatus", "")]

/-- `_loaded_identity` -/
def loadedIdentity (env : Env) (part : Part) (values : Values) : Except Fault String := do
  require (values "Id" = part.unit && values "LoadState" = "loaded") (quotaError "ORIGINAL_UNIT_MISSING")
  require (hexText 32 (values "InvocationID")) (quotaError "TEXT")
  require (part.invocationId.all (· = values "InvocationID")) (quotaError "ORIGINAL_INVOCATION_CHANGED")
  require (values "ControlGroup" = cgroupOf env part || values "ControlGroup" = "") (quotaError "ORIGINAL_CGROUP_CHANGED")
  require (required.all fun (name, value) => values name = value) (quotaError "UNIT_CONFIG_CHANGED")
  return values "InvocationID"

/-- `_terminal` -/
def isTerminal (values : Values) : Bool :=
  values "SubState" = "exited" || values "ActiveState" = "inactive" || values "ActiveState" = "failed"

/-- A unit that is loaded and has no invocation yet. -/
def starting (env : Env) (part : Part) (values : Values) (code : Option Int) : Bool :=
  part.invocationId.isNone && values "Id" = part.unit && values "LoadState" = "loaded" && values "InvocationID" = ""
    && (values "ActiveState" = "inactive" || values "ActiveState" = "activating")
    && (values "ControlGroup" = "" || values "ControlGroup" = cgroupOf env part)
    && part.process.isSome && code.isNone

/-- The attempts of `_show` to see a unit past its start. -/
def showSettled (env : Env) (key : Key) (end_ : Int) : Nat → Act Values
  | 0 => raise (quotaError "SYSTEM_START_IDENTITY_PENDING")
  | more + 1 => do
    let part ← partOf key
    let reply ← command env (.showUnit part.unit)
    demand (reply.returncode = 0) (quotaError "SYSTEM_SHOW_FAILED")
    let values ← lift reply.values
    let code ← ask env.poll
    if starting env part values code then do
      demand (more ≠ 0) (quotaError "SYSTEM_START_IDENTITY_PENDING")
      let now ← time env
      demand (now < end_) (quotaError "SYSTEM_START_IDENTITY_PENDING")
      showSettled env key end_ more
    else return values

/-- The properties that stay as they were asked for. -/
def exactProperties : List String :=
  ["Slice", "User", "Group", "NoNewPrivileges", "CapabilityBoundingSet", "AmbientCapabilities", "PrivateUsers", "PrivateNetwork",
    "PrivateMounts", "PrivateDevices", "ProtectSystem", "ProtectHome", "ProtectControlGroups", "ProtectKernelTunables",
    "ProtectKernelModules", "RestrictSUIDSGID", "LockPersonality", "MemoryMax", "MemorySwapMax", "TasksMax", "LimitCPU",
    "LimitFSIZE", "SendSIGKILL"]

/-- A loaded unit's part: its invocation, and its first loaded observation. -/
def Part.bind (part : Part) (invocation : String) (values : Values) : Part :=
  { part with invocationId := some invocation, identityObservation := some (part.identityObservation.getD values) }

/-- `setdefault("terminal", values)`, where they are terminal. -/
def Part.observe (part : Part) (values : Values) : Part :=
  if isTerminal values then { part with terminal := some (part.terminal.getD values) } else part

def showLoaded (env : Env) (key : Key) (values : Values) : Act Unit := do
  let part ← partOf key
  let invocation ← lift (loadedIdentity env part values)
  change fun c => (c.setPart key (·.bind invocation values)).mark (.bound key invocation)
  demand (values "ControlGroup" = cgroupOf env part || isTerminal values) (quotaError "SYSTEM_ACTIVE_PARENT_MISSING")
  demand (exactProperties.all (fun name => values name = part.properties name) && values "RestrictNamespaces" = "yes")
    (quotaError "SYSTEM_UNIT_PROPERTIES")
  lift (env.matchesUnit values part.properties)
  change fun c => c.setPart key (·.observe values)

/-- An absent unit: not delivered yet, or stopped after it was observed. -/
def showMissing (key : Key) (values : Values) : Act Unit := do
  let part ← partOf key
  demand (values "LoadState" = "not-found" && values "InvocationID" = "" && values "ControlGroup" = "" && values "ActiveState" = "inactive"
    && values "SubState" = "dead" && noJob values) (quotaError "SYSTEM_UNIT_MISSING")
  demand (part.invocationId.isNone || (part.stopOk && (part.terminal.isSome
    || part.identityObservation.any fun seen => some (seen "InvocationID") = part.invocationId)))
    (quotaError "SYSTEM_ORIGINAL_UNIT_MISSING")

def showUnit (env : Env) (key : Key) (values : Values) : Act Unit :=
  if values "LoadState" = "loaded" then showLoaded env key values else showMissing key values

/-- `_show` -/
def showPart (env : Env) (key : Key) : Act Values := do
  let now ← time env
  let values ← showSettled env key (min env.site.deadline (now + 2000000000)) 20
  let part ← partOf key
  demand (values "Id" = part.unit) (quotaError "SYSTEM_UNIT_CHANGED")
  showUnit env key values
  change fun c => c.setPart key fun part => { part with after := some values }
  return values

/-! ## Delivery -/

/-- The file of a delivery's intent. -/
def intentName (key : Key) : String := "gateway-" ++ key.1.text ++ "-" ++ key.2.text ++ ".intent.json"

/-- `_intent` -/
def intent (env : Env) (key : Key) : Act Unit := do
  let c ← core
  demand (!c.files.contains (intentName key)) .os
  pass env.fault
  change fun c => { c with files := c.files ++ [intentName key] }
  pass env.fault
  pass env.fault
  change fun c => c.mark (.intended key)

/-- A management unit is running. -/
def managed (env : Env) (found : Registered) (role : String) : Act Unit := do
  let reply ← command env (.showUnit (env.site.managementUnit found role))
  let values ← lift reply.values
  demand (reply.returncode = 0 && values "Id" = env.site.managementUnit found role && values "LoadState" = "loaded"
    && values "ActiveState" = "active" && values "SubState" = "running" && noJob values
    && values "ControlGroup" = env.site.managementGroup found role) (quotaError "SYSTEM_MANAGEMENT_NOT_READY")
  demand (hexText 32 (values "InvocationID")) (quotaError "TEXT")

/-- The receipt is of the bootstrap that was delivered, and it succeeded. -/
def checkReceipt (env : Env) (row : Row) (bootstrap : Option Part) : Except Fault Unit := do
  require (row.status = "RESULT" && row.receiptStatus = some "OBSERVED") (quotaError "SYSTEM_QUOTA_RESULT_UNPROVEN")
  match row.peer, bootstrap with
  | some peer, some part => do
    require (peer.unit = part.unit && peer.invocationId = part.invocationId && peer.parent = env.site.parent && peer.cgroup = cgroupOf env part)
      (quotaError "SYSTEM_BOOTSTRAP_RECEIPT_BINDING")
    require (part.terminal.any fun values => values "ExecMainStatus" = "0") (quotaError "SYSTEM_BOOTSTRAP_FAILED")
  | _, _ => .error (.key "intent")

/-- `_predecessor` -/
def predecessor (env : Env) (phase : Phase) (stage : Stage) : Act Unit := do
  let row ← journal env
  match previousStage stage with
  | none => do
    demand (row.status = "READY") (quotaError "SYSTEM_QUOTA_ALREADY_CONSUMED")
    let found ← registered phase
    managed env found "listener"
    managed env found "admission"
  | some previous => do
    let c ← core
    demand (c.sealed (phase, previous)) (quotaError "SYSTEM_PREDECESSOR_UNSEALED")
    lift (checkReceipt env row (c.parts (phase, .bootstrap)))

/-- What a reader's command takes from its helper. -/
def checkHelper (key : Key) : Act Unit :=
  match key.2 with
  | .resultReader => do
    let helper ← partOf (key.1, .helper)
    demand helper.terminal.isSome (.key "terminal")
  | _ => return

/-- `_build` -/
def build (env : Env) (key : Key) : Act Built := do
  let _ ← time env
  checkHelper key
  let built ← ask env.build
  lift built

/-- The part recorded before its delivery. -/
def Part.fresh (unit token : String) (properties : Values) : Part :=
  ⟨unit, token, properties, none, false, false, none, none, false, none, none, none, none, false, false⟩

def Core.register (c : Core) (key : Key) (part : Part) : Core :=
  { c with partKeys := c.partKeys ++ [key], parts := Function.update c.parts key (some part) }

/-- `Popen`, of a delivery recorded before. -/
def spawn (env : Env) (key : Key) : Act Unit := do
  match ← ask env.spawn with
  | .client pid => change fun c => (c.setPart key fun part => { part with process := some pid }).mark (.spawned key)
  | .lost fault => do
    change fun c => c.mark (.spawned key)
    raise fault
  | .refused fault => raise fault

/-- The local client of a delivery. -/
def adopt (env : Env) (key : Key) : Act Unit := do
  let ticks ← ask env.startTicks
  let ticks ← lift (ticks.mapError fun _ => .os)
  change fun c => c.setPart key fun part => { part with startTicks := some ticks }
  pass env.fault
  change fun c => c.setPart key fun part => { part with pidfd := true }
  let answer ← ask env.pipes
  let pipes ← lift answer
  demand (pipes.stdout ≠ pipes.stderr) (quotaError "SYSTEM_PIPE_ALIAS")
  change fun c => c.setPart key fun part => { part with pipes := some pipes }
  pass env.fault

/-- `_launch` -/
def launch (env : Env) (ref : Ref) (bindings : Bindings) : Act ClientState := do
  let found ← item ref
  let c ← core
  demand ((c.parts ref.key).isNone && c.partKeys.length < 9 && !c.closedPhases.contains ref.phase) (quotaError "SYSTEM_DELIVERY_REPLAY")
  demand (bindings = ⟨found.execution.allocationDigest, found.grantDigest⟩) (quotaError "SYSTEM_LAUNCH_BINDING")
  predecessor env ref.phase ref.stage
  parent env true
  let built ← build env ref.key
  let before ← command env (.showUnit (env.site.unitOf ref.executionId ref.stage))
  let values ← lift before.values
  demand (before.returncode = 0 && values "Id" = env.site.unitOf ref.executionId ref.stage && values "LoadState" = "not-found" && noJob values)
    (quotaError "SYSTEM_UNIT_ALREADY_EXISTS")
  let _ ← time env
  intent env ref.key
  let part := Part.fresh (env.site.unitOf ref.executionId ref.stage) (env.site.tokenOf c.channel.sessionId ref.key) built.properties
  change fun c => c.register ref.key part
  let _ ← time env
  let final ← build env ref.key
  demand (final.template = built.template) (quotaError "SYSTEM_DELIVERY_PLAN_CHANGED")
  change fun c => c.setPart ref.key fun part => { part with properties := final.properties }
  spawn env ref.key
  adopt env ref.key
  state env ref.key

/-- `[0-9]+` -/
def decimal (text : String) : Option Int :=
  if text.toList ≠ [] ∧ text.toList.all Char.isDigit then
    some (text.toList.foldl (fun n c => 10 * n + (c.toNat - '0'.toNat : Nat)) 0)
  else none

/-- The exit the unit itself reported. -/
def reportedCode (values : Values) : Option Int := if values "ExecMainCode" = "1" then decimal (values "ExecMainStatus") else none

/-- `_seal` -/
def sealPart (env : Env) (key : Key) : Act Unit := do
  let part ← partOf key
  demand (!part.isSealed) (quotaError "SYSTEM_SEAL_REPLAY")
  let after ← showPart env key
  let part ← partOf key
  demand (part.stopOk && part.invocationId.isSome && (after "ActiveState" = "inactive" || after "ActiveState" = "failed") && noJob after
    && (part.terminal.isSome || part.identityObservation.any fun seen => some (seen "InvocationID") = part.invocationId))
    (quotaError "SYSTEM_STAGE_EXIT_UNPROVEN")
  parent env true
  demand part.process.isSome (.key "process")
  let code ← ask env.poll
  demand (code.isSome && (part.terminal.bind reportedCode).all fun reported => code = some reported) (quotaError "SYSTEM_CLIENT_EOF_UNPROVEN")
  let answer ← ask env.drained
  let drained ← lift answer
  demand drained (quotaError "SYSTEM_CLIENT_EOF_UNPROVEN")
  pass env.fault
  change fun c => (c.setPart key fun part => { part with pidfd := false, isSealed := true }).mark (.sealedStage key)

/-! ## Requests -/

/-- `reference` -/
def Ref.ok (ref : Ref) : Bool := SystemManager.executionText ref.executionId && phaseOrder.contains ref.phase

/-- `recovery_plan` -/
def Plan.ok (plan : Plan) : Bool :=
  SystemManager.operationText plan.operationId && hexText 64 plan.requestDigest && phaseOrder.contains plan.phase
    && plan.executionId = "job-" ++ plan.operationId ++ "-" ++ plan.phase.text && 1 ≤ plan.budgetDeadline && 1 ≤ plan.phaseDeadline
    && plan.budgetDeadline ≤ plan.controllerDeadline && plan.phaseDeadline ≤ plan.budgetDeadline && !plan.collectorStarted
    && (stageOrder.map plan.units).Nodup

/-- `request_body` -/
def Request.ok : Request → Bool
  | .support | .inventory | .recoveryFinish => true
  | .observe ref _ => ref.ok
  | .stop ref invocationId => ref.ok && hexText 32 invocationId
  | .launch ref bindings => ref.ok && hexText 64 bindings.allocationDigest && hexText 64 bindings.grantDigest
  | .clientPoll ref token | .clientStop ref token | .sealStage ref token => ref.ok && hexText 64 token
  | .recoveryArm plan => plan.ok

/-- What a recovery peer may ask. -/
def Request.recovers : Request → Bool
  | .support | .inventory | .observe .. | .stop .. | .recoveryFinish => true
  | _ => false

/-- What an observation of a recovery peer gives of the past. -/
structure History where
  delivered : Bool
  invocationId : Option String
  stopOk : Bool
  isSealed : Bool
  identity : Option Values
  terminal : Option Values

inductive Response where
  | supported
  | inventory (units : List String)
  | armed
  | closed (client : Option ClientState)
  | observed (values : Values) (client : Option ClientState) (history : Option History)
  | stopped (returncode : Int) (client : Option ClientState)
  | client (client : ClientState)

/-- The delivery of a unit: the last one, of several. -/
def Core.known (c : Core) (unit : String) : Option Key := c.partKeys.reverse.find? fun key => (c.parts key).any (·.unit = unit)

/-- `lhj-[0-9a-f]{64}\.service` -/
def isJobUnit (name : String) : Bool :=
  name.startsWith "lhj-" && name.endsWith ".service" && hexText 64 (String.ofList ((name.toList.drop 4).take (name.length - 12)))

/-- A unit of an earlier gateway: nothing of it is left running. -/
def checkForeign (name : String) (reply : Reply) (fields : Values) : Except Fault Unit :=
  require (reply.returncode = 0 && fields "Id" = name && (fields "LoadState" = "loaded" || fields "LoadState" = "not-found")
    && ((fields "ActiveState" = "inactive" && fields "SubState" = "dead") || (fields "ActiveState" = "failed" && fields "SubState" = "failed")
      || (fields "ActiveState" = "active" && fields "SubState" = "exited" && fields "RemainAfterExit" = "yes" && fields "ControlPID" = "0"
        && fields "ExecMainCode" = "1" && fields "ExecMainStatus" = "0"))
    && fields "MainPID" = "0" && fields "ControlGroup" = "" && noJob fields) (quotaError "SYSTEM_INVENTORY_UNKNOWN")

def inventoryUnit (env : Env) (name : String) : Act Unit := do
  let c ← core
  match c.known name with
  | some key => do let _ ← showPart env key
  | none => do
    demand (isJobUnit name) (quotaError "SYSTEM_INVENTORY_UNKNOWN")
    let reply ← command env (.showUnit name)
    let fields ← lift reply.values
    lift (checkForeign name reply fields)

def inventory (env : Env) : Act Response := do
  parent env false
  let reply ← command env .listUnits
  demand (reply.returncode = 0) (quotaError "SYSTEM_INVENTORY_UNKNOWN")
  demand reply.units.Nodup (quotaError "SYSTEM_INVENTORY_LIMIT")
  reply.units.forM (inventoryUnit env)
  let c ← core
  return .inventory (reply.units.filter fun name => (c.known name).isSome)

/-- Every stage of the plan's phase was delivered and bound, each to an invocation of its own. -/
def Core.armable (c : Core) (plan : Plan) : Bool :=
  !c.recoveryOnly && !c.recoveryArmed && !c.pendingControl && c.partKeys.length = 3
    && c.partKeys.all (fun key => key.1 = plan.phase) && c.partKeys.Nodup
    && stageOrder.all (fun stage => (c.parts (plan.phase, stage)).any fun part => part.unit = plan.units stage && part.invocationId.any (hexText 32))
    && (c.partKeys.map fun key => (c.parts key).bind Part.invocationId).Nodup

def armsExecution (env : Env) (plan : Plan) (found : Registered) : Bool :=
  found.execution.executionId = plan.executionId && found.execution.operationId = plan.operationId
    && found.requestDigest = some plan.requestDigest && found.execution.grantDeadline = plan.budgetDeadline
    && found.execution.grantPhaseDeadline = plan.phaseDeadline && plan.controllerDeadline = env.site.deadline && !plan.collectorStarted

def recoveryArm (env : Env) (plan : Plan) : Act Response := do
  let found ← registered plan.phase
  let c ← core
  demand (c.armable plan && armsExecution env plan found) (quotaError "SYSTEM_RECOVERY_ARM")
  let now ← time env
  demand (now < plan.phaseDeadline) (quotaError "SYSTEM_RECOVERY_ARM")
  change fun c => { c with recoveryPlan := some plan, recoveryArmed := true }.mark .armed
  return .armed

/-- A recovered delivery that is known to have ended. -/
def Part.recovered (part : Part) : Bool :=
  part.recoveryObserved && part.collectorsLost && part.process.isNone && !part.pidfd && part.stopOk
    && part.identityObservation.any (fun seen => some (seen "InvocationID") = part.invocationId)
    && part.after.any fun values => (values "ActiveState" = "inactive" || values "ActiveState" = "failed") && noJob values

def recoveryFinish (env : Env) : Act Response := do
  let c ← core
  demand (c.recoveryOnly && !c.recoveryFinished && !c.pendingControl
    && c.partKeys.all fun key => c.closedPhases.contains key.1 || (c.parts key).any Part.recovered) (quotaError "SYSTEM_RECOVERY_INCOMPLETE")
  parent env true
  change fun c => { c with recoveryFinished := true }
  return .closed none

/-- `observe`, by a recovery peer, of a stage that was not delivered. -/
def observeAbsent (env : Env) (ref : Ref) : Act Response := do
  let reply ← command env (.showUnit (env.site.unitOf ref.executionId ref.stage))
  let values ← lift reply.values
  demand (reply.returncode = 0 && values "Id" = env.site.unitOf ref.executionId ref.stage && values "LoadState" = "not-found"
    && values "ActiveState" = "inactive" && values "SubState" = "dead" && values "InvocationID" = "" && values "ControlGroup" = ""
    && values "MainPID" = "0" && values "ControlPID" = "0" && noJob values) (quotaError "SYSTEM_UNDELIVERED_UNIT_PRESENT")
  return .observed values none (some ⟨false, none, false, false, none, none⟩)

def clientOf (env : Env) (key : Key) : Act (Option ClientState) := do
  let c ← core
  if c.recoveryOnly then return none else return some (← state env key)

def historyOf (key : Key) : Act (Option History) := do
  let c ← core
  let part ← partOf key
  if c.recoveryOnly then do
    change fun c => c.setPart key fun part => { part with recoveryObserved := true }
    return some ⟨true, part.invocationId, part.stopOk, part.isSealed, part.identityObservation, part.terminal⟩
  else return none

def observe (env : Env) (key : Key) : Act Response := do
  let values ← showPart env key
  let history ← historyOf key
  let client ← clientOf env key
  return .observed values client history

/-- A stop of the bound invocation, and whether the manager took it. -/
def stop (env : Env) (key : Key) (invocationId : String) : Act Response := do
  let values ← showPart env key
  let part ← partOf key
  demand (values "LoadState" = "loaded" && values "InvocationID" = invocationId && some invocationId = part.invocationId)
    (quotaError "SYSTEM_STOP_IDENTITY")
  let reply ← command env (.stop part.unit)
  change fun c =>
    let stopped := c.setPart key fun part => { part with stopOk := reply.returncode = 0 }
    if reply.returncode = 0 then stopped.mark (.stopAcked key invocationId) else stopped
  let client ← clientOf env key
  return .stopped reply.returncode client

/-- `SIGKILL` to the client that was started, while it runs. -/
def signal (env : Env) (key : Key) : ClientState → Act Unit
  | ⟨_, _, _, some _⟩ => return
  | ⟨_, _, _, none⟩ => do
    let part ← partOf key
    demand part.pidfd .os
    change fun c => c.mark (.signalled key)
    pass env.fault

def clientStop (env : Env) (key : Key) : Act Response := do
  let before ← state env key
  signal env key before
  return .client (← state env key)

def checkToken (key : Key) (token : String) : Act Unit := do
  let part ← partOf key
  demand (token = part.token) (quotaError "SYSTEM_CLIENT_TOKEN")

/-- The part `_get` gives, of a delivered stage. -/
def delivered (key : Key) : Act Unit := do
  let c ← core
  demand (c.parts key).isSome (quotaError "SYSTEM_STAGE_UNDELIVERED")

def observeRequest (env : Env) (ref : Ref) : Act Response := do
  let _ ← item ref
  let c ← core
  if c.recoveryOnly && (c.parts ref.key).isNone then observeAbsent env ref
  else do
    delivered ref.key
    observe env ref.key

def sealRequest (env : Env) (ref : Ref) (token : String) : Act Response := do
  let found ← item ref
  delivered ref.key
  checkToken ref.key token
  let now ← time env
  demand (now < found.execution.phaseDeadline) (quotaError "SYSTEM_PHASE_DEADLINE")
  sealPart env ref.key
  return .closed (some (← state env ref.key))

def perform (env : Env) : Request → Act Response
  | .support => do
    parent env false
    return .supported
  | .inventory => inventory env
  | .launch ref bindings => do return .client (← launch env ref bindings)
  | .recoveryArm plan => recoveryArm env plan
  | .recoveryFinish => recoveryFinish env
  | .observe ref _ => observeRequest env ref
  | .stop ref invocationId => do
    let _ ← item ref
    delivered ref.key
    stop env ref.key invocationId
  | .clientStop ref token => do
    let _ ← item ref
    delivered ref.key
    checkToken ref.key token
    clientStop env ref.key
  | .sealStage ref token => sealRequest env ref token
  | .clientPoll ref token => do
    let _ ← item ref
    delivered ref.key
    checkToken ref.key token
    return .client (← state env ref.key)

/-- A recovery peer's deadline. -/
def checkRecovery (env : Env) (request : Request) : Act Unit := do
  let c ← core
  if c.recoveryOnly then do
    demand request.recovers (quotaError "SYSTEM_RECOVERY_OPERATION")
    let _ ← recoveryTime env
  else return

/-- `dispatch` -/
def dispatch (env : Env) (request : Request) : Act Response := do
  let _ ← time env
  demand request.ok (quotaError "SYSTEM_OPERATION")
  let c ← core
  demand (!(c.recoveryArmed && !c.recoveryOnly)) (quotaError "SYSTEM_RECOVERY_ARMED")
  checkRecovery env request
  perform env request

/-! ## Recovery -/

/-- The pipes a delivery was made with. -/
def Pipes.ok (pipes : Pipes) : Bool :=
  0 ≤ pipes.stdout.device && 0 < pipes.stdout.inode && 0 ≤ pipes.stderr.device && 0 < pipes.stderr.inode && pipes.stdout ≠ pipes.stderr

/-- A delivery whose client was given up. -/
def Part.abandon (part : Part) : Part := { part with process := none, pidfd := false, collectorsLost := true }

/-- `_discard_original_clients` -/
def discardOriginalClients (env : Env) : Act Unit := do
  let c ← core
  c.partKeys.forM fun key => do
    let part ← partOf key
    demand (part.pipes.any Pipes.ok) (quotaError "SYSTEM_RECOVERY_PIPE_IDENTITY")
    pass env.fault
    change fun c => c.setPart key Part.abandon

/-- A channel of the ordinary user to the same manager. -/
def checkChannel (env : Env) (old new : Channel) (now : String × Int) : Except Fault Unit :=
  require (new.pid ≠ old.pid && new.uid = env.site.uid && new.gid = env.site.gid && new.bootId = env.site.bootId && new.bootId = now.1
    && new.deadline = env.site.deadline && now.2 < env.site.deadline) (quotaError "SYSTEM_RECOVERY_PEER")

/-- The faults a first recovery may come after. -/
def recoverable : Option String → Bool
  | none => true
  | some code => code = "SYSTEM_PEER_CHANGED" || code = "SYSTEM_CHANNEL_DISCONNECTED"

/-- The three stages of one phase are delivered. -/
def Core.onePhase (c : Core) : Bool :=
  c.partKeys.length = 3 && stageOrder.all (fun stage => c.partKeys.any fun key => key.2 = stage)
    && c.partKeys.all fun key => c.partKeys.head?.any fun first => first.1 = key.1

/-- The new peer's channel is bound, and only recovers. -/
def Core.rebind (c : Core) (channel : Channel) : Core :=
  { c with channel := channel, peerPidfd := true, failure := none, recoveryOnly := true, recoveryRebinds := c.recoveryRebinds + 1,
           recoveryFinished := false }.mark .rebound

/-- `rebind_recovery` -/
def rebindRecovery (env : Env) (channel : Channel) : Act Unit := do
  let c ← core
  let now ← ask env.bootClock
  let now ← lift now
  demand (!c.closed && !c.serving && !c.recoveryOnly && c.recoveryRebinds = 0 && !c.pendingControl && c.recoveryArmed && c.recoveryArmAck
    && c.recoveryPlan.isSome) (quotaError "SYSTEM_RECOVERY_STATE")
  let dead ← ask env.exited
  demand (c.peerPidfd && dead) (quotaError "SYSTEM_RECOVERY_OLD_PEER")
  lift (checkChannel env c.channel channel now)
  demand (channel.sessionId = env.site.recoverySession c.channel.sessionId) (quotaError "SYSTEM_RECOVERY_PEER")
  demand (c.recoveryPlan.any fun plan => now.2 < min plan.phaseDeadline plan.budgetDeadline) (quotaError "SYSTEM_RECOVERY_DEADLINE")
  demand (recoverable c.failure && c.onePhase) (quotaError "SYSTEM_RECOVERY_SCOPE")
  pass env.fault
  discardOriginalClients env
  change fun c => c.rebind channel

/-- The faults a service's recovery may come after. -/
def serviceRecoverable : Option String → Bool
  | none => true
  | some code => code = "SYSTEM_PEER_CHANGED" || code = "SYSTEM_CHANNEL_DISCONNECTED" || code = "SYSTEM_CHANNEL_EOF"
      || code = "SYSTEM_CHANNEL_UNAVAILABLE"

/-- `MAX_SERVICE_RECOVERIES` -/
def maxServiceRecoveries : Nat := 3

/-- `check_service_recovery` -/
def checkServiceRecovery (env : Env) : Act Unit := do
  let c ← core
  let dead ← ask env.exited
  demand (!c.closed && !c.serving && !c.pendingControl && c.peerPidfd && dead && c.recoveryRebinds < maxServiceRecoveries)
    (quotaError "SYSTEM_RECOVERY_STATE")
  demand (serviceRecoverable c.failure) (quotaError "SYSTEM_RECOVERY_IDENTITY_UNRESOLVED")
  pass env.fault
  if c.partKeys.isEmpty then parent env true else return

/-- `rebind_service_recovery` -/
def rebindServiceRecovery (env : Env) (channel : Channel) : Act Unit := do
  let now ← ask env.bootClock
  let now ← lift now
  checkServiceRecovery env
  let c ← core
  lift (checkChannel env c.channel channel now)
  demand (channel.sessionId ≠ c.channel.sessionId) (quotaError "SYSTEM_RECOVERY_PEER")
  discardOriginalClients env
  pass env.fault
  change fun c => { c.rebind channel with serviceRecovery := true }

/-! ## Runs -/

/-- `_respond`, of a recovery that was armed. -/
def acknowledge (env : Env) : Act Unit := do
  pass env.fault
  let c ← core
  demand c.recoveryArmed (quotaError "SYSTEM_RECOVERY_ARM_ACK")
  change fun c => { c with recoveryArmAck := true }

/-- `serve`, at its start and at its end: a fault is kept, of a gateway that is open. -/
def enterServe : Act Unit := do
  let c ← core
  demand (!c.serving && !c.closed) (quotaError "SYSTEM_GATEWAY_SERVE")
  change fun c => { c with serving := true }

def leaveServe (code : Option String) : Act Unit :=
  change fun c => { c with serving := false, failure := if c.closed then c.failure else code.orElse fun _ => c.failure }

/-- `close` -/
def close : Act Unit :=
  change fun c => { c with closed := true, peerPidfd := false, parts := fun key => (c.parts key).map fun part => { part with pidfd := false } }

inductive Label where
  | authorizePhase (phase : Phase) (found : Registered)
  | dispatch (request : Request)
  | closePhase (fence : String)
  | rebindRecovery (channel : Channel)
  | rebindServiceRecovery (channel : Channel)
  | acknowledge
  | enterServe
  | leaveServe (code : Option String)
  | close

def step (env : Env) (w : World Core) : Label → World Core
  | .authorizePhase phase found => ((authorizePhase env phase found).from w).2
  | .dispatch request => ((dispatch env request).from w).2
  | .closePhase fence => ((closePhase env fence).from w).2
  | .rebindRecovery channel => ((rebindRecovery env channel).from w).2
  | .rebindServiceRecovery channel => ((rebindServiceRecovery env channel).from w).2
  | .acknowledge => ((acknowledge env).from w).2
  | .enterServe => (enterServe.from w).2
  | .leaveServe code => ((leaveServe code).from w).2
  | .close => (close.from w).2

/-- A gateway that was made, with the files its intent directory had. -/
def made (channel : Channel) (files : List String) : World Core :=
  ⟨0, ⟨channel, true, [], [], fun _ => none, [], none, false, false, 0, false, false, false, 0, false, false, false, none, files, []⟩⟩

end LocalHand.Gateway
