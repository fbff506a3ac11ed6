/-
Protected startup selections (`startup.py`): a descriptor published under the admission
lock, and the listeners that are admitted by it.

A call holds the lock to its end, so calls come one after another. What reads, writes,
processes and peers answer, and where an exception comes from, is in the environment, by
the number of the question. A file that was replaced is durable once its directory is
synced; until then a crash may bring back any of the files before it.
-/
import LocalHand.Maintenance
import LocalHand.Lib.Program
import Mathlib.Data.Finmap

namespace LocalHand.Startup

open PyJson Program
open Maintenance (Gate GateState Io Site)

variable {F : Type} [DecidableEq F]

/-! ## Selections -/

inductive Mode where
  | blocked | candidate | stable
  deriving Repr, DecidableEq

inductive Entry where
  | localEntry | publicEntry
  deriving Repr, DecidableEq

structure Member where
  path : String
  sha256 : String
  ownerUid : Option Int
  deriving DecidableEq

structure Component where
  configurationDigest : String
  payloadDigest : String
  entry : Entry
  running : Bool
  deriving DecidableEq

/-- `instance` -/
structure Instance where
  pid : Int
  startTicks : Int
  bootId : String
  deriving DecidableEq

structure Permit where
  bootId : String
  attemptId : String
  claims : Finmap fun _ : String => Instance
  deriving DecidableEq

structure Selection where
  nodeId : String
  deploymentDigest : String
  decisionId : Option String
  mode : Mode
  owner : Option String
  members : List Member
  components : Finmap fun _ : String => Component
  permit : Option Permit
  deriving DecidableEq

/-- `Path(...).is_absolute()`, and no part of it is `..`. -/
def isAbsolute (path : String) : Bool :=
  match path.toList with
  | '/' :: rest => (rest.splitOn '/').all (· ≠ ['.', '.'])
  | _ => false

def Member.ok (m : Member) : Bool :=
  isAbsolute m.path && hexText 64 m.sha256 && m.ownerUid.all fun uid => 0 ≤ uid && uid < 2 ^ 32 - 1

/-- `[a-z][a-z0-9_-]{0,63}` -/
def isComponentName (name : String) : Bool :=
  match name.toList with
  | c :: rest => ('a' ≤ c && c ≤ 'z') && rest.length ≤ 63
      && rest.all fun c => ('a' ≤ c && c ≤ 'z') || ('0' ≤ c && c ≤ '9') || c = '_' || c = '-'
  | [] => false

def Component.ok (name : String) (c : Component) : Bool :=
  isComponentName name && hexText 64 c.configurationDigest && hexText 64 c.payloadDigest

def Instance.ok (bootId : String) (i : Instance) : Bool := 0 < i.pid && 0 < i.startTicks && i.bootId = bootId

def nonempty (text : Option String) : Bool := text.any (· ≠ "")

/-- The binding of a selection's mode. -/
def Selection.bound (s : Selection) : Bool :=
  match s.mode, s.permit with
  | .stable, permit => nonempty s.decisionId && permit.isNone
  | .candidate, none => false
  | .candidate, some permit => nonempty s.owner && s.decisionId.isNone && permit.bootId ≠ "" && permit.attemptId ≠ ""
      && permit.claims.all fun name claim => name ∈ s.components && claim.ok permit.bootId
  | .blocked, permit => permit.isNone

/-- `validate`, of a selection with fields of their types. -/
def Selection.valid (s : Selection) : Bool :=
  s.nodeId ≠ "" && hexText 64 s.deploymentDigest && decide (1 ≤ s.components.keys.card) && decide (s.components.keys.card ≤ 16)
    && decide (1 ≤ s.members.length) && decide (s.members.length ≤ 64) && s.members.all Member.ok
    && decide (s.members.map Member.path).Nodup && s.components.all Component.ok && s.bound

/-! ## The world -/

/-- A file that is replaced as a whole: what it is, and what a crash may bring back. -/
structure File (α : Type) where
  now : α
  unsynced : List α

def File.replace {α : Type} (f : File α) (value : α) : File α := ⟨value, f.now :: f.unsynced⟩

def File.sync {α : Type} (f : File α) : File α := ⟨f.now, []⟩

def File.crash {α : Type} (f : File α) (back : Option Nat) : File α := ⟨(back.bind (f.unsynced[·]?)).getD f.now, []⟩

/-- What a listener says it has loaded. -/
structure Proof where
  component : Option String
  entry : Option String
  pid : Option Int
  startTicks : Option Int
  bootId : Option String
  nodeId : Option String
  deploymentDigest : Option String
  configurationDigest : Option String
  payloadDigest : Option String

/-- An admission is answered with the selection, and then bound to the listener's proof. Its
instance is the one a candidate's permit is claimed for. -/
inductive Stage where
  | selected
  | bound (proof : Proof)

structure Admission (F : Type) where
  component : String
  instance' : Option Instance
  selection : Selection
  gate : Gate F
  isPublic : Bool
  stage : Stage

/-- A visible step: a descriptor replaced by a publish, with the owner the caller named; a
publish that returned; a listener admitted; an owner that left the gate. -/
inductive Mark (F : Type) where
  | replaced (expected : Option String) (previous : Option Selection) (value : Selection) (named : Option String) (gate : Gate F)
  | settled (value : Selection)
  | admitted (admission : Admission F)
  | left (owner : String)

structure Core (F : Type) where
  gate : File (Option (Gate F))
  descriptor : File (Option Selection)
  boot : String
  trace : List (Mark F)

structure World (F : Type) where
  questions : Nat
  core : Core F

structure Env (F : Type) where
  site : Site F
  digest : Selection → String
  fault : Nat → Option Fault
  late : Nat → Option Fault
  io : Nat → Io
  members : Nat → Except Fault Unit
  startTicks : Nat → Except Fault Int
  completion : Nat → Except Fault (Option Proof)

abbrev Op (F : Type) := Prog (World F) Fault

def lift {α : Type} : Except Fault α → Op F α
  | .ok a => pure a
  | .error fault => throw fault

def raise {α : Type} (fault : Fault) : Op F α := throw fault

def core : Op F (Core F) := do return (← get).core

def change (f : Core F → Core F) : Op F Unit := modify fun w => { w with core := f w.core }

def question : Op F Nat := do
  let w ← get
  set { w with questions := w.questions + 1 }
  return w.questions

def throwIf : Option Fault → Op F Unit
  | none => return
  | some fault => throw fault

/-- A call that may raise. -/
def pass (env : Env F) : Op F Unit := do throwIf (env.fault (← question))

def mismatch (message : String) : Fault := .job "STARTUP_MISMATCH" message

/-- `raise` unless the check holds. -/
def demand (ok : Bool) (fault : Fault) : Op F Unit := lift (require ok fault)

/-- `admission_lock` -/
def admissionLock (env : Env F) : Op F (Gate F) := do
  let n ← question
  lift (Maintenance.snapshot env.site (env.io n) (← core).gate.now).1

def invalidSelection : Fault := .job "STARTUP_UNKNOWN" "Startup selection is invalid"

def unverified : Fault := .job "STARTUP_UNKNOWN" "Cannot verify a protected startup object"

/-- `read_selection` -/
def readSelection (env : Env F) : Op F Selection := do
  pass env
  match (← core).descriptor.now with
  | none => raise unverified
  | some value => if value.valid then return value else raise invalidSelection

/-- `verify_members` -/
def verifyMembers (env : Env F) (value : Selection) : Op F Unit := do
  demand value.valid invalidSelection
  lift (env.members (← question))

/-- `_write_selection`, with what it is a step of: replaced, and then the directory is
synced. -/
def writeSelection (env : Env F) (value : Selection) (f : Core F → Core F) : Op F Unit := do
  pass env
  change fun c => f { c with descriptor := c.descriptor.replace (some value) }
  throwIf (env.late (← question))
  change fun c => { c with descriptor := c.descriptor.sync }

/-- `_confirm_selection` -/
def confirmSelection (env : Env F) : Op F Unit := do
  pass env
  change fun c => { c with descriptor := c.descriptor.sync }

/-! ## Publishing -/

/-- The descriptor there is. A read that fails admits an absent one only. -/
def current (env : Env F) : Op F (Option Selection) :=
  tryCatch (do return some (← readSelection env)) fun fault => do
    pass env
    match (← core).descriptor.now with
    | none => return none
    | some _ => raise fault

/-- Whom a caller acts for. -/
def named (value : Selection) (maintenanceOwner : Option String) : Option String :=
  if value.mode = .stable then maintenanceOwner else value.owner

def checkOwner (value : Selection) (gate : Gate F) : Except Fault Unit :=
  if value.mode = .stable then .ok ()
  else require (gate.state = .closed && gate.owner = value.owner) (mismatch "Selection requires its current maintenance owner")

def checkStable (value : Selection) (gate : Gate F) (expected maintenanceOwner : Option String) (there : Option Selection) : Except Fault Unit :=
  if value.mode = .stable then
    match there with
    | none => require (expected.isNone && gate.state = .open && maintenanceOwner.isNone && gate.deploymentDigest = value.deploymentDigest
        && some gate.decisionId = value.decisionId) (mismatch "Stable bootstrap requires the exact initialized open decision")
    | some _ => require (gate.state = .closed && nonempty maintenanceOwner && gate.owner = maintenanceOwner)
        (mismatch "Stable publication requires the current maintenance owner")
  else .ok ()

def verifyUnblocked (env : Env F) (value : Selection) : Op F Unit :=
  if value.mode = .blocked then return else verifyMembers env value

def Core.mark (c : Core F) (k : Mark F) : Core F := { c with trace := c.trace ++ [k] }

def mark (k : Mark F) : Op F Unit := change fun c => c.mark k

/-- `publish` -/
def publish (env : Env F) (value : Selection) (expected maintenanceOwner : Option String) : Op F String := do
  demand value.valid (.value "selection schema")
  let gate ← admissionLock env
  demand (value.nodeId = gate.nodeId) (mismatch "Startup selection belongs to another node")
  lift (checkOwner value gate)
  let there ← current env
  lift (checkStable value gate expected maintenanceOwner there)
  if there = some value then do
    confirmSelection env
    mark (.settled value)
    return env.digest value
  else do
    demand (there.map env.digest = expected) (.job "STARTUP_CONFLICT" "Startup selection was independently changed")
    pass env
    verifyUnblocked env value
    writeSelection env value fun c => c.mark (.replaced expected there value (named value maintenanceOwner) gate)
    mark (.settled value)
    return env.digest value

/-! ## Admitting -/

/-- `boot_id` -/
def bootId (env : Env F) : Op F String := do
  pass env
  return (← core).boot

/-- `instance` -/
def instanceOf (env : Env F) (pid : Int) : Op F Instance := do
  let ticks ← lift (env.startTicks (← question))
  return ⟨pid, ticks, ← bootId env⟩

/-- The selection with a claim recorded. -/
def Selection.claim (s : Selection) (component : String) (i : Instance) : Selection :=
  { s with permit := s.permit.map fun permit => { permit with claims := permit.claims.insert component i } }

def Selection.claimed (s : Selection) (component : String) : Option Instance := s.permit.bind (·.claims.lookup component)

/-- The claim of a candidate's permit. -/
def claimPermit (env : Env F) (value : Selection) (component : String) (i : Instance) : Op F Selection := do
  match value.claimed component with
  | some previous => do
    demand (previous = i) (mismatch "Candidate permit is already bound to another instance")
    confirmSelection env
    return value
  | none => do
    writeSelection env (value.claim component i) id
    return value.claim component i

/-- What an admission answers is kept. -/
def markAdmitted (admission : Admission F) : Op F Unit := mark (.admitted admission)

def Selection.boot (s : Selection) : Option String := s.permit.map Permit.bootId

/-- `_admit_selection` -/
def admitSelection (env : Env F) (gate : Gate F) (component : String) (pid : Int) (isPublic : Bool) : Op F (Admission F) := do
  let value ← readSelection env
  verifyMembers env value
  demand (value.nodeId = gate.nodeId && value.mode ≠ .blocked && (value.components.lookup component).any Component.running)
    (mismatch "Component has no active startup selection")
  if value.mode = .candidate then do
    let boot ← bootId env
    demand (gate.state = .closed && gate.owner = value.owner && value.boot = some boot) (mismatch "Candidate startup permit is not current")
    let claim ← instanceOf env pid
    let selected ← claimPermit env value component claim
    markAdmitted ⟨component, some claim, selected, gate, isPublic, .selected⟩
    return ⟨component, some claim, selected, gate, isPublic, .selected⟩
  else do
    demand (gate.state = .closed || gate.deploymentDigest = value.deploymentDigest) (mismatch "Admission does not select this stable deployment")
    markAdmitted ⟨component, none, value, gate, isPublic, .selected⟩
    return ⟨component, none, value, gate, isPublic, .selected⟩

/-- Whether the listener has loaded what the selection has for its component. -/
def loads (value : Selection) (component : String) (proof : Proof) : Bool :=
  proof.nodeId = some value.nodeId && proof.deploymentDigest = some value.deploymentDigest
    && (value.components.lookup component).any fun c =>
      proof.configurationDigest = some c.configurationDigest && proof.payloadDigest = some c.payloadDigest

def bind (admission : Admission F) (proof : Proof) : Op F Unit := markAdmitted { admission with stage := .bound proof }

/-- The checks of `authorize` beyond those of the selection. -/
def checkLoaded (env : Env F) (gate : Gate F) (a : Admission F) (entry : String) : Op F Unit :=
  if a.selection.mode = .candidate then do
    let boot ← bootId env
    demand (gate.state = .closed && gate.owner = a.selection.owner && a.selection.boot = some boot && entry = "local")
      (mismatch "Candidate startup requires current local-only maintenance")
  else if gate.state = .open && gate.deploymentDigest ≠ a.selection.deploymentDigest then
    raise (mismatch "Open admission does not select this deployment")
  else demand (entry ≠ "public" || (a.selection.components.lookup a.component).any (·.entry = .publicEntry))
    (mismatch "Public protocol was not selected")

/-- `authorize`, of a configuration with maintenance, to where the listener opens. One
without is not admitted by a selection. -/
def authorize (env : Env F) (pid : Int) (proof : Proof) : Op F Unit := do
  let gate ← admissionLock env
  match proof.component with
  | none => raise (mismatch "Component has no active startup selection")
  | some component => do
    let a ← admitSelection env gate component pid false
    demand (loads a.selection component proof) (mismatch "Loaded configuration is not selected for startup")
    checkLoaded env gate a (proof.entry.getD "local")
    bind a proof

/-- The completion a peer sends, if it is one. -/
def receiveCompletion (env : Env F) (fault : Fault) : Op F Proof := do
  match ← lift (env.completion (← question)) with
  | some proof => return proof
  | none => raise fault

/-- `serve_authorization` -/
def serveAuthorization (env : Env F) (peerPid : Int) : Op F Unit := do
  let gate ← admissionLock env
  let a ← admitSelection env gate "mcp" peerPid false
  pass env
  let proof ← receiveCompletion env (mismatch "Startup completion is not bound")
  let boot ← bootId env
  let here ← instanceOf env peerPid
  demand (proof.component = some "mcp" && proof.pid = some peerPid && proof.bootId = some boot && proof.startTicks = some here.startTicks
    && proof.entry = some "local" && loads a.selection "mcp" proof) (mismatch "MCP loaded configuration differs from its selection")
  bind a proof
  pass env

/-- What the public gateway needs of the descriptor. -/
def checkReleased (value : Selection) (gate : Gate F) : Except Fault Unit :=
  require (value.mode = .stable && (value.components.lookup "gateway").any (·.entry = .publicEntry)
    && gate.deploymentDigest = value.deploymentDigest && some gate.decisionId = value.decisionId)
    (mismatch "Public gateway needs the released stable selection")

def checkPublic (env : Env F) (gate : Gate F) (isPublic : Bool) : Op F Unit :=
  if isPublic then do lift (checkReleased (← readSelection env) gate) else return

/-- `serve_gateway_authorization` -/
def serveGatewayAuthorization (env : Env F) (peerPid peerUid : Int) (isPublic : Bool) : Op F Unit := do
  demand (peerUid = 0) (.job "UNAUTHORIZED" "Gateway startup requires its fixed root peer and mode")
  let gate ← admissionLock env
  checkPublic env gate isPublic
  let a ← admitSelection env gate "gateway" peerPid isPublic
  let host ← instanceOf env peerPid
  pass env
  let proof ← receiveCompletion env (mismatch "Gateway completion is not bound")
  let here ← instanceOf env peerPid
  demand (proof.component = some "gateway" && proof.entry = some (if isPublic then "public" else "local") && proof.pid = some host.pid
    && proof.startTicks = some host.startTicks && proof.bootId = some host.bootId && here = host && loads a.selection "gateway" proof)
    (mismatch "Gateway loaded configuration or host instance differs")
  bind a proof
  pass env

/-! ## Runs -/

/-- The calls that move the gate between owners. -/
inductive GateCall (F : Type) where
  | close (owner : String) (expected : Option (Value F))
  | release (owner decisionId deploymentDigest : String) (expected : Option (Value F))
  | handoff (owner successor : String) (expected : Option (Value F))

def GateCall.call : GateCall F → Maintenance.Call F
  | .close owner expected => .close owner expected
  | .release owner decisionId deploymentDigest expected => .release owner decisionId deploymentDigest expected
  | .handoff owner successor expected => .handoff owner successor expected

/-- Whom the call takes the gate from. -/
def GateCall.leaves : GateCall F → Option String
  | .close .. => none
  | .release owner .. => some owner
  | .handoff owner .. => some owner

/-- A call of the gate: the record it leaves is durable where the call returns. -/
def moveGate (env : Env F) (call : GateCall F) : Op F Unit := do
  let n ← question
  let c ← core
  match Maintenance.perform env.site call.call (env.io n) c.gate.now with
  | (.ok _, record) =>
    change fun c => { c with gate := (c.gate.replace record).sync, trace := c.trace ++ (call.leaves.map Mark.left).toList }
  | (.error fault, record) => do
    change fun c => { c with gate := c.gate.replace record }
    raise fault

inductive Label (F : Type) where
  | publish (value : Selection) (expected maintenanceOwner : Option String)
  | gate (call : GateCall F)
  | authorize (pid : Int) (proof : Proof)
  | serveAuthorization (peerPid : Int)
  | serveGatewayAuthorization (peerPid peerUid : Int) (isPublic : Bool)
  | crash (boot : String) (gate descriptor : Option Nat)

def Core.crash (c : Core F) (boot : String) (gate descriptor : Option Nat) : Core F :=
  { c with gate := c.gate.crash gate, descriptor := c.descriptor.crash descriptor, boot := boot }

def step (env : Env F) (w : World F) : Label F → World F
  | .publish value expected maintenanceOwner => ((publish env value expected maintenanceOwner).from w).2
  | .gate call => ((moveGate env call).from w).2
  | .authorize pid proof => ((authorize env pid proof).from w).2
  | .serveAuthorization peerPid => ((serveAuthorization env peerPid).from w).2
  | .serveGatewayAuthorization peerPid peerUid isPublic => ((serveGatewayAuthorization env peerPid peerUid isPublic).from w).2
  | .crash boot gate descriptor => { w with core := w.core.crash boot gate descriptor }

/-- A node whose gate and descriptor are as they are, both durable. -/
def installed (gate : Option (Gate F)) (descriptor : Option Selection) (boot : String) : World F :=
  ⟨0, ⟨⟨gate, []⟩, ⟨descriptor, []⟩, boot, []⟩⟩

end LocalHand.Startup
