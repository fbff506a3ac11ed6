/-
The launcher of a prepared task (`FixedLauncher` of `prepared_service.py`): one controller
for an output directory, under the admission gate where there is one.

The service lock admits one launcher at a time, and its calls come one after another; the
worker that captures a controller's end comes between them, or within a start that waits.
What files, threads, `Popen` and the clock answer, and where an exception or a crash comes
from, is in the environment, by the number of the question. A crash takes what is in memory,
and a change of the directory or of the gate that was not synced.
-/
import LocalHand.StartupSelections
import LocalHand.Lib.Asking
import LocalHand.Lib.History

namespace LocalHand.FixedLauncher

open PyJson Asking
open Maintenance (Gate Io Site Responsibility Loaded Prepared)
open Startup (File)

variable {F : Type} [DecidableEq F]

/-! ## Data -/

/-- An exception, or the end of the process, which no handler takes. -/
inductive Stop where
  | raised (fault : Fault)
  | crashed

/-- `OSError` and `ValueError` -/
def Stop.isFile : Stop → Bool
  | .raised .os | .raised (.value _) => true
  | _ => false

/-- `JobError` -/
def Stop.isJob : Stop → Bool
  | .raised (.job ..) => true
  | _ => false

def Stop.isLocal (stop : Stop) : Bool := stop.isFile || stop.isJob

structure Stream where
  hex : String
  totalBytes : Nat
  truncated : Bool
  deriving DecidableEq

/-- What was captured of a controller. -/
structure Result where
  returncode : Int
  streamsEof : Bool
  stdout : Stream
  stderr : Stream
  deriving DecidableEq

/-- What `finished.json` has: a record of a result, or something else. -/
inductive Completion where
  | record (result : Result)
  | other
  deriving DecidableEq

/-- `local_failure`: an attempt without a process, whose intent is to be moved away. -/
structure Pending where
  label : String
  identity : Option Nat

/-- How `Popen` ends: with a child, with an `OSError` and none, or with another exception. -/
inductive Popen where
  | child
  | none
  | lost (made : Bool) (stop : Stop)

structure Task (F : Type) where
  site : Site F
  operationId : String
  requestDigest : String
  launchDigest : String

structure Env (F : Type) where
  task : Task F
  fault : Nat → Option Stop
  io : Nat → Io
  uuid : Nat → String
  authorized : Nat → Except Fault Unit
  collides : Nat → Bool
  popen : Nat → Popen
  unitClosed : Nat → Except Stop Bool
  meanwhile : Nat → Option (Option Result)

/-- A launcher's fields. An intent is known by the attempt that created it. -/
structure Launcher (F : Type) where
  gated : Bool
  loaded : Option Loaded
  prepared : Option Prepared
  process : Bool
  complete : Bool
  result : Option Result
  failure : Bool
  localFailure : Option Pending
  intentFd : Option Nat
  intentIdentity : Option Nat
  admission : Option (Responsibility F)
  attempt : Option String
  unstarted : Option (Responsibility F)
  popenUnresolved : Bool
  recoveryPending : Bool
  started : Bool
  finished : Bool

/-- A visible step of the attempt of a number: its intent made durable, its dispatch
acknowledged, `Popen` called with what a crash would leave of the intent, a child created,
its intent moved away; an admission closed as never dispatched; a result captured or
published. -/
inductive Mark where
  | committed (attempt : Nat)
  | dispatched (attempt : Nat) (id : String)
  | popen (attempt : Nat) (gated : Bool) (id : Option String) (intents : List (Option Nat))
  | child (attempt : Nat) (id : Option String)
  | moved (attempt : Nat)
  | closing (id : String)
  | captured (result : Result)
  | published (result : Result)

/-- The directory, the gate and the launcher, if one is alive. -/
structure Core (F : Type) where
  intent : File (Option Nat)
  startedFile : File Bool
  finishedFile : File (Option Completion)
  gate : File (Option (Gate F))
  attempts : Nat
  retained : List Nat
  alive : Bool
  self : Launcher F
  trace : List Mark

abbrev Act (F : Type) := Op (Core F) Stop

/-! ## Steps -/

def uncertain (message : String) : Stop := .raised (.job "IO_UNCERTAIN" message)

def invalid (code : String) : Stop := .raised (.value code)

def self : Act F (Launcher F) := do return (← core).self

def update (f : Launcher F → Launcher F) : Act F Unit := change fun c => { c with self := f c.self }

def Core.mark (c : Core F) (k : Mark) : Core F := { c with trace := c.trace ++ [k] }

/-- `os.fsync(self.directory)` -/
def Core.sync (c : Core F) : Core F :=
  { c with intent := c.intent.sync, startedFile := c.startedFile.sync, finishedFile := c.finishedFile.sync }

/-- A call of the gate that may write. -/
def gateCall {ρ : Type} (env : Env F) (op : Io → Maintenance.Op F ρ) : Act F ρ := do
  let io ← ask env.io
  let c ← core
  match op io c.gate.now with
  | (.ok reply, record) => do
    change fun c => { c with gate := (c.gate.replace record).sync }
    pass env.fault
    return reply
  | (.error fault, record) => do
    change fun c => { c with gate := c.gate.replace record }
    pass env.fault
    raise (.raised fault)

/-- A call of the gate that reads. -/
def gateRead {ρ : Type} (env : Env F) (op : Io → Maintenance.Op F ρ) : Act F ρ := do
  let io ← ask env.io
  let c ← core
  pass env.fault
  lift ((op io c.gate.now).1.mapError .raised)

def neverDispatched : Value F := .obj [("never_dispatched", .bool true)]

def processExited : Value F := .obj [("process_exited", .bool true), ("writers_stopped", .bool true)]

/-! ## Local failures -/

/-- `_pin_intent` -/
def pinIntent (env : Env F) : Act F Unit := do
  let l ← self
  let attempt ← lift (l.intentFd.elim (.error (.raised (.key "intent_fd"))) .ok)
  pass env.fault
  update fun l => { l with intentIdentity := some attempt, intentFd := none }
  pass env.fault

def pinUnpinned (env : Env F) : Act F Unit := do
  let l ← self
  if l.intentIdentity.isNone then pinIntent env else return

/-- The identity of a failure's intent. -/
def pinPending (env : Env F) : Act F Nat := do
  let l ← self
  match l.localFailure.bind Pending.identity with
  | some identity => return identity
  | none => do
    pinUnpinned env
    update fun l => { l with localFailure := l.localFailure.map fun pending => { pending with identity := l.intentIdentity } }
    let l ← self
    lift (l.intentIdentity.elim (.error (.raised (.key "identity"))) .ok)

/-- The attempts to move an intent away, under a name that is not taken. -/
def moveAway (env : Env F) (identity : Nat) : Nat → Act F Unit
  | 0 => raise (.raised .os)
  | more + 1 => do
    pass env.fault
    let c ← core
    match c.intent.now with
    | none => return
    | some attempt => do
      demand (attempt = identity) (invalid "PREPARED_INTENT_CHANGED")
      if ← ask env.collides then moveAway env identity more
      else do
        pass env.fault
        change fun c => { c with intent := c.intent.replace none, retained := c.retained ++ [attempt] }.mark (.moved attempt)

def retireIntent (env : Env F) (identity : Nat) : Act F Unit := do
  pass env.fault
  moveAway env identity 8
  let c ← core
  demand (c.retained.contains identity) (.raised .os)
  pass env.fault
  change Core.sync
  pass env.fault
  let c ← core
  demand c.intent.now.isNone (invalid "PREPARED_INTENT_CHANGED")
  update fun l => { l with localFailure := none, intentIdentity := none }

/-- `_finish_local_failure` -/
def finishLocalFailure (env : Env F) : Act F Unit := do
  let l ← self
  if l.localFailure.isNone then return
  else do
    catching Stop.isFile (do retireIntent env (← pinPending env))
      fun _ => raise (uncertain "Unstarted attempt retained; failure publication needs retry")

/-- `_retain_unstarted_intent` -/
def retainUnstartedIntent (env : Env F) (label : String) : Act F Unit := do
  update fun l => { l with localFailure := some ⟨label, l.intentIdentity⟩ }
  finishLocalFailure env

/-! ## Admissions -/

/-- `_finish_unstarted_admission` -/
def finishUnstartedAdmission (env : Env F) : Act F Unit := do
  let l ← self
  match l.unstarted with
  | none => return
  | some receipt => do
    demand (l.admission = some receipt && !l.process && !l.started && l.attempt.all (· = receipt.attemptId))
      (uncertain "Original no-child admission identity changed")
    change fun c => c.mark (.closing receipt.id)
    catching Stop.isLocal (do let _ ← gateCall env fun io => Maintenance.finish env.task.site io receipt.receipt neverDispatched)
      fun _ => raise (uncertain "Original no-child admission still needs closure")
    update fun l => { l with admission := none, unstarted := none, attempt := none }

/-- The execution the launcher's preparation was admitted for. -/
def ours (env : Env F) (l : Launcher F) (duty : Responsibility F) : Bool :=
  duty.kind = .execute && duty.operationId = env.task.operationId && match duty.binding with
    | .obj fields => (lookup fields "prepared").getD .null = (l.prepared.map Prepared.toValue).getD .null
    | _ => false

/-- `_restore_maintenance_admission` -/
def restoreMaintenanceAdmission (env : Env F) (duties : List (Responsibility F)) : Act F Unit := do
  let l ← self
  demand ((duties.filter (ours env l)).length ≤ 1) (uncertain "Several execution admissions need original-state inspection")
  update fun l => { l with admission := (duties.filter (ours env l)).head?, recoveryPending := false }
  let l ← self
  if l.admission.any (·.state = .accepted) && !l.started then do
    update fun l => { l with unstarted := l.admission }
    finishUnstartedAdmission env
  else return

/-- `_retry_maintenance_recovery` -/
def retryMaintenanceRecovery (env : Env F) : Act F Unit := do
  let l ← self
  if l.recoveryPending then
    catching Stop.isLocal (do restoreMaintenanceAdmission env (← gateRead env (Maintenance.active env.task.site)))
      fun _ => raise (uncertain "Original execution admissions need state inspection")
  else return

/-- The unit of a controller that failed is closed. -/
def checkUnit (env : Env F) (result : Result) : Act F Bool :=
  if result.returncode = 0 then return true
  else do
    let answer ← ask env.unitClosed
    lift answer

/-- `_maintenance_finish` -/
def maintenanceFinish (env : Env F) : Act F Unit := do
  let l ← self
  match l.admission, l.result with
  | some receipt, some result =>
    if l.gated && l.finished && result.streamsEof then
      catching Stop.isLocal (do
        if ← checkUnit env result then do
          let _ ← gateCall env fun io => Maintenance.finish env.task.site io receipt.receipt processExited
        else return) fun _ => return
    else return
  | _, _ => return

/-! ## Completion -/

/-- The record published, where there is none. -/
def publishRecord (env : Env F) (result : Result) : Act F Unit := do
  let c ← core
  if c.finishedFile.now.isNone then do
    pass env.fault
    change fun c => { c with finishedFile := c.finishedFile.replace (some (.record result)) }.mark (.published result)
  else return

/-- `_publish_completion` -/
def publishCompletion (env : Env F) : Act F Unit := do
  let l ← self
  let result ← lift (l.result.elim (.error (.raised (.key "result"))) .ok)
  pass env.fault
  publishRecord env result
  pass env.fault
  let c ← core
  demand (c.finishedFile.now = some (.record result)) (invalid "PREPARED_COMPLETION_CHANGED")
  pass env.fault
  change Core.sync
  pass env.fault

inductive Status where
  | idle | running | exited
  deriving DecidableEq

/-- A launcher whose process was started by it. -/
def stateOfProcess (env : Env F) : Act F Status := do
  let l ← self
  if l.complete then do
    catching Stop.isFile (publishCompletion env) fun _ => raise (uncertain "Controller exited; completion record needs publication")
    update fun l => { l with finished := true }
    maintenanceFinish env
    return .exited
  else return .running

def stateOfNone (env : Env F) : Act F Status := do
  let l ← self
  demand (!l.started) (uncertain "A prior launch is unresolved; inspect the original task")
  retryMaintenanceRecovery env
  let l ← self
  demand (l.admission.all (·.state ≠ .dispatching)) (uncertain "Original execution admission has no local no-child proof")
  return .idle

def stateOfFinished (env : Env F) : Act F Status := do
  catching Stop.isJob (retryMaintenanceRecovery env) fun _ => return
  maintenanceFinish env
  return .exited

/-- `state` -/
def state (env : Env F) : Act F Status := do
  finishLocalFailure env
  let l ← self
  demand (!l.popenUnresolved) (uncertain "Original controller process creation is unresolved")
  finishUnstartedAdmission env
  let l ← self
  demand (!l.failure) (uncertain "Prepared controller capture needs inspection")
  if l.finished then stateOfFinished env
  else if l.process then stateOfProcess env
  else stateOfNone env

/-- The admission of an attempt whose acceptance was not answered. -/
def checkRetired (env : Env F) (l : Launcher F) (duty : Responsibility F) : Bool :=
  duty.binding = .obj [("prepared", (l.prepared.map Prepared.toValue).getD .null)] && some duty.loaded = l.loaded
    && l.prepared.any (·.resourceDigest = env.task.launchDigest)
    && (duty.state = .accepted || (duty.state = .closed && duty.proof = some .neverDispatched))

/-- `retire_unstarted_admission` -/
def retireUnstartedAdmission (env : Env F) : Act F Unit := do
  finishLocalFailure env
  let l ← self
  demand (!l.popenUnresolved) (uncertain "Original controller process creation is unresolved")
  retryMaintenanceRecovery env
  finishUnstartedAdmission env
  let l ← self
  demand l.admission.isNone (uncertain "Original execution admission still needs reconciliation")
  match l.attempt with
  | none => return
  | some attempt => do
    demand (!l.process && !l.started && !l.finished) (uncertain "Original acceptance has no local no-child proof")
    let gate ← gateRead env (Maintenance.snapshot env.task.site)
    match Maintenance.matching gate (.execute, env.task.operationId, attempt) with
    | [] => return
    | [duty] => do
      demand (checkRetired env l duty) (uncertain "Original acceptance binding or no-child state differs")
      update fun l => { l with admission := some duty, unstarted := some duty }
      finishUnstartedAdmission env
    | _ => raise (uncertain "Original acceptance binding or no-child state differs")

/-! ## Launching -/

/-- The intent of a new attempt, in the directory. -/
def Core.intend (c : Core F) : Core F :=
  { c with intent := c.intent.replace (some c.attempts), attempts := c.attempts + 1,
           self := { c.self with intentFd := some c.attempts, intentIdentity := none } }

/-- The intent written, synced and pinned. -/
def writeIntent (env : Env F) (attempt : Nat) : Act F Unit := do
  pass env.fault
  change fun c => c.sync.mark (.committed attempt)
  pinIntent env

/-- `_commit_intent`, and the attempt it is of. -/
def commitIntent (env : Env F) : Act F Nat := do
  let c ← core
  if c.intent.now.isSome then do
    update fun l => { l with started := true }
    raise (uncertain "A prior launch intent requires inspection")
  else do
    catching (fun stop => stop matches .raised .os) (pass env.fault)
      fun _ => raise (uncertain "Launch intent could not be opened; no process was created")
    change Core.intend
    catching Stop.isFile (writeIntent env c.attempts) fun _ => do
      retainUnstartedIntent env "local-intent-failed"
      raise (uncertain "Launch intent could not be committed; no process was created")
    return c.attempts

/-- The dispatch of the admission, where there is a gate. -/
def dispatchAdmission (env : Env F) (attempt : Nat) : Act F Unit := do
  let l ← self
  if l.gated then
    catching (fun stop => stop matches .raised _) (do
      let receipt ← lift (l.admission.elim (.error (.raised (.key "admission"))) .ok)
      let authorized ← ask env.authorized
      let _ ← gateCall env fun io => Maintenance.dispatch env.task.site io authorized receipt.receipt
      change fun c => c.mark (.dispatched attempt receipt.id)) fun stop => do
        retainUnstartedIntent env "local-maintenance-failed"
        raise stop
  else return

/-- `Popen`, while its outcome is unresolved. -/
def createProcess (env : Env F) (attempt : Nat) : Act F Unit := do
  update fun l => { l with popenUnresolved := true }
  change fun c => c.mark (.popen attempt c.self.gated (c.self.admission.map Responsibility.id) (c.intent.now :: c.intent.unsynced))
  match ← ask env.popen with
  | .child =>
    change fun c => { c with self := { c.self with process := true } }.mark (.child attempt (c.self.admission.map Responsibility.id))
  | .none => raise (.raised .os)
  | .lost made stop => do
    change fun c => if made then c.mark (.child attempt (c.self.admission.map Responsibility.id)) else c
    raise stop

/-- The capture worker started, and the caller still authorized. -/
def startWorker (env : Env F) : Act F Unit :=
  catching (fun stop => stop matches .raised _) (pass env.fault) fun stop => do
    retainUnstartedIntent env "local-start-failed"
    raise (match stop with
      | .raised (.key _) => stop
      | _ => uncertain "Controller capture could not be started; no process was created")

def recheckAuthorization (env : Env F) : Act F Unit :=
  catching Stop.isJob (pass env.fault) fun stop => do
    retainUnstartedIntent env "local-authorization-expired"
    raise stop

/-- What is between the commit of an intent and a child. -/
def deliver (env : Env F) (attempt : Nat) : Act F Unit := do
  startWorker env
  recheckAuthorization env
  catching (fun stop => stop matches .raised .os) (do
    dispatchAdmission env attempt
    createProcess env attempt) fun _ => do
      update fun l => { l with popenUnresolved := false }
      retainUnstartedIntent env "local-start-failed"
      raise (uncertain "Controller process could not be created")
  update fun l => { l with popenUnresolved := false, started := true }

/-- `_capture`: what the worker makes of the child's end. -/
def Core.capture (c : Core F) (outcome : Option Result) : Core F :=
  if c.self.process && !c.self.complete && !c.self.failure then
    match outcome with
    | some result => { c with self := { c.self with complete := true, result := some result } }.mark (.captured result)
    | none => { c with self := { c.self with failure := true } }
  else c

/-- The worker while a start waits. -/
def interlude (env : Env F) : Act F Unit := do
  match ← ask env.meanwhile with
  | none => return
  | some outcome => do
    change fun c => c.capture outcome
    catching Stop.isJob (do let _ ← state env) fun _ => return

/-- What follows a delivery: `started.json`, and the wait for the controller's endpoint. -/
def announce (env : Env F) : Act F Status := do
  pass env.fault
  change fun c => { c with startedFile := c.startedFile.replace true }
  pass env.fault
  change Core.sync
  interlude env
  pass env.fault
  state env

/-- `_start` -/
def startAttempt (env : Env F) : Act F Status := do
  pass env.fault
  let status ← state env
  if status = .idle then do
    pass env.fault
    let attempt ← commitIntent env
    deliver env attempt
    announce env
  else return status

/-- An attempt that left no child is closed. -/
def closeUnstarted (env : Env F) (receipt : Responsibility F) : Act F Unit := do
  let l ← self
  if !l.process && !l.started && !l.popenUnresolved then do
    update fun l => { l with unstarted := some receipt }
    catching Stop.isJob (finishUnstartedAdmission env) fun _ => return
  else return

/-- The admission of a start. -/
def acceptAdmission (env : Env F) : Act F (Responsibility F) := do
  let l ← self
  demand l.admission.isNone (uncertain "Original execution admission still needs reconciliation")
  demand (l.prepared.any fun p => p.requestDigest = env.task.requestDigest && p.resourceDigest = env.task.launchDigest)
    (.raised (.job "STALE_DEPLOYMENT" "Original prepared resources differ from their deployment binding"))
  let drawn ← ask env.uuid
  update fun l => { l with attempt := some (l.attempt.getD drawn) }
  let l ← self
  let loaded ← lift (l.loaded.elim (.error (.raised (.key "loaded"))) .ok)
  let identity ← ask env.uuid
  let authorized ← ask env.authorized
  let receipt ← gateCall env fun io => Maintenance.accept env.task.site io identity authorized (some .execute) env.task.operationId
    (l.attempt.getD drawn) (.obj [("prepared", (l.prepared.map Prepared.toValue).getD .null)]) loaded l.prepared
  update fun l => { l with admission := some receipt, attempt := none }
  return receipt

def startAdmitted (env : Env F) : Act F Status := do
  let receipt ← acceptAdmission env
  catching (fun stop => stop matches .raised _) (startAttempt env) fun stop => do
    closeUnstarted env receipt
    raise stop

/-- `start` -/
def start (env : Env F) : Act F Status := do
  pass env.fault
  let status ← state env
  if status = .idle then do
    let l ← self
    if l.gated then startAdmitted env else startAttempt env
  else state env

/-! ## Runs -/

/-- A launcher as the constructor finds the directory. -/
def Core.fresh (c : Core F) (gate : Option (Loaded × Option Prepared)) : Launcher F where
  gated := gate.isSome
  loaded := gate.map Prod.fst
  prepared := gate.bind Prod.snd
  process := false
  complete := false
  result := none
  failure := false
  localFailure := none
  intentFd := none
  intentIdentity := none
  admission := none
  attempt := none
  unstarted := none
  popenUnresolved := false
  recoveryPending := gate.isSome
  started := c.startedFile.now || c.intent.now.isSome
  finished := c.finishedFile.now.isSome

/-- The result of a finished directory. -/
def loadFinished (env : Env F) : Act F Unit := do
  let c ← core
  match c.finishedFile.now with
  | none => return
  | some .other => raise (invalid "PREPARED_EXIT_PROOF")
  | some (.record result) => do
    pass env.fault
    demand result.streamsEof (invalid "PREPARED_EXIT_PROOF")
    update fun l => { l with result := some result }

/-- `__init__` -/
def construct (env : Env F) (gate : Option (Loaded × Option Prepared)) : Act F Unit := do
  pass env.fault
  change fun c => { c with alive := true, self := c.fresh gate }
  loadFinished env
  let l ← self
  if l.gated then do
    let duties ← catching Stop.isJob (do return some (← gateRead env (Maintenance.active env.task.site))) fun _ => return none
    match duties with
    | none => return
    | some duties => restoreMaintenanceAdmission env duties
  else return

/-- How far back a crash takes each file. -/
structure Back where
  intent : Option Nat
  started : Option Nat
  finished : Option Nat
  gate : Option Nat

def Core.crash (c : Core F) (back : Back) : Core F :=
  { c with intent := c.intent.crash back.intent, startedFile := c.startedFile.crash back.started,
           finishedFile := c.finishedFile.crash back.finished, gate := c.gate.crash back.gate, alive := false }

inductive Label (F : Type) where
  | construct (gate : Option (Loaded × Option Prepared))
  | start
  | state
  | retire
  | capture (outcome : Option Result)
  | moveGate (call : Startup.GateCall F) (io : Io)
  | crash

/-- A call to its end, or to a crash within it. -/
def finishCall {α : Type} (back : Back) : Except Stop α × World (Core F) → World (Core F)
  | (.error .crashed, w) => { w with core := w.core.crash back }
  | (_, w) => w

/-- A construction to its end: one that raises leaves no launcher. -/
def finishConstruction (back : Back) : Except Stop Unit × World (Core F) → World (Core F)
  | (.error .crashed, w) => { w with core := w.core.crash back }
  | (.error (.raised _), w) => { w with core := { w.core with alive := false } }
  | (.ok _, w) => w

/-- Another caller moves the gate between owners. -/
def Core.moveGate (env : Env F) (c : Core F) (call : Startup.GateCall F) (io : Io) : Core F :=
  { c with gate := c.gate.replace (Maintenance.step env.task.site c.gate.now (call.call, io)) }

def step (env : Env F) (w : World (Core F)) : Label F × Back → World (Core F)
  | (.construct gate, back) => if w.core.alive then w else finishConstruction back ((construct env gate).from w)
  | (.start, back) => if w.core.alive then finishCall back ((start env).from w) else w
  | (.state, back) => if w.core.alive then finishCall back ((state env).from w) else w
  | (.retire, back) => if w.core.alive then finishCall back ((retireUnstartedAdmission env).from w) else w
  | (.capture outcome, _) => if w.core.alive then { w with core := w.core.capture outcome } else w
  | (.moveGate call io, _) => { w with core := w.core.moveGate env call io }
  | (.crash, back) => { w with core := w.core.crash back }

/-- An output directory and a gate, before any launcher that the run makes. An intent there
is of an attempt before. -/
def prior (intent started : Bool) (finished : Option Completion) (gate : Option (Gate F)) : World (Core F) :=
  ⟨0, ⟨⟨if intent then some 0 else none, []⟩, ⟨started, []⟩, ⟨finished, []⟩, ⟨gate, []⟩, 1, [], false,
    ⟨false, none, none, false, false, none, false, none, none, none, none, none, none, false, false, false, false⟩, []⟩⟩

end LocalHand.FixedLauncher
