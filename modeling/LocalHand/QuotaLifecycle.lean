/-
The exit observation of a quota stage (`observe` and `observe_recovered` of `quota_lifecycle.py`).

A part is filled over many calls. A call pumps the pipes, asks the manager for the unit, and ends
with a request to stop it, with the unit running, or with the proof that it has exited. What the
manager, the clocks, the pipes and the client answer is asked for anew in each call; the trace
keeps what a call accepted of it.
-/
import LocalHand.Lib.Program

namespace LocalHand.QuotaLifecycle

open Program

/-- An exception, by its class. A `QuotaError` is a `ValueError`, a `BlockingIOError` an `OSError`. -/
inductive Exc where
  | quota (code : String)
  | value
  | runtime
  | job
  | blocking
  | os
  | other
  deriving Repr, DecidableEq

/-- `(ValueError, RuntimeError, JobError)` -/
def Exc.isRejection : Exc → Bool
  | .quota _ | .value | .runtime | .job => true
  | _ => false

/-- `(JobError, ValueError)` -/
def Exc.isInvalid : Exc → Bool
  | .quota _ | .value | .job => true
  | _ => false

/-- `(OSError, ValueError)` -/
def Exc.isUncertain : Exc → Bool
  | .quota _ | .value | .os | .blocking => true
  | _ => false

/-- `type(error).__name__` -/
def Exc.name : Exc → String
  | .quota _ => "QuotaError"
  | .value => "ValueError"
  | .runtime => "RuntimeError"
  | .job => "JobError"
  | .blocking => "BlockingIOError"
  | .os => "OSError"
  | .other => "Exception"

/-- `str.isdigit` and `int` of a text. -/
structure Decimal where
  isdigit : String → Bool
  int : String → Except Exc Int

inductive Stream where
  | stdout
  | stderr
  deriving Repr, DecidableEq

/-- What `parent` pins of a cgroup. -/
structure Pin where
  path : String
  device : Nat
  inode : Nat
  deriving Repr, DecidableEq

structure Clock where
  bootId : String
  boottimeNs : Int
  deriving Repr, DecidableEq

/-- A manager's binding, as far as it is compared here. -/
structure Binding where
  bootId : String
  parent : Pin
  deriving Repr, DecidableEq

/-- The properties of a unit. -/
abbrev Values := List (String × String)

def Values.get (values : Values) (name : String) : String := (values.lookup name).getD ""

structure Identity where
  bootId : String
  invocationId : String
  cgroup : String
  deriving Repr, DecidableEq

/-- A `Transport`, its hashes by what they were updated with. -/
structure Transport where
  limit : Nat
  total : Nat
  eof : List Stream
  error : Option String
  hashes : List (Stream × List UInt8)
  deriving Repr, DecidableEq

/-- `record` -/
structure Record where
  bytes : Nat
  eof : List Stream
  error : Option String
  returncode : Option Int
  digests : List (Stream × List UInt8)
  deriving Repr, DecidableEq

/-- What a stage's digest is taken of. -/
structure Evidence where
  identity : Identity
  terminal : Option Values
  after : Values
  transport : Record
  parent : Pin
  stopObservation : Option Values
  managerBinding : Option Binding
  deriving Repr, DecidableEq

/-- `quota_exit` -/
structure Exit where
  identity : Identity
  unit : String
  parent : Pin
  proof : Evidence
  observedNs : Int
  deriving Repr, DecidableEq

structure Result where
  outcome : String
  bootstrapPrepared : Option Bool
  businessStarted : Option Bool
  helperStarted : Option Bool
  quotaObservation : Option String
  deriving Repr, DecidableEq

/-- A proof that the unit has exited. -/
structure Proof where
  futureStartBlocked : Bool
  treeExited : Bool
  collectorsStopped : Bool
  writersStopped : Bool
  effectsChecked : Bool
  launchPrevented : Bool
  exitCode : Option Int
  executionId : String
  unit : String
  identity : Option Identity
  result : Result
  missing : List String
  deadlineExpired : Bool
  observedNs : Option Int
  deriving Repr, DecidableEq

structure Part where
  unit : String
  bootId : String
  cgroupParent : String
  executionId : String
  bootstrap : Bool
  quotaPipe : Bool
  reader : Bool
  recovered : Bool
  launched : Bool
  nonblocking : Bool
  deadline : Int
  quotaParent : Option Pin
  invocationId : Option String
  launchAcked : Bool
  transport : Transport
  quotaTerminal : Option Values
  stopObservation : Option Values
  stopAttempted : Bool
  stopOk : Bool
  cancelStop : Bool
  deadlineStop : Bool
  quotaExit : Option Exit
  quotaFinal : Option Proof
  pipeClosed : Bool
  pipeError : Option String
  stopAcked : Bool
  notDelivered : Bool
  recoveryIdentity : Option Values
  recoveryTerminal : Option Values
  recoveryStopAttempted : Bool
  recoveryStopOk : Bool
  recoveryFinal : Option Proof
  deriving Repr, DecidableEq

/-- What a call returns. -/
inductive Answer where
  | unknown (identity : Identity) (reason : String)
  | running (identity : Identity)
  | exited (proof : Proof)
  deriving Repr, DecidableEq

/-- What the last branch of a call is answered: the properties it goes by, the parent and whether it is
empty, the clock, and the client's two polls. -/
structure Ending where
  after : Values
  parent : Pin
  empty : Bool
  now : Clock
  status : Option Int
  again : Option Int
  deriving Repr, DecidableEq

inductive Event where
  /-- A loaded observation whose identity was taken. -/
  | loaded (values : Values)
  /-- The invocation read back before a stop, and the stop. -/
  | readBack (invocation : String)
  | stop (acknowledged : Bool)
  /-- The receipt's pipe or the reader refuses what it is fed. -/
  | rejected
  | ended (ending : Ending)
  deriving Repr, DecidableEq

structure World where
  part : Part
  trace : List Event
  deriving DecidableEq

abbrev Act (α : Type) := Prog World Exc α

/-- An answer of `systemctl show`, its lines split at their first `=`. -/
structure Reply where
  returncode : Int
  rows : Except Exc (List (String × Option String))

/-- What a call is answered. -/
structure Call where
  now : Except Exc Clock
  binding : Except Exc (Option Binding)
  read : Stream → Except Exc (List UInt8)
  fed : Option Exc
  shown : Except Exc Reply
  bound : Option Exc
  requested : Bool
  same : Except Exc (Int × String)
  stopped : Except Exc Int
  parent : Except Exc (Pin × Bool)
  after : Except Exc Clock
  requestedAfter : Bool
  status : Except Exc (Option Int)
  again : Except Exc (Option Int)
  receipt : Except Exc String
  requestedLast : Bool
  result : Option Exc
  last : Except Exc (Option Int)
  digested : Option Exc
  closed : Stream → Option Exc

def raised : Option Exc → Act Unit
  | none => pure ()
  | some e => throw e

def answered {α : Type} : Except Exc α → Act α
  | .ok a => pure a
  | .error e => throw e

/-- `q.require` -/
def require (condition : Bool) (code : String) : Act Unit := if condition then pure () else throw (.quota code)

def part : Act Part := do return (← get).part

def update (f : Part → Part) : Act Unit := modify fun w => { w with part := f w.part }

def note (event : Event) : Act Unit := modify fun w => { w with trace := w.trace ++ [event] }

/-! ## The pipes -/

/-- `self.error = self.error or code` -/
def Transport.fault (t : Transport) (code : String) : Transport := { t with error := t.error.or (some code) }

/-- What was read is counted. -/
def Transport.receive (t : Transport) (stream : Stream) (raw : List UInt8) : Transport :=
  let t := { t with total := t.total + raw.length, hashes := t.hashes ++ [(stream, raw)] }
  let t := if t.limit < t.total then t.fault "PIPE_BYTE_LIMIT" else t
  if raw.isEmpty then { t with eof := stream :: t.eof } else t

/-- What was read of the standard output is fed to the receipt's pipe, or to the reader. -/
def feed (call : Call) (raw : List UInt8) : Act Unit := do
  let p ← part
  if p.transport.error.isNone && (p.quotaPipe || p.reader && !raw.isEmpty) then
    match call.fed with
    | none => pure ()
    | some e =>
      if e.isRejection then do
        note .rejected
        update fun p => { p with transport := { p.transport with error := some "PIPE_FRAME_REJECTED" } }
      else throw e
  else pure ()

def pumpStream (call : Call) (stream : Stream) : Act Unit := do
  let p ← part
  if stream ∈ p.transport.eof then pure ()
  else
    match call.read stream with
    | .error .blocking => pure ()
    | .error e =>
      if e.isUncertain then update fun p => { p with transport := p.transport.fault "PIPE_READ_UNCERTAIN" }
      else throw e
    | .ok raw => do
      update fun p => { p with transport := p.transport.receive stream raw }
      if stream = .stdout then feed call raw else pure ()

/-- `pump` -/
def pump (call : Call) : Act Unit := do
  let p ← part
  require (p.launched && p.nonblocking) "PIPE_SETUP_UNPROVEN"
  pumpStream call .stdout
  pumpStream call .stderr

/-! ## The unit -/

/-- `FIELDS` -/
def fields : List String :=
  ["Id", "LoadState", "ActiveState", "SubState", "ControlGroup", "InvocationID", "Job",
   "ExecMainCode", "ExecMainStatus", "Result", "Restart", "TriggeredBy", "ExecStop",
   "ExecStopPost", "ExecReload", "KillMode", "Type", "ExitType", "RemainAfterExit",
   "ExecStartPre", "ExecStartPost", "OnFailure", "OnSuccess", "RestartForceExitStatus"]

/-- The hooks that a manager leaves out. -/
def hooks : List String := ["ExecStartPre", "ExecStartPost", "ExecStop", "ExecStopPost", "ExecReload"]

/-- `values.setdefault(hook, "")` -/
def setDefault (values : Values) (name : String) : Values := if (values.map (·.1)).contains name then values else values ++ [(name, "")]

/-- `q._keys(values, set(FIELDS))` -/
def hasFields (values : Values) : Bool := (values.map (·.1)).all fields.contains && fields.all (values.map (·.1)).contains

/-- The properties of an answer. -/
def properties (shown : Except Exc Reply) : Act Values := do
  let response ← answered shown
  require (response.returncode = 0) "UNIT_SHOW_FAILED"
  let pairs ← answered response.rows
  require (pairs.all (·.2.isSome) && decide (pairs.map (·.1)).Nodup) "UNIT_PROPERTIES"
  let values := hooks.foldl setDefault (pairs.map fun pair => (pair.1, pair.2.getD ""))
  require (hasFields values) "FIELDS"
  return values

/-- `[0-9a-f]{32}` -/
def isInvocation (text : String) : Bool :=
  text.length = 32 && text.toList.all fun c => ('0' ≤ c && c ≤ '9') || ('a' ≤ c && c ≤ 'f')

/-- The properties that a stage's unit was started with. -/
def required : Values :=
  [("Restart", "no"), ("TriggeredBy", ""), ("ExecStop", ""), ("ExecStopPost", ""), ("ExecReload", ""),
   ("KillMode", "control-group"), ("Type", "exec"), ("ExitType", "cgroup"), ("RemainAfterExit", "yes"),
   ("ExecStartPre", ""), ("ExecStartPost", ""), ("OnFailure", ""), ("OnSuccess", ""), ("RestartForceExitStatus", "")]

/-- `_loaded_identity` -/
def loadedIdentity (values : Values) : Act Identity := do
  let p ← part
  require (hasFields values) "FIELDS"
  require (values.get "Id" = p.unit && values.get "LoadState" = "loaded") "ORIGINAL_UNIT_MISSING"
  require (isInvocation (values.get "InvocationID")) "IDENTITY"
  require (p.invocationId = none || p.invocationId = some (values.get "InvocationID")) "ORIGINAL_INVOCATION_CHANGED"
  -- The `quota_parent` is looked up here.
  let pin ← answered (p.quotaParent.elim (.error .other) .ok)
  let expected := pin.path ++ "/" ++ p.unit
  require (values.get "ControlGroup" = expected || values.get "ControlGroup" = "") "ORIGINAL_CGROUP_CHANGED"
  require (required.all fun pair => values.get pair.1 = pair.2) "UNIT_CONFIG_CHANGED"
  return ⟨p.bootId, values.get "InvocationID", expected⟩

/-- `_terminal` -/
def terminal (values : Values) : Bool :=
  values.get "SubState" = "exited" || values.get "ActiveState" = "inactive" || values.get "ActiveState" = "failed"

/-- No job is queued. -/
def jobless (values : Values) : Bool := values.get "Job" = "" || values.get "Job" = "0"

def inactive (values : Values) : Bool := values.get "ActiveState" = "inactive" || values.get "ActiveState" = "failed"

/-- The unit is absent. -/
def absent (p : Part) (values : Values) : Bool :=
  values.get "LoadState" = "not-found" && values.get "Id" = p.unit && values.get "InvocationID" = "" &&
  values.get "ControlGroup" = "" && values.get "ActiveState" = "inactive" && values.get "SubState" = "dead" && jobless values

/-- The parent is the pinned one; whether it is empty. -/
def parentEmpty (call : Call) : Act (Pin × Bool) := do
  let p ← part
  let (pin, empty) ← answered call.parent
  require (some pin = p.quotaParent) "ORDINARY_PARENT_CHANGED"
  return (pin, empty)

/-! ## `observe` -/

/-- The manager's binding, checked against the boot and the pinned parent. -/
def manager (call : Call) (now : Clock) : Act (Option Binding) := do
  let p ← part
  match ← answered call.binding with
  | none => return none
  | some bound => do
    answered (if bound.bootId = now.bootId && some bound.parent = p.quotaParent then .ok () else .error .job)
    require (p.cgroupParent = "/sys/fs/cgroup" ++ bound.parent.path) "ORIGINAL_MANAGER_PARENT_CHANGED"
    return some bound

/-- The unit is asked to stop right after its invocation was read back. -/
def requestStop (call : Call) (values : Values) (identity : Identity) (expired : Bool) : Act Answer := do
  update fun p => { p with stopAttempted := true }
  let (returncode, invocation) ← answered call.same
  note (.readBack invocation)
  require (returncode = 0 && invocation = identity.invocationId) "ORIGINAL_INVOCATION_CHANGED"
  update fun p => { p with stopObservation := some values, cancelStop := call.requested, deadlineStop := expired }
  let returncode ← answered call.stopped
  note (.stop (returncode = 0))
  update fun p => { p with stopOk := returncode = 0 }
  return .unknown identity "stop requested; original unit exit and pipe EOF remain unproven"

/-- The identity of a loaded unit is taken. -/
def bind (values : Values) : Act Identity := do
  let identity ← loadedIdentity values
  note (.loaded values)
  update fun p => { p with invocationId := some identity.invocationId, launchAcked := true }
  return identity

/-- The first terminal status is retained. -/
def retain (values : Values) : Act Unit :=
  if terminal values then update fun p => { p with quotaTerminal := p.quotaTerminal.or (some values) } else pure ()

def observeLoaded (call : Call) (values : Values) (expired : Bool) : Act (Identity × Option Answer) := do
  let identity ← bind values
  let p ← part
  raised (if p.reader then call.bound else none)
  retain values
  let p ← part
  if (terminal values || expired || p.transport.error.isSome || call.requested) && !p.stopOk then do
    let answer ← requestStop call values identity expired
    return (identity, some answer)
  else if !terminal values then return (identity, some (.running identity))
  else return (identity, none)

/-- The identity of a unit that is gone, from what was retained of it. -/
def observeAbsent (values : Values) : Act Identity := do
  let p ← part
  require (absent p values && p.stopAttempted && p.stopOk && p.launchAcked && p.invocationId.isSome) "ORIGINAL_UNIT_MISSING"
  match p.quotaTerminal with
  | some status => do
    let identity ← loadedIdentity status
    require (terminal status) "ORIGINAL_TERMINAL_UNPROVEN"
    return identity
  | none => do
    require ((p.cancelStop || p.deadlineStop) && p.stopObservation.isSome) "ORIGINAL_UNIT_MISSING"
    loadedIdentity (p.stopObservation.getD [])

section

variable (decimal : Decimal)

/-- The retained status of a main process that exited by itself. -/
def plainStatus (status : Option Values) : Option String :=
  match status with
  | some values => if values.get "ExecMainCode" = "1" && decimal.isdigit (values.get "ExecMainStatus") then some (values.get "ExecMainStatus") else none
  | none => none

def exitCode (p : Part) : Act (Option Int) :=
  match plainStatus decimal p.quotaTerminal with
  | some text => do
    let code ← answered (decimal.int text)
    return some code
  | none => do
    require (p.cancelStop || p.deadlineStop) "ORIGINAL_EXIT_STATUS"
    return none

/-- The client has exited, with `code` if there is one. -/
def clientExit (call : Call) (p : Part) (code : Option Int) : Act (Option Int × Option Int) := do
  require (decide (.stdout ∈ p.transport.eof) && decide (.stderr ∈ p.transport.eof) && p.transport.error.isNone) "ORIGINAL_CLIENT_EOF_UNPROVEN"
  let status ← answered call.status
  require status.isSome "ORIGINAL_CLIENT_EOF_UNPROVEN"
  match code with
  | none => return (status, none)
  | some code => do
    let again ← answered call.again
    require (again = some code) "ORIGINAL_CLIENT_EOF_UNPROVEN"
    return (status, again)

def unknownResult : Result := ⟨"UNKNOWN", none, none, none, none⟩

/-- The result of a stage that has exited, and what is missing of it. -/
def stageResult (call : Call) (p : Part) (late : Bool) (code : Option Int) : Act (Result × List String) :=
  if late then
    return ({ unknownResult with bootstrapPrepared := if p.bootstrap then some false else none,
                                 businessStarted := if p.bootstrap then some false else none, helperStarted := some true },
      ["Cancellation exit observed after runtime deadline; result and quota closure remain unverified"])
  else if p.quotaPipe && code.isSome then
    match call.receipt with
    | .ok observation =>
      return (⟨if code = some 0 then "SUCCEEDED" else "FAILED", some (code = some 0), some false, some true, some observation⟩, [])
    | .error (.quota reason) =>
      if (reason = "RECEIPT_EOF" || reason = "RECEIPT_FRAME") && call.requestedLast then
        return ({ unknownResult with bootstrapPrepared := some false, businessStarted := some false, helperStarted := some true },
          ["Bootstrap receipt unavailable after cancellation; preparation remains unverified"])
      else throw (.quota reason)
    | .error e => throw e
  else if p.reader then
    match call.result with
    | none => return (unknownResult, [])
    | some e =>
      if e.isInvalid then do
        update fun p => { p with pipeError := some ("Result validation failed: " ++ e.name) }
        return (unknownResult, ["Result validation failed: " ++ e.name])
      else throw e
  else return (unknownResult, [])

def closeStream (call : Call) (stream : Stream) : Act Unit :=
  match call.closed stream with
  | none => pure ()
  | some e =>
    if e = .os ∨ e = .blocking then update fun p => { p with transport := { p.transport with error := some "PIPE_CLOSE_UNCERTAIN" } }
    else throw e

/-- What the exit is concluded from. -/
def finalObservation (call : Call) (values : Values) : Act (Ending × Option Int) := do
  let (pin, empty) ← parentEmpty call
  let now ← answered call.after
  let p ← part
  require (now.bootId = p.bootId) "BOOT_CHANGED"
  require (!decide (p.deadline ≤ now.boottimeNs) || call.requestedAfter) "ORIGINAL_DEADLINE"
  require (p.stopOk && inactive values && jobless values && empty) "ORIGINAL_EXIT_UNPROVEN"
  let code ← exitCode decimal p
  let (status, again) ← clientExit call p code
  return (⟨values, pin, empty, now, status, again⟩, code)

/-- The proof of a unit that has exited. -/
def conclude (call : Call) (values : Values) (identity : Identity) (bound : Option Binding) : Act Proof := do
  let (ending, code) ← finalObservation decimal call values
  note (.ended ending)
  let p ← part
  let late := decide (p.deadline ≤ ending.now.boottimeNs)
  let (result, missing) ← stageResult call p late code
  let returncode ← answered call.last
  raised call.digested
  closeStream call .stdout
  closeStream call .stderr
  let p ← part
  require p.transport.error.isNone "ORIGINAL_CLIENT_CLOSE_UNPROVEN"
  let evidence : Evidence :=
    ⟨identity, p.quotaTerminal, values, ⟨p.transport.total, p.transport.eof, p.transport.error, returncode, p.transport.hashes⟩, ending.parent,
      if p.quotaTerminal.isNone then p.stopObservation else none, bound⟩
  let exit : Exit := ⟨identity, p.unit, ending.parent, evidence, ending.now.boottimeNs⟩
  let proof : Proof :=
    ⟨true, true, true, true, result.bootstrapPrepared.getD false, false, code, p.executionId, p.unit, some identity, result, missing, late, none⟩
  update fun p => { p with pipeClosed := true, quotaExit := if late then p.quotaExit else some exit, quotaFinal := some proof }
  return proof

/-- `observe` -/
def observe (call : Call) : Act Answer := do
  let p ← part
  require (!p.recovered) "ORIGINAL_TRANSPORT_LOST"
  let now ← answered call.now
  require (now.bootId = p.bootId) "BOOT_CHANGED"
  let bound ← manager call now
  match p.quotaFinal with
  | some proof => return .exited proof
  | none => do
    pump call
    let values ← properties call.shown
    if values.get "LoadState" = "loaded" then do
      let (identity, answer) ← observeLoaded call values (p.deadline ≤ now.boottimeNs)
      match answer with
      | some answer => return answer
      | none => do
        let proof ← conclude decimal call values identity bound
        return .exited proof
    else do
      let identity ← observeAbsent values
      let proof ← conclude decimal call values identity bound
      return .exited proof

/-! ## `observe_recovered` -/

/-- The pinned parent, or the manager's own. -/
def recoveredParent (call : Call) (now : Clock) : Act Pin := do
  let p ← part
  match ← answered call.binding with
  | none => answered (p.quotaParent.elim (.error (.quota "ORIGINAL_MANAGER_PARENT_CHANGED")) .ok)
  | some bound => do
    answered (if bound.bootId = now.bootId then .ok () else .error .job)
    let pin := p.quotaParent.getD bound.parent
    require (pin = bound.parent && p.cgroupParent = "/sys/fs/cgroup" ++ bound.parent.path) "ORIGINAL_MANAGER_PARENT_CHANGED"
    return pin

/-- The proof for a stage that was recorded as never delivered. -/
def undelivered (call : Call) (values : Values) : Act Proof := do
  let p ← part
  require (absent p values && p.invocationId = none && !p.launchAcked && !p.stopAcked) "ORIGINAL_UNDELIVERED_UNIT_CHANGED"
  let (pin, empty) ← parentEmpty call
  let after ← answered call.after
  require (empty && after.bootId = p.bootId) "ORIGINAL_EXIT_UNPROVEN"
  raised call.digested
  note (.ended ⟨values, pin, empty, after, none, none⟩)
  let proof : Proof :=
    ⟨true, true, false, true, false, true, none, p.executionId, p.unit, none,
      { unknownResult with helperStarted := some false, businessStarted := some false },
      ["Original gateway confirms this stage was never delivered; no result exists"], false, some after.boottimeNs⟩
  update fun p => { p with recoveryFinal := some proof }
  return proof

def recoverLoaded (call : Call) (values : Values) : Act (Identity × Option Answer) := do
  let identity ← loadedIdentity values
  note (.loaded values)
  update fun p => { p with invocationId := some identity.invocationId, recoveryIdentity := p.recoveryIdentity.or (some values),
                           recoveryTerminal := if terminal values then p.recoveryTerminal.or (some values) else p.recoveryTerminal }
  let p ← part
  if !p.recoveryStopOk then do
    let (returncode, invocation) ← answered call.same
    note (.readBack invocation)
    require (returncode = 0 && invocation = identity.invocationId) "ORIGINAL_INVOCATION_CHANGED"
    update fun p => { p with recoveryStopAttempted := true }
    let returncode ← answered call.stopped
    note (.stop (returncode = 0))
    update fun p => { p with recoveryStopOk := returncode = 0 }
    return (identity, some (.unknown identity "original unit stop was requested; recovered pipes remain unavailable"))
  else if !terminal values then return (identity, some (.running identity))
  else return (identity, none)

def recoverAbsent (values : Values) : Act Identity := do
  let p ← part
  require (absent p values && p.recoveryStopAttempted && p.recoveryStopOk && p.recoveryIdentity.isSome) "ORIGINAL_UNIT_MISSING"
  loadedIdentity (p.recoveryIdentity.getD [])

def recoveredCode (p : Part) : Except Exc (Option Int) :=
  match plainStatus decimal p.recoveryTerminal with
  | none => .ok none
  | some text => (decimal.int text).map some

/-- The proof of a recovered unit that has exited. -/
def recoverConclude (call : Call) (values : Values) (identity : Identity) : Act Proof := do
  let p ← part
  require (p.recoveryTerminal.all fun status => terminal status && (plainStatus decimal (some status)).isSome) "ORIGINAL_EXIT_STATUS"
  let (pin, empty) ← parentEmpty call
  let after ← answered call.after
  require (after.bootId = p.bootId && p.recoveryStopOk && inactive values && jobless values && empty) "ORIGINAL_EXIT_UNPROVEN"
  let code ← answered (recoveredCode decimal p)
  raised call.digested
  note (.ended ⟨values, pin, empty, after, none, none⟩)
  let proof : Proof :=
    ⟨true, true, false, true, false, false, code, p.executionId, p.unit, some identity, { unknownResult with helperStarted := some true },
      ["original anonymous pipes and local collector were lost on broker restart"], false, some after.boottimeNs⟩
  update fun p => { p with recoveryFinal := some proof }
  return proof

/-- `observe_recovered` -/
def observeRecovered (call : Call) : Act Answer := do
  let p ← part
  require p.recovered "RECOVERY_IDENTITY_REQUIRED"
  let now ← answered call.now
  require (now.bootId = p.bootId) "BOOT_CHANGED"
  let pin ← recoveredParent call now
  update fun p => { p with quotaParent := some pin }
  match p.recoveryFinal with
  | some proof => return .exited proof
  | none => do
    let values ← properties call.shown
    if p.notDelivered then do
      let proof ← undelivered call values
      return .exited proof
    else if values.get "LoadState" = "loaded" then do
      let (identity, answer) ← recoverLoaded call values
      match answer with
      | some answer => return answer
      | none => do
        let proof ← recoverConclude decimal call values identity
        return .exited proof
    else do
      let identity ← recoverAbsent values
      let proof ← recoverConclude decimal call values identity
      return .exited proof

/-! ## Runs -/

/-- The world after a call, whether it returned or raised. -/
def observed (w : World) (call : Call) : World := ((observe decimal call).from w).2

def recovered (w : World) (call : Call) : World := ((observeRecovered decimal call).from w).2

end

/-- A part as `_deliver_stage_impl` makes it for a quota stage. -/
structure Fresh (p : Part) : Prop where
  recovered : p.recovered = false
  invocationId : p.invocationId = none
  launchAcked : p.launchAcked = false
  transport : p.transport = ⟨p.transport.limit, 0, [], none, []⟩
  quotaTerminal : p.quotaTerminal = none
  stopOk : p.stopOk = false
  quotaExit : p.quotaExit = none
  quotaFinal : p.quotaFinal = none

/-- A part that is attached again, before its first observation. -/
structure Reattached (p : Part) : Prop where
  recovered : p.recovered = true
  recoveryIdentity : p.recoveryIdentity = none
  recoveryTerminal : p.recoveryTerminal = none
  recoveryStopOk : p.recoveryStopOk = false
  recoveryFinal : p.recoveryFinal = none

end LocalHand.QuotaLifecycle
