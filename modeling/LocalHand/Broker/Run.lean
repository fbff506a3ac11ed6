/-
Runs of the broker. Calls, deliveries and the coordinator are interleaved at
their transactions; the fence keeps apart what the process keeps apart with it.
A crash loses the process's tables, a restart rebuilds the broker from the
ledger and recovers.

`proved` lists the executions a proof has shown to have exited, `exited` those
that have, and `launches` the launches invoked; no step of the broker reads them.
-/
import LocalHand.Broker.Coordinator
import LocalHand.Lib.Run

namespace LocalHand.Broker

/-- What the coordinator is about to do for a row of a tick. -/
inductive Turn where
  | resume
  | stopped
  | attach
  | observe
  | identity (attached : Attached) (proof : Proof)
  | completing (proof : Proof) (popped : Option Attached)
  | unknown (gap : String)
  | decide
  | blocked
  | enqueue (phase : Phase) (allocated : Bool)
  | acknowledge (phase : Phase) (handle : Handle) (allocated : Bool)

/-- Where the coordinator is. A tick holds the rows as they were when it began. -/
inductive Coord where
  | down
  | halted
  | starting
  | resuming (rows : List Row)
  | barrier
  | reattaching (entries : List (Key × Attached))
  | idle
  | row (turn : Turn) (row : Row) (rest : List Row)

/-- A delivery whose intent is committed and whose launch is not yet invoked. -/
structure Launching where
  key : Key
  delivery : DeliveryId
  deriving DecidableEq

structure Sys where
  ledger : Ledger
  mem : Mem
  coord : Coord
  launching : Option Launching
  closing : List (Key × Phase)
  sessions : List String
  proved : List ExecId
  exited : List ExecId
  launches : List DeliveryId

/-- A new ledger, and no process. -/
def Sys.created : Sys where
  ledger := .created
  mem := .start ⟨none, false, none, ""⟩ ""
  coord := .down
  launching := none
  closing := []
  sessions := []
  proved := []
  exited := []
  launches := []

/-- No one holds the fence between two transactions. -/
def Sys.fenceFree (s : Sys) : Bool :=
  s.launching.isNone && match s.coord with
    | .row (.enqueue ..) .. => false
    | .row (.acknowledge ..) .. => false
    | _ => true

/-- The answer of `runner.reattach`. -/
inductive Reattach where
  | attached (handle : Option Handle)
  | retryable
  | refused

/-- What the coordinator is answered at one step. -/
structure Answers where
  env : Env
  /-- The ledger was busy: the transaction was not run. -/
  busy : Bool
  /-- The next retry is due. -/
  due : Bool
  reattach : Reattach
  /-- The proof of `runner.inspect` or `runner.stop`, unless it raised. -/
  proof : Option Proof
  /-- The handle of `runner.start`, unless it raised. -/
  started : Option Handle

inductive Action where
  | submit (env : Env) (request : Request) (principal : Principal)
  | cancel (env : Env) (operationId digest : String) (round : Option String) (principal : Principal)
  | reconcile (env : Env) (operationId digest roundId : String) (principal : Principal)
  | revoke (principalId : String)
  | bindObservation (env : Env) (key : Key) (phase : Phase) (grant : QuotaGrant)
  | closeObservation (env : Env) (key : Key) (phase : Phase)
  | finishClosing (key : Key) (phase : Phase)
  | registerSeal (publication : Seal)
  | completeRecoveredEvidence (env : Env) (operationId digest : String) (publication : Seal) (proof : Proof)
  | guard (env : Env) (d : Delivery)
  | launch
  | tick
  | advance (answers : Answers)
  | crash
  | restart (install : Install) (session : String)
  | exit (exec : ExecId)

variable (site : Site)

/-- The ledger of a transaction, which an error rolls back. -/
def Sys.commit (s : Sys) : Except Fault Ledger → Sys
  | .ok l => { s with ledger := l }
  | .error _ => s

/-- A transaction of the coordinator. -/
def Answers.tx {α : Type} (answers : Answers) (result : Except Fault α) : Except Fault α :=
  if answers.busy then .error .busy else result

/-! ## The coordinator -/

/-- The next row of a tick. -/
def nextRow : List Row → Coord
  | [] => .idle
  | row :: rest => .row .resume row rest

/-- The observed execution of a row, once the runner has answered for it. -/
def Sys.observed (s : Sys) (row : Row) (rest : List Row) (attached : Attached) (proof : Proof) : Sys :=
  match proof.state with
  | .exited =>
    if proof.exited then
      { s with
        mem := { s.mem with active := s.mem.active.erase row.key }
        coord := .row (.completing proof (some attached)) row rest }
    else { s with coord := .row (.completing proof none) row rest }
  | .unknown =>
    { s with coord := .row (.unknown "Supervisor has not established execution identity or exit") row rest }
  | .other => { s with coord := nextRow rest }

def observationFailed (row : Row) (rest : List Row) : Coord :=
  .row (.unknown "Supervisor observation failed") row rest

def startupUnresolved (row : Row) (rest : List Row) : Coord :=
  .row (.unknown "Startup binding or supervisor acknowledgement is unresolved") row rest

/-- An answer with both exit flags proves the execution's exit. -/
def Sys.prove (s : Sys) (exec : ExecId) (proof : Proof) : Sys :=
  if proof.exited then { s with proved := exec :: s.proved } else s

/-- `_retry_recovery`: the tables it leaves, and whether it attached. -/
def retryRecovery (m : Mem) (key : Key) (pending : Recovering) (answers : Answers) (force : Bool) :
    Mem × Bool :=
  if !force && !answers.due then (m, false)
  else match answers.reattach with
    | .attached handle =>
      let attached := { pending.attached with handle := handle.getD pending.attached.handle }
      ({ m with active := m.active.insert key attached, recovering := m.recovering.erase key }, true)
    | .retryable => (m, false)
    | .refused => ({ m with recovering := m.recovering.erase key }, false)

def Sys.resume (s : Sys) (answers : Answers) (row : Row) (rest : List Row) : Sys :=
  if s.mem.observed row.key then { s with coord := .row .stopped row rest }
  else match answers.tx (resumeClosed site s.mem s.ledger row.key row.record.phase) with
    | .error _ => { s with coord := .idle }
    | .ok (some l) => { s with ledger := l, coord := nextRow rest }
    | .ok none => { s with coord := .row .stopped row rest }

def Sys.stopped (s : Sys) (answers : Answers) (row : Row) (rest : List Row) : Sys :=
  if s.mem.observed row.key || !maybeStopped row.record then { s with coord := .row .attach row rest }
  else match answers.tx (completeStopped site s.mem s.ledger row.key) with
    | .error _ => { s with coord := .idle }
    | .ok (some l) => { s with ledger := l, coord := nextRow rest }
    | .ok none => { s with coord := .row .attach row rest }

def Sys.attach (s : Sys) (answers : Answers) (row : Row) (rest : List Row) : Sys :=
  match s.mem.recovering.lookup row.key, s.mem.active.lookup row.key with
  | some pending, none =>
    let wake := row.record.cancelRequested && !pending.cancelWakeUsed
    let pending := { pending with cancelWakeUsed := pending.cancelWakeUsed || wake }
    let m := { s.mem with recovering := s.mem.recovering.insert row.key pending }
    let (m, attached) := retryRecovery m row.key pending answers wake
    { s with
      mem := m
      coord := if attached then .row .observe row rest
        else .row (.unknown "Supervisor recovery attachment is temporarily unavailable") row rest }
  | _, _ => { s with coord := .row .observe row rest }

def Sys.observe (s : Sys) (answers : Answers) (row : Row) (rest : List Row) : Sys :=
  match s.mem.active.lookup row.key with
  | none => { s with coord := .row .decide row rest }
  | some attached =>
    match checkBinding s.mem.install.managerBinding attached.handle.managerBinding, answers.proof with
    | .ok (), some proof =>
      let s := s.prove attached.exec proof
      match proof.recoveryHandle with
      | some _ => { s with coord := .row (.identity attached proof) row rest }
      | none => s.observed row rest attached proof
    | _, _ => { s with coord := observationFailed row rest }

def Sys.identity (s : Sys) (answers : Answers) (row : Row) (rest : List Row) (attached : Attached)
    (proof : Proof) : Sys :=
  match proof.recoveryHandle with
  | none => s.observed row rest attached proof
  | some recovery =>
    match answers.tx (recordIdentity s.mem s.ledger row.key recovery) with
    | .ok l => { s with ledger := l }.observed row rest attached proof
    | .error .busy => { s with coord := .idle }
    | .error _ => { s with coord := observationFailed row rest }

/-- The handle of an exit that could not be recorded is observed again. -/
def Sys.keep (s : Sys) (key : Key) : Option Attached → Sys
  | some attached => { s with mem := { s.mem with active := s.mem.active.insert key attached } }
  | none => s

def Sys.completing (s : Sys) (answers : Answers) (row : Row) (rest : List Row) (proof : Proof)
    (popped : Option Attached) : Sys :=
  match answers.tx (complete site s.mem s.ledger row.key proof) with
  | .ok l => { s with ledger := l, coord := nextRow rest }
  | .error .busy => { s.keep row.key popped with coord := .idle }
  | .error _ => { s.keep row.key popped with coord := observationFailed row rest }

def Sys.unknown (s : Sys) (answers : Answers) (row : Row) (rest : List Row) (gap : String) : Sys :=
  match answers.tx (Broker.unknown s.ledger row.key gap) with
  | .ok l => { s with ledger := l, coord := nextRow rest }
  | .error _ => { s with coord := .idle }

/-- The row as the tick found it has a phase to start, or to block. -/
def startable (record : Record) : Bool :=
  record.lifecycle = .accepted || record.phase = .preflightComplete || record.phase = .awaitingSeal

/-- `_start`, up to the runner. -/
def Sys.begin (s : Sys) (answers : Answers) (row : Row) (rest : List Row) : Sys :=
  match answers.tx (Broker.begin site answers.env s.mem s.ledger row.key (nextPhase row)) with
  | .ok .refused => { s with coord := nextRow rest }
  | .ok (.waiting l) => { s with ledger := l, coord := nextRow rest }
  | .ok (.intended l allocated) =>
    { s with
      ledger := l
      mem := { s.mem with owners := s.mem.owners.insert (row.key.exec (nextPhase row)) row.key }
      coord := .row (.enqueue (nextPhase row) allocated) row rest }
  | .error .busy => { s with coord := .idle }
  | .error (.budget _) => { s with coord := .row .blocked row rest }
  | .error _ => { s with coord := startupUnresolved row rest }

def Sys.decide (s : Sys) (answers : Answers) (row : Row) (rest : List Row) : Sys :=
  if !startable row.record then { s with coord := nextRow rest }
  else if row.record.cancelRequested then
    match answers.tx (blockStart s.ledger row) with
    | .ok l => { s with ledger := l, coord := nextRow rest }
    | .error _ => { s with coord := .idle }
  else if row.record.outcome = .unknown && row.record.phase ≠ .awaitingSeal then
    { s with coord := nextRow rest }
  else if s.fenceFree then s.begin site answers row rest
  else s

def Sys.blocked (s : Sys) (answers : Answers) (row : Row) (rest : List Row) : Sys :=
  match answers.tx (budgetBlocked s.mem s.ledger row.key) with
  | .ok (true, l) => { s with ledger := l, coord := nextRow rest }
  | .ok (false, _) => { s with coord := startupUnresolved row rest }
  | .error _ => { s with coord := .idle }

/-- `runner.start`, and the binding of the handle it returns. -/
def Sys.enqueue (s : Sys) (answers : Answers) (row : Row) (rest : List Row) (phase : Phase)
    (allocated : Bool) : Sys :=
  match answers.started with
  | none => { s with coord := startupUnresolved row rest }
  | some handle =>
    let active := s.mem.active.insert row.key ⟨row.key.exec phase, handle⟩
    { s with
      mem := { s.mem with active }
      coord := match checkBinding s.mem.install.managerBinding handle.managerBinding with
        | .ok () => .row (.acknowledge phase handle allocated) row rest
        | .error _ => startupUnresolved row rest }

def Sys.acknowledge (s : Sys) (answers : Answers) (row : Row) (rest : List Row) (phase : Phase)
    (handle : Handle) (allocated : Bool) : Sys :=
  match answers.tx (Broker.acknowledge s.ledger row.key phase handle allocated) with
  | .ok l => { s with ledger := l, coord := nextRow rest }
  | .error _ => { s with coord := startupUnresolved row rest }

/-- One turn of a row in a tick. -/
def Sys.turn (s : Sys) (answers : Answers) (row : Row) (rest : List Row) : Turn → Sys
  | .resume => if s.fenceFree then s.resume site answers row rest else s
  | .stopped => if s.fenceFree then s.stopped site answers row rest else s
  | .attach => s.attach answers row rest
  | .observe => s.observe answers row rest
  | .identity attached proof => s.identity answers row rest attached proof
  | .completing proof popped => s.completing site answers row rest proof popped
  | .unknown gap => s.unknown answers row rest gap
  | .decide => s.decide site answers row rest
  | .blocked => if s.fenceFree then s.blocked answers row rest else s
  | .enqueue phase allocated => s.enqueue answers row rest phase allocated
  | .acknowledge phase handle allocated => s.acknowledge answers row rest phase handle allocated

/-! ## Recovery -/

/-- One row of the first loop of `recover`. -/
def Sys.resuming (s : Sys) (answers : Answers) (row : Row) (rest : List Row) : Sys :=
  if s.mem.observed row.key then { s with coord := .resuming rest }
  else match answers.tx (resumeClosed site s.mem s.ledger row.key row.record.phase) with
    | .error _ => { s with coord := .halted }
    | .ok (some l) => { s with ledger := l, coord := .resuming rest }
    | .ok none => { s with coord := .resuming rest }

def Sys.barrier (s : Sys) (answers : Answers) : Sys :=
  match answers.tx (recoverRows site s.mem s.ledger (s.ledger.rows.map Row.key)) with
  | .error _ => { s with coord := .halted }
  | .ok (l, entries) => { s with ledger := l, coord := .reattaching entries }

def Sys.reattaching (s : Sys) (answers : Answers) (key : Key) (attached : Attached)
    (rest : List (Key × Attached)) : Sys :=
  let pending : Recovering := ⟨attached, false⟩
  let m := { s.mem with recovering := s.mem.recovering.insert key pending }
  { s with mem := (retryRecovery m key pending answers true).1, coord := .reattaching rest }

/-- One step of the coordinator. -/
def Sys.advance (s : Sys) (answers : Answers) : Sys :=
  match s.coord with
  | .starting => { s with coord := .resuming s.ledger.rows }
  | .resuming [] => { s with coord := .barrier }
  | .resuming (row :: rest) => if s.fenceFree then s.resuming site answers row rest else s
  | .barrier => if s.fenceFree then s.barrier site answers else s
  | .reattaching [] => { s with coord := .idle }
  | .reattaching ((key, attached) :: rest) => s.reattaching answers key attached rest
  | .row turn row rest => s.turn site answers row rest turn
  | _ => s

/-! ## Steps -/

/-- A call that holds the fence for its one transaction. -/
def Sys.fenced (s : Sys) (result : Except Fault Ledger) : Sys := if s.fenceFree then s.commit result else s

/-- `_guard_start` up to its launch; the runner may call it from `runner.start`. -/
def Sys.guard (s : Sys) (env : Env) (d : Delivery) : Sys :=
  if s.launching.isSome then s
  else match guardStart site env s.mem s.ledger d, s.mem.owners.lookup d.exec with
    | .ok (some l), some key => { s with ledger := l, launching := some ⟨key, d.id⟩ }
    | _, _ => s

/-- The callback of a committed delivery. -/
def Sys.launch (s : Sys) : Sys :=
  match s.launching with
  | none => s
  | some launching => { s with launching := none, launches := s.launches ++ [launching.delivery] }

/-- The transaction of `close_observation`, which the publication follows. -/
def Sys.closeObservation (s : Sys) (env : Env) (key : Key) (phase : Phase) : Sys :=
  if !s.fenceFree then s
  else match Broker.closeObservation site env s.mem s.ledger key phase with
    | .ok l => { s with ledger := l, closing := (key, phase) :: s.closing }
    | .error _ => s

/-- The publication of a phase closed by a call. -/
def Sys.finishClosing (s : Sys) (key : Key) (phase : Phase) : Sys :=
  if !s.fenceFree || !s.closing.contains (key, phase) then s
  else match resumeClosed site s.mem s.ledger key phase with
    | .ok (some l) => { s with ledger := l, closing := s.closing.erase (key, phase) }
    | _ => { s with closing := s.closing.erase (key, phase) }

/-- The row holds no seal of this identity yet. -/
def newSeal (l : Ledger) (operationId : String) (publication : Seal) : Bool :=
  (l.get ⟨.job, operationId⟩).all fun row => !row.record.seals.any (·.sealId = publication.sealId)

/-- The recovery supervisor's proof shows the old evidence execution exited. -/
def Sys.completeRecoveredEvidence (s : Sys) (env : Env) (operationId digest : String) (publication : Seal)
    (proof : Proof) : Sys :=
  if !s.fenceFree then s
  else match Broker.completeRecoveredEvidence site env s.mem s.ledger operationId digest publication proof with
    | .error _ => s
    | .ok l =>
      { s with
        ledger := l
        proved := if newSeal s.ledger operationId publication then
            Key.exec ⟨.job, operationId⟩ .evidence :: s.proved
          else s.proved }

/-- A new process; `uuid4` never draws a session text again. -/
def Sys.restart (s : Sys) (install : Install) (session : String) : Sys :=
  match s.coord with
  | .down =>
    if s.sessions.contains session then s
    else { s with mem := .start install session, coord := .starting, sessions := session :: s.sessions }
  | _ => s

def Sys.crash (s : Sys) : Sys :=
  { s with mem := .start s.mem.install "", coord := .down, launching := none, closing := [] }

/-- A step of a living process. -/
def Sys.act (s : Sys) : Action → Sys
  | .submit env request principal => s.fenced (submit site env s.mem s.ledger request principal)
  | .cancel env operationId digest round principal =>
    s.fenced (cancel env s.ledger operationId digest round principal)
  | .reconcile env operationId digest roundId principal =>
    s.fenced (reconcile site env s.mem s.ledger operationId digest roundId principal)
  | .revoke principalId => s.fenced (.ok (revoke s.ledger principalId))
  | .bindObservation env key phase grant => s.fenced (bindObservation env s.mem s.ledger key phase grant)
  | .closeObservation env key phase => s.closeObservation site env key phase
  | .finishClosing key phase => s.finishClosing site key phase
  | .registerSeal publication => s.commit (registerSeal s.ledger publication)
  | .completeRecoveredEvidence env operationId digest publication proof =>
    s.completeRecoveredEvidence site env operationId digest publication proof
  | .guard env d => s.guard site env d
  | .launch => s.launch
  | .tick =>
    match s.coord with
    | .idle => { s with coord := nextRow s.ledger.rows }
    | _ => s
  | .advance answers => s.advance site answers
  | .crash => s.crash
  | _ => s

/-- Whether there is a process. -/
def Coord.alive : Coord → Bool
  | .down => false
  | _ => true

def step (s : Sys) : Action → Sys
  | .restart install session => s.restart install session
  | .exit exec => { s with exited := exec :: s.exited }
  | a => if s.coord.alive then s.act site a else s

/-- The state a run reaches. -/
def run (s : Sys) (actions : List Action) : Sys := Machine.exec (step site) s actions

end LocalHand.Broker
