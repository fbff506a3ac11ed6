/-
The store of operations (`store.py`) and the world a call of the coordinator
runs in: the durable rows and the gate, the operation in memory, and an
environment that answers every question and decides the fate of every durable
write. An in-memory operation keeps what was changed before an exception, as the
source's dict does.
-/
import LocalHand.Deploy.Records

namespace LocalHand.Deploy

open Program

/-- Why a call stops: an exception `_run` catches, or the end of the process,
which an exception it does not catch is to the records. -/
inductive Stop where
  | raised (fault : Fault)
  | crashed
  deriving Repr, DecidableEq

/-- What becomes of a durable write. -/
inductive Fate where
  | done
  | lost (stop : Stop)
  | kept (stop : Stop)
  deriving Repr, DecidableEq

/-- `execute` binds the supervisor any number of times and then answers. -/
structure Execution where
  bindings : List Binding
  result : Except Stop Observation

/-- What a call meets, by the number of the question. `checkLocal`, `drain` and
`releaseValid` answer whether they passed, `budget` is `check_attempt_budget`,
`sync` an `execute` without an attempt; the adapters in `Option` may be missing. -/
structure Env where
  fate : Nat → Fate
  io : Nat → Maintenance.Io
  effectKey : Step → String
  forOperation : Nat → Except Stop Unit
  validateSuccessor : Nat → Except Stop Unit
  budget : Nat → Except Stop Unit
  preflight : Nat → Except Stop Unit
  prepare : Nat → Except Stop String
  observe : Nat → Except Stop Observation
  completionIdentity : Nat → Record → Except Stop (Option String)
  effectIdentity : Nat → Record → Except Stop (Option String)
  execute : Nat → Execution
  sync : Nat → Record → Except Stop Observation
  candidateStartup : Nat → Except Stop Unit
  blockStartup : Nat → Except Stop Unit
  drain : Nat → Except Stop Bool
  quiescedRetention : Option (Nat → Except Stop Unit)
  checkLocal : Nat → Except Stop Bool
  prepareCompensation : Nat → Except Stop (List (Step × String))
  selectedDeployment : Nat → Except Stop String
  releaseValid : Nat → Except Stop Bool
  retentionDecisions : Nat → Except Stop Unit
  activateRetention : Option (Nat → Except Stop Unit)
  publishStable : Nat → Except Stop Unit
  restoredPlan : Nat → Except Stop Plan

/-- What a run leaves behind for its properties: every durable version of a row
with the one before, and every attempt passed to `execute` with the row then. -/
inductive Mark where
  | created (op : Operation)
  | saved (old new : Operation)
  | executed (row : Option Operation) (restore : Bool) (index : Nat) (id : AttemptId)
  deriving Repr, DecidableEq

/-- `op` is the operation in memory. -/
structure Ctx (F : Type) where
  rows : List Operation
  gate : Option (Maintenance.Gate F)
  log : List Mark
  op : Operation
  clock : Nat

abbrev M (F : Type) := Prog (Ctx F) Stop

variable {F : Type}

def raise {α : Type} (fault : Fault) : M F α := throw (.raised fault)

def lift {α : Type} : Except Fault α → M F α
  | .ok a => pure a
  | .error fault => raise fault

/-- A question put to the environment. -/
def ask {α : Type} (answers : Nat → Except Stop α) : M F α := do
  let c ← get
  set { c with clock := c.clock + 1 }
  match answers c.clock with
  | .ok a => return a
  | .error stop => throw stop

def held : M F Operation := do return (← get).op

def change (f : Operation → Operation) : M F Unit := modify fun c => { c with op := f c.op }

def rows : M F (List Operation) := do return (← get).rows

def durable (env : Env) (write : Ctx F → Ctx F) : M F Unit := do
  match ← ask fun n => .ok (env.fate n) with
  | .done => modify write
  | .lost stop => throw stop
  | .kept stop => do
    modify write
    throw stop

/-! ## `store.py` -/

def find (id : String) (rows : List Operation) : Option Operation := rows.find? fun op => op.id = id

def put (op : Operation) (rows : List Operation) : List Operation :=
  rows.map fun row => if row.id = op.id then op else row

section

variable (site : Site F) (env : Env)

/-- `Store.get` -/
def load (id : String) : M F Operation := do
  lift (identity id "identity")
  match find id (← rows) with
  | some op => return op
  | none => raise (deployError "NOT_FOUND" "Deployment operation is not recorded")

/-- `Store.list` -/
def list : M F (List Operation) := do
  let all ← rows
  lift (require (all.length ≤ site.limits.maxOperations) (deployError "STATE_LIMIT" "Operation count exceeds its limit"))
  return all

/-- `Store.save`; nothing reads the kind of its event. -/
def save (op : Operation) (_kind : String) : M F Unit := do
  match find op.id (← rows) with
  | none => raise (deployError "NOT_FOUND" "Cannot rewrite an unrecorded operation")
  | some old => durable env fun c => { c with rows := put op c.rows, log := c.log ++ [.saved old op] }

/-- `save` of the operation in memory. -/
def persist (kind : String) : M F Unit := do save env (← held) kind

/-- `Store.create` -/
def create (plan : Plan) : M F Operation := do
  lift (validatePlan site plan)
  let all ← rows
  match all.find? fun row => row.plan.requestId = plan.requestId with
  | some row => do
    lift (require (row.plan.digest = plan.digest)
      (deployError "REQUEST_CONFLICT" "Request ID already identifies a different plan"))
    return row
  | none => do
    lift (require (all.length < site.limits.maxOperations)
      (deployError "STATE_LIMIT" "Operation count budget is exhausted"))
    let operation := newOperation site plan none
    lift (require (find operation.id all).isNone
      (deployError "STATE_UNAVAILABLE" "Cannot persist deployment request"))
    durable env fun c => { c with rows := c.rows ++ [operation], log := c.log ++ [.created operation] }
    return operation

/-- The link of an operation that `Store.link` writes. -/
def Operation.link (op : Operation) (rollback : Bool) : Option String :=
  if rollback then op.rollbackSuccessor else op.successor

def Operation.linked (op : Operation) (rollback : Bool) (successor : String) : Operation :=
  if rollback then { op with rollbackSuccessor := some successor } else { op with successor := some successor }

/-- `Store.link`, of the operation in memory. -/
def link (plan : Plan) (rollback : Bool) : M F Operation := do
  lift (validatePlan site plan)
  let original ← load (← held).id
  match original.link rollback with
  | some id => load id
  | none => do
    let successor := newOperation site plan (some original.id)
    let all ← rows
    lift (require (all.length < site.limits.maxOperations)
      (deployError "STATE_LIMIT" "No space for linked recovery operation"))
    lift (require ((find successor.id all).isNone && all.all fun row => row.plan.requestId ≠ plan.requestId)
      (deployError "STATE_UNAVAILABLE" "Cannot persist recovery successor atomically"))
    durable env fun c => { c with
      rows := put (original.linked rollback successor.id) c.rows ++ [successor]
      log := c.log ++ [.created successor, .saved original (original.linked rollback successor.id)] }
    change fun _ => original.linked rollback successor.id
    return successor

/-! ## The gate -/

/-- A call of the maintenance gate. -/
def gateCall [DecidableEq F] {ρ : Type} (call : Maintenance.Io → Maintenance.Op F ρ) : M F ρ := do
  let io ← ask fun n => .ok (env.io n)
  let run : M F ρ := do
    let c ← get
    set { c with gate := (call io c.gate).2 }
    lift (call io c.gate).1
  match ← ask fun n => .ok (env.fate n) with
  | .done => run
  | .lost stop => throw stop
  | .kept stop => do
    let _ ← run
    throw stop

end

end LocalHand.Deploy
