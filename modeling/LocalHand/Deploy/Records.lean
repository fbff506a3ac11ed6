/-
Deployment plans and the durable records of their operations (`model.py`), and
the store that keeps them (`store.py`).

A record has the fields the coordinator reads. The records of a plan's steps
stand beside the steps, as those of a compensation do in the source, and each has
one pair of value and attempts: the forward ones in a plan, the restoring ones in
a compensation. A hash that only names something is the data it is taken of.
-/
import LocalHand.Maintenance
import LocalHand.Lib.Program

namespace LocalHand.Deploy

open Program

/-! ## Plans -/

inductive StepKind where
  | file | service | gateway
  deriving Repr, DecidableEq

/-- `action.get("kind")` and `action.get("phase")`. -/
structure Action where
  kind : Option String
  phase : Option String
  deriving Repr, DecidableEq

structure Step where
  id : String
  kind : StepKind
  action : Action
  deriving Repr, DecidableEq

/-- `recoveryFrom` and `securityRepair` are truth values of the profile's. -/
structure Profile where
  recoveryFrom : Bool
  securityRepair : Bool
  deriving Repr, DecidableEq, Inhabited

/-- `source` and `target` are deployment digests. -/
structure Plan where
  requestId : String
  nodeId : String
  source : String
  target : String
  steps : List Step
  profile : Profile
  digest : String
  deriving Repr, DecidableEq, Inhabited

structure Limits where
  maxOperations : Nat
  maxSteps : Nat
  maxAttempts : Nat
  deriving Repr, DecidableEq

/-- `DeployError(code, message)` -/
def deployError (code message : String) : Fault := .job code message

/-- `ID.fullmatch` -/
def isIdentity (value : String) : Bool :=
  match value.toList with
  | [] => false
  | c :: cs => c.isAlphanum && cs.length ≤ 127 && cs.all fun c => c.isAlphanum || c = '_' || c = '.' || c = '-'

/-- `identity` -/
def identity (value field : String) : Except Fault Unit :=
  require (isIdentity value) (deployError "INVALID_PLAN" ("Invalid " ++ field))

/-! ## Operations -/

inductive Phase where
  | planned | preparing | prepared | quiesced | applying | localVerified
  | committed | abortedNoChange | rolledBack
  deriving Repr, DecidableEq, Inhabited

inductive Direction where
  | apply | rollback
  deriving Repr, DecidableEq, Inhabited

inductive Decision where
  | committed | abortedNoChange | rolledBack
  deriving Repr, DecidableEq

def Decision.phase : Decision → Phase
  | .committed => .committed
  | .abortedNoChange => .abortedNoChange
  | .rolledBack => .rolledBack

inductive RecordState where
  | planned | intentRecorded | verified | restored
  deriving Repr, DecidableEq

/-- `observed["state"]` -/
inductive Seen where
  | target | running | unknown | conflict | other
  deriving Repr, DecidableEq

/-- What the environment answers about a step; `dispatched` may be missing,
`None` or a truth value. -/
structure Observation where
  state : Seen
  closed : Bool
  effective : Bool
  synced : Bool
  dispatched : Option (Option Bool)
  deriving Repr, DecidableEq

/-- A supervisor's binding, as a dict. -/
abbrev Binding := List (String × String)

/-- What an attempt's id is the digest of. -/
structure AttemptId where
  operation : String
  step : String
  restore : Bool
  number : Nat
  deriving Repr, DecidableEq

inductive Command where
  | notAttempted | unknown | returned
  deriving Repr, DecidableEq

structure Attempt where
  id : AttemptId
  binding : Option Binding
  command : Command
  dispatched : Option Bool
  completionIdentity : Option String
  effectIdentity : Option String
  effectIdentityRequired : Bool
  deriving Repr, DecidableEq

/-- `value` is what the step was prepared with, or restores. -/
structure Record where
  state : RecordState
  value : Option String
  attempts : List Attempt
  observation : Option Observation
  effective : Bool
  coveredBy : Option String
  deriving Repr, DecidableEq

/-- A step and its record. -/
structure Entry where
  step : Step
  record : Record
  deriving Repr, DecidableEq

structure ErrorRecord where
  code : String
  phase : Phase
  deriving Repr, DecidableEq

structure Errors where
  primary : List ErrorRecord
  recovery : List ErrorRecord
  deriving Repr, DecidableEq, Inhabited

/-- Whether the last `check_local` of either kind passed. -/
structure Checks where
  local' : Option Bool
  restored : Option Bool
  deriving Repr, DecidableEq, Inhabited

/-- A compensation and inherited ids are missing until they are first written. -/
structure Operation where
  id : String
  plan : Plan
  phase : Phase
  direction : Direction
  decision : Option Decision
  decisionId : Option String
  released : Bool
  waiting : Option String
  gateSequence : Option Int
  gateOwned : Bool
  predecessor : Option String
  successor : Option String
  handoffComplete : Bool
  rollbackSuccessor : Option String
  steps : List Entry
  compensation : Option (List Entry)
  inherited : Option (List String)
  implementation : Option String
  errors : Errors
  checks : Checks
  startupBlocked : Bool
  deriving Repr, DecidableEq, Inhabited

/-- Neither released nor handed off. -/
def Operation.unfinished (op : Operation) : Bool := !op.released && !op.handoffComplete

/-- `op.get("inherited", [])` -/
def Operation.heirs (op : Operation) : List String := op.inherited.getD []

/-! ## The node -/

/-- What a node and its store are configured with: `operation_id` and the text
of a decision id, the sealing of a plan, the store's limits, the gate's node, and
the identity of the coordinator's own implementation. -/
structure Site (F : Type) where
  gate : Maintenance.Site F
  nodeId : String
  limits : Limits
  operationId : String → String
  decisionId : String → Decision → String
  isSealed : Plan → Bool
  implementation : Option String

section

variable {F : Type} (site : Site F)

/-- `validate_plan`, of the store's node. -/
def validatePlan (plan : Plan) : Except Fault Unit := do
  identity plan.requestId "request ID"
  identity plan.nodeId "node ID"
  require (hexText 64 plan.source && hexText 64 plan.target)
    (deployError "INVALID_PLAN" "Source and target require exact deployment digests")
  require (plan.steps.length ≤ site.limits.maxSteps)
    (deployError "INVALID_PLAN" "Plan exceeds its supported action count")
  plan.steps.forM fun step => identity step.id "step ID"
  require ((plan.steps.map Step.id).Nodup) (deployError "INVALID_PLAN" "Duplicate deployment step")
  require (site.isSealed plan) (deployError "INVALID_PLAN" "Plan digest or size is invalid")
  require (plan.nodeId = site.nodeId) (deployError "NODE_CONFLICT" "Plan belongs to a different node")

def Record.fresh : Record where
  state := .planned
  value := none
  attempts := []
  observation := none
  effective := false
  coveredBy := none

/-- `new_operation` -/
def newOperation (plan : Plan) (predecessor : Option String) : Operation where
  id := site.operationId plan.requestId
  plan := plan
  phase := .planned
  direction := .apply
  decision := none
  decisionId := none
  released := false
  waiting := none
  gateSequence := none
  gateOwned := false
  predecessor := predecessor
  successor := none
  handoffComplete := false
  rollbackSuccessor := none
  steps := plan.steps.map fun step => ⟨step, .fresh⟩
  compensation := none
  inherited := none
  implementation := none
  errors := ⟨[], []⟩
  checks := ⟨none, none⟩
  startupBlocked := false

end

end LocalHand.Deploy
