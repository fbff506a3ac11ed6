/-
The calls of clients and administrators: `submit`, `cancel`, `reconcile` and
`revoke`, each one transaction on the ledger, and the release of an
operation's leases. A call that raises rolls its transaction back, so the
ledger is returned by the calls that commit.
-/
import LocalHand.Broker.Context

namespace LocalHand.Broker

variable (site : Site) (env : Env) (m : Mem)

/-- `DISABLED_JOB_KINDS` -/
def disabledJobKinds : List String := ["ledger.nas.roundtrip", "ledger.test.local_a2"]

/-- The rows whose lifecycle is not `TERMINAL`. -/
def Ledger.open (l : Ledger) : Nat := l.rows.countP (·.record.lifecycle ≠ .terminal)

/-- The sum of `reserved_bytes`. -/
def Ledger.reserved (l : Ledger) : Int := (l.rows.map (·.reservedBytes)).sum

/-- `_capacity` -/
def capacity (l : Ledger) (reserved : Int) : Except Fault Unit :=
  require (decide (l.open < site.maxQueued)
      && decide (l.reserved + reserved + site.ledgerEmergencyBytes ≤ site.retainedBytes))
    (.job "LIMIT_EXCEEDED" "Admitted queue or retained evidence budget is exhausted")

/-- The members a new row is bound to its admission with. -/
def bound (l : Ledger) (principal : Principal) : Changes where
  principalScopes := some principal.scopes
  generation := some (generation env l)
  handles := some ∅
  quotaBindingVersion := if m.install.quotaRequired then some 1 else none

/-- `submit` of an operation the ledger does not hold. -/
def admitJob (l : Ledger) (request : Request) (principal : Principal) : Except Fault Ledger := do
  authorize env l principal "lh:submit" (some request) none
  require (!disabledJobKinds.contains request.kind)
    (.job "UNSUPPORTED" "This job kind is not available for new execution")
  require (!env.expired request) (.job "STALE_DEPLOYMENT" "First admission deadline has expired")
  let expected ← env.expected request.profileRef
  require (request.expected = expected)
    (.job "STALE_DEPLOYMENT" "Expected deployment binding does not match")
  let plan ← env.resolve request
  capacity site l plan.reservationBytes
  let leases ← acquire site.aliases l.leases request.operationId request.expected.deploymentEpoch
    plan.resourceIds
  let l ← { l with leases }.insert ⟨.job, request.operationId⟩ request.operationId principal.id
    request.requestDigest request plan plan.reservationBytes
  l.update ⟨.job, request.operationId⟩ .admissionBound (bound env m l principal)

/-- `submit`; a request the ledger holds already is only viewed. -/
def submit (l : Ledger) (request : Request) (principal : Principal) : Except Fault Ledger := do
  authorize env l principal "lh:submit" none none
  match l.get ⟨.job, request.operationId⟩ with
  | some old => do
    authorize env l principal "lh:read" none (some old.principal)
    require (old.principal = principal.id) (.job "UNAUTHORIZED" "Operation ownership does not match")
    require (old.digest = request.requestDigest)
      (.job "CONFLICT" "The operation ID already binds different content")
    return l
  | none => admitJob site env m l request principal

/-! ## Release -/

/-- The row's execution of the phase was issued: a handle, an intent or a delivery names it. -/
def issued (l : Ledger) (row : Row) (phase : Phase) : Bool :=
  row.record.handles.keys.contains phase
    || (l.history row.key .executionIntent).any (fun c =>
        c.phase = some phase || c.handles.any (·.keys.contains phase))
    || (l.history row.key .managerDeliveryIntent).any (fun c =>
        (c.deliveryIntents.getD []).any (·.exec = row.key.exec phase))

/-- The phases a quota preparation names, in the record or in an event. -/
def preparedPhases (l : Ledger) (row : Row) : List Phase :=
  row.record.quotaPreparations.keys
    ++ (l.history row.key .quotaPreparation).filterMap (·.quotaEventPhase)

/-- Some prepared phase was issued and not closed. -/
def quotaRetains (l : Ledger) (row : Row) : List Phase → Except Fault Bool
  | [] => .ok false
  | phase :: rest => do
    let _ ← original l row phase preparations
    if (row.record.quotaClosed.lookup phase).isNone then
      if issued l row phase then return true else quotaRetains l row rest
    else do
      let _ ← original l row phase closures
      quotaRetains l row rest

/-- Another round of the operation is not `TERMINAL`. -/
def otherRoundOpen (l : Ledger) (row : Row) : Bool :=
  l.rows.any fun other => other.ns = .reconcile && other.parent = row.parent && other.key ≠ row.key
    && other.record.lifecycle ≠ .terminal

/-- A round's parent has no certain exit. -/
def parentRetains (l : Ledger) (row : Row) : Except Fault Bool :=
  match row.ns with
  | .job => .ok false
  | .reconcile => do
    let parent ← l.row ⟨.job, row.parent⟩
    return parent.record.lifecycle = .accepted || parent.record.lifecycle = .running
      || parent.record.outcome = .unknown || !parent.record.exitProof.any Proof.certain

/-- A quota row's issued and unclosed phase keeps its leases. -/
def quotaKeeps (l : Ledger) (row : Row) : Except Fault Bool := do
  let version ← admissionVersion l row
  if version = some 1 then quotaRetains l row (preparedPhases l row) else return false

/-- `_release` keeps the leases: what follows the last of its returns is not reached. -/
def retains (l : Ledger) (row : Row) : Except Fault Bool := do
  let quota ← quotaKeeps l row
  if quota || otherRoundOpen l row then return true else parentRetains l row

/-- `_release` -/
def release (l : Ledger) (row : Row) (proof : Proof) : Except Fault Ledger := do
  let retained ← retains l row
  if retained then return l
  else do
    let leases ← LocalHand.release l.leases row.parent (proof.futureStartBlocked = some true)
      (proof.treeExited = some true) (proof.effectsChecked = some true)
    return { l with leases }

/-! ## Cancellation -/

/-- `cancel` of a row that is neither finished nor asked to stop. -/
def cancelRow (l : Ledger) (row : Row) : Except Fault Ledger :=
  if row.record.phase = .queued then do
    let l ← release l row Proof.neverStarted
    l.update row.key .cancelRequested
      { cancelRequested := some true, lifecycle := some .terminal, outcome := some .cancelled
        phase := some .cancelledBeforeStart, sideEffects := some "NONE"
        exitProof := some (some Proof.neverStarted) }
  else l.update row.key .cancelRequested { cancelRequested := some true }

/-- `cancel`; the target is the job or one of its rounds. -/
def cancel (l : Ledger) (operationId digest : String) (round : Option String) (principal : Principal) :
    Except Fault Ledger := do
  let parent ← ownRow env l ⟨.job, operationId⟩ principal "lh:cancel"
  require (parent.digest = digest) (.job "CONFLICT" "Cancellation request digest does not match")
  let key : Key := match round with
    | none => ⟨.job, operationId⟩
    | some id => ⟨.reconcile, id⟩
  let row ← ownRow env l key principal "lh:cancel"
  require (row.parent = operationId) (.job "CONFLICT" "Cancellation target belongs to another operation")
  if row.record.lifecycle = .terminal || row.record.cancelRequested then return l else cancelRow l row

/-! ## Reconciliation and revocation -/

/-- A round of the operation that is not `TERMINAL`. -/
def roundOpen (l : Ledger) (operationId : String) : Bool :=
  l.rows.any fun row => row.ns = .reconcile && row.parent = operationId && row.record.lifecycle ≠ .terminal

/-- `reconcile` of a round the ledger does not hold. -/
def admitRound (l : Ledger) (parent : Row) (operationId digest roundId : String) (principal : Principal) :
    Except Fault Ledger := do
  authorize env l principal "lh:reconcile" (some parent.request) none
  require (parent.record.lifecycle ≠ .accepted && parent.record.lifecycle ≠ .running)
    (.job "RESOURCE_BUSY" "Business execution has not become quiescent")
  require (!roundOpen l operationId) (.job "RESOURCE_BUSY" "An earlier reconciliation retains its barrier")
  let profile ← env.profile parent.request.profileRef
  let budgets := profile.reconcile
  let plan := { parent.plan with budgets, reservationBytes := budgets.reservationBytes }
  capacity site l plan.reservationBytes
  let leases ← acquire site.aliases l.leases operationId parent.request.expected.deploymentEpoch
    plan.resourceIds
  let l ← { l with leases }.insert ⟨.reconcile, roundId⟩ operationId principal.id digest parent.request
    plan plan.reservationBytes
  l.update ⟨.reconcile, roundId⟩ .observationBound (bound env m l principal)

/-- `reconcile` -/
def reconcile (l : Ledger) (operationId digest roundId : String) (principal : Principal) :
    Except Fault Ledger := do
  let parent ← ownRow env l ⟨.job, operationId⟩ principal "lh:reconcile"
  require (parent.digest = digest) (.job "CONFLICT" "Reconciliation request digest does not match")
  match l.get ⟨.reconcile, roundId⟩ with
  | some old => do
    require (old.principal = principal.id)
      (.job "UNAUTHORIZED" "Reconciliation ownership does not match")
    require (old.parent = operationId && old.digest = digest)
      (.job "CONFLICT" "Reconciliation ID binds another request")
    return l
  | none => admitRound site env m l parent operationId digest roundId principal

/-- `revoke` -/
def revoke (l : Ledger) (principalId : String) : Ledger :=
  let closed : Ledger :=
    { l with
      generation := l.generation + 1
      revoked := if l.revoked.contains principalId then l.revoked else l.revoked ++ [principalId] }
  let targets := closed.rows.filter fun row =>
    row.principal = principalId && row.record.lifecycle ≠ .terminal
  targets.foldl (fun l row => l.write row.key .grantRevoked { cancelRequested := some true }) closed

end LocalHand.Broker
