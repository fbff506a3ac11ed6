/-
Starting a phase, delivering its stages, and the two administrative calls that
bind and close a quota observation.
-/
import LocalHand.Broker.Completion

namespace LocalHand.Broker

variable (site : Site) (env : Env) (m : Mem)

/-- The current phase has an intent and no proved exit. -/
def Record.inFlight (r : Record) : Bool := r.handles.keys.contains r.phase && !exitedProof r.exitProof

/-- `_execution_slots` -/
def executionSlots (l : Ledger) : Nat :=
  let running := (l.rows.filter (·.record.inFlight)).map Row.key
  running.length + (m.active.keys.filter fun key => !running.contains key).length

/-- The handle an intent names an execution by. -/
def intentHandle (exec : ExecId) (version : Option Int) : Handle where
  executionId := some exec
  intentOnly := true
  managerBinding := m.install.managerBinding
  supervisionVersion := version
  manager := none
  rest := ""

/-- The frozen result is decided, quiescent and the original execution's. -/
def frozenDecided (row : Row) (prior : Budget.Grant) : Bool :=
  match row.record.businessOutcome, row.record.frozenSnapshot with
  | some outcome, some frozen =>
    let q := frozen.quiescence
    decidedOutcome outcome && row.record.outcome = outcome && row.record.businessExitProof.any Proof.complete
      && q.futureStartsBlocked && q.treeExited && q.collectorsStopped && q.writersStopped
      && frozen.operationId = row.parent
      && frozen.reconcileId = (if row.ns = .reconcile then some row.id else none)
      && q.executionId = some prior.executionId && q.eventSeq = frozen.eventSeq && 0 < frozen.eventSeq
  | _, _ => false

/-- The intents, enqueuings and deliveries of the row, at most sixteen of them. -/
def firstLaunches (l : Ledger) (key : Key) : List Event :=
  ((l.eventsOf key).filter fun event => [Kind.executionIntent, .launchEnqueued, .managerDeliveryIntent].contains
    event.kind).take 16

/-- The event tells of evidence work, besides its intent. -/
def mentionsEvidence (key : Key) (event : Event) : Bool :=
  event.changes.handles.any (·.keys.contains .evidence)
    || (event.changes.deliveryIntents.getD []).any (·.exec = key.exec .evidence)

/-- The last loop of `_first_recovered_evidence`: the evidence intents, if all is in order. -/
def evidenceIntents (row : Row) (recovery : Nat) (committed : Bool) (expected : Handle) :
    List Event → Option Nat
  | [] => some 0
  | event :: rest =>
    if event.kind = .executionIntent && event.changes.phase = some .evidence then
      if !committed || event.seq ≤ recovery || event.changes.executionBudget ≠ row.record.executionBudget
          || event.changes.handles.bind (·.lookup .evidence) ≠ some expected then none
      else (evidenceIntents row recovery committed expected rest).map (· + 1)
    else if event.seq < recovery && mentionsEvidence row.key event then none
    else evidenceIntents row recovery committed expected rest

/-- `_first_recovered_evidence`, past the record's own members. -/
def firstEvidenceHistory (l : Ledger) (row : Row) (committed : Bool) : Bool :=
  let version := (row.record.handles.lookup .evidence).bind (·.supervisionVersion)
  match row.record.frozenSnapshot, frozenEvent l row, l.last row.key .recoveryBarrier with
  | some frozen, some event, some recovery =>
    frozen.eventSeq < event.seq && event.seq < recovery.seq
      && (firstLaunches l row.key).length ≤ 15 && version.all (· = 3)
      && evidenceIntents row recovery.seq committed (intentHandle m (row.key.exec .evidence) version)
        (firstLaunches l row.key) = some (if committed then 1 else 0)
  | _, _, _ => false

/-- `_first_recovered_evidence` -/
def firstRecoveredEvidence (l : Ledger) (row : Row) (committed : Bool) : Bool :=
  let record := row.record
  let observed := match row.ns with
    | .job => Phase.business
    | .reconcile => .reconcile
  let before := match row.ns with
    | .job => [Phase.preflight, .business]
    | .reconcile => [.reconcile]
  record.recovered && record.phase = (if committed then .evidence else .awaitingSeal)
    && keysAre record.handles (if committed then before ++ [.evidence] else before)
    && record.handles.entries.all (fun entry => entry.2.managerBinding = m.install.managerBinding)
    && match storedGrant site row observed with
      | .error _ => false
      | .ok prior => frozenDecided row prior && firstEvidenceHistory m l row committed

/-! ## Starting a phase -/

/-- The row whose request the execution serves. -/
def parentRow (l : Ledger) (row : Row) : Except Fault Row :=
  match row.ns with
  | .job => .ok row
  | .reconcile => l.row ⟨.job, row.parent⟩

def Row.principalOf (row : Row) : Principal := ⟨row.principal, row.record.principalScopes⟩

/-- The scope an execution of the row is authorized by. -/
def startScope (row : Row) : String :=
  match row.ns with
  | .job => "lh:submit"
  | .reconcile => "lh:reconcile"

/-- The admitted generation and deployment still hold. -/
def currentAuthority (l : Ledger) (row parent : Row) : Except Fault Bool := do
  let expected ← env.expected parent.request.profileRef
  return row.record.generation = generation env l && parent.request.expected = expected

/-- A round starts after its parent's execution has exited. -/
def priorExit (parent : Row) (phase : Phase) : Except Fault Unit :=
  require (phase ≠ .reconcile || exitedProof parent.record.exitProof)
    (.job "IO_UNCERTAIN" "Prior execution must have independent exit proof before another helper")

/-- A business phase follows stable preflight facts and an unchanged plan. -/
def businessChecks (row parent : Row) (phase : Phase) : Except Fault Unit :=
  if phase = .business then do
    require (row.record.facts.any (·.inputsStable))
      (.job "IO_UNCERTAIN" "Preflight facts do not permit business execution")
    let current ← env.resolve parent.request
    require (current.planDigest = row.plan.planDigest)
      (.job "STALE_DEPLOYMENT" "The immutable execution plan or prerequisite evidence changed")
  else .ok ()

/-- Only an operation with no later event may acquire its budget. -/
def freshBudget (l : Ledger) (row : Row) : Bool :=
  row.record.executionBudget.isSome
    || (l.eventsOf row.key).all fun event => [Kind.accepted, .admissionBound, .observationBound].contains event.kind

/-- The checks of `_start` that raise, before its budget. -/
def startChecks (l : Ledger) (row parent : Row) (phase : Phase) : Except Fault Unit := do
  priorExit parent phase
  authorize env l row.principalOf (startScope row) (some parent.request) none
  let current ← currentAuthority env l row parent
  require current (.job "STALE_DEPLOYMENT" "Startup authorization generation changed")
  ownsResources site l row parent
  businessChecks env row parent phase
  require (!row.record.recovered || (phase = .evidence && firstRecoveredEvidence site m l row false))
    (.job "IO_UNCERTAIN" "Recovered execution does not prove a first evidence intent")
  require (freshBudget l row)
    (.job "IO_UNCERTAIN" "Prior operation events cannot acquire a fresh execution budget")

/-- Every other phase a quota row has prepared is closed. -/
def earlierClosed (l : Ledger) (row : Row) (phase : Phase) (quota : Bool) : Except Fault Unit :=
  if quota then (row.record.quotaPreparations.keys.filter (· ≠ phase)).forM (checkOriginal l row closures)
  else .ok ()

/-- Whether the row is bound to quotas; every earlier prepared phase is closed then. -/
def quotaAdmitted (l : Ledger) (row : Row) (phase : Phase) : Except Fault Bool := do
  let version ← admissionVersion l row
  require (!(m.install.quotaRequired && version ≠ some 1))
    (.job "IO_UNCERTAIN" "Historical admission cannot acquire a new quota binding")
  earlierClosed l row phase (version = some 1)
  return version = some 1

/-- The budget of the phase: the preparation's, or a new reservation. -/
def startBudget (l : Ledger) (row : Row) (phase : Phase) (quota : Bool) :
    Except Fault (Budget.State × Budget.Grant) :=
  if quota && (row.record.quotaPreparations.lookup phase).isSome then do
    let preparation ← original l row phase preparations
    require (preparation.session = m.session)
      (.job "IO_UNCERTAIN" "Quota preparation retained across restart; no automatic continuation")
    match row.record.executionBudget with
    | none => .error (.key "execution_budget")
    | some state => do
      let grant ← storedGrant site row phase
      let remaining ← Budget.phaseRemainingNs site.sha256 grant env.clock
      require (grant.limits.terminateGraceSeconds * Budget.nanoseconds < remaining)
        (.job "LIMIT_EXCEEDED" "Original quota preparation deadline expired")
      return (state, grant)
  else Budget.reserve site.sha256 row.budget phase env.clock

/-- The evidence store a profile admits as an extra root. -/
def evidenceStore (profile : Profile) (phase : Phase) : Except Fault (Option BootstrapRoots.Root) :=
  if phase = .evidence then
    match profile.bootstrapEvidenceStore with
    | none => .error (.job "UNSUPPORTED" "Evidence writer has no exact bootstrap admission")
    | some store => do
      require (m.install.evidence = some store.path)
        (.job "UNSUPPORTED" "Evidence writer has no exact bootstrap admission")
      return some store
  else .ok none

/-- The roots a profile with slots gives the phase. -/
def startRoots (l : Ledger) (row : Row) (profile : Profile) (phase : Phase) (grant : Budget.Grant) :
    Except Fault (Option BootstrapRoots.Grant × Ledger) :=
  match profile.bootstrapSlots with
  | none => .ok (none, l)
  | some slots => do
    let _ ← Budget.substageLimits site.sha256 grant .bootstrap 3
    let extra ← evidenceStore m profile phase
    let (allocation, l) ← reserveRoots site l row phase slots extra
    return (some allocation, l)

/-- What the first transaction of `_start` comes to: it returned, it prepared a
quota, or it committed the intent, with whether roots are allocated. -/
inductive Begun where
  | refused
  | waiting (l : Ledger)
  | intended (l : Ledger) (allocated : Bool)

/-- A fault of the quota contract, as the broker reports it. -/
def asUncertain {α : Type} (message : String) : Except Fault α → Except Fault α
  | .error (.value _) => .error (.job "IO_UNCERTAIN" message)
  | answer => answer

/-- The committed intent of the phase. -/
def intend (l : Ledger) (row : Row) (phase : Phase) (state : Budget.State) (grant : Budget.Grant)
    (allocated : Bool) : Except Fault Begun := do
  validateBinding m.install.managerBinding grant.bootId
  let handle := intentHandle m (row.key.exec phase) (if allocated then some 3 else none)
  let l ← l.update row.key .executionIntent
    { phase := some phase, lifecycle := some .running, handles := some (row.record.handles.insert phase handle)
      executionBudget := some state, exitProof := some none
      businessStarted := some (if phase = .business then none else row.record.businessStarted)
      helperStarted := some (if row.record.helperStarted = some true || phase = .business then
        row.record.helperStarted else none) }
  env.phasePlan
  return .intended l allocated

/-- The first quota preparation of the phase. -/
def prepare (l : Ledger) (row : Row) (phase : Phase) (state : Budget.State) (grant : Budget.Grant)
    (allocation : BootstrapRoots.Grant) : Except Fault Begun := do
  let prepared : Preparation := ⟨phase, m.session, grant, allocation, row.record.generation⟩
  let l ← l.update row.key .quotaPreparation
    { quotaEventPhase := some phase, executionBudget := some state
      quotaPreparations := some (row.record.quotaPreparations.insert phase prepared) }
  return .waiting l

/-- The quota part of `_start`, and the intent behind it. -/
def startQuota (l : Ledger) (row : Row) (phase : Phase) (state : Budget.State) (grant : Budget.Grant) :
    Option BootstrapRoots.Grant → Except Fault Begun
  | none => .error (.job "UNSUPPORTED" "Quota binding requires preprovisioned bootstrap slots")
  | some allocation =>
    if (row.record.quotaPreparations.lookup phase).isNone then prepare m l row phase state grant allocation
    else if (row.record.quotaBindings.lookup phase).isNone then .ok (.waiting l)
    else do
      let _ ← asUncertain "Quota observation binding is unresolved" (selected env l row phase m.session true)
      intend env m l row phase state grant true

/-- The first transaction of `_start`, past its checks. -/
def beginPhase (l : Ledger) (row parent : Row) (phase : Phase) : Except Fault Begun := do
  let quota ← quotaAdmitted m l row phase
  let (state, grant) ← startBudget site env m l row phase quota
  require (!row.record.handles.keys.contains phase) (.job "CONFLICT" "Execution intent cannot be replayed")
  let profile ← env.profile parent.request.profileRef
  let (allocation, l) ← startRoots site m l row profile phase grant
  if quota then startQuota env m l row phase state grant allocation
  else intend env m l row phase state grant allocation.isSome

/-- The first transaction of `_start`. -/
def begin (l : Ledger) (key : Key) (phase : Phase) : Except Fault Begun :=
  match l.get key with
  | none => .ok .refused
  | some row =>
    if row.record.cancelRequested || site.maxRunning ≤ executionSlots m l then .ok .refused
    else do
      let parent ← parentRow l row
      if phase = .reconcile && (parent.record.lifecycle = .accepted || parent.record.lifecycle = .running) then
        return .refused
      else do
        startChecks site env m l row parent phase
        beginPhase site env m l row parent phase

/-- The second transaction of `_start`: the runner's handle is saved. -/
def acknowledge (l : Ledger) (key : Key) (phase : Phase) (handle : Handle) (allocated : Bool) :
    Except Fault Ledger := do
  let row ← l.row key
  let saved := if allocated then { handle with supervisionVersion := some 3 } else handle
  l.update key .launchEnqueued { handles := some (row.record.handles.insert phase saved) }

/-! ## Delivering a stage -/

/-- What is asked of `_guard_start`. -/
structure Delivery where
  exec : ExecId
  stage : Option Stage
  bootstrapProof : Option Proof
  helperProof : Option Proof

def Delivery.id (d : Delivery) : DeliveryId := ⟨d.exec, d.stage⟩

/-- No delivery intent stands in this one's way. -/
def undelivered (delivered : List DeliveryId) (exec : ExecId) (stage : Option Stage) : Bool :=
  let has := fun s => delivered.contains ⟨exec, s⟩
  !(has none || has stage || (stage = none && delivered.any fun d => d.exec = exec && d.stage.isSome))
    && !(stage = some .bootstrap && (has (some .helper) || has (some .resultReader)))
    && !(stage = some .helper && has (some .resultReader))

/-- The bootstrap's own proof: it exited cleanly and prepared the roots. -/
def bootstrapProven (exec : ExecId) (proof : Proof) : Bool :=
  proof.executionId = some exec && proof.unit = some (site.unitName (DeliveryId.text ⟨exec, some .bootstrap⟩))
    && proof.state = .exited && proof.exitCode = some 0 && proof.complete
    && proof.result.any (·.bootstrapPrepared)

/-- The helper's own proof: it exited where it was placed. -/
def helperProven (exec : ExecId) (grant : Budget.Grant) (proof : Proof) : Bool :=
  let unit := site.unitName exec.text
  proof.executionId = some exec && proof.unit = some unit && proof.state = .exited && proof.exited
    && proof.collectorsStopped = some true && proof.writersStopped = some true
    && proof.identity.any (unitPlaced m.install.managerRoot unit (some grant.bootId))

/-- The last intent reserved three stages for this execution. -/
def threeStages (l : Ledger) (row : Row) (d : Delivery) : Bool :=
  (l.last row.key .executionIntent).any fun event =>
    event.changes.phase = some row.record.phase
      && event.changes.handles.bind (·.lookup row.record.phase) = some (intentHandle m d.exec (some 3))

/-- A helper follows its bootstrap's delivery and proved preparation. -/
def helperChecks (row : Row) (d : Delivery) : Except Fault Unit :=
  if d.stage = some .helper then do
    require (row.record.deliveryIntents.contains ⟨d.exec, some .bootstrap⟩)
      (.job "IO_UNCERTAIN" "Helper lacks its durable preparation intent")
    require (d.bootstrapProof.any (bootstrapProven site d.exec))
      (.job "IO_UNCERTAIN" "Preparation completion is not proven")
  else .ok ()

/-- A result reader follows both earlier deliveries, a three-stage intent and the helper's exit. -/
def readerChecks (l : Ledger) (row : Row) (handle : Handle) (grant : Budget.Grant) (d : Delivery) :
    Except Fault Unit :=
  if d.stage = some .resultReader then do
    require (handle.supervisionVersion = some 3
        && row.record.deliveryIntents.contains ⟨d.exec, some .bootstrap⟩
        && row.record.deliveryIntents.contains ⟨d.exec, some .helper⟩)
      (.job "IO_UNCERTAIN" "Result reader has no original three-stage reservation")
    require (threeStages m l row d)
      (.job "IO_UNCERTAIN" "Result reader reservation differs from immutable execution intent")
    let _ ← Budget.substageLimits site.sha256 grant .resultReader 3
    require (d.helperProof.any (helperProven site m d.exec grant))
      (.job "IO_UNCERTAIN" "Original helper exit is not proven for result reading")
  else .ok ()

/-- The roots of a staged delivery are still reserved. -/
def stageRoots (l : Ledger) (row : Row) (d : Delivery) : Except Fault Unit :=
  match d.stage, row.record.bootstrapGrants.lookup row.record.phase with
  | none, _ => .ok ()
  | some _, none => .error BootstrapRoots.unresolved
  | some _, some allocation => do
    BootstrapRoots.validateGrant site.roots allocation
      ⟨some d.exec.text, some row.record.phase, some row.parent, some row.ns, some row.id⟩
    BootstrapRoots.assertReserved site.roots l.leases allocation

/-- The time a delivery of the stage still has. -/
def stageRemaining (grant : Budget.Grant) : Option Stage → Except Fault Int
  | none => Budget.remainingNs site.sha256 grant env.clock
  | some _ => Budget.phaseRemainingNs site.sha256 grant env.clock

/-- There is time left past the stop grace. -/
def stageTime (grant : Budget.Grant) (stage : Option Stage) : Except Fault Unit := do
  let remaining ← stageRemaining site env grant stage
  require (grant.limits.terminateGraceSeconds * Budget.nanoseconds < remaining)
    (.job "LIMIT_EXCEEDED" "Operation has no runtime left after its required stop grace")

/-- An answer some errors of which stand for `return None`. -/
def refusedBy {α : Type} (codes : List String) : Except Fault α → Except Fault (Option α)
  | .ok a => .ok (some a)
  | .error fault => if fault.code.any codes.contains then .ok none else .error fault

/-- The current plan is the admitted one. -/
def stagePlan (row parent : Row) : Except Fault (Option Unit) :=
  if row.record.phase = .business then do
    let codes := ["UNAUTHORIZED", "STALE_DEPLOYMENT", "NOT_SEALED", "UNSUPPORTED"]
    let current ← refusedBy codes (env.resolve parent.request)
    return if current.any (·.planDigest = row.plan.planDigest) then some () else none
  else .ok (some ())

/-- The authority of the delivery at this moment; `none` refuses it. -/
def stageAuthority (l : Ledger) (row parent : Row) : Except Fault (Option Unit) := do
  let current ← currentAuthority env l row parent
  check current do
    match ← refusedBy ["UNAUTHORIZED"]
        (authorize env l row.principalOf (startScope row) (some parent.request) none) with
    | none => return none
    | some () => do
      ownsResources site l row parent
      stagePlan env row parent

/-- The quota part of a delivery, and the observation a helper's bootstrap made. -/
def stageQuota (l : Ledger) (row : Row) (d : Delivery) : Except Fault Ledger := do
  let phase := row.record.phase
  let grant ← selected env l row phase m.session (d.stage ≠ some .resultReader)
  match d.stage with
  | none => .error (.value "QUOTA_REQUIRES_THREE_STAGES")
  | some .bootstrap => return l
  | some .resultReader => do
    let saved ← original l row phase observations
    let _ ← env.validateObservation (some saved.observation) grant
    return l
  | some .helper => do
    let observation ← env.validateObservation
      ((d.bootstrapProof.bind (·.result)).bind (·.quotaObservation)) grant
    l.update row.key .quotaObserved
      { quotaEventPhase := some phase
        quotaObserved := some (row.record.quotaObserved.insert phase ⟨phase, observation⟩) }

/-- The quota part, where the row is bound to quotas. -/
def stageAdmission (l : Ledger) (row : Row) (d : Delivery) : Except Fault Ledger := do
  let version ← admissionVersion l row
  if version = some 1 then asUncertain "Original quota receipt is unresolved" (stageQuota env m l row d)
  else return l

/-- The proof a stage was given is recorded. -/
def recordProof (l : Ledger) (row : Row) (d : Delivery) : Except Fault Ledger :=
  match d.stage with
  | some .helper => l.update row.key .bootstrapComplete {}
  | some .resultReader => l.update row.key .helperExitObserved {}
  | _ => .ok l

/-- The updates of a delivery. -/
def deliver (l : Ledger) (row : Row) (d : Delivery) : Except Fault Ledger := do
  let l ← stageAdmission env m l row d
  let l ← recordProof l row d
  l.update row.key .managerDeliveryIntent
    { deliveryIntents := some (row.record.deliveryIntents ++ [d.id]) }

/-- `_guard_start` of an execution the row stands for. -/
def guardRow (l : Ledger) (row : Row) (d : Delivery) : Except Fault (Option Ledger) := do
  let record := row.record
  let handle := record.handles.lookup record.phase
  checkBinding m.install.managerBinding (handle.bind (·.managerBinding))
  check (handle.bind (·.executionId) = some d.exec && !record.cancelRequested) <|
    check (!record.recovered || (record.phase = .evidence && firstRecoveredEvidence site m l row true)) <|
    check (undelivered record.deliveryIntents d.exec d.stage) do
      helperChecks site row d
      let grant ← storedGrant site row record.phase
      readerChecks site m l row (handle.getD (intentHandle m d.exec none)) grant d
      stageRoots site l row d
      stageTime site env grant d.stage
      let parent ← parentRow l row
      match ← stageAuthority site env l row parent with
      | none => return none
      | some () => do
        let l ← deliver env m l row d
        return some l

/-- `_guard_start`, up to its launch; `none` where it returns without one. -/
def guardStart (l : Ledger) (d : Delivery) : Except Fault (Option Ledger) := do
  require (!(d.stage ≠ some .helper && d.bootstrapProof.isSome)
      && !(d.stage ≠ some .resultReader && d.helperProof.isSome))
    (.job "IO_UNCERTAIN" "Unknown manager delivery substage")
  match (m.owners.lookup d.exec).bind l.get with
  | none => return none
  | some row => guardRow site env m l row d

/-! ## Quota observations -/

/-- `bind_observation` -/
def bindObservation (l : Ledger) (key : Key) (phase : Phase) (grant : QuotaGrant) : Except Fault Ledger :=
  match l.get key with
  | none => .error (.job "IO_UNCERTAIN" "Quota preparation cannot be bound")
  | some row => do
    let record := row.record
    require (record.quotaBindingVersion = some 1 && !record.recovered && !record.cancelRequested
        && !record.handles.keys.contains phase && record.generation = generation env l)
      (.job "IO_UNCERTAIN" "Quota preparation cannot be bound")
    let prep ← original l row phase preparations
    require (prep.session = m.session && grant.allocation = prep.allocation && grant.budget = prep.budget)
      (.value "ORIGINAL_PREPARATION")
    env.checkGrant grant true
    match record.quotaBindings.lookup phase with
    | some _ => do
      let same ← selected env l row phase m.session true
      require (same = grant) (.value "QUOTA_BINDING_CONFLICT")
      return l
    | none => do
      require (!recorded l row phase quotaBindings)
        (.job "IO_UNCERTAIN" "Original quota binding snapshot is missing")
      l.update key .quotaObservationBound
        { quotaEventPhase := some phase
          quotaBindings := some (record.quotaBindings.insert phase ⟨phase, grant.digest, grant⟩) }

/-- Every stage of the execution has a durable delivery. -/
def deliveredAll (l : Ledger) (row : Row) (exec : ExecId) : Bool :=
  (staged exec).all fun d => row.record.deliveryIntents.contains d
    && (l.history row.key .managerDeliveryIntent).any fun c => (c.deliveryIntents.getD []).contains d

/-- The fence `close_observation` accepts. -/
def closureFence (l : Ledger) (row : Row) (phase : Phase) : Except Fault Fence := do
  let grant ← selected env l row phase m.session false
  let saved ← original l row phase observations
  let pending ← original l row phase pendings
  require (deliveredAll l row grant.executionId) (.value "ORIGINAL_DELIVERY_MISSING")
  let clock ← env.clock
  require (clock.bootId = grant.bootId) (.value "BOOT_CHANGED")
  let fence ← env.decodeFence grant saved.observation pending.proof
  require (fence.executionId = grant.executionId && fence.ordinaryDigest = site.proofDigest pending.proof)
    (.value "PHASE_FENCE")
  return fence

/-- The first transaction of `close_observation`. -/
def closeObservation (l : Ledger) (key : Key) (phase : Phase) : Except Fault Ledger :=
  match l.get key with
  | none => .error (.job "IO_UNCERTAIN" "Original quota phase is missing")
  | some row => do
    let fence ← closureFence site env m l row phase
    match row.record.quotaClosed.lookup phase with
    | some _ => do
      let saved ← original l row phase closures
      require (saved.fence = fence) (.value "PHASE_FENCE_CONFLICT")
      return l
    | none => do
      require (!recorded l row phase closures)
        (.job "IO_UNCERTAIN" "Original phase closure snapshot is missing")
      require (row.record.phase = phase) (.value "PHASE_CHANGED")
      l.update key .quotaPhaseClosed
        { quotaEventPhase := some phase
          quotaClosed := some (row.record.quotaClosed.insert phase ⟨phase, fence⟩)
          gaps := some (row.record.gaps.filter
            (· ≠ "Original management and ordinary phase closure is pending")) }

end LocalHand.Broker
