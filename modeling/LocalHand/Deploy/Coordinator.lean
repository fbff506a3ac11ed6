/-
The deployment coordinator (`coordinator.py`): resume and compensation of one
operation after another, over the store and the maintenance gate.

The operation of a call stands in memory (`held`), its steps and its compensation
by their index; `restore` chooses between the two. A loop that may stop early
answers whether it reached its end.
-/
import LocalHand.Deploy.Store

namespace LocalHand.Deploy

open Program

variable {F : Type} [DecidableEq F] (site : Site F) (env : Env)

/-! ## Records in memory -/

/-- The entries one direction works on. -/
def Operation.entries (op : Operation) (restore : Bool) : List Entry :=
  if restore then op.compensation.getD [] else op.steps

def Operation.modifyEntries (op : Operation) (restore : Bool) (f : List Entry → List Entry) : Operation :=
  if restore then { op with compensation := op.compensation.map f } else { op with steps := f op.steps }

def entryAt (restore : Bool) (i : Nat) : M F Entry := do
  match ((← held).entries restore)[i]? with
  | some entry => return entry
  | none => raise (.value "IndexError")

/-- A change of one record. -/
def amend (restore : Bool) (i : Nat) (f : Record → Record) : M F Unit :=
  change fun op => op.modifyEntries restore fun entries => entries.modify i fun entry => { entry with record := f entry.record }

/-- A change of the last attempt. -/
def Record.modifyLast (record : Record) (f : Attempt → Attempt) : Record :=
  { record with attempts := match record.attempts.getLast? with
    | some attempt => record.attempts.dropLast ++ [f attempt]
    | none => [] }

/-! ## Waiting -/

/-- `_record_implementation` -/
def recordImplementation : M F Unit := do
  let op ← held
  if site.implementation.isSome && op.unfinished && op.implementation ≠ site.implementation then do
    change fun op => { op with implementation := site.implementation }
    persist env "IMPLEMENTATION_OBSERVED"
  else return

/-- `_wait` -/
def wait (reason : String) : M F Unit := do
  change fun op => { op with waiting := some reason }
  persist env "WAITING"

/-- The bounded error chain of the direction. -/
def Operation.noted (op : Operation) (code : String) : Operation :=
  let note (errors : List ErrorRecord) := if errors.length < 64 then errors ++ [⟨code, op.phase⟩] else errors
  { op with errors := match op.direction with
    | .rollback => { op.errors with recovery := note op.errors.recovery }
    | .apply => { op.errors with primary := note op.errors.primary } }

/-- `getattr(error, "code", type(error).__name__)` -/
def errorCode (fault : Fault) : String :=
  match fault.code, fault with
  | some code, _ => code
  | none, .runner code _ => code
  | none, .busy => "BlockingIOError"
  | none, .os => "OSError"
  | none, _ => "ValueError"

/-- `_error` -/
def error (fault : Fault) : M F Unit := do
  change fun op => op.noted (errorCode fault)
  wait env "ACTION_FAILED"

/-! ## Handing off -/

/-- `_has_effects` -/
def Operation.hasEffects (op : Operation) : Bool :=
  op.heirs ≠ [] || op.steps.any (·.record.effective) || (op.gateOwned && op.plan.profile.securityRepair)

/-- `list(dict.fromkeys([...]))`, of a list without repetition and one id. -/
def withId (ids : List String) (id : String) : List String := ids.eraseDups ++ if id ∈ ids then [] else [id]

/-- `_inheritance` -/
def Operation.inheritance (op : Operation) : Except Fault (List String) :=
  if op.released then .ok []
  else if op.hasEffects then do
    require ((withId op.heirs op.id).length ≤ 16) (deployError "STATE_LIMIT" "Recovery chain exceeds its fixed limit")
    return withId op.heirs op.id
  else .ok []

/-- Whether the gate is closed for an operation. -/
def ownedBy (gate : Maintenance.Gate F) (id : String) : Bool := gate.state = .closed && gate.owner = some id

/-- The middle of `_handoff`: the successor with the gate. -/
def handoffGate (successor : Operation) : M F Unit := do
  let op ← held
  let state ← gateCall env (Maintenance.snapshot site.gate)
  let state ←
    if ownedBy state op.id then do
      persist env "HANDOFF_INTENT"
      gateCall env fun io => Maintenance.handoff site.gate io op.id successor.id (some (.obj state.marker))
    else pure state
  lift (require (ownedBy state successor.id)
    (deployError "HANDOFF_CONFLICT" "Maintenance ownership does not match the linked handoff"))
  save env { successor with gateOwned := true, gateSequence := some state.sequence } "HANDOFF_RECEIVED"

/-- `_handoff`, of an operation with a successor. -/
def handoff (successorId : String) : M F Unit := do
  let op ← held
  if op.handoffComplete then return
  else do
    recordImplementation site env
    let successor ← load successorId
    let op ← held
    let inherited ← lift op.inheritance
    -- A crash immediately after the atomic link must not lose responsibility.
    let successor ←
      if inherited ≠ [] && successor.inherited ≠ some inherited then do
        let successor := { successor with inherited := some inherited }
        save env successor "INHERITED_EFFECTS"
        pure successor
      else pure successor
    if op.gateOwned && !op.released then handoffGate site env successor
    else pure ()
    change fun op => { op with handoffComplete := true, waiting := none }
    persist env "HANDED_OFF"

/-! ## Preparing, closing, blocking -/

/-- The loop of `_prepare`. -/
def prepareSteps : List Nat → M F Unit
  | [] => return
  | i :: rest => do
    let entry ← entryAt false i
    if entry.record.value.isNone then do
      persist env "PREPARATION_INTENT"
      let value ← ask env.prepare
      amend false i fun record => { record with value := some value }
      persist env "PREPARED_STEP"
    else pure ()
    prepareSteps rest

/-- `_prepare` -/
def prepare : M F Unit := do
  prepareSteps env (List.range (← held).steps.length)
  change fun op => { op with phase := .prepared }
  persist env "PREPARED"

/-- `_close` -/
def close : M F Unit := do
  let op ← held
  if !op.gateOwned then ask env.budget else pure ()
  let state ← gateCall env (Maintenance.snapshot site.gate)
  let state ←
    if ownedBy state op.id then pure state
    else do
      persist env "CLOSE_INTENT"
      gateCall env fun io => Maintenance.close site.gate io op.id (some (.obj state.marker))
  change fun op => { op with gateOwned := true, gateSequence := some state.sequence }
  persist env "CLOSED"

/-- `_block` -/
def block : M F Unit := do
  persist env "STARTUP_BLOCK_INTENT"
  ask env.blockStartup
  change fun op => { op with startupBlocked := true }
  persist env "STARTUP_BLOCKED"

/-! ## Observing -/

/-- An identity the environment reads for the last attempt: kept, or refused
where another is recorded. -/
def retained (old identity : Option String) (fault : Fault) : Except Fault (Option String) :=
  match identity with
  | none => .ok old
  | some value => do
    require (old.getD value = value) fault
    return some value

/-- `_retain_effect_identity` -/
def retainEffectIdentity (restore : Bool) (i : Nat) : M F Bool := do
  let ⟨step, record⟩ ← entryAt restore i
  match record.attempts.getLast? with
  | none => return false
  | some attempt =>
    if step.kind = .gateway && attempt.binding.any (· ≠ []) then
      if step.action.kind = some "gateway_start" || step.action.kind = some "gateway_stop" then do
        let identity ← ask fun n => env.completionIdentity n record
        let completion ← lift (retained attempt.completionIdentity identity
          (deployError "COMPLETION_IDENTITY_CONFLICT" "Original completion cannot be rebound"))
        amend restore i fun record => record.modifyLast fun attempt => { attempt with completionIdentity := completion }
        return completion ≠ attempt.completionIdentity
      else if step.action.kind = some "gateway_create" then do
        let identity ← ask fun n => env.effectIdentity n record
        let effect ← lift (retained attempt.effectIdentity identity
          (deployError "EFFECT_IDENTITY_CONFLICT" "Original effect identity cannot be rebound"))
        let required := attempt.effectIdentityRequired
          || (identity.isNone && (record.state = .verified || record.state = .restored))
        amend restore i fun record => record.modifyLast fun attempt =>
          { attempt with effectIdentity := effect, effectIdentityRequired := required }
        return effect ≠ attempt.effectIdentity || required ≠ attempt.effectIdentityRequired
      else return false
    else return false

/-- An observation is recorded: with its identity, and for good if it was effective. -/
def noteObservation (restore : Bool) (i : Nat) (observed : Observation) (note : Record → Record) : M F Unit := do
  amend restore i fun record => { note record with observation := some observed }
  let _ ← retainEffectIdentity env restore i
  if !restore then amend restore i fun record => { record with effective := record.effective || observed.effective }
  else pure ()

/-- `target` and closed. -/
def Observation.reached (observed : Observation) : Bool := observed.state = .target && observed.closed

/-- The covered effects found so far, the last first. -/
abbrev Covered := List (String × String)

def coveredBy (covered : Covered) (key : String) : Option String := (covered.find? (·.1 = key)).map Prod.snd

/-- One turn of the loop of `_refresh`. -/
def refreshStep (i : Nat) (covered : Covered) : M F Covered := do
  let ⟨step, record⟩ ← entryAt false i
  if record.value.isNone || !(record.attempts ≠ [] || record.effective
      || record.state = .verified || record.state = .restored) then return covered
  else do
    if ← retainEffectIdentity env false i then persist env "EFFECT_IDENTITY_RETAINED" else pure ()
    match coveredBy covered (env.effectKey step) with
    | some id => do
      amend false i fun record => { record with coveredBy := some id }
      return covered
    | none => do
      amend false i fun record => { record with coveredBy := none }
      let observed ← ask env.observe
      noteObservation env false i observed id
      return if observed.reached then (env.effectKey step, step.id) :: covered else covered

/-- One turn of the loop of `_refresh_compensation`. -/
def refreshEntry (i : Nat) (covered : Covered) : M F Covered := do
  let ⟨step, record⟩ ← entryAt true i
  match coveredBy covered (env.effectKey step) with
  | some id => do
    amend true i fun record => { record with coveredBy := some id }
    return covered
  | none => do
    amend true i fun record => { record with coveredBy := none }
    if record.attempts ≠ [] || record.state = .restored then do
      if ← retainEffectIdentity env true i then persist env "EFFECT_IDENTITY_RETAINED" else pure ()
      let observed ← ask env.observe
      noteObservation env true i observed id
      return if observed.reached then (env.effectKey step, step.id) :: covered else covered
    else return covered

/-- A loop from the last of `n` records to the first. -/
def reversed (turn : Nat → Covered → M F Covered) : Nat → Covered → M F Unit
  | 0, _ => return
  | n + 1, covered => do reversed turn n (← turn n covered)

/-- `_refresh_compensation` -/
def refreshCompensation : M F Unit := do
  let original := (← held).compensation
  reversed (refreshEntry env) (original.getD []).length []
  if (← held).compensation ≠ original then persist env "RESTORATION_RECONCILED" else pure ()

/-- `_refresh` -/
def refresh : M F Unit := do
  let op ← held
  if op.compensation.isSome then refreshCompensation env
  else do
    reversed (refreshStep env) op.steps.length []
    if (← held).steps ≠ op.steps then persist env "RECONCILED" else pure ()

/-- A record whose caller is not known to have ended. -/
def Record.unresolved (record : Record) : Bool :=
  record.coveredBy.isNone && record.observation.any fun observed =>
    observed.state = .running || observed.state = .unknown || !observed.closed

/-- `_unresolved` -/
def Operation.unresolved (op : Operation) : Bool :=
  (op.entries op.compensation.isSome).any (·.record.unresolved)

/-! ## One step -/

/-- `_requires_sync` -/
def Step.requiresSync (step : Step) : Bool :=
  step.kind = .file || (step.kind = .service && step.action.kind = some "service_policy_link")

/-- `_step_complete` -/
def Step.complete (step : Step) (observed : Observation) : Bool :=
  observed.reached && (!step.requiresSync || observed.synced)

/-- An attempt that may have been dispatched. -/
def Attempt.counts (attempt : Attempt) : Bool :=
  attempt.dispatched ≠ some false && (attempt.binding.isSome || attempt.command ≠ .notAttempted)

def Attempt.fresh (id : AttemptId) : Attempt where
  id := id
  binding := none
  command := .notAttempted
  dispatched := some false
  completionIdentity := none
  effectIdentity := none
  effectIdentityRequired := false

/-- What an observation says of the last attempt. -/
def Record.dispatched (record : Record) (observed : Observation) : Record :=
  match observed.dispatched with
  | some dispatched => record.modifyLast fun attempt => { attempt with dispatched := dispatched }
  | none => record

/-- What a returned `execute` says of it. -/
def Record.returned (record : Record) (observed : Observation) : Record :=
  record.modifyLast fun attempt => { attempt with command := .returned, dispatched := observed.dispatched.getD (some true) }

def finished (restore : Bool) : RecordState := if restore then .restored else .verified

/-- The end of a step whose effect is there. -/
def verify (restore : Bool) (i : Nat) : M F Bool := do
  amend restore i fun record => { record with state := finished restore }
  persist env (if restore then "RESTORED_STEP" else "VERIFIED_STEP")
  return true

def waitStep (reason : String) : M F Bool := do
  wait env reason
  return false

/-- The part of `_step` for a visible effect: a file publication or a policy link
may still miss its directory sync. -/
def syncStep (restore : Bool) (i : Nat) (step : Step) (observed : Observation) : M F Bool := do
  if step.requiresSync && !observed.synced then do
    ask env.budget
    persist env "SYNC_INTENT"
    let entry ← entryAt restore i
    let observed ← ask fun n => env.sync n entry.record
    amend restore i fun record => { record with observation := some observed }
    if step.complete observed then verify env restore i
    else waitStep env "SYNC_PENDING"
  else verify env restore i

/-- The callback `bind` of an attempt. -/
def bindSupervisor (restore : Bool) (i : Nat) : List Binding → M F Unit
  | [] => return
  | binding :: rest => do
    amend restore i fun record => record.modifyLast fun attempt =>
      { attempt with binding := some binding, command := .unknown, dispatched := none }
    persist env "SUPERVISOR_BOUND"
    bindSupervisor restore i rest

/-- `environment.execute`, of an attempt. -/
def execute (restore : Bool) (i : Nat) (id : AttemptId) : M F Observation := do
  modify fun c => { c with log := c.log ++ [.executed (find c.op.id c.rows) restore i id] }
  let execution ← ask fun n => .ok (env.execute n)
  bindSupervisor env restore i execution.bindings
  ask fun _ => execution.result

/-- The part of `_step` from the intent of an attempt on. -/
def attemptStep (restore : Bool) (i : Nat) (step : Step) : M F Bool := do
  let op ← held
  let entry ← entryAt restore i
  let id : AttemptId := ⟨op.id, step.id, restore, entry.record.attempts.length⟩
  ask env.budget
  amend restore i fun record => { record with attempts := record.attempts ++ [.fresh id], state := .intentRecorded }
  persist env (if restore then "RESTORE_INTENT" else "ACTION_INTENT")
  persist env "CANDIDATE_STARTUP_INTENT"
  ask env.candidateStartup
  let observed ← execute env restore i id
  noteObservation env restore i observed fun record => record.returned observed
  persist env "ACTION_RETURNED"
  if step.complete observed then verify env restore i
  else waitStep env "POSTCONDITION_PENDING"

/-- `_step` -/
def step (restore : Bool) (i : Nat) : M F Bool := do
  let ⟨step, record⟩ ← entryAt restore i
  if !restore && record.coveredBy.isSome then return true
  else do
    let observed ← ask env.observe
    noteObservation env restore i observed fun record => record.dispatched observed
    persist env "OBSERVATION"
    if observed.reached then syncStep env restore i step observed
    else if observed.state = .unknown || observed.state = .running || observed.state = .conflict || !observed.closed then
      waitStep env "RECONCILE_REQUIRED"
    else do
      let entry ← entryAt restore i
      if site.limits.maxAttempts ≤ (entry.record.attempts.filter Attempt.counts).length then
        waitStep env "ATTEMPT_BUDGET"
      else attemptStep env restore i step

/-- The steps in order, up to the first that waits; a covered compensation is
passed over. -/
def stepAll (restore : Bool) : List Nat → M F Bool
  | [] => return true
  | i :: rest => do
    let entry ← entryAt restore i
    if restore && entry.record.coveredBy.isSome then stepAll restore rest
    else if ← step site env restore i then stepAll restore rest
    else return false

/-! ## Decisions -/

/-- `_release` once the gate is held and its release is found valid. -/
def releaseGate (state : Maintenance.Gate F) (selected : String) : M F Unit := do
  match env.activateRetention with
  | some activate => do
    ask env.retentionDecisions
    persist env "COMPATIBILITY_DECISIONS"
    ask activate
  | none => pure ()
  persist env "STABLE_SELECTION_INTENT"
  ask env.publishStable
  persist env "STABLE_SELECTION"
  persist env "RELEASE_INTENT"
  let op ← held
  let _ ← gateCall env fun io =>
    Maintenance.release site.gate io op.id (op.decisionId.getD "") selected (some (.obj state.marker))
  change fun op => { op with released := true, waiting := none }
  persist env "RELEASED"

/-- `_release` -/
def release : M F Unit := do
  let op ← held
  if !op.gateOwned then do
    change fun op => { op with released := true }
    persist env "NO_OWNED_GATE"
  else do
    let state ← gateCall env (Maintenance.snapshot site.gate)
    let selected ← ask env.selectedDeployment
    if state.state = .open && some state.decisionId = op.decisionId && state.deploymentDigest = selected then do
      change fun op => { op with released := true }
      persist env "RELEASE_OBSERVED"
    else if ← ask env.releaseValid then releaseGate site env state selected
    else wait env "DECISION_REQUIRES_LINKED_REPAIR"

/-- `_decide` -/
def decide (decision : Decision) : M F Unit := do
  change fun op => { op with
    decision := some decision, decisionId := some (site.decisionId op.id decision), phase := decision.phase, waiting := none }
  persist env "DECISION"
  release site env

/-! ## Forward -/

/-- `_apply` from the drained gate on. -/
def applySteps : M F Unit := do
  match env.quiescedRetention with
  | some retention => do
    ask retention
    persist env "RETAINED_BINDINGS"
  | none => pure ()
  change fun op => { op with phase := .quiesced }
  persist env "QUIESCED"
  -- The first block precedes every forward effect.
  if !(← held).startupBlocked then block env else pure ()
  change fun op => { op with phase := .applying }
  persist env "APPLYING"
  if ← stepAll site env false (List.range (← held).steps.length) then do
    let passed ← ask env.checkLocal
    change fun op => { op with checks := { op.checks with local' := some passed } }
    persist env "LOCAL_CHECK"
    if passed then do
      change fun op => { op with phase := .localVerified }
      persist env "LOCAL_VERIFIED"
      decide site env .committed
    else wait env "LOCAL_CHECK_FAILED"
  else return

/-- Whether business has ended: the drained environment and no accepted
responsibility. -/
def drained : M F Bool := do
  let quiescent ← ask env.drain
  let active ← gateCall env (Maintenance.active site.gate)
  return quiescent && active = []

def Operation.isolation (op : Operation) : List Nat :=
  (List.range op.steps.length).filter fun i => op.steps[i]?.any fun entry => entry.step.action.phase = some "isolate"

/-- Isolation is the only effect before business drains. -/
def isolate : M F Bool := do
  let op ← held
  if op.isolation ≠ [] || op.plan.profile.securityRepair then do
    if !op.startupBlocked then block env else pure ()
    stepAll site env false op.isolation
  else return true

/-- `_apply` from the closed gate on. -/
def applyClosed : M F Unit := do
  if !(← held).gateOwned then close site env else pure ()
  refresh env
  if (← held).unresolved then wait env "CALLER_NOT_CLOSED"
  else if ← isolate site env then
    if ← drained site env then applySteps site env else wait env "DRAIN"
  else return

/-- A plan that changes nothing. -/
def Plan.noChange (plan : Plan) : Bool := plan.steps = [] && plan.source = plan.target

/-- `_apply` -/
def applyPlan : M F Unit := do
  if (← held).phase = .planned then do
    ask env.preflight
    change fun op => { op with phase := .preparing }
    persist env "PREFLIGHT"
  else pure ()
  let op ← held
  if op.phase = .preparing then do
    prepare env
    if op.plan.noChange then do
      let passed ← ask env.checkLocal
      change fun op => { op with checks := { op.checks with local' := some passed } }
      persist env "NO_CHANGE_CHECK"
      if passed then decide site env .committed else wait env "LOCAL_CHECK_FAILED"
    else applyClosed site env
  else applyClosed site env

/-! ## Back -/

def Entry.compensating (action : Step × String) : Entry := ⟨action.1, { Record.fresh with value := some action.2 }⟩

/-- The fixed list of compensations, prepared once. -/
def prepareRestore : M F Unit := do
  if (← held).compensation.isNone then do
    block env
    persist env "RESTORE_PREPARATION_INTENT"
    let actions ← ask env.prepareCompensation
    lift (require (actions.length ≤ site.limits.maxSteps)
      (deployError "STATE_LIMIT" "Compensation exceeds the fixed action count"))
    change fun op => { op with compensation := some (actions.map Entry.compensating) }
    persist env "RESTORE_PREPARED"
  else return

/-- `_rollback` from the drained gate on. -/
def restoreSteps : M F Unit := do
  prepareRestore site env
  refreshCompensation env
  if ← stepAll site env true (List.range ((← held).compensation.getD []).length) then do
    let passed ← ask env.checkLocal
    change fun op => { op with checks := { op.checks with restored := some passed } }
    persist env "RESTORATION_CHECK"
    if passed then decide site env .rolledBack else wait env "RESTORATION_CHECK_FAILED"
  else return

/-- `_rollback` -/
def rollBack : M F Unit := do
  refresh env
  let op ← held
  if op.unresolved then wait env "CALLER_NOT_CLOSED"
  else if !op.hasEffects then decide site env .abortedNoChange
  else do
    if !op.gateOwned then close site env else pure ()
    if ← drained site env then restoreSteps site env else wait env "DRAIN"

/-! ## Calls -/

/-- The body of `_run` that `_error` guards. -/
def proceed : M F Unit := do
  let op ← held
  if op.decision.isSome then release site env
  else if op.direction = .rollback then rollBack site env
  else applyPlan site env

/-- `_run` -/
def run (op : Operation) : M F Unit := do
  change fun _ => op
  ask env.forOperation
  match op.successor with
  | some successor => handoff site env successor
  | none =>
    if op.released then return
    else do
      recordImplementation site env
      tryCatch (proceed site env) fun
        | .raised fault => error env fault
        | .crashed => throw .crashed

/-- `Coordinator.apply` -/
def apply (plan : Plan) : M F Unit := do
  lift (validatePlan site plan)
  let existing := (← list site).find? fun op => op.plan.requestId = plan.requestId
  if existing.isNone then do
    lift (require (!(← list site).any Operation.unfinished) (deployError "RECOVERY_REQUIRED"
      "Resume or explicitly hand off the existing operation before creating another"))
    lift (require (!plan.profile.recoveryFrom) (deployError "RECOVERY_REQUIRED"
      "A corrective plan must be linked with supersede, not applied independently"))
  else pure ()
  let operation ← create site env plan
  let others := (← list site).filter fun op =>
    op.unfinished && op.id ≠ operation.id && op.successor ≠ some operation.id
  lift (require (others = [] || operation.released || operation.successor.isSome) (deployError "RECOVERY_REQUIRED"
    "Another recorded operation requires resume or explicit handoff"))
  run site env operation

/-- `Coordinator.resume` -/
def resume (id : String) : M F Unit := do run site env (← load id)

/-- `Coordinator.rollback` -/
def rollback (id : String) : M F Unit := do
  let op ← load id
  change fun _ => op
  ask env.forOperation
  match op.successor with
  | some successor => handoff site env successor
  | none =>
    match op.rollbackSuccessor with
    | some successor => do run site env (← load successor)
    | none =>
      if op.decision = some .committed then do
        let plan ← ask env.restoredPlan
        run site env (← link site env plan true)
      else if op.decision.isSome then run site env op
      else do
        if op.direction ≠ .rollback then do
          change fun op => { op with direction := .rollback }
          persist env "ROLLBACK_SELECTED"
        else pure ()
        run site env (← held)

/-- `Coordinator.supersede` -/
def supersede (id : String) (plan : Plan) : M F Unit := do
  lift (validatePlan site plan)
  let op ← load id
  change fun _ => op
  ask env.forOperation
  match op.successor with
  | some successor => do
    lift (require ((← load successor).plan.digest = plan.digest)
      (deployError "REQUEST_CONFLICT" "A different handoff is already recorded"))
    handoff site env successor
  | none => do
    ask env.validateSuccessor
    if op.released then do
      let successor ← link site env plan false
      handoff site env successor.id
    else do
      recordImplementation site env
      refresh env
      let op ← held
      if op.unresolved then wait env "CALLER_NOT_CLOSED"
      else do
        let inherited ← lift op.inheritance
        let successor ← link site env plan false
        if inherited ≠ [] then save env { successor with inherited := some inherited } "INHERITED_EFFECTS"
        else pure ()
        handoff site env successor.id

end LocalHand.Deploy
