/-
What the coordinator records of an execution it observes: uncertainty, an
exhausted budget, and the exit of a phase with what it leads to.
-/
import LocalHand.Broker.Evidence

namespace LocalHand.Broker

variable (site : Site) (m : Mem)

/-- The phases in which a frozen business result is no longer the question. -/
def Phase.sealing (phase : Phase) : Bool :=
  phase = .awaitingSeal || phase = .evidence || phase = .exited

/-- The outcome of an uncertain row: a frozen business result is kept. -/
def uncertainOutcome (record : Record) : Outcome :=
  if Phase.sealing record.phase then record.businessOutcome.getD .unknown else .unknown

/-- The changes of `_unknown`. -/
def uncertainChanges (record : Record) (gap : String) : Changes where
  lifecycle := some .reconcileRequired
  outcome := some (uncertainOutcome record)
  gaps := some [gap]
  evidence := if record.phase = .evidence then some .durabilityUnknown else none

/-- The same uncertainty is recorded already. -/
def uncertainSaid (record : Record) (gap : String) : Bool :=
  record.lifecycle = .reconcileRequired && record.outcome = uncertainOutcome record && record.gaps = [gap]
    && (record.phase ≠ .evidence || record.evidence = .durabilityUnknown)

/-- `_unknown` -/
def unknown (l : Ledger) (key : Key) (gap : String) : Except Fault Ledger := do
  let row ← l.row key
  if row.record.lifecycle = .terminal || uncertainSaid row.record gap then return l
  else l.update key .executionUncertain (uncertainChanges row.record gap)

/-! ## Exhausted budgets -/

/-- The proof and the outcome a row blocked by its budget is left with. -/
def exhausted (record : Record) : Option (Option Proof × Outcome) :=
  if record.phase = .awaitingSeal then
    some (record.businessExitProof, record.businessOutcome.getD .unknown)
  else if record.phase = .queued && record.handles.keys = [] then some (some Proof.neverStarted, .failed)
  else if record.phase = .preflightComplete then
    some (record.exitProof,
      if record.exitProof.any (·.effectsChecked = some true) then .failed else .unknown)
  else none

/-- The update of `_budget_blocked`, and the release of a certain exit. -/
def blockExhausted (l : Ledger) (row : Row) (proof : Option Proof) (outcome : Outcome) :
    Except Fault Ledger := do
  let certain := outcome ≠ .unknown && proof.any Proof.certain
  let l ← l.update row.key .executionBudgetExhausted
    { phase := some .exited, lifecycle := some (if certain then .terminal else .reconcileRequired)
      outcome := some outcome, exitProof := some proof
      gaps := some ["Operation budget prevents another helper; prior observed business facts retained"] }
  if certain then release l row (proof.getD Proof.neverStarted) else return l

/-- `_budget_blocked`: whether it settled the row, and the ledger. -/
def budgetBlocked (l : Ledger) (key : Key) : Except Fault (Bool × Ledger) := do
  let row ← l.row key
  if row.record.lifecycle = .terminal then return (true, l)
  else if (m.active.lookup key).isSome then return (false, l)
  else match exhausted row.record with
    | none => return (false, l)
    | some (proof, outcome) => do
      let l ← blockExhausted l row proof outcome
      return (true, l)

/-! ## Exits -/

/-- The record of a quota row's exit before its phase is closed. -/
def recordPending (l : Ledger) (row : Row) (proof : Proof) : Except Fault Ledger :=
  let record := row.record
  match record.quotaPending.lookup record.phase with
  | none => do
    require (!recorded l row record.phase pendings)
      (.job "IO_UNCERTAIN" "Original pending exit snapshot is missing")
    l.update row.key .quotaExitPending
      { quotaEventPhase := some record.phase
        quotaPending := some (record.quotaPending.insert record.phase ⟨record.phase, proof⟩)
        gaps := some ["Original management and ordinary phase closure is pending"]
        exitProof := if record.recovered then some (some proof) else none }
  | some _ => do
    let saved ← original l row record.phase pendings
    require (saved.proof = proof) (.job "IO_UNCERTAIN" "Original pending exit proof changed")
    return l

/-- `_complete` of a quota row whose phase is not closed. -/
def completePending (l : Ledger) (row : Row) (proof : Proof) : Except Fault Ledger := do
  require (!recorded l row row.record.phase closures)
    (.job "IO_UNCERTAIN" "Original phase closure snapshot is missing")
  let l ← recordPending l row proof
  let current ← l.row row.key
  match ← completeStoppedExecution site m l current with
  | some l => return l
  | none => return l

/-- The publication an evidence helper reports. -/
def Proof.publication (proof : Proof) : Option Seal :=
  let result := proof.result.getD Result.none
  result.sealRecord.or (result.publication.or result.evidencePublication)

/-- The publication is complete, the row's own, and nothing still writes. -/
def published (row : Row) (proof : Proof) (publication : Seal) : Bool :=
  proof.exitCode = some 0 && publication.complete && publication.operationId = row.parent
    && publication.reconcileId = (if row.ns = .reconcile then some row.id else none)
    && proof.collectorsStopped = some true && proof.writersStopped = some true

/-- The exit of an evidence helper whose publication is not confirmed. -/
def evidenceUncertain (l : Ledger) (row : Row) (proof : Proof) : Except Fault Ledger :=
  l.update row.key .evidenceUncertain
    { phase := some .exited, lifecycle := some .reconcileRequired, evidence := some .durabilityUnknown
      outcome := some (row.record.businessOutcome.getD .unknown), exitProof := some (some proof)
      gaps := some ["Supervised evidence publication is not durably confirmed"] }

/-- The exit of an evidence helper that published. -/
def evidencePublished (l : Ledger) (row : Row) (proof : Proof) (publication : Seal) : Except Fault Ledger :=
  match row.record.businessOutcome with
  | none => .error (.key "business_outcome")
  | some outcome => do
    let l ← l.update row.key .evidenceHelperExit
      { phase := some .exited, outcome := some outcome, exitProof := some (some proof)
        lifecycle := some (if outcome = .unknown then .reconcileRequired else .terminal) }
    let l ← registerSeal l publication
    match row.record.businessExitProof with
    | some original => if original.effectsChecked = some true then release l row original else return l
    | none => return l

/-- `_complete` of an evidence helper. -/
def completeEvidence (l : Ledger) (row : Row) (proof : Proof) : Except Fault Ledger :=
  match proof.publication with
  | none => evidenceUncertain l row proof
  | some publication =>
    if published row proof publication then evidencePublished l row proof publication
    else evidenceUncertain l row proof

/-- `_complete` of a preflight that leads to its business. -/
def completePreflight (l : Ledger) (row : Row) (proof : Proof) : Except Fault Ledger :=
  match proof.facts.filter (·.inputsStable) with
  | none => .error (.job "IO_UNCERTAIN" "Preflight returned no stable input proof")
  | some facts =>
    let recovered := row.record.recovered
    l.update row.key .preflightComplete
      { phase := some (if recovered then .exited else .preflightComplete)
        lifecycle := some (if recovered then .reconcileRequired else .running)
        outcome := some (if recovered then .unknown else .pending)
        helperStarted := some (some true), facts := some facts, exitProof := some (some proof)
        gaps := some [] }

/-- What an exit is found to be. -/
structure Exit where
  proof : Proof
  result : Result
  effectsChecked : Bool
  outcome : Outcome
  publicationUncertain : Bool

/-- The exit as the helper's own code and flags tell it. -/
def reportedExit (record : Record) (proof : Proof) : Exit where
  proof := proof
  result := proof.result.getD Result.none
  effectsChecked := proof.effectsChecked = some true
  outcome := if proof.effectsChecked = some true then
      if record.cancelRequested then .cancelled
      else if proof.exitCode = some 0 then .succeeded else .failed
    else .unknown
  publicationUncertain := false

/-- The exit as the manager's verified result tells it. -/
def verifiedExit (record : Record) (proof : Proof) : Exit :=
  let result := proof.result.getD Result.none
  let handle := (record.handles.lookup record.phase).bind (·.executionId)
  let bound := result.executionId.isSome && result.executionId = handle
    && [some Outcome.succeeded, some .failed, some .cancelled, some .unknown].contains result.outcome
  let effectsChecked := proof.effectsChecked = some true && bound && result.outcome ≠ some .unknown
  let outcome := if effectsChecked then result.outcome.getD .unknown else .unknown
  { proof := { proof with effectsChecked := some effectsChecked }
    result := if bound then result else Result.none
    effectsChecked
    outcome
    publicationUncertain :=
      effectsChecked && proof.exitCode ≠ some (if outcome = .succeeded then 0 else 1) }

/-- What `_complete` takes an exit for. -/
def observedExit (record : Record) (proof : Proof) : Exit :=
  if (record.phase = .business || record.phase = .reconcile) && proof.helperResultVerified = some true then
    verifiedExit record proof
  else reportedExit record proof

/-- The changes of `EXECUTION_EXIT`. -/
def exitChanges (record : Record) (exit : Exit) (willSeal : Bool) : Changes where
  phase := some (if willSeal then .awaitingSeal else .exited)
  lifecycle := some (if willSeal then .running
    else if exit.effectsChecked then .terminal else .reconcileRequired)
  outcome := some exit.outcome
  exitProof := some (some exit.proof)
  runnerResult := some exit.result
  evidence := some (if exit.publicationUncertain then .durabilityUnknown else record.evidence)
  businessStarted := some (exit.result.businessStarted.or record.businessStarted)
  helperStarted := some (if record.helperStarted = some true then some true
    else some (exit.result.helperStarted.getD true))
  sideEffects := some (exit.result.sideEffects.getD
    (if exit.effectsChecked then "CHECKED" else "UNOBSERVED"))
  gaps := some (if exit.publicationUncertain then [reportDurabilityGap]
    else if exit.effectsChecked then [] else ["Side effects require independent reconciliation"])

/-- The digest bindings a frozen snapshot carries. -/
def frozenBindings (row : Row) (exit : Exit) : Bindings :=
  if row.ns = .job && row.request.kind = "ledger.prepare" && exit.outcome = .succeeded then
    { exit.result.bindings with preparedRef := some ("prepared-" ++ row.id), sourceOperationId := some row.id }
  else exit.result.bindings

/-- The last seal of a round's parent. -/
def previousSeal (l : Ledger) (row : Row) : Except Fault (Option String) :=
  match row.ns with
  | .job => .ok none
  | .reconcile => do
    let parent ← l.row ⟨.job, row.parent⟩
    return parent.record.seals.getLast?.map (·.sealId)

/-- The snapshot an exit is frozen with. -/
def frozen (l : Ledger) (row : Row) (exit : Exit) (snapshot : String) (seq : Nat) : Except Fault Frozen :=
  match row.record.handles.lookup row.record.phase with
  | none => .error (.key "handles")
  | some handle => do
    let previousSealId ← previousSeal l row
    return {
      snapshot
      operationId := row.parent
      eventSeq := seq
      quiescence :=
        { executionId := handle.executionId, eventSeq := seq, futureStartsBlocked := true, treeExited := true
          collectorsStopped := exit.proof.collectorsStopped = some true
          writersStopped := exit.proof.writersStopped = some true }
      bindings := frozenBindings row exit
      reconcileId := if row.ns = .reconcile then some row.id else none
      previousSealId }

/-- The exit of an execution whose result is to be sealed. -/
def freezeExit (l : Ledger) (row : Row) (exit : Exit) (snapshot : String) : Except Fault Ledger := do
  let seq := l.nextSeq
  let l ← l.update row.key .executionExit (exitChanges row.record exit true)
  let frozen ← frozen l row exit snapshot seq
  l.update row.key .sealSnapshotFrozen
    { frozenSnapshot := some frozen, businessOutcome := some exit.outcome, businessExitProof := some exit.proof }

/-- `_complete` of any other exit. -/
def completeExit (l : Ledger) (row : Row) (proof : Proof) : Except Fault Ledger :=
  let exit := observedExit row.record proof
  let snapshot := if m.install.evidence.isSome && !row.record.cancelRequested then exit.result.evidenceSnapshot
    else none
  match snapshot with
  | some snapshot => freezeExit l row exit snapshot
  | none => do
    let l ← l.update row.key .executionExit (exitChanges row.record exit false)
    if exit.effectsChecked then release l row exit.proof else return l

/-- `_complete` of a phase that needs no closure, or has it. -/
def completePhase (l : Ledger) (row : Row) (proof : Proof) : Except Fault Ledger :=
  if row.record.phase = .evidence then completeEvidence l row proof
  else if row.record.phase = .preflight && !row.record.cancelRequested && proof.exitCode = some 0
      && proof.effectsChecked = some true then completePreflight l row proof
  else completeExit m l row proof

/-- `_complete` of a proved exit. -/
def completeProved (l : Ledger) (key : Key) (proof : Proof) : Except Fault Ledger := do
  let row ← l.row key
  let version ← admissionVersion l row
  if version = some 1 then
    if (row.record.quotaClosed.lookup row.record.phase).isNone then completePending site m l row proof
    else do
      checkOriginal l row closures row.record.phase
      completePhase m l row proof
  else completePhase m l row proof

/-- `_complete` -/
def complete (l : Ledger) (key : Key) (proof : Proof) : Except Fault Ledger :=
  if proof.exited then completeProved site m l key proof
  else unknown l key "Future launch or process-tree exit is unproven"

/-- `_resume_closed_completion`; `none` where there is nothing to publish. Its two
transactions are under one hold of the fence, and the first only reads. -/
def resumeClosed (l : Ledger) (key : Key) (phase : Phase) : Except Fault (Option Ledger) :=
  match l.get key with
  | none => .ok none
  | some row =>
    check ([Phase.preflight, .business, .reconcile, .evidence].contains phase) <|
    check (row.record.lifecycle ≠ .terminal && row.record.phase = phase) <|
    match row.record.quotaClosed.lookup phase with
    | none => do
      require (!recorded l row phase closures)
        (.job "IO_UNCERTAIN" "Original phase closure snapshot is missing")
      return none
    | some _ => do
      let version ← admissionVersion l row
      require (version = some 1) (.job "IO_UNCERTAIN" "Original quota closure admission is missing")
      let closed ← original l row phase closures
      let pending ← original l row phase pendings
      require (closed.fence.executionId = key.exec phase
          && ((row.record.handles.lookup phase).bind (·.executionId)) = some (key.exec phase)
          && closed.fence.ordinaryDigest = site.proofDigest pending.proof)
        (.job "IO_UNCERTAIN" "Original closed phase differs from its pending exit")
      let l ← complete site m l key pending.proof
      return some l

end LocalHand.Broker
