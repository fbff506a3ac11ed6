/-
Sealing of evidence: the registration of a published seal, and the publication
recovered by an administrator for a business result already frozen
(`evidence_recovery.py`).
-/
import LocalHand.Broker.Stopped

namespace LocalHand.Broker

variable (site : Site) (env : Env) (m : Mem)

/-- The digest bindings a preparation must hand over. -/
def requiredBindings : List String :=
  ["source_digest", "wheel_digest", "installed_payload_digest", "runtime_digest", "environment_fingerprint"]

/-- A prepared job's facts are there, with every required digest. -/
def preparedFacts (row : Row) : Except Fault Unit :=
  if row.ns = .job && row.request.kind = "ledger.prepare" && row.record.outcome = .succeeded then
    match row.record.runnerResult.bind (·.prepared) with
    | none => .error (.job "NOT_SEALED" "Preparation output is incomplete")
    | some bindings =>
      require (requiredBindings.all fun name => (bindings.lookup name).any (·.length = 64))
        (.job "NOT_SEALED" "Preparation digest bindings are incomplete")
  else .ok ()

/-- The row a seal is registered with. -/
def Seal.key (publication : Seal) : Key :=
  match publication.reconcileId with
  | some id => ⟨.reconcile, id⟩
  | none => ⟨.job, publication.operationId⟩

/-- `_register_seal` -/
def registerSeal (l : Ledger) (publication : Seal) : Except Fault Ledger :=
  match l.get publication.key with
  | none => .error (.job "NOT_FOUND" "Seal has no operation")
  | some row => do
    require (row.parent = publication.operationId)
      (.job "CONFLICT" "Seal operation differs from its reconciliation parent")
    require publication.complete (.job "NOT_SEALED" "Seal publication is incomplete")
    require (row.record.phase = .exited)
      (.job "NOT_SEALED" "Operation writers have not become quiescent")
    require (row.record.frozenSnapshot.all fun frozen =>
        publication.eventSeq = frozen.eventSeq && publication.bindings = frozen.bindings)
      (.job "CONFLICT" "Seal differs from its frozen observation")
    require (!row.record.seals.any (·.sealId = publication.sealId)) (.job "CONFLICT" "Seal identity already exists")
    preparedFacts row
    l.update publication.key .evidenceSealed
      { evidence := some .sealed, seals := some (row.record.seals ++ [publication])
        gaps := some (row.record.gaps.filter (· ≠ reportDurabilityGap)) }

/-! ## Recovered publication -/

/-- The decided outcomes of a business. -/
def decidedOutcome (outcome : Outcome) : Bool :=
  outcome = .succeeded || outcome = .failed || outcome = .cancelled

/-- The conditions a completed recovery is looked at under. -/
def recoveryReleasable (l : Ledger) (row : Row) : Bool :=
  let record := row.record
  row.ns = .job && supportsLocalCompletion site l row true && record.lifecycle = .terminal
    && record.phase = .exited && record.evidence = .sealed && !record.executionResourcesReleased
    && decidedOutcome record.outcome && some record.outcome = record.businessOutcome
    && record.exitProof.any (·.evidenceRecovery.isSome) && !m.observed row.key
    && l.leases.any (·.owner = row.id)

/-- The completed recovery is the one its events tell. -/
def recoveryKept (l : Ledger) (row : Row) (proof : Proof) (recovery : EvidenceRecovery) : Bool :=
  let record := row.record
  let told := match l.history row.key .evidenceRecoveryCompleted with
    | [c] => c.exitProof = some (some proof)
    | _ => false
  told && (l.last row.key .evidenceSealed).any (·.changes.seals = some record.seals)
    && recovery.operationId = row.id && recovery.requestDigest = row.digest && recovery.priorUnitsAbsent
    && proof.state = .exited && proof.exitCode = some 0
    && proof.complete && record.businessExitProof.any Proof.complete
    && recovery.snapshotSha256 = site.snapshotDigest record.frozenSnapshot

/-- `release_completed_evidence` -/
def releaseCompletedEvidence (l : Ledger) (row : Row) : Except Fault (Option Ledger) :=
  check (recoveryReleasable site m l row) do
    require (match row.record.exitProof, row.record.exitProof.bind (·.evidenceRecovery) with
        | some proof, some recovery => recoveryKept site l row proof recovery
        | _, _ => false)
      (.job "IO_UNCERTAIN" "Completed evidence recovery differs from its durable proof")
    check (!roundOpen l row.id) do
      let l ← releaseStopped site l row
      let l ← l.update row.key .executionResourcesReleased { executionResourcesReleased := some true }
      return some l

/-- The original business is decided, and of its evidence only the bootstrap was delivered. -/
def recoverable (row : Row) : Bool :=
  let record := row.record
  let exec := row.key.exec .evidence
  let manager := (record.handles.lookup .evidence).bind (·.manager)
  (record.phase = .evidence || record.phase = .exited) && record.evidence ≠ .sealed
    && record.businessOutcome.any decidedOutcome && record.businessOutcome = some record.outcome
    && record.businessExitProof.any (fun proof => proof.state = .exited && proof.complete)
    && record.frozenSnapshot.any (·.operationId = row.id)
    && ((record.handles.lookup .evidence).bind (·.executionId)) = some exec
    && (manager.bind (·.bootstrap)).isSome && (manager.bind (·.helper)).isNone
    && (manager.bind (·.resultReader)).isNone
    && !record.deliveryIntents.contains ⟨exec, some .helper⟩
    && !record.deliveryIntents.contains ⟨exec, some .resultReader⟩

/-- The last `SEAL_SNAPSHOT_FROZEN` event tells the record's business result. -/
def frozenEvent (l : Ledger) (row : Row) : Option Event :=
  (l.last row.key .sealSnapshotFrozen).filter fun event =>
    event.changes.frozenSnapshot = row.record.frozenSnapshot
      && event.changes.businessOutcome = row.record.businessOutcome
      && event.changes.businessExitProof = row.record.businessExitProof

/-- `text.startswith("evidence-recovery-")` -/
def recoveryName (text : String) : Bool := "evidence-recovery-".toList.isPrefixOf text.toList

/-- The recovery supervisor's own proof: prior units absent, its exit, what it published. -/
def recoveryProven (row : Row) (publication : Seal) (proof : Proof) (recovery : EvidenceRecovery)
    (currentBoot : String) : Bool :=
  let saved := (((row.record.handles.lookup .evidence).bind (·.manager)).bind (·.bootstrap)).bind (·.bootId)
  recovery.operationId = row.id && recovery.requestDigest = row.digest
    && recovery.snapshotSha256 = site.snapshotDigest row.record.frozenSnapshot
    && recovery.priorBootId = saved && recovery.bootId = currentBoot
    && recovery.priorBootId ≠ some currentBoot && recovery.priorUnitsAbsent
    && recoveryName recovery.recoveryId && recovery.unit = site.unitName recovery.recoveryId
    && recovery.invocationId.length = 32 && proof.state = .exited && proof.exitCode = some 0
    && proof.complete && recovery.stdoutEof && recovery.stderrEof
    && recovery.publicationSha256 = site.sealDigest publication

/-- What follows the registration: the execution's leases, or `_release`. -/
def releaseRecovered (l : Ledger) (row : Row) (original : Proof) : Except Fault Ledger := do
  match ← releaseCompletedEvidence site m l row with
  | some l => return l
  | none => release l row original

/-- The writes of `complete_recovered_evidence`. -/
def publishRecovered (l : Ledger) (row : Row) (publication : Seal) (proof : Proof) : Except Fault Ledger := do
  let l ← l.update row.key .evidenceRecoveryCompleted
    { phase := some .exited, lifecycle := some .terminal, outcome := row.record.businessOutcome
      exitProof := some (some proof), gaps := some [] }
  let l ← registerSeal l publication
  let current ← l.row row.key
  releaseRecovered site m l current (row.record.businessExitProof.getD Proof.neverStarted)

/-- `complete_recovered_evidence` of a seal the row does not hold. -/
def recoverEvidence (l : Ledger) (row : Row) (publication : Seal) (proof : Proof) : Except Fault Ledger := do
  require (recoverable row) (.job "IO_UNCERTAIN" "Original business or evidence delivery is unresolved")
  require (frozenEvent l row).isSome (.job "IO_UNCERTAIN" "Original frozen result is not durably bound")
  let clock ← env.clock
  require (proof.evidenceRecovery.any (recoveryProven site row publication proof · clock.bootId))
    (.job "IO_UNCERTAIN" "Recovered evidence supervisor proof is incomplete")
  require (publication.operationId = row.id && publication.reconcileId.isNone)
    (.job "CONFLICT" "Recovered evidence belongs to another observation")
  publishRecovered site m l row publication proof

/-- `complete_recovered_evidence` -/
def completeRecoveredEvidence (l : Ledger) (operationId digest : String) (publication : Seal) (proof : Proof) :
    Except Fault Ledger :=
  match l.get ⟨.job, operationId⟩ with
  | none => .error (.job "NOT_FOUND" "No original operation for evidence recovery")
  | some row => do
    require (row.digest = digest) (.job "CONFLICT" "Evidence recovery request digest differs")
    match row.record.seals.filter (·.sealId = publication.sealId) with
    | [] => recoverEvidence site env m l row publication proof
    | existing => do
      require (existing = [publication]) (.job "CONFLICT" "Evidence recovery publication differs")
      match ← releaseCompletedEvidence site m l row with
      | some l => return l
      | none => return l

end LocalHand.Broker
