/-
The transactions of the coordinator that belong to no single phase: the
recovery of every row after a restart, and the writes of one `tick`.
-/
import LocalHand.Broker.Start

namespace LocalHand.Broker

variable (site : Site) (m : Mem)

/-! ## Recovery -/

/-- The pending exit a restart may keep without a fresh observation. -/
def keepableExit (row : Row) (phase : Phase) (handle : Handle) (proof : Proof) : Bool :=
  proof.state = .exited && proof.executionId = some (row.key.exec phase)
    && handle.executionId = some (row.key.exec phase) && proof.exited
    && proof.writersStopped = some true && proof.collectorsStopped = some true

/-- The row has a pending exit to look at. -/
def pendingExit (l : Ledger) (row : Row) (phase : Phase) : Except Fault Bool :=
  if m.observed row.key then .ok false
  else do
    let version ← admissionVersion l row
    return version = some 1
      && ((row.record.quotaPending.lookup phase).isSome || recorded l row phase pendings)

/-- `retained_exit` of `recover` -/
def retainedExit (l : Ledger) (row : Row) : Except Fault (Option Proof) :=
  match row.record.handles.lookup row.record.phase with
  | none => .ok none
  | some handle => do
    let pending ← pendingExit m l row row.record.phase
    if pending then do
      checkBinding m.install.managerBinding handle.managerBinding
      let saved ← original l row row.record.phase pendings
      return if keepableExit row row.record.phase handle saved.proof then some saved.proof else none
    else return none

/-- A phase an execution runs in. -/
def Phase.running (phase : Phase) : Bool :=
  phase = .preflight || phase = .business || phase = .reconcile || phase = .evidence

/-- The changes of `RECOVERY_BARRIER`. -/
def barrierChanges (record : Record) (retained : Option Proof) : Changes :=
  let sealing := Phase.sealing record.phase && record.businessOutcome.isSome
  { lifecycle := some .reconcileRequired
    outcome := some (if sealing then record.businessOutcome.getD .unknown else .unknown)
    recovered := some true
    evidence := if record.phase = .evidence then some .durabilityUnknown else none
    exitProof := if Phase.running record.phase then some retained else none
    gaps := some (if retained.isSome then
        ["Original exit retained; management phase closure remains incomplete"]
      else if sealing then ["Business result retained; evidence publication requires recovery"]
      else ["Persisted execution intent requires independent launch and exit proof"]) }

/-- The row an unfinished execution is put behind, and the handle to reattach. -/
def barrierRow (l : Ledger) (row : Row) : Except Fault (Ledger × Option (Key × Attached)) := do
  let retained ← retainedExit m l row
  let l ← l.update row.key .recoveryBarrier (barrierChanges row.record retained)
  match retained, row.record.handles.lookup row.record.phase with
  | some _, _ => do
    let current ← l.row row.key
    match ← completeStoppedExecution site m l current with
    | some l => return (l, none)
    | none => return (l, none)
  | none, none => return (l, none)
  | none, some handle => do
    checkBinding m.install.managerBinding handle.managerBinding
    return (l, some (row.key, ⟨row.key.exec row.record.phase, handle⟩))

/-- One row of the transaction of `recover`. No other row's turn writes it, so it
is read when its turn comes. -/
def recoverRow (l : Ledger) (key : Key) : Except Fault (Ledger × Option (Key × Attached)) := do
  let row ← l.row key
  match ← completeStoppedExecution site m l row with
  | some l => return (l, none)
  | none =>
    match ← releaseCompletedEvidence site m l row with
    | some l => return (l, none)
    | none =>
      if row.record.lifecycle = .terminal || row.record.phase = .queued then return (l, none)
      else barrierRow site m l row

/-- The transaction of `recover`: the ledger and what to reattach. -/
def recoverRows : Ledger → List Key → Except Fault (Ledger × List (Key × Attached))
  | l, [] => .ok (l, [])
  | l, key :: rest => do
    let (l, attached) ← recoverRow site m l key
    let (l, others) ← recoverRows l rest
    return (l, attached.toList ++ others)

/-! ## One row of a tick -/

/-- What the stale row shows of a stopped execution to complete. -/
def maybeStopped (record : Record) : Bool :=
  (record.phase = .preflight || record.phase = .business || record.phase = .evidence || record.phase = .exited)
    && ((record.quotaPending.lookup record.phase).isSome
      || (record.phase = .exited && record.quotaPending.keys ≠ []))
    && (record.cancelRequested || record.recovered)

/-- The transaction that completes it. -/
def completeStopped (l : Ledger) (key : Key) : Except Fault (Option Ledger) := do
  let row ← l.row key
  completeStoppedExecution site m l row

/-- The manager's identity of the execution, as the runner has exported it. -/
def recordIdentity (l : Ledger) (key : Key) (recovery : Recovery) : Except Fault Ledger := do
  checkBinding m.install.managerBinding recovery.managerBinding
  let row ← l.row key
  match row.record.handles.lookup row.record.phase with
  | none => .error (.key "handles")
  | some saved => do
    checkBinding m.install.managerBinding saved.managerBinding
    let handle := saved.observe recovery
    if saved = handle then return l
    else do
      l.update key .supervisorIdentityObserved
        { handles := some (row.record.handles.insert row.record.phase handle) }

/-- What a cancelled row is blocked with before its next phase, and whether its
leases are given up; `row` is as it was when the tick began. -/
def blockedStart (row : Row) : Kind × Changes × Bool :=
  let record := row.record
  if record.phase = .awaitingSeal then
    let effectsChecked := record.businessExitProof.any (·.effectsChecked = some true)
    (.evidenceStartBlocked,
      { phase := some .exited
        lifecycle := some (if effectsChecked then .terminal else .reconcileRequired)
        outcome := some (record.businessOutcome.getD .unknown), evidence := some .staging
        gaps := some ["Evidence helper was cancelled before launch; original business facts retained"] },
      effectsChecked)
  else
    (.startupBlocked,
      { lifecycle := some .terminal, outcome := some .cancelled, phase := some .cancelledBeforeBusiness
        sideEffects := some record.sideEffects }, true)

/-- The transaction of a cancelled row. -/
def blockStart (l : Ledger) (row : Row) : Except Fault Ledger := do
  let (kind, changes, effectsChecked) := blockedStart row
  let l ← l.update row.key kind changes
  if effectsChecked then release l row Proof.neverStarted else return l

/-- The phase a row is to start next. -/
def nextPhase (row : Row) : Phase :=
  if row.record.phase = .awaitingSeal then .evidence
  else match row.ns with
    | .reconcile => .reconcile
    | .job => if row.record.phase = .preflightComplete then .business else .preflight

end LocalHand.Broker
