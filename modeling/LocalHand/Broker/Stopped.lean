/-
Completion of stopped work from what the ledger holds (`preflight_completion.py`,
`stopped_completion.py`): no new observation, launch or seal. A task session
that recovers is not modelled, so no completion is made in its name.
-/
import LocalHand.Broker.Admission

namespace LocalHand.Broker

variable (site : Site) (m : Mem)

/-- Go on if the check holds, else answer that nothing was done. -/
def check {α : Type} (ok : Bool) (next : Except Fault (Option α)) : Except Fault (Option α) :=
  if ok then next else .ok none

theorem check_some {α : Type} {ok : Bool} {next : Except Fault (Option α)} {a : α} :
    check ok next = .ok (some a) ↔ ok = true ∧ next = .ok (some a) := by
  cases ok <;> simp [check]

/-- The member's original of the phase is there and unchanged. -/
def checkOriginal {α : Type} [DecidableEq α] (l : Ledger) (row : Row) (member : Member α) (phase : Phase) :
    Except Fault Unit := do
  let _ ← original l row phase member
  return ()

/-- The one `PREFLIGHT_COMPLETE` event tells the record's facts. -/
def factsOriginal (l : Ledger) (row : Row) : Bool :=
  match l.history row.key .preflightComplete with
  | [c] => c.facts.isSome && c.facts = row.record.facts
  | _ => false

/-- `supports_local_completion` -/
def supportsLocalCompletion (l : Ledger) (row : Row) (runtimeVerified : Bool) : Bool :=
  let kind := row.request.kind
  kind = "host.inspect" || kind = "workspace.edit"
    || (kind = "ledger.test.local_a2" && row.plan.kind = kind
      && (!runtimeVerified || factsOriginal l row)
      && site.localA2 row.plan.execution (if runtimeVerified then row.record.facts else none))

/-- The three deliveries of an execution, in order. -/
def staged (exec : ExecId) : List DeliveryId :=
  [⟨exec, some .bootstrap⟩, ⟨exec, some .helper⟩, ⟨exec, some .resultReader⟩]

/-- The row's intents and deliveries, oldest first. -/
def Ledger.launches (l : Ledger) (key : Key) : List Event :=
  (l.eventsOf key).filter fun event => event.kind = .executionIntent || event.kind = .managerDeliveryIntent

/-! ## Preflights -/

/-- The conditions a stopped preflight is looked at under. -/
def preflightStoppable (l : Ledger) (row : Row) : Bool :=
  let record := row.record
  row.ns = .job && supportsLocalCompletion site l row false
    && (record.phase = .preflight || record.phase = .exited) && record.lifecycle ≠ .terminal
    && (record.cancelRequested || record.recovered) && record.businessStarted = some false
    && keysAre record.handles [.preflight] && keysAre record.quotaPreparations [.preflight]
    && (record.quotaPending.lookup .preflight).isSome && !m.observed row.key

/-- The closure of a preflight that has already left its phase. -/
def preflightClosed (l : Ledger) (row : Row) (proof : Proof) : Except Fault (Option Unit) :=
  if row.record.phase = .exited then
    check (keysAre row.record.quotaClosed [.preflight]) do
      checkOriginal l row closures .preflight
      require (row.record.exitProof = some proof)
        (.job "IO_UNCERTAIN" "Original completed preflight exit changed before cancellation")
      return some ()
  else .ok (some ())

/-- The deliveries of the events, where every intent is the preflight's. -/
def preflightDeliveries : List Event → List DeliveryId → Except Fault (Option (List DeliveryId))
  | [], deliveries => .ok (some deliveries)
  | event :: rest, deliveries =>
    if event.kind = .executionIntent then
      check (event.changes.phase = some .preflight && event.changes.handles.any (keysAre · [.preflight]))
        (preflightDeliveries rest deliveries)
    else do
      let current := event.changes.deliveryIntents.getD []
      require (deliveries.isPrefixOf current)
        (.job "IO_UNCERTAIN" "Original preflight delivery history changed")
      preflightDeliveries rest current

/-- The proof names the execution's own complete stop. -/
def stoppedExit (row : Row) (phase : Phase) (proof : Proof) (lost : Bool) : Bool :=
  ((row.record.handles.lookup phase).bind (·.executionId)) = some (row.key.exec phase)
    && proof.executionId = some (row.key.exec phase) && proof.state = .exited && proof.exited
    && proof.writersStopped = some true && (proof.collectorsStopped = some true || lost)

/-- `complete_stopped_preflight` up to its writes: the proof it completes with. -/
def stoppedPreflight (l : Ledger) (row : Row) : Except Fault (Option Proof) :=
  check (preflightStoppable site m l row) do
    let version ← admissionVersion l row
    check (version = some 1) do
      let pending ← original l row .preflight pendings
      let proof := pending.proof
      match ← preflightClosed l row proof with
      | none => return none
      | some () => check (stoppedExit row .preflight proof row.record.recovered) do
        match ← preflightDeliveries (l.launches row.key) [] with
        | none => return none
        | some deliveries =>
          check ((deliveries ≠ [] || proof.launchPrevented = some true)
              && deliveries = (staged (row.key.exec .preflight)).take deliveries.length
              && deliveries = row.record.deliveryIntents && !roundOpen l row.id)
            (.ok (some proof))

/-- The execution's own leases are given up. -/
def releaseStopped (l : Ledger) (row : Row) : Except Fault Ledger := do
  ownsResources site l row row
  let leases ← LocalHand.release l.leases row.id true true true
  return { l with leases }

/-- `complete_stopped_preflight` -/
def completeStoppedPreflight (l : Ledger) (row : Row) : Except Fault (Option Ledger) := do
  match ← stoppedPreflight site m l row with
  | none => return none
  | some proof => do
    let l ← releaseStopped site l row
    let l ← l.update row.key .preflightStopped
      { lifecycle := some .terminal, phase := some .exited
        outcome := some (if row.record.cancelRequested then .cancelled else .unknown)
        exitProof := some (some proof), sideEffects := some "NONE"
        executionResourcesReleased := some true
        gaps := some (if row.record.cancelRequested then []
          else ["Preflight stopped before business; original result collection remains incomplete"]) }
    return some l

/-! ## Later phases -/

/-- `REPORT_DURABILITY_GAP` -/
def reportDurabilityGap : String :=
  "Verified business result retained; helper exit leaves report durability unresolved"

/-- The phases before `phase`, of a job. -/
def previousPhases (phase : Phase) : List Phase :=
  if phase = .business then [.preflight] else [.preflight, .business]

/-- The conditions a stopped later phase is looked at under. -/
def phaseStoppable (l : Ledger) (row : Row) (helperDelivered : Option Bool) (phase : Phase) : Bool :=
  let record := row.record
  let expected := previousPhases phase ++ [phase]
  row.ns = .job && supportsLocalCompletion site l row true
    && (record.phase = phase || record.phase = .exited) && record.lifecycle ≠ .terminal
    && record.cancelRequested && !(helperDelivered = some false && record.businessStarted = some true)
    && keysAre record.handles expected && keysAre record.quotaPreparations expected
    && keysAre record.quotaClosed (if record.phase = .exited then expected else previousPhases phase)
    && (record.quotaPending.lookup phase).isSome && !m.observed row.key

/-- `workspace_jobs.local_effects_only` -/
def localEffectsOnly (plan : Plan) : Bool :=
  let execution := plan.execution
  plan.kind = "workspace.edit" && execution.kind = "workspace.edit"
    && !(execution.storage || execution.buildCache || execution.prepared)
    && execution.writable.mergeSort = execution.roots.values.mergeSort

/-- A plan whose writes all stay in its owned local files. -/
def localScope (row : Row) : Bool :=
  let execution := row.plan.execution
  let inspection := row.plan.kind = "host.inspect" && execution.kind = "host.inspect"
    && execution.stages = [] && !(execution.source || execution.storage || execution.buildCache || execution.prepared)
    && execution.writable.mergeSort = execution.roots.values.mergeSort
  inspection || (row.request.kind = "workspace.edit" && localEffectsOnly row.plan)
    || row.request.kind = "ledger.test.local_a2"

/-- Every handle of an intent names its own execution. -/
def handlesNamed (key : Key) (handles : Handles) : Bool :=
  handles.entries.all fun entry => entry.2.executionId = some (key.exec entry.1)

/-- The intents of the events, each adding the next expected phase, and their deliveries. -/
def stoppedHistory (key : Key) (expected : List Phase) :
    List Event → List Phase → List DeliveryId → Except Fault (Option (List Phase × List DeliveryId))
  | [], phases, deliveries => .ok (some (phases, deliveries))
  | event :: rest, phases, deliveries =>
    if event.kind = .executionIntent then
      let phases := phases ++ event.changes.phase.toList
      let first := expected.take phases.length
      check (event.changes.phase.isSome && phases = first
          && event.changes.handles.any fun handles => keysAre handles first && handlesNamed key handles)
        (stoppedHistory key expected rest phases deliveries)
    else do
      let current := event.changes.deliveryIntents.getD []
      require (current.length = deliveries.length + 1 && current.dropLast = deliveries)
        (.job "IO_UNCERTAIN" "Original stopped execution delivery history changed")
      stoppedHistory key expected rest phases current

/-- `original.get(key) in (None, value)` -/
def saysOr {α : Type} [DecidableEq α] (saved : Option α) (value : Option α) : Bool :=
  saved.isNone || saved = value

/-- `text.startswith("/sys/fs/cgroup/")` -/
def underCgroup (text : String) : Bool := "/sys/fs/cgroup/".toList.isPrefixOf text.toList

/-- `text.removeprefix("/sys/fs/cgroup")` -/
def cgroupPath (text : String) : String :=
  if "/sys/fs/cgroup".toList.isPrefixOf text.toList then String.ofList (text.toList.drop 14) else text

/-- The collected unit of a stage, at the place the installation gives it. -/
def unitPlaced (root unit : String) (bootId : Option String) (identity : UnitIdentity) : Bool :=
  identity.bootId.isSome && identity.bootId = bootId && underCgroup root
    && identity.cgroup = some (cgroupPath root ++ "/" ++ unit) && identity.invocationId.any (hexText 32)

/-- `_reader_exited` -/
def readerExited (proof : Proof) (row : Row) (phase : Phase) : Bool :=
  match proof.reader, proof.reader.bind (·.identity) with
  | some reader, some identity =>
    let exec := row.key.exec phase
    let unit := site.unitName (DeliveryId.text ⟨exec, some .resultReader⟩)
    let saved := ((row.record.handles.lookup phase).bind (·.manager)).bind (·.resultReader)
    let bootId := (row.record.quotaPreparations.lookup phase).map (·.budget.bootId)
    reader.executionId = some exec && reader.unit = some unit && reader.state = .exited
      && reader.futureStartBlocked = some true && reader.treeExited = some true
      && reader.writersStopped = some true && reader.collectorsStopped = some true
      && unitPlaced m.install.managerRoot unit bootId identity
      && saved.all fun u => saysOr u.unit (some unit) && saysOr u.executionId (some exec)
        && saysOr u.bootId identity.bootId && saysOr u.invocationId identity.invocationId
  | _, _ => false

/-- What a stopped later phase is completed with. -/
structure Stopped where
  proof : Proof
  count : Nat
  retained : Option Result

/-- The deliveries are those of the earlier phases and the first `count` of this one. -/
def stoppedCount (row : Row) (phase : Phase) (helperDelivered : Option Bool) (proof : Proof)
    (history : List Phase × List DeliveryId) : Option Nat :=
  let prior := (previousPhases phase).flatMap fun earlier => staged (row.key.exec earlier)
  let count := history.2.length - prior.length
  if history.1 = previousPhases phase ++ [phase] && prior.length ≤ history.2.length && count ≤ 3
      && history.2 = prior ++ (staged (row.key.exec phase)).take count
      && !(count = 0 && proof.launchPrevented ≠ some true)
      && !(helperDelivered = some false && count > 1) && !(helperDelivered = some true && count < 2)
      && history.2 = row.record.deliveryIntents then some count
  else none

/-- The result a stopped phase keeps: `none` where it must stay as it is, and
inside, the exact verified result recovery retained. -/
def stoppedResult (row : Row) (phase : Phase) (proof : Proof) (count : Nat) : Option (Option Result) :=
  let result := proof.result.getD Result.none
  if count ≤ 1 then
    if result.businessStarted = some false then some none else none
  else
    let bound := result.executionId = some (row.key.exec phase) && result.phase = some phase
    let decided := [some Outcome.failed, some .cancelled].contains result.outcome
    let missing := proof.helperResultVerified = some false && result.outcome = some .unknown
    let failed := count = 3 && proof.helperResultVerified = some true && bound
      && result.effectsChecked = some false && (decided || result.outcome = some .unknown)
    let recovered := row.record.recovered && count = 3 && proof.helperResultVerified = some true
      && proof.effectsChecked = some true && bound && result.effectsChecked = some true
      && (decided || result.outcome = some .succeeded)
    if (recovered || (missing || failed) && proof.effectsChecked = some false)
        && result.helperStarted = some true then
      some (if recovered then some result else none)
    else none

/-- The frozen business result is the one event's, and still the pending one's. -/
def frozenKept (l : Ledger) (row : Row) : Except Fault (Option Unit) := do
  let record := row.record
  require (match l.history row.key .sealSnapshotFrozen with
      | [c] => c.businessOutcome = record.businessOutcome && c.businessExitProof = record.businessExitProof
        && c.frozenSnapshot = record.frozenSnapshot
      | _ => false)
    (.job "IO_UNCERTAIN" "Original business result changed before evidence cancellation")
  let business ← original l row .business pendings
  check (some business.proof = record.businessExitProof && record.seals = []) (.ok (some ()))

/-- A delivered helper has its bootstrap's original observation. -/
def helperObserved (l : Ledger) (row : Row) (phase : Phase) (count : Nat) : Except Fault Unit :=
  if count ≥ 2 then checkOriginal l row observations phase else .ok ()

/-- The frozen result of a stopped evidence phase. -/
def businessKept (l : Ledger) (row : Row) (phase : Phase) : Except Fault (Option Unit) :=
  if phase = .evidence then frozenKept l row else .ok (some ())

/-- The checks of `_complete_stopped_phase` on the delivered stages. -/
def stoppedStages (l : Ledger) (row : Row) (phase : Phase) (proof : Proof) (count : Nat)
    (retained : Option Result) : Except Fault (Option Stopped) := do
  helperObserved l row phase count
  check (count ≠ 3 || readerExited site m proof row phase) do
    match ← businessKept l row phase with
    | none => return none
    | some () => check (!roundOpen l row.id) (.ok (some ⟨proof, count, retained⟩))

/-- `_complete_stopped_phase` up to its writes. -/
def stoppedPhase (l : Ledger) (row : Row) (helperDelivered : Option Bool) (phase : Phase) :
    Except Fault (Option Stopped) :=
  let expected := previousPhases phase ++ [phase]
  check (phaseStoppable site m l row helperDelivered phase && (helperDelivered = some false || localScope row)) do
    let version ← admissionVersion l row
    check (version = some 1) do
      (if row.record.phase = .exited then expected else previousPhases phase).forM (checkOriginal l row closures)
      expected.forM (checkOriginal l row preparations)
      let pending ← original l row phase pendings
      let proof := pending.proof
      require (row.record.phase ≠ .exited || row.record.exitProof = some proof)
        (.job "IO_UNCERTAIN" "Original completed exit proof changed before cancellation")
      check (stoppedExit row phase proof false) do
        match ← stoppedHistory row.key expected (l.launches row.key) [] [] with
        | none => return none
        | some history =>
          match stoppedCount row phase helperDelivered proof history with
          | none => return none
          | some count =>
            match stoppedResult row phase proof count with
            | none => return none
            | some retained => stoppedStages site m l row phase proof count retained

/-- What a stopped phase is finished with, whichever it is. -/
def stoppedChanges (row : Row) (helperDelivered : Bool) (proof : Proof) : Changes where
  lifecycle := some .terminal
  phase := some .exited
  outcome := some (if helperDelivered then .unknown else .cancelled)
  businessStarted := some (if helperDelivered then row.record.businessStarted else some false)
  exitProof := some (some proof)
  sideEffects := some (if helperDelivered then "RETAINED_LOCAL_FILES" else "NONE")
  executionResourcesReleased := some true
  gaps := some (if helperDelivered then
    ["Business effects remain unverified after cancellation; original result and owned files retained"] else [])

/-- A business phase whose verified result is retained. -/
def retainedChanges (row : Row) (stopped : Stopped) (result : Result) : Changes :=
  let expectedExit := if result.outcome = some .succeeded then 0 else 1
  let gap := "Management phase closure was interrupted; original business result retained without evidence sealing"
  let lost := stopped.proof.exitCode ≠ some expectedExit
  { stoppedChanges row true stopped.proof with
    outcome := result.outcome
    businessStarted := some (result.businessStarted.or row.record.businessStarted)
    sideEffects := some (result.sideEffects.getD "CHECKED")
    gaps := some (if lost then [gap, reportDurabilityGap] else [gap])
    evidence := if lost then some .durabilityUnknown else none }

/-- The changes and the event of a stopped later phase. -/
def stoppedEvent (row : Row) (helperDelivered : Option Bool) (phase : Phase) (stopped : Stopped) :
    Kind × Changes :=
  if phase = .evidence then
    (.evidenceCancelled,
      { stoppedChanges row false stopped.proof with
        outcome := row.record.businessOutcome
        businessStarted := some row.record.businessStarted
        sideEffects := some row.record.sideEffects
        evidence := some (if stopped.count ≤ 1 then .staging else .durabilityUnknown)
        gaps := some ["Evidence collection was cancelled; original business result and files retained"] })
  else if helperDelivered = some true then
    (.inspectionCancelled, match stopped.retained with
      | some result => retainedChanges row stopped result
      | none => stoppedChanges row true stopped.proof)
  else (.businessStartStopped, stoppedChanges row false stopped.proof)

/-- `_complete_stopped_phase` -/
def completeStoppedPhase (l : Ledger) (row : Row) (helperDelivered : Option Bool) (phase : Phase) :
    Except Fault (Option Ledger) := do
  match ← stoppedPhase site m l row helperDelivered phase with
  | none => return none
  | some stopped => do
    let l ← releaseStopped site l row
    let event := stoppedEvent row helperDelivered phase stopped
    let l ← l.update row.key event.1 event.2
    return some l

/-- `complete_stopped_business_start` -/
def completeStoppedBusinessStart (l : Ledger) (row : Row) : Except Fault (Option Ledger) :=
  completeStoppedPhase site m l row (some false) .business

/-- `complete_cancelled_inspection` -/
def completeCancelledInspection (l : Ledger) (row : Row) : Except Fault (Option Ledger) :=
  completeStoppedPhase site m l row (some true) .business

/-- `complete_cancelled_evidence` -/
def completeCancelledEvidence (l : Ledger) (row : Row) : Except Fault (Option Ledger) :=
  completeStoppedPhase site m l row none .evidence

/-- The first of the completions that does something. -/
def firstDone : List (Except Fault (Option Ledger)) → Except Fault (Option Ledger)
  | [] => .ok none
  | completion :: rest => do
    match ← completion with
    | some l => return some l
    | none => firstDone rest

/-- `complete_stopped_execution` -/
def completeStoppedExecution (l : Ledger) (row : Row) : Except Fault (Option Ledger) :=
  firstDone [completeStoppedPreflight site m l row, completeStoppedBusinessStart site m l row,
    completeCancelledInspection site m l row, completeCancelledEvidence site m l row]

end LocalHand.Broker
