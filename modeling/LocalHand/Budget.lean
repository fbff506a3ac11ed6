/-
The internal execution envelopes of one durable operation (`budget.py`): each
phase reserves its floor share of the admitted limits once, under one boot
identity and one deadline, and nothing is refunded.

`sha256` over canonical JSON is a parameter. A failed clock read is an input.
-/
import LocalHand.Contract
import Mathlib.Data.List.AList

namespace LocalHand.Budget

def nanoseconds : Int := 1000000000

/-- `BUDGET_FIELDS` -/
structure Limits where
  wallSeconds : Int
  terminateGraceSeconds : Int
  cpuSeconds : Int
  memoryBytes : Int
  processes : Int
  temporaryBytes : Int
  nasBytes : Int
  logBytes : Int
  reservationBytes : Int
  deriving Repr, DecidableEq

structure Clock where
  bootId : String
  boottimeNs : Int
  deriving Repr, DecidableEq

structure Grant where
  version : Int
  ns : Namespace
  recordId : String
  operationId : String
  executionId : ExecId
  phase : Phase
  budgetDigest : String
  bootId : String
  startedBoottimeNs : Int
  reservedBoottimeNs : Int
  deadlineBoottimeNs : Int
  limits : Limits
  deriving Repr, DecidableEq

abbrev Grants := AList fun _ : Phase => Grant

/-- `execution_budget` -/
structure State where
  version : Int
  ns : Namespace
  recordId : String
  operationId : String
  budgetDigest : String
  bootId : String
  startedBoottimeNs : Int
  lastBoottimeNs : Int
  deadlineBoottimeNs : Int
  grants : Grants
  deriving DecidableEq

/-- What the envelope reads of a `quota_preparations` entry. -/
structure Preparation where
  phase : Phase
  session : String
  budget : Grant
  deriving Repr, DecidableEq

abbrev Handles := AList fun _ : Phase => Option ExecId

abbrev Preparations := AList fun _ : Phase => Preparation

/-- What the envelope reads of a ledger row. The last five members say whether
the record's member of that name is set. -/
structure Row where
  ns : Namespace
  id : String
  parent : String
  budgets : Limits
  phase : Phase
  accepted : Bool
  businessStarted : Option Bool
  helperStarted : Option Bool
  handles : Handles
  executionBudget : Option State
  quotaBindingVersion : Option Int
  quotaPreparations : Preparations
  exitProof : Bool
  facts : Bool
  runnerResult : Bool
  businessOutcome : Bool
  frozenSnapshot : Bool
  deriving DecidableEq

/-- `_invalid` -/
def invalid (message : String := "Execution budget identity is unresolved") : Fault :=
  .job "IO_UNCERTAIN" message

/-- `_validate_clock` -/
def validateClock (value : Clock) : Except Fault Unit :=
  require (uuidText value.bootId && 0 ≤ value.boottimeNs)
    (invalid "Trusted operation clock is malformed")

def Limits.values (limits : Limits) : List Int :=
  [limits.wallSeconds, limits.terminateGraceSeconds, limits.cpuSeconds, limits.memoryBytes,
    limits.processes, limits.temporaryBytes, limits.logBytes, limits.reservationBytes]

/-- `_validate_limits` -/
def validateLimits (limits : Limits) : Except Fault Unit :=
  require (limits.values.all (fun value => 1 ≤ value && value ≤ maxSafeInteger)
      && 0 ≤ limits.nasBytes && limits.nasBytes ≤ maxSafeInteger)
    (invalid "Execution budget limits are malformed")

/-- The floor share of the wall, CPU and log limits of each of `n` phases. -/
def Limits.share (limits : Limits) (n : Nat) : Limits :=
  { limits with
    wallSeconds := limits.wallSeconds / n
    cpuSeconds := limits.cpuSeconds / n
    logBytes := limits.logBytes / n }

/-- `allocated_limits` -/
def allocatedLimits (original : Limits) (ns : Namespace) : Except Fault Limits := do
  validateLimits original
  let shares := original.share ns.phases.length
  require (1 ≤ shares.wallSeconds && 1 ≤ shares.cpuSeconds && 1 ≤ shares.logBytes
      && shares.terminateGraceSeconds < shares.wallSeconds)
    (.budget "Operation budget cannot fund a bounded helper and its stop grace")
  return shares

/-- The expectations `validate_grant` takes as keywords. -/
structure Expected where
  executionId : Option ExecId := none
  phase : Option Phase := none
  budgets : Option Limits := none
  ns : Option Namespace := none
  recordId : Option String := none
  operationId : Option String := none
  originalBudgets : Option Limits := none

def matchesIf {α : Type} [DecidableEq α] (actual : α) : Option α → Bool
  | none => true
  | some value => actual = value

def shortText (text : String) : Bool := 1 ≤ text.length && text.length ≤ 256

/-- `validate_grant`, before its keywords. -/
def validateGrantShape (grant : Grant) : Except Fault Unit := do
  require (grant.version = 1) invalid
  require (grant.phase ∈ grant.ns.phases) invalid
  require (shortText grant.recordId && shortText grant.operationId && shortText grant.executionId.text)
    invalid
  require (grant.executionId = ⟨grant.ns, grant.recordId, grant.phase⟩
    && (grant.ns ≠ .job || grant.recordId = grant.operationId)) invalid
  require (uuidText grant.bootId && hexText 64 grant.budgetDigest) invalid
  require (0 ≤ grant.startedBoottimeNs && 0 ≤ grant.reservedBoottimeNs
    && 0 ≤ grant.deadlineBoottimeNs) invalid
  require (grant.startedBoottimeNs ≤ grant.reservedBoottimeNs
    && grant.reservedBoottimeNs < grant.deadlineBoottimeNs) invalid
  validateLimits grant.limits
  require (grant.limits.terminateGraceSeconds < grant.limits.wallSeconds)
    (invalid "Helper wall envelope does not include its stop grace")

/-- The grant carries the admitted limits' digest, share and deadline. -/
def validateOriginal (sha256 : Limits → String) (grant : Grant) (original : Limits) :
    Except Fault Unit := do
  validateLimits original
  let differs := invalid "Durable helper reservation differs from the admitted operation budget"
  require (grant.budgetDigest = sha256 original) differs
  let share ← allocatedLimits original grant.ns
  require (grant.limits = share
    && grant.deadlineBoottimeNs = grant.startedBoottimeNs + original.wallSeconds * nanoseconds) differs

/-- `validate_grant` -/
def validateGrant (sha256 : Limits → String) (grant : Grant) (expected : Expected := {}) :
    Except Fault Unit := do
  validateGrantShape grant
  require (matchesIf grant.executionId expected.executionId && matchesIf grant.phase expected.phase
    && matchesIf grant.ns expected.ns && matchesIf grant.recordId expected.recordId
    && matchesIf grant.operationId expected.operationId) invalid
  match expected.budgets with
  | none => pure ()
  | some budgets =>
    validateLimits budgets
    require (grant.limits = budgets) (invalid "Helper limits differ from their durable reservation")
  match expected.originalBudgets with
  | none => pure ()
  | some original => validateOriginal sha256 grant original

/-! ## Remaining time -/

section

variable (sha256 : Limits → String)

/-- `remaining_ns` -/
def remainingNs (grant : Grant) (now : Except Fault Clock) : Except Fault Int := do
  validateGrant sha256 grant
  let now ← now
  validateClock now
  require (now.bootId = grant.bootId && grant.reservedBoottimeNs ≤ now.boottimeNs)
    (invalid "Operation deadline belongs to another or uncertain clock")
  let remaining := grant.deadlineBoottimeNs - now.boottimeNs
  require (0 < remaining) (.budget "Operation wall deadline is exhausted")
  return remaining

/-- The phase end `phase_deadline_ns` fixes at reservation. -/
def Grant.phaseDeadline (grant : Grant) : Int :=
  min grant.deadlineBoottimeNs
    (grant.reservedBoottimeNs + grant.limits.wallSeconds * nanoseconds)

/-- `phase_deadline_ns` -/
def phaseDeadlineNs (grant : Grant) : Except Fault Int := do
  validateGrant sha256 grant
  return grant.phaseDeadline

/-- `phase_remaining_ns` -/
def phaseRemainingNs (grant : Grant) (now : Except Fault Clock) : Except Fault Int := do
  let clock ← now
  let _ ← remainingNs sha256 grant now
  let deadline ← phaseDeadlineNs sha256 grant
  let remaining := deadline - clock.boottimeNs
  require (0 < remaining) (.budget "Execution phase wall deadline is exhausted")
  return remaining

/-- The stages of each fixed supervision version. -/
def stages (supervisionVersion : Int) : List Stage :=
  if supervisionVersion = 2 then [.bootstrap, .helper] else [.bootstrap, .helper, .resultReader]

/-- `substage_limits` -/
def substageLimits (grant : Grant) (stage : Stage) (supervisionVersion : Int := 2) :
    Except Fault Limits := do
  validateGrant sha256 grant
  require (supervisionVersion = 2 || supervisionVersion = 3)
    (invalid "Unknown fixed supervision budget version")
  require (stage ∈ stages supervisionVersion) (invalid "Unknown fixed execution substage")
  let count : Int := (stages supervisionVersion).length
  let preparation := grant.limits.cpuSeconds / count
  require (1 ≤ preparation)
    (.budget "Phase CPU budget cannot fund every fixed supervision substage")
  return { grant.limits with
    cpuSeconds := if stage = .helper then grant.limits.cpuSeconds - preparation * (count - 1)
      else preparation }

/-! ## The stored state -/

/-- The sum of one limit over the reserved phases. -/
def total (grants : Grants) (field : Limits → Int) : Int :=
  (grants.entries.map fun e => field e.2.limits).sum

/-- Whether the reservations stay within the admitted wall, CPU and log limits. -/
def fits (grants : Grants) (original : Limits) : Bool :=
  total grants (·.wallSeconds) ≤ original.wallSeconds
    && total grants (·.cpuSeconds) ≤ original.cpuSeconds
    && total grants (·.logBytes) ≤ original.logBytes

/-- One `quota_preparations` entry, as `_validate_state` checks it. -/
def validatePreparation (state : State) (phase : Phase) (prepared : Preparation) : Except Fault Unit :=
  require (prepared.phase = phase && state.grants.lookup phase = some prepared.budget
      && hexText 32 prepared.session)
    (invalid "Original quota preparation budget differs")

/-- The `quota_preparations` member, if it holds anything. -/
def validatePreparations (row : Row) (state : State) : Except Fault Unit :=
  if row.quotaPreparations.entries = [] then .ok ()
  else do
    require (row.quotaBindingVersion = some 1) (invalid "Quota preparation version is unresolved")
    row.quotaPreparations.entries.forM fun e => validatePreparation state e.1 e.2

/-- The handles, with one standing for each preparation not yet started. -/
def Row.intended (row : Row) (phase : Phase) : Option (Option ExecId) :=
  match row.handles.lookup phase with
  | some handle => some handle
  | none => (row.quotaPreparations.lookup phase).map fun prepared => some prepared.budget.executionId

/-- One stored grant against the state that holds it. -/
def validateStored (row : Row) (state : State) (phase : Phase) (old : Grant) : Except Fault Unit := do
  validateGrant sha256 old {
    ns := some row.ns
    recordId := some row.id
    operationId := some row.parent
    phase := some phase
    originalBudgets := some row.budgets }
  require (old.bootId = state.bootId && old.startedBoottimeNs = state.startedBoottimeNs
    && old.deadlineBoottimeNs = state.deadlineBoottimeNs
    && old.reservedBoottimeNs ≤ state.lastBoottimeNs
    && row.intended phase = some (some old.executionId)) invalid

/-- Every phase a record can name. -/
def allPhases : List Phase :=
  [.preflight, .business, .reconcile, .evidence, .queued, .preflightComplete, .awaitingSeal, .exited,
    .cancelledBeforeStart, .cancelledBeforeBusiness]

/-- `_validate_state` -/
def validateState (row : Row) (state : State) : Except Fault Unit := do
  validateLimits row.budgets
  require (state.version = 1 && state.ns = row.ns && state.recordId = row.id
    && state.operationId = row.parent && state.budgetDigest = sha256 row.budgets
    && state.grants.keys.all (· ∈ row.ns.phases)) invalid
  require (0 ≤ state.startedBoottimeNs && 0 ≤ state.lastBoottimeNs && 0 ≤ state.deadlineBoottimeNs)
    invalid
  require (uuidText state.bootId && state.startedBoottimeNs ≤ state.lastBoottimeNs
    && state.lastBoottimeNs < state.deadlineBoottimeNs
    && state.deadlineBoottimeNs = state.startedBoottimeNs + row.budgets.wallSeconds * nanoseconds)
    invalid
  validatePreparations row state
  require (allPhases.all fun phase =>
      (state.grants.lookup phase).isSome = (row.intended phase).isSome)
    (invalid "Execution intent and aggregate budget reservations differ")
  state.grants.entries.forM fun e => validateStored sha256 row state e.1 e.2
  require (fits state.grants row.budgets)
    (invalid "Helper reservations exceed the admitted operation budget")

/-- `stored_grant` -/
def storedGrant (row : Row) (phase : Phase) : Except Fault Grant :=
  match row.executionBudget with
  | none => .error invalid
  | some state => do
    validateState sha256 row state
    match state.grants.lookup phase with
    | none => .error (invalid "Execution has no durable helper budget reservation")
    | some grant => return grant

/-! ## Reservation -/

/-- The state of an operation with no reservation yet: only an untouched record has one. -/
def firstState (row : Row) (phase : Phase) (now : Clock) : Except Fault State := do
  require (row.handles.entries = [] && row.phase = .queued && row.accepted
      && row.businessStarted = some false && row.helperStarted = some false && !row.exitProof
      && !row.facts && !row.runnerResult && !row.businessOutcome && !row.frozenSnapshot
      && row.ns.phases.head? = some phase)
    (invalid "Prior execution has no durable aggregate budget; no new helper is authorized")
  return {
    version := 1
    ns := row.ns
    recordId := row.id
    operationId := row.parent
    budgetDigest := sha256 row.budgets
    bootId := now.bootId
    startedBoottimeNs := now.boottimeNs
    lastBoottimeNs := now.boottimeNs
    deadlineBoottimeNs := now.boottimeNs + row.budgets.wallSeconds * nanoseconds
    grants := ∅ }

/-- The state a reservation starts from. -/
def previousState (row : Row) (phase : Phase) (now : Clock) : Except Fault State :=
  match row.executionBudget with
  | none => firstState sha256 row phase now
  | some previous => .ok previous

/-- The record phase a helper phase starts from. -/
def expectedPhase : Phase → Phase
  | .business => .preflightComplete
  | .evidence => .awaitingSeal
  | _ => .queued

/-- The grant `reserve` adds to a state. -/
def State.newGrant (previous : State) (phase : Phase) (now : Clock) (limits : Limits) : Grant where
  version := previous.version
  ns := previous.ns
  recordId := previous.recordId
  operationId := previous.operationId
  executionId := ⟨previous.ns, previous.recordId, phase⟩
  phase := phase
  budgetDigest := previous.budgetDigest
  bootId := previous.bootId
  startedBoottimeNs := previous.startedBoottimeNs
  reservedBoottimeNs := now.boottimeNs
  deadlineBoottimeNs := previous.deadlineBoottimeNs
  limits := limits

/-- `reserve` -/
def reserve (row : Row) (phase : Phase) (clock : Except Fault Clock) : Except Fault (State × Grant) := do
  require (phase ∈ row.ns.phases) invalid
  let limits ← allocatedLimits row.budgets row.ns
  let now ← clock
  validateClock now
  let previous ← previousState sha256 row phase now
  validateState sha256 row previous
  require (previous.bootId = now.bootId && previous.lastBoottimeNs ≤ now.boottimeNs)
    (invalid "Operation deadline belongs to another or uncertain clock")
  require (row.phase = expectedPhase phase
      && (phase ≠ .business || (previous.grants.lookup .preflight).isSome)
      && (phase ≠ .evidence || previous.grants.entries ≠ []))
    (invalid "Helper phase is not consistent with prior budget reservations")
  require (previous.grants.lookup phase).isNone
    (.job "CONFLICT" "Helper budget reservation cannot be repeated or refunded")
  let grant := previous.newGrant phase now limits
  -- Exhaustion is refused before the grant's own times are checked.
  require (limits.terminateGraceSeconds * nanoseconds < previous.deadlineBoottimeNs - now.boottimeNs)
    (.budget "Operation has no runtime left after its required stop grace")
  validateGrant sha256 grant { originalBudgets := some row.budgets }
  let grants := previous.grants.insert phase grant
  require (fits grants row.budgets)
    (invalid "Helper reservations exceed the admitted operation budget")
  return ({ previous with grants, lastBoottimeNs := now.boottimeNs }, grant)

end

end LocalHand.Budget
