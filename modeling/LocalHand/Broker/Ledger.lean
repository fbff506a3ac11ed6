/-
The broker's durable state (`state.py`): the operations with their records, the
append-only events, the leases, the revocations and the generation counter.

A record keeps what the broker reads back of it. An event keeps the changes it
was written with; `encoded` of them is not modelled, so two events are told
apart by what they changed. A member a dictionary may lack is an `Option`, and
one of another type than its own writers give it reads as absent.
-/
import LocalHand.Budget
import LocalHand.BootstrapRoots

namespace LocalHand.Broker

inductive Lifecycle where
  | accepted | running | reconcileRequired | terminal
  deriving Repr, DecidableEq

inductive Outcome where
  | pending | succeeded | failed | cancelled | unknown
  deriving Repr, DecidableEq

inductive Evidence where
  | staging | sealed | durabilityUnknown
  deriving Repr, DecidableEq

/-- A proof's `state`; the broker tells no others apart. -/
inductive ExitState where
  | exited | unknown | other
  deriving Repr, DecidableEq

/-- A row's primary key. -/
structure Key where
  ns : Namespace
  id : String
  deriving Repr, DecidableEq

/-- The execution of one phase of the row. -/
def Key.exec (key : Key) (phase : Phase) : ExecId := ⟨key.ns, key.id, phase⟩

/-! ## Requests and plans -/

structure Expected where
  deploymentEpoch : Int
  rest : String
  deriving Repr, DecidableEq

structure Request where
  operationId : String
  requestDigest : String
  kind : String
  profileRef : String
  expected : Expected
  rest : String
  deriving Repr, DecidableEq

/-- `plan["execution"]`, with the truth of the members only asked for. -/
structure Execution where
  kind : String
  stages : List String
  source : Bool
  storage : Bool
  buildCache : Bool
  prepared : Bool
  writable : List String
  roots : BootstrapRoots.Roots String
  rest : String
  deriving Repr, DecidableEq

structure Plan where
  kind : String
  resourceIds : List String
  budgets : Budget.Limits
  reservationBytes : Int
  planDigest : Option String
  execution : Execution
  rest : String
  deriving Repr, DecidableEq

/-! ## Handles and proofs -/

/-- A system manager's identity (`manager_binding.py`). -/
structure Binding where
  authorityId : String
  bootId : String
  path : String
  device : Int
  inode : Int
  deriving Repr, DecidableEq

/-- What the manager saved of one unit. -/
structure ManagerUnit where
  unit : Option String
  executionId : Option ExecId
  bootId : Option String
  invocationId : Option String
  deriving Repr, DecidableEq

structure Manager where
  bootstrap : Option ManagerUnit
  helper : Option ManagerUnit
  resultReader : Option ManagerUnit
  deriving Repr, DecidableEq

structure Handle where
  executionId : Option ExecId
  intentOnly : Bool
  managerBinding : Option Binding
  supervisionVersion : Option Int
  manager : Option Manager
  rest : String
  deriving Repr, DecidableEq

abbrev Handles := AList fun _ : Phase => Handle

/-- A proof's `recovery_handle`: the members it replaces. -/
structure Recovery where
  executionId : Option ExecId
  managerBinding : Option Binding
  supervisionVersion : Option Int
  manager : Option Manager
  rest : Option String
  deriving Repr, DecidableEq

/-- `dict(saved, **recovery)` -/
def Handle.observe (handle : Handle) (recovery : Recovery) : Handle where
  executionId := recovery.executionId.or handle.executionId
  intentOnly := handle.intentOnly
  managerBinding := recovery.managerBinding.or handle.managerBinding
  supervisionVersion := recovery.supervisionVersion.or handle.supervisionVersion
  manager := recovery.manager.or handle.manager
  rest := recovery.rest.getD handle.rest

/-- A proof's `identity`. -/
structure UnitIdentity where
  bootId : Option String
  cgroup : Option String
  invocationId : Option String
  deriving Repr, DecidableEq

structure Facts where
  inputsStable : Bool
  rest : String
  deriving Repr, DecidableEq

/-- A set of digest bindings, with the two members the broker adds. -/
structure Bindings where
  entries : List (String × String)
  preparedRef : Option String
  sourceOperationId : Option String
  deriving Repr, DecidableEq

structure Seal where
  sealId : String
  operationId : String
  reconcileId : Option String
  complete : Bool
  eventSeq : Nat
  bindings : Bindings
  rest : String
  deriving Repr, DecidableEq

/-- A proof's `result`. `prepared` is its digest bindings. -/
structure Result where
  outcome : Option Outcome
  executionId : Option ExecId
  phase : Option Phase
  bootstrapPrepared : Bool
  effectsChecked : Option Bool
  businessStarted : Option Bool
  helperStarted : Option Bool
  sideEffects : Option String
  bindings : Bindings
  evidenceSnapshot : Option String
  sealRecord : Option Seal
  publication : Option Seal
  evidencePublication : Option Seal
  quotaObservation : Option String
  prepared : Option (List (String × String))
  rest : String
  deriving Repr, DecidableEq

/-- A result with no members. -/
def Result.none : Result :=
  { outcome := .none, executionId := .none, phase := .none, bootstrapPrepared := false
    effectsChecked := .none, businessStarted := .none, helperStarted := .none, sideEffects := .none
    bindings := ⟨[], .none, .none⟩, evidenceSnapshot := .none, sealRecord := .none, publication := .none
    evidencePublication := .none, quotaObservation := .none, prepared := .none, rest := "" }

/-- A proof's `result_reader_exit_proof`. -/
structure ReaderProof where
  executionId : Option ExecId
  unit : Option String
  state : ExitState
  futureStartBlocked : Option Bool
  treeExited : Option Bool
  collectorsStopped : Option Bool
  writersStopped : Option Bool
  identity : Option UnitIdentity
  deriving Repr, DecidableEq

/-- What a proof of kind `EVIDENCE_RECOVERY` carries besides. -/
structure EvidenceRecovery where
  operationId : String
  requestDigest : String
  snapshotSha256 : String
  priorBootId : Option String
  bootId : String
  priorUnitsAbsent : Bool
  recoveryId : String
  unit : String
  invocationId : String
  stdoutEof : Bool
  stderrEof : Bool
  publicationSha256 : String
  deriving Repr, DecidableEq

/-- An exit proof, as the runner answers it and the record keeps it. -/
structure Proof where
  state : ExitState
  futureStartBlocked : Option Bool
  treeExited : Option Bool
  collectorsStopped : Option Bool
  writersStopped : Option Bool
  effectsChecked : Option Bool
  exitCode : Option Int
  executionId : Option ExecId
  unit : Option String
  identity : Option UnitIdentity
  launchPrevented : Option Bool
  helperResultVerified : Option Bool
  result : Option Result
  facts : Option Facts
  recoveryHandle : Option Recovery
  reader : Option ReaderProof
  evidenceRecovery : Option EvidenceRecovery
  rest : String
  deriving Repr, DecidableEq

namespace Proof

/-- The proof the broker itself gives for a row that was never started. -/
def neverStarted : Proof where
  state := .other
  futureStartBlocked := some true
  treeExited := some true
  collectorsStopped := none
  writersStopped := none
  effectsChecked := some true
  exitCode := none
  executionId := none
  unit := none
  identity := none
  launchPrevented := none
  helperResultVerified := none
  result := none
  facts := none
  recoveryHandle := none
  reader := none
  evidenceRecovery := none
  rest := ""

/-- `future_start_blocked` and `tree_exited` are both `True`. -/
def exited (proof : Proof) : Bool :=
  proof.futureStartBlocked = some true && proof.treeExited = some true

/-- `exited`, and `effects_checked` too. -/
def certain (proof : Proof) : Bool := proof.exited && proof.effectsChecked = some true

/-- The five flags of a complete exit. -/
def complete (proof : Proof) : Bool :=
  proof.certain && proof.collectorsStopped = some true && proof.writersStopped = some true

theorem certain_exited {proof : Proof} (h : proof.certain = true) : proof.exited = true := by
  simp only [certain, Bool.and_eq_true] at h
  exact h.1

end Proof

/-- `proof.get(..)` of a proof that may be missing. -/
def exitedProof (proof : Option Proof) : Bool := proof.any Proof.exited

/-! ## Quota members -/

/-- An entry of `quota_preparations`. -/
structure Preparation where
  phase : Phase
  session : String
  budget : Budget.Grant
  allocation : BootstrapRoots.Grant
  generation : Int × Int
  deriving DecidableEq

/-- What the broker reads of a decoded observation grant. -/
structure QuotaGrant where
  digest : String
  executionId : ExecId
  bootId : String
  allocation : BootstrapRoots.Grant
  budget : Budget.Grant
  rest : String
  deriving DecidableEq

/-- An entry of `quota_bindings`. -/
structure QuotaBinding where
  phase : Phase
  grantDigest : String
  grant : QuotaGrant
  deriving DecidableEq

/-- An entry of `quota_observed`. -/
structure Observed where
  phase : Phase
  observation : String
  deriving DecidableEq

/-- An entry of `quota_pending`. -/
structure Pending where
  phase : Phase
  proof : Proof
  deriving DecidableEq

/-- A validated closure of all six stages. -/
structure Fence where
  executionId : ExecId
  ordinaryDigest : String
  rest : String
  deriving DecidableEq

/-- An entry of `quota_closed`. -/
structure Closed where
  phase : Phase
  fence : Fence
  deriving DecidableEq

/-! ## Records -/

structure Quiescence where
  executionId : Option ExecId
  eventSeq : Nat
  futureStartsBlocked : Bool
  treeExited : Bool
  collectorsStopped : Bool
  writersStopped : Bool
  deriving Repr, DecidableEq

/-- `frozen_snapshot`, without the events it repeats. -/
structure Frozen where
  snapshot : String
  operationId : String
  eventSeq : Nat
  quiescence : Quiescence
  bindings : Bindings
  reconcileId : Option String
  previousSealId : Option String
  deriving Repr, DecidableEq

structure Record where
  lifecycle : Lifecycle
  outcome : Outcome
  evidence : Evidence
  phase : Phase
  cancelRequested : Bool
  businessStarted : Option Bool
  helperStarted : Option Bool
  sideEffects : String
  exitProof : Option Proof
  gaps : List String
  eventSeq : Nat
  principalScopes : List String
  generation : Int × Int
  handles : Handles
  quotaBindingVersion : Option Int
  recovered : Bool
  facts : Option Facts
  runnerResult : Option Result
  frozenSnapshot : Option Frozen
  businessOutcome : Option Outcome
  businessExitProof : Option Proof
  deliveryIntents : List DeliveryId
  executionBudget : Option Budget.State
  bootstrapGrants : BootstrapRoots.Grants
  quotaPreparations : AList fun _ : Phase => Preparation
  quotaBindings : AList fun _ : Phase => QuotaBinding
  quotaObserved : AList fun _ : Phase => Observed
  quotaPending : AList fun _ : Phase => Pending
  quotaClosed : AList fun _ : Phase => Closed
  seals : List Seal
  executionResourcesReleased : Bool

/-- What one update writes: the members it names. -/
structure Changes where
  lifecycle : Option Lifecycle := none
  outcome : Option Outcome := none
  evidence : Option Evidence := none
  phase : Option Phase := none
  cancelRequested : Option Bool := none
  businessStarted : Option (Option Bool) := none
  helperStarted : Option (Option Bool) := none
  sideEffects : Option String := none
  exitProof : Option (Option Proof) := none
  gaps : Option (List String) := none
  principalScopes : Option (List String) := none
  generation : Option (Int × Int) := none
  handles : Option Handles := none
  quotaBindingVersion : Option Int := none
  recovered : Option Bool := none
  facts : Option Facts := none
  runnerResult : Option Result := none
  frozenSnapshot : Option Frozen := none
  businessOutcome : Option Outcome := none
  businessExitProof : Option Proof := none
  deliveryIntents : Option (List DeliveryId) := none
  executionBudget : Option Budget.State := none
  bootstrapGrants : Option BootstrapRoots.Grants := none
  quotaEventPhase : Option Phase := none
  quotaPreparations : Option (AList fun _ : Phase => Preparation) := none
  quotaBindings : Option (AList fun _ : Phase => QuotaBinding) := none
  quotaObserved : Option (AList fun _ : Phase => Observed) := none
  quotaPending : Option (AList fun _ : Phase => Pending) := none
  quotaClosed : Option (AList fun _ : Phase => Closed) := none
  seals : Option (List Seal) := none
  executionResourcesReleased : Option Bool := none

/-- `record.update(changes)` and the sequence number of its event. -/
def Record.apply (r : Record) (c : Changes) (seq : Nat) : Record where
  lifecycle := c.lifecycle.getD r.lifecycle
  outcome := c.outcome.getD r.outcome
  evidence := c.evidence.getD r.evidence
  phase := c.phase.getD r.phase
  cancelRequested := c.cancelRequested.getD r.cancelRequested
  businessStarted := c.businessStarted.getD r.businessStarted
  helperStarted := c.helperStarted.getD r.helperStarted
  sideEffects := c.sideEffects.getD r.sideEffects
  exitProof := c.exitProof.getD r.exitProof
  gaps := c.gaps.getD r.gaps
  eventSeq := seq
  principalScopes := c.principalScopes.getD r.principalScopes
  generation := c.generation.getD r.generation
  handles := c.handles.getD r.handles
  quotaBindingVersion := c.quotaBindingVersion.or r.quotaBindingVersion
  recovered := c.recovered.getD r.recovered
  facts := c.facts.or r.facts
  runnerResult := c.runnerResult.or r.runnerResult
  frozenSnapshot := c.frozenSnapshot.or r.frozenSnapshot
  businessOutcome := c.businessOutcome.or r.businessOutcome
  businessExitProof := c.businessExitProof.or r.businessExitProof
  deliveryIntents := c.deliveryIntents.getD r.deliveryIntents
  executionBudget := c.executionBudget.or r.executionBudget
  bootstrapGrants := c.bootstrapGrants.getD r.bootstrapGrants
  quotaPreparations := c.quotaPreparations.getD r.quotaPreparations
  quotaBindings := c.quotaBindings.getD r.quotaBindings
  quotaObserved := c.quotaObserved.getD r.quotaObserved
  quotaPending := c.quotaPending.getD r.quotaPending
  quotaClosed := c.quotaClosed.getD r.quotaClosed
  seals := c.seals.getD r.seals
  executionResourcesReleased := c.executionResourcesReleased.getD r.executionResourcesReleased

/-- The record `insert` writes. -/
def Record.accepted : Record where
  lifecycle := .accepted
  outcome := .pending
  evidence := .staging
  phase := .queued
  cancelRequested := false
  businessStarted := some false
  helperStarted := some false
  sideEffects := "UNOBSERVED"
  exitProof := none
  gaps := []
  eventSeq := 0
  principalScopes := []
  generation := (0, 0)
  handles := ∅
  quotaBindingVersion := none
  recovered := false
  facts := none
  runnerResult := none
  frozenSnapshot := none
  businessOutcome := none
  businessExitProof := none
  deliveryIntents := []
  executionBudget := none
  bootstrapGrants := ∅
  quotaPreparations := ∅
  quotaBindings := ∅
  quotaObserved := ∅
  quotaPending := ∅
  quotaClosed := ∅
  seals := []
  executionResourcesReleased := false

/-! ## The tables -/

/-- The kinds of event. -/
inductive Kind where
  | accepted | admissionBound | observationBound
  | cancelRequested | grantRevoked
  | recoveryBarrier | executionUncertain | executionBudgetExhausted
  | bootstrapRootsReserved | quotaPreparation | quotaObservationBound | quotaObserved
  | quotaExitPending | quotaPhaseClosed
  | executionIntent | launchEnqueued | supervisorIdentityObserved
  | bootstrapComplete | helperExitObserved | managerDeliveryIntent
  | preflightComplete | executionExit | sealSnapshotFrozen
  | evidenceUncertain | evidenceHelperExit | evidenceSealed
  | evidenceStartBlocked | startupBlocked
  | preflightStopped | businessStartStopped | inspectionCancelled | evidenceCancelled
  | evidenceRecoveryCompleted | executionResourcesReleased
  deriving Repr, DecidableEq

/-- A row of `operations`. A round's request is its parent's. -/
structure Row where
  ns : Namespace
  id : String
  parent : String
  principal : String
  digest : String
  request : Request
  plan : Plan
  reservedBytes : Int
  record : Record

def Row.key (row : Row) : Key := ⟨row.ns, row.id⟩

/-- A row of `events`. -/
structure Event where
  seq : Nat
  key : Key
  kind : Kind
  changes : Changes

structure Ledger where
  rows : List Row
  events : List Event
  leases : Leases
  revoked : List String
  generation : Int

/-- The ledger `_create` leaves. -/
def Ledger.created : Ledger := ⟨[], [], [], [], 1⟩

/-- `StateStore.get` -/
def Ledger.get (l : Ledger) (key : Key) : Option Row := l.rows.find? (·.key = key)

/-- The events of one row, oldest first. -/
def Ledger.eventsOf (l : Ledger) (key : Key) : List Event := l.events.filter (·.key = key)

/-- The changes of the row's events of one kind, oldest first. -/
def Ledger.history (l : Ledger) (key : Key) (kind : Kind) : List Changes :=
  ((l.eventsOf key).filter (·.kind = kind)).map (·.changes)

/-- The last event of one kind. -/
def Ledger.last (l : Ledger) (key : Key) (kind : Kind) : Option Event :=
  ((l.eventsOf key).filter (·.kind = kind)).getLast?

/-- The sequence number of the next event. -/
def Ledger.nextSeq (l : Ledger) : Nat := l.events.length + 1

/-- One row with its record changed. -/
def Row.apply (row : Row) (key : Key) (c : Changes) (seq : Nat) : Row :=
  if row.key = key then { row with record := row.record.apply c seq } else row

/-- `StateStore.update`, of a row that is there. -/
def Ledger.write (l : Ledger) (key : Key) (kind : Kind) (c : Changes) : Ledger :=
  { l with
    rows := l.rows.map (·.apply key c l.nextSeq)
    events := l.events ++ [⟨l.nextSeq, key, kind, c⟩] }

/-- `StateStore.update` -/
def Ledger.update (l : Ledger) (key : Key) (kind : Kind) (c : Changes) : Except Fault Ledger :=
  match l.get key with
  | none => .error (.job "NOT_FOUND" "No record in the healthy ledger")
  | some _ => .ok (l.write key kind c)

/-- `get`, where the caller reads a member of the row at once. -/
def Ledger.row (l : Ledger) (key : Key) : Except Fault Row :=
  match l.get key with
  | none => .error (.value "NoneType")
  | some row => .ok row

/-- `StateStore.insert`; the table checks its key and that something is reserved. -/
def Ledger.insert (l : Ledger) (key : Key) (parent principal digest : String) (request : Request)
    (plan : Plan) (reserved : Int) : Except Fault Ledger := do
  require ((l.get key).isNone && 0 < reserved) .os
  let row : Row :=
    { ns := key.ns, id := key.id, parent, principal, digest, request, plan, reservedBytes := reserved
      record := Record.accepted }
  return { l with rows := l.rows ++ [row] }.write key .accepted {}

/-! ## What a write keeps -/

section

variable {l l' : Ledger} {key k : Key} {kind : Kind} {c : Changes} {row : Row}

@[simp] theorem Row.apply_key {seq : Nat} : (row.apply key c seq).key = row.key := by
  unfold Row.apply
  split <;> rfl

theorem Row.apply_self {seq : Nat} (h : row.key = key) :
    row.apply key c seq = { row with record := row.record.apply c seq } := if_pos h

theorem Row.apply_other {seq : Nat} (h : row.key ≠ key) : row.apply key c seq = row := if_neg h

theorem Ledger.get_key (h : l.get key = some row) : row.key = key := by
  simpa using List.find?_some h

theorem Ledger.get_mem (h : l.get key = some row) : row ∈ l.rows := List.mem_of_find?_eq_some h

theorem Ledger.get_write : (l.write key kind c).get k = (l.get k).map (·.apply key c l.nextSeq) := by
  unfold Ledger.get Ledger.write
  rw [List.find?_map]
  congr 2
  funext row
  simp

theorem Ledger.get_write_self (h : l.get key = some row) :
    (l.write key kind c).get key = some { row with record := row.record.apply c l.nextSeq } := by
  rw [get_write, h, Option.map_some, Row.apply_self (get_key h)]

theorem Ledger.get_write_other (hne : k ≠ key) : (l.write key kind c).get k = l.get k := by
  rw [get_write]
  cases h : l.get k with
  | none => rfl
  | some row => rw [Option.map_some, Row.apply_other (get_key h ▸ hne)]

theorem Ledger.update_ok : l.update key kind c = .ok l' ↔ (∃ row, l.get key = some row) ∧ l.write key kind c = l' := by
  unfold Ledger.update
  cases l.get key <;> simp

theorem Ledger.row_ok : l.row key = .ok row ↔ l.get key = some row := by
  unfold Ledger.row
  cases l.get key <;> simp

@[simp] theorem Ledger.write_leases : (l.write key kind c).leases = l.leases := rfl

@[simp] theorem Ledger.write_generation : (l.write key kind c).generation = l.generation := rfl

@[simp] theorem Ledger.write_revoked : (l.write key kind c).revoked = l.revoked := rfl

end

end LocalHand.Broker
