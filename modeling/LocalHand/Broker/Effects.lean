/-
What the transactions of the broker can do to the ledger. `Write` says, for one
row, every list of events one of them appends and under which conditions;
`Effect` adds what happens to the leases and the tables beside. Each operation
is shown to be a sequence of effects on its row, and everything proved of the
broker is proved of the effects.
-/
import LocalHand.Broker.Run
import LocalHand.BudgetEnvelope
import Mathlib.Logic.Relation

namespace LocalHand.Broker

/-! ## Several events at once -/

/-- Updates of one row, in order. -/
def Ledger.writes (l : Ledger) (key : Key) (es : List (Kind × Changes)) : Ledger :=
  es.foldl (fun l e => l.write key e.1 e.2) l

/-- The record after updates whose events are numbered from `seq` on. -/
def Record.applyAll (r : Record) : List (Kind × Changes) → Nat → Record
  | [], _ => r
  | e :: es, seq => (r.apply e.2 seq).applyAll es (seq + 1)

section

variable {l l' : Ledger} {key k : Key} {kind : Kind} {c : Changes} {row : Row} {es : List (Kind × Changes)}

@[simp] theorem Ledger.writes_nil : l.writes key [] = l := rfl

@[simp] theorem Ledger.writes_cons {e : Kind × Changes} :
    l.writes key (e :: es) = (l.write key e.1 e.2).writes key es := rfl

@[simp] theorem Ledger.writes_leases : (l.writes key es).leases = l.leases := by
  induction es generalizing l with
  | nil => rfl
  | cons e es ih => rw [writes_cons, ih, write_leases]

@[simp] theorem Ledger.writes_generation : (l.writes key es).generation = l.generation := by
  induction es generalizing l with
  | nil => rfl
  | cons e es ih => rw [writes_cons, ih, write_generation]

theorem Ledger.nextSeq_write : (l.write key kind c).nextSeq = l.nextSeq + 1 := by
  simp [Ledger.nextSeq, Ledger.write]

theorem Ledger.get_writes_self (h : l.get key = some row) :
    (l.writes key es).get key = some { row with record := row.record.applyAll es l.nextSeq } := by
  induction es generalizing l row with
  | nil => exact h
  | cons e es ih => rw [writes_cons, ih (get_write_self h), nextSeq_write]; rfl

theorem Ledger.get_writes_other (hne : k ≠ key) : (l.writes key es).get k = l.get k := by
  induction es generalizing l with
  | nil => rfl
  | cons e es ih => rw [writes_cons, ih, get_write_other hne]

/-- The rows after updates of one row. -/
theorem Ledger.writes_rows : (l.writes key es).rows = l.rows.map fun row =>
    if row.key = key then { row with record := row.record.applyAll es l.nextSeq } else row := by
  induction es generalizing l with
  | nil =>
    have hid : (fun row : Row => if row.key = key then { row with record := row.record.applyAll [] l.nextSeq }
        else row) = id := by
      funext row
      simp [Record.applyAll]
    rw [writes_nil, hid, List.map_id]
  | cons e es ih =>
    rw [writes_cons, ih, nextSeq_write]
    simp only [Ledger.write, List.map_map]
    refine List.map_congr_left fun row _ => ?_
    by_cases h : row.key = key
    · simp only [Function.comp, h, if_true, Row.apply_self h, Record.applyAll]
      exact if_pos h
    · simp only [Function.comp, h, if_false, Row.apply_other h]

end

/-! ## The writes -/

/-- How many rows have an intent for their phase and no proved exit of it. -/
def Ledger.inFlight (l : Ledger) : Nat := l.rows.countP (·.record.inFlight)

/-- What a transaction relies on and may do: the executions shown to have exited, and
whether it may complete a row that is finished already, withdraw rows, start a phase or
deliver a stage. -/
structure Grounds where
  exited : ExecId → Prop
  late : Prop
  withdraws : Prop
  starts : Prop
  delivers : Prop

/-- The row's current execution is shown to have exited, if it has one. -/
def Grounds.shown (g : Grounds) (row : Row) : Prop :=
  row.record.phase ∈ row.record.handles.keys → g.exited (row.key.exec row.record.phase)

/-- The row is not finished. -/
def Grounds.unfinished (g : Grounds) (row : Row) : Prop := row.record.lifecycle = .terminal → g.late

/-- `row` is the round's parent, and a round may start beside it. -/
structure Gate (parent : Row) : Prop where
  notAccepted : parent.record.lifecycle ≠ .accepted
  notRunning : parent.record.lifecycle ≠ .running
  exited : exitedProof parent.record.exitProof = true

/-- What a phase of the row is started under. -/
structure Ready (site : Site) (g : Grounds) (l : Ledger) (row : Row) (phase : Phase) : Prop where
  may : g.starts
  idle : Phase.running row.record.phase = false
  unfinished : g.unfinished row
  uncancelled : row.record.cancelRequested = false
  slots : l.inFlight < site.maxRunning
  fresh : phase ∉ row.record.handles.keys
  running : Phase.running phase = true
  recovered : row.record.recovered = true → phase = .evidence
  gate : phase = .reconcile → ∃ parent, parentRow l row = .ok parent ∧ Gate parent
  owned : ∃ parent, parentRow l row = .ok parent ∧ ownsResources site l row parent = .ok ()

/-- The changes of `EXECUTION_INTENT`. -/
def intentChanges (m : Mem) (row : Row) (phase : Phase) (state : Budget.State) (allocated : Bool) : Changes where
  phase := some phase
  lifecycle := some .running
  handles := some (row.record.handles.insert phase
    (intentHandle m (row.key.exec phase) (if allocated then some 3 else none)))
  executionBudget := some state
  exitProof := some none
  businessStarted := some (if phase = .business then none else row.record.businessStarted)
  helperStarted := some (if row.record.helperStarted = some true || phase = .business then
    row.record.helperStarted else none)

/-- The changes of `QUOTA_EXIT_PENDING`. -/
def pendingChanges (row : Row) (proof : Proof) (gaps : List String) : Changes where
  quotaEventPhase := some row.record.phase
  quotaPending := some (row.record.quotaPending.insert row.record.phase ⟨row.record.phase, proof⟩)
  gaps := some gaps
  exitProof := if row.record.recovered then some (some proof) else none

/-- What a stage of the row's execution is delivered under. -/
structure Deliverable (m : Mem) (l : Ledger) (row : Row) (d : DeliveryId) : Prop where
  owner : m.owners.lookup d.exec = some row.key
  exec : d.exec = row.key.exec row.record.phase
  handle : row.record.phase ∈ row.record.handles.keys
  uncancelled : row.record.cancelRequested = false
  generation : row.record.generation.2 = l.generation
  fresh : undelivered row.record.deliveryIntents d.exec d.stage = true
  helper : d.stage = some .helper → ⟨d.exec, some .bootstrap⟩ ∈ row.record.deliveryIntents
  reader : d.stage = some .resultReader →
    ⟨d.exec, some .bootstrap⟩ ∈ row.record.deliveryIntents ∧ ⟨d.exec, some .helper⟩ ∈ row.record.deliveryIntents

/-- What a delivery of the stage records before its intent: at most an observation, and the proof it was given. -/
inductive Observes (row : Row) (stage : Option Stage) : List (Kind × Changes) → Prop where
  | nothing : Observes row stage []
  | bootstrap : Observes row stage [(.bootstrapComplete, {})]
  | helper : Observes row stage [(.helperExitObserved, {})]
  | quota (observation : String) (hstage : stage = some .helper) : Observes row stage [(.quotaObserved,
      { quotaEventPhase := some row.record.phase
        quotaObserved := some (row.record.quotaObserved.insert row.record.phase ⟨row.record.phase, observation⟩) }),
      (.bootstrapComplete, {})]

/-- Every list of events a transaction appends for the row, as it finds it. -/
inductive Write (site : Site) (m : Mem) (g : Grounds) (l : Ledger) (row : Row) : List (Kind × Changes) → Prop where
  | cancelled (hmay : g.withdraws) (hopen : row.record.lifecycle ≠ .terminal) (hphase : row.record.phase ≠ .queued) :
      Write site m g l row [(.cancelRequested, { cancelRequested := some true })]
  | revoked (hmay : g.withdraws) (hopen : row.record.lifecycle ≠ .terminal) :
      Write site m g l row [(.grantRevoked, { cancelRequested := some true })]
  | cancelledQueued (hmay : g.withdraws) (hopen : row.record.lifecycle ≠ .terminal) (hphase : row.record.phase = .queued) :
      Write site m g l row [(.cancelRequested,
        { cancelRequested := some true, lifecycle := some .terminal, outcome := some .cancelled
          phase := some .cancelledBeforeStart, sideEffects := some "NONE"
          exitProof := some (some Proof.neverStarted) })]
  | uncertain (gap : String) (hopen : row.record.lifecycle ≠ .terminal) :
      Write site m g l row [(.executionUncertain, uncertainChanges row.record gap)]
  | exhausted (proof : Option Proof) (outcome : Outcome) (certain : Bool) (gaps : List String)
      (hopen : row.record.lifecycle ≠ .terminal) (hactive : m.active.lookup row.key = none)
      (hby : exhausted row.record = some (proof, outcome))
      (hcertain : certain = (decide (outcome ≠ .unknown) && proof.any Proof.certain)) :
      Write site m g l row [(.executionBudgetExhausted,
        { phase := some .exited, lifecycle := some (if certain then .terminal else .reconcileRequired)
          outcome := some outcome, exitProof := some proof, gaps := some gaps })]
  | pending (proof : Proof) (gaps : List String) (hexit : proof.exited = true) (hshown : g.shown row)
      (hnone : row.record.quotaPending.lookup row.record.phase = none)
      (hopen : row.record.quotaClosed.lookup row.record.phase = none) :
      Write site m g l row [(.quotaExitPending, pendingChanges row proof gaps)]
  | evidenceUncertain (proof : Proof) (gaps : List String) (hexit : proof.exited = true) (hshown : g.shown row)
      (hphase : row.record.phase = .evidence) :
      Write site m g l row [(.evidenceUncertain,
        { phase := some .exited, lifecycle := some .reconcileRequired, evidence := some .durabilityUnknown
          outcome := some (row.record.businessOutcome.getD .unknown), exitProof := some (some proof)
          gaps := some gaps })]
  | evidenceExit (proof : Proof) (outcome : Outcome) (hexit : proof.exited = true) (hshown : g.shown row)
      (hphase : row.record.phase = .evidence) (hbusiness : row.record.businessOutcome = some outcome) :
      Write site m g l row [(.evidenceHelperExit,
        { phase := some .exited, outcome := some outcome, exitProof := some (some proof)
          lifecycle := some (if outcome = .unknown then .reconcileRequired else .terminal) })]
  | sealed (publication : Seal) (gaps : List String) (hphase : row.record.phase = .exited) :
      Write site m g l row [(.evidenceSealed,
        { evidence := some .sealed, seals := some (row.record.seals ++ [publication]), gaps := some gaps })]
  | preflightDone (proof : Proof) (facts : Facts) (hexit : proof.exited = true) (hshown : g.shown row)
      (hphase : row.record.phase = .preflight) :
      Write site m g l row [(.preflightComplete,
        { phase := some (if row.record.recovered then .exited else .preflightComplete)
          lifecycle := some (if row.record.recovered then .reconcileRequired else .running)
          outcome := some (if row.record.recovered then .unknown else .pending)
          helperStarted := some (some true), facts := some facts, exitProof := some (some proof)
          gaps := some [] })]
  | exit (proof : Proof) (hexit : proof.exited = true) (hshown : g.shown row) (hopen : g.unfinished row)
      (hphase : row.record.phase ≠ .evidence) :
      Write site m g l row [(.executionExit, exitChanges row.record (observedExit row.record proof) false)]
  | exitFrozen (proof : Proof) (frozen : Frozen) (hexit : proof.exited = true) (hshown : g.shown row)
      (hopen : g.unfinished row) (hphase : row.record.phase ≠ .evidence) (hcancel : row.record.cancelRequested = false) :
      Write site m g l row
        [(.executionExit, exitChanges row.record (observedExit row.record proof) true),
          (.sealSnapshotFrozen,
            { frozenSnapshot := some frozen, businessOutcome := some (observedExit row.record proof).outcome
              businessExitProof := some (observedExit row.record proof).proof })]
  | intent (phase : Phase) (state : Budget.State) (allocated : Bool) (hready : Ready site g l row phase) :
      Write site m g l row [(.executionIntent, intentChanges m row phase state allocated)]
  | enqueued (phase : Phase) (handle : Handle) (hphase : phase ∈ row.record.handles.keys) :
      Write site m g l row [(.launchEnqueued, { handles := some (row.record.handles.insert phase handle) })]
  | identified (handle : Handle) (hphase : row.record.phase ∈ row.record.handles.keys) :
      Write site m g l row [(.supervisorIdentityObserved,
        { handles := some (row.record.handles.insert row.record.phase handle) })]
  | rootsReserved (grants : BootstrapRoots.Grants) :
      Write site m g l row [(.bootstrapRootsReserved, { bootstrapGrants := some grants })]
  | prepared (phase : Phase) (state : Budget.State) (grant : Budget.Grant) (allocation : BootstrapRoots.Grant)
      (hcancel : row.record.cancelRequested = false) (hhandle : phase ∉ row.record.handles.keys)
      (hnone : row.record.quotaPreparations.lookup phase = none) :
      Write site m g l row [(.quotaPreparation,
        { quotaEventPhase := some phase, executionBudget := some state
          quotaPreparations := some (row.record.quotaPreparations.insert phase
            ⟨phase, m.session, grant, allocation, row.record.generation⟩) })]
  | observationBound (phase : Phase) (grant : QuotaGrant) (hhandle : phase ∉ row.record.handles.keys)
      (hnone : row.record.quotaBindings.lookup phase = none) :
      Write site m g l row [(.quotaObservationBound,
        { quotaEventPhase := some phase
          quotaBindings := some (row.record.quotaBindings.insert phase ⟨phase, grant.digest, grant⟩) })]
  | closed (phase : Phase) (fence : Fence) (gaps : List String) (hphase : row.record.phase = phase)
      (hnone : row.record.quotaClosed.lookup phase = none)
      (hsession : ∃ prep, row.record.quotaPreparations.lookup phase = some prep ∧ prep.session = m.session)
      (hpending : (row.record.quotaPending.lookup phase).isSome = true) :
      Write site m g l row [(.quotaPhaseClosed,
        { quotaEventPhase := some phase
          quotaClosed := some (row.record.quotaClosed.insert phase ⟨phase, fence⟩), gaps := some gaps })]
  | delivered (d : DeliveryId) (before : List (Kind × Changes)) (hmay : g.delivers) (hable : Deliverable m l row d)
      (hbefore : Observes row d.stage before) :
      Write site m g l row (before ++
        [(.managerDeliveryIntent, { deliveryIntents := some (row.record.deliveryIntents ++ [d]) })])
  | preflightStopped (proof : Proof) (h : stoppedPreflight site m l row = .ok (some proof)) (gaps : List String) :
      Write site m g l row [(.preflightStopped,
        { lifecycle := some .terminal, phase := some .exited
          outcome := some (if row.record.cancelRequested then .cancelled else .unknown)
          exitProof := some (some proof), sideEffects := some "NONE"
          executionResourcesReleased := some true, gaps := some gaps })]
  | phaseStopped (helperDelivered : Option Bool) (phase : Phase) (stopped : Stopped)
      (hkind : (helperDelivered, phase) ∈
        [(some false, Phase.business), (some true, .business), (none, .evidence)])
      (h : stoppedPhase site m l row helperDelivered phase = .ok (some stopped)) :
      Write site m g l row [stoppedEvent row helperDelivered phase stopped]
  | barrier (retained : Option Proof) (hopen : row.record.lifecycle ≠ .terminal)
      (hphase : row.record.phase ≠ .queued) (hretained : retainedExit m l row = .ok retained) :
      Write site m g l row [(.recoveryBarrier, barrierChanges row.record retained)]
  | startBlocked (stale : Row) (hidle : Phase.running row.record.phase = false) (hopen : g.unfinished row)
      (hkey : stale.key = row.key) (hstart : startable stale.record = true)
      (hcancel : stale.record.cancelRequested = true) :
      Write site m g l row [((blockedStart stale).1, (blockedStart stale).2.1)]
  | recovered (proof : Proof) (hjob : row.ns = .job) (hexit : proof.exited = true)
      (hshown : g.exited (row.key.exec .evidence))
      (hable : recoverable row = true) :
      Write site m g l row [(.evidenceRecoveryCompleted,
        { phase := some .exited, lifecycle := some .terminal, outcome := row.record.businessOutcome
          exitProof := some (some proof), gaps := some [] })]
  | resourcesReleased (hopen : row.record.lifecycle = .terminal) :
      Write site m g l row [(.executionResourcesReleased, { executionResourcesReleased := some true })]

/-- No execution of the row is under way, as far as its phase tells. -/
def Idle (l : Ledger) (key : Key) : Prop :=
  ∃ row, l.get key = some row ∧ Phase.running row.record.phase = false

/-- The kind of event a row is bound to its admission by. -/
def boundKind : Namespace → Kind
  | .job => .admissionBound
  | .reconcile => .observationBound

/-- What the ledger must hold for a row of this parent to be admitted. -/
def Admissible (l : Ledger) (key : Key) (parent : String) : Prop :=
  match key.ns with
  | .job => parent = key.id
  | .reconcile => ∃ row, l.get ⟨.job, parent⟩ = some row ∧ row.record.lifecycle ≠ .accepted ∧
      row.record.lifecycle ≠ .running ∧ roundOpen l parent = false

/-- One thing a transaction does, to the row of `key` or beside the rows. -/
inductive Effect (site : Site) (m : Mem) (g : Grounds) (key : Key) : Ledger → Ledger → Prop where
  | write {l : Ledger} {row : Row} {es : List (Kind × Changes)} (hget : l.get key = some row)
      (hwrite : Write site m g l row es) : Effect site m g key l (l.writes key es)
  | grow {l : Ledger} (leases : Leases)
      (hkept : ∀ resource held, l.leases.holder resource = some held → leases.holder resource = some held) :
      Effect site m g key l { l with leases }
  | release {l l' : Ledger} {row : Row} {proof : Proof} (hkey : row.key = key)
      (hlive : ∃ live, l.get key = some live ∧ live.parent = row.parent) (hidle : Idle l key)
      (h : release l row proof = .ok l') : Effect site m g key l l'
  | releaseStopped {l l' : Ledger} {row : Row} (hget : l.get key = some row) (hjob : row.ns = .job)
      (hround : roundOpen l row.id = false)
      (hstopped : row.record.phase = .exited ∨
        (row.record.quotaPending.lookup row.record.phase).isSome = true)
      (h : releaseStopped site l row = .ok l') : Effect site m g key l l'
  | admitted {l : Ledger} (row : Row) (leases : Leases) (scopes : List String) (policy : Int) (quota : Bool)
      (hkey : row.key = key) (hrecord : row.record = Record.accepted) (hnone : l.get key = none)
      (hparent : Admissible l key row.parent) (hopen : l.open < site.maxQueued)
      (hbytes : l.reserved + row.reservedBytes + site.ledgerEmergencyBytes ≤ site.retainedBytes)
      (hkept : ∀ resource held, l.leases.holder resource = some held → leases.holder resource = some held) :
      Effect site m g key l (Ledger.writes { l with leases, rows := l.rows ++ [row] } key
        [(.accepted, {}),
          (boundKind key.ns,
            { principalScopes := some scopes, generation := some (policy, l.generation), handles := some ∅
              quotaBindingVersion := if quota then some 1 else none })])

/-- What a transaction on one row does. -/
abbrev Effects (site : Site) (m : Mem) (g : Grounds) (key : Key) : Ledger → Ledger → Prop :=
  Relation.ReflTransGen (Effect site m g key)

/-- One thing a transaction does, to some row or to all admissions. -/
inductive Move (site : Site) (m : Mem) (g : Grounds) : Ledger → Ledger → Prop where
  | effect {l l' : Ledger} (key : Key) (h : Effect site m g key l l') : Move site m g l l'
  | revoked {l : Ledger} (hmay : g.withdraws) (revoked : List String) :
      Move site m g l { l with generation := l.generation + 1, revoked }

/-- What a transaction does. -/
abbrev Moves (site : Site) (m : Mem) (g : Grounds) : Ledger → Ledger → Prop :=
  Relation.ReflTransGen (Move site m g)

end LocalHand.Broker
