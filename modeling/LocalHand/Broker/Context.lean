/-
What a broker call consults besides the ledger: the installation, the admitted
policy, the tables the process keeps in memory, the quota members of a record
(`quota_binding.py`), and the budgets and roots a phase start reserves.

The policy, the registry, the clock and the validators of the quota contract
answer from outside; a call is given their answers.
-/
import LocalHand.Broker.Ledger

namespace LocalHand.Broker

/-- What stays fixed: the admitted limits, the resource aliases and the digests. -/
structure Site where
  maxQueued : Nat
  maxRunning : Nat
  retainedBytes : Int
  ledgerEmergencyBytes : Int
  aliases : List (String × String)
  sha256 : Budget.Limits → String
  roots : BootstrapRoots.Site
  proofDigest : Proof → String
  snapshotDigest : Option Frozen → String
  sealDigest : Seal → String
  /-- `"lhj-" + sha256(text) + ".service"` -/
  unitName : String → String
  /-- `local_a2_jobs.local_effects_only` -/
  localA2 : Execution → Option Facts → Bool

/-- What the constructor is given. -/
structure Install where
  managerBinding : Option Binding
  quotaRequired : Bool
  /-- The root of the evidence service, if there is one. -/
  evidence : Option String
  /-- `process_manager.cgroup` -/
  managerRoot : String

structure Principal where
  id : String
  scopes : List String

/-- A policy profile. -/
structure Profile where
  reconcile : Budget.Limits
  bootstrapSlots : Option (List BootstrapRoots.Slot)
  bootstrapEvidenceStore : Option BootstrapRoots.Root

/-- The answers a call is given. -/
structure Env where
  authorize : Principal → String → Option Request → Option String → Except Fault Unit
  expected : String → Except Fault Expected
  /-- `policy.generation` -/
  generation : Int
  profile : String → Except Fault Profile
  resolve : Request → Except Fault Plan
  clock : Except Fault Budget.Clock
  /-- The request's deadline has passed. -/
  expired : Request → Bool
  /-- `quota_grant.decode_grant`, and `check_execution` where it is asked for. -/
  checkGrant : QuotaGrant → Bool → Except Fault Unit
  /-- `quota_binding.validate_observation` of an observation against a grant. -/
  validateObservation : Option String → QuotaGrant → Except Fault String
  /-- `quota_closure.decode`, with the ordinary stages of the pending proof. -/
  decodeFence : QuotaGrant → String → Proof → Except Fault Fence
  /-- `phase_plan` of the row, which can only refuse. -/
  phasePlan : Except Fault Unit

/-- An execution the runner was given, and the handle it is known by. -/
structure Attached where
  exec : ExecId
  handle : Handle
  deriving DecidableEq

/-- An entry of `_recovering`. -/
structure Recovering where
  attached : Attached
  cancelWakeUsed : Bool

/-- The tables of one process. -/
structure Mem where
  install : Install
  session : String
  active : AList fun _ : Key => Attached
  recovering : AList fun _ : Key => Recovering
  owners : AList fun _ : ExecId => Key

def Mem.start (install : Install) (session : String) : Mem := ⟨install, session, ∅, ∅, ∅⟩

/-- `key in _active or key in _recovering` -/
def Mem.observed (m : Mem) (key : Key) : Bool :=
  (m.active.lookup key).isSome || (m.recovering.lookup key).isSome

/-! ## Authorization -/

/-- `_authorize` -/
def authorize (env : Env) (l : Ledger) (principal : Principal) (scope : String) (request : Option Request)
    (owner : Option String) : Except Fault Unit := do
  env.authorize principal scope request owner
  require (!l.revoked.contains principal.id) (.job "UNAUTHORIZED" "Principal admission has been revoked")

/-- `_row` -/
def ownRow (env : Env) (l : Ledger) (key : Key) (principal : Principal) (scope : String) : Except Fault Row :=
  match l.get key with
  | none => .error (.job "NOT_FOUND" "No matching record in the healthy ledger")
  | some row => do
    authorize env l principal scope none (some row.principal)
    require (row.principal = principal.id) (.job "UNAUTHORIZED" "Operation ownership does not match")
    return row

/-- `_generation` -/
def generation (env : Env) (l : Ledger) : Int × Int := (env.generation, l.generation)

/-- `manager_binding.check` -/
def checkBinding (expected actual : Option Binding) : Except Fault Unit :=
  require (expected = actual) (.job "IO_UNCERTAIN" "Original process manager identity is unresolved")

/-- `manager_binding.validate` with the boot it must name. -/
def validateBinding (binding : Option Binding) (bootId : String) : Except Fault Unit :=
  require (binding.all (·.bootId = bootId))
    (.job "IO_UNCERTAIN" "Original process manager identity is unresolved")

/-! ## Members with one entry a phase -/

abbrev PerPhase (α : Type) := AList fun _ : Phase => α

section

variable {α β : Type}

/-- `set(member) == set(phases)` -/
def keysAre (m : PerPhase α) (phases : List Phase) : Bool :=
  m.keys.all phases.contains && phases.all m.keys.contains

def mapValues (f : α → β) (m : PerPhase α) : PerPhase β where
  entries := m.entries.map fun entry => ⟨entry.1, f entry.2⟩
  nodupKeys := by
    have hkeys : (m.entries.map fun entry => (⟨entry.1, f entry.2⟩ : Sigma fun _ : Phase => β)).keys
        = m.entries.keys := by
      simp [List.keys, Function.comp_def]
    rw [List.NodupKeys, hkeys]
    exact m.nodupKeys

end

/-- One of a record's quota members, and the kind of event that fills it. -/
structure Member (α : Type) where
  kind : Kind
  changed : Changes → Option (PerPhase α)
  stored : Record → PerPhase α
  phase : α → Phase

def preparations : Member Preparation :=
  ⟨.quotaPreparation, (·.quotaPreparations), (·.quotaPreparations), (·.phase)⟩

def quotaBindings : Member QuotaBinding :=
  ⟨.quotaObservationBound, (·.quotaBindings), (·.quotaBindings), (·.phase)⟩

def observations : Member Observed := ⟨.quotaObserved, (·.quotaObserved), (·.quotaObserved), (·.phase)⟩

def pendings : Member Pending := ⟨.quotaExitPending, (·.quotaPending), (·.quotaPending), (·.phase)⟩

def closures : Member Closed := ⟨.quotaPhaseClosed, (·.quotaClosed), (·.quotaClosed), (·.phase)⟩

/-- `quota_binding.recorded` -/
def recorded {α : Type} (l : Ledger) (row : Row) (phase : Phase) (member : Member α) : Bool :=
  (l.history row.key member.kind).any (·.quotaEventPhase = some phase)

/-- The values the row's events of the member's kind gave the phase. -/
def originals {α : Type} (l : Ledger) (row : Row) (phase : Phase) (member : Member α) : List α :=
  let values := (l.history row.key member.kind).filterMap fun c =>
    if c.quotaEventPhase = some phase then (member.changed c).bind (·.lookup phase) else none
  values.filter (member.phase · = phase)

/-- `quota_binding.original` -/
def original {α : Type} [DecidableEq α] (l : Ledger) (row : Row) (phase : Phase) (member : Member α) :
    Except Fault α :=
  match (member.stored row.record).lookup phase with
  | none => .error (.job "IO_UNCERTAIN" "Original quota binding is missing or changed")
  | some stored => do
    require (originals l row phase member = [stored])
      (.job "IO_UNCERTAIN" "Original quota binding is missing or changed")
    return stored

theorem original_ok {α : Type} [DecidableEq α] {l : Ledger} {row : Row} {phase : Phase} {member : Member α}
    {value : α} (h : original l row phase member = .ok value) :
    (member.stored row.record).lookup phase = some value := by
  unfold original at h
  cases hstored : (member.stored row.record).lookup phase with
  | none => rw [hstored] at h; cases h
  | some stored =>
    rw [hstored] at h
    simp only [bind_ok, require_ok, exists_unit, pure, Except.pure, Except.ok.injEq] at h
    rw [h.2]

/-- `quota_binding.admission_version` -/
def admissionVersion (l : Ledger) (row : Row) : Except Fault (Option Int) := do
  let kind := match row.ns with
    | .job => Kind.admissionBound
    | .reconcile => Kind.observationBound
  let initial := (l.history row.key kind).head?.bind (·.quotaBindingVersion)
  let current := row.record.quotaBindingVersion
  require (initial = current && current.all (· = 1))
    (.job "IO_UNCERTAIN" "Quota admission version differs from its original event")
  return current

/-- `quota_binding.selected`; `now` says whether the grant's times are checked. -/
def selected (env : Env) (l : Ledger) (row : Row) (phase : Phase) (session : String) (now : Bool) :
    Except Fault QuotaGrant := do
  let version ← admissionVersion l row
  require (version = some 1) (.value "QUOTA_ADMISSION")
  let prep ← original l row phase preparations
  require (prep.session = session) (.value "QUOTA_RECOVERY_BARRIER")
  let item ← original l row phase quotaBindings
  require (item.grantDigest = item.grant.digest && item.grant.allocation = prep.allocation
    && item.grant.budget = prep.budget) (.value "QUOTA_PREPARATION_CHANGED")
  env.checkGrant item.grant now
  return item.grant

/-! ## Budgets and roots -/

/-- What the envelope reads of the row. -/
def Row.budget (row : Row) : Budget.Row where
  ns := row.ns
  id := row.id
  parent := row.parent
  budgets := row.plan.budgets
  phase := row.record.phase
  accepted := row.record.lifecycle = .accepted
  businessStarted := row.record.businessStarted
  helperStarted := row.record.helperStarted
  handles := mapValues (·.executionId) row.record.handles
  executionBudget := row.record.executionBudget
  quotaBindingVersion := row.record.quotaBindingVersion
  quotaPreparations := mapValues (fun p => ⟨p.phase, p.session, p.budget⟩) row.record.quotaPreparations
  exitProof := row.record.exitProof.isSome
  facts := row.record.facts.isSome
  runnerResult := row.record.runnerResult.isSome
  businessOutcome := row.record.businessOutcome.isSome
  frozenSnapshot := row.record.frozenSnapshot.isSome

/-- `budget.stored_grant` -/
def storedGrant (site : Site) (row : Row) (phase : Phase) : Except Fault Budget.Grant :=
  Budget.storedGrant site.sha256 row.budget phase

/-- What a root reservation reads of the ledger. -/
def Ledger.roots (l : Ledger) (row : Row) : BootstrapRoots.St where
  leases := l.leases
  records := AList.insert (row.ns, row.id)
    { parent := row.parent
      digest := row.digest
      grants := row.record.bootstrapGrants
      event := (l.last row.key .bootstrapRootsReserved).bind (·.changes.bootstrapGrants) } ∅

/-- `bootstrap_roots.reserve`, on the ledger. -/
def reserveRoots (site : Site) (l : Ledger) (row : Row) (phase : Phase) (slots : List BootstrapRoots.Slot)
    (extra : Option BootstrapRoots.Root) : Except Fault (BootstrapRoots.Grant × Ledger) :=
  let caller : BootstrapRoots.Row := ⟨row.ns, row.id, row.parent, row.digest, row.plan.execution.roots⟩
  match BootstrapRoots.reserve site.roots (l.roots row) caller phase slots extra with
  | (.error fault, _) => .error fault
  | (.ok grant, s) =>
    match s.records.lookup (row.ns, row.id) with
    | none => .error BootstrapRoots.unresolved
    | some record =>
      if record.grants = row.record.bootstrapGrants then .ok (grant, { l with leases := s.leases })
      else do
        let l ← { l with leases := s.leases }.update row.key .bootstrapRootsReserved
          { bootstrapGrants := some record.grants }
        return (grant, l)

/-- `resources.assert_owned` for the row's execution. -/
def ownsResources (site : Site) (l : Ledger) (row parent : Row) : Except Fault Unit :=
  assertOwned site.aliases l.leases row.parent parent.request.expected.deploymentEpoch row.plan.resourceIds

end LocalHand.Broker
