/-
The once-only quota service (`q2_service.py`) over the cells of one journal: requests
handled, phases closed, crashes, and service objects that read the journal anew.

The clock, the lock, the writes and the dispatched query are outside: what each gives, or
how it fails, is in the environment, by the number of the question.
-/
import LocalHand.QuotaJournal

namespace LocalHand.QuotaService

open PyJson QuotaContract QuotaGrant QuotaJournal Program
open Framing (Bytes)

variable {F : Type}

structure Outcome (F : Type) where
  status : String
  receipt : Option Bytes
  delivered : Bool
  deriving DecidableEq

/-- How a write of a record ends: made durable, or with an exception and nothing, a part
or all of the record in the file. -/
inductive Writing where
  | done
  | nothing (fault : Fault)
  | part (fault : Fault)
  | unsynced (fault : Fault)

/-- The dispatched query: the invocations it reports, and whether it goes on where a
report is refused; and its response, or an exception. -/
structure Query (F : Type) where
  reports : List (Value F × Bool)
  response : Except Fault Bytes

structure Env (F : Type) where
  reg : Registry F
  decodeRequest : Bytes → Except Fault Request
  fault : Nat → Option Fault
  clock : Nat → Except Fault (String × Int)
  writing : Nat → Writing
  query : Nat → Query F

/-- A record made durable, by its grant; a query dispatched. -/
inductive Mark (F : Type) where
  | durable (id : String) (record : Record F)
  | dispatched (id : String)

/-- The cells; the grants with an intent in their order; and what was done. -/
structure Core (F : Type) where
  cells : String → Cell F
  intents : List String
  trace : List (Mark F)

/-- A service object, with its journal object. -/
structure Service where
  journal : Nat
  lastNs : Int
  closureVersion : Nat

structure World (F : Type) where
  questions : Nat
  poisoned : List Bool
  services : List Service
  recorded : Option (Value F)
  core : Core F

abbrev Op (F : Type) := Prog (World F) Fault

/-! ## Steps -/

def lift {α : Type} : Except Fault α → Op F α
  | .ok a => pure a
  | .error fault => throw fault

def raise {α : Type} (fault : Fault) : Op F α := throw fault

def core : Op F (Core F) := do return (← get).core

def change (f : Core F → Core F) : Op F Unit := modify fun w => { w with core := f w.core }

def question : Op F Nat := do
  let w ← get
  set { w with questions := w.questions + 1 }
  return w.questions

def throwIf : Option Fault → Op F Unit
  | none => return
  | some fault => throw fault

/-- A call that may raise. -/
def pass (env : Env F) : Op F Unit := do throwIf (env.fault (← question))

def service (i : Nat) : Op F Service := do
  match (← get).services[i]? with
  | some s => return s
  | none => raise .os

/-- The grant's window. -/
def inWindow (now : Int) : Option Grant → Bool
  | none => true
  | some g => g.management.issuedNs ≤ now && now < g.request.deadlineNs

/-- `_now` -/
def now (env : Env F) (i : Nat) (grant : Option Grant) : Op F Int := do
  let s ← service i
  let (boot, ns) ← lift (env.clock (← question))
  lift (require (boot = env.reg.capacity.bootId) (quotaError "BOOT_BINDING"))
  lift (require (s.lastNs ≤ ns && ns ≤ maxInteger) (quotaError "INTEGER"))
  modify fun w => { w with services := w.services.set i { s with lastNs := ns } }
  lift (require (inWindow ns grant) (quotaError "DEADLINE"))
  return ns

/-- `locked`: the calls come one after another. -/
def locked (env : Env F) (i : Nat) : Op F Unit := do
  let s ← service i
  lift (require ((← get).poisoned[s.journal]? = some false) (quotaError "JOURNAL_UNAVAILABLE"))
  pass env

def poison (i : Nat) : Op F Unit := do
  let s ← service i
  modify fun w => { w with poisoned := w.poisoned.set s.journal true }

/-- `_grant` -/
def grantOf (reg : Registry F) (request : Request) : Except Fault Grant :=
  match reg.grants.find? (·.id = request.requestId) with
  | some g => if g.request = request then .ok g else .error (quotaError "REQUEST_NOT_ADMITTED")
  | none => .error (quotaError "REQUEST_NOT_ADMITTED")

/-! ## Cells -/

/-- A whole record at the end of a cell; after a part of one it is no record. -/
def Cell.append (cell : Cell F) (record : Record F) : Cell F :=
  if cell.torn then cell else { cell with records := cell.records ++ [record] }

def Cell.tear (cell : Cell F) : Cell F := { cell with torn := true }

def Cell.sync (cell : Cell F) : Cell F := { cell with synced := cell.records.length }

def isIntent : Record F → Bool
  | .intent _ => true
  | _ => false

def Core.setCell (c : Core F) (id : String) (cell : Cell F) : Core F := { c with cells := Function.update c.cells id cell }

/-- A record is in its cell, read by whoever reads next. -/
def Core.append (c : Core F) (id : String) (record : Record F) : Core F :=
  { c.setCell id (Cell.append (c.cells id) record) with
    intents := if isIntent record && !(c.cells id).torn then c.intents ++ [id] else c.intents }

def Core.durable (c : Core F) (id : String) (record : Record F) : Core F :=
  { c.setCell id (Cell.sync (c.cells id)) with trace := c.trace ++ [.durable id record] }

/-- What `append` writes. A write that is uncertain poisons its journal object. -/
def write (env : Env F) (id : String) (record : Record F) : Op F Unit := do
  match env.writing (← question) with
  | .done => do
    change fun c => (c.append id record).durable id record
  | .nothing fault => raise fault
  | .part fault => do
    change fun c => c.setCell id (Cell.tear (c.cells id))
    raise fault
  | .unsynced fault => do
    change fun c => c.append id record
    raise fault

/-- `append` -/
def append (env : Env F) (i : Nat) (id : String) (record : Record F) : Op F Unit := do
  let s ← service i
  lift (require ((← get).poisoned[s.journal]? = some false) (quotaError "JOURNAL_UNAVAILABLE"))
  tryCatch (write env id record) fun fault => do
    poison i
    raise fault

variable [DecidableEq F]

/-- `scan`. A chain journal's scan refuses more; that is among its faults. -/
def scan (env : Env F) : Op F (List (Grant × State F)) := do
  let states ← lift (scanCells env.reg (← core).cells)
  pass env
  return states

/-! ## Admission -/

inductive Resource where
  | slot (ref : String)
  | inode (device inode : Int)
  | domain (filesystemUuid : String) (projectId : Int)
  deriving DecidableEq

def inodeOf (root : Root) : Resource := .inode root.device root.inode
def domainOf (root : Root) : Resource := .domain root.filesystemUuid root.projectId

/-- `_resources` -/
def resources (g : Grant) : List Resource := .slot g.request.slotRef :: g.roots.flatMap fun root => [inodeOf root, domainOf root]

def overlap (g previous : Grant) : List Resource := (resources g).filter (resources previous).contains

def sameOperation (g previous : Grant) : Bool := previous.allocation.operationId = g.allocation.operationId

def sameBinding (g previous : Grant) : Bool :=
  previous.request.generation = g.request.generation && previous.request.installationDigest = g.request.installationDigest
    && previous.request.manifestDigest = g.request.manifestDigest

def retained (g : Grant) : Option Root := g.roots.find? (·.role = "retained_store")

/-- What a grant may reuse of another allocation. -/
def allowed (g : Grant) : List Resource :=
  match retained g with
  | some root => [inodeOf root, domainOf root]
  | none => []

/-- The retained root is one the earlier grant declared. -/
def checkRetained (g previous : Grant) : Except Fault Unit :=
  match retained g with
  | some root => require (previous.roots.any fun r => { r with role := root.role } = root) (quotaError "RETAINED_BINDING")
  | none => .ok ()

/-- The checks of resources two allocations share. -/
def checkReuse (g previous : Grant) : Except Fault Unit := do
  checkRetained g previous
  require ((overlap g previous).all (allowed g).contains) (quotaError "RESOURCE_CONSUMED")
  require (!g.roots.any fun root => (overlap g previous).contains (domainOf root) && root.role ≠ "retained_store") (quotaError "RESOURCE_CONSUMED")

def checkOverlap (g previous : Grant) : Except Fault Unit :=
  if (overlap g previous).isEmpty then .ok ()
  else do
    require (sameOperation g previous && sameBinding g previous) (quotaError "RESOURCE_CONSUMED")
    if previous.allocation.allocationId ≠ g.allocation.allocationId then checkReuse g previous else .ok ()

def checkBudget (g previous : Grant) : Except Fault Unit :=
  if sameOperation g previous && previous.allocation.namespc = g.allocation.namespc && previous.allocation.recordId = g.allocation.recordId then
    require (previous.budget = g.budget) (quotaError "ORIGINAL_BUDGET_CHANGED")
  else .ok ()

def closedSchema : String := "local-hand-quota-phase-closed/v2"

def hasSchema (fence : Value F) : Bool := fence.get? "schema" = some (.str closedSchema)

/-- The loop of `_admit_new`, for one cell that is not ready. -/
def admitAfter (version : Nat) (g : Grant) (now : Int) (previous : Grant) (state : State F) : Except Fault Unit :=
  match state.closed with
  | none => .error (quotaError "PRIOR_EXIT_UNPROVEN")
  | some fence => do
    require (state.status = .closed) (quotaError "PRIOR_EXIT_UNPROVEN")
    require (version ≠ 2 || hasSchema fence) (quotaError "PRIOR_CLOSURE_VERSION")
    let closedNs ← number fence "closed_ns"
    require (closedNs ≤ now) (quotaError "CLOCK_REGRESSION")
    require (previous.request.executionId ≠ g.request.executionId) (quotaError "PHASE_CONSUMED")
    checkOverlap g previous
    checkBudget g previous

/-- A business phase follows the preflight of its allocation. -/
def checkBusiness (g : Grant) (prior : List Grant) : Except Fault Unit :=
  if g.request.phase = "business" then
    match prior with
    | [previous] => require (previous.request.phase = "preflight" && previous.allocation.allocationId = g.allocation.allocationId
        && previous.roots = g.roots) (quotaError "BUSINESS_ALLOCATION")
    | _ => .error (quotaError "BUSINESS_PREDECESSOR")
  else .ok ()

def sameMembers (a b : List String) : Bool := a.all b.contains && b.all a.contains

/-- `_admit_new` -/
def admitNew (capacity : Capacity) (version : Nat) (g : Grant) (states : List (Grant × State F)) (now : Int) : Except Fault Unit := do
  let others := states.filter fun entry => entry.2.status ≠ .ready
  others.forM fun entry => admitAfter version g now entry.1 entry.2
  let occupied := others.map Prod.fst
  let prior := occupied.filter (sameOperation g)
  require (sameMembers (prior.map Grant.id) g.predecessors) (quotaError "PREDECESSOR_BINDING")
  checkBusiness g prior
  checkCapacity capacity (occupied ++ [g])

/-! ## Requests -/

def queryDeadline (g : Grant) : Int :=
  min (g.request.deadlineNs - g.management.receiveNs - g.management.stopNs)
    (g.management.issuedNs + g.management.admission.runtimeNs + g.management.query.runtimeNs)

/-- `remember` -/
def remember (env : Env F) (i : Nat) (g : Grant) (value : Value F) : Op F Unit := do
  let _ ← now env i (some g)
  lift (require ((← get).recorded.isNone) (quotaError "INVOCATION_ALREADY_RECORDED"))
  lift (env.reg.invocation value g)
  append env i g.id (.invocation value)
  modify fun w => { w with recorded := some value }
  let _ ← now env i (some g)

def report (env : Env F) (i : Nat) (g : Grant) : List (Value F × Bool) → Op F Unit
  | [] => return
  | (value, goesOn) :: rest => do
    tryCatch (remember env i g value) fun fault => if goesOn then return else raise fault
    report env i g rest

def dispatch (env : Env F) (i : Nat) (g : Grant) : Op F Bytes := do
  let query := env.query (← question)
  change fun c => { c with trace := c.trace ++ [.dispatched g.id] }
  report env i g query.reports
  lift query.response

/-- A request that is handled again: what its cell has. -/
def repeated (env : Env F) (g : Grant) (state : State F) (peer : Value F) (now : Int) : Op F (Outcome F) := do
  match state.intent with
  | none => raise (.key "intent")
  | some i => do
    lift (require (i.peer = peer) (quotaError "ORIGINAL_PEER_CHANGED"))
    match state.result with
    | none => return ⟨"UNKNOWN", none, false⟩
    | some (item, _) => do
      let receipt ← lift (decodeRecorded env.reg item g now)
      return ⟨receiptStatus receipt.facts, some receipt.wire, false⟩

/-- The times of a receipt that observed. -/
def checkTimes (receipt : Value F) (reserved deadline : Int) : Except Fault Unit :=
  if receiptStatus receipt = "OBSERVED" then do
    let started ← number receipt "started_ns"
    let finished ← number receipt "finished_ns"
    require (reserved ≤ started && finished < deadline) (quotaError "QUERY_DEADLINE")
  else .ok ()

/-- A request of a ready cell. -/
def first (env : Env F) (i : Nat) (g : Grant) (states : List (Grant × State F)) (peer : Value F) (reserved : Int) : Op F (Outcome F) := do
  let s ← service i
  lift (admitNew env.reg.capacity s.closureVersion g states reserved)
  append env i g.id (.intent ⟨env.reg.requestDigest g.request, peer, reserved⟩)
  let _ ← now env i (some g)
  let last ← now env i (some g)
  lift (require (last < queryDeadline g) (quotaError "QUERY_DEADLINE"))
  modify fun w => { w with recorded := none }
  let response ← dispatch env i g
  let received ← now env i (some g)
  let receipt ← lift (decodeReceipt env.reg response g received)
  lift (require (bindsQuery receipt.facts (← get).recorded) (quotaError "QUERY_BINDING"))
  lift (checkTimes receipt.facts reserved (queryDeadline g))
  append env i g.id (.result receipt.facts received)
  let _ ← now env i (some g)
  return ⟨receiptStatus receipt.facts, some receipt.wire, true⟩

/-- The state of a grant's cell. -/
def stateOf (states : List (Grant × State F)) (id : String) : Option (State F) := (states.find? (·.1.id = id)).map Prod.snd

/-- `handle` -/
def handle (env : Env F) (i : Nat) (raw : Bytes) (peer expected : Value F) : Op F (Outcome F) := do
  let request ← lift (env.decodeRequest raw)
  let g ← lift (grantOf env.reg request)
  lift (env.reg.peerBinding peer g)
  lift (env.reg.peerBinding expected g)
  lift (require (peer = expected) (quotaError "PEER_ATTESTATION"))
  let _ ← now env i (some g)
  locked env i
  let states ← scan env
  let reserved ← now env i (some g)
  match stateOf states g.id with
  | none => raise (.key g.id)
  | some state => if state.status ≠ .ready then repeated env g state peer reserved else first env i g states peer reserved

/-- `close_phase` of a phase that is not closed. -/
def closeOpen (env : Env F) (i : Nat) (g : Grant) (state : State F) (fence : Value F) (now : Int) : Op F Unit := do
  match state.result, state.intent with
  | some (item, received), some intent => do
    lift (require (state.status = .result && receiptStatus item = "OBSERVED") (quotaError "PHASE_EXIT_UNPROVEN"))
    let receipt ← lift (decodeRecorded env.reg item g received)
    lift (env.reg.closedFence fence g receipt.facts intent.peer)
    let closedNs ← lift (number fence "closed_ns")
    lift (require (received ≤ closedNs && closedNs ≤ now) (quotaError "PHASE_FENCE_TIME"))
    append env i g.id (.closed fence)
  | _, _ => raise (quotaError "PHASE_EXIT_UNPROVEN")

/-- `close_phase` -/
def closePhase (env : Env F) (i : Nat) (request : Request) (fence : Value F) : Op F Unit := do
  let g ← lift (grantOf env.reg request)
  let now ← now env i none
  let s ← service i
  lift (require (s.closureVersion ≠ 2 || hasSchema fence) (quotaError "CLOSURE_VERSION"))
  locked env i
  let states ← scan env
  match stateOf states g.id with
  | none => raise (.key g.id)
  | some state =>
    if state.status = .closed then lift (require (state.closed = some fence) (quotaError "PHASE_FENCE_CONFLICT"))
    else closeOpen env i g state fence now

/-- `Journal(...)` and a service on it. -/
def openService (env : Env F) (version : Nat) : Op F Unit := do
  lift (require (version = 1 || version = 2) (quotaError "CLOSURE_VERSION"))
  pass env
  let _ ← scan env
  modify fun w => { w with poisoned := w.poisoned ++ [false], services := w.services ++ [⟨w.poisoned.length, 0, version⟩] }

/-! ## Runs -/

/-- A call; a service on the journal object of another; and the end of every process, with
how much of each cell beyond its durable records is left and whether a part of one is. -/
inductive Label (F : Type) where
  | handle (i : Nat) (raw : Bytes) (peer expected : Value F)
  | closePhase (i : Nat) (request : Request) (fence : Value F)
  | opens (version : Nat)
  | share (i version : Nat)
  | crash (keep : String → Nat) (torn : String → Bool)

def Cell.crash (cell : Cell F) (keep : Nat) (torn : Bool) : Cell F where
  records := cell.records.take (max cell.synced keep)
  torn := torn && (cell.torn || cell.synced < cell.records.length)
  synced := (cell.records.take (max cell.synced keep)).length

def Core.crash (c : Core F) (keep : String → Nat) (torn : String → Bool) : Core F :=
  let cells := fun id => Cell.crash (c.cells id) (keep id) (torn id)
  { c with
    cells := cells
    intents := c.intents.filter fun id => !(cells id).records.isEmpty }

def World.share (w : World F) (i version : Nat) : World F :=
  match w.services[i]? with
  | some s => { w with services := w.services ++ [⟨s.journal, 0, version⟩] }
  | none => w

def World.crash (w : World F) (keep : String → Nat) (torn : String → Bool) : World F :=
  { w with poisoned := [], services := [], recorded := none, core := w.core.crash keep torn }

def step (env : Env F) (w : World F) : Label F → World F
  | .handle i raw peer expected => ((handle env i raw peer expected).from w).2
  | .closePhase i request fence => ((closePhase env i request fence).from w).2
  | .opens version => ((openService env version).from w).2
  | .share i version => w.share i version
  | .crash keep torn => w.crash keep torn

/-- A journal that was provisioned. -/
def provisioned : World F where
  questions := 0
  poisoned := []
  services := []
  recorded := none
  core := ⟨fun _ => ⟨[], false, 0⟩, [], []⟩

end LocalHand.QuotaService
