/-
The protected declarations of the quota observer (`quota_grant.py`), as its journal and
its service read them, and the permanent accounting of their management.
-/
import LocalHand.QuotaContract

namespace LocalHand.QuotaGrant

open QuotaContract

/-- `quota_contract.Request`; equal where the canonical text is. -/
structure Request where
  requestId : String
  authorityDigest : String
  installationDigest : String
  manifestDigest : String
  epoch : String
  generation : String
  bootId : String
  slotRef : String
  executionId : String
  phase : String
  allocationDigest : String
  observationGrantDigest : String
  deadlineNs : Int
  deriving DecidableEq

structure Allocation where
  allocationId : String
  operationId : String
  namespc : String
  recordId : String
  deriving DecidableEq

/-- What a phase keeps of the original budget. -/
structure Budget where
  bootId : String
  budgetDigest : String
  startedBoottimeNs : Int
  deadlineBoottimeNs : Int
  limits : List (String × Int)
  deriving DecidableEq

structure Root where
  role : String
  device : Int
  inode : Int
  uid : Int
  gid : Int
  mode : Int
  filesystem : String
  filesystemUuid : String
  projectId : Int
  xflags : Int
  hardBytes : Int
  deriving DecidableEq

structure Stage where
  cpuNs : Nat
  memoryBytes : Nat
  pids : Nat
  outputBytes : Nat
  runtimeNs : Nat
  deriving DecidableEq

structure Management where
  id : String
  capacityDigest : String
  issuedNs : Int
  receiveNs : Int
  stopNs : Int
  storageBytes : Nat
  storageInodes : Nat
  admission : Stage
  query : Stage
  collector : Stage
  deriving DecidableEq

structure Grant where
  request : Request
  allocation : Allocation
  budget : Budget
  roots : List Root
  management : Management
  predecessors : List String
  deriving DecidableEq

def Grant.id (g : Grant) : String := g.request.requestId

/-- What a grant is charged for. -/
inductive Charge where
  | storageBytes | storageInodes | cpuNs | memoryBytes | pids | outputBytes
  deriving DecidableEq, Repr

def charges : List Charge := [.storageBytes, .storageInodes, .cpuNs, .memoryBytes, .pids, .outputBytes]

theorem mem_charges (k : Charge) : k ∈ charges := by cases k <;> decide

/-- `totals` -/
def totals (g : Grant) : Charge → Nat
  | .storageBytes => g.management.storageBytes
  | .storageInodes => g.management.storageInodes
  | .cpuNs => g.management.admission.cpuNs + g.management.query.cpuNs + g.management.collector.cpuNs
  | .memoryBytes => g.management.admission.memoryBytes + g.management.query.memoryBytes + g.management.collector.memoryBytes
  | .pids => g.management.admission.pids + g.management.query.pids + g.management.collector.pids
  | .outputBytes => g.management.admission.outputBytes + g.management.query.outputBytes + g.management.collector.outputBytes

structure Domain where
  filesystemUuid : String
  projectId : Int
  hardBytes : Int

structure Capacity where
  digest : String
  bootId : String
  epoch : String
  authorityDigest : String
  domains : List Domain
  management : Charge → Nat

/-- `domains.get` -/
def Capacity.hardBytes (c : Capacity) (root : Root) : Option Int :=
  (c.domains.find? fun d => d.filesystemUuid = root.filesystemUuid ∧ d.projectId = root.projectId).map Domain.hardBytes

def maxGrants : Nat := 32

/-- The loop of `check_capacity`, with the ids and the sums so far. -/
def chargeEach (c : Capacity) : List Grant → List String → (Charge → Nat) → Except Fault Unit
  | [], _, _ => .ok ()
  | g :: rest, ids, used => do
    require (g.request.bootId = c.bootId && g.request.epoch = c.epoch && g.request.authorityDigest = c.authorityDigest
      && g.management.capacityDigest = c.digest) (quotaError "CAPACITY_BINDING")
    require (!ids.contains g.management.id) (quotaError "MANAGEMENT_REUSE")
    g.roots.forM fun root => require (c.hardBytes root = some root.hardBytes) (quotaError "DOMAIN_BUDGET")
    require (charges.all fun k => (totals g k : Int) ≤ maxInteger) (quotaError "INTEGER")
    charges.forM fun k => require (used k + totals g k ≤ c.management k) (quotaError "MANAGEMENT_EXHAUSTED")
    chargeEach c rest (g.management.id :: ids) fun k => used k + totals g k

/-- `check_capacity` -/
def checkCapacity (c : Capacity) (grants : List Grant) : Except Fault Unit := do
  require (grants.length ≤ maxGrants) (quotaError "GRANT_COUNT")
  chargeEach c grants [] fun _ => 0

theorem chargeEach_ok {c : Capacity} {grants : List Grant} {ids : List String} {used : Charge → Nat} {k : Charge}
    (h : chargeEach c grants ids used = .ok ()) (hused : used k ≤ c.management k) :
    used k + (grants.map (totals · k)).sum ≤ c.management k := by
  induction grants generalizing ids used with
  | nil => simpa using hused
  | cons g rest ih =>
    simp only [chargeEach, bind_ok, require_ok, exists_unit, forM_ok] at h
    obtain ⟨-, -, -, -, hsums, hrest⟩ := h
    have hnext := ih hrest (by simpa using hsums k (mem_charges k))
    rw [List.map_cons, List.sum_cons]
    omega

/-- Grants that pass the check are within the capacity together. -/
theorem checkCapacity_ok {c : Capacity} {grants : List Grant} (h : checkCapacity c grants = .ok ()) (k : Charge) :
    (grants.map (totals · k)).sum ≤ c.management k := by
  simp only [checkCapacity, bind_ok, require_ok, exists_unit] at h
  obtain ⟨-, h⟩ := h
  have hsum := chargeEach_ok (k := k) h (Nat.zero_le _)
  omega

end LocalHand.QuotaGrant
