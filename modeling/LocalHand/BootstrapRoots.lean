/-
One-use admission of the precreated root slots (`bootstrap_roots.py`). A slot
is three directories; a reservation takes the leases of their paths and inodes
under an owner of its own, and no release of an operation names that owner.

A dictionary with the three root names is a `Roots`; where several of its
entries fail a check, the first in the order work, evidence, temporary is
reported.
-/
import LocalHand.Resources
import Mathlib.Data.List.AList

namespace LocalHand.BootstrapRoots

/-- A value for each of `ROOT_NAMES`. -/
@[ext]
structure Roots (α : Type) where
  work : α
  evidence : α
  temporary : α
  deriving Repr, DecidableEq

namespace Roots

variable {α β : Type}

def values (r : Roots α) : List α := [r.work, r.evidence, r.temporary]

def map (f : α → β) (r : Roots α) : Roots β := ⟨f r.work, f r.evidence, f r.temporary⟩

def zip (r : Roots α) (r' : Roots β) : Roots (α × β) :=
  ⟨(r.work, r'.work), (r.evidence, r'.evidence), (r.temporary, r'.temporary)⟩

@[simp] theorem values_map (f : α → β) (r : Roots α) : (r.map f).values = r.values.map f := rfl

end Roots

/-- The members `_IDENTITY_KEYS`. -/
structure Identity where
  device : Int
  inode : Int
  uid : Int
  deriving Repr, DecidableEq

structure Root extends Identity where
  path : String
  deriving Repr, DecidableEq

structure Slot where
  slotId : String
  roots : Roots Root
  deriving Repr, DecidableEq

abbrev Paths := AList fun _ : String => Identity

/-- A grant without its digest. -/
structure Body where
  version : Int
  ns : Namespace
  recordId : String
  operationId : String
  executionId : String
  phase : Phase
  slotId : String
  allocationId : String
  roots : Roots String
  paths : Paths
  retainedPaths : List String
  fresh : Bool
  sourceRoots : Roots String
  deriving DecidableEq

structure Grant extends Body where
  grantDigest : String
  deriving DecidableEq

abbrev Grants := AList fun _ : Phase => Grant

/-- `sha256` over the canonical JSON of an allocation and of a grant's body, and
whether `strict_loads`, which bounds what it reads, takes an event's text back. -/
structure Site where
  allocation : Namespace → String → String → Roots String → Roots (Option Identity) → String
  digest : Body → String
  readable : Grants → Bool

def invalid (message : String) : Fault := .job "IO_UNCERTAIN" message

def unresolved : Fault := invalid "Bootstrap root admission is unresolved"

/-! ## Paths -/

/-- `str.isspace` of one character. -/
def isSpace (c : Char) : Bool :=
  let n := c.toNat
  (9 ≤ n && n ≤ 13) || (28 ≤ n && n ≤ 32) || n = 0x85 || n = 0xA0 || n = 0x1680
    || (0x2000 ≤ n && n ≤ 0x200A) || n = 0x2028 || n = 0x2029 || n = 0x202F || n = 0x205F || n = 0x3000

/-- Absolute, in `PurePosixPath` normal form, without `..`, and of admitted
characters only. -/
def isCanonical (path : String) : Bool :=
  match path.toList with
  | '/' :: rest =>
    (rest.splitOn '/').all (fun part => part ≠ [] && part ≠ ['.'] && part ≠ ['.', '.'])
      && rest.all fun c => !isSpace c && 32 ≤ c.toNat && c ≠ '\\' && c ≠ '%' && c ≠ '$'
  | _ => false

/-- `_path` -/
def canonicalPath (path : String) : Except Fault Unit :=
  require (isCanonical path) (invalid "Bootstrap root path is not canonical")

/-- `left.startswith(right + "/")` -/
def isBelow (left right : String) : Bool := (right.toList ++ ['/']).isPrefixOf left.toList

/-- `_overlap` -/
def overlap (left right : String) : Bool := left = right || isBelow left right || isBelow right left

/-- The parts of `path` before each of its slashes. -/
def beforeSlashes (before : List Char) : List Char → List (List Char)
  | [] => []
  | c :: rest =>
    if c = '/' then before :: beforeSlashes (before ++ [c]) rest else beforeSlashes (before ++ [c]) rest

/-- `PurePosixPath(path).parents` as texts, from the root down. -/
def parents (path : String) : List String :=
  (beforeSlashes [] path.toList).map fun before => if before = [] then "/" else String.ofList before

/-! ## Pools -/

/-- `validate_root` -/
def validateRoot (root : Root) (expectedUid : Option Int) : Except Fault Unit := do
  canonicalPath root.path
  require (0 ≤ root.device && root.device ≤ maxSafeInteger && (1 ≤ root.inode && root.inode ≤ maxSafeInteger)
    && (0 ≤ root.uid && root.uid ≤ maxSafeInteger)) (invalid "Bootstrap root identity is malformed")
  require (expectedUid = none || expectedUid = some root.uid)
    (invalid "Bootstrap root belongs to another admitted account")

/-- `REF_PATTERN` -/
def refText (text : String) : Bool :=
  match text.toList with
  | c :: rest =>
    let word := fun c : Char => c.isDigit || ('a' ≤ c && c ≤ 'z')
    word c && rest.length ≤ 127 && rest.all fun c => word c || c = '.' || c = '_' || c = '-'
  | [] => false

/-- What `validate_slots` has seen so far. -/
structure Seen where
  ids : List String
  inodes : List (Int × Int)
  paths : List String

/-- One root of a slot, with the parent it must lie below. -/
def validateSlotRoot (expectedUid : Option Int) (denied : List String) (seen : Seen)
    (root : Root) (parent : Option String) : Except Fault Seen := do
  validateRoot root expectedUid
  require (parent.all (isBelow root.path))
    (invalid "Bootstrap slot would grant its profile parent or escape it")
  require (!seen.inodes.contains (root.device, root.inode) && !seen.paths.any (overlap root.path)
      && !denied.any (overlap root.path))
    (invalid "Bootstrap slots alias, overlap, or enter a forbidden root")
  return { seen with inodes := (root.device, root.inode) :: seen.inodes, paths := root.path :: seen.paths }

def validateSlot (parentRoots : Option (Roots String)) (expectedUid : Option Int) (denied : List String)
    (seen : Seen) (slot : Slot) : Except Fault Seen := do
  require (refText slot.slotId && !seen.ids.contains slot.slotId)
    (invalid "Bootstrap slot identity is ambiguous")
  let seen := { seen with ids := slot.slotId :: seen.ids }
  let seen ← validateSlotRoot expectedUid denied seen slot.roots.work (parentRoots.map (·.work))
  let seen ← validateSlotRoot expectedUid denied seen slot.roots.evidence (parentRoots.map (·.evidence))
  validateSlotRoot expectedUid denied seen slot.roots.temporary (parentRoots.map (·.temporary))

/-- `validate_slots` -/
def validateSlots (slots : List Slot) (parentRoots : Option (Roots String)) (expectedUid : Option Int)
    (forbidden : List String) : Except Fault Unit := do
  require (1 ≤ slots.length && slots.length ≤ 1024)
    (invalid "A finite precreated bootstrap slot pool is required")
  ((parentRoots.map Roots.values).getD []).forM canonicalPath
  forbidden.forM canonicalPath
  let _ ← slots.foldlM (validateSlot parentRoots expectedUid forbidden) ⟨[], [], []⟩
  return ()

/-! ## Grants -/

/-- The fields a caller of `validate_grant` may name. -/
structure Expected where
  executionId : Option String
  phase : Option Phase
  operationId : Option String
  ns : Option Namespace
  recordId : Option String

def Expected.admits (e : Expected) (grant : Grant) : Bool :=
  e.executionId.all (grant.executionId = ·) && e.phase.all (grant.phase = ·)
    && e.operationId.all (grant.operationId = ·) && e.ns.all (grant.ns = ·)
    && e.recordId.all (grant.recordId = ·)

/-- Each path is canonical and apart from the later ones. -/
def validatePaths : List String → Except Fault Unit
  | [] => .ok ()
  | path :: rest => do
    canonicalPath path
    require (!rest.any (overlap path)) unresolved
    validatePaths rest

/-- The entries of `paths`: each identity is well formed, and no later entry
has its inode or lies in its path's way. -/
def validateEntries (inodes : List (Int × Int)) : List (Sigma fun _ : String => Identity) → Except Fault Unit
  | [] => .ok ()
  | ⟨path, identity⟩ :: rest => do
    validateRoot ⟨identity, path⟩ none
    require (!inodes.contains (identity.device, identity.inode) && !(rest.map (·.1)).any (overlap path))
      unresolved
    validateEntries ((identity.device, identity.inode) :: inodes) rest

/-- `_allocation_id` -/
def allocationId (site : Site) (ns : Namespace) (recordId slotId : String) (roots : Roots String)
    (paths : Paths) : String :=
  site.allocation ns recordId slotId roots (roots.map paths.lookup)

/-- `validate_grant` -/
def validateGrant (site : Site) (grant : Grant) (expected : Expected) : Except Fault Unit := do
  require (grant.version = 1 && grant.ns.phases.contains grant.phase) unresolved
  require ([grant.recordId, grant.operationId, grant.executionId, grant.slotId].all fun text =>
    1 ≤ text.length && text.length ≤ 256) unresolved
  require (refText grant.slotId && grant.executionId = (ExecId.mk grant.ns grant.recordId grant.phase).text
    && (grant.ns = .reconcile || grant.recordId = grant.operationId)
    && grant.fresh = decide (grant.phase ≠ .business)) unresolved
  require (expected.admits grant) (invalid "Bootstrap roots belong to another execution")
  validatePaths grant.roots.values
  validatePaths grant.sourceRoots.values
  require (grant.retainedPaths.length ≤ 1
    && grant.paths.keys.all (fun path => grant.roots.values.contains path || grant.retainedPaths.contains path)
    && (grant.roots.values ++ grant.retainedPaths).all (fun path => grant.paths.keys.contains path)
    && grant.retainedPaths.all (fun path => !grant.roots.values.contains path)
    && (grant.retainedPaths.isEmpty || grant.phase = .evidence)) unresolved
  validateEntries [] grant.paths.entries
  require (grant.allocationId = allocationId site grant.ns grant.recordId grant.slotId grant.roots grant.paths
      && grant.grantDigest = site.digest grant.toBody)
    (invalid "Bootstrap root grant digest or slot binding differs")

/-! ## Leases -/

def pathKey (path : String) : String := "bootstrap-path:" ++ path

def inodeKey (identity : Identity) : String :=
  "bootstrap-inode:" ++ toString identity.device ++ ":" ++ toString identity.inode

/-- `_lease_resources`; a validated grant has an identity for each of its roots. -/
def leaseResources (grant : Grant) : List String :=
  grant.roots.values.flatMap fun path =>
    match grant.paths.lookup path with
    | some identity => [pathKey path, inodeKey identity]
    | none => []

/-- `_owner` -/
def owner (grant : Grant) : String := "bootstrap:" ++ grant.allocationId

/-- One turn of `_available`. The last query is `resource>=? AND resource<?`
over the binary collation, which orders texts as `String` does. -/
def availableRoot (leases : Leases) (root : Root) : Bool :=
  let key := pathKey root.path
  (key :: (parents root.path).map pathKey ++ [inodeKey root.toIdentity]).all
      (fun resource => (leases.holder resource).isNone)
    && !leases.any fun lease => !(decide (lease.resource < key ++ "/")) && lease.resource < key ++ "0"

/-- `_available` -/
def available (leases : Leases) (roots : Roots Root) : Bool := roots.values.all (availableRoot leases)

/-- `assert_reserved` -/
def assertReserved (site : Site) (leases : Leases) (grant : Grant) : Except Fault Unit := do
  validateGrant site grant ⟨none, none, none, none, none⟩
  require ((leaseResources grant).all fun resource => (leases.holder resource).map Prod.fst = some (owner grant))
    (invalid "Bootstrap root consumption is missing or belongs to another operation")

/-! ## Reservation -/

/-- What a call passes of its own reading of the row. -/
structure Row where
  ns : Namespace
  id : String
  parent : String
  digest : String
  sourceRoots : Roots String

/-- A stored row: its `bootstrap_grants`, and the last `BOOTSTRAP_ROOTS_RESERVED` event. -/
structure Record where
  parent : String
  digest : String
  grants : Grants
  event : Option Grants
  deriving DecidableEq

structure St where
  leases : Leases
  records : AList fun _ : Namespace × String => Record

/-- The consumption event tells the same grants as the record. -/
def checkEvent (site : Site) (record : Record) : Except Fault Unit :=
  match record.event with
  | none => require (record.grants.entries = [])
      (invalid "Bootstrap allocation has no durable consumption event")
  | some historical => do
    require (site.readable historical) (invalid "Bootstrap consumption event is malformed")
    require (historical = record.grants)
      (invalid "Bootstrap consumption record differs from its immutable event")

/-- `grants`: what the row has consumed so far. -/
def consumed (site : Site) (s : St) (row : Row) : Except Fault Grants :=
  match s.records.lookup (row.ns, row.id) with
  | none => .error unresolved
  | some record => do
    require (record.parent = row.parent && record.digest = row.digest) unresolved
    require (record.grants.keys.all row.ns.phases.contains) unresolved
    checkEvent site record
    record.grants.entries.forM fun entry => validateGrant site entry.2
      ⟨none, some entry.1, some row.parent, some row.ns, some row.id⟩
    return record.grants

/-- `inherited` -/
def inherited (grants : Grants) (phase : Phase) : Option Grant :=
  (grants.lookup phase).or (if phase = .business then grants.lookup .preflight else none)

/-- The slot an inherited grant was cut from, not rebound since. -/
def inheritSlot (site : Site) (s : St) (row : Row) (slots : List Slot) (grant : Grant) : Except Fault Slot := do
  validateGrant site grant ⟨none, none, some row.parent, some row.ns, some row.id⟩
  assertReserved site s.leases grant
  match slots.find? (·.slotId = grant.slotId) with
  | none => .error (invalid "Consumed bootstrap slot is no longer admitted")
  | some slot => do
    require ((grant.roots.zip slot.roots).values.all fun (path, root) =>
        path = root.path && grant.paths.lookup root.path = some root.toIdentity)
      (invalid "Consumed bootstrap slot was rebound")
    return slot

/-- `selected` -/
def select (site : Site) (s : St) (row : Row) (phase : Phase) (slots : List Slot) (grants : Grants) :
    Except Fault Slot :=
  match inherited grants phase with
  | some grant => inheritSlot site s row slots grant
  | none =>
    if phase = .business then .error (invalid "Business execution has no consumed preflight roots")
    else match slots.find? (available s.leases ·.roots) with
      | none => .error (.job "LIMIT_EXCEEDED" "No unused precreated bootstrap root slot remains")
      | some slot => .ok slot

/-- `paths`, the retained evidence store not yet among them. -/
def slotPaths (slot : Slot) : Paths :=
  slot.roots.values.foldl (fun paths root => paths.insert root.path root.toIdentity) ∅

/-- The `paths` and `retained_paths` of a new grant. -/
def grantPaths (slot : Slot) : Option Root → Except Fault (Paths × List String)
  | none => .ok (slotPaths slot, [])
  | some root => do
    require (!(slotPaths slot).keys.contains root.path) unresolved
    return ((slotPaths slot).insert root.path root.toIdentity, [root.path])

/-- The new grant of a phase, before it is validated. -/
def buildGrant (site : Site) (row : Row) (phase : Phase) (slot : Slot) (paths : Paths)
    (retained : List String) : Grant :=
  let roots := slot.roots.map (·.path)
  let body : Body :=
    { version := 1, ns := row.ns, recordId := row.id, operationId := row.parent
      executionId := (ExecId.mk row.ns row.id phase).text, phase, slotId := slot.slotId
      allocationId := allocationId site row.ns row.id slot.slotId roots paths
      roots, paths, retainedPaths := retained, fresh := decide (phase ≠ .business)
      sourceRoots := row.sourceRoots }
  { toBody := body, grantDigest := site.digest body }

/-- The part of `reserve` before it writes: the row's grants and the new one. -/
def plan (site : Site) (s : St) (row : Row) (phase : Phase) (slots : List Slot) (extra : Option Root) :
    Except Fault (Grants × Grant) := do
  validateSlots slots none none []
  require (row.ns.phases.contains phase) unresolved
  require (extra.isNone || phase = .evidence)
    (invalid "Only an admitted evidence store may be an extra bootstrap writer")
  extra.toList.forM (validateRoot · none)
  let grants ← consumed site s row
  let slot ← select site s row phase slots grants
  let paths ← grantPaths slot extra
  let grant := buildGrant site row phase slot paths.1 paths.2
  validateGrant site grant ⟨none, none, none, none, none⟩
  return (grants, grant)

/-- The insertions of `reserve`: the table they leave, and the error that stopped them. -/
def consume (owner : String) : Leases → List String → Leases × Option Fault
  | leases, [] => (leases, none)
  | leases, resource :: rest =>
    match leases.insertNew ⟨resource, owner, 1⟩ with
    | .error fault => (leases, some fault)
    | .ok leases => consume owner leases rest

/-- `state.update` with the event `BOOTSTRAP_ROOTS_RESERVED` -/
def recordGrants (s : St) (row : Row) (grants : Grants) : St :=
  match s.records.lookup (row.ns, row.id) with
  | none => s
  | some record =>
    { s with records := s.records.insert (row.ns, row.id) { record with grants, event := some grants } }

/-- `reserve`, with the state it leaves whether or not it raises. -/
def reserve (site : Site) (s : St) (row : Row) (phase : Phase) (slots : List Slot) (extra : Option Root) :
    Except Fault Grant × St :=
  match plan site s row phase slots extra with
  | .error fault => (.error fault, s)
  | .ok (grants, grant) =>
    match grants.lookup phase with
    | some prior =>
      if grant ≠ prior then (.error (invalid "Bootstrap phase cannot be rebound"), s) else (.ok grant, s)
    | none =>
      match inherited grants phase with
      | some _ => (.ok grant, recordGrants s row (grants.insert phase grant))
      | none =>
        match consume (owner grant) s.leases (leaseResources grant) with
        | (leases, some fault) => (.error fault, { s with leases })
        | (leases, none) => (.ok grant, recordGrants { s with leases } row (grants.insert phase grant))

/-! ## Runs -/

/-- An operation's owner text, which its leases stand under. -/
def Owner := { id : String // uuidText id = true }

/-- A call on the ledger: a row is inserted, roots are reserved, or an operation
takes or gives back its own leases. -/
inductive Call where
  | insertRow (ns : Namespace) (id parent digest : String)
  | reserve (row : Row) (phase : Phase) (slots : List Slot) (extra : Option Root)
  | acquire (aliases : List (String × String)) (owner : Owner) (epoch : Int) (resources : List String)
  | release (owner : Owner) (futureStartBlocked treeExited effectsChecked : Bool)

/-- A successful reservation: the row and the phase it was asked for, and its grant. -/
structure Reserved where
  ns : Namespace
  id : String
  phase : Phase
  grant : Grant

/-- A ledger in a run, with the reservations that have succeeded. -/
structure History where
  state : St
  reserved : List Reserved

def History.start : History := ⟨⟨[], ∅⟩, []⟩

/-- The row of `StateStore.insert`: its key is the primary key. -/
def insertRow (s : St) (ns : Namespace) (id parent digest : String) : St :=
  if (s.records.lookup (ns, id)).isSome then s
  else { s with records := s.records.insert (ns, id) ⟨parent, digest, ∅, none⟩ }

def call (site : Site) (h : History) : Call → History
  | .insertRow ns id parent digest => { h with state := insertRow h.state ns id parent digest }
  | .reserve row phase slots extra =>
    match reserve site h.state row phase slots extra with
    | (.ok grant, s) => ⟨s, h.reserved ++ [⟨row.ns, row.id, phase, grant⟩]⟩
    | (.error _, s) => { h with state := s }
  | .acquire aliases owner epoch resources =>
    match acquire aliases h.state.leases owner.1 epoch resources with
    | .ok leases => { h with state := { h.state with leases } }
    | .error _ => h
  | .release owner blocked exited checked =>
    match release h.state.leases owner.1 blocked exited checked with
    | .ok leases => { h with state := { h.state with leases } }
    | .error _ => h

end LocalHand.BootstrapRoots
