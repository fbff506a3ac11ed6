/-
The actions themselves (`files.py`): `prepare_file`, `observe_file`, `execute_file`
and `prepare_restore`, over what a plan recorded.
-/
import LocalHand.Deploy.Files
import Mathlib.Data.List.Sort

namespace LocalHand.Files

open Directory Program
open Framing (Bytes)

inductive Kind where
  | noop | replace | delete
  deriving Repr, DecidableEq

/-- A prepared action. -/
structure Action where
  kind : Kind
  target : Path
  parent : Place
  expected : Snapshot
  desired : Snapshot
  original : Snapshot
  backup : Option (Path × Shot)
  staged : Option (Path × Shot)
  operationId : String
  attemptId : String
  lockBinding : Nat
  ownerUid : Nat
  limits : Limits
  stageDir : String
  «namespace» : String
  preparationBudgetBytes : Nat
  preparationReservations : List (String × Nat)
  retainedStateDirs : List String
  retainedNamespaces : List String
  retainedObjects : List (Path × Shot)
  deriving DecidableEq

section

variable (host : Host)

/-- `_lock_binding` -/
def World.lockBinding (w : World) : Except Fault Nat :=
  match w.lock with
  | none => .error (fileError "LOCK_REQUIRED" "Descriptor does not hold an exclusive flock")
  | some binding => .ok binding

/-- `_ID` -/
def isId (text : String) : Bool :=
  let isWord (c : Char) := c.isAlphanum && c.toNat < 128
  match text.toList with
  | [] => false
  | c :: cs => isWord c && cs.length ≤ 127 && cs.all fun c => isWord c || c = '_' || c = '.' || c = '-'

/-- `_namespace` -/
def namespaceOf (operationId attemptId : String) (target : Path) : Except Fault String := do
  require (isId operationId && isId attemptId) (fileError "INVALID_SPEC" "Invalid operation or attempt identifier")
  return ".lh-deploy-" ++ host.namespaceDigest operationId target ++ "-"

/-- `entry.name.startswith(prefixes)` -/
def startsWith (prefixes : List String) (name : String) : Bool := prefixes.any fun p => p.toList.isPrefixOf name.toList

def enumerationLimit : Fault := fileError "LIMIT_EXCEEDED" "Directory enumeration budget exceeded"

/-- The objects of a directory that `_usage` counts: all, or those of the namespaces. -/
def counted (prefixes : Option (List String)) (entries : List (String × Node)) : List Node :=
  (entries.filter fun e => (prefixes.map (startsWith · e.1)).getD true).map (·.2)

def Node.size : Node → Nat
  | .file object => object.data.length
  | .other => 0

/-- `_usage` -/
def usage (nodes : Dir Node) (prefixes : Option (List String)) (limits : Limits) : Except Fault (Nat × Nat) := do
  require (nodes.entries.length ≤ limits.maxDirectoryEntries) enumerationLimit
  let objects := counted prefixes nodes.entries
  require (objects.all fun | .file _ => true | .other => false) (fileError "CONFLICT" "Unexpected preparation object")
  return (objects.length, (objects.map Node.size).sum)

/-- The usage of several directories, each once. -/
def usages (limits : Limits) : List (Dir Node) → Except Fault (Nat × Nat)
  | [] => .ok (0, 0)
  | nodes :: rest => do
    let (count, total) ← usage nodes none limits
    let (counts, totals) ← usages limits rest
    return (count + counts, total + totals)

def retentionLimit : Fault := fileError "LIMIT_EXCEEDED" "Preparation retention budget exhausted"

/-- `_reserve_creation`; the state directories are distinct. -/
def reserveCreation (states : List (Dir Node)) (parent : Dir Node) (prefixes : List String) (size : Nat) (limits : Limits)
    (byteBudget : Nat) : Except Fault Unit := do
  let (states, stateBytes) ← usages limits states
  let (targets, targetBytes) ← usage parent (some prefixes) limits
  require (states + targets < limits.maxPreparationFiles && stateBytes + targetBytes + size ≤ byteBudget) retentionLimit

/-! ## Writing -/

/-- The bytes of a new file, one by one. -/
def writeBytes (path name : String) (object : Object) : Bytes → Call Unit
  | [] => pure ()
  | byte :: bytes => do
    let object := { object with data := object.data ++ [byte] }
    change path (·.put name (.file object))
    writeBytes path name object bytes

/-- `_write_new` -/
def writeNew (path name : String) (data : Bytes) (attributes : Attributes) (ownerUid : Nat) : Call Shot := do
  let w ← get
  if (w.nodes path).has name then throw (.raised .os)
  let fresh : Object := ⟨w.next, [], ⟨0o600, host.euid, host.egid⟩⟩
  tick
  modify fun w => { w.modify path (·.put name (.file fresh)) with next := w.next + 1 }
  writeBytes path name fresh data
  let owned : Attributes := ⟨0o600, attributes.uid, attributes.gid⟩
  change path (·.put name (.file { fresh with data := data, attributes := owned }))
  let object := { fresh with data := data, attributes := attributes }
  change path (·.put name (.file object))
  let (snapshot, _) ← ofExcept (readFd host object data.length ownerUid)
  return snapshot

/-! ## Preparation -/

/-- `_validate_action` -/
def validateAction (a : Action) : Except Fault Unit := do
  let most := a.limits.maxPreparationFiles
  require (a.preparationReservations ≠ [] && a.preparationReservations.length ≤ most &&
      (a.preparationReservations.map (·.2)).sum = a.preparationBudgetBytes)
    (fileError "INVALID_SPEC" "Preparation reservations do not match their exact byte budget")
  let expected ← namespaceOf host a.operationId a.attemptId a.target
  require (a.namespace = expected) (fileError "INVALID_SPEC" "Invalid preparation namespace")
  require (a.retainedStateDirs.length ≤ most && a.retainedNamespaces.length ≤ most &&
      a.retainedStateDirs.contains a.stageDir && a.retainedNamespaces.contains a.namespace)
    (fileError "INVALID_SPEC" "Invalid retained preparation scope")
  match a.kind, a.staged with
  | .replace, none => .error (.value "'NoneType' object is not subscriptable")
  | .replace, some (path, snapshot) =>
    require (path.parent = a.target.parent && a.namespace.toList.isPrefixOf path.name.toList && some snapshot = a.desired)
      (fileError "INVALID_SPEC" "Publication staging binding is invalid")
  | .delete, _ => require (a.desired = none) (fileError "INVALID_SPEC" "Deletion target must be absence")
  | .noop, _ => .ok ()

/-- The loop of `preparation_objects`. -/
def inventory (a : Action) (nodes : Dir Node) : Nat → Nat → List String → Except Fault (List (Path × Shot))
  | _, _, [] => .ok []
  | count, total, name :: names => do
    require (count < a.limits.maxPreparationFiles) (fileError "LIMIT_EXCEEDED" "Preparation inventory count exceeded its bound")
    let (snapshot, _) ← readRequired host nodes name (min a.limits.maxFileBytes (a.preparationBudgetBytes - total)) a.ownerUid
    let path : Path := ⟨a.target.parent, name⟩
    match a.retainedObjects.find? (·.1 = path) with
    | some known => matching snapshot known.2
    | none => .ok ()
    let rest ← inventory a nodes (count + 1) (total + snapshot.size) names
    return (path, snapshot) :: rest

/-- `preparation_objects` -/
def preparationObjects (w : World) (a : Action) : Except Fault (List (Path × Shot)) := do
  validateAction host a
  let parent ← w.directory a.target.parent a.ownerUid false
  matching parent.place a.parent
  require (parent.nodes.entries.length ≤ a.limits.maxDirectoryEntries)
    (fileError "LIMIT_EXCEEDED" "Preparation inventory enumeration exceeded its bound")
  let objects ← inventory host a parent.nodes 0 0 ((parent.nodes.entries.map (·.1)).filter (startsWith a.retainedNamespaces))
  return objects.insertionSort fun x y => x.1.name ≤ y.1.name

/-- `_retain_objects` -/
def retainObjects (a : Action) : Call Action := do
  let w ← get
  let objects ← ofExcept (preparationObjects host w a)
  return { a with retainedObjects := objects }

def notComplete : Fault := fileError "CONFLICT" "Existing backup is not complete and protected"

def backupName (target : Path) : String := "original-" ++ host.targetDigest target

/-- The file that moves from one name to another. -/
def renamed (from' name : String) (nodes : Dir Node) : Dir Node :=
  match nodes.get from' with
  | some node => (nodes.remove from').put name node
  | none => nodes

/-- The backup that is there, or a new one, under a name of its own first. -/
def makeBackup (entry : Entry) (staging «namespace» temporary : String) (old : Bytes) : Option (Shot × Bytes) → Call (Shot × Bytes)
  | some present => pure present
  | none => do
    let w ← get
    ofExcept (reserveCreation [w.nodes staging] (w.nodes entry.target.parent) [«namespace»] old.length entry.limits
      entry.preparationBudgetBytes)
    let incomplete := "incomplete-" ++ temporary
    let backup ← writeNew host staging incomplete old ⟨0o600, host.euid, host.egid⟩ entry.ownerUid
    change staging (renamed incomplete (backupName host entry.target))
    return (backup, old)

/-- The backup of `prepare_file`. -/
def backUp (entry : Entry) (staging «namespace» temporary : String) (old : Bytes) : Call (Path × Shot) := do
  let name := backupName host entry.target
  let w ← get
  let present ← ofExcept (readAt host (w.nodes staging) name entry.limits.maxFileBytes entry.ownerUid)
  let (backup, bytes) ← makeBackup host entry staging «namespace» temporary old present
  ofExcept (require (bytes = old && backup.attributes.mode = 0o600 && backup.attributes.uid = host.euid) notComplete)
  let w ← get
  let (snapshot, _) ← ofExcept (readRequired host (w.nodes staging) name entry.limits.maxFileBytes entry.ownerUid)
  ofExcept (matching snapshot backup)
  return (⟨staging, name⟩, backup)

/-- The candidate, as it is read again. -/
def readCandidate (w : World) (entry : Entry) : Except Fault (Option (Shot × Bytes)) :=
  match entry.source with
  | none => .ok none
  | some (path, snapshot) => do
    let (candidate, data) ← w.readPath host path entry.limits.maxFileBytes entry.ownerUid
    matching candidate snapshot
    return some (candidate, data)

/-- The action before anything is staged. -/
def entryAction (entry : Entry) (staging operationId attemptId «namespace» : String) (lock : Nat) : Action where
  kind := .noop
  target := entry.target
  parent := entry.parent
  expected := entry.original
  desired := entry.original
  original := entry.original
  backup := none
  staged := none
  operationId := operationId
  attemptId := attemptId
  lockBinding := lock
  ownerUid := entry.ownerUid
  limits := entry.limits
  stageDir := staging
  «namespace» := «namespace»
  preparationBudgetBytes := entry.preparationBudgetBytes
  preparationReservations := [(«namespace», entry.preparationBudgetBytes)]
  retainedStateDirs := [staging]
  retainedNamespaces := [«namespace»]
  retainedObjects := []

/-- The backup, where there is something to back up. -/
def backUpOriginal (entry : Entry) (staging «namespace» temporary : String) : Option (Shot × Bytes) → Call (Option (Path × Shot))
  | none => pure none
  | some (_, old) => do return some (← backUp host entry staging «namespace» temporary old)

/-- The new file of a candidate, and the action that publishes it. -/
def stage (entry : Entry) (action : Action) (unique : String) (data : Bytes) : Call Action := do
  let w ← get
  ofExcept (reserveCreation [w.nodes action.stageDir] (w.nodes entry.target.parent) [action.namespace] data.length entry.limits
    entry.preparationBudgetBytes)
  let name := action.namespace ++ unique
  let candidate ← writeNew host entry.target.parent name data entry.attributes entry.ownerUid
  return { action with kind := .replace, desired := some candidate, staged := some (⟨entry.target.parent, name⟩, candidate) }

/-- `prepare_file`; the unique names are of the backup and of the candidate. -/
def prepareFile (entry : Entry) (staging operationId attemptId temporary unique : String) : Call Action := do
  ofExcept (require (staging ≠ entry.target.parent)
    (fileError "INVALID_SPEC" "Step staging must be separate from the target directory"))
  let w ← get
  let lock ← ofExcept w.lockBinding
  let «namespace» ← ofExcept (namespaceOf host operationId attemptId entry.target)
  let candidate ← ofExcept (readCandidate host w entry)
  let parent ← ofExcept (w.directory entry.target.parent entry.ownerUid false)
  let _ ← ofExcept (w.directory staging entry.ownerUid true)
  ofExcept (matching parent.place entry.parent)
  let original ← ofExcept (readAt host parent.nodes entry.target.name entry.limits.maxFileBytes entry.ownerUid)
  ofExcept (matching (original.map (·.1)) entry.original)
  let action := entryAction entry staging operationId attemptId «namespace» lock
  if entry.original.map Shot.value = candidate.map fun c => (c.1.size, c.1.sha256, entry.attributes) then
    retainObjects host action
  else do
    let backup ← backUpOriginal host entry staging «namespace» temporary original
    let action := { action with backup := backup }
    match candidate with
    | none => retainObjects host { action with kind := .delete, desired := none }
    | some (_, data) => do
      let action ← stage host entry action unique data
      retainObjects host action

/-! ## Observation and publication -/

inductive State where
  | target | original | conflict
  deriving Repr, DecidableEq

structure Observation where
  state : State
  actual : Snapshot
  deriving Repr, DecidableEq

/-- The reading of `observe_file`. -/
def readTarget (w : World) (a : Action) : Except Fault Snapshot := do
  let parent ← w.directory a.target.parent a.ownerUid false
  matching parent.place a.parent
  let read ← readAt host parent.nodes a.target.name a.limits.maxFileBytes a.ownerUid
  return read.map (·.1)

/-- `observe_file` -/
def observeFile (w : World) (a : Action) : Except Fault Observation := do
  validateAction host a
  match readTarget host w a with
  | .ok actual => return ⟨if actual = a.desired then .target else if actual = a.expected then .original else .conflict, actual⟩
  | .error fault => if fault.code = some "CONFLICT" then return ⟨.conflict, none⟩ else .error fault

/-- The change of `execute_file`, where the target is as it was recorded. -/
def publish (a : Action) : Call Unit :=
  match a.kind, a.staged with
  | .replace, none => throw (.raised (.value "'NoneType' object is not subscriptable"))
  | .replace, some (staged, _) => do
    let w ← get
    let (snapshot, _) ← ofExcept (readRequired host (w.nodes a.target.parent) staged.name a.limits.maxFileBytes a.ownerUid)
    ofExcept (matching (some snapshot) a.desired)
    change a.target.parent (renamed staged.name a.target.name)
  | .delete, _ => change a.target.parent (·.remove a.target.name)
  | .noop, _ => throw (.raised (fileError "CONFLICT" "A no-change action no longer matches"))

/-- The publication, unless the desired object is already there. -/
def publishOnce (a : Action) (actual : Snapshot) : Call Bool :=
  if actual = a.desired then return false
  else do
    ofExcept (require (actual = a.expected) (fileError "CONFLICT" "Target changed independently; refusing publication"))
    publish host a
    return true

/-- The desired object is read again. -/
def confirmTarget (w : World) (a : Action) : Except Fault Unit :=
  match a.desired with
  | none => .ok ()
  | some desired => do
    let (snapshot, _) ← readRequired host (w.nodes a.target.parent) a.target.name a.limits.maxFileBytes a.ownerUid
    matching snapshot desired

/-- `execute_file`: what is observed at last, and whether the target changed. -/
def executeFile (a : Action) : Call (Observation × Bool) := do
  ofExcept (validateAction host a)
  let w ← get
  let lock ← ofExcept w.lockBinding
  ofExcept (matching lock a.lockBinding)
  let actual ← ofExcept (readTarget host w a)
  let changed ← publishOnce host a actual
  let w ← get
  ofExcept (confirmTarget host w a)
  let observed ← ofExcept (observeFile host w a)
  ofExcept (require (observed.state = .target) (fileError "CONFLICT" "Publication postcondition is not established"))
  return (observed, changed)

/-! ## Restoration -/

/-- The action of a restoration before anything is staged. -/
def restoreAction (published baseline : Action) (actual : Snapshot) (staging operationId attemptId «namespace» : String)
    (lock : Nat) : Action :=
  { published with
    expected := actual
    desired := actual
    kind := .noop
    operationId := operationId
    attemptId := attemptId
    «namespace» := «namespace»
    staged := none
    stageDir := staging
    lockBinding := lock
    original := baseline.original
    backup := baseline.backup
    retainedStateDirs := (published.retainedStateDirs ++ [staging]).eraseDups
    retainedNamespaces := (published.retainedNamespaces ++ [«namespace»]).eraseDups }

/-- The directories of the retained state, each of which must be there. -/
def stateFolders (w : World) (ownerUid : Nat) : List String → Except Fault (List (Dir Node))
  | [] => .ok []
  | path :: paths => do
    let folder ← w.directory path ownerUid true
    let rest ← stateFolders w ownerUid paths
    return folder.nodes :: rest

/-- The copy of the backup, and the action that publishes it. -/
def restage (published action : Action) (original : Shot) (unique : String) (data : Bytes) : Call Action := do
  let w ← get
  let parent ← ofExcept (w.directory action.target.parent action.ownerUid false)
  let states ← ofExcept (stateFolders w action.ownerUid action.retainedStateDirs)
  ofExcept (matching parent.place published.parent)
  let current ← ofExcept (readAt host parent.nodes action.target.name action.limits.maxFileBytes action.ownerUid)
  ofExcept (matching (current.map (·.1)) action.expected)
  ofExcept (reserveCreation states parent.nodes action.retainedNamespaces data.length action.limits published.preparationBudgetBytes)
  let name := action.namespace ++ unique
  let restored ← writeNew host action.target.parent name data original.attributes action.ownerUid
  return { action with kind := .replace, desired := some restored, staged := some (⟨action.target.parent, name⟩, restored) }

/-- The backup of the baseline, read and checked. -/
def readBackup (w : World) (published baseline : Action) (original : Shot) : Except Fault Bytes :=
  match baseline.backup with
  | none => .error (.value "'NoneType' object is not subscriptable")
  | some (path, recorded) => do
    require (path.parent = baseline.stageDir) (fileError "INVALID_SPEC" "Backup is outside the protected step directory")
    let folder ← w.directory path.parent published.ownerUid true
    let (snapshot, data) ← readRequired host folder.nodes path.name published.limits.maxFileBytes published.ownerUid
    matching snapshot recorded
    require (snapshot.size = original.size && snapshot.sha256 = original.sha256)
      (fileError "CONFLICT" "Backup does not match the original file")
    return data

/-- `prepare_restore` -/
def prepareRestore (published baseline : Action) (staging operationId attemptId unique : String) : Call Action := do
  ofExcept (validateAction host published)
  ofExcept (validateAction host baseline)
  ofExcept (require (published.target = baseline.target && published.parent = baseline.parent &&
      published.ownerUid = baseline.ownerUid && published.limits = baseline.limits && published.lockBinding = baseline.lockBinding)
    (fileError "CONFLICT" "An object no longer matches its recorded identity and value"))
  let w ← get
  let lock ← ofExcept w.lockBinding
  ofExcept (matching lock published.lockBinding)
  let observed ← ofExcept (observeFile host w published)
  ofExcept (require (observed.state ≠ .conflict)
    (fileError "CONFLICT" "Published file changed independently; cannot restore"))
  let «namespace» ← ofExcept (namespaceOf host operationId attemptId published.target)
  let action := restoreAction published baseline observed.actual staging operationId attemptId «namespace» lock
  ofExcept (validateAction host action)
  if observed.actual.map Shot.value = baseline.original.map Shot.value then retainObjects host action
  else match baseline.original with
    | none => retainObjects host { action with kind := .delete, desired := none }
    | some original => do
      let data ← ofExcept (readBackup host w published baseline original)
      let action ← restage host published action original unique data
      retainObjects host action

end

end LocalHand.Files
