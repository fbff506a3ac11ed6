/-
The file actions of a deployment (`files.py`): a plan reserves bytes for every file,
`prepare_file` backs up and stages, `execute_file` publishes, and `prepare_restore`
stages the way back.

A world has the directories by their path and one identity for each of them. A call
takes its steps one by one and may be stopped before any of them, a write before any
of its bytes. Reading takes no step; nobody else writes while a call holds the lock.
-/
import LocalHand.Contract
import LocalHand.Lib.Directory
import LocalHand.Lib.Framing
import LocalHand.Lib.Program

namespace LocalHand.Files

open Directory Program
open Framing (Bytes)

/-! ## Directories and files -/

/-- `FileLimits` -/
structure Limits where
  maxFiles : Nat
  maxFileBytes : Nat
  maxTotalBytes : Nat
  maxPreparationFiles : Nat
  maxDirectoryEntries : Nat
  positive : 0 < maxFiles ∧ 0 < maxFileBytes ∧ 0 < maxTotalBytes ∧ 0 < maxPreparationFiles ∧ 0 < maxDirectoryEntries
  deriving DecidableEq

structure Attributes where
  mode : Nat
  uid : Nat
  gid : Nat
  deriving Repr, DecidableEq

/-- A regular file of one link; `binding` is its identity. -/
structure Object where
  binding : Nat
  data : Bytes
  attributes : Attributes
  deriving Repr, DecidableEq

/-- What a name stands for: a file, or a link, a directory or a file of several links. -/
inductive Node where
  | file (object : Object)
  | other
  deriving Repr, DecidableEq

/-- A directory as `_directory_snapshot` sees it. -/
structure Place where
  binding : Nat
  attributes : Attributes
  deriving Repr, DecidableEq

structure Folder where
  place : Place
  nodes : Dir Node

structure Path where
  parent : String
  name : String
  deriving Repr, DecidableEq

/-- What the snapshot of a file records. -/
structure Shot where
  binding : Nat
  size : Nat
  sha256 : String
  attributes : Attributes
  deriving Repr, DecidableEq

/-- A snapshot; `none` is `{"exists": False}`. -/
abbrev Snapshot := Option Shot

/-- `_value` -/
def Shot.value (s : Shot) : Nat × String × Attributes := (s.size, s.sha256, s.attributes)

/-- `path` is `_path`, of a path but the root; the digests are of an operation and a target, and of a target. -/
structure Host where
  path : String → Option Path
  sha256 : Bytes → String
  namespaceDigest : String → Path → String
  targetDigest : Path → String
  euid : Nat
  egid : Nat

/-- `lock` is the identity of the file whose lock is held, `next` that of the file that is made next, `left` the steps
that are left until the process is stopped. No directory has two paths. -/
structure World where
  folders : String → Option Folder
  lock : Option Nat
  next : Nat
  left : Nat
  apart : ∀ p q f g, folders p = some f → folders q = some g → f.place.binding = g.place.binding → p = q

inductive Halt where
  | raised (fault : Fault)
  | stopped
  deriving Repr, DecidableEq

abbrev Call (α : Type) := Prog World Halt α

/-- `FileError(code, message)` -/
def fileError (code message : String) : Fault := .job code message

def ofExcept {α : Type} : Except Fault α → Call α
  | .ok a => pure a
  | .error fault => throw (.raised fault)

/-- A world after a directory has changed. -/
def World.modify (w : World) (path : String) (f : Dir Node → Dir Node) : World :=
  { w with
    folders := fun p => (w.folders p).map fun folder => if p = path then { folder with nodes := f folder.nodes } else folder
    apart := by
      intro p q f g hf hg hsame
      obtain ⟨f', hf', rfl⟩ := Option.map_eq_some_iff.mp hf
      obtain ⟨g', hg', rfl⟩ := Option.map_eq_some_iff.mp hg
      refine w.apart p q f' g' hf' hg' ?_
      split at hsame <;> split at hsame <;> exact hsame }

def World.nodes (w : World) (path : String) : Dir Node := ((w.folders path).map (·.nodes)).getD Dir.empty

/-- A step of the process. -/
def tick : Call Unit := do
  let w ← get
  if w.left = 0 then throw .stopped
  set { w with left := w.left - 1 }

def change (path : String) (f : Dir Node → Dir Node) : Call Unit := do
  tick
  modify fun w => w.modify path f

/-! ## Reading -/

section

variable (host : Host)

/-- `_trusted_uid` -/
def trustedUid (uid ownerUid : Nat) : Except Fault Unit :=
  require (uid = 0 || uid = ownerUid) (fileError "CONFLICT" "An object is owned by an untrusted account")

/-- `_directory` -/
def World.directory (w : World) (path : String) (ownerUid : Nat) (isPrivate : Bool) : Except Fault Folder :=
  match w.folders path with
  | none => .error .os
  | some folder => do
    trustedUid folder.place.attributes.uid ownerUid
    require (folder.place.attributes.mode &&& (if isPrivate then 0o077 else 0o022) = 0)
      (fileError "CONFLICT" "The containing directory is not protected")
    return folder

/-- `_read_fd` -/
def readFd (object : Object) (maximum ownerUid : Nat) : Except Fault (Shot × Bytes) := do
  require (object.attributes.mode ≤ 0o777) (fileError "UNSUPPORTED" "Special file mode bits are outside the deployment profile")
  trustedUid object.attributes.uid ownerUid
  require (object.attributes.mode &&& 0o022 = 0) (fileError "CONFLICT" "A file allows writes outside its owner")
  require (object.data.length ≤ maximum) (fileError "LIMIT_EXCEEDED" "File exceeds its remaining byte budget")
  return (⟨object.binding, object.data.length, host.sha256 object.data, object.attributes⟩, object.data)

/-- `_read_at` with `missing` -/
def readAt (nodes : Dir Node) (name : String) (maximum ownerUid : Nat) : Except Fault (Option (Shot × Bytes)) :=
  match nodes.get name with
  | none => .ok none
  | some .other => .error (fileError "CONFLICT" "Links are not supported deployment files")
  | some (.file object) => (readFd host object maximum ownerUid).map some

/-- `_read_at` of a file that must be there. -/
def readRequired (nodes : Dir Node) (name : String) (maximum ownerUid : Nat) : Except Fault (Shot × Bytes) := do
  match ← readAt host nodes name maximum ownerUid with
  | none => .error (fileError "CONFLICT" "A required file is missing")
  | some read => .ok read

/-- `_read_path` -/
def World.readPath (w : World) (path : Path) (maximum ownerUid : Nat) : Except Fault (Shot × Bytes) := do
  let parent ← w.directory path.parent ownerUid false
  readRequired host parent.nodes path.name maximum ownerUid

/-- `_matching` -/
def matching {α : Type} [DecidableEq α] (actual expected : α) : Except Fault Unit :=
  require (actual = expected) (fileError "CONFLICT" "An object no longer matches its recorded identity and value")

/-! ## Plans -/

/-- `{target, source, mode?, uid?, gid?}` or `{target, remove: True}` -/
inductive FileSpec where
  | publish (target source : String) (mode uid gid : Option Int)
  | remove (target : String)
  deriving Repr, DecidableEq

def FileSpec.target : FileSpec → String
  | .publish target _ _ _ _ | .remove target => target

def FileSpec.source : FileSpec → Option String
  | .publish _ source _ _ _ => some source
  | .remove _ => none

/-- `spec.get("mode")`, `spec.get("uid")` and `spec.get("gid")` -/
def FileSpec.attributes : FileSpec → Option Int × Option Int × Option Int
  | .publish _ _ mode uid gid => (mode, uid, gid)
  | .remove _ => (none, none, none)

structure Entry where
  target : Path
  parent : Place
  original : Snapshot
  source : Option (Path × Shot)
  attributes : Attributes
  ownerUid : Nat
  limits : Limits
  preparationBudgetBytes : Nat
  deriving DecidableEq

def sizeOf (snapshot : Snapshot) : Nat := (snapshot.map (·.size)).getD 0

/-- The size of the candidate. -/
def Entry.candidateSize (e : Entry) : Nat := sizeOf (e.source.map (·.2))

/-- Backup, publication, and a recovery or a failed staging. -/
def reservation (original candidate : Nat) : Nat := original + 2 * max original candidate

def pathOf (text : String) : Except Fault Path :=
  match host.path text with
  | none => .error (fileError "INVALID_SPEC" "An absolute, non-root path without traversal is required")
  | some path => .ok path

/-- The attributes of a spec, or those of its candidate and its original. -/
def attributesOf (spec : FileSpec) (original candidate : Snapshot) (ownerUid : Nat) : Except Fault Attributes := do
  let (mode, uid, gid) := spec.attributes
  let mode := mode.getD ((candidate.map (·.attributes.mode)).getD 0o600 : Nat)
  let uid := uid.getD ((original.map (·.attributes.uid)).getD ownerUid : Nat)
  let gid := gid.getD ((original.map (·.attributes.gid)).getD host.egid : Nat)
  require (0 ≤ mode && 0 ≤ uid && 0 ≤ gid && mode ≤ 0o777 && mode.toNat &&& 0o022 = 0 && mode.toNat &&& 0o400 ≠ 0)
    (fileError "INVALID_SPEC" "Unsupported file attributes")
  trustedUid uid.toNat ownerUid
  return ⟨mode.toNat, uid.toNat, gid.toNat⟩

/-- What the loop of `plan_files` carries: the targets, their identities and the bytes that remain. -/
structure Planning where
  targets : List Path
  identities : List (Nat × String)
  remaining : Nat

def Planning.aliased (p : Planning) (identity : Nat × String) : Bool := p.identities.contains identity

/-- The source of a spec, as it is read for the plan. -/
def readSource (w : World) (maximum ownerUid : Nat) : Option Path → Except Fault (Option (Path × Shot))
  | none => .ok none
  | some path => (w.readPath host path maximum ownerUid).map fun read => some (path, read.1)

def pathOfSource : Option String → Except Fault (Option Path)
  | none => .ok none
  | some text => (pathOf host text).map some

/-- A turn of the loop. -/
def planOne (w : World) (limits : Limits) (ownerUid : Nat) (p : Planning) (spec : FileSpec) : Except Fault (Entry × Planning) := do
  let target ← pathOf host spec.target
  let source ← pathOfSource host spec.source
  require (!p.targets.contains target) (fileError "INVALID_SPEC" "Duplicate deployment target")
  let parent ← w.directory target.parent ownerUid false
  let original ← readAt host parent.nodes target.name (min limits.maxFileBytes p.remaining) ownerUid
  let original := original.map (·.1)
  let identity := (parent.place.binding, target.name)
  require (!p.aliased identity) (fileError "INVALID_SPEC" "Two target paths alias the same object")
  let source ← readSource host w (min limits.maxFileBytes (p.remaining - sizeOf original)) ownerUid source
  let candidate := source.map (·.2)
  let attributes ← attributesOf host spec original candidate ownerUid
  let reserved := reservation (sizeOf original) (sizeOf candidate)
  require (reserved ≤ p.remaining) (fileError "LIMIT_EXCEEDED" "Insufficient preparation and recovery byte budget")
  return (⟨target, parent.place, original, source, attributes, ownerUid, limits, reserved⟩,
    ⟨target :: p.targets, identity :: p.identities, p.remaining - reserved⟩)

/-- The loop: the entries and the bytes that remain. -/
def planFrom (w : World) (limits : Limits) (ownerUid : Nat) : Planning → List FileSpec → Except Fault (List Entry × Nat)
  | p, [] => .ok ([], p.remaining)
  | p, spec :: specs => do
    let (entry, p') ← planOne host w limits ownerUid p spec
    let (entries, remaining) ← planFrom w limits ownerUid p' specs
    return (entry :: entries, remaining)

structure Plan where
  files : List Entry
  limits : Limits
  reservedBytes : Nat

/-- The entries with the remaining bytes distributed, from the one of an index on. -/
def distribute (count remaining : Nat) : Nat → List Entry → List Entry
  | _, [] => []
  | index, e :: entries =>
    { e with preparationBudgetBytes := e.preparationBudgetBytes + (remaining / count + if index < remaining % count then 1 else 0) }
      :: distribute count remaining (index + 1) entries

/-- `plan_files` -/
def planFiles (w : World) (specs : List FileSpec) (limits : Limits) (ownerUid : Nat) : Except Fault Plan := do
  require (specs.length ≤ limits.maxFiles) (fileError "LIMIT_EXCEEDED" "Too many planned files")
  let (entries, remaining) ← planFrom host w limits ownerUid ⟨[], [], limits.maxTotalBytes⟩ specs
  return ⟨distribute entries.length remaining 0 entries, limits, limits.maxTotalBytes - remaining⟩

end

end LocalHand.Files
