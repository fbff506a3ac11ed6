/-
The compare-and-swap write of a text file (`fs_write_text_cas` of `act.py`), over the bounded
read it looks at the file with (`read_regular_file_bounded` of `bounded_io.py`).

Other programs may change the target, its parent and its mode between any two system calls,
so every look at them is a question answered anew. The temporary file is the call's own, and
a call that is refused a temporary file or a replacement changes nothing.
-/
import LocalHand.Lib.Asking
import LocalHand.Lib.PyData
import LocalHand.StrictJson
import Mathlib.Data.List.Infix

namespace LocalHand.CasWrite

open PyJson ResultReader Program Asking
open Framing (Bytes)

variable {F : Type}

inductive Status where
  | rejected
  | stale
  | failed
  | indeterminate
  deriving Repr, DecidableEq

/-- A `LocalHandError`, an `OSError` with its `errno`, or what else resolving a path may raise. -/
inductive Fault where
  | hand (code message : String) (status : Status)
  | os (errno : Option Int)
  | other
  deriving Repr, DecidableEq

/-- The status an error carries. -/
def Fault.status : Fault → Option Status
  | .hand _ _ status => some status
  | _ => none

def rejected (code message : String) : Fault := .hand code message .rejected

def uncertain (code message : String) : Fault := .hand code message .indeterminate

structure Path where
  parent : String
  name : String
  deriving Repr, DecidableEq

/-- What is looked at of an `os.stat_result`. -/
structure Stat where
  link : Bool
  reparse : Bool
  regular : Bool
  device : Nat
  inode : Nat
  size : Nat
  modified : Nat
  changed : Nat
  mode : Nat
  deriving Repr, DecidableEq

/-- `identity` -/
def Stat.identity (st : Stat) : Nat × Nat × Nat × Nat × Nat := (st.device, st.inode, st.size, st.modified, st.changed)

/-- What becomes of an `unlink`. -/
inductive Removal where
  | done
  | missing
  | failed (errno : Option Int)
  deriving Repr, DecidableEq

/-- What the file system answers, by the number of the question. -/
structure Env where
  nt : Bool
  sha256 : Sha256
  singleWriter : Bool
  /-- `repository_root` -/
  root : Nat → Except Fault Unit
  /-- `_lease.held_for` -/
  held : Nat → Except Fault Bool
  /-- The way into `_repository_write_lease`. -/
  leased : Nat → Option Fault
  /-- `safe_existing_path` -/
  resolved : Nat → Except Fault Path
  stat : Nat → Except (Option Int) Stat
  read : Nat → Except (Option Int) Bytes
  /-- The mode a file has after a `chmod` that returned. -/
  chmod : Nat → Except (Option Int) Nat
  unlinked : Nat → Removal
  /-- The calls that return nothing that is looked at. -/
  fails : Nat → Option (Option Int)

/-- The call's own temporary file. -/
structure Temp where
  content : Bytes
  mode : Nat
  deriving Repr, DecidableEq

inductive Mark where
  /-- The target was read. -/
  | read (raw : Bytes)
  /-- The mode of the target was recorded. -/
  | mode (mode : Nat)
  /-- The target was replaced by a file with this content and mode. -/
  | replaced (content : Bytes) (mode : Nat)
  deriving Repr, DecidableEq

structure Core where
  temp : Option Temp
  trace : List Mark
  deriving Repr, DecidableEq

abbrev Act := Op Core Fault

def mark (k : Mark) : Act Unit := change fun c => { c with trace := c.trace ++ [k] }

/-- A call that returns nothing that is looked at. -/
def call (env : Env) : Act Unit := pass fun n => (env.fails n).map .os

/-- A call with an answer, or an `OSError`. -/
def answer {α : Type} (answers : Nat → Except (Option Int) α) : Act α := do lift ((← ask answers).mapError .os)

/-- `except OSError as exc: raise … from exc` -/
def onOsError {α : Type} (m : Act α) (f : Option Int → Fault) : Act α :=
  tryCatch m fun
    | .os errno => throw (f errno)
    | fault => throw fault

/-- `try: … finally: …`, with what is done after an exception and after the block. -/
def closing {α : Type} (m : Act α) (failing done : Act Unit) : Act α := do
  let a ← tryCatch m fun fault => do
    failing
    throw fault
  done
  return a

/-- `except OSError: pass` -/
def quietly (m : Act Unit) : Act Unit :=
  tryCatch m fun
    | .os _ => pure ()
    | fault => throw fault

/-! ## The bounded read -/

def errnoText : Option Int → String
  | none => "None"
  | some errno => toString errno

/-- `FileReadUnavailable` -/
def unavailable (code reason : String) (path : Path) (errno : Option Int) : Fault :=
  uncertain code (reason ++ " regular file " ++ path.name ++ "; errno=" ++ errnoText errno)

/-- `_lstat_regular` -/
def lstatRegular (env : Env) (path : Path) (code : String) : Act Stat := do
  let st ← onOsError (answer env.stat) (unavailable code "cannot lstat" path)
  demand (!(st.link || st.reparse)) (uncertain code ("symlink/reparse file rejected: " ++ path.name))
  demand st.regular (uncertain code ("non-regular file rejected: " ++ path.name))
  return st

/-- The loop over `os.read`, which gives at most what it is asked for. -/
def readChunks (env : Env) : Nat → Nat → Act Bytes
  | 0, _ => pure []
  | fuel + 1, remaining =>
    if remaining = 0 then pure []
    else do
      let answered ← answer env.read
      let chunk := answered.take (min (64 * 1024) remaining)
      if chunk = [] then pure [] else (chunk ++ ·) <$> readChunks env fuel (remaining - chunk.length)

/-- What is read of the opened file. -/
def readOpened (env : Env) (path : Path) (limit : Nat) (code : String) (before : Stat) : Act Bytes := do
  let after ← answer env.stat
  demand (after.regular && !after.reparse) (uncertain code ("opened object is not a regular file: " ++ path.name))
  demand (env.nt || (before.device, before.inode) = (after.device, after.inode))
    (uncertain code ("file identity changed during open: " ++ path.name))
  -- Every chunk has a byte, so the loop ends before its fuel does.
  let data ← readChunks env (limit + 1) (limit + 1)
  let final ← answer env.stat
  demand (after.identity = final.identity && data.length = min after.size (limit + 1))
    (uncertain code ("regular file read is incomplete or changed: " ++ path.name))
  return data

/-- `read_regular_file_bounded` -/
def readRegularFileBounded (env : Env) (path : Path) (limit : Nat) (code : String) : Act Bytes := do
  let before ← lstatRegular env path code
  onOsError (call env) (unavailable code "cannot open" path)
  let data ← closing (onOsError (readOpened env path limit code before) (unavailable code "cannot read" path)) (quietly (call env))
    (onOsError (call env) (unavailable code "cannot close" path))
  demand (data.length ≤ limit) (uncertain code ("file exceeds " ++ toString limit ++ " bytes: " ++ path.name))
  return data

/-! ## The write -/

def maxTextBytes : Nat := 1024 * 1024

def exceeds (message : String) : Bool := decide ("exceeds".toList <:+: message.toList)

/-- `_read_cas_target` -/
def readCasTarget (env : Env) (path : Path) : Act Bytes := do
  let raw ← tryCatch (readRegularFileBounded env path maxTextBytes "write_source_invalid") fun
    | .hand code message status =>
      if exceeds message then
        throw (rejected "write_source_too_large"
          ("existing write target exceeds " ++ toString maxTextBytes ++ " bytes: " ++ path.name))
      else throw (.hand code message status)
    | fault => throw fault
  mark (.read raw)
  return raw

/-- `_regular_mode_no_follow` -/
def regularModeNoFollow (env : Env) (path : Path) : Act Nat := do
  let st ← onOsError (answer env.stat) fun _ => uncertain "write_source_invalid" ("cannot lstat write target: " ++ path.name)
  demand (!(st.link || st.reparse) && st.regular)
    (rejected "write_source_invalid" ("write target is not a regular non-reparse file: " ++ path.name))
  mark (.mode st.mode)
  return st.mode

/-- What a caller passes. `lease` is there where a lease is, and says whether it is a `_WriteLease`. -/
structure Call (F : Type) where
  repository : String
  relativePath : String
  expected : Data F
  content : Data F
  leaseRoot : Bool
  lease : Option Bool

structure Written where
  repository : String
  relativePath : String
  oldSha256 : String
  newSha256 : String
  bytes : Nat
  alreadyApplied : Bool
  readBackVerified : Bool
  casModel : String
  localHandLease : Bool
  boundedExistingReads : Bool
  deriving Repr, DecidableEq

def isHexPoint (p : Point) : Bool := (48 ≤ p.val && p.val ≤ 57) || (65 ≤ p.val && p.val ≤ 70) || (97 ≤ p.val && p.val ≤ 102)

/-- `expected_sha256`, checked and in lower case. -/
def expectedSha256 : Data F → Except Fault String
  | .str s =>
    if s.length = 64 && s.all isHexPoint then .ok (String.ofList (s.map fun p => (charOf p).toLower))
    else .error (rejected "invalid_expected_sha256" "expected_sha256 must be a 64-character hex digest")
  | _ => .error (rejected "invalid_expected_sha256" "expected_sha256 must be a 64-character hex digest")

/-- The bytes of `content`. -/
def desiredBytes : Data F → Except Fault Bytes
  | .str s =>
    if s.any isSurrogate then .error (rejected "invalid_content_utf8" "content must be valid UTF-8 text")
    else
      let desired := encodeText (s.map charOf)
      if desired.length ≤ maxTextBytes then .ok desired
      else .error (rejected "write_too_large" ("encoded content exceeds " ++ toString maxTextBytes ++ " bytes"))
  | _ => .error (rejected "invalid_content" "content must be a string")

section

variable (env : Env) (args : Call F)

def leaseInvalid : Fault := rejected "workspace_lease_invalid" "CAS requires an active lease for this repository and caller"

/-- The check of a lease that is passed. -/
def checkLease : Act Unit :=
  match args.lease with
  | none => pure ()
  | some isLease =>
    if args.leaseRoot || !isLease then throw leaseInvalid
    else do
      let held ← lift (← ask env.held)
      demand held leaseInvalid

/-- `_repository_write_lease`: the lock's file is closed at the end. -/
def repositoryWriteLease {α : Type} (m : Act α) : Act α := do
  pass env.leased
  closing m (call env) (call env)

def written (old : String) (desired : Bytes) (alreadyApplied : Bool) : Written :=
  ⟨args.repository, args.relativePath, old, env.sha256.hexdigest desired, desired.length, alreadyApplied, true,
    "single-writer-optimistic", true, true⟩

/-- Outside Windows a `chmod` may leave bits out. -/
def checkMode (mode : Nat) : Act Unit :=
  if env.nt then pure ()
  else do
    call env
    let c ← core
    demand ((c.temp.map Temp.mode) = some mode) (.os none)

/-- The mode of the target is given to its replacement. -/
def preserveMode (mode : Nat) : Act Unit :=
  onOsError (do
    let kept ← answer env.chmod
    change fun c => { c with temp := c.temp.map fun t => { t with mode := if env.nt then mode else kept } }
    checkMode env mode) fun _ =>
      .hand "write_mode_preservation_failed"
        ("cannot preserve write target mode before atomic replacement: " ++ args.relativePath) .failed

/-- The temporary file is made, and filled. -/
def fillTemp (desired : Bytes) (mode : Nat) : Act Unit := do
  call env
  change fun c => { c with temp := some ⟨[], 384⟩ }
  -- A descriptor no stream has taken is closed.
  tryCatch (call env) fun fault => do
    quietly (call env)
    throw fault
  closing (do
    call env
    call env
    change fun c => { c with temp := c.temp.map fun t => { t with content := desired } }
    preserveMode env args mode
    call env) (call env) (call env)

/-- The target is looked at once more, and replaced. -/
def replaceTarget (target : Path) (current : Bytes) : Act Path := do
  let preReplaceTarget ← lift (← ask env.resolved)
  demand (preReplaceTarget.parent = target.parent)
    (.hand "stale_write" ("file parent changed during CAS: " ++ args.relativePath) .stale)
  let preReplace ← readCasTarget env preReplaceTarget
  demand (env.sha256.hexdigest preReplace = env.sha256.hexdigest current)
    (.hand "stale_write" ("file changed during CAS: expected-current=" ++ env.sha256.hexdigest current ++ " actual="
      ++ env.sha256.hexdigest preReplace) .stale)
  call env
  change fun c => ⟨none, c.trace ++ (c.temp.map fun t => Mark.replaced t.content t.mode).toList⟩
  return preReplaceTarget

/-- The directory is synchronized. -/
def syncParent : Act Unit :=
  if env.nt then pure ()
  else
    onOsError (do
      call env
      closing (call env) (call env) (call env)) fun _ =>
        uncertain "write_durability_unconfirmed"
          ("atomic write occurred but directory synchronization failed: " ++ args.relativePath)

/-- What was published is read back. -/
def readBack (target : Path) (desired : Bytes) : Act Unit := do
  let back ← tryCatch (readCasTarget env target) fun
    | .other => throw .other
    | _ => throw (uncertain "write_readback_unconfirmed"
        ("atomic write occurred but read-back could not be completed: " ++ args.relativePath))
  demand (back = desired && env.sha256.hexdigest back = env.sha256.hexdigest desired)
    (uncertain "write_readback_mismatch" ("atomic write occurred but read-back verification failed: " ++ args.relativePath))

/-- A temporary file that was not published is removed. -/
def removeTemp : Act Unit := do
  let c ← core
  if c.temp.isSome then
    match ← ask env.unlinked with
    | .done => change fun c => { c with temp := none }
    | .missing => pure ()
    | .failed errno => throw (.os errno)

/-- The write under the lease. -/
def writeLeased (expected : String) (desired : Bytes) : Act Written := do
  let target ← lift (← ask env.resolved)
  let current ← readCasTarget env target
  let currentHash := env.sha256.hexdigest current
  if currentHash = env.sha256.hexdigest desired then return written env args currentHash desired true
  else do
    demand (currentHash = expected)
      (.hand "stale_write" ("file changed since observation: expected=" ++ expected ++ " actual=" ++ currentHash) .stale)
    let originalMode ← regularModeNoFollow env target
    closing (do
      fillTemp env args desired originalMode
      let target' ← replaceTarget env args target current
      syncParent env args
      readBack env args target' desired
      return written env args currentHash desired false) (removeTemp env) (removeTemp env)

/-- `fs_write_text_cas` -/
def fsWriteTextCas : Act Written := do
  let expected ← lift (expectedSha256 args.expected)
  let desired ← lift (desiredBytes args.content)
  lift (← ask env.root)
  demand env.singleWriter (rejected "workspace_not_single_writer"
    "fs.write_text_cas is disabled unless repository.single_writer=true in the Node Profile")
  checkLease env args
  if args.lease.isSome then writeLeased env args expected desired
  else repositoryWriteLease env (writeLeased env args expected desired)

/-- A call on a fresh start: what it returns or raises, and what it has done. -/
def run : Except Fault Written × Core :=
  let out := (fsWriteTextCas env args).from ⟨0, ⟨none, []⟩⟩
  (out.1, out.2.core)

end

end LocalHand.CasWrite
