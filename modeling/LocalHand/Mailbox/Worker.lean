/-
The mailbox worker (`worker.py`): its outbox, receipts and markers, the checkout of
the mailbox, `publish_outbox` and `process_once`.

What a call meets outside of its own state is in its environment, by the number of
the question: the fate of every read and write, what a fetch and a push answer,
what a handler does. A crash is an exception nothing takes. The trace is of the
steps others can see.
-/
import LocalHand.Mailbox.Protocol
import LocalHand.Lib.Directory
import LocalHand.Lib.Program
import LocalHand.Lib.Run

namespace LocalHand.Mailbox

open PyJson Program Directory
open Framing (Bytes)

def mailboxPushAttempts : Nat := 4
def maxMailboxTaskFiles : Nat := 4096

/-- Why a call stops: a `LocalHandError`, its subclass `FileReadUnavailable`, another
exception, or the end of the process. -/
inductive Stop where
  | failed (failure : Failure)
  | unavailable (message : String)
  | outside
  | crashed
  deriving Repr, DecidableEq

/-- What becomes of a read or a write: an exception or a crash before it, or after it. -/
inductive Fate where
  | done
  | lost (crash : Bool)
  | kept (crash : Bool)
  deriving Repr, DecidableEq

/-- The control directories of a checkout. -/
structure Tree where
  tasks : Dir Bytes
  results : Dir Bytes
  conflicts : Dir Bytes

/-- What a push answers. -/
inductive Push where
  | accepted
  | race
  | failed
  | unconfirmed
  deriving Repr, DecidableEq

/-- The branch behind a checkout, in whatever state `R` it is. -/
structure Git (R : Type) where
  fetch : Nat → R → Except Stop Tree × R
  push : Nat → R → Tree → Push × R

/-- What a handler does: its details, an exception, or the end of the process. -/
inductive Handled (F : Type) where
  | details (fields : List (String × Value F))
  | raised (raised : Raised F)
  | crashed

/-- Its dicts stand in key order. -/
def Handled.WF {F : Type} : Handled F → Prop
  | .details new => (Value.obj new).WF
  | .raised error => (Value.obj error.details).WF
  | .crashed => True

structure Env (F R : Type) where
  fate : Nat → Fate
  git : Git R
  provenance : Nat → Except Stop Provenance
  handler : Nat → Value F → Handled F
  handler_wf : ∀ n task, (handler n task).WF

/-- The files a worker writes. -/
inductive Place where
  | outbox
  | receipts
  | conflicts
  deriving Repr, DecidableEq

/-- What a handler finds on disk when it is called. -/
structure Disk where
  receipts : Dir Bytes
  conflicts : Dir Bytes
  tree : Tree

/-- A visible step: a call that begins, a fetched tree, a push and its answer, a file
written over what there was and whether that is known to be durable, a pending
file removed or moved, a handler called. -/
inductive Mark (F : Type) where
  | began
  | synced (tree : Tree)
  | pushed (tree : Tree) (answer : Push)
  | wrote (place : Place) (name : String) (old : Option Bytes) (new : Bytes) (durable : Bool)
  | unlinked (name : String) (raw : Bytes)
  | quarantined (name dest : String) (raw : Bytes)
  | executed (task : Task F) (disk : Disk)

structure World (F R : Type) where
  clock : Nat
  outbox : Dir Bytes
  receipts : Dir Bytes
  conflicts : Dir Bytes
  quarantine : Dir Bytes
  tree : Tree
  outside : R
  trace : List (Mark F)

variable {F R : Type}

abbrev Op (F R : Type) := Prog (World F R) Stop

def World.place (w : World F R) : Place → Dir Bytes
  | .outbox => w.outbox
  | .receipts => w.receipts
  | .conflicts => w.conflicts

def World.with (w : World F R) (place : Place) (dir : Dir Bytes) : World F R :=
  match place with
  | .outbox => { w with outbox := dir }
  | .receipts => { w with receipts := dir }
  | .conflicts => { w with conflicts := dir }

def World.mark (w : World F R) (m : Mark F) : World F R := { w with trace := w.trace ++ [m] }

def fail {α : Type} (failure : Failure) : Op F R α := throw (.failed failure)

def lift {α : Type} : Except Failure α → Op F R α
  | .ok a => pure a
  | .error failure => fail failure

/-- `except LocalHandError`, after `except FileReadUnavailable: raise`. -/
def caught {α : Type} (m : Op F R α) : Op F R (Except Failure α) :=
  tryCatch (do return .ok (← m)) fun stop =>
    match stop with
    | .failed failure => return .error failure
    | stop => throw stop

section

variable (host : Host F) (env : Env F R)

/-- A question put to the environment. -/
def ask {α : Type} (answer : Nat → α) : Op F R α := do
  let w ← get
  set { w with clock := w.clock + 1 }
  return answer w.clock

/-- A step that changes nothing. -/
def reading (stop : Stop) : Op F R Unit := do
  match ← ask env.fate with
  | .done => return
  | .lost crash | .kept crash => throw (if crash then .crashed else stop)

/-- A step that changes the world or has not been made; `durable` is whether it returns. -/
def writing (before after : Stop) (change : Bool → World F R → World F R) : Op F R Unit := do
  match ← ask env.fate with
  | .done => modify (change true)
  | .lost crash => throw (if crash then .crashed else before)
  | .kept crash => do
    modify (change false)
    throw (if crash then .crashed else after)

/-! ## Files -/

def pathUnavailable (name : String) : Stop :=
  .failed (indeterminate "path_state_unavailable" ("cannot determine path state: " ++ name))

/-- `target_lexists` -/
def targetLexists (dir : World F R → Dir Bytes) (name : String) : Op F R Bool := do
  reading env (pathUnavailable name)
  return (dir (← get)).has name

/-- `read_regular_file_bounded` -/
def readRegularFileBounded (dir : World F R → Dir Bytes) (name : String) (limit : Nat) (code : String) : Op F R Bytes := do
  reading env (.unavailable ("cannot read regular file " ++ name))
  match (dir (← get)).get name with
  | none => throw (.unavailable ("cannot lstat regular file " ++ name))
  | some raw => do
    lift (check (raw.length ≤ limit) (indeterminate code ("file exceeds " ++ toString limit ++ " bytes: " ++ name)))
    return raw

/-- `load_json_bounded` -/
def loadJsonBounded (dir : World F R → Dir Bytes) (name : String) (maxBytes : Nat) (code : String) : Op F R (Value F) := do
  let raw ← readRegularFileBounded env dir name maxBytes code
  match host.load raw with
  | some value => return value
  | none => fail (indeterminate code ("invalid UTF-8/JSON object: " ++ name))

/-- `write_json_atomic` -/
def writeJsonAtomic (place : Place) (name : String) (value : Value F) (maxBytes : Nat) (code : String) : Op F R Unit := do
  match jsonBytes host value maxBytes code with
  | none => throw .outside
  | some data => do
    let data ← lift data
    let broken := "cannot confirm durable local state: " ++ name
    writing env (.failed (indeterminate "local_state_write_failed" broken))
      (.failed (indeterminate "local_state_durability_unconfirmed" broken)) fun durable w =>
        (w.with place ((w.place place).put name data)).mark (.wrote place name ((w.place place).get name) data durable)

/-- `result_file.unlink()` -/
def unlink (name : String) : Op F R Unit := do
  match (← get).outbox.get name with
  | none => throw .outside
  | some raw =>
    writing env .outside .outside fun _ w => { w with outbox := w.outbox.remove name }.mark (.unlinked name raw)

/-- `os.replace(result_file, dest)` -/
def replace (name dest : String) : Op F R Unit := do
  let broken := Stop.failed (indeterminate "local_outbox_quarantine_failed" ("cannot quarantine " ++ name))
  match (← get).outbox.get name with
  | none => throw broken
  | some raw =>
    writing env broken broken fun _ w =>
      { w with outbox := w.outbox.remove name, quarantine := w.quarantine.put dest raw }.mark (.quarantined name dest raw)

/-- The names tried in quarantine, one index after another. -/
def candidates (stem suffix : String) (n : Nat) : List String :=
  (stem ++ suffix) :: (List.range n).map fun i => stem ++ "." ++ toString (i + 1) ++ suffix

/-- The loop for a name that is free: more names are tried than there are files. -/
def freeName (names : List String) : Op F R String :=
  match names with
  | [] => throw .outside
  | name :: rest => do
    if ← targetLexists env (·.quarantine) name then freeName rest else return name

/-- `_quarantine_local_outbox_file` -/
def quarantineLocalOutboxFile (name reason : String) : Op F R Unit := do
  let short := String.ofList ((host.sha256 reason.toUTF8.toList).toList.take 12)
  let dest ← freeName env (candidates (name ++ "." ++ short) ".invalid" ((← get).quarantine.entries.length + 1))
  replace env name dest

/-- `_result_digest` -/
def resultDigest (result : Value F) : Op F R String :=
  match host.digest result with
  | some digest => return digest
  | none => throw .outside

/-- `_quarantine_local_result_conflict` -/
def quarantineLocalResultConflict (name : String) (localValue remote : Value F) : Op F R Unit := do
  let stem := name ++ "." ++ (← resultDigest host localValue) ++ "." ++ (← resultDigest host remote)
  let dest ← freeName env (candidates stem ".conflict" ((← get).quarantine.entries.length + 1))
  replace env name dest

/-! ## The mailbox -/

/-- `sync_mailbox` -/
def syncMailbox : Op F R Unit := do
  let w ← get
  let (answer, outside) := env.git.fetch w.clock w.outside
  set { w with clock := w.clock + 1, outside := outside }
  match answer with
  | .ok tree => modify fun w => { w with tree := tree }.mark (.synced tree)
  | .error stop => throw stop

/-- `_route_outbox_target`: the directory of a pending file. -/
def routeOutboxTarget (name : String) (tree : Tree) : Dir Bytes := if isConflictOutbox name then tree.conflicts else tree.results

def Tree.add (tree : Tree) (name : String) (raw : Bytes) : Tree :=
  if isConflictOutbox name then { tree with conflicts := tree.conflicts.put name raw }
  else { tree with results := tree.results.put name raw }

/-- `atomic_create_control_file` -/
def atomicCreateControlFile (name : String) (raw : Bytes) : Op F R Unit := do
  let occupied := indeterminate "mailbox_target_occupied" ("mailbox target already occupied: " ++ name)
  if ← targetLexists env (fun w => routeOutboxTarget name w.tree) name then fail occupied
  else
    writing env (.failed (indeterminate "mailbox_atomic_publish_failed" ("cannot atomically publish mailbox target: " ++ name)))
      (.failed (indeterminate "mailbox_durability_unconfirmed" "mailbox directory synchronization failed"))
      fun _ w => { w with tree := w.tree.add name raw }

/-- `git push` of the commit of the checkout. -/
def pushMailbox : Op F R Push := do
  let w ← get
  let (answer, outside) := env.git.push w.clock w.outside w.tree
  set ({ w with clock := w.clock + 1, outside := outside }.mark (.pushed w.tree answer))
  return answer

/-! ## Conflict records -/

def textOf (value : Value F) (key : String) : String := (text? value key).getD ""

def fieldOf (value : Value F) (key : String) : Value F := (value.get? key).getD .null

/-- The conflict record of a local result. -/
def conflictOf (localValue : Value F) (code error : String) (details : List (String × Value F)) : Value F :=
  withFields localValue
    [("status", .str "indeterminate"), ("error_code", .str code), ("error", .str error), ("details", .obj details)]

/-- What both ways to a conflict record end with. -/
def saveConflict (localValue conflict : Value F) : Op F R Unit := do
  lift (validateResultShape host conflict)
  let name ← lift (conflictFilenameOf (textOf localValue "task_id") (textOf localValue "task_digest"))
  writeJsonAtomic host env .outbox name conflict maxResultJsonBytes "result_too_large"

/-- `_publish_conflict_from_collision` -/
def publishConflictFromCollision (localValue remote : Value F) : Op F R Unit := do
  let collision := textOf remote "task_digest" ≠ textOf localValue "task_digest"
  let label := if collision then "digest" else "content"
  let localDigest ← resultDigest host localValue
  let remoteDigest ← resultDigest host remote
  saveConflict host env localValue (conflictOf localValue ("remote_result_" ++ label ++ "_conflict")
    ("remote result " ++ label ++ " conflict for " ++ textOf localValue "task_id")
    [("local_result_sha256", .str localDigest), ("local_result_status", fieldOf localValue "status"),
     ("local_task_digest", fieldOf localValue "task_digest"), ("remote_result_sha256", .str remoteDigest),
     ("remote_result_status", fieldOf remote "status"), ("remote_task_digest", fieldOf remote "task_digest")])

/-- `_publish_conflict_from_invalid_remote` -/
def publishConflictFromInvalidRemote (localValue : Value F) (failure : Failure) : Op F R Unit :=
  saveConflict host env localValue (conflictOf localValue "remote_result_invalid"
    ("canonical remote result is malformed/invalid for " ++ textOf localValue "task_id")
    [("canonical_result_preserved", .bool true), ("local_task_digest", fieldOf localValue "task_digest"),
     ("remote_validation_error", .str failure.message)])

/-! ## `publish_outbox` -/

def results (w : World F R) : Dir Bytes := w.tree.results

/-- `_load_remote_result` -/
def loadRemoteResult (name taskId : String) (action targetNode digest : Option String) : Op F R (Value F) := do
  let value ← loadJsonBounded host env results name maxResultJsonBytes "remote_result_invalid"
  lift (validateRemoteResult host value taskId action targetNode digest)
  return value

/-- The target of a conflict record is taken. -/
def settleConflict (name : String) : Op F R Unit := do
  let localBytes ← readRegularFileBounded env (·.outbox) name maxResultJsonBytes "local_outbox_invalid"
  let remoteBytes ← readRegularFileBounded env (fun w => w.tree.conflicts) name maxResultJsonBytes "remote_result_invalid"
  if localBytes = remoteBytes then unlink env name
  else quarantineLocalOutboxFile host env name "remote conflict record differs"

/-- The target of a result is taken. -/
def settleResult (name : String) (localValue : Value F) : Op F R Unit := do
  match ← caught (loadRemoteResult host env name (stem name) (text? localValue "action") (text? localValue "target_node") none) with
  | .error failure => do
    publishConflictFromInvalidRemote host env localValue failure
    quarantineLocalOutboxFile host env name "canonical remote result is invalid"
  | .ok remote => do
    let same := textOf remote "task_digest" = textOf localValue "task_digest"
    let remoteDigest ← resultDigest host remote
    let localDigest ← resultDigest host localValue
    if same && remoteDigest = localDigest then unlink env name
    else do
      publishConflictFromCollision host env localValue remote
      quarantineLocalResultConflict host env name localValue remote

def unconfirmed (message : String) : Stop := .failed (indeterminate "mailbox_publish_failed" message)

/-- The attempts at one pending record. -/
def publishRecord (name : String) (localValue : Value F) : Nat → Op F R Unit
  | 0 => return
  | attempts + 1 => do
    syncMailbox env
    if ← targetLexists env (fun w => routeOutboxTarget name w.tree) name then
      if isConflictOutbox name then settleConflict host env name else settleResult host env name localValue
    else do
      let raw ← readRegularFileBounded env (·.outbox) name maxResultJsonBytes "local_outbox_invalid"
      atomicCreateControlFile env name raw
      reading env (.failed ⟨"git_failed", "git failed", "failed"⟩)
      match ← pushMailbox env with
      | .accepted => unlink env name
      | .unconfirmed => throw (unconfirmed "result delivery unconfirmed")
      | .failed => throw (unconfirmed "mailbox push failed; delivery unconfirmed")
      | .race =>
        if attempts = 0 then throw (unconfirmed "mailbox push failed; delivery unconfirmed")
        else publishRecord name localValue attempts

/-- `_validate_local_outbox_result(load_json_bounded(…))` -/
def loadPending (name : String) : Op F R (Value F) := do
  let value ← loadJsonBounded host env (·.outbox) name maxResultJsonBytes "local_outbox_invalid"
  lift (validateLocalOutboxResult host value name)
  return value

/-- The loop over the pending files. -/
def publishEach : List String → Op F R Unit
  | [] => return
  | name :: rest => do
    match ← caught (loadPending host env name) with
    | .error failure => quarantineLocalOutboxFile host env name failure.message
    | .ok value => publishRecord host env name value mailboxPushAttempts
    publishEach rest

/-- `publish_outbox` -/
def publishOutbox : Op F R Unit := do
  reading env (.failed (indeterminate "local_outbox_unreadable" "cannot enumerate pending local results"))
  publishEach host env ((← get).outbox.names.filter isJson)

/-! ## `process_once` -/

/-- `build_provenance` -/
def buildProvenance : Op F R Provenance := do
  match ← ask env.provenance with
  | .ok provenance => return provenance
  | .error stop => throw stop

variable (nodeId : String)

/-- `_load_task_conflict`, of a marker or of a record in the mailbox. -/
def loadTaskConflict (dir : World F R → Dir Bytes) (name : String) (task : Task F) (digest code : String) : Op F R (Value F) := do
  let checked := do
    let value ← loadJsonBounded host env dir name maxResultJsonBytes code
    lift (validateRemoteResult host value task.id (some task.action) (some nodeId) (some digest))
    lift (check (text? value "status" ≠ some "succeeded") (indeterminate code "conflict record cannot report success"))
    return value
  match ← caught checked with
  | .ok value => return value
  | .error failure => fail (indeterminate code failure.message)

/-- `_recover_task_conflict` -/
def recoverTaskConflict (task : Task F) (digest : String) : Op F R Unit := do
  let name ← lift (conflictFilenameOf task.id digest)
  let saved ← loadTaskConflict host env nodeId (·.conflicts) name task digest "local_conflict_invalid"
  if ← targetLexists env (fun w => w.tree.conflicts) name then do
    let remote ← loadTaskConflict host env nodeId (fun w => w.tree.conflicts) name task digest "remote_conflict_invalid"
    let remoteDigest ← resultDigest host remote
    let savedDigest ← resultDigest host saved
    lift (check (remoteDigest = savedDigest)
      (indeterminate "remote_conflict_content_conflict" "remote conflict differs from durable marker"))
  else do
    if ← targetLexists env (·.outbox) name then do
      let existing ← loadPending host env name
      let existingDigest ← resultDigest host existing
      let savedDigest ← resultDigest host saved
      lift (check (existingDigest = savedDigest) (indeterminate "local_conflict_invalid" "pending conflict differs from durable marker"))
    else writeJsonAtomic host env .outbox name saved maxResultJsonBytes "result_too_large"
    publishOutbox host env

/-- `_quarantine_task_conflict`; the details stand in key order. -/
def quarantineTaskConflict (task : Task F) (digest : String) (failure : Failure) (observed : Value F)
    (details : Value F → Value F → Value F → List (String × Value F)) : Op F R Unit := do
  let name ← lift (conflictFilenameOf task.id digest)
  if (← get).conflicts.has name then return
  else do
    let provenance ← buildProvenance env
    let result := withFields (resultError task digest nodeId ⟨failure, []⟩ provenance)
      [("details", .obj (details (.str digest) observed (.bool true)))]
    lift (validateResultShape host result)
    writeJsonAtomic host env .conflicts name result maxResultJsonBytes "result_too_large"
    writeJsonAtomic host env .outbox name result maxResultJsonBytes "result_too_large"

/-- A receipt with a result. -/
def receiptOf (task : Task F) (digest source : String) (result : Value F) : Value F :=
  .obj [("result", result), ("source", .str source), ("task_digest", .str digest), ("task_id", .str task.id)]

/-- The receipt of an execution that has started. -/
def startedReceipt (task : Task F) (digest : String) : Value F :=
  .obj [("source", .str "local_execution_started"), ("task_digest", .str digest), ("task_id", .str task.id)]

/-- The receipt of a persisted result. -/
def finalReceipt (task : Task F) (digest : String) (result : Value F) : Value F :=
  .obj [("result", result), ("status", fieldOf result "status"), ("task_digest", .str digest), ("task_id", .str task.id)]

def writeReceipt (task : Task F) (receipt : Value F) : Op F R Unit :=
  writeJsonAtomic host env .receipts (fileName task.id) receipt maxReceiptJsonBytes "receipt_too_large"

/-- `_persist_result` -/
def persistResult (task : Task F) (digest : String) (result : Value F) : Op F R Unit := do
  let result ← lift (boundedExecutionResult host result)
  writeJsonAtomic host env .outbox (fileName task.id) result maxResultJsonBytes "result_too_large"
  writeReceipt host env task (finalReceipt task digest result)

/-- `_load_remote_or_quarantine` -/
def loadRemoteOrQuarantine (task : Task F) (digest : String) : Op F R (Option (Value F)) := do
  match ← caught (loadRemoteResult host env (fileName task.id) task.id (some task.action) (some nodeId) none) with
  | .error failure => do
    quarantineTaskConflict host env nodeId task digest
      (indeterminate "remote_result_invalid" "canonical remote result is malformed/invalid") .null
      fun incoming observed yes => [("canonical_result_preserved", .bool true), ("incoming_task_digest", incoming),
        ("observed_task_digest", observed), ("quarantined", yes), ("remote_validation_error", .str failure.message)]
    return none
  | .ok existing => do
    if textOf existing "task_digest" ≠ digest then do
      quarantineTaskConflict host env nodeId task digest
        (rejected "remote_task_id_digest_conflict" "remote task_id digest conflict") (fieldOf existing "task_digest")
        fun incoming observed yes => [("incoming_task_digest", incoming), ("observed_task_digest", observed), ("quarantined", yes)]
      return none
    else return some existing

/-- `_validate_receipt`, with the result the receipt has. -/
def validateReceipt (receipt : Value F) (task : Task F) (digest : String) : Except Failure (Option (Value F)) :=
  match receipt with
  | .obj _ => do
    check (text? receipt "task_id" = some task.id && text? receipt "task_digest" = some digest)
      (indeterminate "local_receipt_invalid" "durable local receipt identity/digest invalid")
    match receipt.get? "result" with
    | none | some .null => return none
    | some saved => do
      validateRemoteResult host saved task.id (some task.action) (some nodeId) (some digest)
      return some saved
  | _ => .error (indeterminate "local_receipt_invalid" "durable local receipt identity/digest invalid")

/-- What `result_error` takes from an exception of `build_provenance`; a crash is none. -/
def Stop.raised : Stop → Option (Raised F)
  | .failed failure => some ⟨failure, []⟩
  | .unavailable message => some ⟨indeterminate "json_read_unavailable" message, []⟩
  | .outside => some ⟨⟨"internal_error", "Exception", "failed"⟩, []⟩
  | .crashed => none

/-- `execute_task` of a task it has found valid, and what it raises. -/
def executeTask (task : Task F) (digest : String) : Op F R (Except (Raised F) (Value F)) := do
  match ← ask env.provenance with
  | .error stop =>
    match stop.raised with
    | some raised => return .error raised
    | none => throw .crashed
  | .ok provenance => do
    modify fun w => w.mark (.executed task ⟨w.receipts, w.conflicts, w.tree⟩)
    match ← ask fun n => env.handler n task.value with
    | .details fields =>
      match boundedExecutionResult host (resultSuccess task digest nodeId provenance (.obj fields)) with
      | .ok result => return .ok result
      | .error failure => return .error ⟨failure, []⟩
    | .raised raised => return .error raised
    | .crashed => throw .crashed

/-- The result of an execution. -/
def executionResult (task : Task F) (digest : String) : Op F R (Value F) := do
  match ← executeTask host env nodeId task digest with
  | .ok result => return result
  | .error raised => do
    let provenance ← buildProvenance env
    return resultError task digest nodeId raised provenance

/-- A task with a receipt. -/
def processReceipted (task : Task F) (digest : String) : Op F R Unit := do
  let loaded := do
    let receipt ← loadJsonBounded host env (·.receipts) (fileName task.id) maxReceiptJsonBytes "local_receipt_invalid"
    lift (validateReceipt host nodeId receipt task digest)
  match ← caught loaded with
  | .error failure => do
    quarantineTaskConflict host env nodeId task digest
      (indeterminate "local_receipt_invalid" "durable local receipt is malformed/invalid") .null
      fun incoming observed yes => [("incoming_task_digest", incoming), ("observed_task_digest", observed), ("quarantined", yes),
        ("receipt_validation_error", .str failure.message)]
    publishOutbox host env
  | .ok saved => do
    if ← targetLexists env results (fileName task.id) then do
      match ← loadRemoteOrQuarantine host env nodeId task digest, saved with
      | none, _ => publishOutbox host env
      | some existing, none => writeReceipt host env task (receiptOf task digest "remote_result_recovery" existing)
      | some existing, some saved => do
        let localDigest ← resultDigest host saved
        let remoteDigest ← resultDigest host existing
        if localDigest ≠ remoteDigest then do
          quarantineTaskConflict host env nodeId task digest
            (indeterminate "remote_result_content_conflict" "remote result content differs from durable local receipt")
            (fieldOf existing "task_digest")
            fun incoming observed yes => [("canonical_result_preserved", .bool true), ("incoming_task_digest", incoming),
              ("local_result_sha256", .str localDigest), ("observed_task_digest", observed), ("quarantined", yes),
              ("remote_result_sha256", .str remoteDigest)]
          publishOutbox host env
    else
      match saved with
      | some saved => do
        writeJsonAtomic host env .outbox (fileName task.id) saved maxResultJsonBytes "result_too_large"
        publishOutbox host env
      | none => do
        let unknown := indeterminate "outcome_unknown" "receipt exists but result payload is unavailable; refusing replay"
        let provenance ← buildProvenance env
        persistResult host env task digest (resultError task digest nodeId ⟨unknown, []⟩ provenance)
        publishOutbox host env

/-- A task without a receipt and without a result in the mailbox. -/
def processFresh (task : Task F) (digest : String) : Op F R Unit := do
  match validateTask task.value with
  | .error failure => do
    let provenance ← buildProvenance env
    persistResult host env task digest (resultError task digest nodeId ⟨failure, []⟩ provenance)
    publishOutbox host env
  | .ok _ => do
    -- The intent is durable before any handler can have an effect.
    writeReceipt host env task (startedReceipt task digest)
    let result ← executionResult host env nodeId task digest
    persistResult host env task digest result
    publishOutbox host env

/-- A task whose digest no marker has. -/
def processUnmarked (task : Task F) (digest : String) : Op F R Unit := do
  let name ← lift (conflictFilenameOf task.id digest)
  if ← targetLexists env (fun w => w.tree.conflicts) name then do
    let existing ← loadTaskConflict host env nodeId (fun w => w.tree.conflicts) name task digest "remote_conflict_invalid"
    writeJsonAtomic host env .conflicts name existing maxResultJsonBytes "result_too_large"
  else if ← targetLexists env (·.receipts) (fileName task.id) then processReceipted host env nodeId task digest
  else if ← targetLexists env results (fileName task.id) then do
    match ← loadRemoteOrQuarantine host env nodeId task digest with
    | some existing => writeReceipt host env task (receiptOf task digest "remote_result" existing)
    | none => publishOutbox host env
  else processFresh host env nodeId task digest

/-- The body of the loop over the task files. -/
def processTask (name : String) : Op F R Unit := do
  match ← caught (loadJsonBounded host env (fun w => w.tree.tasks) name maxTaskJsonBytes "task_file_invalid") with
  | .error _ => return
  | .ok value =>
    match trustedLocalIdentity nodeId name value with
    | none => return
    | some task =>
      match host.digest value with
      | none => return
      | some digest => do
        let marker ← lift (conflictFilenameOf task.id digest)
        if ← targetLexists env (·.conflicts) marker then recoverTaskConflict host env nodeId task digest
        else processUnmarked host env nodeId task digest

def processEach : List String → Op F R Unit
  | [] => return
  | name :: rest => do
    processTask host env nodeId name
    processEach rest

def isTaskFile (name : String) : Bool := name.toList.take 2 = ['L', 'H'] && isJson name

/-- `bounded_task_files` -/
def boundedTaskFiles : Op F R (List String) := do
  reading env (.failed (indeterminate "mailbox_task_count_exceeded" "cannot enumerate directory"))
  let names := (← get).tree.tasks.names
  lift (check (names.length ≤ maxMailboxTaskFiles)
    (rejected "mailbox_task_count_exceeded" ("directory has more than " ++ toString maxMailboxTaskFiles ++ " entries")))
  return names.filter isTaskFile

/-- `process_once` -/
def processOnce : Op F R Unit := do
  modify fun w => w.mark .began
  reading env (.failed (rejected "mailbox_policy_mismatch" "mailbox differs from admitted policy"))
  publishOutbox host env
  syncMailbox env
  processEach host env nodeId (← boundedTaskFiles env)

end

end LocalHand.Mailbox
