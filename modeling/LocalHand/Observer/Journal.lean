/-
The quota observer's start journal (`journal.py`): create-only intent files,
and deliveries that scan them under a lock, write their own intent and call
back outside the lock.

A delivery is a call that takes one step at a time, so that calls interleave
and a crash may fall between any two steps. A file a call has not yet synced,
its directory entry included, may lose any of its end in a crash, or be gone.
-/
import LocalHand.Observer.Binding

namespace LocalHand.Observer

open PyJson ResultReader
open Framing (Bytes)

def maxIntents : Nat := 32
def maxFileBytes : Nat := 4096
def maxFiles : Nat := 1 + maxIntents * 3

/-! ## The control directory -/

inductive Kind where
  | intent | invocation | unknown
  deriving Repr, DecidableEq

def Kind.text : Kind → String
  | .intent => "intent"
  | .invocation => "invocation"
  | .unknown => "unknown"

def Kind.suffix (kind : Kind) : List Char := '.' :: (kind.text.toList ++ ".json".toList)

def fileName (requestId : String) (kind : Kind) : String := String.ofList (requestId.toList ++ kind.suffix)

/-- `_RECORD_NAME.fullmatch` -/
def recordName (name : String) : Option (String × Kind) :=
  let id := name.toList.take 32
  if id.length = 32 && id.all isLowerHex then
    ([Kind.intent, .invocation, .unknown].find? fun kind => name.toList.drop 32 = kind.suffix).map fun kind =>
      (String.ofList id, kind)
  else none

/-- `durable`: its bytes and its directory entry were synced. -/
structure File where
  bytes : Bytes
  durable : Bool
  deriving Repr, DecidableEq

/-- The directory without its lock file. -/
abbrev Dir := List (String × File)

/-- `_read_file`, of a file whose owner and mode are right. -/
def readFile (file : File) : Except Fault Json := do
  require (0 < file.bytes.length && file.bytes.length ≤ maxFileBytes) (rejected "CONTROL_FILE_SIZE")
  require (file.bytes.getLast? = some 10) (rejected "CONTROL_READ")
  let value ← strictJson file.bytes maxFileBytes 2
  require (encode value = file.bytes) (rejected "CONTROL_CANONICAL")
  return value

/-- The files of one request. -/
structure Files where
  intent : Option Json
  invocation : Option Json
  unknown : Option Json

def Files.get (files : Files) : Kind → Option Json
  | .intent => files.intent
  | .invocation => files.invocation
  | .unknown => files.unknown

def Files.set (files : Files) (value : Json) : Kind → Files
  | .intent => { files with intent := some value }
  | .invocation => { files with invocation := some value }
  | .unknown => { files with unknown := some value }

abbrev Groups := List (String × Files)

/-- `grouped.setdefault(request_id, {})[kind] = value` -/
def put (requestId : String) (kind : Kind) (value : Json) : Groups → Groups
  | [] => [(requestId, Files.set ⟨none, none, none⟩ value kind)]
  | (id, files) :: rest =>
    if id = requestId then (id, files.set value kind) :: rest else (id, files) :: put requestId kind value rest

/-- The loop over the entries; the lock is the first of them. -/
def collect : Nat → Dir → Groups → Except Fault Groups
  | _, [], grouped => .ok grouped
  | count, (name, file) :: rest, grouped => do
    require (count ≤ maxFiles) (rejected "JOURNAL_CAPACITY")
    match recordName name with
    | none => .error (rejected "CONTROL_UNKNOWN_FILE")
    | some (requestId, kind) => do
      let value ← readFile file
      collect (count + 1) rest (put requestId kind value grouped)

inductive Resource where
  | slot (ref : Json)
  | root (device inode : Json)
  | domain (filesystemUuid projectId : Json)
  deriving DecidableEq

/-- `_resources` -/
def resources (intent : Json) : List Resource :=
  [.slot (item intent "slot_ref"), .root (item intent "root_device") (item intent "root_inode"),
    .domain (item intent "filesystem_uuid") (item intent "project_id")]

/-- The words of an observation file: `[0-9a-f]{32}`, `[A-Z][A-Z0-9_]{0,63}`. -/
def wordText : Kind → String → Bool
  | .unknown, s =>
    match s.toList with
    | c :: rest => c.isUpper && rest.length ≤ 63 && rest.all fun d => d.isUpper || d.isDigit || d = '_'
    | [] => false
  | _, s => hexText 32 s

def Kind.field : Kind → String
  | .unknown => "reason"
  | _ => "invocation_id"

def observationSchema (kind : Kind) : String := "local-hand-quota-q1-" ++ kind.text ++ "/v1"

section

variable (sha256 : Sha256)

def bindingDigest (intent : Json) : String := sha256.hexdigest (encode intent)

/-- What `_scan` asks of an observation file. -/
def checkObservation (intent : Json) (kind : Kind) (value : Json) : Except Fault Unit := do
  fields value ["schema", "binding_digest", kind.field]
  require (item value "schema" = .str (observationSchema kind)
    && item value "binding_digest" = .str (bindingDigest sha256 intent)) (rejected "RECORD_BINDING")
  let _ ← token (item value kind.field) (wordText kind)

/-- The loop over the groups, with the allocations and resources it has met. -/
def checkGroups : Groups → List Json → List Resource → Except Fault Unit
  | [], _, _ => .ok ()
  | (requestId, files) :: rest, allocations, taken =>
    match files.intent with
    | none => .error (rejected "ORPHAN_RECORD")
    | some intent => do
      validateIntent sha256 intent
      require (item intent "request_id" = .str requestId) (rejected "RECORD_IDENTITY")
      require (!allocations.contains (item intent "allocation_digest")) (rejected "ALLOCATION_ALIAS")
      require ((resources intent).all fun r => !taken.contains r) (rejected "RESOURCE_ALIAS")
      [Kind.invocation, .unknown].forM fun kind =>
        match files.get kind with
        | none => .ok ()
        | some value => checkObservation sha256 intent kind value
      checkGroups rest (item intent "allocation_digest" :: allocations) (resources intent ++ taken)

/-- `_scan` -/
def scan (dir : Dir) : Except Fault Groups := do
  let grouped ← collect 2 dir []
  require (grouped.length ≤ maxIntents) (rejected "JOURNAL_CAPACITY")
  checkGroups sha256 grouped [] []
  return grouped

/-! ## Under the lock -/

structure Record where
  requestId : Json
  allocationDigest : Json
  bindingDigest : String
  unit : Json
  cgroup : Json
  bootId : Json
  invocationId : Option Json
  status : String
  unknownReason : Option Json
  intentJson : Bytes
  deriving DecidableEq

/-- `_record`, of a group that has an intent. -/
def record (files : Files) : Record :=
  let intent := files.intent.getD .null
  let unknown := files.unknown.map (item · "reason")
  let invocation := files.invocation.map (item · "invocation_id")
  ⟨item intent "request_id", item intent "allocation_digest", bindingDigest sha256 intent, item intent "unit",
    item intent "cgroup", item intent "boot_id", invocation,
    if unknown.isSome then "UNKNOWN" else if invocation.isSome then "INVOCATION_RECORDED" else "INTENT", unknown,
    encode intent⟩

structure Delivery where
  record : Record
  delivered : Bool
  deriving DecidableEq

/-- `_existing` -/
def existing (grouped : Groups) (b : Binding) : Except Fault (Option Files) := do
  let value ← bindingValue sha256 b
  match grouped.lookup b.requestId with
  | none => .ok none
  | some files => do
    require (files.intent = some value) (rejected "REQUEST_CONFLICT")
    return some files

/-- What a call is for. `confirm` and `mark` are the two ways `deliver_once`
goes on after its callback: `read`, and `mark_unknown` with the exception it
raises in the end. -/
inductive Purpose where
  | deliver
  | confirm
  | read
  | remember (kind : Kind) (word : String)
  | mark (raised : Fault)
  deriving DecidableEq

/-- The boot identity and the time a check reads. -/
structure Moment where
  bootId : String
  now : Int

/-- The boot and deadline checks of `deliver_once`. -/
def onTime (b : Binding) (moment : Moment) : Except Fault Unit := do
  require (moment.bootId = b.manifest.bootId) (rejected "BOOT_CHANGED")
  require (b.issuedNs ≤ moment.now && moment.now < b.deadlineNs) (rejected "DEADLINE_EXPIRED")

/-- How the work under the lock goes on: it answers, or creates a file first.
A delivery that has created its intent has no answer yet. -/
inductive Body where
  | answer (delivery : Delivery)
  | create (name : String) (value : Json) (delivery : Option Delivery)

/-- `_remember` -/
def rememberBody (b : Binding) (kind : Kind) (word : String) (grouped : Groups) : Except Fault Body := do
  match ← existing sha256 grouped b with
  | none => .error (rejected "INTENT_REQUIRED")
  | some files =>
    match files.get kind with
    | some value => do
      require (item value kind.field = .str word) (rejected "ORIGINAL_RECORD_CONFLICT")
      return .answer ⟨record sha256 files, false⟩
    | none =>
      let observation : Json := .obj [("binding_digest", .str (record sha256 files).bindingDigest),
        (kind.field, .str word), ("schema", .str (observationSchema kind))]
      return .create (fileName b.requestId kind) observation (some ⟨record sha256 (files.set observation kind), false⟩)

/-- The work of a call on what `_scan` returned. -/
def body (b : Binding) (purpose : Purpose) (moment : Moment) (grouped : Groups) : Except Fault Body :=
  match purpose with
  | .deliver => do
    let value ← bindingValue sha256 b
    match ← existing sha256 grouped b with
    | some files => return .answer ⟨record sha256 files, false⟩
    | none => do
      require (grouped.length < maxIntents) (rejected "JOURNAL_CAPACITY")
      require (grouped.all fun g => item (g.2.intent.getD .null) "allocation_digest" ≠ .str b.allocationDigest)
        (rejected "ALLOCATION_RETAINED")
      require (grouped.all fun g => (resources (g.2.intent.getD .null)).all fun r => !(resources value).contains r)
        (rejected "RESOURCE_RETAINED")
      onTime b moment
      return .create (fileName b.requestId .intent) value none
  | .confirm => do
    match ← existing sha256 grouped b with
    | none => .error (rejected "INTENT_REQUIRED")
    | some files => return .answer ⟨record sha256 files, true⟩
  | .read => do
    match ← existing sha256 grouped b with
    | none => .error (rejected "INTENT_REQUIRED")
    | some files => return .answer ⟨record sha256 files, false⟩
  | .remember kind word => rememberBody sha256 b kind word grouped
  | .mark _ => rememberBody sha256 b .unknown "DELIVERY_UNCERTAIN" grouped

end

/-! ## Calls -/

/-- How far `_create` is. -/
inductive Stage where
  | opening | writing | syncing | linking
  deriving Repr, DecidableEq

/-- Where a call is. `leaving` has left the body of `with self._locked()`; an
`ok none` there is a delivery whose intent is durable, as is `between`. -/
inductive Point where
  | calling
  | checked
  | holding
  | creating (name : String) (value : Json) (delivery : Option Delivery) (stage : Stage)
  | leaving (result : Except Fault (Option Delivery))
  | between
  | delivering

structure Call where
  binding : Binding
  purpose : Purpose
  point : Point

/-- The directory, the one `StartJournal` (`live`: it is constructed) with the
calls on it, and what has happened: the callbacks invoked, the intents created
durably and those a scan returned, the files a crash removed, and the answers. -/
structure State where
  dir : Dir
  live : Bool
  poisoned : Bool
  lock : Option Nat
  calls : Nat → Option Call
  next : Nat
  launched : List (Nat × Binding)
  created : List Json
  accepted : List Json
  lost : List String
  answers : List (Nat × Except Fault Delivery)

/-- An empty control directory, before the journal is constructed. -/
def start : State := ⟨[], false, false, none, fun _ => none, 0, [], [], [], [], []⟩

inductive Event where
  | call (b : Binding) (purpose : Purpose)
  | enter (id : Nat)
  | acquire (id : Nat) (raised : Option Fault)
  | inspect (id : Nat) (moment : Moment) (raised : Option Fault)
  | openFile (id : Nat) (made : Bool) (raised : Option Fault)
  | writeFile (id : Nat) (count : Nat) (raised : Option Fault)
  | syncFile (id : Nat) (raised : Option Fault)
  | syncDirectory (id : Nat) (raised : Option Fault)
  | leave (id : Nat) (raised : Option Fault)
  | launch (id : Nat) (moment : Moment)
  | finish (id : Nat) (raised : Option Fault)
  | restart (raised : Option Fault)
  | crash (keep : String → Option Nat)

section

variable (sha256 : Sha256)

def State.put (s : State) (id : Nat) (c : Call) : State := { s with calls := Function.update s.calls id (some c) }

/-- What the caller gets: `deliver_once` ends with its callback's exception,
whatever `mark_unknown` raised that it may raise. -/
def Purpose.result : Purpose → Except Fault Delivery → Except Fault Delivery
  | .mark raised, .ok _ => .error raised
  | .mark raised, .error .os => .error raised
  | .mark raised, .error (.value _) => .error raised
  | _, result => result

/-- The call returns or raises. -/
def State.done (s : State) (id : Nat) (purpose : Purpose) (result : Except Fault Delivery) : State :=
  { s with calls := Function.update s.calls id none, answers := s.answers ++ [(id, purpose.result result)] }

/-- The part of a call before `_locked`. -/
def arguments (b : Binding) : Purpose → Except Fault Unit
  | .deliver => do
    let _ ← bindingValue sha256 b
  | .remember kind word => do
    let _ ← token (.str word) (wordText kind)
  | _ => .ok ()

/-- A caller calls `deliver_once`, `read`, `remember_invocation` or `mark_unknown`. -/
def call (s : State) (b : Binding) (purpose : Purpose) : State :=
  let s' := { s with next := s.next + 1 }
  match purpose with
  | .confirm | .mark _ | .remember .intent _ => s
  | _ =>
    if s.live then
      match arguments sha256 b purpose with
      | .ok () => s'.put s.next ⟨b, purpose, .calling⟩
      | .error e => s'.done s.next purpose (.error e)
    else s

/-- The check of `_poisoned` in `_locked`. -/
def enter (s : State) (id : Nat) (c : Call) : State :=
  match c.point with
  | .calling =>
    if s.poisoned then s.done id c.purpose (.error (rejected "JOURNAL_UNAVAILABLE"))
    else s.put id { c with point := .checked }
  | _ => s

/-- The thread guard, then the file lock. -/
def acquire (s : State) (id : Nat) (c : Call) (raised : Option Fault) : State :=
  match c.point with
  | .checked =>
    match s.lock with
    | some _ => s.done id c.purpose (.error (rejected "JOURNAL_BUSY"))
    | none =>
      let s' := { s with lock := some id }
      match raised with
      | some e => s'.put id { c with point := .leaving (.error e) }
      | none => s'.put id { c with point := .holding }
  | _ => s

/-- The intents of the groups. -/
def intents (grouped : Groups) : List Json := grouped.filterMap (·.2.intent)

/-- The scan and what follows from it, up to the creation of a file. -/
def inspect (s : State) (id : Nat) (c : Call) (moment : Moment) (raised : Option Fault) : State :=
  match c.point with
  | .holding =>
    match raised, scan sha256 s.dir with
    | some e, _ => s.put id { c with point := .leaving (.error e) }
    | none, .error e => s.put id { c with point := .leaving (.error e) }
    | none, .ok grouped =>
      let s' := { s with accepted := s.accepted ++ intents grouped }
      match body sha256 c.binding c.purpose moment grouped with
      | .error e => s'.put id { c with point := .leaving (.error e) }
      | .ok (.answer delivery) => s'.put id { c with point := .leaving (.ok (some delivery)) }
      | .ok (.create name value delivery) =>
        if (encode value).length ≤ maxFileBytes then s'.put id { c with point := .creating name value delivery .opening }
        else s'.put id { c with point := .leaving (.error (rejected "CONTROL_BYTE_LIMIT")) }
  | _ => s

/-- `_create` failed. -/
def State.spoil (s : State) (id : Nat) (c : Call) (e : Fault) : State :=
  { s with poisoned := true }.put id { c with point := .leaving (.error e) }

/-- `os.open` with `O_CREAT | O_EXCL`; one that raises may have made the file. -/
def openFile (s : State) (id : Nat) (c : Call) (made : Bool) (raised : Option Fault) : State :=
  match c.point with
  | .creating name value delivery .opening =>
    if s.dir.any (·.1 = name) then s.spoil id c .os
    else
      let s' := { s with dir := s.dir ++ [(name, File.mk [] false)] }
      match raised with
      | some e => if made then s'.spoil id c e else s.spoil id c e
      | none => s'.put id { c with point := .creating name value delivery .writing }
  | _ => s

/-- The file of that name gets the contents. -/
def replaceFile (name : String) (file : File) (dir : Dir) : Dir :=
  dir.map fun entry => if entry.1 = name then (name, file) else entry

/-- `os.write` of the first `count` bytes. -/
def writeFile (s : State) (id : Nat) (c : Call) (count : Nat) (raised : Option Fault) : State :=
  match c.point with
  | .creating name value delivery .writing =>
    let s' := { s with dir := replaceFile name ⟨(encode value).take count, false⟩ s.dir }
    match raised with
    | some e => s'.spoil id c e
    | none =>
      if (encode value).length ≤ count then s'.put id { c with point := .creating name value delivery .syncing }
      else s'.spoil id c (rejected "CONTROL_SHORT_WRITE")
  | _ => s

/-- `_file_info`, `os.fsync` and `os.close` of the file. -/
def syncFile (s : State) (id : Nat) (c : Call) (raised : Option Fault) : State :=
  match c.point with
  | .creating name value delivery .syncing =>
    match raised with
    | some e => s.spoil id c e
    | none => s.put id { c with point := .creating name value delivery .linking }
  | _ => s

/-- `os.fsync` of the directory. -/
def syncDirectory (s : State) (id : Nat) (c : Call) (raised : Option Fault) : State :=
  match c.point with
  | .creating name value delivery .linking =>
    match raised with
    | some e => s.spoil id c e
    | none =>
      let s' := { s with dir := replaceFile name ⟨encode value, true⟩ s.dir }
      let s'' := if delivery.isNone then { s' with created := s.created ++ [value], accepted := s.accepted ++ [value] } else s'
      s''.put id { c with point := .leaving (.ok delivery) }
  | _ => s

/-- The end of `_locked`; an uncertain close of the lock poisons the journal. -/
def leave (s : State) (id : Nat) (c : Call) (raised : Option Fault) : State :=
  match c.point with
  | .leaving result =>
    let s' := { s with lock := none }
    match raised, result with
    | some e, _ => { s' with poisoned := true }.done id c.purpose (.error e)
    | none, .error e => s'.done id c.purpose (.error e)
    | none, .ok (some delivery) => s'.done id c.purpose (.ok delivery)
    | none, .ok none => s'.put id { c with point := .between }
  | _ => s

/-- The second boot and deadline check, and the call of the callback. -/
def launch (s : State) (id : Nat) (c : Call) (moment : Moment) : State :=
  match c.point with
  | .between =>
    match onTime c.binding moment with
    | .error e => s.put id { c with purpose := .mark e, point := .calling }
    | .ok () => { s with launched := s.launched ++ [(id, c.binding)] }.put id { c with point := .delivering }
  | _ => s

/-- The callback returns or raises. -/
def finish (s : State) (id : Nat) (c : Call) (raised : Option Fault) : State :=
  match c.point with
  | .delivering =>
    match raised with
    | some e => s.put id { c with purpose := .mark e, point := .calling }
    | none => s.put id { c with purpose := .confirm, point := .calling }
  | _ => s

/-- `StartJournal(...)` -/
def restart (s : State) (raised : Option Fault) : State :=
  if s.live then s
  else
    match raised, scan sha256 s.dir with
    | none, .ok grouped => { s with live := true, poisoned := false, accepted := s.accepted ++ intents grouped }
    | _, _ => s

/-- What a crash leaves of an entry; `none` removes the file. -/
def survive (keep : String → Option Nat) (entry : String × File) : Option (String × File) :=
  if entry.2.durable then some entry
  else (keep entry.1).map fun count => (entry.1, ⟨entry.2.bytes.take count, false⟩)

def crash (s : State) (keep : String → Option Nat) : State :=
  { s with
    dir := s.dir.filterMap (survive keep)
    live := false
    lock := none
    calls := fun _ => none
    lost := s.lost ++ (s.dir.filter fun entry => (survive keep entry).isNone).map (·.1) }

/-- The step of one call; a call that is not there does nothing. -/
def State.of (s : State) (id : Nat) (f : Call → State) : State :=
  match s.calls id with
  | none => s
  | some c => f c

def step (s : State) : Event → State
  | .call b purpose => call sha256 s b purpose
  | .enter id => s.of id (enter s id)
  | .acquire id raised => s.of id (acquire s id · raised)
  | .inspect id moment raised => s.of id (inspect sha256 s id · moment raised)
  | .openFile id made raised => s.of id (openFile s id · made raised)
  | .writeFile id count raised => s.of id (writeFile s id · count raised)
  | .syncFile id raised => s.of id (syncFile s id · raised)
  | .syncDirectory id raised => s.of id (syncDirectory s id · raised)
  | .leave id raised => s.of id (leave s id · raised)
  | .launch id moment => s.of id (launch s id · moment)
  | .finish id raised => s.of id (finish s id · raised)
  | .restart raised => restart sha256 s raised
  | .crash keep => crash s keep

end

end LocalHand.Observer
