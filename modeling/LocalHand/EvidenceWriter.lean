/-
The bounded writer of an evidence download (`BoundedFileWriter` of
`evidence_client.py`): one download directory with its binding, its partial
data, its checkpoint journal and, once published, its final file.

A call writes in steps, and a crash may fall before each of them (`budget`
counts the steps it still takes). What was written to a file but not yet synced
may lose any of its end; a directory entry not yet synced may be gone, and the
directory with all its files until its own entry is synced. The private directory
is changed by the writer only, so the checks that its members were not replaced
pass.
-/
import LocalHand.StrictJson
import LocalHand.Lib.Program

namespace LocalHand.EvidenceWriter

open PyJson ResultReader Program
open Framing (Bytes)

variable {F : Type} [DecidableEq F]

def defaultChunk : Nat := 64 * 1024
def maxChunk : Nat := 256 * 1024
def maxJournal : Nat := 4 * 1024 * 1024

/-- `EvidenceError("CONFLICT", message)` -/
def conflict (message : String) : Fault := .job "CONFLICT" message

/-- How the host hashes, prints and compares, and the writer's `max_bytes`,
which its constructor checks. -/
structure Host (F : Type) where
  sha256 : Sha256
  floats : FloatText F
  intOf : F → Option Int
  maxBytes : Nat
  bounded : 0 < maxBytes ∧ (maxBytes : Int) ≤ maxSafeInteger

/-! ## Descriptors -/

structure Descriptor where
  artifactId : String
  role : String
  size : Nat
  sha256 : String
  deriving Repr, DecidableEq

/-- A character of a member name. -/
def memberChar (c : Char) : Bool := c.isAlphanum || c = '.' || c = '_' || c = '/' || c = '-'

/-- `_safe_name` -/
def safeName (name : String) : Bool :=
  name ≠ "" && name.toList.length ≤ 240 && name.toList.all memberChar
    && (name.toList.splitOn '/').all fun part => part ≠ [] && part ≠ ['.'] && part ≠ ['.', '.']

/-- `name.rpartition(".")[2]` -/
def afterDot (name : String) : String := String.ofList (name.toList.reverse.takeWhile (· ≠ '.')).reverse

/-- `_descriptor` -/
def descriptor (artifact : Value F) (maximum : Nat) : Except Fault Descriptor :=
  match artifact.get? "artifact_id", artifact.get? "role", artifact.get? "size", artifact.get? "sha256" with
  | some (.str artifactId), some (.str role), some (.int size), some (.str sha256) => do
    require (["zip", "manifest", "seal"].contains role && 0 ≤ size && size ≤ maximum && hexText 64 sha256)
      (conflict "invalid evidence descriptor")
    require (safeName artifactId) (conflict "unsafe evidence member")
    require (!artifactId.toList.contains '/' && afterDot artifactId = role) (conflict "invalid artifact identifier")
    return ⟨artifactId, role, size.toNat, sha256⟩
  | _, _, _, _ => .error (conflict "invalid evidence descriptor")

/-- The dict of a descriptor. -/
def Descriptor.value (d : Descriptor) : Value F :=
  .obj [("artifact_id", .str d.artifactId), ("role", .str d.role), ("sha256", .str d.sha256), ("size", .int d.size)]

/-! ## Files -/

/-- `synced`: the leading bytes on stable storage; `entry`: so is the name. -/
structure File where
  bytes : Bytes
  synced : Nat
  entry : Bool
  deriving Repr, DecidableEq

def File.empty : File := ⟨[], 0, false⟩

def File.sync (file : File) : File := { file with synced := file.bytes.length }

def File.append (file : File) (data : Bytes) : File := { file with bytes := file.bytes ++ data }

def File.truncate (file : File) (size : Nat) : File :=
  { file with bytes := file.bytes.take size, synced := min file.synced size }

/-- `data` is `partial.bin`, `final` the published file; `entry`: the directory's
own name is on stable storage. -/
structure Disk where
  binding : Option File
  data : Option File
  checkpoints : Option File
  final : Option File
  entry : Bool
  deriving Repr, DecidableEq

/-- The in-memory writer after `prepare`; `hashed` is what `_digest` was fed. -/
structure Writer where
  artifact : Descriptor
  completed : Bool
  offset : Nat
  hashed : Bytes
  isOpen : Bool
  deriving Repr, DecidableEq

/-- `fed` are the data bytes given to the directory so far, up to the offset
the last `prepare` returned and what was written after it. -/
structure State where
  disk : Disk
  writer : Option Writer
  fed : Bytes
  deriving Repr, DecidableEq

inductive Stop where
  | raised (fault : Fault)
  | crashed
  deriving Repr, DecidableEq

structure World where
  state : State
  budget : Nat

abbrev Op := Prog World Stop

/-- One step that reaches the disk. -/
def effect (f : State → State) : Op Unit := do
  let w ← get
  match w.budget with
  | 0 => throw .crashed
  | n + 1 => set (World.mk (f w.state) n)

/-- A change of the writer in memory. -/
def update (f : Writer → Writer) : Op Unit :=
  modify fun w => { w with state := { w.state with writer := w.state.writer.map f } }

def state : Op State := do return (← get).state

def lift {α : Type} : Except Fault α → Op α
  | .ok a => pure a
  | .error e => throw (.raised e)

def onDisk (f : Disk → Disk) : Op Unit := effect fun s => { s with disk := f s.disk }

/-! ## Metadata -/

section

variable (host : Host F)

def hash (raw : Bytes) : String := host.sha256.hexdigest raw

/-- `_json` of what prints. -/
def json (value : Value F) : Bytes := encodeText (dump host.floats true value)

/-- `_decode_json`; only UTF-8 is read, and a repeated key is not told apart. -/
def decodeJson (raw : Bytes) : Except Fault (List (String × Value F)) :=
  match (decodeText raw).bind (loads host.floats) with
  | some (.obj fields) => .ok fields
  | _ => .error (conflict "invalid evidence metadata")

/-- `_regular`, of a file of the owner's. -/
def regular (file : File) (maximum : Nat) : Except Fault Unit :=
  require (file.bytes.length ≤ maximum) (conflict "evidence member type, ownership or size changed")

/-- `_verify_descriptor` -/
def verify (d : Descriptor) (file : File) : Except Fault Unit := do
  regular file host.maxBytes
  require (file.bytes.length ≤ d.size) (conflict "download exceeded expected size")
  require (file.bytes.length = d.size && hash host file.bytes = d.sha256)
    (conflict "download size or complete digest mismatch")

/-- The binding file, created or compared. -/
def bindArtifact (d : Descriptor) : Op Unit := do
  match (← state).disk.binding with
  | some file => do
    lift (regular file defaultChunk)
    let fields ← lift (decodeJson host file.bytes)
    lift (require (Value.same host.intOf (.obj fields) d.value) (conflict "writer binding changed"))
  | none => do
    onDisk fun disk => { disk with binding := some File.empty }
    onDisk fun disk => { disk with binding := disk.binding.map (·.append (json host d.value)) }
    onDisk fun disk => { disk with binding := disk.binding.map File.sync }

/-- The part of the journal up to its last newline. -/
def completePart (journal : Bytes) : Bytes := (journal.reverse.dropWhile (· ≠ 10)).reverse

/-- `bytes.splitlines` -/
def splitLines : Bytes → List Bytes
  | [] => []
  | 10 :: rest => [] :: splitLines rest
  | 13 :: 10 :: rest => [] :: splitLines rest
  | 13 :: rest => [] :: splitLines rest
  | b :: rest =>
    match splitLines rest with
    | [] => [[b]]
    | line :: lines => (b :: line) :: lines

/-- A checkpoint: its offset, and whatever it has as the digest. -/
abbrev Checkpoint (F : Type) := Nat × Value F

/-- The loop over the journal's lines. -/
def replay (size : Nat) : List Bytes → Checkpoint F → Except Fault (Checkpoint F)
  | [], checkpoint => .ok checkpoint
  | line :: lines, checkpoint => do
    let fields ← decodeJson host line
    match lookup fields "offset", lookup fields "sha256" with
    | some (.int offset), some sha256 => do
      require (fields.length = 2 && 0 ≤ offset && offset ≤ size && checkpoint.1 < offset)
        (conflict "invalid evidence checkpoint sequence")
      replay size lines (offset.toNat, sha256)
    | _, _ => .error (conflict "invalid evidence checkpoint sequence")

def checkpointLine (offset : Nat) (hashed : Bytes) : Bytes :=
  json host (.obj [("offset", .int offset), ("sha256", .str (hash host hashed))]) ++ [10]

/-- `os.open` with `O_CREAT`. -/
def ensure (get : Disk → Option File) (make : Disk → Disk) : Op File := do
  match get (← state).disk with
  | some file => return file
  | none => do
    onDisk make
    return File.empty

/-- The directory's entries are synced. -/
def Disk.link (disk : Disk) : Disk :=
  let named (file : File) : File := { file with entry := true }
  ⟨disk.binding.map named, disk.data.map named, disk.checkpoints.map named, disk.final.map named, disk.entry⟩

/-- `prepare` of a download that is not published yet. -/
def resume (d : Descriptor) : Op Nat := do
  let data ← ensure Disk.data fun disk => { disk with data := some File.empty }
  lift (regular data host.maxBytes)
  let journal ← ensure Disk.checkpoints fun disk => { disk with checkpoints := some File.empty }
  lift (regular journal maxJournal)
  let complete := completePart journal.bytes
  let checkpoint ← lift (replay host d.size (splitLines complete) (0, .str (hash host [])))
  let offset := checkpoint.1
  lift (require (offset ≤ data.bytes.length) (conflict "evidence partial file is truncated"))
  lift (require (.str (hash host (data.bytes.take offset)) = checkpoint.2) (conflict "evidence checkpoint digest mismatch"))
  onDisk fun disk => { disk with data := disk.data.map (·.truncate offset) }
  onDisk fun disk => { disk with checkpoints := disk.checkpoints.map (·.truncate complete.length) }
  onDisk Disk.link
  modify fun w => { w with state := { w.state with
    writer := some ⟨d, false, offset, data.bytes.take offset, true⟩
    fed := w.state.fed.take offset } }
  return offset

/-- `prepare` -/
def prepare (artifact : Value F) : Op Nat := do
  match (← state).writer with
  | some _ => throw (.raised (conflict "writer is already active"))
  | none => do
    let d ← lift (descriptor artifact host.maxBytes)
    bindArtifact host d
    match (← state).disk.final with
    | some final => do
      lift (verify host d final)
      modify fun w => { w with state := { w.state with writer := some ⟨d, true, d.size, [], false⟩ } }
      return d.size
    | none => resume host d

/-- `write` -/
def write (offset : Nat) (data : Bytes) : Op Unit := do
  let s ← state
  match s.writer, s.disk.data, s.disk.checkpoints with
  | some w, some file, some journal => do
    lift (require (w.isOpen && !w.completed && offset = w.offset && 0 < data.length && data.length ≤ maxChunk
      && offset + data.length ≤ w.artifact.size) (conflict "invalid bounded evidence write"))
    lift (regular file host.maxBytes)
    lift (require (file.bytes.length = offset) (conflict "partial evidence changed"))
    effect fun s => { s with disk := { s.disk with data := s.disk.data.map (·.append data) }, fed := s.fed ++ data }
    onDisk fun disk => { disk with data := disk.data.map File.sync }
    update fun w => { w with offset := w.offset + data.length, hashed := w.hashed ++ data }
    let line := checkpointLine host (offset + data.length) (w.hashed ++ data)
    lift (require (journal.bytes.length + line.length ≤ maxJournal)
      (.job "LIMIT_EXCEEDED" "checkpoint journal budget exceeded"))
    onDisk fun disk => { disk with checkpoints := disk.checkpoints.map (·.append line) }
    onDisk fun disk => { disk with checkpoints := disk.checkpoints.map File.sync }
  | _, _, _ => throw (.raised (conflict "invalid bounded evidence write"))

/-- `finish`; it returns the bytes of the file it names. The validator sees the
bytes and raises or not. -/
def finish (validator : Bytes → Option Fault) : Op Bytes := do
  let s ← state
  match s.writer with
  | none => throw (.raised (conflict "evidence download is incomplete"))
  | some w => do
    lift (require (w.offset = w.artifact.size) (conflict "evidence download is incomplete"))
    match if w.completed then s.disk.final else s.disk.data with
    | none => throw (.raised (conflict "evidence writer binding unavailable"))
    | some file => do
      lift (verify host w.artifact file)
      match validator file.bytes with
      | some fault => throw (.raised fault)
      | none => do
        if !w.completed then do
          lift (require s.disk.final.isNone .os)
          onDisk fun disk => { disk with data := none, final := disk.data.map fun file => { file with entry := false } }
          update fun w => { w with completed := true, isOpen := false }
        match (← state).disk.final with
        | none => throw (.raised .os)
        | some final => do
          lift (verify host w.artifact final)
          onDisk fun disk => { disk with final := disk.final.map File.sync }
          onDisk Disk.link
          onDisk fun disk => { disk with entry := true }
          lift (verify host w.artifact final)
          return final.bytes

end

/-! ## Crashes and runs -/

/-- What a crash leaves of the directory and of each file: how many bytes, or no
name. -/
structure Left where
  directory : Bool
  binding : Option Nat
  data : Option Nat
  checkpoints : Option Nat
  final : Option Nat
  deriving Repr, DecidableEq

/-- At least what was synced survives; a synced name does too. -/
def File.survive (file : File) (left : Option Nat) : Option File :=
  let bytes := file.bytes.take (max file.synced (left.getD 0))
  if file.entry || left.isSome then some ⟨bytes, bytes.length, true⟩ else none

/-- An empty directory. -/
def Disk.empty : Disk := ⟨none, none, none, none, false⟩

/-- A publication that was not synced may be undone. -/
def Disk.crash (disk : Disk) (left : Left) : Disk :=
  if disk.entry || left.directory then
    let binding := disk.binding.bind (·.survive left.binding)
    let checkpoints := disk.checkpoints.bind (·.survive left.checkpoints)
    match disk.final with
    | some final =>
      match final.survive left.final with
      | some file => ⟨binding, disk.data.bind (·.survive left.data), checkpoints, some file, true⟩
      | none => ⟨binding, { final with entry := true }.survive left.data, checkpoints, none, true⟩
    | none => ⟨binding, disk.data.bind (·.survive left.data), checkpoints, none, true⟩
  else Disk.empty

def State.crash (s : State) (left : Left) : State := ⟨s.disk.crash left, none, s.fed⟩

def start : State := ⟨Disk.empty, none, []⟩

/-- The calls on a directory; `budget` steps of one are taken, then it crashes. -/
inductive Event (F : Type) where
  | prepare (artifact : Value F) (budget : Nat) (left : Left)
  | write (offset : Nat) (data : Bytes) (budget : Nat) (left : Left)
  | finish (validator : Bytes → Option Fault) (budget : Nat) (left : Left)
  | close
  | crash (left : Left)

def settle {α : Type} (left : Left) (out : Except Stop α × World) : State :=
  match out.1 with
  | .error .crashed => out.2.state.crash left
  | _ => out.2.state

def step (host : Host F) (s : State) : Event F → State
  | .prepare artifact budget left => settle left ((prepare host artifact).from ⟨s, budget⟩)
  | .write offset data budget left => settle left ((write host offset data).from ⟨s, budget⟩)
  | .finish validator budget left => settle left ((finish host validator).from ⟨s, budget⟩)
  | .close => { s with writer := none }
  | .crash left => s.crash left

end LocalHand.EvidenceWriter
