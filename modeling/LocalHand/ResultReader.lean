/-
The transport of a helper's result (`result_reader.py`): the child prints a
READY and a RESULT frame on its pipe, and the parent's `PipeReader` decodes
them from whatever pieces the pipe gives.

A call that raises leaves a state too: each returns the state it leaves and
what it raised, if anything.
-/
import LocalHand.Contract
import LocalHand.Lib.Json
import LocalHand.Lib.Framing

namespace LocalHand.ResultReader

open PyJson Framing

variable {F : Type} [DecidableEq F]

def maxResultBytes : Nat := 1024 * 1024
def maxFrameBytes : Nat := maxResultBytes + 8192
def maxReadyBytes : Nat := 4096
def maxTransportBytes : Nat := maxFrameBytes + maxReadyBytes + 8
def maxJsonDepth : Nat := 64
def maxJsonNodes : Nat := 250000

/-- The hexadecimal digest of `sha256`, and how floats print. -/
structure Site (F : Type) where
  sha256 : String → String
  floats : FloatText F

def invalid (message : String) : Fault := .job "IO_UNCERTAIN" message

/-- `unit_name` -/
def unitName (site : Site F) (executionId : String) : String :=
  "lhj-" ++ site.sha256 (executionId ++ ":result_reader") ++ ".service"

/-! ## Invocation identities -/

/-- The members of an invocation identity; `exitCode` is its value where the
identity is a helper's. -/
structure Identity where
  unit : String
  bootId : String
  invocationId : String
  cgroup : String
  exitCode : Option (Option Int)
  deriving Repr, DecidableEq

def identityKeys (helper : Bool) : List String :=
  ["unit", "boot_id", "invocation_id", "cgroup"] ++ if helper then ["exit_code"] else []

/-- `set(value) == keys` -/
def keysAre (fields : List (String × Value F)) (keys : List String) : Bool :=
  keys.all (fun key => (lookup fields key).isSome) && fields.all fun field => keys.contains field.1

/-- `lhj-[0-9a-f]{64}\.service` -/
def isUnit (unit : String) : Bool :=
  let text := unit.toList
  text.take 4 = "lhj-".toList && hexText 64 (String.ofList ((text.drop 4).take 64))
    && text.drop 68 = ".service".toList

/-- The parts of an absolute path that is in `Path` normal form and has no
`..`; two leading slashes are as good as one. -/
def pathParts (path : String) : Option (List (List Char)) :=
  let parts := fun rest : List Char =>
    let parts := rest.splitOn '/'
    if parts.all fun part => part ≠ [] && part ≠ ['.'] && part ≠ ['.', '.'] then some parts else none
  match path.toList with
  | '/' :: '/' :: rest => parts rest
  | '/' :: rest => parts rest
  | _ => none

def isCgroup (cgroup unit : String) : Bool :=
  match pathParts cgroup with
  | some parts => !cgroup.toList.contains '\x00' && cgroup.length ≤ 2048 && parts.getLast? = some unit.toList
  | none => false

def isIdentity (identity : Identity) : Bool :=
  isUnit identity.unit && uuidText identity.bootId && hexText 32 identity.invocationId
    && isCgroup identity.cgroup identity.unit

/-- The exit status of a helper's identity. -/
def exitCode (fields : List (String × Value F)) : Except Fault (Option Int) :=
  match lookup fields "exit_code" with
  | some .null => .ok none
  | some (.int code) => do
    require (0 ≤ code && code < 2 ^ 31) (invalid "Original helper exit status is invalid")
    return some code
  | _ => .error (invalid "Original helper exit status is invalid")

/-- `_identity` -/
def identity (helper : Bool) (value : Value F) : Except Fault Identity :=
  match value with
  | .obj fields => do
    require (keysAre fields (identityKeys helper)) (invalid "Result collection invocation fields are incomplete")
    match lookup fields "unit", lookup fields "boot_id", lookup fields "invocation_id", lookup fields "cgroup" with
    | some (.str unit), some (.str bootId), some (.str invocationId), some (.str cgroup) => do
      require (isIdentity ⟨unit, bootId, invocationId, cgroup, none⟩)
        (invalid "Result collection invocation identity is invalid")
      if helper then do
        let code ← exitCode fields
        return ⟨unit, bootId, invocationId, cgroup, some code⟩
      else return ⟨unit, bootId, invocationId, cgroup, none⟩
    | _, _, _, _ => .error (invalid "Result collection invocation identity is invalid")
  | _ => .error (invalid "Result collection invocation fields are incomplete")

/-! ## Strict JSON -/

/-- The values `_json_data` puts on its stack for one it has popped. -/
def children : Value F → List (Value F)
  | .obj fields => fields.flatMap fun field => [.str field.1, field.2]
  | .arr xs => xs
  | _ => []

/-- The loop of `_json_data`, with the nodes it may still visit. The strings
and floats of a `Value` are already the ones it lets through. -/
def jsonDataFrom : Nat → List (Value F × Nat) → Except Fault Unit
  | _, [] => .ok ()
  | 0, _ => .error (invalid "Result JSON complexity exceeds its fixed bound")
  | n + 1, (item, depth) :: pending =>
    if depth > maxJsonDepth then .error (invalid "Result JSON complexity exceeds its fixed bound")
    else jsonDataFrom n (((children item).map fun child => (child, depth + 1)).reverse ++ pending)

/-- `_json_data` -/
def jsonData (value : Value F) : Except Fault Unit := jsonDataFrom maxJsonNodes [(value, 0)]

/-- `raw.decode("utf-8", "strict")` -/
def decodeText (raw : Bytes) : Option (List Char) := raw.toByteArray.utf8Decode?.map Array.toList

/-- `text.encode("utf-8", "strict")` -/
def encodeText (text : List Char) : Bytes := text.flatMap String.utf8EncodeChar

theorem encodeText_length_le (text : List Char) : (encodeText text).length ≤ 4 * text.length := by
  induction text with
  | nil => simp [encodeText]
  | cons c text ih =>
    have hc := Char.utf8Size_le_four c
    have hlen : (String.utf8EncodeChar c).length = c.utf8Size := String.length_utf8EncodeChar c
    simp only [encodeText, List.flatMap_cons, List.length_append, List.length_cons] at ih ⊢
    omega

/-- `_strict_json` -/
def strictJson (site : Site F) (raw : Bytes) (maximum : Nat) : Except Fault (Value F) := do
  require (raw.length ≤ maximum) (invalid "Result JSON exceeds its fixed byte bound")
  match (decodeText raw).bind (loads site.floats) with
  | none => .error (invalid "Result JSON is invalid")
  | some value => do
    jsonData value
    return value

/-- `json.dumps` with `ensure_ascii=False`, encoded. -/
def dumpBytes (site : Site F) (value : Value F) : Except Fault Bytes :=
  match dumps site.floats false value with
  | none => .error (.value "Exceeds the limit for integer string conversion")
  | some text => .ok (encodeText text)

def isBool : Option (Value F) → Bool
  | some (.bool _) => true
  | _ => false

def isObj : Option (Value F) → Bool
  | some (.obj _) => true
  | _ => false

/-- `_result` -/
def result (site : Site F) (value : Value F) (executionId phase : String) : Except Fault (Value F) := do
  require (isObj (some value) && value.get? "execution_id" = some (.str executionId)
      && value.get? "phase" = some (.str phase)
      && ["SUCCEEDED", "FAILED", "CANCELLED", "UNKNOWN"].any (fun outcome => value.get? "outcome" = some (.str outcome))
      && isBool (value.get? "effects_checked") && isObj (value.get? "facts"))
    (invalid "Result identity or required fields differ from the original helper")
  let encoded ← dumpBytes site value
  require (encoded.length ≤ maxResultBytes) (invalid "Result metadata exceeds its fixed byte bound")
  return value

/-- The bound a frame's type sets on its bytes. -/
def maximumOf (frame : Value F) : Except Fault Nat :=
  match frame.get? "type" with
  | none => .error (.key "type")
  | some type => .ok (if type = .str "READY" then maxReadyBytes else maxFrameBytes)

/-- The checked and encoded frame, with every failure under one message. -/
def encodeFrame (site : Site F) (frame : Value F) : Except Fault Bytes :=
  match jsonData frame with
  | .error fault => .error fault
  | .ok () =>
    match dumpBytes site frame with
    | .error _ => .error (invalid "Result transport JSON is invalid")
    | .ok raw => .ok raw

/-- `_frame_bytes` -/
def frameBytes (site : Site F) (frame : Value F) : Except Fault Bytes := do
  let raw ← encodeFrame site frame
  let maximum ← maximumOf frame
  require (raw.length ≤ maximum) (invalid "Result transport frame exceeds its fixed bound")
  return Framing.frame raw

/-! ## The reader -/

/-- What `PipeReader.__init__` keeps, with what it has checked. -/
structure Config (site : Site F) where
  executionId : String
  phase : Phase
  helper : Identity
  executionId_length : 1 ≤ executionId.length ∧ executionId.length ≤ 256
  phase_runs : phase ∈ [.preflight, .business, .reconcile, .evidence]
  helper_valid : ∃ value : Value F, identity true value = .ok helper
  helper_unit : helper.unit = "lhj-" ++ site.sha256 executionId ++ ".service"

/-- `reader_unit`, which the constructor compares with `unit_name`. -/
def Config.readerUnit {site : Site F} (cfg : Config site) : String := unitName site cfg.executionId

/-- The members of a `PipeReader` that change. -/
structure State (F : Type) where
  buffer : Bytes
  total : Nat
  frames : Nat
  failed : Bool
  finished : Bool
  readerIdentity : Option Identity
  boundIdentity : Option Identity
  candidate : Option (Value F)

def State.start : State F := ⟨[], 0, 0, false, false, none, none, none⟩

/-- `complete` -/
def State.complete (s : State F) : Bool := s.frames = 2 && !s.failed && s.buffer = []

/-- `result` -/
def State.result (s : State F) : Option (Value F) := if s.finished && !s.failed then s.candidate else none

/-- `_reject` -/
def State.reject (s : State F) (message : String) : State F × Option Fault :=
  ({ s with failed := true, candidate := none, buffer := [] }, some (invalid message))

variable {site : Site F} (cfg : Config site)

/-- `{"unit": self.reader_unit, **observed}`; a value that is no dict is no mapping. -/
def withUnit (observed : Value F) : Option (Value F) :=
  match observed with
  | .obj fields =>
    some (.obj (if (lookup fields "unit").isSome then fields else ("unit", .str cfg.readerUnit) :: fields))
  | _ => none

/-- `bind_reader` -/
def bindReader (s : State F) (observed : Value F) : State F × Option Fault :=
  match withUnit cfg observed with
  | none => s.reject "Observed result reader identity is invalid"
  | some value =>
    match identity false value with
    | .error _ => s.reject "Observed result reader identity is invalid"
    | .ok bound =>
      if bound.unit ≠ cfg.readerUnit ∨ bound.bootId ≠ cfg.helper.bootId
          ∨ s.boundIdentity ∉ [none, some bound] ∨ s.readerIdentity ∉ [none, some bound] then
        s.reject "Observed result reader invocation differs from the result transport"
      else if s.failed then s.reject "Result transport was already rejected"
      else ({ s with boundIdentity := some bound }, none)

/-- The members of a frame, `result` among them in the second. -/
def frameKeys (frames : Nat) : List String :=
  ["version", "type", "execution_id", "phase", "reader_identity", "helper_identity"]
    ++ if frames = 1 then ["result"] else []

def frameType (frames : Nat) : String := if frames = 0 then "READY" else "RESULT"

def frameMaximum (frames : Nat) : Nat := if frames = 0 then maxReadyBytes else maxFrameBytes

/-- The identity in a member of a frame. -/
def identityAt (helper : Bool) (fields : List (String × Value F)) (key : String) : Except Fault Identity :=
  match lookup fields key with
  | none => .error (.key key)
  | some value => identity helper value

/-- The fields of a frame, checked against its place and the execution. -/
def checkFrame (frames : Nat) (frame : Value F) : Except Fault (List (String × Value F)) :=
  match frame with
  | .obj fields => do
    require (keysAre fields (frameKeys frames) && lookup fields "version" = some (.int 1)
        && lookup fields "type" = some (.str (frameType frames))
        && lookup fields "execution_id" = some (.str cfg.executionId)
        && lookup fields "phase" = some (.str cfg.phase.text))
      (invalid "Result transport frame identity, fields or order differs")
    let helper ← identityAt true fields "helper_identity"
    require (helper = cfg.helper) (invalid "Result transport frame identity, fields or order differs")
    return fields
  | _ => .error (invalid "Result transport frame identity, fields or order differs")

/-- The reader's identity in a frame, checked against the ones known so far. -/
def checkReader (s : State F) (fields : List (String × Value F)) : Except Fault Identity := do
  let reader ← identityAt false fields "reader_identity"
  require (reader.unit = cfg.readerUnit && reader.bootId = cfg.helper.bootId
      && (s.readerIdentity = none || s.readerIdentity = some reader)
      && (s.boundIdentity = none || s.boundIdentity = some reader))
    (invalid "Result transport reader invocation differs")
  return reader

/-- The result of the second frame. -/
def checkResult (fields : List (String × Value F)) : Except Fault (Value F) :=
  match lookup fields "result" with
  | none => .error (.key "result")
  | some value => result site value cfg.executionId cfg.phase.text

/-- One whole frame, already out of the buffer. -/
def takeFrame (s : State F) (raw : Bytes) : State F × Option Fault :=
  match strictJson site raw (frameMaximum s.frames) >>= checkFrame cfg s.frames with
  | .error fault => (s, some fault)
  | .ok fields =>
    match checkReader cfg s fields with
    | .error fault => (s, some fault)
    | .ok reader =>
      let s := { s with readerIdentity := some reader }
      if s.frames = 1 then
        match checkResult cfg fields with
        | .error fault => (s, some fault)
        | .ok value => ({ s with candidate := some value, frames := s.frames + 1 }, none)
      else ({ s with frames := s.frames + 1 }, none)

/-- The loop of `feed`. Each turn but the last takes a frame, and the turn after
the second frame rejects whatever follows, so three turns are enough. -/
def takeFrames : Nat → State F → State F × Option Fault
  | 0, s => (s, none)
  | n + 1, s =>
    if s.buffer = [] then (s, none)
    else if s.frames = 2 then s.reject "Result transport contains an extra frame or trailing bytes"
    else if s.buffer.length < 4 then (s, none)
    else
      let size := readSize s.buffer
      if ¬ (0 < size ∧ size ≤ frameMaximum s.frames) then s.reject "Result transport frame length is invalid"
      else if s.buffer.length < size + 4 then (s, none)
      else
        match takeFrame cfg { s with buffer := s.buffer.drop (size + 4) } ((s.buffer.drop 4).take size) with
        | (s, none) => takeFrames n s
        | (s, some fault) => (s, some fault)

/-- `type(error).__name__` -/
def errorName : Fault → String
  | .value _ => "ValueError"
  | .key _ => "KeyError"
  | _ => "JobError"

/-- `feed` -/
def feed (s : State F) (data : Bytes) : State F × Option Fault :=
  if s.failed ∨ s.finished then s.reject "Result transport received invalid or late bytes"
  else if s.total + data.length > maxTransportBytes then s.reject "Result transport exceeds its total byte bound"
  else
    match takeFrames cfg 3 { s with total := s.total + data.length, buffer := s.buffer ++ data } with
    | (s, none) => (s, none)
    | (s, some fault) => s.reject ("Result transport was rejected: " ++ errorName fault)

/-- `finish` -/
def finish (s : State F) : State F × Option Fault :=
  if ¬ s.complete ∨ s.boundIdentity = none ∨ s.boundIdentity ≠ s.readerIdentity then
    s.reject "Result transport is incomplete or its original reader is unverified"
  else ({ s with finished := true }, none)

/-- A call before `finish`; every `bind` passes the one observed identity. -/
inductive Op where
  | feed (data : Bytes)
  | bind
  deriving Repr, DecidableEq

def step (observed : Value F) (s : State F) : Op → State F
  | .feed data => (feed cfg s data).1
  | .bind => (bindReader cfg s observed).1

/-- The reader after the calls and `finish`, whatever they raised. -/
def run (observed : Value F) (ops : List Op) : State F :=
  (finish (ops.foldl (step cfg observed) .start)).1

/-- The stream the calls feed. -/
def stream (ops : List Op) : Bytes :=
  ops.flatMap fun op => match op with
    | .feed data => data
    | .bind => []

/-! ## The child's frames -/

/-- An identity as the dict it came from. -/
def Identity.value (i : Identity) : Value F :=
  .obj ([("boot_id", .str i.bootId), ("cgroup", .str i.cgroup)]
    ++ (match i.exitCode with
      | none => []
      | some none => [("exit_code", .null)]
      | some (some code) => [("exit_code", .int code)])
    ++ [("invocation_id", .str i.invocationId), ("unit", .str i.unit)])

/-- The READY frame of `run`. -/
def readyFrame (reader : Identity) : Value F :=
  .obj [("execution_id", .str cfg.executionId), ("helper_identity", cfg.helper.value),
    ("phase", .str cfg.phase.text), ("reader_identity", reader.value), ("type", .str "READY"), ("version", .int 1)]

/-- The RESULT frame of `run`. -/
def resultFrame (reader : Identity) (value : Value F) : Value F :=
  .obj [("execution_id", .str cfg.executionId), ("helper_identity", cfg.helper.value),
    ("phase", .str cfg.phase.text), ("reader_identity", reader.value), ("result", value), ("type", .str "RESULT"),
    ("version", .int 1)]

end LocalHand.ResultReader
