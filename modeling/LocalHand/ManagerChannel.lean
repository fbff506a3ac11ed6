/-
The inherited controller channel of the system manager
(`system_manager_protocol.py`): one outstanding call, and no exchange after an
uncertain one.

A channel keeps its counters and flags; what a call meets outside of it is in
`Meeting`. The messages a channel has put on the wire are kept beside it.
-/
import LocalHand.QuotaContract
import LocalHand.Lib.Program
import LocalHand.Lib.Run

namespace LocalHand.SystemManager

open PyJson ResultReader QuotaContract Program
open Framing (Bytes)

def schema : String := "local-hand-q2-system-manager/v1"
def requestLimit : Nat := 65536
def replyLimit : Nat := 32768
def wireLimit : Nat := 4 * 1024 * 1024
def callLimit : Nat := 256
def phases : List String := ["preflight", "business", "evidence"]
def stages : List String := ["bootstrap", "helper", "result_reader"]
def recoveryPlanSchema : String := "local-hand-q4-h11-recovery-plan/v1"
def ops : List String :=
  ["support", "inventory", "observe", "stop", "launch", "client_poll", "client_stop", "seal", "recovery_arm",
    "recovery_finish"]

variable {F : Type}

/-! ## Bodies -/

/-- `[A-Za-z0-9][A-Za-z0-9._:-]{0,127}` -/
def executionText (s : String) : Bool :=
  match s.toList with
  | c :: rest => c.isAlphanum && rest.length ≤ 127
      && rest.all fun d => d.isAlphanum || d = '.' || d = '_' || d = ':' || d = '-'
  | [] => false

/-- `[0-9a-f-]{36}` -/
def operationText (s : String) : Bool := s.toList.length = 36 && s.toList.all fun c => isLowerHex c || c = '-'

def isOneOf (value : Value F) (names : List String) : Bool :=
  match value with
  | .str s => names.contains s
  | _ => false

/-- `reference` -/
def reference (value : Value F) : Except Fault Unit := do
  let fields ← keys value ["execution_id", "phase", "stage"]
  matchText (item fields "execution_id") executionText
  require (isOneOf (item fields "phase") phases && isOneOf (item fields "stage") stages) (quotaError "SYSTEM_STAGE")

def unrecovered : Fault := quotaError "SYSTEM_RECOVERY_PLAN"

/-- The execution id of a recovery plan's operation and phase. -/
def recoveryExecution (operation phase : Value F) : Value F :=
  match operation, phase with
  | .str operation, .str phase => .str ("job-" ++ operation ++ "-" ++ phase)
  | _, _ => .null

/-- `recovery_plan` -/
def recoveryPlan (value : Value F) : Except Fault Unit := do
  let fields ← keys value ["schema", "namespace", "operation_id", "request_digest", "phase", "execution_id", "event_seq",
    "handle_sha256", "budget_deadline_ns", "phase_deadline_ns", "controller_deadline_ns", "units", "collector_started"]
  require (isOneOf (item fields "schema") [recoveryPlanSchema] && isOneOf (item fields "namespace") ["job"]) unrecovered
  matchText (item fields "operation_id") operationText
  matchText (item fields "request_digest") (hexText 64)
  require (isOneOf (item fields "phase") phases) unrecovered
  match item fields "execution_id", recoveryExecution (item fields "operation_id") (item fields "phase") with
  | .str id, .str expected => require (id = expected) unrecovered
  | _, _ => .error unrecovered
  let _ ← integer (item fields "event_seq") 1 maxInteger
  matchText (item fields "handle_sha256") (hexText 64)
  let budget ← integer (item fields "budget_deadline_ns") 1 maxInteger
  let phase ← integer (item fields "phase_deadline_ns") 1 maxInteger
  let _ ← integer (item fields "controller_deadline_ns") budget maxInteger
  match item fields "collector_started" with
  | .bool started => require (phase ≤ budget && !started) unrecovered
  | _ => .error unrecovered
  let units ← keys (item fields "units") stages
  units.forM fun unit => matchText unit.2 isUnit
  require ((units.map fun unit => match unit.2 with
    | .str s => s
    | _ => "").Nodup) unrecovered

/-- The fields of a request's body. -/
def bodyFields (op : String) : List String :=
  if op = "observe" then ["ref", "view"]
  else if op = "stop" then ["ref", "invocation_id"]
  else if op = "launch" then ["ref", "bindings"]
  else if op = "client_poll" ∨ op = "client_stop" ∨ op = "seal" then ["ref", "token"]
  else if op = "recovery_arm" then ["plan"]
  else []

/-- `request_body` -/
def requestBody (op : String) (body : Value F) : Except Fault Unit := do
  require (ops.contains op) (quotaError "SYSTEM_OPERATION")
  let fields ← keys body (bodyFields op)
  match lookup fields "ref" with
  | some ref => reference ref
  | none => .ok ()
  if op = "observe" then
    require (isOneOf (item fields "view") ["full", "invocation", "identity"]) (quotaError "SYSTEM_VIEW")
  else if op = "stop" then matchText (item fields "invocation_id") (hexText 32)
  else if op = "launch" then do
    let bindings ← keys (item fields "bindings") ["allocation_digest", "grant_digest"]
    bindings.forM fun binding => matchText binding.2 (hexText 64)
  else if op = "recovery_arm" then recoveryPlan (item fields "plan")
  else .ok ()
  match lookup fields "token" with
  | some token => matchText token (hexText 64)
  | none => .ok ()

/-! ## The wire -/

/-- A file behind a descriptor: its device and inode, and whether it is the
read-only end of an anonymous pipe. -/
structure Descriptor where
  pin : Nat × Nat
  readonlyPipe : Bool
  deriving Repr, DecidableEq

/-- `readonly_pipe` of each, all different. -/
def pins (fds : List Descriptor) : Except Fault Unit := do
  fds.forM fun fd => require fd.readonlyPipe (quotaError "SYSTEM_READONLY_PIPE")
  require ((fds.map Descriptor.pin).Nodup) (quotaError "SYSTEM_PIPE_ALIAS")

/-- What a packet carries. -/
structure Message (F : Type) where
  session : String
  sequence : Nat
  op : Value F
  body : Value F
  rights : List Descriptor

/-- The dict of a packet, in key order. -/
def Message.envelope (m : Message F) : Value F :=
  .obj [("body", m.body), ("op", m.op), ("schema", .str schema), ("sequence", .int m.sequence),
    ("session_id", .str m.session)]

/-- What `recvmsg` hands over: `fromPeer` says that the kernel's credentials are
the peer's, `malformed` that some other ancillary data came along. -/
structure Delivery where
  raw : Bytes
  fromPeer : Bool
  truncated : Bool
  malformed : Bool
  rights : List Descriptor

/-- The channel hands over a message the peer has put on the wire, whichever and
however often, something of another sender, or nothing in time. -/
inductive Arrival where
  | message (index : Nat)
  | foreign (raw : Bytes) (truncated malformed : Bool) (rights : List Descriptor)
  | nothing (fault : Fault)

/-- Whether a packet is on the wire when `sendmsg` has been called or the wait for
it has ended. -/
inductive Sending where
  | done
  | lost (fault : Fault)
  | kept (fault : Fault)

/-- What a call meets: the checks of `_time` before anything else, the sending, the
arrival and the checks of `_time` after it. -/
structure Meeting where
  early : Option Fault
  sending : Sending
  arrival : Arrival
  late : Option Fault

/-! ## The channel -/

structure Channel where
  session : String
  sequence : Nat
  total : Nat
  pending : Option String
  poisoned : Bool
  deriving Repr, DecidableEq

/-- A channel and what it has put on the wire. -/
structure Party (F : Type) where
  channel : Channel
  sent : List (Message F)

abbrev Op (F : Type) := Prog (Party F) Fault

def raise {α : Type} (fault : Fault) : Op F α := throw fault

def lift {α : Type} : Except Fault α → Op F α
  | .ok a => pure a
  | .error fault => throw fault

def channel : Op F Channel := do return (← get).channel

def update (f : Channel → Channel) : Op F Unit := modify fun p => { p with channel := f p.channel }

/-- `_time`: the peer, the clock and the socket are outside of the channel. -/
def time (outside : Option Fault) : Op F Unit := do
  lift (require (!(← channel).poisoned) (quotaError "SYSTEM_CHANNEL_UNAVAILABLE"))
  match outside with
  | some fault => raise fault
  | none => return

/-- `_charge` -/
def charge (raw : Bytes) (fds : List Descriptor) : Op F Unit := do
  update fun c => { c with total := c.total + (raw.length + 12 + 4 * fds.length) }
  lift (require ((← channel).total ≤ wireLimit) (quotaError "SYSTEM_WIRE_LIMIT"))

section

variable (fl : FloatText F)

/-- The packet is handed to the socket. -/
def transmit (sending : Sending) (m : Message F) : Op F Unit := do
  match sending with
  | .done => modify fun p => { p with sent := p.sent ++ [m] }
  | .lost fault => raise fault
  | .kept fault => do
    modify fun p => { p with sent := p.sent ++ [m] }
    raise fault

/-- `_send` -/
def send (meet : Meeting) (op body : Value F) (fds : List Descriptor) (maximum : Nat) : Op F Unit := do
  let c ← channel
  let m : Message F := ⟨c.session, c.sequence, op, body, fds⟩
  let raw ← lift (canonical fl m.envelope maximum)
  let _ ← lift (load fl raw maximum 12)
  lift (require (fds = [] || (isOneOf op ["launch"] && maximum = replyLimit && fds.length = 2))
    (quotaError "SYSTEM_FD_COUNT"))
  lift (pins fds)
  charge raw fds
  time none
  transmit meet.sending m

/-- The next delivery, out of the messages the peer has sent. -/
def Arrival.deliver (maximum : Nat) (peer : List (Message F)) : Arrival → Except Fault Delivery
  | .message index =>
    match peer[index]? with
    | some m =>
      let raw := wire fl m.envelope
      .ok ⟨raw.take maximum, true, maximum < raw.length, false, m.rights⟩
    | none => .error (quotaError "SYSTEM_CHANNEL_TIMEOUT")
  | .foreign raw truncated malformed rights => .ok ⟨raw, false, truncated, malformed, rights⟩
  | .nothing fault => .error fault

/-- The descriptors a reply carries. -/
def expectedRights (maximum : Nat) (op : Option String) (body : List (String × Value F)) : Nat :=
  if maximum = replyLimit && op = some "launch" && (lookup body "error").isNone then 2 else 0

/-- The packet's op and body, in its place. -/
def checkOrder (c : Channel) (op : Option String) (value : Value F) : Except Fault (String × List (String × Value F)) := do
  let fields ← keys value ["schema", "session_id", "sequence", "op", "body"]
  require (isOneOf (item fields "schema") [schema] && isOneOf (item fields "session_id") [c.session])
    (quotaError "SYSTEM_PACKET_ORDER")
  match item fields "sequence", item fields "op" with
  | .int sequence, .str found => do
    require (sequence = c.sequence && ops.contains found && (op.isNone || op = some found)) (quotaError "SYSTEM_PACKET_ORDER")
    match item fields "body" with
    | .obj body => return (found, body)
    | _ => .error (quotaError "SYSTEM_RESPONSE")
  | _, _ => .error (quotaError "SYSTEM_PACKET_ORDER")

/-- `_receive` -/
def receive (meet : Meeting) (peer : List (Message F)) (maximum : Nat) (op : Option String) :
    Op F (String × List (String × Value F) × List Descriptor) := do
  time none
  let d ← lift (meet.arrival.deliver fl maximum peer)
  lift (require (d.raw ≠ [] && !d.truncated && !d.malformed && d.fromPeer) (quotaError "SYSTEM_PACKET_IDENTITY"))
  charge d.raw d.rights
  let value ← lift (load fl d.raw maximum 12)
  let (found, body) ← lift (checkOrder (← channel) op value)
  lift (require (d.rights.length = expectedRights maximum op body) (quotaError "SYSTEM_FD_COUNT"))
  lift (pins d.rights)
  time meet.late
  return (found, body, d.rights)

/-- `except BaseException`: the channel is poisoned for good. -/
def guarded {α : Type} (m : Op F α) : Op F α :=
  tryCatch m fun fault => do
    update fun c => { c with poisoned := true }
    raise fault

/-- The entry of `request` and of `receive_request`. -/
def idle (meet : Meeting) : Op F Unit := do
  time meet.early
  let c ← channel
  lift (require (c.pending.isNone && c.sequence < callLimit) (quotaError "SYSTEM_CALL_LIMIT"))

/-- The end of an exchange. -/
def advance : Op F Unit := update fun c => { c with sequence := c.sequence + 1, pending := none }

/-- A reply: its body and the descriptors that came with it. -/
structure Reply (F : Type) where
  body : Value F
  rights : List Descriptor

/-- `request`, up to the wait for the reply. -/
def ask (meet : Meeting) (op : String) (body : Value F) : Op F Unit := guarded do
  idle meet
  lift (requestBody op body)
  update fun c => { c with pending := some op }
  send fl meet (.str op) body [] requestLimit

/-- `request`, from the wait on. -/
def await (meet : Meeting) (peer : List (Message F)) (op : String) : Op F (Reply F) := guarded do
  let (_, reply, rights) ← receive fl meet peer replyLimit (some op)
  advance
  if (lookup reply "error").isSome then do
    let _ ← lift (keys (.obj reply) ["error"])
    raise (quotaError "SYSTEM_GATEWAY_REJECTED")
  else return ⟨.obj reply, rights⟩

/-- A request as `receive_request` returns it. -/
structure Request (F : Type) where
  sequence : Nat
  op : String
  body : Value F

/-- `receive_request` -/
def receiveRequest (meet : Meeting) (peer : List (Message F)) : Op F (Request F) := guarded do
  idle meet
  let (op, body, _) ← receive fl meet peer requestLimit none
  lift (requestBody op (.obj body))
  let c ← channel
  update fun c => { c with pending := some op }
  return ⟨c.sequence, op, .obj body⟩

/-- `self.pending` as a value. -/
def Channel.pendingValue (c : Channel) : Value F :=
  match c.pending with
  | none => .null
  | some op => .str op

variable [DecidableEq F] (intOf : F → Option Int)

/-- `respond`, for a dict that stands for the request. -/
def respond (meet : Meeting) (request : List (String × Value F)) (metadata : Value F) (fds : List Descriptor) :
    Op F Unit := guarded do
  let c ← channel
  match lookup request "op" with
  | none => raise (.key "op")
  | some op => do
    lift (require (c.pendingValue.same intOf op) (quotaError "SYSTEM_RESPONSE_ORDER"))
    match lookup request "sequence" with
    | none => raise (.key "sequence")
    | some sequence => do
      lift (require (sequence.same intOf (.int c.sequence)) (quotaError "SYSTEM_RESPONSE_ORDER"))
      send fl meet c.pendingValue metadata fds replyLimit
      advance

end

end LocalHand.SystemManager
