/-
The service side of one administrator-created execution session (`task_session.py`):
its position in the exchange, and a tick in execute mode.

The broker, the ledger's rows and the administrator are outside: what they answer, and
which call raises before or after its effect, is in the environment, by the number of
the question. Of the ledger the phases that are closed are kept; the trace is of the
packets and of what is done to the original execution.
-/
import LocalHand.QuotaBridge

namespace LocalHand.TaskSession

open PyJson QuotaContract Program
open QuotaBridge (jobPhases)

/-- Why a call stops: `LedgerBusy`, or another exception. -/
inductive Stop where
  | busy
  | raised
  deriving Repr, DecidableEq

/-- `_status` of a record, or the record as far as a session reads it. -/
structure Status (F : Type) where
  lifecycle : String
  phase : String
  outcome : Value F
  cancelRequested : Bool

/-- What the ledger has of a phase besides its closure. -/
structure Recorded (F : Type) where
  preparation : Value F
  observation : Value F
  pending : Value F

/-- A snapshot of a phase. -/
structure Snapshot (F : Type) extends Recorded F where
  closed : Option (Value F)

inductive Packet (F : Type) where
  | prepared (phase : String) (snapshot : Snapshot F) (plan : Value F)
  | terminal (task : Status F)
  | reply (snapshot : Snapshot F) (task : Status F)

/-- The closure a packet has told the administrator of. -/
def Packet.closed {F : Type} : Packet F → Option (Value F)
  | .reply snapshot _ => snapshot.closed
  | _ => none

/-- `quota_bridge.Phase` -/
structure Handler where
  phase : String
  failed : Bool
  deriving Repr, DecidableEq

/-- A visible step: a command received, by its number, and whether the task was stopped
when the tick read it; a packet sent, and the command it answers; a phase prepared; a
command applied; a phase closed in the ledger. -/
inductive Mark (F : Type) where
  | received (number : Nat) (command : Value F) (stopped : Bool)
  | sent (answers : Option Nat) (packet : Packet F)
  | prepares (phase : String)
  | applied (number : Nat) (action : String) (phase : String)
  | closedIn (phase : String) (closure : Value F)

/-- The fields of a session that tell how it goes on. -/
structure Flags where
  closed : Bool
  finished : Bool
  failure : Option Stop
  terminalSent : Bool
  controlStarted : Bool
  action : String
  closeRetryLogged : Bool
  deriving Repr, DecidableEq

/-- Its position in the exchange, the ledger's closures, and the channel. A pending close
is kept with its number. -/
structure Core (F : Type) where
  phase : Option String
  handler : Option Handler
  started : Bool
  closures : List (String × Value F)
  pendingClose : Option (Nat × Value F)
  ledger : String → Option (Value F)
  poisoned : Bool
  phaseIndex : Nat
  received : Nat
  trace : List (Mark F)

structure World (F : Type) where
  clock : Nat
  flags : Flags
  core : Core F

structure Env (F : Type) where
  fault : Nat → Option Stop
  late : Nat → Option Stop
  row : Nat → Option (Status F)
  running : Nat → Bool
  ready : Nat → Bool
  packet : Nat → Value F
  recorded : Nat → Recorded F
  plan : Nat → Value F
  digest : Value F → String

variable {F : Type}

abbrev Op (F : Type) := Prog (World F) Stop

/-! ## Steps -/

def raised {α : Type} : Op F α := throw .raised

def demand (ok : Bool) : Op F Unit := if ok then return else raised

def flags : Op F Flags := do return (← get).flags

def core : Op F (Core F) := do return (← get).core

def flag (f : Flags → Flags) : Op F Unit := modify fun w => { w with flags := f w.flags }

def change (f : Core F → Core F) : Op F Unit := modify fun w => { w with core := f w.core }

def mark (m : Mark F) : Op F Unit := change fun c => { c with trace := c.trace ++ [m] }

def throwIf : Option Stop → Op F Unit
  | none => return
  | some stop => throw stop

def question : Op F Nat := do
  let w ← get
  set { w with clock := w.clock + 1 }
  return w.clock

/-- A call that may raise. -/
def pass (env : Env F) : Op F Nat := do
  let n ← question
  throwIf (env.fault n)
  return n

/-- A call with an effect, which may raise before or after it. -/
def effect (env : Env F) (m : Op F Unit) : Op F Unit := do
  let n ← pass env
  m
  throwIf (env.late n)

/-- `broker.state.get("job", ...)` -/
def row (env : Env F) : Op F (Option (Status F)) := do return env.row (← pass env)

/-- The record of a row, which must be there. -/
def record (env : Env F) : Op F (Status F) := do
  match ← row env with
  | some status => return status
  | none => raised

def action (name : String) : Op F Unit := flag fun s => { s with action := name }

def startControl : Op F Unit := flag fun s => { s with controlStarted := true }

/-! ## The channel -/

def poison : Op F Unit := change fun c => { c with poisoned := true }

/-- An operation of the channel that raises poisons it. -/
def poisoning : Option Stop → Op F Unit
  | none => return
  | some stop => do poison; throw stop

/-- `_time` -/
def time (env : Env F) : Op F Unit := do
  demand (!(← core).poisoned)
  let _ ← pass env

/-- `send` -/
def send (env : Env F) (answers : Option Nat) (packet : Packet F) : Op F Unit := do
  demand (!(← core).poisoned)
  let n ← question
  poisoning (env.fault n)
  mark (.sent answers packet)
  poisoning (env.late n)

/-- `receive` -/
def receive (env : Env F) (stopped : Bool) : Op F (Nat × Value F) := do
  demand (!(← core).poisoned)
  let n ← question
  poisoning (env.fault n)
  let number := (← core).received
  change fun c => { c with received := c.received + 1, trace := c.trace ++ [.received number (env.packet n) stopped] }
  return (number, env.packet n)

/-- `advance_phase` -/
def advancePhase (env : Env F) (phase : String) : Op F Unit := do
  demand (!(← core).poisoned)
  let n ← question
  poisoning (env.fault n)
  poisoning (if jobPhases[(← core).phaseIndex + 1]? = some phase then none else some .raised)
  change fun c => { c with phaseIndex := c.phaseIndex + 1 }

/-- Whether a packet waits. -/
def ready (env : Env F) : Op F Bool := do return env.ready (← pass env)

/-! ## A phase -/

def actionOf (command : Value F) : Option (Value F) := command.get? "action"

def isAction (command : Value F) (name : String) : Bool :=
  match actionOf command with
  | some (.str s) => s = name
  | _ => false

/-- `Phase.snapshot` -/
def snapshot (env : Env F) (phase : String) : Op F (Snapshot F) := do
  let n ← pass env
  return { env.recorded n with closed := (← core).ledger phase }

/-- A closure as the ledger keeps it. -/
def closure (phase : String) (fence : Value F) : Value F := .obj [("fence", fence), ("phase", .str phase)]

variable [DecidableEq F]

/-- `close_observation`: the first fence is kept and every other one refused. -/
def closeObservation (env : Env F) (phase : String) (fence : Value F) : Op F Unit := effect env do
  match (← core).ledger phase with
  | some original => demand (original = closure phase fence)
  | none => do
    change fun c => { c with ledger := Function.update c.ledger phase (some (closure phase fence)) }
    mark (.closedIn phase (closure phase fence))

/-- What `handle` applies of a command. -/
def apply (env : Env F) (phase : String) (number : Nat) (command : Value F) : Op F (Snapshot F) := do
  demand (keys command ["action", "value"]).isOk
  let value := (command.get? "value").getD .null
  let _ ← pass env
  if isAction command "snapshot" then do
    demand (value = .null)
    snapshot env phase
  else if isAction command "bind" then do
    let _ ← pass env
    effect env (mark (.applied number "bind" phase))
    snapshot env phase
  else if isAction command "start" then do
    demand (value = .null)
    let _ ← pass env
    effect env (mark (.applied number "start" phase))
    snapshot env phase
  else if isAction command "close" then do
    mark (.applied number "close" phase)
    closeObservation env phase value
    snapshot env phase
  else raised

/-- `Phase.handle`: only a close that met a busy ledger may be handled again. -/
def handle (env : Env F) (h : Handler) (number : Nat) (command : Value F) : Op F (Snapshot F) := do
  demand (!h.failed)
  tryCatch (apply env h.phase number command) fun stop => do
    if stop = .busy ∧ isAction command "close" then throw stop
    else do
      change fun c => { c with handler := some { h with failed := true } }
      throw stop

/-! ## The session -/

/-- `_prepare`, with the command whose answer the packet is. -/
def prepare (env : Env F) (phase : String) (answers : Option Nat) : Op F Unit := do
  action ("prepare_" ++ phase)
  let current ← record env
  -- Cancellation may commit while the advance packet is in flight.
  if current.cancelRequested then return
  else do
    effect env (mark (.prepares phase))
    let _ ← pass env
    let shown ← snapshot env phase
    let n ← pass env
    demand ((env.recorded n).preparation = shown.preparation)
    let c ← core
    demand (c.closures.all fun entry => c.ledger entry.1 = some entry.2)
    let m ← pass env
    change fun c => { c with phase := some phase, handler := some ⟨phase, false⟩, started := false }
    startControl
    send env answers (.prepared phase shown (env.plan m))

def finishCommand : Value F := .obj [("action", .str "finish"), ("value", .null)]

/-- The command that advances from one phase to another. -/
def advanceCommand (previous following digest : String) : Value F :=
  .obj [("action", .str "advance"), ("value", .obj [("closure_digest", .str digest), ("from", .str previous), ("to", .str following)])]

/-- `_advance` -/
def advance (env : Env F) (command : Value F) : Op F String := do
  action "advance"
  let c ← core
  match jobPhases[c.closures.length - 1]?, jobPhases[c.closures.length]? with
  | some previous, some following => do
    demand (decide (0 < c.closures.length))
    match c.closures.lookup previous with
    | none => raised
    | some closed => do
      demand (command = advanceCommand previous following (env.digest closed))
      advancePhase env following
      change fun c => { c with phase := some following }
      return following
  | _, _ => raised

/-- The action a command is known by. -/
def knownAction (command : Value F) : String :=
  (["snapshot", "bind", "start", "close", "advance", "finish"].find? (isAction command)).getD "invalid_command"

/-- `_receive` -/
def receiveCommand (env : Env F) (stopped : Bool) : Op F (Nat × Value F) := do
  action "receive"
  let (number, command) ← receive env stopped
  action (knownAction command)
  return (number, command)

def finish : Op F Unit := flag fun s => { s with finished := true }

def terminal (env : Env F) (answers : Option Nat) (task : Status F) : Op F Unit := do
  send env answers (.terminal task)
  flag fun s => { s with terminalSent := true }

/-- Whether the peer is to advance from the phase that was closed last. -/
def Core.awaitingAdvance (c : Core F) : Bool :=
  c.handler.isNone && 0 < c.closures.length && c.closures.length < jobPhases.length && c.phase = jobPhases[c.closures.length - 1]?

/-- A command of a stopped task: it is answered, and not applied. -/
def answerStopped (env : Env F) (task : Status F) (awaitingAdvance : Bool) : Op F Unit := do
  startControl
  let (number, command) ← receiveCommand env true
  if command = finishCommand then finish
  else if awaitingAdvance then do
    let _ ← advance env command
    terminal env (some number) task
  else do
    demand (keys command ["action", "value"]).isOk
    demand (["snapshot", "bind", "start", "close"].any (isAction command))
    match (← core).handler with
    | none => raised
    | some h => do
      let shown ← snapshot env h.phase
      send env (some number) (.reply shown task)

/-- The exchange of a stopped task. -/
def exchangeStopped (env : Env F) (task : Status F) : Op F Unit := do
  let c ← core
  if c.handler.isNone && !(← flags).terminalSent && !c.awaitingAdvance then do
    startControl
    terminal env none task
    if ← ready env then answerStopped env task false else return
  else if ← ready env then answerStopped env task c.awaitingAdvance else return

/-- The exchange between phases. -/
def exchangeBetween (env : Env F) : Op F Unit := do
  if (← core).closures.isEmpty then prepare env "preflight" none
  else if ← ready env then do
    startControl
    let (number, command) ← receiveCommand env false
    if (← core).closures.length = jobPhases.length then do
      demand (command = finishCommand)
      finish
    else do
      let following ← advance env command
      prepare env following (some number)
  else return

/-- A dict with one key set. -/
def assign (closures : List (String × Value F)) (phase : String) (closed : Value F) : List (String × Value F) :=
  if closures.any (·.1 = phase) then closures.map fun entry => if entry.1 = phase then (phase, closed) else entry
  else closures ++ [(phase, closed)]

/-- What a command that was answered leaves. -/
def Core.answered (c : Core F) (command : Value F) (closed : Option (Value F)) : Core F :=
  match closed, c.phase with
  | some closed, some phase =>
    { c with pendingClose := none, closures := assign c.closures phase closed, handler := none, started := false }
  | _, _ => { c with pendingClose := none, started := c.started || isAction command "start" }

/-- A close is kept until it is answered. -/
def Core.keepClose (c : Core F) (number : Nat) (command : Value F) : Core F :=
  if isAction command "close" then { c with pendingClose := some (number, command) } else c

/-- A command is handled and answered. -/
def answer (env : Env F) (h : Handler) (number : Nat) (command : Value F) : Op F Unit := do
  match command with
  | .obj _ => do
    demand (!isAction command "start" || !(← core).started)
    change fun c => c.keepClose number command
    let shown ← handle env h number command
    let task ← record env
    send env (some number) (.reply shown task)
    change fun c => c.answered command shown.closed
  | _ => raised

/-- The exchange within a phase. A pending close comes before the next packet. -/
def exchangePhase (env : Env F) (h : Handler) : Op F Unit := do
  match (← core).pendingClose with
  | some (number, command) => do
    startControl
    action "close"
    answer env h number command
  | none =>
    if ← ready env then do
      startControl
      let (number, command) ← receiveCommand env false
      flag fun s => { s with closeRetryLogged := false }
      answer env h number command
    else return

def Status.stopped (task : Status F) : Bool := task.lifecycle = "TERMINAL" && task.cancelRequested

/-- `_tick` -/
def exchange (env : Env F) : Option (Status F) → Op F Unit
  | none => time env
  | some task => do
    time env
    let c ← core
    if task.stopped && c.pendingClose.isNone then exchangeStopped env task
    else match c.handler with
      | none => exchangeBetween env
      | some h => exchangePhase env h

/-- The exception of an exchange. -/
def failed (env : Env F) (stop : Stop) : Op F Unit := do
  let s ← flags
  let c ← core
  if stop = .busy ∧ s.controlStarted = false then throw .busy
  else if stop = .busy ∧ s.action = "close" ∧ c.pendingClose.isSome then do
    flag fun s => { s with closeRetryLogged := true }
    throw .busy
  else do
    flag fun s => { s with failure := some stop }
    match ← row env with
    | none => raised
    | some task => do
      if task.lifecycle ≠ "TERMINAL" then do
        let _ ← pass env
        raised
      else raised

def Flags.over (s : Flags) : Bool := s.finished || s.failure.isSome

/-- What a session that is over still does: a durable cancellation consumes its exits. -/
def observeOver (env : Env F) : Op F Unit := do
  let current ← row env
  let running := env.running (← question)
  if running || current.any fun task => task.cancelRequested && task.lifecycle ≠ "TERMINAL" then do
    let _ ← pass env
    return
  else return

/-- What precedes the exchange. -/
def observe (env : Env F) : Op F (Option (Status F)) := do
  match ← row env with
  | none => return none
  | some task => do
    let c ← core
    if c.pendingClose.isNone && (task.cancelRequested || c.started) then do
      let _ ← pass env
      row env
    else return some task

/-- `tick` -/
def tick (env : Env F) : Op F Unit := do
  let s ← flags
  if s.closed then return
  else if s.over then observeOver env
  else do
    flag fun s => { s with controlStarted := false, action := "observe" }
    let current ← observe env
    action "exchange"
    tryCatch (exchange env current) (failed env)

/-! ## Runs -/

/-- A tick, or the end of the session's service. -/
inductive Label where
  | tick
  | close
  deriving Repr, DecidableEq

def step (env : Env F) (w : World F) : Label → World F
  | .tick => ((tick env).from w).2
  | .close => { w with flags := { w.flags with closed := true } }

/-- A session that was opened and attached: no phase of its task is closed. -/
def opened : World F where
  clock := 0
  flags := ⟨false, false, none, false, false, "idle", false⟩
  core := ⟨none, none, false, [], none, fun _ => none, false, 0, 0, []⟩

end LocalHand.TaskSession
