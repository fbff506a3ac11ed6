/-
Supervised attempts (`supervision.py`): a coordinator that holds the node lock forks
one child for an attempt, and the two write the attempt's directory at the same time.

A system call is one step. Between any two of the coordinator's the children take as
many of theirs as the environment says. The number of a process stands for its pid and
start time, a pair no two processes of a boot share; a digest is the value it is of.
What is written to a record is a dict, so a record with bytes missing is read as no
JSON at all.
-/
import LocalHand.Lib.Program
import LocalHand.Lib.Run

namespace LocalHand.Supervision

open Program

/-- Why a call stops: an exception, or the end of the process. -/
inductive Stop where
  | raised
  | crashed
  deriving Repr, DecidableEq

/-- How much of what was to be written is there. -/
inductive Left where
  | nothing
  | torn
  | whole
  deriving Repr, DecidableEq

/-- What becomes of a step: it is done, or it is not or only partly, and an exception or
a crash is met. -/
inductive Fate where
  | done
  | failed (left : Left) (crash : Bool)
  deriving Repr, DecidableEq

def Fate.stop : Bool → Stop
  | false => .raised
  | true => .crashed

/-- The identity of a process: its boot, and its number there. -/
structure Identity where
  boot : Nat
  number : Nat
  deriving Repr, DecidableEq

structure Binding (A : Type) where
  attempt : String
  action : A
  boot : Nat
  lock : Nat × Nat
  timeout : Nat
  coordinator : Identity
  directory : String
  deriving DecidableEq

/-- A no-start proof. -/
structure Proof (A : Type) where
  binding : Binding A
  errorType : String
  error : String
  deriving DecidableEq

/-- A record of an attempt's directory. -/
inductive Slot (α : Type) where
  | absent
  | torn
  | whole (value : α)
  deriving DecidableEq

/-- The directory of an attempt. -/
structure Dir (A V : Type) where
  binding : Slot (Binding A) := .absent
  process : Slot Identity := .absent
  result : Slot V := .absent
  pending : Slot (Proof A) := .absent
  notStarted : Slot (Proof A) := .absent
  events : Nat → Slot V := fun _ => .absent

/-- Where a child is: before its record, while it writes it, before the adapter's
operation, in it with so many events written, while it writes one, and on to the result. -/
inductive Stage (V : Type) where
  | started
  | registering
  | ready
  | performing (index : Nat)
  | emitting (index : Nat) (value : V)
  | reporting (value : V)
  | finishing (value : V)

/-- What a child does next: the step it is at succeeds or fails, the operation acts, has
an event to write or is over, or the child ends. -/
inductive Move (V : Type) where
  | go
  | failed (left : Left)
  | act
  | emit (value : V)
  | finish (value : V)
  | exit

/-- A child. A killed one only completes the system call it is in. -/
structure Child (A V : Type) where
  binding : Binding A
  stage : Stage V
  killed : Bool

/-- What a runner keeps of an attempt: its child, or that there is none. -/
inductive Held (A : Type) where
  | process (id : Identity)
  | refused (proof : Proof A)

structure Observation (A V : Type) where
  binding : Binding A
  closed : Bool
  result : Option V
  events : List V
  notStarted : Option (Proof A)

inductive Outcome where
  | returned
  | unknown
  | running
  deriving Repr, DecidableEq

def Observation.outcome {A V : Type} (o : Observation A V) : Outcome :=
  if o.result.isSome && o.closed then .returned else if o.closed then .unknown else .running

/-- A visible step: `binding.json` durable, the intent persisted, a child forked, a step
of a child, the adapter's operation called, an observation returned, and one that
answers a run. -/
inductive Mark (A V : Type) where
  | bound (binding : Binding A)
  | intended (binding : Binding A)
  | forked (binding : Binding A) (id : Identity)
  | acted (attempt : String)
  | performed (binding : Binding A)
  | observed (observation : Observation A V)
  | answered (action : A) (observation : Observation A V)

structure Env (A V : Type) where
  fate : Nat → Fate
  moves : Nat → List (Nat × Move V)
  /-- The node lock's inode, by boot. -/
  lock : Nat → Nat × Nat
  /-- How often a child is polled, before it is killed and after. -/
  polls : Nat → Nat
  /-- The type and text of an exception. -/
  error : Nat → String × String
  timeout : Nat
  stateDir : String

/-- What there is: the boot, the process that holds the node lock and runs one runner,
the attempts' directories, and the children by number. -/
structure World (A V : Type) where
  clock : Nat
  boot : Nat
  next : Nat
  coordinator : Option Identity
  held : String → Option (Held A)
  dirs : String → Option (Dir A V)
  children : Nat → Option (Child A V)
  trace : List (Mark A V)

variable {A V : Type} [DecidableEq A]

abbrev Op (A V : Type) := Prog (World A V) Stop

/-! ## The child -/

/-- The slot after a write that may fail. -/
def Slot.after {α : Type} (s : Slot α) (value : α) : Left → Slot α
  | .whole => .whole value
  | _ => s

/-- A record opened with `O_EXCL`. -/
def Slot.vacant {α : Type} : Slot α → Bool
  | .absent => true
  | _ => false

/-- One step of the child: where it is after it, unless it has ended, and its directory. -/
def Stage.step (id : Identity) (d : Dir A V) : Stage V → Move V → Option (Stage V) × Dir A V
  | .started, .go => if d.process.vacant then (some .registering, { d with process := .torn }) else (none, d)
  | .registering, .go => (some .ready, { d with process := .whole id })
  | .registering, .failed left => (none, { d with process := d.process.after id left })
  | .ready, .go => (some (.performing 0), d)
  | .performing index, .emit value =>
    if index < 32 ∧ (d.events index).vacant then (some (.emitting index value), { d with events := Function.update d.events index .torn })
    else (some (.performing index), d)
  | .performing index, .act => (some (.performing index), d)
  | .performing index, .failed _ => (some (.performing index), d)
  | .performing _, .finish value => (some (.reporting value), d)
  | .emitting index value, .go => (some (.performing (index + 1)), { d with events := Function.update d.events index (.whole value) })
  -- The operation meets the exception and may go on.
  | .emitting index value, .failed left =>
    (some (.performing index), { d with events := Function.update d.events index ((d.events index).after value left) })
  | .reporting value, .go => if d.result.vacant then (some (.finishing value), { d with result := .torn }) else (none, d)
  | .finishing value, .go => (none, { d with result := .whole value })
  | .finishing value, .failed left => (none, { d with result := d.result.after value left })
  | _, _ => (none, d)

/-- Whether the step calls the adapter's operation. -/
def Stage.performs : Stage V → Move V → Bool
  | .ready, .go => true
  | _, _ => false

/-- A child's step. -/
def advance (w : World A V) (at' : Nat × Move V) : World A V :=
  match w.children at'.1 with
  | none => w
  | some c =>
    match w.dirs c.binding.attempt with
    | none => w
    | some d =>
      let (stage, d') := c.stage.step ⟨w.boot, at'.1⟩ d at'.2
      { w with
        children := Function.update w.children at'.1 (if c.killed then none else stage.map fun s => { c with stage := s })
        dirs := Function.update w.dirs c.binding.attempt (some d')
        trace := w.trace ++ .acted c.binding.attempt :: if c.stage.performs at'.2 then [.performed c.binding] else [] }

/-! ## The coordinator -/

/-- The children's steps before one of the coordinator's. -/
def tick (env : Env A V) : Op A V Nat := do
  let w ← get
  set { (env.moves w.clock).foldl advance w with clock := w.clock + 1 }
  return w.clock

/-- A step that changes nothing and may raise. -/
def pass (env : Env A V) : Op A V Nat := do
  let n ← tick env
  match env.fate n with
  | .done => return n
  | .failed _ crash => throw (Fate.stop crash)

def mark (m : Mark A V) : Op A V Unit := modify fun w => { w with trace := w.trace ++ [m] }

def raised {α : Type} : Op A V α := throw .raised

/-- An exception unless something holds. -/
def demand (ok : Bool) : Op A V Unit := if ok then return else raised

/-- `_read_json`, and `None` for `FileNotFoundError`. -/
def readRecord {α : Type} (env : Env A V) (attempt : String) (slot : Dir A V → Slot α) : Op A V (Option α) := do
  let _ ← pass env
  match (← get).dirs attempt with
  | none => return none
  | some d =>
    match slot d with
    | .absent => return none
    | .torn => raised
    | .whole value => return some value

/-- The events from this index on, up to the first that is missing. -/
def readEvents (env : Env A V) (attempt : String) : Nat → Nat → Op A V (List V)
  | 0, _ => return []
  | more + 1, index => do
    match ← readRecord env attempt fun d => d.events index with
    | none => return []
    | some value => return value :: (← readEvents env attempt more (index + 1))

/-- `os.path.lexists` of the events from this index on. -/
def anyEvent (env : Env A V) (attempt : String) : Nat → Nat → Op A V Bool
  | 0, _ => return false
  | more + 1, index => do
    let _ ← pass env
    match (← get).dirs attempt with
    | none => anyEvent env attempt more (index + 1)
    | some d => if (d.events index).vacant then anyEvent env attempt more (index + 1) else return true

/-- Whether the process runs: it has an entry and is no zombie. -/
def World.alive (w : World A V) (id : Identity) : Bool := id.boot = w.boot && (w.children id.number).isSome

/-- `_directory` -/
def checkAttempt (attempt : String) : Op A V Unit :=
  demand ((attempt.toList.all fun c => c.isAlphanum || c = '_' || c = '-') && 1 ≤ attempt.length && attempt.length ≤ 96)

/-- `verify_lock` of the node lock, which the coordinator holds, where there is a
descriptor of it. -/
def verifyLock (env : Env A V) (b : Binding A) : Bool → Op A V Unit
  | false => return
  | true => do
    let _ ← pass env
    let w ← get
    demand (b.boot ≠ w.boot || b.lock = env.lock w.boot)

/-- The proof that is accepted, if there is one: that of the directory, else the runner's. -/
def acceptedProof (recorded : Option (Proof A)) (held : Option (Held A)) : Option (Proof A) :=
  match recorded, held with
  | some proof, _ => some proof
  | none, some (.refused proof) => some proof
  | none, _ => none

/-- Whether the runner's own proof is another one. -/
def contradicts (proof : Proof A) : Option (Held A) → Bool
  | some (.refused retained) => retained ≠ proof
  | _ => false

/-- A no-start proof is all there is of its attempt. -/
def accept (env : Env A V) (b : Binding A) (lockFd : Bool) (process : Option Identity) (result : Option V) (events : List V)
    (held : Option (Held A)) (proof : Proof A) : Op A V (Observation A V) := do
  let someEvent ← anyEvent env b.attempt 32 0
  demand (proof.binding = b && !contradicts proof held && process.isNone && result.isNone && !someEvent)
  verifyLock env b lockFd
  return ⟨b, lockFd, result, events, some proof⟩

/-- Whether a process that is recorded has ended. -/
def concludeRecorded (env : Env A V) (b : Binding A) (p : Identity) (result : Option V) (events : List V) : Op A V (Observation A V) := do
  let _ ← pass env
  let w ← get
  return ⟨b, p.boot ≠ w.boot || !w.alive p, result, events, none⟩

/-- Whether a child without a record has ended: with the node lock acquired anew it
cannot still run. -/
def World.settled (w : World A V) (b : Binding A) (lockFd : Bool) : Option (Held A) → Bool
  | some (.process child) => !w.alive child
  | _ => lockFd && w.coordinator ≠ some b.coordinator

def concludeUnrecorded (env : Env A V) (b : Binding A) (lockFd : Bool) (result : Option V) (events : List V)
    (held : Option (Held A)) : Op A V (Observation A V) := do
  let _ ← pass env
  let w ← get
  -- Without a descriptor there is no lock to verify.
  demand (!w.settled b lockFd held || lockFd)
  verifyLock env b (w.settled b lockFd held)
  return ⟨b, w.settled b lockFd held, result, events, none⟩

/-- `observe` -/
def observe (env : Env A V) (b : Binding A) (lockFd : Bool) : Op A V (Observation A V) := do
  checkAttempt b.attempt
  let recorded ← readRecord env b.attempt (·.binding)
  demand (recorded.all (· = b))
  let process ← readRecord env b.attempt (·.process)
  let result ← readRecord env b.attempt (·.result)
  let notStarted ← readRecord env b.attempt (·.notStarted)
  let events ← readEvents env b.attempt 32 0
  let w ← get
  match acceptedProof notStarted (w.held b.attempt), process with
  | some proof, _ => accept env b lockFd process result events (w.held b.attempt) proof
  | none, some p => concludeRecorded env b p result events
  | none, none => concludeUnrecorded env b lockFd result events (w.held b.attempt)

/-- The directory with one record replaced. -/
def writeDir (attempt : String) (f : Dir A V → Dir A V) : Op A V Unit :=
  modify fun w => { w with dirs := Function.update w.dirs attempt ((w.dirs attempt).map f) }

/-- `_write_once`: a record that is there is not opened. -/
def writeOnce {α : Type} (env : Env A V) (attempt : String) (slot : Dir A V → Slot α) (put : Dir A V → Slot α → Dir A V) (value : α) :
    Op A V Unit := do
  let n ← tick env
  match (← get).dirs attempt with
  | none => raised
  | some d =>
    demand (slot d).vacant
    match env.fate n with
    | .done => writeDir attempt fun d => put d (.whole value)
    | .failed .nothing crash => throw (Fate.stop crash)
    | .failed .torn crash => do writeDir attempt fun d => put d .torn; throw (Fate.stop crash)
    | .failed .whole crash => do writeDir attempt fun d => put d (.whole value); throw (Fate.stop crash)

/-- An exception is handled; the end of the process is not. -/
def handled (m : Op A V Unit) : Op A V Unit :=
  tryCatch m fun stop =>
    match stop with
    | .raised => return
    | .crashed => throw .crashed

/-- The rename of a pending proof to its name. -/
def publishProof (env : Env A V) (b : Binding A) (proof : Proof A) : Op A V Unit := do
  let n ← tick env
  match env.fate n with
  | .done => writeDir b.attempt fun d => { d with pending := .absent, notStarted := .whole proof }
  | .failed .whole crash => do
    writeDir b.attempt fun d => { d with pending := .absent, notStarted := .whole proof }
    throw (Fate.stop crash)
  | .failed _ crash => throw (Fate.stop crash)

/-- What the runner keeps of an attempt. -/
def retain (attempt : String) (held : Held A) : Op A V Unit :=
  modify fun w => { w with held := Function.update w.held attempt (some held) }

/-- `_record_not_started` -/
def recordNotStarted (env : Env A V) (b : Binding A) (n : Nat) : Op A V Unit := do
  let proof : Proof A := ⟨b, (env.error n).1, (env.error n).2⟩
  retain b.attempt (.refused proof)
  handled do
    writeOnce env b.attempt (·.pending) (fun d s => { d with pending := s }) proof
    let there ← readRecord env b.attempt (·.notStarted)
    demand there.isNone
    publishProof env b proof
    let _ ← pass env

/-- `persist_intent(binding)`, and the count of the threads. -/
def persistIntent (env : Env A V) (b : Binding A) : Op A V Unit := do
  let _ ← pass env
  mark (.intended b)
  let _ ← pass env

/-- `os.fork`: a child that shares the lock, or an `OSError` and no child. What else ends
the call ends the coordinator. -/
def fork (env : Env A V) (b : Binding A) : Op A V (Option Identity) := do
  let n ← tick env
  let w ← get
  let id : Identity := ⟨w.boot, w.next⟩
  let born : World A V :=
    { w with
      next := w.next + 1
      children := Function.update w.children w.next (some ⟨b, .started, false⟩)
      held := Function.update w.held b.attempt (some (.process id))
      trace := w.trace ++ [.forked b id] }
  match env.fate n with
  | .done => do set born; return some id
  | .failed .nothing false => return none
  | .failed .nothing true => throw .crashed
  | .failed _ _ => do set born; throw .crashed

/-- `os.waitpid` until the child has ended, so many times. -/
def poll (env : Env A V) (id : Identity) : Nat → Op A V Bool
  | 0 => return false
  | more + 1 => do
    let n ← tick env
    match env.fate n with
    | .failed _ true => throw .crashed
    | _ => if (← get).alive id then poll env id more else return true

def kill (env : Env A V) (id : Identity) : Op A V Unit := do
  let n ← tick env
  match env.fate n with
  | .failed _ true => throw .crashed
  | _ => modify fun w => { w with children := Function.update w.children id.number ((w.children id.number).map fun c => { c with killed := true }) }

/-- The parent's part after a fork. -/
def await (env : Env A V) (b : Binding A) (id : Identity) : Op A V (Observation A V) := do
  if ← poll env id (env.polls (← get).clock) then observe env b true
  else do
    kill env id
    if ← poll env id (env.polls (← get).clock) then observe env b true
    -- Uninterruptible I/O still holds the inherited lock.
    else observe env b false

/-- An exception before the child is there is recorded. -/
def launch (env : Env A V) (b : Binding A) : Op A V (Observation A V) := do
  let n := (← get).clock
  tryCatch (persistIntent env b) fun stop =>
    match stop with
    | .raised => do recordNotStarted env b n; raised
    | .crashed => throw .crashed
  match ← fork env b with
  | some id => await env b id
  | none => do recordNotStarted env b n; raised

/-- Whether an attempt is this one. -/
def Binding.agrees (old b : Binding A) : Bool :=
  old.attempt = b.attempt && old.action = b.action && old.lock = b.lock && old.directory = b.directory

/-- `directory.exists()` and `directory.mkdir` -/
def makeDirectory (env : Env A V) (attempt : String) : Op A V Unit := do
  let n ← tick env
  let w ← get
  demand (w.dirs attempt).isNone
  match env.fate n with
  | .done => modify fun w => { w with dirs := Function.update w.dirs attempt (some {}) }
  | .failed .nothing crash => throw (Fate.stop crash)
  | .failed _ crash => do
    modify fun w => { w with dirs := Function.update w.dirs attempt (some {}) }
    throw (Fate.stop crash)

/-- `run` of a runner that may write. -/
def run (env : Env A V) (action : A) (attempt : String) (previous : Option (Binding A)) : Op A V (Observation A V) := do
  let _ ← pass env
  checkAttempt attempt
  let w ← get
  match w.coordinator with
  | none => throw .crashed
  | some me =>
    let b : Binding A := ⟨attempt, action, w.boot, env.lock w.boot, env.timeout, me, env.stateDir ++ "/" ++ attempt⟩
    match previous with
    | some old => if old.agrees b then observe env old true else raised
    | none =>
      let _ ← pass env
      if ((← get).dirs attempt).isSome then
        match ← readRecord env attempt (·.binding) with
        | none => raised
        | some old => if old.agrees b then observe env old true else raised
      else do
        makeDirectory env attempt
        writeOnce env attempt (·.binding) (fun d s => { d with binding := s }) b
        mark (.bound b)
        launch env b

/-! ## Runs -/

/-- A call of the coordinator, a step of a child, a runner made anew, the coordinator's
end, another one that acquires the lock, and a reboot. -/
inductive Label (A V : Type) where
  | run (action : A) (attempt : String) (previous : Option (Binding A))
  | observe (binding : Binding A) (lockFd : Bool)
  | child (at' : Nat × Move V)
  | renew
  | leave
  | acquire
  | reboot

/-- The binding is that of its attempt: what callers have of one. -/
def World.recorded (w : World A V) (b : Binding A) : Bool :=
  match w.dirs b.attempt with
  | some d => d.binding = .whole b
  | none => false

/-- Every process that shares the lock has ended. -/
def World.unlocked (w : World A V) : Bool := w.coordinator.isNone && (List.range w.next).all fun n => (w.children n).isNone

def World.left (w : World A V) : World A V := { w with coordinator := none, held := fun _ => none }

/-- The world a call leaves. -/
def World.returned (answer : Except Stop (Observation A V) × World A V) (marks : Observation A V → List (Mark A V)) : World A V :=
  match answer with
  | (.ok o, w) => { w with trace := w.trace ++ marks o }
  | (.error .raised, w) => w
  | (.error .crashed, w) => w.left

def step (env : Env A V) (w : World A V) : Label A V → World A V
  | .run action attempt previous =>
    if w.coordinator.isSome && previous.all w.recorded then
      World.returned ((run env action attempt previous).from w) fun o => [.observed o, .answered action o]
    else w
  | .observe b lockFd =>
    if w.coordinator.isSome && w.recorded b then World.returned ((observe env b lockFd).from w) fun o => [.observed o] else w
  | .child at' => advance w at'
  | .renew => { w with held := fun _ => none }
  | .leave => w.left
  | .acquire => if w.unlocked then { w with coordinator := some ⟨w.boot, w.next⟩, next := w.next + 1 } else w
  | .reboot => { w.left with boot := w.boot + 1, children := fun _ => none }

/-- Before any attempt. -/
def initial : World A V := ⟨0, 0, 0, none, fun _ => none, fun _ => none, fun _ => none, []⟩

end LocalHand.Supervision
