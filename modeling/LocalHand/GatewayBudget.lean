/-
The call and byte budgets of the system manager's gateway (`server.py`): what `_time`,
`serve`, `dispatch`, `_respond` and the two rebinds count.

What an operation does to the stages is the gateway's own model; here it makes control
output, and answers or raises. `serve` gives up its lock between the steps of a turn, so
each of them is a step of its own.
-/
import LocalHand.ManagerChannel
import LocalHand.Lib.Run

namespace LocalHand.GatewayBudget

open PyJson ResultReader QuotaContract Program SystemManager

variable {F : Type}

/-! ## Data -/

/-- Where `serve` is with a request. -/
inductive Turn (F : Type) where
  | waiting
  | received (request : Request F)
  | answered (request : Request F) (result : Value F) (fds : List Descriptor)
  | rejected (request : Request F) (fault : Fault)

/-- A gateway's counters and flags. The channels it has ended, and the requests whose
dispatch got past `_time`, are kept beside them. -/
structure Gateway (F : Type) where
  party : Party F
  retiredWireBytes : Nat
  retiredCalls : Nat
  controlBytes : Nat
  pendingControl : Bool
  failure : Option Fault
  closed : Bool
  serving : Bool
  recoveryOnly : Bool
  serviceRecovery : Bool
  recoveryFinished : Bool
  recoveryArmed : Bool
  recoveryArmAck : Bool
  recoveryRebinds : Nat
  turn : Turn F
  ended : List Channel
  dispatched : Nat

/-- What a gateway is made with. -/
structure Site (F : Type) where
  binding : Value F
  recoverySession : String → String

abbrev Act (F : Type) := Prog (Gateway F) Fault

def give {α : Type} : Except Fault α → Act F α
  | .ok a => pure a
  | .error fault => throw fault

/-- What the clock, the files, the manager and the peer may raise here. -/
def pass : Option Fault → Act F Unit
  | none => pure ()
  | some fault => throw fault

/-- A method of the channel. -/
def onChannel {α : Type} (m : SystemManager.Op F α) : Act F α := do
  let out := m.from (← get).party
  modify fun g => { g with party := out.2 }
  give out.1

/-- What `_time` meets: the boot and the gateway's deadline, and the channel's own checks. -/
structure Moment where
  clock : Option Fault
  channel : Option Fault

/-- `_time` -/
def time (now : Moment) : Act F Unit := do
  pass now.clock
  let g ← get
  give (require (!g.closed && g.failure.isNone) (quotaError "SYSTEM_GATEWAY_UNAVAILABLE"))
  give (require (g.controlBytes + g.retiredWireBytes + g.party.channel.total ≤ wireLimit) (quotaError "SYSTEM_AGGREGATE_OUTPUT_LIMIT"))
  give (require (g.retiredCalls + g.party.channel.sequence ≤ callLimit) (quotaError "SYSTEM_CALL_LIMIT"))
  onChannel (SystemManager.time now.channel)

/-- `_recovery_time`; the plan's deadlines do not bind a service's recovery. -/
def recoveryTime (now : Moment) (late : Option Fault) : Act F Unit := do
  time now
  if (← get).serviceRecovery then return else pass late

/-- The look at the clock before a recovery's answer. -/
def checkRecovery (now : Moment) (late : Option Fault) : Act F Unit := do
  if (← get).recoveryOnly then recoveryTime now late

/-! ## A turn -/

/-- What an operation makes and meets, and what it would answer. -/
structure Work (F : Type) where
  control : Nat
  pending : Bool
  fault : Option Fault
  result : Value F
  fds : List Descriptor

/-- The answer to `support`. -/
def supported (site : Site F) : Value F :=
  .obj [("manager_binding", site.binding), ("reasons", .arr []), ("status", .str "CANDIDATE"), ("supported", .bool true)]

/-- The operations, by what they do to the budgets and the recovery's flags. -/
def perform (site : Site F) (op : String) (work : Work F) : Act F (Value F × List Descriptor) := do
  if op = "support" then
    pass work.fault
    return (supported site, [])
  modify fun g => { g with controlBytes := g.controlBytes + work.control, pendingControl := g.pendingControl || work.pending }
  pass work.fault
  modify fun g => { g with recoveryArmed := g.recoveryArmed || op = "recovery_arm",
                           recoveryFinished := g.recoveryFinished || op = "recovery_finish" }
  return (work.result, work.fds)

def recoveryOps : List String := ["support", "inventory", "observe", "stop", "recovery_finish"]

/-- What a dispatch meets, its operation's work among it. -/
structure Dispatching (F : Type) where
  early : Moment
  recovery : Moment
  late : Option Fault
  work : Work F

/-- `dispatch` -/
def dispatch (site : Site F) (env : Dispatching F) (request : Request F) : Act F (Value F × List Descriptor) := do
  time env.early
  modify fun g => { g with dispatched := g.dispatched + 1 }
  give (requestBody request.op request.body)
  let g ← get
  give (require (!(g.recoveryArmed && !g.recoveryOnly)) (quotaError "SYSTEM_RECOVERY_ARMED"))
  if g.recoveryOnly then
    give (require (recoveryOps.contains request.op) (quotaError "SYSTEM_RECOVERY_OPERATION"))
    recoveryTime env.recovery env.late
  perform site request.op env.work

/-- The dict `receive_request` returns, as far as `respond` reads it. -/
def asDict (request : Request F) : List (String × Value F) := [("op", .str request.op), ("sequence", .int request.sequence)]

section

variable (fl : FloatText F) [DecidableEq F] (intOf : F → Option Int)

/-- What a response to the pending request weighs on the wire, if it can be printed. -/
def weigh (g : Gateway F) (request : Request F) (result : Value F) (fds : List Descriptor) : Except Fault Nat := do
  let m : Message F := ⟨g.party.channel.session, g.party.channel.sequence, .str request.op, result, fds⟩
  let raw ← canonical fl m.envelope replyLimit
  return raw.length + 12 + 4 * fds.length

/-- `_respond` -/
def respond (meet : Meeting) (request : Request F) (result : Value F) (fds : List Descriptor) : Act F Unit := do
  let g ← get
  let weight ← give (weigh fl g request result fds)
  give (require (g.controlBytes + g.retiredWireBytes + g.party.channel.total + weight ≤ wireLimit)
    (quotaError "SYSTEM_AGGREGATE_OUTPUT_LIMIT"))
  onChannel (SystemManager.respond fl intOf meet (asDict request) result fds)
  if request.op = "recovery_arm" && result.same intOf (.obj [("armed", .bool true)]) then
    let g ← get
    give (require (g.recoveryArmed && g.party.channel.pending.isNone) (quotaError "SYSTEM_RECOVERY_ARM_ACK"))
    modify fun g => { g with recoveryArmAck := true }

end

/-- `Channel.close` -/
def Gateway.closeChannel (g : Gateway F) : Gateway F :=
  { g with party := { g.party with channel := { g.party.channel with poisoned := true } } }

/-- The end of `serve` by an exception. -/
def Gateway.fail (g : Gateway F) (fault : Fault) : Gateway F :=
  { g.closeChannel with failure := if g.closed then g.failure else some fault, serving := false, turn := .waiting }

/-! ## Rebinding -/

/-- What a rebind meets: before the counters are read, and when the old clients are given
up and the new peer is adopted. -/
structure Rebinding where
  early : Option Fault
  discard : Option Fault
  adopt : Option Fault

/-- A channel nothing has gone over. -/
def fresh (channel : Channel) : Bool := channel.sequence = 0 && channel.total = 0 && channel.pending.isNone

def recoverable (failure : Option Fault) : Bool :=
  failure = none || failure = some (quotaError "SYSTEM_PEER_CHANGED") || failure = some (quotaError "SYSTEM_CHANNEL_DISCONNECTED")

def serviceRecoverable (failure : Option Fault) : Bool :=
  recoverable failure || failure = some (quotaError "SYSTEM_CHANNEL_EOF") || failure = some (quotaError "SYSTEM_CHANNEL_UNAVAILABLE")

/-- `MAX_SERVICE_RECOVERIES` -/
def maxServiceRecoveries : Nat := 3

/-- The new channel takes the old one's place. -/
def Gateway.rebind (g : Gateway F) (channel : Channel) : Gateway F :=
  { g with party := ⟨channel, []⟩, ended := g.ended ++ [g.party.channel], failure := none, recoveryOnly := true,
           recoveryRebinds := g.recoveryRebinds + 1, recoveryFinished := false }

/-- `rebind_recovery` -/
def rebindRecovery (site : Site F) (env : Rebinding) (channel : Channel) : Act F Unit := do
  let g ← get
  give (require (!g.closed && !g.serving && !g.recoveryOnly && g.recoveryRebinds = 0 && !g.pendingControl && g.recoveryArmed && g.recoveryArmAck)
    (quotaError "SYSTEM_RECOVERY_STATE"))
  give (require g.party.channel.pending.isNone (quotaError "SYSTEM_RECOVERY_OLD_PEER"))
  give (require (fresh channel && channel.session = site.recoverySession g.party.channel.session) (quotaError "SYSTEM_RECOVERY_PEER"))
  pass env.early
  give (require (recoverable g.failure) (quotaError "SYSTEM_RECOVERY_SCOPE"))
  -- The counters have moved when the budget is checked.
  modify fun g => { g with retiredWireBytes := g.retiredWireBytes + g.party.channel.total,
                           retiredCalls := g.retiredCalls + g.party.channel.sequence }
  let g ← get
  give (require (g.controlBytes + g.retiredWireBytes ≤ wireLimit && g.retiredCalls < callLimit) (quotaError "SYSTEM_RECOVERY_BUDGET"))
  modify Gateway.closeChannel
  pass env.adopt
  pass env.discard
  modify fun g => g.rebind channel

/-- `check_service_recovery` -/
def checkServiceRecovery (env : Rebinding) : Act F Unit := do
  let g ← get
  give (require (!g.closed && !g.serving && !g.pendingControl && g.recoveryRebinds < maxServiceRecoveries) (quotaError "SYSTEM_RECOVERY_STATE"))
  give (require (serviceRecoverable g.failure) (quotaError "SYSTEM_RECOVERY_IDENTITY_UNRESOLVED"))
  give (require (g.controlBytes + g.retiredWireBytes + g.party.channel.total < wireLimit
    && g.retiredCalls + g.party.channel.sequence < callLimit) (quotaError "SYSTEM_RECOVERY_BUDGET"))
  pass env.early

/-- `rebind_service_recovery` -/
def rebindServiceRecovery (env : Rebinding) (channel : Channel) : Act F Unit := do
  checkServiceRecovery env
  let g ← get
  give (require (fresh channel && channel.session ≠ g.party.channel.session) (quotaError "SYSTEM_RECOVERY_PEER"))
  pass env.discard
  modify Gateway.closeChannel
  pass env.adopt
  modify fun g => { g.rebind channel with retiredWireBytes := g.retiredWireBytes + g.party.channel.total,
                                          retiredCalls := g.retiredCalls + g.party.channel.sequence, serviceRecovery := true }

/-! ## Runs -/

/-- Another party's call, or a step of `serve`: its entry, an idle look at the clock, the
steps of a turn and the regular end. -/
inductive Label (F : Type) where
  | enter
  | idle (now : Moment)
  | receive (meet : Meeting) (peer : List (Message F))
  | dispatch (env : Dispatching F)
  | respond (now : Moment) (late : Option Fault) (meet : Meeting)
  | leave (phasesClosed : Bool)
  | rebindRecovery (env : Rebinding) (channel : Channel)
  | rebindServiceRecovery (env : Rebinding) (channel : Channel)
  | close

/-- A call in `serve`: what it raises ends it. -/
def Gateway.serve {α : Type} (g : Gateway F) (m : Act F α) (k : Gateway F → α → Gateway F) : Gateway F :=
  match m.from g with
  | (.ok a, g') => k g' a
  | (.error fault, g') => g'.fail fault

/-- `serve` waits for a request. A gateway closed since the loop's check waits as well, and fails. -/
def Gateway.listens (g : Gateway F) : Bool :=
  match g.turn with
  | .waiting => g.serving && !g.recoveryFinished && !(g.recoveryArmed && !g.recoveryOnly)
  | _ => false

/-- The answer to a request that is not served. -/
def refusal : Value F := .obj [("error", .str "SYSTEM_GATEWAY_REJECTED")]

/-- The end of `serve`'s loop. -/
def Gateway.leave (g : Gateway F) (phasesClosed : Bool) : Gateway F :=
  if g.closed || g.recoveryFinished || (g.recoveryArmed && !g.recoveryOnly) then { g with serving := false }
  else if !g.recoveryOnly && phasesClosed then
    if g.failure.isNone && !g.pendingControl && g.party.channel.pending.isNone then { g with serving := false }
    else g.fail (quotaError "SYSTEM_COMPLETED_CHANNEL_PENDING")
  else g

section

variable (fl : FloatText F) [DecidableEq F] (intOf : F → Option Int) (site : Site F)

/-- The answer goes out. -/
def answer (now : Moment) (late : Option Fault) (meet : Meeting) (request : Request F) (result : Value F) (fds : List Descriptor) :
    Act F Unit := do
  checkRecovery now late
  respond fl intOf meet request result fds

def step (g : Gateway F) : Label F → Gateway F
  | .enter => if !g.serving && !g.closed then { g with serving := true } else g
  | .idle now => if g.listens then g.serve (time now) fun g' _ => g' else g
  | .receive meet peer =>
    if g.listens then g.serve (onChannel (receiveRequest fl meet peer)) fun g' request => { g' with turn := .received request } else g
  | .dispatch env =>
    match g.turn with
    | .received request =>
      match (dispatch site env request).from g with
      | (.ok (result, fds), g') => { g' with turn := .answered request result fds }
      | (.error fault, g') => { g' with turn := .rejected request fault }
    | _ => g
  | .respond now late meet =>
    match g.turn with
    | .answered request result fds => g.serve (answer fl intOf now late meet request result fds) fun g' _ => { g' with turn := .waiting }
    | .rejected request fault => g.serve (respond fl intOf meet request refusal []) fun g' _ => g'.fail fault
    | _ => g
  | .leave phasesClosed =>
    match g.turn with
    | .waiting => if g.serving then g.leave phasesClosed else g
    | _ => g
  | .rebindRecovery env channel => ((rebindRecovery site env channel).from g).2
  | .rebindServiceRecovery env channel => ((rebindServiceRecovery env channel).from g).2
  | .close => { g.closeChannel with closed := true }

end

/-- A gateway that was made with a channel. -/
def made (channel : Channel) : Gateway F :=
  ⟨⟨channel, []⟩, 0, 0, 0, false, none, false, false, false, false, false, false, false, 0, .waiting, [], 0⟩

end LocalHand.GatewayBudget
