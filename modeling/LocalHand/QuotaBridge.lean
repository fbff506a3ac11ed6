/-
The private administrator channel of one resident phase (`quota_bridge.py`):
values in fragments, in their order and phase, and nothing after a deviation.

What a call meets outside of the channel is in its arguments; the packets a party
has put on the wire are kept beside its channel.
-/
import LocalHand.PayloadTransport
import LocalHand.Lib.Program
import LocalHand.Lib.Run

namespace LocalHand.QuotaBridge

open PyJson ResultReader QuotaContract QuotaPayload Program
open Framing (Bytes)

def limit : Nat := 2 * 1024 * 1024
def chunk : Nat := 16384
def headerSize : Nat := 12
def jobPhases : List String := ["preflight", "business", "evidence"]

inductive Version where
  | one | two
  deriving Repr, DecidableEq

def Version.schema : Version → String
  | .one => "local-hand-quota-bridge/v1"
  | .two => "local-hand-quota-bridge/v2"

/-- The values a channel sends, and receives, in all. -/
def Version.exchanges : Version → Nat
  | .one => 64
  | .two => 192

/-- The phases its totals are for. -/
def Version.phases : Version → Nat
  | .one => 1
  | .two => jobPhases.length

structure Channel where
  version : Version
  session : String
  tx : Nat
  rx : Nat
  total : Nat
  packets : Nat
  phaseIndex : Nat
  phaseTx : Nat
  phaseRx : Nat
  phaseTotal : Nat
  phasePackets : Nat
  poisoned : Bool
  deriving Repr, DecidableEq

/-- A channel, what it has put on the wire, and how many packets it has taken off. -/
structure Party where
  channel : Channel
  out : List Bytes
  taken : Nat

abbrev Op := Prog Party Fault

def raise {α : Type} (fault : Fault) : Op α := throw fault

def lift {α : Type} : Except Fault α → Op α
  | .ok a => pure a
  | .error fault => throw fault

def channel : Op Channel := do return (← get).channel

def update (f : Channel → Channel) : Op Unit := modify fun p => { p with channel := f p.channel }

/-- `_time`: the peer and the clock are outside of the channel. -/
def time (outside : Option Fault) : Op Unit := do
  lift (require (!(← channel).poisoned) (quotaError "BRIDGE_UNAVAILABLE"))
  match outside with
  | some fault => raise fault
  | none => return

/-- The limits of `_charge`. -/
def Channel.within (c : Channel) : Bool :=
  c.total ≤ c.version.phases * 8 * limit && c.packets ≤ c.version.phases * 2048
    && c.phaseTotal ≤ 8 * limit && c.phasePackets ≤ 2048

def Channel.charged (c : Channel) (packets bytes : Nat) : Channel :=
  { c with
    total := c.total + bytes
    packets := c.packets + packets
    phaseTotal := c.phaseTotal + bytes
    phasePackets := c.phasePackets + packets }

/-- `_charge` -/
def charge (count : Nat) : Op Unit := do
  update fun c => c.charged 1 count
  lift (require (← channel).within (quotaError "BRIDGE_TOTAL_LIMIT"))

/-- `except BaseException`: the channel is poisoned for good. -/
def guarded {α : Type} (m : Op α) : Op α :=
  tryCatch m fun fault => do
    update fun c => { c with poisoned := true }
    raise fault

/-- `advance_phase` -/
def advancePhase (early : Option Fault) (phase : String) : Op Unit := guarded do
  time early
  let c ← channel
  lift (require (c.version = .two && jobPhases[c.phaseIndex + 1]? = some phase) (quotaError "BRIDGE_PHASE_ORDER"))
  update fun c => { c with phaseIndex := c.phaseIndex + 1, phaseTx := 0, phaseRx := 0, phaseTotal := 0, phasePackets := 0 }

/-! ## Packets -/

/-- How many fragments a text is sent in. -/
def fragments (raw : Bytes) : Nat := (raw.length + chunk - 1) / chunk

/-- A fragment of a text, with its header. -/
def packetAt (seq : Nat) (raw : Bytes) (i : Nat) : Bytes :=
  Framing.header seq ++ (Framing.header (i * chunk) ++ (Framing.header raw.length ++ (raw.drop (i * chunk)).take chunk))

def packetsOf (seq : Nat) (raw : Bytes) : List Bytes := (List.range (fragments raw)).map (packetAt seq raw)

/-- Whether a packet is on the wire when `send` has been called or the wait for it
has ended. -/
inductive Sending where
  | done
  | lost (fault : Fault)
  | kept (fault : Fault)

/-- The fragments, one after another. -/
def transmit (sending : Nat → Sending) : Nat → List Bytes → Op Unit
  | _, [] => return
  | i, packet :: rest => do
    match sending i with
    | .done => do
      modify fun p => { p with out := p.out ++ [packet] }
      charge packet.length
      transmit sending (i + 1) rest
    | .lost fault => raise fault
    | .kept fault => do
      modify fun p => { p with out := p.out ++ [packet] }
      raise fault

/-- The wire hands over a packet the peer has sent, whichever and however often, or
something of another sender. -/
inductive Arrival where
  | packet (index : Nat)
  | foreign (fault : Fault)

/-- A packet that is the peer's own and whole. -/
def Arrival.deliver (peer : List Bytes) : Arrival → Except Fault Bytes
  | .packet index =>
    match peer[index]? with
    | some raw => if raw.length ≤ headerSize + chunk then .ok raw else .error (quotaError "BRIDGE_CREDENTIALS")
    | none => .error (quotaError "BRIDGE_TIMEOUT")
  | .foreign fault => .error fault

/-- The checks of one fragment, with its size and the text it extends the text to. -/
def checkFragment (rx : Nat) (packet raw : Bytes) (expected : Option Nat) : Except Fault (Nat × Bytes) := do
  require (headerSize < packet.length) (quotaError "BRIDGE_EOF")
  let seq := Framing.readSize packet
  let offset := Framing.readSize (packet.drop 4)
  let size := Framing.readSize (packet.drop 8)
  require (seq = rx && offset = raw.length && 0 < size && size ≤ limit && (expected.isNone || expected = some size))
    (quotaError "BRIDGE_ORDER")
  let raw := raw ++ packet.drop headerSize
  require (raw.length ≤ size && packet.length - headerSize = min chunk (size - offset)) (quotaError "BRIDGE_FRAME")
  return (size, raw)

/-- Whether the text has all of its expected size. -/
def gathered (raw : Bytes) (expected : Option Nat) : Bool := expected.any (· ≤ raw.length)

/-- A turn of the loop of `receive`: the next packet, with the size and the text so far. -/
def turn (peer : List Bytes) (arrival : Arrival) (raw : Bytes) (expected : Option Nat) : Op (Nat × Bytes) := do
  modify fun p => { p with taken := p.taken + 1 }
  let packet ← lift (arrival.deliver peer)
  charge packet.length
  lift (checkFragment (← channel).rx packet raw expected)

/-- The loop of `receive`. -/
def gather (peer : List Bytes) : List Arrival → Bytes → Option Nat → Op Bytes
  | [], raw, expected => if gathered raw expected then return raw else raise (quotaError "BRIDGE_TIMEOUT")
  | arrival :: rest, raw, expected =>
    if gathered raw expected then return raw
    else do
      let (size, raw) ← turn peer arrival raw expected
      gather peer rest raw (some size)

/-! ## Values -/

section

variable {F : Type} (host : Host F)

/-- The dict of a value, in key order. -/
def envelope (c : Channel) (value : Value F) : Except Fault (Value F) :=
  match c.version with
  | .one => .ok (.obj [("schema", .str c.version.schema), ("session", .str c.session), ("value", value)])
  | .two => do
    let encoded ← encodeBridgeValue host value
    return .obj [("phase", .str (jobPhases.getD c.phaseIndex "")), ("schema", .str c.version.schema),
      ("session", .str c.session), ("value", encoded)]

/-- `send` -/
def send (early : Option Fault) (sending : Nat → Sending) (late : Option Fault) (value : Value F) : Op Unit := guarded do
  time early
  let c ← channel
  lift (require (c.phaseTx < 64 && c.tx < c.version.exchanges) (quotaError "BRIDGE_EXCHANGE_LIMIT"))
  let value ← lift (envelope host c value)
  let raw ← lift (canonical host.floats value limit)
  transmit sending 0 (packetsOf c.tx raw)
  time late
  update fun c => { c with tx := c.tx + 1, phaseTx := c.phaseTx + 1 }

/-- The value of an envelope. -/
def opened (c : Channel) (read : Value F) : Except Fault (Value F) := do
  let fields ← keys read (["schema", "session", "value"] ++ if c.version = .two then ["phase"] else [])
  require (isStr (lookup fields "schema") c.version.schema && isStr (lookup fields "session") c.session)
    (quotaError "BRIDGE_SESSION")
  match c.version with
  | .one => return item fields "value"
  | .two => do
    require (isStr (lookup fields "phase") (jobPhases.getD c.phaseIndex "")) (quotaError "BRIDGE_PHASE_ORDER")
    decodeBridgeValue host (item fields "value")

/-- `receive` -/
def receive (early : Option Fault) (peer : List Bytes) (arrivals : List Arrival) (late : Option Fault) : Op (Value F) := guarded do
  let c ← channel
  lift (require (c.phaseRx < 64 && c.rx < c.version.exchanges) (quotaError "BRIDGE_EXCHANGE_LIMIT"))
  time early
  let raw ← gather peer arrivals [] none
  let read ← lift (load host.floats raw limit 20)
  let value ← lift (opened host c read)
  time late
  update fun c => { c with rx := c.rx + 1, phaseRx := c.phaseRx + 1 }
  return value

end

end LocalHand.QuotaBridge
