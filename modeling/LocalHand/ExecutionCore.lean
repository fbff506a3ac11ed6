/-
The stages of a supervised execution (`_SystemdExecutionCore` of `runner.py`): a handle holds
a part for each stage it began to deliver, and an `inspect` observes the parts and delivers the
next stage, the helper after the bootstrap and the result reader after the helper.

What the manager, the pipes and the start guard do is answered from outside, and so is every
exception. A handle also remembers the deliveries that failed before their stage was launched.
-/
import LocalHand.Lib.Run

namespace LocalHand.ExecutionCore

/-- An exception, by its class: a `RunnerError`, a `JobError`, an `OSError` or another. -/
inductive Exc where
  | runner (code : String)
  | job (code : String)
  | os
  | other
  deriving Repr, DecidableEq

inductive Stage where
  | bootstrap
  | helper
  | resultReader
  deriving Repr, DecidableEq

/-- The part of a stage: the flags that are looked at. -/
structure Part where
  stage : Stage
  launched : Bool
  deliveryAttempted : Bool
  cancelBeforeLaunch : Bool
  quotaTransport : Bool
  reader : Bool
  pipeError : Option String
  pipeClosed : Bool
  deriving Repr, DecidableEq

/-- `_new_stage` -/
def newStage (stage : Stage) : Part := ⟨stage, false, false, false, false, false, none, false⟩

inductive State where
  | exited
  | running
  | unknown
  deriving Repr, DecidableEq

/-- The `result` of a proof. -/
structure Result where
  outcome : Option String
  bootstrapPrepared : Bool
  businessStarted : Bool
  helperStarted : Bool
  error : Option String
  deriving Repr, DecidableEq

structure Proof where
  state : State
  futureStartBlocked : Bool
  treeExited : Bool
  collectorsStopped : Bool
  writersStopped : Bool
  effectsChecked : Bool
  exitCode : Option Int
  identified : Bool
  deadlineExpired : Bool
  helperResultVerified : Bool
  result : Result
  missing : List String
  deriving Repr, DecidableEq

def noResult : Result := ⟨none, false, false, false, none⟩

/-- `_unknown` -/
def unknown (reason : String) : Proof := ⟨.unknown, false, false, false, false, false, none, false, false, false, noResult, [reason]⟩

/-- What `first_exited` looks at. -/
def Proof.blocked (proof : Proof) : Bool := proof.state = .exited && proof.futureStartBlocked && proof.treeExited

/-- `_stage_exited` -/
def Proof.stageExited (proof : Proof) : Bool := proof.blocked && proof.collectorsStopped && proof.writersStopped

/-! ## Observation -/

/-- What the observation of one part meets. -/
structure Look where
  /-- `_check_manager_binding` -/
  binding : Option Exc
  /-- `quota_lifecycle.observe` of a part with a client. -/
  quota : Except Exc Proof
  sameBoot : Bool
  /-- The client has exited with status zero. -/
  acknowledged : Bool
  /-- The manager's account of the unit. -/
  manager : Except Exc Proof
  /-- What the pipe's reader says of what it is fed, and what breaks the reading. -/
  fed : Option String
  broken : Option String
  bound : Option String
  stopped : Option Exc
  /-- The client is stopped and its pipe closed, and what that notes. -/
  finished : Bool
  sealing : Option String
  cleanup : Option String

/-- The proof of a stage whose launch the start guard refused. -/
def prevented : Proof :=
  ⟨.exited, true, true, true, true, true, none, false, false, false, ⟨some "CANCELLED", false, false, false, none⟩, []⟩

/-- `_inspect_unit` -/
def inspectUnit (look : Look) (part : Part) : Except Exc Proof :=
  match look.binding with
  | some e => .error e
  | none =>
    if part.cancelBeforeLaunch then
      if part.deliveryAttempted || part.launched then .error (.runner "IO_UNCERTAIN") else .ok prevented
    -- `pump` asks for a launched client first.
    else if part.quotaTransport then if part.launched then look.quota else .error .other
    else if !look.sameBoot then .ok (unknown "boot identity changed; reconcile durable ownership")
    else if part.stage ≠ .resultReader ∧ !(part.launched && look.acknowledged) then
      .ok (unknown "manager start request has not been acknowledged")
    else look.manager

/-- `_drain_reader` -/
def drainReader (look : Look) (part : Part) : Part :=
  if part.launched && !part.pipeClosed then { part with pipeError := look.broken.or (part.pipeError.or look.fed) } else part

/-- `_finish_reader_transport` -/
def finishReaderTransport (look : Look) (part : Part) : Bool × Part :=
  if part.pipeClosed then (true, part)
  else if !part.launched then (false, { part with pipeError := some "result transport receipt is missing" })
  else (look.finished, { part with pipeError := look.cleanup.or (part.pipeError.or look.sealing), pipeClosed := look.finished })

/-- The pipe of a reader that was observed exited is closed. -/
def closeReader (look : Look) (part : Part) (proof : Proof) : Proof × Part :=
  if !proof.stageExited then (proof, part)
  else if (finishReaderTransport look part).1 then (proof, (finishReaderTransport look part).2)
  else ({ proof with state := .unknown, collectorsStopped := false,
                     missing := ["reader unit exited; its local collector has not stopped"] }, (finishReaderTransport look part).2)

/-- What `observe` does with the proof of a reader's part. -/
def observeReader (look : Look) (part : Part) (proof : Proof) : Proof × Part :=
  match (if proof.identified then look.bound else none), look.stopped with
  | some error, some _ => (unknown "original stage observation is uncertain", { part with pipeError := some error })
  | refused, _ => closeReader look { part with pipeError := refused.or part.pipeError } proof

/-- `observe` -/
def observe (look : Look) (part : Part) : Proof × Part :=
  let part := if part.stage = .resultReader ∧ !part.quotaTransport then drainReader look part else part
  match inspectUnit look part with
  | .error _ => (unknown "original stage observation is uncertain", part)
  | .ok proof => if part.reader then observeReader look part proof else (proof, part)

/-! ## Delivery -/

/-- What the start guard does with the delivery it is given. -/
structure Guard where
  /-- It calls `deliver`. -/
  delivers : Bool
  /-- A bounded launch runtime remains. -/
  runtime : Bool
  /-- The client was made. -/
  launched : Bool
  /-- What it raises, or whether it returns a receipt. -/
  outcome : Except Exc Bool

/-- What a delivery meets: an exception before the part is registered, before its transport, before
its reader and before the guard, or the guard. -/
structure Delivery where
  early : Option Exc
  properties : Option Exc
  command : Option Exc
  late : Option Exc
  guard : Guard

/-- A delivery that failed while its stage was not launched. -/
structure Refusal where
  stage : Stage
  /-- The part was registered in the handle. -/
  registered : Bool
  /-- The start guard raised. -/
  guarded : Bool
  exc : Exc
  deriving Repr, DecidableEq

structure Handle where
  /-- The version is 3. -/
  three : Bool
  fullCapture : Bool
  cancelled : Bool
  bootstrap : Part
  helper : Option Part
  resultReader : Option Part
  helperAttempted : Bool
  readerAttempted : Bool
  transitionError : Option String
  readerError : Option String
  refusals : List Refusal
  deriving DecidableEq

def Handle.register (h : Handle) (stage : Stage) (part : Part) : Handle :=
  match stage with
  | .bootstrap => { h with bootstrap := part }
  | .helper => { h with helper := some part }
  | .resultReader => { h with resultReader := some part }

def Handle.note (h : Handle) (refusal : Refusal) : Handle := { h with refusals := h.refusals ++ [refusal] }

/-- The way to the start guard: the part it is given, or an exception and the part registered by then. -/
def prepare (d : Delivery) (fullCapture : Bool) (stage : Stage) : Except (Option Part × Exc) Part :=
  match d.early with
  | some e => .error (none, e)
  | none =>
    let part := newStage stage
    match d.properties with
    | some e => .error (some part, e)
    | none =>
      let part := { part with quotaTransport := fullCapture }
      match d.command with
      | some e => .error (some part, e)
      | none =>
        let part := { part with reader := stage = .resultReader }
        match d.late with
        | some e => .error (some part, e)
        | none => .ok part

/-- `deliver` -/
def deliver (guard : Guard) (cancelled : Bool) (part : Part) : Part :=
  if guard.delivers && !cancelled && guard.runtime then { part with deliveryAttempted := true, launched := guard.launched } else part

/-- `except JobError` of `_deliver_stage` -/
def wrapped : Exc → Exc
  | .job code => .runner code
  | e => e

/-- The handlers around the start guard. -/
def guardWrapped : Exc → Exc
  | .job code => .runner code
  | .os => .runner "IO_UNCERTAIN"
  | e => e

/-- `_deliver_stage` -/
def deliverStage (d : Delivery) (h : Handle) (stage : Stage) : Except Exc Part × Handle :=
  match prepare d h.fullCapture stage with
  | .error (none, e) => (.error (wrapped e), h.note ⟨stage, false, false, e⟩)
  | .error (some part, e) => (.error (wrapped e), (h.register stage part).note ⟨stage, true, false, e⟩)
  | .ok part =>
    let part := deliver d.guard h.cancelled part
    let h := h.register stage part
    match d.guard.outcome with
    | .error e => (.error (wrapped (guardWrapped e)), if part.deliveryAttempted then h else h.note ⟨stage, true, true, e⟩)
    | .ok true => (.ok part, h)
    | .ok false =>
      if part.deliveryAttempted then (.error (.runner "IO_UNCERTAIN"), h)
      else (.ok { part with cancelBeforeLaunch := true }, h.register stage { part with cancelBeforeLaunch := true })

/-! ## A tick -/

/-- What an `inspect` meets. -/
structure Tick where
  binding : Option Exc
  bootstrap : Look
  helper : Look
  resultReader : Look
  helperDelivery : Delivery
  readerDelivery : Delivery
  /-- What stopping a reader with an error raises. -/
  stopping : Option Exc
  /-- The result a finished reader has, by its `effects_checked`. -/
  verified : Option Bool

/-- `_bootstrap_terminal` -/
def bootstrapTerminal (h : Handle) (proof : Proof) (outcome : String) (error : Option String) : Proof :=
  { proof with exitCode := some 1,
               result := ⟨some outcome, proof.result.bootstrapPrepared, false, !h.bootstrap.cancelBeforeLaunch, error⟩ }

/-- `_unavailable_result` -/
def unavailableResult (helperProof : Proof) (reason : String) : Proof :=
  { helperProof with effectsChecked := false, helperResultVerified := false,
                     result := ⟨some "UNKNOWN", false, false, true, none⟩, missing := [reason] }

/-- A text counts unless it is empty. -/
def truthy (text : Option String) : Bool := text.any (· ≠ "")

/-- `or` of a text that may be missing. -/
def orText (text : Option String) (default : String) : String := if truthy text then text.getD default else default

/-- A reader that was delivered is observed, and its result taken. -/
def readResult (tick : Tick) (h : Handle) (helperProof : Proof) (part : Part) : Except Exc Proof × Handle :=
  if part.cancelBeforeLaunch then (.ok (unavailableResult helperProof "result reader startup guard refused delivery"), h)
  else
    let (third, part) := observe tick.resultReader part
    let h := { h with resultReader := some part }
    match (if truthy part.pipeError && !third.stageExited then tick.stopping else none) with
    | some e => (.error e, h)
    | none =>
      if !third.stageExited then (.ok third, h)
      else
        let (finished, part) := finishReaderTransport tick.resultReader part
        let h := { h with resultReader := some part }
        if !finished then (.ok (unknown "result reader exited; its local collector has not stopped"), h)
        else if third.exitCode ≠ some 0 ∨ truthy part.pipeError ∨ third.deadlineExpired then
          (.ok (unavailableResult helperProof (orText part.pipeError (if third.deadlineExpired
            then "Result reader exit observed after runtime deadline; result remains unverified"
            else "result reader did not exit successfully"))), h)
        else
          match tick.verified with
          | none => (.ok (unavailableResult helperProof "result reader did not return a complete verified result"), h)
          | some effectsChecked => (.ok { helperProof with effectsChecked, helperResultVerified := true, missing := [] }, h)

/-- `_inspect_result_reader` -/
def inspectResultReader (tick : Tick) (h : Handle) (helperProof : Proof) : Except Exc Proof × Handle :=
  if !helperProof.stageExited then
    (.ok helperProof, { h with resultReader := h.resultReader.map fun part => (observe tick.resultReader part).2 })
  else
    match h.resultReader with
    | some part =>
      if !part.deliveryAttempted && truthy h.readerError then
        (.ok (unavailableResult helperProof ("result reader refused: " ++ h.readerError.getD "")), h)
      else readResult tick h helperProof part
    | none =>
      if h.cancelled then (.ok (unavailableResult helperProof "cancelled before result observation; no new reader is authorized"), h)
      else if h.readerAttempted then (.ok (unavailableResult helperProof (orText h.readerError "result reader was not delivered")), h)
      else
        match deliverStage tick.readerDelivery { h with readerAttempted := true } .resultReader with
        | (.ok part, h) => readResult tick h helperProof part
        | (.error (.runner code), h) =>
          let h := { h with readerError := some code }
          if h.resultReader.any Part.deliveryAttempted then (.error (.runner code), h)
          else (.ok (unavailableResult helperProof ("result reader refused: " ++ code)), h)
        | (.error e, h) => (.error e, h)

/-- The helper is observed, and after it the reader. -/
def inspectHelper (tick : Tick) (h : Handle) (first : Proof) (part : Part) : Except Exc Proof × Handle :=
  let (second, observed) := observe tick.helper part
  let h := { h with helper := some observed }
  if observed.cancelBeforeLaunch then (.ok (bootstrapTerminal h first "CANCELLED" none), h)
  else if h.three then inspectResultReader tick h second
  else (.ok second, h)

/-- The helper is delivered, if it was not. -/
def afterBootstrap (tick : Tick) (h : Handle) (first : Proof) : Except Exc Proof × Handle :=
  if h.transitionError.isSome && !h.helper.any Part.deliveryAttempted then (.ok (bootstrapTerminal h first "FAILED" h.transitionError), h)
  else
    match h.helper with
    | some part => inspectHelper tick h first part
    | none =>
      if h.cancelled then (.ok (bootstrapTerminal h first "CANCELLED" none), h)
      else if h.helperAttempted then (.ok (bootstrapTerminal h first "FAILED" (some (orText h.transitionError "IO_UNCERTAIN"))), h)
      else
        match deliverStage tick.helperDelivery { h with helperAttempted := true } .helper with
        | (.ok part, h) => inspectHelper tick h first part
        | (.error (.runner code), h) =>
          let h := { h with transitionError := some code }
          if h.helper.any Part.deliveryAttempted then (.error (.runner code), h)
          else (.ok (bootstrapTerminal h first "FAILED" (some code)), h)
        | (.error e, h) => (.error e, h)

/-- `inspect` -/
def inspect (tick : Tick) (h : Handle) : Except Exc Proof × Handle :=
  match tick.binding with
  | some e => (.error e, h)
  | none =>
    let (first, bootstrap) := observe tick.bootstrap h.bootstrap
    let h := { h with bootstrap }
    if !first.blocked then
      (.ok first, { h with helper := h.helper.map fun part => (observe tick.helper part).2,
                           resultReader := h.resultReader.map fun part => (observe tick.resultReader part).2 })
    else if !first.result.bootstrapPrepared then
      (.ok (bootstrapTerminal h first (if first.result.outcome = some "CANCELLED" then "CANCELLED" else "FAILED") none), h)
    else afterBootstrap tick h first

/-! ## Runs -/

/-- A tick, or the cancellation that a `stop` makes as well. -/
inductive Label where
  | inspect (tick : Tick)
  | cancel

def step (h : Handle) : Label → Handle
  | .inspect tick => (inspect tick h).2
  | .cancel => { h with cancelled := true }

/-- A handle as it leaves `_start`, its bootstrap delivered or refused. -/
structure Fresh (h : Handle) : Prop where
  stage : h.bootstrap.stage = .bootstrap
  reader : h.bootstrap.reader = false
  helper : h.helper = none
  resultReader : h.resultReader = none
  helperAttempted : h.helperAttempted = false
  readerAttempted : h.readerAttempted = false
  transitionError : h.transitionError = none
  readerError : h.readerError = none
  refusals : h.refusals = []

end LocalHand.ExecutionCore
