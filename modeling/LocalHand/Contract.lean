/-
What every part of the job service shares from `contract.py`: the errors a
call raises and the fixed textual patterns.
-/
import Mathlib.Algebra.Order.Ring.Int
import Mathlib.Tactic.Common

namespace LocalHand

/-- What a call raises. `job` is a `JobError` with its code and message, and
`budget` its subclass `BudgetExhausted`; `busy` is `LedgerBusy`, for a
transaction that was not run at all; `runner` is a `RunnerError`; `value` and
`key` are Python's own. -/
inductive Fault where
  | job (code message : String)
  | budget (message : String)
  | busy
  | runner (code message : String)
  | value (text : String)
  | key (name : String)
  | os
  deriving Repr, DecidableEq

/-- The code a `JobError` carries. -/
def Fault.code : Fault → Option String
  | .job code _ => some code
  | .budget _ => some "LIMIT_EXCEEDED"
  | _ => none

/-- `raise` unless the check holds. -/
def require (ok : Bool) (fault : Fault) : Except Fault Unit :=
  if ok then .ok () else .error fault

/-- A computation with a bind succeeded: both halves did. -/
theorem bind_ok_iff {ε α β : Type} {x : Except ε α} {f : α → Except ε β} {b : β} :
    (x >>= f) = .ok b ↔ ∃ a, x = .ok a ∧ f a = .ok b := by
  cases x <;> simp [bind, Except.bind]

@[simp] theorem require_ok {ok : Bool} {fault : Fault} {u : Unit} :
    require ok fault = .ok u ↔ ok = true := by
  cases ok <;> simp [require]

/-- A computation with a bind succeeded: both halves did. -/
theorem bind_ok {α β : Type} {x : Except Fault α} {f : α → Except Fault β} {b : β} :
    (x >>= f) = .ok b ↔ ∃ a, x = .ok a ∧ f a = .ok b := by
  cases x <;> simp [bind, Except.bind]

theorem exists_unit {p : Unit → Prop} : (∃ u, p u) ↔ p () :=
  ⟨fun ⟨_, h⟩ => h, fun h => ⟨(), h⟩⟩

/-- A check of every member passed. -/
theorem forM_ok {α : Type} {l : List α} {f : α → Except Fault Unit} :
    l.forM f = .ok () ↔ ∀ a ∈ l, f a = .ok () := by
  induction l with
  | nil => simp [pure, Except.pure]
  | cons a l ih =>
    have hcons : (a :: l).forM f = (f a >>= fun _ => l.forM f) := rfl
    rw [hcons, bind_ok, List.forall_mem_cons, ih]
    exact ⟨fun ⟨_, h⟩ => h, fun h => ⟨(), h⟩⟩

def isLowerHex (c : Char) : Bool := c.isDigit || ('a' ≤ c && c ≤ 'f')

/-- `re.fullmatch(r"[0-9a-f]{n}", text)` -/
def hexText (n : Nat) (text : String) : Bool :=
  text.toList.length = n && text.toList.all isLowerHex

/-- Runs of lower-case hexadecimal digits of the given lengths, joined by `-`. -/
def hexRuns : List Nat → List Char → Bool
  | [], cs => cs.isEmpty
  | [n], cs => cs.length = n && cs.all isLowerHex
  | n :: ns, cs => (cs.take n).length = n && (cs.take n).all isLowerHex
      && match cs.drop n with
      | '-' :: rest => hexRuns ns rest
      | _ => false

/-- `UUID_PATTERN` -/
def uuidText (text : String) : Bool := hexRuns [8, 4, 4, 4, 12] text.toList

def maxSafeInteger : Int := 9007199254740991

/-! ## Names of executions -/

inductive Namespace where
  | job | reconcile
  deriving Repr, DecidableEq

/-- Every value a record's `phase` takes, and, in lower case, the keys of its
per-phase members. Only the first four name an execution. -/
inductive Phase where
  | preflight | business | reconcile | evidence
  | queued | preflightComplete | awaitingSeal | exited
  | cancelledBeforeStart | cancelledBeforeBusiness
  deriving Repr, DecidableEq

inductive Stage where
  | bootstrap | helper | resultReader
  deriving Repr, DecidableEq

def Namespace.text : Namespace → String
  | .job => "job"
  | .reconcile => "reconcile"

/-- `record["phase"].lower()` -/
def Phase.text : Phase → String
  | .preflight => "preflight"
  | .business => "business"
  | .reconcile => "reconcile"
  | .evidence => "evidence"
  | .queued => "queued"
  | .preflightComplete => "preflight_complete"
  | .awaitingSeal => "awaiting_seal"
  | .exited => "exited"
  | .cancelledBeforeStart => "cancelled_before_start"
  | .cancelledBeforeBusiness => "cancelled_before_business"

def Stage.text : Stage → String
  | .bootstrap => "bootstrap"
  | .helper => "helper"
  | .resultReader => "result_reader"

/-- The phases of each namespace that run an execution, in order (`_PHASES`). -/
def Namespace.phases : Namespace → List Phase
  | .job => [.preflight, .business, .evidence]
  | .reconcile => [.reconcile, .evidence]

/-- An execution: one phase of one record. -/
structure ExecId where
  ns : Namespace
  id : String
  phase : Phase
  deriving Repr, DecidableEq

/-- `f"{namespace}-{identity}-{phase}"` -/
def ExecId.text (e : ExecId) : String :=
  e.ns.text ++ "-" ++ e.id ++ "-" ++ e.phase.text

/-- A manager delivery: a whole execution, or one stage of it. -/
structure DeliveryId where
  exec : ExecId
  stage : Option Stage
  deriving Repr, DecidableEq

def DeliveryId.text (d : DeliveryId) : String :=
  match d.stage with
  | none => d.exec.text
  | some stage => d.exec.text ++ ":" ++ stage.text

end LocalHand
