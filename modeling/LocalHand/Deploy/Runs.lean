/-
Runs over one store and one gate: the coordinator's calls, each in a world of its
own, and what others do with the gate in between.
-/
import LocalHand.Deploy.Coordinator
import LocalHand.MaintenanceBarrier

namespace LocalHand.Deploy

open Program Machine

variable {F : Type} [DecidableEq F]

inductive Call where
  | apply (plan : Plan)
  | resume (id : String)
  | rollback (id : String)
  | supersede (id : String) (plan : Plan)
  deriving Repr, DecidableEq

def Call.perform (site : Site F) (env : Env) : Call → M F Unit
  | .apply plan => Deploy.apply site env plan
  | .resume id => Deploy.resume site env id
  | .rollback id => Deploy.rollback site env id
  | .supersede id plan => Deploy.supersede site env id plan

/-- What survives a call. -/
structure Node (F : Type) where
  rows : List Operation
  gate : Option (Maintenance.Gate F)
  log : List Mark

/-- The operation in memory before it is first loaded does not matter. -/
def Node.enter (s : Node F) : Ctx F := ⟨s.rows, s.gate, s.log, s.rows.headD default, 0⟩

def Ctx.node (c : Ctx F) : Node F := ⟨c.rows, c.gate, c.log⟩

inductive Event (F : Type) where
  | call (call : Call) (env : Env)
  | gate (call : Maintenance.Call F) (io : Maintenance.Io)

/-- Only the coordinator moves the gate's owner. -/
def Node.next (site : Site F) (s : Node F) : Event F → Node F
  | .call call env => ((call.perform site env).from s.enter).2.node
  | .gate call io => if call.movesOwner then s else { s with gate := Maintenance.step site.gate s.gate (call, io) }

def Node.start : Node F := ⟨[], none, []⟩

end LocalHand.Deploy
