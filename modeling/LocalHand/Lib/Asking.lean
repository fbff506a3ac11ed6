/-
Programs over a core that put numbered questions to their surroundings, and a triple for
them. The surroundings answer by the number, so that no two answers need agree; a check, a
question and a call that may raise leave the core as it is.
-/
import LocalHand.Lib.Program

namespace Asking

open Program

variable {C ε α β : Type}

structure World (C : Type) where
  questions : Nat
  core : C

abbrev Op (C ε : Type) := Prog (World C) ε

def question : Op C ε Nat := do
  let w ← get
  set { w with questions := w.questions + 1 }
  return w.questions

/-- The next answer. -/
def ask (answers : Nat → α) : Op C ε α := do return answers (← question)

def lift : Except ε α → Op C ε α
  | .ok a => pure a
  | .error e => throw e

def raise (e : ε) : Op C ε α := throw e

/-- A check that raises where it fails. -/
def demand (ok : Bool) (e : ε) : Op C ε Unit := if ok then pure () else throw e

def throwIf : Option ε → Op C ε Unit
  | none => pure ()
  | some e => throw e

/-- A call that may raise. -/
def pass (faults : Nat → Option ε) : Op C ε Unit := do throwIf (faults (← question))

/-- A handler of some exceptions; the others go on. -/
def catching (handled : ε → Bool) (m : Op C ε α) (h : ε → Op C ε α) : Op C ε α :=
  tryCatch m fun e => if handled e then h e else throw e

def core : Op C ε C := do return (← get).core

def change (f : C → C) : Op C ε Unit := modify fun w => { w with core := f w.core }

/-! ## Triples -/

/-- From a core with `P`, the program returns with `Q` or raises with `E`. -/
def Triple (P : C → Prop) (m : Op C ε α) (Q : α → C → Prop) (E : C → Prop) : Prop :=
  Spec (fun w => P w.core) m (fun a w => Q a w.core) fun _ w => E w.core

namespace Triple

variable {P P' E E' : C → Prop} {Q Q' : α → C → Prop} {R : β → C → Prop}

theorem ret {a : α} (h : ∀ c, P c → Q a c) : Triple P (pure a : Op C ε α) Q E := fun w hw => h w.core hw

theorem raises {e : ε} (h : ∀ c, P c → E c) : Triple P (raise e : Op C ε α) Q E := fun w hw => h w.core hw

theorem bind {m : Op C ε α} {f : α → Op C ε β} (hm : Triple P m Q E) (hf : ∀ a, Triple (Q a) (f a) R E) :
    Triple P (m >>= f) R E := Spec.bind hm hf

theorem weaken {m : Op C ε α} (h : Triple P m Q E) (hpre : ∀ c, P' c → P c) (hpost : ∀ a c, Q a c → Q' a c)
    (hstop : ∀ c, E c → E' c) : Triple P' m Q' E' :=
  Spec.weaken h (fun w hw => hpre w.core hw) (fun a w hw => hpost a w.core hw) fun _ w hw => hstop w.core hw

theorem pre {m : Op C ε α} (h : Triple P m Q E) (hpre : ∀ c, P' c → P c) : Triple P' m Q E :=
  h.weaken hpre (fun _ _ h => h) fun _ h => h

theorem post {m : Op C ε α} (h : Triple P m Q E) (hpost : ∀ a c, Q a c → Q' a c) : Triple P m Q' E :=
  h.weaken (fun _ h => h) hpost fun _ h => h

/-- One core at a time. -/
theorem at_core {m : Op C ε α} (h : ∀ c, P c → Triple (· = c) m Q E) : Triple P m Q E := fun w hw => h w.core hw w rfl

/-- What holds apart from the core. -/
theorem assume {p : Prop} {m : Op C ε α} (h : p → Triple P m Q E) : Triple (fun c => P c ∧ p) m Q E := fun w hw => h hw.2 w hw.1

theorem core {f : C → Op C ε β} (h : ∀ c, P c → Triple (· = c) (f c) R E) : Triple P (Asking.core >>= f) R E :=
  fun w hw => h w.core hw w rfl

theorem change {g : C → C} {S : C → Prop} {f : Unit → Op C ε β} (hg : ∀ c, P c → S (g c)) (h : Triple S (f ()) R E) :
    Triple P (Asking.change g >>= f) R E := fun w hw => h { w with core := g w.core } (hg w.core hw)

theorem changed {g : C → C} {Q : Unit → C → Prop} (hg : ∀ c, P c → Q () (g c)) : Triple P (Asking.change g : Op C ε Unit) Q E :=
  fun w hw => hg w.core hw

theorem ask {answers : Nat → α} {f : α → Op C ε β} (h : ∀ n, Triple P (f (answers n)) R E) : Triple P (Asking.ask answers >>= f) R E :=
  fun w hw => h w.questions { w with questions := w.questions + 1 } hw

theorem asked {answers : Nat → α} (h : ∀ n c, P c → Q (answers n) c) : Triple P (Asking.ask answers : Op C ε α) Q E :=
  fun w hw => h w.questions w.core hw

theorem lift {x : Except ε α} {f : α → Op C ε β} (hE : ∀ c, P c → E c) (h : ∀ a, x = .ok a → Triple P (f a) R E) :
    Triple P (Asking.lift x >>= f) R E := by
  cases x with
  | ok a => exact h a rfl
  | error e => exact fun w hw => hE w.core hw

theorem lifted {x : Except ε α} (hE : ∀ c, P c → E c) (h : ∀ a, x = .ok a → ∀ c, P c → Q a c) : Triple P (Asking.lift x) Q E := by
  cases x with
  | ok a => exact ret (h a rfl)
  | error e => exact raises hE

theorem demand {ok : Bool} {e : ε} {f : Unit → Op C ε β} (hE : ∀ c, P c → E c) (h : ok = true → Triple P (f ()) R E) :
    Triple P (Asking.demand ok e >>= f) R E := by
  cases ok with
  | true => exact h rfl
  | false => exact fun w hw => hE w.core hw

theorem demanded {ok : Bool} {e : ε} {Q : Unit → C → Prop} (hE : ∀ c, P c → E c) (h : ok = true → ∀ c, P c → Q () c) :
    Triple P (Asking.demand ok e) Q E := by
  cases ok with
  | true => exact ret (h rfl)
  | false => exact raises hE

theorem passed {faults : Nat → Option ε} {Q : Unit → C → Prop} (hE : ∀ c, P c → E c) (h : ∀ c, P c → Q () c) :
    Triple P (Asking.pass faults) Q E := by
  refine bind (Q := fun _ => P) (fun w hw => hw) fun n => ?_
  cases faults n with
  | none => exact ret h
  | some e => exact raises hE

theorem pass {faults : Nat → Option ε} {f : Unit → Op C ε β} (hE : ∀ c, P c → E c) (h : Triple P (f ()) R E) :
    Triple P (Asking.pass faults >>= f) R E := bind (passed hE fun _ h => h) fun _ => h

theorem caught {handled : ε → Bool} {m : Op C ε α} {h : ε → Op C ε α} (hm : Triple P m Q E') (hh : ∀ e, handled e = true → Triple E' (h e) Q E)
    (hE : ∀ c, E' c → E c) : Triple P (Asking.catching handled m h) Q E := by
  refine Spec.handle hm fun e => ?_
  by_cases he : handled e = true
  · rw [if_pos he]
    exact hh e he
  · rw [if_neg he]
    exact Spec.raise fun w hw => hE w.core hw

/-- A list of calls, one after another. -/
theorem forM {l : List α} {f : α → Op C ε Unit} (h : ∀ a ∈ l, Triple P (f a) (fun _ => P) E) : Triple P (l.forM f) (fun _ => P) E := by
  induction l with
  | nil => exact ret fun _ h => h
  | cons a l ih =>
    have hcons : (a :: l).forM f = (f a >>= fun _ => l.forM f) := rfl
    rw [hcons]
    exact bind (h a List.mem_cons_self) fun _ => ih fun b hb => h b (List.mem_cons_of_mem a hb)

/-- Where a call ends, returning or raising. -/
theorem ends {m : Op C ε α} (h : Triple P m (fun _ => E) E) {w : World C} (hw : P w.core) : E (m.from w).2.core := by
  have hrun := h w hw
  generalize m.from w = run at hrun
  obtain ⟨result, t⟩ := run
  cases result <;> exact hrun

end Triple

/-! ## Triples that keep the exception -/

/-- From a core with `P`, the program returns with `Q`, or raises `e` with `E e`. -/
def Tells (P : C → Prop) (m : Op C ε α) (Q : α → C → Prop) (E : ε → C → Prop) : Prop :=
  Spec (fun w => P w.core) m (fun a w => Q a w.core) fun e w => E e w.core

namespace Tells

variable {P P' : C → Prop} {Q Q' : α → C → Prop} {R : β → C → Prop} {E E' : ε → C → Prop}

theorem ret {a : α} (h : ∀ c, P c → Q a c) : Tells P (pure a : Op C ε α) Q E := fun w hw => h w.core hw

theorem raises {e : ε} (h : ∀ c, P c → E e c) : Tells P (throw e : Op C ε α) Q E := fun w hw => h w.core hw

theorem bind {m : Op C ε α} {f : α → Op C ε β} (hm : Tells P m Q E) (hf : ∀ a, Tells (Q a) (f a) R E) :
    Tells P (m >>= f) R E := Spec.bind hm hf

theorem weaken {m : Op C ε α} (h : Tells P m Q E) (hpre : ∀ c, P' c → P c) (hpost : ∀ a c, Q a c → Q' a c)
    (hstop : ∀ e c, E e c → E' e c) : Tells P' m Q' E' :=
  Spec.weaken h (fun w hw => hpre w.core hw) (fun a w hw => hpost a w.core hw) fun e w hw => hstop e w.core hw

theorem handle {m : Op C ε α} {h : ε → Op C ε α} (hm : Tells P m Q E') (hh : ∀ e, Tells (E' e) (h e) Q E) :
    Tells P (tryCatch m h) Q E := Spec.handle hm hh

/-- One core at a time. -/
theorem at_core {m : Op C ε α} (h : ∀ c, P c → Tells (· = c) m Q E) : Tells P m Q E := fun w hw => h w.core hw w rfl

theorem core {f : C → Op C ε β} (h : ∀ c, P c → Tells (· = c) (f c) R E) : Tells P (Asking.core >>= f) R E :=
  fun w hw => h w.core hw w rfl

theorem changed {g : C → C} {Q : Unit → C → Prop} (hg : ∀ c, P c → Q () (g c)) : Tells P (Asking.change g : Op C ε Unit) Q E :=
  fun w hw => hg w.core hw

theorem ask {answers : Nat → α} {f : α → Op C ε β} (h : ∀ n, Tells P (f (answers n)) R E) : Tells P (Asking.ask answers >>= f) R E :=
  fun w hw => h w.questions { w with questions := w.questions + 1 } hw

theorem lifted {x : Except ε α} (h : ∀ a, x = .ok a → ∀ c, P c → Q a c) (hE : ∀ e, x = .error e → ∀ c, P c → E e c) :
    Tells P (Asking.lift x) Q E := by
  cases x with
  | ok a => exact ret (h a rfl)
  | error e => exact raises (hE e rfl)

theorem demanded {ok : Bool} {e : ε} {Q : Unit → C → Prop} (h : ok = true → ∀ c, P c → Q () c) (hE : ∀ c, P c → E e c) :
    Tells P (Asking.demand ok e) Q E := by
  cases ok with
  | true => exact ret (h rfl)
  | false => exact raises hE

theorem passed {faults : Nat → Option ε} {Q : Unit → C → Prop} (h : ∀ c, P c → Q () c) (hE : ∀ n e c, faults n = some e → P c → E e c) :
    Tells P (Asking.pass faults) Q E := by
  refine bind (Q := fun _ => P) (fun w hw => hw) fun n => ?_
  cases hfault : faults n with
  | none => exact ret h
  | some e => exact raises fun c hc => hE n e c hfault hc

end Tells

end Asking
