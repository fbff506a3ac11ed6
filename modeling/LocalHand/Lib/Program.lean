/-
Programs over a state that may stop with an exception, and their triples:
`Spec P m Q E` says that from a state with `P` the program `m` either returns a
value with `Q` or stops with `E`. A crash is an exception no handler takes.
-/
import Mathlib.Tactic.Common

namespace Program

variable {σ ε α β : Type}

abbrev Prog (σ ε : Type) := ExceptT ε (StateM σ)

/-- The run from a state: what it gives and the state it leaves. -/
def Prog.from (m : Prog σ ε α) (s : σ) : Except ε α × σ := Id.run (StateT.run (ExceptT.run m) s)

@[simp] theorem from_pure (a : α) (s : σ) : (pure a : Prog σ ε α).from s = (.ok a, s) := rfl

theorem from_bind (m : Prog σ ε α) (f : α → Prog σ ε β) (s : σ) :
    (m >>= f).from s = match m.from s with
      | (.ok a, t) => (f a).from t
      | (.error e, t) => (.error e, t) := by
  show Id.run (StateT.run (ExceptT.run (m >>= f)) s) = _
  simp only [ExceptT.run_bind, StateT.run_bind, Id.run_bind]
  unfold Prog.from
  cases h : Id.run (StateT.run (ExceptT.run m) s) with
  | mk r t => cases r <;> rfl

theorem from_bind_ok {m : Prog σ ε α} {f : α → Prog σ ε β} {s t : σ} {a : α} (h : m.from s = (.ok a, t)) :
    (m >>= f).from s = (f a).from t := by
  rw [from_bind, h]

theorem from_bind_error {m : Prog σ ε α} {f : α → Prog σ ε β} {s t : σ} {e : ε} (h : m.from s = (.error e, t)) :
    (m >>= f).from s = (.error e, t) := by
  rw [from_bind, h]

@[simp] theorem from_throw (e : ε) (s : σ) : (throw e : Prog σ ε α).from s = (.error e, s) := rfl

@[simp] theorem from_get (s : σ) : (get : Prog σ ε σ).from s = (.ok s, s) := rfl

@[simp] theorem from_set (s t : σ) : (set t : Prog σ ε Unit).from s = (.ok (), t) := rfl

@[simp] theorem from_modify (f : σ → σ) (s : σ) : (modify f : Prog σ ε Unit).from s = (.ok (), f s) := rfl

theorem from_tryCatch (m : Prog σ ε α) (h : ε → Prog σ ε α) (s : σ) :
    (tryCatch m h).from s = match m.from s with
      | (.ok a, t) => (.ok a, t)
      | (.error e, t) => (h e).from t := by
  cases hr : m.from s with
  | mk r t =>
    have hrun : m s = (r, t) := hr
    show ExceptT.tryCatch m h s = _
    simp only [ExceptT.tryCatch, ExceptT.mk, Bind.bind, StateT.bind, hrun]
    cases r <;> rfl

theorem from_tryCatch_ok {m : Prog σ ε α} {h : ε → Prog σ ε α} {s t : σ} {a : α} (hm : m.from s = (.ok a, t)) :
    (tryCatch m h).from s = (.ok a, t) := by
  rw [from_tryCatch, hm]

/-- From `P`, the program returns with `Q` or stops with `E`. -/
def Spec (P : σ → Prop) (m : Prog σ ε α) (Q : α → σ → Prop) (E : ε → σ → Prop) : Prop :=
  ∀ s, P s → match m.from s with
    | (.ok a, t) => Q a t
    | (.error e, t) => E e t

namespace Spec

variable {P P' : σ → Prop} {Q Q' : α → σ → Prop} {R : β → σ → Prop} {E E' : ε → σ → Prop}

theorem ok {m : Prog σ ε α} (h : Spec P m Q E) {s t : σ} {a : α} (hs : P s) (hr : m.from s = (.ok a, t)) : Q a t := by
  have := h s hs
  rwa [hr] at this

theorem error {m : Prog σ ε α} (h : Spec P m Q E) {s t : σ} {e : ε} (hs : P s) (hr : m.from s = (.error e, t)) : E e t := by
  have := h s hs
  rwa [hr] at this

theorem ret {a : α} (h : ∀ s, P s → Q a s) : Spec P (pure a) Q E := fun s hs => h s hs

theorem bind {m : Prog σ ε α} {f : α → Prog σ ε β} (hm : Spec P m Q E) (hf : ∀ a, Spec (Q a) (f a) R E) :
    Spec P (m >>= f) R E := by
  intro s hs
  have h := hm s hs
  rw [from_bind]
  cases hr : m.from s with
  | mk r t =>
    rw [hr] at h
    cases r with
    | ok a => exact hf a t h
    | error e => exact h

theorem raise {e : ε} (h : ∀ s, P s → E e s) : Spec P (throw e : Prog σ ε α) Q E := fun s hs => h s hs

theorem read {Q : σ → σ → Prop} (h : ∀ s, P s → Q s s) : Spec P (get : Prog σ ε σ) Q E := fun s hs => h s hs

theorem update {f : σ → σ} {Q : Unit → σ → Prop} (h : ∀ s, P s → Q () (f s)) :
    Spec P (modify f : Prog σ ε Unit) Q E := fun s hs => h s hs

theorem handle {m : Prog σ ε α} {h : ε → Prog σ ε α} {T : ε → σ → Prop} (hm : Spec P m Q T) (hh : ∀ e, Spec (T e) (h e) Q E) :
    Spec P (tryCatch m h) Q E := by
  intro s hs
  have hrun := hm s hs
  rw [from_tryCatch]
  cases hr : m.from s with
  | mk r t =>
    rw [hr] at hrun
    cases r with
    | ok a => exact hrun
    | error e => exact hh e t hrun

theorem weaken {m : Prog σ ε α} {A : σ → Prop} (h : Spec P m Q E) (hpre : ∀ s, A s → P s) (hpost : ∀ a s, Q a s → Q' a s)
    (hstop : ∀ e s, E e s → E' e s) : Spec A m Q' E' := by
  intro s hs
  have hrun := h s (hpre s hs)
  cases hr : m.from s with
  | mk r t =>
    rw [hr] at hrun
    cases r with
    | ok a => exact hpost a t hrun
    | error e => exact hstop e t hrun

theorem pre {m : Prog σ ε α} (h : Spec P m Q E) (hpre : ∀ s, P' s → P s) : Spec P' m Q E :=
  h.weaken hpre (fun _ _ h => h) fun _ _ h => h

/-- A precondition that is not of the state. -/
theorem assume {m : Prog σ ε α} {p : Prop} (h : p → Spec P m Q E) : Spec (fun s => P s ∧ p) m Q E := fun s hs => h hs.2 s hs.1

end Spec

/-- The program returns or raises with the invariant it started with. -/
abbrev Keeps (I : σ → Prop) (m : Prog σ ε α) : Prop := Spec I m (fun _ => I) (fun _ => I)

end Program
