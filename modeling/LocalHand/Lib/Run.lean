/-
Runs of a machine given by a total step function: `exec` folds the step over
a list of labels, `Along` says a condition holds of every step a run takes.
The rules below are the only inductions over runs a client needs: a state
invariant, an invariant under a step condition, a transitive relation between
the two ends, and a count of the steps that do something.
-/

namespace Machine

variable {σ α : Type _}

/-- The state after taking the labels in order. -/
def exec (step : σ → α → σ) (s : σ) (as : List α) : σ := as.foldl step s

/-- Every step of the run meets `C`, a condition on the state before it and its label. -/
def Along (step : σ → α → σ) (C : σ → α → Prop) : σ → List α → Prop
  | _, [] => True
  | s, a :: as => C s a ∧ Along step C (step s a) as

/-- How many steps of the run meet `p`. -/
def countSteps (step : σ → α → σ) (p : σ → α → Bool) : σ → List α → Nat
  | _, [] => 0
  | s, a :: as => (if p s a then 1 else 0) + countSteps step p (step s a) as

variable {step : σ → α → σ} {C D : σ → α → Prop} {I : σ → Prop}

@[simp] theorem exec_nil (s : σ) : exec step s [] = s := rfl

@[simp] theorem exec_cons (s : σ) (a : α) (as : List α) :
    exec step s (a :: as) = exec step (step s a) as := rfl

theorem exec_append (s : σ) (as bs : List α) :
    exec step s (as ++ bs) = exec step (exec step s as) bs := by
  simp [exec, List.foldl_append]

theorem exec_snoc (s : σ) (as : List α) (a : α) :
    exec step s (as ++ [a]) = step (exec step s as) a := by
  simp [exec_append]

instance Along.decidable (step : σ → α → σ) (C : σ → α → Prop) [∀ s a, Decidable (C s a)] :
    ∀ s as, Decidable (Along step C s as)
  | _, [] => .isTrue trivial
  | s, a :: as =>
    have := Along.decidable step C (step s a) as
    inferInstanceAs (Decidable (C s a ∧ Along step C (step s a) as))

theorem Along.append {as bs : List α} : ∀ {s : σ}, Along step C s (as ++ bs) ↔
    Along step C s as ∧ Along step C (exec step s as) bs := by
  induction as with
  | nil => simp [Along]
  | cons a as ih =>
    intro s
    simp only [List.cons_append, Along, ih, exec_cons, and_assoc]

theorem Along.mono (h : ∀ s a, C s a → D s a) : ∀ {s : σ} {as : List α},
    Along step C s as → Along step D s as
  | _, [], _ => trivial
  | _, _ :: _, hr => ⟨h _ _ hr.1, Along.mono h hr.2⟩

theorem Along.of_forall (h : ∀ s a, C s a) : ∀ (s : σ) (as : List α), Along step C s as
  | _, [] => trivial
  | s, a :: as => ⟨h s a, Along.of_forall h (step s a) as⟩

/-- And its label is one of the run's. -/
theorem Along.and_mem {s : σ} {as : List α} (h : Along step C s as) {bs : List α} (hsub : ∀ a ∈ as, a ∈ bs) :
    Along step (fun s a => C s a ∧ a ∈ bs) s as := by
  induction as generalizing s with
  | nil => trivial
  | cons a as ih =>
    exact ⟨⟨h.1, hsub a List.mem_cons_self⟩, ih h.2 fun b hb => hsub b (List.mem_cons_of_mem a hb)⟩

/-- The invariant rule, for a run whose every step meets `C`. -/
theorem exec_inv_along (hstep : ∀ s a, I s → C s a → I (step s a)) :
    ∀ {s : σ} {as : List α}, I s → Along step C s as → I (exec step s as) := by
  intro s as
  induction as generalizing s with
  | nil => exact fun hs _ => hs
  | cons a as ih => exact fun hs hr => ih (hstep s a hs hr.1) hr.2

/-- The invariant rule. -/
theorem exec_inv (hstep : ∀ s a, I s → I (step s a)) {s : σ} {as : List α} (hs : I s) :
    I (exec step s as) :=
  exec_inv_along (C := fun _ _ => True) (fun s a h _ => hstep s a h) hs
    (Along.of_forall (fun _ _ => trivial) s as)

/-- A reflexive and transitive relation each step keeps, under an invariant,
holds between the ends of a run. -/
theorem exec_rel {R : σ → σ → Prop} (hrefl : ∀ s, R s s)
    (htrans : ∀ {s t u}, R s t → R t u → R s u)
    (hinv : ∀ s a, I s → C s a → I (step s a))
    (hstep : ∀ s a, I s → C s a → R s (step s a)) :
    ∀ {s : σ} {as : List α}, I s → Along step C s as → R s (exec step s as) := by
  intro s as
  induction as generalizing s with
  | nil => exact fun _ _ => hrefl s
  | cons a as ih => exact fun hs hr => htrans (hstep s a hs hr.1) (ih (hinv s a hs hr.1) hr.2)

/-- A step that can only be taken before some state is entered, and that
enters it, is taken at most once. -/
theorem countSteps_le_one {p : σ → α → Bool} {D : σ → Prop}
    (hinv : ∀ s a, I s → C s a → I (step s a))
    (henter : ∀ s a, I s → C s a → p s a = true → D (step s a))
    (hkeep : ∀ s a, I s → C s a → D s → D (step s a))
    (honce : ∀ s a, I s → C s a → D s → p s a = false) :
    ∀ {s : σ} {as : List α}, I s → Along step C s as → countSteps step p s as ≤ 1 := by
  have done : ∀ {s : σ} {as : List α}, I s → D s → Along step C s as →
      countSteps step p s as = 0 := by
    intro s as
    induction as generalizing s with
    | nil => simp [countSteps]
    | cons a as ih =>
      intro hs hd hr
      simp only [countSteps, honce s a hs hr.1 hd, Bool.false_eq_true, if_false, Nat.zero_add]
      exact ih (hinv s a hs hr.1) (hkeep s a hs hr.1 hd) hr.2
  intro s as
  induction as generalizing s with
  | nil => simp [countSteps]
  | cons a as ih =>
    intro hs hr
    simp only [countSteps]
    by_cases hp : p s a = true
    · rw [done (hinv s a hs hr.1) (henter s a hs hr.1 hp) hr.2]
      simp [hp]
    · simp only [hp, Bool.false_eq_true, if_false, Nat.zero_add]
      exact ih (hinv s a hs hr.1) hr.2

/-! ## Histories -/

/-- A call a history has is an earlier one or the one it has just gained. -/
theorem getElem?_snoc {α : Type} {l : List α} {a b : α} {i : Nat} (h : (l ++ [a])[i]? = some b) :
    l[i]? = some b ∨ (i = l.length ∧ b = a) := by
  rw [List.getElem?_append] at h
  split at h
  · exact .inl h
  · rw [List.getElem?_singleton] at h
    split at h
    · exact .inr ⟨by omega, (Option.some.inj h).symm⟩
    · cases h

theorem getElem?_keep {α : Type} {l : List α} {a : α} {i : Nat} (h : l[i]? = some a) (more : List α) :
    (l ++ more)[i]? = some a := by
  rw [List.getElem?_append_left (List.getElem?_eq_some_iff.mp h).1]
  exact h

end Machine
