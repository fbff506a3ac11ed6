/-
What a compare-and-swap write reports of what it did, whatever other programs do to the file
between its steps.

A look at the file changes nothing, so the core after each part is known from the one before
it; only the exceptions of a part tell the classes of errors apart.
-/
import LocalHand.CasWrite

namespace LocalHand.CasWrite

open PyJson ResultReader Program Asking
open Framing (Bytes)

variable {α β : Type} {F : Type}

def Fault.isHand : Fault → Bool
  | .hand _ _ _ => true
  | _ => false

def Fault.isOs : Fault → Bool
  | .os _ => true
  | _ => false

section

variable {P P' : Core → Prop} {Q : α → Core → Prop} {R : β → Core → Prop} {E G : Fault → Core → Prop} (env : Env)

theorem tells_call {Q : Unit → Core → Prop} (h : ∀ c, P c → Q () c) (hE : ∀ errno c, P c → E (.os errno) c) : Tells P (call env) Q E := by
  refine Tells.passed h fun n e c he hc => ?_
  cases hn : env.fails n with
  | none => rw [hn] at he; cases he
  | some errno =>
    rw [hn] at he
    cases he
    exact hE errno c hc

theorem tells_answer {answers : Nat → Except (Option Int) α} (h : ∀ a c, P c → Q a c) (hE : ∀ errno c, P c → E (.os errno) c) :
    Tells P (answer answers) Q E := by
  refine Tells.ask fun n => Tells.lifted (fun a _ c hc => h a c hc) fun e he c hc => ?_
  cases hn : answers n with
  | ok a => rw [hn] at he; cases he
  | error errno =>
    rw [hn] at he
    cases he
    exact hE errno c hc

/-- An `OSError` goes on under another name. -/
theorem tells_onOsError {m : Act α} {f : Option Int → Fault} (hm : Tells P m Q G) (hos : ∀ errno c, G (.os errno) c → E (f errno) c)
    (hE : ∀ e c, e.isOs = false → G e c → E e c) : Tells P (onOsError m f) Q E := by
  refine hm.handle fun e => ?_
  cases e with
  | hand code message status => exact Tells.raises fun c hc => hE _ c rfl hc
  | os errno => exact Tells.raises fun c hc => hos errno c hc
  | other => exact Tells.raises fun c hc => hE _ c rfl hc

theorem tells_closing {m : Act α} {failing done : Act Unit} {T : α → Core → Prop} (hm : Tells P m T G)
    (hfailing : ∀ e, Tells (G e) failing (fun _ => E e) E) (hdone : ∀ a, Tells (T a) done (fun _ => Q a) E) :
    Tells P (closing m failing done) Q E := by
  refine (hm.handle fun e => (hfailing e).bind fun _ => Tells.raises fun _ h => h).bind fun a => ?_
  exact (hdone a).bind fun _ => Tells.ret fun _ h => h

theorem tells_quietly {m : Act Unit} {Q : Unit → Core → Prop} (hm : Tells P m Q fun e c => e.isOs = true ∧ Q () c) :
    Tells P (quietly m) Q E := by
  refine hm.handle fun e => ?_
  cases e with
  | hand code message status => exact Tells.raises fun c hc => absurd hc.1 Bool.false_ne_true
  | os errno => exact Tells.ret fun c hc => hc.2
  | other => exact Tells.raises fun c hc => absurd hc.1 Bool.false_ne_true

/-! ## A look at the file -/

/-- A part that looks at the file, and raises what `p` allows. -/
abbrev Looks (p : Fault → Prop) (m : Act α) : Prop := ∀ P : Core → Prop, Tells P m (fun _ => P) fun e c => p e ∧ P c

theorem call_looks : Looks (fun e => e.isOs = true) (call env) := fun _ => tells_call env (fun _ h => h) fun _ _ h => ⟨rfl, h⟩

theorem answer_looks (answers : Nat → Except (Option Int) α) : Looks (fun e => e.isOs = true) (answer answers) :=
  fun _ => tells_answer (fun _ _ h => h) fun _ _ h => ⟨rfl, h⟩

theorem demand_looks {p : Fault → Prop} {ok : Bool} {e : Fault} (h : p e) : Looks p (demand ok e) :=
  fun _ => Tells.demanded (fun _ _ h => h) fun _ hP => ⟨h, hP⟩

theorem pure_looks {p : Fault → Prop} (a : α) : Looks p (pure a : Act α) := fun _ => Tells.ret fun _ h => h

theorem Looks.bind {p : Fault → Prop} {m : Act α} {f : α → Act β} (hm : Looks p m) (hf : ∀ a, Looks p (f a)) : Looks p (m >>= f) :=
  fun P => (hm P).bind fun a => hf a P

theorem Looks.weaken {p q : Fault → Prop} {m : Act α} (hm : Looks p m) (h : ∀ e, p e → q e) : Looks q m :=
  fun P => (hm P).weaken (fun _ h => h) (fun _ _ h => h) fun e _ he => ⟨h e he.1, he.2⟩

theorem Looks.onOsError {p q : Fault → Prop} {m : Act α} {f : Option Int → Fault} (hm : Looks p m) (hf : ∀ errno, q (f errno))
    (h : ∀ e, e.isOs = false → p e → q e) : Looks q (onOsError m f) :=
  fun P => tells_onOsError (hm P) (fun errno _ he => ⟨hf errno, he.2⟩) fun e _ hos he => ⟨h e hos he.1, he.2⟩

theorem lstatRegular_looks (path : Path) (code : String) : Looks (fun e => e.isHand = true) (lstatRegular env path code) := by
  refine Looks.bind ((answer_looks _).onOsError (fun _ => rfl) fun e hos he => by rw [hos] at he; cases he) fun st => ?_
  exact (demand_looks (by rfl)).bind fun _ => (demand_looks (by rfl)).bind fun _ => pure_looks _

theorem readChunks_looks (fuel remaining : Nat) : Looks (fun e => e.isOs = true) (readChunks env fuel remaining) := by
  induction fuel generalizing remaining with
  | zero => exact pure_looks _
  | succ fuel ih =>
    rw [readChunks]
    split
    · exact pure_looks _
    · refine (answer_looks _).bind fun answered => ?_
      show Looks _ (if answered.take (min (64 * 1024) remaining) = [] then _ else _)
      split
      · exact pure_looks _
      · rw [map_eq_pure_bind]
        exact (ih _).bind fun _ => pure_looks _

theorem readOpened_looks (path : Path) (limit : Nat) (code : String) (before : Stat) :
    Looks (fun e => e ≠ .other) (readOpened env path limit code before) := by
  have hos : ∀ e : Fault, e.isOs = true → e ≠ .other := fun e h he => by rw [he] at h; cases h
  refine ((answer_looks _).weaken hos).bind fun after => ?_
  refine (demand_looks (by simp [uncertain])).bind fun _ => (demand_looks (by simp [uncertain])).bind fun _ => ?_
  refine ((readChunks_looks env _ _).weaken hos).bind fun data => ((answer_looks _).weaken hos).bind fun final => ?_
  exact (demand_looks (by simp [uncertain])).bind fun _ => pure_looks _

/-- A bounded read changes nothing, and raises only errors with a status. -/
theorem readRegularFileBounded_looks (path : Path) (limit : Nat) (code : String) :
    Looks (fun e => e.isHand = true) (readRegularFileBounded env path limit code) := by
  have hcall (reason : String) : Looks (fun e => e.isHand = true) (onOsError (call env) (unavailable code reason path)) :=
    (call_looks env).onOsError (fun _ => rfl) fun e hos he => by rw [hos] at he; cases he
  have hopened (before : Stat) :
      Looks (fun e => e.isHand = true) (onOsError (readOpened env path limit code before) (unavailable code "cannot read" path)) :=
    (readOpened_looks env path limit code before).onOsError (fun _ => rfl) fun e hos he => by
      cases e with
      | hand code message status => rfl
      | os errno => cases hos
      | other => exact absurd rfl he
  refine (lstatRegular_looks env path code).bind fun before => (hcall _).bind fun _ => Looks.bind (fun P => ?_) fun data =>
    (demand_looks (by rfl)).bind fun _ => pure_looks _
  exact tells_closing (hopened before P) (fun e => tells_quietly (tells_call env (fun _ h => h) fun _ _ h => ⟨rfl, h⟩)) fun a => hcall _ P

/-- A read of the target is the last thing that happened, or nothing did. -/
theorem readCasTarget_tells (path : Path) (c : Core) :
    Tells (· = c) (readCasTarget env path) (fun raw c' => c' = { c with trace := c.trace ++ [.read raw] }) fun e c' => e.isHand = true ∧ c' = c := by
  refine Tells.bind ((readRegularFileBounded_looks env path maxTextBytes _ (· = c)).handle fun e => ?_) fun raw => ?_
  · cases e with
    | hand code message status =>
      show Tells _ (if exceeds message then _ else _) _ _
      split <;> exact Tells.raises fun c' h => ⟨rfl, h.2⟩
    | os errno => exact Tells.raises fun c' h => h
    | other => exact Tells.raises fun c' h => h
  · exact Tells.bind (Q := fun _ c' => c' = { c with trace := c.trace ++ [.read raw] })
      (Tells.changed fun c' h => by rw [h]) fun _ => Tells.ret fun _ h => h

theorem regularModeNoFollow_tells (path : Path) (c : Core) :
    Tells (· = c) (regularModeNoFollow env path) (fun mode c' => c' = { c with trace := c.trace ++ [.mode mode] }) fun _ c' => c' = c := by
  have hst : Looks (fun _ => True) (onOsError (answer env.stat) fun _ =>
      uncertain "write_source_invalid" ("cannot lstat write target: " ++ path.name)) :=
    (answer_looks _).onOsError (fun _ => trivial) fun _ _ _ => trivial
  refine Tells.bind ((hst (· = c)).weaken (fun _ h => h) (fun _ _ h => h) fun _ _ h => h.2) fun st => ?_
  refine Tells.bind (Q := fun _ c' => c' = c) (Tells.demanded (fun _ _ h => h) fun _ h => h) fun _ => ?_
  exact Tells.bind (Q := fun _ c' => c' = { c with trace := c.trace ++ [.mode st.mode] })
    (Tells.changed fun c' h => by rw [h]) fun _ => Tells.ret fun _ h => h

end

/-! ## The temporary file -/

section

variable (env : Env) (args : Call F) (desired : Bytes) (mode : Nat)

/-- A part that fails leaves the history as it is. -/
abbrev Leaves (c : Core) : Fault → Core → Prop := fun _ c' => c'.trace = c.trace

theorem call_leaves (c c' : Core) (h : c'.trace = c.trace) : Tells (· = c') (call env) (fun _ d => d = c') (Leaves c) :=
  tells_call env (fun _ h => h) fun _ _ hd => hd ▸ h

theorem checkMode_tells (c : Core) (kept : Nat) (hnt : env.nt = true → kept = mode) :
    Tells (· = { c with temp := some ⟨desired, kept⟩ }) (checkMode env mode) (fun _ c' => c' = { c with temp := some ⟨desired, mode⟩ })
      (Leaves c) := by
  unfold checkMode
  by_cases h : env.nt = true
  · rw [if_pos h, hnt h]
    exact Tells.ret fun _ h => h
  · rw [if_neg h]
    refine (call_leaves env c { c with temp := some ⟨desired, kept⟩ } rfl).bind fun _ => Tells.core fun c' hc' => ?_
    refine Tells.demanded (fun hmode d hd => ?_) fun d hd => ?_
    · rw [hc', Option.map_some, decide_eq_true_eq, Option.some_inj] at hmode
      rw [hd, hc', ← show kept = mode from hmode]
    · rw [Leaves, hd, hc']

/-- The replacement has the mode of the target, or the call fails. -/
theorem preserveMode_tells (c : Core) (kept : Nat) :
    Tells (· = { c with temp := some ⟨desired, kept⟩ }) (preserveMode env args mode) (fun _ c' => c' = { c with temp := some ⟨desired, mode⟩ })
      (Leaves c) := by
  refine tells_onOsError (G := Leaves c) ?_ (fun _ _ h => h) fun _ _ _ h => h
  refine Tells.bind (tells_answer (fun _ _ h => h) fun _ d hd => by rw [Leaves, hd]) fun kept' => ?_
  refine Tells.bind (Q := fun _ d => d = { c with temp := some ⟨desired, if env.nt then mode else kept'⟩ })
    (Tells.changed fun d hd => by rw [hd]; rfl) fun _ => ?_
  exact checkMode_tells env desired mode c _ fun h => if_pos h

theorem fillTemp_tells (c : Core) :
    Tells (· = c) (fillTemp env args desired mode) (fun _ c' => c' = { c with temp := some ⟨desired, mode⟩ }) (Leaves c) := by
  have hmade : ({ c with temp := some ⟨[], 384⟩ } : Core).trace = c.trace := rfl
  refine (call_leaves env c c rfl).bind fun _ => ?_
  refine Tells.bind (Q := fun _ d => d = { c with temp := some ⟨[], 384⟩ }) (Tells.changed fun d hd => by rw [hd]) fun _ => ?_
  refine Tells.bind ((call_leaves env c _ hmade).handle fun e => ?_) fun _ => ?_
  · refine Tells.bind (Q := fun _ => Leaves c e) (tells_quietly (tells_call env (fun _ h => h) fun _ _ h => ⟨rfl, h⟩)) fun _ => ?_
    exact Tells.raises fun _ h => h
  refine tells_closing (T := fun _ d => d = { c with temp := some ⟨desired, mode⟩ }) (G := Leaves c) ?_ (fun e => ?_) fun _ => ?_
  · refine (call_leaves env c _ hmade).bind fun _ => (call_leaves env c _ hmade).bind fun _ => ?_
    refine Tells.bind (Q := fun _ d => d = { c with temp := some ⟨desired, 384⟩ }) (Tells.changed fun d hd => by rw [hd]; rfl) fun _ => ?_
    exact (preserveMode_tells env args desired mode c 384).bind fun _ => call_leaves env c _ rfl
  · exact tells_call env (fun _ h => h) fun _ _ h => h
  · exact call_leaves env c _ rfl

theorem removeTemp_tells (hremoves : ∀ n, env.unlinked n = .done) {E : Fault → Core → Prop} (c : Core) :
    Tells (· = c) (removeTemp env) (fun _ c' => c' = { c with temp := none }) E := by
  refine Tells.core fun c' hc' => ?_
  subst hc'
  cases htemp : c'.temp with
  | none =>
    refine Tells.ret fun d hd => ?_
    rw [hd, ← htemp]
  | some temp =>
    refine Tells.ask fun n => ?_
    rw [hremoves n]
    exact Tells.changed fun d hd => by rw [hd]

end

/-! ## The replacement -/

def Mark.isReplaced : Mark → Bool
  | .replaced _ _ => true
  | _ => false

/-- The target was not replaced. -/
def Untouched (trace : List Mark) : Prop := ∀ k ∈ trace, k.isReplaced = false

theorem Untouched.snoc {trace : List Mark} (h : Untouched trace) {k : Mark} (hk : k.isReplaced = false) : Untouched (trace ++ [k]) := by
  intro k' hk'
  rcases List.mem_append.mp hk' with hmem | hmem
  · exact h k' hmem
  · rw [List.mem_singleton.mp hmem]
    exact hk

/-- The marks of a replacement, up to it. -/
def published (desired first pre : Bytes) (mode : Nat) : List Mark := [.read first, .mode mode, .read pre, .replaced desired mode]

/-- The checks before a replacement. -/
structure Checked (env : Env) (expected : String) (desired first pre : Bytes) : Prop where
  first : env.sha256.hexdigest first = expected
  pre : env.sha256.hexdigest pre = expected
  differs : expected ≠ env.sha256.hexdigest desired

section

variable (env : Env) (args : Call F) (expected : String) (desired : Bytes)

theorem replaceTarget_tells (target : Path) (current : Bytes) (mode : Nat) (trace : List Mark) (h : Untouched trace) :
    Tells (· = ⟨some ⟨desired, mode⟩, trace⟩) (replaceTarget env args target current)
      (fun _ c => ∃ pre, env.sha256.hexdigest pre = env.sha256.hexdigest current ∧ c = ⟨none, trace ++ [.read pre, .replaced desired mode]⟩)
      (fun _ c => Untouched c.trace) := by
  have hstart : ∀ c : Core, c = ⟨some ⟨desired, mode⟩, trace⟩ → Untouched c.trace := fun c hc => by rw [hc]; exact h
  refine Tells.ask fun n => Tells.bind (Q := fun _ c => c = ⟨some ⟨desired, mode⟩, trace⟩)
    (Tells.lifted (fun _ _ _ hc => hc) fun _ _ c hc => hstart c hc) fun path => ?_
  refine Tells.bind (Q := fun _ c => c = ⟨some ⟨desired, mode⟩, trace⟩) (Tells.demanded (fun _ _ hc => hc) fun c hc => hstart c hc) fun _ => ?_
  refine ((readCasTarget_tells env path _).weaken (fun _ hc => hc) (fun _ _ hc => hc) fun _ c hc => hstart c hc.2).bind fun pre => ?_
  have hread : ∀ c : Core, c = ⟨some ⟨desired, mode⟩, trace ++ [.read pre]⟩ → Untouched c.trace := fun c hc => by rw [hc]; exact h.snoc rfl
  refine Tells.bind (Q := fun _ c => c = ⟨some ⟨desired, mode⟩, trace ++ [.read pre]⟩ ∧ env.sha256.hexdigest pre = env.sha256.hexdigest current)
    (Tells.demanded (fun hsame c hc => ⟨hc, of_decide_eq_true hsame⟩) fun c hc => hread c hc) fun _ => ?_
  refine Tells.bind (Q := fun _ c => c = ⟨some ⟨desired, mode⟩, trace ++ [.read pre]⟩ ∧ env.sha256.hexdigest pre = env.sha256.hexdigest current)
    (tells_call env (fun _ hc => hc) fun _ c hc => hread c hc.1) fun _ => ?_
  refine Tells.bind (Q := fun _ c => c = ⟨none, trace ++ [.read pre, .replaced desired mode]⟩ ∧ env.sha256.hexdigest pre = env.sha256.hexdigest current)
    (Tells.changed fun c hc => ⟨?_, hc.2⟩) fun _ => Tells.ret fun c hc => ⟨pre, hc.2, hc.1⟩
  rw [hc.1, Option.map_some, Option.toList_some, List.append_assoc]
  rfl

theorem syncParent_tells (P : Core → Prop) : Tells P (syncParent env args) (fun _ => P) fun e c => e.status = some .indeterminate ∧ P c := by
  unfold syncParent
  by_cases hnt : env.nt = true
  · rw [if_pos hnt]
    exact Tells.ret fun _ h => h
  · rw [if_neg hnt]
    have hcall {E : Fault → Core → Prop} (hE : ∀ errno c, P c → E (.os errno) c) : Tells P (call env) (fun _ => P) E :=
      tells_call env (fun _ h => h) hE
    refine tells_onOsError (G := fun e c => e.isOs = true ∧ P c) ?_ (fun _ _ h => ⟨rfl, h.2⟩) fun e _ hos h => by rw [h.1] at hos; cases hos
    refine (hcall fun _ _ h => ⟨rfl, h⟩).bind fun _ => tells_closing (T := fun _ => P) (G := fun e c => e.isOs = true ∧ P c)
      (hcall fun _ _ h => ⟨rfl, h⟩) (fun e => ?_) fun _ => hcall fun _ _ h => ⟨rfl, h⟩
    exact tells_call env (fun _ h => h) fun _ _ h => ⟨rfl, h.2⟩

theorem readBack_tells (target : Path) (c : Core) :
    Tells (· = c) (readBack env args target desired) (fun _ c' => c' = { c with trace := c.trace ++ [.read desired] })
      fun e c' => e.status = some .indeterminate ∧ ∃ rest, Untouched rest ∧ c' = { c with trace := c.trace ++ rest } := by
  refine Tells.bind ((readCasTarget_tells env target c).handle fun e => ?_) fun back => ?_
  · cases e with
    | hand code message status => exact Tells.raises fun c' h => ⟨rfl, [], nofun, by rw [h.2, List.append_nil]⟩
    | os errno => exact Tells.raises fun c' h => ⟨rfl, [], nofun, by rw [h.2, List.append_nil]⟩
    | other => exact Tells.raises fun c' h => absurd h.1 Bool.false_ne_true
  · refine Tells.demanded (fun hsame c' hc' => ?_) fun c' hc' => ⟨rfl, [.read back], ?_, hc'⟩
    · rw [Bool.and_eq_true, decide_eq_true_eq] at hsame
      rw [hc', hsame.1]
    · intro k hk
      rw [List.mem_singleton.mp hk]
      rfl

/-- What a write under the lease returns with. -/
structure Returns (r : Written) (c : Core) : Prop where
  temp : c.temp = none
  applied : r.alreadyApplied = true → ∃ first, env.sha256.hexdigest first = env.sha256.hexdigest desired ∧ c.trace = [.read first]
  replaced : r.alreadyApplied = false → ∃ first pre mode, Checked env expected desired first pre ∧
    c.trace = published desired first pre mode ++ [.read desired]

/-- The target was replaced, and perhaps read since. -/
def Replaced (c : Core) : Prop :=
  ∃ first pre mode rest, Checked env expected desired first pre ∧ Untouched rest ∧ c.trace = published desired first pre mode ++ rest

/-- What it raises with: nothing was replaced, or the error allows for it. -/
structure Raises (allows : Fault → Prop) (e : Fault) (c : Core) : Prop where
  temp : c.temp = none
  replaced : Untouched c.trace ∨ (allows e ∧ Replaced env expected desired c)

theorem writeLeased_tells (hremoves : ∀ n, env.unlinked n = .done) :
    Tells (· = ⟨none, []⟩) (writeLeased env args expected desired) (Returns env expected desired)
      (Raises env expected desired fun e => e.status = some .indeterminate) := by
  have huntouched {e : Fault} {c : Core} {marks : List Mark} (hc : c = ⟨none, marks⟩) (h : Untouched marks) :
      Raises env expected desired (fun e => e.status = some .indeterminate) e c := ⟨by rw [hc], .inl (by rw [hc]; exact h)⟩
  have hempty : Untouched [] := nofun
  refine Tells.ask fun n => Tells.bind (Q := fun _ c => c = ⟨none, []⟩)
    (Tells.lifted (fun _ _ _ hc => hc) fun _ _ c hc => huntouched hc hempty) fun target => ?_
  refine ((readCasTarget_tells env target _).weaken (fun _ hc => hc) (fun _ _ hc => hc) fun _ c hc => huntouched hc.2 hempty).bind fun first => ?_
  have hfirst : Untouched [.read first] := hempty.snoc rfl
  show Tells (fun c => c = (⟨none, [.read first]⟩ : Core)) (if env.sha256.hexdigest first = env.sha256.hexdigest desired then _ else _) _ _
  by_cases happlied : env.sha256.hexdigest first = env.sha256.hexdigest desired
  · rw [if_pos happlied]
    exact Tells.ret fun c hc => ⟨by rw [hc], fun _ => ⟨first, happlied, by rw [hc]⟩, nofun⟩
  · rw [if_neg happlied]
    refine Tells.bind (Q := fun _ c => c = ⟨none, [.read first]⟩ ∧ env.sha256.hexdigest first = expected)
      (Tells.demanded (fun hsame c hc => ⟨hc, of_decide_eq_true hsame⟩) fun c hc => huntouched hc hfirst) fun _ => ?_
    refine Tells.at_core fun c hc => ?_
    obtain ⟨rfl, hexpected⟩ := hc
    refine ((regularModeNoFollow_tells env target _).weaken (fun _ hc => hc) (fun _ _ hc => hc) fun _ c hc => huntouched hc hfirst).bind fun mode => ?_
    have hmode : Untouched [.read first, .mode mode] := hfirst.snoc rfl
    let E : Fault → Core → Prop := fun e c => Untouched c.trace ∨ (e.status = some .indeterminate ∧ Replaced env expected desired c)
    let T : Written → Core → Prop := fun r c => r.alreadyApplied = false ∧ ∃ pre, Checked env expected desired first pre ∧
      c.trace = published desired first pre mode ++ [.read desired]
    have hfailing (e : Fault) : Tells (E e) (removeTemp env) (fun _ => Raises env expected desired (fun e => e.status = some .indeterminate) e)
        (Raises env expected desired fun e => e.status = some .indeterminate) := by
      refine Tells.at_core fun c hc => (removeTemp_tells env hremoves c).weaken (fun _ h => h) (fun _ d hd => ⟨by rw [hd], ?_⟩) fun _ _ h => h
      subst hd
      exact hc
    have hdone (r : Written) : Tells (T r) (removeTemp env) (fun _ => Returns env expected desired r)
        (Raises env expected desired fun e => e.status = some .indeterminate) := by
      refine Tells.at_core fun c hc => (removeTemp_tells env hremoves c).weaken (fun _ h => h) (fun _ d hd => ?_) fun _ _ h => h
      obtain ⟨hnot, pre, hchecked, htrace⟩ := hc
      subst hd
      exact ⟨rfl, fun happ => absurd (hnot.symm.trans happ) Bool.false_ne_true, fun _ => ⟨first, pre, mode, hchecked, htrace⟩⟩
    refine tells_closing (T := T) (G := E) ?_ hfailing hdone
    refine ((fillTemp_tells env args desired mode _).weaken (fun _ hc => hc) (fun _ _ hc => hc) fun _ c hc => .inl (by rw [hc]; exact hmode)).bind
      fun _ => ?_
    refine ((replaceTarget_tells env args desired target first mode _ hmode).weaken (fun _ hc => hc) (fun _ _ hc => hc)
      fun _ c hc => .inl hc).bind fun target' => ?_
    refine Tells.at_core fun c hc => ?_
    obtain ⟨pre, hpre, rfl⟩ := hc
    have hchecked : Checked env expected desired first pre := ⟨hexpected, hpre.trans hexpected, hexpected ▸ happlied⟩
    have hsync : ∀ (e : Fault) (c : Core), (e.status = some .indeterminate ∧ c = ⟨none, published desired first pre mode⟩) → E e c :=
      fun e c hc => .inr ⟨hc.1, first, pre, mode, [], hchecked, hempty, by rw [hc.2, List.append_nil]⟩
    have hback : ∀ (e : Fault) (c : Core), (e.status = some .indeterminate ∧ ∃ rest, Untouched rest ∧
        c = ⟨none, published desired first pre mode ++ rest⟩) → E e c := by
      rintro e c ⟨hstatus, rest, hrest, rfl⟩
      exact .inr ⟨hstatus, first, pre, mode, rest, hchecked, hrest, rfl⟩
    refine ((syncParent_tells env args _).weaken (fun _ hc => hc) (fun _ _ hc => hc) hsync).bind fun _ => ?_
    refine ((readBack_tells env args desired target' _).weaken (fun _ hc => hc) (fun _ _ hc => hc) hback).bind fun _ => ?_
    exact Tells.ret fun c hc => ⟨rfl, pre, hchecked, by rw [hc]⟩

end

/-! ## What a call reports -/

section

variable (env : Env) (args : Call F)

theorem checkLease_looks : Looks (fun _ => True) (checkLease env args) := by
  unfold checkLease
  cases args.lease with
  | none => exact pure_looks ()
  | some isLease =>
    show Looks _ (if args.leaseRoot || !isLease then throw leaseInvalid else _)
    split
    · exact fun P => Tells.raises fun _ h => ⟨trivial, h⟩
    · refine fun P => Tells.ask fun n => Tells.bind (Q := fun _ => P) (Tells.lifted (fun _ _ _ h => h) fun _ _ _ h => ⟨trivial, h⟩) fun held => ?_
      exact demand_looks trivial P

/-- How an error may come after a replacement: it is indeterminate, or the call's own lock file was not closed. -/
def allows (e : Fault) : Prop := e.status = some .indeterminate ∨ (args.lease = none ∧ e.isOs = true)

/-- What a call leaves, by what it returns or raises. -/
structure Outcome (expected : String) (desired : Bytes) (out : Except Fault Written) (c : Core) : Prop where
  returns : ∀ r, out = .ok r → Returns env expected desired r c
  raises : ∀ e, out = .error e → Raises env expected desired (allows args) e c

theorem repositoryWriteLease_tells {expected : String} {desired : Bytes} (hlease : args.lease = none) {m : Act Written}
    (hm : Tells (· = ⟨none, []⟩) m (Returns env expected desired) (Raises env expected desired fun e => e.status = some .indeterminate)) :
    Tells (· = ⟨none, []⟩) (repositoryWriteLease env m) (Returns env expected desired) (Raises env expected desired (allows args)) := by
  have hempty : Untouched [] := nofun
  refine Tells.bind (Q := fun _ c => c = ⟨none, []⟩) (Tells.passed (fun _ hc => hc) fun _ e c _ hc => ⟨by rw [hc], .inl (by rw [hc]; exact hempty)⟩)
    fun _ => tells_closing hm (fun e => ?_) fun r => ?_
  · exact tells_call env (fun c hc => ⟨hc.temp, hc.replaced.imp_right fun h => ⟨.inl h.1, h.2⟩⟩) fun errno c hc =>
      ⟨hc.temp, hc.replaced.imp_right fun h => ⟨.inr ⟨hlease, rfl⟩, h.2⟩⟩
  · refine tells_call env (fun _ hc => hc) fun errno c hc => ⟨hc.temp, ?_⟩
    cases happlied : r.alreadyApplied with
    | true =>
      obtain ⟨first, -, htrace⟩ := hc.applied happlied
      exact .inl (by rw [htrace]; exact hempty.snoc rfl)
    | false =>
      obtain ⟨first, pre, mode, hchecked, htrace⟩ := hc.replaced happlied
      exact .inr ⟨.inr ⟨hlease, rfl⟩, first, pre, mode, [.read desired], hchecked, hempty.snoc rfl, htrace⟩

/-- What a call did, and what it may report of it. -/
structure Truthful (out : Except Fault Written) (c : Core) : Prop where
  /-- The target is replaced at most once. -/
  once : c.trace.countP Mark.isReplaced ≤ 1
  /-- It is replaced by the desired text, with the mode recorded after the first check, right after a read of what was expected and not desired. -/
  checked : ∀ before content mode after, c.trace = before ++ .replaced content mode :: after →
    ∃ first pre, before = [.read first, .mode mode, .read pre] ∧ expectedSha256 args.expected = .ok (env.sha256.hexdigest pre) ∧
      desiredBytes args.content = .ok content ∧ pre ≠ content
  /-- An error that is not indeterminate means that it was not. -/
  definite : ∀ e status, out = .error e → e.status = some status → status ≠ .indeterminate → Untouched c.trace
  /-- After a replacement an error is indeterminate, or the call's own lock file was not closed. -/
  uncertain : ∀ e, out = .error e → ¬ Untouched c.trace → allows args e
  /-- No temporary file is left. -/
  clean : c.temp = none
  /-- What is published was read back. -/
  published : ∀ r, out = .ok r → r.alreadyApplied = false → ∃ before desired mode, desiredBytes args.content = .ok desired ∧
    Mark.mode mode ∈ before ∧ c.trace = before ++ [.replaced desired mode, .read desired]
  /-- Nothing is written where the first read is the desired text. -/
  applied : ∀ r, out = .ok r → r.alreadyApplied = true → ∃ desired, desiredBytes args.content = .ok desired ∧ c.trace = [.read desired]

theorem countP_of_untouched {trace : List Mark} (h : Untouched trace) : trace.countP Mark.isReplaced = 0 :=
  List.countP_eq_zero.mpr fun k hk => by rw [h k hk]; exact Bool.false_ne_true

theorem countP_published {desired first pre : Bytes} {mode : Nat} {rest : List Mark} (h : Untouched rest) :
    (CasWrite.published desired first pre mode ++ rest).countP Mark.isReplaced = 1 := by
  rw [List.countP_append, countP_of_untouched h]
  rfl

/-- Where a history has its replacement. -/
theorem cut_published {desired first pre : Bytes} {mode : Nat} {rest : List Mark} (h : Untouched rest) {before after : List Mark} {content : Bytes}
    {mode' : Nat} (hcut : CasWrite.published desired first pre mode ++ rest = before ++ .replaced content mode' :: after) :
    before = [.read first, .mode mode, .read pre] ∧ content = desired ∧ mode' = mode := by
  match before with
  | [] | [_] | [_, _] => simp [CasWrite.published] at hcut
  | [a, b, d] =>
    simp only [CasWrite.published, List.cons_append, List.nil_append, List.cons.injEq, Mark.replaced.injEq] at hcut
    obtain ⟨rfl, rfl, rfl, ⟨rfl, rfl⟩, -⟩ := hcut
    exact ⟨rfl, rfl, rfl⟩
  | a :: b :: d :: e :: before =>
    simp only [CasWrite.published, List.cons_append, List.nil_append, List.cons.injEq] at hcut
    obtain ⟨-, -, -, -, hrest⟩ := hcut
    have hmem : Mark.replaced content mode' ∈ rest := by
      rw [hrest]
      exact List.mem_append_right _ List.mem_cons_self
    exact absurd (h _ hmem) (by simp [Mark.isReplaced])

variable {env args}

theorem not_untouched_of_replaced {expected : String} {desired : Bytes} {c : Core} (h : Replaced env expected desired c) : ¬ Untouched c.trace := by
  obtain ⟨first, pre, mode, rest, -, hrest, htrace⟩ := h
  intro huntouched
  have hcount := countP_of_untouched huntouched
  rw [htrace, countP_published hrest] at hcount
  exact absurd hcount (by decide)

/-- A history without a replacement tells the truth if what is returned does. -/
theorem truthful_of_untouched {out : Except Fault Written} {c : Core} (h : Untouched c.trace) (htemp : c.temp = none)
    (hreturned : ∀ r, out = .ok r → r.alreadyApplied = true ∧ ∃ desired, desiredBytes args.content = .ok desired ∧ c.trace = [.read desired]) :
    Truthful env args out c where
  once := by
    rw [countP_of_untouched h]
    exact Nat.zero_le 1
  checked before content mode after hcut := by
    have hmem : Mark.replaced content mode ∈ c.trace := by
      rw [hcut]
      exact List.mem_append_right _ List.mem_cons_self
    exact absurd (h _ hmem) (by simp [Mark.isReplaced])
  definite _ _ _ _ _ := h
  uncertain _ _ hnot := absurd h hnot
  clean := htemp
  published r hr happlied := by
    rw [(hreturned r hr).1] at happlied
    cases happlied
  applied r hr _ := (hreturned r hr).2

/-- And so does one with a replacement. -/
theorem truthful_of_replaced {expected : String} {desired : Bytes} (hexpected : expectedSha256 args.expected = .ok expected)
    (hdesired : desiredBytes args.content = .ok desired) {out : Except Fault Written} {c : Core} {first pre : Bytes} {mode : Nat} {rest : List Mark}
    (hchecked : Checked env expected desired first pre) (hrest : Untouched rest) (htrace : c.trace = CasWrite.published desired first pre mode ++ rest)
    (htemp : c.temp = none) (hraised : ∀ e, out = .error e → allows args e)
    (hreturned : ∀ r, out = .ok r → r.alreadyApplied = false ∧ rest = [.read desired]) : Truthful env args out c where
  once := by
    rw [htrace, countP_published hrest]
  checked before content mode' after hcut := by
    rw [htrace] at hcut
    obtain ⟨rfl, rfl, rfl⟩ := cut_published hrest hcut
    refine ⟨first, pre, rfl, hexpected.trans (by rw [hchecked.pre]), hdesired, fun hsame => ?_⟩
    exact hchecked.differs (hchecked.pre.symm.trans (by rw [hsame]))
  definite e status he hstatus hne := by
    obtain h | ⟨-, hos⟩ := hraised e he
    · rw [h] at hstatus
      exact absurd (Option.some.inj hstatus).symm hne
    · cases e with
      | os errno => cases hstatus
      | _ => cases hos
  uncertain e he _ := hraised e he
  clean := htemp
  published r hr _ := by
    refine ⟨[.read first, .mode mode, .read pre], desired, mode, hdesired, by simp, ?_⟩
    rw [htrace, (hreturned r hr).2]
    rfl
  applied r hr happlied := by
    rw [(hreturned r hr).1] at happlied
    cases happlied

theorem truthful_of_outcome {expected : String} {desired : Bytes} (hexpected : expectedSha256 args.expected = .ok expected)
    (hdesired : desiredBytes args.content = .ok desired)
    (hfree : ∀ raw, env.sha256.hexdigest raw = env.sha256.hexdigest desired → raw = desired)
    {out : Except Fault Written} {c : Core} (h : Outcome env args expected desired out c) : Truthful env args out c := by
  cases out with
  | error e =>
    have hraises := h.raises e rfl
    obtain huntouched | ⟨hallows, first, pre, mode, rest, hchecked, hrest, htrace⟩ := hraises.replaced
    · exact truthful_of_untouched huntouched hraises.temp nofun
    · exact truthful_of_replaced hexpected hdesired hchecked hrest htrace hraises.temp (fun e' he => Except.error.inj he ▸ hallows) nofun
  | ok r =>
    have hreturns := h.returns r rfl
    cases happlied : r.alreadyApplied with
    | true =>
      obtain ⟨first, hsame, htrace⟩ := hreturns.applied happlied
      rw [hfree first hsame] at htrace
      have hread : Untouched c.trace := by
        rw [htrace]
        intro k hk
        rw [List.mem_singleton.mp hk]
        rfl
      exact truthful_of_untouched hread hreturns.temp fun r' hr => ⟨Except.ok.inj hr ▸ happlied, desired, hdesired, htrace⟩
    | false =>
      obtain ⟨first, pre, mode, hchecked, htrace⟩ := hreturns.replaced happlied
      have hrest : Untouched [.read desired] := by
        intro k hk
        rw [List.mem_singleton.mp hk]
        rfl
      exact truthful_of_replaced hexpected hdesired hchecked hrest htrace hreturns.temp nofun fun r' hr => ⟨Except.ok.inj hr ▸ happlied, rfl⟩

/-- A call writes under a lease of its own, or under the one it is passed. -/
theorem writes_tells (hremoves : ∀ n, env.unlinked n = .done) {expected : String} {desired : Bytes} :
    Tells (· = ⟨none, []⟩) (if args.lease.isSome then writeLeased env args expected desired
        else repositoryWriteLease env (writeLeased env args expected desired))
      (Returns env expected desired) (Raises env expected desired (allows args)) := by
  have hwrite := writeLeased_tells env args expected desired hremoves
  by_cases hlease : args.lease.isSome = true
  · rw [if_pos hlease]
    exact hwrite.weaken (fun _ h => h) (fun _ _ h => h) fun e c h => ⟨h.temp, h.replaced.imp_right fun h => ⟨.inl h.1, h.2⟩⟩
  · rw [if_neg hlease]
    exact repositoryWriteLease_tells env args (by simpa using hlease) hwrite

end

def before : Bytes := encodeText "before\n".toList

def after : Bytes := encodeText "after\n".toList

/-- The digests of the two words, and one for the other texts. -/
def twoDigests : Sha256 where
  hexdigest raw :=
    if raw = before then "9160d4be34c8695bd172a76c7c7966587ea5a4d991ad22c87b2b91af54aa9ebb"
    else if raw = after then "7b9a72466d3960eb2aacccfc848939453490db0678bd4725def3f789b891c919"
    else "d9298a10d1b0735837dc4bd85dac641b0f3cef27a47e5d53a54f2f3f5b2fcffa"
  hex raw := by
    split
    · decide
    · split <;> decide

/-- A directory nobody else writes to: the first two reads find the one word, the last one the other. -/
def quietDirectory : Env where
  nt := false
  sha256 := twoDigests
  singleWriter := true
  root _ := .ok ()
  held _ := .ok true
  leased _ := none
  resolved _ := .ok ⟨"/srv/demo", "sample.txt"⟩
  stat n := .ok ⟨false, false, true, 1, if n ≤ 26 then 10 else 11, if n ≤ 26 then 7 else 6, 0, 0, 420⟩
  read n := .ok (if n = 6 ∨ n = 23 then before else if n = 34 then after else [])
  chmod _ := .ok 420
  unlinked _ := .done
  fails _ := none

def wordCall : Call Empty :=
  ⟨"demo", "sample.txt", .str (points "9160d4be34c8695bd172a76c7c7966587ea5a4d991ad22c87b2b91af54aa9ebb"), .str (points "after\n"), false, none⟩

end LocalHand.CasWrite
