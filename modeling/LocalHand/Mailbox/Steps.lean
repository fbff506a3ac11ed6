/-
The steps of a worker: what each one answers and leaves, for a property of the world
that its clock is no part of.
-/
import LocalHand.Mailbox.Worker

namespace LocalHand.Mailbox

open PyJson Program Directory
open Framing (Bytes)

variable {F R : Type} {host : Host F} {env : Env F R}

/-- A property the clock is no part of. -/
def Timeless (P : World F R → Prop) : Prop := ∀ w n, P w → P { w with clock := n }

variable {P E : World F R → Prop}

theorem ask_spec (hP : Timeless P) {α : Type} (answer : Nat → α) {E : Stop → World F R → Prop} :
    Spec P (ask answer) (fun _ => P) E := fun w hw => hP w (w.clock + 1) hw

theorem reading_spec (hP : Timeless P) (stop : Stop) : Spec P (reading env stop) (fun _ => P) (fun _ => P) := by
  refine Spec.bind (ask_spec hP _) fun fate => ?_
  cases fate with
  | done => exact Spec.ret fun _ h => h
  | lost crash | kept crash => exact Spec.raise fun _ h => h

theorem writing_spec (hP : Timeless P) (before after : Stop) {change : Bool → World F R → World F R} {Q : World F R → Prop}
    (hdone : ∀ w, P w → Q (change true w)) (hlost : ∀ w, P w → E w) (hkept : ∀ w, P w → E (change false w)) :
    Spec P (writing env before after change) (fun _ => Q) (fun _ => E) := by
  refine Spec.bind (ask_spec hP _) fun fate => ?_
  cases fate with
  | done => exact Spec.update hdone
  | lost crash => exact Spec.raise hlost
  | kept crash => exact Spec.bind (Q := fun _ => E) (Spec.update hkept) fun _ => Spec.raise fun _ h => h

theorem lift_spec {α : Type} (x : Except Failure α) : Spec P (lift x) (fun a w => P w ∧ x = .ok a) (fun _ => P) := by
  intro w hw
  cases x with
  | ok a => exact ⟨hw, rfl⟩
  | error failure => exact hw

theorem caught_spec {α : Type} {m : Op F R α} {Q : α → World F R → Prop} {E : Stop → World F R → Prop} (h : Spec P m Q E) :
    Spec P (caught m) (fun r w => match r with
      | .ok a => Q a w
      | .error failure => E (.failed failure) w) E := by
  refine Spec.handle (Spec.bind h fun a => Spec.ret fun _ hw => hw) fun stop => ?_
  cases stop with
  | failed failure => exact Spec.ret fun _ hw => hw
  | unavailable message | outside | crashed => exact Spec.raise fun _ hw => hw

theorem targetLexists_spec (hP : Timeless P) (dir : World F R → Dir Bytes) (name : String) :
    Spec P (targetLexists env dir name) (fun b w => P w ∧ b = (dir w).has name) (fun _ => P) := by
  refine Spec.bind (reading_spec hP _) fun _ => ?_
  exact Spec.bind (Q := fun w' w => P w ∧ w' = w) (Spec.read fun _ h => ⟨h, rfl⟩) fun w' => Spec.ret fun w h => ⟨h.1, h.2 ▸ rfl⟩

/-- A file is too large to be read. -/
def TooLarge (dir : Dir Bytes) (name : String) (limit : Nat) : Prop := ∃ raw, dir.get name = some raw ∧ limit < raw.length

theorem read_spec (hP : Timeless P) (dir : World F R → Dir Bytes) (name : String) (limit : Nat) (code : String) :
    Spec P (readRegularFileBounded env dir name limit code)
      (fun raw w => P w ∧ (dir w).get name = some raw ∧ raw.length ≤ limit)
      (fun stop w => P w ∧ ∀ failure, stop = .failed failure → TooLarge (dir w) name limit) := by
  have hreading : Spec P (reading env (.unavailable ("cannot read regular file " ++ name))) (fun _ => P)
      (fun stop w => P w ∧ ∀ failure, stop = .failed failure → TooLarge (dir w) name limit) := by
    refine Spec.bind (ask_spec hP _) fun fate => ?_
    cases fate with
    | done => exact Spec.ret fun _ h => h
    | lost crash | kept crash => exact Spec.raise fun _ h => ⟨h, by cases crash <;> exact fun _ hstop => by cases hstop⟩
  refine Spec.bind hreading fun _ => ?_
  refine Spec.bind (Q := fun w' w => P w ∧ w' = w) (Spec.read fun _ h => ⟨h, rfl⟩) fun w' => ?_
  rintro w ⟨hw, rfl⟩
  refine (?_ : Spec (fun v => P v ∧ v = w') _ _ _) w' ⟨hw, rfl⟩
  split
  · exact Spec.raise fun _ h => ⟨h.1, fun _ hstop => by cases hstop⟩
  · next raw hraw =>
    by_cases hlen : raw.length ≤ limit
    · have hcheck : check (decide (raw.length ≤ limit))
          (indeterminate code ("file exceeds " ++ toString limit ++ " bytes: " ++ name)) = .ok () := by simpa using hlen
      rw [hcheck]
      refine Spec.bind (Q := fun _ v => P v ∧ v = w') (Spec.ret fun _ h => h) fun _ => ?_
      exact Spec.ret fun v h => ⟨h.1, by rw [h.2]; exact hraw, hlen⟩
    · have hcheck : check (decide (raw.length ≤ limit))
          (indeterminate code ("file exceeds " ++ toString limit ++ " bytes: " ++ name)) =
            .error (indeterminate code ("file exceeds " ++ toString limit ++ " bytes: " ++ name)) := by simp [check, hlen]
      rw [hcheck]
      refine Spec.bind (Q := fun _ _ => False) (Spec.raise fun v h => ⟨h.1, fun _ _ => ⟨raw, ?_, by omega⟩⟩) fun _ _ h => h.elim
      rw [h.2]
      exact hraw

/-- What a directory has under a name reads as this value. -/
def Reads (host : Host F) (dir : Dir Bytes) (name : String) (limit : Nat) (value : Value F) : Prop :=
  ∃ raw, dir.get name = some raw ∧ raw.length ≤ limit ∧ host.load raw = some value

/-- A file is there and is no JSON within its limit. -/
def Unreadable (host : Host F) (dir : Dir Bytes) (name : String) (limit : Nat) : Prop :=
  ∃ raw, dir.get name = some raw ∧ (limit < raw.length ∨ host.load raw = none)

theorem loadJson_spec (hP : Timeless P) (dir : World F R → Dir Bytes) (name : String) (limit : Nat) (code : String) :
    Spec P (loadJsonBounded host env dir name limit code)
      (fun value w => P w ∧ Reads host (dir w) name limit value)
      (fun stop w => P w ∧ ∀ failure, stop = .failed failure → Unreadable host (dir w) name limit) := by
  refine Spec.bind ((read_spec hP dir name limit code).weaken (fun _ h => h) (fun _ _ h => h) ?_) fun raw => ?_
  · rintro stop w ⟨hw, hlarge⟩
    refine ⟨hw, fun failure hstop => ?_⟩
    obtain ⟨raw, hraw, hlen⟩ := hlarge failure hstop
    exact ⟨raw, hraw, .inl hlen⟩
  · split
    · next value hvalue => exact Spec.ret fun w h => ⟨h.1, raw, h.2.1, h.2.2, hvalue⟩
    · next hnone => exact Spec.raise fun w h => ⟨h.1, fun _ _ => ⟨raw, h.2.1, .inr hnone⟩⟩

theorem resultDigest_spec (value : Value F) :
    Spec P (resultDigest host value) (fun digest w => P w ∧ host.digest value = some digest) (fun _ => P) := by
  unfold resultDigest
  split
  · next digest hdigest => exact Spec.ret fun _ h => ⟨h, hdigest⟩
  · exact Spec.raise fun _ h => h

/-- What a fetch leaves. -/
theorem syncMailbox_spec {Q : World F R → Prop}
    (hQ : ∀ w outside tree, P w → Q ({ w with clock := w.clock + 1, outside := outside, tree := tree }.mark (.synced tree)))
    (hE : ∀ w outside, P w → E { w with clock := w.clock + 1, outside := outside }) :
    Spec P (syncMailbox env) (fun _ => Q) (fun _ => E) := by
  intro w hw
  rw [syncMailbox, from_bind_ok (from_get w)]
  rcases hfetch : env.git.fetch w.clock w.outside with ⟨answer, outside⟩
  dsimp only
  rw [from_bind_ok (from_set _ _)]
  cases answer with
  | error stop => exact hE w outside hw
  | ok tree => exact hQ w outside tree hw

/-- What a push leaves. -/
theorem pushMailbox_spec {Q : Push → World F R → Prop}
    (hQ : ∀ w outside answer, P w →
      Q answer ({ w with clock := w.clock + 1, outside := outside }.mark (.pushed w.tree answer))) :
    Spec P (pushMailbox env) Q (fun _ => E) := by
  intro w hw
  rw [pushMailbox, from_bind_ok (from_get w)]
  rcases hpush : env.git.push w.clock w.outside w.tree with ⟨answer, outside⟩
  dsimp only
  rw [from_bind_ok (from_set _ _)]
  exact hQ w outside answer hw

/-- What a write leaves: a file of at most its limit, or nothing at all. -/
theorem writeJsonAtomic_spec (hP : Timeless P) (place : Place) (name : String) (value : Value F) (limit : Nat) (code : String)
    {Q : World F R → Prop} (hlost : ∀ w, P w → E w)
    (hdone : ∀ w data, P w → host.print value = some data → data.length ≤ limit →
      Q ((w.with place ((w.place place).put name data)).mark (.wrote place name ((w.place place).get name) data true)))
    (hkept : ∀ w data, P w → host.print value = some data → data.length ≤ limit →
      E ((w.with place ((w.place place).put name data)).mark (.wrote place name ((w.place place).get name) data false))) :
    Spec P (writeJsonAtomic host env place name value limit code) (fun _ => Q) (fun _ => E) := by
  unfold writeJsonAtomic jsonBytes
  cases hprint : host.print value with
  | none => exact Spec.raise hlost
  | some data =>
    refine Spec.bind ((lift_spec _).weaken (fun _ h => h) (fun _ _ h => h) fun _ _ h => hlost _ h) fun data' => ?_
    rintro w ⟨hw, hdata⟩
    simp only [bind_ok_iff, check_ok, decide_eq_true_eq, pure, Except.pure, Except.ok.injEq] at hdata
    obtain ⟨-, hlen, rfl⟩ := hdata
    exact writing_spec hP _ _ (fun v hv => hdone v data hv hprint hlen) hlost (fun v hv => hkept v data hv hprint hlen) w hw

end LocalHand.Mailbox
