/-
The startup selection protocol over every run: what each call leaves, and what follows.
-/
import LocalHand.StartupSelections

namespace LocalHand.Startup

open PyJson Program
open Maintenance (Gate GateState Io Site)

variable {F : Type} {env : Env F} {c : Core F}

abbrev Holds (P : Core F → Prop) : World F → Prop := fun w => P w.core

/-! ## Steps -/

section Steps

variable {P Q E : Core F → Prop} {α : Type}

theorem lift_spec (hP : ∀ c, P c → E c) (x : Except Fault α) :
    Spec (Holds P) (lift x : Op F α) (fun a => Holds fun c => P c ∧ x = .ok a) (fun _ => Holds E) := by
  cases x with
  | ok a => exact Spec.ret fun _ h => ⟨h, rfl⟩
  | error fault => exact Spec.raise fun _ h => hP _ h

theorem lift_keeps (hP : ∀ c, P c → E c) (x : Except Fault α) :
    Spec (Holds P) (lift x : Op F α) (fun _ => Holds P) (fun _ => Holds E) :=
  (lift_spec hP x).weaken (fun _ h => h) (fun _ _ h => h.1) fun _ _ h => h

theorem demand_spec (hP : ∀ c, P c → E c) (ok : Bool) (fault : Fault) :
    Spec (Holds P) (demand ok fault : Op F Unit) (fun _ => Holds fun c => P c ∧ ok = true) (fun _ => Holds E) :=
  (lift_spec hP _).weaken (fun _ h => h) (fun _ _ h => ⟨h.1, require_ok.mp h.2⟩) fun _ _ h => h

theorem raise_spec (hP : ∀ c, P c → E c) (fault : Fault) {Q : α → World F → Prop} :
    Spec (Holds P) (raise fault : Op F α) Q (fun _ => Holds E) := Spec.raise fun _ h => hP _ h

theorem question_spec {T : Fault → World F → Prop} : Spec (Holds P) (question : Op F Nat) (fun _ => Holds P) T := fun _ h => h

theorem core_spec {T : Fault → World F → Prop} : Spec (Holds P) (core : Op F (Core F)) (fun c' => Holds fun c => P c ∧ c' = c) T :=
  fun _ h => ⟨h, rfl⟩

theorem change_spec {f : Core F → Core F} (h : ∀ c, P c → Q (f c)) {T : Fault → World F → Prop} :
    Spec (Holds P) (change f) (fun _ => Holds Q) T := fun _ hw => h _ hw

theorem mark_spec {k : Mark F} (h : ∀ c, P c → Q (c.mark k)) {T : Fault → World F → Prop} :
    Spec (Holds P) (mark k) (fun _ => Holds Q) T := change_spec h

theorem throwIf_spec (hP : ∀ c, P c → E c) (fault : Option Fault) :
    Spec (Holds P) (throwIf fault : Op F Unit) (fun _ => Holds P) (fun _ => Holds E) := by
  cases fault with
  | none => exact Spec.ret fun _ h => h
  | some fault => exact Spec.raise fun _ h => hP _ h

theorem pass_spec (hP : ∀ c, P c → E c) : Spec (Holds P) (pass env) (fun _ => Holds P) (fun _ => Holds E) :=
  Spec.bind question_spec fun _ => throwIf_spec hP _

theorem bootId_spec (hP : ∀ c, P c → E c) : Spec (Holds P) (bootId env) (fun _ => Holds P) (fun _ => Holds E) :=
  Spec.bind (pass_spec hP) fun _ => Spec.bind core_spec fun _ => Spec.ret fun _ h => h.1

theorem instanceOf_spec (hP : ∀ c, P c → E c) (pid : Int) : Spec (Holds P) (instanceOf env pid) (fun _ => Holds P) (fun _ => Holds E) :=
  Spec.bind question_spec fun _ => Spec.bind (lift_keeps hP _) fun _ => Spec.bind (bootId_spec hP) fun _ => Spec.ret fun _ h => h

/-- The gate's record as a call reads it. -/
def Reads (env : Env F) (gate : Gate F) (c : Core F) : Prop := c.gate.now = some gate ∧ Maintenance.validate env.site gate = .ok ()

theorem admissionLock_spec (hP : ∀ c, P c → E c) :
    Spec (Holds P) (admissionLock env) (fun gate => Holds fun c => P c ∧ Reads env gate c) (fun _ => Holds E) := by
  refine Spec.bind question_spec fun n => Spec.bind core_spec fun c => (lift_spec (fun c h => hP c h.1) _).weaken (fun _ h => h) (fun gate w h => ?_)
    fun _ _ h => h
  obtain ⟨⟨hp, rfl⟩, hread⟩ := h
  obtain ⟨value, hvalue, hvalid, ⟨hd, -⟩ | ⟨value', hd, -⟩⟩ := Maintenance.locked_ok hread
  · cases hd
    exact ⟨hp, hvalue, hvalid⟩
  · cases hd

theorem readSelection_spec (hP : ∀ c, P c → E c) :
    Spec (Holds P) (readSelection env) (fun value => Holds fun c => P c ∧ c.descriptor.now = some value) (fun _ => Holds E) := by
  refine Spec.bind (pass_spec hP) fun _ => Spec.bind core_spec fun c => ?_
  cases hnow : c.descriptor.now with
  | none => exact raise_spec (fun c h => hP c h.1) _
  | some value =>
    dsimp only
    split
    · refine Spec.ret fun w h => ⟨h.1, ?_⟩
      rw [← h.2]
      exact hnow
    · exact raise_spec (fun c h => hP c h.1) _

theorem verifyMembers_spec (hP : ∀ c, P c → E c) (value : Selection) :
    Spec (Holds P) (verifyMembers env value) (fun _ => Holds P) (fun _ => Holds E) :=
  Spec.bind (demand_spec hP _ _) fun _ => Spec.bind question_spec fun _ => (lift_keeps (fun c h => hP c h.1) _).weaken (fun _ h => h) (fun _ _ h => h.1)
    fun _ _ h => h

/-- The descriptor is replaced, and then synced; `f` is what the replacement is a step of. -/
theorem writeSelection_spec (hP : ∀ c, P c → E c) {value : Selection} {f : Core F → Core F}
    (hreplaced : ∀ c, P c → E (f { c with descriptor := c.descriptor.replace (some value) }))
    (hsynced : ∀ c, P c → Q { f { c with descriptor := c.descriptor.replace (some value) } with
      descriptor := (f { c with descriptor := c.descriptor.replace (some value) }).descriptor.sync }) :
    Spec (Holds P) (writeSelection env value f) (fun _ => Holds Q) (fun _ => Holds E) := by
  refine Spec.bind (pass_spec hP) fun _ => ?_
  refine Spec.bind (change_spec (Q := fun c => ∃ c', P c' ∧ c = f { c' with descriptor := c'.descriptor.replace (some value) })
    fun c h => ⟨c, h, rfl⟩) fun _ => ?_
  refine Spec.bind question_spec fun n => Spec.bind (throwIf_spec (fun c h => ?_) _) fun _ => change_spec fun c h => ?_
  · obtain ⟨c', hp, rfl⟩ := h
    exact hreplaced c' hp
  · obtain ⟨c', hp, rfl⟩ := h
    exact hsynced c' hp

theorem confirmSelection_spec (hP : ∀ c, P c → E c) (hsynced : ∀ c, P c → Q { c with descriptor := c.descriptor.sync }) :
    Spec (Holds P) (confirmSelection env) (fun _ => Holds Q) (fun _ => Holds E) :=
  Spec.bind (pass_spec hP) fun _ => change_spec hsynced

end Steps

/-! ## Publishing -/

theorem current_spec {P E : Core F → Prop} (hP : ∀ c, P c → E c) :
    Spec (Holds P) (current env) (fun there => Holds fun c => P c ∧ c.descriptor.now = there) (fun _ => Holds E) := by
  refine Spec.handle (T := fun _ => Holds P) (Spec.bind (readSelection_spec fun _ h => h) fun value => Spec.ret fun _ h => h) fun fault => ?_
  refine Spec.bind (pass_spec hP) fun _ => Spec.bind core_spec fun c => ?_
  cases hnow : c.descriptor.now with
  | none =>
    refine Spec.ret fun w h => ⟨h.1, ?_⟩
    rw [← h.2]
    exact hnow
  | some value => exact raise_spec (fun c h => hP c h.1) fault

theorem verifyUnblocked_spec {P E : Core F → Prop} (hP : ∀ c, P c → E c) (value : Selection) :
    Spec (Holds P) (verifyUnblocked env value) (fun _ => Holds P) (fun _ => Holds E) := by
  unfold verifyUnblocked
  split
  · exact Spec.ret fun _ h => h
  · exact verifyMembers_spec hP value

/-- A publish replaces a descriptor that is there only for the owner of the gate. -/
theorem publish_lawful {value : Selection} {expected maintenanceOwner : Option String} {gate : Gate F} {there : Option Selection}
    (howner : checkOwner value gate = .ok ()) (hstable : checkStable value gate expected maintenanceOwner there = .ok ())
    (hexpected : there.map env.digest = expected) :
    (Mark.replaced expected there value (named value maintenanceOwner) gate).Lawful env := by
  refine ⟨hexpected, fun hsome => ?_⟩
  obtain ⟨previous, rfl⟩ := Option.isSome_iff_exists.mp hsome
  unfold named
  by_cases hmode : value.mode = .stable
  · rw [checkStable, if_pos hmode] at hstable
    simp only [require_ok, Bool.and_eq_true, decide_eq_true_eq] at hstable
    rw [if_pos hmode]
    exact ⟨hstable.1.1, hstable.2⟩
  · rw [checkOwner, if_neg hmode] at howner
    simp only [require_ok, Bool.and_eq_true, decide_eq_true_eq] at howner
    rw [if_neg hmode]
    exact howner

theorem publish_spec (value : Selection) (expected maintenanceOwner : Option String) :
    Spec (Holds (Sound env)) (publish env value expected maintenanceOwner) (fun _ => Holds (Sound env)) (fun _ => Holds (Sound env)) := by
  have hid (c : Core F) (h : Sound env c) : Sound env c := h
  refine Spec.bind (demand_spec hid _ _) fun _ => Spec.bind (admissionLock_spec fun c h => h.1) fun gate => ?_
  refine Spec.bind (Q := fun _ => Holds (Sound env)) ((demand_spec (fun c h => h.1.1) _ _).weaken (fun _ h => h) (fun _ _ h => h.1.1.1) fun _ _ h => h)
    fun _ => ?_
  refine Spec.bind (lift_spec hid _) fun _ => Spec.bind (current_spec fun c h => h.1) fun there => Spec.bind (lift_spec (fun c h => h.1.1) _) fun _ => ?_
  have hsettled (c : Core F) (h : Sound env c) (hdescriptor : c.descriptor = ⟨some value, []⟩) : Sound env (c.mark (.settled value)) :=
    h.mark (by simp) trivial (by simp) fun v hv _ => by cases hv; exact hdescriptor
  by_cases hsame : there = some value
  · rw [if_pos hsame]
    refine Spec.bind (confirmSelection_spec (Q := fun c => Sound env c ∧ c.descriptor = ⟨some value, []⟩) (fun c h => h.1.1.1) fun c h => ?_) fun _ =>
      Spec.bind (mark_spec fun c h => hsettled c h.1 h.2) fun _ => Spec.ret fun _ h => h
    refine ⟨h.1.1.1.sync, ?_⟩
    show (⟨c.descriptor.now, []⟩ : File (Option Selection)) = _
    rw [h.1.2, hsame]
  · rw [if_neg hsame]
    refine Spec.bind (demand_spec (fun c h => h.1.1.1) _ _) fun _ => Spec.bind (pass_spec fun c h => h.1.1.1.1) fun _ =>
      Spec.bind (verifyUnblocked_spec (fun c h => h.1.1.1.1) value) fun _ => ?_
    have hlawful (c : Core F) (h : (((Sound env c ∧ checkOwner value gate = .ok ()) ∧ c.descriptor.now = there) ∧
        checkStable value gate expected maintenanceOwner there = .ok ()) ∧ decide (there.map env.digest = expected) = true) :
        Sound env ({ c with descriptor := c.descriptor.replace (some value) }.mark (.replaced expected there value (named value maintenanceOwner) gate)) :=
      h.1.1.1.1.replaced rfl (publish_lawful h.1.1.1.2 h.1.2 (by simpa using h.2)) value
    refine Spec.bind (writeSelection_spec (Q := fun c => Sound env c ∧ c.descriptor = ⟨some value, []⟩) (fun c h => h.1.1.1.1) hlawful
      fun c h => ⟨(hlawful c h).sync, rfl⟩) fun _ => Spec.bind (mark_spec fun c h => hsettled c h.1 h.2) fun _ => Spec.ret fun _ h => h

/-! ## Admitting -/

/-- An admission that stands: what it is made of is in the descriptor and the gate. -/
structure Standing (a : Admission F) (c : Core F) : Prop where
  unblocked : a.selection.mode ≠ .blocked
  candidate : a.candidate → a.gate.state = .closed ∧ a.gate.owner = a.selection.owner
  opened : a.gate.state = .open → a.selection.mode = .stable ∧ a.selection.deploymentDigest = a.gate.deploymentDigest
  released : a.isPublic = true → a.selection.mode = .stable ∧ a.selection.decisionId = some a.gate.decisionId
  quiet : Unblocked c
  claimed : a.candidate → ∀ d ∈ c.descriptor.states, ClaimedIn a d
  left : a.candidate → ∀ owner, .left owner ∈ c.trace → a.selection.owner ≠ some owner

theorem Standing.admitted {a : Admission F} (h : Standing a c) (hs : Sound env c)
    (hbound : ∀ proof, a.stage = .bound proof → loads a.selection a.component proof = true) : Sound env (c.mark (.admitted a)) :=
  hs.admitted ⟨h.unblocked, h.candidate, h.opened, h.released, hbound⟩ h.quiet h.claimed h.left

theorem Standing.stays {a : Admission F} (h : Standing a c) : Standing a (c.mark (.admitted a)) where
  unblocked := h.unblocked
  candidate := h.candidate
  opened := h.opened
  released := h.released
  quiet v hv := by
    rcases hv.snoc with he | ⟨-, hv⟩
    · cases he
    · exact h.quiet v hv
  claimed := h.claimed
  left hcandidate owner hin := h.left hcandidate owner ((List.mem_append.mp hin).resolve_right (by simp))

theorem Sound.unblocked (h : Sound env c) {value : Selection} (hnow : c.descriptor.now = some value) (hmode : value.mode ≠ .blocked) : Unblocked c := by
  intro v hv hblocked
  rw [h.blocked v hv hblocked] at hnow
  cases hnow
  exact hmode hblocked

/-- The owner of a closed gate has not left it. -/
theorem Sound.owner_here (h : Sound env c) {gate : Gate F} (hread : Reads env gate c) (hclosed : gate.state = .closed) {owner : String}
    (hleft : .left owner ∈ c.trace) : gate.owner ≠ some owner := by
  intro howner
  obtain ⟨value, hvalue, hretired⟩ := h.left owner hleft c.gate.now List.mem_cons_self
  rw [hread.1] at hvalue
  cases hvalue
  exact Maintenance.valid_holds hread.2 ⟨hclosed, howner⟩ hretired

/-- What a public admission has found in the descriptor. -/
def ReleasedIn (gate : Gate F) (isPublic : Bool) (c : Core F) : Prop :=
  isPublic = true → ∃ value, c.descriptor.now = some value ∧ value.mode = .stable ∧ value.decisionId = some gate.decisionId

theorem claimPermit_spec {gate : Gate F} {value : Selection} {component : String} {i : Instance} {isPublic : Bool}
    (hmode : value.mode = .candidate) (hpermit : value.permit.isSome = true) (hclosed : gate.state = .closed) (howner : gate.owner = value.owner) :
    Spec (Holds fun c => (Sound env c ∧ Reads env gate c ∧ ReleasedIn gate isPublic c) ∧ c.descriptor.now = some value)
      (claimPermit env value component i) (fun selected => Holds fun c => Sound env c ∧ Standing ⟨component, some i, selected, gate, isPublic, .selected⟩ c)
      (fun _ => Holds (Sound env)) := by
  have hstanding (c c' : Core F) (selected : Selection) (h : (Sound env c ∧ Reads env gate c ∧ ReleasedIn gate isPublic c) ∧ c.descriptor.now = some value)
      (htrace : c'.trace = c.trace) (hmode' : selected.mode = .candidate) (howner' : selected.owner = value.owner)
      (hclaimed : ∀ d ∈ c'.descriptor.states, ClaimedIn (⟨component, some i, selected, gate, isPublic, .selected⟩ : Admission F) d) :
      Standing ⟨component, some i, selected, gate, isPublic, .selected⟩ c' := by
    refine ⟨by simp [hmode'], fun _ => ⟨hclosed, howner.trans howner'.symm⟩, fun ho => ?_, fun hp => ?_, fun v => ?_, fun _ => hclaimed,
      fun _ owner hin => ?_⟩
    · have hopen : gate.state = .open := ho
      rw [hclosed] at hopen
      cases hopen
    · obtain ⟨value', hvalue, hstable, -⟩ := h.1.2.2 hp
      rw [h.2] at hvalue
      cases hvalue
      rw [hmode] at hstable
      cases hstable
    · rw [htrace]
      exact h.1.1.unblocked h.2 (by simp [hmode]) v
    · rw [htrace] at hin
      show selected.owner ≠ some owner
      rw [howner', ← howner]
      exact h.1.1.owner_here h.1.2.1 hclosed hin
  unfold claimPermit
  split
  · next previous hprevious =>
    refine Spec.bind (demand_spec (fun c h => h.1.1) _ _) fun _ => Spec.bind (confirmSelection_spec (Q := fun c => Sound env c ∧
      Standing ⟨component, some i, value, gate, isPublic, .selected⟩ c) (fun c h => h.1.1.1) fun c h => ?_) fun _ => Spec.ret fun _ h => h
    refine ⟨h.1.1.1.sync, hstanding c _ value h.1 rfl hmode rfl fun d hd => ?_⟩
    rw [List.mem_singleton.mp hd]
    have hsame : previous = i := by simpa using h.2
    subst hsame
    exact ⟨value, previous, h.1.2, rfl, hmode, hprevious⟩
  · next hnone =>
    refine Spec.bind (writeSelection_spec (Q := fun c => Sound env c ∧ Standing ⟨component, some i, value.claim component i, gate, isPublic, .selected⟩ c)
      (fun c h => h.1.1) (fun c h => h.1.1.claim h.2 hmode hnone) fun c h => ⟨(h.1.1.claim h.2 hmode hnone).sync, ?_⟩) fun _ => Spec.ret fun _ h => h
    refine hstanding c _ (value.claim component i) h rfl hmode rfl fun d hd => ?_
    rw [List.mem_singleton.mp hd]
    exact ⟨value.claim component i, i, rfl, rfl, hmode, claimed_self hpermit⟩

theorem markAdmitted_spec {a : Admission F} (hbound : ∀ proof, a.stage = .bound proof → loads a.selection a.component proof = true)
    {T : Fault → World F → Prop} : Spec (Holds fun c => Sound env c ∧ Standing a c) (markAdmitted a) (fun _ => Holds fun c => Sound env c ∧ Standing a c) T :=
  mark_spec fun _ h => ⟨h.2.admitted h.1 hbound, h.2.stays⟩

/-- What the admission of a component leaves: an admission of it that stands. -/
def Admitted (env : Env F) (component : String) (a : Admission F) (c : Core F) : Prop :=
  Sound env c ∧ Standing a c ∧ a.component = component

theorem admitSelection_spec {gate : Gate F} (component : String) (pid : Int) (isPublic : Bool) :
    Spec (Holds fun c => Sound env c ∧ Reads env gate c ∧ ReleasedIn gate isPublic c) (admitSelection env gate component pid isPublic)
      (fun a => Holds (Admitted env component a)) (fun _ => Holds (Sound env)) := by
  refine Spec.bind (readSelection_spec fun c h => h.1) fun value => Spec.bind (verifyMembers_spec (fun c h => h.1.1) value) fun _ =>
    Spec.bind (demand_spec (fun c h => h.1.1) _ _) fun _ => ?_
  by_cases hmode : value.mode = .candidate
  · rw [if_pos hmode]
    refine Spec.bind (bootId_spec fun c h => h.1.1.1) fun boot => Spec.bind (demand_spec (fun c h => h.1.1.1) _ _) fun _ =>
      Spec.bind (instanceOf_spec (fun c h => h.1.1.1.1) pid) fun claim => ?_
    intro w hw
    have hchecks := hw.2
    simp only [Bool.and_eq_true, decide_eq_true_eq] at hchecks
    obtain ⟨⟨hclosed, howner⟩, hboot⟩ := hchecks
    have hpermit : value.permit.isSome = true := by
      cases hp : value.permit with
      | none => simp [Selection.boot, hp] at hboot
      | some permit => rfl
    refine Spec.bind (claimPermit_spec hmode hpermit hclosed howner)
      (fun selected => ?_) w hw.1.1
    exact Spec.bind (markAdmitted_spec (by simp)) fun _ => Spec.ret fun w h => ⟨h.1, h.2, rfl⟩
  · rw [if_neg hmode]
    refine Spec.bind (demand_spec (fun c h => h.1.1.1) _ _) fun _ => ?_
    refine Spec.bind ((markAdmitted_spec (a := ⟨component, none, value, gate, isPublic, .selected⟩) (by simp)).pre fun w h => ⟨h.1.1.1.1, ?_⟩) fun _ =>
      Spec.ret fun w h => ⟨h.1, h.2, rfl⟩
    obtain ⟨⟨⟨⟨hsound, hread, hreleased⟩, hnow⟩, hactive⟩, hdeployment⟩ := h
    simp only [Bool.and_eq_true, decide_eq_true_eq] at hactive
    have hblocked : value.mode ≠ .blocked := hactive.1.2
    have hstable : value.mode = .stable := by
      cases hm : value.mode with
      | blocked => exact absurd hm hblocked
      | candidate => exact absurd hm hmode
      | stable => rfl
    refine ⟨hblocked, fun hc => absurd hc hmode, fun ho => ⟨hstable, ?_⟩, fun hp => ?_, hsound.unblocked hnow hblocked, fun hc => absurd hc hmode,
      fun hc => absurd hc hmode⟩
    · have hopen : gate.state = .open := ho
      simpa [hopen, eq_comm] using hdeployment
    · obtain ⟨value', hvalue, hs, hd⟩ := hreleased hp
      rw [hnow] at hvalue
      cases hvalue
      exact ⟨hs, hd⟩

/-- A listener that has loaded its selection is bound to it. -/
theorem bind_spec {a : Admission F} {component : String} {proof : Proof} (hloads : loads a.selection component proof = true) :
    Spec (Holds (Admitted env component a)) (bind a proof) (fun _ => Holds (Sound env)) (fun _ => Holds (Sound env)) := by
  refine mark_spec fun c h => ?_
  obtain ⟨hsound, hstanding, hcomponent⟩ := h
  have hbound : Standing { a with stage := .bound proof } c :=
    ⟨hstanding.unblocked, hstanding.candidate, hstanding.opened, hstanding.released, hstanding.quiet, hstanding.claimed, hstanding.left⟩
  refine hbound.admitted hsound fun proof' hp => ?_
  cases hp
  rw [hcomponent]
  exact hloads

theorem authorize_spec (pid : Int) (proof : Proof) :
    Spec (Holds (Sound env)) (authorize env pid proof) (fun _ => Holds (Sound env)) (fun _ => Holds (Sound env)) := by
  refine Spec.bind (admissionLock_spec fun _ h => h) fun gate => ?_
  cases proof.component with
  | none => exact raise_spec (fun c h => h.1) _
  | some component =>
    refine Spec.bind ((admitSelection_spec component pid false).pre fun w h => ⟨h.1, h.2, fun hp => by cases hp⟩) fun a => ?_
    refine Spec.bind (demand_spec (fun c h => h.1) _ _) fun _ => ?_
    intro w hw
    have hloads : loads a.selection component proof = true := hw.2
    refine Spec.bind (P := Holds (Admitted env component a)) (Q := fun _ => Holds (Admitted env component a)) ?_ (fun _ => bind_spec hloads) w hw.1
    unfold checkLoaded
    split
    · exact Spec.bind (bootId_spec fun c h => h.1) fun _ => (demand_spec (fun c h => h.1) _ _).weaken (fun _ h => h) (fun _ _ h => h.1) fun _ _ h => h
    · split
      · exact raise_spec (fun c h => h.1) _
      · exact (demand_spec (fun c h => h.1) _ _).weaken (fun _ h => h) (fun _ _ h => h.1) fun _ _ h => h

theorem receiveCompletion_spec {P E : Core F → Prop} (hP : ∀ c, P c → E c) (fault : Fault) :
    Spec (Holds P) (receiveCompletion env fault) (fun _ => Holds P) (fun _ => Holds E) := by
  refine Spec.bind question_spec fun _ => Spec.bind (lift_keeps hP _) fun received => ?_
  cases received with
  | some proof => exact Spec.ret fun _ h => h
  | none => exact raise_spec hP fault

theorem serveAuthorization_spec (peerPid : Int) :
    Spec (Holds (Sound env)) (serveAuthorization env peerPid) (fun _ => Holds (Sound env)) (fun _ => Holds (Sound env)) := by
  refine Spec.bind (admissionLock_spec fun _ h => h) fun gate => ?_
  refine Spec.bind ((admitSelection_spec "mcp" peerPid false).pre fun w h => ⟨h.1, h.2, fun hp => by cases hp⟩) fun a => ?_
  have hsound (c : Core F) (h : Admitted env "mcp" a c) : Sound env c := h.1
  refine Spec.bind (pass_spec hsound) fun _ => Spec.bind (receiveCompletion_spec hsound _) fun proof => Spec.bind (bootId_spec hsound) fun boot =>
    Spec.bind (instanceOf_spec hsound peerPid) fun here => Spec.bind (demand_spec hsound _ _) fun _ => ?_
  intro w hw
  have hloads := hw.2
  simp only [Bool.and_eq_true] at hloads
  exact Spec.bind (bind_spec hloads.2) (fun _ => pass_spec fun _ h => h) w hw.1

theorem serveGatewayAuthorization_spec (peerPid peerUid : Int) (isPublic : Bool) :
    Spec (Holds (Sound env)) (serveGatewayAuthorization env peerPid peerUid isPublic) (fun _ => Holds (Sound env)) (fun _ => Holds (Sound env)) := by
  refine Spec.bind (Q := fun _ => Holds (Sound env)) ((demand_spec (fun _ h => h) _ _).weaken (fun _ h => h) (fun _ _ h => h.1) fun _ _ h => h) fun _ =>
    Spec.bind (admissionLock_spec fun _ h => h) fun gate => ?_
  refine Spec.bind (Q := fun _ => Holds fun c => Sound env c ∧ Reads env gate c ∧ ReleasedIn gate isPublic c) ?_ fun _ => ?_
  · unfold checkPublic
    cases isPublic with
    | false => exact Spec.ret fun w h => ⟨h.1, h.2, fun hp => by cases hp⟩
    | true =>
      refine Spec.bind (readSelection_spec fun c h => h.1) fun value => (lift_spec (fun c h => h.1.1) _).weaken (fun _ h => h) (fun _ w h => ?_) fun _ _ h => h
      obtain ⟨⟨⟨hsound, hread⟩, hnow⟩, hchecked⟩ := h
      simp only [checkReleased, require_ok, Bool.and_eq_true, decide_eq_true_eq] at hchecked
      exact ⟨hsound, hread, fun _ => ⟨value, hnow, hchecked.1.1.1, hchecked.2.symm⟩⟩
  · refine Spec.bind (admitSelection_spec "gateway" peerPid isPublic) fun a => ?_
    have hsound (c : Core F) (h : Admitted env "gateway" a c) : Sound env c := h.1
    refine Spec.bind (instanceOf_spec hsound peerPid) fun host => Spec.bind (pass_spec hsound) fun _ => Spec.bind (receiveCompletion_spec hsound _) fun proof =>
      Spec.bind (instanceOf_spec hsound peerPid) fun here => Spec.bind (demand_spec hsound _ _) fun _ => ?_
    intro w hw
    have hloads := hw.2
    simp only [Bool.and_eq_true] at hloads
    exact Spec.bind (bind_spec hloads.2) (fun _ => pass_spec fun _ h => h) w hw.1

/-! ## What a publish changes -/

/-- The descriptor is as it was, or it had the expected digest and was replaced for the
owner that was named. -/
def Published (env : Env F) (c₀ : Core F) (value : Selection) (expected maintenanceOwner : Option String) (c : Core F) : Prop :=
  c.descriptor.now = c₀.descriptor.now ∨ (c₀.descriptor.now.map env.digest = expected ∧ c.descriptor.now = some value ∧
    ∃ gate, c₀.gate.now = some gate ∧ .replaced expected c₀.descriptor.now value (named value maintenanceOwner) gate ∈ c.trace)

theorem publish_changes (c₀ : Core F) (value : Selection) (expected maintenanceOwner : Option String) :
    Spec (Holds (· = c₀)) (publish env value expected maintenanceOwner) (fun _ => Holds (Published env c₀ value expected maintenanceOwner))
      (fun _ => Holds (Published env c₀ value expected maintenanceOwner)) := by
  have hsame (c : Core F) (h : c = c₀) : Published env c₀ value expected maintenanceOwner c := .inl (by rw [h])
  refine Spec.bind (demand_spec hsame _ _) fun _ => Spec.bind (admissionLock_spec fun c h => hsame c h.1) fun gate => ?_
  refine Spec.bind (demand_spec (fun c h => hsame c h.1.1) _ _) fun _ => Spec.bind (lift_spec (fun c h => hsame c h.1.1.1) _) fun _ =>
    Spec.bind (current_spec fun c h => hsame c h.1.1.1.1) fun there => Spec.bind (lift_spec (fun c h => hsame c h.1.1.1.1.1) _) fun _ => ?_
  by_cases hthere : there = some value
  · rw [if_pos hthere]
    refine Spec.bind (confirmSelection_spec (Q := fun c => c.descriptor.now = c₀.descriptor.now) (fun c h => hsame c h.1.1.1.1.1.1) fun c h => ?_) fun _ =>
      Spec.bind (mark_spec (Q := Published env c₀ value expected maintenanceOwner) fun c h => .inl h) fun _ => Spec.ret fun _ h => h
    rw [← h.1.1.1.1.1.1]
    rfl
  · rw [if_neg hthere]
    refine Spec.bind (demand_spec (fun c h => hsame c h.1.1.1.1.1.1) _ _) fun _ => Spec.bind (pass_spec fun c h => hsame c h.1.1.1.1.1.1.1) fun _ =>
      Spec.bind (verifyUnblocked_spec (fun c h => hsame c h.1.1.1.1.1.1.1) value) fun _ => ?_
    let Changed (c : Core F) : Prop := c₀.descriptor.now.map env.digest = expected ∧ c.descriptor.now = some value ∧
      ∃ gate, c₀.gate.now = some gate ∧ .replaced expected c₀.descriptor.now value (named value maintenanceOwner) gate ∈ c.trace
    refine Spec.bind (writeSelection_spec (Q := Changed) (fun c h => hsame c h.1.1.1.1.1.1.1) (fun c h => .inr ?_) fun c h => ?_) fun _ =>
      Spec.bind (mark_spec (Q := Published env c₀ value expected maintenanceOwner) fun c h => .inr ⟨h.1, h.2.1, ?_⟩) fun _ => Spec.ret fun _ h => h
    · obtain ⟨⟨⟨⟨⟨⟨⟨rfl, -⟩, hread⟩, -⟩, -⟩, hnow⟩, -⟩, hexpected⟩ := h
      rw [hnow]
      exact ⟨by simpa using hexpected, rfl, gate, hread.1, List.mem_append_right _ (List.mem_singleton.mpr rfl)⟩
    · obtain ⟨⟨⟨⟨⟨⟨⟨rfl, -⟩, hread⟩, -⟩, -⟩, hnow⟩, -⟩, hexpected⟩ := h
      show _ ∧ _ ∧ _
      rw [hnow]
      exact ⟨by simpa using hexpected, rfl, gate, hread.1, List.mem_append_right _ (List.mem_singleton.mpr rfl)⟩
    · obtain ⟨gate, hgate, hin⟩ := h.2.2
      exact ⟨gate, hgate, List.mem_append_left _ hin⟩

/-! ## The gate -/

variable [DecidableEq F]

omit [DecidableEq F] in
theorem GateCall.movesOwner (call : GateCall F) : call.call.movesOwner = true := by cases call <;> rfl

variable (env) in
theorem perform_retired {record : Option (Gate F)} (call : GateCall F) (io : Io) {owner : String}
    (h : ∃ value, record = some value ∧ owner ∈ value.retiredOwners) :
    ∃ value, (Maintenance.perform env.site call.call io record).2 = some value ∧ owner ∈ value.retiredOwners := by
  obtain ⟨value, hrecord, hretired⟩ := h
  have hfresh : Maintenance.FreshIdentity record (call.call, io) := by cases call <;> trivial
  obtain ⟨value', hvalue', hahead⟩ := Maintenance.step_ahead env.site record (call.call, io) hfresh value hrecord
  exact ⟨value', hvalue', hahead.retired owner hretired⟩

theorem perform_left {record : Option (Gate F)} {call : GateCall F} {io : Io} {reply : Maintenance.Reply F}
    (h : (Maintenance.perform env.site call.call io record).1 = .ok reply) {owner : String} (hleaves : call.leaves = some owner) :
    ∃ value, (Maintenance.perform env.site call.call io record).2 = some value ∧ owner ∈ value.retiredOwners := by
  obtain ⟨value, hvalue, hspent⟩ := Maintenance.perform_spent call.movesOwner h
  refine ⟨value, hvalue, ?_⟩
  cases call with
  | close => cases hleaves
  | release | handoff =>
    cases hleaves
    exact hspent

theorem moveGate_spec (call : GateCall F) :
    Spec (Holds (Sound env)) (moveGate env call) (fun _ => Holds (Sound env)) (fun _ => Holds (Sound env)) := by
  refine Spec.bind question_spec fun n => Spec.bind core_spec fun c => ?_
  have hretired (h : Sound env c) (owner : String) (hleft : .left owner ∈ c.trace) :=
    perform_retired env call (env.io n) (h.left owner hleft c.gate.now List.mem_cons_self)
  have hleaves {reply : Maintenance.Reply F} (h : (Maintenance.perform env.site call.call (env.io n) c.gate.now).1 = .ok reply) {owner : String}
    (ho : call.leaves = some owner) := perform_left h ho
  revert hretired hleaves
  generalize Maintenance.perform env.site call.call (env.io n) c.gate.now = run
  obtain ⟨result, record⟩ := run
  intro hretired hleaves
  cases result with
  | ok reply =>
    refine change_spec fun c' h => ?_
    obtain ⟨h, hsame⟩ := h
    subst hsame
    have hfile : Sound env { c with gate := (c.gate.replace record).sync } := by
      refine h.files rfl (fun owner hleft g hg => ?_) h.claimed h.blocked
      rw [List.mem_singleton.mp hg]
      exact hretired h owner hleft
    cases hcall : call.leaves with
    | none =>
      show Sound env { c with gate := (c.gate.replace record).sync, trace := c.trace ++ [] }
      rw [List.append_nil]
      exact hfile
    | some owner =>
      refine hfile.mark (k := .left owner) (by simp) trivial (fun owner' ho g hg => ?_) (by simp)
      cases ho
      rw [List.mem_singleton.mp hg]
      exact hleaves rfl hcall
  | error fault =>
    refine Spec.bind (change_spec (Q := Sound env) fun c' h => ?_) fun _ => raise_spec (fun _ h => h) fault
    obtain ⟨h, hsame⟩ := h
    subst hsame
    refine h.files rfl (fun owner hleft g hg => ?_) h.claimed h.blocked
    rcases List.mem_cons.mp hg with rfl | hg
    · exact hretired h owner hleft
    · exact h.left owner hleft g hg

/-! ## Runs -/

omit [DecidableEq F] in
/-- Where a call ends, returning or raising. -/
theorem ends {σ ε α : Type} {P R : σ → Prop} {m : Prog σ ε α} (h : Spec P m (fun _ => R) (fun _ => R)) {s : σ} (hs : P s) : R (m.from s).2 := by
  have hrun := h s hs
  generalize m.from s = run at hrun
  obtain ⟨result, t⟩ := run
  cases result <;> exact hrun

theorem step_sound {w : World F} (h : Sound env w.core) (label : Label F) : Sound env (step env w label).core := by
  cases label with
  | publish value expected maintenanceOwner => exact ends (publish_spec value expected maintenanceOwner) h
  | gate call => exact ends (moveGate_spec call) h
  | authorize pid proof => exact ends (authorize_spec pid proof) h
  | serveAuthorization peerPid => exact ends (serveAuthorization_spec peerPid) h
  | serveGatewayAuthorization peerPid peerUid isPublic => exact ends (serveGatewayAuthorization_spec peerPid peerUid isPublic) h
  | crash boot gate descriptor => exact h.crash boot gate descriptor

omit [DecidableEq F] in
theorem installed_sound (gate : Option (Gate F)) (descriptor : Option Selection) (boot : String) :
    Sound env (installed gate descriptor boot).core where
  lawful := by simp [installed]
  ordered := List.Pairwise.nil
  left := by simp [installed]
  claimed a h := by
    have hin := h.mem
    simp [installed] at hin
  oneInstance before a mid b after h := by simp [installed] at h
  blocked v h := by
    have hin := h.mem
    simp [installed] at hin
  blockedQuiet before v mid a after h := by simp [installed] at h

theorem run_sound (gate : Option (Gate F)) (descriptor : Option Selection) (boot : String) (labels : List (Label F)) :
    Sound env (Machine.exec (step env) (installed gate descriptor boot) labels).core :=
  Machine.exec_inv (I := fun w : World F => Sound env w.core) (fun _ label h => step_sound h label) (installed_sound gate descriptor boot)

/-- The startup selection protocol in a world. -/
structure Protocol (env : Env F) (w : World F) : Prop where
  oneInstance : ∀ before a mid b after, w.core.trace = before ++ .admitted a :: (mid ++ .admitted b :: after) →
    (∀ m ∈ mid, m.isReplaced = false) → a.component = b.component → a.candidate → b.candidate → a.instance' = b.instance'
  ownerHolds : ∀ a, .admitted a ∈ w.core.trace → a.candidate → a.gate.state = .closed ∧ a.gate.owner = a.selection.owner
  notAfterLeft : ∀ owner a, List.Sublist [.left owner, .admitted a] w.core.trace → a.candidate → a.selection.owner ≠ some owner
  blockedQuiet : ∀ before v mid a after, w.core.trace = before ++ .settled v :: (mid ++ .admitted a :: after) →
    v.mode = .blocked → ∃ m ∈ mid, m.isReplaced = true
  replacedByOwner : ∀ expected previous value named gate, .replaced expected previous value named gate ∈ w.core.trace →
    previous.map env.digest = expected ∧ (previous.isSome = true → gate.state = .closed ∧ gate.owner = named)
  currentDeployment : ∀ a, .admitted a ∈ w.core.trace → a.gate.state = .open →
    a.selection.mode = .stable ∧ a.selection.deploymentDigest = a.gate.deploymentDigest
  runsSelected : ∀ a proof, .admitted a ∈ w.core.trace → a.stage = .bound proof → loads a.selection a.component proof = true
  publicDecision : ∀ a, .admitted a ∈ w.core.trace → a.isPublic = true →
    a.selection.mode = .stable ∧ a.selection.decisionId = some a.gate.decisionId
  publishes : ∀ value expected maintenanceOwner,
    Published env w.core value expected maintenanceOwner (step env w (.publish value expected maintenanceOwner)).core

theorem Sound.protocol {w : World F} (h : Sound env w.core) : Protocol env w where
  oneInstance := h.oneInstance
  ownerHolds a hin := (h.lawful _ hin : a.Lawful).candidate
  notAfterLeft _ _ hsub := List.pairwise_iff_forall_sublist.mp h.ordered hsub
  blockedQuiet := h.blockedQuiet
  replacedByOwner _ _ _ _ _ hin := h.lawful _ hin
  currentDeployment a hin := (h.lawful _ hin : a.Lawful).opened
  runsSelected a proof hin := (h.lawful _ hin : a.Lawful).bound proof
  publicDecision a hin := (h.lawful _ hin : a.Lawful).released
  publishes value expected maintenanceOwner := ends (publish_changes w.core value expected maintenanceOwner) rfl

/-- Every run of publishes, gate calls, admissions and crashes, from any gate and descriptor. -/
theorem startup_protocol (env : Env F) (gate : Option (Gate F)) (descriptor : Option Selection) (boot : String) (labels : List (Label F)) :
    Protocol env (Machine.exec (step env) (installed gate descriptor boot) labels) :=
  (run_sound gate descriptor boot labels).protocol

end LocalHand.Startup
