/-
What every run of a task session's ticks obeys, and what a tick that raises leaves.
-/
import LocalHand.TaskSessionTicks
import LocalHand.Lib.Run

namespace LocalHand.TaskSession

open PyJson QuotaContract Program
open QuotaBridge (jobPhases)

variable {F : Type} {env : Env F}

/-- What holds of a session between its ticks. -/
structure Sound (env : Env F) (s : Flags) (c : Core F) : Prop where
  laws : Laws env c
  live : s.over = false → Live c

/-- What a tick that raises leaves: a session that is over, or one that sent and received
nothing, or one that has its close still to answer. -/
structure Halted (env : Env F) (before : Core F) (stop : Stop) (s : Flags) (c : Core F) : Prop extends Sound env s c where
  busy : s.over = false → stop = .busy → packets c = packets before ∨ c.pendingClose.isSome = true
  raised : s.over = false → stop = .raised → c = before

theorem Halted.of_over {before : Core F} {stop : Stop} {s : Flags} {c : Core F} (hlaws : Laws env c) (hover : s.over = true) :
    Halted env before stop s c where
  laws := hlaws
  live h := absurd hover (by simp [h])
  busy h := absurd hover (by simp [h])
  raised h := absurd hover (by simp [h])

theorem Flags.over_of_failure {s : Flags} {stop : Stop} : ({ s with failure := some stop } : Flags).over = true := by
  simp [Flags.over]

theorem failed_spec {before : Core F} (stop : Stop) :
    Spec (Holds (Safe env (packets before))) (failed env stop) (fun _ => Holds (Sound env)) fun stop' => Holds (Halted env before stop') := by
  refine Spec.bind flags_spec fun s => Spec.bind core_spec fun c => ?_
  by_cases hlocal : stop = .busy ∧ s.controlStarted = false
  · rw [if_pos hlocal]
    refine Spec.raise fun w h => ?_
    obtain ⟨⟨⟨hlaws, hsafe⟩, rfl⟩, rfl⟩ := h
    rcases hsafe with ⟨hcontrol, -⟩ | ⟨hlive, hpackets⟩
    · rw [hlocal.2] at hcontrol
      cases hcontrol
    · exact ⟨⟨hlaws, fun _ => hlive⟩, fun _ _ => .inl (hpackets hlocal.2), fun _ hstop => by cases hstop⟩
  · rw [if_neg hlocal]
    by_cases hclose : stop = .busy ∧ s.action = "close" ∧ c.pendingClose.isSome = true
    · rw [if_pos hclose]
      refine Spec.bind (flag_spec (Q := Halted env before .busy) fun s' c' h => ?_) fun _ => Spec.raise fun _ h => h
      obtain ⟨⟨⟨hlaws, hsafe⟩, rfl⟩, rfl⟩ := h
      have hlive : Live c' := by
        rcases hsafe with ⟨-, haction | hnone⟩ | ⟨hlive, -⟩
        · exact absurd hclose.2.1 haction
        · rw [hnone] at hclose
          cases hclose.2.2
        · exact hlive
      exact ⟨⟨hlaws, fun _ => hlive⟩, fun _ _ => .inr hclose.2.2, fun _ hstop => by cases hstop⟩
    · rw [if_neg hclose]
      let P (s : Flags) (c : Core F) : Prop := Laws env c ∧ s.over = true
      have hover (stop' : Stop) (w : World F) (h : Holds P w) : Holds (Halted env before stop') w := .of_over h.1 h.2
      refine Spec.bind (flag_spec (Q := P) fun s' c' h => ⟨h.1.1.1, Flags.over_of_failure⟩) fun _ => ?_
      refine Spec.weaken (Q := fun _ => Holds P) (E := fun _ => Holds P) ?_ (fun _ h => h)
        (fun _ w h => ⟨h.1, fun hno => absurd h.2 (by simp [hno])⟩) hover
      refine Spec.bind (Spec.bind (pass_spec fun _ _ h => h) fun _ => Spec.ret (Q := fun _ => Holds P) fun _ h => h) fun found => ?_
      cases found with
      | none => exact Spec.raise fun _ h => h
      | some task =>
        by_cases hterminal : task.lifecycle ≠ "TERMINAL"
        · simp only [if_pos hterminal]
          exact Spec.bind (pass_spec fun _ _ h => h) fun _ => Spec.raise fun _ h => h
        · simp only [if_neg hterminal]
          exact Spec.raise fun _ h => h

theorem row_spec {P E : Flags → Core F → Prop} (hP : ∀ s c, P s c → E s c) : Spec (Holds P) (row env) (fun _ => Holds P) (fun _ => Holds E) :=
  Spec.bind (pass_spec hP) fun _ => Spec.ret fun _ h => h

theorem observe_spec {P E : Flags → Core F → Prop} (hP : ∀ s c, P s c → E s c) :
    Spec (Holds P) (observe env) (fun _ => Holds P) (fun _ => Holds E) := by
  refine Spec.bind (row_spec hP) fun current => ?_
  cases current with
  | none => exact Spec.ret fun _ h => h
  | some task =>
    refine Spec.bind core_spec fun c => ?_
    split
    · exact (Spec.bind (pass_spec hP) fun _ => row_spec hP).pre fun _ h => h.1
    · exact Spec.ret fun _ h => h.1

theorem observeOver_spec {P : Flags → Core F → Prop} : Keeps (Holds P) (observeOver env) := by
  refine Spec.bind (row_spec fun _ _ h => h) fun current => Spec.bind question_spec fun n => ?_
  dsimp only
  split
  · exact Spec.bind (pass_spec fun _ _ h => h) fun _ => Spec.ret fun _ h => h
  · exact Spec.ret fun _ h => h

/-- A session that is over keeps its position, and stays over. -/
theorem tick_over [DecidableEq F] (env : Env F) (before : Core F) :
    Keeps (Holds fun s c => s.over = true ∧ c = before) (tick env) := by
  refine Spec.bind flags_spec fun s => ?_
  by_cases hclosed : s.closed = true
  · rw [if_pos hclosed]
    exact Spec.ret fun _ h => h.1
  · rw [if_neg hclosed]
    by_cases hover : s.over = true
    · rw [if_pos hover]
      exact observeOver_spec.weaken (fun _ h => h) (fun _ _ h => h.1) fun _ _ h => h.1
    · intro w hw
      exfalso
      obtain ⟨⟨hyes, -⟩, rfl⟩ := hw
      exact hover hyes

variable [DecidableEq F]

variable (env) in
/-- A tick of a session that goes on. -/
theorem tick_spec (before : Core F) :
    Spec (Holds fun s c => s.closed = false ∧ s.over = false ∧ Sound env s c ∧ c = before) (tick env) (fun _ => Holds (Sound env))
      fun stop => Holds (Halted env before stop) := by
  refine Spec.bind flags_spec fun s => ?_
  by_cases hclosed : s.closed = true
  · intro w hw
    exfalso
    obtain ⟨⟨hno, -⟩, rfl⟩ := hw
    rw [hno] at hclosed
    cases hclosed
  · rw [if_neg hclosed]
    by_cases hover : s.over = true
    · intro w hw
      exfalso
      obtain ⟨⟨-, hno, -⟩, rfl⟩ := hw
      rw [hno] at hover
      cases hover
    · rw [if_neg hover]
      let P (s : Flags) (c : Core F) : Prop := s.over = false ∧ s.controlStarted = false ∧ Laws env c ∧ Live c ∧ c = before
      have hhalted (stop : Stop) (s : Flags) (c : Core F) (h : P s c) : Halted env before stop s c :=
        ⟨⟨h.2.2.1, fun _ => h.2.2.2.1⟩, fun _ _ => .inl (by rw [h.2.2.2.2]), fun _ _ => h.2.2.2.2⟩
      refine Spec.bind (flag_spec (Q := P) fun s' c h => ?_) fun _ => ?_
      · obtain ⟨⟨-, hno, hsound, hbefore⟩, -⟩ := h
        exact ⟨hno, rfl, hsound.laws, hsound.live hno, hbefore⟩
      · refine Spec.bind ((observe_spec (P := P) (E := P) fun _ _ h => h).weaken (fun _ h => h) (fun _ _ h => h) fun stop w h => hhalted stop _ _ h)
          fun current => Spec.bind (flag_spec (Q := P) fun s' c h => h) fun _ => ?_
        refine Spec.handle (T := Halts env (packets before)) ?_ failed_spec
        refine (exchange_spec current).weaken (fun w h => ?_) (fun _ w h => ⟨h.1, fun _ => h.2⟩) fun _ _ h => h
        obtain ⟨-, hcontrol, hlaws, hlive, hbefore⟩ := h
        exact ⟨hlaws, hlive, hcontrol, by rw [hbefore]⟩

/-- A session that is closed does nothing. -/
theorem tick_closed {w : World F} (hclosed : w.flags.closed = true) : (tick env).from w = (.ok (), w) := by
  have hflags : (flags : Op F Flags).from w = (.ok w.flags, w) := rfl
  rw [tick, from_bind_ok hflags, if_pos hclosed]
  rfl

theorem step_sound {w : World F} (h : Holds (Sound env) w) (label : Label) : Holds (Sound env) (step env w label) := by
  cases label with
  | close => exact ⟨h.laws, h.live⟩
  | tick =>
    show Holds (Sound env) ((tick env).from w).2
    by_cases hover : w.flags.over = true
    · have hrun := tick_over env w.core w ⟨hover, rfl⟩
      have hkept : ((tick env).from w).2.flags.over = true ∧ ((tick env).from w).2.core = w.core := by
        revert hrun
        generalize (tick env).from w = run
        obtain ⟨result, w'⟩ := run
        cases result <;> exact id
      exact ⟨by rw [hkept.2]; exact h.laws, fun hno => absurd hkept.1 (by simp [hno])⟩
    · by_cases hclosed : w.flags.closed = true
      · rw [tick_closed hclosed]
        exact h
      · have hrun := tick_spec env w.core w ⟨by simpa using hclosed, by simpa using hover, h, rfl⟩
        revert hrun
        generalize (tick env).from w = run
        obtain ⟨result, w'⟩ := run
        cases result with
        | ok => exact id
        | error stop => exact Halted.toSound

omit [DecidableEq F] in
theorem opened_sound : Holds (Sound env) (opened : World F) where
  laws := ⟨by simp [opened], by simp [opened], by simp [opened], by simp [opened], by simp [opened], by simp [opened],
    by simp [opened], List.Pairwise.nil, by simp [opened]⟩
  live _ := ⟨rfl, fun _ h => (nomatch h), by simp [opened], by simp [opened], fun _ _ h => (nomatch h), by simp [opened]⟩

theorem run_sound (labels : List Label) : Holds (Sound env) (Machine.exec (step env) opened labels) :=
  Machine.exec_inv (I := Holds (Sound env)) (fun _ label h => step_sound h label) opened_sound

/-! ## The protocol -/

/-- The command protocol in a world: what its trace obeys, and what the next tick does. -/
structure Protocol (env : Env F) (w : World F) : Prop where
  known : ∀ p, .prepares p ∈ w.core.trace → p ∈ jobPhases
  inOrder : ∀ p q, List.Sublist [.prepares p, .prepares q] w.core.trace → jobPhases.idxOf p ≤ jobPhases.idxOf q
  advanced : ∀ i p q, jobPhases[i]? = some p → jobPhases[i + 1]? = some q →
    ∀ before after, w.core.trace = before ++ .prepares q :: after → Advanced env p q before
  oneStart : ∀ n m p, ¬ List.Sublist [.applied n "start" p, .applied m "start" p] w.core.trace
  answeredOnce : ∀ n packet packet', ¬ List.Sublist [.sent (some n) packet, .sent (some n) packet'] w.core.trace
  answersReceived : ∀ n packet, .sent (some n) packet ∈ w.core.trace → ∃ command stopped, .received n command stopped ∈ w.core.trace
  closeAnswered : ∀ n command stopped, .received n command stopped ∈ w.core.trace → isClose command = true →
    (∃ packet, .sent (some n) packet ∈ w.core.trace) ∨ w.core.pendingClose = some (n, command) ∨ w.flags.over = true
  stoppedNotApplied : ∀ n command a p, .received n command true ∈ w.core.trace → .applied n a p ∉ w.core.trace
  stoppedAnswered : ∀ n command, .received n command true ∈ w.core.trace →
    (isAction command "bind" = true ∨ isAction command "start" = true ∨ isClose command = true) →
    (∃ packet, .sent (some n) packet ∈ w.core.trace) ∨ w.flags.over = true
  overQuiet : w.flags.over = true → ((tick env).from w).2.core = w.core ∧ ((tick env).from w).2.flags.over = true
  busyUsable : ((tick env).from w).1 = .error .busy → ((tick env).from w).2.flags.over = false →
    packets ((tick env).from w).2.core = packets w.core ∨ ((tick env).from w).2.core.pendingClose.isSome = true
  raisedOver : ((tick env).from w).1 = .error .raised → ((tick env).from w).2.flags.over = true ∨ ((tick env).from w).2.core = w.core

/-- Of a session that is over a tick does nothing to its exchange. -/
theorem over_quiet {w : World F} (hover : w.flags.over = true) :
    ((tick env).from w).2.core = w.core ∧ ((tick env).from w).2.flags.over = true := by
  have hrun := tick_over env w.core w ⟨hover, rfl⟩
  revert hrun
  generalize (tick env).from w = run
  obtain ⟨result, w'⟩ := run
  cases result with
  | ok => exact fun h => ⟨h.2, h.1⟩
  | error stop => exact fun h => ⟨h.2, h.1⟩

theorem tick_halted {w : World F} (h : Holds (Sound env) w) (hover : w.flags.over = false) {stop : Stop}
    (hstop : ((tick env).from w).1 = .error stop) : Holds (Halted env w.core stop) ((tick env).from w).2 := by
  have hclosed : w.flags.closed = false := by
    by_contra hclosed
    rw [tick_closed (by simpa using hclosed)] at hstop
    cases hstop
  have hrun := tick_spec env w.core w ⟨hclosed, hover, h, rfl⟩
  revert hrun hstop
  generalize (tick env).from w = run
  obtain ⟨result, w'⟩ := run
  rintro rfl
  exact id

omit [DecidableEq F] in
theorem Sound.stopped_answered {w : World F} (h : Holds (Sound env) w) (n : Nat) (command : Value F)
    (hreceived : .received n command true ∈ w.core.trace)
    (haction : isAction command "bind" = true ∨ isAction command "start" = true ∨ isClose command = true) :
    (∃ packet, .sent (some n) packet ∈ w.core.trace) ∨ w.flags.over = true := by
  by_cases hover : w.flags.over = true
  · exact .inr hover
  · have hlive := h.live (by simpa using hover)
    have howed : owed command true = true := by
      rcases haction with ha | ha | ha <;> simp [owed, ha]
    rcases hlive.closes n command true hreceived howed with hsent | ⟨command', hpending⟩
    · exact .inl hsent
    · obtain ⟨-, hfalse, -, -⟩ := hlive.pending n command' hpending
      cases (h.laws.receivedOnce n _ _ _ _ hreceived hfalse).2

theorem Sound.protocol {w : World F} (h : Holds (Sound env) w) : Protocol env w where
  known := h.laws.known
  inOrder p q hsub := List.pairwise_iff_forall_sublist.mp h.laws.ordered hsub
  advanced := h.laws.advanced
  oneStart n m p hsub := List.pairwise_iff_forall_sublist.mp h.laws.ordered hsub rfl rfl rfl
  answeredOnce n packet packet' hsub := List.pairwise_iff_forall_sublist.mp h.laws.ordered hsub rfl
  answersReceived := h.laws.answers
  closeAnswered n command stopped hreceived hclose := by
    by_cases hover : w.flags.over = true
    · exact .inr (.inr hover)
    · have hlive := h.live (by simpa using hover)
      rcases hlive.closes n command stopped hreceived (by simp [owed, hclose]) with hsent | ⟨command', hpending⟩
      · exact .inl hsent
      · obtain ⟨-, hsame, -, -⟩ := hlive.pending n command' hpending
        rw [(h.laws.receivedOnce n _ _ _ _ hreceived hsame).1]
        exact .inr (.inl hpending)
  stoppedNotApplied n command a p hreceived happlied := by
    obtain ⟨command', hfalse, -⟩ := h.laws.applied n a p happlied
    cases (h.laws.receivedOnce n _ _ _ _ hreceived hfalse).2
  stoppedAnswered n command hreceived haction := h.stopped_answered n command hreceived haction
  overQuiet := over_quiet
  busyUsable hstop hover := by
    by_cases hbefore : w.flags.over = true
    · rw [(over_quiet hbefore).2] at hover
      cases hover
    · exact (tick_halted h (by simpa using hbefore) hstop).busy hover rfl
  raisedOver hstop := by
    by_cases hbefore : w.flags.over = true
    · exact .inl (over_quiet hbefore).2
    · by_cases hover : ((tick env).from w).2.flags.over = true
      · exact .inl hover
      · exact .inr ((tick_halted h (by simpa using hbefore) hstop).raised (by simpa using hover) rfl)

/-- The first read of the ledger raises; the task is there and nothing else goes wrong. -/
def misread : Env Nat where
  fault n := if n = 0 then some .raised else none
  late _ := none
  row _ := some ⟨"ACTIVE", "QUEUED", .null, false⟩
  running _ := false
  ready _ := false
  packet _ := .null
  recorded _ := ⟨.null, .null, .null⟩
  plan _ := .null
  digest _ := ""

end LocalHand.TaskSession
