/-
Every step of the broker is a sequence of effects and leaves it sound, whatever
has happened before: calls, deliveries and closures beside the coordinator, the
recovery of a new process, a crash between any two transactions.
-/
import LocalHand.Broker.Steps

namespace LocalHand.Broker

open Relation (ReflTransGen)

variable {site : Site} {g : Grounds} {l l' : Ledger} {key : Key} {exec : ExecId} {m : Mem}

/-! ## Recovery -/

/-- What a restart is to reattach is of the row's phase. -/
theorem barrierRow_attends {row : Row} {entry : Key × Attached} (hget : l.get row.key = some row)
    (h : barrierRow site m l row = .ok (l', some entry)) : Attends l entry.2.exec entry.1 := by
  simp only [barrierRow, bind_ok, Ledger.update_ok] at h
  obtain ⟨retained, -, l1, -, h⟩ := h
  split at h
  · simp only [bind_ok] at h
    obtain ⟨current, -, found, -, h⟩ := h
    cases found <;> simp [pure, Except.pure] at h
  · simp [pure, Except.pure] at h
  · simp only [bind_ok, exists_unit, pure, Except.pure, Except.ok.injEq, Prod.mk.injEq, Option.some.injEq] at h
    obtain ⟨-, -, rfl⟩ := h
    exact ⟨row, hget, row.record.phase, rfl, .inl rfl⟩

theorem recoverRow_attends {entry : Key × Attached} (h : recoverRow site m l key = .ok (l', some entry)) :
    Attends l entry.2.exec entry.1 := by
  simp only [recoverRow, bind_ok, Ledger.row_ok] at h
  obtain ⟨row, hget, stopped, -, h⟩ := h
  have hkey := Ledger.get_key hget
  subst hkey
  cases stopped with
  | some l1 => simp [pure, Except.pure] at h
  | none =>
    simp only [bind_ok] at h
    obtain ⟨released, -, h⟩ := h
    cases released with
    | some l1 => simp [pure, Except.pure] at h
    | none =>
      simp only at h
      split at h
      · simp [pure, Except.pure] at h
      · exact barrierRow_attends hget h

theorem recoverRows_attend {keys : List Key} {entries : List (Key × Attached)} (hstarts : ¬ g.starts)
    (h : recoverRows site m l keys = .ok (l', entries)) : ∀ entry ∈ entries, Attends l' entry.2.exec entry.1 := by
  induction keys generalizing l entries with
  | nil =>
    simp only [recoverRows, Except.ok.injEq, Prod.mk.injEq] at h
    rw [← h.2]
    intro entry hmem
    cases hmem
  | cons key rest ih =>
    simp only [recoverRows, bind_ok, pure, Except.pure, Except.ok.injEq, Prod.mk.injEq] at h
    obtain ⟨⟨l1, attached⟩, hrow, ⟨l2, others⟩, hrest, rfl, rfl⟩ := h
    intro entry hmem
    rcases List.mem_append.mp hmem with hfirst | hother
    · rw [Option.mem_toList] at hfirst
      simp only at hfirst
      subst hfirst
      have hfirst : Moves site m g l l1 := (recoverRow_effects hrow).moves
      exact (recoverRow_attends hrow).moves (hfirst.trans (recoverRows_moves hrest)) hstarts
    · exact ih hrest entry hother

section

variable {s : Sys} {answers : Answers}

theorem resuming_stepped {row : Row} {rest : List Row} (h : s.Sound site) (hexited : g.exited = (· ∈ s.proved))
    (hstarts : ¬ g.starts) : Stepped site g s (s.resuming site answers row rest) := by
  unfold Sys.resuming
  split
  · exact .goes h trivial
  · split
    · exact .goes h trivial
    · next l' hresume =>
      exact .write h hexited hstarts (resumeClosed_moves h hexited (tx_ok hresume)) fun _ => trivial
    · exact .goes h trivial

theorem barrier_stepped (h : s.Sound site) (hexited : g.exited = (· ∈ s.proved)) (hstarts : ¬ g.starts) :
    Stepped site g s (s.barrier site answers) := by
  unfold Sys.barrier
  split
  · exact .goes h trivial
  · next l' entries hrecover =>
    refine .write h hexited hstarts (recoverRows_moves (tx_ok hrecover)) fun _ => ?_
    exact recoverRows_attend hstarts (tx_ok hrecover)

theorem reattaching_stepped {attached : Attached} {rest : List (Key × Attached)} (h : s.Sound site)
    (hcoord : s.coord = .reattaching ((key, attached) :: rest)) :
    Stepped site g s (s.reattaching answers key attached rest) := by
  have hok : CoordOk s.ledger s.mem s.proved (.reattaching ((key, attached) :: rest)) := hcoord ▸ h.coord
  have hattends : Attends s.ledger attached.exec key := hok _ List.mem_cons_self
  have hpending : Attends s.ledger (Recovering.mk attached false).attached.exec key := hattends
  have htables := ((Coherent.tables h).reattaching _ hpending).retry hpending answers true
  exact ⟨.refl, h.ledger, htables.active, htables.recovering, fun entry hmem => hok entry (List.mem_cons_of_mem _ hmem)⟩

/-! ## Steps -/

/-- What a step is taken under: the coordinator alone starts phases, `_guard_start` alone
delivers stages, and only calls that take the fence withdraw rows. -/
def Sys.grounds (s : Sys) (a : Action) (exited : ExecId → Prop) : Grounds where
  exited := exited
  late := ¬ Timely s
  withdraws := s.fenceFree = true
  starts := ∃ answers row rest, a = .advance answers ∧ s.coord = .row .decide row rest
  delivers := ∃ env d, a = .guard env d

theorem advance_stepped (h : s.Sound site) :
    Stepped site (s.grounds (.advance answers) (· ∈ s.proved)) s (s.advance site answers) := by
  have hstarts : ∀ {turn row rest}, s.coord = .row turn row rest →
      ((s.grounds (.advance answers) (· ∈ s.proved)).starts ↔ turn.starts = true) := by
    intro turn row rest hcoord
    constructor
    · rintro ⟨answers', row', rest', -, hdecide⟩
      rw [hcoord, Coord.row.injEq] at hdecide
      rw [hdecide.1]
      rfl
    · intro hturn
      cases turn <;> first | exact ⟨answers, row, rest, rfl, hcoord⟩ | cases hturn
  have hnot : (∀ turn row rest, s.coord ≠ .row turn row rest) →
      ¬ (s.grounds (.advance answers) (· ∈ s.proved)).starts := by
    rintro hne ⟨answers', row, rest, -, hdecide⟩
    exact hne _ _ _ hdecide
  unfold Sys.advance
  split
  · exact .goes h trivial
  · exact .goes h trivial
  · next row rest hcoord =>
    exact .when h fun _ => resuming_stepped h rfl (hnot fun _ _ _ heq => by rw [hcoord] at heq; cases heq)
  · next hcoord => exact .when h fun _ => barrier_stepped h rfl (hnot fun _ _ _ heq => by rw [hcoord] at heq; cases heq)
  · exact .goes h trivial
  · next hcoord => exact reattaching_stepped h hcoord
  · next turn row rest hcoord => exact turn_stepped h hcoord rfl (hstarts hcoord) id
  · exact ⟨.refl, h⟩

/-- A call's transaction. -/
theorem Stepped.fenced {result : Except Fault Ledger} (h : s.Sound site) (hexited : g.exited = (· ∈ s.proved))
    (hstarts : ¬ g.starts)
    (hmoves : s.fenceFree = true → ∀ l', result = .ok l' → Moves site s.mem g s.ledger l') :
    Stepped site g s (s.fenced result) := by
  refine .when h fun hfree => ?_
  unfold Sys.commit
  split
  · next l' => exact .write h hexited hstarts (hmoves hfree l' rfl) id
  · exact ⟨.refl, h⟩

theorem guard_stepped {env : Env} {d : Delivery} (h : s.Sound site) (hexited : g.exited = (· ∈ s.proved))
    (hstarts : ¬ g.starts) (hmay : g.delivers) : Stepped site g s (s.guard site env d) := by
  unfold Sys.guard
  split
  · exact ⟨.refl, h⟩
  · split
    · next l' key hguard howner =>
      obtain ⟨row, before, hget, hable, hbefore, rfl⟩ := guardStart_ok hguard
      have heffects : Effects site s.mem g row.key s.ledger _ :=
        .one (.write hget (.delivered d.id before hmay hable hbefore))
      have hafter := Coherent.moves h heffects.moves hexited hstarts
      exact ⟨heffects.moves, hafter.ledger, hafter.active, hafter.recovering, hafter.coord⟩
    · exact ⟨.refl, h⟩

theorem closeObservation_stepped {env : Env} {phase : Phase} (h : s.Sound site) (hexited : g.exited = (· ∈ s.proved))
    (hstarts : ¬ g.starts) : Stepped site g s (s.closeObservation site env key phase) := by
  unfold Sys.closeObservation
  split
  · exact ⟨.refl, h⟩
  · split
    · next l' hclose =>
      have heffects : Effects site s.mem g key s.ledger l' := closeObservation_effects hclose
      have hafter := Coherent.moves h heffects.moves hexited hstarts
      exact ⟨heffects.moves, hafter.ledger, hafter.active, hafter.recovering, hafter.coord⟩
    · exact ⟨.refl, h⟩

theorem finishClosing_stepped {phase : Phase} (h : s.Sound site) (hexited : g.exited = (· ∈ s.proved))
    (hstarts : ¬ g.starts) : Stepped site g s (s.finishClosing site key phase) := by
  unfold Sys.finishClosing
  split
  · exact ⟨.refl, h⟩
  · split
    · next l' hresume =>
      have hmoves := resumeClosed_moves h hexited hresume
      have hafter := Coherent.moves h hmoves hexited hstarts
      exact ⟨hmoves, hafter.ledger, hafter.active, hafter.recovering, hafter.coord⟩
    · exact ⟨.refl, h.ledger, h.active, h.recovering, h.coord⟩

theorem completeRecoveredEvidence_proved (site : Site) (s : Sys) (env : Env) (operationId digest : String)
    (publication : Seal) (proof : Proof) : ∀ exec ∈ s.proved,
      exec ∈ (s.completeRecoveredEvidence site env operationId digest publication proof).proved := by
  intro exec hmem
  unfold Sys.completeRecoveredEvidence
  split
  · exact hmem
  · split
    · exact hmem
    · simp only
      split
      · exact List.mem_cons_of_mem _ hmem
      · exact hmem

/-- The recovery supervisor's proof counts from this step on. -/
theorem completeRecoveredEvidence_stepped {env : Env} {operationId digest : String} {publication : Seal} {proof : Proof}
    (h : s.Sound site)
    (hexited : g.exited = (· ∈ (s.completeRecoveredEvidence site env operationId digest publication proof).proved))
    (hstarts : ¬ g.starts) :
    Stepped site g s (s.completeRecoveredEvidence site env operationId digest publication proof) := by
  have hgrown := completeRecoveredEvidence_proved site s env operationId digest publication proof
  unfold Sys.completeRecoveredEvidence at hexited hgrown ⊢
  by_cases hfree : (!s.fenceFree) = true
  · rw [if_pos hfree]
    exact ⟨.refl, h⟩
  · rw [if_neg hfree] at hexited hgrown ⊢
    cases hresult : Broker.completeRecoveredEvidence site env s.mem s.ledger operationId digest publication proof with
    | error fault => exact ⟨.refl, h⟩
    | ok l' =>
      simp only [hresult] at hexited hgrown ⊢
      have heffects : Effects site s.mem g ⟨.job, operationId⟩ s.ledger l' := by
        refine completeRecoveredEvidence_effects (fun hnew => ?_) hresult
        rw [hexited]
        simp only [hnew, if_true]
        exact List.mem_cons_self
      have hafter := (Coherent.mono h hgrown).moves heffects.moves hexited hstarts
      exact ⟨heffects.moves, hafter.ledger, hafter.active, hafter.recovering, hafter.coord⟩

theorem tick_stepped (h : s.Sound site) :
    Stepped site g s (s.act site .tick) := by
  simp only [Sys.act]
  split
  · exact .goes h (nextRow_ok h.ledger.nodup fun row hrow => h.ledger.stale hrow)
  · exact ⟨.refl, h⟩

/-- A process of its own, which has no rows in its tables. -/
theorem fresh_stepped {install : Install} {session : String} {s' : Sys} (h : s.Sound site)
    (hledger : s'.ledger = s.ledger) (hmem : s'.mem = .start install session)
    (hcoord : CoordOk s.ledger s'.mem s.proved s'.coord) (hproved : s'.proved = s.proved) : Stepped site g s s' := by
  refine ⟨by rw [hledger], ?_, ?_, ?_, ?_⟩
  · rw [hledger, hproved]
    exact h.ledger
  · intro key attached hlookup
    rw [hmem] at hlookup
    cases hlookup
  · intro key pending hlookup
    rw [hmem] at hlookup
    cases hlookup
  · rw [hledger, hproved]
    exact hcoord

/-- A step of a living process, the coordinator's apart. -/
theorem act_stepped {a : Action} (h : s.Sound site) (hnot : ∀ answers, a ≠ .advance answers) :
    ∃ exited, (∀ exec ∈ s.proved, exited exec) ∧ Stepped site (s.grounds a exited) s (s.act site a) := by
  have hstarts : ∀ exited, ¬ (s.grounds a exited).starts := by
    rintro exited ⟨answers, row, rest, heq, -⟩
    exact hnot answers heq
  cases a with
  | completeRecoveredEvidence env operationId digest publication proof =>
    exact ⟨_, completeRecoveredEvidence_proved site s env operationId digest publication proof,
      completeRecoveredEvidence_stepped h rfl (hstarts _)⟩
  | advance answers => exact absurd rfl (hnot answers)
  | submit env request principal =>
    exact ⟨_, fun _ hmem => hmem, .fenced h rfl (hstarts _) fun _ _ hok => (submit_effects hok).moves⟩
  | cancel env operationId digest round principal =>
    refine ⟨_, fun _ hmem => hmem, .fenced h rfl (hstarts _) fun hfree l' hok => ?_⟩
    obtain ⟨key, heffects⟩ := cancel_effects (show (s.grounds _ (· ∈ s.proved)).withdraws from hfree) hok
    exact heffects.moves
  | reconcile env operationId digest roundId principal =>
    exact ⟨_, fun _ hmem => hmem, .fenced h rfl (hstarts _) fun _ _ hok => (reconcile_effects hok).moves⟩
  | revoke principalId =>
    refine ⟨_, fun _ hmem => hmem, .fenced h rfl (hstarts _) fun hfree l' hok => ?_⟩
    cases hok
    exact revoke_moves hfree principalId h.ledger.nodup
  | bindObservation env key phase grant =>
    exact ⟨_, fun _ hmem => hmem, .fenced h rfl (hstarts _) fun _ _ hok => (bindObservation_effects hok).moves⟩
  | closeObservation env key phase => exact ⟨_, fun _ hmem => hmem, closeObservation_stepped h rfl (hstarts _)⟩
  | finishClosing key phase => exact ⟨_, fun _ hmem => hmem, finishClosing_stepped h rfl (hstarts _)⟩
  | registerSeal publication =>
    refine ⟨(· ∈ s.proved), fun _ hmem => hmem, ?_⟩
    show Stepped site _ s (s.commit (registerSeal s.ledger publication))
    unfold Sys.commit
    split
    · next l' hok =>
      obtain ⟨row, -, -, heffects⟩ := registerSeal_effects site s.mem _ hok
      exact .write h rfl (hstarts _) heffects.moves id
    · exact ⟨.refl, h⟩
  | guard env d => exact ⟨_, fun _ hmem => hmem, guard_stepped h rfl (hstarts _) ⟨env, d, rfl⟩⟩
  | launch =>
    refine ⟨(· ∈ s.proved), fun _ hmem => hmem, ?_⟩
    show Stepped site _ s s.launch
    unfold Sys.launch
    split
    · exact ⟨.refl, h⟩
    · exact ⟨.refl, h.ledger, h.active, h.recovering, h.coord⟩
  | tick => exact ⟨(· ∈ s.proved), fun _ hmem => hmem, tick_stepped h⟩
  | crash => exact ⟨(· ∈ s.proved), fun _ hmem => hmem, fresh_stepped h rfl rfl trivial rfl⟩
  | restart install session => exact ⟨(· ∈ s.proved), fun _ hmem => hmem, .refl, h⟩
  | exit exec => exact ⟨(· ∈ s.proved), fun _ hmem => hmem, .refl, h⟩

/-- Every step is a sequence of effects, and leaves the broker sound. -/
theorem step_stepped (h : s.Sound site) (a : Action) :
    ∃ exited, (∀ exec ∈ s.proved, exited exec) ∧ Stepped site (s.grounds a exited) s (step site s a) := by
  have hact : (∀ answers, a ≠ .advance answers) →
      ∃ exited, (∀ exec ∈ s.proved, exited exec) ∧
        Stepped site (s.grounds a exited) s (if s.coord.alive then s.act site a else s) := by
    intro hnot
    obtain ⟨exited, hgrown, hstepped⟩ := act_stepped h hnot
    exact ⟨exited, hgrown, .when h fun _ => hstepped⟩
  cases a with
  | restart install session =>
    refine ⟨(· ∈ s.proved), fun _ hmem => hmem, ?_⟩
    show Stepped site _ s (s.restart install session)
    unfold Sys.restart
    split
    · split
      · exact ⟨.refl, h⟩
      · exact fresh_stepped h rfl rfl trivial rfl
    · exact ⟨.refl, h⟩
  | exit exec => exact ⟨(· ∈ s.proved), fun _ hmem => hmem, .refl, h⟩
  | advance answers => exact ⟨_, fun _ hmem => hmem, .when h fun _ => advance_stepped h⟩
  | _ => exact hact fun answers heq => by cases heq

theorem Sys.Sound.created (site : Site) : Sys.created.Sound site where
  ledger := .created site _
  active key attached hlookup := by cases hlookup
  recovering key pending hlookup := by cases hlookup
  coord := trivial

/-- Every state a run reaches is sound. -/
theorem run_sound (site : Site) (actions : List Action) : (run site .created actions).Sound site :=
  Machine.exec_inv (I := Sys.Sound site) (fun _ a h => (step_stepped h a).elim fun _ hstepped => hstepped.2.sound)
    (.created site)

end

end LocalHand.Broker
