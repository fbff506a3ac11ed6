/-
Each operation of the broker is a sequence of effects on its row.
-/
import LocalHand.Broker.Effects

namespace LocalHand.Broker

open Relation (ReflTransGen)

variable {site : Site} {env : Env} {m : Mem} {g : Grounds} {l l' : Ledger} {key : Key} {row : Row}

/-! ## Single effects -/

theorem Effects.one (h : Effect site m g key l l') : Effects site m g key l l' := ReflTransGen.single h

theorem Effects.write (site : Site) (m : Mem) (g : Grounds) {kind : Kind} {c : Changes} (hget : l.get row.key = some row)
    (h : Write site m g l row [(kind, c)]) : Effects site m g row.key l (l.write row.key kind c) :=
  .one (.write hget h)

theorem get_key_self (hget : l.get key = some row) : l.get row.key = some row := by
  rw [Ledger.get_key hget]
  exact hget

/-- A release only takes leases away. -/
theorem release_ledger {proof : Proof} (h : release l row proof = .ok l') :
    ∃ leases, l' = { l with leases } := by
  simp only [release, bind_ok] at h
  obtain ⟨retained, -, h⟩ := h
  split at h
  · simp only [pure, Except.pure, Except.ok.injEq] at h
    exact ⟨l.leases, h.symm⟩
  · simp only [bind_ok, pure, Except.pure, Except.ok.injEq] at h
    obtain ⟨leases, -, rfl⟩ := h
    exact ⟨leases, rfl⟩

theorem releaseStopped_ledger (h : releaseStopped site l row = .ok l') : ∃ leases, l' = { l with leases } := by
  simp only [releaseStopped, bind_ok, exists_unit, pure, Except.pure, Except.ok.injEq] at h
  obtain ⟨-, leases, -, rfl⟩ := h
  exact ⟨leases, rfl⟩

/-! ## Stopped work -/

/-- Neither check of stopped work reads the leases. -/
theorem stoppedPreflight_leases (leases : Leases) :
    stoppedPreflight site m { l with leases } row = stoppedPreflight site m l row := rfl

theorem stoppedPhase_leases (leases : Leases) (helperDelivered : Option Bool) (phase : Phase) :
    stoppedPhase site m { l with leases } row helperDelivered phase =
      stoppedPhase site m l row helperDelivered phase := rfl

/-- The conditions on a row whose stopped preflight is completed. -/
theorem stoppedPreflight_ok {proof : Proof} (h : stoppedPreflight site m l row = .ok (some proof)) :
    preflightStoppable site m l row = true ∧
    (∃ pending, row.record.quotaPending.lookup .preflight = some pending ∧ pending.proof = proof) ∧
    preflightClosed l row proof = .ok (some ()) ∧
    stoppedExit row .preflight proof row.record.recovered = true ∧ roundOpen l row.id = false := by
  simp only [stoppedPreflight, check_some, bind_ok] at h
  obtain ⟨hable, version, -, -, pending, hpending, closed, hclosed, h⟩ := h
  cases closed with
  | none => cases h
  | some u =>
    simp only [check_some, bind_ok] at h
    obtain ⟨hexit, deliveries, -, h⟩ := h
    cases deliveries with
    | none => cases h
    | some deliveries =>
      simp only [check_some, Bool.and_eq_true, Bool.not_eq_true', Except.ok.injEq, Option.some.injEq] at h
      obtain ⟨⟨-, hround⟩, rfl⟩ := h
      exact ⟨hable, ⟨pending, original_ok hpending, rfl⟩, hclosed, hexit, hround⟩

theorem preflightStoppable_facts (h : preflightStoppable site m l row = true) :
    row.ns = .job ∧ (row.record.phase = .preflight ∨ row.record.phase = .exited) ∧
    row.record.lifecycle ≠ .terminal ∧ keysAre row.record.handles [.preflight] = true ∧ m.observed row.key = false := by
  simp only [preflightStoppable, Bool.and_eq_true, Bool.or_eq_true, decide_eq_true_eq, Bool.not_eq_true'] at h
  tauto

/-- A stopped phase is pending, or has left its phase. -/
theorem pending_of_phase {phase : Phase} (hphase : row.record.phase = phase ∨ row.record.phase = .exited)
    (hpending : (row.record.quotaPending.lookup phase).isSome = true) :
    row.record.phase = .exited ∨ (row.record.quotaPending.lookup row.record.phase).isSome = true := by
  rcases hphase with h | h
  · rw [h]
    exact .inr hpending
  · exact .inl h

theorem completeStoppedPreflight_effects (hget : l.get row.key = some row)
    (h : completeStoppedPreflight site m l row = .ok (some l')) : Effects site m g row.key l l' := by
  simp only [completeStoppedPreflight, bind_ok] at h
  obtain ⟨found, hfound, h⟩ := h
  cases found with
  | none => cases h
  | some proof =>
    simp only [bind_ok, Ledger.update_ok, pure, Except.pure, Except.ok.injEq, Option.some.injEq] at h
    obtain ⟨l1, hrelease, l2, ⟨-, rfl⟩, rfl⟩ := h
    obtain ⟨hable, ⟨pending, hpending, -⟩, -, -, hround⟩ := stoppedPreflight_ok hfound
    obtain ⟨hjob, hphase, -, -, -⟩ := preflightStoppable_facts hable
    have hstopped := pending_of_phase hphase (by rw [hpending]; rfl)
    have hrel : Effect site m g row.key l l1 := .releaseStopped hget hjob hround hstopped hrelease
    obtain ⟨leases, rfl⟩ := releaseStopped_ledger hrelease
    rw [← stoppedPreflight_leases leases] at hfound
    exact (Effects.one hrel).trans (Effects.write _ _ _ hget (.preflightStopped proof hfound _))

theorem phaseStoppable_facts {helperDelivered : Option Bool} {phase : Phase}
    (h : phaseStoppable site m l row helperDelivered phase = true) :
    row.ns = .job ∧ (row.record.phase = phase ∨ row.record.phase = .exited) ∧
    row.record.lifecycle ≠ .terminal ∧ (row.record.quotaPending.lookup phase).isSome = true ∧
    m.observed row.key = false := by
  simp only [phaseStoppable, Bool.and_eq_true, Bool.or_eq_true, decide_eq_true_eq, Bool.not_eq_true'] at h
  tauto

/-- What is known of a stopped phase that is completed. -/
structure PhaseStopped (site : Site) (m : Mem) (l : Ledger) (row : Row) (helperDelivered : Option Bool)
    (phase : Phase) (stopped : Stopped) : Prop where
  stoppable : phaseStoppable site m l row helperDelivered phase = true
  pending : ∃ pending, row.record.quotaPending.lookup phase = some pending ∧ pending.proof = stopped.proof
  kept : row.record.phase ≠ .exited ∨ row.record.exitProof = some stopped.proof
  exit : stoppedExit row phase stopped.proof false = true
  result : stoppedResult row phase stopped.proof stopped.count = some stopped.retained
  quiet : roundOpen l row.id = false

theorem stoppedPhase_ok {helperDelivered : Option Bool} {phase : Phase} {stopped : Stopped}
    (h : stoppedPhase site m l row helperDelivered phase = .ok (some stopped)) :
    PhaseStopped site m l row helperDelivered phase stopped := by
  simp only [stoppedPhase, check_some, bind_ok, exists_unit, require_ok, Bool.and_eq_true, Bool.or_eq_true,
    decide_eq_true_eq] at h
  obtain ⟨⟨hable, -⟩, version, -, -, -, -, pending, hpending, hkept, hexit, history, -, h⟩ := h
  cases history with
  | none => cases h
  | some history =>
    simp only at h
    cases hcount : stoppedCount row phase helperDelivered pending.proof history with
    | none => rw [hcount] at h; cases h
    | some count =>
      rw [hcount] at h
      simp only at h
      cases hresult : stoppedResult row phase pending.proof count with
      | none => rw [hresult] at h; cases h
      | some retained =>
        rw [hresult] at h
        simp only [stoppedStages, bind_ok, exists_unit, check_some] at h
        obtain ⟨-, -, frozen, -, h⟩ := h
        cases frozen with
        | none => cases h
        | some u =>
          simp only [check_some, Except.ok.injEq, Option.some.injEq, Bool.not_eq_true'] at h
          obtain ⟨hround, rfl⟩ := h
          exact ⟨hable, ⟨pending, original_ok hpending, rfl⟩, hkept, hexit, hresult, hround⟩

theorem completeStoppedPhase_effects {helperDelivered : Option Bool} {phase : Phase}
    (hget : l.get row.key = some row)
    (hkind : (helperDelivered, phase) ∈ [(some false, Phase.business), (some true, .business), (none, .evidence)])
    (h : completeStoppedPhase site m l row helperDelivered phase = .ok (some l')) :
    Effects site m g row.key l l' := by
  simp only [completeStoppedPhase, bind_ok] at h
  obtain ⟨found, hfound, h⟩ := h
  cases found with
  | none => cases h
  | some stopped =>
    simp only [bind_ok, Ledger.update_ok, pure, Except.pure, Except.ok.injEq, Option.some.injEq] at h
    obtain ⟨l1, hrelease, l2, ⟨-, rfl⟩, rfl⟩ := h
    have hs := stoppedPhase_ok hfound
    obtain ⟨hjob, hphase, -, hpending, -⟩ := phaseStoppable_facts hs.stoppable
    have hrel : Effect site m g row.key l l1 :=
      .releaseStopped hget hjob hs.quiet (pending_of_phase hphase hpending) hrelease
    obtain ⟨leases, rfl⟩ := releaseStopped_ledger hrelease
    rw [← stoppedPhase_leases leases] at hfound
    exact (Effects.one hrel).trans (Effects.write _ _ _ hget (.phaseStopped helperDelivered phase stopped hkind hfound))

theorem firstDone_ok {completions : List (Except Fault (Option Ledger))}
    (h : firstDone completions = .ok (some l')) : ∃ completion ∈ completions, completion = .ok (some l') := by
  induction completions with
  | nil => cases h
  | cons completion rest ih =>
    simp only [firstDone, bind_ok] at h
    obtain ⟨found, hfound, h⟩ := h
    cases found with
    | some l =>
      simp only [pure, Except.pure, Except.ok.injEq, Option.some.injEq] at h
      exact ⟨completion, List.mem_cons_self, by rw [hfound, h]⟩
    | none =>
      obtain ⟨found, hmem, hok⟩ := ih h
      exact ⟨found, List.mem_cons_of_mem _ hmem, hok⟩

theorem completeStoppedExecution_effects (hget : l.get row.key = some row)
    (h : completeStoppedExecution site m l row = .ok (some l')) : Effects site m g row.key l l' := by
  obtain ⟨completion, hmem, hok⟩ := firstDone_ok h
  simp only [List.mem_cons, List.not_mem_nil, or_false] at hmem
  rcases hmem with rfl | rfl | rfl | rfl
  · exact completeStoppedPreflight_effects hget hok
  · exact completeStoppedPhase_effects hget (by simp) hok
  · exact completeStoppedPhase_effects hget (by simp) hok
  · exact completeStoppedPhase_effects hget (by simp) hok

/-! ## Evidence -/

theorem registerSeal_effects (site : Site) (m : Mem) (g : Grounds) {publication : Seal} (h : registerSeal l publication = .ok l') :
    ∃ row, l.get publication.key = some row ∧ row.record.phase = .exited ∧
      Effects site m g publication.key l l' := by
  unfold registerSeal at h
  cases hget : l.get publication.key with
  | none => rw [hget] at h; cases h
  | some row =>
    rw [hget] at h
    simp only [bind_ok, require_ok, exists_unit, decide_eq_true_eq, Ledger.update_ok] at h
    obtain ⟨-, -, hphase, -, -, -, -, rfl⟩ := h
    have hkey := Ledger.get_key hget
    rw [← hkey] at hget ⊢
    exact ⟨row, rfl, hphase, Effects.write _ _ _ hget (.sealed publication _ hphase)⟩

theorem releaseCompletedEvidence_effects (hget : l.get row.key = some row)
    (h : releaseCompletedEvidence site m l row = .ok (some l')) : Effects site m g row.key l l' := by
  simp only [releaseCompletedEvidence, check_some, bind_ok, exists_unit, require_ok, Ledger.update_ok, pure,
    Except.pure, Except.ok.injEq, Option.some.injEq, Bool.not_eq_true'] at h
  obtain ⟨hable, -, hround, l1, hrelease, l2, ⟨-, rfl⟩, rfl⟩ := h
  simp only [recoveryReleasable, Bool.and_eq_true, decide_eq_true_eq] at hable
  obtain ⟨hjob, hterminal, hphase⟩ : row.ns = .job ∧ row.record.lifecycle = .terminal ∧
      row.record.phase = .exited := by tauto
  have hrel : Effect site m g row.key l l1 := .releaseStopped hget hjob hround (.inl hphase) hrelease
  obtain ⟨leases, rfl⟩ := releaseStopped_ledger hrelease
  exact (Effects.one hrel).trans (Effects.write _ _ _ hget (.resourcesReleased hterminal))

/-- A release that follows the write of a row no longer in a phase. -/
theorem Effects.release_after {kind : Kind} {c : Changes} {proof : Proof} (hget : l.get row.key = some row)
    (hphase : Phase.running (c.phase.getD row.record.phase) = false)
    (h : Broker.release (l.write row.key kind c) row proof = .ok l') :
    Effects site m g row.key (l.write row.key kind c) l' :=
  .one (.release rfl ⟨_, Ledger.get_write_self hget, rfl⟩ ⟨_, Ledger.get_write_self hget, hphase⟩ h)

theorem releaseRecovered_effects {original : Proof} (hget : l.get row.key = some row)
    (hphase : row.record.phase = .exited) (h : releaseRecovered site m l row original = .ok l') :
    Effects site m g row.key l l' := by
  simp only [releaseRecovered, bind_ok] at h
  obtain ⟨found, hfound, h⟩ := h
  cases found with
  | some l1 =>
    simp only [pure, Except.pure, Except.ok.injEq] at h
    subst h
    exact releaseCompletedEvidence_effects hget hfound
  | none => exact .one (.release rfl ⟨row, hget, rfl⟩ ⟨row, hget, by rw [hphase]; rfl⟩ h)

theorem publishRecovered_effects {publication : Seal} {proof : Proof} (hget : l.get row.key = some row)
    (hjob : row.ns = .job) (hexit : proof.exited = true) (hshown : g.exited (row.key.exec .evidence))
    (hable : recoverable row = true) (hseal : publication.key = row.key) (h : publishRecovered site m l row publication proof = .ok l') :
    Effects site m g row.key l l' := by
  simp only [publishRecovered, bind_ok, Ledger.update_ok, Ledger.row_ok] at h
  obtain ⟨l1, ⟨-, rfl⟩, l2, hregister, current, hcurrent, h⟩ := h
  obtain ⟨-, -, -, hregistered⟩ := registerSeal_effects site m g hregister
  rw [hseal] at hregistered
  have hphase : current.record.phase = .exited := by
    simp only [registerSeal, hseal, Ledger.get_write_self hget, bind_ok, require_ok, exists_unit,
      Ledger.update_ok] at hregister
    obtain ⟨-, -, hphase, -, -, -, -, rfl⟩ := hregister
    rw [Ledger.get_write_self (Ledger.get_write_self hget)] at hcurrent
    simp only [Option.some.injEq] at hcurrent
    rw [← hcurrent]
    rfl
  have hkey : current.key = row.key := Ledger.get_key hcurrent
  rw [← hkey] at hcurrent
  have hreleased : Effects site m g current.key l2 l' := releaseRecovered_effects hcurrent hphase h
  rw [hkey] at hreleased
  exact (Effects.write _ _ _ hget (.recovered proof hjob hexit hshown hable)).trans (hregistered.trans hreleased)

theorem recoveryProven_exited {publication : Seal} {proof : Proof} {recovery : EvidenceRecovery} {boot : String}
    (h : recoveryProven site row publication proof recovery boot = true) : proof.exited = true := by
  simp only [recoveryProven, Proof.complete, Proof.certain, Bool.and_eq_true] at h
  tauto

theorem completeRecoveredEvidence_effects {operationId digest : String} {publication : Seal} {proof : Proof}
    (hshown : newSeal l operationId publication = true → g.exited (Key.exec ⟨.job, operationId⟩ .evidence))
    (h : completeRecoveredEvidence site env m l operationId digest publication proof = .ok l') :
    Effects site m g ⟨.job, operationId⟩ l l' := by
  unfold completeRecoveredEvidence at h
  cases hget : l.get ⟨.job, operationId⟩ with
  | none => rw [hget] at h; cases h
  | some row =>
    have hkey := Ledger.get_key hget
    have hself := hget
    rw [← hkey] at hself ⊢
    rw [hget] at h
    simp only [bind_ok, require_ok, exists_unit, decide_eq_true_eq] at h
    obtain ⟨-, h⟩ := h
    split at h
    · next hseals =>
      have hnew : newSeal l operationId publication = true := by
        rw [newSeal, hget, Option.all_some, Bool.not_eq_true', List.any_eq_false]
        exact List.filter_eq_nil_iff.mp hseals
      have hexited := hshown hnew
      rw [← hkey] at hexited
      simp only [recoverEvidence, bind_ok, require_ok, exists_unit, Bool.and_eq_true, decide_eq_true_eq] at h
      obtain ⟨hable, -, clock, -, hproven, ⟨hoperation, hround⟩, h⟩ := h
      obtain ⟨recovery, -, hproven⟩ := (Option.any_eq_true _ _).mp hproven
      have hseal : publication.key = row.key := by
        unfold Seal.key
        rw [Option.isNone_iff_eq_none.mp hround, hoperation, hkey]
        exact congrArg (Key.mk .job) (congrArg Key.id hkey)
      exact publishRecovered_effects hself (congrArg Key.ns hkey) (recoveryProven_exited hproven) hexited hable hseal h
    · simp only [bind_ok, require_ok, exists_unit] at h
      obtain ⟨-, found, hfound, h⟩ := h
      cases found with
      | some l1 =>
        simp only [pure, Except.pure, Except.ok.injEq] at h
        subst h
        exact releaseCompletedEvidence_effects hself hfound
      | none =>
        simp only [pure, Except.pure, Except.ok.injEq] at h
        subst h
        exact .refl

/-! ## Uncertainty and budgets -/

theorem unknown_effects {gap : String} (h : unknown l key gap = .ok l') : Effects site m g key l l' := by
  simp only [unknown, bind_ok, Ledger.row_ok] at h
  obtain ⟨row, hget, h⟩ := h
  have hkey := Ledger.get_key hget
  subst hkey
  split at h
  · simp only [pure, Except.pure, Except.ok.injEq] at h
    subst h
    exact .refl
  · next hopen =>
    simp only [Bool.or_eq_true, decide_eq_true_eq, not_or] at hopen
    obtain ⟨-, rfl⟩ := Ledger.update_ok.mp h
    exact Effects.write _ _ _ hget (.uncertain gap hopen.1)

theorem budgetBlocked_effects {settled : Bool} (h : budgetBlocked m l key = .ok (settled, l')) :
    Effects site m g key l l' := by
  simp only [budgetBlocked, bind_ok, Ledger.row_ok] at h
  obtain ⟨row, hget, h⟩ := h
  have hkey := Ledger.get_key hget
  subst hkey
  split at h
  · simp only [pure, Except.pure, Except.ok.injEq, Prod.mk.injEq] at h
    rw [← h.2]
  · next hopen =>
    split at h
    · simp only [pure, Except.pure, Except.ok.injEq, Prod.mk.injEq] at h
      rw [← h.2]
    · next hactive =>
      cases hby : exhausted row.record with
      | none =>
        rw [hby] at h
        simp only [pure, Except.pure, Except.ok.injEq, Prod.mk.injEq] at h
        rw [← h.2]
      | some by_ =>
        obtain ⟨proof, outcome⟩ := by_
        rw [hby] at h
        simp only [blockExhausted, bind_ok, Ledger.update_ok, pure, Except.pure, Except.ok.injEq,
          Prod.mk.injEq] at h
        obtain ⟨l1, ⟨l2, ⟨-, rfl⟩, hrelease⟩, -, rfl⟩ := h
        generalize hcertain : (decide (outcome ≠ .unknown) && proof.any Proof.certain) = certain at hrelease
        have hwrite := Effects.write site m g hget
          (.exhausted proof outcome _
            ["Operation budget prevents another helper; prior observed business facts retained"] hopen
            (by simpa using hactive) hby hcertain.symm)
        cases certain with
        | true => exact hwrite.trans (Effects.release_after hget rfl hrelease)
        | false =>
          cases hrelease
          exact hwrite

end LocalHand.Broker
