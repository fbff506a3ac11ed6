/-
The writes of the coordinator as sequences of effects: the exit of a phase and
what it leads to, the blocked start of a cancelled row, and a restart.
-/
import LocalHand.Broker.Calls

namespace LocalHand.Broker

variable {site : Site} {env : Env} {m : Mem} {g : Grounds} {l l' : Ledger} {key : Key} {row : Row}

/-- A release on behalf of a row that is not under way. -/
theorem release_effects {proof : Proof} {live : Row} (hget : l.get row.key = some live)
    (hparent : live.parent = row.parent) (hidle : Phase.running live.record.phase = false)
    (h : release l row proof = .ok l') : Effects site m g row.key l l' :=
  .one (.release rfl ⟨live, hget, hparent⟩ ⟨live, hget, hidle⟩ h)

/-! ## Exits -/

theorem recordPending_effects {proof : Proof} (hget : l.get row.key = some row) (hexit : proof.exited = true)
    (hshown : g.shown row) (hopen : row.record.quotaClosed.lookup row.record.phase = none)
    (h : recordPending l row proof = .ok l') : Effects site m g row.key l l' := by
  simp only [recordPending] at h
  split at h
  · next hnone =>
    simp only [bind_ok, exists_unit, Ledger.update_ok] at h
    obtain ⟨-, -, rfl⟩ := h
    exact Effects.write _ _ _ hget (.pending proof _ hexit hshown hnone hopen)
  · simp only [bind_ok, exists_unit, pure, Except.pure, Except.ok.injEq] at h
    obtain ⟨-, -, -, rfl⟩ := h
    exact .refl

theorem completePending_effects {proof : Proof} (hget : l.get row.key = some row) (hexit : proof.exited = true)
    (hshown : g.shown row) (hopen : row.record.quotaClosed.lookup row.record.phase = none)
    (h : completePending site m l row proof = .ok l') : Effects site m g row.key l l' := by
  simp only [completePending, bind_ok, exists_unit, Ledger.row_ok] at h
  obtain ⟨-, l1, hpending, current, hcurrent, found, hfound, h⟩ := h
  have hkey : current.key = row.key := Ledger.get_key hcurrent
  rw [← hkey] at hcurrent
  have hfirst : Effects site m g row.key l l1 := recordPending_effects hget hexit hshown hopen hpending
  cases found with
  | none =>
    simp only [pure, Except.pure, Except.ok.injEq] at h
    rw [← h]
    exact hfirst
  | some l2 =>
    simp only [pure, Except.pure, Except.ok.injEq] at h
    subst h
    have hlast : Effects site m g current.key l1 l2 := completeStoppedExecution_effects hcurrent hfound
    rw [hkey] at hlast
    exact hfirst.trans hlast

/-- A publication of the row is registered with it. -/
theorem published_key {proof : Proof} {publication : Seal} (hjob : row.ns = .job → row.parent = row.id)
    (h : published row proof publication = true) : publication.key = row.key := by
  simp only [published, Bool.and_eq_true, decide_eq_true_eq] at h
  obtain ⟨⟨⟨⟨-, hoperation⟩, hround⟩, -⟩, -⟩ := h
  unfold Seal.key Row.key
  rw [hround]
  cases hns : row.ns with
  | job => rw [hoperation, hjob hns]; rfl
  | reconcile => rfl

/-- Registering a seal changes neither the phase nor the parent of its row. -/
theorem registerSeal_get {publication : Seal} {live : Row} (hkey : publication.key = key)
    (hget : l.get key = some live) (h : registerSeal l publication = .ok l') : ∃ live', l'.get key = some live' ∧
      live'.parent = live.parent ∧ live'.record.phase = live.record.phase := by
  subst hkey
  simp only [registerSeal, hget, bind_ok, require_ok, exists_unit, Ledger.update_ok] at h
  obtain ⟨-, -, -, -, -, -, -, rfl⟩ := h
  exact ⟨_, Ledger.get_write_self hget, rfl, rfl⟩

theorem evidenceUncertain_effects {proof : Proof} (hget : l.get row.key = some row) (hexit : proof.exited = true)
    (hshown : g.shown row) (hphase : row.record.phase = .evidence) (h : evidenceUncertain l row proof = .ok l') :
    Effects site m g row.key l l' := by
  obtain ⟨-, rfl⟩ := Ledger.update_ok.mp h
  exact Effects.write _ _ _ hget (.evidenceUncertain proof _ hexit hshown hphase)

theorem evidencePublished_effects {proof : Proof} {publication : Seal} (hget : l.get row.key = some row)
    (hkey : publication.key = row.key) (hexit : proof.exited = true) (hshown : g.shown row)
    (hphase : row.record.phase = .evidence) (h : evidencePublished l row proof publication = .ok l') :
    Effects site m g row.key l l' := by
  unfold evidencePublished at h
  split at h
  · cases h
  · next outcome hbusiness =>
    simp only [bind_ok, Ledger.update_ok] at h
    obtain ⟨l1, ⟨-, rfl⟩, l2, hregister, h⟩ := h
    have hfirst := Effects.write site m g hget (.evidenceExit proof outcome hexit hshown hphase hbusiness)
    obtain ⟨-, -, -, hregistered⟩ := registerSeal_effects site m g hregister
    obtain ⟨live, hlive, hparent, hidle⟩ := registerSeal_get hkey (Ledger.get_write_self hget) hregister
    rw [hkey] at hregistered
    have hsealed := hfirst.trans hregistered
    split at h
    · split at h
      · exact hsealed.trans (release_effects hlive hparent (by rw [hidle]; rfl) h)
      · simp only [pure, Except.pure, Except.ok.injEq] at h
        rw [← h]
        exact hsealed
    · simp only [pure, Except.pure, Except.ok.injEq] at h
      rw [← h]
      exact hsealed

theorem completeEvidence_effects {proof : Proof} (hget : l.get row.key = some row)
    (hjob : row.ns = .job → row.parent = row.id) (hexit : proof.exited = true) (hshown : g.shown row)
    (hphase : row.record.phase = .evidence) (h : completeEvidence l row proof = .ok l') :
    Effects site m g row.key l l' := by
  unfold completeEvidence at h
  split at h
  · exact evidenceUncertain_effects hget hexit hshown hphase h
  · split at h
    · next hpublished =>
      exact evidencePublished_effects hget (published_key hjob hpublished) hexit hshown hphase h
    · exact evidenceUncertain_effects hget hexit hshown hphase h

theorem completePreflight_effects {proof : Proof} (hget : l.get row.key = some row) (hexit : proof.exited = true)
    (hshown : g.shown row) (hphase : row.record.phase = .preflight) (h : completePreflight l row proof = .ok l') :
    Effects site m g row.key l l' := by
  unfold completePreflight at h
  split at h
  · cases h
  · next facts _ =>
    obtain ⟨-, rfl⟩ := Ledger.update_ok.mp h
    exact Effects.write _ _ _ hget (.preflightDone proof facts hexit hshown hphase)

theorem freezeExit_effects {proof : Proof} {snapshot : String} (hget : l.get row.key = some row)
    (hexit : proof.exited = true) (hshown : g.shown row) (hopen : g.unfinished row) (hphase : row.record.phase ≠ .evidence)
    (hcancel : row.record.cancelRequested = false)
    (h : freezeExit l row (observedExit row.record proof) snapshot = .ok l') : Effects site m g row.key l l' := by
  simp only [freezeExit, bind_ok, Ledger.update_ok] at h
  obtain ⟨l1, ⟨-, rfl⟩, frozen, -, -, rfl⟩ := h
  exact .one (.write hget (.exitFrozen proof frozen hexit hshown hopen hphase hcancel))

theorem completeExit_effects {proof : Proof} (hget : l.get row.key = some row) (hexit : proof.exited = true)
    (hshown : g.shown row) (hopen : g.unfinished row) (hphase : row.record.phase ≠ .evidence)
    (h : completeExit m l row proof = .ok l') : Effects site m g row.key l l' := by
  simp only [completeExit] at h
  split at h
  · next snapshot hsnapshot =>
    have hcancel : row.record.cancelRequested = false := by
      by_contra hne
      rw [if_neg (by simp [hne])] at hsnapshot
      cases hsnapshot
    exact freezeExit_effects hget hexit hshown hopen hphase hcancel h
  · simp only [bind_ok, Ledger.update_ok] at h
    obtain ⟨l1, ⟨-, rfl⟩, h⟩ := h
    have hfirst := Effects.write site m g hget (.exit proof hexit hshown hopen hphase)
    split at h
    · exact hfirst.trans (Effects.release_after hget rfl h)
    · simp only [pure, Except.pure, Except.ok.injEq] at h
      rw [← h]
      exact hfirst

theorem completePhase_effects {proof : Proof} (hget : l.get row.key = some row)
    (hjob : row.ns = .job → row.parent = row.id) (hexit : proof.exited = true) (hshown : g.shown row)
    (hopen : g.unfinished row) (h : completePhase m l row proof = .ok l') : Effects site m g row.key l l' := by
  unfold completePhase at h
  split at h
  · next hphase => exact completeEvidence_effects hget hjob hexit hshown hphase h
  · next hphase =>
    split at h
    · next hpreflight =>
      simp only [Bool.and_eq_true, decide_eq_true_eq] at hpreflight
      exact completePreflight_effects hget hexit hshown hpreflight.1.1.1 h
    · exact completeExit_effects hget hexit hshown hopen hphase h

/-- The exit of a row's execution, shown to the transaction. -/
theorem complete_effects {proof : Proof} (hjob : ∀ row, l.get key = some row → row.ns = .job → row.parent = row.id)
    (hshown : proof.exited = true → ∀ row, l.get key = some row → g.shown row ∧ g.unfinished row)
    (h : complete site m l key proof = .ok l') : Effects site m g key l l' := by
  unfold complete at h
  split at h
  · next hexit =>
    simp only [completeProved, bind_ok, Ledger.row_ok] at h
    obtain ⟨row, hget, version, -, h⟩ := h
    have hkey := Ledger.get_key hget
    have hjob' := hjob row hget
    obtain ⟨hshown', hopen⟩ := hshown hexit row hget
    subst hkey
    split at h
    · split at h
      · next hclosed =>
        exact completePending_effects hget hexit hshown' (Option.isNone_iff_eq_none.mp hclosed) h
      · simp only [bind_ok, exists_unit] at h
        exact completePhase_effects hget hjob' hexit hshown' hopen h.2
    · exact completePhase_effects hget hjob' hexit hshown' hopen h
  · exact unknown_effects h

/-- A closed phase is completed with its own pending exit. -/
theorem resumeClosed_effects {phase : Phase}
    (hjob : ∀ row, l.get key = some row → row.ns = .job → row.parent = row.id)
    (hshown : ∀ row, l.get key = some row → row.record.phase = phase →
      (row.record.quotaPending.lookup phase).isSome = true → g.shown row)
    (h : resumeClosed site m l key phase = .ok (some l')) : Effects site m g key l l' := by
  unfold resumeClosed at h
  split at h
  · cases h
  · next row hget =>
    simp only [check_some, Bool.and_eq_true, decide_eq_true_eq] at h
    obtain ⟨-, ⟨hopen, hphase⟩, h⟩ := h
    split at h
    · simp only [bind_ok, exists_unit] at h
      cases h.2
    · simp only [bind_ok, exists_unit, pure, Except.pure, Except.ok.injEq, Option.some.injEq] at h
      obtain ⟨version, -, -, closed, -, pending, hpending, -, l1, hcomplete, rfl⟩ := h
      have hstored : row.record.quotaPending.lookup phase = some pending := original_ok hpending
      refine complete_effects hjob (fun _ row' hget' => ?_) hcomplete
      rw [hget, Option.some.injEq] at hget'
      subst hget'
      exact ⟨hshown row hget hphase (by rw [hstored]; rfl), fun hterminal => absurd hterminal hopen⟩

/-! ## Single rows of a tick -/

theorem completeStopped_effects (h : completeStopped site m l key = .ok (some l')) : Effects site m g key l l' := by
  simp only [completeStopped, bind_ok, Ledger.row_ok] at h
  obtain ⟨row, hget, h⟩ := h
  have hkey := Ledger.get_key hget
  subst hkey
  exact completeStoppedExecution_effects hget h

theorem recordIdentity_effects {recovery : Recovery} (h : recordIdentity m l key recovery = .ok l') :
    Effects site m g key l l' := by
  simp only [recordIdentity, bind_ok, exists_unit, Ledger.row_ok] at h
  obtain ⟨-, row, hget, h⟩ := h
  have hkey := Ledger.get_key hget
  subst hkey
  split at h
  · cases h
  · next saved hsaved =>
    simp only [bind_ok, exists_unit] at h
    obtain ⟨-, h⟩ := h
    split at h
    · simp only [pure, Except.pure, Except.ok.injEq] at h
      rw [h]
    · obtain ⟨-, rfl⟩ := Ledger.update_ok.mp h
      refine Effects.write _ _ _ hget (.identified _ ?_)
      rw [← AList.mem_keys, ← AList.lookup_isSome, hsaved]
      rfl

/-- The start of a cancelled row is blocked; `stale` is as it was when the tick began. -/
theorem blockStart_effects {stale live : Row} (hget : l.get stale.key = some live)
    (hidle : Phase.running live.record.phase = false) (hopen : g.unfinished live)
    (hstart : startable stale.record = true) (hcancel : stale.record.cancelRequested = true)
    (hparent : live.parent = stale.parent) (h : blockStart l stale = .ok l') : Effects site m g stale.key l l' := by
  have hkey := Ledger.get_key hget
  simp only [blockStart, bind_ok, Ledger.update_ok] at h
  obtain ⟨l1, ⟨-, rfl⟩, h⟩ := h
  have hfirst : Effect site m g stale.key l (l.writes stale.key [((blockedStart stale).1, (blockedStart stale).2.1)]) :=
    .write hget (.startBlocked stale hidle hopen hkey.symm hstart hcancel)
  have hlast : Effects site m g stale.key (l.write stale.key (blockedStart stale).1 (blockedStart stale).2.1) l' := by
    split at h
    · refine release_effects (Ledger.get_write_self hget) hparent ?_ h
      show Phase.running ((blockedStart stale).2.1.phase.getD live.record.phase) = false
      simp only [blockedStart]
      split <;> rfl
    · simp only [pure, Except.pure, Except.ok.injEq] at h
      rw [h]
  exact (Effects.one hfirst).trans hlast

/-! ## A restart -/

theorem barrierRow_effects {entry : Option (Key × Attached)} (hget : l.get row.key = some row)
    (hopen : row.record.lifecycle ≠ .terminal) (hphase : row.record.phase ≠ .queued)
    (h : barrierRow site m l row = .ok (l', entry)) : Effects site m g row.key l l' := by
  simp only [barrierRow, bind_ok, Ledger.update_ok] at h
  obtain ⟨retained, hretained, l1, ⟨-, hl1⟩, h⟩ := h
  have hfirst := Effects.write site m g hget (.barrier retained hopen hphase hretained)
  rw [hl1] at hfirst
  split at h
  · simp only [bind_ok, Ledger.row_ok] at h
    obtain ⟨current, hcurrent, found, hfound, h⟩ := h
    have hkey : current.key = row.key := Ledger.get_key hcurrent
    rw [← hkey] at hcurrent
    cases found with
    | none =>
      simp only [pure, Except.pure, Except.ok.injEq, Prod.mk.injEq] at h
      rw [← h.1]
      exact hfirst
    | some l2 =>
      simp only [pure, Except.pure, Except.ok.injEq, Prod.mk.injEq] at h
      have hlast : Effects site m g current.key l1 l2 := completeStoppedExecution_effects hcurrent hfound
      rw [hkey] at hlast
      rw [← h.1]
      exact hfirst.trans hlast
  · simp only [pure, Except.pure, Except.ok.injEq, Prod.mk.injEq] at h
    rw [← h.1]
    exact hfirst
  · simp only [bind_ok, exists_unit, pure, Except.pure, Except.ok.injEq, Prod.mk.injEq] at h
    rw [← h.2.1]
    exact hfirst

theorem recoverRow_effects {entry : Option (Key × Attached)} (h : recoverRow site m l key = .ok (l', entry)) :
    Effects site m g key l l' := by
  simp only [recoverRow, bind_ok, Ledger.row_ok] at h
  obtain ⟨row, hget, stopped, hstopped, h⟩ := h
  have hkey := Ledger.get_key hget
  subst hkey
  cases stopped with
  | some l1 =>
    simp only [pure, Except.pure, Except.ok.injEq, Prod.mk.injEq] at h
    rw [← h.1]
    exact completeStoppedExecution_effects hget hstopped
  | none =>
    simp only [bind_ok] at h
    obtain ⟨released, hreleased, h⟩ := h
    cases released with
    | some l1 =>
      simp only [pure, Except.pure, Except.ok.injEq, Prod.mk.injEq] at h
      rw [← h.1]
      exact releaseCompletedEvidence_effects hget hreleased
    | none =>
      simp only at h
      split at h
      · simp only [pure, Except.pure, Except.ok.injEq, Prod.mk.injEq] at h
        rw [h.1]
      · next hopen =>
        simp only [Bool.or_eq_true, decide_eq_true_eq, not_or] at hopen
        exact barrierRow_effects hget hopen.1 hopen.2 h

theorem recoverRows_moves {keys : List Key} {entries : List (Key × Attached)}
    (h : recoverRows site m l keys = .ok (l', entries)) : Moves site m g l l' := by
  induction keys generalizing l entries with
  | nil =>
    simp only [recoverRows, Except.ok.injEq, Prod.mk.injEq] at h
    rw [h.1]
  | cons key rest ih =>
    simp only [recoverRows, bind_ok, pure, Except.pure, Except.ok.injEq, Prod.mk.injEq] at h
    obtain ⟨⟨l1, entry⟩, hrow, ⟨l2, others⟩, hrest, rfl, -⟩ := h
    exact (recoverRow_effects hrow).moves.trans (ih hrest)

end LocalHand.Broker
