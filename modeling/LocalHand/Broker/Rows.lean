/-
What every row holds, whatever was done to it: which executions its handles
name, which of them are known to have exited, and in which order its stages
were delivered.
-/
import LocalHand.Broker.Exits

namespace LocalHand.Broker

/-- No execution of the row starts in this phase any more. -/
def Phase.over (phase : Phase) : Bool :=
  phase = .exited || phase = .cancelledBeforeStart || phase = .cancelledBeforeBusiness

/-- Deliveries committed one after another, each as `_guard_start` admits it. -/
inductive Staged : List DeliveryId → Prop where
  | nil : Staged []
  | snoc {ds : List DeliveryId} (d : DeliveryId) (hds : Staged ds)
      (hfresh : undelivered ds d.exec d.stage = true)
      (hhelper : d.stage = some .helper → ⟨d.exec, some .bootstrap⟩ ∈ ds)
      (hreader : d.stage = some .resultReader →
        ⟨d.exec, some .bootstrap⟩ ∈ ds ∧ ⟨d.exec, some .helper⟩ ∈ ds) : Staged (ds ++ [d])

/-- Every execution the row has a handle for has exited. -/
def AllExited (exited : ExecId → Prop) (row : Row) : Prop :=
  ∀ phase ∈ row.record.handles.keys, exited (row.key.exec phase)

/-- What a row keeps to. -/
structure RowSound (exited : ExecId → Prop) (row : Row) : Prop where
  phases : ∀ phase ∈ row.record.handles.keys, Phase.running phase = true
  earlier : ∀ phase ∈ row.record.handles.keys, phase = row.record.phase ∨ exited (row.key.exec phase)
  finished : row.record.lifecycle = .terminal → AllExited exited row ∧ Phase.over row.record.phase = true
  proved : exitedProof row.record.exitProof = true → AllExited exited row
  waiting : row.record.lifecycle = .accepted → Phase.running row.record.phase = false
  current : Phase.running row.record.phase = true → row.record.phase ∈ row.record.handles.keys
  pending : ∀ phase, (row.record.quotaPending.lookup phase).isSome = true → Phase.running phase = true →
    phase ∈ row.record.handles.keys ∧ exited (row.key.exec phase)
  awaiting : row.record.phase ∈ row.record.handles.keys → exitedProof row.record.exitProof = true →
    (row.record.quotaPending.lookup row.record.phase).isSome = true
  delivered : ∀ d ∈ row.record.deliveryIntents, ∃ phase ∈ row.record.handles.keys, d.exec = row.key.exec phase
  staged : Staged row.record.deliveryIntents

section

variable {site : Site} {m : Mem} {g : Grounds} {l l' : Ledger} {key : Key} {row : Row} {exited : ExecId → Prop}
  {r : Record}

namespace RowSound

theorem idle (h : RowSound exited row) (hidle : Phase.running row.record.phase = false) :
    row.record.phase ∉ row.record.handles.keys := by
  intro hmem
  rw [h.phases _ hmem] at hidle
  cases hidle

/-- Outside a phase, all that was started has exited. -/
theorem of_idle (h : RowSound exited row) (hidle : Phase.running row.record.phase = false) : AllExited exited row := by
  intro phase hphase
  rcases h.earlier phase hphase with heq | hexited
  · rw [heq] at hphase
    exact absurd hphase (h.idle hidle)
  · exact hexited

/-- With the current execution's exit, all that was started has exited. -/
theorem of_shown (h : RowSound exited row)
    (hshown : row.record.phase ∈ row.record.handles.keys → exited (row.key.exec row.record.phase)) :
    AllExited exited row := by
  intro phase hphase
  rcases h.earlier phase hphase with heq | hexited
  · rw [heq] at hphase ⊢
    exact hshown hphase
  · exact hexited

/-- A pending exit shows its phase's execution to have exited. -/
theorem of_pending (h : RowSound exited row) {phase : Phase}
    (hphase : row.record.phase = phase ∨ row.record.phase = .exited)
    (hpending : (row.record.quotaPending.lookup phase).isSome = true) : AllExited exited row := by
  refine h.of_shown fun hmem => ?_
  rcases hphase with heq | hexited
  · exact (h.pending _ (heq ▸ hpending) (h.phases _ hmem)).2
  · rw [hexited] at hmem
    cases h.phases _ hmem

/-- A write that leaves the row in no phase, once all its executions have exited. -/
theorem settled (h : RowSound exited row) (hall : AllExited exited row) (hhandles : r.handles = row.record.handles)
    (hdelivered : r.deliveryIntents = row.record.deliveryIntents) (hpending : r.quotaPending = row.record.quotaPending)
    (hphase : Phase.running r.phase = false) (hover : r.lifecycle = .terminal → Phase.over r.phase = true) :
    RowSound exited { row with record := r } where
  phases phase hmem := h.phases phase (hhandles ▸ hmem)
  earlier phase hmem := .inr (hall phase (hhandles ▸ hmem))
  finished hterminal := ⟨fun phase hmem => hall phase (hhandles ▸ hmem), hover hterminal⟩
  proved _ phase hmem := hall phase (hhandles ▸ hmem)
  waiting _ := hphase
  current hrunning := by
    rw [show Phase.running r.phase = true from hrunning] at hphase
    cases hphase
  pending phase hsome hrunning := by
    obtain ⟨hmem, hexited⟩ := h.pending phase (hpending ▸ hsome) hrunning
    exact ⟨hhandles.symm ▸ hmem, hexited⟩
  awaiting hmem _ := by
    have hrunning := h.phases r.phase (hhandles ▸ hmem)
    rw [hphase] at hrunning
    cases hrunning
  delivered d hd := by
    obtain ⟨phase, hmem, hexec⟩ := h.delivered d (hdelivered ▸ hd)
    exact ⟨phase, hhandles.symm ▸ hmem, hexec⟩
  staged := hdelivered.symm ▸ h.staged

/-- A write that changes neither the phase, its proof, nor what was started. -/
theorem kept (h : RowSound exited row) (hhandles : ∀ phase, phase ∈ r.handles.keys ↔ phase ∈ row.record.handles.keys)
    (hdelivered : r.deliveryIntents = row.record.deliveryIntents) (hpending : r.quotaPending = row.record.quotaPending)
    (hphase : r.phase = row.record.phase)
    (hproof : exitedProof r.exitProof = true → exitedProof row.record.exitProof = true ∨
      (row.record.quotaPending.lookup row.record.phase).isSome = true)
    (hlife : r.lifecycle = row.record.lifecycle ∨ r.lifecycle = .reconcileRequired) : RowSound exited { row with record := r } where
  phases phase hmem := h.phases phase ((hhandles phase).mp hmem)
  earlier phase hmem := by
    show phase = r.phase ∨ _
    rw [hphase]
    exact h.earlier phase ((hhandles phase).mp hmem)
  finished hterminal := by
    have hterminal : r.lifecycle = .terminal := hterminal
    have hsame : row.record.lifecycle = .terminal := by
      rcases hlife with heq | hrequired
      · rw [← heq, hterminal]
      · rw [hterminal] at hrequired
        cases hrequired
    obtain ⟨hall, hover⟩ := h.finished hsame
    refine ⟨fun phase hmem => hall phase ((hhandles phase).mp hmem), ?_⟩
    show Phase.over r.phase = true
    rw [hphase]
    exact hover
  proved hproved phase hmem := by
    rcases hproof hproved with hproved | hsome
    · exact h.proved hproved phase ((hhandles phase).mp hmem)
    · exact h.of_pending (.inl rfl) hsome phase ((hhandles phase).mp hmem)
  waiting haccepted := by
    have haccepted : r.lifecycle = .accepted := haccepted
    show Phase.running r.phase = false
    rw [hphase]
    rcases hlife with heq | hrequired
    · exact h.waiting (heq ▸ haccepted)
    · rw [haccepted] at hrequired
      cases hrequired
  current hrunning := by
    have hrunning : Phase.running r.phase = true := hrunning
    show r.phase ∈ r.handles.keys
    rw [hhandles, hphase]
    exact h.current (hphase ▸ hrunning)
  pending phase hsome hrunning := by
    obtain ⟨hmem, hexited⟩ := h.pending phase (hpending ▸ hsome) hrunning
    exact ⟨(hhandles phase).mpr hmem, hexited⟩
  awaiting hmem hproved := by
    have hmem : r.phase ∈ r.handles.keys := hmem
    show (r.quotaPending.lookup r.phase).isSome = true
    rw [hhandles, hphase] at hmem
    rw [hpending, hphase]
    exact (hproof hproved).elim (h.awaiting hmem) id
  delivered d hd := by
    obtain ⟨phase, hmem, hexec⟩ := h.delivered d (hdelivered ▸ hd)
    exact ⟨phase, (hhandles phase).mpr hmem, hexec⟩
  staged := hdelivered.symm ▸ h.staged

end RowSound

theorem exhausted_idle {by_ : Option Proof × Outcome} (h : exhausted row.record = some by_) :
    Phase.running row.record.phase = false := by
  unfold exhausted at h
  split at h
  · next hphase => rw [hphase]; rfl
  · split at h
    · next hphase =>
      simp only [Bool.and_eq_true, decide_eq_true_eq] at hphase
      rw [hphase.1]
      rfl
    · split at h
      · next hphase => rw [hphase]; rfl
      · cases h

/-- An exit retained over a restart is pending in its phase. -/
theorem retainedExit_pending {proof : Proof} (h : retainedExit m l row = .ok (some proof)) :
    (row.record.quotaPending.lookup row.record.phase).isSome = true := by
  unfold retainedExit at h
  split at h
  · cases h
  · simp only [bind_ok] at h
    obtain ⟨pending, -, h⟩ := h
    split at h
    · simp only [bind_ok, exists_unit] at h
      obtain ⟨-, saved, hsaved, -⟩ := h
      rw [show row.record.quotaPending.lookup row.record.phase = some saved from original_ok hsaved]
      rfl
    · cases h

theorem mem_keys_insert {α : Type} {members : PerPhase α} {phase phase' : Phase} {a : α} :
    phase' ∈ (members.insert phase a).keys ↔ phase' = phase ∨ phase' ∈ members.keys := by
  rw [← AList.mem_keys, AList.mem_insert, AList.mem_keys]

/-- A handle that takes the place of another leaves the phases of the handles as they are. -/
theorem mem_keys_replace {α : Type} {members : PerPhase α} {phase : Phase} {a : α} (h : phase ∈ members.keys)
    (phase' : Phase) : phase' ∈ (members.insert phase a).keys ↔ phase' ∈ members.keys := by
  rw [mem_keys_insert]
  exact ⟨fun hmem => hmem.elim (fun heq => heq.symm ▸ h) id, .inr⟩

/-- What finishes a stopped phase: the members no stopped phase changes are left alone. -/
theorem stoppedEvent_changes (row : Row) (helperDelivered : Option Bool) (phase : Phase) (stopped : Stopped) :
    let c := (stoppedEvent row helperDelivered phase stopped).2
    c.phase = some .exited ∧ c.lifecycle = some .terminal ∧ c.handles = none ∧ c.deliveryIntents = none ∧
      c.quotaPending = none ∧ c.cancelRequested = none ∧ c.generation = none := by
  simp only [stoppedEvent]
  split
  · exact ⟨rfl, rfl, rfl, rfl, rfl, rfl, rfl⟩
  · split
    · split
      · exact ⟨rfl, rfl, rfl, rfl, rfl, rfl, rfl⟩
      · exact ⟨rfl, rfl, rfl, rfl, rfl, rfl, rfl⟩
    · exact ⟨rfl, rfl, rfl, rfl, rfl, rfl, rfl⟩

/-- The same of a blocked start. -/
theorem blockedStart_changes (stale : Row) :
    let c := (blockedStart stale).2.1
    (∃ phase, c.phase = some phase ∧ Phase.running phase = false ∧ Phase.over phase = true) ∧ c.handles = none ∧
      c.deliveryIntents = none ∧ c.quotaPending = none ∧ c.cancelRequested = none ∧ c.generation = none := by
  simp only [blockedStart]
  split
  · exact ⟨⟨_, rfl, rfl, rfl⟩, rfl, rfl, rfl, rfl, rfl⟩
  · exact ⟨⟨_, rfl, rfl, rfl⟩, rfl, rfl, rfl, rfl, rfl⟩

/-- What a delivery leaves of the record, besides its intent and an observation. -/
theorem Observes.applied {stage : Option Stage} {before : List (Kind × Changes)} (h : Observes row stage before) (ds : List DeliveryId) (seq : Nat) :
    ∃ seq' observed, row.record.applyAll (before ++ [(.managerDeliveryIntent, { deliveryIntents := some ds })]) seq =
      { row.record with eventSeq := seq', quotaObserved := observed, deliveryIntents := ds } := by
  cases h with
  | nothing => exact ⟨_, _, rfl⟩
  | bootstrap => exact ⟨_, _, rfl⟩
  | helper => exact ⟨_, _, rfl⟩
  | quota observation hstage => exact ⟨_, _, rfl⟩

namespace RowSound

theorem addPending (h : RowSound exited row) (hall : AllExited exited row) (proof : Proof) (gaps : List String)
    (seq : Nat) : RowSound exited { row with record := row.record.apply (pendingChanges row proof gaps) seq } where
  phases := h.phases
  earlier := h.earlier
  finished := h.finished
  proved _ := hall
  waiting := h.waiting
  current := h.current
  pending phase hsome hrunning := by
    have hsome : ((row.record.quotaPending.insert row.record.phase ⟨row.record.phase, proof⟩).lookup phase).isSome = true :=
      hsome
    rw [AList.lookup_isSome, AList.mem_insert] at hsome
    rcases hsome with heq | hold
    · subst heq
      exact ⟨h.current hrunning, hall _ (h.current hrunning)⟩
    · exact h.pending phase (AList.lookup_isSome.mpr hold) hrunning
  awaiting _ _ := by
    show ((row.record.quotaPending.insert row.record.phase ⟨row.record.phase, proof⟩).lookup row.record.phase).isSome = true
    rw [AList.lookup_insert]
    rfl
  delivered := h.delivered
  staged := h.staged

theorem addIntent (h : RowSound exited row) {phase : Phase} (hready : Ready site g l row phase)
    {state : Budget.State} {allocated : Bool} {seq : Nat} :
    RowSound exited { row with record := row.record.apply (intentChanges m row phase state allocated) seq } where
  phases phase' hmem := by
    rcases mem_keys_insert.mp hmem with heq | hold
    · rw [heq]
      exact hready.running
    · exact h.phases phase' hold
  earlier phase' hmem := by
    rcases mem_keys_insert.mp hmem with heq | hold
    · exact .inl heq
    · exact .inr (h.of_idle hready.idle phase' hold)
  finished hterminal := by cases hterminal
  proved hproved := by cases hproved
  waiting haccepted := by cases haccepted
  current _ := mem_keys_insert.mpr (.inl rfl)
  pending phase' hsome hrunning := by
    obtain ⟨hmem, hexited⟩ := h.pending phase' hsome hrunning
    exact ⟨mem_keys_insert.mpr (.inr hmem), hexited⟩
  awaiting _ hproved := by cases hproved
  delivered d hd := by
    obtain ⟨phase', hmem, hexec⟩ := h.delivered d hd
    exact ⟨phase', mem_keys_insert.mpr (.inr hmem), hexec⟩
  staged := h.staged

theorem addDelivery (h : RowSound exited row) {d : DeliveryId} (hable : Deliverable m l row d) {seq : Nat}
    {observed : AList fun _ : Phase => Observed} :
    RowSound exited { row with
      record.eventSeq := seq
      record.quotaObserved := observed
      record.deliveryIntents := row.record.deliveryIntents ++ [d] } where
  phases := h.phases
  earlier := h.earlier
  finished := h.finished
  proved := h.proved
  waiting := h.waiting
  current := h.current
  pending := h.pending
  awaiting := h.awaiting
  delivered d' hd' := by
    rcases List.mem_append.mp hd' with hold | hnew
    · exact h.delivered d' hold
    · rw [List.mem_singleton.mp hnew]
      exact ⟨_, hable.handle, hable.exec⟩
  staged := .snoc d h.staged hable.fresh hable.helper hable.reader

end RowSound

/-- Every write keeps the row sound. -/
theorem RowSound.write {es : List (Kind × Changes)} (h : RowSound g.exited row) (hwrite : Write site m g l row es)
    (seq : Nat) : RowSound g.exited { row with record := row.record.applyAll es seq } := by
  cases hwrite with
  | cancelled _ _ _ => exact h.kept (fun _ => Iff.rfl) rfl rfl rfl .inl (.inl rfl)
  | revoked _ _ => exact h.kept (fun _ => Iff.rfl) rfl rfl rfl .inl (.inl rfl)
  | cancelledQueued _ _ hphase =>
    exact h.settled (h.of_idle (by rw [hphase]; rfl)) rfl rfl rfl rfl fun _ => rfl
  | uncertain gap hopen => exact h.kept (fun _ => Iff.rfl) rfl rfl rfl .inl (.inr rfl)
  | exhausted proof outcome certain gaps hopen hactive hby hcertain =>
    exact h.settled (h.of_idle (exhausted_idle hby)) rfl rfl rfl rfl fun _ => rfl
  | pending proof gaps hexit hshown hnone hopen => exact h.addPending (h.of_shown hshown) proof gaps seq
  | evidenceUncertain proof gaps hexit hshown hphase =>
    exact h.settled (h.of_shown hshown) rfl rfl rfl rfl fun _ => rfl
  | evidenceExit proof outcome hexit hshown hphase hbusiness =>
    exact h.settled (h.of_shown hshown) rfl rfl rfl rfl fun _ => rfl
  | sealed publication gaps hphase => exact h.kept (fun _ => Iff.rfl) rfl rfl rfl .inl (.inl rfl)
  | preflightDone proof facts hexit hshown hphase =>
    refine h.settled (h.of_shown hshown) rfl rfl rfl ?_ ?_
    · show Phase.running (if row.record.recovered = true then .exited else .preflightComplete) = false
      split <;> rfl
    · intro hterminal
      have hlife : (if row.record.recovered = true then Lifecycle.reconcileRequired else .running) = .terminal := hterminal
      split at hlife <;> cases hlife
  | exit proof hexit hshown hopen hphase => exact h.settled (h.of_shown hshown) rfl rfl rfl rfl fun _ => rfl
  | exitFrozen proof frozen hexit hshown hopen hphase hcancel =>
    exact h.settled (h.of_shown hshown) rfl rfl rfl rfl fun hterminal => by cases hterminal
  | intent phase state allocated hready => exact h.addIntent hready
  | enqueued phase handle hphase => exact h.kept (mem_keys_replace hphase) rfl rfl rfl .inl (.inl rfl)
  | identified handle hphase => exact h.kept (mem_keys_replace hphase) rfl rfl rfl .inl (.inl rfl)
  | rootsReserved grants => exact h.kept (fun _ => Iff.rfl) rfl rfl rfl .inl (.inl rfl)
  | prepared phase state grant allocation hcancel hhandle hnone => exact h.kept (fun _ => Iff.rfl) rfl rfl rfl .inl (.inl rfl)
  | observationBound phase grant hhandle hnone => exact h.kept (fun _ => Iff.rfl) rfl rfl rfl .inl (.inl rfl)
  | closed phase fence gaps hphase hnone hsession hpending => exact h.kept (fun _ => Iff.rfl) rfl rfl rfl .inl (.inl rfl)
  | delivered d before hmay hable hbefore =>
    obtain ⟨seq', observed, hrecord⟩ := hbefore.applied (row.record.deliveryIntents ++ [d]) seq
    rw [hrecord]
    exact h.addDelivery hable
  | preflightStopped proof hstopped gaps =>
    obtain ⟨hable, ⟨pending, hpending, -⟩, -, -, -⟩ := stoppedPreflight_ok hstopped
    have hall := h.of_pending (preflightStoppable_facts hable).2.1 (by rw [hpending]; rfl)
    exact h.settled hall rfl rfl rfl rfl fun _ => rfl
  | phaseStopped helperDelivered phase stopped hkind hstopped =>
    obtain ⟨-, hphase, -, hpending, -⟩ := phaseStoppable_facts (stoppedPhase_ok hstopped).stoppable
    obtain ⟨hexited, -, hhandles, hdelivered, hquota, -, -⟩ := stoppedEvent_changes row helperDelivered phase stopped
    refine h.settled (h.of_pending hphase hpending) ?_ ?_ ?_ ?_ ?_
    · simp only [Record.applyAll, Record.apply, hhandles, Option.getD_none]
    · simp only [Record.applyAll, Record.apply, hdelivered, Option.getD_none]
    · simp only [Record.applyAll, Record.apply, hquota, Option.getD_none]
    · simp only [Record.applyAll, Record.apply, hexited, Option.getD_some]
      rfl
    · intro _
      simp only [Record.applyAll, Record.apply, hexited, Option.getD_some]
      rfl
  | barrier retained hopen hphase hretained =>
    refine h.kept (fun _ => Iff.rfl) rfl rfl rfl (fun hproved => ?_) (.inr rfl)
    have hproof : exitedProof ((if Phase.running row.record.phase then some retained else none).getD
      row.record.exitProof) = true := hproved
    split at hproof
    · cases retained with
      | none => cases hproof
      | some proof => exact .inr (retainedExit_pending hretained)
    · exact .inl hproof
  | startBlocked stale hidle hopen hkey hstart hcancel =>
    obtain ⟨⟨phase, hphase, hrunning, hover⟩, hhandles, hdelivered, hquota, -, -⟩ := blockedStart_changes stale
    refine h.settled (h.of_idle hidle) ?_ ?_ ?_ ?_ ?_
    · simp only [Record.applyAll, Record.apply, hhandles, Option.getD_none]
    · simp only [Record.applyAll, Record.apply, hdelivered, Option.getD_none]
    · simp only [Record.applyAll, Record.apply, hquota, Option.getD_none]
    · simp only [Record.applyAll, Record.apply, hphase, Option.getD_some]
      exact hrunning
    · intro _
      simp only [Record.applyAll, Record.apply, hphase, Option.getD_some]
      exact hover
  | recovered proof hjob hexit hshown hable =>
    have hall : AllExited g.exited row := by
      refine h.of_shown fun hmem => ?_
      simp only [recoverable, Bool.and_eq_true, Bool.or_eq_true, decide_eq_true_eq] at hable
      rcases hable.1.1.1.1.1.1.1.1.1.1 with hevidence | hexited
      · rw [hevidence]
        exact hshown
      · rw [hexited] at hmem
        cases h.phases _ hmem
    exact h.settled hall rfl rfl rfl rfl fun _ => rfl
  | resourcesReleased hopen => exact h.kept (fun _ => Iff.rfl) rfl rfl rfl .inl (.inl rfl)

end

end LocalHand.Broker
