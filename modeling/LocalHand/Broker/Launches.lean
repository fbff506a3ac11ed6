/-
Which launches a run can invoke. The intents of a row, the table of owners of
the process and the fence together let each stage of an execution through once
and in order, over crashes and restarts, and none after the row was withdrawn.
-/
import LocalHand.Broker.Reached
import Mathlib.Data.List.Induction

namespace LocalHand.Broker

/-! ## What the coordinator leaves alone -/

/-- Launches, owners and what has exited are as they were. -/
structure Kept (s s' : Sys) : Prop where
  launches : s'.launches = s.launches
  launching : s'.launching = s.launching
  owners : s'.mem.owners = s.mem.owners
  exited : s'.exited = s.exited

/-- The coordinator has committed an intent of the row, and owns its execution. -/
structure Owns (site : Site) (answers : Answers) (s : Sys) (row : Row) (s' : Sys) : Prop where
  launches : s'.launches = s.launches
  launching : s'.launching = s.launching
  owners : s'.mem.owners = s.mem.owners.insert (row.key.exec (nextPhase row)) row.key
  exited : s'.exited = s.exited
  begun : ∃ allocated, Broker.begin site answers.env s.mem s.ledger row.key (nextPhase row) =
    .ok (.intended s'.ledger allocated)
  enqueues : ∃ allocated rest, s'.coord = .row (.enqueue (nextPhase row) allocated) row rest

section

variable {site : Site} {s : Sys} {answers : Answers} {row : Row} {rest : List Row}

theorem Kept.refl (s : Sys) : Kept s s := ⟨rfl, rfl, rfl, rfl⟩

theorem Kept.trans {s' s'' : Sys} (h : Kept s s') (h' : Kept s' s'') : Kept s s'' :=
  ⟨h'.launches.trans h.launches, h'.launching.trans h.launching, h'.owners.trans h.owners, h'.exited.trans h.exited⟩

theorem Kept.when {p : Prop} [Decidable p] {s' : Sys} (h : Kept s s') : Kept s (if p then s' else s) := by
  split
  · exact h
  · exact .refl s

theorem retryRecovery_owners {m : Mem} {key : Key} {pending : Recovering} {force : Bool} :
    (retryRecovery m key pending answers force).1.owners = m.owners := by
  unfold retryRecovery
  split
  · rfl
  · split <;> rfl

theorem observed_kept {attached : Attached} {proof : Proof} : Kept s (s.observed row rest attached proof) := by
  unfold Sys.observed
  repeat' split
  all_goals exact ⟨rfl, rfl, rfl, rfl⟩

theorem prove_kept {exec : ExecId} {proof : Proof} : Kept s (s.prove exec proof) := by
  unfold Sys.prove
  split <;> exact ⟨rfl, rfl, rfl, rfl⟩

theorem keep_kept {key : Key} {popped : Option Attached} : Kept s (s.keep key popped) := by
  cases popped <;> exact ⟨rfl, rfl, rfl, rfl⟩

theorem attach_kept : Kept s (s.attach answers row rest) := by
  unfold Sys.attach
  split
  · exact ⟨rfl, rfl, retryRecovery_owners, rfl⟩
  · exact ⟨rfl, rfl, rfl, rfl⟩

theorem observe_kept : Kept s (s.observe answers row rest) := by
  unfold Sys.observe
  split
  · exact ⟨rfl, rfl, rfl, rfl⟩
  · next attached _ =>
    split
    · next proof _ _ =>
      have hproved : Kept s (s.prove attached.exec proof) := prove_kept
      split
      · exact ⟨hproved.launches, hproved.launching, hproved.owners, hproved.exited⟩
      · exact hproved.trans observed_kept
    · exact ⟨rfl, rfl, rfl, rfl⟩

theorem identity_kept {attached : Attached} {proof : Proof} : Kept s (s.identity answers row rest attached proof) := by
  unfold Sys.identity
  split
  · exact observed_kept
  · split
    · next l _ =>
      have hwritten : Kept s { s with ledger := l } := ⟨rfl, rfl, rfl, rfl⟩
      exact hwritten.trans observed_kept
    · exact ⟨rfl, rfl, rfl, rfl⟩
    · exact ⟨rfl, rfl, rfl, rfl⟩

theorem completing_kept {proof : Proof} {popped : Option Attached} :
    Kept s (s.completing site answers row rest proof popped) := by
  have hkeep : Kept s (s.keep row.key popped) := keep_kept
  unfold Sys.completing
  split
  · exact ⟨rfl, rfl, rfl, rfl⟩
  · exact ⟨hkeep.launches, hkeep.launching, hkeep.owners, hkeep.exited⟩
  · exact ⟨hkeep.launches, hkeep.launching, hkeep.owners, hkeep.exited⟩

theorem begin_kept : Kept s (s.begin site answers row rest) ∨ Owns site answers s row (s.begin site answers row rest) := by
  unfold Sys.begin
  split
  · exact .inl ⟨rfl, rfl, rfl, rfl⟩
  · exact .inl ⟨rfl, rfl, rfl, rfl⟩
  · next l allocated hbegin => exact .inr ⟨rfl, rfl, rfl, rfl, ⟨allocated, tx_ok hbegin⟩, allocated, rest, rfl⟩
  · exact .inl ⟨rfl, rfl, rfl, rfl⟩
  · exact .inl ⟨rfl, rfl, rfl, rfl⟩
  · exact .inl ⟨rfl, rfl, rfl, rfl⟩

theorem decide_kept : Kept s (s.decide site answers row rest) ∨ Owns site answers s row (s.decide site answers row rest) := by
  unfold Sys.decide
  split
  · exact .inl ⟨rfl, rfl, rfl, rfl⟩
  · split
    · split <;> exact .inl ⟨rfl, rfl, rfl, rfl⟩
    · split
      · exact .inl ⟨rfl, rfl, rfl, rfl⟩
      · split
        · exact begin_kept
        · exact .inl (.refl s)

theorem turn_kept (site : Site) (s : Sys) (answers : Answers) (row : Row) (rest : List Row) (turn : Turn) : Kept s (s.turn site answers row rest turn) ∨
    turn = .decide ∧ Owns site answers s row (s.turn site answers row rest turn) := by
  cases turn with
  | resume =>
    refine .inl (.when ?_)
    unfold Sys.resume
    repeat' split
    all_goals exact ⟨rfl, rfl, rfl, rfl⟩
  | stopped =>
    refine .inl (.when ?_)
    unfold Sys.stopped
    repeat' split
    all_goals exact ⟨rfl, rfl, rfl, rfl⟩
  | attach => exact .inl attach_kept
  | observe => exact .inl observe_kept
  | identity attached proof => exact .inl identity_kept
  | completing proof popped => exact .inl completing_kept
  | unknown gap =>
    refine .inl (show Kept s (s.unknown answers row rest gap) from ?_)
    unfold Sys.unknown
    split <;> exact ⟨rfl, rfl, rfl, rfl⟩
  | decide => exact decide_kept.imp_right fun h => ⟨rfl, h⟩
  | blocked =>
    refine .inl (.when ?_)
    unfold Sys.blocked
    split <;> exact ⟨rfl, rfl, rfl, rfl⟩
  | enqueue phase allocated =>
    refine .inl (show Kept s (s.enqueue answers row rest phase allocated) from ?_)
    unfold Sys.enqueue
    split <;> exact ⟨rfl, rfl, rfl, rfl⟩
  | acknowledge phase handle allocated =>
    refine .inl (show Kept s (s.acknowledge answers row rest phase handle allocated) from ?_)
    unfold Sys.acknowledge
    split <;> exact ⟨rfl, rfl, rfl, rfl⟩

/-- The coordinator invokes no launch; it comes to own what it has just intended. -/
theorem advance_kept (site : Site) (s : Sys) (answers : Answers) : Kept s (s.advance site answers) ∨
    ∃ row rest, s.coord = .row .decide row rest ∧ Owns site answers s row (s.advance site answers) := by
  unfold Sys.advance
  split
  · exact .inl ⟨rfl, rfl, rfl, rfl⟩
  · exact .inl ⟨rfl, rfl, rfl, rfl⟩
  · refine .inl (.when ?_)
    unfold Sys.resuming
    repeat' split
    all_goals exact ⟨rfl, rfl, rfl, rfl⟩
  · refine .inl (.when ?_)
    unfold Sys.barrier
    split <;> exact ⟨rfl, rfl, rfl, rfl⟩
  · exact .inl ⟨rfl, rfl, rfl, rfl⟩
  · exact .inl ⟨rfl, rfl, retryRecovery_owners, rfl⟩
  · next turn row rest hcoord =>
    rcases turn_kept site s answers row rest turn with
      hkept | ⟨rfl, howns⟩
    · exact .inl hkept
    · exact .inr ⟨row, rest, hcoord, howns⟩
  · exact .inl (.refl s)

end

/-! ## The launches a run can invoke -/

/-- The launches invoked, and the one whose intent is committed. -/
def Sys.history (s : Sys) : List DeliveryId := s.launches ++ s.launching.toList.map Launching.delivery

/-- The row of the delivery has recorded it and has not been withdrawn. -/
def Authorized (l : Ledger) (x : Launching) : Prop :=
  ∃ row, l.get x.key = some row ∧ x.delivery ∈ row.record.deliveryIntents ∧ row.record.cancelRequested = false ∧
    row.record.generation.2 = l.generation

/-- How launches, the intents recorded and the table of owners belong together. -/
structure Sys.Delivered (s : Sys) : Prop where
  staged : Staged s.history
  recorded : ∀ d ∈ s.history, ∃ key row, s.ledger.get key = some row ∧ d ∈ row.record.deliveryIntents
  owned : ∀ exec key, s.mem.owners.lookup exec = some key →
    ∃ phase, exec = key.exec phase ∧ Intended s.ledger key phase
  known : ∀ key row, s.ledger.get key = some row → ∀ d ∈ row.record.deliveryIntents,
    s.mem.owners.lookup d.exec ≠ none → d ∈ s.history
  authority : ∀ x, s.launching = some x → Authorized s.ledger x

section

variable {site : Site} {env : Env} {g : Grounds} {m : Mem} {l l' : Ledger} {key key' : Key} {row : Row} {s s' : Sys}
  {phase phase' : Phase} {d : DeliveryId} {ds ds' : List DeliveryId} {answers : Answers}

theorem exec_inj : key.exec phase = key'.exec phase' ↔ key = key' ∧ phase = phase' := by
  simp only [Key.exec, ExecId.mk.injEq]
  constructor
  · rintro ⟨hns, hid, hphase⟩
    exact ⟨by cases key; cases key'; simp_all, hphase⟩
  · rintro ⟨rfl, rfl⟩
    exact ⟨rfl, rfl, rfl⟩

/-- Fewer deliveries of the execution rule out no more stages. -/
theorem undelivered_mono {exec : ExecId} {stage : Option Stage} (hsub : ∀ d ∈ ds, d.exec = exec → d ∈ ds')
    (h : undelivered ds' exec stage = true) : undelivered ds exec stage = true := by
  have hhas : ∀ stage, ds'.contains ⟨exec, stage⟩ = false → ds.contains ⟨exec, stage⟩ = false := by
    intro stage hnot
    simp only [List.contains_eq_mem, decide_eq_false_iff_not] at hnot ⊢
    exact fun hmem => hnot (hsub _ hmem rfl)
  have hany : (ds'.any fun d => d.exec = exec && d.stage.isSome) = false →
      (ds.any fun d => d.exec = exec && d.stage.isSome) = false := by
    simp only [List.any_eq_false, Bool.and_eq_true, decide_eq_true_eq, not_and]
    exact fun hnot d hmem hexec => hnot d (hsub d hmem hexec) hexec
  simp only [undelivered, Bool.and_eq_true, Bool.not_eq_true', Bool.or_eq_false_iff, Bool.and_eq_false_iff] at h ⊢
  obtain ⟨⟨⟨⟨hnone, hstage⟩, hwhole⟩, hfirst⟩, hsecond⟩ := h
  exact ⟨⟨⟨⟨hhas _ hnone, hhas _ hstage⟩, hwhole.imp_right hany⟩, hfirst.imp_right (And.imp (hhas _) (hhas _))⟩,
    hsecond.imp_right (hhas _)⟩

theorem Staged.last (h : Staged (ds ++ [d])) : Staged ds ∧ undelivered ds d.exec d.stage = true ∧
    (d.stage = some .helper → ⟨d.exec, some .bootstrap⟩ ∈ ds) ∧
    (d.stage = some .resultReader → ⟨d.exec, some .bootstrap⟩ ∈ ds ∧ ⟨d.exec, some .helper⟩ ∈ ds) := by
  generalize hall : ds ++ [d] = all at h
  cases h with
  | nil => exact absurd hall (by simp)
  | snoc d' hds hfresh hhelper hreader =>
    obtain ⟨rfl, hd⟩ := List.append_inj' hall rfl
    cases hd
    exact ⟨hds, hfresh, hhelper, hreader⟩

/-- Deliveries were in order before any of them. -/
theorem Staged.front (h : Staged (ds ++ ds')) : Staged ds := by
  induction ds' using List.reverseRecOn with
  | nil => rwa [List.append_nil] at h
  | append_singleton ds' d ih => exact ih (Staged.last (by rwa [← List.append_assoc] at h)).1

/-- Launches that came once and in order: no stage twice, no stage beside the whole
execution, the helper after the bootstrap and the reader after both. -/
structure InOrder (launches : List DeliveryId) : Prop where
  once : launches.Nodup
  whole : ∀ exec stage, ⟨exec, none⟩ ∈ launches → ⟨exec, some stage⟩ ∉ launches
  helper : ∀ before exec after, launches = before ++ ⟨exec, some .helper⟩ :: after →
    ⟨exec, some .bootstrap⟩ ∈ before
  reader : ∀ before exec after, launches = before ++ ⟨exec, some .resultReader⟩ :: after →
    ⟨exec, some .bootstrap⟩ ∈ before ∧ ⟨exec, some .helper⟩ ∈ before

theorem undelivered_new {exec : ExecId} {stage : Option Stage} (h : undelivered ds exec stage = true) :
    ⟨exec, stage⟩ ∉ ds ∧ ⟨exec, none⟩ ∉ ds ∧ (stage = none → ∀ stage', ⟨exec, some stage'⟩ ∉ ds) := by
  simp only [undelivered, Bool.and_eq_true, Bool.not_eq_true', Bool.or_eq_false_iff, Bool.and_eq_false_iff,
    List.contains_eq_mem, decide_eq_false_iff_not] at h
  obtain ⟨⟨⟨⟨hnone, hstage⟩, hwhole⟩, -⟩, -⟩ := h
  refine ⟨hstage, hnone, fun heq stage' hmem => ?_⟩
  have hany := hwhole.resolve_left (not_not_intro heq)
  simp only [List.any_eq_false, Bool.and_eq_true, decide_eq_true_eq, not_and] at hany
  exact hany _ hmem rfl rfl

theorem Staged.inOrder (h : Staged ds) : InOrder ds where
  once := by
    induction h with
    | nil => exact List.nodup_nil
    | snoc d hds hfresh hhelper hreader ih =>
      rw [List.nodup_append]
      refine ⟨ih, List.nodup_singleton d, fun d' hmem other hother heq => ?_⟩
      rw [List.mem_singleton] at hother
      subst heq hother
      exact (undelivered_new hfresh).1 hmem
  whole exec stage := by
    induction h with
    | nil => exact fun hmem => by cases hmem
    | snoc d hds hfresh hhelper hreader ih =>
      obtain ⟨-, hnone, hstages⟩ := undelivered_new hfresh
      simp only [List.mem_append, List.mem_singleton]
      rintro (hold | rfl) (hold' | heq)
      · exact ih hold hold'
      · subst heq
        exact hnone hold
      · exact hstages rfl stage hold'
      · cases heq
  helper before exec after heq := by
    subst heq
    rw [List.append_cons] at h
    exact (Staged.last h.front).2.2.1 rfl
  reader before exec after heq := by
    subst heq
    rw [List.append_cons] at h
    exact (Staged.last h.front).2.2.2 rfl

/-- A committed intent is of a phase that had none. -/
theorem begin_fresh {allocated : Bool} (h : begin site env m l key phase = .ok (.intended l' allocated)) :
    ∀ row, l.get key = some row → phase ∉ row.record.handles.keys := by
  intro row hget
  simp only [begin, hget] at h
  split at h
  · cases h
  · simp only [bind_ok] at h
    obtain ⟨parent, -, h⟩ := h
    split at h
    · cases h
    · simp only [bind_ok, exists_unit, beginPhase, require_ok, Bool.not_eq_true'] at h
      obtain ⟨-, quota, -, ⟨state, grant⟩, -, hfresh, -⟩ := h
      simpa using hfresh

/-- Authority stands until a transaction withdraws rows. -/
theorem Authorized.moves {x : Launching} (h : Authorized l x) (hmoves : Moves site m g l l')
    (hwithdraws : ¬ g.withdraws) : Authorized l' x := by
  obtain ⟨row, hget, hmem, hcancel, hgeneration⟩ := h
  obtain ⟨row', hget', hlater⟩ := hmoves.later hget
  refine ⟨row', hget', hlater.deliveries.subset hmem, (hlater.unwithdrawn hwithdraws).trans hcancel, ?_⟩
  rw [hlater.generation, hmoves.generation.2 hwithdraws]
  exact hgeneration

theorem recorded_moves (h : ∃ key row, l.get key = some row ∧ d ∈ row.record.deliveryIntents)
    (hmoves : Moves site m g l l') : ∃ key row, l'.get key = some row ∧ d ∈ row.record.deliveryIntents := by
  obtain ⟨key, row, hget, hmem⟩ := h
  obtain ⟨row', hget', hlater⟩ := hmoves.later hget
  exact ⟨key, row', hget', hlater.deliveries.subset hmem⟩

/-- Intents recorded after the step were there before it. -/
theorem known_moves (hmoves : Moves site m g l l') (hdelivers : ¬ g.delivers) (hget : l'.get key = some row)
    (hmem : d ∈ row.record.deliveryIntents) : ∃ row', l.get key = some row' ∧ d ∈ row'.record.deliveryIntents := by
  rcases hmoves.before hdelivers hget with ⟨row', hget', hlater⟩ | hempty
  · exact ⟨row', hget', hlater.undelivered hdelivers ▸ hmem⟩
  · rw [hempty] at hmem
    cases hmem

theorem Sys.free_idle (h : s.fenceFree = true) : s.launching = none := by
  simp only [Sys.fenceFree, Bool.and_eq_true, Option.isNone_iff_eq_none] at h
  exact h.1

/-- A step that neither delivers nor launches anything. -/
theorem Sys.Delivered.kept (h : s.Delivered) (hkept : Kept s s') (hmoves : Moves site m g s.ledger s'.ledger)
    (hdelivers : ¬ g.delivers) (hwithdraws : g.withdraws → s.fenceFree = true) : s'.Delivered := by
  have hhistory : s'.history = s.history := by rw [Sys.history, Sys.history, hkept.launches, hkept.launching]
  refine ⟨?_, ?_, ?_, ?_, ?_⟩
  · rw [hhistory]
    exact h.staged
  · intro d hmem
    rw [hhistory] at hmem
    exact recorded_moves (h.recorded d hmem) hmoves
  · intro exec key hlookup
    rw [hkept.owners] at hlookup
    obtain ⟨phase, hexec, hintended⟩ := h.owned exec key hlookup
    exact ⟨phase, hexec, hintended.moves hmoves⟩
  · intro key row hget d hmem howner
    rw [hkept.owners] at howner
    rw [hhistory]
    obtain ⟨row', hget', hmem'⟩ := known_moves hmoves hdelivers hget hmem
    exact h.known key row' hget' d hmem' howner
  · intro x hx
    rw [hkept.launching] at hx
    refine (h.authority x hx).moves hmoves fun hmay => ?_
    rw [Sys.free_idle (hwithdraws hmay)] at hx
    cases hx

/-- The execution the coordinator has come to own has been delivered nothing. -/
theorem Sys.Delivered.owns (h : s.Delivered) (hsound : s.Sound site) (howns : Owns site answers s row s')
    (hmoves : Moves site m g s.ledger s'.ledger) (hdelivers : ¬ g.delivers)
    (hwithdraws : g.withdraws → s.fenceFree = true) (hafter : s'.Sound site) : s'.Delivered := by
  have hhistory : s'.history = s.history := by rw [Sys.history, Sys.history, howns.launches, howns.launching]
  obtain ⟨allocated, hbegin⟩ := howns.begun
  have hintended : Intended s'.ledger row.key (nextPhase row) := by
    obtain ⟨allocated, rest, hcoord⟩ := howns.enqueues
    have hok : CoordOk s'.ledger s'.mem s'.proved _ := hcoord ▸ hafter.coord
    exact hok.1.2
  refine ⟨?_, ?_, ?_, ?_, ?_⟩
  · rw [hhistory]
    exact h.staged
  · intro d hmem
    rw [hhistory] at hmem
    exact recorded_moves (h.recorded d hmem) hmoves
  · intro exec key hlookup
    rw [howns.owners] at hlookup
    rcases lookup_insert_some hlookup with ⟨rfl, rfl⟩ | hold
    · exact ⟨nextPhase row, rfl, hintended⟩
    · obtain ⟨phase, hexec, hbefore⟩ := h.owned exec key hold
      exact ⟨phase, hexec, hbefore.moves hmoves⟩
  · intro key found hget d hmem howner
    obtain ⟨found', hget', hmem'⟩ := known_moves hmoves hdelivers hget hmem
    rw [hhistory]
    refine h.known key found' hget' d hmem' fun hnone => howner ?_
    rw [howns.owners, AList.lookup_insert_ne]
    · exact hnone
    · intro hexec
      obtain ⟨phase, hphase, hd⟩ := (hsound.ledger.rows found' (Ledger.get_mem hget')).delivered d hmem'
      rw [hexec, Ledger.get_key hget', exec_inj] at hd
      obtain ⟨rfl, rfl⟩ := hd
      exact begin_fresh hbegin found' hget' hphase
  · intro x hx
    rw [howns.launching] at hx
    refine (h.authority x hx).moves hmoves fun hmay => ?_
    rw [Sys.free_idle (hwithdraws hmay)] at hx
    cases hx

end

/-! ### Steps -/

section

variable {site : Site} {env : Env} {g : Grounds} {s : Sys} {row : Row} {d : Delivery} {before : List (Kind × Changes)}

/-- Deliveries of the row's executions are recorded in the row. -/
theorem Sys.Delivered.in_row (h : s.Delivered) (hsound : s.Sound site) (hget : s.ledger.get row.key = some row)
    {d : DeliveryId} (hmem : d ∈ s.history) {phase : Phase} (hexec : d.exec = row.key.exec phase) :
    d ∈ row.record.deliveryIntents := by
  obtain ⟨key, found, hfound, hrecorded⟩ := h.recorded d hmem
  obtain ⟨phase', -, hd⟩ := (hsound.ledger.rows found (Ledger.get_mem hfound)).delivered d hrecorded
  rw [hexec, Ledger.get_key hfound, exec_inj] at hd
  rw [← hd.1, hget, Option.some.injEq] at hfound
  rw [hfound]
  exact hrecorded

/-- A stage a guard lets through comes next in the history. -/
theorem Sys.Delivered.admits (h : s.Delivered) (hsound : s.Sound site) (hget : s.ledger.get row.key = some row)
    (hable : Deliverable s.mem s.ledger row d.id) : Staged (s.history ++ [d.id]) := by
  have hknown : ∀ stage, ⟨d.id.exec, stage⟩ ∈ row.record.deliveryIntents → ⟨d.id.exec, stage⟩ ∈ s.history := by
    intro stage hmem
    refine h.known row.key row hget _ hmem ?_
    rw [hable.owner]
    exact Option.some_ne_none row.key
  refine .snoc d.id h.staged (undelivered_mono (fun d' hmem hexec => ?_) hable.fresh) (fun hstage => ?_) fun hstage => ?_
  · exact h.in_row hsound hget hmem (hexec.trans hable.exec)
  · exact hknown _ (hable.helper hstage)
  · exact ⟨hknown _ (hable.reader hstage).1, hknown _ (hable.reader hstage).2⟩

theorem Sys.Delivered.guard (h : s.Delivered) (hsound : s.Sound site) : (s.guard site env d).Delivered := by
  unfold Sys.guard
  split
  · exact h
  · next hidle =>
    split
    · next l' key hguard howner =>
      obtain ⟨row, before, hget, hable, hbefore, rfl⟩ := guardStart_ok hguard
      have hkey : key = row.key := Option.some.inj (howner.symm.trans hable.owner)
      subst hkey
      have hnone : s.launching = none := by simpa using hidle
      have hhistory : s.launches = s.history := by simp [Sys.history, hnone]
      obtain ⟨seq, observed, hrecord⟩ := hbefore.applied (row.record.deliveryIntents ++ [d.id]) s.ledger.nextSeq
      have hwritten := (Ledger.get_writes_self hget : (s.ledger.writes row.key (before ++ [(.managerDeliveryIntent,
        { deliveryIntents := some (row.record.deliveryIntents ++ [d.id]) })])).get row.key = _)
      rw [hrecord] at hwritten
      have hmoves : Moves site s.mem ⟨(· ∈ s.proved), True, True, True, True⟩ s.ledger _ :=
        (Effects.one (.write hget (.delivered d.id before trivial hable hbefore))).moves
      refine ⟨?_, ?_, ?_, ?_, ?_⟩
      · show Staged (s.launches ++ [d.id])
        rw [hhistory]
        exact h.admits hsound hget hable
      · intro d' hmem
        rcases List.mem_append.mp (show d' ∈ s.launches ++ [d.id] from hmem) with hold | hnew
        · rw [hhistory] at hold
          exact recorded_moves (h.recorded d' hold) hmoves
        · exact ⟨row.key, _, hwritten, List.mem_append_right _ hnew⟩
      · intro exec key hlookup
        obtain ⟨phase, hexec, hintended⟩ := h.owned exec key hlookup
        exact ⟨phase, hexec, hintended.moves hmoves⟩
      · intro key found hfound d' hmem hown
        show d' ∈ s.launches ++ [d.id]
        rw [hhistory]
        by_cases hkey : key = row.key
        · subst hkey
          rw [hwritten, Option.some.injEq] at hfound
          subst hfound
          rcases List.mem_append.mp hmem with hold | hnew
          · exact List.mem_append_left _ (h.known row.key row hget d' hold hown)
          · exact List.mem_append_right _ hnew
        · rw [Ledger.get_writes_other hkey] at hfound
          exact List.mem_append_left _ (h.known key found hfound d' hmem hown)
      · intro x hx
        cases hx
        refine ⟨_, hwritten, List.mem_append_right _ (List.mem_singleton_self _), hable.uncancelled, ?_⟩
        rw [Ledger.writes_generation]
        exact hable.generation
    · exact h

theorem launch_history : s.launch.history = s.history := by
  unfold Sys.launch
  cases hlaunching : s.launching <;> simp [Sys.history, hlaunching]

theorem launch_kept : s.launch.ledger = s.ledger ∧ s.launch.mem = s.mem ∧ s.launch.launching = none := by
  unfold Sys.launch
  split
  · next hnone => exact ⟨rfl, rfl, hnone⟩
  · exact ⟨rfl, rfl, rfl⟩

theorem Sys.Delivered.launch (h : s.Delivered) : s.launch.Delivered := by
  obtain ⟨hledger, hmem, hnone⟩ := launch_kept (s := s)
  refine ⟨?_, ?_, ?_, ?_, ?_⟩
  · rw [launch_history]
    exact h.staged
  · rw [launch_history, hledger]
    exact h.recorded
  · rw [hledger, hmem]
    exact h.owned
  · rw [launch_history, hledger, hmem]
    exact h.known
  · intro x hx
    rw [hnone] at hx
    cases hx

/-- A process that owns nothing: the launches there were are all there will be of the executions so far. -/
theorem Sys.Delivered.unowned {s' : Sys} (h : s.Delivered) (hledger : s'.ledger = s.ledger) (howners : s'.mem.owners = ∅)
    (hhistory : s'.history = s.history ∨ ∃ d, s.history = s'.history ++ [d])
    (hlaunching : ∀ x, s'.launching = some x → s.launching = some x) : s'.Delivered where
  staged := by
    rcases hhistory with heq | ⟨d, heq⟩
    · rw [heq]
      exact h.staged
    · exact (Staged.last (heq ▸ h.staged)).1
  recorded d hmem := by
    rw [hledger]
    refine h.recorded d ?_
    rcases hhistory with heq | ⟨d', heq⟩
    · exact heq ▸ hmem
    · exact heq ▸ List.mem_append_left _ hmem
  owned exec key hlookup := by
    rw [howners] at hlookup
    cases hlookup
  known key row hget d hmem howner := by
    rw [howners] at howner
    exact absurd rfl howner
  authority x hx := by
    rw [hledger]
    exact h.authority x (hlaunching x hx)

theorem Sys.Delivered.crash (h : s.Delivered) : s.crash.Delivered := by
  refine h.unowned rfl rfl ?_ fun x hx => by cases hx
  cases hlaunching : s.launching with
  | none => exact .inl (by simp [Sys.history, Sys.crash, hlaunching])
  | some x => exact .inr ⟨x.delivery, by simp [Sys.history, Sys.crash, hlaunching]⟩

theorem Sys.Delivered.restart {install : Install} {session : String} (h : s.Delivered) :
    (s.restart install session).Delivered := by
  unfold Sys.restart
  split
  · split
    · exact h
    · exact h.unowned rfl rfl (.inl rfl) fun x hx => hx
  · exact h

end

/-! ### Runs -/

section

variable {site : Site} {s : Sys} {a : Action}

theorem fenced_kept {result : Except Fault Ledger} : Kept s (s.fenced result) := by
  unfold Sys.fenced Sys.commit
  repeat' split
  all_goals exact ⟨rfl, rfl, rfl, rfl⟩

/-- Deliveries, launches, and what becomes of processes and executions. -/
def Action.eventful : Action → Bool
  | .guard .. => true
  | .launch => true
  | .crash => true
  | .restart .. => true
  | .exit .. => true
  | _ => false

/-- Calls neither deliver nor launch anything. -/
theorem act_kept (hadvance : ∀ answers, a ≠ .advance answers) (hplain : a.eventful = false) :
    Kept s (s.act site a) := by
  cases a with
  | guard env d => cases hplain
  | launch => cases hplain
  | crash => cases hplain
  | restart install session => cases hplain
  | exit exec => cases hplain
  | advance answers => exact absurd rfl (hadvance answers)
  | closeObservation env key phase =>
    show Kept s (s.closeObservation site env key phase)
    unfold Sys.closeObservation
    repeat' split
    all_goals exact ⟨rfl, rfl, rfl, rfl⟩
  | finishClosing key phase =>
    show Kept s (s.finishClosing site key phase)
    unfold Sys.finishClosing
    repeat' split
    all_goals exact ⟨rfl, rfl, rfl, rfl⟩
  | registerSeal publication =>
    show Kept s (s.commit (registerSeal s.ledger publication))
    unfold Sys.commit
    split <;> exact ⟨rfl, rfl, rfl, rfl⟩
  | completeRecoveredEvidence env operationId digest publication proof =>
    show Kept s (s.completeRecoveredEvidence site env operationId digest publication proof)
    unfold Sys.completeRecoveredEvidence
    repeat' split
    all_goals exact ⟨rfl, rfl, rfl, rfl⟩
  | tick =>
    simp only [Sys.act]
    split <;> exact ⟨rfl, rfl, rfl, rfl⟩
  | _ => exact fenced_kept

/-- An uneventful step keeps all this, unless the coordinator commits an intent. -/
theorem step_kept (site : Site) (s : Sys) {a : Action} (hplain : a.eventful = false) : Kept s (step site s a) ∨
    ∃ answers row, Owns site answers s row (step site s a) := by
  have hact : (∀ answers, a ≠ .advance answers) → Kept s (if s.coord.alive then s.act site a else s) :=
    fun hadvance => (act_kept hadvance hplain).when
  cases a with
  | guard env d => cases hplain
  | launch => cases hplain
  | crash => cases hplain
  | restart install session => cases hplain
  | exit exec => cases hplain
  | advance answers =>
    rcases advance_kept site s answers with hkept | ⟨row, rest, hcoord, howns⟩
    · exact .inl hkept.when
    · refine .inr ⟨answers, row, ?_⟩
      have hstep : step site s (.advance answers) = s.advance site answers := if_pos (by rw [hcoord]; rfl)
      rw [hstep]
      exact howns
  | _ => exact .inl (hact fun answers heq => by cases heq)

/-- What a step may add to the history. -/
theorem step_delivered (hsound : s.Sound site) (h : s.Delivered) (a : Action) : (step site s a).Delivered := by
  obtain ⟨exited, -, hstepped⟩ := step_stepped hsound a
  have halive : ∀ {s' : Sys}, s'.Delivered → (if s.coord.alive then s' else s).Delivered := by
    intro s' hafter
    split
    · exact hafter
    · exact h
  by_cases hplain : a.eventful = false
  · have hdelivers : ¬ (s.grounds a exited).delivers := by
      rintro ⟨env, d, rfl⟩
      cases hplain
    rcases step_kept site s hplain with hkept | ⟨answers, row, howns⟩
    · exact h.kept hkept hstepped.moves hdelivers id
    · exact h.owns hsound howns hstepped.moves hdelivers id hstepped.sound
  · cases a with
    | guard env d => exact halive (h.guard hsound)
    | launch => exact halive h.launch
    | crash => exact halive h.crash
    | restart install session => exact h.restart
    | exit exec => exact ⟨h.staged, h.recorded, h.owned, h.known, h.authority⟩
    | _ => exact absurd rfl hplain

theorem Sys.Delivered.created : Sys.created.Delivered where
  staged := .nil
  recorded d hmem := by cases hmem
  owned exec key hlookup := by cases hlookup
  known key row hget := by cases hget
  authority x hx := by cases hx

theorem run_delivered (site : Site) (actions : List Action) :
    (run site .created actions).Sound site ∧ (run site .created actions).Delivered := by
  refine Machine.exec_inv (I := fun s : Sys => s.Sound site ∧ s.Delivered) (fun s a h => ?_) ⟨.created site, .created⟩
  obtain ⟨exited, -, hstepped⟩ := step_stepped h.1 a
  exact ⟨hstepped.sound, step_delivered h.1 h.2 a⟩

/-- In every run each stage is launched at most once, and in order. -/
theorem run_inOrder (site : Site) (actions : List Action) : InOrder (run site .created actions).launches := by
  obtain ⟨more, hmore⟩ : ∃ more, (run site .created actions).history = (run site .created actions).launches ++ more :=
    ⟨_, rfl⟩
  exact (Staged.front (hmore ▸ (run_delivered site actions).2.staged)).inOrder

/-! ### Withdrawn rows -/

/-- The row was cancelled, or admitted under a generation that was revoked since. -/
def Withdrawn (l : Ledger) (key : Key) : Prop :=
  ∃ row, l.get key = some row ∧ (row.record.cancelRequested = true ∨ row.record.generation.2 < l.generation)

theorem Withdrawn.moves {g : Grounds} {m : Mem} {l l' : Ledger} {key : Key} (h : Withdrawn l key)
    (hmoves : Moves site m g l l') : Withdrawn l' key := by
  obtain ⟨row, hget, hwithdrawn⟩ := h
  obtain ⟨row', hget', hlater⟩ := hmoves.later hget
  refine ⟨row', hget', hwithdrawn.imp hlater.withdrawn fun hold => ?_⟩
  rw [hlater.generation]
  exact lt_of_lt_of_le hold hmoves.generation.1

/-- A launch is of a row that stands. -/
theorem Authorized.stands {l : Ledger} {x : Launching} (h : Authorized l x) : ¬ Withdrawn l x.key := by
  obtain ⟨row, hget, -, hcancel, hgeneration⟩ := h
  rintro ⟨row', hget', hwithdrawn⟩
  rw [hget, Option.some.injEq] at hget'
  subst hget'
  rw [hcancel, hgeneration] at hwithdrawn
  simp at hwithdrawn

/-- The key of a launch is the one its execution names. -/
theorem Authorized.key_eq {exited : ExecId → Prop} {l : Ledger} {x : Launching} (h : Authorized l x)
    (hsound : l.Sound site exited) {key : Key} {phase : Phase} (hexec : x.delivery.exec = key.exec phase) : x.key = key := by
  obtain ⟨row, hget, hmem, -⟩ := h
  obtain ⟨phase', -, hd⟩ := (hsound.rows row (Ledger.get_mem hget)).delivered _ hmem
  rw [hexec, Ledger.get_key hget, exec_inj] at hd
  exact hd.1.symm

theorem restart_kept {install : Install} {session : String} :
    (s.restart install session).launches = s.launches ∧ (s.restart install session).exited = s.exited := by
  unfold Sys.restart
  repeat' split
  all_goals exact ⟨rfl, rfl⟩

theorem guard_kept {env : Env} {d : Delivery} :
    (s.guard site env d).launches = s.launches ∧ (s.guard site env d).exited = s.exited := by
  unfold Sys.guard
  repeat' split
  all_goals exact ⟨rfl, rfl⟩

/-- A step launches what was committed, or nothing. -/
theorem step_launches (site : Site) (s : Sys) (a : Action) : (step site s a).launches = s.launches ∨
    ∃ x, s.launching = some x ∧ (step site s a).launches = s.launches ++ [x.delivery] := by
  have halive : ∀ {s' : Sys}, s'.launches = s.launches → (if s.coord.alive then s' else s).launches = s.launches := by
    intro s' heq
    split
    · exact heq
    · rfl
  by_cases hplain : a.eventful = false
  · rcases step_kept site s hplain with hkept | ⟨answers, row, howns⟩
    · exact .inl hkept.launches
    · exact .inl howns.launches
  · cases a with
    | guard env d => exact .inl (halive guard_kept.1)
    | crash => exact .inl (halive rfl)
    | restart install session => exact .inl restart_kept.1
    | exit exec => exact .inl rfl
    | launch =>
      show (if s.coord.alive then s.launch else s).launches = s.launches ∨
        ∃ x, s.launching = some x ∧ (if s.coord.alive then s.launch else s).launches = s.launches ++ [x.delivery]
      unfold Sys.launch
      cases hlaunching : s.launching with
      | none => exact .inl (halive rfl)
      | some x =>
        by_cases hlive : s.coord.alive = true
        · exact .inr ⟨x, rfl, by rw [if_pos hlive]⟩
        · exact .inl (by rw [if_neg hlive])
    | _ => exact absurd rfl hplain

/-- What has exited stays so. -/
theorem step_exited (site : Site) (s : Sys) (a : Action) : ∀ exec ∈ s.exited, exec ∈ (step site s a).exited := by
  have halive : ∀ {s' : Sys}, s'.exited = s.exited →
      ∀ exec ∈ s.exited, exec ∈ (if s.coord.alive then s' else s).exited := by
    intro s' heq exec hmem
    split
    · exact heq ▸ hmem
    · exact hmem
  by_cases hplain : a.eventful = false
  · rcases step_kept site s hplain with hkept | ⟨answers, row, howns⟩
    · exact fun exec hmem => hkept.exited ▸ hmem
    · exact fun exec hmem => howns.exited ▸ hmem
  · cases a with
    | guard env d => exact halive guard_kept.2
    | crash => exact halive rfl
    | restart install session =>
      show ∀ exec ∈ s.exited, exec ∈ (s.restart install session).exited
      rw [restart_kept.2]
      exact fun _ hmem => hmem
    | exit exec => exact fun _ hmem => List.mem_cons_of_mem exec hmem
    | launch =>
      refine halive ?_
      show s.launch.exited = s.exited
      unfold Sys.launch
      split <;> rfl
    | _ => exact absurd rfl hplain

/-- From `start` on, no stage of the row has been launched. -/
structure Silent (site : Site) (start : Sys) (key : Key) (s : Sys) : Prop where
  sound : s.Sound site
  delivered : s.Delivered
  withdrawn : Withdrawn s.ledger key
  launches : ∀ d ∈ s.launches, ∀ phase, d.exec = key.exec phase → d ∈ start.launches

theorem Silent.step {start : Sys} {key : Key} (h : Silent site start key s) (a : Action) :
    Silent site start key (step site s a) := by
  obtain ⟨exited, -, hstepped⟩ := step_stepped h.sound a
  refine ⟨hstepped.sound, step_delivered h.sound h.delivered a, h.withdrawn.moves hstepped.moves,
    fun d hmem phase hexec => ?_⟩
  rcases step_launches site s a with hsame | ⟨x, hx, hmore⟩
  · exact h.launches d (hsame ▸ hmem) phase hexec
  · rw [hmore] at hmem
    rcases List.mem_append.mp hmem with hearlier | hnew
    · exact h.launches d hearlier phase hexec
    · rw [List.mem_singleton] at hnew
      have hauthorized := h.delivered.authority x hx
      have hkey := hauthorized.key_eq h.sound.ledger (hnew ▸ hexec)
      exact absurd (hkey ▸ h.withdrawn) hauthorized.stands

theorem run_dated (site : Site) (actions : List Action) : (run site .created actions).ledger.Dated := by
  refine (Machine.exec_inv (I := fun s : Sys => s.Sound site ∧ s.ledger.Dated) (fun s a h => ?_) ⟨.created site, ?_⟩).2
  · obtain ⟨exited, -, hstepped⟩ := step_stepped h.1 a
    exact ⟨hstepped.sound, hstepped.moves.dated h.2⟩
  · intro key row hget
    cases hget

/-- Once a commit has withdrawn a row, by a cancellation or by a revocation that bumped
the generation of its admission, no run from there on launches another stage of it. -/
theorem run_withdrawn (site : Site) (before after : List Action) (key : Key) (row : Row) (phase : Phase)
    (stage : Option Stage) (hget : (run site .created before).ledger.get key = some row)
    (hwithdrawn : row.record.cancelRequested = true ∨
      row.record.generation.2 ≠ (run site .created before).ledger.generation)
    (hlaunched : ⟨key.exec phase, stage⟩ ∈ (run site .created (before ++ after)).launches) :
    ⟨key.exec phase, stage⟩ ∈ (run site .created before).launches := by
  obtain ⟨hsound, hdelivered⟩ := run_delivered site before
  have hgone : Withdrawn (run site .created before).ledger key :=
    ⟨row, hget, hwithdrawn.imp_right (lt_of_le_of_ne (run_dated site before key row hget))⟩
  have hsilent : Silent site (run site .created before) key (run site (run site .created before) after) :=
    Machine.exec_inv (I := Silent site _ key) (fun _ a h => h.step a) ⟨hsound, hdelivered, hgone, fun d hmem _ _ => hmem⟩
  rw [run, Machine.exec_append] at hlaunched
  exact hsilent.launches _ hlaunched phase rfl

end

/-! ### A run -/

def sampleLimits : Budget.Limits := ⟨120, 5, 120, 64, 8, 64, 0, 120, 64⟩

def sampleBoot : String := "00000000-0000-4000-8000-000000000000"

def sampleSite : Site where
  maxQueued := 4
  maxRunning := 2
  retainedBytes := 4096
  ledgerEmergencyBytes := 64
  aliases := [("build", "tree")]
  sha256 _ := "0123456789abcdef0123456789abcdef0123456789abcdef0123456789abcdef"
  roots := ⟨fun _ _ _ _ _ => "", fun _ => "", fun _ => true⟩
  proofDigest _ := ""
  snapshotDigest _ := ""
  sealDigest _ := ""
  unitName text := text
  localA2 _ _ := false

def sampleExpected : Expected := ⟨1, ""⟩

def sampleRequest (operationId : String) : Request := ⟨operationId, "digest", "build.local", "profile", sampleExpected, ""⟩

def samplePlan : Plan where
  kind := "build.local"
  resourceIds := ["build"]
  budgets := sampleLimits
  reservationBytes := 64
  planDigest := some "plan"
  execution := ⟨"", [], false, false, false, false, [], ⟨"", "", ""⟩, ""⟩
  rest := ""

def sampleEnv : Env where
  authorize _ _ _ _ := .ok ()
  expected _ := .ok sampleExpected
  generation := 1
  profile _ := .ok ⟨sampleLimits, none, none⟩
  resolve _ := .ok samplePlan
  clock := .ok ⟨sampleBoot, 0⟩
  expired _ := false
  checkGrant _ _ := .ok ()
  validateObservation _ _ := .ok ""
  decodeFence _ _ _ := .error (.value "")
  phasePlan := .ok ()

def samplePrincipal : Principal := ⟨"agent", []⟩

def sampleAnswers : Answers := ⟨sampleEnv, false, false, .retryable, none, none⟩

def sampleKey : Key := ⟨.job, "operation"⟩

/-- A run that delivers a whole execution. -/
def sampleStart : List Action :=
  [.restart ⟨none, false, none, ""⟩ "session", .advance sampleAnswers, .advance sampleAnswers, .advance sampleAnswers,
    .advance sampleAnswers,
    .submit sampleEnv (sampleRequest "operation") samplePrincipal, .tick] ++ List.replicate 5 (.advance sampleAnswers) ++
    [.guard sampleEnv ⟨sampleKey.exec .preflight, none, none, none⟩, .launch, .advance sampleAnswers, .advance sampleAnswers]

/-- It is cancelled between its phases. -/
def sampleCancelled : List Action :=
  sampleStart ++ [.cancel sampleEnv "operation" "digest" none samplePrincipal]

theorem run_withdrawn_cancelled : ∃ row, (run sampleSite .created sampleCancelled).ledger.get sampleKey = some row ∧
    row.record.cancelRequested = true ∧
    ⟨sampleKey.exec .preflight, none⟩ ∈ (run sampleSite .created (sampleCancelled ++ [.crash])).launches ∧
    ⟨sampleKey.exec .preflight, none⟩ ∈ (run sampleSite .created sampleCancelled).launches := by
  have hrun : ((run sampleSite .created sampleCancelled).ledger.get sampleKey).map (·.record.cancelRequested) =
        some true ∧
      ⟨sampleKey.exec .preflight, none⟩ ∈ (run sampleSite .created (sampleCancelled ++ [.crash])).launches := by
    decide +kernel
  obtain ⟨hcancelled, hlaunched⟩ := hrun
  obtain ⟨row, hget, hcancel⟩ := Option.map_eq_some_iff.mp hcancelled
  exact ⟨row, hget, hcancel, hlaunched,
    run_withdrawn sampleSite sampleCancelled [.crash] sampleKey row .preflight none hget (.inl hcancel) hlaunched⟩

end LocalHand.Broker
