/-
How the rows of a ledger change from one transaction to the next: rows stay,
what they were admitted with stays, deliveries are only appended, and only a
transaction that may start a phase or withdraw a row does.
-/
import LocalHand.Broker.Sound

namespace LocalHand.Broker

open Relation (ReflTransGen)

/-- `row'` is the row later on. -/
structure Later (g : Grounds) (row row' : Row) : Prop where
  same : row' = { row with record := row'.record }
  handles : ∀ phase ∈ row.record.handles.keys, phase ∈ row'.record.handles.keys
  unstarted : ¬ g.starts → (∀ phase ∈ row'.record.handles.keys, phase ∈ row.record.handles.keys) ∧
    (row'.record.phase = row.record.phase ∨ Phase.running row'.record.phase = false)
  deliveries : row.record.deliveryIntents <+: row'.record.deliveryIntents
  undelivered : ¬ g.delivers → row'.record.deliveryIntents = row.record.deliveryIntents
  generation : row'.record.generation = row.record.generation
  pending : ∀ phase, (row.record.quotaPending.lookup phase).isSome = true →
    (row'.record.quotaPending.lookup phase).isSome = true
  withdrawn : row.record.cancelRequested = true → row'.record.cancelRequested = true
  unwithdrawn : ¬ g.withdraws → row'.record.cancelRequested = row.record.cancelRequested

variable {site : Site} {m : Mem} {g : Grounds} {l l' : Ledger} {key k : Key} {row row' row'' : Row} {r : Record}

namespace Later

theorem refl (g : Grounds) (row : Row) : Later g row row :=
  ⟨rfl, fun _ h => h, fun _ => ⟨fun _ h => h, .inl rfl⟩, List.prefix_rfl, fun _ => rfl, rfl, fun _ h => h, id, fun _ => rfl⟩

theorem trans (h : Later g row row') (h' : Later g row' row'') : Later g row row'' where
  same := by
    rw [h'.same, h.same]
  handles phase hmem := h'.handles phase (h.handles phase hmem)
  unstarted hnot := by
    obtain ⟨hkeys, hphase⟩ := h.unstarted hnot
    obtain ⟨hkeys', hphase'⟩ := h'.unstarted hnot
    refine ⟨fun phase hmem => hkeys phase (hkeys' phase hmem), ?_⟩
    rcases hphase' with heq | hidle
    · rw [heq]
      exact hphase
    · exact .inr hidle
  deliveries := h.deliveries.trans h'.deliveries
  undelivered hnot := (h'.undelivered hnot).trans (h.undelivered hnot)
  generation := h'.generation.trans h.generation
  pending phase hsome := h'.pending phase (h.pending phase hsome)
  withdrawn hc := h'.withdrawn (h.withdrawn hc)
  unwithdrawn hnot := (h'.unwithdrawn hnot).trans (h.unwithdrawn hnot)

/-- A write that is no start, delivery or withdrawal. -/
theorem plain (hhandles : ∀ phase, phase ∈ r.handles.keys ↔ phase ∈ row.record.handles.keys)
    (hphase : r.phase = row.record.phase ∨ Phase.running r.phase = false)
    (hdeliveries : r.deliveryIntents = row.record.deliveryIntents) (hgeneration : r.generation = row.record.generation)
    (hpending : ∀ phase, (row.record.quotaPending.lookup phase).isSome = true → (r.quotaPending.lookup phase).isSome = true)
    (hcancel : r.cancelRequested = row.record.cancelRequested) : Later g row { row with record := r } where
  same := rfl
  handles phase := (hhandles phase).mpr
  unstarted _ := ⟨fun phase => (hhandles phase).mp, hphase⟩
  deliveries := hdeliveries ▸ List.prefix_rfl
  undelivered _ := hdeliveries
  generation := hgeneration
  pending := hpending
  withdrawn hc := hcancel.trans hc
  unwithdrawn _ := hcancel

end Later

theorem Later.key_eq (h : Later g row row') : row'.key = row.key := by
  rw [h.same]
  rfl

theorem Later.parent_eq (h : Later g row row') : row'.parent = row.parent := by rw [h.same]

theorem Write.later {es : List (Kind × Changes)} (hwrite : Write site m g l row es) (seq : Nat) :
    Later g row { row with record := row.record.applyAll es seq } := by
  cases hwrite with
  | cancelled hmay _ _ =>
    exact ⟨rfl, fun _ h => h, fun _ => ⟨fun _ h => h, .inl rfl⟩, List.prefix_rfl, fun _ => rfl, rfl, fun _ h => h, fun _ => rfl,
      fun hnot => absurd hmay hnot⟩
  | revoked hmay _ =>
    exact ⟨rfl, fun _ h => h, fun _ => ⟨fun _ h => h, .inl rfl⟩, List.prefix_rfl, fun _ => rfl, rfl, fun _ h => h, fun _ => rfl,
      fun hnot => absurd hmay hnot⟩
  | cancelledQueued hmay _ _ =>
    exact ⟨rfl, fun _ h => h, fun _ => ⟨fun _ h => h, .inr rfl⟩, List.prefix_rfl, fun _ => rfl, rfl, fun _ h => h, fun _ => rfl,
      fun hnot => absurd hmay hnot⟩
  | preflightDone proof facts hexit hshown hphase =>
    refine .plain (fun _ => Iff.rfl) (.inr ?_) rfl rfl (fun _ h => h) rfl
    show Phase.running (if row.record.recovered = true then .exited else .preflightComplete) = false
    split <;> rfl
  | intent phase state allocated hready =>
    exact ⟨rfl, fun _ h => mem_keys_insert.mpr (.inr h), fun hnot => absurd hready.may hnot, List.prefix_rfl, fun _ => rfl, rfl, fun _ h => h, id,
      fun _ => rfl⟩
  | pending proof gaps hexit hshown hnone hopen =>
    refine .plain (fun _ => Iff.rfl) (.inl rfl) rfl rfl (fun phase hsome => ?_) rfl
    show ((row.record.quotaPending.insert row.record.phase ⟨row.record.phase, proof⟩).lookup phase).isSome = true
    by_cases hphase : phase = row.record.phase
    · rw [hphase, AList.lookup_insert]
      rfl
    · rw [AList.lookup_insert_ne hphase]
      exact hsome
  | enqueued phase handle hphase => exact .plain (mem_keys_replace hphase) (.inl rfl) rfl rfl (fun _ h => h) rfl
  | identified handle hphase => exact .plain (mem_keys_replace hphase) (.inl rfl) rfl rfl (fun _ h => h) rfl
  | delivered d before hmay hable hbefore =>
    obtain ⟨seq', observed, hrecord⟩ := hbefore.applied (row.record.deliveryIntents ++ [d]) seq
    rw [hrecord]
    exact ⟨rfl, fun _ h => h, fun _ => ⟨fun _ h => h, .inl rfl⟩, List.prefix_append _ _,
      fun hnot => absurd hmay hnot, rfl, fun _ h => h, id, fun _ => rfl⟩
  | phaseStopped helperDelivered phase stopped hkind hstopped =>
    obtain ⟨hexited, -, hhandles, hdelivered, hpending, hcancel, hgeneration⟩ :=
      stoppedEvent_changes row helperDelivered phase stopped
    refine .plain ?_ (.inr ?_) ?_ ?_ ?_ ?_
    · simp only [Record.applyAll, Record.apply, hhandles, Option.getD_none, implies_true]
    · simp only [Record.applyAll, Record.apply, hexited, Option.getD_some]
      rfl
    · simp only [Record.applyAll, Record.apply, hdelivered, Option.getD_none]
    · simp only [Record.applyAll, Record.apply, hgeneration, Option.getD_none]
    · simp only [Record.applyAll, Record.apply, hpending, Option.getD_none, imp_self, implies_true]
    · simp only [Record.applyAll, Record.apply, hcancel, Option.getD_none]
  | startBlocked stale hidle hopen hkey hstart hcancelled =>
    obtain ⟨⟨phase, hphase, hrunning, -⟩, hhandles, hdelivered, hpending, hcancel, hgeneration⟩ := blockedStart_changes stale
    refine .plain ?_ (.inr ?_) ?_ ?_ ?_ ?_
    · simp only [Record.applyAll, Record.apply, hhandles, Option.getD_none, implies_true]
    · simp only [Record.applyAll, Record.apply, hphase, Option.getD_some]
      exact hrunning
    · simp only [Record.applyAll, Record.apply, hdelivered, Option.getD_none]
    · simp only [Record.applyAll, Record.apply, hgeneration, Option.getD_none]
    · simp only [Record.applyAll, Record.apply, hpending, Option.getD_none, imp_self, implies_true]
    · simp only [Record.applyAll, Record.apply, hcancel, Option.getD_none]
  | exhausted proof outcome certain gaps hopen hactive hby hcertain => exact .plain (fun _ => Iff.rfl) (.inr rfl) rfl rfl (fun _ h => h) rfl
  | evidenceUncertain proof gaps hexit hshown hphase => exact .plain (fun _ => Iff.rfl) (.inr rfl) rfl rfl (fun _ h => h) rfl
  | evidenceExit proof outcome hexit hshown hphase hbusiness => exact .plain (fun _ => Iff.rfl) (.inr rfl) rfl rfl (fun _ h => h) rfl
  | exit proof hexit hshown hopen hphase => exact .plain (fun _ => Iff.rfl) (.inr rfl) rfl rfl (fun _ h => h) rfl
  | exitFrozen proof frozen hexit hshown hopen hphase hcancel => exact .plain (fun _ => Iff.rfl) (.inr rfl) rfl rfl (fun _ h => h) rfl
  | preflightStopped proof hstopped gaps => exact .plain (fun _ => Iff.rfl) (.inr rfl) rfl rfl (fun _ h => h) rfl
  | recovered proof hjob hexit hshown hable => exact .plain (fun _ => Iff.rfl) (.inr rfl) rfl rfl (fun _ h => h) rfl
  | _ => exact .plain (fun _ => Iff.rfl) (.inl rfl) rfl rfl (fun _ h => h) rfl

/-- Every row is there after an effect, and later. -/
theorem Effect.later (h : Effect site m g key l l') (hget : l.get k = some row) :
    ∃ row', l'.get k = some row' ∧ Later g row row' := by
  cases h with
  | write hfound hwrite =>
    by_cases hkey : k = key
    · subst hkey
      rw [hget, Option.some.injEq] at hfound
      subst hfound
      exact ⟨_, Ledger.get_writes_self hget, hwrite.later _⟩
    · exact ⟨row, (Ledger.get_writes_other hkey).trans hget, .refl g row⟩
  | grow leases hkept => exact ⟨row, hget, .refl g row⟩
  | release hkey hlive hidle hrelease =>
    obtain ⟨leases, rfl⟩ := release_ledger hrelease
    exact ⟨row, hget, .refl g row⟩
  | releaseStopped hfound hjob hround hstopped hrelease =>
    obtain ⟨leases, rfl⟩ := releaseStopped_ledger hrelease
    exact ⟨row, hget, .refl g row⟩
  | admitted added leases scopes policy quota hkey hrecord hnone hparent hopen hbytes hkept =>
    exact ⟨row, get_admitted leases _ hkey hnone hget, .refl g row⟩

theorem Moves.later (h : Moves site m g l l') (hget : l.get k = some row) :
    ∃ row', l'.get k = some row' ∧ Later g row row' := by
  induction h with
  | refl => exact ⟨row, hget, .refl g row⟩
  | tail _ hmove ih =>
    obtain ⟨row1, hget1, hlater⟩ := ih
    cases hmove with
    | effect key heffect =>
      obtain ⟨row2, hget2, hlater'⟩ := heffect.later hget1
      exact ⟨row2, hget2, hlater.trans hlater'⟩
    | revoked hmay revoked => exact ⟨row1, hget1, hlater⟩

/-- Rows come from admissions only, with no delivery and the generation of the day. -/
theorem Effect.before (h : Effect site m g key l l') (hnone : l.get k = none) (hget : l'.get k = some row') :
    row'.record.deliveryIntents = [] ∧ row'.record.generation.2 = l.generation := by
  cases h with
  | write hfound hwrite =>
    by_cases hkey : k = key
    · rw [hkey, hfound] at hnone
      cases hnone
    · rw [Ledger.get_writes_other hkey, hnone] at hget
      cases hget
  | grow leases hkept => exact absurd (hnone.symm.trans hget) (by simp)
  | release hkey hlive hidle hrelease =>
    obtain ⟨leases, rfl⟩ := release_ledger hrelease
    exact absurd (hnone.symm.trans hget) (by simp)
  | releaseStopped hfound hjob hround hstopped hrelease =>
    obtain ⟨leases, rfl⟩ := releaseStopped_ledger hrelease
    exact absurd (hnone.symm.trans hget) (by simp)
  | admitted added leases scopes policy quota hkey hrecord hfresh hparent hopen hbytes hkept =>
    have hmem := Ledger.get_mem hget
    rw [admitted_rows leases _ hkey hfresh, List.mem_append, List.mem_singleton] at hmem
    rcases hmem with hold | heq
    · exact absurd (Ledger.get_key hget) (by simpa using List.find?_eq_none.mp hnone row' hold)
    · rw [heq, hrecord]
      exact ⟨rfl, rfl⟩

/-- Unless a stage is delivered, the intents of a row are an earlier row's. -/
theorem Moves.before (h : Moves site m g l l') (hdelivers : ¬ g.delivers) (hget : l'.get k = some row') :
    (∃ row, l.get k = some row ∧ Later g row row') ∨ row'.record.deliveryIntents = [] := by
  induction h generalizing row' with
  | refl => exact .inl ⟨row', hget, .refl g row'⟩
  | @tail l1 l2 _ hmove ih =>
    cases hmove with
    | revoked hmay revoked => exact ih hget
    | effect key heffect =>
      cases hold : l1.get k with
      | none => exact .inr (heffect.before hold hget).1
      | some row1 =>
        obtain ⟨row2, hget2, hlater⟩ := heffect.later hold
        rw [hget, Option.some.injEq] at hget2
        subst hget2
        rcases ih hold with ⟨row, hrow, hearlier⟩ | hempty
        · exact .inl ⟨row, hrow, hearlier.trans hlater⟩
        · exact .inr ((hlater.undelivered hdelivers).trans hempty)

/-- A transaction on one row leaves every other row as it is. -/
theorem Effects.other (h : Effects site m g key l l') (hne : k ≠ key) (hget : l.get k = some row) :
    l'.get k = some row := by
  induction h with
  | refl => exact hget
  | tail _ heffect ih =>
    cases heffect with
    | write hfound hwrite => exact (Ledger.get_writes_other hne).trans ih
    | grow leases hkept => exact ih
    | release hkey hlive hidle hrelease =>
      obtain ⟨leases, rfl⟩ := release_ledger hrelease
      exact ih
    | releaseStopped hfound hjob hround hstopped hrelease =>
      obtain ⟨leases, rfl⟩ := releaseStopped_ledger hrelease
      exact ih
    | admitted added leases scopes policy quota hkey hrecord hnone hparent hopen hbytes hkept =>
      exact get_admitted leases _ hkey hnone ih

theorem Effect.generation (h : Effect site m g key l l') : l'.generation = l.generation := by
  cases h with
  | write hfound hwrite => exact Ledger.writes_generation
  | grow leases hkept => rfl
  | release hkey hlive hidle hrelease =>
    obtain ⟨leases, rfl⟩ := release_ledger hrelease
    rfl
  | releaseStopped hfound hjob hround hstopped hrelease =>
    obtain ⟨leases, rfl⟩ := releaseStopped_ledger hrelease
    rfl
  | admitted added leases scopes policy quota hkey hrecord hnone hparent hopen hbytes hkept =>
    exact Ledger.writes_generation

/-- The generation counter only moves where a row may be withdrawn. -/
theorem Moves.generation (h : Moves site m g l l') :
    l.generation ≤ l'.generation ∧ (¬ g.withdraws → l'.generation = l.generation) := by
  induction h with
  | refl => exact ⟨le_rfl, fun _ => rfl⟩
  | tail _ hmove ih =>
    cases hmove with
    | effect key heffect => rw [heffect.generation]; exact ih
    | revoked hmay revoked =>
      refine ⟨?_, fun hnot => absurd hmay hnot⟩
      have := ih.1
      show _ ≤ _ + 1
      omega

/-- No row was admitted under a later generation than the ledger's. -/
def Ledger.Dated (l : Ledger) : Prop := ∀ k row, l.get k = some row → row.record.generation.2 ≤ l.generation

theorem Moves.dated (h : Moves site m g l l') (hdated : l.Dated) : l'.Dated := by
  induction h with
  | refl => exact hdated
  | @tail l1 l2 _ hmove ih =>
    intro k row' hget
    cases hmove with
    | revoked hmay revoked =>
      have := ih k row' hget
      show _ ≤ _ + 1
      omega
    | effect key heffect =>
      rw [heffect.generation]
      cases hold : l1.get k with
      | none => exact (heffect.before hold hget).2.le
      | some row1 =>
        obtain ⟨row2, hget2, hlater⟩ := heffect.later hold
        rw [hget, Option.some.injEq] at hget2
        subst hget2
        rw [hlater.generation]
        exact ih k row1 hold

end LocalHand.Broker
