/-
What the ledger holds after every effect: distinct keys, a parent for every
round, sound rows, and the leases of every execution that may still run. A
release gives an owner's leases up, so it is where the rest of the family counts.
-/
import LocalHand.Broker.Rows

namespace LocalHand.Broker

open Relation (ReflTransGen)

/-- The row's resources are leased to its operation, under the epoch it was admitted with. -/
def Held (site : Site) (l : Ledger) (row : Row) : Prop :=
  ∃ parent, l.get ⟨.job, row.parent⟩ = some parent ∧
    assertOwned site.aliases l.leases row.parent parent.request.expected.deploymentEpoch row.plan.resourceIds = .ok ()

structure Ledger.Sound (site : Site) (exited : ExecId → Prop) (l : Ledger) : Prop where
  nodup : (l.rows.map Row.key).Nodup
  rooted : ∀ row ∈ l.rows, row.ns = .job → row.parent = row.id
  parented : ∀ row ∈ l.rows, ∃ parent, l.get ⟨.job, row.parent⟩ = some parent
  rows : ∀ row ∈ l.rows, RowSound exited row
  held : ∀ row ∈ l.rows, ∀ phase ∈ row.record.handles.keys, ¬ exited (row.key.exec phase) → Held site l row

variable {site : Site} {m : Mem} {g : Grounds} {l l' : Ledger} {key k : Key} {row : Row} {exited : ExecId → Prop}

/-- An empty ledger is sound. -/
theorem Ledger.Sound.created (site : Site) (exited : ExecId → Prop) : Ledger.created.Sound site exited where
  nodup := List.nodup_nil
  rooted _ h := by cases h
  parented _ h := by cases h
  rows _ h := by cases h
  held _ h := by cases h

theorem RowSound.mono {exited' : ExecId → Prop} (h : RowSound exited row) (himp : ∀ exec, exited exec → exited' exec) :
    RowSound exited' row where
  phases := h.phases
  earlier phase hmem := (h.earlier phase hmem).imp id (himp _)
  finished hterminal := ⟨fun phase hmem => himp _ ((h.finished hterminal).1 phase hmem), (h.finished hterminal).2⟩
  proved hproved phase hmem := himp _ (h.proved hproved phase hmem)
  waiting := h.waiting
  current := h.current
  pending phase hsome hrunning := (h.pending phase hsome hrunning).imp id (himp _)
  awaiting := h.awaiting
  delivered := h.delivered
  staged := h.staged

theorem Ledger.Sound.mono {exited' : ExecId → Prop} (h : l.Sound site exited)
    (himp : ∀ exec, exited exec → exited' exec) : l.Sound site exited' where
  nodup := h.nodup
  rooted := h.rooted
  parented := h.parented
  rows row hrow := (h.rows row hrow).mono himp
  held row hrow phase hmem hnot := h.held row hrow phase hmem fun hexited => hnot (himp _ hexited)

/-- A phase with a handle had one before, or is started by the write. -/
theorem Write.handle {es : List (Kind × Changes)} (hwrite : Write site m g l row es) (seq : Nat) {phase : Phase}
    (hmem : phase ∈ (row.record.applyAll es seq).handles.keys) :
    phase ∈ row.record.handles.keys ∨ Ready site g l row phase := by
  cases hwrite with
  | intent phase' state allocated hready =>
    rcases mem_keys_insert.mp hmem with heq | hold
    · rw [heq]
      exact .inr hready
    · exact .inl hold
  | enqueued phase' handle hphase => exact .inl ((mem_keys_replace hphase phase).mp hmem)
  | identified handle hphase => exact .inl ((mem_keys_replace hphase phase).mp hmem)
  | delivered d before hmay hable hbefore =>
    obtain ⟨seq', observed, hrecord⟩ := hbefore.applied (row.record.deliveryIntents ++ [d]) seq
    rw [hrecord] at hmem
    exact .inl hmem
  | phaseStopped helperDelivered phase' stopped hkind hstopped =>
    obtain ⟨-, -, hhandles, -⟩ := stoppedEvent_changes row helperDelivered phase' stopped
    simp only [Record.applyAll, Record.apply, hhandles, Option.getD_none] at hmem
    exact .inl hmem
  | startBlocked stale hidle hopen hkey hstart hcancel =>
    obtain ⟨-, hhandles, -⟩ := blockedStart_changes stale
    simp only [Record.applyAll, Record.apply, hhandles, Option.getD_none] at hmem
    exact .inl hmem
  | _ => exact .inl hmem

/-! ## Writes -/

/-- A row after a write is a row before it, with its record changed if it is the one written. -/
theorem mem_writes {es : List (Kind × Changes)} {row' : Row} (h : row' ∈ (l.writes key es).rows) :
    ∃ row ∈ l.rows, row' = if row.key = key then { row with record := row.record.applyAll es l.nextSeq } else row := by
  rw [Ledger.writes_rows, List.mem_map] at h
  obtain ⟨row, hrow, heq⟩ := h
  exact ⟨row, hrow, heq.symm⟩

/-- What a row is admitted with stays as it is. -/
theorem get_writes (key : Key) (es : List (Kind × Changes)) {found : Row} (h : l.get k = some found) :
    ∃ found', (l.writes key es).get k = some found' ∧ found'.parent = found.parent ∧ found'.request = found.request ∧
      found'.plan = found.plan := by
  by_cases hkey : k = key
  · subst hkey
    exact ⟨_, Ledger.get_writes_self h, rfl, rfl, rfl⟩
  · exact ⟨found, (Ledger.get_writes_other hkey).trans h, rfl, rfl, rfl⟩

theorem Held.writes {es : List (Kind × Changes)} (h : Held site l row) : Held site (l.writes key es) row := by
  obtain ⟨parent, hparent, howned⟩ := h
  obtain ⟨parent', hparent', -, hrequest, -⟩ := get_writes key es hparent
  exact ⟨parent', hparent', by rw [hrequest, Ledger.writes_leases]; exact howned⟩

theorem Held.leases {leases : Leases} (h : Held site l row)
    (hkept : ∀ resource held, l.leases.holder resource = some held → leases.holder resource = some held) :
    Held site { l with leases } row := by
  obtain ⟨parent, hparent, howned⟩ := h
  exact ⟨parent, hparent, assertOwned_mono hkept howned⟩

/-- A row ready to start a phase holds its resources. -/
theorem Ready.held {phase : Phase} (h : Ready site g l row phase) (hget : l.get row.key = some row)
    (hjob : row.ns = .job → row.parent = row.id) : Held site l row := by
  obtain ⟨parent, hparent, howned⟩ := h.owned
  refine ⟨parent, ?_, howned⟩
  cases hns : row.ns with
  | job =>
    simp only [parentRow, hns, Except.ok.injEq] at hparent
    subst hparent
    have hkey : row.key = ⟨.job, row.parent⟩ := by rw [Row.key, hns, hjob hns]
    rw [← hkey]
    exact hget
  | reconcile =>
    simp only [parentRow, hns, Ledger.row_ok] at hparent
    exact hparent

theorem Ledger.Sound.write {es : List (Kind × Changes)} (h : l.Sound site g.exited) (hget : l.get row.key = some row)
    (hwrite : Write site m g l row es) : (l.writes row.key es).Sound site g.exited where
  nodup := by
    rw [Ledger.writes_rows, List.map_map]
    have hkeys : Row.key ∘ (fun other => if other.key = row.key then
        { other with record := other.record.applyAll es l.nextSeq } else other) = Row.key := by
      funext other
      simp only [Function.comp]
      split <;> rfl
    rw [hkeys]
    exact h.nodup
  rooted row' hrow' := by
    obtain ⟨old, hold, rfl⟩ := mem_writes hrow'
    split
    · exact h.rooted old hold
    · exact h.rooted old hold
  parented row' hrow' := by
    obtain ⟨old, hold, rfl⟩ := mem_writes hrow'
    obtain ⟨parent, hparent⟩ := h.parented old hold
    obtain ⟨parent', hparent', -⟩ := get_writes row.key es hparent
    refine ⟨parent', ?_⟩
    split
    · exact hparent'
    · exact hparent'
  rows row' hrow' := by
    obtain ⟨old, hold, rfl⟩ := mem_writes hrow'
    split
    · next hkey =>
      have heq := Ledger.get_of_mem h.nodup hold
      rw [hkey, hget, Option.some.injEq] at heq
      subst heq
      exact (h.rows row hold).write hwrite l.nextSeq
    · exact h.rows old hold
  held row' hrow' := by
    obtain ⟨old, hold, rfl⟩ := mem_writes hrow'
    split
    · next hkey =>
      have heq := Ledger.get_of_mem h.nodup hold
      rw [hkey, hget, Option.some.injEq] at heq
      subst heq
      intro phase hmem hnot
      have hbefore : Held site l row := by
        rcases hwrite.handle l.nextSeq hmem with hold' | hready
        · exact h.held row hold phase hold' hnot
        · exact hready.held hget (h.rooted row hold)
      exact hbefore.writes
    · exact fun phase hmem hnot => (h.held old hold phase hmem hnot).writes

/-! ## Releases -/

/-- A release by the operation keeps every lease of a row of another one. -/
theorem Held.release {owner : String} {blocked exited' checked : Bool} {leases : Leases} (h : Held site l row)
    (hne : row.parent ≠ owner) (hrelease : LocalHand.release l.leases owner blocked exited' checked = .ok leases) :
    Held site { l with leases } row := by
  obtain ⟨parent, hparent, howned⟩ := h
  refine ⟨parent, hparent, ?_⟩
  simp only [assertOwned, bind_ok, require_ok, List.all_eq_true, decide_eq_true_eq] at howned ⊢
  obtain ⟨names, hnames, hheld⟩ := howned
  exact ⟨names, hnames, fun name hname => release_holder hrelease hne (hheld name hname)⟩

/-- Leases may be given up for an operation none of whose rows is under way. -/
theorem Ledger.Sound.released {owner : String} {blocked exited' checked : Bool} {leases : Leases}
    (h : l.Sound site exited) (hfamily : ∀ row ∈ l.rows, row.parent = owner → AllExited exited row)
    (hrelease : LocalHand.release l.leases owner blocked exited' checked = .ok leases) :
    Ledger.Sound site exited { l with leases } where
  nodup := h.nodup
  rooted := h.rooted
  parented := h.parented
  rows := h.rows
  held row hrow phase hmem hnot := by
    by_cases hparent : row.parent = owner
    · exact absurd (hfamily row hrow hparent phase hmem) hnot
    · exact (h.held row hrow phase hmem hnot).release hparent hrelease

/-- A job of the operation is the one the operation is named after. -/
theorem Ledger.Sound.job_key (h : l.Sound site exited) (hrow : row ∈ l.rows) (hns : row.ns = .job) {owner : String}
    (hparent : row.parent = owner) : row.key = ⟨.job, owner⟩ := by
  rw [Row.key, hns, ← h.rooted row hrow hns, hparent]

/-- Where `_release` does not keep the leases, no other row of the family is under way. -/
theorem Ledger.Sound.family_exited {caller : Row} (h : l.Sound site exited) (hretains : retains l caller = .ok false)
    {live : Row} (hlive : l.get caller.key = some live) (hsame : live.parent = caller.parent)
    (hidle : Phase.running live.record.phase = false) :
    ∀ row ∈ l.rows, row.parent = caller.parent → AllExited exited row := by
  intro row hrow hparent
  simp only [retains, bind_ok] at hretains
  obtain ⟨quota, -, hretains⟩ := hretains
  split at hretains
  · simp only [pure, Except.pure, Except.ok.injEq] at hretains
    cases hretains
  · next hround =>
    simp only [Bool.or_eq_true, not_or, Bool.not_eq_true] at hround
    by_cases hkey : row.key = caller.key
    · have heq := Ledger.get_of_mem h.nodup hrow
      rw [hkey, hlive, Option.some.injEq] at heq
      subst heq
      exact (h.rows live hrow).of_idle hidle
    · cases hns : row.ns with
      | reconcile =>
        have hother := List.any_eq_false.mp hround.2 row hrow
        have hterminal : row.record.lifecycle = .terminal := by
          by_contra hopen
          exact hother (by simp [hns, hparent, hkey, hopen])
        exact ((h.rows row hrow).finished hterminal).1
      | job =>
        have hrowkey := h.job_key hrow hns hparent
        cases hcaller : caller.ns with
        | job =>
          have hlivekey : live.key = caller.key := Ledger.get_key hlive
          have hlivens : live.ns = .job := (congrArg Key.ns hlivekey).trans hcaller
          rw [← hlivekey, h.job_key (Ledger.get_mem hlive) hlivens hsame] at hkey
          exact absurd hrowkey hkey
        | reconcile =>
          simp only [parentRetains, hcaller, bind_ok, Ledger.row_ok, pure, Except.pure, Except.ok.injEq,
            Bool.or_eq_false_iff, decide_eq_false_iff_not, Bool.not_eq_false'] at hretains
          obtain ⟨parent, hget, hquiet⟩ := hretains
          have heq := Ledger.get_of_mem h.nodup hrow
          rw [hrowkey, hget, Option.some.injEq] at heq
          subst heq
          refine (h.rows parent hrow).proved ?_
          obtain ⟨proof, hproof, hcertain⟩ := (Option.any_eq_true _ _).mp hquiet.2
          rw [exitedProof, hproof, Option.any_some]
          exact Proof.certain_exited hcertain

theorem Ledger.Sound.release {caller : Row} {proof : Proof} (h : l.Sound site exited) (hkey : caller.key = key)
    (hlive : ∃ live, l.get key = some live ∧ live.parent = caller.parent) (hidle : Idle l key)
    (hrelease : Broker.release l caller proof = .ok l') : l'.Sound site exited := by
  subst hkey
  simp only [Broker.release, bind_ok] at hrelease
  obtain ⟨retained, hretains, hrelease⟩ := hrelease
  cases retained with
  | true =>
    simp only [if_true, pure, Except.pure, Except.ok.injEq] at hrelease
    rw [← hrelease]
    exact h
  | false =>
    simp only [Bool.false_eq_true, if_false, bind_ok, pure, Except.pure, Except.ok.injEq] at hrelease
    obtain ⟨leases, hleases, rfl⟩ := hrelease
    obtain ⟨live, hget, hparent⟩ := hlive
    obtain ⟨live', hget', hidle⟩ := hidle
    rw [hget, Option.some.injEq] at hget'
    subst hget'
    exact h.released (h.family_exited hretains hget hparent hidle) hleases

theorem Ledger.Sound.releaseStopped (h : l.Sound site exited) (hget : l.get row.key = some row) (hjob : row.ns = .job)
    (hround : roundOpen l row.id = false)
    (hstopped : row.record.phase = .exited ∨ (row.record.quotaPending.lookup row.record.phase).isSome = true)
    (hrelease : Broker.releaseStopped site l row = .ok l') : l'.Sound site exited := by
  have hrow := Ledger.get_mem hget
  simp only [Broker.releaseStopped, bind_ok, exists_unit, pure, Except.pure, Except.ok.injEq] at hrelease
  obtain ⟨-, leases, hleases, rfl⟩ := hrelease
  refine h.released (fun other hother hparent => ?_) hleases
  cases hns : other.ns with
  | job =>
    have hkey := h.job_key hother hns hparent
    have heq := Ledger.get_of_mem h.nodup hother
    rw [hkey, show (⟨.job, row.id⟩ : Key) = row.key by rw [Row.key, hjob], hget, Option.some.injEq] at heq
    subst heq
    rcases hstopped with hexited | hpending
    · exact (h.rows row hrow).of_idle (by rw [hexited]; rfl)
    · exact (h.rows row hrow).of_pending (.inl rfl) hpending
  | reconcile =>
    refine ((h.rows other hother).finished ?_).1
    by_contra hopen
    exact List.any_eq_false.mp hround other hother (by simp [hns, hparent, hopen])

/-! ## Admission -/

/-- A row as it is admitted. -/
theorem RowSound.admitted (hrecord : row.record = Record.accepted) (scopes : List String) (generation : Int × Int)
    (quota : Option Int) (c : Changes) (seq : Nat)
    (hc : c = { principalScopes := some scopes, generation := some generation, handles := some ∅
                quotaBindingVersion := quota }) (kind : Kind) :
    RowSound exited { row with record := row.record.applyAll [(.accepted, {}), (kind, c)] seq } := by
  subst hc
  rw [hrecord]
  exact
    { phases := fun _ h => by cases h
      earlier := fun _ h => by cases h
      finished := fun h => by cases h
      proved := fun h => by cases h
      waiting := fun _ => rfl
      current := fun h => by cases h
      pending := fun _ h => by cases h
      awaiting := fun h => by cases h
      delivered := fun _ h => by cases h
      staged := .nil }

/-- The rows after an admission: the old ones, and the new one bound to its admission. -/
theorem admitted_rows (leases : Leases) (es : List (Kind × Changes)) (hkey : row.key = key) (hnone : l.get key = none) :
    (Ledger.writes { l with leases, rows := l.rows ++ [row] } key es).rows =
      l.rows ++ [{ row with record := row.record.applyAll es l.nextSeq }] := by
  rw [Ledger.writes_rows, List.map_append, List.map_singleton, if_pos hkey]
  congr 1
  have hold : ∀ old ∈ l.rows, old.key ≠ key := fun old hold heq =>
    List.find?_eq_none.mp hnone old hold (by simpa using heq)
  rw [List.map_congr_left fun old hmem => if_neg (hold old hmem), List.map_id']

theorem get_admitted (leases : Leases) (es : List (Kind × Changes)) {found : Row} (hkey : row.key = key)
    (hnone : l.get key = none) (h : l.get k = some found) :
    (Ledger.writes { l with leases, rows := l.rows ++ [row] } key es).get k = some found := by
  unfold Ledger.get at h ⊢
  rw [admitted_rows leases es hkey hnone, List.find?_append, h]
  rfl

theorem Ledger.Sound.admitted {leases : Leases} {es : List (Kind × Changes)} (h : l.Sound site exited)
    (hkey : row.key = key) (hnone : l.get key = none) (hparent : Admissible l key row.parent)
    (hkept : ∀ resource held, l.leases.holder resource = some held → leases.holder resource = some held)
    (hsound : RowSound exited { row with record := row.record.applyAll es l.nextSeq })
    (hhandles : (row.record.applyAll es l.nextSeq).handles.keys = []) :
    (Ledger.writes { l with leases, rows := l.rows ++ [row] } key es).Sound site exited := by
  have hrows := admitted_rows leases es hkey hnone
  have hold : ∀ {old}, old ∈ l.rows → Held site l old →
      Held site (Ledger.writes { l with leases, rows := l.rows ++ [row] } key es) old := by
    intro old _ hheld
    obtain ⟨parent, hget, howned⟩ := hheld.leases hkept
    exact ⟨parent, get_admitted leases es hkey hnone hget, by rw [Ledger.writes_leases]; exact howned⟩
  constructor
  · rw [hrows, List.map_append, List.map_singleton]
    refine List.nodup_append.mpr ⟨h.nodup, List.nodup_singleton _, fun other hother other' hother' heq => ?_⟩
    obtain ⟨old, hmem, rfl⟩ := List.mem_map.mp hother
    rw [List.mem_singleton.mp hother'] at heq
    exact List.find?_eq_none.mp hnone old hmem (by simpa using heq.trans hkey)
  · intro other hother hjob
    rw [hrows, List.mem_append, List.mem_singleton] at hother
    rcases hother with hother | rfl
    · exact h.rooted other hother hjob
    · have hjob : row.ns = .job := hjob
      subst hkey
      simp only [Admissible, Row.key, hjob] at hparent
      exact hparent
  · intro other hother
    rw [hrows, List.mem_append, List.mem_singleton] at hother
    rcases hother with hother | rfl
    · obtain ⟨parent, hget⟩ := h.parented other hother
      exact ⟨parent, get_admitted leases es hkey hnone hget⟩
    · subst hkey
      cases hns : row.ns with
      | job =>
        simp only [Admissible, Row.key, hns] at hparent
        have hself : (⟨.job, row.parent⟩ : Key) = row.key := by rw [Row.key, hns, hparent]
        refine ⟨{ row with record := row.record.applyAll es l.nextSeq }, ?_⟩
        show Ledger.get _ ⟨.job, row.parent⟩ = _
        unfold Ledger.get at hnone ⊢
        rw [hrows, hself, List.find?_append, hnone, Option.none_or]
        simp [Row.key]
      | reconcile =>
        simp only [Admissible, Row.key, hns] at hparent
        obtain ⟨parent, hget, -⟩ := hparent
        exact ⟨parent, get_admitted leases es rfl hnone hget⟩
  · intro other hother
    rw [hrows, List.mem_append, List.mem_singleton] at hother
    rcases hother with hother | rfl
    · exact h.rows other hother
    · exact hsound
  · intro other hother phase hmem hnot
    rw [hrows, List.mem_append, List.mem_singleton] at hother
    rcases hother with hother | rfl
    · exact hold hother (h.held other hother phase hmem hnot)
    · have hmem : phase ∈ (row.record.applyAll es l.nextSeq).handles.keys := hmem
      rw [hhandles] at hmem
      cases hmem

/-- Every effect keeps the ledger sound. -/
theorem Ledger.Sound.effect (h : l.Sound site g.exited) (heffect : Effect site m g key l l') :
    l'.Sound site g.exited := by
  cases heffect with
  | write hget hwrite =>
    have hkey := Ledger.get_key hget
    subst hkey
    exact h.write hget hwrite
  | grow leases hkept =>
    exact { h with held := fun row hrow phase hmem hnot => (h.held row hrow phase hmem hnot).leases hkept }
  | release hkey hlive hidle hrelease => exact h.release hkey hlive hidle hrelease
  | releaseStopped hget hjob hround hstopped hrelease =>
    have hkey := Ledger.get_key hget
    subst hkey
    exact h.releaseStopped hget hjob hround hstopped hrelease
  | admitted row leases scopes policy quota hkey hrecord hnone hparent hopen hbytes hkept =>
    refine h.admitted hkey hnone hparent hkept (.admitted hrecord scopes (policy, l.generation) _ _ _ rfl _) ?_
    rw [hrecord]
    rfl

theorem Ledger.Sound.moves (h : l.Sound site g.exited) (hmoves : Moves site m g l l') : l'.Sound site g.exited := by
  induction hmoves with
  | refl => exact h
  | tail _ hmove ih =>
    cases hmove with
    | effect key heffect => exact ih.effect heffect
    | revoked _ revoked => exact { ih with }

end LocalHand.Broker
