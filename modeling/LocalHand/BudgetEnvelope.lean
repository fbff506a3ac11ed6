/-
The envelope over a whole operation: whatever the clock reads and however the
record moves in between, the stored state stays one `_validate_state` accepts,
and reservations only add up.
-/
import LocalHand.Budget
import LocalHand.Lib.Run
import Mathlib.Tactic.Linarith

namespace LocalHand.Budget

open Machine

/-! ## What a valid grant says -/

variable {sha256 : Limits → String}

theorem validateLimits_ok {limits : Limits} (h : validateLimits limits = .ok ()) :
    (∀ value ∈ limits.values, 1 ≤ value ∧ value ≤ maxSafeInteger) ∧ 0 ≤ limits.nasBytes := by
  simp only [validateLimits, require_ok, Bool.and_eq_true, List.all_eq_true, decide_eq_true_eq] at h
  exact ⟨h.1.1, h.1.2⟩

theorem validLimits_pos {limits : Limits} (h : validateLimits limits = .ok ()) :
    1 ≤ limits.wallSeconds ∧ 1 ≤ limits.terminateGraceSeconds ∧ 1 ≤ limits.cpuSeconds ∧
      1 ≤ limits.logBytes := by
  have hv := (validateLimits_ok h).1
  exact ⟨(hv _ (by simp [Limits.values])).1, (hv _ (by simp [Limits.values])).1,
    (hv _ (by simp [Limits.values])).1, (hv _ (by simp [Limits.values])).1⟩

theorem validateGrant_shape {grant : Grant} {expected : Expected}
    (h : validateGrant sha256 grant expected = .ok ()) : validateGrantShape grant = .ok () := by
  simp only [validateGrant, bind_ok] at h
  exact h.choose_spec.1

theorem validGrantShape_facts {grant : Grant} (h : validateGrantShape grant = .ok ()) :
    grant.executionId = ⟨grant.ns, grant.recordId, grant.phase⟩ ∧
      grant.startedBoottimeNs ≤ grant.reservedBoottimeNs ∧
      grant.reservedBoottimeNs < grant.deadlineBoottimeNs ∧
      validateLimits grant.limits = .ok () ∧
      grant.limits.terminateGraceSeconds < grant.limits.wallSeconds := by
  simp only [validateGrantShape, bind_ok, require_ok, exists_const, Bool.and_eq_true,
    decide_eq_true_eq] at h
  obtain ⟨-, -, -, ⟨hexec, -⟩, -, -, ⟨hstart, hend⟩, _, hlimits, hgrace⟩ := h
  exact ⟨hexec, hstart, hend, hlimits, hgrace⟩

/-! ## What a valid state says -/

theorem forall_entries {α : Type} {m : AList fun _ : Phase => α} {p : Phase → α → Prop} :
    (∀ e ∈ m.entries, p e.1 e.2) ↔ ∀ phase value, m.lookup phase = some value → p phase value := by
  constructor
  · exact fun h phase value hl => h ⟨phase, value⟩ (AList.mem_lookup_iff.mp hl)
  · exact fun h e he => h e.1 e.2 (AList.mem_lookup_iff.mpr he)

/-- What `_validate_state` checks of a row and a state. -/
structure Valid (sha256 : Limits → String) (row : Row) (state : State) : Prop where
  budgets : validateLimits row.budgets = .ok ()
  version : state.version = 1
  ns : state.ns = row.ns
  recordId : state.recordId = row.id
  operationId : state.operationId = row.parent
  budgetDigest : state.budgetDigest = sha256 row.budgets
  phases : ∀ phase ∈ state.grants.keys, phase ∈ row.ns.phases
  started : 0 ≤ state.startedBoottimeNs
  boot : uuidText state.bootId = true
  last : state.startedBoottimeNs ≤ state.lastBoottimeNs
  unexpired : state.lastBoottimeNs < state.deadlineBoottimeNs
  deadline : state.deadlineBoottimeNs =
    state.startedBoottimeNs + row.budgets.wallSeconds * nanoseconds
  preparations : ∀ phase prepared, row.quotaPreparations.lookup phase = some prepared →
    row.quotaBindingVersion = some 1 ∧ validatePreparation state phase prepared = .ok ()
  intended : ∀ phase, (state.grants.lookup phase).isSome = (row.intended phase).isSome
  stored : ∀ phase old, state.grants.lookup phase = some old →
    validateStored sha256 row state phase old = .ok ()
  fits : fits state.grants row.budgets = true

theorem mem_allPhases (phase : Phase) : phase ∈ allPhases := by
  cases phase <;> decide

theorem validatePreparations_ok {row : Row} {state : State} :
    validatePreparations row state = .ok () ↔
      ∀ phase prepared, row.quotaPreparations.lookup phase = some prepared →
        row.quotaBindingVersion = some 1 ∧ validatePreparation state phase prepared = .ok () := by
  unfold validatePreparations
  split
  · next hnone =>
    simp only [true_iff]
    intro phase prepared hl
    have := AList.mem_lookup_iff.mp hl
    simp [hnone] at this
  · next hnone =>
    simp only [bind_ok, require_ok, exists_const, decide_eq_true_eq, forM_ok]
    rw [forall_entries (p := fun phase prepared => validatePreparation state phase prepared = .ok ())]
    constructor
    · exact fun h phase prepared hl => ⟨h.1, h.2 phase prepared hl⟩
    · intro h
      obtain ⟨e, es, he⟩ := List.exists_cons_of_ne_nil hnone
      have hl := AList.mem_lookup_iff.mpr (show e ∈ row.quotaPreparations.entries by simp [he])
      exact ⟨(h e.1 e.2 hl).1, fun phase prepared hl => (h phase prepared hl).2⟩

theorem validateState_iff {row : Row} {state : State} :
    validateState sha256 row state = .ok () ↔ Valid sha256 row state := by
  simp only [validateState, bind_ok, require_ok, exists_unit, validatePreparations_ok, forM_ok,
    forall_entries (p := fun phase old => validateStored sha256 row state phase old = .ok ()),
    Bool.and_eq_true, decide_eq_true_eq, List.all_eq_true]
  constructor
  · rintro ⟨h1, ⟨⟨⟨⟨⟨h2, h3⟩, h4⟩, h5⟩, h6⟩, h7⟩, ⟨⟨h8, -⟩, -⟩, ⟨⟨⟨h9, h10⟩, h11⟩, h12⟩, h13, h14, h15,
      h16⟩
    exact ⟨h1, h2, h3, h4, h5, h6, h7, h8, h9, h10, h11, h12, h13,
      fun phase => by simpa using h14 phase (mem_allPhases phase), h15, h16⟩
  · intro h
    have h0 : 0 ≤ state.lastBoottimeNs := h.started.trans h.last
    exact ⟨h.budgets, ⟨⟨⟨⟨⟨h.version, h.ns⟩, h.recordId⟩, h.operationId⟩, h.budgetDigest⟩, h.phases⟩,
      ⟨⟨h.started, h0⟩, h0.trans h.unexpired.le⟩, ⟨⟨⟨h.boot, h.last⟩, h.unexpired⟩, h.deadline⟩,
      h.preparations, fun phase _ => by simpa using h.intended phase, h.stored, h.fits⟩

/-! ## One reservation -/

/-- What a successful reservation read, checked and built. -/
structure Reserved (sha256 : Limits → String) (row : Row) (phase : Phase) (now : Clock)
    (previous : State) (limits : Limits) : Prop where
  named : phase ∈ row.ns.phases
  base : row.executionBudget = some previous ∨
    row.executionBudget = none ∧ firstState sha256 row phase now = .ok previous
  valid : Valid sha256 row previous
  boot : previous.bootId = now.bootId
  clock : previous.lastBoottimeNs ≤ now.boottimeNs
  unreserved : previous.grants.lookup phase = none
  runtime : limits.terminateGraceSeconds * nanoseconds < previous.deadlineBoottimeNs - now.boottimeNs
  share : allocatedLimits row.budgets row.ns = .ok limits
  checked : validateGrant sha256 (previous.newGrant phase now limits)
    { originalBudgets := some row.budgets } = .ok ()
  fits : fits (previous.grants.insert phase (previous.newGrant phase now limits)) row.budgets = true

theorem reserve_ok {row : Row} {phase : Phase} {clock : Except Fault Clock} {state : State}
    {grant : Grant} (h : reserve sha256 row phase clock = .ok (state, grant)) :
    ∃ now previous limits, clock = .ok now ∧ Reserved sha256 row phase now previous limits ∧
      grant = previous.newGrant phase now limits ∧
      state = { previous with
        grants := previous.grants.insert phase grant, lastBoottimeNs := now.boottimeNs } := by
  simp only [reserve, bind_ok, require_ok, exists_unit, pure, Except.pure, Except.ok.injEq,
    Prod.mk.injEq, validateState_iff, Bool.and_eq_true, decide_eq_true_eq, Option.isNone_iff_eq_none] at h
  obtain ⟨hphase, limits, hshare, now, rfl, -, previous, hprev, hvalid, ⟨hboot, hclock⟩, -, hnone,
    hrun, hgrant, hfits, rfl, rfl⟩ := h
  refine ⟨now, previous, limits, rfl, ⟨hphase, ?_, hvalid, hboot, hclock, hnone, hrun, hshare, hgrant,
    hfits⟩, rfl, rfl⟩
  unfold previousState at hprev
  split at hprev
  · next hb => exact .inr ⟨hb, hprev⟩
  · next hb => cases hprev; exact .inl hb

/-- The limits a phase is granted keep the admitted stop grace. -/
theorem allocatedLimits_grace {original limits : Limits} {ns : Namespace}
    (h : allocatedLimits original ns = .ok limits) :
    limits.terminateGraceSeconds = original.terminateGraceSeconds := by
  simp only [allocatedLimits, bind_ok, require_ok, exists_unit, pure, Except.pure, Except.ok.injEq] at h
  obtain ⟨-, -, rfl⟩ := h
  rfl

/-- A new grant under no expectation but the admitted limits meets every expectation its
record's state has. -/
theorem newGrant_stored {row : Row} {phase : Phase} {now : Clock} {previous : State} {limits : Limits}
    (h : Reserved sha256 row phase now previous limits) :
    validateGrant sha256 (previous.newGrant phase now limits) {
      ns := some row.ns
      recordId := some row.id
      operationId := some row.parent
      phase := some phase
      originalBudgets := some row.budgets } = .ok () := by
  have hg := h.checked
  simp only [validateGrant, bind_ok, require_ok, exists_unit, matchesIf] at hg ⊢
  refine ⟨hg.1, ?_, hg.2.2⟩
  simp [State.newGrant, h.valid.ns, h.valid.recordId, h.valid.operationId]

/-- How a committed reservation stands in the record: under an intent or a preparation. -/
structure Commits (row row' : Row) (phase : Phase) (grant : Grant) : Prop where
  ns : row'.ns = row.ns
  id : row'.id = row.id
  parent : row'.parent = row.parent
  budgets : row'.budgets = row.budgets
  version : row'.quotaBindingVersion = row.quotaBindingVersion
  here : row'.intended phase = some (some grant.executionId)
  there : ∀ other, other ≠ phase → row'.intended other = row.intended other
  preparations : ∀ other prepared, row'.quotaPreparations.lookup other = some prepared →
    (row.quotaPreparations.lookup other = some prepared ∧ other ≠ phase) ∨
      (other = phase ∧ row.quotaBindingVersion = some 1 ∧ prepared.phase = phase ∧
        prepared.budget = grant ∧ hexText 32 prepared.session = true)

/-- The state a reservation builds is accepted with the record it is committed to. -/
theorem Reserved.commit {row row' : Row} {phase : Phase} {now : Clock} {previous : State}
    {limits : Limits} (h : Reserved sha256 row phase now previous limits)
    (hc : Commits row row' phase (previous.newGrant phase now limits)) :
    Valid sha256 row' { previous with
      grants := previous.grants.insert phase (previous.newGrant phase now limits)
      lastBoottimeNs := now.boottimeNs } := by
  have hv := h.valid
  have hgrace : 1 ≤ limits.terminateGraceSeconds := by
    rw [allocatedLimits_grace h.share]
    exact (validLimits_pos hv.budgets).2.1
  have hunexpired : now.boottimeNs < previous.deadlineBoottimeNs := by
    have := h.runtime
    simp only [nanoseconds] at this
    omega
  refine ⟨by rw [hc.budgets]; exact hv.budgets, hv.version, by rw [hc.ns]; exact hv.ns,
    by rw [hc.id]; exact hv.recordId, by rw [hc.parent]; exact hv.operationId,
    by rw [hc.budgets]; exact hv.budgetDigest, ?_, hv.started, hv.boot, hv.last.trans h.clock,
    hunexpired, by rw [hc.budgets]; exact hv.deadline, ?_, ?_, ?_, by rw [hc.budgets]; exact h.fits⟩
  · intro other hother
    rw [hc.ns]
    rcases (AList.mem_insert _).mp hother with rfl | hother
    · exact h.named
    · exact hv.phases other hother
  · intro other prepared hl
    simp only [validatePreparation, require_ok, Bool.and_eq_true, decide_eq_true_eq]
    rcases hc.preparations other prepared hl with ⟨hold, hne⟩ | ⟨rfl, hversion, hphase, hbudget, hsession⟩
    · obtain ⟨hversion, hp⟩ := hv.preparations other prepared hold
      simp only [validatePreparation, require_ok, Bool.and_eq_true, decide_eq_true_eq] at hp
      rw [hc.version, AList.lookup_insert_ne hne]
      exact ⟨hversion, hp⟩
    · rw [hc.version, AList.lookup_insert, hbudget]
      exact ⟨hversion, ⟨hphase, rfl⟩, hsession⟩
  · intro other
    by_cases hne : other = phase
    · subst hne
      rw [AList.lookup_insert, hc.here]
      rfl
    · rw [AList.lookup_insert_ne hne, hc.there other hne]
      exact hv.intended other
  · intro other old hl
    by_cases hne : other = phase
    · subst hne
      rw [AList.lookup_insert] at hl
      cases hl
      simp only [validateStored, bind_ok, require_ok, exists_unit, Bool.and_eq_true, decide_eq_true_eq,
        hc.ns, hc.id, hc.parent, hc.budgets, hc.here]
      exact ⟨newGrant_stored h, ⟨⟨⟨rfl, rfl⟩, rfl⟩, le_refl _⟩, trivial⟩
    · rw [AList.lookup_insert_ne hne] at hl
      have hold := hv.stored other old hl
      simp only [validateStored, bind_ok, require_ok, exists_unit, Bool.and_eq_true, decide_eq_true_eq,
        hc.ns, hc.id, hc.parent, hc.budgets, hc.there other hne] at hold ⊢
      obtain ⟨hgrant, ⟨⟨⟨hboot, hstart⟩, hdeadline⟩, hlast⟩, hexec⟩ := hold
      exact ⟨hgrant, ⟨⟨⟨hboot, hstart⟩, hdeadline⟩, hlast.trans h.clock⟩, hexec⟩

/-! ## Runs -/

/-- What a successful reservation is committed with: the phase's execution
intent, or a quota preparation of the broker's session. -/
inductive Commit where
  | intent
  | preparation (session : { text : String // hexText 32 text = true })

/-- The record members the broker moves between reservations. -/
structure Movement where
  phase : Phase
  accepted : Bool
  businessStarted : Option Bool
  helperStarted : Option Bool
  exitProof : Bool
  facts : Bool
  runnerResult : Bool
  businessOutcome : Bool
  frozenSnapshot : Bool

inductive Call where
  | reserve (phase : Phase) (clock : Except Fault Clock) (commit : Commit)
  | intent (phase : Phase)
  | move (movement : Movement)

/-- The record an admission leaves. -/
def Row.admitted (ns : Namespace) (id parent : String) (budgets : Limits)
    (quotaBindingVersion : Option Int) : Row where
  ns := ns
  id := id
  parent := parent
  budgets := budgets
  phase := .queued
  accepted := true
  businessStarted := some false
  helperStarted := some false
  handles := ∅
  executionBudget := none
  quotaBindingVersion := quotaBindingVersion
  quotaPreparations := ∅
  exitProof := false
  facts := false
  runnerResult := false
  businessOutcome := false
  frozenSnapshot := false

/-- `EXECUTION_INTENT`, over the given state. -/
def Row.intend (row : Row) (phase : Phase) (state : Option State) : Row :=
  { row with
    phase := phase
    accepted := false
    exitProof := false
    businessStarted := if phase = .business then none else row.businessStarted
    helperStarted := if row.helperStarted = some true ∨ phase = .business then row.helperStarted else none
    handles := row.handles.insert phase (some ⟨row.ns, row.id, phase⟩)
    executionBudget := state }

/-- `QUOTA_PREPARATION` of a row admitted with quota binding. -/
def Row.prepare (row : Row) (phase : Phase) (state : State) (grant : Grant) (session : String) : Row :=
  { row with
    executionBudget := some state
    quotaPreparations := row.quotaPreparations.insert phase ⟨phase, session, grant⟩ }

def Row.move (row : Row) (m : Movement) : Row :=
  { row with
    phase := m.phase
    accepted := m.accepted
    businessStarted := m.businessStarted
    helperStarted := m.helperStarted
    exitProof := m.exitProof
    facts := m.facts
    runnerResult := m.runnerResult
    businessOutcome := m.businessOutcome
    frozenSnapshot := m.frozenSnapshot }

/-- One transaction of the broker on the row. A failed call commits nothing. -/
def step (sha256 : Limits → String) (row : Row) : Call → Row
  | .reserve phase clock commit =>
    match reserve sha256 row phase clock, commit with
    | .error _, _ => row
    | .ok (state, _), .intent => row.intend phase (some state)
    | .ok (state, grant), .preparation session =>
      if row.quotaBindingVersion = some 1 then row.prepare phase state grant session else row
  | .intent phase =>
    match row.quotaPreparations.lookup phase, row.handles.lookup phase, storedGrant sha256 row phase with
    | some _, none, .ok _ => row.intend phase row.executionBudget
    | _, _, _ => row
  | .move movement => row.move movement

/-- The call is a reservation of the phase, and it is committed. -/
def reserves (sha256 : Limits → String) (phase : Phase) (row : Row) : Call → Bool
  | .reserve other clock commit => other = phase && (reserve sha256 row other clock).toBool
      && (match commit with | .intent => true | .preparation _ => row.quotaBindingVersion = some 1)
  | _ => false

theorem Reserved.commits_intent {row : Row} {phase : Phase} {now : Clock} {previous : State}
    {limits : Limits} (h : Reserved sha256 row phase now previous limits) (state : Option State) :
    Commits row (row.intend phase state) phase (previous.newGrant phase now limits) := by
  have hprepared : row.quotaPreparations.lookup phase = none := by
    have hi := h.valid.intended phase
    rw [h.unreserved] at hi
    unfold Row.intended at hi
    split at hi
    · cases hi
    · simpa using hi.symm
  refine ⟨rfl, rfl, rfl, rfl, rfl, ?_, ?_, ?_⟩
  · simp [Row.intended, Row.intend, State.newGrant, h.valid.ns, h.valid.recordId]
  · intro other hne
    simp [Row.intended, Row.intend, AList.lookup_insert_ne hne]
  · intro other prepared hl
    refine .inl ⟨hl, ?_⟩
    rintro rfl
    rw [show (row.intend other state).quotaPreparations = row.quotaPreparations from rfl, hprepared] at hl
    cases hl

theorem Reserved.commits_prepare {row : Row} {phase : Phase} {now : Clock} {previous : State}
    {limits : Limits} (h : Reserved sha256 row phase now previous limits)
    (hversion : row.quotaBindingVersion = some 1) (state : State)
    (session : { text : String // hexText 32 text = true }) :
    Commits row (row.prepare phase state (previous.newGrant phase now limits) session) phase
      (previous.newGrant phase now limits) := by
  have hhandle : row.handles.lookup phase = none := by
    have hi := h.valid.intended phase
    rw [h.unreserved] at hi
    unfold Row.intended at hi
    split at hi
    · cases hi
    · assumption
  refine ⟨rfl, rfl, rfl, rfl, rfl, ?_, ?_, ?_⟩
  · simp [Row.intended, Row.prepare, hhandle]
  · intro other hne
    simp [Row.intended, Row.prepare, AList.lookup_insert_ne hne]
  · intro other prepared hl
    by_cases hne : other = phase
    · subst hne
      simp only [Row.prepare, AList.lookup_insert, Option.some.injEq] at hl
      subst hl
      exact .inr ⟨rfl, hversion, rfl, rfl, session.2⟩
    · exact .inl ⟨by simpa [Row.prepare, AList.lookup_insert_ne hne] using hl, hne⟩

/-- A prepared phase's own intent changes no reservation. -/
theorem Valid.intend {row : Row} {phase : Phase} {state : State} {prepared : Preparation}
    (h : Valid sha256 row state) (hp : row.quotaPreparations.lookup phase = some prepared)
    (hh : row.handles.lookup phase = none) (state' : Option State) :
    Valid sha256 (row.intend phase state') state := by
  obtain ⟨-, hprep⟩ := h.preparations phase prepared hp
  simp only [validatePreparation, require_ok, Bool.and_eq_true, decide_eq_true_eq] at hprep
  have hstored := h.stored phase _ hprep.1.2
  simp only [validateStored, validateGrant, bind_ok, require_ok, exists_unit, matchesIf,
    Bool.and_eq_true, decide_eq_true_eq] at hstored
  obtain ⟨⟨hshape, ⟨⟨⟨⟨-, hphase⟩, hns⟩, hid⟩, -⟩, -⟩, -⟩ := hstored
  have hexec : prepared.budget.executionId = ⟨row.ns, row.id, phase⟩ := by
    rw [(validGrantShape_facts hshape).1, hns, hid, hphase]
  have hsame : ∀ other, (row.intend phase state').intended other = row.intended other := by
    intro other
    by_cases hne : other = phase
    · subst hne
      simp [Row.intended, Row.intend, hh, hp, hexec]
    · simp [Row.intended, Row.intend, AList.lookup_insert_ne hne]
  refine ⟨h.budgets, h.version, h.ns, h.recordId, h.operationId, h.budgetDigest, h.phases, h.started,
    h.boot, h.last, h.unexpired, h.deadline, h.preparations, ?_, ?_, h.fits⟩
  · intro other
    rw [hsame]
    exact h.intended other
  · intro other old hl
    have hs := h.stored other old hl
    simp only [validateStored, hsame] at hs ⊢
    exact hs

theorem Valid.move {row : Row} {state : State} (h : Valid sha256 row state) (m : Movement) :
    Valid sha256 (row.move m) state :=
  ⟨h.budgets, h.version, h.ns, h.recordId, h.operationId, h.budgetDigest, h.phases, h.started, h.boot,
    h.last, h.unexpired, h.deadline, h.preparations, h.intended, h.stored, h.fits⟩

/-- The stored state, where there is one, is one `_validate_state` accepts. -/
def Kept (sha256 : Limits → String) (row : Row) : Prop :=
  ∀ state, row.executionBudget = some state → Valid sha256 row state

/-- No run moves the deadline or the boot identity, and none takes a grant back. -/
def Extends (row row' : Row) : Prop :=
  ∀ state, row.executionBudget = some state → ∃ state', row'.executionBudget = some state' ∧
    state'.deadlineBoottimeNs = state.deadlineBoottimeNs ∧ state'.bootId = state.bootId ∧
    ∀ phase grant, state.grants.lookup phase = some grant → state'.grants.lookup phase = some grant

theorem Extends.refl (row : Row) : Extends row row :=
  fun state h => ⟨state, h, rfl, rfl, fun _ _ hl => hl⟩

theorem Extends.trans {a b c : Row} (hab : Extends a b) (hbc : Extends b c) : Extends a c := by
  intro state h
  obtain ⟨state', h', hd', hb', hg'⟩ := hab state h
  obtain ⟨state'', h'', hd'', hb'', hg''⟩ := hbc state' h'
  exact ⟨state'', h'', hd''.trans hd', hb''.trans hb', fun phase grant hl => hg'' _ _ (hg' _ _ hl)⟩

/-- A committed reservation extends the row, holds its phase, and leaves more than the stop grace. -/
theorem Reserved.extends {row row' : Row} {phase : Phase} {now : Clock} {previous : State}
    {limits : Limits} (h : Reserved sha256 row phase now previous limits)
    (hb : row'.executionBudget = some { previous with
      grants := previous.grants.insert phase (previous.newGrant phase now limits)
      lastBoottimeNs := now.boottimeNs }) : Extends row row' := by
  intro state hs
  rcases h.base with hp | ⟨hn, -⟩
  · rw [hp] at hs
    cases hs
    refine ⟨_, hb, rfl, rfl, fun other grant hl => ?_⟩
    have hne : other ≠ phase := by
      rintro rfl
      rw [h.unreserved] at hl
      cases hl
    rw [AList.lookup_insert_ne hne]
    exact hl
  · rw [hn] at hs
    cases hs

theorem step_budgets (row : Row) (call : Call) : (step sha256 row call).budgets = row.budgets := by
  cases call with
  | reserve phase clock commit =>
    simp only [step]
    split
    · rfl
    · rfl
    · split <;> rfl
  | intent phase =>
    simp only [step]
    split <;> rfl
  | move movement => rfl

/-- One step: the state stays accepted, and only grows. -/
theorem step_kept (row : Row) (call : Call) (h : Kept sha256 row) :
    Kept sha256 (step sha256 row call) ∧ Extends row (step sha256 row call) := by
  cases call with
  | reserve phase clock commit =>
    simp only [step]
    split
    · exact ⟨h, .refl row⟩
    · next state grant hr =>
      obtain ⟨now, previous, limits, rfl, hres, rfl, rfl⟩ := reserve_ok hr
      refine ⟨?_, hres.extends rfl⟩
      rintro _ ⟨⟩
      exact hres.commit (hres.commits_intent _)
    · next state grant session hr =>
      obtain ⟨now, previous, limits, rfl, hres, rfl, rfl⟩ := reserve_ok hr
      split
      · next hversion =>
        refine ⟨?_, hres.extends rfl⟩
        rintro _ ⟨⟩
        exact hres.commit (hres.commits_prepare hversion _ session)
      · exact ⟨h, .refl row⟩
  | intent phase =>
    simp only [step]
    split
    · next prepared _ hp hh _ =>
      exact ⟨fun state hs => (h state hs).intend hp hh _,
        fun state hs => ⟨state, hs, rfl, rfl, fun _ _ hl => hl⟩⟩
    · exact ⟨h, .refl row⟩
  | move movement =>
    exact ⟨fun state hs => (h state hs).move movement, fun state hs => ⟨state, hs, rfl, rfl, fun _ _ hl => hl⟩⟩

theorem run_kept {row : Row} (calls : List Call) (h : Kept sha256 row) :
    Kept sha256 (exec (step sha256) row calls) :=
  exec_inv (fun row call h => (step_kept row call h).1) h

theorem run_extends {row : Row} (calls : List Call) (h : Kept sha256 row) :
    Extends row (exec (step sha256) row calls) :=
  exec_rel (C := fun _ _ => True) .refl .trans (fun row call h _ => (step_kept row call h).1)
    (fun row call h _ => (step_kept row call h).2) h (Along.of_forall (fun _ _ => trivial) row calls)

/-- The phase has a reservation. -/
def HasGrant (phase : Phase) (row : Row) : Prop :=
  ∃ state, row.executionBudget = some state ∧ (state.grants.lookup phase).isSome = true

theorem reserves_le_one (phase : Phase) {row : Row} (calls : List Call) (h : Kept sha256 row) :
    countSteps (step sha256) (reserves sha256 phase) row calls ≤ 1 := by
  refine countSteps_le_one (C := fun _ _ => True) (D := HasGrant phase)
    (fun row call h _ => (step_kept row call h).1) ?_ ?_ ?_ h
    (Along.of_forall (fun _ _ => trivial) row calls)
  · intro row call _ _ hp
    cases call with
    | intent | move => cases hp
    | reserve other clock commit =>
      simp only [reserves, Bool.and_eq_true, decide_eq_true_eq] at hp
      obtain ⟨⟨rfl, hok⟩, hcommit⟩ := hp
      cases hr : reserve sha256 row other clock with
      | error => rw [hr] at hok; cases hok
      | ok out =>
        obtain ⟨state, grant⟩ := out
        obtain ⟨now, previous, limits, rfl, hres, rfl, rfl⟩ := reserve_ok hr
        cases commit with
        | intent => exact ⟨_, by simp [step, hr, Row.intend]; rfl, by simp⟩
        | preparation session =>
          simp only [decide_eq_true_eq] at hcommit
          exact ⟨_, by simp [step, hr, hcommit, Row.prepare]; rfl, by simp⟩
  · rintro row call h _ ⟨state, hs, hg⟩
    obtain ⟨state', hs', -, -, hkeep⟩ := (step_kept row call h).2 state hs
    obtain ⟨grant, hl⟩ := Option.isSome_iff_exists.mp hg
    exact ⟨state', hs', by rw [hkeep phase grant hl]; rfl⟩
  · rintro row call _ _ ⟨state, hs, hg⟩
    cases call with
    | intent | move => rfl
    | reserve other clock commit =>
      by_cases hne : other = phase
      · subst hne
        cases hr : reserve sha256 row other clock with
        | error => simp [reserves, hr, Except.toBool]
        | ok out =>
          obtain ⟨state', grant⟩ := out
          obtain ⟨now, previous, limits, rfl, hres, -, -⟩ := reserve_ok hr
          rcases hres.base with hp | ⟨hn, -⟩
          · rw [hp] at hs
            cases hs
            rw [hres.unreserved] at hg
            cases hg
          · rw [hn] at hs
            cases hs
      · simp [reserves, hne]

/-- **The envelope is conserved.** Over any run from an admitted record: what is
stored is accepted, each phase is reserved at most once, the deadline and the
boot identity stand, the reservations stay within the admitted limits, and no
reservation is granted with only the stop grace left. -/
theorem reservations_conserve (sha256 : Limits → String) (ns : Namespace) (id parent : String)
    (budgets : Limits) (quotaBindingVersion : Option Int) (past future : List Call) :
    let start := Row.admitted ns id parent budgets quotaBindingVersion
    let before := exec (step sha256) start past
    let later := exec (step sha256) before future
    (∀ state, later.executionBudget = some state → validateState sha256 later state = .ok ()) ∧
    (∀ phase, countSteps (step sha256) (reserves sha256 phase) start (past ++ future) ≤ 1) ∧
    (∀ state, before.executionBudget = some state → ∃ state', later.executionBudget = some state' ∧
      state'.deadlineBoottimeNs = state.deadlineBoottimeNs ∧ state'.bootId = state.bootId) ∧
    (∀ state, later.executionBudget = some state →
      total state.grants (·.wallSeconds) ≤ budgets.wallSeconds ∧
      total state.grants (·.cpuSeconds) ≤ budgets.cpuSeconds ∧
      total state.grants (·.logBytes) ≤ budgets.logBytes) ∧
    (∀ phase now state grant, reserve sha256 later phase (.ok now) = .ok (state, grant) →
      budgets.terminateGraceSeconds * nanoseconds < state.deadlineBoottimeNs - now.boottimeNs) := by
  intro start before later
  have hstart : Kept sha256 start := fun _ h => by cases h
  have hbefore : Kept sha256 before := run_kept past hstart
  have hlater : Kept sha256 later := run_kept future hbefore
  have hbudgets : later.budgets = budgets :=
    exec_inv (I := fun row => row.budgets = budgets) (fun row call h => (step_budgets row call).trans h)
      (exec_inv (I := fun row => row.budgets = budgets)
        (fun row call h => (step_budgets row call).trans h) rfl)
  refine ⟨?_, ?_, ?_, ?_, ?_⟩
  · exact fun state hs => validateState_iff.mpr (hlater state hs)
  · exact fun phase => reserves_le_one phase _ hstart
  · intro state hs
    obtain ⟨state', hs', hd, hb, -⟩ := run_extends future hbefore state hs
    exact ⟨state', hs', hd, hb⟩
  · intro state hs
    have hfits := (hlater state hs).fits
    simp only [fits, Bool.and_eq_true, decide_eq_true_eq, hbudgets] at hfits
    exact ⟨hfits.1.1, hfits.1.2, hfits.2⟩
  · intro phase now state grant hr
    obtain ⟨_, previous, limits, ⟨⟩, hres, -, rfl⟩ := reserve_ok hr
    have hrun := hres.runtime
    rw [allocatedLimits_grace hres.share, hbudgets] at hrun
    exact hrun

end LocalHand.Budget
