/-
The resource barrier. While an execution may still be running, its operation
holds every canonical resource of its plan, so no two operations run on one.
-/
import LocalHand.Broker.Launches

namespace LocalHand.Broker

/-- The proofs this step accepts are of executions that have exited. -/
def Truthful (site : Site) (s : Sys) (a : Action) : Prop :=
  ∀ exec ∈ (step site s a).proved, exec ∈ s.proved ∨ exec ∈ s.exited

instance (site : Site) (s : Sys) (a : Action) : Decidable (Truthful site s a) :=
  inferInstanceAs (Decidable (∀ exec ∈ (step site s a).proved, exec ∈ s.proved ∨ exec ∈ s.exited))

/-- The execution has an intent in the row and has not exited. -/
def Underway (s : Sys) (row : Row) (phase : Phase) : Prop :=
  row ∈ s.ledger.rows ∧ phase ∈ row.record.handles.keys ∧ row.key.exec phase ∉ s.exited

/-- What the leases say of the executions under way. -/
structure Barred (site : Site) (s : Sys) : Prop where
  launched : ∀ d ∈ s.launches, ∃ row ∈ s.ledger.rows, ∃ phase ∈ row.record.handles.keys, d.exec = row.key.exec phase
  held : ∀ row phase, Underway s row phase → ∃ parent names, s.ledger.get ⟨.job, row.parent⟩ = some parent ∧
    identities site.aliases row.plan.resourceIds = .ok names ∧
    ∀ name ∈ names, s.ledger.leases.holder name = some (row.parent, parent.request.expected.deploymentEpoch)
  apart : ∀ row phase row' phase' names names', Underway s row phase → Underway s row' phase' →
    row.parent ≠ row'.parent → identities site.aliases row.plan.resourceIds = .ok names →
    identities site.aliases row'.plan.resourceIds = .ok names' → names.Disjoint names'

section

variable {site : Site} {s : Sys} {row row' : Row}

theorem Held.names (h : Held site s.ledger row) : ∃ parent names, s.ledger.get ⟨.job, row.parent⟩ = some parent ∧
    identities site.aliases row.plan.resourceIds = .ok names ∧
    ∀ name ∈ names, s.ledger.leases.holder name = some (row.parent, parent.request.expected.deploymentEpoch) := by
  obtain ⟨parent, hget, howned⟩ := h
  simp only [assertOwned, bind_ok, require_ok, List.all_eq_true, decide_eq_true_eq] at howned
  obtain ⟨names, hnames, hheld⟩ := howned
  exact ⟨parent, names, hget, hnames, hheld⟩

/-- Two operations hold no resource together. -/
theorem Held.apart {names names' : List String} (h : Held site s.ledger row) (h' : Held site s.ledger row')
    (hne : row.parent ≠ row'.parent) (hnames : identities site.aliases row.plan.resourceIds = .ok names)
    (hnames' : identities site.aliases row'.plan.resourceIds = .ok names') : names.Disjoint names' := by
  obtain ⟨parent, found, -, hfound, hheld⟩ := h.names
  obtain ⟨parent', found', -, hfound', hheld'⟩ := h'.names
  rw [hnames, Except.ok.injEq] at hfound
  rw [hnames', Except.ok.injEq] at hfound'
  subst hfound hfound'
  intro name hmem hmem'
  have hsame := (hheld name hmem).symm.trans (hheld' name hmem')
  simp only [Option.some.injEq, Prod.mk.injEq] at hsame
  exact hne hsame.1

/-- Rows whose executions' exits were all true hold what they may still use. -/
theorem Sys.Sound.barred (h : s.Sound site) (hdelivered : s.Delivered) (htrue : ∀ exec ∈ s.proved, exec ∈ s.exited) :
    Barred site s := by
  have hheld : ∀ {row phase}, Underway s row phase → Held site s.ledger row := by
    rintro row phase ⟨hrow, hmem, hlive⟩
    exact h.ledger.held row hrow phase hmem fun hproved => hlive (htrue _ hproved)
  refine ⟨fun d hmem => ?_, fun row phase hunder => (hheld hunder).names, ?_⟩
  · obtain ⟨key, row, hget, hrecorded⟩ := hdelivered.recorded d (List.mem_append_left _ hmem)
    have hrow := Ledger.get_mem hget
    exact ⟨row, hrow, (h.ledger.rows row hrow).delivered d hrecorded⟩
  · intro row phase row' phase' names names' hunder hunder' hne hnames hnames'
    exact (hheld hunder).apart (hheld hunder') hne hnames hnames'

end

/-- In every run whose exit proofs are true, every execution that has not exited holds the
resources of its plan, and no two of different operations share one. -/
theorem run_barred (site : Site) (actions : List Action)
    (htrue : Machine.Along (step site) (Truthful site) .created actions) : Barred site (run site .created actions) := by
  obtain ⟨hsound, hdelivered⟩ := run_delivered site actions
  refine hsound.barred hdelivered ?_
  refine Machine.exec_inv_along (I := fun s : Sys => ∀ exec ∈ s.proved, exec ∈ s.exited) (fun s a h ha exec hmem => ?_)
    (fun exec hmem => by cases hmem) htrue
  rcases ha exec hmem with hold | hexited
  · exact step_exited site s a exec (h exec hold)
  · exact step_exited site s a exec hexited

/-! ### A run -/

def sampleHandle : Handle := ⟨some (sampleKey.exec .preflight), false, none, none, none, ""⟩

/-- The preflight has exited, its effects checked and its inputs stable. -/
def sampleProof : Proof :=
  { Proof.neverStarted with
    state := .exited, collectorsStopped := some true, writersStopped := some true, exitCode := some 0
    executionId := some (sampleKey.exec .preflight), facts := some ⟨true, ""⟩ }

def sampleAdvance (proof : Option Proof) (started : Option Handle) : Action :=
  .advance ⟨sampleEnv, false, false, .retryable, proof, started⟩

/-- The preflight is observed until it exits, another operation is refused, the business is launched. -/
def sampleObserved : List Action :=
  sampleStart.take 13 ++ [.launch, sampleAdvance none (some sampleHandle), sampleAdvance none none,
    .exit (sampleKey.exec .preflight), .tick] ++ List.replicate 5 (sampleAdvance (some sampleProof) none) ++
    [.submit sampleEnv (sampleRequest "other") samplePrincipal, .tick] ++
    List.replicate 5 (sampleAdvance none none) ++
    [.guard sampleEnv ⟨sampleKey.exec .business, none, none, none⟩, .launch]

theorem run_barred_observed : Barred sampleSite (run sampleSite .created sampleObserved) ∧
    ⟨sampleKey.exec .business, none⟩ ∈ (run sampleSite .created sampleObserved).launches ∧
    sampleKey.exec .business ∉ (run sampleSite .created sampleObserved).exited := by
  have hrun : Machine.Along (step sampleSite) (Truthful sampleSite) .created sampleObserved ∧
      ⟨sampleKey.exec .business, none⟩ ∈ (run sampleSite .created sampleObserved).launches ∧
      sampleKey.exec .business ∉ (run sampleSite .created sampleObserved).exited := by decide +kernel
  exact ⟨run_barred sampleSite sampleObserved hrun.1, hrun.2⟩

end LocalHand.Broker
