/-
The order of a deployment's actions (`planner.py`): `service_order` ranks the managed
units by the units they depend on, and `validate_schedule` accepts a plan that stands
in the order of its phases and ranks.

A profile has what these read of one: the component and `read_only_dependencies` of a
unit, the kind of a component's probe and whether there is a security repair. A step
has its kind and what they read of its action; two steps with the same key never trade
places, so the rest of a step decides nothing.
-/
import LocalHand.Contract
import LocalHand.Lib.Directory
import LocalHand.Lib.Layers

namespace LocalHand.Planner

open Directory Relation Layers

/-- A managed unit. -/
structure Spec where
  component : Option String
  readOnlyDependencies : List String
  deriving Repr, DecidableEq

/-- `probes` has the kind of a component's probe, where it has one. -/
structure Profile where
  units : Dir Spec
  probes : Dir (Option String)
  securityRepair : Bool

structure Action where
  kind : Option String
  phase : Option String
  target : Option String
  deriving Repr, DecidableEq

structure Step where
  kind : String
  action : Action
  deriving Repr, DecidableEq

structure Plan where
  profile : Profile
  steps : List Step

/-- `PHASES` -/
def phases : List (String × Nat) :=
  [("isolate", 0), ("quiesced_before_files", 10), ("after_stop", 20), ("files", 30), ("after_files", 40), ("after_reload", 50),
   ("after_create", 60)]

def phaseIndex (name : String) : Option Nat := (phases.find? (·.1 = name)).map (·.2)

/-! ## `service_order` -/

/-- `profile["probes"].get(spec.get("component"), {}).get("kind")` -/
def probeKind (profile : Profile) (spec : Spec) : Option String := (spec.component.bind profile.probes.get).join

def managers (profile : Profile) : List String :=
  (profile.units.entries.filter fun e => probeKind profile e.2 = some "resident" || probeKind profile e.2 = some "prepared").map (·.1)

/-- What each unit waits for; an MCP server waits for the managers, too. -/
def dependencies (profile : Profile) : List (String × List String) :=
  profile.units.entries.map fun (name, spec) =>
    (name, spec.readOnlyDependencies.filter profile.units.has ++ if probeKind profile spec = some "mcp" then managers profile else [])

def unsupportedGraph : Fault := .job "UNSUPPORTED_SERVICE_GRAPH" "Fixed managed service dependencies contain a cycle"

/-- The units that wait for nothing. -/
def ready (deps : List (String × List String)) : List String :=
  ((deps.filter (·.2.isEmpty)).map (·.1)).mergeSort fun a b => decide (a ≤ b)

/-- The units that remain, and what they still wait for. -/
def remaining (deps : List (String × List String)) : List (String × List String) :=
  (deps.filter fun d => !(ready deps).contains d.1).map fun d => (d.1, d.2.filter fun name => !(ready deps).contains name)

theorem mem_ready {deps : List (String × List String)} {name : String} : name ∈ ready deps ↔ (name, []) ∈ deps := by
  simp [ready, List.mem_mergeSort]

theorem remaining_lt {deps : List (String × List String)} (h : (ready deps).isEmpty = false) : (remaining deps).length < deps.length := by
  obtain ⟨name, hname⟩ : ∃ name, name ∈ ready deps := by
    cases hr : ready deps with
    | nil => simp [hr] at h
    | cons name rest => exact ⟨name, by simp⟩
  rw [remaining, List.length_map]
  refine List.length_filter_lt_length_iff_exists.mpr ⟨(name, []), mem_ready.mp hname, ?_⟩
  simpa using hname

/-- The loop of `service_order`. -/
def rankUnits (deps : List (String × List String)) (ordered : List String) : Except Fault (List String) :=
  if deps.isEmpty then .ok ordered
  else if _h : (ready deps).isEmpty then .error unsupportedGraph
  else rankUnits (remaining deps) (ordered ++ ready deps)
termination_by deps.length
decreasing_by exact remaining_lt (by simpa using _h)

/-- `service_order`: the units in their order; the rank of a unit is its place. -/
def serviceOrder (profile : Profile) : Except Fault (List String) := rankUnits (dependencies profile) []

/-! ## `validate_schedule` -/

/-- `ranks.get(target, 0)` -/
def rankOf (ranks : List String) (target : Option String) : Nat :=
  match target with
  | some unit => if ranks.contains unit then ranks.idxOf unit else 0
  | none => 0

/-- `action_order` -/
def actionOrder (ranks : List String) (step : Step) : Except Fault (Nat × Int) :=
  match step.action.phase.bind phaseIndex with
  | none => .error (.key "phase")
  | some phase =>
    let rank : Int := rankOf ranks step.action.target
    if step.action.kind = some "gateway_stop" then .ok (phase, -(ranks.length : Int) - 1)
    else if step.action.kind = some "service_stop" then .ok (phase, -rank)
    else .ok (phase, rank)

/-- The phases of a kind of action. -/
def allowedPhases : List (String × List String) :=
  [("service_stop", ["quiesced_before_files"]), ("service_start", ["after_reload"]), ("service_policy_link", ["files"]),
   ("service_daemon_reload", ["after_files"]), ("gateway_stop", ["quiesced_before_files", "isolate"]), ("gateway_remove", ["after_stop"]),
   ("gateway_create", ["after_files"]), ("gateway_start", ["after_create"])]

def allowed (step : Step) : List String :=
  if step.kind = "file" then ["files"] else ((step.action.kind.bind fun kind => allowedPhases.find? (·.1 = kind)).map (·.2)).getD []

/-- `kind.startswith(step["kind"] + "_")` -/
def startsWith (kind start : String) : Bool := kind.toList.take start.toList.length = start.toList

/-- The body of the loop over the steps. -/
def checkStep (profile : Profile) (step : Step) : Except Fault Unit :=
  require (step.action.phase.any (allowed step).contains &&
      (step.kind = "file" || startsWith (step.action.kind.getD "") (step.kind ++ "_")) &&
      (step.action.phase ≠ some "isolate" || profile.securityRepair))
    (.job "INVALID_SCHEDULE" "Only the fixed gateway stop may run before business drain")

/-- The order of two keys, as of two tuples. -/
def keyLe (a b : Nat × Int) : Bool := a.1 < b.1 || (a.1 = b.1 && a.2 ≤ b.2)

/-- `sorted(steps, key=…)` -/
def sortedSteps (ranks : List String) (steps : List Step) : Except Fault (List Step) := do
  let keyed ← steps.mapM fun step => do return (← actionOrder ranks step, step)
  return (keyed.mergeSort fun a b => keyLe a.1 b.1).map (·.2)

/-- `validate_schedule` -/
def validateSchedule (plan : Plan) : Except Fault Unit := do
  let ranks ← serviceOrder plan.profile
  plan.steps.forM (checkStep plan.profile)
  let sorted ← sortedSteps ranks plan.steps
  require (plan.steps = sorted) (.job "INVALID_SCHEDULE" "Plan actions are outside the fixed dependency order")

/-! ## Ranks -/

/-- The managed dependency graph: a unit depends on the managed units it names, and an
MCP server on the managers. -/
def Depends (profile : Profile) (u v : String) : Prop :=
  ∃ spec other, profile.units.get u = some spec ∧ profile.units.get v = some other ∧
    (v ∈ spec.readOnlyDependencies ∨ (probeKind profile spec = some "mcp" ∧
      (probeKind profile other = some "resident" ∨ probeKind profile other = some "prepared")))

variable {profile : Profile}

theorem mem_managers {v : String} : v ∈ managers profile ↔
    ∃ other, profile.units.get v = some other ∧ (probeKind profile other = some "resident" ∨ probeKind profile other = some "prepared") := by
  simp only [managers, List.mem_map, List.mem_filter, Bool.or_eq_true, decide_eq_true_eq]
  constructor
  · rintro ⟨⟨name, other⟩, ⟨hmem, hkind⟩, rfl⟩
    exact ⟨other, get_iff_mem.mpr hmem, hkind⟩
  · rintro ⟨other, hget, hkind⟩
    exact ⟨(v, other), ⟨get_iff_mem.mp hget, hkind⟩, rfl⟩

/-- The loop starts from the graph. -/
theorem mem_dependencies {u : String} {ds : List String} (h : (u, ds) ∈ dependencies profile) (v : String) :
    v ∈ ds ↔ Depends profile u v := by
  obtain ⟨⟨name, spec⟩, hmem, heq⟩ := List.mem_map.mp h
  simp only [Prod.mk.injEq] at heq
  obtain ⟨rfl, rfl⟩ := heq
  have hget := get_iff_mem.mpr hmem
  rw [List.mem_append, List.mem_filter, has_iff, List.mem_ite_nil_right, mem_managers]
  constructor
  · rintro (⟨hv, other, hother⟩ | ⟨hkind, other, hother, hmanager⟩)
    · exact ⟨spec, other, hget, hother, .inl hv⟩
    · exact ⟨spec, other, hget, hother, .inr ⟨hkind, hmanager⟩⟩
  · rintro ⟨spec', other, hspec, hother, hv⟩
    rw [hget] at hspec
    cases hspec
    rcases hv with hv | ⟨hkind, hmanager⟩
    · exact .inl ⟨hv, other, hother⟩
    · exact .inr ⟨hkind, other, hother, hmanager⟩

theorem names_dependencies {u : String} : (∃ ds, (u, ds) ∈ dependencies profile) ↔ profile.units.has u = true := by
  rw [has_iff]
  constructor
  · rintro ⟨ds, h⟩
    obtain ⟨⟨name, spec⟩, hmem, heq⟩ := List.mem_map.mp h
    simp only [Prod.mk.injEq] at heq
    exact ⟨spec, get_iff_mem.mpr (heq.1 ▸ hmem)⟩
  · rintro ⟨spec, hget⟩
    exact ⟨_, List.mem_map.mpr ⟨(u, spec), get_iff_mem.mp hget, rfl⟩⟩

/-- What the loop keeps: the units are those in order and those that remain, which wait
for all they depend on that is not in order yet. -/
structure Ranking (profile : Profile) (deps : List (String × List String)) (ordered : List String) : Prop where
  units : ∀ u, profile.units.has u = true ↔ u ∈ ordered ∨ ∃ ds, (u, ds) ∈ deps
  waits : ∀ u ds, (u, ds) ∈ deps → ∀ v, v ∈ ds ↔ Depends profile u v ∧ v ∉ ordered
  layered : Layered (Depends profile) ordered

theorem ranking_start (profile : Profile) : Ranking profile (dependencies profile) [] where
  units u := by simp [← names_dependencies]
  waits u ds h v := by simp [mem_dependencies h]
  layered := layered_nil

variable {deps : List (String × List String)} {ordered : List String}

theorem mem_remaining {u : String} {ds : List String} :
    (u, ds) ∈ remaining deps ↔ ∃ ds', (u, ds') ∈ deps ∧ u ∉ ready deps ∧ ds = ds'.filter fun v => !(ready deps).contains v := by
  simp only [remaining, List.mem_map, List.mem_filter, List.contains_eq_mem, Bool.not_eq_true', decide_eq_false_iff_not, Prod.mk.injEq]
  constructor
  · rintro ⟨⟨name, ds'⟩, ⟨hmem, hnot⟩, rfl, rfl⟩
    exact ⟨ds', hmem, hnot, rfl⟩
  · rintro ⟨ds', hmem, hnot, rfl⟩
    exact ⟨(u, ds'), ⟨hmem, hnot⟩, rfl, rfl⟩

/-- A turn of the loop. -/
theorem Ranking.step (h : Ranking profile deps ordered) : Ranking profile (remaining deps) (ordered ++ ready deps) where
  units u := by
    rw [h.units u, List.mem_append]
    constructor
    · rintro (hu | ⟨ds, hu⟩)
      · exact .inl (.inl hu)
      · by_cases hready : u ∈ ready deps
        · exact .inl (.inr hready)
        · exact .inr ⟨_, mem_remaining.mpr ⟨ds, hu, hready, rfl⟩⟩
    · rintro ((hu | hready) | ⟨ds, hu⟩)
      · exact .inl hu
      · exact .inr ⟨[], mem_ready.mp hready⟩
      · obtain ⟨ds', hu', -⟩ := mem_remaining.mp hu
        exact .inr ⟨ds', hu'⟩
  waits u ds hu v := by
    obtain ⟨ds', hu', -, rfl⟩ := mem_remaining.mp hu
    rw [List.mem_filter, h.waits u ds' hu' v, List.mem_append, not_or, and_assoc]
    simp
  layered := by
    refine h.layered.append fun u hready v hv => ?_
    by_contra hnot
    exact List.not_mem_nil ((h.waits u [] (mem_ready.mp hready) v).mpr ⟨hv, hnot⟩)

/-- The loop ends with all units in order, or where each that remains waits for another. -/
theorem rankUnits_cases (h : Ranking profile deps ordered) :
    (∃ ranks, rankUnits deps ordered = .ok ranks ∧ Layered (Depends profile) ranks ∧ ∀ u, profile.units.has u = true ↔ u ∈ ranks) ∨
    (rankUnits deps ordered = .error unsupportedGraph ∧ ∃ u, TransGen (Depends profile) u u) := by
  induction deps, ordered using rankUnits.induct with
  | case1 deps ordered hempty =>
    have hdeps : deps = [] := by simpa using hempty
    subst hdeps
    refine .inl ⟨ordered, by simp [rankUnits], h.layered, fun u => ?_⟩
    rw [h.units u]
    simp
  | case2 deps ordered hempty hready =>
    refine .inr ⟨by rw [rankUnits, if_neg hempty, dif_pos hready], ?_⟩
    have hstuck : ∀ u ∈ deps.map (·.1), ∃ v ∈ deps.map (·.1), Depends profile u v := by
      intro u hu
      obtain ⟨⟨name, ds⟩, hmem, rfl⟩ := List.mem_map.mp hu
      cases ds with
      | nil =>
        have hnone : ready deps = [] := by simpa using hready
        have hin := mem_ready.mpr hmem
        rw [hnone] at hin
        cases hin
      | cons v rest =>
        obtain ⟨hdepends, hnot⟩ := (h.waits name (v :: rest) hmem v).mp List.mem_cons_self
        obtain ⟨_, other, -, hother, -⟩ := id hdepends
        obtain hin | ⟨ds, hds⟩ := (h.units v).mp (has_iff.mpr ⟨other, hother⟩)
        · exact absurd hin hnot
        · exact ⟨v, List.mem_map.mpr ⟨(v, ds), hds, rfl⟩, hdepends⟩
    cases deps with
    | nil => exact absurd rfl hempty
    | cons d rest => exact cycle_of_stuck (List.mem_map.mpr ⟨d, List.mem_cons_self, rfl⟩) hstuck
  | case3 deps ordered hempty hready ih =>
    rw [rankUnits, if_neg hempty, dif_neg hready]
    exact ih h.step

theorem serviceOrder_cases (profile : Profile) :
    (∃ ranks, serviceOrder profile = .ok ranks ∧ Layered (Depends profile) ranks ∧ ∀ u, profile.units.has u = true ↔ u ∈ ranks) ∨
    (serviceOrder profile = .error unsupportedGraph ∧ ∃ u, TransGen (Depends profile) u u) :=
  rankUnits_cases (ranking_start profile)

/-- A unit that depends on something is managed. -/
theorem Depends.left {u v : String} (h : Depends profile u v) : profile.units.has u = true := by
  obtain ⟨spec, _, hspec, -⟩ := h
  exact has_iff.mpr ⟨spec, hspec⟩

/-- `service_order` raises where there is a cycle, and only there. -/
theorem serviceOrder_error (profile : Profile) : (∃ fault, serviceOrder profile = .error fault) ↔ ∃ u, TransGen (Depends profile) u u := by
  rcases serviceOrder_cases profile with ⟨ranks, hok, hlayered, hunits⟩ | ⟨herror, hcycle⟩
  · rw [hok]
    refine iff_of_false (by simp) ?_
    rintro ⟨u, hu⟩
    exact hlayered.acyclic (fun u v huv => (hunits u).mp huv.left) u hu
  · exact iff_of_true ⟨_, herror⟩ hcycle

theorem rankOf_mem {ranks : List String} {u : String} (h : u ∈ ranks) : rankOf ranks (some u) = ranks.idxOf u := by
  simp [rankOf, h]

/-- A dependent unit has the greater rank. -/
theorem rank_lt {ranks : List String} (h : serviceOrder profile = .ok ranks) {u v : String} (hdepends : Depends profile u v) :
    v ∈ ranks ∧ u ∈ ranks ∧ rankOf ranks (some v) < rankOf ranks (some u) := by
  rcases serviceOrder_cases profile with ⟨ranks', hok, hlayered, hunits⟩ | ⟨herror, -⟩
  · rw [h] at hok
    cases hok
    obtain ⟨_, other, -, hother, -⟩ := id hdepends
    have hu := (hunits u).mp hdepends.left
    have hv := (hunits v).mp (has_iff.mpr ⟨other, hother⟩)
    refine ⟨hv, hu, ?_⟩
    rw [rankOf_mem hu, rankOf_mem hv]
    exact hlayered.idxOf_lt hu hdepends
  · rw [h] at herror
    cases herror

/-! ## Schedules -/

def Step.stops (step : Step) (u : String) : Prop := step.kind ≠ "file" ∧ step.action.kind = some "service_stop" ∧ step.action.target = some u

def Step.starts (step : Step) (u : String) : Prop := step.kind ≠ "file" ∧ step.action.kind = some "service_start" ∧ step.action.target = some u

/-- A stop of a unit or of the gateway. -/
def Step.isStop (step : Step) : Prop :=
  step.kind ≠ "file" ∧ (step.action.kind = some "service_stop" ∨ step.action.kind = some "gateway_stop")

def Step.isStart (step : Step) : Prop :=
  step.kind ≠ "file" ∧ (step.action.kind = some "service_start" ∨ step.action.kind = some "gateway_start")

def Step.isFile (step : Step) : Prop := step.kind = "file"

/-- Wherever the one kind of step and the other stand in a plan, the one stands first. -/
def Before (steps : List Step) (first second : Step → Prop) : Prop :=
  ∀ (i j : Nat) (s t : Step), steps[i]? = some s → steps[j]? = some t → first s → second t → i < j

/-- A dependent unit stops before what it depends on and starts after it, with the
files between the stops and the starts. -/
structure Scheduled (plan : Plan) : Prop where
  stops : ∀ u v, Depends plan.profile u v → Before plan.steps (·.stops u) (·.stops v)
  starts : ∀ u v, Depends plan.profile u v → Before plan.steps (·.starts v) (·.starts u)
  stopped : Before plan.steps Step.isStop Step.isFile
  placed : Before plan.steps Step.isFile Step.isStart
  between : Before plan.steps Step.isStop Step.isStart

theorem keyLe_trans (a b c : (Nat × Int) × Step) (hab : keyLe a.1 b.1 = true) (hbc : keyLe b.1 c.1 = true) : keyLe a.1 c.1 = true := by
  simp only [keyLe, Bool.or_eq_true, Bool.and_eq_true, decide_eq_true_eq] at *
  omega

theorem keyLe_total (a b : (Nat × Int) × Step) : (keyLe a.1 b.1 || keyLe b.1 a.1) = true := by
  simp only [keyLe, Bool.or_eq_true, Bool.and_eq_true, decide_eq_true_eq]
  omega

theorem keyed_order {ranks : List String} {steps : List Step} {keyed : List ((Nat × Int) × Step)}
    (h : (steps.mapM fun step => do return (← actionOrder ranks step, step)) = .ok keyed) : ∀ e ∈ keyed, actionOrder ranks e.2 = .ok e.1 := by
  induction steps generalizing keyed with
  | nil =>
    cases h
    simp
  | cons step rest ih =>
    rw [List.mapM_cons] at h
    obtain ⟨first, hfirst, h⟩ := bind_ok_iff.mp h
    obtain ⟨others, hothers, h⟩ := bind_ok_iff.mp h
    obtain ⟨key, hkey, hpair⟩ := bind_ok_iff.mp hfirst
    cases hpair
    cases h
    intro e he
    rcases List.mem_cons.mp he with rfl | he
    · exact hkey
    · exact ih hothers e he

/-- A plan that is sorted stands in the order of its keys. -/
theorem sortedSteps_pairwise {ranks : List String} {steps sorted : List Step} (h : sortedSteps ranks steps = .ok sorted) :
    sorted.Pairwise fun s t => ∃ k k', actionOrder ranks s = .ok k ∧ actionOrder ranks t = .ok k' ∧ keyLe k k' = true := by
  obtain ⟨keyed, hkeyed, h⟩ := bind_ok_iff.mp h
  cases h
  have horder := keyed_order hkeyed
  have hsorted := List.pairwise_mergeSort keyLe_trans keyLe_total keyed
  refine List.pairwise_map.mpr (hsorted.imp_of_mem ?_)
  intro a b ha hb hle
  exact ⟨a.1, b.1, horder a (List.mem_mergeSort.mp ha), horder b (List.mem_mergeSort.mp hb), hle⟩

theorem before_of_keys {ranks : List String} {steps : List Step}
    (hsorted : steps.Pairwise fun s t => ∃ k k', actionOrder ranks s = .ok k ∧ actionOrder ranks t = .ok k' ∧ keyLe k k' = true)
    {first second : Step → Prop}
    (hkeys : ∀ s ∈ steps, ∀ t ∈ steps, first s → second t → ∃ k k', actionOrder ranks s = .ok k ∧ actionOrder ranks t = .ok k' ∧ keyLe k' k = false) :
    Before steps first second := by
  intro i j s t hs ht hfirst hsecond
  obtain ⟨k, k', hk, hk', hlt⟩ := hkeys s (List.mem_of_getElem? hs) t (List.mem_of_getElem? ht) hfirst hsecond
  obtain ⟨hi, rfl⟩ := List.getElem?_eq_some_iff.mp hs
  obtain ⟨hj, rfl⟩ := List.getElem?_eq_some_iff.mp ht
  rcases Nat.lt_trichotomy i j with hij | rfl | hji
  · exact hij
  · rw [hk] at hk'
    cases hk'
    simp [keyLe] at hlt
  · obtain ⟨l', l, hl', hl, hle⟩ := List.pairwise_iff_getElem.mp hsorted j i hj hi hji
    rw [hk] at hl
    rw [hk'] at hl'
    cases hl
    cases hl'
    rw [hle] at hlt
    cases hlt

theorem checkStep_ok {step : Step} (h : checkStep profile step = .ok ()) : ∃ phase ∈ allowed step, step.action.phase = some phase := by
  simp only [checkStep, require_ok, Bool.and_eq_true] at h
  cases hphase : step.action.phase with
  | none =>
    rw [hphase] at h
    cases h.1.1
  | some phase =>
    rw [hphase] at h
    exact ⟨phase, by simpa using h.1.1, rfl⟩

theorem forM_ok {steps : List Step} {check : Step → Except Fault Unit} (h : steps.forM check = .ok ()) : ∀ step ∈ steps, check step = .ok () := by
  induction steps with
  | nil => simp
  | cons step rest ih =>
    have hbind : (check step >>= fun _ => rest.forM check) = .ok () := h
    obtain ⟨_, hstep, hrest⟩ := bind_ok_iff.mp hbind
    intro other hother
    rcases List.mem_cons.mp hother with rfl | hother
    · exact hstep
    · exact ih hrest other hother

/-- What a step's key is, for a step with an allowed phase. -/
theorem actionOrder_phase (ranks : List String) {step : Step} {phase : String} {n : Nat} (hphase : step.action.phase = some phase)
    (hn : phaseIndex phase = some n) : ∃ rank, actionOrder ranks step = .ok (n, rank) := by
  unfold actionOrder
  rw [hphase, Option.bind_some, hn]
  dsimp only
  split
  · exact ⟨_, rfl⟩
  · split
    · exact ⟨_, rfl⟩
    · exact ⟨_, rfl⟩

theorem stop_key (ranks : List String) {step : Step} (hcheck : checkStep profile step = .ok ()) (h : step.isStop) :
    ∃ n rank, n ≤ 10 ∧ actionOrder ranks step = .ok (n, rank) := by
  obtain ⟨phase, hallowed, hphase⟩ := checkStep_ok hcheck
  obtain ⟨hkind, haction⟩ := h
  rw [allowed, if_neg hkind] at hallowed
  rcases haction with haction | haction
  · rw [haction] at hallowed
    have hphase' : phase = "quiesced_before_files" := by simpa [allowedPhases] using hallowed
    subst hphase'
    obtain ⟨rank, hrank⟩ := actionOrder_phase ranks hphase (n := 10) (by decide)
    exact ⟨10, rank, Nat.le_refl _, hrank⟩
  · rw [haction] at hallowed
    have hphase' : phase = "quiesced_before_files" ∨ phase = "isolate" := by simpa [allowedPhases] using hallowed
    rcases hphase' with rfl | rfl
    · obtain ⟨rank, hrank⟩ := actionOrder_phase ranks hphase (n := 10) (by decide)
      exact ⟨10, rank, Nat.le_refl _, hrank⟩
    · obtain ⟨rank, hrank⟩ := actionOrder_phase ranks hphase (n := 0) (by decide)
      exact ⟨0, rank, Nat.zero_le _, hrank⟩

theorem file_key (ranks : List String) {step : Step} (hcheck : checkStep profile step = .ok ()) (h : step.isFile) :
    ∃ rank, actionOrder ranks step = .ok (30, rank) := by
  obtain ⟨phase, hallowed, hphase⟩ := checkStep_ok hcheck
  have hkind : step.kind = "file" := h
  rw [allowed, if_pos hkind, List.mem_singleton] at hallowed
  subst hallowed
  exact actionOrder_phase ranks hphase (by decide)

theorem start_key (ranks : List String) {step : Step} (hcheck : checkStep profile step = .ok ()) (h : step.isStart) :
    ∃ n rank, 50 ≤ n ∧ actionOrder ranks step = .ok (n, rank) := by
  obtain ⟨phase, hallowed, hphase⟩ := checkStep_ok hcheck
  obtain ⟨hkind, haction⟩ := h
  rw [allowed, if_neg hkind] at hallowed
  rcases haction with haction | haction
  · rw [haction] at hallowed
    have hphase' : phase = "after_reload" := by simpa [allowedPhases] using hallowed
    subst hphase'
    obtain ⟨rank, hrank⟩ := actionOrder_phase ranks hphase (n := 50) (by decide)
    exact ⟨50, rank, Nat.le_refl _, hrank⟩
  · rw [haction] at hallowed
    have hphase' : phase = "after_create" := by simpa [allowedPhases] using hallowed
    subst hphase'
    obtain ⟨rank, hrank⟩ := actionOrder_phase ranks hphase (n := 60) (by decide)
    exact ⟨60, rank, by omega, hrank⟩

/-- The key of a unit's stop falls with its rank, that of its start grows. -/
theorem unit_keys {ranks : List String} {step : Step} {u : String} (hcheck : checkStep profile step = .ok ()) :
    (step.stops u → actionOrder ranks step = .ok (10, -(rankOf ranks (some u) : Int))) ∧
      (step.starts u → actionOrder ranks step = .ok (50, (rankOf ranks (some u) : Int))) := by
  obtain ⟨phase, hallowed, hphase⟩ := checkStep_ok hcheck
  constructor
  · rintro ⟨hkind, haction, htarget⟩
    rw [allowed, if_neg hkind, haction] at hallowed
    have hphase' : phase = "quiesced_before_files" := by simpa [allowedPhases] using hallowed
    subst hphase'
    have hindex : phaseIndex "quiesced_before_files" = some 10 := by decide
    simp [actionOrder, hphase, haction, htarget, hindex]
  · rintro ⟨hkind, haction, htarget⟩
    rw [allowed, if_neg hkind, haction] at hallowed
    have hphase' : phase = "after_reload" := by simpa [allowedPhases] using hallowed
    subst hphase'
    have hindex : phaseIndex "after_reload" = some 50 := by decide
    simp [actionOrder, hphase, haction, htarget, hindex]

theorem scheduled {plan : Plan} (h : validateSchedule plan = .ok ()) : Scheduled plan := by
  obtain ⟨ranks, hranks, h⟩ := bind_ok_iff.mp h
  obtain ⟨_, hchecks, h⟩ := bind_ok_iff.mp h
  obtain ⟨sorted, hsorted, h⟩ := bind_ok_iff.mp h
  have heq : plan.steps = sorted := by simpa using h
  subst heq
  have hkeys := sortedSteps_pairwise hsorted
  have hcheck := forM_ok hchecks
  refine ⟨fun u v hdepends => ?_, fun u v hdepends => ?_, ?_, ?_, ?_⟩
  · refine before_of_keys hkeys fun s hs t ht hfirst hsecond => ?_
    have hlt := (rank_lt hranks hdepends).2.2
    refine ⟨_, _, (unit_keys (hcheck s hs)).1 hfirst, (unit_keys (hcheck t ht)).1 hsecond, ?_⟩
    simp [keyLe]
    omega
  · refine before_of_keys hkeys fun s hs t ht hfirst hsecond => ?_
    have hlt := (rank_lt hranks hdepends).2.2
    refine ⟨_, _, (unit_keys (hcheck s hs)).2 hfirst, (unit_keys (hcheck t ht)).2 hsecond, ?_⟩
    simp [keyLe]
    omega
  · refine before_of_keys hkeys fun s hs t ht hfirst hsecond => ?_
    obtain ⟨n, rank, hn, hs'⟩ := stop_key ranks (hcheck s hs) hfirst
    obtain ⟨rank', ht'⟩ := file_key ranks (hcheck t ht) hsecond
    refine ⟨_, _, hs', ht', ?_⟩
    simp [keyLe]
    omega
  · refine before_of_keys hkeys fun s hs t ht hfirst hsecond => ?_
    obtain ⟨rank, hs'⟩ := file_key ranks (hcheck s hs) hfirst
    obtain ⟨n, rank', hn, ht'⟩ := start_key ranks (hcheck t ht) hsecond
    refine ⟨_, _, hs', ht', ?_⟩
    simp [keyLe]
    omega
  · refine before_of_keys hkeys fun s hs t ht hfirst hsecond => ?_
    obtain ⟨n, rank, hn, hs'⟩ := stop_key ranks (hcheck s hs) hfirst
    obtain ⟨m, rank', hm, ht'⟩ := start_key ranks (hcheck t ht) hsecond
    refine ⟨_, _, hs', ht', ?_⟩
    simp [keyLe]
    omega

/-- The order of the units is one of their dependencies, or there is none and
`service_order` raises; a plan in its order is a schedule. -/
theorem service_schedule (profile : Profile) :
    ((∃ fault, serviceOrder profile = .error fault) ↔ ∃ u, TransGen (Depends profile) u u) ∧
    (∀ ranks, serviceOrder profile = .ok ranks → ∀ u v, Depends profile u v →
      v ∈ ranks ∧ u ∈ ranks ∧ rankOf ranks (some v) < rankOf ranks (some u)) ∧
    ∀ plan, plan.profile = profile → validateSchedule plan = .ok () → Scheduled plan :=
  ⟨serviceOrder_error profile, fun _ h _ _ hdepends => rank_lt h hdepends, fun _ _ h => scheduled h⟩

end LocalHand.Planner
