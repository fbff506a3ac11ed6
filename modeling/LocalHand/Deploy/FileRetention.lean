/-
What the actions retain over whole runs: every object a call makes is checked
against the whole scope of its action, so the scope stays within the budget as long
as no call adds to a scope it does not carry.
-/
import LocalHand.Deploy.FileBudgets

namespace LocalHand.Files

open Directory Program
open Framing (Bytes)

/-! ## Scopes -/

/-- The state directories and, beside the target, the namespaces that an action retains. -/
structure Scope where
  dirs : List String
  parent : String
  namespaces : List String
  deriving DecidableEq

def Action.scope (a : Action) : Scope := ⟨a.retainedStateDirs, a.target.parent, a.retainedNamespaces⟩

def Scope.covers (s : Scope) (path name : String) : Bool := s.dirs.contains path || (path = s.parent && startsWith s.namespaces name)

/-- The directories it covers something of. -/
def Scope.places (s : Scope) : Finset String := insert s.parent s.dirs.toFinset

/-- The bytes at the covered names of some directories. -/
def World.held (w : World) (places : Finset String) (covers : String → String → Bool) : Nat :=
  ∑ p ∈ places, (w.nodes p).weigh fun name node => if covers p name then node.size else 0

/-- The bytes a scope retains. -/
def World.bytes (w : World) (s : Scope) : Nat := w.held s.places s.covers

/-- The bytes that one scope retains and another does not. -/
def World.beyond (w : World) (s carried : Scope) : Nat := w.held s.places fun p name => s.covers p name && !carried.covers p name

section

variable {host : Host} {w w' : World} {places : Finset String} {covers : String → String → Bool} {s t : Scope}

theorem held_congr (h : w'.folders = w.folders) : w'.held places covers = w.held places covers := by
  simp only [World.held, nodes_congr h]

/-- A change of one directory that adds at most so many bytes there. -/
theorem held_modify_le {path : String} {f : Dir Node → Dir Node} {s : Nat}
    (h : ((f (w.nodes path)).weigh fun name node => if covers path name then node.size else 0) ≤
      ((w.nodes path).weigh fun name node => if covers path name then node.size else 0) + s) :
    (w.modify path f).held places covers ≤ w.held places covers + s := by
  have hterm : ∀ p ∈ places, ((w.modify path f).nodes p).weigh (fun name node => if covers p name then node.size else 0) ≤
      (w.nodes p).weigh (fun name node => if covers p name then node.size else 0) + if p = path then s else 0 := by
    intro p _
    rw [nodes_modify]
    by_cases hpath : p = path ∧ (w.folders p).isSome
    · obtain ⟨rfl, hsome⟩ := hpath
      rw [if_pos ⟨rfl, hsome⟩, if_pos rfl]
      exact h
    · rw [if_neg hpath]
      exact Nat.le_add_right _ _
  refine (Finset.sum_le_sum hterm).trans ?_
  rw [Finset.sum_add_distrib]
  refine Nat.add_le_add_left ?_ _
  rw [Finset.sum_ite_eq']
  split
  · exact le_rfl
  · exact Nat.zero_le _

theorem weigh_moved_le (weight : String → Node → Nat) (from' name : String) (node : Node) (nodes : Dir Node) :
    (moved from' name node nodes).weigh weight ≤ nodes.weigh weight + weight name node := by
  rw [moved, weigh_put]
  exact Nat.add_le_add_right ((weigh_remove_le _ _).trans (weigh_remove_le _ _)) _

variable (w places covers) in
/-- A file that is made or moved adds no more than itself, and nothing where it is not covered. -/
theorem held_moved_le (path from' name : String) (node : Node) :
    (w.modify path (moved from' name node)).held places covers ≤
      w.held places covers + if covers path name then node.size else 0 :=
  held_modify_le (weigh_moved_le _ _ _ _ _)

variable (places covers) in
theorem held_renamed_le {path from' : String} {node : Node} (h : (w.nodes path).get from' = some node) (name : String) :
    (w.modify path (renamed from' name)).held places covers ≤
      w.held places covers + if covers path name then node.size else 0 := by
  refine held_modify_le ?_
  have hmoved : renamed from' name (w.nodes path) = moved from' name node (w.nodes path) := by
    rw [renamed, h]
    rfl
  rw [hmoved]
  exact weigh_moved_le _ _ _ _ _

theorem held_remove_le (path name : String) : (w.modify path (·.remove name)).held places covers ≤ w.held places covers :=
  held_modify_le (s := 0) (weigh_remove_le _ _)

/-- What a scope retains is carried by another, or is beyond it. -/
theorem bytes_le_carried (w : World) (s carried : Scope) : w.bytes s ≤ w.bytes carried + w.beyond s carried := by
  have hsplit : ∀ p ∈ s.places, ((w.nodes p).weigh fun name node => if s.covers p name then node.size else 0) ≤
      ((w.nodes p).weigh fun name node => if carried.covers p name then node.size else 0) +
        (w.nodes p).weigh fun name node => if s.covers p name && !carried.covers p name then node.size else 0 := by
    intro p _
    simp only [Dir.weigh]
    rw [← List.sum_map_add]
    refine List.sum_le_sum fun e _ => ?_
    cases s.covers p e.1 <;> cases carried.covers p e.1 <;> simp
  refine (Finset.sum_le_sum hsplit).trans ?_
  rw [Finset.sum_add_distrib]
  refine Nat.add_le_add_right ?_ _
  have hzero : ∀ p ∉ carried.places, ((w.nodes p).weigh fun name node => if carried.covers p name then node.size else 0) = 0 := by
    intro p hp
    have hno : ∀ name, carried.covers p name = false := by
      intro name
      rw [Scope.places, Finset.mem_insert, List.mem_toFinset, not_or] at hp
      simp [Scope.covers, hp.1, hp.2]
    simp [Dir.weigh, hno]
  calc ∑ p ∈ s.places, ((w.nodes p).weigh fun name node => if carried.covers p name then node.size else 0)
      ≤ ∑ p ∈ s.places ∪ carried.places, ((w.nodes p).weigh fun name node => if carried.covers p name then node.size else 0) :=
        Finset.sum_le_sum_of_subset Finset.subset_union_left
    _ = ∑ p ∈ carried.places, ((w.nodes p).weigh fun name node => if carried.covers p name then node.size else 0) :=
        (Finset.sum_subset Finset.subset_union_right fun p _ hp => hzero p hp).symm

end

/-! ## Reservations -/

/-- The weight of every file of a directory. -/
def sizes (_ : String) (node : Node) : Nat := node.size

/-- The weight of the files of some namespaces. -/
def sizesIn (namespaces : List String) (name : String) (node : Node) : Nat := if startsWith namespaces name then node.size else 0

theorem counted_sum (prefixes : Option (List String)) (entries : List (String × Node)) :
    ((counted prefixes entries).map Node.size).sum =
      (entries.map fun e => if (prefixes.map (startsWith · e.1)).getD true then e.2.size else 0).sum := by
  induction entries with
  | nil => rfl
  | cons e entries ih =>
    rw [counted] at ih ⊢
    by_cases hcounted : (prefixes.map (startsWith · e.1)).getD true = true
    · rw [List.filter_cons_of_pos (by simpa using hcounted), List.map_cons, List.map_cons, List.sum_cons, List.map_cons, List.sum_cons,
        ih, if_pos hcounted]
    · rw [List.filter_cons_of_neg (by simpa using hcounted), List.map_cons, List.sum_cons, ih, if_neg hcounted, Nat.zero_add]

theorem usage_ok {nodes : Dir Node} {prefixes : Option (List String)} {limits : Limits} {out : Nat × Nat}
    (h : usage nodes prefixes limits = .ok out) :
    out.2 = (nodes.entries.map fun e => if (prefixes.map (startsWith · e.1)).getD true then e.2.size else 0).sum := by
  obtain ⟨-, -, h⟩ := bind_ok_iff.mp h
  obtain ⟨-, -, h⟩ := bind_ok_iff.mp h
  cases h
  exact counted_sum prefixes nodes.entries

theorem usages_ok {limits : Limits} {states : List (Dir Node)} {out : Nat × Nat} (h : usages limits states = .ok out) :
    out.2 = (states.map fun nodes => nodes.weigh sizes).sum := by
  induction states generalizing out with
  | nil =>
    cases h
    rfl
  | cons nodes states ih =>
    obtain ⟨one, hone, h⟩ := bind_ok_iff.mp h
    obtain ⟨rest, hrest, h⟩ := bind_ok_iff.mp h
    cases h
    have htotal := usage_ok hone
    simp only [Option.map_none, Option.getD_none, if_true] at htotal
    show one.2 + rest.2 = _
    rw [List.map_cons, List.sum_cons, ih hrest, htotal]
    rfl

theorem sum_toFinset_le (f : String → Nat) (dirs : List String) : ∑ p ∈ dirs.toFinset, f p ≤ (dirs.map f).sum := by
  induction dirs with
  | nil => simp
  | cons p dirs ih =>
    rw [List.toFinset_cons, List.map_cons, List.sum_cons]
    by_cases hp : p ∈ dirs.toFinset
    · rw [Finset.insert_eq_of_mem hp]
      omega
    · rw [Finset.sum_insert hp]
      omega

/-- A scope retains no more than its directories and its namespaces have. -/
theorem bytes_le (w : World) (s : Scope) :
    w.bytes s ≤ (s.dirs.map fun p => (w.nodes p).weigh sizes).sum + (w.nodes s.parent).weigh (sizesIn s.namespaces) := by
  have hwhole : ∀ p, ((w.nodes p).weigh fun name node => if s.covers p name then node.size else 0) ≤ (w.nodes p).weigh sizes := by
    intro p
    refine weigh_mono _ fun name node _ => ?_
    split
    · exact le_rfl
    · exact Nat.zero_le _
  have hdirs := sum_toFinset_le (fun p => (w.nodes p).weigh sizes) s.dirs
  have hlist := Finset.sum_le_sum fun p (_ : p ∈ s.dirs.toFinset) => hwhole p
  rw [World.bytes, World.held, Scope.places]
  by_cases hparent : s.parent ∈ s.dirs.toFinset
  · rw [Finset.insert_eq_of_mem hparent]
    omega
  · rw [Finset.sum_insert hparent]
    have hbeside : ((w.nodes s.parent).weigh fun name node => if s.covers s.parent name then node.size else 0) =
        (w.nodes s.parent).weigh (sizesIn s.namespaces) := by
      have hno : s.dirs.contains s.parent = false := by simpa using hparent
      simp only [Scope.covers, hno, Bool.false_or, decide_true, Bool.true_and]
      rfl
    omega

/-- What is reserved fits beside what is retained. -/
theorem reserveCreation_fits {w : World} {s : Scope} {size : Nat} {limits : Limits} {byteBudget : Nat}
    (h : reserveCreation (s.dirs.map w.nodes) (w.nodes s.parent) s.namespaces size limits byteBudget = .ok ()) :
    w.bytes s + size ≤ byteBudget := by
  obtain ⟨⟨states, stateBytes⟩, hstates, h⟩ := bind_ok_iff.mp h
  obtain ⟨⟨targets, targetBytes⟩, htargets, h⟩ := bind_ok_iff.mp h
  have hstateBytes := usages_ok hstates
  have hbeside : targetBytes = (w.nodes s.parent).weigh (sizesIn s.namespaces) := usage_ok htargets
  have hbytes := bytes_le w s
  rw [List.map_map] at hstateBytes
  have hdirs : stateBytes = (s.dirs.map fun p => (w.nodes p).weigh sizes).sum := hstateBytes
  simp only [require_ok, Bool.and_eq_true, decide_eq_true_eq] at h
  omega

/-! ## Calls -/

/-- A call writes into something another scope retains. -/
def Touches (s writes : Scope) : Prop := ∃ path name, s.covers path name = true ∧ writes.covers path name = true

/-- The scopes of the calls so far, each within its budget. -/
def Within (begun : List (Scope × Nat)) (w : World) : Prop := ∀ other ∈ begun, w.bytes other.1 ≤ other.2

/-- And those the call writes into hold nothing beyond what it carries. -/
structure Kept (begun : List (Scope × Nat)) (carried writes : Scope) (w : World) : Prop where
  within : Within begun w
  beyond : ∀ other ∈ begun, Touches other.1 writes → w.beyond other.1 carried = 0

/-- A call that may write: it is one of the begun ones, and its budget is none larger than those it touches. -/
structure Admitted (begun : List (Scope × Nat)) (carried writes : Scope) (budget : Nat) : Prop where
  mem : (carried, budget) ∈ begun
  sub : ∀ path name, writes.covers path name = true → carried.covers path name = true
  least : ∀ other ∈ begun, Touches other.1 writes → budget ≤ other.2

section

variable {host : Host} {begun : List (Scope × Nat)} {carried writes : Scope} {budget : Nat} {w w' : World}

theorem bytes_congr (h : w'.folders = w.folders) (s : Scope) : w'.bytes s = w.bytes s := held_congr h

theorem Within.congr (h : Within begun w) (hsame : w'.folders = w.folders) : Within begun w' := by
  intro other hother
  rw [bytes_congr hsame]
  exact h other hother

theorem Kept.congr (h : Kept begun carried writes w) (hsame : w'.folders = w.folders) : Kept begun carried writes w' := by
  refine ⟨h.within.congr hsame, fun other hother htouches => ?_⟩
  rw [World.beyond, held_congr hsame]
  exact h.beyond other hother htouches

/-- A file that is made or moved where the call writes, while what it carries fits. -/
theorem Kept.moved (h : Kept begun carried writes w) (hadmitted : Admitted begun carried writes budget) {path name : String}
    (hwrites : writes.covers path name = true) (from' : String) (node : Node)
    (hfits : (w.modify path (moved from' name node)).bytes carried ≤ budget) :
    Kept begun carried writes (w.modify path (Files.moved from' name node)) := by
  have hbeyond : ∀ other ∈ begun, Touches other.1 writes →
      (w.modify path (Files.moved from' name node)).beyond other.1 carried = 0 := by
    intro other hother htouches
    have hle := held_moved_le w other.1.places (fun p n => other.1.covers p n && !carried.covers p n) path from' name node
    have hcarried := hadmitted.sub path name hwrites
    have hnone := h.beyond other hother htouches
    simp only [hcarried, Bool.not_true, Bool.and_false, Bool.false_eq_true, if_false] at hle
    rw [World.beyond] at hnone ⊢
    omega
  refine ⟨fun other hother => ?_, hbeyond⟩
  by_cases hcovers : other.1.covers path name = true
  · -- The scope is touched: all it retains is carried.
    have htouches : Touches other.1 writes := ⟨path, name, hcovers, hwrites⟩
    have hcarried := bytes_le_carried (w.modify path (Files.moved from' name node)) other.1 carried
    have hnone := hbeyond other hother htouches
    have hleast := hadmitted.least other hother htouches
    omega
  · have hle := held_moved_le w other.1.places other.1.covers path from' name node
    rw [if_neg hcovers] at hle
    exact hle.trans (h.within other hother)

theorem grown_folders (w : World) (path name : String) (object : Object) :
    (w.grown path name object).folders = (w.modify path (moved name name (.file object))).folders := by
  rw [← put_eq_moved]
  rfl

section

variable {states namespaces : List String} {parent : String} {limits : Limits}

/-- A reserved file that is made or moved. -/
theorem Kept.reserved (h : Kept begun ⟨states, parent, namespaces⟩ writes w)
    (hadmitted : Admitted begun ⟨states, parent, namespaces⟩ writes budget) {size : Nat}
    (hreserved : reserveCreation (states.map w.nodes) (w.nodes parent) namespaces size limits budget = .ok ())
    {path name : String} (hwrites : writes.covers path name = true) (from' : String) {n : Node} (hsize : n.size ≤ size) :
    Kept begun ⟨states, parent, namespaces⟩ writes (w.modify path (Files.moved from' name n)) := by
  have hfits : w.bytes ⟨states, parent, namespaces⟩ + size ≤ budget := reserveCreation_fits hreserved
  have hle := held_moved_le w (Scope.places ⟨states, parent, namespaces⟩) (Scope.covers ⟨states, parent, namespaces⟩) path from' name n
  rw [if_pos (hadmitted.sub path name hwrites)] at hle
  refine h.moved hadmitted hwrites from' n ?_
  rw [World.bytes] at hfits ⊢
  omega

theorem Growing.kept {path name : String} {data : Bytes} {object : Object}
    (hgrowing : Growing w states parent namespaces limits budget path name data object w')
    (h : Kept begun ⟨states, parent, namespaces⟩ writes w)
    (hadmitted : Admitted begun ⟨states, parent, namespaces⟩ writes budget) (hwrites : writes.covers path name = true) :
    Kept begun ⟨states, parent, namespaces⟩ writes w' :=
  ((h.reserved hadmitted hgrowing.reserved hwrites name (n := .file object) hgrowing.part.length_le).congr
    (grown_folders w path name object)).congr hgrowing.same.folders

end

end

/-! ## Preparation -/

section

variable {host : Host} {begun : List (Scope × Nat)} {w : World} {entry : Entry} {staging operationId attemptId temporary unique : String}

def namespaceText (host : Host) (operationId : String) (target : Path) : String :=
  ".lh-deploy-" ++ host.namespaceDigest operationId target ++ "-"

theorem namespaceOf_ok {target : Path} {ns : String} (h : namespaceOf host operationId attemptId target = .ok ns) :
    ns = namespaceText host operationId target := by
  obtain ⟨-, -, h⟩ := bind_ok_iff.mp h
  exact (Except.ok.inj h).symm

/-- The scope of a preparation. -/
def prepareScope (host : Host) (entry : Entry) (staging operationId : String) : Scope :=
  ⟨[staging], entry.target.parent, [namespaceText host operationId entry.target]⟩

theorem covers_staging (entry : Entry) (staging operationId name : String) :
    (prepareScope host entry staging operationId).covers staging name = true := by
  simp [Scope.covers, prepareScope]

theorem startsWith_append {namespaces : List String} {ns : String} (h : ns ∈ namespaces) (unique : String) :
    startsWith namespaces (ns ++ unique) = true := by
  rw [startsWith, List.any_eq_true]
  exact ⟨ns, h, by rw [String.toList_append, List.isPrefixOf_iff_prefix]; exact List.prefix_append _ _⟩

variable (host) in
theorem covers_candidate (entry : Entry) (staging operationId unique : String) :
    (prepareScope host entry staging operationId).covers entry.target.parent
      (namespaceText host operationId entry.target ++ unique) = true := by
  rw [Scope.covers, prepareScope, startsWith_append List.mem_cons_self]
  simp

theorem backUp_kept {scope : Scope} (hscope : scope = prepareScope host entry staging operationId)
    (hadmitted : Admitted begun scope scope entry.preparationBudgetBytes) {old : Bytes} :
    Spec (Kept begun scope scope) (backUp host entry staging (namespaceText host operationId entry.target) temporary old)
      (fun _ => Kept begun scope scope) (fun _ => Kept begun scope scope) := by
  subst hscope
  intro w hw
  have hbacked : ∀ v, BackedUp host entry staging (namespaceText host operationId entry.target) temporary old w v →
      Kept begun (prepareScope host entry staging operationId) (prepareScope host entry staging operationId) v := by
    intro v hv
    exact ((hw.reserved hadmitted hv.reserved (covers_staging entry staging operationId _) _
      (n := .file ⟨w.next, old, ⟨0o600, host.euid, host.egid⟩⟩) le_rfl).congr rfl).congr hv.same.folders
  refine (backUp_spec.weaken (A := fun v => v = w) (fun _ h => h) ?_ ?_) w rfl
  · rintro _ v ⟨-, ⟨hsame, -⟩ | hv⟩
    · exact hw.congr hsame.folders
    · exact hbacked v hv
  · rintro _ v (hsame | ⟨object, hgrowing⟩ | hv)
    · exact hw.congr hsame.folders
    · exact hgrowing.kept hw hadmitted (covers_staging entry staging operationId _)
    · exact hbacked v hv

theorem backUpOriginal_kept {scope : Scope} (hscope : scope = prepareScope host entry staging operationId)
    (hadmitted : Admitted begun scope scope entry.preparationBudgetBytes) (original : Option (Shot × Bytes)) :
    Spec (Kept begun scope scope) (backUpOriginal host entry staging (namespaceText host operationId entry.target) temporary original)
      (fun _ => Kept begun scope scope) (fun _ => Kept begun scope scope) := by
  cases original with
  | none => exact Spec.ret fun _ h => h
  | some original => exact Spec.bind (backUp_kept hscope hadmitted) fun _ => Spec.ret fun _ h => h

theorem stage_kept {action : Action} (hdir : action.stageDir = staging)
    (hns : action.namespace = namespaceText host operationId entry.target) {scope : Scope}
    (hscope : scope = prepareScope host entry staging operationId)
    (hadmitted : Admitted begun scope scope entry.preparationBudgetBytes) {data : Bytes} :
    Spec (Kept begun scope scope) (stage host entry action unique data)
      (fun action' w => Kept begun scope scope w ∧ action'.scope = action.scope ∧
        action'.preparationBudgetBytes = action.preparationBudgetBytes)
      (fun _ => Kept begun scope scope) := by
  subst hscope hdir
  intro w hw
  have hcovers := covers_candidate host entry action.stageDir operationId unique
  rw [← hns] at hcovers
  refine (stage_spec.weaken (A := fun v => v = w) (fun _ h => h) ?_ ?_) w rfl
  · intro action' v hv
    refine ⟨?_, by rw [hv.action]; rfl, by rw [hv.action]⟩
    have hreserved := hv.reserved
    rw [hns] at hreserved
    exact ((hw.reserved hadmitted hreserved hcovers _
      (n := .file ⟨w.next, data, entry.attributes⟩) le_rfl).congr (grown_folders w _ _ _)).congr hv.same.folders
  · rintro _ v (hsame | ⟨object, hgrowing⟩)
    · exact hw.congr hsame.folders
    · have hreserved := hgrowing.reserved
      rw [hns] at hreserved
      exact Growing.kept ⟨hreserved, hgrowing.binding, hgrowing.part, hgrowing.free, hgrowing.same⟩ hw hadmitted hcovers

/-- `prepare_file` keeps every scope within its budget. -/
theorem prepareFile_kept {scope : Scope} (hscope : scope = prepareScope host entry staging operationId)
    (hadmitted : Admitted begun scope scope entry.preparationBudgetBytes) :
    Spec (Kept begun scope scope) (prepareFile host entry staging operationId attemptId temporary unique)
      (fun action w => Kept begun scope scope w ∧ action.scope = scope ∧
        action.preparationBudgetBytes = entry.preparationBudgetBytes)
      (fun _ => Kept begun scope scope) := by
  have hstop : ∀ (_ : Halt) w, Kept begun scope scope w → Kept begun scope scope w := fun _ _ h => h
  refine check_bind hstop fun _ _ => look_bind fun v hv => Spec.pre (P := Kept begun scope scope) ?_ fun w hw => hw ▸ hv
  refine check_bind hstop fun lock _ => check_bind hstop fun ns hns => check_bind hstop fun candidate _ =>
    check_bind hstop fun parent _ => check_bind hstop fun _ _ => check_bind hstop fun _ _ => check_bind hstop fun original _ =>
    check_bind hstop fun _ _ => ?_
  obtain rfl := namespaceOf_ok hns
  split
  · refine retainObjects_spec.weaken (fun _ h => h) ?_ hstop
    rintro action w ⟨hw, haction, -⟩
    rw [haction]
    exact ⟨hw, hscope.symm, rfl⟩
  · refine Spec.bind (backUpOriginal_kept hscope hadmitted original) fun backup => ?_
    cases candidate with
    | none =>
      refine retainObjects_spec.weaken (fun _ h => h) ?_ hstop
      rintro action w ⟨hw, haction, -⟩
      rw [haction]
      exact ⟨hw, hscope.symm, rfl⟩
    | some candidate =>
      refine Spec.bind (stage_kept rfl rfl hscope hadmitted) fun action => ?_
      refine retainObjects_spec.weaken (fun _ h => h) ?_ fun _ w h => h.1
      rintro action' w ⟨⟨hw, hscope', hbudget⟩, haction, -⟩
      rw [haction]
      exact ⟨hw, hscope'.trans hscope.symm, hbudget⟩

end

/-! ## Restoration -/

section

variable {host : Host} {begun : List (Scope × Nat)} {published baseline : Action} {staging operationId attemptId unique : String}

/-- The scope of a restoration: all that the published action retains, and its own. -/
def restoreScope (host : Host) (published : Action) (staging operationId : String) : Scope :=
  ⟨(published.retainedStateDirs ++ [staging]).eraseDups, published.target.parent,
    (published.retainedNamespaces ++ [namespaceText host operationId published.target]).eraseDups⟩

/-- And what it writes into. -/
def restoreWrites (host : Host) (published : Action) (operationId : String) : Scope :=
  ⟨[], published.target.parent, [namespaceText host operationId published.target]⟩

variable (host) in
theorem covers_restored (published : Action) (operationId unique : String) :
    (restoreWrites host published operationId).covers published.target.parent
      (namespaceText host operationId published.target ++ unique) = true := by
  rw [Scope.covers, restoreWrites, startsWith_append List.mem_cons_self]
  simp

theorem restore_sub (published : Action) (staging operationId : String) : ∀ path name,
    (restoreWrites host published operationId).covers path name = true →
      (restoreScope host published staging operationId).covers path name = true := by
  intro path name h
  simp only [Scope.covers, restoreWrites, List.contains_nil, Bool.false_or, Bool.and_eq_true, startsWith, List.any_cons,
    List.any_nil, Bool.or_false] at h
  simp only [Scope.covers, restoreScope, startsWith, Bool.or_eq_true, Bool.and_eq_true, List.any_eq_true, List.mem_eraseDups]
  exact .inr ⟨h.1, _, List.mem_append_right _ List.mem_cons_self, h.2⟩

theorem restage_kept {action : Action} (htarget : action.target = published.target)
    (hns : action.namespace = namespaceText host operationId published.target) {scope writes : Scope}
    (hscope : scope = action.scope) (hwrites : writes = restoreWrites host published operationId)
    (hadmitted : Admitted begun scope writes published.preparationBudgetBytes) {original : Shot} {data : Bytes} :
    Spec (Kept begun scope writes) (restage host published action original unique data)
      (fun action' w => Kept begun scope writes w ∧ action'.scope = action.scope ∧
        action'.preparationBudgetBytes = action.preparationBudgetBytes)
      (fun _ => Kept begun scope writes) := by
  subst hscope hwrites
  intro w hw
  have hcovers := covers_restored host published operationId unique
  rw [← hns, ← htarget] at hcovers
  refine (restage_spec.weaken (A := fun v => v = w) (fun _ h => h) ?_ ?_) w rfl
  · intro action' v hv
    refine ⟨?_, by rw [hv.action]; rfl, by rw [hv.action]⟩
    exact ((hw.reserved hadmitted hv.reserved hcovers _
      (n := .file ⟨w.next, data, original.attributes⟩) le_rfl).congr (grown_folders w _ _ _)).congr hv.same.folders
  · rintro _ v (hsame | ⟨object, hgrowing⟩)
    · exact hw.congr hsame.folders
    · exact hgrowing.kept hw hadmitted hcovers

/-- `prepare_restore` keeps every scope within its budget. -/
theorem prepareRestore_kept {scope writes : Scope} (hscope : scope = restoreScope host published staging operationId)
    (hwrites : writes = restoreWrites host published operationId)
    (hadmitted : Admitted begun scope writes published.preparationBudgetBytes) :
    Spec (Kept begun scope writes) (prepareRestore host published baseline staging operationId attemptId unique)
      (fun action w => Kept begun scope writes w ∧ action.scope = scope ∧
        action.preparationBudgetBytes = published.preparationBudgetBytes)
      (fun _ => Kept begun scope writes) := by
  have hstop : ∀ (_ : Halt) w, Kept begun scope writes w → Kept begun scope writes w := fun _ _ h => h
  refine check_bind hstop fun _ _ => check_bind hstop fun _ _ => check_bind hstop fun _ _ => look_bind fun v hv =>
    Spec.pre (P := Kept begun scope writes) ?_ fun w hw => hw ▸ hv
  refine check_bind hstop fun lock _ => check_bind hstop fun _ _ => check_bind hstop fun observed _ => check_bind hstop fun _ _ =>
    check_bind hstop fun ns hns => check_bind hstop fun _ _ => ?_
  obtain rfl := namespaceOf_ok hns
  have hactionScope : (restoreAction published baseline observed.actual staging operationId attemptId
      (namespaceText host operationId published.target) lock).scope = restoreScope host published staging operationId := rfl
  have htarget : (restoreAction published baseline observed.actual staging operationId attemptId
      (namespaceText host operationId published.target) lock).target = published.target := rfl
  have hnamespace : (restoreAction published baseline observed.actual staging operationId attemptId
      (namespaceText host operationId published.target) lock).namespace = namespaceText host operationId published.target := rfl
  have hbudget : (restoreAction published baseline observed.actual staging operationId attemptId
      (namespaceText host operationId published.target) lock).preparationBudgetBytes = published.preparationBudgetBytes := rfl
  generalize restoreAction published baseline observed.actual staging operationId attemptId
    (namespaceText host operationId published.target) lock = action at hactionScope htarget hnamespace hbudget ⊢
  rw [← hactionScope] at hscope
  split
  · refine retainObjects_spec.weaken (fun _ h => h) ?_ hstop
    rintro action' w ⟨hw, haction, -⟩
    rw [haction]
    exact ⟨hw, hscope.symm, hbudget⟩
  · split
    · refine retainObjects_spec.weaken (fun _ h => h) ?_ hstop
      rintro action' w ⟨hw, haction, -⟩
      rw [haction]
      exact ⟨hw, hscope.symm, hbudget⟩
    · refine check_bind hstop fun data _ => Spec.bind (restage_kept htarget hnamespace hscope hwrites hadmitted) fun staged => ?_
      refine retainObjects_spec.weaken (fun _ h => h) ?_ fun _ w h => h.1
      rintro action' w ⟨⟨hw, hscope', hbudget'⟩, haction, -⟩
      rw [haction]
      exact ⟨hw, hscope'.trans hscope.symm, hbudget'.trans hbudget⟩

variable (host) in
/-- `execute_file` moves a retained file out of its scope, or removes the target. -/
theorem executeFile_within {a : Action} (huncovered : ∀ other ∈ begun, other.1.covers a.target.parent a.target.name = false) :
    Spec (Within begun) (executeFile host a) (fun _ => Within begun) (fun _ => Within begun) := by
  intro w hw
  have hpublished : ∀ v, Published host a w v → Within begun v := by
    intro v hv other hother
    have hno := huncovered other hother
    refine le_trans ?_ (hw other hother)
    obtain ⟨-, path, shot, object, -, hget, -, hsame⟩ | ⟨-, hsame⟩ := hv.change
    · rw [bytes_congr hsame.folders]
      have hle := held_renamed_le other.1.places other.1.covers hget a.target.name
      rw [hno] at hle
      exact hle
    · rw [bytes_congr hsame.folders]
      exact held_remove_le _ _
  refine (executeFile_spec.weaken (A := fun v => v = w) (fun _ h => h) ?_ ?_) w rfl
  · rintro out v ⟨⟨-, hsame, -⟩ | ⟨-, hv⟩, -⟩
    · exact hw.congr hsame.folders
    · exact hpublished v hv
  · rintro _ v (hsame | hv)
    · exact hw.congr hsame.folders
    · exact hpublished v hv

end

/-! ## Runs -/

/-- The world, the scopes and budgets of the calls so far, and the actions they returned. -/
structure Ledger where
  world : World
  begun : List (Scope × Nat)
  prepared : List Action

/-- A call with the steps it is given, or what others do. -/
inductive Label where
  | prepare (entry : Entry) (staging operationId attemptId temporary unique : String) (left : Nat)
  | execute (action : Action) (left : Nat)
  | restore (published baseline : Action) (staging operationId attemptId unique : String) (left : Nat)
  | outside (world : World)

def returned {α : Type} : Except Halt α → List α
  | .ok a => [a]
  | .error _ => []

def Ledger.step (host : Host) (s : Ledger) : Label → Ledger
  | .prepare entry staging operationId attemptId temporary unique left =>
    let run := (prepareFile host entry staging operationId attemptId temporary unique).from { s.world with left := left }
    ⟨run.2, (prepareScope host entry staging operationId, entry.preparationBudgetBytes) :: s.begun, returned run.1 ++ s.prepared⟩
  | .execute action left => { s with world := ((executeFile host action).from { s.world with left := left }).2 }
  | .restore published baseline staging operationId attemptId unique left =>
    let run := (prepareRestore host published baseline staging operationId attemptId unique).from { s.world with left := left }
    ⟨run.2, (restoreScope host published staging operationId, published.preparationBudgetBytes) :: s.begun, returned run.1 ++ s.prepared⟩
  | .outside world => { s with world := world }

/-- Whatever a call writes into and another scope retains, the call carries all that scope holds, within its budget. -/
def Ledger.Carries (s : Ledger) (scope writes : Scope) (budget : Nat) : Prop :=
  ∀ other ∈ s.begun, Touches other.1 writes → budget ≤ other.2 ∧ s.world.beyond other.1 scope = 0

/-- A new scope starts with nothing but what it inherits, a call carries what it adds to, no target lies in a retained
place, and others add nothing to one. -/
def Orderly (host : Host) (s : Ledger) : Label → Prop
  | .prepare entry staging operationId _ _ _ _ =>
    let scope := prepareScope host entry staging operationId
    ((scope, entry.preparationBudgetBytes) ∈ s.begun ∨ s.world.bytes scope = 0) ∧
      s.Carries scope scope entry.preparationBudgetBytes
  | .execute action _ => ∀ other ∈ s.begun, other.1.covers action.target.parent action.target.name = false
  | .restore published _ staging operationId _ _ _ =>
    let scope := restoreScope host published staging operationId
    published ∈ s.prepared ∧
      ((scope, published.preparationBudgetBytes) ∈ s.begun ∨ s.world.bytes scope ≤ s.world.bytes published.scope) ∧
      s.Carries scope (restoreWrites host published operationId) published.preparationBudgetBytes
  | .outside world => ∀ other ∈ s.begun, world.bytes other.1 ≤ s.world.bytes other.1

/-- Every scope is within its budget, and every action is of a call. -/
structure Ledger.Sound (s : Ledger) : Prop where
  within : Within s.begun s.world
  prepared : ∀ a ∈ s.prepared, (a.scope, a.preparationBudgetBytes) ∈ s.begun

theorem beyond_self (w : World) (s : Scope) : w.beyond s s = 0 := by
  have hno : ∀ p name, (s.covers p name && !s.covers p name) = false := fun p name => Bool.and_not_self _
  rw [World.beyond, World.held]
  refine Finset.sum_eq_zero fun p _ => ?_
  simp only [hno, Bool.false_eq_true, if_false, Dir.weigh, List.map_const', List.sum_replicate, nsmul_zero]

/-- The scopes before a call that is begun in order. -/
theorem kept_cons {s : Ledger} (hs : s.Sound) {scope writes : Scope} {budget : Nat} (hcarries : s.Carries scope writes budget)
    (hfits : s.world.bytes scope ≤ budget) (left : Nat) :
    Kept ((scope, budget) :: s.begun) scope writes { s.world with left := left } := by
  refine ⟨fun other hother => ?_, fun other hother htouches => ?_⟩
  · obtain rfl | hother := List.mem_cons.mp hother
    · exact hfits
    · exact hs.within other hother
  · obtain rfl | hother := List.mem_cons.mp hother
    · exact beyond_self _ _
    · exact (hcarries other hother htouches).2

theorem admitted_cons {s : Ledger} {scope writes : Scope} {budget : Nat}
    (hsub : ∀ path name, writes.covers path name = true → scope.covers path name = true)
    (hcarries : s.Carries scope writes budget) : Admitted ((scope, budget) :: s.begun) scope writes budget := by
  refine ⟨List.mem_cons_self, hsub, fun other hother htouches => ?_⟩
  obtain rfl | hother := List.mem_cons.mp hother
  · exact le_rfl
  · exact (hcarries other hother htouches).1

/-- What a call leaves, from what it keeps. -/
theorem sound_cons {s : Ledger} (hs : s.Sound) {scope writes : Scope} {budget : Nat} {m : Call Action} {w : World}
    (hspec : Spec (Kept ((scope, budget) :: s.begun) scope writes) m
      (fun action v => Kept ((scope, budget) :: s.begun) scope writes v ∧ action.scope = scope ∧
        action.preparationBudgetBytes = budget) (fun _ => Kept ((scope, budget) :: s.begun) scope writes))
    (hkept : Kept ((scope, budget) :: s.begun) scope writes w) :
    Ledger.Sound ⟨(m.from w).2, (scope, budget) :: s.begun, returned (m.from w).1 ++ s.prepared⟩ := by
  have hold : ∀ a ∈ s.prepared, (a.scope, a.preparationBudgetBytes) ∈ (scope, budget) :: s.begun :=
    fun a ha => List.mem_cons_of_mem _ (hs.prepared a ha)
  have hrun := hspec w hkept
  cases hm : m.from w with
  | mk result v =>
    rw [hm] at hrun
    cases result with
    | ok action =>
      obtain ⟨hv, hscope, hbudget⟩ := hrun
      refine ⟨hv.within, fun a ha => ?_⟩
      obtain rfl | ha := List.mem_cons.mp ha
      · rw [hscope, hbudget]
        exact List.mem_cons_self
      · exact hold a ha
    | error halt => exact ⟨hrun.within, hold⟩

theorem step_sound {host : Host} {s : Ledger} (hs : s.Sound) {label : Label} (horder : Orderly host s label) :
    (s.step host label).Sound := by
  cases label with
  | prepare entry staging operationId attemptId temporary unique left =>
    obtain ⟨hstart, hcarries⟩ := horder
    have hfits : s.world.bytes (prepareScope host entry staging operationId) ≤ entry.preparationBudgetBytes := by
      obtain hmem | hzero := hstart
      · exact hs.within _ hmem
      · exact hzero.le.trans (Nat.zero_le _)
    exact sound_cons hs (prepareFile_kept rfl (admitted_cons (fun _ _ h => h) hcarries)) (kept_cons hs hcarries hfits left)
  | execute action left =>
    have hrun := executeFile_within host horder { s.world with left := left } hs.within
    refine ⟨?_, hs.prepared⟩
    show Within s.begun ((executeFile host action).from { s.world with left := left }).2
    cases hm : (executeFile host action).from { s.world with left := left } with
    | mk result v =>
      rw [hm] at hrun
      cases result with
      | ok out => exact hrun
      | error halt => exact hrun
  | restore published baseline staging operationId attemptId unique left =>
    obtain ⟨hpublished, hstart, hcarries⟩ := horder
    have hfits : s.world.bytes (restoreScope host published staging operationId) ≤ published.preparationBudgetBytes := by
      obtain hmem | hinherits := hstart
      · exact hs.within _ hmem
      · exact hinherits.trans (hs.within _ (hs.prepared _ hpublished))
    exact sound_cons hs (prepareRestore_kept rfl rfl (admitted_cons (restore_sub published staging operationId) hcarries))
      (kept_cons hs hcarries hfits left)
  | outside world => exact ⟨fun other hother => (horder other hother).trans (hs.within other hother), hs.prepared⟩

/-- In a run in order every action is within its budget, at every moment. -/
theorem run_within {host : Host} {w : World} {labels : List Label}
    (horder : Machine.Along (Ledger.step host) (Orderly host) ⟨w, [], []⟩ labels) :
    ∀ a ∈ (Machine.exec (Ledger.step host) ⟨w, [], []⟩ labels).prepared,
      (Machine.exec (Ledger.step host) ⟨w, [], []⟩ labels).world.bytes a.scope ≤ a.preparationBudgetBytes := by
  have hsound : (Machine.exec (Ledger.step host) ⟨w, [], []⟩ labels).Sound :=
    Machine.exec_inv_along (I := Ledger.Sound) (fun s label hs ho => step_sound hs ho) ⟨nofun, nofun⟩ horder
  exact fun a ha => hsound.within _ (hsound.prepared a ha)

end LocalHand.Files
