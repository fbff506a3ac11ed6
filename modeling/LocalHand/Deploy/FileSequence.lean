/-
The reservation of an entry covers its backup, a failed candidate, the candidate
and the staging of its restoration, in this order; the candidate has left its
namespace by then.
-/
import LocalHand.Deploy.FileRetention

namespace LocalHand.Files

open Directory Program
open Framing (Bytes)

/-- No file of the size is kept out by the byte budget: a larger one would decide the same. -/
def Spare (w : World) (s : Scope) (size : Nat) (limits : Limits) (budget : Nat) : Prop :=
  ∀ more, reserveCreation (s.dirs.map w.nodes) (w.nodes s.parent) s.namespaces size limits budget =
    reserveCreation (s.dirs.map w.nodes) (w.nodes s.parent) s.namespaces size limits (budget + more)

/-- The bytes of a state directory. -/
def World.stateBytes (w : World) (dir : String) : Nat := (w.nodes dir).weigh sizes

/-- The bytes of a namespace beside a target. -/
def World.namespaceBytes (w : World) (parent ns : String) : Nat := (w.nodes parent).weigh (sizesIn [ns])

section

variable {host : Host} {entry : Entry} {staging operationId attemptId temporary unique ns : String} {w w' : World}

theorem spare_of_le {s : Scope} {size budget : Nat} (limits : Limits)
    (h : (s.dirs.map w.stateBytes).sum + (w.nodes s.parent).weigh (sizesIn s.namespaces) + size ≤ budget) :
    Spare w s size limits budget := by
  intro more
  unfold reserveCreation
  cases hstates : usages limits (s.dirs.map w.nodes) with
  | error fault => rfl
  | ok states =>
    cases htargets : usage (w.nodes s.parent) (some s.namespaces) limits with
    | error fault => rfl
    | ok targets =>
      have hstateBytes := usages_ok hstates
      have htargetBytes : targets.2 = (w.nodes s.parent).weigh (sizesIn s.namespaces) := usage_ok htargets
      rw [List.map_map] at hstateBytes
      have hdirs : states.2 = (s.dirs.map w.stateBytes).sum := hstateBytes
      have hfits : states.2 + targets.2 + size ≤ budget := by omega
      have hmore : states.2 + targets.2 + size ≤ budget + more := by omega
      simp only [bind, Except.bind, hfits, hmore]

theorem weigh_moved_at (weight : String → Node → Nat) (path from' name : String) (node : Node) (p : String) :
    ((w.modify path (moved from' name node)).nodes p).weigh weight ≤
      (w.nodes p).weigh weight + if p = path then weight name node else 0 := by
  rw [nodes_modify]
  by_cases hp : p = path ∧ (w.folders p).isSome
  · rw [if_pos hp, if_pos hp.1]
    exact weigh_moved_le _ _ _ _ _
  · rw [if_neg hp]
    exact Nat.le_add_right _ _

theorem sizesIn_le (namespaces : List String) (name : String) (node : Node) : sizesIn namespaces name node ≤ node.size := by
  rw [sizesIn]
  split
  · exact le_rfl
  · exact Nat.zero_le _

/-- What a preparation has added, wherever it is stopped. -/
structure Added (entry : Entry) (staging ns : String) (w w' : World) (backup candidate : Nat) : Prop where
  state : w'.stateBytes staging ≤ w.stateBytes staging + backup
  beside : w'.namespaceBytes entry.target.parent ns ≤ w.namespaceBytes entry.target.parent ns + candidate

theorem Added.of_same (hsame : w.Same w') (backup candidate : Nat) : Added entry staging ns w w' backup candidate := by
  refine ⟨?_, ?_⟩
  · rw [World.stateBytes, nodes_congr hsame.folders]
    exact Nat.le_add_right _ _
  · rw [World.namespaceBytes, nodes_congr hsame.folders]
    exact Nat.le_add_right _ _

theorem Added.trans {v : World} {backup candidate backup' candidate' : Nat} (h : Added entry staging ns w w' backup candidate)
    (h' : Added entry staging ns w' v backup' candidate') :
    Added entry staging ns w v (backup + backup') (candidate + candidate') := by
  have hstate := h.state
  have hstate' := h'.state
  have hns := h.beside
  have hns' := h'.beside
  exact ⟨by omega, by omega⟩

theorem Added.mono {backup candidate backup' candidate' : Nat} (h : Added entry staging ns w w' backup candidate)
    (hbackup : backup ≤ backup') (hcandidate : candidate ≤ candidate') : Added entry staging ns w w' backup' candidate' :=
  ⟨h.state.trans (Nat.add_le_add_left hbackup _), h.beside.trans (Nat.add_le_add_left hcandidate _)⟩

variable (ns) in
theorem added_backup (hapart : staging ≠ entry.target.parent) {from' name : String} {object : Object} {size : Nat}
    (hsize : object.data.length ≤ size) (hsame : w'.folders = (w.modify staging (moved from' name (.file object))).folders) :
    Added entry staging ns w w' size 0 := by
  refine ⟨?_, ?_⟩
  · have hle := weigh_moved_at (w := w) sizes staging from' name (.file object) staging
    rw [if_pos rfl] at hle
    rw [World.stateBytes, nodes_congr hsame]
    exact hle.trans (Nat.add_le_add_left hsize _)
  · have hle := weigh_moved_at (w := w) (sizesIn [ns]) staging from' name (.file object) entry.target.parent
    rw [if_neg hapart.symm] at hle
    rw [World.namespaceBytes, nodes_congr hsame]
    exact hle

variable (ns) in
theorem added_candidate (hapart : staging ≠ entry.target.parent) {name : String} {o : Object} {size : Nat}
    (hsize : o.data.length ≤ size)
    (hsame : w'.folders = (w.modify entry.target.parent (moved name name (.file o))).folders) :
    Added entry staging ns w w' 0 size := by
  refine ⟨?_, ?_⟩
  · have hle := weigh_moved_at (w := w) sizes entry.target.parent name name (.file o) staging
    rw [if_neg hapart] at hle
    rw [World.stateBytes, nodes_congr hsame]
    exact hle
  · have hle := weigh_moved_at (w := w) (sizesIn [ns]) entry.target.parent name name (.file o) entry.target.parent
    rw [if_pos rfl] at hle
    rw [World.namespaceBytes, nodes_congr hsame]
    exact hle.trans (Nat.add_le_add_left ((sizesIn_le _ _ _).trans hsize) _)

theorem Growing.folders {states namespaces : List String} {parent path name : String} {limits : Limits} {budget : Nat} {data : Bytes}
    {object : Object} (h : Growing w states parent namespaces limits budget path name data object w') :
    w'.folders = (w.modify path (moved name name (.file object))).folders :=
  h.same.folders.trans (grown_folders w path name object)

section

variable {lock : Nat} {candidate original : Option (Shot × Bytes)}

theorem Reading.original_length (h : Reading host entry staging operationId attemptId w lock ns candidate original) {shot : Shot}
    {old : Bytes} (hsome : original = some (shot, old)) : old.length = sizeOf entry.original := by
  have hread := h.read
  rw [hsome] at hread
  obtain ⟨object, -, hout⟩ := readAt_some hread
  cases hout
  rw [← h.asPlanned, hsome]
  rfl

theorem Reading.candidate_length (h : Reading host entry staging operationId attemptId w lock ns candidate original) {shot : Shot}
    {data : Bytes} (hsome : candidate = some (shot, data)) : data.length = entry.candidateSize := by
  have hread := h.candidate
  rw [hsome, readCandidate] at hread
  cases hsource : entry.source with
  | none =>
    rw [hsource] at hread
    cases hread
  | some source =>
    obtain ⟨path, snapshot⟩ := source
    rw [hsource] at hread
    obtain ⟨⟨candidate', data'⟩, hpath, hread⟩ := bind_ok_iff.mp hread
    obtain ⟨_, hmatching, hread⟩ := bind_ok_iff.mp hread
    cases hread
    obtain ⟨folder, -, hrequired⟩ := bind_ok_iff.mp hpath
    obtain ⟨object, -, hout⟩ := get_readRequired hrequired
    cases hout
    simp only [matching, require_ok, decide_eq_true_eq] at hmatching
    rw [Entry.candidateSize, hsource, Option.map_some, ← hmatching]
    rfl

/-- A backup adds the original, and nothing where it was there. -/
theorem added_backing (h : Reading host entry staging operationId attemptId w lock ns candidate original)
    {backup : Option (Path × Shot)} (hbacking : Backing host entry staging ns temporary w original backup w') :
    Added entry staging ns w w' (sizeOf entry.original) 0 := by
  cases original with
  | none =>
    cases backup with
    | none => exact .of_same hbacking _ _
    | some backup => exact hbacking.elim
  | some read =>
    obtain ⟨shot, old⟩ := read
    cases backup with
    | none => exact hbacking.elim
    | some backup =>
      obtain ⟨-, ⟨hsame, -⟩ | hbacked⟩ := hbacking
      · exact .of_same hsame _ _
      · exact added_backup _ h.apart (h.original_length rfl).le hbacked.same.folders

theorem added_backing_present (hbacking : Backing host entry staging ns temporary w original (backup : Option (Path × Shot)) w')
    (hpresent : (w.nodes staging).has (backupName host entry.target) = true) : w.Same w' := by
  cases original with
  | none =>
    cases backup with
    | none => exact hbacking
    | some backup => exact hbacking.elim
  | some read =>
    cases backup with
    | none => exact hbacking.elim
    | some backup =>
      obtain ⟨-, ⟨hsame, -⟩ | hbacked⟩ := hbacking
      · exact hsame
      · rw [has_iff, hbacked.free] at hpresent
        obtain ⟨_, hno⟩ := hpresent
        cases hno

theorem added_unfinished (h : Reading host entry staging operationId attemptId w lock ns candidate original)
    (hrun : Unfinished host entry staging ns temporary unique candidate original w w') :
    Added entry staging ns w w' (sizeOf entry.original) entry.candidateSize := by
  cases hrun with
  | backingUp shot old object hsome hgrowing =>
    have hadded := added_backup ns h.apart (hgrowing.part.length_le.trans (h.original_length hsome).le) hgrowing.folders
    exact hadded.mono le_rfl (Nat.zero_le _)
  | backedUp shot old hsome hbacked =>
    have hadded := added_backup (w := w) ns h.apart (h.original_length hsome).le hbacked.same.folders
    exact hadded.mono le_rfl (Nat.zero_le _)
  | staging backup w₁ shot data object hbacking hsome hgrowing =>
    have hfirst := added_backing h hbacking
    have hsecond := added_candidate ns h.apart (hgrowing.part.length_le.trans (h.candidate_length hsome).le) hgrowing.folders
    simpa using hfirst.trans hsecond

variable (host entry staging operationId attemptId temporary unique w) in
/-- However a preparation ends, it has added a backup and a candidate at most. -/
theorem prepareFile_added : Spec (fun v => v = w) (prepareFile host entry staging operationId attemptId temporary unique)
    (fun _ v => Added entry staging (namespaceText host operationId entry.target) w v (sizeOf entry.original) entry.candidateSize)
    (fun _ v => Added entry staging (namespaceText host operationId entry.target) w v (sizeOf entry.original) entry.candidateSize) := by
  refine prepareFile_spec.weaken (fun _ h => h) ?_ ?_
  · rintro a v ⟨lock, ns, candidate, original, hreading, hfinished⟩
    obtain rfl := namespaceOf_ok hreading.ns
    cases hfinished with
    | noop _ hsame _ => exact .of_same hsame _ _
    | delete backup hbacking _ _ _ => exact (added_backing hreading hbacking).mono le_rfl (Nat.zero_le _)
    | replace backup w₁ shot data action hbacking hsome hstaged _ =>
      have hfirst := added_backing hreading hbacking
      have hsecond := added_candidate (w := w₁) (o := ⟨w₁.next, data, entry.attributes⟩) (namespaceText host operationId entry.target) hreading.apart
        (hreading.candidate_length hsome).le
        (hstaged.same.folders.trans (grown_folders w₁ _ _ _))
      simpa using hfirst.trans hsecond
  · rintro _ v (hsame | ⟨lock, ns, candidate, original, hreading, ⟨backup, hbacking⟩ | hrun⟩)
    · exact .of_same hsame _ _
    · obtain rfl := namespaceOf_ok hreading.ns
      exact (added_backing hreading hbacking).mono le_rfl (Nat.zero_le _)
    · obtain rfl := namespaceOf_ok hreading.ns
      exact added_unfinished hreading hrun

end

/-- What is retained beside a new action, as far as it matters for its bytes. -/
structure NoMore (entry : Entry) (staging ns : String) (w w' : World) : Prop where
  state : w'.stateBytes staging ≤ w.stateBytes staging
  beside : w'.namespaceBytes entry.target.parent ns ≤ w.namespaceBytes entry.target.parent ns

theorem noMore_of_added (h : Added entry staging ns w w' 0 0) : NoMore entry staging ns w w' := ⟨h.state, h.beside⟩

theorem noMore_removed (name : String) : NoMore entry staging ns w (w.modify entry.target.parent (·.remove name)) := by
  have hle : ∀ weight : String → Node → Nat, ∀ p, ((w.modify entry.target.parent (·.remove name)).nodes p).weigh weight ≤
      (w.nodes p).weigh weight := by
    intro weight p
    rw [nodes_modify]
    split
    · exact weigh_remove_le _ _
    · exact le_rfl
  exact ⟨hle sizes staging, hle (sizesIn [ns]) entry.target.parent⟩

/-- A candidate that is published leaves nothing where it was staged. -/
theorem noMore_published (hapart : staging ≠ entry.target.parent) (huncovered : startsWith [ns] entry.target.name = false)
    {staged : String} {object : Object} :
    NoMore entry staging ns w ((w.grown entry.target.parent staged object).modify entry.target.parent (renamed staged entry.target.name)) := by
  have hfolders : ((w.grown entry.target.parent staged object).modify entry.target.parent (renamed staged entry.target.name)).folders =
      (w.modify entry.target.parent (moved staged entry.target.name (.file object))).folders :=
    renamed_folders { w with next := w.next + 1 } entry.target.parent staged entry.target.name object
  refine ⟨?_, ?_⟩
  · have hle := weigh_moved_at (w := w) sizes entry.target.parent staged entry.target.name (.file object) staging
    rw [if_neg hapart] at hle
    rw [World.stateBytes, nodes_congr hfolders]
    exact hle
  · have hle := weigh_moved_at (w := w) (sizesIn [ns]) entry.target.parent staged entry.target.name (.file object) entry.target.parent
    rw [if_pos rfl, sizesIn, huncovered] at hle
    rw [World.namespaceBytes, nodes_congr hfolders]
    exact hle

theorem NoMore.congr {v v' : World} (h : NoMore entry staging ns v v') (hw : w.folders = v.folders) (hw' : w'.folders = v'.folders) :
    NoMore entry staging ns w w' := by
  obtain ⟨hstate, hns⟩ := h
  rw [World.stateBytes, World.stateBytes, ← nodes_congr hw, ← nodes_congr hw'] at hstate
  rw [World.namespaceBytes, World.namespaceBytes, ← nodes_congr hw, ← nodes_congr hw'] at hns
  exact ⟨hstate, hns⟩

/-- A preparation that had its backup, and the publication of its action. -/
theorem noMore_executed {a : Action} {w₂ w₃ : World} {lock : Nat} {candidate original : Option (Shot × Bytes)}
    (hreading : Reading host entry staging operationId attemptId w lock ns candidate original)
    (hbacked : original = none ∨ (w.nodes staging).has (backupName host entry.target) = true)
    (hfinished : Finished host entry staging operationId attemptId temporary unique lock ns candidate original w a w₂)
    (huncovered : startsWith [ns] entry.target.name = false) (hrun : Published host a w₂ w₃ ∨ a.kind ≠ .replace ∧ w₂.Same w₃) :
    NoMore entry staging ns w w₃ := by
  have hpresent : ∀ backup v, Backing host entry staging ns temporary w original backup v → w.Same v := by
    intro backup v hbacking
    obtain rfl | hhas := hbacked
    · cases backup with
      | none => exact hbacking
      | some backup => exact hbacking.elim
    · exact added_backing_present hbacking hhas
  cases hfinished with
  | noop _ hsame hlike =>
    have hkind : a.kind = .noop := congrArg Action.kind hlike
    obtain hpublished | ⟨-, hsame'⟩ := hrun
    · obtain ⟨hno, -⟩ | ⟨hno, -⟩ := hpublished.change
      · rw [hkind] at hno
        cases hno
      · rw [hkind] at hno
        cases hno
    · exact noMore_of_added (.of_same (hsame.trans hsame') 0 0)
  | delete backup hbacking _ _ hlike =>
    have hkind : a.kind = .delete := congrArg Action.kind hlike
    have htarget : a.target = entry.target := congrArg Action.target hlike
    have hsame := hpresent backup w₂ hbacking
    obtain hpublished | ⟨-, hsame'⟩ := hrun
    · obtain ⟨hno, -⟩ | ⟨-, hsame'⟩ := hpublished.change
      · rw [hkind] at hno
        cases hno
      · rw [htarget] at hsame'
        exact (noMore_removed (w := w₂) entry.target.name).congr hsame.folders.symm hsame'.folders
    · exact noMore_of_added (.of_same (hsame.trans hsame') 0 0)
  | replace backup w₁ shot data action hbacking _ hstaged hlike =>
    have hsame := hpresent backup w₁ hbacking
    have hlike' : a.Like { entryAction entry staging operationId attemptId ns lock with
      backup := backup, kind := .replace, desired := some (Object.shot host ⟨w₁.next, data, entry.attributes⟩),
      staged := some (⟨entry.target.parent, ns ++ unique⟩, Object.shot host ⟨w₁.next, data, entry.attributes⟩) } := by
      have haction := hstaged.action
      rw [haction] at hlike
      exact hlike
    have hkind : a.kind = .replace := congrArg Action.kind hlike'
    have htarget : a.target = entry.target := congrArg Action.target hlike'
    have hstagedName : a.staged = some (⟨entry.target.parent, ns ++ unique⟩, Object.shot host ⟨w₁.next, data, entry.attributes⟩) :=
      congrArg Action.staged hlike'
    obtain hpublished | ⟨hno, -⟩ := hrun
    · obtain ⟨-, path, shot', object, hpath, -, -, hsame'⟩ | ⟨hno, -⟩ := hpublished.change
      · rw [hstagedName] at hpath
        cases hpath
        rw [htarget] at hsame'
        have hgrown := same_modify hstaged.same entry.target.parent (renamed (ns ++ unique) entry.target.name)
        exact (noMore_published (w := w₁) hreading.apart huncovered).congr hsame.folders.symm
          (hsame'.folders.trans hgrown.folders)
      · rw [hkind] at hno
        cases hno
    · exact absurd hkind hno

theorem Finished.congr {a : Action} {v v' : World} {lock : Nat} {candidate original : Option (Shot × Bytes)}
    (h : Finished host entry staging operationId attemptId temporary unique lock ns candidate original w a v) (hsame : v.Same v') :
    Finished host entry staging operationId attemptId temporary unique lock ns candidate original w a v' := by
  cases h with
  | noop hvalue hw hlike => exact .noop hvalue (hw.trans hsame) hlike
  | delete backup hbacking hcandidate horiginal hlike => exact .delete backup (hbacking.congr hsame) hcandidate horiginal hlike
  | replace backup w₁ shot data action hbacking hcandidate hstaged hlike =>
    exact .replace backup w₁ shot data action hbacking hcandidate
      ⟨hstaged.reserved, hstaged.free, hstaged.same.trans hsame, hstaged.action⟩ hlike

/-- The scope of what a preparation returned. -/
theorem finished_scope {a : Action} {w₂ : World} {lock : Nat} {candidate original : Option (Shot × Bytes)}
    (hfinished : Finished host entry staging operationId attemptId temporary unique lock ns candidate original w a w₂) :
    a.target = entry.target ∧ a.retainedStateDirs = [staging] ∧ a.retainedNamespaces = [ns] := by
  cases hfinished with
  | noop _ _ hlike =>
    exact ⟨congrArg Action.target hlike, congrArg Action.retainedStateDirs hlike, congrArg Action.retainedNamespaces hlike⟩
  | delete backup _ _ _ hlike =>
    exact ⟨congrArg Action.target hlike, congrArg Action.retainedStateDirs hlike, congrArg Action.retainedNamespaces hlike⟩
  | replace backup w₁ shot data action _ _ hstaged hlike =>
    have haction := hstaged.action
    rw [haction] at hlike
    exact ⟨congrArg Action.target hlike, congrArg Action.retainedStateDirs hlike, congrArg Action.retainedNamespaces hlike⟩

end

/-- A call, with some steps to go, that ends so. -/
def Leaves {α : Type} (m : Call α) (w : World) (result : Except Halt α) (w' : World) : Prop :=
  ∃ left, m.from { w with left := left } = (result, w')

theorem Leaves.ok {α : Type} {m : Call α} {w w' : World} {a : α} (h : Leaves m w (.ok a) w') {Q : World → α → World → Prop}
    {E : World → Halt → World → Prop} (hspec : ∀ w₀, Spec (fun v => v = w₀) m (Q w₀) (E w₀)) :
    ∃ w₀, w.Same w₀ ∧ Q w₀ a w' := by
  obtain ⟨left, hrun⟩ := h
  exact ⟨{ w with left := left }, ⟨rfl, rfl, rfl⟩, (hspec { w with left := left }).ok rfl hrun⟩

/-- From nothing retained: there is room for the backup; wherever the preparation stops, for the backup and the candidate
of another; and where that one finds the backup and what it returns is published, for the copy that restores it. -/
def Suffices (host : Host) (e : Entry) : Prop :=
  ∀ (staging operationId : String) (w₀ : World), w₀.stateBytes staging = 0 →
    w₀.namespaceBytes e.target.parent (namespaceText host operationId e.target) = 0 →
    Spare w₀ (prepareScope host e staging operationId) (sizeOf e.original) e.limits e.preparationBudgetBytes ∧
    ∀ attemptId temporary unique result w₁,
      Leaves (prepareFile host e staging operationId attemptId temporary unique) w₀ result w₁ →
      Spare w₁ (prepareScope host e staging operationId) (sizeOf e.original) e.limits e.preparationBudgetBytes ∧
      Spare w₁ (prepareScope host e staging operationId) e.candidateSize e.limits e.preparationBudgetBytes ∧
      ((e.original = none ∨ (w₁.nodes staging).has (backupName host e.target) = true) →
        ∀ attemptId temporary unique a w₂ out w₃,
          Leaves (prepareFile host e staging operationId attemptId temporary unique) w₁ (.ok a) w₂ →
          Leaves (executeFile host a) w₂ (.ok out) w₃ → (out.2 = true ∨ a.kind ≠ .replace) →
          startsWith [namespaceText host operationId e.target] e.target.name = false →
          ∀ staging' operationId', (staging' = staging ∨ w₃.stateBytes staging' = 0) →
            (namespaceText host operationId' e.target = namespaceText host operationId e.target ∨
              w₃.namespaceBytes e.target.parent (namespaceText host operationId' e.target) = 0) →
            Spare w₃ (restoreScope host a staging' operationId') (sizeOf e.original) e.limits e.preparationBudgetBytes)

section

variable {host : Host} {e : Entry} {staging operationId : String} {w : World}

theorem spare_prepare {size : Nat}
    (h : w.stateBytes staging + w.namespaceBytes e.target.parent (namespaceText host operationId e.target) + size ≤
      e.preparationBudgetBytes) :
    Spare w (prepareScope host e staging operationId) size e.limits e.preparationBudgetBytes := by
  refine spare_of_le e.limits ?_
  simpa [prepareScope, World.namespaceBytes] using h

theorem stateBytes_pair (dir dir' : String) (h : dir' = dir ∨ w.stateBytes dir' = 0) :
    ((([dir] ++ [dir']).eraseDups).map w.stateBytes).sum = w.stateBytes dir := by
  by_cases hsame : dir' = dir
  · subst hsame
    simp [List.eraseDups_cons]
  · have hzero := h.resolve_left hsame
    simp [List.eraseDups_cons, hsame, hzero]

theorem namespaceBytes_pair (parent ns ns' : String) (h : ns' = ns ∨ w.namespaceBytes parent ns' = 0) :
    (w.nodes parent).weigh (sizesIn ([ns] ++ [ns']).eraseDups) ≤ w.namespaceBytes parent ns := by
  by_cases hsame : ns' = ns
  · subst hsame
    simp [List.eraseDups_cons, World.namespaceBytes]
  · have hzero := h.resolve_left hsame
    have hsplit : (w.nodes parent).weigh (sizesIn ([ns] ++ [ns']).eraseDups) ≤
        (w.nodes parent).weigh (sizesIn [ns]) + (w.nodes parent).weigh (sizesIn [ns']) := by
      rw [Dir.weigh, Dir.weigh, Dir.weigh, ← List.sum_map_add]
      refine List.sum_le_sum fun x _ => ?_
      have hdups : ([ns] ++ [ns']).eraseDups = [ns, ns'] := by simp [List.eraseDups_cons, hsame]
      rw [hdups]
      simp only [sizesIn, startsWith, List.any_cons, List.any_nil, Bool.or_false]
      cases ns.toList.isPrefixOf x.1.toList <;> cases ns'.toList.isPrefixOf x.1.toList <;> simp
    rw [World.namespaceBytes] at hzero ⊢
    omega

theorem suffices_of_reserved (h : reservation (sizeOf e.original) e.candidateSize ≤ e.preparationBudgetBytes) : Suffices host e := by
  rw [reservation] at h
  have horiginal := Nat.le_max_left (sizeOf e.original) e.candidateSize
  have hcandidate := Nat.le_max_right (sizeOf e.original) e.candidateSize
  intro staging operationId w₀ hstate hns
  refine ⟨spare_prepare (by omega), ?_⟩
  intro attemptId temporary unique result w₁ hfirst
  have hadded : Added e staging (namespaceText host operationId e.target) w₀ w₁ (sizeOf e.original) e.candidateSize := by
    obtain ⟨left, hrun⟩ := hfirst
    have hspec := prepareFile_added host e staging operationId attemptId temporary unique { w₀ with left := left } { w₀ with left := left } rfl
    rw [hrun] at hspec
    cases result with
    | ok a => exact ⟨hspec.state, hspec.beside⟩
    | error halt => exact ⟨hspec.state, hspec.beside⟩
  obtain ⟨hstate₁, hns₁⟩ := hadded
  refine ⟨spare_prepare (by omega), spare_prepare (by omega), ?_⟩
  intro hbacked attemptId' temporary' unique' a w₂ out w₃ hsecond hexecuted hpublished huncovered staging' operationId' hstaging' hns'
  obtain ⟨v₁, hv₁, lock, ns, candidate, original, hreading, hfinished⟩ := hsecond.ok (fun _ => prepareFile_spec)
  obtain rfl := namespaceOf_ok hreading.ns
  obtain ⟨v₂, hv₂, hrun, -⟩ := hexecuted.ok (fun _ => executeFile_spec)
  have hbacked' : original = none ∨ (v₁.nodes staging).has (backupName host e.target) = true := by
    rw [nodes_congr hv₁.folders]
    obtain hnone | hhas := hbacked
    · have hplanned := hreading.asPlanned
      rw [hnone, Option.map_eq_none_iff] at hplanned
      exact .inl hplanned
    · exact .inr hhas
  have hexecution : Published host a v₂ w₃ ∨ a.kind ≠ .replace ∧ v₂.Same w₃ := by
    obtain ⟨hunchanged, hsame, -⟩ | ⟨-, hpublished'⟩ := hrun
    · refine .inr ⟨hpublished.resolve_left ?_, hsame⟩
      rw [hunchanged]
      exact Bool.false_ne_true
    · exact .inl hpublished'
  obtain ⟨hstate₃, hns₃⟩ := (noMore_executed hreading hbacked' (hfinished.congr hv₂) huncovered hexecution).congr
    (w := w₁) hv₁.folders.symm rfl
  obtain ⟨htarget, hdirs, hnamespaces⟩ := finished_scope hfinished
  refine spare_of_le e.limits ?_
  rw [restoreScope, htarget, hdirs, hnamespaces]
  have hdirs₃ := stateBytes_pair staging staging' hstaging'
  have hnamespaces₃ := namespaceBytes_pair e.target.parent (namespaceText host operationId e.target)
    (namespaceText host operationId' e.target) hns'
  simp only
  omega

end

/-- **File byte budgets suffice**: the budgets of a plan are all it may use, each covers its reservation, and in every run
in order what an action retains stays within its budget at every moment. -/
theorem budgets_suffice {host : Host} {w : World} {specs : List FileSpec} {limits : Limits} {ownerUid : Nat} {plan : Plan}
    (hplan : planFiles host w specs limits ownerUid = .ok plan) (hne : specs ≠ []) :
    (plan.files.map (·.preparationBudgetBytes)).sum = limits.maxTotalBytes ∧
      (∀ e ∈ plan.files, sizeOf e.original + 2 * max (sizeOf e.original) e.candidateSize ≤ e.preparationBudgetBytes ∧
        Suffices host e) ∧
      ∀ v labels, Machine.Along (Ledger.step host) (Orderly host) ⟨v, [], []⟩ labels →
        ∀ a ∈ (Machine.exec (Ledger.step host) ⟨v, [], []⟩ labels).prepared,
          (Machine.exec (Ledger.step host) ⟨v, [], []⟩ labels).world.bytes a.scope ≤ a.preparationBudgetBytes := by
  obtain ⟨hsum, hreserved⟩ := planFiles_budgets hplan hne
  refine ⟨hsum, fun e he => ⟨hreserved e he, suffices_of_reserved (hreserved e he)⟩, fun v labels horder => run_within horder⟩

/-! ### A small plan -/

def plainHost : Host where
  path text := [("/t/f", Path.mk "/t" "f"), ("/src/f", Path.mk "/src" "f")].lookup text
  sha256 raw := String.ofList (raw.map fun byte => Char.ofNat (byte.toNat + 48))
  namespaceDigest operationId _ := operationId
  targetDigest target := target.name
  euid := 0
  egid := 0

def folderOf (binding mode : Nat) (files : Dir Node) : Folder := ⟨⟨binding, mode, 0, 0⟩, files⟩

def oneFile (binding : Nat) (byte : UInt8) : Dir Node := Dir.empty.put "f" (.file ⟨binding, [byte], 0o644, 0, 0⟩)

/-- The directories of a target, of a source and of three stagings. -/
def smallFolders : Dir Folder :=
  ⟨[("/t", folderOf 1 0o755 (oneFile 10 1)), ("/src", folderOf 2 0o755 (oneFile 11 2)), ("/s", folderOf 3 0o700 .empty),
    ("/sa", folderOf 4 0o700 .empty), ("/sb", folderOf 5 0o700 .empty)], by decide⟩

theorem smallFolders_apart : ∀ x ∈ smallFolders.entries, ∀ y ∈ smallFolders.entries,
    x.2.place.binding = y.2.place.binding → x.1 = y.1 := by decide

def smallWorld : World where
  folders := smallFolders.get
  lock := some 6
  next := 20
  left := 0
  apart p q f g hf hg := smallFolders_apart (p, f) (get_iff_mem.mp hf) (q, g) (get_iff_mem.mp hg)

def smallLimits : Limits := ⟨1, 10, 3, 16, 100, by decide⟩

/-- A file of one byte that another replaces: a backup, the candidate and one copy more. -/
def smallEntry : Entry :=
  ⟨⟨"/t", "f"⟩, ⟨1, 0o755, 0, 0⟩, some ⟨10, 1, "1", 0o644, 0, 0⟩, some (⟨"/src", "f"⟩, ⟨11, 1, "2", 0o644, 0, 0⟩), ⟨0o644, 0, 0⟩, 0,
    smallLimits, 3⟩

theorem smallEntry_planned : planFiles plainHost smallWorld [.publish "/t/f" "/src/f" none none none] smallLimits 0 =
    .ok ⟨[smallEntry], smallLimits, 3⟩ := rfl

/-- The plan of one file, and its preparation. -/
theorem budgets_suffice_small : Suffices plainHost smallEntry ∧
    ∀ a ∈ (Machine.exec (Ledger.step plainHost) ⟨smallWorld, [], []⟩ [.prepare smallEntry "/s" "a" "1" "t" "u" 99]).prepared,
      (Machine.exec (Ledger.step plainHost) ⟨smallWorld, [], []⟩ [.prepare smallEntry "/s" "a" "1" "t" "u" 99]).world.bytes a.scope ≤
        a.preparationBudgetBytes := by
  obtain ⟨-, hentries, hruns⟩ := budgets_suffice smallEntry_planned (List.cons_ne_nil _ _)
  refine ⟨(hentries smallEntry List.mem_cons_self).2, hruns smallWorld _ ⟨⟨.inr ?_, nofun⟩, trivial⟩⟩
  decide +kernel

def candidateShot : Shot := ⟨21, 1, "2", 0o644, 0, 0⟩

/-- What the first call returns, whose candidate is published. -/
def first : Action :=
  { entryAction smallEntry "/s" "a" "1" ".lh-deploy-a-" 6 with
    kind := .replace
    desired := some candidateShot
    backup := some (⟨"/s", "original-f"⟩, ⟨20, 1, "1", 0o600, 0, 0⟩)
    staged := some (⟨"/t", ".lh-deploy-a-u"⟩, candidateShot)
    retainedObjects := [(⟨"/t", ".lh-deploy-a-u"⟩, candidateShot)] }

/-- A copy of the original that a restoration stages. -/
def copyOf (action : Action) (binding : Nat) (name : String) (retained : List (Path × Shot)) : Action :=
  { action with
    kind := .replace
    desired := some ⟨binding, 1, "1", 0o644, 0, 0⟩
    staged := some (⟨"/t", name⟩, ⟨binding, 1, "1", 0o644, 0, 0⟩)
    retainedObjects := retained }

def firstCopy : Path × Shot := (⟨"/t", ".lh-deploy-b-u"⟩, ⟨22, 1, "1", 0o644, 0, 0⟩)

def secondCopy : Path × Shot := (⟨"/t", ".lh-deploy-c-u"⟩, ⟨23, 1, "1", 0o644, 0, 0⟩)

def thirdCopy : Path × Shot := (⟨"/t", ".lh-deploy-b-v"⟩, ⟨24, 1, "1", 0o644, 0, 0⟩)

/-- Its restoration. -/
def restoring : Action :=
  copyOf (restoreAction first first (some candidateShot) "/sa" "b" "1" ".lh-deploy-b-" 6) 22 ".lh-deploy-b-u" [firstCopy]

/-- The restoration in another operation, which inherits the first. -/
def inheriting : Action :=
  copyOf (restoreAction restoring first (some candidateShot) "/sb" "c" "1" ".lh-deploy-c-" 6) 23 ".lh-deploy-c-u"
    [firstCopy, secondCopy]

/-- The first restoration, prepared again. -/
def again : Action :=
  copyOf (restoreAction first first (some candidateShot) "/sa" "b" "1" ".lh-deploy-b-" 6) 24 ".lh-deploy-b-v" [firstCopy, thirdCopy]

def retryCalls : List Label :=
  [.prepare smallEntry "/s" "a" "1" "t" "u" 99, .execute first 99, .restore first first "/sa" "b" "1" "u" 99,
    .restore restoring first "/sb" "c" "1" "u" 99, .restore first first "/sa" "b" "1" "v" 99]

/-- A restoration that is prepared again adds to what its heir retains, and is not charged for the heir's copy. -/
theorem retry_exceeds : planFiles plainHost smallWorld [.publish "/t/f" "/src/f" none none none] smallLimits 0 =
      .ok ⟨[smallEntry], smallLimits, 3⟩ ∧
    (Machine.exec (Ledger.step plainHost) ⟨smallWorld, [], []⟩ retryCalls).prepared = [again, inheriting, restoring, first] ∧
    inheriting.preparationBudgetBytes <
      (Machine.exec (Ledger.step plainHost) ⟨smallWorld, [], []⟩ retryCalls).world.bytes inheriting.scope := by
  refine ⟨rfl, ?_, ?_⟩
  · decide +kernel
  · decide +kernel

end LocalHand.Files
