/-
What the steps of a call do to the world: a check does nothing, a change is made or
not, and a new file is whole or as far as it was written.
-/
import LocalHand.Deploy.FileActions

namespace LocalHand.Files

open Directory Program
open Framing (Bytes)

/-- The same files under the same lock; a step that was taken is not told apart. -/
structure World.Same (w₀ w : World) : Prop where
  folders : w.folders = w₀.folders
  lock : w.lock = w₀.lock
  next : w.next = w₀.next

theorem World.Same.refl (w : World) : w.Same w := ⟨rfl, rfl, rfl⟩

section

variable {α β : Type} {w₀ w : World} {P : World → Prop}

theorem ofExcept_spec (x : Except Fault α) : Spec P (ofExcept x) (fun a w => x = .ok a ∧ P w) (fun _ => P) := by
  intro w hw
  cases x with
  | ok a => exact ⟨rfl, hw⟩
  | error fault => exact hw

/-- A check before the rest. -/
theorem check_bind {x : Except Fault α} {f : α → Call β} {Q : β → World → Prop} {E : Halt → World → Prop}
    (hstop : ∀ e w, P w → E e w) (h : ∀ a, x = .ok a → Spec P (f a) Q E) : Spec P (ofExcept x >>= f) Q E := by
  refine Spec.bind ((ofExcept_spec x).weaken (fun _ h => h) (fun _ _ h => h) hstop) fun a => ?_
  intro w hw
  exact h a hw.1 w hw.2

/-- A look at the world before the rest. -/
theorem look_bind {f : World → Call β} {Q : β → World → Prop} {E : Halt → World → Prop}
    (h : ∀ v, P v → Spec (fun w => w = v) (f v) Q E) : Spec P (get >>= f) Q E := by
  refine Spec.bind (Q := fun v w => w = v ∧ P v) (Spec.read fun w hw => ⟨rfl, hw⟩) fun v => ?_
  rintro w ⟨rfl, hw⟩
  exact h w hw w rfl

theorem tick_spec : Spec w₀.Same tick (fun _ => w₀.Same) (fun _ => w₀.Same) := by
  refine look_bind fun v hv => ?_
  by_cases hleft : v.left = 0
  · rw [if_pos hleft]
    refine Spec.bind (Q := fun _ _ => False) (Spec.raise ?_) fun _ _ hw => hw.elim
    rintro w rfl
    exact hv
  · rw [if_neg hleft]
    refine Spec.update (f := fun _ => { v with left := v.left - 1 }) ?_
    intro _ _
    exact ⟨hv.folders, hv.lock, hv.next⟩

theorem same_modify (h : w₀.Same w) (path : String) (f : Dir Node → Dir Node) : (w₀.modify path f).Same (w.modify path f) :=
  ⟨by simp only [World.modify, h.folders], h.lock, h.next⟩

theorem change_spec (path : String) (f : Dir Node → Dir Node) :
    Spec w.Same (change path f) (fun _ => (w.modify path f).Same) (fun _ => w.Same) := by
  refine Spec.bind tick_spec fun _ => ?_
  exact Spec.update fun w hw => same_modify hw path f

theorem modify_modify (w : World) (path : String) (f g : Dir Node → Dir Node) :
    ((w.modify path f).modify path g).folders = (w.modify path fun nodes => g (f nodes)).folders := by
  funext p
  simp only [World.modify, Option.map_map]
  congr 1
  funext folder
  simp only [Function.comp]
  split <;> rfl

/-- A world with a file, whatever its name had. -/
def World.with (w : World) (path name : String) (object : Object) : World := w.modify path (·.put name (.file object))

theorem with_with (w : World) (path name : String) (object object' : Object) :
    (w.with path name object').Same ((w.with path name object).with path name object') := by
  refine ⟨?_, rfl, rfl⟩
  rw [World.with, World.with, modify_modify]
  simp only [put_put]
  rfl

theorem World.Same.trans {v : World} (h : w₀.Same w) (h' : w.Same v) : w₀.Same v :=
  ⟨h'.folders.trans h.folders, h'.lock.trans h.lock, h'.next.trans h.next⟩

theorem put_spec (path name : String) (object object' : Object) :
    Spec (w₀.with path name object).Same (change path (·.put name (.file object'))) (fun _ => (w₀.with path name object').Same)
      (fun _ => (w₀.with path name object).Same) :=
  (change_spec path _).weaken (fun _ h => h) (fun _ _ h => (with_with w₀ path name object object').trans h) fun _ _ h => h

theorem writeBytes_spec (path name : String) (object : Object) (bytes : Bytes) :
    Spec (w₀.with path name object).Same (writeBytes path name object bytes)
      (fun _ => (w₀.with path name { object with data := object.data ++ bytes }).Same)
      (fun _ w => ∃ part, part <+: bytes ∧ (w₀.with path name { object with data := object.data ++ part }).Same w) := by
  induction bytes generalizing object with
  | nil =>
    intro w hw
    rw [List.append_nil]
    exact hw
  | cons byte bytes ih =>
    refine Spec.bind (Q := fun _ => (w₀.with path name { object with data := object.data ++ [byte] }).Same)
      ((put_spec path name object _).weaken (fun _ h => h) (fun _ _ h => h) fun _ w h => ⟨[], List.nil_prefix, ?_⟩) fun _ => ?_
    · rw [List.append_nil]
      exact h
    · refine (ih { object with data := object.data ++ [byte] }).weaken (fun _ h => h) ?_ ?_
      · intro _ w h
        simpa only [List.append_assoc, List.singleton_append] using h
      · rintro _ w ⟨part, hpart, h⟩
        refine ⟨byte :: part, List.cons_prefix_cons.mpr ⟨rfl, hpart⟩, ?_⟩
        simpa only [List.append_assoc, List.singleton_append] using h

end

def Object.shot (host : Host) (o : Object) : Shot := ⟨o.binding, o.data.length, host.sha256 o.data, o.attributes⟩

section

variable {host : Host} {w₀ : World}

theorem readFd_ok {object : Object} {maximum ownerUid : Nat} {out : Shot × Bytes} (h : readFd host object maximum ownerUid = .ok out) :
    out = (object.shot host, object.data) := by
  obtain ⟨-, -, h⟩ := bind_ok_iff.mp h
  obtain ⟨-, -, h⟩ := bind_ok_iff.mp h
  obtain ⟨-, -, h⟩ := bind_ok_iff.mp h
  obtain ⟨-, -, h⟩ := bind_ok_iff.mp h
  cases h
  rfl

/-- The world in which the next file has been made. -/
def World.grown (w : World) (path name : String) (object : Object) : World := ({ w with next := w.next + 1 } : World).with path name object

/-- A new file stands whole under a name that was free, or as far as it was written. -/
theorem writeNew_spec (path name : String) (data : Bytes) (attributes : Attributes) (ownerUid : Nat) :
    Spec (fun w => w = w₀) (writeNew host path name data attributes ownerUid)
      (fun shot w => (w₀.nodes path).get name = none ∧ shot = (Object.shot host ⟨w₀.next, data, attributes⟩) ∧
        (w₀.grown path name ⟨w₀.next, data, attributes⟩).Same w)
      (fun _ w => w₀.Same w ∨ ∃ object : Object, object.binding = w₀.next ∧ object.data <+: data ∧
        (w₀.nodes path).get name = none ∧ (w₀.grown path name object).Same w) := by
  unfold writeNew
  refine look_bind fun v hv => ?_
  subst hv
  by_cases htaken : (v.nodes path).has name = true
  · simp only [htaken, if_true]
    exact Spec.bind (Q := fun _ _ => False) (Spec.raise fun w hw => .inl (hw ▸ .refl v)) fun _ w hw => hw.elim
  · have hfree : (v.nodes path).get name = none := has_false.mp (by simpa using htaken)
    rw [if_neg htaken]
    refine Spec.bind (Q := fun _ => v.Same) (tick_spec.weaken (fun w hw => hw ▸ .refl v) (fun _ _ h => h) fun _ _ h => .inl h) fun _ => ?_
    refine Spec.bind (Q := fun _ => (v.grown path name ⟨v.next, [], ⟨0o600, host.euid, host.egid⟩⟩).Same)
      (Spec.update fun w hw => ?_) fun _ => ?_
    · have hsame := same_modify hw path (·.put name (.file ⟨v.next, [], ⟨0o600, host.euid, host.egid⟩⟩))
      exact ⟨hsame.folders, hsame.lock, by simp only [hw.next, World.grown, World.with, World.modify]⟩
    refine Spec.bind ((writeBytes_spec path name _ data).weaken (fun _ h => h) (fun _ _ h => h)
      fun _ w h => ?_) fun _ => ?_
    · obtain ⟨part, hpart, h⟩ := h
      exact .inr ⟨_, rfl, hpart, hfree, h⟩
    refine Spec.bind ((put_spec path name _ _).weaken (fun _ h => h) (fun _ _ h => h)
      fun _ w h => .inr ⟨_, rfl, List.prefix_rfl, hfree, h⟩) fun _ => ?_
    refine Spec.bind ((put_spec path name _ _).weaken (fun _ h => h) (fun _ _ h => h)
      fun _ w h => .inr ⟨_, rfl, List.prefix_rfl, hfree, h⟩) fun _ => ?_
    refine check_bind (fun _ w h => .inr ⟨_, rfl, List.prefix_rfl, hfree, h⟩) fun out hread => ?_
    obtain rfl := readFd_ok hread
    exact Spec.ret fun w hw => ⟨hfree, rfl, hw⟩

end

/-! ## Preparation -/

/-- A file that replaces whatever two names had. -/
def moved (from' name : String) (node : Node) (nodes : Dir Node) : Dir Node := (nodes.remove from').put name node

theorem put_eq_moved (name : String) (node : Node) : (fun nodes : Dir Node => nodes.put name node) = moved name name node := by
  funext nodes
  simp [moved, Dir.put, Dir.remove, List.filter_filter]

/-- A new file is at a name, as far as it was written, after its bytes were reserved. -/
structure Growing (w₀ : World) (states : List String) (parent : String) (namespaces : List String) (limits : Limits)
    (budget : Nat) (path name : String) (data : Bytes) (object : Object) (w : World) : Prop where
  reserved : reserveCreation (states.map w₀.nodes) (w₀.nodes parent) namespaces data.length limits budget = .ok ()
  binding : object.binding = w₀.next
  part : object.data <+: data
  free : (w₀.nodes path).get name = none
  same : (w₀.grown path name object).Same w

section

variable (host : Host) (entry : Entry) (staging ns temporary : String) (old : Bytes)

def incompleteName : String := "incomplete-" ++ temporary

/-- The backup is being written. -/
abbrev BackingUp (w₀ : World) (object : Object) (w : World) : Prop :=
  Growing w₀ [staging] entry.target.parent [ns] entry.limits entry.preparationBudgetBytes staging (incompleteName temporary) old object w

/-- The backup has been made. -/
structure BackedUp (w₀ w : World) : Prop where
  reserved : reserveCreation [w₀.nodes staging] (w₀.nodes entry.target.parent) [ns] old.length entry.limits
    entry.preparationBudgetBytes = .ok ()
  free : (w₀.nodes staging).get (backupName host entry.target) = none
  freeIncomplete : (w₀.nodes staging).get (incompleteName temporary) = none
  same : (({ w₀ with next := w₀.next + 1 } : World).modify staging (moved (incompleteName temporary) (backupName host entry.target)
    (.file ⟨w₀.next, old, ⟨0o600, host.euid, host.egid⟩⟩))).Same w

end

section

variable {host : Host} {entry : Entry} {staging ns temporary : String} {old : Bytes} {w₀ w : World}

theorem nodes_modify (w : World) (path : String) (f : Dir Node → Dir Node) (p : String) :
    (w.modify path f).nodes p = if p = path ∧ (w.folders p).isSome then f (w.nodes p) else w.nodes p := by
  simp only [World.nodes, World.modify]
  cases hp : w.folders p with
  | none => simp
  | some folder =>
    by_cases hpath : p = path
    · simp [hpath]
    · simp [hpath]

theorem nodes_congr (h : w.folders = w₀.folders) (path : String) : w.nodes path = w₀.nodes path := by
  rw [World.nodes, World.nodes, h]

/-- A directory with a file is there. -/
theorem isSome_of_get {path name : String} {node : Node} (h : (w.nodes path).get name = some node) : (w.folders path).isSome := by
  rw [World.nodes] at h
  cases hf : w.folders path with
  | some folder => rfl
  | none =>
    rw [hf] at h
    cases h

theorem isSome_modify (w : World) (path : String) (f : Dir Node → Dir Node) (p : String) :
    ((w.modify path f).folders p).isSome = (w.folders p).isSome := Option.isSome_map

theorem get_readRequired {nodes : Dir Node} {name : String} {maximum ownerUid : Nat} {out : Shot × Bytes}
    (h : readRequired host nodes name maximum ownerUid = .ok out) :
    ∃ object, nodes.get name = some (.file object) ∧ out = (object.shot host, object.data) := by
  obtain ⟨read, hread, h⟩ := bind_ok_iff.mp h
  cases read with
  | none => cases h
  | some read =>
    cases h
    rw [readAt] at hread
    split at hread
    · cases hread
    · cases hread
    · next object hget =>
      cases hfd : readFd host object maximum ownerUid with
      | error fault =>
        rw [hfd] at hread
        cases hread
      | ok out' =>
        rw [hfd] at hread
        cases hread
        exact ⟨object, hget, readFd_ok hfd⟩

theorem readAt_none {nodes : Dir Node} {name : String} {maximum ownerUid : Nat}
    (h : readAt host nodes name maximum ownerUid = .ok none) : nodes.get name = none := by
  rw [readAt] at h
  split at h
  · assumption
  · cases h
  · next object _ =>
    cases hfd : readFd host object maximum ownerUid with
    | error fault =>
      rw [hfd] at h
      cases h
    | ok out =>
      rw [hfd] at h
      cases h

theorem readAt_some {nodes : Dir Node} {name : String} {maximum ownerUid : Nat} {out : Shot × Bytes}
    (h : readAt host nodes name maximum ownerUid = .ok (some out)) :
    ∃ object, nodes.get name = some (.file object) ∧ out = (object.shot host, object.data) :=
  get_readRequired (by rw [readRequired, h]; rfl : readRequired host nodes name maximum ownerUid = .ok out)

theorem renamed_folders (w : World) (path incomplete name : String) (object : Object) :
    ((w.with path incomplete object).modify path (renamed incomplete name)).folders =
      (w.modify path (moved incomplete name (.file object))).folders := by
  rw [World.with, modify_modify]
  simp only [renamed, get_put_self, remove_put]
  rfl

/-- The backup was there, or it is made. -/
theorem makeBackup_spec {present : Option (Shot × Bytes)} {maximum ownerUid : Nat}
    (hpresent : readAt host (w₀.nodes staging) (backupName host entry.target) maximum ownerUid = .ok present) :
    Spec (fun w => w = w₀) (makeBackup host entry staging ns temporary old present)
      (fun out w => (w₀.Same w ∧ ∃ object, (w₀.nodes staging).get (backupName host entry.target) = some (.file object) ∧
          out = (object.shot host, object.data)) ∨
        BackedUp host entry staging ns temporary old w₀ w ∧ out.2 = old)
      (fun _ w => w₀.Same w ∨ ∃ object, BackingUp entry staging ns temporary old w₀ object w) := by
  cases present with
  | some present =>
    obtain ⟨object, hget, rfl⟩ := readAt_some hpresent
    exact Spec.ret fun w hw => .inl ⟨hw ▸ .refl w₀, object, hget, rfl⟩
  | none =>
    have hfree := readAt_none hpresent
    refine look_bind fun v hv => ?_
    subst hv
    refine check_bind (fun _ w hw => .inl (hw ▸ .refl v)) fun _ hreserved => ?_
    refine Spec.bind ((writeNew_spec staging (incompleteName temporary) old _ entry.ownerUid).weaken (fun _ h => h)
      (fun _ _ h => h) ?_) fun shot => ?_
    · rintro _ w (hsame | ⟨object, hbinding, hpart, hfree', hsame⟩)
      · exact .inl hsame
      · exact .inr ⟨object, ⟨hreserved, hbinding, hpart, hfree', hsame⟩⟩
    · intro w hw
      obtain ⟨hfree', -, hsame⟩ := hw
      have hspec := change_spec (w := v.grown staging (incompleteName temporary) ⟨v.next, old, ⟨0o600, host.euid, host.egid⟩⟩)
        staging (renamed (incompleteName temporary) (backupName host entry.target))
      refine (Spec.bind (hspec.weaken (fun _ h => h) (fun _ _ h => h) fun _ w h => ?_) fun _ => Spec.ret fun w h => ?_) w hsame
      · exact .inr ⟨_, ⟨hreserved, rfl, List.prefix_rfl, hfree', h⟩⟩
      · refine .inr ⟨⟨hreserved, hfree, hfree', World.Same.trans ?_ h⟩, rfl⟩
        exact ⟨(renamed_folders _ staging (incompleteName temporary) (backupName host entry.target) _).symm ▸ rfl, rfl, rfl⟩

/-- What `prepare_file` has as its backup. -/
structure IsBackup (host : Host) (entry : Entry) (staging : String) (old : Bytes) (w : World) (backup : Path × Shot) (object : Object) :
    Prop where
  path : backup.1 = ⟨staging, backupName host entry.target⟩
  get : (w.nodes staging).get (backupName host entry.target) = some (.file object)
  data : object.data = old
  shot : backup.2 = object.shot host

theorem backUp_spec : Spec (fun w => w = w₀) (backUp host entry staging ns temporary old)
    (fun backup w => (∃ object, IsBackup host entry staging old w backup object) ∧
      (w₀.Same w ∧ (w₀.nodes staging).has (backupName host entry.target) = true ∨
        BackedUp host entry staging ns temporary old w₀ w))
    (fun _ w => w₀.Same w ∨ (∃ object, BackingUp entry staging ns temporary old w₀ object w) ∨
      BackedUp host entry staging ns temporary old w₀ w) := by
  refine look_bind fun v hv => ?_
  subst hv
  refine check_bind (fun _ w hw => .inl (hw ▸ .refl v)) fun present hpresent => ?_
  refine Spec.bind ((makeBackup_spec hpresent).weaken (fun _ h => h) (fun _ _ h => h) ?_) ?_
  · rintro _ w (hsame | hpartial)
    · exact .inl hsame
    · exact .inr (.inl hpartial)
  rintro ⟨backup, bytes⟩
  refine check_bind (fun _ w hw => ?_) fun _ hcomplete => ?_
  · obtain ⟨hsame, -⟩ | ⟨hbacked, -⟩ := hw
    · exact .inl hsame
    · exact .inr (.inr hbacked)
  refine look_bind fun w hw => ?_
  have hstop : v.Same w ∨ (∃ object, BackingUp entry staging ns temporary old v object w) ∨
      BackedUp host entry staging ns temporary old v w := by
    obtain ⟨hsame, -⟩ | ⟨hbacked, -⟩ := hw
    · exact .inl hsame
    · exact .inr (.inr hbacked)
  refine check_bind (fun _ w' hw' => by rw [hw']; exact hstop) fun read hread => ?_
  refine check_bind (fun _ w' hw' => by rw [hw']; exact hstop) fun _ hmatching => ?_
  refine Spec.ret fun w' hw' => ?_
  subst hw'
  obtain ⟨object, hget, rfl⟩ := get_readRequired hread
  simp only [matching, require_ok, decide_eq_true_eq] at hmatching
  simp only [require_ok, Bool.and_eq_true, decide_eq_true_eq] at hcomplete
  have hdata : object.data = old := by
    obtain ⟨hsame, object', hget', hout⟩ | ⟨hbacked, -⟩ := hw
    · rw [nodes_congr hsame.folders, hget'] at hget
      cases hget
      rw [← (Prod.mk.inj hout).2]
      exact hcomplete.1.1
    · rw [nodes_congr hbacked.same.folders] at hget
      have hthere := isSome_of_get hget
      rw [isSome_modify] at hthere
      rw [nodes_modify, if_pos ⟨rfl, hthere⟩, moved, get_put_self] at hget
      cases hget
      rfl
  refine ⟨⟨object, rfl, hget, hdata, hmatching.symm⟩, ?_⟩
  obtain ⟨hsame, object', hget', -⟩ | ⟨hbacked, -⟩ := hw
  · exact .inl ⟨hsame, has_iff.mpr ⟨_, hget'⟩⟩
  · exact .inr hbacked

/-- The new file of a candidate, in an action that publishes it. -/
structure Staged (host : Host) (entry : Entry) (action action' : Action) (unique : String) (data : Bytes) (w₀ w : World) : Prop where
  reserved : reserveCreation [w₀.nodes action.stageDir] (w₀.nodes entry.target.parent) [action.namespace] data.length entry.limits
    entry.preparationBudgetBytes = .ok ()
  free : (w₀.nodes entry.target.parent).get (action.namespace ++ unique) = none
  same : (w₀.grown entry.target.parent (action.namespace ++ unique) ⟨w₀.next, data, entry.attributes⟩).Same w
  action : action' = { action with
    kind := .replace, desired := some (Object.shot host ⟨w₀.next, data, entry.attributes⟩),
    staged := some (⟨entry.target.parent, action.namespace ++ unique⟩, Object.shot host ⟨w₀.next, data, entry.attributes⟩) }

theorem stage_spec {action : Action} {unique : String} {data : Bytes} :
    Spec (fun w => w = w₀) (stage host entry action unique data)
      (fun action' w => Staged host entry action action' unique data w₀ w)
      (fun _ w => w₀.Same w ∨ ∃ object, Growing w₀ [action.stageDir] entry.target.parent [action.namespace] entry.limits
        entry.preparationBudgetBytes entry.target.parent (action.namespace ++ unique) data object w) := by
  refine look_bind fun v hv => ?_
  subst hv
  refine check_bind (fun _ w hw => .inl (hw ▸ .refl v)) fun _ hreserved => ?_
  refine Spec.bind ((writeNew_spec _ _ data entry.attributes entry.ownerUid).weaken (fun _ h => h) (fun _ _ h => h) ?_)
    fun shot => Spec.ret ?_
  · rintro _ w (hsame | ⟨object, hbinding, hpart, hfree, hsame⟩)
    · exact .inl hsame
    · exact .inr ⟨object, ⟨hreserved, hbinding, hpart, hfree, hsame⟩⟩
  · rintro w ⟨hfree, rfl, hsame⟩
    exact ⟨hreserved, hfree, hsame, rfl⟩

theorem retainObjects_spec {action : Action} {P : World → Prop} : Spec P (retainObjects host action)
    (fun action' w => P w ∧ action' = { action with retainedObjects := action'.retainedObjects } ∧
      preparationObjects host w action = .ok action'.retainedObjects) (fun _ => P) := by
  refine look_bind fun v hv => ?_
  refine check_bind (fun _ w hw => hw ▸ hv) fun objects hobjects => Spec.ret fun w hw => ?_
  subst hw
  exact ⟨hv, rfl, hobjects⟩

theorem directory_ok {path : String} {ownerUid : Nat} {isPrivate : Bool} {folder : Folder}
    (h : w.directory path ownerUid isPrivate = .ok folder) : w.folders path = some folder := by
  rw [World.directory] at h
  split at h
  · cases h
  · next folder' hfolder =>
    obtain ⟨-, -, h⟩ := bind_ok_iff.mp h
    obtain ⟨-, -, h⟩ := bind_ok_iff.mp h
    cases h
    exact hfolder

theorem nodes_of_directory {path : String} {ownerUid : Nat} {isPrivate : Bool} {folder : Folder}
    (h : w.directory path ownerUid isPrivate = .ok folder) : folder.nodes = w.nodes path := by
  rw [World.nodes, directory_ok h]
  rfl

/-! ### As a whole -/

/-- What `prepare_file` reads before it writes. -/
structure Reading (host : Host) (entry : Entry) (staging operationId attemptId : String) (w : World) (lock : Nat) (ns : String)
    (candidate original : Option (Shot × Bytes)) : Prop where
  apart : staging ≠ entry.target.parent
  lock : w.lockBinding = .ok lock
  ns : namespaceOf host operationId attemptId entry.target = .ok ns
  candidate : readCandidate host w entry = .ok candidate
  parent : ∃ folder, w.folders entry.target.parent = some folder ∧ folder.place = entry.parent
  read : readAt host (w.nodes entry.target.parent) entry.target.name entry.limits.maxFileBytes entry.ownerUid = .ok original
  asPlanned : original.map (·.1) = entry.original

/-- The backup of an original, or none. -/
def Backing (host : Host) (entry : Entry) (staging ns temporary : String) (w₀ : World) :
    Option (Shot × Bytes) → Option (Path × Shot) → World → Prop
  | none, none, w => w₀.Same w
  | some (_, old), some backup, w => (∃ object, IsBackup host entry staging old w backup object) ∧
      (w₀.Same w ∧ (w₀.nodes staging).has (backupName host entry.target) = true ∨
        BackedUp host entry staging ns temporary old w₀ w)
  | _, _, _ => False

theorem Backing.congr {original : Option (Shot × Bytes)} {backup : Option (Path × Shot)} {v : World}
    (h : Backing host entry staging ns temporary w₀ original backup w) (hsame : w.Same v) :
    Backing host entry staging ns temporary w₀ original backup v := by
  cases original with
  | none =>
    cases backup with
    | none => exact World.Same.trans h hsame
    | some backup => exact h
  | some read =>
    cases backup with
    | none => exact h
    | some backup =>
      obtain ⟨⟨object, hpath, hget, hdata, hshot⟩, hrest⟩ := h
      refine ⟨⟨object, hpath, by rw [nodes_congr hsame.folders]; exact hget, hdata, hshot⟩, ?_⟩
      obtain ⟨hw, hhas⟩ | hbacked := hrest
      · exact .inl ⟨hw.trans hsame, hhas⟩
      · exact .inr ⟨hbacked.reserved, hbacked.free, hbacked.freeIncomplete, hbacked.same.trans hsame⟩

/-- Up to the inventory of what is retained. -/
def Action.Like (a b : Action) : Prop := a = { b with retainedObjects := a.retainedObjects }

theorem backUpOriginal_spec (original : Option (Shot × Bytes)) :
    Spec (fun w => w = w₀) (backUpOriginal host entry staging ns temporary original)
      (fun backup w => Backing host entry staging ns temporary w₀ original backup w)
      (fun _ w => w₀.Same w ∨ ∃ shot old, original = some (shot, old) ∧
        ((∃ object, BackingUp entry staging ns temporary old w₀ object w) ∨ BackedUp host entry staging ns temporary old w₀ w)) := by
  cases original with
  | none => exact Spec.ret fun w hw => hw ▸ .refl w₀
  | some read =>
    obtain ⟨shot, old⟩ := read
    refine Spec.bind (backUp_spec.weaken (fun _ h => h) (fun _ _ h => h) ?_) fun backup => Spec.ret fun w hw => hw
    rintro _ w (hsame | hrest)
    · exact .inl hsame
    · exact .inr ⟨shot, old, rfl, hrest⟩

/-- Where a preparation ends that has not returned. -/
inductive Unfinished (host : Host) (entry : Entry) (staging ns temporary unique : String) (candidate original : Option (Shot × Bytes))
    (w₀ w : World) : Prop where
  | backingUp (shot : Shot) (old : Bytes) (object : Object) : original = some (shot, old) →
      BackingUp entry staging ns temporary old w₀ object w → Unfinished host entry staging ns temporary unique candidate original w₀ w
  | backedUp (shot : Shot) (old : Bytes) : original = some (shot, old) →
      BackedUp host entry staging ns temporary old w₀ w → Unfinished host entry staging ns temporary unique candidate original w₀ w
  | staging (backup : Option (Path × Shot)) (w₁ : World) (shot : Shot) (data : Bytes) (object : Object) :
      Backing host entry staging ns temporary w₀ original backup w₁ → candidate = some (shot, data) →
      Growing w₁ [staging] entry.target.parent [ns] entry.limits entry.preparationBudgetBytes entry.target.parent (ns ++ unique)
        data object w → Unfinished host entry staging ns temporary unique candidate original w₀ w

/-- Where it has returned. -/
inductive Finished (host : Host) (entry : Entry) (staging operationId attemptId temporary unique : String) (lock : Nat) (ns : String)
    (candidate original : Option (Shot × Bytes)) (w₀ : World) (a : Action) (w : World) : Prop where
  | noop : (entry.original.map Shot.value = candidate.map fun c => (c.1.size, c.1.sha256, entry.attributes)) → w₀.Same w →
      a.Like (entryAction entry staging operationId attemptId ns lock) →
      Finished host entry staging operationId attemptId temporary unique lock ns candidate original w₀ a w
  | delete (backup : Option (Path × Shot)) : Backing host entry staging ns temporary w₀ original backup w → candidate = none →
      entry.original ≠ none →
      a.Like { entryAction entry staging operationId attemptId ns lock with backup := backup, kind := .delete, desired := none } →
      Finished host entry staging operationId attemptId temporary unique lock ns candidate original w₀ a w
  | replace (backup : Option (Path × Shot)) (w₁ : World) (shot : Shot) (data : Bytes) (action : Action) :
      Backing host entry staging ns temporary w₀ original backup w₁ → candidate = some (shot, data) →
      Staged host entry { entryAction entry staging operationId attemptId ns lock with backup := backup } action unique data w₁ w →
      a.Like action → Finished host entry staging operationId attemptId temporary unique lock ns candidate original w₀ a w

theorem prepareFile_spec {operationId attemptId unique : String} :
    Spec (fun w => w = w₀) (prepareFile host entry staging operationId attemptId temporary unique)
      (fun a w => ∃ lock ns candidate original, Reading host entry staging operationId attemptId w₀ lock ns candidate original ∧
        Finished host entry staging operationId attemptId temporary unique lock ns candidate original w₀ a w)
      (fun _ w => w₀.Same w ∨ ∃ lock ns candidate original,
        Reading host entry staging operationId attemptId w₀ lock ns candidate original ∧
          ((∃ backup, Backing host entry staging ns temporary w₀ original backup w) ∨
            Unfinished host entry staging ns temporary unique candidate original w₀ w)) := by
  have hstop : ∀ (_ : Halt) w, w = w₀ → w₀.Same w ∨ ∃ lock ns candidate original,
      Reading host entry staging operationId attemptId w₀ lock ns candidate original ∧
        ((∃ backup, Backing host entry staging ns temporary w₀ original backup w) ∨
          Unfinished host entry staging ns temporary unique candidate original w₀ w) := fun _ w hw => .inl (hw ▸ .refl w₀)
  refine check_bind hstop fun _ hapart => look_bind fun v hv => ?_
  subst hv
  refine check_bind hstop fun lock hlock => check_bind hstop fun ns hns => check_bind hstop fun candidate hcandidate =>
    check_bind hstop fun parent hparent => check_bind hstop fun _ _ => check_bind hstop fun _ hplace =>
    check_bind hstop fun original horiginal => check_bind hstop fun _ hasPlanned => ?_
  simp only [require_ok, decide_eq_true_eq] at hapart
  simp only [matching, require_ok, decide_eq_true_eq] at hplace hasPlanned
  rw [nodes_of_directory hparent] at horiginal
  have hreading : Reading host entry staging operationId attemptId v lock ns candidate original :=
    ⟨hapart, hlock, hns, hcandidate, ⟨parent, directory_ok hparent, hplace⟩, horiginal, hasPlanned⟩
  split
  · next hsame =>
    refine retainObjects_spec.weaken (fun _ h => h) ?_ hstop
    rintro a w ⟨rfl, ha, -⟩
    exact ⟨lock, ns, candidate, original, hreading, .noop hsame (.refl w) ha⟩
  · next hdiffers =>
    refine Spec.bind ((backUpOriginal_spec original).weaken (fun _ h => h) (fun _ _ h => h) ?_) fun backup => ?_
    · rintro _ w (hsame | ⟨shot, old, hsome, ⟨object, hgrowing⟩ | hbacked⟩)
      · exact .inl hsame
      · exact .inr ⟨lock, ns, candidate, original, hreading, .inr (.backingUp shot old object hsome hgrowing)⟩
      · exact .inr ⟨lock, ns, candidate, original, hreading, .inr (.backedUp shot old hsome hbacked)⟩
    cases candidate with
    | none =>
      refine retainObjects_spec.weaken (fun _ h => h) ?_ fun _ w hw => .inr ⟨lock, ns, none, original, hreading, .inl ⟨backup, hw⟩⟩
      rintro a w ⟨hw, ha, -⟩
      refine ⟨lock, ns, none, original, hreading, .delete backup hw rfl ?_ ha⟩
      intro hnone
      rw [hnone] at hdiffers
      exact hdiffers rfl
    | some read =>
      obtain ⟨shot, data⟩ := read
      intro w₁ hw₁
      refine (Spec.bind (stage_spec.weaken (fun _ h => h) (fun _ _ h => h) ?_) fun action => ?_) w₁ rfl
      · rintro _ w (hsame | ⟨object, hgrowing⟩)
        · exact .inr ⟨lock, ns, _, original, hreading, .inl ⟨backup, hw₁.congr hsame⟩⟩
        · exact .inr ⟨lock, ns, _, original, hreading, .inr (.staging backup w₁ shot data object hw₁ rfl hgrowing)⟩
      · refine retainObjects_spec.weaken (fun _ h => h) ?_ ?_
        · rintro a w ⟨hstaged, ha, -⟩
          exact ⟨lock, ns, _, original, hreading, .replace backup w₁ shot data action hw₁ rfl hstaged ha⟩
        · intro _ w hstaged
          refine .inr ⟨lock, ns, _, original, hreading, .inr (.staging backup w₁ shot data _ hw₁ rfl
            ⟨hstaged.reserved, rfl, List.prefix_rfl, hstaged.free, hstaged.same⟩)⟩

/-! ## Restoration -/

theorem stateFolders_ok {ownerUid : Nat} {paths : List String} {states : List (Dir Node)}
    (h : stateFolders w ownerUid paths = .ok states) : states = paths.map w.nodes := by
  induction paths generalizing states with
  | nil =>
    cases h
    rfl
  | cons path paths ih =>
    obtain ⟨folder, hfolder, h⟩ := bind_ok_iff.mp h
    obtain ⟨rest, hrest, h⟩ := bind_ok_iff.mp h
    cases h
    rw [List.map_cons, ih hrest, nodes_of_directory hfolder]

/-- The copy of a backup, in an action that publishes it. -/
structure Restaged (host : Host) (published action action' : Action) (original : Shot) (unique : String) (data : Bytes)
    (w₀ w : World) : Prop where
  reserved : reserveCreation (action.retainedStateDirs.map w₀.nodes) (w₀.nodes action.target.parent) action.retainedNamespaces
    data.length action.limits published.preparationBudgetBytes = .ok ()
  free : (w₀.nodes action.target.parent).get (action.namespace ++ unique) = none
  same : (w₀.grown action.target.parent (action.namespace ++ unique) ⟨w₀.next, data, original.attributes⟩).Same w
  action : action' = { action with
    kind := .replace, desired := some (Object.shot host ⟨w₀.next, data, original.attributes⟩),
    staged := some (⟨action.target.parent, action.namespace ++ unique⟩, Object.shot host ⟨w₀.next, data, original.attributes⟩) }

theorem restage_spec {published action : Action} {original : Shot} {unique : String} {data : Bytes} :
    Spec (fun w => w = w₀) (restage host published action original unique data)
      (fun action' w => Restaged host published action action' original unique data w₀ w)
      (fun _ w => w₀.Same w ∨ ∃ object, Growing w₀ action.retainedStateDirs action.target.parent action.retainedNamespaces
        action.limits published.preparationBudgetBytes action.target.parent (action.namespace ++ unique) data object w) := by
  refine look_bind fun v hv => ?_
  subst hv
  have hstop : ∀ (_ : Halt) w, w = v → v.Same w ∨ ∃ object, Growing v action.retainedStateDirs action.target.parent
      action.retainedNamespaces action.limits published.preparationBudgetBytes action.target.parent (action.namespace ++ unique)
      data object w := fun _ w hw => .inl (hw ▸ .refl v)
  refine check_bind hstop fun parent hparent => check_bind hstop fun states hstates => check_bind hstop fun _ _ =>
    check_bind hstop fun current _ => check_bind hstop fun _ _ => check_bind hstop fun _ hreserved => ?_
  rw [stateFolders_ok hstates, nodes_of_directory hparent] at hreserved
  refine Spec.bind ((writeNew_spec _ _ data original.attributes action.ownerUid).weaken (fun _ h => h) (fun _ _ h => h) ?_)
    fun shot => Spec.ret ?_
  · rintro _ w (hsame | ⟨object, hbinding, hpart, hfree, hsame⟩)
    · exact .inl hsame
    · exact .inr ⟨object, ⟨hreserved, hbinding, hpart, hfree, hsame⟩⟩
  · rintro w ⟨hfree, rfl, hsame⟩
    exact ⟨hreserved, hfree, hsame, rfl⟩

/-! ## Publication -/

/-- The target was as it was recorded, and the action has published. -/
structure Published (host : Host) (a : Action) (w₀ w : World) : Prop where
  expected : readTarget host w₀ a = .ok a.expected
  differs : a.expected ≠ a.desired
  change : (a.kind = .replace ∧ ∃ path shot object, a.staged = some (path, shot) ∧
      (w₀.nodes a.target.parent).get path.name = some (.file object) ∧ some (object.shot host) = a.desired ∧
      (w₀.modify a.target.parent (renamed path.name a.target.name)).Same w) ∨
    (a.kind = .delete ∧ (w₀.modify a.target.parent (·.remove a.target.name)).Same w)

theorem publish_spec {a : Action} (hexpected : readTarget host w₀ a = .ok a.expected) (hdiffers : a.expected ≠ a.desired) :
    Spec (fun w => w = w₀) (publish host a) (fun _ => Published host a w₀) (fun _ => w₀.Same) := by
  have hrefl : ∀ w, w = w₀ → w₀.Same w := fun w hw => hw ▸ .refl w₀
  unfold publish
  split
  · exact Spec.raise hrefl
  · next staged shot hkind hstaged =>
    refine look_bind fun v hv => ?_
    subst hv
    refine check_bind (fun _ => hrefl) fun read hread => check_bind (fun _ => hrefl) fun _ hmatching => ?_
    obtain ⟨object, hget, rfl⟩ := get_readRequired hread
    simp only [matching, require_ok, decide_eq_true_eq] at hmatching
    refine (change_spec _ _).weaken hrefl (fun _ w hw => ?_) fun _ _ h => h
    exact ⟨hexpected, hdiffers, .inl ⟨hkind, staged, shot, object, hstaged, hget, hmatching, hw⟩⟩
  · next hkind =>
    refine (change_spec _ _).weaken hrefl (fun _ w hw => ?_) fun _ _ h => h
    exact ⟨hexpected, hdiffers, .inr ⟨hkind, hw⟩⟩
  · exact Spec.raise hrefl

theorem observeFile_target {a : Action} {observed : Observation} (h : observeFile host w a = .ok observed)
    (hstate : observed.state = .target) : readTarget host w a = .ok a.desired := by
  obtain ⟨-, -, h⟩ := bind_ok_iff.mp h
  cases hread : readTarget host w a with
  | ok actual =>
    rw [hread] at h
    cases h
    by_cases hdesired : actual = a.desired
    · rw [hdesired]
    · simp only [if_neg hdesired] at hstate
      split at hstate <;> cases hstate
  | error fault =>
    rw [hread] at h
    simp only at h
    split at h
    · cases h
      cases hstate
    · cases h

/-- `execute_file` finds the desired object, or publishes it; it returns where the target is the desired one. -/
theorem executeFile_spec {a : Action} : Spec (fun w => w = w₀) (executeFile host a)
    (fun out w => (out.2 = false ∧ w₀.Same w ∧ readTarget host w₀ a = .ok a.desired ∨ out.2 = true ∧ Published host a w₀ w) ∧
      readTarget host w a = .ok a.desired)
    (fun _ w => w₀.Same w ∨ Published host a w₀ w) := by
  have hstop : ∀ (_ : Halt) w, w = w₀ → w₀.Same w ∨ Published host a w₀ w := fun _ w hw => .inl (hw ▸ .refl w₀)
  refine check_bind hstop fun _ _ => look_bind fun v hv => ?_
  subst hv
  refine check_bind hstop fun lock _ => check_bind hstop fun _ _ => check_bind hstop fun actual hactual => ?_
  refine Spec.bind (Q := fun changed w => changed = false ∧ v.Same w ∧ readTarget host v a = .ok a.desired ∨
    changed = true ∧ Published host a v w) ?_ fun changed => ?_
  · unfold publishOnce
    split
    · next hdesired =>
      exact Spec.ret fun w hw => .inl ⟨rfl, hw ▸ .refl v, hdesired ▸ hactual⟩
    · next hdiffers =>
      refine check_bind hstop fun _ hexpected => ?_
      simp only [require_ok, decide_eq_true_eq] at hexpected
      subst hexpected
      exact Spec.bind ((publish_spec hactual hdiffers).weaken (fun _ h => h) (fun _ _ h => h) fun _ _ h => .inl h)
        fun _ => Spec.ret fun w hw => .inr ⟨rfl, hw⟩
  · refine look_bind fun w hw => ?_
    have hstop' : ∀ (_ : Halt) w', w' = w → v.Same w' ∨ Published host a v w' := by
      rintro _ _ rfl
      obtain ⟨-, hsame, -⟩ | ⟨-, hpublished⟩ := hw
      · exact .inl hsame
      · exact .inr hpublished
    refine check_bind hstop' fun _ _ => check_bind hstop' fun observed hobserved => check_bind hstop' fun _ hstate =>
      Spec.ret fun w' hw' => ?_
    subst hw'
    simp only [require_ok, decide_eq_true_eq] at hstate
    exact ⟨hw, observeFile_target hobserved hstate⟩

end

end LocalHand.Files
