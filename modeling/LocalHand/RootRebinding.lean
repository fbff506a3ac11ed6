/-
An execution is bound to its granted roots (`bind_execution` of `bootstrap_roots.py`): the
texts below the roots it was admitted with are moved below the granted ones.

`rebinding_exact`: the result is the one value that moves exactly these texts and keeps
everything else, whatever the order the roots are tried in, and a second call keeps it.
-/
import LocalHand.RootSlots
import LocalHand.Lib.PyData
import LocalHand.Lib.Rebase

namespace LocalHand.BootstrapRoots

open PyJson Rebase

/-- `ROOT_NAMES` -/
inductive RootName where
  | work
  | evidence
  | temporary
  deriving Repr, DecidableEq

def Roots.get {α : Type} (r : Roots α) : RootName → α
  | .work => r.work
  | .evidence => r.evidence
  | .temporary => r.temporary

/-- The order of a dictionary's entries. -/
structure Order where
  names : List RootName
  perm : names.Perm [.work, .evidence, .temporary]

theorem Order.all (order : Order) (name : RootName) : name ∈ order.names := by
  rw [order.perm.mem_iff]
  cases name <;> simp

def slash : Point := pointOf '/'

variable {F : Type}

def rootsData (roots : Roots String) : Data F :=
  .dict [(.str (points "evidence"), .str (points roots.evidence)), (.str (points "temporary"), .str (points roots.temporary)),
    (.str (points "work"), .str (points roots.work))]

def texts (roots : Roots String) (name : RootName) : Text := points (roots.get name)

section

variable (order : Order) (source target : Roots String)

/-- `mapped` of a text. -/
def mappedText (value : Text) : Text := rebase slash order.names (texts source) (texts target) value

mutual
/-- `mapped` -/
def mapped : Data F → Data F
  | .str value => .str (mappedText order source target value)
  | .list items => .list (mappedItems items)
  | .dict fields => .dict (mappedFields fields)
  | value => value

def mappedItems : List (Data F) → List (Data F)
  | [] => []
  | item :: items => mapped item :: mappedItems items

def mappedFields : List (Key F × Data F) → List (Key F × Data F)
  | [] => []
  | (key, item) :: rest => (key, mapped item) :: mappedFields rest
end

/-- The fields of an execution whose texts are bound. -/
def isBound (ledgerPrepare : Bool) (key : Key F) : Bool :=
  key.is (points "stages") || key.is (points "writable") || key.is (points "environment") || (ledgerPrepare && key.is (points "prepared"))

def bindField (ledgerPrepare : Bool) (entry : Key F × Data F) : Key F × Data F :=
  if entry.1.is (points "roots") then (entry.1, rootsData target)
  else if isBound ledgerPrepare entry.1 then (entry.1, mapped order source target entry.2)
  else entry

end

/-- `result.get("kind") == "ledger.prepare"` -/
def isLedgerPrepare (execution : List (Key F × Data F)) : Bool :=
  match field (points "kind") execution with
  | some (.str kind) => kind = points "ledger.prepare"
  | _ => false

section

variable {order : Order} {source target : Roots String}

theorem mappedFields_keys : ∀ fields : List (Key F × Data F), (mappedFields order source target fields).map (·.1) = fields.map (·.1)
  | [] => rfl
  | (key, item) :: rest => by rw [mappedFields, List.map_cons, mappedFields_keys rest, List.map_cons]

mutual
theorem mapped_wf : ∀ value : Data F, value.WF → (mapped order source target value).WF
  | .str _, _ | .null, _ | .bool _, _ | .int _, _ | .float _, _ | .other, _ => trivial
  | .tuple _, h => h
  | .list items, h => mappedItems_wf items h
  | .dict fields, ⟨hkeys, h⟩ => by
    refine ⟨?_, mappedFields_wf fields h⟩
    have hmapped : ((mappedFields order source target fields).map (·.1)).Pairwise Key.Before := by
      rw [mappedFields_keys]
      exact List.pairwise_map.mpr hkeys
    exact List.pairwise_map.mp hmapped

theorem mappedItems_wf : ∀ items : List (Data F), Data.itemsWF items → Data.itemsWF (mappedItems order source target items)
  | [], _ => trivial
  | item :: items, h => ⟨mapped_wf item h.1, mappedItems_wf items h.2⟩

theorem mappedFields_wf : ∀ fields : List (Key F × Data F), Data.fieldsWF fields → Data.fieldsWF (mappedFields order source target fields)
  | [], _ => trivial
  | (_, item) :: rest, h => ⟨mapped_wf item h.1, mappedFields_wf rest h.2⟩
end

theorem rootsData_wf (roots : Roots String) : (rootsData roots : Data F).WF := by
  have hkeys : (["evidence", "temporary", "work"] : List String).Pairwise (· < ·) := by decide
  have hvalue : (Value.obj [("evidence", .str roots.evidence), ("temporary", .str roots.temporary), ("work", .str roots.work)] : Value F).WF :=
    ⟨List.pairwise_map.mp hkeys, trivial, trivial, trivial, trivial⟩
  exact (Value.wf_data _).mpr hvalue

theorem bindField_key (ledgerPrepare : Bool) (entry : Key F × Data F) : (bindField order source target ledgerPrepare entry).1 = entry.1 := by
  unfold bindField
  split
  · rfl
  · split <;> rfl

theorem bindField_wf {ledgerPrepare : Bool} {entry : Key F × Data F} (h : entry.2.WF) :
    (bindField order source target ledgerPrepare entry).2.WF := by
  unfold bindField
  split
  · exact rootsData_wf target
  · split
    · exact mapped_wf entry.2 h
    · exact h

theorem map_bindField_wf (ledgerPrepare : Bool) : ∀ {fields : List (Key F × Data F)}, Data.fieldsWF fields →
    Data.fieldsWF (fields.map (bindField order source target ledgerPrepare))
  | [], _ => trivial
  | _ :: _, h => ⟨bindField_wf h.1, map_bindField_wf ledgerPrepare h.2⟩

end

/-- An execution, a dictionary. -/
structure Execution (F : Type) where
  fields : List (Key F × Data F)
  wf : (Data.dict fields).WF

/-- The execution with its fields bound. -/
def Execution.bind (execution : Execution F) (order : Order) (grant : Grant) : Execution F where
  fields := execution.fields.map (bindField order grant.sourceRoots grant.roots (isLedgerPrepare execution.fields))
  wf := by
    refine ⟨List.pairwise_map.mpr (execution.wf.1.imp fun {a b} h => ?_), map_bindField_wf _ execution.wf.2⟩
    rw [bindField_key, bindField_key]
    exact h

/-- No caller's reading of the row is passed. -/
def anyone : Expected := ⟨none, none, none, none, none⟩

section

variable [DecidableEq F] (intOf : F → Option Int) (site : Site)

/-- `result.get("roots") == roots` -/
def hasRoots (execution : Execution F) (roots : Roots String) : Bool :=
  (field (points "roots") execution.fields).any fun value => value.same intOf (rootsData roots)

/-- `bind_execution`, with the order of `source_roots`. -/
def bindExecution (order : Order) (execution : Execution F) (grant : Grant) : Except Fault (Execution F) := do
  validateGrant site grant anyone
  if hasRoots intOf execution grant.roots then return execution
  else do
    require (hasRoots intOf execution grant.sourceRoots) (invalid "Execution roots do not match their admitted allocation source")
    return execution.bind order grant

end

/-! ## What a binding is -/

/-- Each text of a value is related to the one in its place; keys and everything else are the same. -/
inductive Rebound (R : Text → Text → Prop) : Data F → Data F → Prop
  | str {s t : Text} : R s t → Rebound R (.str s) (.str t)
  | list {xs ys : List (Data F)} : List.Forall₂ (Rebound R) xs ys → Rebound R (.list xs) (.list ys)
  | dict {xs ys : List (Key F × Data F)} : xs.map (·.1) = ys.map (·.1) → List.Forall₂ (Rebound R) (xs.map (·.2)) (ys.map (·.2)) →
      Rebound R (.dict xs) (.dict ys)
  | null : Rebound R .null .null
  | bool (b : Bool) : Rebound R (.bool b) (.bool b)
  | int (i : Int) : Rebound R (.int i) (.int i)
  | float (x : F) : Rebound R (.float x) (.float x)
  | tuple (xs : List (Data F)) : Rebound R (.tuple xs) (.tuple xs)
  | other : Rebound R .other .other

/-- A text is moved from below a source root to below the granted root of its name, or stays. -/
abbrev Moved (grant : Grant) : Text → Text → Prop := Rebased slash (texts grant.sourceRoots) (texts grant.roots)

/-- The field of an execution and the field in its place. -/
structure BoundField (grant : Grant) (ledgerPrepare : Bool) (a b : Key F × Data F) : Prop where
  key : b.1 = a.1
  roots : a.1.is (points "roots") = true → b.2 = rootsData grant.roots
  bound : a.1.is (points "roots") = false → isBound ledgerPrepare a.1 = true → Rebound (Moved grant) a.2 b.2
  kept : a.1.is (points "roots") = false → isBound ledgerPrepare a.1 = false → b.2 = a.2

/-- `result` is the execution on its granted roots. -/
def Bound (grant : Grant) (execution result : Execution F) : Prop :=
  List.Forall₂ (BoundField grant (isLedgerPrepare execution.fields)) execution.fields result.fields

/-! ## Values -/

section

variable {R : Text → Text → Prop} {f : Text → Text}

mutual
theorem mapped_rebound {order : Order} {source target : Roots String} (h : ∀ s, R s (mappedText order source target s)) :
    ∀ value : Data F, Rebound R value (mapped order source target value)
  | .str s => .str (h s)
  | .list items => .list (mappedItems_rebound h items)
  | .dict fields => .dict (mappedFields_keys fields).symm (mappedFields_rebound h fields)
  | .null => .null
  | .bool b => .bool b
  | .int i => .int i
  | .float x => .float x
  | .tuple xs => .tuple xs
  | .other => .other

theorem mappedItems_rebound {order : Order} {source target : Roots String} (h : ∀ s, R s (mappedText order source target s)) :
    ∀ items : List (Data F), List.Forall₂ (Rebound R) items (mappedItems order source target items)
  | [] => .nil
  | item :: items => .cons (mapped_rebound h item) (mappedItems_rebound h items)

theorem mappedFields_rebound {order : Order} {source target : Roots String} (h : ∀ s, R s (mappedText order source target s)) :
    ∀ fields : List (Key F × Data F), List.Forall₂ (Rebound R) (fields.map (·.2)) ((mappedFields order source target fields).map (·.2))
  | [] => .nil
  | (_, item) :: rest => .cons (mapped_rebound h item) (mappedFields_rebound h rest)
end

mutual
theorem Rebound.refl (h : ∀ s, R s s) : ∀ value : Data F, Rebound R value value
  | .str s => .str (h s)
  | .list items => .list (reboundItems_refl h items)
  | .dict fields => .dict rfl (reboundFields_refl h fields)
  | .null => .null
  | .bool b => .bool b
  | .int i => .int i
  | .float x => .float x
  | .tuple xs => .tuple xs
  | .other => .other

theorem reboundItems_refl (h : ∀ s, R s s) : ∀ items : List (Data F), List.Forall₂ (Rebound R) items items
  | [] => .nil
  | item :: items => .cons (Rebound.refl h item) (reboundItems_refl h items)

theorem reboundFields_refl (h : ∀ s, R s s) :
    ∀ fields : List (Key F × Data F), List.Forall₂ (Rebound R) (fields.map (·.2)) (fields.map (·.2))
  | [] => .nil
  | (_, item) :: rest => .cons (Rebound.refl h item) (reboundFields_refl h rest)
end

theorem entries_ext {ys zs : List (Key F × Data F)} (hkeys : ys.map (·.1) = zs.map (·.1)) (hvalues : ys.map (·.2) = zs.map (·.2)) : ys = zs := by
  rw [List.zip_of_prod hkeys hvalues, ← List.zip_of_prod rfl rfl]

mutual
/-- Where a text is related to one text only, so is a value. -/
theorem Rebound.unique (hR : ∀ s a b, R s a → R s b → a = b) : ∀ (v a b : Data F), Rebound R v a → Rebound R v b → a = b
  | .str s, _, _, .str ha, .str hb => by rw [hR s _ _ ha hb]
  | .list xs, _, _, .list ha, .list hb => by rw [reboundItems_unique hR xs _ _ ha hb]
  | .dict fields, _, _, .dict hka ha, .dict hkb hb => by
    rw [entries_ext (hka.symm.trans hkb) (reboundFields_unique hR fields _ _ ha hb)]
  | .null, _, _, .null, .null => rfl
  | .bool _, _, _, .bool _, .bool _ => rfl
  | .int _, _, _, .int _, .int _ => rfl
  | .float _, _, _, .float _, .float _ => rfl
  | .tuple _, _, _, .tuple _, .tuple _ => rfl
  | .other, _, _, .other, .other => rfl

theorem reboundItems_unique (hR : ∀ s a b, R s a → R s b → a = b) :
    ∀ (xs ys zs : List (Data F)), List.Forall₂ (Rebound R) xs ys → List.Forall₂ (Rebound R) xs zs → ys = zs
  | [], _, _, .nil, .nil => rfl
  | x :: xs, _, _, .cons ha has, .cons hb hbs => by rw [Rebound.unique hR x _ _ ha hb, reboundItems_unique hR xs _ _ has hbs]

theorem reboundFields_unique (hR : ∀ s a b, R s a → R s b → a = b) :
    ∀ (fields : List (Key F × Data F)) (ys zs : List (Data F)),
      List.Forall₂ (Rebound R) (fields.map (·.2)) ys → List.Forall₂ (Rebound R) (fields.map (·.2)) zs → ys = zs
  | [], _, _, .nil, .nil => rfl
  | (_, x) :: rest, _, _, .cons ha has, .cons hb hbs => by
    rw [Rebound.unique hR x _ _ ha hb, reboundFields_unique hR rest _ _ has hbs]
end

end

/-! ## Roots -/

/-- A path whose text lies below another's is in its way. -/
theorem overlap_of_under {left right : String} (h : Under slash (points right) (points left)) : overlap left right = true := by
  obtain ⟨suffix, rfl | ⟨rest, rfl⟩, htext⟩ := h
  · rw [List.append_nil] at htext
    rw [points_inj htext]
    exact overlap_self right
  · have hprefix : (right.toList ++ ['/']).map pointOf <+: left.toList.map pointOf := by
      refine ⟨rest, ?_⟩
      show _ = points left
      rw [htext, List.map_append, List.append_assoc]
      rfl
    have hbelow : isBelow left right = true := by
      unfold isBelow
      rw [List.isPrefixOf_iff_prefix]
      exact (List.prefix_map_iff_of_injective fun _ _ => pointOf_inj).mp hprefix
    rw [overlap, hbelow, Bool.or_true, Bool.true_or]

/-- The roots of a grant lie apart. -/
theorem apart_of_validatePaths {roots : Roots String} (h : validatePaths roots.values = .ok ()) : Apart slash (texts roots) := by
  obtain ⟨-, hpair⟩ := validatePaths_ok h
  simp only [Roots.values, List.pairwise_cons, List.mem_cons, List.not_mem_nil, or_false, forall_eq_or_imp, forall_eq] at hpair
  obtain ⟨⟨hwe, hwt⟩, het, -⟩ := hpair
  intro i j hunder
  have hoverlap := overlap_of_under hunder
  cases i <;> cases j <;> first | rfl | (simp_all [Roots.get, overlap_comm])

theorem apart_of_validateGrant {site : Site} {grant : Grant} (h : validateGrant site grant anyone = .ok ()) :
    Apart slash (texts grant.sourceRoots) ∧ Apart slash (texts grant.roots) := by
  simp only [validateGrant, bind_ok, require_ok, exists_unit] at h
  exact ⟨apart_of_validatePaths h.2.2.2.2.2.1, apart_of_validatePaths h.2.2.2.2.1⟩

section

variable [DecidableEq F] (intOf : F → Option Int)

theorem same_text {v : Data F} {s : Text} (h : v.same intOf (.str s) = true) : v = .str s := by
  cases v <;> simp_all [Data.same, Data.number]

/-- Only entries of texts are equal to entries of texts. -/
theorem sameFields_texts {entries : List (Text × Text)} {fields : List (Key F × Data F)}
    (h : Data.sameFields intOf fields (entries.map fun e => (.str e.1, .str e.2)) = true) : fields = entries.map fun e => (.str e.1, .str e.2) := by
  induction entries generalizing fields with
  | nil =>
    cases fields with
    | nil => rfl
    | cons _ _ => cases h
  | cons e entries ih =>
    cases fields with
    | nil => cases h
    | cons a rest =>
      obtain ⟨key, value⟩ := a
      rw [List.map_cons, Data.sameFields, Bool.and_eq_true, Bool.and_eq_true] at h
      obtain ⟨⟨hkey, hvalue⟩, hrest⟩ := h
      have hstr : key = .str e.1 := by
        cases key <;> simp_all [Key.same, Key.number]
      rw [hstr, same_text intOf hvalue, ih hrest, List.map_cons]

theorem same_rootsData {v : Data F} {roots : Roots String} : v.same intOf (rootsData roots) = true ↔ v = rootsData roots := by
  constructor
  · intro h
    cases v with
    | dict fields =>
      let entries := [(points "evidence", points roots.evidence), (points "temporary", points roots.temporary), (points "work", points roots.work)]
      have hsame : Data.sameFields intOf fields (entries.map fun e => (.str e.1, .str e.2)) = true := h
      rw [sameFields_texts intOf hsame]
      rfl
    | _ => simp [rootsData, Data.same, Data.number] at h
  · rintro rfl
    simp [rootsData, Data.same, Data.sameFields, Key.same]

omit [DecidableEq F] in
theorem rootsData_inj {a b : Roots String} (h : (rootsData a : Data F) = rootsData b) : a = b := by
  simp only [rootsData, Data.dict.injEq, List.cons.injEq, Prod.mk.injEq, Data.str.injEq, true_and, and_true] at h
  exact Roots.ext (points_inj h.2.2) (points_inj h.1) (points_inj h.2.1)

theorem hasRoots_iff {execution : Execution F} {roots : Roots String} :
    hasRoots intOf execution roots = true ↔ field (points "roots") execution.fields = some (rootsData roots) := by
  rw [hasRoots]
  cases field (points "roots") execution.fields with
  | none => simp
  | some v => rw [Option.any_some, same_rootsData, Option.some_inj]

end

/-! ## The binding -/

section

variable {order : Order} {grant : Grant}

theorem bindField_bound (ledgerPrepare : Bool) (entry : Key F × Data F) :
    BoundField grant ledgerPrepare entry (bindField order grant.sourceRoots grant.roots ledgerPrepare entry) := by
  refine ⟨bindField_key ledgerPrepare entry, fun hroots => ?_, fun hroots hbound => ?_, fun hroots hbound => ?_⟩
  · rw [bindField, if_pos hroots]
  · rw [bindField, if_neg (by simp [hroots]), if_pos hbound]
    exact mapped_rebound (fun s => rebase_rebased order.all s) entry.2
  · rw [bindField, if_neg (by simp [hroots]), if_neg (by simp [hbound])]

/-- The roots of a bound execution are the granted ones. -/
theorem field_bound {ledgerPrepare : Bool} {execution : List (Key F × Data F)} {value : Data F}
    (h : field (points "roots") execution = some value) :
    field (points "roots") (execution.map (bindField order grant.sourceRoots grant.roots ledgerPrepare)) = some (rootsData grant.roots) := by
  induction execution with
  | nil => cases h
  | cons entry rest ih =>
    rw [field, List.map_cons, List.find?_cons, bindField_key]
    rw [field, List.find?_cons] at h
    split
    · next hkey =>
      rw [Option.map_some, (bindField_bound ledgerPrepare entry).roots hkey]
    · next hkey =>
      rw [hkey] at h
      exact ih h

theorem BoundField.unique (hapart : Apart slash (texts grant.sourceRoots)) {ledgerPrepare : Bool} {entry a b : Key F × Data F}
    (ha : BoundField grant ledgerPrepare entry a) (hb : BoundField grant ledgerPrepare entry b) : a = b := by
  refine Prod.ext (ha.key.trans hb.key.symm) ?_
  by_cases hroots : entry.1.is (points "roots") = true
  · rw [ha.roots hroots, hb.roots hroots]
  · rw [Bool.not_eq_true] at hroots
    by_cases hbound : isBound ledgerPrepare entry.1 = true
    · exact Rebound.unique (fun s x y hx hy => hx.unique hapart hy) entry.2 a.2 b.2 (ha.bound hroots hbound) (hb.bound hroots hbound)
    · rw [Bool.not_eq_true] at hbound
      rw [ha.kept hroots hbound, hb.kept hroots hbound]

theorem Execution.ext {a b : Execution F} (h : a.fields = b.fields) : a = b := by
  cases a
  cases b
  cases h
  rfl

theorem Bound.unique (hapart : Apart slash (texts grant.sourceRoots)) {execution a b : Execution F}
    (ha : Bound grant execution a) (hb : Bound grant execution b) : a = b := by
  refine Execution.ext ?_
  unfold Bound at ha hb
  generalize isLedgerPrepare execution.fields = ledgerPrepare at ha hb
  generalize execution.fields = entries, a.fields = xs, b.fields = ys at ha hb
  induction ha generalizing ys with
  | nil =>
    cases hb
    rfl
  | cons hfield _ ih =>
    cases hb with
    | cons hfield' hrest => rw [hfield.unique hapart hfield', ih _ hrest]

theorem bind_bound (execution : Execution F) : Bound grant execution (execution.bind order grant) :=
  List.forall₂_map_right_iff.mpr (List.forall₂_same.mpr fun entry _ => bindField_bound _ entry)

/-- On the roots it has, an execution is bound as it is. -/
theorem bound_self {execution : Execution F} (hroots : field (points "roots") execution.fields = some (rootsData grant.roots))
    (hsame : grant.sourceRoots = grant.roots) : Bound grant execution execution := by
  refine List.forall₂_same.mpr fun entry hentry => ⟨rfl, fun hkey => ?_, fun _ _ => ?_, fun _ _ => rfl⟩
  · obtain ⟨key, value⟩ := entry
    obtain rfl : key = .str (points "roots") := Key.is_iff.mp hkey
    exact Option.some.inj ((field_of_mem execution.wf.1 hentry).symm.trans hroots)
  · refine Rebound.refl (fun s => ?_) entry.2
    rw [Moved, hsame]
    exact Rebased.refl s

end

/-- **Root rebinding is exact**: whatever the order of the roots, the result is the one value that moves the texts below
source roots and keeps everything else; bound again it stays as it is, and no two texts below source roots become one. -/
theorem rebinding_exact [DecidableEq F] (intOf : F → Option Int) (site : Site) {execution : Execution F} {grant : Grant}
    (hgrant : validateGrant site grant anyone = .ok ()) (hroots : hasRoots intOf execution grant.sourceRoots = true) :
    ∃ result : Execution F, (∀ order, bindExecution intOf site order execution grant = .ok result) ∧
      Bound grant execution result ∧ (∀ other, Bound grant execution other → other = result) ∧
      (∀ order, bindExecution intOf site order result grant = .ok result) ∧
      ∀ order i j s t, Under slash (texts grant.sourceRoots i) s → Under slash (texts grant.sourceRoots j) t →
        mappedText order grant.sourceRoots grant.roots s = mappedText order grant.sourceRoots grant.roots t → s = t := by
  obtain ⟨hsource, htarget⟩ := apart_of_validateGrant hgrant
  -- Once its roots are the granted ones, an execution stays as it is.
  have hstays {result : Execution F} (h : hasRoots intOf result grant.roots = true) (order : Order) :
      bindExecution intOf site order result grant = .ok result := by
    rw [bindExecution, hgrant]
    simp only [bind, Except.bind]
    rw [if_pos h]
    rfl
  have hinjective (order : Order) (i j : RootName) (s t : Text) (hi : Under slash (texts grant.sourceRoots i) s)
      (hj : Under slash (texts grant.sourceRoots j) t)
      (h : mappedText order grant.sourceRoots grant.roots s = mappedText order grant.sourceRoots grant.roots t) : s = t := by
    have hs : Moved grant s (mappedText order grant.sourceRoots grant.roots s) := rebase_rebased order.all s
    have ht : Moved grant t (mappedText order grant.sourceRoots grant.roots t) := rebase_rebased order.all t
    exact hs.injective htarget (h ▸ ht) hi hj
  by_cases htargets : hasRoots intOf execution grant.roots = true
  · have hsame : grant.sourceRoots = grant.roots := by
      have hfield := ((hasRoots_iff intOf).mp hroots).symm.trans ((hasRoots_iff intOf).mp htargets)
      exact rootsData_inj (Option.some.inj hfield)
    have hbound := bound_self ((hasRoots_iff intOf).mp htargets) hsame
    exact ⟨execution, hstays htargets, hbound, fun other h => h.unique hsource hbound, hstays htargets, hinjective⟩
  · let start : Order := ⟨[.work, .evidence, .temporary], .refl _⟩
    have hbinds (order : Order) : bindExecution intOf site order execution grant = .ok (execution.bind order grant) := by
      rw [bindExecution, hgrant]
      simp only [bind, Except.bind]
      rw [if_neg htargets, hroots]
      rfl
    have hone (order : Order) : execution.bind order grant = execution.bind start grant :=
      (bind_bound execution).unique hsource (bind_bound execution)
    have hbound : hasRoots intOf (execution.bind start grant) grant.roots = true :=
      (hasRoots_iff intOf).mpr (field_bound ((hasRoots_iff intOf).mp hroots))
    exact ⟨execution.bind start grant, fun order => (hbinds order).trans (by rw [hone]), bind_bound execution,
      fun other h => h.unique hsource (bind_bound execution), hstays hbound, hinjective⟩

/-- A grant whose roots lie inside a source root. -/
def nestedGrant : Grant :=
  buildGrant sampleSite ⟨.job, "a", "a", "digest", ⟨"/srv/first", "/profile/evidence", "/profile/temporary"⟩⟩ .preflight (sampleSlot "first" 10)
    (slotPaths (sampleSlot "first" 10)) []

/-- An execution with a path below a source root, and one beside it. -/
def nestedExecution : Execution Empty where
  fields := fieldsData [("environment", .obj [("HOME", .str "/srv/first/home")]),
    ("roots", .obj [("evidence", .str "/profile/evidence"), ("temporary", .str "/profile/temporary"), ("work", .str "/srv/first")]),
    ("writable", .arr [.str "/srv/firstly"])]
  wf := by
    have hroots : (["evidence", "temporary", "work"] : List String).Pairwise (· < ·) := by decide
    have hkeys : (["environment", "roots", "writable"] : List String).Pairwise (· < ·) := by decide
    exact (Value.wf_data (.obj _)).mpr ⟨List.pairwise_map.mp hkeys, ⟨List.pairwise_singleton _ _, trivial, trivial⟩,
      ⟨List.pairwise_map.mp hroots, trivial, trivial, trivial, trivial⟩, ⟨trivial, trivial⟩, trivial⟩

theorem rebinding_exact_nested : ∃ result : Execution Empty,
    (∀ order, bindExecution Empty.elim sampleSite order nestedExecution nestedGrant = .ok result) ∧ Bound nestedGrant nestedExecution result := by
  have hgrant : validateGrant sampleSite nestedGrant anyone = .ok () := by decide +kernel
  have hroots : hasRoots Empty.elim nestedExecution nestedGrant.sourceRoots = true := by decide +kernel
  obtain ⟨result, hresult, hbound, -⟩ := rebinding_exact Empty.elim sampleSite hgrant hroots
  exact ⟨result, hresult, hbound⟩

end LocalHand.BootstrapRoots
