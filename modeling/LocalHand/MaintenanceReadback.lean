/-
When the barrier can read what it has written. `_write` runs `_validate` and
prints; `_read` also bounds nesting and integers and refuses floats and
surrogates. So the bytes of a call that succeeds are read back as what was
written exactly when `_tree` lets through what the call brought into the record.
-/
import LocalHand.MaintenanceRecord

namespace LocalHand.MaintenanceRecord

open PyJson ResultReader
open Framing (Bytes)

variable {F : Type} [DecidableEq F] {node : Node F}
variable {fields fields' : Fields F} {m : Marker F} {value reply : Data F} {raw disk : Bytes} {depth : Nat}

/-! ## Dicts that are built and updated -/

omit [DecidableEq F] in
theorem update_wf {changes : List (String × Data F)} (hd : (Data.dict fields).WF) (hc : ∀ c ∈ changes, c.2.WF) :
    (Data.dict (update fields changes)).WF := by
  induction changes generalizing fields with
  | nil => exact hd
  | cons c changes ih =>
    exact ih (setField_wf hd (hc c List.mem_cons_self)) fun c' hc' => hc c' (List.mem_cons_of_mem _ hc')

omit [DecidableEq F] in
theorem field_update_other {changes : List (String × Data F)} {name : String} (hne : ∀ c ∈ changes, c.1 ≠ name) :
    field (points name) (update fields changes) = field (points name) fields := by
  induction changes generalizing fields with
  | nil => rfl
  | cons c changes ih =>
    have hc : points name ≠ points c.1 := fun heq => hne c List.mem_cons_self (points_inj heq).symm
    exact (ih fun c' hc' => hne c' (List.mem_cons_of_mem _ hc')).trans (field_setField_other hc)

omit [DecidableEq F] in
/-- Of a dict that `_tree` lets through, only what an update puts in counts. -/
theorem treeFields_update {changes : List (String × Data F)} (hs : fields.Pairwise fun a b => a.1.Before b.1)
    (hnames : (changes.map (·.1)).Nodup) (h : treeFields depth fields = .ok ()) :
    treeFields depth (update fields changes) = .ok () ↔ ∀ c ∈ changes, tree depth c.2 = .ok () := by
  induction changes generalizing fields with
  | nil => simpa [update] using h
  | cons c changes ih =>
    rw [List.map_cons, List.nodup_cons] at hnames
    have hfirst := treeFields_setField (v := c.2) hs (points_plain c.1) h
    have hupdate : update fields (c :: changes) = update (setField (points c.1) c.2 fields) changes := rfl
    rw [hupdate, List.forall_mem_cons]
    constructor
    · intro hall
      have hkept : field (points c.1) (update (setField (points c.1) c.2 fields) changes) = some c.2 := by
        rw [field_update_other fun c' hc' heq => hnames.1 (by rw [← heq]; exact List.mem_map_of_mem hc'),
          field_setField hs]
      have hc := treeFields_field hall hkept
      exact ⟨hc, (ih (setField_sorted hs) hnames.2 (hfirst.mpr hc)).mp hall⟩
    · rintro ⟨hc, hrest⟩
      exact (ih (setField_sorted hs) hnames.2 (hfirst.mpr hc)).mpr hrest

omit [DecidableEq F] in
theorem dict_wf {items : List (String × Data F)} (h : ∀ c ∈ items, c.2.WF) : (dict items).WF :=
  update_wf ⟨List.Pairwise.nil, trivial⟩ h

omit [DecidableEq F] in
theorem tree_dict_items {items : List (String × Data F)} (hnames : (items.map (·.1)).Nodup) (hdepth : depth < maxDepth) :
    tree depth (dict items) = .ok () ↔ ∀ c ∈ items, tree (depth + 1) c.2 = .ok () := by
  rw [dict, tree_dict, treeFields_update List.Pairwise.nil hnames rfl]
  exact and_iff_right hdepth

/-! ## Values that `_tree` lets through -/

omit [DecidableEq F] in
theorem tree_text (s : String) : tree depth (text s : Data F) = .ok () := by
  simp only [text, tree, require_ok, points_plain, Bool.not_false]

omit [DecidableEq F] in
theorem tree_isText {s : String} {v : Data F} (h : isText s v = true) : tree depth v = .ok () := by
  cases v <;> simp only [isText, Bool.false_eq_true, decide_eq_true_eq] at h
  subst h
  exact tree_text s

omit [DecidableEq F] in
/-- Where a string stands does not matter. -/
theorem tree_identifier {v : Data F} {depth' : Nat} (h : isIdentifier v = true) : tree depth v = tree depth' v := by
  cases v <;> simp only [isIdentifier, Bool.false_eq_true] at h
  rfl

omit [DecidableEq F] in
theorem tree_digest {v : Data F} (h : isDigest v = true) : tree depth v = .ok () := by
  cases v <;> simp only [isDigest, isHex, Bool.false_eq_true, Bool.and_eq_true] at h
  simpa only [tree, require_ok] using h.1

omit [DecidableEq F] in
theorem treeItems_append {xs ys : List (Data F)} :
    treeItems depth (xs ++ ys) = .ok () ↔ treeItems depth xs = .ok () ∧ treeItems depth ys = .ok () := by
  induction xs with
  | nil => simp [treeItems]
  | cons x xs ih => rw [List.cons_append, treeItems_cons, ih, treeItems_cons, and_assoc]

omit [DecidableEq F] in
theorem itemsWF_append {xs ys : List (Data F)} :
    Data.itemsWF (xs ++ ys) ↔ Data.itemsWF xs ∧ Data.itemsWF ys := by
  induction xs with
  | nil => simp [Data.itemsWF]
  | cons x xs ih => simp [Data.itemsWF, ih, and_assoc]

/-- A value equal to an identifier is that identifier. -/
theorem same_identifier {v w : Data F} (hv : isIdentifier v = true) (h : node.same v w = true) : w = v := by
  cases v <;> simp only [isIdentifier, Bool.false_eq_true] at hv
  exact (Data.same_str node.intOf).mp h

omit [DecidableEq F] in
theorem closure_names {names : List String} (hs : fields.Pairwise fun a b => a.1.Before b.1)
    (hkeys : hasKeys names fields = true) (htrue : ∀ name ∈ names, isTrue (field (points name) fields) = true) :
    treeFields depth fields = .ok () := by
  simp only [hasKeys, Bool.and_eq_true, List.all_eq_true, List.any_eq_true, Key.is_iff] at hkeys
  rw [treeFields_iff]
  intro f hf
  obtain ⟨name, hname, hkey⟩ := hkeys.2 f hf
  have hfield : field (points name) fields = some f.2 := field_of_mem hs (hkey ▸ hf)
  have hvalue := htrue name hname
  rw [hfield] at hvalue
  refine ⟨⟨points name, hkey, points_plain name⟩, ?_⟩
  cases hv : f.2 with
  | bool b => rfl
  | _ => rw [hv] at hvalue; cases hvalue

omit [DecidableEq F] in
/-- A closure proof is two constants at most. -/
theorem tree_closure {proof : Data F} (hw : proof.WF) (h : validateClosure proof = .ok ()) (hdepth : depth < maxDepth) :
    tree depth proof = .ok () := by
  simp only [validateClosure, require_ok] at h
  cases proof <;> simp only [Bool.false_eq_true, Bool.or_eq_true, Bool.and_eq_true] at h
  rw [tree_dict]
  refine ⟨hdepth, ?_⟩
  rcases h with ⟨hkeys, hnever⟩ | ⟨⟨hkeys, hexited⟩, hstopped⟩
  · exact closure_names hw.1 hkeys (by simpa using hnever)
  · exact closure_names hw.1 hkeys (by simpa using ⟨hexited, hstopped⟩)

/-! ## A record that was read -/

/-- What is known of a record `_read` has returned. -/
structure Readable (node : Node F) (fields : Fields F) (m : Marker F) : Prop where
  wf : (Data.dict fields).WF
  passes : treeFields 1 fields = .ok ()
  valid : validate node (.dict fields) = .ok m
  sequence : field (points "sequence") fields = some (.int m.sequence)
  positive : 1 ≤ m.sequence
  responsibilities : field (points "responsibilities") fields = some (.dict m.responsibilities)
  compatibility : field (points "compatibility") fields = some (.dict m.compatibility)
  retiredOwners : field (points "retired_owners") fields = some (.list m.retiredOwners)
  owner : field (points "owner") fields = some m.owner
  closedOwner : isText "CLOSED" m.state = true → isIdentifier m.owner = true

omit [DecidableEq F] in
theorem item_ok {name : String} {v : Data F} : item fields name = .ok v ↔ field (points name) fields = some v := by
  unfold item
  split
  · next h => simp [h]
  · next w h => simp [h]

theorem validate_ok (hw : (Data.dict fields).WF) (ht : tree 0 (.dict fields) = .ok ())
    (h : validate node (.dict fields) = .ok m) : Readable node fields m := by
  have hvalid := h
  simp only [validate, marker, bind_ok, exists_unit, item_ok, pure, Except.pure, Except.ok.injEq] at h
  obtain ⟨m', ⟨-, schema, -, nodeId, -, state, -, sequence, hsequence, owner, howner, decision, -, deployment, -, duties,
    hduties, compatibility, hcompatibility, transition, -, retired, hretired, hmembers⟩, -, -, -, hvalidOwner, -, -, -,
    -, hm⟩ := h
  subst hm
  split at hmembers
  · simp only [bind_ok, require_ok, exists_unit, Bool.and_eq_true, decide_eq_true_eq, Except.ok.injEq] at hmembers
    obtain ⟨⟨-, hpositive⟩, rfl⟩ := hmembers
    refine ⟨hw, (tree_dict.mp ht).2, hvalid, hsequence, hpositive, hduties, hcompatibility, hretired, howner, ?_⟩
    intro hclosed
    simp only [validateOwner, hclosed, if_true, bind_ok, identifier, require_ok, exists_unit] at hvalidOwner
    exact hvalidOwner.1
  · cases hmembers

theorem read_ok (h : read node disk = .ok (value, m)) : ∃ fields, value = .dict fields ∧ Readable node fields m := by
  unfold read at h
  split at h
  · next found hfound =>
    cases h
    simp only [bind_ok, require_ok, exists_unit, pure, Except.pure, Except.ok.injEq, Prod.mk.injEq] at hfound
    obtain ⟨-, value', hload, m', hvalid, rfl, rfl⟩ := hfound
    obtain ⟨hw, ht⟩ := strictLoads_ok hload
    cases value' with
    | dict fields => exact ⟨fields, rfl, validate_ok hw ht hvalid⟩
    | _ => cases hvalid
  · cases h

namespace Readable

omit [DecidableEq F] in
theorem memberWF {name : String} {v : Data F} (hd : (Data.dict fields).WF)
    (hv : field (points name) fields = some v) : v.WF := Data.fieldsWF_iff.mp hd.2 _ (field_mem hv)

variable (r : Readable node fields m)

include r

theorem dutiesWF : (Data.dict m.responsibilities).WF := memberWF r.wf r.responsibilities

theorem compatibilityWF : (Data.dict m.compatibility).WF := memberWF r.wf r.compatibility

theorem dutiesTree : treeFields 2 m.responsibilities = .ok () :=
  (tree_dict.mp (treeFields_field r.passes r.responsibilities)).2

theorem compatibilityTree : treeFields 2 m.compatibility = .ok () :=
  (tree_dict.mp (treeFields_field r.passes r.compatibility)).2

theorem retiredTree : treeItems 2 m.retiredOwners = .ok () :=
  (tree_list.mp (treeFields_field r.passes r.retiredOwners)).2

theorem sequenceTree : tree depth (.int m.sequence : Data F) = .ok () := by
  show tree 1 (.int m.sequence : Data F) = .ok ()
  exact treeFields_field r.passes r.sequence

/-- The next sequence is in range unless this one is the last. -/
theorem nextSequence : tree depth (.int (m.sequence + 1) : Data F) = .ok () ↔ m.sequence < maxSafeInteger := by
  have hpositive := r.positive
  simp only [tree, require_ok, decide_eq_true_eq]
  omega

/-- The owner of a closed gate is in the record already. -/
theorem ownerTree {owner : Data F} (hclosed : isText "CLOSED" m.state = true) (hsame : node.same m.owner owner = true) :
    owner.WF ∧ ∀ depth, tree depth owner = .ok () := by
  have hid := r.closedOwner hclosed
  obtain rfl := same_identifier hid hsame
  refine ⟨memberWF r.wf r.owner, fun depth => ?_⟩
  have hplace : tree depth _ = tree 1 _ := tree_identifier hid
  rw [hplace]
  exact treeFields_field r.passes r.owner

end Readable

/-! ## What each call puts into the record -/

/-- What a call brings into the record, and the sequence it leads to, pass the
checks of `strict_loads`. -/
def Call.Fits (call : Call F) (m : Marker F) : Prop :=
  match call with
  | .close owner _ => tree 1 owner.data = .ok () ∧ m.sequence < maxSafeInteger
  | .release _ decisionId _ _ => tree 1 decisionId.data = .ok () ∧ m.sequence < maxSafeInteger
  | .handoff _ successor _ => tree 1 successor.data = .ok () ∧ m.sequence < maxSafeInteger
  | .authorizeCompatibility _ prepared _ targetLoaded =>
    tree 3 prepared.data = .ok () ∧ tree 3 targetLoaded.data = .ok ()
  | .accept _ operationId attemptId binding loaded _ _ _ =>
    tree 3 operationId.data = .ok () ∧ tree 3 attemptId.data = .ok () ∧ tree 3 binding.data = .ok () ∧
      tree 3 loaded.data = .ok ()
  | .dispatch _ _ | .finish _ _ => True

/-- The record a call writes: in order, and let through by `_tree` just then. -/
structure Written (fields' : Fields F) (fits : Prop) : Prop where
  wf : (Data.dict fields').WF
  passes : tree 0 (.dict fields') = .ok () ↔ fits

omit [DecidableEq F] in
theorem Written.of_update {fits : Prop} {changes : List (String × Data F)} (hd : (Data.dict fields).WF)
    (ht : treeFields 1 fields = .ok ()) (hnames : (changes.map (·.1)).Nodup) (hw : ∀ c ∈ changes, c.2.WF)
    (hfits : (∀ c ∈ changes, tree 1 c.2 = .ok ()) ↔ fits) : Written (update fields changes) fits := by
  refine ⟨update_wf hd hw, ?_⟩
  rw [tree_dict, treeFields_update hd.1 hnames ht, hfits]
  exact and_iff_right (by decide)

theorem close_written {owner expected : Data F} (r : Readable node fields m) (hw : owner.WF)
    (hid : isIdentifier owner = true)
    (h : close node owner expected fields m = .ok (.write fields' reply)) :
    Written fields' (tree 1 owner = .ok () ∧ m.sequence < maxSafeInteger) := by
  unfold close at h
  split at h
  · cases h
  · simp only [bind_ok, require_ok, exists_unit, pure, Except.pure, Except.ok.injEq, Decision.write.injEq] at h
    obtain ⟨-, -, rfl, -⟩ := h
    have htransition : tree 1 (dict [("kind", text "close"), ("owner", owner)]) = .ok () ↔ tree 1 owner = .ok () := by
      rw [tree_dict_items (by simp) (by decide)]
      simp only [List.forall_mem_cons, List.not_mem_nil, false_imp_iff, implies_true, and_true, tree_text, true_and]
      rw [tree_identifier hid]
    refine .of_update r.wf r.passes (by simp) ?_ ?_
    · simp only [List.forall_mem_cons, List.not_mem_nil, false_imp_iff, implies_true, and_true]
      exact ⟨trivial, hw, trivial, dict_wf (by simpa using ⟨trivial, hw⟩)⟩
    · simp only [List.forall_mem_cons, List.not_mem_nil, false_imp_iff, implies_true, and_true, tree_text, true_and,
        r.nextSequence, htransition]
      tauto

theorem release_written {owner decisionId deploymentDigest expected : Data F} (r : Readable node fields m)
    (hw : decisionId.WF ∧ deploymentDigest.WF) (hid : isIdentifier decisionId = true)
    (hdigest : isDigest deploymentDigest = true)
    (h : release node owner decisionId deploymentDigest expected fields m = .ok (.write fields' reply)) :
    Written fields' (tree 1 decisionId = .ok () ∧ m.sequence < maxSafeInteger) := by
  unfold release at h
  split at h
  · cases h
  · simp only [bind_ok, require_ok, exists_unit, pure, Except.pure, Except.ok.injEq, Decision.write.injEq,
      Bool.and_eq_true] at h
    obtain ⟨-, ⟨hclosed, hsame⟩, rfl, -⟩ := h
    obtain ⟨hownerWF, howner⟩ := r.ownerTree hclosed hsame
    have htransition : tree 1 (releaseTransition owner decisionId deploymentDigest) = .ok () ↔
        tree 1 decisionId = .ok () := by
      rw [releaseTransition, tree_dict_items (by simp) (by decide)]
      simp only [List.forall_mem_cons, List.not_mem_nil, false_imp_iff, implies_true, and_true, tree_text, true_and,
        howner, tree_digest hdigest]
      rw [tree_identifier hid]
    have hretired : tree 1 (.list (m.retiredOwners ++ [owner])) = .ok () := by
      rw [tree_list, treeItems_append]
      exact ⟨by decide, r.retiredTree, treeItems_cons.mpr ⟨howner _, rfl⟩⟩
    refine .of_update r.wf r.passes (by simp) ?_ ?_
    · simp only [List.forall_mem_cons, List.not_mem_nil, false_imp_iff, implies_true, and_true]
      refine ⟨trivial, trivial, hw.1, hw.2, trivial, dict_wf ?_, ?_⟩
      · simpa using ⟨trivial, hownerWF, hw.1, hw.2⟩
      · exact itemsWF_append.mpr ⟨Readable.memberWF r.wf r.retiredOwners, hownerWF, trivial⟩
    · simp only [List.forall_mem_cons, List.not_mem_nil, false_imp_iff, implies_true, and_true, tree_text, true_and,
        r.nextSequence, htransition, hretired, tree_digest hdigest]
      simp only [tree, true_and]
      tauto

theorem handoff_written {owner successor expected : Data F} (r : Readable node fields m) (hw : successor.WF)
    (hid : isIdentifier successor = true)
    (h : handoff node owner successor expected fields m = .ok (.write fields' reply)) :
    Written fields' (tree 1 successor = .ok () ∧ m.sequence < maxSafeInteger) := by
  unfold handoff at h
  simp only at h
  split at h
  · cases h
  · simp only [bind_ok, require_ok, exists_unit, pure, Except.pure, Except.ok.injEq, Decision.write.injEq,
      Bool.and_eq_true] at h
    obtain ⟨-, ⟨⟨hclosed, hsame⟩, -⟩, rfl, -⟩ := h
    obtain ⟨hownerWF, howner⟩ := r.ownerTree hclosed hsame
    have htransition : tree 1 (dict [("kind", text "handoff"), ("owner", owner), ("successor", successor)]) = .ok () ↔
        tree 1 successor = .ok () := by
      rw [tree_dict_items (by simp) (by decide)]
      simp only [List.forall_mem_cons, List.not_mem_nil, false_imp_iff, implies_true, and_true, tree_text, true_and,
        howner]
      rw [tree_identifier hid]
    have hretired : tree 1 (.list (m.retiredOwners ++ [owner])) = .ok () := by
      rw [tree_list, treeItems_append]
      exact ⟨by decide, r.retiredTree, treeItems_cons.mpr ⟨howner _, rfl⟩⟩
    refine .of_update r.wf r.passes (by simp) ?_ ?_
    · simp only [List.forall_mem_cons, List.not_mem_nil, false_imp_iff, implies_true, and_true]
      refine ⟨hw, trivial, dict_wf ?_, ?_⟩
      · simpa using ⟨trivial, hownerWF, hw⟩
      · exact itemsWF_append.mpr ⟨Readable.memberWF r.wf r.retiredOwners, hownerWF, trivial⟩
    · simp only [List.forall_mem_cons, List.not_mem_nil, false_imp_iff, implies_true, and_true,
        r.nextSequence, htransition, hretired]
      tauto

/-- Putting one entry into a table of the record. -/
theorem Written.of_table {fits : Prop} {name : String} {table : Fields F} {key : Text} {entry : Data F}
    (r : Readable node fields m) (htable : (Data.dict table).WF) (ht : treeFields 2 table = .ok ())
    (hkey : key.any isSurrogate = false) (hw : entry.WF) (hfits : tree 2 entry = .ok () ↔ fits) :
    Written (update fields [(name, .dict (setField key entry table))]) fits := by
  refine .of_update r.wf r.passes (by simp) ?_ ?_
  · simpa using setField_wf htable hw
  · simp only [List.forall_mem_cons, List.not_mem_nil, false_imp_iff, implies_true, and_true, tree_dict,
      treeFields_setField htable.1 hkey ht, hfits]
    exact and_iff_right (by decide)

theorem authorizeCompatibility_written {owner prepared target targetLoaded : Data F} (r : Readable node fields m)
    (hw : prepared.WF ∧ target.WF ∧ targetLoaded.WF) (htarget : isDigest target = true)
    (h : authorizeCompatibility node owner prepared target targetLoaded fields m = .ok (.write fields' reply)) :
    Written fields' (tree 3 prepared = .ok () ∧ tree 3 targetLoaded = .ok ()) := by
  simp only [authorizeCompatibility, bind_ok, require_ok, exists_unit, Bool.and_eq_true] at h
  obtain ⟨⟨hclosed, hsame⟩, digested, -, h⟩ := h
  obtain ⟨hownerWF, howner⟩ := r.ownerTree hclosed hsame
  split at h
  · cases h
  · simp only [pure, Except.pure, Except.ok.injEq, Decision.write.injEq] at h
    obtain ⟨rfl, -⟩ := h
    refine .of_table r r.compatibilityWF r.compatibilityTree (points_plain _) (dict_wf ?_) ?_
    · simpa using ⟨hownerWF, hw⟩
    · rw [tree_dict_items (by simp) (by decide)]
      simp only [List.forall_mem_cons, List.not_mem_nil, false_imp_iff, implies_true, and_true, true_and, howner,
        tree_digest htarget]

theorem accept_written {kind operationId attemptId binding loaded prepared : Data F}
    {authorization : Except Fault Unit} {identity : String} (r : Readable node fields m)
    (hw : operationId.WF ∧ attemptId.WF ∧ binding.WF ∧ loaded.WF)
    (hkind : isText "prepare" kind = true ∨ isText "execute" kind = true)
    (h : accept node kind operationId attemptId binding loaded prepared authorization identity fields m =
      .ok (.write fields' reply)) :
    Written fields' (tree 3 operationId = .ok () ∧ tree 3 attemptId = .ok () ∧ tree 3 binding = .ok () ∧
      tree 3 loaded = .ok ()) := by
  simp only [accept, bind_ok, exists_unit] at h
  obtain ⟨-, h⟩ := h
  split at h
  · simp only [bind_ok, exists_unit, pure, Except.pure, Except.ok.injEq, reduceCtorEq, and_false] at h
  · simp only [bind_ok, require_ok, exists_unit, digest, pure, Except.pure, Except.ok.injEq,
      Decision.write.injEq] at h
    obtain ⟨-, deployment, -, -, -, bindingDigest, ⟨printed, -, rfl⟩, rfl, -⟩ := h
    have hkindTree : tree 3 kind = .ok () := hkind.elim tree_isText tree_isText
    have hkindWF : kind.WF := by
      cases kind with
      | str s => trivial
      | _ => simp [isText] at hkind
    refine .of_table r r.dutiesWF r.dutiesTree (points_plain _) (dict_wf ?_) ?_
    · simp only [List.forall_mem_cons, List.not_mem_nil, false_imp_iff, implies_true, and_true]
      exact ⟨trivial, hkindWF, hw.1, hw.2.1, hw.2.2.1, trivial, hw.2.2.2, trivial, trivial, trivial⟩
    · rw [newDuty, tree_dict_items (by simp) (by decide)]
      simp only [List.forall_mem_cons, List.not_mem_nil, false_imp_iff, implies_true, and_true, true_and, tree_text,
        hkindTree, r.sequenceTree]
      simp only [tree, and_true]

/-- The responsibility a receipt names is in the record. -/
theorem findReceipt_ok {receipt : Data F} {key : Text} {duty : Fields F} (r : Readable node fields m)
    (h : findReceipt node m receipt = .ok (key, duty)) :
    key.any isSurrogate = false ∧ (Data.dict duty).WF ∧ treeFields 3 duty = .ok () := by
  unfold findReceipt at h
  split at h
  · split at h
    · next key' hid =>
      split at h
      · next duty' hfield =>
        simp only [bind_ok, exists_unit, pure, Except.pure, Except.ok.injEq, Prod.mk.injEq] at h
        obtain ⟨-, rfl, rfl⟩ := h
        have hmem := field_mem hfield
        obtain ⟨⟨s, hs, hplain⟩, hpasses⟩ := treeFields_iff.mp r.dutiesTree _ hmem
        cases hs
        exact ⟨hplain, Data.fieldsWF_iff.mp r.dutiesWF.2 _ hmem, (tree_dict.mp hpasses).2⟩
      · cases h
    · cases h
  · cases h

theorem dispatch_written {receipt : Data F} {authorization : Except Fault Unit} (r : Readable node fields m)
    (h : dispatch node receipt authorization fields m = .ok (.write fields' reply)) : Written fields' True := by
  simp only [dispatch, bind_ok, require_ok, exists_unit, pure, Except.pure, Except.ok.injEq,
    Decision.write.injEq] at h
  obtain ⟨⟨key, duty⟩, hreceipt, -, -, rfl, -⟩ := h
  obtain ⟨hkey, hdutyWF, hduty⟩ := findReceipt_ok r hreceipt
  refine .of_table r r.dutiesWF r.dutiesTree hkey (update_wf hdutyWF (by simp [text, Data.WF])) ?_
  rw [iff_true, tree_dict, treeFields_update hdutyWF.1 (by simp) hduty]
  exact ⟨by decide, by simp [tree_text]⟩

theorem finish_written {receipt proof : Data F} (r : Readable node fields m) (hw : proof.WF)
    (hproof : validateClosure proof = .ok ())
    (h : finish node receipt proof fields m = .ok (.write fields' reply)) : Written fields' True := by
  simp only [finish, bind_ok] at h
  obtain ⟨⟨key, duty⟩, hreceipt, h⟩ := h
  obtain ⟨hkey, hdutyWF, hduty⟩ := findReceipt_ok r hreceipt
  simp only at h
  split at h
  · simp only [bind_ok, exists_unit, pure, Except.pure, Except.ok.injEq, reduceCtorEq, and_false] at h
  · simp only [pure, Except.pure, Except.ok.injEq, Decision.write.injEq] at h
    obtain ⟨rfl, -⟩ := h
    refine .of_table r r.dutiesWF r.dutiesTree hkey (update_wf hdutyWF ?_) ?_
    · simpa [text, Data.WF] using hw
    · rw [iff_true, tree_dict, treeFields_update hdutyWF.1 (by simp) hduty]
      exact ⟨by decide, by simpa [tree_text] using tree_closure hw hproof (by decide)⟩

/-- Whatever a call that passed its own checks writes into a readable record. -/
theorem decide_written {call : Call F} (r : Readable node fields m) (hchecks : call.checks node = .ok ())
    (h : call.decide node fields m = .ok (.write fields' reply)) : Written fields' (call.Fits m) := by
  cases call with
  | close owner expected =>
    simp only [Call.checks, identifier, require_ok] at hchecks
    exact close_written r owner.wf hchecks h
  | release owner decisionId deploymentDigest expected =>
    simp only [Call.checks, identifier, checkDigest, bind_ok, require_ok, exists_unit] at hchecks
    exact release_written r ⟨decisionId.wf, deploymentDigest.wf⟩ hchecks.2.1 hchecks.2.2 h
  | handoff owner successor expected =>
    simp only [Call.checks, identifier, bind_ok, require_ok, exists_unit] at hchecks
    exact handoff_written r successor.wf hchecks.2.1 h
  | authorizeCompatibility owner prepared target targetLoaded =>
    simp only [Call.checks, checkDigest, bind_ok, require_ok, exists_unit] at hchecks
    exact authorizeCompatibility_written r ⟨prepared.wf, target.wf, targetLoaded.wf⟩ hchecks.1 h
  | accept kind operationId attemptId binding loaded prepared authorization identity =>
    simp only [Call.checks, bind_ok, require_ok, exists_unit, Bool.and_eq_true, Bool.or_eq_true] at hchecks
    exact accept_written r ⟨operationId.wf, attemptId.wf, binding.wf, loaded.wf⟩ hchecks.1.1 h
  | dispatch receipt authorization => exact dispatch_written r h
  | finish receipt proof => exact finish_written r proof.wf hchecks h

/-! ## Reading the record back -/

/-- The bytes `_write` puts in place are read as what it was given, if `_tree`
lets that through. -/
theorem read_write (hw : (Data.dict fields).WF) (h : write node (.dict fields) = .ok raw) :
    (∃ m, read node raw = .ok (.dict fields, m)) ↔ tree 0 (.dict fields) = .ok () := by
  simp only [write, bind_ok, require_ok, exists_unit, decide_eq_true_eq, pure, Except.pure, Except.ok.injEq] at h
  obtain ⟨m, hvalid, printed, hprinted, hsize, rfl⟩ := h
  have hlength : (printed ++ [10]).length ≤ maxStateBytes := by simpa using hsize
  constructor
  · rintro ⟨m', hread⟩
    obtain ⟨fields', hfields', r⟩ := read_ok hread
    cases hfields'
    exact tree_dict.mpr ⟨by decide, r.passes⟩
  · intro ht
    have hload := strictLoads_newline node.floats hw ht hprinted hlength
    refine ⟨m, ?_⟩
    simp only [read, hlength, require, decide_true, if_true, hload, hvalid, bind, Except.bind, pure, Except.pure]

/-- What a call writes into a readable record. -/
theorem act_written {call : Call F} {outcome : Outcome F} {written : Data F} (r : Readable node fields m)
    (hchecks : call.checks node = .ok ()) (h : call.act node (.dict fields) m = .ok outcome)
    (hwritten : outcome.written = some (written, raw)) :
    (∃ m', read node raw = .ok (written, m')) ↔ call.Fits m := by
  simp only [Call.act, bind_ok] at h
  obtain ⟨decision, hdecision, h⟩ := h
  cases decision with
  | confirm reply =>
    simp only [pure, Except.pure, Except.ok.injEq] at h
    subst h
    cases hwritten
  | write fields' reply =>
    simp only [bind_ok, pure, Except.pure, Except.ok.injEq] at h
    obtain ⟨raw', hraw, rfl⟩ := h
    cases hwritten
    have hcall := decide_written r hchecks hdecision
    rw [read_write hcall.wf hraw, hcall.passes]

/-- **When the barrier reads back what it wrote**: exactly when what the call
brings into the record, and the sequence it leads to, fit the strict JSON of
the reader. -/
theorem record_reads_back (node : Node F) (call : Call F) (disk raw : Bytes) (value written : Data F) (m : Marker F)
    (outcome : Outcome F) (hread : read node disk = .ok (value, m)) (h : call.run node disk = .ok outcome)
    (hwritten : outcome.written = some (written, raw)) :
    (∃ m', read node raw = .ok (written, m')) ↔ call.Fits m := by
  obtain ⟨fields, rfl, r⟩ := read_ok hread
  simp only [Call.run, bind_ok, exists_unit, hread, Except.ok.injEq] at h
  obtain ⟨hchecks, found, rfl, hact⟩ := h
  exact act_written r hchecks hact hwritten

/-- A node, with `sha256` as it is at the binding below. -/
def sampleNode : Node Empty where
  nodeId := points "node"
  floats := noFloats
  intOf := Empty.elim
  sha256.hexdigest _ := "5b9c5185e51f92e7d20c801f338d16c1272ad4fc1cefb1d6935cdde184eddef0"
  sha256.hex _ := by decide

def zeros : String := "0000000000000000000000000000000000000000000000000000000000000000"

/-- The record `initialize` leaves. -/
def opened : Fields Empty :=
  update [] [("schema", text "local-hand-maintenance/v1"), ("node_id", text "node"), ("state", text "OPEN"),
    ("sequence", .int 1), ("owner", .null), ("decision_id", text "bootstrap"), ("deployment_digest", text zeros),
    ("responsibilities", .dict []), ("compatibility", .dict []), ("last_transition", .null),
    ("retired_owners", .list [])]

def loadedSample : Data Empty :=
  dict [("node_id", text "node"), ("deployment_digest", text zeros), ("configuration_digest", text zeros),
    ("payload_digest", text zeros), ("boot_id", text "boot"), ("component", text "manager")]

theorem loadedSample_wf : loadedSample.WF := dict_wf (by simp [text, Data.WF])

/-- A preparation is accepted for a binding with one integer in it. -/
def acceptance (limit : Int) : Call Empty :=
  .accept ⟨text "prepare", trivial⟩ ⟨text "task", trivial⟩ ⟨text "attempt", trivial⟩
    ⟨dict [("limit", .int limit)], dict_wf (by simp [Data.WF])⟩ ⟨loadedSample, loadedSample_wf⟩ ⟨.null, trivial⟩ (.ok ())
    "00000000000000000000000000000000"

theorem opened_readable : ∃ disk m, read sampleNode disk = .ok (.dict opened, m) := by
  have hprinted : (write sampleNode (.dict opened)).isOk = true := by decide +kernel
  cases hraw : write sampleNode (.dict opened) with
  | error fault =>
    rw [hraw] at hprinted
    cases hprinted
  | ok raw =>
    have hw : (Data.dict opened).WF := dict_wf (by simp [text, Data.WF, Data.itemsWF, Data.fieldsWF])
    have ht : (tree 0 (.dict opened)).isOk = true := by decide +kernel
    refine ⟨raw, (read_write hw hraw).mpr ?_⟩
    cases htree : tree 0 (.dict opened) with
    | error fault =>
      rw [htree] at ht
      cases ht
    | ok u => rfl

/-- The acceptance on the fresh record. -/
def trial (limit : Int) : Except Fault (Outcome Empty) := do
  (acceptance limit).checks sampleNode
  let m ← validate sampleNode (.dict opened)
  (acceptance limit).act sampleNode (.dict opened) m

def writes : Except Fault (Outcome Empty) → Bool
  | .ok outcome => outcome.written.isSome
  | .error _ => false

/-- It succeeds, and writes. -/
theorem acceptance_runs (limit : Int) (hlimit : limit = 9007199254740991 ∨ limit = 9007199254740992) :
    ∃ disk m outcome written raw, read sampleNode disk = .ok (.dict opened, m) ∧
      (acceptance limit).run sampleNode disk = .ok outcome ∧ outcome.written = some (written, raw) := by
  obtain ⟨disk, m, hread⟩ := opened_readable
  obtain ⟨fields, hfields, r⟩ := read_ok hread
  cases hfields
  have hwrites : writes (trial limit) = true := by rcases hlimit with rfl | rfl <;> decide +kernel
  cases hact : trial limit with
  | error fault =>
    rw [hact] at hwrites
    cases hwrites
  | ok outcome =>
    rw [hact] at hwrites
    obtain ⟨⟨written, raw⟩, hwritten⟩ := Option.isSome_iff_exists.mp hwrites
    refine ⟨disk, m, outcome, written, raw, hread, ?_, hwritten⟩
    simp only [trial, bind_ok, exists_unit, r.valid, Except.ok.injEq] at hact
    obtain ⟨hchecks, m', rfl, hact⟩ := hact
    simp only [Call.run, bind_ok, exists_unit, hread, Except.ok.injEq]
    exact ⟨hchecks, _, rfl, hact⟩

/-- The same call with an integer in range is read back. -/
theorem record_reads_back_sample : ∃ disk raw m written, read sampleNode disk = .ok (.dict opened, m) ∧
    ∃ m', read sampleNode raw = .ok (written, m') := by
  obtain ⟨disk, m, outcome, written, raw, hread, hrun, hwritten⟩ := acceptance_runs _ (.inl rfl)
  refine ⟨disk, raw, m, written, hread, ?_⟩
  refine (record_reads_back sampleNode (acceptance 9007199254740991) disk raw _ written m outcome hread hrun
    hwritten).mpr ⟨rfl, rfl, ?_, ?_⟩
  · rfl
  · rfl

/-- An accepted binding with the integer `2 ** 53` leaves a record that is not read back. -/
theorem record_lost : ∃ disk m outcome written raw, read sampleNode disk = .ok (.dict opened, m) ∧
    (acceptance 9007199254740992).run sampleNode disk = .ok outcome ∧ outcome.written = some (written, raw) ∧
      ¬ ∃ m', read sampleNode raw = .ok (written, m') := by
  obtain ⟨disk, m, outcome, written, raw, hread, hrun, hwritten⟩ := acceptance_runs _ (.inr rfl)
  refine ⟨disk, m, outcome, written, raw, hread, hrun, hwritten, ?_⟩
  obtain ⟨fields, hfields, r⟩ := read_ok hread
  cases hfields
  simp only [Call.run, bind_ok, exists_unit, hread, Except.ok.injEq] at hrun
  obtain ⟨hchecks, found, rfl, hact⟩ := hrun
  rw [act_written r hchecks hact hwritten]
  rintro ⟨-, -, hbinding, -⟩
  exact absurd hbinding (by decide +kernel)

end LocalHand.MaintenanceRecord
