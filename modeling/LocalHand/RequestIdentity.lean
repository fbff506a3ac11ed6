/-
What the digest of a submission binds: an accepted request is read back from
its canonical bytes, so the bytes tell requests apart, and the digest that
`validate_submit` takes for it is the one of these bytes.
-/
import LocalHand.Request

namespace LocalHand.Request

open PyJson ResultReader
open Framing (Bytes)

variable {F : Type} {fl : FloatText F} {unicode : Unicode} {sha256 : Sha256}
variable {fields : List (Key F × Data F)} {request accepted result : Data F} {raw : Bytes}

/-! ## Printed lengths -/

theorem encodeText_append (text text' : List Char) : encodeText (text ++ text') = encodeText text ++ encodeText text' :=
  List.flatMap_append

/-- A dict prints as its items do, but for the bracket in front. -/
theorem dump_obj_length (fl : FloatText F) (fs : List (String × Value F)) :
    (encodeText (dump fl true (.obj fs))).length ≤ (encodeText (dumpFields fl true fs)).length + 1 ∧
      (encodeText (dumpFields fl true fs)).length ≤ (encodeText (dump fl true (.obj fs))).length := by
  have hcons : ∀ (c : Char) (text : List Char), c.toNat < 128 →
      (encodeText (c :: text)).length = (encodeText text).length + 1 := by
    intro c text hc
    have hsize : (String.utf8EncodeChar c).length = 1 := by
      rw [String.length_utf8EncodeChar, Char.utf8Size_eq_one_iff]
      exact UInt32.le_iff_toNat_le.mpr (Nat.le_of_lt_succ hc)
    simp only [encodeText, List.flatMap_cons, List.length_append, hsize]
    omega
  cases fs with
  | nil =>
    have hopen := hcons '{' ['}'] (by decide)
    simp only [dump, dumpFields]
    omega
  | cons f rest =>
    obtain ⟨k, v⟩ := f
    have hopen := hcons '{' (dumpString true k ++ ':' :: (dump fl true v ++ dumpFields fl true rest)) (by decide)
    have hcomma := hcons ',' (dumpString true k ++ ':' :: (dump fl true v ++ dumpFields fl true rest)) (by decide)
    simp only [dump, dumpFields]
    omega

/-- What one more item adds to the printed items. -/
theorem dumpFields_insert (fl : FloatText F) (before after : List (String × Value F)) (k : String) (v : Value F) :
    (encodeText (dumpFields fl true (before ++ (k, v) :: after))).length =
      (encodeText (dumpFields fl true (before ++ after))).length +
        (encodeText (',' :: (dumpString true k ++ ':' :: dump fl true v))).length := by
  induction before with
  | nil =>
    have hsplit : dumpFields fl true ((k, v) :: after) =
        (',' :: (dumpString true k ++ ':' :: dump fl true v)) ++ dumpFields fl true after := by
      simp [dumpFields]
    rw [List.nil_append, List.nil_append, hsplit, encodeText_append, List.length_append]
    omega
  | cons f before ih =>
    obtain ⟨j, w⟩ := f
    have hsplit : ∀ fs : List (String × Value F), dumpFields fl true ((j, w) :: fs) =
        (',' :: (dumpString true j ++ ':' :: dump fl true w)) ++ dumpFields fl true fs := by
      intro fs
      simp [dumpFields]
    rw [List.cons_append, List.cons_append, hsplit, hsplit, encodeText_append, encodeText_append, List.length_append,
      List.length_append, ih]
    omega

/-! ## The schema -/

theorem is_points {name name' : String} : (Key.str (points name') : Key F).is (points name) = decide (name' = name) := by
  simp only [Key.is]
  exact decide_eq_decide.mpr ⟨points_inj, fun h => h ▸ rfl⟩

/-- In every kind of submission the digest has the digest's schema. -/
theorem matchesProperty_digest (kind : String × Schema) (v : Data F) :
    (match submission kind with
      | .object properties _ => matchesProperty properties (.str digestName) v
      | _ => false) = matchesSchema (string .digest) v := by
  simp only [submission, object, matchesProperty, digestName, is_points]
  simp

theorem matchCount_pos {candidates : List Schema} {v : Data F} (h : matchCount candidates v ≠ 0) :
    ∃ candidate ∈ candidates, matchesSchema candidate v = true := by
  induction candidates with
  | nil => exact absurd rfl h
  | cons candidate rest ih =>
    by_cases hc : matchesSchema candidate v = true
    · exact ⟨candidate, List.mem_cons_self, hc⟩
    · rw [matchCount, if_neg hc, Nat.zero_add] at h
      obtain ⟨found, hfound, hmatch⟩ := ih h
      exact ⟨found, List.mem_cons_of_mem _ hfound, hmatch⟩

theorem matchesSchema_object {properties : List (String × Schema)} {required : List String} :
    matchesSchema (.object properties required) (.dict fields) = true ↔
      (∀ name ∈ required, (field (points name) fields).isSome = true) ∧
        ∀ f ∈ fields, matchesProperty properties f.1 f.2 = true := by
  simp only [matchesSchema, Bool.and_eq_true, List.all_eq_true]

theorem hexRuns_digest {cs : List Char} : hexRuns [64] cs = true ↔ cs.length = 64 ∧ cs.all isLowerHex = true := by
  simp [hexRuns]

/-- What the digest's schema lets through. -/
theorem matchesSchema_digest {v : Data F} : matchesSchema (string .digest) v = true ↔
    ∃ s : String, v = .str (points s) ∧ hexText 64 s = true := by
  constructor
  · intro h
    cases v <;> simp only [string, matchesSchema, Bool.false_eq_true] at h
    next s =>
    simp only [Option.all_some, Option.all_none, Bool.and_eq_true, Bool.not_eq_true', Pattern.fullmatch] at h
    obtain ⟨-, hplain, hmatch⟩ := h
    obtain ⟨t, rfl⟩ := exists_points hplain
    have hchars : (points t).map charOf = t.toList := by
      simp only [points, List.map_map]
      exact (List.map_congr_left fun c _ => charOf_pointOf c).trans (List.map_id _)
    rw [hchars, hexRuns_digest] at hmatch
    exact ⟨t, rfl, by simp only [hexText, hmatch, decide_true, Bool.and_self]⟩
  · rintro ⟨s, rfl, hs⟩
    simp only [hexText, Bool.and_eq_true, decide_eq_true_eq] at hs
    have hchars : (points s).map charOf = s.toList := by
      simp only [points, List.map_map]
      exact (List.map_congr_left fun c _ => charOf_pointOf c).trans (List.map_id _)
    have hlen : (points s).length ≤ maxRequestBytes := by
      rw [points, List.length_map, hs.1]
      decide
    simp only [string, matchesSchema, Option.all_some, Option.all_none, Option.getD_none, hlen, decide_true,
      points_plain, Pattern.fullmatch, hchars, hexRuns_digest.mpr hs]
    rfl

/-- A submission that matches carries a digest. -/
theorem matches_digest (h : matchesSchema submitSchema (.dict fields) = true) :
    ∃ s : String, field digestName fields = some (.str (points s)) ∧ hexText 64 s = true := by
  simp only [submitSchema, matchesSchema, decide_eq_true_eq] at h
  have hpos : matchCount (kinds.map submission) (.dict fields) ≠ 0 := by omega
  obtain ⟨candidate, hmem, hmatch⟩ := matchCount_pos hpos
  obtain ⟨kind, -, rfl⟩ := List.mem_map.mp hmem
  rw [submission, object, matchesSchema_object] at hmatch
  have hsome := hmatch.1 "request_digest" (by simp)
  obtain ⟨v, hv⟩ := Option.isSome_iff_exists.mp hsome
  have hprop := hmatch.2 _ (field_mem hv)
  have hdigest := (matchesProperty_digest kind v).symm.trans hprop
  obtain ⟨s, rfl, hs⟩ := matchesSchema_digest.mp hdigest
  exact ⟨s, hv, hs⟩

/-- The schema does not see which digest a submission carries. -/
theorem matches_swap {v w : Data F} (hs : fields.Pairwise fun a b => a.1.Before b.1)
    (hv : field digestName fields = some v) (hv' : matchesSchema (string .digest) v = true)
    (hw : matchesSchema (string .digest) w = true) :
    matchesSchema submitSchema (.dict (setField digestName w fields)) = matchesSchema submitSchema (.dict fields) := by
  have hkind : ∀ kind : String × Schema, matchesSchema (submission kind) (.dict (setField digestName w fields)) =
      matchesSchema (submission kind) (.dict fields) := by
    intro kind
    have hdigest := matchesProperty_digest (F := F) kind
    rw [Bool.eq_iff_iff, submission, object, matchesSchema_object, matchesSchema_object]
    simp only [submission, object] at hdigest
    refine and_congr (forall₂_congr fun name _ => ?_) ?_
    · by_cases hname : points name = digestName
      · rw [hname, field_setField hs, hv]
        rfl
      · rw [field_setField_other hname]
    · constructor
      · intro h f hf
        by_cases hkey : f.1 = .str digestName
        · have hval : f.2 = v := by
            have hmem : (Key.str digestName, f.2) ∈ fields := hkey ▸ hf
            exact Option.some.inj ((field_of_mem hs hmem).symm.trans hv)
          rw [hkey, hval, hdigest]
          exact hv'
        · exact h f ((mem_setField hs).mpr (.inr ⟨hf, hkey⟩))
      · intro h f hf
        rcases (mem_setField hs).mp hf with rfl | ⟨hf, -⟩
        · rw [hdigest]
          exact hw
        · exact h f hf
  have hcount : ∀ list : List (String × Schema),
      matchCount (list.map submission) (.dict (setField digestName w fields)) =
        matchCount (list.map submission) (.dict fields) := by
    intro list
    induction list with
    | nil => rfl
    | cons kind rest ih => rw [List.map_cons, matchCount, matchCount, hkind, ih]
  rw [submitSchema, matchesSchema, matchesSchema, hcount]

/-! ## Accepted requests -/

/-- A request `_submit_without_digest` accepts, and what it checked. -/
structure Accepts (fl : FloatText F) (unicode : Unicode) (fields : List (Key F × Data F)) : Prop where
  tree : treeFields 1 (withDefault fields) = .ok ()
  schema : matchesSchema submitSchema (.dict (withDefault fields)) = true
  inputs : kindInputs fl unicode (withDefault fields) = .ok ()
  size : ∃ raw, canonicalBytes fl (.dict (popField digestName fields)) = .ok raw ∧ raw.length ≤ maxCanonicalBytes

theorem popField_withDefault : popField digestName (withDefault fields) = popField digestName fields := by
  unfold withDefault
  split
  · rfl
  · exact popField_setField

theorem submitWithoutDigest_ok : submitWithoutDigest fl unicode request = .ok accepted ↔
    ∃ fields, request = .dict fields ∧ accepted = .dict (popField digestName fields) ∧ Accepts fl unicode fields := by
  constructor
  · intro h
    cases request <;> simp only [submitWithoutDigest, reduceCtorEq] at h
    next fields =>
    simp only [bind_ok, require_ok, exists_unit, decide_eq_true_eq, tree_dict, pure, Except.pure, Except.ok.injEq,
      popField_withDefault] at h
    obtain ⟨⟨-, htree⟩, hschema, hinputs, raw, hraw, hsize, rfl⟩ := h
    exact ⟨fields, rfl, rfl, htree, hschema, hinputs, raw, hraw, hsize⟩
  · rintro ⟨fields, rfl, rfl, htree, hschema, hinputs, raw, hraw, hsize⟩
    simp only [submitWithoutDigest, bind_ok, require_ok, exists_unit, decide_eq_true_eq, tree_dict, pure, Except.pure,
      popField_withDefault, and_true]
    exact ⟨⟨by decide, htree⟩, hschema, hinputs, raw, hraw, hsize⟩

theorem Accepts.fieldsTree (h : Accepts fl unicode fields) (hs : fields.Pairwise fun a b => a.1.Before b.1) :
    treeFields 1 fields = .ok () := by
  have htree := h.tree
  unfold withDefault at htree
  split at htree
  · exact htree
  · next hnone =>
    rw [Option.not_isSome_iff_eq_none] at hnone
    rw [treeFields_iff] at htree ⊢
    exact fun f hf => htree f ((mem_setField hs).mpr (.inr ⟨hf, field_none.mp hnone f hf⟩))

theorem Accepts.requestTree (h : Accepts fl unicode fields) (hs : fields.Pairwise fun a b => a.1.Before b.1) :
    LocalHand.tree 0 (.dict fields) = .ok () := tree_dict.mpr ⟨by decide, h.fieldsTree hs⟩

/-- A digest a request already carries is one as the schema has it. -/
theorem Accepts.digest {v : Data F} (h : Accepts fl unicode fields) (hv : field digestName fields = some v) :
    ∃ s : String, v = .str (points s) ∧ hexText 64 s = true := by
  have hdefault : withDefault fields = fields := if_pos (by rw [hv]; rfl)
  obtain ⟨s, hfield, hs⟩ := matches_digest (hdefault ▸ h.schema)
  exact ⟨s, Option.some.inj (hv.symm.trans hfield), hs⟩

/-- Popping a key of a dict in order drops its one item. -/
theorem popField_cut {before after : List (String × Value F)} {name : String} {v : Value F}
    (hs : (before ++ (name, v) :: after).Pairwise (·.1 < ·.1)) :
    popField (points name) (fieldsData (before ++ (name, v) :: after)) = fieldsData (before ++ after) := by
  obtain ⟨-, hafter, hcross⟩ := List.pairwise_append.mp hs
  have hb : ∀ f ∈ before, f.1 ≠ name := fun f hf => ne_of_lt (hcross f hf (name, v) List.mem_cons_self)
  have ha : ∀ f ∈ after, f.1 ≠ name := fun f hf => (ne_of_lt ((List.pairwise_cons.mp hafter).1 f hf)).symm
  have hkeep : ∀ fs : List (String × Value F), (∀ f ∈ fs, f.1 ≠ name) →
      popField (points name) (fieldsData fs) = fieldsData fs := by
    intro fs hfs
    refine List.filter_eq_self.mpr fun g hg => ?_
    rw [fieldsData_map] at hg
    obtain ⟨f, hf, rfl⟩ := List.mem_map.mp hg
    simp only [is_points, hfs f hf, decide_false, Bool.not_false]
  have hsplit : ∀ fs gs : List (String × Value F), fieldsData (fs ++ gs) = fieldsData fs ++ fieldsData gs := by
    intro fs gs
    simp only [fieldsData_map, List.map_append]
  have hdrop : popField (points name) (fieldsData ((name, v) :: after)) = popField (points name) (fieldsData after) := by
    simp [popField, fieldsData, Key.is]
  have hpop : ∀ xs ys : List (Key F × Data F),
      popField (points name) (xs ++ ys) = popField (points name) xs ++ popField (points name) ys :=
    fun _ _ => List.filter_append _ _
  rw [hsplit, hpop, hkeep before hb, hdrop, hkeep after ha, hsplit]

/-- The digest adds little to the canonical bytes. -/
theorem Accepts.canonical (h : Accepts fl unicode fields) (hw : (Data.dict fields).WF) :
    ∃ raw, canonicalBytes fl (.dict fields) = .ok raw ∧ raw.length ≤ maxRequestBytes := by
  obtain ⟨short, hshort, hsize⟩ := h.size
  have hmax : maxCanonicalBytes + 4000 ≤ maxRequestBytes := by decide
  cases hfield : field digestName fields with
  | none =>
    rw [popField_none hfield] at hshort
    exact ⟨short, hshort, by omega⟩
  | some v =>
    obtain ⟨s, rfl, hs⟩ := h.digest hfield
    obtain ⟨value, hdata, hvalue, hints, hraw⟩ := canonicalBytes_tree fl hw (h.requestTree hw.1)
    cases value <;> simp only [Value.data, reduceCtorEq, Data.dict.injEq] at hdata
    next fs =>
    subst hdata
    refine ⟨_, hraw, ?_⟩
    have hmem := field_mem hfield
    rw [fieldsData_map] at hmem
    obtain ⟨⟨name, x⟩, hf, heq⟩ := List.mem_map.mp hmem
    simp only [Prod.mk.injEq, Key.str.injEq, digestName] at heq
    obtain ⟨hname, hx⟩ := heq
    obtain rfl := points_inj hname
    obtain rfl : x = .str s := Value.data_inj hx
    obtain ⟨before, after, rfl⟩ := List.append_of_mem hf
    -- Both texts are printed items, one with the digest's among them.
    have hints' : (Value.obj (before ++ after)).intsOk = true := by
      have hall : ∀ gs : List (String × Value F), fieldsIntsOk gs = true ↔ ∀ g ∈ gs, g.2.intsOk = true := by
        intro gs
        induction gs with
        | nil => simp [fieldsIntsOk]
        | cons g gs ih => simp [fieldsIntsOk, ih]
      refine (hall _).mpr fun g hg => (hall _).mp hints g ?_
      simp only [List.mem_append, List.mem_cons] at hg ⊢
      tauto
    have hpop := popField_cut hvalue.1
    have hprinted := (Value.obj (before ++ after)).dump_data fl hints'
    rw [digestName, hpop] at hshort
    simp only [Value.data] at hprinted
    simp only [canonicalBytes, hprinted, Except.ok.injEq] at hshort
    have hlong := (dump_obj_length fl (before ++ ("request_digest", .str s) :: after)).1
    have hrest := (dump_obj_length fl (before ++ after)).2
    have hinsert := dumpFields_insert fl before after "request_digest" (.str s)
    have hentry := encodeText_length_le (',' :: (dumpString true "request_digest" ++ ':' :: dump fl true (.str s)))
    have hkey := dumpString_length_le true "request_digest"
    have htext := dumpString_length_le true s
    simp only [hexText, Bool.and_eq_true, decide_eq_true_eq] at hs
    have hkeylen : "request_digest".toList.length = 14 := rfl
    rw [hkeylen] at hkey
    rw [hs.1] at htext
    have hlen : (',' :: (dumpString true "request_digest" ++ ':' :: dump fl true (.str s))).length =
        (dumpString true "request_digest").length + (dumpString true s).length + 2 := by
      simp only [dump, List.length_cons, List.length_append]
      omega
    rw [← hshort] at hsize
    omega

/-! ## Identity -/

/-- An accepted request is read back from its canonical bytes. -/
theorem Accepts.readBack (h : Accepts fl unicode fields) (hw : (Data.dict fields).WF) :
    ∃ raw, canonicalBytes fl (.dict fields) = .ok raw ∧ strictLoads fl (.bytes raw) maxRequestBytes = .ok (.dict fields) ∧
      loadsBytes fl raw = .ok (.dict fields) := by
  obtain ⟨raw, hraw, hsize⟩ := h.canonical hw
  refine ⟨raw, hraw, strictLoads_canonical hw (h.requestTree hw.1) hraw hsize, ?_⟩
  obtain ⟨value, hdata, hvalue, hints, hprint⟩ := canonicalBytes_tree fl hw (h.requestTree hw.1)
  rw [hraw, Except.ok.injEq] at hprint
  subst hprint
  have hdumps : dumps fl true value = some (dump fl true value) := if_pos hints
  rw [loadsBytes, decode_encode, Option.bind_some, loads_dumps fl true hvalue hdumps, ← hdata]

/-- The digest a request carries is no part of what is accepted, if it is one at all. -/
theorem Accepts.setDigest (h : Accepts fl unicode fields) (hs : fields.Pairwise fun a b => a.1.Before b.1) {s : String}
    (hdigest : hexText 64 s = true) : Accepts fl unicode (setField digestName (.str (points s)) fields) := by
  have hplain : digestName.any isSurrogate = false := points_plain _
  have hset : setField digestName (.str (points s)) fields =
      setField digestName (.str (points s)) (withDefault fields) := by
    unfold withDefault
    split
    · rfl
    · exact setField_setField.symm
  have hdefault : withDefault (setField digestName (.str (points s)) fields) =
      setField digestName (.str (points s)) (withDefault fields) := by
    rw [withDefault, field_setField hs, Option.isSome_some, if_pos rfl, hset]
  have hsorted : (withDefault fields).Pairwise fun a b => a.1.Before b.1 := by
    unfold withDefault
    split
    · exact hs
    · exact setField_sorted hs
  obtain ⟨t, hfield, ht⟩ := matches_digest h.schema
  refine ⟨?_, ?_, ?_, ?_⟩
  · rw [hdefault, treeFields_setField hsorted hplain h.tree]
    simp only [LocalHand.tree, require_ok, points_plain, Bool.not_false]
  · rw [hdefault, matches_swap hsorted hfield (matchesSchema_digest.mpr ⟨t, rfl, ht⟩)
      (matchesSchema_digest.mpr ⟨s, rfl, hdigest⟩)]
    exact h.schema
  · have hother : ∀ name : String, name ≠ "request_digest" →
        field (points name) (setField digestName (.str (points s)) (withDefault fields)) =
          field (points name) (withDefault fields) :=
      fun name hne => field_setField_other fun heq => hne (points_inj heq)
    have hinputs := h.inputs
    rw [hdefault]
    simp only [kindInputs, subscript, hother "kind" (by decide), hother "inputs" (by decide)] at hinputs ⊢
    exact hinputs
  · rw [popField_setField]
    exact h.size

/-- What `validate_submit` checks of a value. -/
theorem validateValue_ok : validateValue fl unicode sha256 request = .ok result ↔
    ∃ fields raw expected, request = .dict fields ∧ Accepts fl unicode fields ∧
      canonicalBytes fl (.dict (popField digestName fields)) = .ok expected ∧
      field digestName fields = some (.str (points (sha256.hexdigest expected))) ∧
      canonicalBytes fl request = .ok raw ∧ loadsBytes fl raw = .ok result := by
  constructor
  · intro h
    cases request <;> simp only [validateValue, reduceCtorEq] at h
    next fields =>
    split at h
    · cases h
    · next claimed hfield =>
      simp only [requestDigest, bind_ok, require_ok, exists_unit, submitWithoutDigest_ok, pure, Except.pure,
        Except.ok.injEq, Data.dict.injEq] at h
      obtain ⟨expected, ⟨accepted, ⟨fields', rfl, rfl, haccepts⟩, digested, hdigested, rfl⟩, hclaimed, raw, hraw,
        hresult⟩ := h
      cases claimed <;> simp only [Bool.false_eq_true, decide_eq_true_eq] at hclaimed
      exact ⟨_, raw, digested, rfl, haccepts, hdigested, hclaimed ▸ hfield, hraw, hresult⟩
  · rintro ⟨fields, raw, expected, rfl, haccepts, hexpected, hfield, hraw, hresult⟩
    simp only [validateValue, hfield, requestDigest, bind_ok, require_ok, exists_unit, submitWithoutDigest_ok, pure,
      Except.pure, Except.ok.injEq, Data.dict.injEq]
    exact ⟨_, ⟨_, ⟨fields, rfl, rfl, haccepts⟩, expected, hexpected, rfl⟩, by simp, raw, hraw, hresult⟩

/-- **A request's digest binds its content.** Whatever `_submit_without_digest`
accepts is read back from its canonical bytes, two such requests are equal when
these bytes are, `validate_submit` takes exactly one digest for it, and returns
the request, which validates again as a value and as its canonical bytes. -/
theorem request_identity (fl : FloatText F) (unicode : Unicode) (sha256 : Sha256) (v : Py F) (accepted : Data F)
    (h : submitWithoutDigest fl unicode v.data = .ok accepted) :
    (∃ raw, canonicalBytes fl v.data = .ok raw ∧ strictLoads fl (.bytes raw) maxRequestBytes = .ok v.data) ∧
      (∀ (w : Py F) (accepted' : Data F), submitWithoutDigest fl unicode w.data = .ok accepted' →
        (canonicalBytes fl v.data = canonicalBytes fl w.data ↔ v.data = w.data)) ∧
      ∃ fields expected, v.data = .dict fields ∧
        canonicalBytes fl (.dict (popField digestName fields)) = .ok expected ∧
        (∀ d : Data F, (∃ result, validateSubmit fl unicode sha256 (.value (.dict (setField digestName d fields))) =
          .ok result) ↔ d = .str (points (sha256.hexdigest expected))) ∧
        ∀ d result, validateSubmit fl unicode sha256 (.value (.dict (setField digestName d fields))) = .ok result →
          result = .dict (setField digestName d fields) ∧
            validateSubmit fl unicode sha256 (.value result) = .ok result ∧
            ∃ raw, canonicalBytes fl result = .ok raw ∧
              validateSubmit fl unicode sha256 (.raw (.bytes raw)) = .ok result := by
  obtain ⟨fields, hfields, rfl, haccepts⟩ := submitWithoutDigest_ok.mp h
  have hw : (Data.dict fields).WF := hfields ▸ v.wf
  obtain ⟨raw, hraw, hread, -⟩ := haccepts.readBack hw
  rw [hfields]
  refine ⟨⟨raw, hraw, hread⟩, ?_, ?_⟩
  · intro w accepted' hother
    obtain ⟨fields', hfields', -, haccepts'⟩ := submitWithoutDigest_ok.mp hother
    obtain ⟨raw', hraw', hread', -⟩ := haccepts'.readBack (hfields' ▸ w.wf)
    rw [hfields']
    constructor
    · intro heq
      rw [hraw, hraw', Except.ok.injEq] at heq
      rw [heq, hread', Except.ok.injEq] at hread
      exact hread.symm
    · intro heq
      rw [heq]
  · obtain ⟨expected, hexpected, -⟩ := haccepts.size
    refine ⟨fields, expected, rfl, hexpected, ?_, ?_⟩
    · intro d
      constructor
      · rintro ⟨result, hresult⟩
        have hvalue : validateValue fl unicode sha256 (.dict (setField digestName d fields)) = .ok result := hresult
        obtain ⟨fields', raw', expected', hfields', -, hexpected', hdigest, -⟩ := validateValue_ok.mp hvalue
        cases hfields'
        rw [popField_setField, hexpected, Except.ok.injEq] at hexpected'
        rw [field_setField hw.1, Option.some.injEq] at hdigest
        rw [hdigest, hexpected']
      · rintro rfl
        have hset := haccepts.setDigest hw.1 (sha256.hex expected)
        obtain ⟨raw', hraw', -, hload⟩ := hset.readBack (setField_wf hw trivial)
        refine ⟨_, validateValue_ok.mpr ⟨_, raw', expected, rfl, hset, ?_, field_setField hw.1, hraw', hload⟩⟩
        rw [popField_setField, hexpected]
    · intro d result hresult
      have hvalue : validateValue fl unicode sha256 (.dict (setField digestName d fields)) = .ok result := hresult
      obtain ⟨fields', raw', expected', hfields', hset, hexpected', hdigest, hraw', hload⟩ := validateValue_ok.mp hvalue
      cases hfields'
      have hd : d.WF := by
        rw [field_setField hw.1, Option.some.injEq] at hdigest
        rw [hdigest]
        trivial
      obtain ⟨raw'', hraw'', hread', hload'⟩ := hset.readBack (setField_wf hw hd)
      rw [hraw', Except.ok.injEq] at hraw''
      subst hraw''
      rw [hload, Except.ok.injEq] at hload'
      subst hload'
      refine ⟨rfl, hresult, raw', hraw', ?_⟩
      simp only [validateSubmit, bind_ok]
      exact ⟨_, hread', hvalue⟩

/-- ASCII text is as it stands in every table. -/
def asciiUnicode : Unicode where
  nfc := id
  casefold text := text
  upper text := text.map fun p => pointOf (charOf p).toUpper

/-- A request to inspect the host, without its digest. -/
def inspection : Value Empty :=
  .obj [("expected", .obj [("deployment_epoch", .int 1), ("install_uuid", .str "00000000-0000-0000-0000-000000000000"),
      ("node_id", .str "node"),
      ("policy_digest", .str "0000000000000000000000000000000000000000000000000000000000000000"),
      ("profile_digest", .str "0000000000000000000000000000000000000000000000000000000000000000"),
      ("registry_digest", .str "0000000000000000000000000000000000000000000000000000000000000000")]),
    ("expires_at", .int 9007199254740991), ("inputs", .obj []), ("kind", .str "host.inspect"),
    ("operation_id", .str "00000000-0000-4000-8000-000000000000"), ("profile_ref", .str "profile"),
    ("schema_version", .str "lh-job-v1")]

theorem inspection_wf : inspection.WF := by
  refine ⟨by decide, ⟨by decide, trivial, trivial, trivial, trivial, trivial, trivial, trivial⟩, trivial,
    ⟨by decide, trivial⟩, trivial, trivial, trivial, trivial, trivial⟩

theorem inspection_accepted : (submitWithoutDigest noFloats asciiUnicode inspection.data).isOk = true := by
  decide +kernel

/-- `sha256` at the canonical bytes of that request. -/
def inspectionSha : Sha256 where
  hexdigest _ := "0245f4732bbe1b68188277515bfdeb7620ac9b03ec6fb056d1b2dd095f4323c8"
  hex _ := by decide

/-- The request is accepted with its digest. -/
theorem request_identity_inspection : ∃ fields, inspection.data = .dict fields ∧
    ∃ result, validateSubmit noFloats asciiUnicode inspectionSha
      (.value (.dict (setField digestName (.str (points "0245f4732bbe1b68188277515bfdeb7620ac9b03ec6fb056d1b2dd095f4323c8")) fields))) = .ok result := by
  have haccepted := inspection_accepted
  cases h : submitWithoutDigest noFloats asciiUnicode inspection.data with
  | error fault =>
    rw [h] at haccepted
    cases haccepted
  | ok accepted =>
    obtain ⟨-, -, fields, expected, hfields, -, hdigest, -⟩ :=
      request_identity noFloats asciiUnicode inspectionSha ⟨inspection.data, inspection.wf_data.mpr inspection_wf⟩
        accepted h
    exact ⟨fields, hfields, (hdigest _).mpr rfl⟩

end LocalHand.Request
