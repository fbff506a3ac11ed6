/-
Root slots are used once: over any calls on an empty ledger, two reservations
that share a directory belong to one row, and to one phase of it or to its
preflight and its business phase.

The leases carry the proof. Every stored grant holds the leases of its paths and
inodes, under owners no operation releases; a fresh slot is taken only where no
lease of a path in its way, and none of its inodes, stands.
-/
import LocalHand.BootstrapRoots
import LocalHand.Lib.PrefixRange

namespace LocalHand.BootstrapRoots

/-! ## Paths and keys -/

theorem isBelow_iff {left right : String} :
    isBelow left right = true ↔ ∃ t, left.toList = right.toList ++ '/' :: t := by
  unfold isBelow
  rw [List.isPrefixOf_iff_prefix]
  constructor
  · rintro ⟨t, ht⟩
    exact ⟨t, by rw [← ht]; simp⟩
  · rintro ⟨t, ht⟩
    exact ⟨t, by rw [ht]; simp⟩

theorem overlap_comm (left right : String) : overlap left right = overlap right left := by
  unfold overlap
  rw [Bool.or_assoc, Bool.or_assoc, Bool.or_comm (isBelow left right), decide_eq_decide.mpr eq_comm]

theorem overlap_self (path : String) : overlap path path = true := by simp [overlap]

theorem mem_beforeSlashes {before : List Char} {path part : List Char} :
    part ∈ beforeSlashes before path ↔ ∃ u v, path = u ++ '/' :: v ∧ part = before ++ u := by
  induction path generalizing before with
  | nil => simp [beforeSlashes]
  | cons c rest ih =>
    have hcons : ∀ u v, c :: rest = u ++ '/' :: v ↔
        (u = [] ∧ c = '/' ∧ rest = v) ∨ ∃ u', u = c :: u' ∧ rest = u' ++ '/' :: v := by
      intro u v
      cases u with
      | nil => simp
      | cons d u => constructor <;> simp +contextual [eq_comm]
    have hmem : part ∈ beforeSlashes before (c :: rest) ↔
        (c = '/' ∧ part = before) ∨ part ∈ beforeSlashes (before ++ [c]) rest := by
      rw [show beforeSlashes before (c :: rest) = if c = '/' then
        before :: beforeSlashes (before ++ [c]) rest else beforeSlashes (before ++ [c]) rest from rfl]
      split
      · next h => simp [h]
      · next h => simp [h]
    rw [hmem, ih]
    constructor
    · rintro (⟨rfl, rfl⟩ | ⟨u, v, rfl, rfl⟩)
      · exact ⟨[], rest, rfl, by simp⟩
      · exact ⟨c :: u, v, rfl, by simp⟩
    · rintro ⟨u, v, h, rfl⟩
      rcases (hcons u v).mp h with ⟨rfl, rfl, -⟩ | ⟨u', rfl, h'⟩
      · exact .inl ⟨rfl, by simp⟩
      · exact .inr ⟨u', v, h', by simp⟩

/-- A path that another lies below is among the other's parents. -/
theorem mem_parents {path above : String} (hne : above ≠ "") (h : isBelow path above = true) :
    above ∈ parents path := by
  obtain ⟨t, ht⟩ := isBelow_iff.mp h
  refine List.mem_map.mpr ⟨above.toList, mem_beforeSlashes.mpr ⟨above.toList, t, ht, rfl⟩, ?_⟩
  rw [if_neg (by simpa using hne), String.ofList_toList]

theorem canonical_ne_empty {path : String} (h : isCanonical path = true) : path ≠ "" := by
  rintro rfl
  simp [isCanonical] at h

theorem slash_next : ∀ c : Char, ¬ c < '/' → c < '0' → c = '/' := by
  intro c hlo hhi
  have h1 : ¬ c.toNat < '/'.toNat := hlo
  have h2 : c.toNat < '0'.toNat := hhi
  have h3 : c.toNat = '/'.toNat := by
    have e1 : '/'.toNat = 47 := rfl
    have e2 : '0'.toNat = 48 := rfl
    omega
  exact Char.toNat_inj.mp h3

/-- The range of `_available` holds the keys of the paths below. -/
theorem key_in_range {path below : String} (h : isBelow below path = true) :
    ¬ pathKey below < pathKey path ++ "/" ∧ pathKey below < pathKey path ++ "0" := by
  obtain ⟨t, ht⟩ := isBelow_iff.mp h
  have hkey : (pathKey below).toList = (pathKey path).toList ++ '/' :: t := by
    simp [pathKey, ht]
  rw [String.lt_iff_toList_lt, String.lt_iff_toList_lt]
  simpa using (PrefixRange.range_iff (by decide) slash_next (pathKey path).toList (pathKey below).toList).mpr
    ⟨t, hkey⟩

theorem pathKey_inj {path path' : String} : pathKey path = pathKey path' ↔ path = path' := by
  unfold pathKey
  rw [← String.toList_inj, ← String.toList_inj]
  simp

theorem repr_nonneg {i : Int} (h : 0 ≤ i) : (toString i).toList = Nat.toDigits 10 i.toNat := by
  rw [Int.toString_eq_repr, Int.repr_eq_if, if_pos h, Nat.toList_repr]

theorem digits_inj {i j : Int} (hi : 0 ≤ i) (hj : 0 ≤ j)
    (h : Nat.toDigits 10 i.toNat = Nat.toDigits 10 j.toNat) : i = j := by
  have hread := congrArg (Nat.ofDigitChars 10 · 0) h
  simp only [Nat.ofDigitChars_toDigits (by decide : 1 < 10) (by decide : 10 ≤ 10)] at hread
  omega

theorem colon_notMem_digits (n : Nat) : ':' ∉ Nat.toDigits 10 n := by
  intro h
  have := Nat.isDigit_of_mem_toDigits (by decide) (by decide) h
  exact absurd this (by decide)

theorem toList_pathKey (path : String) :
    (pathKey path).toList = "bootstrap-path:".toList ++ path.toList := by
  rw [pathKey, String.toList_append]

theorem toList_join (a b c d : String) :
    (a ++ b ++ c ++ d).toList = a.toList ++ (b.toList ++ (c.toList ++ d.toList)) := by
  rw [String.toList_append, String.toList_append, String.toList_append, List.append_assoc, List.append_assoc]

theorem toList_inodeKey {i : Identity} (h : 0 ≤ i.device ∧ 0 ≤ i.inode) :
    (inodeKey i).toList = "bootstrap-inode:".toList ++
      (Nat.toDigits 10 i.device.toNat ++ ':' :: Nat.toDigits 10 i.inode.toNat) := by
  have htext := toList_join "bootstrap-inode:" (toString i.device) ":" (toString i.inode)
  rw [repr_nonneg h.1, repr_nonneg h.2] at htext
  exact htext

theorem inodeKey_congr {a b : Identity} (hdev : a.device = b.device) (hino : a.inode = b.inode) :
    inodeKey a = inodeKey b :=
  congrArg₂ (fun d n : Int => "bootstrap-inode:" ++ toString d ++ ":" ++ toString n) hdev hino

theorem inodeKey_inj {a b : Identity} (ha : 0 ≤ a.device ∧ 0 ≤ a.inode) (hb : 0 ≤ b.device ∧ 0 ≤ b.inode)
    (h : inodeKey a = inodeKey b) : a.device = b.device ∧ a.inode = b.inode := by
  have htext := congrArg String.toList h
  rw [toList_inodeKey ha, toList_inodeKey hb] at htext
  obtain ⟨hdev, -, hino⟩ := (List.append_cons_inj_of_notMem (colon_notMem_digits _)
    (colon_notMem_digits _)).mp (List.append_cancel_left htext)
  exact ⟨digits_inj ha.1 hb.1 hdev, digits_inj ha.2 hb.2 hino⟩

/-- The eleventh letters differ. -/
theorem pathKey_ne_inodeKey (path : String) {i : Identity} (h : 0 ≤ i.device ∧ 0 ≤ i.inode) :
    pathKey path ≠ inodeKey i := by
  intro heq
  have htext := congrArg (fun s : String => s.toList[10]?) heq
  simp only [toList_pathKey, toList_inodeKey h] at htext
  rw [List.getElem?_append_left (by decide), List.getElem?_append_left (by decide)] at htext
  exact absurd htext (by decide)

/-! ## Leases under a reservation -/

section

variable {leases leases' : Leases} {resource path : String}

/-- A lease that stands under the owner of a reservation. -/
def Held (leases : Leases) (resource : String) : Prop :=
  ∃ id epoch, leases.holder resource = some ("bootstrap:" ++ id, epoch)

/-- No operation's owner text is a reservation's: its second letter is not hexadecimal. -/
theorem owner_ne (id : String) (owner : Owner) : "bootstrap:" ++ id ≠ owner.1 := by
  intro h
  have huuid := owner.2
  rw [← h, uuidText, String.toList_append] at huuid
  simp [hexRuns, isLowerHex] at huuid

theorem Held.acquire (h : Held leases resource) {aliases : List (String × String)} {owner : String} {epoch : Int}
    {resources : List String} (hac : acquire aliases leases owner epoch resources = .ok leases') :
    Held leases' resource := by
  obtain ⟨id, e, h⟩ := h
  exact ⟨id, e, (acquire_holder hac).1 _ _ h⟩

theorem Held.release (h : Held leases resource) {owner : Owner} {blocked exited checked : Bool}
    (hrel : release leases owner.1 blocked exited checked = .ok leases') : Held leases' resource := by
  obtain ⟨id, e, h⟩ := h
  exact ⟨id, e, release_holder hrel (owner_ne id owner) h⟩

theorem Held.isSome (h : Held leases resource) : (leases.holder resource).isSome = true := by
  obtain ⟨id, e, h⟩ := h
  rw [h]
  rfl

theorem holder_mem (h : (leases.holder resource).isSome = true) : ∃ lease ∈ leases, lease.resource = resource := by
  unfold Leases.holder at h
  rw [Option.isSome_map, List.find?_isSome] at h
  simpa using h

/-- Insertions of new, different resources all go through. -/
theorem consume_ok (owner : String) {resources : List String} (hnodup : resources.Nodup)
    (hfree : ∀ r ∈ resources, leases.holder r = none) :
    ∃ leases', consume owner leases resources = (leases', none) ∧
      ∀ r, leases'.holder r = if r ∈ resources then some (owner, 1) else leases.holder r := by
  induction resources generalizing leases with
  | nil => exact ⟨leases, rfl, fun r => by simp⟩
  | cons first rest ih =>
    rw [List.nodup_cons] at hnodup
    have hfirst : leases.insertNew ⟨first, owner, 1⟩ = .ok (leases ++ [⟨first, owner, 1⟩]) := by
      simp [Leases.insertNew, hfree first]
    have hholder := Leases.holder_insertNew hfirst
    have hfree' : ∀ r ∈ rest, Leases.holder (leases ++ [⟨first, owner, 1⟩]) r = none := by
      intro r hr
      have hne : first ≠ r := fun he => hnodup.1 (he ▸ hr)
      rw [hholder, if_neg hne]
      exact hfree r (by simp [hr])
    obtain ⟨leases', hrest, hleases'⟩ := ih hnodup.2 hfree'
    refine ⟨leases', by rw [consume, hfirst]; exact hrest, fun r => ?_⟩
    rw [hleases', hholder]
    by_cases h : first = r
    · subst h; simp
    · have h' : r ≠ first := fun he => h he.symm
      simp [h, h']

variable {root : Root}

theorem availableRoot_free (h : availableRoot leases root = true) :
    leases.holder (pathKey root.path) = none ∧ leases.holder (inodeKey root.toIdentity) = none := by
  simp only [availableRoot, Bool.and_eq_true, List.all_eq_true] at h
  exact ⟨by simpa using h.1 (pathKey root.path) (by simp),
    by simpa using h.1 (inodeKey root.toIdentity) (by simp)⟩

/-- An available root lies apart from every path that is taken. -/
theorem availableRoot_apart (h : availableRoot leases root = true) (hne : path ≠ "")
    (hheld : Held leases (pathKey path)) : overlap root.path path = false := by
  simp only [availableRoot, Bool.and_eq_true, List.all_eq_true] at h
  obtain ⟨hkeys, hrange⟩ := h
  by_contra hover
  have hfree : ∀ key, (leases.holder key).isNone = true → key ≠ pathKey path := by
    rintro key hnone rfl
    rw [Option.isNone_iff_eq_none] at hnone
    simpa [hnone] using hheld.isSome
  simp only [overlap, Bool.not_eq_false, Bool.or_eq_true, decide_eq_true_eq] at hover
  rcases hover with (rfl | habove) | hbelow
  · exact hfree _ (hkeys _ (by simp)) rfl
  · refine hfree (pathKey path) (hkeys _ ?_) rfl
    simp only [List.cons_append, List.mem_cons, List.mem_append, List.mem_map]
    exact .inr (.inl ⟨path, mem_parents hne habove, rfl⟩)
  · obtain ⟨lease, hmem, hres⟩ := holder_mem hheld.isSome
    obtain ⟨hlo, hhi⟩ := key_in_range hbelow
    rw [← hres] at hlo hhi
    simp only [Bool.not_eq_true', List.any_eq_false, Bool.and_eq_true, decide_eq_false_iff_not,
      decide_eq_true_eq, not_and] at hrange
    exact hrange lease hmem hlo hhi

/-- An available root has none of the inodes that are taken. -/
theorem availableRoot_inode (h : availableRoot leases root = true) {i : Identity}
    (hheld : Held leases (inodeKey i)) : ¬ (root.device = i.device ∧ root.inode = i.inode) := by
  rintro ⟨hdev, hino⟩
  have hnone := (availableRoot_free h).2
  rw [inodeKey_congr hdev hino] at hnone
  simpa [hnone] using hheld.isSome

end

/-! ## Validated grants -/

section

variable {site : Site} {grant : Grant}

theorem validatePaths_ok {paths : List String} (h : validatePaths paths = .ok ()) :
    (∀ path ∈ paths, isCanonical path = true) ∧ paths.Pairwise fun a b => overlap a b = false := by
  induction paths with
  | nil => simp
  | cons path rest ih =>
    simp only [validatePaths, canonicalPath, bind_ok, require_ok, exists_unit, Bool.not_eq_true',
      List.any_eq_false, Bool.not_eq_true] at h
    obtain ⟨hpath, hapart, hrest⟩ := h
    obtain ⟨hcan, hpair⟩ := ih hrest
    exact ⟨List.forall_mem_cons.mpr ⟨hpath, hcan⟩, List.pairwise_cons.mpr ⟨hapart, hpair⟩⟩

def SameInode (a b : Identity) : Prop := a.device = b.device ∧ a.inode = b.inode

theorem SameInode.symm {a b : Identity} (h : SameInode a b) : SameInode b a := ⟨h.1.symm, h.2.symm⟩

theorem validateRoot_ok {root : Root} {uid : Option Int} (h : validateRoot root uid = .ok ()) :
    isCanonical root.path = true ∧ 0 ≤ root.device ∧ 0 ≤ root.inode := by
  simp only [validateRoot, canonicalPath, bind_ok, require_ok, exists_unit, Bool.and_eq_true,
    decide_eq_true_eq] at h
  exact ⟨h.1, by omega, by omega⟩

theorem validateEntries_ok {entries : List (Sigma fun _ : String => Identity)} {inodes : List (Int × Int)}
    (h : validateEntries inodes entries = .ok ()) :
    (∀ e ∈ entries, 0 ≤ e.2.device ∧ 0 ≤ e.2.inode ∧ (e.2.device, e.2.inode) ∉ inodes) ∧
      entries.Pairwise fun a b => ¬ SameInode a.2 b.2 := by
  induction entries generalizing inodes with
  | nil => simp
  | cons e rest ih =>
    simp only [validateEntries, bind_ok, require_ok, exists_unit, Bool.and_eq_true, Bool.not_eq_true',
      List.contains_eq_mem, decide_eq_false_iff_not] at h
    obtain ⟨hroot, ⟨hnew, -⟩, hrest⟩ := h
    obtain ⟨hsized, hpair⟩ := ih hrest
    refine ⟨List.forall_mem_cons.mpr ⟨⟨(validateRoot_ok hroot).2.1, (validateRoot_ok hroot).2.2, hnew⟩,
      fun e' he' => ⟨(hsized e' he').1, (hsized e' he').2.1, fun hin => ?_⟩⟩, List.pairwise_cons.mpr
      ⟨fun e' he' hsame => (hsized e' he').2.2 ?_, hpair⟩⟩
    · exact (hsized e' he').2.2 (List.mem_cons_of_mem _ hin)
    · rw [← hsame.1, ← hsame.2]
      exact List.mem_cons_self

/-- What the later steps use of a validated grant. -/
structure ValidGrant (grant : Grant) : Prop where
  canonical : ∀ path ∈ grant.roots.values, isCanonical path = true
  apart : grant.roots.values.Pairwise fun a b => overlap a b = false
  covered : ∀ path ∈ grant.roots.values, ∃ i, grant.paths.lookup path = some i
  sized : ∀ {path i}, grant.paths.lookup path = some i → 0 ≤ i.device ∧ 0 ≤ i.inode
  inodes : ∀ {path i path' i'}, grant.paths.lookup path = some i → grant.paths.lookup path' = some i' →
    path ≠ path' → ¬ SameInode i i'

theorem validateGrant_ok {e : Expected} (h : validateGrant site grant e = .ok ()) : ValidGrant grant := by
  simp only [validateGrant, bind_ok, require_ok, exists_unit, Bool.and_eq_true, List.all_eq_true,
    List.contains_iff_mem] at h
  obtain ⟨-, -, -, -, hroots, -, ⟨⟨⟨⟨-, -⟩, hcovered⟩, -⟩, -⟩, hentries, -⟩ := h
  obtain ⟨hcan, hapart⟩ := validatePaths_ok hroots
  obtain ⟨hsized, hpair⟩ := validateEntries_ok hentries
  refine ⟨hcan, hapart, fun path hpath => ?_, fun hlook => ?_, fun hlook hlook' hne hsame => ?_⟩
  · have hmem : path ∈ grant.paths := AList.mem_keys.mpr (hcovered path (List.mem_append_left _ hpath))
    exact Option.isSome_iff_exists.mp (AList.lookup_isSome.mpr hmem)
  · have hmem := AList.mem_lookup_iff.mp hlook
    exact ⟨(hsized _ hmem).1, (hsized _ hmem).2.1⟩
  · have hsymm : Std.Symm fun a b : Sigma fun _ : String => Identity => ¬ SameInode a.2 b.2 :=
      ⟨fun a b hab hba => hab hba.symm⟩
    exact hpair.forall (AList.mem_lookup_iff.mp hlook) (AList.mem_lookup_iff.mp hlook')
      (fun he => hne (congrArg Sigma.fst he)) hsame

end

/-! ## One call of `reserve` -/

section

variable {site : Site} {s s' : St} {row : Row} {phase : Phase} {slots : List Slot} {extra : Option Root}

/-- The same three directories. -/
def SameRoots (g g' : Grant) : Prop :=
  g.roots = g'.roots ∧ ∀ path ∈ g.roots.values, g.paths.lookup path = g'.paths.lookup path

/-- Every directory of the grant is still available. -/
def Fresh (leases : Leases) (g : Grant) : Prop :=
  ∀ path ∈ g.roots.values, ∀ i, g.paths.lookup path = some i → availableRoot leases ⟨i, path⟩ = true

theorem ValidGrant.leases_nodup {grant : Grant} (hv : ValidGrant grant) : (leaseResources grant).Nodup := by
  rw [leaseResources, List.nodup_flatMap]
  constructor
  · intro path hpath
    obtain ⟨i, hi⟩ := hv.covered path hpath
    simp [hi, pathKey_ne_inodeKey path (hv.sized hi)]
  · refine hv.apart.imp_of_mem fun {a b} ha hb hab => ?_
    obtain ⟨ia, hia⟩ := hv.covered a ha
    obtain ⟨ib, hib⟩ := hv.covered b hb
    have hne : a ≠ b := by
      rintro rfl
      rw [overlap_self] at hab
      cases hab
    have hpaths : pathKey a ≠ pathKey b := fun h => hne (pathKey_inj.mp h)
    have hinodes : inodeKey ia ≠ inodeKey ib := fun h =>
      hv.inodes hia hib hne (inodeKey_inj (hv.sized hia) (hv.sized hib) h)
    have hcross := pathKey_ne_inodeKey a (hv.sized hib)
    have hcross' := pathKey_ne_inodeKey b (hv.sized hia)
    simp [Function.onFun, hia, hib, hpaths.symm, hinodes.symm, hcross.symm, hcross']

theorem ValidGrant.leases_free {grant : Grant} {leases : Leases} (hf : Fresh leases grant) :
    ∀ r ∈ leaseResources grant, leases.holder r = none := by
  intro r hr
  obtain ⟨path, hpath, hr⟩ := List.mem_flatMap.mp hr
  split at hr
  · next i hi =>
    have hfree := availableRoot_free (hf path hpath i hi)
    simp only [List.mem_cons, List.not_mem_nil, or_false] at hr
    rcases hr with rfl | rfl
    · exact hfree.1
    · exact hfree.2
  · cases hr

theorem slotPaths_lookup {slot : Slot} (h : (slot.roots.map (·.path)).values.Pairwise (· ≠ ·)) :
    ∀ root ∈ slot.roots.values, (slotPaths slot).lookup root.path = some root.toIdentity := by
  simp only [Roots.values, Roots.map, List.pairwise_cons, List.mem_cons, List.not_mem_nil, or_false,
    forall_eq_or_imp, forall_eq] at h
  obtain ⟨⟨hwe, hwt⟩, het, -⟩ := h
  intro root hroot
  simp only [Roots.values, List.mem_cons, List.not_mem_nil, or_false] at hroot
  simp only [slotPaths, Roots.values, List.foldl_cons, List.foldl_nil]
  rcases hroot with rfl | rfl | rfl
  · rw [AList.lookup_insert_ne hwt, AList.lookup_insert_ne hwe, AList.lookup_insert]
  · rw [AList.lookup_insert_ne het, AList.lookup_insert]
  · rw [AList.lookup_insert]

theorem grantPaths_lookup {slot : Slot} {paths : Paths × List String} (hg : grantPaths slot extra = .ok paths)
    (h : (slot.roots.map (·.path)).values.Pairwise (· ≠ ·)) :
    ∀ root ∈ slot.roots.values, paths.1.lookup root.path = some root.toIdentity := by
  intro root hroot
  have hslot := slotPaths_lookup h root hroot
  cases extra with
  | none =>
    simp only [grantPaths, Except.ok.injEq] at hg
    rw [← hg]
    exact hslot
  | some store =>
    simp only [grantPaths, bind_ok, require_ok, exists_unit, pure, Except.pure, Except.ok.injEq,
      Bool.not_eq_true', List.contains_eq_mem, decide_eq_false_iff_not] at hg
    obtain ⟨hnew, rfl⟩ := hg
    have hne : root.path ≠ store.path := by
      intro he
      refine hnew (he ▸ AList.mem_keys.mp ?_)
      exact AList.lookup_isSome.mp (by rw [hslot]; rfl)
    rw [AList.lookup_insert_ne hne]
    exact hslot

/-- What `reserve` has established when it starts to write. -/
structure Planned (s : St) (row : Row) (phase : Phase) (grants : Grants) (grant : Grant) : Prop where
  stored : ∃ record, s.records.lookup (row.ns, row.id) = some record ∧ record.grants = grants
  valid : ValidGrant grant
  source : (∃ prior, inherited grants phase = some prior ∧ SameRoots grant prior) ∨
    (inherited grants phase = none ∧ phase ≠ .business ∧ Fresh s.leases grant)

theorem consumed_ok {grants : Grants} (h : consumed site s row = .ok grants) :
    ∃ record, s.records.lookup (row.ns, row.id) = some record ∧ record.grants = grants := by
  unfold consumed at h
  split at h
  · cases h
  · next record hrecord =>
    simp only [bind_ok, require_ok, exists_unit, pure, Except.pure, Except.ok.injEq] at h
    exact ⟨record, hrecord, h.2.2.2.2⟩

/-- The new grant's directories are those of the slot. -/
theorem inheritSlot_ok {prior : Grant} {slot : Slot} (h : inheritSlot site s row slots prior = .ok slot) :
    prior.roots = slot.roots.map (·.path) ∧
      ∀ root ∈ slot.roots.values, prior.paths.lookup root.path = some root.toIdentity := by
  simp only [inheritSlot, bind_ok, exists_unit] at h
  obtain ⟨-, -, h⟩ := h
  split at h
  · cases h
  · next found hfound =>
    simp only [bind_ok, require_ok, exists_unit, pure, Except.pure, Except.ok.injEq, Roots.zip, Roots.values,
      List.all_cons, List.all_nil, Bool.and_true, Bool.and_eq_true, decide_eq_true_eq] at h
    obtain ⟨⟨⟨hw, hw'⟩, ⟨he, he'⟩, ht, ht'⟩, rfl⟩ := h
    constructor
    · exact Roots.ext hw he ht
    · simp [Roots.values, hw', he', ht']

theorem plan_ok {grants : Grants} {grant : Grant} (h : plan site s row phase slots extra = .ok (grants, grant)) :
    Planned s row phase grants grant := by
  simp only [plan, bind_ok, require_ok, exists_unit, pure, Except.pure, Except.ok.injEq, Prod.mk.injEq] at h
  obtain ⟨-, -, -, -, grants', hconsumed, slot, hselect, paths, hpaths, hvalid, rfl, rfl⟩ := h
  have hv := validateGrant_ok hvalid
  have hdistinct : (slot.roots.map (·.path)).values.Pairwise (· ≠ ·) := hv.apart.imp fun {a b} hab => by
    rintro rfl
    rw [overlap_self] at hab
    cases hab
  have hlookup := grantPaths_lookup hpaths hdistinct
  refine ⟨consumed_ok hconsumed, hv, ?_⟩
  unfold select at hselect
  split at hselect
  · next prior hprior =>
    obtain ⟨hroots, hprior'⟩ := inheritSlot_ok hselect
    refine .inl ⟨prior, hprior, hroots.symm, fun path hpath => ?_⟩
    obtain ⟨root, hroot, rfl⟩ := List.mem_map.mp (Roots.values_map .. ▸ hpath)
    rw [hprior' root hroot]
    exact hlookup root hroot
  · next hnone =>
    split at hselect
    · cases hselect
    · next hphase =>
      split at hselect
      · cases hselect
      · next found hfound =>
        cases hselect
        refine .inr ⟨hnone, hphase, fun path hpath i hi => ?_⟩
        obtain ⟨root, hroot, rfl⟩ := List.mem_map.mp (Roots.values_map .. ▸ hpath)
        have hid : i = root.toIdentity := Option.some.inj (hi.symm.trans (hlookup root hroot))
        have havail := List.find?_some hfound
        rw [hid]
        exact List.all_eq_true.mp havail root hroot

end

/-! ## The ledger a reservation leaves -/

section

variable {site : Site} {s s' : St} {row : Row} {phase : Phase} {slots : List Slot} {extra : Option Root}
  {grant : Grant}

/-- `grant` is the consumed grant of this row and phase. -/
def Stored (s : St) (ns : Namespace) (id : String) (phase : Phase) (grant : Grant) : Prop :=
  ∃ record, s.records.lookup (ns, id) = some record ∧ record.grants.lookup phase = some grant

theorem Stored.unique {ns : Namespace} {id : String} {g g' : Grant} (h : Stored s ns id phase g)
    (h' : Stored s ns id phase g') : g = g' := by
  obtain ⟨record, hrec, hg⟩ := h
  obtain ⟨record', hrec', hg'⟩ := h'
  rw [hrec] at hrec'
  cases hrec'
  rw [hg] at hg'
  exact Option.some.inj hg'

theorem recordGrants_leases (s : St) (row : Row) (grants : Grants) : (recordGrants s row grants).leases = s.leases := by
  unfold recordGrants
  split <;> rfl

/-- A new grant joins the row's; every other row keeps its own. -/
theorem stored_recordGrants {record : Record} (hrec : s.records.lookup (row.ns, row.id) = some record)
    {ns : Namespace} {id : String} {p : Phase} {g : Grant} :
    Stored (recordGrants s row (record.grants.insert phase grant)) ns id p g ↔
      (ns = row.ns ∧ id = row.id ∧ p = phase ∧ g = grant) ∨
      (¬ (ns = row.ns ∧ id = row.id ∧ p = phase) ∧ Stored s ns id p g) := by
  have hlookup : ∀ key, (recordGrants s row (record.grants.insert phase grant)).records.lookup key =
      if key = (row.ns, row.id) then
        some { record with grants := record.grants.insert phase grant, event := some (record.grants.insert phase grant) }
      else s.records.lookup key := by
    intro key
    simp only [recordGrants, hrec]
    split
    · next h => rw [h, AList.lookup_insert]
    · next h => rw [AList.lookup_insert_ne h]
  unfold Stored
  simp only [hlookup]
  by_cases hkey : (ns, id) = (row.ns, row.id)
  · obtain ⟨rfl, rfl⟩ := Prod.mk.inj hkey
    by_cases hp : p = phase
    · subst hp
      simp [AList.lookup_insert, eq_comm]
    · simp [AList.lookup_insert_ne hp, hp, hrec]
  · have hne : ¬ (ns = row.ns ∧ id = row.id) := fun h => hkey (by rw [h.1, h.2])
    rw [if_neg hkey]
    constructor
    · exact fun h => .inr ⟨fun ha => hne ⟨ha.1, ha.2.1⟩, h⟩
    · rintro (⟨rfl, rfl, -⟩ | ⟨-, h⟩)
      · exact absurd ⟨rfl, rfl⟩ hne
      · exact h

/-- Everything a successful call can do: it returns the phase's grant again, or
the first grant of a phase, whose directories are its preflight's or fresh. -/
inductive Outcome (s : St) (row : Row) (phase : Phase) (record : Record) (grant : Grant) (s' : St) : Prop where
  | again (hstored : record.grants.lookup phase = some grant) (hstate : s' = s)
  | inherit (prior : Grant) (hphase : phase = .business) (hnew : record.grants.lookup phase = none)
      (hprior : record.grants.lookup .preflight = some prior) (hsame : SameRoots grant prior)
      (hstate : s' = recordGrants s row (record.grants.insert phase grant))
  | fresh (leases : Leases) (hphase : phase ≠ .business) (hnew : record.grants.lookup phase = none)
      (hfresh : Fresh s.leases grant)
      (hleases : ∀ r, leases.holder r =
        if r ∈ leaseResources grant then some (owner grant, 1) else s.leases.holder r)
      (hstate : s' = recordGrants { s with leases } row (record.grants.insert phase grant))

theorem reserve_ok (h : reserve site s row phase slots extra = (.ok grant, s')) :
    ∃ record, s.records.lookup (row.ns, row.id) = some record ∧ ValidGrant grant ∧
      Outcome s row phase record grant s' := by
  unfold reserve at h
  split at h
  · cases h
  · next grants built hplan =>
    obtain ⟨⟨record, hrec, rfl⟩, hvalid, hsource⟩ := plan_ok hplan
    split at h
    · next prior hprior =>
      split at h
      · cases h
      · next heq =>
        simp only [Prod.mk.injEq, Except.ok.injEq] at h
        obtain ⟨rfl, rfl⟩ := h
        rw [not_not] at heq
        exact ⟨record, hrec, hvalid, .again (heq ▸ hprior) rfl⟩
    · next hnew =>
      split at h
      · next prior hinh =>
        simp only [Prod.mk.injEq, Except.ok.injEq] at h
        obtain ⟨rfl, rfl⟩ := h
        refine ⟨record, hrec, hvalid, ?_⟩
        rcases hsource with ⟨prior', hinh', hsame⟩ | ⟨hnone, -⟩
        · rw [inherited, hnew, Option.none_or] at hinh'
          split at hinh'
          · next hphase => exact .inherit prior' hphase hnew hinh' hsame rfl
          · cases hinh'
        · rw [hnone] at hinh
          cases hinh
      · next hinh =>
        rcases hsource with ⟨prior, hinh', -⟩ | ⟨-, hphase, hfresh⟩
        · rw [hinh] at hinh'
          cases hinh'
        obtain ⟨leases, hconsume, hleases⟩ :=
          consume_ok (owner built) hvalid.leases_nodup (ValidGrant.leases_free hfresh)
        rw [hconsume] at h
        simp only [Prod.mk.injEq, Except.ok.injEq] at h
        obtain ⟨rfl, rfl⟩ := h
        exact ⟨record, hrec, hvalid, .fresh leases hphase hnew hfresh hleases rfl⟩

/-- A call that raises has written nothing: the insertions never stop half way. -/
theorem reserve_error {fault : Fault} (h : reserve site s row phase slots extra = (.error fault, s')) : s' = s := by
  unfold reserve at h
  split at h
  · exact (Prod.mk.inj h).2.symm
  · next grants built hplan =>
    obtain ⟨-, hvalid, hsource⟩ := plan_ok hplan
    split at h
    · split at h
      · exact (Prod.mk.inj h).2.symm
      · cases h
    · split at h
      · cases h
      · next hinh =>
        rcases hsource with ⟨prior, hinh', -⟩ | ⟨-, -, hfresh⟩
        · rw [hinh] at hinh'
          cases hinh'
        obtain ⟨leases, hconsume, -⟩ :=
          consume_ok (owner built) hvalid.leases_nodup (ValidGrant.leases_free hfresh)
        rw [hconsume] at h
        cases h

end

/-! ## Runs -/

/-- Two grants share a directory: an equal or nested path, or one inode. -/
def Share (g g' : Grant) : Prop :=
  ∃ path ∈ g.roots.values, ∃ path' ∈ g'.roots.values, overlap path path' = true ∨
    ∃ i i', g.paths.lookup path = some i ∧ g'.paths.lookup path' = some i' ∧ SameInode i i'

theorem Share.symm {g g' : Grant} (h : Share g g') : Share g' g := by
  obtain ⟨path, hpath, path', hpath', hshare⟩ := h
  refine ⟨path', hpath', path, hpath, ?_⟩
  rcases hshare with hover | ⟨i, i', hi, hi', hsame⟩
  · exact .inl (overlap_comm path path' ▸ hover)
  · exact .inr ⟨i', i, hi', hi, hsame.symm⟩

theorem Share.of_sameRoots {g g' other : Grant} (h : Share g other) (hs : SameRoots g g') : Share g' other := by
  obtain ⟨path, hpath, path', hpath', hshare⟩ := h
  refine ⟨path, hs.1 ▸ hpath, path', hpath', hshare.imp_right ?_⟩
  rintro ⟨i, i', hi, hi', hsame⟩
  exact ⟨i, i', hs.2 path hpath ▸ hi, hi', hsame⟩

/-- Phases that may use one slot. -/
def Kin (p q : Phase) : Prop :=
  p = q ∨ (p = .preflight ∧ q = .business) ∨ (p = .business ∧ q = .preflight)

theorem Kin.symm {p q : Phase} (h : Kin p q) : Kin q p := by
  rcases h with h | ⟨h, h'⟩ | ⟨h, h'⟩
  · exact .inl h.symm
  · exact .inr (.inr ⟨h', h⟩)
  · exact .inr (.inl ⟨h', h⟩)

def SameRow (x y : Reserved) : Prop := x.ns = y.ns ∧ x.id = y.id

theorem SameRow.symm {x y : Reserved} (h : SameRow x y) : SameRow y x := ⟨h.1.symm, h.2.symm⟩

theorem SameRow.trans {x y z : Reserved} (h : SameRow x y) (h' : SameRow y z) : SameRow x z :=
  ⟨h.1.trans h'.1, h.2.trans h'.2⟩

/-- The leases of a grant stand under a reservation. -/
def GrantHeld (leases : Leases) (g : Grant) : Prop :=
  ∀ path ∈ g.roots.values, ∀ i, g.paths.lookup path = some i →
    Held leases (pathKey path) ∧ Held leases (inodeKey i)

theorem GrantHeld.of_sameRoots {leases : Leases} {g g' : Grant} (h : GrantHeld leases g') (hs : SameRoots g g') :
    GrantHeld leases g := by
  intro path hpath i hi
  exact h path (hs.1 ▸ hpath) i (hs.2 path hpath ▸ hi)

/-- Fresh directories are shared with no grant whose leases stand. -/
theorem Fresh.not_share {leases : Leases} {g g' : Grant} (hf : Fresh leases g) (hv : ValidGrant g)
    (hv' : ValidGrant g') (hheld : GrantHeld leases g') : ¬ Share g g' := by
  rintro ⟨path, hpath, path', hpath', hshare⟩
  obtain ⟨i, hi⟩ := hv.covered path hpath
  obtain ⟨i', hi'⟩ := hv'.covered path' hpath'
  obtain ⟨hheldPath, hheldInode⟩ := hheld path' hpath' i' hi'
  rcases hshare with hover | ⟨j, j', hj, hj', hsame⟩
  · have hne := canonical_ne_empty (hv'.canonical path' hpath')
    rw [availableRoot_apart (hf path hpath i hi) hne hheldPath] at hover
    cases hover
  · rw [hi] at hj
    rw [hi'] at hj'
    cases hj
    cases hj'
    exact availableRoot_inode (hf path hpath i hi) hheldInode hsame

/-- What holds after any calls. -/
structure OneUse (h : History) : Prop where
  stored : ∀ x ∈ h.reserved, Stored h.state x.ns x.id x.phase x.grant
  logged : ∀ {ns id phase grant}, Stored h.state ns id phase grant → ⟨ns, id, phase, grant⟩ ∈ h.reserved
  valid : ∀ x ∈ h.reserved, ValidGrant x.grant
  held : ∀ x ∈ h.reserved, GrantHeld h.state.leases x.grant
  apart : ∀ x ∈ h.reserved, ∀ y ∈ h.reserved, Share x.grant y.grant → SameRow x y ∧ Kin x.phase y.phase
  business : ∀ x ∈ h.reserved, x.phase = .business →
    ∃ y ∈ h.reserved, SameRow x y ∧ y.phase = .preflight ∧ SameRoots x.grant y.grant

theorem not_stored_start {ns : Namespace} {id : String} {phase : Phase} {grant : Grant} :
    ¬ Stored History.start.state ns id phase grant := by
  rintro ⟨record, hrec, -⟩
  simp [History.start, AList.lookup_empty] at hrec

theorem OneUse.start : OneUse History.start where
  stored _ hx := absurd hx List.not_mem_nil
  logged hs := absurd hs not_stored_start
  valid _ hx := absurd hx List.not_mem_nil
  held _ hx := absurd hx List.not_mem_nil
  apart _ hx := absurd hx List.not_mem_nil
  business _ hx := absurd hx List.not_mem_nil

/-- Calls that reserve nothing keep it, as long as the grants and their leases stand. -/
theorem OneUse.of_leases {h : History} (ho : OneUse h) {s : St}
    (hstored : ∀ {ns id phase grant}, Stored s ns id phase grant ↔ Stored h.state ns id phase grant)
    (hheld : ∀ {resource}, Held h.state.leases resource → Held s.leases resource) :
    OneUse { h with state := s } where
  stored x hx := hstored.mpr (ho.stored x hx)
  logged hs := ho.logged (hstored.mp hs)
  valid := ho.valid
  held x hx path hpath i hi := (ho.held x hx path hpath i hi).imp hheld hheld
  apart := ho.apart
  business := ho.business

/-- A first grant of a phase keeps it, if it is apart from what is not its kin. -/
theorem OneUse.extend {h : History} (ho : OneUse h) {s : St} {n : Reserved}
    (hstored : ∀ {ns id phase grant}, Stored s ns id phase grant ↔
      (ns = n.ns ∧ id = n.id ∧ phase = n.phase ∧ grant = n.grant) ∨
        (¬ (ns = n.ns ∧ id = n.id ∧ phase = n.phase) ∧ Stored h.state ns id phase grant))
    (hnew : ∀ grant, ¬ Stored h.state n.ns n.id n.phase grant)
    (hheld : ∀ {resource}, Held h.state.leases resource → Held s.leases resource)
    (hvalid : ValidGrant n.grant) (hown : GrantHeld s.leases n.grant)
    (hapart : ∀ x ∈ h.reserved, Share n.grant x.grant → SameRow n x ∧ Kin n.phase x.phase)
    (hbusiness : n.phase = .business →
      ∃ y ∈ h.reserved, SameRow n y ∧ y.phase = .preflight ∧ SameRoots n.grant y.grant) :
    OneUse ⟨s, h.reserved ++ [n]⟩ where
  stored := by
    refine List.forall_mem_append.mpr ⟨fun x hx => hstored.mpr (.inr ⟨fun heq => ?_, ho.stored x hx⟩), ?_⟩
    · refine hnew x.grant ?_
      rw [← heq.1, ← heq.2.1, ← heq.2.2]
      exact ho.stored x hx
    · intro x hx
      rw [List.mem_singleton.mp hx]
      exact hstored.mpr (.inl ⟨rfl, rfl, rfl, rfl⟩)
  logged hs := by
    rcases hstored.mp hs with ⟨rfl, rfl, rfl, rfl⟩ | ⟨-, hs⟩
    · exact List.mem_append_right _ (List.mem_singleton.mpr rfl)
    · exact List.mem_append_left _ (ho.logged hs)
  valid := List.forall_mem_append.mpr ⟨ho.valid, fun x hx => List.mem_singleton.mp hx ▸ hvalid⟩
  held := List.forall_mem_append.mpr
    ⟨fun x hx path hpath i hi => (ho.held x hx path hpath i hi).imp hheld hheld,
      fun x hx => List.mem_singleton.mp hx ▸ hown⟩
  apart := by
    intro x hx y hy hshare
    rcases List.mem_append.mp hx with hx | hx <;> rcases List.mem_append.mp hy with hy | hy
    · exact ho.apart x hx y hy hshare
    · rw [List.mem_singleton.mp hy] at hshare ⊢
      obtain ⟨hrow, hkin⟩ := hapart x hx hshare.symm
      exact ⟨hrow.symm, hkin.symm⟩
    · rw [List.mem_singleton.mp hx] at hshare ⊢
      exact hapart y hy hshare
    · rw [List.mem_singleton.mp hx, List.mem_singleton.mp hy]
      exact ⟨⟨rfl, rfl⟩, .inl rfl⟩
  business := by
    refine List.forall_mem_append.mpr ⟨fun x hx hphase => ?_, fun x hx hphase => ?_⟩
    · obtain ⟨y, hy, hrest⟩ := ho.business x hx hphase
      exact ⟨y, List.mem_append_left _ hy, hrest⟩
    · rw [List.mem_singleton.mp hx] at hphase ⊢
      obtain ⟨y, hy, hrest⟩ := hbusiness hphase
      exact ⟨y, List.mem_append_left _ hy, hrest⟩

/-- Returning a phase's grant again adds nothing. -/
theorem OneUse.again {h : History} (ho : OneUse h) {n : Reserved} (hn : n ∈ h.reserved) :
    OneUse { h with reserved := h.reserved ++ [n] } := by
  have hmem : ∀ {x}, x ∈ h.reserved ++ [n] ↔ x ∈ h.reserved := fun {x} => by
    rw [List.mem_append, List.mem_singleton]
    exact ⟨fun hx => hx.elim id (· ▸ hn), .inl⟩
  exact
    { stored := fun x hx => ho.stored x (hmem.mp hx)
      logged := fun hs => hmem.mpr (ho.logged hs)
      valid := fun x hx => ho.valid x (hmem.mp hx)
      held := fun x hx => ho.held x (hmem.mp hx)
      apart := fun x hx y hy => ho.apart x (hmem.mp hx) y (hmem.mp hy)
      business := fun x hx hphase => by
        obtain ⟨y, hy, hrest⟩ := ho.business x (hmem.mp hx) hphase
        exact ⟨y, hmem.mpr hy, hrest⟩ }

theorem stored_insertRow {s : St} {ns ns' : Namespace} {id id' parent digest : String} {phase : Phase} {grant : Grant} :
    Stored (insertRow s ns id parent digest) ns' id' phase grant ↔ Stored s ns' id' phase grant := by
  unfold insertRow
  split
  · rfl
  · next hnew =>
    have hnone : s.records.lookup (ns, id) = none := Option.not_isSome_iff_eq_none.mp hnew
    unfold Stored
    by_cases hkey : (ns', id') = (ns, id)
    · rw [hkey, hnone]
      simp [AList.lookup_insert, AList.lookup_empty]
    · simp only [AList.lookup_insert_ne hkey]

section

variable {site : Site} {h : History} {row : Row} {phase : Phase} {record : Record} {grant : Grant} {s' : St}

/-- A business grant shares only what its preflight grant shares. -/
theorem OneUse.inherit (ho : OneUse h) (hrec : h.state.records.lookup (row.ns, row.id) = some record)
    (hvalid : ValidGrant grant) {prior : Grant} (hphase : phase = .business)
    (hnew : record.grants.lookup phase = none) (hprior : record.grants.lookup .preflight = some prior)
    (hsame : SameRoots grant prior) :
    OneUse ⟨recordGrants h.state row (record.grants.insert phase grant),
      h.reserved ++ [⟨row.ns, row.id, phase, grant⟩]⟩ := by
  have hy : ⟨row.ns, row.id, .preflight, prior⟩ ∈ h.reserved := ho.logged ⟨record, hrec, hprior⟩
  have hleases := recordGrants_leases h.state row (record.grants.insert phase grant)
  refine ho.extend (stored_recordGrants hrec) ?_ (fun hh => hleases ▸ hh) hvalid ?_ ?_ ?_
  · rintro g ⟨record', hrec', hg⟩
    rw [hrec] at hrec'
    cases hrec'
    rw [hnew] at hg
    cases hg
  · rw [hleases]
    exact (ho.held _ hy).of_sameRoots hsame
  · intro x hx hshare
    obtain ⟨hrow, hkin⟩ := ho.apart _ hy x hx (hshare.of_sameRoots hsame)
    refine ⟨hrow, ?_⟩
    rcases hkin with heq | ⟨-, heq⟩ | ⟨heq, -⟩
    · exact .inr (.inr ⟨hphase, heq.symm⟩)
    · exact .inl (hphase.trans heq.symm)
    · cases heq
  · exact fun _ => ⟨_, hy, ⟨rfl, rfl⟩, rfl, hsame⟩

/-- A fresh grant shares nothing. -/
theorem OneUse.fresh (ho : OneUse h) (hrec : h.state.records.lookup (row.ns, row.id) = some record)
    (hvalid : ValidGrant grant) {leases : Leases} (hphase : phase ≠ .business)
    (hnew : record.grants.lookup phase = none) (hfresh : Fresh h.state.leases grant)
    (hleases : ∀ r, leases.holder r =
      if r ∈ leaseResources grant then some (owner grant, 1) else h.state.leases.holder r) :
    OneUse ⟨recordGrants { h.state with leases } row (record.grants.insert phase grant),
      h.reserved ++ [⟨row.ns, row.id, phase, grant⟩]⟩ := by
  have hafter := recordGrants_leases { h.state with leases } row (record.grants.insert phase grant)
  have hown : ∀ {r}, r ∈ leaseResources grant → Held leases r := fun {r} hr =>
    ⟨grant.allocationId, 1, by rw [hleases, if_pos hr, owner]⟩
  refine ho.extend (s := recordGrants { h.state with leases } row (record.grants.insert phase grant))
    (stored_recordGrants (s := { h.state with leases }) hrec) ?_ (fun {r} hh => ?_) hvalid ?_ ?_
    (fun hb => absurd hb hphase)
  · rintro g ⟨record', hrec', hg⟩
    rw [hrec] at hrec'
    cases hrec'
    rw [hnew] at hg
    cases hg
  · rw [hafter]
    by_cases hr : r ∈ leaseResources grant
    · exact hown hr
    · obtain ⟨id, e, hh⟩ := hh
      exact ⟨id, e, by rw [hleases, if_neg hr, hh]⟩
  · rw [hafter]
    intro path hpath i hi
    have hmem : ∀ r, r = pathKey path ∨ r = inodeKey i → r ∈ leaseResources grant := fun r hr =>
      List.mem_flatMap.mpr ⟨path, hpath, by rw [hi]; simpa using hr⟩
    exact ⟨hown (hmem _ (.inl rfl)), hown (hmem _ (.inr rfl))⟩
  · intro x hx hshare
    exact absurd hshare (hfresh.not_share hvalid (ho.valid x hx) (ho.held x hx))

theorem OneUse.step (ho : OneUse h) (c : Call) : OneUse (call site h c) := by
  cases c with
  | insertRow ns id parent digest =>
    refine ho.of_leases stored_insertRow fun {r} hh => ?_
    unfold insertRow
    split <;> exact hh
  | reserve row phase slots extra =>
    simp only [call]
    split
    · next grant s' hres =>
      obtain ⟨record, hrec, hvalid, hout⟩ := reserve_ok hres
      cases hout with
      | again hstored hstate =>
        subst hstate
        exact ho.again (ho.logged ⟨record, hrec, hstored⟩)
      | inherit prior hphase hnew hprior hsame hstate =>
        subst hstate
        exact ho.inherit hrec hvalid hphase hnew hprior hsame
      | fresh leases hphase hnew hfresh hleases hstate =>
        subst hstate
        exact ho.fresh hrec hvalid hphase hnew hfresh hleases
    · next fault s' hres =>
      rw [reserve_error hres]
      exact ho
  | acquire aliases owner epoch resources =>
    simp only [call]
    split
    · next leases hac => exact ho.of_leases Iff.rfl fun hh => hh.acquire hac
    · exact ho
  | release owner blocked exited checked =>
    simp only [call]
    split
    · next leases hrel => exact ho.of_leases Iff.rfl fun hh => hh.release hrel
    · exact ho

end

theorem OneUse.run {site : Site} {h : History} (ho : OneUse h) (calls : List Call) :
    OneUse (calls.foldl (call site) h) := by
  induction calls generalizing h with
  | nil => exact ho
  | cons c calls ih => exact ih (ho.step c)

/-- **Slots are one-use.** After any calls on an empty ledger, two successful
reservations that share a directory are of one row, and either of one phase,
with one grant, or of its preflight and its business phase; a business grant
has exactly the directories of its row's preflight grant; and a call of
`reserve` that raises leaves the ledger as it was. -/
theorem slots_one_use (site : Site) (calls : List Call) :
    let h := calls.foldl (call site) History.start
    (∀ x ∈ h.reserved, ∀ y ∈ h.reserved, Share x.grant y.grant →
      SameRow x y ∧ ((x.phase = y.phase ∧ x.grant = y.grant) ∨
        (x.phase = .preflight ∧ y.phase = .business) ∨ (x.phase = .business ∧ y.phase = .preflight))) ∧
    (∀ x ∈ h.reserved, x.phase = .business →
      (∃ y ∈ h.reserved, SameRow x y ∧ y.phase = .preflight) ∧
      ∀ y ∈ h.reserved, SameRow x y → y.phase = .preflight → SameRoots x.grant y.grant) ∧
    ∀ row phase slots extra fault s',
      reserve site h.state row phase slots extra = (.error fault, s') → s' = h.state := by
  intro h
  have ho : OneUse h := OneUse.start.run calls
  have hsame : ∀ x ∈ h.reserved, ∀ y ∈ h.reserved, SameRow x y → x.phase = y.phase → x.grant = y.grant := by
    intro x hx y hy hrow hphase
    have hx' := ho.stored x hx
    rw [hrow.1, hrow.2, hphase] at hx'
    exact hx'.unique (ho.stored y hy)
  refine ⟨fun x hx y hy hshare => ?_, fun x hx hphase => ?_, fun _ _ _ _ _ _ => reserve_error⟩
  · obtain ⟨hrow, hkin⟩ := ho.apart x hx y hy hshare
    exact ⟨hrow, hkin.imp_left fun hphase => ⟨hphase, hsame x hx y hy hrow hphase⟩⟩
  · obtain ⟨y, hy, hrow, hpre, hroots⟩ := ho.business x hx hphase
    refine ⟨⟨y, hy, hrow, hpre⟩, fun z hz hrow' hpre' => ?_⟩
    rw [hsame z hz y hy (hrow'.symm.trans hrow) (hpre'.trans hpre.symm)]
    exact hroots

/-! ## A run of three jobs over two slots -/

section Sample

def sampleSite : Site := ⟨fun _ record slot _ _ => record ++ "/" ++ slot, (·.executionId), fun _ => true⟩

def sampleSlot (name : String) (inode : Int) : Slot :=
  let root := fun (part : String) (i : Int) => (⟨⟨1, i, 1000⟩, "/srv/" ++ name ++ "/" ++ part⟩ : Root)
  ⟨name, ⟨root "work" inode, root "evidence" (inode + 1), root "temporary" (inode + 2)⟩⟩

def sampleJob (id : String) : List Call :=
  let row : Row := ⟨.job, id, id, "digest", ⟨"/profile/work", "/profile/evidence", "/profile/temporary"⟩⟩
  [.insertRow .job id id "digest",
    .reserve row .preflight [sampleSlot "first" 10, sampleSlot "second" 20] none]

example : (((sampleJob "a" ++ sampleJob "b" ++ sampleJob "c").foldl (call sampleSite) History.start).reserved.map
    fun x => (x.id, x.grant.slotId)) = [("a", "first"), ("b", "second")] := by
  decide +kernel

end Sample

end LocalHand.BootstrapRoots
