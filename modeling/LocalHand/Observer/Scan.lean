/-
What a scan of the control directory establishes: every intent file is whole,
and the intents of different requests are apart. An intent file cut short
anywhere makes the scan fail, for a newline ends it and stands nowhere else.
-/
import LocalHand.Observer.Journal
import Mathlib.Data.List.Pairwise

namespace LocalHand.Observer

open PyJson ResultReader
open Framing (Bytes)

variable {sha256 : Sha256}

/-! ## Printed intents -/

theorem encode_eq (v : Json) : encode v = encodeText (dump noFloats true v) ++ [10] := by
  rw [encode, encodeText, encodeText, List.flatMap_append]
  rfl

/-- A start of a printed value that ends in a newline is all of it. -/
theorem eq_encode {p : Bytes} {v : Json} (hp : p <+: encode v) (hlast : p.getLast? = some 10) : p = encode v := by
  rw [encode_eq] at hp ⊢
  rcases List.prefix_concat_iff.mp hp with h | h
  · exact h
  · exfalso
    have hmem : 10 ∈ encodeText (dump noFloats true v) := h.subset (List.mem_of_getLast? hlast)
    obtain ⟨c, hc, hbyte⟩ := List.mem_flatMap.mp hmem
    have hten : c.toNat = 10 := utf8_low (show UInt8.toNat 10 < 128 by decide) hbyte
    exact dump_control noFloats true (show c.toNat < 32 by omega) nofun v hc

theorem integer_ok {v : Json} {low high i : Int} (h : integer v low high = .ok i) :
    v = .int i ∧ low ≤ i ∧ i ≤ high := by
  unfold integer at h
  split at h
  · split at h
    · next hb =>
      cases h
      exact ⟨rfl, hb⟩
    · cases h
  · cases h

theorem token_ok {v : Json} {pattern : String → Bool} {s : String} (h : token v pattern = .ok s) :
    v = .str s ∧ pattern s = true := by
  unfold token at h
  split at h
  · split at h
    · next hp =>
      cases h
      exact ⟨rfl, hp⟩
    · cases h
  · cases h

theorem short_int {i : Int} (hlow : 0 ≤ i) (hhigh : i ≤ uint64Max) : (natText i.natAbs).length ≤ maxStrDigits := by
  have hlt : (natText i.natAbs).length ≤ 20 := by
    rw [natText_length (by decide)]
    have : uint64Max = 18446744073709551615 := rfl
    omega
  exact hlt.trans (by decide)

/-- An accepted binding's dict has the binding's request, and prints. -/
structure Intent (b : Binding) (v : Json) : Prop where
  value : v = b.value
  request : hexText 32 b.requestId = true
  ints : v.intsOk = true

theorem bindingValue_ok {b : Binding} {v : Json} (h : bindingValue sha256 b = .ok v) : Intent b v := by
  simp only [bindingValue, validateIntent, bind_ok, require_ok, exists_unit, pure, Except.pure, Except.ok.injEq] at h
  obtain ⟨checked, hbind, -, ⟨-, -, -, -, -, -, -, -, -, -, -, -, device, hdevice, inode, hinode, project, hproject,
    xflags, hxflags, -, hard, hhard, -, -, -, -, issued, hissued, deadline, hdeadline, -⟩, rfl⟩ := h
  simp only [bindQuery, bind_ok, require_ok, exists_unit] at hbind
  obtain ⟨slot, -, request, hrequest, -⟩ := hbind
  have hrequest := token_ok hrequest
  refine ⟨rfl, ?_, ?_⟩
  · obtain ⟨heq, hhex⟩ := hrequest
    cases heq
    exact hhex
  · have short : ∀ {field : Int} {low high i : Int}, integer (.int field) low high = .ok i → 0 ≤ low → high ≤ uint64Max →
        (natText field.natAbs).length ≤ maxStrDigits := by
      intro field low high i h hlow hhigh
      obtain ⟨hfield, hl, hh⟩ := integer_ok h
      cases hfield
      exact short_int (by omega) (by omega)
    have h0 := (integer_ok hissued).2.1
    simp only [Binding.value, Value.intsOk, fieldsIntsOk, Bool.true_and, Bool.and_true, Bool.and_eq_true, decide_eq_true_eq]
    exact ⟨short hdeadline (by omega) (by decide), short hhard (by decide) (by decide), short hissued (by decide) (by decide),
      short hproject (by decide) (by decide), short hdevice (by decide) (by decide), short hinode (by decide) (by decide),
      short hxflags (by decide) (by decide)⟩

theorem Intent.wf {b : Binding} {v : Json} (h : Intent b v) : v.WF := by
  rw [h.value]
  simp only [Binding.value, Value.WF, fieldsWF, and_true]
  refine (List.pairwise_map (f := Prod.fst) (R := (· < ·))).mp ?_
  simp only [List.map_cons, List.map_nil]
  decide +kernel

/-- An intent file holds its intent, if it can be read. -/
theorem Intent.readFile {b : Binding} {v w : Json} {file : File} (h : Intent b v) (hbytes : file.bytes <+: encode v)
    (hread : readFile file = .ok w) : file.bytes = encode v ∧ w = v := by
  simp only [Observer.readFile, strictJson, bind_ok, require_ok, exists_unit, pure, Except.pure, Except.ok.injEq,
    decide_eq_true_eq] at hread
  obtain ⟨-, hlast, w', ⟨-, hparse⟩, -, rfl⟩ := hread
  have heq := eq_encode hbytes hlast
  refine ⟨heq, ?_⟩
  have hloads : loads noFloats (dump noFloats true v ++ ['\n']) = some v := by
    have hv := h.wf
    have hi := h.ints
    rw [h.value] at hv hi ⊢
    exact loads_dumps_newline noFloats true hv hi
  rw [heq, encode, decode_encode, Option.bind_some, hloads] at hparse
  simp only [bind_ok, exists_unit, Except.ok.injEq] at hparse
  exact hparse.2.2.symm

/-! ## File names -/

theorem hexText_length {n : Nat} {s : String} (h : hexText n s = true) : s.toList.length = n ∧ s.toList.all isLowerHex = true := by
  simpa [hexText] using h

theorem recordName_fileName {id : String} (kind : Kind) (h : hexText 32 id = true) :
    recordName (fileName id kind) = some (id, kind) := by
  obtain ⟨hlen, hhex⟩ := hexText_length h
  have htake : (fileName id kind).toList.take 32 = id.toList := by
    rw [fileName, String.toList_ofList, ← hlen, List.take_left]
  have hdrop : (fileName id kind).toList.drop 32 = kind.suffix := by
    rw [fileName, String.toList_ofList, ← hlen, List.drop_left]
  have hfind : ([Kind.intent, .invocation, .unknown].find? fun k => kind.suffix = k.suffix) = some kind := by
    cases kind <;> decide
  simp only [recordName, htake, hdrop, hlen, hhex, hfind, decide_true, Bool.and_self, if_true, Option.map_some,
    String.ofList_toList]

theorem fileName_of_recordName {name id : String} {kind : Kind} (h : recordName name = some (id, kind)) :
    name = fileName id kind := by
  simp only [recordName, Option.ite_none_right_eq_some, Option.map_eq_some_iff, Prod.mk.injEq] at h
  obtain ⟨-, kind', hfind, hid, rfl⟩ := h
  have hdrop : name.toList.drop 32 = kind'.suffix := by simpa using List.find?_some hfind
  rw [fileName, ← hid, ← hdrop, String.toList_ofList, List.take_append_drop, String.ofList_toList]

/-! ## Groups -/

/-- The file of a request the groups hold. -/
def got (grouped : Groups) (id : String) (kind : Kind) : Option Json := (grouped.lookup id).bind (·.get kind)

theorem get_set (files : Files) (value : Json) (kind kind' : Kind) :
    (files.set value kind).get kind' = if kind' = kind then some value else files.get kind' := by
  cases kind <;> cases kind' <;> rfl

theorem got_put (grouped : Groups) (id id' : String) (kind kind' : Kind) (value : Json) :
    got (put id kind value grouped) id' kind' =
      if id' = id ∧ kind' = kind then some value else got grouped id' kind' := by
  induction grouped with
  | nil =>
    by_cases hid : id' = id
    · subst hid
      simp only [got, put, List.lookup_cons, beq_self_eq_true, Option.bind_some, get_set, true_and,
        List.lookup_nil, Option.bind_none]
      cases kind' <;> rfl
    · simp [got, put, List.lookup_cons, beq_eq_false_iff_ne.mpr hid, hid]
  | cons g rest ih =>
    obtain ⟨j, files⟩ := g
    by_cases hj : j = id
    · subst hj
      by_cases hid : id' = j
      · subst hid
        simp [got, put, get_set]
      · simp [got, put, List.lookup_cons, beq_eq_false_iff_ne.mpr hid, hid]
    · by_cases hid : id' = j
      · subst hid
        simp [got, put, hj]
      · simpa [got, put, hj, List.lookup_cons, beq_eq_false_iff_ne.mpr hid] using ih

theorem keys_put (grouped : Groups) (id : String) (kind : Kind) (value : Json) :
    ∀ j, j ∈ (put id kind value grouped).map (·.1) ↔ j = id ∨ j ∈ grouped.map (·.1) := by
  intro j
  induction grouped with
  | nil => simp [put]
  | cons g rest ih =>
    obtain ⟨k, files⟩ := g
    by_cases hk : k = id
    · simp [put, hk]
    · simp only [put, hk, if_false, List.map_cons, List.mem_cons, ih]
      tauto

theorem nodup_put {grouped : Groups} (h : (grouped.map (·.1)).Nodup) (id : String) (kind : Kind) (value : Json) :
    ((put id kind value grouped).map (·.1)).Nodup := by
  induction grouped with
  | nil => simp [put]
  | cons g rest ih =>
    obtain ⟨k, files⟩ := g
    obtain ⟨hk, hrest⟩ := List.nodup_cons.mp h
    by_cases hid : k = id
    · simpa [put, hid] using h
    · simp only [put, hid, if_false, List.map_cons, List.nodup_cons]
      refine ⟨fun hmem => ?_, ih hrest⟩
      rcases (keys_put rest id kind value k).mp hmem with heq | hmem
      · exact hid heq
      · exact hk hmem

theorem lookup_of_mem {grouped : Groups} (h : (grouped.map (·.1)).Nodup) {id : String} {files : Files}
    (hmem : (id, files) ∈ grouped) : grouped.lookup id = some files := by
  induction grouped with
  | nil => cases hmem
  | cons g rest ih =>
    obtain ⟨hk, hrest⟩ := List.nodup_cons.mp h
    rcases List.mem_cons.mp hmem with rfl | hmem
    · simp
    · have hne : id ≠ g.1 := by
        rintro rfl
        exact hk (List.mem_map.mpr ⟨_, hmem, rfl⟩)
      rw [show g :: rest = (g.1, g.2) :: rest from rfl, List.lookup_cons, beq_eq_false_iff_ne.mpr hne]
      exact ih hrest hmem

theorem mem_of_lookup {grouped : Groups} {id : String} {files : Files} (h : grouped.lookup id = some files) :
    (id, files) ∈ grouped := by
  obtain ⟨before, after, heq, -⟩ := List.lookup_eq_some_iff.mp h
  simp [heq]

/-! ## The entries read -/

section Collect

variable {dir : Dir} {grouped grouped' : Groups} {count : Nat}

theorem collect_cons {name : String} {file : File} (h : collect count ((name, file) :: dir) grouped = .ok grouped') :
    ∃ id kind value, recordName name = some (id, kind) ∧ readFile file = .ok value ∧
      collect (count + 1) dir (put id kind value grouped) = .ok grouped' := by
  simp only [collect, bind_ok, require_ok, exists_unit] at h
  obtain ⟨-, h⟩ := h
  split at h
  · cases h
  · next id kind hname =>
    simp only [bind_ok] at h
    obtain ⟨value, hread, hrest⟩ := h
    exact ⟨id, kind, value, hname, hread, hrest⟩

theorem collect_nodup (h : collect count dir grouped = .ok grouped') (hkeys : (grouped.map (·.1)).Nodup) :
    (grouped'.map (·.1)).Nodup := by
  induction dir generalizing count grouped with
  | nil =>
    cases h
    exact hkeys
  | cons entry dir ih =>
    obtain ⟨id, kind, value, -, -, hrest⟩ := collect_cons h
    exact ih hrest (nodup_put hkeys id kind value)

/-- A request's file that no entry names stays as it was. -/
theorem collect_keep (h : collect count dir grouped = .ok grouped') {id : String} {kind : Kind}
    (hother : ∀ entry ∈ dir, recordName entry.1 ≠ some (id, kind)) : got grouped' id kind = got grouped id kind := by
  induction dir generalizing count grouped with
  | nil =>
    cases h
    rfl
  | cons entry dir ih =>
    obtain ⟨id', kind', value, hname, -, hrest⟩ := collect_cons h
    obtain ⟨hhead, htail⟩ := List.forall_mem_cons.mp hother
    rw [ih hrest htail, got_put, if_neg]
    rintro ⟨rfl, rfl⟩
    exact hhead hname

theorem collect_sound (h : collect count dir grouped = .ok grouped') {id : String} {kind : Kind} {value : Json}
    (hgot : got grouped' id kind = some value) :
    (∃ name file, (name, file) ∈ dir ∧ recordName name = some (id, kind) ∧ readFile file = .ok value) ∨
      got grouped id kind = some value := by
  induction dir generalizing count grouped with
  | nil =>
    cases h
    exact .inr hgot
  | cons entry dir ih =>
    obtain ⟨id', kind', value', hname, hread, hrest⟩ := collect_cons h
    rcases ih hrest with ⟨name, file, hmem, hrecord⟩ | hput
    · exact .inl ⟨name, file, List.mem_cons_of_mem _ hmem, hrecord⟩
    · rw [got_put] at hput
      split at hput
      · next heq =>
        obtain ⟨rfl, rfl⟩ := heq
        cases hput
        exact .inl ⟨entry.1, entry.2, List.mem_cons_self, hname, hread⟩
      · exact .inr hput

theorem collect_complete (h : collect count dir grouped = .ok grouped') (hnames : (dir.map (·.1)).Nodup)
    {name id : String} {kind : Kind} {file : File} (hmem : (name, file) ∈ dir) (hrecord : recordName name = some (id, kind)) :
    ∃ value, readFile file = .ok value ∧ got grouped' id kind = some value := by
  induction dir generalizing count grouped with
  | nil => cases hmem
  | cons entry dir ih =>
    obtain ⟨id', kind', value, hname, hread, hrest⟩ := collect_cons h
    obtain ⟨hhead, htail⟩ := List.nodup_cons.mp hnames
    rcases List.mem_cons.mp hmem with rfl | hmem
    · rw [hname, Option.some.injEq, Prod.mk.injEq] at hrecord
      obtain ⟨rfl, rfl⟩ := hrecord
      refine ⟨value, hread, ?_⟩
      rw [collect_keep hrest, got_put, if_pos ⟨rfl, rfl⟩]
      intro other hother hsame
      refine hhead (List.mem_map.mpr ⟨other, hother, ?_⟩)
      exact (fileName_of_recordName hsame).trans (fileName_of_recordName hname).symm
    · exact ih hrest htail hmem

end Collect

/-! ## What is apart -/

/-- Two intents share no request, allocation, slot, root or domain. -/
structure Apart (v w : Json) : Prop where
  request : item v "request_id" ≠ item w "request_id"
  allocation : item v "allocation_digest" ≠ item w "allocation_digest"
  slot : item v "slot_ref" ≠ item w "slot_ref"
  root : (item v "root_device", item v "root_inode") ≠ (item w "root_device", item w "root_inode")
  domain : (item v "filesystem_uuid", item v "project_id") ≠ (item w "filesystem_uuid", item w "project_id")

theorem Apart.symm {v w : Json} (h : Apart v w) : Apart w v :=
  ⟨h.request.symm, h.allocation.symm, h.slot.symm, h.root.symm, h.domain.symm⟩

theorem apart_of_resources {v w : Json} (hrequest : item v "request_id" ≠ item w "request_id")
    (hallocation : item v "allocation_digest" ≠ item w "allocation_digest") (h : ∀ r ∈ resources v, r ∉ resources w) :
    Apart v w := by
  simp only [resources, List.mem_cons, List.not_mem_nil, or_false, not_or, forall_eq_or_imp, forall_eq,
    Resource.slot.injEq, Resource.root.injEq, Resource.domain.injEq, reduceCtorEq, not_false_eq_true, and_true,
    true_and] at h
  obtain ⟨hslot, hroot, hdomain⟩ := h
  refine ⟨hrequest, hallocation, hslot, ?_, ?_⟩
  · rwa [ne_eq, Prod.mk.injEq]
  · rwa [ne_eq, Prod.mk.injEq]

/-- The intents of two groups are apart. -/
def GroupsApart (g g' : String × Files) : Prop :=
  ∀ v w, g.2.intent = some v → g'.2.intent = some w → Apart v w

instance : Std.Symm GroupsApart := ⟨fun _ _ h v w hv hw => (h w v hw hv).symm⟩

/-- What the loop over the groups asks of one. -/
structure Claims (allocations : List Json) (taken : List Resource) (g : String × Files) (v : Json) : Prop where
  intent : g.2.intent = some v
  request : item v "request_id" = .str g.1
  allocation : item v "allocation_digest" ∉ allocations
  resources : ∀ r ∈ resources v, r ∉ taken

theorem checkGroups_ok {gs : Groups} {allocations : List Json} {taken : List Resource}
    (h : checkGroups sha256 gs allocations taken = .ok ()) : ∀ g ∈ gs, ∃ v, Claims allocations taken g v := by
  induction gs generalizing allocations taken with
  | nil => simp
  | cons g gs ih =>
    obtain ⟨id, files⟩ := g
    unfold checkGroups at h
    split at h
    · cases h
    · next intent hintent =>
      simp only [bind_ok, require_ok, exists_unit, decide_eq_true_eq, Bool.not_eq_true', List.contains_eq_mem,
        decide_eq_false_iff_not, List.all_eq_true] at h
      obtain ⟨-, hrequest, hallocation, hresources, -, hrest⟩ := h
      refine List.forall_mem_cons.mpr ⟨⟨intent, hintent, hrequest, hallocation, hresources⟩, fun g hg => ?_⟩
      obtain ⟨v, hv⟩ := ih hrest g hg
      exact ⟨v, hv.intent, hv.request, fun hmem => hv.allocation (List.mem_cons_of_mem _ hmem),
        fun r hr hmem => hv.resources r hr (List.mem_append_right _ hmem)⟩

theorem checkGroups_apart {gs : Groups} {allocations : List Json} {taken : List Resource}
    (h : checkGroups sha256 gs allocations taken = .ok ()) (hkeys : (gs.map (·.1)).Nodup) :
    gs.Pairwise GroupsApart := by
  induction gs generalizing allocations taken with
  | nil => exact .nil
  | cons g gs ih =>
    have hall := checkGroups_ok h
    obtain ⟨id, files⟩ := g
    unfold checkGroups at h
    split at h
    · cases h
    · next intent hintent =>
      simp only [bind_ok, require_ok, exists_unit] at h
      obtain ⟨-, hrequest, -, -, -, hrest⟩ := h
      obtain ⟨hhead, htail⟩ := List.nodup_cons.mp hkeys
      refine List.pairwise_cons.mpr ⟨fun g' hg' v w hv hw => ?_, ih hrest htail⟩
      obtain ⟨w', hw'⟩ := checkGroups_ok hrest g' hg'
      obtain rfl : w' = w := Option.some.inj (hw'.intent.symm.trans hw)
      obtain rfl : intent = v := Option.some.inj (hintent.symm.trans hv)
      refine (apart_of_resources ?_ (fun heq => hw'.allocation (heq ▸ List.mem_cons_self))
        fun r hr hmem => hw'.resources r hr (List.mem_append_left _ hmem)).symm
      rw [hw'.request, of_decide_eq_true hrequest]
      intro heq
      cases heq
      exact hhead (List.mem_map.mpr ⟨_, hg', rfl⟩)

/-! ## A whole scan -/

/-- What a successful scan says of the directory. -/
structure Scanned (dir : Dir) (grouped : Groups) : Prop where
  keys : (grouped.map (·.1)).Nodup
  whole : ∀ g ∈ grouped, ∃ v, g.2.intent = some v ∧ item v "request_id" = .str g.1
  sound : ∀ g ∈ grouped, ∀ v, g.2.intent = some v →
    ∃ file, (fileName g.1 .intent, file) ∈ dir ∧ recordName (fileName g.1 .intent) = some (g.1, .intent) ∧
      readFile file = .ok v
  complete : ∀ id file, (fileName id .intent, file) ∈ dir → recordName (fileName id .intent) = some (id, .intent) →
    ∃ files v, (id, files) ∈ grouped ∧ files.intent = some v ∧ readFile file = .ok v
  apart : ∀ v ∈ intents grouped, ∀ w ∈ intents grouped, v ≠ w → Apart v w

theorem mem_intents {grouped : Groups} {v : Json} : v ∈ intents grouped ↔ ∃ g ∈ grouped, g.2.intent = some v := by
  simp [intents]

theorem scan_ok {dir : Dir} {grouped : Groups} (hnames : (dir.map (·.1)).Nodup) (h : scan sha256 dir = .ok grouped) :
    Scanned dir grouped := by
  simp only [scan, bind_ok, require_ok, exists_unit, pure, Except.pure, Except.ok.injEq] at h
  obtain ⟨grouped', hcollect, -, hcheck, rfl⟩ := h
  have hkeys := collect_nodup hcollect List.nodup_nil
  have hgot : ∀ g ∈ grouped', got grouped' g.1 .intent = g.2.intent := fun g hg => by
    rw [got, lookup_of_mem hkeys (show (g.1, g.2) ∈ grouped' from hg)]
    rfl
  refine ⟨hkeys, fun g hg => ?_, fun g hg v hv => ?_, fun id file hmem hrecord => ?_, fun v hv w hw hne => ?_⟩
  · obtain ⟨v, hclaims⟩ := checkGroups_ok hcheck g hg
    exact ⟨v, hclaims.intent, hclaims.request⟩
  · rcases collect_sound hcollect ((hgot g hg).trans hv) with ⟨name, file, hmem, hrecord, hread⟩ | hnil
    · obtain rfl := fileName_of_recordName hrecord
      exact ⟨file, hmem, hrecord, hread⟩
    · simp [got] at hnil
  · obtain ⟨v, hread, hv⟩ := collect_complete hcollect hnames hmem hrecord
    obtain ⟨files, hlookup, hfiles⟩ := Option.bind_eq_some_iff.mp hv
    exact ⟨files, v, mem_of_lookup hlookup, hfiles, hread⟩
  · obtain ⟨g, hg, hgv⟩ := mem_intents.mp hv
    obtain ⟨g', hg', hgw⟩ := mem_intents.mp hw
    refine (checkGroups_apart hcheck hkeys).forall hg hg' ?_ v w hgv hgw
    rintro rfl
    exact hne (Option.some.inj (hgv.symm.trans hgw))

/-- An intent file that does not end in a newline makes every scan fail. -/
theorem scan_partial {dir : Dir} {id : String} {file : File} (hnames : (dir.map (·.1)).Nodup)
    (hmem : (fileName id .intent, file) ∈ dir) (hrecord : recordName (fileName id .intent) = some (id, .intent))
    (hcut : file.bytes.getLast? ≠ some 10) (grouped : Groups) : scan sha256 dir ≠ .ok grouped := by
  intro h
  obtain ⟨files, v, -, -, hread⟩ := (scan_ok hnames h).complete id file hmem hrecord
  simp only [readFile, bind_ok, require_ok, exists_unit, decide_eq_true_eq] at hread
  exact hcut hread.2.1

end LocalHand.Observer
