/-
The pages of both catalogs partition them. A manifest's cursor is taken back only
up to a length that the cursors it gives need not keep, so there the partition is
of those catalogs whose cursors are short enough.
-/
import LocalHand.Catalogs
import LocalHand.Lib.PyData

namespace LocalHand.Catalogs

open PyJson ResultReader QuotaContract
open Framing (Bytes)

variable {F : Type} {host : Host F}

/-! ## Cursors -/

theorem opened_pack (raw : Bytes) : host.opened (host.pack raw) = some raw := by
  have hlen : (raw ++ host.hmac raw).length - 32 = raw.length := by
    rw [List.length_append, host.length_hmac]
    omega
  rw [Host.opened, Host.pack, host.unpack_urlEncode, Option.bind_some, hlen, List.take_left, List.drop_left, if_pos rfl]

theorem length_pack (raw : Bytes) : (host.pack raw).length ≤ 2048 ↔ raw.length ≤ 1504 := by
  rw [Host.pack, Base64.length_urlEncode, List.length_append, host.length_hmac]
  omega

theorem loads_json {value : Value F} (hw : value.WF) (hi : value.intsOk = true) : host.loads (host.json value) = some value :=
  loads_wire hw hi

theorem subject_wf (principal : Principal) : (principal.subject : Value F).WF := by
  cases principal with
  | verified id scopes =>
    have hkeys : "principal_id" < "scopes" := by decide
    refine ⟨by simpa using hkeys, trivial, itemsWF_iff.mpr ?_, trivial⟩
    intro v hv
    obtain ⟨s, -, rfl⟩ := List.mem_map.mp hv
    trivial
  | other text => trivial

theorem subject_ints (principal : Principal) : (principal.subject : Value F).intsOk = true := by
  cases principal with
  | verified id scopes =>
    have hitems : ∀ names : List String, itemsIntsOk (names.map (Value.str (F := F))) = true := by
      intro names
      induction names with
      | nil => rfl
      | cons s names ih => rw [List.map_cons, itemsIntsOk, ih]; rfl
    simp only [Principal.subject, Value.intsOk, fieldsIntsOk, hitems, Bool.and_true]
  | other text => rfl

/-- Principals are told apart by what a cursor keeps of them. -/
theorem subject_inj {p q : Principal} (h : (p.subject : Value F) = q.subject) : p = q := by
  cases p with
  | verified id scopes =>
    cases q with
    | verified id' scopes' =>
      simp only [Principal.subject, Value.obj.injEq, List.cons.injEq, Prod.mk.injEq, Value.str.injEq, Value.arr.injEq,
        true_and, and_true] at h
      obtain ⟨hid, hscopes⟩ := h
      have hsort := List.map_injective_iff.mpr (fun a b hab => Value.str.inj hab) hscopes
      rw [Subtype.ext hid, ← Finset.sort_toFinset (r := (· ≤ ·)) scopes, hsort, Finset.sort_toFinset]
    | other text => cases h
  | other text =>
    cases q with
    | verified id scopes => cases h
    | other text' =>
      rw [Value.str.inj h]

theorem printable {n : Nat} (h : (natText n).length ≤ 4300) : (Value.int (F := F) n).intsOk = true :=
  decide_eq_true h

theorem natText_short {n : Nat} (h : n < 2 ^ 63) : (natText n).length ≤ 4300 := by
  have hlen : (natText n).length ≤ 19 := (Nat.length_toDigits_le_iff (by omega) (by omega)).mpr (by omega)
  omega

theorem length_le_encodeText (text : List Char) : text.length ≤ (encodeText text).length := by
  induction text with
  | nil => simp [encodeText]
  | cons c text ih =>
    have hc : 0 < c.utf8Size := Char.utf8Size_pos c
    rw [encodeText, List.flatMap_cons, List.length_append, String.length_utf8EncodeChar, ← encodeText, List.length_cons]
    omega

/-! ### Of a manifest -/

theorem at_wf (b : Binding) (offset : Nat) : (b.at offset : Value F).WF := by
  have hkeys : (["offset", "operation_id", "principal", "version"] : List String).Pairwise (· < ·) := by decide
  exact ⟨List.pairwise_map.mp hkeys, trivial, trivial, subject_wf b.principal, trivial, trivial⟩

/-- An offset on a short text is printable. -/
theorem at_ints {b : Binding} {offset : Nat} (h : (host.json (b.at offset)).length ≤ 1504) :
    (b.at offset : Value F).intsOk = true := by
  have hdigits : (natText offset).length ≤ (host.json (b.at offset)).length := by
    refine le_trans ?_ (length_le_encodeText _)
    have hint : intText (offset : Int) = natText offset := by
      rw [intText, if_neg (by omega), Int.natAbs_natCast]
    simp only [Binding.at, dump, hint, List.length_cons, List.length_append]
    omega
  have hoffset : (Value.int (F := F) offset).intsOk = true := printable (by omega)
  simp only [Binding.at, Binding.fields, Value.intsOk, fieldsIntsOk, subject_ints, Bool.and_true] at hoffset ⊢
  exact hoffset

/-- Only the length of a cursor decides whether it is taken back. -/
theorem readOffset_cursor [DecidableEq F] {b : Binding} {count offset : Nat} (ho : offset ≤ count) :
    readOffset host b count (host.cursor b offset) =
      if (host.json (b.at offset)).length ≤ 1504 then .ok offset else .error conflict := by
  have hne : host.cursor b offset ≠ [] := by
    rw [Host.cursor, Host.pack]
    intro h
    have hlen := congrArg List.length h
    rw [Base64.length_urlEncode, List.length_append, host.length_hmac, List.length_nil] at hlen
    omega
  have hall : (host.cursor b offset).all Base64.isUrlDigit = true := Base64.urlEncode_all _
  by_cases hfits : (host.json (b.at offset)).length ≤ 1504
  · have hlen : (host.cursor b offset).length ≤ 2048 := (length_pack _).mpr hfits
    have hloads : host.loads (host.json (b.at offset)) = some (b.at offset) := loads_json (at_wf b offset) (at_ints hfits)
    rw [if_pos hfits, readOffset]
    simp only [hlen, hne, hall, decide_true, ne_eq, not_false_eq_true, Bool.and_self, require, if_true, bind, Except.bind]
    rw [Host.cursor, opened_pack, Option.bind_some, hloads]
    have hcount : (0 : Int) ≤ offset ∧ (offset : Int) ≤ count := by omega
    simp [Binding.at, Binding.fields, lookup, hcount, pure, Except.pure]
  · have hlen : ¬ (host.cursor b offset).length ≤ 2048 := fun h => hfits ((length_pack _).mp h)
    rw [if_neg hfits, readOffset]
    simp only [hlen, decide_false, Bool.false_and, require, Bool.false_eq_true, if_false, bind, Except.bind]

/-- A cursor bound to something else is not taken. -/
theorem readOffset_foreign [DecidableEq F] {b b' : Binding} (hne : b' ≠ b) (count offset : Nat) :
    readOffset host b count (host.cursor b' offset) = .error conflict := by
  rw [readOffset]
  by_cases hform : (host.cursor b' offset).length ≤ 2048 ∧ host.cursor b' offset ≠ [] ∧
      (host.cursor b' offset).all Base64.isUrlDigit = true
  · obtain ⟨hlen, hnil, hall⟩ := hform
    have hfits := (length_pack _).mp hlen
    have hloads : host.loads (host.json (b'.at offset)) = some (b'.at offset) := loads_json (at_wf b' offset) (at_ints hfits)
    have hfields : (b'.fields : List (String × Value F)) ≠ b.fields := by
      intro h
      simp only [Binding.fields, List.cons.injEq, Prod.mk.injEq, Value.str.injEq, true_and, and_true] at h
      obtain ⟨hop, hprincipal, hversion⟩ := h
      apply hne
      cases b
      cases b'
      simp only [Binding.mk.injEq]
      exact ⟨hop, subject_inj hprincipal, hversion⟩
    simp only [hlen, hnil, hall, decide_true, ne_eq, not_false_eq_true, Bool.and_self, require, if_true, bind, Except.bind]
    rw [Host.cursor, opened_pack, Option.bind_some, hloads]
    have hrest : (("offset", Value.int (F := F) offset) :: b'.fields).filter (fun f => decide (f.1 ≠ "offset")) = b'.fields := by
      simp [Binding.fields]
    have hfirst : lookup (("offset", Value.int (F := F) offset) :: b'.fields) "offset" = some (.int offset) := by simp [lookup]
    simp only [Binding.at, hfirst, hrest, hfields, decide_false, Bool.false_and, Bool.false_eq_true, if_false]
  · have hno : (decide ((host.cursor b' offset).length ≤ 2048) && decide (host.cursor b' offset ≠ []) &&
        (host.cursor b' offset).all Base64.isUrlDigit) = false := by
      rw [Bool.eq_false_iff]
      intro h
      simp only [Bool.and_eq_true, decide_eq_true_eq] at h
      exact hform ⟨h.1.1, h.1.2, h.2⟩
    simp only [hno, require, Bool.false_eq_true, if_false, bind, Except.bind]

/-! ## Manifests -/

section

variable (host) (b : Binding) (items : List (Value F))

/-- The artifact fits in an answer alone. -/
def Fits (i : Nat) : Prop := ∀ item, items[i]? = some item →
  (host.json (Page.value ⟨b.operationId, b.version, [item], some (host.cursor b (i + 1))⟩)).length ≤ maxResponse

/-- What is bound into a cursor is short, wherever the artifacts before it can be read. -/
def Short : Prop := ∀ offset, 0 < offset → offset < items.length → (∀ i < offset, Fits host b items i) →
  (host.json (b.at offset)).length ≤ 1504

/-- A manifest call of an accepted size, of a catalog that is there. -/
def serve [DecidableEq F] (cursor : Option (List Char)) (pageSize : Nat) : Except Fault (List (Value F) × Option (List Char)) :=
  (match cursor with
    | none => .ok 0
    | some cursor => readOffset host b items.length cursor) >>= fun offset =>
  (pageFrom host b items offset pageSize).map fun page => (page.artifacts, page.nextCursor)

/-- Where a cursor of the manifest stands. -/
def Stands (cursor : Option (List Char)) (offset : Nat) : Prop :=
  (∀ i < offset, Fits host b items i) ∧
    (cursor = none ∧ offset = 0 ∨ cursor = some (host.cursor b offset) ∧ 0 < offset ∧ offset < items.length)

end

variable {b : Binding} {items : List (Value F)}

theorem Stands.le {cursor : Option (List Char)} {offset : Nat} (h : Stands host b items cursor offset) :
    offset ≤ items.length := by
  obtain ⟨-, ⟨-, rfl⟩ | ⟨-, -, hlt⟩⟩ := h
  · exact Nat.zero_le _
  · exact hlt.le

theorem require_cases {b : Bool} {fault : Fault} {out : Except Fault Unit} (h : require b fault = out) :
    out = .ok () ∨ out = .error fault := by
  cases b
  · exact .inr h.symm
  · exact .inl h.symm

/-! ### The size of an answer -/

theorem natText_mono {m n : Nat} (h : m ≤ n) : (natText m).length ≤ (natText n).length := by
  have hpos : (natText n).length ≠ 0 := by
    rw [ne_eq, List.length_eq_zero_iff]
    exact natText_ne_nil n
  have hn : n < 10 ^ (natText n).length :=
    (Nat.length_toDigits_le_iff (by decide) (Nat.pos_of_ne_zero hpos)).mp (Nat.le_refl (natText n).length)
  exact (Nat.length_toDigits_le_iff (by decide) (Nat.pos_of_ne_zero hpos)).mpr (by omega)

variable (host) in
theorem length_at (b : Binding) {m n : Nat} (h : m ≤ n) : (host.json (b.at m)).length ≤ (host.json (b.at n)).length := by
  have htext : ∀ k : Nat, intText (k : Int) = natText k := by
    intro k
    rw [intText, if_neg (by omega), Int.natAbs_natCast]
  have hdigits := natText_mono h
  simp only [Host.json, length_wire, Binding.at, dump, htext, List.length_cons, List.length_append]
  omega

theorem length_cursor_text (b : Binding) (offset : Nat) :
    (dump host.floats true (Value.str (String.ofList (host.cursor b offset)))).length =
      (4 * ((host.json (b.at offset)).length + 32) + 2) / 3 + 2 := by
  have hplain : escapeText true (host.cursor b offset) = host.cursor b offset := by
    refine escapeText_plain fun c hc => ?_
    obtain ⟨n, hn, rfl⟩ := Base64.urlEncode_mem hc
    have hall : ∀ n < 64, escapeChar true (Base64.toUrl (Base64.digit n)) = [Base64.toUrl (Base64.digit n)] := by decide
    exact hall n hn
  have hlen : (host.cursor b offset).length = (4 * ((host.json (b.at offset)).length + 32) + 2) / 3 := by
    rw [Host.cursor, Host.pack, Base64.length_urlEncode, List.length_append, host.length_hmac]
  rw [dump, dumpString, String.toList_ofList, hplain, List.length_cons, List.length_append, List.length_singleton, hlen]

variable (host) in
theorem length_dumpItems_mem {x : Value F} {xs : List (Value F)} (h : x ∈ xs) :
    (dump host.floats true x).length + 2 ≤ (dumpItems host.floats true xs).length := by
  induction xs with
  | nil => cases h
  | cons y xs ih =>
    have hclose : 1 ≤ (dumpItems host.floats true xs).length := by
      cases xs <;> simp [dumpItems]
    rw [dumpItems, List.length_cons, List.length_append]
    obtain rfl | h := List.mem_cons.mp h
    · omega
    · have htail := ih h
      omega

variable (host) in
theorem length_singleton_le {x : Value F} {xs : List (Value F)} (h : x ∈ xs) :
    (dump host.floats true (.arr [x])).length ≤ (dump host.floats true (.arr xs)).length := by
  cases xs with
  | nil => cases h
  | cons y xs =>
    have hclose : 1 ≤ (dumpItems host.floats true xs).length := by
      cases xs <;> simp [dumpItems]
    rw [dump, dump, dumpItems]
    simp only [List.length_cons, List.length_append, List.length_nil]
    obtain rfl | h := List.mem_cons.mp h
    · omega
    · have htail := length_dumpItems_mem host h
      omega

theorem length_value (operationId version : String) (artifacts : List (Value F)) (cursor : List Char) :
    (host.json (Page.value ⟨operationId, version, artifacts, some cursor⟩)).length =
      (dump host.floats true (.arr artifacts)).length + (dump host.floats true (.str (String.ofList cursor))).length +
        (dumpString true version).length + (dumpString true operationId).length + 102 := by
  have hnames : (dumpString true "artifacts").length = 11 ∧ (dumpString true "catalog_digest").length = 16 ∧
      (dumpString true "next_cursor").length = 13 ∧ (dumpString true "operation_id").length = 14 ∧
      (dumpString true "schema_version").length = 16 ∧ (dumpString true "lh-evidence-page-v1").length = 21 := by decide
  have hsum : ∀ x y : Value F, (dump host.floats true (.obj [("artifacts", x), ("catalog_digest", .str version),
      ("next_cursor", y), ("operation_id", .str operationId), ("schema_version", .str "lh-evidence-page-v1")])).length =
        (dump host.floats true x).length + (dump host.floats true y).length + (dumpString true version).length +
          (dumpString true operationId).length + 102 := by
    intro x y
    simp only [dump, dumpFields, List.length_cons, List.length_append, List.length_nil]
    omega
  rw [Host.json, length_wire]
  exact hsum _ _

/-- An answer with more artifacts and a later cursor is no smaller. -/
theorem length_value_le {page : List (Value F)} {item : Value F} (hitem : item ∈ page) {m n : Nat} (h : m ≤ n) :
    (host.json (Page.value ⟨b.operationId, b.version, [item], some (host.cursor b m)⟩)).length ≤
      (host.json (Page.value ⟨b.operationId, b.version, page, some (host.cursor b n)⟩)).length := by
  have hitems := length_singleton_le host hitem
  have hat := length_at host b h
  rw [length_value, length_value, length_cursor_text, length_cursor_text]
  omega

/-! ### Its pages -/

variable (host b items) in
theorem pageFrom_cases (offset n : Nat) : pageFrom host b items offset n = .error manifestLimit ∨
    pageFrom host b items offset n = .ok ⟨b.operationId, b.version, (items.drop offset).take n,
      if offset + ((items.drop offset).take n).length < items.length
        then some (host.cursor b (offset + ((items.drop offset).take n).length)) else none⟩ := by
  unfold pageFrom
  simp only [bind, Except.bind]
  generalize hchecked : require _ manifestLimit = checked
  obtain h | h := require_cases hchecked
  · rw [h]
    exact .inr rfl
  · rw [h]
    exact .inl rfl

/-- The artifacts of an answer that more follow fit. -/
theorem pageFrom_fits {offset n : Nat} {page : Page F} (h : pageFrom host b items offset n = .ok page)
    (hmore : offset + page.artifacts.length < items.length) {i : Nat} (hlow : offset ≤ i)
    (hhigh : i < offset + page.artifacts.length) : Fits host b items i := by
  intro item hitem
  simp only [pageFrom, bind_ok, require_ok, exists_unit, decide_eq_true_eq] at h
  obtain ⟨hlen, h⟩ := h
  cases h
  simp only at hmore hhigh
  have hmem : item ∈ (items.drop offset).take n := by
    refine List.mem_iff_getElem?.mpr ⟨i - offset, ?_⟩
    have hsize : i - offset < n := by
      rw [List.length_take] at hhigh
      omega
    rw [List.getElem?_take_of_lt hsize, List.getElem?_drop, ← hitem]
    congr 1
    omega
  rw [if_pos hmore] at hlen
  exact (length_value_le hmem (by omega)).trans hlen

/-- A page of at least one item is the next piece of the manifest. -/
theorem pageFrom_piece {offset n : Nat} (hbefore : ∀ i < offset, Fits host b items i) (hle : offset ≤ items.length)
    (hn : isPageSize n) {page : Page F} (h : pageFrom host b items offset n = .ok page) :
    Paging.Piece items (Stands host b items) offset page.artifacts page.nextCursor := by
  obtain hlimit | hpage := pageFrom_cases host b items offset n
  · rw [hlimit] at h
    cases h
  have hfits := pageFrom_fits h
  rw [hpage] at h
  cases h
  by_cases hmore : offset + ((items.drop offset).take n).length < items.length
  · simp only [if_pos hmore]
    have hpos : 0 < ((items.drop offset).take n).length := by
      have hsize := hn.1
      rw [List.length_take, List.length_drop] at hmore ⊢
      omega
    refine ⟨List.length_pos_iff.mp hpos, List.take_prefix _ _, ?_, .inr ⟨rfl, by omega, hmore⟩⟩
    intro i hi
    by_cases hold : i < offset
    · exact hbefore i hold
    · exact hfits hmore (by omega) hi
  · simp only [if_neg hmore]
    refine List.take_of_length_le ?_
    rw [List.length_take, List.length_drop] at hmore
    rw [List.length_drop]
    omega

/-- The page of one artifact that fits. -/
theorem pageFrom_one {offset : Nat} (hmore : offset + 1 < items.length) (h : Fits host b items offset) :
    ∃ item, pageFrom host b items offset 1 = .ok ⟨b.operationId, b.version, [item], some (host.cursor b (offset + 1))⟩ := by
  have hone : (items.drop offset).take 1 = [items[offset]] := by
    rw [List.drop_eq_getElem_cons (by omega), List.take_succ_cons, List.take_zero]
  refine ⟨items[offset], ?_⟩
  have hlen := h items[offset] (List.getElem?_eq_getElem (by omega))
  simp only [pageFrom, hone, List.length_singleton, if_pos hmore, bind_ok, require_ok, exists_unit, decide_eq_true_eq]
  exact ⟨hlen, rfl⟩

section

variable [DecidableEq F]

theorem serve_standing {cursor : Option (List Char)} {offset : Nat} (h : Stands host b items cursor offset)
    (hfits : 0 < offset → (host.json (b.at offset)).length ≤ 1504) (n : Nat) :
    serve host b items cursor n = (pageFrom host b items offset n).map fun page => (page.artifacts, page.nextCursor) := by
  have hle := h.le
  obtain ⟨-, ⟨rfl, rfl⟩ | ⟨rfl, hpos, -⟩⟩ := h
  · rfl
  · rw [serve]
    simp only [readOffset_cursor hle, if_pos (hfits hpos)]
    rfl

/-- Where what is bound is short, the manifest is served. -/
theorem serve_serves (hshort : Short host b items) :
    Paging.Serves (serve host b items) items isPageSize (· = manifestLimit) (Stands host b items) where
  start := ⟨fun _ h => absurd h (Nat.not_lt_zero _), .inl ⟨rfl, rfl⟩⟩
  bound _ _ h := h.le
  turn cursor offset n hstands hn := by
    have hfits : 0 < offset → (host.json (b.at offset)).length ≤ 1504 := by
      intro hpos
      obtain ⟨hbefore, ⟨-, rfl⟩ | ⟨-, -, hlt⟩⟩ := hstands
      · omega
      · exact hshort offset hpos hlt hbefore
    rw [serve_standing hstands hfits]
    obtain hlimit | hpage := pageFrom_cases host b items offset n
    · exact .inl ⟨manifestLimit, by rw [hlimit]; rfl, rfl⟩
    · exact .inr ⟨_, _, by rw [hpage]; rfl, pageFrom_piece hstands.1 hstands.le hn hpage⟩

/-- Where every cursor is taken back, each is short: pages of one artifact reach them all. -/
theorem short_of_resumes (h : Paging.Resumes (serve host b items) isPageSize (· = manifestLimit)) : Short host b items := by
  have hcursor : ∀ offset, offset < items.length → (∀ i < offset, Fits host b items i) → ∃ cursor,
      Stands host b items cursor offset ∧ Paging.Reached (serve host b items) isPageSize cursor ∧
        (0 < offset → (host.json (b.at offset)).length ≤ 1504) := by
    intro offset
    induction offset with
    | zero => exact fun _ _ => ⟨none, ⟨nofun, .inl ⟨rfl, rfl⟩⟩, .start, fun h => absurd h (Nat.not_lt_zero 0)⟩
    | succ offset ih =>
      intro hlt hbefore
      obtain ⟨cursor, hstands, hreached, hfits⟩ := ih (by omega) fun i hi => hbefore i (by omega)
      obtain ⟨item, hpage⟩ := pageFrom_one hlt (hbefore offset (Nat.lt_succ_self offset))
      have hcall := serve_standing hstands hfits 1
      rw [hpage] at hcall
      have hreached' : Paging.Reached (serve host b items) isPageSize (some (host.cursor b (offset + 1))) :=
        hreached.turn (by decide) hcall
      refine ⟨_, ⟨hbefore, .inr ⟨rfl, Nat.succ_pos offset, hlt⟩⟩, hreached', fun _ => ?_⟩
      -- The cursor is taken back, so it is short.
      by_contra hlong
      have hrefused : serve host b items (some (host.cursor b (offset + 1))) 1 = .error conflict := by
        rw [serve]
        simp only [readOffset_cursor hlt.le, if_neg hlong]
        rfl
      obtain ⟨out, hout⟩ | ⟨error, herror, hlimit⟩ := h _ hreached' 1 (by decide)
      · rw [hrefused] at hout
        cases hout
      · rw [hrefused] at herror
        cases herror
        exact absurd hlimit (by decide)
  intro offset hpos hlt hbefore
  obtain ⟨_, -, -, hfits⟩ := hcursor offset hlt hbefore
  exact hfits hpos

theorem manifest_serve {evidence : Evidence F} {operationId : String} {principal : Principal} {records : List (Record F)}
    (hauth : evidence.authorize principal operationId = .ok ()) (hrecords : evidence.records operationId = .ok records)
    (hne : records ≠ []) {n : Nat} (hn : isPageSize n) (cursor : Option (List Char)) :
    (evidence.manifest operationId principal cursor n).map (fun page => (page.artifacts, page.nextCursor)) =
      serve evidence.host (bindingOf evidence.host operationId principal (itemsOf operationId records))
        (itemsOf operationId records) cursor n := by
  have hsome : (!records.isEmpty) = true := by simpa using hne
  simp only [Evidence.manifest, serve, hauth, hrecords, hsome, hn, require, decide_true, if_true, bind, Except.bind]
  generalize bindingOf evidence.host operationId principal (itemsOf operationId records) = b
  cases cursor with
  | none =>
    simp only
    cases pageFrom evidence.host b (itemsOf operationId records) 0 n with
    | error fault => rfl
    | ok page => rfl
  | some cursor =>
    cases hread : readOffset evidence.host b (itemsOf operationId records).length cursor with
    | error fault =>
      simp only [hread]
      rfl
    | ok offset =>
      simp only [hread]
      cases pageFrom evidence.host b (itemsOf operationId records) offset n with
      | error fault => rfl
      | ok page => rfl

/-- What an answer with a cursor was bound to. -/
theorem manifest_cursor {evidence : Evidence F} {operationId : String} {principal : Principal} {cursor : Option (List Char)}
    {n : Nat} {page : Page F} (h : evidence.manifest operationId principal cursor n = .ok page) {next : List Char}
    (hnext : page.nextCursor = some next) :
    ∃ offset, next = evidence.host.cursor ⟨operationId, principal, page.catalogDigest⟩ offset := by
  simp only [Evidence.manifest] at h
  obtain ⟨-, -, h⟩ := bind_ok.mp h
  obtain ⟨-, -, h⟩ := bind_ok.mp h
  obtain ⟨records, -, h⟩ := bind_ok.mp h
  obtain ⟨-, -, h⟩ := bind_ok.mp h
  obtain ⟨offset, hpage⟩ : ∃ offset, pageFrom evidence.host
      (bindingOf evidence.host operationId principal (itemsOf operationId records)) (itemsOf operationId records) offset n =
        .ok page := by
    cases cursor with
    | none =>
      obtain ⟨offset, -, h⟩ := bind_ok.mp h
      obtain ⟨page', hpage, h⟩ := bind_ok.mp h
      obtain ⟨-, -, h⟩ := bind_ok.mp h
      exact ⟨offset, hpage.trans h⟩
    | some cursor =>
      obtain ⟨offset, -, h⟩ := bind_ok.mp h
      obtain ⟨page', hpage, h⟩ := bind_ok.mp h
      obtain ⟨-, -, h⟩ := bind_ok.mp h
      exact ⟨offset, hpage.trans h⟩
  obtain hlimit | hpage' := pageFrom_cases evidence.host (bindingOf evidence.host operationId principal (itemsOf operationId records))
    (itemsOf operationId records) offset n
  · rw [hlimit] at hpage
    cases hpage
  · rw [hpage'] at hpage
    cases hpage
    simp only [ite_eq_iff] at hnext
    obtain ⟨-, hnext⟩ | ⟨-, hnext⟩ := hnext
    · exact ⟨_, (Option.some.inj hnext).symm⟩
    · cases hnext

end

/-! ## Capabilities -/

section

variable (host) (id version : String) (profiles : List (Value F))

theorem capabilityAt_wf (offset : Nat) : (capabilityAt id version offset : Value F).WF := by
  have hkeys : (["offset", "principal", "version"] : List String).Pairwise (· < ·) := by decide
  exact ⟨List.pairwise_map.mp hkeys, trivial, trivial, trivial, trivial⟩

theorem capabilityAt_loads {offset : Nat} (h : offset < 2 ^ 63) :
    host.loads (host.json (capabilityAt id version offset)) = some (capabilityAt id version offset) := by
  refine loads_json (capabilityAt_wf id version offset) ?_
  have hoffset : (Value.int (F := F) offset).intsOk = true := printable (natText_short h)
  simp only [capabilityAt, Value.intsOk, fieldsIntsOk, Bool.and_true] at hoffset ⊢
  exact hoffset

variable [DecidableEq F]

theorem readCapabilityOffset_cursor {count offset : Nat} (ho : offset ≤ count) (hoffset : offset < 2 ^ 63) :
    readCapabilityOffset host id version count (host.capabilityCursor id version offset) = .ok offset := by
  have hbound : (0 : Int) ≤ offset ∧ (offset : Int) ≤ count := by omega
  rw [readCapabilityOffset, Host.capabilityCursor, opened_pack, Option.bind_some, capabilityAt_loads host id version hoffset]
  simp [capabilityAt, lookup, require, hbound, bind, Except.bind, pure, Except.pure]

/-- A cursor of somebody or something else is stale. -/
theorem readCapabilityOffset_foreign {id' version' : String} (hne : ¬ (id' = id ∧ version' = version)) (count : Nat)
    {offset : Nat} (hoffset : offset < 2 ^ 63) :
    readCapabilityOffset host id version count (host.capabilityCursor id' version' offset) = .error staleCursor := by
  rw [readCapabilityOffset, Host.capabilityCursor, opened_pack, Option.bind_some, capabilityAt_loads host id' version' hoffset]
  simp [capabilityAt, lookup, hne, require, bind, Except.bind]

end

variable (host) in
/-- A page is cut, or the first of its profiles is too large. -/
theorem fillPage_spec (pageSize : Nat) (rest page : List (Value F)) :
    fillPage host pageSize page rest = .error catalogLimit ∨
      ∃ more, fillPage host pageSize page rest = .ok (page ++ more) ∧ more <+: rest ∧
        (page = [] → rest ≠ [] → 1 ≤ pageSize → more ≠ []) := by
  induction rest generalizing page with
  | nil => exact .inr ⟨[], by rw [List.append_nil, fillPage], List.prefix_rfl, fun _ h => absurd rfl h⟩
  | cons candidate rest ih =>
    rw [fillPage]
    by_cases hroom : page.length < pageSize
    · rw [if_pos hroom]
      by_cases hlarge : maxProfilesBytes < (host.json (.arr (page ++ [candidate]))).length
      · rw [if_pos hlarge]
        cases page with
        | nil => exact .inl rfl
        | cons first page => exact .inr ⟨[], by rw [List.append_nil]; rfl, List.nil_prefix, fun h => nomatch h⟩
      · rw [if_neg hlarge]
        obtain hlimit | ⟨more, hmore, hprefix, -⟩ := ih (page ++ [candidate])
        · exact .inl hlimit
        · refine .inr ⟨candidate :: more, ?_, (List.cons_prefix_cons).mpr ⟨rfl, hprefix⟩, fun _ _ _ => List.cons_ne_nil _ _⟩
          rw [hmore, List.append_assoc, List.singleton_append]
    · rw [if_neg hroom]
      refine .inr ⟨[], by rw [List.append_nil], List.nil_prefix, fun hnil _ hsize => ?_⟩
      subst hnil
      simp only [List.length_nil, Nat.not_lt] at hroom
      omega

section

variable [DecidableEq F] {policy : Policy F} {id : { s : String // 0 < s.toList.length ∧ s.toList.length ≤ 256 }}
  {scopes : Finset String}

/-- The profiles of a principal, as they are served. -/
def Policy.serve (policy : Policy F) (principal : Principal) (cursor : Option (List Char)) (pageSize : Nat) :
    Except Fault (List (Value F) × Option (List Char)) :=
  (policy.capabilities principal cursor pageSize).map fun answer => (answer.profiles, answer.nextCursor)

/-- The version of the catalog of a principal. -/
def Policy.version (policy : Policy F) (id : String) : String :=
  capabilityVersion policy.host id policy.policyDigest (policy.profiles id)

/-- Where a cursor of the capabilities stands. -/
def Policy.Stands (policy : Policy F) (id : String) (cursor : Option (List Char)) (offset : Nat) : Prop :=
  offset ≤ (policy.profiles id).length ∧
    (cursor = none ∧ offset = 0 ∨ cursor = some (policy.host.capabilityCursor id (policy.version id) offset))

theorem capabilities_page (hauth : policy.authorize (.verified id scopes) = .ok ()) {n : Nat} (hn : isPageSize n)
    {cursor : Option (List Char)} {offset : Nat} (h : policy.Stands id.val cursor offset) :
    policy.capabilities (.verified id scopes) cursor n =
      (fillPage policy.host n [] ((policy.profiles id.val).drop offset)).map fun page =>
        ⟨policy.version id.val, page, if offset + page.length < (policy.profiles id.val).length
          then some (policy.host.capabilityCursor id.val (policy.version id.val) (offset + page.length)) else none⟩ := by
  obtain ⟨hle, hcursor⟩ := h
  have hshort := policy.short id.val
  simp only [Policy.capabilities, hauth, hn, require, decide_true, if_true, bind, Except.bind]
  obtain ⟨rfl, rfl⟩ | rfl := hcursor
  · simp only
    cases fillPage policy.host n [] ((policy.profiles id.val).drop 0) with
    | error fault => rfl
    | ok page => rfl
  · have hread := readCapabilityOffset_cursor policy.host id.val (policy.version id.val) hle (by omega)
    rw [Policy.version] at hread ⊢
    simp only [hread]
    cases fillPage policy.host n [] ((policy.profiles id.val).drop offset) with
    | error fault => rfl
    | ok page => rfl

theorem capabilities_serves (hauth : policy.authorize (.verified id scopes) = .ok ()) :
    Paging.Serves (policy.serve (.verified id scopes)) (policy.profiles id.val) isPageSize (· = catalogLimit)
      (policy.Stands id.val) where
  start := ⟨Nat.zero_le _, .inl ⟨rfl, rfl⟩⟩
  bound _ _ h := h.1
  turn cursor offset n hstands hn := by
    rw [Policy.serve, capabilities_page hauth hn hstands]
    obtain hlimit | ⟨page, hpage, hprefix, hne⟩ := fillPage_spec policy.host n ((policy.profiles id.val).drop offset) []
    · exact .inl ⟨catalogLimit, by rw [hlimit]; rfl, rfl⟩
    · rw [List.nil_append] at hpage
      refine .inr ⟨page, _, by rw [hpage]; rfl, ?_⟩
      have hlen := hprefix.length_le
      rw [List.length_drop] at hlen
      by_cases hmore : offset + page.length < (policy.profiles id.val).length
      · simp only [if_pos hmore]
        refine ⟨hne rfl ?_ hn.1, hprefix, by have := hstands.1; omega, .inr rfl⟩
        rw [ne_eq, List.drop_eq_nil_iff]
        omega
      · simp only [if_neg hmore]
        refine hprefix.eq_of_length ?_
        rw [List.length_drop]
        omega

/-- What an answer with a cursor was bound to. -/
theorem capabilities_cursor {principal : Principal} {cursor : Option (List Char)} {n : Nat} {answer : Capabilities F}
    (h : policy.capabilities principal cursor n = .ok answer) {next : List Char} (hnext : answer.nextCursor = some next) :
    ∃ id scopes offset, principal = .verified id scopes ∧ offset < 2 ^ 63 ∧ answer.catalogVersion = policy.version id.val ∧
      next = policy.host.capabilityCursor id.val answer.catalogVersion offset := by
  cases principal with
  | other text => cases h
  | verified id scopes =>
    simp only [Policy.capabilities] at h
    obtain ⟨-, -, h⟩ := bind_ok.mp h
    obtain ⟨-, -, h⟩ := bind_ok.mp h
    obtain ⟨offset, page, rfl⟩ : ∃ (offset : Nat) (page : List (Value F)), answer = ⟨policy.version id.val, page,
        if offset + page.length < (policy.profiles id.val).length
          then some (policy.host.capabilityCursor id.val (policy.version id.val) (offset + page.length)) else none⟩ := by
      cases cursor with
      | none =>
        obtain ⟨offset, -, h⟩ := bind_ok.mp h
        obtain ⟨page, -, h⟩ := bind_ok.mp h
        exact ⟨offset, page, (Except.ok.inj h).symm⟩
      | some cursor =>
        obtain ⟨offset, -, h⟩ := bind_ok.mp h
        obtain ⟨page, -, h⟩ := bind_ok.mp h
        exact ⟨offset, page, (Except.ok.inj h).symm⟩
    have hshort := policy.short id.val
    simp only [ite_eq_iff] at hnext
    obtain ⟨hmore, hnext⟩ | ⟨-, hnext⟩ := hnext
    · exact ⟨id, scopes, offset + page.length, rfl, by omega, rfl, (Option.some.inj hnext).symm⟩
    · cases hnext

/-- A cursor of another principal, or of another version, is not taken. -/
theorem capabilities_foreign (hauth : policy.authorize (.verified id scopes) = .ok ()) {id' version' : String} {offset : Nat}
    (hoffset : offset < 2 ^ 63) (hne : ¬ (id' = id.val ∧ version' = policy.version id.val)) {n : Nat} (hn : isPageSize n) :
    policy.capabilities (.verified id scopes) (some (policy.host.capabilityCursor id' version' offset)) n =
      .error staleCursor := by
  have hread := readCapabilityOffset_foreign policy.host id.val (policy.version id.val) hne (policy.profiles id.val).length
    hoffset
  rw [Policy.version] at hread
  simp only [Policy.capabilities, hauth, hn, require, decide_true, if_true, bind, Except.bind, hread]

end

/-! ## The partition -/

variable [DecidableEq F]

/-- The manifest of an operation as a principal reads it. -/
def Evidence.serve (evidence : Evidence F) (operationId : String) (principal : Principal) (cursor : Option (List Char))
    (pageSize : Nat) : Except Fault (List (Value F) × Option (List Char)) :=
  (evidence.manifest operationId principal cursor pageSize).map fun page => (page.artifacts, page.nextCursor)

/-- A store whose tags are zeros. -/
def zeroHost : Host Empty :=
  ⟨noFloats, fun _ => "0", fun _ => List.replicate 32 0, Base64.urlDecode, fun _ => List.length_replicate,
    Base64.urlDecode_urlEncode⟩

/-- An operation of one seal with two artifacts. -/
def twoArtifacts : Evidence Empty :=
  ⟨zeroHost, fun _ _ => .ok (), fun _ => .ok [⟨1, "seal", .null, "0", [[("path", .str "a")], [("path", .str "b")]]⟩]⟩

def noProfiles : Policy Empty := ⟨zeroHost, fun _ => .ok (), fun _ => [], "0", fun _ => by decide⟩

/-- A principal of accented letters. -/
def accented (n : Nat) : String := String.ofList (List.replicate n 'é')

theorem length_dumpString_accented (n : Nat) : (dumpString true (accented n)).length = 6 * n + 2 := by
  have htext : (escapeText true (List.replicate n 'é')).length = 6 * n := by
    induction n with
    | zero => rfl
    | succ n ih =>
      have hone : (escapeChar true 'é').length = 6 := by decide
      rw [List.replicate_succ, escapeText, List.length_append, hone, ih]
      omega
  rw [dumpString, accented, String.toList_ofList, List.length_cons, List.length_append, htext, List.length_singleton]

theorem length_accented (n : Nat) : (accented n).toList.length = n := by
  rw [accented, String.toList_ofList, List.length_replicate]

def accentedPrincipal : Principal := .verified ⟨accented 256, by rw [length_accented]; decide, by rw [length_accented]⟩ ∅

theorem twoArtifacts_items : itemsOf (F := Empty) "op" [⟨1, "seal", .null, "0", [[("path", .str "a")], [("path", .str "b")]]⟩] =
    ["a", "b"].map fun path => .obj [("event_seq", .int 1), ("operation_id", .str "op"), ("path", .str path),
      ("reconcile_id", .null), ("seal_id", .str "seal"), ("seal_sha256", .str "0")] := by
  rw [itemsOf, List.mergeSort_singleton]
  decide

/-- What a cursor is bound to, as it is printed. -/
theorem length_bound (offset operation name principal id subject scopes version digest : String) (n : Int) :
    (dump zeroHost.floats true (.obj [(offset, .int n), (operation, .str name),
      (principal, .obj [(id, .str subject), (scopes, .arr [])]), (version, .str digest)])).length =
      (intText n).length + (dumpString true offset).length + (dumpString true operation).length + (dumpString true name).length
        + (dumpString true principal).length + (dumpString true id).length + (dumpString true subject).length
        + (dumpString true scopes).length + (dumpString true version).length + (dumpString true digest).length + 16 := by
  simp only [dump, dumpFields, List.length_cons, List.length_append, List.length_nil]
  omega

/-- What the cursor of an accented principal is bound to. -/
theorem length_at_accented (offset : Nat) :
    (zeroHost.json (Binding.at ⟨"op", accentedPrincipal, "0"⟩ offset)).length = (natText offset).length + 1625 := by
  have hsubject : (accentedPrincipal.subject : Value Empty) = .obj [("principal_id", .str (accented 256)), ("scopes", .arr [])] := by
    rw [accentedPrincipal, Principal.subject, Finset.sort_empty]
    rfl
  have hint : intText (offset : Int) = natText offset := by
    rw [intText, if_neg (by omega), Int.natAbs_natCast]
  have hoffset : (dumpString true "offset").length = 8 := by decide
  have hoperation : (dumpString true "operation_id").length = 14 := by decide
  have hop : (dumpString true "op").length = 4 := by decide
  have hprincipal : (dumpString true "principal").length = 11 := by decide
  have hid : (dumpString true "principal_id").length = 14 := by decide
  have hscopes : (dumpString true "scopes").length = 8 := by decide
  have hversion : (dumpString true "version").length = 9 := by decide
  have hzero : (dumpString true "0").length = 3 := by decide
  rw [Host.json, length_wire, Binding.at, Binding.fields, hsubject, length_bound, hint, length_dumpString_accented, hoffset, hoperation,
    hop, hprincipal, hid, hscopes, hversion, hzero]

end LocalHand.Catalogs
