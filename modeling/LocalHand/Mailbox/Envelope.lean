/-
A result field by field: what `_validate_result_shape` asks of its fields, what its
text takes, and that `_bounded_execution_result` makes it one that fits, where its
action leaves room for the rest of it.
-/
import LocalHand.Mailbox.ReceiptRoom
import LocalHand.Mailbox.AtMostOnce
import LocalHand.Lib.JsonLength
import Mathlib.Data.List.Sort

namespace LocalHand.Mailbox

open PyJson ResultReader
open QuotaPayload (isStr)
open Framing (Bytes)

variable {F : Type}

structure Envelope (F : Type) where
  action : String
  details : Value F
  error : Value F
  errorCode : Value F
  implementationCommit : String
  nodeId : String
  packageDigest : String
  profileDigest : String
  status : String
  taskDigest : String
  taskId : String
  workerVersion : String

def Envelope.fields (e : Envelope F) : List (String × Value F) :=
  [("action", .str e.action), ("details", e.details), ("error", e.error), ("error_code", e.errorCode),
    ("implementation_commit", .str e.implementationCommit), ("node_id", .str e.nodeId),
    ("package_digest", .str e.packageDigest), ("profile_digest", .str e.profileDigest),
    ("schema_version", .str resultSchema), ("status", .str e.status), ("target_node", .str e.nodeId),
    ("task_digest", .str e.taskDigest), ("task_id", .str e.taskId), ("worker_version", .str e.workerVersion)]

def Envelope.value (e : Envelope F) : Value F := .obj e.fields

/-- A success has no error, and what is none has one. -/
def Told (status : String) (errorCode error : Value F) : Prop :=
  (status = "succeeded" ∧ errorCode = .null ∧ error = .null) ∨
    (status ≠ "succeeded" ∧ ∃ code message, errorCode = .str code ∧ code ≠ "" ∧ error = .str message ∧ message ≠ "")

/-- What is asked of the fields. -/
structure Envelope.Valid (e : Envelope F) : Prop where
  details : ∃ fields, e.details = .obj fields
  status : e.status ∈ resultStatuses
  told : Told e.status e.errorCode e.error
  action : e.action ≠ ""
  implementationCommit : isCommit e.implementationCommit = true
  nodeId : e.nodeId ≠ ""
  packageDigest : isDigest e.packageDigest = true
  profileDigest : isDigest e.profileDigest = true
  taskDigest : isDigest e.taskDigest = true
  taskId : isTaskId e.taskId = true
  workerVersion : e.workerVersion ≠ ""

/-! ## The checks of the fields -/

theorem Told.checked {e : Envelope F} (h : Told e.status e.errorCode e.error) :
    (if e.status = "succeeded" then ["error_code", "error"].all fun key => match lookup e.fields key with
        | some .null => true
        | _ => false
      else ["error_code", "error"].all fun key => (text? e.value key).any (· ≠ "")) = true := by
  have hcode : lookup e.fields "error_code" = some e.errorCode := rfl
  have herror : lookup e.fields "error" = some e.error := rfl
  rcases h with ⟨hsucceeded, hnone, hnone'⟩ | ⟨hfailed, code, message, hsome, hcode', hsome', hmessage⟩
  · simp [hsucceeded, hcode, herror, hnone, hnone']
  · simp [hfailed, text?, Envelope.value, Value.get?, hcode, herror, hsome, hsome', hcode', hmessage]

theorem Envelope.Valid.contract {e : Envelope F} (h : e.Valid) : validateResultContract e.value = .ok () := by
  obtain ⟨fields, hfields⟩ := h.details
  have hkeys : keysAre e.fields resultFields = true := by rfl
  have hdetails : lookup e.fields "details" = some (.obj fields) := by rw [← hfields]; rfl
  have hstatus : text? (.obj e.fields : Value F) "status" = some e.status := by rfl
  have htold := h.told.checked
  rw [Envelope.value] at htold ⊢
  simp only [validateResultContract, hkeys, hdetails, Option.any_some, Bool.and_self, bind_ok_iff, check_ok, hstatus, List.contains_iff_mem, h.status]
  exact ⟨(), trivial, (), trivial, htold⟩

theorem Envelope.Valid.texts {e : Envelope F} (h : e.Valid) :
    checkTexts e.value textChecks = .ok () ∧ checkTexts e.value provenanceChecks = .ok () := by
  have htaskId : text? e.value "task_id" = some e.taskId := by rfl
  have htaskDigest : text? e.value "task_digest" = some e.taskDigest := by rfl
  have hstatus : text? e.value "status" = some e.status := by rfl
  have haction : text? e.value "action" = some e.action := by rfl
  have htarget : text? e.value "target_node" = some e.nodeId := by rfl
  have hnode : text? e.value "node_id" = some e.nodeId := by rfl
  have hversion : text? e.value "worker_version" = some e.workerVersion := by rfl
  have hcommit : text? e.value "implementation_commit" = some e.implementationCommit := by rfl
  have hpackage : text? e.value "package_digest" = some e.packageDigest := by rfl
  have hprofile : text? e.value "profile_digest" = some e.profileDigest := by rfl
  constructor
  · simp [checkTexts, textChecks, bind_ok_iff, htaskId, htaskDigest, hstatus, haction, htarget, hnode, hversion, h.taskId, h.taskDigest,
      h.status, h.action, h.nodeId, h.workerVersion]
  · simp [checkTexts, provenanceChecks, bind_ok_iff, hcommit, hpackage, hprofile, h.implementationCommit, h.packageDigest, h.profileDigest]

/-- What is left of the checks is the size. -/
theorem Envelope.Valid.shape {e : Envelope F} (h : e.Valid) (host : Host F) :
    validateResultShape host e.value = match jsonBytes host e.value maxResultJsonBytes "result_too_large" with
      | none => .error (indeterminate "result_invalid" "Result cannot be represented as UTF-8 JSON")
      | some (.error failure) => .error failure
      | some (.ok _) => .ok () := by
  have hschema : isStr (e.value.get? "schema_version") resultSchema = true := by rfl
  have hnode : text? e.value "node_id" = text? e.value "target_node" := by rfl
  rw [validateResultShape, h.contract]
  simp only [hschema, h.texts.1, h.texts.2, hnode, check, decide_true, if_true]
  rfl

variable {host : JsonHost F} {e : Envelope F}

theorem Envelope.Valid.fits (h : e.Valid) (hi : e.value.intsOk = true) (hlen : (jsonText host.floats e.value).length ≤ maxResultJsonBytes) :
    validateResultShape host.toHost e.value = .ok () := by
  rw [h.shape, jsonBytes, host.print_eq, if_pos hi, Option.map_some, check, if_pos (by simpa using hlen)]
  rfl

/-- The error of a result that is too large. -/
def tooLarge : Failure := ⟨"result_too_large", "serialized JSON exceeds " ++ toString maxResultJsonBytes ++ " bytes", "failed"⟩

theorem Envelope.Valid.large (h : e.Valid) (hi : e.value.intsOk = true) (hlen : maxResultJsonBytes < (jsonText host.floats e.value).length) :
    validateResultShape host.toHost e.value = .error tooLarge := by
  rw [h.shape, jsonBytes, host.print_eq, if_pos hi, Option.map_some, check, if_neg (by simpa using hlen)]
  rfl

theorem Envelope.Valid.unprintable (h : e.Valid) (hi : e.value.intsOk = false) :
    validateResultShape host.toHost e.value = .error (indeterminate "result_invalid" "Result cannot be represented as UTF-8 JSON") := by
  rw [h.shape, jsonBytes, host.print_eq, if_neg (by simp [hi])]
  rfl

/-! ## The fields of a result -/

/-- The names of the fields in their order. -/
def fieldNames : List String :=
  ["action", "details", "error", "error_code", "implementation_commit", "node_id", "package_digest", "profile_digest",
    "schema_version", "status", "target_node", "task_digest", "task_id", "worker_version"]

theorem fieldNames_perm : resultFields.Perm fieldNames := by decide

theorem lookup_sorted {fields : List (String × Value F)} (hsorted : fields.Pairwise (·.1 < ·.1)) {f : String × Value F} (hf : f ∈ fields) :
    lookup fields f.1 = some f.2 := by
  have hnodup : (fields.map (·.1)).Nodup := (List.pairwise_map.mpr hsorted).imp ne_of_lt
  cases hfound : fields.find? (·.1 = f.1) with
  | none => exact absurd (List.find?_eq_none.mp hfound f hf) (by simp)
  | some g =>
    have hname : g.1 = f.1 := by simpa using List.find?_some hfound
    rw [lookup, hfound, List.inj_on_of_nodup_map hnodup (List.mem_of_find?_eq_some hfound) hf hname]
    rfl

/-- Fields in order are told by their names. -/
theorem fields_of_names {fields : List (String × Value F)} (hsorted : fields.Pairwise (·.1 < ·.1)) {names : List String}
    (hnames : names.Pairwise (· < ·)) (hmem : ∀ name, name ∈ fields.map (·.1) ↔ name ∈ names) :
    fields = names.map fun name => (name, (lookup fields name).getD .null) := by
  have hkeys : fields.map (·.1) = names := List.Pairwise.eq_of_mem_iff (List.pairwise_map.mpr hsorted) hnames fun {a} => hmem a
  calc fields = fields.map fun f => (f.1, (lookup fields f.1).getD .null) := by
        refine (List.map_id fields).symm.trans (List.map_congr_left fun f hf => ?_)
        rw [lookup_sorted hsorted hf]
        rfl
    _ = names.map fun name => (name, (lookup fields name).getD .null) := by rw [← hkeys, List.map_map]; rfl

theorem mem_of_keysAre {fields : List (String × Value F)} {names : List String} (h : keysAre fields names = true) (name : String) :
    name ∈ fields.map (·.1) ↔ name ∈ names := by
  simp only [keysAre, Bool.and_eq_true, List.all_eq_true, List.contains_iff_mem] at h
  constructor
  · intro hname
    obtain ⟨f, hf, rfl⟩ := List.mem_map.mp hname
    exact h.2 f hf
  · intro hname
    obtain ⟨f, hf, -⟩ := Option.map_eq_some_iff.mp (Option.isSome_iff_exists.mp (h.1 name hname)).choose_spec
    have hkey : f.1 = name := by simpa using List.find?_some hf
    exact List.mem_map.mpr ⟨f, List.mem_of_find?_eq_some hf, hkey⟩

/-- A text that passes its check is the field. -/
theorem field_of_text {value : Value F} {name : String} {valid : String → Bool} (h : (text? value name).any valid = true) :
    fieldOf value name = .str (textOf value name) ∧ valid (textOf value name) = true := by
  unfold fieldOf textOf
  unfold text? at h ⊢
  split at h
  · next s hs =>
    rw [hs]
    exact ⟨rfl, h⟩
  · cases h

theorem contract_ok {value : Value F} (h : validateResultContract value = .ok ()) :
    ∃ fields, value = .obj fields ∧ keysAre fields resultFields = true ∧ (∃ details, fieldOf value "details" = .obj details) ∧
      textOf value "status" ∈ resultStatuses ∧ Told (textOf value "status") (fieldOf value "error_code") (fieldOf value "error") := by
  cases value with
  | null | bool b | int i | float x | str s | arr xs => cases h
  | obj fields =>
    simp only [validateResultContract, bind_ok_iff, check_ok, Bool.and_eq_true] at h
    obtain ⟨-, ⟨hkeys, hdetails⟩, h⟩ := h
    refine ⟨fields, rfl, hkeys, ?_, ?_⟩
    · cases hlookup : lookup fields "details" with
      | none => simp [hlookup] at hdetails
      | some details =>
        rw [hlookup] at hdetails
        cases details with
        | obj details => exact ⟨details, by rw [fieldOf, Value.get?, hlookup]; rfl⟩
        | null | bool b | int i | float x | str s | arr xs => cases hdetails
    · cases hstatus : text? (.obj fields : Value F) "status" with
      | none =>
        rw [hstatus] at h
        cases h
      | some status =>
        rw [hstatus] at h
        simp only [bind_ok_iff, check_ok, List.contains_iff_mem] at h
        obtain ⟨-, hmem, hvalid⟩ := h
        have htext : textOf (.obj fields : Value F) "status" = status := by rw [textOf, hstatus]; rfl
        rw [htext]
        refine ⟨hmem, ?_⟩
        by_cases hsucceeded : status = "succeeded"
        · have hnull : ∀ {key}, (match lookup fields key with
              | some .null => true
              | _ => false) = true → fieldOf (.obj fields : Value F) key = .null := by
            intro key hkey
            split at hkey
            · next hlookup => rw [fieldOf, Value.get?, hlookup]; rfl
            · cases hkey
          simp only [hsucceeded, if_true, List.all_cons, List.all_nil, Bool.and_true, Bool.and_eq_true] at hvalid
          exact .inl ⟨hsucceeded, hnull hvalid.1, hnull hvalid.2⟩
        · rw [if_neg hsucceeded] at hvalid
          simp only [List.all_cons, List.all_nil, Bool.and_true, Bool.and_eq_true] at hvalid
          obtain ⟨hcode, hcode'⟩ := field_of_text hvalid.1
          obtain ⟨herror, herror'⟩ := field_of_text hvalid.2
          exact .inr ⟨hsucceeded, _, _, hcode, by simpa using hcode', herror, by simpa using herror'⟩

theorem shape_envelope {host : Host F} {value : Value F} (hwf : value.WF) (h : validateResultShape host value = .ok ()) :
    ∃ e : Envelope F, value = e.value ∧ e.Valid := by
  simp only [validateResultShape, bind_ok_iff, check_ok, decide_eq_true_eq] at h
  obtain ⟨_, hcontract, _, hschema, _, htexts, _, hnode, _, hprovenance, -⟩ := h
  obtain ⟨fields, rfl, hkeys, hdetails, hstatus, htold⟩ := contract_ok hcontract
  have htext := fun (name : String) (valid : String → Bool) (hmem : (name, valid) ∈ textChecks) =>
    field_of_text (checkTexts_ok htexts hmem)
  have hfrom := fun (name : String) (valid : String → Bool) (hmem : (name, valid) ∈ provenanceChecks) =>
    field_of_text (checkTexts_ok hprovenance hmem)
  obtain ⟨details, hdetails⟩ := hdetails
  obtain ⟨haction, haction'⟩ := htext "action" (· ≠ "") (by simp [textChecks])
  obtain ⟨hnodeId, hnodeId'⟩ := htext "node_id" (· ≠ "") (by simp [textChecks])
  obtain ⟨htarget, -⟩ := htext "target_node" (· ≠ "") (by simp [textChecks])
  obtain ⟨hversion, hversion'⟩ := htext "worker_version" (· ≠ "") (by simp [textChecks])
  obtain ⟨htaskId, htaskId'⟩ := htext "task_id" isTaskId (by simp [textChecks])
  obtain ⟨htaskDigest, htaskDigest'⟩ := htext "task_digest" isDigest (by simp [textChecks])
  obtain ⟨hstatusField, -⟩ := htext "status" (fun s => resultStatuses.contains s) (by simp [textChecks])
  obtain ⟨hcommit, hcommit'⟩ := hfrom "implementation_commit" isCommit (by simp [provenanceChecks])
  obtain ⟨hpackage, hpackage'⟩ := hfrom "package_digest" isDigest (by simp [provenanceChecks])
  obtain ⟨hprofile, hprofile'⟩ := hfrom "profile_digest" isDigest (by simp [provenanceChecks])
  have hschemaField : fieldOf (.obj fields : Value F) "schema_version" = .str resultSchema := by
    unfold isStr at hschema
    split at hschema
    · next s hs =>
      rw [fieldOf, hs, ← of_decide_eq_true hschema]
      rfl
    · cases hschema
  have hnodes : textOf (.obj fields : Value F) "target_node" = textOf (.obj fields : Value F) "node_id" := by
    rw [textOf, textOf, hnode]
  have hfields := fields_of_names hwf.1 (show fieldNames.Pairwise (· < ·) by decide) fun name => by
    rw [mem_of_keysAre hkeys name, fieldNames_perm.mem_iff]
  generalize hvalue : (.obj fields : Value F) = value at *
  let e : Envelope F :=
    ⟨textOf value "action", .obj details, fieldOf value "error", fieldOf value "error_code", textOf value "implementation_commit",
      textOf value "node_id", textOf value "package_digest", textOf value "profile_digest", textOf value "status",
      textOf value "task_digest", textOf value "task_id", textOf value "worker_version"⟩
  refine ⟨e, ?_, ⟨⟨details, rfl⟩, hstatus, htold, by simpa using haction', hcommit', by simpa using hnodeId', hpackage', hprofile',
    htaskDigest', htaskId', by simpa using hversion'⟩⟩
  have hmap : fields = fieldNames.map fun name => (name, fieldOf value name) := by
    rw [← hvalue]
    exact hfields
  rw [← hvalue, hmap]
  show Value.obj [("action", fieldOf value "action"), ("details", fieldOf value "details"), ("error", fieldOf value "error"),
    ("error_code", fieldOf value "error_code"), ("implementation_commit", fieldOf value "implementation_commit"),
    ("node_id", fieldOf value "node_id"), ("package_digest", fieldOf value "package_digest"),
    ("profile_digest", fieldOf value "profile_digest"), ("schema_version", fieldOf value "schema_version"),
    ("status", fieldOf value "status"), ("target_node", fieldOf value "target_node"), ("task_digest", fieldOf value "task_digest"),
    ("task_id", fieldOf value "task_id"), ("worker_version", fieldOf value "worker_version")] = e.value
  rw [haction, hdetails, hcommit, hnodeId, hpackage, hprofile, hschemaField, hstatusField, htarget, hnodes, htaskDigest, htaskId,
    hversion]
  rfl

/-! ## What a text takes -/

/-- A character that is printed as it is, in a byte. -/
def Plain (c : Char) : Prop := 32 ≤ c.toNat ∧ c.toNat < 127 ∧ c ≠ '"' ∧ c ≠ '\\'

instance (c : Char) : Decidable (Plain c) := inferInstanceAs (Decidable (_ ∧ _))

theorem width_ascii {cs : List Char} (h : Ascii cs) : width cs = cs.length := by
  induction cs with
  | nil => rfl
  | cons c cs ih =>
    have hsize : c.utf8Size = 1 := Char.utf8Size_eq_one_iff.mpr (by
      have hlow : c.toNat < 128 := h c List.mem_cons_self
      show c.toNat ≤ 127
      omega)
    rw [width_cons, hsize, ih fun d hd => h d (List.mem_cons_of_mem _ hd), List.length_cons]
    omega

theorem Plain.escaped {c : Char} (h : Plain c) : escapeChar false c = [c] := by
  obtain ⟨hlow, hhigh, hquote, hslash⟩ := h
  have hne : ∀ d : Char, d.toNat < 32 → c ≠ d := by
    rintro d hd rfl
    omega
  have hline := hne '\n' (by decide)
  have hreturn := hne '\r' (by decide)
  have htab := hne '\t' (by decide)
  unfold escapeChar
  rw [if_neg hquote, if_neg hslash, if_neg hline, if_neg hreturn, if_neg htab, if_neg (by omega), if_neg (by omega), if_neg (by omega),
    if_neg (by simp)]

theorem escapeChar_width (c : Char) : width (escapeChar false c) ≤ 6 := by
  have hsize := Char.utf8Size_le_four c
  have hunit : ∀ u, width (escapeUnit u) ≤ 6 := fun u => (width_ascii (escapeUnit_ascii u)).le
  simp only [escapeChar, Bool.false_eq_true, false_and, if_false]
  split_ifs
  all_goals first
    | exact hunit _
    | decide
    | (rw [width_cons, width_nil]; omega)

theorem escapeText_width (cs : List Char) : width (escapeText false cs) ≤ 6 * cs.length := by
  induction cs with
  | nil => rfl
  | cons c cs ih =>
    have hc := escapeChar_width c
    rw [escapeText, width_append, List.length_cons]
    omega

theorem quoted_le (s : String) : quoted s ≤ 6 * s.toList.length + 2 := by
  have htext := escapeText_width s.toList
  have hquote : Char.utf8Size '"' = 1 := rfl
  rw [quoted, dumpString, width_cons, width_append, width_cons, width_nil, hquote]
  omega

theorem quoted_plain {s : String} (h : ∀ c ∈ s.toList, Plain c) : quoted s = s.toList.length + 2 := by
  have hquote : Char.utf8Size '"' = 1 := rfl
  have hascii : Ascii s.toList := fun c hc => by
    have hplain := (h c hc).2.1
    omega
  rw [quoted, dumpString, width_cons, width_append, width_cons, width_nil, hquote, escapeText_plain fun c hc => (h c hc).escaped,
    width_ascii hascii]
  omega

theorem plain_hex {c : Char} (h : isHex c = true) : Plain c := by
  have hslash : '\\'.toNat = 92 := rfl
  have hquote : '"'.toNat = 34 := rfl
  simp only [isHex, isLowerHex, Char.isDigit, Bool.or_eq_true, Bool.and_eq_true, decide_eq_true_eq, ge_iff_le, UInt32.le_iff_toNat_le,
    Char.le_def] at h
  have hrange : (48 ≤ c.toNat ∧ c.toNat ≤ 57) ∨ (97 ≤ c.toNat ∧ c.toNat ≤ 102) ∨ (65 ≤ c.toNat ∧ c.toNat ≤ 70) := by
    rcases h with (h | h) | h
    · exact .inl h
    · exact .inr (.inl h)
    · exact .inr (.inr h)
  refine ⟨by omega, by omega, ?_, ?_⟩
  · rintro rfl
    omega
  · rintro rfl
    omega

/-- A text of plain characters, and of at most so many. -/
def Mild (n : Nat) (text : String) : Prop := text.toList.length ≤ n ∧ ∀ c ∈ text.toList, Plain c

instance (n : Nat) (text : String) : Decidable (Mild n text) :=
  decidable_of_iff (text.toList.length ≤ n ∧ text.toList.all (fun c => decide (Plain c)) = true) (by simp [Mild])

theorem Mild.quoted {n : Nat} {text : String} (h : Mild n text) : quoted text ≤ n + 2 := by
  have hlen := h.1
  rw [quoted_plain h.2]
  omega

theorem Mild.append {n m : Nat} {text text' : String} (h : Mild n text) (h' : Mild m text') : Mild (n + m) (text ++ text') := by
  have hlen := h.1
  have hlen' := h'.1
  refine ⟨?_, fun c hc => ?_⟩
  · rw [String.toList_append, List.length_append]
    omega
  · rw [String.toList_append, List.mem_append] at hc
    exact hc.elim (h.2 c) (h'.2 c)

theorem Mild.mono {n m : Nat} {text : String} (h : Mild n text) (hle : n ≤ m) : Mild m text := ⟨h.1.trans hle, h.2⟩

theorem mild_taskId {id : String} (h : isTaskId id = true) : Mild 66 id := by
  simp only [isTaskId, Bool.and_eq_true, decide_eq_true_eq, List.all_eq_true] at h
  obtain ⟨⟨⟨htake, -⟩, hmost⟩, hdigits⟩ := h
  have hsplit : id.toList = ['L', 'H'] ++ id.toList.drop 2 := by rw [← htake, List.take_append_drop]
  constructor
  · rw [hsplit, List.length_append]
    simp only [maxTaskIdDigits] at hmost
    show 2 + _ ≤ _
    omega
  · intro c hc
    rw [hsplit, List.mem_append] at hc
    rcases hc with hc | hc
    · simp only [List.mem_cons, List.not_mem_nil, or_false] at hc
      rcases hc with rfl | rfl <;> decide
    · exact plain_hex (by simp [isHex, isLowerHex, hdigits c hc])

theorem quoted_digest {s : String} (h : isDigest s = true) : quoted s = 66 := by
  simp only [isDigest, Bool.and_eq_true, decide_eq_true_eq, List.all_eq_true] at h
  rw [quoted_plain fun c hc => plain_hex (h.2 c hc), h.1]

theorem quoted_commit {s : String} (h : isCommit s = true) : quoted s ≤ 66 := by
  simp only [isCommit, Bool.and_eq_true, decide_eq_true_eq, List.all_eq_true] at h
  rw [quoted_plain fun c hc => plain_hex (h.2 c hc)]
  omega

theorem quoted_taskId {id : String} (h : isTaskId id = true) : quoted id ≤ 68 := (mild_taskId h).quoted

theorem quoted_status {s : String} (h : s ∈ resultStatuses) : quoted s ≤ 15 := by
  simp only [resultStatuses, List.mem_cons, List.not_mem_nil, or_false] at h
  rcases h with rfl | rfl | rfl | rfl | rfl <;> decide

/-- The size of a result, field by field. -/
theorem length_envelope (fl : FloatText F) (e : Envelope F) :
    (jsonText fl e.value).length = 284 + (quoted e.action + 2 * quoted e.nodeId + quoted e.workerVersion) +
      (quoted e.implementationCommit + quoted e.packageDigest + quoted e.profileDigest + quoted e.taskDigest + quoted e.taskId +
        quoted e.status) +
      (width (indent fl false 1 e.details) + width (indent fl false 1 e.error) + width (indent fl false 1 e.errorCode)) := by
  have haction : width (dumpString false "action") = 8 := by decide
  have hdetails : width (dumpString false "details") = 9 := by decide
  have herror : width (dumpString false "error") = 7 := by decide
  have hcode : width (dumpString false "error_code") = 12 := by decide
  have hcommit : width (dumpString false "implementation_commit") = 23 := by decide
  have hnode : width (dumpString false "node_id") = 9 := by decide
  have hpackage : width (dumpString false "package_digest") = 16 := by decide
  have hprofile : width (dumpString false "profile_digest") = 16 := by decide
  have hschema : width (dumpString false "schema_version") = 16 := by decide
  have hversion : width (dumpString false resultSchema) = 22 := by decide
  have hstatus : width (dumpString false "status") = 8 := by decide
  have htarget : width (dumpString false "target_node") = 13 := by decide
  have hdigest : width (dumpString false "task_digest") = 13 := by decide
  have hid : width (dumpString false "task_id") = 9 := by decide
  have hworker : width (dumpString false "worker_version") = 16 := by decide
  have hopen : Char.utf8Size '{' = 1 := rfl
  have hclose : Char.utf8Size '}' = 1 := rfl
  have hcomma : Char.utf8Size ',' = 1 := rfl
  have hcolon : Char.utf8Size ':' = 1 := rfl
  have hblank : Char.utf8Size ' ' = 1 := rfl
  unfold quoted
  simp only [length_jsonText, Envelope.value, Envelope.fields, indent, indentFields, dump, width_cons, width_append, width_nil, width_line,
    haction, hdetails, herror, hcode, hcommit, hnode, hpackage, hprofile, hschema, hversion, hstatus, htarget, hdigest, hid, hworker,
    hopen, hclose, hcomma, hcolon, hblank, Nat.zero_add]
  omega

/-- What a field takes, a comma or a brace before it included. -/
def fieldWidth (fl : FloatText F) (depth : Nat) (f : String × Value F) : Nat :=
  quoted f.1 + width (indent fl false (depth + 1) f.2) + (6 + 2 * depth)

theorem width_fields (fl : FloatText F) (depth : Nat) (fields : List (String × Value F)) :
    width (indentFields fl false depth fields) = (fields.map (fieldWidth fl depth)).sum + (2 + 2 * depth) := by
  have hclose : Char.utf8Size '}' = 1 := rfl
  have hcomma : Char.utf8Size ',' = 1 := rfl
  have hcolon : Char.utf8Size ':' = 1 := rfl
  have hblank : Char.utf8Size ' ' = 1 := rfl
  induction fields with
  | nil =>
    simp only [indentFields, width_append, width_cons, width_nil, width_line, hclose, List.map_nil, List.sum_nil]
    omega
  | cons f rest ih =>
    simp only [indentFields, width_append, width_cons, width_line, hcomma, hcolon, hblank, ih, List.map_cons, List.sum_cons, fieldWidth,
      quoted]
    omega

theorem width_obj (fl : FloatText F) (depth : Nat) (f : String × Value F) (rest : List (String × Value F)) :
    width (indent fl false depth (.obj (f :: rest))) = ((f :: rest).map (fieldWidth fl depth)).sum + (2 + 2 * depth) := by
  have hopen : Char.utf8Size '{' = 1 := rfl
  have hcolon : Char.utf8Size ':' = 1 := rfl
  have hblank : Char.utf8Size ' ' = 1 := rfl
  simp only [indent, width_append, width_cons, width_line, hopen, hcolon, hblank, width_fields, List.map_cons, List.sum_cons, fieldWidth,
    quoted]
  omega

/-! ## A result without its details -/

/-- The details of a result that is too large. -/
def summaryOf (host : Host F) (e : Envelope F) : List (String × Value F) :=
  [("original_details_omitted", .bool true),
   ("original_error_code", ((text? e.value "error_code").map fun c => Value.str (String.ofList (c.toList.take 128))).getD .null),
   ("original_error_code_truncated", .bool ((text? e.value "error_code").any fun c => 128 < c.toList.length)),
   ("original_result_json_bytes", .int ((host.print e.value).getD []).length),
   ("original_result_sha256", .str (host.sha256 ((host.print e.value).getD []))),
   ("original_status", .str e.status),
   ("result_limit_bytes", .int maxResultJsonBytes)]

/-- The result that is kept of one that is too large. -/
def Envelope.reduced (host : Host F) (e : Envelope F) : Envelope F :=
  { e with
    status := if e.status = "succeeded" then "indeterminate" else e.status
    errorCode := .str "result_too_large"
    error := .str "serialized Result exceeds the publication limit; original details omitted; do not replay execution"
    details := .obj (summaryOf host e) }

theorem bounded_eq (host : Host F) (e : Envelope F) :
    boundedExecutionResult host e.value = match validateResultShape host e.value with
      | .ok _ => .ok e.value
      | .error failure =>
        if failure.code ≠ "result_too_large" then .error failure
        else do
          validateResultShape host (e.reduced host).value
          return (e.reduced host).value := by
  have hstatus : (if isStr (e.value.get? "status") "succeeded" then .str "indeterminate" else (e.value.get? "status").getD .null : Value F) =
      .str (if e.status = "succeeded" then "indeterminate" else e.status) := by
    have hget : e.value.get? "status" = some (.str e.status) := by rfl
    rw [hget]
    by_cases h : e.status = "succeeded" <;> simp [isStr, h]
  rw [boundedExecutionResult]
  dsimp only
  rw [hstatus]
  rfl

theorem Envelope.Valid.reduced (h : e.Valid) (host : Host F) : (e.reduced host).Valid where
  details := ⟨_, rfl⟩
  status := by
    show (if e.status = "succeeded" then "indeterminate" else e.status) ∈ resultStatuses
    split
    · decide
    · exact h.status
  told := by
    refine .inr ⟨?_, _, _, rfl, by decide, rfl, by decide⟩
    show (if e.status = "succeeded" then "indeterminate" else e.status) ≠ "succeeded"
    split
    · decide
    · assumption
  action := h.action
  implementationCommit := h.implementationCommit
  nodeId := h.nodeId
  packageDigest := h.packageDigest
  profileDigest := h.profileDigest
  taskDigest := h.taskDigest
  taskId := h.taskId
  workerVersion := h.workerVersion

theorem isDigest_of_hex {s : String} (h : hexText 64 s = true) : isDigest s = true := by
  simp only [hexText, Bool.and_eq_true, decide_eq_true_eq, List.all_eq_true] at h
  simp only [isDigest, Bool.and_eq_true, decide_eq_true_eq, List.all_eq_true]
  exact ⟨h.1, fun c hc => by simp [isHex, h.2 c hc]⟩

/-- The code of an error, cut off, is of at most six bytes a character. -/
theorem code_width (fl : FloatText F) (e : Envelope F) :
    width (indent fl false 2 (((text? e.value "error_code").map fun c => Value.str (String.ofList (c.toList.take 128))).getD .null)) ≤ 770 := by
  cases text? e.value "error_code" with
  | none =>
    have hnull : width ['n', 'u', 'l', 'l'] = 4 := by decide
    show width ['n', 'u', 'l', 'l'] ≤ 770
    omega
  | some code =>
    have hcode := quoted_le (String.ofList (code.toList.take 128))
    have htake : (code.toList.take 128).length ≤ 128 := List.length_take_le _ _
    rw [String.toList_ofList] at hcode
    show quoted _ ≤ _
    omega

theorem width_nat (fl : FloatText F) (depth n : Nat) : width (indent fl false depth (.int n)) = (natText n).length := by
  have htext : indent fl false depth (.int n) = natText n := by
    rw [indent, dump, intText, if_neg (by omega), Int.natAbs_natCast]
    all_goals simp
  rw [htext, width_ascii (natText_ascii n)]

theorem width_bool (fl : FloatText F) (depth : Nat) (b : Bool) : width (indent fl false depth (.bool b)) ≤ 5 := by
  cases b with
  | true => exact (by decide : width ['t', 'r', 'u', 'e'] ≤ 5)
  | false => exact (by decide : width ['f', 'a', 'l', 's', 'e'] ≤ 5)

theorem summary_width (host : JsonHost F) (h : e.Valid) (hi : e.value.intsOk = true)
    (hsize : (jsonText host.floats e.value).length < 10 ^ 18) :
    width (indent host.floats false 1 (.obj (summaryOf host.toHost e))) ≤ 1113 := by
  have hprint : (host.print e.value).getD [] = jsonText host.floats e.value := by rw [host.print_eq, if_pos hi]; rfl
  have hcode := code_width host.floats e
  have htruncated := width_bool host.floats 2 ((text? e.value "error_code").any fun c => 128 < c.toList.length)
  have hlength : (natText (jsonText host.floats e.value).length).length ≤ 18 := (Nat.length_toDigits_le_iff (by omega) (by omega)).mpr hsize
  have hlimit : (natText maxResultJsonBytes).length = 7 := by decide
  have hsha := quoted_digest (isDigest_of_hex (host.sha256_hex (jsonText host.floats e.value)))
  have hstatus := quoted_status h.status
  have homitted : quoted "original_details_omitted" = 26 := by decide
  have herrorCode : quoted "original_error_code" = 21 := by decide
  have htruncatedName : quoted "original_error_code_truncated" = 31 := by decide
  have hbytes : quoted "original_result_json_bytes" = 28 := by decide
  have hdigest : quoted "original_result_sha256" = 24 := by decide
  have hstatusName : quoted "original_status" = 17 := by decide
  have hlimitName : quoted "result_limit_bytes" = 20 := by decide
  have htrue := width_bool host.floats 2 true
  have hquoted : ∀ s : String, width (indent host.floats false 2 (.str s)) = quoted s := fun s => rfl
  rw [summaryOf, hprint, width_obj]
  simp only [List.map_cons, List.map_nil, List.sum_cons, List.sum_nil, fieldWidth, Nat.reduceAdd, width_nat, hquoted, homitted, herrorCode,
    htruncatedName, hbytes, hdigest, hstatusName, hlimitName, hlimit, hsha]
  omega

/-- What a record of a task takes at most beside the texts of its action, its node and its worker's version. -/
def spareBytes : Nat := 1862

/-- The texts of a result that no record of its task cuts off leave room for the rest. -/
def Slim (value : Value F) : Prop :=
  quoted (textOf value "action") + 2 * quoted (textOf value "node_id") + quoted (textOf value "worker_version") + spareBytes ≤
    maxResultJsonBytes

/-- What is left for the outcome. -/
theorem Envelope.Valid.length_le (h : e.Valid) (hslim : Slim e.value) (fl : FloatText F)
    (hrest : width (indent fl false 1 e.details) + width (indent fl false 1 e.error) + width (indent fl false 1 e.errorCode) ≤ 1231) :
    (jsonText fl e.value).length ≤ maxResultJsonBytes := by
  have hcommit := quoted_commit h.implementationCommit
  have hpackage := quoted_digest h.packageDigest
  have hprofile := quoted_digest h.profileDigest
  have hdigest := quoted_digest h.taskDigest
  have hid := quoted_taskId h.taskId
  have hstatus := quoted_status h.status
  have hroom : quoted e.action + 2 * quoted e.nodeId + quoted e.workerVersion + spareBytes ≤ maxResultJsonBytes := hslim
  have hspare : spareBytes = 1862 := rfl
  rw [length_envelope]
  omega

theorem Envelope.Valid.length_reduced (h : e.Valid) (host : JsonHost F) (hi : e.value.intsOk = true)
    (hsize : (jsonText host.floats e.value).length < 10 ^ 18) (hslim : Slim e.value) :
    (jsonText host.floats (e.reduced host.toHost).value).length ≤ maxResultJsonBytes := by
  refine (h.reduced host.toHost).length_le hslim host.floats ?_
  have hdetails := summary_width host h hi hsize
  have herror : quoted "serialized Result exceeds the publication limit; original details omitted; do not replay execution" = 100 := by decide
  have hcode : quoted "result_too_large" = 18 := by decide
  show _ + quoted "serialized Result exceeds the publication limit; original details omitted; do not replay execution" +
    quoted "result_too_large" ≤ 1231
  rw [herror, hcode]
  exact Nat.add_le_add_right (Nat.add_le_add_right hdetails 100) 18

theorem Envelope.ints {e : Envelope F} (hdetails : e.details.intsOk = true) (herror : e.error.intsOk = true)
    (hcode : e.errorCode.intsOk = true) : e.value.intsOk = true := by
  simp [Envelope.value, Envelope.fields, Value.intsOk, fieldsIntsOk, hdetails, herror, hcode]

theorem reduced_ints (host : JsonHost F) (hi : e.value.intsOk = true) (hsize : (jsonText host.floats e.value).length < 10 ^ 18) :
    (e.reduced host.toHost).value.intsOk = true := by
  have hprint : (host.print e.value).getD [] = jsonText host.floats e.value := by rw [host.print_eq, if_pos hi]; rfl
  have hlength : (natText (jsonText host.floats e.value).length).length ≤ 18 := (Nat.length_toDigits_le_iff (by omega) (by omega)).mpr hsize
  have hlimit : (natText maxResultJsonBytes).length = 7 := by decide
  refine Envelope.ints ?_ rfl rfl
  show (Value.obj (summaryOf host.toHost e)).intsOk = true
  rw [summaryOf, hprint]
  cases text? e.value "error_code" <;>
    simp [Value.intsOk, fieldsIntsOk, maxStrDigits, hlimit, Nat.le_trans hlength]

/-- The result of a task fits, as it is or without its details. -/
theorem Envelope.Valid.bounded (h : e.Valid) (host : JsonHost F) (hi : e.value.intsOk = true)
    (hsize : (jsonText host.floats e.value).length < 10 ^ 18) (hslim : Slim e.value) :
    ∃ e' : Envelope F, boundedExecutionResult host.toHost e.value = .ok e'.value ∧ e'.Valid ∧
      validateResultShape host.toHost e'.value = .ok () ∧ (e' = e ∨ e' = e.reduced host.toHost) := by
  rw [bounded_eq]
  by_cases hlen : (jsonText host.floats e.value).length ≤ maxResultJsonBytes
  · refine ⟨e, ?_, h, h.fits hi hlen, .inl rfl⟩
    rw [h.fits hi hlen]
  · have hreduced := (h.reduced host.toHost).fits (reduced_ints host hi hsize) (h.length_reduced host hi hsize hslim)
    refine ⟨e.reduced host.toHost, ?_, h.reduced host.toHost, hreduced, .inr rfl⟩
    rw [h.large hi (by omega), hreduced]
    rfl

/-! ## Records of few lines -/

/-- The lines the slack of a receipt holds. -/
def maxLines : Nat := 524000

def Short (value : Value F) : Prop := value.breaks ≤ maxLines

/-- An accepted result is printed within its limit. -/
theorem shape_prints {host : Host F} {value : Value F} (h : validateResultShape host value = .ok ()) :
    ∃ data, host.print value = some data ∧ data.length ≤ maxResultJsonBytes := by
  simp only [validateResultShape, bind_ok_iff] at h
  obtain ⟨_, -, _, -, _, -, _, -, _, -, h⟩ := h
  cases hprint : host.print value with
  | none =>
    rw [jsonBytes, hprint] at h
    cases h
  | some data =>
    refine ⟨data, rfl, ?_⟩
    by_contra hlarge
    rw [jsonBytes, hprint, Option.map_some, check, if_neg (by simpa using hlarge)] at h
    cases h

theorem jsonText_le {host : JsonHost F} {value : Value F} (h : validateResultShape host.toHost value = .ok ()) :
    host.print value = some (jsonText host.floats value) ∧ (jsonText host.floats value).length ≤ maxResultJsonBytes := by
  obtain ⟨data, hprint, hlen⟩ := shape_prints h
  have hdata := hprint
  rw [host.print_eq, if_pos (shape_ints host h)] at hdata
  cases hdata
  exact ⟨hprint, hlen⟩

/-- A result of few lines leaves room in each of its receipts. -/
theorem short_fits (host : JsonHost F) {value : Value F} (h : validateResultShape host.toHost value = .ok ()) (hshort : Short value)
    {task : Task F} (hid : isTaskId task.id = true) {digest : String} (hdigest : isDigest digest = true) (record : Record) :
    Fits host.toHost (record.receipt task digest value) := by
  have hi := shape_ints host h
  have hlen := (jsonText_le h).2
  have htaskId := quoted_taskId hid
  have htaskDigest := quoted_digest hdigest
  have hlines : value.breaks ≤ 524000 := hshort
  have hmax : maxReceiptJsonBytes = 9437184 := by decide
  have hresult : maxResultJsonBytes = 8388608 := by decide
  have hfits : ∀ {key note : String}, quoted key = 8 → quoted note ≤ 24 →
      Fits host.toHost (.obj [("result", value), (key, .str note), ("task_digest", .str digest), ("task_id", .str task.id)]) := by
    intro key note hkey hnote
    rw [fits_iff host (by simp [Value.intsOk, fieldsIntsOk, hi]), length_record host.floats value hkey]
    omega
  have hsource : quoted "source" = 8 := by decide
  cases record with
  | executed =>
    have hstatus := field_of_text (shape_text h (show ("status", fun s => resultStatuses.contains s) ∈ textChecks by simp [textChecks]))
    rw [Record.receipt, finalReceipt, shape_status h]
    exact hfits (by decide) ((quoted_status (List.contains_iff_mem.mp hstatus.2)).trans (by decide))
  | remoteResult => exact hfits hsource (by decide : quoted "remote_result" ≤ 24)
  | remoteRecovery => exact hfits hsource (by decide : quoted "remote_result_recovery" ≤ 24)

/-! ## The messages of the checks -/

/-- What is said of every refusal. -/
def Fails {α : Type} (p : Failure → Prop) (x : Except Failure α) : Prop := ∀ failure, x = .error failure → p failure

section

variable {α β : Type} {p : Failure → Prop}

theorem fails_check {ok : Bool} {failure : Failure} (h : p failure) : Fails p (check ok failure) := by
  intro failure' heq
  unfold check at heq
  split at heq <;> cases heq
  exact h

theorem Fails.bind {x : Except Failure α} {f : α → Except Failure β} (h : Fails p x) (hf : ∀ a, Fails p (f a)) : Fails p (x >>= f) := by
  intro failure heq
  cases x with
  | error failure' =>
    cases heq
    exact h failure rfl
  | ok a => exact hf a failure heq

theorem fails_error {failure : Failure} (h : p failure) : Fails p (.error failure : Except Failure α) := by
  rintro _ ⟨⟩
  exact h

theorem fails_ok (a : α) : Fails p (.ok a : Except Failure α) := fun _ h => by cases h

end

/-- The message of a refusal is mild. -/
abbrev Mildly {α : Type} (n : Nat) (x : Except Failure α) : Prop := Fails (fun failure => Mild n failure.message) x

theorem mildly_contract (value : Value F) : Mildly 100 (validateResultContract value) := by
  unfold validateResultContract
  split
  · refine (fails_check (by decide)).bind fun _ => ?_
    split
    · exact fails_error (by decide)
    · exact (fails_check (by decide)).bind fun _ => fails_check (by decide)
  · exact fails_error (by decide)

theorem mildly_texts (value : Value F) {checks : List (String × (String → Bool))}
    (h : ∀ c ∈ checks, Mild 100 ("result " ++ c.1 ++ " invalid")) : Mildly 100 (checkTexts value checks) := by
  induction checks with
  | nil => exact fails_ok _
  | cons c rest ih =>
    obtain ⟨field, valid⟩ := c
    exact (fails_check (h _ List.mem_cons_self)).bind fun _ => ih fun c hc => h c (List.mem_cons_of_mem _ hc)

theorem mildly_shape (host : Host F) (value : Value F) : Mildly 100 (validateResultShape host value) := by
  have htexts : ∀ c ∈ textChecks, Mild 100 ("result " ++ c.1 ++ " invalid") := by
    simp only [textChecks, List.forall_mem_cons, List.not_mem_nil, false_imp_iff, implies_true, and_true]
    decide
  have hprovenance : ∀ c ∈ provenanceChecks, Mild 100 ("result " ++ c.1 ++ " invalid") := by
    simp only [provenanceChecks, List.forall_mem_cons, List.not_mem_nil, false_imp_iff, implies_true, and_true]
    decide
  refine (mildly_contract value).bind fun _ => (fails_check (by decide)).bind fun _ => (mildly_texts value htexts).bind fun _ =>
    (fails_check (by decide)).bind fun _ => (mildly_texts value hprovenance).bind fun _ => ?_
  have hbytes : Mildly 100 ((jsonBytes host value maxResultJsonBytes "result_too_large").getD (.ok [])) := by
    unfold jsonBytes
    cases host.print value with
    | none => exact fails_ok _
    | some data => exact (fails_check (by decide)).bind fun _ => fails_ok _
  split
  · exact fails_error (by decide)
  · next failure heq =>
    rw [heq] at hbytes
    exact fails_error (hbytes failure rfl)
  · exact fails_ok _

theorem mildly_remote (host : Host F) (value : Value F) (taskId : String) (action targetNode digest : Option String) :
    Mildly 100 (validateRemoteResult host value taskId action targetNode digest) := by
  have hshape := mildly_shape host value
  unfold validateRemoteResult
  cases hvalid : validateResultShape host value with
  | error failure => exact fails_error (hshape failure hvalid)
  | ok _ =>
    refine (fails_ok _).bind fun _ => (fails_check (by decide)).bind fun _ => (fails_check (by decide)).bind fun _ =>
      (fails_check (by decide)).bind fun _ => fails_check (by decide)

theorem mildly_receipt (host : Host F) (nodeId : String) (receipt : Value F) (task : Task F) (digest : String) :
    Mildly 100 (validateReceipt host nodeId receipt task digest) := by
  unfold validateReceipt
  split
  · refine (fails_check (by decide)).bind fun _ => ?_
    split
    · exact fails_ok _
    · exact fails_ok _
    · exact (mildly_remote host _ _ _ _ _).bind fun _ => fails_ok _
  · exact fails_error (by decide)

end LocalHand.Mailbox
