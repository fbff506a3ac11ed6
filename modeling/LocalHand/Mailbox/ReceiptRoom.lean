/-
How much room a receipt has for its result. A result is limited as a document of
its own, but the receipt prints it one level deeper, where each of its lines is
two bytes longer: the fixed slack holds the lines of an ordinary result only.
-/
import LocalHand.Mailbox.Published
import LocalHand.Lib.JsonIndent
import LocalHand.Lib.PyData

namespace LocalHand.Mailbox

open PyJson ResultReader
open Framing (Bytes)

variable {F : Type}

/-- `_json_bytes` without a limit. -/
def jsonText (fl : FloatText F) (value : Value F) : Bytes := encodeText (indent fl false 0 value ++ ['\n'])

/-- A host that prints as `json.dumps(value, ensure_ascii=False, indent=2)` does. -/
structure JsonHost (F : Type) extends Host F where
  floats : FloatText F
  print_eq : ∀ v, print v = if v.intsOk then some (jsonText floats v) else none

theorem load_jsonText (fl : FloatText F) {v : Value F} {raw : Bytes} (hw : v.WF)
    (h : (if v.intsOk then some (jsonText fl v) else none) = some raw) : (decodeText raw).bind (loads fl) = some v := by
  split at h
  · next hi =>
    cases h
    rw [jsonText, decode_encode, Option.bind_some]
    exact loads_indent fl false hw hi
  · cases h

theorem load_wf (fl : FloatText F) {v : Value F} {raw : Bytes} (h : (decodeText raw).bind (loads fl) = some v) : v.WF := by
  obtain ⟨text, -, htext⟩ := Option.bind_eq_some_iff.mp h
  exact loads_wf fl htext

/-- The standard library, with a `sha256`. -/
def standard (fl : FloatText F) (sha256 : { f : Bytes → String // ∀ raw, hexText 64 (f raw) = true }) : JsonHost F where
  load raw := (decodeText raw).bind (loads fl)
  print v := if v.intsOk then some (jsonText fl v) else none
  canonical v := (dumps fl false v).map encodeText
  sha256 := sha256.val
  load_wf _ _ h := load_wf fl h
  load_print _ _ hw h := load_jsonText fl hw h
  sha256_hex := sha256.property
  floats := fl
  print_eq _ := rfl

/-- The receipts that hold a result. -/
inductive Record where
  | executed | remoteResult | remoteRecovery
  deriving Repr, DecidableEq

/-- The third text of the receipt: the status of the result, or where it is from. -/
def Record.note (record : Record) (value : Value F) : String :=
  match record with
  | .executed => textOf value "status"
  | .remoteResult => "remote_result"
  | .remoteRecovery => "remote_result_recovery"

def Record.receipt (record : Record) (task : Task F) (digest : String) (value : Value F) : Value F :=
  match record with
  | .executed => finalReceipt task digest value
  | _ => receiptOf task digest (record.note value) value

/-- The receipt is serialised within its limit. -/
def Fits (host : Host F) (receipt : Value F) : Prop :=
  ∃ data, jsonBytes host receipt maxReceiptJsonBytes "receipt_too_large" = some (.ok data)

/-! ## Widths -/

def width (text : List Char) : Nat := (encodeText text).length

theorem width_eq (text : List Char) : width text = (text.map Char.utf8Size).sum := by
  rw [width, encodeText, List.length_flatMap]
  simp only [String.length_utf8EncodeChar]

@[simp] theorem width_nil : width [] = 0 := rfl

@[simp] theorem width_cons (c : Char) (text : List Char) : width (c :: text) = c.utf8Size + width text := by
  simp [width_eq]

@[simp] theorem width_append (text text' : List Char) : width (text ++ text') = width text + width text' := by
  simp [width_eq]

theorem width_line (depth : Nat) : width (line depth) = 1 + 2 * depth := by
  have hbreak : Char.utf8Size '\n' = 1 := rfl
  have hblank : Char.utf8Size ' ' = 1 := rfl
  simp only [width_eq, line, List.map_cons, List.map_replicate, List.sum_cons, List.sum_replicate, hbreak, hblank,
    nsmul_eq_mul, Nat.cast_id]
  omega

/-- A value one level deeper is two bytes a line longer. -/
theorem width_deeper (fl : FloatText F) (value : Value F) (depth : Nat) :
    width (indent fl false (depth + 1) value) = width (indent fl false depth value) + 2 * value.breaks := by
  have hblank : Char.utf8Size ' ' = 1 := rfl
  rw [width_eq, width_eq, indent_deeper fl false, hblank]

theorem length_jsonText (fl : FloatText F) (value : Value F) :
    (jsonText fl value).length = width (indent fl false 0 value) + 1 := by
  have hbreak : Char.utf8Size '\n' = 1 := rfl
  rw [jsonText, ← width, width_append, width_cons, width_nil, hbreak]

def quoted (s : String) : Nat := width (dumpString false s)

/-- The size of a record of a result and three texts. -/
theorem length_record (fl : FloatText F) (value : Value F) {key note digest id : String} (hkey : quoted key = 8) :
    (jsonText fl (.obj [("result", value), (key, .str note), ("task_digest", .str digest), ("task_id", .str id)])).length =
      (jsonText fl value).length + 2 * value.breaks + (64 + quoted note + quoted digest + quoted id) := by
  have hresult : width (dumpString false "result") = 8 := by decide
  have hdigest : width (dumpString false "task_digest") = 13 := by decide
  have hid : width (dumpString false "task_id") = 9 := by decide
  have hopen : Char.utf8Size '{' = 1 := rfl
  have hclose : Char.utf8Size '}' = 1 := rfl
  have hcomma : Char.utf8Size ',' = 1 := rfl
  have hcolon : Char.utf8Size ':' = 1 := rfl
  have hblank : Char.utf8Size ' ' = 1 := rfl
  unfold quoted at hkey ⊢
  simp only [length_jsonText, indent, indentFields, dump, width_cons, width_append, width_nil, width_line,
    width_deeper fl value 0, hresult, hkey, hdigest, hid, hopen, hclose, hcomma, hcolon, hblank]
  omega

/-! ## Receipts -/

theorem fits_iff (host : JsonHost F) {receipt : Value F} (hi : receipt.intsOk = true) :
    Fits host.toHost receipt ↔ (jsonText host.floats receipt).length ≤ maxReceiptJsonBytes := by
  unfold Fits jsonBytes
  rw [host.print_eq, if_pos hi, Option.map_some]
  by_cases hlen : (jsonText host.floats receipt).length ≤ maxReceiptJsonBytes
  · simp [hlen, check, bind, Except.bind, pure, Except.pure]
  · simp [hlen, check, bind, Except.bind]

theorem shape_ints (host : JsonHost F) {value : Value F} (h : validateResultShape host.toHost value = .ok ()) :
    value.intsOk = true := by
  simp only [validateResultShape, bind_ok_iff] at h
  obtain ⟨-, -, -, -, -, -, -, -, -, -, h⟩ := h
  by_contra hi
  rw [jsonBytes, host.print_eq, if_neg hi] at h
  cases h

theorem shape_status {host : Host F} {value : Value F} (h : validateResultShape host value = .ok ()) :
    fieldOf value "status" = .str (textOf value "status") := by
  have hvalid := shape_text h (show ("status", fun s => resultStatuses.contains s) ∈ textChecks by simp [textChecks])
  unfold fieldOf textOf
  unfold text? at hvalid ⊢
  split at hvalid
  · next s hs => simp only [hs, Option.getD_some]
  · cases hvalid

/-- **The room of a receipt.** A record of an accepted result is within its limit exactly when the
result's own text, two bytes for each of its lines and the rest of the record are. -/
theorem receipts_fit (host : JsonHost F) (task : Task F) (digest : String) {value : Value F}
    (h : validateResultShape host.toHost value = .ok ()) (record : Record) :
    Fits host.toHost (record.receipt task digest value) ↔
      (jsonText host.floats value).length + 2 * value.breaks +
        (64 + quoted (record.note value) + quoted digest + quoted task.id) ≤ maxReceiptJsonBytes := by
  have hi := shape_ints host h
  have hsource : quoted "source" = 8 := by decide
  have hstatus : quoted "status" = 8 := by decide
  have hreceipt : ∃ key, quoted key = 8 ∧ record.receipt task digest value =
      .obj [("result", value), (key, .str (record.note value)), ("task_digest", .str digest), ("task_id", .str task.id)] := by
    cases record with
    | executed => exact ⟨"status", hstatus, by rw [Record.receipt, finalReceipt, shape_status h]; rfl⟩
    | remoteResult => exact ⟨"source", hsource, rfl⟩
    | remoteRecovery => exact ⟨"source", hsource, rfl⟩
  obtain ⟨key, hkey, hreceipt⟩ := hreceipt
  rw [hreceipt, fits_iff host (by simp [Value.intsOk, fieldsIntsOk, hi]), length_record host.floats value hkey]

/-! ### A result of many lines -/

def zeroDigest : String := "0000000000000000000000000000000000000000000000000000000000000000"

theorem zeroDigest_hex : hexText 64 zeroDigest = true := by decide

def zeroHost : JsonHost Empty :=
  standard noFloats ⟨fun _ => zeroDigest, fun _ => zeroDigest_hex⟩

def linesTask : Task Empty := ⟨.obj [], "LH0001", "fs.list"⟩

/-- A success whose details list a number of zeros. -/
def linesResult (n : Nat) : Value Empty :=
  resultSuccess linesTask zeroDigest "node" ⟨zeroDigest, zeroDigest, zeroDigest⟩
    (.obj [("entries", .arr (.int 0 :: List.replicate n (.int 0)))])

theorem width_zeros (n depth : Nat) :
    width (indentItems noFloats false depth (List.replicate n (.int 0))) =
      width (indentItems noFloats false depth []) + (2 * depth + 5) * n := by
  have hcomma : Char.utf8Size ',' = 1 := rfl
  have hzero : width (dump noFloats false (.int 0)) = 1 := by decide
  induction n with
  | zero => rfl
  | succ n ih =>
    simp only [List.replicate_succ, indentItems, indent, width_cons, width_append, width_line] at ih ⊢
    rw [hcomma, hzero, ih]
    ring

theorem breaks_zeros (n : Nat) : itemsBreaks (List.replicate n (Value.int (F := Empty) 0)) = n + 1 := by
  induction n with
  | zero => rfl
  | succ n ih =>
    simp only [List.replicate_succ, itemsBreaks, ih, Value.breaks]
    omega

theorem length_linesResult (n : Nat) :
    (jsonText noFloats (linesResult n)).length = (jsonText noFloats (linesResult 0)).length + 9 * n := by
  have hzeros := width_zeros n (0 + 1 + 1)
  simp only [length_jsonText, linesResult, resultSuccess, resultOf, indent, indentFields, width_cons, width_append, hzeros,
    List.replicate_zero]
  omega

theorem breaks_linesResult (n : Nat) : (linesResult n).breaks = n + 19 := by
  simp only [linesResult, resultSuccess, resultOf, Value.breaks, fieldsBreaks, breaks_zeros]
  omega

theorem length_linesResult_zero : (jsonText noFloats (linesResult 0)).length = 649 := by decide +kernel

theorem zeros_intsOk (n : Nat) : itemsIntsOk (List.replicate n (Value.int (F := Empty) 0)) = true := by
  have hzero : (Value.int (F := Empty) 0).intsOk = true := by decide
  induction n with
  | zero => rfl
  | succ n ih => rw [List.replicate_succ, itemsIntsOk, hzero, ih, Bool.and_self]

theorem linesResult_valid {n : Nat} (hn : n ≤ 900000) : validateResultShape zeroHost.toHost (linesResult n) = .ok () := by
  have hlen : (jsonText noFloats (linesResult n)).length ≤ maxResultJsonBytes := by
    rw [length_linesResult, length_linesResult_zero, maxResultJsonBytes]
    omega
  have hzero : (Value.int (F := Empty) 0).intsOk = true := by decide
  have hi : (linesResult n).intsOk = true := by
    have hentries : (Value.arr (.int 0 :: List.replicate n (.int (F := Empty) 0))).intsOk = true := by
      rw [Value.intsOk, itemsIntsOk, hzero, zeros_intsOk, Bool.and_self]
    simp only [linesResult, resultSuccess, resultOf, Value.intsOk, fieldsIntsOk, Bool.and_true, Bool.true_and]
    exact hentries
  have hprint : zeroHost.print (linesResult n) = some (jsonText noFloats (linesResult n)) := if_pos hi
  have hbytes : jsonBytes zeroHost.toHost (linesResult n) maxResultJsonBytes "result_too_large" =
      some (.ok (jsonText noFloats (linesResult n))) := by
    rw [jsonBytes, hprint, Option.map_some, check, if_pos (by simpa using hlen)]
    rfl
  have hcontract : validateResultContract (linesResult n) = .ok () := by rfl
  have hschema : QuotaPayload.isStr ((linesResult n).get? "schema_version") resultSchema = true := by rfl
  have htexts : checkTexts (linesResult n) textChecks = .ok () := by rfl
  have hnode : text? (linesResult n) "node_id" = text? (linesResult n) "target_node" := by rfl
  have hprovenance : checkTexts (linesResult n) provenanceChecks = .ok () := by rfl
  rw [validateResultShape, hcontract]
  simp only [hschema, htexts, hnode, hprovenance, hbytes, check, decide_true, if_true]
  rfl

theorem linesResult_overflows {n : Nat} (hlow : 870000 ≤ n) (hn : n ≤ 900000) :
    ¬ Fits zeroHost.toHost (Record.remoteResult.receipt linesTask zeroDigest (linesResult n)) := by
  have hi := shape_ints zeroHost (linesResult_valid hn)
  have hsource : quoted "source" = 8 := by decide
  have hints : (Record.remoteResult.receipt linesTask zeroDigest (linesResult n)).intsOk = true := by
    simp only [Record.receipt, receiptOf, Value.intsOk, fieldsIntsOk, hi, Bool.and_true]
  have hrecord : (jsonText noFloats (Record.remoteResult.receipt linesTask zeroDigest (linesResult n))).length = _ :=
    length_record noFloats (linesResult n) hsource
  rw [length_linesResult, length_linesResult_zero, breaks_linesResult] at hrecord
  have hmax : maxReceiptJsonBytes = 9437184 := by decide
  intro hfits
  have hle : (jsonText noFloats (Record.remoteResult.receipt linesTask zeroDigest (linesResult n))).length ≤ maxReceiptJsonBytes :=
    (fits_iff zeroHost hints).mp hfits
  omega

/-- 900001 zeros make an accepted result of 8100649 bytes, and a receipt of more than 9437184. -/
theorem receipt_overflows : ¬ ∀ (host : JsonHost Empty) (task : Task Empty) (digest : String) (value : Value Empty) (record : Record),
    validateResultShape host.toHost value = .ok () → Fits host.toHost (record.receipt task digest value) := by
  intro h
  obtain ⟨n, hlow, hn⟩ : ∃ n, 870000 ≤ n ∧ n ≤ 900000 := ⟨900000, by omega, by omega⟩
  exact linesResult_overflows hlow hn (h zeroHost linesTask zeroDigest (linesResult n) .remoteResult (linesResult_valid hn))

/-- The condition holds of results of few lines. -/
theorem receipts_fit_one : validateResultShape zeroHost.toHost (linesResult 1) = .ok () ∧
    (Fits zeroHost.toHost (Record.executed.receipt linesTask zeroDigest (linesResult 1)) ↔
      (jsonText zeroHost.floats (linesResult 1)).length + 2 * (linesResult 1).breaks +
        (64 + quoted (Record.executed.note (linesResult 1)) + quoted zeroDigest + quoted linesTask.id) ≤ maxReceiptJsonBytes) :=
  ⟨linesResult_valid (by omega), receipts_fit zeroHost linesTask zeroDigest (linesResult_valid (by omega)) .executed⟩

end LocalHand.Mailbox
