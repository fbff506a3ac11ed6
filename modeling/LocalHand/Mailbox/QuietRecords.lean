/-
The records a worker makes of a task while nothing outside fails: the refusal of a
task says no more than the task does, and each record fits where the task's action
leaves room.
-/
import LocalHand.Mailbox.QuietPublish

namespace LocalHand.Mailbox

open PyJson Program Directory
open Framing (Bytes)

variable {F R : Type}

/-! ## Refused tasks -/

/-- A refusal with a message of so many characters. -/
structure Stated (n : Nat) (failure : Failure) : Prop where
  status : failure.status = "rejected"
  code : failure.code ≠ "" ∧ failure.code.toList.length ≤ 40
  message : failure.message ≠ ""
  length : failure.message.toList.length ≤ n

theorem stated_rejected {n : Nat} {code message : String} (hcode : code ≠ "" ∧ code.toList.length ≤ 40) (hmessage : message ≠ "") (hlen : message.toList.length ≤ n) :
    Stated n (rejected code message) := ⟨rfl, hcode, hmessage, hlen⟩

theorem ne_empty_of_length {s : String} {n : Nat} (h : s.toList.length = n + 1) : s ≠ "" := by
  rintro rfl
  cases h

theorem joined_length (names : List String) : (joined names).toList.length ≤ (names.map fun name => name.toList.length + 2).sum := by
  induction names with
  | nil => decide
  | cons name rest ih =>
    cases rest with
    | nil => simp [joined]
    | cons other rest =>
      rw [joined, String.intercalate_cons_cons, String.toList_append, String.toList_append, List.length_append, List.length_append,
        List.map_cons, List.sum_cons]
      have hsep : (", ".toList).length = 2 := rfl
      rw [joined] at ih
      omega

theorem names_length (fields : List (String × Value F)) : ((fields.map (·.1)).map fun name => name.toList.length + 2).sum ≤ fieldsChars fields := by
  induction fields with
  | nil => simp
  | cons f rest ih =>
    obtain ⟨k, v⟩ := f
    simp only [List.map_cons, List.sum_cons, fieldsChars] at ih ⊢
    omega

theorem lookup_chars {fields : List (String × Value F)} {name : String} {v : Value F} (h : lookup fields name = some v) :
    v.chars ≤ fieldsChars fields := by
  induction fields with
  | nil => cases h
  | cons f rest ih =>
    obtain ⟨k, x⟩ := f
    rw [fieldsChars]
    by_cases hk : k = name
    · rw [lookup, List.find?_cons_of_pos (by simpa using hk)] at h
      cases h
      show x.chars ≤ _
      omega
    · rw [lookup, List.find?_cons_of_neg (by simpa using hk)] at h
      have := ih h
      omega

theorem joined_le {names : List String} {m n : Nat} (hlen : ∀ name ∈ names, name.toList.length ≤ m) (hcount : names.length ≤ n) :
    (joined names).toList.length ≤ (m + 2) * n := by
  refine (joined_length names).trans ?_
  have hsum : (names.map fun name => name.toList.length + 2).sum ≤ (names.map fun name => name.toList.length + 2).length • (m + 2) :=
    List.sum_le_card_nsmul _ _ fun k hk => by
      obtain ⟨name, hname, rfl⟩ := List.mem_map.mp hk
      have := hlen name hname
      omega
  rw [List.length_map, nsmul_eq_mul, Nat.cast_id] at hsum
  calc _ ≤ names.length * (m + 2) := hsum
    _ ≤ n * (m + 2) := Nat.mul_le_mul_right _ hcount
    _ = (m + 2) * n := Nat.mul_comm _ _

/-- What the table of the actions holds. -/
theorem schema_small {action : String} {required optional : List String} (h : actionParams.find? (·.1 = action) = some (action, required, optional)) :
    action.toList.length ≤ 30 ∧ required.length ≤ 4 ∧ ∀ name ∈ required ++ optional, name.toList.length ≤ 20 := by
  have hmem := List.mem_of_find?_eq_some h
  have hall : ∀ row ∈ actionParams, row.1.toList.length ≤ 30 ∧ row.2.1.length ≤ 4 ∧ ∀ name ∈ row.2.1 ++ row.2.2, name.toList.length ≤ 20 := by
    decide
  exact hall _ hmem

theorem stated_params {params : List (String × Value F)} {names : List String} (h : ∀ name ∈ names, name.toList.length ≤ 20) :
    Fails (Stated 60) (validateParams params names) := by
  induction names with
  | nil => exact fails_ok _
  | cons name rest ih =>
    have hname := h name List.mem_cons_self
    have hmessage : ∀ text : String, 0 < text.toList.length → text.toList.length ≤ 40 → Stated 60 (rejected "invalid_params" (name ++ text)) := by
      intro text hpos hlen
      refine stated_rejected (by decide) (fun hempty => ?_) ?_
      · have hzero := congrArg (fun s : String => s.toList.length) hempty
        simp only [String.toList_append, List.length_append, String.toList_empty, List.length_nil] at hzero
        omega
      · rw [String.toList_append, List.length_append]
        omega
    unfold validateParams
    split
    · exact (fails_check (hmessage " must be a non-empty string" (by decide) (by decide))).bind fun _ =>
        ih fun other hother => h other (List.mem_cons_of_mem _ hother)
    · exact fails_error (hmessage " must be a string" (by decide) (by decide))

theorem stated_front {n : Nat} {code text : String} {k : Nat} (hcode : code ≠ "" ∧ code.toList.length ≤ 40) (front : String) (hfront : front.toList.length = k + 1)
    (hlen : front.toList.length + text.toList.length ≤ n) : Stated n (rejected code (front ++ text)) := by
  refine stated_rejected hcode (fun hempty => ?_) (by rw [String.toList_append, List.length_append]; exact hlen)
  have hzero := congrArg (fun s : String => s.toList.length) hempty
  simp only [String.toList_append, List.length_append, String.toList_empty, List.length_nil] at hzero
  omega

theorem Stated.mono {n m : Nat} {failure : Failure} (h : Stated n failure) (hle : n ≤ m) : Stated m failure :=
  ⟨h.status, h.code, h.message, h.length.trans hle⟩

theorem Fails.mono {α : Type} {p q : Failure → Prop} {x : Except Failure α} (h : Fails p x) (hpq : ∀ failure, p failure → q failure) :
    Fails q x := fun failure heq => hpq failure (h failure heq)

theorem stated_action {action : String} (params : List (String × Value F)) :
    Fails (Stated (action.toList.length + fieldsChars params + 200)) (validateActionParams action params) := by
  unfold validateActionParams
  split
  · exact fails_error (stated_front (by decide) "action not allowlisted: " (by decide : _ = 23 + 1)
      (by have : ("action not allowlisted: ".toList).length = 24 := by decide
          omega))
  · next name required optional hfind =>
    have hname : name = action := by simpa using List.find?_some hfind
    subst hname
    obtain ⟨hlength, hrequired, hnames⟩ := schema_small hfind
    have hmissing : (joined (required.filter fun name => (lookup params name).isNone)).toList.length ≤ 88 :=
      joined_le (m := 20) (n := 4) (fun name hmem => hnames name (List.mem_append_left _ (List.mem_filter.mp hmem).1))
        ((List.length_filter_le _ _).trans hrequired)
    have hunknown : (joined ((params.map (·.1)).filter fun name => !(required ++ optional).contains name)).toList.length ≤
        fieldsChars params := by
      refine ((joined_length _).trans ?_).trans (names_length params)
      exact List.Sublist.sum_le_sum (List.filter_sublist.map _) fun _ _ => Nat.zero_le _
    refine (fails_check ?_).bind fun _ => (fails_check ?_).bind fun _ => (stated_params fun other hother => ?_).mono fun failure h => h.mono (by omega)
    · rw [String.append_assoc, String.append_assoc]
      refine stated_front (by decide) "missing required params for " (by decide : _ = 27 + 1) ?_
      have hfront : ("missing required params for ".toList).length = 28 := by decide
      have hcolon : (": ".toList).length = 2 := by decide
      simp only [String.toList_append, List.length_append]
      omega
    · rw [String.append_assoc, String.append_assoc]
      refine stated_front (by decide) "unknown params for " (by decide : _ = 18 + 1) ?_
      have hfront : ("unknown params for ".toList).length = 19 := by decide
      have hcolon : (": ".toList).length = 2 := by decide
      simp only [String.toList_append, List.length_append]
      omega
    · rw [List.mem_mergeSort, List.mem_append] at hother
      refine hnames other (List.mem_append.mpr (hother.imp id fun h => ?_))
      exact (List.mem_filter.mp h).1

theorem text_chars {task : Value F} {key text : String} (h : text? task key = some text) : text.toList.length ≤ task.chars := by
  unfold text? at h
  split at h
  · next s hget =>
    cases h
    cases task with
    | obj fields =>
      have hchars := lookup_chars hget
      simp only [Value.chars] at hchars ⊢
      omega
    | _ => cases hget
  · cases h

/-- The refusal of a task quotes its action and the names of its parameters only. -/
theorem stated_task (task : Value F) : Fails (Stated (2 * task.chars + 200)) (validateTask task) := by
  have hfixed : ∀ {code message : String}, code ≠ "" ∧ code.toList.length ≤ 40 → message ≠ "" → message.toList.length ≤ 200 →
      Stated (2 * task.chars + 200) (rejected code message) :=
    fun hcode hmessage hlen => stated_rejected hcode hmessage (by omega)
  have henvelope : Fails (Stated (2 * task.chars + 200)) (validateTaskEnvelope task) := by
    unfold validateTaskEnvelope
    split
    · exact (fails_check (hfixed (by decide) (by decide) (by decide))).bind fun _ =>
        (fails_check (hfixed (by decide) (by decide) (by decide))).bind fun _ => fails_check (hfixed (by decide) (by decide) (by decide))
    · exact fails_error (hfixed (by decide) (by decide) (by decide))
  refine henvelope.bind fun _ => ?_
  unfold validateTaskContract
  split
  · next fields =>
    split
    · next action haction =>
      refine (fails_check (hfixed (by decide) (by decide) (by decide))).bind fun _ => ?_
      split
      · exact fails_error (hfixed (by decide) (by decide) (by decide))
      · next params hparams =>
        have hchars := text_chars haction
        have hinner := lookup_chars hparams
        refine ((stated_action params).mono fun failure h => h.mono ?_).bind fun _ =>
          fails_check (hfixed (by decide) (by decide) (by decide))
        simp only [Value.chars] at hchars hinner ⊢
        omega
      · exact fails_error (hfixed (by decide) (by decide) (by decide))
    · exact fails_error (hfixed (by decide) (by decide) (by decide))
  · exact fails_error (hfixed (by decide) (by decide) (by decide))

/-! ## Records of a task -/

def Provenance.Valid (p : Provenance) : Prop :=
  isCommit p.implementationCommit = true ∧ isDigest p.packageDigest = true ∧ isDigest p.profileDigest = true

/-- The result of a task with an outcome. -/
def envelopeOf (task : Task F) (digest nodeId : String) (p : Provenance) (status : String) (details errorCode error : Value F) : Envelope F where
  action := task.action
  details := details
  error := error
  errorCode := errorCode
  implementationCommit := p.implementationCommit
  nodeId := nodeId
  packageDigest := p.packageDigest
  profileDigest := p.profileDigest
  status := status
  taskDigest := digest
  taskId := task.id
  workerVersion := workerVersion

theorem resultOf_envelope (task : Task F) (digest nodeId : String) (p : Provenance) (status : String) (details errorCode error : Value F) :
    resultOf task digest nodeId p status details errorCode error = (envelopeOf task digest nodeId p status details errorCode error).value := rfl

section

variable {host : JsonHost F} {nodeId : String} {tasks : Dir Bytes} {task : Task F} {digest : String}

theorem Addressed.identity (h : Addressed host nodeId tasks task digest) : isTaskId task.id = true ∧ task.action ≠ "" := by
  have htrusted := h.trusted
  unfold trustedLocalIdentity at htrusted
  split at htrusted
  · split at htrusted
    · next hall =>
      simp only [Bool.and_eq_true, decide_eq_true_eq] at hall
      rw [← Option.some.inj htrusted]
      exact ⟨hall.1.1.2, hall.2⟩
    · cases htrusted
  · cases htrusted

theorem Addressed.hex (h : Addressed host nodeId tasks task digest) : hexText 64 digest = true := by
  have hdigest := h.digest
  obtain ⟨raw, -, rfl⟩ := Option.map_eq_some_iff.mp hdigest
  exact host.sha256_hex raw

theorem Addressed.isDigest (h : Addressed host nodeId tasks task digest) : isDigest digest = true := isDigest_of_hex h.hex

/-- A task whose action and node leave room for the rest of a record. -/
def Roomy (nodeId : String) (task : Task F) : Prop :=
  quoted task.action + 2 * quoted nodeId + quoted workerVersion + spareBytes ≤ maxResultJsonBytes

theorem envelope_valid (h : Addressed host nodeId tasks task digest) (hnode : nodeId ≠ "") {p : Provenance} (hp : p.Valid) {status : String}
    {details : List (String × Value F)} {errorCode error : Value F} (hstatus : status ∈ resultStatuses) (htold : Told status errorCode error) :
    (envelopeOf task digest nodeId p status (.obj details) errorCode error).Valid where
  details := ⟨details, rfl⟩
  status := hstatus
  told := htold
  action := h.identity.2
  implementationCommit := hp.1
  nodeId := hnode
  packageDigest := hp.2.1
  profileDigest := hp.2.2
  taskDigest := h.isDigest
  taskId := h.identity.1
  workerVersion := by show workerVersion ≠ ""; decide

theorem envelope_slim (hroom : Roomy nodeId task) (p : Provenance) (status : String) (details errorCode error : Value F) :
    Slim (envelopeOf task digest nodeId p status details errorCode error).value := hroom

/-- A result of a task, as the fields say. -/
theorem envelope_isOf {e : Envelope F} (hshape : validateResultShape host.toHost e.value = .ok ()) (hid : e.taskId = task.id)
    (haction : e.action = task.action) (hnode : e.nodeId = nodeId) (hdigest : e.taskDigest = digest) :
    IsOf host nodeId e.value task digest :=
  (isOf_iff hshape task digest).mpr ⟨hid, haction, hnode, by rw [hdigest]⟩

end

/-! ## What a record takes -/

theorem breaks_value (e : Envelope F) : e.value.breaks = 15 + e.details.breaks + e.error.breaks + e.errorCode.breaks := by
  simp only [Envelope.value, Envelope.fields, Value.breaks, fieldsBreaks]
  omega

/-- Details of not too many lines, and of less than ten petabytes. -/
structure Fair (fl : FloatText F) (details : Value F) : Prop where
  lines : details.breaks ≤ maxLines - 15
  size : width (indent fl false 1 details) ≤ 10 ^ 16

/-- What there is to say is of less than ten petabytes. -/
def FairTold (errorCode error : Value F) : Prop :=
  ∀ text, errorCode = .str text ∨ error = .str text → quoted text ≤ 10 ^ 16

theorem told_breaks {status : String} {errorCode error : Value F} (h : Told status errorCode error) :
    error.breaks = 0 ∧ errorCode.breaks = 0 := by
  rcases h with ⟨-, rfl, rfl⟩ | ⟨-, code, message, rfl, -, rfl, -⟩ <;> simp [Value.breaks]

theorem told_width {status : String} {errorCode error : Value F} (h : Told status errorCode error) (hfair : FairTold errorCode error)
    (fl : FloatText F) : width (indent fl false 1 error) ≤ 10 ^ 16 ∧ width (indent fl false 1 errorCode) ≤ 10 ^ 16 := by
  rcases h with ⟨-, rfl, rfl⟩ | ⟨-, code, message, rfl, -, rfl, -⟩
  · have hnull : width (indent fl false 1 (.null : Value F)) = 4 := by
      show width ['n', 'u', 'l', 'l'] = 4
      decide
    omega
  · exact ⟨hfair message (.inr rfl), hfair code (.inl rfl)⟩

theorem told_ints {status : String} {errorCode error : Value F} (h : Told status errorCode error) :
    error.intsOk = true ∧ errorCode.intsOk = true := by
  rcases h with ⟨-, rfl, rfl⟩ | ⟨-, code, message, rfl, -, rfl, -⟩ <;> simp [Value.intsOk]

theorem summary_breaks (host : Host F) (e : Envelope F) : (Value.obj (summaryOf host e)).breaks = 8 := by
  unfold summaryOf
  cases text? e.value "error_code" <;> rfl

theorem summary_wf (host : Host F) (e : Envelope F) : (Value.obj (summaryOf host e)).WF := by
  have hkeys : ["original_details_omitted", "original_error_code", "original_error_code_truncated", "original_result_json_bytes",
      "original_result_sha256", "original_status", "result_limit_bytes"].Pairwise (· < ·) := by decide
  unfold summaryOf
  cases text? e.value "error_code" <;>
    exact ⟨List.pairwise_map.mp hkeys, trivial, trivial, trivial, trivial, trivial, trivial, trivial, trivial⟩

theorem told_wf {status : String} {errorCode error : Value F} (h : Told status errorCode error) : error.WF ∧ errorCode.WF := by
  rcases h with ⟨-, rfl, rfl⟩ | ⟨-, code, message, rfl, -, rfl, -⟩ <;> exact ⟨trivial, trivial⟩

theorem Envelope.Valid.size_lt {e : Envelope F} (h : e.Valid) (hslim : Slim e.value) (fl : FloatText F) (hfair : Fair fl e.details)
    (htold : FairTold e.errorCode e.error) : (jsonText fl e.value).length < 10 ^ 18 := by
  have hcommit := quoted_commit h.implementationCommit
  have hpackage := quoted_digest h.packageDigest
  have hprofile := quoted_digest h.profileDigest
  have hdigest := quoted_digest h.taskDigest
  have hid := quoted_taskId h.taskId
  have hstatus := quoted_status h.status
  have hroom : quoted e.action + 2 * quoted e.nodeId + quoted e.workerVersion + spareBytes ≤ maxResultJsonBytes := hslim
  have hspare : spareBytes = 1862 := rfl
  have hmax : maxResultJsonBytes = 8388608 := by decide
  have hdetails := hfair.size
  obtain ⟨herror, hcode⟩ := told_width h.told htold fl
  rw [length_envelope]
  omega

/-- What is kept of a result of a task: it fits, and is still of the task. -/
theorem Envelope.Valid.kept {e : Envelope F} (h : e.Valid) (host : JsonHost F) (hi : e.details.intsOk = true) (hslim : Slim e.value)
    (hfair : Fair host.floats e.details) (htold : FairTold e.errorCode e.error)
    (hwf : e.details.WF) : ∃ e' : Envelope F, boundedExecutionResult host.toHost e.value = .ok e'.value ∧ e'.value.WF ∧
      validateResultShape host.toHost e'.value = .ok () ∧ Short e'.value ∧ Slim e'.value ∧ e'.taskId = e.taskId ∧ e'.action = e.action ∧ e'.nodeId = e.nodeId ∧ e'.taskDigest = e.taskDigest := by
  have hints := Envelope.ints hi (told_ints h.told).1 (told_ints h.told).2
  obtain ⟨e', hbounded, -, hshape, hcases⟩ := h.bounded host hints (h.size_lt hslim host.floats hfair htold) hslim
  refine ⟨e', hbounded, ?_, hshape, ?_⟩
  · rcases hcases with rfl | rfl
    · exact Envelope.wf hwf (told_wf h.told).1 (told_wf h.told).2
    · exact Envelope.wf (summary_wf host.toHost e) trivial trivial
  rcases hcases with rfl | rfl
  · refine ⟨?_, hslim, rfl, rfl, rfl, rfl⟩
    have hlines := hfair.lines
    have hmax : maxLines = 524000 := rfl
    obtain ⟨herror, hcode⟩ := told_breaks h.told
    rw [Short, breaks_value]
    omega
  · refine ⟨?_, hslim, rfl, rfl, rfl, rfl⟩
    have hbreaks := summary_breaks host.toHost e
    have hmax : maxLines = 524000 := rfl
    rw [Short, breaks_value]
    show 15 + (Value.obj (summaryOf host.toHost e)).breaks + 0 + 0 ≤ maxLines
    omega

/-! ## Results that are kept -/

/-- A result of the task that leaves room for a receipt and for a conflict record. -/
structure Held (host : JsonHost F) (nodeId : String) (task : Task F) (digest : String) (value : Value F) : Prop where
  wf : value.WF
  slim : Slim value
  short : Short value
  own : IsOf host nodeId value task digest

/-- What is kept of it is such a result. -/
def Keepable (host : JsonHost F) (nodeId : String) (task : Task F) (digest : String) (value : Value F) : Prop :=
  ∃ value', boundedExecutionResult host.toHost value = .ok value' ∧ Held host nodeId task digest value'

theorem Held.keepable {host : JsonHost F} {nodeId : String} {task : Task F} {digest : String} {value : Value F}
    (h : Held host nodeId task digest value) : Keepable host nodeId task digest value := by
  refine ⟨value, ?_, h⟩
  rw [boundedExecutionResult, remote_shape h.own]

theorem Envelope.Valid.keepable {host : JsonHost F} {nodeId : String} {task : Task F} {digest : String} {e : Envelope F} (h : e.Valid)
    (hsame : e.taskId = task.id ∧ e.action = task.action ∧ e.nodeId = nodeId ∧ e.taskDigest = digest) (hi : e.details.intsOk = true)
    (hslim : Slim e.value) (hfair : Fair host.floats e.details) (htold : FairTold e.errorCode e.error) (hwf : e.details.WF) :
    Keepable host nodeId task digest e.value := by
  obtain ⟨e', hbounded, hwf', hshape, hshort, hslim', hid, haction, hnode, hdigest⟩ := h.kept host hi hslim hfair htold hwf
  exact ⟨e'.value, hbounded, hwf', hslim', hshort, envelope_isOf hshape (hid.trans hsame.1) (haction.trans hsame.2.1) (hnode.trans hsame.2.2.1)
    (hdigest.trans hsame.2.2.2)⟩

theorem fair_nil (fl : FloatText F) : Fair fl (.obj ([] : List (String × Value F))) where
  lines := by
    show 0 ≤ maxLines - 15
    omega
  size := by
    have hwidth : width (indent fl false 1 (.obj ([] : List (String × Value F)))) = 2 := by
      show width ['{', '}'] = 2
      decide
    omega

/-- What a handler raises, or a check: a result can say it. -/
structure Sayable (fl : FloatText F) (raised : Raised F) : Prop where
  status : raised.failure.status ∈ resultStatuses ∧ raised.failure.status ≠ "succeeded"
  code : raised.failure.code ≠ "" ∧ quoted raised.failure.code ≤ 10 ^ 16
  message : raised.failure.message ≠ "" ∧ quoted raised.failure.message ≤ 10 ^ 16
  ints : fieldsIntsOk raised.details = true
  fair : Fair fl (.obj raised.details)
  wf : (Value.obj raised.details).WF

section

variable {host : JsonHost F} {nodeId : String} {tasks : Dir Bytes} {task : Task F} {digest : String}

theorem Sayable.keepable {raised : Raised F} (h : Sayable host.floats raised) (ha : Addressed host nodeId tasks task digest) (hnode : nodeId ≠ "")
    (hroom : Roomy nodeId task) {p : Provenance} (hp : p.Valid) :
    Keepable host nodeId task digest (resultError task digest nodeId raised p) := by
  have hvalid : (envelopeOf task digest nodeId p raised.failure.status (.obj raised.details) (.str raised.failure.code)
      (.str raised.failure.message)).Valid := envelope_valid ha hnode hp h.status.1
    (.inr ⟨h.status.2, raised.failure.code, raised.failure.message, rfl, h.code.1, rfl, h.message.1⟩)
  have htold : FairTold (.str raised.failure.code : Value F) (.str raised.failure.message) := by
    intro text htext
    rcases htext with htext | htext
    · rw [← Value.str.inj htext]
      exact h.code.2
    · rw [← Value.str.inj htext]
      exact h.message.2
  rw [show resultError task digest nodeId raised p = (envelopeOf task digest nodeId p raised.failure.status (.obj raised.details)
    (.str raised.failure.code) (.str raised.failure.message)).value from rfl]
  exact hvalid.keepable ⟨rfl, rfl, rfl, rfl⟩ h.ints (envelope_slim hroom _ _ _ _ _) h.fair htold h.wf

theorem sayable_failure (fl : FloatText F) {failure : Failure} (hstatus : failure.status ∈ resultStatuses ∧ failure.status ≠ "succeeded")
    (hcode : failure.code ≠ "" ∧ quoted failure.code ≤ 10 ^ 16) (hmessage : failure.message ≠ "" ∧ quoted failure.message ≤ 10 ^ 16) :
    Sayable fl (⟨failure, []⟩ : Raised F) :=
  ⟨hstatus, hcode, hmessage, rfl, fair_nil fl, List.Pairwise.nil, trivial⟩

/-- A refusal of a task that was read from its file can be said. -/
theorem sayable_refused (fl : FloatText F) (ha : Addressed host nodeId tasks task digest)
    (hchars : ∀ raw v, host.load raw = some v → v.chars ≤ raw.length) {failure : Failure} (h : validateTask task.value = .error failure) :
    Sayable fl (⟨failure, []⟩ : Raised F) := by
  have hstated := stated_task task.value failure h
  obtain ⟨raw, -, hlen, hload⟩ := ha.loaded
  have hsize := hchars raw _ hload
  have hmax : maxTaskJsonBytes = 8388608 := by decide
  have hlength := hstated.length
  have hcodeLength := hstated.code.2
  have hmessage := quoted_le failure.message
  have hcode := quoted_le failure.code
  refine sayable_failure fl ?_ ⟨hstated.code.1, by omega⟩ ⟨hstated.message, by omega⟩
  rw [hstated.status]
  decide

/-- The outcome of a handler that returned: its result, or a refusal of it. -/
theorem bounded_success (ha : Addressed host nodeId tasks task digest) (hnode : nodeId ≠ "") (hroom : Roomy nodeId task) {p : Provenance}
    (hp : p.Valid) {fields : List (String × Value F)} (hwf : (Value.obj fields).WF) (hfair : Fair host.floats (.obj fields)) :
    (∃ value, boundedExecutionResult host.toHost (resultSuccess task digest nodeId p (.obj fields)) = .ok value ∧
        Held host nodeId task digest value) ∨
      ∃ failure, boundedExecutionResult host.toHost (resultSuccess task digest nodeId p (.obj fields)) = .error failure ∧
        Sayable host.floats (⟨failure, []⟩ : Raised F) := by
  have hvalid : (envelopeOf task digest nodeId p "succeeded" (.obj fields) .null .null).Valid :=
    envelope_valid ha hnode hp (by decide) (.inl ⟨rfl, rfl, rfl⟩)
  rw [show resultSuccess task digest nodeId p (.obj fields) = (envelopeOf task digest nodeId p "succeeded" (.obj fields) .null .null).value
    from rfl]
  by_cases hi : fieldsIntsOk fields = true
  · have htold : FairTold (.null : Value F) .null := by
      intro text htext
      rcases htext with htext | htext <;> cases htext
    exact .inl (hvalid.keepable ⟨rfl, rfl, rfl, rfl⟩ hi (envelope_slim hroom _ _ _ _ _) hfair htold hwf)
  · have hints : (envelopeOf task digest nodeId p "succeeded" (.obj fields) .null .null).value.intsOk = false := by
      simp [Envelope.value, Envelope.fields, envelopeOf, Value.intsOk, fieldsIntsOk, hi]
    have hcode : quoted "result_invalid" = 16 := by decide
    have hmessage : quoted "Result cannot be represented as UTF-8 JSON" = 44 := by decide
    refine .inr ⟨indeterminate "result_invalid" "Result cannot be represented as UTF-8 JSON", ?_, sayable_failure _ ⟨by decide, by decide⟩
      ⟨by decide, ?_⟩ ⟨by decide, ?_⟩⟩
    · rw [boundedExecutionResult, hvalid.unprintable hints]
      rfl
    · show quoted "result_invalid" ≤ 10 ^ 16
      omega
    · show quoted "Result cannot be represented as UTF-8 JSON" ≤ 10 ^ 16
      omega

end

end LocalHand.Mailbox
