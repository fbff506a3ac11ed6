/-
`publish_outbox` while nothing outside fails: the pending records of the committed
tasks are of these tasks and leave room, and so are the records it makes of them.
-/
import LocalHand.Mailbox.Quiet

namespace LocalHand.Mailbox

open PyJson Program Directory
open Framing (Bytes)

variable {F R : Type}

section

variable (host : JsonHost F) (nodeId : String) (tasks : Dir Bytes)

/-- A committed task file of this node, with the task it has and its digest. -/
structure Addressed (task : Task F) (digest : String) : Prop where
  loaded : ∃ raw, tasks.get (fileName task.id) = some raw ∧ raw.length ≤ maxTaskJsonBytes ∧ host.load raw = some task.value
  trusted : trustedLocalIdentity nodeId (fileName task.id) task.value = some task
  digest : host.toHost.digest task.value = some digest

/-- A result of a task. -/
def IsOf (value : Value F) (task : Task F) (digest : String) : Prop :=
  validateRemoteResult host.toHost value task.id (some task.action) (some nodeId) (some digest) = .ok ()

-- The files there were in `conflicts`.
variable (marks : Dir Bytes)

/-- A conflict record of a task, the same as the marker of it where there was one. -/
structure Agrees (task : Task F) (digest : String) (raw : Bytes) : Prop where
  small : raw.length ≤ maxResultJsonBytes
  value : ∃ v, host.load raw = some v ∧ IsOf host nodeId v task digest ∧ text? v "status" ≠ some "succeeded" ∧
    ∀ mark m, marks.get (conflictName digest) = some mark → host.load mark = some m → host.toHost.digest v = host.toHost.digest m

/-- A pending result leaves room for a conflict record and for a receipt; one with the digest of a
committed task is of that task, and there was no marker of it. -/
structure Pending (value : Value F) : Prop where
  slim : Slim value
  short : Short value
  own : ∀ task digest, Addressed host nodeId tasks task digest → conflictName digest = conflictName (textOf value "task_digest") →
    IsOf host nodeId value task digest ∧ marks.get (conflictName digest) = none

structure Waiting (outbox : Dir Bytes) : Prop where
  conflict : ∀ task digest, Addressed host nodeId tasks task digest → ∀ raw, outbox.get (conflictName digest) = some raw →
    Agrees host nodeId marks task digest raw
  result : ∀ name raw value, isConflictOutbox name = false → outbox.get name = some raw → raw.length ≤ maxResultJsonBytes →
    host.load raw = some value → validateLocalOutboxResult host.toHost value name = .ok () → Pending host nodeId tasks marks value

/-- A tree with the committed tasks, its conflict records and its results of few lines. -/
structure Served (tree : Tree) : Prop where
  files : tree.tasks = tasks
  small : ∀ name raw, tree.conflicts.get name = some raw → raw.length ≤ maxResultJsonBytes
  conflict : ∀ task digest, Addressed host nodeId tasks task digest → ∀ raw, tree.conflicts.get (conflictName digest) = some raw →
    Agrees host nodeId marks task digest raw
  result : ∀ name raw value, tree.results.get name = some raw → host.load raw = some value →
    validateResultShape host.toHost value = .ok () → Short value

end

variable {host : JsonHost F} {nodeId : String} {tasks marks : Dir Bytes}

/-! ## Records of a task -/

theorem isOf_iff {e : Envelope F} (h : validateResultShape host.toHost e.value = .ok ()) (task : Task F) (digest : String) :
    IsOf host nodeId e.value task digest ↔
      e.taskId = task.id ∧ e.action = task.action ∧ e.nodeId = nodeId ∧ lower e.taskDigest = lower digest := by
  have hid : text? e.value "task_id" = some e.taskId := by rfl
  have haction : text? e.value "action" = some e.action := by rfl
  have hnode : text? e.value "node_id" = some e.nodeId := by rfl
  have htarget : text? e.value "target_node" = some e.nodeId := by rfl
  have hdigest : text? e.value "task_digest" = some e.taskDigest := by rfl
  unfold IsOf validateRemoteResult
  rw [h]
  simp only [hid, haction, hnode, htarget, hdigest, bind_ok_iff, check_ok]
  simp

/-- The conflict record of a result. -/
def Envelope.conflict (e : Envelope F) (code error : String) (details : List (String × Value F)) : Envelope F :=
  { e with status := "indeterminate", errorCode := .str code, error := .str error, details := .obj details }

theorem conflictOf_envelope (e : Envelope F) (code error : String) (details : List (String × Value F)) :
    conflictOf e.value code error details = (e.conflict code error details).value := rfl

theorem Envelope.Valid.conflict {e : Envelope F} (h : e.Valid) {code error : String} (details : List (String × Value F)) (hcode : code ≠ "")
    (herror : error ≠ "") : (e.conflict code error details).Valid :=
  { h with
    details := ⟨_, rfl⟩
    status := by show "indeterminate" ∈ resultStatuses; decide
    told := .inr ⟨by show "indeterminate" ≠ "succeeded"; decide, _, _, rfl, hcode, rfl, herror⟩ }

theorem Envelope.Valid.conflict_fits {e : Envelope F} (h : e.Valid) (host : JsonHost F) (hslim : Slim e.value) {code error : String}
    {details : List (String × Value F)} (hcode : code ≠ "") (herror : error ≠ "") (hi : fieldsIntsOk details = true)
    (hrest : width (indent host.floats false 1 (.obj details)) + quoted error + quoted code ≤ 1231) :
    validateResultShape host.toHost (e.conflict code error details).value = .ok () :=
  (h.conflict details hcode herror).fits (Envelope.ints hi rfl rfl) ((h.conflict details hcode herror).length_le hslim host.floats hrest)

/-- The details of a conflict with a remote result. -/
theorem collision_fits (host : JsonHost F) {e e' : Envelope F} (h : e.Valid) (h' : e'.Valid) (hslim : Slim e.value) {label digest digest' : String}
    (hlabel : label = "digest" ∨ label = "content") (hdigest : isDigest digest = true) (hdigest' : isDigest digest' = true) :
    validateResultShape host.toHost (e.conflict ("remote_result_" ++ label ++ "_conflict") ("remote result " ++ label ++ " conflict for " ++ e.taskId)
      [("local_result_sha256", .str digest), ("local_result_status", .str e.status), ("local_task_digest", .str e.taskDigest),
        ("remote_result_sha256", .str digest'), ("remote_result_status", .str e'.status),
        ("remote_task_digest", .str e'.taskDigest)]).value = .ok () := by
  have herror : Mild 101 ("remote result " ++ label ++ " conflict for " ++ e.taskId) := by
    rcases hlabel with rfl | rfl
    · exact Mild.append (n := 35) (by decide) (mild_taskId h.taskId)
    · exact Mild.append (n := 35) (by decide) (mild_taskId h.taskId)
  have hcode : Mild 40 ("remote_result_" ++ label ++ "_conflict") := by rcases hlabel with rfl | rfl <;> decide
  have hquoted : ∀ s : String, width (indent host.floats false 2 (.str s)) = quoted s := fun s => rfl
  have hname1 : quoted "local_result_sha256" = 21 := by decide
  have hname2 : quoted "local_result_status" = 21 := by decide
  have hname3 : quoted "local_task_digest" = 19 := by decide
  have hname4 : quoted "remote_result_sha256" = 22 := by decide
  have hname5 : quoted "remote_result_status" = 22 := by decide
  have hname6 : quoted "remote_task_digest" = 20 := by decide
  have hstatus := quoted_status h.status
  have hstatus' := quoted_status h'.status
  refine h.conflict_fits host hslim ?_ ?_ rfl ?_
  · rcases hlabel with rfl | rfl <;> decide
  · intro hempty
    have hlen := congrArg (fun s : String => s.toList.length) hempty
    simp at hlen
  · have herror' := herror.quoted
    have hcode' := hcode.quoted
    rw [width_obj]
    simp only [List.map_cons, List.map_nil, List.sum_cons, List.sum_nil, fieldWidth, Nat.reduceAdd, hquoted, hname1, hname2, hname3, hname4,
      hname5, hname6, quoted_digest hdigest, quoted_digest hdigest', quoted_digest h.taskDigest, quoted_digest h'.taskDigest]
    omega

theorem invalid_fits (host : JsonHost F) {e : Envelope F} (h : e.Valid) (hslim : Slim e.value) {message : String} (hmessage : Mild 140 message) :
    validateResultShape host.toHost (e.conflict "remote_result_invalid" ("canonical remote result is malformed/invalid for " ++ e.taskId)
      [("canonical_result_preserved", .bool true), ("local_task_digest", .str e.taskDigest),
        ("remote_validation_error", .str message)]).value = .ok () := by
  have herror : Mild 120 ("canonical remote result is malformed/invalid for " ++ e.taskId) :=
    Mild.append (n := 54) (by decide) (mild_taskId h.taskId)
  have hcode : quoted "remote_result_invalid" = 23 := by decide
  have hquoted : ∀ s : String, width (indent host.floats false 2 (.str s)) = quoted s := fun s => rfl
  have hname1 : quoted "canonical_result_preserved" = 28 := by decide
  have hname2 : quoted "local_task_digest" = 19 := by decide
  have hname3 : quoted "remote_validation_error" = 25 := by decide
  have htrue := width_bool host.floats 2 true
  refine h.conflict_fits host hslim (by decide) ?_ rfl ?_
  · intro hempty
    have hlen := congrArg (fun s : String => s.toList.length) hempty
    simp at hlen
  · have herror' := herror.quoted
    have hmessage' := hmessage.quoted
    rw [width_obj]
    simp only [List.map_cons, List.map_nil, List.sum_cons, List.sum_nil, fieldWidth, Nat.reduceAdd, hquoted, hname1, hname2, hname3,
      quoted_digest h.taskDigest]
    omega

theorem text_envelope (e : Envelope F) : textOf e.value "task_id" = e.taskId ∧ textOf e.value "task_digest" = e.taskDigest ∧
    fieldOf e.value "task_digest" = .str e.taskDigest ∧ fieldOf e.value "status" = .str e.status := ⟨rfl, rfl, rfl, rfl⟩

/-! ## Pending records -/

theorem Waiting.remove {outbox : Dir Bytes} (h : Waiting host nodeId tasks marks outbox) (name : String) :
    Waiting host nodeId tasks marks (outbox.remove name) := by
  have hget : ∀ {other raw}, (outbox.remove name).get other = some raw → outbox.get other = some raw := by
    intro other raw hraw
    rw [get_remove] at hraw
    split at hraw
    · cases hraw
    · exact hraw
  exact ⟨fun t d ht raw hraw => h.conflict t d ht raw (hget hraw), fun n raw v hn hraw => h.result n raw v hn (hget hraw)⟩

/-- The record of a conflict, under its name. -/
theorem Waiting.put_conflict {outbox : Dir Bytes} (h : Waiting host nodeId tasks marks outbox) {digest : String} {raw : Bytes}
    (hagrees : ∀ t d, Addressed host nodeId tasks t d → conflictName d = conflictName digest → Agrees host nodeId marks t d raw) :
    Waiting host nodeId tasks marks (outbox.put (conflictName digest) raw) where
  conflict t d ht raw' hraw' := by
    by_cases hname : conflictName d = conflictName digest
    · rw [hname, get_put_self] at hraw'
      cases hraw'
      exact hagrees t d ht hname
    · rw [get_put_ne _ hname] at hraw'
      exact h.conflict t d ht raw' hraw'
  result name raw' v hname hraw' := by
    have hne : name ≠ conflictName digest := by
      rintro rfl
      rw [isConflictOutbox_conflictName] at hname
      cases hname
    rw [get_put_ne _ hne] at hraw'
    exact h.result name raw' v hname hraw'

theorem has_remove_ne {dir : Dir Bytes} {name other : String} (hne : other ≠ name) (h : dir.has other = true) :
    (dir.remove name).has other = true := by
  rw [Dir.has, get_remove_ne _ hne]
  exact h

theorem has_put {dir : Dir Bytes} {other : String} (name : String) (raw : Bytes) (h : dir.has other = true) :
    (dir.put name raw).has other = true := by
  rw [Dir.has, get_put]
  split
  · rfl
  · exact h

/-- What `publish_outbox` keeps: the pending records are fit, and so is the checkout once there has been a fetch. -/
structure Frame (host : JsonHost F) (nodeId : String) (tasks marks : Dir Bytes) (X : Prop) (receipts conflicts : Dir Bytes)
    (rest : List String) (w : World F R) : Prop where
  waiting : Waiting host nodeId tasks marks w.outbox
  served : X → Served host nodeId tasks marks w.tree
  receipts : w.receipts = receipts
  conflicts : w.conflicts = conflicts
  rest : ∀ name ∈ rest, w.outbox.has name = true

variable {env : Env F R} {X : Prop} {receipts conflicts : Dir Bytes} {rest : List String}

theorem frame_timeless : Timeless (Frame host nodeId tasks marks X receipts conflicts rest : World F R → Prop) :=
  fun _ _ h => ⟨h.waiting, h.served, h.receipts, h.conflicts, h.rest⟩

theorem Frame.remove {w : World F R} (h : Frame host nodeId tasks marks X receipts conflicts rest w) {name : String} (hname : name ∉ rest)
    (q : Dir Bytes) (m : Mark F) :
    Frame host nodeId tasks marks X receipts conflicts rest ({ w with outbox := w.outbox.remove name, quarantine := q }.mark m) where
  waiting := h.waiting.remove name
  served := h.served
  receipts := h.receipts
  conflicts := h.conflicts
  rest other hother := has_remove_ne (fun heq => hname (heq ▸ hother)) (h.rest other hother)

theorem Frame.unlinked {w : World F R} (h : Frame host nodeId tasks marks X receipts conflicts rest w) {name : String} (hname : name ∉ rest)
    (m : Mark F) : Frame host nodeId tasks marks X receipts conflicts rest ({ w with outbox := w.outbox.remove name }.mark m) :=
  h.remove hname w.quarantine m

theorem Envelope.wf {e : Envelope F} (hdetails : e.details.WF) (herror : e.error.WF) (hcode : e.errorCode.WF) : e.value.WF := by
  have hkeys : fieldNames.Pairwise (· < ·) := by decide
  exact ⟨List.pairwise_map.mp hkeys, trivial, hdetails, herror, hcode, trivial, trivial, trivial, trivial, trivial, trivial, trivial,
    trivial, trivial, trivial, trivial⟩

/-- An accepted record of a conflict is one of each task its result is of. -/
theorem conflict_agrees {e c : Envelope F} (hshape : validateResultShape host.toHost e.value = .ok ())
    (hfits : validateResultShape host.toHost c.value = .ok ()) (hwf : c.value.WF) (hsame : c.taskId = e.taskId ∧ c.action = e.action ∧
      c.nodeId = e.nodeId ∧ c.taskDigest = e.taskDigest) (hstatus : c.status ≠ "succeeded") {task : Task F} {digest : String}
    (hof : IsOf host nodeId e.value task digest) (hnone : marks.get (conflictName digest) = none) :
    Agrees host nodeId marks task digest (jsonText host.floats c.value) := by
  obtain ⟨hprint, hlen⟩ := jsonText_le hfits
  obtain ⟨hid, haction, hnode, hdigest⟩ := hsame
  rw [isOf_iff hshape] at hof
  have hstatusText : text? c.value "status" = some c.status := by rfl
  refine ⟨hlen, c.value, host.load_print _ _ hwf hprint, (isOf_iff hfits task digest).mpr ?_, ?_, fun mark m hmark => ?_⟩
  · rw [hid, haction, hnode, hdigest]
    exact hof
  · rw [hstatusText]
    exact fun heq => hstatus (Option.some.inj heq)
  · rw [hnone] at hmark
    cases hmark

section

variable (quiet : Quiet env (Served host nodeId tasks marks))
include quiet

theorem saveConflict_passes {e : Envelope F} (h : e.Valid) (hshape : validateResultShape host.toHost e.value = .ok ())
    (hpending : Pending host nodeId tasks marks e.value) {code error : String} {details : List (String × Value F)}
    (hfits : validateResultShape host.toHost (e.conflict code error details).value = .ok ()) (hwf : (Value.obj details).WF)
    {name : String} : Passes (fun w : World F R => Frame host nodeId tasks marks X receipts conflicts rest w ∧ w.outbox.has name = true)
      (saveConflict host.toHost env e.value (conflictOf e.value code error details))
      fun _ w => Frame host nodeId tasks marks X receipts conflicts rest w ∧ w.outbox.has name = true := by
  have hfilename : conflictFilenameOf (textOf e.value "task_id") (textOf e.value "task_digest") = .ok (conflictName e.taskDigest) := by
    show conflictFilenameOf e.taskId e.taskDigest = _
    rw [conflictFilenameOf, if_pos (by simp [h.taskId, h.taskDigest]), conflictFilename, if_pos h.taskDigest]
  obtain ⟨hprint, hlen⟩ := jsonText_le hfits
  refine passes_ok (a := ()) (by rw [conflictOf_envelope, hfits]) ?_
  refine passes_ok hfilename ?_
  refine writeJson_passes quiet (fun w n h => ⟨frame_timeless w n h.1, h.2⟩) .outbox _ _ (by rw [conflictOf_envelope, hprint]) hlen ?_
  rintro w ⟨hw, hhas⟩
  refine ⟨⟨hw.waiting.put_conflict fun t d ht hd => ?_, hw.served, hw.receipts, hw.conflicts, fun other hother => has_put _ _ (hw.rest other hother)⟩,
    has_put _ _ hhas⟩
  obtain ⟨hof, hnone⟩ := hpending.own t d ht hd
  exact conflict_agrees hshape hfits (Envelope.wf hwf trivial trivial) ⟨rfl, rfl, rfl, rfl⟩ (by show "indeterminate" ≠ "succeeded"; decide) hof hnone

omit quiet in
/-- The name of a pending result is the one of its task. -/
theorem pending_name {name : String} (hjson : isJson name = true) : name = fileName (stem name) := by
  rw [isJson, decide_eq_true_eq] at hjson
  apply String.toList_injective
  rw [fileName, stem, String.toList_append, String.toList_ofList, ← hjson, List.take_append_drop]

omit quiet in
theorem local_ok {value : Value F} {name : String} (h : validateLocalOutboxResult host.toHost value name = .ok ()) :
    validateResultShape host.toHost value = .ok () ∧ (isConflictOutbox name = false → text? value "task_id" = some (stem name)) ∧
      (isConflictOutbox name = true → conflictFilename (textOf value "task_digest") = .ok name) := by
  unfold validateLocalOutboxResult at h
  cases hshape : validateResultShape host.toHost value with
  | error failure =>
    rw [hshape] at h
    cases h
  | ok _ =>
    rw [hshape] at h
    refine ⟨rfl, fun hresult => ?_, fun hconflict => ?_⟩
    · rw [hresult] at h
      simpa [bind_ok_iff] using h
    · rw [hconflict] at h
      simp only [if_true, bind_ok_iff, check_ok] at h
      obtain ⟨-, -, h⟩ := h
      unfold textOf
      cases htext : text? value "task_digest" with
      | none =>
        rw [htext] at h
        cases h
      | some digest =>
        rw [htext] at h
        simp only [Option.any_some, Bool.and_eq_true, decide_eq_true_eq] at h
        exact h.1

/-- A result that is there is loaded, or refused with a message of a few words. -/
theorem loadRemote_passes {P : World F R → Prop} (hP : Timeless P) {id : String} (hid : isTaskId id = true)
    (action targetNode digest : Option String) (hfile : ∀ w, P w → (results w).has (fileName id) = true) :
    Spec P (loadRemoteResult host.toHost env (fileName id) id action targetNode digest)
      (fun value w => P w ∧ Reads host.toHost (results w) (fileName id) maxResultJsonBytes value ∧
        validateRemoteResult host.toHost value id action targetNode digest = .ok ())
      (fun stop w => ∃ failure, stop = .failed failure ∧ P w ∧ Mild 140 failure.message) := by
  have hname : Mild 71 (fileName id) := (mild_taskId hid).append (m := 5) (by decide)
  refine Spec.bind ((loadJson_passes quiet hP maxResultJsonBytes _ hfile).weaken (fun _ h => h) (fun _ _ h => h) ?_) fun value => ?_
  · rintro stop w ⟨hw, failure, rfl, hmessage⟩
    refine ⟨failure, rfl, hw, ?_⟩
    rcases hmessage with hmessage | hmessage
    · rw [hmessage]
      exact (Mild.append (n := 28) (by decide) hname).mono (by decide)
    · rw [hmessage]
      exact (Mild.append (n := 27) (by decide) hname).mono (by decide)
  · cases hvalid : validateRemoteResult host.toHost value id action targetNode digest with
    | ok _ => exact fun w hw => ⟨hw.1, hw.2, hvalid⟩
    | error failure => exact fun w hw => ⟨failure, rfl, hw.1, (mildly_remote _ _ _ _ _ _ failure hvalid).mono (by decide)⟩

-- What has a printed text has a canonical one.
variable (canonical : ∀ v : Value F, v.intsOk = true → ∃ raw, host.canonical v = some raw)
include canonical

omit quiet in
theorem shape_digested {value : Value F} (h : validateResultShape host.toHost value = .ok ()) :
    ∃ digest, host.toHost.digest value = some digest ∧ isDigest digest = true := by
  obtain ⟨raw, hraw⟩ := canonical value (shape_ints host h)
  exact ⟨host.sha256 raw, by rw [Host.digest, hraw]; rfl, isDigest_of_hex (host.sha256_hex raw)⟩

omit canonical in
theorem publishInvalid_passes {e : Envelope F} (h : e.Valid) (hshape : validateResultShape host.toHost e.value = .ok ())
    (hpending : Pending host nodeId tasks marks e.value) {failure : Failure} (hmild : Mild 140 failure.message) {name : String} :
    Passes (fun w : World F R => Frame host nodeId tasks marks X receipts conflicts rest w ∧ w.outbox.has name = true)
      (publishConflictFromInvalidRemote host.toHost env e.value failure)
      fun _ w => Frame host nodeId tasks marks X receipts conflicts rest w ∧ w.outbox.has name = true := by
  have hdetails : (Value.obj [("canonical_result_preserved", .bool true), ("local_task_digest", .str e.taskDigest),
      ("remote_validation_error", .str failure.message)] : Value F).WF :=
    ⟨List.pairwise_map.mp (by decide : ["canonical_result_preserved", "local_task_digest", "remote_validation_error"].Pairwise (· < ·)),
      trivial, trivial, trivial, trivial⟩
  unfold publishConflictFromInvalidRemote
  rw [(text_envelope e).1, (text_envelope e).2.2.1]
  exact saveConflict_passes quiet h hshape hpending (invalid_fits host h hpending.slim hmild) hdetails

omit canonical in
theorem publishCollision_passes {e e' : Envelope F} (h : e.Valid) (h' : e'.Valid) (hshape : validateResultShape host.toHost e.value = .ok ())
    (hpending : Pending host nodeId tasks marks e.value) {digest digest' : String} (hdigest : host.toHost.digest e.value = some digest)
    (hdigest' : host.toHost.digest e'.value = some digest') (hhex : isDigest digest = true) (hhex' : isDigest digest' = true) {name : String} :
    Passes (fun w : World F R => Frame host nodeId tasks marks X receipts conflicts rest w ∧ w.outbox.has name = true)
      (publishConflictFromCollision host.toHost env e.value e'.value)
      fun _ w => Frame host nodeId tasks marks X receipts conflicts rest w ∧ w.outbox.has name = true := by
  have hdetails : (Value.obj [("local_result_sha256", .str digest), ("local_result_status", .str e.status), ("local_task_digest", .str e.taskDigest),
      ("remote_result_sha256", .str digest'), ("remote_result_status", .str e'.status), ("remote_task_digest", .str e'.taskDigest)] : Value F).WF :=
    ⟨List.pairwise_map.mp (by decide : ["local_result_sha256", "local_result_status", "local_task_digest", "remote_result_sha256",
      "remote_result_status", "remote_task_digest"].Pairwise (· < ·)), trivial, trivial, trivial, trivial, trivial, trivial, trivial⟩
  unfold publishConflictFromCollision
  refine Spec.bind (digest_passes hdigest) fun d => Spec.assume fun hd => ?_
  subst hd
  refine Spec.bind (digest_passes hdigest') fun d' => Spec.assume fun hd' => ?_
  subst hd'
  rw [(text_envelope e).1, (text_envelope e).2.1, (text_envelope e).2.2.1, (text_envelope e).2.2.2, (text_envelope e').2.1,
    (text_envelope e').2.2.1, (text_envelope e').2.2.2]
  exact saveConflict_passes quiet h hshape hpending (collision_fits host h h' hpending.slim (by split <;> simp) hhex hhex') hdetails

/-- A result whose target is taken leaves the outbox, with a record of the conflict if there is one. -/
theorem settleResult_passes {name : String} {value : Value F} (hresult : isConflictOutbox name = false) (hjson : isJson name = true)
    (hwf : value.WF) (hvalid : validateLocalOutboxResult host.toHost value name = .ok ())
    (hpending : Pending host nodeId tasks marks value) (hrest : name ∉ rest) :
    Passes (fun w : World F R => (Frame host nodeId tasks marks X receipts conflicts rest w ∧ w.outbox.has name = true) ∧
        (results w).has name = true)
      (settleResult host.toHost env name value) fun _ => Frame host nodeId tasks marks X receipts conflicts rest := by
  obtain ⟨hshape, htaskId, -⟩ := local_ok hvalid
  obtain ⟨e, rfl, he⟩ := shape_envelope hwf hshape
  have hid : e.taskId = stem name := Option.some.inj (htaskId hresult)
  have hname : name = fileName e.taskId := by rw [hid]; exact pending_name hjson
  have htimeless : Timeless fun w : World F R => Frame host nodeId tasks marks X receipts conflicts rest w ∧ w.outbox.has name = true :=
    fun w n h => ⟨frame_timeless w n h.1, h.2⟩
  obtain ⟨digest, hdigest, hhex⟩ := shape_digested canonical hshape
  have hload := loadRemote_passes quiet (P := fun w => (Frame host nodeId tasks marks X receipts conflicts rest w ∧ w.outbox.has name = true) ∧
    (results w).has name = true) (fun w n h => ⟨htimeless w n h.1, h.2⟩) he.taskId (text? e.value "action") (text? e.value "target_node") none
    fun w h => by rw [← hname]; exact h.2
  rw [← hname, hid] at hload
  unfold settleResult
  refine Spec.bind (caught_passes hload) fun loaded => ?_
  cases loaded with
  | error failure =>
    refine Spec.pre (P := fun w => (Frame host nodeId tasks marks X receipts conflicts rest w ∧ w.outbox.has name = true) ∧
      Mild 140 failure.message) (Spec.assume fun hmild => ?_) fun w h => ⟨h.1.1, h.2⟩
    refine Spec.bind (publishInvalid_passes quiet he hshape hpending hmild) fun _ => ?_
    exact quarantineFile_passes quiet htimeless name _ (fun _ h => h.2) fun w dest raw h => h.1.remove hrest _ _
  | ok remote =>
    refine Spec.pre (P := fun w => (Frame host nodeId tasks marks X receipts conflicts rest w ∧ w.outbox.has name = true) ∧
      remote.WF ∧ validateResultShape host.toHost remote = .ok ()) (Spec.assume fun hremote => ?_) fun w h => ⟨h.1.1, ?_⟩
    · obtain ⟨e', rfl, he'⟩ := shape_envelope hremote.1 hremote.2
      obtain ⟨digest', hdigest', hhex'⟩ := shape_digested canonical hremote.2
      dsimp only
      refine Spec.bind (digest_passes hdigest') fun d' => Spec.assume fun hd' => ?_
      refine Spec.bind (digest_passes hdigest) fun d => Spec.assume fun hd => ?_
      split
      · exact unlink_passes quiet htimeless name (fun _ h => h.2) fun w raw h => h.1.unlinked hrest _
      · refine Spec.bind (publishCollision_passes quiet he he' hshape hpending hdigest hdigest' hhex hhex') fun _ => ?_
        exact quarantineResult_passes quiet htimeless name hdigest hdigest' (fun _ h => h.2) fun w dest raw h => h.1.remove hrest _ _
    · obtain ⟨-, ⟨raw, -, -, hraw⟩, hvalid'⟩ := h
      exact ⟨host.load_wf _ _ hraw, remote_shape hvalid'⟩

omit canonical in
/-- A conflict record whose target is taken leaves the outbox. -/
theorem settleConflict_passes {name : String} (hrest : name ∉ rest) :
    Passes (fun w : World F R => (Frame host nodeId tasks marks X receipts conflicts rest w ∧
        ∃ raw, w.outbox.get name = some raw ∧ raw.length ≤ maxResultJsonBytes) ∧
        ∃ raw, w.tree.conflicts.get name = some raw ∧ raw.length ≤ maxResultJsonBytes)
      (settleConflict host.toHost env name) fun _ => Frame host nodeId tasks marks X receipts conflicts rest := by
  have htimeless : Timeless fun w : World F R => (Frame host nodeId tasks marks X receipts conflicts rest w ∧
      ∃ raw, w.outbox.get name = some raw ∧ raw.length ≤ maxResultJsonBytes) ∧
      ∃ raw, w.tree.conflicts.get name = some raw ∧ raw.length ≤ maxResultJsonBytes :=
    fun w n h => ⟨⟨frame_timeless w n h.1.1, h.1.2⟩, h.2⟩
  have hhas : ∀ w : World F R, (∃ raw, w.outbox.get name = some raw ∧ raw.length ≤ maxResultJsonBytes) → w.outbox.has name = true := by
    rintro w ⟨raw, hraw, -⟩
    exact has_iff.mpr ⟨raw, hraw⟩
  unfold settleConflict
  refine Spec.bind ((read_passes quiet htimeless _ fun w h => h.1.2).weaken (fun _ h => h) (fun _ _ h => h.1) fun _ _ h => h) fun localBytes => ?_
  refine Spec.bind ((read_passes quiet htimeless _ fun w h => h.2).weaken (fun _ h => h) (fun _ _ h => h.1) fun _ _ h => h) fun remoteBytes => ?_
  split
  · exact unlink_passes quiet htimeless name (fun w h => hhas w h.1.2) fun w raw h => h.1.1.unlinked hrest _
  · exact quarantineFile_passes quiet htimeless name _ (fun w h => hhas w h.1.2) fun w dest raw h => h.1.1.remove hrest _ _

omit quiet canonical in
/-- A pending record put into the tree. -/
theorem Served.add {tree : Tree} (h : Served host nodeId tasks marks tree) {outbox : Dir Bytes} (hwaiting : Waiting host nodeId tasks marks outbox)
    {name : String} {raw : Bytes} {value : Value F} (hraw : outbox.get name = some raw) (hlen : raw.length ≤ maxResultJsonBytes)
    (hload : host.load raw = some value) (hvalid : validateLocalOutboxResult host.toHost value name = .ok ()) :
    Served host nodeId tasks marks (tree.add name raw) := by
  unfold Tree.add
  split
  · refine ⟨h.files, fun other raw' hraw' => ?_, fun t d ht raw' hraw' => ?_, h.result⟩
    · rcases eq_or_ne other name with rfl | hne
      · rw [get_put_self] at hraw'
        cases hraw'
        exact hlen
      · rw [get_put_ne _ hne] at hraw'
        exact h.small other raw' hraw'
    · rcases eq_or_ne (conflictName d) name with rfl | hne
      · rw [get_put_self] at hraw'
        cases hraw'
        exact hwaiting.conflict t d ht raw hraw
      · rw [get_put_ne _ hne] at hraw'
        exact h.conflict t d ht raw' hraw'
  · next hresult =>
    refine ⟨h.files, h.small, h.conflict, fun other raw' v hraw' hload' hshape => ?_⟩
    rcases eq_or_ne other name with rfl | hne
    · rw [get_put_self] at hraw'
      cases hraw'
      rw [hload] at hload'
      cases hload'
      exact (hwaiting.result other raw value (by simpa using hresult) hraw hlen hload hvalid).short
    · rw [get_put_ne _ hne] at hraw'
      exact h.result other raw' v hraw' hload' hshape

omit quiet canonical in
/-- The pending record that is published. -/
theorem Frame.added {w : World F R} (h : Frame host nodeId tasks marks True receipts conflicts rest w) {name : String} {raw : Bytes}
    {value : Value F} (hraw : w.outbox.get name = some raw) (hlen : raw.length ≤ maxResultJsonBytes) (hload : host.load raw = some value)
    (hvalid : validateLocalOutboxResult host.toHost value name = .ok ()) :
    Frame host nodeId tasks marks True receipts conflicts rest { w with tree := w.tree.add name raw } :=
  ⟨h.waiting, fun _ => (h.served trivial).add h.waiting hraw hlen hload hvalid, h.receipts, h.conflicts, h.rest⟩

omit quiet canonical in
theorem has_of_reads {dir : Dir Bytes} {name : String} {limit : Nat} {value : Value F} (h : Reads host.toHost dir name limit value) :
    dir.has name = true := by
  obtain ⟨raw, hraw, -⟩ := h
  exact has_iff.mpr ⟨raw, hraw⟩

omit canonical in
theorem atomicCreate_passes {P Q : World F R → Prop} (hP : Timeless P) {name : String} {raw : Bytes}
    (hfree : ∀ w, P w → (routeOutboxTarget name w.tree).has name = false) (hdone : ∀ w, P w → Q { w with tree := w.tree.add name raw }) :
    Passes P (atomicCreateControlFile env name raw) fun _ => Q := by
  unfold atomicCreateControlFile
  refine Spec.bind (targetLexists_passes quiet hP _ _) fun taken => ?_
  cases taken with
  | true => exact fun w h => absurd (h.2.trans (hfree w h.1)) (by decide)
  | false =>
    have htimeless : Timeless fun w => P w ∧ false = (routeOutboxTarget name w.tree).has name := fun w n h => ⟨hP w n h.1, h.2⟩
    simp only [Bool.false_eq_true, if_false]
    exact writing_passes quiet htimeless _ _ fun w h => hdone w h.1

/-- A pending record leaves the outbox at the first attempt. -/
theorem publishRecord_passes {name : String} {value : Value F} (hjson : isJson name = true) (hrest : name ∉ rest) (attempts : Nat) :
    Passes (fun w : World F R => (Frame host nodeId tasks marks X receipts conflicts rest w ∧
        Reads host.toHost w.outbox name maxResultJsonBytes value) ∧ validateLocalOutboxResult host.toHost value name = .ok ())
      (publishRecord host.toHost env name value (attempts + 1)) fun _ => Frame host nodeId tasks marks X receipts conflicts rest := by
  refine Spec.assume fun hvalid => ?_
  unfold publishRecord
  refine Spec.bind (sync_passes quiet (P := fun w => Frame host nodeId tasks marks X receipts conflicts rest w ∧
      Reads host.toHost w.outbox name maxResultJsonBytes value) (Q := fun w => Frame host nodeId tasks marks True receipts conflicts rest w ∧
    Reads host.toHost w.outbox name maxResultJsonBytes value) fun w outside tree h htree =>
      ⟨⟨h.1.waiting, fun _ => htree, h.1.receipts, h.1.conflicts, h.1.rest⟩, h.2⟩) fun _ => ?_
  have htimeless : Timeless fun w : World F R => Frame host nodeId tasks marks True receipts conflicts rest w ∧
      Reads host.toHost w.outbox name maxResultJsonBytes value := fun w n h => ⟨frame_timeless w n h.1, h.2⟩
  have hweak : ∀ w : World F R, Frame host nodeId tasks marks True receipts conflicts rest w →
      Frame host nodeId tasks marks X receipts conflicts rest w :=
    fun w h => ⟨h.waiting, fun _ => h.served trivial, h.receipts, h.conflicts, h.rest⟩
  refine Spec.bind (targetLexists_passes quiet htimeless _ _) fun taken => ?_
  cases taken with
  | true =>
    by_cases hconflict : isConflictOutbox name = true
    · simp only [hconflict, if_true, routeOutboxTarget]
      refine (settleConflict_passes (X := True) quiet hrest).weaken (fun w h => ⟨⟨h.1.1, ?_⟩, ?_⟩) (fun _ w h => hweak w h) fun _ _ h => h
      · obtain ⟨raw, hraw, hlen, -⟩ := h.1.2
        exact ⟨raw, hraw, hlen⟩
      · obtain ⟨raw, hraw⟩ := has_iff.mp h.2.symm
        exact ⟨raw, hraw, (h.1.1.served trivial).small name raw hraw⟩
    · have hresult : isConflictOutbox name = false := by simpa using hconflict
      simp only [hresult, Bool.false_eq_true, if_false, if_true, routeOutboxTarget]
      intro w h
      obtain ⟨raw, hraw, hlen, hload⟩ := h.1.2
      exact Spec.weaken (A := fun w => (Frame host nodeId tasks marks True receipts conflicts rest w ∧
        Reads host.toHost w.outbox name maxResultJsonBytes value) ∧ true = (results w).has name) (settleResult_passes quiet canonical hresult hjson (host.load_wf _ _ hload) hvalid
        (h.1.1.waiting.result name raw value hresult hraw hlen hload hvalid) hrest) (fun w h => ⟨⟨h.1.1, has_of_reads h.1.2⟩, h.2.symm⟩)
        (fun _ w h => hweak w h) (fun _ _ h => h) w h
  | false =>
    simp only [Bool.false_eq_true, if_false]
    refine Spec.bind (read_passes quiet (P := fun w => (Frame host nodeId tasks marks True receipts conflicts rest w ∧
      Reads host.toHost w.outbox name maxResultJsonBytes value) ∧ false = (routeOutboxTarget name w.tree).has name)
      (fun w n h => ⟨htimeless w n h.1, h.2⟩) _ fun w h => ?_) fun raw => ?_
    · obtain ⟨raw, hraw, hlen, -⟩ := h.1.2
      exact ⟨raw, hraw, hlen⟩
    refine Spec.bind (atomicCreate_passes quiet (Q := fun w => Frame host nodeId tasks marks True receipts conflicts rest w ∧
      w.outbox.has name = true) (fun w n h => ⟨⟨htimeless w n h.1.1, h.1.2⟩, h.2⟩) (fun w h => h.1.2.symm) fun w h => ?_) fun _ => ?_
    · obtain ⟨⟨⟨hframe, raw', hraw', -, hload⟩, -⟩, hraw, hlen⟩ := h
      rw [hraw] at hraw'
      cases hraw'
      exact ⟨hframe.added hraw hlen hload hvalid, has_iff.mpr ⟨raw, hraw⟩⟩
    refine Spec.bind (reading_passes quiet (P := fun w => Frame host nodeId tasks marks True receipts conflicts rest w ∧ w.outbox.has name = true)
      (fun w n h => ⟨frame_timeless w n h.1, h.2⟩) _) fun _ => ?_
    refine Spec.bind (push_passes quiet
      (P := fun w => Frame host nodeId tasks marks True receipts conflicts rest w ∧ w.outbox.has name = true) (Q := fun w => Frame host nodeId tasks marks True receipts conflicts rest w ∧ w.outbox.has name = true)
      fun w outside h => ⟨⟨h.1.waiting, h.1.served, h.1.receipts, h.1.conflicts, h.1.rest⟩, h.2⟩) fun answer => Spec.assume fun hanswer => ?_
    rw [hanswer]
    exact unlink_passes quiet (fun w n h => ⟨frame_timeless w n h.1, h.2⟩) name (fun w h => h.2) fun w raw h => hweak _ (h.1.unlinked hrest _)

omit canonical in
theorem loadPending_passes (name : String) {P : World F R → Prop} (hP : Timeless P) (hfile : ∀ w, P w → w.outbox.has name = true) :
    Spec P (loadPending host.toHost env name)
      (fun value w => (P w ∧ Reads host.toHost w.outbox name maxResultJsonBytes value) ∧
        validateLocalOutboxResult host.toHost value name = .ok ())
      (fun stop w => ∃ failure, stop = .failed failure ∧ P w) := by
  refine Spec.bind ((loadJson_passes quiet hP _ _ hfile).weaken (fun _ h => h) (fun _ _ h => h) ?_) fun value => ?_
  · rintro stop w ⟨hw, failure, rfl, -⟩
    exact ⟨failure, rfl, hw⟩
  · cases hvalid : validateLocalOutboxResult host.toHost value name with
    | ok _ => exact fun w hw => ⟨hw, hvalid⟩
    | error failure => exact fun w hw => ⟨failure, rfl, hw.1⟩

theorem publishEach_passes {names : List String} (hnodup : names.Nodup) (hjson : ∀ name ∈ names, isJson name = true) :
    Passes (Frame host nodeId tasks marks X receipts conflicts names : World F R → Prop) (publishEach host.toHost env names)
      fun _ => Frame host nodeId tasks marks X receipts conflicts [] := by
  induction names with
  | nil => exact Spec.ret fun _ h => h
  | cons name rest ih =>
    rw [List.nodup_cons] at hnodup
    unfold publishEach
    refine Spec.bind (caught_passes (loadPending_passes quiet name frame_timeless fun w h => h.rest name List.mem_cons_self)) fun loaded => ?_
    have hrest : ∀ w : World F R, Frame host nodeId tasks marks X receipts conflicts (name :: rest) w →
        Frame host nodeId tasks marks X receipts conflicts rest w :=
      fun w h => ⟨h.waiting, h.served, h.receipts, h.conflicts, fun other hother => h.rest other (List.mem_cons_of_mem _ hother)⟩
    have hnext := ih hnodup.2 fun other hother => hjson other (List.mem_cons_of_mem _ hother)
    cases loaded with
    | error failure =>
      refine Spec.bind (Q := fun _ => Frame host nodeId tasks marks X receipts conflicts rest) ?_ fun _ => hnext
      exact quarantineFile_passes quiet frame_timeless name _ (fun w h => h.rest name List.mem_cons_self) fun w dest raw h =>
        (hrest w h).remove hnodup.1 _ _
    | ok value =>
      refine Spec.bind (Q := fun _ => Frame host nodeId tasks marks X receipts conflicts rest) ?_ fun _ => hnext
      exact (publishRecord_passes quiet canonical (hjson name List.mem_cons_self) hnodup.1 3).pre fun w h => ⟨⟨hrest w h.1.1, h.1.2⟩, h.2⟩

/-- Every pending record leaves the outbox. -/
theorem publishOutbox_passes : Passes (Frame host nodeId tasks marks X receipts conflicts [] : World F R → Prop) (publishOutbox host.toHost env)
    fun _ => Frame host nodeId tasks marks X receipts conflicts [] := by
  unfold publishOutbox
  refine Spec.bind (reading_passes quiet frame_timeless _) fun _ => ?_
  refine Spec.bind (Q := fun w' w => Frame host nodeId tasks marks X receipts conflicts [] w ∧ w' = w) (Spec.read fun _ h => ⟨h, rfl⟩) fun w' => ?_
  rintro w ⟨h, rfl⟩
  refine publishEach_passes quiet canonical ((names_nodup _).filter _) (fun name hname => (List.mem_filter.mp hname).2) w'
    ⟨h.waiting, h.served, h.receipts, h.conflicts, fun name hname => ?_⟩
  exact mem_names.mp (List.mem_filter.mp hname).1

end

end LocalHand.Mailbox
