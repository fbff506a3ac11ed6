/-
The queue of a mailbox is isolated: while nothing outside fails, `process_once`
returns, and every committed task of its node whose action leaves room for a record
has a receipt or a conflict marker, whatever the other files are.
-/
import LocalHand.Mailbox.QuietRecords

namespace LocalHand.Mailbox

open PyJson Program Directory ResultReader
open Framing (Bytes)

variable {F R : Type}

/-! ## Conditions -/

/-- Provenance is built, and handlers return or raise what a result can say. -/
structure Tame (fl : FloatText F) (env : Env F R) : Prop where
  provenance : ∀ n, ∃ p, env.provenance n = .ok p ∧ p.Valid
  alive : ∀ n task, env.handler n task ≠ .crashed
  details : ∀ n task fields, env.handler n task = .details fields → Fair fl (.obj fields)
  raised : ∀ n task r, env.handler n task = .raised r → Sayable fl r

section

variable (host : JsonHost F) (nodeId : String) (tasks marks kept : Dir Bytes)

/-- The committed tasks, the markers and the receipts there are. -/
structure Orderly : Prop where
  node : nodeId ≠ ""
  few : tasks.names.length ≤ maxMailboxTaskFiles
  distinct : ∀ t t' d, Addressed host nodeId tasks t d → Addressed host nodeId tasks t' d → t = t'
  room : ∀ t d, Addressed host nodeId tasks t d → Roomy nodeId t
  marker : ∀ t d, Addressed host nodeId tasks t d → ∀ raw, marks.get (conflictName d) = some raw → Agrees host nodeId marks t d raw
  receipt : ∀ t d, Addressed host nodeId tasks t d → ∀ raw receipt saved, kept.get (fileName t.id) = some raw →
    host.load raw = some receipt → validateReceipt host.toHost nodeId receipt t d = .ok (some saved) → Slim saved ∧ Short saved

/-- The world between two tasks, of which those of the files in `done` are processed. -/
structure Course (done : List String) (w : World F R) : Prop where
  waiting : Waiting host nodeId tasks marks w.outbox
  served : Served host nodeId tasks marks w.tree
  fresh : ∀ t d, Addressed host nodeId tasks t d → fileName t.id ∉ done →
    w.conflicts.get (conflictName d) = marks.get (conflictName d) ∧ w.receipts.get (fileName t.id) = kept.get (fileName t.id)
  recorded : ∀ t d, Addressed host nodeId tasks t d → fileName t.id ∈ done →
    w.receipts.has (fileName t.id) = true ∨ w.conflicts.has (conflictName d) = true

end

variable {host : JsonHost F} {nodeId : String} {tasks marks kept : Dir Bytes} {done : List String}

theorem course_timeless : Timeless (Course host nodeId tasks marks kept done : World F R → Prop) :=
  fun _ _ h => ⟨h.waiting, h.served, h.fresh, h.recorded⟩

theorem toLower_hex {c : Char} (h : isLowerHex c = true) : c.toLower = c := by
  simp only [isLowerHex, Char.isDigit, Bool.or_eq_true, Bool.and_eq_true, decide_eq_true_eq, Char.le_def] at h
  have hupper : ¬(c.val ≥ 'A'.val ∧ c.val ≤ 'Z'.val) := by
    rintro ⟨hlow, hhigh⟩
    rcases h with ⟨-, hdigit⟩ | ⟨hletter, -⟩
    · exact absurd (UInt32.le_trans hlow hdigit) (by decide)
    · exact absurd (UInt32.le_trans hletter hhigh) (by decide)
  exact dif_neg hupper

theorem lower_hex {digest : String} (h : hexText 64 digest = true) : lower digest = digest := by
  simp only [hexText, Bool.and_eq_true, decide_eq_true_eq, List.all_eq_true] at h
  rw [lower, List.map_congr_left (fun c hc => toLower_hex (h.2 c hc)), List.map_id', String.ofList_toList]

theorem conflictName_injective {d d' : String} (h : conflictName d = conflictName d') : lower d = lower d' := by
  have htext := congrArg String.toList h
  simp only [conflictName, String.toList_append, List.append_assoc, List.append_cancel_left_eq, List.append_cancel_right_eq] at htext
  exact String.toList_injective htext

/-- Two committed tasks with one marker are one. -/
theorem Orderly.same (orderly : Orderly host nodeId tasks marks kept) {t t' : Task F} {d d' : String} (h : Addressed host nodeId tasks t d)
    (h' : Addressed host nodeId tasks t' d') (hname : lower d = lower d') : t = t' ∧ d = d' := by
  rw [lower_hex h.hex, lower_hex h'.hex] at hname
  subst hname
  exact ⟨orderly.distinct t t' d h h', rfl⟩

theorem conflictName_ne (d : String) {id : String} (hid : isTaskId id = true) : conflictName d ≠ fileName id := by
  intro heq
  have hresult := fileName_result hid
  rw [← heq, isConflictOutbox_conflictName] at hresult
  cases hresult

/-- A committed task is told by its file. -/
theorem Addressed.unique {t t' : Task F} {d d' : String} (h : Addressed host nodeId tasks t d) (h' : Addressed host nodeId tasks t' d')
    (hname : fileName t.id = fileName t'.id) : t = t' ∧ d = d' := by
  obtain ⟨raw, hraw, -, hload⟩ := h.loaded
  obtain ⟨raw', hraw', -, hload'⟩ := h'.loaded
  rw [hname, hraw'] at hraw
  cases hraw
  rw [hload] at hload'
  have hvalue := Option.some.inj hload'
  have htrusted := h.trusted
  have htask : t = t' := by
    rw [hvalue, hname, h'.trusted] at htrusted
    exact (Option.some.inj htrusted).symm
  subst htask
  have hdigest := h.digest
  rw [h'.digest] at hdigest
  exact ⟨rfl, (Option.some.inj hdigest).symm⟩

/-! ## Details of a conflict -/

/-- A field of a conflict's details. -/
def Brief (fl : FloatText F) (f : String × Value F) : Prop := quoted f.1 + width (indent fl false 2 f.2) ≤ 172

theorem brief_digest (fl : FloatText F) {name digest : String} (hname : quoted name ≤ 30) (h : isDigest digest = true) :
    Brief fl (name, .str digest) := by
  have hdigest := quoted_digest h
  show quoted name + quoted digest ≤ 172
  omega

theorem brief_message (fl : FloatText F) {name message : String} (hname : quoted name ≤ 30) (h : Mild 140 message) :
    Brief fl (name, .str message) := by
  have hmessage := h.quoted
  show quoted name + quoted message ≤ 172
  omega

theorem brief_null (fl : FloatText F) {name : String} (hname : quoted name ≤ 30) : Brief fl (name, .null) := by
  have hnull : width (indent fl false 2 (.null : Value F)) = 4 := by
    show width ['n', 'u', 'l', 'l'] = 4
    decide
  show quoted name + width (indent fl false 2 (.null : Value F)) ≤ 172
  omega

theorem brief_true (fl : FloatText F) {name : String} (hname : quoted name ≤ 30) : Brief fl (name, .bool true) := by
  have htrue := width_bool fl 2 true
  show quoted name + width (indent fl false 2 (.bool true)) ≤ 172
  omega

theorem details_width (fl : FloatText F) {f : String × Value F} {rest : List (String × Value F)} (h : ∀ g ∈ f :: rest, Brief fl g) :
    width (indent fl false 1 (.obj (f :: rest))) ≤ 180 * (rest.length + 1) + 4 := by
  have hsum : ((f :: rest).map (fieldWidth fl 1)).sum ≤ ((f :: rest).map (fieldWidth fl 1)).length • 180 :=
    List.sum_le_card_nsmul _ _ fun k hk => by
      obtain ⟨g, hg, rfl⟩ := List.mem_map.mp hk
      have hbrief : quoted g.1 + width (indent fl false 2 g.2) ≤ 172 := h g hg
      show quoted g.1 + width (indent fl false 2 g.2) + (6 + 2 * 1) ≤ 180
      omega
  rw [List.length_map, nsmul_eq_mul, Nat.cast_id, List.length_cons] at hsum
  rw [width_obj]
  omega

theorem trusted_identity {name : String} {value : Value F} {task : Task F} (h : trustedLocalIdentity nodeId name value = some task) :
    task.id = stem name ∧ task.value = value := by
  unfold trustedLocalIdentity at h
  split at h
  · split at h
    · next hall =>
      simp only [Bool.and_eq_true, decide_eq_true_eq] at hall
      rw [← Option.some.inj h]
      exact ⟨hall.1.2, rfl⟩
    · cases h
  · cases h

/-! ## What is written -/

section

variable {w : World F R} {task : Task F} {digest : String} (ha : Addressed host nodeId tasks task digest)
include ha

omit ha in
theorem Course.receipt (h : Course host nodeId tasks marks kept done w) (raw : Bytes) (m : Mark F) :
    Course host nodeId tasks marks kept (fileName task.id :: done) ({ w with receipts := w.receipts.put (fileName task.id) raw }.mark m) where
  waiting := h.waiting
  served := h.served
  fresh t d ht hdone := by
    rw [List.mem_cons, not_or] at hdone
    obtain ⟨hconflict, hreceipt⟩ := h.fresh t d ht hdone.2
    exact ⟨hconflict, (get_put_ne _ hdone.1 _).trans hreceipt⟩
  recorded t d ht hdone := by
    rcases List.mem_cons.mp hdone with hname | hdone
    · exact .inl (by rw [hname]; exact has_iff.mpr ⟨raw, get_put_self _ _ _⟩)
    · exact (h.recorded t d ht hdone).imp (has_put _ _) id

theorem Course.conflict (orderly : Orderly host nodeId tasks marks kept) (h : Course host nodeId tasks marks kept done w) (raw : Bytes)
    (m : Mark F) : Course host nodeId tasks marks kept (fileName task.id :: done)
      ({ w with conflicts := w.conflicts.put (conflictName digest) raw }.mark m) where
  waiting := h.waiting
  served := h.served
  fresh t d ht hdone := by
    rw [List.mem_cons, not_or] at hdone
    obtain ⟨hconflict, hreceipt⟩ := h.fresh t d ht hdone.2
    refine ⟨(get_put_ne _ (fun hname => hdone.1 ?_) _).trans hconflict, hreceipt⟩
    rw [(orderly.same ht ha (conflictName_injective hname)).1]
  recorded t d ht hdone := by
    rcases List.mem_cons.mp hdone with hname | hdone
    · obtain ⟨rfl, rfl⟩ := ht.unique ha hname
      exact .inr (has_iff.mpr ⟨raw, get_put_self _ _ _⟩)
    · exact (h.recorded t d ht hdone).imp id (has_put _ _)

/-- The task has been recorded before. -/
theorem Course.known (h : Course host nodeId tasks marks kept done w)
    (hknown : w.receipts.has (fileName task.id) = true ∨ w.conflicts.has (conflictName digest) = true) :
    Course host nodeId tasks marks kept (fileName task.id :: done) w where
  waiting := h.waiting
  served := h.served
  fresh t d ht hdone := h.fresh t d ht fun hmem => hdone (List.mem_cons_of_mem _ hmem)
  recorded t d ht hdone := by
    rcases List.mem_cons.mp hdone with hname | hdone
    · obtain ⟨rfl, rfl⟩ := ht.unique ha hname
      exact hknown
    · exact h.recorded t d ht hdone

omit ha in
theorem Course.congr {done' : List String} (h : Course host nodeId tasks marks kept done w) (hmem : ∀ name, name ∈ done' ↔ name ∈ done) :
    Course host nodeId tasks marks kept done' w where
  waiting := h.waiting
  served := h.served
  fresh t d ht hdone := h.fresh t d ht fun hname => hdone ((hmem _).mpr hname)
  recorded t d ht hdone := h.recorded t d ht ((hmem _).mp hdone)

theorem Course.pend_conflict (orderly : Orderly host nodeId tasks marks kept) (h : Course host nodeId tasks marks kept done w) {raw : Bytes}
    (hagrees : Agrees host nodeId marks task digest raw) (m : Mark F) :
    Course host nodeId tasks marks kept done ({ w with outbox := w.outbox.put (conflictName digest) raw }.mark m) where
  waiting := h.waiting.put_conflict fun t d ht hname => by
    obtain ⟨rfl, rfl⟩ := orderly.same ht ha (conflictName_injective hname)
    exact hagrees
  served := h.served
  fresh := h.fresh
  recorded := h.recorded

theorem Course.pend_result (h : Course host nodeId tasks marks kept done w) {value : Value F} {raw : Bytes} (hload : host.load raw = some value)
    (hpending : Pending host nodeId tasks marks value) (m : Mark F) :
    Course host nodeId tasks marks kept done ({ w with outbox := w.outbox.put (fileName task.id) raw }.mark m) where
  waiting :=
    { conflict := fun t d ht raw' hraw' => by
        have hraw'' : w.outbox.get (conflictName d) = some raw' := (get_put_ne _ (conflictName_ne d ha.identity.1) _).symm.trans hraw'
        exact h.waiting.conflict t d ht raw' hraw''
      result := fun name raw' v hname hraw' hlen hload' hvalid => by
        rcases eq_or_ne name (fileName task.id) with rfl | hne
        · have hself : some raw = some raw' := (get_put_self _ _ _).symm.trans hraw'
          cases hself
          rw [hload] at hload'
          cases hload'
          exact hpending
        · have hother : w.outbox.get name = some raw' := (get_put_ne _ hne _).symm.trans hraw'
          exact h.waiting.result name raw' v hname hother hlen hload' hvalid }
  served := h.served
  fresh := h.fresh
  recorded := h.recorded

end

/-! ## Steps -/

section

variable {env : Env F R} (quiet : Quiet env (Served host nodeId tasks marks)) (tame : Tame host.floats env)
  (canonical : ∀ v : Value F, v.intsOk = true → ∃ raw, host.canonical v = some raw) (orderly : Orderly host nodeId tasks marks kept)

include quiet canonical in
theorem publish_course : Passes (Course host nodeId tasks marks kept done : World F R → Prop) (publishOutbox host.toHost env)
    fun _ => Course host nodeId tasks marks kept done := by
  intro w hw
  have hrun := publishOutbox_passes (X := True) quiet canonical w ⟨hw.waiting, fun _ => hw.served, rfl, rfl, fun _ h => by cases h⟩
  cases hfrom : (publishOutbox host.toHost env).from w with
  | mk r w' =>
    rw [hfrom] at hrun
    cases r with
    | error stop => exact hrun.elim
    | ok _ =>
      refine ⟨hrun.waiting, hrun.served trivial, fun t d => ?_, fun t d => ?_⟩
      · rw [hrun.conflicts, hrun.receipts]
        exact hw.fresh t d
      · rw [hrun.conflicts, hrun.receipts]
        exact hw.recorded t d

include tame in
theorem buildProvenance_passes {P : World F R → Prop} (hP : Timeless P) : Passes P (buildProvenance env) fun p w => P w ∧ p.Valid := by
  refine Spec.bind (Q := fun answer w => P w ∧ ∃ p, answer = .ok p ∧ p.Valid) (fun w hw => ⟨hP w _ hw, tame.provenance w.clock⟩) fun answer => ?_
  refine Spec.assume fun hanswer => ?_
  obtain ⟨p, rfl, hp⟩ := hanswer
  exact Spec.ret fun w hw => ⟨hw, hp⟩

include quiet in
theorem receipt_passes {P Q : World F R → Prop} (hP : Timeless P) (task : Task F) {receipt : Value F} (hfits : Fits host.toHost receipt)
    (hdone : ∀ w raw m, P w → Q ({ w with receipts := w.receipts.put (fileName task.id) raw }.mark m)) :
    Passes P (writeReceipt host.toHost env task receipt) fun _ => Q := by
  obtain ⟨data, hdata⟩ := hfits
  unfold writeReceipt writeJsonAtomic
  rw [hdata]
  exact passes_ok rfl (writing_passes quiet hP _ _ fun w hw => hdone w data _ hw)

section

variable {task : Task F} {digest : String} (ha : Addressed host nodeId tasks task digest)
  (hnone : marks.get (conflictName digest) = none)

include orderly ha hnone in
/-- A result of the task can be pending. -/
theorem Held.pending {value : Value F} (h : Held host nodeId task digest value) : Pending host nodeId tasks marks value where
  slim := h.slim
  short := h.short
  own t d ht hname := by
    obtain ⟨e, rfl, -⟩ := shape_envelope h.wf (remote_shape h.own)
    obtain ⟨-, -, -, hdigest⟩ := (isOf_iff (remote_shape h.own) task digest).mp h.own
    have hlower := conflictName_injective hname
    rw [(text_envelope e).2.1, hdigest] at hlower
    obtain ⟨rfl, rfl⟩ := orderly.same ht ha hlower
    exact ⟨h.own, hnone⟩

include quiet orderly ha hnone in
/-- A result of the task is pending. -/
theorem requeue_passes {value : Value F} (h : Held host nodeId task digest value) (code : String) :
    Passes (Course host nodeId tasks marks kept done : World F R → Prop)
      (writeJsonAtomic host.toHost env .outbox (fileName task.id) value maxResultJsonBytes code)
      fun _ => Course host nodeId tasks marks kept done := by
  obtain ⟨hprint, hlen⟩ := jsonText_le (remote_shape h.own)
  exact writeJson_passes quiet course_timeless .outbox _ _ hprint hlen fun w hw =>
    hw.pend_result ha (host.load_print _ _ h.wf hprint) (h.pending orderly ha hnone) _

include quiet orderly ha hnone in
/-- The result of a task is kept, and its receipt. -/
theorem persist_course {value : Value F} (h : Keepable host nodeId task digest value) :
    Passes (Course host nodeId tasks marks kept done : World F R → Prop) (persistResult host.toHost env task digest value)
      fun _ => Course host nodeId tasks marks kept (fileName task.id :: done) := by
  obtain ⟨value', hbounded, hheld⟩ := h
  unfold persistResult
  refine passes_ok hbounded ?_
  refine Spec.bind (requeue_passes quiet orderly ha hnone hheld _) fun _ => ?_
  exact receipt_passes quiet course_timeless task (short_fits host (remote_shape hheld.own) hheld.short ha.identity.1 ha.isDigest .executed)
    fun w raw m hw => hw.receipt raw m

include quiet tame orderly ha hnone in
/-- A conflict of the task is kept as its marker. -/
theorem quarantineTask_passes {failure : Failure} {observed : Value F} {details : Value F → Value F → Value F → List (String × Value F)}
    (hstatus : failure.status ∈ resultStatuses ∧ failure.status ≠ "succeeded") (hcode : failure.code ≠ "") (hmessage : failure.message ≠ "")
    (hwf : (Value.obj (details (.str digest) observed (.bool true))).WF) (hi : fieldsIntsOk (details (.str digest) observed (.bool true)) = true)
    (hrest : width (indent host.floats false 1 (.obj (details (.str digest) observed (.bool true)))) + quoted failure.message +
      quoted failure.code ≤ 1231) :
    Passes (Course host nodeId tasks marks kept done : World F R → Prop)
      (quarantineTaskConflict host.toHost env nodeId task digest failure observed details)
      fun _ => Course host nodeId tasks marks kept (fileName task.id :: done) := by
  have hfilename : conflictFilenameOf task.id digest = .ok (conflictName digest) := by
    rw [conflictFilenameOf, if_pos (by simp [ha.identity.1, ha.isDigest]), conflictFilename, if_pos ha.isDigest]
  unfold quarantineTaskConflict
  refine passes_ok hfilename ?_
  refine Spec.bind (Q := fun w' w => Course host nodeId tasks marks kept done w ∧ w' = w) (Spec.read fun _ h => ⟨h, rfl⟩) fun w' => ?_
  by_cases hhas : w'.conflicts.has (conflictName digest) = true
  · rw [if_pos hhas]
    refine Spec.ret fun w hw => ?_
    obtain ⟨hw, rfl⟩ := hw
    exact hw.known ha (.inr hhas)
  · rw [if_neg hhas]
    refine Spec.bind ((buildProvenance_passes tame (P := Course host nodeId tasks marks kept done) course_timeless).pre fun w hw => hw.1)
      fun p => Spec.assume fun hp => ?_
    have hvalid : (envelopeOf task digest nodeId p failure.status
        (.obj (details (.str digest) observed (.bool true))) (.str failure.code) (.str failure.message)).Valid :=
      envelope_valid ha orderly.node hp hstatus.1
        (.inr ⟨hstatus.2, failure.code, failure.message, rfl, hcode, rfl, hmessage⟩)
    have hshape := hvalid.fits (Envelope.ints hi rfl rfl) (hvalid.length_le (envelope_slim (orderly.room _ _ ha) _ _ _ _ _) host.floats hrest)
    obtain ⟨hprint, hlen⟩ := jsonText_le hshape
    have hagrees : Agrees host nodeId marks task digest (jsonText host.floats (envelopeOf task digest nodeId p failure.status
        (.obj (details (.str digest) observed (.bool true))) (.str failure.code) (.str failure.message)).value) := by
      have hwf' : (envelopeOf task digest nodeId p failure.status (.obj (details (.str digest) observed (.bool true))) (.str failure.code)
          (.str failure.message)).value.WF := Envelope.wf hwf trivial trivial
      refine ⟨hlen, _, host.load_print _ _ hwf' hprint, envelope_isOf hshape rfl rfl rfl rfl, ?_, ?_⟩
      · exact fun heq => hstatus.2 (Option.some.inj heq)
      · intro mark m hmark
        rw [hnone] at hmark
        cases hmark
    refine passes_ok hshape ?_
    refine Spec.bind (writeJson_passes quiet (Q := Course host nodeId tasks marks kept (fileName task.id :: done)) course_timeless .conflicts _ _
      hprint hlen fun w hw => hw.conflict ha orderly _ _) fun _ => ?_
    exact writeJson_passes quiet course_timeless .outbox _ _ hprint hlen fun w hw => hw.pend_conflict ha orderly hagrees _

/-- A result of the task in the mailbox. -/
def Existing (host : JsonHost F) (w : World F R) (task : Task F) (digest : String) (existing : Value F) : Prop :=
  Reads host.toHost w.tree.results (fileName task.id) maxResultJsonBytes existing ∧ textOf existing "task_digest" = digest ∧
    validateResultShape host.toHost existing = .ok ()

include quiet tame orderly ha hnone in
/-- The result in the mailbox is the task's, or there is a marker of a conflict. -/
theorem loadRemoteOrQuarantine_passes :
    Passes (fun w : World F R => Course host nodeId tasks marks kept done w ∧ (results w).has (fileName task.id) = true)
      (loadRemoteOrQuarantine host.toHost env nodeId task digest) fun found w => match found with
        | none => Course host nodeId tasks marks kept (fileName task.id :: done) w
        | some existing => Course host nodeId tasks marks kept done w ∧ Existing host w task digest existing := by
  have htimeless : Timeless fun w : World F R => Course host nodeId tasks marks kept done w ∧ (results w).has (fileName task.id) = true :=
    fun w n h => ⟨course_timeless w n h.1, h.2⟩
  have hload := loadRemote_passes quiet htimeless ha.identity.1 (some task.action) (some nodeId) none fun w h => h.2
  unfold loadRemoteOrQuarantine
  refine Spec.bind (caught_passes hload) fun loaded => ?_
  cases loaded with
  | error failure =>
    refine Spec.pre (P := fun w => Course host nodeId tasks marks kept done w ∧ Mild 140 failure.message) (Spec.assume fun hmild => ?_)
      fun w h => ⟨h.1.1, h.2⟩
    have hbrief : ∀ f ∈ [("canonical_result_preserved", (.bool true : Value F)), ("incoming_task_digest", .str digest),
        ("observed_task_digest", .null), ("quarantined", .bool true), ("remote_validation_error", .str failure.message)],
        Brief host.floats f := by
      simp only [List.forall_mem_cons, List.not_mem_nil, false_imp_iff, implies_true, and_true]
      exact ⟨brief_true _ (by decide), brief_digest _ (by decide) ha.isDigest, brief_null _ (by decide), brief_true _ (by decide),
        brief_message _ (by decide) hmild⟩
    have hwidth := details_width host.floats hbrief
    have hcode : quoted "remote_result_invalid" = 23 := by decide
    have hmessage : quoted "canonical remote result is malformed/invalid" = 46 := by decide
    refine Spec.bind (quarantineTask_passes quiet tame orderly ha hnone ⟨by decide, by decide⟩ (by decide) (by decide) ?_ rfl ?_)
      fun _ => Spec.ret fun _ h => h
    · exact ⟨List.pairwise_map.mp (by decide : ["canonical_result_preserved", "incoming_task_digest", "observed_task_digest", "quarantined",
        "remote_validation_error"].Pairwise (· < ·)), trivial, trivial, trivial, trivial, trivial, trivial⟩
    · simp only [List.length_cons, List.length_nil] at hwidth
      show _ + quoted "canonical remote result is malformed/invalid" + quoted "remote_result_invalid" ≤ 1231
      omega
  | ok existing =>
    refine Spec.pre (P := fun w => (Course host nodeId tasks marks kept done w ∧
      Reads host.toHost (results w) (fileName task.id) maxResultJsonBytes existing) ∧
      (existing.WF ∧ validateResultShape host.toHost existing = .ok ())) (Spec.assume fun hexisting => ?_) ?_
    · obtain ⟨e, rfl, he⟩ := shape_envelope hexisting.1 hexisting.2
      have hbrief : ∀ f ∈ [("incoming_task_digest", (.str digest : Value F)), ("observed_task_digest", .str e.taskDigest),
          ("quarantined", .bool true)], Brief host.floats f := by
        simp only [List.forall_mem_cons, List.not_mem_nil, false_imp_iff, implies_true, and_true]
        exact ⟨brief_digest _ (by decide) ha.isDigest, brief_digest _ (by decide) he.taskDigest, brief_true _ (by decide)⟩
      have hwidth := details_width host.floats hbrief
      have hcode : quoted "remote_task_id_digest_conflict" = 32 := by decide
      have hmessage : quoted "remote task_id digest conflict" = 32 := by decide
      dsimp only
      rw [(text_envelope e).2.1, (text_envelope e).2.2.1]
      split
      · refine Spec.bind ((quarantineTask_passes quiet tame orderly ha hnone ⟨by decide, by decide⟩ (by decide) (by decide) ?_ rfl ?_).pre
          fun w h => h.1) fun _ => Spec.ret fun _ h => h
        · exact ⟨List.pairwise_map.mp (by decide : ["incoming_task_digest", "observed_task_digest", "quarantined"].Pairwise (· < ·)),
            trivial, trivial, trivial, trivial⟩
        · simp only [List.length_cons, List.length_nil] at hwidth
          show _ + quoted "remote task_id digest conflict" + quoted "remote_task_id_digest_conflict" ≤ 1231
          omega
      · next hsame =>
        exact Spec.ret fun w h => ⟨h.1, h.2, (text_envelope e).2.1.trans (by simpa using hsame), hexisting.2⟩
    · intro w h
      obtain ⟨⟨hcourse, -⟩, hreads, hvalid⟩ := h
      obtain ⟨raw, -, -, hraw⟩ := id hreads
      exact ⟨⟨hcourse, hreads⟩, host.load_wf _ _ hraw, remote_shape hvalid⟩

omit ha hnone in
theorem validateReceipt_own {host : Host F} {receipt saved : Value F} (h : validateReceipt host nodeId receipt task digest = .ok (some saved)) :
    validateRemoteResult host saved task.id (some task.action) (some nodeId) (some digest) = .ok () := by
  unfold validateReceipt at h
  split at h
  · simp only [bind_ok_iff] at h
    obtain ⟨_, -, h⟩ := h
    split at h
    · cases h
    · cases h
    · simp only [bind_ok_iff, pure, Except.pure, Except.ok.injEq] at h
      obtain ⟨_, hvalid, heq⟩ := h
      rw [← Option.some.inj heq]
      exact hvalid
  · cases h

include quiet orderly ha in
/-- A receipt that is there is read, or refused with a message of a few words. -/
theorem loadReceipt_passes (hdone : fileName task.id ∉ done) :
    Spec (fun w : World F R => Course host nodeId tasks marks kept done w ∧ w.receipts.has (fileName task.id) = true)
      (do
        let receipt ← loadJsonBounded host.toHost env (·.receipts) (fileName task.id) maxReceiptJsonBytes "local_receipt_invalid"
        lift (validateReceipt host.toHost nodeId receipt task digest) : Op F R (Option (Value F)))
      (fun saved w => (Course host nodeId tasks marks kept done w ∧ w.receipts.has (fileName task.id) = true) ∧
        ∀ v, saved = some v → Held host nodeId task digest v)
      (fun stop w => ∃ failure, stop = .failed failure ∧ (Course host nodeId tasks marks kept done w ∧
        w.receipts.has (fileName task.id) = true) ∧ Mild 140 failure.message) := by
  have htimeless : Timeless fun w : World F R => Course host nodeId tasks marks kept done w ∧ w.receipts.has (fileName task.id) = true :=
    fun w n h => ⟨course_timeless w n h.1, h.2⟩
  have hname : Mild 71 (fileName task.id) := (mild_taskId ha.identity.1).append (m := 5) (by decide)
  refine Spec.bind ((loadJson_passes quiet htimeless _ _ fun w h => h.2).weaken (fun _ h => h) (fun _ _ h => h) ?_) fun receipt => ?_
  · intro stop w h
    obtain ⟨hw, failure, rfl, hmessage⟩ := h
    refine ⟨failure, rfl, hw, ?_⟩
    rcases hmessage with hmessage | hmessage
    · rw [hmessage]
      exact (Mild.append (n := 28) (by decide) hname).mono (by decide)
    · rw [hmessage]
      exact (Mild.append (n := 27) (by decide) hname).mono (by decide)
  · cases hvalid : validateReceipt host.toHost nodeId receipt task digest with
    | error failure =>
      exact fun w hw => ⟨failure, rfl, hw.1, (mildly_receipt _ _ _ _ _ failure hvalid).mono (by decide)⟩
    | ok saved =>
      refine fun w hw => ⟨hw.1, fun v hv => ?_⟩
      obtain ⟨⟨hcourse, -⟩, raw, hraw, -, hload⟩ := hw
      subst hv
      have hkept := (hcourse.fresh task digest ha hdone).2.symm.trans hraw
      obtain ⟨hslim, hshort⟩ := orderly.receipt task digest ha raw receipt v hkept hload hvalid
      have hwf := fieldOf_wf (host.load_wf _ _ hload) "result"
      rw [fieldOf, (validateReceipt_ok hvalid).2 v rfl] at hwf
      exact ⟨hwf, hslim, hshort, validateReceipt_own hvalid⟩

include quiet ha in
/-- The result in the mailbox is kept as the receipt of the task. -/
theorem adopt_passes {existing : Value F} (record : Record) :
    Passes (fun w : World F R => Course host nodeId tasks marks kept done w ∧ Existing host w task digest existing)
      (writeReceipt host.toHost env task (record.receipt task digest existing))
      fun _ => Course host nodeId tasks marks kept (fileName task.id :: done) := by
  intro w hw
  obtain ⟨hcourse, ⟨raw, hraw, -, hload⟩, -, hshape⟩ := hw
  have hfits := short_fits host hshape (hcourse.served.result _ raw existing hraw hload hshape) ha.identity.1 ha.isDigest record
  exact receipt_passes quiet course_timeless task hfits (fun w raw m hw => hw.receipt raw m) w hcourse

include quiet tame canonical orderly ha hnone in
/-- What a task is refused with is kept and published. -/
theorem refuse_passes {raised : Raised F} (h : Sayable host.floats raised) :
    Passes (Course host nodeId tasks marks kept done : World F R → Prop)
      (do
        let provenance ← buildProvenance env
        persistResult host.toHost env task digest (resultError task digest nodeId raised provenance)
        publishOutbox host.toHost env)
      fun _ => Course host nodeId tasks marks kept (fileName task.id :: done) := by
  refine Spec.bind (buildProvenance_passes tame course_timeless) fun p => Spec.assume fun hp => ?_
  exact Spec.bind (persist_course quiet orderly ha hnone (h.keepable ha orderly.node (orderly.room _ _ ha) hp)) fun _ =>
    publish_course quiet canonical

include ha in
/-- A task with a receipt is counted. -/
theorem counted (hdone : fileName task.id ∉ done) (hkept : kept.has (fileName task.id) = true) {w : World F R}
    (h : Course host nodeId tasks marks kept done w) :
    w.receipts.has (fileName task.id) = true ∧ Course host nodeId tasks marks kept (fileName task.id :: done) w := by
  have hhas : w.receipts.has (fileName task.id) = true := by
    rw [Dir.has, (h.fresh task digest ha hdone).2]
    exact hkept
  exact ⟨hhas, h.known ha (.inl hhas)⟩

include quiet tame canonical orderly ha hnone in
/-- The receipt's result and the one in the mailbox are the same, or there is a marker of a conflict. -/
theorem compare_passes (hdone : fileName task.id ∉ done) (hkept : kept.has (fileName task.id) = true) {saved existing : Value F}
    (hheld : Held host nodeId task digest saved) :
    Passes (fun w : World F R => Course host nodeId tasks marks kept done w ∧ Existing host w task digest existing)
      (do
        let localDigest ← resultDigest host.toHost saved
        let remoteDigest ← resultDigest host.toHost existing
        if localDigest ≠ remoteDigest then do
          quarantineTaskConflict host.toHost env nodeId task digest
            (indeterminate "remote_result_content_conflict" "remote result content differs from durable local receipt")
            (fieldOf existing "task_digest")
            fun incoming observed yes => [("canonical_result_preserved", .bool true), ("incoming_task_digest", incoming),
              ("local_result_sha256", .str localDigest), ("observed_task_digest", observed), ("quarantined", yes),
              ("remote_result_sha256", .str remoteDigest)]
          publishOutbox host.toHost env
        else return)
      fun _ => Course host nodeId tasks marks kept (fileName task.id :: done) := by
  refine Spec.pre (P := fun w => Course host nodeId tasks marks kept done w ∧
    (existing.WF ∧ validateResultShape host.toHost existing = .ok ())) (Spec.assume fun hexisting => ?_) fun w h => ?_
  · obtain ⟨localDigest, hlocal, hlocalHex⟩ := shape_digested canonical (remote_shape hheld.own)
    obtain ⟨remoteDigest, hremote, hremoteHex⟩ := shape_digested canonical hexisting.2
    obtain ⟨e, rfl, he⟩ := shape_envelope hexisting.1 hexisting.2
    refine Spec.bind (digest_passes hlocal) fun d => Spec.assume fun hd => ?_
    subst hd
    refine Spec.bind (digest_passes hremote) fun d' => Spec.assume fun hd' => ?_
    subst hd'
    split
    · rw [(text_envelope e).2.2.1]
      have hbrief : ∀ f ∈ [("canonical_result_preserved", (.bool true : Value F)), ("incoming_task_digest", .str digest),
          ("local_result_sha256", .str d), ("observed_task_digest", .str e.taskDigest), ("quarantined", .bool true),
          ("remote_result_sha256", .str d')], Brief host.floats f := by
        simp only [List.forall_mem_cons, List.not_mem_nil, false_imp_iff, implies_true, and_true]
        exact ⟨brief_true _ (by decide), brief_digest _ (by decide) ha.isDigest, brief_digest _ (by decide) hlocalHex,
          brief_digest _ (by decide) he.taskDigest, brief_true _ (by decide), brief_digest _ (by decide) hremoteHex⟩
      have hwidth := details_width host.floats hbrief
      have hcode : quoted "remote_result_content_conflict" = 32 := by decide
      have hmessage : quoted "remote result content differs from durable local receipt" = 58 := by decide
      refine Spec.bind (quarantineTask_passes quiet tame orderly ha hnone ⟨by decide, by decide⟩ (by decide) (by decide) ?_ rfl ?_)
        fun _ => publish_course quiet canonical
      · exact ⟨List.pairwise_map.mp (by decide : ["canonical_result_preserved", "incoming_task_digest", "local_result_sha256",
          "observed_task_digest", "quarantined", "remote_result_sha256"].Pairwise (· < ·)), trivial, trivial, trivial, trivial, trivial,
          trivial, trivial⟩
      · simp only [List.length_cons, List.length_nil] at hwidth
        show _ + quoted "remote result content differs from durable local receipt" + quoted "remote_result_content_conflict" ≤ 1231
        omega
    · exact Spec.ret fun w h => (counted ha hdone hkept h).2
  · obtain ⟨raw, -, -, hraw⟩ := h.2.1
    exact ⟨h.1, host.load_wf _ _ hraw, h.2.2.2⟩

include quiet tame canonical orderly ha hnone in
theorem processReceipted_passes (hdone : fileName task.id ∉ done) (hkept : kept.has (fileName task.id) = true) :
    Passes (Course host nodeId tasks marks kept done : World F R → Prop)
      (processReceipted host.toHost env nodeId task digest) fun _ => Course host nodeId tasks marks kept (fileName task.id :: done) := by
  have htimeless : Timeless fun w : World F R => Course host nodeId tasks marks kept done w ∧ w.receipts.has (fileName task.id) = true :=
    fun w n h => ⟨course_timeless w n h.1, h.2⟩
  unfold processReceipted
  refine Spec.bind ((caught_passes (loadReceipt_passes quiet orderly ha hdone)).pre fun w h => ⟨h, (counted ha hdone hkept h).1⟩) fun loaded => ?_
  cases loaded with
  | error failure =>
    refine Spec.pre (P := fun w => Course host nodeId tasks marks kept done w ∧ Mild 140 failure.message) (Spec.assume fun hmild => ?_)
      fun w h => ⟨h.1.1, h.2⟩
    have hbrief : ∀ f ∈ [("incoming_task_digest", (.str digest : Value F)), ("observed_task_digest", .null), ("quarantined", .bool true),
        ("receipt_validation_error", .str failure.message)], Brief host.floats f := by
      simp only [List.forall_mem_cons, List.not_mem_nil, false_imp_iff, implies_true, and_true]
      exact ⟨brief_digest _ (by decide) ha.isDigest, brief_null _ (by decide), brief_true _ (by decide), brief_message _ (by decide) hmild⟩
    have hwidth := details_width host.floats hbrief
    have hcode : quoted "local_receipt_invalid" = 23 := by decide
    have hmessage : quoted "durable local receipt is malformed/invalid" = 44 := by decide
    refine Spec.bind (quarantineTask_passes quiet tame orderly ha hnone ⟨by decide, by decide⟩ (by decide) (by decide) ?_ rfl ?_)
      fun _ => publish_course quiet canonical
    · exact ⟨List.pairwise_map.mp (by decide : ["incoming_task_digest", "observed_task_digest", "quarantined",
        "receipt_validation_error"].Pairwise (· < ·)), trivial, trivial, trivial, trivial, trivial⟩
    · simp only [List.length_cons, List.length_nil] at hwidth
      show _ + quoted "durable local receipt is malformed/invalid" + quoted "local_receipt_invalid" ≤ 1231
      omega
  | ok saved =>
    refine Spec.assume fun hsaved => ?_
    refine Spec.bind (targetLexists_passes quiet htimeless _ _) fun taken => ?_
    cases taken with
    | true =>
      refine Spec.bind ((loadRemoteOrQuarantine_passes quiet tame orderly ha hnone).pre fun w h => ⟨h.1.1, h.2.symm⟩) fun found => ?_
      cases found with
      | none => exact publish_course quiet canonical
      | some existing =>
        cases saved with
        | none => exact adopt_passes quiet ha .remoteRecovery
        | some saved => exact compare_passes quiet tame canonical orderly ha hnone hdone hkept (hsaved saved rfl)
    | false =>
      cases saved with
      | some saved =>
        refine Spec.bind ((requeue_passes quiet orderly ha hnone (hsaved saved rfl) _).pre fun w h => h.1.1) fun _ => ?_
        exact (publish_course quiet canonical).weaken (fun _ h => h) (fun _ w h => (counted ha hdone hkept h).2) fun _ _ h => h
      | none =>
        have hsayable : Sayable host.floats (⟨indeterminate "outcome_unknown"
            "receipt exists but result payload is unavailable; refusing replay", []⟩ : Raised F) := by
          have hcode : quoted "outcome_unknown" = 17 := by decide
          have hmessage : quoted "receipt exists but result payload is unavailable; refusing replay" = 67 := by decide
          refine sayable_failure _ ⟨by decide, by decide⟩ ⟨by decide, ?_⟩ ⟨by decide, ?_⟩
          · show quoted "outcome_unknown" ≤ 10 ^ 16
            omega
          · show quoted "receipt exists but result payload is unavailable; refusing replay" ≤ 10 ^ 16
            omega
        exact (refuse_passes quiet tame canonical orderly ha hnone hsayable).pre fun w h => h.1.1

omit hnone in
include ha in
theorem started_fits : Fits host.toHost (startedReceipt task digest) := by
  have hid := quoted_taskId ha.identity.1
  have hdigest := quoted_digest ha.isDigest
  have hmax : maxReceiptJsonBytes = 9437184 := by decide
  have hsource : quoted "source" = 8 := by decide
  have hstarted : quoted "local_execution_started" = 25 := by decide
  have hname : quoted "task_digest" = 13 := by decide
  have hname' : quoted "task_id" = 9 := by decide
  have hquoted : ∀ s : String, width (indent host.floats false 1 (.str s)) = quoted s := fun s => rfl
  rw [startedReceipt, fits_iff host rfl, length_jsonText, width_obj]
  simp only [List.map_cons, List.map_nil, List.sum_cons, List.sum_nil, fieldWidth, Nat.reduceAdd, hquoted, hsource, hstarted, hname, hname']
  omega

include tame orderly ha in
theorem executeTask_passes :
    Passes (Course host nodeId tasks marks kept done : World F R → Prop) (executeTask host.toHost env nodeId task digest)
      fun r w => Course host nodeId tasks marks kept done w ∧ match r with
        | .ok value => Held host nodeId task digest value
        | .error raised => Sayable host.floats raised := by
  unfold executeTask
  refine Spec.bind (Q := fun answer w => Course host nodeId tasks marks kept done w ∧ ∃ p, answer = .ok p ∧ p.Valid)
    (fun w hw => ⟨course_timeless w _ hw, tame.provenance w.clock⟩) fun answer => Spec.assume fun hanswer => ?_
  obtain ⟨p, rfl, hp⟩ := hanswer
  refine Spec.bind (Q := fun _ => Course host nodeId tasks marks kept done)
    (Spec.update fun w hw => ⟨hw.waiting, hw.served, hw.fresh, hw.recorded⟩) fun _ => ?_
  refine Spec.bind (Q := fun handled w => Course host nodeId tasks marks kept done w ∧ ∃ n, env.handler n task.value = handled)
    (fun w hw => ⟨course_timeless w _ hw, w.clock, rfl⟩) fun handled => Spec.assume fun hhandled => ?_
  obtain ⟨n, rfl⟩ := hhandled
  have hwf := env.handler_wf n task.value
  cases heq : env.handler n task.value with
  | crashed => exact absurd heq (tame.alive n task.value)
  | raised raised => exact Spec.ret fun w hw => ⟨hw, tame.raised n task.value raised heq⟩
  | details fields =>
    rw [heq] at hwf
    have hbounded := bounded_success ha orderly.node (orderly.room _ _ ha) hp hwf (tame.details n task.value fields heq)
    dsimp only
    rcases hbounded with ⟨value, hok, hheld⟩ | ⟨failure, herror, hsayable⟩
    · rw [hok]
      exact Spec.ret fun w hw => ⟨hw, hheld⟩
    · rw [herror]
      exact Spec.ret fun w hw => ⟨hw, hsayable⟩

include tame orderly ha in
theorem executionResult_passes :
    Passes (Course host nodeId tasks marks kept done : World F R → Prop) (executionResult host.toHost env nodeId task digest)
      fun value w => Course host nodeId tasks marks kept done w ∧ Keepable host nodeId task digest value := by
  unfold executionResult
  refine Spec.bind (executeTask_passes tame orderly ha) fun r => ?_
  cases r with
  | ok value => exact Spec.ret fun w h => ⟨h.1, h.2.keepable⟩
  | error raised =>
    refine Spec.assume fun hraised => ?_
    refine Spec.bind (buildProvenance_passes tame course_timeless) fun p => Spec.assume fun hp => ?_
    exact Spec.ret fun w h => ⟨h, Sayable.keepable hraised ha orderly.node (orderly.room _ _ ha) hp⟩

variable (hchars : ∀ raw v, host.load raw = some v → v.chars ≤ raw.length)

include quiet tame canonical orderly ha hnone hchars in
/-- A task that was never seen is executed, or refused, and its result kept. -/
theorem processFresh_passes :
    Passes (Course host nodeId tasks marks kept done : World F R → Prop) (processFresh host.toHost env nodeId task digest)
      fun _ => Course host nodeId tasks marks kept (fileName task.id :: done) := by
  unfold processFresh
  cases hvalid : validateTask task.value with
  | error failure => exact refuse_passes quiet tame canonical orderly ha hnone (sayable_refused host.floats ha hchars hvalid)
  | ok _ =>
    have htwice : ∀ w : World F R, Course host nodeId tasks marks kept (fileName task.id :: fileName task.id :: done) w →
        Course host nodeId tasks marks kept (fileName task.id :: done) w := fun w h => h.congr fun name => by simp
    refine Spec.bind (receipt_passes quiet course_timeless task (started_fits ha) fun w raw m hw => hw.receipt raw m) fun _ => ?_
    refine Spec.bind (executionResult_passes tame orderly ha) fun value => Spec.assume fun hvalue => ?_
    refine Spec.bind (persist_course quiet orderly ha hnone hvalue) fun _ => ?_
    exact (publish_course quiet canonical).pre htwice

/-- A conflict record of the task in a directory. -/
def Recorded (host : JsonHost F) (nodeId : String) (marks dir : Dir Bytes) (task : Task F) (digest : String) (value : Value F) : Prop :=
  ∃ raw, dir.get (conflictName digest) = some raw ∧ host.load raw = some value ∧ Agrees host nodeId marks task digest raw

omit hnone ha in
theorem Recorded.agrees {dir : Dir Bytes} {value : Value F} (h : Recorded host nodeId marks dir task digest value) :
    value.WF ∧ IsOf host nodeId value task digest ∧ text? value "status" ≠ some "succeeded" ∧
      ∀ mark m, marks.get (conflictName digest) = some mark → host.load mark = some m → host.toHost.digest value = host.toHost.digest m := by
  obtain ⟨raw, -, hload, -, value', hload', hvalue⟩ := h
  rw [hload] at hload'
  cases hload'
  exact ⟨host.load_wf _ _ hload, hvalue⟩

include quiet in
omit ha hnone in
theorem loadRecorded_passes {P : World F R → Prop} (hP : Timeless P) (dir : World F R → Dir Bytes) (code : String)
    (hdir : ∀ w, P w → ∃ raw, (dir w).get (conflictName digest) = some raw ∧ Agrees host nodeId marks task digest raw) :
    Passes P (loadJsonBounded host.toHost env dir (conflictName digest) maxResultJsonBytes code)
      fun value w => P w ∧ Recorded host nodeId marks (dir w) task digest value := by
  refine (loads_passes quiet hP code fun w hw => ?_).weaken (fun _ h => h) (fun value w h => ⟨h.1, ?_⟩) fun _ _ h => h
  · obtain ⟨raw, hraw, hagrees⟩ := hdir w hw
    obtain ⟨value, hvalue, -⟩ := hagrees.value
    exact ⟨value, raw, hraw, hagrees.small, hvalue⟩
  · obtain ⟨raw, hraw, -, hvalue⟩ := h.2
    obtain ⟨raw', hraw', hagrees⟩ := hdir w h.1
    rw [hraw] at hraw'
    cases hraw'
    exact ⟨raw, hraw, hvalue, hagrees⟩

include quiet in
omit ha hnone in
theorem loadTaskConflict_passes {P : World F R → Prop} (hP : Timeless P) (dir : World F R → Dir Bytes) (code : String)
    (hdir : ∀ w, P w → ∃ raw, (dir w).get (conflictName digest) = some raw ∧ Agrees host nodeId marks task digest raw) :
    Passes P (loadTaskConflict host.toHost env nodeId dir (conflictName digest) task digest code)
      fun value w => P w ∧ Recorded host nodeId marks (dir w) task digest value := by
  unfold loadTaskConflict
  have hchecked : Spec P (do
      let value ← loadJsonBounded host.toHost env dir (conflictName digest) maxResultJsonBytes code
      lift (validateRemoteResult host.toHost value task.id (some task.action) (some nodeId) (some digest))
      lift (check (text? value "status" ≠ some "succeeded") (indeterminate code "conflict record cannot report success"))
      return value) (fun value w => P w ∧ Recorded host nodeId marks (dir w) task digest value)
      fun stop w => ∃ failure, stop = .failed failure ∧ False := by
    refine Spec.bind ((loadRecorded_passes quiet hP dir code hdir).weaken (fun _ h => h) (fun _ _ h => h) fun _ _ h => h.elim) fun value => ?_
    intro w hw
    obtain ⟨-, hown, hstatus, -⟩ := hw.2.agrees
    have hcheck : check (text? value "status" ≠ some "succeeded") (indeterminate code "conflict record cannot report success") = .ok () := by
      simpa using hstatus
    rw [show validateRemoteResult host.toHost value task.id (some task.action) (some nodeId) (some digest) = .ok () from hown, hcheck]
    exact hw
  refine Spec.bind (caught_passes hchecked) fun r => ?_
  cases r with
  | ok value => exact Spec.ret fun _ h => h
  | error failure => exact fun w h => h.elim

omit ha hnone in
/-- A pending conflict record of the task is taken for one. -/
theorem Recorded.local {dir : Dir Bytes} {value : Value F} (h : Recorded host nodeId marks dir task digest value) :
    validateLocalOutboxResult host.toHost value (conflictName digest) = .ok () := by
  obtain ⟨hwf, hown, hstatus, -⟩ := h.agrees
  have hshape := remote_shape hown
  obtain ⟨e, rfl, he⟩ := shape_envelope hwf hshape
  obtain ⟨-, -, -, hdigest⟩ := (isOf_iff hshape task digest).mp hown
  have hname : conflictFilename e.taskDigest = .ok (conflictName digest) := by
    rw [conflictFilename, if_pos he.taskDigest, conflictName, conflictName, hdigest]
  have htext : text? e.value "task_digest" = some e.taskDigest := by rfl
  unfold validateLocalOutboxResult
  rw [hshape, isConflictOutbox_conflictName]
  simp only [if_true, bind_ok_iff, check_ok, htext, Option.any_some, hname, Bool.and_eq_true, decide_eq_true_eq]
  exact ⟨(), trivial, trivial, by simpa using hstatus⟩

include quiet in
omit ha hnone in
theorem loadPendingConflict_passes (task : Task F) {P : World F R → Prop} (hP : Timeless P)
    (hdir : ∀ w, P w → ∃ raw, w.outbox.get (conflictName digest) = some raw ∧ Agrees host nodeId marks task digest raw) :
    Passes P (loadPending host.toHost env (conflictName digest))
      fun value w => P w ∧ Recorded host nodeId marks w.outbox task digest value := by
  refine Spec.bind (loadRecorded_passes quiet hP (·.outbox) _ hdir) fun value => ?_
  intro w h
  rw [h.2.local]
  exact h

omit hnone in
include ha in
theorem filename_ok : conflictFilenameOf task.id digest = .ok (conflictName digest) := by
  rw [conflictFilenameOf, if_pos (by simp [ha.identity.1, ha.isDigest]), conflictFilename, if_pos ha.isDigest]

include quiet canonical orderly ha in
omit hnone in
/-- A task with a marker: the records of its conflict are all the same. -/
theorem recoverTaskConflict_passes (hdone : fileName task.id ∉ done) (hmarked : marks.has (conflictName digest) = true) :
    Passes (Course host nodeId tasks marks kept done : World F R → Prop) (recoverTaskConflict host.toHost env nodeId task digest)
      fun _ => Course host nodeId tasks marks kept (fileName task.id :: done) := by
  obtain ⟨mark, hmark⟩ := has_iff.mp hmarked
  have hsame : ∀ w : World F R, Course host nodeId tasks marks kept done w → w.conflicts.get (conflictName digest) = some mark :=
    fun w hw => (hw.fresh task digest ha hdone).1.trans hmark
  have hknown : ∀ w : World F R, Course host nodeId tasks marks kept done w → Course host nodeId tasks marks kept (fileName task.id :: done) w :=
    fun w hw => hw.known ha (.inr (has_iff.mpr ⟨mark, hsame w hw⟩))
  unfold recoverTaskConflict
  refine passes_ok (filename_ok ha) ?_
  refine Spec.bind (loadTaskConflict_passes quiet course_timeless _ _ fun w hw => ⟨mark, hsame w hw, orderly.marker _ _ ha mark hmark⟩)
    fun saved => ?_
  refine Spec.pre (P := fun w => Course host nodeId tasks marks kept done w ∧ Recorded host nodeId marks marks task digest saved)
    (Spec.assume fun hsaved => ?_) fun w h => ⟨h.1, ?_⟩
  · obtain ⟨hwf, hown, hstatus, -⟩ := hsaved.agrees
    obtain ⟨savedDigest, hsavedDigest, -⟩ := shape_digested canonical (remote_shape hown)
    have hload : host.load mark = some saved := by
      obtain ⟨raw, hraw, hraw', -⟩ := hsaved
      rw [hmark] at hraw
      cases hraw
      exact hraw'
    have hequal : ∀ {dir : Dir Bytes} {value : Value F}, Recorded host nodeId marks dir task digest value →
        host.toHost.digest value = some savedDigest := by
      intro dir value hvalue
      rw [hvalue.agrees.2.2.2 mark saved hmark hload, hsavedDigest]
    refine Spec.bind (targetLexists_passes quiet course_timeless _ _) fun taken => ?_
    cases taken with
    | true =>
      refine Spec.bind (loadTaskConflict_passes quiet (P := fun w => Course host nodeId tasks marks kept done w ∧
        true = w.tree.conflicts.has (conflictName digest)) (fun w n h => ⟨course_timeless w n h.1, h.2⟩) _ _ fun w h => ?_) fun remote => ?_
      · obtain ⟨raw, hraw⟩ := has_iff.mp h.2.symm
        exact ⟨raw, hraw, h.1.served.conflict _ _ ha raw hraw⟩
      refine Spec.pre (P := fun w => Course host nodeId tasks marks kept done w ∧ host.toHost.digest remote = some savedDigest)
        (Spec.assume fun hremote => ?_) fun w h => ⟨h.1.1, hequal h.2⟩
      refine Spec.bind (digest_passes hremote) fun d => Spec.assume fun hd => ?_
      subst hd
      refine Spec.bind (digest_passes hsavedDigest) fun d' => Spec.assume fun hd' => ?_
      subst hd'
      rw [check, if_pos (by simp)]
      exact fun w h => hknown w h
    | false =>
      obtain ⟨hprint, hlen⟩ := jsonText_le (remote_shape hown)
      have hpublish : Passes (Course host nodeId tasks marks kept done : World F R → Prop) (publishOutbox host.toHost env)
          fun _ => Course host nodeId tasks marks kept (fileName task.id :: done) :=
        (publish_course quiet canonical).weaken (fun _ h => h) (fun _ w h => hknown w h) fun _ _ h => h
      refine Spec.bind ((targetLexists_passes quiet (P := Course host nodeId tasks marks kept done) course_timeless _ _).pre fun w h => h.1)
        fun pending => ?_
      cases pending with
      | true =>
        refine Spec.bind (loadPendingConflict_passes quiet task (P := fun w => Course host nodeId tasks marks kept done w ∧
          true = w.outbox.has (conflictName digest)) (fun w n h => ⟨course_timeless w n h.1, h.2⟩) fun w h => ?_) fun existing => ?_
        · obtain ⟨raw, hraw⟩ := has_iff.mp h.2.symm
          exact ⟨raw, hraw, h.1.waiting.conflict _ _ ha raw hraw⟩
        refine Spec.pre (P := fun w => Course host nodeId tasks marks kept done w ∧ host.toHost.digest existing = some savedDigest)
          (Spec.assume fun hexisting => ?_) fun w h => ⟨h.1.1, hequal h.2⟩
        refine Spec.bind (digest_passes hexisting) fun d => Spec.assume fun hd => ?_
        subst hd
        refine Spec.bind (digest_passes hsavedDigest) fun d' => Spec.assume fun hd' => ?_
        subst hd'
        rw [check, if_pos (by simp)]
        exact passes_ok rfl hpublish
      | false =>
        refine Spec.bind ((writeJson_passes quiet (P := Course host nodeId tasks marks kept done) (Q := Course host nodeId tasks marks kept done)
          course_timeless .outbox _ _ hprint hlen fun w hw => hw.pend_conflict ha orderly ⟨hlen, saved, host.load_print _ _ hwf hprint, hown,
            hstatus, fun mark' m hmark' hm => ?_⟩ _).pre fun w h => h.1) fun _ => hpublish
        rw [hmark] at hmark'
        cases hmark'
        rw [hload] at hm
        cases hm
        rfl
  · obtain ⟨raw, hraw, hload, hagrees⟩ := h.2
    exact ⟨raw, (h.1.fresh task digest ha hdone).1.symm.trans hraw, hload, hagrees⟩

include quiet tame canonical orderly ha hnone hchars in
theorem processUnmarked_passes (hdone : fileName task.id ∉ done) :
    Passes (Course host nodeId tasks marks kept done : World F R → Prop) (processUnmarked host.toHost env nodeId task digest)
      fun _ => Course host nodeId tasks marks kept (fileName task.id :: done) := by
  unfold processUnmarked
  refine passes_ok (filename_ok ha) ?_
  refine Spec.bind (targetLexists_passes quiet course_timeless _ _) fun taken => ?_
  cases taken with
  | true =>
    refine Spec.bind (loadTaskConflict_passes quiet (P := fun w => Course host nodeId tasks marks kept done w ∧
      true = w.tree.conflicts.has (conflictName digest)) (fun w n h => ⟨course_timeless w n h.1, h.2⟩) _ _ fun w h => ?_) fun existing => ?_
    · obtain ⟨raw, hraw⟩ := has_iff.mp h.2.symm
      exact ⟨raw, hraw, h.1.served.conflict _ _ ha raw hraw⟩
    refine Spec.pre (P := fun w => Course host nodeId tasks marks kept done w ∧ IsOf host nodeId existing task digest)
      (Spec.assume fun hexisting => ?_) fun w h => ⟨h.1.1, h.2.agrees.2.1⟩
    obtain ⟨hprint, hlen⟩ := jsonText_le (remote_shape hexisting)
    exact writeJson_passes quiet course_timeless .conflicts _ _ hprint hlen fun w hw => hw.conflict ha orderly _ _
  | false =>
    refine Spec.bind ((targetLexists_passes quiet (P := Course host nodeId tasks marks kept done) course_timeless _ _).pre fun w h => h.1)
      fun received => ?_
    cases received with
    | true =>
      refine Spec.pre (P := fun w => Course host nodeId tasks marks kept done w ∧ kept.has (fileName task.id) = true)
        (Spec.assume fun hkept => processReceipted_passes quiet tame canonical orderly ha hnone hdone hkept) fun w h => ⟨h.1, ?_⟩
      rw [Dir.has, ← (h.1.fresh task digest ha hdone).2]
      exact h.2.symm
    | false =>
      refine Spec.bind ((targetLexists_passes quiet (P := Course host nodeId tasks marks kept done) course_timeless _ _).pre fun w h => h.1)
        fun known => ?_
      cases known with
      | true =>
        refine Spec.bind ((loadRemoteOrQuarantine_passes quiet tame orderly ha hnone).pre fun w h => ⟨h.1, h.2.symm⟩) fun found => ?_
        cases found with
        | none => exact publish_course quiet canonical
        | some existing => exact adopt_passes quiet ha .remoteResult
      | false => exact (processFresh_passes quiet tame canonical orderly ha hnone hchars).pre fun w h => h.1

end

/-! ## The queue -/

variable (hchars : ∀ raw v, host.load raw = some v → v.chars ≤ raw.length)

include quiet tame canonical orderly hchars in
/-- One file of the queue: a task of this node is counted, any other file is passed over. -/
theorem processTask_passes {name : String} (hdone : name ∉ done) (hjson : isJson name = true) (hfile : tasks.has name = true) :
    Passes (Course host nodeId tasks marks kept done : World F R → Prop) (processTask host.toHost env nodeId name)
      fun _ => Course host nodeId tasks marks kept (name :: done) := by
  have hname : name = fileName (stem name) := pending_name hjson
  unfold processTask
  by_cases hours : ∃ task digest, Addressed host nodeId tasks task digest ∧ fileName task.id = name
  · obtain ⟨task, digest, ha, rfl⟩ := hours
    obtain ⟨raw, hraw, hlen, hload⟩ := ha.loaded
    refine Spec.bind (caught_passes (T := fun _ _ => False) ((loads_passes quiet (P := Course host nodeId tasks marks kept done) course_timeless _
      fun w hw => ⟨task.value, raw, by rw [hw.served.files]; exact hraw, hlen, hload⟩).weaken (fun _ h => h) (fun _ _ h => h)
        fun _ _ h => h.elim)) fun loaded => ?_
    cases loaded with
    | error failure => exact fun w h => h.elim
    | ok value =>
      refine Spec.pre (P := fun w => Course host nodeId tasks marks kept done w ∧ value = task.value) (Spec.assume fun hvalue => ?_)
        fun w h => ⟨h.1, ?_⟩
      · subst hvalue
        dsimp only
        rw [ha.trusted]
        dsimp only
        rw [ha.digest]
        refine passes_ok (filename_ok ha) ?_
        refine Spec.bind (targetLexists_passes quiet course_timeless _ _) fun marked => ?_
        cases marked with
        | true =>
          refine Spec.pre (P := fun w => Course host nodeId tasks marks kept done w ∧ marks.has (conflictName digest) = true)
            (Spec.assume fun hmarked => recoverTaskConflict_passes quiet canonical orderly ha hdone hmarked) fun w h => ⟨h.1, ?_⟩
          rw [Dir.has, ← (h.1.fresh task digest ha hdone).1]
          exact h.2.symm
        | false =>
          refine Spec.pre (P := fun w => Course host nodeId tasks marks kept done w ∧ marks.get (conflictName digest) = none)
            (Spec.assume fun hnone => processUnmarked_passes quiet tame canonical orderly ha hnone hchars hdone) fun w h => ⟨h.1, ?_⟩
          rw [← (h.1.fresh task digest ha hdone).1]
          exact Option.not_isSome_iff_eq_none.mp (by rw [← Dir.has, ← h.2]; decide)
      · obtain ⟨raw', hraw', -, hload'⟩ := h.2
        rw [h.1.served.files, hraw] at hraw'
        cases hraw'
        rw [hload] at hload'
        exact (Option.some.inj hload').symm
  · have hpass : ∀ w : World F R, Course host nodeId tasks marks kept done w → Course host nodeId tasks marks kept (name :: done) w := by
      intro w hw
      refine ⟨hw.waiting, hw.served, fun t d ht hmem => hw.fresh t d ht fun h => hmem (List.mem_cons_of_mem _ h), fun t d ht hmem => ?_⟩
      rcases List.mem_cons.mp hmem with heq | hmem
      · exact absurd ⟨t, d, ht, heq⟩ hours
      · exact hw.recorded t d ht hmem
    refine Spec.bind (caught_passes (T := fun _ => Course host nodeId tasks marks kept done) ((loadJson_passes quiet
      (P := Course host nodeId tasks marks kept done) course_timeless _ _ fun w hw => by rw [hw.served.files]; exact hfile).weaken
        (fun _ h => h) (fun _ _ h => h) fun stop w h => ?_)) fun loaded => ?_
    · obtain ⟨hw, failure, rfl, -⟩ := h
      exact ⟨failure, rfl, hw⟩
    cases loaded with
    | error failure => exact Spec.ret fun w h => hpass w h
    | ok value =>
      dsimp only
      cases htrusted : trustedLocalIdentity nodeId name value with
      | none => exact Spec.ret fun w h => hpass w h.1
      | some task =>
        dsimp only
        cases hdigest : host.digest value with
        | none => exact Spec.ret fun w h => hpass w h.1
        | some digest =>
          intro w h
          obtain ⟨hid, hvalue⟩ := trusted_identity htrusted
          obtain ⟨raw, hraw, hlen, hload⟩ := h.2
          rw [h.1.served.files] at hraw
          have hfileName : fileName task.id = name := by rw [hid, ← hname]
          refine absurd ⟨task, digest, ⟨⟨raw, by rwa [hfileName], hlen, by rwa [hvalue]⟩, ?_, by rwa [hvalue]⟩, hfileName⟩ hours
          rw [hfileName, hvalue, htrusted]

include quiet tame canonical orderly hchars in
theorem processEach_passes {names : List String} (hnodup : names.Nodup) (hfresh : ∀ name ∈ names, name ∉ done)
    (hjson : ∀ name ∈ names, isJson name = true) (hfile : ∀ name ∈ names, tasks.has name = true) :
    Passes (Course host nodeId tasks marks kept done : World F R → Prop) (processEach host.toHost env nodeId names)
      fun _ => Course host nodeId tasks marks kept (names.reverse ++ done) := by
  induction names generalizing done with
  | nil => exact Spec.ret fun _ h => h
  | cons name rest ih =>
    rw [List.nodup_cons] at hnodup
    have hmem := List.mem_cons_self (a := name) (l := rest)
    unfold processEach
    refine Spec.bind (processTask_passes quiet tame canonical orderly hchars (hfresh name hmem) (hjson name hmem) (hfile name hmem)) fun _ => ?_
    have hrest := @ih (name :: done) hnodup.2 (fun other hother hmem' => ?_) (fun other hother => hjson other (List.mem_cons_of_mem _ hother))
      fun other hother => hfile other (List.mem_cons_of_mem _ hother)
    · simpa using hrest
    · rcases List.mem_cons.mp hmem' with rfl | hdone
      · exact hnodup.1 hother
      · exact hfresh other (List.mem_cons_of_mem _ hother) hdone

/-- A committed task has a file of the queue. -/
theorem addressed_file {task : Task F} {digest : String} (ha : Addressed host nodeId tasks task digest) :
    fileName task.id ∈ tasks.names.filter isTaskFile := by
  obtain ⟨raw, hraw, -⟩ := ha.loaded
  have hid := ha.identity.1
  simp only [isTaskId, Bool.and_eq_true, decide_eq_true_eq] at hid
  have hsuffix : (".json".toList).length = 5 := by decide
  have hlong : 2 ≤ task.id.toList.length := by
    have hfour := hid.1.1.2
    rw [List.length_drop] at hfour
    omega
  refine List.mem_filter.mpr ⟨mem_names.mpr (has_iff.mpr ⟨raw, hraw⟩), ?_⟩
  rw [isTaskFile, isJson, fileName, String.toList_append, List.length_append, hsuffix, Nat.add_sub_cancel, List.drop_left,
    List.take_append_of_le_length hlong, hid.1.1.1]
  decide

include quiet orderly in
theorem boundedTaskFiles_passes :
    Passes (Course host nodeId tasks marks kept done : World F R → Prop) (boundedTaskFiles env)
      fun names w => Course host nodeId tasks marks kept done w ∧ names = tasks.names.filter isTaskFile := by
  unfold boundedTaskFiles
  refine Spec.bind (reading_passes quiet course_timeless _) fun _ => ?_
  refine Spec.bind (Q := fun w' w => Course host nodeId tasks marks kept done w ∧ w'.tree.tasks = tasks)
    (Spec.read fun w h => ⟨h, h.served.files⟩) fun w' => Spec.assume fun hfiles => ?_
  dsimp only
  rw [hfiles, check, if_pos (by simpa using orderly.few)]
  exact Spec.bind (Q := fun _ => Course host nodeId tasks marks kept done) (Spec.ret fun _ h => h) fun _ => Spec.ret fun w h => ⟨h, rfl⟩

end

theorem decode_length {raw : Bytes} {text : List Char} (h : decodeText raw = some text) : text.length ≤ raw.length := by
  rw [decodeText, Option.map_eq_some_iff] at h
  obtain ⟨chars, hchars, rfl⟩ := h
  have hbytes : chars.toList.utf8Encode = raw.toByteArray := by
    have hsome : raw.toByteArray.utf8Decode?.isSome = true := by rw [hchars]; rfl
    have hget : raw.toByteArray.utf8Decode?.get hsome = chars := by simp only [hchars, Option.get_some]
    rw [← hget]
    exact ByteArray.utf8Encode_get_utf8Decode?
  have hsize : ∀ text : List Char, text.length ≤ (encodeText text).length := by
    intro text
    induction text with
    | nil => exact Nat.le_refl _
    | cons c text ih =>
      have hpos := Char.utf8Size_pos c
      simp only [encodeText, List.flatMap_cons, List.length_append, String.length_utf8EncodeChar, List.length_cons] at ih ⊢
      omega
  have hlength : (encodeText chars.toList).length = raw.length := by
    have := congrArg ByteArray.size hbytes
    simpa [List.utf8Encode, encodeText] using this
  exact hlength ▸ hsize chars.toList

theorem standard_chars (fl : FloatText F) (sha256 : { f : Bytes → String // ∀ raw, hexText 64 (f raw) = true }) :
    ∀ raw v, (standard fl sha256).load raw = some v → v.chars ≤ raw.length := by
  intro raw v h
  obtain ⟨text, htext, hloads⟩ := Option.bind_eq_some_iff.mp h
  exact (loads_chars fl hloads).trans (decode_length htext)

theorem standard_canonical (fl : FloatText F) (sha256 : { f : Bytes → String // ∀ raw, hexText 64 (f raw) = true }) (v : Value F)
    (h : v.intsOk = true) : ∃ raw, (standard fl sha256).canonical v = some raw :=
  ⟨encodeText (dump fl false v), by show (dumps fl false v).map encodeText = _; rw [dumps, if_pos h]; rfl⟩

def readyValue : Value Empty :=
  .obj [("action", .str "node.status"), ("params", .obj []), ("schema_version", .str taskSchema), ("target_node", .str "node"),
    ("task_id", .str "LH0001")]

/-- One task of the node, and a file that is none. -/
def readyTasks : Dir Bytes := (Dir.empty.put "LH0002.json" []).put "LH0001.json" (jsonText noFloats readyValue)

def readyTree : Tree := ⟨readyTasks, .empty, .empty⟩

def readyEnv : Env Empty Unit where
  fate _ := .done
  git := ⟨fun _ r => (.ok readyTree, r), fun _ r _ => (.accepted, r)⟩
  provenance _ := .ok ⟨zeroDigest, zeroDigest, zeroDigest⟩
  handler _ _ := .details []
  handler_wf _ _ := ⟨List.Pairwise.nil, trivial⟩

def readyWorld : World Empty Unit := ⟨0, .empty, .empty, .empty, .empty, readyTree, (), []⟩

theorem ready_load : zeroHost.load (jsonText noFloats readyValue) = some readyValue := by
  have hkeys : ["action", "params", "schema_version", "target_node", "task_id"].Pairwise (· < ·) := by decide
  have hwf : readyValue.WF := ⟨List.pairwise_map.mp hkeys, trivial, ⟨List.Pairwise.nil, trivial⟩, trivial, trivial, trivial, trivial⟩
  exact zeroHost.load_print _ _ hwf (by rw [zeroHost.print_eq]; rfl)

def readyTask : Task Empty := ⟨readyValue, "LH0001", "node.status"⟩

theorem ready_trusted : trustedLocalIdentity "node" "LH0001.json" readyValue = some readyTask := by rfl

set_option maxRecDepth 10000 in
theorem ready_length : (jsonText noFloats readyValue).length ≤ 200 := by decide

theorem ready_addressed : Addressed zeroHost "node" readyTasks readyTask zeroDigest where
  loaded := ⟨_, get_put_self _ _ _, ready_length.trans (by decide), ready_load⟩
  trusted := ready_trusted
  digest := by rfl

/-- It is the only task of the node. -/
theorem ready_only {task : Task Empty} {digest : String} (h : Addressed zeroHost "node" readyTasks task digest) : task = readyTask := by
  obtain ⟨raw, hraw, -, hload⟩ := h.loaded
  by_cases hfirst : fileName task.id = "LH0001.json"
  · exact (h.unique ready_addressed hfirst).1
  · rw [readyTasks, get_put_ne _ hfirst, get_put] at hraw
    split at hraw
    · cases hraw
      have hnone : zeroHost.load [] = none := by
        show (decodeText (encodeText [])).bind (loads noFloats) = none
        rw [decode_encode]
        rfl
      rw [hnone] at hload
      cases hload
    · cases hraw

theorem ready_room : Roomy "node" readyTask := by
  have haction : quoted "node.status" = 13 := by decide
  have hnode : quoted "node" = 6 := by decide
  have hversion : quoted workerVersion = 17 := by decide
  have hspare : spareBytes = 1862 := rfl
  have hmax : maxResultJsonBytes = 8388608 := by decide
  show quoted "node.status" + 2 * quoted "node" + quoted workerVersion + spareBytes ≤ maxResultJsonBytes
  omega

theorem ready_orderly : Orderly zeroHost "node" readyTasks .empty .empty where
  node := by decide
  few := by
    have hlen : readyTasks.names.length = 2 := by
      rw [Dir.names, List.length_mergeSort]
      rfl
    rw [hlen]
    decide
  distinct t t' d h h' := (ready_only h).trans (ready_only h').symm
  room t d h := ready_only h ▸ ready_room
  marker t d _ raw hraw := by cases hraw
  receipt t d _ raw receipt saved hraw := by cases hraw

theorem ready_served : Served zeroHost "node" readyTasks .empty readyTree where
  files := rfl
  small _ _ h := by cases h
  conflict _ _ _ _ h := by cases h
  result _ _ _ h := by cases h

theorem ready_quiet : Quiet readyEnv (Served zeroHost "node" readyTasks .empty) where
  done _ := rfl
  fetched _ r := ⟨readyTree, r, rfl, ready_served⟩
  accepted _ r _ := ⟨r, rfl⟩

theorem ready_tame : Tame zeroHost.floats readyEnv where
  provenance _ := ⟨⟨zeroDigest, zeroDigest, zeroDigest⟩, rfl, by decide, by decide, by decide⟩
  alive _ _ h := by cases h
  details _ _ _ h := by
    cases h
    exact fair_nil _
  raised _ _ _ h := by cases h

theorem ready_waiting : Waiting zeroHost "node" readyTasks .empty .empty where
  conflict _ _ _ _ h := by cases h
  result _ _ _ _ h := by cases h

end LocalHand.Mailbox
