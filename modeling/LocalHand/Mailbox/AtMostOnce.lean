/-
The steps of `process_once`, each of which keeps what `Once` says, and its runs.
-/
import LocalHand.Mailbox.Once

namespace LocalHand.Mailbox

open PyJson Program Directory
open QuotaPayload (replaceField isStr)
open QuotaBridge (lookup_replaceField replaceField_wf lookup_wf)
open Framing (Bytes)

variable {F R : Type} {host : Host F} {env : Env F R} {nodeId : String}

/-- What holds wherever a call ends. -/
def Good (host : Host F) (w : World F R) : Prop := Sound host w.trace w.receipts

/-- What holds in the loop. -/
def Live (host : Host F) (w : World F R) : Prop := Good host w ∧ Visible w

theorem free_good : Free (Good host : World F R → Prop) where
  frame w w' htrace hreceipts _ h := by
    rw [Good, htrace, hreceipts]
    exact h
  mark w m hidle h := Sound.plain h (plain_of_idle hidle)

theorem Live.frame {w w' : World F R} (h : Live host w) (htrace : w'.trace = w.trace) (hreceipts : w'.receipts = w.receipts)
    (htree : w'.tree = w.tree) : Live host w' := by
  rw [Live, Good, Visible, htrace, hreceipts, htree]
  exact h

theorem Live.mark {w : World F R} (h : Live host w) {m : Mark F} (hm : m.isPlain = true) (hgit : m.isGit = false) : Live host (w.mark m) :=
  ⟨Sound.plain h.1 hm, h.2.imp (Recent.snoc · hgit) (Recent.snoc · hgit)⟩

theorem timeless_live : Timeless (Live host : World F R → Prop) := fun _ _ h => h

/-- A step in the loop. -/
abbrev Steps (host : Host F) {α : Type} (P : World F R → Prop) (m : Op F R α) (Q : α → World F R → Prop) : Prop :=
  Spec P m Q fun _ => Good host

theorem publishOutbox_live : Steps host (Live host) (publishOutbox host env) fun _ => Live host :=
  (publishOutbox_keeps free_good True).weaken (fun _ h => ⟨h.1, fun _ => h.2⟩) (fun _ _ h => ⟨h.1, h.2 trivial⟩) fun _ _ h => h

/-- What a timeless property of the loop is before a reading step, it is after it. -/
theorem Steps.of_spec {α : Type} {P : World F R → Prop} {m : Op F R α} {Q : α → World F R → Prop} (hP : ∀ w, P w → Good host w)
    {E : Stop → World F R → Prop} (h : Spec P m Q E) (hE : ∀ stop w, E stop w → P w) : Steps host P m Q :=
  h.weaken (fun _ h => h) (fun _ _ h => h) fun stop w hw => hP w (hE stop w hw)

section

variable {P : World F R → Prop} (hP : Timeless P) (hgood : ∀ w, P w → Good host w)
include hP hgood

theorem reading_steps (stop : Stop) : Steps host P (reading env stop) fun _ => P := Steps.of_spec hgood (reading_spec hP stop) fun _ _ h => h

theorem targetLexists_steps (dir : World F R → Dir Bytes) (name : String) :
    Steps host P (targetLexists env dir name) fun b w => P w ∧ b = (dir w).has name :=
  Steps.of_spec hgood (targetLexists_spec hP dir name) fun _ _ h => h

theorem loadJson_steps (dir : World F R → Dir Bytes) (name : String) (limit : Nat) (code : String) :
    Steps host P (loadJsonBounded host env dir name limit code) fun value w => P w ∧ Reads host (dir w) name limit value :=
  Steps.of_spec hgood (loadJson_spec hP dir name limit code) fun _ _ h => h.1

theorem buildProvenance_steps : Steps host P (buildProvenance env) fun _ => P := by
  refine Spec.bind (ask_spec hP _) fun answer => ?_
  cases answer with
  | ok provenance => exact Spec.ret fun _ h => h
  | error stop => exact Spec.raise fun w h => hgood w h

omit hP in
theorem lift_steps {α : Type} (x : Except Failure α) : Steps host P (lift x) fun a w => P w ∧ x = .ok a :=
  Steps.of_spec hgood (lift_spec x) fun _ _ h => h

omit hP in
theorem resultDigest_steps (value : Value F) : Steps host P (resultDigest host value) fun digest w => P w ∧ host.digest value = some digest :=
  Steps.of_spec hgood (resultDigest_spec value) fun _ _ h => h

end

theorem Live.good {w : World F R} (h : Live host w) : Good host w := h.1

/-- A conflict record written, as a marker or to the outbox. -/
theorem writeConflict_live {place : Place} (hplace : place ≠ .receipts) {name : String} (hname : isConflictOutbox name = true)
    (value : Value F) (limit : Nat) (code : String) :
    Steps host (Live host) (writeJsonAtomic host env place name value limit code) fun _ => Live host := by
  have hwrite : ∀ (w : World F R) data durable, Live host w →
      Live host ((w.with place ((w.place place).put name data)).mark (.wrote place name ((w.place place).get name) data durable)) := by
    intro w data durable h
    cases place with
    | outbox =>
      have hframe : Live host { w with outbox := w.outbox.put name data } := h.frame rfl rfl rfl
      exact hframe.mark hname rfl
    | receipts => exact absurd rfl hplace
    | conflicts =>
      have hframe : Live host { w with conflicts := w.conflicts.put name data } := h.frame rfl rfl rfl
      exact hframe.mark rfl rfl
  exact writeJsonAtomic_spec timeless_live place name value limit code (fun _ h => h.1) (fun w data h _ _ => hwrite w data true h)
    fun w data h _ _ => (hwrite w data false h).1

theorem quarantineTaskConflict_live (task : Task F) (digest : String) (failure : Failure) (observed : Value F)
    (details : Value F → Value F → Value F → List (String × Value F)) :
    Steps host (Live host) (quarantineTaskConflict host env nodeId task digest failure observed details) fun _ => Live host := by
  refine Spec.bind (lift_steps (fun _ h => h.1) _) fun name => ?_
  rintro w ⟨hw, hname⟩
  obtain ⟨rfl, -⟩ := conflictFilenameOf_ok hname
  refine (?_ : Steps host (Live host) _ _) w hw
  refine Spec.bind (Q := fun _ => Live host) (Spec.read fun _ h => h) fun w' => ?_
  refine (?_ : Spec _ (if w'.conflicts.has _ = true then _ else _) _ _)
  split
  · exact Spec.ret fun _ h => h
  · refine Spec.bind (buildProvenance_steps timeless_live (fun _ h => h.1)) fun provenance => ?_
    refine Spec.bind ((lift_steps (fun _ h => h.1) _).weaken (fun _ h => h) (fun _ _ h => h.1) fun _ _ h => h) fun _ => ?_
    refine Spec.bind (writeConflict_live (by simp) (isConflictOutbox_conflictName digest) _ _ _) fun _ => ?_
    exact writeConflict_live (by simp) (isConflictOutbox_conflictName digest) _ _ _

theorem loadTaskConflict_live (dir : World F R → Dir Bytes) (name : String) (task : Task F) (digest code : String) :
    Steps host (Live host) (loadTaskConflict host env nodeId dir name task digest code) fun _ => Live host := by
  refine Spec.bind (Q := fun r w => Live host w) ?_ fun r => ?_
  · refine (caught_spec (Q := fun _ => Live host) (E := fun _ => Live host) ?_).weaken (fun _ h => h) ?_ fun _ _ h => h.1
    · refine Spec.bind ((loadJson_spec timeless_live dir name _ _).weaken (fun _ h => h) (fun _ _ h => h.1) fun _ _ h => h.1) fun value => ?_
      refine Spec.bind (lift_keeps _) fun _ => ?_
      refine Spec.bind (lift_keeps _) fun _ => ?_
      exact Spec.ret fun _ h => h
    · intro r w h
      cases r <;> exact h
  · cases r with
    | ok value => exact Spec.ret fun _ h => h
    | error failure => exact Spec.raise fun _ h => h.1

theorem recoverTaskConflict_live (task : Task F) (digest : String) :
    Steps host (Live host) (recoverTaskConflict host env nodeId task digest) fun _ => Live host := by
  have hdigest : ∀ v : Value F, Steps host (Live host : World F R → Prop) (resultDigest host v) fun _ => Live host :=
    fun v => (resultDigest_steps (fun _ h => h.1) v).weaken (fun _ h => h) (fun _ _ h => h.1) fun _ _ h => h
  have hlift : ∀ x : Except Failure Unit, Steps host (Live host : World F R → Prop) (lift x) fun _ => Live host :=
    fun x => (lift_steps (fun _ h => h.1) x).weaken (fun _ h => h) (fun _ _ h => h.1) fun _ _ h => h
  have hexists : ∀ (dir : World F R → Dir Bytes) name, Steps host (Live host) (targetLexists env dir name) fun _ => Live host :=
    fun dir name => (targetLexists_steps timeless_live (fun _ h => h.1) dir name).weaken (fun _ h => h) (fun _ _ h => h.1) fun _ _ h => h
  refine Spec.bind (lift_steps (fun _ h => h.1) _) fun name => ?_
  rintro w ⟨hw, hname⟩
  obtain ⟨rfl, -⟩ := conflictFilenameOf_ok hname
  refine (?_ : Steps host (Live host) _ _) w hw
  refine Spec.bind (loadTaskConflict_live _ _ _ _ _) fun saved => ?_
  refine Spec.bind (hexists _ _) fun remote => ?_
  cases remote with
  | true =>
    refine Spec.bind (loadTaskConflict_live _ _ _ _ _) fun remote => ?_
    refine Spec.bind (hdigest remote) fun _ => ?_
    refine Spec.bind (hdigest saved) fun _ => ?_
    exact hlift _
  | false =>
    refine Spec.bind (hexists _ _) fun pending => ?_
    cases pending with
    | true =>
      refine Spec.bind ((loadPending_spec timeless_live _).weaken (fun _ h => h) (fun _ _ h => h.1) fun _ _ h => h.1.1) fun existing => ?_
      refine Spec.bind (hdigest existing) fun _ => ?_
      refine Spec.bind (hdigest saved) fun _ => ?_
      exact Spec.bind (hlift _) fun _ => publishOutbox_live
    | false =>
      exact Spec.bind (writeConflict_live (by simp) (isConflictOutbox_conflictName digest) _ _ _) fun _ => publishOutbox_live

/-! ## Results of the mailbox -/

theorem remote_shape {value : Value F} {taskId : String} {action targetNode digest : Option String}
    (h : validateRemoteResult host value taskId action targetNode digest = .ok ()) : validateResultShape host value = .ok () := by
  unfold validateRemoteResult at h
  cases hshape : validateResultShape host value with
  | ok _ => rfl
  | error failure =>
    rw [hshape] at h
    cases h

/-- A result is of a digest it names. -/
theorem shape_digest {value : Value F} (h : validateResultShape host value = .ok ()) :
    text? value "task_digest" = some (textOf value "task_digest") := by
  have hvalid := shape_text h (show ("task_digest", isDigest) ∈ textChecks by simp [textChecks])
  cases htext : text? value "task_digest" with
  | none =>
    rw [htext] at hvalid
    cases hvalid
  | some digest => rw [textOf, htext]; rfl

theorem loadRemoteOrQuarantine_live {X : World F R → Prop} (hX : Timeless X) (task : Task F) (digest : String) :
    Steps host (fun w => Live host w ∧ X w) (loadRemoteOrQuarantine host env nodeId task digest) fun r w =>
      Live host w ∧ ∀ existing, r = some existing → X w ∧
        Reads host w.tree.results (fileName task.id) maxResultJsonBytes existing ∧ text? existing "task_digest" = some digest := by
  have hboth : Timeless fun w : World F R => Live host w ∧ X w := fun w n h => ⟨h.1, hX w n h.2⟩
  have hquarantine : ∀ (failure : Failure) (observed : Value F) details, Steps host (Live host)
      (quarantineTaskConflict host env nodeId task digest failure observed details >>= fun _ => pure none) fun r w =>
      Live host w ∧ ∀ existing, r = some existing → X w ∧
        Reads host w.tree.results (fileName task.id) maxResultJsonBytes existing ∧ text? existing "task_digest" = some digest :=
    fun failure observed details => Spec.bind (quarantineTaskConflict_live task digest failure observed details) fun _ =>
      Spec.ret fun _ h => ⟨h, by simp⟩
  have hload := caught_spec (loadRemoteResult_spec host env hboth (fileName task.id) task.id (some task.action) (some nodeId) none)
  refine Spec.bind (hload.weaken (fun _ h => h) (fun _ _ h => h) fun _ _ h => h.1.1) fun loaded => ?_
  cases loaded with
  | error failure => exact (hquarantine _ _ _).pre fun _ h => h.1
  | ok existing =>
    refine (?_ : Spec (fun w => ((Live host w ∧ X w) ∧ Reads host w.tree.results (fileName task.id) maxResultJsonBytes existing) ∧
      validateRemoteResult host existing task.id (some task.action) (some nodeId) none = .ok ())
      (if textOf existing "task_digest" ≠ digest then _ else _) _ _)
    split
    · exact (hquarantine _ _ _).pre fun _ h => h.1.1.1
    · next hsame =>
      refine Spec.ret ?_
      rintro w ⟨⟨⟨hlive, hx⟩, hreads⟩, hvalid⟩
      refine ⟨hlive, ?_⟩
      rintro _ ⟨rfl⟩
      have htext := shape_digest (remote_shape hvalid)
      rw [not_not.mp hsame] at htext
      exact ⟨hx, hreads, htext⟩

/-! ## Receipts -/

/-- A result of the mailbox may be recorded for its digest. -/
theorem allowed_visible {w : World F R} (hvisible : Visible w) {pre post : List (Mark F)} {x : Mark F} (heq : w.trace = pre ++ x :: post)
    {id digest : String} (hx : Starts host id digest x) {v : Value F} (hreads : Reads host w.tree.results (fileName id) maxResultJsonBytes v)
    (htext : text? v "task_digest" = some digest) : Allowed host pre post id digest v := by
  obtain ⟨-, _, _, _, rfl, -⟩ := hx
  have hmem : ∀ {m : Mark F}, m.isGit = true → Recent w.trace m → m ∈ pre ++ post := by
    rintro m hgit ⟨before, after, hsplit, -⟩
    have hin : m ∈ w.trace := by simp [hsplit]
    rw [heq] at hin
    rcases List.mem_append.mp hin with hin | hin
    · exact List.mem_append_left _ hin
    · rcases List.mem_cons.mp hin with rfl | hin
      · cases hgit
      · exact List.mem_append_right _ hin
  exact .inr (.inr ⟨w.tree, hvisible.imp (hmem rfl) (hmem rfl), hreads, htext⟩)

/-- A receipt written with a result that may be recorded. -/
theorem writeReceipt_live {X : World F R → Prop} (hX : Timeless X) (task : Task F) {receipt v : Value F} (hwf : receipt.WF)
    (hresult : receipt.get? "result" = some v)
    (hallowed : ∀ w, Live host w → X w → ∀ pre x digest post, w.trace = pre ++ x :: post → Starts host task.id digest x →
      text? receipt "task_digest" = some digest ∧ Allowed host pre post task.id digest v) :
    Steps host (fun w => Live host w ∧ X w) (writeReceipt host env task receipt) fun _ => Live host := by
  have hwrite : ∀ (w : World F R) data durable, Live host w ∧ X w → host.print receipt = some data →
      Live host ((w.with .receipts ((w.place .receipts).put (fileName task.id) data)).mark
        (.wrote .receipts (fileName task.id) ((w.place .receipts).get (fileName task.id)) data durable)) :=
    fun w data durable h hprint => ⟨Sound.receipted h.1.1 (host.load_print _ _ hwf hprint) hresult (hallowed w h.1 h.2),
      h.1.2.imp (Recent.snoc · rfl) (Recent.snoc · rfl)⟩
  exact writeJsonAtomic_spec (fun w n h => ⟨h.1, hX w n h.2⟩) .receipts _ receipt _ _ (fun _ h => h.1.1)
    (fun w data h hprint _ => hwrite w data true h hprint) fun w data h hprint _ => (hwrite w data false h hprint).1

/-! ## Results -/

theorem resultOf_wf (task : Task F) (digest nodeId : String) (provenance : Provenance) (status : String) {details errorCode error : Value F}
    (hdetails : details.WF) (hcode : errorCode.WF) (herror : error.WF) :
    (resultOf task digest nodeId provenance status details errorCode error).WF := by
  have hkeys : ["action", "details", "error", "error_code", "implementation_commit", "node_id", "package_digest", "profile_digest",
      "schema_version", "status", "target_node", "task_digest", "task_id", "worker_version"].Pairwise (· < ·) := by decide
  exact ⟨List.pairwise_map.mp hkeys, trivial, hdetails, herror, hcode, trivial, trivial, trivial, trivial, trivial, trivial, trivial,
    trivial, trivial, trivial, trivial⟩

theorem resultError_wf (task : Task F) (digest nodeId : String) {raised : Raised F} (provenance : Provenance)
    (h : (Value.obj raised.details).WF) : (resultError task digest nodeId raised provenance).WF :=
  resultOf_wf task digest nodeId provenance _ h trivial trivial

/-- A result is bounded as it is, or with its details omitted; one that reports no success keeps its status. -/
theorem bounded_cases {result v : Value F} (h : boundedExecutionResult host result = .ok v) (hwf : result.WF) :
    v.WF ∧ (text? result "status" = some "indeterminate" → text? v "status" = some "indeterminate") := by
  unfold boundedExecutionResult at h
  split at h
  · cases h
    exact ⟨hwf, id⟩
  · split at h
    · cases h
    · simp only [bind_ok_iff] at h
      obtain ⟨_, -, hv⟩ := h
      cases hv
      have hstatus : ((result.get? "status").getD .null).WF := fieldOf_wf hwf "status"
      refine ⟨withFields_wf hwf ?_, ?_⟩
      · simp only [List.forall_mem_cons, List.not_mem_nil, false_imp_iff, implies_true, and_true]
        have hkeys : ["original_details_omitted", "original_error_code", "original_error_code_truncated", "original_result_json_bytes",
            "original_result_sha256", "original_status", "result_limit_bytes"].Pairwise (· < ·) := by decide
        refine ⟨?_, trivial, trivial, List.pairwise_map.mp hkeys, trivial, ?_, trivial, trivial, trivial, hstatus, trivial, trivial⟩
        · split
          · trivial
          · exact hstatus
        · cases text? result "error_code" <;> trivial
      · intro hindeterminate
        cases result with
        | obj fields =>
          simp only [text?, Value.get?] at hindeterminate
          cases hfield : lookup fields "status" with
          | none =>
            rw [hfield] at hindeterminate
            cases hindeterminate
          | some field =>
            rw [hfield] at hindeterminate
            cases field with
            | str s =>
              cases hindeterminate
              simp [withFields, text?, Value.get?, lookup_replaceField, hfield, isStr]
            | null | bool b | int i | float x | arr xs | obj fs => cases hindeterminate
        | null | bool b | int i | float x | str s | arr xs => cases hindeterminate

/-- The execution of the id started in this call, or the result to be recorded is of
an unknown outcome. -/
def Recordable (host : Host F) (task : Task F) (digest : String) (result : Value F) (w : World F R) : Prop :=
  ∀ pre x digest' post, w.trace = pre ++ x :: post → Starts host task.id digest' x →
    digest' = digest ∧ (.began ∉ post ∨ ∀ v, boundedExecutionResult host result = .ok v → Unknown host v)

theorem persistResult_live (task : Task F) (digest : String) {result : Value F} (hwf : result.WF) :
    Steps host (fun w => Live host w ∧ Recordable host task digest result w) (persistResult host env task digest result) fun _ => Live host := by
  have htimeless : Timeless fun w : World F R => Live host w ∧ Recordable host task digest result w := fun _ _ h => h
  refine Spec.bind (lift_steps (fun _ h => h.1.1) _) fun v => ?_
  rintro w ⟨hw, hbounded⟩
  refine (?_ : Steps host (fun w => Live host w ∧ Recordable host task digest result w) _ _) w hw
  obtain ⟨hv, -⟩ := bounded_cases hbounded hwf
  let X (w : World F R) : Prop := ∀ pre x digest' post, w.trace = pre ++ x :: post → Starts host task.id digest' x →
    text? (finalReceipt task digest v) "task_digest" = some digest' ∧ Allowed host pre post task.id digest' v
  have hwrite : ∀ (w : World F R) data durable, Live host w ∧ Recordable host task digest result w → host.print v = some data →
      Live host ((w.with .outbox ((w.place .outbox).put (fileName task.id) data)).mark
          (.wrote .outbox (fileName task.id) ((w.place .outbox).get (fileName task.id)) data durable)) ∧
        X ((w.with .outbox ((w.place .outbox).put (fileName task.id) data)).mark
          (.wrote .outbox (fileName task.id) ((w.place .outbox).get (fileName task.id)) data durable)) := by
    rintro w data durable ⟨hlive, hrecordable⟩ hprint
    have hload := host.load_print _ _ hv hprint
    refine ⟨⟨Sound.result hlive.1 hload ?_, hlive.2.imp (Recent.snoc · rfl) (Recent.snoc · rfl)⟩, ?_⟩
    · intro pre x digest' post heq hx hbegan
      obtain ⟨-, hsame | hunknown⟩ := hrecordable pre x digest' post heq hx
      · exact absurd hbegan hsame
      · exact .inr (.inl (hunknown v hbounded))
    · intro pre x digest' post heq hx
      rcases split_snoc heq with ⟨rest, hrest, rfl⟩ | ⟨-, rfl, -⟩
      · obtain ⟨rfl, hsame | hunknown⟩ := hrecordable pre x digest' rest hrest hx
        · exact ⟨rfl, .inl ⟨rest, _, data, durable, [], rfl, hsame, hload⟩⟩
        · exact ⟨rfl, .inr (.inl (hunknown v hbounded))⟩
      · exact absurd hx (not_starts (by simp))
  refine Spec.bind (Q := fun _ w => Live host w ∧ X w) ?_ fun _ => ?_
  · exact writeJsonAtomic_spec htimeless .outbox _ v _ _ (fun _ h => h.1.1) (fun w data h hprint _ => hwrite w data true h hprint)
      fun w data h hprint _ => (hwrite w data false h hprint).1.1
  · have hkeys : ["result", "status", "task_digest", "task_id"].Pairwise (· < ·) := by decide
    have hreceipt : (finalReceipt task digest v).WF := ⟨List.pairwise_map.mp hkeys, hv, fieldOf_wf hv _, trivial, trivial, trivial⟩
    exact writeReceipt_live (fun _ _ h => h) task hreceipt rfl fun _ _ hx => hx

/-! ## Executions -/

/-- An execution of the id is of this digest, and has started in this call. -/
def Latest (host : Host F) (task : Task F) (digest : String) (w : World F R) : Prop :=
  ∀ pre x digest' post, w.trace = pre ++ x :: post → Starts host task.id digest' x → digest' = digest ∧ .began ∉ post

theorem latest_started {task : Task F} {digest : String} {trace : List (Mark F)} {raw : Bytes} {durable : Bool}
    (h : Unstarted host trace task.id) (hload : host.load raw = some (startedReceipt task digest)) (pre : List (Mark F)) (x : Mark F)
    (digest' : String) (post : List (Mark F)) (heq : trace ++ [.wrote .receipts (fileName task.id) none raw durable] = pre ++ x :: post)
    (hx : Starts host task.id digest' x) : digest' = digest ∧ .began ∉ post := by
  rcases split_snoc heq with ⟨rest, hrest, -⟩ | ⟨-, rfl, rfl⟩
  · exact (h.elim hrest hx).elim
  · obtain ⟨-, t, raw', durable', hm, -, hraw⟩ := hx
    simp only [Mark.wrote.injEq] at hm
    obtain ⟨-, -, -, rfl, -⟩ := hm
    rw [hload] at hraw
    simp only [startedReceipt, Option.some.injEq, Value.obj.injEq, List.cons.injEq, Prod.mk.injEq, Value.str.injEq, true_and, and_true] at hraw
    exact ⟨hraw.1.symm, List.not_mem_nil⟩

theorem Latest.executed {task : Task F} {digest : String} {w : World F R} (h : Latest host task digest w) (disk : Disk) :
    Latest host task digest (w.mark (.executed task disk)) := by
  intro pre x digest' post heq hx
  rcases split_snoc heq with ⟨rest, hrest, rfl⟩ | ⟨-, rfl, -⟩
  · obtain ⟨hdigest, hbegan⟩ := h pre x digest' rest hrest hx
    exact ⟨hdigest, by simpa using hbegan⟩
  · exact absurd hx (not_starts (by simp))

/-- What a handler may be called in. -/
def Ready (host : Host F) (task : Task F) (digest : String) (w : World F R) : Prop :=
  Latest host task digest w ∧ Begun host w.trace task ⟨w.receipts, w.conflicts, w.tree⟩ ∧
    ∀ t disk, .executed t disk ∈ w.trace → t.id ≠ task.id

def Executed (r : Except (Raised F) (Value F)) : Prop :=
  match r with
  | .ok result => result.WF
  | .error raised => (Value.obj raised.details).WF

theorem raised_wf {stop : Stop} {raised : Raised F} (h : stop.raised = some raised) : (Value.obj raised.details).WF := by
  cases stop with
  | failed failure | unavailable message | outside =>
    cases h
    exact ⟨.nil, trivial⟩
  | crashed => cases h

theorem executeTask_live (task : Task F) (digest : String) :
    Steps host (fun w => Live host w ∧ Ready host task digest w) (executeTask host env nodeId task digest) fun r w =>
      (Live host w ∧ Latest host task digest w) ∧ Executed r := by
  refine Spec.bind (ask_spec (fun _ _ h => h) _) fun answer => ?_
  cases answer with
  | error stop =>
    dsimp only
    split
    · next raised hraised => exact Spec.ret fun w h => ⟨⟨h.1, h.2.1⟩, raised_wf hraised⟩
    · exact Spec.raise fun w h => h.1.1
  | ok provenance =>
    refine Spec.bind (Q := fun _ w => Live host w ∧ Latest host task digest w) (Spec.update ?_) fun _ => ?_
    · rintro w ⟨hlive, hlatest, hbegun, hnone⟩
      exact ⟨⟨Sound.executed hlive.1 hbegun hnone, hlive.2.imp (Recent.snoc · rfl) (Recent.snoc · rfl)⟩, hlatest.executed _⟩
    refine Spec.bind (Q := fun handled w => (Live host w ∧ Latest host task digest w) ∧ handled.WF) ?_ fun handled => ?_
    · exact fun w h => ⟨h, env.handler_wf w.clock task.value⟩
    cases handled with
    | details fields =>
      rintro w ⟨hw, hfields⟩
      have hwf : (resultSuccess task digest nodeId provenance (.obj fields)).WF := resultOf_wf task digest nodeId provenance _ hfields trivial trivial
      refine (?_ : Steps host (fun w => Live host w ∧ Latest host task digest w) _ _) w hw
      dsimp only
      split
      · next result hbounded => exact Spec.ret fun v hv => ⟨hv, (bounded_cases hbounded hwf).1⟩
      · exact Spec.ret fun v hv => ⟨hv, .nil, trivial⟩
    | raised raised => exact Spec.ret fun w h => h
    | crashed => exact Spec.raise fun w h => h.1.1.1

theorem executionResult_live (task : Task F) (digest : String) :
    Steps host (fun w => Live host w ∧ Ready host task digest w) (executionResult host env nodeId task digest) fun result w =>
      (Live host w ∧ Latest host task digest w) ∧ result.WF := by
  refine Spec.bind (executeTask_live task digest) fun answer => ?_
  cases answer with
  | ok result => exact Spec.ret fun w h => h
  | error raised =>
    rintro w ⟨hw, hraised⟩
    refine (?_ : Steps host (fun w => Live host w ∧ Latest host task digest w) _ _) w hw
    refine Spec.bind (buildProvenance_steps (fun _ _ h => h) fun _ h => h.1.1) fun provenance => ?_
    exact Spec.ret fun v hv => ⟨hv, resultError_wf task digest nodeId provenance hraised⟩

/-- A task nothing else knows of. -/
def Unknowing (task : Task F) (digest : String) (w : World F R) : Prop :=
  w.receipts.get (fileName task.id) = none ∧ w.conflicts.get (conflictName digest) = none ∧
    w.tree.conflicts.get (conflictName digest) = none ∧ w.tree.results.get (fileName task.id) = none

theorem processFresh_live {task : Task F} {digest : String} (hdigest : host.digest task.value = some digest) (hid : isTaskId task.id = true) :
    Steps host (fun w => Live host w ∧ Unknowing task digest w) (processFresh host env nodeId task digest) fun _ => Live host := by
  have htimeless : Timeless fun w : World F R => Live host w ∧ Unknowing task digest w := fun _ _ h => h
  have hnone : ∀ w : World F R, Live host w ∧ Unknowing task digest w → Unstarted host w.trace task.id :=
    fun w h => Sound.unstarted h.1.1 h.2.1
  unfold processFresh
  split
  · next failure _ =>
    refine Spec.bind (buildProvenance_steps htimeless fun _ h => h.1.1) fun provenance => ?_
    have hwf : (resultError task digest nodeId ⟨failure, []⟩ provenance).WF := resultError_wf task digest nodeId provenance ⟨.nil, trivial⟩
    refine Spec.bind ((persistResult_live task digest hwf).pre ?_) fun _ => publishOutbox_live
    exact fun w h => ⟨h.1, fun _ _ _ _ heq hx => ((hnone w h).elim heq hx).elim⟩
  · have hkeys : ["source", "task_digest", "task_id"].Pairwise (· < ·) := by decide
    have hwf : (startedReceipt task digest).WF := ⟨List.pairwise_map.mp hkeys, trivial, trivial, trivial, trivial⟩
    have hold : ∀ w : World F R, Live host w ∧ Unknowing task digest w → (w.place .receipts).get (fileName task.id) = none := fun _ h => h.2.1
    have hwrite : ∀ (w : World F R) data durable, Live host w ∧ Unknowing task digest w → host.print (startedReceipt task digest) = some data →
        Live host ((w.with .receipts ((w.place .receipts).put (fileName task.id) data)).mark
          (.wrote .receipts (fileName task.id) ((w.place .receipts).get (fileName task.id)) data durable)) := by
      intro w data durable h _
      rw [hold w h]
      exact ⟨Sound.started h.1.1 durable (hnone w h), h.1.2.imp (Recent.snoc · rfl) (Recent.snoc · rfl)⟩
    refine Spec.bind (Q := fun _ w => Live host w ∧ Ready host task digest w) ?_ fun _ => ?_
    · refine writeJsonAtomic_spec htimeless .receipts _ _ _ _ (fun _ h => h.1.1) ?_ fun w data h hprint _ => (hwrite w data false h hprint).1
      intro w data h hprint _
      have hlive := hwrite w data true h hprint
      have hload := host.load_print _ _ hwf hprint
      rw [hold w h] at hlive ⊢
      obtain ⟨-, hmarker, hconflict, hresult⟩ := h.2
      refine ⟨hlive, latest_started (hnone w h) hload, ?_, ?_⟩
      · exact ⟨digest, w.trace, data, hdigest, hid, rfl, hload, get_put_self _ _ _, hmarker, hlive.2, hconflict, hresult⟩
      · intro t disk hmem
        rcases List.mem_append.mp hmem with hmem | hmem
        · exact h.1.1.toOnce.unexecuted (hnone w h) hmem
        · simp at hmem
    · refine Spec.bind (executionResult_live task digest) fun result => ?_
      rintro w ⟨⟨hlive, hlatest⟩, hresult⟩
      refine (?_ : Steps host (fun w => Live host w ∧ Recordable host task digest result w) _ _) w ⟨hlive, ?_⟩
      · exact Spec.bind (persistResult_live task digest hresult) fun _ => publishOutbox_live
      · intro pre x digest' post heq hx
        obtain ⟨hsame, hbegan⟩ := hlatest pre x digest' post heq hx
        exact ⟨hsame, .inl hbegan⟩

/-! ## Tasks with a receipt -/

/-- The receipt of the id is of this digest, and its result may be recorded. -/
def Tied (host : Host F) (task : Task F) (digest : String) (saved : Option (Value F)) (w : World F R) : Prop :=
  ∀ pre x digest' post, w.trace = pre ++ x :: post → Starts host task.id digest' x →
    digest' = digest ∧ ∀ v, saved = some v → Allowed host pre post task.id digest' v

theorem validateReceipt_ok {receipt : Value F} {task : Task F} {digest : String} {saved : Option (Value F)}
    (h : validateReceipt host nodeId receipt task digest = .ok saved) :
    text? receipt "task_digest" = some digest ∧ ∀ v, saved = some v → receipt.get? "result" = some v := by
  cases receipt with
  | obj fields =>
    simp only [validateReceipt, bind_ok_iff, check_ok, Bool.and_eq_true, decide_eq_true_eq] at h
    obtain ⟨_, ⟨-, hdigest⟩, hresult⟩ := h
    refine ⟨hdigest, ?_⟩
    split at hresult
    · cases hresult
      exact fun v hv => by cases hv
    · cases hresult
      exact fun v hv => by cases hv
    · next v _ hv =>
      simp only [bind_ok_iff, pure, Except.pure, Except.ok.injEq] at hresult
      obtain ⟨_, -, rfl⟩ := hresult
      rintro _ ⟨rfl⟩
      exact hv
  | null | bool b | int i | float x | str s | arr xs => cases h

theorem tied_of_receipt {w : World F R} (h : Live host w) {task : Task F} {digest : String} {receipt : Value F} {limit : Nat}
    {saved : Option (Value F)} (hreads : Reads host w.receipts (fileName task.id) limit receipt)
    (hvalid : validateReceipt host nodeId receipt task digest = .ok saved) : Tied host task digest saved w := by
  intro pre x digest' post heq hx
  obtain ⟨raw, doc, hraw, hload, htext, hresult⟩ := h.1.receipt pre x task.id digest' post heq hx
  obtain ⟨raw', hraw', -, hload'⟩ := hreads
  rw [hraw'] at hraw
  cases hraw
  rw [hload'] at hload
  cases hload
  obtain ⟨hbound, hsaved⟩ := validateReceipt_ok hvalid
  exact ⟨Option.some.inj (htext.symm.trans hbound), fun v hv => hresult v (hsaved v hv)⟩

/-- A saved result is written to the outbox again. -/
theorem requeue_live {task : Task F} {digest : String} {v : Value F} (hwf : v.WF) (limit : Nat) (code : String) :
    Steps host (fun w => Live host w ∧ Tied host task digest (some v) w)
      (writeJsonAtomic host env .outbox (fileName task.id) v limit code) fun _ => Live host := by
  have hwrite : ∀ (w : World F R) data durable, Live host w ∧ Tied host task digest (some v) w → host.print v = some data →
      Live host ((w.with .outbox ((w.place .outbox).put (fileName task.id) data)).mark
        (.wrote .outbox (fileName task.id) ((w.place .outbox).get (fileName task.id)) data durable)) := by
    intro w data durable h hprint
    refine ⟨Sound.result h.1.1 (host.load_print _ _ hwf hprint) ?_, h.1.2.imp (Recent.snoc · rfl) (Recent.snoc · rfl)⟩
    exact fun pre x digest' post heq hx _ => (h.2 pre x digest' post heq hx).2 v rfl
  exact writeJsonAtomic_spec (fun _ _ h => h) .outbox _ v _ _ (fun _ h => h.1.1) (fun w data h hprint _ => hwrite w data true h hprint)
    fun w data h hprint _ => (hwrite w data false h hprint).1

/-- A result of the mailbox completes a receipt, or becomes one. -/
theorem adopt_live {task : Task F} {digest : String} {existing : Value F} (source : String) :
    Steps host (fun w => Live host w ∧ Tied host task digest none w ∧
        Reads host w.tree.results (fileName task.id) maxResultJsonBytes existing ∧ text? existing "task_digest" = some digest)
      (writeReceipt host env task (receiptOf task digest source existing)) fun _ => Live host := by
  intro w hw
  have hwf : existing.WF := by
    obtain ⟨raw, -, -, hload⟩ := hw.2.2.1
    exact host.load_wf _ _ hload
  have hkeys : ["result", "source", "task_digest", "task_id"].Pairwise (· < ·) := by decide
  have hreceipt : (receiptOf task digest source existing).WF := ⟨List.pairwise_map.mp hkeys, hwf, trivial, trivial, trivial, trivial⟩
  refine writeReceipt_live (X := fun w => Tied host task digest none w ∧
    Reads host w.tree.results (fileName task.id) maxResultJsonBytes existing ∧ text? existing "task_digest" = some digest) (fun _ _ h => h)
    task hreceipt rfl ?_ w hw
  rintro v hlive ⟨htied, hreads, htext⟩ pre x digest' post heq hx
  obtain ⟨rfl, -⟩ := htied pre x digest' post heq hx
  exact ⟨rfl, allowed_visible hlive.2 heq hx hreads htext⟩

theorem loadReceipt_spec (task : Task F) (digest : String) :
    Spec (Live host)
      (do
        let receipt ← loadJsonBounded host env (fun w => w.receipts) (fileName task.id) maxReceiptJsonBytes "local_receipt_invalid"
        lift (validateReceipt host nodeId receipt task digest) : Op F R (Option (Value F)))
      (fun saved w => (Live host w ∧ Tied host task digest saved w) ∧ ∀ v, saved = some v → v.WF) (fun _ => Live host) := by
  refine Spec.bind ((loadJson_spec timeless_live _ _ _ _).weaken (fun _ h => h) (fun _ _ h => h) fun _ _ h => h.1) fun receipt => ?_
  refine (lift_spec _).weaken (fun _ h => h) ?_ fun _ _ h => h.1
  rintro saved w ⟨⟨hlive, hreads⟩, hvalid⟩
  refine ⟨⟨hlive, tied_of_receipt hlive hreads hvalid⟩, ?_⟩
  intro v hv
  obtain ⟨raw, -, -, hload⟩ := hreads
  have hwf := fieldOf_wf (host.load_wf _ _ hload) "result"
  rw [fieldOf, (validateReceipt_ok hvalid).2 v hv] at hwf
  exact hwf

theorem processReceipted_live (task : Task F) (digest : String) :
    Steps host (Live host) (processReceipted host env nodeId task digest) fun _ => Live host := by
  have hquarantine : ∀ (failure : Failure) (observed : Value F) details, Steps host (Live host)
      (quarantineTaskConflict host env nodeId task digest failure observed details >>= fun _ => publishOutbox host env) fun _ => Live host :=
    fun failure observed details => Spec.bind (quarantineTaskConflict_live task digest failure observed details) fun _ => publishOutbox_live
  refine Spec.bind ((caught_spec (loadReceipt_spec task digest)).weaken (fun _ h => h) (fun _ _ h => h) fun _ _ h => h.1) fun loaded => ?_
  cases loaded with
  | error failure => exact hquarantine _ _ _
  | ok saved =>
    rintro w ⟨hw, hwf⟩
    refine (?_ : Steps host (fun w => Live host w ∧ Tied host task digest saved w) _ _) w hw
    have htimeless : Timeless fun w : World F R => Live host w ∧ Tied host task digest saved w := fun _ _ h => h
    refine Spec.bind (targetLexists_steps htimeless (fun _ h => h.1.1) _ _) fun remote => ?_
    cases remote with
    | true =>
      refine Spec.bind ((loadRemoteOrQuarantine_live (X := Tied host task digest saved) (fun _ _ h => h) task digest).pre fun _ h => h.1)
        fun existing => ?_
      cases existing with
      | none => exact publishOutbox_live.pre fun _ h => h.1
      | some existing =>
        cases saved with
        | none => exact (adopt_live "remote_result_recovery").pre fun w h => ⟨h.1, h.2 existing rfl⟩
        | some v =>
          refine (?_ : Steps host (Live host) _ _).pre fun _ h => h.1
          refine Spec.bind ((resultDigest_steps (fun _ h => h.1) v).weaken (fun _ h => h) (fun _ _ h => h.1) fun _ _ h => h) fun localDigest => ?_
          refine Spec.bind ((resultDigest_steps (fun _ h => h.1) existing).weaken (fun _ h => h) (fun _ _ h => h.1) fun _ _ h => h)
            fun remoteDigest => ?_
          refine (?_ : Spec _ (if localDigest ≠ remoteDigest then _ else _) _ _)
          split
          · exact hquarantine _ _ _
          · exact Spec.ret fun _ h => h
    | false =>
      refine (?_ : Steps host (fun w => Live host w ∧ Tied host task digest saved w) _ _).pre fun _ h => h.1
      cases saved with
      | some v => exact Spec.bind (requeue_live (hwf v rfl) _ _) fun _ => publishOutbox_live
      | none =>
        refine Spec.bind (buildProvenance_steps htimeless fun _ h => h.1.1) fun provenance => ?_
        let unknown : Raised F := ⟨indeterminate "outcome_unknown" "receipt exists but result payload is unavailable; refusing replay", []⟩
        have hresult : (resultError task digest nodeId unknown provenance).WF := resultError_wf task digest nodeId provenance ⟨.nil, trivial⟩
        refine Spec.bind ((persistResult_live task digest hresult).pre ?_) fun _ => publishOutbox_live
        rintro v ⟨hlive, htied⟩
        refine ⟨hlive, fun pre x digest' post heq hx => ⟨(htied pre x digest' post heq hx).1, .inr ?_⟩⟩
        intro bounded hbounded
        exact ⟨(bounded_cases hbounded hresult).2 rfl, _, rfl, hbounded⟩

/-! ## The loop -/

theorem processUnmarked_live {task : Task F} {digest : String} (hdigest : host.digest task.value = some digest) (hid : isTaskId task.id = true) :
    Steps host (fun w => Live host w ∧ w.conflicts.get (conflictName digest) = none) (processUnmarked host env nodeId task digest)
      fun _ => Live host := by
  refine Spec.bind (lift_steps (fun _ h => h.1.1) _) fun name => ?_
  rintro w ⟨hw, hname⟩
  obtain ⟨rfl, -⟩ := conflictFilenameOf_ok hname
  refine (?_ : Steps host (fun w => Live host w ∧ w.conflicts.get (conflictName digest) = none) _ _) w hw
  refine Spec.bind (targetLexists_steps (fun _ _ h => h) (fun _ h => h.1.1) _ _) fun conflict => ?_
  cases conflict with
  | true =>
    refine Spec.bind ((loadTaskConflict_live _ _ _ _ _).pre fun _ h => h.1.1) fun existing => ?_
    exact writeConflict_live (by simp) (isConflictOutbox_conflictName digest) _ _ _
  | false =>
    refine Spec.bind (targetLexists_steps (fun _ _ h => h) (fun _ h => h.1.1.1) _ _) fun receipt => ?_
    cases receipt with
    | true => exact (processReceipted_live task digest).pre fun _ h => h.1.1.1
    | false =>
      refine Spec.bind (targetLexists_steps (fun _ _ h => h) (fun _ h => h.1.1.1.1) _ _) fun result => ?_
      cases result with
      | true =>
        refine Spec.bind ((loadRemoteOrQuarantine_live (X := Tied host task digest none) (fun _ _ h => h) task digest).pre ?_) fun existing => ?_
        · rintro w ⟨⟨⟨⟨hlive, -⟩, -⟩, hreceipt⟩, -⟩
          have hnone := Sound.unstarted hlive.1 (has_false.mp hreceipt.symm)
          exact ⟨hlive, fun pre x digest' post heq hx => (hnone.elim heq hx).elim⟩
        · cases existing with
          | none => exact publishOutbox_live.pre fun _ h => h.1
          | some existing => exact (adopt_live "remote_result").pre fun w h => ⟨h.1, h.2 existing rfl⟩
      | false =>
        refine (processFresh_live hdigest hid).pre ?_
        rintro w ⟨⟨⟨⟨hlive, hmarker⟩, hconflict⟩, hreceipt⟩, hresult⟩
        exact ⟨hlive, has_false.mp hreceipt.symm, hmarker, has_false.mp hconflict.symm, has_false.mp hresult.symm⟩

theorem trusted_taskId {name : String} {value : Value F} {task : Task F} (h : trustedLocalIdentity nodeId name value = some task) :
    isTaskId task.id = true ∧ task.value = value := by
  unfold trustedLocalIdentity at h
  split at h
  · split at h
    · next hvalid =>
      cases h
      simp only [Bool.and_eq_true] at hvalid
      exact ⟨hvalid.1.1.2, rfl⟩
    · cases h
  · cases h

theorem processTask_live (name : String) : Steps host (Live host) (processTask host env nodeId name) fun _ => Live host := by
  refine Spec.bind ((caught_spec ((loadJson_spec timeless_live _ _ _ _).weaken (fun _ h => h) (fun _ _ h => h.1) fun _ _ h => h.1)).weaken
    (fun _ h => h) (fun _ _ h => h) fun _ _ h => h.1) fun loaded => ?_
  cases loaded with
  | error failure => exact Spec.ret fun _ h => h
  | ok value =>
    dsimp only
    split
    · exact Spec.ret fun _ h => h
    · next task htask =>
      obtain ⟨hid, rfl⟩ := trusted_taskId htask
      split
      · exact Spec.ret fun _ h => h
      · next digest hdigest =>
        refine Spec.bind (lift_steps (fun _ h => h.1) _) fun marker => ?_
        rintro w ⟨hw, hmarker⟩
        obtain ⟨rfl, -⟩ := conflictFilenameOf_ok hmarker
        refine (?_ : Steps host (Live host) _ _) w hw
        refine Spec.bind (targetLexists_steps timeless_live (fun _ h => h.1) _ _) fun marked => ?_
        cases marked with
        | true => exact (recoverTaskConflict_live task digest).pre fun _ h => h.1
        | false => exact (processUnmarked_live hdigest hid).pre fun w h => ⟨h.1, has_false.mp h.2.symm⟩

theorem processEach_live (names : List String) : Steps host (Live host) (processEach host env nodeId names) fun _ => Live host := by
  induction names with
  | nil => exact Spec.ret fun _ h => h
  | cons name rest ih => exact Spec.bind (processTask_live name) fun _ => ih

variable (env nodeId) in
/-- A call keeps it, however it ends. -/
theorem processOnce_good : Spec (Good host) (processOnce host env nodeId) (fun _ => Good host) (fun _ => Good host) := by
  refine Spec.bind (Q := fun _ => Good host) (Spec.update fun w h => Sound.plain h rfl) fun _ => ?_
  refine Spec.bind (reading_spec (fun _ _ h => h) _) fun _ => ?_
  refine Spec.bind ((publishOutbox_keeps free_good False).weaken (fun _ h => ⟨h, False.elim⟩) (fun _ _ h => h.1) fun _ _ h => h) fun _ => ?_
  refine Spec.bind (syncMailbox_spec (Q := Live host) ?_ fun w _ h => h) fun _ => ?_
  · exact fun w outside tree h => ⟨Sound.plain h rfl, .inl (recent_self w.trace _)⟩
  refine Spec.bind (Q := fun _ => Live host) ?_ fun names => (processEach_live names).weaken (fun _ h => h) (fun _ _ h => h.1) fun _ _ h => h
  refine Spec.bind (reading_steps timeless_live (fun _ h => h.1) _) fun _ => ?_
  refine Spec.bind (Q := fun _ => Live host) (Spec.read fun _ h => h) fun w' => ?_
  refine Spec.bind ((lift_steps (fun _ h => h.1) _).weaken (fun _ h => h) (fun _ _ h => h.1) fun _ _ h => h) fun _ => ?_
  exact Spec.ret fun _ h => h

theorem serve_good (calls : List (String × Env F R)) (w : World F R) (h : Good host w) : Good host (serve host calls w) := by
  induction calls generalizing w with
  | nil => exact h
  | cons call rest ih =>
    obtain ⟨nodeId, env⟩ := call
    have hrun := processOnce_good env nodeId w h
    refine ih _ ?_
    revert hrun
    cases (processOnce host env nodeId).from w with
    | mk r t => cases r <;> exact id

/-- Every run, from whatever is on disk and whatever the mailbox has. -/
theorem executes_at_most_once (host : Host F) (calls : List (String × Env F R)) (w : World F R) : Once host (runs host calls w).trace := by
  have hstart : Sound host [] w.receipts := ⟨⟨by simp, by simp, by simp⟩, by simp⟩
  exact (serve_good calls { w with trace := [] } hstart).toOnce

end LocalHand.Mailbox
