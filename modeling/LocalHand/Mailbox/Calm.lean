/-
What `publish_outbox` and a conflict record leave alone: the receipts, the markers
and, of the trace, all that is not about the mailbox or a conflict record. A property
of these alone holds after a call as before it, however the call ends.
-/
import LocalHand.Mailbox.Published

namespace LocalHand.Mailbox

open PyJson Program Directory
open Framing (Bytes)

variable {F R : Type} {host : Host F} {env : Env F R}

/-- A step that is no execution, writes no receipt and no marker, and no file of the
outbox that is not a conflict record. -/
def Mark.isIdle : Mark F → Bool
  | .executed _ _ | .began => false
  | .wrote .outbox name _ _ _ => isConflictOutbox name
  | .wrote .receipts _ _ _ _ | .wrote .conflicts _ _ _ _ => false
  | _ => true

/-- A property that outlasts all that leaves receipts, markers and the checkout alone. -/
structure Calm (P : World F R → Prop) : Prop where
  frame : ∀ w w', w'.trace = w.trace → w'.receipts = w.receipts → w'.conflicts = w.conflicts → w'.tree = w.tree → P w → P w'
  mark : ∀ w m, m.isIdle = true → m.isGit = false → P w → P (w.mark m)

/-- One that outlasts a change of the checkout, too. -/
structure Free (P : World F R → Prop) : Prop where
  frame : ∀ w w', w'.trace = w.trace → w'.receipts = w.receipts → w'.conflicts = w.conflicts → P w → P w'
  mark : ∀ w m, m.isIdle = true → P w → P (w.mark m)

/-- The checkout is what the mailbox has, as the last fetch or push says. -/
def Visible (w : World F R) : Prop := Recent w.trace (.synced w.tree) ∨ Recent w.trace (.pushed w.tree .accepted)

variable {P : World F R → Prop}

theorem Free.calm (hP : Free P) : Calm P where
  frame w w' htrace hreceipts hconflicts _ := hP.frame w w' htrace hreceipts hconflicts
  mark w m hidle _ := hP.mark w m hidle

theorem Calm.timeless (hP : Calm P) : Timeless P := fun w n h => hP.frame w { w with clock := n } rfl rfl rfl rfl h

theorem Calm.and {P' : World F R → Prop} (hP : Calm P) (hP' : Calm P') : Calm fun w => P w ∧ P' w where
  frame w w' htrace hreceipts hconflicts htree h :=
    ⟨hP.frame w w' htrace hreceipts hconflicts htree h.1, hP'.frame w w' htrace hreceipts hconflicts htree h.2⟩
  mark w m hidle hgit h := ⟨hP.mark w m hidle hgit h.1, hP'.mark w m hidle hgit h.2⟩

theorem calm_visible : Calm (Visible : World F R → Prop) where
  frame w w' htrace _ _ htree h := by
    rw [Visible, htrace, htree]
    exact h
  mark w m _ hgit h := h.imp (Recent.snoc · hgit) (Recent.snoc · hgit)

/-! ## A property that is calm -/

theorem resultDigest_keeps (value : Value F) : Spec P (resultDigest host value : Op F R String) (fun _ => P) (fun _ => P) :=
  (resultDigest_spec value).weaken (fun _ h => h) (fun _ _ h => h.1) fun _ _ h => h

theorem lift_keeps {α : Type} (x : Except Failure α) : Spec P (lift x : Op F R α) (fun _ => P) (fun _ => P) :=
  (lift_spec x).weaken (fun _ h => h) (fun _ _ h => h.1) fun _ _ h => h

section

variable (hP : Calm P)
include hP

theorem freeName_keeps (names : List String) : Spec P (freeName env names) (fun _ => P) (fun _ => P) :=
  (freeName_spec hP.timeless names).weaken (fun _ h => h) (fun _ _ h => h.1) fun _ _ h => h

theorem unlink_keeps (name : String) : Keeps P (unlink env name) := by
  refine Spec.bind (Q := fun _ => P) (Spec.read fun _ h => h) fun w' => ?_
  split
  · exact Spec.raise fun _ h => h
  · next raw _ =>
    have hremove : ∀ w, P w → P ({ w with outbox := w.outbox.remove name }.mark (.unlinked name raw)) := fun w h =>
      hP.mark _ _ rfl rfl (hP.frame w { w with outbox := w.outbox.remove name } rfl rfl rfl rfl h)
    exact writing_spec hP.timeless _ _ hremove (fun _ h => h) hremove

theorem replace_keeps (name dest : String) : Keeps P (replace env name dest) := by
  refine Spec.bind (Q := fun _ => P) (Spec.read fun _ h => h) fun w' => ?_
  split
  · exact Spec.raise fun _ h => h
  · next raw _ =>
    have hmove : ∀ w, P w →
        P ({ w with outbox := w.outbox.remove name, quarantine := w.quarantine.put dest raw }.mark (.quarantined name dest raw)) :=
      fun w h => hP.mark _ _ rfl rfl (hP.frame w
        { w with outbox := w.outbox.remove name, quarantine := w.quarantine.put dest raw } rfl rfl rfl rfl h)
    exact writing_spec hP.timeless _ _ hmove (fun _ h => h) hmove

theorem quarantineLocalOutboxFile_keeps (name reason : String) : Keeps P (quarantineLocalOutboxFile host env name reason) := by
  refine Spec.bind (Q := fun _ => P) (Spec.read fun _ h => h) fun w' => ?_
  exact Spec.bind (freeName_keeps hP _) fun dest => replace_keeps hP name dest

theorem quarantineLocalResultConflict_keeps (name : String) (value remote : Value F) :
    Keeps P (quarantineLocalResultConflict host env name value remote) := by
  refine Spec.bind (resultDigest_keeps value) fun _ => ?_
  refine Spec.bind (resultDigest_keeps remote) fun _ => ?_
  refine Spec.bind (Q := fun _ => P) (Spec.read fun _ h => h) fun w' => ?_
  exact Spec.bind (freeName_keeps hP _) fun dest => replace_keeps hP name dest

/-- A conflict record written to the outbox. -/
theorem writeConflict_keeps (name : String) (hname : isConflictOutbox name = true) (value : Value F) (limit : Nat) (code : String) :
    Keeps P (writeJsonAtomic host env .outbox name value limit code) := by
  have hwrite : ∀ w data durable, P w →
      P ((w.with .outbox ((w.place .outbox).put name data)).mark (.wrote .outbox name ((w.place .outbox).get name) data durable)) :=
    fun w data durable h => hP.mark _ _ hname rfl
      (hP.frame w { w with outbox := w.outbox.put name data } rfl rfl rfl rfl h)
  exact writeJsonAtomic_spec hP.timeless .outbox name value limit code (fun _ h => h)
    (fun w data h _ _ => hwrite w data true h) fun w data h _ _ => hwrite w data false h

theorem saveConflict_keeps (value conflict : Value F) : Keeps P (saveConflict host env value conflict) := by
  refine Spec.bind (lift_keeps _) fun _ => ?_
  refine Spec.bind ((lift_spec _).weaken (fun _ h => h) (fun _ _ h => h) fun _ _ h => h) fun name => ?_
  rintro w ⟨hw, hname⟩
  obtain ⟨rfl, -⟩ := conflictFilenameOf_ok hname
  exact writeConflict_keeps hP _ (isConflictOutbox_conflictName _) conflict _ _ w hw

theorem settleConflict_keeps (name : String) : Keeps P (settleConflict host env name) := by
  have hread : ∀ dir code, Spec P (readRegularFileBounded env dir name maxResultJsonBytes code) (fun _ => P) (fun _ => P) :=
    fun dir code => (read_spec hP.timeless dir name _ code).weaken (fun _ h => h) (fun _ _ h => h.1) fun _ _ h => h.1
  refine Spec.bind (hread _ _) fun localBytes => ?_
  refine Spec.bind (hread _ _) fun remoteBytes => ?_
  refine (?_ : Spec P (if localBytes = remoteBytes then _ else _) _ _)
  split
  · exact unlink_keeps hP name
  · exact quarantineLocalOutboxFile_keeps hP name _

theorem settleResult_keeps (name : String) (value : Value F) : Keeps P (settleResult host env name value) := by
  refine Spec.bind (caught_spec ((loadRemoteResult_spec _ _ hP.timeless name _ _ _ _).weaken (fun _ h => h) (fun _ _ h => h.1.1)
    fun _ _ h => h)) fun loaded => ?_
  cases loaded with
  | error failure =>
    refine Spec.bind (saveConflict_keeps hP _ _) fun _ => ?_
    exact quarantineLocalOutboxFile_keeps hP name _
  | ok remote =>
    refine Spec.bind (resultDigest_keeps remote) fun remoteDigest => ?_
    refine Spec.bind (resultDigest_keeps value) fun localDigest => ?_
    refine (?_ : Spec P (if (decide (textOf remote "task_digest" = textOf value "task_digest") && decide (remoteDigest = localDigest)) = true
      then _ else _) _ _)
    split
    · exact unlink_keeps hP name
    · have hcollision : Keeps P (publishConflictFromCollision host env value remote) := by
        refine Spec.bind (resultDigest_keeps value) fun _ => ?_
        refine Spec.bind (resultDigest_keeps remote) fun _ => ?_
        exact saveConflict_keeps hP _ _
      exact Spec.bind hcollision fun _ => quarantineLocalResultConflict_keeps hP name value remote

end

/-! ## `publish_outbox` -/

section

variable (hP : Free P)
include hP

theorem atomicCreateControlFile_keeps (name : String) (raw : Bytes) : Keeps P (atomicCreateControlFile env name raw) := by
  refine Spec.bind ((targetLexists_spec hP.calm.timeless _ name).weaken (fun _ h => h) (fun _ _ h => h.1) fun _ _ h => h) fun taken => ?_
  refine (?_ : Spec P (if taken = true then _ else _) _ _)
  split
  · exact Spec.raise fun _ h => h
  · have hadd : ∀ w, P w → P { w with tree := w.tree.add name raw } := fun w h => hP.frame w _ rfl rfl rfl h
    exact writing_spec hP.calm.timeless _ _ hadd (fun _ h => h) hadd

/-- Where the attempts return, the checkout is what the mailbox has. -/
theorem publishRecord_keeps (name : String) (value : Value F) (attempts : Nat) (hsome : attempts ≠ 0) :
    Spec P (publishRecord host env name value attempts) (fun _ w => P w ∧ Visible w) (fun _ => P) := by
  induction attempts with
  | zero => exact absurd rfl hsome
  | succ attempts ih =>
    have hboth : Calm fun w => P w ∧ Visible w := hP.calm.and calm_visible
    refine Spec.bind (syncMailbox_spec (Q := fun w => P w ∧ Visible w) ?_ fun w _ h => hP.frame w _ rfl rfl rfl h) fun _ => ?_
    · intro w outside tree h
      refine ⟨hP.mark _ _ rfl (hP.frame w { w with clock := w.clock + 1, outside := outside, tree := tree } rfl rfl rfl h), ?_⟩
      exact .inl (recent_self w.trace _)
    refine Spec.bind ((targetLexists_spec hboth.timeless _ name).weaken (fun _ h => h) (fun _ _ h => h.1) fun _ _ h => h.1) fun taken => ?_
    cases taken with
    | true =>
      refine (?_ : Spec _ (if isConflictOutbox name = true then _ else _) _ _)
      split
      · exact (settleConflict_keeps hboth name).weaken (fun _ h => h) (fun _ _ h => h) fun _ _ h => h.1
      · exact (settleResult_keeps hboth name value).weaken (fun _ h => h) (fun _ _ h => h) fun _ _ h => h.1
    | false =>
      refine Spec.bind ((read_spec hP.calm.timeless (·.outbox) name _ _).weaken (fun _ h => h.1) (fun _ _ h => h.1) fun _ _ h => h.1)
        fun raw => ?_
      refine Spec.bind (atomicCreateControlFile_keeps hP name raw) fun _ => ?_
      refine Spec.bind (reading_spec hP.calm.timeless _) fun _ => ?_
      refine Spec.bind (pushMailbox_spec (Q := fun answer w => P w ∧ (answer = .accepted → Visible w)) ?_) fun answer => ?_
      · intro w outside answer h
        refine ⟨hP.mark _ _ rfl (hP.frame w { w with clock := w.clock + 1, outside := outside } rfl rfl rfl h), ?_⟩
        rintro rfl
        exact .inr (recent_self w.trace _)
      cases answer with
      | accepted => exact (unlink_keeps hboth name).weaken (fun _ h => ⟨h.1, h.2 rfl⟩) (fun _ _ h => h) fun _ _ h => h.1
      | unconfirmed => exact Spec.raise fun _ h => h.1
      | failed => exact Spec.raise fun _ h => h.1
      | race =>
        refine (?_ : Spec _ (if attempts = 0 then _ else _) _ _)
        split
        · exact Spec.raise fun _ h => h.1
        · next hmore => exact (ih hmore).pre fun _ h => h.1

/-- A call that finds the mailbox checked out leaves it so. -/
theorem publishEach_keeps (v : Prop) (names : List String) :
    Spec (fun w => P w ∧ (v → Visible w)) (publishEach host env names) (fun _ w => P w ∧ (v → Visible w)) (fun _ => P) := by
  induction names with
  | nil => exact Spec.ret fun _ h => h
  | cons name rest ih =>
    have hboth : Calm fun w => P w ∧ (v → Visible w) := by
      refine hP.calm.and ⟨?_, ?_⟩
      · exact fun w w' htrace hreceipts hconflicts htree h hv => calm_visible.frame w w' htrace hreceipts hconflicts htree (h hv)
      · exact fun w m hidle hgit h hv => calm_visible.mark w m hidle hgit (h hv)
    refine Spec.bind (caught_spec ((loadPending_spec hboth.timeless name).weaken (fun _ h => h) (fun _ _ h => h.1) fun _ _ h => h.1)
      |>.weaken (fun _ h => h) (fun _ _ h => h) fun _ _ h => h.1) fun loaded => ?_
    cases loaded with
    | error failure =>
      refine Spec.bind ((quarantineLocalOutboxFile_keeps hboth name _).weaken (fun _ h => h) (fun _ _ h => h) fun _ _ h => h.1) fun _ => ih
    | ok value =>
      refine Spec.bind ((publishRecord_keeps hP name value mailboxPushAttempts (by decide)).weaken (fun _ h => h.1)
        (fun _ _ h => ⟨h.1, fun _ => h.2⟩) fun _ _ h => h) fun _ => ih

theorem publishOutbox_keeps (v : Prop) :
    Spec (fun w => P w ∧ (v → Visible w)) (publishOutbox host env) (fun _ w => P w ∧ (v → Visible w)) (fun _ => P) := by
  have htimeless : Timeless fun w : World F R => P w ∧ (v → Visible w) :=
    fun w n h => ⟨hP.calm.timeless w n h.1, fun hv => calm_visible.timeless w n (h.2 hv)⟩
  refine Spec.bind ((reading_spec htimeless _).weaken (fun _ h => h) (fun _ _ h => h) fun _ _ h => h.1) fun _ => ?_
  refine Spec.bind (Q := fun _ w => P w ∧ (v → Visible w)) (Spec.read fun _ h => h) fun w' => ?_
  exact publishEach_keeps hP v _

end

end LocalHand.Mailbox
