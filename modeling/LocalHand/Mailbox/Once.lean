/-
A worker executes at most once. A handler is called under a receipt written for that
very call, where nothing else knew of the task; a later call records for the task what
the execution had written, what the mailbox has for it, or that its outcome is unknown.

The receipt carries it: it is there from the execution on, and what it has of a result
is one of these.
-/
import LocalHand.Mailbox.Calm

namespace LocalHand.Mailbox

open PyJson Program Directory
open QuotaPayload (replaceField isStr)
open QuotaBridge (lookup_replaceField replaceField_wf lookup_wf)
open Framing (Bytes)

variable {F R : Type} {host : Host F} {env : Env F R} {nodeId : String}

/-! ## Runs -/

/-- One call of `process_once` after another over one state, each with what it meets
and for the node of its profile; a call ends as it ends. -/
def serve (host : Host F) : List (String × Env F R) → World F R → World F R
  | [], w => w
  | (nodeId, env) :: rest, w => serve host rest ((processOnce host env nodeId).from w).2

/-- The run from what a state root has on disk. -/
def runs (host : Host F) (calls : List (String × Env F R)) (w : World F R) : World F R := serve host calls { w with trace := [] }

/-! ## What a run says -/

/-- The tree of the last fetch, or of the last push where it was accepted. -/
def Snapshot (trace : List (Mark F)) (tree : Tree) : Prop := Recent trace (.synced tree) ∨ Recent trace (.pushed tree .accepted)

/-- What precedes an execution: the write of its receipt over no other, with no marker
and nothing in the current snapshot. -/
def Begun (host : Host F) (pre : List (Mark F)) (t : Task F) (disk : Disk) : Prop :=
  ∃ digest before raw, host.digest t.value = some digest ∧ isTaskId t.id = true ∧
    pre = before ++ [.wrote .receipts (fileName t.id) none raw true] ∧ host.load raw = some (startedReceipt t digest) ∧
    disk.receipts.get (fileName t.id) = some raw ∧ disk.conflicts.get (conflictName digest) = none ∧ Snapshot pre disk.tree ∧
    disk.tree.conflicts.get (conflictName digest) = none ∧ disk.tree.results.get (fileName t.id) = none

/-- An indeterminate `outcome_unknown`, bounded as any result is. -/
def Unknown (host : Host F) (v : Value F) : Prop :=
  text? v "status" = some "indeterminate" ∧
    ∃ original, text? original "error_code" = some "outcome_unknown" ∧ boundedExecutionResult host original = .ok v

/-- The write of the receipt of an execution that starts. -/
def Starts (host : Host F) (id digest : String) (m : Mark F) : Prop :=
  isTaskId id = true ∧ ∃ t raw durable, m = .wrote .receipts (fileName id) none raw durable ∧ t.id = id ∧
    host.load raw = some (startedReceipt t digest)

/-- What may be recorded for a task once its execution has started: what that call has
written to the outbox, an unknown outcome, or what the mailbox has had for its digest. -/
def Allowed (host : Host F) (pre post : List (Mark F)) (id digest : String) (v : Value F) : Prop :=
  (∃ a old new durable b, post = a ++ .wrote .outbox (fileName id) old new durable :: b ∧ .began ∉ a ∧ host.load new = some v) ∨
  Unknown host v ∨
  ∃ tree, (.synced tree ∈ pre ++ post ∨ .pushed tree .accepted ∈ pre ++ post) ∧
    Reads host tree.results (fileName id) maxResultJsonBytes v ∧ text? v "task_digest" = some digest

/-- The result a file of the outbox or a receipt records. -/
def recorded (place : Place) (doc : Value F) : Option (Value F) :=
  match place with
  | .outbox => some doc
  | .receipts => doc.get? "result"
  | .conflicts => none

/-- A handler is called at most once for an id, and a later call records what is allowed. -/
structure Once (host : Host F) (trace : List (Mark F)) : Prop where
  begun : ∀ pre t disk post, trace = pre ++ .executed t disk :: post → Begun host pre t disk
  once : ∀ pre t disk post, trace = pre ++ .executed t disk :: post → ∀ t' disk', .executed t' disk' ∈ pre → t'.id ≠ t.id
  later : ∀ pre m id digest mid place old new durable rest,
    trace = (pre ++ m :: mid) ++ .wrote place (fileName id) old new durable :: rest → Starts host id digest m → place ≠ .conflicts →
      .began ∈ mid → ∃ doc v, host.load new = some doc ∧ recorded place doc = some v ∧ Allowed host pre mid id digest v

/-- The receipts carry it. -/
structure Sound (host : Host F) (trace : List (Mark F)) (receipts : Dir Bytes) : Prop extends Once host trace where
  receipt : ∀ pre m id digest post, trace = pre ++ m :: post → Starts host id digest m →
    ∃ raw doc, receipts.get (fileName id) = some raw ∧ host.load raw = some doc ∧ text? doc "task_digest" = some digest ∧
      ∀ v, doc.get? "result" = some v → Allowed host pre post id digest v

/-! ## Names -/

theorem fileName_inj {a b : String} (h : fileName a = fileName b) : a = b := by
  have htext : a.toList ++ ".json".toList = b.toList ++ ".json".toList := by
    rw [← String.toList_append, ← String.toList_append]
    exact congrArg String.toList h
  exact String.toList_inj.mp (List.append_cancel_right htext)

theorem fileName_result {id : String} (h : isTaskId id = true) : isConflictOutbox (fileName id) = false := by
  simp only [isTaskId, Bool.and_eq_true, decide_eq_true_eq] at h
  have hhead := h.1.1.1
  cases hchars : id.toList with
  | nil => simp [hchars] at hhead
  | cons c rest =>
    rw [hchars] at hhead
    have hc : c = 'L' := (List.cons.inj hhead).1
    subst hc
    have hname : (fileName id).toList = 'L' :: (rest ++ ".json".toList) := by
      rw [fileName, String.toList_append, hchars]
      rfl
    simp [isConflictOutbox, hname]

/-! ## The invariant and one more step -/

section

variable {trace : List (Mark F)} {receipts : Dir Bytes}

theorem Allowed.snoc {pre post : List (Mark F)} {id digest : String} {v : Value F} (h : Allowed host pre post id digest v) (m : Mark F) :
    Allowed host pre (post ++ [m]) id digest v := by
  rcases h with ⟨a, old, new, durable, b, rfl, hbegan, hload⟩ | hunknown | ⟨tree, htree, hreads, htext⟩
  · exact .inl ⟨a, old, new, durable, b ++ [m], by simp, hbegan, hload⟩
  · exact .inr (.inl hunknown)
  · refine .inr (.inr ⟨tree, ?_, hreads, htext⟩)
    rw [← List.append_assoc]
    exact htree.imp (List.mem_append_left _) (List.mem_append_left _)

/-- A step that is no execution, and no write of a receipt or of a result. -/
def Mark.isPlain : Mark F → Bool
  | .executed _ _ => false
  | .wrote .outbox name _ _ _ => isConflictOutbox name
  | .wrote .receipts _ _ _ _ => false
  | _ => true

theorem plain_of_idle {m : Mark F} (h : m.isIdle = true) : m.isPlain = true := by
  cases m with
  | wrote place name old new durable => cases place <;> simp_all [Mark.isIdle, Mark.isPlain]
  | began | synced tree | pushed tree answer | unlinked name raw | quarantined name dest raw => rfl
  | executed t disk => cases h

theorem not_starts {id digest : String} {m : Mark F} (h : ∀ name old raw durable, m ≠ .wrote .receipts name old raw durable) :
    ¬ Starts host id digest m := by
  rintro ⟨-, t, raw, durable, rfl, -⟩
  exact h _ _ _ _ rfl

theorem Once.snoc (h : Once host trace) {m : Mark F} (hexecuted : ∀ t disk, m ≠ .executed t disk)
    (hlater : ∀ pre x id digest mid place old new durable, m = .wrote place (fileName id) old new durable → trace = pre ++ x :: mid →
      Starts host id digest x → place ≠ .conflicts → .began ∈ mid →
        ∃ doc v, host.load new = some doc ∧ recorded place doc = some v ∧ Allowed host pre mid id digest v) :
    Once host (trace ++ [m]) where
  begun pre t disk post heq := by
    rcases split_snoc heq with ⟨rest, hrest, -⟩ | ⟨-, hm, -⟩
    · exact h.begun pre t disk rest hrest
    · exact absurd hm (hexecuted t disk)
  once pre t disk post heq := by
    rcases split_snoc heq with ⟨rest, hrest, -⟩ | ⟨-, hm, -⟩
    · exact h.once pre t disk rest hrest
    · exact absurd hm (hexecuted t disk)
  later pre x id digest mid place old new durable rest heq hstarts hplace hbegan := by
    rcases split_snoc heq with ⟨rest', hrest, -⟩ | ⟨htrace, hm, -⟩
    · exact h.later pre x id digest mid place old new durable rest' hrest hstarts hplace hbegan
    · exact hlater pre x id digest mid place old new durable hm htrace hstarts hplace hbegan

/-- What the receipts say outlasts a step that starts nothing. -/
theorem Sound.snoc_receipt (h : Sound host trace receipts) {m : Mark F} (hm : ∀ id digest, ¬ Starts host id digest m)
    (pre : List (Mark F)) (x : Mark F) (id digest : String) (post : List (Mark F)) (heq : trace ++ [m] = pre ++ x :: post)
    (hstarts : Starts host id digest x) :
    ∃ raw doc, receipts.get (fileName id) = some raw ∧ host.load raw = some doc ∧ text? doc "task_digest" = some digest ∧
      ∀ v, doc.get? "result" = some v → Allowed host pre post id digest v := by
  rcases split_snoc heq with ⟨rest, hrest, rfl⟩ | ⟨-, rfl, -⟩
  · obtain ⟨raw, doc, hraw, hload, htext, hresult⟩ := h.receipt pre x id digest rest hrest hstarts
    exact ⟨raw, doc, hraw, hload, htext, fun v hv => (hresult v hv).snoc m⟩
  · exact absurd hstarts (hm id digest)

theorem Sound.plain (h : Sound host trace receipts) {m : Mark F} (hm : m.isPlain = true) : Sound host (trace ++ [m]) receipts := by
  refine ⟨h.toOnce.snoc ?_ ?_, h.snoc_receipt fun id digest => not_starts ?_⟩
  · rintro t disk rfl
    cases hm
  · rintro pre x id digest mid place old new durable rfl - ⟨hid, -⟩ hplace -
    cases place with
    | outbox =>
      have hname : isConflictOutbox (fileName id) = true := hm
      rw [fileName_result hid] at hname
      cases hname
    | receipts => cases hm
    | conflicts => exact absurd rfl hplace
  · rintro name old raw durable rfl
    cases hm

/-- A result written to the outbox. -/
theorem Sound.result (h : Sound host trace receipts) {id : String} {old : Option Bytes} {new : Bytes} {durable : Bool} {doc : Value F}
    (hload : host.load new = some doc)
    (hallowed : ∀ pre x digest post, trace = pre ++ x :: post → Starts host id digest x → .began ∈ post → Allowed host pre post id digest doc) :
    Sound host (trace ++ [.wrote .outbox (fileName id) old new durable]) receipts := by
  refine ⟨h.toOnce.snoc (by simp) ?_, h.snoc_receipt fun id digest => not_starts (by simp)⟩
  intro pre x id' digest mid place old' new' durable' hm htrace hstarts _ hbegan
  simp only [Mark.wrote.injEq] at hm
  obtain ⟨rfl, hname, rfl, rfl, rfl⟩ := hm
  obtain rfl := fileName_inj hname
  exact ⟨doc, doc, hload, rfl, hallowed pre x digest mid htrace hstarts hbegan⟩

/-- A receipt with a result, written over the one there was. -/
theorem Sound.receipted (h : Sound host trace receipts) {id : String} {old : Option Bytes} {new : Bytes} {durable : Bool} {doc v : Value F}
    (hload : host.load new = some doc) (hresult : doc.get? "result" = some v)
    (hallowed : ∀ pre x digest post, trace = pre ++ x :: post → Starts host id digest x →
      text? doc "task_digest" = some digest ∧ Allowed host pre post id digest v) :
    Sound host (trace ++ [.wrote .receipts (fileName id) old new durable]) (receipts.put (fileName id) new) := by
  have hno : ∀ id' digest, ¬ Starts host id' digest (.wrote .receipts (fileName id) old new durable) := by
    rintro id' digest ⟨-, t, raw, durable', hm, -, hraw⟩
    simp only [Mark.wrote.injEq] at hm
    obtain ⟨-, -, -, rfl, -⟩ := hm
    rw [hload] at hraw
    cases hraw
    cases hresult
  refine ⟨h.toOnce.snoc (by simp) ?_, ?_⟩
  · intro pre x id' digest mid place old' new' durable' hm htrace hstarts _ _
    simp only [Mark.wrote.injEq] at hm
    obtain ⟨rfl, hname, rfl, rfl, rfl⟩ := hm
    obtain rfl := fileName_inj hname
    exact ⟨doc, v, hload, hresult, (hallowed pre x digest mid htrace hstarts).2⟩
  · intro pre x id' digest post heq hstarts
    have hkept := h.snoc_receipt hno pre x id' digest post heq hstarts
    rcases split_snoc heq with ⟨rest, hrest, rfl⟩ | ⟨-, rfl, -⟩
    · by_cases hid : id' = id
      · subst hid
        obtain ⟨htext, hv⟩ := hallowed pre x digest rest hrest hstarts
        refine ⟨new, doc, get_put_self _ _ _, hload, htext, fun v' hv' => ?_⟩
        rw [hresult] at hv'
        cases hv'
        exact hv.snoc _
      · rw [get_put_ne _ fun hname => hid (fileName_inj hname)]
        exact hkept
    · exact absurd hstarts (hno id' digest)

/-- No execution of an id has started. -/
def Unstarted (host : Host F) (trace : List (Mark F)) (id : String) : Prop := ∀ m ∈ trace, ∀ digest, ¬ Starts host id digest m

theorem Sound.unstarted (h : Sound host trace receipts) {id : String} (hnone : receipts.get (fileName id) = none) : Unstarted host trace id := by
  intro m hmem digest hstarts
  obtain ⟨pre, post, hsplit⟩ := List.append_of_mem hmem
  obtain ⟨raw, _, hraw, -⟩ := h.receipt pre m id digest post hsplit hstarts
  rw [hnone] at hraw
  cases hraw

theorem Unstarted.elim {id digest : String} (h : Unstarted host trace id) {pre post : List (Mark F)} {m : Mark F}
    (heq : trace = pre ++ m :: post) (hstarts : Starts host id digest m) : False := h m (by simp [heq]) digest hstarts

/-- What has not started has not been executed. -/
theorem Once.unexecuted (h : Once host trace) {id : String} (hnone : Unstarted host trace id) {t : Task F} {disk : Disk}
    (hmem : .executed t disk ∈ trace) : t.id ≠ id := by
  rintro rfl
  obtain ⟨pre, post, hsplit⟩ := List.append_of_mem hmem
  obtain ⟨digest, before, raw, -, hid, hpre, hload, -⟩ := h.begun pre t disk post hsplit
  refine hnone (.wrote .receipts (fileName t.id) none raw true) ?_ digest ⟨hid, t, raw, true, rfl, rfl, hload⟩
  simp [hsplit, hpre]

/-- The receipt of an execution that starts, the first of its id. -/
theorem Sound.started (h : Sound host trace receipts) {t : Task F} {new : Bytes} (durable : Bool) (hnone : Unstarted host trace t.id) :
    Sound host (trace ++ [.wrote .receipts (fileName t.id) none new durable]) (receipts.put (fileName t.id) new) := by
  refine ⟨h.toOnce.snoc (by simp) ?_, ?_⟩
  · intro pre x id' digest' mid place old' new' durable' hm htrace hstarts _ _
    simp only [Mark.wrote.injEq] at hm
    obtain ⟨-, hname, -, -, -⟩ := hm
    rw [← fileName_inj hname] at hstarts
    exact (hnone.elim htrace hstarts).elim
  · intro pre x id' digest' post heq hstarts
    rcases split_snoc heq with ⟨rest, hrest, rfl⟩ | ⟨-, rfl, -⟩
    · have hid : id' ≠ t.id := by
        rintro rfl
        exact hnone.elim hrest hstarts
      obtain ⟨raw, doc, hraw, hdoc, htext, hresult⟩ := h.receipt pre x id' digest' rest hrest hstarts
      refine ⟨raw, doc, ?_, hdoc, htext, fun v hv => (hresult v hv).snoc _⟩
      rw [get_put_ne _ fun hname => hid (fileName_inj hname), hraw]
    · obtain ⟨-, t', raw, durable', hm, -, hraw⟩ := hstarts
      simp only [Mark.wrote.injEq] at hm
      obtain ⟨-, hname, -, rfl, -⟩ := hm
      obtain rfl := fileName_inj hname
      refine ⟨new, startedReceipt t' digest', get_put_self _ _ _, hraw, rfl, ?_⟩
      intro v hv
      cases hv

/-- An execution of an id there has been none of. -/
theorem Sound.executed (h : Sound host trace receipts) {t : Task F} {disk : Disk} (hbegun : Begun host trace t disk)
    (hnone : ∀ t' disk', .executed t' disk' ∈ trace → t'.id ≠ t.id) : Sound host (trace ++ [.executed t disk]) receipts where
  begun pre t' disk' post heq := by
    rcases split_snoc heq with ⟨rest, hrest, -⟩ | ⟨rfl, hm, -⟩
    · exact h.begun pre t' disk' rest hrest
    · cases hm
      exact hbegun
  once pre t' disk' post heq := by
    rcases split_snoc heq with ⟨rest, hrest, -⟩ | ⟨rfl, hm, -⟩
    · exact h.once pre t' disk' rest hrest
    · cases hm
      exact hnone
  later pre x id digest mid place old new durable rest heq hstarts hplace hbegan := by
    rcases split_snoc heq with ⟨rest', hrest, -⟩ | ⟨-, hm, -⟩
    · exact h.later pre x id digest mid place old new durable rest' hrest hstarts hplace hbegan
    · cases hm
  receipt := h.snoc_receipt fun id digest => not_starts (by simp)

end

end LocalHand.Mailbox
