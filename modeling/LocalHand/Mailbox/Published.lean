/-
`publish_outbox` loses no record: what leaves the outbox is in the mailbox, as the
fetch or the push before it says, or in quarantine with its conflict record written.

The conflict records of the outbox come before its results in the order of their
names, so that none is written over while it is still pending.
-/
import LocalHand.Mailbox.Steps
import LocalHand.BridgeValues

namespace LocalHand.Mailbox

open PyJson Program Directory
open QuotaPayload (replaceField isStr)
open QuotaBridge (lookup_replaceField replaceField_wf lookup_wf)
open Framing (Bytes)

variable {F R : Type}

/-! ## What a run says -/

/-- A record `publish_outbox` finds valid. -/
def Valid (host : Host F) (name : String) (raw : Bytes) : Prop :=
  ∃ value, raw.length ≤ maxResultJsonBytes ∧ host.load raw = some value ∧ validateLocalOutboxResult host value name = .ok ()

def Mark.isGit : Mark F → Bool
  | .synced _ | .pushed _ _ => true
  | _ => false

/-- The last fetch or push of a trace. -/
def Recent (trace : List (Mark F)) (m : Mark F) : Prop :=
  ∃ before after, trace = before ++ m :: after ∧ ∀ x ∈ after, x.isGit = false

/-- Two texts with one digest. -/
def Collision (host : Host F) (a b : Bytes) : Prop := a ≠ b ∧ host.sha256 a = host.sha256 b

/-- A tree has an equal record: equal bytes of a conflict record, equal canonical JSON
of a result. -/
def Equal (host : Host F) (name : String) (raw : Bytes) (tree : Tree) : Prop :=
  if isConflictOutbox name then tree.conflicts.get name = some raw
  else ∃ raw' value value' text text', tree.results.get name = some raw' ∧ host.load raw = some value ∧
    host.load raw' = some value' ∧ host.canonical value = some text ∧ host.canonical value' = some text' ∧
    (text = text' ∨ Collision host text text')

/-- The snapshot just fetched has an equal record, or the push of it was accepted. -/
def Justified (host : Host F) (trace : List (Mark F)) (name : String) (raw : Bytes) : Prop :=
  (∃ tree, Recent trace (.synced tree) ∧ Equal host name raw tree) ∨
    ∃ tree, Recent trace (.pushed tree .accepted) ∧ (routeOutboxTarget name tree).get name = some raw

/-- A valid conflict record bound to the digest of this result is durably in the outbox. -/
def Evidence (host : Host F) (trace : List (Mark F)) (raw : Bytes) : Prop :=
  ∃ value digest old new conflict, host.load raw = some value ∧ text? value "task_digest" = some digest ∧
    .wrote .outbox (conflictName digest) old new true ∈ trace ∧ Valid host (conflictName digest) new ∧
    host.load new = some conflict ∧ text? conflict "task_digest" = some digest

/-- What has become of the outbox and the quarantine a call has found. -/
structure Safe (host : Host F) (outbox quarantine : Dir Bytes) (now : Dir Bytes) (moved : Dir Bytes) (trace : List (Mark F)) : Prop where
  unlinked : ∀ before name raw after, trace = before ++ .unlinked name raw :: after → Justified host before name raw
  quarantined : ∀ before name dest raw after, trace = before ++ .quarantined name dest raw :: after →
    quarantine.get dest = none ∧ moved.get dest = some raw ∧
      (Valid host name raw → isConflictOutbox name = false → Evidence host before raw)
  kept : ∀ name raw, quarantine.get name = some raw → moved.get name = some raw
  pending : ∀ name raw, outbox.get name = some raw → Valid host name raw →
    now.get name = some raw ∨ .unlinked name raw ∈ trace ∨ ∃ dest, .quarantined name dest raw ∈ trace
  written : ∀ before name old new durable after, trace = before ++ .wrote .outbox name old new durable :: after →
    isConflictOutbox name = true ∧ (now.get name = some new ∨ ∃ old' new' durable', .wrote .outbox name old' new' durable' ∈ after)

/-- A valid record that was pending has left the outbox. -/
def Settled (host : Host F) (outbox : Dir Bytes) (trace : List (Mark F)) (name : String) : Prop :=
  ∀ raw, outbox.get name = some raw → Valid host name raw →
    .unlinked name raw ∈ trace ∨ ∃ dest, .quarantined name dest raw ∈ trace

/-! ## Traces -/

theorem split_snoc {α : Type} {trace before after : List α} {m x : α} (h : trace ++ [m] = before ++ x :: after) :
    (∃ rest, trace = before ++ x :: rest ∧ after = rest ++ [m]) ∨ (trace = before ∧ m = x ∧ after = []) := by
  induction after using List.reverseRecOn with
  | nil =>
    have hsplit := List.append_inj' h rfl
    exact .inr ⟨hsplit.1, by simpa using hsplit.2, rfl⟩
  | append_singleton rest y _ =>
    have heq : trace ++ [m] = (before ++ x :: rest) ++ [y] := by simpa using h
    obtain ⟨hinit, hlast⟩ := List.append_inj' heq rfl
    exact .inl ⟨rest, hinit, by simpa using hlast.symm⟩

theorem recent_self (trace : List (Mark F)) (m : Mark F) : Recent (trace ++ [m]) m := ⟨trace, [], rfl, by simp⟩

theorem Recent.snoc {trace : List (Mark F)} {m x : Mark F} (h : Recent trace m) (hx : x.isGit = false) : Recent (trace ++ [x]) m := by
  obtain ⟨before, after, rfl, hafter⟩ := h
  refine ⟨before, after ++ [x], by simp, ?_⟩
  intro y hy
  rcases List.mem_append.mp hy with hy | hy
  · exact hafter y hy
  · rw [List.mem_singleton.mp hy]
    exact hx

variable {host : Host F} {outbox quarantine now moved : Dir Bytes} {trace : List (Mark F)}

theorem Settled.snoc {name : String} (h : Settled host outbox trace name) (m : Mark F) : Settled host outbox (trace ++ [m]) name := by
  intro raw hraw hvalid
  rcases h raw hraw hvalid with hu | ⟨dest, hq⟩
  · exact .inl (List.mem_append_left _ hu)
  · exact .inr ⟨dest, List.mem_append_left _ hq⟩

theorem Safe.settled_of (h : Safe host outbox quarantine now moved trace) {name : String}
    (hgone : ∀ raw, outbox.get name = some raw → now.get name ≠ some raw) : Settled host outbox trace name := by
  intro raw hraw hvalid
  exact (h.pending name raw hraw hvalid).resolve_left (hgone raw hraw)

/-- A step that neither removes nor moves a record. -/
theorem Safe.quiet (h : Safe host outbox quarantine now moved trace) {m : Mark F} (hm : m.isGit = true) :
    Safe host outbox quarantine now moved (trace ++ [m]) where
  unlinked before name raw after heq := by
    rcases split_snoc heq with ⟨rest, hrest, -⟩ | ⟨-, rfl, -⟩
    · exact h.unlinked before name raw rest hrest
    · cases hm
  quarantined before name dest raw after heq := by
    rcases split_snoc heq with ⟨rest, hrest, -⟩ | ⟨-, rfl, -⟩
    · exact h.quarantined before name dest raw rest hrest
    · cases hm
  kept := h.kept
  pending name raw hraw hvalid := by
    rcases h.pending name raw hraw hvalid with hnow | hu | ⟨dest, hq⟩
    · exact .inl hnow
    · exact .inr (.inl (List.mem_append_left _ hu))
    · exact .inr (.inr ⟨dest, List.mem_append_left _ hq⟩)
  written before name old new durable after heq := by
    rcases split_snoc heq with ⟨rest, hrest, rfl⟩ | ⟨-, rfl, -⟩
    · obtain ⟨hconflict, hnow⟩ := h.written before name old new durable rest hrest
      refine ⟨hconflict, hnow.imp_right ?_⟩
      rintro ⟨old', new', durable', hmem⟩
      exact ⟨old', new', durable', List.mem_append_left _ hmem⟩
    · cases hm

/-- What was written stays where a record that was not written goes. -/
theorem Safe.written_remove (h : Safe host outbox quarantine now moved trace) {name : String} {m : Mark F}
    (hnew : ∀ old new durable, Mark.wrote .outbox name old new durable ∉ trace) (hm : ∀ n old new durable, m ≠ .wrote .outbox n old new durable)
    (before : List (Mark F)) (other : String) (old : Option Bytes) (new : Bytes) (durable : Bool) (after : List (Mark F))
    (heq : trace ++ [m] = before ++ .wrote .outbox other old new durable :: after) :
    isConflictOutbox other = true ∧ ((now.remove name).get other = some new ∨
      ∃ old' new' durable', Mark.wrote .outbox other old' new' durable' ∈ after) := by
  rcases split_snoc heq with ⟨rest, hrest, rfl⟩ | ⟨-, rfl, -⟩
  · obtain ⟨hconflict, hnow⟩ := h.written before other old new durable rest hrest
    have hne : other ≠ name := by
      rintro rfl
      exact hnew old new durable (by simp [hrest])
    refine ⟨hconflict, ?_⟩
    rcases hnow with hnow | ⟨old', new', durable', hmem⟩
    · exact .inl (by rw [get_remove_ne now hne, hnow])
    · exact .inr ⟨old', new', durable', List.mem_append_left _ hmem⟩
  · exact absurd rfl (hm other old new durable)

/-- A record removed for a reason. -/
theorem Safe.unlink (h : Safe host outbox quarantine now moved trace) {name : String} {raw : Bytes} (hnow : now.get name = some raw)
    (hnew : ∀ old new durable, Mark.wrote .outbox name old new durable ∉ trace) (hjust : Justified host trace name raw) : Safe host outbox quarantine (now.remove name) moved (trace ++ [.unlinked name raw]) where
  unlinked before other raw' after heq := by
    rcases split_snoc heq with ⟨rest, hrest, -⟩ | ⟨rfl, hm, -⟩
    · exact h.unlinked before other raw' rest hrest
    · cases hm
      exact hjust
  quarantined before other dest raw' after heq := by
    rcases split_snoc heq with ⟨rest, hrest, -⟩ | ⟨-, hm, -⟩
    · exact h.quarantined before other dest raw' rest hrest
    · cases hm
  kept := h.kept
  pending other raw' hraw hvalid := by
    rcases h.pending other raw' hraw hvalid with hold | hu | ⟨dest, hq⟩
    · by_cases hname : other = name
      · subst hname
        rw [hnow] at hold
        cases hold
        exact .inr (.inl (by simp))
      · exact .inl (by rw [get_remove_ne now hname, hold])
    · exact .inr (.inl (List.mem_append_left _ hu))
    · exact .inr (.inr ⟨dest, List.mem_append_left _ hq⟩)
  written := h.written_remove hnew (by simp)

/-- A record moved to a name that is free, with its conflict record written. -/
theorem Safe.move (h : Safe host outbox quarantine now moved trace) {name dest : String} {raw : Bytes} (hnow : now.get name = some raw)
    (hnew : ∀ old new durable, Mark.wrote .outbox name old new durable ∉ trace) (hfree : moved.get dest = none) (hevidence : Valid host name raw → isConflictOutbox name = false → Evidence host trace raw) :
    Safe host outbox quarantine (now.remove name) (moved.put dest raw) (trace ++ [.quarantined name dest raw]) where
  unlinked before other raw' after heq := by
    rcases split_snoc heq with ⟨rest, hrest, -⟩ | ⟨-, hm, -⟩
    · exact h.unlinked before other raw' rest hrest
    · cases hm
  quarantined before other dest' raw' after heq := by
    rcases split_snoc heq with ⟨rest, hrest, -⟩ | ⟨rfl, hm, -⟩
    · obtain ⟨hstart, hmoved, hev⟩ := h.quarantined before other dest' raw' rest hrest
      refine ⟨hstart, ?_, hev⟩
      have hne : dest' ≠ dest := by
        rintro rfl
        rw [hfree] at hmoved
        cases hmoved
      rw [get_put_ne moved hne, hmoved]
    · cases hm
      refine ⟨?_, get_put_self _ _ _, hevidence⟩
      cases hstart : quarantine.get dest with
      | none => rfl
      | some old =>
        rw [h.kept dest old hstart] at hfree
        cases hfree
  kept other raw' hraw := by
    have hmoved := h.kept other raw' hraw
    have hne : other ≠ dest := by
      rintro rfl
      rw [hfree] at hmoved
      cases hmoved
    rw [get_put_ne moved hne, hmoved]
  pending other raw' hraw hvalid := by
    rcases h.pending other raw' hraw hvalid with hold | hu | ⟨dest', hq⟩
    · by_cases hname : other = name
      · subst hname
        rw [hnow] at hold
        cases hold
        exact .inr (.inr ⟨dest, by simp⟩)
      · exact .inl (by rw [get_remove_ne now hname, hold])
    · exact .inr (.inl (List.mem_append_left _ hu))
    · exact .inr (.inr ⟨dest', List.mem_append_left _ hq⟩)
  written := h.written_remove hnew (by simp)

/-- A conflict record written over one that is settled. -/
theorem Safe.write (h : Safe host outbox quarantine now moved trace) {name : String} (hsettled : Settled host outbox trace name)
    (hconflict : isConflictOutbox name = true) (old : Option Bytes) (new : Bytes) (durable : Bool) :
    Safe host outbox quarantine (now.put name new) moved (trace ++ [.wrote .outbox name old new durable]) where
  unlinked before other raw after heq := by
    rcases split_snoc heq with ⟨rest, hrest, -⟩ | ⟨-, hm, -⟩
    · exact h.unlinked before other raw rest hrest
    · cases hm
  quarantined before other dest raw after heq := by
    rcases split_snoc heq with ⟨rest, hrest, -⟩ | ⟨-, hm, -⟩
    · exact h.quarantined before other dest raw rest hrest
    · cases hm
  kept := h.kept
  pending other raw hraw hvalid := by
    by_cases hname : other = name
    · subst hname
      exact .inr (hsettled.snoc _ raw hraw hvalid)
    · rw [get_put_ne now hname]
      rcases h.pending other raw hraw hvalid with hnow | hu | ⟨dest, hq⟩
      · exact .inl hnow
      · exact .inr (.inl (List.mem_append_left _ hu))
      · exact .inr (.inr ⟨dest, List.mem_append_left _ hq⟩)
  written before other old' new' durable' after heq := by
    rcases split_snoc heq with ⟨rest, hrest, rfl⟩ | ⟨-, hm, -⟩
    · obtain ⟨hother, hnow⟩ := h.written before other old' new' durable' rest hrest
      refine ⟨hother, ?_⟩
      by_cases hname : other = name
      · subst hname
        exact .inr ⟨old, new, durable, by simp⟩
      · rw [get_put_ne now hname]
        refine hnow.imp_right ?_
        rintro ⟨old'', new'', durable'', hmem⟩
        exact ⟨old'', new'', durable'', List.mem_append_left _ hmem⟩
    · cases hm
      exact ⟨hconflict, .inl (get_put_self _ _ _)⟩

/-! ## The steps of a call -/

section

variable {env : Env F R} {start : World F R} {S : String → Prop} {C : List (Mark F) → World F R → Prop}

/-- No conflict record that was pending is still. -/
def Cleared (start : World F R) (S : String → Prop) : Prop :=
  ∀ name, isConflictOutbox name = true → isJson name = true → start.outbox.has name = true → S name

/-- The records of `S` are settled, and a conflict record is written when all that
were pending are among them. -/
structure Progress (host : Host F) (start : World F R) (S : String → Prop) (done : List (Mark F)) : Prop where
  settled : ∀ name, S name → Settled host start.outbox done name
  cleared : ∀ name old new durable, .wrote .outbox name old new durable ∈ done → Cleared start S

/-- A world in the middle of a call that found `start`: everything is safe, and `C`
holds of what has been done. -/
def Stage (host : Host F) (start : World F R) (S : String → Prop) (C : List (Mark F) → World F R → Prop) (w : World F R) : Prop :=
  ∃ done, w.trace = start.trace ++ done ∧ Safe host start.outbox start.quarantine w.outbox w.quarantine done ∧
    Progress host start S done ∧ C done w

/-- What holds wherever the call ends. -/
def Kept (host : Host F) (start w : World F R) : Prop :=
  ∃ done, w.trace = start.trace ++ done ∧ Safe host start.outbox start.quarantine w.outbox w.quarantine done

/-- A conflict record whose turn it is was pending, and has not been settled. -/
def Fresh (start : World F R) (S : String → Prop) (name : String) : Prop :=
  isConflictOutbox name = true → isJson name = true ∧ start.outbox.has name = true ∧ ¬ S name

theorem Stage.kept {w : World F R} (h : Stage host start S C w) : Kept host start w := by
  obtain ⟨done, htrace, hsafe, -, -⟩ := h
  exact ⟨done, htrace, hsafe⟩

theorem Progress.snoc {done : List (Mark F)} (h : Progress host start S done) (m : Mark F)
    (hm : ∀ name old new durable, m ≠ .wrote .outbox name old new durable) : Progress host start S (done ++ [m]) where
  settled name hname := (h.settled name hname).snoc m
  cleared name old new durable hmem := by
    rcases List.mem_append.mp hmem with hmem | hmem
    · exact h.cleared name old new durable hmem
    · exact absurd (List.mem_singleton.mp hmem).symm (hm name old new durable)

/-- One more record is settled. -/
theorem Progress.more {done : List (Mark F)} (h : Progress host start S done) {name : String}
    (hsettled : Settled host start.outbox done name) : Progress host start (fun n => S n ∨ n = name) done where
  settled n hn := by
    rcases hn with hn | rfl
    · exact h.settled n hn
    · exact hsettled
  cleared n old new durable hmem c hconflict hjson hhas := .inl (h.cleared n old new durable hmem c hconflict hjson hhas)

theorem Progress.unwritten {done : List (Mark F)} {w : World F R} {name : String} (h : Progress host start S done)
    (hsafe : Safe host start.outbox start.quarantine w.outbox w.quarantine done) (hfresh : Fresh start S name)
    (old : Option Bytes) (new : Bytes) (durable : Bool) : Mark.wrote .outbox name old new durable ∉ done := by
  intro hmem
  obtain ⟨before, after, hsplit⟩ := List.append_of_mem hmem
  have hconflict := (hsafe.written before name old new durable after hsplit).1
  obtain ⟨hjson, hhas, hnot⟩ := hfresh hconflict
  exact hnot (h.cleared name old new durable hmem name hconflict hjson hhas)

theorem stage_timeless (hC : ∀ done (w : World F R) n, C done w → C done { w with clock := n }) : Timeless (Stage host start S C) := by
  rintro w n ⟨done, htrace, hsafe, hprogress, hc⟩
  exact ⟨done, htrace, hsafe, hprogress, hC done w n hc⟩

theorem freeName_spec {P : World F R → Prop} (hP : Timeless P) (names : List String) :
    Spec P (freeName env names) (fun dest w => P w ∧ w.quarantine.get dest = none) (fun _ => P) := by
  induction names with
  | nil => exact Spec.raise fun _ h => h
  | cons name rest ih =>
    refine Spec.bind (targetLexists_spec hP _ name) fun taken => ?_
    cases taken with
    | true => exact ih.weaken (fun _ h => h.1) (fun _ _ h => h) fun _ _ h => h
    | false => exact Spec.ret fun w h => ⟨h.1, has_false.mp h.2.symm⟩

/-- A move to a free name. -/
theorem replace_spec (name dest : String) (hfresh : Fresh start S name) (hC : ∀ done (w : World F R) n, C done w → C done { w with clock := n })
    (hevidence : ∀ done (w : World F R) raw, C done w → w.outbox.get name = some raw → Valid host name raw →
      isConflictOutbox name = false → Evidence host done raw) :
    Spec (fun w => Stage host start S C w ∧ w.quarantine.get dest = none) (replace env name dest)
      (fun _ => Stage host start (fun n => S n ∨ n = name) fun _ _ => True) (fun _ => Kept host start) := by
  refine Spec.bind (Q := fun w' w => (Stage host start S C w ∧ w.quarantine.get dest = none) ∧ w' = w)
    (Spec.read fun _ h => ⟨h, rfl⟩) fun w' => ?_
  rintro w ⟨hw, rfl⟩
  refine (?_ : Spec (fun v => (Stage host start S C v ∧ v.quarantine.get dest = none) ∧ v.outbox = w'.outbox) _ _ _) w' ⟨hw, rfl⟩
  split
  · exact Spec.raise fun _ h => h.1.1.kept
  · next raw hraw =>
    have hmove : ∀ v, (Stage host start S C v ∧ v.quarantine.get dest = none) ∧ v.outbox = w'.outbox →
        Stage host start (fun n => S n ∨ n = name) (fun _ _ => True)
          ({ v with outbox := v.outbox.remove name, quarantine := v.quarantine.put dest raw }.mark (.quarantined name dest raw)) := by
      rintro v ⟨⟨⟨done, htrace, hsafe, hprogress, hc⟩, hfree⟩, hsame⟩
      have hnow : v.outbox.get name = some raw := by rw [hsame, hraw]
      have hmoved := hsafe.move hnow (hprogress.unwritten hsafe hfresh) hfree (hevidence done v raw hc hnow)
      refine ⟨done ++ [Mark.quarantined name dest raw], ?_, hmoved, ?_, trivial⟩
      · show v.trace ++ _ = _
        rw [htrace, List.append_assoc]
      · exact (hprogress.snoc _ (by simp)).more (hmoved.settled_of fun _ _ => by simp)
    refine writing_spec ?_ _ _ hmove (fun _ h => h.1.1.kept) fun v h => (hmove v h).kept
    exact fun v n h => ⟨⟨stage_timeless hC v n h.1.1, h.1.2⟩, h.2⟩

/-- A removal for a reason. -/
theorem unlink_spec (name : String) (hfresh : Fresh start S name) (hC : ∀ done (w : World F R) n, C done w → C done { w with clock := n })
    (hjust : ∀ done (w : World F R) raw, C done w → w.outbox.get name = some raw → Justified host done name raw) :
    Spec (Stage host start S C) (unlink env name)
      (fun _ => Stage host start (fun n => S n ∨ n = name) fun _ _ => True) (fun _ => Kept host start) := by
  refine Spec.bind (Q := fun w' w => Stage host start S C w ∧ w' = w) (Spec.read fun _ h => ⟨h, rfl⟩) fun w' => ?_
  rintro w ⟨hw, rfl⟩
  refine (?_ : Spec (fun v => Stage host start S C v ∧ v.outbox = w'.outbox) _ _ _) w' ⟨hw, rfl⟩
  split
  · exact Spec.raise fun _ h => h.1.kept
  · next raw hraw =>
    have hremove : ∀ v, Stage host start S C v ∧ v.outbox = w'.outbox →
        Stage host start (fun n => S n ∨ n = name) (fun _ _ => True)
          ({ v with outbox := v.outbox.remove name }.mark (.unlinked name raw)) := by
      rintro v ⟨⟨done, htrace, hsafe, hprogress, hc⟩, hsame⟩
      have hnow : v.outbox.get name = some raw := by rw [hsame, hraw]
      have hremoved := hsafe.unlink hnow (hprogress.unwritten hsafe hfresh) (hjust done v raw hc hnow)
      refine ⟨done ++ [Mark.unlinked name raw], ?_, hremoved, ?_, trivial⟩
      · show v.trace ++ _ = _
        rw [htrace, List.append_assoc]
      · exact (hprogress.snoc _ (by simp)).more (hremoved.settled_of fun _ _ => by simp)
    refine writing_spec ?_ _ _ hremove (fun _ h => h.1.kept) fun v h => (hremove v h).kept
    exact fun v n h => ⟨stage_timeless hC v n h.1, h.2⟩

/-- A move under one of the names the source makes. -/
theorem quarantine_spec (name : String) (hfresh : Fresh start S name) (names : World F R → List String)
    (hC : ∀ done (w : World F R) n, C done w → C done { w with clock := n })
    (hevidence : ∀ done (w : World F R) raw, C done w → w.outbox.get name = some raw → Valid host name raw →
      isConflictOutbox name = false → Evidence host done raw) :
    Spec (Stage host start S C) (do replace env name (← freeName env (names (← get))))
      (fun _ => Stage host start (fun n => S n ∨ n = name) fun _ _ => True) (fun _ => Kept host start) := by
  refine Spec.bind (Q := fun _ => Stage host start S C) (Spec.read fun _ h => h) fun w => ?_
  refine Spec.bind ((freeName_spec (stage_timeless hC) _).weaken (fun _ h => h) (fun _ _ h => h) fun _ _ h => h.kept) fun dest => ?_
  exact replace_spec name dest hfresh hC hevidence

theorem quarantineLocalOutboxFile_spec (name reason : String) (hfresh : Fresh start S name)
    (hC : ∀ done (w : World F R) n, C done w → C done { w with clock := n })
    (hevidence : ∀ done (w : World F R) raw, C done w → w.outbox.get name = some raw → Valid host name raw →
      isConflictOutbox name = false → Evidence host done raw) :
    Spec (Stage host start S C) (quarantineLocalOutboxFile host env name reason)
      (fun _ => Stage host start (fun n => S n ∨ n = name) fun _ _ => True) (fun _ => Kept host start) :=
  quarantine_spec name hfresh _ hC hevidence

theorem quarantineLocalResultConflict_spec (name : String) (hfresh : Fresh start S name) (value remote : Value F)
    (hC : ∀ done (w : World F R) n, C done w → C done { w with clock := n })
    (hevidence : ∀ done (w : World F R) raw, C done w → w.outbox.get name = some raw → Valid host name raw →
      isConflictOutbox name = false → Evidence host done raw) :
    Spec (Stage host start S C) (quarantineLocalResultConflict host env name value remote)
      (fun _ => Stage host start (fun n => S n ∨ n = name) fun _ _ => True) (fun _ => Kept host start) := by
  have hdigest : ∀ v : Value F, Spec (Stage host start S C) (resultDigest host v) (fun _ => Stage host start S C) (fun _ => Kept host start) :=
    fun v => (resultDigest_spec v).weaken (fun _ h => h) (fun _ _ h => h.1) fun _ _ h => h.kept
  refine Spec.bind (hdigest value) fun localDigest => ?_
  refine Spec.bind (hdigest remote) fun remoteDigest => ?_
  exact quarantine_spec name hfresh _ hC hevidence

theorem Stage.and {X : World F R → Prop} {w : World F R} (h : Stage host start S C w) (hx : X w) :
    Stage host start S (fun done w => C done w ∧ X w) w := by
  obtain ⟨done, htrace, hsafe, hprogress, hc⟩ := h
  exact ⟨done, htrace, hsafe, hprogress, hc, hx⟩

/-! ### Conflict records -/

theorem isConflictOutbox_conflictName (digest : String) : isConflictOutbox (conflictName digest) = true := by
  simp [isConflictOutbox, conflictName]

theorem isJson_conflictName (digest : String) : isJson (conflictName digest) = true := by
  have htext : (conflictName digest).toList = ("CONFLICT-" ++ lower digest).toList ++ ".json".toList := by
    rw [conflictName, String.toList_append]
  have hlen : (".json".toList).length = 5 := by decide
  rw [isJson, htext, List.length_append, hlen, Nat.add_sub_cancel, List.drop_left]
  simp

theorem conflictFilename_ok {digest name : String} (h : conflictFilename digest = .ok name) :
    name = conflictName digest ∧ isDigest digest = true := by
  unfold conflictFilename at h
  split at h
  · next hd =>
    cases h
    exact ⟨rfl, hd⟩
  · cases h

theorem conflictFilenameOf_ok {taskId digest name : String} (h : conflictFilenameOf taskId digest = .ok name) :
    name = conflictName digest ∧ isDigest digest = true := by
  unfold conflictFilenameOf at h
  split at h
  · exact conflictFilename_ok h
  · cases h

theorem withFields_wf {v : Value F} (hv : v.WF) {new : List (String × Value F)} (hnew : ∀ f ∈ new, f.2.WF) :
    (withFields v new).WF := by
  cases v with
  | obj fields =>
    show (Value.obj (new.foldl _ fields)).WF
    induction new generalizing fields with
    | nil => exact hv
    | cons f rest ih =>
      exact ih (fun g hg => hnew g (List.mem_cons_of_mem _ hg)) _ (replaceField_wf (hnew f List.mem_cons_self) hv)
  | null | bool b | int i | float x | str s | arr xs => exact hv

/-- A conflict record is of the same task, and reports no success. -/
theorem conflictOf_texts (v : Value F) (code error : String) (details : List (String × Value F)) :
    text? (conflictOf v code error details) "task_digest" = text? v "task_digest" ∧
      text? (conflictOf v code error details) "status" ≠ some "succeeded" := by
  cases v with
  | obj fields =>
    have hdigest : text? (conflictOf (.obj fields) code error details) "task_digest" = text? (.obj fields : Value F) "task_digest" := by
      simp [conflictOf, withFields, text?, Value.get?, lookup_replaceField]
    refine ⟨hdigest, ?_⟩
    simp only [conflictOf, withFields, text?, Value.get?, List.foldl_cons, List.foldl_nil, lookup_replaceField]
    cases lookup fields "status" <;> simp
  | null | bool b | int i | float x | str s | arr xs => simp [conflictOf, withFields, text?, Value.get?]

theorem conflict_valid {v : Value F} {code error digest : String} {details : List (String × Value F)} {data : Bytes}
    (hwf : (conflictOf v code error details).WF) (hshape : validateResultShape host (conflictOf v code error details) = .ok ())
    (hdigest : text? v "task_digest" = some digest) (hhex : isDigest digest = true)
    (hprint : host.print (conflictOf v code error details) = some data) (hlen : data.length ≤ maxResultJsonBytes) :
    Valid host (conflictName digest) data := by
  obtain ⟨hsame, hstatus⟩ := conflictOf_texts v code error details
  have hfilename : conflictFilename digest = .ok (conflictName digest) := by rw [conflictFilename, if_pos hhex]
  refine ⟨_, hlen, host.load_print _ _ hwf hprint, ?_⟩
  simp only [validateLocalOutboxResult, hshape, isConflictOutbox_conflictName, if_true, bind_ok_iff, check_ok, hsame, hdigest,
    Option.any_some, hfilename, decide_true, Bool.true_and, ne_eq, hstatus, not_false_eq_true]
  exact ⟨(), trivial, trivial⟩

variable {name : String} {raw : Bytes} {value : Value F}

theorem saveConflict_spec (hcleared : Cleared start S) (hresult : isConflictOutbox name = false) (hload : host.load raw = some value)
    {code error : String} {details : List (String × Value F)} (hdetails : (Value.obj details).WF) :
    Spec (Stage host start S fun _ w => w.outbox.get name = some raw)
      (saveConflict host env value (conflictOf value code error details))
      (fun _ => Stage host start S fun done w => w.outbox.get name = some raw ∧ Evidence host done raw)
      (fun _ => Kept host start) := by
  have htimeless : Timeless (Stage host start S fun _ (w : World F R) => w.outbox.get name = some raw) :=
    stage_timeless fun _ _ _ h => h
  have hwf : (conflictOf value code error details).WF := by
    refine withFields_wf (host.load_wf _ _ hload) ?_
    simp only [List.forall_mem_cons, List.not_mem_nil, false_imp_iff, implies_true, and_true]
    exact ⟨trivial, trivial, trivial, hdetails⟩
  refine Spec.bind ((lift_spec _).weaken (fun _ h => h) (fun _ _ h => h) fun _ _ h => h.kept) fun _ => ?_
  rintro w ⟨hw, hshape⟩
  refine (?_ : Spec (Stage host start S fun _ w => w.outbox.get name = some raw) _ _ _) w hw
  refine Spec.bind ((lift_spec _).weaken (fun _ h => h) (fun _ _ h => h) fun _ _ h => h.kept) fun conflict => ?_
  rintro w ⟨hw, hconflict⟩
  obtain ⟨rfl, hhex⟩ := conflictFilenameOf_ok hconflict
  refine (?_ : Spec (Stage host start S fun _ w => w.outbox.get name = some raw) _ _ _) w hw
  -- A digest in hexadecimal is a text the result has.
  obtain ⟨digest, hdigest⟩ : ∃ digest, text? value "task_digest" = some digest := by
    cases htext : text? value "task_digest" with
    | some digest => exact ⟨digest, rfl⟩
    | none =>
      rw [textOf, htext] at hhex
      exact absurd hhex (by decide)
  have htext : textOf value "task_digest" = digest := by rw [textOf, hdigest]; rfl
  rw [htext] at hhex ⊢
  have hne : name ≠ conflictName digest := by
    rintro rfl
    rw [isConflictOutbox_conflictName] at hresult
    cases hresult
  have hwritten : ∀ (v : World F R) data durable, Stage host start S (fun _ w => w.outbox.get name = some raw) v →
      Stage host start S (fun done w => w.outbox.get name = some raw ∧
          Mark.wrote .outbox (conflictName digest) (v.outbox.get (conflictName digest)) data durable ∈ done)
        ((v.with .outbox ((v.place .outbox).put (conflictName digest) data)).mark
          (.wrote .outbox (conflictName digest) ((v.place .outbox).get (conflictName digest)) data durable)) := by
    rintro v data durable ⟨done, htrace, hsafe, hprogress, hnow⟩
    have hgone : Settled host start.outbox done (conflictName digest) := by
      intro raw' hraw' hvalid
      have hhas : start.outbox.has (conflictName digest) = true := has_iff.mpr ⟨raw', hraw'⟩
      exact hprogress.settled _ (hcleared _ (isConflictOutbox_conflictName digest) (isJson_conflictName digest) hhas) raw' hraw' hvalid
    refine ⟨done ++ [Mark.wrote .outbox (conflictName digest) (v.outbox.get (conflictName digest)) data durable], ?_,
      hsafe.write hgone (isConflictOutbox_conflictName digest) _ data durable, ?_, ?_, by simp⟩
    · show v.trace ++ _ = _
      rw [htrace, List.append_assoc]
      rfl
    · exact ⟨fun n hn => (hprogress.settled n hn).snoc _, fun _ _ _ _ _ => hcleared⟩
    · show (v.outbox.put _ _).get name = _
      rw [get_put_ne _ hne, hnow]
  refine writeJsonAtomic_spec htimeless .outbox _ _ _ _ (fun _ h => h.kept) ?_ ?_
  · intro v data hv hprint hlen
    obtain ⟨done, htrace, hsafe, hprogress, hnow, hmark⟩ := hwritten v data true hv
    have hvalid := conflict_valid hwf hshape hdigest hhex hprint hlen
    obtain ⟨hsame, -⟩ := conflictOf_texts value code error details
    exact ⟨done, htrace, hsafe, hprogress, hnow, value, digest, _, data, _, hload, hdigest, hmark, hvalid,
      host.load_print _ _ hwf hprint, hsame.trans hdigest⟩
  · exact fun v data hv _ _ => (hwritten v data false hv).kept

theorem fieldOf_wf (hv : value.WF) (key : String) : (fieldOf value key).WF := by
  cases hf : value.get? key with
  | none =>
    rw [fieldOf, hf]
    trivial
  | some field =>
    rw [fieldOf, hf]
    cases value with
    | obj fields => exact lookup_wf hv hf
    | null | bool b | int i | float x | str s | arr xs => cases hf

theorem publishConflictFromInvalidRemote_spec (hcleared : Cleared start S) (hresult : isConflictOutbox name = false)
    (hload : host.load raw = some value) (failure : Failure) :
    Spec (Stage host start S fun _ w => w.outbox.get name = some raw) (publishConflictFromInvalidRemote host env value failure)
      (fun _ => Stage host start S fun done w => w.outbox.get name = some raw ∧ Evidence host done raw)
      (fun _ => Kept host start) := by
  have hkeys : ["canonical_result_preserved", "local_task_digest", "remote_validation_error"].Pairwise (· < ·) := by decide
  exact saveConflict_spec hcleared hresult hload
    ⟨List.pairwise_map.mp hkeys, trivial, fieldOf_wf (host.load_wf _ _ hload) _, trivial, trivial⟩

theorem publishConflictFromCollision_spec (hcleared : Cleared start S) (hresult : isConflictOutbox name = false)
    (hload : host.load raw = some value) {remote : Value F} (hremote : remote.WF) :
    Spec (Stage host start S fun _ w => w.outbox.get name = some raw) (publishConflictFromCollision host env value remote)
      (fun _ => Stage host start S fun done w => w.outbox.get name = some raw ∧ Evidence host done raw)
      (fun _ => Kept host start) := by
  have hdigest : ∀ v : Value F, Spec (Stage host start S fun _ w => w.outbox.get name = some raw) (resultDigest host v)
      (fun _ => Stage host start S fun _ w => w.outbox.get name = some raw) (fun _ => Kept host start) :=
    fun v => (resultDigest_spec v).weaken (fun _ h => h) (fun _ _ h => h.1) fun _ _ h => h.kept
  have hkeys : ["local_result_sha256", "local_result_status", "local_task_digest", "remote_result_sha256", "remote_result_status",
      "remote_task_digest"].Pairwise (· < ·) := by decide
  have hvalue := host.load_wf _ _ hload
  refine Spec.bind (hdigest value) fun localDigest => ?_
  refine Spec.bind (hdigest remote) fun remoteDigest => ?_
  exact saveConflict_spec hcleared hresult hload
    ⟨List.pairwise_map.mp hkeys, trivial, fieldOf_wf hvalue _, fieldOf_wf hvalue _, trivial, fieldOf_wf hremote _,
      fieldOf_wf hremote _, trivial⟩

/-! ### Taken targets -/

/-- The snapshot just fetched is the checkout. -/
def Fetched (done : List (Mark F)) (w : World F R) : Prop := Recent done (.synced w.tree)

theorem settleConflict_spec (hfresh : Fresh start S name) (hconflict : isConflictOutbox name = true) :
    Spec (Stage host start S Fetched) (settleConflict host env name)
      (fun _ => Stage host start (fun n => S n ∨ n = name) fun _ _ => True) (fun _ => Kept host start) := by
  have htimeless : ∀ {X : World F R → Prop}, (∀ w n, X w → X { w with clock := n }) →
      Timeless (Stage host start S fun done w => Fetched done w ∧ X w) :=
    fun hX => stage_timeless fun _ w n h => ⟨h.1, hX w n h.2⟩
  refine Spec.bind ((read_spec (stage_timeless fun _ _ _ h => h) (·.outbox) name _ _).weaken (fun _ h => h) (fun _ _ h => h)
    fun _ _ h => h.1.kept) fun localBytes => ?_
  refine Spec.bind ((read_spec (htimeless (X := fun w => w.outbox.get name = some localBytes) fun _ _ h => h)
    (fun w => w.tree.conflicts) name _ _).weaken (fun _ h => h.1.and h.2.1) (fun _ _ h => h) fun _ _ h => h.1.kept) fun remoteBytes => ?_
  refine (?_ : Spec _ (if localBytes = remoteBytes then _ else _) _ _)
  split
  · next heq =>
    subst heq
    refine (unlink_spec name hfresh (C := fun done w => (Fetched done w ∧ w.outbox.get name = some localBytes) ∧
      w.tree.conflicts.get name = some localBytes) (fun _ _ _ h => h) ?_).weaken (fun _ h => h.1.and h.2.1) (fun _ _ h => h)
      fun _ _ h => h
    rintro done w raw ⟨⟨hfetched, hlocal⟩, hremote⟩ hraw
    rw [hlocal] at hraw
    cases hraw
    exact .inl ⟨w.tree, hfetched, by rw [Equal, if_pos hconflict]; exact hremote⟩
  · refine (quarantineLocalOutboxFile_spec name _ hfresh (C := fun _ _ => True) (fun _ _ _ _ => trivial) ?_).weaken ?_ (fun _ _ h => h)
      fun _ _ h => h
    · intro _ _ _ _ _ _ hresult
      rw [hconflict] at hresult
      cases hresult
    · rintro w ⟨⟨done, htrace, hsafe, hprogress, -⟩, -⟩
      exact ⟨done, htrace, hsafe, hprogress, trivial⟩

variable (host env) in
theorem loadRemoteResult_spec {P : World F R → Prop} (hP : Timeless P) (target taskId : String) (action targetNode digest : Option String) :
    Spec P (loadRemoteResult host env target taskId action targetNode digest)
      (fun remote w => (P w ∧ Reads host w.tree.results target maxResultJsonBytes remote) ∧
        validateRemoteResult host remote taskId action targetNode digest = .ok ()) (fun _ => P) := by
  refine Spec.bind ((loadJson_spec hP results target _ _).weaken (fun _ h => h) (fun _ _ h => h) fun _ _ h => h.1) fun remote => ?_
  refine Spec.bind ((lift_spec _).weaken (fun _ h => h) (fun _ _ h => h) fun _ _ h => h.1) fun _ => ?_
  exact Spec.ret fun w h => h

theorem settleResult_spec (hcleared : Cleared start S) (hresult : isConflictOutbox name = false) (hload : host.load raw = some value) :
    Spec (Stage host start S fun done w => Fetched done w ∧ w.outbox.get name = some raw) (settleResult host env name value)
      (fun _ => Stage host start (fun n => S n ∨ n = name) fun _ _ => True) (fun _ => Kept host start) := by
  have hfresh : Fresh start S name := fun hconflict => absurd hconflict (by simp [hresult])
  have htimeless : Timeless (Stage host start S fun done (w : World F R) => Fetched done w ∧ w.outbox.get name = some raw) :=
    stage_timeless fun _ _ _ h => h
  have hevidence : ∀ done (w : World F R) raw', w.outbox.get name = some raw ∧ Evidence host done raw →
      w.outbox.get name = some raw' → Valid host name raw' → isConflictOutbox name = false → Evidence host done raw' := by
    rintro done w raw' ⟨hnow, hev⟩ hraw' - -
    rw [hnow] at hraw'
    cases hraw'
    exact hev
  refine Spec.bind ((caught_spec ((loadRemoteResult_spec _ _ htimeless name _ _ _ _).weaken (fun _ h => h) (fun _ _ h => h.1) fun _ _ h => h)).weaken
    (fun _ h => h) (fun _ _ h => h) fun _ _ h => h.kept) fun loaded => ?_
  have hpending : ∀ {X : List (Mark F) → World F R → Prop} w, Stage host start S (fun done w => X done w ∧ w.outbox.get name = some raw) w →
      Stage host start S (fun _ w => w.outbox.get name = some raw) w := by
    rintro X w ⟨done, htrace, hsafe, hprogress, -, hnow⟩
    exact ⟨done, htrace, hsafe, hprogress, hnow⟩
  cases loaded with
  | error failure =>
    refine Spec.bind ((publishConflictFromInvalidRemote_spec hcleared hresult hload failure).weaken hpending (fun _ _ h => h)
      fun _ _ h => h) fun _ => ?_
    exact quarantineLocalOutboxFile_spec name _ hfresh (fun _ _ _ h => h) hevidence
  | ok remote =>
    have hdigest : ∀ v : Value F, Spec (fun w => Stage host start S (fun done w => Fetched done w ∧ w.outbox.get name = some raw) w ∧
          Reads host w.tree.results name maxResultJsonBytes remote) (resultDigest host v)
        (fun digest w => (Stage host start S (fun done w => Fetched done w ∧ w.outbox.get name = some raw) w ∧
          Reads host w.tree.results name maxResultJsonBytes remote) ∧ host.digest v = some digest) (fun _ => Kept host start) :=
      fun v => (resultDigest_spec v).weaken (fun _ h => h) (fun _ _ h => h) fun _ _ h => h.1.kept
    refine Spec.bind (hdigest remote) fun remoteDigest => ?_
    rintro w ⟨hw, hremoteDigest⟩
    refine (?_ : Spec (fun w => Stage host start S (fun done w => Fetched done w ∧ w.outbox.get name = some raw) w ∧
      Reads host w.tree.results name maxResultJsonBytes remote) _ _ _) w hw
    refine Spec.bind (hdigest value) fun localDigest => ?_
    rintro w ⟨hw, hlocalDigest⟩
    refine (?_ : Spec (fun w => Stage host start S (fun done w => Fetched done w ∧ w.outbox.get name = some raw) w ∧
      Reads host w.tree.results name maxResultJsonBytes remote) _ _ _) w hw
    split
    · next hsame =>
      simp only [Bool.and_eq_true, decide_eq_true_eq] at hsame
      refine (unlink_spec name hfresh (C := fun done w => (Fetched done w ∧ w.outbox.get name = some raw) ∧
        Reads host w.tree.results name maxResultJsonBytes remote) (fun _ _ _ h => h) ?_).weaken (fun _ h => h.1.and h.2) (fun _ _ h => h)
        fun _ _ h => h
      rintro done w raw' ⟨⟨hfetched, hnow⟩, raw'', hraw'', -, hload''⟩ hraw'
      rw [hnow] at hraw'
      cases hraw'
      refine .inl ⟨w.tree, hfetched, ?_⟩
      rw [Equal, if_neg (by simp [hresult])]
      obtain ⟨text', htext', hsha'⟩ := Option.map_eq_some_iff.mp hremoteDigest
      obtain ⟨text, htext, hsha⟩ := Option.map_eq_some_iff.mp hlocalDigest
      refine ⟨raw'', value, remote, text, text', hraw'', hload, hload'', htext, htext', ?_⟩
      by_cases heq : text = text'
      · exact .inl heq
      · exact .inr ⟨heq, by rw [hsha, hsha', hsame.2]⟩
    · intro w hw
      obtain ⟨raw'', -, -, hload''⟩ := hw.2
      refine (?_ : Spec (Stage host start S fun done w => Fetched done w ∧ w.outbox.get name = some raw) _ _ _) w hw.1
      refine Spec.bind ((publishConflictFromCollision_spec hcleared hresult hload (host.load_wf _ _ hload'')).weaken hpending
        (fun _ _ h => h) fun _ _ h => h) fun _ => ?_
      exact quarantineLocalResultConflict_spec name hfresh value remote (fun _ _ _ h => h) hevidence

/-! ### The loops -/

theorem atomicCreateControlFile_spec :
    Spec (Stage host start S fun _ w => w.outbox.get name = some raw) (atomicCreateControlFile env name raw)
      (fun _ => Stage host start S fun _ w => w.outbox.get name = some raw ∧ (routeOutboxTarget name w.tree).get name = some raw)
      (fun _ => Kept host start) := by
  have htimeless : Timeless (Stage host start S fun _ (w : World F R) => w.outbox.get name = some raw) :=
    stage_timeless fun _ _ _ h => h
  refine Spec.bind ((targetLexists_spec htimeless _ name).weaken (fun _ h => h) (fun _ _ h => h.1) fun _ _ h => h.kept) fun taken => ?_
  refine (?_ : Spec _ (if taken = true then _ else _) _ _)
  split
  · exact Spec.raise fun _ h => h.kept
  · refine writing_spec htimeless _ _ ?_ (fun _ h => h.kept) ?_
    · rintro w ⟨done, htrace, hsafe, hprogress, hnow⟩
      refine ⟨done, htrace, hsafe, hprogress, hnow, ?_⟩
      show (routeOutboxTarget name (w.tree.add name raw)).get name = some raw
      simp only [routeOutboxTarget, Tree.add]
      split <;> exact get_put_self _ _ _
    · rintro w ⟨done, htrace, hsafe, -, -⟩
      exact ⟨done, htrace, hsafe⟩

/-- A fetch or a push is neither a removal nor a move. -/
theorem Stage.git {w w' : World F R} {m : Mark F} (h : Stage host start S C w) (hgit : m.isGit = true)
    (htrace : w'.trace = w.trace ++ [m]) (houtbox : w'.outbox = w.outbox) (hquarantine : w'.quarantine = w.quarantine)
    {C' : List (Mark F) → World F R → Prop} (hC : ∀ done, C done w → C' (done ++ [m]) w') : Stage host start S C' w' := by
  obtain ⟨done, hdone, hsafe, hprogress, hc⟩ := h
  refine ⟨done ++ [m], by rw [htrace, hdone, List.append_assoc], ?_, hprogress.snoc m ?_, hC done hc⟩
  · rw [houtbox, hquarantine]
    exact hsafe.quiet hgit
  · rintro n old new durable rfl
    cases hgit

/-- Attempts, one after another, end with the record settled. -/
theorem publishRecord_spec (hfresh : Fresh start S name) (hcleared : isConflictOutbox name = false → Cleared start S) (hload : host.load raw = some value)
    (attempts : Nat) (hsome : attempts ≠ 0) :
    Spec (Stage host start S fun _ w => w.outbox.get name = some raw) (publishRecord host env name value attempts)
      (fun _ => Stage host start (fun n => S n ∨ n = name) fun _ _ => True) (fun _ => Kept host start) := by
  induction attempts with
  | zero => exact absurd rfl hsome
  | succ attempts ih =>
    have htimeless : Timeless (Stage host start S fun _ (w : World F R) => w.outbox.get name = some raw) :=
      stage_timeless fun _ _ _ h => h
    have hfetched : Timeless (Stage host start S fun done (w : World F R) => Fetched done w ∧ w.outbox.get name = some raw) :=
      stage_timeless fun _ _ _ h => h
    refine Spec.bind (syncMailbox_spec (Q := Stage host start S fun done w => Fetched done w ∧ w.outbox.get name = some raw)
      ?_ fun _ _ h => h.kept) fun _ => ?_
    · intro w outside tree h
      exact Stage.git h (m := .synced tree) rfl (by rfl) (by rfl) (by rfl) fun done hnow => ⟨recent_self done _, hnow⟩
    refine Spec.bind ((targetLexists_spec hfetched _ name).weaken (fun _ h => h) (fun _ _ h => h.1) fun _ _ h => h.kept) fun taken => ?_
    cases taken with
    | true =>
      refine (?_ : Spec _ (if isConflictOutbox name = true then _ else _) _ _)
      split
      · next hconflict =>
        refine (settleConflict_spec hfresh hconflict).weaken ?_ (fun _ _ h => h) fun _ _ h => h
        rintro w ⟨done, htrace, hsafe, hprogress, hc, -⟩
        exact ⟨done, htrace, hsafe, hprogress, hc⟩
      · next hresult =>
        have hresult : isConflictOutbox name = false := by simpa using hresult
        exact settleResult_spec (hcleared hresult) hresult hload
    | false =>
      refine (?_ : Spec (Stage host start S fun done w => Fetched done w ∧ w.outbox.get name = some raw) _ _ _)
      refine Spec.bind ((read_spec hfetched (·.outbox) name _ _).weaken (fun _ h => h) (fun _ _ h => h) fun _ _ h => h.1.kept)
        fun read => ?_
      rintro w ⟨⟨done, htrace, hsafe, hprogress, -, hnow⟩, hread, -⟩
      rw [hread] at hnow
      cases hnow
      refine (?_ : Spec (Stage host start S fun _ w => w.outbox.get name = some raw) _ _ _) w ⟨done, htrace, hsafe, hprogress, hread⟩
      refine Spec.bind atomicCreateControlFile_spec fun _ => ?_
      refine Spec.bind ((reading_spec (stage_timeless fun _ _ _ h => h) _).weaken (fun _ h => h) (fun _ _ h => h) fun _ _ h => h.kept)
        fun _ => ?_
      refine Spec.bind (pushMailbox_spec (Q := fun answer => Stage host start S fun done w =>
        ∃ tree, Recent done (.pushed tree answer) ∧ w.outbox.get name = some raw ∧ (routeOutboxTarget name tree).get name = some raw)
        ?_) fun answer => ?_
      · intro w outside answer h
        exact Stage.git h (m := .pushed w.tree answer) rfl (by rfl) (by rfl) (by rfl) fun done hc =>
          ⟨w.tree, recent_self done _, hc.1, hc.2⟩
      cases answer with
      | accepted =>
        refine unlink_spec name hfresh (fun _ _ _ h => h) ?_
        rintro done w raw' ⟨tree, hrecent, hnow, htree⟩ hraw'
        rw [hnow] at hraw'
        cases hraw'
        exact .inr ⟨tree, hrecent, htree⟩
      | unconfirmed => exact Spec.raise fun _ h => h.kept
      | failed => exact Spec.raise fun _ h => h.kept
      | race =>
        refine (?_ : Spec _ (if attempts = 0 then _ else _) _ _)
        split
        · exact Spec.raise fun _ h => h.kept
        · next hmore =>
          refine (ih hmore).pre ?_
          rintro v ⟨done, htrace, hsafe, hprogress, _, _, hnow, -⟩
          exact ⟨done, htrace, hsafe, hprogress, hnow⟩

theorem loadPending_spec {P : World F R → Prop} (hP : Timeless P) (name : String) :
    Spec P (loadPending host env name)
      (fun value w => P w ∧ Reads host w.outbox name maxResultJsonBytes value ∧ validateLocalOutboxResult host value name = .ok ())
      (fun stop w => P w ∧ ∀ failure, stop = .failed failure → ∀ raw, w.outbox.get name = some raw → ¬ Valid host name raw) := by
  refine Spec.bind ((loadJson_spec hP (·.outbox) name _ _).weaken (fun _ h => h) (fun _ _ h => h) ?_) fun value => ?_
  · rintro stop w ⟨hw, hunreadable⟩
    refine ⟨hw, fun failure hstop raw hraw => ?_⟩
    obtain ⟨raw', hraw', hbad⟩ := hunreadable failure hstop
    rw [hraw] at hraw'
    cases hraw'
    rintro ⟨value, hlen, hload, -⟩
    rcases hbad with hlarge | hnone
    · omega
    · rw [hload] at hnone
      cases hnone
  · cases hcheck : validateLocalOutboxResult host value name with
    | ok _ => exact Spec.ret fun w h => ⟨h.1, h.2, hcheck⟩
    | error failure =>
      refine Spec.raise ?_
      rintro w ⟨hw, raw, hraw, -, hload⟩
      refine ⟨hw, fun _ _ raw' hraw' => ?_⟩
      rw [hraw] at hraw'
      cases hraw'
      rintro ⟨value', -, hload', hvalid⟩
      rw [hload] at hload'
      cases hload'
      rw [hcheck] at hvalid
      cases hvalid

theorem checkTexts_ok {value : Value F} {checks : List (String × (String → Bool))} (h : checkTexts value checks = .ok ())
    {field : String} {valid : String → Bool} (hmem : (field, valid) ∈ checks) : (text? value field).any valid = true := by
  induction checks with
  | nil => cases hmem
  | cons c rest ih =>
    obtain ⟨name, ok⟩ := c
    simp only [checkTexts, bind_ok_iff, check_ok] at h
    obtain ⟨-, hfirst, hrest⟩ := h
    rcases List.mem_cons.mp hmem with heq | hmem
    · cases heq
      exact hfirst
    · exact ih hrest hmem

theorem shape_text {host : Host F} {value : Value F} (h : validateResultShape host value = .ok ()) {field : String}
    {valid : String → Bool} (hmem : (field, valid) ∈ textChecks) : (text? value field).any valid = true := by
  simp only [validateResultShape, bind_ok_iff] at h
  obtain ⟨_, -, _, -, _, htexts, -⟩ := h
  exact checkTexts_ok htexts hmem

/-- A result is of a task: conflict records come before it. -/
theorem conflict_lt {host : Host F} {value : Value F} {name c : String} (hvalid : validateLocalOutboxResult host value name = .ok ())
    (hresult : isConflictOutbox name = false) (hconflict : isConflictOutbox c = true) : c < name := by
  have hbound : validateResultShape host value = .ok () ∧ text? value "task_id" = some (stem name) := by
    unfold validateLocalOutboxResult at hvalid
    rw [if_neg (by simp [hresult])] at hvalid
    cases hshape : validateResultShape host value with
    | error failure =>
      rw [hshape] at hvalid
      cases hvalid
    | ok _ =>
      rw [hshape] at hvalid
      exact ⟨rfl, by simpa [bind_ok_iff] using hvalid⟩
  obtain ⟨hshape, hid⟩ := hbound
  have htask := shape_text hshape (show ("task_id", isTaskId) ∈ textChecks by simp [textChecks])
  rw [hid, Option.any_some] at htask
  have hname : ∃ rest, name.toList = 'L' :: rest := by
    simp only [isTaskId, stem, String.toList_ofList, Bool.and_eq_true, decide_eq_true_eq] at htask
    have hhead := htask.1.1.1
    cases hchars : name.toList with
    | nil => simp [hchars] at hhead
    | cons x rest =>
      rw [hchars, List.take_take] at hhead
      generalize min 2 ((x :: rest).length - 5) = k at hhead
      cases k with
      | zero => cases hhead
      | succ k => exact ⟨rest, by rw [(List.cons.inj hhead).1]⟩
  obtain ⟨rest, hname⟩ := hname
  have hc : ∃ rest, c.toList = 'C' :: rest := by
    simp only [isConflictOutbox, decide_eq_true_eq] at hconflict
    refine ⟨"ONFLICT-".toList ++ c.toList.drop 9, ?_⟩
    have hsplit := List.take_append_drop 9 c.toList
    rw [hconflict] at hsplit
    exact hsplit.symm
  obtain ⟨rest', hc⟩ := hc
  rw [String.lt_iff_toList_lt, hname, hc]
  exact List.Lex.rel (by decide)

/-- The records in their order: each is settled in its turn. -/
theorem publishEach_spec (names : List String) (horder : names.Pairwise (· < ·))
    (hnames : ∀ name ∈ names, isJson name = true ∧ start.outbox.has name = true ∧ ¬ S name)
    (hrest : ∀ name, isConflictOutbox name = true → isJson name = true → start.outbox.has name = true → S name ∨ name ∈ names) :
    Spec (Stage host start S fun _ _ => True) (publishEach host env names) (fun _ => Kept host start) (fun _ => Kept host start) := by
  induction names generalizing S with
  | nil => exact Spec.ret fun _ h => h.kept
  | cons name rest ih =>
    obtain ⟨hfirst, horder⟩ := List.pairwise_cons.mp horder
    have hfresh : Fresh start S name := fun _ => hnames name List.mem_cons_self
    have htimeless : Timeless (Stage host start S fun _ (_ : World F R) => True) := stage_timeless fun _ _ _ h => h
    refine Spec.bind ((caught_spec (loadPending_spec htimeless name)).weaken (fun _ h => h) (fun _ _ h => h) fun _ _ h => h.1.kept)
      fun loaded => ?_
    have hnext : Spec (Stage host start (fun n => S n ∨ n = name) fun _ _ => True) (publishEach host env rest)
        (fun _ => Kept host start) (fun _ => Kept host start) := by
      refine ih horder ?_ ?_
      · intro n hn
        obtain ⟨hjson, hhas, hnot⟩ := hnames n (List.mem_cons_of_mem _ hn)
        refine ⟨hjson, hhas, ?_⟩
        rintro (hs | rfl)
        · exact hnot hs
        · exact lt_irrefl n (hfirst n hn)
      · intro c hconflict hjson hhas
        rcases hrest c hconflict hjson hhas with hs | hmem
        · exact .inl (.inl hs)
        · rcases List.mem_cons.mp hmem with rfl | hmem
          · exact .inl (.inr rfl)
          · exact .inr hmem
    cases loaded with
    | error failure =>
      refine Spec.bind ((quarantineLocalOutboxFile_spec name _ hfresh
        (C := fun _ w => ∀ raw, w.outbox.get name = some raw → ¬ Valid host name raw) (fun _ _ _ h => h) ?_).pre ?_) fun _ => hnext
      · intro done w raw hinvalid hraw hvalid _
        exact absurd hvalid (hinvalid raw hraw)
      · rintro w ⟨⟨done, htrace, hsafe, hprogress, -⟩, hinvalid⟩
        exact ⟨done, htrace, hsafe, hprogress, hinvalid failure rfl⟩
    | ok value =>
      refine Spec.bind (Q := fun _ => Stage host start (fun n => S n ∨ n = name) fun _ _ => True) ?_ fun _ => hnext
      rintro w ⟨⟨done, htrace, hsafe, hprogress, -⟩, ⟨raw, hraw, -, hload⟩, hvalid⟩
      refine publishRecord_spec hfresh ?_ hload mailboxPushAttempts (by decide) w ⟨done, htrace, hsafe, hprogress, hraw⟩
      intro hresult c hconflict hjson hhas
      rcases hrest c hconflict hjson hhas with hs | hmem
      · exact hs
      · have hbefore := conflict_lt hvalid hresult hconflict
        rcases List.mem_cons.mp hmem with rfl | hmem
        · exact absurd hbefore (lt_irrefl c)
        · exact absurd hbefore (hfirst c hmem).asymm

/-- No record that is pending is lost. -/
theorem publishOutbox_lossless (host : Host F) (env : Env F R) (start : World F R) :
    Kept host start ((publishOutbox host env).from start).2 := by
  have hspec : Spec (fun w => Stage host start (fun _ => False) (fun _ _ => True) w ∧ w.outbox = start.outbox) (publishOutbox host env)
      (fun _ => Kept host start) (fun _ => Kept host start) := by
    refine Spec.bind ((reading_spec (fun w n h => ⟨stage_timeless (fun _ _ _ h => h) w n h.1, h.2⟩) _).weaken (fun _ h => h)
      (fun _ _ h => h) fun _ _ h => h.1.kept) fun _ => ?_
    refine Spec.bind (Q := fun w' w => (Stage host start (fun _ => False) (fun _ _ => True) w ∧ w.outbox = start.outbox) ∧ w' = w)
      (Spec.read fun _ h => ⟨h, rfl⟩) fun w' => ?_
    rintro w ⟨⟨hw, houtbox⟩, rfl⟩
    refine publishEach_spec (S := fun _ => False) _ ?_ ?_ ?_ w' hw
    · exact (names_sorted w'.outbox).filter _
    · intro name hname
      obtain ⟨hmem, hjson⟩ := List.mem_filter.mp hname
      exact ⟨hjson, houtbox ▸ mem_names.mp hmem, not_false⟩
    · intro c _ hjson hhas
      exact .inr (List.mem_filter.mpr ⟨mem_names.mpr (houtbox ▸ hhas), hjson⟩)
  have hstart : Safe host start.outbox start.quarantine start.outbox start.quarantine [] :=
    ⟨by simp, by simp, fun _ _ h => h, fun _ _ h _ => .inl h, by simp⟩
  have hrun := hspec start ⟨⟨[], by simp, hstart, ⟨fun _ h => h.elim, by simp⟩, trivial⟩, rfl⟩
  cases h : (publishOutbox host env).from start with
  | mk r t =>
    rw [h] at hrun
    cases r with
    | ok _ => exact hrun
    | error _ => exact hrun

end

end LocalHand.Mailbox
