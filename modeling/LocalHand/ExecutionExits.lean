/-
What an `inspect` leaves of the stages, and what it observed where it answers with an exit:
one lemma for each part of it, the reader's first.

The manager shows one proof of a stage that has exited; a stage may be shown as unknown
or running again, and any call may raise.
-/
import LocalHand.ExecutionStages

namespace LocalHand.ExecutionCore

def Tick.look (tick : Tick) : Stage → Look
  | .bootstrap => tick.bootstrap
  | .helper => tick.helper
  | .resultReader => tick.resultReader

def Handle.part (h : Handle) : Stage → Option Part
  | .bootstrap => some h.bootstrap
  | .helper => h.helper
  | .resultReader => h.resultReader

/-- Every exit that is shown of a stage is the same proof. -/
def Tick.Steady (exit : Stage → Proof) (tick : Tick) : Prop :=
  ∀ stage proof, (tick.look stage).manager = .ok proof ∨ (tick.look stage).quota = .ok proof → proof.state = .exited →
    proof = exit stage

/-- The `inspect` that left `h'` observed an exit of the stage. -/
def ObservedExit (tick : Tick) (h' : Handle) (stage : Stage) : Prop :=
  ∃ part part', h'.part stage = some part' ∧ part.Seen part' ∧ (observe (tick.look stage) part).1.blocked = true

variable {exit : Stage → Proof} {tick : Tick} {h h' : Handle} {part : Part} {first helperProof : Proof}

/-! ## The reader -/

theorem readResult_seen (tick : Tick) (helperProof : Proof) (hpart : h.resultReader = some part) :
    ∃ part', part.Seen part' ∧ (readResult tick h helperProof part).2 = { h with resultReader := some part' } := by
  have hobserved := observe_seen tick.resultReader part
  have hfinished := hobserved.trans (finishReaderTransport_seen tick.resultReader _)
  unfold readResult
  split
  · refine ⟨part, .refl part, ?_⟩
    rw [← hpart]
  · dsimp only
    split
    · exact ⟨_, hobserved, rfl⟩
    · split
      · exact ⟨_, hobserved, rfl⟩
      · split
        · exact ⟨_, hfinished, rfl⟩
        · split
          · exact ⟨_, hfinished, rfl⟩
          · split <;> exact ⟨_, hfinished, rfl⟩

/-- An exit answered beside a delivered reader is the reader's too. -/
theorem readResult_exits (hrefused : part.cancelBeforeLaunch = true → part.deliveryAttempted = false)
    (hdelivered : part.deliveryAttempted = true) (hexits : Exits (readResult tick h helperProof part).1) :
    (observe tick.resultReader part).1.blocked = true := by
  have huncancelled : part.cancelBeforeLaunch = false := by
    cases hcancel : part.cancelBeforeLaunch with
    | false => rfl
    | true =>
      rw [hrefused hcancel] at hdelivered
      cases hdelivered
  unfold readResult at hexits
  simp only [huncancelled, Bool.false_eq_true, if_false] at hexits
  by_cases hexited : (observe tick.resultReader part).1.stageExited = true
  · exact exited_blocked hexited
  · simp only [hexited, Bool.not_false, Bool.and_true, if_true] at hexits
    split at hexits
    · obtain ⟨proof, hproof, -⟩ := hexits
      cases hproof
    · obtain ⟨proof, hproof, hblocked⟩ := hexits
      cases hproof
      exact hblocked

/-- A part whose launch the guard refused was not delivered. -/
def Sincere (part : Part) : Prop := part.cancelBeforeLaunch = true → part.deliveryAttempted = false

theorem Sincere.seen {part' : Part} (h : Sincere part) (hseen : part.Seen part') : Sincere part' := by
  obtain ⟨_, _, rfl⟩ := hseen
  exact h

theorem Blank.sincere {stage : Stage} (h : Blank stage part) : Sincere part := fun _ => h.undelivered

theorem deliver_cancel (guard : Guard) (cancelled : Bool) (part : Part) :
    (deliver guard cancelled part).cancelBeforeLaunch = part.cancelBeforeLaunch := by
  unfold deliver
  split <;> rfl

theorem part_register (h : Handle) (stage : Stage) (part : Part) : (h.register stage part).part stage = some part := by
  cases stage <;> rfl

theorem part_note (h : Handle) (stage : Stage) (r : Refusal) : (h.note r).part stage = h.part stage := by
  cases stage <;> rfl

/-- The part a delivery leaves in the handle, whether it is answered or raises. -/
theorem deliverStage_sincere (d : Delivery) (stage : Stage) (hold : ∀ part ∈ h.part stage, Sincere part) :
    ∀ part ∈ (deliverStage d h stage).2.part stage, Sincere part := by
  have hprepare := prepare_blank d h.fullCapture stage
  have hone : ∀ {part part' : Part}, Sincere part → part' ∈ some part → Sincere part' := fun hs heq => by
    cases heq
    exact hs
  unfold deliverStage
  cases hp : prepare d h.fullCapture stage with
  | error e =>
    rw [hp] at hprepare
    obtain ⟨registered, e⟩ := e
    cases registered with
    | none =>
      simp only [part_note]
      exact hold
    | some blank =>
      simp only [part_note, part_register]
      exact fun _ => hone hprepare.1.sincere
  | ok blank =>
    rw [hp] at hprepare
    obtain ⟨hblank, -⟩ := hprepare
    have hdelivered : Sincere (deliver d.guard h.cancelled blank) := fun hcancel => by
      rw [deliver_cancel, hblank.uncancelled] at hcancel
      cases hcancel
    dsimp only
    cases d.guard.outcome with
    | error e =>
      dsimp only
      split
      · simp only [part_register]
        exact fun _ => hone hdelivered
      · simp only [part_note, part_register]
        exact fun _ => hone hdelivered
    | ok accepted =>
      cases accepted with
      | true =>
        simp only [part_register]
        exact fun _ => hone hdelivered
      | false =>
        dsimp only
        split
        · simp only [part_register]
          exact fun _ => hone hdelivered
        · rename_i hundelivered
          simp only [part_register]
          exact fun _ => hone fun _ => by simpa using hundelivered

/-- The reader's part and what is kept of its delivery are consistent. -/
structure ReaderKept (h : Handle) : Prop where
  unread : h.readerAttempted = false → h.resultReader = none
  sincere : ∀ part ∈ h.resultReader, Sincere part

/-- What the reader's part of an `inspect` leaves and answers. -/
structure ReadPost (tick : Tick) (h : Handle) (helperProof : Proof) (run : Except Exc Proof × Handle) : Prop where
  only : ∃ reader attempted error refusals, run.2 = { h with resultReader := reader, readerAttempted := attempted, readerError := error, refusals }
  attempted : h.readerAttempted = true → run.2.readerAttempted = true ∧ Option.Rel Part.Seen h.resultReader run.2.resultReader
  started : run.2.readerAttempted = true → h.readerAttempted = true ∨ helperProof.stageExited = true
  kept : ReaderKept run.2
  ended : Exits run.1 → run.2.readerAttempted = true ∨ h.cancelled = true ∨ helperProof.blocked = true ∧ helperProof.stageExited = false
  shown : Exits run.1 → helperProof.stageExited = true → ∀ part' ∈ run.2.resultReader, part'.deliveryAttempted = true →
    ∃ part, part.Seen part' ∧ (observe tick.resultReader part).1.blocked = true

/-- A handle that is left as it is. -/
theorem ReadPost.same {answer : Except Exc Proof} (hkept : ReaderKept h) (hover : h.readerAttempted = true ∨ h.cancelled = true)
    (hundelivered : Exits answer → ∀ part ∈ h.resultReader, part.deliveryAttempted = false) :
    ReadPost tick h helperProof (answer, h) where
  only := ⟨_, _, _, _, rfl⟩
  attempted hattempted := ⟨hattempted, seen_option _⟩
  started := .inl
  kept := hkept
  ended _ := hover.imp_right .inl
  shown hexits _ part' hpart' hdelivered := by
    rw [hundelivered hexits part' hpart'] at hdelivered
    cases hdelivered

theorem readResult_post (hkept : ReaderKept h) (hattempted : h.readerAttempted = true) (hpart : h.resultReader = some part) :
    ReadPost tick h helperProof (readResult tick h helperProof part) := by
  obtain ⟨part', hseen, hleft⟩ := readResult_seen tick helperProof hpart
  have hsincere := hkept.sincere part hpart
  refine ⟨⟨some part', h.readerAttempted, h.readerError, h.refusals, hleft⟩, fun _ => ?_, fun _ => .inl hattempted, ⟨?_, ?_⟩,
    fun _ => .inl ?_, fun hexits _ => ?_⟩
  · rw [hleft, hpart]
    exact ⟨hattempted, .some hseen⟩
  · rw [hleft]
    intro hunattempted
    rw [hattempted] at hunattempted
    cases hunattempted
  · rw [hleft]
    intro found hfound
    cases hfound
    exact hsincere.seen hseen
  · rw [hleft]
    exact hattempted
  · rw [hleft]
    intro found hfound hdelivered
    cases hfound
    exact ⟨part, hseen, readResult_exits hsincere (hseen.deliveryAttempted ▸ hdelivered) hexits⟩

/-- The handle while its reader is delivered. -/
def Delivering (h k : Handle) : Prop :=
  ∃ reader error refusals, k = { h with resultReader := reader, readerAttempted := true, readerError := error, refusals }

/-- What holds from where the reader is delivered holds from before it. -/
theorem ReadPost.delivered {k : Handle} {run : Except Exc Proof × Handle} (h' : ReadPost tick k helperProof run)
    (honly : Delivering h k)
    (hfirst : h.readerAttempted = false) (hexited : helperProof.stageExited = true) : ReadPost tick h helperProof run := by
  obtain ⟨reader, error, refusals, rfl⟩ := honly
  obtain ⟨reader', attempted', error', refusals', hleft⟩ := h'.only
  refine ⟨⟨reader', attempted', error', refusals', hleft⟩, fun hattempted => ?_, fun _ => .inr hexited, h'.kept, h'.ended, h'.shown⟩
  rw [hfirst] at hattempted
  cases hattempted

theorem reader_only {d : Delivery} {run : Except Exc Part × Handle} (hrun : deliverStage d { h with readerAttempted := true } .resultReader = run) :
    Delivering h run.2 := by
  have hd := deliverStage_delivered d { h with readerAttempted := true } .resultReader
  rw [hrun] at hd
  cases hd with
  | accepted part => exact ⟨_, _, _, rfl⟩
  | attempted part e => exact ⟨_, _, _, rfl⟩
  | refused r => exact ⟨_, _, _, rfl⟩
  | stranded r part => exact ⟨_, _, _, rfl⟩

theorem Delivering.attempted {k : Handle} (h' : Delivering h k) : k.readerAttempted = true := by
  obtain ⟨reader, error, refusals, rfl⟩ := h'
  rfl

theorem Delivering.noted {k : Handle} (h' : Delivering h k) (error : Option String) : Delivering h { k with readerError := error } := by
  obtain ⟨reader, old, refusals, rfl⟩ := h'
  exact ⟨reader, error, refusals, rfl⟩

theorem Delivering.kept {k : Handle} (h' : Delivering h k) (hsincere : ∀ part ∈ k.resultReader, Sincere part) : ReaderKept k where
  unread hunattempted := by
    rw [h'.attempted] at hunattempted
    cases hunattempted
  sincere := hsincere

theorem error_not_exits {e : Exc} : ¬Exits (.error e) := by
  intro hexits
  obtain ⟨proof, hproof, -⟩ := hexits
  cases hproof

theorem undelivered_any {found : Option Part} (h : ¬found.any Part.deliveryAttempted = true) :
    ∀ part ∈ found, part.deliveryAttempted = false := by
  intro part hpart
  cases hpart
  simpa using h

theorem inspectResultReader_post (tick : Tick) (helperProof : Proof) (hkept : ReaderKept h) :
    ReadPost tick h helperProof (inspectResultReader tick h helperProof) := by
  unfold inspectResultReader
  cases hexited : helperProof.stageExited with
  | false =>
    simp only [Bool.not_false, if_true]
    have hrel := seen_observed tick.resultReader h.resultReader
    refine ⟨⟨_, _, _, _, rfl⟩, fun hattempted => ⟨hattempted, hrel⟩, .inl, ⟨fun hunattempted => ?_, fun part' hpart' => ?_⟩,
      fun hexits => ?_, fun _ hcontra => absurd hcontra (by simp [hexited])⟩
    · show h.resultReader.map _ = none
      rw [hkept.unread hunattempted]
      rfl
    · have hfound : h.resultReader.map (fun part => (observe tick.resultReader part).2) = some part' := hpart'
      obtain ⟨part, hpart, hseen⟩ := rel_some_right (hfound ▸ hrel)
      exact (hkept.sincere part hpart).seen hseen
    · obtain ⟨proof, hproof, hblocked⟩ := hexits
      cases hproof
      exact .inr (.inr ⟨hblocked, hexited⟩)
  | true =>
    simp only [Bool.not_true, Bool.false_eq_true, if_false]
    split
    · rename_i part hreader
      have hattempted : h.readerAttempted = true := by
        cases hfirst : h.readerAttempted with
        | true => rfl
        | false =>
          rw [hkept.unread hfirst] at hreader
          cases hreader
      split
      · rename_i hrefused
        refine .same hkept (.inl hattempted) fun _ found hfound => ?_
        rw [hreader] at hfound
        cases hfound
        simp only [Bool.and_eq_true, Bool.not_eq_true'] at hrefused
        exact hrefused.1
      · exact readResult_post hkept hattempted hreader
    · rename_i hreader
      have hnone : ∀ answer, Exits answer → ∀ part ∈ h.resultReader, part.deliveryAttempted = false := by simp [hreader]
      split
      · rename_i hcancelled
        exact .same hkept (.inr hcancelled) (hnone _)
      · split
        · rename_i hattempted
          exact .same hkept (.inl hattempted) (hnone _)
        · rename_i hfirst
          have hfirst : h.readerAttempted = false := by simpa using hfirst
          have hsincere := deliverStage_sincere (h := { h with readerAttempted := true }) tick.readerDelivery .resultReader
            (by simp [Handle.part, hreader])
          have hd := deliverStage_delivered tick.readerDelivery { h with readerAttempted := true } .resultReader
          have honly := reader_only (h := h) (d := tick.readerDelivery) rfl
          split
          · rename_i part k hk
            rw [hk] at hd hsincere honly
            have hpart : k.resultReader = some part := by
              cases hd
              rfl
            exact (readResult_post (honly.kept hsincere) honly.attempted hpart).delivered honly hfirst hexited
          · rename_i code k hk
            rw [hk] at hsincere honly
            have hnoted : Delivering h { k with readerError := some code } := honly.noted (some code)
            split
            · exact (ReadPost.same (hnoted.kept hsincere) (.inl hnoted.attempted) fun hexits => absurd hexits error_not_exits).delivered
                hnoted hfirst hexited
            · rename_i hundelivered
              exact (ReadPost.same (hnoted.kept hsincere) (.inl hnoted.attempted) fun _ => undelivered_any hundelivered).delivered
                hnoted hfirst hexited
          · rename_i e k hnot hk
            rw [hk] at hsincere honly
            exact (ReadPost.same (honly.kept hsincere) (.inl honly.attempted) fun hexits => absurd hexits error_not_exits).delivered
              honly hfirst hexited

/-- Where the helper is not through, its own proof is answered. -/
theorem inspectResultReader_unexited (hunexited : helperProof.stageExited = false)
    (hexits : Exits (inspectResultReader tick h helperProof).1) : helperProof.blocked = true := by
  unfold inspectResultReader at hexits
  simp only [hunexited, Bool.not_false, if_true] at hexits
  obtain ⟨proof, hproof, hblocked⟩ := hexits
  cases hproof
  exact hblocked

/-! ## The helper -/

/-- An exit observed of a part that was not refused is the one its stage shows. -/
theorem observe_steady (steady : tick.Steady exit) (stage : Stage) (hne : stage ≠ .resultReader) (hstage : part.stage = stage)
    (hreader : part.reader = false) (huncancelled : part.cancelBeforeLaunch = false)
    (hblocked : (observe (tick.look stage) part).1.blocked = true) : (observe (tick.look stage) part).1 = exit stage := by
  rcases observe_plain (tick.look stage) (hstage ▸ hne) hreader with ⟨e, -, ho⟩ | ⟨proof, hi, ho⟩
  · rw [ho] at hblocked
    cases hblocked
  · rw [ho] at hblocked ⊢
    have hexited : proof.state = .exited := by
      simp only [Proof.blocked, Bool.and_eq_true, decide_eq_true_eq] at hblocked
      exact hblocked.1.1
    refine steady stage proof ?_ hexited
    have hunknown : ∀ reason, Except.ok (unknown reason) ≠ (Except.ok proof : Except Exc Proof) := by
      intro reason heq
      cases heq
      cases hexited
    unfold inspectUnit at hi
    simp only [huncancelled, Bool.false_eq_true, if_false] at hi
    split at hi
    · cases hi
    · split at hi
      · split at hi
        · exact .inr hi
        · cases hi
      · split at hi
        · exact absurd hi (hunknown _)
        · split at hi
          · exact absurd hi (hunknown _)
          · exact .inl hi

/-- What an `inspect` past the bootstrap leaves and answers, from the helper's part on. -/
structure HelperPost (exit : Stage → Proof) (tick : Tick) (h : Handle) (part : Part) (run : Except Exc Proof × Handle) : Prop where
  left : ∃ part' reader attempted error refusals, part.Seen part' ∧
    run.2 = { h with helper := some part', resultReader := reader, readerAttempted := attempted, readerError := error, refusals }
  attempted : h.readerAttempted = true → run.2.readerAttempted = true ∧ Option.Rel Part.Seen h.resultReader run.2.resultReader
  started : run.2.readerAttempted = true → h.three = true ∧ part.cancelBeforeLaunch = false ∧ (exit .helper).stageExited = true
  kept : ReaderKept run.2
  ended : Exits run.1 → run.2.readerAttempted = true ∨ h.cancelled = true ∨ part.cancelBeforeLaunch = true ∨ h.three = false ∨
    (exit .helper).stageExited = false
  shownHelper : Exits run.1 → part.deliveryAttempted = true → (observe tick.helper part).1.blocked = true
  shownReader : Exits run.1 → ∀ part' ∈ run.2.resultReader, part'.deliveryAttempted = true →
    ∃ part, part.Seen part' ∧ (observe tick.resultReader part).1.blocked = true

theorem inspectHelper_post (first : Proof) (steady : tick.Steady exit) (hstage : part.stage = .helper) (hreader : part.reader = false)
    (hsincere : Sincere part) (hkept : ReaderKept h)
    (hpast : h.readerAttempted = true → h.three = true ∧ part.cancelBeforeLaunch = false ∧ (exit .helper).stageExited = true) :
    HelperPost exit tick h part (inspectHelper tick h first part) := by
  have hseen := observe_seen tick.helper part
  have hcancel : (observe tick.helper part).2.cancelBeforeLaunch = part.cancelBeforeLaunch := by
    obtain ⟨_, _, heq⟩ := hseen
    rw [heq]
  have hunattempted : ¬h.readerAttempted = true → ∀ part' ∈ h.resultReader, part'.deliveryAttempted = true →
      ∃ part, part.Seen part' ∧ (observe tick.resultReader part).1.blocked = true := by
    intro hnot part' hpart'
    rw [hkept.unread (by simpa using hnot)] at hpart'
    cases hpart'
  unfold inspectHelper
  dsimp only
  rw [hcancel]
  split
  · rename_i hcancelled
    refine ⟨⟨_, _, _, _, _, hseen, rfl⟩, fun hattempted => ⟨hattempted, seen_option _⟩, hpast, ⟨hkept.unread, hkept.sincere⟩,
      fun _ => .inr (.inr (.inl hcancelled)), fun _ hdelivered => ?_, fun _ => hunattempted fun hattempted => ?_⟩
    · rw [hsincere hcancelled] at hdelivered
      cases hdelivered
    · rw [(hpast hattempted).2.1] at hcancelled
      cases hcancelled
  · rename_i huncancelled
    have huncancelled : part.cancelBeforeLaunch = false := by simpa using huncancelled
    split
    · rename_i hthree
      have hexit : (observe tick.helper part).1.blocked = true → (observe tick.helper part).1 = exit .helper :=
        observe_steady steady .helper (by decide) hstage hreader huncancelled
      have hpost := inspectResultReader_post tick (observe tick.helper part).1
        (h := { h with helper := some (observe tick.helper part).2 }) ⟨hkept.unread, hkept.sincere⟩
      obtain ⟨reader, attempted, error, refusals, hleft⟩ := hpost.only
      have hstarted : (inspectResultReader tick { h with helper := some (observe tick.helper part).2 }
          (observe tick.helper part).1).2.readerAttempted = true →
          h.three = true ∧ part.cancelBeforeLaunch = false ∧ (exit .helper).stageExited = true := by
        intro hattempted
        rcases hpost.started hattempted with hold | hexited
        · exact hpast hold
        · exact ⟨hthree, huncancelled, hexit (exited_blocked hexited) ▸ hexited⟩
      refine ⟨⟨_, reader, attempted, error, refusals, hseen, hleft⟩, hpost.attempted, hstarted, hpost.kept, fun hexits => ?_,
        fun hexits _ => ?_, fun hexits => ?_⟩
      · rcases hpost.ended hexits with hattempted | hcancelled | ⟨hblocked, hunexited⟩
        · exact .inl hattempted
        · exact .inr (.inl hcancelled)
        · exact .inr (.inr (.inr (.inr (hexit hblocked ▸ hunexited))))
      · cases hexited : (observe tick.helper part).1.stageExited with
        | true => exact exited_blocked hexited
        | false => exact inspectResultReader_unexited hexited hexits
      · cases hexited : (observe tick.helper part).1.stageExited with
        | true => exact hpost.shown hexits hexited
        | false =>
          intro part' hpart'
          cases hattempted : (inspectResultReader tick { h with helper := some (observe tick.helper part).2 }
              (observe tick.helper part).1).2.readerAttempted with
          | true =>
            have hpastExit : (exit .helper).stageExited = true := (hstarted hattempted).2.2
            rw [← hexit (inspectResultReader_unexited hexited hexits), hexited] at hpastExit
            cases hpastExit
          | false =>
            rw [hpost.kept.unread hattempted] at hpart'
            cases hpart'
    · rename_i hthree
      have hthree : h.three = false := by simpa using hthree
      refine ⟨⟨_, _, _, _, _, hseen, rfl⟩, fun hattempted => ⟨hattempted, seen_option _⟩, hpast, ⟨hkept.unread, hkept.sincere⟩,
        fun _ => .inr (.inr (.inr (.inl hthree))), fun hexits _ => ?_, fun _ => hunattempted fun hattempted => ?_⟩
      · obtain ⟨proof, hproof, hblocked⟩ := hexits
        cases hproof
        exact hblocked
      · rw [(hpast hattempted).1] at hthree
        cases hthree

/-! ## The order of the stages -/

/-- What was attempted in a run, and what had been observed before it. -/
structure Ordered (exit : Stage → Proof) (h : Handle) : Prop where
  bootstrap : h.bootstrap.stage = .bootstrap ∧ h.bootstrap.reader = false
  helper : ∀ part ∈ h.helper, part.stage = .helper ∧ part.reader = false ∧ Sincere part
  reader : ReaderKept h
  untried : h.helperAttempted = false → h.helper = none ∧ h.transitionError = none
  opened : h.helperAttempted = true → h.bootstrap.cancelBeforeLaunch = false ∧ (exit .bootstrap).result.bootstrapPrepared = true
  past : h.readerAttempted = true → h.helperAttempted = true ∧ h.three = true ∧ (exit .helper).stageExited = true ∧
    ∃ part, h.helper = some part ∧ part.cancelBeforeLaunch = false ∧ (h.transitionError.isSome = true → part.deliveryAttempted = true)

/-- The bootstrap never opens the way to the helper. -/
def Shut (exit : Stage → Proof) (h : Handle) : Prop :=
  h.bootstrap.cancelBeforeLaunch = true ∨ (exit .bootstrap).result.bootstrapPrepared = false

/-- No helper is delivered any more. -/
def HelperDone (exit : Stage → Proof) (h : Handle) : Prop := h.helperAttempted = true ∨ h.cancelled = true ∨ Shut exit h

/-- The helper that was attempted never opens the way to the reader. -/
def Short (exit : Stage → Proof) (h : Handle) : Prop :=
  h.three = false ∨ (exit .helper).stageExited = false ∨
    ∀ part ∈ h.helper, part.cancelBeforeLaunch = true ∨ (part.deliveryAttempted = false ∧ h.transitionError.isSome = true)

/-- No reader is delivered any more. -/
def ReaderDone (exit : Stage → Proof) (h : Handle) : Prop :=
  h.readerAttempted = true ∨ h.cancelled = true ∨ Shut exit h ∨ h.helperAttempted = true ∧ Short exit h

/-- What an `inspect` past the bootstrap leaves and answers. -/
structure AfterPost (exit : Stage → Proof) (tick : Tick) (h : Handle) (run : Except Exc Proof × Handle) : Prop where
  left : run.2.three = h.three ∧ run.2.cancelled = h.cancelled ∧ run.2.bootstrap = h.bootstrap
  helperKept : h.helperAttempted = true → run.2.helperAttempted = true ∧ Option.Rel Part.Seen h.helper run.2.helper ∧
    run.2.transitionError = h.transitionError
  readerKept : h.readerAttempted = true → run.2.readerAttempted = true ∧ Option.Rel Part.Seen h.resultReader run.2.resultReader
  ordered : Ordered exit run.2
  ended : Exits run.1 → HelperDone exit run.2 ∧ ReaderDone exit run.2
  shownHelper : Exits run.1 → ∀ part' ∈ run.2.helper, part'.deliveryAttempted = true →
    ∃ part, part.Seen part' ∧ (observe tick.helper part).1.blocked = true
  shownReader : Exits run.1 → ∀ part' ∈ run.2.resultReader, part'.deliveryAttempted = true →
    ∃ part, part.Seen part' ∧ (observe tick.resultReader part).1.blocked = true

/-- A handle that is left as it is, with nothing delivered past the bootstrap. -/
theorem AfterPost.same {answer : Except Exc Proof} (ho : Ordered exit h) (hover : Exits answer → HelperDone exit h ∧ ReaderDone exit h)
    (hhelper : Exits answer → ∀ part ∈ h.helper, part.deliveryAttempted = false)
    (hreader : Exits answer → h.resultReader = none) : AfterPost exit tick h (answer, h) where
  left := ⟨rfl, rfl, rfl⟩
  helperKept hattempted := ⟨hattempted, seen_option _, rfl⟩
  readerKept hattempted := ⟨hattempted, seen_option _⟩
  ordered := ho
  ended := hover
  shownHelper hexits part' hpart' hdelivered := by
    rw [hhelper hexits part' hpart'] at hdelivered
    cases hdelivered
  shownReader hexits part' hpart' := by
    have hnone : h.resultReader = none := hreader hexits
    rw [show (answer, h).2.resultReader = none from hnone] at hpart'
    cases hpart'

/-- The helper is there, and observed. -/
theorem inspectHelper_after (steady : tick.Steady exit) (ho : Ordered exit h) (hattempted : h.helperAttempted = true)
    (hpart : h.helper = some part) (hdelivered : h.transitionError.isSome = true → part.deliveryAttempted = true) :
    AfterPost exit tick h (inspectHelper tick h first part) := by
  obtain ⟨hstage, hreader, hsincere⟩ := ho.helper part hpart
  have hpost := inspectHelper_post first steady hstage hreader hsincere ho.reader fun hread => by
    obtain ⟨-, hthree, hexited, found, hfound, huncancelled, -⟩ := ho.past hread
    rw [hpart] at hfound
    cases hfound
    exact ⟨hthree, huncancelled, hexited⟩
  obtain ⟨part', reader, attempted, error, refusals, hseen, hleft⟩ := hpost.left
  obtain ⟨pipe, closed, hsame⟩ := id hseen
  have hcancel : part'.cancelBeforeLaunch = part.cancelBeforeLaunch := by rw [hsame]
  generalize inspectHelper tick h first part = run at hpost hleft ⊢
  have hread : run.2.readerAttempted = attempted := by rw [hleft]
  refine ⟨by rw [hleft]; exact ⟨rfl, rfl, rfl⟩, fun _ => ?_, hpost.attempted, ?_, fun hexits => ⟨?_, ?_⟩, fun hexits => ?_,
    hpost.shownReader⟩
  · rw [hleft, hpart]
    exact ⟨hattempted, .some hseen, rfl⟩
  · have hstarted := hpost.started
    have hkept := hpost.kept
    rw [hleft] at hstarted hkept ⊢
    refine ⟨ho.bootstrap, fun found hfound => ?_, hkept, fun hnot => ?_, fun _ => ho.opened hattempted, fun hread => ?_⟩
    · cases hfound
      refine ⟨?_, ?_, hsincere.seen hseen⟩
      · rw [hsame]
        exact hstage
      · rw [hsame]
        exact hreader
    · rw [show h.helperAttempted = false from hnot] at hattempted
      cases hattempted
    · obtain ⟨hthree, huncancelled, hexited⟩ := hstarted hread
      refine ⟨hattempted, hthree, hexited, part', rfl, hcancel.trans huncancelled, fun hsome => ?_⟩
      rw [hseen.deliveryAttempted]
      exact hdelivered hsome
  · rw [hleft]
    exact .inl hattempted
  · have hover := hpost.ended hexits
    rw [hread] at hover
    rw [hleft]
    rcases hover with hread | hcancelled | hrefused | hthree | hunexited
    · exact .inl hread
    · exact .inr (.inl hcancelled)
    · refine .inr (.inr (.inr ⟨hattempted, .inr (.inr fun found hfound => ?_)⟩))
      cases hfound
      exact .inl (hcancel.trans hrefused)
    · exact .inr (.inr (.inr ⟨hattempted, .inl hthree⟩))
    · exact .inr (.inr (.inr ⟨hattempted, .inr (.inl hunexited)⟩))
  · rw [hleft]
    intro found hfound hfoundDelivered
    cases hfound
    exact ⟨part, hseen, hpost.shownHelper hexits (hseen.deliveryAttempted ▸ hfoundDelivered)⟩

/-- The handle while its helper is delivered. -/
def Helping (h k : Handle) : Prop :=
  ∃ helper error refusals, (∀ part ∈ helper, part.stage = .helper ∧ part.reader = false ∧ Sincere part) ∧
    k = { h with helper := helper, helperAttempted := true, transitionError := error, refusals }

theorem helper_only {d : Delivery} {run : Except Exc Part × Handle} (hnone : h.helper = none)
    (hrun : deliverStage d { h with helperAttempted := true } .helper = run) :
    Helping h run.2 ∧ run.2.transitionError = h.transitionError := by
  have hd := deliverStage_delivered d { h with helperAttempted := true } .helper
  have hsincere := deliverStage_sincere (h := { h with helperAttempted := true }) d .helper (by simp [Handle.part, hnone])
  rw [hrun] at hd hsincere
  have hne : Stage.helper ≠ .resultReader := by decide
  cases hd with
  | accepted part hstage hreader =>
    refine ⟨⟨some part, _, _, fun found hfound => ?_, rfl⟩, rfl⟩
    cases hfound
    exact ⟨hstage, hreader hne, hsincere part rfl⟩
  | attempted part e hstage hreader hattempted =>
    refine ⟨⟨some part, _, _, fun found hfound => ?_, rfl⟩, rfl⟩
    cases hfound
    exact ⟨hstage, hreader hne, hsincere part rfl⟩
  | refused r hstage hregistered =>
    refine ⟨⟨h.helper, _, _, fun found hfound => ?_, rfl⟩, rfl⟩
    rw [hnone] at hfound
    cases hfound
  | stranded r part hstage hregistered hblank hreader =>
    refine ⟨⟨some part, _, _, fun found hfound => ?_, rfl⟩, rfl⟩
    cases hfound
    exact ⟨hblank.stage, hreader hne, hblank.sincere⟩

theorem Helping.noted {k : Handle} (h' : Helping h k) (error : Option String) : Helping h { k with transitionError := error } := by
  obtain ⟨helper, old, refusals, hhelper, rfl⟩ := h'
  exact ⟨helper, error, refusals, hhelper, rfl⟩

theorem Helping.attempted {k : Handle} (h' : Helping h k) : k.helperAttempted = true := by
  obtain ⟨helper, error, refusals, -, rfl⟩ := h'
  rfl

theorem Ordered.helping {k : Handle} (ho : Ordered exit h) (hshut : ¬Shut exit h) (hunread : h.readerAttempted = false)
    (h' : Helping h k) : Ordered exit k := by
  obtain ⟨helper, error, refusals, hhelper, rfl⟩ := h'
  refine ⟨ho.bootstrap, hhelper, ⟨ho.reader.unread, ho.reader.sincere⟩, fun hnot => ?_, fun _ => ?_, fun hread => ?_⟩
  · cases hnot
  · simp only [Shut, not_or, Bool.not_eq_true, Bool.not_eq_false] at hshut
    exact hshut
  · rw [show h.readerAttempted = true from hread] at hunread
    cases hunread

/-- What holds from where the helper is delivered holds from before it. -/
theorem AfterPost.delivered {k : Handle} {run : Except Exc Proof × Handle} (h' : AfterPost exit tick k run) (honly : Helping h k)
    (hfirst : h.helperAttempted = false) (hunread : h.readerAttempted = false) : AfterPost exit tick h run := by
  obtain ⟨helper, error, refusals, -, rfl⟩ := honly
  refine ⟨h'.left, fun hattempted => ?_, fun hattempted => ?_, h'.ordered, h'.ended, h'.shownHelper, h'.shownReader⟩
  · rw [hfirst] at hattempted
    cases hattempted
  · rw [hunread] at hattempted
    cases hattempted

/-- Nothing is read before a helper that was delivered. -/
theorem Ordered.unread (ho : Ordered exit h) (hhelper : ∀ part ∈ h.helper, part.deliveryAttempted = false ∧ h.transitionError.isSome = true) :
    h.readerAttempted = false := by
  cases hread : h.readerAttempted with
  | false => rfl
  | true =>
    obtain ⟨-, -, -, part, hpart, -, hdelivered⟩ := ho.past hread
    obtain ⟨hundelivered, hsome⟩ := hhelper part hpart
    rw [hdelivered hsome] at hundelivered
    cases hundelivered

theorem afterBootstrap_post (first : Proof) (steady : tick.Steady exit) (ho : Ordered exit h) (hshut : ¬Shut exit h) :
    AfterPost exit tick h (afterBootstrap tick h first) := by
  unfold afterBootstrap
  split
  · rename_i hfailed
    simp only [Bool.and_eq_true, Bool.not_eq_true'] at hfailed
    obtain ⟨herror, hany⟩ := hfailed
    have hundelivered : ∀ part ∈ h.helper, part.deliveryAttempted = false := undelivered_any (by simp [hany])
    have hattempted : h.helperAttempted = true := by
      cases hfirst : h.helperAttempted with
      | true => rfl
      | false =>
        rw [(ho.untried hfirst).2] at herror
        cases herror
    have hunread := ho.unread fun part hpart => ⟨hundelivered part hpart, herror⟩
    exact .same ho (fun _ => ⟨.inl hattempted, .inr (.inr (.inr ⟨hattempted, .inr (.inr fun part hpart =>
      .inr ⟨hundelivered part hpart, herror⟩)⟩))⟩) (fun _ => hundelivered) fun _ => ho.reader.unread hunread
  · rename_i hpending
    split
    · rename_i part hpart
      have hattempted : h.helperAttempted = true := by
        cases hfirst : h.helperAttempted with
        | true => rfl
        | false =>
          rw [(ho.untried hfirst).1] at hpart
          cases hpart
      exact inspectHelper_after steady ho hattempted hpart fun hsome => by simpa [hpart, hsome] using hpending
    · rename_i hnone
      have hvacuous : ∀ part ∈ h.helper, part.deliveryAttempted = false ∧ h.transitionError.isSome = true := by simp [hnone]
      have hunread := ho.unread hvacuous
      have hundelivered : ∀ part ∈ h.helper, part.deliveryAttempted = false := fun part hpart => (hvacuous part hpart).1
      split
      · rename_i hcancelled
        exact .same ho (fun _ => ⟨.inr (.inl hcancelled), .inr (.inl hcancelled)⟩) (fun _ => hundelivered) fun _ => ho.reader.unread hunread
      · split
        · rename_i hattempted
          exact .same ho (fun _ => ⟨.inl hattempted, .inr (.inr (.inr ⟨hattempted, .inr (.inr fun part hpart =>
            .inr (hvacuous part hpart))⟩))⟩)
            (fun _ => hundelivered) fun _ => ho.reader.unread hunread
        · rename_i hfirst
          have hfirst : h.helperAttempted = false := by simpa using hfirst
          have herror := (ho.untried hfirst).2
          obtain ⟨honly, hnoerror⟩ := helper_only (d := tick.helperDelivery) hnone rfl
          have hd := deliverStage_delivered tick.helperDelivery { h with helperAttempted := true } .helper
          have hreader : ∀ k, Helping h k → k.resultReader = none := by
            intro k hk
            obtain ⟨helper, error, refusals, -, rfl⟩ := hk
            exact ho.reader.unread hunread
          split
          · rename_i part k hk
            rw [hk] at honly hd hnoerror
            have hpart : k.helper = some part := by
              cases hd
              rfl
            have hnoerror : k.transitionError = none := hnoerror.trans herror
            have hko := ho.helping hshut hunread honly
            exact (inspectHelper_after steady hko honly.attempted hpart fun hsome => by simp [hnoerror] at hsome).delivered honly hfirst hunread
          · rename_i code k hk
            rw [hk] at honly
            have hnoted := honly.noted (some code)
            have hko := ho.helping hshut hunread hnoted
            dsimp only
            split
            · exact (AfterPost.same hko (fun hexits => absurd hexits error_not_exits) (fun hexits => absurd hexits error_not_exits)
                fun hexits => absurd hexits error_not_exits).delivered hnoted hfirst hunread
            · rename_i hany
              have hundelivered := undelivered_any hany
              exact (AfterPost.same hko (fun _ => ⟨.inl hnoted.attempted, .inr (.inr (.inr ⟨hnoted.attempted, .inr (.inr fun part hpart =>
                .inr ⟨hundelivered part hpart, rfl⟩)⟩))⟩) (fun _ => hundelivered) fun _ => hreader _ hnoted).delivered hnoted hfirst hunread
          · rename_i e k hnot hk
            rw [hk] at honly
            have hko := ho.helping hshut hunread honly
            exact (AfterPost.same hko (fun hexits => absurd hexits error_not_exits) (fun hexits => absurd hexits error_not_exits)
              fun hexits => absurd hexits error_not_exits).delivered honly hfirst hunread

/-! ## One `inspect` -/

theorem Ordered.seen (ho : Ordered exit h) (hseen : Seen h h') : Ordered exit h' where
  bootstrap := by
    obtain ⟨_, _, hsame⟩ := hseen.bootstrap
    rw [hsame]
    exact ho.bootstrap
  helper part' hpart' := by
    obtain ⟨part, hpart, hp⟩ := rel_some_right (Option.mem_def.mp hpart' ▸ hseen.helper)
    obtain ⟨hstage, hreader, hsincere⟩ := ho.helper part hpart
    have hsincere := hsincere.seen hp
    obtain ⟨_, _, rfl⟩ := hp
    exact ⟨hstage, hreader, hsincere⟩
  reader := by
    refine ⟨fun hunattempted => ?_, fun part' hpart' => ?_⟩
    · have hnone := ho.reader.unread (hseen.readerAttempted ▸ hunattempted)
      cases hreader : h'.resultReader with
      | none => rfl
      | some part' =>
        obtain ⟨part, hpart, -⟩ := rel_some_right (hreader ▸ hseen.resultReader)
        rw [hnone] at hpart
        cases hpart
    · obtain ⟨part, hpart, hp⟩ := rel_some_right (Option.mem_def.mp hpart' ▸ hseen.resultReader)
      exact (ho.reader.sincere part hpart).seen hp
  untried hunattempted := by
    obtain ⟨hnone, herror⟩ := ho.untried (hseen.helperAttempted ▸ hunattempted)
    refine ⟨?_, hseen.transitionError.trans herror⟩
    cases hhelper : h'.helper with
    | none => rfl
    | some part' =>
      obtain ⟨part, hpart, -⟩ := rel_some_right (hhelper ▸ hseen.helper)
      rw [hnone] at hpart
      cases hpart
  opened hattempted := by
    obtain ⟨_, _, hsame⟩ := hseen.bootstrap
    rw [hsame]
    exact ho.opened (hseen.helperAttempted ▸ hattempted)
  past hattempted := by
    obtain ⟨hhelper, hthree, hexited, part, hpart, huncancelled, hdelivered⟩ := ho.past (hseen.readerAttempted ▸ hattempted)
    obtain ⟨part', hpart', hp⟩ := rel_some (hpart ▸ hseen.helper)
    refine ⟨hseen.helperAttempted.trans hhelper, hseen.three.trans hthree, hexited, part', hpart', ?_, fun hsome => ?_⟩
    · obtain ⟨_, _, rfl⟩ := hp
      exact huncancelled
    · rw [hp.deliveryAttempted]
      exact hdelivered (hseen.transitionError ▸ hsome)

theorem Fresh.ordered (fresh : Fresh h) : Ordered exit h where
  bootstrap := ⟨fresh.stage, fresh.reader⟩
  helper := by simp [fresh.helper]
  reader := ⟨fun _ => fresh.resultReader, by simp [fresh.resultReader]⟩
  untried _ := ⟨fresh.helper, fresh.transitionError⟩
  opened hattempted := by
    rw [fresh.helperAttempted] at hattempted
    cases hattempted
  past hattempted := by
    rw [fresh.readerAttempted] at hattempted
    cases hattempted

/-- The delivery of the stage was attempted. -/
def Handle.delivered (h : Handle) (stage : Stage) : Bool := (h.part stage).any Part.deliveryAttempted

/-- What an `inspect` leaves and answers. -/
structure InspectPost (exit : Stage → Proof) (tick : Tick) (h : Handle) (run : Except Exc Proof × Handle) : Prop where
  left : run.2.three = h.three ∧ run.2.cancelled = h.cancelled ∧ h.bootstrap.Seen run.2.bootstrap
  helperKept : h.helperAttempted = true → run.2.helperAttempted = true ∧ Option.Rel Part.Seen h.helper run.2.helper ∧
    run.2.transitionError = h.transitionError
  readerKept : h.readerAttempted = true → run.2.readerAttempted = true ∧ Option.Rel Part.Seen h.resultReader run.2.resultReader
  ordered : Ordered exit run.2
  ended : Exits run.1 → HelperDone exit run.2 ∧ ReaderDone exit run.2
  shown : Exits run.1 → ∀ stage, run.2.delivered stage = true → ObservedExit tick run.2 stage

/-- A handle of which the parts are only observed, and no exit is answered. -/
theorem InspectPost.seen {answer : Except Exc Proof} (ho : Ordered exit h) (hseen : Seen h h') (hcancelled : h'.cancelled = h.cancelled)
    (hnot : ¬Exits answer) : InspectPost exit tick h (answer, h') where
  left := ⟨hseen.three, hcancelled, hseen.bootstrap⟩
  helperKept hattempted := ⟨hseen.helperAttempted.trans hattempted, hseen.helper, hseen.transitionError⟩
  readerKept hattempted := ⟨hseen.readerAttempted.trans hattempted, hseen.resultReader⟩
  ordered := ho.seen hseen
  ended hexits := absurd hexits hnot
  shown hexits := absurd hexits hnot

theorem Ordered.shut_none (ho : Ordered exit h) (hshut : Shut exit h) : h.helper = none ∧ h.resultReader = none := by
  have hunattempted : h.helperAttempted = false := by
    cases hattempted : h.helperAttempted with
    | false => rfl
    | true =>
      obtain ⟨huncancelled, hprepared⟩ := ho.opened hattempted
      simp [Shut, huncancelled, hprepared] at hshut
  refine ⟨(ho.untried hunattempted).1, ho.reader.unread ?_⟩
  cases hread : h.readerAttempted with
  | false => rfl
  | true =>
    rw [(ho.past hread).1] at hunattempted
    cases hunattempted

/-- What the bootstrap shows tells whether it opens the way. -/
theorem Ordered.shut_iff (ho : Ordered exit h) (steady : tick.Steady exit) (hblocked : (observe tick.bootstrap h.bootstrap).1.blocked = true) :
    Shut exit h ↔ (observe tick.bootstrap h.bootstrap).1.result.bootstrapPrepared = false := by
  obtain ⟨hstage, hreader⟩ := ho.bootstrap
  have hne : h.bootstrap.stage ≠ .resultReader := by
    rw [hstage]
    decide
  cases huncancelled : h.bootstrap.cancelBeforeLaunch with
  | true =>
    refine ⟨fun _ => ?_, fun _ => .inl huncancelled⟩
    cases hprepared : (observe tick.bootstrap h.bootstrap).1.result.bootstrapPrepared with
    | false => rfl
    | true =>
      rw [uncancelled_of_prepared hne hreader hprepared] at huncancelled
      cases huncancelled
  | false =>
    have hexit : (observe tick.bootstrap h.bootstrap).1 = exit .bootstrap :=
      observe_steady steady .bootstrap (by decide) hstage hreader huncancelled hblocked
    rw [hexit, Shut, huncancelled]
    simp

theorem inspect_post (steady : tick.Steady exit) (ho : Ordered exit h) : InspectPost exit tick h (inspect tick h) := by
  have hobserved := observe_seen tick.bootstrap h.bootstrap
  have hseen := seen_bootstrap tick.bootstrap h
  unfold inspect
  split
  · exact .seen ho ⟨rfl, .refl _, seen_option _, seen_option _, rfl, rfl, rfl, rfl, rfl⟩ rfl error_not_exits
  · dsimp only
    split
    · rename_i hrunning
      refine .seen ho ⟨rfl, hobserved, seen_observed _ _, seen_observed _ _, rfl, rfl, rfl, rfl, rfl⟩ rfl fun hexits => ?_
      obtain ⟨proof, hproof, hblocked⟩ := hexits
      cases hproof
      simp [hblocked] at hrunning
    · rename_i hblocked
      have hblocked : (observe tick.bootstrap h.bootstrap).1.blocked = true := by simpa using hblocked
      have hseenShut : Shut exit { h with bootstrap := (observe tick.bootstrap h.bootstrap).2 } ↔ Shut exit h := by
        obtain ⟨_, _, hsame⟩ := hobserved
        rw [Shut, Shut, hsame]
      have hbootstrap : ∀ k : Handle, k.bootstrap = (observe tick.bootstrap h.bootstrap).2 → ObservedExit tick k .bootstrap :=
        fun k hk => ⟨h.bootstrap, k.bootstrap, rfl, hk ▸ hobserved, hblocked⟩
      have hord := ho.seen hseen
      split
      · rename_i hprepared
        have hshut : Shut exit h := (ho.shut_iff steady hblocked).mpr (by simpa using hprepared)
        obtain ⟨hhelper, hreader⟩ := ho.shut_none hshut
        have hshut' := hseenShut.mpr hshut
        refine ⟨⟨rfl, rfl, hobserved⟩, fun hattempted => ⟨hattempted, seen_option _, rfl⟩,
          fun hattempted => ⟨hattempted, seen_option _⟩, hord,
          fun _ => ⟨.inr (.inr hshut'), .inr (.inr (.inl hshut'))⟩, fun _ stage hdelivered => ?_⟩
        cases stage with
        | bootstrap => exact hbootstrap _ rfl
        | helper => simp [Handle.delivered, Handle.part, hhelper] at hdelivered
        | resultReader => simp [Handle.delivered, Handle.part, hreader] at hdelivered
      · rename_i hprepared
        have hshut : ¬Shut exit h := by
          rw [ho.shut_iff steady hblocked]
          simpa using hprepared
        have hpost := afterBootstrap_post (observe tick.bootstrap h.bootstrap).1 steady hord fun hshut' => hshut (hseenShut.mp hshut')
        generalize afterBootstrap tick { h with bootstrap := (observe tick.bootstrap h.bootstrap).2 }
          (observe tick.bootstrap h.bootstrap).1 = run at hpost
        obtain ⟨hthree, hcancelled, hsame⟩ := hpost.left
        refine ⟨⟨hthree, hcancelled, hsame ▸ hobserved⟩, hpost.helperKept, hpost.readerKept, hpost.ordered, hpost.ended,
          fun hexits stage hdelivered => ?_⟩
        have hpart : ∃ part', run.2.part stage = some part' ∧ part'.deliveryAttempted = true := by
          simpa [Handle.delivered, Option.any_eq_true] using hdelivered
        obtain ⟨part', hpart', hdelivered'⟩ := hpart
        cases stage with
        | bootstrap => exact hbootstrap run.2 hsame
        | helper =>
          obtain ⟨part, hp, hblocked'⟩ := hpost.shownHelper hexits part' hpart' hdelivered'
          exact ⟨part, part', hpart', hp, hblocked'⟩
        | resultReader =>
          obtain ⟨part, hp, hblocked'⟩ := hpost.shownReader hexits part' hpart' hdelivered'
          exact ⟨part, part', hpart', hp, hblocked'⟩

end LocalHand.ExecutionCore
