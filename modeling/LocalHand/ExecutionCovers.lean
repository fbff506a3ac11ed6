/-
What an exit that an `inspect` answers covers: every stage that was delivered is observed
exited by it, and no stage is delivered after it. A stage is delivered once, the helper
after the bootstrap, the result reader after the helper, and none once the execution is
cancelled.
-/
import LocalHand.ExecutionExits

namespace LocalHand.ExecutionCore

/-- The tick, with another delivery of the stage. -/
def Tick.meets (tick : Tick) : Stage → Delivery → Tick
  | .bootstrap, _ => tick
  | .helper, d => { tick with helperDelivery := d }
  | .resultReader, d => { tick with readerDelivery := d }

/-- The `inspect` delivers the stage: what it does depends on what the delivery meets. -/
def Delivers (tick : Tick) (h : Handle) (stage : Stage) : Prop := ∃ d, inspect (tick.meets stage d) h ≠ inspect tick h

/-- The bootstrap is observed exited, with the roots prepared. -/
def Opened (tick : Tick) (h : Handle) : Prop :=
  (observe tick.bootstrap h.bootstrap).1.blocked = true ∧ (observe tick.bootstrap h.bootstrap).1.result.bootstrapPrepared = true

variable {exit : Stage → Proof} {tick : Tick} {h h' : Handle} {part : Part} {first helperProof : Proof}

/-! ## What is delivered -/

/-- No reader's delivery is looked at. -/
theorem inspectResultReader_meets (d : Delivery) (hnot : ¬(helperProof.stageExited = true ∧ h.resultReader = none ∧
    h.cancelled = false ∧ h.readerAttempted = false)) :
    inspectResultReader (tick.meets .resultReader d) h helperProof = inspectResultReader tick h helperProof := by
  unfold inspectResultReader
  by_cases hexited : helperProof.stageExited = true
  · simp only [hexited, Bool.not_true, Bool.false_eq_true, if_false]
    cases hreader : h.resultReader with
    | some part => rfl
    | none =>
      dsimp only
      by_cases hcancelled : h.cancelled = true
      · simp only [hcancelled, if_true]
      · by_cases hattempted : h.readerAttempted = true
        · simp only [hcancelled, hattempted, if_true]
        · exact absurd ⟨hexited, hreader, by simpa using hcancelled, by simpa using hattempted⟩ hnot
  · simp only [hexited, Bool.not_false, if_true]
    rfl

theorem inspectResultReader_attempts (hexited : helperProof.stageExited = true) (hnone : h.resultReader = none) (hgoes : h.cancelled = false)
    (hfirst : h.readerAttempted = false) : (inspectResultReader tick h helperProof).2.readerAttempted = true := by
  have honly := reader_only (h := h) (d := tick.readerDelivery) rfl
  have hd := deliverStage_delivered tick.readerDelivery { h with readerAttempted := true } .resultReader
  unfold inspectResultReader
  rw [if_neg (by simp [hexited])]
  split
  · rename_i hsome
    rw [hnone] at hsome
    cases hsome
  · rw [if_neg (by simp [hgoes]), if_neg (by simp [hfirst])]
    split
    · rename_i part k hk
      rw [hk] at honly hd
      have hpart : k.resultReader = some part := by
        cases hd
        rfl
      obtain ⟨part', -, hleft⟩ := readResult_seen tick helperProof hpart
      rw [hleft]
      exact honly.attempted
    · rename_i code k hk
      rw [hk] at honly
      dsimp only
      split <;> exact honly.attempted
    · rename_i e k hnot hk
      rw [hk] at honly
      exact honly.attempted

theorem inspectHelper_meets {d : Delivery} (hdiffers : inspectHelper (tick.meets .resultReader d) h first part ≠ inspectHelper tick h first part) :
    part.cancelBeforeLaunch = false ∧ h.three = true ∧ (observe tick.helper part).1.stageExited = true ∧ h.cancelled = false ∧
      h.readerAttempted = false ∧ (inspectHelper tick h first part).2.readerAttempted = true := by
  have hcancel : (observe tick.helper part).2.cancelBeforeLaunch = part.cancelBeforeLaunch := by
    obtain ⟨_, _, heq⟩ := observe_seen tick.helper part
    rw [heq]
  have hhelper : (tick.meets .resultReader d).helper = tick.helper := rfl
  unfold inspectHelper at hdiffers ⊢
  simp only [hhelper, hcancel] at hdiffers ⊢
  by_cases hrefused : part.cancelBeforeLaunch = true
  · simp only [if_pos hrefused, ne_eq, not_true_eq_false] at hdiffers
  · by_cases hthree : h.three = true
    · simp only [if_neg hrefused, if_pos hthree] at hdiffers
      by_cases hready : (observe tick.helper part).1.stageExited = true ∧ h.resultReader = none ∧ h.cancelled = false ∧
          h.readerAttempted = false
      · rw [if_neg hrefused, if_pos hthree]
        exact ⟨by simpa using hrefused, hthree, hready.1, hready.2.2.1, hready.2.2.2,
          inspectResultReader_attempts hready.1 hready.2.1 hready.2.2.1 hready.2.2.2⟩
      · exact absurd (inspectResultReader_meets (h := { h with helper := some (observe tick.helper part).2 }) d hready) hdiffers
    · simp only [if_neg hrefused, if_neg hthree, ne_eq, not_true_eq_false] at hdiffers

/-- An `inspect` that finds the way open goes on past the bootstrap. -/
theorem inspect_opened (hbinding : tick.binding = none) (hopened : Opened tick h) : inspect tick h =
    afterBootstrap tick { h with bootstrap := (observe tick.bootstrap h.bootstrap).2 } (observe tick.bootstrap h.bootstrap).1 := by
  obtain ⟨hblocked, hprepared⟩ := hopened
  simp [inspect, hbinding, hblocked, hprepared]

theorem meets_bootstrap (tick : Tick) (stage : Stage) (d : Delivery) :
    (tick.meets stage d).binding = tick.binding ∧ (tick.meets stage d).bootstrap = tick.bootstrap ∧
      (tick.meets stage d).helper = tick.helper ∧ (tick.meets stage d).resultReader = tick.resultReader := by
  cases stage <;> exact ⟨rfl, rfl, rfl, rfl⟩

/-- Nothing is delivered before the bootstrap is observed exited and prepared. -/
theorem Delivers.opened {stage : Stage} (hdelivers : Delivers tick h stage) : tick.binding = none ∧ Opened tick h := by
  obtain ⟨d, hdiffers⟩ := hdelivers
  obtain ⟨hbinding, hbootstrap, hhelper, hreader⟩ := meets_bootstrap tick stage d
  unfold inspect at hdiffers
  simp only [hbinding, hbootstrap, hhelper, hreader] at hdiffers
  cases hnone : tick.binding with
  | some e => simp [hnone] at hdiffers
  | none =>
    cases hblocked : (observe tick.bootstrap h.bootstrap).1.blocked with
    | false => simp [hnone, hblocked] at hdiffers
    | true =>
      cases hprepared : (observe tick.bootstrap h.bootstrap).1.result.bootstrapPrepared with
      | false => simp [hnone, hblocked, hprepared] at hdiffers
      | true => exact ⟨rfl, hblocked, hprepared⟩

/-- The rest of the `inspect` depends on the delivery. -/
theorem Delivers.after {stage : Stage} (hdelivers : Delivers tick h stage) :
    ∃ d, afterBootstrap (tick.meets stage d) { h with bootstrap := (observe tick.bootstrap h.bootstrap).2 }
        (observe tick.bootstrap h.bootstrap).1 ≠
      afterBootstrap tick { h with bootstrap := (observe tick.bootstrap h.bootstrap).2 } (observe tick.bootstrap h.bootstrap).1 := by
  obtain ⟨hnone, hopened⟩ := hdelivers.opened
  obtain ⟨d, hdiffers⟩ := hdelivers
  obtain ⟨hbinding, hbootstrap, -, -⟩ := meets_bootstrap tick stage d
  have hopened' : Opened (tick.meets stage d) h := by
    rw [Opened, hbootstrap]
    exact hopened
  rw [inspect_opened hnone hopened, inspect_opened (hbinding.trans hnone) hopened', hbootstrap] at hdiffers
  exact ⟨d, hdiffers⟩

theorem Delivers.helper (hdelivers : Delivers tick h .helper) : h.cancelled = false ∧ h.helperAttempted = false := by
  obtain ⟨d, hdiffers⟩ := hdelivers.after
  cases hcancelled : h.cancelled with
  | true =>
    refine absurd ?_ hdiffers
    unfold afterBootstrap
    simp only [hcancelled, if_true]
    rfl
  | false =>
    cases hattempted : h.helperAttempted with
    | true =>
      refine absurd ?_ hdiffers
      unfold afterBootstrap
      simp only [hattempted, if_true]
      rfl
    | false => exact ⟨rfl, rfl⟩

/-- The helper a reader is delivered after. -/
structure ReadsAfter (tick : Tick) (h h' : Handle) (part : Part) : Prop where
  left : ∃ part', h'.helper = some part' ∧ part.Seen part'
  uncancelled : part.cancelBeforeLaunch = false
  exited : (observe tick.helper part).1.stageExited = true
  kept : h.helperAttempted = true → h.helper = some part ∧ (h.transitionError.isSome = true → part.deliveryAttempted = true)

theorem inspectHelper_left (tick : Tick) (first : Proof) (part : Part) (hkept : ReaderKept h) :
    ∃ reader attempted error refusals, (inspectHelper tick h first part).2 =
    { h with helper := some (observe tick.helper part).2, resultReader := reader, readerAttempted := attempted, readerError := error, refusals } := by
  unfold inspectHelper
  dsimp only
  split
  · exact ⟨_, _, _, _, rfl⟩
  · split
    · exact (inspectResultReader_post tick (observe tick.helper part).1
        (h := { h with helper := some (observe tick.helper part).2 }) ⟨hkept.unread, hkept.sincere⟩).only
    · exact ⟨_, _, _, _, rfl⟩

theorem inspectHelper_helper (hkept : ReaderKept h) :
    (inspectHelper tick h first part).2.helper = some (observe tick.helper part).2 := by
  obtain ⟨reader, attempted, error, refusals, hleft⟩ := inspectHelper_left tick first part hkept
  rw [hleft]

section

variable (hfailed : ¬(h.transitionError.isSome && !h.helper.any Part.deliveryAttempted) = true)

include hfailed

theorem afterBootstrap_some (t : Tick) (hpart : h.helper = some part) : afterBootstrap t h first = inspectHelper t h first part := by
  rw [afterBootstrap, if_neg hfailed]
  simp only [hpart]

variable (hnone : h.helper = none) {t : Tick} {k : Handle}

include hnone

theorem afterBootstrap_raised {e : Exc} (hsame : t.helperDelivery = tick.helperDelivery)
    (hrun : deliverStage tick.helperDelivery { h with helperAttempted := true } .helper = (.error e, k)) :
    afterBootstrap t h first = afterBootstrap tick h first := by
  rw [afterBootstrap, afterBootstrap, if_neg hfailed, if_neg hfailed]
  split
  · rename_i hsome
    rw [hnone] at hsome
    cases hsome
  · rw [hsame, hrun]
    cases e <;> rfl

variable (hgoes : h.cancelled = false) (hfirst : h.helperAttempted = false)

include hgoes hfirst

theorem afterBootstrap_failed {e : Exc} (hrun : deliverStage t.helperDelivery { h with helperAttempted := true } .helper = (.error e, k)) :
    (afterBootstrap t h first).2.helperAttempted = k.helperAttempted := by
  rw [afterBootstrap, if_neg hfailed]
  split
  · rename_i hsome
    rw [hnone] at hsome
    cases hsome
  · rw [if_neg (by simp [hgoes]), if_neg (by simp [hfirst]), hrun]
    cases e with
    | runner code =>
      dsimp only
      split <;> rfl
    | _ => rfl

theorem afterBootstrap_delivered (hrun : deliverStage t.helperDelivery { h with helperAttempted := true } .helper = (.ok part, k)) :
    afterBootstrap t h first = inspectHelper t k first part := by
  rw [afterBootstrap, if_neg hfailed]
  split
  · rename_i hsome
    rw [hnone] at hsome
    cases hsome
  · rw [if_neg (by simp [hgoes]), if_neg (by simp [hfirst]), hrun]

end

theorem afterBootstrap_meets {d : Delivery} (ho : Ordered exit h)
    (hdiffers : afterBootstrap (tick.meets .resultReader d) h first ≠ afterBootstrap tick h first) :
    h.cancelled = false ∧ h.readerAttempted = false ∧ h.three = true ∧ (afterBootstrap tick h first).2.readerAttempted = true ∧
      ∃ part, ReadsAfter tick h (afterBootstrap tick h first).2 part := by
  have hdelivery : (tick.meets .resultReader d).helperDelivery = tick.helperDelivery := rfl
  by_cases hfailed : (h.transitionError.isSome && !h.helper.any Part.deliveryAttempted) = true
  · simp only [afterBootstrap, if_pos hfailed, ne_eq, not_true_eq_false] at hdiffers
  cases hhelper : h.helper with
  | some part =>
    rw [afterBootstrap_some hfailed _ hhelper, afterBootstrap_some hfailed tick hhelper] at hdiffers
    rw [afterBootstrap_some hfailed tick hhelper]
    obtain ⟨huncancelled, hthree, hexited, hgoes, hunread, hattempts⟩ := inspectHelper_meets hdiffers
    refine ⟨hgoes, hunread, hthree, hattempts, part, ⟨_, inspectHelper_helper ho.reader, observe_seen tick.helper part⟩, huncancelled, hexited,
      fun _ => ⟨hhelper, fun hsome => ?_⟩⟩
    simpa [hhelper, hsome] using hfailed
  | none =>
    have hidle : h.cancelled = false ∧ h.helperAttempted = false := by
      cases hcancelled : h.cancelled with
      | true =>
        refine absurd ?_ hdiffers
        unfold afterBootstrap
        simp only [hhelper, hcancelled, if_true]
      | false =>
        cases hattempted : h.helperAttempted with
        | true =>
          refine absurd ?_ hdiffers
          unfold afterBootstrap
          simp only [hhelper, hcancelled, hattempted, if_true]
        | false => exact ⟨rfl, rfl⟩
    obtain ⟨hgoes, hfirst⟩ := hidle
    cases hrun : deliverStage tick.helperDelivery { h with helperAttempted := true } .helper with
    | mk answer k =>
      obtain ⟨honly, -⟩ := helper_only hhelper hrun
      cases answer with
      | error e => exact absurd (afterBootstrap_raised hfailed hhelper hdelivery hrun) hdiffers
      | ok part =>
        rw [afterBootstrap_delivered hfailed hhelper hgoes hfirst (t := tick.meets .resultReader d) hrun,
          afterBootstrap_delivered hfailed hhelper hgoes hfirst hrun] at hdiffers
        rw [afterBootstrap_delivered hfailed hhelper hgoes hfirst hrun]
        obtain ⟨huncancelled, hthree, hexited, hgoes, hunread, hattempts⟩ := inspectHelper_meets hdiffers
        obtain ⟨helper, error, refusals, -, rfl⟩ := honly
        refine ⟨hgoes, hunread, hthree, hattempts, part,
          ⟨_, inspectHelper_helper ⟨ho.reader.unread, ho.reader.sincere⟩, observe_seen tick.helper part⟩,
          huncancelled, hexited, fun hattempted => ?_⟩
        rw [hfirst] at hattempted
        cases hattempted

theorem Delivers.reader (ho : Ordered exit h) (hdelivers : Delivers tick h .resultReader) :
    h.cancelled = false ∧ h.readerAttempted = false ∧ h.three = true ∧ (inspect tick h).2.readerAttempted = true ∧
      ∃ part, ReadsAfter tick h (inspect tick h).2 part := by
  obtain ⟨hbinding, hopened⟩ := hdelivers.opened
  obtain ⟨d, hdiffers⟩ := hdelivers.after
  obtain ⟨hgoes, hunread, hthree, hattempts, part, hafter⟩ := afterBootstrap_meets (ho.seen (seen_bootstrap tick.bootstrap h)) hdiffers
  rw [inspect_opened hbinding hopened]
  refine ⟨hgoes, hunread, hthree, hattempts, part, ?_⟩
  exact ⟨hafter.left, hafter.uncancelled, hafter.exited, hafter.kept⟩

/-- The helper that is delivered is noted as attempted. -/
theorem afterBootstrap_attempts (hkept : ReaderKept h) (hnone : h.helper = none) (herror : h.transitionError = none) (hgoes : h.cancelled = false)
    (hfirst : h.helperAttempted = false) : (afterBootstrap tick h first).2.helperAttempted = true := by
  have hfailed : ¬(h.transitionError.isSome && !h.helper.any Part.deliveryAttempted) = true := by simp [herror]
  cases hrun : deliverStage tick.helperDelivery { h with helperAttempted := true } .helper with
  | mk answer k =>
    obtain ⟨honly, -⟩ := helper_only hnone hrun
    cases answer with
    | error e => exact (afterBootstrap_failed hfailed hnone hgoes hfirst hrun).trans honly.attempted
    | ok part =>
      rw [afterBootstrap_delivered hfailed hnone hgoes hfirst hrun]
      obtain ⟨helper, error, refusals, -, rfl⟩ := honly
      obtain ⟨reader, attempted, error', refusals', hleft⟩ := inspectHelper_left tick first part
        (h := { h with helper := helper, helperAttempted := true, transitionError := error, refusals }) ⟨hkept.unread, hkept.sincere⟩
      rw [hleft]

theorem Delivers.helper_attempts (ho : Ordered exit h) (hdelivers : Delivers tick h .helper) : (inspect tick h).2.helperAttempted = true := by
  obtain ⟨hbinding, hopened⟩ := hdelivers.opened
  obtain ⟨hgoes, hfirst⟩ := hdelivers.helper
  obtain ⟨hnone, herror⟩ := ho.untried hfirst
  rw [inspect_opened hbinding hopened]
  exact afterBootstrap_attempts ⟨ho.reader.unread, ho.reader.sincere⟩ hnone herror hgoes hfirst

/-! ## Runs -/

def Label.Steady (exit : Stage → Proof) : Label → Prop
  | .inspect tick => tick.Steady exit
  | .cancel => True

/-- What every `inspect` and the cancellation keep, a run does. -/
theorem run_keeps {I : Handle → Prop} (hinspect : ∀ h tick, I h → tick.Steady exit → I (inspect tick h).2)
    (hcancel : ∀ h, I h → I { h with cancelled := true }) (hi : I h) {labels : List Label} (steady : ∀ label ∈ labels, label.Steady exit) :
    I (Machine.exec step h labels) := by
  have halong : Machine.Along step (fun _ label => label.Steady exit) h labels :=
    ((Machine.Along.of_forall (C := fun _ _ => True) (fun _ _ => trivial) h labels).and_mem fun _ hmem => hmem).mono
      fun _ label hmem => steady label hmem.2
  refine Machine.exec_inv_along (I := I) (fun h label hi hsteady => ?_) hi halong
  cases label with
  | inspect tick => exact hinspect h tick hi hsteady
  | cancel => exact hcancel h hi

theorem Ordered.cancel (ho : Ordered exit h) : Ordered exit { h with cancelled := true } :=
  ho.seen ⟨rfl, .refl _, seen_option _, seen_option _, rfl, rfl, rfl, rfl, rfl⟩

theorem HelperDone.step {run : Except Exc Proof × Handle} (hdone : HelperDone exit h) (hpost : InspectPost exit tick h run) :
    HelperDone exit run.2 := by
  obtain ⟨hthree, hcancelled, _, _, hsame⟩ := hpost.left
  rcases hdone with hattempted | hover | hshut
  · exact .inl (hpost.helperKept hattempted).1
  · exact .inr (.inl (hcancelled.trans hover))
  · refine .inr (.inr ?_)
    rw [Shut, hsame]
    exact hshut

theorem ReaderDone.step {run : Except Exc Proof × Handle} (hdone : ReaderDone exit h) (hpost : InspectPost exit tick h run) :
    ReaderDone exit run.2 := by
  obtain ⟨hthree, hcancelled, _, _, hsame⟩ := hpost.left
  rcases hdone with hattempted | hover | hshut | ⟨hattempted, hshort⟩
  · exact .inl (hpost.readerKept hattempted).1
  · exact .inr (.inl (hcancelled.trans hover))
  · refine .inr (.inr (.inl ?_))
    rw [Shut, hsame]
    exact hshut
  · obtain ⟨hattempted', hrel, herror⟩ := hpost.helperKept hattempted
    refine .inr (.inr (.inr ⟨hattempted', ?_⟩))
    rcases hshort with hthree' | hunexited | hall
    · exact .inl (hthree.trans hthree')
    · exact .inr (.inl hunexited)
    · refine .inr (.inr fun part' hpart' => ?_)
      obtain ⟨part, hpart, hseen⟩ := rel_some_right (Option.mem_def.mp hpart' ▸ hrel)
      rw [herror, hseen.deliveryAttempted]
      obtain ⟨_, _, rfl⟩ := hseen
      exact hall part hpart

/-- No stage is delivered any more. -/
def Handle.Done (exit : Stage → Proof) (h : Handle) : Stage → Prop
  | .bootstrap => True
  | .helper => HelperDone exit h
  | .resultReader => ReaderDone exit h

theorem run_done (stage : Stage) (ho : Ordered exit h) (hdone : h.Done exit stage) {labels : List Label}
    (steady : ∀ label ∈ labels, label.Steady exit) :
    Ordered exit (Machine.exec step h labels) ∧ (Machine.exec step h labels).Done exit stage := by
  refine run_keeps (I := fun h => Ordered exit h ∧ h.Done exit stage) (fun h tick hi hsteady => ?_) (fun h hi => ⟨hi.1.cancel, ?_⟩)
    ⟨ho, hdone⟩ steady
  · have hpost := inspect_post hsteady hi.1
    refine ⟨hpost.ordered, ?_⟩
    cases stage with
    | bootstrap => trivial
    | helper => exact HelperDone.step hi.2 hpost
    | resultReader => exact ReaderDone.step hi.2 hpost
  · cases stage with
    | bootstrap => trivial
    | helper => exact .inr (.inl rfl)
    | resultReader => exact .inr (.inl rfl)

/-- Where a stage is done it is not delivered. -/
theorem Handle.Done.not_delivers {stage : Stage} (hdone : h.Done exit stage) (ho : Ordered exit h) (steady : tick.Steady exit) :
    ¬Delivers tick h stage := by
  intro hdelivers
  obtain ⟨-, hblocked, hprepared⟩ := hdelivers.opened
  have hshut : ¬Shut exit h := by
    rw [ho.shut_iff steady hblocked, hprepared]
    decide
  cases stage with
  | bootstrap =>
    obtain ⟨d, hdiffers⟩ := hdelivers
    exact hdiffers rfl
  | helper =>
    obtain ⟨hgoes, hfirst⟩ := hdelivers.helper
    rcases hdone with hattempted | hcancelled | hover
    · rw [hfirst] at hattempted
      cases hattempted
    · rw [hgoes] at hcancelled
      cases hcancelled
    · exact hshut hover
  | resultReader =>
    obtain ⟨hgoes, hfirst, hthree, -, part, hafter⟩ := hdelivers.reader ho
    rcases hdone with hattempted | hcancelled | hover | ⟨hattempted, hshort⟩
    · rw [hfirst] at hattempted
      cases hattempted
    · rw [hgoes] at hcancelled
      cases hcancelled
    · exact hshut hover
    · obtain ⟨hpart, hdelivered⟩ := hafter.kept hattempted
      obtain ⟨hstage, hreader, -⟩ := ho.helper part hpart
      rcases hshort with hnot | hunexited | hall
      · rw [hthree] at hnot
        cases hnot
      · have hexit := observe_steady steady .helper (by decide) hstage hreader hafter.uncancelled (exited_blocked hafter.exited)
        rw [← hexit, show (observe (tick.look .helper) part).1.stageExited = true from hafter.exited] at hunexited
        cases hunexited
      · rcases hall part hpart with hrefused | ⟨hundelivered, hsome⟩
        · rw [hafter.uncancelled] at hrefused
          cases hrefused
        · rw [hdelivered hsome] at hundelivered
          cases hundelivered

/-- What an `inspect` delivers, and what an exit it answers covers. -/
structure Covers (exit : Stage → Proof) (tick : Tick) (h : Handle) : Prop where
  helper : Delivers tick h .helper → h.cancelled = false ∧ Opened tick h
  reader : Delivers tick h .resultReader → h.cancelled = false ∧ Opened tick h ∧
    ∃ part part', (inspect tick h).2.helper = some part' ∧ part.Seen part' ∧ (observe tick.helper part).1.stageExited = true
  once : ∀ stage, Delivers tick h stage → ∀ later tick', (∀ label ∈ later, Label.Steady exit label) → tick'.Steady exit →
    ¬Delivers tick' (Machine.exec step (inspect tick h).2 later) stage
  shown : Exits (inspect tick h).1 → ∀ stage, (inspect tick h).2.delivered stage = true → ObservedExit tick (inspect tick h).2 stage
  last : Exits (inspect tick h).1 → ∀ stage later tick', (∀ label ∈ later, Label.Steady exit label) → tick'.Steady exit →
    ¬Delivers tick' (Machine.exec step (inspect tick h).2 later) stage

/-- In every run each stage is delivered once at most, the helper after the bootstrap is observed exited, the
reader after the helper is, and none after a cancellation. Where an `inspect` answers with an exit, it observed
the exit of every stage delivered, and no later one delivers another. -/
theorem inspect_covers (fresh : Fresh h) (labels : List Label) (steady : ∀ label ∈ labels, label.Steady exit) (tick : Tick)
    (hsteady : tick.Steady exit) : Covers exit tick (Machine.exec step h labels) := by
  have ho := (run_done .bootstrap fresh.ordered trivial steady).1
  generalize Machine.exec step h labels = k at ho
  have hpost := inspect_post hsteady ho
  have hnever : ∀ stage, (inspect tick k).2.Done exit stage → ∀ later tick', (∀ label ∈ later, Label.Steady exit label) →
      tick'.Steady exit → ¬Delivers tick' (Machine.exec step (inspect tick k).2 later) stage := by
    intro stage hdone later tick' hlater hsteady'
    obtain ⟨ho', hdone'⟩ := run_done stage hpost.ordered hdone hlater
    exact hdone'.not_delivers ho' hsteady'
  refine ⟨fun hdelivers => ⟨hdelivers.helper.1, hdelivers.opened.2⟩, fun hdelivers => ?_, fun stage hdelivers => hnever stage ?_,
    hpost.shown, fun hexits stage => hnever stage ?_⟩
  · obtain ⟨hgoes, -, -, -, part, hafter⟩ := hdelivers.reader ho
    obtain ⟨part', hpart', hseen⟩ := hafter.left
    exact ⟨hgoes, hdelivers.opened.2, part, part', hpart', hseen, hafter.exited⟩
  · cases stage with
    | bootstrap => trivial
    | helper => exact .inl (hdelivers.helper_attempts ho)
    | resultReader => exact .inl (hdelivers.reader ho).2.2.2.1
  · obtain ⟨hhelper, hreader⟩ := hpost.ended hexits
    cases stage with
    | bootstrap => trivial
    | helper => exact hhelper
    | resultReader => exact hreader

theorem lookAt_steady (hlook : ∀ stage, ∃ proof, tick.look stage = lookAt proof ∧ (proof.state = .exited → proof = exit stage)) :
    tick.Steady exit := by
  intro stage proof hshown hexited
  obtain ⟨shown, hlookAt, hsame⟩ := hlook stage
  have hproof : shown = proof := by
    rw [hlookAt] at hshown
    rcases hshown with heq | heq <;> exact Except.ok.inj heq
  subst hproof
  exact hsame hexited

theorem exitedTick_steady : exitedTick.Steady fun _ => exitedProof := by
  refine lookAt_steady fun stage => ?_
  cases stage with
  | bootstrap => exact ⟨exitedProof, rfl, fun _ => rfl⟩
  | helper => exact ⟨exitedProof, rfl, fun _ => rfl⟩
  | resultReader => exact ⟨unknown _, rfl, fun hexited => by cases hexited⟩

/-- The bootstrap has exited, and the helper is launched. -/
def helperTick : Tick :=
  { exitedTick with helper := lookAt (unknown "invocation identity missing")
                    helperDelivery := ⟨none, none, none, none, ⟨true, true, true, .ok true⟩⟩ }

theorem helperTick_steady : helperTick.Steady fun _ => exitedProof := by
  refine lookAt_steady fun stage => ?_
  cases stage with
  | bootstrap => exact ⟨exitedProof, rfl, fun _ => rfl⟩
  | helper => exact ⟨unknown _, rfl, fun hexited => by cases hexited⟩
  | resultReader => exact ⟨unknown _, rfl, fun hexited => by cases hexited⟩

/-- The reader's launch is refused, and the helper's exit answered: no reader is delivered after it. -/
theorem inspect_covers_refused :
    ¬Delivers exitedTick (inspect exitedTick (Machine.exec step quotaHandle [.inspect helperTick])).2 .resultReader := by
  have hcovers := inspect_covers quotaHandle_fresh [.inspect helperTick] (fun label hlabel => by
    rw [List.mem_singleton.mp hlabel]
    exact helperTick_steady) exitedTick exitedTick_steady
  exact hcovers.last ⟨_, rfl, rfl⟩ .resultReader [] exitedTick (fun _ hlabel => by cases hlabel) exitedTick_steady

end LocalHand.ExecutionCore
