/-
A delivery that fails before its stage was launched leaves a handle that either answers with an
exit at every later `inspect`, or never does: the refusal has to be recorded in the handle,
because the part that was registered says nothing of it.

`refusals_exit`: in every run, the later inspections answer with an exit if and only if the
refusal is one the handle records.
-/
import LocalHand.ExecutionCore

namespace LocalHand.ExecutionCore

/-! ## Parts and handles that were only observed -/

/-- The part, its pipe's flags apart. -/
def Part.Seen (part part' : Part) : Prop :=
  ∃ error closed, part' = { part with pipeError := error, pipeClosed := closed }

theorem Part.Seen.refl (part : Part) : part.Seen part := ⟨_, _, rfl⟩

theorem Part.Seen.trans {a b c : Part} (hab : a.Seen b) (hbc : b.Seen c) : a.Seen c := by
  obtain ⟨_, _, rfl⟩ := hab
  obtain ⟨error, closed, rfl⟩ := hbc
  exact ⟨error, closed, rfl⟩

theorem drainReader_seen (look : Look) (part : Part) : part.Seen (drainReader look part) := by
  unfold drainReader
  split
  · exact ⟨_, _, rfl⟩
  · exact .refl part

theorem finishReaderTransport_seen (look : Look) (part : Part) : part.Seen (finishReaderTransport look part).2 := by
  unfold finishReaderTransport
  split
  · exact .refl part
  · split <;> exact ⟨_, _, rfl⟩

theorem closeReader_seen (look : Look) (part : Part) (proof : Proof) : part.Seen (closeReader look part proof).2 := by
  unfold closeReader
  split
  · exact .refl part
  · split <;> exact finishReaderTransport_seen look part

theorem observeReader_seen (look : Look) (part : Part) (proof : Proof) : part.Seen (observeReader look part proof).2 := by
  unfold observeReader
  split
  · exact ⟨_, _, rfl⟩
  · have hset : ∀ error, part.Seen { part with pipeError := error } := fun error => ⟨_, _, rfl⟩
    exact (hset _).trans (closeReader_seen look _ proof)

theorem observe_seen (look : Look) (part : Part) : part.Seen (observe look part).2 := by
  unfold observe
  have hdrain : part.Seen (if part.stage = .resultReader ∧ !part.quotaTransport then drainReader look part else part) := by
    split
    · exact drainReader_seen look part
    · exact .refl part
  generalize (if part.stage = .resultReader ∧ !part.quotaTransport then drainReader look part else part) = drained at hdrain ⊢
  dsimp only
  split
  · exact hdrain
  · split
    · exact hdrain.trans (observeReader_seen look _ _)
    · exact hdrain

/-- The handle, the flags of its parts' pipes apart. -/
structure Seen (h h' : Handle) : Prop where
  three : h'.three = h.three
  bootstrap : h.bootstrap.Seen h'.bootstrap
  helper : Option.Rel Part.Seen h.helper h'.helper
  resultReader : Option.Rel Part.Seen h.resultReader h'.resultReader
  helperAttempted : h'.helperAttempted = h.helperAttempted
  readerAttempted : h'.readerAttempted = h.readerAttempted
  transitionError : h'.transitionError = h.transitionError
  readerError : h'.readerError = h.readerError
  refusals : h'.refusals = h.refusals

theorem seen_option (part : Option Part) : Option.Rel Part.Seen part part := by
  cases part with
  | none => exact .none
  | some part => exact .some (.refl part)

theorem seen_observed (look : Look) (part : Option Part) :
    Option.Rel Part.Seen part (part.map fun part => (observe look part).2) := by
  cases part with
  | none => exact .none
  | some part => exact .some (observe_seen look part)

/-! ## Refusals that are recorded -/

/-- The class of the exception, and where it was raised, are such that the handle records it. -/
def Refusal.recorded (r : Refusal) : Bool :=
  !r.registered ||
  match r.exc with
  | .runner code | .job code => r.stage ≠ .resultReader || code ≠ ""
  | .os => r.guarded
  | .other => false

/-- What `deliver_stage` raises for it. -/
def Refusal.raised (r : Refusal) : Exc := wrapped (if r.guarded then guardWrapped r.exc else r.exc)

theorem Refusal.recorded_iff {r : Refusal} : r.recorded = true ↔
    r.registered = true → ∃ code, r.raised = .runner code ∧ (r.stage = .resultReader → code ≠ "") := by
  obtain ⟨stage, registered, guarded, exc⟩ := r
  cases registered <;> cases guarded <;> cases exc <;>
    simp [Refusal.recorded, Refusal.raised, wrapped, guardWrapped, Decidable.imp_iff_not_or]

/-- A part that was registered and not delivered. -/
structure Blank (stage : Stage) (part : Part) : Prop where
  stage : part.stage = stage
  undelivered : part.deliveryAttempted = false
  unlaunched : part.launched = false
  uncancelled : part.cancelBeforeLaunch = false

theorem Blank.seen {stage : Stage} {part part' : Part} (h : Blank stage part) (hseen : part.Seen part') : Blank stage part' := by
  obtain ⟨_, _, rfl⟩ := hseen
  exact ⟨h.stage, h.undelivered, h.unlaunched, h.uncancelled⟩

/-- A part that an exit can be observed of. -/
structure Observable (stage : Stage) (part : Part) : Prop where
  stage : part.stage = stage
  reader : part.reader = false
  launched : part.launched = true
  uncancelled : part.cancelBeforeLaunch = false

theorem Observable.seen {stage : Stage} {part part' : Part} (h : Observable stage part) (hseen : part.Seen part') :
    Observable stage part' := by
  obtain ⟨_, _, rfl⟩ := hseen
  exact ⟨h.stage, h.reader, h.launched, h.uncancelled⟩

/-- After a helper's refusal that is recorded, and after a reader's. -/
def Settled (h : Handle) : Stage → Prop
  | .bootstrap => False
  | .helper => h.helperAttempted = true ∧ ∀ part ∈ h.helper, part.deliveryAttempted = false ∧ h.transitionError.isSome
  | .resultReader => h.readerAttempted = true ∧ ∀ part ∈ h.resultReader, part.deliveryAttempted = false ∧ truthy h.readerError

/-- After a refusal that is not. -/
def Stuck (h : Handle) : Stage → Prop
  | .bootstrap => False
  | .helper => Observable .bootstrap h.bootstrap ∧ h.transitionError = none ∧ ∃ part, h.helper = some part ∧ Blank .helper part
  | .resultReader => h.three = true ∧ Observable .bootstrap h.bootstrap ∧ (∃ part, h.helper = some part ∧ Observable .helper part ∧ (h.transitionError.isSome → part.deliveryAttempted = true)) ∧
      ¬truthy h.readerError ∧ ∃ part, h.resultReader = some part ∧ Blank .resultReader part

theorem rel_some {part' : Option Part} {part : Part} (h : Option.Rel Part.Seen (some part) part') :
    ∃ p, part' = some p ∧ part.Seen p := by
  cases h with
  | some h => exact ⟨_, rfl, h⟩

theorem rel_some_right {part : Option Part} {part' : Part} (h : Option.Rel Part.Seen part (some part')) :
    ∃ p, part = some p ∧ p.Seen part' := by
  cases h with
  | some h => exact ⟨_, rfl, h⟩

theorem Part.Seen.deliveryAttempted {part part' : Part} (h : part.Seen part') : part'.deliveryAttempted = part.deliveryAttempted := by
  obtain ⟨_, _, rfl⟩ := h
  rfl

theorem Settled.seen {h h' : Handle} {stage : Stage} (hs : Settled h stage) (hseen : Seen h h') : Settled h' stage := by
  cases stage with
  | bootstrap => exact hs
  | helper =>
    refine ⟨hseen.helperAttempted ▸ hs.1, fun part' hpart => ?_⟩
    obtain ⟨part, hh, hp⟩ := rel_some_right (Option.mem_def.mp hpart ▸ hseen.helper)
    have := hs.2 part hh
    exact ⟨hp.deliveryAttempted ▸ this.1, hseen.transitionError ▸ this.2⟩
  | resultReader =>
    refine ⟨hseen.readerAttempted ▸ hs.1, fun part' hpart => ?_⟩
    obtain ⟨part, hh, hp⟩ := rel_some_right (Option.mem_def.mp hpart ▸ hseen.resultReader)
    have := hs.2 part hh
    exact ⟨hp.deliveryAttempted ▸ this.1, hseen.readerError ▸ this.2⟩

theorem Stuck.seen {h h' : Handle} {stage : Stage} (hs : Stuck h stage) (hseen : Seen h h') : Stuck h' stage := by
  cases stage with
  | bootstrap => exact hs
  | helper =>
    obtain ⟨hboot, herror, part, hh, hblank⟩ := hs
    obtain ⟨part', hh', hp⟩ := rel_some (hh ▸ hseen.helper)
    exact ⟨hboot.seen hseen.bootstrap, hseen.transitionError.trans herror, part', hh', hblank.seen hp⟩
  | resultReader =>
    obtain ⟨hthree, hboot, ⟨helper, hh, hobs, hdelivered⟩, herror, part, hr, hblank⟩ := hs
    obtain ⟨helper', hh', hp⟩ := rel_some (hh ▸ hseen.helper)
    obtain ⟨part', hr', hq⟩ := rel_some (hr ▸ hseen.resultReader)
    refine ⟨hseen.three.trans hthree, hboot.seen hseen.bootstrap, ⟨helper', hh', hobs.seen hp, ?_⟩, ?_, part', hr', hblank.seen hq⟩
    · rw [hseen.transitionError, hp.deliveryAttempted]
      exact hdelivered
    · rw [hseen.readerError]
      exact herror

/-! ## One delivery -/

/-- What a delivery leaves: the part accepted, or an exception after the launch was begun, or before
the part was registered, or between the two. -/
inductive Delivered (h : Handle) (stage : Stage) : Except Exc Part × Handle → Prop where
  | accepted (part : Part) : part.stage = stage → (stage ≠ .resultReader → part.reader = false) →
      Delivered h stage (.ok part, h.register stage part)
  | attempted (part : Part) (e : Exc) : part.stage = stage → (stage ≠ .resultReader → part.reader = false) →
      part.deliveryAttempted = true → Delivered h stage (.error e, h.register stage part)
  | refused (r : Refusal) : r.stage = stage → r.registered = false → Delivered h stage (.error r.raised, h.note r)
  | stranded (r : Refusal) (part : Part) : r.stage = stage → r.registered = true → Blank stage part →
      (stage ≠ .resultReader → part.reader = false) → Delivered h stage (.error r.raised, (h.register stage part).note r)

theorem register_register (h : Handle) (stage : Stage) (part part' : Part) :
    (h.register stage part).register stage part' = h.register stage part' := by
  cases stage <;> rfl

/-- The part that `prepare` gives or leaves is blank. -/
theorem prepare_blank (d : Delivery) (fullCapture : Bool) (stage : Stage) :
    match prepare d fullCapture stage with
    | .error (none, _) => True
    | .error (some part, _) | .ok part => Blank stage part ∧ (stage ≠ .resultReader → part.reader = false) := by
  have hblank : ∀ quota reader, Blank stage { newStage stage with quotaTransport := quota, reader } :=
    fun _ _ => ⟨rfl, rfl, rfl, rfl⟩
  unfold prepare
  cases d.early with
  | some e => trivial
  | none =>
    cases d.properties with
    | some e => exact ⟨hblank false false, fun _ => rfl⟩
    | none =>
      cases d.command with
      | some e => exact ⟨hblank fullCapture false, fun _ => rfl⟩
      | none =>
        cases d.late with
        | some e => exact ⟨hblank fullCapture _, fun hne => by simp [hne]⟩
        | none => exact ⟨hblank fullCapture _, fun hne => by simp [hne]⟩

theorem deliver_kept (guard : Guard) (cancelled : Bool) (part : Part) :
    (deliver guard cancelled part).stage = part.stage ∧ (deliver guard cancelled part).reader = part.reader ∧
      ((deliver guard cancelled part).deliveryAttempted = false → deliver guard cancelled part = part ∨ part.deliveryAttempted = true) := by
  unfold deliver
  split <;> simp

theorem deliverStage_delivered (d : Delivery) (h : Handle) (stage : Stage) : Delivered h stage (deliverStage d h stage) := by
  have hprepare := prepare_blank d h.fullCapture stage
  unfold deliverStage
  match hp : prepare d h.fullCapture stage with
  | .error (none, e) => exact .refused ⟨stage, false, false, e⟩ rfl rfl
  | .error (some part, e) =>
    rw [hp] at hprepare
    exact .stranded ⟨stage, true, false, e⟩ part rfl rfl hprepare.1 hprepare.2
  | .ok part =>
    rw [hp] at hprepare
    obtain ⟨hblank, hreader⟩ := hprepare
    obtain ⟨hstage, hkept, hundelivered⟩ := deliver_kept d.guard h.cancelled part
    have hstage' := hstage.trans hblank.stage
    have hreader' : stage ≠ .resultReader → (deliver d.guard h.cancelled part).reader = false := fun hne => hkept.trans (hreader hne)
    dsimp only
    match d.guard.outcome with
    | .ok true => exact .accepted _ hstage' hreader'
    | .ok false =>
      dsimp only
      split
      · exact .attempted _ _ hstage' hreader' ‹_›
      · rw [register_register]
        exact .accepted _ hstage' hreader'
    | .error e =>
      dsimp only
      split
      · exact .attempted _ _ hstage' hreader' ‹_›
      · rename_i hattempted
        rcases hundelivered (by simpa using hattempted) with hsame | hfalse
        · rw [hsame]
          exact .stranded ⟨stage, true, true, e⟩ part rfl rfl hblank hreader
        · rw [hblank.undelivered] at hfalse
          exact absurd hfalse (by simp)

/-! ## What an observation shows of a part -/

/-- A look that sees `proof` if the part can be observed at all. -/
def lookAt (proof : Proof) : Look := ⟨none, .ok proof, true, true, .ok proof, none, none, none, none, true, none, none⟩

theorem observe_plain {part : Part} (look : Look) (hstage : part.stage ≠ .resultReader) (hreader : part.reader = false) :
    (∃ e, inspectUnit look part = .error e ∧ observe look part = (unknown "original stage observation is uncertain", part)) ∨
      ∃ proof, inspectUnit look part = .ok proof ∧ observe look part = (proof, part) := by
  cases hi : inspectUnit look part with
  | error e => exact .inl ⟨e, rfl, by simp [observe, hstage, hi]⟩
  | ok proof => exact .inr ⟨proof, rfl, by simp [observe, hstage, hi, hreader]⟩

theorem unknown_blocked (reason : String) : (unknown reason).blocked = false := rfl

theorem inspectUnit_cancelled {look : Look} {part : Part} {proof : Proof} (hcancel : part.cancelBeforeLaunch = true)
    (h : inspectUnit look part = .ok proof) : proof = prevented := by
  unfold inspectUnit at h
  split at h
  · cases h
  · rw [if_pos hcancel] at h
    split at h <;> cases h
    rfl

theorem inspectUnit_unlaunched {look : Look} {part : Part} {proof : Proof} (hstage : part.stage ≠ .resultReader)
    (huncancelled : part.cancelBeforeLaunch = false) (hlaunched : part.launched = false) (h : inspectUnit look part = .ok proof) :
    ∃ reason, proof = unknown reason := by
  unfold inspectUnit at h
  split at h
  · cases h
  · simp only [huncancelled, hlaunched] at h
    by_cases hq : part.quotaTransport <;> by_cases hb : look.sameBoot <;> simp [hq, hb, hstage] at h
    · exact ⟨_, h.symm⟩
    · exact ⟨_, h.symm⟩

/-- A bootstrap or a helper that was not launched is never observed exited, unless its launch was refused. -/
theorem observe_unlaunched {part : Part} (look : Look) (hstage : part.stage ≠ .resultReader) (hreader : part.reader = false)
    (huncancelled : part.cancelBeforeLaunch = false) (hlaunched : part.launched = false) :
    ∃ reason, observe look part = (unknown reason, part) := by
  rcases observe_plain look hstage hreader with ⟨e, -, ho⟩ | ⟨proof, hi, ho⟩
  · exact ⟨_, ho⟩
  · obtain ⟨reason, rfl⟩ := inspectUnit_unlaunched hstage huncancelled hlaunched hi
    exact ⟨reason, ho⟩

theorem observable_of_blocked {look : Look} {part : Part} {stage : Stage} (hne : stage ≠ .resultReader) (hstage : part.stage = stage)
    (hreader : part.reader = false) (hblocked : (observe look part).1.blocked) (huncancelled : part.cancelBeforeLaunch = false) :
    Observable stage part := by
  refine ⟨hstage, hreader, ?_, huncancelled⟩
  cases hlaunched : part.launched with
  | true => rfl
  | false =>
    obtain ⟨reason, ho⟩ := observe_unlaunched look (hstage ▸ hne) hreader huncancelled hlaunched
    rw [ho] at hblocked
    cases hblocked

/-- The proof of a refused launch does not say that the roots are prepared. -/
theorem uncancelled_of_prepared {look : Look} {part : Part} (hstage : part.stage ≠ .resultReader) (hreader : part.reader = false)
    (hprepared : (observe look part).1.result.bootstrapPrepared) : part.cancelBeforeLaunch = false := by
  cases hcancel : part.cancelBeforeLaunch with
  | false => rfl
  | true =>
    rcases observe_plain look hstage hreader with ⟨e, -, ho⟩ | ⟨proof, hi, ho⟩
    · rw [ho] at hprepared
      cases hprepared
    · rw [ho, inspectUnit_cancelled hcancel hi] at hprepared
      cases hprepared

theorem observe_lookAt {stage : Stage} {part : Part} (h : Observable stage part) (hne : stage ≠ .resultReader) (proof : Proof) :
    observe (lookAt proof) part = (proof, part) := by
  have hstage : part.stage ≠ .resultReader := h.stage ▸ hne
  have hi : inspectUnit (lookAt proof) part = .ok proof := by
    simp [inspectUnit, lookAt, h.uncancelled, h.launched]
  simp [observe, hstage, hi, h.reader]

/-- Nor is a reader, where the manager knows no unit of its name. -/
theorem observe_blank_reader {part : Part} (h : Blank .resultReader part) (reason : String) :
    ∃ reason' part', observe (lookAt (unknown reason)) part = (unknown reason', part') := by
  have hdrain : drainReader (lookAt (unknown reason)) part = part := by simp [drainReader, h.unlaunched]
  have hinspect : (∃ e, inspectUnit (lookAt (unknown reason)) part = .error e) ∨
      inspectUnit (lookAt (unknown reason)) part = .ok (unknown reason) := by
    by_cases hq : part.quotaTransport <;> simp [inspectUnit, lookAt, h.uncancelled, h.unlaunched, h.stage, hq]
  unfold observe
  rw [hdrain]
  simp only [ite_self]
  rcases hinspect with ⟨e, he⟩ | hok
  · exact ⟨_, _, by rw [he]⟩
  · rw [hok]
    dsimp only
    split
    · exact ⟨reason, _, rfl⟩
    · exact ⟨_, _, rfl⟩

/-! ## The invariant of a run -/

/-- A refusal has left the handle settled or stuck. -/
def Accounted (h : Handle) (r : Refusal) : Prop := if r.recorded then Settled h r.stage else Stuck h r.stage

structure Inv (base : List Refusal) (h : Handle) : Prop where
  kept : ∀ r ∈ base, r ∈ h.refusals
  bootstrap : h.bootstrap.stage = .bootstrap ∧ h.bootstrap.reader = false
  helper : ∀ part ∈ h.helper, part.stage = .helper ∧ part.reader = false
  unread : h.readerAttempted = false → h.readerError = none
  refusals : ∀ r ∈ h.refusals, Accounted h r

theorem Fresh.inv {h : Handle} (fresh : Fresh h) : Inv [] h where
  kept := by simp
  bootstrap := ⟨fresh.stage, fresh.reader⟩
  helper := by simp [fresh.helper]
  unread _ := fresh.readerError
  refusals := by simp [fresh.refusals]

theorem Accounted.map {h h' : Handle} {r : Refusal} (ha : Accounted h r) (hsettled : Settled h r.stage → Settled h' r.stage)
    (hstuck : Stuck h r.stage → Stuck h' r.stage) : Accounted h' r := by
  unfold Accounted at ha ⊢
  split
  · rw [if_pos ‹_›] at ha
    exact hsettled ha
  · rw [if_neg ‹_›] at ha
    exact hstuck ha

variable {base : List Refusal}

theorem Inv.seen {h h' : Handle} (hi : Inv base h) (hseen : Seen h h') : Inv base h' where
  kept := by
    rw [hseen.refusals]
    exact hi.kept
  bootstrap := by
    obtain ⟨_, _, hb⟩ := hseen.bootstrap
    rw [hb]
    exact hi.bootstrap
  helper part' hpart := by
    obtain ⟨part, hh, _, _, rfl⟩ := rel_some_right (Option.mem_def.mp hpart ▸ hseen.helper)
    exact hi.helper part hh
  unread := by
    rw [hseen.readerAttempted, hseen.readerError]
    exact hi.unread
  refusals := by
    rw [hseen.refusals]
    exact fun r hr => (hi.refusals r hr).map (·.seen hseen) (·.seen hseen)

theorem seen_bootstrap (look : Look) (h : Handle) : Seen h { h with bootstrap := (observe look h.bootstrap).2 } :=
  ⟨rfl, observe_seen look _, seen_option _, seen_option _, rfl, rfl, rfl, rfl, rfl⟩

theorem seen_helper {h : Handle} {part part' : Part} (hpart : h.helper = some part) (hseen : part.Seen part') :
    Seen h { h with helper := some part' } :=
  ⟨rfl, .refl _, hpart ▸ .some hseen, seen_option _, rfl, rfl, rfl, rfl, rfl⟩

theorem seen_reader {h : Handle} {part part' : Part} (hpart : h.resultReader = some part) (hseen : part.Seen part') :
    Seen h { h with resultReader := some part' } :=
  ⟨rfl, .refl _, seen_option _, hpart ▸ .some hseen, rfl, rfl, rfl, rfl, rfl⟩

/-- A delivered reader is only observed. -/
theorem readResult_inv {tick : Tick} {h : Handle} {part : Part} (hi : Inv base h) (hpart : h.resultReader = some part) (helperProof : Proof) :
    Inv base (readResult tick h helperProof part).2 := by
  have hobserved := observe_seen tick.resultReader part
  have hfinished := hobserved.trans (finishReaderTransport_seen tick.resultReader _)
  unfold readResult
  split
  · exact hi
  · dsimp only
    split
    · exact hi.seen (seen_reader hpart hobserved)
    · split
      · exact hi.seen (seen_reader hpart hobserved)
      · split
        · exact hi.seen (seen_reader hpart hfinished)
        · split
          · exact hi.seen (seen_reader hpart hfinished)
          · split <;> exact hi.seen (seen_reader hpart hfinished)

/-- What a delivery of the reader does is no matter of the refusals there were. -/
theorem Accounted.reader_delivered {h k : Handle} {r : Refusal} (ha : Accounted h r) (hnone : h.resultReader = none)
    (hfirst : h.readerAttempted = false) (hbootstrap : k.bootstrap = h.bootstrap) (hhelper : k.helper = h.helper)
    (hattempted : k.helperAttempted = h.helperAttempted) (herror : k.transitionError = h.transitionError) : Accounted k r := by
  refine ha.map (fun hs => ?_) (fun hs => ?_)
  · cases hstage : r.stage with
    | bootstrap => simp [hstage, Settled] at hs
    | helper => simpa [hstage, Settled, hhelper, hattempted, herror] using hs
    | resultReader => simp [hstage, Settled, hfirst] at hs
  · cases hstage : r.stage with
    | bootstrap => simp [hstage, Stuck] at hs
    | helper => simpa [hstage, Stuck, hhelper, hbootstrap, herror] using hs
    | resultReader => simp [hstage, Stuck, hnone] at hs

theorem Accounted.helper_delivered {h k : Handle} {r : Refusal} (ha : Accounted h r) (hnone : h.helper = none)
    (hfirst : h.helperAttempted = false) (hreader : k.resultReader = h.resultReader)
    (hattempted : k.readerAttempted = h.readerAttempted) (herror : k.readerError = h.readerError) : Accounted k r := by
  refine ha.map (fun hs => ?_) (fun hs => ?_)
  · cases hstage : r.stage with
    | bootstrap => simp [hstage, Settled] at hs
    | helper => simp [hstage, Settled, hfirst] at hs
    | resultReader => simpa [hstage, Settled, hreader, hattempted, herror] using hs
  · cases hstage : r.stage with
    | bootstrap => simp [hstage, Stuck] at hs
    | helper => simp [hstage, Stuck, hnone] at hs
    | resultReader => simp [hstage, Stuck, hnone] at hs

/-- The stages before the reader are such that an exit can be observed. -/
structure ReaderReady (h : Handle) : Prop where
  three : h.three = true
  bootstrap : Observable .bootstrap h.bootstrap
  helper : ∃ part, h.helper = some part ∧ Observable .helper part ∧ (h.transitionError.isSome → part.deliveryAttempted = true)

/-- The handle after the reader's delivery raised `e`. -/
def Handle.readerRaised (h : Handle) (e : Exc) : Handle :=
  { h with readerError := match e with
    | .runner code => some code
    | _ => h.readerError }

def Handle.helperRaised (h : Handle) (e : Exc) : Handle :=
  { h with transitionError := match e with
    | .runner code => some code
    | _ => h.transitionError }

theorem readerRaised_error {h : Handle} {e : Exc} (hnone : h.readerError = none) :
    truthy (h.readerRaised e).readerError ↔ ∃ code, e = .runner code ∧ code ≠ "" := by
  cases e <;> simp [Handle.readerRaised, truthy, hnone]

theorem helperRaised_error {h : Handle} {e : Exc} (hnone : h.transitionError = none) :
    (h.helperRaised e).transitionError.isSome ↔ ∃ code, e = .runner code := by
  cases e <;> simp [Handle.helperRaised, hnone]

section

variable {h : Handle} (hi : Inv base h)

include hi

/-- A reader's delivery that raised leaves its refusal accounted for. -/
theorem reader_raised (ready : ReaderReady h) (hnone : h.resultReader = none) (hfirst : h.readerAttempted = false) {e : Exc} {k : Handle}
    (hd : Delivered { h with readerAttempted := true } .resultReader (.error e, k)) : Inv base (k.readerRaised e) := by
  have hold : ∀ r ∈ h.refusals, Accounted (k.readerRaised e) r := by
    intro r hr
    apply (hi.refusals r hr).reader_delivered hnone hfirst <;> cases hd <;> rfl
  have hnew : ∀ r ∈ k.refusals, r ∈ h.refusals ∨ Accounted (k.readerRaised e) r := by
    intro r hr
    cases hd with
    | attempted part e => exact .inl hr
    | refused r' hstage hregistered =>
      rcases List.mem_append.mp hr with hr | hr
      · exact .inl hr
      · rw [List.mem_singleton.mp hr]
        have hrecorded : r'.recorded = true := by simp [Refusal.recorded, hregistered]
        exact .inr (by simp [Accounted, hrecorded, hstage, Settled, Handle.readerRaised, Handle.note, hnone])
    | stranded r' part hstage hregistered hblank hreader =>
      rcases List.mem_append.mp hr with hr | hr
      · exact .inl hr
      · rw [List.mem_singleton.mp hr]
        refine .inr ?_
        have herror := readerRaised_error (h := ({ h with readerAttempted := true }.register .resultReader part).note r') (e := r'.raised) (hi.unread hfirst)
        have hiff : r'.recorded = true ↔ ∃ code, r'.raised = .runner code ∧ code ≠ "" := by
          simp [Refusal.recorded_iff, hregistered, hstage]
        unfold Accounted
        rw [hstage]
        split
        · refine ⟨rfl, fun part' hpart => ?_⟩
          cases hpart
          exact ⟨hblank.undelivered, herror.mpr (hiff.mp ‹_›)⟩
        · exact ⟨ready.three, ready.bootstrap, ready.helper, fun ht => absurd (hiff.mpr (herror.mp ht)) ‹_›, part, rfl, hblank⟩
  refine ⟨fun r hr => ?_, ?_, ?_, ?_, fun r hr => (hnew r hr).elim (hold r) id⟩
  · have hr := hi.kept r hr
    cases hd with
    | attempted => exact hr
    | _ => exact List.mem_append_left _ hr
  · cases hd <;> exact hi.bootstrap
  · cases hd <;> exact hi.helper
  · cases hd <;> exact nofun

/-- And a helper's. -/
theorem helper_raised (ready : Observable .bootstrap h.bootstrap) (hnone : h.helper = none) (hfirst : h.helperAttempted = false)
    (herror : h.transitionError = none) {e : Exc} {k : Handle}
    (hd : Delivered { h with helperAttempted := true } .helper (.error e, k)) : Inv base (k.helperRaised e) := by
  have hold : ∀ r ∈ h.refusals, Accounted (k.helperRaised e) r := by
    intro r hr
    apply (hi.refusals r hr).helper_delivered hnone hfirst <;> cases hd <;> rfl
  have hnew : ∀ r ∈ k.refusals, r ∈ h.refusals ∨ Accounted (k.helperRaised e) r := by
    intro r hr
    cases hd with
    | attempted part e => exact .inl hr
    | refused r' hstage hregistered =>
      rcases List.mem_append.mp hr with hr | hr
      · exact .inl hr
      · rw [List.mem_singleton.mp hr]
        have hrecorded : r'.recorded = true := by simp [Refusal.recorded, hregistered]
        exact .inr (by simp [Accounted, hrecorded, hstage, Settled, Handle.helperRaised, Handle.note, hnone])
    | stranded r' part hstage hregistered hblank hreader =>
      rcases List.mem_append.mp hr with hr | hr
      · exact .inl hr
      · rw [List.mem_singleton.mp hr]
        refine .inr ?_
        have hsome := helperRaised_error (h := ({ h with helperAttempted := true }.register .helper part).note r') (e := r'.raised) herror
        have hiff : r'.recorded = true ↔ ∃ code, r'.raised = .runner code := by
          simp [Refusal.recorded_iff, hregistered, hstage]
        unfold Accounted
        rw [hstage]
        split
        · refine ⟨rfl, fun part' hpart => ?_⟩
          cases hpart
          exact ⟨hblank.undelivered, hsome.mpr (hiff.mp ‹_›)⟩
        · refine ⟨ready, Option.not_isSome_iff_eq_none.mp fun ht => absurd (hiff.mpr (hsome.mp ht)) ‹_›, part, rfl, hblank⟩
  refine ⟨fun r hr => ?_, ?_, ?_, ?_, fun r hr => (hnew r hr).elim (hold r) id⟩
  · have hr := hi.kept r hr
    cases hd with
    | attempted => exact hr
    | _ => exact List.mem_append_left _ hr
  · cases hd <;> exact hi.bootstrap
  · cases hd with
    | attempted part e hstage hreader => exact fun part' hpart => by cases hpart; exact ⟨hstage, hreader nofun⟩
    | refused => exact hi.helper
    | stranded r part hstage hregistered hblank hreader => exact fun part' hpart => by cases hpart; exact ⟨hblank.stage, hreader nofun⟩
  · cases hd <;> exact hi.unread

theorem reader_accepted (hnone : h.resultReader = none) (hfirst : h.readerAttempted = false) {part : Part} {k : Handle}
    (hd : Delivered { h with readerAttempted := true } .resultReader (.ok part, k)) : Inv base k ∧ k.resultReader = some part := by
  cases hd with
  | accepted hstage hreader =>
    exact ⟨⟨hi.kept, hi.bootstrap, hi.helper, nofun, fun r hr => (hi.refusals r hr).reader_delivered hnone hfirst rfl rfl rfl rfl⟩, rfl⟩

theorem helper_accepted (hnone : h.helper = none) (hfirst : h.helperAttempted = false) {part : Part} {k : Handle}
    (hd : Delivered { h with helperAttempted := true } .helper (.ok part, k)) :
    Inv base k ∧ k.helper = some part ∧ k.bootstrap = h.bootstrap ∧ k.transitionError = h.transitionError := by
  cases hd with
  | accepted part hstage hreader =>
    refine ⟨⟨hi.kept, hi.bootstrap, fun part' hpart => ?_, hi.unread, fun r hr => (hi.refusals r hr).helper_delivered hnone hfirst rfl rfl rfl⟩, rfl, rfl, rfl⟩
    cases hpart
    exact ⟨hstage, hreader nofun⟩

end

/-! ## A tick keeps the invariant -/

theorem inspectResultReader_inv {tick : Tick} {h : Handle} (hi : Inv base h) {helperProof : Proof} (ready : helperProof.stageExited → ReaderReady h) :
    Inv base (inspectResultReader tick h helperProof).2 := by
  unfold inspectResultReader
  split
  · exact hi.seen ⟨rfl, .refl _, seen_option _, seen_observed _ _, rfl, rfl, rfl, rfl, rfl⟩
  · rename_i hexited
    have hexited : helperProof.stageExited = true := by simpa using hexited
    split
    · rename_i part hpart
      split
      · exact hi
      · exact readResult_inv hi hpart helperProof
    · rename_i hnone
      split
      · exact hi
      · split
        · exact hi
        · rename_i hfirst
          have hfirst : h.readerAttempted = false := by simpa using hfirst
          have hd := deliverStage_delivered tick.readerDelivery { h with readerAttempted := true } .resultReader
          split
          · rename_i part k hk
            rw [hk] at hd
            obtain ⟨hik, hpart⟩ := reader_accepted hi hnone hfirst hd
            exact readResult_inv hik hpart helperProof
          · rename_i code k hk
            rw [hk] at hd
            have hik := reader_raised hi (ready hexited) hnone hfirst hd
            dsimp only
            split <;> exact hik
          · rename_i e k hnot hk
            rw [hk] at hd
            have hik := reader_raised hi (ready hexited) hnone hfirst hd
            cases e with
            | runner code => exact absurd rfl (hnot code)
            | _ => exact hik

theorem exited_blocked {proof : Proof} (h : proof.stageExited = true) : proof.blocked = true := by
  simp only [Proof.stageExited, Bool.and_eq_true] at h
  exact h.1.1

theorem inspectHelper_inv {tick : Tick} {h : Handle} (hi : Inv base h) (ready : Observable .bootstrap h.bootstrap) (first : Proof)
    {part : Part} (hpart : h.helper = some part) (hdelivered : h.transitionError.isSome → part.deliveryAttempted = true) :
    Inv base (inspectHelper tick h first part).2 := by
  have hobserved := observe_seen tick.helper part
  have hseen := hi.seen (seen_helper hpart hobserved)
  obtain ⟨hstage, hreader⟩ := hi.helper part hpart
  unfold inspectHelper
  dsimp only
  split
  · exact hseen
  · rename_i hcancel
    split
    · rename_i hthree
      refine inspectResultReader_inv hseen fun hexited => ⟨hthree, ready, _, rfl, ?_, hobserved.deliveryAttempted ▸ hdelivered⟩
      have huncancelled : part.cancelBeforeLaunch = false := by
        obtain ⟨_, _, heq⟩ := hobserved
        rw [heq] at hcancel
        simpa using hcancel
      have hne : Stage.helper ≠ .resultReader := nofun
      exact (observable_of_blocked hne hstage hreader (exited_blocked hexited) huncancelled).seen hobserved
    · exact hseen

theorem afterBootstrap_inv {tick : Tick} {h : Handle} (hi : Inv base h) (ready : Observable .bootstrap h.bootstrap) (first : Proof) :
    Inv base (afterBootstrap tick h first).2 := by
  unfold afterBootstrap
  split
  · exact hi
  · rename_i hpending
    split
    · rename_i part hpart
      exact inspectHelper_inv hi ready first hpart fun hsome => by simpa [hpart, hsome] using hpending
    · rename_i hnone
      have herror : h.transitionError = none := by simpa [hnone] using hpending
      split
      · exact hi
      · split
        · exact hi
        · rename_i hfirst
          have hfirst : h.helperAttempted = false := by simpa using hfirst
          have hd := deliverStage_delivered tick.helperDelivery { h with helperAttempted := true } .helper
          split
          · rename_i part k hk
            rw [hk] at hd
            obtain ⟨hik, hpart, hboot, hsame⟩ := helper_accepted hi hnone hfirst hd
            exact inspectHelper_inv hik (hboot ▸ ready) first hpart fun hsome => by simp [hsame, herror] at hsome
          · rename_i code k hk
            rw [hk] at hd
            have hik := helper_raised hi ready hnone hfirst herror hd
            dsimp only
            split <;> exact hik
          · rename_i e k hnot hk
            rw [hk] at hd
            have hik := helper_raised hi ready hnone hfirst herror hd
            cases e with
            | runner code => exact absurd rfl (hnot code)
            | _ => exact hik

theorem inspect_inv {tick : Tick} {h : Handle} (hi : Inv base h) : Inv base (inspect tick h).2 := by
  have hobserved := observe_seen tick.bootstrap h.bootstrap
  have hseen := hi.seen (seen_bootstrap tick.bootstrap h)
  obtain ⟨hstage, hreader⟩ := hi.bootstrap
  unfold inspect
  split
  · exact hi
  · dsimp only
    split
    · exact hi.seen ⟨rfl, hobserved, seen_observed _ _, seen_observed _ _, rfl, rfl, rfl, rfl, rfl⟩
    · rename_i hblocked
      split
      · exact hseen
      · rename_i hprepared
        have hne : h.bootstrap.stage ≠ .resultReader := by simp [hstage]
        have huncancelled := uncancelled_of_prepared hne hreader (by simpa using hprepared)
        have hobservable : Observable .bootstrap h.bootstrap :=
          observable_of_blocked nofun hstage hreader (by simpa using hblocked) huncancelled
        exact afterBootstrap_inv hseen (hobservable.seen hobserved) _

theorem step_inv {h : Handle} (hi : Inv base h) (label : Label) : Inv base (step h label) := by
  cases label with
  | inspect tick => exact inspect_inv hi
  | cancel => exact ⟨hi.kept, hi.bootstrap, hi.helper, hi.unread, fun r hr => (hi.refusals r hr).map
      (·.seen ⟨rfl, .refl _, seen_option _, seen_option _, rfl, rfl, rfl, rfl, rfl⟩)
      (·.seen ⟨rfl, .refl _, seen_option _, seen_option _, rfl, rfl, rfl, rfl, rfl⟩)⟩

/-! ## Later inspections -/

/-- The stages before `stage` are all observed exited by the `inspect`. -/
def EarlierExited (tick : Tick) (h : Handle) : Stage → Prop
  | .bootstrap => tick.binding = none
  | .helper => tick.binding = none ∧ (observe tick.bootstrap h.bootstrap).1.blocked
  | .resultReader => tick.binding = none ∧ (observe tick.bootstrap h.bootstrap).1.blocked ∧
      ∃ part, h.helper = some part ∧ (observe tick.helper part).1.stageExited

/-- An exit is answered. -/
def Exits (answer : Except Exc Proof) : Prop := ∃ proof, answer = .ok proof ∧ proof.blocked

theorem exits_terminal {h : Handle} {proof : Proof} {outcome : String} {error : Option String} (hblocked : proof.blocked = true) :
    Exits (.ok (bootstrapTerminal h proof outcome error)) := ⟨_, rfl, hblocked⟩

theorem inspect_exits {tick : Tick} {h : Handle} (hbinding : tick.binding = none)
    (hblocked : (observe tick.bootstrap h.bootstrap).1.blocked = true)
    (hafter : Exits (afterBootstrap tick { h with bootstrap := (observe tick.bootstrap h.bootstrap).2 }
      (observe tick.bootstrap h.bootstrap).1).1) : Exits (inspect tick h).1 := by
  unfold inspect
  simp only [hbinding, hblocked, Bool.not_true, Bool.false_eq_true, if_false]
  split
  · exact exits_terminal hblocked
  · exact hafter

/-- Where a helper's refusal was recorded, an inspection ends the execution there. -/
theorem helper_exits {tick : Tick} {h : Handle} {first : Proof} (hs : Settled h .helper) (hblocked : first.blocked = true) :
    Exits (afterBootstrap tick h first).1 := by
  obtain ⟨hattempted, hpart⟩ := hs
  unfold afterBootstrap
  split
  · exact exits_terminal hblocked
  · rename_i hpending
    split
    · rename_i part hhelper
      obtain ⟨hundelivered, herror⟩ := hpart part hhelper
      exact absurd (by simp [hhelper, hundelivered, herror]) hpending
    · split <;> exact exits_terminal hblocked

theorem unavailable_exits {tick : Tick} {h : Handle} {helperProof : Proof} (hs : Settled h .resultReader)
    (hexited : helperProof.stageExited = true) : Exits (inspectResultReader tick h helperProof).1 := by
  obtain ⟨hattempted, hpart⟩ := hs
  have hunavailable : ∀ reason, Exits (.ok (unavailableResult helperProof reason)) :=
    fun reason => ⟨_, rfl, exited_blocked hexited⟩
  unfold inspectResultReader
  simp only [hexited, hattempted, Bool.not_true, Bool.false_eq_true, if_false, if_true]
  split
  · rename_i part hreader
    obtain ⟨hundelivered, herror⟩ := hpart part hreader
    simp only [hundelivered, herror, Bool.not_false, Bool.and_self, if_true]
    exact hunavailable _
  · split <;> exact hunavailable _

/-- Where a reader's refusal was recorded, an inspection answers with the helper's exit. -/
theorem reader_exits {tick : Tick} {h : Handle} {first : Proof} (hs : Settled h .resultReader) (hblocked : first.blocked = true)
    {part : Part} (hhelper : h.helper = some part) (hexited : (observe tick.helper part).1.stageExited = true) :
    Exits (afterBootstrap tick h first).1 := by
  unfold afterBootstrap
  split
  · exact exits_terminal hblocked
  · simp only [hhelper]
    unfold inspectHelper
    dsimp only
    split
    · exact exits_terminal hblocked
    · split
      · have hsettled : Settled { h with helper := some (observe tick.helper part).2 } .resultReader := hs
        exact unavailable_exits hsettled hexited
      · exact ⟨_, rfl, exited_blocked hexited⟩

/-- The proof of a unit that exited with its roots prepared. -/
def exitedProof : Proof := ⟨.exited, true, true, true, true, true, some 0, true, false, false, ⟨none, true, false, false, none⟩, []⟩

/-- The bootstrap and the helper have exited, and the manager knows nothing of a reader. -/
def exitedTick : Tick where
  binding := none
  bootstrap := lookAt exitedProof
  helper := lookAt exitedProof
  resultReader := lookAt (unknown "invocation identity missing")
  helperDelivery := ⟨none, none, none, none, ⟨false, false, false, .ok false⟩⟩
  readerDelivery := ⟨none, none, none, none, ⟨false, false, false, .ok false⟩⟩
  stopping := none
  verified := none

theorem inspect_exitedTick {h : Handle} (hboot : Observable .bootstrap h.bootstrap) :
    (observe exitedTick.bootstrap h.bootstrap).1.blocked = true ∧ inspect exitedTick h = afterBootstrap exitedTick h exitedProof := by
  have hfirst : observe exitedTick.bootstrap h.bootstrap = (exitedProof, h.bootstrap) := observe_lookAt hboot nofun exitedProof
  have hbinding : exitedTick.binding = none := rfl
  have hblocked : exitedProof.blocked = true := rfl
  have hprepared : exitedProof.result.bootstrapPrepared = true := rfl
  exact ⟨by rw [hfirst]; rfl, by simp [inspect, hbinding, hfirst, hblocked, hprepared]⟩

/-- A helper that is stuck is unknown whatever exits. -/
theorem helper_stuck {h : Handle} (hi : Inv base h) (hs : Stuck h .helper) :
    EarlierExited exitedTick h .helper ∧ ∃ reason, (inspect exitedTick h).1 = .ok (unknown reason) := by
  obtain ⟨hboot, herror, part, hhelper, hblank⟩ := hs
  obtain ⟨hblocked, hinspect⟩ := inspect_exitedTick hboot
  obtain ⟨reason, hsecond⟩ := observe_unlaunched exitedTick.helper (by simp [hblank.stage]) (hi.helper part hhelper).2
    hblank.uncancelled hblank.unlaunched
  refine ⟨⟨rfl, hblocked⟩, reason, ?_⟩
  rw [hinspect]
  simp only [afterBootstrap, herror, hhelper, inspectHelper, hsecond, hblank.uncancelled]
  cases h.three <;> rfl

/-- A reader that is stuck is unknown as long as the manager knows no unit of its name. -/
theorem reader_stuck {h : Handle} (hs : Stuck h .resultReader) :
    EarlierExited exitedTick h .resultReader ∧ ∃ reason, (inspect exitedTick h).1 = .ok (unknown reason) := by
  obtain ⟨hthree, hboot, ⟨helper, hhelper, hobservable, hdelivered⟩, herror, part, hreader, hblank⟩ := hs
  obtain ⟨hblocked, hinspect⟩ := inspect_exitedTick hboot
  have hsecond : observe exitedTick.helper helper = (exitedProof, helper) := observe_lookAt hobservable nofun exitedProof
  have hexited : exitedProof.stageExited = true := rfl
  obtain ⟨reason, part', hthird⟩ := observe_blank_reader hblank "invocation identity missing"
  refine ⟨⟨rfl, hblocked, helper, hhelper, by rw [hsecond]; exact hexited⟩, reason, ?_⟩
  have hread : ∀ h : Handle, (readResult exitedTick h exitedProof part).1 = .ok (unknown reason) := by
    intro h
    unfold readResult
    have hobserve : observe exitedTick.resultReader part = (unknown reason, part') := hthird
    have hstopping : exitedTick.stopping = none := rfl
    have hunknown : (unknown reason).stageExited = false := rfl
    simp [hblank.uncancelled, hobserve, hstopping, hunknown]
  have hresult : ∀ h : Handle, h.resultReader = some part → ¬truthy h.readerError →
      (inspectResultReader exitedTick h exitedProof).1 = .ok (unknown reason) := by
    intro h hreader herror
    simp only [inspectResultReader, hexited, hreader, herror, Bool.and_false]
    exact hread h
  have hpending : (h.transitionError.isSome && !h.helper.any Part.deliveryAttempted) = false := by
    cases hsome : h.transitionError.isSome
    · rfl
    · simp [hhelper, hdelivered hsome]
  rw [hinspect]
  unfold afterBootstrap
  rw [hpending]
  simp only [hhelper, inspectHelper, hsecond, hobservable.uncancelled, hthree]
  exact hresult _ hreader herror

theorem exec_inv {h : Handle} (hi : Inv base h) (labels : List Label) : Inv base (Machine.exec step h labels) :=
  Machine.exec_inv (I := Inv base) (fun _ label hi => step_inv hi label) hi

/-- The answer to an `inspect` of a stage that was not answered with an exit is `unknown`. -/
theorem unknown_not_exits {reason : String} : ¬Exits (.ok (unknown reason)) := by
  rintro ⟨proof, hproof, hblocked⟩
  cases hproof
  cases hblocked

/-- A helper that failed before it was launched, or a result reader, never strands its execution: once
the stages before it are observed exited every `inspect` answers with an exit. It is so exactly where
the handle records the refusal: the exception is a `RunnerError` or a `JobError` with a code, or an
`OSError` of the start guard, or it came before the part was registered. -/
theorem refusals_exit {h : Handle} (fresh : Fresh h) (labels : List Label) (r : Refusal)
    (hr : r ∈ (Machine.exec step h labels).refusals) :
    (∀ later tick, EarlierExited tick (Machine.exec step h (labels ++ later)) r.stage →
      Exits (inspect tick (Machine.exec step h (labels ++ later))).1) ↔ r.recorded = true := by
  have hi : Inv [r] (Machine.exec step h labels) :=
    { exec_inv fresh.inv labels with kept := by simpa using hr }
  constructor
  · intro hexits
    cases hrecorded : r.recorded with
    | true => rfl
    | false =>
      have hstuck : Stuck (Machine.exec step h labels) r.stage := by
        simpa [Accounted, hrecorded] using hi.refusals r hr
      have hnow := hexits [] exitedTick
      rw [List.append_nil] at hnow
      generalize r.stage = stage at hstuck hnow
      cases stage with
      | bootstrap => exact hstuck.elim
      | helper =>
        obtain ⟨hearlier, reason, hanswer⟩ := helper_stuck hi hstuck
        exact absurd (hanswer ▸ hnow hearlier) unknown_not_exits
      | resultReader =>
        obtain ⟨hearlier, reason, hanswer⟩ := reader_stuck hstuck
        exact absurd (hanswer ▸ hnow hearlier) unknown_not_exits
  · intro hrecorded later tick hearlier
    rw [Machine.exec_append] at hearlier ⊢
    have hlater := exec_inv hi later
    have hsettled : Settled (Machine.exec step (Machine.exec step h labels) later) r.stage := by
      simpa [Accounted, hrecorded] using hlater.refusals r (hlater.kept r (by simp))
    generalize Machine.exec step (Machine.exec step h labels) later = k at *
    generalize r.stage = stage at *
    cases stage with
    | bootstrap => exact hsettled.elim
    | helper =>
      obtain ⟨hbinding, hblocked⟩ := hearlier
      exact inspect_exits hbinding hblocked (helper_exits hsettled hblocked)
    | resultReader =>
      obtain ⟨hbinding, hblocked, part, hhelper, hexited⟩ := hearlier
      exact inspect_exits hbinding hblocked (reader_exits hsettled hblocked hhelper hexited)

/-- A quota execution whose bootstrap was delivered. -/
def quotaHandle : Handle :=
  ⟨true, true, false, ⟨.bootstrap, true, true, false, true, false, none, false⟩, none, none, false, false, none, none, []⟩

theorem quotaHandle_fresh : Fresh quotaHandle := ⟨rfl, rfl, rfl, rfl, rfl, rfl, rfl, rfl, rfl⟩

/-- The durable guard of the helper fails to write. -/
def guardTick : Tick := { exitedTick with helperDelivery := ⟨none, none, none, none, ⟨false, false, false, .error .os⟩⟩ }

theorem refusals_exit_guard : Exits (inspect exitedTick (Machine.exec step quotaHandle [.inspect guardTick])).1 :=
  (refusals_exit quotaHandle_fresh [.inspect guardTick] ⟨.helper, true, true, .os⟩ (by decide)).mpr (by decide) [] exitedTick
    ⟨rfl, by decide⟩

/-- The helper's cgroup parent cannot be opened (`quota_lifecycle.parent`). -/
def parentTick : Tick := { exitedTick with helperDelivery := ⟨none, some .os, none, none, ⟨false, false, false, .ok false⟩⟩ }

/-- After it the helper is unknown at every later `inspect`. -/
theorem helper_stranded : ¬∀ (h : Handle) (labels later : List Label) (r : Refusal) (tick : Tick), Fresh h →
    r ∈ (Machine.exec step h labels).refusals → EarlierExited tick (Machine.exec step h (labels ++ later)) r.stage →
    Exits (inspect tick (Machine.exec step h (labels ++ later))).1 := by
  intro hall
  have hanswer : (inspect exitedTick (Machine.exec step quotaHandle [.inspect parentTick])).1 =
      .ok (unknown "manager start request has not been acknowledged") := rfl
  have hexits := hall quotaHandle [.inspect parentTick] [] ⟨.helper, true, false, .os⟩ exitedTick quotaHandle_fresh (by decide)
    ⟨rfl, by decide⟩
  exact unknown_not_exits (hanswer ▸ hexits)

end LocalHand.ExecutionCore
