/-
What an observation says of the world it is returned in, and what the coordinator's own
writes keep.
-/
import LocalHand.SupervisionOnce

namespace LocalHand.Supervision

open Program

variable {A V : Type} [DecidableEq A] {env : Env A V} {b : Binding A}

/-! ## Facts that last -/

/-- What the children's steps keep. -/
structure Stable (P : World A V → Prop) : Prop where
  advance : ∀ w at', P w → P (advance w at')
  clock : ∀ w k, P w → P { w with clock := k }

omit [DecidableEq A] in
theorem tick_spec {P : World A V → Prop} (hP : Stable P) : Spec P (tick env) (fun _ => P) (fun _ _ => False) := by
  have hmoves (moves : List (Nat × Move V)) : ∀ w, P w → P (moves.foldl advance w) := by
    induction moves with
    | nil => exact fun _ h => h
    | cons m rest ih => exact fun w h => ih _ (hP.advance w m h)
  exact fun w hw => hP.clock _ _ (hmoves _ w hw)

omit [DecidableEq A] in
theorem pass_spec {P : World A V → Prop} (hP : Stable P) : Keeps P (pass env) := by
  refine Spec.bind ((tick_spec hP).weaken (fun _ h => h) (fun _ _ h => h) fun _ _ h => h.elim) fun n => ?_
  split
  · exact Spec.ret fun _ h => h
  · exact Spec.raise fun _ h => h

omit [DecidableEq A] in
theorem demand_spec {P : World A V → Prop} (ok : Bool) : Spec P (demand ok) (fun _ w => P w ∧ ok = true) (fun _ => P) := by
  unfold demand
  split
  · next h => exact Spec.ret fun _ hw => ⟨hw, h⟩
  · exact Spec.raise fun _ hw => hw

theorem Sound.clock {w : World A V} (h : Sound w) (k : Nat) : Sound { w with clock := k } :=
  ⟨h.bound, h.child, h.forked, h.once, h.stage, h.process, h.held, h.refused, h.parent, h.idle, h.performed,
    fun o ho => ⟨(h.observed o ho).1, fun hc => let s := (h.observed o ho).2.1 hc; ⟨s.result, s.events, s.few, s.stops, s.silent, s.refused⟩,
      (h.observed o ho).2.2⟩, h.answered, h.ordered⟩

/-- A world in which an attempt is observed. -/
structure Watched (b : Binding A) (w : World A V) : Prop where
  sound : Sound w
  calm : Calm w
  led : w.coordinator.isSome = true
  recorded : w.recorded b = true

omit [DecidableEq A] in
theorem advance_coordinator (w : World A V) (at' : Nat × Move V) : (advance w at').coordinator = w.coordinator := by
  obtain ⟨n, m⟩ := at'
  rcases advance_cases w n m with he | ⟨c, d, -, -, he⟩ <;> rw [he]
  rfl

omit [DecidableEq A] in
theorem advance_calm {w : World A V} (h : Calm w) (at' : Nat × Move V) : Calm (advance w at') := by
  obtain ⟨n, m⟩ := at'
  rcases advance_cases w n m with he | ⟨c, d, hc, -, he⟩
  · rwa [he]
  · rw [he]
    intro k c' hk
    obtain ⟨old, hold, -, hkilled, -⟩ := moved_child hc hk
    rw [← hkilled]
    exact h k old hold

theorem advance_recorded {w : World A V} (hsound : Sound w) (h : w.recorded b = true) (at' : Nat × Move V) :
    (advance w at').recorded b = true := by
  obtain ⟨n, m⟩ := at'
  rcases advance_cases w n m with he | ⟨c, d, hc, hd, he⟩
  · rwa [he]
  · obtain ⟨old, hold, hbinding⟩ := Sound.recorded_dir h
    obtain ⟨d', hd', hwritten, -⟩ := dir_moved (m := m) hsound hc hd hold
    rw [he]
    simp [World.recorded, hd', hwritten.binding, hbinding]

theorem Watched.stable : Stable (Watched (V := V) b) where
  advance w at' h := ⟨advance_sound h.sound at', advance_calm h.calm at', by rw [advance_coordinator]; exact h.led,
    advance_recorded h.sound h.recorded at'⟩
  clock _ k h := ⟨h.sound.clock k, h.calm, h.led, h.recorded⟩

/-- What lasts while an attempt is observed. -/
structure Lasting (b : Binding A) (F : World A V → Prop) : Prop where
  advance : ∀ w at', Watched b w → F w → F (advance w at')
  clock : ∀ w k, F w → F { w with clock := k }

namespace Lasting

variable {F G : World A V → Prop}

theorem stable (hF : Lasting b F) : Stable fun w => Watched b w ∧ F w where
  advance w at' h := ⟨Watched.stable.advance w at' h.1, hF.advance w at' h.1 h.2⟩
  clock w k h := ⟨Watched.stable.clock w k h.1, hF.clock w k h.2⟩

theorem and (hF : Lasting b F) (hG : Lasting b G) : Lasting b fun w => F w ∧ G w where
  advance w at' h hw := ⟨hF.advance w at' h hw.1, hG.advance w at' h hw.2⟩
  clock w k hw := ⟨hF.clock w k hw.1, hG.clock w k hw.2⟩

theorem all {ι : Sort _} {H : ι → World A V → Prop} (h : ∀ i, Lasting b (H i)) : Lasting b fun w => ∀ i, H i w where
  advance w at' hw hi i := (h i).advance w at' hw (hi i)
  clock w k hi i := (h i).clock w k (hi i)

theorem const (p : Prop) : Lasting (V := V) b fun _ => p := ⟨fun _ _ _ h => h, fun _ _ h => h⟩

theorem imp {p : Prop} (hF : Lasting b F) : Lasting b fun w => p → F w := all fun _ => hF

theorem fits {α : Type} {slot : Dir A V → Slot α} (hslot : ∀ {id d d'}, Written id d d' → (slot d).Next (slot d')) (v : Option α) :
    Lasting b fun w => Fits w b.attempt slot v where
  advance w at' h hw := by
    obtain ⟨n, m⟩ := at'
    rcases advance_cases w n m with he | ⟨c, d, hc, hd, he⟩ <;> rw [he]
    · exact hw
    · exact moved_fits h.sound hc hd hslot (fun _ => h.calm n c hc) hw
  clock _ _ h := h

theorem never : Lasting (V := V) b fun w => NeverForked w b.attempt where
  advance w at' _ hw := by
    obtain ⟨n, m⟩ := at'
    rcases advance_cases w n m with he | ⟨c, d, -, -, he⟩ <;> rw [he]
    · exact hw
    · exact moved_neverForked hw
  clock _ _ h := h

theorem silent : Lasting (V := V) b fun w => NoChild w b.attempt where
  advance w at' _ hw := by
    obtain ⟨n, m⟩ := at'
    rcases advance_cases w n m with he | ⟨c, d, hc, -, he⟩ <;> rw [he]
    · exact hw
    · exact moved_noChild hc hw
  clock _ _ h := h

end Lasting

/-! ## Reading -/

section Reading

variable {F : World A V → Prop}

theorem pass_watched (hF : Lasting b F) : Spec (fun w => Watched b w ∧ F w) (pass env) (fun _ w => Watched b w ∧ F w) (fun _ => Watched b) :=
  (pass_spec hF.stable).weaken (fun _ h => h) (fun _ _ h => h) fun _ _ h => h.1

/-- A record that is read is as it was read for as long as the attempt is observed. -/
theorem readRecord_spec {α : Type} (hF : Lasting b F) {slot : Dir A V → Slot α} :
    Spec (fun w => Watched b w ∧ F w) (readRecord env b.attempt slot) (fun v w => Watched b w ∧ F w ∧ Fits w b.attempt slot v)
      (fun _ => Watched b) := by
  refine Spec.bind (pass_watched hF) fun _ => Spec.bind (Spec.read (Q := fun s w => s = w ∧ Watched b w ∧ F w) fun _ h => ⟨rfl, h⟩) fun s => ?_
  split
  · next hnone =>
    refine Spec.ret fun w h => ?_
    obtain ⟨rfl, hwatched, -⟩ := h
    obtain ⟨d, hd, -⟩ := Sound.recorded_dir hwatched.recorded
    rw [hnone] at hd
    cases hd
  · next d hd =>
    split
    · next hs => exact Spec.ret fun w ⟨he, hwatched, hf⟩ => ⟨hwatched, hf, d, he ▸ hd, .inl hs⟩
    · exact Spec.raise fun w h => h.2.1
    · next v hs => exact Spec.ret fun w ⟨he, hwatched, hf⟩ => ⟨hwatched, hf, d, he ▸ hd, hs⟩

/-- The events read from an index on. -/
structure Listed (w : World A V) (attempt : String) (index more : Nat) (events : List V) : Prop where
  each : ∀ i v, events[i]? = some v → Fits w attempt (fun d => d.events (index + i)) (some v)
  few : events.length ≤ more
  stops : events.length < more → Fits w attempt (fun d => d.events (index + events.length)) none

theorem Lasting.listed (index more : Nat) (events : List V) : Lasting b fun w => Listed w b.attempt index more events := by
  have heach : Lasting (V := V) b fun w => ∀ i v, events[i]? = some v → Fits w b.attempt (fun d => d.events (index + i)) (some v) :=
    .all fun i => .all fun v => (Lasting.fits (fun h => h.events _) _).imp
  have hstops : Lasting (V := V) b fun w => events.length < more → Fits w b.attempt (fun d => d.events (index + events.length)) none :=
    (Lasting.fits (fun h => h.events _) _).imp
  exact ⟨fun w at' h hw => ⟨heach.advance w at' h hw.each, hw.few, hstops.advance w at' h hw.stops⟩,
    fun w k hw => ⟨heach.clock w k hw.each, hw.few, hstops.clock w k hw.stops⟩⟩

theorem readEvents_spec (hF : Lasting b F) (more index : Nat) :
    Spec (fun w => Watched b w ∧ F w) (readEvents env b.attempt more index)
      (fun events w => Watched b w ∧ F w ∧ Listed w b.attempt index more events) (fun _ => Watched b) := by
  induction more generalizing index F with
  | zero => exact Spec.ret fun _ h => ⟨h.1, h.2, by simp, Nat.le_refl 0, fun h => absurd h (Nat.lt_irrefl 0)⟩
  | succ more ih =>
    refine Spec.bind (readRecord_spec hF) fun v => ?_
    cases v with
    | none => exact Spec.ret fun w h => ⟨h.1, h.2.1, by simp, Nat.zero_le _, fun _ => h.2.2⟩
    | some v =>
      have hfirst : Lasting (V := V) b fun w => F w ∧ Fits w b.attempt (fun d => d.events index) (some v) :=
        hF.and (.fits (fun h => h.events _) _)
      refine Spec.bind (ih hfirst (index + 1)) fun rest => Spec.ret fun w h => ?_
      obtain ⟨hwatched, ⟨hf, hv⟩, hrest⟩ := h
      have hplace (i : Nat) : index + 1 + i = index + (i + 1) := by omega
      refine ⟨hwatched, hf, ?_, Nat.succ_le_succ hrest.few, ?_⟩
      · intro i x hx
        cases i with
        | zero => exact (Option.some.inj hx) ▸ hv
        | succ i =>
          have := hrest.each i x hx
          rwa [hplace] at this
      · intro hlen
        have := hrest.stops (Nat.lt_of_succ_lt_succ hlen)
        rwa [hplace] at this

theorem anyEvent_spec (hF : Lasting b F) (more index : Nat) :
    Spec (fun w => Watched b w ∧ F w) (anyEvent env b.attempt more index) (fun _ w => Watched b w ∧ F w) (fun _ => Watched b) := by
  induction more generalizing index with
  | zero => exact Spec.ret fun _ h => h
  | succ more ih =>
    refine Spec.bind (pass_watched hF) fun _ => Spec.bind (Spec.read (Q := fun _ w => Watched b w ∧ F w) fun _ h => h) fun s => ?_
    split
    · exact ih _
    · split
      · exact ih _
      · exact Spec.ret fun _ h => h

theorem verifyLock_spec (hF : Lasting b F) (lockFd : Bool) :
    Spec (fun w => Watched b w ∧ F w) (verifyLock env b lockFd) (fun _ w => Watched b w ∧ F w) (fun _ => Watched b) := by
  cases lockFd with
  | false => exact Spec.ret fun _ h => h
  | true =>
    refine Spec.bind (pass_watched hF) fun _ => Spec.bind (Spec.read (Q := fun _ w => Watched b w ∧ F w) fun _ h => h) fun s => ?_
    exact (demand_spec _).weaken (fun _ h => h) (fun _ _ h => h.1) fun _ _ h => h.1

end Reading

/-! ## Observations -/

/-- A running child of an attempt is the one its record and the runner name. -/
theorem Sound.named {w : World A V} (h : Sound w) {n : Nat} {c : Child A V} (hc : w.children n = some c) {b' : Binding A} {p : Identity}
    (hforked : .forked b' p ∈ w.trace) (hattempt : b'.attempt = c.binding.attempt) : p.boot = w.boot ∧ w.alive p = true := by
  have hid := h.once b' p c.binding ⟨w.boot, n⟩ hforked (h.child n c hc).2 hattempt
  subst hid
  simp [World.alive, hc]

/-- What has been read of an attempt. -/
structure Seen (b : Binding A) (process : Option Identity) (result : Option V) (notStarted : Option (Proof A)) (events : List V)
    (w : World A V) : Prop where
  process : Fits w b.attempt (·.process) process
  result : Fits w b.attempt (·.result) result
  notStarted : Fits w b.attempt (·.notStarted) notStarted
  events : Listed w b.attempt 0 32 events

variable {process : Option Identity} {result : Option V} {notStarted : Option (Proof A)} {events : List V}

theorem Lasting.seen : Lasting b (Seen b process result notStarted events) where
  advance w at' h hw := ⟨(Lasting.fits (fun h => h.process) _).advance w at' h hw.process,
    (Lasting.fits (fun h => h.result) _).advance w at' h hw.result,
    (Lasting.fits (fun h => .inl h.notStarted) _).advance w at' h hw.notStarted, (Lasting.listed 0 32 events).advance w at' h hw.events⟩
  clock w k hw := ⟨hw.process, hw.result, hw.notStarted, (Lasting.listed (b := b) 0 32 events).clock w k hw.events⟩

omit [DecidableEq A] in
theorem Seen.shows {w : World A V} (h : Seen b process result notStarted events w) {closed : Bool} {proof : Option (Proof A)}
    (hclosed : closed = true → NoChild w b.attempt) (hproof : proof.isSome = true → NeverForked w b.attempt) :
    Shows w ⟨b, closed, result, events, proof⟩ where
  result := h.result
  events i v hv := by
    have := h.events.each i v hv
    rwa [Nat.zero_add] at this
  few := h.events.few
  stops hlen := by
    have := h.events.stops hlen
    rwa [Nat.zero_add] at this
  silent := hclosed
  refused := hproof

/-- Where there is no child there was none, or it has ended. -/
theorem Sound.noChild {w : World A V} (h : Sound w) {attempt : String} (hnever : NeverForked w attempt) : NoChild w attempt :=
  fun n c hc => hnever _ _ (h.child n c hc).2

/-- A proof that is accepted is of an attempt without a child. -/
theorem accepted_never {w : World A V} (hsound : Sound w) (hseen : Seen b process result notStarted events w) {proof : Proof A}
    (h : acceptedProof notStarted (w.held b.attempt) = some proof) : NeverForked w b.attempt := by
  unfold acceptedProof at h
  split at h
  · next recorded =>
    obtain ⟨d, hd, hwhole⟩ := hseen.notStarted
    intro b' id hforked hattempt
    obtain ⟨-, d', hd', hnone⟩ := hsound.forked b' id hforked
    rw [hattempt, hd] at hd'
    cases hd'
    exact absurd (hwhole.symm.trans hnone) (by simp)
  · next hheld => exact (hsound.refused _ _ hheld).2
  · cases h

/-- What an observation returns. -/
def Returned (b : Binding A) (o : Observation A V) (w : World A V) : Prop := Watched b w ∧ o.binding = b ∧ Shows w o

theorem accept_spec (lockFd : Bool) (held : Option (Held A)) (proof : Proof A) :
    Spec (fun w => Watched b w ∧ Seen b process result notStarted events w ∧ NeverForked w b.attempt)
      (accept env b lockFd process result events held proof) (Returned b) (fun _ => Watched b) := by
  have hlasting : Lasting b fun w => Seen b process result notStarted events w ∧ NeverForked w b.attempt := Lasting.seen.and .never
  refine Spec.bind (anyEvent_spec hlasting 32 0) fun someEvent => ?_
  refine Spec.bind ((demand_spec _).weaken (fun _ h => h) (fun _ _ h => h.1) fun _ _ h => h.1) fun _ => ?_
  exact Spec.bind (verifyLock_spec hlasting lockFd) fun _ =>
    Spec.ret fun w h => ⟨h.1, rfl, h.2.1.shows (fun _ => h.1.sound.noChild h.2.2) fun _ => h.2.2⟩

theorem concludeRecorded_spec (p : Identity) :
    Spec (fun w => Watched b w ∧ Seen b (some p) result notStarted events w) (concludeRecorded env b p result events)
      (Returned b) (fun _ => Watched b) := by
  refine Spec.bind (pass_watched Lasting.seen) fun _ =>
    Spec.bind (Spec.read (Q := fun s w => s = w ∧ Watched b w ∧ Seen b (some p) result notStarted events w) fun _ h => ⟨rfl, h⟩) fun s => ?_
  refine Spec.ret fun w h => ?_
  obtain ⟨rfl, hwatched, hseen⟩ := h
  refine ⟨hwatched, rfl, hseen.shows (fun hclosed n c hc hattempt => ?_) (by simp)⟩
  obtain ⟨d, hd, hwhole⟩ := hseen.process
  obtain ⟨b', hforked, hb'⟩ := hwatched.sound.process _ d p hd hwhole
  obtain ⟨hboot, halive⟩ := hwatched.sound.named hc hforked (hb'.trans hattempt.symm)
  simp [hboot, halive] at hclosed

/-- Whoever holds the lock and is not the attempt's coordinator has waited for its child. -/
theorem Watched.settled_noChild {w : World A V} (h : Watched b w) {lockFd : Bool} {held : Option (Held A)}
    (hheld : w.held b.attempt = held) (hsettled : w.settled b lockFd held = true) : NoChild w b.attempt := by
  intro n c hc hattempt
  unfold World.settled at hsettled
  split at hsettled
  · next child =>
    obtain ⟨b', hforked, hb'⟩ := h.sound.held _ child hheld
    simp [(h.sound.named hc hforked (hb'.trans hattempt.symm)).2] at hsettled
  · have hbinding := Sound.recorded_unique (h.sound.forked_recorded (h.sound.child n c hc).2) h.recorded hattempt
    obtain ⟨me, hme⟩ := Option.isSome_iff_exists.mp h.led
    have hparent : w.coordinator = some b.coordinator := by rw [hme, ← hbinding, h.sound.parent me hme n c hc]
    simp [hparent] at hsettled

theorem concludeUnrecorded_spec (lockFd : Bool) (held : Option (Held A)) :
    Spec (fun w => Watched b w ∧ Seen b process result notStarted events w ∧ w.held b.attempt = held)
      (concludeUnrecorded env b lockFd result events held) (Returned b) (fun _ => Watched b) := by
  have hheld : Lasting (V := V) b fun w => w.held b.attempt = held := by
    refine ⟨fun w at' _ hw => ?_, fun _ _ h => h⟩
    obtain ⟨n, m⟩ := at'
    rcases advance_cases w n m with he | ⟨c, d, -, -, he⟩ <;> rw [he]
    · exact hw
    · exact hw
  refine Spec.bind (pass_watched (Lasting.seen.and hheld)) fun _ =>
    Spec.bind (Spec.read (Q := fun s w => s = w ∧ Watched b w ∧ Seen b process result notStarted events w ∧ w.held b.attempt = held)
      fun _ h => ⟨rfl, h⟩) fun s => ?_
  generalize hclosed : s.settled b lockFd held = closed
  have hsilent : Lasting (V := V) b fun w => Seen b process result notStarted events w ∧ (closed = true → NoChild w b.attempt) :=
    Lasting.seen.and (Lasting.imp .silent)
  refine Spec.bind (Q := fun _ w => Watched b w ∧ Seen b process result notStarted events w ∧ (closed = true → NoChild w b.attempt))
    ((demand_spec _).weaken (fun _ h => h) (fun _ w h => ?_) fun _ _ h => h.2.1) fun _ => ?_
  · obtain ⟨⟨rfl, hwatched, hseen, hw⟩, -⟩ := h
    exact ⟨hwatched, hseen, fun h => hwatched.settled_noChild hw (hclosed.trans h)⟩
  · exact Spec.bind (verifyLock_spec hsilent closed) fun _ => Spec.ret fun w h => ⟨h.1, rfl, h.2.1.shows h.2.2 (by simp)⟩

theorem observe_spec (b : Binding A) (lockFd : Bool) :
    Spec (Watched b) (observe env b lockFd) (Returned (V := V) b) (fun _ => Watched b) := by
  have hnothing : Lasting (V := V) b fun _ => True := .const True
  refine Spec.bind (Q := fun _ w => Watched b w ∧ True)
    ((demand_spec _).weaken (fun _ h => h) (fun _ _ h => ⟨h.1, trivial⟩) fun _ _ h => h) fun _ => ?_
  refine Spec.bind (readRecord_spec hnothing) fun recorded => ?_
  refine Spec.bind (Q := fun _ w => Watched b w ∧ True)
    ((demand_spec _).weaken (fun _ h => h) (fun _ _ h => ⟨h.1.1, trivial⟩) fun _ _ h => h.1) fun _ => ?_
  refine Spec.bind (readRecord_spec hnothing) fun process => ?_
  have hprocess := Lasting.fits (V := V) (b := b) (fun h => h.process) process
  refine Spec.bind ((readRecord_spec hprocess).pre fun w h => ⟨h.1, h.2.2⟩) fun result => ?_
  have hresult := hprocess.and (Lasting.fits (V := V) (b := b) (fun h => h.result) result)
  refine Spec.bind (readRecord_spec hresult) fun notStarted => ?_
  have hnotStarted := hresult.and (Lasting.fits (V := V) (b := b) (fun h => .inl h.notStarted) notStarted)
  refine Spec.bind ((readEvents_spec hnotStarted 32 0).pre fun w h => ⟨h.1, h.2.1, h.2.2⟩) fun events => ?_
  refine Spec.bind (Spec.read (Q := fun s w => s = w ∧ Watched b w ∧ Seen b process result notStarted events w)
    fun w h => ⟨rfl, h.1, h.2.1.1.1, h.2.1.1.2, h.2.1.2, h.2.2⟩) fun s => ?_
  cases haccepted : acceptedProof notStarted (s.held b.attempt) with
  | some proof =>
    exact (accept_spec lockFd _ proof).pre fun w h => ⟨h.2.1, h.2.2, accepted_never h.2.1.sound h.2.2 (h.1 ▸ haccepted)⟩
  | none =>
    cases process with
    | some p => exact (concludeRecorded_spec p).pre fun w h => h.2
    | none => exact (concludeUnrecorded_spec lockFd _).pre fun w h => ⟨h.2.1, h.2.2, h.1 ▸ rfl⟩

/-! ## The coordinator's writes -/

omit [DecidableEq A] in
theorem Shows.of_eq {w w' : World A V} {o : Observation A V} (h : Shows w o) (hdir : w'.dirs o.binding.attempt = w.dirs o.binding.attempt)
    (hchild : NoChild w o.binding.attempt → NoChild w' o.binding.attempt) (hnever : NeverForked w o.binding.attempt → NeverForked w' o.binding.attempt) :
    Shows w' o := by
  have hfits {α : Type} {slot : Dir A V → Slot α} {v : Option α} (hv : Fits w o.binding.attempt slot v) : Fits w' o.binding.attempt slot v := by
    obtain ⟨d, hd, hslot⟩ := hv
    refine ⟨d, hdir.trans hd, ?_⟩
    cases v with
    | some x => exact hslot
    | none => exact hslot.imp id fun h => ⟨h.1, hchild h.2⟩
  exact ⟨hfits h.result, fun i v hv => hfits (h.events i v hv), h.few, fun hlen => hfits (h.stops hlen), fun hc => hchild (h.silent hc),
    fun hr => hnever (h.refused hr)⟩

namespace Sound

variable {w : World A V} {attempt : String} {d : Dir A V}

/-- A directory no child and no observation has seen. -/
theorem setDir (h : Sound w) (hnever : NeverForked w attempt) (hunseen : ∀ o, .observed o ∈ w.trace → o.binding.attempt ≠ attempt)
    (hprocess : d.process = .absent) (hbound : ∀ b, .bound b ∈ w.trace → b.attempt = attempt → d.binding = .whole b) :
    Sound { w with dirs := Function.update w.dirs attempt (some d) } := by
  have hother {a : String} (ha : a ≠ attempt) : Function.update w.dirs attempt (some d) a = w.dirs a := Function.update_of_ne ha _ _
  have hsome {a : String} (ha : (w.dirs a).isSome = true) : (Function.update w.dirs attempt (some d) a).isSome = true := by
    by_cases he : a = attempt
    · rw [he, Function.update_self]
      rfl
    · rwa [hother he]
  refine { h with bound := ?_, forked := ?_, stage := ?_, process := ?_, refused := ?_, observed := ?_ }
  · intro b hb
    by_cases ha : b.attempt = attempt
    · simp [World.recorded, ha, hbound b hb ha]
    · have hrecorded := h.bound b hb
      unfold World.recorded at hrecorded ⊢
      dsimp only
      rwa [hother ha]
  · intro b id hb
    obtain ⟨hsub, d', hd', hnone⟩ := h.forked b id hb
    exact ⟨hsub, d', (hother (hnever b id hb)).trans hd', hnone⟩
  · intro n c d' hc hd'
    exact h.stage n c d' hc ((hother (hnever _ _ (h.child n c hc).2)).symm.trans hd')
  · intro a d' p hd' hp
    by_cases ha : a = attempt
    · dsimp only at hd'
      rw [ha, Function.update_self, Option.some.injEq] at hd'
      rw [← hd', hprocess] at hp
      cases hp
    · exact h.process a d' p ((hother ha).symm.trans hd') hp
  · intro a proof ha
    exact ⟨hsome (h.refused a proof ha).1, (h.refused a proof ha).2⟩
  · intro o ho
    obtain ⟨hthere, hshows, hrefused⟩ := h.observed o ho
    exact ⟨hsome hthere, fun hc => (hshows hc).of_eq (hother (hunseen o ho)) id id, hrefused⟩

/-- A mark of the coordinator's. -/
theorem addMark (h : Sound w) {k : Mark A V} (hforked : ∀ b id, k ≠ .forked b id) (hperformed : ∀ b, k ≠ .performed b)
    (hbound : ∀ b, k = .bound b → w.recorded b = true)
    (hobserved : ∀ o, k = .observed o → (w.dirs o.binding.attempt).isSome = true ∧ Shows w o)
    (hanswered : ∀ action o, k = .answered action o → o.binding.action = action) (hbefore : ∀ k' ∈ w.trace, Before k' k) :
    Sound { w with trace := w.trace ++ [k] } := by
  have hmem {k' : Mark A V} (h' : k' ∈ w.trace ++ [k]) : k' ∈ w.trace ∨ k = k' := by
    rcases List.mem_append.mp h' with h' | h'
    · exact .inl h'
    · exact .inr (List.mem_singleton.mp h').symm
  have hforks {b' : Binding A} {id : Identity} (h' : .forked b' id ∈ w.trace ++ [k]) : .forked b' id ∈ w.trace :=
    (hmem h').resolve_right (hforked b' id)
  have hnever {a : String} (hn : NeverForked w a) : NeverForked { w with trace := w.trace ++ [k] } a :=
    fun b' id h' => hn b' id (hforks h')
  have hshow {o : Observation A V} (ho : Shows w o) : Shows { w with trace := w.trace ++ [k] } o := ho.of_eq rfl id hnever
  refine { h with bound := ?_, child := ?_, forked := ?_, once := ?_, process := ?_, held := ?_, refused := ?_, idle := ?_, performed := ?_,
                  observed := ?_, answered := ?_, ordered := ?_ }
  · intro b hb
    exact (hmem hb).elim (h.bound b) (hbound b)
  · intro n c hc
    exact ⟨(h.child n c hc).1, List.mem_append_left _ (h.child n c hc).2⟩
  · intro b id hb
    obtain ⟨hsub, hdir⟩ := h.forked b id (hforks hb)
    exact ⟨hsub.trans (List.sublist_append_left _ _), hdir⟩
  · intro b id b' id' hb hb'
    exact h.once b id b' id' (hforks hb) (hforks hb')
  · intro a d' p hd' hp
    obtain ⟨b, hb, ha⟩ := h.process a d' p hd' hp
    exact ⟨b, List.mem_append_left _ hb, ha⟩
  · intro a p hp
    obtain ⟨b, hb, ha⟩ := h.held a p hp
    exact ⟨b, List.mem_append_left _ hb, ha⟩
  · intro a proof hp
    exact ⟨(h.refused a proof hp).1, hnever (h.refused a proof hp).2⟩
  · intro n c hc hidle b hb
    exact h.idle n c hc hidle b ((hmem hb).resolve_right (hperformed b))
  · intro b hb
    obtain ⟨id, hsub⟩ := h.performed b ((hmem hb).resolve_right (hperformed b))
    exact ⟨id, hsub.trans (List.sublist_append_left _ _)⟩
  · intro o ho
    rcases hmem ho with ho | ho
    · obtain ⟨hthere, hshows, hrefused⟩ := h.observed o ho
      exact ⟨hthere, fun hc => hshow (hshows hc), fun hr => hnever (hrefused hr)⟩
    · obtain ⟨hthere, hshows⟩ := hobserved o ho
      exact ⟨hthere, fun _ => hshow hshows, fun hr => hnever (hshows.refused hr)⟩
  · intro action o ho
    exact (hmem ho).elim (h.answered action o) (hanswered action o)
  · exact List.pairwise_append.mpr ⟨h.ordered, List.pairwise_singleton _ _, fun k' hk' j hj => List.mem_singleton.mp hj ▸ hbefore k' hk'⟩

end Sound

omit [DecidableEq A] in
/-- Two observations that show one world say the same of its records. -/
theorem Shows.agree {w : World A V} {o o' : Observation A V} (h : Shows w o) (h' : Shows w o')
    (hattempt : o'.binding.attempt = o.binding.attempt) : o'.events = o.events ∧ o'.result = o.result := by
  have hfits {α : Type} {slot : Dir A V → Slot α} {v v' : Option α} (hv : Fits w o.binding.attempt slot v)
      (hv' : Fits w o'.binding.attempt slot v') : v' = v := by
    obtain ⟨d, hd, hslot⟩ := hv
    obtain ⟨d', hd', hslot'⟩ := hv'
    rw [hattempt, hd] at hd'
    cases hd'
    cases v <;> cases v' <;> simp_all
  refine ⟨List.ext_getElem? fun i => ?_, hfits h.result h'.result⟩
  have hlen : o.events.length = o'.events.length := by
    rcases Nat.lt_trichotomy o.events.length o'.events.length with hlt | he | hlt
    · have := hfits (h.stops (Nat.lt_of_lt_of_le hlt h'.few)) (h'.events _ _ (List.getElem?_eq_getElem hlt))
      cases this
    · exact he
    · have := hfits (h.events _ _ (List.getElem?_eq_getElem hlt)) (h'.stops (Nat.lt_of_lt_of_le hlt h.few))
      cases this
  by_cases hi : i < o.events.length
  · have hi' : i < o'.events.length := hlen ▸ hi
    rw [List.getElem?_eq_getElem hi, List.getElem?_eq_getElem hi']
    exact hfits (h.events i _ (List.getElem?_eq_getElem hi)) (h'.events i _ (List.getElem?_eq_getElem hi'))
  · rw [List.getElem?_eq_none (by omega), List.getElem?_eq_none (by omega)]

theorem Sound.addObserved {w : World A V} (h : Sound w) {o : Observation A V} (hrecorded : w.recorded o.binding = true) (hshows : Shows w o) :
    Sound { w with trace := w.trace ++ [.observed o] } := by
  obtain ⟨d, hd, -⟩ := Sound.recorded_dir hrecorded
  refine h.addMark (by simp) (by simp) (by simp) (fun o' ho' => ?_) (by simp) fun k hk => ?_
  · cases ho'
    exact ⟨by rw [hd]; rfl, hshows⟩
  · cases k with
    | observed o' => exact fun hclosed hattempt => ((h.observed o' hk).2.1 hclosed).agree hshows hattempt
    | _ => trivial

end LocalHand.Supervision
