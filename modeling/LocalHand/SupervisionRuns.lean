/-
A supervised attempt from its directory to its end, and the laws of attempts over every
run of coordinators and children.
-/
import LocalHand.SupervisionClosed

namespace LocalHand.Supervision

open Program

variable {A V : Type} [DecidableEq A] {env : Env A V} {b : Binding A} {d : Dir A V}

/-! ## An attempt before its child -/

/-- An attempt whose directory is made and that has no child yet. -/
structure Opened (b : Binding A) (d : Dir A V) (w : World A V) : Prop where
  sound : Sound w
  calm : Calm w
  led : w.coordinator = some b.coordinator
  dir : w.dirs b.attempt = some d
  never : NeverForked w b.attempt
  unseen : ∀ o, .observed o ∈ w.trace → o.binding.attempt ≠ b.attempt
  empty : d.process = .absent

theorem Opened.stable : Stable (Opened b d) where
  advance w at' h := by
    have hsound := advance_sound h.sound at'
    have hcalm := advance_calm h.calm at'
    have hled : (advance w at').coordinator = some b.coordinator := by rw [advance_coordinator, h.led]
    obtain ⟨n, m⟩ := at'
    rcases advance_cases w n m with he | ⟨c, d', hc, hd, he⟩ <;> rw [he] at hsound hcalm hled ⊢
    · exact h
    · obtain ⟨d'', hd'', -, hsame⟩ := dir_moved (m := m) h.sound hc hd h.dir
      rw [hsame fun ha => h.never _ _ (h.sound.child n c hc).2 ha.symm] at hd''
      exact ⟨hsound, hcalm, hled, hd'', moved_neverForked h.never, fun o ho => h.unseen o ((moved_mem (by simp) (by simp)).mp ho), h.empty⟩
  clock _ k h := ⟨h.sound.clock k, h.calm, h.led, h.dir, h.never, h.unseen, h.empty⟩

/-- A write to the attempt's directory. -/
theorem Opened.setDir {w : World A V} (h : Opened b d w) {d' : Dir A V} (hempty : d'.process = .absent)
    (hbound : ∀ b', .bound b' ∈ w.trace → b'.attempt = b.attempt → d'.binding = .whole b') :
    Opened b d' { w with dirs := Function.update w.dirs b.attempt (some d') } :=
  ⟨h.sound.setDir h.never h.unseen hempty hbound, h.calm, h.led, Function.update_self _ _ _, h.never, h.unseen, hempty⟩

/-- A write that leaves the binding alone. -/
theorem Opened.setDir_binding {w : World A V} (h : Opened b d w) {d' : Dir A V} (hempty : d'.process = .absent) (hsame : d'.binding = d.binding) :
    Opened b d' { w with dirs := Function.update w.dirs b.attempt (some d') } := by
  refine h.setDir hempty fun b' hb' hattempt => ?_
  obtain ⟨d'', hd'', hbinding⟩ := Sound.recorded_dir (h.sound.bound b' hb')
  rw [hattempt, h.dir] at hd''
  cases hd''
  rw [hsame, hbinding]

/-- A call that stops: where it raises, no child is left that may still begin a step. -/
def Stopped (stop : Stop) (w : World A V) : Prop := Sound w ∧ (stop = .raised → Calm w)

theorem Opened.stopped {w : World A V} (h : Opened b d w) (stop : Stop) : Stopped stop w := ⟨h.sound, fun _ => h.calm⟩

theorem Watched.stopped {w : World A V} (h : Watched b w) (stop : Stop) : Stopped stop w := ⟨h.sound, fun _ => h.calm⟩

/-! ## A refusal -/

/-- Some directory of an attempt without a child. -/
def Refused (b : Binding A) (w : World A V) : Prop := ∃ d, Opened b d w

theorem Refused.stable : Stable (Refused (V := V) b) where
  advance w at' := fun ⟨d, h⟩ => ⟨d, Opened.stable.advance w at' h⟩
  clock w k := fun ⟨d, h⟩ => ⟨d, Opened.stable.clock w k h⟩

theorem pass_refused : Spec (Refused (V := V) b) (pass env) (fun _ => Refused b) (fun _ => Refused b) := pass_spec Refused.stable

omit [DecidableEq A] in
/-- A new record of an attempt's directory. -/
theorem writeOnce_spec {α : Type} {slot : Dir A V → Slot α} {put : Dir A V → Slot α → Dir A V} {value : α} {P : World A V → Prop}
    {Q : Unit → World A V → Prop} {E : World A V → Prop} (hP : Stable P) (hdone : ∀ w d, P w → w.dirs b.attempt = some d →
      Q () { w with dirs := Function.update w.dirs b.attempt (some (put d (.whole value))) })
    (hleft : ∀ w, P w → E w) (hput : ∀ w d s, P w → w.dirs b.attempt = some d → s ≠ .absent →
      E { w with dirs := Function.update w.dirs b.attempt (some (put d s)) }) :
    Spec P (writeOnce env b.attempt slot put value) Q (fun _ => E) := by
  refine Spec.bind ((tick_spec hP).weaken (fun _ h => h) (fun _ _ h => h) fun _ _ h => h.elim) fun n =>
    Spec.bind (Spec.read (Q := fun s w => s = w ∧ P w) fun _ h => ⟨rfl, h⟩) fun s => ?_
  split
  · exact Spec.raise fun w h => hleft w h.2
  · next d hd =>
    refine Spec.bind (Q := fun _ w => s = w ∧ P w) ((demand_spec _).weaken (fun _ h => h) (fun _ _ h => h.1) fun _ w h => hleft w h.2) fun _ => ?_
    have hwrite (s' : Slot α) {R : Unit → World A V → Prop}
        (h : ∀ w, s = w → P w → R () { w with dirs := Function.update w.dirs b.attempt (some (put d s')) }) :
        Spec (fun w => s = w ∧ P w) (writeDir b.attempt fun d => put d s' : Op A V Unit) R (fun _ => E) := by
      refine Spec.update fun w hw => ?_
      have := h w hw.1 hw.2
      rw [← hw.1] at this ⊢
      rwa [hd]
    split
    · exact hwrite _ fun w hw hp => hdone w d hp (hw ▸ hd)
    · exact Spec.raise fun w h => hleft w h.2
    · exact Spec.bind (hwrite .torn (R := fun _ => E) fun w hw hp => hput w d _ hp (hw ▸ hd) (by simp)) fun _ => Spec.raise fun _ h => h
    · exact Spec.bind (hwrite (.whole value) (R := fun _ => E) fun w hw hp => hput w d _ hp (hw ▸ hd) (by simp)) fun _ => Spec.raise fun _ h => h

omit [DecidableEq A] in
/-- A record that is read is there. -/
theorem readRecord_whole {α : Type} {P : World A V → Prop} (hP : Stable P) {attempt : String} {slot : Dir A V → Slot α} :
    Spec P (readRecord env attempt slot) (fun v w => P w ∧ ∀ x, v = some x → ∃ d, w.dirs attempt = some d ∧ slot d = .whole x) (fun _ => P) := by
  refine Spec.bind (pass_spec hP) fun _ => Spec.bind (Spec.read (Q := fun s w => s = w ∧ P w) fun _ h => ⟨rfl, h⟩) fun s => ?_
  split
  · exact Spec.ret fun w h => ⟨h.2, by simp⟩
  · next d hd =>
    split
    · exact Spec.ret fun w h => ⟨h.2, by simp⟩
    · exact Spec.raise fun w h => h.2
    · next v hs => exact Spec.ret fun w h => ⟨h.2, fun x hx => ⟨d, h.1 ▸ hd, (Option.some.inj hx) ▸ hs⟩⟩

omit [DecidableEq A] in
theorem readRecord_keeps {α : Type} {P : World A V → Prop} (hP : Stable P) {attempt : String} {slot : Dir A V → Slot α} :
    Keeps P (readRecord env attempt slot) := (readRecord_whole hP).weaken (fun _ h => h) (fun _ _ h => h.1) fun _ _ h => h

theorem publishProof_spec (proof : Proof A) :
    Spec (Refused b) (publishProof env b proof) (fun _ => Refused (V := V) b) (fun _ => Refused b) := by
  refine Spec.bind ((tick_spec Refused.stable).weaken (fun _ h => h) (fun _ _ h => h) fun _ _ h => h.elim) fun n => ?_
  have hput : Spec (Refused b) (writeDir b.attempt fun d => { d with pending := .absent, notStarted := .whole proof } : Op A V Unit)
      (fun _ => Refused b) (fun _ => Refused b) := by
    refine Spec.update fun w hw => ?_
    obtain ⟨d, h⟩ := hw
    rw [h.dir]
    exact ⟨_, h.setDir_binding h.empty rfl⟩
  split
  · exact hput
  · exact Spec.bind hput fun _ => Spec.raise fun _ h => h
  · exact Spec.raise fun _ h => h

theorem recordNotStarted_spec (n : Nat) :
    Spec (Refused b) (recordNotStarted env b n) (fun _ => Refused (V := V) b) (fun _ => Refused b) := by
  have hheld (proof : Proof A) : Spec (Refused b) (retain b.attempt (.refused proof) : Op A V Unit) (fun _ => Refused b)
      (fun _ => Refused b) := by
    refine Spec.update fun w hw => ?_
    obtain ⟨d, h⟩ := hw
    refine ⟨d, { h with sound := { h.sound with held := ?_, refused := ?_, observed := ?_ } }⟩
    · intro a p hp
      by_cases ha : a = b.attempt
      · simp [ha] at hp
      · exact h.sound.held a p (by simpa [Function.update_of_ne ha] using hp)
    · intro a proof' hp
      by_cases ha : a = b.attempt
      · subst ha
        exact ⟨by rw [h.dir]; rfl, h.never⟩
      · exact h.sound.refused a proof' (by simpa [Function.update_of_ne ha] using hp)
    · intro o ho
      obtain ⟨hthere, hshows, hrefused⟩ := h.sound.observed o ho
      exact ⟨hthere, fun hc => (hshows hc).of_eq rfl id id, hrefused⟩
  refine Spec.bind (hheld _) fun _ => Spec.handle (T := fun _ => Refused b) ?_ fun stop => ?_
  · refine Spec.bind (writeOnce_spec (Q := fun _ => Refused b) Refused.stable ?_ (fun _ h => h) ?_) fun _ => ?_
    · rintro w d ⟨d', h⟩ hd
      rw [h.dir] at hd
      cases hd
      exact ⟨_, h.setDir_binding h.empty rfl⟩
    · rintro w d s ⟨d', h⟩ hd -
      rw [h.dir] at hd
      cases hd
      exact ⟨_, h.setDir_binding h.empty rfl⟩
    · refine Spec.bind (readRecord_keeps Refused.stable) fun there => ?_
      refine Spec.bind ((demand_spec _).weaken (fun _ h => h) (fun _ _ h => h.1) fun _ _ h => h) fun _ => ?_
      exact Spec.bind (publishProof_spec _) fun _ => Spec.bind pass_refused fun _ => Spec.ret fun _ h => h
  · cases stop with
    | raised => exact Spec.ret fun _ h => h
    | crashed => exact Spec.raise fun _ h => h

/-! ## The fork -/

/-- An attempt whose intent is persisted. -/
structure Intended (b : Binding A) (w : World A V) : Prop where
  opened : Opened b { binding := .whole b } w
  marks : List.Sublist [.bound b, .intended b] w.trace

theorem Intended.stable : Stable (Intended (V := V) b) where
  advance w at' h := by
    refine ⟨Opened.stable.advance w at' h.opened, ?_⟩
    obtain ⟨n, m⟩ := at'
    rcases advance_cases w n m with he | ⟨c, d', -, -, he⟩ <;> rw [he]
    · exact h.marks
    · exact h.marks.trans (List.sublist_append_left _ _)
  clock w k h := ⟨Opened.stable.clock w k h.opened, h.marks⟩

/-- A child that is waited for. -/
structure Awaited (b : Binding A) (id : Identity) (w : World A V) : Prop where
  sound : Sound w
  others : ∀ n c, w.children n = some c → n ≠ id.number → c.killed = true
  led : w.coordinator.isSome = true
  recorded : w.recorded b = true
  boot : id.boot = w.boot

theorem Awaited.stable {id : Identity} : Stable (Awaited (V := V) b id) where
  advance w at' h := by
    refine ⟨advance_sound h.sound at', ?_, by rw [advance_coordinator]; exact h.led, advance_recorded h.sound h.recorded at', ?_⟩
    · obtain ⟨n, m⟩ := at'
      rcases advance_cases w n m with he | ⟨c, d, hc, -, he⟩ <;> rw [he]
      · exact h.others
      · intro k c' hk hne
        obtain ⟨old, hold, -, hkilled, -⟩ := moved_child hc hk
        rw [← hkilled]
        exact h.others k old hold hne
    · obtain ⟨n, m⟩ := at'
      rcases advance_cases w n m with he | ⟨c, d, hc, -, he⟩ <;> rw [he]
      · exact h.boot
      · exact h.boot
  clock _ k h := ⟨h.sound.clock k, h.others, h.led, h.recorded, h.boot⟩

theorem Awaited.watched {id : Identity} {w : World A V} (h : Awaited b id w)
    (hid : ∀ c, w.children id.number = some c → c.killed = true) : Watched b w := by
  refine ⟨h.sound, fun n c hc => ?_, h.led, h.recorded⟩
  by_cases hn : n = id.number
  · exact hid c (hn ▸ hc)
  · exact h.others n c hc hn

/-- The world after a fork. -/
def World.born (w : World A V) (b : Binding A) : World A V :=
  { w with
    next := w.next + 1
    children := Function.update w.children w.next (some ⟨b, .started, false⟩)
    held := Function.update w.held b.attempt (some (.process ⟨w.boot, w.next⟩))
    trace := w.trace ++ [.forked b ⟨w.boot, w.next⟩] }

theorem Intended.born {w : World A V} (h : Intended b w) : Awaited b ⟨w.boot, w.next⟩ (w.born b) := by
  obtain ⟨⟨hsound, hcalm, hled, hdir, hnever, hunseen, -⟩, hmarks⟩ := h
  have hmem {k : Mark A V} (hk : k ∈ (w.born b).trace) : k ∈ w.trace ∨ k = .forked b ⟨w.boot, w.next⟩ :=
    (List.mem_append.mp hk).imp id List.mem_singleton.mp
  have hold {k : Mark A V} (hne : ∀ b id, k ≠ .forked b id) (hk : k ∈ (w.born b).trace) : k ∈ w.trace :=
    (hmem hk).resolve_right (hne _ _)
  have hchild {n : Nat} {c : Child A V} (hc : (w.born b).children n = some c) :
      (n = w.next ∧ c = ⟨b, .started, false⟩) ∨ (n ≠ w.next ∧ w.children n = some c) := by
    by_cases hn : n = w.next
    · subst hn
      exact .inl ⟨rfl, by simpa [World.born] using hc.symm⟩
    · exact .inr ⟨hn, by simpa [World.born, Function.update_of_ne hn] using hc⟩
  have hnew : Mark.forked b ⟨w.boot, w.next⟩ ∈ (w.born b).trace := List.mem_append_right _ (List.mem_singleton_self _)
  have hneverOther {a : String} (ha : a ≠ b.attempt) (hn : NeverForked w a) : NeverForked (w.born b) a := by
    intro b' id hb'
    rcases hmem hb' with hb' | hb'
    · exact hn b' id hb'
    · cases hb'
      exact ha.symm
  have hnoChild {a : String} (ha : a ≠ b.attempt) (hn : NoChild w a) : NoChild (w.born b) a := by
    intro n c hc
    rcases hchild hc with ⟨-, rfl⟩ | ⟨-, hc⟩
    · exact ha.symm
    · exact hn n c hc
  have hrecorded : w.recorded b = true := by simp [World.recorded, hdir]
  refine ⟨?_, ?_, by simp [World.born, hled], hrecorded, rfl⟩
  · refine { bound := fun b' hb' => hsound.bound b' (hold (by simp) hb'), child := ?_, forked := ?_, once := ?_, stage := ?_, process := ?_,
             held := ?_, refused := ?_, parent := ?_, idle := ?_, performed := ?_, observed := ?_,
             answered := fun action o ho => hsound.answered action o (hold (by simp) ho), ordered := ?_ }
    · intro n c hc
      rcases hchild hc with ⟨rfl, rfl⟩ | ⟨-, hc⟩
      · exact ⟨Nat.lt_succ_self _, hnew⟩
      · exact ⟨Nat.lt_succ_of_lt (hsound.child n c hc).1, List.mem_append_left _ (hsound.child n c hc).2⟩
    · intro b' id hb'
      rcases hmem hb' with hb' | hb'
      · exact ⟨(hsound.forked b' id hb').1.trans (List.sublist_append_left _ _), (hsound.forked b' id hb').2⟩
      · cases hb'
        exact ⟨hmarks.append (List.Sublist.refl [Mark.forked b ⟨w.boot, w.next⟩]), _, hdir, rfl⟩
    · intro b₁ id₁ b₂ id₂ h₁ h₂ hattempt
      rcases hmem h₁ with h₁ | h₁ <;> rcases hmem h₂ with h₂ | h₂
      · exact hsound.once b₁ id₁ b₂ id₂ h₁ h₂ hattempt
      · cases h₂
        exact absurd hattempt (hnever b₁ id₁ h₁)
      · cases h₁
        exact absurd hattempt.symm (hnever b₂ id₂ h₂)
      · cases h₁
        cases h₂
        rfl
    · intro n c d hc hd
      rcases hchild hc with ⟨rfl, rfl⟩ | ⟨-, hc⟩
      · trivial
      · exact hsound.stage n c d hc hd
    · intro a d p hd hp
      obtain ⟨b', hb', ha⟩ := hsound.process a d p hd hp
      exact ⟨b', List.mem_append_left _ hb', ha⟩
    · intro a p hp
      by_cases ha : a = b.attempt
      · subst ha
        simp only [World.born, Function.update_self, Option.some.injEq, Held.process.injEq] at hp
        exact ⟨b, hp ▸ hnew, rfl⟩
      · obtain ⟨b', hb', hattempt⟩ := hsound.held a p (by simpa [World.born, Function.update_of_ne ha] using hp)
        exact ⟨b', List.mem_append_left _ hb', hattempt⟩
    · intro a proof hp
      by_cases ha : a = b.attempt
      · simp [World.born, ha] at hp
      · obtain ⟨hthere, hn⟩ := hsound.refused a proof (by simpa [World.born, Function.update_of_ne ha] using hp)
        exact ⟨hthere, hneverOther ha hn⟩
    · intro me hme n c hc
      rcases hchild hc with ⟨-, rfl⟩ | ⟨-, hc⟩
      · have hled' : w.coordinator = some me := hme
        rw [hled] at hled'
        exact Option.some.inj hled'
      · exact hsound.parent me hme n c hc
    · intro n c hc hidle b' hb'
      have hb' := hold (by simp) hb'
      rcases hchild hc with ⟨-, rfl⟩ | ⟨-, hc⟩
      · obtain ⟨id, hsub⟩ := hsound.performed b' hb'
        exact hnever b' id (hsub.subset (by simp))
      · exact hsound.idle n c hc hidle b' hb'
    · intro b' hb'
      obtain ⟨id, hsub⟩ := hsound.performed b' (hold (by simp) hb')
      exact ⟨id, hsub.trans (List.sublist_append_left _ _)⟩
    · intro o ho
      have ho := hold (by simp) ho
      have hne := hunseen o ho
      obtain ⟨hthere, hshows, hrefused⟩ := hsound.observed o ho
      exact ⟨hthere, fun hc => (hshows hc).of_eq rfl (hnoChild hne) (hneverOther hne), fun hr => hneverOther hne (hrefused hr)⟩
    · refine List.pairwise_append.mpr ⟨hsound.ordered, List.pairwise_singleton _ _, fun k _ j hj => ?_⟩
      cases List.mem_singleton.mp hj
      cases k <;> trivial
  · intro n c hc hn
    rcases hchild hc with ⟨rfl, -⟩ | ⟨-, hc⟩
    · exact absurd rfl hn
    · exact hcalm n c hc

theorem fork_spec : Spec (Intended b) (fork env b) (fun id w => match id with
    | some id => Awaited b id w
    | none => Refused (V := V) b w) Stopped := by
  refine Spec.bind ((tick_spec Intended.stable).weaken (fun _ h => h) (fun _ _ h => h) fun _ _ h => h.elim) fun n =>
    Spec.bind (Spec.read (Q := fun s w => s = w ∧ Intended b w) fun _ h => ⟨rfl, h⟩) fun s => ?_
  have hset : Spec (fun w => s = w ∧ Intended b w) (set (s.born b) : Op A V Unit) (fun _ w => Awaited b ⟨s.boot, s.next⟩ w)
      Stopped := fun w hw => (hw.1 ▸ hw.2).born
  split
  · exact Spec.bind hset fun _ => Spec.ret fun _ h => h
  · exact Spec.ret fun w h => ⟨_, h.2.opened⟩
  · exact Spec.raise fun w h => ⟨h.2.opened.sound, by simp⟩
  · exact Spec.bind hset fun _ => Spec.raise fun w h => ⟨h.sound, by simp⟩

/-! ## The parent's part -/

theorem poll_spec {P : World A V → Prop} {id : Identity} (hP : Stable P) (hsound : ∀ w, P w → Sound w) (times : Nat) :
    Spec P (poll env id times) (fun ended w => P w ∧ (ended = true → w.alive id = false)) Stopped := by
  induction times with
  | zero => exact Spec.ret fun _ h => ⟨h, by simp⟩
  | succ more ih =>
    refine Spec.bind ((tick_spec hP).weaken (fun _ h => h) (fun _ _ h => h) fun _ _ h => h.elim) fun n => ?_
    have hask : Spec P (do if (← get).alive id then poll env id more else return true : Op A V Bool)
        (fun ended w => P w ∧ (ended = true → w.alive id = false)) Stopped := by
      refine Spec.bind (Spec.read (Q := fun s w => s = w ∧ P w) fun _ h => ⟨rfl, h⟩) fun s => ?_
      by_cases halive : s.alive id = true
      · rw [if_pos halive]
        exact ih.pre fun _ h => h.2
      · rw [if_neg halive]
        exact Spec.ret fun w h => ⟨h.2, fun _ => h.1 ▸ Bool.eq_false_iff.mpr halive⟩
    split
    · exact Spec.raise fun w h => ⟨hsound w h, by simp⟩
    · exact hask

/-- The world after a signal to a child. -/
def World.signalled (w : World A V) (id : Identity) : World A V :=
  { w with children := Function.update w.children id.number ((w.children id.number).map fun c => { c with killed := true }) }

omit [DecidableEq A] in
theorem signalled_child {w : World A V} {id : Identity} {n : Nat} {c : Child A V} (h : (w.signalled id).children n = some c) :
    ∃ old, w.children n = some old ∧ old.binding = c.binding ∧ old.stage = c.stage ∧ (n = id.number → c.killed = true) ∧
      (n ≠ id.number → old = c) := by
  by_cases hn : n = id.number
  · subst hn
    simp only [World.signalled, Function.update_self] at h
    obtain ⟨old, hold, rfl⟩ := Option.map_eq_some_iff.mp h
    exact ⟨old, hold, rfl, rfl, fun _ => rfl, fun hne => absurd rfl hne⟩
  · simp only [World.signalled, Function.update_of_ne hn] at h
    exact ⟨c, h, rfl, rfl, fun he => absurd he hn, fun _ => rfl⟩

theorem Awaited.signalled {id : Identity} {w : World A V} (h : Awaited b id w) : Watched b (w.signalled id) := by
  have hsound := h.sound
  have hnoChild {a : String} (hn : NoChild w a) : NoChild (w.signalled id) a := by
    intro n c hc
    obtain ⟨old, hold, hbinding, -⟩ := signalled_child hc
    exact hbinding ▸ hn n old hold
  refine ⟨{ hsound with child := ?_, stage := ?_, parent := ?_, idle := ?_, observed := ?_ }, ?_, h.led, h.recorded⟩
  · intro n c hc
    obtain ⟨old, hold, hbinding, -⟩ := signalled_child hc
    exact hbinding ▸ hsound.child n old hold
  · intro n c d hc hd
    obtain ⟨old, hold, hbinding, hstage, -⟩ := signalled_child hc
    exact hstage ▸ hsound.stage n old d hold (hbinding ▸ hd)
  · intro me hme n c hc
    obtain ⟨old, hold, hbinding, -⟩ := signalled_child hc
    exact hbinding ▸ hsound.parent me hme n old hold
  · intro n c hc hidle b' hb'
    obtain ⟨old, hold, hbinding, hstage, -⟩ := signalled_child hc
    exact hbinding ▸ hsound.idle n old hold (hstage ▸ hidle) b' hb'
  · intro o ho
    obtain ⟨hthere, hshows, hrefused⟩ := hsound.observed o ho
    exact ⟨hthere, fun hc => (hshows hc).of_eq rfl hnoChild fun h => h, hrefused⟩
  · intro n c hc
    obtain ⟨old, hold, -, -, hkilled, hother⟩ := signalled_child hc
    by_cases hn : n = id.number
    · exact hkilled hn
    · exact hother hn ▸ h.others n old hold hn

theorem kill_spec {id : Identity} : Spec (Awaited b id) (kill env id) (fun _ => Watched (V := V) b) Stopped := by
  refine Spec.bind ((tick_spec Awaited.stable).weaken (fun _ h => h) (fun _ _ h => h) fun _ _ h => h.elim) fun n => ?_
  split
  · exact Spec.raise fun w h => ⟨h.sound, by simp⟩
  · exact Spec.update fun w h => h.signalled

variable (env) in
/-- An observation at the end of a call. -/
theorem observe_stopped (b : Binding A) (lockFd : Bool) :
    Spec (Watched b) (observe env b lockFd) (Returned (V := V) b) Stopped :=
  (observe_spec b lockFd).weaken (fun _ h => h) (fun _ _ h => h) fun stop _ h => h.stopped stop

theorem await_spec {id : Identity} : Spec (Awaited b id) (await env b id) (Returned (V := V) b) Stopped := by
  refine Spec.bind (Spec.read (Q := fun _ => Awaited b id) fun _ h => h) fun s => ?_
  refine Spec.bind (poll_spec Awaited.stable (fun _ h => h.sound) _) fun ended => ?_
  cases ended with
  | true =>
    refine (observe_stopped env b true).pre fun w h => h.1.watched fun c hc => ?_
    have hdead := h.2 rfl
    simp [World.alive, h.1.boot, hc] at hdead
  | false =>
    refine Spec.bind (kill_spec.pre fun w h => h.1) fun _ => Spec.bind (Spec.read (Q := fun _ => Watched b) fun _ h => h) fun s => ?_
    refine Spec.bind (poll_spec Watched.stable (fun _ h => h.sound) _) fun ended => ?_
    cases ended with
    | true => exact (observe_stopped env b true).pre fun w h => h.1
    | false => exact (observe_stopped env b false).pre fun w h => h.1

/-- An attempt whose binding is durable. -/
structure Bound (b : Binding A) (w : World A V) : Prop where
  opened : Opened b { binding := .whole b } w
  marked : .bound b ∈ w.trace

theorem Bound.stable : Stable (Bound (V := V) b) where
  advance w at' h := by
    refine ⟨Opened.stable.advance w at' h.opened, ?_⟩
    obtain ⟨n, m⟩ := at'
    rcases advance_cases w n m with he | ⟨c, d', -, -, he⟩ <;> rw [he]
    · exact h.marked
    · exact List.mem_append_left _ h.marked
  clock w k h := ⟨Opened.stable.clock w k h.opened, h.marked⟩

theorem Opened.mark {w : World A V} (h : Opened b d w) {k : Mark A V} (hforked : ∀ b id, k ≠ .forked b id) (hobserved : ∀ o, k ≠ .observed o)
    (hsound : Sound { w with trace := w.trace ++ [k] }) : Opened b d { w with trace := w.trace ++ [k] } := by
  have hmem {k' : Mark A V} (h' : k' ∈ w.trace ++ [k]) (hne : k ≠ k') : k' ∈ w.trace :=
    (List.mem_append.mp h').resolve_right fun h' => hne (List.mem_singleton.mp h').symm
  exact ⟨hsound, h.calm, h.led, h.dir, fun b' id hb' => h.never b' id (hmem hb' (hforked b' id)),
    fun o ho => h.unseen o (hmem ho (hobserved o)), h.empty⟩

theorem persistIntent_spec :
    Spec (Bound b) (persistIntent env b) (fun _ => Intended (V := V) b) (fun _ => Refused b) := by
  refine Spec.bind ((pass_spec Bound.stable).weaken (fun _ h => h) (fun _ _ h => h) fun _ _ h => ⟨_, h.opened⟩) fun _ => ?_
  refine Spec.bind (Spec.update (Q := fun _ => Intended b) fun w h => ?_) fun _ => ?_
  · have hsound : Sound { w with trace := w.trace ++ [.intended b] } :=
      h.opened.sound.addMark (by simp) (by simp) (by simp) (by simp) (by simp) fun k _ => by cases k <;> trivial
    exact ⟨h.opened.mark (by simp) (by simp) hsound, (List.singleton_sublist.mpr h.marked).append (List.Sublist.refl [Mark.intended b])⟩
  · exact Spec.bind ((pass_spec Intended.stable).weaken (fun _ h => h) (fun _ _ h => h) fun _ _ h => ⟨_, h.opened⟩) fun _ => Spec.ret fun _ h => h

theorem Refused.stopped {w : World A V} (h : Refused b w) (stop : Stop) : Stopped stop w := by
  obtain ⟨d, h⟩ := h
  exact h.stopped stop

theorem refuse_spec {α : Type} {Q : α → World A V → Prop} (n : Nat) :
    Spec (Refused b) (do recordNotStarted env b n; raised : Op A V α) Q Stopped :=
  Spec.bind ((recordNotStarted_spec n).weaken (fun _ h => h) (fun _ _ h => h) fun stop _ h => h.stopped stop) fun _ =>
    Spec.raise fun _ h => h.stopped .raised

theorem launch_spec : Spec (Bound b) (launch env b) (Returned (V := V) b) Stopped := by
  refine Spec.bind (Spec.read (Q := fun _ => Bound b) fun _ h => h) fun s => ?_
  refine Spec.bind (Q := fun _ => Intended b) (Spec.handle persistIntent_spec fun stop => ?_) fun _ => ?_
  · cases stop with
    | raised => exact refuse_spec _
    | crashed => exact Spec.raise fun _ h => h.stopped .crashed
  · refine Spec.bind fork_spec fun id => ?_
    cases id with
    | some id => exact await_spec
    | none => exact refuse_spec _

/-! ## A call -/

/-- The world a coordinator calls in. -/
structure Led (me : Identity) (w : World A V) : Prop where
  sound : Sound w
  calm : Calm w
  led : w.coordinator = some me

theorem Led.stable (me : Identity) : Stable (Led (A := A) (V := V) me) where
  advance w at' h := ⟨advance_sound h.sound at', advance_calm h.calm at', by rw [advance_coordinator, h.led]⟩
  clock _ k h := ⟨h.sound.clock k, h.calm, h.led⟩

theorem Led.stopped {me : Identity} {w : World A V} (h : Led me w) (stop : Stop) : Stopped stop w := ⟨h.sound, fun _ => h.calm⟩

/-- An attempt with an empty directory. -/
structure Made (b : Binding A) (w : World A V) : Prop where
  opened : Opened b {} w
  unbound : ∀ b', .bound b' ∈ w.trace → b'.attempt ≠ b.attempt

theorem Made.stable : Stable (Made (V := V) b) where
  advance w at' h := by
    refine ⟨Opened.stable.advance w at' h.opened, ?_⟩
    obtain ⟨n, m⟩ := at'
    rcases advance_cases w n m with he | ⟨c, d', -, -, he⟩ <;> rw [he]
    · exact h.unbound
    · exact fun b' hb' => h.unbound b' ((moved_mem (by simp) (by simp)).mp hb')
  clock w k h := ⟨Opened.stable.clock w k h.opened, h.unbound⟩

theorem Led.made {w : World A V} (h : Led b.coordinator w) (hnone : w.dirs b.attempt = none) :
    Made b { w with dirs := Function.update w.dirs b.attempt (some {}) } := by
  have hnever : NeverForked w b.attempt := by
    intro b' id hb' hattempt
    obtain ⟨-, d, hd, -⟩ := h.sound.forked b' id hb'
    rw [hattempt, hnone] at hd
    cases hd
  have hunseen (o : Observation A V) (ho : .observed o ∈ w.trace) : o.binding.attempt ≠ b.attempt := by
    intro hattempt
    have := (h.sound.observed o ho).1
    rw [hattempt, hnone] at this
    cases this
  have hunbound (b' : Binding A) (hb' : .bound b' ∈ w.trace) : b'.attempt ≠ b.attempt := by
    intro hattempt
    obtain ⟨d, hd, -⟩ := Sound.recorded_dir (h.sound.bound b' hb')
    rw [hattempt, hnone] at hd
    cases hd
  have hsound := h.sound.setDir (d := {}) hnever hunseen rfl fun b' hb' hattempt => absurd hattempt (hunbound b' hb')
  exact ⟨⟨hsound, h.calm, h.led, Function.update_self _ _ _, hnever, hunseen, rfl⟩, hunbound⟩

theorem makeDirectory_spec : Spec (Led b.coordinator) (makeDirectory env b.attempt) (fun _ => Made (V := V) b) Stopped := by
  refine Spec.bind ((tick_spec (Led.stable _)).weaken (fun _ h => h) (fun _ _ h => h) fun _ _ h => h.elim) fun n =>
    Spec.bind (Spec.read (Q := fun s w => s = w ∧ Led b.coordinator w) fun _ h => ⟨rfl, h⟩) fun s => ?_
  refine Spec.bind (Q := fun _ w => Led b.coordinator w ∧ w.dirs b.attempt = none)
    ((demand_spec _).weaken (fun _ h => h) (fun _ w h => ⟨h.1.2, ?_⟩) fun stop w h => h.2.stopped stop) fun _ => ?_
  · obtain ⟨⟨rfl, -⟩, hnone⟩ := h
    exact Option.isNone_iff_eq_none.mp hnone
  · split
    · exact Spec.update fun w h => h.1.made h.2
    · exact Spec.raise fun w h => h.1.stopped _
    · exact Spec.bind (Q := fun _ => Made b) (Spec.update fun w h => h.1.made h.2) fun _ => Spec.raise fun w h => h.opened.stopped _

/-- A new attempt. -/
theorem attempt_spec : Spec (Led b.coordinator) (do
    makeDirectory env b.attempt
    writeOnce env b.attempt (·.binding) (fun d s => { d with binding := s }) b
    mark (.bound b)
    launch env b : Op A V (Observation A V)) (Returned b) Stopped := by
  refine Spec.bind makeDirectory_spec fun _ => ?_
  have hput {w : World A V} {d : Dir A V} (s : Slot (Binding A)) (h : Made b w) (hd : w.dirs b.attempt = some d) :
      Opened b { binding := s } { w with dirs := Function.update w.dirs b.attempt (some { d with binding := s }) } := by
    rw [h.opened.dir] at hd
    cases hd
    exact h.opened.setDir rfl fun b' hb' hattempt => absurd hattempt (h.unbound b' hb')
  refine Spec.bind (Q := fun _ w => Opened b { binding := .whole b } w ∧ ∀ b', .bound b' ∈ w.trace → b'.attempt ≠ b.attempt)
    ((writeOnce_spec (E := Refused b) Made.stable (fun w d h hd => ⟨hput _ h hd, h.unbound⟩) (fun w h => ⟨_, h.opened⟩)
      fun w d s h hd _ => ⟨_, hput s h hd⟩).weaken (fun _ h => h) (fun _ _ h => h) fun stop _ h => h.stopped stop) fun _ => ?_
  refine Spec.bind (Q := fun _ => Bound b) (Spec.update fun w h => ?_) fun _ => launch_spec
  obtain ⟨hopened, hunbound⟩ := h
  have hsound : Sound { w with trace := w.trace ++ [.bound b] } := by
    refine hopened.sound.addMark (by simp) (by simp) (fun b' hb' => ?_) (by simp) (by simp) fun k hk => ?_
    · cases hb'
      simp [World.recorded, hopened.dir]
    · cases k with
      | bound b' => exact hunbound b' hk
      | _ => trivial
  exact ⟨hopened.mark (by simp) (by simp) hsound, List.mem_append_right _ (List.mem_singleton_self _)⟩

theorem recorded_of_agrees {w : World A V} {old : Binding A} (hagrees : old.agrees b = true) (h : ∃ d, w.dirs b.attempt = some d ∧ d.binding = .whole old) :
    w.recorded old = true ∧ old.action = b.action := by
  simp only [Binding.agrees, Bool.and_eq_true, decide_eq_true_eq] at hagrees
  obtain ⟨d, hd, hbinding⟩ := h
  exact ⟨by simp [World.recorded, hagrees.1.1.1, hd, hbinding], hagrees.1.1.2⟩

/-- What a run answers. -/
def Answered (action : A) (o : Observation A V) (w : World A V) : Prop := Returned o.binding o w ∧ o.binding.action = action

theorem Returned.answered {o : Observation A V} {w : World A V} (h : Returned b o w) : Answered b.action o w := by
  obtain ⟨hwatched, rfl, hshows⟩ := h
  exact ⟨⟨hwatched, rfl, hshows⟩, rfl⟩

theorem run_spec (me : Identity) (action : A) (attempt : String) (previous : Option (Binding A)) :
    Spec (fun w => Led me w ∧ ∀ old, previous = some old → w.recorded old = true) (run env action attempt previous)
      (Answered (V := V) action) Stopped := by
  have hstable : Stable fun w : World A V => Led me w ∧ ∀ old, previous = some old → w.recorded old = true :=
    ⟨fun w at' h => ⟨(Led.stable _).advance w at' h.1, fun old ho => advance_recorded h.1.sound (h.2 old ho) at'⟩,
      fun w k h => ⟨(Led.stable _).clock w k h.1, h.2⟩⟩
  refine Spec.bind ((pass_spec hstable).weaken (fun _ h => h) (fun _ _ h => h) fun stop _ h => h.1.stopped stop) fun _ => ?_
  refine Spec.bind ((demand_spec _).weaken (fun _ h => h) (fun _ _ h => h.1) fun stop _ h => h.1.stopped stop) fun _ => ?_
  refine Spec.bind (Spec.read (Q := fun s w => s = w ∧ Led me w ∧ ∀ old, previous = some old → w.recorded old = true) fun _ h => ⟨rfl, h⟩) fun s => ?_
  split
  · exact Spec.raise fun w h => h.2.1.stopped _
  · next me' hme =>
    let b : Binding A := ⟨attempt, action, s.boot, env.lock s.boot, env.timeout, me', env.stateDir ++ "/" ++ attempt⟩
    have hled {w : World A V} (h : s = w ∧ Led me w ∧ ∀ old, previous = some old → w.recorded old = true) : Led me' w := by
      obtain ⟨rfl, hled, -⟩ := h
      rw [hled.led] at hme
      exact Option.some.inj hme ▸ hled
    have hobserve (old : Binding A) : Spec (fun w => Led me' w ∧ (old.agrees b = true → w.recorded old = true ∧ old.action = action))
        (if old.agrees b then observe env old true else raised : Op A V (Observation A V)) (Answered action) Stopped := by
      by_cases hagrees : old.agrees b = true
      · rw [if_pos hagrees]
        intro w hw
        obtain ⟨hrecorded, haction⟩ := hw.2 hagrees
        have hspec := (observe_stopped env old true).weaken (fun _ h => h) (fun _ _ h => h.answered) fun _ _ h => h
        exact haction ▸ hspec w ⟨hw.1.sound, hw.1.calm, by rw [hw.1.led]; rfl, hrecorded⟩
      · rw [if_neg hagrees]
        exact Spec.raise fun w h => h.1.stopped _
    cases previous with
    | some old =>
      refine (hobserve old).pre fun w h => ⟨hled h, fun hagrees => ⟨h.2.2 old rfl, ?_⟩⟩
      simp only [Binding.agrees, Bool.and_eq_true, decide_eq_true_eq] at hagrees
      exact hagrees.1.1.2
    | none =>
      refine Spec.bind ((pass_spec (Led.stable me')).weaken (fun _ h => hled h) (fun _ _ h => h) fun stop _ h => h.stopped stop) fun _ => ?_
      refine Spec.bind (Spec.read (Q := fun _ => Led me') fun _ h => h) fun t => ?_
      by_cases hthere : (t.dirs attempt).isSome = true
      · rw [if_pos hthere]
        refine Spec.bind ((readRecord_whole (Led.stable _)).weaken (fun _ h => h) (fun _ _ h => h) fun stop _ h => h.stopped stop) fun found => ?_
        cases found with
        | none => exact Spec.raise fun w h => h.1.stopped _
        | some old => exact (hobserve old).pre fun w h => ⟨h.1, fun hagrees => recorded_of_agrees hagrees (h.2 old rfl)⟩
      · rw [if_neg hthere]
        exact (attempt_spec (b := b)).weaken (fun _ h => h) (fun _ _ h => h.answered) fun _ _ h => h

/-! ## Runs -/

/-- What holds between calls. -/
def Invariant (w : World A V) : Prop := Sound w ∧ (w.coordinator.isSome = true → Calm w)

theorem Sound.left {w : World A V} (h : Sound w) : Sound w.left :=
  { h with
    held := fun _ _ hp => (nomatch hp)
    refused := fun _ _ hp => (nomatch hp)
    parent := fun _ hme => (nomatch hme)
    observed := fun o ho => ⟨(h.observed o ho).1, fun hc => ((h.observed o ho).2.1 hc).of_eq rfl id id, (h.observed o ho).2.2⟩ }

theorem Invariant.left {w : World A V} (h : Sound w) : Invariant w.left := ⟨h.left, fun hled => (nomatch hled)⟩

theorem Stopped.invariant {w : World A V} : ∀ {stop : Stop}, Stopped stop w → Invariant (World.returned (.error stop, w) fun _ => [])
  | .raised, h => ⟨h.1, fun _ => h.2 rfl⟩
  | .crashed, h => .left h.1

theorem returned_invariant {m : Op A V (Observation A V)} {P : World A V → Prop} {Q : Observation A V → World A V → Prop} {w : World A V}
    {marks : Observation A V → List (Mark A V)} (h : Spec P m Q Stopped) (hw : P w)
    (hreturn : ∀ o t, Q o t → Invariant { t with trace := t.trace ++ marks o }) : Invariant (World.returned (m.from w) marks) := by
  cases hr : m.from w with
  | mk answer t =>
    cases answer with
    | ok o => exact hreturn o t (h.ok hw hr)
    | error stop =>
      have hstop := (h.error hw hr).invariant
      cases stop <;> exact hstop

theorem step_invariant {w : World A V} (h : Invariant w) (l : Label A V) : Invariant (step env w l) := by
  obtain ⟨hsound, hcalm⟩ := h
  cases l with
  | run action attempt previous =>
    unfold step
    dsimp only
    split
    · next hok =>
      rw [Bool.and_eq_true] at hok
      obtain ⟨me, hme⟩ := Option.isSome_iff_exists.mp hok.1
      refine returned_invariant (run_spec me action attempt previous) ⟨⟨hsound, hcalm hok.1, hme⟩, fun old ho => ?_⟩ fun o t hanswered => ?_
      · have hall := hok.2
        rw [ho] at hall
        exact hall
      · obtain ⟨⟨hwatched, -, hshows⟩, haction⟩ := hanswered
        have hobserved := hwatched.sound.addObserved hwatched.recorded hshows
        have hanswered := hobserved.addMark (k := .answered action o) (by simp) (by simp) (by simp) (by simp)
          (fun action' o' ho' => by cases ho'; exact haction) fun k _ => by cases k <;> trivial
        have hmarks : t.trace ++ [.observed o, .answered action o] = t.trace ++ [.observed o] ++ [.answered action o] := by simp
        rw [hmarks]
        exact ⟨hanswered, fun _ => hwatched.calm⟩
    · exact ⟨hsound, hcalm⟩
  | observe b lockFd =>
    unfold step
    dsimp only
    split
    · next hok =>
      rw [Bool.and_eq_true] at hok
      refine returned_invariant (observe_stopped env b lockFd) ⟨hsound, hcalm hok.1, hok.1, hok.2⟩ fun o t hreturned => ?_
      obtain ⟨hwatched, rfl, hshows⟩ := hreturned
      exact ⟨hwatched.sound.addObserved hwatched.recorded hshows, fun _ => hwatched.calm⟩
    · exact ⟨hsound, hcalm⟩
  | child at' =>
    refine ⟨advance_sound hsound at', fun hled => advance_calm (hcalm ?_) at'⟩
    have hkept : (advance w at').coordinator.isSome = true := hled
    rwa [advance_coordinator] at hkept
  | renew =>
    refine ⟨{ hsound with held := fun _ _ hp => (by cases hp), refused := fun _ _ hp => (by cases hp), observed := fun o ho => ?_ }, hcalm⟩
    exact ⟨(hsound.observed o ho).1, fun hc => ((hsound.observed o ho).2.1 hc).of_eq rfl id id, (hsound.observed o ho).2.2⟩
  | leave => exact .left hsound
  | acquire =>
    unfold step
    dsimp only
    split
    · next hfree =>
      -- Every child shared the lock, so none is left.
      have hnone (n : Nat) (c : Child A V) (hc : w.children n = some c) : False := by
        simp only [World.unlocked, Bool.and_eq_true, List.all_eq_true, List.mem_range] at hfree
        have := hfree.2 n (hsound.child n c hc).1
        rw [hc] at this
        cases this
      refine ⟨{ hsound with child := fun n c hc => (hnone n c hc).elim, parent := fun _ _ n c hc => (hnone n c hc).elim, observed := fun o ho => ?_ },
        fun _ n c hc => (hnone n c hc).elim⟩
      exact ⟨(hsound.observed o ho).1, fun hc => ((hsound.observed o ho).2.1 hc).of_eq rfl id id, (hsound.observed o ho).2.2⟩
    · exact ⟨hsound, hcalm⟩
  | reboot =>
    have hleft := hsound.left
    refine ⟨{ hleft with child := fun _ _ hc => (by cases hc), stage := fun _ _ _ hc => (by cases hc), parent := fun _ _ _ _ hc => (by cases hc),
                         idle := fun _ _ hc => (by cases hc), observed := fun o ho => ?_ }, fun hled => (by cases hled)⟩
    exact ⟨(hsound.observed o ho).1, fun hc => ((hsound.observed o ho).2.1 hc).of_eq rfl (fun _ _ _ hc => (by cases hc)) fun h => h,
      (hsound.observed o ho).2.2⟩

theorem initial_invariant : Invariant (initial : World A V) := by
  refine ⟨⟨?_, ?_, ?_, ?_, ?_, ?_, ?_, ?_, ?_, ?_, ?_, ?_, ?_, ?_⟩, fun hled => by cases hled⟩ <;> simp [initial]

theorem reachable_invariant (env : Env A V) (labels : List (Label A V)) : Invariant (Machine.exec (step env) initial labels) :=
  Machine.exec_inv (I := Invariant) (fun _ l h => step_invariant h l) initial_invariant

/-- What holds of every run of coordinators and children. -/
structure Lawful (trace : List (Mark A V)) : Prop where
  performed_once : ∀ b b', List.Sublist [.performed b, .performed b'] trace → b.attempt ≠ b'.attempt
  performed_after : ∀ b, .performed b ∈ trace → ∃ id, List.Sublist [.bound b, .intended b, .forked b id, .performed b] trace
  closed_silent : ∀ o attempt, List.Sublist [.observed o, .acted attempt] trace → o.closed = true → attempt ≠ o.binding.attempt
  closed_final : ∀ o o', List.Sublist [.observed o, .observed o'] trace → o.closed = true → o'.binding.attempt = o.binding.attempt →
    o'.events = o.events ∧ o'.result = o.result
  refused_never : ∀ o, .observed o ∈ trace → o.notStarted.isSome = true → ∀ b id, .forked b id ∈ trace → b.attempt ≠ o.binding.attempt
  one_action : ∀ b b', .bound b ∈ trace → .bound b' ∈ trace → b.attempt = b'.attempt → b = b'
  answered_action : ∀ action o, .answered action o ∈ trace → o.binding.action = action

/-- Over every run an adapter's operation is called at most once an attempt, after its
binding and its intent are durable; a closed observation is the last word on its attempt,
a no-start proof is of one without a child, and no attempt is of two actions. -/
theorem supervised_attempts (env : Env A V) (labels : List (Label A V)) : Lawful (Machine.exec (step env) initial labels).trace := by
  have hsound := (reachable_invariant env labels).1
  have hbefore {k k' : Mark A V} (h : List.Sublist [k, k'] (Machine.exec (step env) initial labels).trace) : Before k k' :=
    List.pairwise_iff_forall_sublist.mp hsound.ordered h
  exact
    { performed_once := fun _ _ h => hbefore h
      performed_after := hsound.performed
      closed_silent := fun _ _ h => hbefore h
      closed_final := fun _ _ h => hbefore h
      refused_never := fun o ho => (hsound.observed o ho).2.2
      one_action := fun b b' hb hb' hattempt => Sound.recorded_unique (hsound.bound b hb) (hsound.bound b' hb') hattempt
      answered_action := hsound.answered }

end LocalHand.Supervision
