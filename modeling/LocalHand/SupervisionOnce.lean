/-
Supervised attempts are made once and closed truthfully: what holds of every world the
coordinators and the children reach, in any interleaving of their steps.

The lock carries the proof: while a coordinator holds it, the children are its own, and
one it does not wait for has been killed, so it completes at most the system call it is
in. What an observation reads is then what the records are when it returns, or a record
has been opened since that no later observation can read.
-/
import LocalHand.Supervision

namespace LocalHand.Supervision

open Program

variable {A V : Type}

/-! ## What a child's step does -/

/-- What one step makes of a record: it is opened, or what was opened is written. -/
def Slot.Next {α : Type} (s s' : Slot α) : Prop := s' = s ∨ (s = .absent ∧ s' = .torn) ∨ (s = .torn ∧ ∃ v, s' = .whole v)

theorem Slot.Next.refl {α : Type} (s : Slot α) : s.Next s := .inl rfl

theorem Slot.vacant_iff {α : Type} {s : Slot α} : s.vacant = true ↔ s = .absent := by
  cases s <;> simp [Slot.vacant]

theorem Slot.next_after {α : Type} {s : Slot α} (h : s = .torn) (v : α) (left : Left) : s.Next (s.after v left) := by
  cases left with
  | whole => exact .inr (.inr ⟨h, v, rfl⟩)
  | nothing => exact .refl s
  | torn => exact .refl s

/-- The record a stage has open. -/
def Stage.Fits (d : Dir A V) : Stage V → Prop
  | .registering => d.process = .torn
  | .emitting index _ => d.events index = .torn
  | .finishing _ => d.result = .torn
  | _ => True

/-- Before the adapter's operation. -/
def Stage.Idle : Stage V → Prop
  | .started | .registering | .ready => True
  | _ => False

/-- What a child's step leaves of its directory. -/
structure Written (id : Identity) (d d' : Dir A V) : Prop where
  binding : d'.binding = d.binding
  notStarted : d'.notStarted = d.notStarted
  process : d.process.Next d'.process
  known : ∀ p, d'.process = .whole p → d.process = .whole p ∨ p = id
  result : d.result.Next d'.result
  events : ∀ i, (d.events i).Next (d'.events i)

theorem Written.refl (id : Identity) (d : Dir A V) : Written id d d :=
  ⟨rfl, rfl, .refl _, fun _ h => .inl h, .refl _, fun _ => .refl _⟩

theorem next_update {d : Dir A V} {index : Nat} {s : Slot V} (h : (d.events index).Next s) (i : Nat) :
    (d.events i).Next (Function.update d.events index s i) := by
  by_cases hi : i = index
  · subst hi
    rwa [Function.update_self]
  · rw [Function.update_of_ne hi]
    exact .refl _

theorem step_written (id : Identity) {d : Dir A V} {stage : Stage V} (hfits : stage.Fits d) (m : Move V) :
    Written id d (stage.step id d m).2 := by
  unfold Stage.step
  split
  · split
    · next h => exact { Written.refl id d with process := .inr (.inl ⟨Slot.vacant_iff.mp h, rfl⟩), known := by simp }
    · exact .refl id d
  · exact { Written.refl id d with process := .inr (.inr ⟨hfits, id, rfl⟩), known := fun p hp => .inr (Slot.whole.inj hp).symm }
  · next left =>
    refine { Written.refl id d with process := Slot.next_after hfits id left, known := fun p hp => ?_ }
    cases left with
    | whole => exact .inr (Slot.whole.inj hp).symm
    | nothing => exact .inl hp
    | torn => exact .inl hp
  · exact .refl id d
  · split
    · next h => exact { Written.refl id d with events := next_update (.inr (.inl ⟨Slot.vacant_iff.mp h.2, rfl⟩)) }
    · exact .refl id d
  · exact .refl id d
  · exact .refl id d
  · exact .refl id d
  · next value => exact { Written.refl id d with events := next_update (.inr (.inr ⟨hfits, value, rfl⟩)) }
  · next value left => exact { Written.refl id d with events := next_update (Slot.next_after hfits value left) }
  · split
    · next h => exact { Written.refl id d with result := .inr (.inl ⟨Slot.vacant_iff.mp h, rfl⟩) }
    · exact .refl id d
  · next value => exact { Written.refl id d with result := .inr (.inr ⟨hfits, value, rfl⟩) }
  · next value left => exact { Written.refl id d with result := Slot.next_after hfits value left }
  · exact .refl id d

theorem step_fits (id : Identity) {d : Dir A V} {stage next : Stage V} {m : Move V} (h : (stage.step id d m).1 = some next) :
    next.Fits (stage.step id d m).2 := by
  revert h
  unfold Stage.step
  split <;> (try split) <;> intro h <;> cases h <;> simp [Stage.Fits]

/-- The operation is called once: before its step no step is past it. -/
theorem step_idle {id : Identity} {d : Dir A V} {stage next : Stage V} {m : Move V} (h : (stage.step id d m).1 = some next)
    (hidle : next.Idle) : stage.Idle ∧ stage.performs m = false := by
  revert h
  unfold Stage.step
  split <;> (try split) <;> intro h <;> cases h <;> simp_all [Stage.Idle, Stage.performs]

theorem performs_idle {stage : Stage V} {m : Move V} (h : stage.performs m = true) : stage.Idle := by
  unfold Stage.performs at h
  split at h
  · trivial
  · cases h

/-- The marks of a child's step. -/
def Child.marks (c : Child A V) (m : Move V) : List (Mark A V) :=
  .acted c.binding.attempt :: if c.stage.performs m then [.performed c.binding] else []

/-- The world after a child's step. -/
def World.moved (w : World A V) (n : Nat) (c : Child A V) (d : Dir A V) (m : Move V) : World A V :=
  { w with
    children := Function.update w.children n (if c.killed then none else (c.stage.step ⟨w.boot, n⟩ d m).1.map fun s => { c with stage := s })
    dirs := Function.update w.dirs c.binding.attempt (some (c.stage.step ⟨w.boot, n⟩ d m).2)
    trace := w.trace ++ c.marks m }

theorem advance_cases (w : World A V) (n : Nat) (m : Move V) : advance w (n, m) = w ∨
    ∃ c d, w.children n = some c ∧ w.dirs c.binding.attempt = some d ∧ advance w (n, m) = w.moved n c d m := by
  unfold advance
  split
  · exact .inl rfl
  · next c hc =>
    split
    · exact .inl rfl
    · next d hd => exact .inr ⟨c, d, hc, hd, rfl⟩

/-! ## What holds of every world -/

/-- No child of the attempt is left. -/
def NoChild (w : World A V) (attempt : String) : Prop := ∀ n c, w.children n = some c → c.binding.attempt ≠ attempt

/-- No child was ever forked for the attempt. -/
def NeverForked (w : World A V) (attempt : String) : Prop := ∀ b id, .forked b id ∈ w.trace → b.attempt ≠ attempt

/-- The record is what was read of it, or it was missing and now has bytes missing for ever. -/
def Fits {α : Type} (w : World A V) (attempt : String) (slot : Dir A V → Slot α) (v : Option α) : Prop :=
  ∃ d, w.dirs attempt = some d ∧
    match v with
    | some x => slot d = .whole x
    | none => slot d = .absent ∨ (slot d = .torn ∧ NoChild w attempt)

/-- What an observation says of the world it is returned in. -/
structure Shows (w : World A V) (o : Observation A V) : Prop where
  result : Fits w o.binding.attempt (·.result) o.result
  events : ∀ i v, o.events[i]? = some v → Fits w o.binding.attempt (fun d => d.events i) (some v)
  few : o.events.length ≤ 32
  stops : o.events.length < 32 → Fits w o.binding.attempt (fun d => d.events o.events.length) none
  silent : o.closed = true → NoChild w o.binding.attempt
  refused : o.notStarted.isSome = true → NeverForked w o.binding.attempt

/-- What may come after what. -/
def Before : Mark A V → Mark A V → Prop
  | .bound b, .bound b' => b.attempt ≠ b'.attempt
  | .performed b, .performed b' => b.attempt ≠ b'.attempt
  | .observed o, .acted attempt => o.closed = true → attempt ≠ o.binding.attempt
  | .observed o, .observed o' =>
    o.closed = true → o'.binding.attempt = o.binding.attempt → o'.events = o.events ∧ o'.result = o.result
  | _, _ => True

variable [DecidableEq A]

structure Sound (w : World A V) : Prop where
  bound : ∀ b, .bound b ∈ w.trace → w.recorded b = true
  child : ∀ n c, w.children n = some c → n < w.next ∧ .forked c.binding ⟨w.boot, n⟩ ∈ w.trace
  forked : ∀ b id, .forked b id ∈ w.trace → List.Sublist [.bound b, .intended b, .forked b id] w.trace ∧
    ∃ d, w.dirs b.attempt = some d ∧ d.notStarted = .absent
  once : ∀ b id b' id', .forked b id ∈ w.trace → .forked b' id' ∈ w.trace → b.attempt = b'.attempt → id = id'
  stage : ∀ n c d, w.children n = some c → w.dirs c.binding.attempt = some d → c.stage.Fits d
  process : ∀ attempt d p, w.dirs attempt = some d → d.process = .whole p → ∃ b, .forked b p ∈ w.trace ∧ b.attempt = attempt
  held : ∀ attempt p, w.held attempt = some (.process p) → ∃ b, .forked b p ∈ w.trace ∧ b.attempt = attempt
  refused : ∀ attempt proof, w.held attempt = some (.refused proof) → (w.dirs attempt).isSome = true ∧ NeverForked w attempt
  parent : ∀ me, w.coordinator = some me → ∀ n c, w.children n = some c → c.binding.coordinator = me
  idle : ∀ n c, w.children n = some c → c.stage.Idle → ∀ b, .performed b ∈ w.trace → b.attempt ≠ c.binding.attempt
  performed : ∀ b, .performed b ∈ w.trace → ∃ id, List.Sublist [.bound b, .intended b, .forked b id, .performed b] w.trace
  observed : ∀ o, .observed o ∈ w.trace → (w.dirs o.binding.attempt).isSome = true ∧ (o.closed = true → Shows w o) ∧
    (o.notStarted.isSome = true → NeverForked w o.binding.attempt)
  answered : ∀ action o, .answered action o ∈ w.trace → o.binding.action = action
  ordered : w.trace.Pairwise Before

/-- Every child that is left has been killed. -/
def Calm (w : World A V) : Prop := ∀ n c, w.children n = some c → c.killed = true

/-- An attempt whose child is still to come. -/
structure Fresh (w : World A V) (b : Binding A) : Prop where
  never : NeverForked w b.attempt
  unseen : ∀ o, .observed o ∈ w.trace → o.binding.attempt ≠ b.attempt
  there : ∃ d, w.dirs b.attempt = some d ∧ d.notStarted = .absent

/-! ## Steps of the children -/

omit [DecidableEq A] in
theorem mem_marks {c : Child A V} {m : Move V} {k : Mark A V} (h : k ∈ c.marks m) :
    k = .acted c.binding.attempt ∨ (k = .performed c.binding ∧ c.stage.performs m = true) := by
  unfold Child.marks at h
  split at h
  · next hp =>
    rcases List.mem_cons.mp h with h | h
    · exact .inl h
    · exact .inr ⟨List.mem_singleton.mp h, hp⟩
  · exact .inl (List.mem_singleton.mp h)

namespace Sound

variable {w : World A V}

/-- An attempt has one child. -/
theorem child_unique (h : Sound w) {n m : Nat} {c c' : Child A V} (hn : w.children n = some c) (hm : w.children m = some c')
    (hattempt : c.binding.attempt = c'.binding.attempt) : n = m :=
  (Identity.mk.inj (h.once _ _ _ _ (h.child n c hn).2 (h.child m c' hm).2 hattempt)).2

theorem recorded_dir {b : Binding A} (h : w.recorded b = true) : ∃ d, w.dirs b.attempt = some d ∧ d.binding = .whole b := by
  unfold World.recorded at h
  split at h
  · next d hd => exact ⟨d, hd, by simpa using h⟩
  · cases h

/-- The binding a fork was made for is the one that is recorded. -/
theorem forked_recorded (h : Sound w) {b : Binding A} {id : Identity} (hb : .forked b id ∈ w.trace) : w.recorded b = true :=
  h.bound b ((h.forked b id hb).1.subset List.mem_cons_self)

theorem recorded_unique {b b' : Binding A} (h : w.recorded b = true) (h' : w.recorded b' = true)
    (hattempt : b.attempt = b'.attempt) : b = b' := by
  obtain ⟨d, hd, hb⟩ := recorded_dir h
  obtain ⟨d', hd', hb'⟩ := recorded_dir h'
  rw [hattempt, hd'] at hd
  cases hd
  rw [hb'] at hb
  exact (Slot.whole.inj hb).symm

end Sound

section Moved

variable {w : World A V} {n : Nat} {c : Child A V} {d : Dir A V} {m : Move V}

omit [DecidableEq A] in
theorem moved_child (hc : w.children n = some c) {k : Nat}
    {c' : Child A V} (h : (w.moved n c d m).children k = some c') :
    ∃ old, w.children k = some old ∧ old.binding = c'.binding ∧ old.killed = c'.killed ∧
      (c'.stage.Idle → old.stage.Idle ∧ (k = n → c.stage.performs m = false)) ∧
      (k = n → c.killed = false ∧ c'.stage.Fits (c.stage.step ⟨w.boot, n⟩ d m).2) ∧ (k ≠ n → c' = old) := by
  by_cases hk : k = n
  · subst hk
    simp only [World.moved, Function.update_self] at h
    split at h
    · cases h
    · next hkilled =>
      obtain ⟨stage, hstage, rfl⟩ := Option.map_eq_some_iff.mp h
      exact ⟨c, hc, rfl, rfl, fun hidle => ⟨(step_idle hstage hidle).1, fun _ => (step_idle hstage hidle).2⟩,
        fun _ => ⟨by simpa using hkilled, step_fits _ hstage⟩, fun hne => absurd rfl hne⟩
  · simp only [World.moved, Function.update_of_ne hk] at h
    exact ⟨c', h, rfl, rfl, fun hidle => ⟨hidle, fun he => absurd he hk⟩, fun he => absurd he hk, fun _ => rfl⟩

theorem moved_dir (hsound : Sound w) (hc : w.children n = some c) (hd : w.dirs c.binding.attempt = some d) {attempt : String}
    {d' : Dir A V} (h : (w.moved n c d m).dirs attempt = some d') :
    ∃ old, w.dirs attempt = some old ∧ Written ⟨w.boot, n⟩ old d' ∧ (attempt ≠ c.binding.attempt → d' = old) := by
  by_cases ha : attempt = c.binding.attempt
  · subst ha
    simp only [World.moved, Function.update_self, Option.some.injEq] at h
    subst h
    exact ⟨d, hd, step_written _ (hsound.stage n c d hc hd) m, fun hne => absurd rfl hne⟩
  · simp only [World.moved, Function.update_of_ne ha] at h
    exact ⟨d', h, .refl _ d', fun _ => rfl⟩

theorem dir_moved (hsound : Sound w) (hc : w.children n = some c) (hd : w.dirs c.binding.attempt = some d) {attempt : String}
    {old : Dir A V} (h : w.dirs attempt = some old) :
    ∃ d', (w.moved n c d m).dirs attempt = some d' ∧ Written ⟨w.boot, n⟩ old d' ∧ (attempt ≠ c.binding.attempt → d' = old) := by
  by_cases ha : attempt = c.binding.attempt
  · subst ha
    rw [hd] at h
    cases h
    exact ⟨(c.stage.step ⟨w.boot, n⟩ d m).2, by simp [World.moved], step_written _ (hsound.stage n c d hc hd) m, fun hne => absurd rfl hne⟩
  · exact ⟨old, by simpa [World.moved, Function.update_of_ne ha] using h, .refl _ old, fun _ => rfl⟩

omit [DecidableEq A] in
/-- A mark that is no child's is not new. -/
theorem moved_mem {k : Mark A V} (hacted : ∀ a, k ≠ .acted a) (hperformed : ∀ b, k ≠ .performed b) :
    k ∈ (w.moved n c d m).trace ↔ k ∈ w.trace := by
  constructor
  · intro h
    rcases List.mem_append.mp h with h | h
    · exact h
    · rcases mem_marks h with rfl | ⟨rfl, -⟩
      · exact absurd rfl (hacted _)
      · exact absurd rfl (hperformed _)
  · exact List.mem_append_left _

omit [DecidableEq A] in
theorem moved_noChild (hc : w.children n = some c) {attempt : String}
    (h : NoChild w attempt) : NoChild (w.moved n c d m) attempt := by
  intro k c' hk
  obtain ⟨old, hold, hbinding, -⟩ := moved_child hc hk
  rw [← hbinding]
  exact h k old hold

omit [DecidableEq A] in
theorem moved_neverForked {attempt : String} (h : NeverForked w attempt) : NeverForked (w.moved n c d m) attempt :=
  fun b id hb => h b id ((moved_mem (by simp) (by simp)).mp hb)

/-- A killed child's step ends it. -/
theorem moved_gone (hsound : Sound w) (hc : w.children n = some c) (hkilled : c.killed = true) :
    NoChild (w.moved n c d m) c.binding.attempt := by
  intro k c' hk hattempt
  obtain ⟨old, hold, hbinding, -, -, hsame, -⟩ := moved_child hc hk
  have hkn : k = n := hsound.child_unique hold hc (by rw [hbinding, hattempt])
  rw [hkilled] at hsame
  cases (hsame hkn).1

/-- What was read of a record stays what it is, where every child has been killed or the
attempt has none. -/
theorem moved_fits {α : Type} (hsound : Sound w) (hc : w.children n = some c) (hd : w.dirs c.binding.attempt = some d) {attempt : String}
    {slot : Dir A V → Slot α} (hslot : ∀ {id d d'}, Written id d d' → (slot d).Next (slot d')) {v : Option α}
    (hcalm : c.binding.attempt = attempt → c.killed = true) (h : Fits w attempt slot v) : Fits (w.moved n c d m) attempt slot v := by
  obtain ⟨old, hold, hv⟩ := h
  obtain ⟨d', hd', hwritten, hsame⟩ := dir_moved (m := m) hsound hc hd hold
  refine ⟨d', hd', ?_⟩
  cases v with
  | some x =>
    rcases hslot hwritten with he | ⟨habsent, -⟩ | ⟨htorn, -⟩
    · rw [he]
      exact hv
    · rw [hv] at habsent
      cases habsent
    · rw [hv] at htorn
      cases htorn
  | none =>
    rcases hv with habsent | ⟨htorn, hnone⟩
    · by_cases ha : attempt = c.binding.attempt
      · subst ha
        rcases hslot hwritten with he | ⟨-, htorn⟩ | ⟨htorn, -⟩
        · exact .inl (he.trans habsent)
        · exact .inr ⟨htorn, moved_gone hsound hc (hcalm rfl)⟩
        · rw [habsent] at htorn
          cases htorn
      · exact .inl (hsame ha ▸ habsent)
    · rw [hsame fun ha => hnone n c hc ha.symm]
      exact .inr ⟨htorn, moved_noChild hc hnone⟩

theorem moved_shows (hsound : Sound w) (hc : w.children n = some c) (hd : w.dirs c.binding.attempt = some d) {o : Observation A V}
    (hcalm : c.binding.attempt = o.binding.attempt → c.killed = true) (h : Shows w o) : Shows (w.moved n c d m) o where
  result := moved_fits hsound hc hd (fun h => h.result) hcalm h.result
  events i v hv := moved_fits hsound hc hd (fun h => h.events i) hcalm (h.events i v hv)
  few := h.few
  stops hlen := moved_fits hsound hc hd (fun h => h.events _) hcalm (h.stops hlen)
  silent hclosed := moved_noChild hc (h.silent hclosed)
  refused hrefused := moved_neverForked (h.refused hrefused)

theorem moved_ordered (hsound : Sound w) (hc : w.children n = some c) : (w.moved n c d m).trace.Pairwise Before := by
  have hobserved (o : Observation A V) (ho : .observed o ∈ w.trace) (hclosed : o.closed = true) : c.binding.attempt ≠ o.binding.attempt :=
    ((hsound.observed o ho).2.1 hclosed).silent hclosed n c hc
  refine List.pairwise_append.mpr ⟨hsound.ordered, ?_, ?_⟩
  · unfold Child.marks
    split <;> simp [Before]
  · intro k hk k' hk'
    rcases mem_marks hk' with rfl | ⟨rfl, hperforms⟩
    · cases k with
      | observed o => exact hobserved o hk
      | _ => trivial
    · cases k with
      | performed b => exact hsound.idle n c hc (performs_idle hperforms) b hk
      | _ => trivial

theorem moved_sound (hsound : Sound w) (hc : w.children n = some c) (hd : w.dirs c.binding.attempt = some d) :
    Sound (w.moved n c d m) where
  bound b hb := by
    have hrecorded := hsound.bound b ((moved_mem (by simp) (by simp)).mp hb)
    obtain ⟨old, hold, hbinding⟩ := Sound.recorded_dir hrecorded
    obtain ⟨d', hd', hwritten, -⟩ := dir_moved (m := m) hsound hc hd hold
    simp [World.recorded, hd', hwritten.binding, hbinding]
  child k c' hk := by
    obtain ⟨old, hold, hbinding, -⟩ := moved_child hc hk
    obtain ⟨hlt, hforked⟩ := hsound.child k old hold
    exact ⟨hlt, List.mem_append_left _ (hbinding ▸ hforked)⟩
  forked b id hb := by
    obtain ⟨hsub, old, hold, hnone⟩ := hsound.forked b id ((moved_mem (by simp) (by simp)).mp hb)
    obtain ⟨d', hd', hwritten, -⟩ := dir_moved (m := m) hsound hc hd hold
    exact ⟨hsub.trans (List.sublist_append_left _ _), d', hd', hwritten.notStarted.trans hnone⟩
  once b id b' id' hb hb' :=
    hsound.once b id b' id' ((moved_mem (by simp) (by simp)).mp hb) ((moved_mem (by simp) (by simp)).mp hb')
  stage k c' d' hk hd' := by
    obtain ⟨old, hold, hbinding, -, -, hsame, hother⟩ := moved_child hc hk
    by_cases hkn : k = n
    · subst hkn
      rw [hc] at hold
      cases hold
      rw [← hbinding] at hd'
      simp only [World.moved, Function.update_self, Option.some.injEq] at hd'
      subst hd'
      exact (hsame rfl).2
    · have he := hother hkn
      subst he
      have ha : c'.binding.attempt ≠ c.binding.attempt := fun ha => hkn (hsound.child_unique hold hc ha)
      simp only [World.moved, Function.update_of_ne ha] at hd'
      exact hsound.stage k c' d' hold hd'
  process attempt d' p hd' hp := by
    obtain ⟨old, hold, hwritten, hsame⟩ := moved_dir hsound hc hd hd'
    by_cases ha : attempt = c.binding.attempt
    · subst ha
      rcases hwritten.known p hp with hp | rfl
      · obtain ⟨b, hb, hattempt⟩ := hsound.process _ old p hold hp
        exact ⟨b, List.mem_append_left _ hb, hattempt⟩
      · exact ⟨c.binding, List.mem_append_left _ (hsound.child n c hc).2, rfl⟩
    · rw [hsame ha] at hp
      obtain ⟨b, hb, hattempt⟩ := hsound.process _ old p hold hp
      exact ⟨b, List.mem_append_left _ hb, hattempt⟩
  held attempt p hp := by
    obtain ⟨b, hb, hattempt⟩ := hsound.held attempt p hp
    exact ⟨b, List.mem_append_left _ hb, hattempt⟩
  refused attempt proof hp := by
    obtain ⟨hthere, hnever⟩ := hsound.refused attempt proof hp
    obtain ⟨old, hold⟩ := Option.isSome_iff_exists.mp hthere
    obtain ⟨d', hd', -⟩ := dir_moved (m := m) hsound hc hd hold
    exact ⟨by rw [hd']; rfl, moved_neverForked hnever⟩
  parent me hme k c' hk := by
    obtain ⟨old, hold, hbinding, -⟩ := moved_child hc hk
    rw [← hbinding]
    exact hsound.parent me hme k old hold
  idle k c' hk hidle b hb := by
    obtain ⟨old, hold, hbinding, -, hold_idle, -, -⟩ := moved_child hc hk
    obtain ⟨hwas, hquiet⟩ := hold_idle hidle
    rw [← hbinding]
    rcases List.mem_append.mp hb with hb | hb
    · exact hsound.idle k old hold hwas b hb
    · rcases mem_marks hb with hb | ⟨hb, hperforms⟩
      · cases hb
      · cases hb
        intro ha
        have hkn := hsound.child_unique hold hc ha.symm
        rw [hquiet hkn] at hperforms
        cases hperforms
  performed b hb := by
    rcases List.mem_append.mp hb with hb | hb
    · obtain ⟨id, hsub⟩ := hsound.performed b hb
      exact ⟨id, hsub.trans (List.sublist_append_left _ _)⟩
    · rcases mem_marks hb with hb | ⟨hb, hperforms⟩
      · cases hb
      · cases hb
        have hforked := (hsound.child n c hc).2
        have hlast : List.Sublist [Mark.performed c.binding] (c.marks m) := by simp [Child.marks, hperforms]
        exact ⟨_, (hsound.forked _ _ hforked).1.append hlast⟩
  observed o ho := by
    obtain ⟨hthere, hshows, hrefused⟩ := hsound.observed o ((moved_mem (by simp) (by simp)).mp ho)
    obtain ⟨old, hold⟩ := Option.isSome_iff_exists.mp hthere
    obtain ⟨d', hd', -⟩ := dir_moved (m := m) hsound hc hd hold
    refine ⟨by rw [hd']; rfl, fun hclosed => moved_shows hsound hc hd (fun ha => ?_) (hshows hclosed), fun h => moved_neverForked (hrefused h)⟩
    exact absurd ha ((hshows hclosed).silent hclosed n c hc)
  answered action o ho := hsound.answered action o ((moved_mem (by simp) (by simp)).mp ho)
  ordered := moved_ordered hsound hc

end Moved

theorem advance_sound {w : World A V} (h : Sound w) (at' : Nat × Move V) : Sound (advance w at') := by
  obtain ⟨n, m⟩ := at'
  rcases advance_cases w n m with he | ⟨c, d, hc, hd, he⟩
  · rw [he]
    exact h
  · rw [he]
    exact moved_sound h hc hd

end LocalHand.Supervision
