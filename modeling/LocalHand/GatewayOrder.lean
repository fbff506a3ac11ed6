/-
What holds of a gateway's deliveries, and which steps keep it.
-/
import LocalHand.Gateway

namespace LocalHand.Gateway

open QuotaContract Asking

variable {env : Env} {base : List Mark} {c c₀ : Core} {key : Key} {part : Part}

/-! ## Laws of a mark -/

/-- The phases before one in `PHASES`. -/
def earlierPhases (phase : Phase) : List Phase := phaseOrder.takeWhile (· ≠ phase)

/-- No recovery was armed and no recovery peer bound. -/
def Live (trace : List Mark) : Prop := Mark.armed ∉ trace ∧ Mark.rebound ∉ trace

/-- What must have come before a mark. -/
def Mark.Justified (before : List Mark) : Mark → Prop
  | .authorized phase => ∀ earlier ∈ earlierPhases phase, .closed earlier ∈ before
  | .closed phase => ∀ stage, .sealedStage (phase, stage) ∈ before
  | .intended _ => Live before
  | .spawned key => .spawned key ∉ before ∧ .intended key ∈ before ∧ .authorized key.1 ∈ before
      ∧ (∀ previous, previousStage key.2 = some previous → .sealedStage (key.1, previous) ∈ before) ∧ Live before
  | .bound key invocation => ∀ other, .bound key other ∈ before → other = invocation
  | .stopAcked key invocation => .bound key invocation ∈ before
  | .sealedStage key => .sealedStage key ∉ before ∧ .spawned key ∈ before
      ∧ (∃ invocation, .bound key invocation ∈ before ∧ .stopAcked key invocation ∈ before) ∧ Live before
  | .signalled _ => Live before
  | .armed | .rebound => True

/-! ## The invariant -/

/-- What holds of a gateway that has marked `base` before. -/
structure Sound (base : List Mark) (c : Core) : Prop where
  grew : base <+: c.trace
  law : History.Lawful Mark.Justified c.trace
  armed : .armed ∈ c.trace → c.recoveryArmed = true
  rebound : .rebound ∈ c.trace → c.recoveryOnly = true
  delivered : ∀ key, .spawned key ∈ c.trace → (c.parts key).isSome = true
  client : ∀ key part, c.parts key = some part → part.process.isSome = true → .spawned key ∈ c.trace
  isSealed : ∀ key, .sealedStage key ∈ c.trace ↔ c.sealed key = true
  bound : ∀ key invocation, .bound key invocation ∈ c.trace ↔ (c.parts key).bind Part.invocationId = some invocation
  stopped : ∀ key part, c.parts key = some part → part.stopOk = true →
    ∃ invocation, part.invocationId = some invocation ∧ .stopAcked key invocation ∈ c.trace
  registered : c.phases.map Prod.fst = phaseOrder.take c.phases.length
  closedFirst : c.closedPhases = phaseOrder.take c.closedPhases.length
  authorized : ∀ phase, phase ∈ c.phases.map Prod.fst → .authorized phase ∈ c.trace
  closed : ∀ phase, phase ∈ c.closedPhases → .closed phase ∈ c.trace

theorem Sound.live (h : Sound base c) (harmed : c.recoveryArmed = false) (honly : c.recoveryOnly = false) : Live c.trace :=
  ⟨fun hin => by simp [h.armed hin] at harmed, fun hin => by simp [h.rebound hin] at honly⟩

/-- What every step keeps of a part, but the one that changes it. -/
structure Part.Kept (part part' : Part) : Prop where
  invocationId : part'.invocationId = part.invocationId
  isSealed : part'.isSealed = part.isSealed
  stopOk : part'.stopOk = true → part.stopOk = true
  process : part'.process.isSome = true → part.process.isSome = true

theorem Part.Kept.refl (part : Part) : part.Kept part := ⟨rfl, rfl, id, id⟩

/-- Parts that are kept, one for one. -/
def KeptParts (parts parts' : Key → Option Part) : Prop := ∀ key, Option.Rel Part.Kept (parts key) (parts' key)

theorem KeptParts.refl (parts : Key → Option Part) : KeptParts parts parts := fun key => by
  cases parts key with
  | none => exact .none
  | some part => exact .some (Part.Kept.refl part)

theorem KeptParts.setPart {f : Part → Part} (hf : ∀ part : Part, part.Kept (f part)) (c : Core) (key : Key) :
    KeptParts c.parts (c.setPart key f).parts := fun other => by
  by_cases hother : other = key
  · subst hother
    show Option.Rel Part.Kept (c.parts other) (Function.update c.parts other ((c.parts other).map f) other)
    rw [Function.update_self]
    cases c.parts other with
    | none => exact .none
    | some part => exact .some (hf part)
  · show Option.Rel Part.Kept (c.parts other) (Function.update c.parts key _ other)
    rw [Function.update_of_ne hother]
    exact KeptParts.refl c.parts other

/-- A change of what the laws are not about. -/
theorem Sound.frame {c' : Core} (h : Sound base c) (htrace : c'.trace = c.trace) (harmed : c.recoveryArmed = true → c'.recoveryArmed = true)
    (honly : c.recoveryOnly = true → c'.recoveryOnly = true) (hphases : c'.phases = c.phases) (hclosed : c'.closedPhases = c.closedPhases)
    (hparts : KeptParts c.parts c'.parts) : Sound base c' where
  grew := by rw [htrace]; exact h.grew
  law := by rw [htrace]; exact h.law
  armed hin := harmed (h.armed (htrace ▸ hin))
  rebound hin := honly (h.rebound (htrace ▸ hin))
  delivered key hin := by
    have hsome := h.delivered key (htrace ▸ hin)
    have hkept := hparts key
    generalize c.parts key = o at hkept hsome
    generalize c'.parts key = o' at hkept
    cases hkept with
    | none => cases hsome
    | some hk => rfl
  client key part' hp' hprocess := by
    have hkept := hparts key
    rw [hp'] at hkept
    cases hp : c.parts key with
    | none => rw [hp] at hkept; cases hkept
    | some part =>
      rw [hp] at hkept
      cases hkept with
      | some hk =>
        rw [htrace]
        exact h.client key part hp (hk.process hprocess)
  isSealed key := by
    have hkept := hparts key
    rw [htrace, h.isSealed key]
    show (c.parts key).any Part.isSealed = true ↔ (c'.parts key).any Part.isSealed = true
    generalize c.parts key = o at hkept
    generalize c'.parts key = o' at hkept
    cases hkept with
    | none => exact Iff.rfl
    | some hk => simp [hk.isSealed]
  bound key invocation := by
    have hkept := hparts key
    rw [htrace, h.bound key invocation]
    generalize c.parts key = o at hkept
    generalize c'.parts key = o' at hkept
    cases hkept with
    | none => exact Iff.rfl
    | some hk => simp [hk.invocationId]
  stopped key part' hp' hstop := by
    have hkept := hparts key
    rw [hp'] at hkept
    cases hp : c.parts key with
    | none => rw [hp] at hkept; cases hkept
    | some part =>
      rw [hp] at hkept
      cases hkept with
      | some hk =>
        rw [htrace, hk.invocationId]
        exact h.stopped key part hp (hk.stopOk hstop)
  registered := by rw [hphases]; exact h.registered
  closedFirst := by rw [hclosed]; exact h.closedFirst
  authorized phase hin := by rw [htrace]; exact h.authorized phase (hphases ▸ hin)
  closed phase hin := by rw [htrace]; exact h.closed phase (hclosed ▸ hin)

theorem Sound.setPart (h : Sound base c) {f : Part → Part} (hf : ∀ part : Part, part.Kept (f part)) (key : Key) : Sound base (c.setPart key f) :=
  h.frame rfl id id rfl rfl (KeptParts.setPart hf c key)

/-! ## Marks -/

theorem setPart_self {f : Part → Part} (hpart : c.parts key = some part) : (c.setPart key f).parts key = some (f part) := by
  show Function.update c.parts key _ key = _
  rw [Function.update_self, hpart]
  rfl

theorem setPart_other {f : Part → Part} {other : Key} (hne : other ≠ key) : (c.setPart key f).parts other = c.parts other :=
  Function.update_of_ne hne _ _

/-- A mark gained, with the change it is the mark of. -/
theorem Sound.grow {c' : Core} {k : Mark} (h : Sound base c) (htrace : c'.trace = c.trace ++ [k]) (hjustified : k.Justified c.trace)
    (harmed : c.recoveryArmed = true ∨ k = .armed → c'.recoveryArmed = true)
    (honly : c.recoveryOnly = true ∨ k = .rebound → c'.recoveryOnly = true)
    (hdelivered : ∀ key, (c.parts key).isSome = true ∨ k = .spawned key → (c'.parts key).isSome = true)
    (hclient : ∀ key part, c'.parts key = some part → part.process.isSome = true → .spawned key ∈ c.trace ∨ k = .spawned key)
    (hsealed : ∀ key, c'.sealed key = true ↔ c.sealed key = true ∨ k = .sealedStage key)
    (hbound : ∀ key invocation, (c'.parts key).bind Part.invocationId = some invocation ↔
      (c.parts key).bind Part.invocationId = some invocation ∨ k = .bound key invocation)
    (hstopped : ∀ key part, c'.parts key = some part → part.stopOk = true →
      ∃ invocation, part.invocationId = some invocation ∧ (.stopAcked key invocation ∈ c.trace ∨ k = .stopAcked key invocation))
    (hregistered : c'.phases.map Prod.fst = phaseOrder.take c'.phases.length)
    (hclosedFirst : c'.closedPhases = phaseOrder.take c'.closedPhases.length)
    (hauthorized : ∀ phase ∈ c'.phases.map Prod.fst, phase ∈ c.phases.map Prod.fst ∨ k = .authorized phase)
    (hclosed : ∀ phase ∈ c'.closedPhases, phase ∈ c.closedPhases ∨ k = .closed phase) : Sound base c' := by
  have hmem (m : Mark) : m ∈ c'.trace ↔ m ∈ c.trace ∨ k = m := by
    rw [htrace, List.mem_append, List.mem_singleton]
    exact or_congr_right eq_comm
  refine ⟨by rw [htrace]; exact h.grew.trans (List.prefix_append _ _), by rw [htrace]; exact h.law.snoc hjustified, fun hin => ?_, fun hin => ?_, fun key hin => ?_, fun key part hp hprocess => ?_,
    fun key => ?_, fun key invocation => ?_, fun key part hp hstop => ?_, hregistered, hclosedFirst, fun phase hin => ?_, fun phase hin => ?_⟩
  · exact harmed (((hmem _).mp hin).imp_left h.armed)
  · exact honly (((hmem _).mp hin).imp_left h.rebound)
  · exact hdelivered key (((hmem _).mp hin).imp_left (h.delivered key))
  · exact (hmem _).mpr (hclient key part hp hprocess)
  · rw [hmem, hsealed, h.isSealed]
  · rw [hmem, hbound, h.bound]
  · obtain ⟨invocation, hinv, hacked⟩ := hstopped key part hp hstop
    exact ⟨invocation, hinv, (hmem _).mpr hacked⟩
  · exact (hmem _).mpr ((hauthorized phase hin).imp_left (h.authorized phase))
  · exact (hmem _).mpr ((hclosed phase hin).imp_left (h.closed phase))

/-- A mark that stands for no change of a part or of a phase. -/
theorem Sound.note {k : Mark} (h : Sound base c) (hjustified : k.Justified c.trace) (harmed : k = .armed → c.recoveryArmed = true)
    (honly : k = .rebound → c.recoveryOnly = true) (hspawned : ∀ key, k = .spawned key → (c.parts key).isSome = true)
    (hsealed : ∀ key, k ≠ .sealedStage key) (hbound : ∀ key invocation, k ≠ .bound key invocation) : Sound base (c.mark k) :=
  h.grow rfl hjustified (fun hor => hor.elim id harmed) (fun hor => hor.elim id honly) (fun key hor => hor.elim id (hspawned key))
    (fun key part hp hprocess => .inl (h.client key part hp hprocess)) (fun key => by simp [hsealed key, Core.mark, Core.sealed])
    (fun key invocation => by simp [hbound key invocation, Core.mark])
    (fun key part hp hstop => (h.stopped key part hp hstop).imp fun _ hacked => ⟨hacked.1, .inl hacked.2⟩) h.registered h.closedFirst
    (fun _ hin => .inl hin) fun _ hin => .inl hin

theorem Sound.intended (h : Sound base c) (hlive : Live c.trace) (key : Key) : Sound base (c.mark (.intended key)) :=
  h.note hlive (by simp) (by simp) (by simp) (by simp) (by simp)

theorem Sound.signalled (h : Sound base c) (hlive : Live c.trace) (key : Key) : Sound base (c.mark (.signalled key)) :=
  h.note hlive (by simp) (by simp) (by simp) (by simp) (by simp)

/-- A part changed with a mark of its own. -/
theorem Sound.setMarked {k : Mark} {f : Part → Part} (h : Sound base c) (hpart : c.parts key = some part) (hjustified : k.Justified c.trace)
    (harmed : k ≠ .armed) (hrebound : k ≠ .rebound) (hspawned : ∀ other, k = .spawned other → other = key)
    (hclient : (f part).process.isSome = true → part.process.isSome = true ∨ k = .spawned key)
    (hsealed : ∀ other, k = .sealedStage other → other = key) (hsealed' : (f part).isSealed = true ↔ part.isSealed = true ∨ k = .sealedStage key)
    (hbound : ∀ other invocation, k = .bound other invocation → other = key)
    (hbound' : ∀ invocation, (f part).invocationId = some invocation ↔ part.invocationId = some invocation ∨ k = .bound key invocation)
    (hstopped : (f part).stopOk = true → part.stopOk = true ∨ ∃ invocation, part.invocationId = some invocation ∧ k = .stopAcked key invocation) :
    Sound base ((c.setPart key f).mark k) := by
  have hself : ((c.setPart key f).mark k).parts key = some (f part) := setPart_self hpart
  have hother {other : Key} (hne : other ≠ key) : ((c.setPart key f).mark k).parts other = c.parts other := setPart_other hne
  refine h.grow rfl hjustified (fun hor => hor.resolve_right harmed) (fun hor => hor.resolve_right hrebound) (fun other hor => ?_)
    (fun other part' hp hprocess => ?_) (fun other => ?_) (fun other invocation => ?_) (fun other part' hp hstop => ?_) h.registered h.closedFirst
    (fun _ hin => .inl hin) fun _ hin => .inl hin
  · by_cases hne : other = key
    · subst hne
      rw [hself]
      rfl
    · rw [hother hne]
      exact hor.resolve_right fun hk => hne (hspawned other hk)
  · by_cases hne : other = key
    · subst hne
      rw [hself] at hp
      cases hp
      exact (hclient hprocess).imp_left fun hold => h.client other part hpart hold
    · rw [hother hne] at hp
      exact .inl (h.client other part' hp hprocess)
  · show (((c.setPart key f).mark k).parts other).any Part.isSealed = true ↔ (c.parts other).any Part.isSealed = true ∨ _
    by_cases hne : other = key
    · subst hne
      rw [hself, hpart]
      exact hsealed'
    · rw [hother hne]
      simp [show k ≠ .sealedStage other from fun hk => hne (hsealed other hk)]
  · by_cases hne : other = key
    · subst hne
      rw [hself, hpart]
      exact hbound' invocation
    · rw [hother hne]
      simp [show k ≠ .bound other invocation from fun hk => hne (hbound other invocation hk)]
  · by_cases hne : other = key
    · subst hne
      rw [hself] at hp
      cases hp
      rcases hstopped hstop with hold | ⟨invocation, hinv, hk⟩
      · obtain ⟨invocation, hinv, hacked⟩ := h.stopped other part hpart hold
        exact ⟨invocation, (hbound' invocation).mpr (.inl hinv), .inl hacked⟩
      · exact ⟨invocation, (hbound' invocation).mpr (.inl hinv), .inr hk⟩
    · rw [hother hne] at hp
      exact (h.stopped other part' hp hstop).imp fun _ hacked => ⟨hacked.1, .inl hacked.2⟩

/-- The invocation an observation gave, where none or the same was bound. -/
theorem Sound.bind (h : Sound base c) (hpart : c.parts key = some part) {invocation : String} (values : Values)
    (hsame : part.invocationId.all (· = invocation) = true) :
    Sound base ((c.setPart key (·.bind invocation values)).mark (.bound key invocation)) := by
  have hbefore (other : String) (hin : .bound key other ∈ c.trace) : other = invocation := by
    rw [h.bound key other, hpart] at hin
    simpa [show part.invocationId = some other from hin] using hsame
  refine h.setMarked hpart hbefore (by simp) (by simp) (by simp) (fun hp => .inl hp) (by simp) (by simp [Part.bind]) ?_ (fun other => ?_)
    (fun hstop => .inl hstop)
  · rintro other inv ⟨⟩
    rfl
  · constructor
    · rintro ⟨⟩
      exact .inr rfl
    · rintro (hold | hk)
      · have : other = invocation := by simpa [hold] using hsame
        rw [this]
        rfl
      · rw [← (Mark.bound.inj hk).2]
        rfl

/-- A stop that was acknowledged, of the invocation that is bound. -/
theorem Sound.stopAcked (h : Sound base c) (hpart : c.parts key = some part) {invocation : String} (hinv : part.invocationId = some invocation) :
    Sound base ((c.setPart key fun part => { part with stopOk := true }).mark (.stopAcked key invocation)) := by
  have hbound : .bound key invocation ∈ c.trace := by
    rw [h.bound, hpart]
    exact hinv
  exact h.setMarked hpart hbound (by simp) (by simp) (by simp) (fun hp => .inl hp) (by simp) (by simp) (by simp) (by simp)
    (fun _ => .inr ⟨invocation, hinv, rfl⟩)

theorem Sound.sealedStage (h : Sound base c) (hlive : Live c.trace) (hpart : c.parts key = some part) (hopen : part.isSealed = false)
    (hstop : part.stopOk = true) (hclient : part.process.isSome = true) :
    Sound base ((c.setPart key fun part => { part with pidfd := false, isSealed := true }).mark (.sealedStage key)) := by
  obtain ⟨invocation, hinv, hacked⟩ := h.stopped key part hpart hstop
  have hnot : .sealedStage key ∉ c.trace := fun hin => by
    rw [h.isSealed] at hin
    simp [Core.sealed, hpart, hopen] at hin
  have hbound : .bound key invocation ∈ c.trace := by
    rw [h.bound, hpart]
    exact hinv
  refine h.setMarked hpart ⟨hnot, h.client key part hpart hclient, ⟨invocation, hbound, hacked⟩, hlive⟩ (by simp) (by simp) (by simp)
    (fun hp => .inl hp) ?_ (by simp) (by simp) (by simp) fun hstop => .inl hstop
  rintro other ⟨⟩
  rfl

theorem register_self (part : Part) : (c.register key part).parts key = some part := Function.update_self _ _ _

theorem register_other (part : Part) {other : Key} (hne : other ≠ key) : (c.register key part).parts other = c.parts other :=
  Function.update_of_ne hne _ _

/-- A part recorded before its delivery. -/
theorem Sound.register (h : Sound base c) (hnone : c.parts key = none) (unit token : String) (properties : Values) :
    Sound base (c.register key (.fresh unit token properties)) := by
  refine ⟨h.grew, h.law, h.armed, h.rebound, fun other hin => ?_, fun other part hp hprocess => ?_, fun other => (h.isSealed other).trans ?_,
    fun other invocation => (h.bound other invocation).trans ?_, fun other part hp hstop => ?_, h.registered, h.closedFirst, h.authorized, h.closed⟩
  all_goals by_cases hother : other = key
  · rw [hother, register_self]
    rfl
  · rw [register_other _ hother]
    exact h.delivered other hin
  · rw [hother, register_self] at hp
    cases hp
    cases hprocess
  · rw [register_other _ hother] at hp
    exact h.client other part hp hprocess
  · rw [hother]
    simp [Core.sealed, register_self, hnone, Part.fresh]
  · simp [Core.sealed, register_other _ hother]
  · rw [hother]
    simp [register_self, hnone, Part.fresh]
  · rw [register_other _ hother]
  · rw [hother, register_self] at hp
    cases hp
    cases hstop
  · rw [register_other _ hother] at hp
    exact h.stopped other part hp hstop

/-- What a delivery has behind it. -/
structure Ready (c : Core) (key : Key) : Prop where
  intended : .intended key ∈ c.trace
  first : .spawned key ∉ c.trace
  registered : key.1 ∈ c.phases.map Prod.fst
  previous : ∀ previous, previousStage key.2 = some previous → c.sealed (key.1, previous) = true
  live : Live c.trace

theorem Ready.justified (h : Sound base c) (hready : Ready c key) : (Mark.spawned key).Justified c.trace :=
  ⟨hready.first, hready.intended, h.authorized _ hready.registered, fun previous hprevious => (h.isSealed _).mpr (hready.previous previous hprevious),
    hready.live⟩

theorem Sound.spawned (h : Sound base c) (hready : Ready c key) (hpart : c.parts key = some part) (pid : Int) :
    Sound base ((c.setPart key fun part => { part with process := some pid }).mark (.spawned key)) := by
  refine h.setMarked hpart (hready.justified h) (by simp) (by simp) ?_ (fun _ => .inr rfl) (by simp) (by simp) (by simp) (by simp)
    fun hstop => .inl hstop
  rintro other ⟨⟩
  rfl

/-- A client that was lost on the way. -/
theorem Sound.lost (h : Sound base c) (hready : Ready c key) (hpart : c.parts key = some part) : Sound base (c.mark (.spawned key)) :=
  h.note (hready.justified h) (by simp) (by simp) (fun other hk => by cases hk; rw [hpart]; rfl) (by simp) (by simp)

/-! ## Phases -/

theorem earlier_of_next {phase : Phase} {n : Nat} (hnext : phaseOrder[n]? = some phase) {earlier : Phase} (hearlier : earlier ∈ earlierPhases phase) :
    earlier ∈ phaseOrder.take n := by
  match n with
  | 0 | 1 | 2 =>
    cases hnext
    exact hearlier
  | n + 3 => cases hnext

theorem take_snoc {α : Type} {l : List α} {n : Nat} {a : α} (h : l[n]? = some a) : l.take (n + 1) = l.take n ++ [a] := by
  rw [List.take_add_one, h]
  rfl

theorem Sound.authorize (h : Sound base c) {phase : Phase} (hnext : phaseOrder[c.phases.length]? = some phase)
    (hclosed : c.closedPhases = c.phases.map Prod.fst) (found : Registered) :
    Sound base ({ c with phases := c.phases ++ [(phase, found)] }.mark (.authorized phase)) := by
  refine h.grow rfl (fun earlier hearlier => h.closed earlier ?_) (fun hor => hor.resolve_right (by simp)) (fun hor => hor.resolve_right (by simp))
    (fun key hor => hor.resolve_right (by simp)) (fun key part hp hprocess => .inl (h.client key part hp hprocess)) (fun key => by simp [Core.mark, Core.sealed])
    (fun key invocation => by simp [Core.mark]) (fun key part hp hstop => (h.stopped key part hp hstop).imp fun _ hacked => ⟨hacked.1, .inl hacked.2⟩)
    ?_ h.closedFirst (fun other hin => ?_) fun _ hin => .inl hin
  · rw [hclosed, h.registered]
    exact earlier_of_next hnext hearlier
  · show (c.phases ++ [(phase, found)]).map Prod.fst = phaseOrder.take (c.phases ++ [(phase, found)]).length
    rw [List.map_append, List.length_append, h.registered]
    exact (take_snoc hnext).symm
  · have hsplit : other ∈ (c.phases ++ [(phase, found)]).map Prod.fst := hin
    rw [List.map_append, List.mem_append] at hsplit
    exact hsplit.imp_right fun he => by rw [List.mem_singleton.mp he]

theorem Sound.closePhase (h : Sound base c) {phase : Phase} (hnext : phaseOrder[c.closedPhases.length]? = some phase)
    (hsealed : ∀ stage, c.sealed (phase, stage) = true) :
    Sound base ({ c with closedPhases := c.closedPhases ++ [phase] }.mark (.closed phase)) := by
  refine h.grow rfl (fun stage => (h.isSealed _).mpr (hsealed stage)) (fun hor => hor.resolve_right (by simp)) (fun hor => hor.resolve_right (by simp))
    (fun key hor => hor.resolve_right (by simp)) (fun key part hp hprocess => .inl (h.client key part hp hprocess)) (fun key => by simp [Core.mark, Core.sealed])
    (fun key invocation => by simp [Core.mark]) (fun key part hp hstop => (h.stopped key part hp hstop).imp fun _ hacked => ⟨hacked.1, .inl hacked.2⟩)
    h.registered ?_ (fun _ hin => .inl hin) fun other hin => ?_
  · show c.closedPhases ++ [phase] = phaseOrder.take (c.closedPhases ++ [phase]).length
    rw [List.length_append, List.length_singleton, take_snoc hnext, ← h.closedFirst]
  · exact (List.mem_append.mp hin).imp_right fun he => by rw [List.mem_singleton.mp he]

end LocalHand.Gateway
