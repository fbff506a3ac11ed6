/-
A gateway's calls, one after another: each keeps what holds of its deliveries, so every run does.
-/
import LocalHand.GatewayOrder
import LocalHand.Lib.Run

namespace LocalHand.Gateway

open QuotaContract Asking

variable {env : Env} {base : List Mark} {c c₀ : Core} {key : Key} {P E : Core → Prop} {α β : Type} {R : β → Core → Prop}

/-! ## Calls that only ask -/

/-- A property the count of the controls and a pending one do not matter to. -/
def Steady (P : Core → Prop) : Prop := ∀ c n b, P c → P { c with controls := n, pendingControl := b }

theorem steady_sound : Steady (Sound base) := fun c _ _ h => h.frame rfl id id rfl rfl (KeptParts.refl c.parts)

/-- The core, but for its controls. -/
def Calm (c₀ c : Core) : Prop := ∃ n b, c = { c₀ with controls := n, pendingControl := b }

theorem Calm.refl (c : Core) : Calm c c := ⟨c.controls, c.pendingControl, rfl⟩

theorem steady_calm (c₀ : Core) : Steady (Calm c₀) := by
  rintro c n b ⟨m, b', rfl⟩
  exact ⟨n, b, rfl⟩

theorem Calm.sound (h : Sound base c₀) (hcalm : Calm c₀ c) : Sound base c := by
  obtain ⟨n, b, rfl⟩ := hcalm
  exact steady_sound c₀ n b h

theorem time_spec (hE : ∀ c, P c → E c) : Triple P (time env) (fun _ => P) E :=
  Triple.core fun c hc => by
    have hhere (c' : Core) (h : c' = c) : E c' := h ▸ hE c hc
    exact Triple.demand hhere fun _ => Triple.ask fun _ => Triple.lift hhere fun _ _ => Triple.demand hhere fun _ =>
      Triple.ret fun c' h => h ▸ hc

theorem parent_spec (hE : ∀ c, P c → E c) (empty : Bool) : Triple P (parent env empty) (fun _ => P) E :=
  Triple.ask fun _ => Triple.lift hE fun _ _ => Triple.demanded hE fun _ _ h => h

theorem journal_spec (hE : ∀ c, P c → E c) : Triple P (journal env) (fun _ => P) E :=
  Triple.ask fun _ => Triple.lifted hE fun _ _ _ h => h

theorem command_spec (hP : Steady P) (hE : ∀ c, P c → E c) (what : Command) : Triple P (command env what) (fun _ => P) E := by
  refine Triple.bind (time_spec hE) fun _ => ?_
  refine Triple.change (S := P) (fun c hc => hP c (c.controls + 1) c.pendingControl hc) ?_
  refine Triple.core fun c hc => ?_
  have hhere (c' : Core) (h : c' = c) : E c' := h ▸ hE c hc
  refine Triple.demand hhere fun _ => Triple.demand hhere fun _ => ?_
  refine Triple.change (S := P) (fun c' h => ?_) ?_
  · rw [h]
    exact hP c c.controls true hc
  · refine Triple.pass hE (Triple.ask fun n => ?_)
    exact Triple.change (S := P) (fun c hc => hP c c.controls false hc) (Triple.ret fun _ h => h)

theorem partOf_then {f : Part → Act β} (hE : ∀ c, P c → E c)
    (h : ∀ c part, P c → c.parts key = some part → Triple (· = c) (f part) R E) : Triple P (partOf key >>= f) R E := by
  refine Triple.bind (Q := fun part c => P c ∧ c.parts key = some part) ?_ fun part => Triple.at_core fun c hc => h c part hc.1 hc.2
  refine Triple.core fun c hc => Triple.lifted (fun c' hc' => hc' ▸ hE c hc) fun part hpart c' hc' => ?_
  subst hc'
  refine ⟨hc, ?_⟩
  cases hp : c'.parts key with
  | none => rw [hp] at hpart; cases hpart
  | some part' => rw [hp] at hpart; cases hpart; rfl

theorem partOf_keeps (hE : ∀ c, P c → E c) : Triple P (partOf key) (fun _ => P) E :=
  Triple.core fun c hc => Triple.lifted (fun _ h => h ▸ hE c hc) fun _ _ _ h => h ▸ hc

/-- The phase is registered. -/
theorem registered_spec (hE : ∀ c, P c → E c) (phase : Phase) :
    Triple P (registered phase) (fun _ c => P c ∧ phase ∈ c.phases.map Prod.fst) E := by
  refine Triple.core fun c hc => Triple.lifted (fun c' hc' => hc' ▸ hE c hc) fun found hfound c' hc' => ?_
  subst hc'
  refine ⟨hc, ?_⟩
  cases hlookup : c'.phases.lookup phase with
  | none => rw [hlookup] at hfound; cases hfound
  | some found' =>
    obtain ⟨before, after, hphases, -⟩ := List.lookup_eq_some_iff.mp hlookup
    rw [hphases]
    simp

theorem item_spec (hE : ∀ c, P c → E c) (ref : Ref) : Triple P (item ref) (fun _ c => P c ∧ ref.phase ∈ c.phases.map Prod.fst) E :=
  Triple.bind (registered_spec hE ref.phase) fun _ => Triple.demand (fun c h => hE c h.1) fun _ => Triple.ret fun _ h => h

theorem liveCode_spec (hE : ∀ c, P c → E c) (part : Part) (ticks : Int) : Triple P (liveCode env part ticks) (fun _ => P) E := by
  refine Triple.ask fun n => ?_
  cases env.startTicks n with
  | ok seen => exact Triple.demand hE fun _ => Triple.ret fun _ h => h
  | error gone => exact Triple.ask fun _ => Triple.ask fun _ => Triple.demand hE fun _ => Triple.ret fun _ h => h

theorem state_spec (hE : ∀ c, P c → E c) : Triple P (state env key) (fun _ => P) E := by
  refine partOf_then hE fun c part hc _ => ?_
  have hhere (c' : Core) (h : c' = c) : E c' := h ▸ hE c hc
  refine Triple.lift hhere fun pid _ => Triple.lift hhere fun ticks _ => Triple.ask fun n => ?_
  cases env.poll n with
  | some code => exact Triple.ret fun c' h => h ▸ hc
  | none => exact Triple.bind (liveCode_spec hhere part ticks) fun _ => Triple.ret fun c' h => h ▸ hc

/-! ## Observation -/

theorem showSettled_spec (hP : Steady P) (hE : ∀ c, P c → E c) (end_ : Int) (attempts : Nat) :
    Triple P (showSettled env key end_ attempts) (fun _ => P) E := by
  induction attempts with
  | zero => exact Triple.raises hE
  | succ more ih =>
    refine Triple.bind (partOf_keeps hE) fun part => Triple.bind (command_spec hP hE _) fun reply => Triple.demand hE fun _ =>
      Triple.lift hE fun values _ => Triple.ask fun n => ?_
    split
    · exact Triple.demand hE fun _ => Triple.bind (time_spec hE) fun _ => Triple.demand hE fun _ => ih
    · exact Triple.ret fun _ h => h

/-- What an observation leaves as it was. -/
structure Observed (c₀ c : Core) : Prop where
  armed : c.recoveryArmed = c₀.recoveryArmed
  only : c.recoveryOnly = c₀.recoveryOnly
  isSealed : ∀ key, c.sealed key = c₀.sealed key

theorem Observed.setPart (h : Observed c₀ c) {f : Part → Part} (hf : ∀ part, (f part).isSealed = part.isSealed) (key : Key) :
    Observed c₀ (c.setPart key f) := by
  refine ⟨h.armed, h.only, fun other => ?_⟩
  rw [← h.isSealed other]
  by_cases hother : other = key
  · subst hother
    show (Function.update c.parts other _ other).any _ = _
    rw [Function.update_self]
    show ((c.parts other).map f).any Part.isSealed = (c.parts other).any Part.isSealed
    cases c.parts other with
    | none => rfl
    | some part => exact hf part
  · show ((c.setPart key f).parts other).any _ = _
    rw [setPart_other hother]
    rfl

/-- What an observation keeps. -/
abbrev Seen (base : List Mark) (c₀ c : Core) : Prop := Sound base c ∧ Observed c₀ c

theorem steady_seen (c₀ : Core) : Steady (Seen base c₀) := fun c n b h => ⟨steady_sound c n b h.1, ⟨h.2.armed, h.2.only, h.2.isSealed⟩⟩

theorem Part.Kept.observe (part : Part) (values : Values) : part.Kept (part.observe values) := by
  unfold Part.observe
  split
  · exact ⟨rfl, rfl, id, id⟩
  · exact Part.Kept.refl part

theorem showLoaded_spec (values : Values) : Triple (Seen base c₀) (showLoaded env key values) (fun _ => Seen base c₀) (Sound base) := by
  refine partOf_then (fun _ h => h.1) fun c part hc hpart => ?_
  have hhere (c' : Core) (h : c' = c) : Sound base c' := h ▸ hc.1
  refine Triple.lift hhere fun invocation hidentity => ?_
  simp only [loadedIdentity, bind_ok, require_ok, exists_unit] at hidentity
  obtain ⟨-, -, hsame, -, -, hinv⟩ := hidentity
  cases hinv
  refine Triple.change (S := Seen base c₀) (fun c' h => ?_) ?_
  · subst h
    refine ⟨hc.1.bind hpart values hsame, ?_⟩
    have hset := hc.2.setPart (f := (·.bind (values "InvocationID") values)) (fun _ => rfl) key
    exact ⟨hset.armed, hset.only, hset.isSealed⟩
  · have hseen (c : Core) (h : Seen base c₀ c) : Sound base c := h.1
    refine Triple.demand hseen fun _ => Triple.demand hseen fun _ => Triple.lift hseen fun _ _ => Triple.changed fun c h => ?_
    exact ⟨h.1.setPart (fun part => Part.Kept.observe part values) key, h.2.setPart (fun part => (Part.Kept.observe part values).isSealed) key⟩

theorem showMissing_spec (values : Values) : Triple (Seen base c₀) (showMissing key values) (fun _ => Seen base c₀) (Sound base) := by
  refine partOf_then (fun _ h => h.1) fun c part hc _ => ?_
  have hhere (c' : Core) (h : c' = c) : Sound base c' := h ▸ hc.1
  exact Triple.demand hhere fun _ => Triple.demanded hhere fun _ c' h => h ▸ hc

variable (c₀) in
theorem showPart_spec : Triple (Seen base c₀) (showPart env key) (fun _ => Seen base c₀) (Sound base) := by
  have hseen (c : Core) (h : Seen base c₀ c) : Sound base c := h.1
  refine Triple.bind (time_spec hseen) fun now => Triple.bind (showSettled_spec (steady_seen c₀) hseen _ _) fun values =>
    Triple.bind (partOf_keeps hseen) fun part => Triple.demand hseen fun _ => Triple.bind (Q := fun _ => Seen base c₀) ?_ fun _ =>
    Triple.change (S := Seen base c₀) (fun c h => ?_) (Triple.ret fun _ h => h)
  · unfold showUnit
    split
    · exact showLoaded_spec values
    · exact showMissing_spec values
  · exact ⟨h.1.setPart (f := fun part => { part with after := some values }) (fun _ => ⟨rfl, rfl, id, id⟩) key,
      h.2.setPart (f := fun part => { part with after := some values }) (fun _ => rfl) key⟩

theorem showPart_keeps : Triple (Sound base) (showPart env key) (fun _ => Sound base) (Sound base) :=
  Triple.at_core fun c hc => (showPart_spec c).weaken (fun c' h => by rw [h]; exact ⟨hc, rfl, rfl, fun _ => rfl⟩) (fun _ _ h => h.1) fun _ h => h

/-! ## Delivery -/

/-- A stage that may be delivered. -/
structure Due (base : List Mark) (key : Key) (c : Core) : Prop where
  sound : Sound base c
  first : c.parts key = none
  registered : key.1 ∈ c.phases.map Prod.fst
  previous : ∀ previous, previousStage key.2 = some previous → c.sealed (key.1, previous) = true
  live : Live c.trace

theorem Due.unspawned (h : Due base key c) : .spawned key ∉ c.trace := fun hin => by
  have hsome := h.sound.delivered key hin
  rw [h.first] at hsome
  cases hsome

/-- A recorded delivery that may be started. -/
structure Recorded (base : List Mark) (key : Key) (c : Core) : Prop where
  sound : Sound base c
  ready : Ready c key
  recorded : (c.parts key).isSome = true

theorem steady_recorded : Steady (Recorded base key) := fun c n b h =>
  ⟨steady_sound c n b h.sound, ⟨h.ready.intended, h.ready.first, h.ready.registered, h.ready.previous, h.ready.live⟩, h.recorded⟩

theorem intent_spec : Triple (Due base key) (intent env key) (fun _ c => Sound base c ∧ Ready c key ∧ c.parts key = none) (Sound base) := by
  have hsound (c : Core) (h : Due base key c) : Sound base c := h.sound
  refine Triple.core fun c hc => Triple.demand (fun _ h => h ▸ hc.sound) fun _ => Triple.pass (fun _ h => h ▸ hc.sound) ?_
  refine Triple.change (S := Due base key) (fun c' h => ?_) (Triple.pass hsound (Triple.pass hsound (Triple.changed fun c h => ?_)))
  · subst h
    exact ⟨hc.sound.frame rfl id id rfl rfl (KeptParts.refl _), hc.first, hc.registered, hc.previous, hc.live⟩
  · refine ⟨h.sound.intended h.live key, ⟨List.mem_append_right _ (List.mem_singleton.mpr rfl), ?_, h.registered, h.previous, ?_⟩, h.first⟩
    · show Mark.spawned key ∉ c.trace ++ [.intended key]
      simpa using h.unspawned
    · show Live (c.trace ++ [.intended key])
      simpa [Live] using h.live

theorem managed_spec (hP : Steady P) (hE : ∀ c, P c → E c) (found : Registered) (role : String) :
    Triple P (managed env found role) (fun _ => P) E :=
  Triple.bind (command_spec hP hE _) fun _ => Triple.lift hE fun _ _ => Triple.demand hE fun _ => Triple.demanded hE fun _ _ h => h

theorem predecessor_spec (hE : ∀ c, Calm c₀ c → E c) (phase : Phase) (stage : Stage) :
    Triple (Calm c₀) (predecessor env phase stage)
      (fun _ c => Calm c₀ c ∧ ∀ previous, previousStage stage = some previous → c₀.sealed (phase, previous) = true) E := by
  refine Triple.bind (journal_spec hE) fun row => ?_
  cases previousStage stage with
  | none =>
    refine Triple.demand hE fun _ => Triple.bind ((registered_spec hE phase).post fun _ _ h => h.1) fun found =>
      Triple.bind (managed_spec (steady_calm c₀) hE found _) fun _ => (managed_spec (steady_calm c₀) hE found _).post fun _ c h => ?_
    exact ⟨h, by simp⟩
  | some previous =>
    refine Triple.core fun c hc => ?_
    have hhere (c' : Core) (h : c' = c) : E c' := h ▸ hE c hc
    refine Triple.demand hhere fun hsealed => Triple.lifted hhere fun _ _ c' h => ?_
    subst h
    refine ⟨hc, ?_⟩
    rintro other ⟨⟩
    obtain ⟨n, b, rfl⟩ := hc
    exact hsealed

theorem build_spec (hE : ∀ c, P c → E c) : Triple P (build env key) (fun _ => P) E := by
  refine Triple.bind (time_spec hE) fun _ => Triple.bind (Q := fun _ => P) ?_ fun _ => Triple.ask fun _ => Triple.lifted hE fun _ _ _ h => h
  unfold checkHelper
  cases key.2 with
  | resultReader => exact Triple.bind (partOf_keeps hE) fun _ => Triple.demanded hE fun _ _ h => h
  | bootstrap | helper => exact Triple.ret fun _ h => h

theorem previous_ne {previous : Stage} (h : previousStage key.2 = some previous) : ((key.1, previous) : Key) ≠ key := fun he => by
  have hstage : previous = key.2 := congrArg Prod.snd he
  rw [hstage] at h
  cases hk : key.2 <;> rw [hk] at h <;> cases h

theorem Recorded.register (hsound : Sound base c) (hready : Ready c key) (hnone : c.parts key = none) (unit token : String) (properties : Values) :
    Recorded base key (c.register key (.fresh unit token properties)) := by
  refine ⟨hsound.register hnone unit token properties, ⟨hready.intended, hready.first, hready.registered, fun previous hprevious => ?_, hready.live⟩, ?_⟩
  · have hsealed := hready.previous previous hprevious
    unfold Core.sealed at hsealed ⊢
    rwa [register_other _ (previous_ne hprevious)]
  · rw [register_self]
    rfl

theorem Recorded.setPart (h : Recorded base key c) {f : Part → Part} (hf : ∀ part : Part, part.Kept (f part)) : Recorded base key (c.setPart key f) := by
  refine ⟨h.sound.setPart hf key, ⟨h.ready.intended, h.ready.first, h.ready.registered, fun previous hprevious => ?_, h.ready.live⟩, ?_⟩
  · have hkept := KeptParts.setPart hf c key (key.1, previous)
    have hsealed := h.ready.previous previous hprevious
    show ((c.setPart key f).parts (key.1, previous)).any _ = true
    unfold Core.sealed at hsealed
    generalize (c.setPart key f).parts (key.1, previous) = o' at hkept
    generalize c.parts (key.1, previous) = o at hkept hsealed
    cases hkept with
    | none => exact hsealed
    | some hk => exact hk.isSealed.trans hsealed
  · obtain ⟨part, hpart⟩ := Option.isSome_iff_exists.mp h.recorded
    rw [setPart_self hpart]
    rfl

theorem spawn_spec : Triple (Recorded base key) (spawn env key) (fun _ => Sound base) (Sound base) := by
  refine Triple.ask fun n => ?_
  cases env.spawn n with
  | client pid =>
    refine Triple.changed fun c h => ?_
    obtain ⟨part, hpart⟩ := Option.isSome_iff_exists.mp h.recorded
    exact h.sound.spawned h.ready hpart pid
  | lost fault =>
    refine Triple.change (S := Sound base) (fun c h => ?_) (Triple.raises fun _ h => h)
    obtain ⟨part, hpart⟩ := Option.isSome_iff_exists.mp h.recorded
    exact h.sound.lost h.ready hpart
  | refused fault => exact Triple.raises fun _ h => h.sound

theorem adopt_spec : Triple (Sound base) (adopt env key) (fun _ => Sound base) (Sound base) := by
  have hsame (c : Core) (h : Sound base c) : Sound base c := h
  refine Triple.ask fun _ => Triple.lift hsame fun ticks _ => Triple.change (S := Sound base) (fun c h => h.setPart (fun _ => by exact ⟨rfl, rfl, id, id⟩) key)
    (Triple.pass hsame (Triple.change (S := Sound base) (fun c h => h.setPart (fun _ => by exact ⟨rfl, rfl, id, id⟩) key) (Triple.ask fun _ =>
      Triple.lift hsame fun pipes _ => Triple.demand hsame fun _ =>
        Triple.change (S := Sound base) (fun c h => h.setPart (fun _ => by exact ⟨rfl, rfl, id, id⟩) key) (Triple.passed hsame hsame))))

theorem launch_spec (ref : Ref) (bindings : Bindings) :
    Triple (fun c => Sound base c ∧ Live c.trace) (launch env ref bindings) (fun _ => Sound base) (Sound base) := by
  refine Triple.bind (item_spec (fun _ h => h.1) ref) fun found => Triple.core fun c hc => ?_
  obtain ⟨⟨hsound, hlive⟩, hregistered⟩ := hc
  have hhere (c' : Core) (h : c' = c) : Sound base c' := h ▸ hsound
  refine Triple.demand hhere fun hfirst => Triple.demand hhere fun _ => ?_
  have hcalm (c' : Core) (h : Calm c c') : Sound base c' := h.sound hsound
  refine Triple.pre (P := Calm c) ?_ fun c' h => h ▸ Calm.refl c
  refine Triple.bind (predecessor_spec hcalm ref.phase ref.stage) fun _ => Triple.assume fun hprevious => ?_
  refine Triple.bind (parent_spec hcalm true) fun _ => Triple.bind (build_spec hcalm) fun built =>
    Triple.bind (command_spec (steady_calm c) hcalm _) fun before => Triple.lift hcalm fun values _ => Triple.demand hcalm fun _ =>
    Triple.bind (time_spec hcalm) fun _ => Triple.bind (intent_spec.pre fun c' h => ?_) fun _ =>
    Triple.change (S := Recorded base ref.key) (fun c h => .register h.1 h.2.1 h.2.2 _ _ _) ?_
  · obtain ⟨n, b, rfl⟩ := h
    simp only [Bool.and_eq_true, Option.isNone_iff_eq_none] at hfirst
    exact ⟨steady_sound c n b hsound, hfirst.1.1, hregistered, hprevious, hlive⟩
  · have hrecorded (c : Core) (h : Recorded base ref.key c) : Sound base c := h.sound
    refine Triple.bind (time_spec hrecorded) fun _ => Triple.bind (build_spec hrecorded) fun final => Triple.demand hrecorded fun _ =>
      Triple.change (S := Recorded base ref.key) (fun c h => h.setPart fun _ => by exact ⟨rfl, rfl, id, id⟩) ?_
    exact Triple.bind spawn_spec fun _ => Triple.bind adopt_spec fun _ => state_spec fun _ h => h

/-- No recovery was armed and no recovery peer bound, as the gateway has it. -/
def Unrecovered (c : Core) : Prop := c.recoveryArmed = false ∧ c.recoveryOnly = false

theorem Unrecovered.live (h : Unrecovered c) (hsound : Sound base c) : Live c.trace := hsound.live h.1 h.2

theorem sealPart_spec : Triple (fun c => Sound base c ∧ Unrecovered c) (sealPart env key) (fun _ => Sound base) (Sound base) := by
  refine partOf_then (fun _ h => h.1) fun c part hc hpart => Triple.demand (fun _ h => h ▸ hc.1) fun hopen => ?_
  have hseen (c' : Core) (h : Seen base c c') : Sound base c' := h.1
  refine Triple.bind ((showPart_spec c).pre fun c' h => by rw [h]; exact ⟨hc.1, rfl, rfl, fun _ => rfl⟩) fun after => ?_
  refine partOf_then hseen fun c' part' hc' hpart' => ?_
  have hhere (d : Core) (h : d = c') : Sound base d := h ▸ hc'.1
  refine Triple.demand hhere fun hended => Triple.bind (parent_spec hhere true) fun _ => Triple.demand hhere fun hclient => Triple.ask fun _ =>
    Triple.demand hhere fun _ => Triple.ask fun _ => Triple.lift hhere fun _ _ => Triple.demand hhere fun _ => Triple.pass hhere (Triple.changed fun d h => ?_)
  subst h
  simp only [Bool.and_eq_true] at hended
  have hlive : Live d.trace := hc'.1.live (hc'.2.armed.trans hc.2.1) (hc'.2.only.trans hc.2.2)
  have hopen' : part'.isSealed = false := by
    have hsame := hc'.2.isSealed key
    unfold Core.sealed at hsame
    rw [hpart, hpart'] at hsame
    simpa [show part.isSealed = false by simpa using hopen] using hsame
  exact hc'.1.sealedStage hlive hpart' hopen' hended.1.1.1.1 hclient

/-! ## Requests -/

theorem clientOf_spec (hE : ∀ c, P c → E c) : Triple P (clientOf env key) (fun _ => P) E := by
  refine Triple.core fun c hc => ?_
  split
  · exact Triple.ret fun c' h => h ▸ hc
  · exact Triple.bind (state_spec fun c' h => h ▸ hE c hc) fun _ => Triple.ret fun c' h => h ▸ hc

theorem historyOf_spec : Triple (Sound base) (historyOf key) (fun _ => Sound base) (Sound base) := by
  refine Triple.core fun c hc => Triple.bind (partOf_keeps fun _ h => h ▸ hc) fun part => ?_
  split
  · exact Triple.change (S := Sound base) (fun c' h => by rw [h]; exact hc.setPart (fun _ => by exact ⟨rfl, rfl, id, id⟩) key) (Triple.ret fun _ h => h)
  · exact Triple.ret fun c' h => h ▸ hc

theorem observe_spec : Triple (Sound base) (observe env key) (fun _ => Sound base) (Sound base) :=
  Triple.bind showPart_keeps fun _ => Triple.bind historyOf_spec fun _ => Triple.bind (clientOf_spec fun _ h => h) fun _ => Triple.ret fun _ h => h

theorem stop_spec (invocationId : String) : Triple (Sound base) (stop env key invocationId) (fun _ => Sound base) (Sound base) := by
  refine Triple.bind showPart_keeps fun values => partOf_then (fun _ h => h) fun c part hc hpart => Triple.demand (fun _ h => h ▸ hc) fun hsame => ?_
  simp only [Bool.and_eq_true, decide_eq_true_eq] at hsame
  have hcalm (c' : Core) (h : Calm c c') : Sound base c' := h.sound hc
  refine Triple.bind ((command_spec (steady_calm c) hcalm _).pre fun c' h => h ▸ Calm.refl c) fun reply => ?_
  refine Triple.change (S := Sound base) (fun c' h => ?_) (Triple.bind (clientOf_spec fun _ h => h) fun _ => Triple.ret fun _ h => h)
  have hpart' : c'.parts key = some part := by
    obtain ⟨n, b, rfl⟩ := h
    exact hpart
  by_cases hzero : reply.returncode = 0
  · simp only [hzero, decide_true, if_true]
    exact (hcalm c' h).stopAcked hpart' hsame.2.symm
  · simp only [hzero, decide_false, if_false]
    exact (hcalm c' h).setPart (fun _ => by exact ⟨rfl, rfl, (nomatch ·), id⟩) key

theorem clientStop_spec : Triple (fun c => Sound base c ∧ Unrecovered c) (clientStop env key) (fun _ => Sound base) (Sound base) := by
  refine Triple.bind (state_spec fun _ h => h.1) fun before => Triple.bind (Q := fun _ => Sound base) ?_ fun _ =>
    Triple.bind (state_spec fun _ h => h) fun _ => Triple.ret fun _ h => h
  obtain ⟨token, pid, ticks, code⟩ := before
  cases code with
  | some code => exact Triple.ret fun _ h => h.1
  | none =>
    refine Triple.bind (partOf_keeps fun _ h => h.1) fun part => Triple.demand (fun _ h => h.1) fun _ => ?_
    exact Triple.change (S := Sound base) (fun c h => h.1.signalled (h.2.live h.1) key) (Triple.passed (fun _ h => h) fun _ h => h)

theorem delivered_spec (hE : ∀ c, P c → E c) : Triple P (delivered key) (fun _ => P) E :=
  Triple.core fun c hc => Triple.demanded (fun _ h => h ▸ hE c hc) fun _ _ h => h ▸ hc

theorem checkToken_spec (hE : ∀ c, P c → E c) (token : String) : Triple P (checkToken key token) (fun _ => P) E :=
  Triple.bind (partOf_keeps hE) fun _ => Triple.demanded hE fun _ _ h => h

theorem item_keeps (hE : ∀ c, P c → E c) (ref : Ref) : Triple P (item ref) (fun _ => P) E := (item_spec hE ref).post fun _ _ h => h.1

theorem observeRequest_spec (ref : Ref) : Triple (Sound base) (observeRequest env ref) (fun _ => Sound base) (Sound base) := by
  refine Triple.bind (item_keeps (fun _ h => h) ref) fun _ => Triple.core fun c hc => Triple.pre (P := Sound base) ?_ fun c' h => h ▸ hc
  have hsame (c : Core) (h : Sound base c) : Sound base c := h
  split
  · exact Triple.bind (command_spec steady_sound hsame _) fun _ => Triple.lift hsame fun _ _ => Triple.demand hsame fun _ => Triple.ret fun _ h => h
  · exact Triple.bind (delivered_spec hsame) fun _ => observe_spec

theorem sealRequest_spec (ref : Ref) (token : String) : Triple (fun c => Sound base c ∧ Unrecovered c) (sealRequest env ref token) (fun _ => Sound base) (Sound base) := by
  have hsound (c : Core) (h : Sound base c ∧ Unrecovered c) : Sound base c := h.1
  refine Triple.bind (item_keeps hsound ref) fun _ => Triple.bind (delivered_spec hsound) fun _ => Triple.bind (checkToken_spec hsound token) fun _ =>
    Triple.bind (time_spec hsound) fun _ => Triple.demand hsound fun _ => Triple.bind sealPart_spec fun _ => ?_
  exact Triple.bind (state_spec fun _ h => h) fun _ => Triple.ret fun _ h => h

theorem inventoryUnit_spec (name : String) : Triple (Sound base) (inventoryUnit env name) (fun _ => Sound base) (Sound base) := by
  refine Triple.core fun c hc => Triple.pre (P := Sound base) ?_ fun c' h => h ▸ hc
  have hsame (c : Core) (h : Sound base c) : Sound base c := h
  cases c.known name with
  | some key => exact Triple.bind showPart_keeps fun _ => Triple.ret fun _ h => h
  | none =>
    exact Triple.demand hsame fun _ => Triple.bind (command_spec steady_sound hsame _) fun _ => Triple.lift hsame fun _ _ =>
      Triple.lifted hsame fun _ _ _ h => h

theorem inventory_spec : Triple (Sound base) (inventory env) (fun _ => Sound base) (Sound base) := by
  have hsame (c : Core) (h : Sound base c) : Sound base c := h
  refine Triple.bind (parent_spec hsame false) fun _ => Triple.bind (command_spec steady_sound hsame _) fun reply => Triple.demand hsame fun _ =>
    Triple.demand hsame fun _ => Triple.bind (Triple.forM fun name _ => inventoryUnit_spec name) fun _ => ?_
  exact Triple.core fun c hc => Triple.ret fun c' h => h ▸ hc

theorem recoveryArm_spec (plan : Plan) : Triple (Sound base) (recoveryArm env plan) (fun _ => Sound base) (Sound base) := by
  refine Triple.bind ((registered_spec (fun _ h => h) plan.phase).post fun _ _ h => h.1) fun found => Triple.core fun c hc => ?_
  have hhere (c' : Core) (h : c' = c) : Sound base c' := h ▸ hc
  refine Triple.demand hhere fun _ => Triple.bind (time_spec hhere) fun _ => Triple.demand hhere fun _ =>
    Triple.change (S := Sound base) (fun c' h => ?_) (Triple.ret fun _ h => h)
  rw [h]
  have harmed : Sound base { c with recoveryPlan := some plan, recoveryArmed := true } :=
    hc.frame rfl (fun _ => rfl) id rfl rfl (KeptParts.refl c.parts)
  exact harmed.note trivial (fun _ => rfl) (by simp) (by simp) (by simp) (by simp)

theorem recoveryFinish_spec : Triple (Sound base) (recoveryFinish env) (fun _ => Sound base) (Sound base) := by
  refine Triple.core fun c hc => ?_
  have hhere (c' : Core) (h : c' = c) : Sound base c' := h ▸ hc
  refine Triple.demand hhere fun _ => Triple.bind (parent_spec hhere true) fun _ => Triple.change (S := Sound base) (fun c' h => ?_) (Triple.ret fun _ h => h)
  rw [h]
  exact hc.frame rfl id id rfl rfl (KeptParts.refl c.parts)

/-- A request, which is one a recovery peer may make where there is one. -/
theorem perform_spec (request : Request) :
    Triple (fun c => Sound base c ∧ (request.recovers = false → Unrecovered c)) (perform env request) (fun _ => Sound base) (Sound base) := by
  have hsame (c : Core) (h : Sound base c) : Sound base c := h
  have hsound (c : Core) (h : Sound base c ∧ Unrecovered c) : Sound base c := h.1
  cases request with
  | support => exact Triple.pre (P := Sound base) (Triple.bind (parent_spec hsame false) fun _ => Triple.ret fun _ h => h) fun _ h => h.1
  | inventory => exact inventory_spec.pre fun _ h => h.1
  | observe ref view => exact (observeRequest_spec ref).pre fun _ h => h.1
  | stop ref invocationId =>
    exact (Triple.bind (item_keeps hsame ref) fun _ => Triple.bind (delivered_spec hsame) fun _ => stop_spec invocationId).pre fun _ h => h.1
  | launch ref bindings =>
    refine Triple.pre (P := fun c => Sound base c ∧ Live c.trace) ?_ fun _ h => ⟨h.1, (h.2 rfl).live h.1⟩
    exact Triple.bind (launch_spec ref bindings) fun _ => Triple.ret fun _ h => h
  | clientPoll ref token =>
    refine Triple.pre (P := Sound base) ?_ fun _ h => h.1
    exact Triple.bind (item_keeps hsame ref) fun _ => Triple.bind (delivered_spec hsame) fun _ => Triple.bind (checkToken_spec hsame token) fun _ =>
      Triple.bind (state_spec hsame) fun _ => Triple.ret fun _ h => h
  | clientStop ref token =>
    refine Triple.pre (P := fun c => Sound base c ∧ Unrecovered c) ?_ fun _ h => ⟨h.1, h.2 rfl⟩
    exact Triple.bind (item_keeps hsound ref) fun _ => Triple.bind (delivered_spec hsound) fun _ => Triple.bind (checkToken_spec hsound token) fun _ =>
      clientStop_spec
  | sealStage ref token => exact (sealRequest_spec ref token).pre fun _ h => ⟨h.1, h.2 rfl⟩
  | recoveryArm plan => exact (recoveryArm_spec plan).pre fun _ h => h.1
  | recoveryFinish => exact recoveryFinish_spec.pre fun _ h => h.1

theorem dispatch_spec (request : Request) : Triple (Sound base) (dispatch env request) (fun _ => Sound base) (Sound base) := by
  have hsame (c : Core) (h : Sound base c) : Sound base c := h
  refine Triple.bind (time_spec hsame) fun _ => Triple.demand hsame fun _ => Triple.core fun c hc => ?_
  have hhere (c' : Core) (h : c' = c) : Sound base c' := h ▸ hc
  refine Triple.demand hhere fun hopen => ?_
  refine Triple.bind (Q := fun _ c' => Sound base c' ∧ (request.recovers = false → Unrecovered c')) ?_ fun _ => perform_spec request
  refine Triple.core fun c' h => ?_
  subst h
  by_cases honly : c'.recoveryOnly = true
  · rw [if_pos honly]
    refine Triple.demand hhere fun hrecovers => Triple.bind (Q := fun _ => (· = c')) ?_ fun _ => Triple.ret fun d h => ⟨hhere d h, by simp [hrecovers]⟩
    exact Triple.bind (time_spec hhere) fun _ => Triple.core fun d h => Triple.demand (fun e he => hhere e (he.trans h)) fun _ =>
      Triple.ret fun e he => he.trans h
  · rw [if_neg honly]
    refine Triple.ret fun d h => ⟨hhere d h, fun _ => ?_⟩
    rw [h]
    have hnot : c'.recoveryOnly = false := by simpa using honly
    exact ⟨by simpa [hnot] using hopen, hnot⟩

/-! ## Phases and recovery -/

theorem authorizePhase_spec (phase : Phase) (found : Registered) : Triple (Sound base) (authorizePhase env phase found) (fun _ => Sound base) (Sound base) := by
  refine Triple.bind (time_spec fun _ h => h) fun _ => Triple.core fun c hc => ?_
  have hhere (c' : Core) (h : c' = c) : Sound base c' := h ▸ hc
  refine Triple.demand hhere fun hnext => Triple.pass hhere (Triple.bind (parent_spec hhere true) fun _ => Triple.changed fun c' h => ?_)
  rw [h]
  simp only [Bool.and_eq_true, decide_eq_true_eq] at hnext
  exact hc.authorize hnext.1 hnext.2 found

theorem closePhase_spec (fence : String) : Triple (Sound base) (closePhase env fence) (fun _ => Sound base) (Sound base) := by
  refine Triple.bind (time_spec fun _ h => h) fun _ => Triple.core fun c hc => ?_
  have hhere (c' : Core) (h : c' = c) : Sound base c' := h ▸ hc
  refine Triple.demand hhere fun _ => Triple.lift hhere fun phase hnext => Triple.demand hhere fun hsealed => Triple.bind (journal_spec hhere) fun _ =>
    Triple.demand hhere fun _ => Triple.bind (parent_spec hhere true) fun _ => Triple.changed fun c' h => ?_
  rw [h]
  simp only [Bool.and_eq_true, List.all_eq_true] at hsealed
  refine hc.closePhase ?_ fun stage => hsealed.2 stage (by cases stage <;> simp [stageOrder])
  cases hphase : phaseOrder[c.closedPhases.length]? with
  | none => rw [hphase] at hnext; cases hnext
  | some other => rw [hphase] at hnext; cases hnext; rfl

theorem discardOriginalClients_spec : Triple (Sound base) (discardOriginalClients env) (fun _ => Sound base) (Sound base) := by
  refine Triple.core fun c hc => Triple.pre (P := Sound base) (Triple.forM fun key _ => ?_) fun c' h => h ▸ hc
  have hsame (c : Core) (h : Sound base c) : Sound base c := h
  refine Triple.bind (partOf_keeps hsame) fun part => Triple.demand hsame fun _ => Triple.pass hsame (Triple.changed fun c h => ?_)
  exact h.setPart (f := Part.abandon) (fun _ => ⟨rfl, rfl, id, (nomatch ·)⟩) key

theorem Sound.rebind (h : Sound base c) (channel : Channel) : Sound base (c.rebind channel) := by
  unfold Core.rebind
  refine Sound.note ?_ trivial (by simp) (fun _ => rfl) (by simp) (by simp) (by simp)
  exact h.frame rfl id (fun _ => rfl) rfl rfl (KeptParts.refl c.parts)

theorem rebindRecovery_spec (channel : Channel) : Triple (Sound base) (rebindRecovery env channel) (fun _ => Sound base) (Sound base) := by
  refine Triple.core fun c hc => ?_
  have hhere (c' : Core) (h : c' = c) : Sound base c' := h ▸ hc
  refine Triple.ask fun _ => Triple.lift hhere fun now _ => Triple.demand hhere fun _ => Triple.ask fun _ => Triple.demand hhere fun _ =>
    Triple.lift hhere fun _ _ => Triple.demand hhere fun _ => Triple.demand hhere fun _ => Triple.demand hhere fun _ => Triple.pass hhere ?_
  exact Triple.bind (discardOriginalClients_spec.pre hhere) fun _ => Triple.changed fun c h => h.rebind channel

theorem checkServiceRecovery_spec : Triple (Sound base) (checkServiceRecovery env) (fun _ => Sound base) (Sound base) := by
  refine Triple.core fun c hc => ?_
  have hhere (c' : Core) (h : c' = c) : Sound base c' := h ▸ hc
  refine Triple.ask fun _ => Triple.demand hhere fun _ => Triple.demand hhere fun _ => Triple.pass hhere ?_
  split
  · exact (parent_spec hhere true).post fun _ => hhere
  · exact Triple.ret hhere

theorem rebindServiceRecovery_spec (channel : Channel) : Triple (Sound base) (rebindServiceRecovery env channel) (fun _ => Sound base) (Sound base) := by
  have hsame (c : Core) (h : Sound base c) : Sound base c := h
  refine Triple.ask fun _ => Triple.lift hsame fun now _ => Triple.bind checkServiceRecovery_spec fun _ => Triple.core fun c hc => ?_
  have hhere (c' : Core) (h : c' = c) : Sound base c' := h ▸ hc
  refine Triple.lift hhere fun _ _ => Triple.demand hhere fun _ => Triple.bind (discardOriginalClients_spec.pre hhere) fun _ => Triple.pass hsame ?_
  refine Triple.changed fun c h => ?_
  exact (h.rebind channel).frame rfl id id rfl rfl (KeptParts.refl _)

/-! ## Runs -/

theorem step_sound {w : World Core} (h : Sound base w.core) (label : Label) : Sound base (step env w label).core := by
  have hflags {c' : Core} (htrace : c'.trace = w.core.trace) (harmed : c'.recoveryArmed = w.core.recoveryArmed)
      (honly : c'.recoveryOnly = w.core.recoveryOnly) (hphases : c'.phases = w.core.phases) (hclosed : c'.closedPhases = w.core.closedPhases)
      (hparts : KeptParts w.core.parts c'.parts) : Sound base c' :=
    h.frame htrace (fun he => harmed.trans he) (fun he => honly.trans he) hphases hclosed hparts
  cases label with
  | authorizePhase phase found => exact Triple.ends (authorizePhase_spec phase found) h
  | dispatch request => exact Triple.ends (dispatch_spec request) h
  | closePhase fence => exact Triple.ends (closePhase_spec fence) h
  | rebindRecovery channel => exact Triple.ends (rebindRecovery_spec channel) h
  | rebindServiceRecovery channel => exact Triple.ends (rebindServiceRecovery_spec channel) h
  | acknowledge =>
    refine Triple.ends (P := Sound base) (E := Sound base) (Triple.pass (fun _ h => h) (Triple.core fun c hc => Triple.demand (fun _ h => h ▸ hc) fun _ =>
      Triple.changed fun c' h => ?_)) h
    rw [h]
    exact hc.frame rfl id id rfl rfl (KeptParts.refl c.parts)
  | enterServe =>
    refine Triple.ends (P := Sound base) (E := Sound base) (Triple.core fun c hc => Triple.demand (fun _ h => h ▸ hc) fun _ => Triple.changed fun c' h => ?_) h
    rw [h]
    exact hc.frame rfl id id rfl rfl (KeptParts.refl c.parts)
  | leaveServe code => exact hflags rfl rfl rfl rfl rfl (KeptParts.refl _)
  | close =>
    refine hflags rfl rfl rfl rfl rfl fun key => ?_
    show Option.Rel Part.Kept (w.core.parts key) ((w.core.parts key).map _)
    cases w.core.parts key with
    | none => exact .none
    | some part => exact .some ⟨rfl, rfl, id, id⟩

theorem made_sound (channel : Channel) (files : List String) : Sound [] (made channel files).core where
  grew := List.nil_prefix
  law := History.Lawful.nil
  armed := by simp [made]
  rebound := by simp [made]
  delivered := by simp [made]
  client := by simp [made]
  isSealed := by simp [made, Core.sealed]
  bound := by simp [made]
  stopped := by simp [made]
  registered := rfl
  closedFirst := rfl
  authorized := by simp [made]
  closed := by simp [made]

variable (env) in
theorem run_sound (channel : Channel) (files : List String) (labels : List Label) :
    Sound [] (Machine.exec (step env) (made channel files) labels).core :=
  Machine.exec_inv (I := fun w : World Core => Sound [] w.core) (fun _ label h => step_sound h label) (made_sound channel files)

theorem Sound.rebase (h : Sound base c) : Sound c.trace c := { h with grew := List.prefix_refl _ }

variable (env) in
/-- A run goes on from what was marked before. -/
theorem run_grew {w : World Core} (h : Sound base w.core) (labels : List Label) : w.core.trace <+: (Machine.exec (step env) w labels).core.trace := by
  have hrun : Sound w.core.trace (Machine.exec (step env) w labels).core :=
    Machine.exec_inv (I := fun v : World Core => Sound w.core.trace v.core) (fun _ label h => step_sound h label) h.rebase
  exact hrun.grew

/-- A mark of something launched, sealed or signalled. -/
def Mark.delivers : Mark → Bool
  | .intended _ | .spawned _ | .sealedStage _ | .signalled _ => true
  | _ => false

/-- The deliveries of a gateway: once each, in order, sealed after the stop of the
invocation that was bound, and none once a recovery is armed or bound. -/
structure Deliveries (c : Core) : Prop where
  once : ∀ key, c.trace.count (.spawned key) ≤ 1
  intended : ∀ before key after, c.trace = before ++ .spawned key :: after → .intended key ∈ before
  inOrder : ∀ before key after previous, c.trace = before ++ .spawned key :: after → previousStage key.2 = some previous →
    .spawned (key.1, previous) ∈ before ∧ .sealedStage (key.1, previous) ∈ before
  phases : ∀ before key after earlier, c.trace = before ++ .spawned key :: after → earlier ∈ earlierPhases key.1 → .closed earlier ∈ before
  sealedOnce : ∀ key, c.trace.count (.sealedStage key) ≤ 1
  stopped : ∀ before key after, c.trace = before ++ .sealedStage key :: after →
    ∃ invocation, .bound key invocation ∈ before ∧ .stopAcked key invocation ∈ before
  bound : ∀ key invocation other, .bound key invocation ∈ c.trace → .bound key other ∈ c.trace → invocation = other
  partSealed : ∀ key, .sealedStage key ∈ c.trace ↔ c.sealed key = true
  partBound : ∀ key invocation, .bound key invocation ∈ c.trace ↔ (c.parts key).bind Part.invocationId = some invocation
  quiet : ∀ before k after, c.trace = before ++ k :: after → k.delivers = true → .armed ∉ before ∧ .rebound ∉ before

theorem Sound.deliveries (h : Sound base c) : Deliveries c where
  once key := h.law.count_le_one fun _ hk => hk.1
  intended before key after hcut := (h.law before _ after hcut).2.1
  inOrder before key after previous hcut hprevious := by
    have hsealed := (h.law before _ after hcut).2.2.2.1 previous hprevious
    refine ⟨?_, hsealed⟩
    obtain ⟨early, late, hbefore⟩ := List.append_of_mem hsealed
    have hlaw := h.law early (.sealedStage (key.1, previous)) (late ++ .spawned key :: after) (by rw [hcut, hbefore]; simp)
    rw [hbefore]
    exact List.mem_append_left _ hlaw.2.1
  phases before key after earlier hcut hearlier := by
    have hauthorized := (h.law before _ after hcut).2.2.1
    obtain ⟨early, late, hbefore⟩ := List.append_of_mem hauthorized
    have hlaw := h.law early (.authorized key.1) (late ++ .spawned key :: after) (by rw [hcut, hbefore]; simp)
    rw [hbefore]
    exact List.mem_append_left _ (hlaw earlier hearlier)
  sealedOnce key := h.law.count_le_one fun _ hk => hk.1
  stopped before key after hcut := (h.law before _ after hcut).2.2.1
  bound key invocation other hin hin' := by
    rw [h.bound] at hin hin'
    rw [hin] at hin'
    exact Option.some.inj hin'
  partSealed := h.isSealed
  partBound := h.bound
  quiet before k after hcut hk := by
    have hlaw := h.law before k after hcut
    cases k with
    | intended key | signalled key => exact hlaw
    | spawned key => exact hlaw.2.2.2.2
    | sealedStage key => exact hlaw.2.2.2
    | authorized | closed | bound | stopAcked | armed | rebound => cases hk

/-- The invocation a stage is bound to. -/
def Core.boundTo (c : Core) (key : Key) : Option String := (c.parts key).bind Part.invocationId

/-- Every run of a gateway's calls, from its making; and what is bound in it stays. -/
theorem gateway_deliveries (env : Env) (channel : Channel) (files : List String) (labels : List Label) :
    Deliveries (Machine.exec (step env) (made channel files) labels).core ∧
    ∀ more key invocation, (Machine.exec (step env) (made channel files) labels).core.boundTo key = some invocation →
      (Machine.exec (step env) (made channel files) (labels ++ more)).core.boundTo key = some invocation := by
  have hsound := run_sound env channel files labels
  refine ⟨hsound.deliveries, fun more key invocation hbound => ?_⟩
  have hmore := run_sound env channel files (labels ++ more)
  have hgrew := run_grew env hsound more
  rw [← Machine.exec_append] at hgrew
  exact (hmore.bound key invocation).mp (hgrew.subset ((hsound.bound key invocation).mpr hbound))

end LocalHand.Gateway
