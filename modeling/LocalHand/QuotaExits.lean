/-
A proof that a quota stage has exited is earned: whatever the manager, the pipes, the clocks and
the client answered, in whatever order, the calls before it saw what the proof says.

`exits_earned` states it for the original part and for a part attached again after a restart.
-/
import LocalHand.QuotaLifecycle
import LocalHand.Lib.Run
import Mathlib

namespace LocalHand.QuotaLifecycle

open Program

/-! ## The steps of a call -/

/-- A call's triple: what it returns with, and what holds if it raises. -/
def Tells {α : Type} (P : World → Prop) (m : Act α) (Q : α → World → Prop) (E : World → Prop) : Prop := Spec P m Q fun _ => E

section

variable {α β : Type} {P P' E E' : World → Prop} {Q Q' : α → World → Prop} {R : β → World → Prop}

theorem Tells.ret {a : α} (h : ∀ w, P w → Q a w) : Tells P (pure a) Q E := Spec.ret h

theorem Tells.bind {m : Act α} {f : α → Act β} (hm : Tells P m Q E) (hf : ∀ a, Tells (Q a) (f a) R E) : Tells P (m >>= f) R E :=
  Spec.bind hm hf

theorem Tells.weaken {m : Act α} (h : Tells P m Q E) (hpre : ∀ w, P' w → P w) (hpost : ∀ a w, Q a w → Q' a w)
    (hstop : ∀ w, E w → E' w) : Tells P' m Q' E' :=
  Spec.weaken h hpre hpost fun _ => hstop

theorem tells_raise {e : Exc} (h : ∀ w, P w → E w) : Tells P (throw e : Act α) Q E := Spec.raise h

theorem tells_absurd {m : Act α} (h : ∀ w, ¬P w) : Tells P m Q E := fun w hw => (h w hw).elim

theorem tells_part : Tells P part (fun p w => P w ∧ w.part = p) E :=
  Spec.bind (Q := fun w' w => P w ∧ w = w') (Spec.read fun _ h => ⟨h, rfl⟩) fun w' => Spec.ret fun w h => ⟨h.1, by rw [h.2]⟩

theorem tells_update {f : Part → Part} {Q : Unit → World → Prop} (h : ∀ w, P w → Q () { w with part := f w.part }) :
    Tells P (update f) Q E := Spec.update h

theorem tells_note {event : Event} {Q : Unit → World → Prop} (h : ∀ w, P w → Q () { w with trace := w.trace ++ [event] }) :
    Tells P (note event) Q E := Spec.update h

variable (hE : ∀ w, P w → E w)

include hE

theorem tells_require (condition : Bool) (code : String) : Tells P (require condition code) (fun _ w => P w ∧ condition = true) E := by
  unfold require
  split
  · exact .ret fun w h => ⟨h, ‹_›⟩
  · exact tells_raise hE

theorem tells_answered (x : Except Exc α) : Tells P (answered x) (fun a w => P w ∧ x = .ok a) E := by
  cases x with
  | ok a => exact .ret fun w h => ⟨h, rfl⟩
  | error e => exact tells_raise hE

theorem tells_raised (x : Option Exc) : Tells P (raised x) (fun _ => P) E := by
  cases x with
  | none => exact .ret fun _ h => h
  | some e => exact tells_raise hE

theorem tells_properties (shown : Except Exc Reply) : Tells P (properties shown) (fun _ => P) E := by
  refine (tells_answered hE _).bind fun response => ?_
  have h₁ : ∀ w, P w ∧ shown = .ok response → E w := fun w h => hE w h.1
  refine (tells_require h₁ _ _).bind fun _ => ?_
  have h₂ : ∀ w, (P w ∧ shown = .ok response) ∧ decide (response.returncode = 0) = true → E w := fun w h => h₁ w h.1
  refine (tells_answered h₂ _).bind fun pairs => ?_
  have h₃ : ∀ w, ((P w ∧ shown = .ok response) ∧ decide (response.returncode = 0) = true) ∧ response.rows = .ok pairs → E w :=
    fun w h => h₂ w h.1
  refine (tells_require h₃ _ _).bind fun _ => ?_
  refine (tells_require (fun w h => h₃ w h.1) _ _).bind fun _ => ?_
  exact .ret fun w h => h.1.1.1.1.1

end

/-! ## What a part knows -/

/-- The chunks that were read are counted, none was refused, and an end of file was read. -/
structure Pipes (limit : Nat) (t : Transport) (trace : List Event) : Prop where
  limit : t.limit = limit
  total : t.total = (t.hashes.map fun chunk => chunk.2.length).sum
  quiet : t.error = none → t.total ≤ t.limit ∧ .rejected ∉ trace
  eof : ∀ stream ∈ t.eof, (stream, []) ∈ t.hashes

theorem Pipes.fails {limit : Nat} {t : Transport} {trace trace' : List Event} (h : Pipes limit t trace) (code : String) :
    Pipes limit { t with error := some code } trace' :=
  ⟨h.limit, h.total, fun he => (by cases he), h.eof⟩

theorem Pipes.fault {limit : Nat} {t : Transport} {trace : List Event} (h : Pipes limit t trace) (code : String) : Pipes limit (t.fault code) trace := by
  refine ⟨h.limit, h.total, fun he => ?_, h.eof⟩
  simp [Transport.fault] at he

theorem Pipes.note {limit : Nat} {t : Transport} {trace : List Event} (h : Pipes limit t trace) {event : Event} (hne : event ≠ .rejected) :
    Pipes limit t (trace ++ [event]) := by
  refine ⟨h.limit, h.total, fun he => ⟨(h.quiet he).1, fun hr => ?_⟩, h.eof⟩
  rcases List.mem_append.mp hr with hr | hr
  · exact (h.quiet he).2 hr
  · exact hne (List.mem_singleton.mp hr).symm

theorem Pipes.receive {limit : Nat} {t : Transport} {trace : List Event} (h : Pipes limit t trace) (stream : Stream) (raw : List UInt8) :
    Pipes limit (t.receive stream raw) trace := by
  have hcount : t.total + raw.length = ((t.hashes ++ [(stream, raw)]).map fun chunk => chunk.2.length).sum := by
    simp [h.total]
  have heof : ∀ s ∈ t.eof, (s, []) ∈ t.hashes ++ [(stream, raw)] := fun s hs => List.mem_append_left _ (h.eof s hs)
  have hcounted : Pipes limit (if t.limit < t.total + raw.length
      then ({ t with total := t.total + raw.length, hashes := t.hashes ++ [(stream, raw)] } : Transport).fault "PIPE_BYTE_LIMIT"
      else { t with total := t.total + raw.length, hashes := t.hashes ++ [(stream, raw)] }) trace := by
    split
    · exact ⟨h.limit, hcount, fun he => by simp [Transport.fault] at he, heof⟩
    · exact ⟨h.limit, hcount, fun he => ⟨by show t.total + raw.length ≤ t.limit; omega, (h.quiet he).2⟩, heof⟩
  have hhashes : (if t.limit < t.total + raw.length
      then ({ t with total := t.total + raw.length, hashes := t.hashes ++ [(stream, raw)] } : Transport).fault "PIPE_BYTE_LIMIT"
      else { t with total := t.total + raw.length, hashes := t.hashes ++ [(stream, raw)] }).hashes = t.hashes ++ [(stream, raw)] := by
    split <;> rfl
  unfold Transport.receive
  dsimp only
  by_cases hempty : raw = []
  · subst hempty
    refine ⟨hcounted.limit, hcounted.total, hcounted.quiet, fun s hs => ?_⟩
    rcases List.mem_cons.mp hs with rfl | hs
    · show (s, []) ∈ Transport.hashes _
      rw [hhashes]
      simp
    · exact hcounted.eof s hs
  · have hfalse : raw.isEmpty = false := by simp [hempty]
    rw [hfalse]
    exact hcounted

/-- A loaded observation shows the part's invocation and its cgroup. -/
def Names (p : Part) (values : Values) : Prop :=
  p.invocationId = some (values.get "InvocationID") ∧
    ∃ pin, p.quotaParent = some pin ∧ (values.get "ControlGroup" = pin.path ++ "/" ++ p.unit ∨ values.get "ControlGroup" = "")

/-- An identity is the part's. -/
def Bound (p : Part) (identity : Identity) : Prop :=
  p.invocationId = some identity.invocationId ∧ identity.bootId = p.bootId ∧
    ∃ pin, p.quotaParent = some pin ∧ identity.cgroup = pin.path ++ "/" ++ p.unit

/-- A stop was acknowledged right after the invocation was read back. -/
def Stopped (p : Part) (trace : List Event) : Prop :=
  ∃ invocation, p.invocationId = some invocation ∧ [.readBack invocation, .stop true] <:+: trace

/-- The part is still the same stage's. -/
def Kept (origin p : Part) : Prop :=
  p.unit = origin.unit ∧ p.bootId = origin.bootId ∧ p.quotaParent = origin.quotaParent ∧ p.deadline = origin.deadline

/-- What holds of a part before its proof. -/
structure Live (origin : Part) (w : World) : Prop where
  bound : ∀ values, .loaded values ∈ w.trace → Names w.part values
  seen : ∀ invocation, w.part.invocationId = some invocation → ∃ values, .loaded values ∈ w.trace
  stopped : w.part.stopOk = true → Stopped w.part w.trace
  retained : ∀ values, w.part.quotaTerminal = some values → .loaded values ∈ w.trace ∧ terminal values = true
  pipes : Pipes origin.transport.limit w.part.transport w.trace
  unended : w.part.quotaFinal = none
  unproved : w.part.quotaExit = none
  kept : Kept origin w.part

theorem Fresh.live {p : Part} (fresh : Fresh p) : Live p ⟨p, []⟩ where
  bound _ h := by cases h
  seen i h := by
    rw [show p.invocationId = none from fresh.invocationId] at h
    cases h
  stopped h := by
    rw [show p.stopOk = false from fresh.stopOk] at h
    cases h
  retained v h := by
    rw [show p.quotaTerminal = none from fresh.quotaTerminal] at h
    cases h
  pipes := by
    show Pipes p.transport.limit p.transport []
    rw [fresh.transport]
    exact ⟨rfl, rfl, fun _ => ⟨Nat.zero_le _, by simp⟩, by simp⟩
  unended := fresh.quotaFinal
  unproved := fresh.quotaExit
  kept := ⟨rfl, rfl, rfl, rfl⟩

variable {origin : Part}

/-- Pipes that change leave the rest. -/
theorem Live.transport {w : World} (h : Live origin w) {t : Transport} (ht : Pipes origin.transport.limit t w.trace) :
    Live origin { w with part := { w.part with transport := t } } :=
  ⟨h.bound, h.seen, h.stopped, h.retained, ht, h.unended, h.unproved, h.kept⟩

/-- An event other than a loaded observation leaves what is known. -/
theorem Live.note {w : World} (h : Live origin w) {event : Event} (hloaded : ∀ values, event ≠ .loaded values)
    (hpipes : Pipes origin.transport.limit w.part.transport (w.trace ++ [event])) : Live origin { w with trace := w.trace ++ [event] } where
  bound v hv := by
    rcases List.mem_append.mp hv with hv | hv
    · exact h.bound v hv
    · exact absurd (List.mem_singleton.mp hv).symm (hloaded v)
  seen i hi := by
    obtain ⟨v, hv⟩ := h.seen i hi
    exact ⟨v, List.mem_append_left _ hv⟩
  stopped hs := by
    obtain ⟨i, hi, hstop⟩ := h.stopped hs
    exact ⟨i, hi, hstop.trans (List.prefix_append _ _).isInfix⟩
  retained v hv := ⟨List.mem_append_left _ (h.retained v hv).1, (h.retained v hv).2⟩
  pipes := hpipes
  unended := h.unended
  unproved := h.unproved
  kept := h.kept

/-! ## Pumping -/

theorem feed_live (call : Call) (raw : List UInt8) : Tells (Live origin) (feed call raw) (fun _ => Live origin) (Live origin) := by
  refine tells_part.bind fun p => ?_
  split
  · cases call.fed with
    | none => exact .ret fun _ h => h.1
    | some e =>
      dsimp only
      split
      · -- The refusal is noted and the transport fails with it.
        refine Tells.bind (Q := fun _ w => Live origin { w with part := { w.part with
          transport := { w.part.transport with error := some "PIPE_FRAME_REJECTED" } } }) (tells_note fun w h => ?_) fun _ =>
          tells_update fun w h => h
        have hfails := h.1.transport (h.1.pipes.fails "PIPE_FRAME_REJECTED")
        exact hfails.note (fun _ he => by cases he) (h.1.pipes.fails _)
      · exact tells_raise fun _ h => h.1
  · exact .ret fun _ h => h.1

theorem pumpStream_live (call : Call) (stream : Stream) : Tells (Live origin) (pumpStream call stream) (fun _ => Live origin) (Live origin) := by
  refine tells_part.bind fun p => ?_
  split
  · exact .ret fun _ h => h.1
  · split
    · exact .ret fun _ h => h.1
    · split
      · exact tells_update fun w h => h.1.transport (h.1.pipes.fault _)
      · exact tells_raise fun _ h => h.1
    · refine Tells.bind (Q := fun _ => Live origin) (tells_update fun w h => h.1.transport (h.1.pipes.receive stream _)) fun _ => ?_
      split
      · exact feed_live call _
      · exact .ret fun _ h => h

theorem pump_live (call : Call) : Tells (Live origin) (pump call) (fun _ => Live origin) (Live origin) := by
  refine tells_part.bind fun p => (tells_require (fun _ h => h.1) _ _).bind fun _ => ?_
  refine ((pumpStream_live call .stdout).weaken (fun _ h => h.1.1) (fun _ _ h => h) fun _ h => h).bind fun _ => ?_
  exact pumpStream_live call .stderr

/-! ## The unit -/

/-- What an identity is taken from. -/
def Taken (p : Part) (values : Values) (identity : Identity) : Prop :=
  (p.invocationId = none ∨ p.invocationId = some identity.invocationId) ∧
    identity.invocationId = values.get "InvocationID" ∧ identity.bootId = p.bootId ∧
    ∃ pin, p.quotaParent = some pin ∧ identity.cgroup = pin.path ++ "/" ++ p.unit ∧
      (values.get "ControlGroup" = identity.cgroup ∨ values.get "ControlGroup" = "")

theorem loadedIdentity_tells {P E : World → Prop} (hE : ∀ w, P w → E w) (values : Values) :
    Tells P (loadedIdentity values) (fun identity w => P w ∧ Taken w.part values identity) E := by
  refine tells_part.bind fun p => ?_
  refine (tells_require (fun w h => hE w h.1) _ _).bind fun _ => ?_
  refine (tells_require (fun w h => hE w h.1.1) _ _).bind fun _ => ?_
  refine (tells_require (fun w h => hE w h.1.1.1) _ _).bind fun _ => ?_
  refine (tells_require (fun w h => hE w h.1.1.1.1) _ _).bind fun _ => ?_
  refine (tells_answered (fun w h => hE w h.1.1.1.1.1) _).bind fun pin => ?_
  refine (tells_require (fun w h => hE w h.1.1.1.1.1.1) _ _).bind fun _ => ?_
  refine (tells_require (fun w h => hE w h.1.1.1.1.1.1.1) _ _).bind fun _ => .ret fun w h => ?_
  obtain ⟨⟨⟨⟨⟨⟨⟨⟨hp, hpart⟩, -⟩, -⟩, -⟩, hinvocation⟩, hpin⟩, hgroup⟩, -⟩ := h
  subst hpart
  have hparent : w.part.quotaParent = some pin := by
    cases hq : w.part.quotaParent <;> simp_all
  simp only [Bool.or_eq_true, decide_eq_true_eq] at hinvocation hgroup
  exact ⟨hp, hinvocation, rfl, rfl, pin, hparent, rfl, hgroup⟩

theorem bind_live (values : Values) : Tells (Live origin) (bind values) (fun identity w => Live origin w ∧ Bound w.part identity ∧ .loaded values ∈ w.trace) (Live origin) := by
  refine (loadedIdentity_tells (fun _ h => h) values).bind fun identity => ?_
  -- The observation is noted and the part filled with it.
  refine Tells.bind (Q := fun _ w => Live origin { w with part := { w.part with invocationId := some identity.invocationId, launchAcked := true } } ∧
      Bound { w.part with invocationId := some identity.invocationId } identity ∧ .loaded values ∈ w.trace) (tells_note fun w h => ?_) fun _ => ?_
  · obtain ⟨hlive, hinvocation, hid, hboot, pin, hpin, hcgroup, hgroup⟩ := h
    have hsame : ∀ i, w.part.invocationId = some i → identity.invocationId = i := by
      intro i hi
      rcases hinvocation with hnone | hsome
      · rw [hnone] at hi
        cases hi
      · rw [hsome] at hi
        exact Option.some.inj hi
    refine ⟨⟨?_, ?_, ?_, ?_, ?_, hlive.unended, hlive.unproved, hlive.kept⟩, ⟨rfl, hboot, pin, hpin, hcgroup⟩, by simp⟩
    · intro v hv
      rcases List.mem_append.mp hv with hv | hv
      · obtain ⟨hi, hrest⟩ := hlive.bound v hv
        exact ⟨congrArg some (hsame _ hi), hrest⟩
      · cases List.mem_singleton.mp hv
        exact ⟨congrArg some hid, pin, hpin, hcgroup ▸ hgroup⟩
    · exact fun i hi => ⟨values, by simp⟩
    · intro hs
      obtain ⟨i, hi, hstop⟩ := hlive.stopped hs
      exact ⟨i, congrArg some (hsame i hi), hstop.trans (List.prefix_append _ _).isInfix⟩
    · exact fun v hv => ⟨List.mem_append_left _ (hlive.retained v hv).1, (hlive.retained v hv).2⟩
    · exact hlive.pipes.note fun he => by cases he
  · refine (tells_update fun w h => ?_).bind fun _ => .ret fun w h => h
    exact h

/-- What is known of a loaded unit whose identity was taken. -/
def Loaded (origin : Part) (values : Values) (identity : Identity) (w : World) : Prop :=
  Live origin w ∧ Bound w.part identity ∧ .loaded values ∈ w.trace

theorem retain_live (values : Values) (identity : Identity) :
    Tells (Loaded origin values identity) (retain values) (fun _ => Loaded origin values identity) (Live origin) := by
  unfold retain
  split
  · rename_i hterminal
    refine tells_update fun w h => ⟨⟨h.1.bound, h.1.seen, h.1.stopped, fun v hv => ?_, h.1.pipes, h.1.unended, h.1.unproved, h.1.kept⟩, h.2.1, h.2.2⟩
    cases hq : w.part.quotaTerminal with
    | none =>
      have hv : some values = some v := by simpa [hq] using hv
      cases hv
      exact ⟨h.2.2, hterminal⟩
    | some t =>
      have hv : some t = some v := by simpa [hq] using hv
      exact h.1.retained v (hq.trans hv)
  · exact .ret fun _ h => h

/-- Only a proof is an exit. -/
def Unproved (answer : Answer) : Prop := ∀ proof, answer ≠ .exited proof

theorem requestStop_live (call : Call) (values : Values) (identity : Identity) (expired : Bool) :
    Tells (Loaded origin values identity) (requestStop call values identity expired) (fun answer w => Live origin w ∧ Unproved answer) (Live origin) := by
  refine Tells.bind (Q := fun _ => Loaded origin values identity) (tells_update fun w h => ?_) fun _ => ?_
  · exact ⟨⟨h.1.bound, h.1.seen, h.1.stopped, h.1.retained, h.1.pipes, h.1.unended, h.1.unproved, h.1.kept⟩, h.2.1, h.2.2⟩
  refine (tells_answered (fun _ h => h.1) _).bind fun same => ?_
  obtain ⟨returncode, invocation⟩ := same
  -- The event before the stop is the invocation that was read back.
  refine Tells.bind (Q := fun _ w => Live origin w ∧ Bound w.part identity ∧ ∃ before, w.trace = before ++ [.readBack invocation])
    (tells_note fun w h => ⟨h.1.1.note (fun _ he => by cases he) (h.1.1.pipes.note fun he => by cases he), h.1.2.1, w.trace, rfl⟩) fun _ => ?_
  refine (tells_require (fun _ h => h.1) _ _).bind fun _ => ?_
  refine Tells.bind (Q := fun _ w => (Live origin w ∧ Bound w.part identity ∧ ∃ before, w.trace = before ++ [.readBack invocation]) ∧
      decide (returncode = 0) && decide (invocation = identity.invocationId)) (tells_update fun w h => ?_) fun _ => ?_
  · obtain ⟨⟨hlive, hrest⟩, hsame⟩ := h
    exact ⟨⟨⟨hlive.bound, hlive.seen, hlive.stopped, hlive.retained, hlive.pipes, hlive.unended, hlive.unproved, hlive.kept⟩, hrest⟩, hsame⟩
  refine (tells_answered (fun _ h => h.1.1) _).bind fun stopped => ?_
  refine Tells.bind (Q := fun _ w => Live origin w ∧ (decide (stopped = 0) = true → Stopped w.part w.trace)) (tells_note fun w h => ?_) fun _ => ?_
  · obtain ⟨⟨⟨hlive, ⟨hid, -⟩, before, htrace⟩, hsame⟩, -⟩ := h
    simp only [Bool.and_eq_true, decide_eq_true_eq] at hsame
    refine ⟨hlive.note (fun _ he => by cases he) (hlive.pipes.note fun he => by cases he), fun hok => ⟨_, hid, before, [], ?_⟩⟩
    rw [htrace, hok, hsame.2]
    simp
  refine Tells.bind (Q := fun _ => Live origin) (tells_update fun w h => ?_) fun _ => .ret fun w h => ⟨h, fun _ he => by cases he⟩
  exact ⟨h.1.bound, h.1.seen, h.2, h.1.retained, h.1.pipes, h.1.unended, h.1.unproved, h.1.kept⟩

theorem observeLoaded_live (call : Call) (values : Values) (expired : Bool) :
    Tells (Live origin) (observeLoaded call values expired) (fun out w => Live origin w ∧ (out.2 = none → Bound w.part out.1) ∧
      ∀ answer, out.2 = some answer → Unproved answer) (Live origin) := by
  refine (bind_live values).bind fun identity => ?_
  refine tells_part.bind fun p => ?_
  refine (tells_raised (fun _ h => h.1.1) _).bind fun _ => ?_
  refine ((retain_live values identity).weaken (fun w h => h.1) (fun _ _ h => h) fun _ h => h).bind fun _ => ?_
  refine tells_part.bind fun q => ?_
  split
  · refine ((requestStop_live call values identity expired).weaken (fun _ h => h.1) (fun _ _ h => h) fun _ h => h).bind fun answer => ?_
    exact .ret fun w h => ⟨h.1, fun he => (by cases he), fun a ha => by cases ha; exact h.2⟩
  · split
    · exact .ret fun w h => ⟨h.1.1, fun he => (by cases he), fun a ha => by cases ha; exact fun _ he => by cases he⟩
    · exact .ret fun w h => ⟨h.1.1, fun _ => h.1.2.1, fun a ha => by cases ha⟩

/-- An identity taken from what was retained is the part's own. -/
theorem Taken.bound {p : Part} {values : Values} {identity : Identity} (h : Taken p values identity) (hsome : p.invocationId.isSome = true) :
    Bound p identity := by
  obtain ⟨hinvocation, -, hboot, pin, hpin, hcgroup, -⟩ := h
  rcases hinvocation with hnone | hinvocation
  · rw [hnone] at hsome
    cases hsome
  · exact ⟨hinvocation, hboot, pin, hpin, hcgroup⟩

theorem observeAbsent_live (values : Values) : Tells (Live origin) (observeAbsent values) (fun identity w => Live origin w ∧ Bound w.part identity) (Live origin) := by
  refine tells_part.bind fun p => ?_
  refine (tells_require (fun _ h => h.1) _ _).bind fun _ => ?_
  have htaken : ∀ (identity : Identity) (status : Values) (w : World), ((Live origin w ∧ w.part = p) ∧
      (absent p values && p.stopAttempted && p.stopOk && p.launchAcked && p.invocationId.isSome) = true) →
      Taken w.part status identity → Live origin w ∧ Bound w.part identity := by
    intro identity status w h ht
    obtain ⟨⟨hlive, hpart⟩, hrequired⟩ := h
    simp only [Bool.and_eq_true] at hrequired
    exact ⟨hlive, ht.bound (hpart ▸ hrequired.2)⟩
  split
  · rename_i status _
    refine (loadedIdentity_tells (fun _ h => h.1.1) status).bind fun identity => ?_
    refine (tells_require (fun _ h => h.1.1.1) _ _).bind fun _ => .ret fun w h => ?_
    exact htaken identity status w h.1.1 h.1.2
  · refine (tells_require (fun _ h => h.1.1) _ _).bind fun _ => ?_
    refine (loadedIdentity_tells (fun _ h => h.1.1.1) _).weaken (fun _ h => h) (fun identity w h => ?_) fun _ h => h
    exact htaken identity _ w h.1.1 h.2

/-! ## The end -/

variable (decimal : Decimal)

/-- What the last branch of a call is answered ends the part. -/
structure Ends (p : Part) (ending : Ending) (code : Option Int) : Prop where
  parent : p.quotaParent = some ending.parent
  empty : ending.empty = true
  boot : ending.now.bootId = p.bootId
  stopped : p.stopOk = true
  inactive : inactive ending.after = true
  jobless : jobless ending.after = true
  eof : .stdout ∈ p.transport.eof ∧ .stderr ∈ p.transport.eof
  exited : ending.status.isSome = true
  status : ∀ text, plainStatus decimal p.quotaTerminal = some text →
    ∃ status, decimal.int text = .ok status ∧ code = some status ∧ ending.again = some status

theorem exitCode_tells {P E : World → Prop} (hE : ∀ w, P w → E w) (p : Part) :
    Tells P (exitCode decimal p) (fun code w => P w ∧ (∀ text, plainStatus decimal p.quotaTerminal = some text →
      ∃ status, decimal.int text = .ok status ∧ code = some status)) E := by
  unfold exitCode
  split
  · rename_i text htext
    refine (tells_answered hE _).bind fun status => .ret fun w h => ⟨h.1, fun text' ht => ?_⟩
    rw [htext] at ht
    cases ht
    exact ⟨status, h.2, rfl⟩
  · rename_i hnone
    refine (tells_require hE _ _).bind fun _ => .ret fun w h => ⟨h.1, fun text ht => ?_⟩
    rw [hnone] at ht
    cases ht

theorem clientExit_tells {P E : World → Prop} (hE : ∀ w, P w → E w) (call : Call) (p : Part) (code : Option Int) :
    Tells P (clientExit call p code) (fun out w => P w ∧ (.stdout ∈ p.transport.eof ∧ .stderr ∈ p.transport.eof) ∧ out.1.isSome = true ∧
      ∀ status, code = some status → out.2 = some status) E := by
  refine (tells_require hE _ _).bind fun _ => ?_
  refine (tells_answered (fun w h => hE w h.1) _).bind fun status => ?_
  refine (tells_require (fun w h => hE w h.1.1) _ _).bind fun _ => ?_
  have heof : ∀ w, ((P w ∧ (decide (.stdout ∈ p.transport.eof) && decide (.stderr ∈ p.transport.eof) && p.transport.error.isNone) = true) ∧
      call.status = .ok status) ∧ status.isSome = true → P w ∧ (.stdout ∈ p.transport.eof ∧ .stderr ∈ p.transport.eof) ∧ status.isSome = true := by
    intro w h
    obtain ⟨⟨⟨hw, hrequired⟩, -⟩, hstatus⟩ := h
    simp only [Bool.and_eq_true, decide_eq_true_eq] at hrequired
    exact ⟨hw, hrequired.1, hstatus⟩
  split
  · exact .ret fun w h => ⟨(heof w h).1, (heof w h).2.1, (heof w h).2.2, fun _ hs => by cases hs⟩
  · rename_i code
    refine (tells_answered (fun w h => hE w h.1.1.1) _).bind fun again => ?_
    refine (tells_require (fun w h => hE w h.1.1.1.1) _ _).bind fun _ => .ret fun w h => ?_
    obtain ⟨⟨hw, -⟩, hagain⟩ := h
    simp only [decide_eq_true_eq] at hagain
    exact ⟨(heof w hw).1, (heof w hw).2.1, (heof w hw).2.2, fun status hs => hagain.trans hs⟩

theorem parentEmpty_tells {P E : World → Prop} (hE : ∀ w, P w → E w) (call : Call) :
    Tells P (parentEmpty call) (fun out w => P w ∧ w.part.quotaParent = some out.1) E := by
  refine tells_part.bind fun p => ?_
  refine (tells_answered (fun w h => hE w h.1) _).bind fun answer => ?_
  obtain ⟨pin, empty⟩ := answer
  refine (tells_require (fun w h => hE w h.1.1) _ _).bind fun _ => .ret fun w h => ?_
  obtain ⟨⟨⟨hw, hpart⟩, -⟩, hpin⟩ := h
  simp only [decide_eq_true_eq] at hpin
  exact ⟨hw, by rw [hpart, hpin]⟩

theorem finalObservation_tells {P E : World → Prop} (hE : ∀ w, P w → E w) (call : Call) (values : Values) :
    Tells P (finalObservation decimal call values) (fun out w => P w ∧ Ends decimal w.part out.1 out.2) E := by
  refine (parentEmpty_tells hE call).bind fun parent => ?_
  obtain ⟨pin, empty⟩ := parent
  refine (tells_answered (fun w h => hE w h.1) _).bind fun now => ?_
  refine tells_part.bind fun p => ?_
  refine (tells_require (fun w h => hE w h.1.1.1) _ _).bind fun _ => ?_
  refine (tells_require (fun w h => hE w h.1.1.1.1) _ _).bind fun _ => ?_
  refine (tells_require (fun w h => hE w h.1.1.1.1.1) _ _).bind fun _ => ?_
  refine (exitCode_tells decimal (fun w h => hE w h.1.1.1.1.1.1) p).bind fun code => ?_
  refine (clientExit_tells (fun w h => hE w h.1.1.1.1.1.1.1) call p code).bind fun client => ?_
  obtain ⟨status, again⟩ := client
  refine .ret fun w h => ?_
  obtain ⟨⟨⟨⟨⟨⟨⟨⟨hw, hpin⟩, -⟩, hpart⟩, hboot⟩, -⟩, hexit⟩, hcode⟩, heof, hstatus, hagain⟩ := h
  subst hpart
  simp only [Bool.and_eq_true, decide_eq_true_eq] at hboot hexit
  obtain ⟨⟨⟨hstop, hinactive⟩, hjobless⟩, hempty⟩ := hexit
  refine ⟨hw, hpin, hempty, hboot, hstop, hinactive, hjobless, heof, hstatus, fun text ht => ?_⟩
  obtain ⟨n, hint, hn⟩ := hcode text ht
  exact ⟨n, hint, hn, hagain n hn⟩

/-- What the calls that led to a proof have seen. -/
structure Earned (origin : Part) (w : World) (proof : Proof) (identity : Identity) (ending : Ending) : Prop where
  kept : Kept origin w.part
  identified : proof.identity = some identity
  bound : Bound w.part identity
  loaded : ∃ values, .loaded values ∈ w.trace
  only : ∀ values, .loaded values ∈ w.trace → values.get "InvocationID" = identity.invocationId ∧
    (values.get "ControlGroup" = identity.cgroup ∨ values.get "ControlGroup" = "")
  stopped : [.readBack identity.invocationId, .stop true] <:+: w.trace
  eof : (.stdout, []) ∈ w.part.transport.hashes ∧ (.stderr, []) ∈ w.part.transport.hashes
  bytes : (w.part.transport.hashes.map fun chunk => chunk.2.length).sum ≤ origin.transport.limit
  accepted : .rejected ∉ w.trace
  ended : w.trace.getLast? = some (.ended ending)
  ends : Ends decimal w.part ending proof.exitCode
  retained : ∀ status, w.part.quotaTerminal = some status → .loaded status ∈ w.trace ∧ terminal status = true
  late : proof.deadlineExpired = decide (w.part.deadline ≤ ending.now.boottimeNs)

/-- The part has its proof. An exit is recorded with it only before the deadline. -/
def Done (origin : Part) (w : World) : Prop :=
  ∃ proof identity ending, w.part.quotaFinal = some proof ∧ Earned decimal origin w proof identity ending ∧
    ∀ exit, w.part.quotaExit = some exit →
      exit.identity = identity ∧ exit.observedNs = ending.now.boottimeNs ∧ exit.observedNs < w.part.deadline

/-- What holds once the last branch was answered. -/
structure Concluding (origin : Part) (identity : Identity) (ending : Ending) (code : Option Int) (deadline : Int) (w : World) : Prop where
  live : Live origin w
  bound : Bound w.part identity
  ends : Ends decimal w.part ending code
  last : w.trace.getLast? = some (.ended ending)
  deadline : w.part.deadline = deadline

theorem Live.only {w : World} (h : Live origin w) {identity : Identity} (hb : Bound w.part identity) {values : Values} (hv : .loaded values ∈ w.trace) :
    values.get "InvocationID" = identity.invocationId ∧ (values.get "ControlGroup" = identity.cgroup ∨ values.get "ControlGroup" = "") := by
  obtain ⟨hi, pin, hpin, hgroup⟩ := h.bound values hv
  obtain ⟨hid, -, pin', hpin', hcgroup⟩ := hb
  rw [hi] at hid
  rw [hpin] at hpin'
  cases hpin'
  exact ⟨Option.some.inj hid, hcgroup ▸ hgroup⟩

/-- A part whose pipes have not failed has earned its proof. -/
theorem Concluding.earned {identity : Identity} {ending : Ending} {code : Option Int} {deadline : Int} {w : World}
    (h : Concluding decimal origin identity ending code deadline w)
    (herror : w.part.transport.error = none) {proof : Proof} (hidentity : proof.identity = some identity) (hcode : proof.exitCode = code)
    (hlate : proof.deadlineExpired = decide (deadline ≤ ending.now.boottimeNs)) : Earned decimal origin w proof identity ending := by
  obtain ⟨hlimit, haccepted⟩ := h.live.pipes.quiet herror
  obtain ⟨i, hi, hstop⟩ := h.live.stopped h.ends.stopped
  have hsame : i = identity.invocationId := by
    rw [h.bound.1] at hi
    exact (Option.some.inj hi).symm
  subst hsame
  exact {
    kept := h.live.kept
    identified := hidentity
    bound := h.bound
    loaded := h.live.seen _ h.bound.1
    only := fun values hv => h.live.only h.bound hv
    stopped := hstop
    eof := ⟨h.live.pipes.eof _ h.ends.eof.1, h.live.pipes.eof _ h.ends.eof.2⟩
    bytes := h.live.pipes.limit ▸ h.live.pipes.total ▸ hlimit
    accepted := haccepted
    ended := h.last
    ends := hcode ▸ h.ends
    retained := h.live.retained
    late := h.deadline ▸ hlate }

/-- The proof itself is recorded. -/
theorem Earned.closed {w : World} {proof : Proof} {identity : Identity} {ending : Ending} (h : Earned decimal origin w proof identity ending)
    {exit : Option Exit} {final : Option Proof} :
    Earned decimal origin { w with part := { w.part with pipeClosed := true, quotaExit := exit, quotaFinal := final } } proof identity ending :=
  ⟨h.kept, h.identified, h.bound, h.loaded, h.only, h.stopped, h.eof, h.bytes, h.accepted, h.ended,
    ⟨h.ends.parent, h.ends.empty, h.ends.boot, h.ends.stopped, h.ends.inactive, h.ends.jobless, h.ends.eof, h.ends.exited, h.ends.status⟩,
    h.retained, h.late⟩

variable {identity : Identity} {ending : Ending} {code : Option Int} {deadline : Int}

theorem stageResult_concluding (call : Call) (p : Part) (late : Bool) :
    Tells (Concluding decimal origin identity ending code deadline) (stageResult call p late code) (fun _ => Concluding decimal origin identity ending code deadline) (Live origin) := by
  unfold stageResult
  split
  · exact .ret fun _ h => h
  · split
    · split
      · exact .ret fun _ h => h
      · split
        · exact .ret fun _ h => h
        · exact tells_raise fun _ h => h.live
      · exact tells_raise fun _ h => h.live
    · split
      · split
        · exact .ret fun _ h => h
        · split
          · refine Tells.bind (Q := fun _ => Concluding decimal origin identity ending code deadline) (tells_update fun w h => ?_) fun _ => .ret fun _ h => h
            exact ⟨⟨h.live.bound, h.live.seen, h.live.stopped, h.live.retained, h.live.pipes, h.live.unended, h.live.unproved, h.live.kept⟩, h.bound,
              ⟨h.ends.parent, h.ends.empty, h.ends.boot, h.ends.stopped, h.ends.inactive, h.ends.jobless, h.ends.eof, h.ends.exited, h.ends.status⟩,
              h.last, h.deadline⟩
          · exact tells_raise fun _ h => h.live
      · exact .ret fun _ h => h

theorem closeStream_concluding (call : Call) (stream : Stream) :
    Tells (Concluding decimal origin identity ending code deadline) (closeStream call stream) (fun _ => Concluding decimal origin identity ending code deadline) (Live origin) := by
  unfold closeStream
  split
  · exact .ret fun _ h => h
  · split
    · refine tells_update fun w h => ⟨h.live.transport (h.live.pipes.fails _), h.bound, ?_, h.last, h.deadline⟩
      exact ⟨h.ends.parent, h.ends.empty, h.ends.boot, h.ends.stopped, h.ends.inactive, h.ends.jobless, h.ends.eof, h.ends.exited, h.ends.status⟩
    · exact tells_raise fun _ h => h.live

theorem conclude_done (call : Call) (values : Values) (identity : Identity) (bound : Option Binding) :
    Tells (fun w => Live origin w ∧ Bound w.part identity) (conclude decimal call values identity bound)
      (fun proof w => Done decimal origin w ∧ w.part.quotaFinal = some proof) (Live origin) := by
  refine (finalObservation_tells decimal (fun _ h => h.1) call values).bind fun out => ?_
  obtain ⟨ending, code⟩ := out
  refine Tells.bind (Q := fun _ w => Concluding decimal origin identity ending code w.part.deadline w) (tells_note fun w h => ?_) fun _ => ?_
  · obtain ⟨⟨hlive, hb⟩, hends⟩ := h
    exact ⟨hlive.note (fun _ he => by cases he) (hlive.pipes.note fun he => by cases he), hb, hends, by simp, rfl⟩
  refine tells_part.bind fun p => ?_
  refine ((stageResult_concluding decimal call p _).weaken (fun _ h => h.2 ▸ h.1) (fun _ _ h => h) fun _ h => h).bind fun result => ?_
  obtain ⟨result, missing⟩ := result
  refine (tells_answered (fun _ h => h.live) _).bind fun returncode => ?_
  refine (tells_raised (fun _ h => h.1.live) _).bind fun _ => ?_
  refine ((closeStream_concluding decimal call .stdout).weaken (fun _ h => h.1) (fun _ _ h => h) fun _ h => h).bind fun _ => ?_
  refine (closeStream_concluding decimal call .stderr).bind fun _ => ?_
  refine tells_part.bind fun q => ?_
  refine (tells_require (fun _ h => h.1.live) _ _).bind fun _ => ?_
  refine (tells_update fun w h => ?_).bind fun _ => .ret fun w h => h
  obtain ⟨⟨hconcluding, hpart⟩, herror⟩ := h
  subst hpart
  have hnone : w.part.transport.error = none := by simpa using herror
  refine ⟨⟨_, identity, ending, rfl, (hconcluding.earned decimal hnone ?_ ?_ ?_).closed decimal, fun exit hexit => ?_⟩, rfl⟩
  · rfl
  · rfl
  · rfl
  · -- An exit is recorded only if the deadline has not passed.
    by_cases hlate : p.deadline ≤ ending.now.boottimeNs
    · have hexit : w.part.quotaExit = some exit := by simpa [hlate] using hexit
      rw [hconcluding.live.unproved] at hexit
      cases hexit
    · simp only [hlate, decide_false, Bool.false_eq_true, if_false, Option.some.injEq] at hexit
      subst hexit
      refine ⟨rfl, rfl, ?_⟩
      show ending.now.boottimeNs < w.part.deadline
      rw [hconcluding.deadline]
      omega

theorem manager_tells {P E : World → Prop} (hE : ∀ w, P w → E w) (call : Call) (now : Clock) :
    Tells P (manager call now) (fun _ => P) E := by
  refine tells_part.bind fun p => ?_
  refine (tells_answered (fun w h => hE w h.1) _).bind fun answer => ?_
  split
  · exact .ret fun w h => h.1.1
  · refine (tells_answered (fun w h => hE w h.1.1) _).bind fun _ => ?_
    refine (tells_require (fun w h => hE w h.1.1.1) _ _).bind fun _ => .ret fun w h => h.1.1.1.1

theorem observe_live (call : Call) :
    Tells (Live origin) (observe decimal call) (fun answer w => (Live origin w ∧ Unproved answer) ∨ ∃ proof, answer = .exited proof ∧ Done decimal origin w ∧
      w.part.quotaFinal = some proof) (Live origin) := by
  refine tells_part.bind fun p => ?_
  refine (tells_require (fun _ h => h.1) _ _).bind fun _ => ?_
  refine (tells_answered (fun _ h => h.1.1) _).bind fun now => ?_
  refine (tells_require (fun _ h => h.1.1.1) _ _).bind fun _ => ?_
  refine (manager_tells (fun _ h => h.1.1.1.1) call now).bind fun bound => ?_
  cases hfinal : p.quotaFinal with
  | some proof =>
    refine .ret fun w h => ?_
    obtain ⟨⟨⟨⟨hlive, hpart⟩, -⟩, -⟩, -⟩ := h
    rw [← hpart, hlive.unended] at hfinal
    cases hfinal
  | none =>
    refine ((pump_live call).weaken (fun _ h => h.1.1.1.1) (fun _ _ h => h) fun _ h => h).bind fun _ => ?_
    refine (tells_properties (fun _ h => h) _).bind fun values => ?_
    have hconclude : ∀ identity, Tells (fun w => Live origin w ∧ Bound w.part identity)
        (do let proof ← conclude decimal call values identity bound; return .exited proof)
        (fun answer w => (Live origin w ∧ Unproved answer) ∨ ∃ proof, answer = .exited proof ∧ Done decimal origin w ∧ w.part.quotaFinal = some proof) (Live origin) :=
      fun identity => (conclude_done decimal call values identity bound).bind fun proof => .ret fun w h => .inr ⟨proof, rfl, h⟩
    split
    · refine (observeLoaded_live call values _).bind fun out => ?_
      obtain ⟨identity, answer⟩ := out
      cases answer with
      | some answer => exact .ret fun w h => .inl ⟨h.1, h.2.2 answer rfl⟩
      | none => exact (hconclude identity).weaken (fun w h => ⟨h.1, h.2.1 rfl⟩) (fun _ _ h => h) fun _ h => h
    · exact (observeAbsent_live values).bind hconclude

/-- A part that has its proof answers with it or raises, and nothing changes. -/
theorem observe_done {w₁ : World} {proof : Proof} (hfinal : w₁.part.quotaFinal = some proof) (call : Call) :
    Tells (fun w => w = w₁) (observe decimal call) (fun answer w => w = w₁ ∧ answer = .exited proof) (fun w => w = w₁) := by
  refine tells_part.bind fun p => ?_
  refine (tells_require (fun _ h => h.1) _ _).bind fun _ => ?_
  refine (tells_answered (fun _ h => h.1.1) _).bind fun now => ?_
  refine (tells_require (fun _ h => h.1.1.1) _ _).bind fun _ => ?_
  refine (manager_tells (fun _ h => h.1.1.1.1) call now).bind fun bound => ?_
  cases hp : p.quotaFinal with
  | some proof' =>
    refine .ret fun w h => ?_
    obtain ⟨⟨⟨⟨hw, hpart⟩, -⟩, -⟩, -⟩ := h
    rw [← hpart, hw, hfinal] at hp
    cases hp
    exact ⟨hw, rfl⟩
  | none =>
    refine tells_absurd fun w h => ?_
    obtain ⟨⟨⟨⟨hw, hpart⟩, -⟩, -⟩, -⟩ := h
    rw [← hpart, hw, hfinal] at hp
    cases hp

/-! ## Recovery -/

/-- A pinned parent stays. -/
def Reattaches (origin p : Part) : Prop :=
  p.unit = origin.unit ∧ p.bootId = origin.bootId ∧ p.notDelivered = origin.notDelivered ∧
    ∀ pin, origin.quotaParent = some pin → p.quotaParent = some pin

/-- What holds of a part that is attached again, before its proof. -/
structure Recovering (origin : Part) (w : World) : Prop where
  bound : ∀ values, .loaded values ∈ w.trace → Names w.part values
  stopped : w.part.recoveryStopOk = true → Stopped w.part w.trace
  seen : ∀ values, w.part.recoveryIdentity = some values → .loaded values ∈ w.trace
  unended : w.part.recoveryFinal = none
  kept : Reattaches origin w.part

theorem Reattached.recovering {p : Part} (h : Reattached p) : Recovering p ⟨p, []⟩ where
  bound _ h := by cases h
  stopped hs := by
    rw [show p.recoveryStopOk = false from h.recoveryStopOk] at hs
    cases hs
  seen v hv := by
    rw [show p.recoveryIdentity = none from h.recoveryIdentity] at hv
    cases hv
  unended := h.recoveryFinal
  kept := ⟨rfl, rfl, rfl, fun _ h => h⟩

theorem Recovering.note {w : World} (h : Recovering origin w) {event : Event} (hloaded : ∀ values, event ≠ .loaded values) :
    Recovering origin { w with trace := w.trace ++ [event] } where
  bound v hv := by
    rcases List.mem_append.mp hv with hv | hv
    · exact h.bound v hv
    · exact absurd (List.mem_singleton.mp hv).symm (hloaded v)
  stopped hs := by
    obtain ⟨i, hi, hstop⟩ := h.stopped hs
    exact ⟨i, hi, hstop.trans (List.prefix_append _ _).isInfix⟩
  seen v hv := List.mem_append_left _ (h.seen v hv)
  unended := h.unended
  kept := h.kept

/-- What a unit whose identity was taken is known by. -/
def Recognized (origin : Part) (identity : Identity) (w : World) : Prop :=
  Recovering origin w ∧ Bound w.part identity ∧ ∃ values, .loaded values ∈ w.trace

theorem recoverLoaded_recovering (call : Call) (values : Values) :
    Tells (Recovering origin) (recoverLoaded call values) (fun out w => Recovering origin w ∧ (out.2 = none → Recognized origin out.1 w) ∧
      ∀ answer, out.2 = some answer → Unproved answer) (Recovering origin) := by
  refine (loadedIdentity_tells (fun _ h => h) values).bind fun identity => ?_
  -- The observation is noted and the part filled with it.
  refine Tells.bind (Q := fun _ w => Recovering origin { w with part := { w.part with
      invocationId := some identity.invocationId,
      recoveryIdentity := w.part.recoveryIdentity.or (some values),
      recoveryTerminal := if terminal values then w.part.recoveryTerminal.or (some values) else w.part.recoveryTerminal } } ∧
    Bound { w.part with invocationId := some identity.invocationId } identity ∧ .loaded values ∈ w.trace) (tells_note fun w h => ?_) fun _ => ?_
  · obtain ⟨hrec, hinvocation, hid, hboot, pin, hpin, hcgroup, hgroup⟩ := h
    have hsame : ∀ i, w.part.invocationId = some i → identity.invocationId = i := by
      intro i hi
      rcases hinvocation with hnone | hsome
      · rw [hnone] at hi
        cases hi
      · rw [hsome] at hi
        exact Option.some.inj hi
    refine ⟨⟨?_, ?_, ?_, hrec.unended, hrec.kept⟩, ⟨rfl, hboot, pin, hpin, hcgroup⟩, by simp⟩
    · intro v hv
      rcases List.mem_append.mp hv with hv | hv
      · obtain ⟨hi, hrest⟩ := hrec.bound v hv
        exact ⟨congrArg some (hsame _ hi), hrest⟩
      · cases List.mem_singleton.mp hv
        exact ⟨congrArg some hid, pin, hpin, hcgroup ▸ hgroup⟩
    · intro hs
      obtain ⟨i, hi, hstop⟩ := hrec.stopped hs
      exact ⟨i, congrArg some (hsame i hi), hstop.trans (List.prefix_append _ _).isInfix⟩
    · intro v hv
      cases hq : w.part.recoveryIdentity with
      | none =>
        have hv : some values = some v := by simpa [hq] using hv
        cases hv
        simp
      | some t =>
        have hv : some t = some v := by simpa [hq] using hv
        exact List.mem_append_left _ (hrec.seen v (hq.trans hv))
  refine Tells.bind (Q := fun _ w => Recovering origin w ∧ Bound w.part identity ∧ .loaded values ∈ w.trace)
    (tells_update fun w h => ⟨h.1, h.2.1, h.2.2⟩) fun _ => ?_
  refine tells_part.bind fun p => ?_
  split
  · refine (tells_answered (fun _ h => h.1.1) _).bind fun same => ?_
    obtain ⟨returncode, invocation⟩ := same
    refine Tells.bind (Q := fun _ w => Recovering origin w ∧ Bound w.part identity ∧ ∃ before, w.trace = before ++ [.readBack invocation])
      (tells_note fun w h => ⟨h.1.1.1.note fun _ he => (by cases he), h.1.1.2.1, w.trace, rfl⟩) fun _ => ?_
    refine (tells_require (fun _ h => h.1) _ _).bind fun _ => ?_
    refine Tells.bind (Q := fun _ w => (Recovering origin w ∧ Bound w.part identity ∧ ∃ before, w.trace = before ++ [.readBack invocation]) ∧
        decide (returncode = 0) && decide (invocation = identity.invocationId)) (tells_update fun w h => ?_) fun _ => ?_
    · obtain ⟨⟨hrec, hrest⟩, hsame⟩ := h
      exact ⟨⟨⟨hrec.bound, hrec.stopped, hrec.seen, hrec.unended, hrec.kept⟩, hrest⟩, hsame⟩
    refine (tells_answered (fun _ h => h.1.1) _).bind fun stopped => ?_
    refine Tells.bind (Q := fun _ w => Recovering origin w ∧ (decide (stopped = 0) = true → Stopped w.part w.trace)) (tells_note fun w h => ?_)
      fun _ => ?_
    · obtain ⟨⟨⟨hrec, ⟨hid, -⟩, before, htrace⟩, hsame⟩, -⟩ := h
      simp only [Bool.and_eq_true, decide_eq_true_eq] at hsame
      refine ⟨hrec.note fun _ he => (by cases he), fun hok => ⟨_, hid, before, [], ?_⟩⟩
      rw [htrace, hok, hsame.2]
      simp
    refine Tells.bind (Q := fun _ => Recovering origin) (tells_update fun w h => ?_) fun _ => .ret fun w h => ?_
    · exact ⟨h.1.bound, h.2, h.1.seen, h.1.unended, h.1.kept⟩
    · exact ⟨h, fun he => (by cases he), fun a ha => by cases ha; exact fun _ he => by cases he⟩
  · split
    · exact .ret fun w h => ⟨h.1.1, fun he => (by cases he), fun a ha => by cases ha; exact fun _ he => by cases he⟩
    · exact .ret fun w h => ⟨h.1.1, fun _ => ⟨h.1.1, h.1.2.1, values, h.1.2.2⟩, fun a ha => by cases ha⟩

theorem recoverAbsent_recovering (values : Values) :
    Tells (Recovering origin) (recoverAbsent values) (fun identity w => Recognized origin identity w) (Recovering origin) := by
  refine tells_part.bind fun p => ?_
  refine (tells_require (fun _ h => h.1) _ _).bind fun _ => ?_
  refine (loadedIdentity_tells (fun _ h => h.1.1) _).weaken (fun _ h => h) (fun identity w h => ?_) fun _ h => h
  obtain ⟨⟨⟨hrec, hpart⟩, hrequired⟩, htaken⟩ := h
  subst hpart
  simp only [Bool.and_eq_true] at hrequired
  obtain ⟨i, hi, -⟩ := hrec.stopped hrequired.1.2
  refine ⟨hrec, htaken.bound (by simp [hi]), ?_⟩
  obtain ⟨values', hv⟩ := Option.isSome_iff_exists.mp hrequired.2
  exact ⟨values', hrec.seen values' hv⟩

/-- What the calls that led to a proof of a part attached again have seen. -/
structure Recovered (origin : Part) (w : World) (proof : Proof) (ending : Ending) : Prop where
  kept : Reattaches origin w.part
  collectors : proof.collectorsStopped = false
  effects : proof.effectsChecked = false
  ended : w.trace.getLast? = some (.ended ending)
  parent : w.part.quotaParent = some ending.parent
  empty : ending.empty = true
  boot : ending.now.bootId = w.part.bootId
  inactive : inactive ending.after = true
  jobless : jobless ending.after = true
  source : (∃ identity, proof.identity = some identity ∧ Bound w.part identity ∧ (∃ values, .loaded values ∈ w.trace) ∧
      (∀ values, .loaded values ∈ w.trace → values.get "InvocationID" = identity.invocationId ∧
        (values.get "ControlGroup" = identity.cgroup ∨ values.get "ControlGroup" = "")) ∧
      [.readBack identity.invocationId, .stop true] <:+: w.trace) ∨
    (origin.notDelivered = true ∧ proof.identity = none ∧ w.part.invocationId = none ∧ absent w.part ending.after = true)

/-- A part attached again has its proof. -/
def Redone (origin : Part) (w : World) (proof : Proof) : Prop :=
  w.part.recoveryFinal = some proof ∧ ∃ ending, Recovered origin w proof ending

theorem absent_idle {p : Part} {values : Values} (h : absent p values = true) : inactive values = true ∧ jobless values = true := by
  simp only [absent, Bool.and_eq_true, decide_eq_true_eq] at h
  obtain ⟨⟨⟨-, hactive⟩, -⟩, hjobless⟩ := h
  exact ⟨by simp [inactive, hactive], hjobless⟩

theorem undelivered_redone (call : Call) (values : Values) :
    Tells (fun w => Recovering origin w ∧ w.part.notDelivered = true) (undelivered call values) (fun proof w => Redone origin w proof)
      (Recovering origin) := by
  refine tells_part.bind fun p => ?_
  refine (tells_require (fun _ h => h.1.1) _ _).bind fun _ => ?_
  refine (parentEmpty_tells (fun _ h => h.1.1.1) call).bind fun parent => ?_
  obtain ⟨pin, empty⟩ := parent
  refine (tells_answered (fun _ h => h.1.1.1.1) _).bind fun after => ?_
  refine (tells_require (fun _ h => h.1.1.1.1.1) _ _).bind fun _ => ?_
  refine (tells_raised (fun _ h => h.1.1.1.1.1.1) _).bind fun _ => ?_
  refine (tells_note fun w h => ?_).bind fun _ => (tells_update fun w h => h).bind fun _ => .ret fun w h => h
  obtain ⟨⟨⟨⟨⟨⟨hrec, hnot⟩, hpart⟩, hrequired⟩, hpin⟩, -⟩, hempty⟩ := h
  subst hpart
  simp only [Bool.and_eq_true, decide_eq_true_eq] at hrequired hempty
  obtain ⟨⟨⟨habsent, hnone⟩, -⟩, -⟩ := hrequired
  obtain ⟨hinactive, hjobless⟩ := absent_idle habsent
  have horigin : origin.notDelivered = true := hrec.kept.2.2.1 ▸ hnot
  refine ⟨rfl, ⟨values, pin, empty, after, none, none⟩, ⟨hrec.kept, rfl, rfl, ?_, hpin, hempty.1, hempty.2, hinactive, hjobless, .inr ⟨horigin, rfl, hnone, habsent⟩⟩⟩
  simp

theorem Recovering.only {w : World} (h : Recovering origin w) {identity : Identity} (hb : Bound w.part identity) {values : Values}
    (hv : .loaded values ∈ w.trace) :
    values.get "InvocationID" = identity.invocationId ∧ (values.get "ControlGroup" = identity.cgroup ∨ values.get "ControlGroup" = "") := by
  obtain ⟨hi, pin, hpin, hgroup⟩ := h.bound values hv
  obtain ⟨hid, -, pin', hpin', hcgroup⟩ := hb
  rw [hi] at hid
  rw [hpin] at hpin'
  cases hpin'
  exact ⟨Option.some.inj hid, hcgroup ▸ hgroup⟩

theorem recoverConclude_redone (call : Call) (values : Values) (identity : Identity) :
    Tells (Recognized origin identity) (recoverConclude decimal call values identity) (fun proof w => Redone origin w proof)
      (Recovering origin) := by
  refine tells_part.bind fun p => ?_
  refine (tells_require (fun _ h => h.1.1) _ _).bind fun _ => ?_
  refine (parentEmpty_tells (fun _ h => h.1.1.1) call).bind fun parent => ?_
  obtain ⟨pin, empty⟩ := parent
  refine (tells_answered (fun _ h => h.1.1.1.1) _).bind fun after => ?_
  refine (tells_require (fun _ h => h.1.1.1.1.1) _ _).bind fun _ => ?_
  refine (tells_answered (fun _ h => h.1.1.1.1.1.1) _).bind fun code => ?_
  refine (tells_raised (fun _ h => h.1.1.1.1.1.1.1) _).bind fun _ => ?_
  refine (tells_note fun w h => ?_).bind fun _ => (tells_update fun w h => h).bind fun _ => .ret fun w h => h
  obtain ⟨⟨⟨⟨⟨⟨⟨hrec, hbound, hseen⟩, hpart⟩, -⟩, hpin⟩, -⟩, hrequired⟩, -⟩ := h
  subst hpart
  simp only [Bool.and_eq_true, decide_eq_true_eq] at hrequired
  obtain ⟨⟨⟨⟨hboot, hstop⟩, hinactive⟩, hjobless⟩, hempty⟩ := hrequired
  obtain ⟨i, hi, hinfix⟩ := hrec.stopped hstop
  have hsame : i = identity.invocationId := by
    rw [hbound.1] at hi
    exact (Option.some.inj hi).symm
  subst hsame
  have hnoted : Recovering origin { w with trace := w.trace ++ [.ended ⟨values, pin, empty, after, none, none⟩] } :=
    hrec.note fun _ he => by cases he
  obtain ⟨values', hv⟩ := hseen
  refine ⟨rfl, ⟨values, pin, empty, after, none, none⟩, ⟨hrec.kept, rfl, rfl, ?_, hpin, hempty, hboot, hinactive, hjobless, .inl ⟨identity, rfl, hbound, ⟨values', List.mem_append_left _ hv⟩,
    fun v hv => hnoted.only hbound hv, hinfix.trans (List.prefix_append _ _).isInfix⟩⟩⟩
  simp

theorem recoveredParent_tells {P E : World → Prop} (hE : ∀ w, P w → E w) (call : Call) (now : Clock) :
    Tells P (recoveredParent call now) (fun pin w => P w ∧ ∀ pin', w.part.quotaParent = some pin' → pin = pin') E := by
  refine tells_part.bind fun p => ?_
  refine (tells_answered (fun w h => hE w h.1) _).bind fun answer => ?_
  split
  · refine (tells_answered (fun w h => hE w h.1.1) _).weaken (fun _ h => h) (fun pin w h => ?_) fun _ h => h
    obtain ⟨⟨⟨hw, hpart⟩, -⟩, hpin⟩ := h
    refine ⟨hw, fun pin' hp => ?_⟩
    rw [← hpart, hp] at hpin
    exact (Except.ok.inj hpin).symm
  · refine (tells_answered (fun w h => hE w h.1.1) _).bind fun _ => ?_
    refine (tells_require (fun w h => hE w h.1.1.1) _ _).bind fun _ => .ret fun w h => ?_
    obtain ⟨⟨⟨⟨hw, hpart⟩, -⟩, -⟩, -⟩ := h
    refine ⟨hw, fun pin' hp => ?_⟩
    rw [← hpart, hp]
    rfl

/-- The parent that was pinned is pinned again. -/
theorem Recovering.pin {w : World} (h : Recovering origin w) {pin : Pin} (hpin : ∀ pin', w.part.quotaParent = some pin' → pin = pin') :
    Recovering origin { w with part := { w.part with quotaParent := some pin } } where
  bound v hv := by
    obtain ⟨hi, pin', hp, hgroup⟩ := h.bound v hv
    exact ⟨hi, pin', congrArg some (hpin pin' hp), hgroup⟩
  stopped := h.stopped
  seen := h.seen
  unended := h.unended
  kept := ⟨h.kept.1, h.kept.2.1, h.kept.2.2.1, fun pin' hp => congrArg some (hpin pin' (h.kept.2.2.2 pin' hp))⟩

theorem observeRecovered_recovering (call : Call) :
    Tells (Recovering origin) (observeRecovered decimal call) (fun answer w => (Recovering origin w ∧ Unproved answer) ∨
      ∃ proof, answer = .exited proof ∧ Redone origin w proof) (Recovering origin) := by
  refine tells_part.bind fun p => ?_
  refine (tells_require (fun _ h => h.1) _ _).bind fun _ => ?_
  refine (tells_answered (fun _ h => h.1.1) _).bind fun now => ?_
  refine (tells_require (fun _ h => h.1.1.1) _ _).bind fun _ => ?_
  refine (recoveredParent_tells (fun _ h => h.1.1.1.1) call now).bind fun pin => ?_
  refine Tells.bind (Q := fun _ w => Recovering origin w ∧ w.part.recoveryFinal = p.recoveryFinal ∧ w.part.notDelivered = p.notDelivered)
    (tells_update fun w h => ?_) fun _ => ?_
  · obtain ⟨⟨⟨⟨⟨hrec, hpart⟩, -⟩, -⟩, -⟩, hpin⟩ := h
    subst hpart
    exact ⟨hrec.pin hpin, rfl, rfl⟩
  cases hfinal : p.recoveryFinal with
  | some proof =>
    refine .ret fun w h => ?_
    obtain ⟨hrec, hsame, -⟩ := h
    rw [hrec.unended] at hsame
    cases hsame
  | none =>
    refine (tells_properties (fun _ h => h.1) _).bind fun values => ?_
    have hconclude : ∀ identity, Tells (Recognized origin identity)
        (do let proof ← recoverConclude decimal call values identity; return .exited proof)
        (fun answer w => (Recovering origin w ∧ Unproved answer) ∨ ∃ proof, answer = .exited proof ∧ Redone origin w proof) (Recovering origin) :=
      fun identity => (recoverConclude_redone decimal call values identity).bind fun proof => .ret fun w h => .inr ⟨proof, rfl, h⟩
    split
    · rename_i hnot
      refine ((undelivered_redone call values).weaken (fun w h => ⟨h.1, h.2.2.trans hnot⟩) (fun _ _ h => h) fun _ h => h).bind fun proof => ?_
      exact .ret fun w h => .inr ⟨proof, rfl, h⟩
    · split
      · refine ((recoverLoaded_recovering call values).weaken (fun _ h => h.1) (fun _ _ h => h) fun _ h => h).bind fun out => ?_
        obtain ⟨identity, answer⟩ := out
        cases answer with
        | some answer => exact .ret fun w h => .inl ⟨h.1, h.2.2 answer rfl⟩
        | none => exact (hconclude identity).weaken (fun w h => h.2.1 rfl) (fun _ _ h => h) fun _ h => h
      · exact ((recoverAbsent_recovering values).weaken (fun _ h => h.1) (fun _ _ h => h) fun _ h => h).bind hconclude

theorem observeRecovered_done {w₁ : World} {proof : Proof} {pin : Pin} (hfinal : w₁.part.recoveryFinal = some proof)
    (hparent : w₁.part.quotaParent = some pin) (call : Call) :
    Tells (fun w => w = w₁) (observeRecovered decimal call) (fun answer w => w = w₁ ∧ answer = .exited proof) (fun w => w = w₁) := by
  refine tells_part.bind fun p => ?_
  refine (tells_require (fun _ h => h.1) _ _).bind fun _ => ?_
  refine (tells_answered (fun _ h => h.1.1) _).bind fun now => ?_
  refine (tells_require (fun _ h => h.1.1.1) _ _).bind fun _ => ?_
  refine (recoveredParent_tells (fun _ h => h.1.1.1.1) call now).bind fun pin' => ?_
  refine Tells.bind (Q := fun _ w => w = w₁ ∧ p = w₁.part) (tells_update fun w h => ?_) fun _ => ?_
  · obtain ⟨⟨⟨⟨⟨hw, hpart⟩, -⟩, -⟩, -⟩, hpin⟩ := h
    subst hw
    rw [hpin pin hparent, ← hparent]
    exact ⟨rfl, hpart.symm⟩
  cases hp : p.recoveryFinal with
  | some proof' =>
    refine .ret fun w h => ?_
    rw [h.2, hfinal] at hp
    cases hp
    exact ⟨h.1, rfl⟩
  | none =>
    refine tells_absurd fun w h => ?_
    rw [h.2, hfinal] at hp
    cases hp

/-! ## Runs -/

/-- A program that changes nothing and answers with the proof, or raises. -/
theorem Tells.answers {m : Act Answer} {w : World} {proof : Proof}
    (h : Tells (fun w' => w' = w) m (fun answer w' => w' = w ∧ answer = .exited proof) (fun w' => w' = w)) :
    m.from w = (.ok (.exited proof), w) ∨ ∃ e, m.from w = (.error e, w) := by
  have hrun := h w rfl
  cases hm : m.from w with
  | mk result w' =>
    rw [hm] at hrun
    cases result with
    | ok answer =>
      obtain ⟨rfl, rfl⟩ := hrun
      exact .inl rfl
    | error e =>
      obtain rfl : w' = w := hrun
      exact .inr ⟨e, rfl⟩

theorem Tells.unchanged {m : Act Answer} {w : World} {proof : Proof}
    (h : Tells (fun w' => w' = w) m (fun answer w' => w' = w ∧ answer = .exited proof) (fun w' => w' = w)) : (m.from w).2 = w := by
  rcases h.answers with hm | ⟨e, hm⟩ <;> rw [hm]

/-- Every later call returns the same proof or raises. -/
def Final (call : Call → Act Answer) (w : World) (proof : Proof) : Prop :=
  ∀ (later : List Call) (c : Call), Machine.exec (fun w c => ((call c).from w).2) w later = w ∧
    ((call c).from w = (.ok (.exited proof), w) ∨ ∃ e, (call c).from w = (.error e, w))

theorem final_of_tells {call : Call → Act Answer} {w : World} {proof : Proof}
    (h : ∀ c, Tells (fun w' => w' = w) (call c) (fun answer w' => w' = w ∧ answer = .exited proof) (fun w' => w' = w)) :
    Final call w proof := by
  intro later c
  refine ⟨?_, (h c).answers⟩
  induction later with
  | nil => rfl
  | cons c later ih =>
    rw [Machine.exec_cons, (h c).unchanged]
    exact ih

theorem observed_inv {w : World} (h : Live origin w ∨ Done decimal origin w) (call : Call) :
    Live origin (observed decimal w call) ∨ Done decimal origin (observed decimal w call) := by
  rcases h with h | h
  · have hrun := (show Tells (Live origin) _ _ _ from observe_live decimal call) w h
    unfold observed
    cases hm : (observe decimal call).from w with
    | mk result w' =>
      rw [hm] at hrun
      cases result with
      | ok answer =>
        rcases hrun with hlive | ⟨proof, -, hdone, -⟩
        · exact .inl hlive.1
        · exact .inr hdone
      | error e => exact .inl hrun
  · obtain ⟨proof, identity, ending, hfinal, hrest⟩ := h
    have hsame : observed decimal w call = w := (observe_done decimal hfinal call).unchanged
    rw [hsame]
    exact .inr ⟨proof, identity, ending, hfinal, hrest⟩

theorem recovered_inv {w : World} (h : Recovering origin w ∨ ∃ proof, Redone origin w proof) (call : Call) :
    Recovering origin (recovered decimal w call) ∨ ∃ proof, Redone origin (recovered decimal w call) proof := by
  rcases h with h | ⟨proof, hfinal, ending, hrest⟩
  · have hrun := (show Tells (Recovering origin) _ _ _ from observeRecovered_recovering decimal call) w h
    unfold recovered
    cases hm : (observeRecovered decimal call).from w with
    | mk result w' =>
      rw [hm] at hrun
      cases result with
      | ok answer =>
        rcases hrun with hlive | ⟨proof, -, hdone⟩
        · exact .inl hlive.1
        · exact .inr ⟨proof, hdone⟩
      | error e => exact .inl hrun
  · have hsame : recovered decimal w call = w := (observeRecovered_done decimal hfinal hrest.parent call).unchanged
    rw [hsame]
    exact .inr ⟨proof, hfinal, ending, hrest⟩

/-- In every run of `observe` over a fresh part, a call that returns a proof of the exit has earned it,
and every later call returns the same proof or raises; an exit is recorded only with such a proof and
before the deadline. In every run of `observe_recovered` it is so for what a part attached again can
prove. -/
theorem exits_earned (p : Part) (calls : List Call) :
    (Fresh p →
      (∀ call proof w, (observe decimal call).from (Machine.exec (observed decimal) ⟨p, []⟩ calls) = (.ok (.exited proof), w) →
        (∃ identity ending, Earned decimal p w proof identity ending) ∧ Final (observe decimal) w proof) ∧
      ∀ exit, (Machine.exec (observed decimal) ⟨p, []⟩ calls).part.quotaExit = some exit →
        ∃ proof ending, (Machine.exec (observed decimal) ⟨p, []⟩ calls).part.quotaFinal = some proof ∧
          Earned decimal p (Machine.exec (observed decimal) ⟨p, []⟩ calls) proof exit.identity ending ∧
          exit.observedNs = ending.now.boottimeNs ∧ exit.observedNs < p.deadline) ∧
    (Reattached p →
      ∀ call proof w, (observeRecovered decimal call).from (Machine.exec (recovered decimal) ⟨p, []⟩ calls) = (.ok (.exited proof), w) →
        (∃ ending, Recovered p w proof ending) ∧ Final (observeRecovered decimal) w proof) := by
  refine ⟨fun fresh => ?_, fun reattached call proof w hrun => ?_⟩
  · have hinv : Live p (Machine.exec (observed decimal) ⟨p, []⟩ calls) ∨ Done decimal p (Machine.exec (observed decimal) ⟨p, []⟩ calls) :=
      Machine.exec_inv (I := fun w => Live p w ∨ Done decimal p w) (fun _ call h => observed_inv decimal h call) (.inl fresh.live)
    generalize Machine.exec (observed decimal) ⟨p, []⟩ calls = before at *
    refine ⟨fun call proof w hrun => ?_, fun exit hexit => ?_⟩
    · rcases hinv with hlive | hdone
      · rcases (observe_live decimal call).ok hlive hrun with ⟨-, hunproved⟩ | ⟨proof', heq, ⟨proof'', identity, ending, hfinal', hearned, -⟩, hfinal⟩
        · exact absurd rfl (hunproved proof)
        · cases heq
          rw [hfinal] at hfinal'
          cases hfinal'
          exact ⟨⟨identity, ending, hearned⟩, final_of_tells (observe_done decimal hfinal)⟩
      · obtain ⟨proof', identity, ending, hfinal, hearned, -⟩ := hdone
        obtain ⟨rfl, heq⟩ := (observe_done decimal hfinal call).ok rfl hrun
        cases heq
        exact ⟨⟨identity, ending, hearned⟩, final_of_tells (observe_done decimal hfinal)⟩
    · rcases hinv with hlive | ⟨proof, identity, ending, hfinal, hearned, hexits⟩
      · rw [hlive.unproved] at hexit
        cases hexit
      · obtain ⟨rfl, hnow, hdeadline⟩ := hexits exit hexit
        exact ⟨proof, ending, hfinal, hearned, hnow, hearned.kept.2.2.2 ▸ hdeadline⟩
  · have hinv : Recovering p (Machine.exec (recovered decimal) ⟨p, []⟩ calls) ∨ ∃ proof, Redone p (Machine.exec (recovered decimal) ⟨p, []⟩ calls) proof :=
      Machine.exec_inv (I := fun w => Recovering p w ∨ ∃ proof, Redone p w proof) (fun _ call h => recovered_inv decimal h call)
        (.inl reattached.recovering)
    generalize Machine.exec (recovered decimal) ⟨p, []⟩ calls = before at *
    rcases hinv with hrec | ⟨proof', hfinal, ending, hrecovered⟩
    · rcases (observeRecovered_recovering decimal call).ok hrec hrun with ⟨-, hunproved⟩ | ⟨proof', heq, hfinal, ending, hrecovered⟩
      · exact absurd rfl (hunproved proof)
      · cases heq
        exact ⟨⟨ending, hrecovered⟩, final_of_tells (observeRecovered_done decimal hfinal hrecovered.parent)⟩
    · obtain ⟨rfl, heq⟩ := (observeRecovered_done decimal hfinal hrecovered.parent call).ok rfl hrun
      cases heq
      exact ⟨⟨ending, hrecovered⟩, final_of_tells (observeRecovered_done decimal hfinal hrecovered.parent)⟩

/-! ### A stage that is killed -/

/-- The digits of a text in ASCII. -/
def ascii : Decimal where
  isdigit text := !text.isEmpty && text.toList.all Char.isDigit
  int text := .ok (text.toList.foldl (fun n c => 10 * n + (c.toNat - 48)) 0 : Nat)

/-- A helper's part as it is delivered. -/
def helperPart : Part where
  unit := "lhj-a.service"
  bootId := "b"
  cgroupParent := "/sys/fs/cgroup/lh.slice"
  executionId := "e"
  bootstrap := false
  quotaPipe := false
  reader := false
  recovered := false
  launched := true
  nonblocking := true
  deadline := 10
  quotaParent := some ⟨"/lh.slice", 1, 2⟩
  invocationId := none
  launchAcked := false
  transport := ⟨65536, 0, [], none, []⟩
  quotaTerminal := none
  stopObservation := none
  stopAttempted := false
  stopOk := false
  cancelStop := false
  deadlineStop := false
  quotaExit := none
  quotaFinal := none
  pipeClosed := false
  pipeError := none
  stopAcked := false
  notDelivered := false
  recoveryIdentity := none
  recoveryTerminal := none
  recoveryStopAttempted := false
  recoveryStopOk := false
  recoveryFinal := none

theorem helperPart_fresh : Fresh helperPart := ⟨rfl, rfl, rfl, rfl, rfl, rfl, rfl, rfl⟩

def anInvocation : String := "0123456789abcdef0123456789abcdef"

/-- The properties of a loaded unit. -/
def shownUnit (active sub code status : String) : Except Exc Reply :=
  .ok ⟨0, .ok ([("Id", "lhj-a.service"), ("LoadState", "loaded"), ("ActiveState", active), ("SubState", sub),
    ("ControlGroup", "/lh.slice/lhj-a.service"), ("InvocationID", anInvocation), ("Job", ""), ("ExecMainCode", code),
    ("ExecMainStatus", status), ("Result", "success"), ("Restart", "no"), ("TriggeredBy", ""), ("KillMode", "control-group"),
    ("Type", "exec"), ("ExitType", "cgroup"), ("RemainAfterExit", "yes"), ("OnFailure", ""), ("OnSuccess", ""),
    ("RestartForceExitStatus", "")].map fun pair => (pair.1, some pair.2))⟩

/-- A call with a cancellation, while the pipes are at their end and the client has exited with `status`. -/
def cancelledCall (shown : Except Exc Reply) (status : Int) : Call where
  now := .ok ⟨"b", 1⟩
  binding := .ok none
  read _ := .ok []
  fed := none
  shown := shown
  bound := none
  requested := true
  same := .ok (0, anInvocation)
  stopped := .ok 0
  parent := .ok (⟨"/lh.slice", 1, 2⟩, true)
  after := .ok ⟨"b", 2⟩
  requestedAfter := true
  status := .ok (some status)
  again := .ok (some status)
  receipt := .error .other
  requestedLast := true
  result := none
  last := .ok (some status)
  digested := none
  closed _ := none

/-- The proof that a call answered with, and the world it left. -/
def exitOf (out : Except Exc Answer × World) : Option (Proof × World) :=
  match out with
  | (.ok (.exited proof), w) => some (proof, w)
  | _ => none

theorem exitOf_some {out : Except Exc Answer × World} {proof : Proof} {w : World} (h : exitOf out = some (proof, w)) :
    out = (.ok (.exited proof), w) := by
  unfold exitOf at h
  split at h <;> cases h
  rfl

/-- The unit runs, is asked to stop, and is then seen to have exited with `code` and `status`. -/
def stoppedRun (code status : String) (client : Int) : Except Exc Answer × World :=
  (observe ascii (cancelledCall (shownUnit "failed" "failed" code status) client)).from
    (Machine.exec (observed ascii) ⟨helperPart, []⟩ [cancelledCall (shownUnit "active" "running" "0" "0") client])

/-- A part of the same unit, attached again. -/
def attachedPart : Part := { helperPart with recovered := true }

theorem attachedPart_reattached : Reattached attachedPart := ⟨rfl, rfl, rfl, rfl, rfl⟩

def recoveredRun : Except Exc Answer × World :=
  (observeRecovered ascii (cancelledCall (shownUnit "failed" "failed" "1" "0") 0)).from
    (Machine.exec (recovered ascii) ⟨attachedPart, []⟩ [cancelledCall (shownUnit "active" "running" "0" "0") 0])

theorem exits_earned_stopped :
    (∃ proof w, stoppedRun "1" "0" 0 = (.ok (.exited proof), w) ∧ ∃ identity ending, Earned ascii helperPart w proof identity ending) ∧
      ∃ proof w, recoveredRun = (.ok (.exited proof), w) ∧ ∃ ending, Recovered attachedPart w proof ending := by
  have hstopped : (exitOf (stoppedRun "1" "0" 0)).isSome = true := by decide +kernel
  have hrecovered : (exitOf recoveredRun).isSome = true := by decide +kernel
  obtain ⟨⟨proof, w⟩, hs⟩ := Option.isSome_iff_exists.mp hstopped
  obtain ⟨⟨proof', w'⟩, hr⟩ := Option.isSome_iff_exists.mp hrecovered
  refine ⟨⟨proof, w, exitOf_some hs, ?_⟩, proof', w', exitOf_some hr, ?_⟩
  · exact (((exits_earned ascii helperPart _).1 helperPart_fresh).1 _ proof w (exitOf_some hs)).1
  · exact ((exits_earned ascii attachedPart _).2 attachedPart_reattached _ proof' w' (exitOf_some hr)).1

/-- The client's status at the end of a trace. -/
def clientStatus (w : World) : Option Int :=
  match w.trace.getLast? with
  | some (.ended ending) => ending.status
  | _ => none

/-- A unit that was killed has exited with no status of its own, and the client's is another. -/
theorem killed_status : ¬∀ (decimal : Decimal) (p : Part) (calls : List Call) (call : Call) (proof : Proof) (w : World), Fresh p →
    (observe decimal call).from (Machine.exec (observed decimal) ⟨p, []⟩ calls) = (.ok (.exited proof), w) →
    ∀ status, w.part.quotaTerminal = some status → ∃ n, decimal.int (status.get "ExecMainStatus") = .ok n ∧ clientStatus w = some n := by
  intro hall
  have hkilled : (exitOf (stoppedRun "2" "15" 1)).any (fun out => clientStatus out.2 = some 1 &&
      out.2.part.quotaTerminal.any fun status => status.get "ExecMainStatus" = "15") = true := by decide +kernel
  obtain ⟨⟨proof, w⟩, hs, hout⟩ := (Option.any_eq_true _ _).mp hkilled
  obtain ⟨hclient, hterminal⟩ := Bool.and_eq_true_iff.mp hout
  obtain ⟨status, hstatus, hfifteen⟩ := (Option.any_eq_true _ _).mp hterminal
  obtain ⟨n, hn, hsame⟩ := hall ascii helperPart _ _ proof w helperPart_fresh (exitOf_some hs) status hstatus
  have hcode : status.get "ExecMainStatus" = "15" := of_decide_eq_true hfifteen
  have hone : clientStatus w = some 1 := of_decide_eq_true hclient
  have hread : ascii.int "15" = .ok 15 := by decide +kernel
  rw [hcode, hread] at hn
  rw [hone] at hsame
  cases hn
  exact absurd (Option.some.inj hsame) (by decide)

end LocalHand.QuotaLifecycle
