/-
After a torn write, and the whole property: an intent file cut short makes
every later delivery fail, and starts are once-only with disjoint allocations.
-/
import LocalHand.Observer.Deliveries

namespace LocalHand.Observer

open PyJson ResultReader Machine
open Framing (Bytes)

variable {sha256 : Sha256} {s : State} {id : Nat} {c : Call}

/-! ## After a torn write -/

/-- The request's intent file is cut short, and no call is writing it. -/
structure Cut (sha256 : Sha256) (s : State) (b : Binding) : Prop where
  file : ∃ v file, bindingValue sha256 b = .ok v ∧ (fileName b.requestId .intent, file) ∈ s.dir ∧
    file.bytes <+: encode v ∧ file.bytes ≠ encode v
  writer : ∀ id c v d stage, s.calls id = some c → c.point ≠ .creating (fileName b.requestId .intent) v d stage

/-- Since `base`, no call that began later called back, or had an answer but a fault. -/
structure Failing (base s : State) : Prop where
  launched : ∀ e ∈ s.launched, e ∈ base.launched ∨ e.1 < base.next
  answers : ∀ e ∈ s.answers, e ∈ base.answers ∨ (base.next ≤ e.1 → ∃ fault, e.2 = .error fault)

/-- The call can only fail when every scan does. -/
def Call.Early (c : Call) : Prop :=
  c.point = .calling ∨ c.point = .checked ∨ c.point = .holding ∨ ∃ fault, c.point = .leaving (.error fault)

structure Blocked (sha256 : Sha256) (b : Binding) (base s : State) : Prop where
  cut : Cut sha256 s b
  failing : Failing base s
  early : ∀ id c, base.next ≤ id → s.calls id = some c → c.Early

theorem Cut.scan {b : Binding} (h : Cut sha256 s b) (hi : Inv sha256 s) (grouped : Groups) :
    scan sha256 s.dir ≠ .ok grouped := by
  obtain ⟨v, file, hb, hmem, hprefix, hne⟩ := h.file
  exact scan_partial hi.dir.names hmem (recordName_fileName .intent (bindingValue_ok hb).request)
    (fun hlast => hne (eq_encode hprefix hlast)) grouped

section Blocked

variable {b : Binding} {base : State}

/-- A step of one call that does not write the torn file. -/
theorem Blocked.move (h : Blocked sha256 b base s) {s' : State} {o : Option Call}
    (hcalls : s'.calls = Function.update s.calls id o)
    (hdir : ∀ file, (fileName b.requestId .intent, file) ∈ s.dir → (fileName b.requestId .intent, file) ∈ s'.dir)
    (hlaunched : ∀ e ∈ s'.launched, e ∈ s.launched ∨ e.1 < base.next)
    (hanswers : ∀ e ∈ s'.answers, e ∈ s.answers ∨ (base.next ≤ e.1 → ∃ fault, e.2 = .error fault))
    (hpoint : ∀ d, o = some d → (base.next ≤ id → d.Early) ∧
      ∀ v delivery stage, d.point ≠ .creating (fileName b.requestId .intent) v delivery stage) :
    Blocked sha256 b base s' := by
  obtain ⟨v, file, hb, hmem, hfile⟩ := h.cut.file
  have hcall : ∀ j d, s'.calls j = some d → (j = id ∧ o = some d) ∨ s.calls j = some d := by
    intro j d hd
    rw [hcalls] at hd
    by_cases hj : j = id
    · subst hj
      rw [Function.update_self] at hd
      exact .inl ⟨rfl, hd⟩
    · rw [Function.update_of_ne hj] at hd
      exact .inr hd
  refine ⟨⟨⟨v, file, hb, hdir file hmem, hfile⟩, fun j d v delivery stage hd => ?_⟩,
    ⟨fun e he => (hlaunched e he).elim (h.failing.launched e) .inr, fun e he => (hanswers e he).elim (h.failing.answers e) .inr⟩,
    fun j d hj hd => ?_⟩
  · rcases hcall j d hd with ⟨-, ho⟩ | hd
    · exact (hpoint d ho).2 v delivery stage
    · exact h.cut.writer j d v delivery stage hd
  · rcases hcall j d hd with ⟨rfl, ho⟩ | hd
    · exact (hpoint d ho).1 hj
    · exact h.early j d hj hd

theorem Early.point {c : Call} (h : c.Early) : ∀ name v delivery stage, c.point ≠ .creating name v delivery stage := by
  intro name v delivery stage
  rcases h with h | h | h | ⟨_, h⟩ <;> rw [h] <;> exact nofun

theorem blocked_early (h : Blocked sha256 b base s) {s' : State} {d : Call} (hd : d.Early)
    (hcalls : s'.calls = Function.update s.calls id (some d))
    (hdir : ∀ file, (fileName b.requestId .intent, file) ∈ s.dir → (fileName b.requestId .intent, file) ∈ s'.dir)
    (hlaunched : s'.launched = s.launched) (hanswers : s'.answers = s.answers) : Blocked sha256 b base s' := by
  refine h.move hcalls hdir (fun e he => .inl (hlaunched ▸ he)) (fun e he => .inl (hanswers ▸ he)) ?_
  rintro _ ⟨⟩
  exact ⟨fun _ => hd, fun v delivery stage => Early.point hd _ v delivery stage⟩

theorem blocked_done (h : Blocked sha256 b base s) {s' : State} {purpose : Purpose} {result : Except Fault Delivery}
    (hresult : base.next ≤ id → ∃ fault, result = .error fault) (hcalls : s'.calls = Function.update s.calls id none)
    (hdir : s'.dir = s.dir) (hlaunched : s'.launched = s.launched)
    (hanswers : s'.answers = s.answers ++ [(id, purpose.result result)]) : Blocked sha256 b base s' := by
  refine h.move hcalls (fun _ hf => hdir ▸ hf) (fun e he => .inl (hlaunched ▸ he)) (fun e he => ?_) (by simp)
  rw [hanswers] at he
  rcases List.mem_append.mp he with he | he
  · exact .inl he
  · cases List.mem_singleton.mp he
    refine .inr fun hid => ?_
    obtain ⟨fault, rfl⟩ := hresult hid
    cases purpose <;> try exact ⟨_, rfl⟩
    cases fault <;> exact ⟨_, rfl⟩

/-- A call that is past the scan began before. -/
theorem Blocked.before (h : Blocked sha256 b base s) (hc : s.calls id = some c) (hpoint : ¬ c.Early) : id < base.next := by
  by_contra hid
  exact hpoint (h.early id c (by omega) hc)

theorem enter_blocked (h : Blocked sha256 b base s) : Blocked sha256 b base (enter s id c) := by
  unfold enter
  split
  · split
    · exact blocked_done h (fun _ => ⟨_, rfl⟩) rfl rfl rfl rfl
    · exact blocked_early h (.inr (.inl rfl)) rfl (fun _ hf => hf) rfl rfl
  · exact h

theorem acquire_blocked (h : Blocked sha256 b base s) (raised : Option Fault) : Blocked sha256 b base (acquire s id c raised) := by
  unfold acquire
  split
  · split
    · exact blocked_done h (fun _ => ⟨_, rfl⟩) rfl rfl rfl rfl
    · split
      · exact blocked_early h (.inr (.inr (.inr ⟨_, rfl⟩))) rfl (fun _ hf => hf) rfl rfl
      · exact blocked_early h (.inr (.inr (.inl rfl))) rfl (fun _ hf => hf) rfl rfl
  · exact h

theorem inspect_blocked (h : Blocked sha256 b base s) (hi : Inv sha256 s) (moment : Moment) (raised : Option Fault) :
    Blocked sha256 b base (inspect sha256 s id c moment raised) := by
  unfold inspect
  split
  · split
    · exact blocked_early h (.inr (.inr (.inr ⟨_, rfl⟩))) rfl (fun _ hf => hf) rfl rfl
    · exact blocked_early h (.inr (.inr (.inr ⟨_, rfl⟩))) rfl (fun _ hf => hf) rfl rfl
    · next grouped hscan => exact absurd hscan (h.cut.scan hi grouped)
  · exact h

/-- The call fails in `_create`. -/
theorem spoil_blocked (h : Blocked sha256 b base s) {s' : State} (e : Fault)
    (hcalls : s'.calls = s.calls) (hlaunched : s'.launched = s.launched) (hanswers : s'.answers = s.answers)
    (hdir : ∀ file, (fileName b.requestId .intent, file) ∈ s.dir → (fileName b.requestId .intent, file) ∈ s'.dir) :
    Blocked sha256 b base (s'.spoil id c e) := by
  have hput : (s'.spoil id c e).calls = Function.update s.calls id (some { c with point := .leaving (.error e) }) := by
    rw [← hcalls]
    rfl
  exact blocked_early h (.inr (.inr (.inr ⟨e, rfl⟩))) hput hdir hlaunched hanswers

/-- A creating call goes on with its own file. -/
theorem creating_blocked (h : Blocked sha256 b base s) (hc : s.calls id = some c) {name : String} {v : Json}
    {delivery : Option Delivery} {stage stage' : Stage} (hpoint : c.point = .creating name v delivery stage) {s' : State}
    (hcalls : s'.calls = Function.update s.calls id (some { c with point := .creating name v delivery stage' }))
    (hdir : ∀ file, (fileName b.requestId .intent, file) ∈ s.dir → (fileName b.requestId .intent, file) ∈ s'.dir)
    (hlaunched : s'.launched = s.launched) (hanswers : s'.answers = s.answers) : Blocked sha256 b base s' := by
  have hid : id < base.next := h.before hc fun hearly => Early.point hearly _ _ _ _ hpoint
  refine h.move hcalls hdir (fun e he => .inl (hlaunched ▸ he)) (fun e he => .inl (hanswers ▸ he)) ?_
  rintro _ ⟨⟩
  refine ⟨fun hle => absurd hid (by omega), fun v' delivery' stage'' heq => ?_⟩
  cases heq
  exact h.cut.writer id c _ _ _ hc hpoint

/-- The file a call is creating is another. -/
theorem Blocked.other (h : Blocked sha256 b base s) (hc : s.calls id = some c) {name : String} {v : Json}
    {delivery : Option Delivery} {stage : Stage} (hpoint : c.point = .creating name v delivery stage) (new : File) :
    ∀ file, (fileName b.requestId .intent, file) ∈ s.dir →
      (fileName b.requestId .intent, file) ∈ replaceFile name new s.dir := by
  intro file hmem
  refine replaceFile_other hmem ?_
  rintro rfl
  exact h.cut.writer id c _ _ _ hc hpoint

theorem openFile_blocked (h : Blocked sha256 b base s) (hc : s.calls id = some c) (made : Bool) (raised : Option Fault) :
    Blocked sha256 b base (openFile s id c made raised) := by
  unfold openFile
  split
  case h_2 => exact h
  next name v delivery hpoint =>
  split
  · exact spoil_blocked h _ rfl rfl rfl fun _ hf => hf
  dsimp only
  split
  · split
    · exact spoil_blocked h _ rfl rfl rfl fun _ hf => List.mem_append_left _ hf
    · exact spoil_blocked h _ rfl rfl rfl fun _ hf => hf
  · exact creating_blocked h hc hpoint rfl (fun _ hf => List.mem_append_left _ hf) rfl rfl

theorem writeFile_blocked (h : Blocked sha256 b base s) (hc : s.calls id = some c) (count : Nat) (raised : Option Fault) :
    Blocked sha256 b base (writeFile s id c count raised) := by
  unfold writeFile
  split
  case h_2 => exact h
  next name v delivery hpoint =>
  have hother := h.other hc hpoint ⟨(encode v).take count, false⟩
  dsimp only
  split
  · exact spoil_blocked h _ rfl rfl rfl hother
  · split
    · exact creating_blocked h hc hpoint rfl hother rfl rfl
    · exact spoil_blocked h _ rfl rfl rfl hother

theorem syncFile_blocked (h : Blocked sha256 b base s) (hc : s.calls id = some c) (raised : Option Fault) :
    Blocked sha256 b base (syncFile s id c raised) := by
  unfold syncFile
  split
  case h_2 => exact h
  next name v delivery hpoint =>
  split
  · exact spoil_blocked h _ rfl rfl rfl fun _ hf => hf
  · exact creating_blocked h hc hpoint rfl (fun _ hf => hf) rfl rfl

theorem syncDirectory_blocked (h : Blocked sha256 b base s) (hc : s.calls id = some c) (raised : Option Fault) :
    Blocked sha256 b base (syncDirectory s id c raised) := by
  unfold syncDirectory
  split
  case h_2 => exact h
  next name v delivery hpoint =>
  split
  · exact spoil_blocked h _ rfl rfl rfl fun _ hf => hf
  have hid : id < base.next := h.before hc fun hearly => Early.point hearly _ _ _ _ hpoint
  have hother := h.other hc hpoint ⟨encode v, true⟩
  have hmove : ∀ s' : State, s'.calls = Function.update s.calls id (some { c with point := .leaving (.ok delivery) }) →
      s'.dir = replaceFile name ⟨encode v, true⟩ s.dir → s'.launched = s.launched → s'.answers = s.answers →
      Blocked sha256 b base s' := by
    intro s' hcalls hdir hl ha
    refine h.move hcalls (fun f hf => hdir ▸ hother f hf) (fun e he => .inl (hl ▸ he)) (fun e he => .inl (ha ▸ he)) ?_
    rintro _ ⟨⟩
    exact ⟨fun hle => absurd hid (by omega), fun _ _ _ => nofun⟩
  cases delivery with
  | none => exact hmove _ rfl rfl rfl rfl
  | some d => exact hmove _ rfl rfl rfl rfl

theorem leave_blocked (h : Blocked sha256 b base s) (hc : s.calls id = some c) (raised : Option Fault) :
    Blocked sha256 b base (leave s id c raised) := by
  unfold leave
  split
  case h_2 => exact h
  next result hpoint =>
  have hbefore : ∀ out, result = .ok out → id < base.next := by
    rintro out rfl
    refine h.before hc ?_
    rintro (hl | hl | hl | ⟨_, hl⟩) <;> cases hpoint.symm.trans hl
  split
  · exact blocked_done h (fun _ => ⟨_, rfl⟩) rfl rfl rfl rfl
  · exact blocked_done h (fun _ => ⟨_, rfl⟩) rfl rfl rfl rfl
  · have := hbefore _ rfl
    exact blocked_done h (fun hle => absurd this (by omega)) rfl rfl rfl rfl
  · have := hbefore _ rfl
    refine h.move rfl (fun _ hf => hf) (fun _ he => .inl he) (fun _ he => .inl he) ?_
    rintro _ ⟨⟩
    exact ⟨fun hle => absurd this (by omega), fun _ _ _ => nofun⟩

theorem launch_blocked (h : Blocked sha256 b base s) (hc : s.calls id = some c) (moment : Moment) :
    Blocked sha256 b base (launch s id c moment) := by
  unfold launch
  split
  case h_2 => exact h
  next hpoint =>
  have hid : id < base.next := by
    refine h.before hc ?_
    rintro (hl | hl | hl | ⟨_, hl⟩) <;> cases hpoint.symm.trans hl
  split
  · exact blocked_early h (.inl rfl) rfl (fun _ hf => hf) rfl rfl
  · refine h.move rfl (fun _ hf => hf) (fun e he => ?_) (fun _ he => .inl he) ?_
    · rcases List.mem_append.mp he with he | he
      · exact .inl he
      · cases List.mem_singleton.mp he
        exact .inr hid
    · rintro _ ⟨⟩
      exact ⟨fun hle => absurd hid (by omega), fun _ _ _ => nofun⟩

theorem finish_blocked (h : Blocked sha256 b base s) (raised : Option Fault) : Blocked sha256 b base (finish s id c raised) := by
  unfold finish
  split
  · split
    · exact blocked_early h (.inl rfl) rfl (fun _ hf => hf) rfl rfl
    · exact blocked_early h (.inl rfl) rfl (fun _ hf => hf) rfl rfl
  · exact h

theorem call_blocked (h : Blocked sha256 b base s) (b' : Binding) (purpose : Purpose) :
    Blocked sha256 b base (call sha256 s b' purpose) := by
  unfold call
  dsimp only
  split
  · exact h
  · exact h
  · exact h
  · split
    · split
      · exact blocked_early h (.inl rfl) rfl (fun _ hf => hf) rfl rfl
      · exact blocked_done h (fun _ => ⟨_, rfl⟩) rfl rfl rfl rfl
    · exact h

theorem restart_blocked (h : Blocked sha256 b base s) (hi : Inv sha256 s) (raised : Option Fault) :
    Blocked sha256 b base (restart sha256 s raised) := by
  unfold restart
  split
  · exact h
  · split
    · next grouped hscan => exact absurd hscan (h.cut.scan hi grouped)
    · exact h

theorem crash_blocked (h : Blocked sha256 b base s) {keep : String → Option Nat} (hlost : (crash s keep).lost = s.lost) :
    Blocked sha256 b base (crash s keep) := by
  obtain ⟨v, file, hb, hmem, hprefix, hne⟩ := h.cut.file
  obtain ⟨file', hmem', hshort⟩ := survive_mem hmem (crash_kept hlost hmem)
  refine ⟨⟨⟨v, file', hb, hmem', hshort.trans hprefix, fun heq => hne ?_⟩, fun _ _ _ _ _ hd => ?_⟩,
    ⟨h.failing.launched, h.failing.answers⟩, fun _ _ _ hd => ?_⟩
  · rw [heq] at hshort
    exact hprefix.eq_of_length_le hshort.length_le
  · cases hd
  · cases hd

theorem step_blocked (h : Blocked sha256 b base s) (hi : Inv sha256 s) (e : Event) (hlost : (step sha256 s e).lost = s.lost) :
    Blocked sha256 b base (step sha256 s e) := by
  have hof : ∀ (id : Nat) (f : Call → State), (∀ c, s.calls id = some c → Blocked sha256 b base (f c)) →
      Blocked sha256 b base (s.of id f) := by
    intro id f hf
    unfold State.of
    split
    · exact h
    · next c hc => exact hf c hc
  cases e with
  | call b' purpose => exact call_blocked h b' purpose
  | enter id => exact hof id _ fun c _ => enter_blocked h
  | acquire id raised => exact hof id _ fun c _ => acquire_blocked h raised
  | inspect id moment raised => exact hof id _ fun c _ => inspect_blocked h hi moment raised
  | openFile id made raised => exact hof id _ fun c hc => openFile_blocked h hc made raised
  | writeFile id count raised => exact hof id _ fun c hc => writeFile_blocked h hc count raised
  | syncFile id raised => exact hof id _ fun c hc => syncFile_blocked h hc raised
  | syncDirectory id raised => exact hof id _ fun c hc => syncDirectory_blocked h hc raised
  | leave id raised => exact hof id _ fun c hc => leave_blocked h hc raised
  | launch id moment => exact hof id _ fun c hc => launch_blocked h hc moment
  | finish id raised => exact hof id _ fun c _ => finish_blocked h raised
  | restart raised => exact restart_blocked h hi raised
  | crash keep => exact crash_blocked h hlost

end Blocked

/-! ## The property -/

/-- What the journal promises in a state, whatever happens next. -/
structure OnceOnly (sha256 : Sha256) (s : State) : Prop where
  /-- One callback a request. -/
  once : (requests s.launched).Nodup
  /-- The callback waits for the durable intent. -/
  before : ∀ event, ∀ e ∈ (step sha256 s event).launched, Durable sha256 s.dir e.2
  created : s.created.Pairwise Apart
  /-- So are the intents a scan ever returned, unless a crash removed a file before it was synced. -/
  accepted : s.lost = [] → ∀ v ∈ s.accepted, ∀ w ∈ s.accepted, v ≠ w → Apart v w
  /-- A torn intent fails every later call, as long as no crash removes it. -/
  torn : ∀ b, Cut sha256 s b → ∀ more, Along (step sha256) (fun t e => (step sha256 t e).lost = t.lost) s more →
    Cut sha256 (exec (step sha256) s more) b ∧ Failing s (exec (step sha256) s more)

/-- Only a callback's own step records one. -/
theorem step_launched (s : State) (event : Event) (hother : ∀ id moment, event ≠ .launch id moment) :
    (step sha256 s event).launched = s.launched := by
  cases event with
  | launch id moment => exact absurd rfl (hother id moment)
  | _ =>
    simp only [step, State.of, call, enter, acquire, inspect, openFile, writeFile, syncFile, syncDirectory, leave, finish,
      restart, crash]
    repeat' split
    all_goals rfl

theorem launched_durable (h : Inv sha256 s) (event : Event) :
    ∀ e ∈ (step sha256 s event).launched, Durable sha256 s.dir e.2 := by
  intro e he
  by_cases hother : ∀ id moment, event ≠ .launch id moment
  · rw [step_launched s event hother] at he
    exact h.logs.launched e he
  · obtain ⟨id, moment, rfl⟩ : ∃ id moment, event = .launch id moment := by simpa using hother
    have hdir : (step sha256 s (.launch id moment)).dir = s.dir := by
      simp only [step, State.of, launch]
      repeat' split
      all_goals rfl
    exact hdir ▸ (step_inv h (.launch id moment)).logs.launched e he

theorem onceOnly (h : Inv sha256 s) : OnceOnly sha256 s := by
  refine ⟨h.logs.once, launched_durable h, h.logs.createdApart, h.logs.acceptedApart, fun b hcut more hmore => ?_⟩
  have hstart : Blocked sha256 b s s :=
    ⟨hcut, ⟨fun _ he => .inl he, fun _ he => .inl he⟩, fun id c hid hc => absurd hc (by simp [h.calls.new id hid])⟩
  have hboth := exec_inv_along (I := fun t => Inv sha256 t ∧ Blocked sha256 b s t)
    (fun t e ht hlost => ⟨step_inv ht.1 e, step_blocked ht.2 ht.1 e hlost⟩) ⟨h, hstart⟩ hmore
  exact ⟨hboth.2.cut, hboth.2.failing⟩

/-- **Starts are once-only, with disjoint allocations.** -/
theorem starts_once (sha256 : Sha256) (es : List Event) : OnceOnly sha256 (exec (step sha256) start es) :=
  onceOnly (run_inv es)

end LocalHand.Observer
