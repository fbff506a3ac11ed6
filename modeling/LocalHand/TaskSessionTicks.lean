/-
Each part of a tick keeps the laws of a task session, and what every run of ticks obeys.
-/
import LocalHand.TaskSessionOrder

namespace LocalHand.TaskSession

open PyJson QuotaContract Program
open QuotaBridge (jobPhases)

variable {F : Type} {env : Env F} {sent : List (Mark F)}

/-- What a part of an exchange leaves where it returns. -/
abbrev Kept (env : Env F) : Flags → Core F → Prop := fun _ c => Laws env c ∧ Live c

theorem safe_of_kept {s : Flags} {c : Core F} (h : Laws env c ∧ Live c) (hcontrol : s.controlStarted = true) : Safe env sent s c :=
  ⟨h.1, .inr ⟨h.2, fun hc => by rw [hcontrol] at hc; cases hc⟩⟩

theorem mem_take_of_getElem? {α : Type} {l : List α} {i n : Nat} {a : α} (h : l[i]? = some a) (hi : i < n) : a ∈ l.take n :=
  List.mem_of_getElem? (by rw [List.getElem?_take, if_pos hi]; exact h)

theorem idxOf_jobPhases {i : Nat} {p : String} (h : jobPhases[i]? = some p) : jobPhases.idxOf p = i := by
  match i with
  | 0 | 1 | 2 => cases h; decide
  | i + 3 => simp [jobPhases] at h

theorem idxOf_of_take {n : Nat} {p : String} (h : p ∈ jobPhases.take n) : jobPhases.idxOf p < n := by
  obtain ⟨i, hi⟩ := List.mem_iff_getElem?.mp h
  rw [List.getElem?_take] at hi
  split at hi
  · next hlt =>
    rw [idxOf_jobPhases hi]
    exact hlt
  · cases hi

/-! ## A phase is prepared -/

structure Opening (env : Env F) (sent : List (Mark F)) (p : String) (answers : Option Nat) (s : Flags) (c : Core F) : Prop where
  laws : Laws env c
  live : Live c
  idle : c.handler = none
  here : jobPhases[c.closures.length]? = some p
  answers : ∀ n, answers = some n → (∃ cmd stopped, .received n cmd stopped ∈ c.trace) ∧ ∀ packet, .sent (some n) packet ∉ c.trace
  quiet : s.controlStarted = false → packets c = sent

theorem Opening.safe {p : String} {answers : Option Nat} {s : Flags} {c : Core F} (h : Opening env sent p answers s c) : Safe env sent s c :=
  ⟨h.laws, .inr ⟨h.live, h.quiet⟩⟩

/-- A phase may be prepared once more, and never one before it. -/
theorem Opening.marked {p : String} {answers : Option Nat} {s : Flags} {c : Core F} (h : Opening env sent p answers s c)
    (hadvanced : ∀ i q, jobPhases[i]? = some q → jobPhases[i + 1]? = some p → Advanced env q p c.trace) :
    Opening env sent p answers s (c.mark (.prepares p)) := by
  have hlaws : Laws env (c.mark (.prepares p)) := by
    refine h.laws.mark (by simp) (by simp) (by simp) (fun i q q' hq hq' he => ?_) (fun q hq => ?_) fun k hk => ?_
    · cases he
      exact hadvanced i q hq hq'
    · cases hq
      exact List.mem_of_getElem? h.here
    · cases k with
      | prepares q =>
        have hlt := idxOf_of_take (h.live.prepared q hk)
        show jobPhases.idxOf q ≤ jobPhases.idxOf p
        rw [idxOf_jobPhases h.here]
        omega
      | sent answers packet => cases answers <;> trivial
      | _ => trivial
  have hlive : Live (c.mark (.prepares p)) := by
    refine h.live.mark rfl (by simp) fun q hq => ?_
    cases hq
    exact mem_take_of_getElem? h.here (Nat.lt_succ_self _)
  refine ⟨hlaws, hlive, h.idle, h.here, fun n hn => ?_, fun hs => ?_⟩
  · obtain ⟨⟨cmd, stopped, hr⟩, hnew⟩ := h.answers n hn
    exact ⟨⟨cmd, stopped, mem_mark.mpr (.inl hr)⟩, fun packet hk => hnew packet ((mem_mark.mp hk).resolve_right (by simp))⟩
  · rw [← h.quiet hs]
    simp [packets, Core.mark, Mark.isPacket]

/-- The phase's handler is there, before any start. -/
theorem Opening.handled {p : String} {answers : Option Nat} {s : Flags} {c : Core F} (h : Opening env sent p answers s c) :
    Live { c with phase := some p, handler := some ⟨p, false⟩, started := false } where
  names := h.live.names
  handler _ hh := by
    cases hh
    exact ⟨h.here, rfl⟩
  starts n q hk := by
    rcases h.live.starts n q hk with ht | ⟨-, handler, hh, -⟩
    · exact .inl ht
    · rw [h.idle] at hh
      cases hh
  prepared := h.live.prepared
  pending n cmd hp := by
    have hp' : c.pendingClose = some (n, cmd) := hp
    rw [h.live.noPending h.idle] at hp'
    cases hp'
  closes := h.live.closes

variable [DecidableEq F]

theorem prepare_spec {p : String} {answers : Option Nat} :
    Spec (Holds fun s c => Opening env sent p answers s c ∧
        ∀ i q, jobPhases[i]? = some q → jobPhases[i + 1]? = some p → Advanced env q p c.trace)
      (prepare env p answers) (fun _ => Holds (Kept env)) (Halts env sent) := by
  refine Spec.bind (flag_spec (Q := fun s c => Opening env sent p answers s c ∧
      ∀ i q, jobPhases[i]? = some q → jobPhases[i + 1]? = some p → Advanced env q p c.trace) fun s c h => ?_) fun _ => ?_
  · exact ⟨⟨h.1.laws, h.1.live, h.1.idle, h.1.here, h.1.answers, h.1.quiet⟩, h.2⟩
  · refine Spec.bind (record_spec fun s c h => h.1.safe) fun current => ?_
    by_cases hcancel : current.cancelRequested = true
    · rw [if_pos hcancel]
      exact Spec.ret fun w h => ⟨h.1.laws, h.1.live⟩
    · rw [if_neg hcancel]
      have hsafe (s : Flags) (c : Core F) (h : Opening env sent p answers s c) : Safe env sent s c := h.safe
      refine Spec.bind (effect_spec (fun s c h => h.1.safe) hsafe (mark_spec fun s c h => h.1.marked h.2)) fun _ => ?_
      refine Spec.bind (pass_spec hsafe) fun _ => Spec.bind (snapshot_spec hsafe p) fun shown => ?_
      refine Spec.bind (pass_spec fun s c h => h.1.safe) fun n => Spec.bind (demand_spec (fun s c h => h.1.safe) _) fun _ => ?_
      refine Spec.bind core_spec fun c => Spec.bind (demand_spec (fun s c h => h.1.1.1.safe) _) fun _ => ?_
      refine Spec.bind (pass_spec fun s c h => h.1.1.1.1.safe) fun m => ?_
      refine Spec.bind (change_spec (Q := fun _ c => Laws env c ∧ Live c ∧ c.pendingClose = none ∧
        ∀ n, answers = some n → (∃ cmd stopped, .received n cmd stopped ∈ c.trace) ∧ ∀ packet, .sent (some n) packet ∉ c.trace) fun s c h => ?_) fun _ => ?_
      · have hopening := h.1.1.1.1
        exact ⟨hopening.laws.congr rfl rfl rfl rfl, hopening.handled, hopening.live.noPending hopening.idle, hopening.answers⟩
      · refine Spec.bind (flag_spec (Q := fun s c => s.controlStarted = true ∧ Laws env c ∧ Live c ∧ c.pendingClose = none ∧
          ∀ n, answers = some n → (∃ cmd stopped, .received n cmd stopped ∈ c.trace) ∧ ∀ packet, .sent (some n) packet ∉ c.trace)
          fun s c h => ⟨rfl, h⟩) fun _ => ?_
        refine send_spec (fun s c h => safe_of_kept ⟨h.2.1, h.2.2.1⟩ h.1) (fun s c h _ => ?_) fun s c h _ => ?_
        · exact ⟨h.2.1.sent h.2.2.2.2, h.2.2.1.sent h.2.2.2.1 _ _⟩
        · exact (safe_of_kept ⟨h.2.1.sent h.2.2.2.2, h.2.2.1.sent h.2.2.2.1 _ _⟩ h.1).poison

/-! ## A command that was received -/

/-- The command is the last thing received, while no close is pending. -/
structure Got (env : Env F) (stopped : Bool) (n : Nat) (command : Value F) (before c : Core F) : Prop where
  laws : Laws env before
  live : Live before
  pending : before.pendingClose = none
  eq : c = before.receive command stopped
  number : n = before.received

namespace Got

variable {stopped : Bool} {n : Nat} {command : Value F} {before c : Core F}

omit [DecidableEq F] in
theorem after_laws (h : Got env stopped n command before c) : Laws env c := h.eq ▸ h.laws.receive command stopped

omit [DecidableEq F] in
theorem after_live (h : Got env stopped n command before c) (hclose : owed command stopped = false) : Live c :=
  h.eq ▸ h.live.receive hclose

omit [DecidableEq F] in
theorem after_pending (h : Got env stopped n command before c) : c.pendingClose = none := by
  rw [h.eq]
  exact h.pending

omit [DecidableEq F] in
theorem received (h : Got env stopped n command before c) : .received n command stopped ∈ c.trace := by
  rw [h.eq, h.number]
  exact mem_receive.mpr (.inr rfl)

omit [DecidableEq F] in
theorem unanswered (h : Got env stopped n command before c) (packet : Packet F) : .sent (some n) packet ∉ c.trace := by
  rw [h.eq, h.number]
  intro hk
  exact h.laws.unanswered (Nat.le_refl _) packet ((mem_receive.mp hk).resolve_right (by simp))

omit [DecidableEq F] in
theorem answers (h : Got env stopped n command before c) : ∀ m, some n = some m →
    (∃ cmd stopped, .received m cmd stopped ∈ c.trace) ∧ ∀ packet, .sent (some m) packet ∉ c.trace := by
  intro m hm
  cases hm
  exact ⟨⟨command, stopped, h.received⟩, h.unanswered⟩

omit [DecidableEq F] in
theorem safe (h : Got env stopped n command before c) {s : Flags} (hcontrol : s.controlStarted = true) : Safe env sent s c :=
  ⟨h.after_laws, .inl ⟨hcontrol, .inr h.after_pending⟩⟩

omit [DecidableEq F] in
/-- A command that is answered at once, whatever it is. -/
theorem answered (h : Got env stopped n command before c) (packet : Packet F) : Live (c.mark (.sent (some n) packet)) := by
  obtain ⟨-, hlive, hnone, rfl, rfl⟩ := h
  have hold {k : Mark F} (hr : ∀ m cmd s, k ≠ .received m cmd s) (hs : ∀ answers packet, k ≠ .sent answers packet)
      (hk : k ∈ ((before.receive command stopped).mark (.sent (some before.received) packet)).trace) : k ∈ before.trace :=
    (mem_receive.mp ((mem_mark.mp hk).resolve_right (hs _ _))).resolve_right (hr _ _ _)
  refine ⟨hlive.names, hlive.handler, fun m p hk => hlive.starts m p (hold (by simp) (by simp) hk),
    fun p hk => hlive.prepared p (hold (by simp) (by simp) hk), fun m cmd hp => ?_, fun m cmd s hk hclose => ?_⟩
  · have hp' : before.pendingClose = some (m, cmd) := hp
    rw [hnone] at hp'
    cases hp'
  · rcases mem_receive.mp ((mem_mark.mp hk).resolve_right (by simp)) with hk | hk
    · rcases hlive.closes m cmd s hk hclose with ⟨packet', hp⟩ | ⟨cmd', hp⟩
      · exact .inl ⟨packet', mem_mark.mpr (.inl (mem_receive.mpr (.inl hp)))⟩
      · rw [hnone] at hp
        cases hp
    · cases hk
      exact .inl ⟨packet, mem_mark.mpr (.inr rfl)⟩

end Got

omit [DecidableEq F] in
theorem owed_advance (p q digest : String) (stopped : Bool) : owed (advanceCommand p q digest : Value F) stopped = false := by
  simp [owed, isClose, isAction, actionOf, advanceCommand, Value.get?, lookup]

omit [DecidableEq F] in
theorem owed_finish (stopped : Bool) : owed (finishCommand : Value F) stopped = false := by
  simp [owed, isClose, isAction, actionOf, finishCommand, Value.get?, lookup]

/-- What an advance that was accepted leaves. -/
structure AdvancedTo (env : Env F) (n : Nat) (handler : Option Handler) (following : String) (s : Flags) (c : Core F) : Prop where
  control : s.controlStarted = true
  laws : Laws env c
  live : Live c
  idle : c.handler = handler
  pending : c.pendingClose = none
  here : jobPhases[c.closures.length]? = some following
  answers : ∀ m, some n = some m → (∃ cmd stopped, .received m cmd stopped ∈ c.trace) ∧ ∀ packet, .sent (some m) packet ∉ c.trace
  advanced : ∀ i q, jobPhases[i]? = some q → jobPhases[i + 1]? = some following → Advanced env q following c.trace

omit [DecidableEq F] in
theorem lookup_mem {closures : List (String × Value F)} {p : String} {v : Value F} (h : closures.lookup p = some v) : (p, v) ∈ closures := by
  induction closures with
  | nil => cases h
  | cons entry rest ih =>
    rw [List.lookup_cons] at h
    split at h
    · next he =>
      rw [beq_iff_eq.mp he, ← Option.some.inj h]
      exact List.mem_cons_self
    · exact List.mem_cons_of_mem _ (ih h)

theorem advance_spec {stopped : Bool} {n : Nat} {command : Value F} {before : Core F} (hidle : before.handler = none) :
    Spec (Holds fun s c => s.controlStarted = true ∧ Got env stopped n command before c) (advance env command)
      (fun following => Holds (AdvancedTo env n none following)) (Halts env sent) := by
  have hsafe (s : Flags) (c : Core F) (h : s.controlStarted = true ∧ Got env stopped n command before c) : Safe env sent s c := h.2.safe h.1
  refine Spec.bind (flag_spec (Q := fun s c => s.controlStarted = true ∧ Got env stopped n command before c) fun s c h => h) fun _ => ?_
  refine Spec.bind core_spec fun c => ?_
  have hsafe' (s : Flags) (c' : Core F) (h : (s.controlStarted = true ∧ Got env stopped n command before c') ∧ c' = c) : Safe env sent s c' :=
    hsafe s c' h.1
  split
  · next previous following hprevious hfollowing =>
    refine Spec.bind (demand_spec hsafe' _) fun _ => ?_
    split
    · exact Spec.raise fun w h => hsafe' _ _ h.1
    · next closed hclosed =>
      refine Spec.bind (demand_spec (fun s c h => hsafe' s c h.1) _) fun _ => ?_
      have hsafe'' (s : Flags) (c' : Core F) (h : (((s.controlStarted = true ∧ Got env stopped n command before c') ∧ c' = c) ∧
          decide (0 < c.closures.length) = true) ∧ decide (command = advanceCommand previous following (env.digest closed)) = true) :
          Safe env sent s c' := hsafe' s c' h.1.1
      refine Spec.bind (Q := fun _ => Holds fun s c' => ∃ poisoned phaseIndex, (s.controlStarted = true ∧ Got env stopped n command before c) ∧
        0 < c.closures.length ∧ command = advanceCommand previous following (env.digest closed) ∧
        c' = { c with poisoned := poisoned, phaseIndex := phaseIndex }) ?_ fun _ => ?_
      · refine Spec.bind core_spec fun _ => Spec.bind (demand_spec (fun s c h => hsafe'' s c h.1) _) fun _ =>
          Spec.bind question_spec fun m => Spec.bind (poisoning_spec (fun s c h => hsafe'' s c h.1.1) _) fun _ =>
          Spec.bind core_spec fun d => Spec.bind (poisoning_spec (fun s c h => hsafe'' s c h.1.1.1) _) fun _ => ?_
        refine change_spec fun s c' h => ?_
        obtain ⟨⟨⟨⟨⟨⟨hgot, rfl⟩, hpositive⟩, hcommand⟩, -⟩, -⟩, -⟩ := h
        exact ⟨c'.poisoned, c'.phaseIndex + 1, hgot, by simpa using hpositive, by simpa using hcommand, rfl⟩
      · refine Spec.bind (change_spec (Q := AdvancedTo env n none following) fun s c' h => ?_) fun _ => Spec.ret fun _ h => h
        obtain ⟨poisoned, phaseIndex, ⟨hcontrol, hgot⟩, hpositive, hcommand, rfl⟩ := h
        have hclose : owed command stopped = false := by rw [hcommand]; exact owed_advance _ _ _ _
        have hhandler : c.handler = none := by rw [hgot.eq]; exact hidle
        refine ⟨hcontrol, hgot.after_laws.congr rfl rfl rfl rfl, ?_, hhandler, hgot.after_pending, hfollowing, hgot.answers, fun i q hq hq' => ?_⟩
        · by_cases hp : c.poisoned = true
          · have hlive := hgot.after_live hclose
            refine ⟨hlive.names, fun handler hh => ?_, hlive.starts, hlive.prepared, fun m cmd hm => ?_, hlive.closes⟩
            · rw [hhandler] at hh
              cases hh
            · rw [hgot.after_pending] at hm
              cases hm
          · exact (hgot.after_live hclose).congr rfl rfl rfl (.inr hhandler) rfl rfl fun h => absurd h hp
        · have hi : i + 1 = c.closures.length := by
            rw [← idxOf_jobPhases hq', idxOf_jobPhases hfollowing]
          have hpq : q = previous := by
            have hi' : c.closures.length - 1 = i := by omega
            rw [hi', hq] at hprevious
            exact Option.some.inj hprevious
          subst hpq
          have hmem := lookup_mem hclosed
          rw [hgot.eq] at hmem
          obtain ⟨m, packet, hpacket, hsub⟩ := hgot.laws.closures q closed hmem
          refine ⟨closed, m, packet, before.received, stopped, hpacket, ?_⟩
          rw [hgot.eq, hcommand]
          exact hsub.append (List.Sublist.refl [Mark.received before.received (advanceCommand q following (env.digest closed)) stopped])
  · exact Spec.raise fun w h => hsafe' _ _ h

/-! ## Between phases, and of a stopped task -/

/-- Before the first packet of a tick. -/
structure Quiet (env : Env F) (sent : List (Mark F)) (s : Flags) (c : Core F) : Prop where
  laws : Laws env c
  live : Live c
  control : s.controlStarted = false
  packets : packets c = sent

omit [DecidableEq F] in
theorem Quiet.safe {s : Flags} {c : Core F} (h : Quiet env sent s c) : Safe env sent s c := ⟨h.laws, .inr ⟨h.live, fun _ => h.packets⟩⟩

theorem exchangeBetween_spec :
    Spec (Holds fun s c => Quiet env sent s c ∧ c.handler = none) (exchangeBetween env) (fun _ => Holds (Kept env)) (Halts env sent) := by
  refine Spec.bind core_spec fun c => ?_
  by_cases hempty : c.closures.isEmpty = true
  · rw [if_pos hempty]
    refine prepare_spec.pre fun w h => ?_
    obtain ⟨⟨hquiet, hidle⟩, rfl⟩ := h
    have hlen : w.core.closures.length = 0 := by simpa using hempty
    refine ⟨⟨hquiet.laws, hquiet.live, hidle, by rw [hlen]; rfl, by simp, fun _ => hquiet.packets⟩, fun i q _ hq => ?_⟩
    have hi := idxOf_jobPhases hq
    have hzero : jobPhases.idxOf "preflight" = 0 := by decide
    omega
  · rw [if_neg hempty]
    refine Spec.bind (ready_spec fun s c h => h.1.1.safe) fun waiting => ?_
    by_cases hwaiting : waiting = true
    · rw [if_pos hwaiting]
      let P (s : Flags) (c' : Core F) : Prop := s.controlStarted = true ∧ Laws env c' ∧ Live c' ∧ c'.handler = none ∧ c' = c
      refine Spec.bind (flag_spec (Q := P) fun s c h => ⟨rfl, h.1.1.laws, h.1.1.live, h.1.2, h.2⟩) fun _ => ?_
      refine Spec.bind (receiveCommand_spec (Q := fun s _ => s.controlStarted = true) (fun s c h => safe_of_kept ⟨h.2.1, h.2.2.1⟩ h.1) (fun _ _ _ h => h)
        fun _ _ _ h => h.1) fun got => ?_
      obtain ⟨number, command⟩ := got
      have hgot {w : World F} (h : w.flags.controlStarted = true ∧ ∃ s' c', P s' c' ∧ w.flags = { s' with action := knownAction command } ∧
          w.core = c'.receive command false ∧ number = c'.received) : w.flags.controlStarted = true ∧ Got env false number command c w.core := by
        obtain ⟨hcontrol, s', c', ⟨-, hlaws, hlive, hidle, rfl⟩, -, hc, hn⟩ := h
        exact ⟨hcontrol, hlaws, hlive, hlive.noPending hidle, hc, hn⟩
      by_cases hidle : c.handler = none
      · refine Spec.bind ((core_spec (P := fun s c' => s.controlStarted = true ∧ Got env false number command c c')).pre fun w h => hgot h) fun d => ?_
        by_cases hall : d.closures.length = jobPhases.length
        · rw [if_pos hall]
          refine Spec.bind (demand_spec (fun s c h => h.1.2.safe h.1.1) _) fun _ => flag_spec fun s c h => ?_
          have hcommand : command = finishCommand := by simpa using h.2
          exact ⟨h.1.1.2.after_laws, h.1.1.2.after_live (by rw [hcommand]; exact owed_finish _)⟩
        · rw [if_neg hall]
          refine Spec.bind ((advance_spec hidle).pre fun w h => h.1) fun following => prepare_spec.pre fun w h => ?_
          refine ⟨⟨h.laws, h.live, h.idle, h.here, h.answers, fun hs => ?_⟩, h.advanced⟩
          rw [h.control] at hs
          cases hs
      · intro w h
        obtain ⟨-, s', c', ⟨-, -, -, hnone, rfl⟩, -⟩ := h
        exact absurd hnone hidle
    · rw [if_neg hwaiting]
      exact Spec.ret fun w h => ⟨h.1.1.laws, h.1.1.live⟩

omit [DecidableEq F] in
theorem terminal_spec {answers : Option Nat} {task : Status F} {P : Flags → Core F → Prop} (hP : ∀ s c, P s c → s.controlStarted = true ∧ Laws env c ∧
    Live c ∧ c.pendingClose = none ∧ ∀ n, answers = some n → (∃ cmd stopped, .received n cmd stopped ∈ c.trace) ∧ ∀ packet, .sent (some n) packet ∉ c.trace) :
    Spec (Holds P) (terminal env answers task) (fun _ => Holds fun s c => s.controlStarted = true ∧ Laws env c ∧ Live c ∧ c.pendingClose = none)
      (Halts env sent) := by
  have hmarked {s : Flags} {c : Core F} (h : P s c) : s.controlStarted = true ∧ Laws env (c.mark (.sent answers (.terminal task))) ∧
      Live (c.mark (.sent answers (.terminal task))) ∧ c.pendingClose = none := by
    obtain ⟨hcontrol, hlaws, hlive, hnone, hanswers⟩ := hP s c h
    exact ⟨hcontrol, hlaws.sent hanswers, hlive.sent hnone _ _, hnone⟩
  refine Spec.bind (send_spec (Q := fun s c => s.controlStarted = true ∧ Laws env c ∧ Live c ∧ c.pendingClose = none) (fun s c h => ?_) (fun s c h _ => ?_)
    fun s c h _ => ?_) fun _ => flag_spec fun s c h => h
  · obtain ⟨hcontrol, hlaws, hlive, -, -⟩ := hP s c h
    exact safe_of_kept ⟨hlaws, hlive⟩ hcontrol
  · exact hmarked h
  · exact (safe_of_kept ⟨(hmarked h).2.1, (hmarked h).2.2.1⟩ (hmarked h).1).poison

theorem answerStopped_spec {task : Status F} {awaiting : Bool} {b : Core F} (hawaiting : awaiting = true → b.handler = none) :
    Spec (Holds fun _ c => c = b ∧ Laws env c ∧ Live c ∧ c.pendingClose = none) (answerStopped env task awaiting) (fun _ => Holds (Kept env))
      (Halts env sent) := by
  let P (s : Flags) (c : Core F) : Prop := s.controlStarted = true ∧ c = b ∧ Laws env c ∧ Live c ∧ c.pendingClose = none
  refine Spec.bind (flag_spec (Q := P) fun s c h => ⟨rfl, h⟩) fun _ => ?_
  refine Spec.bind (receiveCommand_spec (Q := fun s _ => s.controlStarted = true) (fun s c h => safe_of_kept ⟨h.2.2.1, h.2.2.2.1⟩ h.1) (fun _ _ _ h => h)
    fun _ _ _ h => h.1) fun got => ?_
  obtain ⟨number, command⟩ := got
  refine Spec.pre (P := Holds fun s c => s.controlStarted = true ∧ Got env true number command b c) ?_ fun w h => ?_
  · have hsafe (s : Flags) (c : Core F) (h : s.controlStarted = true ∧ Got env true number command b c) : Safe env sent s c := h.2.safe h.1
    dsimp only
    by_cases hfinish : command = finishCommand
    · rw [if_pos hfinish]
      exact flag_spec fun s c h => ⟨h.2.after_laws, h.2.after_live (by rw [hfinish]; exact owed_finish _)⟩
    · rw [if_neg hfinish]
      by_cases hawait : awaiting = true
      · rw [if_pos hawait]
        refine Spec.bind (advance_spec (hawaiting hawait)) fun following => ?_
        exact (terminal_spec fun s c h => ⟨h.control, h.laws, h.live, h.pending, h.answers⟩).weaken (fun _ h => h)
          (fun _ _ h => ⟨h.2.1, h.2.2.1⟩) fun _ _ h => h
      · rw [if_neg hawait]
        refine Spec.bind (demand_spec hsafe _) fun _ => Spec.bind (demand_spec (fun s c h => hsafe s c h.1) _) fun _ => Spec.bind core_spec fun c => ?_
        cases c.handler with
        | none => exact Spec.raise fun w h => hsafe _ _ h.1.1.1
        | some handler =>
          refine Spec.bind (snapshot_spec (fun s c h => hsafe s c h.1.1.1) _) fun shown => ?_
          refine send_spec (fun s c h => hsafe s c h.1.1.1.1) (fun s c h _ => ?_) fun s c h _ => ?_
          · exact ⟨h.1.1.1.1.2.after_laws.sent h.1.1.1.1.2.answers, h.1.1.1.1.2.answered _⟩
          · exact (safe_of_kept ⟨h.1.1.1.1.2.after_laws.sent h.1.1.1.1.2.answers, h.1.1.1.1.2.answered _⟩ h.1.1.1.1.1).poison
  · obtain ⟨hcontrol, s', c', ⟨-, rfl, hlaws, hlive, hnone⟩, -, hc, hn⟩ := h
    exact ⟨hcontrol, hlaws, hlive, hnone, hc, hn⟩

/-! ## Within a phase -/

/-- A command of a phase b it is answered; `done` once it has been handled. -/
structure Facing (env : Env F) (h : Handler) (n : Nat) (command : Value F) (done : Bool) (s : Flags) (c : Core F) : Prop where
  laws : Laws env c
  control : s.controlStarted = true
  handler : c.handler = some h
  here : jobPhases[c.closures.length]? = some h.phase
  phase : c.phase = some h.phase
  names : c.closures.map Prod.fst = jobPhases.take c.closures.length
  prepared : ∀ p, .prepares p ∈ c.trace → p ∈ jobPhases.take (c.closures.length + 1)
  starts : ∀ m p, .applied m "start" p ∈ c.trace → p ∈ jobPhases.take c.closures.length ∨
    (p = h.phase ∧ (c.started = true ∨ (done = true ∧ isAction command "start" = true)))
  received : .received n command false ∈ c.trace
  unanswered : c.poisoned = true ∨ ∀ packet, .sent (some n) packet ∉ c.trace
  closing : isClose command = true → Live c ∧ ∃ cmd, c.pendingClose = some (n, cmd)
  plain : isClose command = false → c.pendingClose = none ∧
    ∀ m cmd s, .received m cmd s ∈ c.trace → owed cmd s = true → ∃ packet, .sent (some m) packet ∈ c.trace

section Facing

variable {h : Handler} {n : Nat} {command : Value F} {done : Bool} {s : Flags} {c : Core F}

omit [DecidableEq F] in
theorem Facing.safe (hf : Facing env h n command done s c) : Safe env sent s c := by
  cases hclose : isClose command with
  | true => exact safe_of_kept ⟨hf.laws, (hf.closing hclose).1⟩ hf.control
  | false => exact ⟨hf.laws, .inl ⟨hf.control, .inr (hf.plain hclose).1⟩⟩

omit [DecidableEq F] in
theorem Facing.handled (hf : Facing env h n command false s c) : Facing env h n command true s c :=
  { hf with starts := fun m p hk => (hf.starts m p hk).imp id fun hp => ⟨hp.1, hp.2.imp id fun hd => by cases hd.1⟩ }

omit [DecidableEq F] in
/-- The mark of a command that is applied. -/
theorem Facing.mark (hf : Facing env h n command false s c) {k : Mark F} (hpacket : k.isPacket = false) (hprepares : ∀ p, k ≠ .prepares p)
    (hlaws : Laws env (c.mark k)) (hstart : ∀ m p, k = .applied m "start" p → p = h.phase ∧ isAction command "start" = true)
    (hclose : isClose command = true → ∀ m p, k ≠ .applied m "start" p) : Facing env h n command true s (c.mark k) := by
  have hold {k' : Mark F} (hp : k'.isPacket = true) (hk : k' ∈ (c.mark k).trace) : k' ∈ c.trace :=
    (mem_mark.mp hk).resolve_right fun he => by rw [← he, hp] at hpacket; cases hpacket
  refine { laws := hlaws, control := hf.control, handler := hf.handler, here := hf.here, phase := hf.phase, names := hf.names,
           prepared := fun p hk => hf.prepared p ((mem_mark.mp hk).resolve_right (hprepares p).symm),
           starts := fun m p hk => ?_, received := mem_mark.mpr (.inl hf.received), unanswered := ?_, closing := fun hc => ?_, plain := fun hc => ?_ }
  · rcases mem_mark.mp hk with hk | hk
    · exact hf.handled.starts m p hk
    · obtain ⟨hp, ha⟩ := hstart m p hk.symm
      exact .inr ⟨hp, .inr ⟨rfl, ha⟩⟩
  · exact hf.unanswered.imp id fun hs packet hk => hs packet (hold rfl hk)
  · obtain ⟨hlive, hpending⟩ := hf.closing hc
    exact ⟨hlive.mark hpacket (hclose hc) fun p hp => absurd hp (hprepares p), hpending⟩
  · obtain ⟨hnone, hcloses⟩ := hf.plain hc
    refine ⟨hnone, fun m cmd s hk hcmd => ?_⟩
    obtain ⟨packet, hp⟩ := hcloses m cmd s (hold rfl hk) hcmd
    exact ⟨packet, mem_mark.mpr (.inl hp)⟩

omit [DecidableEq F] in
/-- A start is applied once a phase. -/
theorem Facing.applied (hf : Facing env h n command false s c) {a : String} (ha : isAction command a = true)
    (hstarted : isAction command "start" = true → c.started = false) (hclose : isClose command = true → a ≠ "start") :
    Facing env h n command true s (c.mark (.applied n a h.phase)) := by
  refine hf.mark rfl (by simp) ?_ (fun m p he => ?_) fun hc m p he => ?_
  · refine hf.laws.mark (by simp) (by simp) (fun m a' p he => ?_) (by simp) (by simp) fun k hk => ?_
    · cases he
      exact ⟨command, hf.received, ha⟩
    · cases k with
      | applied m a' q =>
        intro ha' haStart
        subst ha' haStart
        rcases hf.starts m q hk with ht | ⟨-, hs | ⟨hd, -⟩⟩
        · intro hq
          have hlt := idxOf_of_take ht
          rw [hq, idxOf_jobPhases hf.here] at hlt
          exact absurd hlt (Nat.lt_irrefl _)
        · rw [hstarted ha] at hs
          cases hs
        · cases hd
      | sent answers packet => cases answers <;> trivial
      | _ => trivial
  · cases he
    exact ⟨rfl, ha⟩
  · cases he
    exact hclose hc rfl

omit [DecidableEq F] in
/-- The phase is closed in the ledger. -/
theorem Facing.closed (hf : Facing env h n command true s c) (v : Value F) :
    Facing env h n command true s { c with ledger := Function.update c.ledger h.phase (some v), trace := c.trace ++ [.closedIn h.phase v] } := by
  have hmem {k : Mark F} : k ∈ c.trace ++ [.closedIn h.phase v] ↔ k ∈ c.trace ∨ k = .closedIn h.phase v := by simp
  have hmarked : Laws env (c.mark (.closedIn h.phase v)) := hf.laws.mark (by simp) (by simp) (by simp) (by simp) (by simp) fun k _ => by
    cases k with
    | sent answers packet => cases answers <;> trivial
    | _ => trivial
  have hlaws : Laws env { c with ledger := Function.update c.ledger h.phase (some v), trace := c.trace ++ [.closedIn h.phase v] } := by
    refine ⟨hmarked.numbered, hmarked.receivedOnce, hmarked.answers, hmarked.applied, fun p u hp => ?_, hmarked.closures, hmarked.advanced, hmarked.ordered, hmarked.known⟩
    by_cases hph : p = h.phase
    · subst hph
      simp only [Function.update_self, Option.some.injEq] at hp
      exact hmem.mpr (.inr (hp ▸ rfl))
    · simp only [Function.update_of_ne hph] at hp
      exact hmem.mpr (.inl (hf.laws.ledger p u hp))
  refine { hf with laws := hlaws, prepared := fun p hk => hf.prepared p ((hmem.mp hk).resolve_right (by simp)),
                   starts := fun m p hk => hf.starts m p ((hmem.mp hk).resolve_right (by simp)), received := hmem.mpr (.inl hf.received),
                   unanswered := hf.unanswered.imp id fun hs packet hk => hs packet ((hmem.mp hk).resolve_right (by simp)),
                   closing := fun hc => ?_, plain := fun hc => ?_ }
  · obtain ⟨hlive, hpending⟩ := hf.closing hc
    exact ⟨(hlive.mark (k := .closedIn h.phase v) rfl (by simp) (by simp)).congr rfl rfl rfl (.inl rfl) rfl rfl id, hpending⟩
  · obtain ⟨hnone, hcloses⟩ := hf.plain hc
    refine ⟨hnone, fun m cmd s hk hcmd => ?_⟩
    obtain ⟨packet, hp⟩ := hcloses m cmd s ((hmem.mp hk).resolve_right (by simp)) hcmd
    exact ⟨packet, hmem.mpr (.inl hp)⟩

theorem closeObservation_spec (fence : Value F) :
    Spec (Holds (Facing env h n command true)) (closeObservation env h.phase fence) (fun _ => Holds (Facing env h n command true))
      (fun _ => Holds (Facing env h n command true)) := by
  refine effect_spec (fun _ _ hf => hf) (fun _ _ hf => hf) ?_
  refine Spec.bind core_spec fun c => ?_
  split
  · exact (demand_spec (fun _ _ hf => hf.1) _).weaken (fun _ h => h) (fun _ _ h => h.1.1) fun _ _ h => h
  · refine Spec.bind (change_spec (Q := fun s c' => ∃ c, Facing env h n command true s c ∧
      c' = { c with ledger := Function.update c.ledger h.phase (some (closure h.phase fence)) }) fun s c hf => ⟨c, hf.1, rfl⟩) fun _ => ?_
    refine mark_spec fun s c' hc => ?_
    obtain ⟨c, hf, rfl⟩ := hc
    exact hf.closed _

/-- A snapshot of the phase tells of closures that are in the ledger. -/
def Shown (env : Env F) (h : Handler) (n : Nat) (command : Value F) (shown : Snapshot F) (s : Flags) (c : Core F) : Prop :=
  Facing env h n command true s c ∧ ∀ v, shown.closed = some v → .closedIn h.phase v ∈ c.trace

omit [DecidableEq F] in
theorem shown_spec : Spec (Holds (Facing env h n command true)) (snapshot env h.phase) (fun shown => Holds (Shown env h n command shown))
    (fun _ => Holds (Facing env h n command true)) :=
  (snapshot_spec (fun _ _ hf => hf) h.phase).weaken (fun _ h => h)
    (fun _ _ hf => ⟨hf.1, fun v hv => hf.1.laws.ledger _ v (hf.2.symm.trans hv)⟩) fun _ _ h => h

omit [DecidableEq F] in
theorem isAction_ne {a a' : String} (h : isAction command a = true) (hne : a ≠ a') : isAction command a' = false := by
  unfold isAction at h ⊢
  split at h
  · next t _ =>
    have ht : t = a := by simpa using h
    simp [ht, hne]
  · cases h

theorem apply_spec : Spec (Holds fun s c => Facing env h n command false s c ∧ (isAction command "start" = true → c.started = false))
    (apply env h.phase n command) (fun shown => Holds (Shown env h n command shown)) (fun _ => Holds (Facing env h n command true)) := by
  let P (s : Flags) (c : Core F) : Prop := Facing env h n command false s c ∧ (isAction command "start" = true → c.started = false)
  have hhandled (s : Flags) (c : Core F) (hp : P s c) : Facing env h n command true s c := hp.1.handled
  have hdemand (ok : Bool) : Spec (Holds P) (demand ok : Op F Unit) (fun _ => Holds P) (fun _ => Holds (Facing env h n command true)) :=
    (demand_spec hhandled ok).weaken (fun _ h => h) (fun _ _ h => h.1) fun _ _ h => h
  have hshown : Spec (Holds P) (snapshot env h.phase) (fun shown => Holds (Shown env h n command shown)) (fun _ => Holds (Facing env h n command true)) :=
    shown_spec.pre fun w hp => hp.1.handled
  have happlied {a : String} (ha : isAction command a = true) (hclose : isClose command = true → a ≠ "start") :
      Spec (Holds P) (mark (.applied n a h.phase)) (fun _ => Holds (Facing env h n command true)) (fun _ => Holds (Facing env h n command true)) :=
    mark_spec fun s c hp => hp.1.applied ha hp.2 hclose
  refine Spec.bind (hdemand _) fun _ => Spec.bind (pass_spec hhandled) fun _ => ?_
  by_cases hsnapshot : isAction command "snapshot" = true
  · rw [if_pos hsnapshot]
    exact Spec.bind (hdemand _) fun _ => hshown
  · rw [if_neg hsnapshot]
    by_cases hbind : isAction command "bind" = true
    · rw [if_pos hbind]
      exact Spec.bind (pass_spec hhandled) fun _ => Spec.bind (effect_spec hhandled (fun _ _ h => h) (happlied hbind fun _ => by decide)) fun _ => shown_spec
    · rw [if_neg hbind]
      by_cases hstart : isAction command "start" = true
      · rw [if_pos hstart]
        have hnot : isClose command = true → "start" ≠ "start" := fun hc => by
          rw [isClose, isAction_ne hstart (by decide)] at hc
          cases hc
        exact Spec.bind (hdemand _) fun _ => Spec.bind (pass_spec hhandled) fun _ =>
          Spec.bind (effect_spec hhandled (fun _ _ h => h) (happlied hstart hnot)) fun _ => shown_spec
      · rw [if_neg hstart]
        by_cases hclose : isAction command "close" = true
        · rw [if_pos hclose]
          exact Spec.bind (happlied hclose fun _ => by decide) fun _ => Spec.bind (closeObservation_spec _) fun _ => shown_spec
        · rw [if_neg hclose]
          exact Spec.raise fun w hp => hhandled _ _ hp

omit [DecidableEq F] in
/-- A handler that has failed. -/
theorem Facing.failed (hf : Facing env h n command true s c) : Safe env sent s { c with handler := some { h with failed := true } } := by
  cases hclose : isClose command with
  | true =>
    have hlive := (hf.closing hclose).1
    refine safe_of_kept ⟨hf.laws.congr rfl rfl rfl rfl, hlive.names, fun handler hh => ?_, fun m p hk => ?_, hlive.prepared, fun m cmd hp => ?_, hlive.closes⟩ hf.control
    · cases hh
      exact ⟨hf.here, hf.phase⟩
    · rcases hlive.starts m p hk with ht | ⟨hs, handler, hh, hp⟩
      · exact .inl ht
      · rw [hf.handler] at hh
        cases hh
        exact .inr ⟨hs, _, rfl, hp⟩
    · obtain ⟨-, hr, hc, hs⟩ := hlive.pending m cmd hp
      exact ⟨rfl, hr, hc, hs⟩
  | false => exact ⟨hf.laws.congr rfl rfl rfl rfl, .inl ⟨hf.control, .inr (hf.plain hclose).1⟩⟩

theorem handle_spec : Spec (Holds fun s c => Facing env h n command false s c ∧ (isAction command "start" = true → c.started = false))
    (handle env h n command) (fun shown => Holds (Shown env h n command shown)) (Halts env sent) := by
  refine Spec.bind ((demand_spec (fun s c hp => hp.1.safe) _).weaken (fun _ h => h) (fun _ _ h => h.1) fun _ _ h => h) fun _ => ?_
  refine Spec.handle apply_spec fun stop => ?_
  by_cases hretry : stop = .busy ∧ isAction command "close" = true
  · rw [if_pos hretry]
    exact Spec.raise fun w hf => hf.safe
  · rw [if_neg hretry]
    exact Spec.bind (change_spec (Q := Safe env sent) fun s c hf => hf.failed) fun _ => Spec.raise fun _ h => h

omit [DecidableEq F] in
/-- The reply to a command. -/
theorem Shown.sent_laws {shown : Snapshot F} (hf : Shown env h n command shown s c) (hpoisoned : c.poisoned = false) (task : Status F) :
    Laws env (c.mark (.sent (some n) (.reply shown task))) := by
  refine hf.1.laws.sent fun m hm => ?_
  cases hm
  refine ⟨⟨command, false, hf.1.received⟩, hf.1.unanswered.resolve_left ?_⟩
  rw [hpoisoned]
  simp

omit [DecidableEq F] in
/-- A reply whose delivery is not known: the channel is of no more use. -/
theorem Shown.late {shown : Snapshot F} (hf : Shown env h n command shown s c) (hpoisoned : c.poisoned = false) (task : Status F) :
    Safe env sent s { c.mark (.sent (some n) (.reply shown task)) with poisoned := true } := by
  have hlaws : Laws env { c.mark (.sent (some n) (.reply shown task)) with poisoned := true } :=
    (hf.sent_laws hpoisoned task).congr rfl rfl rfl rfl
  cases hclose : isClose command with
  | false => exact ⟨hlaws, .inl ⟨hf.1.control, .inr (hf.1.plain hclose).1⟩⟩
  | true =>
    have hlive := (hf.1.closing hclose).1
    refine safe_of_kept ⟨hlaws, hlive.names, hlive.handler, fun m p hk => hlive.starts m p ((mem_mark.mp hk).resolve_right (by simp)),
      fun p hk => hlive.prepared p ((mem_mark.mp hk).resolve_right (by simp)), fun m cmd hp => ?_, fun m cmd s hk hcmd => ?_⟩ hf.1.control
    · obtain ⟨hsome, hr, hc, -⟩ := hlive.pending m cmd hp
      exact ⟨hsome, mem_mark.mpr (.inl hr), hc, .inl rfl⟩
    · exact (hlive.closes m cmd s ((mem_mark.mp hk).resolve_right (by simp)) hcmd).imp (fun ⟨packet, hp⟩ => ⟨packet, mem_mark.mpr (.inl hp)⟩) id

omit [DecidableEq F] in
theorem assign_new {closures : List (String × Value F)} {p : String} (v : Value F) (h : p ∉ closures.map Prod.fst) :
    assign closures p v = closures ++ [(p, v)] := by
  have hnone : closures.any (fun entry => decide (entry.1 = p)) = false := by
    rw [List.any_eq_false]
    intro entry hentry he
    exact h (List.mem_map.mpr ⟨entry, hentry, by simpa using he⟩)
  simp [assign, hnone]

omit [DecidableEq F] in
theorem answered_closed (c : Core F) (command v : Value F) {p : String} (h : c.phase = some p) : c.answered command (some v) =
    { c with pendingClose := none, closures := assign c.closures p v, handler := none, started := false } := by
  cases c
  cases h
  rfl

omit [DecidableEq F] in
theorem Shown.answered {shown : Snapshot F} (hf : Shown env h n command shown s c) (hpoisoned : c.poisoned = false) (task : Status F) :
    Laws env ((c.mark (.sent (some n) (.reply shown task))).answered command shown.closed) ∧
      Live ((c.mark (.sent (some n) (.reply shown task))).answered command shown.closed) := by
  have hlaws := hf.sent_laws hpoisoned task
  obtain ⟨hf, hclosed⟩ := hf
  have hcloses : ∀ m cmd s, .received m cmd s ∈ (c.mark (.sent (some n) (.reply shown task))).trace → owed cmd s = true →
      ∃ packet, .sent (some m) packet ∈ (c.mark (.sent (some n) (.reply shown task))).trace := by
    intro m cmd s hk hcmd
    have hk := (mem_mark.mp hk).resolve_right (by simp)
    cases hclose : isClose command with
    | false =>
      obtain ⟨packet, hp⟩ := (hf.plain hclose).2 m cmd s hk hcmd
      exact ⟨packet, mem_mark.mpr (.inl hp)⟩
    | true =>
      obtain ⟨hlive, cmd', hpending⟩ := hf.closing hclose
      rcases hlive.closes m cmd s hk hcmd with ⟨packet, hp⟩ | ⟨cmd'', hp⟩
      · exact ⟨packet, mem_mark.mpr (.inl hp)⟩
      · rw [hpending] at hp
        cases hp
        exact ⟨_, mem_mark.mpr (.inr rfl)⟩
  have hstarts : ∀ m p, .applied m "start" p ∈ (c.mark (.sent (some n) (.reply shown task))).trace →
      p ∈ jobPhases.take c.closures.length ∨ ((c.started || isAction command "start") = true ∧ p = h.phase) := by
    intro m p hk
    rcases hf.starts m p ((mem_mark.mp hk).resolve_right (by simp)) with ht | ⟨hp, hs | ⟨-, hs⟩⟩
    · exact .inl ht
    · exact .inr ⟨by rw [hs, Bool.true_or], hp⟩
    · exact .inr ⟨by rw [hs, Bool.or_true], hp⟩
  cases hc : shown.closed with
  | none =>
    refine ⟨hlaws.congr rfl rfl rfl rfl, hf.names, fun handler hh => ?_, fun m p hk => ?_, fun p hk => hf.prepared p ((mem_mark.mp hk).resolve_right (by simp)),
      fun m cmd hp => (nomatch hp), fun m cmd s hk hcmd => .inl (hcloses m cmd s hk hcmd)⟩
    · have hh' : c.handler = some handler := hh
      rw [hf.handler] at hh'
      cases hh'
      exact ⟨hf.here, hf.phase⟩
    · rcases hstarts m p hk with ht | ⟨hs, hp⟩
      · exact .inl ht
      · exact .inr ⟨hs, h, hf.handler, hp.symm⟩
  | some v =>
    have hnew : h.phase ∉ c.closures.map Prod.fst := by
      rw [hf.names]
      intro hin
      have hlt := idxOf_of_take hin
      rw [idxOf_jobPhases hf.here] at hlt
      exact absurd hlt (Nat.lt_irrefl _)
    have heq : (c.mark (.sent (some n) (.reply shown task))).answered command (some v) =
        { c.mark (.sent (some n) (.reply shown task)) with
          pendingClose := none, closures := c.closures ++ [(h.phase, v)], handler := none, started := false } := by
      have hphase : (c.mark (.sent (some n) (.reply shown task))).phase = some h.phase := hf.phase
      rw [answered_closed _ command v hphase, ← assign_new v hnew]
      rfl
    rw [heq]
    have hlen : (c.closures ++ [(h.phase, v)]).length = c.closures.length + 1 := by simp
    have htake : jobPhases.take (c.closures.length + 1) = jobPhases.take c.closures.length ++ [h.phase] := by
      rw [List.take_add_one, hf.here]
      rfl
    refine ⟨⟨hlaws.numbered, hlaws.receivedOnce, hlaws.answers, hlaws.applied, hlaws.ledger, fun p u hp => ?_, hlaws.advanced, hlaws.ordered, hlaws.known⟩,
      ?_, fun handler hh => (nomatch hh), fun m p hk => .inl ?_, fun p hk => ?_, fun m cmd hp => (nomatch hp), fun m cmd s hk hcmd => .inl (hcloses m cmd s hk hcmd)⟩
    · rcases List.mem_append.mp hp with hp | hp
      · exact hlaws.closures p u hp
      · obtain ⟨rfl, rfl⟩ := Prod.mk.inj (List.mem_singleton.mp hp)
        exact ⟨n, .reply shown task, hc, (List.singleton_sublist.mpr (hclosed u hc)).append (List.Sublist.refl [Mark.sent (some n) (.reply shown task)])⟩
    · dsimp only
      rw [List.map_append, hf.names, hlen, htake]
      rfl
    · dsimp only
      rw [hlen, htake]
      rcases hstarts m p hk with ht | ⟨-, hp⟩
      · exact List.mem_append_left _ ht
      · exact List.mem_append_right _ (by simp [hp])
    · dsimp only
      rw [hlen]
      have hin := hf.prepared p ((mem_mark.mp hk).resolve_right (by simp))
      exact (List.take_sublist_take_left (l := jobPhases) (Nat.le_succ _)).subset hin

/-- A command, new or a close retried, is answered; `before` is where it found the session. -/
structure Asked (env : Env F) (h : Handler) (n : Nat) (command : Value F) (s : Flags) (c : Core F) : Prop where
  laws : Laws env c
  control : s.controlStarted = true
  handler : c.handler = some h
  case : (∃ before, Got env false n command before c) ∨ (Live c ∧ c.pendingClose = some (n, command))

omit [DecidableEq F] in
theorem Asked.safe (hq : Asked env h n command s c) : Safe env sent s c := by
  rcases hq.case with ⟨before, hgot⟩ | ⟨hlive, -⟩
  · exact hgot.safe hq.control
  · exact safe_of_kept ⟨hq.laws, hlive⟩ hq.control

omit [DecidableEq F] in
/-- A close stays pending until it is answered. -/
theorem Asked.facing (hq : Asked env h n command s c) :
    Facing env h n command false s (c.keepClose n command) := by
  unfold Core.keepClose
  obtain ⟨hlaws, hcontrol, hhandler, hcase⟩ := hq
  rcases hcase with ⟨before, hgot⟩ | ⟨hlive, hpending⟩
  · have hbefore : before.handler = some h := by
      have := hhandler
      rw [hgot.eq] at this
      exact this
    obtain ⟨hhere, hphase⟩ := hgot.live.handler h hbefore
    have hclosures : c.closures = before.closures := by rw [hgot.eq]; rfl
    have hold {k : Mark F} (hne : ∀ m cmd s, k ≠ .received m cmd s) (hk : k ∈ c.trace) : k ∈ before.trace := by
      rw [hgot.eq] at hk
      exact (mem_receive.mp hk).resolve_right (hne _ _ _)
    have hcloses : ∀ m cmd s, .received m cmd s ∈ c.trace → owed cmd s = true →
        (m = n ∧ cmd = command ∧ isClose command = true) ∨ ∃ packet, .sent (some m) packet ∈ c.trace := by
      intro m cmd s hk hcmd
      rw [hgot.eq] at hk
      rcases mem_receive.mp hk with hk | hk
      · rcases hgot.live.closes m cmd s hk hcmd with ⟨packet, hp⟩ | ⟨cmd', hp⟩
        · exact .inr ⟨packet, by rw [hgot.eq]; exact mem_receive.mpr (.inl hp)⟩
        · rw [hgot.pending] at hp
          cases hp
      · cases hk
        exact .inl ⟨hgot.number.symm, rfl, by simpa [owed] using hcmd⟩
    have hphase : c.phase = some h.phase := by rw [hgot.eq]; exact hphase
    have hhere : jobPhases[c.closures.length]? = some h.phase := by rw [hclosures]; exact hhere
    have hnames : c.closures.map Prod.fst = jobPhases.take c.closures.length := by rw [hclosures]; exact hgot.live.names
    have hprepared (p : String) (hk : .prepares p ∈ c.trace) : p ∈ jobPhases.take (c.closures.length + 1) := by
      rw [hclosures]
      exact hgot.live.prepared p (hold (by simp) hk)
    have hstarts (m : Nat) (p : String) (hk : .applied m "start" p ∈ c.trace) :
        p ∈ jobPhases.take c.closures.length ∨ (p = h.phase ∧ c.started = true) := by
      rcases hgot.live.starts m p (hold (by simp) hk) with ht | ⟨hs, handler, hh, hp⟩
      · exact .inl (by rw [hclosures]; exact ht)
      · rw [hbefore] at hh
        cases hh
        exact .inr ⟨hp.symm, by rw [hgot.eq]; exact hs⟩
    have hstarts' (m : Nat) (p : String) (hk : .applied m "start" p ∈ c.trace) : p ∈ jobPhases.take c.closures.length ∨
        (p = h.phase ∧ (c.started = true ∨ (false = true ∧ isAction command "start" = true))) :=
      (hstarts m p hk).imp id fun hp => ⟨hp.1, .inl hp.2⟩
    by_cases hclose : isAction command "close" = true
    · rw [if_pos hclose]
      have hlive : Live { c with pendingClose := some (n, command) } := by
        refine ⟨hnames, fun handler hh => ?_, fun m p hk => ?_, hprepared, fun m cmd hp => ?_, fun m cmd s hk hcmd => ?_⟩
        · have hh' : c.handler = some handler := hh
          rw [hhandler] at hh'
          cases hh'
          exact ⟨hhere, hphase⟩
        · exact (hstarts m p hk).imp id fun hp => ⟨hp.2, h, hhandler, hp.1.symm⟩
        · cases hp
          exact ⟨by dsimp only; rw [hhandler]; rfl, hgot.received, hclose, .inr hgot.unanswered⟩
        · rcases hcloses m cmd s hk hcmd with ⟨rfl, rfl, -⟩ | hp
          · exact .inr ⟨_, rfl⟩
          · exact .inl hp
      exact { laws := hlaws.congr rfl rfl rfl rfl, control := hcontrol, handler := hhandler, here := hhere, phase := hphase, names := hnames,
              prepared := hprepared, starts := hstarts', received := hgot.received, unanswered := .inr hgot.unanswered,
              closing := fun _ => ⟨hlive, command, rfl⟩, plain := fun hc => by rw [isClose, hclose] at hc; cases hc }
    · rw [if_neg hclose]
      refine { laws := hlaws, control := hcontrol, handler := hhandler, here := hhere, phase := hphase, names := hnames, prepared := hprepared,
               starts := hstarts', received := hgot.received, unanswered := .inr hgot.unanswered, closing := fun hc => absurd hc hclose,
               plain := fun _ => ⟨hgot.after_pending, fun m cmd s hk hcmd => ?_⟩ }
      rcases hcloses m cmd s hk hcmd with ⟨-, -, hc⟩ | hp
      · exact absurd hc hclose
      · exact hp
  · obtain ⟨-, hreceived, hclose, hunanswered⟩ := hlive.pending n command hpending
    obtain ⟨hhere, hphase⟩ := hlive.handler h hhandler
    have hsame : { c with pendingClose := some (n, command) } = c := by rw [← hpending]
    rw [if_pos (show isAction command "close" = true from hclose), hsame]
    refine { laws := hlaws, control := hcontrol, handler := hhandler, here := hhere, phase := hphase, names := hlive.names, prepared := hlive.prepared,
             starts := fun m p hk => ?_, received := hreceived, unanswered := hunanswered, closing := fun _ => ⟨hlive, command, hpending⟩,
             plain := fun hc => by rw [hclose] at hc; cases hc }
    rcases hlive.starts m p hk with ht | ⟨hs, handler, hh, hp⟩
    · exact .inl ht
    · rw [hhandler] at hh
      cases hh
      exact .inr ⟨hp.symm, .inl hs⟩

theorem answer_spec : Spec (Holds (Asked env h n command)) (answer env h n command) (fun _ => Holds (Kept env)) (Halts env sent) := by
  cases command with
  | obj fields =>
    refine Spec.bind core_spec fun c => ?_
    refine Spec.bind (Q := fun _ => Holds fun s c => Asked env h n (.obj fields) s c ∧ (isAction (Value.obj fields) "start" = true → c.started = false))
      ((demand_spec (fun s c hq => hq.1.safe) _).weaken (fun _ h => h) (fun _ w hq => ?_) fun _ _ h => h) fun _ => ?_
    · obtain ⟨⟨hasked, rfl⟩, hok⟩ := hq
      refine ⟨hasked, fun hstart => ?_⟩
      simpa [hstart] using hok
    · refine Spec.bind (change_spec (Q := fun s c => Facing env h n (.obj fields) false s c ∧
        (isAction (Value.obj fields) "start" = true → c.started = false)) fun s c hq => ⟨hq.1.facing, fun hstart => ?_⟩) fun _ => ?_
      · rw [Core.keepClose]
        split
        · exact hq.2 hstart
        · exact hq.2 hstart
      · refine Spec.bind handle_spec fun shown => Spec.bind (record_spec fun s c hf => hf.1.safe) fun task => ?_
        refine Spec.bind (send_spec (Q := fun s c' => ∃ c, Shown env h n (.obj fields) shown s c ∧ c.poisoned = false ∧
          c' = c.mark (.sent (some n) (.reply shown task))) (fun s c hf => hf.1.safe) (fun s c hf hp => ⟨c, hf, hp, rfl⟩) fun s c hf hp => hf.late hp task) fun _ => ?_
        refine change_spec fun s c' hc => ?_
        obtain ⟨c, hf, hp, rfl⟩ := hc
        exact hf.answered hp task
  | _ => exact Spec.raise fun w hq => hq.safe

end Facing

theorem exchangePhase_spec {h : Handler} :
    Spec (Holds fun s c => Quiet env sent s c ∧ c.handler = some h) (exchangePhase env h) (fun _ => Holds (Kept env)) (Halts env sent) := by
  refine Spec.bind core_spec fun c => ?_
  cases hpending : c.pendingClose with
  | some entry =>
    obtain ⟨n, command⟩ := entry
    refine Spec.bind (flag_spec (Q := Asked env h n command) fun s c' hq => ?_) fun _ => Spec.bind (flag_spec (Q := Asked env h n command) fun s c' hq => ?_)
      fun _ => answer_spec
    · obtain ⟨⟨hquiet, hhandler⟩, rfl⟩ := hq
      exact ⟨hquiet.laws, rfl, hhandler, .inr ⟨hquiet.live, hpending⟩⟩
    · exact ⟨hq.laws, hq.control, hq.handler, hq.case⟩
  | none =>
    refine Spec.bind (ready_spec fun s c h => h.1.1.safe) fun waiting => ?_
    by_cases hwaiting : waiting = true
    · rw [if_pos hwaiting]
      let P (s : Flags) (c' : Core F) : Prop := s.controlStarted = true ∧ Laws env c' ∧ Live c' ∧ c'.handler = some h ∧ c'.pendingClose = none
      refine Spec.bind (flag_spec (Q := P) fun s c' hq => ?_) fun _ => ?_
      · obtain ⟨⟨hquiet, hhandler⟩, rfl⟩ := hq
        exact ⟨rfl, hquiet.laws, hquiet.live, hhandler, hpending⟩
      · refine Spec.bind (receiveCommand_spec (Q := fun s _ => s.controlStarted = true) (fun s c h => safe_of_kept ⟨h.2.1, h.2.2.1⟩ h.1) (fun _ _ _ h => h)
          fun _ _ _ h => h.1) fun got => ?_
        obtain ⟨n, command⟩ := got
        refine Spec.bind (flag_spec (Q := Asked env h n command) fun s c' hq => ?_) fun _ => answer_spec
        obtain ⟨hcontrol, s', before, ⟨-, hlaws, hlive, hhandler, hnone⟩, -, hc, hn⟩ := hq
        refine ⟨?_, hcontrol, ?_, .inl ⟨before, hlaws, hlive, hnone, hc, hn⟩⟩
        · rw [hc]
          exact hlaws.receive command false
        · rw [hc]
          exact hhandler
    · rw [if_neg hwaiting]
      exact Spec.ret fun w h => ⟨h.1.1.laws, h.1.1.live⟩

theorem exchangeStopped_spec (task : Status F) :
    Spec (Holds fun s c => Quiet env sent s c ∧ c.pendingClose = none) (exchangeStopped env task) (fun _ => Holds (Kept env)) (Halts env sent) := by
  refine Spec.bind core_spec fun c => Spec.bind flags_spec fun s => ?_
  by_cases hterminal : (c.handler.isNone && !s.terminalSent && !c.awaitingAdvance) = true
  · rw [if_pos hterminal]
    refine Spec.bind (flag_spec (Q := fun s c => s.controlStarted = true ∧ Laws env c ∧ Live c ∧ c.pendingClose = none)
      fun s c h => ⟨rfl, h.1.1.1.laws, h.1.1.1.live, h.1.1.2⟩) fun _ => ?_
    refine Spec.bind (terminal_spec fun s c h => ⟨h.1, h.2.1, h.2.2.1, h.2.2.2, by simp⟩) fun _ => ?_
    refine Spec.bind (ready_spec fun s c h => safe_of_kept ⟨h.2.1, h.2.2.1⟩ h.1) fun waiting => ?_
    by_cases hwaiting : waiting = true
    · rw [if_pos hwaiting]
      intro w hw
      exact answerStopped_spec (by simp) w ⟨rfl, hw.2⟩
    · rw [if_neg hwaiting]
      exact Spec.ret fun w h => ⟨h.2.1, h.2.2.1⟩
  · rw [if_neg hterminal]
    refine Spec.bind (ready_spec fun s c h => h.1.1.1.safe) fun waiting => ?_
    by_cases hwaiting : waiting = true
    · rw [if_pos hwaiting]
      refine (answerStopped_spec (b := c) fun hawaiting => ?_).pre fun w h => ⟨h.1.2, h.1.1.1.laws, h.1.1.1.live, h.1.1.2⟩
      simp only [Core.awaitingAdvance, Bool.and_eq_true, Option.isNone_iff_eq_none] at hawaiting
      exact hawaiting.1.1.1
    · rw [if_neg hwaiting]
      exact Spec.ret fun w h => ⟨h.1.1.1.laws, h.1.1.1.live⟩

theorem exchange_spec (task : Option (Status F)) :
    Spec (Holds (Quiet env sent)) (exchange env task) (fun _ => Holds (Kept env)) (Halts env sent) := by
  cases task with
  | none => exact (time_spec fun s c h => h.safe).weaken (fun _ h => h) (fun _ _ h => ⟨h.laws, h.live⟩) fun _ _ h => h
  | some task =>
    refine Spec.bind (time_spec fun s c h => h.safe) fun _ => Spec.bind core_spec fun c => ?_
    by_cases hstopped : (task.stopped && c.pendingClose.isNone) = true
    · rw [if_pos hstopped]
      refine (exchangeStopped_spec task).pre fun w h => ⟨h.1, ?_⟩
      rw [h.2]
      simp only [Bool.and_eq_true, Option.isNone_iff_eq_none] at hstopped
      exact hstopped.2
    · rw [if_neg hstopped]
      cases hhandler : c.handler with
      | none => exact exchangeBetween_spec.pre fun w h => ⟨h.1, by rw [h.2]; exact hhandler⟩
      | some h => exact exchangePhase_spec.pre fun w hq => ⟨hq.1, by rw [hq.2]; exact hhandler⟩

end LocalHand.TaskSession
