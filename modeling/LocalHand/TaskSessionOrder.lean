/-
The command protocol of a task session: phases in their order, one start a phase, and
every command answered at most once, over any packets, any exceptions and any moment of
a cancellation.

What the trace must obey (`Laws`) holds of every world. What ties the session to it
(`Live`) holds while the session goes on, which is the only time a tick uses it.
-/
import LocalHand.TaskSession

namespace LocalHand.TaskSession

open PyJson QuotaContract Program
open QuotaBridge (jobPhases)

variable {F : Type} {env : Env F}

/-! ## What holds -/

def isClose (command : Value F) : Bool := isAction command "close"

/-- A command that is answered as long as the session goes on: a close, and of a stopped
task a bind or start as well. -/
def owed (command : Value F) (stopped : Bool) : Bool :=
  isClose command || (stopped && (isAction command "bind" || isAction command "start"))

/-- A packet is sent or received. -/
def Mark.isPacket : Mark F → Bool
  | .received .. | .sent .. => true
  | _ => false

/-- What may come after what. -/
def Before : Mark F → Mark F → Prop
  | .prepares p, .prepares q => jobPhases.idxOf p ≤ jobPhases.idxOf q
  | .sent (some n) _, .sent (some m) _ => n ≠ m
  | .applied _ a p, .applied _ a' q => a = "start" → a' = "start" → p ≠ q
  | _, _ => True

/-- What led to a phase after the first: the one before it was closed and that was
answered, and an advance with the digest of this closure was received. -/
def Advanced (env : Env F) (p q : String) (trace : List (Mark F)) : Prop :=
  ∃ v n packet m stopped, packet.closed = some v ∧
    List.Sublist [.closedIn p v, .sent (some n) packet, .received m (advanceCommand p q (env.digest v)) stopped] trace

structure Laws (env : Env F) (c : Core F) : Prop where
  numbered : ∀ n cmd s, .received n cmd s ∈ c.trace → n < c.received
  receivedOnce : ∀ n cmd s cmd' s', .received n cmd s ∈ c.trace → .received n cmd' s' ∈ c.trace → cmd = cmd' ∧ s = s'
  answers : ∀ n packet, .sent (some n) packet ∈ c.trace → ∃ cmd s, .received n cmd s ∈ c.trace
  applied : ∀ n a p, .applied n a p ∈ c.trace → ∃ cmd, .received n cmd false ∈ c.trace ∧ isAction cmd a = true
  ledger : ∀ p v, c.ledger p = some v → .closedIn p v ∈ c.trace
  closures : ∀ p v, (p, v) ∈ c.closures → ∃ n packet, packet.closed = some v ∧ List.Sublist [.closedIn p v, .sent (some n) packet] c.trace
  advanced : ∀ i p q, jobPhases[i]? = some p → jobPhases[i + 1]? = some q →
    ∀ before after, c.trace = before ++ .prepares q :: after → Advanced env p q before
  ordered : c.trace.Pairwise Before
  known : ∀ p, .prepares p ∈ c.trace → p ∈ jobPhases

structure Live (c : Core F) : Prop where
  names : c.closures.map Prod.fst = jobPhases.take c.closures.length
  handler : ∀ h, c.handler = some h → jobPhases[c.closures.length]? = some h.phase ∧ c.phase = some h.phase
  starts : ∀ n p, .applied n "start" p ∈ c.trace → p ∈ jobPhases.take c.closures.length ∨
    (c.started = true ∧ ∃ h, c.handler = some h ∧ h.phase = p)
  prepared : ∀ p, .prepares p ∈ c.trace → p ∈ jobPhases.take (c.closures.length + 1)
  pending : ∀ n cmd, c.pendingClose = some (n, cmd) → c.handler.isSome = true ∧ .received n cmd false ∈ c.trace ∧ isClose cmd = true ∧
    (c.poisoned = true ∨ ∀ packet, .sent (some n) packet ∉ c.trace)
  closes : ∀ n cmd s, .received n cmd s ∈ c.trace → owed cmd s = true →
    (∃ packet, .sent (some n) packet ∈ c.trace) ∨ ∃ cmd', c.pendingClose = some (n, cmd')

def packets (c : Core F) : List (Mark F) := c.trace.filter Mark.isPacket

/-! ## Marks -/

theorem snoc_eq_append_cons {α : Type} {l before after : List α} {k a : α} (h : l ++ [k] = before ++ a :: after) :
    (k = a ∧ l = before) ∨ ∃ after', l = before ++ a :: after' := by
  rcases List.eq_nil_or_concat after with rfl | ⟨after', last, rfl⟩
  · obtain ⟨hl, hk⟩ := List.append_inj' h rfl
    exact .inl ⟨List.head_eq_of_cons_eq hk, hl⟩
  · rw [List.concat_eq_append, ← List.cons_append, ← List.append_assoc] at h
    exact .inr ⟨after', (List.append_inj' h rfl).1⟩

def Core.mark (c : Core F) (k : Mark F) : Core F := { c with trace := c.trace ++ [k] }

theorem mem_mark {c : Core F} {k k' : Mark F} : k' ∈ (c.mark k).trace ↔ k' ∈ c.trace ∨ k' = k := by
  simp [Core.mark]

theorem Laws.mark {c : Core F} (h : Laws env c) {k : Mark F} (hreceived : ∀ n cmd s, k ≠ .received n cmd s)
    (hsent : ∀ n packet, k = .sent (some n) packet → ∃ cmd s, .received n cmd s ∈ c.trace)
    (happlied : ∀ n a p, k = .applied n a p → ∃ cmd, .received n cmd false ∈ c.trace ∧ isAction cmd a = true)
    (hprepares : ∀ i p q, jobPhases[i]? = some p → jobPhases[i + 1]? = some q → k = .prepares q → Advanced env p q c.trace)
    (hknown : ∀ p, k = .prepares p → p ∈ jobPhases) (hbefore : ∀ k' ∈ c.trace, Before k' k) : Laws env (c.mark k) := by
  have hold {n : Nat} {cmd : Value F} {s : Bool} (hk : .received n cmd s ∈ (c.mark k).trace) : .received n cmd s ∈ c.trace :=
    (mem_mark.mp hk).resolve_right (hreceived n cmd s).symm
  refine ⟨fun n cmd s hk => h.numbered n cmd s (hold hk), fun n cmd s cmd' s' hk hk' => h.receivedOnce n cmd s cmd' s' (hold hk) (hold hk'),
    ?_, ?_, fun p v hp => mem_mark.mpr (.inl (h.ledger p v hp)), ?_, ?_, ?_,
    fun p hk => (mem_mark.mp hk).elim (h.known p) fun he => hknown p he.symm⟩
  · intro n packet hk
    obtain ⟨cmd, s, hr⟩ := (mem_mark.mp hk).elim (h.answers n packet) fun he => hsent n packet he.symm
    exact ⟨cmd, s, mem_mark.mpr (.inl hr)⟩
  · intro n a p hk
    obtain ⟨cmd, hr, ha⟩ := (mem_mark.mp hk).elim (h.applied n a p) fun he => happlied n a p he.symm
    exact ⟨cmd, mem_mark.mpr (.inl hr), ha⟩
  · intro p v hp
    obtain ⟨n, packet, hclosed, hsub⟩ := h.closures p v hp
    exact ⟨n, packet, hclosed, hsub.trans (List.sublist_append_left _ _)⟩
  · intro i p q hp hq before after htrace
    rcases snoc_eq_append_cons htrace with ⟨hk, rfl⟩ | ⟨after', htrace⟩
    · exact hprepares i p q hp hq hk
    · exact h.advanced i p q hp hq before after' htrace
  · exact List.pairwise_append.mpr ⟨h.ordered, List.pairwise_singleton _ _, fun k' hk' j hj => List.mem_singleton.mp hj ▸ hbefore k' hk'⟩

/-- A packet that answers a command no packet has answered. -/
theorem Laws.sent {c : Core F} (h : Laws env c) {answers : Option Nat} {packet : Packet F}
    (hanswers : ∀ n, answers = some n → (∃ cmd s, .received n cmd s ∈ c.trace) ∧ ∀ packet', .sent (some n) packet' ∉ c.trace) :
    Laws env (c.mark (.sent answers packet)) := by
  refine h.mark (by simp) (fun n packet' he => ?_) (by simp) (by simp) (by simp) fun k hk => ?_
  · cases he
    exact (hanswers n rfl).1
  · cases k with
    | sent answers' packet' =>
      cases answers' with
      | none => trivial
      | some n =>
        cases answers with
        | none => trivial
        | some m =>
          intro hnm
          subst hnm
          exact (hanswers n rfl).2 packet' hk
    | _ => trivial

/-- A command that is received. -/
def Core.receive (c : Core F) (command : Value F) (stopped : Bool) : Core F :=
  { c with received := c.received + 1, trace := c.trace ++ [.received c.received command stopped] }

theorem mem_receive {c : Core F} {command : Value F} {stopped : Bool} {k : Mark F} :
    k ∈ (c.receive command stopped).trace ↔ k ∈ c.trace ∨ k = .received c.received command stopped := by
  simp [Core.receive]

theorem Laws.receive {c : Core F} (h : Laws env c) (command : Value F) (stopped : Bool) : Laws env (c.receive command stopped) := by
  refine ⟨?_, ?_, ?_, ?_, fun p v hp => mem_receive.mpr (.inl (h.ledger p v hp)), ?_, ?_, ?_,
    fun p hk => h.known p ((mem_receive.mp hk).resolve_right (by simp))⟩
  · intro n cmd s hk
    rcases mem_receive.mp hk with hk | hk
    · exact Nat.lt_succ_of_lt (h.numbered n cmd s hk)
    · cases hk
      exact Nat.lt_succ_self _
  · intro n cmd s cmd' s' hk hk'
    rcases mem_receive.mp hk with hk | hk <;> rcases mem_receive.mp hk' with hk' | hk'
    · exact h.receivedOnce n cmd s cmd' s' hk hk'
    · cases hk'
      exact absurd (h.numbered _ _ _ hk) (Nat.lt_irrefl _)
    · cases hk
      exact absurd (h.numbered _ _ _ hk') (Nat.lt_irrefl _)
    · cases hk
      cases hk'
      exact ⟨rfl, rfl⟩
  · intro n packet hk
    obtain ⟨cmd, s, hr⟩ := h.answers n packet ((mem_receive.mp hk).resolve_right (by simp))
    exact ⟨cmd, s, mem_receive.mpr (.inl hr)⟩
  · intro n a p hk
    obtain ⟨cmd, hr, ha⟩ := h.applied n a p ((mem_receive.mp hk).resolve_right (by simp))
    exact ⟨cmd, mem_receive.mpr (.inl hr), ha⟩
  · intro p v hp
    obtain ⟨n, packet, hclosed, hsub⟩ := h.closures p v hp
    exact ⟨n, packet, hclosed, hsub.trans (List.sublist_append_left _ _)⟩
  · intro i p q hp hq before after htrace
    rcases snoc_eq_append_cons htrace with ⟨hk, -⟩ | ⟨after', htrace⟩
    · cases hk
    · exact h.advanced i p q hp hq before after' htrace
  · refine List.pairwise_append.mpr ⟨h.ordered, List.pairwise_singleton _ _, fun k hk j hj => ?_⟩
    cases List.mem_singleton.mp hj
    cases k with
    | sent answers packet => cases answers <;> trivial
    | _ => trivial

/-- A number not yet used answers nothing. -/
theorem Laws.unanswered {c : Core F} (h : Laws env c) {n : Nat} (hn : c.received ≤ n) (packet : Packet F) : .sent (some n) packet ∉ c.trace := by
  intro hk
  obtain ⟨cmd, s, hr⟩ := h.answers n packet hk
  exact absurd (h.numbered n cmd s hr) (by omega)

theorem Laws.congr {c c' : Core F} (h : Laws env c) (htrace : c'.trace = c.trace) (hreceived : c'.received = c.received)
    (hledger : c'.ledger = c.ledger) (hclosures : c'.closures = c.closures) : Laws env c' := by
  constructor
  · rw [htrace, hreceived]
    exact h.numbered
  · rw [htrace]
    exact h.receivedOnce
  · rw [htrace]
    exact h.answers
  · rw [htrace]
    exact h.applied
  · rw [htrace, hledger]
    exact h.ledger
  · rw [htrace, hclosures]
    exact h.closures
  · rw [htrace]
    exact h.advanced
  · rw [htrace]
    exact h.ordered
  · rw [htrace]
    exact h.known

theorem Live.congr {c c' : Core F} (h : Live c) (htrace : c'.trace = c.trace) (hclosures : c'.closures = c.closures)
    (hhandler : c'.handler = c.handler) (hphase : c'.phase = c.phase ∨ c.handler = none) (hstarted : c'.started = c.started)
    (hpending : c'.pendingClose = c.pendingClose) (hpoisoned : c.poisoned = true → c'.poisoned = true) : Live c' := by
  constructor
  · rw [hclosures]
    exact h.names
  · intro handler hh
    rw [hhandler] at hh
    rcases hphase with hphase | hnone
    · rw [hclosures, hphase]
      exact h.handler handler hh
    · rw [hnone] at hh
      cases hh
  · rw [htrace, hclosures, hstarted, hhandler]
    exact h.starts
  · rw [htrace, hclosures]
    exact h.prepared
  · rw [htrace, hhandler, hpending]
    intro n cmd hp
    obtain ⟨hsome, hreceived, hclose, hsent⟩ := h.pending n cmd hp
    exact ⟨hsome, hreceived, hclose, hsent.imp hpoisoned id⟩
  · rw [htrace, hpending]
    exact h.closes

/-- A mark that is neither a packet nor a start nor a phase's preparation. -/
theorem Live.mark {c : Core F} (h : Live c) {k : Mark F} (hpacket : k.isPacket = false) (hstart : ∀ n p, k ≠ .applied n "start" p)
    (hprepares : ∀ p, k = .prepares p → p ∈ jobPhases.take (c.closures.length + 1)) : Live (c.mark k) := by
  have hsent {answers : Option Nat} {packet : Packet F} (hk : .sent answers packet ∈ (c.mark k).trace) : .sent answers packet ∈ c.trace :=
    (mem_mark.mp hk).resolve_right fun he => by rw [← he] at hpacket; cases hpacket
  have hreceived {n : Nat} {cmd : Value F} {s : Bool} (hk : .received n cmd s ∈ (c.mark k).trace) : .received n cmd s ∈ c.trace :=
    (mem_mark.mp hk).resolve_right fun he => by rw [← he] at hpacket; cases hpacket
  refine ⟨h.names, h.handler, ?_, ?_, ?_, ?_⟩
  · intro n p hk
    exact h.starts n p ((mem_mark.mp hk).resolve_right (hstart n p).symm)
  · intro p hk
    exact (mem_mark.mp hk).elim (h.prepared p) fun he => hprepares p he.symm
  · intro n cmd hp
    obtain ⟨hsome, hr, hclose, hs⟩ := h.pending n cmd hp
    exact ⟨hsome, mem_mark.mpr (.inl hr), hclose, hs.imp id fun hs packet hk => hs packet (hsent hk)⟩
  · intro n cmd s hk hclose
    exact (h.closes n cmd s (hreceived hk) hclose).imp (fun ⟨packet, hp⟩ => ⟨packet, mem_mark.mpr (.inl hp)⟩) id

theorem Live.noPending {c : Core F} (h : Live c) (hnone : c.handler = none) : c.pendingClose = none := by
  cases hp : c.pendingClose with
  | none => rfl
  | some entry =>
    have hsome := (h.pending entry.1 entry.2 hp).1
    rw [hnone] at hsome
    cases hsome

/-- A packet sent while no close is pending. -/
theorem Live.sent {c : Core F} (h : Live c) (hnone : c.pendingClose = none) (answers : Option Nat) (packet : Packet F) :
    Live (c.mark (.sent answers packet)) := by
  have hold {k : Mark F} (hne : k ≠ .sent answers packet) (hk : k ∈ (c.mark (.sent answers packet)).trace) : k ∈ c.trace :=
    (mem_mark.mp hk).resolve_right hne
  refine ⟨h.names, h.handler, fun n p hk => h.starts n p (hold (by simp) hk), fun p hk => h.prepared p (hold (by simp) hk), ?_, ?_⟩
  · intro n cmd hp
    have hp' : c.pendingClose = some (n, cmd) := hp
    rw [hnone] at hp'
    cases hp'
  · intro n cmd s hk hclose
    exact (h.closes n cmd s (hold (by simp) hk) hclose).imp (fun ⟨packet', hp⟩ => ⟨packet', mem_mark.mpr (.inl hp)⟩) id

/-- A command received that need not be answered. -/
theorem Live.receive {c : Core F} (h : Live c) {command : Value F} {stopped : Bool} (hclose : owed command stopped = false) :
    Live (c.receive command stopped) := by
  have hold {k : Mark F} (hne : ∀ n cmd s, k ≠ .received n cmd s) (hk : k ∈ (c.receive command stopped).trace) : k ∈ c.trace :=
    (mem_receive.mp hk).resolve_right (hne _ _ _)
  refine ⟨h.names, h.handler, fun n p hk => h.starts n p (hold (by simp) hk), fun p hk => h.prepared p (hold (by simp) hk), ?_, ?_⟩
  · intro n cmd hp
    obtain ⟨hsome, hr, hc, hs⟩ := h.pending n cmd hp
    exact ⟨hsome, mem_receive.mpr (.inl hr), hc, hs.imp id fun hs packet hk => hs packet (hold (by simp) hk)⟩
  · intro n cmd s hk hc
    rcases mem_receive.mp hk with hk | hk
    · exact (h.closes n cmd s hk hc).imp (fun ⟨packet, hp⟩ => ⟨packet, mem_receive.mpr (.inl hp)⟩) id
    · cases hk
      rw [hclose] at hc
      cases hc

/-! ## Where a tick may stop -/

/-- A state an exception may leave: nothing will be done any more, or the session is as it
was but for the close it is at. -/
def Safe (env : Env F) (sent : List (Mark F)) (s : Flags) (c : Core F) : Prop :=
  Laws env c ∧ ((s.controlStarted = true ∧ (s.action ≠ "close" ∨ c.pendingClose = none)) ∨
    (Live c ∧ (s.controlStarted = false → packets c = sent)))

abbrev Holds (P : Flags → Core F → Prop) : World F → Prop := fun w => P w.flags w.core

theorem Safe.poison {sent : List (Mark F)} {s : Flags} {c : Core F} (h : Safe env sent s c) : Safe env sent s { c with poisoned := true } :=
  ⟨h.1.congr rfl rfl rfl rfl, h.2.imp id fun h => ⟨h.1.congr rfl rfl rfl (.inl rfl) rfl rfl fun _ => rfl, h.2⟩⟩

section Steps

variable {sent : List (Mark F)} {P Q E : Flags → Core F → Prop} {T : Stop → World F → Prop}

/-- What an exception leaves of an exchange. -/
abbrev Halts (env : Env F) (sent : List (Mark F)) : Stop → World F → Prop := fun _ => Holds (Safe env sent)

theorem question_spec : Spec (Holds P) (question : Op F Nat) (fun _ => Holds P) T := fun _ h => h

theorem throwIf_spec (hP : ∀ s c, P s c → E s c) (stop : Option Stop) :
    Spec (Holds P) (throwIf stop : Op F Unit) (fun _ => Holds P) (fun _ => Holds E) := by
  cases stop with
  | none => exact Spec.ret fun _ h => h
  | some stop => exact Spec.raise fun _ h => hP _ _ h

theorem pass_spec (hP : ∀ s c, P s c → E s c) : Spec (Holds P) (pass env) (fun _ => Holds P) (fun _ => Holds E) :=
  Spec.bind question_spec fun _ => Spec.bind (throwIf_spec hP _) fun _ => Spec.ret fun _ h => h

theorem demand_spec (hP : ∀ s c, P s c → E s c) (ok : Bool) :
    Spec (Holds P) (demand ok : Op F Unit) (fun _ => Holds fun s c => P s c ∧ ok = true) (fun _ => Holds E) := by
  unfold demand
  split
  · next h => exact Spec.ret fun _ hw => ⟨hw, h⟩
  · exact Spec.raise fun _ h => hP _ _ h

theorem core_spec : Spec (Holds P) (core : Op F (Core F)) (fun c => Holds fun s c' => P s c' ∧ c' = c) T := fun _ h => ⟨h, rfl⟩

theorem flags_spec : Spec (Holds P) (flags : Op F Flags) (fun s => Holds fun s' c => P s' c ∧ s' = s) T := fun _ h => ⟨h, rfl⟩

theorem flag_spec {f : Flags → Flags} (h : ∀ s c, P s c → Q (f s) c) : Spec (Holds P) (flag f : Op F Unit) (fun _ => Holds Q) T :=
  fun _ hw => h _ _ hw

theorem change_spec {f : Core F → Core F} (h : ∀ s c, P s c → Q s (f c)) :
    Spec (Holds P) (change f) (fun _ => Holds Q) T := fun _ hw => h _ _ hw

theorem mark_spec {k : Mark F} (h : ∀ s c, P s c → Q s (c.mark k)) : Spec (Holds P) (mark k) (fun _ => Holds Q) T :=
  fun _ hw => h _ _ hw

theorem effect_spec {m : Op F Unit} (hP : ∀ s c, P s c → E s c) (hQ : ∀ s c, Q s c → E s c)
    (hm : Spec (Holds P) m (fun _ => Holds Q) (fun _ => Holds E)) : Spec (Holds P) (effect env m) (fun _ => Holds Q) (fun _ => Holds E) :=
  Spec.bind (pass_spec hP) fun _ => Spec.bind hm fun _ => throwIf_spec hQ _

theorem record_spec (hP : ∀ s c, P s c → E s c) : Spec (Holds P) (record env) (fun _ => Holds P) (fun _ => Holds E) := by
  refine Spec.bind (Spec.bind (pass_spec hP) fun _ => Spec.ret (Q := fun _ => Holds P) fun _ h => h) fun found => ?_
  cases found with
  | some status => exact Spec.ret fun _ h => h
  | none => exact Spec.raise fun _ h => hP _ _ h

theorem ready_spec (hP : ∀ s c, P s c → E s c) : Spec (Holds P) (ready env) (fun _ => Holds P) (fun _ => Holds E) :=
  Spec.bind (pass_spec hP) fun _ => Spec.ret fun _ h => h

theorem snapshot_spec (hP : ∀ s c, P s c → E s c) (phase : String) :
    Spec (Holds P) (snapshot env phase) (fun shown => Holds fun s c => P s c ∧ shown.closed = c.ledger phase) (fun _ => Holds E) :=
  Spec.bind (pass_spec hP) fun _ => Spec.bind core_spec fun _ => Spec.ret fun _ h => ⟨h.1, h.2 ▸ rfl⟩

theorem poisoning_spec (hP : ∀ s c, P s c → Safe env sent s c) (stop : Option Stop) :
    Spec (Holds P) (poisoning stop : Op F Unit) (fun _ => Holds P) (Halts env sent) := by
  cases stop with
  | none => exact Spec.ret fun _ h => h
  | some stop =>
    exact Spec.bind (change_spec (Q := Safe env sent) fun s c h => (hP s c h).poison) fun _ => Spec.raise fun _ h => h

theorem time_spec (hP : ∀ s c, P s c → E s c) : Spec (Holds P) (time env) (fun _ => Holds P) (fun _ => Holds E) :=
  Spec.bind core_spec fun _ => Spec.bind ((demand_spec (fun s c h => hP s c h.1) _).weaken (fun _ h => h) (fun _ _ h => h.1.1) fun _ _ h => h)
    fun _ => Spec.bind (pass_spec hP) fun _ => Spec.ret fun _ h => h

theorem send_spec (hP : ∀ s c, P s c → Safe env sent s c) {answers : Option Nat} {packet : Packet F}
    (hsent : ∀ s c, P s c → c.poisoned = false → Q s (c.mark (.sent answers packet)))
    (hlate : ∀ s c, P s c → c.poisoned = false → Safe env sent s { c.mark (.sent answers packet) with poisoned := true }) :
    Spec (Holds P) (send env answers packet) (fun _ => Holds Q) (Halts env sent) := by
  refine Spec.bind core_spec fun c => Spec.bind (demand_spec (fun s c h => hP s c h.1) _) fun _ => Spec.bind question_spec fun n => ?_
  refine Spec.bind (poisoning_spec (fun s c h => hP s c h.1.1) _) fun _ => ?_
  refine Spec.bind (mark_spec (Q := fun s c' => ∃ c, P s c ∧ c.poisoned = false ∧ c' = c.mark (.sent answers packet)) ?_) fun _ => ?_
  · intro s c' h
    obtain ⟨⟨hp, rfl⟩, hnot⟩ := h
    exact ⟨c', hp, by simpa using hnot, rfl⟩
  · cases env.late n with
    | none =>
      refine Spec.ret fun w h => ?_
      obtain ⟨c, hp, hpoisoned, he⟩ := h
      show Q w.flags w.core
      rw [he]
      exact hsent _ c hp hpoisoned
    | some stop =>
      refine Spec.bind (change_spec (Q := Safe env sent) fun s c' h => ?_) fun _ => Spec.raise fun _ h => h
      obtain ⟨c, hp, hpoisoned, rfl⟩ := h
      exact hlate s c hp hpoisoned

theorem receiveCommand_spec (hP : ∀ s c, P s c → Safe env sent s c) (haction : ∀ s c a, P s c → P { s with action := a } c) {stopped : Bool}
    (hreceived : ∀ s c command, P s c → Q { s with action := knownAction command } (c.receive command stopped)) :
    Spec (Holds P) (receiveCommand env stopped) (fun got => Holds fun s c => Q s c ∧ ∃ s' c', P s' c' ∧
      s = { s' with action := knownAction got.2 } ∧ c = c'.receive got.2 stopped ∧ got.1 = c'.received) (Halts env sent) := by
  refine Spec.bind (flag_spec (Q := P) fun s c h => haction s c _ h) fun _ => ?_
  have hreceive : Spec (Holds P) (receive env stopped) (fun got => Holds fun s c => ∃ c', P s c' ∧ c = c'.receive got.2 stopped ∧ got.1 = c'.received)
      (Halts env sent) := by
    refine Spec.bind core_spec fun c => Spec.bind (demand_spec (fun s c h => hP s c h.1) _) fun _ => Spec.bind question_spec fun n => ?_
    refine Spec.bind (poisoning_spec (fun s c h => hP s c h.1.1) _) fun _ => Spec.bind core_spec fun c => ?_
    refine Spec.bind (change_spec (Q := fun s c' => P s c ∧ c' = c.receive (env.packet n) stopped) fun s c' h => ?_) fun _ =>
      Spec.ret fun w h => ⟨c, h.1, h.2, rfl⟩
    obtain ⟨⟨⟨hp, -⟩, -⟩, rfl⟩ := h
    exact ⟨hp, rfl⟩
  refine Spec.bind hreceive fun got => Spec.bind (flag_spec (Q := fun s c => ∃ s' c', P s' c' ∧
    s = { s' with action := knownAction got.2 } ∧ c = c'.receive got.2 stopped ∧ got.1 = c'.received) fun s c h => ?_) fun _ => Spec.ret fun w h => ?_
  · obtain ⟨c', hp, hc, hn⟩ := h
    exact ⟨s, c', hp, rfl, hc, hn⟩
  · obtain ⟨s', c', hp, hs, hc, hn⟩ := h
    refine ⟨?_, s', c', hp, hs, hc, hn⟩
    rw [hs, hc]
    exact hreceived s' c' got.2 hp

end Steps

end LocalHand.TaskSession
