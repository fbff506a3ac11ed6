/-
The manager's call and byte budgets over the sessions of a gateway: the wire limit holds of
all of them together, and the call limit where a rebound session takes no request beyond it.

What a step does to the counters is one relation, `Moved`, of a few kinds; the invariants
and the laws of the counters only cite it.
-/
import LocalHand.GatewayBudget
import LocalHand.ManagerLockstep
import LocalHand.Lib.PyData

namespace LocalHand.GatewayBudget

open PyJson ResultReader QuotaContract Program SystemManager

variable {F : Type}

/-! ## The channel -/

/-- A party in a call that found it as `p`, before anything is sent. -/
structure Carries (p q : Party F) : Prop where
  sent : q.sent = p.sent
  session : q.channel.session = p.channel.session
  sequence : q.channel.sequence = p.channel.sequence
  pending : q.channel.pending = p.channel.pending
  total : p.channel.total ≤ q.channel.total

theorem Carries.refl (p : Party F) : Carries p p := ⟨rfl, rfl, rfl, rfl, Nat.le_refl _⟩

theorem Carries.trans {p q r : Party F} (h : Carries p q) (h' : Carries q r) : Carries p r :=
  ⟨h'.sent.trans h.sent, h'.session.trans h.session, h'.sequence.trans h.sequence, h'.pending.trans h.pending, h.total.trans h'.total⟩

section

variable {p : Party F}

theorem time_keeps {P : Party F → Prop} (outside : Option Fault) : Keeps P (SystemManager.time outside) := by
  refine Spec.bind ((channel_spec P (E := fun _ => P)).weaken (fun _ h => h) (fun _ _ h => h.1) fun _ _ h => h) fun c => ?_
  refine Spec.bind (check_spec _ fun _ _ h => h) fun _ => ?_
  cases outside with
  | none => exact Spec.ret fun _ h => h
  | some fault => exact Spec.raise fun _ h => h

/-- A party that has been charged. -/
structure Charged (p : Party F) (weight : Nat) (q : Party F) : Prop extends Carries p q where
  weight : q.channel.total = p.channel.total + weight

theorem charge_charged {p₀ : Party F} (raw : Framing.Bytes) (fds : List Descriptor) :
    Spec (· = p₀) (charge raw fds) (fun _ => Charged p₀ (raw.length + 12 + 4 * fds.length))
      (fun _ => Charged p₀ (raw.length + 12 + 4 * fds.length)) := by
  refine Spec.bind (Q := fun _ => Charged p₀ (raw.length + 12 + 4 * fds.length)) (Spec.update fun q h => ?_) fun _ => ?_
  · obtain rfl := h
    exact ⟨⟨rfl, rfl, rfl, rfl, Nat.le_add_right _ _⟩, rfl⟩
  · refine Spec.bind (channel_spec _) fun c => ?_
    exact (check_spec _ fun _ _ h => h.1).weaken (fun _ h => h) (fun _ _ h => h.1) fun _ _ h => h

theorem charge_carries (raw : Framing.Bytes) (fds : List Descriptor) : Keeps (Carries p) (charge raw fds) := by
  intro q hq
  have hrun := charge_charged raw fds q rfl
  cases hm : (charge raw fds).from q with
  | mk r q' =>
    rw [hm] at hrun
    cases r with
    | ok a => exact hq.trans hrun.toCarries
    | error fault => exact hq.trans hrun.toCarries

variable (fl : FloatText F)

theorem receive_carries (meet : Meeting) (peer : List (Message F)) (maximum : Nat) (op : Option String) :
    Keeps (Carries p) (receive fl meet peer maximum op) := by
  have hcheck {α : Type} (x : Except Fault α) : Keeps (Carries p) (lift x) := check_spec x fun _ _ h => h
  refine Spec.bind (time_keeps none) fun _ => Spec.bind (hcheck _) fun d => Spec.bind (hcheck _) fun _ => ?_
  refine Spec.bind (charge_carries d.raw d.rights) fun _ => Spec.bind (hcheck _) fun value => ?_
  refine Spec.bind ((channel_spec (Carries p) (E := fun _ => Carries p)).weaken (fun _ h => h) (fun _ _ h => h.1) fun _ _ h => h) fun c => ?_
  refine Spec.bind (hcheck _) fun found => Spec.bind (hcheck _) fun _ => Spec.bind (hcheck _) fun _ => ?_
  exact Spec.bind (time_keeps meet.late) fun _ => Spec.ret fun _ h => h

theorem guarded_carries {α : Type} {m : SystemManager.Op F α} {P : Party F → Prop} {Q : α → Party F → Prop} {E : Party F → Prop}
    (hE : ∀ q, E q → E { q with channel := { q.channel with poisoned := true } }) (h : Spec P m Q fun _ => E) :
    Spec P (guarded m) Q fun _ => E :=
  Spec.handle h fun _ => Spec.bind (Spec.update (Q := fun _ => E) hE) fun _ => Spec.raise fun _ h => h

theorem Carries.poison {q : Party F} (h : Carries p q) : Carries p { q with channel := { q.channel with poisoned := true } } :=
  ⟨h.sent, h.session, h.sequence, h.pending, h.total⟩

/-- A request has been taken. -/
structure Took (p : Party F) (request : Request F) (q : Party F) : Prop where
  sent : q.sent = p.sent
  idle : p.channel.pending = none
  below : p.channel.sequence < callLimit
  sequence : q.channel.sequence = p.channel.sequence
  pending : q.channel.pending = some request.op
  total : p.channel.total ≤ q.channel.total

theorem receiveRequest_took (meet : Meeting) (peer : List (Message F)) :
    Spec (Carries p) (receiveRequest fl meet peer) (Took p) fun _ => Carries p := by
  refine guarded_carries (fun _ h => h.poison) ?_
  refine Spec.bind (Q := fun _ q => Carries p q ∧ p.channel.pending = none ∧ p.channel.sequence < callLimit) ?_ fun _ => ?_
  · refine Spec.bind (time_keeps meet.early) fun _ => ?_
    rintro q hq
    refine (?_ : Spec (Carries p) _ _ _) q hq
    refine Spec.bind (channel_spec _) fun c => ?_
    refine (lift_spec _ _).weaken (fun _ h => h) (fun _ q h => ?_) fun _ _ h => h.1
    obtain ⟨⟨hq, rfl⟩, hidle⟩ := h
    rw [require_ok, Bool.and_eq_true, Option.isNone_iff_eq_none, decide_eq_true_eq, hq.pending, hq.sequence] at hidle
    exact ⟨hq, hidle⟩
  · rintro q ⟨hq, hidle, hbelow⟩
    refine (?_ : Spec (Carries p) _ _ _) q hq
    refine Spec.bind (receive_carries fl meet peer requestLimit none) fun found => ?_
    obtain ⟨op, body, rights⟩ := found
    refine Spec.bind (check_spec _ fun _ _ h => h) fun _ => ?_
    refine Spec.bind (channel_spec _) fun c => ?_
    rintro q ⟨hq, rfl⟩
    exact ⟨hq.sent, hidle, hbelow, hq.sequence, rfl, hq.total⟩

variable [DecidableEq F] (intOf : F → Option Int)

theorem pendingValue_same {c : Channel} {op : String} (h : (c.pendingValue : Value F).same intOf (.str op) = true) :
    (c.pendingValue : Value F) = .str op := by
  unfold Channel.pendingValue at h ⊢
  split at h
  · simp [Value.same, Value.numeric] at h
  · simpa [Value.same, Value.numeric] using h

/-- A message that weighs `weight` has been put on the wire. -/
structure Put (p : Party F) (weight : Nat) (m : Message F) (q : Party F) : Prop where
  sent : q.sent = p.sent ++ [m]
  total : q.channel.total = p.channel.total + weight

/-- And its exchange has not ended. -/
structure Out (p : Party F) (weight : Nat) (m : Message F) (q : Party F) : Prop extends Put p weight m q where
  sequence : q.channel.sequence = p.channel.sequence
  pending : q.channel.pending = p.channel.pending

/-- And its exchange has ended. -/
structure Done (p : Party F) (weight : Nat) (m : Message F) (q : Party F) : Prop extends Put p weight m q where
  sequence : q.channel.sequence = p.channel.sequence + 1
  pending : q.channel.pending = none

omit [DecidableEq F] in
theorem transmit_out {weight : Nat} (sending : Sending) (m : Message F) :
    Spec (Charged p weight) (transmit sending m) (fun _ => Out p weight m) (fun _ q => Carries p q ∨ Out p weight m q) := by
  have hout : ∀ q, Charged p weight q → Out p weight m { q with sent := q.sent ++ [m] } :=
    fun q h => ⟨⟨by rw [h.sent], h.weight⟩, h.sequence, h.pending⟩
  cases sending with
  | done => exact Spec.update hout
  | lost fault => exact Spec.raise fun _ h => .inl h.toCarries
  | kept fault => exact Spec.bind (Spec.update hout) fun _ => Spec.raise fun _ h => .inr h

omit [DecidableEq F] in
theorem send_out (meet : Meeting) (op body : Value F) (fds : List Descriptor) (maximum : Nat) {raw : Framing.Bytes}
    (hraw : canonical fl (p.next op body fds).envelope maximum = .ok raw) :
    Spec (· = p) (send fl meet op body fds maximum) (fun _ => Out p (raw.length + 12 + 4 * fds.length) (p.next op body fds))
      (fun _ q => Carries p q ∨ Out p (raw.length + 12 + 4 * fds.length) (p.next op body fds) q) := by
  have hcheck {α : Type} (x : Except Fault α) : Spec (· = p) (lift x) (fun _ => (· = p))
      (fun _ q => Carries p q ∨ Out p (raw.length + 12 + 4 * fds.length) (p.next op body fds) q) :=
    check_spec x fun _ q h => .inl (h ▸ .refl p)
  refine Spec.bind (channel_spec _) fun c => ?_
  rintro q ⟨rfl, rfl⟩
  refine (?_ : Spec (· = q) _ _ _) q rfl
  refine Spec.bind ((lift_spec (· = q) _).weaken (fun _ h => h) (fun _ _ h => h) fun _ _ h => .inl (h ▸ .refl _)) fun raw' => ?_
  rintro _ ⟨rfl, hraw'⟩
  rename_i q
  obtain rfl : raw = raw' := Except.ok.inj (hraw.symm.trans hraw')
  refine (?_ : Spec (· = q) _ _ _) q rfl
  refine Spec.bind (hcheck _) fun _ => Spec.bind (hcheck _) fun _ => Spec.bind (hcheck _) fun _ => ?_
  refine Spec.bind ((charge_charged raw fds).weaken (fun _ h => h) (fun _ _ h => h) fun _ _ h => .inl h.toCarries) fun _ => ?_
  refine Spec.bind ((time_keeps none).weaken (fun _ h => h) (fun _ _ h => h) fun _ _ h => .inl h.toCarries) fun _ => ?_
  exact transmit_out meet.sending _

/-- The end of `respond`: it ends the exchange, the response is out all the same, or nothing is. -/
theorem respond_puts (meet : Meeting) (request : Request F) (result : Value F) (fds : List Descriptor) {raw : Framing.Bytes}
    (hraw : canonical fl (p.next (.str request.op) result fds).envelope replyLimit = .ok raw) :
    Spec (· = p) (SystemManager.respond fl intOf meet (asDict request) result fds)
      (fun _ => Done p (raw.length + 12 + 4 * fds.length) (p.next (.str request.op) result fds))
      (fun _ q => Carries p q ∨ Out p (raw.length + 12 + 4 * fds.length) (p.next (.str request.op) result fds) q) := by
  have hop : lookup (asDict request) "op" = some (.str request.op) := rfl
  have hsequence : lookup (asDict request) "sequence" = some (.int request.sequence) := rfl
  refine guarded_carries (fun q h => h.imp (·.poison) fun h => ⟨⟨h.sent, h.total⟩, h.sequence, h.pending⟩) ?_
  refine Spec.bind (channel_spec _) fun c => ?_
  rintro q ⟨rfl, rfl⟩
  simp only [hop, hsequence]
  refine (?_ : Spec (· = q) _ _ _) q rfl
  refine Spec.bind ((lift_spec (· = q) _).weaken (fun _ h => h) (fun _ _ h => h) fun _ _ h => .inl (h ▸ .refl _)) fun _ => ?_
  rintro _ ⟨rfl, hsame⟩
  rename_i q
  have hpending := pendingValue_same intOf (require_ok.mp hsame)
  rw [hpending]
  refine (?_ : Spec (· = q) _ _ _) q rfl
  refine Spec.bind (check_spec _ fun _ _ h => .inl (h ▸ .refl _)) fun _ => ?_
  refine Spec.bind (send_out fl meet _ result fds replyLimit hraw) fun _ => ?_
  exact Spec.update fun r h => ⟨⟨h.sent, h.total⟩, by rw [← h.sequence], rfl⟩

end

/-! ## The gateway's calls -/

/-- Within a call, `n` requests have been dispatched and nothing has been sent. -/
structure Quiet (n : Nat) (g g' : Gateway F) : Prop where
  party : Carries g.party g'.party
  ended : g'.ended = g.ended
  dispatched : g'.dispatched = g.dispatched + n
  wireBytes : g'.retiredWireBytes = g.retiredWireBytes
  calls : g'.retiredCalls = g.retiredCalls
  serving : g'.serving = g.serving
  turn : g'.turn = g.turn

theorem Quiet.refl (g : Gateway F) : Quiet 0 g g := ⟨.refl _, rfl, rfl, rfl, rfl, rfl, rfl⟩

theorem Quiet.trans {m n : Nat} {g g' g'' : Gateway F} (h : Quiet m g g') (h' : Quiet n g' g'') : Quiet (m + n) g g'' where
  party := h.party.trans h'.party
  ended := h'.ended.trans h.ended
  dispatched := by rw [h'.dispatched, h.dispatched, Nat.add_assoc]
  wireBytes := h'.wireBytes.trans h.wireBytes
  calls := h'.calls.trans h.calls
  serving := h'.serving.trans h.serving
  turn := h'.turn.trans h.turn

section

variable {g₀ : Gateway F} {n : Nat}

theorem give_spec {α : Type} (P : Gateway F → Prop) (x : Except Fault α) :
    Spec P (give x) (fun a g => P g ∧ x = .ok a) (fun _ => P) := by
  intro g hg
  cases x with
  | ok a => exact ⟨hg, rfl⟩
  | error fault => exact hg

theorem give_keeps {α : Type} {P : Gateway F → Prop} (x : Except Fault α) : Keeps P (give x) :=
  (give_spec P x).weaken (fun _ h => h) (fun _ _ h => h.1) fun _ _ h => h

theorem pass_keeps {P : Gateway F → Prop} (fault : Option Fault) : Keeps P (pass fault) := by
  cases fault with
  | none => exact Spec.ret fun _ h => h
  | some fault => exact Spec.raise fun _ h => h

/-- A method of the channel leaves the rest of the gateway as it is. -/
theorem onChannel_spec {α : Type} {m : SystemManager.Op F α} {Q : α → Party F → Prop} {E : Party F → Prop} {g : Gateway F}
    (h : Spec (· = g.party) m Q fun _ => E) :
    Spec (· = g) (onChannel m) (fun a g' => ∃ p, Q a p ∧ g' = { g with party := p }) (fun _ g' => ∃ p, E p ∧ g' = { g with party := p }) := by
  rintro _ rfl
  have hrun := h _ rfl
  rw [onChannel, from_bind_ok (from_get _)]
  rcases hm : m.from _ with ⟨r, p⟩
  rw [hm] at hrun
  rw [from_bind_ok (from_modify _ _)]
  cases r with
  | ok a => exact ⟨p, hrun, rfl⟩
  | error fault => exact ⟨p, hrun, rfl⟩

theorem time_quiet (now : Moment) : Keeps (Quiet n g₀) (time now) := by
  refine Spec.bind (pass_keeps _) fun _ => Spec.bind (Spec.read (Q := fun _ => Quiet n g₀) fun _ h => h) fun g => ?_
  refine Spec.bind (give_keeps _) fun _ => Spec.bind (give_keeps _) fun _ => Spec.bind (give_keeps _) fun _ => ?_
  intro g hg
  refine (onChannel_spec (time_keeps (P := (· = g.party)) now.channel)).weaken (fun _ h => h) ?_ ?_ g rfl
  · rintro _ _ ⟨p, rfl, rfl⟩
    exact hg
  · rintro _ _ ⟨p, rfl, rfl⟩
    exact hg

theorem recoveryTime_quiet (now : Moment) (late : Option Fault) : Keeps (Quiet n g₀) (recoveryTime now late) := by
  refine Spec.bind (time_quiet now) fun _ => Spec.bind (Spec.read (Q := fun _ => Quiet n g₀) fun _ h => h) fun g => ?_
  split
  · exact Spec.ret fun _ h => h
  · exact pass_keeps _

theorem checkRecovery_quiet (now : Moment) (late : Option Fault) : Keeps (Quiet n g₀) (checkRecovery now late) := by
  refine Spec.bind (Spec.read (Q := fun _ => Quiet n g₀) fun _ h => h) fun g => ?_
  split
  · exact recoveryTime_quiet now late
  · exact Spec.ret fun _ h => h

theorem Quiet.flags {g g' : Gateway F} (h : Quiet n g₀ g) (hparty : g'.party = g.party) (hended : g'.ended = g.ended)
    (hdispatched : g'.dispatched = g.dispatched) (hbytes : g'.retiredWireBytes = g.retiredWireBytes)
    (hcalls : g'.retiredCalls = g.retiredCalls) (hserving : g'.serving = g.serving) (hturn : g'.turn = g.turn) : Quiet n g₀ g' :=
  ⟨hparty ▸ h.party, hended.trans h.ended, hdispatched.trans h.dispatched, hbytes.trans h.wireBytes, hcalls.trans h.calls,
    hserving.trans h.serving, hturn.trans h.turn⟩

theorem perform_quiet (site : Site F) (op : String) (work : Work F) : Keeps (Quiet n g₀) (perform site op work) := by
  unfold perform
  split
  · exact Spec.bind (pass_keeps _) fun _ => Spec.ret fun _ h => h
  · refine Spec.bind (Q := fun _ => Quiet n g₀) (Spec.update fun _ h => h.flags rfl rfl rfl rfl rfl rfl rfl) fun _ => ?_
    refine Spec.bind (pass_keeps _) fun _ => ?_
    exact Spec.bind (Q := fun _ => Quiet n g₀) (Spec.update fun _ h => h.flags rfl rfl rfl rfl rfl rfl rfl) fun _ => Spec.ret fun _ h => h

/-- A dispatch that returns counts one; one that raises may have stopped at `_time`. -/
theorem dispatch_quiet (site : Site F) (env : Dispatching F) (request : Request F) :
    Spec (Quiet 0 g₀) (dispatch site env request) (fun _ => Quiet 1 g₀) (fun _ g => Quiet 0 g₀ g ∨ Quiet 1 g₀ g) := by
  refine Spec.bind ((time_quiet env.early).weaken (fun _ h => h) (fun _ _ h => h) fun _ _ h => .inl h) fun _ => ?_
  refine Spec.bind (Q := fun _ => Quiet 1 g₀) (Spec.update fun g h => ?_) fun _ => ?_
  · exact ⟨h.party, h.ended, congrArg (· + 1) h.dispatched, h.wireBytes, h.calls, h.serving, h.turn⟩
  refine Spec.weaken (P := Quiet 1 g₀) (E := fun _ => Quiet 1 g₀) ?_ (fun _ h => h) (fun _ _ h => h) fun _ _ h => .inr h
  refine Spec.bind (give_keeps _) fun _ => Spec.bind (Spec.read (Q := fun _ => Quiet 1 g₀) fun _ h => h) fun g => ?_
  refine Spec.bind (give_keeps _) fun _ => ?_
  split
  · exact Spec.bind (give_keeps _) fun _ => Spec.bind (recoveryTime_quiet _ _) fun _ => perform_quiet _ _ _
  · exact perform_quiet _ _ _

/-- A response has gone out within the wire limit. -/
structure Sends (g g' : Gateway F) : Prop where
  ended : g'.ended = g.ended
  dispatched : g'.dispatched = g.dispatched
  wireBytes : g'.retiredWireBytes = g.retiredWireBytes
  calls : g'.retiredCalls = g.retiredCalls
  room : g'.controlBytes + g'.retiredWireBytes + g'.party.channel.total ≤ wireLimit

/-- And its exchange goes on, or has ended. -/
structure Unended (g g' : Gateway F) : Prop extends Sends g g' where
  sequence : g'.party.channel.sequence = g.party.channel.sequence
  pending : g'.party.channel.pending = g.party.channel.pending

structure Answers (g g' : Gateway F) : Prop extends Sends g g' where
  sequence : g'.party.channel.sequence = g.party.channel.sequence + 1
  pending : g'.party.channel.pending = none

theorem Quiet.sends {g g' : Gateway F} (h : Quiet 0 g₀ g) (hs : Sends g g') : Sends g₀ g' :=
  ⟨hs.ended.trans h.ended, hs.dispatched.trans h.dispatched, hs.wireBytes.trans h.wireBytes, hs.calls.trans h.calls, hs.room⟩

/-- How a response ends that raises. -/
inductive Fails (g g' : Gateway F) : Prop where
  | quiet (h : Quiet 0 g g')
  | unended (h : Unended g g')
  | answers (h : Answers g g')

theorem Quiet.fails {g g' : Gateway F} (h : Quiet 0 g₀ g) (hf : Fails g g') : Fails g₀ g' := by
  cases hf with
  | quiet hq => exact .quiet (h.trans hq)
  | unended hu => exact .unended ⟨h.sends hu.toSends, hu.sequence.trans h.party.sequence, hu.pending.trans h.party.pending⟩
  | answers ha => exact .answers ⟨h.sends ha.toSends, ha.sequence.trans (congrArg (· + 1) h.party.sequence), ha.pending⟩

variable (fl : FloatText F) [DecidableEq F] (intOf : F → Option Int)

theorem respond_answers (meet : Meeting) (request : Request F) (result : Value F) (fds : List Descriptor) (g : Gateway F) :
    Spec (· = g) (respond fl intOf meet request result fds) (fun _ => Answers g) (fun _ => Fails g) := by
  have hquiet : ∀ g', g' = g → Fails g g' := fun g' h => .quiet (h ▸ .refl g)
  refine Spec.bind (Spec.read (Q := fun a g' => a = g ∧ g' = g) fun _ h => ⟨h, h⟩) fun a => ?_
  rintro _ ⟨rfl, rfl⟩
  rename_i g
  refine (?_ : Spec (· = g) _ _ _) g rfl
  refine Spec.bind ((give_spec (· = g) _).weaken (fun _ h => h) (fun _ _ h => h) fun _ g' h => hquiet g' h) fun weight => ?_
  rintro _ ⟨rfl, hweight⟩
  rename_i g
  obtain ⟨raw, hraw, hw⟩ := bind_ok.mp hweight
  cases hw
  refine (?_ : Spec (· = g) _ _ _) g rfl
  refine Spec.bind ((give_spec (· = g) _).weaken (fun _ h => h) (fun _ _ h => h) fun _ g' h => hquiet g' h) fun _ => ?_
  rintro _ ⟨rfl, hroom⟩
  rename_i g
  rw [require_ok, decide_eq_true_eq] at hroom
  refine (?_ : Spec (· = g) _ _ _) g rfl
  have hputs := onChannel_spec (respond_puts fl intOf meet request result fds hraw)
  have hput : ∀ p m, Put g.party (raw.length + 12 + 4 * fds.length) m p → Sends g { g with party := p } :=
    fun p m h => ⟨rfl, rfl, rfl, rfl, by rw [h.total, ← Nat.add_assoc]; exact hroom⟩
  refine Spec.bind (Q := fun _ => Answers g) (hputs.weaken (fun _ h => h) ?_ ?_) fun _ => ?_
  · rintro _ _ ⟨p, hdone, rfl⟩
    exact ⟨hput p _ hdone.toPut, hdone.sequence, hdone.pending⟩
  · rintro _ _ ⟨p, hcarries | hout, rfl⟩
    · exact .quiet ⟨hcarries, rfl, rfl, rfl, rfl, rfl, rfl⟩
    · exact .unended ⟨hput p _ hout.toPut, hout.sequence, hout.pending⟩
  split
  · refine Spec.bind (Spec.read (Q := fun _ => Answers g) fun _ h => h) fun g' => ?_
    refine Spec.bind ((give_keeps _).weaken (fun _ h => h) (fun _ _ h => h) fun _ _ h => .answers h) fun _ => ?_
    exact Spec.update fun g' h => ⟨⟨h.ended, h.dispatched, h.wireBytes, h.calls, h.room⟩, h.sequence, h.pending⟩
  · exact Spec.ret fun _ h => h

theorem answer_answers (now : Moment) (late : Option Fault) (meet : Meeting) (request : Request F) (result : Value F)
    (fds : List Descriptor) (g : Gateway F) :
    Spec (· = g) (answer fl intOf now late meet request result fds) (fun _ => Answers g) (fun _ => Fails g) := by
  refine Spec.bind (Q := fun _ => Quiet 0 g) ?_ fun _ => ?_
  · exact (checkRecovery_quiet now late).weaken (fun g' h => h ▸ .refl g) (fun _ _ h => h) fun _ _ h => .quiet h
  · intro g' hg'
    refine (respond_answers fl intOf meet request result fds g').weaken (fun _ h => h) (fun _ g'' h => ?_) (fun _ g'' h => hg'.fails h) g' rfl
    exact ⟨hg'.sends h.toSends, h.sequence.trans (congrArg (· + 1) hg'.party.sequence), h.pending⟩

end

/-! ## Rebinding -/

/-- The session goes on with nothing sent or dispatched, and no less is retired. -/
structure Stays (g g' : Gateway F) : Prop where
  party : Carries g.party g'.party
  ended : g'.ended = g.ended
  dispatched : g'.dispatched = g.dispatched
  wireBytes : g.retiredWireBytes ≤ g'.retiredWireBytes
  calls : g.retiredCalls ≤ g'.retiredCalls

theorem Stays.refl (g : Gateway F) : Stays g g := ⟨.refl _, rfl, rfl, Nat.le_refl _, Nat.le_refl _⟩

/-- A rebind that fails. -/
structure Stalls (g g' : Gateway F) : Prop extends Stays g g' where
  serving : g'.serving = g.serving
  turn : g'.turn = g.turn

theorem Stalls.refl (g : Gateway F) : Stalls g g := ⟨.refl g, rfl, rfl⟩

/-- A rebind that succeeds: the old channel is retired, a fresh one begins. -/
structure Rebinds (g g' : Gateway F) : Prop where
  sent : g'.party.sent = []
  sequence : g'.party.channel.sequence = 0
  total : g'.party.channel.total = 0
  pending : g'.party.channel.pending = none
  ended : ∃ c, g'.ended = g.ended ++ [c] ∧ c.sequence = g.party.channel.sequence ∧ c.pending = g.party.channel.pending ∧
    c.total = g.party.channel.total
  dispatched : g'.dispatched = g.dispatched
  wireBytes : g'.retiredWireBytes = g.retiredWireBytes + g.party.channel.total
  calls : g'.retiredCalls = g.retiredCalls + g.party.channel.sequence
  idle : g.serving = false
  serving : g'.serving = false
  turn : g'.turn = g.turn

theorem fresh_ok {channel : Channel} (h : fresh channel = true) : channel.sequence = 0 ∧ channel.total = 0 ∧ channel.pending = none := by
  simpa [fresh, and_assoc] using h

section

variable {g : Gateway F}

theorem rebindRecovery_rebinds (site : Site F) (env : Rebinding) (channel : Channel) (g : Gateway F) :
    Spec (· = g) (rebindRecovery site env channel) (fun _ => Rebinds g) (fun _ => Stalls g) := by
  have hstays : ∀ g', g' = g → Stalls g g' := fun g' h => h ▸ .refl g
  have hcheck (x : Except Fault Unit) : Spec (· = g) (give x) (fun _ g' => g' = g ∧ x = .ok ()) (fun _ => Stalls g) :=
    (give_spec (· = g) x).weaken (fun _ h => h) (fun _ _ h => h) fun _ g' h => hstays g' h
  refine Spec.bind (Spec.read (Q := fun a g' => a = g ∧ g' = g) fun _ h => ⟨h, h⟩) fun a => ?_
  rintro _ ⟨rfl, rfl⟩
  rename_i g
  refine (?_ : Spec (· = g) _ _ _) g rfl
  refine Spec.bind (hcheck _) fun _ => ?_
  rintro _ ⟨rfl, hstate⟩
  rename_i g
  simp only [require_ok, Bool.and_eq_true, Bool.not_eq_true', decide_eq_true_eq] at hstate
  refine (?_ : Spec (· = g) _ _ _) g rfl
  refine Spec.bind ((hcheck _).weaken (fun _ h => h) (fun _ _ h => h.1) fun _ _ h => h) fun _ => ?_
  refine Spec.bind (hcheck _) fun _ => ?_
  rintro _ ⟨rfl, hpeer⟩
  rename_i g
  simp only [require_ok, Bool.and_eq_true, decide_eq_true_eq] at hpeer
  obtain ⟨hseq, htotal, hpending⟩ := fresh_ok hpeer.1
  refine (?_ : Spec (· = g) _ _ _) g rfl
  refine Spec.bind ((pass_keeps (P := (· = g)) _).weaken (fun _ h => h) (fun _ _ h => h) fun _ g' h => hstays g' h) fun _ => ?_
  refine Spec.bind ((hcheck _).weaken (fun _ h => h) (fun _ _ h => h.1) fun _ _ h => h) fun _ => ?_
  -- From here on the counters have moved, whatever happens.
  let retired := { g with retiredWireBytes := g.retiredWireBytes + g.party.channel.total,
                          retiredCalls := g.retiredCalls + g.party.channel.sequence }
  have hmoved : Stalls g retired := ⟨⟨.refl _, rfl, rfl, Nat.le_add_right _ _, Nat.le_add_right _ _⟩, rfl, rfl⟩
  have hclosed : Stalls g retired.closeChannel :=
    ⟨⟨⟨rfl, rfl, rfl, rfl, Nat.le_refl _⟩, rfl, rfl, hmoved.wireBytes, hmoved.calls⟩, rfl, rfl⟩
  have hpass (fault : Option Fault) : Spec (· = retired.closeChannel) (pass fault) (fun _ => (· = retired.closeChannel)) (fun _ => Stalls g) :=
    (pass_keeps _).weaken (fun _ h => h) (fun _ _ h => h) fun _ g' h => h ▸ hclosed
  refine Spec.bind (Q := fun _ => (· = retired)) (Spec.update fun g' h => by rw [h]) fun _ => ?_
  refine Spec.bind (Spec.read (Q := fun _ => (· = retired)) fun _ h => h) fun a => ?_
  refine Spec.bind ((give_keeps (P := (· = retired)) _).weaken (fun _ h => h) (fun _ _ h => h) fun _ g' h => h ▸ hmoved) fun _ => ?_
  refine Spec.bind (Q := fun _ => (· = retired.closeChannel)) (Spec.update fun g' h => by rw [h]) fun _ => ?_
  refine Spec.bind (hpass _) fun _ => Spec.bind (hpass _) fun _ => Spec.update fun g' h => ?_
  rw [h]
  exact ⟨rfl, hseq, htotal, hpending, ⟨_, rfl, rfl, rfl, rfl⟩, rfl, rfl, rfl, hstate.1.1.1.1.1.2, hstate.1.1.1.1.1.2, rfl⟩

theorem rebindServiceRecovery_rebinds (env : Rebinding) (channel : Channel) (g : Gateway F) :
    Spec (· = g) (rebindServiceRecovery env channel) (fun _ => Rebinds g) (fun _ => Stalls g) := by
  have hstays : ∀ g', g' = g → Stalls g g' := fun g' h => h ▸ .refl g
  have hcheck (x : Except Fault Unit) : Spec (· = g) (give x) (fun _ g' => g' = g ∧ x = .ok ()) (fun _ => Stalls g) :=
    (give_spec (· = g) x).weaken (fun _ h => h) (fun _ _ h => h) fun _ g' h => hstays g' h
  have hpass (fault : Option Fault) : Spec (· = g) (pass fault) (fun _ => (· = g)) (fun _ => Stalls g) :=
    (pass_keeps _).weaken (fun _ h => h) (fun _ _ h => h) fun _ g' h => hstays g' h
  have hservice : Spec (· = g) (checkServiceRecovery env) (fun _ g' => g' = g ∧ g.serving = false) (fun _ => Stalls g) := by
    refine Spec.bind (Spec.read (Q := fun a g' => a = g ∧ g' = g) fun _ h => ⟨h, h⟩) fun a => ?_
    rintro _ ⟨rfl, rfl⟩
    rename_i g
    refine (?_ : Spec (· = g) _ _ _) g rfl
    refine Spec.bind (hcheck _) fun _ => ?_
    rintro _ ⟨rfl, hstate⟩
    rename_i g
    simp only [require_ok, Bool.and_eq_true, Bool.not_eq_true', decide_eq_true_eq] at hstate
    refine (?_ : Spec (· = g) _ _ _) g rfl
    refine Spec.bind ((hcheck _).weaken (fun _ h => h) (fun _ _ h => h.1) fun _ _ h => h) fun _ => ?_
    refine Spec.bind ((hcheck _).weaken (fun _ h => h) (fun _ _ h => h.1) fun _ _ h => h) fun _ => ?_
    exact (hpass _).weaken (fun _ h => h) (fun _ _ h => ⟨h, hstate.1.1.2⟩) fun _ _ h => h
  refine Spec.bind hservice fun _ => ?_
  rintro _ ⟨rfl, hserving⟩
  rename_i g
  refine (?_ : Spec (· = g) _ _ _) g rfl
  refine Spec.bind (Spec.read (Q := fun a g' => a = g ∧ g' = g) fun _ h => ⟨h, h⟩) fun a => ?_
  rintro _ ⟨rfl, rfl⟩
  rename_i g
  refine (?_ : Spec (· = g) _ _ _) g rfl
  refine Spec.bind (hcheck _) fun _ => ?_
  rintro _ ⟨rfl, hpeer⟩
  rename_i g
  simp only [require_ok, Bool.and_eq_true, decide_eq_true_eq] at hpeer
  obtain ⟨hseq, htotal, hpending⟩ := fresh_ok hpeer.1
  refine (?_ : Spec (· = g) _ _ _) g rfl
  refine Spec.bind (hpass _) fun _ => ?_
  have hclosed : Stalls g g.closeChannel := ⟨⟨⟨rfl, rfl, rfl, rfl, Nat.le_refl _⟩, rfl, rfl, Nat.le_refl _, Nat.le_refl _⟩, rfl, rfl⟩
  refine Spec.bind (Q := fun _ => (· = g.closeChannel)) (Spec.update fun g' h => by rw [h]) fun _ => ?_
  refine Spec.bind ((pass_keeps (P := (· = g.closeChannel)) _).weaken (fun _ h => h) (fun _ _ h => h) fun _ g' h => h ▸ hclosed) fun _ => ?_
  refine Spec.update fun g' h => ?_
  rw [h]
  exact ⟨rfl, hseq, htotal, hpending, ⟨_, rfl, rfl, rfl, rfl⟩, rfl, rfl, rfl, hserving, hserving, rfl⟩

end

/-! ## Steps -/

/-- A request waits to be dispatched. -/
def Turn.isReceived : Turn F → Bool
  | .received _ => true
  | _ => false

/-- A request has been taken from the channel. -/
structure Takes (g g' : Gateway F) : Prop where
  request : ∃ request, Took g.party request g'.party
  ended : g'.ended = g.ended
  dispatched : g'.dispatched = g.dispatched
  wireBytes : g'.retiredWireBytes = g.retiredWireBytes
  calls : g'.retiredCalls = g.retiredCalls
  serving : g'.serving = true

/-- A step that may dispatch. -/
def Label.isDispatch : Label F → Bool
  | .dispatch _ => true
  | _ => false

/-- What a step does to the counters. -/
inductive Moved (dispatching : Bool) (g g' : Gateway F) : Prop where
  | stays (h : Stays g g') (hturn : g'.turn.isReceived = true → g.turn.isReceived = true ∧ (g.serving = true → g'.serving = true))
  | takes (h : Takes g g')
  | dispatches (hd : dispatching = true) (h : Quiet 1 g { g' with turn := g.turn }) (hbefore : g.turn.isReceived = true) (hturn : g'.turn.isReceived = false)
  | sends (h : Unended g g') (hturn : g'.turn.isReceived = false)
  | answers (h : Answers g g') (hturn : g'.turn.isReceived = false)
  | rebinds (h : Rebinds g g')

variable {d : Bool}

theorem Quiet.stays {g g' : Gateway F} (h : Quiet 0 g g') : Stays g g' :=
  ⟨h.party, h.ended, h.dispatched, h.wireBytes.ge, h.calls.ge⟩

theorem Stalls.moved {g g' : Gateway F} (h : Stalls g g') : Moved d g g' :=
  .stays h.toStays fun hturn => ⟨h.turn ▸ hturn, fun hs => h.serving.trans hs⟩

/-- The session goes on as it is. -/
theorem Moved.refl (g : Gateway F) : Moved d g g := (Stalls.refl g).moved

theorem Quiet.moved {g g' : Gateway F} (h : Quiet 0 g g') : Moved d g g' :=
  .stays h.stays fun hturn => ⟨h.turn ▸ hturn, fun hs => h.serving.trans hs⟩

theorem Stays.fail {g g' : Gateway F} (h : Stays g g') (fault : Fault) : Stays g (g'.fail fault) :=
  ⟨h.party.poison, h.ended, h.dispatched, h.wireBytes, h.calls⟩

theorem Stays.failed {g g' : Gateway F} (h : Stays g g') (fault : Fault) : Moved d g (g'.fail fault) :=
  .stays (h.fail fault) nofun

theorem Sends.fail {g g' : Gateway F} (h : Sends g g') (fault : Fault) : Sends g (g'.fail fault) :=
  ⟨h.ended, h.dispatched, h.wireBytes, h.calls, h.room⟩

theorem Answers.failed {g g' : Gateway F} (h : Answers g g') (fault : Fault) : Moved d g (g'.fail fault) :=
  .answers ⟨h.toSends.fail fault, h.sequence, h.pending⟩ rfl

theorem Fails.failed {g g' : Gateway F} (h : Fails g g') (fault : Fault) : Moved d g (g'.fail fault) := by
  cases h with
  | quiet h => exact h.stays.failed fault
  | unended h => exact .sends ⟨h.toSends.fail fault, h.sequence, h.pending⟩ rfl
  | answers h => exact h.failed fault

/-- A call in `serve`, by what it does when it returns and when it raises. -/
theorem serve_moved {α : Type} {g : Gateway F} {m : Act F α} {k : Gateway F → α → Gateway F} {Q : α → Gateway F → Prop}
    {E : Gateway F → Prop} (h : Spec (· = g) m Q fun _ => E) (hok : ∀ a g', Q a g' → Moved d g (k g' a))
    (herror : ∀ fault g', E g' → Moved d g (g'.fail fault)) : Moved d g (g.serve m k) := by
  have hrun := h g rfl
  unfold Gateway.serve
  rcases hm : m.from g with ⟨r, g'⟩
  rw [hm] at hrun
  cases r with
  | ok a => exact hok a g' hrun
  | error fault => exact herror fault g' hrun

theorem waiting_of_listens {g : Gateway F} (h : g.listens = true) : g.turn = .waiting ∧ g.serving = true := by
  unfold Gateway.listens at h
  split at h
  · next hturn => exact ⟨hturn, by simp only [Bool.and_eq_true] at h; exact h.1.1⟩
  · cases h

theorem leave_moved {g : Gateway F} (hturn : g.turn = .waiting) (phasesClosed : Bool) : Moved d g (g.leave phasesClosed) := by
  have hstops : Moved d g { g with serving := false } :=
    .stays ⟨.refl _, rfl, rfl, Nat.le_refl _, Nat.le_refl _⟩ fun h => by simp [hturn, Turn.isReceived] at h
  unfold Gateway.leave
  split
  · exact hstops
  · split
    · split
      · exact hstops
      · exact (Stays.refl g).failed _
    · exact .refl g

section

variable (fl : FloatText F) [DecidableEq F] (intOf : F → Option Int) (site : Site F)

theorem step_moved (g : Gateway F) (label : Label F) : Moved label.isDispatch g (step fl intOf site g label) := by
  cases label with
  | enter =>
    rw [step]
    split
    · exact .stays ⟨.refl _, rfl, rfl, Nat.le_refl _, Nat.le_refl _⟩ fun h => ⟨h, fun _ => rfl⟩
    · exact .refl g
  | idle now =>
    rw [step]
    split
    · have htime : Keeps (Quiet 0 g) (time now) := time_quiet now
      refine serve_moved (htime.pre fun g' h => h ▸ .refl g) ?_ ?_
      · exact fun _ g' h => h.moved
      · exact fun fault g' h => h.stays.failed fault
    · exact .refl g
  | receive meet peer =>
    rw [step]
    split
    · next hlistens =>
      obtain ⟨hturn, hserving⟩ := waiting_of_listens hlistens
      refine serve_moved (onChannel_spec ((receiveRequest_took (p := g.party) fl meet peer).pre fun p h => h ▸ .refl g.party)) ?_ ?_
      · rintro request _ ⟨p, htook, rfl⟩
        exact .takes ⟨⟨request, htook⟩, rfl, rfl, rfl, rfl, hserving⟩
      · rintro fault _ ⟨p, hcarries, rfl⟩
        have hstays : Stays g { g with party := p } := ⟨hcarries, rfl, rfl, Nat.le_refl _, Nat.le_refl _⟩
        exact hstays.failed fault
    · exact .refl g
  | dispatch env =>
    rw [step]
    split
    · next request hturn =>
      have hbefore : g.turn.isReceived = true := by rw [hturn]; rfl
      have hrefl : Quiet 0 g g := .refl g
      have hrun := dispatch_quiet site env request g hrefl
      rcases hm : (dispatch site env request).from g with ⟨r, g'⟩
      rw [hm] at hrun
      cases r with
      | ok out => exact .dispatches rfl ⟨hrun.party, hrun.ended, hrun.dispatched, hrun.wireBytes, hrun.calls, hrun.serving, rfl⟩ hbefore rfl
      | error fault =>
        obtain hquiet | hquiet := hrun
        · exact .stays ⟨hquiet.party, hquiet.ended, hquiet.dispatched, hquiet.wireBytes.ge, hquiet.calls.ge⟩ nofun
        · exact .dispatches rfl ⟨hquiet.party, hquiet.ended, hquiet.dispatched, hquiet.wireBytes, hquiet.calls, hquiet.serving, rfl⟩ hbefore rfl
    · exact .refl g
  | respond now late meet =>
    rw [step]
    split
    · refine serve_moved (answer_answers fl intOf now late meet _ _ _ g) ?_ fun fault g' h => h.failed fault
      exact fun _ g' h => .answers ⟨⟨h.ended, h.dispatched, h.wireBytes, h.calls, h.room⟩, h.sequence, h.pending⟩ rfl
    · exact serve_moved (respond_answers fl intOf meet _ _ _ g) (fun _ g' h => h.failed _) fun fault g' h => h.failed fault
    · exact .refl g
  | leave phasesClosed =>
    rw [step]
    split
    · next hturn =>
      split
      · exact leave_moved hturn phasesClosed
      · exact .refl g
    · exact .refl g
  | rebindRecovery env channel =>
    have hrun := rebindRecovery_rebinds site env channel g g rfl
    rw [step]
    rcases hm : (rebindRecovery site env channel).from g with ⟨r, g'⟩
    rw [hm] at hrun
    cases r with
    | ok _ => exact .rebinds hrun
    | error fault => exact hrun.moved
  | rebindServiceRecovery env channel =>
    have hrun := rebindServiceRecovery_rebinds env channel g g rfl
    rw [step]
    rcases hm : (rebindServiceRecovery env channel).from g with ⟨r, g'⟩
    rw [hm] at hrun
    cases r with
    | ok _ => exact .rebinds hrun
    | error fault => exact hrun.moved
  | close =>
    rw [step]
    exact .stays ⟨(Carries.refl _).poison, rfl, rfl, Nat.le_refl _, Nat.le_refl _⟩ fun h => ⟨h, id⟩

end

/-! ## Runs -/

/-- The exchanges of a session that has ended, and the request it left unanswered. -/
def calls (c : Channel) : Nat := c.sequence + if c.pending.isSome then 1 else 0

/-- The calls of the sessions that have ended. -/
def Gateway.endedCalls (g : Gateway F) : Nat := (g.ended.map calls).sum

/-- The calls that may have been dispatched. -/
def Gateway.taken (g : Gateway F) : Nat :=
  g.endedCalls + if g.turn.isReceived then g.party.channel.sequence else calls g.party.channel

/-- The wire bytes of all sessions. -/
def Gateway.wireBytes (g : Gateway F) : Nat := (g.ended.map Channel.total).sum + g.party.channel.total

structure Sound (g : Gateway F) : Prop where
  calls : g.dispatched ≤ g.taken
  received : g.turn.isReceived = true → g.serving = true ∧ g.party.channel.pending.isSome = true
  below : g.ended = [] → g.turn.isReceived = true → g.party.channel.sequence < callLimit
  wireBytes : (g.ended.map Channel.total).sum ≤ g.retiredWireBytes
  retired : (g.ended.map Channel.sequence).sum ≤ g.retiredCalls

/-- What a step does to the bytes and to the retired counters. -/
structure Accounted (g g' : Gateway F) : Prop where
  room : ∀ m, g'.party.sent = g.party.sent ++ [m] → g'.controlBytes + g'.wireBytes ≤ wireLimit
  bytes : g.retiredWireBytes ≤ g'.retiredWireBytes
  calls : g.retiredCalls ≤ g'.retiredCalls

/-- A rebound session dispatches a request while there is room for it. -/
def Counted (g : Gateway F) : Label F → Prop
  | .dispatch _ => g.turn.isReceived = true → g.ended ≠ [] → g.endedCalls + g.party.channel.sequence < callLimit
  | _ => True

theorem calls_of_idle {c : Channel} (h : c.pending = none) : calls c = c.sequence := by simp [calls, h]

theorem calls_of_pending {c : Channel} (h : c.pending.isSome = true) : calls c = c.sequence + 1 := by simp [calls, h]

theorem sequence_le_calls (c : Channel) : c.sequence ≤ calls c := Nat.le_add_right _ _

theorem taken_of_waiting {g : Gateway F} (h : g.turn.isReceived = false) : g.taken = g.endedCalls + calls g.party.channel := by
  simp [Gateway.taken, h]

theorem taken_of_received {g : Gateway F} (h : g.turn.isReceived = true) : g.taken = g.endedCalls + g.party.channel.sequence := by
  simp [Gateway.taken, h]

theorem taken_le (g : Gateway F) : g.taken ≤ g.endedCalls + calls g.party.channel := by
  have hle := sequence_le_calls g.party.channel
  unfold Gateway.taken
  split <;> omega

theorem Moved.accounted {g g' : Gateway F} (h : Moved d g g') (hg : Sound g) : Accounted g g' := by
  have hsame {l : List (Message F)} (hl : l = g.party.sent) : ∀ m, l = g.party.sent ++ [m] → g'.controlBytes + g'.wireBytes ≤ wireLimit :=
    fun m hm => by simp [hl] at hm
  have hroom (h : Sends g g') : g'.controlBytes + g'.wireBytes ≤ wireLimit := by
    have hbytes := hg.wireBytes
    have hlimit := h.room
    rw [h.wireBytes] at hlimit
    rw [Gateway.wireBytes, h.ended]
    omega
  cases h with
  | stays h hturn => exact ⟨hsame h.party.sent, h.wireBytes, h.calls⟩
  | takes h =>
    obtain ⟨request, htook⟩ := h.request
    exact ⟨hsame htook.sent, h.wireBytes.ge, h.calls.ge⟩
  | dispatches hd h hbefore hturn => exact ⟨hsame h.party.sent, h.wireBytes.ge, h.calls.ge⟩
  | sends h hturn => exact ⟨fun _ _ => hroom h.toSends, h.wireBytes.ge, h.calls.ge⟩
  | answers h hturn => exact ⟨fun _ _ => hroom h.toSends, h.wireBytes.ge, h.calls.ge⟩
  | rebinds h =>
    refine ⟨fun m hm => by simp [h.sent] at hm, ?_, ?_⟩
    · rw [h.wireBytes]
      exact Nat.le_add_right _ _
    · rw [h.calls]
      exact Nat.le_add_right _ _

/-- The bounds on the retired counters, of a session that goes on. -/
theorem Sound.retire {g g' : Gateway F} (h : Sound g) (hended : g'.ended = g.ended) (hbytes : g.retiredWireBytes ≤ g'.retiredWireBytes)
    (hcalls : g.retiredCalls ≤ g'.retiredCalls) :
    (g'.ended.map Channel.total).sum ≤ g'.retiredWireBytes ∧ (g'.ended.map Channel.sequence).sum ≤ g'.retiredCalls := by
  rw [hended]
  exact ⟨h.wireBytes.trans hbytes, h.retired.trans hcalls⟩

theorem endedCalls_congr {g g' : Gateway F} (h : g'.ended = g.ended) : g'.endedCalls = g.endedCalls := by
  rw [Gateway.endedCalls, h, Gateway.endedCalls]

theorem Moved.sound {g g' : Gateway F} (h : Moved d g g') (hg : Sound g) : Sound g' := by
  have hcalls := hg.calls
  have hle := taken_le g
  cases h with
  | stays h hturn =>
    obtain ⟨hbytes, hretired⟩ := hg.retire h.ended h.wireBytes h.calls
    have hsame : calls g'.party.channel = calls g.party.channel := by rw [calls, h.party.sequence, h.party.pending, calls]
    refine ⟨?_, fun hr => ?_, fun hended hr => ?_, hbytes, hretired⟩
    · rw [h.dispatched]
      cases hr : g'.turn.isReceived with
      | true =>
        rw [taken_of_received (hturn hr).1] at hcalls
        rw [taken_of_received hr, endedCalls_congr h.ended, h.party.sequence]
        exact hcalls
      | false =>
        rw [taken_of_waiting hr, endedCalls_congr h.ended, hsame]
        exact hcalls.trans hle
    · obtain ⟨hr, hserving⟩ := hturn hr
      obtain ⟨hserves, hpending⟩ := hg.received hr
      exact ⟨hserving hserves, h.party.pending ▸ hpending⟩
    · rw [h.party.sequence]
      exact hg.below (h.ended ▸ hended) (hturn hr).1
  | takes h =>
    obtain ⟨request, htook⟩ := h.request
    obtain ⟨hbytes, hretired⟩ := hg.retire h.ended h.wireBytes.ge h.calls.ge
    have hpending : g'.party.channel.pending.isSome = true := by rw [htook.pending]; rfl
    refine ⟨?_, fun _ => ⟨h.serving, hpending⟩, fun _ _ => htook.sequence ▸ htook.below, hbytes, hretired⟩
    rw [calls_of_idle htook.idle] at hle
    have hseq := sequence_le_calls g'.party.channel
    rw [htook.sequence] at hseq
    rw [h.dispatched, Gateway.taken, endedCalls_congr h.ended, htook.sequence]
    split <;> omega
  | dispatches hd h hbefore hturn =>
    obtain ⟨hbytes, hretired⟩ := hg.retire h.ended h.wireBytes.ge h.calls.ge
    refine ⟨?_, fun hr => by simp [hturn] at hr, fun _ hr => by simp [hturn] at hr, hbytes, hretired⟩
    obtain ⟨-, hpending⟩ := hg.received hbefore
    have hdispatched : g'.dispatched = g.dispatched + 1 := h.dispatched
    have hended : g'.ended = g.ended := h.ended
    have hparty : calls g'.party.channel = calls g.party.channel := by rw [calls, h.party.sequence, h.party.pending, calls]
    rw [taken_of_received hbefore] at hcalls
    rw [hdispatched, taken_of_waiting hturn, endedCalls_congr hended, hparty, calls_of_pending hpending]
    omega
  | sends h hturn =>
    obtain ⟨hbytes, hretired⟩ := hg.retire h.ended h.wireBytes.ge h.calls.ge
    refine ⟨?_, fun hr => by simp [hturn] at hr, fun _ hr => by simp [hturn] at hr, hbytes, hretired⟩
    rw [h.dispatched, taken_of_waiting hturn, endedCalls_congr h.ended, calls, h.sequence, h.pending]
    exact hcalls.trans hle
  | answers h hturn =>
    obtain ⟨hbytes, hretired⟩ := hg.retire h.ended h.wireBytes.ge h.calls.ge
    refine ⟨?_, fun hr => by simp [hturn] at hr, fun _ hr => by simp [hturn] at hr, hbytes, hretired⟩
    have hone : calls g.party.channel ≤ g.party.channel.sequence + 1 := by
      unfold calls
      split <;> omega
    rw [h.dispatched, taken_of_waiting hturn, endedCalls_congr h.ended, calls_of_idle h.pending, h.sequence]
    omega
  | rebinds h =>
    obtain ⟨c, hended, hseq, hpending, htotal⟩ := h.ended
    have hidle : g'.turn.isReceived = false := by
      rw [h.turn, Bool.eq_false_iff]
      intro hr
      exact absurd (hg.received hr).1 (by simp [h.idle])
    refine ⟨?_, fun hr => by simp [hidle] at hr, fun _ hr => by simp [hidle] at hr, ?_, ?_⟩
    · have hc : calls c = calls g.party.channel := by rw [calls, hseq, hpending, calls]
      rw [h.dispatched, taken_of_waiting hidle, Gateway.endedCalls, hended, List.map_append, List.sum_append, List.map_singleton,
        List.sum_singleton, hc]
      exact hcalls.trans (hle.trans (Nat.le_add_right _ _))
    · rw [hended, h.wireBytes, List.map_append, List.sum_append, List.map_singleton, List.sum_singleton, htotal]
      exact Nat.add_le_add_right hg.wireBytes _
    · rw [hended, h.calls, List.map_append, List.sum_append, List.map_singleton, List.sum_singleton, hseq]
      exact Nat.add_le_add_right hg.retired _

theorem made_sound (channel : Channel) : Sound (made channel : Gateway F) :=
  ⟨Nat.zero_le _, nofun, fun _ => nofun, Nat.le_refl _, Nat.le_refl _⟩

/-- A failed rebind's sums. -/
structure Retains (g g' : Gateway F) : Prop where
  bytes : g.retiredWireBytes + g.party.channel.total ≤ g'.retiredWireBytes + g'.party.channel.total
  calls : g.retiredCalls + g.party.channel.sequence ≤ g'.retiredCalls + g'.party.channel.sequence

theorem Stays.retains {g g' : Gateway F} (h : Stays g g') : Retains g g' :=
  ⟨Nat.add_le_add h.wireBytes h.party.total, Nat.add_le_add h.calls h.party.sequence.ge⟩

section

variable (fl : FloatText F) [DecidableEq F] (intOf : F → Option Int) (site : Site F)

theorem run_sound (channel : Channel) (labels : List (Label F)) :
    Sound (Machine.exec (step fl intOf site) (made channel) labels) :=
  Machine.exec_inv (I := Sound) (fun g label h => (step_moved fl intOf site g label).sound h) (made_sound channel)

omit [DecidableEq F] in
theorem dispatch_of {label : Label F} (h : label.isDispatch = true) : ∃ env, label = .dispatch env := by
  cases label with
  | dispatch env => exact ⟨env, rfl⟩
  | _ => cases h

/-- A dispatch that is counted stays within the limit. -/
theorem counted_step {g : Gateway F} {label : Label F} (hg : Sound g ∧ g.dispatched ≤ callLimit) (hcounted : Counted g label) :
    Sound (step fl intOf site g label) ∧ (step fl intOf site g label).dispatched ≤ callLimit := by
  have hmoved := step_moved fl intOf site g label
  refine ⟨hmoved.sound hg.1, ?_⟩
  cases hmoved with
  | stays h hturn => exact h.dispatched ▸ hg.2
  | takes h => exact h.dispatched ▸ hg.2
  | dispatches hd h hbefore hturn =>
    obtain ⟨env, rfl⟩ := dispatch_of hd
    have hdispatched : (step fl intOf site g (.dispatch env)).dispatched = g.dispatched + 1 := h.dispatched
    have hcalls := hg.1.calls
    rw [taken_of_received hbefore] at hcalls
    have hroom : g.endedCalls + g.party.channel.sequence < callLimit := by
      by_cases hended : g.ended = []
      · rw [Gateway.endedCalls, hended, List.map_nil, List.sum_nil, Nat.zero_add]
        exact hg.1.below hended hbefore
      · exact hcounted hbefore hended
    omega
  | sends h hturn => exact h.dispatched ▸ hg.2
  | answers h hturn => exact h.dispatched ▸ hg.2
  | rebinds h => exact h.dispatched ▸ hg.2

end

/-! ## A run beyond the call limit -/

section

variable (fl : FloatText F)

theorem channel_from (p : Party F) : SystemManager.channel.from p = (.ok p.channel, p) := rfl

theorem lift_from {α : Type} (a : α) (p : Party F) : (lift (.ok a) : SystemManager.Op F α).from p = (.ok a, p) := rfl

theorem time_from {p : Party F} (h : p.channel.poisoned = false) : (SystemManager.time none : SystemManager.Op F Unit).from p = (.ok (), p) := by
  have hcheck : require (!p.channel.poisoned) (quotaError "SYSTEM_CHANNEL_UNAVAILABLE") = .ok () := by rw [require_ok, h]; rfl
  rw [SystemManager.time, from_bind_ok (channel_from p), hcheck, from_bind_ok (lift_from _ _)]
  rfl

/-- The party after a charge. -/
def charged (p : Party F) (weight : Nat) : Party F := { p with channel := { p.channel with total := p.channel.total + weight } }

theorem charge_from {p : Party F} {raw : Framing.Bytes} (h : p.channel.total + (raw.length + 12) ≤ wireLimit) :
    (charge raw [] : SystemManager.Op F Unit).from p = (.ok (), charged p (raw.length + 12)) := by
  have hupdate : (update fun c => { c with total := c.total + (raw.length + 12 + 4 * ([] : List Descriptor).length) } : SystemManager.Op F Unit).from p =
      (.ok (), charged p (raw.length + 12)) := rfl
  have hcheck : require (decide ((charged p (raw.length + 12)).channel.total ≤ wireLimit)) (quotaError "SYSTEM_WIRE_LIMIT") = .ok () := by
    rw [require_ok, decide_eq_true_eq]
    exact h
  rw [charge, from_bind_ok hupdate, from_bind_ok (channel_from _), hcheck]
  rfl

/-- A channel that waits for a request. -/
structure Idle (p : Party F) : Prop where
  live : p.channel.poisoned = false
  pending : p.channel.pending = none
  below : p.channel.sequence < callLimit

/-- A message that reads back. -/
structure Reads (m : Message F) (limit : Nat) : Prop where
  load : load fl (wire fl m.envelope) limit 12 = .ok m.envelope
  length : (wire fl m.envelope).length ≤ limit

/-- What the peer and the socket do when nothing goes wrong. -/
def through : Meeting := ⟨none, .done, .message 0, none⟩

theorem checkOrder_next (p : Party F) {op : String} (hop : ops.contains op = true) (fields : List (String × Value F)) :
    checkOrder p.channel none (p.next (.str op) (.obj fields) []).envelope = .ok (op, fields) := by
  have hare : keysAre [("body", (.obj fields : Value F)), ("op", .str op), ("schema", .str schema), ("sequence", .int p.channel.sequence),
      ("session_id", .str p.channel.session)] ["schema", "session_id", "sequence", "op", "body"] = true := rfl
  have hkeys : keys (p.next (.str op) (.obj fields) []).envelope ["schema", "session_id", "sequence", "op", "body"] =
      .ok [("body", .obj fields), ("op", .str op), ("schema", .str schema), ("sequence", .int p.channel.sequence),
        ("session_id", .str p.channel.session)] :=
    if_pos (e := .error (quotaError "FIELDS")) hare
  have hsession : isOneOf (.str p.channel.session : Value F) [p.channel.session] = true := by simp [isOneOf]
  simp only [checkOrder, hkeys]
  show (require (isOneOf (.str schema : Value F) [schema] && isOneOf (.str p.channel.session : Value F) [p.channel.session]) _ >>= fun _ =>
    require (decide ((p.channel.sequence : Int) = p.channel.sequence) && ops.contains op && ((none : Option String).isNone || decide (none = some op))) _ >>= fun _ =>
      Except.ok (op, fields)) = .ok (op, fields)
  rw [hsession, hop]
  simp [isOneOf, require, bind, Except.bind]

/-- A whole message of the peer's is received. -/
theorem receive_from {p : Party F} (hlive : p.channel.poisoned = false) {op : String} (hop : ops.contains op = true)
    (hreads : Reads fl (p.next (.str op) (.obj []) []) requestLimit)
    (hroom : p.channel.total + ((wire fl (p.next (.str op) (.obj []) []).envelope).length + 12) ≤ wireLimit) :
    (receive fl through [p.next (.str op) (.obj []) []] requestLimit none).from p =
      (.ok (op, [], []), charged p ((wire fl (p.next (.str op) (.obj []) []).envelope).length + 12)) := by
  obtain ⟨hload, hlength⟩ := hreads
  have horder := checkOrder_next (charged p ((wire fl (p.next (.str op) (.obj []) []).envelope).length + 12)) hop []
  have hnext (w : Nat) : (charged p w).next (.str op) (.obj []) [] = p.next (.str op) (.obj []) [] := rfl
  rw [hnext] at horder
  have hpos : 0 < (wire fl (p.next (.str op) (.obj []) []).envelope).length := wire_pos _
  generalize hraw : wire fl (p.next (.str op) (.obj []) []).envelope = raw at hroom hload hlength hpos horder ⊢
  have hdeliver : through.arrival.deliver fl requestLimit [p.next (.str op) (.obj []) []] = .ok ⟨raw, true, false, false, []⟩ := by
    have htake : raw.take requestLimit = raw := List.take_of_length_le hlength
    have hwhole : decide (requestLimit < raw.length) = false := decide_eq_false (Nat.not_lt.mpr hlength)
    simp only [through, Arrival.deliver, List.getElem?_cons_zero, hraw, htake, hwhole]
    rfl
  have hwhole : require (decide (raw ≠ []) && !false && !false && true) (quotaError "SYSTEM_PACKET_IDENTITY") = .ok () := by
    rw [require_ok]
    simpa using List.length_pos_iff.mp hpos
  rw [receive, from_bind_ok (time_from hlive), hdeliver, from_bind_ok (lift_from _ _), hwhole, from_bind_ok (lift_from _ _),
    from_bind_ok (charge_from hroom), hload, from_bind_ok (lift_from _ _), from_bind_ok (channel_from _), horder, from_bind_ok (lift_from _ _)]
  have hrights (q : Party F) : (lift (require (decide (([] : List Descriptor).length = expectedRights requestLimit none ([] : List (String × Value F))))
      (quotaError "SYSTEM_FD_COUNT")) : SystemManager.Op F Unit).from q = (.ok (), q) := rfl
  have hpins (q : Party F) : (lift (pins []) : SystemManager.Op F Unit).from q = (.ok (), q) := rfl
  have hlate (q : Party F) (hq : q.channel.poisoned = false) : (SystemManager.time through.late : SystemManager.Op F Unit).from q = (.ok (), q) :=
    time_from hq
  exact (from_bind_ok (hrights _)).trans ((from_bind_ok (hpins _)).trans ((from_bind_ok (hlate (charged p _) hlive)).trans rfl))

/-- A request without a body is taken. -/
theorem receiveRequest_from {p : Party F} (hidle : Idle p) {op : String} (hop : ops.contains op = true)
    (hbody : requestBody op (.obj [] : Value F) = .ok ()) (hreads : Reads fl (p.next (.str op) (.obj []) []) requestLimit)
    (hroom : p.channel.total + ((wire fl (p.next (.str op) (.obj []) []).envelope).length + 12) ≤ wireLimit) :
    (receiveRequest fl through [p.next (.str op) (.obj []) []]).from p =
      (.ok ⟨p.channel.sequence, op, .obj []⟩,
        ⟨{ p.channel with total := p.channel.total + ((wire fl (p.next (.str op) (.obj []) []).envelope).length + 12), pending := some op }, p.sent⟩) := by
  have hcheck : require (p.channel.pending.isNone && decide (p.channel.sequence < callLimit)) (quotaError "SYSTEM_CALL_LIMIT") = .ok () := by
    rw [require_ok, hidle.pending, Bool.and_eq_true, decide_eq_true_eq]
    exact ⟨rfl, hidle.below⟩
  have hwaits : (idle through : SystemManager.Op F Unit).from p = (.ok (), p) := by
    have htime : (SystemManager.time through.early : SystemManager.Op F Unit).from p = (.ok (), p) := time_from hidle.live
    rw [idle, from_bind_ok htime, from_bind_ok (channel_from p), hcheck, lift_from]
  refine from_tryCatch_ok ?_
  rw [from_bind_ok hwaits, from_bind_ok (receive_from fl hidle.live hop hreads hroom)]
  have hlift (q : Party F) : (lift (requestBody op (.obj [] : Value F)) : SystemManager.Op F Unit).from q = (.ok (), q) := by rw [hbody, lift_from]
  exact (from_bind_ok (hlift _)).trans rfl

/-- The party after a message. -/
def put (p : Party F) (weight : Nat) (m : Message F) : Party F := ⟨(charged p weight).channel, p.sent ++ [m]⟩

theorem send_from {p : Party F} (hlive : p.channel.poisoned = false) {op body : Value F} {maximum : Nat}
    (hints : (p.next op body []).envelope.intsOk = true) (hreads : Reads fl (p.next op body []) maximum)
    (hroom : p.channel.total + ((wire fl (p.next op body []).envelope).length + 12) ≤ wireLimit) :
    (send fl through op body [] maximum).from p =
      (.ok (), put p ((wire fl (p.next op body []).envelope).length + 12) (p.next op body [])) := by
  have hraw := canonical_wire hints hreads.length
  have hnone (q : Party F) : (lift (require (decide (([] : List Descriptor) = []) || (isOneOf op ["launch"] && maximum = replyLimit
      && ([] : List Descriptor).length = 2)) (quotaError "SYSTEM_FD_COUNT")) : SystemManager.Op F Unit).from q = (.ok (), q) := rfl
  have hpins (q : Party F) : (lift (pins []) : SystemManager.Op F Unit).from q = (.ok (), q) := rfl
  rw [send, from_bind_ok (channel_from _)]
  show (do
    let raw ← lift (canonical fl (p.next op body []).envelope maximum)
    let _ ← lift (load fl raw maximum 12)
    lift (require (decide (([] : List Descriptor) = []) || (isOneOf op ["launch"] && maximum = replyLimit && ([] : List Descriptor).length = 2))
      (quotaError "SYSTEM_FD_COUNT"))
    lift (pins [])
    charge raw []
    SystemManager.time none
    transmit through.sending (p.next op body [])).from p = _
  rw [hraw, from_bind_ok (lift_from _ _), hreads.load, from_bind_ok (lift_from _ _), from_bind_ok (hnone _), from_bind_ok (hpins _),
    from_bind_ok (charge_from hroom), from_bind_ok (time_from (p := charged p _) hlive)]
  rfl

/-! ### A turn -/

theorem give_from {α : Type} (a : α) (g : Gateway F) : (give (.ok a) : Act F α).from g = (.ok a, g) := rfl

theorem onChannel_from {α : Type} {m : SystemManager.Op F α} {g : Gateway F} {a : α} {p : Party F} (h : m.from g.party = (.ok a, p)) :
    (onChannel m).from g = (.ok a, { g with party := p }) := by
  rw [onChannel, from_bind_ok (from_get _), h, from_bind_ok (from_modify _ _)]
  rfl

/-- Nothing is raised by the clock or the peer. -/
def calm : Moment := ⟨none, none⟩

/-- `_time` lets a gateway go on. -/
structure Alive (g : Gateway F) : Prop where
  open' : g.closed = false
  failure : g.failure = none
  live : g.party.channel.poisoned = false
  bytes : g.controlBytes + g.retiredWireBytes + g.party.channel.total ≤ wireLimit
  calls : g.retiredCalls + g.party.channel.sequence ≤ callLimit

theorem gatewayTime_from {g : Gateway F} (h : Alive g) : (time calm : Act F Unit).from g = (.ok (), g) := by
  have hopen : require (!g.closed && g.failure.isNone) (quotaError "SYSTEM_GATEWAY_UNAVAILABLE") = .ok () := by
    rw [require_ok, h.open', h.failure]
    rfl
  have hbytes : require (decide (g.controlBytes + g.retiredWireBytes + g.party.channel.total ≤ wireLimit))
      (quotaError "SYSTEM_AGGREGATE_OUTPUT_LIMIT") = .ok () := by
    rw [require_ok, decide_eq_true_eq]
    exact h.bytes
  have hcalls : require (decide (g.retiredCalls + g.party.channel.sequence ≤ callLimit)) (quotaError "SYSTEM_CALL_LIMIT") = .ok () := by
    rw [require_ok, decide_eq_true_eq]
    exact h.calls
  have hpass : (pass calm.clock : Act F Unit).from g = (.ok (), g) := rfl
  rw [time, from_bind_ok hpass, from_bind_ok (from_get _), hopen, from_bind_ok (give_from _ _), hbytes, from_bind_ok (give_from _ _),
    hcalls, from_bind_ok (give_from _ _)]
  exact onChannel_from (p := g.party) (time_from h.live)

variable [DecidableEq F] (intOf : F → Option Int)

/-- The pending request is answered. -/
theorem respond_from {p : Party F} (hlive : p.channel.poisoned = false) {op : String} (hpending : p.channel.pending = some op)
    {body result : Value F} (hints : (p.next (.str op) result []).envelope.intsOk = true)
    (hreads : Reads fl (p.next (.str op) result []) replyLimit)
    (hroom : p.channel.total + ((wire fl (p.next (.str op) result []).envelope).length + 12) ≤ wireLimit) :
    (SystemManager.respond fl intOf through (asDict ⟨p.channel.sequence, op, body⟩) result []).from p =
      (.ok (), ⟨{ p.channel with
          sequence := p.channel.sequence + 1
          total := p.channel.total + ((wire fl (p.next (.str op) result []).envelope).length + 12)
          pending := none }, p.sent ++ [p.next (.str op) result []]⟩) := by
  have hvalue : (p.channel.pendingValue : Value F) = .str op := by rw [Channel.pendingValue, hpending]
  have hop : lookup (asDict (⟨p.channel.sequence, op, body⟩ : Request F)) "op" = some (.str op) := rfl
  have hsequence : lookup (asDict (⟨p.channel.sequence, op, body⟩ : Request F)) "sequence" = some (.int p.channel.sequence) := rfl
  have hsame (v : Value F) : require (v.same intOf v) (quotaError "SYSTEM_RESPONSE_ORDER") = .ok () := by
    rw [require_ok, Value.same, decide_eq_true_eq]
  refine from_tryCatch_ok ?_
  rw [from_bind_ok (channel_from _)]
  simp only [hop, hsequence, hvalue, hsame]
  rw [from_bind_ok (lift_from _ _), from_bind_ok (lift_from _ _), from_bind_ok (send_from fl hlive hints hreads hroom)]
  rfl

/-- A request for support. -/
def supportRequest (session : String) (n : Nat) : Message F := ⟨session, n, .str "support", .obj [], []⟩

variable (site : Site F)

/-- Its answer. -/
def supportAnswer (session : String) (n : Nat) : Message F := ⟨session, n, .str "support", supported site, []⟩

/-- An operation that makes and meets nothing. -/
def idleWork : Dispatching F := ⟨calm, calm, none, ⟨0, false, none, .null, []⟩⟩

/-- A request for support, taken, dispatched and answered. -/
def exchange (session : String) (n : Nat) : List (Label F) :=
  [.receive through [supportRequest session n], .dispatch idleWork, .respond calm none through]

/-- The two messages of an exchange read back, and are short. -/
structure Short (session : String) (n : Nat) : Prop where
  request : Reads fl (supportRequest session n) requestLimit
  answer : Reads fl (supportAnswer site session n) replyLimit
  ints : (supportAnswer site session n).envelope.intsOk = true
  weight : (wire fl (supportRequest session n).envelope).length + 12 + ((wire fl (supportAnswer site session n).envelope).length + 12) ≤ 1000

/-- A gateway that waits for its next request, with room for an exchange. -/
structure Ready (session : String) (n total : Nat) (g : Gateway F) : Prop where
  turn : g.turn = .waiting
  serving : g.serving = true
  open' : g.closed = false
  failure : g.failure = none
  unfinished : g.recoveryFinished = false
  unarmed : g.recoveryArmed = false
  recovers : g.recoveryOnly = true → g.serviceRecovery = true
  party : ∃ sent, g.party = ⟨⟨session, n, total, none, false⟩, sent⟩
  below : n < callLimit
  calls : g.retiredCalls + n ≤ callLimit
  room : g.controlBytes + g.retiredWireBytes + total + 1000 ≤ wireLimit

omit [DecidableEq F] in
/-- A recovery's look at the clock lets a service's recovery go on. -/
theorem recoveryTime_from {g : Gateway F} (h : Alive g) (hrecovers : g.serviceRecovery = true) :
    (recoveryTime calm none : Act F Unit).from g = (.ok (), g) := by
  rw [recoveryTime, from_bind_ok (gatewayTime_from h), from_bind_ok (from_get _), if_pos hrecovers]
  rfl

omit [DecidableEq F] in
theorem dispatch_from {g : Gateway F} (h : Alive g) (hunarmed : g.recoveryArmed = false)
    (hrecovers : g.recoveryOnly = true → g.serviceRecovery = true) (n : Nat) :
    (dispatch site idleWork ⟨n, "support", .obj []⟩).from g = (.ok (supported site, []), { g with dispatched := g.dispatched + 1 }) := by
  have hearly : (time (idleWork : Dispatching F).early : Act F Unit).from g = (.ok (), g) := gatewayTime_from h
  have hbody (g : Gateway F) : (give (requestBody "support" (.obj [] : Value F)) : Act F Unit).from g = (.ok (), g) := rfl
  have harmed : require (!(g.recoveryArmed && !g.recoveryOnly)) (quotaError "SYSTEM_RECOVERY_ARMED") = .ok () := by
    rw [require_ok, hunarmed]
    rfl
  have hcounted : Alive { g with dispatched := g.dispatched + 1 } := ⟨h.open', h.failure, h.live, h.bytes, h.calls⟩
  have hop (g : Gateway F) : (give (require (recoveryOps.contains "support") (quotaError "SYSTEM_RECOVERY_OPERATION")) : Act F Unit).from g =
      (.ok (), g) := rfl
  have hperform (g : Gateway F) : (perform site "support" (idleWork : Dispatching F).work).from g = (.ok (supported site, []), g) := rfl
  rw [dispatch, from_bind_ok hearly, from_bind_ok (from_modify _ _), from_bind_ok (hbody _), from_bind_ok (from_get _), harmed,
    from_bind_ok (give_from _ _)]
  show (if g.recoveryOnly = true then _ else _ : Act F _).from _ = _
  split
  · next honly =>
    have hrecovery : (recoveryTime (idleWork : Dispatching F).recovery (idleWork : Dispatching F).late : Act F Unit).from { g with dispatched := g.dispatched + 1 } =
        (.ok (), { g with dispatched := g.dispatched + 1 }) := recoveryTime_from hcounted (hrecovers honly)
    rw [from_bind_ok (hop _), from_bind_ok hrecovery]
    exact hperform _
  · exact hperform _

theorem answer_from {g : Gateway F} (h : Alive g) (hrecovers : g.recoveryOnly = true → g.serviceRecovery = true)
    {session : String} {n total : Nat} {sent : List (Message F)} (hparty : g.party = ⟨⟨session, n, total, some "support", false⟩, sent⟩)
    (hanswer : Reads fl (supportAnswer site session n) replyLimit) (hints : (supportAnswer site session n).envelope.intsOk = true)
    (hroom : g.controlBytes + g.retiredWireBytes + total + ((wire fl (supportAnswer site session n).envelope).length + 12) ≤ wireLimit) :
    (answer fl intOf calm none through ⟨n, "support", .obj []⟩ (supported site) []).from g =
      (.ok (), { g with party := ⟨⟨session, n + 1, total + ((wire fl (supportAnswer site session n).envelope).length + 12), none, false⟩,
        sent ++ [supportAnswer site session n]⟩ }) := by
  have hcheck : (checkRecovery calm none : Act F Unit).from g = (.ok (), g) := by
    rw [checkRecovery, from_bind_ok (from_get _)]
    split
    · next honly => exact recoveryTime_from h (hrecovers honly)
    · rfl
  have hweigh : weigh fl g ⟨n, "support", .obj []⟩ (supported site) [] =
      .ok ((wire fl (supportAnswer site session n).envelope).length + 12 + 4 * ([] : List Descriptor).length) := by
    have hraw := canonical_wire hints hanswer.length
    have hm : (⟨g.party.channel.session, g.party.channel.sequence, .str "support", supported site, []⟩ : Message F) =
        supportAnswer site session n := by rw [hparty]; rfl
    rw [weigh]
    simp only [hm, hraw]
    rfl
  have hfits : require (decide (g.controlBytes + g.retiredWireBytes + g.party.channel.total +
      ((wire fl (supportAnswer site session n).envelope).length + 12 + 4 * ([] : List Descriptor).length) ≤ wireLimit))
      (quotaError "SYSTEM_AGGREGATE_OUTPUT_LIMIT") = .ok () := by
    rw [require_ok, decide_eq_true_eq, hparty]
    exact hroom
  have hchannel : (SystemManager.respond fl intOf through (asDict ⟨n, "support", .obj []⟩) (supported site) []).from g.party =
      (.ok (), ⟨⟨session, n + 1, total + ((wire fl (supportAnswer site session n).envelope).length + 12), none, false⟩,
        sent ++ [supportAnswer site session n]⟩) := by
    rw [hparty]
    exact respond_from fl intOf (p := ⟨⟨session, n, total, some "support", false⟩, sent⟩) rfl rfl hints hanswer (by
      show total + _ ≤ wireLimit
      exact (Nat.add_le_add_right (Nat.le_add_left total _) _).trans hroom)
  rw [answer, from_bind_ok hcheck, respond, from_bind_ok (from_get _), hweigh, from_bind_ok (give_from _ _), hfits,
    from_bind_ok (give_from _ _), from_bind_ok (onChannel_from hchannel)]
  rfl

/-- A run of an exchange. -/
theorem exchange_exchanged {session : String} {n total : Nat} (hshort : Short fl site session n) {g : Gateway F} (h : Ready session n total g) :
    ∃ total' sent, Machine.exec (step fl intOf site) g (exchange session n) =
      { g with party := ⟨⟨session, n + 1, total', none, false⟩, sent⟩, dispatched := g.dispatched + 1 } ∧ total' ≤ total + 1000 := by
  obtain ⟨hrequest, hanswer, hints, hweight⟩ := hshort
  obtain ⟨sent, hparty⟩ := h.party
  have hroom := h.room
  have hlistens : g.listens = true := by
    rw [Gateway.listens, h.turn, h.serving, h.unfinished, h.unarmed]
    rfl
  -- The request is taken.
  have htaken : (receiveRequest fl through [supportRequest session n]).from g.party = (.ok ⟨n, "support", .obj []⟩,
      ⟨⟨session, n, total + ((wire fl (supportRequest session n).envelope).length + 12), some "support", false⟩, sent⟩) := by
    rw [hparty]
    exact receiveRequest_from fl (p := ⟨⟨session, n, total, none, false⟩, sent⟩) ⟨rfl, rfl, h.below⟩ rfl rfl hrequest (by
      show total + ((wire fl (supportRequest session n).envelope).length + 12) ≤ wireLimit
      omega)
  generalize hrequested : total + ((wire fl (supportRequest session n).envelope).length + 12) = requested at htaken
  let taken : Gateway F := { g with party := ⟨⟨session, n, requested, some "support", false⟩, sent⟩, turn := .received ⟨n, "support", .obj []⟩ }
  have hreceive : step fl intOf site g (.receive through [supportRequest session n]) = taken := by
    rw [step, if_pos hlistens, Gateway.serve, onChannel_from htaken]
  have halive : Alive taken := ⟨h.open', h.failure, rfl, by show g.controlBytes + g.retiredWireBytes + requested ≤ wireLimit; omega, h.calls⟩
  -- It is dispatched.
  let served : Gateway F := { taken with dispatched := g.dispatched + 1, turn := .answered ⟨n, "support", .obj []⟩ (supported site) [] }
  have hdispatch : step fl intOf site taken (.dispatch idleWork) = served := by
    have hturn : taken.turn = .received ⟨n, "support", .obj []⟩ := rfl
    simp only [step, hturn, dispatch_from site halive h.unarmed h.recovers n]
    rfl
  have hserved : Alive served := ⟨halive.open', halive.failure, halive.live, halive.bytes, halive.calls⟩
  -- It is answered.
  have hanswered := answer_from fl intOf site hserved h.recovers rfl hanswer hints (by
    show g.controlBytes + g.retiredWireBytes + requested + ((wire fl (supportAnswer site session n).envelope).length + 12) ≤ wireLimit
    omega)
  refine ⟨requested + ((wire fl (supportAnswer site session n).envelope).length + 12), sent ++ [supportAnswer site session n], ?_, by omega⟩
  rw [exchange, Machine.exec_cons, hreceive, Machine.exec_cons, hdispatch, Machine.exec_cons, Machine.exec_nil, step]
  show served.serve (answer fl intOf calm none through ⟨n, "support", .obj []⟩ (supported site) []) _ = _
  rw [Gateway.serve, hanswered]
  show ({ g with party := _, turn := .waiting, dispatched := _ } : Gateway F) = _
  rw [← h.turn]

/-- Exchanges, one after another. -/
def exchanges (session : String) (k : Nat) : List (Label F) := (List.range k).flatMap (exchange session)

theorem weighted_step {a b k w : Nat} (h : a + b * (k + 1) ≤ w) : a + b * k ≤ w :=
  (Nat.add_le_add_left (Nat.mul_le_mul_left b (Nat.le_succ k)) a).trans h

theorem weighted_next {a b c d k w : Nat} (hc : c ≤ d + b * k) (h : a + d + b * (k + 1) ≤ w) : a + c + b ≤ w := by
  rw [Nat.mul_succ] at h
  omega

theorem exchanges_run {session : String} (hshort : ∀ n < callLimit, Short fl site session n) {total : Nat} {g : Gateway F} (h : Ready session 0 total g)
    {k : Nat} (hk : k ≤ callLimit) (hcalls : g.retiredCalls + k ≤ callLimit + 1)
    (hroom : g.controlBytes + g.retiredWireBytes + total + 1000 * k ≤ wireLimit) :
    ∃ total' sent, Machine.exec (step fl intOf site) g (exchanges session k) =
      { g with party := ⟨⟨session, k, total', none, false⟩, sent⟩, dispatched := g.dispatched + k } ∧ total' ≤ total + 1000 * k := by
  induction k with
  | zero =>
    obtain ⟨sent, hparty⟩ := h.party
    refine ⟨total, sent, ?_, Nat.le_refl _⟩
    rw [← hparty]
    rfl
  | succ k ih =>
    have hbelow : k < callLimit := by omega
    obtain ⟨total', sent, hrun, hle⟩ := ih hbelow.le (by omega) (weighted_step hroom)
    have hfits : g.controlBytes + g.retiredWireBytes + total' + 1000 ≤ wireLimit := weighted_next hle hroom
    have hready : Ready session k total' { g with party := ⟨⟨session, k, total', none, false⟩, sent⟩, dispatched := g.dispatched + k } :=
      ⟨h.turn, h.serving, h.open', h.failure, h.unfinished, h.unarmed, h.recovers, ⟨sent, rfl⟩, hbelow,
        Nat.le_of_succ_le_succ hcalls, hfits⟩
    obtain ⟨total'', sent', hnext, hle'⟩ := exchange_exchanged fl intOf site (hshort k hbelow) hready
    refine ⟨total'', sent', ?_, hle'.trans ((Nat.add_le_add_right hle 1000).trans (by rw [Nat.mul_succ, Nat.add_assoc]))⟩
    rw [exchanges, List.range_succ, List.flatMap_append, Machine.exec_append, ← exchanges, hrun, List.flatMap_singleton, hnext,
      Nat.add_assoc]

end

/-- The peer is gone before the next request. -/
def gone : Meeting := ⟨some (quotaError "SYSTEM_PEER_CHANGED"), .done, .message 0, none⟩

/-- 255 exchanges, a peer that exits, and two exchanges of the next one's. -/
def twoSessions : List (Label F) :=
  .enter :: (exchanges "a" 255 ++ (.receive gone [] :: .rebindServiceRecovery ⟨none, none, none⟩ ⟨"b", 0, 0, none, false⟩ :: .enter ::
    exchanges "b" 2))

theorem twoSessions_dispatched (fl : FloatText F) [DecidableEq F] (intOf : F → Option Int) (site : Site F)
    (hshort : ∀ session ∈ ["a", "b"], ∀ n < callLimit, Short fl site session n) :
    (Machine.exec (step fl intOf site) (made ⟨"a", 0, 0, none, false⟩) twoSessions).dispatched = 257 := by
  let entered : Gateway F := { (made ⟨"a", 0, 0, none, false⟩ : Gateway F) with serving := true }
  have hready : Ready "a" 0 0 entered :=
    ⟨rfl, rfl, rfl, rfl, rfl, rfl, nofun, ⟨[], rfl⟩, (by decide : 0 < callLimit), (by decide : 0 + 0 ≤ callLimit),
      (by decide : 0 + 0 + 0 + 1000 ≤ wireLimit)⟩
  obtain ⟨total, sent, hfirst, htotal⟩ := exchanges_run fl intOf site (hshort "a" (by simp)) hready (k := 255) (by decide)
    (by decide : 0 + 255 ≤ callLimit + 1) (by decide : 0 + 0 + 0 + 1000 * 255 ≤ wireLimit)
  -- The peer exits, and its channel is left.
  let left : Gateway F := { entered with
    party := ⟨⟨"a", 255, total, none, true⟩, sent⟩, dispatched := 255, failure := some (quotaError "SYSTEM_PEER_CHANGED"), serving := false }
  have hgone : step fl intOf site { entered with party := ⟨⟨"a", 255, total, none, false⟩, sent⟩, dispatched := 255 } (.receive gone []) = left := rfl
  let rebound : Gateway F := { left with
    party := ⟨⟨"b", 0, 0, none, false⟩, []⟩, ended := [⟨"a", 255, total, none, true⟩], failure := none, recoveryOnly := true, recoveryRebinds := 1,
    retiredWireBytes := 0 + total, retiredCalls := 0 + 255, serviceRecovery := true }
  have hrebind : step fl intOf site left (.rebindServiceRecovery ⟨none, none, none⟩ ⟨"b", 0, 0, none, false⟩) = rebound := by
    have hbudget : require (decide (0 + 0 + total < wireLimit) && decide (0 + 255 < callLimit)) (quotaError "SYSTEM_RECOVERY_BUDGET") = .ok () := by
      have hmax : wireLimit = 4194304 := by decide
      rw [require_ok, Bool.and_eq_true, decide_eq_true_eq, decide_eq_true_eq]
      exact ⟨by omega, by decide⟩
    have hstate (g : Gateway F) : (give (require true (quotaError "SYSTEM_RECOVERY_STATE")) : Act F Unit).from g = (.ok (), g) := rfl
    have hcheck : (checkServiceRecovery ⟨none, none, none⟩ : Act F Unit).from left = (.ok (), left) := by
      have hidentity (g : Gateway F) : (give (require true (quotaError "SYSTEM_RECOVERY_IDENTITY_UNRESOLVED")) : Act F Unit).from g = (.ok (), g) :=
        rfl
      have hroom : (give (require (decide (0 + 0 + total < wireLimit) && decide (0 + 255 < callLimit)) (quotaError "SYSTEM_RECOVERY_BUDGET")) :
          Act F Unit).from left = (.ok (), left) := by rw [hbudget, give_from]
      rw [checkServiceRecovery, from_bind_ok (from_get _)]
      exact (from_bind_ok (hstate _)).trans ((from_bind_ok (hidentity _)).trans ((from_bind_ok hroom).trans rfl))
    have hrun : (rebindServiceRecovery ⟨none, none, none⟩ ⟨"b", 0, 0, none, false⟩ : Act F Unit).from left = (.ok (), rebound) := by
      rw [rebindServiceRecovery, from_bind_ok hcheck, from_bind_ok (from_get _)]
      have hpeer (g : Gateway F) : (give (require true (quotaError "SYSTEM_RECOVERY_PEER")) : Act F Unit).from g = (.ok (), g) := rfl
      exact (from_bind_ok (hpeer _)).trans rfl
    rw [step, hrun]
  have hsecond : Ready "b" 0 0 { rebound with serving := true } :=
    ⟨rfl, rfl, rfl, rfl, rfl, rfl, fun _ => rfl, ⟨[], rfl⟩, (by decide : 0 < callLimit), (by decide : 0 + 255 + 0 ≤ callLimit), by
      show 0 + (0 + total) + 0 + 1000 ≤ wireLimit
      have hmax : wireLimit = 4194304 := by decide
      omega⟩
  obtain ⟨total', sent', hlast, -⟩ := exchanges_run fl intOf site (hshort "b" (by simp)) hsecond (k := 2) (by decide)
    (by decide : 0 + 255 + 2 ≤ callLimit + 1) (by
      show 0 + (0 + total) + 0 + 1000 * 2 ≤ wireLimit
      have hmax : wireLimit = 4194304 := by decide
      omega)
  have henter : step fl intOf site (made ⟨"a", 0, 0, none, false⟩) .enter = entered := rfl
  have hagain : step fl intOf site rebound .enter = { rebound with serving := true } := rfl
  rw [twoSessions, Machine.exec_cons, henter, Machine.exec_append, hfirst, Machine.exec_cons, Machine.exec_cons, Machine.exec_cons]
  show (Machine.exec (step fl intOf site) (step fl intOf site (step fl intOf site
    (step fl intOf site { entered with party := ⟨⟨"a", 255, total, none, false⟩, sent⟩, dispatched := 255 } _) _) _) _).dispatched = 257
  rw [hgone, hrebind, hagain, hlast]

section

variable (fl : FloatText F)

/-- The length of an envelope, by those of its texts. -/
theorem envelope_bound (body op schema sequence session text id : String) (v : Value F) (o : String) (n : Int) :
    (dump fl true (.obj [(body, v), (op, .str o), (schema, .str text), (sequence, .int n), (session, .str id)])).length =
      (intText n).length + (dump fl true v).length + (dumpString true body).length + (dumpString true op).length + (dumpString true o).length
        + (dumpString true schema).length + (dumpString true text).length + (dumpString true sequence).length
        + (dumpString true session).length + (dumpString true id).length + 11 := by
  simp only [dump, dumpFields, List.length_cons, List.length_append, List.length_nil]
  omega

theorem natText_callLimit {n : Nat} (h : n < callLimit) : (natText n).length ≤ 3 :=
  (Nat.length_toDigits_le_iff (by decide) (by decide)).mpr (h.trans (by decide))

/-- An envelope of a support exchange, by its body. -/
theorem length_envelope {session : String} (hsession : (dumpString true session).length = 3) {n : Nat} (hn : n < callLimit) (v : Value F) :
    (wire fl (⟨session, n, .str "support", v, []⟩ : Message F).envelope).length ≤ (dump fl true v).length + 120 := by
  have hint : intText (n : Int) = natText n := by rw [intText, if_neg (by omega), Int.natAbs_natCast]
  have hdigits := natText_callLimit hn
  have hbody : (dumpString true "body").length = 6 := by decide
  have hop : (dumpString true "op").length = 4 := by decide
  have hsupport : (dumpString true "support").length = 9 := by decide
  have hschema : (dumpString true "schema").length = 8 := by decide
  have htext : (dumpString true SystemManager.schema).length ≤ 50 := by decide
  have hsequence : (dumpString true "sequence").length = 10 := by decide
  have hid : (dumpString true "session_id").length = 12 := by decide
  rw [length_wire, Message.envelope, envelope_bound, hint, hbody, hop, hsupport, hschema, hsequence, hid, hsession]
  show _ + (dump fl true v).length + _ + _ + _ + _ + _ + _ + _ + _ + _ ≤ _
  omega

end

/-- A host with its binding. -/
def siteAlone : Site Empty :=
  ⟨.obj [("authority_id", .str "a"), ("boot_id", .str "00000000-0000-0000-0000-000000000000"), ("manager_kind", .str "system"),
    ("parent", .obj [("device", .int 0), ("inode", .int 1), ("path", .str "/lh.slice/lh-jobs.slice")]),
    ("schema", .str "local-hand-manager-binding/v1")], fun session => session⟩

theorem envelope_wf (session : String) (n : Nat) {v : Value F} (h : v.WF) : (⟨session, n, .str "support", v, []⟩ : Message F).envelope.WF := by
  have hkeys : (["body", "op", "schema", "sequence", "session_id"] : List String).Pairwise (· < ·) := by decide
  exact ⟨List.pairwise_map.mp hkeys, h, trivial, trivial, trivial, trivial, trivial⟩

theorem supported_wf : (supported siteAlone).WF := by
  have hbinding : (["authority_id", "boot_id", "manager_kind", "parent", "schema"] : List String).Pairwise (· < ·) := by decide
  have hparent : (["device", "inode", "path"] : List String).Pairwise (· < ·) := by decide
  have hkeys : (["manager_binding", "reasons", "status", "supported"] : List String).Pairwise (· < ·) := by decide
  exact ⟨List.pairwise_map.mp hkeys,
    ⟨List.pairwise_map.mp hbinding, trivial, trivial, trivial, ⟨List.pairwise_map.mp hparent, trivial, trivial, trivial, trivial⟩, trivial, trivial⟩,
    trivial, trivial, trivial, trivial⟩

theorem length_supported : (dump noFloats true (supported siteAlone)).length ≤ 350 := by
  decide +kernel

theorem support_reads {session : String} (hsession : (dumpString true session).length = 3) {n : Nat} (hn : n < callLimit) {v : Value Empty}
    (hwf : v.WF) (hints : v.intsOk = true) (hwalk : walk 12 2 v = .ok ()) (hlength : (dump noFloats true v).length ≤ 350)
    {limit : Nat} (hlimit : 500 ≤ limit) :
    Reads noFloats ⟨session, n, .str "support", v, []⟩ limit ∧ (⟨session, n, .str "support", v, []⟩ : Message Empty).envelope.intsOk = true := by
  have hlen := (length_envelope noFloats hsession hn v).trans
    ((Nat.add_le_add_right hlength 120).trans ((by decide : 350 + 120 ≤ 500).trans hlimit))
  have hi : (⟨session, n, .str "support", v, []⟩ : Message Empty).envelope.intsOk = true := by
    have hn : (Value.int (F := Empty) n).intsOk = true := by
      rw [Value.intsOk, Int.natAbs_natCast]
      exact decide_eq_true ((natText_callLimit hn).trans (by decide))
    simp only [Message.envelope, Value.intsOk, fieldsIntsOk, hints, Bool.and_true, Bool.true_and] at hn ⊢
    exact hn
  refine ⟨⟨load_wire (envelope_wf session n hwf) hi hlen ?_, hlen⟩, hi⟩
  have hn : (-maxInteger ≤ (n : Int) ∧ (n : Int) ≤ maxInteger) := by
    have hcalls : callLimit = 256 := by decide
    have hmax : maxInteger = 2 ^ 63 - 1 := by decide
    omega
  simp only [Message.envelope, walk, walkFields, hwalk, hn, bind, Except.bind]
  rfl

theorem support_short {session : String} (hsession : (dumpString true session).length = 3) {n : Nat} (hn : n < callLimit) :
    Short noFloats siteAlone session n := by
  have hnone : (dump noFloats true (.obj [])).length = 2 := by decide
  have hrequest := support_reads hsession hn (v := .obj []) ⟨List.Pairwise.nil, trivial⟩ rfl rfl (hnone.trans_le (by decide))
    (by decide : 500 ≤ requestLimit)
  have hanswer := support_reads hsession hn supported_wf rfl rfl length_supported (by decide : 500 ≤ replyLimit)
  refine ⟨hrequest.1, hanswer.1, hanswer.2, ?_⟩
  have hasked := length_envelope noFloats hsession hn (.obj [])
  have hanswered := length_envelope noFloats hsession hn (supported siteAlone)
  have hlength := length_supported
  rw [hnone] at hasked
  rw [supportRequest, supportAnswer]
  omega

/-- Taking a request ends no session. -/
theorem ended_receive [DecidableEq F] (fl : FloatText F) (intOf : F → Option Int) (site : Site F) (g : Gateway F) (meet : Meeting)
    (peer : List (Message F)) : (step fl intOf site g (.receive meet peer)).ended = g.ended := by
  rw [step]
  by_cases hlistens : g.listens
  · rw [if_pos hlistens, Gateway.serve]
    rcases hout : (receiveRequest fl meet peer).from g.party with ⟨fault | request, party⟩
    · have hraised : (onChannel (receiveRequest fl meet peer)).from g = (.error fault, { g with party := party }) := by
        rw [onChannel, from_bind_ok (from_get _), hout, from_bind_ok (from_modify _ _)]
        rfl
      rw [hraised]
      rfl
    · rw [onChannel_from hout]
  · rw [if_neg hlistens]

end LocalHand.GatewayBudget
