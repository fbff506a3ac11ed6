/-
A client and a server channel of the system manager over a wire that drops,
repeats, delays and reorders packets: a reply is the answer to the request it is
returned for, and a call that raises is the last one that gives anything.

What a call does to its party is one lemma a method (`request_spec`,
`receiveRequest_spec`, `respond_spec`); the two histories of the calls are tied
to the messages on the wire by their sequence numbers.
-/
import LocalHand.ManagerChannel

namespace LocalHand.SystemManager

open PyJson ResultReader QuotaContract Program Machine

variable {F : Type}

/-! ## One call -/

/-- A message `_send` has printed. -/
structure Message.Sound (m : Message F) : Prop where
  wf : m.envelope.WF
  ints : m.envelope.intsOk = true

/-- A party in the middle of a call that found it as `p`: what is pending and what
has been sent, whatever has been charged. -/
def Party.At (p : Party F) (pending : Option String) (sent : List (Message F)) (q : Party F) : Prop :=
  ∃ total, q = ⟨{ p.channel with pending := pending, total := total }, sent⟩

theorem Party.at_self (p : Party F) : p.At p.channel.pending p.sent p := ⟨p.channel.total, rfl⟩

variable {p : Party F} {pending : Option String} {sent : List (Message F)}

theorem lift_spec {α : Type} (P : Party F → Prop) (x : Except Fault α) :
    Spec P (lift x) (fun a q => P q ∧ x = .ok a) (fun _ => P) := by
  intro q hq
  cases x with
  | ok a => exact ⟨hq, rfl⟩
  | error fault => exact hq

/-- A check that leaves the party as it is. -/
theorem check_spec {α : Type} {P : Party F → Prop} (x : Except Fault α) {E : Fault → Party F → Prop}
    (hE : ∀ fault q, P q → E fault q) : Spec P (lift x) (fun _ => P) E :=
  (lift_spec P x).weaken (fun _ h => h) (fun _ _ h => h.1) hE

theorem channel_spec (P : Party F → Prop) {E : Fault → Party F → Prop} :
    Spec P channel (fun c q => P q ∧ c = q.channel) E := fun _ hq => ⟨hq, rfl⟩

theorem time_spec (outside : Option Fault) :
    Spec (p.At pending sent) (time outside) (fun _ q => p.At pending sent q ∧ p.channel.poisoned = false)
      (fun _ => p.At pending sent) := by
  refine Spec.bind (channel_spec _) fun c => ?_
  refine Spec.bind ((lift_spec (fun q => p.At pending sent q ∧ c = q.channel) _).weaken (fun _ h => h) (fun _ _ h => h)
    fun _ _ h => h.1) fun _ => ?_
  rintro q ⟨⟨⟨total, rfl⟩, rfl⟩, hlive⟩
  have hlive : p.channel.poisoned = false := by simpa using hlive
  cases outside with
  | none => exact ⟨⟨total, rfl⟩, hlive⟩
  | some fault => exact ⟨total, rfl⟩

theorem charge_spec (raw : Framing.Bytes) (fds : List Descriptor) :
    Spec (p.At pending sent) (charge raw fds) (fun _ => p.At pending sent) (fun _ => p.At pending sent) := by
  refine Spec.bind (Q := fun _ => p.At pending sent) (Spec.update ?_) fun _ => ?_
  · rintro q ⟨total, rfl⟩
    exact ⟨total + (raw.length + 12 + 4 * fds.length), rfl⟩
  · refine Spec.bind (channel_spec _) fun c => ?_
    exact (check_spec _ fun _ _ h => h.1).weaken (fun _ h => h) (fun _ _ h => h.1) fun _ _ h => h

section

variable (fl : FloatText F)

/-- The message a party sends next. -/
def Party.next (p : Party F) (op body : Value F) (fds : List Descriptor) : Message F :=
  ⟨p.channel.session, p.channel.sequence, op, body, fds⟩

theorem keys_sorted : ["body", "op", "schema", "sequence", "session_id"].Pairwise (· < ·) := by decide

theorem envelope_wf {m : Message F} (hop : m.op.WF) (hbody : m.body.WF) : m.envelope.WF := by
  refine ⟨?_, hbody, hop, trivial, trivial, trivial, trivial⟩
  exact List.pairwise_map.mp keys_sorted

/-- A sound message of a live channel has gone out. -/
structure Party.Sent (p : Party F) (pending : Option String) (sent : List (Message F)) (m : Message F) (q : Party F) : Prop where
  live : p.channel.poisoned = false
  sound : m.Sound
  at' : p.At pending (sent ++ [m]) q

theorem transmit_spec {m : Message F} (hlive : p.channel.poisoned = false) (hsound : m.Sound) (sending : Sending) :
    Spec (p.At pending sent) (transmit sending m) (fun _ => p.Sent pending sent m)
      (fun _ q => p.At pending sent q ∨ p.Sent pending sent m q) := by
  have hout : ∀ q, p.At pending sent q → p.Sent pending sent m { q with sent := q.sent ++ [m] } := by
    rintro q ⟨total, rfl⟩
    exact ⟨hlive, hsound, total, rfl⟩
  cases sending with
  | done => exact Spec.update hout
  | lost fault => exact Spec.raise fun _ h => .inl h
  | kept fault => exact Spec.bind (Spec.update hout) fun _ => Spec.raise fun _ h => .inr h

theorem send_spec (meet : Meeting) {op body : Value F} (hop : op.WF) (hbody : body.WF) (fds : List Descriptor)
    (maximum : Nat) :
    Spec (p.At pending sent) (send fl meet op body fds maximum) (fun _ => p.Sent pending sent (p.next op body fds))
      (fun _ q => p.At pending sent q ∨ p.Sent pending sent (p.next op body fds) q) := by
  refine Spec.bind (channel_spec _) fun c => ?_
  refine Spec.bind ((lift_spec _ _).weaken (fun _ h => h) (fun _ _ h => h) fun _ _ h => .inl h.1) fun raw => ?_
  rintro q ⟨⟨hat, rfl⟩, hraw⟩
  have hnext : (⟨q.channel.session, q.channel.sequence, op, body, fds⟩ : Message F) = p.next op body fds := by
    obtain ⟨total, rfl⟩ := hat
    rfl
  rw [hnext] at hraw ⊢
  have hsound : (p.next op body fds).Sound := ⟨envelope_wf hop hbody, (canonical_ok hraw).1⟩
  refine (?_ : Spec (p.At pending sent) _ _ _) q hat
  refine Spec.bind (check_spec _ fun _ _ h => .inl h) fun _ => ?_
  refine Spec.bind (check_spec _ fun _ _ h => .inl h) fun _ => ?_
  refine Spec.bind (check_spec _ fun _ _ h => .inl h) fun _ => ?_
  refine Spec.bind ((charge_spec raw fds).weaken (fun _ h => h) (fun _ _ h => h) fun _ _ h => .inl h) fun _ => ?_
  refine Spec.bind ((time_spec none).weaken (fun _ h => h) (fun _ _ h => h) fun _ _ h => .inl h) fun _ => ?_
  exact fun q h => transmit_spec h.2 hsound meet.sending q h.1

/-- A message of the peer's that answers to this place. -/
structure Party.Got (p : Party F) (peer : List (Message F)) (op : Option String) (found : String)
    (body : List (String × Value F)) (rights : List Descriptor) : Prop where
  live : p.channel.poisoned = false
  message : ∃ m ∈ peer, m.sequence = p.channel.sequence ∧ m.op = .str found ∧ m.body = .obj body ∧ m.rights = rights
  op : ∀ expected, op = some expected → found = expected

theorem item_envelope (m : Message F) : ∀ fields, m.envelope = .obj fields → item fields "sequence" = .int m.sequence ∧
    item fields "op" = m.op ∧ item fields "body" = m.body := by
  rintro fields ⟨⟩
  exact ⟨rfl, rfl, rfl⟩

theorem checkOrder_ok {c : Channel} {op : Option String} {m : Message F} {found : String} {body : List (String × Value F)}
    (h : checkOrder c op m.envelope = .ok (found, body)) :
    m.sequence = c.sequence ∧ m.op = .str found ∧ m.body = .obj body ∧ ∀ expected, op = some expected → found = expected := by
  simp only [checkOrder, bind_ok, require_ok, exists_unit] at h
  obtain ⟨fields, hkeys, -, h⟩ := h
  obtain ⟨hseq, hop, hbody⟩ := item_envelope m fields (keys_ok hkeys).1
  rw [hseq, hop, hbody] at h
  split at h
  · next sequence found' heq hfound =>
    simp only [bind_ok, require_ok, exists_unit, Bool.and_eq_true, decide_eq_true_eq, Bool.or_eq_true] at h
    obtain ⟨⟨⟨horder, -⟩, hexpected⟩, h⟩ := h
    split at h
    · next body' hbody' =>
      simp only [pure, Except.pure, Except.ok.injEq, Prod.mk.injEq] at h
      obtain ⟨rfl, rfl⟩ := h
      cases heq
      refine ⟨by exact_mod_cast horder, hfound, hbody', fun expected hop => ?_⟩
      subst hop
      simpa [eq_comm] using hexpected
    · cases h
  · cases h

/-- Only a whole message of the peer's passes for one. -/
theorem deliver_ok {arrival : Arrival} {maximum : Nat} {peer : List (Message F)} {d : Delivery}
    (h : arrival.deliver fl maximum peer = .ok d) (hpeer : d.fromPeer = true) (hwhole : d.truncated = false) :
    ∃ m ∈ peer, d.raw = wire fl m.envelope ∧ d.rights = m.rights := by
  cases arrival with
  | message index =>
    simp only [Arrival.deliver] at h
    split at h
    · next m hm =>
      cases h
      refine ⟨m, List.mem_of_getElem? hm, ?_, rfl⟩
      have hlen : (wire fl m.envelope).length ≤ maximum := by simpa using hwhole
      exact List.take_of_length_le hlen
    · cases h
  | foreign raw truncated malformed rights =>
    cases h
    cases hpeer
  | nothing fault => cases h

theorem receive_spec (meet : Meeting) {peer : List (Message F)} (hpeer : ∀ m ∈ peer, m.Sound) (maximum : Nat)
    (op : Option String) :
    Spec (p.At pending sent) (receive fl meet peer maximum op)
      (fun r q => p.At pending sent q ∧ p.Got peer op r.1 r.2.1 r.2.2) (fun _ => p.At pending sent) := by
  refine Spec.bind (time_spec none) fun _ => ?_
  rintro q ⟨hq, hlive⟩
  refine (?_ : Spec (p.At pending sent) _ _ _) q hq
  refine Spec.bind (lift_spec _ _) fun d => ?_
  rintro q ⟨hq, hd⟩
  refine (?_ : Spec (p.At pending sent) _ _ _) q hq
  refine Spec.bind (lift_spec _ _) fun _ => ?_
  rintro q ⟨hq, hcheck⟩
  simp only [require_ok, Bool.and_eq_true, Bool.not_eq_true'] at hcheck
  obtain ⟨⟨⟨-, hwhole⟩, -⟩, hfrom⟩ := hcheck
  obtain ⟨m, hm, hraw, hrights⟩ := deliver_ok fl hd hfrom hwhole
  refine (?_ : Spec (p.At pending sent) _ _ _) q hq
  refine Spec.bind (charge_spec d.raw d.rights) fun _ => ?_
  refine Spec.bind (lift_spec _ _) fun value => ?_
  rintro q ⟨hq, hvalue⟩
  rw [hraw] at hvalue
  obtain rfl := load_wire_eq (hpeer m hm).wf (hpeer m hm).ints hvalue
  refine (?_ : Spec (p.At pending sent) _ _ _) q hq
  refine Spec.bind (channel_spec _) fun c => ?_
  refine Spec.bind ((lift_spec _ _).weaken (fun _ h => h) (fun _ _ h => h) fun _ _ h => h.1) fun r => ?_
  obtain ⟨found, body⟩ := r
  rintro q ⟨⟨hq, rfl⟩, horder⟩
  obtain ⟨hseq, hop, hbody, hexpected⟩ := checkOrder_ok horder
  have hsequence : q.channel.sequence = p.channel.sequence := by
    obtain ⟨total, rfl⟩ := hq
    rfl
  have hgot : p.Got peer op found body d.rights :=
    ⟨hlive, ⟨m, hm, hseq.trans hsequence, hop, hbody, hrights.symm⟩, hexpected⟩
  refine (?_ : Spec (p.At pending sent) _ _ _) q hq
  refine Spec.bind (check_spec _ fun _ _ h => h) fun _ => ?_
  refine Spec.bind (check_spec _ fun _ _ h => h) fun _ => ?_
  refine Spec.bind (time_spec meet.late) fun _ => ?_
  exact Spec.ret fun q h => ⟨h.1, hgot⟩

theorem idle_spec (meet : Meeting) :
    Spec (p.At pending sent) (idle meet) (fun _ q => p.At pending sent q ∧ p.channel.poisoned = false)
      (fun _ => p.At pending sent) := by
  refine Spec.bind (time_spec meet.early) fun _ => ?_
  rintro q ⟨hq, hlive⟩
  refine (?_ : Spec (p.At pending sent) _ _ _) q hq
  refine Spec.bind (channel_spec _) fun c => ?_
  exact (check_spec _ fun _ _ h => h.1).weaken (fun _ h => h) (fun _ _ h => ⟨h.1, hlive⟩) fun _ _ h => h

/-! ## The methods -/

/-- A party that has ended an exchange. -/
def Party.Ended (p : Party F) (sent : List (Message F)) (q : Party F) : Prop :=
  ∃ total, q = ⟨{ p.channel with sequence := p.channel.sequence + 1, pending := none, total := total }, sent⟩

/-- The message of a call that raises may be on the wire all the same. -/
def Party.Tried (p : Party F) (m : Message F) (sent : List (Message F)) : Prop :=
  sent = p.sent ∨ (p.channel.poisoned = false ∧ m.Sound ∧ sent = p.sent ++ [m])

theorem Party.At.sent_eq {q : Party F} (h : p.At pending sent q) : q.sent = sent := by
  obtain ⟨total, rfl⟩ := h
  rfl

theorem Party.Ended.sent_eq {q : Party F} (h : p.Ended sent q) : q.sent = sent := by
  obtain ⟨total, rfl⟩ := h
  rfl

theorem Party.Sent.tried {m : Message F} {q : Party F} (h : p.Sent pending p.sent m q) : p.Tried m q.sent :=
  .inr ⟨h.live, h.sound, h.at'.sent_eq⟩

/-- A call that raises leaves its channel poisoned. -/
theorem guarded_spec {α : Type} {P : Party F → Prop} {op : Op F α} {Q : α → Party F → Prop} {R : List (Message F) → Prop}
    (h : Spec P op Q fun _ q => R q.sent) : Spec P (guarded op) Q (fun _ q => q.channel.poisoned = true ∧ R q.sent) :=
  Spec.handle h fun _ =>
    Spec.bind (Spec.update (Q := fun _ q => q.channel.poisoned = true ∧ R q.sent) fun _ h => ⟨rfl, h⟩) fun _ =>
      Spec.raise fun _ h => h

theorem advance_spec {E : Fault → Party F → Prop} : Spec (p.At pending sent) advance (fun _ => p.Ended sent) E := by
  refine Spec.update ?_
  rintro q ⟨total, rfl⟩
  exact ⟨total, rfl⟩

theorem ask_spec (p : Party F) (meet : Meeting) (op : String) {body : Value F} (hbody : body.WF) :
    Spec (· = p) (ask fl meet op body) (fun _ => p.Sent (some op) p.sent (p.next (.str op) body []))
      (fun _ q => q.channel.poisoned = true ∧ p.Tried (p.next (.str op) body []) q.sent) := by
  refine guarded_spec (Spec.pre (P := p.At p.channel.pending p.sent) ?_ fun q hq => hq ▸ p.at_self)
  refine Spec.bind ((idle_spec meet).weaken (fun _ h => h) (fun _ _ h => h.1) fun _ _ h => .inl h.sent_eq) fun _ => ?_
  refine Spec.bind (check_spec _ fun _ _ h => .inl h.sent_eq) fun _ => ?_
  refine Spec.bind (Q := fun _ => p.At (some op) p.sent) (Spec.update ?_) fun _ => ?_
  · rintro q ⟨total, rfl⟩
    exact ⟨total, rfl⟩
  exact (send_spec fl meet (show (Value.str op).WF from trivial) hbody [] requestLimit).weaken (fun _ h => h)
    (fun _ _ h => h) fun _ _ h => h.elim (.inl ·.sent_eq) (·.tried)

theorem await_spec (p : Party F) (meet : Meeting) {peer : List (Message F)} (hpeer : ∀ m ∈ peer, m.Sound) (op : String) :
    Spec (· = p) (await fl meet peer op)
      (fun reply q => p.Ended p.sent q ∧ ∃ fields, reply.body = .obj fields ∧ p.Got peer (some op) op fields reply.rights)
      (fun _ q => q.channel.poisoned = true ∧ q.sent = p.sent) := by
  refine guarded_spec (R := (· = p.sent)) (Spec.pre (P := p.At p.channel.pending p.sent) ?_ fun q hq => hq ▸ p.at_self)
  refine Spec.bind ((receive_spec fl meet hpeer replyLimit (some op)).weaken (fun _ h => h) (fun _ _ h => h)
    fun _ _ h => h.sent_eq) fun r => ?_
  obtain ⟨found, reply, rights⟩ := r
  rintro q ⟨hq, hgot⟩
  obtain rfl := hgot.op op rfl
  refine (?_ : Spec (p.At p.channel.pending p.sent) _ _ _) q hq
  refine Spec.bind advance_spec fun _ => ?_
  -- An error is an answer too, and ends the channel.
  refine (?_ : Spec _ (if (lookup reply "error").isSome then _ else _) _ _)
  split
  · refine Spec.bind (check_spec _ fun _ _ h => h.sent_eq) fun _ => ?_
    exact Spec.raise fun _ h => h.sent_eq
  · exact Spec.ret fun q h => ⟨h, reply, rfl, hgot⟩

theorem receiveRequest_spec (p : Party F) (meet : Meeting) {peer : List (Message F)} (hpeer : ∀ m ∈ peer, m.Sound) :
    Spec (· = p) (receiveRequest fl meet peer)
      (fun r q => p.At (some r.op) p.sent q ∧ r.sequence = p.channel.sequence ∧ p.channel.poisoned = false ∧
        ∃ m ∈ peer, m.sequence = r.sequence ∧ m.op = .str r.op ∧ m.body = r.body)
      (fun _ q => q.channel.poisoned = true ∧ q.sent = p.sent) := by
  refine guarded_spec (R := (· = p.sent)) (Spec.pre (P := p.At p.channel.pending p.sent) ?_ fun q hq => hq ▸ p.at_self)
  refine Spec.bind ((idle_spec meet).weaken (fun _ h => h) (fun _ _ h => h.1) fun _ _ h => h.sent_eq) fun _ => ?_
  refine Spec.bind ((receive_spec fl meet hpeer requestLimit none).weaken (fun _ h => h) (fun _ _ h => h)
    fun _ _ h => h.sent_eq) fun r => ?_
  obtain ⟨op, body, rights⟩ := r
  rintro q ⟨hq, hgot⟩
  refine (?_ : Spec (p.At p.channel.pending p.sent) _ _ _) q hq
  refine Spec.bind (check_spec _ fun _ _ h => h.sent_eq) fun _ => ?_
  refine Spec.bind (channel_spec _) fun c => ?_
  rintro q ⟨⟨total, rfl⟩, rfl⟩
  obtain ⟨m, hm, hseq, hop, hbody, -⟩ := hgot.message
  exact ⟨⟨total, rfl⟩, rfl, hgot.live, m, hm, hseq, hop, hbody⟩

variable [DecidableEq F] (intOf : F → Option Int)

/-- A dict names the pending request: its op and its sequence number. -/
structure Names (intOf : F → Option Int) (request : List (String × Value F)) (op : Value F) (sequence : Nat) : Prop where
  op : (lookup request "op").any (op.same intOf ·) = true
  sequence : (lookup request "sequence").any (·.same intOf (.int sequence)) = true

/-- The answer a party would give. -/
def Party.answer (p : Party F) (metadata : Value F) (fds : List Descriptor) : Message F :=
  p.next p.channel.pendingValue metadata fds

theorem respond_spec (p : Party F) (meet : Meeting) (request : List (String × Value F)) {metadata : Value F}
    (hmetadata : metadata.WF) (fds : List Descriptor) :
    Spec (· = p) (respond fl intOf meet request metadata fds)
      (fun _ q => p.channel.poisoned = false ∧ (p.answer metadata fds).Sound ∧ p.Ended (p.sent ++ [p.answer metadata fds]) q ∧
        Names intOf request p.channel.pendingValue p.channel.sequence)
      (fun _ q => q.channel.poisoned = true ∧ p.Tried (p.answer metadata fds) q.sent ∧
        (q.sent = p.sent ∨ Names intOf request p.channel.pendingValue p.channel.sequence)) := by
  have hsame : ∀ q, q = p → p.Tried (p.answer metadata fds) q.sent ∧
      (q.sent = p.sent ∨ Names intOf request p.channel.pendingValue p.channel.sequence) :=
    fun q hq => ⟨.inl (by rw [hq]), .inl (by rw [hq])⟩
  have hpending : (p.channel.pendingValue : Value F).WF := by
    unfold Channel.pendingValue
    split <;> trivial
  refine guarded_spec (R := fun l => p.Tried (p.answer metadata fds) l ∧
    (l = p.sent ∨ Names intOf request p.channel.pendingValue p.channel.sequence)) ?_
  refine Spec.bind (channel_spec _) fun c => ?_
  rintro q ⟨rfl, rfl⟩
  refine (?_ : Spec (· = q) _ _ _) q rfl
  split
  · exact Spec.raise hsame
  · next op hop =>
    refine Spec.bind ((lift_spec _ _).weaken (fun _ h => h) (fun _ _ h => h) fun _ q h => hsame q h) fun _ => ?_
    rintro _ ⟨rfl, hsameop⟩
    refine (?_ : Spec (· = _) _ _ _) _ rfl
    split
    · exact Spec.raise hsame
    · next sequence hsequence =>
      refine Spec.bind ((lift_spec _ _).weaken (fun _ h => h) (fun _ _ h => h) fun _ q h => hsame q h) fun _ => ?_
      rintro q ⟨rfl, hsameseq⟩
      simp only [require_ok] at hsameop hsameseq
      have hnames : Names intOf request q.channel.pendingValue q.channel.sequence :=
        ⟨by rw [hop]; exact hsameop, by rw [hsequence]; exact hsameseq⟩
      refine (?_ : Spec (q.At q.channel.pending q.sent) _ _ _) q q.at_self
      refine Spec.bind ((send_spec fl meet hpending hmetadata fds replyLimit).weaken (fun _ h => h) (fun _ _ h => h)
        fun _ _ h => ⟨h.elim (.inl ·.sent_eq) (·.tried), .inr hnames⟩) fun _ => ?_
      rintro r ⟨hlive, hsound, hr⟩
      obtain ⟨total, rfl⟩ := hr
      exact ⟨hlive, hsound, ⟨total, rfl⟩, hnames⟩

/-! ## Runs -/

/-- A value as Python has it. -/
abbrev Data (F : Type) := { v : Value F // v.WF }

/-- A call of the server's, and what it gave. -/
inductive Served (F : Type) where
  | received (result : Except Fault (Request F))
  | responded (request : List (String × Value F)) (metadata : Value F) (rights : List Descriptor) (result : Except Fault Unit)

def raised {α : Type} (result : Except Fault α) : Bool := !result.isOk

def Served.raised : Served F → Bool
  | .received result => SystemManager.raised result
  | .responded _ _ _ result => SystemManager.raised result

/-- The two parties, the calls of `request` with what the ended ones gave, and the
calls of the server's. A client calls `request` again when the last call has ended. -/
structure State (F : Type) where
  client : Party F
  server : Party F
  asked : List (String × Value F)
  replies : List (Except Fault (Reply F))
  served : List (Served F)

inductive Event (F : Type) where
  | ask (meet : Meeting) (op : String) (body : Data F)
  | await (meet : Meeting)
  | receiveRequest (meet : Meeting)
  | respond (meet : Meeting) (request : List (String × Value F)) (metadata : Data F) (rights : List Descriptor)

def step (s : State F) : Event F → State F
  | .ask meet op body =>
    if s.replies.length < s.asked.length then s
    else match (ask fl meet op body.1).from s.client with
      | (.ok _, client) => { s with client := client, asked := s.asked ++ [(op, body.1)] }
      | (.error fault, client) =>
        { s with client := client, asked := s.asked ++ [(op, body.1)], replies := s.replies ++ [.error fault] }
  | .await meet =>
    match s.asked[s.replies.length]? with
    | none => s
    | some (op, _) =>
      let out := (await fl meet s.server.sent op).from s.client
      { s with client := out.2, replies := s.replies ++ [out.1] }
  | .receiveRequest meet =>
    let out := (receiveRequest fl meet s.client.sent).from s.server
    { s with server := out.2, served := s.served ++ [.received out.1] }
  | .respond meet request metadata rights =>
    let out := (respond fl intOf meet request metadata.1 rights).from s.server
    { s with server := out.2, served := s.served ++ [.responded request metadata.1 rights out.1] }

def start (clientSession serverSession : String) : State F where
  client := ⟨⟨clientSession, 0, 0, none, false⟩, []⟩
  server := ⟨⟨serverSession, 0, 0, none, false⟩, []⟩
  asked := []
  replies := []
  served := []

/-- A reply was the argument of a `respond` to a request that had been received before. -/
def Answered (served : List (Served F)) (sequence : Nat) (op : String) (body reply : Value F) (rights : List Descriptor) : Prop :=
  ∃ before after request result, served = before ++ .responded request reply rights result :: after ∧
    Names intOf request (.str op) sequence ∧ .received (.ok ⟨sequence, op, body⟩) ∈ before

/-- What the two channels give is in step, and nothing follows a call that raised. -/
structure Lockstep (s : State F) : Prop where
  replies : ∀ i op body reply, s.asked[i]? = some (op, body) → s.replies[i]? = some (.ok reply) →
    Answered intOf s.served i op body reply.body reply.rights
  received : ∀ r : Request F, .received (.ok r) ∈ s.served → s.asked[r.sequence]? = some (r.op, r.body)
  asked : s.replies.Pairwise fun a b => raised a = true → raised b = true
  served : s.served.Pairwise fun a b => a.raised = true → b.raised = true
  client : (∃ r ∈ s.replies, raised r = true) → s.client.channel.poisoned = true
  server : (∃ c ∈ s.served, c.raised = true) → s.server.channel.poisoned = true

/-- The client's messages are its requests, in their places. -/
structure ClientInv (s : State F) : Prop where
  sound : ∀ m ∈ s.client.sent, m.Sound
  place : ∀ i (m : Message F), s.client.sent[i]? = some m → m.sequence = i ∧ ∃ op, m.op = .str op ∧ s.asked[i]? = some (op, m.body)
  live : s.client.channel.poisoned = false →
    s.client.channel.sequence = s.replies.length ∧ s.client.sent.length = s.asked.length
  ended : s.replies.length ≤ s.asked.length

/-- The server's messages are its answers. -/
structure ServerInv (s : State F) : Prop where
  sound : ∀ m ∈ s.server.sent, m.Sound
  place : ∀ i (m : Message F), s.server.sent[i]? = some m → m.sequence = i ∧
    ∀ op, m.op = .str op → ∃ body, Answered intOf s.served i op body m.body m.rights
  live : s.server.channel.poisoned = false → s.server.channel.sequence = s.server.sent.length ∧
    ∀ op, s.server.channel.pending = some op → ∃ body, .received (.ok ⟨s.server.channel.sequence, op, body⟩) ∈ s.served

structure Inv (s : State F) : Prop where
  client : ClientInv s
  server : ServerInv intOf s
  lockstep : Lockstep intOf s

variable {fl intOf} {s : State F}

theorem start_inv (a b : String) : Inv intOf (start a b : State F) := by
  refine ⟨⟨?_, ?_, ?_, ?_⟩, ⟨?_, ?_, ?_⟩, ⟨?_, ?_, ?_, ?_, ?_, ?_⟩⟩ <;> simp [start]

/-- Appending a result keeps that nothing follows a failure. -/
theorem pairwise_snoc {α : Type} {failed : α → Bool} {l : List α} {a : α}
    (h : l.Pairwise fun a b => failed a = true → failed b = true)
    (hlast : (∃ b ∈ l, failed b = true) → failed a = true) : (l ++ [a]).Pairwise fun a b => failed a = true → failed b = true := by
  rw [List.pairwise_append]
  refine ⟨h, List.pairwise_singleton _ _, fun b hb c hc hfail => ?_⟩
  rw [List.mem_singleton.mp hc]
  exact hlast ⟨b, hb, hfail⟩

theorem Answered.append {served : List (Served F)} {sequence : Nat} {op : String} {body reply : Value F}
    {rights : List Descriptor} (h : Answered intOf served sequence op body reply rights) (more : List (Served F)) :
    Answered intOf (served ++ more) sequence op body reply rights := by
  obtain ⟨before, after, request, result, rfl, hnames, hreceived⟩ := h
  exact ⟨before, after ++ more, request, result, by simp, hnames, hreceived⟩

omit [DecidableEq F] in
/-- The messages after a request: the new one, if any, is in the new call's place. -/
theorem ClientInv.tried (h : ClientInv s) (hidle : s.replies.length = s.asked.length) (op : String) (body : Value F)
    {sent : List (Message F)} (ht : s.client.Tried (s.client.next (.str op) body []) sent) :
    (∀ m ∈ sent, m.Sound) ∧ ∀ i (m : Message F), sent[i]? = some m → m.sequence = i ∧
      ∃ op', m.op = .str op' ∧ (s.asked ++ [(op, body)])[i]? = some (op', m.body) := by
  have hold : ∀ i (m : Message F), s.client.sent[i]? = some m → m.sequence = i ∧
      ∃ op', m.op = .str op' ∧ (s.asked ++ [(op, body)])[i]? = some (op', m.body) := by
    intro i m hm
    obtain ⟨hseq, op', hop, hasked⟩ := h.place i m hm
    exact ⟨hseq, op', hop, getElem?_keep hasked _⟩
  rcases ht with rfl | ⟨hlive, hsound, rfl⟩
  · exact ⟨h.sound, hold⟩
  · refine ⟨fun m hm => (List.mem_append.mp hm).elim (h.sound m) fun hm => List.mem_singleton.mp hm ▸ hsound, fun i m hm => ?_⟩
    obtain hm | ⟨rfl, rfl⟩ := getElem?_snoc hm
    · exact hold i m hm
    · obtain ⟨hseq, hlen⟩ := h.live hlive
      refine ⟨by rw [hlen, ← hidle]; exact hseq, op, rfl, ?_⟩
      rw [hlen]
      simp [Party.next]

theorem ask_inv (h : Inv intOf s) (meet : Meeting) (op : String) (body : Data F) :
    Inv intOf (step fl intOf s (.ask meet op body)) := by
  simp only [step]
  split
  · exact h
  next hbusy =>
  have hidle : s.replies.length = s.asked.length := Nat.le_antisymm h.client.ended (by omega)
  have hspec := ask_spec fl s.client meet op body.2 s.client rfl
  have hreceived : ∀ r : Request F, .received (.ok r) ∈ s.served →
      (s.asked ++ [(op, body.1)])[r.sequence]? = some (r.op, r.body) :=
    fun r hr => getElem?_keep (h.lockstep.received r hr) _
  have hreplies : ∀ i op' body' reply, (s.asked ++ [(op, body.1)])[i]? = some (op', body') →
      s.replies[i]? = some (.ok reply) → Answered intOf s.served i op' body' reply.body reply.rights := by
    intro i op' body' reply hasked hreply
    have hi := (List.getElem?_eq_some_iff.mp hreply).1
    rw [List.getElem?_append_left (by omega)] at hasked
    exact h.lockstep.replies i op' body' reply hasked hreply
  split
  · next client heq =>
    rw [heq] at hspec
    obtain ⟨hlive, hsound, total, rfl⟩ := hspec
    obtain ⟨hsent, hplace⟩ := h.client.tried hidle op body.1 (.inr ⟨hlive, hsound, rfl⟩)
    obtain ⟨hseq, hlen⟩ := h.client.live hlive
    refine ⟨⟨hsent, hplace, fun _ => ⟨hseq, ?_⟩, ?_⟩, ⟨h.server.sound, h.server.place, h.server.live⟩, ⟨hreplies, hreceived, h.lockstep.asked, h.lockstep.served,
      h.lockstep.client, h.lockstep.server⟩⟩
    · simp [hlen]
    · simp [hidle]
  · next fault client heq =>
    rw [heq] at hspec
    obtain ⟨hpoisoned, htried⟩ := hspec
    obtain ⟨hsent, hplace⟩ := h.client.tried hidle op body.1 htried
    refine ⟨⟨hsent, hplace, fun hlive => ?_, ?_⟩, ⟨h.server.sound, h.server.place, h.server.live⟩, ⟨fun i op' body' reply hasked hreply => ?_, hreceived,
      pairwise_snoc h.lockstep.asked fun _ => rfl, h.lockstep.served, fun _ => hpoisoned, h.lockstep.server⟩⟩
    · exact absurd (hpoisoned.symm.trans hlive) (by simp)
    · simp [hidle]
    · obtain hreply | ⟨-, hreply⟩ := getElem?_snoc hreply
      · exact hreplies i op' body' reply hasked hreply
      · cases hreply

theorem await_inv (h : Inv intOf s) (meet : Meeting) : Inv intOf (step fl intOf s (.await meet)) := by
  simp only [step]
  split
  · exact h
  next op body hasked =>
  have hopen : s.replies.length < s.asked.length := (List.getElem?_eq_some_iff.mp hasked).1
  have hspec := await_spec fl s.client meet h.server.sound op s.client rfl
  cases heq : (await fl meet s.server.sent op).from s.client with
  | mk result client =>
    rw [heq] at hspec
    cases result with
    | ok reply =>
      obtain ⟨⟨total, rfl⟩, fields, hbody, hgot⟩ := hspec
      dsimp only
      obtain ⟨hseq, hlen⟩ := h.client.live hgot.live
      refine ⟨⟨h.client.sound, h.client.place, fun _ => ⟨?_, hlen⟩, ?_⟩, ⟨h.server.sound, h.server.place, h.server.live⟩, ⟨fun i op' body' reply' hasked' hreply => ?_,
        h.lockstep.received, pairwise_snoc h.lockstep.asked fun hfail => ?_, h.lockstep.served, ?_, h.lockstep.server⟩⟩
      · simp [hseq]
      · simpa using Nat.succ_le_of_lt hopen
      · obtain hold | ⟨rfl, hnew⟩ := getElem?_snoc hreply
        · exact h.lockstep.replies i op' body' reply' hasked' hold
        · have heq := Except.ok.inj hnew
          subst heq
          cases hasked.symm.trans hasked'
          -- The message in the call's place answers a request received as the one in it.
          obtain ⟨m, hm, hmseq, hmop, hmbody, hmrights⟩ := hgot.message
          obtain ⟨j, hj⟩ := List.getElem?_of_mem hm
          obtain ⟨hjseq, hanswer⟩ := h.server.place j m hj
          obtain ⟨body', before, after, request, result, hserved, hnames, hreceived⟩ := hanswer op hmop
          have hplace : j = s.replies.length := by rw [← hjseq, hmseq, hseq]
          rw [hplace] at hreceived hnames
          have hsame := h.lockstep.received _ (hserved ▸ List.mem_append_left _ hreceived)
          cases hasked.symm.trans hsame
          exact ⟨before, after, request, result, by rw [hserved, hmbody, hbody, hmrights], hnames, hreceived⟩
      · exact absurd (h.lockstep.client hfail) (by simp [hgot.live])
      · rintro ⟨r, hr, hfail⟩
        rcases List.mem_append.mp hr with hr | hr
        · exact absurd (h.lockstep.client ⟨r, hr, hfail⟩) (by simp [hgot.live])
        · rw [List.mem_singleton.mp hr] at hfail
          cases hfail
    | error fault =>
      obtain ⟨hpoisoned, hsent⟩ := hspec
      dsimp only
      refine ⟨⟨hsent ▸ h.client.sound, hsent ▸ h.client.place, fun hlive => ?_, ?_⟩, ⟨h.server.sound, h.server.place, h.server.live⟩,
        ⟨fun i op' body' reply' hasked' hreply => ?_, h.lockstep.received, pairwise_snoc h.lockstep.asked fun _ => rfl,
          h.lockstep.served, fun _ => hpoisoned, h.lockstep.server⟩⟩
      · exact absurd (hpoisoned.symm.trans hlive) (by simp)
      · simpa using Nat.succ_le_of_lt hopen
      · obtain hreply | ⟨-, hreply⟩ := getElem?_snoc hreply
        · exact h.lockstep.replies i op' body' reply' hasked' hreply
        · cases hreply

/-- A call more of the server's does not change what a reply answers to. -/
theorem Lockstep.serve (h : Lockstep intOf s) (c : Served F) (server : Party F)
    (hreceived : ∀ r : Request F, c = .received (.ok r) → s.asked[r.sequence]? = some (r.op, r.body))
    (hfail : (∃ d ∈ s.served, d.raised = true) → c.raised = true) (hpoison : c.raised = true → server.channel.poisoned = true) :
    Lockstep intOf { s with server := server, served := s.served ++ [c] } := by
  refine ⟨fun i op body reply hasked hreply => (h.replies i op body reply hasked hreply).append _, fun r hr => ?_,
    h.asked, pairwise_snoc h.served hfail, h.client, ?_⟩
  · rcases List.mem_append.mp hr with hr | hr
    · exact h.received r hr
    · exact hreceived r (List.mem_singleton.mp hr).symm
  · rintro ⟨d, hd, hraised⟩
    rcases List.mem_append.mp hd with hd | hd
    · exact hpoison (hfail ⟨d, hd, hraised⟩)
    · exact hpoison (List.mem_singleton.mp hd ▸ hraised)

theorem Lockstep.server_live (h : Lockstep intOf s) (hlive : s.server.channel.poisoned = false)
    (c : Served F) (hc : ∃ d ∈ s.served, d.raised = true) : c.raised = true :=
  absurd (h.server hc) (by simp [hlive])

theorem receiveRequest_inv (h : Inv intOf s) (meet : Meeting) : Inv intOf (step fl intOf s (.receiveRequest meet)) := by
  have hspec := receiveRequest_spec fl s.server meet h.client.sound s.server rfl
  simp only [step]
  cases heq : (receiveRequest fl meet s.client.sent).from s.server with
  | mk result server =>
    rw [heq] at hspec
    dsimp only
    have hclient : ClientInv { s with server := server, served := s.served ++ [.received result] } :=
      ⟨h.client.sound, h.client.place, h.client.live, h.client.ended⟩
    have hplace : ∀ i (m : Message F), s.server.sent[i]? = some m → m.sequence = i ∧
        ∀ op, m.op = .str op → ∃ body, Answered intOf (s.served ++ [.received result]) i op body m.body m.rights := by
      intro i m hm
      obtain ⟨hseq, hanswer⟩ := h.server.place i m hm
      exact ⟨hseq, fun op hop => (hanswer op hop).imp fun _ h => h.append _⟩
    cases result with
    | ok r =>
      obtain ⟨⟨total, rfl⟩, hseq, hlive, m, hm, hmseq, hmop, hmbody⟩ := hspec
      obtain ⟨hsequence, -⟩ := h.server.live hlive
      refine ⟨hclient, ⟨h.server.sound, hplace, fun _ => ⟨hsequence, ?_⟩⟩, h.lockstep.serve _ _ ?_ ?_ fun hc => ?_⟩
      · rintro op ⟨⟩
        exact ⟨r.body, List.mem_append_right _ (by simp [← hseq])⟩
      · rintro r' ⟨⟩
        obtain ⟨j, hj⟩ := List.getElem?_of_mem hm
        obtain ⟨hjseq, op, hop, hasked⟩ := h.client.place j m hj
        cases hmop.symm.trans hop
        rw [← hjseq, hmseq, hmbody] at hasked
        exact hasked
      · exact h.lockstep.server_live hlive _
      · cases hc
    | error fault =>
      obtain ⟨hpoisoned, hsent⟩ := hspec
      refine ⟨hclient, ⟨hsent ▸ h.server.sound, hsent ▸ hplace, fun hlive => ?_⟩,
        h.lockstep.serve _ _ (fun r hr => ?_) (fun _ => rfl) fun _ => hpoisoned⟩
      · exact absurd (hpoisoned.symm.trans hlive) (by simp)
      · cases hr

theorem respond_inv (h : Inv intOf s) (meet : Meeting) (request : List (String × Value F)) (metadata : Data F)
    (rights : List Descriptor) : Inv intOf (step fl intOf s (.respond meet request metadata rights)) := by
  have hspec := respond_spec fl intOf s.server meet request metadata.2 rights s.server rfl
  simp only [step]
  cases heq : (respond fl intOf meet request metadata.1 rights).from s.server with
  | mk result server =>
    rw [heq] at hspec
    dsimp only
    have hclient : ClientInv { s with server := server, served := s.served ++ [.responded request metadata.1 rights result] } :=
      ⟨h.client.sound, h.client.place, h.client.live, h.client.ended⟩
    have hold : ∀ i (m : Message F), s.server.sent[i]? = some m → m.sequence = i ∧ ∀ op, m.op = .str op →
        ∃ body, Answered intOf (s.served ++ [.responded request metadata.1 rights result]) i op body m.body m.rights := by
      intro i m hm
      obtain ⟨hseq, hanswer⟩ := h.server.place i m hm
      exact ⟨hseq, fun op hop => (hanswer op hop).imp fun _ h => h.append _⟩
    -- The answer itself, if it went out: its op is the one of the request received in its place.
    have hnew : s.server.channel.poisoned = false → Names intOf request s.server.channel.pendingValue s.server.channel.sequence →
        ∀ i (m : Message F), (s.server.sent ++ [s.server.answer metadata.1 rights])[i]? = some m → m.sequence = i ∧
          ∀ op, m.op = .str op →
            ∃ body, Answered intOf (s.served ++ [.responded request metadata.1 rights result]) i op body m.body m.rights := by
      intro hlive hnames i m hm
      obtain hm | ⟨rfl, rfl⟩ := getElem?_snoc hm
      · exact hold i m hm
      · obtain ⟨hsequence, hpending⟩ := h.server.live hlive
        refine ⟨hsequence, fun op hop => ?_⟩
        have hop' : s.server.channel.pendingValue = .str op := hop
        have hsome : s.server.channel.pending = some op := by
          unfold Channel.pendingValue at hop'
          split at hop'
          · cases hop'
          · next found hfound => rw [hfound, Value.str.inj hop']
        obtain ⟨body, hbody⟩ := hpending op hsome
        rw [hop', hsequence] at hnames
        rw [hsequence] at hbody
        exact ⟨body, s.served, [], request, result, rfl, hnames, hbody⟩
    have hsoundnew : (s.server.answer metadata.1 rights).Sound →
        ∀ m ∈ s.server.sent ++ [s.server.answer metadata.1 rights], m.Sound :=
      fun hsound m hm => (List.mem_append.mp hm).elim (h.server.sound m) fun hm => List.mem_singleton.mp hm ▸ hsound
    cases result with
    | ok u =>
      obtain ⟨hlive, hsound, ⟨total, rfl⟩, hnames⟩ := hspec
      obtain ⟨hsequence, -⟩ := h.server.live hlive
      refine ⟨hclient, ⟨hsoundnew hsound, hnew hlive hnames, fun _ => ⟨?_, fun op hop => ?_⟩⟩,
        h.lockstep.serve _ _ (fun r hr => ?_) (h.lockstep.server_live hlive _) fun hc => ?_⟩
      · simp [hsequence]
      · cases hop
      · cases hr
      · cases hc
    | error fault =>
      obtain ⟨hpoisoned, htried, hnames⟩ := hspec
      have hlockstep := h.lockstep.serve (.responded request metadata.1 rights (.error fault)) server (fun r hr => by cases hr)
        (fun _ => rfl) fun _ => hpoisoned
      have hdead : server.channel.poisoned = false → False := fun hlive => by simp [hpoisoned] at hlive
      rcases htried with hsent | ⟨hlive, hsound, hsent⟩
      · exact ⟨hclient, ⟨hsent ▸ h.server.sound, hsent ▸ hold, fun hlive => (hdead hlive).elim⟩, hlockstep⟩
      · have hnames := hnames.resolve_left (by simp [hsent])
        exact ⟨hclient, ⟨hsent ▸ hsoundnew hsound, hsent ▸ hnew hlive hnames, fun hlive => (hdead hlive).elim⟩, hlockstep⟩

/-- **The two channels are in lockstep** after any calls over any wire. -/
theorem lockstep (fl : FloatText F) (intOf : F → Option Int) (clientSession serverSession : String) (events : List (Event F)) :
    Lockstep intOf (exec (step fl intOf) (start clientSession serverSession) events) := by
  refine (exec_inv (I := Inv intOf) (fun s event h => ?_) (start_inv clientSession serverSession)).lockstep
  cases event with
  | ask meet op body => exact ask_inv h meet op body
  | await meet => exact await_inv h meet
  | receiveRequest meet => exact receiveRequest_inv h meet
  | respond meet request metadata rights => exact respond_inv h meet request metadata rights

end

end LocalHand.SystemManager
