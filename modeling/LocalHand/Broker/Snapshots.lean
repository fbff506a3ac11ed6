/-
The quota members of a record and the events they were written with. Each
member has an entry for a phase exactly when one event of its kind names the
phase, and the entry is that event's, so what `quota_binding.original` compares
never differs by the broker's own doing.
-/
import LocalHand.Broker.Limits

namespace LocalHand.Broker

open Relation (ReflTransGen)

/-- The changes of the row's events of the member's kind that name the phase. -/
def Ledger.told {α : Type} (l : Ledger) (key : Key) (member : Member α) (phase : Phase) : List Changes :=
  (l.history key member.kind).filter (·.quotaEventPhase = some phase)

/-- The entry of a phase, and the one event that wrote it. -/
def Agrees {α : Type} (l : Ledger) (member : Member α) (row : Row) : Prop :=
  ∀ phase, match (member.stored row.record).lookup phase with
    | none => l.told row.key member phase = []
    | some value => member.phase value = phase ∧ ∃ c, l.told row.key member phase = [c] ∧
        (member.changed c).bind (·.lookup phase) = some value

/-- An update changes the member only by what its event says. -/
def Member.Lawful {α : Type} (member : Member α) : Prop :=
  ∀ (r : Record) (c : Changes) (seq : Nat), member.stored (r.apply c seq) = (member.changed c).getD (member.stored r)

/-- No event of these is of the member's kind, and none changes it. -/
def Member.Silent {α : Type} (member : Member α) (es : List (Kind × Changes)) : Prop :=
  ∀ e ∈ es, e.1 ≠ member.kind ∧ member.changed e.2 = none

/-- A first event fills the entry of a phase that had none. -/
structure Member.Fills {α : Type} (member : Member α) (row : Row) (e : Kind × Changes) (phase : Phase) (value : α) : Prop where
  kind : e.1 = member.kind
  named : e.2.quotaEventPhase = some phase
  fresh : (member.stored row.record).lookup phase = none
  changed : member.changed e.2 = some ((member.stored row.record).insert phase value)
  phase : member.phase value = phase

/-- What a write does to the member. -/
def Member.Tells {α : Type} (member : Member α) (row : Row) (es : List (Kind × Changes)) : Prop :=
  member.Silent es ∨ ∃ e rest phase value, es = e :: rest ∧ member.Fills row e phase value ∧ member.Silent rest

section

variable {α : Type} {member : Member α} {l l' : Ledger} {key k : Key} {row : Row} {es : List (Kind × Changes)} {r : Record}

theorem Ledger.eventsOf_write_self (kind : Kind) (c : Changes) :
    (l.write key kind c).eventsOf key = l.eventsOf key ++ [⟨l.nextSeq, key, kind, c⟩] := by
  simp [Ledger.eventsOf, Ledger.write]

theorem Ledger.eventsOf_write_other (hne : k ≠ key) (kind : Kind) (c : Changes) :
    (l.write key kind c).eventsOf k = l.eventsOf k := by
  simp [Ledger.eventsOf, Ledger.write, hne.symm]

theorem Ledger.eventsOf_writes_other (hne : k ≠ key) : (l.writes key es).eventsOf k = l.eventsOf k := by
  induction es generalizing l with
  | nil => rfl
  | cons e es ih => rw [writes_cons, ih, eventsOf_write_other hne]

theorem told_eventsOf {phase : Phase} (h : l'.eventsOf key = l.eventsOf key) :
    l'.told key member phase = l.told key member phase := by
  rw [Ledger.told, Ledger.told, Ledger.history, Ledger.history, h]

theorem told_write (kind : Kind) (c : Changes) (phase : Phase) :
    (l.write key kind c).told key member phase =
      l.told key member phase ++ if kind = member.kind ∧ c.quotaEventPhase = some phase then [c] else [] := by
  simp only [Ledger.told, Ledger.history, Ledger.eventsOf_write_self, List.filter_append, List.map_append]
  congr 1
  by_cases hkind : kind = member.kind
  · by_cases hphase : c.quotaEventPhase = some phase <;> simp [hkind, hphase]
  · simp [hkind]

theorem told_silent {phase : Phase} (h : member.Silent es) :
    (l.writes key es).told key member phase = l.told key member phase := by
  induction es generalizing l with
  | nil => rfl
  | cons e es ih =>
    rw [Ledger.writes_cons, ih fun e' hmem => h e' (List.mem_cons_of_mem e hmem), told_write,
      if_neg fun hsame => (h e List.mem_cons_self).1 hsame.1, List.append_nil]

theorem stored_silent (hlawful : member.Lawful) (h : member.Silent es) (seq : Nat) :
    member.stored (r.applyAll es seq) = member.stored r := by
  induction es generalizing r seq with
  | nil => rfl
  | cons e es ih =>
    rw [Record.applyAll, ih (fun e' hmem => h e' (List.mem_cons_of_mem e hmem)), hlawful,
      (h e List.mem_cons_self).2, Option.getD_none]

/-- Other rows' events and entries are not touched. -/
theorem Agrees.other (h : Agrees l member row) (hevents : l'.eventsOf row.key = l.eventsOf row.key) :
    Agrees l' member row := by
  intro phase
  have hphase := h phase
  rw [told_eventsOf hevents]
  exact hphase

theorem Agrees.write (h : Agrees l member row) (hlawful : member.Lawful) (htells : member.Tells row es) :
    Agrees (l.writes row.key es) member { row with record := row.record.applyAll es l.nextSeq } := by
  intro phase
  have hbefore := h phase
  show match (member.stored (row.record.applyAll es l.nextSeq)).lookup phase with
    | none => (l.writes row.key es).told row.key member phase = []
    | some value => _
  rcases htells with hsilent | ⟨e, rest, phase', value, rfl, hfills, hsilent⟩
  · rw [stored_silent hlawful hsilent]
    have htold : (l.writes row.key es).told row.key member phase = l.told row.key member phase := told_silent hsilent
    cases hlookup : (member.stored row.record).lookup phase with
    | none =>
      rw [hlookup] at hbefore
      exact htold.trans hbefore
    | some value =>
      rw [hlookup] at hbefore
      obtain ⟨hphase, c, hone, hvalue⟩ := hbefore
      exact ⟨hphase, c, htold.trans hone, hvalue⟩
  · rw [Record.applyAll, stored_silent hlawful hsilent, hlawful, hfills.changed, Option.getD_some]
    have htold : (l.writes row.key (e :: rest)).told row.key member phase =
        l.told row.key member phase ++ if phase' = phase then [e.2] else [] := by
      rw [Ledger.writes_cons, told_silent hsilent, told_write, hfills.named]
      simp [hfills.kind]
    by_cases hphase : phase = phase'
    · subst hphase
      rw [hfills.fresh] at hbefore
      rw [AList.lookup_insert]
      refine ⟨hfills.phase, e.2, ?_, ?_⟩
      · show (l.writes row.key (e :: rest)).told row.key member phase = [e.2]
        rw [htold, hbefore, if_pos rfl, List.nil_append]
      · rw [hfills.changed, Option.bind_some, AList.lookup_insert]
    · rw [AList.lookup_insert_ne hphase]
      rw [if_neg fun heq => hphase heq.symm, List.append_nil] at htold
      cases hlookup : (member.stored row.record).lookup phase with
      | none =>
        rw [hlookup] at hbefore
        exact htold.trans hbefore
      | some value' =>
        rw [hlookup] at hbefore
        obtain ⟨hvalue, c, hone, hchanged⟩ := hbefore
        exact ⟨hvalue, c, htold.trans hone, hchanged⟩

end

/-! ## Writes -/

/-- The kinds that name a phase. -/
def Kind.quota : Kind → Bool
  | .quotaPreparation | .quotaObservationBound | .quotaObserved | .quotaExitPending | .quotaPhaseClosed => true
  | _ => false

/-- The event is of no quota kind and changes no quota member. -/
structure Quiet (e : Kind × Changes) : Prop where
  kind : e.1.quota = false
  preparations : e.2.quotaPreparations = none
  bindings : e.2.quotaBindings = none
  observed : e.2.quotaObserved = none
  pending : e.2.quotaPending = none
  closed : e.2.quotaClosed = none

/-- What a write does to the five members. -/
structure Tells (row : Row) (es : List (Kind × Changes)) : Prop where
  preparations : preparations.Tells row es
  bindings : quotaBindings.Tells row es
  observed : observations.Tells row es
  pending : pendings.Tells row es
  closed : closures.Tells row es

section

variable {site : Site} {m : Mem} {g : Grounds} {l l' : Ledger} {key k : Key} {row : Row} {es : List (Kind × Changes)}

theorem Quiet.other {e : Kind × Changes} {kind : Kind} (h : Quiet e) (hkind : kind.quota = true) : e.1 ≠ kind := by
  intro heq
  rw [← heq, h.kind] at hkind
  cases hkind

theorem Tells.quiet (h : ∀ e ∈ es, Quiet e) : Tells row es where
  preparations := .inl fun e he => ⟨(h e he).other rfl, (h e he).preparations⟩
  bindings := .inl fun e he => ⟨(h e he).other rfl, (h e he).bindings⟩
  observed := .inl fun e he => ⟨(h e he).other rfl, (h e he).observed⟩
  pending := .inl fun e he => ⟨(h e he).other rfl, (h e he).pending⟩
  closed := .inl fun e he => ⟨(h e he).other rfl, (h e he).closed⟩

theorem Tells.one {e : Kind × Changes} (h : Quiet e) : Tells row [e] := by
  refine .quiet fun e' he' => ?_
  rw [List.mem_singleton.mp he']
  exact h

theorem stoppedEvent_quiet (row : Row) (helperDelivered : Option Bool) (phase : Phase) (stopped : Stopped) :
    Quiet (stoppedEvent row helperDelivered phase stopped) := by
  simp only [stoppedEvent]
  split
  · exact ⟨rfl, rfl, rfl, rfl, rfl, rfl⟩
  · split
    · split
      · exact ⟨rfl, rfl, rfl, rfl, rfl, rfl⟩
      · exact ⟨rfl, rfl, rfl, rfl, rfl, rfl⟩
    · exact ⟨rfl, rfl, rfl, rfl, rfl, rfl⟩

theorem blockedStart_quiet (stale : Row) : Quiet ((blockedStart stale).1, (blockedStart stale).2.1) := by
  simp only [blockedStart]
  split
  · exact ⟨rfl, rfl, rfl, rfl, rfl, rfl⟩
  · exact ⟨rfl, rfl, rfl, rfl, rfl, rfl⟩

/-- A phase is observed only where its helper is delivered. -/
def Heard (row : Row) : Prop := ∀ phase, (row.record.quotaObserved.lookup phase).isSome = true →
  ⟨row.key.exec phase, some .helper⟩ ∈ row.record.deliveryIntents

/-- An observation before the helper's own delivery is the phase's first. -/
theorem Heard.first {d : DeliveryId} (h : Heard row) (hable : Deliverable m l row d) (hstage : d.stage = some .helper) :
    row.record.quotaObserved.lookup row.record.phase = none := by
  by_contra hsome
  have hmem := h row.record.phase (Option.isSome_iff_ne_none.mpr hsome)
  have hd : d = ⟨row.key.exec row.record.phase, some .helper⟩ := by
    rw [← hable.exec, ← hstage]
  rw [← hd] at hmem
  exact (undelivered_new hable.fresh).1 hmem

theorem Write.tells (hwrite : Write site m g l row es) (hheard : Heard row) : Tells row es := by
  cases hwrite with
  | prepared phase state grant allocation hcancel hhandle hnone =>
    exact ⟨.inr ⟨_, [], phase, _, rfl, ⟨rfl, rfl, hnone, rfl, rfl⟩, by simp [Member.Silent]⟩,
      .inl (by simp [Member.Silent, quotaBindings]), .inl (by simp [Member.Silent, observations]),
      .inl (by simp [Member.Silent, pendings]), .inl (by simp [Member.Silent, closures])⟩
  | observationBound phase grant hhandle hnone =>
    exact ⟨.inl (by simp [Member.Silent, preparations]),
      .inr ⟨_, [], phase, _, rfl, ⟨rfl, rfl, hnone, rfl, rfl⟩, by simp [Member.Silent]⟩,
      .inl (by simp [Member.Silent, observations]),
      .inl (by simp [Member.Silent, pendings]), .inl (by simp [Member.Silent, closures])⟩
  | pending proof gaps hexit hshown hnone hopen =>
    exact ⟨.inl (by simp [Member.Silent, preparations, pendingChanges]),
      .inl (by simp [Member.Silent, quotaBindings, pendingChanges]),
      .inl (by simp [Member.Silent, observations, pendingChanges]),
      .inr ⟨_, [], row.record.phase, _, rfl, ⟨rfl, rfl, hnone, rfl, rfl⟩, by simp [Member.Silent]⟩,
      .inl (by simp [Member.Silent, closures, pendingChanges])⟩
  | closed phase fence gaps hphase hnone hsession hpending =>
    exact ⟨.inl (by simp [Member.Silent, preparations]), .inl (by simp [Member.Silent, quotaBindings]),
      .inl (by simp [Member.Silent, observations]), .inl (by simp [Member.Silent, pendings]),
      .inr ⟨_, [], phase, _, rfl, ⟨rfl, rfl, hnone, rfl, rfl⟩, by simp [Member.Silent]⟩⟩
  | delivered d before hmay hable hbefore =>
    cases hbefore with
    | nothing => exact .one ⟨rfl, rfl, rfl, rfl, rfl, rfl⟩
    | bootstrap | helper =>
      refine .quiet fun e he => ?_
      simp only [List.cons_append, List.nil_append, List.mem_cons, List.not_mem_nil, or_false] at he
      rcases he with rfl | rfl
      · exact ⟨rfl, rfl, rfl, rfl, rfl, rfl⟩
      · exact ⟨rfl, rfl, rfl, rfl, rfl, rfl⟩
    | quota observation hstage =>
      have hnone := hheard.first hable hstage
      exact ⟨.inl (by simp [Member.Silent, preparations]), .inl (by simp [Member.Silent, quotaBindings]),
        .inr ⟨_, _, row.record.phase, _, rfl, ⟨rfl, rfl, hnone, rfl, rfl⟩, by simp [Member.Silent, observations]⟩,
        .inl (by simp [Member.Silent, pendings]), .inl (by simp [Member.Silent, closures])⟩
  | phaseStopped helperDelivered phase stopped hkind hstopped => exact .one (stoppedEvent_quiet row helperDelivered phase stopped)
  | startBlocked stale hidle hopen hkey hstart hcancel => exact .one (blockedStart_quiet stale)
  | exitFrozen proof frozen hexit hshown hopen hphase hcancel =>
    refine .quiet fun e he => ?_
    simp only [List.mem_cons, List.not_mem_nil, or_false] at he
    rcases he with rfl | rfl
    · exact ⟨rfl, rfl, rfl, rfl, rfl, rfl⟩
    · exact ⟨rfl, rfl, rfl, rfl, rfl, rfl⟩
  | _ => exact .one ⟨rfl, rfl, rfl, rfl, rfl, rfl⟩

theorem Heard.kept {r : Record} (h : Heard row) (hobserved : r.quotaObserved = row.record.quotaObserved)
    (hdelivered : r.deliveryIntents = row.record.deliveryIntents) : Heard { row with record := r } := by
  intro phase hsome
  show _ ∈ r.deliveryIntents
  rw [hdelivered]
  exact h phase (hobserved ▸ hsome)

/-- The observation and the intent of the helper are recorded together. -/
theorem Write.heard (hwrite : Write site m g l row es) (hheard : Heard row) (seq : Nat) :
    Heard { row with record := row.record.applyAll es seq } := by
  cases hwrite with
  | delivered d before hmay hable hbefore =>
    intro phase hsome
    cases hbefore with
    | nothing => exact List.mem_append_left [d] (hheard phase hsome)
    | bootstrap => exact List.mem_append_left [d] (hheard phase hsome)
    | helper => exact List.mem_append_left [d] (hheard phase hsome)
    | quota observation hstage =>
      show _ ∈ row.record.deliveryIntents ++ [d]
      replace hsome : ((row.record.quotaObserved.insert row.record.phase
        ⟨row.record.phase, observation⟩).lookup phase).isSome = true := hsome
      by_cases hphase : phase = row.record.phase
      · have hd : d = ⟨row.key.exec phase, some .helper⟩ := by rw [hphase, ← hable.exec, ← hstage]
        rw [hd]
        exact List.mem_append_right _ List.mem_cons_self
      · rw [AList.lookup_insert_ne hphase] at hsome
        exact List.mem_append_left [d] (hheard phase hsome)
  | phaseStopped helperDelivered phase stopped hkind hstopped =>
    obtain ⟨-, -, -, hdelivered, -⟩ := stoppedEvent_changes row helperDelivered phase stopped
    have hobserved := (stoppedEvent_quiet row helperDelivered phase stopped).observed
    refine hheard.kept ?_ ?_
    · simp only [Record.applyAll, Record.apply, hobserved, Option.getD_none]
    · simp only [Record.applyAll, Record.apply, hdelivered, Option.getD_none]
  | startBlocked stale hidle hopen hkey hstart hcancelled =>
    obtain ⟨-, -, hdelivered, -⟩ := blockedStart_changes stale
    have hobserved : (blockedStart stale).2.1.quotaObserved = none := (blockedStart_quiet stale).observed
    refine hheard.kept ?_ ?_
    · simp only [Record.applyAll, Record.apply, hobserved, Option.getD_none]
    · simp only [Record.applyAll, Record.apply, hdelivered, Option.getD_none]
  | _ => exact hheard

/-! ## Ledgers -/

/-- The five members of a row agree with its events. -/
structure Agreed (l : Ledger) (row : Row) : Prop where
  preparations : Agrees l preparations row
  bindings : Agrees l quotaBindings row
  observed : Agrees l observations row
  pending : Agrees l pendings row
  closed : Agrees l closures row
  heard : Heard row

/-- Every event is of a row, and every row agrees with its events. -/
structure Ledger.Agreed (l : Ledger) : Prop where
  keyed : ∀ event ∈ l.events, (l.get event.key).isSome = true
  rows : ∀ k row, l.get k = some row → Broker.Agreed l row

theorem Agreed.other (h : Agreed l row) (hevents : l'.eventsOf row.key = l.eventsOf row.key) : Agreed l' row where
  preparations := h.preparations.other hevents
  bindings := h.bindings.other hevents
  observed := h.observed.other hevents
  pending := h.pending.other hevents
  closed := h.closed.other hevents
  heard := h.heard

theorem Agreed.write (h : Agreed l row) (htells : Tells row es)
    (hheard : Heard { row with record := row.record.applyAll es l.nextSeq }) :
    Agreed (l.writes row.key es) { row with record := row.record.applyAll es l.nextSeq } where
  preparations := h.preparations.write (fun _ _ _ => rfl) htells.preparations
  bindings := h.bindings.write (fun _ _ _ => rfl) htells.bindings
  observed := h.observed.write (fun _ _ _ => rfl) htells.observed
  pending := h.pending.write (fun _ _ _ => rfl) htells.pending
  closed := h.closed.write (fun _ _ _ => rfl) htells.closed
  heard := hheard

/-- A row just admitted has no entry, and no event yet. -/
theorem Agreed.accepted (hrecord : row.record = Record.accepted) (hevents : l.eventsOf row.key = []) : Agreed l row := by
  have hall : ∀ {α : Type} (member : Member α), member.stored Record.accepted = ∅ → Agrees l member row := by
    intro α member hempty phase
    rw [hrecord, hempty, AList.lookup_empty]
    show l.told row.key member phase = []
    rw [Ledger.told, Ledger.history, hevents]
    rfl
  refine ⟨hall _ rfl, hall _ rfl, hall _ rfl, hall _ rfl, hall _ rfl, fun phase hsome => ?_⟩
  rw [hrecord] at hsome
  cases hsome

theorem Ledger.mem_writes_events {event : Event} (h : event ∈ (l.writes key es).events) :
    event ∈ l.events ∨ event.key = key := by
  induction es generalizing l with
  | nil => exact .inl h
  | cons e es ih =>
    rcases ih h with hwritten | hkey
    · rcases List.mem_append.mp hwritten with hold | hnew
      · exact .inl hold
      · rw [List.mem_singleton.mp hnew]
        exact .inr rfl
    · exact .inr hkey

namespace Ledger.Agreed

theorem created : Ledger.created.Agreed where
  keyed _ h := by cases h
  rows _ _ h := by cases h

/-- Only the rows and the events count. -/
theorem same (h : l.Agreed) (hrows : l'.rows = l.rows) (hevents : l'.events = l.events) : l'.Agreed where
  keyed event hmem := by
    rw [Ledger.get, hrows]
    exact h.keyed event (hevents ▸ hmem)
  rows k row hget := by
    rw [Ledger.get, hrows] at hget
    refine (h.rows k row hget).other ?_
    rw [Ledger.eventsOf, Ledger.eventsOf, hevents]

theorem write (h : l.Agreed) (hget : l.get row.key = some row) (htells : Tells row es)
    (hheard : Heard { row with record := row.record.applyAll es l.nextSeq }) : (l.writes row.key es).Agreed where
  keyed event hmem := by
    by_cases hkey : event.key = row.key
    · rw [hkey, Ledger.get_writes_self hget]
      rfl
    · rw [Ledger.get_writes_other hkey]
      exact h.keyed event ((Ledger.mem_writes_events hmem).resolve_right hkey)
  rows k row' hget' := by
    by_cases hkey : k = row.key
    · rw [hkey, Ledger.get_writes_self hget, Option.some.injEq] at hget'
      subst hget'
      exact (h.rows row.key row hget).write htells hheard
    · rw [Ledger.get_writes_other hkey] at hget'
      refine (h.rows k row' hget').other (Ledger.eventsOf_writes_other ?_)
      rw [Ledger.get_key hget']
      exact hkey

/-- The row an admission adds, before its events. -/
theorem add (h : l.Agreed) (leases : Leases) (hnone : l.get row.key = none) (hrecord : row.record = Record.accepted) :
    Ledger.Agreed { l with leases, rows := l.rows ++ [row] } := by
  have hget : ∀ k, Ledger.get { l with leases, rows := l.rows ++ [row] } k =
      (l.get k).or (if row.key = k then some row else none) := by
    intro k
    simp only [Ledger.get, List.find?_append, List.find?_singleton, decide_eq_true_eq]
  have hevents : l.eventsOf row.key = [] := by
    refine List.filter_eq_nil_iff.mpr fun event hmem hkey => ?_
    have hsome := h.keyed event hmem
    rw [of_decide_eq_true hkey, hnone] at hsome
    cases hsome
  refine ⟨fun event hmem => ?_, fun k row' hfound => ?_⟩
  · rw [hget, Option.isSome_or, h.keyed event hmem, Bool.true_or]
  · rw [hget] at hfound
    cases hold : l.get k with
    | some old =>
      rw [hold, Option.some_or, Option.some.injEq] at hfound
      subst hfound
      exact (h.rows k _ hold).other rfl
    | none =>
      rw [hold, Option.none_or] at hfound
      split at hfound
      · rw [Option.some.injEq] at hfound
        subst hfound
        exact .accepted hrecord hevents
      · cases hfound

theorem effect (h : l.Agreed) (heffect : Effect site m g key l l') : l'.Agreed := by
  cases heffect with
  | @write row es hget hwrite =>
    have hkey := Ledger.get_key hget
    subst hkey
    have hheard := (h.rows row.key row hget).heard
    exact h.write hget (hwrite.tells hheard) (hwrite.heard hheard l.nextSeq)
  | grow leases hkept => exact h.same rfl rfl
  | release hkey hlive hidle hrelease =>
    obtain ⟨leases, rfl⟩ := release_ledger hrelease
    exact h.same rfl rfl
  | releaseStopped hfound hjob hround hstopped hrelease =>
    obtain ⟨leases, rfl⟩ := releaseStopped_ledger hrelease
    exact h.same rfl rfl
  | admitted row leases scopes policy quota hkey hrecord hnone hparent hopen hbytes hkept =>
    subst hkey
    have hadded := h.add leases hnone hrecord
    have hget : Ledger.get { l with leases, rows := l.rows ++ [row] } row.key = some row := by
      rw [Ledger.get] at hnone ⊢
      simp [List.find?_append, hnone]
    refine hadded.write hget (.quiet fun e he => ?_) fun phase hsome => ?_
    · simp only [List.mem_cons, List.not_mem_nil, or_false] at he
      rcases he with rfl | rfl
      · exact ⟨rfl, rfl, rfl, rfl, rfl, rfl⟩
      · refine ⟨?_, rfl, rfl, rfl, rfl, rfl⟩
        cases row.key.ns <;> rfl
    · rw [hrecord] at hsome
      cases hsome

theorem moves (h : l.Agreed) (hmoves : Moves site m g l l') : l'.Agreed := by
  induction hmoves with
  | refl => exact h
  | tail _ hmove ih =>
    cases hmove with
    | effect key heffect => exact ih.effect heffect
    | revoked hmay revoked => exact ih.same rfl rfl

end Ledger.Agreed

/-! ## Runs -/

/-- At most one event of the member's kind names the phase, the entry is there exactly
when the event is, and `original` answers it. -/
structure Unique {α : Type} [DecidableEq α] (l : Ledger) (row : Row) (member : Member α) (phase : Phase) : Prop where
  once : (l.told row.key member phase).length ≤ 1
  recorded : recorded l row phase member = ((member.stored row.record).lookup phase).isSome
  original : ∀ value, original l row phase member = .ok value ↔ (member.stored row.record).lookup phase = some value

theorem recorded_told {α : Type} (member : Member α) (phase : Phase) :
    recorded l row phase member = !(l.told row.key member phase).isEmpty := by
  rw [recorded, Ledger.told, Bool.eq_iff_iff]
  simp

theorem originals_told {α : Type} (member : Member α) (phase : Phase) : originals l row phase member =
    ((l.told row.key member phase).filterMap fun c => (member.changed c).bind (·.lookup phase)).filter
      (member.phase · = phase) := by
  rw [originals, Ledger.told, List.filterMap_filter]
  simp only [decide_eq_true_eq]

theorem Agrees.unique {α : Type} [DecidableEq α] {member : Member α} (h : Agrees l member row) (phase : Phase) :
    Unique l row member phase := by
  have hphase := h phase
  cases hlookup : (member.stored row.record).lookup phase with
  | none =>
    rw [hlookup] at hphase
    replace hphase : l.told row.key member phase = [] := hphase
    refine ⟨by simp [hphase], by simp [recorded_told, hphase, hlookup], fun value => ?_⟩
    simp [original, hlookup]
  | some stored =>
    rw [hlookup] at hphase
    obtain ⟨hvalue, c, hone, hchanged⟩ := hphase
    refine ⟨by simp [hone], by simp [recorded_told, hone, hlookup], fun value => ?_⟩
    have horiginals : originals l row phase member = [stored] := by
      simp [originals_told, hone, hchanged, hvalue]
    simp [original, hlookup, horiginals, require]

/-- The quota members of the row, in one phase. -/
structure Settled (l : Ledger) (row : Row) (phase : Phase) : Prop where
  preparations : Unique l row preparations phase
  bindings : Unique l row quotaBindings phase
  observed : Unique l row observations phase
  pending : Unique l row pendings phase
  closed : Unique l row closures phase

/-- The quota members of every row, in every phase. -/
def Ledger.Settled (l : Ledger) : Prop := ∀ row ∈ l.rows, ∀ phase, Broker.Settled l row phase

/-- In every run each quota member of each row agrees with the one event that wrote it. -/
theorem run_settled (site : Site) (actions : List Action) : (run site .created actions).ledger.Settled := by
  have hrun : (run site .created actions).Sound site ∧ (run site .created actions).ledger.Agreed := by
    refine Machine.exec_inv (I := fun s : Sys => s.Sound site ∧ s.ledger.Agreed) (fun s a h => ?_)
      ⟨.created site, .created⟩
    obtain ⟨hsound, hagreed⟩ := h
    obtain ⟨exited, -, hstepped⟩ := step_stepped hsound a
    exact ⟨hstepped.sound, hagreed.moves hstepped.moves⟩
  intro row hrow phase
  have hrowAgreed := hrun.2.rows row.key row (Ledger.get_of_mem hrun.1.ledger.nodup hrow)
  exact ⟨hrowAgreed.preparations.unique phase, hrowAgreed.bindings.unique phase, hrowAgreed.observed.unique phase,
    hrowAgreed.pending.unique phase, hrowAgreed.closed.unique phase⟩

end

end LocalHand.Broker
