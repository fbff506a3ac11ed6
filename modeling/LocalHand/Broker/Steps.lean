/-
What the process's own tables and its coordinator hold about the ledger, and
that every step of the broker is a sequence of effects under it. The table of
observed executions, those being reattached and the coordinator's hand name
executions of the rows' current phases; a row a tick holds is as stale as the
tick, but the phase it may start is still no other's.
-/
import LocalHand.Broker.Later

namespace LocalHand.Broker

open Relation (ReflTransGen)

/-- The execution is of the row's phase, unless the row is in none. -/
def Attends (l : Ledger) (exec : ExecId) (key : Key) : Prop :=
  ∃ row, l.get key = some row ∧ ∃ phase, exec = key.exec phase ∧
    (row.record.phase = phase ∨ Phase.running row.record.phase = false)

/-- What a tick still knows of a row it read when it began. -/
def Stale (l : Ledger) (row : Row) : Prop :=
  ∃ live, l.get row.key = some live ∧ live.parent = row.parent ∧
    (startable row.record = true → Phase.running live.record.phase = false)

/-- The row has an intent for the phase. -/
def Intended (l : Ledger) (key : Key) (phase : Phase) : Prop :=
  ∃ row, l.get key = some row ∧ phase ∈ row.record.handles.keys

/-- Neither table of the process has the row. -/
def Unobserved (m : Mem) (key : Key) : Prop := m.active.lookup key = none ∧ m.recovering.lookup key = none

/-- What the coordinator holds at one turn of a row. -/
def TurnOk (l : Ledger) (m : Mem) (proved : List ExecId) (row : Row) : Turn → Prop
  | .resume | .stopped | .attach => Stale l row
  | .observe => Stale l row ∧ (m.active.lookup row.key = none → Unobserved m row.key)
  | .identity attached proof =>
    Attends l attached.exec row.key ∧ (proof.exited = true → attached.exec ∈ proved)
  | .completing proof popped =>
    (proof.exited = true → ∃ exec ∈ proved, Attends l exec row.key) ∧
      ∀ attached, popped = some attached → Attends l attached.exec row.key
  | .unknown _ => True
  | .decide | .blocked => Stale l row ∧ Unobserved m row.key
  | .enqueue phase _ => Attends l (row.key.exec phase) row.key ∧ Intended l row.key phase
  | .acknowledge phase _ _ => Intended l row.key phase

def CoordOk (l : Ledger) (m : Mem) (proved : List ExecId) : Coord → Prop
  | .reattaching entries => ∀ entry ∈ entries, Attends l entry.2.exec entry.1
  | .row turn row rest => TurnOk l m proved row turn ∧ (row.key :: rest.map Row.key).Nodup ∧ ∀ other ∈ rest, Stale l other
  | _ => True

/-- The tables and the coordinator, against the ledger. -/
structure Coherent (site : Site) (l : Ledger) (m : Mem) (coord : Coord) (proved : List ExecId) : Prop where
  ledger : l.Sound site (· ∈ proved)
  active : ∀ key attached, m.active.lookup key = some attached → Attends l attached.exec key
  recovering : ∀ key pending, m.recovering.lookup key = some pending → Attends l pending.attached.exec key
  coord : CoordOk l m proved coord

def Sys.Sound (site : Site) (s : Sys) : Prop := Coherent site s.ledger s.mem s.coord s.proved

variable {site : Site} {env : Env} {m : Mem} {g : Grounds} {l l' : Ledger} {key k : Key} {row : Row} {exec : ExecId}
  {coord : Coord} {proved proved' : List ExecId}

/-! ## Over transactions that start nothing -/

theorem Attends.moves (h : Attends l exec key) (hmoves : Moves site m g l l') (hstarts : ¬ g.starts) :
    Attends l' exec key := by
  obtain ⟨row, hget, phase, hexec, hphase⟩ := h
  obtain ⟨row', hget', hlater⟩ := hmoves.later hget
  refine ⟨row', hget', phase, hexec, ?_⟩
  rcases (hlater.unstarted hstarts).2 with heq | hidle
  · rw [heq]
    exact hphase
  · exact .inr hidle

theorem Stale.moves (h : Stale l row) (hmoves : Moves site m g l l') (hstarts : ¬ g.starts) : Stale l' row := by
  obtain ⟨live, hget, hparent, hidle⟩ := h
  obtain ⟨live', hget', hlater⟩ := hmoves.later hget
  refine ⟨live', hget', hlater.parent_eq.trans hparent, fun hstart => ?_⟩
  rcases (hlater.unstarted hstarts).2 with heq | hidle'
  · rw [heq]
    exact hidle hstart
  · exact hidle'

theorem Intended.moves {phase : Phase} (h : Intended l key phase) (hmoves : Moves site m g l l') :
    Intended l' key phase := by
  obtain ⟨row, hget, hmem⟩ := h
  obtain ⟨row', hget', hlater⟩ := hmoves.later hget
  exact ⟨row', hget', hlater.handles phase hmem⟩

theorem TurnOk.moves {turn : Turn} {m' : Mem} (h : TurnOk l m' proved row turn) (hmoves : Moves site m g l l')
    (hstarts : ¬ g.starts) : TurnOk l' m' proved row turn := by
  cases turn with
  | resume => exact Stale.moves h hmoves hstarts
  | stopped => exact Stale.moves h hmoves hstarts
  | attach => exact Stale.moves h hmoves hstarts
  | observe => exact ⟨h.1.moves hmoves hstarts, h.2⟩
  | identity attached proof => exact ⟨h.1.moves hmoves hstarts, h.2⟩
  | completing proof popped =>
    refine ⟨fun hexit => ?_, fun attached hsome => (h.2 attached hsome).moves hmoves hstarts⟩
    obtain ⟨exec, hproved, hattends⟩ := h.1 hexit
    exact ⟨exec, hproved, hattends.moves hmoves hstarts⟩
  | unknown gap => trivial
  | decide => exact ⟨h.1.moves hmoves hstarts, h.2⟩
  | blocked => exact ⟨h.1.moves hmoves hstarts, h.2⟩
  | enqueue phase allocated => exact ⟨h.1.moves hmoves hstarts, h.2.moves hmoves⟩
  | acknowledge phase handle allocated => exact Intended.moves h hmoves

theorem CoordOk.moves {m' : Mem} (h : CoordOk l m' proved coord) (hmoves : Moves site m g l l')
    (hstarts : ¬ g.starts) : CoordOk l' m' proved coord := by
  cases coord with
  | reattaching entries => exact fun entry hmem => (h entry hmem).moves hmoves hstarts
  | row turn row rest =>
    exact ⟨h.1.moves hmoves hstarts, h.2.1, fun other hmem => (h.2.2 other hmem).moves hmoves hstarts⟩
  | _ => trivial

theorem Coherent.moves (h : Coherent site l m coord proved) (hmoves : Moves site m g l l')
    (hexited : g.exited = (· ∈ proved)) (hstarts : ¬ g.starts) : Coherent site l' m coord proved where
  ledger := by
    have hsound := h.ledger
    rw [← hexited] at hsound ⊢
    exact hsound.moves hmoves
  active key attached hlookup := (h.active key attached hlookup).moves hmoves hstarts
  recovering key pending hlookup := (h.recovering key pending hlookup).moves hmoves hstarts
  coord := h.coord.moves hmoves hstarts

theorem TurnOk.mono {turn : Turn} (h : TurnOk l m proved row turn) (hsub : ∀ exec ∈ proved, exec ∈ proved') :
    TurnOk l m proved' row turn := by
  cases turn with
  | identity attached proof => exact ⟨h.1, fun hexit => hsub _ (h.2 hexit)⟩
  | completing proof popped =>
    refine ⟨fun hexit => ?_, h.2⟩
    obtain ⟨exec, hproved, hattends⟩ := h.1 hexit
    exact ⟨exec, hsub exec hproved, hattends⟩
  | _ => exact h

theorem Coherent.mono (h : Coherent site l m coord proved) (hsub : ∀ exec ∈ proved, exec ∈ proved') :
    Coherent site l m coord proved' where
  ledger := h.ledger.mono hsub
  active := h.active
  recovering := h.recovering
  coord := by
    have hcoord := h.coord
    cases coord with
    | row turn row rest => exact ⟨hcoord.1.mono hsub, hcoord.2⟩
    | _ => exact hcoord

theorem Coherent.turn {coord' : Coord} (h : Coherent site l m coord proved) (hcoord : CoordOk l m proved coord') :
    Coherent site l m coord' proved := { h with coord := hcoord }

/-- What the coordinator goes on with after a row. -/
theorem nextRow_ok {rest : List Row} (hnodup : (rest.map Row.key).Nodup) (hstale : ∀ other ∈ rest, Stale l other) :
    CoordOk l m proved (nextRow rest) := by
  cases rest with
  | nil => trivial
  | cons row rest =>
    exact ⟨hstale row List.mem_cons_self, hnodup, fun other hmem => hstale other (List.mem_cons_of_mem row hmem)⟩

/-- A row just read is not stale. -/
theorem Ledger.Sound.stale (h : l.Sound site (· ∈ proved)) (hrow : row ∈ l.rows) : Stale l row := by
  refine ⟨row, Ledger.get_of_mem h.nodup hrow, rfl, fun hstart => ?_⟩
  simp only [startable, Bool.or_eq_true, decide_eq_true_eq] at hstart
  rcases hstart with (haccepted | hphase) | hphase
  · exact (h.rows row hrow).waiting haccepted
  · rw [hphase]
    rfl
  · rw [hphase]
    rfl

/-! ## Turns of the coordinator -/

/-- What a step does to the ledger, and that the process is sound after it. -/
structure Stepped (site : Site) (g : Grounds) (s s' : Sys) : Prop where
  moves : Moves site s.mem g s.ledger s'.ledger
  sound : s'.Sound site

/-- The coordinator goes on with no row that has been finished meanwhile. -/
structure Timely (s : Sys) : Prop where
  completing : ∀ {row rest proof popped live}, s.coord = .row (.completing proof popped) row rest →
    proof.exited = true → s.ledger.get row.key = some live → live.record.lifecycle ≠ .terminal
  deciding : ∀ {row rest live}, s.coord = .row .decide row rest → startable row.record = true →
    s.ledger.get row.key = some live →
    (live.record.cancelRequested = false ∨ row.record.cancelRequested = true) → live.record.lifecycle ≠ .terminal

section

variable {s : Sys} {answers : Answers} {rest : List Row}

theorem tx_ok {α : Type} {result : Except Fault α} {a : α} (h : answers.tx result = .ok a) : result = .ok a := by
  unfold Answers.tx at h
  split at h
  · cases h
  · exact h

theorem Stepped.goes {coord : Coord} (h : s.Sound site) (hcoord : CoordOk s.ledger s.mem s.proved coord) :
    Stepped site g s { s with coord } := ⟨.refl, Coherent.turn h hcoord⟩

/-- A step that waits for a condition. -/
theorem Stepped.when {p : Prop} [Decidable p] {s' : Sys} (h : s.Sound site) (hstep : p → Stepped site g s s') :
    Stepped site g s (if p then s' else s) := by
  split
  · next hp => exact hstep hp
  · exact ⟨.refl, h⟩

/-- The ledger is written, and the coordinator goes on. -/
theorem Stepped.write {coord : Coord} (h : s.Sound site) (hexited : g.exited = (· ∈ s.proved)) (hstarts : ¬ g.starts)
    (hmoves : Moves site s.mem g s.ledger l')
    (hcoord : CoordOk l' s.mem s.proved s.coord → CoordOk l' s.mem s.proved coord) :
    Stepped site g s { s with ledger := l', coord } := by
  have hafter := Coherent.moves h hmoves hexited hstarts
  exact ⟨hmoves, hafter.turn (hcoord hafter.coord)⟩

/-- After a row, the rest of the tick. -/
theorem CoordOk.next {turn : Turn} (h : CoordOk l m proved (.row turn row rest)) : CoordOk l m proved (nextRow rest) :=
  nextRow_ok (List.nodup_cons.mp h.2.1).2 h.2.2

theorem CoordOk.unknown {turn : Turn} (h : CoordOk l m proved (.row turn row rest)) (gap : String) :
    CoordOk l m proved (.row (.unknown gap) row rest) := ⟨trivial, h.2⟩

theorem Ledger.Sound.shown_pending (h : l.Sound site g.exited) (hget : l.get key = some row) {phase : Phase}
    (hphase : row.record.phase = phase) (hpending : (row.record.quotaPending.lookup phase).isSome = true) :
    g.shown row :=
  (h.rows row (Ledger.get_mem hget)).of_pending (.inl hphase) hpending _

/-- An execution of the row's phase that has exited shows the row's. -/
theorem Ledger.Sound.shown_attends (h : l.Sound site g.exited) (hattends : Attends l exec key) (hexited : g.exited exec)
    (hget : l.get key = some row) : g.shown row := by
  obtain ⟨live, hlive, phase, rfl, hphase⟩ := hattends
  rw [hget, Option.some.injEq] at hlive
  subst hlive
  intro hmem
  have hrunning := (h.rows row (Ledger.get_mem hget)).phases _ hmem
  rcases hphase with heq | hidle
  · rw [heq, Ledger.get_key hget]
    exact hexited
  · rw [hidle] at hrunning
    cases hrunning

theorem resumeClosed_moves {phase : Phase} (h : s.Sound site) (hexited : g.exited = (· ∈ s.proved))
    (hresume : resumeClosed site s.mem s.ledger key phase = .ok (some l')) : Moves site s.mem g s.ledger l' := by
  have hledger : s.ledger.Sound site g.exited := hexited ▸ h.ledger
  refine (resumeClosed_effects (fun row hget => hledger.rooted row (Ledger.get_mem hget))
    (fun row hget hphase hpending => hledger.shown_pending hget hphase hpending) hresume).moves

theorem resume_stepped (h : s.Sound site) (hcoord : s.coord = .row .resume row rest)
    (hexited : g.exited = (· ∈ s.proved)) (hstarts : ¬ g.starts) :
    Stepped site g s (s.resume site answers row rest) := by
  have hok : CoordOk s.ledger s.mem s.proved (.row .resume row rest) := hcoord ▸ h.coord
  unfold Sys.resume
  split
  · exact .goes h ⟨hok.1, hok.2⟩
  · split
    · exact .goes h trivial
    · next l' hresume =>
      refine .write h hexited hstarts (resumeClosed_moves h hexited (tx_ok hresume)) fun hafter => ?_
      rw [hcoord] at hafter
      exact hafter.next
    · exact .goes h ⟨hok.1, hok.2⟩

theorem stopped_stepped (h : s.Sound site) (hcoord : s.coord = .row .stopped row rest)
    (hexited : g.exited = (· ∈ s.proved)) (hstarts : ¬ g.starts) :
    Stepped site g s (s.stopped site answers row rest) := by
  have hok : CoordOk s.ledger s.mem s.proved (.row .stopped row rest) := hcoord ▸ h.coord
  unfold Sys.stopped
  split
  · exact .goes h ⟨hok.1, hok.2⟩
  · split
    · exact .goes h trivial
    · next l' hstopped =>
      refine .write h hexited hstarts (completeStopped_effects (tx_ok hstopped)).moves fun hafter => ?_
      rw [hcoord] at hafter
      exact hafter.next
    · exact .goes h ⟨hok.1, hok.2⟩

/-! ### Observation -/

theorem lookup_insert_some {κ β : Type} [DecidableEq κ] {table : AList fun _ : κ => β} {k k' : κ} {b b' : β}
    (h : (table.insert k b).lookup k' = some b') : k' = k ∧ b' = b ∨ table.lookup k' = some b' := by
  by_cases heq : k' = k
  · subst heq
    rw [AList.lookup_insert, Option.some.injEq] at h
    exact .inl ⟨rfl, h.symm⟩
  · rw [AList.lookup_insert_ne heq] at h
    exact .inr h

theorem lookup_erase_some {κ β : Type} [DecidableEq κ] {table : AList fun _ : κ => β} {k k' : κ} {b : β}
    (h : (table.erase k).lookup k' = some b) : table.lookup k' = some b := by
  by_cases heq : k' = k
  · subst heq
    rw [AList.lookup_erase] at h
    cases h
  · rw [AList.lookup_erase_ne heq] at h
    exact h

/-- The tables alone, against the ledger. -/
structure Tables (l : Ledger) (m : Mem) : Prop where
  active : ∀ key attached, m.active.lookup key = some attached → Attends l attached.exec key
  recovering : ∀ key pending, m.recovering.lookup key = some pending → Attends l pending.attached.exec key

theorem Coherent.tables (h : Coherent site l m coord proved) : Tables l m := ⟨h.active, h.recovering⟩

theorem Tables.observing (h : Tables l m) (attached : Attached) (hattends : Attends l attached.exec key) :
    Tables l { m with active := m.active.insert key attached } where
  active k a hlookup := by
    rcases lookup_insert_some hlookup with ⟨rfl, rfl⟩ | hold
    · exact hattends
    · exact h.active k a hold
  recovering := h.recovering

theorem Tables.popped (h : Tables l m) (key : Key) : Tables l { m with active := m.active.erase key } where
  active k a hlookup := h.active k a (lookup_erase_some hlookup)
  recovering := h.recovering

theorem Tables.reattaching (h : Tables l m) (pending : Recovering) (hattends : Attends l pending.attached.exec key) :
    Tables l { m with recovering := m.recovering.insert key pending } where
  active := h.active
  recovering k p hlookup := by
    rcases lookup_insert_some hlookup with ⟨rfl, rfl⟩ | hold
    · exact hattends
    · exact h.recovering k p hold

theorem Tables.retry {pending : Recovering} (h : Tables l m) (hattends : Attends l pending.attached.exec key)
    (answers : Answers) (force : Bool) : Tables l (retryRecovery m key pending answers force).1 := by
  unfold retryRecovery
  split
  · exact h
  · split
    · next handle _ =>
      exact
        { active := (h.observing { pending.attached with handle := handle.getD pending.attached.handle } hattends).active
          recovering := fun k p hlookup => h.recovering k p (lookup_erase_some hlookup) }
    · exact h
    · exact { h with recovering := fun k p hlookup => h.recovering k p (lookup_erase_some hlookup) }

/-- An attached row is observed. -/
theorem retryRecovery_observed {pending : Recovering} {force : Bool}
    (h : (retryRecovery m key pending answers force).2 = true) :
    (retryRecovery m key pending answers force).1.active.lookup key ≠ none := by
  unfold retryRecovery at h ⊢
  split at h
  · cases h
  · next hdue =>
    rw [if_neg hdue]
    split at h
    · simp [AList.lookup_insert]
    · cases h
    · cases h

/-- One attempt to reattach the row. -/
theorem attach_retried {pending : Recovering} {force : Bool} (h : s.Sound site)
    (hcoord : s.coord = .row .attach row rest) (hattends : Attends s.ledger pending.attached.exec row.key) :
    Stepped site g s
      (let tried := retryRecovery { s.mem with recovering := s.mem.recovering.insert row.key pending } row.key pending
        answers force
      { s with
        mem := tried.1
        coord := if tried.2 then .row .observe row rest
          else .row (.unknown "Supervisor recovery attachment is temporarily unavailable") row rest }) := by
  have hok : CoordOk s.ledger s.mem s.proved (.row .attach row rest) := hcoord ▸ h.coord
  have htables := ((Coherent.tables h).reattaching pending hattends).retry hattends answers force
  refine ⟨.refl, h.ledger, htables.active, htables.recovering, ?_⟩
  simp only
  split
  · next hattached =>
    exact ⟨⟨hok.1, fun hnone => absurd hnone (retryRecovery_observed hattached)⟩, hok.2⟩
  · exact ⟨trivial, hok.2⟩

theorem attach_stepped (h : s.Sound site) (hcoord : s.coord = .row .attach row rest) :
    Stepped site g s (s.attach answers row rest) := by
  have hok : CoordOk s.ledger s.mem s.proved (.row .attach row rest) := hcoord ▸ h.coord
  unfold Sys.attach
  split
  · next pending hpending hactive =>
    exact attach_retried h hcoord (h.recovering row.key pending hpending)
  · next hnone =>
    refine .goes h ⟨⟨hok.1, fun hactive => ⟨hactive, ?_⟩⟩, hok.2⟩
    cases hrecovering : s.mem.recovering.lookup row.key with
    | none => rfl
    | some pending => exact absurd hactive (hnone pending hrecovering)

/-- What the runner has answered for the observed execution of the row. -/
theorem observed_sound {attached : Attached} {proof : Proof} {turn : Turn} (h : s.Sound site)
    (hrest : CoordOk s.ledger s.mem s.proved (.row turn row rest)) (hattends : Attends s.ledger attached.exec row.key)
    (hproof : proof.exited = true → attached.exec ∈ s.proved) : (s.observed row rest attached proof).Sound site := by
  unfold Sys.observed
  split
  · split
    · have htables := (Coherent.tables h).popped row.key
      refine ⟨h.ledger, htables.active, htables.recovering, ⟨?_, ?_⟩, hrest.2⟩
      · exact fun hexit => ⟨attached.exec, hproof hexit, hattends⟩
      · intro popped hpopped
        cases hpopped
        exact hattends
    · next hopen => exact Coherent.turn h ⟨⟨fun hexit => absurd hexit hopen, fun popped hpopped => by cases hpopped⟩, hrest.2⟩
  · exact Coherent.turn h (hrest.unknown _)
  · exact Coherent.turn h hrest.next

@[simp] theorem observed_ledger {attached : Attached} {proof : Proof} :
    (s.observed row rest attached proof).ledger = s.ledger := by
  unfold Sys.observed
  split
  · split <;> rfl
  · rfl
  · rfl

@[simp] theorem observed_proved {attached : Attached} {proof : Proof} :
    (s.observed row rest attached proof).proved = s.proved := by
  unfold Sys.observed
  split
  · split <;> rfl
  · rfl
  · rfl

@[simp] theorem prove_ledger {proof : Proof} : (s.prove exec proof).ledger = s.ledger := by
  unfold Sys.prove
  split <;> rfl

@[simp] theorem prove_mem {proof : Proof} : (s.prove exec proof).mem = s.mem := by
  unfold Sys.prove
  split <;> rfl

@[simp] theorem prove_coord {proof : Proof} : (s.prove exec proof).coord = s.coord := by
  unfold Sys.prove
  split <;> rfl

theorem prove_proved (s : Sys) (exec : ExecId) (proof : Proof) :
    (∀ exec' ∈ s.proved, exec' ∈ (s.prove exec proof).proved) ∧
      (proof.exited = true → exec ∈ (s.prove exec proof).proved) := by
  unfold Sys.prove
  split
  · exact ⟨fun _ h => List.mem_cons_of_mem exec h, fun _ => List.mem_cons_self⟩
  · next hopen => exact ⟨fun _ h => h, fun hexit => absurd hexit hopen⟩

theorem Sys.Sound.prove {proof : Proof} (h : s.Sound site) : (s.prove exec proof).Sound site := by
  unfold Sys.Sound
  rw [prove_ledger, prove_mem, prove_coord]
  exact Coherent.mono h (prove_proved s exec proof).1

theorem observe_stepped (h : s.Sound site) (hcoord : s.coord = .row .observe row rest) :
    Stepped site g s (s.observe answers row rest) := by
  have hok : CoordOk s.ledger s.mem s.proved (.row .observe row rest) := hcoord ▸ h.coord
  unfold Sys.observe
  split
  · next hnone => exact .goes h ⟨⟨hok.1.1, hok.1.2 hnone⟩, hok.2⟩
  · next attached hactive =>
    have hattends := h.active row.key attached hactive
    split
    · next proof _ _ =>
      have hproved : (s.prove attached.exec proof).Sound site := Sys.Sound.prove h
      have hexited := (prove_proved s attached.exec proof).2
      have hattends' : Attends (s.prove attached.exec proof).ledger attached.exec row.key := by
        rw [prove_ledger]
        exact hattends
      have hrest : CoordOk (s.prove attached.exec proof).ledger (s.prove attached.exec proof).mem
          (s.prove attached.exec proof).proved (.row .observe row rest) := by
        rw [← hcoord, ← prove_coord]
        exact hproved.coord
      split
      · refine ⟨?_, Coherent.turn hproved ⟨⟨hattends', hexited⟩, hrest.2⟩⟩
        show Moves site s.mem g s.ledger (s.prove attached.exec proof).ledger
        rw [prove_ledger]
      · refine ⟨?_, observed_sound hproved hrest hattends' hexited⟩
        rw [observed_ledger, prove_ledger]
    · exact .goes h (hok.unknown _)

theorem identity_stepped {attached : Attached} {proof : Proof} (h : s.Sound site)
    (hcoord : s.coord = .row (.identity attached proof) row rest) (hexited : g.exited = (· ∈ s.proved))
    (hstarts : ¬ g.starts) : Stepped site g s (s.identity answers row rest attached proof) := by
  have hok : CoordOk s.ledger s.mem s.proved (.row (.identity attached proof) row rest) := hcoord ▸ h.coord
  unfold Sys.identity
  split
  · refine ⟨?_, observed_sound h hok hok.1.1 hok.1.2⟩
    rw [observed_ledger]
  · split
    · next l' hrecord =>
      have hmoves : Moves site s.mem g s.ledger l' := (recordIdentity_effects (tx_ok hrecord)).moves
      have hafter : Sys.Sound site { s with ledger := l' } := Coherent.moves h hmoves hexited hstarts
      have hok' := hok.moves hmoves hstarts
      refine ⟨?_, observed_sound hafter hok' hok'.1.1 hok'.1.2⟩
      rw [observed_ledger]
      exact hmoves
    · exact .goes h trivial
    · exact .goes h (hok.unknown _)

/-- The handle of an exit that could not be recorded. -/
theorem keep_sound {popped : Option Attached} {coord : Coord} (h : s.Sound site)
    (hattends : ∀ attached, popped = some attached → Attends s.ledger attached.exec row.key)
    (hcoord : CoordOk s.ledger (s.keep row.key popped).mem s.proved coord) :
    Stepped site g s { s.keep row.key popped with coord } := by
  cases popped with
  | none => exact .goes h hcoord
  | some attached =>
    have htables := (Coherent.tables h).observing attached (hattends attached rfl)
    exact ⟨.refl, h.ledger, htables.active, htables.recovering, hcoord⟩

theorem completing_stepped {proof : Proof} {popped : Option Attached} (h : s.Sound site)
    (hcoord : s.coord = .row (.completing proof popped) row rest) (hexited : g.exited = (· ∈ s.proved))
    (hstarts : ¬ g.starts) (hlate : ¬ Timely s → g.late) :
    Stepped site g s (s.completing site answers row rest proof popped) := by
  have hok : CoordOk s.ledger s.mem s.proved (.row (.completing proof popped) row rest) := hcoord ▸ h.coord
  have hledger : s.ledger.Sound site g.exited := hexited ▸ h.ledger
  unfold Sys.completing
  split
  · next l' hcomplete =>
    have heffects : Effects site s.mem g row.key s.ledger l' := by
      refine complete_effects (fun live hget => hledger.rooted live (Ledger.get_mem hget)) (fun hexit live hget => ?_)
        (tx_ok hcomplete)
      obtain ⟨exec, hproved, hattends⟩ := hok.1.1 hexit
      refine ⟨hledger.shown_attends hattends ?_ hget, fun hterminal => hlate fun htimely => ?_⟩
      · rw [hexited]
        exact hproved
      · exact htimely.completing hcoord hexit hget hterminal
    refine .write h hexited hstarts heffects.moves fun hafter => ?_
    rw [hcoord] at hafter
    exact hafter.next
  · exact keep_sound h hok.1.2 trivial
  · exact keep_sound h hok.1.2 ⟨trivial, hok.2⟩

theorem unknown_stepped {gap : String} (h : s.Sound site) (hcoord : s.coord = .row (.unknown gap) row rest)
    (hexited : g.exited = (· ∈ s.proved)) (hstarts : ¬ g.starts) :
    Stepped site g s (s.unknown answers row rest gap) := by
  unfold Sys.unknown
  split
  · next l' hunknown =>
    refine .write h hexited hstarts (unknown_effects (tx_ok hunknown)).moves fun hafter => ?_
    rw [hcoord] at hafter
    exact hafter.next
  · exact .goes h trivial

/-! ### Starting a phase -/

/-- A transaction on a row the process does not observe may start a phase of it. -/
theorem Coherent.started (h : Coherent site l m coord proved) (heffects : Effects site m g key l l')
    (hexited : g.exited = (· ∈ proved)) (hnone : Unobserved m key) {coord' : Coord} (hcoord : CoordOk l' m proved coord') :
    Coherent site l' m coord' proved where
  ledger := by
    have hsound := h.ledger
    rw [← hexited] at hsound ⊢
    exact hsound.moves heffects.moves
  active k attached hlookup := by
    obtain ⟨row, hget, hphase⟩ := h.active k attached hlookup
    have hne : k ≠ key := fun heq => by
      rw [heq, hnone.1] at hlookup
      cases hlookup
    exact ⟨row, heffects.other hne hget, hphase⟩
  recovering k pending hlookup := by
    obtain ⟨row, hget, hphase⟩ := h.recovering k pending hlookup
    have hne : k ≠ key := fun heq => by
      rw [heq, hnone.2] at hlookup
      cases hlookup
    exact ⟨row, heffects.other hne hget, hphase⟩
  coord := hcoord

theorem Stale.other (h : Stale l row) (heffects : Effects site m g key l l') (hne : row.key ≠ key) : Stale l' row := by
  obtain ⟨live, hget, hsame⟩ := h
  exact ⟨live, heffects.other hne hget, hsame⟩

/-- The rows of the tick still to come are other ones. -/
theorem CoordOk.rest_other {turn : Turn} (h : CoordOk l m proved (.row turn row rest))
    (heffects : Effects site m g row.key l l') : ∀ other ∈ rest, Stale l' other := by
  intro other hmem
  refine (h.2.2 other hmem).other heffects fun heq => ?_
  exact (List.nodup_cons.mp h.2.1).1 (heq ▸ List.mem_map_of_mem hmem)

theorem nextPhase_running (row : Row) : Phase.running (nextPhase row) = true := by
  unfold nextPhase
  repeat' split
  all_goals rfl

/-- The phase of a row to start is over, as the row is now. -/
theorem Stale.idle (h : Stale l row) (hstart : startable row.record = true) :
    ∀ live, l.get row.key = some live → live.parent = row.parent ∧ Phase.running live.record.phase = false := by
  intro live hget
  obtain ⟨live', hget', hparent, hidle⟩ := h
  rw [hget', Option.some.injEq] at hget
  subst hget
  exact ⟨hparent, hidle hstart⟩

theorem begin_stepped (h : s.Sound site) (hcoord : s.coord = .row .decide row rest)
    (hexited : g.exited = (· ∈ s.proved)) (hmay : g.starts) (hlate : ¬ Timely s → g.late)
    (hstart : startable row.record = true) : Stepped site g s (s.begin site answers row rest) := by
  have hok : CoordOk s.ledger s.mem s.proved (.row .decide row rest) := hcoord ▸ h.coord
  have hbegin : ∀ {b : Begun}, answers.tx (Broker.begin site answers.env s.mem s.ledger row.key (nextPhase row)) = .ok b →
      Effects site s.mem g row.key s.ledger (b.ledger s.ledger) ∧ b.Intends row.key (nextPhase row) := by
    intro b hb
    refine begin_effects hmay (nextPhase_running row) (fun live hget => (hok.1.1.idle hstart live hget).2)
      (fun live hget hcancel hterminal => hlate fun htimely => ?_) (tx_ok hb)
    exact htimely.deciding hcoord hstart hget (.inl hcancel) hterminal
  unfold Sys.begin
  split
  · exact .goes h hok.next
  · next l' hb =>
    have heffects := (hbegin hb).1
    refine ⟨heffects.moves, Coherent.started h heffects hexited hok.1.2 ?_⟩
    exact nextRow_ok (List.nodup_cons.mp hok.2.1).2 (hok.rest_other heffects)
  · next l' allocated hb =>
    obtain ⟨heffects, live, hget, hphase, hhandle⟩ := hbegin hb
    have hturn : TurnOk l' s.mem s.proved row (.enqueue (nextPhase row) allocated) :=
      ⟨⟨live, hget, nextPhase row, rfl, .inl hphase⟩, live, hget, hhandle⟩
    have hafter : Coherent site l' s.mem (.row (.enqueue (nextPhase row) allocated) row rest) s.proved :=
      Coherent.started h heffects hexited hok.1.2 ⟨hturn, hok.2.1, hok.rest_other heffects⟩
    exact ⟨heffects.moves, hafter.ledger, hafter.active, hafter.recovering, hafter.coord⟩
  · exact .goes h trivial
  · exact .goes h ⟨hok.1, hok.2⟩
  · exact .goes h (hok.unknown _)

theorem decide_stepped (h : s.Sound site) (hcoord : s.coord = .row .decide row rest)
    (hexited : g.exited = (· ∈ s.proved)) (hmay : g.starts) (hlate : ¬ Timely s → g.late) :
    Stepped site g s (s.decide site answers row rest) := by
  have hok : CoordOk s.ledger s.mem s.proved (.row .decide row rest) := hcoord ▸ h.coord
  unfold Sys.decide
  split
  · exact .goes h hok.next
  · next hstart =>
    simp only [Bool.not_eq_true', Bool.not_eq_false] at hstart
    split
    · next hcancel =>
      split
      · next l' hblock =>
        obtain ⟨live, hget, hparent, hidle⟩ := hok.1.1
        have heffects : Effects site s.mem g row.key s.ledger l' := by
          refine blockStart_effects hget (hidle hstart) (fun hterminal => hlate fun htimely => ?_) hstart hcancel hparent
            (tx_ok hblock)
          exact htimely.deciding hcoord hstart hget (.inr hcancel) hterminal
        refine ⟨heffects.moves, Coherent.started h heffects hexited hok.1.2 ?_⟩
        exact nextRow_ok (List.nodup_cons.mp hok.2.1).2 (hok.rest_other heffects)
      · exact .goes h trivial
    · split
      · exact .goes h hok.next
      · split
        · exact begin_stepped h hcoord hexited hmay hlate hstart
        · exact ⟨.refl, h⟩

theorem blocked_stepped (h : s.Sound site) (hcoord : s.coord = .row .blocked row rest)
    (hexited : g.exited = (· ∈ s.proved)) (hstarts : ¬ g.starts) :
    Stepped site g s (s.blocked answers row rest) := by
  have hok : CoordOk s.ledger s.mem s.proved (.row .blocked row rest) := hcoord ▸ h.coord
  unfold Sys.blocked
  split
  · next l' hblocked =>
    refine .write h hexited hstarts (budgetBlocked_effects (tx_ok hblocked)).moves fun hafter => ?_
    rw [hcoord] at hafter
    exact hafter.next
  · exact .goes h (hok.unknown _)
  · exact .goes h trivial

theorem enqueue_stepped {phase : Phase} {allocated : Bool} (h : s.Sound site)
    (hcoord : s.coord = .row (.enqueue phase allocated) row rest) :
    Stepped site g s (s.enqueue answers row rest phase allocated) := by
  have hok : CoordOk s.ledger s.mem s.proved (.row (.enqueue phase allocated) row rest) := hcoord ▸ h.coord
  unfold Sys.enqueue
  split
  · exact .goes h (hok.unknown _)
  · next handle _ =>
    have htables := (Coherent.tables h).observing ⟨row.key.exec phase, handle⟩ hok.1.1
    refine ⟨.refl, h.ledger, htables.active, htables.recovering, ?_⟩
    simp only
    split
    · exact ⟨hok.1.2, hok.2⟩
    · exact ⟨trivial, hok.2⟩

theorem acknowledge_stepped {phase : Phase} {handle : Handle} {allocated : Bool} (h : s.Sound site)
    (hcoord : s.coord = .row (.acknowledge phase handle allocated) row rest) (hexited : g.exited = (· ∈ s.proved))
    (hstarts : ¬ g.starts) : Stepped site g s (s.acknowledge answers row rest phase handle allocated) := by
  have hok : CoordOk s.ledger s.mem s.proved (.row (.acknowledge phase handle allocated) row rest) := hcoord ▸ h.coord
  unfold Sys.acknowledge
  split
  · next l' hack =>
    have hhandle : ∀ live, s.ledger.get row.key = some live → phase ∈ live.record.handles.keys := by
      intro live hget
      obtain ⟨live', hget', hmem⟩ := hok.1
      rw [hget', Option.some.injEq] at hget
      exact hget ▸ hmem
    refine .write h hexited hstarts (acknowledge_effects hhandle (tx_ok hack)).moves fun hafter => ?_
    rw [hcoord] at hafter
    exact hafter.next
  · exact .goes h (hok.unknown _)

/-- The coordinator may start a phase at this turn. -/
def Turn.starts : Turn → Bool
  | .decide => true
  | _ => false

theorem turn_stepped {turn : Turn} (h : s.Sound site) (hcoord : s.coord = .row turn row rest)
    (hexited : g.exited = (· ∈ s.proved)) (hstarts : g.starts ↔ turn.starts = true) (hlate : ¬ Timely s → g.late) :
    Stepped site g s (s.turn site answers row rest turn) := by
  have hnot : turn.starts = false → ¬ g.starts := by
    intro hfalse hmay
    rw [hstarts, hfalse] at hmay
    cases hmay
  cases turn with
  | resume => exact .when h fun _ => resume_stepped h hcoord hexited (hnot rfl)
  | stopped => exact .when h fun _ => stopped_stepped h hcoord hexited (hnot rfl)
  | attach => exact attach_stepped h hcoord
  | observe => exact observe_stepped h hcoord
  | identity attached proof => exact identity_stepped h hcoord hexited (hnot rfl)
  | completing proof popped => exact completing_stepped h hcoord hexited (hnot rfl) hlate
  | unknown gap => exact unknown_stepped h hcoord hexited (hnot rfl)
  | decide => exact decide_stepped h hcoord hexited (hstarts.mpr rfl) hlate
  | blocked => exact .when h fun _ => blocked_stepped h hcoord hexited (hnot rfl)
  | enqueue phase allocated => exact enqueue_stepped h hcoord
  | acknowledge phase handle allocated => exact acknowledge_stepped h hcoord hexited (hnot rfl)

end

end LocalHand.Broker
