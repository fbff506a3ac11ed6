/-
The ledger's transactions (`state.py`). The connection is SQLite's, of which each
operation may fail, with contention or otherwise, and a failing statement may end
the transaction it is in. A transaction ends in one of four ways, and a store that
has lost track of its ledger refuses every later one.
-/
import LocalHand.Contract
import LocalHand.Lib.Run

namespace LocalHand.StateStore

/-! ## The connection -/

/-- A `sqlite3.Error`: of the codes `SQLITE_BUSY` and `SQLITE_LOCKED`, or another. -/
inductive SqlError where
  | contention | other
  deriving DecidableEq, Repr

/-- What a failing operation leaves of the open transaction. -/
inductive Fate where
  | kept | ended
  deriving DecidableEq, Repr

/-- And a failing `COMMIT`: it may have been made. -/
inductive CommitFate where
  | kept | ended | made
  deriving DecidableEq, Repr

/-- How the operations go, by the number of the question; `none` is a success. -/
structure Env where
  beginning : Nat → Option SqlError
  statement : Nat → Option (SqlError × Fate)
  commit : Nat → Option (SqlError × CommitFate)
  rollback : Nat → Option (SqlError × Fate)
  /-- The connection is read-only. -/
  readOnly : Bool

variable {W E : Type}

/-- What a body raises: an error of SQLite, or another exception. -/
inductive Raise (E : Type) where
  | sqlite (error : SqlError)
  | other (e : E)
  deriving DecidableEq, Repr

inductive Mark (W E : Type) where
  | entered
  | wrote (x : W)
  | ended
  | left (raised : Option (Raise E))
  | commitFailed
  | rollbackFailed
  deriving DecidableEq, Repr

/-- The store and its connection: what is committed, and the writes of the open
transaction, if one is open. -/
structure World (W E : Type) where
  healthy : Bool
  committed : List W
  pending : Option (List W)
  clock : Nat
  trace : List (Mark W E)
  deriving DecidableEq, Repr

abbrev Op (W E α : Type) := StateM (World W E) α

def World.mark (w : World W E) (m : Mark W E) : World W E := { w with trace := w.trace ++ [m] }

def World.tick (w : World W E) : World W E := { w with clock := w.clock + 1 }

variable (env : Env)

/-- `execute("BEGIN IMMEDIATE")`, or `BEGIN`: refused inside a transaction. -/
def executeBegin : Op W E (Option SqlError) := fun w =>
  if w.pending.isSome then (some .other, w.tick)
  else match env.beginning w.clock with
    | some error => (some error, w.tick)
    | none => (none, { w.tick with pending := some [] })

/-- A statement of the body, with what it writes. -/
def executeStatement (write : Option W) : Op W E (Option SqlError) := fun w =>
  match env.statement w.clock with
  | some (error, .kept) => (some error, w.tick)
  | some (error, .ended) =>
    (some error, if w.pending.isSome then { w.tick.mark .ended with pending := none } else w.tick)
  | none =>
    match write with
    | none => (none, w.tick)
    | some x =>
      if env.readOnly then (some .other, w.tick)
      else match w.pending with
        | some xs => (none, { w.tick.mark (.wrote x) with pending := some (xs ++ [x]) })
        | none => (none, { w.tick.mark (.wrote x) with committed := w.committed ++ [x] })

/-- `execute("COMMIT")`: refused outside a transaction. -/
def executeCommit : Op W E (Option SqlError) := fun w =>
  match w.pending with
  | none => (some .other, w.tick.mark .commitFailed)
  | some xs =>
    match env.commit w.clock with
    | none => (none, { w.tick with pending := none, committed := w.committed ++ xs })
    | some (error, .kept) => (some error, w.tick.mark .commitFailed)
    | some (error, .ended) => (some error, { w.tick.mark .commitFailed with pending := none })
    | some (error, .made) =>
      (some error, { w.tick.mark .commitFailed with pending := none, committed := w.committed ++ xs })

/-- `if in_transaction: execute("ROLLBACK")` -/
def rollbackOpen : Op W E (Option SqlError) := fun w =>
  if w.pending.isNone then (none, w)
  else match env.rollback w.clock with
    | none => (none, { w.tick with pending := none })
    | some (error, .kept) => (some error, w.tick.mark .rollbackFailed)
    | some (error, .ended) => (some error, { w.tick.mark .rollbackFailed with pending := none })

/-! ## Transactions -/

/-- What a caller does inside a transaction: it may go on after a statement that failed. -/
inductive Body (W E : Type) where
  | completed
  | raised (raise : Raise E)
  | statement (write : Option W) (next : Option SqlError → Body W E)

inductive Result (E : Type) where
  | completed
  /-- `LedgerBusy` -/
  | busy
  /-- `IO_UNCERTAIN` -/
  | uncertain
  | raised (e : E)
  deriving DecidableEq, Repr

def runBody : Body W E → Op W E (Option (Raise E))
  | .completed => return none
  | .raised raise => return some raise
  | .statement write next => do
    let failed ← executeStatement env write
    runBody (next failed)

/-- The `try` block: whether the transaction has begun, and what the block raises. -/
def attempt (body : Body W E) : Op W E (Bool × Option (Raise E)) := do
  match ← executeBegin env with
  | some error => return (false, some (.sqlite error))
  | none => do
    modify fun w => w.mark .entered
    let raised ← runBody env body
    modify fun w => w.mark (.left raised)
    match raised with
    | some raise => return (true, some raise)
    | none => do
      let failed ← executeCommit env
      return (true, failed.map .sqlite)

/-- The handler of `sqlite3.Error`. -/
def sqliteFailed (began : Bool) (error : SqlError) : Op W E (Result E) := do
  let w ← get
  let retryable := (env.readOnly || !began) && w.healthy && error = .contention
  modify fun w => { w with healthy := false }
  let failed ← rollbackOpen env
  let w ← get
  if failed.isNone && retryable && w.pending.isNone then do
    modify fun w => { w with healthy := true }
    return .busy
  else return .uncertain

/-- The handler of any other exception. -/
def otherRaised (e : E) : Op W E (Result E) := do
  match ← rollbackOpen env with
  | some _ => do
    modify fun w => { w with healthy := false }
    return .uncertain
  | none => return .raised e

/-- `StateStore.transaction` -/
def transaction (body : Body W E) : Op W E (Result E) := do
  let w ← get
  if w.healthy then do
    let (began, raised) ← attempt env body
    match raised with
    | none => return .completed
    | some (.sqlite error) => sqliteFailed env began error
    | some (.other e) => otherRaised env e
  else return .uncertain

/-- The store after a transaction. -/
def step (w : World W E) (body : Body W E) : World W E := (transaction env body w).2

/-- A store that has just been opened. -/
def World.opened (committed : List W) : World W E := ⟨true, committed, none, 0, []⟩

/-! ## How a transaction ends -/

/-- The store can be used, and no transaction is open. -/
structure Usable (w : World W E) : Prop where
  healthy : w.healthy = true
  idle : w.pending = none

/-- Every later transaction is refused before its body is entered. -/
def Refuses (w : World W E) : Prop := ∀ body, transaction env body w = (.uncertain, w)

def written : List (Mark W E) → List W
  | [] => []
  | .wrote x :: ms => x :: written ms
  | _ :: ms => written ms

inductive Ending where
  | committed | busy | propagated | lost
  deriving DecidableEq, Repr

/-- What a transaction with these marks has come to. Where SQLite has itself ended it,
only what was written before is rolled back. -/
def Ends (w w' : World W E) (marks : List (Mark W E)) (result : Result E) : Ending → Prop
  | .committed => result = .completed ∧ .left none ∈ marks ∧ w'.committed = w.committed ++ written marks ∧ Usable w'
  | .busy => result = .busy ∧ w'.committed = w.committed ∧ Usable w'
  | .propagated => ∃ e, result = .raised e ∧ .left (some (.other e)) ∈ marks ∧
      (.ended ∉ marks → w'.committed = w.committed) ∧ Usable w'
  | .lost => w'.healthy = false ∧ Refuses env w'

theorem written_append (ms ms' : List (Mark W E)) : written (ms ++ ms') = written ms ++ written ms' := by
  induction ms with
  | nil => rfl
  | cons m ms ih => cases m <;> simp [written, ih]

variable {env}

theorem refuses_of_unhealthy {w : World W E} (h : w.healthy = false) : Refuses env w := by
  intro body
  have hunhealthy : ¬w.healthy = true := by simp [h]
  show (if w.healthy = true then _ else (pure .uncertain : Op W E (Result E))) w = (.uncertain, w)
  rw [if_neg hunhealthy]
  rfl

/-! ### The body -/

/-- What a body has done to the store. -/
structure Ran (env : Env) (w w' : World W E) (marks : List (Mark W E)) : Prop where
  trace : w'.trace = w.trace ++ marks
  healthy : w'.healthy = w.healthy
  outside : w.pending = none → w'.pending = none ∧ .ended ∉ marks
  inside : ∀ xs, w.pending = some xs → .ended ∉ marks →
    w'.pending = some (xs ++ written marks) ∧ w'.committed = w.committed
  lost : .ended ∈ marks → w'.pending = none
  readOnly : env.readOnly = true → w'.committed = w.committed ∧ written marks = []
  plain : ∀ m ∈ marks, m = .ended ∨ ∃ x, m = .wrote x

theorem Ran.refl (w : World W E) : Ran env w w [] where
  trace := by simp
  healthy := rfl
  outside h := ⟨h, by simp⟩
  inside xs h _ := by simp [h, written]
  lost h := by simp at h
  readOnly _ := ⟨rfl, rfl⟩
  plain := by simp

theorem Ran.trans {w w' w'' : World W E} {ms ms' : List (Mark W E)} (h : Ran env w w' ms) (h' : Ran env w' w'' ms') :
    Ran env w w'' (ms ++ ms') where
  trace := by rw [h'.trace, h.trace, List.append_assoc]
  healthy := h'.healthy.trans h.healthy
  outside hw := by
    obtain ⟨hw', hms⟩ := h.outside hw
    obtain ⟨hw'', hms'⟩ := h'.outside hw'
    exact ⟨hw'', by simp [hms, hms']⟩
  inside xs hw hms := by
    rw [List.mem_append, not_or] at hms
    obtain ⟨hpending, hcommitted⟩ := h.inside xs hw hms.1
    obtain ⟨hpending', hcommitted'⟩ := h'.inside _ hpending hms.2
    exact ⟨by rw [hpending', written_append, List.append_assoc], hcommitted'.trans hcommitted⟩
  lost hms := by
    by_cases hlast : Mark.ended ∈ ms'
    · exact h'.lost hlast
    · exact (h'.outside (h.lost (by simpa [hlast] using hms))).1
  readOnly hr := ⟨(h'.readOnly hr).1.trans (h.readOnly hr).1, by rw [written_append, (h.readOnly hr).2, (h'.readOnly hr).2]; rfl⟩
  plain m hm := (List.mem_append.mp hm).elim (h.plain m) (h'.plain m)

variable (env) in
theorem executeStatement_ran (write : Option W) (w : World W E) :
    ∃ marks, Ran env w (executeStatement env write w).2 marks := by
  unfold executeStatement
  have hquiet : Ran env w w.tick [] := ⟨by simp [World.tick], rfl, fun h => ⟨h, by simp⟩, fun xs h _ => by simp [World.tick, h, written],
    by simp, fun _ => ⟨rfl, rfl⟩, by simp⟩
  split
  · exact ⟨[], hquiet⟩
  · by_cases hopen : w.pending.isSome = true
    · refine ⟨[.ended], ?_⟩
      rw [if_pos hopen]
      refine ⟨rfl, rfl, fun h => ?_, by simp, fun _ => rfl, fun _ => ⟨rfl, rfl⟩, by simp⟩
      rw [h] at hopen
      cases hopen
    · rw [if_neg hopen]
      exact ⟨[], hquiet⟩
  · split
    · exact ⟨[], hquiet⟩
    · next x =>
      by_cases hr : env.readOnly = true
      · rw [if_pos hr]
        exact ⟨[], hquiet⟩
      · rw [if_neg hr]
        split
        · next xs hxs =>
          refine ⟨[.wrote x], rfl, rfl, fun h => ?_, fun ys hys _ => ?_, by simp, fun h => absurd h hr, by simp⟩
          · rw [hxs] at h
            cases h
          · obtain rfl : xs = ys := by simpa [hxs] using hys
            exact ⟨rfl, rfl⟩
        · next hnone =>
          refine ⟨[.wrote x], rfl, rfl, fun _ => ⟨hnone, by simp⟩, fun ys hys _ => ?_, by simp, fun h => absurd h hr, by simp⟩
          rw [hnone] at hys
          cases hys

variable (env) in
/-- Statement by statement. -/
theorem runBody_ran (body : Body W E) (w : World W E) : ∃ marks, Ran env w (runBody env body w).2 marks := by
  induction body generalizing w with
  | completed => exact ⟨[], Ran.refl w⟩
  | raised raise => exact ⟨[], Ran.refl w⟩
  | statement write next ih =>
    obtain ⟨ms, hms⟩ := executeStatement_ran env write w
    obtain ⟨ms', hms'⟩ := ih (executeStatement env write w).1 (executeStatement env write w).2
    exact ⟨ms ++ ms', hms.trans hms'⟩

/-! ### The `try` block -/

/-- What the block has done when it is left. -/
structure Tried (env : Env) (w w' : World W E) (marks : List (Mark W E)) (began : Bool) (raised : Option (Raise E)) : Prop where
  trace : w'.trace = w.trace ++ marks
  healthy : w'.healthy = w.healthy
  rollback : .rollbackFailed ∉ marks
  refused : began = false → raised.isSome = true ∧ w'.committed = w.committed ∧ .commitFailed ∉ marks
  completed : raised = none → .left none ∈ marks ∧ w'.committed = w.committed ++ written marks ∧ w'.pending = none ∧
    .commitFailed ∉ marks
  other : ∀ e, raised = some (.other e) → .left (some (.other e)) ∈ marks ∧ (.ended ∉ marks → w'.committed = w.committed) ∧
    .commitFailed ∉ marks
  readOnly : env.readOnly = true → w'.committed = w.committed

/-- What `COMMIT` has done. -/
structure Committed (w w' : World W E) (marks : List (Mark W E)) (failed : Option SqlError) : Prop where
  trace : w'.trace = w.trace ++ marks
  healthy : w'.healthy = w.healthy
  rollback : .rollbackFailed ∉ marks
  empty : (∀ xs, w.pending = some xs → xs = []) → w'.committed = w.committed
  success : failed = none → ∃ xs, w.pending = some xs ∧ w'.committed = w.committed ++ xs ∧ w'.pending = none ∧ marks = []

variable (env) in
theorem executeCommit_did (w : World W E) :
    ∃ marks, Committed w (executeCommit env w).2 marks (executeCommit env w).1 := by
  unfold executeCommit
  split
  · exact ⟨[.commitFailed], rfl, rfl, by simp, fun _ => rfl, nofun⟩
  · next xs hxs =>
    have hempty : (∀ ys, w.pending = some ys → ys = []) → w.committed ++ xs = w.committed := fun h => by rw [h xs hxs, List.append_nil]
    split
    · exact ⟨[], by simp [World.tick], rfl, by simp, hempty, fun _ => ⟨xs, hxs, rfl, rfl, rfl⟩⟩
    · exact ⟨[.commitFailed], rfl, rfl, by simp, fun _ => rfl, nofun⟩
    · exact ⟨[.commitFailed], rfl, rfl, by simp, fun _ => rfl, nofun⟩
    · exact ⟨[.commitFailed], rfl, rfl, by simp, hempty, nofun⟩

theorem attempt_refused {body : Body W E} {w : World W E} (hidle : w.pending = none) {error : SqlError}
    (h : env.beginning w.clock = some error) : attempt env body w = ((false, some (.sqlite error)), w.tick) := by
  simp only [attempt, bind, StateT.bind, executeBegin, hidle, Option.isSome_none, Bool.false_eq_true, if_false, h]
  rfl

/-- The world a body is entered in. -/
def World.entering (w : World W E) : World W E := ({ w.tick with pending := some [] } : World W E).mark .entered

theorem attempt_begun {body : Body W E} {w : World W E} (hidle : w.pending = none) (h : env.beginning w.clock = none) :
    attempt env body w = match runBody env body w.entering with
      | (some raise, w') => ((true, some raise), w'.mark (.left (some raise)))
      | (none, w') =>
        ((true, (executeCommit env (w'.mark (.left none))).1.map .sqlite), (executeCommit env (w'.mark (.left none))).2) := by
  simp only [attempt, bind, StateT.bind, executeBegin, hidle, Option.isSome_none, Bool.false_eq_true, if_false, h]
  simp only [modify, modifyGet, MonadStateOf.modifyGet, StateT.modifyGet, pure]
  rw [World.entering]
  split
  next raised w' hbody =>
    simp only [hbody]
    cases raised <;> rfl

/-- A body has left, and its marks are those of its statements. -/
theorem Ran.entering {w w' : World W E} {ms : List (Mark W E)} (h : Ran env w.entering w' ms) (left : Mark W E) :
    (w'.mark left).trace = w.trace ++ ([.entered] ++ ms ++ [left]) := by
  have htrace := h.trace
  simp only [World.entering, World.mark, World.tick] at htrace ⊢
  rw [htrace]
  simp

theorem Ran.absent {w w' : World W E} {ms : List (Mark W E)} (h : Ran env w w' ms) {m : Mark W E}
    (hm : m = .commitFailed ∨ m = .rollbackFailed) : m ∉ ms := by
  intro hmem
  obtain rfl | rfl := hm <;> obtain h | ⟨x, h⟩ := h.plain _ hmem <;> cases h

theorem attempt_tried (body : Body W E) {w : World W E} (hw : Usable w) {began : Bool} {raised : Option (Raise E)} {w' : World W E}
    (h : attempt env body w = ((began, raised), w')) : ∃ marks, Tried env w w' marks began raised := by
  cases hbegin : env.beginning w.clock with
  | some error =>
    rw [attempt_refused hw.idle hbegin] at h
    cases h
    exact ⟨[], by simp [World.tick], rfl, by simp, fun _ => ⟨rfl, rfl, by simp⟩, nofun, nofun, fun _ => rfl⟩
  | none =>
    rw [attempt_begun hw.idle hbegin] at h
    obtain ⟨ms, hran⟩ := runBody_ran env body w.entering
    cases hbody : runBody env body w.entering with
    | mk left w₁ =>
    rw [hbody] at h hran
    have htrace := fun m => hran.entering m
    have hhealthy : w₁.healthy = w.healthy := hran.healthy
    have hended : ∀ m, .ended ∉ ([.entered] ++ ms ++ [.left m] : List (Mark W E)) → .ended ∉ ms := fun m hm hmem => hm (by simp [hmem])
    have hkept : .ended ∉ ms → w₁.pending = some (written ms) ∧ w₁.committed = w.committed := fun hm => hran.inside [] rfl hm
    have hwritten : ∀ m, written ([.entered] ++ ms ++ [.left m] : List (Mark W E)) = written ms := by
      intro m
      simp [written_append, written]
    have hno := hran.absent (.inl rfl)
    have hno' := hran.absent (.inr rfl)
    cases left with
    | some raise =>
      cases h
      refine ⟨[.entered] ++ ms ++ [.left (some raise)], htrace _, hhealthy, by simp [hno'], nofun, nofun, fun e he => ?_, fun hr => ?_⟩
      · cases he
        exact ⟨by simp, fun hm => (hkept (hended _ hm)).2, by simp [hno]⟩
      · exact (hran.readOnly hr).1
    | none =>
      cases h
      obtain ⟨last, hcommit⟩ := executeCommit_did env (w₁.mark (.left none))
      refine ⟨[.entered] ++ ms ++ [.left none] ++ last, ?_, hcommit.healthy.trans hhealthy, ?_, nofun, fun hnone => ?_,
        fun e he => ?_, fun hr => ?_⟩
      · rw [hcommit.trace, htrace]
        simp
      · have hlast := hcommit.rollback
        simp [hno', hlast]
      · rw [Option.map_eq_none_iff] at hnone
        obtain ⟨xs, hxs, hmade, hidle, rfl⟩ := hcommit.success hnone
        have hsame : .ended ∉ ms := fun hm => by
          have hlost : w₁.pending = none := hran.lost hm
          rw [World.mark, hlost] at hxs
          cases hxs
        obtain ⟨hpending, hcommitted⟩ := hkept hsame
        obtain rfl : written ms = xs := by simpa [World.mark, hpending] using hxs
        refine ⟨by simp, ?_, hidle, by simp [hno]⟩
        rw [hmade, List.append_nil, hwritten]
        exact congrArg (· ++ written ms) hcommitted
      · cases hfailed : (executeCommit env (w₁.mark (.left none))).1 <;> rw [hfailed] at he <;> cases he
      · obtain ⟨hcommitted, hnothing⟩ := hran.readOnly hr
        refine (hcommit.empty fun xs hxs => ?_).trans hcommitted
        have hsame : .ended ∉ ms := fun hm => by
          have hlost : w₁.pending = none := hran.lost hm
          rw [World.mark, hlost] at hxs
          cases hxs
        rw [World.mark, (hkept hsame).1, hnothing] at hxs
        exact (Option.some.inj hxs).symm

/-! ### The handlers -/

/-- What the rollback has done. -/
structure RolledBack (w w' : World W E) (marks : List (Mark W E)) (failed : Option SqlError) : Prop where
  trace : w'.trace = w.trace ++ marks
  healthy : w'.healthy = w.healthy
  committed : w'.committed = w.committed
  commit : .commitFailed ∉ marks
  ended : .ended ∉ marks
  success : failed = none → w'.pending = none ∧ marks = []

variable (env) in
theorem rollbackOpen_did (w : World W E) : ∃ marks, RolledBack w (rollbackOpen env w).2 marks (rollbackOpen env w).1 := by
  unfold rollbackOpen
  split
  · next h => exact ⟨[], by simp, rfl, rfl, by simp, by simp, fun _ => ⟨by simpa using h, rfl⟩⟩
  · split
    · exact ⟨[], by simp [World.tick], rfl, rfl, by simp, by simp, fun _ => ⟨rfl, rfl⟩⟩
    · exact ⟨[.rollbackFailed], rfl, rfl, rfl, by simp, by simp, nofun⟩
    · exact ⟨[.rollbackFailed], rfl, rfl, rfl, by simp, by simp, nofun⟩

/-- The marks of a transaction, and what its failures say of the store. -/
structure Closed (env : Env) (w w' : World W E) (marks : List (Mark W E)) (result : Result E) : Prop where
  trace : w'.trace = w.trace ++ marks
  ends : ∃ ending, Ends env w w' marks result ending
  commit : env.readOnly = false → .commitFailed ∈ marks → w'.healthy = false
  rollback : .rollbackFailed ∈ marks → w'.healthy = false

theorem sqliteFailed_eq (began : Bool) (error : SqlError) (w : World W E) :
    sqliteFailed env began error w =
      if (rollbackOpen env { w with healthy := false }).1.isNone &&
          ((env.readOnly || !began) && w.healthy && error = .contention) &&
          (rollbackOpen env { w with healthy := false }).2.pending.isNone then
        (.busy, { (rollbackOpen env { w with healthy := false }).2 with healthy := true })
      else (.uncertain, (rollbackOpen env { w with healthy := false }).2) := by
  simp only [sqliteFailed, bind, StateT.bind, get, getThe, MonadStateOf.get, StateT.get, pure, modify, modifyGet,
    MonadStateOf.modifyGet, StateT.modifyGet]
  rcases rollbackOpen env { w with healthy := false } with ⟨failed, w'⟩
  simp only
  split <;> rfl

theorem otherRaised_eq (e : E) (w : World W E) :
    otherRaised env e w = match (rollbackOpen env w).1 with
      | some _ => (.uncertain, { (rollbackOpen env w).2 with healthy := false })
      | none => (.raised e, (rollbackOpen env w).2) := by
  simp only [otherRaised, bind, StateT.bind]
  rcases hrolled : rollbackOpen env w with ⟨failed, w'⟩
  cases failed <;> rfl

theorem transaction_eq (body : Body W E) {w : World W E} (h : w.healthy = true) :
    transaction env body w = match attempt env body w with
      | ((_, none), w') => (.completed, w')
      | ((began, some (.sqlite error)), w') => sqliteFailed env began error w'
      | ((_, some (.other e)), w') => otherRaised env e w' := by
  simp only [transaction, bind, StateT.bind, get, getThe, MonadStateOf.get, StateT.get, pure, h, if_true]
  rcases htried : attempt env body w with ⟨⟨began, raised⟩, w'⟩
  cases raised with
  | none => rfl
  | some raise => cases raise <;> rfl

variable (env) in
/-- **One transaction** of a store that can be used. -/
theorem transaction_closed (body : Body W E) {w : World W E} (hw : Usable w) :
    ∃ marks, Closed env w (transaction env body w).2 marks (transaction env body w).1 := by
  rw [transaction_eq body hw.healthy]
  rcases htried : attempt env body w with ⟨⟨began, raised⟩, w'⟩
  obtain ⟨ms, hms⟩ := attempt_tried body hw htried
  have hhealthy : w'.healthy = true := hms.healthy.trans hw.healthy
  cases raised with
  | none =>
    obtain ⟨hleft, hcommitted, hidle, hno⟩ := hms.completed rfl
    exact ⟨ms, hms.trace, ⟨.committed, rfl, hleft, hcommitted, hhealthy, hidle⟩, fun _ hm => absurd hm hno,
      fun hm => absurd hm hms.rollback⟩
  | some raise =>
    cases raise with
    | sqlite error =>
      simp only [sqliteFailed_eq]
      obtain ⟨last, hrolled⟩ := rollbackOpen_did env { w' with healthy := false }
      have htrace : (rollbackOpen env { w' with healthy := false }).2.trace = w.trace ++ (ms ++ last) := by
        rw [hrolled.trace, ← List.append_assoc, ← hms.trace]
      split
      · next hback =>
        simp only [Bool.and_eq_true, Option.isNone_iff_eq_none, Bool.or_eq_true, Bool.not_eq_true', decide_eq_true_eq] at hback
        obtain ⟨⟨hnone, ⟨hsafe, -⟩, -⟩, hidle⟩ := hback
        obtain ⟨-, rfl⟩ := hrolled.success hnone
        have hsame : w'.committed = w.committed := by
          obtain hr | hr := hsafe
          · exact hms.readOnly hr
          · exact (hms.refused hr).2.1
        refine ⟨ms ++ [], htrace, ⟨.busy, rfl, hrolled.committed.trans hsame, rfl, hidle⟩, fun hr hm => ?_, fun hm => ?_⟩
        · obtain hr' | hr' := hsafe
          · rw [hr] at hr'
            cases hr'
          · exact absurd (by simpa using hm) (hms.refused hr').2.2
        · exact absurd (by simpa using hm) hms.rollback
      · have hdead : (rollbackOpen env { w' with healthy := false }).2.healthy = false := hrolled.healthy
        exact ⟨ms ++ last, htrace, ⟨.lost, hdead, refuses_of_unhealthy hdead⟩, fun _ _ => hdead, fun _ => hdead⟩
    | other e =>
      simp only [otherRaised_eq]
      obtain ⟨last, hrolled⟩ := rollbackOpen_did env w'
      have htrace : (rollbackOpen env w').2.trace = w.trace ++ (ms ++ last) := by
        rw [hrolled.trace, ← List.append_assoc, ← hms.trace]
      obtain ⟨hleft, hsame, hno⟩ := hms.other e rfl
      split
      · next hfailed =>
        exact ⟨ms ++ last, htrace, ⟨.lost, rfl, refuses_of_unhealthy rfl⟩, fun _ _ => rfl, fun _ => rfl⟩
      · next hnone =>
        obtain ⟨hidle, rfl⟩ := hrolled.success hnone
        refine ⟨ms ++ [], htrace, ⟨.propagated, e, rfl, by simpa using hleft, fun hm => ?_, hrolled.healthy.trans hhealthy, hidle⟩,
          fun _ hm => absurd (by simpa using hm) hno, fun hm => absurd (by simpa using hm) hms.rollback⟩
        exact hrolled.committed.trans (hsame (by simpa using hm))

/-- The ways exclude one another. -/
theorem Ends.unique {w w' : World W E} {marks : List (Mark W E)} {result : Result E} {a b : Ending}
    (ha : Ends env w w' marks result a) (hb : Ends env w w' marks result b) : a = b := by
  have hlive : ∀ {a}, Ends env w w' marks result a → a ≠ .lost → w'.healthy = true := by
    intro a ha hne
    cases a with
    | committed => exact ha.2.2.2.healthy
    | busy => exact ha.2.2.healthy
    | propagated =>
      obtain ⟨_, _, _, _, h⟩ := ha
      exact h.healthy
    | lost => exact absurd rfl hne
  by_cases hdead : w'.healthy = false
  · have hlost : ∀ {a}, Ends env w w' marks result a → a = .lost := fun h => by
      by_contra hne
      rw [hlive h hne] at hdead
      cases hdead
    rw [hlost ha, hlost hb]
  · cases a <;> cases b <;> first | rfl | exact absurd ha.1 hdead | exact absurd hb.1 hdead | skip
    · exact nomatch ha.1.symm.trans hb.1
    · obtain ⟨_, h, _⟩ := hb
      exact nomatch ha.1.symm.trans h
    · exact nomatch ha.1.symm.trans hb.1
    · obtain ⟨_, h, _⟩ := hb
      exact nomatch ha.1.symm.trans h
    · obtain ⟨_, h, _⟩ := ha
      exact nomatch h.symm.trans hb.1
    · obtain ⟨_, h, _⟩ := ha
      exact nomatch h.symm.trans hb.1

/-! ### Runs -/

/-- A store is usable, or it refuses everything. -/
def Settled (w : World W E) : Prop := Usable w ∨ w.healthy = false

theorem step_settled (w : World W E) (body : Body W E) (h : Settled w) : Settled (step env w body) := by
  obtain hw | hw := h
  · obtain ⟨marks, hclosed⟩ := transaction_closed env body hw
    obtain ⟨ending, hends⟩ := hclosed.ends
    cases ending with
    | committed => exact .inl hends.2.2.2
    | busy => exact .inl hends.2.2
    | propagated =>
      obtain ⟨_, _, _, _, h⟩ := hends
      exact .inl h
    | lost => exact .inr hends.1
  · refine .inr ?_
    rw [step, refuses_of_unhealthy hw body]
    exact hw

theorem refused_closed (body : Body W E) {w : World W E} (h : w.healthy = false) :
    Closed env w (transaction env body w).2 [] (transaction env body w).1 := by
  rw [refuses_of_unhealthy h body]
  exact ⟨by simp, ⟨.lost, h, refuses_of_unhealthy h⟩, fun _ hm => (nomatch hm), fun hm => (nomatch hm)⟩

/-- **Transactions fail closed.** After any transactions before it, a transaction ends in exactly one
way, and a commit or a rollback that has failed leaves no store that can be used. -/
theorem transaction_fails_closed (env : Env) (committed : List W) (before : List (Body W E)) (body : Body W E) :
    let w := Machine.exec (step env) (World.opened committed) before
    let out := transaction env body w
    ∃ marks, out.2.trace = w.trace ++ marks ∧ (∃! ending, Ends env w out.2 marks out.1 ending) ∧
      (env.readOnly = false → .commitFailed ∈ marks → out.2.healthy = false) ∧
      (.rollbackFailed ∈ marks → out.2.healthy = false) := by
  intro w out
  have hsettled : Settled w := Machine.exec_inv step_settled (.inl ⟨rfl, rfl⟩)
  have hclosed : ∃ marks, Closed env w out.2 marks out.1 := by
    obtain hw | hw := hsettled
    · exact transaction_closed env body hw
    · exact ⟨[], refused_closed body hw⟩
  obtain ⟨marks, hclosed⟩ := hclosed
  obtain ⟨ending, hends⟩ := hclosed.ends
  exact ⟨marks, hclosed.trace, ⟨ending, hends, fun _ h => h.unique hends⟩, hclosed.commit, hclosed.rollback⟩

/-- A body that goes on after a statement whose failure has ended the transaction. -/
def strayBody : Body Nat Nat :=
  .statement (some 0) fun _ => .statement (some 1) fun _ => .raised (.other 7)

/-- Its second write is committed on its own and stays, though the body raises. -/
theorem stray_write_stays :
    let env : Env := ⟨fun _ => none, fun n => if n = 1 then some (.other, .ended) else none, fun _ => none, fun _ => none, false⟩
    let out := transaction env strayBody (World.opened [])
    out.1 = .raised 7 ∧ out.2.healthy = true ∧ out.2.committed = [1] := by
  decide

end LocalHand.StateStore
