/-
The limits of admission over runs: the retained bytes every row is admitted
with, and the executions started at once.
-/
import LocalHand.Broker.Barrier

namespace LocalHand.Broker

/-- The current phase has an intent, and its exit is neither proved nor pending. -/
def Record.awaited (r : Record) : Bool := r.handles.keys.contains r.phase && (r.quotaPending.lookup r.phase).isNone

/-- How many rows await the exit of an execution. -/
def Ledger.awaited (l : Ledger) : Nat := l.rows.countP (·.record.awaited)

/-- The limits the policy sets. -/
structure Limited (site : Site) (l : Ledger) : Prop where
  bytes : l.rows = [] ∨ l.reserved + site.ledgerEmergencyBytes ≤ site.retainedBytes
  running : l.awaited ≤ site.maxRunning

section

variable {site : Site} {m : Mem} {g : Grounds} {l l' : Ledger} {key : Key} {row row' : Row} {exited : ExecId → Prop}
  {es : List (Kind × Changes)}

/-- What awaits an exit has a slot. -/
theorem RowSound.inFlight (h : RowSound exited row) (hawaited : row.record.awaited = true) :
    row.record.inFlight = true := by
  simp only [Record.awaited, Bool.and_eq_true, List.contains_eq_mem, decide_eq_true_eq,
    Option.isNone_iff_eq_none] at hawaited
  obtain ⟨hmem, hnone⟩ := hawaited
  simp only [Record.inFlight, Bool.and_eq_true, List.contains_eq_mem, decide_eq_true_eq, Bool.not_eq_true']
  refine ⟨hmem, Bool.not_eq_true _ ▸ fun hproved => ?_⟩
  have hsome := h.awaiting hmem hproved
  rw [hnone] at hsome
  cases hsome

theorem Ledger.Sound.awaited_le (h : l.Sound site exited) : l.awaited ≤ l.inFlight :=
  List.countP_mono_left fun row hrow hawaited => (h.rows row hrow).inFlight hawaited

/-- A row comes to await an exit only when its phase is started. -/
theorem Later.awaited (h : Later g row row') (hsound : RowSound exited row') (hstarts : ¬ g.starts)
    (hawaited : row'.record.awaited = true) : row.record.awaited = true := by
  simp only [Record.awaited, Bool.and_eq_true, List.contains_eq_mem, decide_eq_true_eq,
    Option.isNone_iff_eq_none] at hawaited ⊢
  obtain ⟨hmem, hnone⟩ := hawaited
  obtain ⟨hkeys, hphase⟩ := h.unstarted hstarts
  rcases hphase with heq | hidle
  · rw [heq] at hmem hnone
    refine ⟨hkeys _ hmem, ?_⟩
    by_contra hsome
    have hlater := h.pending row.record.phase (Option.isSome_iff_ne_none.mpr hsome)
    rw [hnone] at hlater
    cases hlater
  · exact absurd hmem (hsound.idle hidle)

/-- Only the start of a phase takes a slot. -/
theorem Write.started (h : Write site m g l row es) :
    (∃ phase, Ready site g l row phase) ∨ Write site m { g with starts := False } l row es := by
  cases h with
  | intent phase state allocated hready => exact .inl ⟨phase, hready⟩
  | _ => exact .inr (by constructor <;> assumption)

theorem writes_reserved : (l.writes key es).reserved = l.reserved := by
  rw [Ledger.reserved, Ledger.reserved, Ledger.writes_rows, List.map_map]
  congr 1
  refine List.map_congr_left fun row _ => ?_
  simp only [Function.comp]
  split <;> rfl

/-- A write changes the row of its key alone. -/
theorem writes_awaited_succ (hnodup : (l.rows.map Row.key).Nodup) (key : Key) (es : List (Kind × Changes)) : (l.writes key es).awaited ≤ l.awaited + 1 := by
  have hone : l.rows.countP (·.key = key) ≤ 1 := by
    have hcount := List.nodup_iff_count_le_one.mp hnodup key
    rw [List.count, List.countP_map] at hcount
    exact hcount
  have hsum : ∀ rows : List Row, rows.countP (fun row => (if row.key = key then
      { row with record := row.record.applyAll es l.nextSeq } else row).record.awaited) ≤
        rows.countP (·.record.awaited) + rows.countP (·.key = key) := by
    intro rows
    induction rows with
    | nil => simp
    | cons row rest ih =>
      simp only [List.countP_cons]
      by_cases hkey : row.key = key
      · simp only [hkey, if_true, decide_true]
        split <;> split <;> omega
      · simp only [hkey, if_false, decide_false, Bool.false_eq_true]
        omega
  rw [Ledger.awaited, Ledger.awaited, Ledger.writes_rows, List.countP_map]
  exact le_trans (hsum l.rows) (by omega)

theorem writes_awaited_le (hsound : l.Sound site g.exited) (hget : l.get row.key = some row)
    (hwrite : Write site m g l row es) (hunstarted : Write site m { g with starts := False } l row es) :
    (l.writes row.key es).awaited ≤ l.awaited := by
  have hafter := hsound.write hget hwrite
  rw [Ledger.awaited, Ledger.awaited, Ledger.writes_rows, List.countP_map]
  refine List.countP_mono_left fun other hother hawaited => ?_
  simp only [Function.comp] at hawaited
  split at hawaited
  · next hkey =>
    have hsame := Ledger.get_of_mem hsound.nodup hother
    rw [hkey, hget, Option.some.injEq] at hsame
    subst hsame
    have hrow := hafter.rows _ (Ledger.get_mem (Ledger.get_writes_self hget))
    exact (hunstarted.later l.nextSeq).awaited hrow (fun hstarts => hstarts) hawaited
  · exact hawaited

theorem Effect.limited (h : Effect site m g key l l') (hsound : l.Sound site g.exited) (hl : Limited site l) :
    Limited site l' := by
  cases h with
  | @write row es hget hwrite =>
    have hkey := Ledger.get_key hget
    subst hkey
    refine ⟨?_, ?_⟩
    · rw [writes_reserved]
      refine hl.bytes.imp_left fun hnil => ?_
      rw [Ledger.writes_rows, hnil, List.map_nil]
    · rcases hwrite.started with ⟨phase, hready⟩ | hunstarted
      · have hslots := hready.slots
        have hle := hsound.awaited_le
        have hsucc := writes_awaited_succ hsound.nodup row.key es
        omega
      · exact le_trans (writes_awaited_le hsound hget hwrite hunstarted) hl.running
  | grow leases hkept => exact ⟨hl.bytes, hl.running⟩
  | release hkey hlive hidle hrelease =>
    obtain ⟨leases, rfl⟩ := release_ledger hrelease
    exact ⟨hl.bytes, hl.running⟩
  | releaseStopped hfound hjob hround hstopped hrelease =>
    obtain ⟨leases, rfl⟩ := releaseStopped_ledger hrelease
    exact ⟨hl.bytes, hl.running⟩
  | admitted added leases scopes policy quota hkey hrecord hnone hparent hopen hbytes hkept =>
    have hrows := admitted_rows leases [(.accepted, {}), (boundKind key.ns,
      { principalScopes := some scopes, generation := some (policy, l.generation), handles := some ∅
        quotaBindingVersion := if quota then some 1 else none })] hkey hnone
    refine ⟨.inr ?_, ?_⟩
    · rw [Ledger.reserved, hrows, List.map_append, List.sum_append]
      simp only [List.map_cons, List.map_nil, List.sum_cons, List.sum_nil, add_zero]
      exact hbytes
    · rw [Ledger.awaited, hrows, List.countP_append, hrecord]
      exact hl.running

theorem Moves.limited (h : Moves site m g l l') (hsound : l.Sound site g.exited) (hl : Limited site l) :
    Limited site l' := by
  suffices hboth : l'.Sound site g.exited ∧ Limited site l' from hboth.2
  induction h with
  | refl => exact ⟨hsound, hl⟩
  | tail _ hmove ih =>
    refine ⟨ih.1.moves (.single hmove), ?_⟩
    cases hmove with
    | effect key heffect => exact heffect.limited ih.1 ih.2
    | revoked hmay revoked => exact ⟨ih.2.bytes, ih.2.running⟩

/-- In every run the rows' reservations fit the retained bytes, and no more executions
await their exit than the policy lets run. -/
theorem run_limited (site : Site) (actions : List Action) : Limited site (run site .created actions).ledger := by
  refine (Machine.exec_inv (I := fun s : Sys => s.Sound site ∧ Limited site s.ledger) (fun s a h => ?_)
    ⟨.created site, .inl rfl, Nat.zero_le _⟩).2
  obtain ⟨hsound, hlimited⟩ := h
  obtain ⟨exited, hgrown, hstepped⟩ := step_stepped hsound a
  exact ⟨hstepped.sound, hstepped.moves.limited (hsound.ledger.mono hgrown) hlimited⟩

end

end LocalHand.Broker
