/-
The calls of clients and administrators as sequences of effects: admission,
cancellation, revocation, and the start and the delivery of a phase.
-/
import LocalHand.Broker.Operations
import LocalHand.RootSlots

namespace LocalHand.Broker

open Relation (ReflTransGen)

variable {site : Site} {env : Env} {m : Mem} {g : Grounds} {l l' : Ledger} {key : Key} {row : Row}

theorem Effects.moves (h : Effects site m g key l l') : Moves site m g l l' :=
  ReflTransGen.mono (fun _ _ => .effect key) _ _ h

/-! ## Admission -/

theorem capacity_ok {reserved : Int} {u : Unit} (h : capacity site l reserved = .ok u) :
    l.open < site.maxQueued ∧ l.reserved + reserved + site.ledgerEmergencyBytes ≤ site.retainedBytes := by
  simpa [capacity] using h

/-- An inserted row, bound to its admission. -/
theorem insert_effects {parent digest : String} {request : Request} {plan : Plan} {principal : Principal}
    {leases : Leases} {l1 : Ledger}
    (hparent : Admissible l key parent) (hopen : l.open < site.maxQueued)
    (hbytes : l.reserved + plan.reservationBytes + site.ledgerEmergencyBytes ≤ site.retainedBytes)
    (hkept : ∀ resource held, l.leases.holder resource = some held → leases.holder resource = some held)
    (hinsert : { l with leases }.insert key parent principal.id digest request plan plan.reservationBytes = .ok l1)
    (h : l1.update key (boundKind key.ns) (bound env m l1 principal) = .ok l') : Effects site m g key l l' := by
  simp only [Ledger.insert, bind_ok, require_ok, exists_unit, Bool.and_eq_true, pure, Except.pure,
    Except.ok.injEq] at hinsert
  obtain ⟨⟨hnone, -⟩, rfl⟩ := hinsert
  obtain ⟨-, rfl⟩ := Ledger.update_ok.mp h
  exact .one (.admitted _ leases principal.scopes env.generation m.install.quotaRequired rfl rfl (Option.isNone_iff_eq_none.mp hnone) hparent hopen
    hbytes hkept)

theorem submit_effects {request : Request} {principal : Principal}
    (h : submit site env m l request principal = .ok l') :
    Effects site m g ⟨.job, request.operationId⟩ l l' := by
  simp only [submit, bind_ok, exists_unit] at h
  obtain ⟨-, h⟩ := h
  split at h
  · simp only [bind_ok, exists_unit, require_ok, pure, Except.pure, Except.ok.injEq] at h
    obtain ⟨-, -, -, rfl⟩ := h
    exact .refl
  · simp only [admitJob, bind_ok, exists_unit, require_ok] at h
    obtain ⟨-, -, -, expected, -, -, plan, -, hcapacity, leases, hacquire, l1, hinsert, h⟩ := h
    obtain ⟨hopen, hbytes⟩ := capacity_ok hcapacity
    exact insert_effects rfl hopen hbytes (acquire_holder hacquire).1 hinsert h

theorem ownRow_get {principal : Principal} {scope : String} (h : ownRow env l key principal scope = .ok row) :
    l.get key = some row := by
  unfold ownRow at h
  split at h
  · cases h
  · next found hget =>
    simp only [bind_ok, exists_unit, require_ok, pure, Except.pure, Except.ok.injEq] at h
    rw [hget, h.2.2]

theorem reconcile_effects {operationId digest roundId : String} {principal : Principal}
    (h : reconcile site env m l operationId digest roundId principal = .ok l') :
    Effects site m g ⟨.reconcile, roundId⟩ l l' := by
  simp only [reconcile, bind_ok, exists_unit, require_ok] at h
  obtain ⟨parent, hparent, -, h⟩ := h
  split at h
  · simp only [bind_ok, exists_unit, require_ok, pure, Except.pure, Except.ok.injEq] at h
    obtain ⟨-, -, rfl⟩ := h
    exact .refl
  · simp only [admitRound, bind_ok, exists_unit, require_ok, Bool.and_eq_true, Bool.not_eq_true',
      decide_eq_true_eq] at h
    obtain ⟨-, ⟨haccepted, hrunning⟩, hround, profile, -, hcapacity, leases, hacquire, l1, hinsert, h⟩ := h
    obtain ⟨hopen, hbytes⟩ := capacity_ok hcapacity
    exact insert_effects ⟨parent, ownRow_get hparent, haccepted, hrunning, hround⟩ hopen hbytes
      (acquire_holder hacquire).1 hinsert h

/-! ## Cancellation and revocation -/

theorem cancelRow_effects (hmay : g.withdraws) (hget : l.get row.key = some row) (hopen : row.record.lifecycle ≠ .terminal)
    (h : cancelRow l row = .ok l') : Effects site m g row.key l l' := by
  unfold cancelRow at h
  split at h
  · next hphase =>
    simp only [bind_ok, Ledger.update_ok] at h
    obtain ⟨l1, hrelease, -, rfl⟩ := h
    have hidle : Phase.running row.record.phase = false := by rw [hphase]; rfl
    have hfirst : Effect site m g row.key l l1 := .release rfl ⟨row, hget, rfl⟩ ⟨row, hget, hidle⟩ hrelease
    obtain ⟨leases, rfl⟩ := release_ledger hrelease
    exact (Effects.one hfirst).trans (Effects.write _ _ _ hget (.cancelledQueued hmay hopen hphase))
  · next hphase =>
    obtain ⟨-, rfl⟩ := Ledger.update_ok.mp h
    exact Effects.write _ _ _ hget (.cancelled hmay hopen hphase)

theorem cancel_effects {operationId digest : String} {round : Option String} {principal : Principal}
    (hmay : g.withdraws) (h : cancel env l operationId digest round principal = .ok l') : ∃ key, Effects site m g key l l' := by
  simp only [cancel, bind_ok, exists_unit, require_ok] at h
  obtain ⟨parent, -, -, row, hrow, -, h⟩ := h
  have hget := get_key_self (ownRow_get hrow)
  split at h
  · simp only [pure, Except.pure, Except.ok.injEq] at h
    exact ⟨row.key, by rw [h]⟩
  · next hopen =>
    simp only [Bool.or_eq_true, decide_eq_true_eq, not_or] at hopen
    exact ⟨row.key, cancelRow_effects hmay hget hopen.1 h⟩

/-- Revoking is a write for each row of the principal, none of them finished. -/
theorem revokeRows_moves {targets : List Row} (hmay : g.withdraws)
    (hopen : ∀ row ∈ targets, ∃ live, l.get row.key = some live ∧ live.record.lifecycle ≠ .terminal) :
    Moves site m g l (targets.foldl (fun l row => l.write row.key .grantRevoked { cancelRequested := some true }) l) := by
  induction targets generalizing l with
  | nil => exact .refl
  | cons row rest ih =>
    obtain ⟨live, hget, hlive⟩ := hopen row List.mem_cons_self
    have hkey := Ledger.get_key hget
    rw [← hkey] at hget
    have hfirst : Effects site m g live.key l (l.write live.key .grantRevoked { cancelRequested := some true }) :=
      Effects.write _ _ _ hget (.revoked hmay hlive)
    rw [hkey] at hfirst
    refine hfirst.moves.trans (ih fun other hother => ?_)
    obtain ⟨live', hget', hlive'⟩ := hopen other (List.mem_cons_of_mem row hother)
    refine ⟨_, by rw [Ledger.get_write, hget', Option.map_some], ?_⟩
    unfold Row.apply
    split
    · exact hlive'
    · exact hlive'

/-- A row of a ledger whose keys are distinct is the one found under its key. -/
theorem Ledger.get_of_mem (hnodup : (l.rows.map Row.key).Nodup) (hmem : row ∈ l.rows) : l.get row.key = some row := by
  unfold Ledger.get
  cases hfind : l.rows.find? (·.key = row.key) with
  | none =>
    have := List.find?_eq_none.mp hfind row hmem
    simp at this
  | some found =>
    have hkey : found.key = row.key := by simpa using List.find?_some hfind
    exact congrArg some (List.inj_on_of_nodup_map hnodup (List.mem_of_find?_eq_some hfind) hmem hkey)

theorem revoke_moves (hmay : g.withdraws) (principalId : String) (hnodup : (l.rows.map Row.key).Nodup) :
    Moves site m g l (revoke l principalId) := by
  refine (ReflTransGen.single (.revoked hmay _)).trans (revokeRows_moves hmay fun row hrow => ?_)
  simp only [List.mem_filter, Bool.and_eq_true, decide_eq_true_eq] at hrow
  exact ⟨row, Ledger.get_of_mem hnodup hrow.1, hrow.2.2⟩

/-! ## Starting a phase -/

/-- A reservation of roots takes no lease from anyone. -/
theorem reserve_keeps {s s' : BootstrapRoots.St} {caller : BootstrapRoots.Row} {phase : Phase}
    {slots : List BootstrapRoots.Slot} {extra : Option BootstrapRoots.Root} {grant : BootstrapRoots.Grant}
    (h : BootstrapRoots.reserve site.roots s caller phase slots extra = (.ok grant, s')) (resource : String)
    (held : String × Int) (hheld : s.leases.holder resource = some held) :
    s'.leases.holder resource = some held := by
  obtain ⟨record, -, -, houtcome⟩ := BootstrapRoots.reserve_ok h
  cases houtcome with
  | again _ hstate => rw [hstate]; exact hheld
  | inherit _ _ _ _ _ hstate => rw [hstate, BootstrapRoots.recordGrants_leases]; exact hheld
  | fresh leases _ _ hfresh hleases hstate =>
    rw [hstate, BootstrapRoots.recordGrants_leases]
    show leases.holder resource = some held
    rw [hleases resource, if_neg fun hmem => ?_]
    · exact hheld
    · rw [BootstrapRoots.ValidGrant.leases_free hfresh resource hmem] at hheld
      cases hheld

/-- The row with its root grants recorded. -/
def Row.granted (row : Row) (grants : BootstrapRoots.Grants) (seq : Nat) : Row :=
  { row with record := row.record.apply { bootstrapGrants := some grants } seq }

/-- What a reservation of roots does to the ledger. -/
theorem reserveRoots_ok {phase : Phase} {slots : List BootstrapRoots.Slot} {extra : Option BootstrapRoots.Root}
    {grant : BootstrapRoots.Grant} (h : reserveRoots site l row phase slots extra = .ok (grant, l')) :
    ∃ leases : Leases,
      (∀ resource held, l.leases.holder resource = some held → leases.holder resource = some held) ∧
      (l' = { l with leases } ∨ ∃ grants, l' = Ledger.write { l with leases } row.key .bootstrapRootsReserved
        { bootstrapGrants := some grants }) := by
  unfold reserveRoots at h
  simp only at h
  split at h
  · cases h
  · next granted s hreserve =>
    refine ⟨s.leases, reserve_keeps hreserve, ?_⟩
    split at h
    · cases h
    · next record _ =>
      split at h
      · simp only [Except.ok.injEq, Prod.mk.injEq] at h
        exact .inl h.2.symm
      · simp only [bind_ok, Ledger.update_ok, pure, Except.pure, Except.ok.injEq, Prod.mk.injEq] at h
        obtain ⟨l1, ⟨-, rfl⟩, -, rfl⟩ := h
        exact .inr ⟨record.grants, rfl⟩

theorem assertOwned_mono {aliases : List (String × String)} {leases leases' : Leases} {owner : String}
    {epoch : Int} {resources : List String}
    (hkept : ∀ resource held, leases.holder resource = some held → leases'.holder resource = some held)
    (h : assertOwned aliases leases owner epoch resources = .ok ()) :
    assertOwned aliases leases' owner epoch resources = .ok () := by
  simp only [assertOwned, bind_ok, require_ok, List.all_eq_true, decide_eq_true_eq] at h ⊢
  obtain ⟨names, hnames, hheld⟩ := h
  exact ⟨names, hnames, fun name hname => hkept _ _ (hheld name hname)⟩

theorem Ready.leases {phase : Phase} (h : Ready site g l row phase) {leases : Leases}
    (hkept : ∀ resource held, l.leases.holder resource = some held → leases.holder resource = some held) :
    Ready site g { l with leases } row phase := by
  obtain ⟨parent, hparent, howned⟩ := h.owned
  exact { h with owned := ⟨parent, hparent, assertOwned_mono hkept howned⟩ }

theorem Ledger.inFlight_write {kind : Kind} {c : Changes}
    (h : ∀ (r : Record) (seq : Nat), (r.apply c seq).inFlight = r.inFlight) :
    (l.write key kind c).inFlight = l.inFlight := by
  simp only [Ledger.inFlight, Ledger.write, List.countP_map]
  refine List.countP_congr fun row _ => ?_
  unfold Row.apply
  by_cases hkey : row.key = key <;> simp [hkey, h]

/-- The parent of the row, after the row was given its roots. -/
theorem parentRow_granted {grants : BootstrapRoots.Grants} {parent : Row} (h : parentRow l row = .ok parent) :
    ∃ parent', parentRow (l.write row.key .bootstrapRootsReserved { bootstrapGrants := some grants })
        (row.granted grants l.nextSeq) = .ok parent' ∧
      parent'.request = parent.request ∧ parent'.record.lifecycle = parent.record.lifecycle ∧
      parent'.record.exitProof = parent.record.exitProof := by
  cases hns : row.ns with
  | job =>
    simp only [parentRow, hns, Except.ok.injEq] at h
    subst h
    exact ⟨row.granted grants l.nextSeq, by simp [parentRow, Row.granted, hns], rfl, rfl, rfl⟩
  | reconcile =>
    simp only [parentRow, hns, Ledger.row_ok] at h
    refine ⟨parent, ?_, rfl, rfl, rfl⟩
    simp only [parentRow, Row.granted, hns, Ledger.row_ok]
    rw [Ledger.get_write_other fun heq => ?_]
    · exact h
    · have := congrArg Key.ns heq
      simp [Row.key, hns] at this

theorem Ready.granted {phase : Phase} (h : Ready site g l row phase) (grants : BootstrapRoots.Grants) :
    Ready site g (l.write row.key .bootstrapRootsReserved { bootstrapGrants := some grants })
      (row.granted grants l.nextSeq) phase where
  may := h.may
  idle := h.idle
  unfinished := h.unfinished
  uncancelled := h.uncancelled
  slots := by
    rw [Ledger.inFlight_write fun _ _ => rfl]
    exact h.slots
  fresh := h.fresh
  running := h.running
  recovered := h.recovered
  gate hphase := by
    obtain ⟨parent, hparent, hgate⟩ := h.gate hphase
    obtain ⟨parent', hparent', -, hlife, hexit⟩ := parentRow_granted hparent
    exact ⟨parent', hparent', hlife ▸ hgate.notAccepted, hlife ▸ hgate.notRunning, hexit ▸ hgate.exited⟩
  owned := by
    obtain ⟨parent, hparent, howned⟩ := h.owned
    obtain ⟨parent', hparent', hrequest, -, -⟩ := parentRow_granted hparent
    refine ⟨parent', hparent', ?_⟩
    unfold ownsResources at howned ⊢
    rw [hrequest]
    exact howned

/-- The ledger a first transaction of `_start` leaves. -/
def Begun.ledger (l : Ledger) : Begun → Ledger
  | .refused => l
  | .waiting l' => l'
  | .intended l' _ => l'

/-- An intended phase is the row's, and has a handle. -/
def Begun.Intends (key : Key) (phase : Phase) : Begun → Prop
  | .intended l' _ => ∃ row, l'.get key = some row ∧ row.record.phase = phase ∧ phase ∈ row.record.handles.keys
  | _ => True

/-- `live` is the row `intend` and `prepare` write, whose roots may have been recorded since. -/
structure Recorded (row live : Row) : Prop where
  key : live.key = row.key
  handles : live.record.handles = row.record.handles
  preparations : live.record.quotaPreparations = row.record.quotaPreparations
  generation : live.record.generation = row.record.generation
  businessStarted : live.record.businessStarted = row.record.businessStarted
  helperStarted : live.record.helperStarted = row.record.helperStarted

theorem intend_effects {phase : Phase} {state : Budget.State} {grant : Budget.Grant} {allocated : Bool} {live : Row}
    {b : Begun} (hget : l.get row.key = some live) (hsame : Recorded row live) (hready : Ready site g l live phase)
    (h : intend env m l row phase state grant allocated = .ok b) :
    Effects site m g row.key l (b.ledger l) ∧ b.Intends row.key phase := by
  simp only [intend, bind_ok, Ledger.update_ok, exists_unit, pure, Except.pure, Except.ok.injEq] at h
  obtain ⟨-, l1, ⟨-, rfl⟩, -, rfl⟩ := h
  have hkey : live.key = row.key := hsame.key
  have hwrite := (show Write site m g l live _ from .intent phase state allocated hready)
  have hchanges : intentChanges m live phase state allocated = intentChanges m row phase state allocated := by
    simp only [intentChanges, hkey, hsame.handles, hsame.businessStarted, hsame.helperStarted]
  rw [hchanges] at hwrite
  refine ⟨.one (.write hget hwrite), _, Ledger.get_write_self hget, rfl, ?_⟩
  show phase ∈ (row.record.handles.insert phase _).keys
  simp

theorem prepare_effects {phase : Phase} {state : Budget.State} {grant : Budget.Grant}
    {allocation : BootstrapRoots.Grant} {live : Row} {b : Begun} (hget : l.get row.key = some live)
    (hsame : Recorded row live) (hready : Ready site g l live phase)
    (hnone : (row.record.quotaPreparations.lookup phase).isNone = true)
    (h : prepare m l row phase state grant allocation = .ok b) :
    Effects site m g row.key l (b.ledger l) ∧ b.Intends row.key phase := by
  simp only [prepare, bind_ok, Ledger.update_ok, pure, Except.pure, Except.ok.injEq] at h
  obtain ⟨l1, ⟨-, rfl⟩, rfl⟩ := h
  rw [Option.isNone_iff_eq_none, ← hsame.preparations] at hnone
  have hwrite := (show Write site m g l live _ from
    .prepared phase state grant allocation hready.uncancelled hready.fresh hnone)
  rw [hsame.preparations, hsame.generation] at hwrite
  exact ⟨.one (.write hget hwrite), trivial⟩

theorem startQuota_effects {phase : Phase} {state : Budget.State} {grant : Budget.Grant}
    {allocation : Option BootstrapRoots.Grant} {live : Row} {b : Begun} (hget : l.get row.key = some live)
    (hsame : Recorded row live) (hready : Ready site g l live phase)
    (h : startQuota env m l row phase state grant allocation = .ok b) :
    Effects site m g row.key l (b.ledger l) ∧ b.Intends row.key phase := by
  cases allocation with
  | none => cases h
  | some allocation =>
    simp only [startQuota] at h
    split at h
    · next hnone => exact prepare_effects hget hsame hready hnone h
    · split at h
      · simp only [Except.ok.injEq] at h
        subst h
        exact ⟨.refl, trivial⟩
      · simp only [bind_ok] at h
        obtain ⟨-, -, h⟩ := h
        exact intend_effects hget hsame hready h

/-- Where the roots come from, and what the row is when they are there. -/
theorem startRoots_effects {profile : Profile} {phase : Phase} {grant : Budget.Grant}
    {allocation : Option BootstrapRoots.Grant} {l1 : Ledger} (hget : l.get row.key = some row)
    (hready : Ready site g l row phase) (h : startRoots site m l row profile phase grant = .ok (allocation, l1)) :
    Effects site m g row.key l l1 ∧
      ∃ live, l1.get row.key = some live ∧ Recorded row live ∧ Ready site g l1 live phase := by
  have hself : Recorded row row := ⟨rfl, rfl, rfl, rfl, rfl, rfl⟩
  unfold startRoots at h
  split at h
  · simp only [Except.ok.injEq, Prod.mk.injEq] at h
    rw [← h.2]
    exact ⟨.refl, row, hget, hself, hready⟩
  · simp only [bind_ok, pure, Except.pure, Except.ok.injEq, Prod.mk.injEq] at h
    obtain ⟨-, -, extra, -, ⟨grant', l2⟩, hreserve, -, rfl⟩ := h
    obtain ⟨leases, hkept, rfl | ⟨grants, rfl⟩⟩ := reserveRoots_ok hreserve
    · exact ⟨.one (.grow leases hkept), row, hget, hself, hready.leases hkept⟩
    · refine ⟨(Effects.one (.grow leases hkept)).trans (Effects.write _ _ _ hget (.rootsReserved grants)), ?_⟩
      exact ⟨_, Ledger.get_write_self hget, ⟨rfl, rfl, rfl, rfl, rfl, rfl⟩, (hready.leases hkept).granted grants⟩

theorem beginPhase_effects {parent : Row} {phase : Phase} {b : Begun} (hget : l.get row.key = some row)
    (hready : phase ∉ row.record.handles.keys → Ready site g l row phase)
    (h : beginPhase site env m l row parent phase = .ok b) :
    Effects site m g row.key l (b.ledger l) ∧ b.Intends row.key phase := by
  simp only [beginPhase, bind_ok, exists_unit, require_ok, Bool.not_eq_true'] at h
  obtain ⟨quota, -, ⟨state, grant⟩, -, hfresh, profile, -, ⟨allocation, l1⟩, hroots, h⟩ := h
  have hfresh : phase ∉ row.record.handles.keys := by simpa using hfresh
  obtain ⟨hfirst, live, hlive, hsame, hready⟩ := startRoots_effects hget (hready hfresh) hroots
  have hlast : Effects site m g row.key l1 (b.ledger l1) ∧ b.Intends row.key phase := by
    split at h
    · exact startQuota_effects hlive hsame hready h
    · exact intend_effects hlive hsame hready h
  refine ⟨?_, hlast.2⟩
  cases b with
  | refused => exact .refl
  | waiting l' => exact hfirst.trans hlast.1
  | intended l' allocated => exact hfirst.trans hlast.1

/-- A first transaction of `_start`, on a row no phase of which is under way. -/
theorem begin_effects {phase : Phase} {b : Begun} (hmay : g.starts) (hphase : Phase.running phase = true)
    (hidle : ∀ row, l.get key = some row → Phase.running row.record.phase = false)
    (hopen : ∀ row, l.get key = some row → row.record.cancelRequested = false → g.unfinished row)
    (h : begin site env m l key phase = .ok b) :
    Effects site m g key l (b.ledger l) ∧ b.Intends key phase := by
  unfold begin at h
  split at h
  · simp only [Except.ok.injEq] at h
    subst h
    exact ⟨.refl, trivial⟩
  · next row hget =>
    have hkey := Ledger.get_key hget
    split at h
    · simp only [Except.ok.injEq] at h
      subst h
      exact ⟨.refl, trivial⟩
    · next hfree =>
      simp only [Bool.or_eq_true, decide_eq_true_eq, not_or, not_le, Bool.not_eq_true] at hfree
      simp only [bind_ok] at h
      obtain ⟨parent, hparent, h⟩ := h
      split at h
      · simp only [pure, Except.pure, Except.ok.injEq] at h
        subst h
        exact ⟨.refl, trivial⟩
      · next hquiet =>
        simp only [bind_ok, exists_unit] at h
        obtain ⟨hchecks, h⟩ := h
        simp only [startChecks, priorExit, bind_ok, exists_unit, require_ok, Bool.or_eq_true, Bool.not_eq_true',
          Bool.and_eq_true, decide_eq_true_eq] at hchecks
        obtain ⟨hprior, -, current, -, -, howned, -, hrecovered, -⟩ := hchecks
        simp only [Bool.and_eq_true, Bool.or_eq_true, decide_eq_true_eq, not_and, not_or] at hquiet
        subst hkey
        refine beginPhase_effects hget (fun hfresh => ?_) h
        exact
          { may := hmay
            idle := hidle row hget
            unfinished := hopen row hget hfree.1
            uncancelled := hfree.1
            slots := by
              have hslots := hfree.2
              simp only [executionSlots, List.length_map] at hslots
              rw [Ledger.inFlight, List.countP_eq_length_filter]
              omega
            fresh := hfresh
            running := hphase
            recovered := fun hrec => by
              rcases hrecovered with hnot | hevidence
              · rw [hnot] at hrec
                cases hrec
              · exact hevidence.1
            gate := fun hrec => ⟨parent, hparent, (hquiet hrec).1, (hquiet hrec).2,
              hprior.resolve_left fun hne => hne hrec⟩
            owned := ⟨parent, hparent, howned⟩ }

theorem acknowledge_effects {phase : Phase} {handle : Handle} {allocated : Bool}
    (hphase : ∀ row, l.get key = some row → phase ∈ row.record.handles.keys)
    (h : acknowledge l key phase handle allocated = .ok l') : Effects site m g key l l' := by
  simp only [acknowledge, bind_ok, Ledger.row_ok, Ledger.update_ok] at h
  obtain ⟨row, hget, -, rfl⟩ := h
  have hkey := Ledger.get_key hget
  subst hkey
  exact Effects.write _ _ _ hget (.enqueued phase _ (hphase row hget))

/-! ## Deliveries -/

theorem asUncertain_ok {α : Type} {message : String} {x : Except Fault α} {a : α} :
    asUncertain message x = .ok a ↔ x = .ok a := by
  unfold asUncertain
  split <;> simp

/-- The quota part of a delivery writes at most the observation of a helper's bootstrap. -/
theorem stageAdmission_ok {d : Delivery} (h : stageAdmission env m l row d = .ok l') :
    l' = l ∨ d.stage = some .helper ∧ ∃ observation, l' = l.write row.key .quotaObserved
      { quotaEventPhase := some row.record.phase
        quotaObserved := some (row.record.quotaObserved.insert row.record.phase ⟨row.record.phase, observation⟩) } := by
  simp only [stageAdmission, bind_ok] at h
  obtain ⟨version, -, h⟩ := h
  split at h
  · simp only [asUncertain_ok, stageQuota, bind_ok] at h
    obtain ⟨grant, -, h⟩ := h
    split at h
    · cases h
    · simp only [pure, Except.pure, Except.ok.injEq] at h
      exact .inl h.symm
    · simp only [bind_ok, pure, Except.pure, Except.ok.injEq] at h
      obtain ⟨-, -, -, -, rfl⟩ := h
      exact .inl rfl
    · next hstage =>
      simp only [bind_ok, Ledger.update_ok] at h
      obtain ⟨observation, -, -, rfl⟩ := h
      exact .inr ⟨hstage, observation, rfl⟩
  · simp only [pure, Except.pure, Except.ok.injEq] at h
    exact .inl h.symm

/-- The delivery writes its intent after at most an observation and a proof. -/
theorem deliver_ok {d : Delivery} (h : deliver env m l row d = .ok l') :
    ∃ before, Observes row d.stage before ∧ l' = l.writes row.key (before ++
      [(.managerDeliveryIntent, { deliveryIntents := some (row.record.deliveryIntents ++ [d.id]) })]) := by
  simp only [deliver, bind_ok, Ledger.update_ok] at h
  obtain ⟨l1, hadmitted, l2, hproof, -, rfl⟩ := h
  unfold recordProof at hproof
  rcases stageAdmission_ok hadmitted with rfl | ⟨hstage, observation, rfl⟩
  · split at hproof
    · obtain ⟨-, rfl⟩ := Ledger.update_ok.mp hproof
      exact ⟨_, .bootstrap, rfl⟩
    · obtain ⟨-, rfl⟩ := Ledger.update_ok.mp hproof
      exact ⟨_, .helper, rfl⟩
    · simp only [Except.ok.injEq] at hproof
      subst hproof
      exact ⟨_, .nothing, rfl⟩
  · rw [hstage] at hproof
    obtain ⟨-, rfl⟩ := Ledger.update_ok.mp hproof
    exact ⟨_, .quota observation hstage, rfl⟩

theorem lookup_mapValues {α β : Type} (f : α → β) (members : PerPhase α) (phase : Phase) :
    (mapValues f members).lookup phase = (members.lookup phase).map f :=
  List.dlookup_map₂ (f := fun _ : Phase => f) phase

/-- A stored grant of a phase with a handle names the execution of the handle. -/
theorem storedGrant_handle {phase : Phase} {grant : Budget.Grant} {handle : Handle}
    (hhandle : row.record.handles.lookup phase = some handle) (h : storedGrant site row phase = .ok grant) :
    handle.executionId = some (row.key.exec phase) := by
  unfold storedGrant Budget.storedGrant at h
  split at h
  · cases h
  · next state _ =>
    simp only [bind_ok, exists_unit] at h
    obtain ⟨hvalid, h⟩ := h
    split at h
    · cases h
    · next stored hstored =>
      have hone := (Budget.validateState_iff.mp hvalid).stored phase stored hstored
      simp only [Budget.validateStored, bind_ok, exists_unit, require_ok, Bool.and_eq_true, decide_eq_true_eq] at hone
      obtain ⟨hgrant, -, hintended⟩ := hone
      have hnamed := (Budget.validGrantShape_facts (Budget.validateGrant_shape hgrant)).1
      simp only [Budget.validateGrant, bind_ok, exists_unit, require_ok, Bool.and_eq_true] at hgrant
      obtain ⟨-, hmatches, -⟩ := hgrant
      simp only [Budget.matchesIf, decide_eq_true_eq] at hmatches
      obtain ⟨⟨⟨⟨-, hphase⟩, hns⟩, hid⟩, -⟩ := hmatches
      have hhandles : row.budget.handles.lookup phase = some handle.executionId := by
        show (mapValues (·.executionId) row.record.handles).lookup phase = _
        rw [lookup_mapValues, hhandle, Option.map_some]
      rw [Budget.Row.intended, hhandles] at hintended
      rw [Option.some.inj hintended, hnamed, hphase, hns, hid]
      rfl

theorem helperChecks_ok {d : Delivery} {u : Unit} (h : helperChecks site row d = .ok u) (hstage : d.stage = some .helper) :
    ⟨d.exec, some .bootstrap⟩ ∈ row.record.deliveryIntents := by
  rw [helperChecks, if_pos hstage] at h
  simp only [bind_ok, exists_unit, require_ok, List.contains_eq_mem, decide_eq_true_eq] at h
  exact h.1

theorem readerChecks_ok {d : Delivery} {handle : Handle} {grant : Budget.Grant} {u : Unit}
    (h : readerChecks site m l row handle grant d = .ok u) (hstage : d.stage = some .resultReader) :
    ⟨d.exec, some .bootstrap⟩ ∈ row.record.deliveryIntents ∧ ⟨d.exec, some .helper⟩ ∈ row.record.deliveryIntents := by
  rw [readerChecks, if_pos hstage] at h
  simp only [bind_ok, exists_unit, require_ok, List.contains_eq_mem, Bool.and_eq_true, decide_eq_true_eq] at h
  exact ⟨h.1.1.2, h.1.2⟩

theorem stageAuthority_ok {parent : Row} (h : stageAuthority site env l row parent = .ok (some ())) :
    row.record.generation = generation env l := by
  simp only [stageAuthority, bind_ok, check_some, currentAuthority, pure, Except.pure, Except.ok.injEq] at h
  obtain ⟨current, ⟨expected, -, hcurrent⟩, htrue, -⟩ := h
  rw [htrue, Bool.and_eq_true, decide_eq_true_eq] at hcurrent
  exact hcurrent.1

theorem guardRow_ok {d : Delivery} (howner : m.owners.lookup d.exec = some row.key)
    (h : guardRow site env m l row d = .ok (some l')) :
    Deliverable m l row d.id ∧ deliver env m l row d = .ok l' := by
  simp only [guardRow, bind_ok, exists_unit, check_some, Bool.and_eq_true, Bool.not_eq_true',
    decide_eq_true_eq] at h
  obtain ⟨-, ⟨hexec, hcancel⟩, -, hfresh, hhelper, grant, hgrant, hreader, -, -, parent, -, authority,
    hauthority, h⟩ := h
  cases authority with
  | none => cases h
  | some u =>
    simp only [bind_ok, pure, Except.pure, Except.ok.injEq, Option.some.injEq] at h
    obtain ⟨l1, hdeliver, rfl⟩ := h
    cases hhandle : row.record.handles.lookup row.record.phase with
    | none => rw [hhandle] at hexec; cases hexec
    | some handle =>
      rw [hhandle, Option.bind_some, storedGrant_handle hhandle hgrant] at hexec
      refine ⟨?_, hdeliver⟩
      exact
        { owner := howner
          exec := (Option.some.inj hexec).symm
          handle := by
            rw [← AList.mem_keys, ← AList.lookup_isSome, hhandle]
            rfl
          uncancelled := hcancel
          generation := congrArg Prod.snd (stageAuthority_ok hauthority)
          fresh := hfresh
          helper := helperChecks_ok hhelper
          reader := readerChecks_ok hreader }

/-- What `_guard_start` committed, where it goes on to the launch. -/
theorem guardStart_ok {d : Delivery} (h : guardStart site env m l d = .ok (some l')) :
    ∃ row before, l.get row.key = some row ∧ Deliverable m l row d.id ∧ Observes row d.stage before ∧
      l' = l.writes row.key (before ++
        [(.managerDeliveryIntent, { deliveryIntents := some (row.record.deliveryIntents ++ [d.id]) })]) := by
  simp only [guardStart, bind_ok, exists_unit] at h
  obtain ⟨-, h⟩ := h
  cases howner : m.owners.lookup d.exec with
  | none => rw [howner] at h; cases h
  | some key =>
    rw [howner, Option.bind_some] at h
    cases hget : l.get key with
    | none => rw [hget] at h; cases h
    | some row =>
      rw [hget] at h
      have hkey := Ledger.get_key hget
      subst hkey
      obtain ⟨hable, hdeliver⟩ := guardRow_ok howner h
      obtain ⟨before, hbefore, hl⟩ := deliver_ok hdeliver
      exact ⟨row, before, hget, hable, hbefore, hl⟩

/-! ## Quota observations -/

theorem bindObservation_effects {phase : Phase} {grant : QuotaGrant}
    (h : bindObservation env m l key phase grant = .ok l') : Effects site m g key l l' := by
  unfold bindObservation at h
  split at h
  · cases h
  · next row hget =>
    have hkey := Ledger.get_key hget
    subst hkey
    simp only [bind_ok, exists_unit, require_ok, Bool.and_eq_true, Bool.not_eq_true', decide_eq_true_eq] at h
    obtain ⟨⟨⟨-, hhandle⟩, -⟩, prep, -, -, -, h⟩ := h
    split at h
    · simp only [bind_ok, exists_unit, require_ok, pure, Except.pure, Except.ok.injEq] at h
      obtain ⟨-, -, -, rfl⟩ := h
      exact .refl
    · next hnone =>
      simp only [bind_ok, exists_unit, Ledger.update_ok] at h
      obtain ⟨-, -, rfl⟩ := h
      exact Effects.write _ _ _ hget (.observationBound phase grant (by simpa using hhandle) hnone)

/-- A closure is of a phase this process prepared, whose exit is pending. -/
theorem closureFence_ok {phase : Phase} {fence : Fence} (h : closureFence site env m l row phase = .ok fence) :
    (∃ prep, row.record.quotaPreparations.lookup phase = some prep ∧ prep.session = m.session) ∧
      (row.record.quotaPending.lookup phase).isSome = true := by
  simp only [closureFence, selected, bind_ok, exists_unit, require_ok, decide_eq_true_eq] at h
  obtain ⟨grant, ⟨version, -, -, prep, hprep, hsession, -⟩, saved, -, pending, hpending, -⟩ := h
  refine ⟨⟨prep, original_ok hprep, hsession⟩, ?_⟩
  rw [show row.record.quotaPending.lookup phase = some pending from original_ok hpending]
  rfl

theorem closeObservation_effects {phase : Phase} (h : closeObservation site env m l key phase = .ok l') :
    Effects site m g key l l' := by
  unfold closeObservation at h
  split at h
  · cases h
  · next row hget =>
    have hkey := Ledger.get_key hget
    subst hkey
    simp only [bind_ok] at h
    obtain ⟨fence, hfence, h⟩ := h
    split at h
    · simp only [bind_ok, exists_unit, require_ok, pure, Except.pure, Except.ok.injEq] at h
      obtain ⟨-, -, -, rfl⟩ := h
      exact .refl
    · next hnone =>
      simp only [bind_ok, exists_unit, require_ok, decide_eq_true_eq, Ledger.update_ok] at h
      obtain ⟨-, hphase, -, rfl⟩ := h
      obtain ⟨hsession, hpending⟩ := closureFence_ok hfence
      exact Effects.write _ _ _ hget (.closed phase fence _ hphase hnone hsession hpending)

end LocalHand.Broker
