/-
Quota queries are once-only, with separated resources, over every run.
-/
import LocalHand.QuotaServiceOnce
import LocalHand.Lib.Run

namespace LocalHand.QuotaService

open PyJson QuotaContract QuotaGrant QuotaJournal Program
open Framing (Bytes)

variable {F : Type} {env : Env F} {c₀ c : Core F}

abbrev Holds (P : Core F → Prop) : World F → Prop := fun w => P w.core

/-! ## What was admitted -/

/-- What an intent needs of the cells it is appended beside. -/
structure Admissible (env : Env F) (c : Core F) (g : Grant) (now : Int) : Prop where
  closed : ∀ id ∈ c.intents, ∃ fence ns, (c.cells id).records.getLast? = some (.closed fence) ∧ number fence "closed_ns" = .ok ns ∧ ns ≤ now
  predecessors : ∀ id, id ∈ g.predecessors ↔ ∃ g' ∈ env.reg.grants, g'.id = id ∧ id ∈ c.intents ∧ sameOperation g g' = true

theorem checkOverlap_ok {g previous : Grant} (h : checkOverlap g previous = .ok ()) : Separated previous g := by
  intro r hprevious hg
  have hin : r ∈ overlap g previous := List.mem_filter.mpr ⟨hg, by simpa using hprevious⟩
  unfold checkOverlap at h
  rw [if_neg (by simpa using List.ne_nil_of_mem hin)] at h
  simp only [bind_ok, require_ok, exists_unit, Bool.and_eq_true] at h
  obtain ⟨⟨hoperation, hbinding⟩, h⟩ := h
  refine ⟨hoperation, hbinding, ?_⟩
  by_cases hallocation : previous.allocation.allocationId = g.allocation.allocationId
  · exact .inl hallocation
  · rw [if_pos hallocation] at h
    simp only [checkReuse, bind_ok, require_ok, exists_unit] at h
    obtain ⟨-, hall, -⟩ := h
    have hallowed : r ∈ allowed g := by simpa using List.all_eq_true.mp hall r hin
    unfold allowed at hallowed
    split at hallowed
    · next root hroot => exact .inr ⟨root, hroot, by simpa using hallowed⟩
    · cases hallowed

variable [DecidableEq F]

theorem admitAfter_ok {version : Nat} {g previous : Grant} {now : Int} {state : State F} (h : admitAfter version g now previous state = .ok ()) :
    state.status = .closed ∧ (∃ fence ns, state.closed = some fence ∧ number fence "closed_ns" = .ok ns ∧ ns ≤ now) ∧ Separated previous g := by
  unfold admitAfter at h
  split at h
  · cases h
  · next fence hfence =>
    simp only [bind_ok, require_ok, exists_unit, decide_eq_true_eq] at h
    obtain ⟨hstatus, -, ns, hns, hle, -, hoverlap, -⟩ := h
    exact ⟨hstatus, ⟨fence, ns, hfence, hns, hle⟩, checkOverlap_ok hoverlap⟩

omit [DecidableEq F] in
theorem scanned_mem {states : List (Grant × State F)} (hs : Scanned env.reg c.cells states) {g : Grant} (hg : g ∈ env.reg.grants) :
    ∃ s, (g, s) ∈ states := by
  rw [← hs.grants] at hg
  obtain ⟨⟨g', s⟩, hin, rfl⟩ := List.mem_map.mp hg
  exact ⟨s, hin⟩

omit [DecidableEq F] in
theorem scanned_grant {states : List (Grant × State F)} (hs : Scanned env.reg c.cells states) {g : Grant} {s : State F} (hin : (g, s) ∈ states) :
    g ∈ env.reg.grants := by
  rw [← hs.grants]
  exact List.mem_map.mpr ⟨(g, s), hin, rfl⟩

omit [DecidableEq F] in
theorem scanned_ready {states : List (Grant × State F)} (hs : Scanned env.reg c.cells states) (h : Sound env c) {g : Grant} {s : State F}
    (hin : (g, s) ∈ states) : s.status ≠ .ready ↔ g.id ∈ c.intents := by
  rw [h.mem]
  exact not_congr (hs.reads g s hin).2.ready

omit [DecidableEq F] in
theorem scanned_charged {states : List (Grant × State F)} (hs : Scanned env.reg c.cells states) :
    (states.filter fun entry => entry.2.status ≠ .ready).map Prod.fst = charged env.reg c := by
  rw [charged, ← hs.grants, List.filter_map]
  refine congrArg _ (List.filter_congr fun entry hin => ?_)
  have hready := (hs.reads entry.1 entry.2 hin).2.ready
  rw [← List.isEmpty_iff] at hready
  rw [Bool.eq_iff_iff]
  simp [hready]

/-- What `_admit_new` lets through. -/
theorem admitNew_ok {states : List (Grant × State F)} {version : Nat} {g : Grant} {now : Int} (hs : Scanned env.reg c.cells states)
    (hc : Sound env c) (hg : g ∈ env.reg.grants) (h : admitNew env.reg.capacity version g states now = .ok ()) :
    Admissible env c g now ∧ (∀ a ∈ c.intents, Shares env.reg a g.id) ∧
      ∀ k, ((charged env.reg c ++ [g]).map (totals · k)).sum ≤ env.reg.capacity.management k := by
  simp only [admitNew, bind_ok, require_ok, exists_unit, forM_ok] at h
  obtain ⟨hafter, hpredecessors, -, hcapacity⟩ := h
  rw [scanned_charged hs] at hcapacity hpredecessors
  have hother {g' : Grant} (hg' : g' ∈ env.reg.grants) (hin : g'.id ∈ c.intents) :
      ∃ s, (g', s) ∈ states ∧ admitAfter version g now g' s = .ok () := by
    obtain ⟨s, hmem⟩ := scanned_mem hs hg'
    exact ⟨s, hmem, hafter (g', s) (List.mem_filter.mpr ⟨hmem, by simpa using (scanned_ready hs hc hmem).mpr hin⟩)⟩
  refine ⟨⟨fun id hid => ?_, fun id => ?_⟩, fun a ha => ?_, checkCapacity_ok hcapacity⟩
  · obtain ⟨g', hg', rfl⟩ := hc.registered id hid
    obtain ⟨s, hmem, hok⟩ := hother hg' hid
    obtain ⟨hstatus, ⟨fence, ns, hfence, hns, hle⟩, -⟩ := admitAfter_ok hok
    obtain ⟨fence', hfence', hlast⟩ := (hs.reads g' s hmem).2.closed hstatus
    rw [hfence] at hfence'
    cases hfence'
    exact ⟨fence, ns, hlast, hns, hle⟩
  · simp only [sameMembers, Bool.and_eq_true, List.all_eq_true, List.contains_iff_mem, List.mem_map, List.mem_filter, charged,
      Bool.not_eq_true', List.isEmpty_eq_false_iff] at hpredecessors
    obtain ⟨hleft, hright⟩ := hpredecessors
    constructor
    · intro hid
      obtain ⟨g', ⟨⟨hg', hne⟩, hop⟩, rfl⟩ := hright id hid
      exact ⟨g', hg', rfl, (hc.mem _).mpr hne, hop⟩
    · rintro ⟨g', hg', rfl, hin, hop⟩
      exact hleft _ ⟨g', ⟨⟨hg', (hc.mem _).mp hin⟩, hop⟩, rfl⟩
  · intro g₁ hg₁ g₂ hg₂ ha₁ ha₂
    cases grant_eq hg₂ hg ha₂
    subst ha₁
    obtain ⟨s, -, hok⟩ := hother hg₁ ha
    exact (admitAfter_ok hok).2.2

/-! ## What each call leaves -/

section Steps

variable {P Q E : Core F → Prop} {α : Type}

omit [DecidableEq F] in
theorem lift_spec (hP : ∀ c, P c → E c) (x : Except Fault α) :
    Spec (Holds P) (lift x : Op F α) (fun a => Holds fun c => P c ∧ x = .ok a) (fun _ => Holds E) := by
  cases x with
  | ok a => exact Spec.ret fun _ h => ⟨h, rfl⟩
  | error fault => exact Spec.raise fun _ h => hP _ h

omit [DecidableEq F] in
theorem require_spec (hP : ∀ c, P c → E c) (ok : Bool) (fault : Fault) :
    Spec (Holds P) (lift (require ok fault) : Op F Unit) (fun _ => Holds P) (fun _ => Holds E) :=
  (lift_spec hP _).weaken (fun _ h => h) (fun _ _ h => h.1) fun _ _ h => h

omit [DecidableEq F] in
theorem raise_spec (hP : ∀ c, P c → E c) (fault : Fault) {Q : α → World F → Prop} :
    Spec (Holds P) (raise fault : Op F α) Q (fun _ => Holds E) := Spec.raise fun _ h => hP _ h

omit [DecidableEq F] in
theorem question_spec {T : Fault → World F → Prop} : Spec (Holds P) (question : Op F Nat) (fun _ => Holds P) T := fun _ h => h

omit [DecidableEq F] in
theorem pass_spec (hP : ∀ c, P c → E c) : Spec (Holds P) (pass env) (fun _ => Holds P) (fun _ => Holds E) := by
  refine Spec.bind question_spec fun n => ?_
  cases env.fault n with
  | none => exact Spec.ret fun _ h => h
  | some fault => exact Spec.raise fun _ h => hP _ h

omit [DecidableEq F] in
theorem service_spec (hP : ∀ c, P c → E c) (i : Nat) :
    Spec (Holds P) (service i : Op F Service) (fun _ => Holds P) (fun _ => Holds E) := by
  refine Spec.bind (Q := fun _ => Holds P) (Spec.read fun _ h => h) fun w => ?_
  split
  · exact Spec.ret fun _ h => h
  · exact Spec.raise fun _ h => hP _ h

omit [DecidableEq F] in
theorem now_spec (hP : ∀ c, P c → E c) (i : Nat) (g : Option Grant) :
    Spec (Holds P) (now env i g) (fun _ => Holds P) (fun _ => Holds E) := by
  refine Spec.bind (service_spec hP i) fun s => Spec.bind question_spec fun n => Spec.bind (Q := fun _ => Holds P)
    ((lift_spec hP _).weaken (fun _ h => h) (fun _ _ h => h.1) fun _ _ h => h) fun reading => ?_
  obtain ⟨boot, ns⟩ := reading
  exact Spec.bind (require_spec hP _ _) fun _ => Spec.bind (require_spec hP _ _) fun _ => Spec.bind (Q := fun _ => Holds P) (Spec.update fun _ h => h)
    fun _ => Spec.bind (require_spec hP _ _) fun _ => Spec.ret fun _ h => h

omit [DecidableEq F] in
theorem locked_spec (hP : ∀ c, P c → E c) (i : Nat) : Spec (Holds P) (locked env i) (fun _ => Holds P) (fun _ => Holds E) :=
  Spec.bind (service_spec hP i) fun _ => Spec.bind (Q := fun _ => Holds P) (Spec.read fun _ h => h) fun _ => Spec.bind (require_spec hP _ _) fun _ =>
    pass_spec hP

omit [DecidableEq F] in
theorem change_spec {f : Core F → Core F} (h : ∀ c, P c → Q (f c)) {T : Fault → World F → Prop} :
    Spec (Holds P) (change f) (fun _ => Holds Q) T := fun _ hw => h _ hw

omit [DecidableEq F] in
/-- A record is in its cell and durable, or the call raises with nothing, a part or all of it there. -/
theorem append_spec (hP : ∀ c, P c → E c) {i : Nat} {id : String} {r : Record F} (htear : ∀ c, P c → E (c.setCell id (Cell.tear (c.cells id))))
    (happend : ∀ c, P c → E (c.append id r)) (hdone : ∀ c, P c → Q ((c.append id r).durable id r)) :
    Spec (Holds P) (append env i id r) (fun _ => Holds Q) (fun _ => Holds E) := by
  refine Spec.bind (service_spec hP i) fun s => Spec.bind (Q := fun _ => Holds P) (Spec.read fun _ h => h) fun _ => Spec.bind (require_spec hP _ _) fun _ => ?_
  refine Spec.handle (T := fun _ => Holds E) ?_ fun fault => Spec.bind (Q := fun _ => Holds E)
    (Spec.bind (service_spec (fun _ h => h) i) fun _ => Spec.update fun _ h => h) fun _ => Spec.raise fun _ h => h
  refine Spec.bind question_spec fun n => ?_
  cases env.writing n with
  | done => exact change_spec hdone
  | nothing fault => exact raise_spec hP fault
  | part fault => exact Spec.bind (change_spec htear) fun _ => Spec.raise fun _ h => h
  | unsynced fault => exact Spec.bind (change_spec happend) fun _ => Spec.raise fun _ h => h

theorem scan_spec (hP : ∀ c, P c → E c) :
    Spec (Holds P) (scan env) (fun states => Holds fun c => P c ∧ Scanned env.reg c.cells states) (fun _ => Holds E) := by
  refine Spec.bind (Q := fun c' => Holds fun c => P c ∧ c' = c) (fun _ h => ⟨h, rfl⟩) fun c' => ?_
  refine Spec.bind (lift_spec (fun c h => hP c h.1) _) fun states => Spec.bind (pass_spec fun c h => hP c h.1.1) fun _ => Spec.ret fun w h => ?_
  obtain ⟨⟨hp, rfl⟩, hscan⟩ := h
  exact ⟨hp, scanCells_reads hscan⟩

end Steps

omit [DecidableEq F] in
theorem grantOf_ok {reg : Registry F} {request : Request} {g : Grant} (h : grantOf reg request = .ok g) : g ∈ reg.grants := by
  unfold grantOf at h
  split at h
  · next g' hfind =>
    split at h
    · cases h
      exact List.mem_of_find?_eq_some hfind
    · cases h
  · cases h

omit [DecidableEq F] in
theorem stateOf_some {states : List (Grant × State F)} {g : Grant} {s : State F} (hs : Scanned env.reg c.cells states) (hg : g ∈ env.reg.grants)
    (h : stateOf states g.id = some s) : (c.cells g.id).torn = false ∧ s.Reads (c.cells g.id).records := by
  obtain ⟨⟨g', s'⟩, hfind, rfl⟩ := Option.map_eq_some_iff.mp h
  have hin := List.mem_of_find?_eq_some hfind
  have hid : g'.id = g.id := by simpa using List.find?_some hfind
  have hsame := grant_eq (scanned_grant hs hin) hg hid
  rw [← hsame]
  exact hs.reads g' s' hin

/-- A call that has appended its intent. -/
structure Begun (env : Env F) (c₀ : Core F) (g : Grant) (reserved : Int) (c : Core F) : Prop where
  sound : Sound env c
  admissible : Admissible env c₀ g reserved
  grew : c.intents = c₀.intents ++ [g.id]
  intent : ∃ i, i.reservedNs = reserved ∧ .intent i ∈ (c.cells g.id).records

/-- What any call leaves of a sound journal. -/
def After (env : Env F) (c₀ c : Core F) : Prop :=
  Sound env c ∧ (c.intents = c₀.intents ∨ ∃ g ∈ env.reg.grants, ∃ reserved, Begun env c₀ g reserved c)

omit [DecidableEq F] in
theorem After.same (h : Sound env c₀) : After env c₀ c₀ := ⟨h, .inl rfl⟩

section Handling

variable {g : Grant} {reserved : Int} {i : Nat}

omit [DecidableEq F] in
theorem Begun.after (h : Begun env c₀ g reserved c) (hg : g ∈ env.reg.grants) : After env c₀ c := ⟨h.sound, .inr ⟨g, hg, reserved, h⟩⟩

omit [DecidableEq F] in
theorem Begun.mem (h : Begun env c₀ g reserved c) : g.id ∈ c.intents := by
  rw [h.grew]
  exact List.mem_append_right _ (List.mem_singleton.mpr rfl)

omit [DecidableEq F] in
theorem Begun.tear (h : Begun env c₀ g reserved c) : Begun env c₀ g reserved (c.setCell g.id (Cell.tear (c.cells g.id))) where
  sound := h.sound.tear g.id
  admissible := h.admissible
  grew := h.grew
  intent := by
    rw [setCell_self]
    exact h.intent

omit [DecidableEq F] in
theorem Begun.append (h : Begun env c₀ g reserved c) {r : Record F} (hr : isIntent r = false) (hwf : ∀ v n, r = .result v n → v.WF) :
    Begun env c₀ g reserved (c.append g.id r) where
  sound := h.sound.append hr h.mem hwf
  admissible := h.admissible
  grew := by
    rw [← h.grew]
    simp [Core.append, hr]
  intent := by
    obtain ⟨i, hi, hin⟩ := h.intent
    refine ⟨i, hi, ?_⟩
    rw [append_cell]
    rcases append_records_cases (c.cells g.id) r with hs | hs <;> rw [hs]
    · exact hin
    · exact List.mem_append_left _ hin

omit [DecidableEq F] in
theorem Begun.durable (h : Begun env c₀ g reserved c) (r : Record F) : Begun env c₀ g reserved (c.durable g.id r) where
  sound := h.sound.synced g.id r
  admissible := h.admissible
  grew := h.grew
  intent := by
    rw [durable_records]
    exact h.intent

omit [DecidableEq F] in
/-- A later record of the call. -/
theorem later_spec {r : Record F} (hr : isIntent r = false) (hwf : ∀ v n, r = .result v n → v.WF) :
    Spec (Holds (Begun env c₀ g reserved)) (append env i g.id r) (fun _ => Holds (Begun env c₀ g reserved)) (fun _ => Holds (Begun env c₀ g reserved)) :=
  append_spec (fun _ h => h) (fun _ h => h.tear) (fun _ h => h.append hr hwf) fun _ h => (h.append hr hwf).durable r

omit [DecidableEq F] in
theorem report_spec (reports : List (Value F × Bool)) :
    Spec (Holds (Begun env c₀ g reserved)) (report env i g reports) (fun _ => Holds (Begun env c₀ g reserved)) (fun _ => Holds (Begun env c₀ g reserved)) := by
  induction reports with
  | nil => exact Spec.ret fun _ h => h
  | cons entry rest ih =>
    obtain ⟨value, goesOn⟩ := entry
    refine Spec.bind (Spec.handle (T := fun _ => Holds (Begun env c₀ g reserved)) ?_ fun fault => ?_) fun _ => ih
    · refine Spec.bind (now_spec (fun _ h => h) i _) fun _ => Spec.bind (Q := fun _ => Holds (Begun env c₀ g reserved)) (Spec.read fun _ h => h) fun _ => ?_
      refine Spec.bind (require_spec (fun _ h => h) _ _) fun _ => Spec.bind (Q := fun _ => Holds (Begun env c₀ g reserved))
        ((lift_spec (fun _ h => h) _).weaken (fun _ h => h) (fun _ _ h => h.1) fun _ _ h => h) fun _ => ?_
      refine Spec.bind (later_spec rfl (by simp)) fun _ => Spec.bind (Q := fun _ => Holds (Begun env c₀ g reserved)) (Spec.update fun _ h => h) fun _ => ?_
      exact Spec.bind (now_spec (fun _ h => h) i _) fun _ => Spec.ret fun _ h => h
    · cases goesOn with
      | true => exact Spec.ret fun _ h => h
      | false => exact Spec.raise fun _ h => h

/-- A call whose intent is durable, before its query is dispatched. -/
structure Ready (env : Env F) (c₀ : Core F) (g : Grant) (reserved : Int) (c : Core F) : Prop extends Begun env c₀ g reserved c where
  synced : 0 < (c.cells g.id).synced
  durable : ∃ i, .durable g.id (.intent i) ∈ c.trace
  fresh : .dispatched g.id ∉ c.trace

omit [DecidableEq F] in
theorem dispatch_spec : Spec (Holds (Ready env c₀ g reserved)) (dispatch env i g) (fun _ => Holds (Begun env c₀ g reserved))
    (fun _ => Holds (Begun env c₀ g reserved)) := by
  refine Spec.bind question_spec fun n => Spec.bind (change_spec (Q := Begun env c₀ g reserved) fun c h => ?_) fun _ =>
    Spec.bind (report_spec _) fun _ => (lift_spec (fun _ h => h) _).weaken (fun _ h => h) (fun _ _ h => h.1) fun _ _ h => h
  exact ⟨h.sound.dispatched h.synced h.durable h.fresh, h.admissible, h.grew, h.intent⟩

omit [DecidableEq F] in
theorem decodeReceipt_wf {raw : Bytes} {now : Int} {receipt : Receipt F} (h : decodeReceipt env.reg raw g now = .ok receipt) : receipt.facts.WF := by
  simp only [decodeReceipt, bind_ok, exists_unit] at h
  obtain ⟨value, hload, -, wire, -, h⟩ := h
  cases h
  simp only [load, bind_ok, require_ok, exists_unit] at hload
  obtain ⟨-, hload⟩ := hload
  split at hload
  · cases hload
  · next value' hvalue =>
    simp only [bind_ok, exists_unit] at hload
    obtain ⟨-, hload⟩ := hload
    cases hload
    obtain ⟨text, -, htext⟩ := Option.bind_eq_some_iff.mp hvalue
    exact loads_wf _ htext

/-- The first request of a cell. -/
theorem first_spec (hsound : Sound env c₀) (hg : g ∈ env.reg.grants) {states : List (Grant × State F)} (hs : Scanned env.reg c₀.cells states)
    {state : State F} (hstate : stateOf states g.id = some state) (hready : state.status = .ready) (peer : Value F) :
    Spec (Holds (· = c₀)) (first env i g states peer reserved) (fun _ => Holds (After env c₀)) (fun _ => Holds (After env c₀)) := by
  obtain ⟨htorn, hreads⟩ := stateOf_some hs hg hstate
  have hnew := hreads.ready.mp hready
  have hout : g.id ∉ c₀.intents := fun hin => (hsound.mem g.id).mp hin hnew
  have hsame (c : Core F) (h : c = c₀) : After env c₀ c := by
    rw [h]
    exact .same hsound
  refine Spec.bind (service_spec hsame i) fun s => Spec.bind (lift_spec hsame _) fun _ => ?_
  let intent : Intent F := ⟨env.reg.requestDigest g.request, peer, reserved⟩
  have hbegun (hok : admitNew env.reg.capacity s.closureVersion g states reserved = .ok ()) :
      Begun env c₀ g reserved (c₀.append g.id (.intent intent)) := by
    obtain ⟨hadmissible, hshares, hsums⟩ := admitNew_ok hs hsound hg hok
    obtain ⟨hsound', hgrew⟩ := hsound.admits hg hnew htorn hshares hsums intent
    refine ⟨hsound', hadmissible, hgrew, intent, rfl, ?_⟩
    rw [append_cell, append_records htorn]
    exact List.mem_append_right _ (List.mem_singleton.mpr rfl)
  refine Spec.bind (append_spec (Q := Ready env c₀ g reserved) (fun c h => hsame c h.1) (fun c h => ?_) (fun c h => ?_) fun c h => ?_) fun _ => ?_
  · rw [h.1]
    exact ⟨hsound.tear g.id, .inl rfl⟩
  · rw [h.1]
    exact (hbegun h.2).after hg
  · rw [h.1]
    have hdone := (hbegun h.2).durable (.intent intent)
    refine ⟨hdone, ?_, ⟨intent, List.mem_append_right _ (List.mem_singleton.mpr rfl)⟩, fun hin => ?_⟩
    · rw [durable_cell]
      show 0 < ((c₀.append g.id (.intent intent)).cells g.id).records.length
      rw [append_cell, append_records htorn, List.length_append]
      simp
    · have hold := (List.mem_append.mp hin).resolve_right (by simp)
      exact hout (hsound.kept_mem hold)
  · have hready (c : Core F) (h : Ready env c₀ g reserved c) : After env c₀ c := h.toBegun.after hg
    have hafter (c : Core F) (h : Begun env c₀ g reserved c) : After env c₀ c := h.after hg
    refine Spec.bind (now_spec hready i _) fun _ => Spec.bind (now_spec hready i _) fun _ => Spec.bind (require_spec hready _ _) fun _ => ?_
    refine Spec.bind (Q := fun _ => Holds (Ready env c₀ g reserved)) (Spec.update fun _ h => h) fun _ => ?_
    refine Spec.bind (dispatch_spec.weaken (fun _ h => h) (fun _ _ h => h) fun _ w h => hafter _ h) fun response => ?_
    refine Spec.bind (now_spec hafter i _) fun received => Spec.bind (lift_spec hafter _) fun receipt => ?_
    refine Spec.bind (Q := fun _ => Holds fun c => Begun env c₀ g reserved c ∧ receipt.facts.WF) (Spec.read fun w h => ⟨h.1, decodeReceipt_wf h.2⟩) fun _ => ?_
    refine Spec.bind (require_spec (fun c h => hafter c h.1) _ _) fun _ => Spec.bind (lift_spec (fun c h => hafter c h.1) _) fun _ => ?_
    refine Spec.bind (append_spec (Q := Begun env c₀ g reserved) (fun c h => hafter c h.1.1) (fun c h => hafter _ h.1.1.tear) (fun c h => hafter _ ?_)
      fun c h => Begun.durable ?_ _) fun _ => Spec.bind (now_spec hafter i _) fun _ => Spec.ret fun w h => hafter _ h
    · refine h.1.1.append rfl fun v n he => ?_
      cases he
      exact h.1.2
    · refine h.1.1.append rfl fun v n he => ?_
      cases he
      exact h.1.2

/-- What a repeated request gives: nothing where no receipt is recorded, and otherwise that receipt. -/
def Recorded (env : Env F) (c : Core F) (g : Grant) (outcome : Outcome F) : Prop :=
  (outcome = ⟨"UNKNOWN", none, false⟩ ∧ ∀ v n, .result v n ∉ (c.cells g.id).records) ∨
    ∃ v n, .result v n ∈ (c.cells g.id).records ∧ outcome = ⟨receiptStatus v, some (wire env.reg.fl v), false⟩

omit [DecidableEq F] in
theorem decodeRecorded_ok {v : Value F} {now : Int} {receipt : Receipt F} (hwf : v.WF) (h : decodeRecorded env.reg v g now = .ok receipt) :
    receipt.facts = v ∧ receipt.wire = wire env.reg.fl v := by
  simp only [decodeRecorded, decodeReceipt, bind_ok, exists_unit] at h
  obtain ⟨raw, hraw, value, hload, -, wire', hwire, h⟩ := h
  cases h
  obtain ⟨hints, rfl, -⟩ := canonical_ok hraw
  cases load_wire_eq hwf hints hload
  exact ⟨rfl, (canonical_ok hwire).2.1⟩

theorem repeated_spec (hsound : Sound env c₀) (hg : g ∈ env.reg.grants) {states : List (Grant × State F)} (hs : Scanned env.reg c₀.cells states)
    {state : State F} (hstate : stateOf states g.id = some state) (peer : Value F) :
    Spec (Holds (· = c₀)) (repeated env g state peer reserved) (fun outcome => Holds fun c => c = c₀ ∧ Recorded env c₀ g outcome)
      (fun _ => Holds (· = c₀)) := by
  obtain ⟨-, hreads⟩ := stateOf_some hs hg hstate
  unfold repeated
  split
  · exact raise_spec (fun _ h => h) _
  · next intent _ =>
    refine Spec.bind (require_spec (fun _ h => h) _ _) fun _ => ?_
    split
    · next hnone =>
      refine Spec.ret fun w h => ⟨h, .inl ⟨rfl, fun v n hin => ?_⟩⟩
      rw [(hreads.result v n).mpr hin] at hnone
      cases hnone
    · next item received hsome =>
      have hin := (hreads.result item received).mp hsome
      refine Spec.bind (lift_spec (fun _ h => h) _) fun receipt => Spec.ret fun w h => ⟨h.1, .inr ⟨item, received, hin, ?_⟩⟩
      obtain ⟨hfacts, hwire⟩ := decodeRecorded_ok (hsound.wellFormed _ _ _ hin) h.2
      rw [hfacts, hwire]

/-- What every request passes before its cell tells whether it is the first. -/
theorem handle_rule {Q : Outcome F → Core F → Prop} {E : Core F → Prop} (hE : E c₀) (raw : Bytes) (peer expected : Value F)
    (hbranch : ∀ request g states state now, env.decodeRequest raw = .ok request → grantOf env.reg request = .ok g →
      Scanned env.reg c₀.cells states → stateOf states g.id = some state →
      Spec (Holds (· = c₀)) (if state.status ≠ .ready then repeated env g state peer now else first env i g states peer now)
        (fun outcome => Holds (Q outcome)) (fun _ => Holds E)) :
    Spec (Holds (· = c₀)) (handle env i raw peer expected) (fun outcome => Holds (Q outcome)) (fun _ => Holds E) := by
  have hsame (c : Core F) (h : c = c₀) : E c := by
    rw [h]
    exact hE
  refine Spec.bind (lift_spec hsame _) fun request => Spec.bind (lift_spec (fun c h => hsame c h.1) _) fun g => ?_
  intro w hw
  obtain ⟨⟨hcore, hdecode⟩, hgrant⟩ := hw
  revert w hcore
  show Spec (Holds (· = c₀)) _ _ _
  refine Spec.bind (Q := fun _ => Holds (· = c₀)) ((lift_spec hsame _).weaken (fun _ h => h) (fun _ _ h => h.1) fun _ _ h => h) fun _ => ?_
  refine Spec.bind (Q := fun _ => Holds (· = c₀)) ((lift_spec hsame _).weaken (fun _ h => h) (fun _ _ h => h.1) fun _ _ h => h) fun _ => ?_
  refine Spec.bind (require_spec hsame _ _) fun _ => Spec.bind (now_spec hsame i _) fun _ => Spec.bind (locked_spec hsame i) fun _ => ?_
  refine Spec.bind (scan_spec hsame) fun states => Spec.bind (now_spec (fun c h => hsame c h.1) i _) fun now => ?_
  cases hstate : stateOf states g.id with
  | none => exact raise_spec (fun c h => hsame c h.1) _
  | some state =>
    intro w hw
    obtain ⟨hcore, hscan⟩ := hw
    rw [hcore] at hscan
    exact hbranch request g states state now hdecode hgrant hscan hstate w hcore

theorem handle_spec (hsound : Sound env c₀) (raw : Bytes) (peer expected : Value F) :
    Spec (Holds (· = c₀)) (handle env i raw peer expected) (fun _ => Holds (After env c₀)) (fun _ => Holds (After env c₀)) := by
  refine handle_rule (.same hsound) raw peer expected fun request g states state now _ hgrant hs hstate => ?_
  have hsame (c : Core F) (h : c = c₀) : After env c₀ c := by
    rw [h]
    exact .same hsound
  split
  · exact (repeated_spec hsound (grantOf_ok hgrant) hs hstate peer).weaken (fun _ h => h) (fun _ w h => hsame _ h.1) fun _ w h => hsame _ h
  · next hready => exact first_spec hsound (grantOf_ok hgrant) hs hstate (by simpa using hready) peer

/-- A request whose cell has its intent. -/
theorem handle_again_spec (hsound : Sound env c₀) {raw : Bytes} {request : Request} (hrequest : env.decodeRequest raw = .ok request)
    (hgrant : grantOf env.reg request = .ok g) (hin : g.id ∈ c₀.intents) (peer expected : Value F) :
    Spec (Holds (· = c₀)) (handle env i raw peer expected) (fun outcome => Holds fun c => c = c₀ ∧ Recorded env c₀ g outcome)
      (fun _ => Holds (· = c₀)) := by
  refine handle_rule (E := (· = c₀)) rfl raw peer expected fun request' g' states state now hrequest' hgrant' hs hstate => ?_
  rw [hrequest] at hrequest'
  cases hrequest'
  rw [hgrant] at hgrant'
  cases hgrant'
  have hready : state.status ≠ .ready := fun hr => (hsound.mem _).mp hin ((stateOf_some hs (grantOf_ok hgrant) hstate).2.ready.mp hr)
  rw [if_pos hready]
  exact repeated_spec hsound (grantOf_ok hgrant) hs hstate peer

theorem closePhase_spec (hsound : Sound env c₀) (request : Request) (fence : Value F) :
    Spec (Holds (· = c₀)) (closePhase env i request fence) (fun _ => Holds (After env c₀)) (fun _ => Holds (After env c₀)) := by
  have hsame (c : Core F) (h : c = c₀) : After env c₀ c := by
    rw [h]
    exact .same hsound
  refine Spec.bind (lift_spec hsame _) fun g => ?_
  have hsame' (c : Core F) (h : c = c₀ ∧ grantOf env.reg request = .ok g) : After env c₀ c := hsame c h.1
  refine Spec.bind (now_spec hsame' i _) fun now => Spec.bind (service_spec hsame' i) fun s => Spec.bind (require_spec hsame' _ _) fun _ => ?_
  refine Spec.bind (locked_spec hsame' i) fun _ => Spec.bind (scan_spec hsame') fun states => ?_
  cases hstate : stateOf states g.id with
  | none => exact raise_spec (fun c h => hsame' c h.1) _
  | some state =>
    dsimp only
    split
    · exact (require_spec (fun c h => hsame' c h.1) _ _).weaken (fun _ h => h) (fun _ w h => hsame' _ h.1) fun _ _ h => h
    · unfold closeOpen
      split
      · next item received intent hresult _ =>
        have hpre (c : Core F) (h : (c = c₀ ∧ grantOf env.reg request = .ok g) ∧ Scanned env.reg c.cells states) : After env c₀ c := hsame' c h.1
        refine Spec.bind (require_spec hpre _ _) fun _ => Spec.bind (lift_spec hpre _) fun receipt => ?_
        refine Spec.bind (lift_spec (fun c h => hpre c h.1) _) fun _ => Spec.bind (lift_spec (fun c h => hpre c h.1.1) _) fun closedNs => ?_
        refine Spec.bind (require_spec (fun c h => hpre c h.1.1.1) _ _) fun _ => ?_
        have hclosed (c : Core F) (h : (((c = c₀ ∧ grantOf env.reg request = .ok g) ∧ Scanned env.reg c.cells states) ∧
            decodeRecorded env.reg item g received = .ok receipt) ∧ env.reg.closedFence fence g receipt.facts intent.peer = .ok () ) :
            Sound env (c.append g.id (.closed fence)) ∧ (c.append g.id (.closed fence)).intents = c₀.intents := by
          obtain ⟨⟨⟨⟨rfl, hgrant⟩, hs⟩, -⟩, -⟩ := h
          have hreads := (stateOf_some hs (grantOf_ok hgrant) hstate).2
          have hne : (c.cells g.id).records ≠ [] := List.ne_nil_of_mem ((hreads.result item received).mp hresult)
          exact ⟨hsound.append rfl ((hsound.mem _).mpr hne) (by simp), by simp [Core.append, isIntent]⟩
        refine append_spec (fun c h => hpre c h.1.1.1) (fun c h => ?_) (fun c h => ?_) fun c h => ?_
        · obtain ⟨⟨⟨⟨⟨rfl, -⟩, -⟩, -⟩, -⟩, -⟩ := h
          exact ⟨hsound.tear _, .inl rfl⟩
        · exact ⟨(hclosed c h.1).1, .inl (hclosed c h.1).2⟩
        · exact ⟨(hclosed c h.1).1.synced _ _, .inl (hclosed c h.1).2⟩
      · exact raise_spec (fun c h => hsame' c h.1) _

theorem openService_spec (hsound : Sound env c₀) (version : Nat) :
    Spec (Holds (· = c₀)) (openService env version) (fun _ => Holds (After env c₀)) (fun _ => Holds (After env c₀)) := by
  have hsame (c : Core F) (h : c = c₀) : After env c₀ c := by
    rw [h]
    exact .same hsound
  exact Spec.bind (require_spec hsame _ _) fun _ => Spec.bind (pass_spec hsame) fun _ => Spec.bind (scan_spec hsame) fun _ =>
    Spec.update fun w h => hsame _ h.1

end Handling

/-! ## Runs -/

omit [DecidableEq F] in
/-- Where a call ends, returning or raising. -/
theorem ends {σ ε α : Type} {P R : σ → Prop} {m : Prog σ ε α} (h : Spec P m (fun _ => R) (fun _ => R)) {s : σ} (hs : P s) : R (m.from s).2 := by
  have hrun := h s hs
  generalize m.from s = run at hrun
  obtain ⟨result, t⟩ := run
  cases result <;> exact hrun

theorem step_after {w : World F} (h : Sound env w.core) (label : Label F) :
    After env w.core (step env w label).core ∨ ∃ keep torn, (step env w label).core = w.core.crash keep torn := by
  cases label with
  | handle i raw peer expected => exact .inl (ends (handle_spec h raw peer expected) rfl)
  | closePhase i request fence => exact .inl (ends (closePhase_spec h request fence) rfl)
  | opens version => exact .inl (ends (openService_spec h version) rfl)
  | share i version =>
    refine .inl ?_
    show After env w.core (w.share i version).core
    unfold World.share
    split <;> exact .same h
  | crash keep torn => exact .inr ⟨keep, torn, rfl⟩

theorem step_sound {w : World F} (h : Sound env w.core) (label : Label F) : Sound env (step env w label).core := by
  rcases step_after h label with hafter | ⟨keep, torn, hcrash⟩
  · exact hafter.1
  · rw [hcrash]
    exact h.crash keep torn

omit [DecidableEq F] in
theorem provisioned_sound : Sound env (provisioned : World F).core where
  bounded _ := Nat.le_refl _
  mem := by simp [provisioned]
  nodup := List.nodup_nil
  registered := by simp [provisioned]
  started := by simp [provisioned]
  wellFormed := by simp [provisioned]
  shares := List.Pairwise.nil
  sums k := by simp [provisioned, charged]
  kept := by simp [provisioned]
  durable := by simp [provisioned]
  once := List.Pairwise.nil

theorem run_sound (labels : List (Label F)) : Sound env (Machine.exec (step env) provisioned labels).core :=
  Machine.exec_inv (I := fun w : World F => Sound env w.core) (fun _ label h => step_sound h label) provisioned_sound

/-- What holds of a world of the service. -/
structure OnceOnly (env : Env F) (w : World F) : Prop where
  dispatchedOnce : ∀ id, ¬ List.Sublist [.dispatched id, .dispatched id] w.core.trace
  dispatchedDurable : ∀ id before after, w.core.trace = before ++ .dispatched id :: after →
    (∃ i, .durable id (.intent i) ∈ before) ∧ (∃ i, (w.core.cells id).records.head? = some (.intent i)) ∧ 0 < (w.core.cells id).synced
  repeats : ∀ i raw peer expected request g, env.decodeRequest raw = .ok request → grantOf env.reg request = .ok g →
    (∃ intent, .intent intent ∈ (w.core.cells g.id).records) →
      ((handle env i raw peer expected).from w).2.core = w.core ∧
        ∀ outcome, ((handle env i raw peer expected).from w).1 = .ok outcome → Recorded env w.core g outcome
  admitted : ∀ label id, (w.core.cells id).records = [] → ((step env w label).core.cells id).records ≠ [] →
    ∃ g ∈ env.reg.grants, g.id = id ∧ ∃ intent, .intent intent ∈ ((step env w label).core.cells id).records ∧
      Admissible env w.core g intent.reservedNs
  intents : ∀ id, id ∈ w.core.intents ↔ ∃ intent, .intent intent ∈ (w.core.cells id).records
  separated : ∀ earlier ∈ env.reg.grants, ∀ later ∈ env.reg.grants, List.Sublist [earlier.id, later.id] w.core.intents →
    Separated earlier later
  charged : ∀ k, ((charged env.reg w.core).map (totals · k)).sum ≤ env.reg.capacity.management k

omit [DecidableEq F] in
theorem Sound.mem_intents (h : Sound env c) (id : String) : id ∈ c.intents ↔ ∃ intent, .intent intent ∈ (c.cells id).records := by
  rw [h.mem]
  constructor
  · intro hne
    obtain ⟨r, rest, hr⟩ := List.exists_cons_of_ne_nil hne
    obtain ⟨i, rfl⟩ := h.started id r (by rw [hr]; rfl)
    exact ⟨i, by rw [hr]; exact List.mem_cons_self⟩
  · rintro ⟨intent, hin⟩
    exact List.ne_nil_of_mem hin

theorem Sound.onceOnly {w : World F} (h : Sound env w.core) : OnceOnly env w where
  dispatchedOnce id hsub := List.pairwise_iff_forall_sublist.mp h.once hsub rfl
  dispatchedDurable id before after htrace := by
    have hin : .dispatched id ∈ w.core.trace := by rw [htrace]; simp
    refine ⟨h.durable id before after htrace, ?_, h.kept id hin⟩
    obtain ⟨r, rest, hr⟩ := List.exists_cons_of_ne_nil ((h.mem id).mp (h.kept_mem hin))
    have hhead : (w.core.cells id).records.head? = some r := by rw [hr]; rfl
    obtain ⟨i, rfl⟩ := h.started id r hhead
    exact ⟨i, hhead⟩
  repeats i raw peer expected request g hrequest hgrant hintent := by
    have hspec := handle_again_spec h hrequest hgrant ((h.mem_intents g.id).mpr hintent) (i := i) peer expected w rfl
    generalize (handle env i raw peer expected).from w = run at hspec
    obtain ⟨result, w'⟩ := run
    cases result with
    | ok outcome => exact ⟨hspec.1, fun outcome' ho => by cases ho; exact hspec.2⟩
    | error fault => exact ⟨hspec, fun outcome ho => by cases ho⟩
  admitted label id hnil hne := by
    have hold : id ∉ w.core.intents := fun hin => (h.mem id).mp hin hnil
    have hnew := ((step_sound h label).mem id).mpr hne
    rcases step_after h label with ⟨-, hsame | ⟨g, hg, reserved, hbegun⟩⟩ | ⟨keep, torn, hcrash⟩
    · exact absurd (hsame ▸ hnew) hold
    · rw [hbegun.grew] at hnew
      have hid := List.mem_singleton.mp ((List.mem_append.mp hnew).resolve_left hold)
      obtain ⟨i, hreserved, hin⟩ := hbegun.intent
      exact ⟨g, hg, hid.symm, i, hid ▸ hin, hreserved ▸ hbegun.admissible⟩
    · rw [hcrash] at hnew
      exact absurd (List.mem_filter.mp hnew).1 hold
  intents := h.mem_intents
  separated earlier hearlier later hlater hsub :=
    List.pairwise_iff_forall_sublist.mp h.shares hsub earlier hearlier later hlater rfl rfl
  charged := h.sums

/-- Every run of calls, failures, crashes and new services over one journal. -/
theorem quota_once_only (env : Env F) (labels : List (Label F)) : OnceOnly env (Machine.exec (step env) provisioned labels) :=
  (run_sound labels).onceOnly

end LocalHand.QuotaService
