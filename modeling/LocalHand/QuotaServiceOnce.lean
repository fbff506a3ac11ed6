/-
What holds of a quota journal over every run of its services: who may have an intent
beside whom, what all intents are charged for, and what a dispatch needs.
-/
import Mathlib.Data.List.Nodup
import Mathlib.Algebra.Order.BigOperators.Group.List
import LocalHand.QuotaService

namespace LocalHand.QuotaService

open PyJson QuotaContract QuotaGrant QuotaJournal Program

variable {F : Type} {env : Env F} {c : Core F}

/-! ## What holds -/

/-- What two grants with intents may have in common. -/
def Separated (earlier later : Grant) : Prop :=
  ∀ r ∈ resources earlier, r ∈ resources later → sameOperation later earlier = true ∧ sameBinding later earlier = true ∧
    (earlier.allocation.allocationId = later.allocation.allocationId ∨
      ∃ root, retained later = some root ∧ (r = inodeOf root ∨ r = domainOf root))

/-- Of the grants by these ids. -/
def Shares (reg : Registry F) (a b : String) : Prop :=
  ∀ g ∈ reg.grants, ∀ g' ∈ reg.grants, g.id = a → g'.id = b → Separated g g'

def Before : Mark F → Mark F → Prop
  | .dispatched a, .dispatched b => a ≠ b
  | _, _ => True

/-- The registered grants with an intent. -/
def charged (reg : Registry F) (c : Core F) : List Grant := reg.grants.filter fun g => !(c.cells g.id).records.isEmpty

structure Sound (env : Env F) (c : Core F) : Prop where
  bounded : ∀ id, (c.cells id).synced ≤ (c.cells id).records.length
  mem : ∀ id, id ∈ c.intents ↔ (c.cells id).records ≠ []
  nodup : c.intents.Nodup
  registered : ∀ id ∈ c.intents, ∃ g ∈ env.reg.grants, g.id = id
  started : ∀ id r, (c.cells id).records.head? = some r → ∃ i, r = .intent i
  wellFormed : ∀ id v n, .result v n ∈ (c.cells id).records → v.WF
  shares : c.intents.Pairwise (Shares env.reg)
  sums : ∀ k, ((charged env.reg c).map (totals · k)).sum ≤ env.reg.capacity.management k
  kept : ∀ id, .dispatched id ∈ c.trace → 0 < (c.cells id).synced
  durable : ∀ id before after, c.trace = before ++ .dispatched id :: after → ∃ i, .durable id (.intent i) ∈ before
  once : c.trace.Pairwise Before

theorem Sound.kept_mem (h : Sound env c) {id : String} (hd : .dispatched id ∈ c.trace) : id ∈ c.intents := by
  rw [h.mem]
  intro hnil
  have hkept := h.kept id hd
  have hbound := h.bounded id
  rw [hnil] at hbound
  simp only [List.length_nil] at hbound
  omega

/-! ## Cells -/

@[simp] theorem append_torn (cell : Cell F) (r : Record F) : (Cell.append cell r).torn = cell.torn := by
  unfold Cell.append
  split <;> rfl

@[simp] theorem append_synced (cell : Cell F) (r : Record F) : (Cell.append cell r).synced = cell.synced := by
  unfold Cell.append
  split <;> rfl

theorem append_records {cell : Cell F} (h : cell.torn = false) (r : Record F) : (Cell.append cell r).records = cell.records ++ [r] := by
  simp [Cell.append, h]

theorem append_records_cases (cell : Cell F) (r : Record F) :
    (Cell.append cell r).records = cell.records ∨ (Cell.append cell r).records = cell.records ++ [r] := by
  unfold Cell.append
  split
  · exact .inl rfl
  · exact .inr rfl

@[simp] theorem setCell_self (c : Core F) (id : String) (cell : Cell F) : (c.setCell id cell).cells id = cell := by
  simp [Core.setCell]

theorem setCell_other (c : Core F) {id id' : String} (cell : Cell F) (h : id' ≠ id) : (c.setCell id cell).cells id' = c.cells id' := by
  simp [Core.setCell, Function.update_of_ne h]

@[simp] theorem append_cell (c : Core F) (id : String) (r : Record F) : (c.append id r).cells id = Cell.append (c.cells id) r :=
  setCell_self c id _

theorem append_other (c : Core F) {id id' : String} (r : Record F) (h : id' ≠ id) : (c.append id r).cells id' = c.cells id' :=
  setCell_other c _ h

@[simp] theorem append_trace (c : Core F) (id : String) (r : Record F) : (c.append id r).trace = c.trace := rfl

@[simp] theorem durable_cell (c : Core F) (id : String) (r : Record F) : (c.durable id r).cells id = Cell.sync (c.cells id) :=
  setCell_self c id _

theorem durable_other (c : Core F) {id id' : String} (r : Record F) (h : id' ≠ id) : (c.durable id r).cells id' = c.cells id' :=
  setCell_other c _ h

@[simp] theorem durable_intents (c : Core F) (id : String) (r : Record F) : (c.durable id r).intents = c.intents := rfl

theorem durable_records (c : Core F) (id id' : String) (r : Record F) : ((c.durable id r).cells id').records = (c.cells id').records := by
  by_cases h : id' = id
  · subst h
    rw [durable_cell]
    rfl
  · rw [durable_other c r h]

/-- The same records and no less durable, the same intents and trace. -/
theorem Sound.congr {c' : Core F} (h : Sound env c) (hrecords : ∀ id, (c'.cells id).records = (c.cells id).records)
    (hsynced : ∀ id, (c.cells id).synced ≤ (c'.cells id).synced ∧ (c'.cells id).synced ≤ (c.cells id).records.length)
    (hintents : c'.intents = c.intents) (htrace : c'.trace = c.trace) : Sound env c' := by
  have hcharged : charged env.reg c' = charged env.reg c := by simp only [charged, hrecords]
  constructor
  · intro id
    rw [hrecords]
    exact (hsynced id).2
  · intro id
    rw [hintents, hrecords]
    exact h.mem id
  · rw [hintents]
    exact h.nodup
  · rw [hintents]
    exact h.registered
  · intro id r
    rw [hrecords]
    exact h.started id r
  · intro id v n
    rw [hrecords]
    exact h.wellFormed id v n
  · rw [hintents]
    exact h.shares
  · rw [hcharged]
    exact h.sums
  · intro id hd
    rw [htrace] at hd
    exact Nat.lt_of_lt_of_le (h.kept id hd) (hsynced id).1
  · rw [htrace]
    exact h.durable
  · rw [htrace]
    exact h.once

theorem Sound.tear (h : Sound env c) (id : String) : Sound env (c.setCell id (Cell.tear (c.cells id))) := by
  refine h.congr (fun id' => ?_) (fun id' => ?_) rfl rfl
  · by_cases he : id' = id
    · subst he
      simp [Cell.tear]
    · rw [setCell_other c _ he]
  · by_cases he : id' = id
    · subst he
      simp only [setCell_self, Cell.tear]
      exact ⟨Nat.le_refl _, h.bounded id'⟩
    · rw [setCell_other c _ he]
      exact ⟨Nat.le_refl _, h.bounded id'⟩

/-- A mark that is no dispatch. -/
theorem Sound.marked (h : Sound env c) {k : Mark F} (hk : ∀ id, k ≠ .dispatched id) : Sound env { c with trace := c.trace ++ [k] } := by
  refine ⟨h.bounded, h.mem, h.nodup, h.registered, h.started, h.wellFormed, h.shares, h.sums, fun id hd => ?_, fun id before after htrace => ?_, ?_⟩
  · rcases List.mem_append.mp hd with hd | hd
    · exact h.kept id hd
    · exact absurd (List.mem_singleton.mp hd).symm (hk id)
  · rcases List.eq_nil_or_concat after with rfl | ⟨after', last, rfl⟩
    · exact absurd (List.head_eq_of_cons_eq (List.append_inj' htrace rfl).2) (hk id)
    · rw [List.concat_eq_append, ← List.cons_append, ← List.append_assoc] at htrace
      exact h.durable id before after' (List.append_inj' htrace rfl).1
  · refine List.pairwise_append.mpr ⟨h.once, List.pairwise_singleton _ _, fun a _ b hb => ?_⟩
    cases List.mem_singleton.mp hb
    cases a with
    | durable => trivial
    | dispatched a =>
      cases k with
      | durable => trivial
      | dispatched b => exact absurd rfl (hk b)

theorem Sound.synced (h : Sound env c) (id : String) (r : Record F) : Sound env (c.durable id r) := by
  have hcells : Sound env (c.setCell id (Cell.sync (c.cells id))) := by
    refine h.congr (fun id' => ?_) (fun id' => ?_) rfl rfl
    · by_cases he : id' = id
      · subst he
        simp [Cell.sync]
      · rw [setCell_other c _ he]
    · by_cases he : id' = id
      · subst he
        simp only [setCell_self, Cell.sync]
        exact ⟨h.bounded id', Nat.le_refl _⟩
      · rw [setCell_other c _ he]
        exact ⟨Nat.le_refl _, h.bounded id'⟩
  exact hcells.marked (k := .durable id r) (by simp)

/-- A record of a cell that has its intent. -/
theorem Sound.append (h : Sound env c) {id : String} {r : Record F} (hr : isIntent r = false) (hid : id ∈ c.intents)
    (hwf : ∀ v n, r = .result v n → v.WF) : Sound env (c.append id r) := by
  have hrecords (id' : String) : ((c.append id r).cells id').records = (c.cells id').records ∨
      id' = id ∧ ((c.append id r).cells id').records = (c.cells id').records ++ [r] := by
    by_cases he : id' = id
    · subst he
      rw [append_cell]
      exact (append_records_cases _ r).imp id fun hs => ⟨rfl, hs⟩
    · rw [append_other c r he]
      exact .inl rfl
  have hsynced (id' : String) : ((c.append id r).cells id').synced = (c.cells id').synced := by
    by_cases he : id' = id
    · subst he
      rw [append_cell, append_synced]
    · rw [append_other c r he]
  have hintents : (c.append id r).intents = c.intents := by simp [Core.append, hr]
  have hnil (id' : String) : ((c.append id r).cells id').records = [] ↔ (c.cells id').records = [] := by
    rcases hrecords id' with hs | ⟨rfl, hs⟩
    · rw [hs]
    · rw [hs]
      have hne := (h.mem id').mp hid
      simp [hne]
  constructor
  · intro id'
    rw [hsynced]
    have hb := h.bounded id'
    rcases hrecords id' with hs | ⟨-, hs⟩ <;> rw [hs]
    · exact hb
    · rw [List.length_append]
      omega
  · intro id'
    rw [hintents, h.mem]
    exact not_congr (hnil id').symm
  · rw [hintents]
    exact h.nodup
  · rw [hintents]
    exact h.registered
  · intro id' r' hr'
    rcases hrecords id' with hs | ⟨he, hs⟩ <;> rw [hs] at hr'
    · exact h.started id' r' hr'
    · rw [List.head?_append_of_ne_nil _ ((h.mem id').mp (he ▸ hid))] at hr'
      exact h.started id' r' hr'
  · intro id' v n hin
    rcases hrecords id' with hs | ⟨-, hs⟩ <;> rw [hs] at hin
    · exact h.wellFormed id' v n hin
    · rcases List.mem_append.mp hin with hin | hin
      · exact h.wellFormed id' v n hin
      · exact hwf v n (List.mem_singleton.mp hin).symm
  · rw [hintents]
    exact h.shares
  · have hcharged : charged env.reg (c.append id r) = charged env.reg c := by
      refine List.filter_congr fun g _ => ?_
      have hg := hnil g.id
      rw [← List.isEmpty_iff, ← List.isEmpty_iff] at hg
      rw [Bool.eq_iff_iff.mpr hg]
    rw [hcharged]
    exact h.sums
  · intro id' hd
    rw [hsynced]
    exact h.kept id' hd
  · exact h.durable
  · exact h.once

/-! ## A new intent -/

theorem filter_insert_perm {α : Type} [DecidableEq α] {l : List α} {p q : α → Bool} {a : α} (ha : a ∈ l) (hn : l.Nodup)
    (hp : p a = false) (hq : ∀ b ∈ l, q b = (p b || b = a)) : (l.filter q).Perm (a :: l.filter p) := by
  induction l with
  | nil => cases ha
  | cons b rest ih =>
    obtain ⟨hb, hn⟩ := List.nodup_cons.mp hn
    by_cases hab : b = a
    · subst hab
      have hrest : rest.filter q = rest.filter p := by
        refine List.filter_congr fun b' hb' => ?_
        have hne : b' ≠ b := fun he => hb (he ▸ hb')
        simp [hq b' (List.mem_cons_of_mem _ hb'), hne]
      have hqb : q b = true := by simp [hq b List.mem_cons_self]
      rw [List.filter_cons_of_pos hqb, List.filter_cons_of_neg (by simp [hp]), hrest]
    · have hqb : q b = p b := by simp [hq b List.mem_cons_self, hab]
      have ih := ih ((List.mem_cons.mp ha).resolve_left (Ne.symm hab)) hn fun b' hb' => hq b' (List.mem_cons_of_mem _ hb')
      by_cases hpb : p b = true
      · rw [List.filter_cons_of_pos (hqb.trans hpb), List.filter_cons_of_pos hpb]
        exact (ih.cons b).trans (List.Perm.swap a b _)
      · rw [List.filter_cons_of_neg (by rwa [hqb]), List.filter_cons_of_neg hpb]
        exact ih

theorem grant_eq {g g' : Grant} (hg : g ∈ env.reg.grants) (hg' : g' ∈ env.reg.grants) (hid : g.id = g'.id) : g = g' :=
  List.inj_on_of_nodup_map env.reg.distinct hg hg' hid

/-- The intent of a cell that has no record. -/
theorem Sound.admits (h : Sound env c) {g : Grant} (hg : g ∈ env.reg.grants) (hnew : (c.cells g.id).records = [])
    (htorn : (c.cells g.id).torn = false) (hshares : ∀ a ∈ c.intents, Shares env.reg a g.id)
    (hsums : ∀ k, ((charged env.reg c ++ [g]).map (totals · k)).sum ≤ env.reg.capacity.management k) (i : Intent F) :
    Sound env (c.append g.id (.intent i)) ∧ (c.append g.id (.intent i)).intents = c.intents ++ [g.id] := by
  have hself : ((c.append g.id (.intent i)).cells g.id).records = [.intent i] := by
    rw [append_cell, append_records htorn, hnew]
    rfl
  have hother {id : String} (hne : id ≠ g.id) : (c.append g.id (.intent i)).cells id = c.cells id := append_other c _ hne
  have hintents : (c.append g.id (.intent i)).intents = c.intents ++ [g.id] := by simp [Core.append, isIntent, htorn]
  have hout : g.id ∉ c.intents := fun hin => (h.mem g.id).mp hin hnew
  have hrecords {id : String} {r : Record F} (hin : r ∈ ((c.append g.id (.intent i)).cells id).records) :
      r ∈ (c.cells id).records ∨ r = .intent i := by
    by_cases he : id = g.id
    · rw [he, hself] at hin
      exact .inr (List.mem_singleton.mp hin)
    · rw [hother he] at hin
      exact .inl hin
  refine ⟨⟨fun id => ?_, fun id => ?_, ?_, fun id hin => ?_, fun id r hr => ?_, fun id v n hin => ?_, ?_, fun k => ?_, fun id hd => ?_,
    h.durable, h.once⟩, hintents⟩
  · by_cases he : id = g.id
    · have hb := h.bounded g.id
      rw [hnew] at hb
      rw [he, hself, append_cell, append_synced]
      simp only [List.length_nil, List.length_singleton] at hb ⊢
      omega
    · rw [hother he]
      exact h.bounded id
  · rw [hintents, List.mem_append, List.mem_singleton]
    by_cases he : id = g.id
    · rw [he, hself]
      simp
    · rw [hother he, h.mem]
      simp [he]
  · rw [hintents]
    exact List.nodup_append.mpr ⟨h.nodup, List.nodup_singleton g.id, fun a ha b hb he => hout (List.mem_singleton.mp hb ▸ he ▸ ha)⟩
  · rw [hintents] at hin
    rcases List.mem_append.mp hin with hin | hin
    · exact h.registered id hin
    · exact ⟨g, hg, (List.mem_singleton.mp hin).symm⟩
  · by_cases he : id = g.id
    · rw [he, hself] at hr
      exact ⟨i, (Option.some.inj hr).symm⟩
    · rw [hother he] at hr
      exact h.started id r hr
  · exact h.wellFormed id v n ((hrecords hin).resolve_right (by simp))
  · rw [hintents]
    exact List.pairwise_append.mpr ⟨h.shares, List.pairwise_singleton _ _, fun a ha b hb => List.mem_singleton.mp hb ▸ hshares a ha⟩
  · have hperm : (charged env.reg (c.append g.id (.intent i))).Perm (g :: charged env.reg c) := by
      refine filter_insert_perm hg (List.Nodup.of_map _ env.reg.distinct) (by simp [hnew]) fun g' hg' => ?_
      by_cases he : g'.id = g.id
      · rw [grant_eq hg' hg he, hself]
        simp
      · have hne : g' ≠ g := fun heq => he (by rw [heq])
        rw [hother he]
        simp [hne]
    rw [(hperm.map _).sum_eq]
    have hsum := hsums k
    rw [List.map_append, List.sum_append] at hsum
    rw [List.map_cons, List.sum_cons]
    simp only [List.map_cons, List.map_nil, List.sum_cons, List.sum_nil] at hsum
    omega
  · by_cases he : id = g.id
    · exact absurd (h.kept_mem hd) (he ▸ hout)
    · rw [hother he]
      exact h.kept id hd

/-- A query dispatched once its intent is durable. -/
theorem Sound.dispatched (h : Sound env c) {id : String} (hsynced : 0 < (c.cells id).synced)
    (hdurable : ∃ i, .durable id (.intent i) ∈ c.trace) (hnew : .dispatched id ∉ c.trace) :
    Sound env { c with trace := c.trace ++ [.dispatched id] } := by
  refine ⟨h.bounded, h.mem, h.nodup, h.registered, h.started, h.wellFormed, h.shares, h.sums, fun id' hd => ?_, fun id' before after htrace => ?_, ?_⟩
  · rcases List.mem_append.mp hd with hd | hd
    · exact h.kept id' hd
    · cases List.mem_singleton.mp hd
      exact hsynced
  · rcases List.eq_nil_or_concat after with rfl | ⟨after', last, rfl⟩
    · obtain ⟨hbefore, hk⟩ := List.append_inj' htrace rfl
      cases List.head_eq_of_cons_eq hk
      rw [← hbefore]
      exact hdurable
    · rw [List.concat_eq_append, ← List.cons_append, ← List.append_assoc] at htrace
      exact h.durable id' before after' (List.append_inj' htrace rfl).1
  · refine List.pairwise_append.mpr ⟨h.once, List.pairwise_singleton _ _, fun a ha b hb => ?_⟩
    cases List.mem_singleton.mp hb
    cases a with
    | durable => trivial
    | dispatched a =>
      intro he
      exact hnew (he ▸ ha)

/-- A crash loses what was not durable, and no more. -/
theorem Sound.crash (h : Sound env c) (keep : String → Nat) (torn : String → Bool) : Sound env (c.crash keep torn) := by
  have hmem {id : String} {r : Record F} (hin : r ∈ ((c.crash keep torn).cells id).records) : r ∈ (c.cells id).records :=
    List.mem_of_mem_take hin
  refine ⟨fun id => Nat.le_refl _, fun id => ?_, h.nodup.filter _, fun id hin => h.registered id (List.mem_filter.mp hin).1, fun id r hr => ?_,
    fun id v n hin => h.wellFormed id v n (hmem hin), h.shares.filter _, fun k => ?_, fun id hd => ?_, h.durable, h.once⟩
  · show id ∈ c.intents.filter (fun id => !((c.crash keep torn).cells id).records.isEmpty) ↔ _
    rw [List.mem_filter, h.mem]
    simp only [Bool.not_eq_true', List.isEmpty_eq_false_iff]
    exact ⟨fun hin => hin.2, fun hne => ⟨fun hnil => hne (by show (c.cells id).records.take _ = []; rw [hnil, List.take_nil]), hne⟩⟩
  · refine h.started id r ?_
    rw [← hr]
    show (c.cells id).records.head? = ((c.cells id).records.take _).head?
    rw [List.head?_take]
    split
    · next hzero =>
      have hnil : ((c.cells id).records.take (max (c.cells id).synced (keep id))).head? = some r := hr
      rw [hzero] at hnil
      cases hnil
    · rfl
  · refine Nat.le_trans ?_ (h.sums k)
    refine List.Sublist.sum_le_sum (List.Sublist.map _ ?_) fun _ _ => Nat.zero_le _
    refine List.monotone_filter_right _ fun g hg => ?_
    simp only [Bool.not_eq_true', List.isEmpty_eq_false_iff] at hg ⊢
    intro hnil
    exact hg (by show (c.cells g.id).records.take _ = []; rw [hnil, List.take_nil])
  · show 0 < ((c.cells id).records.take _).length
    have hkept := h.kept id hd
    have hbound := h.bounded id
    rw [List.length_take]
    omega

end LocalHand.QuotaService
