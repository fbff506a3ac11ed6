/-
What the checks of a receipt mean. The calls it accepts are whole blocks, one
for each role, of which only the last may break off; the loop of `_calls` follows
a split into such blocks call by call. The map of domains that `_roots` overwrites
has one value for each domain, so its sum does not see the order of the roots.
-/
import LocalHand.QuotaReceipt
import Mathlib.Data.List.Induction
import Mathlib.Algebra.Order.BigOperators.Group.Finset

namespace LocalHand.QuotaReceipt

open PyJson ResultReader QuotaContract
open Framing (Bytes)

variable {F : Type}

/-! ## Calls -/

structure Call where
  role : String
  operation : String
  rc : Int
  errno : Int
  deriving DecidableEq, Repr

def Call.failed (c : Call) : Prop := c.rc = -1

instance (c : Call) : Decidable c.failed := inferInstanceAs (Decidable (c.rc = -1))

/-- A well-typed call record. -/
structure Reads (value : Value F) (c : Call) (fields : List (String × Value F)) : Prop where
  keys : keys value ["role", "operation", "rc", "errno"] = .ok fields
  role : item fields "role" = .str c.role
  operation : item fields "operation" = .str c.operation
  rc : integer (item fields "rc") (-1) 0 = .ok c.rc
  errno : integer (item fields "errno") 0 4095 = .ok c.errno

def IsCall (value : Value F) (c : Call) : Prop := ∃ fields, Reads value c fields

/-- The calls of a role, together. -/
structure Block (role : String) (cs : List Call) : Prop where
  nonempty : cs ≠ []
  roles : ∀ c ∈ cs, c.role = role
  operations : cs.map Call.operation <+: callOperations

def Complete (cs : List Call) : Prop := cs.map Call.operation = callOperations

/-- The calls are the blocks of distinct expected roles, all but the last
complete, and only the last call may have failed. -/
structure Splits (expected : Finset String) (blocks : List (String × List Call)) (cs : List Call) : Prop where
  calls : cs = blocks.flatMap fun b => b.2
  distinct : (blocks.map fun b => b.1).Nodup
  known : ∀ b ∈ blocks, b.1 ∈ expected
  block : ∀ b ∈ blocks, Block b.1 b.2
  complete : ∀ b ∈ blocks.dropLast, Complete b.2
  failing : ∀ c ∈ cs.dropLast, ¬ c.failed

/-- Every expected role has its block, which is complete, and no call has failed. -/
structure Observes (expected : Finset String) (blocks : List (String × List Call)) (cs : List Call) : Prop where
  covers : ∀ role ∈ expected, ∃ b ∈ blocks, b.1 = role ∧ Complete b.2
  failing : ∀ c ∈ cs, ¬ c.failed

/-- The sequences of calls a receipt may report. -/
def Grammar (expected : Finset String) (observed : Bool) (cs : List Call) : Prop :=
  ∃ blocks, Splits expected blocks cs ∧ (observed → Observes expected blocks cs)

theorem Block.length_le {role : String} {cs : List Call} (h : Block role cs) : cs.length ≤ 3 := by
  simpa [callOperations] using h.operations.length_le

theorem Block.complete_iff {role : String} {cs : List Call} (h : Block role cs) : Complete cs ↔ cs.length = 3 := by
  constructor
  · intro hc
    simpa [callOperations] using congrArg List.length hc
  · intro hlen
    exact h.operations.eq_of_length (by simp [hlen, callOperations])

/-! ### One turn -/

theorem text_ok {value : Value F} {pattern : String → Bool} {code s : String} :
    text value pattern code = .ok s ↔ value = .str s ∧ pattern s = true := by
  unfold text
  split
  · split
    · next h => simp only [Except.ok.injEq, Value.str.injEq]; exact ⟨fun e => ⟨e, e ▸ h⟩, And.left⟩
    · next h => simp only [reduceCtorEq, Value.str.injEq, false_iff]; rintro ⟨rfl, hs⟩; exact h hs
  · next h => simp only [reduceCtorEq, false_iff]; rintro ⟨rfl, -⟩; exact h _ rfl

/-- What lets a call go on, and where it leads. -/
structure Turn (expected : Finset String) (s : Progress) (c : Call) (s' : Progress) : Prop where
  known : c.role ∈ expected
  running : s.failed = false
  order : s.active = some c.role ∨ (c.role ∉ s.positions ∧ s.turned = true)
  next : callOperations[s.position c.role]? = some c.operation
  leads : s' = ⟨s.positions.insert c.role (s.position c.role + 1), some c.role, decide c.failed⟩

theorem callStep_ok {expected : Finset String} {s s' : Progress} {value : Value F} :
    callStep expected s value = .ok s' ↔ ∃ c, IsCall value c ∧ Turn expected s c s' := by
  simp only [callStep, bind_ok, require_ok, exists_unit, text_ok, pure, Except.pure, Except.ok.injEq,
    decide_eq_true_eq, Bool.not_eq_true', Bool.or_eq_true, Bool.and_eq_true]
  constructor
  · rintro ⟨fields, hkeys, role, ⟨hrole, hknown⟩, hrun, horder, operation, ⟨hop, hnext⟩, rc, hrc, errno, herrno, rfl⟩
    exact ⟨⟨role, operation, rc, errno⟩, ⟨fields, hkeys, hrole, hop, hrc, herrno⟩, hknown, hrun, horder, hnext, rfl⟩
  · rintro ⟨c, ⟨fields, hc⟩, ht⟩
    exact ⟨fields, hc.keys, c.role, ⟨hc.role, ht.known⟩, ht.running, ht.order, c.operation, ⟨hc.operation, ht.next⟩,
      c.rc, hc.rc, c.errno, hc.errno, ht.leads.symm⟩

/-! ### The loop follows the blocks -/

/-- What the loop knows of the blocks it has read. -/
structure Follows (blocks : List (String × List Call)) (cs : List Call) (s : Progress) : Prop where
  active : s.active = blocks.getLast?.map fun b => b.1
  positions : ∀ role n, s.positions.lookup role = some n ↔ ∃ b ∈ blocks, b.1 = role ∧ b.2.length = n
  failed : s.failed = true ↔ ∃ c ∈ cs, c.failed

variable {expected : Finset String} {blocks : List (String × List Call)} {cs : List Call} {c : Call} {s s' : Progress}

theorem Follows.start : Follows [] [] Progress.start where
  active := rfl
  positions role n := by simp [Progress.start]
  failed := by simp [Progress.start]

theorem Splits.nil : Splits expected [] [] where
  calls := rfl
  distinct := List.nodup_nil
  known := by simp
  block := by simp
  complete := by simp
  failing := by simp

theorem Follows.mem (hf : Follows blocks cs s) {role : String} : role ∈ s.positions ↔ role ∈ blocks.map fun b => b.1 := by
  rw [← AList.lookup_isSome, Option.isSome_iff_exists]
  simp only [hf.positions, List.mem_map]
  exact ⟨fun ⟨_, b, hb, hr, _⟩ => ⟨b, hb, hr⟩, fun ⟨b, hb, hr⟩ => ⟨_, b, hb, hr, rfl⟩⟩

theorem Follows.position_none (hf : Follows blocks cs s) {role : String} (h : role ∉ blocks.map fun b => b.1) :
    s.position role = 0 := by
  rw [← hf.mem, ← AList.lookup_eq_none] at h
  simp [Progress.position, h]

theorem Follows.position_some (hf : Follows blocks cs s) {b : String × List Call} (hb : b ∈ blocks) :
    s.position b.1 = b.2.length := by
  simp [Progress.position, (hf.positions b.1 b.2.length).mpr ⟨b, hb, rfl, rfl⟩]

/-- Before a call can follow, nothing has failed. -/
theorem running_iff (hf : Follows blocks cs s) : s.failed = false ↔ ∀ c ∈ cs, ¬ c.failed := by
  rw [← Bool.not_eq_true, hf.failed]
  simp

/-! A call opens a block or goes on in the last one. -/

theorem splits_open (hs : Splits expected blocks cs) (hknown : c.role ∈ expected)
    (hnew : c.role ∉ blocks.map fun b => b.1) (hall : ∀ b ∈ blocks, Complete b.2) (hrun : ∀ c ∈ cs, ¬ c.failed)
    (hop : c.operation = "STATE_BEFORE") : Splits expected (blocks ++ [(c.role, [c])]) (cs ++ [c]) where
  calls := by simp [← hs.calls]
  distinct := by
    rw [List.map_append, List.nodup_append]
    refine ⟨hs.distinct, by simp, fun role hrole role' hrole' => ?_⟩
    rw [List.map_singleton, List.mem_singleton] at hrole'
    rw [hrole']
    rintro rfl
    exact hnew hrole
  known b hb := by
    obtain hb | hb := List.mem_append.mp hb
    · exact hs.known b hb
    · rw [List.mem_singleton.mp hb]; exact hknown
  block b hb := by
    obtain hb | hb := List.mem_append.mp hb
    · exact hs.block b hb
    · rw [List.mem_singleton.mp hb]
      exact ⟨by simp, by simp, by simp [hop, callOperations]⟩
  complete b hb := hall b (by simpa using hb)
  failing c' hc' := hrun c' (by simpa using hc')

theorem splits_more {role : String} {own : List Call} (hs : Splits expected (blocks ++ [(role, own)]) cs)
    (hrun : ∀ c ∈ cs, ¬ c.failed) (hrole : c.role = role) (hnext : callOperations[own.length]? = some c.operation) :
    Splits expected (blocks ++ [(role, own ++ [c])]) (cs ++ [c]) where
  calls := by simp [hs.calls]
  distinct := by simpa using hs.distinct
  known b hb := by
    obtain hb | hb := List.mem_append.mp hb
    · exact hs.known b (by simp [hb])
    · rw [List.mem_singleton.mp hb]; exact hs.known (role, own) (by simp)
  block b hb := by
    obtain hb | hb := List.mem_append.mp hb
    · exact hs.block b (by simp [hb])
    · rw [List.mem_singleton.mp hb]
      have hown := hs.block (role, own) (by simp)
      refine ⟨by simp, fun c' hc' => ?_, ?_⟩
      · obtain hc' | hc' := List.mem_append.mp hc'
        · exact hown.roles c' hc'
        · rw [List.mem_singleton.mp hc']; exact hrole
      · obtain ⟨rest, hrest⟩ := hown.operations
        rw [← hrest, List.getElem?_append_right (by simp)] at hnext
        cases rest with
        | nil => simp at hnext
        | cons op rest =>
          simp only [List.length_map, Nat.sub_self, List.getElem?_cons_zero, Option.some.injEq] at hnext
          exact ⟨rest, by rw [← hrest, hnext]; simp⟩
  complete b hb := hs.complete b (by simpa using hb)
  failing c' hc' := hrun c' (by simpa using hc')

theorem splits_cut (hs : Splits expected blocks (cs ++ [c])) :
    ∃ before own, blocks = before ++ [(c.role, own ++ [c])] ∧ (∀ b ∈ before, Complete b.2) ∧ (∀ c' ∈ cs, ¬ c'.failed) ∧
      callOperations[own.length]? = some c.operation ∧
      Splits expected (if own = [] then before else before ++ [(c.role, own)]) cs := by
  obtain hnil | ⟨before, ⟨role, block⟩, rfl⟩ := List.eq_nil_or_concat blocks
  · have hcalls := hs.calls
    simp [hnil] at hcalls
  rw [List.concat_eq_append] at hs
  have hlast := hs.block (role, block) (by simp)
  obtain hnil | ⟨own, last, rfl⟩ := List.eq_nil_or_concat block
  · exact absurd hnil hlast.nonempty
  rw [List.concat_eq_append] at hs hlast
  have hcalls : cs ++ [c] = before.flatMap (fun b => b.2) ++ own ++ [last] := by
    rw [hs.calls]
    simp
  obtain ⟨hcs, hc⟩ := List.append_inj' hcalls rfl
  obtain rfl : c = last := by simpa using hc
  obtain rfl : c.role = role := hlast.roles c (by simp)
  have hdistinct : (before.map fun b => b.1).Nodup ∧ c.role ∉ before.map fun b => b.1 := by
    have h := hs.distinct
    rw [List.map_append, List.nodup_append] at h
    exact ⟨h.1, fun hm => h.2.2 _ hm _ (by simp) rfl⟩
  have hcomplete : ∀ b ∈ before, Complete b.2 := fun b hb => hs.complete b (by simpa using hb)
  have hrun : ∀ c' ∈ cs, ¬ c'.failed := fun c' hc' => hs.failing c' (by simpa using hc')
  refine ⟨before, own, by simp, hcomplete, hrun, ?_, ?_⟩
  · obtain ⟨rest, hrest⟩ := hlast.operations
    rw [← hrest]
    simp
  · by_cases hown : own = []
    · rw [if_pos hown]
      exact
        { calls := by simp [hcs, hown]
          distinct := hdistinct.1
          known := fun b hb => hs.known b (by simp [hb])
          block := fun b hb => hs.block b (by simp [hb])
          complete := fun b hb => hcomplete b (List.dropLast_subset _ hb)
          failing := fun c' hc' => hrun c' (List.dropLast_subset _ hc') }
    · rw [if_neg hown]
      exact
        { calls := by simp [hcs]
          distinct := by simpa using hs.distinct
          known := fun b hb => by
            obtain hb | hb := List.mem_append.mp hb
            · exact hs.known b (by simp [hb])
            · rw [List.mem_singleton.mp hb]; exact hs.known (c.role, own ++ [c]) (by simp)
          block := fun b hb => by
            obtain hb | hb := List.mem_append.mp hb
            · exact hs.block b (by simp [hb])
            · rw [List.mem_singleton.mp hb]
              refine ⟨hown, fun c' hc' => hlast.roles c' (by simp [hc']), ?_⟩
              exact List.IsPrefix.trans ⟨[c.operation], by simp⟩ hlast.operations
          complete := fun b hb => hcomplete b (by simpa using hb)
          failing := fun c' hc' => hrun c' (List.dropLast_subset _ hc') }

theorem follows_open (hf : Follows blocks cs s) (ht : Turn expected s c s') (hnew : c.role ∉ blocks.map fun b => b.1) :
    Follows (blocks ++ [(c.role, [c])]) (cs ++ [c]) s' := by
  rw [ht.leads, hf.position_none hnew]
  refine ⟨by simp, fun role n => ?_, ?_⟩
  · by_cases hrole : role = c.role
    · subst hrole
      simp only [AList.lookup_insert, Option.some.injEq, List.mem_append, List.mem_singleton]
      constructor
      · rintro rfl
        exact ⟨(c.role, [c]), .inr rfl, rfl, rfl⟩
      · rintro ⟨b, hb | rfl, hrole, rfl⟩
        · exact absurd (List.mem_map.mpr ⟨b, hb, hrole⟩) hnew
        · rfl
    · rw [AList.lookup_insert_ne hrole, hf.positions]
      simp [Ne.symm hrole]
  · simpa using fun c' hc' hfail => absurd hfail ((running_iff hf).mp ht.running c' hc')

theorem follows_more {own : List Call} (hf : Follows (blocks ++ [(c.role, own)]) cs s) (ht : Turn expected s c s')
    (hnew : c.role ∉ blocks.map fun b => b.1) : Follows (blocks ++ [(c.role, own ++ [c])]) (cs ++ [c]) s' := by
  have hposition : s.position c.role = own.length := hf.position_some (b := (c.role, own)) (by simp)
  rw [ht.leads, hposition]
  refine ⟨by simp, fun role n => ?_, ?_⟩
  · by_cases hrole : role = c.role
    · subst hrole
      simp only [AList.lookup_insert, Option.some.injEq, List.mem_append, List.mem_singleton]
      constructor
      · rintro rfl
        exact ⟨(c.role, own ++ [c]), .inr rfl, rfl, by simp⟩
      · rintro ⟨b, hb | rfl, hrole, rfl⟩
        · exact absurd (List.mem_map.mpr ⟨b, hb, hrole⟩) hnew
        · simp
    · rw [AList.lookup_insert_ne hrole, hf.positions]
      simp [Ne.symm hrole]
  · simpa using fun c' hc' hfail => absurd hfail ((running_iff hf).mp ht.running c' hc')

/-- All blocks are complete when the loop may leave the last one. -/
theorem all_complete (hs : Splits expected blocks cs) (hf : Follows blocks cs s) :
    s.turned = true ↔ ∀ b ∈ blocks, Complete b.2 := by
  obtain rfl | ⟨before, last, rfl⟩ := List.eq_nil_or_concat blocks
  · simp [Progress.turned, hf.active]
  rw [List.concat_eq_append] at hs hf ⊢
  have hactive : s.active = some last.1 := by simp [hf.active]
  simp only [Progress.turned, hactive, hf.position_some (b := last) (by simp), decide_eq_true_eq]
  rw [← (hs.block last (by simp)).complete_iff]
  constructor
  · intro hlast b hb
    obtain hb | hb := List.mem_append.mp hb
    · exact hs.complete b (by simpa using hb)
    · rw [List.mem_singleton.mp hb]; exact hlast
  · exact fun h => h last (by simp)

/-- One call more, read from the loop. -/
theorem turn_splits (hs : Splits expected blocks cs) (hf : Follows blocks cs s) (ht : Turn expected s c s') :
    ∃ blocks', Splits expected blocks' (cs ++ [c]) ∧ Follows blocks' (cs ++ [c]) s' := by
  have hrun := (running_iff hf).mp ht.running
  by_cases hactive : s.active = some c.role
  · obtain rfl | ⟨before, ⟨role, own⟩, rfl⟩ := List.eq_nil_or_concat blocks
    · rw [hf.active] at hactive
      cases hactive
    rw [List.concat_eq_append] at hs hf
    obtain rfl : role = c.role := by simpa [hf.active] using hactive
    have hnew : c.role ∉ before.map fun b => b.1 := by
      have h := hs.distinct
      rw [List.map_append, List.nodup_append] at h
      exact fun hm => h.2.2 _ hm _ (by simp) rfl
    have hnext := ht.next
    rw [hf.position_some (b := (c.role, own)) (by simp)] at hnext
    exact ⟨_, splits_more hs hrun rfl hnext, follows_more hf ht hnew⟩
  · obtain h | ⟨hnew, hturned⟩ := ht.order
    · exact absurd h hactive
    rw [hf.mem] at hnew
    have hnext := ht.next
    rw [hf.position_none hnew] at hnext
    have hop : c.operation = "STATE_BEFORE" := by simpa [callOperations, eq_comm] using hnext
    exact ⟨_, splits_open hs ht.known hnew ((all_complete hs hf).mp hturned) hrun hop, follows_open hf ht hnew⟩

/-- One call more, which the loop takes. -/
theorem splits_turn (hs : Splits expected blocks (cs ++ [c])) :
    ∃ prev, Splits expected prev cs ∧
      ∀ s, Follows prev cs s → ∃ s', Turn expected s c s' ∧ Follows blocks (cs ++ [c]) s' := by
  obtain ⟨before, own, rfl, hall, hrun, hnext, hprev⟩ := splits_cut hs
  have hknown : c.role ∈ expected := hs.known (c.role, own ++ [c]) (by simp)
  have hnew : c.role ∉ before.map fun b => b.1 := by
    have h := hs.distinct
    rw [List.map_append, List.nodup_append] at h
    exact fun hm => h.2.2 _ hm _ (by simp) rfl
  refine ⟨_, hprev, fun s hf => ?_⟩
  have hidle := (running_iff hf).mpr hrun
  by_cases hown : own = []
  · subst hown
    rw [if_pos rfl] at hf hprev
    have ht : Turn expected s c ⟨s.positions.insert c.role (s.position c.role + 1), some c.role, decide c.failed⟩ :=
      ⟨hknown, hidle, .inr ⟨fun hm => hnew (hf.mem.mp hm), (all_complete hprev hf).mpr hall⟩,
        by rw [hf.position_none hnew]; exact hnext, rfl⟩
    exact ⟨_, ht, follows_open hf ht hnew⟩
  · rw [if_neg hown] at hf
    have ht : Turn expected s c ⟨s.positions.insert c.role (s.position c.role + 1), some c.role, decide c.failed⟩ :=
      ⟨hknown, hidle, .inl (by simp [hf.active]),
        by rw [hf.position_some (b := (c.role, own)) (by simp)]; exact hnext, rfl⟩
    exact ⟨_, ht, follows_more hf ht hnew⟩

/-! ### Runs of the loop -/

theorem forall₂_snoc {values : List (Value F)} (h : List.Forall₂ IsCall values (cs ++ [c])) :
    ∃ before value, values = before ++ [value] ∧ List.Forall₂ IsCall before cs ∧ IsCall value c := by
  have hlast := List.forall₂_drop_append values cs [c] h
  cases hdrop : values.drop cs.length with
  | nil => rw [hdrop] at hlast; cases hlast
  | cons value rest =>
    rw [hdrop] at hlast
    obtain ⟨hvalue, hrest⟩ := List.forall₂_cons.mp hlast
    obtain rfl := List.forall₂_nil_right_iff.mp hrest
    exact ⟨values.take cs.length, value, by rw [← hdrop, List.take_append_drop],
      List.forall₂_take_append values cs [c] h, hvalue⟩

theorem run_splits {values : List (Value F)} (h : values.foldlM (callStep expected) Progress.start = .ok s) :
    ∃ cs blocks, List.Forall₂ IsCall values cs ∧ Splits expected blocks cs ∧ Follows blocks cs s := by
  induction values using List.reverseRecOn generalizing s with
  | nil =>
    obtain rfl : Progress.start = s := by simpa [pure, Except.pure] using h
    exact ⟨[], [], .nil, Splits.nil, Follows.start⟩
  | append_singleton values value ih =>
    rw [List.foldlM_append, bind_ok] at h
    obtain ⟨mid, hmid, hstep⟩ := h
    obtain ⟨cs, blocks, hcs, hs, hf⟩ := ih hmid
    rw [List.foldlM_cons, bind_ok] at hstep
    obtain ⟨s', hstep, hs'⟩ := hstep
    obtain rfl : s' = s := by simpa [pure, Except.pure] using hs'
    obtain ⟨c, hc, ht⟩ := callStep_ok.mp hstep
    obtain ⟨blocks', hs', hf'⟩ := turn_splits hs hf ht
    exact ⟨cs ++ [c], blocks', List.rel_append hcs (.cons hc .nil), hs', hf'⟩

theorem splits_run {values : List (Value F)} (hcs : List.Forall₂ IsCall values cs) (hs : Splits expected blocks cs) :
    ∃ s, values.foldlM (callStep expected) Progress.start = .ok s ∧ Follows blocks cs s := by
  induction cs using List.reverseRecOn generalizing values blocks with
  | nil =>
    obtain rfl := List.forall₂_nil_right_iff.mp hcs
    obtain rfl : blocks = [] := by
      cases blocks with
      | nil => rfl
      | cons b rest =>
        have hcalls := hs.calls
        rw [List.flatMap_cons, eq_comm, List.append_eq_nil_iff] at hcalls
        exact absurd hcalls.1 (hs.block b (by simp)).nonempty
    exact ⟨Progress.start, rfl, Follows.start⟩
  | append_singleton cs c ih =>
    obtain ⟨before, value, rfl, hbefore, hvalue⟩ := forall₂_snoc hcs
    obtain ⟨prev, hprev, hturn⟩ := splits_turn hs
    obtain ⟨s, hrun, hf⟩ := ih hbefore hprev
    obtain ⟨s', ht, hf'⟩ := hturn s hf
    refine ⟨s', ?_, hf'⟩
    rw [List.foldlM_append, bind_ok]
    refine ⟨s, hrun, ?_⟩
    rw [List.foldlM_cons, callStep_ok.mpr ⟨c, hvalue, ht⟩]
    rfl

/-- What `_calls` asks at the end of an observed receipt. -/
theorem observes_iff (hs : Splits expected blocks cs) (hf : Follows blocks cs s) :
    Observes expected blocks cs ↔ s.failed = false ∧ s.positions.keys.toFinset = expected ∧
      ∀ role ∈ expected, s.positions.lookup role = some 3 := by
  have hlookup : ∀ role, s.positions.lookup role = some 3 ↔ ∃ b ∈ blocks, b.1 = role ∧ Complete b.2 := by
    intro role
    rw [hf.positions]
    exact ⟨fun ⟨b, hb, hr, hlen⟩ => ⟨b, hb, hr, (hs.block b hb).complete_iff.mpr hlen⟩,
      fun ⟨b, hb, hr, hc⟩ => ⟨b, hb, hr, (hs.block b hb).complete_iff.mp hc⟩⟩
  rw [running_iff hf]
  constructor
  · intro h
    refine ⟨h.failing, ?_, fun role hrole => (hlookup role).mpr (h.covers role hrole)⟩
    ext role
    rw [List.mem_toFinset, ← AList.mem_keys, hf.mem]
    constructor
    · intro hm
      obtain ⟨b, hb, rfl⟩ := List.mem_map.mp hm
      exact hs.known b hb
    · intro hrole
      obtain ⟨b, hb, hr, -⟩ := h.covers role hrole
      exact List.mem_map.mpr ⟨b, hb, hr⟩
  · rintro ⟨hrun, -, hall⟩
    exact ⟨fun role hrole => (hlookup role).mp (hall role hrole), hrun⟩

/-- `_calls` accepts the grammar, of at most twelve calls. -/
theorem calls_ok {values : List (Value F)} {observed : Bool} : calls (.arr values) expected observed = .ok () ↔
    values.length ≤ 12 ∧ ∃ cs, List.Forall₂ IsCall values cs ∧ Grammar expected observed cs := by
  simp only [calls, bind_ok, require_ok, exists_unit, decide_eq_true_eq, Bool.or_eq_true, Bool.not_eq_true',
    Bool.and_eq_true, and_assoc]
  refine and_congr_right fun _ => ?_
  constructor
  · rintro ⟨s, hrun, hend⟩
    obtain ⟨cs, blocks, hcs, hs, hf⟩ := run_splits hrun
    refine ⟨cs, hcs, blocks, hs, fun hobs => (observes_iff hs hf).mpr ?_⟩
    obtain h | h := hend
    · rw [hobs] at h
      cases h
    · exact h
  · rintro ⟨cs, hcs, blocks, hs, hobs⟩
    obtain ⟨s, hrun, hf⟩ := splits_run hcs hs
    refine ⟨s, hrun, ?_⟩
    cases observed with
    | false => exact .inl rfl
    | true => exact .inr ((observes_iff hs hf).mp (hobs rfl))

/-- The blocks of admitted roles are never more than twelve calls. -/
theorem Splits.length_le (hs : Splits expected blocks cs) (hroles : expected ⊆ rootRoles.toFinset) : cs.length ≤ 12 := by
  have hblocks : blocks.length ≤ 4 := by
    have hsub : (blocks.map fun b => b.1).toFinset ⊆ rootRoles.toFinset := by
      intro role hrole
      obtain ⟨b, hb, rfl⟩ := List.mem_map.mp (List.mem_toFinset.mp hrole)
      exact hroles (hs.known b hb)
    have hcard := Finset.card_le_card hsub
    rw [List.toFinset_card_of_nodup hs.distinct, List.length_map] at hcard
    exact hcard.trans (by decide)
  have hsum : (blocks.map fun b => b.2.length).sum ≤ blocks.length * 3 := by
    have h := List.sum_le_card_nsmul (blocks.map fun b => b.2.length) 3 (by
      intro n hn
      obtain ⟨b, hb, rfl⟩ := List.mem_map.mp hn
      exact (hs.block b hb).length_le)
    simpa using h
  rw [hs.calls, List.length_flatMap]
  omega

/-! ## Domains -/

/-- The roots a document lists. -/
def Lists (value : Value F) (rs : List Reported) : Prop :=
  ∃ values, value = .arr values ∧ List.Forall₂ (fun v r => root v = .ok r) values rs

def domainsOf (rs : List Reported) : Finset (String × Int) := (rs.map Reported.domain).toFinset

/-- What `_roots` has made of the roots it has read. -/
structure Collected (rs : List Reported) (seen : Seen) : Prop where
  roots : seen.roots = rs
  distinct : (rs.map fun r => r.root.role).Nodup
  domains : ∀ d h, seen.domains.lookup d = some h ↔ ∃ r ∈ rs, r.domain = d ∧ r.hardBytes = h
  positive : ∀ r ∈ rs, 0 < r.hardBytes

theorem root_positive {value : Value F} {r : Reported} (h : root value = .ok r) : 0 < r.hardBytes := by
  simp only [root, bind_ok, require_ok, exists_unit, pure, Except.pure, Except.ok.injEq] at h
  obtain ⟨_, -, _, -, _, -, _, -, _, -, _, -, _, -, _, -, _, -, -, _, -, _, -, -, hard, hhard, -, _, -, _, -, _, -, rfl⟩ := h
  unfold integer at hhard
  split at hhard
  · split at hhard
    · next hrange =>
      cases hhard
      exact hrange.1
    · cases hhard
  · cases hhard

theorem collected_step {phase : String} {rs : List Reported} {seen seen' : Seen} {value : Value F} (hc : Collected rs seen)
    (h : rootStep phase seen value = .ok seen') : ∃ r, root value = .ok r ∧ Collected (rs ++ [r]) seen' := by
  simp only [rootStep, bind_ok, require_ok, exists_unit, pure, Except.pure, Except.ok.injEq, Bool.and_eq_true,
    decide_eq_true_eq] at h
  obtain ⟨r, hr, ⟨hrole, -⟩, -, -, hdomain, rfl⟩ := h
  refine ⟨r, hr, ⟨by simp [hc.roots], ?_, fun d h => ?_, fun r' hr' => ?_⟩⟩
  · rw [List.map_append, List.nodup_append]
    refine ⟨hc.distinct, by simp, fun role hm role' hm' => ?_⟩
    obtain rfl : role' = r.root.role := by simpa using hm'
    rintro rfl
    obtain ⟨r', hr', hsame⟩ := List.mem_map.mp hm
    rw [Option.isNone_iff_eq_none, Seen.byRole, List.find?_eq_none, hc.roots] at hrole
    exact hrole r' hr' (by simpa using hsame)
  · by_cases hd : d = r.domain
    · subst hd
      simp only [AList.lookup_insert, Option.some.injEq, List.mem_append, List.mem_singleton]
      constructor
      · rintro rfl
        exact ⟨r, .inr rfl, rfl, rfl⟩
      · rintro ⟨r', hr' | rfl, hsame, rfl⟩
        · rw [(hc.domains r.domain r'.hardBytes).mpr ⟨r', hr', hsame, rfl⟩] at hdomain
          exact hdomain.symm
        · rfl
    · rw [AList.lookup_insert_ne hd, hc.domains]
      simp [Ne.symm hd]
  · obtain hr' | hr' := List.mem_append.mp hr'
    · exact hc.positive r' hr'
    · rw [List.mem_singleton.mp hr']; exact root_positive hr

theorem collected_run {phase : String} {values : List (Value F)} {seen : Seen}
    (h : values.foldlM (rootStep phase) Seen.none = .ok seen) :
    ∃ rs, List.Forall₂ (fun v r => root v = .ok r) values rs ∧ Collected rs seen := by
  induction values using List.reverseRecOn generalizing seen with
  | nil =>
    obtain rfl : Seen.none = seen := by simpa [pure, Except.pure] using h
    exact ⟨[], .nil, ⟨rfl, List.nodup_nil, by simp [Seen.none], by simp⟩⟩
  | append_singleton values value ih =>
    rw [List.foldlM_append, bind_ok] at h
    obtain ⟨mid, hmid, hstep⟩ := h
    obtain ⟨rs, hrs, hc⟩ := ih hmid
    rw [List.foldlM_cons, bind_ok] at hstep
    obtain ⟨seen', hstep, hseen⟩ := hstep
    obtain rfl : seen' = seen := by simpa [pure, Except.pure] using hseen
    obtain ⟨r, hr, hc'⟩ := collected_step hc hstep
    exact ⟨rs ++ [r], List.rel_append hrs (.cons hr .nil), hc'⟩

/-- The sum of a map's values is the sum over its keys. -/
theorem sum_entries (m : AList fun _ : String × Int => Int) :
    (m.entries.map fun e => e.2).sum = ∑ d ∈ m.keys.toFinset, (m.lookup d).getD 0 := by
  rw [List.sum_toFinset _ m.keys_nodup, AList.keys, List.keys, List.map_map]
  refine congrArg List.sum (List.map_congr_left fun e he => ?_)
  have hlookup : m.lookup e.1 = some e.2 := AList.mem_lookup_iff.mpr he
  rw [Function.comp_apply, hlookup, Option.getD_some]

/-- **The sum of the domains.** It takes the hard limit of each distinct domain once. -/
theorem roots_ok {value : Value F} {phase : String} {complete : Bool} {seen : Seen} {total : Int}
    (h : roots value phase complete = .ok (seen, total)) : ∃ rs, Lists value rs ∧ Collected rs seen ∧
      ∀ hard : String × Int → Int, (∀ r ∈ rs, hard r.domain = r.hardBytes) → total = ∑ d ∈ domainsOf rs, hard d := by
  unfold roots at h
  split at h
  · next values =>
    simp only [bind_ok, require_ok, exists_unit, pure, Except.pure, Except.ok.injEq, Prod.mk.injEq] at h
    obtain ⟨-, seen', hrun, -, total', htotal, rfl, rfl⟩ := h
    obtain ⟨rs, hrs, hc⟩ := collected_run hrun
    refine ⟨rs, ⟨values, rfl, hrs⟩, hc, fun hard hhard => ?_⟩
    have hsum : total' = (seen'.domains.entries.map fun e => e.2).sum := by
      unfold integer at htotal
      dsimp only at htotal
      split at htotal
      · exact (Except.ok.inj htotal).symm
      · cases htotal
    have hkeys : seen'.domains.keys.toFinset = domainsOf rs := by
      ext d
      rw [List.mem_toFinset, ← AList.mem_keys, ← AList.lookup_isSome, Option.isSome_iff_exists, domainsOf,
        List.mem_toFinset, List.mem_map]
      simp only [hc.domains]
      constructor
      · rintro ⟨_, r, hr, hd, -⟩
        exact ⟨r, hr, hd⟩
      · rintro ⟨r, hr, hd⟩
        exact ⟨_, r, hr, hd, rfl⟩
    rw [hsum, sum_entries, hkeys]
    refine Finset.sum_congr rfl fun d hd => ?_
    obtain ⟨r, hr, rfl⟩ := List.mem_map.mp (List.mem_toFinset.mp hd)
    rw [(hc.domains r.domain r.hardBytes).mpr ⟨r, hr, rfl, rfl⟩, Option.getD_some, hhard r hr]
  · cases h

theorem Collected.byRole {rs : List Reported} {seen : Seen} (hc : Collected rs seen) {role : String} {r : Reported}
    (h : seen.byRole role = some r) : r ∈ rs ∧ r.root.role = role := by
  rw [Seen.byRole, hc.roots] at h
  exact ⟨List.mem_of_find?_eq_some h, by simpa using List.find?_some h⟩

/-- The hard limits of a validated declaration, domain by domain. -/
theorem Collected.hard {rs : List Reported} {seen : Seen} (hc : Collected rs seen) {r : Reported} (hr : r ∈ rs) :
    (seen.domains.lookup r.domain).getD 0 = r.hardBytes := by
  rw [(hc.domains r.domain r.hardBytes).mpr ⟨r, hr, rfl, rfl⟩, Option.getD_some]

theorem bound_root {observed : Bool} {rs : List Reported} {seen : Seen} (hc : Collected rs seen) {r : Reported}
    (h : bound observed seen r = true) : ∃ e ∈ rs, e.root = r.root := by
  unfold bound at h
  split at h
  · cases h
  · next e he =>
    refine ⟨e, (hc.byRole he).1, ?_⟩
    cases observed with
    | false => exact (by simpa using h : r.root = e.root).symm
    | true => rw [(by simpa using h : r = e)]

variable {fl : FloatText F}

theorem validateExpectedRoots_ok {declared : Value F} {phase : String} {value : Value F} (hw : declared.WF)
    (h : validateExpectedRoots fl declared phase = .ok value) : value = declared := by
  simp only [validateExpectedRoots, bind_ok, require_ok, exists_unit] at h
  obtain ⟨-, _, -, -, raw, hraw, hload⟩ := h
  obtain ⟨hi, rfl, -⟩ := canonical_ok hraw
  exact load_wire_eq hw hi hload

theorem domain_eq {r e : Reported} (h : e.root = r.root) : e.domain = r.domain := by
  rw [Reported.domain, Reported.domain, h]

theorem hardBytes_eq {r e : Reported} (h : e.root = r.root) : e.hardBytes = r.hardBytes := by
  rw [Reported.hardBytes, Reported.hardBytes, h]

/-- The sum does not see the order of the roots. -/
theorem domainsOf_perm {rs rs' : List Reported} (h : rs.Perm rs') : domainsOf rs = domainsOf rs' :=
  List.toFinset_eq_of_perm _ _ (h.map _)

/-- What a decoded receipt says of its domains. -/
structure Sums (reported declared : List Reported) (observed : Prop) (total : Int) (hard : String × Int → Int) : Prop where
  ofReported : ∀ r ∈ reported, hard r.domain = r.hardBytes
  ofDeclared : ∀ r ∈ declared, hard r.domain = r.hardBytes
  sum : ∀ rs : List Reported, rs.Perm reported → total = ∑ d ∈ domainsOf rs, hard d
  whenObserved : observed → total = ∑ d ∈ domainsOf declared, hard d
  bounded : total ≤ ∑ d ∈ domainsOf declared, hard d

theorem sums_bound {reported declared : List Reported} {seen got : Seen} {o : Bool} {total : Int}
    (hseen : Collected declared seen) (hgot : Collected reported got)
    (htotal : ∀ hard : String × Int → Int, (∀ r ∈ reported, hard r.domain = r.hardBytes) →
      total = ∑ d ∈ domainsOf reported, hard d)
    (hnames : o = true → got.names = seen.names) (hbound : ∀ r ∈ reported, bound o seen r = true) :
    Sums reported declared (o = true) total fun d => (seen.domains.lookup d).getD 0 := by
  have hof : ∀ r ∈ reported, ∃ e ∈ declared, e.root = r.root := fun r hr => bound_root hseen (hbound r hr)
  have hreported : ∀ r ∈ reported, (seen.domains.lookup r.domain).getD 0 = r.hardBytes := by
    intro r hr
    obtain ⟨e, he, hroot⟩ := hof r hr
    rw [← domain_eq hroot, hseen.hard he, hardBytes_eq hroot]
  have hsub : domainsOf reported ⊆ domainsOf declared := by
    intro d hd
    obtain ⟨r, hr, rfl⟩ := List.mem_map.mp (List.mem_toFinset.mp hd)
    obtain ⟨e, he, hroot⟩ := hof r hr
    exact List.mem_toFinset.mpr (List.mem_map.mpr ⟨e, he, domain_eq hroot⟩)
  have htotal' := htotal (fun d => (seen.domains.lookup d).getD 0) hreported
  refine ⟨hreported, fun r hr => hseen.hard hr, fun rs hrs => by rw [domainsOf_perm hrs, htotal'], fun hobs => ?_, ?_⟩
  · rw [htotal']
    refine congrArg (fun s => ∑ d ∈ s, (seen.domains.lookup d).getD 0) (Finset.Subset.antisymm hsub fun d hd => ?_)
    obtain ⟨e, he, rfl⟩ := List.mem_map.mp (List.mem_toFinset.mp hd)
    have hmem : e.root.role ∈ got.names := by
      rw [hnames hobs, Seen.names, List.mem_toFinset, hseen.roots]
      exact List.mem_map_of_mem (f := fun r => r.root.role) he
    rw [Seen.names, List.mem_toFinset, hgot.roots] at hmem
    obtain ⟨r, hr, hrole⟩ := List.mem_map.mp hmem
    obtain ⟨e', he', hroot⟩ := hof r hr
    obtain rfl : e' = e := by
      refine List.inj_on_of_nodup_map hseen.distinct he' he ?_
      rw [← hrole, hroot]
    exact List.mem_toFinset.mpr (List.mem_map.mpr ⟨r, hr, (domain_eq hroot).symm⟩)
  · rw [htotal']
    refine Finset.sum_le_sum_of_subset_of_nonneg hsub fun d hd _ => ?_
    obtain ⟨e, he, rfl⟩ := List.mem_map.mp (List.mem_toFinset.mp hd)
    rw [hseen.hard he]
    exact (hseen.positive e he).le

theorem decodeReceipt_sums {sha256 : Bytes → String} {raw : Bytes} {request : Request} {expected : Value F} {now : Int}
    {receipt : Receipt} (hw : expected.WF) (h : decodeReceipt fl sha256 raw request expected now = .ok receipt) :
    ∃ fields status reported declared hard, load fl raw responseLimit 6 = .ok (.obj fields) ∧
      item fields "status" = .str status ∧ Lists (item fields "roots") reported ∧ Lists expected declared ∧
      Sums reported declared (status = "OBSERVED") receipt.domainHardBytes hard := by
  simp only [decodeReceipt, bind_ok, require_ok, exists_unit, text_ok, pure, Except.pure, Except.ok.injEq, Prod.exists,
    Bool.and_eq_true, decide_eq_true_eq, Bool.or_eq_true, Bool.not_eq_true', decide_eq_false_iff_not,
    List.all_eq_true] at h
  obtain ⟨-, -, _, -, _, -, phase, -, _, -, expected', hexpected, seen, _, hseen, value, hload, fields, hkeys, _, -, _, -,
    status, ⟨hstatus, -⟩, -, _, -, _, -, -, -, -, got, sum, hgot, ⟨-, hnames⟩, hbound, -, -, _, -, rfl⟩ := h
  obtain rfl := validateExpectedRoots_ok hw hexpected
  obtain ⟨declared, hdeclared, hseen, -⟩ := roots_ok hseen
  obtain ⟨reported, hreported, hgot, hsum⟩ := roots_ok hgot
  obtain ⟨rfl, -⟩ := keys_ok hkeys
  have hsums := sums_bound (o := decide (status = "OBSERVED")) hseen hgot hsum
    (fun hobs => by
      obtain hno | hsame := hnames
      · exact absurd (of_decide_eq_true hobs) hno
      · exact hsame)
    (fun r hr => hbound r (by rw [hgot.roots]; exact hr))
  rw [decide_eq_true_eq] at hsums
  exact ⟨fields, status, reported, declared, _, hload, hstatus, hreported, hdeclared, hsums⟩

/-- A set of admitted roles. -/
def Roles := { roles : Finset String // roles ⊆ rootRoles.toFinset }

/-- **Receipts.** The calls accepted of a list of records are those of the grammar,
and the sum a decoded receipt carries is that of the distinct domains of its roots,
in any order, which is the declared sum when all was observed and never above it. -/
theorem receipt_grammar (fl : FloatText F) :
    (∀ (values : List (Value F)) (expected : Roles) (observed : Bool),
      calls (.arr values) expected.val observed = .ok () ↔
        ∃ cs, List.Forall₂ IsCall values cs ∧ Grammar expected.val observed cs) ∧
    ∀ (sha256 : Bytes → String) (raw : Bytes) (request : Request) (expected : { v : Value F // v.WF }) (now : Int)
      (receipt : Receipt), decodeReceipt fl sha256 raw request expected.val now = .ok receipt →
      ∃ fields status reported declared hard, load fl raw responseLimit 6 = .ok (.obj fields) ∧
        item fields "status" = .str status ∧ Lists (item fields "roots") reported ∧ Lists expected.val declared ∧
        Sums reported declared (status = "OBSERVED") receipt.domainHardBytes hard := by
  refine ⟨fun values expected observed => ?_, fun sha256 raw request expected now receipt h =>
    decodeReceipt_sums expected.property h⟩
  rw [calls_ok]
  refine ⟨And.right, fun ⟨cs, hcs, hg⟩ => ⟨?_, cs, hcs, hg⟩⟩
  obtain ⟨blocks, hs, -⟩ := hg
  rw [hcs.length_eq]
  exact hs.length_le expected.property

end LocalHand.QuotaReceipt
