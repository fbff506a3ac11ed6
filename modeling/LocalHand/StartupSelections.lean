/-
What holds of a node's descriptor, gate and admissions, and which marks keep it.
-/
import LocalHand.Startup
import LocalHand.MaintenanceBarrier

namespace LocalHand.Startup

open PyJson Program
open Maintenance (Gate GateState Io Site)

variable {F : Type} {env : Env F} {c : Core F}

/-! ## Since the last replacement -/

def Mark.isReplaced : Mark F → Bool
  | .replaced .. => true
  | _ => false

/-- The mark is there with no replacement after it. -/
def Recent (k : Mark F) (trace : List (Mark F)) : Prop :=
  ∃ before after, trace = before ++ k :: after ∧ ∀ m ∈ after, m.isReplaced = false

theorem snoc_split {α : Type} {l before after : List α} {k a : α} (h : l ++ [k] = before ++ a :: after) :
    (k = a ∧ l = before ∧ after = []) ∨ ∃ after', after = after' ++ [k] ∧ l = before ++ a :: after' := by
  rcases List.eq_nil_or_concat after with rfl | ⟨after', last, rfl⟩
  · obtain ⟨hl, hk⟩ := List.append_inj' h rfl
    exact .inl ⟨List.head_eq_of_cons_eq hk, hl, rfl⟩
  · rw [List.concat_eq_append, ← List.cons_append, ← List.append_assoc] at h
    obtain ⟨hl, hk⟩ := List.append_inj' h rfl
    exact .inr ⟨after', by rw [List.concat_eq_append, List.head_eq_of_cons_eq hk], hl⟩

theorem Recent.snoc {k k' : Mark F} {trace : List (Mark F)} (h : Recent k (trace ++ [k'])) :
    k' = k ∨ k'.isReplaced = false ∧ Recent k trace := by
  obtain ⟨before, after, htrace, hafter⟩ := h
  rcases snoc_split htrace with ⟨hk, -, -⟩ | ⟨after', hlast, hold⟩
  · exact .inl hk
  · rw [hlast] at hafter
    exact .inr ⟨hafter k' (by simp), before, after', hold, fun m hm => hafter m (List.mem_append_left _ hm)⟩

theorem Recent.mem {k : Mark F} {trace : List (Mark F)} (h : Recent k trace) : k ∈ trace := by
  obtain ⟨before, after, rfl, -⟩ := h
  simp

/-! ## What holds -/

/-- The files a crash may leave. -/
def File.states {α : Type} (f : File α) : List α := f.now :: f.unsynced

def Admission.candidate (a : Admission F) : Prop := a.selection.mode = .candidate

/-- What is true of a mark by itself. -/
structure Admission.Lawful (a : Admission F) : Prop where
  unblocked : a.selection.mode ≠ .blocked
  candidate : a.candidate → a.gate.state = .closed ∧ a.gate.owner = a.selection.owner
  opened : a.gate.state = .open → a.selection.mode = .stable ∧ a.selection.deploymentDigest = a.gate.deploymentDigest
  released : a.isPublic = true → a.selection.mode = .stable ∧ a.selection.decisionId = some a.gate.decisionId
  bound : ∀ proof, a.stage = .bound proof → loads a.selection a.component proof = true

def Mark.Lawful (env : Env F) : Mark F → Prop
  | .replaced expected previous _ named gate =>
    previous.map env.digest = expected ∧ (previous.isSome = true → gate.state = .closed ∧ gate.owner = named)
  | .admitted a => a.Lawful
  | _ => True

def Before : Mark F → Mark F → Prop
  | .left owner, .admitted a => a.candidate → a.selection.owner ≠ some owner
  | _, _ => True

/-- The claim of an instance that was admitted. -/
def ClaimedIn (a : Admission F) (d : Option Selection) : Prop :=
  ∃ s i, d = some s ∧ a.instance' = some i ∧ s.mode = .candidate ∧ s.claimed a.component = some i

structure Sound (env : Env F) (c : Core F) : Prop where
  lawful : ∀ k ∈ c.trace, k.Lawful env
  ordered : c.trace.Pairwise Before
  left : ∀ owner, .left owner ∈ c.trace → ∀ g ∈ c.gate.states, ∃ value, g = some value ∧ owner ∈ value.retiredOwners
  claimed : ∀ a, Recent (.admitted a) c.trace → a.candidate → ∀ d ∈ c.descriptor.states, ClaimedIn a d
  oneInstance : ∀ before a mid b after, c.trace = before ++ .admitted a :: (mid ++ .admitted b :: after) →
    (∀ m ∈ mid, m.isReplaced = false) → a.component = b.component → a.candidate → b.candidate → a.instance' = b.instance'
  blocked : ∀ v, Recent (.settled v) c.trace → v.mode = .blocked → c.descriptor = ⟨some v, []⟩
  blockedQuiet : ∀ before v mid a after, c.trace = before ++ .settled v :: (mid ++ .admitted a :: after) →
    v.mode = .blocked → ∃ m ∈ mid, m.isReplaced = true

/-! ## Marks -/

/-- A mark that is no admission. -/
theorem Sound.mark (h : Sound env c) {k : Mark F} (hk : ∀ a, k ≠ .admitted a) (hlawful : k.Lawful env)
    (hleft : ∀ owner, k = .left owner → ∀ g ∈ c.gate.states, ∃ value, g = some value ∧ owner ∈ value.retiredOwners)
    (hsettled : ∀ v, k = .settled v → v.mode = .blocked → c.descriptor = ⟨some v, []⟩) : Sound env (c.mark k) where
  lawful k' hk' := (List.mem_append.mp hk').elim (h.lawful k') fun he => by rw [List.mem_singleton.mp he]; exact hlawful
  ordered := by
    refine List.pairwise_append.mpr ⟨h.ordered, List.pairwise_singleton _ _, fun a _ b hb => ?_⟩
    rw [List.mem_singleton.mp hb]
    cases k with
    | admitted b => exact absurd rfl (hk b)
    | _ => cases a <;> trivial
  left owner hin := (List.mem_append.mp hin).elim (h.left owner) fun he => hleft owner (List.mem_singleton.mp he).symm
  claimed a ha hcandidate := by
    rcases ha.snoc with he | ⟨-, ha⟩
    · exact absurd he (hk a)
    · exact h.claimed a ha hcandidate
  oneInstance before a mid b after htrace hmid := by
    rw [← List.cons_append, ← List.append_assoc] at htrace
    rcases snoc_split htrace with ⟨he, -, -⟩ | ⟨after', -, htrace⟩
    · exact absurd he (hk b)
    · rw [List.append_assoc, List.cons_append] at htrace
      exact h.oneInstance before a mid b after' htrace hmid
  blocked v hv hmode := by
    rcases hv.snoc with he | ⟨-, hv⟩
    · exact hsettled v he hmode
    · exact h.blocked v hv hmode
  blockedQuiet before v mid a after htrace hmode := by
    rw [← List.cons_append, ← List.append_assoc] at htrace
    rcases snoc_split htrace with ⟨he, -, -⟩ | ⟨after', -, htrace⟩
    · exact absurd he (hk a)
    · rw [List.append_assoc, List.cons_append] at htrace
      exact h.blockedQuiet before v mid a after' htrace hmode

/-- The descriptor is not blocked by a publish that returned. -/
def Unblocked (c : Core F) : Prop := ∀ v, Recent (.settled v) c.trace → v.mode ≠ .blocked

/-- An admission under a selection that the descriptor has, with its claim. -/
theorem Sound.admitted (h : Sound env c) {a : Admission F} (hlawful : a.Lawful) (hunblocked : Unblocked c)
    (hclaim : a.candidate → ∀ d ∈ c.descriptor.states, ClaimedIn a d)
    (hleft : a.candidate → ∀ owner, .left owner ∈ c.trace → a.selection.owner ≠ some owner) : Sound env (c.mark (.admitted a)) where
  lawful k hk := (List.mem_append.mp hk).elim (h.lawful k) fun he => by rw [List.mem_singleton.mp he]; exact hlawful
  ordered := by
    refine List.pairwise_append.mpr ⟨h.ordered, List.pairwise_singleton _ _, fun k hk b hb => ?_⟩
    rw [List.mem_singleton.mp hb]
    cases k with
    | left owner => exact fun hcandidate => hleft hcandidate owner hk
    | _ => trivial
  left owner hin := h.left owner ((List.mem_append.mp hin).resolve_right (by simp))
  claimed b hb hcandidate := by
    rcases hb.snoc with he | ⟨-, hb⟩
    · cases he
      exact hclaim hcandidate
    · exact h.claimed b hb hcandidate
  oneInstance before b mid b' after htrace hmid hcomponent hb hb' := by
    rw [← List.cons_append, ← List.append_assoc] at htrace
    rcases snoc_split htrace with ⟨he, hold, -⟩ | ⟨after', -, htrace⟩
    · cases he
      have hrecent : Recent (.admitted b) c.trace := ⟨before, mid, hold, hmid⟩
      obtain ⟨s, i, hs, hi, -, hclaimed⟩ := h.claimed b hrecent hb c.descriptor.now List.mem_cons_self
      obtain ⟨s', j, hs', hj, -, hclaimed'⟩ := hclaim hb' c.descriptor.now List.mem_cons_self
      rw [hs] at hs'
      cases hs'
      rw [hcomponent, hclaimed'] at hclaimed
      rw [hi, hj, hclaimed]
    · rw [List.append_assoc, List.cons_append] at htrace
      exact h.oneInstance before b mid b' after' htrace hmid hcomponent hb hb'
  blocked v hv hmode := by
    rcases hv.snoc with he | ⟨-, hv⟩
    · cases he
    · exact h.blocked v hv hmode
  blockedQuiet before v mid b after htrace hmode := by
    rw [← List.cons_append, ← List.append_assoc] at htrace
    rcases snoc_split htrace with ⟨he, hold, -⟩ | ⟨after', -, htrace⟩
    · by_contra hnone
      simp only [not_exists, not_and, Bool.not_eq_true] at hnone
      exact hunblocked v ⟨before, mid, hold, hnone⟩ hmode
    · rw [List.append_assoc, List.cons_append] at htrace
      exact h.blockedQuiet before v mid b after' htrace hmode

/-! ## Files -/

/-- Another gate and another descriptor, the same marks. -/
theorem Sound.files (h : Sound env c) {c' : Core F} (htrace : c'.trace = c.trace)
    (hgate : ∀ owner, .left owner ∈ c.trace → ∀ g ∈ c'.gate.states, ∃ value, g = some value ∧ owner ∈ value.retiredOwners)
    (hclaimed : ∀ a, Recent (.admitted a) c.trace → a.candidate → ∀ d ∈ c'.descriptor.states, ClaimedIn a d)
    (hblocked : ∀ v, Recent (.settled v) c.trace → v.mode = .blocked → c'.descriptor = ⟨some v, []⟩) : Sound env c' := by
  constructor
  · rw [htrace]
    exact h.lawful
  · rw [htrace]
    exact h.ordered
  · rw [htrace]
    exact hgate
  · rw [htrace]
    exact hclaimed
  · rw [htrace]
    exact h.oneInstance
  · rw [htrace]
    exact hblocked
  · rw [htrace]
    exact h.blockedQuiet

theorem Sound.sync (h : Sound env c) : Sound env { c with descriptor := c.descriptor.sync } := by
  refine h.files rfl h.left (fun a ha hcandidate d hd => ?_) fun v hv hmode => ?_
  · refine h.claimed a ha hcandidate d ?_
    rw [List.mem_singleton.mp hd]
    exact List.mem_cons_self
  · rw [h.blocked v hv hmode]
    rfl

theorem crash_states {α : Type} {f : File α} {back : Option Nat} {x : α} (h : x ∈ (f.crash back).states) : x ∈ f.states := by
  rw [List.mem_singleton.mp h]
  show (back.bind (f.unsynced[·]?)).getD f.now ∈ f.states
  cases hb : back.bind (f.unsynced[·]?) with
  | none => exact List.mem_cons_self
  | some y =>
    obtain ⟨i, -, hi⟩ := Option.bind_eq_some_iff.mp hb
    exact List.mem_cons_of_mem _ (List.mem_of_getElem? hi)

theorem Sound.crash (h : Sound env c) (boot : String) (gate descriptor : Option Nat) : Sound env (c.crash boot gate descriptor) := by
  refine h.files rfl (fun owner hleft g hg => h.left owner hleft g (crash_states hg))
    (fun a ha hcandidate d hd => h.claimed a ha hcandidate d (crash_states hd)) fun v hv hmode => ?_
  show c.descriptor.crash descriptor = _
  rw [h.blocked v hv hmode]
  cases descriptor <;> rfl

theorem claimed_claim {s : Selection} {component component' : String} {i j : Instance} (hnone : s.claimed component = none)
    (h : s.claimed component' = some j) : (s.claim component i).claimed component' = some j := by
  have hne : component' ≠ component := fun he => by rw [he, hnone] at h; cases h
  obtain ⟨permit, hpermit, hlookup⟩ := Option.bind_eq_some_iff.mp h
  simp only [Selection.claimed, Selection.claim, hpermit, Option.map_some, Option.bind_some]
  rw [Finmap.lookup_insert_of_ne _ hne]
  exact hlookup

theorem claimed_self {s : Selection} {component : String} {i : Instance} (h : s.permit.isSome = true) :
    (s.claim component i).claimed component = some i := by
  obtain ⟨permit, hpermit⟩ := Option.isSome_iff_exists.mp h
  simp only [Selection.claimed, Selection.claim, hpermit, Option.map_some, Option.bind_some]
  exact Finmap.lookup_insert _

/-- A claim of the descriptor is recorded in another one. -/
theorem Sound.claim (h : Sound env c) {s : Selection} {component : String} {i : Instance} (hnow : c.descriptor.now = some s)
    (hmode : s.mode = .candidate) (hnone : s.claimed component = none) :
    Sound env { c with descriptor := c.descriptor.replace (some (s.claim component i)) } := by
  refine h.files rfl h.left (fun a ha hcandidate d hd => ?_) fun v hv hblocked => ?_
  · rcases List.mem_cons.mp hd with rfl | hd
    · obtain ⟨s', j, hs', hj, -, hclaimed⟩ := h.claimed a ha hcandidate c.descriptor.now List.mem_cons_self
      rw [hnow] at hs'
      cases hs'
      exact ⟨s.claim component i, j, rfl, hj, hmode, claimed_claim hnone hclaimed⟩
    · exact h.claimed a ha hcandidate d hd
  · have hsame := h.blocked v hv hblocked
    rw [hsame] at hnow
    cases hnow
    rw [hblocked] at hmode
    cases hmode

/-- A publish replaces the descriptor: nothing was admitted since. -/
theorem Sound.replaced (h : Sound env c) {k : Mark F} (hk : k.isReplaced = true) (hlawful : k.Lawful env) (value : Selection) :
    Sound env ({ c with descriptor := c.descriptor.replace (some value) }.mark k) := by
  have hmarked := h.mark (k := k) (by rintro a rfl; cases hk) hlawful (by rintro o rfl; cases hk) (by rintro v rfl; cases hk)
  refine hmarked.files rfl hmarked.left (fun a ha hcandidate => ?_) fun v hv hmode => ?_
  · rcases Recent.snoc ha with rfl | ⟨hno, -⟩
    · cases hk
    · rw [hk] at hno
      cases hno
  · rcases Recent.snoc hv with rfl | ⟨hno, -⟩
    · cases hk
    · rw [hk] at hno
      cases hno

end LocalHand.Startup
