/-
What the barrier promises over any run of calls. Everything is read off one
list of what a call can write (`Update`), so a change to one call changes one
case there; the runs are `Machine.exec` from the missing record.
-/
import LocalHand.Maintenance

namespace LocalHand.Maintenance

open PyJson Machine

variable {F : Type} {site : Site F}

/-! ## What a valid record says -/

def Gate.Holds (value : Gate F) (owner : String) : Prop :=
  value.state = .closed ∧ value.owner = some owner

theorem validate_ok {value : Gate F} (h : validate site value = .ok ()) :
    validateOwner value = .ok () ∧ validateTransition value = .ok () := by
  simp only [validate, bind_ok] at h
  obtain ⟨_, -, _, -, _, -, _, -, _, howner, _, -, _, -, _, -, htransition⟩ := h
  exact ⟨howner, htransition⟩

theorem valid_closed {value : Gate F} (h : validate site value = .ok ())
    (hstate : value.state = .closed) : ∃ owner, value.owner = some owner ∧ owner ∉ value.retiredOwners := by
  have ho := (validate_ok h).1
  unfold validateOwner at ho
  split at ho
  · cases ho
  · next owner _ howner =>
    simp only [bind_ok, require_ok, decide_eq_true_eq] at ho
    obtain ⟨_, -, hnot⟩ := ho
    exact ⟨owner, howner, hnot⟩
  · next hopen => rw [hopen] at hstate; cases hstate

theorem valid_open {value : Gate F} (h : validate site value = .ok ())
    (hstate : value.state = .open) : value.owner = none := by
  have ho := (validate_ok h).1
  unfold validateOwner at ho
  split at ho
  · cases ho
  · next hclosed _ => rw [hclosed] at hstate; cases hstate
  · simpa using ho

theorem valid_holds {value : Gate F} (h : validate site value = .ok ()) {owner : String}
    (hh : value.Holds owner) : owner ∉ value.retiredOwners := by
  obtain ⟨o, ho, hnot⟩ := valid_closed h hh.1
  rw [hh.2] at ho
  cases ho
  exact hnot

/-! ## What a call can do -/

theorem write_record {ρ : Type} (site : Site F) (io : Io) (value : Gate F) (reply : ρ)
    (record : Option (Gate F)) : (write site io value reply record).2 = record ∨
      (validate site value = .ok () ∧ (write site io value reply record).2 = some value) := by
  unfold write
  split
  · exact .inl rfl
  · next hv =>
    split
    · exact .inl rfl
    · split <;> exact .inr ⟨hv, rfl⟩

/-- A call that changes the record read a valid one and wrote a valid one. -/
theorem locked_record {ρ : Type} (site : Site F) (io : Io)
    (decide : Gate F → Except Fault (Decision F ρ)) (record : Option (Gate F)) :
    (locked site io decide record).2 = record ∨ ∃ value value' reply, record = some value ∧
      validate site value = .ok () ∧ decide value = .ok (.write value' reply) ∧
      validate site value' = .ok () ∧ (locked site io decide record).2 = some value' := by
  unfold locked
  split
  · exact .inl rfl
  · next value =>
    split
    · exact .inl rfl
    split
    · exact .inl rfl
    split
    · exact .inl rfl
    next hv =>
    split
    · exact .inl rfl
    · split <;> exact .inl rfl
    · next value' reply hd =>
      rcases write_record site io value' reply (some value) with h | ⟨hv', h⟩
      · exact .inl h
      · exact .inr ⟨value, value', reply, rfl, hv, hd, hv', h⟩

/-- A call that returns read a valid record, and what it left holds its decision. -/
theorem locked_ok {ρ : Type} {site : Site F} {io : Io}
    {decide : Gate F → Except Fault (Decision F ρ)} {record : Option (Gate F)} {reply : ρ}
    (h : (locked site io decide record).1 = .ok reply) :
    ∃ value, record = some value ∧ validate site value = .ok () ∧
      ((decide value = .ok (.confirm reply) ∧ (locked site io decide record).2 = some value) ∨
        ∃ value', decide value = .ok (.write value' reply) ∧
          (locked site io decide record).2 = some value') := by
  unfold locked at h ⊢
  split at h
  · cases h
  · next value =>
    refine ⟨value, rfl, ?_⟩
    split at h
    · cases h
    next hl =>
    split at h
    · cases h
    next hr =>
    split at h
    · cases h
    next hv =>
    refine ⟨hv, ?_⟩
    split at h
    · cases h
    · next r hd =>
      split at h
      · cases h
      · next hc =>
        cases h
        exact .inl ⟨hd, by simp [hl, hr, hc]⟩
    · next value' r hd =>
      unfold write at h
      split at h
      · cases h
      next hv' =>
      split at h
      · cases h
      next hw =>
      split at h
      · cases h
      next hp =>
      cases h
      exact .inr ⟨value', hd, by simp [hl, hr, write, hv', hw, hp]⟩

theorem checked_record {ρ : Type} (checks : Except Fault Unit) (op : Op F ρ)
    (record : Option (Gate F)) : (checked checks op record).2 = record ∨
      (checks = .ok () ∧ (checked checks op record).2 = (op record).2) := by
  unfold checked
  split
  · exact .inl rfl
  · next h => exact .inr ⟨rfl, rfl⟩

theorem checked_ok {ρ : Type} {checks : Except Fault Unit} {op : Op F ρ}
    {record : Option (Gate F)} {reply : ρ} (h : (checked checks op record).1 = .ok reply) :
    checks = .ok () ∧ checked checks op record = op record := by
  unfold checked at h ⊢
  split at h
  · cases h
  · exact ⟨rfl, rfl⟩

theorem matching_nil {value : Gate F} {attempt : Attempt} :
    matching value attempt = [] ↔
      ∀ i r, value.responsibilities.lookup i = some r → r.attempt ≠ attempt := by
  simp only [matching, List.filter_eq_nil_iff, List.mem_map, decide_eq_true_eq]
  constructor
  · intro h i r hr
    exact h r ⟨⟨i, r⟩, AList.mem_lookup_iff.mp hr, rfl⟩
  · rintro h _ ⟨⟨i, r⟩, hm, rfl⟩
    exact h i r (AList.mem_lookup_iff.mpr hm)

/-- Everything a call can write over the record it read, with the guards it passed. -/
inductive Update (site : Site F) (value : Gate F) : Call F → Gate F → Prop where
  | close {owner expected} (hstate : value.state = .open) (hfresh : owner ∉ value.retiredOwners) :
    Update site value (.close owner expected) { value with
      state := .closed, owner := some owner, sequence := value.sequence + 1,
      lastTransition := some (.close owner) }
  | release {owner decisionId deploymentDigest expected} (hstate : value.state = .closed)
      (howner : value.owner = some owner) :
    Update site value (.release owner decisionId deploymentDigest expected) { value with
      state := .open, owner := none, decisionId, deploymentDigest, sequence := value.sequence + 1,
      lastTransition := some (.release owner decisionId deploymentDigest),
      retiredOwners := value.retiredOwners ++ [owner] }
  | handoff {owner successor expected} (hne : owner ≠ successor) (hstate : value.state = .closed)
      (howner : value.owner = some owner) (hfresh : successor ∉ value.retiredOwners) :
    Update site value (.handoff owner successor expected) { value with
      owner := some successor, sequence := value.sequence + 1,
      lastTransition := some (.handoff owner successor),
      retiredOwners := value.retiredOwners ++ [owner] }
  | compatibility {owner prepared targetDeploymentDigest targetLoaded} (table) :
    Update site value (.authorizeCompatibility owner prepared targetDeploymentDigest targetLoaded)
      { value with compatibility := table }
  | accept {identity authorized kind operationId attemptId binding loaded prepared}
      (item : Responsibility F) (hid : item.id = identity)
      (hattempt : item.attempt = (kind, operationId, attemptId)) (hitem : item.state = .accepted)
      (hstate : value.state = .open)
      (hnone : matching value (kind, operationId, attemptId) = []) :
    Update site value (.accept identity authorized (some kind) operationId attemptId binding loaded
      prepared) { value with responsibilities := value.responsibilities.insert identity item }
  | dispatch {authorized receipt} (item : Responsibility F)
      (hfound : value.responsibilities.lookup item.id = some item) (hitem : item.state = .accepted) :
    Update site value (.dispatch authorized receipt) (value.update { item with state := .dispatching })
  | finish {receipt proof} (item : Responsibility F) (closure : Closure)
      (hfound : value.responsibilities.lookup item.id = some item) (hitem : item.state ≠ .closed) :
    Update site value (.finish receipt proof)
      (value.update { item with state := .closed, proof := some closure })

/-- A call left the record as it was, or made one update from a valid record to a valid one. -/
def Updated (site : Site F) (record : Option (Gate F)) (call : Call F)
    (record' : Option (Gate F)) : Prop :=
  record' = record ∨ ∃ value value', record = some value ∧ validate site value = .ok () ∧
    Update site value call value' ∧ validate site value' = .ok () ∧ record' = some value'

theorem locked_updated {ρ : Type} {io : Io} {decide : Gate F → Except Fault (Decision F ρ)}
    {record : Option (Gate F)} {call : Call F}
    (h : ∀ value value' reply, decide value = .ok (.write value' reply) → Update site value call value') :
    Updated site record call (locked site io decide record).2 := by
  rcases locked_record site io decide record with hr | ⟨value, value', reply, hv, hval, hd, hval', hr⟩
  · exact .inl hr
  · exact .inr ⟨value, value', hv, hval, h value value' reply hd, hval', hr⟩

theorem checked_updated {ρ : Type} {checks : Except Fault Unit} {op : Op F ρ}
    {record : Option (Gate F)} {call : Call F} (h : checks = .ok () → Updated site record call (op record).2) :
    Updated site record call (checked checks op record).2 := by
  rcases checked_record checks op record with hr | ⟨hc, hr⟩
  · exact .inl hr
  · rw [hr]
    exact h hc

theorem initializeGate_record (io : Io) (deploymentDigest decisionId : String) (bootstrap : Bool)
    (record : Option (Gate F)) :
    (initializeGate site io deploymentDigest decisionId bootstrap record).2 = record ∨
      (record = none ∧ validate site (freshGate site deploymentDigest decisionId) = .ok () ∧
        (initializeGate site io deploymentDigest decisionId bootstrap record).2 =
          some (freshGate site deploymentDigest decisionId)) := by
  unfold initializeGate
  rcases checked_record _ _ record with h | ⟨-, h⟩
  · exact .inl h
  · rw [h]
    cases record with
    | none =>
      dsimp only
      split
      · exact .inl rfl
      split
      · exact .inl rfl
      rcases write_record site io (freshGate site deploymentDigest decisionId)
        (freshGate site deploymentDigest decisionId) none with hw | ⟨hv, hw⟩
      · exact .inl hw
      · exact .inr ⟨rfl, hv, hw⟩
    | some value =>
      rcases locked_record site io _ (some value) with hr | ⟨_, _, _, -, -, hd, -⟩
      · exact .inl hr
      · simp [bind_ok, pure, Except.pure] at hd

theorem authorizeCompatibility_updated (io : Io) (owner : String) (prepared : Option Prepared)
    (targetDeploymentDigest : String) (targetLoaded : Loaded) (record : Option (Gate F)) :
    Updated site record (.authorizeCompatibility owner prepared targetDeploymentDigest targetLoaded)
      (authorizeCompatibility site io owner prepared targetDeploymentDigest targetLoaded record).2 := by
  unfold authorizeCompatibility
  split
  · exact .inl rfl
  · refine locked_updated fun value value' reply hd => ?_
    simp only [bind_ok, require_ok, exists_const, pure, Except.pure] at hd
    obtain ⟨-, hd⟩ := hd
    split at hd
    · cases hd
    · cases hd
      exact .compatibility _

/-! ## What an update preserves -/

/-- The duties of a record are filed under their own identity, and no attempt has two. -/
structure Sound (site : Site F) (value : Gate F) : Prop where
  valid : validate site value = .ok ()
  filed : ∀ i item, value.responsibilities.lookup i = some item → item.id = i
  once : ∀ i j item item', value.responsibilities.lookup i = some item →
    value.responsibilities.lookup j = some item' → item.attempt = item'.attempt → i = j

def SoundRecord (site : Site F) (record : Option (Gate F)) : Prop :=
  ∀ value, record = some value → Sound site value

/-- What `uuid.uuid4()` draws for an accepted duty is not already filed. -/
def FreshIdentity (record : Option (Gate F)) (label : Call F × Io) : Prop :=
  match label.1, record with
  | .accept identity .., some value => identity ∉ value.responsibilities
  | _, _ => True

instance (record : Option (Gate F)) (label : Call F × Io) : Decidable (FreshIdentity record label) := by
  unfold FreshIdentity
  split <;> infer_instance

/-- What an update does to the duties: nothing, a new one, or one moved forward in place. -/
theorem Update.duties {value value' : Gate F} {call : Call F} {io : Io}
    (h : Update site value call value') (hfresh : FreshIdentity (some value) (call, io)) :
    value'.responsibilities = value.responsibilities ∨
      (∃ item, value.state = .open ∧ item.state = .accepted ∧ item.id ∉ value.responsibilities ∧
        matching value item.attempt = [] ∧
        value'.responsibilities = value.responsibilities.insert item.id item) ∨
      (∃ item item', value.responsibilities.lookup item.id = some item ∧ item'.id = item.id ∧
        item'.attempt = item.attempt ∧ item.state ≠ .closed ∧ item'.state ≠ .accepted ∧
        value'.responsibilities = value.responsibilities.insert item.id item') := by
  cases h with
  | close | release | handoff | compatibility => exact .inl rfl
  | accept item hid hattempt hitem hstate hnone =>
    subst hid
    exact .inr (.inl ⟨item, hstate, hitem, hfresh, by rw [hattempt]; exact hnone, rfl⟩)
  | dispatch item hfound hitem =>
    exact .inr (.inr ⟨item, { item with state := .dispatching }, hfound, rfl, rfl, by simp [hitem],
      by simp, rfl⟩)
  | finish item closure hfound hitem =>
    exact .inr (.inr ⟨item, { item with state := .closed, proof := some closure }, hfound, rfl, rfl,
      hitem, by simp, rfl⟩)

theorem Update.sound {value value' : Gate F} {call : Call F} {io : Io}
    (h : Update site value call value') (hs : Sound site value)
    (hv : validate site value' = .ok ()) (hfresh : FreshIdentity (some value) (call, io)) :
    Sound site value' := by
  rcases h.duties hfresh with heq | ⟨new, -, -, -, hnone, heq⟩ | ⟨old, new, hold, hid, hatt, -, -, heq⟩
  · exact ⟨hv, by rw [heq]; exact hs.filed, by rw [heq]; exact hs.once⟩
  · have hother := matching_nil.mp hnone
    refine ⟨hv, ?_, ?_⟩ <;> rw [heq]
    · intro i item hi
      by_cases hin : i = new.id
      · rw [hin, AList.lookup_insert] at hi
        cases hi
        exact hin.symm
      · rw [AList.lookup_insert_ne hin] at hi
        exact hs.filed i item hi
    · intro i j item item' hi hj ha
      by_cases hin : i = new.id <;> by_cases hjn : j = new.id
      · exact hin.trans hjn.symm
      · rw [hin, AList.lookup_insert] at hi
        rw [AList.lookup_insert_ne hjn] at hj
        cases hi
        exact absurd ha.symm (hother j item' hj)
      · rw [AList.lookup_insert_ne hin] at hi
        rw [hjn, AList.lookup_insert] at hj
        cases hj
        exact absurd ha (hother i item hi)
      · rw [AList.lookup_insert_ne hin] at hi
        rw [AList.lookup_insert_ne hjn] at hj
        exact hs.once i j item item' hi hj ha
  · -- The rewritten duty stands where its old version stood, under the same attempt.
    have hold' : ∀ i item, (value.responsibilities.insert old.id new).lookup i = some item →
        ∃ item₀, value.responsibilities.lookup i = some item₀ ∧ item₀.attempt = item.attempt ∧
          item.id = i := by
      intro i item hi
      by_cases hin : i = old.id
      · rw [hin, AList.lookup_insert] at hi
        cases hi
        exact ⟨old, by rw [hin]; exact hold, hatt.symm, hid.trans hin.symm⟩
      · rw [AList.lookup_insert_ne hin] at hi
        exact ⟨item, hi, rfl, hs.filed i item hi⟩
    refine ⟨hv, ?_, ?_⟩ <;> rw [heq]
    · intro i item hi
      exact (hold' i item hi).choose_spec.2.2
    · intro i j item item' hi hj ha
      obtain ⟨item₀, hi₀, ha₀, -⟩ := hold' i item hi
      obtain ⟨item₁, hj₁, ha₁, -⟩ := hold' j item' hj
      exact hs.once i j item₀ item₁ hi₀ hj₁ (ha₀.trans (ha.trans ha₁.symm))

/-- What no run takes back: a retired owner stays retired, one who holds the
gate is retired when it loses it, and a duty only moves forward. -/
structure Ahead (value value' : Gate F) : Prop where
  retired : ∀ owner ∈ value.retiredOwners, owner ∈ value'.retiredOwners
  holds : ∀ owner, value.Holds owner → value'.Holds owner ∨ owner ∈ value'.retiredOwners
  duty : ∀ i item, value.responsibilities.lookup i = some item →
    ∃ item', value'.responsibilities.lookup i = some item' ∧ item'.attempt = item.attempt ∧
      (item.state ≠ .accepted → item'.state ≠ .accepted) ∧ (item.state = .closed → item' = item)

theorem Ahead.refl (value : Gate F) : Ahead value value :=
  ⟨fun _ h => h, fun _ h => .inl h, fun _ item h => ⟨item, h, rfl, id, fun _ => rfl⟩⟩

theorem Ahead.trans {a b c : Gate F} (hab : Ahead a b) (hbc : Ahead b c) : Ahead a c where
  retired owner h := hbc.retired owner (hab.retired owner h)
  holds owner h := (hab.holds owner h).elim (hbc.holds owner) fun h => .inr (hbc.retired owner h)
  duty i item h := by
    obtain ⟨item', h', ha', hd', hc'⟩ := hab.duty i item h
    obtain ⟨item'', h'', ha'', hd'', hc''⟩ := hbc.duty i item' h'
    refine ⟨item'', h'', ha''.trans ha', fun hi => hd'' (hd' hi), fun hi => ?_⟩
    have := hc' hi
    subst this
    exact hc'' hi

theorem Update.ahead {value value' : Gate F} {call : Call F} {io : Io}
    (h : Update site value call value') (hfresh : FreshIdentity (some value) (call, io)) :
    Ahead value value' := by
  have hduty : ∀ i item, value.responsibilities.lookup i = some item →
      ∃ item', value'.responsibilities.lookup i = some item' ∧ item'.attempt = item.attempt ∧
        (item.state ≠ .accepted → item'.state ≠ .accepted) ∧ (item.state = .closed → item' = item) := by
    intro i item hi
    rcases h.duties hfresh with heq | ⟨new, -, -, hnew, -, heq⟩ |
      ⟨old, new, hold, -, hatt, hopen, hdone, heq⟩
    · exact ⟨item, by rw [heq]; exact hi, rfl, id, fun _ => rfl⟩
    · have hne : i ≠ new.id := by
        rintro rfl
        rw [AList.lookup_eq_none.mpr hnew] at hi
        cases hi
      exact ⟨item, by rw [heq, AList.lookup_insert_ne hne]; exact hi, rfl, id, fun _ => rfl⟩
    · by_cases hin : i = old.id
      · rw [hin, hold] at hi
        cases hi
        exact ⟨new, by rw [heq, hin, AList.lookup_insert], hatt, fun _ => hdone,
          fun hc => absurd hc hopen⟩
      · exact ⟨item, by rw [heq, AList.lookup_insert_ne hin]; exact hi, rfl, id, fun _ => rfl⟩
  cases h with
  | close hstate _ =>
    exact ⟨fun _ h => h, fun o h => (by rw [Gate.Holds, hstate] at h; cases h.1), hduty⟩
  | release hstate howner =>
    refine ⟨fun o h => List.mem_append_left _ h, fun o h => .inr ?_, hduty⟩
    rw [Gate.Holds, howner] at h
    cases h.2
    simp
  | handoff hne hstate howner _ =>
    refine ⟨fun o h => List.mem_append_left _ h, fun o h => .inr ?_, hduty⟩
    rw [Gate.Holds, howner] at h
    cases h.2
    simp
  | compatibility | accept | dispatch | finish =>
    exact ⟨fun _ h => h, fun _ h => .inl h, hduty⟩

def AheadRecord (record record' : Option (Gate F)) : Prop :=
  ∀ value, record = some value → ∃ value', record' = some value' ∧ Ahead value value'

theorem fresh_sound {deploymentDigest decisionId : String}
    (h : validate site (freshGate site deploymentDigest decisionId) = .ok ()) :
    Sound site (freshGate site deploymentDigest decisionId) :=
  ⟨h, by simp [freshGate], by simp [freshGate]⟩

theorem Update.sequence {value value' : Gate F} {call : Call F} (h : Update site value call value')
    (hv : validate site value = .ok ()) :
    value'.sequence = value.sequence + (if value'.owner = value.owner then 0 else 1) := by
  cases h with
  | close hstate _ => simp [valid_open hv hstate]
  | release _ howner => simp [howner]
  | handoff hne _ howner _ => simp [howner, Ne.symm hne]
  | compatibility | accept | dispatch | finish => simp [Gate.update]

theorem Update.closed {value value' : Gate F} {call : Call F} (h : Update site value call value')
    (hstate : value.state = .closed) {i : String} (hi : i ∈ value'.responsibilities) :
    i ∈ value.responsibilities := by
  cases h with
  | close | release | handoff | compatibility => exact hi
  | accept _ _ _ _ hopen => rw [hopen] at hstate; cases hstate
  | dispatch item hfound | finish item _ hfound =>
    rcases (AList.mem_insert _).mp hi with rfl | hi
    · exact AList.lookup_isSome.mp (by rw [hfound]; rfl)
    · exact hi

/-- The owner a record is held under, if the gate is closed. -/
def Held (record : Option (Gate F)) (owner : String) : Prop :=
  ∃ value, record = some value ∧ value.Holds owner

/-- Why a close, a release or a handoff that once succeeded cannot write again. -/
def Spent : Call F → Gate F → Prop
  | .close owner _, value => value.Holds owner ∨ owner ∈ value.retiredOwners
  | .release owner .., value => owner ∈ value.retiredOwners
  | .handoff owner .., value => owner ∈ value.retiredOwners
  | _, _ => False

theorem Spent.ahead {call : Call F} {value value' : Gate F} (h : Spent call value)
    (ha : Ahead value value') : Spent call value' := by
  cases call with
  | close owner =>
    exact h.elim (ha.holds owner) fun h => .inr (ha.retired owner h)
  | release owner | handoff owner => exact ha.retired owner h
  | initializeGate | authorizeCompatibility | accept | dispatch | finish => exact h.elim

theorem Spent.no_update {call : Call F} {value value' : Gate F} (h : Spent call value)
    (hv : validate site value = .ok ()) : ¬ Update site value call value' := by
  intro hu
  cases hu with
  | close hstate hfresh =>
    rcases h with h | h
    · rw [Gate.Holds, hstate] at h
      cases h.1
    · exact hfresh h
  | release hstate howner => exact valid_holds hv ⟨hstate, howner⟩ h
  | handoff _ hstate howner _ => exact valid_holds hv ⟨hstate, howner⟩ h
  | compatibility | accept | dispatch | finish => exact h.elim

/-- The three calls that move the gate between owners. -/
def Call.movesOwner : Call F → Bool
  | .close .. | .release .. | .handoff .. => true
  | _ => false

/-- Whether the attempt's duty is being dispatched. -/
def isDispatching (attempt : Attempt) (record : Option (Gate F)) : Bool :=
  record.any fun value => (matching value attempt).any (·.state = .dispatching)

theorem isDispatching_iff {attempt : Attempt} {record : Option (Gate F)} :
    isDispatching attempt record = true ↔ ∃ value i item, record = some value ∧
      value.responsibilities.lookup i = some item ∧ item.attempt = attempt ∧
      item.state = .dispatching := by
  cases record with
  | none => simp [isDispatching]
  | some value =>
    simp only [isDispatching, Option.any_some, matching, List.any_eq_true, List.mem_filter,
      List.mem_map, decide_eq_true_eq, Option.some.injEq]
    constructor
    · rintro ⟨_, ⟨⟨⟨i, item⟩, hm, rfl⟩, ha⟩, hd⟩
      exact ⟨value, i, item, rfl, AList.mem_lookup_iff.mpr hm, ha, hd⟩
    · rintro ⟨_, i, item, rfl, hl, ha, hd⟩
      exact ⟨item, ⟨⟨⟨i, item⟩, AList.mem_lookup_iff.mp hl, rfl⟩, ha⟩, hd⟩

/-- The attempt has been dispatched or closed. -/
def PastAccepted (attempt : Attempt) (record : Option (Gate F)) : Prop :=
  ∃ value i item, record = some value ∧ value.responsibilities.lookup i = some item ∧
    item.attempt = attempt ∧ item.state ≠ .accepted

/-! ## Every call makes at most one update -/

variable [DecidableEq F]

theorem findReceipt_ok {value : Gate F} {receipt : Receipt F} {item : Responsibility F}
    (h : findReceipt site value receipt = .ok item) :
    value.responsibilities.lookup item.id = some item := by
  unfold findReceipt at h
  split at h
  · cases h
  · next found hf =>
    simp only [bind_ok, require_ok, exists_const, Bool.and_eq_true, decide_eq_true_eq, pure,
      Except.pure, Except.ok.injEq] at h
    obtain ⟨hr, rfl⟩ := h
    rw [hr.1.1.1.1.1.1.1]
    exact hf

theorem close_updated (io : Io) (owner : String) (expected : Option (Value F))
    (record : Option (Gate F)) :
    Updated site record (.close owner expected) (close site io owner expected record).2 := by
  refine checked_updated fun _ => locked_updated fun value value' reply hd => ?_
  split at hd
  · cases hd
  · simp only [bind_ok, require_ok, exists_const, pure, Except.pure,
      Except.ok.injEq, Decision.write.injEq, Bool.and_eq_true, decide_eq_true_eq] at hd
    obtain ⟨_, -, ⟨hstate, hfresh⟩, rfl, -⟩ := hd
    exact .close hstate hfresh

theorem release_updated (io : Io) (owner decisionId deploymentDigest : String)
    (expected : Option (Value F)) (record : Option (Gate F)) :
    Updated site record (.release owner decisionId deploymentDigest expected)
      (release site io owner decisionId deploymentDigest expected record).2 := by
  refine checked_updated fun _ => locked_updated fun value value' reply hd => ?_
  split at hd
  · cases hd
  · simp only [bind_ok, require_ok, exists_const, pure, Except.pure,
      Except.ok.injEq, Decision.write.injEq, Bool.and_eq_true, decide_eq_true_eq] at hd
    obtain ⟨_, -, ⟨hstate, howner⟩, rfl, -⟩ := hd
    exact .release hstate howner

theorem handoff_updated (io : Io) (owner successor : String) (expected : Option (Value F))
    (record : Option (Gate F)) :
    Updated site record (.handoff owner successor expected)
      (handoff site io owner successor expected record).2 := by
  refine checked_updated fun hc => locked_updated fun value value' reply hd => ?_
  simp only [bind_ok, require_ok, decide_eq_true_eq] at hc
  obtain ⟨_, -, _, -, hne⟩ := hc
  split at hd
  · cases hd
  · simp only [bind_ok, require_ok, exists_const, pure, Except.pure,
      Except.ok.injEq, Decision.write.injEq, Bool.and_eq_true, decide_eq_true_eq] at hd
    obtain ⟨_, -, ⟨⟨hstate, howner⟩, hfresh⟩, rfl, -⟩ := hd
    exact .handoff hne hstate howner hfresh

theorem accept_updated (io : Io) (identity : String) (authorized : Except Fault Unit)
    (kind : Option Kind) (operationId attemptId : String) (binding : Value F) (loaded : Loaded)
    (prepared : Option Prepared) (record : Option (Gate F)) :
    Updated site record
      (.accept identity authorized kind operationId attemptId binding loaded prepared)
      (accept site io identity authorized kind operationId attemptId binding loaded prepared record).2 := by
  unfold accept
  split
  · next kind fields =>
    refine checked_updated fun _ => locked_updated fun value value' reply hd => ?_
    obtain ⟨-, -, hd⟩ := bind_ok.mp hd
    split at hd
    · simp [bind_ok, pure, Except.pure] at hd
    · next hnone =>
      simp only [bind_ok, require_ok, exists_const, pure, Except.pure,
        decide_eq_true_eq] at hd
      obtain ⟨hstate, -, hd⟩ := hd
      split at hd
      · simp only [bind_ok, require_ok, exists_const, Except.ok.injEq, Decision.write.injEq] at hd
        obtain ⟨_, -, -, rfl, -⟩ := hd
        exact .accept _ rfl rfl rfl hstate hnone
      · simp only [Except.ok.injEq, Decision.write.injEq] at hd
        obtain ⟨rfl, -⟩ := hd
        exact .accept _ rfl rfl rfl hstate hnone
  · exact .inl rfl

theorem dispatch_updated (io : Io) (authorized : Except Fault Unit) (receipt : Receipt F)
    (record : Option (Gate F)) :
    Updated site record (.dispatch authorized receipt) (dispatch site io authorized receipt record).2 := by
  refine locked_updated fun value value' reply hd => ?_
  simp only [bind_ok, require_ok, exists_const, pure, Except.pure,
      Except.ok.injEq, Decision.write.injEq, decide_eq_true_eq] at hd
  obtain ⟨item, hfound, _, -, hitem, rfl, -⟩ := hd
  exact .dispatch item (findReceipt_ok hfound) hitem

theorem finish_updated (io : Io) (receipt : Receipt F) (proof : Value F) (record : Option (Gate F)) :
    Updated site record (.finish receipt proof) (finish site io receipt proof record).2 := by
  unfold finish
  split
  · exact .inl rfl
  · next closure _ =>
    refine locked_updated fun value value' reply hd => ?_
    obtain ⟨item, hfound, hd⟩ := bind_ok.mp hd
    split at hd
    · simp [bind_ok, pure, Except.pure] at hd
    · next hitem =>
      cases hd
      exact .finish item closure (findReceipt_ok hfound) hitem

/-- What a step does to the record: nothing, its creation, or one update. -/
theorem step_cases (site : Site F) (record : Option (Gate F)) (call : Call F) (io : Io) :
    Updated site record call (step site record (call, io)) ∨
      ∃ deploymentDigest decisionId, record = none ∧
        validate site (freshGate site deploymentDigest decisionId) = .ok () ∧
        step site record (call, io) = some (freshGate site deploymentDigest decisionId) := by
  cases call with
  | initializeGate deploymentDigest decisionId bootstrap =>
    rcases initializeGate_record io deploymentDigest decisionId bootstrap record with h | h
    · exact .inl (.inl h)
    · exact .inr ⟨deploymentDigest, decisionId, h⟩
  | close => exact .inl (close_updated ..)
  | release => exact .inl (release_updated ..)
  | handoff => exact .inl (handoff_updated ..)
  | authorizeCompatibility => exact .inl (authorizeCompatibility_updated ..)
  | accept => exact .inl (accept_updated ..)
  | dispatch => exact .inl (dispatch_updated ..)
  | finish => exact .inl (finish_updated ..)

/-! ## Runs -/

theorem step_sound (record : Option (Gate F)) (label : Call F × Io) (hs : SoundRecord site record)
    (hfresh : FreshIdentity record label) : SoundRecord site (step site record label) := by
  obtain ⟨call, io⟩ := label
  rcases step_cases site record call io with
    (heq | ⟨value, value', rfl, -, hu, hv', heq⟩) | ⟨_, _, -, hv, heq⟩
  · rw [heq]
    exact hs
  · rw [heq]
    rintro _ ⟨⟩
    exact hu.sound (hs value rfl) hv' hfresh
  · rw [heq]
    rintro _ ⟨⟩
    exact fresh_sound hv

theorem step_ahead (site : Site F) (record : Option (Gate F)) (label : Call F × Io)
    (hfresh : FreshIdentity record label) : AheadRecord record (step site record label) := by
  obtain ⟨call, io⟩ := label
  rcases step_cases site record call io with
    (heq | ⟨value, value', rfl, -, hu, -, heq⟩) | ⟨_, _, rfl, -, -⟩
  · rw [heq]
    exact fun value h => ⟨value, h, .refl value⟩
  · rw [heq]
    rintro _ ⟨⟩
    exact ⟨value', rfl, hu.ahead hfresh⟩
  · rintro _ ⟨⟩

theorem run_ahead {record : Option (Gate F)} {labels : List (Call F × Io)}
    (hr : Along (step site) FreshIdentity record labels) :
    AheadRecord record (exec (step site) record labels) :=
  exec_rel (I := fun _ => True) (fun _ value h => ⟨value, h, .refl value⟩)
    (fun hst htu value h =>
      let ⟨_, ht, hvt⟩ := hst value h
      let ⟨value'', hu, htu⟩ := htu _ ht
      ⟨value'', hu, hvt.trans htu⟩)
    (fun _ _ _ _ => trivial) (fun s a _ hf => step_ahead site s a hf) trivial hr

theorem run_sound {record : Option (Gate F)} {labels : List (Call F × Io)}
    (hs : SoundRecord site record) (hr : Along (step site) FreshIdentity record labels) :
    SoundRecord site (exec (step site) record labels) :=
  exec_inv_along step_sound hs hr

theorem close_spent {io : Io} {owner : String} {expected : Option (Value F)}
    {record : Option (Gate F)} {reply : Gate F} (h : (close site io owner expected record).1 = .ok reply) :
    ∃ value, (close site io owner expected record).2 = some value ∧
      Spent (.close owner expected) value := by
  unfold close at h ⊢
  obtain ⟨-, hop⟩ := checked_ok h
  rw [hop] at h ⊢
  obtain ⟨value, -, -, ⟨hd, hr⟩ | ⟨value', hd, hr⟩⟩ := locked_ok h
  · refine ⟨value, hr, ?_⟩
    split at hd
    · next hc =>
      simp only [Bool.and_eq_true, decide_eq_true_eq] at hc
      exact .inl hc
    · simp [bind_ok, pure, Except.pure] at hd
  · refine ⟨value', hr, ?_⟩
    split at hd
    · cases hd
    · simp only [bind_ok, pure, Except.pure, Except.ok.injEq, Decision.write.injEq] at hd
      obtain ⟨_, -, _, -, rfl, -⟩ := hd
      exact .inl ⟨rfl, rfl⟩

theorem release_spent {io : Io} {owner decisionId deploymentDigest : String}
    {expected : Option (Value F)} {record : Option (Gate F)} {reply : Gate F}
    (h : (release site io owner decisionId deploymentDigest expected record).1 = .ok reply) :
    ∃ value, (release site io owner decisionId deploymentDigest expected record).2 = some value ∧
      Spent (.release owner decisionId deploymentDigest expected) value := by
  unfold release at h ⊢
  obtain ⟨-, hop⟩ := checked_ok h
  rw [hop] at h ⊢
  obtain ⟨value, -, hv, ⟨hd, hr⟩ | ⟨value', hd, hr⟩⟩ := locked_ok h
  · refine ⟨value, hr, ?_⟩
    split at hd
    · next hc =>
      simp only [Bool.and_eq_true, decide_eq_true_eq] at hc
      have ht := (validate_ok hv).2
      simp only [validateTransition, hc.2, require_ok, Bool.and_eq_true, decide_eq_true_eq] at ht
      exact ht.1.1.2
    · simp [bind_ok, pure, Except.pure] at hd
  · refine ⟨value', hr, ?_⟩
    split at hd
    · cases hd
    · simp only [bind_ok, pure, Except.pure, Except.ok.injEq, Decision.write.injEq] at hd
      obtain ⟨_, -, _, -, rfl, -⟩ := hd
      simp [Spent]

theorem handoff_spent {io : Io} {owner successor : String} {expected : Option (Value F)}
    {record : Option (Gate F)} {reply : Gate F}
    (h : (handoff site io owner successor expected record).1 = .ok reply) :
    ∃ value, (handoff site io owner successor expected record).2 = some value ∧
      Spent (.handoff owner successor expected) value := by
  unfold handoff at h ⊢
  obtain ⟨-, hop⟩ := checked_ok h
  rw [hop] at h ⊢
  obtain ⟨value, -, hv, ⟨hd, hr⟩ | ⟨value', hd, hr⟩⟩ := locked_ok h
  · refine ⟨value, hr, ?_⟩
    split at hd
    · next hc =>
      simp only [Bool.and_eq_true, decide_eq_true_eq] at hc
      have ht := (validate_ok hv).2
      simp only [validateTransition, hc.2, require_ok, Bool.and_eq_true, decide_eq_true_eq] at ht
      exact ht.2
    · simp [bind_ok, pure, Except.pure] at hd
  · refine ⟨value', hr, ?_⟩
    split at hd
    · cases hd
    · simp only [bind_ok, pure, Except.pure, Except.ok.injEq, Decision.write.injEq] at hd
      obtain ⟨_, -, _, -, rfl, -⟩ := hd
      simp [Spent]

theorem perform_spent {call : Call F} {io : Io} {record : Option (Gate F)} {reply : Reply F}
    (hcall : call.movesOwner = true) (h : (perform site call io record).1 = .ok reply) :
    ∃ value, step site record (call, io) = some value ∧ Spent call value := by
  cases call with
  | close owner expected =>
    cases hr : (close site io owner expected record).1 with
    | error => simp [perform, hr, Except.map] at h
    | ok => exact close_spent hr
  | release owner decisionId deploymentDigest expected =>
    cases hr : (release site io owner decisionId deploymentDigest expected record).1 with
    | error => simp [perform, hr, Except.map] at h
    | ok => exact release_spent hr
  | handoff owner successor expected =>
    cases hr : (handoff site io owner successor expected record).1 with
    | error => simp [perform, hr, Except.map] at h
    | ok => exact handoff_spent hr
  | initializeGate | authorizeCompatibility | accept | dispatch | finish => cases hcall

/-- A spent call leaves the record alone, whatever it returns. -/
theorem Spent.step {call : Call F} {value : Gate F} (h : Spent call value) (io : Io) :
    step site (some value) (call, io) = some value := by
  rcases step_cases site (some value) call io with
    (heq | ⟨_, value', ⟨⟩, hv, hu, -, -⟩) | ⟨_, _, ⟨⟩, -, -⟩
  · exact heq
  · exact absurd hu (h.no_update hv)

/-- The step moves the attempt to `DISPATCHING`. -/
def dispatches (site : Site F) (attempt : Attempt) (record : Option (Gate F))
    (label : Call F × Io) : Bool :=
  !isDispatching attempt record && isDispatching attempt (step site record label)

theorem dispatches_le_one (site : Site F) (attempt : Attempt) {record : Option (Gate F)}
    {labels : List (Call F × Io)} (hs : SoundRecord site record)
    (hr : Along (step site) FreshIdentity record labels) :
    countSteps (step site) (dispatches site attempt) record labels ≤ 1 := by
  refine countSteps_le_one (D := PastAccepted attempt) step_sound ?_ ?_ ?_ hs hr
  · intro s a _ _ hp
    simp only [dispatches, Bool.and_eq_true] at hp
    obtain ⟨value, i, item, hv, hl, ha, hd⟩ := isDispatching_iff.mp hp.2
    exact ⟨value, i, item, hv, hl, ha, by simp [hd]⟩
  · rintro s a _ hf ⟨value, i, item, hv, hl, ha, hd⟩
    obtain ⟨value', hv', hahead⟩ := step_ahead site s a hf value hv
    obtain ⟨item', hl', ha', hd', -⟩ := hahead.duty i item hl
    exact ⟨value', i, item', hv', hl', ha'.trans ha, hd' hd⟩
  · rintro s a hs hf ⟨value, i, item, hv, hl, ha, hd⟩
    by_cases hdisp : item.state = .dispatching
    · have : isDispatching attempt s = true := isDispatching_iff.mpr ⟨value, i, item, hv, hl, ha, hdisp⟩
      simp [dispatches, this]
    · -- The duty is closed; it stays as it is, and it is the attempt's only one.
      have hclosed : item.state = .closed := by
        cases hst : item.state <;> simp_all
      obtain ⟨value', hv', hahead⟩ := step_ahead site s a hf value hv
      obtain ⟨item', hl', -, -, hsame⟩ := hahead.duty i item hl
      have hno : ¬ isDispatching attempt (step site s a) = true := by
        rw [isDispatching_iff, hv']
        rintro ⟨_, j, other, ⟨⟩, hj, hja, hjd⟩
        have hsound := step_sound s a hs hf value' hv'
        rw [hsame hclosed] at hl'
        have hij := hsound.once i j item other hl' hj (ha.trans hja.symm)
        subst hij
        rw [hl'] at hj
        cases hj
        exact hdisp hjd
      simp [dispatches, hno]

/-- **The admission barrier.** Over any run from a missing record, looked at
around one call of it: a closed gate takes no new duty; at most one owner holds
the gate, and one that lost it never holds it again; the sequence counts the
changes of owner; a close, a release or a handoff that once succeeded writes
nothing when repeated; an attempt has one duty, dispatched at most once, and a
closed duty keeps its proof. -/
theorem barrier_safety (site : Site F) (past future : List (Call F × Io)) (call : Call F) (io : Io)
    (hfresh : Along (step site) FreshIdentity none (past ++ (call, io) :: future)) :
    let before := exec (step site) none past
    let after := step site before (call, io)
    let later := exec (step site) after future
    (∀ value value', before = some value → after = some value' → value.state = .closed →
      ∀ i ∈ value'.responsibilities, i ∈ value.responsibilities) ∧
    (∀ owner owner', Held later owner → Held later owner' → owner = owner') ∧
    (∀ owner, Held before owner → ¬ Held after owner → ¬ Held later owner) ∧
    (∀ value, before = some value → ∃ value', after = some value' ∧
      value'.sequence = value.sequence + if value'.owner = value.owner then 0 else 1) ∧
    (∀ value', before = none → after = some value' → value'.sequence = 1 ∧ value'.owner = none) ∧
    (∀ reply io', call.movesOwner = true → (perform site call io before).1 = .ok reply →
      step site later (call, io') = later) ∧
    (∀ value i j item item', later = some value → value.responsibilities.lookup i = some item →
      value.responsibilities.lookup j = some item' → item.attempt = item'.attempt → i = j) ∧
    (∀ attempt, countSteps (step site) (dispatches site attempt) none
      (past ++ (call, io) :: future) ≤ 1) ∧
    (∀ value i item, after = some value → value.responsibilities.lookup i = some item →
      item.state = .closed → ∃ value', later = some value' ∧
        value'.responsibilities.lookup i = some item) := by
  intro before after later
  have hnone : SoundRecord site none := fun _ h => by cases h
  obtain ⟨hpast, hcall, hfuture⟩ := Along.append.mp hfresh
  have hbefore : SoundRecord site before := run_sound hnone hpast
  have hafter : SoundRecord site after := step_sound before (call, io) hbefore hcall
  have hlater : SoundRecord site later := run_sound hafter hfuture
  have hahead : AheadRecord after later := run_ahead hfuture
  refine ⟨?_, ?_, ?_, ?_, ?_, ?_, ?_, ?_, ?_⟩
  · intro value value' hv hv' hstate i hi
    rcases step_cases site before call io with
      (heq | ⟨_, _, hw, -, hu, -, heq⟩) | ⟨_, _, hw, -, -⟩
    · rw [show after = before from heq, hv] at hv'
      cases hv'
      exact hi
    · rw [hv] at hw
      cases hw
      rw [show after = _ from heq] at hv'
      cases hv'
      exact hu.closed hstate hi
    · rw [hv] at hw
      cases hw
  · rintro owner owner' ⟨value, hv, -, ho⟩ ⟨value', hv', -, ho'⟩
    rw [hv] at hv'
    cases hv'
    rw [ho] at ho'
    exact Option.some.inj ho'
  · rintro owner ⟨value, hv, hh⟩ hlost ⟨value'', hv'', hh''⟩
    obtain ⟨value', hv', hstep⟩ := step_ahead site before (call, io) hcall value hv
    -- Having lost the gate, the owner is retired, and stays so.
    have hretired : owner ∈ value'.retiredOwners :=
      (hstep.holds owner hh).resolve_left fun h => hlost ⟨value', hv', h⟩
    obtain ⟨_, hw, hrun⟩ := hahead value' hv'
    rw [hv''] at hw
    cases hw
    exact valid_holds (hlater value'' hv'').valid hh'' (hrun.retired owner hretired)
  · intro value hv
    rcases step_cases site before call io with
      (heq | ⟨_, value', hw, hval, hu, -, heq⟩) | ⟨_, _, hw, -, -⟩
    · exact ⟨value, heq.trans hv, by simp⟩
    · rw [hv] at hw
      cases hw
      exact ⟨value', heq, hu.sequence hval⟩
    · rw [hv] at hw
      cases hw
  · intro value' hv hv'
    rcases step_cases site before call io with
      (heq | ⟨_, _, hw, -⟩) | ⟨_, _, -, -, heq⟩
    · rw [show after = before from heq, hv] at hv'
      cases hv'
    · rw [hv] at hw
      cases hw
    · rw [show after = _ from heq] at hv'
      cases hv'
      exact ⟨rfl, rfl⟩
  · intro reply io' hmoves hok
    obtain ⟨value, hv, hspent⟩ := perform_spent hmoves hok
    obtain ⟨value', hv', hrun⟩ := hahead value hv
    rw [hv']
    exact (hspent.ahead hrun).step io'
  · intro value i j item item' hv hi hj ha
    exact (hlater value hv).once i j item item' hi hj ha
  · intro attempt
    exact dispatches_le_one site attempt hnone hfresh
  · intro value i item hv hi hclosed
    obtain ⟨value', hv', hrun⟩ := hahead value hv
    obtain ⟨item', hi', -, -, hsame⟩ := hrun.duty i item hi
    rw [hsame hclosed] at hi'
    exact ⟨value', hv', hi'⟩

/-! A run of two clients: one duty is accepted and dispatched, its reply lost
to a failed sync; alice closes, the duty finishes, alice releases, bob closes. -/

def sampleDigest : String := "aaaaaaaaaaaaaaaaaaaaaaaaaaaaaaaaaaaaaaaaaaaaaaaaaaaaaaaaaaaaaaaa"

def sampleSite : Site Empty where
  nodeId := "node"
  digest := fun _ => sampleDigest
  intOf := Empty.elim

def sampleLoaded : Loaded :=
  ⟨"node", sampleDigest, sampleDigest, sampleDigest, "boot", "manager"⟩

def sampleReceipt : Receipt Empty :=
  ⟨"0123456789abcdef0123456789abcdef", .prepare, "op", "try", .obj [], sampleDigest, sampleLoaded, 1⟩

def samplePast : List (Call Empty × Io) :=
  [(.initializeGate sampleDigest "first" true, .ok),
    (.accept sampleReceipt.id (.ok ()) (some .prepare) "op" "try" (.obj []) sampleLoaded none, .ok),
    (.dispatch (.ok ()) sampleReceipt, .replaced)]

def sampleFuture : List (Call Empty × Io) :=
  [(.finish sampleReceipt (.obj [("never_dispatched", .bool true)]), .ok),
    (.release "alice" "second" sampleDigest none, .ok), (.close "bob" none, .ok)]

theorem barrier_safety_sample :
    let before := exec (step sampleSite) none samplePast
    let later := exec (step sampleSite) (step sampleSite before (.close "alice" none, .ok)) sampleFuture
    later.map (·.owner) = some (some "bob") ∧
      (∀ owner owner', Held later owner → Held later owner' → owner = owner') ∧
      countSteps (step sampleSite) (dispatches sampleSite (.prepare, "op", "try")) none
        (samplePast ++ (.close "alice" none, .ok) :: sampleFuture) ≤ 1 := by
  have h := barrier_safety sampleSite samplePast sampleFuture (.close "alice" none) .ok
    (by decide +kernel)
  exact ⟨by decide +kernel, h.2.1, h.2.2.2.2.2.2.2.1 _⟩

end LocalHand.Maintenance
