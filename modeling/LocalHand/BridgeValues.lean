/-
Bridge values and their fragments: what a snapshot's proof is wrapped into unwraps
to it, and a fragment carries its place, its size and its part of the text.
-/
import LocalHand.QuotaBridge

namespace LocalHand.QuotaBridge

open PyJson ResultReader QuotaContract QuotaPayload
open Framing (Bytes)

variable {F : Type} {host : Host F}

/-! ## One field replaced -/

variable {name : String} {new v : Value F} {fields pending : List (String × Value F)}

theorem lookup_replaceField (name : String) (new : Value F) (fields : List (String × Value F)) (key : String) :
    lookup (replaceField name new fields) key =
      if key = name then (lookup fields key).map fun _ => new else lookup fields key := by
  induction fields with
  | nil => simp [replaceField, lookup_nil]
  | cons f rest ih =>
    obtain ⟨k, w⟩ := f
    simp only [replaceField, List.map_cons] at ih ⊢
    by_cases hk : k = name
    · subst hk
      rw [if_pos rfl, lookup_cons, lookup_cons, ih]
      by_cases hkey : k = key
      · subst hkey
        simp
      · simp [hkey, Ne.symm hkey]
    · rw [if_neg hk, lookup_cons, lookup_cons, ih]
      by_cases hkey : k = key
      · subst hkey
        simp [hk]
      · simp [hkey]

theorem keysAre_replaceField (name : String) (new : Value F) (fields : List (String × Value F)) (names : List String) :
    keysAre (replaceField name new fields) names = keysAre fields names := by
  have hsome : ∀ key, (lookup (replaceField name new fields) key).isSome = (lookup fields key).isSome := by
    intro key
    rw [lookup_replaceField]
    split <;> simp
  have hall : (replaceField name new fields).all (fun f => names.contains f.1) = fields.all fun f => names.contains f.1 := by
    rw [replaceField, List.all_map]
    congr 1
    funext f
    simp only [Function.comp]
    split
    · next h => rw [h]
    · rfl
  rw [keysAre, keysAre, hall]
  simp only [hsome]

theorem isSnapshot_replaceField (name : String) (new : Value F) (fields : List (String × Value F)) :
    isSnapshot (replaceField name new fields) = isSnapshot fields := by
  rw [isSnapshot, isSnapshot, keysAre_replaceField, keysAre_replaceField]

theorem replaceField_twice (name : String) (new old : Value F) (fields : List (String × Value F)) :
    replaceField name new (replaceField name old fields) = replaceField name new fields := by
  rw [replaceField, replaceField, replaceField, List.map_map]
  congr 1
  funext f
  simp only [Function.comp]
  split
  · simp
  · simp [*]

/-- The value a dict has is the one it gets back. -/
theorem replaceField_same (hsorted : fields.Pairwise (·.1 < ·.1)) (h : lookup fields name = some v) :
    replaceField name v fields = fields := by
  induction fields with
  | nil => rfl
  | cons f rest ih =>
    obtain ⟨k, w⟩ := f
    obtain ⟨hk, hrest⟩ := List.pairwise_cons.mp hsorted
    rw [lookup_cons] at h
    simp only [replaceField, List.map_cons] at ih ⊢
    by_cases hname : k = name
    · subst hname
      rw [if_pos rfl, Option.some.injEq] at h
      have htail : rest.map (fun f => if f.1 = k then (k, v) else f) = rest := by
        rw [List.map_congr_left (g := id), List.map_id]
        intro f hf
        have hne : f.1 ≠ k := fun heq => (heq ▸ hk f hf).ne rfl
        simp [hne]
      rw [if_pos rfl, htail, h]
    · rw [if_neg hname] at h ⊢
      rw [ih hrest h]

theorem replaceField_wf (hnew : new.WF) (h : (Value.obj fields).WF) : (Value.obj (replaceField name new fields)).WF := by
  obtain ⟨hsorted, hwf⟩ := h
  refine ⟨?_, ?_⟩
  · rw [replaceField, List.pairwise_map]
    refine hsorted.imp fun {f g} hlt => ?_
    have hkey : ∀ f : String × Value F, (if f.1 = name then (name, new) else f).1 = f.1 := by
      intro f
      split
      · next h => exact h.symm
      · rfl
    rw [hkey, hkey]
    exact hlt
  · rw [fieldsWF_iff] at hwf ⊢
    intro f hf
    obtain ⟨g, hg, rfl⟩ := List.mem_map.mp hf
    split
    · exact hnew
    · exact hwf g hg

theorem lookup_wf (h : (Value.obj fields).WF) (hv : lookup fields name = some v) : v.WF := by
  obtain ⟨f, hf, rfl⟩ := Option.map_eq_some_iff.mp hv
  exact fieldsWF_iff.mp h.2 f (List.mem_of_find?_eq_some hf)

/-! ## Snapshots -/

theorem pendingOf_some (h : pendingOf v = .ok (some (fields, pending))) :
    v = .obj fields ∧ isSnapshot fields = true ∧ lookup fields "pending" = some (.obj pending) ∧
      keysAre pending ["phase", "proof"] = true := by
  unfold pendingOf at h
  split at h
  · split at h
    · next hsnap =>
      split at h
      · cases h
      · next hp =>
        split at h
        · next hkeys =>
          cases h
          exact ⟨rfl, hsnap, hp, hkeys⟩
        · cases h
      · cases h
    · cases h
  · cases h

theorem pendingOf_withProof (hsnap : isSnapshot fields = true) (hp : lookup fields "pending" = some (.obj pending))
    (hkeys : keysAre pending ["phase", "proof"] = true) (proof : Value F) :
    pendingOf (withProof fields pending proof) =
      .ok (some (replaceField "pending" (.obj (replaceField "proof" proof pending)) fields, replaceField "proof" proof pending)) := by
  simp [pendingOf, withProof, isSnapshot_replaceField, hsnap, lookup_replaceField, hp, keysAre_replaceField, hkeys]

theorem proof_isSome (hkeys : keysAre pending ["phase", "proof"] = true) : (lookup pending "proof").isSome = true := by
  simp only [keysAre, Bool.and_eq_true, List.all_eq_true] at hkeys
  exact hkeys.1 "proof" (by simp)

/-- The wrapper of an encoded proof. -/
def wrapper (encoded : List Char) : Value F :=
  .obj [("encoded_proof", .str (String.ofList encoded)), ("schema", .str proofSchema)]

theorem wrapper_wf (encoded : List Char) : (wrapper encoded : Value F).WF := by
  have hkeys : ["encoded_proof", "schema"].Pairwise (· < ·) := by decide
  exact ⟨List.pairwise_map.mp hkeys, trivial, trivial, trivial⟩

theorem unwrap_wrapper (encoded : List Char) : unwrap (wrapper encoded : Value F) = .ok encoded := by
  simp [unwrap, wrapper, keysAre, lookup, isStr]

/-- **A bridge value unwraps to what was wrapped.** -/
theorem decodeBridgeValue_encode (hw : v.WF) {w : Value F} (h : encodeBridgeValue host v = .ok w) :
    w.WF ∧ decodeBridgeValue host w = .ok v := by
  simp only [encodeBridgeValue, bind_ok] at h
  obtain ⟨found, hfound, h⟩ := h
  cases found with
  | none =>
    cases h
    refine ⟨hw, ?_⟩
    simp only [decodeBridgeValue, bind_ok, hfound, Except.ok.injEq]
    exact ⟨none, rfl, rfl⟩
  | some both =>
    obtain ⟨fields, pending⟩ := both
    obtain ⟨rfl, hsnap, hp, hkeys⟩ := pendingOf_some hfound
    simp only [bind_ok, exists_unit, pure, Except.pure, Except.ok.injEq] at h
    obtain ⟨hordinary, encoded, hpack, rfl⟩ := h
    obtain ⟨proof, hproof⟩ := Option.isSome_iff_exists.mp (proof_isSome hkeys)
    have hitem : item pending "proof" = proof := by rw [item, hproof, Option.getD_some]
    rw [hitem] at hpack hordinary
    have hpending : (Value.obj pending).WF := lookup_wf hw hp
    have hproofwf : proof.WF := lookup_wf hpending hproof
    refine ⟨replaceField_wf (replaceField_wf (wrapper_wf encoded) hpending) hw, ?_⟩
    have hwrapped : item (replaceField "proof" (wrapper encoded) pending) "proof" = wrapper encoded := by
      rw [item, lookup_replaceField, if_pos rfl, hproof]
      rfl
    -- Both replacements are undone by the ones with the proof itself.
    have hback : withProof (replaceField "pending" (.obj (replaceField "proof" (wrapper encoded) pending)) fields)
        (replaceField "proof" (wrapper encoded) pending) proof = .obj fields := by
      rw [withProof, replaceField_twice, replaceField_twice, replaceField_same hpending.1 hproof, replaceField_same hw.1 hp]
    have hagain := pendingOf_withProof hsnap hp hkeys (wrapper encoded)
    have hgoal : decodeBridgeValue host (withProof fields pending (wrapper encoded)) = .ok (.obj fields) := by
      simp only [decodeBridgeValue, bind_ok, hagain, Except.ok.injEq]
      refine ⟨_, rfl, ?_⟩
      simp only [bind_ok, hwrapped, unwrap_wrapper, exists_unit, Except.ok.injEq]
      exact ⟨encoded, rfl, proof, unpack_pack hproofwf hpack, hordinary, congrArg _ hback⟩
    exact hgoal

/-! ## Envelopes -/

theorem phase_inj : ∀ i < 3, ∀ j < 3, jobPhases.getD i "" = jobPhases.getD j "" → i = j := by decide

/-- A channel's phase is one of its version's. -/
structure Channel.Phased (c : Channel) : Prop where
  bound : c.phaseIndex < 3
  one : c.version = .one → c.phaseIndex = 0

theorem schema_inj : ∀ a b : Version, a.schema = b.schema → a = b
  | .one, .one, _ | .two, .two, _ => rfl

theorem envelope_wf {c : Channel} (hv : v.WF) {env : Value F} (h : envelope host c v = .ok env) : env.WF := by
  have hkeys : ["phase", "schema", "session", "value"].Pairwise (· < ·) := by decide
  unfold envelope at h
  split at h
  · cases h
    exact ⟨List.pairwise_map.mp (List.pairwise_cons.mp hkeys).2, trivial, trivial, hv, trivial⟩
  · simp only [bind_ok, pure, Except.pure, Except.ok.injEq] at h
    obtain ⟨w, hw, rfl⟩ := h
    exact ⟨List.pairwise_map.mp hkeys, trivial, trivial, trivial, (decodeBridgeValue_encode hv hw).1, trivial⟩

theorem isStr_some {s text : String} : isStr (some (Value.str s : Value F)) text = true ↔ s = text := by
  simp [isStr]

/-- What a channel opens is the value sealed under the same version, session and phase. -/
theorem opened_envelope {c d : Channel} (hv : v.WF) {env : Value F} (h : envelope host c v = .ok env) {w : Value F}
    (hopen : opened host d env = .ok w) (hc : c.Phased) (hd : d.Phased) :
    w = v ∧ c.version = d.version ∧ c.phaseIndex = d.phaseIndex := by
  unfold envelope at h
  split at h
  · next hone =>
    cases h
    simp only [opened, bind_ok, require_ok, exists_unit, Bool.and_eq_true] at hopen
    obtain ⟨fields, hfields, ⟨hschema, -⟩, hopen⟩ := hopen
    obtain ⟨heq, -⟩ := keys_ok hfields
    cases heq
    have hversion := schema_inj _ _ (isStr_some.mp hschema)
    have hdone : d.version = .one := hversion.symm.trans hone
    rw [hdone] at hopen
    cases hopen
    exact ⟨rfl, hversion, by rw [hc.one hone, hd.one hdone]⟩
  · next htwo =>
    simp only [bind_ok, pure, Except.pure, Except.ok.injEq] at h
    obtain ⟨sealed', hsealed, rfl⟩ := h
    simp only [opened, bind_ok, require_ok, exists_unit, Bool.and_eq_true] at hopen
    obtain ⟨fields, hfields, ⟨hschema, -⟩, hopen⟩ := hopen
    obtain ⟨heq, -⟩ := keys_ok hfields
    cases heq
    have hversion := schema_inj _ _ (isStr_some.mp hschema)
    have hdtwo : d.version = .two := hversion.symm.trans htwo
    rw [hdtwo] at hopen
    simp only [bind_ok, require_ok, exists_unit] at hopen
    obtain ⟨hphase, hopen⟩ := hopen
    refine ⟨?_, hversion, phase_inj _ hc.bound _ hd.bound (isStr_some.mp hphase)⟩
    have hback := (decodeBridgeValue_encode hv hsealed).2
    exact Except.ok.inj (hopen.symm.trans hback)

theorem opened_ok {c d : Channel} (hv : v.WF) {env : Value F} (h : envelope host c v = .ok env)
    (hversion : c.version = d.version) (hsession : c.session = d.session) (hphase : c.phaseIndex = d.phaseIndex) :
    opened host d env = .ok v := by
  unfold envelope at h
  split at h
  · next hone =>
    cases h
    have hdone : d.version = .one := hversion.symm.trans hone
    simp [opened, keys, keysAre, lookup, isStr, hone, hdone, hsession, item, bind, Except.bind, require, pure, Except.pure]
  · next htwo =>
    simp only [bind_ok, pure, Except.pure, Except.ok.injEq] at h
    obtain ⟨w, hw, rfl⟩ := h
    have hdtwo : d.version = .two := hversion.symm.trans htwo
    have hback := (decodeBridgeValue_encode hv hw).2
    simp [opened, keys, keysAre, lookup, isStr, htwo, hdtwo, hsession, hphase, item, bind, Except.bind, require, hback]

end LocalHand.QuotaBridge
