/-
A worker while nothing outside fails: each read and write is made, each fetch gives
an admitted tree and each push is accepted. Every step then returns, where what it
reads is there and what it writes fits.
-/
import LocalHand.Mailbox.Envelope

namespace LocalHand.Mailbox

open PyJson Program Directory
open Framing (Bytes)

variable {F R : Type}

/-- From `P` the steps return, with `Q`. -/
abbrev Passes {α : Type} (P : World F R → Prop) (m : Op F R α) (Q : α → World F R → Prop) : Prop := Spec P m Q fun _ _ => False

/-- No input and no output fails, and no fetch and no push does; a fetch gives one of the trees that are `served`. -/
structure Quiet (env : Env F R) (served : Tree → Prop) : Prop where
  done : ∀ n, env.fate n = .done
  fetched : ∀ n r, ∃ tree r', env.git.fetch n r = (.ok tree, r') ∧ served tree
  accepted : ∀ n r tree, ∃ r', env.git.push n r tree = (.accepted, r')

variable {host : JsonHost F} {env : Env F R} {served : Tree → Prop} {P : World F R → Prop}

theorem passes_ok {α β : Type} {x : Except Failure α} {a : α} (h : x = .ok a) {f : α → Op F R β} {Q : β → World F R → Prop}
    (hf : Passes P (f a) Q) : Passes P (lift x >>= f) Q := by
  rw [h]
  exact Spec.bind (Q := fun b w => P w ∧ b = a) (Spec.ret fun _ hw => ⟨hw, rfl⟩) fun b w hb => by
    obtain ⟨hw, rfl⟩ := hb
    exact hf w hw

/-- What stops with a `LocalHandError` only returns when it is caught. -/
theorem caught_passes {α : Type} {m : Op F R α} {Q : α → World F R → Prop} {T : Failure → World F R → Prop}
    (h : Spec P m Q fun stop w => ∃ failure, stop = .failed failure ∧ T failure w) :
    Passes P (caught m) fun r w => match r with
      | .ok a => Q a w
      | .error failure => T failure w := by
  refine Spec.handle (Spec.bind h fun a => Spec.ret fun _ hw => hw) fun stop => ?_
  rintro w ⟨failure, rfl, hw⟩
  exact hw

section

variable (quiet : Quiet env served)
include quiet

theorem reading_passes (hP : Timeless P) (stop : Stop) : Passes P (reading env stop) fun _ => P := by
  refine Spec.bind (Q := fun fate w => P w ∧ fate = .done) ?_ fun fate => ?_
  · exact fun w hw => ⟨hP w (w.clock + 1) hw, quiet.done w.clock⟩
  · rintro w ⟨hw, rfl⟩
    exact hw

theorem writing_passes (hP : Timeless P) (before after : Stop) {change : Bool → World F R → World F R} {Q : World F R → Prop}
    (hdone : ∀ w, P w → Q (change true w)) : Passes P (writing env before after change) fun _ => Q := by
  refine Spec.bind (Q := fun fate w => P w ∧ fate = .done) ?_ fun fate => ?_
  · exact fun w hw => ⟨hP w (w.clock + 1) hw, quiet.done w.clock⟩
  · rintro w ⟨hw, rfl⟩
    exact hdone w hw

theorem targetLexists_passes (hP : Timeless P) (dir : World F R → Dir Bytes) (name : String) :
    Passes P (targetLexists env dir name) fun b w => P w ∧ b = (dir w).has name := by
  refine Spec.bind (reading_passes quiet hP _) fun _ => ?_
  exact Spec.bind (Q := fun w' w => P w ∧ w' = w) (Spec.read fun _ h => ⟨h, rfl⟩) fun w' => Spec.ret fun w h => ⟨h.1, h.2 ▸ rfl⟩

/-- A file that is there and not too large is read. -/
theorem read_passes (hP : Timeless P) {dir : World F R → Dir Bytes} {name : String} {limit : Nat} (code : String)
    (hfile : ∀ w, P w → ∃ raw, (dir w).get name = some raw ∧ raw.length ≤ limit) :
    Passes P (readRegularFileBounded env dir name limit code) fun raw w => P w ∧ (dir w).get name = some raw ∧ raw.length ≤ limit := by
  refine Spec.bind (reading_passes quiet hP _) fun _ => ?_
  refine Spec.bind (Q := fun w' w => P w ∧ w' = w) (Spec.read fun _ h => ⟨h, rfl⟩) fun w' => ?_
  rintro w ⟨hw, rfl⟩
  obtain ⟨raw, hraw, hlen⟩ := hfile w' hw
  have hcheck : check (decide (raw.length ≤ limit)) (indeterminate code ("file exceeds " ++ toString limit ++ " bytes: " ++ name)) =
      .ok () := by simpa using hlen
  rw [hraw]
  dsimp only
  rw [hcheck]
  exact ⟨hw, hraw, hlen⟩

/-- What a file that is there is refused for. -/
def Refusal (name : String) (limit : Nat) (stop : Stop) : Prop :=
  ∃ failure, stop = .failed failure ∧ (failure.message = "file exceeds " ++ toString limit ++ " bytes: " ++ name ∨
    failure.message = "invalid UTF-8/JSON object: " ++ name)

/-- A file that is there is read as JSON, or it is refused. -/
theorem loadJson_passes (hP : Timeless P) {dir : World F R → Dir Bytes} {name : String} (limit : Nat) (code : String)
    (hfile : ∀ w, P w → (dir w).has name = true) :
    Spec P (loadJsonBounded host.toHost env dir name limit code) (fun value w => P w ∧ Reads host.toHost (dir w) name limit value)
      (fun stop w => P w ∧ Refusal name limit stop) := by
  have hread : Spec P (readRegularFileBounded env dir name limit code) (fun raw w => P w ∧ (dir w).get name = some raw ∧ raw.length ≤ limit)
      (fun stop w => P w ∧ Refusal name limit stop) := by
    refine Spec.bind ((reading_passes quiet hP _).weaken (fun _ h => h) (fun _ _ h => h) fun _ _ h => h.elim) fun _ => ?_
    refine Spec.bind (Q := fun w' w => P w ∧ w' = w) (Spec.read fun _ h => ⟨h, rfl⟩) fun w' => ?_
    rintro w ⟨hw, rfl⟩
    obtain ⟨raw, hraw⟩ := has_iff.mp (hfile w' hw)
    rw [hraw]
    dsimp only
    by_cases hlen : raw.length ≤ limit
    · rw [show check (decide (raw.length ≤ limit)) _ = .ok () by simpa using hlen]
      exact ⟨hw, hraw, hlen⟩
    · rw [show check (decide (raw.length ≤ limit)) _ = .error _ by rw [check, if_neg (by simpa using hlen)]]
      exact ⟨hw, _, rfl, .inl rfl⟩
  refine Spec.bind hread fun raw => ?_
  split
  · next value hvalue => exact Spec.ret fun w h => ⟨h.1, raw, h.2.1, h.2.2, hvalue⟩
  · exact Spec.raise fun w h => ⟨h.1, _, rfl, .inr rfl⟩

/-- A file of JSON within its limit is loaded. -/
theorem loads_passes (hP : Timeless P) {dir : World F R → Dir Bytes} {name : String} {limit : Nat} (code : String)
    (hfile : ∀ w, P w → ∃ value, Reads host.toHost (dir w) name limit value) :
    Passes P (loadJsonBounded host.toHost env dir name limit code) fun value w => P w ∧ Reads host.toHost (dir w) name limit value := by
  refine Spec.bind (read_passes quiet hP code fun w hw => ?_) fun raw => ?_
  · obtain ⟨_, raw, hraw, hlen, -⟩ := hfile w hw
    exact ⟨raw, hraw, hlen⟩
  · rintro w ⟨hw, hraw, hlen⟩
    obtain ⟨value, raw', hraw', -, hload⟩ := hfile w hw
    rw [hraw] at hraw'
    cases hraw'
    rw [hload]
    exact ⟨hw, raw, hraw, hlen, hload⟩

theorem writeJson_passes (hP : Timeless P) (place : Place) (name : String) {value : Value F} {data : Bytes} {limit : Nat} (code : String)
    {Q : World F R → Prop} (hprint : host.print value = some data) (hlen : data.length ≤ limit)
    (hdone : ∀ w, P w → Q ((w.with place ((w.place place).put name data)).mark (.wrote place name ((w.place place).get name) data true))) :
    Passes P (writeJsonAtomic host.toHost env place name value limit code) fun _ => Q := by
  unfold writeJsonAtomic jsonBytes
  rw [hprint, Option.map_some, check, if_pos (by simpa using hlen)]
  exact passes_ok rfl (writing_passes quiet hP _ _ hdone)

theorem unlink_passes (hP : Timeless P) (name : String) {Q : World F R → Prop} (hfile : ∀ w, P w → w.outbox.has name = true)
    (hdone : ∀ w raw, P w → Q ({ w with outbox := w.outbox.remove name }.mark (.unlinked name raw))) :
    Passes P (unlink env name) fun _ => Q := by
  refine Spec.bind (Q := fun w' w => P w ∧ w' = w) (Spec.read fun _ h => ⟨h, rfl⟩) fun w' => ?_
  rintro w ⟨hw, rfl⟩
  obtain ⟨raw, hraw⟩ := has_iff.mp (hfile w' hw)
  rw [hraw]
  exact writing_passes quiet hP _ _ (fun v hv => hdone v raw hv) w' hw

theorem replace_passes (hP : Timeless P) (name dest : String) {Q : World F R → Prop} (hfile : ∀ w, P w → w.outbox.has name = true)
    (hdone : ∀ w raw, P w →
      Q ({ w with outbox := w.outbox.remove name, quarantine := w.quarantine.put dest raw }.mark (.quarantined name dest raw))) :
    Passes P (replace env name dest) fun _ => Q := by
  refine Spec.bind (Q := fun w' w => P w ∧ w' = w) (Spec.read fun _ h => ⟨h, rfl⟩) fun w' => ?_
  rintro w ⟨hw, rfl⟩
  obtain ⟨raw, hraw⟩ := has_iff.mp (hfile w' hw)
  rw [hraw]
  exact writing_passes quiet hP _ _ (fun v hv => hdone v raw hv) w' hw

theorem sync_passes {Q : World F R → Prop}
    (hQ : ∀ w outside tree, P w → served tree → Q ({ w with clock := w.clock + 1, outside := outside, tree := tree }.mark (.synced tree))) :
    Passes P (syncMailbox env) fun _ => Q := by
  intro w hw
  obtain ⟨tree, outside, hfetch, htree⟩ := quiet.fetched w.clock w.outside
  rw [syncMailbox, from_bind_ok (from_get w), hfetch]
  dsimp only
  rw [from_bind_ok (from_set _ _)]
  exact hQ w outside tree hw htree

theorem push_passes {Q : World F R → Prop}
    (hQ : ∀ w outside, P w → Q ({ w with clock := w.clock + 1, outside := outside }.mark (.pushed w.tree .accepted))) :
    Passes P (pushMailbox env) fun answer w => Q w ∧ answer = .accepted := by
  intro w hw
  obtain ⟨outside, hpush⟩ := quiet.accepted w.clock w.outside w.tree
  rw [pushMailbox, from_bind_ok (from_get w), hpush]
  dsimp only
  rw [from_bind_ok (from_set _ _)]
  exact ⟨hQ w outside hw, rfl⟩

/-! ## Quarantine -/

omit quiet in
theorem repr_injective {n m : Nat} (h : toString n = toString m) : n = m := by
  have hdigits : Nat.toDigits 10 n = Nat.toDigits 10 m := by
    have hlist := congrArg String.toList h
    rwa [show toString n = n.repr from rfl, show toString m = m.repr from rfl, Nat.toList_repr, Nat.toList_repr] at hlist
  rw [← Nat.ofDigitChars_ten_toDigits (n := n), ← Nat.ofDigitChars_ten_toDigits (n := m), hdigits]

omit quiet in
/-- More names are tried than there are files. -/
theorem free_candidate (dir : Dir Bytes) (stem suffix : String) :
    ∃ name ∈ candidates stem suffix (dir.entries.length + 1), dir.has name = false := by
  by_contra hall
  push Not at hall
  have hnodup : ((List.range (dir.entries.length + 1)).map fun i => stem ++ "." ++ toString (i + 1) ++ suffix).Nodup := by
    refine List.Nodup.map (fun i j hij => ?_) List.nodup_range
    have htext := congrArg String.toList hij
    simp only [String.toList_append, List.append_assoc, List.append_cancel_left_eq, List.append_cancel_right_eq] at htext
    exact Nat.succ_injective (repr_injective (String.toList_injective htext))
  have hsubset : ((List.range (dir.entries.length + 1)).map fun i => stem ++ "." ++ toString (i + 1) ++ suffix) ⊆ dir.entries.map (·.1) := by
    intro name hname
    have htaken : dir.has name = true := by simpa using hall name (List.mem_cons_of_mem _ hname)
    obtain ⟨content, hcontent⟩ := has_iff.mp htaken
    exact List.mem_map.mpr ⟨_, get_iff_mem.mp hcontent, rfl⟩
  have hlen := (List.subperm_of_subset hnodup hsubset).length_le
  rw [List.length_map, List.length_range, List.length_map] at hlen
  omega

theorem freeName_passes (hP : Timeless P) {names : List String} (hfree : ∀ w, P w → ∃ name ∈ names, w.quarantine.has name = false) :
    Passes P (freeName env names) fun _ => P := by
  induction names generalizing P with
  | nil =>
    intro w hw
    obtain ⟨name, hname, -⟩ := hfree w hw
    cases hname
  | cons name rest ih =>
    refine Spec.bind (targetLexists_passes quiet hP _ _) fun taken => ?_
    cases taken with
    | false => exact Spec.ret fun w h => h.1
    | true =>
      refine (ih (fun w n h => ⟨hP w n h.1, h.2⟩) fun w h => ?_).weaken (fun _ h => h) (fun _ _ h => h.1) fun _ _ h => h
      obtain ⟨free, hmem, hnot⟩ := hfree w h.1
      rcases List.mem_cons.mp hmem with rfl | hmem
      · rw [hnot] at h
        exact absurd h.2 (by decide)
      · exact ⟨free, hmem, hnot⟩

theorem candidates_passes (hP : Timeless P) (stem suffix : String) (q : Dir Bytes) :
    Passes (fun w => P w ∧ w.quarantine = q) (freeName env (candidates stem suffix (q.entries.length + 1)))
      fun _ w => P w ∧ w.quarantine = q := by
  refine freeName_passes quiet (fun w n h => ⟨hP w n h.1, h.2⟩) fun w h => ?_
  rw [h.2]
  exact free_candidate _ _ _

theorem quarantineFile_passes (hP : Timeless P) (name reason : String) {Q : World F R → Prop} (hfile : ∀ w, P w → w.outbox.has name = true)
    (hdone : ∀ w dest raw, P w →
      Q ({ w with outbox := w.outbox.remove name, quarantine := w.quarantine.put dest raw }.mark (.quarantined name dest raw))) :
    Passes P (quarantineLocalOutboxFile host.toHost env name reason) fun _ => Q := by
  refine Spec.bind (Q := fun w' w => P w ∧ w.quarantine = w'.quarantine) (Spec.read fun _ h => ⟨h, rfl⟩) fun w' => ?_
  refine Spec.bind (candidates_passes quiet hP _ _ _) fun dest => ?_
  exact replace_passes quiet (fun w n h => ⟨hP w n h.1, h.2⟩) name dest (fun w h => hfile w h.1) fun w raw h => hdone w dest raw h.1

omit quiet in
theorem digest_passes {value : Value F} {digest : String} (h : host.toHost.digest value = some digest) :
    Passes P (resultDigest host.toHost value) fun d w => P w ∧ d = digest := by
  rw [resultDigest, h]
  exact Spec.ret fun w hw => ⟨hw, rfl⟩

theorem quarantineResult_passes (hP : Timeless P) (name : String) {value remote : Value F} {digest digest' : String}
    (hvalue : host.toHost.digest value = some digest) (hremote : host.toHost.digest remote = some digest') {Q : World F R → Prop}
    (hfile : ∀ w, P w → w.outbox.has name = true)
    (hdone : ∀ w dest raw, P w →
      Q ({ w with outbox := w.outbox.remove name, quarantine := w.quarantine.put dest raw }.mark (.quarantined name dest raw))) :
    Passes P (quarantineLocalResultConflict host.toHost env name value remote) fun _ => Q := by
  refine Spec.bind ((digest_passes hvalue).weaken (fun _ h => h) (fun _ _ h => h.1) fun _ _ h => h) fun d => ?_
  refine Spec.bind ((digest_passes hremote).weaken (fun _ h => h) (fun _ _ h => h.1) fun _ _ h => h) fun d' => ?_
  refine Spec.bind (Q := fun w' w => P w ∧ w.quarantine = w'.quarantine) (Spec.read fun _ h => ⟨h, rfl⟩) fun w' => ?_
  refine Spec.bind (candidates_passes quiet hP _ _ _) fun dest => ?_
  exact replace_passes quiet (fun w n h => ⟨hP w n h.1, h.2⟩) name dest (fun w h => hfile w h.1) fun w raw h => hdone w dest raw h.1

end

end LocalHand.Mailbox
