/-
Histories that only gain events at their end: a law of every event and of those before it.
-/
import Mathlib.Data.List.Induction

namespace History

variable {α : Type}

/-- `J before k` holds of every event of the history with what is before it. -/
def Lawful (J : List α → α → Prop) (l : List α) : Prop := ∀ before k after, l = before ++ k :: after → J before k

/-- Where a history that gained an event is cut. -/
theorem snoc_cut {l before after : List α} {k a : α} (h : l ++ [k] = before ++ a :: after) :
    (k = a ∧ l = before ∧ after = []) ∨ ∃ after', after = after' ++ [k] ∧ l = before ++ a :: after' := by
  rcases List.eq_nil_or_concat after with rfl | ⟨after', last, rfl⟩
  · obtain ⟨hl, hk⟩ := List.append_inj' h rfl
    exact .inl ⟨List.head_eq_of_cons_eq hk, hl, rfl⟩
  · rw [List.concat_eq_append, ← List.cons_append, ← List.append_assoc] at h
    obtain ⟨hl, hk⟩ := List.append_inj' h rfl
    exact .inr ⟨after', by rw [List.concat_eq_append, List.head_eq_of_cons_eq hk], hl⟩

variable {J : List α → α → Prop}

theorem Lawful.nil : Lawful J [] := fun before k after h => by simp at h

theorem Lawful.snoc {l : List α} (h : Lawful J l) {k : α} (hk : J l k) : Lawful J (l ++ [k]) := by
  intro before a after hcut
  rcases snoc_cut hcut with ⟨rfl, rfl, -⟩ | ⟨after', -, hl⟩
  · exact hk
  · exact h before a after' hl

theorem Lawful.of_mem {l : List α} (h : Lawful J l) {k : α} (hk : k ∈ l) : ∃ before, before <+: l ∧ J before k := by
  obtain ⟨before, after, rfl⟩ := List.append_of_mem hk
  exact ⟨before, List.prefix_append _ _, h before k after rfl⟩

/-- An event that no earlier one equals happens once. -/
theorem Lawful.count_le_one [DecidableEq α] {l : List α} (h : Lawful J l) {k : α} (hk : ∀ before, J before k → k ∉ before) : l.count k ≤ 1 := by
  induction l using List.reverseRecOn with
  | nil => simp
  | append_singleton l a ih =>
    have hl : Lawful J l := fun before b after hcut => h before b (after ++ [a]) (by rw [hcut, List.append_assoc, List.cons_append])
    rw [List.count_append]
    by_cases hak : a = k
    · subst hak
      have hnot : a ∉ l := hk l (h l a [] rfl)
      simp [List.count_eq_zero.mpr hnot]
    · have hzero : List.count k [a] = 0 := List.count_eq_zero.mpr (by simpa using Ne.symm hak)
      have := ih hl
      omega

end History
