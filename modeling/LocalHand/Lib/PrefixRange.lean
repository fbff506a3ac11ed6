/-
A range query that selects a prefix: in dictionary order, with `b` the next
letter after `a`, the words from `p ++ [a]` up to `p ++ [b]` are the words that
start with `p ++ [a]`.
-/
import Mathlib.Order.Lex
import Mathlib.Data.String.Basic

namespace PrefixRange

variable {α : Type _} [LinearOrder α]

/-- Words that start with `p ++ [a]` are not below it. -/
theorem not_lt_of_starts (p t : List α) (a : α) : ¬ p ++ a :: t < p ++ [a] := by
  induction p with
  | nil => simp [List.cons_lt_cons_iff]
  | cons c p ih => simpa [List.cons_lt_cons_iff] using ih

theorem lt_of_starts (p t : List α) {a b : α} (h : a < b) : p ++ a :: t < p ++ [b] := by
  induction p with
  | nil => simp [List.cons_lt_cons_iff, h]
  | cons c p ih => simpa [List.cons_lt_cons_iff] using ih

theorem prefix_of_range {a b : α} (hnext : ∀ c, ¬ c < a → c < b → c = a) (p : List α) {s : List α}
    (hlo : ¬ s < p ++ [a]) (hhi : s < p ++ [b]) : ∃ t, s = p ++ a :: t := by
  induction p generalizing s with
  | nil =>
    cases s with
    | nil => exact absurd (List.nil_lt_cons a []) hlo
    | cons c t =>
      simp only [List.nil_append, List.cons_lt_cons_iff, List.not_lt_nil, and_false, or_false] at hlo hhi
      exact ⟨t, by rw [hnext c hlo hhi]; rfl⟩
  | cons d p ih =>
    cases s with
    | nil => exact absurd (List.nil_lt_cons d _) hlo
    | cons c t =>
      simp only [List.cons_append, List.cons_lt_cons_iff, not_or, not_and] at hlo hhi
      rcases hhi with hlt | ⟨rfl, hhi⟩
      · exact absurd hlt hlo.1
      · obtain ⟨t', rfl⟩ := ih (hlo.2 rfl) hhi
        exact ⟨t', rfl⟩

/-- The range selects exactly the prefix. -/
theorem range_iff {a b : α} (hab : a < b) (hnext : ∀ c, ¬ c < a → c < b → c = a) (p s : List α) :
    (¬ s < p ++ [a] ∧ s < p ++ [b]) ↔ ∃ t, s = p ++ a :: t :=
  ⟨fun h => prefix_of_range hnext p h.1 h.2,
    fun ⟨t, h⟩ => h ▸ ⟨not_lt_of_starts p t a, lt_of_starts p t hab⟩⟩

end PrefixRange
