/-
Texts below roots, and their rebasing: the root a text lies below gives way to another, and
what follows it stays. Roots that lie apart leave each text at most one root, so that the
order they are tried in does not matter.
-/
import Mathlib.Data.List.Basic

namespace Rebase

variable {α ι : Type} (sep : α)

/-- What may follow a root: nothing, or a separator and more. -/
def Suffix (suffix : List α) : Prop := suffix = [] ∨ ∃ rest, suffix = sep :: rest

/-- `text` is `root`, or lies below it. -/
def Under (root text : List α) : Prop := ∃ suffix, Suffix sep suffix ∧ text = root ++ suffix

/-- No root lies below another. -/
def Apart (roots : ι → List α) : Prop := ∀ i j, Under sep (roots i) (roots j) → i = j

/-- `text'` is `text` with its root replaced, where it has one. -/
def Rebased (source target : ι → List α) (text text' : List α) : Prop :=
  (∃ i suffix, Suffix sep suffix ∧ text = source i ++ suffix ∧ text' = target i ++ suffix) ∨
    ((∀ i, ¬ Under sep (source i) text) ∧ text' = text)

variable {sep} {source target : ι → List α} {i j : ι}

theorem suffix_of_append {s t u : List α} (h : s ++ t = u) (hu : Suffix sep u) : s = [] ∨ Suffix sep s := by
  cases s with
  | nil => exact .inl rfl
  | cons a s =>
    obtain rfl | ⟨rest, rfl⟩ := hu
    · cases h
    · obtain ⟨rfl, -⟩ := List.cons.inj h
      exact .inr (.inr ⟨s, rfl⟩)

/-- Of two roots of one text, one lies below the other. -/
theorem Under.linear {r s text : List α} (hr : Under sep r text) (hs : Under sep s text) : Under sep r s ∨ Under sep s r := by
  obtain ⟨u, hu, rfl⟩ := hr
  obtain ⟨v, hv, htext⟩ := hs
  rcases List.append_eq_append_iff.mp htext with ⟨w, rfl, hw⟩ | ⟨w, rfl, hw⟩
  · refine .inl ⟨w, ?_, rfl⟩
    exact (suffix_of_append hw.symm hu).elim .inl id
  · refine .inr ⟨w, ?_, rfl⟩
    exact (suffix_of_append hw.symm hv).elim .inl id

theorem Apart.unique (h : Apart sep source) {text : List α} (hi : Under sep (source i) text) (hj : Under sep (source j) text) : i = j :=
  (hi.linear hj).elim (h i j) fun hji => (h j i hji).symm

/-- Where the roots lie apart, a text is rebased to one text only. -/
theorem Rebased.unique (h : Apart sep source) {text a b : List α} (ha : Rebased sep source target text a)
    (hb : Rebased sep source target text b) : a = b := by
  obtain ⟨i, u, hu, htext, rfl⟩ | ⟨hno, rfl⟩ := ha
  · obtain ⟨j, v, hv, htext', rfl⟩ | ⟨hno, -⟩ := hb
    · obtain rfl := h.unique ⟨u, hu, htext⟩ ⟨v, hv, htext'⟩
      rw [List.append_cancel_left (htext.symm.trans htext')]
    · exact absurd ⟨u, hu, htext⟩ (hno i)
  · obtain ⟨j, v, hv, htext', -⟩ | ⟨-, rfl⟩ := hb
    · exact absurd ⟨v, hv, htext'⟩ (hno j)
    · rfl

/-- Roots replaced by themselves move nothing. -/
theorem Rebased.refl (text : List α) : Rebased sep source source text text := by
  by_cases h : ∃ i, Under sep (source i) text
  · obtain ⟨i, suffix, hsuffix, htext⟩ := h
    exact .inl ⟨i, suffix, hsuffix, htext, htext⟩
  · exact .inr ⟨fun i hi => h ⟨i, hi⟩, rfl⟩

/-- Where the new roots lie apart too, no two texts below roots are rebased to one. -/
theorem Rebased.injective (h : Apart sep target) {s t text : List α} (hs : Rebased sep source target s text) (ht : Rebased sep source target t text)
    (hi : Under sep (source i) s) (hj : Under sep (source j) t) : s = t := by
  obtain ⟨i', u, hu, rfl, hsu⟩ | ⟨hno, -⟩ := hs
  · obtain ⟨j', v, hv, rfl, htv⟩ | ⟨hno, -⟩ := ht
    · obtain rfl := h.unique ⟨u, hu, hsu⟩ ⟨v, hv, htv⟩
      rw [List.append_cancel_left (hsu.symm.trans htv)]
    · exact absurd hj (hno j)
  · exact absurd hi (hno i)

section

variable [DecidableEq α]

variable (sep) in
def under (root text : List α) : Bool := text = root || (root ++ [sep]).isPrefixOf text

theorem under_iff {root text : List α} : under sep root text = true ↔ Under sep root text := by
  rw [under, Bool.or_eq_true, decide_eq_true_eq, List.isPrefixOf_iff_prefix]
  constructor
  · rintro (rfl | ⟨rest, rfl⟩)
    · exact ⟨[], .inl rfl, (List.append_nil _).symm⟩
    · exact ⟨sep :: rest, .inr ⟨rest, rfl⟩, by rw [List.append_assoc]; rfl⟩
  · rintro ⟨suffix, rfl | ⟨rest, rfl⟩, rfl⟩
    · exact .inl (List.append_nil _)
    · exact .inr ⟨rest, by rw [List.append_assoc]; rfl⟩

variable (sep) in
/-- The first root of the order that the text lies below is replaced. -/
def rebase (order : List ι) (source target : ι → List α) (text : List α) : List α :=
  match order.find? fun i => under sep (source i) text with
  | some i => target i ++ text.drop (source i).length
  | none => text

/-- An order with every root rebases. -/
theorem rebase_rebased {order : List ι} (horder : ∀ i, i ∈ order) (text : List α) :
    Rebased sep source target text (rebase sep order source target text) := by
  rw [rebase]
  cases hfind : order.find? fun i => under sep (source i) text with
  | some i =>
    have hunder : under sep (source i) text = true := List.find?_some (p := fun i => under sep (source i) text) hfind
    obtain ⟨suffix, hsuffix, rfl⟩ := under_iff.mp hunder
    refine .inl ⟨i, suffix, hsuffix, rfl, ?_⟩
    show target i ++ (source i ++ suffix).drop (source i).length = target i ++ suffix
    rw [List.drop_left]
  | none =>
    refine .inr ⟨fun i hi => ?_, rfl⟩
    exact List.find?_eq_none.mp hfind i (horder i) (under_iff.mpr hi)

end

end Rebase
