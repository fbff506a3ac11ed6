/-
Lists in which everything stands after what it is related to, as a list of units in
the order of their dependencies; and finite sets without a least element, which have a
cycle.
-/
import Mathlib.Data.Fintype.Card
import Mathlib.Data.List.Basic
import Mathlib.Data.Set.Finite.List
import Mathlib.Logic.Relation
import Mathlib.Order.WellFounded

namespace Layers

open Relation

variable {α : Type} {r : α → α → Prop} {l : List α}

/-- Everything stands after what it is related to. -/
def Layered (r : α → α → Prop) (l : List α) : Prop := ∀ a u b, l = a ++ u :: b → ∀ v, r u v → v ∈ a

theorem layered_nil : Layered r [] := fun a u b h => by simp at h

/-- A layer of what is related to nothing that is not there. -/
theorem Layered.append (h : Layered r l) {layer : List α} (hlayer : ∀ u ∈ layer, ∀ v, r u v → v ∈ l) : Layered r (l ++ layer) := by
  intro a u b heq v hv
  rcases List.append_eq_append_iff.mp heq with ⟨c, rfl, hc⟩ | ⟨c, rfl, hc⟩
  · exact List.mem_append_left _ (hlayer u (by simp [hc]) v hv)
  · cases c with
    | nil =>
      have hmem : u ∈ layer := by
        rw [List.nil_append] at hc
        simp [← hc]
      simpa using hlayer u hmem v hv
    | cons x c =>
      obtain ⟨rfl, -⟩ := List.cons.inj hc
      exact h a u c rfl v hv

variable [DecidableEq α]

theorem Layered.idxOf_lt (h : Layered r l) {u v : α} (hu : u ∈ l) (hv : r u v) : l.idxOf v < l.idxOf u := by
  obtain ⟨a, b, rfl, hnot⟩ := List.eq_append_cons_of_mem hu
  have hmem := h a u b rfl v hv
  rw [List.idxOf_append_of_mem hmem, List.idxOf_append_of_notMem hnot, List.idxOf_cons_self, Nat.add_zero]
  exact List.idxOf_lt_length_of_mem hmem

/-- What a list layers has no cycle. -/
theorem Layered.acyclic (h : Layered r l) (hall : ∀ u v, r u v → u ∈ l) (u : α) : ¬ TransGen r u u := by
  have hlt : ∀ v, TransGen r u v → l.idxOf v < l.idxOf u := by
    intro v hv
    induction hv with
    | single hv => exact h.idxOf_lt (hall _ _ hv) hv
    | tail _ hv ih => exact Nat.lt_trans (h.idxOf_lt (hall _ _ hv) hv) ih
  exact fun hcycle => Nat.lt_irrefl _ (hlt u hcycle)

omit [DecidableEq α] in
/-- Where each of finitely many is related to another of them, there is a cycle. -/
theorem cycle_of_stuck {s : List α} {x : α} (hx : x ∈ s) (hstuck : ∀ u ∈ s, ∃ v ∈ s, r u v) : ∃ u, TransGen r u u := by
  by_contra hacyclic
  let below : {u // u ∈ s} → {u // u ∈ s} → Prop := fun a b => TransGen r b.1 a.1
  have : Finite {u // u ∈ s} := (List.finite_toSet s).to_subtype
  have : IsTrans _ below := ⟨fun _ _ _ hab hbc => hbc.trans hab⟩
  have : Std.Irrefl below := ⟨fun a ha => hacyclic ⟨a.1, ha⟩⟩
  have hwf : WellFounded below := Finite.wellFounded_of_trans_of_irrefl below
  obtain ⟨least, -, hleast⟩ := hwf.has_min Set.univ ⟨⟨x, hx⟩, trivial⟩
  obtain ⟨v, hv, hrel⟩ := hstuck least.1 least.2
  exact hleast ⟨v, hv⟩ trivial (TransGen.single hrel)

end Layers
