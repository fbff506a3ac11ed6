/-
The bytes of file actions: a plan's budgets add up to all it may use, and what an
action retains, its state directories and its namespaces beside the target, stays
within its budget.
-/
import LocalHand.Deploy.FileSteps
import LocalHand.Lib.Run
import Mathlib.Algebra.BigOperators.Group.Finset.Basic
import Mathlib.Algebra.Order.BigOperators.Group.Finset
import Mathlib.Algebra.BigOperators.Group.Finset.Piecewise

namespace LocalHand.Files

open Directory Program
open Framing (Bytes)

/-! ## Plans -/

section Plans

variable {host : Host}

/-- A turn of the loop reserves what its entry needs. -/
theorem planOne_reserves {w : World} {limits : Limits} {ownerUid : Nat} {p p' : Planning} {spec : FileSpec} {e : Entry}
    (h : planOne host w limits ownerUid p spec = .ok (e, p')) :
    e.preparationBudgetBytes = reservation (sizeOf e.original) e.candidateSize ∧
      e.preparationBudgetBytes + p'.remaining = p.remaining := by
  simp only [planOne] at h
  obtain ⟨target, -, h⟩ := bind_ok_iff.mp h
  obtain ⟨source, -, h⟩ := bind_ok_iff.mp h
  obtain ⟨-, -, h⟩ := bind_ok_iff.mp h
  obtain ⟨parent, -, h⟩ := bind_ok_iff.mp h
  obtain ⟨original, -, h⟩ := bind_ok_iff.mp h
  obtain ⟨-, -, h⟩ := bind_ok_iff.mp h
  obtain ⟨source, -, h⟩ := bind_ok_iff.mp h
  obtain ⟨attributes, -, h⟩ := bind_ok_iff.mp h
  obtain ⟨_, hfits, h⟩ := bind_ok_iff.mp h
  cases h
  refine ⟨rfl, ?_⟩
  unfold require at hfits
  split at hfits
  · next hle =>
    have hle := of_decide_eq_true hle
    simp only
    omega
  · cases hfits

theorem planFrom_reserves {w : World} {limits : Limits} {ownerUid : Nat} {specs : List FileSpec} {p : Planning}
    {entries : List Entry} {remaining : Nat} (h : planFrom host w limits ownerUid p specs = .ok (entries, remaining)) :
    entries.length = specs.length ∧ (∀ e ∈ entries, e.preparationBudgetBytes = reservation (sizeOf e.original) e.candidateSize) ∧
      (entries.map (·.preparationBudgetBytes)).sum + remaining = p.remaining := by
  induction specs generalizing p entries remaining with
  | nil =>
    cases h
    exact ⟨rfl, nofun, Nat.zero_add _⟩
  | cons spec specs ih =>
    obtain ⟨⟨e, p'⟩, hone, h⟩ := bind_ok_iff.mp h
    obtain ⟨⟨rest, remaining'⟩, hrest, h⟩ := bind_ok_iff.mp h
    cases h
    obtain ⟨hbudget, hremaining⟩ := planOne_reserves hone
    obtain ⟨hlen, hall, hsum⟩ := ih hrest
    refine ⟨by rw [List.length_cons, List.length_cons, hlen], ?_, ?_⟩
    · intro e' he'
      obtain rfl | he' := List.mem_cons.mp he'
      · exact hbudget
      · exact hall e' he'
    · rw [List.map_cons, List.sum_cons]
      omega

theorem distribute_sum (count remaining index : Nat) (entries : List Entry) :
    ((distribute count remaining index entries).map (·.preparationBudgetBytes)).sum +
        min index (remaining % count) =
      (entries.map (·.preparationBudgetBytes)).sum + entries.length * (remaining / count) +
        min (index + entries.length) (remaining % count) := by
  induction entries generalizing index with
  | nil => simp [distribute]
  | cons e entries ih =>
    have hrest := ih (index + 1)
    simp only [distribute, List.map_cons, List.sum_cons, List.length_cons, Nat.add_mul, Nat.one_mul]
    split <;> omega

/-- Each entry keeps its reservation and gains a share. -/
theorem distribute_mem {count remaining index : Nat} {entries : List Entry} {e : Entry}
    (h : e ∈ distribute count remaining index entries) : ∃ e' ∈ entries, e'.preparationBudgetBytes ≤ e.preparationBudgetBytes ∧
      e = { e' with preparationBudgetBytes := e.preparationBudgetBytes } := by
  induction entries generalizing index with
  | nil => cases h
  | cons e' entries ih =>
    obtain rfl | h := List.mem_cons.mp h
    · exact ⟨e', List.mem_cons_self, Nat.le_add_right _ _, rfl⟩
    · obtain ⟨e'', he'', hsame⟩ := ih h
      exact ⟨e'', List.mem_cons_of_mem _ he'', hsame⟩

/-- The budgets of a plan add up to its bytes, and each covers its reservation. -/
theorem planFiles_budgets {w : World} {specs : List FileSpec} {limits : Limits} {ownerUid : Nat} {plan : Plan}
    (h : planFiles host w specs limits ownerUid = .ok plan) (hne : specs ≠ []) :
    (plan.files.map (·.preparationBudgetBytes)).sum = limits.maxTotalBytes ∧
      ∀ e ∈ plan.files, reservation (sizeOf e.original) e.candidateSize ≤ e.preparationBudgetBytes := by
  obtain ⟨-, -, h⟩ := bind_ok_iff.mp h
  obtain ⟨⟨entries, remaining⟩, hfrom, h⟩ := bind_ok_iff.mp h
  cases h
  obtain ⟨hlen, hall, hsum⟩ := planFrom_reserves hfrom
  have hpos : 0 < entries.length := hlen ▸ List.length_pos_iff.mpr hne
  constructor
  · have hshare := distribute_sum entries.length remaining 0 entries
    have hmod := Nat.mod_lt remaining hpos
    have hdiv := Nat.div_add_mod remaining entries.length
    simp only at hsum
    rw [Nat.zero_min, Nat.add_zero, Nat.zero_add, min_eq_right hmod.le] at hshare
    show ((distribute entries.length remaining 0 entries).map (·.preparationBudgetBytes)).sum = limits.maxTotalBytes
    omega
  · intro e he
    obtain ⟨e', he', hle, hsame⟩ := distribute_mem he
    rw [hsame]
    exact (hall e' he').symm.le.trans hle

end Plans

end LocalHand.Files
