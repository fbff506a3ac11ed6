/-
A directory of files: names, each with its content. `put` replaces a file as an
atomic rename does and `names` lists it in order.
-/
import Mathlib.Data.List.Nodup
import Mathlib.Algebra.Order.BigOperators.Group.List
import Mathlib.Data.String.Basic
import Mathlib.Algebra.Order.Ring.Int
import Mathlib.Tactic.Common

namespace Directory

/-- No name stands in a directory twice. -/
structure Dir (α : Type) where
  entries : List (String × α)
  distinct : (entries.map (·.1)).Nodup

variable {α : Type}

def Dir.empty : Dir α := ⟨[], .nil⟩

def Dir.get (d : Dir α) (name : String) : Option α := (d.entries.find? (·.1 = name)).map (·.2)

def Dir.has (d : Dir α) (name : String) : Bool := (d.get name).isSome

theorem remove_distinct {l : List (String × α)} (h : (l.map (·.1)).Nodup) (name : String) :
    ((l.filter (·.1 ≠ name)).map (·.1)).Nodup := h.sublist (List.filter_sublist.map _)

def Dir.remove (d : Dir α) (name : String) : Dir α := ⟨d.entries.filter (·.1 ≠ name), remove_distinct d.distinct name⟩

theorem not_mem_remove (d : Dir α) (name : String) : name ∉ (d.remove name).entries.map (·.1) := by
  simp [Dir.remove]

def Dir.put (d : Dir α) (name : String) (content : α) : Dir α :=
  ⟨(name, content) :: (d.remove name).entries, List.nodup_cons.mpr ⟨not_mem_remove d name, (d.remove name).distinct⟩⟩

/-- The names in their order. -/
def Dir.names (d : Dir α) : List String := (d.entries.map (·.1)).mergeSort (fun a b => decide (a ≤ b))

@[simp] theorem get_empty (name : String) : (Dir.empty : Dir α).get name = none := rfl

theorem get_remove (d : Dir α) (name other : String) : (d.remove name).get other = if other = name then none else d.get other := by
  simp only [Dir.get, Dir.remove, List.find?_filter]
  split
  · next h =>
    subst h
    rw [List.find?_eq_none.mpr (by simp), Option.map_none]
  · next h =>
    congr 2
    funext f
    by_cases hf : f.1 = other
    · simp [hf, h]
    · simp [hf]

theorem get_put (d : Dir α) (name : String) (content : α) (other : String) :
    (d.put name content).get other = if other = name then some content else d.get other := by
  rw [Dir.get, Dir.put, List.find?_cons]
  by_cases h : name = other
  · simp [h]
  · have hrest := get_remove d name other
    rw [if_neg (Ne.symm h)] at hrest ⊢
    simp only [h, decide_false]
    exact hrest

@[simp] theorem get_put_self (d : Dir α) (name : String) (content : α) : (d.put name content).get name = some content := by
  rw [get_put, if_pos rfl]

theorem get_put_ne (d : Dir α) {name other : String} (h : other ≠ name) (content : α) :
    (d.put name content).get other = d.get other := by
  rw [get_put, if_neg h]

@[simp] theorem get_remove_self (d : Dir α) (name : String) : (d.remove name).get name = none := by
  rw [get_remove, if_pos rfl]

theorem get_remove_ne (d : Dir α) {name other : String} (h : other ≠ name) : (d.remove name).get other = d.get other := by
  rw [get_remove, if_neg h]

theorem mem_names {d : Dir α} {name : String} : name ∈ d.names ↔ d.has name = true := by
  rw [Dir.names, List.mem_mergeSort, Dir.has, Dir.get, Option.isSome_map, List.find?_isSome, List.mem_map]
  simp

theorem names_nodup (d : Dir α) : d.names.Nodup := (List.mergeSort_perm _ _).nodup_iff.mpr d.distinct

/-- The names stand in their order, each once. -/
theorem names_sorted (d : Dir α) : d.names.Pairwise (· < ·) := by
  have horder : d.names.Pairwise (fun a b => decide (a ≤ b) = true) :=
    List.pairwise_mergeSort (by simpa using fun _ _ _ => le_trans) (by simpa using le_total) _
  refine (horder.and (names_nodup d)).imp ?_
  rintro a b ⟨hle, hne⟩
  exact lt_of_le_of_ne (by simpa using hle) hne

theorem has_iff {d : Dir α} {name : String} : d.has name = true ↔ ∃ content, d.get name = some content := Option.isSome_iff_exists

theorem has_false {d : Dir α} {name : String} : d.has name = false ↔ d.get name = none := by
  rw [Dir.has, Option.isSome_eq_false_iff, Option.isNone_iff_eq_none]

theorem get_iff_mem {d : Dir α} {name : String} {content : α} : d.get name = some content ↔ (name, content) ∈ d.entries := by
  constructor
  · intro h
    obtain ⟨e, he, rfl⟩ := Option.map_eq_some_iff.mp h
    have hname : e.1 = name := by simpa using List.find?_some he
    subst hname
    exact List.mem_of_find?_eq_some he
  · intro h
    cases hfound : d.entries.find? (·.1 = name) with
    | none => exact absurd (List.find?_eq_none.mp hfound _ h) (by simp)
    | some e =>
      have hname : e.1 = name := by simpa using List.find?_some hfound
      have hsame := List.inj_on_of_nodup_map d.distinct (List.mem_of_find?_eq_some hfound) h hname
      rw [Dir.get, hfound, Option.map_some, hsame]

theorem put_put (d : Dir α) (name : String) (content content' : α) :
    (d.put name content).put name content' = d.put name content' := by
  simp [Dir.put, Dir.remove, List.filter_filter]

theorem remove_put (d : Dir α) (name : String) (content : α) : (d.put name content).remove name = d.remove name := by
  simp [Dir.put, Dir.remove, List.filter_filter]

/-! ## Weights -/

/-- The sum of a weight over the files. -/
def Dir.weigh (d : Dir α) (weight : String → α → Nat) : Nat := (d.entries.map fun e => weight e.1 e.2).sum

variable {weight weight' : String → α → Nat}

@[simp] theorem weigh_empty : (Dir.empty : Dir α).weigh weight = 0 := rfl

theorem weigh_remove (d : Dir α) (name : String) :
    d.weigh weight = (d.remove name).weigh weight + ((d.get name).map (weight name)).getD 0 := by
  have hentries : ∀ entries : List (String × α), (entries.map (·.1)).Nodup → (entries.map fun e => weight e.1 e.2).sum =
      ((entries.filter (·.1 ≠ name)).map fun e => weight e.1 e.2).sum +
        (((entries.find? (·.1 = name)).map (·.2)).map (weight name)).getD 0 := by
    intro entries
    induction entries with
    | nil => simp
    | cons e entries ih =>
      intro hdistinct
      rw [List.map_cons, List.nodup_cons] at hdistinct
      have hrest := ih hdistinct.2
      by_cases hname : e.1 = name
      · have hnone : entries.find? (·.1 = name) = none := by
          refine List.find?_eq_none.mpr fun x hx hsame => hdistinct.1 ?_
          rw [hname, ← (by simpa using hsame : x.1 = name)]
          exact List.mem_map_of_mem hx
        rw [hnone] at hrest
        simp only [Option.map_none, Option.getD_none, Nat.add_zero] at hrest
        rw [List.map_cons, List.sum_cons, List.filter_cons_of_neg (by simpa using hname), List.find?_cons_of_pos (by simpa using hname), hrest]
        simp only [Option.map_some, Option.getD_some, hname]
        omega
      · rw [List.map_cons, List.sum_cons, List.filter_cons_of_pos (by simpa using hname), List.find?_cons_of_neg (by simpa using hname),
          List.map_cons, List.sum_cons, hrest]
        omega
  exact hentries d.entries d.distinct

theorem weigh_put (d : Dir α) (name : String) (content : α) :
    (d.put name content).weigh weight = (d.remove name).weigh weight + weight name content := by
  rw [Dir.weigh, Dir.put, List.map_cons, List.sum_cons, Dir.weigh, Nat.add_comm]

theorem weigh_remove_le (d : Dir α) (name : String) : (d.remove name).weigh weight ≤ d.weigh weight := by
  rw [weigh_remove d name]
  omega

theorem weigh_mono (d : Dir α) (h : ∀ name content, d.get name = some content → weight name content ≤ weight' name content) :
    d.weigh weight ≤ d.weigh weight' :=
  List.sum_le_sum fun e he => h e.1 e.2 (get_iff_mem.mpr he)

end Directory
