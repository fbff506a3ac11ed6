/-
The lease table and the manager of admitted resources (`resources.py`). A row
is a resource, the owner that holds it and the deployment epoch it was taken
under; nothing expires.
-/
import LocalHand.Contract
import Mathlib.Data.List.Dedup

namespace LocalHand

/-- A row of `leases`. -/
structure Lease where
  resource : String
  owner : String
  epoch : Int
  deriving Repr, DecidableEq

abbrev Leases := List Lease

namespace Leases

/-- `SELECT owner,epoch FROM leases WHERE resource=?` -/
def holder (leases : Leases) (resource : String) : Option (String × Int) :=
  (leases.find? (·.resource = resource)).map fun lease => (lease.owner, lease.epoch)

/-- `INSERT INTO leases`; the resource is the primary key. -/
def insertNew (leases : Leases) (lease : Lease) : Except Fault Leases :=
  if (holder leases lease.resource).isSome then .error .os else .ok (leases ++ [lease])

/-- `INSERT OR IGNORE INTO leases` -/
def insertOrIgnore (leases : Leases) (lease : Lease) : Leases :=
  if (holder leases lease.resource).isSome then leases else leases ++ [lease]

/-- `DELETE FROM leases WHERE owner=?` -/
def deleteOwner (leases : Leases) (owner : String) : Leases :=
  leases.filter (·.owner ≠ owner)

theorem holder_append (leases : Leases) (lease : Lease) (resource : String) :
    holder (leases ++ [lease]) resource =
      (holder leases resource).or (if lease.resource = resource then some (lease.owner, lease.epoch)
        else none) := by
  unfold holder
  rw [List.find?_append]
  cases leases.find? (·.resource = resource) with
  | some l => simp
  | none => by_cases h : lease.resource = resource <;> simp [h]

theorem holder_insertNew {leases leases' : Leases} {lease : Lease}
    (h : insertNew leases lease = .ok leases') (resource : String) :
    holder leases' resource = if lease.resource = resource then some (lease.owner, lease.epoch)
      else holder leases resource := by
  unfold insertNew at h
  split at h
  · cases h
  · next hnone =>
    cases h
    rw [holder_append]
    split
    · next heq =>
      rw [heq] at hnone
      rw [Option.not_isSome_iff_eq_none.mp hnone]
      rfl
    · simp

theorem holder_insertOrIgnore (leases : Leases) (lease : Lease) (resource : String) :
    holder (insertOrIgnore leases lease) resource =
      (holder leases resource).or (if lease.resource = resource then some (lease.owner, lease.epoch)
        else none) := by
  unfold insertOrIgnore
  split
  · next hsome =>
    by_cases heq : lease.resource = resource
    · rw [← heq]
      obtain ⟨x, hx⟩ := Option.isSome_iff_exists.mp hsome
      simp [hx]
    · simp [heq]
  · exact holder_append ..

/-- Another owner's lease survives a release. -/
theorem holder_deleteOwner {leases : Leases} {resource owner other : String} {epoch : Int}
    (h : holder leases resource = some (other, epoch)) (hne : other ≠ owner) :
    holder (deleteOwner leases owner) resource = some (other, epoch) := by
  unfold holder deleteOwner at *
  induction leases with
  | nil => simp at h
  | cons lease leases ih =>
    rw [List.find?_cons] at h
    rw [List.filter_cons]
    by_cases hres : lease.resource = resource
    · simp only [hres, decide_true] at h
      simp only [Option.map_some, Option.some.injEq, Prod.mk.injEq] at h
      have hkeep : lease.owner ≠ owner := by rw [h.1]; exact hne
      rw [if_pos (by simpa using hkeep), List.find?_cons]
      simp only [hres, decide_true, Option.map_some, h.1, h.2]
    · simp only [hres, decide_false] at h
      split
      · rw [List.find?_cons]
        simp only [hres, decide_false]
        exact ih h
      · exact ih h

end Leases

/-! ## The manager -/

/-- The loop of `canonical`. Each turn visits a new alias, so one turn more than
there are aliases is enough. -/
def canonicalFrom (aliases : List (String × String)) :
    Nat → List String → String → Except Fault String
  | 0, _, _ => .error (.job "CONFLICT" "Resource aliases form a cycle")
  | n + 1, seen, resource =>
    match aliases.lookup resource with
    | some next =>
      if resource ∈ seen then .error (.job "CONFLICT" "Resource aliases form a cycle")
      else canonicalFrom aliases n (resource :: seen) next
    | none =>
      if resource = "" then .error (.job "UNSUPPORTED" "Resource lacks an admitted identity")
      else .ok resource

/-- `canonical` -/
def canonicalResource (aliases : List (String × String)) (resource : String) : Except Fault String :=
  canonicalFrom aliases (aliases.length + 1) [] resource

/-- The set of canonical identities of the given resources. -/
def identities (aliases : List (String × String)) (resources : List String) :
    Except Fault (List String) := do
  let names ← resources.mapM (canonicalResource aliases)
  return names.dedup

/-- `acquire` -/
def acquire (aliases : List (String × String)) (leases : Leases) (owner : String) (epoch : Int)
    (resources : List String) : Except Fault Leases := do
  let names ← identities aliases resources
  require (names ≠ []) (.job "UNSUPPORTED" "Execution must bind at least one resource")
  require (names.all fun name => match leases.holder name with
      | none => true
      | some held => held = (owner, epoch))
    (.job "RESOURCE_BUSY" "A prior operation retains the resource barrier")
  return names.foldl (fun table name => table.insertOrIgnore ⟨name, owner, epoch⟩) leases

/-- `assert_owned` -/
def assertOwned (aliases : List (String × String)) (leases : Leases) (owner : String) (epoch : Int)
    (resources : List String) : Except Fault Unit := do
  let names ← identities aliases resources
  require (names.all fun name => leases.holder name = some (owner, epoch))
    (.job "IO_UNCERTAIN" "Execution no longer owns its resource barrier")

/-- `release`; each proof flag is set where it `is True`. -/
def release (leases : Leases) (owner : String) (futureStartBlocked treeExited effectsChecked : Bool) :
    Except Fault Leases := do
  require (futureStartBlocked && treeExited && effectsChecked)
    (.job "IO_UNCERTAIN" "Incomplete exit or side-effect proof retains resources")
  return leases.deleteOwner owner

/-! ## What the operations keep -/

section

variable {aliases : List (String × String)} {leases leases' : Leases} {owner : String} {epoch : Int}

theorem holder_insertAll (names : List String) (leases : Leases) (resource : String) :
    (names.foldl (fun table name => table.insertOrIgnore ⟨name, owner, epoch⟩) leases).holder resource =
      (leases.holder resource).or (if resource ∈ names then some (owner, epoch) else none) := by
  induction names generalizing leases with
  | nil => simp
  | cons name names ih =>
    rw [List.foldl_cons, ih, Leases.holder_insertOrIgnore]
    by_cases hname : name = resource
    · subst hname
      cases Leases.holder leases name <;> simp
    · have hname' : resource ≠ name := fun h => hname h.symm
      simp [hname, hname']

/-- `acquire` keeps every lease, takes the canonical resources, and nothing else. -/
theorem acquire_holder {resources : List String} (h : acquire aliases leases owner epoch resources = .ok leases') :
    (∀ resource held, leases.holder resource = some held → leases'.holder resource = some held) ∧
    (∃ names, identities aliases resources = .ok names ∧
      (∀ name ∈ names, leases'.holder name = some (owner, epoch)) ∧
      ∀ resource held, leases'.holder resource = some held →
        leases.holder resource = some held ∨ held = (owner, epoch)) := by
  simp only [acquire, bind_ok, require_ok, exists_unit, pure, Except.pure, Except.ok.injEq,
    List.all_eq_true] at h
  obtain ⟨names, hnames, -, hfree, rfl⟩ := h
  refine ⟨fun resource held hh => by simp [holder_insertAll, hh], names, hnames, ?_, ?_⟩
  · intro name hname
    have hown := hfree name hname
    rw [holder_insertAll]
    cases hh : leases.holder name with
    | none => simp [hname]
    | some held => rw [hh] at hown; simpa using hown
  · intro resource held hh
    rw [holder_insertAll] at hh
    cases hr : leases.holder resource with
    | some other => rw [hr] at hh; exact .inl hh
    | none =>
      rw [hr] at hh
      split at hh
      · exact .inr (Option.some.inj hh).symm
      · cases hh

/-- `release` keeps every other owner's lease. -/
theorem release_holder {fsb te ec : Bool} (h : release leases owner fsb te ec = .ok leases') {resource other : String}
    {e : Int} (hne : other ≠ owner) (hh : leases.holder resource = some (other, e)) :
    leases'.holder resource = some (other, e) := by
  simp only [release, bind_ok, require_ok, exists_unit, pure, Except.pure, Except.ok.injEq] at h
  obtain ⟨-, rfl⟩ := h
  exact Leases.holder_deleteOwner hh hne

end

end LocalHand
