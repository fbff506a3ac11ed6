/-
Reading a list page by page. A call takes a cursor and a size and gives a page and
the cursor after it; `follow` goes on with the cursors it is given. Where each page
is the next piece of the list and is not empty unless it is the last, the pages
partition the list (`Serves.follow`).
-/
import Mathlib.Tactic.Common

namespace Paging

variable {α C ε : Type}

/-- A page after a cursor, of at most a size, and the cursor after the page. -/
abbrev Call (α C ε : Type) := Option C → Nat → Except ε (List α × Option C)

inductive Walk (α C ε : Type) where
  | ended (visited : List α)
  | raised (error : ε)
  | going (visited : List α) (cursor : Option C)

/-- The calls of the given sizes, one after another, until there is no cursor. -/
def follow (call : Call α C ε) : List Nat → List α → Option C → Walk α C ε
  | [], visited, cursor => .going visited cursor
  | n :: sizes, visited, cursor =>
    match call cursor n with
    | .error error => .raised error
    | .ok (page, none) => .ended (visited ++ page)
    | .ok (page, some next) => follow call sizes (visited ++ page) (some next)

/-- The cursors of the walks from the start. -/
inductive Reached (call : Call α C ε) (accepted : Nat → Prop) : Option C → Prop where
  | start : Reached call accepted none
  | turn {cursor : Option C} {n : Nat} {page : List α} {next : C} : Reached call accepted cursor → accepted n →
      call cursor n = .ok (page, some next) → Reached call accepted (some next)

/-- Every walk with enough calls visits the items in order, once each, unless it meets a limit. -/
def Partitions (call : Call α C ε) (items : List α) (accepted : Nat → Prop) (limit : ε → Prop) : Prop :=
  ∀ sizes, (∀ n ∈ sizes, accepted n) → items.length < sizes.length →
    follow call sizes [] none = .ended items ∨ ∃ error, follow call sizes [] none = .raised error ∧ limit error

/-- Every cursor that is given is taken, unless the call meets a limit. -/
def Resumes (call : Call α C ε) (accepted : Nat → Prop) (limit : ε → Prop) : Prop :=
  ∀ cursor, Reached call accepted cursor → ∀ n, accepted n →
    (∃ out, call cursor n = .ok out) ∨ ∃ error, call cursor n = .error error ∧ limit error

/-- The page after an offset and what follows it: nothing, or a cursor that stands after the page. -/
def Piece (items : List α) (standing : Option C → Nat → Prop) (offset : Nat) (page : List α) : Option C → Prop
  | none => page = items.drop offset
  | some next => page ≠ [] ∧ page <+: items.drop offset ∧ standing (some next) (offset + page.length)

/-- A call that serves the list piece by piece; `standing` says where a cursor stands. -/
structure Serves (call : Call α C ε) (items : List α) (accepted : Nat → Prop) (limit : ε → Prop)
    (standing : Option C → Nat → Prop) : Prop where
  start : standing none 0
  bound : ∀ cursor offset, standing cursor offset → offset ≤ items.length
  turn : ∀ cursor offset n, standing cursor offset → accepted n →
    (∃ error, call cursor n = .error error ∧ limit error) ∨
      ∃ page next, call cursor n = .ok (page, next) ∧ Piece items standing offset page next

variable {call : Call α C ε} {items : List α} {accepted : Nat → Prop} {limit : ε → Prop} {standing : Option C → Nat → Prop}

/-- From where a cursor stands, the walk visits the rest. -/
theorem Serves.follow (h : Serves call items accepted limit standing) {sizes : List Nat} (hsizes : ∀ n ∈ sizes, accepted n)
    {cursor : Option C} {offset : Nat} (hstanding : standing cursor offset) (hlen : items.length < offset + sizes.length)
    (visited : List α) : follow call sizes visited cursor = .ended (visited ++ items.drop offset) ∨
      ∃ error, Paging.follow call sizes visited cursor = .raised error ∧ limit error := by
  induction sizes generalizing cursor offset visited with
  | nil =>
    have hbound := h.bound _ _ hstanding
    simp only [List.length_nil] at hlen
    omega
  | cons n sizes ih =>
    obtain ⟨error, hcall, herror⟩ | ⟨page, next, hcall, hpiece⟩ := h.turn cursor offset n hstanding (hsizes n (by simp))
    · exact .inr ⟨error, by simp only [Paging.follow, hcall], herror⟩
    · cases next with
      | none =>
        obtain rfl : page = items.drop offset := hpiece
        exact .inl (by simp only [Paging.follow, hcall])
      | some next =>
        obtain ⟨hne, ⟨rest, hrest⟩, hnext⟩ := hpiece
        have hpos := List.length_pos_iff.mpr hne
        have hwalk := ih (fun m hm => hsizes m (by simp [hm])) hnext
          (by simp only [List.length_cons] at hlen; omega) (visited ++ page)
        have hdrop : items.drop (offset + page.length) = rest := by
          rw [← List.drop_drop, ← hrest, List.drop_left]
        rw [hdrop, List.append_assoc, hrest] at hwalk
        simpa only [Paging.follow, hcall] using hwalk

theorem Serves.partitions (h : Serves call items accepted limit standing) : Partitions call items accepted limit := by
  intro sizes hsizes hlen
  simpa using h.follow hsizes h.start (by omega) []

theorem Serves.reached (h : Serves call items accepted limit standing) {cursor : Option C}
    (hreached : Reached call accepted cursor) : ∃ offset, standing cursor offset := by
  induction hreached with
  | start => exact ⟨0, h.start⟩
  | turn _ hn hcall ih =>
    obtain ⟨offset, hoffset⟩ := ih
    obtain ⟨error, hcall', -⟩ | ⟨page, next, hcall', hpiece⟩ := h.turn _ offset _ hoffset hn
    · rw [hcall'] at hcall
      cases hcall
    · rw [hcall'] at hcall
      cases hcall
      exact ⟨_, hpiece.2.2⟩

theorem Serves.resumes (h : Serves call items accepted limit standing) : Resumes call accepted limit := by
  intro cursor hreached n hn
  obtain ⟨offset, hoffset⟩ := h.reached hreached
  obtain hlimit | ⟨page, next, hcall, -⟩ := h.turn cursor offset n hoffset hn
  · exact .inr hlimit
  · exact .inl ⟨_, hcall⟩

/-! ## Calls that agree on the accepted sizes -/

section

variable {call' : Call α C ε}

theorem Serves.congr (h : Serves call items accepted limit standing)
    (hcall : ∀ cursor n, accepted n → call' cursor n = call cursor n) : Serves call' items accepted limit standing where
  start := h.start
  bound := h.bound
  turn cursor offset n hstands hn := by
    rw [hcall cursor n hn]
    exact h.turn cursor offset n hstands hn

theorem Reached.congr (hcall : ∀ cursor n, accepted n → call' cursor n = call cursor n) {cursor : Option C}
    (h : Reached call accepted cursor) : Reached call' accepted cursor := by
  induction h with
  | start => exact .start
  | turn _ hn hpage ih => exact ih.turn hn ((hcall _ _ hn).trans hpage)

theorem Resumes.congr (h : Resumes call' accepted limit)
    (hcall : ∀ cursor n, accepted n → call' cursor n = call cursor n) : Resumes call accepted limit := by
  intro cursor hreached n hn
  rw [← hcall cursor n hn]
  exact h cursor (hreached.congr hcall) n hn

end

end Paging
