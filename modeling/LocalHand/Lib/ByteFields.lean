/-
Fields of a byte string: little-endian numbers, slices, and the last place at which a
pattern stands.
-/
import LocalHand.Lib.Framing

namespace ByteFields

open Framing (Bytes)

/-! ## Numbers -/

/-- `n.to_bytes(width, "little")` -/
def le : Nat → Nat → Bytes
  | 0, _ => []
  | width + 1, n => UInt8.ofNat n :: le width (n / 256)

/-- `int.from_bytes(bytes, "little")` -/
def readLE : Bytes → Nat
  | [] => 0
  | b :: rest => b.toNat + 256 * readLE rest

@[simp] theorem length_le (width n : Nat) : (le width n).length = width := by
  induction width generalizing n with
  | zero => rfl
  | succ width ih => simp [le, ih]

theorem readLE_le {width n : Nat} (h : n < 256 ^ width) : readLE (le width n) = n := by
  induction width generalizing n with
  | zero =>
    have hn : n = 0 := by simpa using h
    subst hn
    rfl
  | succ width ih =>
    have hdiv : n / 256 < 256 ^ width := Nat.div_lt_of_lt_mul (by rwa [Nat.pow_succ, Nat.mul_comm] at h)
    rw [le, readLE, ih hdiv, UInt8.toNat_ofNat']
    omega

/-- The bytes are those of the number they read as. -/
theorem le_readLE (bytes : Bytes) : le bytes.length (readLE bytes) = bytes := by
  induction bytes with
  | nil => rfl
  | cons b rest ih =>
    have hb := b.toNat_lt
    have hdiv : (b.toNat + 256 * readLE rest) / 256 = readLE rest := by omega
    rw [List.length_cons, le, readLE, hdiv, ih, List.cons.injEq, ← UInt8.toNat_inj, UInt8.toNat_ofNat']
    exact ⟨by omega, rfl⟩

/-! ## Slices -/

/-- `bytes[start:start + len]` -/
def slice (bytes : Bytes) (start len : Nat) : Bytes := (bytes.drop start).take len

theorem length_slice {bytes : Bytes} {start len : Nat} (h : start + len ≤ bytes.length) : (slice bytes start len).length = len := by
  rw [slice, List.length_take, List.length_drop]
  omega

theorem slice_middle (a b c : Bytes) : slice (a ++ b ++ c) a.length b.length = b := by
  rw [slice, List.append_assoc, List.drop_left, List.take_left]

/-- A slice of a slice. -/
theorem slice_slice (bytes : Bytes) {start len start' len' : Nat} (h : start' + len' ≤ len) :
    slice (slice bytes start len) start' len' = slice bytes (start + start') len' := by
  rw [slice, slice, slice, List.drop_take, List.take_take, List.drop_drop, Nat.min_eq_left (by omega)]

/-- Two slices side by side. -/
theorem slice_add (bytes : Bytes) (start a b : Nat) : slice bytes start (a + b) = slice bytes start a ++ slice bytes (start + a) b := by
  rw [slice, slice, slice, List.take_add, List.drop_drop]

/-! ## The last place of a pattern -/

/-- `bytes.rfind(pattern)` -/
def rfind (pattern : Bytes) : Bytes → Option Nat
  | [] => if pattern.isEmpty then some 0 else none
  | b :: rest =>
    match rfind pattern rest with
    | some i => some (i + 1)
    | none => if pattern.isPrefixOf (b :: rest) then some 0 else none

theorem rfind_none {pattern : Bytes} (bytes : Bytes) (hpattern : pattern ≠ []) (h : ∀ j, ¬ pattern <+: bytes.drop j) : rfind pattern bytes = none := by
  induction bytes with
  | nil => simp [rfind, hpattern]
  | cons b rest ih =>
    have hfirst : pattern.isPrefixOf (b :: rest) = false := by
      rw [← Bool.not_eq_true, List.isPrefixOf_iff_prefix]
      exact h 0
    rw [rfind, ih fun j => h (j + 1), hfirst]
    rfl

/-- A pattern that begins an end and does not stand in it again. -/
theorem rfind_end {pattern ending : Bytes} (rest : Bytes) (hpattern : pattern ≠ []) (h : pattern <+: ending)
    (hagain : ∀ j, 0 < j → ¬ pattern <+: ending.drop j) : rfind pattern (rest ++ ending) = some rest.length := by
  induction rest with
  | cons b rest ih => simp [rfind, ih]
  | nil =>
    cases ending with
    | nil =>
      rw [List.prefix_nil] at h
      exact absurd h hpattern
    | cons b more =>
      have hlater := rfind_none more hpattern fun j => hagain (j + 1) (Nat.succ_pos j)
      rw [List.nil_append, rfind, hlater, List.isPrefixOf_iff_prefix.mpr h]
      rfl

/-- The last place is none before a place of the pattern. -/
theorem rfind_ge {pattern bytes : Bytes} (hpattern : pattern ≠ []) {j : Nat} (h : pattern <+: bytes.drop j) :
    ∃ i, rfind pattern bytes = some i ∧ j ≤ i := by
  induction bytes generalizing j with
  | nil =>
    rw [List.drop_nil, List.prefix_nil] at h
    exact absurd h hpattern
  | cons b rest ih =>
    cases j with
    | zero =>
      cases hlater : rfind pattern rest with
      | some i => exact ⟨i + 1, by rw [rfind, hlater], Nat.zero_le _⟩
      | none =>
        have hfirst : pattern.isPrefixOf (b :: rest) = true := List.isPrefixOf_iff_prefix.mpr h
        exact ⟨0, by rw [rfind, hlater, hfirst]; rfl, Nat.le_refl _⟩
    | succ j =>
      obtain ⟨i, hi, hle⟩ := ih h
      exact ⟨i + 1, by rw [rfind, hi], Nat.succ_le_succ hle⟩

end ByteFields
