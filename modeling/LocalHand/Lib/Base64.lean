/-
Base 64 with padding: `base64.b64encode`, and `base64.b64decode` in its strict
mode, which ignores the bits a padded group has left over.
-/
import LocalHand.Lib.Framing

namespace Base64

open Framing (Bytes)

/-- A six-bit number as a character. -/
def digit (n : Nat) : Char :=
  if n < 26 then Char.ofNat (65 + n)
  else if n < 52 then Char.ofNat (97 + (n - 26))
  else if n < 62 then Char.ofNat (48 + (n - 52))
  else if n = 62 then '+'
  else '/'

def value (c : Char) : Option Nat :=
  if 'A' ≤ c ∧ c ≤ 'Z' then some (c.toNat - 65)
  else if 'a' ≤ c ∧ c ≤ 'z' then some (c.toNat - 97 + 26)
  else if '0' ≤ c ∧ c ≤ '9' then some (c.toNat - 48 + 52)
  else if c = '+' then some 62
  else if c = '/' then some 63
  else none

def encode : Bytes → List Char
  | [] => []
  | [x] => [digit (x.toNat / 4), digit (x.toNat % 4 * 16), '=', '=']
  | [x, y] => [digit (x.toNat / 4), digit (x.toNat % 4 * 16 + y.toNat / 16), digit (y.toNat % 16 * 4), '=']
  | x :: y :: z :: rest =>
    digit (x.toNat / 4) :: digit (x.toNat % 4 * 16 + y.toNat / 16) :: digit (y.toNat % 16 * 4 + z.toNat / 64)
      :: digit (z.toNat % 64) :: encode rest

/-- The bytes of a group of four, three or two digits. -/
def bytesOf : List Nat → Bytes
  | [a, b] => [UInt8.ofNat (a * 4 + b / 16)]
  | [a, b, c] => [UInt8.ofNat (a * 4 + b / 16), UInt8.ofNat (b % 16 * 16 + c / 4)]
  | [a, b, c, d] => [UInt8.ofNat (a * 4 + b / 16), UInt8.ofNat (b % 16 * 16 + c / 4), UInt8.ofNat (c % 4 * 64 + d)]
  | _ => []

def decode : List Char → Option Bytes
  | [] => some []
  | [a, b, '=', '='] => ([a, b].mapM value).map bytesOf
  | [a, b, c, '='] => ([a, b, c].mapM value).map bytesOf
  | a :: b :: c :: d :: rest => do
    let group ← [a, b, c, d].mapM value
    let more ← decode rest
    return bytesOf group ++ more
  | _ => none

/-! ## Round trip -/

theorem value_digit : ∀ n < 64, value (digit n) = some n := by decide

theorem digit_ne_pad : ∀ n < 64, digit n ≠ '=' := by decide

theorem length_encode : ∀ raw : Bytes, (encode raw).length = 4 * ((raw.length + 2) / 3)
  | [] => rfl
  | [_] => by simp [encode]
  | [_, _] => by simp [encode]
  | x :: y :: z :: rest => by
    have ih := length_encode rest
    simp only [encode, List.length_cons, ih]
    omega

/-- What is printed are digits and padding. -/
theorem encode_chars : ∀ (raw : Bytes), ∀ c ∈ encode raw, c = '=' ∨ ∃ n < 64, c = digit n
  | [], c, h => by simp [encode] at h
  | [x], c, h => by
    have hx := x.toNat_lt
    simp only [encode, List.mem_cons, List.not_mem_nil, or_false] at h
    rcases h with rfl | rfl | rfl | rfl
    · exact .inr ⟨_, by omega, rfl⟩
    · exact .inr ⟨_, by omega, rfl⟩
    · exact .inl rfl
    · exact .inl rfl
  | [x, y], c, h => by
    have hx := x.toNat_lt
    have hy := y.toNat_lt
    simp only [encode, List.mem_cons, List.not_mem_nil, or_false] at h
    rcases h with rfl | rfl | rfl | rfl
    · exact .inr ⟨_, by omega, rfl⟩
    · exact .inr ⟨_, by omega, rfl⟩
    · exact .inr ⟨_, by omega, rfl⟩
    · exact .inl rfl
  | x :: y :: z :: rest, c, h => by
    have hx := x.toNat_lt
    have hy := y.toNat_lt
    have hz := z.toNat_lt
    simp only [encode, List.mem_cons] at h
    rcases h with rfl | rfl | rfl | rfl | h
    · exact .inr ⟨_, by omega, rfl⟩
    · exact .inr ⟨_, by omega, rfl⟩
    · exact .inr ⟨_, by omega, rfl⟩
    · exact .inr ⟨_, by omega, rfl⟩
    · exact encode_chars rest c h

/-- A byte out of its number. -/
theorem ofNat_eq {x : UInt8} {n : Nat} (h : n % 256 = x.toNat) : UInt8.ofNat n = x := by
  apply UInt8.toNat_inj.mp
  rw [UInt8.toNat_ofNat']
  exact h

theorem decode_pair {a b : Nat} (ha : a < 64) (hb : b < 64) : decode [digit a, digit b, '=', '='] = some (bytesOf [a, b]) := by
  simp [decode, value_digit a ha, value_digit b hb]

theorem decode_triple {a b c : Nat} (ha : a < 64) (hb : b < 64) (hc : c < 64) :
    decode [digit a, digit b, digit c, '='] = some (bytesOf [a, b, c]) := by
  simp [decode, value_digit a ha, value_digit b hb, value_digit c hc, digit_ne_pad c hc]

theorem decode_group {a b c d : Nat} (ha : a < 64) (hb : b < 64) (hc : c < 64) (hd : d < 64) (rest : List Char) :
    decode (digit a :: digit b :: digit c :: digit d :: rest) = (decode rest).map (bytesOf [a, b, c, d] ++ ·) := by
  have hpad := digit_ne_pad d hd
  rw [decode.eq_4]
  · simp only [List.mapM_cons, List.mapM_nil, value_digit _ ha, value_digit _ hb, value_digit _ hc, value_digit _ hd]
    cases decode rest <;> rfl
  · intro _ h _
    exact hpad h
  · intro h _
    exact hpad h

/-- **`decode` inverts `encode`.** -/
theorem decode_encode : ∀ raw : Bytes, decode (encode raw) = some raw
  | [] => rfl
  | [x] => by
    have hx := x.toNat_lt
    have hbyte : UInt8.ofNat (x.toNat / 4 * 4 + x.toNat % 4 * 16 / 16) = x := ofNat_eq (by omega)
    rw [encode, decode_pair (by omega) (by omega), bytesOf, hbyte]
  | [x, y] => by
    have hx := x.toNat_lt
    have hy := y.toNat_lt
    have hfirst : UInt8.ofNat (x.toNat / 4 * 4 + (x.toNat % 4 * 16 + y.toNat / 16) / 16) = x := ofNat_eq (by omega)
    have hsecond : UInt8.ofNat ((x.toNat % 4 * 16 + y.toNat / 16) % 16 * 16 + y.toNat % 16 * 4 / 4) = y :=
      ofNat_eq (by omega)
    rw [encode, decode_triple (by omega) (by omega) (by omega), bytesOf, hfirst, hsecond]
  | x :: y :: z :: rest => by
    have hx := x.toNat_lt
    have hy := y.toNat_lt
    have hz := z.toNat_lt
    have hfirst : UInt8.ofNat (x.toNat / 4 * 4 + (x.toNat % 4 * 16 + y.toNat / 16) / 16) = x := ofNat_eq (by omega)
    have hsecond : UInt8.ofNat ((x.toNat % 4 * 16 + y.toNat / 16) % 16 * 16 + (y.toNat % 16 * 4 + z.toNat / 64) / 4) = y :=
      ofNat_eq (by omega)
    have hthird : UInt8.ofNat ((y.toNat % 16 * 4 + z.toNat / 64) % 4 * 64 + z.toNat % 64) = z := ofNat_eq (by omega)
    rw [encode, decode_group (by omega) (by omega) (by omega) (by omega), decode_encode rest, bytesOf, hfirst, hsecond, hthird]
    rfl

end Base64
