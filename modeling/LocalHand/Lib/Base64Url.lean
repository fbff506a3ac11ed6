/-
Base 64 for addresses: `base64.urlsafe_b64encode` with its padding stripped, and
`base64.urlsafe_b64decode` of such a text with its padding put back.
-/
import LocalHand.Lib.Base64
import Mathlib.Data.List.Basic

namespace Base64

open Framing (Bytes)

/-- `text.rstrip("=")` -/
def stripped (text : List Char) : List Char := (text.reverse.dropWhile (· = '=')).reverse

def toUrl (c : Char) : Char := if c = '+' then '-' else if c = '/' then '_' else c

def ofUrl (c : Char) : Char := if c = '-' then '+' else if c = '_' then '/' else c

def urlEncode (raw : Bytes) : List Char := (stripped (encode raw)).map toUrl

def urlDecode (text : List Char) : Option Bytes :=
  decode (text.map ofUrl ++ List.replicate ((4 - text.length % 4) % 4) '=')

/-- `[A-Za-z0-9_-]` -/
def isUrlDigit (c : Char) : Bool := c.isAlphanum || c = '_' || c = '-'

/-! ## Round trip -/

/-- The digits without the padding. -/
def digits : Bytes → List Char
  | [] => []
  | [x] => [digit (x.toNat / 4), digit (x.toNat % 4 * 16)]
  | [x, y] => [digit (x.toNat / 4), digit (x.toNat % 4 * 16 + y.toNat / 16), digit (y.toNat % 16 * 4)]
  | x :: y :: z :: rest =>
    digit (x.toNat / 4) :: digit (x.toNat % 4 * 16 + y.toNat / 16) :: digit (y.toNat % 16 * 4 + z.toNat / 64)
      :: digit (z.toNat % 64) :: digits rest

theorem length_digits : ∀ raw : Bytes, (digits raw).length = (4 * raw.length + 2) / 3
  | [] => rfl
  | [_] => by simp [digits]
  | [_, _] => by simp [digits]
  | x :: y :: z :: rest => by
    have ih := length_digits rest
    simp only [digits, List.length_cons, ih]
    omega

theorem encode_digits : ∀ raw : Bytes,
    encode raw = digits raw ++ List.replicate ((4 - (digits raw).length % 4) % 4) '='
  | [] => rfl
  | [_] => rfl
  | [_, _] => rfl
  | x :: y :: z :: rest => by
    have ih := encode_digits rest
    have hlen : ((digits rest).length + 1 + 1 + 1 + 1) % 4 = (digits rest).length % 4 := by omega
    simp only [encode, digits, List.length_cons, List.cons_append, hlen]
    rw [← ih]

theorem digits_mem : ∀ (raw : Bytes), ∀ c ∈ digits raw, ∃ n < 64, c = digit n
  | [], c, h => by simp [digits] at h
  | [x], c, h => by
    have hx := x.toNat_lt
    simp only [digits, List.mem_cons, List.not_mem_nil, or_false] at h
    rcases h with rfl | rfl <;> exact ⟨_, by omega, rfl⟩
  | [x, y], c, h => by
    have hx := x.toNat_lt
    have hy := y.toNat_lt
    simp only [digits, List.mem_cons, List.not_mem_nil, or_false] at h
    rcases h with rfl | rfl | rfl <;> exact ⟨_, by omega, rfl⟩
  | x :: y :: z :: rest, c, h => by
    have hx := x.toNat_lt
    have hy := y.toNat_lt
    have hz := z.toNat_lt
    simp only [digits, List.mem_cons] at h
    rcases h with rfl | rfl | rfl | rfl | h
    · exact ⟨_, by omega, rfl⟩
    · exact ⟨_, by omega, rfl⟩
    · exact ⟨_, by omega, rfl⟩
    · exact ⟨_, by omega, rfl⟩
    · exact digits_mem rest c h

theorem stripped_encode (raw : Bytes) : stripped (encode raw) = digits raw := by
  have hpads : ∀ (n : Nat) (cs : List Char), (List.replicate n '=' ++ cs).dropWhile (· = '=') = cs.dropWhile (· = '=') := by
    intro n cs
    induction n with
    | zero => rfl
    | succ n ih => rw [List.replicate_succ, List.cons_append, List.dropWhile_cons_of_pos (by decide), ih]
  have hstop : ((digits raw).reverse).dropWhile (· = '=') = (digits raw).reverse := by
    cases hdigits : (digits raw).reverse with
    | nil => rfl
    | cons c cs =>
      obtain ⟨n, hn, rfl⟩ := digits_mem raw c (by rw [← List.mem_reverse, hdigits]; exact List.mem_cons_self)
      rw [List.dropWhile_cons_of_neg (by simpa using digit_ne_pad n hn)]
  rw [stripped, encode_digits, List.reverse_append, List.reverse_replicate, hpads, hstop, List.reverse_reverse]

theorem length_urlEncode (raw : Bytes) : (urlEncode raw).length = (4 * raw.length + 2) / 3 := by
  rw [urlEncode, List.length_map, stripped_encode, length_digits]

theorem ofUrl_toUrl : ∀ n < 64, ofUrl (toUrl (digit n)) = digit n := by decide

theorem isUrlDigit_toUrl : ∀ n < 64, isUrlDigit (toUrl (digit n)) = true := by decide

theorem urlEncode_mem {raw : Bytes} {c : Char} (h : c ∈ urlEncode raw) : ∃ n < 64, c = toUrl (digit n) := by
  rw [urlEncode, stripped_encode] at h
  obtain ⟨d, hd, rfl⟩ := List.mem_map.mp h
  obtain ⟨n, hn, rfl⟩ := digits_mem raw d hd
  exact ⟨n, hn, rfl⟩

theorem urlEncode_all (raw : Bytes) : (urlEncode raw).all isUrlDigit = true := by
  rw [List.all_eq_true]
  intro c hc
  obtain ⟨n, hn, rfl⟩ := urlEncode_mem hc
  exact isUrlDigit_toUrl n hn

/-- **`urlDecode` inverts `urlEncode`.** -/
theorem urlDecode_urlEncode (raw : Bytes) : urlDecode (urlEncode raw) = some raw := by
  have hback : (urlEncode raw).map ofUrl = digits raw := by
    rw [urlEncode, stripped_encode, List.map_map, List.map_congr_left (g := id), List.map_id]
    intro c hc
    obtain ⟨n, hn, rfl⟩ := digits_mem raw c hc
    exact ofUrl_toUrl n hn
  rw [urlDecode, hback, length_urlEncode, ← length_digits, ← encode_digits, decode_encode]

end Base64
