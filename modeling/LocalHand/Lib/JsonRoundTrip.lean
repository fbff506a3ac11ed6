/-
`loads` reads back what `dumps` prints, with `ensure_ascii` or without: one
lemma per scanner, each about a printed text followed by the rest of the
input, and the induction over the value at the end.
-/
import LocalHand.Lib.Json
import Mathlib.Data.Char
import Mathlib.Data.List.TakeWhile

namespace PyJson

variable {F : Type}

/-- What may follow a printed value: the end, or the mark that closes or continues it. -/
def Stop (rest : List Char) : Prop :=
  rest = [] ∨ ∃ c t, rest = c :: t ∧ (c = ',' ∨ c = ']' ∨ c = '}')

theorem Stop.nil : Stop [] := .inl rfl

theorem Stop.cons {c : Char} {t : List Char} (h : c = ',' ∨ c = ']' ∨ c = '}') : Stop (c :: t) :=
  .inr ⟨c, t, rfl, h⟩

theorem Stop.head {c : Char} {t : List Char} (h : Stop (c :: t)) : c = ',' ∨ c = ']' ∨ c = '}' := by
  rcases h with h | ⟨c', t', h, hc⟩
  · cases h
  · cases h; exact hc

theorem Stop.skipWs {rest : List Char} (h : Stop rest) : skipWs rest = rest := by
  rcases h with rfl | ⟨c, t, rfl, rfl | rfl | rfl⟩ <;> rfl

/-- What does not go on with a number: that, or the end of its line. -/
def Ends (rest : List Char) : Prop :=
  rest = [] ∨ ∃ c t, rest = c :: t ∧ (c = ',' ∨ c = ']' ∨ c = '}' ∨ c = '\n')

theorem Stop.ends {rest : List Char} (h : Stop rest) : Ends rest := by
  rcases h with rfl | ⟨c, t, rfl, hc⟩
  · exact .inl rfl
  · refine .inr ⟨c, t, rfl, ?_⟩
    rcases hc with hc | hc | hc <;> simp [hc]

theorem Ends.line (t : List Char) : Ends ('\n' :: t) := .inr ⟨'\n', t, rfl, by simp⟩

/-! ## Numbers -/

theorem Ends.takeWhile {rest : List Char} (h : Ends rest) (cs : List Char) :
    (cs ++ rest).takeWhile isDigit = cs.takeWhile isDigit := by
  induction cs with
  | nil => rcases h with rfl | ⟨c, t, rfl, rfl | rfl | rfl | rfl⟩ <;> rfl
  | cons c cs ih => simp only [List.cons_append, List.takeWhile_cons, ih]

theorem Ends.dropWhile {rest : List Char} (h : Ends rest) (cs : List Char) :
    (cs ++ rest).dropWhile isDigit = cs.dropWhile isDigit ++ rest := by
  induction cs with
  | nil => rcases h with rfl | ⟨c, t, rfl, rfl | rfl | rfl | rfl⟩ <;> rfl
  | cons c cs ih =>
    simp only [List.cons_append, List.dropWhile_cons, ih]
    split <;> rfl

theorem scanFrac_append {rest : List Char} (h : Ends rest) (cs : List Char) :
    scanFrac (cs ++ rest) = ((scanFrac cs).1, (scanFrac cs).2 ++ rest) := by
  match cs with
  | [] => rcases h with rfl | ⟨c, t, rfl, rfl | rfl | rfl | rfl⟩ <;> rfl
  | c :: cs =>
    by_cases hc : c = '.'
    · subst hc
      simp only [List.cons_append, scanFrac, h.takeWhile, h.dropWhile]
      split <;> rfl
    · simp [scanFrac, hc]

theorem scanSign_append {rest : List Char} (h : Ends rest) (cs : List Char) :
    scanSign (cs ++ rest) = ((scanSign cs).1, (scanSign cs).2 ++ rest) := by
  match cs with
  | [] => rcases h with rfl | ⟨c, t, rfl, rfl | rfl | rfl | rfl⟩ <;> rfl
  | c :: cs =>
    by_cases hm : c = '-'
    · subst hm; rfl
    · by_cases hp : c = '+'
      · subst hp; rfl
      · simp [scanSign, hm, hp]

theorem scanExp_append {rest : List Char} (h : Ends rest) (cs : List Char) :
    scanExp (cs ++ rest) = ((scanExp cs).1, (scanExp cs).2 ++ rest) := by
  match cs with
  | [] => rcases h with rfl | ⟨c, t, rfl, rfl | rfl | rfl | rfl⟩ <;> rfl
  | c :: cs =>
    by_cases hc : c = 'e' ∨ c = 'E'
    · simp only [List.cons_append, scanExp, hc, if_true, scanSign_append h, h.takeWhile, h.dropWhile]
      split <;> rfl
    · simp [scanExp, hc]

theorem scanUnsigned_append {rest cs : List Char} (h : Ends rest) {sign fl neg text r}
    (hs : scanUnsigned sign cs = some (fl, neg, text, r)) :
    scanUnsigned sign (cs ++ rest) = some (fl, neg, text, r ++ rest) := by
  match cs with
  | [] => cases hs
  | d :: ds =>
    by_cases hdig : isDigit d = true
    · by_cases hd : d = '0'
      · subst hd
        simp only [List.cons_append, scanUnsigned, hdig, if_true, scanFrac_append h,
          scanExp_append h, Option.some.injEq, Prod.mk.injEq] at hs ⊢
        exact ⟨hs.1, hs.2.1, hs.2.2.1, by rw [hs.2.2.2]⟩
      · simp only [List.cons_append, scanUnsigned, hdig, hd, if_true, if_false, h.takeWhile,
          h.dropWhile, scanFrac_append h, scanExp_append h, Option.some.injEq, Prod.mk.injEq] at hs ⊢
        exact ⟨hs.1, hs.2.1, hs.2.2.1, by rw [hs.2.2.2]⟩
    · simp [scanUnsigned, hdig] at hs

/-- A scanned literal is not extended by what may follow it. -/
theorem scanNumber_append {rest cs : List Char} (h : Ends rest) {fl neg text r}
    (hs : scanNumber cs = some (fl, neg, text, r)) :
    scanNumber (cs ++ rest) = some (fl, neg, text, r ++ rest) := by
  match cs with
  | [] => cases hs
  | c :: cs =>
    simp only [List.cons_append, scanNumber] at hs ⊢
    split at hs
    · next hc => rw [if_pos hc]; exact scanUnsigned_append h hs
    · next hc => rw [if_neg hc]; exact scanUnsigned_append h hs

theorem natText_digit {n : Nat} {c : Char} (h : c ∈ natText n) : isDigit c = true :=
  Nat.isDigit_of_mem_toDigits (by omega) (by omega) h

theorem natText_ne_nil (n : Nat) : natText n ≠ [] := Nat.toDigits_ne_nil

/-- A positive number prints without a leading zero. -/
theorem natText_head {n : Nat} {d : Char} {ds : List Char} (h : natText n = d :: ds)
    (hd : d = '0') : ds = [] := by
  induction n using Nat.strongRecOn generalizing d ds with
  | _ n ih =>
  by_cases hn : n < 10
  · rw [natText, Nat.toDigits_of_lt_base hn] at h
    simp only [List.cons.injEq] at h
    exact h.2.symm
  · rw [natText, Nat.toDigits_of_base_le (by omega) (by omega)] at h
    cases hq : natText (n / 10) with
    | nil => exact absurd hq (natText_ne_nil _)
    | cons e es =>
      have hq' : Nat.toDigits 10 (n / 10) = e :: es := hq
      rw [hq'] at h
      simp only [List.cons_append, List.cons.injEq] at h
      have hes := ih (n / 10) (by omega) hq (h.1.trans hd)
      -- The quotient would print as `0`, so the number is below ten.
      have hz : n / 10 = 0 := by
        have := Nat.ofDigitChars_ten_toDigits (n := n / 10)
        rw [hq', hes, h.1, hd] at this
        simpa [Nat.ofDigitChars] using this.symm
      omega

theorem scanUnsigned_natText (neg : Bool) (n : Nat) :
    scanUnsigned neg (natText n) = some (false, neg, natText n, []) := by
  cases hd : natText n with
  | nil => exact absurd hd (natText_ne_nil n)
  | cons d ds =>
    have hall : ∀ c ∈ d :: ds, isDigit c = true := fun c hc => natText_digit (hd ▸ hc)
    have hdig : isDigit d = true := hall d (by simp)
    have htake : ds.takeWhile isDigit = ds :=
      List.takeWhile_eq_self_iff.mpr fun c hc => hall c (by simp [hc])
    have hdrop : ds.dropWhile isDigit = [] :=
      List.dropWhile_eq_nil_iff.mpr fun c hc => hall c (by simp [hc])
    by_cases h0 : d = '0'
    · obtain rfl := natText_head hd h0
      subst h0
      rfl
    · simp [scanUnsigned, hdig, h0, htake, hdrop, scanFrac, scanExp]

theorem scanNumber_natText (n : Nat) : scanNumber (natText n) = some (false, false, natText n, []) := by
  have h := scanUnsigned_natText false n
  cases hd : natText n with
  | nil => exact absurd hd (natText_ne_nil n)
  | cons d ds =>
    rw [hd] at h
    have hne : d ≠ '-' := by
      rintro rfl
      have hdig : isDigit '-' = true := natText_digit (hd ▸ List.mem_cons_self)
      exact absurd hdig (by decide)
    rw [scanNumber, if_neg hne, h]

theorem scanNumber_neg_natText (n : Nat) :
    scanNumber ('-' :: natText n) = some (false, true, natText n, []) := by
  rw [scanNumber, if_pos rfl, scanUnsigned_natText]

theorem scanNumeral_int (fl : FloatText F) {i : Int} (hi : (natText i.natAbs).length ≤ maxStrDigits)
    {rest : List Char} (h : Ends rest) :
    scanNumeral fl (intText i ++ rest) = some (.int i, rest) := by
  have hread : Nat.ofDigitChars 10 (natText i.natAbs) 0 = i.natAbs := Nat.ofDigitChars_ten_toDigits
  by_cases hneg : i < 0
  · simp only [intText, hneg, if_true, scanNumeral,
      scanNumber_append h (scanNumber_neg_natText i.natAbs), List.nil_append, readInt, hi, hread]
    simp only [Option.map_some, Option.some.injEq, Prod.mk.injEq, Value.int.injEq, and_true]
    omega
  · simp only [intText, hneg, if_false, scanNumeral,
      scanNumber_append h (scanNumber_natText i.natAbs), List.nil_append, readInt, hi, hread, if_true]
    simp only [Option.map_some, Option.some.injEq, Prod.mk.injEq, Value.int.injEq, and_true]
    simp; omega

theorem scanNumeral_float (fl : FloatText F) (x : F) {rest : List Char} (h : Ends rest) :
    scanNumeral fl ((if fl.neg x then ['-'] else []) ++ fl.render x ++ rest) = some (.float x, rest) := by
  simp only [scanNumeral, scanNumber_append h (fl.literal x), fl.parse_render, Option.map_some,
    List.nil_append]

/-! ## Strings -/

theorem hexValue_hexDigit : ∀ d < 16, hexValue (hexDigit d) = some d := by decide

theorem scanUnit_escapeUnit {u : Nat} (hu : u < 65536) (rest : List Char) :
    ∃ t, escapeUnit u ++ rest = '\\' :: 'u' :: t ∧ scanUnit t = some (u, rest) := by
  refine ⟨hexDigit (u / 4096 % 16) :: hexDigit (u / 256 % 16) :: hexDigit (u / 16 % 16) ::
    hexDigit (u % 16) :: rest, rfl, ?_⟩
  have hx (m : Nat) : hexValue (hexDigit (m % 16)) = some (m % 16) :=
    hexValue_hexDigit _ (Nat.mod_lt _ (by omega))
  simp only [scanUnit, hx, Option.bind_eq_bind, Option.bind_some, Option.some.injEq, Prod.mk.injEq,
    and_true]
  omega

theorem char_range (c : Char) : c.toNat < 55296 ∨ (57343 < c.toNat ∧ c.toNat < 1114112) := by
  rcases c.valid with h | h
  · exact .inl h
  · exact .inr h

/-- `\uXXXX` of a character below the surrogates' plane reads back as it. -/
theorem scanEscape_unit {c : Char} (h : c.toNat < 65536) (rest : List Char) :
    ∃ t, escapeUnit c.toNat ++ rest = '\\' :: t ∧ scanEscape t = some (c, rest) := by
  have hr := char_range c
  obtain ⟨t, ht, hs⟩ := scanUnit_escapeUnit h rest
  refine ⟨'u' :: t, ht, ?_⟩
  have h1 : ¬ (55296 ≤ c.toNat ∧ c.toNat < 56320) := by omega
  have h2 : ¬ (56320 ≤ c.toNat ∧ c.toNat < 57344) := by omega
  simp only [scanEscape, scanUnicode, hs, h1, h2, if_false, Char.ofNat_toNat]

/-- The two units of a surrogate pair recombine. -/
theorem scanEscape_pair {c : Char} (h : 65536 ≤ c.toNat) (rest : List Char) :
    ∃ t, escapeUnit (55296 + (c.toNat - 65536) / 1024) ++
        escapeUnit (56320 + (c.toNat - 65536) % 1024) ++ rest = '\\' :: t ∧
      scanEscape t = some (c, rest) := by
  have hr := char_range c
  obtain ⟨t₂, ht₂, hs₂⟩ := scanUnit_escapeUnit
    (u := 56320 + (c.toNat - 65536) % 1024) (by omega) rest
  obtain ⟨t₁, ht₁, hs₁⟩ := scanUnit_escapeUnit
    (u := 55296 + (c.toNat - 65536) / 1024) (by omega) ('\\' :: 'u' :: t₂)
  refine ⟨'u' :: t₁, by rw [List.append_assoc, ht₂, ht₁], ?_⟩
  have h1 : 55296 ≤ 55296 + (c.toNat - 65536) / 1024 ∧
      55296 + (c.toNat - 65536) / 1024 < 56320 := by omega
  have h2 : 56320 ≤ 56320 + (c.toNat - 65536) % 1024 ∧
      56320 + (c.toNat - 65536) % 1024 < 57344 := by omega
  have h3 : 65536 + (55296 + (c.toNat - 65536) / 1024 - 55296) * 1024 +
      (56320 + (c.toNat - 65536) % 1024 - 56320) = c.toNat := by omega
  simp only [scanEscape, scanUnicode, hs₁, h1, and_self, if_true, hs₂, h2, h3, Char.ofNat_toNat]

/-- A printed character is one escape or itself. -/
theorem escapeChar_cases (ascii : Bool) (c : Char) (rest : List Char) :
    (∃ t, escapeChar ascii c ++ rest = '\\' :: t ∧ scanEscape t = some (c, rest)) ∨
    (escapeChar ascii c ++ rest = c :: rest ∧ c ≠ '"' ∧ c ≠ '\\' ∧ 32 ≤ c.toNat) := by
  by_cases h1 : c = '"'
  · subst h1; exact .inl ⟨_, rfl, rfl⟩
  by_cases h2 : c = '\\'
  · subst h2; exact .inl ⟨_, rfl, rfl⟩
  by_cases h3 : c = '\n'
  · subst h3; exact .inl ⟨_, rfl, rfl⟩
  by_cases h4 : c = '\r'
  · subst h4; exact .inl ⟨_, rfl, rfl⟩
  by_cases h5 : c = '\t'
  · subst h5; exact .inl ⟨_, rfl, rfl⟩
  rw [escapeChar, if_neg h1, if_neg h2, if_neg h3, if_neg h4, if_neg h5]
  by_cases h6 : c.toNat = 8
  · rw [if_pos h6]
    exact .inl ⟨'b' :: rest, rfl, by rw [scanEscape, ← h6, Char.ofNat_toNat]⟩
  rw [if_neg h6]
  by_cases h7 : c.toNat = 12
  · rw [if_pos h7]
    exact .inl ⟨'f' :: rest, rfl, by rw [scanEscape, ← h7, Char.ofNat_toNat]⟩
  rw [if_neg h7]
  by_cases h8 : c.toNat < 32
  · rw [if_pos h8]
    exact .inl (scanEscape_unit (by omega) rest)
  rw [if_neg h8]
  by_cases h9 : ascii = true ∧ 126 < c.toNat
  · rw [if_pos h9]
    by_cases h10 : c.toNat < 65536
    · rw [if_pos h10]
      exact .inl (scanEscape_unit h10 rest)
    · rw [if_neg h10]
      exact .inl (scanEscape_pair (by omega) rest)
  · rw [if_neg h9]
    exact .inr ⟨rfl, h1, h2, by omega⟩

theorem escapeText_length (ascii : Bool) (cs : List Char) : cs.length ≤ (escapeText ascii cs).length := by
  induction cs with
  | nil => simp
  | cons c cs ih =>
    have : 1 ≤ (escapeChar ascii c).length := by
      rcases escapeChar_cases ascii c [] with ⟨t, ht, -⟩ | ⟨ht, -⟩ <;>
        rw [List.append_nil] at ht <;> simp [ht]
    simp only [escapeText, List.length_cons, List.length_append]
    omega

theorem escapeText_plain {ascii : Bool} {cs : List Char} (h : ∀ c ∈ cs, escapeChar ascii c = [c]) :
    escapeText ascii cs = cs := by
  induction cs with
  | nil => rfl
  | cons c cs ih =>
    rw [escapeText, h c List.mem_cons_self, ih fun d hd => h d (List.mem_cons_of_mem c hd)]
    rfl

theorem scanChars_escapeText (ascii : Bool) {cs : List Char} {n : Nat} (hn : cs.length < n)
    (rest : List Char) : scanChars n (escapeText ascii cs ++ '"' :: rest) = some (cs, rest) := by
  induction cs generalizing n with
  | nil =>
    obtain ⟨n, rfl⟩ : ∃ m, n = m + 1 := ⟨n - 1, by simp at hn; omega⟩
    simp [escapeText, scanChars]
  | cons c cs ih =>
    obtain ⟨n, rfl⟩ : ∃ m, n = m + 1 := ⟨n - 1, by simp at hn; omega⟩
    have hi := ih (n := n) (by simp at hn; omega)
    simp only [escapeText, List.append_assoc]
    rcases escapeChar_cases ascii c (escapeText ascii cs ++ '"' :: rest) with
      ⟨t, ht, hs⟩ | ⟨ht, hq, hb, hc⟩
    · rw [ht]
      simp [scanChars, hs, hi]
    · rw [ht]
      simp [scanChars, hq, hb, Nat.not_lt.mpr hc, hi]

theorem scanString_dump (ascii : Bool) (s : String) (rest : List Char) :
    scanString (escapeText ascii s.toList ++ '"' :: rest) = some (s, rest) := by
  have hl := escapeText_length ascii s.toList
  rw [scanString, scanChars_escapeText ascii (by simp; omega)]
  simp

/-! ## Values -/

mutual
/-- The fuel a printed value takes. -/
def Value.size : Value F → Nat
  | .arr xs => 1 + itemsSize xs
  | .obj fields => 1 + fieldsSize fields
  | _ => 1

def itemsSize : List (Value F) → Nat
  | [] => 0
  | x :: xs => 1 + x.size + itemsSize xs

def fieldsSize : List (String × Value F) → Nat
  | [] => 0
  | (_, v) :: rest => 1 + v.size + fieldsSize rest
end

variable (fl : FloatText F) (ascii : Bool)

theorem dumpItems_stop (xs : List (Value F)) (rest : List Char) : Stop (dumpItems fl ascii xs ++ rest) := by
  cases xs <;> simp only [dumpItems, List.cons_append] <;> exact Stop.cons (by simp)

theorem dumpFields_stop (fs : List (String × Value F)) (rest : List Char) :
    Stop (dumpFields fl ascii fs ++ rest) := by
  obtain _ | ⟨⟨k, v⟩, fs⟩ := fs <;> simp only [dumpFields, List.cons_append] <;> exact Stop.cons (by simp)

/-- A character no value but a number or a literal starts with. -/
def Starts (cs : List Char) : Prop := ∃ c t, cs = c :: t ∧ isWs c = false ∧ c ≠ ']' ∧ c ≠ '}'

theorem Starts.skipWs {cs : List Char} (h : Starts cs) : skipWs cs = cs := by
  obtain ⟨c, t, rfl, hc, -⟩ := h
  simp [PyJson.skipWs, hc]

theorem digit_starts {c : Char} (h : isDigit c = true) : isWs c = false ∧ c ≠ ']' ∧ c ≠ '}' := by
  refine ⟨?_, ?_, ?_⟩
  · simp only [isWs, Bool.or_eq_false_iff, decide_eq_false_iff_not]
    refine ⟨⟨⟨?_, ?_⟩, ?_⟩, ?_⟩ <;> (rintro rfl; simp [isDigit] at h)
  · rintro rfl; simp [isDigit] at h
  · rintro rfl; simp [isDigit] at h

/-- A numeral starts with a digit or a minus sign. -/
theorem scanNumber_head {cs : List Char} {out} (h : scanNumber cs = some out) :
    ∃ c t, cs = c :: t ∧ (c = '-' ∨ isDigit c = true) := by
  match cs with
  | [] => simp [scanNumber] at h
  | c :: t =>
    refine ⟨c, t, rfl, ?_⟩
    by_cases hc : c = '-'
    · exact .inl hc
    · refine .inr ?_
      simp only [scanNumber, hc, if_false, scanUnsigned] at h
      split at h
      · assumption
      · cases h

theorem numeral_starts {cs : List Char} {out} (h : scanNumber cs = some out) (rest : List Char) :
    Starts (cs ++ rest) := by
  obtain ⟨c, t, rfl, rfl | hc⟩ := scanNumber_head h
  · exact ⟨_, _, rfl, by decide, by decide, by decide⟩
  · exact ⟨_, _, rfl, digit_starts hc⟩

theorem scanNumber_intText (i : Int) : ∃ out, scanNumber (intText i) = some out := by
  unfold intText
  split
  · exact ⟨_, scanNumber_neg_natText _⟩
  · exact ⟨_, scanNumber_natText _⟩

theorem dump_starts (v : Value F) (rest : List Char) : Starts (dump fl ascii v ++ rest) := by
  match v with
  | .null | .bool true | .bool false | .str _ | .arr [] | .arr (_ :: _) | .obj []
  | .obj ((_, _) :: _) =>
    simp only [dump, dumpString, List.cons_append]
    exact ⟨_, _, rfl, by decide, by decide, by decide⟩
  | .int i =>
    obtain ⟨out, h⟩ := scanNumber_intText i
    exact numeral_starts h rest
  | .float x => exact numeral_starts (fl.literal x) rest

/-- A numeral is scanned as one. -/
theorem scanValue_numeral {cs : List Char} {out} (h : scanNumber cs = some out) (n : Nat) :
    scanValue fl (n + 1) cs = scanNumeral fl cs := by
  obtain ⟨c, t, rfl, hc⟩ := scanNumber_head h
  have hne : c ≠ '"' ∧ c ≠ '{' ∧ c ≠ '[' ∧ c ≠ 'n' ∧ c ≠ 't' ∧ c ≠ 'f' := by
    rcases hc with rfl | hc
    · decide
    · refine ⟨?_, ?_, ?_, ?_, ?_, ?_⟩ <;> (rintro rfl; simp [isDigit] at hc)
  simp [scanValue, hne]

mutual
/-- The scanner reads a printed value and stops where it ends. -/
theorem scanValue_dump : ∀ (v : Value F) (n : Nat) (rest : List Char), v.WF → v.intsOk = true →
    v.size ≤ n → Stop rest → scanValue fl n (dump fl ascii v ++ rest) = some (v, rest)
  | v, 0, _, _, _, hn, _ => by cases v <;> simp [Value.size] at hn
  | .null, n + 1, rest, _, _, _, _ => by simp [dump, scanValue]
  | .bool true, n + 1, rest, _, _, _, _ => by simp [dump, scanValue]
  | .bool false, n + 1, rest, _, _, _, _ => by simp [dump, scanValue]
  | .int i, n + 1, rest, _, hi, _, hr => by
    obtain ⟨out, h⟩ := scanNumber_intText i
    simp only [Value.intsOk, decide_eq_true_eq] at hi
    simp only [dump]
    rw [scanValue_numeral fl (scanNumber_append hr.ends h)]
    exact scanNumeral_int fl hi hr.ends
  | .float x, n + 1, rest, _, _, _, hr => by
    simp only [dump]
    rw [scanValue_numeral fl (scanNumber_append hr.ends (fl.literal x))]
    exact scanNumeral_float fl x hr.ends
  | .str s, n + 1, rest, _, _, _, _ => by
    simp only [dump, dumpString, List.cons_append, List.append_assoc, List.nil_append, scanValue, if_true]
    rw [scanString_dump]
    rfl
  | .arr [], n + 1, rest, _, _, _, _ => by simp [dump, scanValue, skipWs, isWs]
  | .arr (x :: xs), n + 1, rest, hw, hi, hn, _ => by
    simp only [Value.size] at hn
    have hitems := scanItems_dump x xs n rest hw hi (by omega)
    have hst := dump_starts fl ascii x (dumpItems fl ascii xs ++ rest)
    simp only [dump, List.cons_append, List.append_assoc, scanValue]
    simp only [hst.skipWs, Char.reduceEq, if_false, if_true]
    obtain ⟨c, t, hc, -, hb, -⟩ := hst
    rw [hc] at hitems ⊢
    split
    · next heq => cases heq; exact absurd rfl hb
    · rw [hitems]; rfl
  | .obj [], n + 1, rest, _, _, _, _ => by simp [dump, scanValue, skipWs, isWs]
  | .obj ((k, v) :: fs), n + 1, rest, hw, hi, hn, _ => by
    simp only [Value.size] at hn
    have hfields := scanFields_dump k v fs n rest hw.2 hi (by omega)
    simp only [dumpString, List.cons_append, List.append_assoc, List.nil_append] at hfields
    simp only [dump, dumpString, List.cons_append, List.append_assoc, List.nil_append, scanValue]
    simp only [skipWs, isWs, Char.reduceEq, if_false, if_true, List.dropWhile_cons, decide_false,
      Bool.or_false, Bool.false_eq_true]
    split
    · next heq => cases heq
    · rw [hfields]
      simp [ofPairs_sorted hw.1]

theorem scanItems_dump : ∀ (x : Value F) (xs : List (Value F)) (n : Nat) (rest : List Char),
    itemsWF (x :: xs) → itemsIntsOk (x :: xs) = true → itemsSize (x :: xs) ≤ n →
    scanItems fl n (dump fl ascii x ++ (dumpItems fl ascii xs ++ rest)) = some (x :: xs, rest)
  | _, _, 0, _, _, _, hn => by simp only [itemsSize] at hn; omega
  | x, xs, n + 1, rest, hw, hi, hn => by
    simp only [itemsSize] at hn
    simp only [itemsIntsOk, Bool.and_eq_true] at hi
    have hst := dumpItems_stop fl ascii xs rest
    have hx := scanValue_dump x n _ hw.1 hi.1 (by omega) hst
    simp only [scanItems, hx, Option.bind_some, hst.skipWs]
    match xs with
    | [] => simp [dumpItems]
    | y :: ys =>
      have hy := scanItems_dump y ys n rest hw.2 (by simpa [itemsIntsOk] using hi.2) (by omega)
      simp only [dumpItems, List.cons_append, List.append_assoc,
        (dump_starts fl ascii y _).skipWs, hy, Option.map_some]

theorem scanFields_dump : ∀ (k : String) (v : Value F) (fs : List (String × Value F)) (n : Nat)
    (rest : List Char), fieldsWF ((k, v) :: fs) → fieldsIntsOk ((k, v) :: fs) = true →
    fieldsSize ((k, v) :: fs) ≤ n →
    scanFields fl n (dumpString ascii k ++ ':' :: (dump fl ascii v ++ (dumpFields fl ascii fs ++ rest)))
      = some ((k, v) :: fs, rest)
  | _, _, _, 0, _, _, _, hn => by simp only [fieldsSize] at hn; omega
  | k, v, fs, n + 1, rest, hw, hi, hn => by
    simp only [fieldsSize] at hn
    simp only [fieldsIntsOk, Bool.and_eq_true] at hi
    have hst := dumpFields_stop fl ascii fs rest
    have hv := scanValue_dump v n _ hw.1 hi.1 (by omega) hst
    have hcolon : skipWs (':' :: (dump fl ascii v ++ (dumpFields fl ascii fs ++ rest))) =
        ':' :: (dump fl ascii v ++ (dumpFields fl ascii fs ++ rest)) := rfl
    simp only [dumpString, List.cons_append, List.append_assoc, List.nil_append, scanFields, if_true,
      scanString_dump, Option.bind_some, hcolon, (dump_starts fl ascii v _).skipWs, hv, hst.skipWs]
    match fs with
    | [] => simp [dumpFields]
    | (k', v') :: fs =>
      have hf := scanFields_dump k' v' fs n rest hw.2 (by simpa [fieldsIntsOk] using hi.2) (by omega)
      have hq : ∀ t, skipWs (dumpString ascii k' ++ t) = dumpString ascii k' ++ t := fun _ => rfl
      simp only [dumpFields, List.cons_append, List.append_assoc, hq, hf, Option.map_some]
end

mutual
theorem Value.size_le : ∀ v : Value F, v.size ≤ 2 * (dump fl ascii v).length
  | .null | .bool true | .bool false => by simp [Value.size, dump]
  | .int i => by
    obtain ⟨out, h⟩ := scanNumber_intText i
    obtain ⟨c, t, hc, -⟩ := scanNumber_head h
    simp [Value.size, dump, hc]
    omega
  | .float x => by
    obtain ⟨c, t, hc, -⟩ := scanNumber_head (fl.literal x)
    simp only [Value.size, dump, hc, List.length_cons]
    omega
  | .str s => by simp [Value.size, dump, dumpString]; omega
  | .arr [] => by simp [Value.size, dump, itemsSize]
  | .arr (x :: xs) => by
    have h1 := Value.size_le x
    have h2 := itemsSize_le xs
    simp only [Value.size, itemsSize, dump, List.length_cons, List.length_append]
    omega
  | .obj [] => by simp [Value.size, dump, fieldsSize]
  | .obj ((k, v) :: fs) => by
    have h1 := Value.size_le v
    have h2 := fieldsSize_le fs
    simp only [Value.size, fieldsSize, dump, List.length_cons, List.length_append]
    omega

theorem itemsSize_le : ∀ xs : List (Value F), itemsSize xs + 1 ≤ 2 * (dumpItems fl ascii xs).length
  | [] => by simp [itemsSize, dumpItems]
  | x :: xs => by
    have h1 := Value.size_le x
    have h2 := itemsSize_le xs
    simp only [itemsSize, dumpItems, List.length_cons, List.length_append]
    omega

theorem fieldsSize_le : ∀ fs : List (String × Value F),
    fieldsSize fs + 1 ≤ 2 * (dumpFields fl ascii fs).length
  | [] => by simp [fieldsSize, dumpFields]
  | (k, v) :: fs => by
    have h1 := Value.size_le v
    have h2 := fieldsSize_le fs
    simp only [fieldsSize, dumpFields, List.length_cons, List.length_append]
    omega
end

/-- A printed dict is read whatever follows it. -/
theorem scanValue_obj {fields : List (String × Value F)} {n : Nat} (rest : List Char) (hw : (Value.obj fields).WF)
    (hi : (Value.obj fields).intsOk = true) (hn : (Value.obj fields).size ≤ n) :
    scanValue fl n (dump fl ascii (.obj fields) ++ rest) = some (.obj fields, rest) := by
  match n, fields with
  | 0, _ => simp [Value.size] at hn
  | n + 1, [] => simp [dump, scanValue, skipWs, isWs]
  | n + 1, (k, v) :: fs =>
    simp only [Value.size] at hn
    have hfields := scanFields_dump fl ascii k v fs n rest hw.2 hi (by omega)
    simp only [dumpString, List.cons_append, List.append_assoc, List.nil_append] at hfields
    simp only [dump, dumpString, List.cons_append, List.append_assoc, List.nil_append, scanValue]
    simp only [skipWs, isWs, Char.reduceEq, if_false, if_true, List.dropWhile_cons, decide_false,
      Bool.or_false, Bool.false_eq_true]
    split
    · next heq => cases heq
    · rw [hfields]
      simp [ofPairs_sorted hw.1]

/-- **`loads` inverts `dumps`**, with `ensure_ascii` or without. -/
theorem loads_dumps {v : Value F} (hw : v.WF) {text : List Char} (h : dumps fl ascii v = some text) :
    loads fl text = some v := by
  unfold dumps at h
  split at h
  · next hi =>
    cases h
    have hsize := Value.size_le fl ascii v
    have hscan := scanValue_dump fl ascii v (2 * (dump fl ascii v).length + 2) [] hw hi (by omega) .nil
    have hst := (dump_starts fl ascii v []).skipWs
    rw [List.append_nil] at hscan hst
    simp only [loads, hst, hscan]
    rfl
  · cases h

/-- A printed dict with a newline after it. -/
theorem loads_dumps_newline {fields : List (String × Value F)} (hw : (Value.obj fields).WF)
    (hi : (Value.obj fields).intsOk = true) :
    loads fl (dump fl ascii (.obj fields) ++ ['\n']) = some (.obj fields) := by
  have hsize := Value.size_le fl ascii (.obj fields)
  have hlen : (dump fl ascii (.obj fields) ++ ['\n']).length = (dump fl ascii (.obj fields)).length + 1 := by
    simp
  have hscan := scanValue_obj fl ascii ['\n'] hw hi
    (show (Value.obj fields).size ≤ 2 * (dump fl ascii (.obj fields) ++ ['\n']).length + 2 by omega)
  have hst := (dump_starts fl ascii (.obj fields) ['\n']).skipWs
  rw [loads, hst, hscan]
  rfl

/-! ## What is read is in order -/

theorem insertField_some {k : String} {v : Value F} {fields out : List (String × Value F)}
    (h : insertField k v fields = some out) (hs : fields.Pairwise (·.1 < ·.1)) :
    out.Pairwise (·.1 < ·.1) ∧ ∀ f, f ∈ out ↔ f = (k, v) ∨ f ∈ fields := by
  induction fields generalizing out with
  | nil =>
    simp only [insertField, Option.some.injEq] at h
    subst h
    simp
  | cons field rest ih =>
    obtain ⟨k', v'⟩ := field
    obtain ⟨hk', hrest⟩ := List.pairwise_cons.mp hs
    simp only [insertField] at h
    split at h
    · next hlt =>
      simp only [Option.some.injEq] at h
      subst h
      refine ⟨List.pairwise_cons.mpr ⟨?_, hs⟩, fun f => by simp⟩
      intro f hf
      rcases List.mem_cons.mp hf with rfl | hf
      · exact hlt
      · exact lt_trans hlt (hk' f hf)
    · next hle =>
      split at h
      · cases h
      · next hne =>
        obtain ⟨out', hout', rfl⟩ := Option.map_eq_some_iff.mp h
        obtain ⟨hsorted, hmem⟩ := ih hout' hrest
        refine ⟨List.pairwise_cons.mpr ⟨?_, hsorted⟩, fun f => ?_⟩
        · intro f hf
          rcases (hmem f).mp hf with rfl | hf
          · exact lt_of_le_of_ne (not_lt.mp hle) (Ne.symm hne)
          · exact hk' f hf
        · simp only [List.mem_cons, hmem]
          tauto

theorem ofPairs_some {pairs fields : List (String × Value F)} (h : ofPairs pairs = some fields) :
    fields.Pairwise (·.1 < ·.1) ∧ ∀ f, f ∈ fields ↔ f ∈ pairs := by
  induction pairs generalizing fields with
  | nil =>
    simp only [ofPairs, Option.some.injEq] at h
    subst h
    simp
  | cons field rest ih =>
    obtain ⟨k, v⟩ := field
    obtain ⟨fields', hfields', h⟩ := Option.bind_eq_some_iff.mp h
    obtain ⟨hsorted, hmem⟩ := ih hfields'
    obtain ⟨hout, houtmem⟩ := insertField_some h hsorted
    exact ⟨hout, fun f => by rw [houtmem, hmem, List.mem_cons]⟩

theorem itemsWF_iff {xs : List (Value F)} : itemsWF xs ↔ ∀ x ∈ xs, x.WF := by
  induction xs with
  | nil => simp [itemsWF]
  | cons x xs ih => simp [itemsWF, ih]

theorem fieldsWF_iff {fields : List (String × Value F)} : fieldsWF fields ↔ ∀ f ∈ fields, f.2.WF := by
  induction fields with
  | nil => simp [fieldsWF]
  | cons f rest ih => simp [fieldsWF, ih]

theorem scanNumeral_wf {cs : List Char} {v : Value F} {r : List Char} (h : scanNumeral fl cs = some (v, r)) : v.WF := by
  unfold scanNumeral at h
  split at h
  · cases h
  · obtain ⟨x, -, hx⟩ := Option.map_eq_some_iff.mp h
    cases hx
    trivial
  · obtain ⟨i, -, hi⟩ := Option.map_eq_some_iff.mp h
    cases hi
    trivial

/-- With this much fuel, whatever is scanned has its dicts in order. -/
structure ScansWF (n : Nat) : Prop where
  value : ∀ cs v r, scanValue fl n cs = some (v, r) → v.WF
  items : ∀ cs xs r, scanItems fl n cs = some (xs, r) → ∀ x ∈ xs, x.WF
  fields : ∀ cs fs r, scanFields fl n cs = some (fs, r) → ∀ f ∈ fs, f.2.WF

theorem scanValue_step {n : Nat} (ih : ScansWF fl n) {cs : List Char} {v : Value F} {r : List Char}
    (h : scanValue fl (n + 1) cs = some (v, r)) : v.WF := by
  cases cs with
  | nil => cases h
  | cons c cs =>
    simp only [scanValue] at h
    split at h
    · obtain ⟨s, -, hs⟩ := Option.map_eq_some_iff.mp h
      cases hs
      trivial
    split at h
    · split at h
      · cases h
        exact ⟨List.Pairwise.nil, trivial⟩
      · obtain ⟨⟨pairs, t⟩, hpairs, h⟩ := Option.bind_eq_some_iff.mp h
        obtain ⟨fields, hfields, h⟩ := Option.map_eq_some_iff.mp h
        cases h
        obtain ⟨hsorted, hmem⟩ := ofPairs_some hfields
        refine ⟨hsorted, fieldsWF_iff.mpr fun f hf => ?_⟩
        exact ih.fields _ _ _ hpairs f ((hmem f).mp hf)
    split at h
    · split at h
      · cases h
        trivial
      · obtain ⟨⟨xs, t⟩, hxs, h⟩ := Option.map_eq_some_iff.mp h
        cases h
        exact itemsWF_iff.mpr (ih.items _ _ _ hxs)
    split at h
    · split at h <;> cases h
      trivial
    split at h
    · split at h <;> cases h
      trivial
    split at h
    · split at h <;> cases h
      trivial
    · exact scanNumeral_wf fl h

theorem scanItems_step {n : Nat} (ih : ScansWF fl n) {cs : List Char} {xs : List (Value F)} {r : List Char}
    (h : scanItems fl (n + 1) cs = some (xs, r)) : ∀ x ∈ xs, x.WF := by
  simp only [scanItems] at h
  obtain ⟨⟨v, t⟩, hv, h⟩ := Option.bind_eq_some_iff.mp h
  have hvalue := ih.value _ _ _ hv
  split at h
  · cases h
    simpa using hvalue
  · obtain ⟨⟨vs, t'⟩, hvs, h⟩ := Option.map_eq_some_iff.mp h
    cases h
    exact List.forall_mem_cons.mpr ⟨hvalue, ih.items _ _ _ hvs⟩
  · cases h

theorem scanFields_step {n : Nat} (ih : ScansWF fl n) {cs : List Char} {fs : List (String × Value F)} {r : List Char}
    (h : scanFields fl (n + 1) cs = some (fs, r)) : ∀ f ∈ fs, f.2.WF := by
  cases cs with
  | nil => cases h
  | cons c cs =>
    simp only [scanFields] at h
    split at h
    · obtain ⟨⟨k, t⟩, -, h⟩ := Option.bind_eq_some_iff.mp h
      split at h
      · obtain ⟨⟨v, t'⟩, hv, h⟩ := Option.bind_eq_some_iff.mp h
        have hvalue := ih.value _ _ _ hv
        split at h
        · cases h
          simpa using hvalue
        · obtain ⟨⟨more, t''⟩, hmore, h⟩ := Option.map_eq_some_iff.mp h
          cases h
          exact List.forall_mem_cons.mpr ⟨hvalue, ih.fields _ _ _ hmore⟩
        · cases h
      · cases h
    · cases h

theorem scansWF (n : Nat) : ScansWF fl n := by
  induction n with
  | zero =>
    refine ⟨fun cs v r h => ?_, fun cs xs r h => ?_, fun cs fs r h => ?_⟩
    · cases h
    · cases h
    · cases h
  | succ n ih =>
    exact ⟨fun _ _ _ => scanValue_step fl ih, fun _ _ _ => scanItems_step fl ih, fun _ _ _ => scanFields_step fl ih⟩

/-- What `loads` builds has its dicts in order. -/
theorem loads_wf {cs : List Char} {v : Value F} (h : loads fl cs = some v) : v.WF := by
  unfold loads at h
  split at h
  · next w r hscan =>
    split at h
    · cases h
      exact (scansWF fl _).value _ _ _ hscan
    · cases h
  · cases h

/-! ## No control character inside what is printed -/

theorem ofNat_low {b : UInt8} {n : Nat} (h : b = UInt8.ofNat n) : n % 256 = b.toNat := by
  rw [h, UInt8.toNat_ofNat']

/-- A byte below 128 stands for itself only. -/
theorem utf8_low {c : Char} {b : UInt8} (hb : b.toNat < 128) (h : b ∈ String.utf8EncodeChar c) : c.toNat = b.toNat := by
  show c.val.toNat = b.toNat
  unfold String.utf8EncodeChar at h
  dsimp only at h
  split at h
  · have := ofNat_low (List.mem_singleton.mp h)
    omega
  split at h
  · rcases List.mem_cons.mp h with h | h
    · have := ofNat_low h
      omega
    · have := ofNat_low (List.mem_singleton.mp h)
      omega
  split at h
  · simp only [List.mem_cons, List.not_mem_nil, or_false] at h
    rcases h with h | h | h <;> have := ofNat_low h <;> omega
  · simp only [List.mem_cons, List.not_mem_nil, or_false] at h
    rcases h with h | h | h | h <;> have := ofNat_low h <;> omega

section Control

variable {k : Char} (hk : k.toNat < 32)
include hk

theorem ne_control {c : Char} (hc : 32 ≤ c.toNat) : k ≠ c := by
  rintro rfl
  omega

theorem escapeUnit_control (u : Nat) : k ∉ escapeUnit u := by
  have hdigits : ∀ d < 16, 32 ≤ (hexDigit d).toNat := by decide
  have hdigit : ∀ j, k ≠ hexDigit (j % 16) := fun j => ne_control hk (hdigits _ (Nat.mod_lt _ (by decide)))
  simp only [escapeUnit, List.mem_cons, List.not_mem_nil, or_false, not_or]
  exact ⟨ne_control hk (by decide), ne_control hk (by decide), hdigit _, hdigit _, hdigit _, hdigit _⟩

theorem escapeChar_control (c : Char) : k ∉ escapeChar ascii c := by
  have hpair : ∀ d : Char, 32 ≤ d.toNat → k ∉ ['\\', d] := by
    intro d hd
    simp only [List.mem_cons, List.not_mem_nil, or_false, not_or]
    exact ⟨ne_control hk (by decide), ne_control hk hd⟩
  have hself : ¬ c.toNat < 32 → k ∉ [c] := by
    intro hc
    rw [List.mem_singleton]
    exact ne_control hk (by omega)
  unfold escapeChar
  split_ifs
  all_goals first
    | exact escapeUnit_control hk _
    | exact hpair _ (by decide)
    | exact List.not_mem_append (escapeUnit_control hk _) (escapeUnit_control hk _)
    | exact hself ‹_›

theorem dumpString_control (s : String) : k ∉ dumpString ascii s := by
  have htext : ∀ cs : List Char, k ∉ escapeText ascii cs := by
    intro cs
    induction cs with
    | nil => simp [escapeText]
    | cons c cs ih => exact List.not_mem_append (escapeChar_control ascii hk c) ih
  have hquote : k ≠ '"' := ne_control hk (by decide)
  simp [dumpString, hquote, htext s.toList]

theorem intText_control (i : Int) : k ∉ intText i := by
  have hdigits : k ∉ natText i.natAbs := by
    intro h
    have := natText_digit h
    simp only [isDigit, Char.isDigit, Bool.and_eq_true, decide_eq_true_eq, UInt32.le_iff_toNat_le, ge_iff_le] at this
    have h48 : '0'.val.toNat = 48 := rfl
    have : k.toNat = k.val.toNat := rfl
    omega
  unfold intText
  split
  · simpa [ne_control hk (show 32 ≤ '-'.toNat by decide)] using hdigits
  · exact hdigits

end Control

mutual
/-- A printed value has no control character, if no printed float has. -/
theorem dump_control {k : Char} (hk : k.toNat < 32) (hf : ∀ x, k ∉ fl.render x) : ∀ v : Value F, k ∉ dump fl ascii v
  | .null | .bool true | .bool false | .arr [] | .obj [] => by
    have hplain : ∀ cs : List Char, cs.all (fun c => 32 ≤ c.toNat) = true → k ∉ cs := by
      intro cs h hmem
      have := of_decide_eq_true (List.all_eq_true.mp h k hmem)
      omega
    rw [dump]
    exact hplain _ rfl
  | .int i => by
    rw [dump]
    exact intText_control hk i
  | .float x => by
    rw [dump]
    refine List.not_mem_append ?_ (hf x)
    split
    · rw [List.mem_singleton]
      exact ne_control hk (by decide)
    · simp
  | .str s => by
    rw [dump]
    exact dumpString_control ascii hk s
  | .arr (x :: xs) => by
    have hx := dump_control hk hf x
    have hxs := dumpItems_control hk hf xs
    have hopen : k ≠ '[' := ne_control hk (by decide)
    simp [dump, hx, hxs, hopen]
  | .obj ((j, v) :: rest) => by
    have hj := dumpString_control ascii hk j
    have hv := dump_control hk hf v
    have hrest := dumpFields_control hk hf rest
    have hopen : k ≠ '{' := ne_control hk (by decide)
    have hcolon : k ≠ ':' := ne_control hk (by decide)
    simp [dump, hj, hv, hrest, hopen, hcolon]

theorem dumpItems_control {k : Char} (hk : k.toNat < 32) (hf : ∀ x, k ∉ fl.render x) :
    ∀ xs : List (Value F), k ∉ dumpItems fl ascii xs
  | [] => by
    rw [dumpItems, List.mem_singleton]
    exact ne_control hk (by decide)
  | x :: xs => by
    have hx := dump_control hk hf x
    have hxs := dumpItems_control hk hf xs
    have hcomma : k ≠ ',' := ne_control hk (by decide)
    simp [dumpItems, hx, hxs, hcomma]

theorem dumpFields_control {k : Char} (hk : k.toNat < 32) (hf : ∀ x, k ∉ fl.render x) :
    ∀ fields : List (String × Value F), k ∉ dumpFields fl ascii fields
  | [] => by
    rw [dumpFields, List.mem_singleton]
    exact ne_control hk (by decide)
  | (j, v) :: rest => by
    have hj := dumpString_control ascii hk j
    have hv := dump_control hk hf v
    have hrest := dumpFields_control hk hf rest
    have hcomma : k ≠ ',' := ne_control hk (by decide)
    have hcolon : k ≠ ':' := ne_control hk (by decide)
    simp [dumpFields, hj, hv, hrest, hcomma, hcolon]
end

/-! ## Printed lengths -/

theorem escapeChar_length_le (ascii : Bool) (c : Char) : (escapeChar ascii c).length ≤ 12 := by
  simp only [escapeChar, escapeUnit, apply_ite List.length, List.length_append, List.length_cons, List.length_nil]
  split_ifs <;> omega

theorem escapeText_length_le (ascii : Bool) (cs : List Char) : (escapeText ascii cs).length ≤ 12 * cs.length := by
  induction cs with
  | nil => exact Nat.le_refl _
  | cons c cs ih =>
    have := escapeChar_length_le ascii c
    rw [escapeText, List.length_append, List.length_cons]
    omega

theorem dumpString_length_le (ascii : Bool) (s : String) : (dumpString ascii s).length ≤ 12 * s.toList.length + 2 := by
  have := escapeText_length_le ascii s.toList
  rw [dumpString, List.length_cons, List.length_append, List.length_singleton]
  omega

/-! ## Printed text is ASCII -/

def Ascii (cs : List Char) : Prop := ∀ c ∈ cs, c.toNat < 128

theorem Ascii.nil : Ascii [] := fun _ h => absurd h List.not_mem_nil

theorem Ascii.cons {c : Char} {cs : List Char} (hc : c.toNat < 128) (h : Ascii cs) : Ascii (c :: cs) :=
  List.forall_mem_cons.mpr ⟨hc, h⟩

theorem Ascii.append {cs ds : List Char} (h : Ascii cs) (h' : Ascii ds) : Ascii (cs ++ ds) :=
  List.forall_mem_append.mpr ⟨h, h'⟩

theorem digit_ascii {c : Char} (h : isDigit c = true) : c.toNat < 128 := by
  have hc : c.toNat ≤ 57 := by
    simp only [isDigit, Char.isDigit, Bool.and_eq_true, decide_eq_true_eq] at h
    exact h.2
  omega

theorem digits_ascii (cs : List Char) : Ascii (cs.takeWhile isDigit) :=
  fun _ h => digit_ascii (List.mem_takeWhile_imp h)

theorem scanFrac_ascii (cs : List Char) : Ascii (scanFrac cs).1 := by
  unfold scanFrac
  split
  · split
    · exact .nil
    · exact .cons (by decide) (digits_ascii _)
  · exact .nil

theorem scanSign_ascii (cs : List Char) : Ascii (scanSign cs).1 := by
  unfold scanSign
  split
  · exact .cons (by decide) .nil
  · exact .cons (by decide) .nil
  · exact .nil

theorem scanExp_ascii (cs : List Char) : Ascii (scanExp cs).1 := by
  unfold scanExp
  split
  · next e r =>
    split
    · next he =>
      dsimp only
      split
      · exact .nil
      · refine .append (.cons ?_ (scanSign_ascii r)) (digits_ascii _)
        rcases he with rfl | rfl <;> decide
    · exact .nil
  · exact .nil

theorem scanUnsigned_ascii {neg : Bool} {cs : List Char} {fl n text r} (h : scanUnsigned neg cs = some (fl, n, text, r)) :
    Ascii text := by
  unfold scanUnsigned at h
  split at h
  · cases h
  · next d r' =>
    split at h
    · next hd =>
      simp only [Option.some.injEq, Prod.mk.injEq] at h
      obtain ⟨-, -, rfl, -⟩ := h
      refine .append (.append ?_ (scanFrac_ascii _)) (scanExp_ascii _)
      split
      · exact .cons (by decide) .nil
      · exact .cons (digit_ascii hd) (digits_ascii _)
    · cases h

theorem scanNumber_ascii {cs : List Char} {fl n text r} (h : scanNumber cs = some (fl, n, text, r)) : Ascii text := by
  unfold scanNumber at h
  split at h
  · cases h
  · split at h <;> exact scanUnsigned_ascii h

theorem render_ascii (fl : FloatText F) (x : F) : Ascii (fl.render x) := scanNumber_ascii (fl.literal x)

theorem natText_ascii (n : Nat) : Ascii (natText n) := fun _ h => digit_ascii (natText_digit h)

theorem intText_ascii (i : Int) : Ascii (intText i) := by
  unfold intText
  split
  · exact .cons (by decide) (natText_ascii _)
  · exact natText_ascii _

theorem hexDigit_ascii : ∀ d < 16, (hexDigit d).toNat < 128 := by decide

theorem escapeUnit_ascii (u : Nat) : Ascii (escapeUnit u) := by
  refine .cons (by decide) (.cons (by decide) ?_)
  exact .cons (hexDigit_ascii _ (by omega)) (.cons (hexDigit_ascii _ (by omega)) (.cons (hexDigit_ascii _ (by omega))
    (.cons (hexDigit_ascii _ (by omega)) .nil)))

theorem escapeChar_ascii (c : Char) : Ascii (escapeChar true c) := by
  simp only [escapeChar]
  split_ifs with _ _ _ _ _ _ _ _ hbig
  all_goals first
    | exact .cons (by decide) (.cons (by decide) .nil)
    | exact escapeUnit_ascii _
    | exact .append (escapeUnit_ascii _) (escapeUnit_ascii _)
    | exact .cons (by simp only [true_and] at hbig; omega) .nil

theorem escapeText_ascii : ∀ cs : List Char, Ascii (escapeText true cs)
  | [] => .nil
  | c :: cs => .append (escapeChar_ascii c) (escapeText_ascii cs)

theorem dumpString_ascii (s : String) : Ascii (dumpString true s) :=
  .cons (by decide) (.append (escapeText_ascii _) (.cons (by decide) .nil))

mutual
/-- With `ensure_ascii` a printed value is ASCII. -/
theorem dump_ascii : ∀ v : Value F, Ascii (dump fl true v)
  | .null => by simp [dump, Ascii]
  | .bool true => by simp [dump, Ascii]
  | .bool false => by simp [dump, Ascii]
  | .int i => intText_ascii i
  | .float x => by
    refine .append ?_ (render_ascii fl x)
    split
    · exact .cons (by decide) .nil
    · exact .nil
  | .str s => dumpString_ascii s
  | .arr [] => by simp [dump, Ascii]
  | .arr (x :: xs) => .cons (by decide) (.append (dump_ascii x) (dumpItems_ascii xs))
  | .obj [] => by simp [dump, Ascii]
  | .obj ((k, v) :: rest) =>
    .cons (by decide) (.append (dumpString_ascii k) (.cons (by decide) (.append (dump_ascii v) (dumpFields_ascii rest))))

theorem dumpItems_ascii : ∀ xs : List (Value F), Ascii (dumpItems fl true xs)
  | [] => .cons (by decide) .nil
  | x :: xs => .cons (by decide) (.append (dump_ascii x) (dumpItems_ascii xs))

theorem dumpFields_ascii : ∀ fields : List (String × Value F), Ascii (dumpFields fl true fields)
  | [] => .cons (by decide) .nil
  | (k, v) :: rest =>
    .cons (by decide) (.append (dumpString_ascii k) (.cons (by decide) (.append (dump_ascii v) (dumpFields_ascii rest))))
end

end PyJson
