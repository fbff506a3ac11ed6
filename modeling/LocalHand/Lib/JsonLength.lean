/-
The texts in a value `loads` gives are no longer than what it has read.
-/
import LocalHand.Lib.JsonRoundTrip

namespace PyJson

variable {F : Type}

mutual
/-- The characters of the strings in a value, with their quotes. -/
def Value.chars : Value F → Nat
  | .str s => s.toList.length + 2
  | .arr xs => itemsChars xs
  | .obj fields => fieldsChars fields
  | _ => 0

def itemsChars : List (Value F) → Nat
  | [] => 0
  | x :: xs => x.chars + itemsChars xs

def fieldsChars : List (String × Value F) → Nat
  | [] => 0
  | (k, v) :: rest => k.toList.length + 2 + v.chars + fieldsChars rest
end

/-! ## What a scan leaves -/

theorem skipWs_length (cs : List Char) : (skipWs cs).length ≤ cs.length := (List.dropWhile_sublist _).length_le

theorem digits_length (cs : List Char) : (cs.dropWhile isDigit).length ≤ cs.length := (List.dropWhile_sublist _).length_le

theorem scanFrac_length (cs : List Char) : (scanFrac cs).2.length ≤ cs.length := by
  unfold scanFrac
  split
  · next r =>
    have hdigits := digits_length r
    split
    · rfl
    · show (r.dropWhile isDigit).length ≤ r.length + 1
      omega
  · rfl

theorem scanSign_length (cs : List Char) : (scanSign cs).2.length ≤ cs.length := by
  unfold scanSign
  split <;> simp

theorem scanExp_length (cs : List Char) : (scanExp cs).2.length ≤ cs.length := by
  unfold scanExp
  split
  · next e r =>
    have hsign := scanSign_length r
    have hdigits := digits_length (scanSign r).2
    rw [List.length_cons]
    split
    · dsimp only
      split
      · rfl
      · show ((scanSign r).2.dropWhile isDigit).length ≤ _
        omega
    · rfl
  · rfl

theorem scanUnsigned_length {neg : Bool} {cs : List Char} {fl n text r} (h : scanUnsigned neg cs = some (fl, n, text, r)) :
    r.length ≤ cs.length := by
  cases cs with
  | nil => cases h
  | cons d cs =>
    simp only [scanUnsigned] at h
    split at h
    · cases h
      have hexp := scanExp_length (scanFrac (if d = '0' then (['0'], cs) else (d :: cs.takeWhile isDigit, cs.dropWhile isDigit)).2).2
      have hfrac := scanFrac_length (if d = '0' then (['0'], cs) else (d :: cs.takeWhile isDigit, cs.dropWhile isDigit)).2
      have hint : (if d = '0' then (['0'], cs) else (d :: cs.takeWhile isDigit, cs.dropWhile isDigit)).2.length ≤ cs.length := by
        split
        · rfl
        · exact digits_length cs
      rw [List.length_cons]
      omega
    · cases h

theorem scanNumber_length {cs : List Char} {fl n text r} (h : scanNumber cs = some (fl, n, text, r)) : r.length ≤ cs.length := by
  cases cs with
  | nil => cases h
  | cons c cs =>
    simp only [scanNumber] at h
    split at h
    · have hrest := scanUnsigned_length h
      rw [List.length_cons]
      omega
    · exact scanUnsigned_length h

theorem scanUnit_length {cs : List Char} {u : Nat} {r : List Char} (h : scanUnit cs = some (u, r)) : r.length + 4 = cs.length := by
  unfold scanUnit at h
  split at h
  · simp only [Option.bind_eq_bind, Option.bind_eq_some_iff] at h
    obtain ⟨_, -, _, -, _, -, _, -, h⟩ := h
    cases h
    rfl
  · cases h

theorem scanUnicode_length {cs : List Char} {c : Char} {r : List Char} (h : scanUnicode cs = some (c, r)) : r.length + 4 ≤ cs.length := by
  unfold scanUnicode at h
  split at h
  · cases h
  · next u rest hunit =>
    have hfirst := scanUnit_length hunit
    split at h
    · split at h
      · next r' =>
        split at h
        · next l r'' hlow =>
          have hsecond := scanUnit_length hlow
          split at h
          · simp only [Option.some.injEq, Prod.mk.injEq] at h
            obtain ⟨-, rfl⟩ := h
            rw [List.length_cons, List.length_cons] at hfirst
            omega
          · cases h
        · cases h
      · cases h
    · split at h
      · cases h
      · simp only [Option.some.injEq, Prod.mk.injEq] at h
        obtain ⟨-, rfl⟩ := h
        omega

theorem scanEscape_length {cs : List Char} {c : Char} {r : List Char} (h : scanEscape cs = some (c, r)) : r.length + 1 ≤ cs.length := by
  unfold scanEscape at h
  split at h
  case h_9 rest =>
    exact Nat.succ_le_succ (le_trans (Nat.le_add_right _ 4) (scanUnicode_length h))
  case h_10 => cases h
  all_goals
    simp only [Option.some.injEq, Prod.mk.injEq] at h
    obtain ⟨-, rfl⟩ := h
    rw [List.length_cons]

theorem scanChars_length {n : Nat} : ∀ {cs ds t : List Char}, scanChars n cs = some (ds, t) → ds.length + 1 + t.length ≤ cs.length := by
  induction n with
  | zero => exact fun h => by cases h
  | succ n ih =>
    intro cs ds t h
    cases cs with
    | nil => cases h
    | cons c cs =>
      simp only [scanChars] at h
      rw [List.length_cons]
      split at h
      · simp only [Option.some.injEq, Prod.mk.injEq] at h
        obtain ⟨rfl, rfl⟩ := h
        rw [List.length_nil]
        omega
      split at h
      · simp only [Option.bind_eq_some_iff, Option.map_eq_some_iff, Prod.exists, Prod.mk.injEq] at h
        obtain ⟨d, rest, hescape, ds', t', hmore, rfl, rfl⟩ := h
        have hfirst := scanEscape_length hescape
        have hrest := ih hmore
        rw [List.length_cons]
        omega
      split at h
      · cases h
      · simp only [Option.map_eq_some_iff, Prod.exists, Prod.mk.injEq] at h
        obtain ⟨ds', t', hmore, rfl, rfl⟩ := h
        have hrest := ih hmore
        rw [List.length_cons]
        omega

theorem scanString_length {cs : List Char} {s : String} {t : List Char} (h : scanString cs = some (s, t)) :
    s.toList.length + 1 + t.length ≤ cs.length := by
  obtain ⟨⟨ds, t'⟩, hscan, h⟩ := Option.map_eq_some_iff.mp h
  cases h
  rw [String.toList_ofList]
  exact scanChars_length hscan

/-! ## Values -/

theorem insertField_chars {k : String} {v : Value F} {fields out : List (String × Value F)} (h : insertField k v fields = some out) :
    fieldsChars out = k.toList.length + 2 + v.chars + fieldsChars fields := by
  induction fields generalizing out with
  | nil =>
    cases h
    rfl
  | cons f rest ih =>
    simp only [insertField] at h
    split at h
    · cases h
      rfl
    split at h
    · cases h
    · obtain ⟨out', hout, h⟩ := Option.map_eq_some_iff.mp h
      cases h
      rw [fieldsChars, ih hout, fieldsChars]
      omega

theorem ofPairs_chars {pairs fields : List (String × Value F)} (h : ofPairs pairs = some fields) : fieldsChars fields = fieldsChars pairs := by
  induction pairs generalizing fields with
  | nil =>
    cases h
    rfl
  | cons f rest ih =>
    obtain ⟨fields', hfields, h⟩ := Option.bind_eq_some_iff.mp h
    rw [insertField_chars h, ih hfields, fieldsChars]

variable (fl : FloatText F)

theorem scanNumeral_chars {cs : List Char} {v : Value F} {r : List Char} (h : scanNumeral fl cs = some (v, r)) :
    v.chars + r.length ≤ cs.length := by
  unfold scanNumeral at h
  split at h
  · cases h
  · next hscan =>
    obtain ⟨x, -, hx⟩ := Option.map_eq_some_iff.mp h
    cases hx
    simpa [Value.chars] using scanNumber_length hscan
  · next hscan =>
    obtain ⟨i, -, hi⟩ := Option.map_eq_some_iff.mp h
    cases hi
    simpa [Value.chars] using scanNumber_length hscan

/-- With this much fuel, whatever is scanned has no more characters than are read. -/
structure ScansChars (n : Nat) : Prop where
  value : ∀ cs v r, scanValue fl n cs = some (v, r) → v.chars + r.length ≤ cs.length
  items : ∀ cs xs r, scanItems fl n cs = some (xs, r) → itemsChars xs + r.length ≤ cs.length
  fields : ∀ cs fs r, scanFields fl n cs = some (fs, r) → fieldsChars fs + r.length ≤ cs.length

theorem scanValue_chars {n : Nat} (ih : ScansChars fl n) {cs : List Char} {v : Value F} {r : List Char}
    (h : scanValue fl (n + 1) cs = some (v, r)) : v.chars + r.length ≤ cs.length := by
  cases cs with
  | nil => cases h
  | cons c cs =>
    have hskip := skipWs_length cs
    simp only [scanValue] at h
    rw [List.length_cons]
    split at h
    · simp only [Option.map_eq_some_iff, Prod.exists, Prod.mk.injEq] at h
      obtain ⟨s, t, hs, rfl, rfl⟩ := h
      have hstring := scanString_length hs
      rw [Value.chars]
      omega
    split at h
    · split at h
      · next hclose =>
        cases h
        rw [hclose, List.length_cons] at hskip
        rw [Value.chars, fieldsChars]
        omega
      · simp only [Option.bind_eq_some_iff, Option.map_eq_some_iff, Prod.exists, Prod.mk.injEq] at h
        obtain ⟨pairs, t, hpairs, fields, hfields, rfl, rfl⟩ := h
        have hscan := ih.fields _ _ _ hpairs
        rw [Value.chars, ofPairs_chars hfields]
        omega
    split at h
    · split at h
      · next hclose =>
        cases h
        rw [hclose, List.length_cons] at hskip
        rw [Value.chars, itemsChars]
        omega
      · simp only [Option.map_eq_some_iff, Prod.exists, Prod.mk.injEq] at h
        obtain ⟨xs, t, hxs, rfl, rfl⟩ := h
        have hscan := ih.items _ _ _ hxs
        rw [Value.chars]
        omega
    split at h
    · split at h <;> cases h
      simp only [Value.chars, List.length_cons]
      omega
    split at h
    · split at h <;> cases h
      simp only [Value.chars, List.length_cons]
      omega
    split at h
    · split at h <;> cases h
      simp only [Value.chars, List.length_cons]
      omega
    · exact scanNumeral_chars fl h

theorem scanItems_chars {n : Nat} (ih : ScansChars fl n) {cs : List Char} {xs : List (Value F)} {r : List Char}
    (h : scanItems fl (n + 1) cs = some (xs, r)) : itemsChars xs + r.length ≤ cs.length := by
  simp only [scanItems] at h
  obtain ⟨⟨v, t⟩, hv, h⟩ := Option.bind_eq_some_iff.mp h
  have hvalue := ih.value _ _ _ hv
  have hskip := skipWs_length t
  split at h
  · next hclose =>
    cases h
    rw [hclose, List.length_cons] at hskip
    simp only [itemsChars]
    omega
  · next t' hcomma =>
    simp only [Option.map_eq_some_iff, Prod.exists, Prod.mk.injEq] at h
    obtain ⟨vs, t'', hvs, rfl, rfl⟩ := h
    have hrest := ih.items _ _ _ hvs
    have hskip' := skipWs_length t'
    rw [hcomma, List.length_cons] at hskip
    rw [itemsChars]
    omega
  · cases h

theorem scanFields_chars {n : Nat} (ih : ScansChars fl n) {cs : List Char} {fs : List (String × Value F)} {r : List Char}
    (h : scanFields fl (n + 1) cs = some (fs, r)) : fieldsChars fs + r.length ≤ cs.length := by
  cases cs with
  | nil => cases h
  | cons c cs =>
    simp only [scanFields] at h
    rw [List.length_cons]
    split at h
    · obtain ⟨⟨k, t⟩, hk, h⟩ := Option.bind_eq_some_iff.mp h
      have hkey := scanString_length hk
      have hskip := skipWs_length t
      split at h
      · next t' hcolon =>
        rw [hcolon, List.length_cons] at hskip
        have hskip' := skipWs_length t'
        obtain ⟨⟨v, t''⟩, hv, h⟩ := Option.bind_eq_some_iff.mp h
        have hvalue := ih.value _ _ _ hv
        have hskip'' := skipWs_length t''
        split at h
        · next hclose =>
          cases h
          rw [hclose, List.length_cons] at hskip''
          simp only [fieldsChars]
          omega
        · next rest hcomma =>
          rw [hcomma, List.length_cons] at hskip''
          have hskip''' := skipWs_length rest
          simp only [Option.map_eq_some_iff, Prod.exists, Prod.mk.injEq] at h
          obtain ⟨more, last, hmore, rfl, rfl⟩ := h
          have hrest := ih.fields _ _ _ hmore
          rw [fieldsChars]
          omega
        · cases h
      · cases h
    · cases h

theorem scansChars (n : Nat) : ScansChars fl n := by
  induction n with
  | zero =>
    refine ⟨fun cs v r h => ?_, fun cs xs r h => ?_, fun cs fs r h => ?_⟩
    · cases h
    · cases h
    · cases h
  | succ n ih =>
    exact ⟨fun _ _ _ => scanValue_chars fl ih, fun _ _ _ => scanItems_chars fl ih, fun _ _ _ => scanFields_chars fl ih⟩

/-- What `loads` builds has no more characters than its text. -/
theorem loads_chars {cs : List Char} {v : Value F} (h : loads fl cs = some v) : v.chars ≤ cs.length := by
  unfold loads at h
  split at h
  · next w r hscan =>
    split at h
    · cases h
      have hvalue := (scansChars fl _).value _ _ _ hscan
      have hskip := skipWs_length cs
      omega
    · cases h
  · cases h

end PyJson
