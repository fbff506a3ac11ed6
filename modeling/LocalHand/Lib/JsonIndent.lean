/-
`json.dumps` with `indent=2`: `loads` reads it back, and how much longer the text
of a value is one level deeper.
-/
import LocalHand.Lib.JsonRoundTrip
import Mathlib.Algebra.BigOperators.Group.List.Basic
import Mathlib.Tactic.Ring

namespace PyJson

variable {F : Type}

/-- A new line at a depth. -/
def line (depth : Nat) : List Char := '\n' :: List.replicate (2 * depth) ' '

section

variable (fl : FloatText F) (ascii : Bool)

mutual
/-- The value as it is printed at a depth. -/
def indent (depth : Nat) : Value F → List Char
  | .arr (x :: xs) => '[' :: (line (depth + 1) ++ (indent (depth + 1) x ++ indentItems depth xs))
  | .obj ((k, v) :: rest) =>
    '{' :: (line (depth + 1) ++ (dumpString ascii k ++ ':' :: ' ' :: (indent (depth + 1) v ++ indentFields depth rest)))
  | v => dump fl ascii v

def indentItems (depth : Nat) : List (Value F) → List Char
  | [] => line depth ++ [']']
  | x :: xs => ',' :: (line (depth + 1) ++ (indent (depth + 1) x ++ indentItems depth xs))

def indentFields (depth : Nat) : List (String × Value F) → List Char
  | [] => line depth ++ ['}']
  | (k, v) :: rest =>
    ',' :: (line (depth + 1) ++ (dumpString ascii k ++ ':' :: ' ' :: (indent (depth + 1) v ++ indentFields depth rest)))
end

end

mutual
/-- The line breaks in a printed value. -/
def Value.breaks : Value F → Nat
  | .arr (x :: xs) => 1 + x.breaks + itemsBreaks xs
  | .obj ((_, v) :: rest) => 1 + v.breaks + fieldsBreaks rest
  | _ => 0

def itemsBreaks : List (Value F) → Nat
  | [] => 1
  | x :: xs => 1 + x.breaks + itemsBreaks xs

def fieldsBreaks : List (String × Value F) → Nat
  | [] => 1
  | (_, v) :: rest => 1 + v.breaks + fieldsBreaks rest
end

variable (fl : FloatText F) (ascii : Bool)

/-! ## One level deeper -/

theorem line_deeper (w : Char → Nat) (depth : Nat) :
    ((line (depth + 1)).map w).sum = ((line depth).map w).sum + 2 * w ' ' := by
  simp only [line, List.map_cons, List.map_replicate, List.sum_cons, List.sum_replicate, nsmul_eq_mul, Nat.cast_id]
  ring

mutual
/-- Every line of a value printed one level deeper has two blanks more. -/
theorem indent_deeper (w : Char → Nat) : ∀ (v : Value F) (depth : Nat),
    ((indent fl ascii (depth + 1) v).map w).sum = ((indent fl ascii depth v).map w).sum + 2 * w ' ' * v.breaks
  | .arr (x :: xs), depth => by
    simp only [indent, Value.breaks, List.map_cons, List.map_append, List.sum_cons, List.sum_append,
      line_deeper w (depth + 1), indent_deeper w x (depth + 1), indentItems_deeper w xs depth]
    ring
  | .obj ((k, v) :: rest), depth => by
    simp only [indent, Value.breaks, List.map_cons, List.map_append, List.sum_cons, List.sum_append,
      line_deeper w (depth + 1), indent_deeper w v (depth + 1), indentFields_deeper w rest depth]
    ring
  | .null, _ | .bool _, _ | .int _, _ | .float _, _ | .str _, _ | .arr [], _ | .obj [], _ => by
    simp [indent, Value.breaks]

theorem indentItems_deeper (w : Char → Nat) : ∀ (xs : List (Value F)) (depth : Nat),
    ((indentItems fl ascii (depth + 1) xs).map w).sum =
      ((indentItems fl ascii depth xs).map w).sum + 2 * w ' ' * itemsBreaks xs
  | [], depth => by
    simp only [indentItems, itemsBreaks, List.map_append, List.sum_append, line_deeper w depth]
    ring
  | x :: xs, depth => by
    simp only [indentItems, itemsBreaks, List.map_cons, List.map_append, List.sum_cons, List.sum_append,
      line_deeper w (depth + 1), indent_deeper w x (depth + 1), indentItems_deeper w xs depth]
    ring

theorem indentFields_deeper (w : Char → Nat) : ∀ (fields : List (String × Value F)) (depth : Nat),
    ((indentFields fl ascii (depth + 1) fields).map w).sum =
      ((indentFields fl ascii depth fields).map w).sum + 2 * w ' ' * fieldsBreaks fields
  | [], depth => by
    simp only [indentFields, fieldsBreaks, List.map_append, List.sum_append, line_deeper w depth]
    ring
  | (k, v) :: rest, depth => by
    simp only [indentFields, fieldsBreaks, List.map_cons, List.map_append, List.sum_cons, List.sum_append,
      line_deeper w (depth + 1), indent_deeper w v (depth + 1), indentFields_deeper w rest depth]
    ring
end

/-! ## Reading back -/

theorem skipWs_line (depth : Nat) (rest : List Char) : skipWs (line depth ++ rest) = skipWs rest := by
  have hblanks : ∀ n, (List.replicate n ' ' ++ rest).dropWhile isWs = rest.dropWhile isWs := by
    intro n
    induction n with
    | zero => rfl
    | succ n ih => rw [List.replicate_succ, List.cons_append, List.dropWhile_cons_of_pos (by decide), ih]
  rw [skipWs, skipWs, line, List.cons_append, List.dropWhile_cons_of_pos (by decide), hblanks]

theorem skipWs_blank (rest : List Char) : skipWs (' ' :: rest) = skipWs rest := by
  rw [skipWs, skipWs, List.dropWhile_cons_of_pos (by decide)]

theorem indent_starts (depth : Nat) (v : Value F) (rest : List Char) : Starts (indent fl ascii depth v ++ rest) := by
  match v with
  | .arr (_ :: _) | .obj ((_, _) :: _) =>
    simp only [indent, List.cons_append]
    exact ⟨_, _, rfl, by decide, by decide, by decide⟩
  | .null | .bool _ | .int _ | .float _ | .str _ | .arr [] | .obj [] =>
    simp only [indent]
    exact dump_starts fl ascii _ rest

theorem quoted_starts (k : String) (rest : List Char) : Starts (dumpString ascii k ++ rest) :=
  ⟨'"', _, rfl, by decide, by decide, by decide⟩

theorem indentItems_ends (depth : Nat) (xs : List (Value F)) (rest : List Char) :
    Ends (indentItems fl ascii depth xs ++ rest) := by
  cases xs with
  | nil => exact Ends.line _
  | cons x xs => exact Stop.ends (Stop.cons (by simp))

theorem indentFields_ends (depth : Nat) (fields : List (String × Value F)) (rest : List Char) :
    Ends (indentFields fl ascii depth fields ++ rest) := by
  cases fields with
  | nil => exact Ends.line _
  | cons f fields => exact Stop.ends (Stop.cons (by simp))

/-- A value that is printed on one line. -/
def Value.isPlain : Value F → Bool
  | .arr (_ :: _) | .obj (_ :: _) => false
  | _ => true

theorem indent_plain {v : Value F} (h : v.isPlain = true) (depth : Nat) : indent fl ascii depth v = dump fl ascii v := by
  match v with
  | .arr (_ :: _) | .obj (_ :: _) => cases h
  | .null | .bool _ | .int _ | .float _ | .str _ | .arr [] | .obj [] => simp only [indent]

theorem scanValue_plain {v : Value F} {n : Nat} {rest : List Char} (h : v.isPlain = true) (hi : v.intsOk = true)
    (hr : Ends rest) : scanValue fl (n + 1) (dump fl ascii v ++ rest) = some (v, rest) := by
  match v with
  | .arr (_ :: _) | .obj (_ :: _) => cases h
  | .null | .bool true | .bool false | .arr [] | .obj [] => simp [dump, scanValue, skipWs, isWs]
  | .int i =>
    obtain ⟨out, hout⟩ := scanNumber_intText i
    simp only [Value.intsOk, decide_eq_true_eq] at hi
    simp only [dump]
    rw [scanValue_numeral fl (scanNumber_append hr hout)]
    exact scanNumeral_int fl hi hr
  | .float x =>
    simp only [dump]
    rw [scanValue_numeral fl (scanNumber_append hr (fl.literal x))]
    exact scanNumeral_float fl x hr
  | .str s =>
    simp only [dump, dumpString, List.cons_append, List.append_assoc, List.nil_append, scanValue, if_true]
    rw [scanString_dump]
    rfl

mutual
/-- The scanner reads an indented value and stops where it ends. -/
theorem scanValue_indent : ∀ (v : Value F) (n depth : Nat) (rest : List Char), v.WF → v.intsOk = true →
    v.size ≤ n → Ends rest → scanValue fl n (indent fl ascii depth v ++ rest) = some (v, rest)
  | v, 0, _, _, _, _, hn, _ => by cases v <;> simp [Value.size] at hn
  | .arr (x :: xs), n + 1, depth, rest, hw, hi, hn, _ => by
    simp only [Value.size] at hn
    have hitems := scanItems_indent x xs n depth rest hw hi (by omega)
    have hst := indent_starts fl ascii (depth + 1) x (indentItems fl ascii depth xs ++ rest)
    simp only [indent, List.cons_append, List.append_assoc, scanValue, Char.reduceEq, if_false, if_true, skipWs_line,
      hst.skipWs]
    obtain ⟨c, t, hc, -, hb, -⟩ := hst
    rw [hc] at hitems ⊢
    split
    · next heq => cases heq; exact absurd rfl hb
    · rw [hitems]; rfl
  | .obj ((k, v) :: fs), n + 1, depth, rest, hw, hi, hn, _ => by
    simp only [Value.size] at hn
    have hfields := scanFields_indent k v fs n depth rest hw.2 hi (by omega)
    have hst := quoted_starts ascii k
      (':' :: ' ' :: (indent fl ascii (depth + 1) v ++ (indentFields fl ascii depth fs ++ rest)))
    simp only [indent, List.cons_append, List.append_assoc, scanValue, Char.reduceEq, if_false, if_true, skipWs_line,
      hst.skipWs]
    obtain ⟨c, t, hc, -, -, hb⟩ := hst
    rw [hc] at hfields ⊢
    split
    · next heq => cases heq; exact absurd rfl hb
    · rw [hfields]
      simp [ofPairs_sorted hw.1]
  | .null, n + 1, depth, rest, _, hi, _, hr | .bool _, n + 1, depth, rest, _, hi, _, hr
  | .int _, n + 1, depth, rest, _, hi, _, hr | .float _, n + 1, depth, rest, _, hi, _, hr
  | .str _, n + 1, depth, rest, _, hi, _, hr | .arr [], n + 1, depth, rest, _, hi, _, hr
  | .obj [], n + 1, depth, rest, _, hi, _, hr => by
    rw [indent_plain fl ascii (by rfl)]
    exact scanValue_plain fl ascii (by rfl) hi hr

theorem scanItems_indent : ∀ (x : Value F) (xs : List (Value F)) (n depth : Nat) (rest : List Char),
    itemsWF (x :: xs) → itemsIntsOk (x :: xs) = true → itemsSize (x :: xs) ≤ n →
    scanItems fl n (indent fl ascii (depth + 1) x ++ (indentItems fl ascii depth xs ++ rest)) = some (x :: xs, rest)
  | _, _, 0, _, _, _, _, hn => by simp only [itemsSize] at hn; omega
  | x, xs, n + 1, depth, rest, hw, hi, hn => by
    simp only [itemsSize] at hn
    simp only [itemsIntsOk, Bool.and_eq_true] at hi
    have hends := indentItems_ends fl ascii depth xs rest
    have hx := scanValue_indent x n (depth + 1) _ hw.1 hi.1 (by omega) hends
    simp only [scanItems, hx, Option.bind_some]
    match xs with
    | [] =>
      have hclose : ∀ t, skipWs (']' :: t) = ']' :: t := fun _ => rfl
      simp only [indentItems, List.append_assoc, List.cons_append, List.nil_append, skipWs_line, hclose]
    | y :: ys =>
      have hy := scanItems_indent y ys n depth rest hw.2 (by simpa [itemsIntsOk] using hi.2) (by omega)
      have hcomma : ∀ t, skipWs (',' :: t) = ',' :: t := fun _ => rfl
      simp only [indentItems, List.cons_append, List.append_assoc, hcomma, skipWs_line,
        (indent_starts fl ascii (depth + 1) y _).skipWs, hy, Option.map_some]

theorem scanFields_indent : ∀ (k : String) (v : Value F) (fs : List (String × Value F)) (n depth : Nat)
    (rest : List Char), fieldsWF ((k, v) :: fs) → fieldsIntsOk ((k, v) :: fs) = true → fieldsSize ((k, v) :: fs) ≤ n →
    scanFields fl n (dumpString ascii k ++ ':' :: ' ' ::
      (indent fl ascii (depth + 1) v ++ (indentFields fl ascii depth fs ++ rest))) = some ((k, v) :: fs, rest)
  | _, _, _, 0, _, _, _, _, hn => by simp only [fieldsSize] at hn; omega
  | k, v, fs, n + 1, depth, rest, hw, hi, hn => by
    simp only [fieldsSize] at hn
    simp only [fieldsIntsOk, Bool.and_eq_true] at hi
    have hends := indentFields_ends fl ascii depth fs rest
    have hv := scanValue_indent v n (depth + 1) _ hw.1 hi.1 (by omega) hends
    have hcolon : ∀ t, skipWs (':' :: t) = ':' :: t := fun _ => rfl
    simp only [dumpString, List.cons_append, List.append_assoc, List.nil_append, scanFields, if_true,
      scanString_dump, Option.bind_some, hcolon, skipWs_blank, (indent_starts fl ascii (depth + 1) v _).skipWs, hv]
    match fs with
    | [] =>
      have hclose : ∀ t, skipWs ('}' :: t) = '}' :: t := fun _ => rfl
      simp only [indentFields, List.append_assoc, List.cons_append, List.nil_append, skipWs_line, hclose]
    | (k', v') :: fs =>
      have hf := scanFields_indent k' v' fs n depth rest hw.2 (by simpa [fieldsIntsOk] using hi.2) (by omega)
      have hcomma : ∀ t, skipWs (',' :: t) = ',' :: t := fun _ => rfl
      simp only [indentFields, List.cons_append, List.append_assoc, hcomma, skipWs_line,
        (quoted_starts ascii k' _).skipWs, hf, Option.map_some]
end

mutual
/-- Indenting only adds. -/
theorem dump_le_indent : ∀ (v : Value F) (depth : Nat), (dump fl ascii v).length ≤ (indent fl ascii depth v).length
  | .arr (x :: xs), depth => by
    have h1 := dump_le_indent x (depth + 1)
    have h2 := dumpItems_le_indent xs depth
    simp only [dump, indent, List.length_cons, List.length_append]
    omega
  | .obj ((k, v) :: rest), depth => by
    have h1 := dump_le_indent v (depth + 1)
    have h2 := dumpFields_le_indent rest depth
    simp only [dump, indent, List.length_cons, List.length_append]
    omega
  | .null, _ | .bool _, _ | .int _, _ | .float _, _ | .str _, _ | .arr [], _ | .obj [], _ => by simp [indent]

theorem dumpItems_le_indent : ∀ (xs : List (Value F)) (depth : Nat),
    (dumpItems fl ascii xs).length ≤ (indentItems fl ascii depth xs).length
  | [], depth => by simp [dumpItems, indentItems]
  | x :: xs, depth => by
    have h1 := dump_le_indent x (depth + 1)
    have h2 := dumpItems_le_indent xs depth
    simp only [dumpItems, indentItems, List.length_cons, List.length_append]
    omega

theorem dumpFields_le_indent : ∀ (fields : List (String × Value F)) (depth : Nat),
    (dumpFields fl ascii fields).length ≤ (indentFields fl ascii depth fields).length
  | [], depth => by simp [dumpFields, indentFields]
  | (k, v) :: rest, depth => by
    have h1 := dump_le_indent v (depth + 1)
    have h2 := dumpFields_le_indent rest depth
    simp only [dumpFields, indentFields, List.length_cons, List.length_append]
    omega
end

/-- **`loads` inverts an indented `dumps`** with a newline after it. -/
theorem loads_indent {v : Value F} (hw : v.WF) (hi : v.intsOk = true) :
    loads fl (indent fl ascii 0 v ++ ['\n']) = some v := by
  have hsize := Value.size_le fl ascii v
  have hlen := dump_le_indent fl ascii v 0
  have hscan := scanValue_indent fl ascii v (2 * (indent fl ascii 0 v ++ ['\n']).length + 2) 0 ['\n'] hw hi
    (by rw [List.length_append, List.length_singleton]; omega) (Ends.line [])
  rw [loads, (indent_starts fl ascii 0 v ['\n']).skipWs, hscan]
  rfl

end PyJson
