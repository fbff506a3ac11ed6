/-
Python's `json` module on string-keyed data: the values, `dumps` with
`separators=(",", ":")` and `sort_keys`, and `loads` with a duplicate-key
check. Text is a list of characters.

A dict is compared without regard to order and printed sorted, so it is kept
as a key-sorted association list (`Value.WF`); `ofPairs` builds one from the
pairs in the order read. A lone surrogate escape and a float literal that
overflows to infinity are refused by `loads` itself: every strict caller
refuses the value they decode to.
-/
import Mathlib.Data.String.Basic
import Mathlib.Tactic.Common

namespace PyJson

/-- A JSON value; `F` is the type of finite floats. -/
inductive Value (F : Type) where
  | null
  | bool (b : Bool)
  | int (i : Int)
  | float (x : F)
  | str (s : String)
  | arr (xs : List (Value F))
  | obj (fields : List (String × Value F))

variable {F : Type}

mutual
def Value.decEq [DecidableEq F] : (v w : Value F) → Decidable (v = w)
  | .null, .null => .isTrue rfl
  | .bool a, .bool b => decidable_of_iff (a = b) (by simp)
  | .int a, .int b => decidable_of_iff (a = b) (by simp)
  | .float a, .float b => decidable_of_iff (a = b) (by simp)
  | .str a, .str b => decidable_of_iff (a = b) (by simp)
  | .arr a, .arr b =>
    have := Value.decEqItems a b
    decidable_of_iff (a = b) (by simp)
  | .obj a, .obj b =>
    have := Value.decEqFields a b
    decidable_of_iff (a = b) (by simp)
  | .null, .bool _ | .null, .int _ | .null, .float _ | .null, .str _ | .null, .arr _
  | .null, .obj _ | .bool _, .null | .bool _, .int _ | .bool _, .float _ | .bool _, .str _
  | .bool _, .arr _ | .bool _, .obj _ | .int _, .null | .int _, .bool _ | .int _, .float _
  | .int _, .str _ | .int _, .arr _ | .int _, .obj _ | .float _, .null | .float _, .bool _
  | .float _, .int _ | .float _, .str _ | .float _, .arr _ | .float _, .obj _ | .str _, .null
  | .str _, .bool _ | .str _, .int _ | .str _, .float _ | .str _, .arr _ | .str _, .obj _
  | .arr _, .null | .arr _, .bool _ | .arr _, .int _ | .arr _, .float _ | .arr _, .str _
  | .arr _, .obj _ | .obj _, .null | .obj _, .bool _ | .obj _, .int _ | .obj _, .float _
  | .obj _, .str _ | .obj _, .arr _ => .isFalse (by simp)

def Value.decEqItems [DecidableEq F] : (xs ys : List (Value F)) → Decidable (xs = ys)
  | [], [] => .isTrue rfl
  | [], _ :: _ | _ :: _, [] => .isFalse (by simp)
  | x :: xs, y :: ys =>
    have := Value.decEq x y
    have := Value.decEqItems xs ys
    decidable_of_iff (x = y ∧ xs = ys) (by simp)

def Value.decEqFields [DecidableEq F] : (xs ys : List (String × Value F)) → Decidable (xs = ys)
  | [], [] => .isTrue rfl
  | [], _ :: _ | _ :: _, [] => .isFalse (by simp)
  | (j, x) :: xs, (k, y) :: ys =>
    have := Value.decEq x y
    have := Value.decEqFields xs ys
    decidable_of_iff (j = k ∧ x = y ∧ xs = ys) (by simp [and_assoc])
end

instance [DecidableEq F] : DecidableEq (Value F) := Value.decEq

/-! ## Dicts -/

/-- `d.get(k)`. -/
def lookup (fields : List (String × Value F)) (k : String) : Option (Value F) :=
  (fields.find? (·.1 = k)).map (·.2)

/-- `value.get(k)` of a dict; `none` also where the value is no dict. -/
def Value.get? : Value F → String → Option (Value F)
  | .obj fields, k => lookup fields k
  | _, _ => none

/-- Insert a new key in order; `none` is a duplicate. -/
def insertField (k : String) (v : Value F) :
    List (String × Value F) → Option (List (String × Value F))
  | [] => some [(k, v)]
  | (k', v') :: rest =>
    if k < k' then some ((k, v) :: (k', v') :: rest)
    else if k = k' then none
    else (insertField k v rest).map ((k', v') :: ·)

/-- The dict of the pairs read, refusing a repeated key. -/
def ofPairs : List (String × Value F) → Option (List (String × Value F))
  | [] => some []
  | (k, v) :: rest => (ofPairs rest).bind (insertField k v)

mutual
/-- Every dict inside is sorted by key, with no key twice. -/
def Value.WF : Value F → Prop
  | .arr xs => itemsWF xs
  | .obj fields => fields.Pairwise (·.1 < ·.1) ∧ fieldsWF fields
  | _ => True

def itemsWF : List (Value F) → Prop
  | [] => True
  | x :: xs => x.WF ∧ itemsWF xs

def fieldsWF : List (String × Value F) → Prop
  | [] => True
  | (_, v) :: rest => v.WF ∧ fieldsWF rest
end

theorem insertField_front {k : String} {v : Value F} {fields : List (String × Value F)}
    (h : ∀ f ∈ fields, k < f.1) : insertField k v fields = some ((k, v) :: fields) := by
  cases fields with
  | nil => rfl
  | cons f rest => simp [insertField, h f (by simp)]

/-- Pairs already in order are their own dict. -/
theorem ofPairs_sorted {fields : List (String × Value F)} (h : fields.Pairwise (·.1 < ·.1)) :
    ofPairs fields = some fields := by
  induction fields with
  | nil => rfl
  | cons f rest ih =>
    obtain ⟨k, v⟩ := f
    obtain ⟨hk, hrest⟩ := List.pairwise_cons.mp h
    simp only [ofPairs, ih hrest, Option.bind_some]
    exact insertField_front hk

/-! ## Python's `==` -/

mutual
/-- The data with every number in one form; `intOf` is the exact integer a
float equals, if any. -/
def Value.numeric (intOf : F → Option Int) : Value F → Value F
  | .bool b => .int (if b then 1 else 0)
  | .float x => match intOf x with
    | some i => .int i
    | none => .float x
  | .arr xs => .arr (numericItems intOf xs)
  | .obj fields => .obj (numericFields intOf fields)
  | v => v

def numericItems (intOf : F → Option Int) : List (Value F) → List (Value F)
  | [] => []
  | x :: xs => x.numeric intOf :: numericItems intOf xs

def numericFields (intOf : F → Option Int) : List (String × Value F) → List (String × Value F)
  | [] => []
  | (k, v) :: rest => (k, v.numeric intOf) :: numericFields intOf rest
end

/-- `v == w`: `True == 1 == 1.0`. -/
def Value.same [DecidableEq F] (intOf : F → Option Int) (v w : Value F) : Bool :=
  v.numeric intOf = w.numeric intOf

/-! ## Numbers -/

def isDigit (c : Char) : Bool := c.isDigit

/-- `(\.[0-9]+)?` -/
def scanFrac : List Char → List Char × List Char
  | '.' :: r => if (r.takeWhile isDigit).isEmpty then ([], '.' :: r)
      else ('.' :: r.takeWhile isDigit, r.dropWhile isDigit)
  | r => ([], r)

/-- `[-+]?` -/
def scanSign : List Char → List Char × List Char
  | '-' :: r => (['-'], r)
  | '+' :: r => (['+'], r)
  | r => ([], r)

/-- `([eE][-+]?[0-9]+)?` -/
def scanExp : List Char → List Char × List Char
  | e :: r =>
    if e = 'e' ∨ e = 'E' then
      let (sign, r') := scanSign r
      if (r'.takeWhile isDigit).isEmpty then ([], e :: r)
      else (e :: sign ++ r'.takeWhile isDigit, r'.dropWhile isDigit)
    else ([], e :: r)
  | [] => ([], [])

/-- `(?:0|[1-9][0-9]*)(\.[0-9]+)?([eE][-+]?[0-9]+)?`: whether the literal is a
float, the sign it stands under, its text, and the rest. -/
def scanUnsigned (neg : Bool) : List Char → Option (Bool × Bool × List Char × List Char)
  | [] => none
  | d :: r =>
    if isDigit d then
      let (int, r) := if d = '0' then (['0'], r) else (d :: r.takeWhile isDigit, r.dropWhile isDigit)
      let (frac, r) := scanFrac r
      let (exp, r) := scanExp r
      some (!(frac ++ exp).isEmpty, neg, int ++ frac ++ exp, r)
    else none

/-- A number literal with its optional minus sign. -/
def scanNumber : List Char → Option (Bool × Bool × List Char × List Char)
  | [] => none
  | c :: r => if c = '-' then scanUnsigned true r else scanUnsigned false (c :: r)

/-- How the finite floats print and read: `float.__repr__` and `float(text)`
(`none` where the literal overflows). A printed float is one float literal,
and reads back as itself. -/
structure FloatText (F : Type) where
  neg : F → Bool
  render : F → List Char
  parse : Bool → List Char → Option F
  literal : ∀ x, scanNumber ((if neg x then ['-'] else []) ++ render x) = some (true, neg x, render x, [])
  parse_render : ∀ x, parse (neg x) (render x) = some x

/-- `sys.get_int_max_str_digits()`. -/
def maxStrDigits : Nat := 4300

def natText (n : Nat) : List Char := Nat.toDigits 10 n

def intText (i : Int) : List Char :=
  if i < 0 then '-' :: natText i.natAbs else natText i.natAbs

def readInt (neg : Bool) (digits : List Char) : Option Int :=
  if digits.length ≤ maxStrDigits then
    let n := Nat.ofDigitChars 10 digits 0
    some (if neg then -(n : Int) else n)
  else none

/-! ## Strings -/

def hexDigit (n : Nat) : Char := (Nat.digitChar n)

def hexValue (c : Char) : Option Nat :=
  if '0' ≤ c ∧ c ≤ '9' then some (c.toNat - '0'.toNat)
  else if 'a' ≤ c ∧ c ≤ 'f' then some (c.toNat - 'a'.toNat + 10)
  else if 'A' ≤ c ∧ c ≤ 'F' then some (c.toNat - 'A'.toNat + 10)
  else none

/-- `\uXXXX` of one UTF-16 code unit. -/
def escapeUnit (u : Nat) : List Char :=
  ['\\', 'u', hexDigit (u / 4096 % 16), hexDigit (u / 256 % 16), hexDigit (u / 16 % 16),
    hexDigit (u % 16)]

/-- One character as `json.dumps` prints it, with `ensure_ascii` or without. -/
def escapeChar (ascii : Bool) (c : Char) : List Char :=
  if c = '"' then ['\\', '"']
  else if c = '\\' then ['\\', '\\']
  else if c = '\n' then ['\\', 'n']
  else if c = '\r' then ['\\', 'r']
  else if c = '\t' then ['\\', 't']
  else if c.toNat = 8 then ['\\', 'b']
  else if c.toNat = 12 then ['\\', 'f']
  else if c.toNat < 32 then escapeUnit c.toNat
  else if ascii ∧ 126 < c.toNat then
    if c.toNat < 65536 then escapeUnit c.toNat
    else escapeUnit (55296 + (c.toNat - 65536) / 1024) ++ escapeUnit (56320 + (c.toNat - 65536) % 1024)
  else [c]

def escapeText (ascii : Bool) : List Char → List Char
  | [] => []
  | c :: cs => escapeChar ascii c ++ escapeText ascii cs

def dumpString (ascii : Bool) (s : String) : List Char :=
  '"' :: (escapeText ascii s.toList ++ ['"'])

/-- Four hexadecimal digits. -/
def scanUnit : List Char → Option (Nat × List Char)
  | a :: b :: c :: d :: r => do
    let a ← hexValue a
    let b ← hexValue b
    let c ← hexValue c
    let d ← hexValue d
    some (a * 4096 + b * 256 + c * 16 + d, r)
  | _ => none

/-- The text after `\u`: one code unit, or a surrogate pair. -/
def scanUnicode (cs : List Char) : Option (Char × List Char) :=
  match scanUnit cs with
  | none => none
  | some (u, r) =>
    if 55296 ≤ u ∧ u < 56320 then
      match r with
      | '\\' :: 'u' :: r' =>
        match scanUnit r' with
        | some (l, r'') =>
          if 56320 ≤ l ∧ l < 57344 then
            some (Char.ofNat (65536 + (u - 55296) * 1024 + (l - 56320)), r'')
          else none
        | none => none
      | _ => none
    else if 56320 ≤ u ∧ u < 57344 then none
    else some (Char.ofNat u, r)

/-- The text after a backslash. -/
def scanEscape : List Char → Option (Char × List Char)
  | '"' :: r => some ('"', r)
  | '\\' :: r => some ('\\', r)
  | '/' :: r => some ('/', r)
  | 'b' :: r => some (Char.ofNat 8, r)
  | 'f' :: r => some (Char.ofNat 12, r)
  | 'n' :: r => some ('\n', r)
  | 'r' :: r => some ('\r', r)
  | 't' :: r => some ('\t', r)
  | 'u' :: r => scanUnicode r
  | _ => none

/-- The text after an opening quote, to its closing quote. -/
def scanChars : Nat → List Char → Option (List Char × List Char)
  | 0, _ => none
  | _ + 1, [] => none
  | n + 1, c :: r =>
    if c = '"' then some ([], r)
    else if c = '\\' then
      (scanEscape r).bind fun (d, r') => (scanChars n r').map fun (ds, t) => (d :: ds, t)
    else if c.toNat < 32 then none
    else (scanChars n r).map fun (ds, t) => (c :: ds, t)

def scanString (cs : List Char) : Option (String × List Char) :=
  (scanChars (cs.length + 1) cs).map fun (ds, t) => (String.ofList ds, t)

/-! ## Values -/

mutual
/-- Every integer inside is short enough to print. -/
def Value.intsOk : Value F → Bool
  | .int i => (natText i.natAbs).length ≤ maxStrDigits
  | .arr xs => itemsIntsOk xs
  | .obj fields => fieldsIntsOk fields
  | _ => true

def itemsIntsOk : List (Value F) → Bool
  | [] => true
  | x :: xs => x.intsOk && itemsIntsOk xs

def fieldsIntsOk : List (String × Value F) → Bool
  | [] => true
  | (_, v) :: rest => v.intsOk && fieldsIntsOk rest
end

section Text

variable (fl : FloatText F) (ascii : Bool)

mutual
def dump : Value F → List Char
  | .null => ['n', 'u', 'l', 'l']
  | .bool true => ['t', 'r', 'u', 'e']
  | .bool false => ['f', 'a', 'l', 's', 'e']
  | .int i => intText i
  | .float x => (if fl.neg x then ['-'] else []) ++ fl.render x
  | .str s => dumpString ascii s
  | .arr [] => ['[', ']']
  | .arr (x :: xs) => '[' :: (dump x ++ dumpItems xs)
  | .obj [] => ['{', '}']
  | .obj ((k, v) :: rest) => '{' :: (dumpString ascii k ++ ':' :: (dump v ++ dumpFields rest))

def dumpItems : List (Value F) → List Char
  | [] => [']']
  | x :: xs => ',' :: (dump x ++ dumpItems xs)

def dumpFields : List (String × Value F) → List Char
  | [] => ['}']
  | (k, v) :: rest => ',' :: (dumpString ascii k ++ ':' :: (dump v ++ dumpFields rest))
end

/-- `json.dumps`; `none` is its `ValueError`. -/
def dumps (v : Value F) : Option (List Char) :=
  if v.intsOk then some (dump fl ascii v) else none

def isWs (c : Char) : Bool := c = ' ' || c = '\t' || c = '\n' || c = '\r'

def skipWs (cs : List Char) : List Char := cs.dropWhile isWs

def scanNumeral (cs : List Char) : Option (Value F × List Char) :=
  match scanNumber cs with
  | none => none
  | some (true, neg, text, r) => (fl.parse neg text).map fun x => (.float x, r)
  | some (false, neg, text, r) => (readInt neg text).map fun i => (.int i, r)

mutual
/-- `scan_once`. Each call spends a unit of fuel; twice the text is enough. -/
def scanValue : Nat → List Char → Option (Value F × List Char)
  | 0, _ => none
  | _ + 1, [] => none
  | n + 1, c :: r =>
    if c = '"' then (scanString r).map fun (s, t) => (.str s, t)
    else if c = '{' then
      match skipWs r with
      | '}' :: t => some (.obj [], t)
      | t => (scanFields n t).bind fun (items, t') => (ofPairs items).map fun d => (.obj d, t')
    else if c = '[' then
      match skipWs r with
      | ']' :: t => some (.arr [], t)
      | t => (scanItems n t).map fun (xs, t') => (.arr xs, t')
    else if c = 'n' then match r with
      | 'u' :: 'l' :: 'l' :: t => some (.null, t)
      | _ => none
    else if c = 't' then match r with
      | 'r' :: 'u' :: 'e' :: t => some (.bool true, t)
      | _ => none
    else if c = 'f' then match r with
      | 'a' :: 'l' :: 's' :: 'e' :: t => some (.bool false, t)
      | _ => none
    else scanNumeral fl (c :: r)

def scanItems : Nat → List Char → Option (List (Value F) × List Char)
  | 0, _ => none
  | n + 1, cs =>
    (scanValue n cs).bind fun (v, r) =>
      match skipWs r with
      | ']' :: t => some ([v], t)
      | ',' :: t => (scanItems n (skipWs t)).map fun (vs, t') => (v :: vs, t')
      | _ => none

def scanFields : Nat → List Char → Option (List (String × Value F) × List Char)
  | 0, _ => none
  | _ + 1, [] => none
  | n + 1, c :: cs =>
    if c = '"' then
      (scanString cs).bind fun (k, r) =>
        match skipWs r with
        | ':' :: r' =>
          (scanValue n (skipWs r')).bind fun (v, r'') =>
            match skipWs r'' with
            | '}' :: t => some ([(k, v)], t)
            | ',' :: t => (scanFields n (skipWs t)).map fun (fs, t') => ((k, v) :: fs, t')
            | _ => none
        | _ => none
    else none
end

/-- `json.loads`; `none` is any of its errors. -/
def loads (cs : List Char) : Option (Value F) :=
  match scanValue fl (2 * cs.length + 2) (skipWs cs) with
  | some (v, r) => if skipWs r = [] then some v else none
  | none => none

end Text

end PyJson
