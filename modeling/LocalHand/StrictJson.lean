/-
The strict JSON of the request contract (`contract.py`): `strict_loads` bounds
and decodes a raw document, `_tree` is what it lets through, and
`canonical_bytes` prints every request and record.
-/
import LocalHand.Contract
import LocalHand.Lib.PyData
import LocalHand.ResultTransport

namespace LocalHand

open PyJson ResultReader
open Framing (Bytes)

variable {F : Type}

def maxRequestBytes : Nat := 512 * 1024

def maxDepth : Nat := 8

/-- `_invalid` -/
def invalid (message : String) : Fault := .job "INVALID_REQUEST" message

def offContract : Fault := invalid "Request does not match the fixed contract"

/-- `_integer` -/
def integer (text : List Char) : Except Fault Int := do
  require ((text.dropWhile (· = '-')).length ≤ 16) (invalid "JSON integer exceeds the interoperable range")
  match readInt (text.head? = some '-') (text.dropWhile (· = '-')) with
  | none => .error (.value "Exceeds the limit for integer string conversion")
  | some value => do
    require (value.natAbs ≤ maxSafeInteger) (invalid "JSON integer exceeds the interoperable range")
    return value

def tooDeep : Fault := invalid "JSON nesting exceeds the request limit"

mutual
/-- `_tree` -/
def tree (depth : Nat) : Data F → Except Fault Unit
  | .str s => require (!s.any isSurrogate) (invalid "JSON contains an unpaired surrogate")
  | .int i => require (i.natAbs ≤ maxSafeInteger) (invalid "JSON integer exceeds the interoperable range")
  | .dict fields => do
    require (depth < maxDepth) tooDeep
    treeFields (depth + 1) fields
  | .list xs => do
    require (depth < maxDepth) tooDeep
    treeItems (depth + 1) xs
  | .null | .bool _ => .ok ()
  | .float _ | .tuple _ | .other => .error (invalid "Floating point and unsupported JSON values are forbidden")

def treeItems (depth : Nat) : List (Data F) → Except Fault Unit
  | [] => .ok ()
  | x :: xs => do
    tree depth x
    treeItems depth xs

def treeFields (depth : Nat) : List (Key F × Data F) → Except Fault Unit
  | [] => .ok ()
  | (.str k, v) :: rest => do
    require (!k.any isSurrogate) (invalid "JSON contains an unpaired surrogate")
    tree depth v
    treeFields depth rest
  | _ => .error offContract
end

/-- The loop of `strict_loads` over the text, with its `depth`, `quoted` and `escaped`. -/
def scanDepth (depth : Int) : Bool → Bool → List Char → Except Fault Unit
  | _, _, [] => .ok ()
  | true, true, _ :: cs => scanDepth depth true false cs
  | true, false, c :: cs =>
    if c = '\\' then scanDepth depth true true cs
    else if c = '"' then scanDepth depth false false cs
    else scanDepth depth true false cs
  | false, escaped, c :: cs =>
    if c = '"' then scanDepth depth true escaped cs
    else if c = '[' ∨ c = '{' then
      if depth + 1 > maxDepth then .error tooDeep else scanDepth (depth + 1) false escaped cs
    else if c = ']' ∨ c = '}' then scanDepth (depth - 1) false escaped cs
    else scanDepth depth false escaped cs

mutual
/-- The hooks `strict_loads` gives to `json.loads`. They are called at each
literal; a refusal of theirs ends the call as one of the scan does, so they are
run over what was scanned. -/
def hooks : Value F → Except Fault Unit
  | .int i => (integer (intText i)).map fun _ => ()
  | .float _ => .error (invalid "Floating point and non-finite JSON values are forbidden")
  | .arr xs => hooksItems xs
  | .obj fields => hooksFields fields
  | _ => .ok ()

def hooksItems : List (Value F) → Except Fault Unit
  | [] => .ok ()
  | x :: xs => do
    hooks x
    hooksItems xs

def hooksFields : List (String × Value F) → Except Fault Unit
  | [] => .ok ()
  | (_, v) :: rest => do
    hooks v
    hooksFields rest
end

/-- A raw document. -/
inductive Raw where
  | bytes (raw : Bytes)
  | text (raw : Text)

/-- The text of a raw document within its bound. -/
def Raw.decode (maximum : Nat) : Raw → Except Fault (List Char)
  | .bytes raw => do
    require (raw.length ≤ maximum) (.job "LIMIT_EXCEEDED" "JSON body exceeds its byte limit")
    match decodeText raw with
    | none => .error (invalid "Request body is not valid UTF-8")
    | some chars => .ok chars
  | .text raw => do
    require (!raw.any isSurrogate) (invalid "Request body is not valid UTF-8")
    require ((encodeText (raw.map charOf)).length ≤ maximum) (.job "LIMIT_EXCEEDED" "JSON body exceeds its byte limit")
    return raw.map charOf

section

variable (fl : FloatText F)

/-- `json.loads` with the hooks; a repeated key is refused by `loads`. -/
def strictParse (text : List Char) : Except Fault (Data F) :=
  match loads fl text with
  | none => .error (invalid "Malformed JSON request")
  | some value => do
    hooks value
    return value.data

/-- `strict_loads` -/
def strictLoads (raw : Raw) (maximum : Nat) : Except Fault (Data F) := do
  let text ← raw.decode maximum
  scanDepth 0 false false text
  let result ← strictParse fl text
  tree 0 result
  return result

/-- `canonical_bytes` -/
def canonicalBytes (value : Data F) : Except Fault Bytes :=
  match value.dump fl with
  | none => .error (.value "Object is not JSON serializable")
  | some text => .ok (encodeText text)

end

/-- `hashlib.sha256(raw).hexdigest()` -/
structure Sha256 where
  hexdigest : Bytes → String
  hex : ∀ raw, hexText 64 (hexdigest raw) = true

/-- `value[name]` -/
def subscript (value : Data F) (name : String) : Except Fault (Data F) :=
  match value with
  | .dict fields =>
    match field (points name) fields with
    | none => .error (.key name)
    | some v => .ok v
  | _ => .error (.value "Object is not subscriptable")

/-! ## What `_tree` lets through -/

theorem tree_dict {depth : Nat} {fields : List (Key F × Data F)} :
    tree depth (.dict fields) = .ok () ↔ depth < maxDepth ∧ treeFields (depth + 1) fields = .ok () := by
  simp only [tree, bind_ok, require_ok, exists_unit, decide_eq_true_eq]

theorem tree_list {depth : Nat} {xs : List (Data F)} :
    tree depth (.list xs) = .ok () ↔ depth < maxDepth ∧ treeItems (depth + 1) xs = .ok () := by
  simp only [tree, bind_ok, require_ok, exists_unit, decide_eq_true_eq]

theorem treeItems_cons {depth : Nat} {x : Data F} {xs : List (Data F)} :
    treeItems depth (x :: xs) = .ok () ↔ tree depth x = .ok () ∧ treeItems depth xs = .ok () := by
  simp only [treeItems, bind_ok, exists_unit]

theorem treeFields_cons {depth : Nat} {k : Key F} {v : Data F} {rest : List (Key F × Data F)} :
    treeFields depth ((k, v) :: rest) = .ok () ↔
      (∃ s, k = .str s ∧ s.any isSurrogate = false) ∧ tree depth v = .ok () ∧ treeFields depth rest = .ok () := by
  cases k with
  | str s =>
    simp only [treeFields, bind_ok, require_ok, exists_unit, Bool.not_eq_true', Key.str.injEq]
    constructor
    · rintro ⟨hs, h⟩
      exact ⟨⟨s, rfl, hs⟩, h⟩
    · rintro ⟨⟨_, rfl, hs⟩, h⟩
      exact ⟨hs, h⟩
  | _ => simp [treeFields]

/-- An item of a dict that `_tree` lets through. -/
def TreeItem (depth : Nat) (f : Key F × Data F) : Prop :=
  (∃ s, f.1 = .str s ∧ s.any isSurrogate = false) ∧ tree depth f.2 = .ok ()

theorem treeFields_iff {depth : Nat} {fields : List (Key F × Data F)} :
    treeFields depth fields = .ok () ↔ ∀ f ∈ fields, TreeItem depth f := by
  induction fields with
  | nil => simp [treeFields]
  | cons f rest ih =>
    obtain ⟨k, v⟩ := f
    rw [treeFields_cons, ih, List.forall_mem_cons]
    exact and_assoc.symm

/-- Setting a field of a dict that `_tree` lets through: only the new value counts. -/
theorem treeFields_setField {depth : Nat} {name : Text} {v : Data F} {fields : List (Key F × Data F)}
    (hs : fields.Pairwise fun a b => a.1.Before b.1) (hname : name.any isSurrogate = false)
    (h : treeFields depth fields = .ok ()) :
    treeFields depth (setField name v fields) = .ok () ↔ tree depth v = .ok () := by
  rw [treeFields_iff] at h
  rw [treeFields_iff]
  constructor
  · intro hset
    exact (hset _ ((mem_setField hs).mpr (.inl rfl))).2
  · intro hv f hf
    rcases (mem_setField hs).mp hf with rfl | ⟨hf, -⟩
    · exact ⟨⟨name, rfl, hname⟩, hv⟩
    · exact h f hf

theorem treeFields_field {depth : Nat} {name : Text} {v : Data F} {fields : List (Key F × Data F)}
    (h : treeFields depth fields = .ok ()) (hv : field name fields = some v) : tree depth v = .ok () :=
  (treeFields_iff.mp h _ (field_mem hv)).2

theorem natText_length {n k : Nat} (hk : 0 < k) : (natText n).length ≤ k ↔ n < 10 ^ k :=
  Nat.length_toDigits_le_iff (by omega) hk

theorem digits_short {i : Int} (h : (i.natAbs : Int) ≤ maxSafeInteger) : (natText i.natAbs).length ≤ 16 := by
  rw [natText_length (by omega)]
  have hsafe : maxSafeInteger = 9007199254740991 := rfl
  omega

theorem natText_dropWhile (n : Nat) : (natText n).dropWhile (fun c => decide (c = '-')) = natText n := by
  cases hd : natText n with
  | nil => rfl
  | cons d ds =>
    have hdigit : isDigit d = true := natText_digit (hd ▸ List.mem_cons_self)
    have hne : d ≠ '-' := by
      intro heq
      rw [heq] at hdigit
      exact absurd hdigit (by decide)
    simp [hne]

/-- `_integer` reads the printed integer back, if it is in range. -/
theorem integer_intText {i : Int} (h : (i.natAbs : Int) ≤ maxSafeInteger) : integer (intText i) = .ok i := by
  have hshort := digits_short h
  have hlong : (natText i.natAbs).length ≤ maxStrDigits := hshort.trans (by decide)
  have hread : Nat.ofDigitChars 10 (natText i.natAbs) 0 = i.natAbs := Nat.ofDigitChars_ten_toDigits
  have hvalue : ∀ neg : Bool, neg = decide (i < 0) →
      readInt neg (natText i.natAbs) = some i := by
    intro neg hneg
    simp only [readInt, hlong, if_true, hread, hneg, decide_eq_true_eq, Option.some.injEq]
    split <;> omega
  have hdrop : (intText i).dropWhile (fun c => decide (c = '-')) = natText i.natAbs := by
    unfold intText
    split
    · simp only [List.dropWhile_cons, decide_true, if_true]
      exact natText_dropWhile _
    · exact natText_dropWhile _
  have hsign : decide ((intText i).head? = some '-') = decide (i < 0) := by
    unfold intText
    split
    · next hneg => simp [hneg]
    · next hneg =>
      have hhead := natText_dropWhile i.natAbs
      have hne : (natText i.natAbs).head? ≠ some '-' := by
        intro hsome
        obtain ⟨rest, hrest⟩ := List.head?_eq_some_iff.mp hsome
        rw [hrest] at hhead
        simp only [List.dropWhile_cons, decide_true, if_true] at hhead
        have := congrArg List.length hhead
        have hle := (List.dropWhile_sublist (l := rest) fun c => decide (c = '-')).length_le
        simp only [List.length_cons] at this
        omega
      simp [hne, hneg]
  simp only [integer, bind_ok, require_ok, exists_unit, decide_eq_true_eq, hdrop, hsign, hvalue _ rfl]
  exact ⟨hshort, h, rfl⟩

mutual
theorem hooks_tree : ∀ (v : Value F) (depth : Nat), tree depth v.data = .ok () → hooks v = .ok ()
  | .null, _, _ | .bool _, _, _ | .str _, _, _ => by simp [hooks]
  | .int i, _, h => by
    simp only [Value.data, tree, require_ok, decide_eq_true_eq] at h
    rw [hooks, integer_intText h]
    rfl
  | .float _, _, h => by simp [Value.data, tree] at h
  | .arr xs, depth, h => by
    rw [Value.data, tree_list] at h
    rw [hooks]
    exact hooksItems_tree xs _ h.2
  | .obj fields, depth, h => by
    rw [Value.data, tree_dict] at h
    rw [hooks]
    exact hooksFields_tree fields _ h.2

theorem hooksItems_tree : ∀ (xs : List (Value F)) (depth : Nat), treeItems depth (itemsData xs) = .ok () →
    hooksItems xs = .ok ()
  | [], _, _ => rfl
  | x :: xs, depth, h => by
    rw [itemsData, treeItems_cons] at h
    simp only [hooksItems, bind_ok, exists_unit]
    exact ⟨hooks_tree x depth h.1, hooksItems_tree xs depth h.2⟩

theorem hooksFields_tree : ∀ (fields : List (String × Value F)) (depth : Nat),
    treeFields depth (fieldsData fields) = .ok () → hooksFields fields = .ok ()
  | [], _, _ => rfl
  | (k, v) :: rest, depth, h => by
    rw [fieldsData, treeFields_cons] at h
    simp only [hooksFields, bind_ok, exists_unit]
    exact ⟨hooks_tree v depth h.2.1, hooksFields_tree rest depth h.2.2⟩
end

mutual
theorem intsOk_tree : ∀ (v : Value F) (depth : Nat), tree depth v.data = .ok () → v.intsOk = true
  | .null, _, _ | .bool _, _, _ | .str _, _, _ => rfl
  | .int i, _, h => by
    simp only [Value.data, tree, require_ok, decide_eq_true_eq] at h
    exact decide_eq_true ((digits_short h).trans (by decide))
  | .float _, _, h => by simp [Value.data, tree] at h
  | .arr xs, depth, h => by
    rw [Value.data, tree_list] at h
    exact itemsIntsOk_tree xs _ h.2
  | .obj fields, depth, h => by
    rw [Value.data, tree_dict] at h
    exact fieldsIntsOk_tree fields _ h.2

theorem itemsIntsOk_tree : ∀ (xs : List (Value F)) (depth : Nat), treeItems depth (itemsData xs) = .ok () →
    itemsIntsOk xs = true
  | [], _, _ => rfl
  | x :: xs, depth, h => by
    rw [itemsData, treeItems_cons] at h
    rw [itemsIntsOk, intsOk_tree x depth h.1, itemsIntsOk_tree xs depth h.2]
    rfl

theorem fieldsIntsOk_tree : ∀ (fields : List (String × Value F)) (depth : Nat),
    treeFields depth (fieldsData fields) = .ok () → fieldsIntsOk fields = true
  | [], _, _ => rfl
  | (k, v) :: rest, depth, h => by
    rw [fieldsData, treeFields_cons] at h
    rw [fieldsIntsOk, intsOk_tree v depth h.2.1, fieldsIntsOk_tree rest depth h.2.2]
    rfl
end

mutual
/-- What `_tree` lets through is the data of a value. -/
theorem value_of_tree : ∀ (d : Data F) (depth : Nat), tree depth d = .ok () → ∃ v : Value F, v.data = d
  | .null, _, _ => ⟨.null, rfl⟩
  | .bool b, _, _ => ⟨.bool b, rfl⟩
  | .int i, _, _ => ⟨.int i, rfl⟩
  | .float _, _, h | .tuple _, _, h | .other, _, h => by simp [tree] at h
  | .str s, _, h => by
    simp only [tree, require_ok, Bool.not_eq_true'] at h
    obtain ⟨t, rfl⟩ := exists_points h
    exact ⟨.str t, rfl⟩
  | .list xs, depth, h => by
    obtain ⟨vs, rfl⟩ := items_of_tree xs _ (tree_list.mp h).2
    exact ⟨.arr vs, rfl⟩
  | .dict fields, depth, h => by
    obtain ⟨fs, rfl⟩ := fields_of_tree fields _ (tree_dict.mp h).2
    exact ⟨.obj fs, rfl⟩

theorem items_of_tree : ∀ (xs : List (Data F)) (depth : Nat), treeItems depth xs = .ok () →
    ∃ vs : List (Value F), itemsData vs = xs
  | [], _, _ => ⟨[], rfl⟩
  | x :: xs, depth, h => by
    rw [treeItems_cons] at h
    obtain ⟨v, rfl⟩ := value_of_tree x depth h.1
    obtain ⟨vs, rfl⟩ := items_of_tree xs depth h.2
    exact ⟨v :: vs, rfl⟩

theorem fields_of_tree : ∀ (fields : List (Key F × Data F)) (depth : Nat), treeFields depth fields = .ok () →
    ∃ fs : List (String × Value F), fieldsData fs = fields
  | [], _, _ => ⟨[], rfl⟩
  | (k, d) :: rest, depth, h => by
    rw [treeFields_cons] at h
    obtain ⟨⟨s, rfl, hs⟩, hd, hrest⟩ := h
    obtain ⟨t, rfl⟩ := exists_points hs
    obtain ⟨v, rfl⟩ := value_of_tree d depth hd
    obtain ⟨fs, rfl⟩ := fields_of_tree rest depth hrest
    exact ⟨(t, v) :: fs, rfl⟩
end

/-! ## The depth scan of a printed value -/

/-- A plain character of a string changes nothing. -/
theorem scanDepth_plain {depth : Int} {c : Char} {cs : List Char} (hquote : c ≠ '"') (hback : c ≠ '\\') :
    scanDepth depth true false (c :: cs) = scanDepth depth true false cs := by
  simp [scanDepth, hquote, hback]

theorem scanDepth_escape {depth : Int} {c : Char} {cs : List Char} :
    scanDepth depth true false ('\\' :: c :: cs) = scanDepth depth true false cs := by
  simp [scanDepth]

theorem hexDigit_plain {d : Nat} (h : d < 16) : hexDigit d ≠ '"' ∧ hexDigit d ≠ '\\' := by
  revert d
  decide

theorem scanDepth_unit {depth : Int} (u : Nat) (cs : List Char) :
    scanDepth depth true false (escapeUnit u ++ cs) = scanDepth depth true false cs := by
  have hplain := fun n : Nat => hexDigit_plain (Nat.mod_lt n (show 0 < 16 by omega))
  simp only [escapeUnit, List.cons_append, List.nil_append]
  rw [scanDepth_escape, scanDepth_plain (hplain _).1 (hplain _).2, scanDepth_plain (hplain _).1 (hplain _).2,
    scanDepth_plain (hplain _).1 (hplain _).2, scanDepth_plain (hplain _).1 (hplain _).2]

theorem scanDepth_char {depth : Int} (ascii : Bool) (c : Char) (cs : List Char) :
    scanDepth depth true false (escapeChar ascii c ++ cs) = scanDepth depth true false cs := by
  unfold escapeChar
  split
  · exact scanDepth_escape
  split
  · exact scanDepth_escape
  split
  · exact scanDepth_escape
  split
  · exact scanDepth_escape
  split
  · exact scanDepth_escape
  split
  · exact scanDepth_escape
  split
  · exact scanDepth_escape
  split
  · exact scanDepth_unit _ _
  split
  · split
    · exact scanDepth_unit _ _
    · rw [List.append_assoc, scanDepth_unit, scanDepth_unit]
  · exact scanDepth_plain ‹_› ‹_›

theorem scanDepth_text {depth : Int} (ascii : Bool) (s : List Char) (cs : List Char) :
    scanDepth depth true false (escapeText ascii s ++ '"' :: cs) = scanDepth depth false false cs := by
  induction s with
  | nil => simp [escapeText, scanDepth]
  | cons c s ih => rw [escapeText, List.append_assoc, scanDepth_char, ih]

theorem scanDepth_string {depth : Int} (ascii : Bool) (s : String) (cs : List Char) :
    scanDepth depth false false (dumpString ascii s ++ cs) = scanDepth depth false false cs := by
  have hopen : scanDepth depth false false ('"' :: (escapeText ascii s.toList ++ '"' :: cs)) =
      scanDepth depth true false (escapeText ascii s.toList ++ '"' :: cs) := by simp [scanDepth]
  rw [dumpString, List.cons_append, List.append_assoc, List.cons_append, List.nil_append, hopen, scanDepth_text]

/-- A character that is no bracket and no quote. -/
def isFlat (c : Char) : Bool := c ≠ '"' && c ≠ '[' && c ≠ '{' && c ≠ ']' && c ≠ '}'

theorem scanDepth_flat (depth : Int) (text : List Char) (h : text.all isFlat = true) (cs : List Char) :
    scanDepth depth false false (text ++ cs) = scanDepth depth false false cs := by
  induction text with
  | nil => rfl
  | cons c text ih =>
    simp only [List.all_cons, Bool.and_eq_true, isFlat, decide_eq_true_eq] at h
    obtain ⟨⟨⟨⟨⟨h1, h2⟩, h3⟩, h4⟩, h5⟩, hrest⟩ := h
    have hstep : scanDepth depth false false (c :: (text ++ cs)) = scanDepth depth false false (text ++ cs) := by
      simp [scanDepth, h1, h2, h3, h4, h5]
    rw [List.cons_append, hstep]
    exact ih (by simpa [isFlat] using hrest)

theorem isFlat_digit {c : Char} (h : isDigit c = true) : isFlat c = true := by
  simp only [isFlat, Bool.and_eq_true, decide_eq_true_eq]
  refine ⟨⟨⟨⟨?_, ?_⟩, ?_⟩, ?_⟩, ?_⟩ <;> (intro heq; rw [heq] at h; exact absurd h (by decide))

theorem intText_flat (i : Int) : (intText i).all isFlat = true := by
  have hnat : (natText i.natAbs).all isFlat = true :=
    List.all_eq_true.mpr fun c hc => isFlat_digit (natText_digit hc)
  unfold intText
  split
  · rw [List.all_cons, hnat]
    decide
  · exact hnat

theorem scanDepth_open {depth : Nat} {c : Char} (hc : c = '[' ∨ c = '{') (hd : depth < maxDepth) (cs : List Char) :
    scanDepth depth false false (c :: cs) = scanDepth (depth + 1 : Nat) false false cs := by
  have hle : ¬ ((depth : Int) + 1 > maxDepth) := by omega
  rcases hc with rfl | rfl <;> simp [scanDepth, hle]

theorem scanDepth_close {depth : Nat} {c : Char} (hc : c = ']' ∨ c = '}') (cs : List Char) :
    scanDepth (depth + 1 : Nat) false false (c :: cs) = scanDepth depth false false cs := by
  rcases hc with rfl | rfl <;> simp [scanDepth]

section

variable (fl : FloatText F) (ascii : Bool)

mutual
/-- The scan passes over a printed value that `_tree` lets through at this depth. -/
theorem scanDepth_dump : ∀ (v : Value F) (depth : Nat) (cs : List Char), tree depth v.data = .ok () →
    scanDepth depth false false (dump fl ascii v ++ cs) = scanDepth depth false false cs
  | .null, _, cs, _ => scanDepth_flat _ ['n', 'u', 'l', 'l'] rfl cs
  | .bool true, _, cs, _ => scanDepth_flat _ ['t', 'r', 'u', 'e'] rfl cs
  | .bool false, _, cs, _ => scanDepth_flat _ ['f', 'a', 'l', 's', 'e'] rfl cs
  | .int i, _, cs, _ => scanDepth_flat _ _ (intText_flat i) cs
  | .float _, _, _, h => by simp [Value.data, tree] at h
  | .str s, _, cs, _ => scanDepth_string ascii s cs
  | .arr [], depth, cs, h => by
    rw [Value.data, tree_list] at h
    rw [dump, List.cons_append, scanDepth_open (.inl rfl) h.1]
    exact scanDepth_close (.inl rfl) cs
  | .arr (x :: xs), depth, cs, h => by
    rw [Value.data, tree_list, itemsData, treeItems_cons] at h
    rw [dump, List.cons_append, List.append_assoc, scanDepth_open (.inl rfl) h.1, scanDepth_dump x _ _ h.2.1,
      scanDepth_items xs depth cs h.2.2]
  | .obj [], depth, cs, h => by
    rw [Value.data, tree_dict] at h
    rw [dump, List.cons_append, scanDepth_open (.inr rfl) h.1]
    exact scanDepth_close (.inr rfl) cs
  | .obj ((k, v) :: rest), depth, cs, h => by
    rw [Value.data, tree_dict, fieldsData, treeFields_cons] at h
    rw [dump, List.cons_append, List.append_assoc, scanDepth_open (.inr rfl) h.1, scanDepth_string]
    have hcolon := scanDepth_flat (depth + 1 : Nat) [':'] (by decide)
      (dump fl ascii v ++ (dumpFields fl ascii rest ++ cs))
    rw [List.cons_append, List.append_assoc]
    rw [List.cons_append, List.nil_append] at hcolon
    rw [hcolon, scanDepth_dump v _ _ h.2.2.1, scanDepth_fields rest depth cs h.2.2.2]

theorem scanDepth_items : ∀ (xs : List (Value F)) (depth : Nat) (cs : List Char),
    treeItems (depth + 1) (itemsData xs) = .ok () →
    scanDepth (depth + 1 : Nat) false false (dumpItems fl ascii xs ++ cs) = scanDepth depth false false cs
  | [], depth, cs, _ => scanDepth_close (.inl rfl) cs
  | x :: xs, depth, cs, h => by
    rw [itemsData, treeItems_cons] at h
    have hcomma := scanDepth_flat (depth + 1 : Nat) [','] (by decide)
      (dump fl ascii x ++ (dumpItems fl ascii xs ++ cs))
    rw [List.cons_append, List.nil_append] at hcomma
    rw [dumpItems, List.cons_append, List.append_assoc, hcomma, scanDepth_dump x _ _ h.1,
      scanDepth_items xs depth cs h.2]

theorem scanDepth_fields : ∀ (fields : List (String × Value F)) (depth : Nat) (cs : List Char),
    treeFields (depth + 1) (fieldsData fields) = .ok () →
    scanDepth (depth + 1 : Nat) false false (dumpFields fl ascii fields ++ cs) = scanDepth depth false false cs
  | [], depth, cs, _ => scanDepth_close (.inr rfl) cs
  | (k, v) :: rest, depth, cs, h => by
    rw [fieldsData, treeFields_cons] at h
    have hcomma := scanDepth_flat (depth + 1 : Nat) [','] (by decide)
      (dumpString ascii k ++ ':' :: (dump fl ascii v ++ (dumpFields fl ascii rest ++ cs)))
    have hcolon := scanDepth_flat (depth + 1 : Nat) [':'] (by decide)
      (dump fl ascii v ++ (dumpFields fl ascii rest ++ cs))
    rw [List.cons_append, List.nil_append] at hcomma hcolon
    rw [dumpFields, List.cons_append, List.append_assoc, List.cons_append, List.append_assoc, hcomma,
      scanDepth_string, hcolon, scanDepth_dump v _ _ h.2.1, scanDepth_fields rest depth cs h.2.2]
end

end

/-! ## Reading back what was printed -/

variable {fl : FloatText F} {d : Data F} {raw : Bytes} {maximum : Nat}

/-- Whatever `_tree` lets through prints, and as the value it is the data of. -/
theorem canonicalBytes_tree (fl : FloatText F) (hw : d.WF) (ht : tree 0 d = .ok ()) :
    ∃ v : Value F, v.data = d ∧ v.WF ∧ v.intsOk = true ∧ canonicalBytes fl d = .ok (encodeText (dump fl true v)) := by
  obtain ⟨v, rfl⟩ := value_of_tree d 0 ht
  have hints := intsOk_tree v 0 ht
  refine ⟨v, rfl, v.wf_data.mp hw, hints, ?_⟩
  rw [canonicalBytes, v.dump_data fl hints]

/-- A text of a value that `_tree` lets through is read as that value. -/
theorem strictLoads_text {v : Value F} {text : List Char} (ht : tree 0 v.data = .ok ())
    (hscan : scanDepth 0 false false text = .ok ()) (hload : loads fl text = some v)
    (hsize : (encodeText text).length ≤ maximum) : strictLoads fl (.bytes (encodeText text)) maximum = .ok v.data := by
  simp only [strictLoads, Raw.decode, bind_ok, require_ok, exists_unit, decide_eq_true_eq, decode_encode]
  refine ⟨text, ⟨hsize, rfl⟩, hscan, v.data, ?_, ht, rfl⟩
  simp only [strictParse, hload, bind_ok, exists_unit]
  exact ⟨hooks_tree v 0 ht, rfl⟩

/-- **`strict_loads` inverts `canonical_bytes`** on what `_tree` lets through. -/
theorem strictLoads_canonical (hw : d.WF) (ht : tree 0 d = .ok ()) (hprint : canonicalBytes fl d = .ok raw)
    (hsize : raw.length ≤ maximum) : strictLoads fl (.bytes raw) maximum = .ok d := by
  obtain ⟨v, rfl, hv, hints, hbytes⟩ := canonicalBytes_tree fl hw ht
  rw [hbytes, Except.ok.injEq] at hprint
  subst hprint
  have hdumps : dumps fl true v = some (dump fl true v) := if_pos hints
  refine strictLoads_text ht ?_ (loads_dumps fl true hv hdumps) hsize
  have hscan := scanDepth_dump fl true v 0 [] ht
  rw [List.append_nil] at hscan
  exact hscan.trans rfl

/-- A dict is read back also with a newline after it. -/
theorem strictLoads_newline (fl : FloatText F) {fields : List (Key F × Data F)} (hw : (Data.dict fields).WF)
    (ht : tree 0 (.dict fields) = .ok ()) (hprint : canonicalBytes fl (.dict fields) = .ok raw)
    (hsize : (raw ++ [10]).length ≤ maximum) : strictLoads fl (.bytes (raw ++ [10])) maximum = .ok (.dict fields) := by
  obtain ⟨v, hdata, hv, hints, hbytes⟩ := canonicalBytes_tree fl hw ht
  cases v <;> simp only [Value.data, reduceCtorEq] at hdata
  next fs =>
  have ht' : tree 0 (Value.obj fs).data = .ok () := by rw [Value.data, hdata, ht]
  rw [← hdata]
  rw [hbytes, Except.ok.injEq] at hprint
  have hraw : raw ++ [10] = encodeText (dump fl true (.obj fs) ++ ['\n']) := by
    rw [← hprint]
    simp only [encodeText, List.flatMap_append]
    rfl
  rw [hraw] at hsize ⊢
  refine strictLoads_text ht' ?_ (loads_dumps_newline fl true hv hints) hsize
  exact (scanDepth_dump fl true (.obj fs) 0 ['\n'] ht').trans rfl

/-- What `strict_loads` returns is data of a value, that `_tree` lets through. -/
theorem strictLoads_ok {document : Raw} (h : strictLoads fl document maximum = .ok d) :
    d.WF ∧ tree 0 d = .ok () := by
  simp only [strictLoads, bind_ok, exists_unit] at h
  obtain ⟨text, -, -, result, hparse, ht, hreturn⟩ := h
  cases hreturn
  refine ⟨?_, ht⟩
  unfold strictParse at hparse
  split at hparse
  · cases hparse
  · next v hv =>
    simp only [bind_ok, exists_unit] at hparse
    obtain ⟨-, hreturn⟩ := hparse
    cases hreturn
    exact v.wf_data.mpr (loads_wf fl hv)

end LocalHand
