/-
Python data as a program passes it around, before `json` has seen it: a string
may hold surrogates, a dict may have keys that are no strings, a list is not a
tuple. `Data.dump` prints it as `json.dumps` does with `sort_keys`, separators
`(",", ":")` and `ensure_ascii`, and `Value.data` is the data `loads` builds.

The fields of a dict stand in the order `sorted` gives its items, where it
gives one: two dicts are equal when their fields are.
-/
import LocalHand.Lib.JsonRoundTrip
import Mathlib.Data.List.Lex
import Mathlib.Order.Fin.Basic

namespace PyJson

/-- A code point of a `str`, a surrogate or not. -/
abbrev Point := Fin 1114112

abbrev Text := List Point

/-- A key of a dict; `other` is one `json` does not print. -/
inductive Key (F : Type) where
  | null
  | bool (b : Bool)
  | int (i : Int)
  | float (x : F)
  | str (s : Text)
  | other

/-- `other` is an object `json` does not print, a float that is not finite included. -/
inductive Data (F : Type) where
  | null
  | bool (b : Bool)
  | int (i : Int)
  | float (x : F)
  | str (s : Text)
  | list (xs : List (Data F))
  | tuple (xs : List (Data F))
  | dict (fields : List (Key F × Data F))
  | other

variable {F : Type}

/-! ## Strings -/

def isSurrogate (p : Point) : Bool := 55296 ≤ p.val && p.val ≤ 57343

theorem char_lt (c : Char) : c.toNat < 1114112 := by
  have := char_range c
  omega

def pointOf (c : Char) : Point := ⟨c.toNat, char_lt c⟩

/-- The `str` of a string without surrogates. -/
def points (s : String) : Text := s.toList.map pointOf

def charOf (p : Point) : Char := Char.ofNat p.val

theorem charOf_pointOf (c : Char) : charOf (pointOf c) = c := Char.ofNat_toNat c

theorem pointOf_charOf {p : Point} (h : isSurrogate p = false) : pointOf (charOf p) = p := by
  have hvalid : p.val.isValidChar := by
    simp only [isSurrogate, Bool.and_eq_false_iff, decide_eq_false_iff_not] at h
    have := p.isLt
    unfold Nat.isValidChar
    omega
  apply Fin.ext
  show (Char.ofNat p.val).toNat = p.val
  unfold Char.ofNat
  rw [dif_pos hvalid]
  rfl

theorem isSurrogate_pointOf (c : Char) : isSurrogate (pointOf c) = false := by
  have := char_range c
  show (decide (55296 ≤ c.toNat) && decide (c.toNat ≤ 57343)) = false
  rw [Bool.and_eq_false_iff, decide_eq_false_iff_not, decide_eq_false_iff_not]
  omega

theorem points_plain (s : String) : (points s).any isSurrogate = false := by
  simp [points, isSurrogate_pointOf]

theorem pointOf_inj {c d : Char} (h : pointOf c = pointOf d) : c = d := by
  rw [← charOf_pointOf c, h, charOf_pointOf]

theorem points_inj {s t : String} (h : points s = points t) : s = t :=
  String.ext (List.map_injective_iff.mpr (fun _ _ => pointOf_inj) h)

/-- Every `str` without surrogates is the text of a string. -/
theorem exists_points {s : Text} (h : s.any isSurrogate = false) : ∃ t : String, points t = s := by
  refine ⟨String.ofList (s.map charOf), ?_⟩
  simp only [points, String.toList_ofList, List.map_map]
  simp only [List.any_eq_false, Bool.not_eq_true] at h
  exact List.map_congr_left (fun p hp => pointOf_charOf (h p hp)) |>.trans (List.map_id s)

theorem map_pointOf_lt {cs ds : List Char} : cs.map pointOf < ds.map pointOf ↔ cs < ds := by
  induction cs generalizing ds with
  | nil => cases ds <;> simp
  | cons c cs ih =>
    cases ds with
    | nil => simp
    | cons d ds =>
      have hlt : pointOf c < pointOf d ↔ c < d := Iff.rfl
      have heq : pointOf c = pointOf d ↔ c = d := ⟨pointOf_inj, fun h => h ▸ rfl⟩
      simp only [List.map_cons, List.cons_lt_cons_iff, hlt, heq, ih]

/-- Strings are ordered by their code points. -/
theorem points_lt {s t : String} : points s < points t ↔ s < t := map_pointOf_lt

/-! ## Dicts -/

/-- `sorted` puts one key before the other, or they are not ordered and differ. -/
def Key.Before : Key F → Key F → Prop
  | .str a, .str b => a < b
  | j, k => j ≠ k

mutual
/-- Every dict inside has its fields in order, with no key twice. -/
def Data.WF : Data F → Prop
  | .list xs | .tuple xs => Data.itemsWF xs
  | .dict fields => fields.Pairwise (fun a b => a.1.Before b.1) ∧ Data.fieldsWF fields
  | _ => True

def Data.itemsWF : List (Data F) → Prop
  | [] => True
  | x :: xs => x.WF ∧ Data.itemsWF xs

def Data.fieldsWF : List (Key F × Data F) → Prop
  | [] => True
  | (_, v) :: rest => v.WF ∧ Data.fieldsWF rest
end

/-- Python data: dicts in order. -/
structure Py (F : Type) where
  data : Data F
  wf : data.WF

/-- `key == name` -/
def Key.is (name : Text) : Key F → Bool
  | .str s => s = name
  | _ => false

/-- `name < key` -/
def Key.isAfter (name : Text) : Key F → Bool
  | .str s => name < s
  | _ => false

/-- `d.get(name)` -/
def field (name : Text) (fields : List (Key F × Data F)) : Option (Data F) :=
  (fields.find? (·.1.is name)).map (·.2)

/-- `d[name] = v` -/
def setField (name : Text) (v : Data F) : List (Key F × Data F) → List (Key F × Data F)
  | [] => [(.str name, v)]
  | (k, w) :: rest =>
    if k.is name then (k, v) :: rest
    else if k.isAfter name then (.str name, v) :: (k, w) :: rest
    else (k, w) :: setField name v rest

/-- `d.pop(name)` -/
def popField (name : Text) (fields : List (Key F × Data F)) : List (Key F × Data F) :=
  fields.filter fun f => !f.1.is name

@[simp] theorem Key.is_iff {name : Text} {k : Key F} : k.is name = true ↔ k = .str name := by
  cases k <;> simp [Key.is]

theorem Key.is_self (name : Text) : (Key.str name : Key F).is name = true := by simp

theorem Key.isAfter_iff {name : Text} {k : Key F} : k.isAfter name = true ↔ ∃ s, k = .str s ∧ name < s := by
  cases k <;> simp [Key.isAfter]

theorem Key.Before.ne {j k : Key F} (h : j.Before k) : j ≠ k := by
  intro heq
  subst heq
  cases j with
  | str s => exact absurd h (lt_irrefl (α := Text) s)
  | _ => exact h rfl

theorem Key.before_of_str {name s : Text} {k : Key F} (hlt : name < s) (hk : (Key.str s).Before k) :
    (Key.str name).Before k := by
  cases k with
  | str t => exact lt_trans (α := Text) hlt hk
  | _ => simp [Key.Before]

/-- What is in the dict after `d[name] = v`. -/
theorem mem_setField {name : Text} {v : Data F} {fields : List (Key F × Data F)}
    (hs : fields.Pairwise fun a b => a.1.Before b.1) {f : Key F × Data F} :
    f ∈ setField name v fields ↔ f = (.str name, v) ∨ f ∈ fields ∧ f.1 ≠ .str name := by
  induction fields with
  | nil => simp [setField]
  | cons field rest ih =>
    obtain ⟨k, w⟩ := field
    obtain ⟨hk, hrest⟩ := List.pairwise_cons.mp hs
    have hlater : ∀ g ∈ rest, g.1 ≠ k := fun g hg heq => (hk g hg).ne heq.symm
    unfold setField
    split
    · next his =>
      rw [Key.is_iff] at his
      subst his
      simp only [List.mem_cons]
      constructor
      · rintro (rfl | hf)
        · exact .inl rfl
        · exact .inr ⟨.inr hf, hlater f hf⟩
      · rintro (rfl | ⟨rfl | hf, hne⟩)
        · exact .inl rfl
        · exact absurd rfl hne
        · exact .inr hf
    · next hnot =>
      rw [Key.is_iff] at hnot
      split
      · next hafter =>
        obtain ⟨s, rfl, hlt⟩ := Key.isAfter_iff.mp hafter
        simp only [List.mem_cons]
        constructor
        · rintro (rfl | rfl | hf)
          · exact .inl rfl
          · exact .inr ⟨.inl rfl, hnot⟩
          · exact .inr ⟨.inr hf, (Key.before_of_str hlt (hk f hf)).ne.symm⟩
        · rintro (rfl | ⟨rfl | hf, hne⟩)
          · exact .inl rfl
          · exact .inr (.inl rfl)
          · exact .inr (.inr hf)
      · simp only [List.mem_cons, ih hrest]
        constructor
        · rintro (rfl | rfl | ⟨hf, hne⟩)
          · exact .inr ⟨.inl rfl, hnot⟩
          · exact .inl rfl
          · exact .inr ⟨.inr hf, hne⟩
        · rintro (rfl | ⟨rfl | hf, hne⟩)
          · exact .inr (.inl rfl)
          · exact .inl rfl
          · exact .inr (.inr ⟨hf, hne⟩)

/-- `d[name] = v` keeps the order. -/
theorem setField_sorted {name : Text} {v : Data F} {fields : List (Key F × Data F)}
    (hs : fields.Pairwise fun a b => a.1.Before b.1) :
    (setField name v fields).Pairwise fun a b => a.1.Before b.1 := by
  induction fields with
  | nil => simp [setField]
  | cons field rest ih =>
    obtain ⟨k, w⟩ := field
    obtain ⟨hk, hrest⟩ := List.pairwise_cons.mp hs
    unfold setField
    split
    · exact List.pairwise_cons.mpr ⟨hk, hrest⟩
    · next hnot =>
      rw [Key.is_iff] at hnot
      split
      · next hafter =>
        obtain ⟨s, rfl, hlt⟩ := Key.isAfter_iff.mp hafter
        refine List.pairwise_cons.mpr ⟨fun f hf => ?_, hs⟩
        rcases List.mem_cons.mp hf with rfl | hf
        · exact hlt
        · exact Key.before_of_str hlt (hk f hf)
      · next hafter =>
        refine List.pairwise_cons.mpr ⟨fun f hf => ?_, ih hrest⟩
        rcases (mem_setField hrest).mp hf with rfl | ⟨hf, -⟩
        · cases k with
          | str s =>
            have hle : ¬ name < s := fun hlt => hafter (Key.isAfter_iff.mpr ⟨s, rfl, hlt⟩)
            exact lt_of_le_of_ne (α := Text) (not_lt.mp hle) fun heq => hnot (by rw [heq])
          | _ => exact hnot
        · exact hk f hf

theorem Data.fieldsWF_iff {fields : List (Key F × Data F)} : Data.fieldsWF fields ↔ ∀ f ∈ fields, f.2.WF := by
  induction fields with
  | nil => simp [Data.fieldsWF]
  | cons f rest ih => simp [Data.fieldsWF, ih]

theorem setField_wf {name : Text} {v : Data F} {fields : List (Key F × Data F)} (hd : (Data.dict fields).WF)
    (hv : v.WF) : (Data.dict (setField name v fields)).WF := by
  refine ⟨setField_sorted hd.1, Data.fieldsWF_iff.mpr fun f hf => ?_⟩
  rcases (mem_setField hd.1).mp hf with rfl | ⟨hf, -⟩
  · exact hv
  · exact Data.fieldsWF_iff.mp hd.2 f hf

theorem popField_wf {name : Text} {fields : List (Key F × Data F)} (hd : (Data.dict fields).WF) :
    (Data.dict (popField name fields)).WF :=
  ⟨hd.1.filter _, Data.fieldsWF_iff.mpr fun f hf => Data.fieldsWF_iff.mp hd.2 f (List.mem_filter.mp hf).1⟩

theorem mem_popField {name : Text} {fields : List (Key F × Data F)} {f : Key F × Data F} :
    f ∈ popField name fields ↔ f ∈ fields ∧ f.1 ≠ .str name := by
  simp [popField, ← Key.is_iff]

theorem field_mem {name : Text} {v : Data F} {fields : List (Key F × Data F)} (h : field name fields = some v) :
    (.str name, v) ∈ fields := by
  obtain ⟨f, hf, rfl⟩ := Option.map_eq_some_iff.mp h
  have his := List.find?_some hf
  rw [Key.is_iff] at his
  exact his ▸ List.mem_of_find?_eq_some hf

theorem field_of_mem {name : Text} {v : Data F} {fields : List (Key F × Data F)}
    (hs : fields.Pairwise fun a b => a.1.Before b.1) (h : (.str name, v) ∈ fields) : field name fields = some v := by
  induction fields with
  | nil => cases h
  | cons g rest ih =>
    obtain ⟨hg, hrest⟩ := List.pairwise_cons.mp hs
    rcases List.mem_cons.mp h with rfl | hmem
    · simp [field, Key.is]
    · have hne : g.1.is name = false := by
        rw [Bool.eq_false_iff, ne_eq, Key.is_iff]
        exact (hg _ hmem).ne
      simp only [field, List.find?_cons, hne] at ih ⊢
      exact ih hrest hmem

theorem field_none {name : Text} {fields : List (Key F × Data F)} :
    field name fields = none ↔ ∀ f ∈ fields, f.1 ≠ .str name := by
  simp [field, ← Key.is_iff]

theorem field_setField {name : Text} {v : Data F} {fields : List (Key F × Data F)}
    (hs : fields.Pairwise fun a b => a.1.Before b.1) : field name (setField name v fields) = some v :=
  field_of_mem (setField_sorted hs) ((mem_setField hs).mpr (.inl rfl))

theorem field_setField_other {name other : Text} {v : Data F} {fields : List (Key F × Data F)} (hne : other ≠ name) :
    field other (setField name v fields) = field other fields := by
  have hnew : (Key.str name : Key F).is other = false := by simp [Key.is, Ne.symm hne]
  induction fields with
  | nil => simp [setField, field, hnew]
  | cons g rest ih =>
    obtain ⟨k, w⟩ := g
    unfold setField
    split
    · next his =>
      rw [Key.is_iff] at his
      subst his
      simp [field, hnew]
    split
    · simp [field, hnew]
    · simp only [field, List.find?_cons] at ih ⊢
      split
      · rfl
      · exact ih

theorem setField_setField {name : Text} {v w : Data F} {fields : List (Key F × Data F)} :
    setField name w (setField name v fields) = setField name w fields := by
  induction fields with
  | nil => simp [setField, Key.is_self]
  | cons g rest ih =>
    obtain ⟨k, x⟩ := g
    by_cases his : k.is name
    · simp [setField, his]
    by_cases hafter : k.isAfter name
    · simp [setField, his, hafter, Key.is_self]
    · simp [setField, his, hafter, ih]

theorem popField_setField {name : Text} {v : Data F} {fields : List (Key F × Data F)} :
    popField name (setField name v fields) = popField name fields := by
  induction fields with
  | nil => simp [setField, popField, Key.is_self]
  | cons g rest ih =>
    obtain ⟨k, x⟩ := g
    simp only [popField] at ih
    by_cases his : k.is name
    · simp [setField, popField, his]
    by_cases hafter : k.isAfter name
    · simp [setField, popField, his, hafter, Key.is_self]
    · simp [setField, popField, his, hafter, ih]

theorem popField_none {name : Text} {fields : List (Key F × Data F)} (h : field name fields = none) :
    popField name fields = fields := by
  refine List.filter_eq_self.mpr fun f hf => ?_
  rw [Bool.not_eq_true', Bool.eq_false_iff, ne_eq, Key.is_iff]
  exact field_none.mp h f hf

/-! ## Python's `==` -/

/-- A number as `==` compares it; `intOf` is the exact integer a float equals, if any. -/
def Data.number (intOf : F → Option Int) : Data F → Option (Int ⊕ F)
  | .bool b => some (.inl (if b then 1 else 0))
  | .int i => some (.inl i)
  | .float x => some ((intOf x).elim (.inr x) .inl)
  | _ => none

def Key.number (intOf : F → Option Int) : Key F → Option (Int ⊕ F)
  | .bool b => some (.inl (if b then 1 else 0))
  | .int i => some (.inl i)
  | .float x => some ((intOf x).elim (.inr x) .inl)
  | _ => none

section Same

variable [DecidableEq F] (intOf : F → Option Int)

def Key.same : Key F → Key F → Bool
  | .null, .null => true
  | .str a, .str b => a = b
  | j, k => (j.number intOf).isSome && j.number intOf = k.number intOf

mutual
/-- `v == w` -/
def Data.same : Data F → Data F → Bool
  | .null, .null => true
  | .str a, .str b => a = b
  | .list a, .list b => Data.sameItems a b
  | .tuple a, .tuple b => Data.sameItems a b
  | .dict a, .dict b => Data.sameFields a b
  | v, w => (v.number intOf).isSome && v.number intOf = w.number intOf

def Data.sameItems : List (Data F) → List (Data F) → Bool
  | [], [] => true
  | x :: xs, y :: ys => x.same y && Data.sameItems xs ys
  | _, _ => false

def Data.sameFields : List (Key F × Data F) → List (Key F × Data F) → Bool
  | [], [] => true
  | (j, x) :: xs, (k, y) :: ys => j.same intOf k && x.same y && Data.sameFields xs ys
  | _, _ => false
end

/-- Only a string is equal to a string. -/
theorem Data.same_str {s : Text} {v : Data F} : (Data.str s).same intOf v = true ↔ v = .str s := by
  cases v <;> simp [Data.same, Data.number, eq_comm]

end Same

/-! ## Values -/

mutual
/-- The data `loads` builds of a value. -/
def Value.data : Value F → Data F
  | .null => .null
  | .bool b => .bool b
  | .int i => .int i
  | .float x => .float x
  | .str s => .str (points s)
  | .arr xs => .list (itemsData xs)
  | .obj fields => .dict (fieldsData fields)

def itemsData : List (Value F) → List (Data F)
  | [] => []
  | x :: xs => x.data :: itemsData xs

def fieldsData : List (String × Value F) → List (Key F × Data F)
  | [] => []
  | (k, v) :: rest => (.str (points k), v.data) :: fieldsData rest
end

mutual
theorem Value.data_inj : ∀ {v w : Value F}, v.data = w.data → v = w
  | .null, w, h => by cases w <;> simp_all [Value.data]
  | .bool _, w, h => by cases w <;> simp_all [Value.data]
  | .int _, w, h => by cases w <;> simp_all [Value.data]
  | .float _, w, h => by cases w <;> simp_all [Value.data]
  | .str s, w, h => by
    cases w <;> simp only [Value.data, Data.str.injEq, reduceCtorEq] at h
    rw [points_inj h]
  | .arr xs, w, h => by
    cases w <;> simp only [Value.data, Data.list.injEq, reduceCtorEq] at h
    rw [itemsData_inj h]
  | .obj fields, w, h => by
    cases w <;> simp only [Value.data, Data.dict.injEq, reduceCtorEq] at h
    rw [fieldsData_inj h]

theorem itemsData_inj : ∀ {xs ys : List (Value F)}, itemsData xs = itemsData ys → xs = ys
  | [], [], _ => rfl
  | [], _ :: _, h | _ :: _, [], h => by simp [itemsData] at h
  | x :: xs, y :: ys, h => by
    simp only [itemsData, List.cons.injEq] at h
    rw [Value.data_inj h.1, itemsData_inj h.2]

theorem fieldsData_inj : ∀ {xs ys : List (String × Value F)}, fieldsData xs = fieldsData ys → xs = ys
  | [], [], _ => rfl
  | [], _ :: _, h | _ :: _, [], h => by simp [fieldsData] at h
  | (j, x) :: xs, (k, y) :: ys, h => by
    simp only [fieldsData, List.cons.injEq, Prod.mk.injEq, Key.str.injEq] at h
    rw [points_inj h.1.1, Value.data_inj h.1.2, fieldsData_inj h.2]
end

theorem fieldsData_map (fields : List (String × Value F)) :
    fieldsData fields = fields.map fun f => (Key.str (points f.1), f.2.data) := by
  induction fields with
  | nil => rfl
  | cons f rest ih =>
    obtain ⟨k, v⟩ := f
    rw [fieldsData, ih, List.map_cons]

/-- The keys of the data of a dict are those of the dict. -/
theorem fieldsData_keys (fields : List (String × Value F)) :
    (fieldsData fields).map (·.1) = fields.map fun f => Key.str (points f.1) := by
  rw [fieldsData_map, List.map_map]
  rfl

theorem fieldsData_sorted {fields : List (String × Value F)} :
    (fieldsData fields).Pairwise (fun a b => a.1.Before b.1) ↔ fields.Pairwise (·.1 < ·.1) := by
  rw [← List.pairwise_map (R := Key.Before), fieldsData_keys, List.pairwise_map]
  simp only [Key.Before, points_lt]

mutual
theorem Value.wf_data : ∀ v : Value F, v.data.WF ↔ v.WF
  | .null | .bool _ | .int _ | .float _ | .str _ => by simp [Value.data, Data.WF, Value.WF]
  | .arr xs => by simp only [Value.data, Data.WF, Value.WF, itemsWF_data xs]
  | .obj fields => by
    simp only [Value.data, Data.WF, Value.WF, fieldsData_sorted, fieldsWF_data fields]

theorem itemsWF_data : ∀ xs : List (Value F), Data.itemsWF (itemsData xs) ↔ itemsWF xs
  | [] => by simp [itemsData, Data.itemsWF, itemsWF]
  | x :: xs => by simp only [itemsData, Data.itemsWF, itemsWF, Value.wf_data x, itemsWF_data xs]

theorem fieldsWF_data : ∀ fields : List (String × Value F), Data.fieldsWF (fieldsData fields) ↔ fieldsWF fields
  | [] => by simp [fieldsData, Data.fieldsWF, fieldsWF]
  | (k, v) :: rest => by simp only [fieldsData, Data.fieldsWF, fieldsWF, Value.wf_data v, fieldsWF_data rest]
end

/-! ## Printing -/

/-- No float is ever printed or read. -/
def noFloats : FloatText Empty where
  neg := Empty.elim
  render := Empty.elim
  parse _ _ := none
  literal := nofun
  parse_render := nofun

def escapePoint (p : Point) : List Char :=
  if isSurrogate p then escapeUnit p.val else escapeChar true (charOf p)

def dumpText (s : Text) : List Char := '"' :: (s.flatMap escapePoint ++ ['"'])

/-- Whether `sorted` can compare the keys. -/
def Key.comparable : Key F → Key F → Bool
  | .str _, .str _ => true
  | .bool _, .bool _ | .bool _, .int _ | .bool _, .float _ | .int _, .bool _ | .int _, .int _
  | .int _, .float _ | .float _, .bool _ | .float _, .int _ | .float _, .float _ => true
  | _, _ => false

def sortable : List (Key F × Data F) → Bool
  | [] => true
  | field :: rest => rest.all fun other => field.1.comparable other.1

section Dump

variable (fl : FloatText F)

def floatText (x : F) : List Char := (if fl.neg x then ['-'] else []) ++ fl.render x

/-- A key as `json` writes it; `none` is its `TypeError` or `ValueError`. -/
def Key.dump : Key F → Option (List Char)
  | .null => some ['"', 'n', 'u', 'l', 'l', '"']
  | .bool true => some ['"', 't', 'r', 'u', 'e', '"']
  | .bool false => some ['"', 'f', 'a', 'l', 's', 'e', '"']
  | .int i => if (natText i.natAbs).length ≤ maxStrDigits then some ('"' :: (intText i ++ ['"'])) else none
  | .float x => some ('"' :: (floatText fl x ++ ['"']))
  | .str s => some (dumpText s)
  | .other => none

mutual
/-- `json.dumps`; `none` is its `TypeError` or `ValueError`. -/
def Data.dump : Data F → Option (List Char)
  | .null => some ['n', 'u', 'l', 'l']
  | .bool true => some ['t', 'r', 'u', 'e']
  | .bool false => some ['f', 'a', 'l', 's', 'e']
  | .int i => if (natText i.natAbs).length ≤ maxStrDigits then some (intText i) else none
  | .float x => some (floatText fl x)
  | .str s => some (dumpText s)
  | .list [] | .tuple [] => some ['[', ']']
  | .list (x :: xs) | .tuple (x :: xs) => do
    let first ← x.dump
    let rest ← Data.dumpItems xs
    some ('[' :: (first ++ rest))
  | .dict [] => some ['{', '}']
  | .dict ((k, v) :: rest) =>
    if sortable ((k, v) :: rest) then do
      let key ← k.dump fl
      let first ← v.dump
      let rest ← Data.dumpFields rest
      some ('{' :: (key ++ ':' :: (first ++ rest)))
    else none
  | .other => none

def Data.dumpItems : List (Data F) → Option (List Char)
  | [] => some [']']
  | x :: xs => do
    let first ← x.dump
    let rest ← Data.dumpItems xs
    some (',' :: (first ++ rest))

def Data.dumpFields : List (Key F × Data F) → Option (List Char)
  | [] => some ['}']
  | (k, v) :: rest => do
    let key ← k.dump fl
    let first ← v.dump
    let rest ← Data.dumpFields rest
    some (',' :: (key ++ ':' :: (first ++ rest)))
end

theorem escapePoint_pointOf (c : Char) : escapePoint (pointOf c) = escapeChar true c := by
  rw [escapePoint, isSurrogate_pointOf, charOf_pointOf]
  rfl

theorem dumpText_points (s : String) : dumpText (points s) = dumpString true s := by
  have hchars : ∀ cs : List Char, (cs.map pointOf).flatMap escapePoint = escapeText true cs := by
    intro cs
    induction cs with
    | nil => rfl
    | cons c cs ih => rw [List.map_cons, List.flatMap_cons, ih, escapePoint_pointOf, escapeText]
  rw [dumpText, points, hchars, dumpString]

theorem sortable_fieldsData (fields : List (String × Value F)) : sortable (fieldsData fields) = true := by
  match fields with
  | [] => rfl
  | (k, v) :: rest =>
    have hkeys := fieldsData_keys rest
    simp only [fieldsData, sortable, List.all_eq_true]
    intro other hother
    have hkey : other.1 ∈ (fieldsData rest).map (·.1) := List.mem_map_of_mem hother
    rw [hkeys, List.mem_map] at hkey
    obtain ⟨f, -, hf⟩ := hkey
    rw [← hf]
    rfl

mutual
/-- The data of a value prints as the value does. -/
theorem Value.dump_data : ∀ v : Value F, v.intsOk = true → v.data.dump fl = some (PyJson.dump fl true v)
  | .null, _ | .bool true, _ | .bool false, _ => by simp [Value.data, Data.dump, PyJson.dump]
  | .int i, h => by
    simp only [Value.intsOk, decide_eq_true_eq] at h
    simp [Value.data, Data.dump, PyJson.dump, h]
  | .float x, _ => by simp [Value.data, Data.dump, PyJson.dump, floatText]
  | .str s, _ => by simp [Value.data, Data.dump, PyJson.dump, dumpText_points]
  | .arr [], _ => by simp [Value.data, itemsData, Data.dump, PyJson.dump]
  | .arr (x :: xs), h => by
    simp only [Value.intsOk, itemsIntsOk, Bool.and_eq_true] at h
    simp only [Value.data, itemsData, Data.dump, PyJson.dump, Value.dump_data x h.1, dumpItems_data xs h.2]
    rfl
  | .obj [], _ => by simp [Value.data, fieldsData, Data.dump, PyJson.dump]
  | .obj ((k, v) :: rest), h => by
    simp only [Value.intsOk, fieldsIntsOk, Bool.and_eq_true] at h
    have hsort := sortable_fieldsData ((k, v) :: rest)
    simp only [fieldsData] at hsort
    simp only [Value.data, fieldsData, Data.dump, PyJson.dump, hsort, if_true, Key.dump, dumpText_points,
      Value.dump_data v h.1, dumpFields_data rest h.2]
    rfl

theorem dumpItems_data : ∀ xs : List (Value F), itemsIntsOk xs = true →
    Data.dumpItems fl (itemsData xs) = some (dumpItems fl true xs)
  | [], _ => by simp [itemsData, Data.dumpItems, dumpItems]
  | x :: xs, h => by
    simp only [itemsIntsOk, Bool.and_eq_true] at h
    simp only [itemsData, Data.dumpItems, dumpItems, Value.dump_data x h.1, dumpItems_data xs h.2]
    rfl

theorem dumpFields_data : ∀ fields : List (String × Value F), fieldsIntsOk fields = true →
    Data.dumpFields fl (fieldsData fields) = some (dumpFields fl true fields)
  | [], _ => by simp [fieldsData, Data.dumpFields, dumpFields]
  | (k, v) :: rest, h => by
    simp only [fieldsIntsOk, Bool.and_eq_true] at h
    simp only [fieldsData, Data.dumpFields, dumpFields, Key.dump, dumpText_points, Value.dump_data v h.1,
      dumpFields_data rest h.2]
    rfl
end

end Dump

end PyJson
