/-
What the private quota protocols share (`quota_contract.py`): integers and
patterns, and the canonical JSON that `_canonical` writes and `_load` reads.
Which of its refusals `_load` meets first is not kept.
-/
import LocalHand.ResultTransport

namespace LocalHand.QuotaContract

open PyJson ResultReader
open Framing (Bytes)

variable {F : Type}

def responseLimit : Nat := 32768

def maxInteger : Int := 9223372036854775807

/-- `QuotaError(code)`, a `ValueError`. -/
def quotaError (code : String) : Fault := .value code

/-- `integer` -/
def integer (value : Value F) (low high : Int) : Except Fault Int :=
  match value with
  | .int i => if low ≤ i ∧ i ≤ high then .ok i else .error (quotaError "INTEGER")
  | _ => .error (quotaError "INTEGER")

/-- `match`; the pattern is the predicate its `re.fullmatch` decides. -/
def matchText (value : Value F) (pattern : String → Bool) : Except Fault Unit :=
  match value with
  | .str s => require (pattern s) (quotaError "IDENTITY")
  | _ => .error (quotaError "IDENTITY")

/-- `_keys`, with the fields it has checked. -/
def keys (value : Value F) (names : List String) : Except Fault (List (String × Value F)) :=
  match value with
  | .obj fields => if keysAre fields names then .ok fields else .error (quotaError "FIELDS")
  | _ => .error (quotaError "FIELDS")

/-- `value[name]` of a dict that has the key. -/
def item (fields : List (String × Value F)) (name : String) : Value F := (lookup fields name).getD .null

mutual
/-- `walk`, and the hook that refuses a float. The string of a key is walked as
deep as the key's value. -/
def walk (maxDepth depth : Nat) : Value F → Except Fault Unit
  | .float _ => .error (quotaError "NON_INTEGER_NUMBER")
  | .int i => do
    require (depth ≤ maxDepth) (quotaError "DEPTH")
    require (-maxInteger ≤ i ∧ i ≤ maxInteger) (quotaError "INTEGER")
  | .arr xs => do
    require (depth ≤ maxDepth) (quotaError "DEPTH")
    walkItems maxDepth (depth + 1) xs
  | .obj fields => do
    require (depth ≤ maxDepth) (quotaError "DEPTH")
    walkFields maxDepth (depth + 1) fields
  | _ => require (depth ≤ maxDepth) (quotaError "DEPTH")

def walkItems (maxDepth depth : Nat) : List (Value F) → Except Fault Unit
  | [] => .ok ()
  | x :: xs => do
    walk maxDepth depth x
    walkItems maxDepth depth xs

def walkFields (maxDepth depth : Nat) : List (String × Value F) → Except Fault Unit
  | [] => .ok ()
  | (_, v) :: rest => do
    require (depth ≤ maxDepth) (quotaError "DEPTH")
    walk maxDepth depth v
    walkFields maxDepth depth rest
end

section

variable (fl : FloatText F)

/-- `_load` -/
def load (raw : Bytes) (limit maxDepth : Nat) : Except Fault (Value F) := do
  require (0 < raw.length && raw.length ≤ limit) (quotaError "BYTE_LIMIT")
  match (decodeText raw).bind (loads fl) with
  | none => .error (quotaError "JSON")
  | some value => do
    walk maxDepth 1 value
    return value

/-- The text `_canonical` encodes. -/
def wire (value : Value F) : Bytes := encodeText (dump fl true value)

/-- `_canonical` -/
def canonical (value : Value F) (limit : Nat) : Except Fault Bytes :=
  match dumps fl true value with
  | none => .error (.value "Exceeds the limit for integer string conversion")
  | some text => do
    require ((encodeText text).length ≤ limit) (quotaError "BYTE_LIMIT")
    return encodeText text

end

/-! ## Reading back -/

variable {fl : FloatText F} {value : Value F} {raw : Bytes} {limit maxDepth : Nat}

theorem canonical_ok (h : canonical fl value limit = .ok raw) :
    value.intsOk = true ∧ raw = wire fl value ∧ raw.length ≤ limit := by
  unfold canonical dumps at h
  split at h
  · cases h
  · next text htext =>
    simp only [bind_ok, require_ok, exists_unit, pure, Except.pure, Except.ok.injEq, decide_eq_true_eq] at h
    obtain ⟨hlen, rfl⟩ := h
    split at htext
    · next hi =>
      cases htext
      exact ⟨hi, rfl, hlen⟩
    · cases htext

theorem canonical_wire (hi : value.intsOk = true) (hlen : (wire fl value).length ≤ limit) :
    canonical fl value limit = .ok (wire fl value) := by
  have hdump : dumps fl true value = some (dump fl true value) := by simp [dumps, hi]
  simp only [canonical, hdump, bind_ok, require_ok, exists_unit, decide_eq_true_eq]
  exact ⟨hlen, rfl⟩

theorem loads_wire (hw : value.WF) (hi : value.intsOk = true) :
    (decodeText (wire fl value)).bind (loads fl) = some value := by
  rw [wire, decode_encode, Option.bind_some]
  exact loads_dumps fl true hw (by simp [dumps, hi])

/-- What is read is what was written. -/
theorem load_wire_eq (hw : value.WF) (hi : value.intsOk = true) {value' : Value F}
    (h : load fl (wire fl value) limit maxDepth = .ok value') : value' = value := by
  simp only [load, bind_ok, require_ok, exists_unit, loads_wire hw hi, pure, Except.pure, Except.ok.injEq] at h
  exact h.2.2.symm

theorem length_ascii {text : List Char} (h : Ascii text) : (encodeText text).length = text.length := by
  induction text with
  | nil => rfl
  | cons c cs ih =>
    have hval : c.toNat ≤ 127 := Nat.le_of_lt_succ (h c List.mem_cons_self)
    have hc : String.utf8EncodeChar c = [UInt8.ofNat c.toNat] := by
      rw [String.utf8EncodeChar]
      simp [hval]
    have hcs : Ascii cs := fun d hd => h d (List.mem_cons_of_mem c hd)
    rw [encodeText, List.flatMap_cons, List.length_append, ← encodeText, ih hcs, hc, List.length_singleton, List.length_cons,
      Nat.add_comm]

theorem length_wire (value : Value F) : (wire fl value).length = (dump fl true value).length :=
  length_ascii (dump_ascii fl value)

theorem wire_pos (value : Value F) : 0 < (wire fl value).length := by
  obtain ⟨c, t, hct, -⟩ := dump_starts fl true value []
  rw [List.append_nil] at hct
  exact List.length_pos_iff.mpr (encodeText_ne_nil (by simp [hct]))

/-- **`_load` inverts `_canonical`** within its depth and its integers. -/
theorem load_wire (hw : value.WF) (hi : value.intsOk = true) (hlen : (wire fl value).length ≤ limit)
    (hwalk : walk maxDepth 1 value = .ok ()) : load fl (wire fl value) limit maxDepth = .ok value := by
  simp only [load, bind_ok, require_ok, exists_unit, loads_wire hw hi, Bool.and_eq_true, decide_eq_true_eq, hwalk]
  exact ⟨⟨wire_pos value, hlen⟩, trivial, rfl⟩

theorem keys_ok {names : List String} {fields : List (String × Value F)} (h : keys value names = .ok fields) :
    value = .obj fields ∧ keysAre fields names = true := by
  unfold keys at h
  split at h
  · split at h
    · next hkeys =>
      cases h
      exact ⟨rfl, hkeys⟩
    · cases h
  · cases h

end LocalHand.QuotaContract
