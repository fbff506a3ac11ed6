/-
What the writer's files hold, read back: the binding file's descriptor, and the
checkpoint journal, of which any cut is again complete lines and a torn rest.
-/
import LocalHand.EvidenceWriter

namespace LocalHand.EvidenceWriter

open PyJson ResultReader Program
open Framing (Bytes)

variable {F : Type} {host : Host F}

/-! ## Lines -/

section Lines

variable {a line rest torn : Bytes}

theorem completePart_append (h : a = [] ∨ a.getLast? = some 10) (ht : 10 ∉ torn) : completePart (a ++ torn) = a := by
  have hskip : (torn.reverse ++ a.reverse).dropWhile (fun b => decide (b ≠ 10)) = a.reverse.dropWhile fun b => decide (b ≠ 10) := by
    rw [List.dropWhile_append_of_pos]
    intro b hb
    rw [decide_eq_true_eq]
    rintro rfl
    exact ht (List.mem_reverse.mp hb)
  rw [completePart, List.reverse_append, hskip]
  rcases h with rfl | h
  · rfl
  · have hhead : a.reverse.head? = some 10 := by rw [List.head?_reverse, h]
    obtain ⟨t, ht⟩ := List.head?_eq_some_iff.mp hhead
    rw [ht, List.dropWhile_cons_of_neg (by simp), ← ht, List.reverse_reverse]

theorem splitLines_line (h10 : 10 ∉ line) (h13 : 13 ∉ line) :
    splitLines (line ++ 10 :: rest) = line :: splitLines rest := by
  induction line with
  | nil => rw [List.nil_append, splitLines]
  | cons b line ih =>
    simp only [List.mem_cons, not_or] at h10 h13
    rw [List.cons_append, splitLines, ih h10.2 h13.2]
    · exact fun h => h10.1 h.symm
    · intro _ h
      exact absurd h.symm h13.1
    · exact fun h => h13.1 h.symm

end Lines

/-! ## Checkpoints -/

def checkpointValue (host : Host F) (fed : Bytes) (o : Nat) : Value F :=
  .obj [("offset", .int o), ("sha256", .str (hash host (fed.take o)))]

/-- The journal's line for the first `o` bytes fed. -/
def line (host : Host F) (fed : Bytes) (o : Nat) : Bytes := json host (checkpointValue host fed o) ++ [10]

def lines (host : Host F) (fed : Bytes) (offs : List Nat) : Bytes := offs.flatMap (line host fed)

theorem json_control {v : Value F} {k : Char} {b : UInt8} (hk : k ∉ dump host.floats true v) (hb : b.toNat = k.toNat)
    (hlow : k.toNat < 32) : b ∉ json host v := by
  intro h
  obtain ⟨c, hc, hmem⟩ := List.mem_flatMap.mp h
  have hcb := utf8_low (show b.toNat < 128 by omega) hmem
  have hck : c = k := Char.toNat_inj.mp (hcb.trans hb)
  exact hk (hck ▸ hc)

theorem checkpoint_control (fed : Bytes) (o : Nat) {k : Char} (hk : k.toNat < 32) :
    k ∉ dump host.floats true (checkpointValue host fed o) := by
  have hstr := dumpString_control true hk
  have hint := intText_control hk (o : Int)
  have hopen : k ≠ '{' := ne_control hk (by decide)
  have hclose : k ≠ '}' := ne_control hk (by decide)
  have hcolon : k ≠ ':' := ne_control hk (by decide)
  have hcomma : k ≠ ',' := ne_control hk (by decide)
  simp [checkpointValue, dump, dumpFields, hstr, hint, hopen, hclose, hcolon, hcomma]

theorem checkpoint_plain (fed : Bytes) (o : Nat) :
    10 ∉ json host (checkpointValue host fed o) ∧ 13 ∉ json host (checkpointValue host fed o) :=
  ⟨json_control (k := '\n') (checkpoint_control fed o (by decide)) rfl (by decide),
    json_control (k := '\r') (checkpoint_control fed o (by decide)) rfl (by decide)⟩

/-- What was printed is read back. -/
theorem decodeJson_json {fields : List (String × Value F)} (hw : (Value.obj fields).WF) (hi : (Value.obj fields).intsOk = true) :
    decodeJson host (json host (.obj fields)) = .ok fields := by
  have hdumps : dumps host.floats true (.obj fields) = some (dump host.floats true (.obj fields)) := if_pos hi
  rw [decodeJson, json, decode_encode, Option.bind_some, loads_dumps host.floats true hw hdumps]

theorem natText_short {n : Nat} (h : (n : Int) ≤ maxSafeInteger) : (natText n).length ≤ 16 := by
  rw [natText_length (by decide)]
  have : maxSafeInteger = 9007199254740991 := rfl
  omega

theorem decode_checkpoint (fed : Bytes) {o : Nat} (h : (o : Int) ≤ maxSafeInteger) :
    decodeJson host (json host (checkpointValue host fed o)) =
      .ok [("offset", .int o), ("sha256", .str (hash host (fed.take o)))] := by
  have hshort := natText_short h
  refine decodeJson_json ?_ ?_
  · simp only [Value.WF, fieldsWF, and_true]
    refine (List.pairwise_map (f := Prod.fst) (R := (· < ·))).mp ?_
    simp only [List.map_cons, List.map_nil]
    decide +kernel
  · simp only [Value.intsOk, fieldsIntsOk, Int.natAbs_natCast, Bool.and_true, decide_eq_true_eq]
    exact hshort.trans (by decide)

theorem line_congr {fed fed' : Bytes} {o : Nat} (h : fed.take o = fed'.take o) : line host fed o = line host fed' o := by
  rw [line, line, checkpointValue, checkpointValue, h]

theorem lines_congr {fed fed' : Bytes} {offs : List Nat} (h : ∀ o ∈ offs, fed.take o = fed'.take o) :
    lines host fed offs = lines host fed' offs := by
  induction offs with
  | nil => rfl
  | cons o offs ih =>
    obtain ⟨ho, hoffs⟩ := List.forall_mem_cons.mp h
    have htail := ih hoffs
    simp only [lines, List.flatMap_cons] at htail ⊢
    rw [line_congr ho, htail]

theorem splitLines_lines (fed : Bytes) (offs : List Nat) :
    splitLines (lines host fed offs) = offs.map fun o => json host (checkpointValue host fed o) := by
  induction offs with
  | nil => rfl
  | cons o offs ih =>
    have hplain : 10 ∉ json host (checkpointValue host fed o) ∧ 13 ∉ json host (checkpointValue host fed o) := checkpoint_plain fed o
    rw [lines, List.flatMap_cons, line, List.append_assoc, List.singleton_append, splitLines_line hplain.1 hplain.2]
    exact congrArg (_ :: ·) ih

theorem lines_end (fed : Bytes) (offs : List Nat) : lines host fed offs = [] ∨ (lines host fed offs).getLast? = some 10 := by
  rcases List.eq_nil_or_concat offs with rfl | ⟨init, o, rfl⟩
  · exact .inl rfl
  · refine .inr ?_
    rw [List.concat_eq_append, lines, List.flatMap_append, List.flatMap_singleton, line, ← List.append_assoc,
      List.getLast?_concat]

theorem prefix_append_cases {x y : Bytes} {b : Bytes} (h : b <+: x ++ y) : b <+: x ∨ ∃ b', b = x ++ b' ∧ b' <+: y := by
  rcases List.prefix_or_prefix_of_prefix h (List.prefix_append x y) with hshort | ⟨b', rfl⟩
  · exact .inl hshort
  · exact .inr ⟨b', rfl, (List.prefix_append_right_inj x).mp h⟩

/-- Any start of complete lines and a torn rest is such again. -/
theorem lines_cut (fed : Bytes) {offs : List Nat} {torn b : Bytes} (ht : 10 ∉ torn) (h : b <+: lines host fed offs ++ torn) :
    ∃ offs' torn', b = lines host fed offs' ++ torn' ∧ 10 ∉ torn' ∧ offs' <+: offs := by
  induction offs generalizing b with
  | nil => exact ⟨[], b, rfl, fun hb => ht (h.subset hb), List.prefix_rfl⟩
  | cons o offs ih =>
    rw [lines, List.flatMap_cons, List.append_assoc] at h
    rcases prefix_append_cases h with hshort | ⟨b', rfl, hb'⟩
    · rcases List.prefix_concat_iff.mp hshort with rfl | hshort
      · exact ⟨[o], [], by simp [lines, line], by simp, ⟨offs, rfl⟩⟩
      · exact ⟨[], b, rfl, fun hb => (checkpoint_plain fed o).1 (hshort.subset hb), List.nil_prefix⟩
    · obtain ⟨offs', torn', rfl, htorn, hoffs⟩ := ih hb'
      refine ⟨o :: offs', torn', ?_, htorn, (List.cons_prefix_cons).mpr ⟨rfl, hoffs⟩⟩
      simp only [lines, List.flatMap_cons, List.append_assoc]

/-- The journal replayed: the last offset, and the digest there. -/
theorem replay_lines (fed : Bytes) {size : Nat} (hsize : (size : Int) ≤ maxSafeInteger) {offs : List Nat} {o : Nat}
    (hup : (o :: offs).Pairwise (· < ·)) (hmax : ∀ x ∈ offs, x ≤ size) :
    replay host size (offs.map fun x => json host (checkpointValue host fed x)) (o, .str (hash host (fed.take o))) =
      .ok (offs.getLastD o, .str (hash host (fed.take (offs.getLastD o)))) := by
  induction offs generalizing o with
  | nil => rfl
  | cons x offs ih =>
    obtain ⟨hx, hmax⟩ := List.forall_mem_cons.mp hmax
    obtain ⟨hhead, htail⟩ := List.pairwise_cons.mp hup
    have hlt : o < x := hhead x List.mem_cons_self
    have hcap : (x : Int) ≤ maxSafeInteger := by omega
    rw [List.map_cons, replay, decode_checkpoint fed hcap]
    have hcheck : require (decide (2 = 2) && decide ((0 : Int) ≤ x) && decide ((x : Int) ≤ size) && decide ((o : Int) < x))
        (conflict "invalid evidence checkpoint sequence") = .ok () := by
      rw [require_ok]
      simp only [decide_true, Bool.true_and, Bool.and_eq_true, decide_eq_true_eq]
      omega
    show (require _ _ >>= fun _ => replay host size _ _) = _
    refine (congrArg (· >>= _) hcheck).trans ?_
    rw [List.getLastD_cons]
    exact ih htail hmax

/-! ## Bindings -/

/-- A descriptor `prepare` takes. -/
def Taken (host : Host F) (d : Descriptor) : Prop := ∃ artifact : Value F, descriptor artifact host.maxBytes = .ok d

theorem taken_facts {d : Descriptor} (h : Taken host d) :
    d.size ≤ host.maxBytes ∧ d.role.toList.length ≤ 8 ∧ d.sha256.toList.length = 64 ∧ d.artifactId.toList.length ≤ 240 := by
  obtain ⟨artifact, h⟩ := h
  unfold descriptor at h
  split at h
  · simp only [bind_ok, require_ok, exists_unit, pure, Except.pure, Except.ok.injEq, Bool.and_eq_true, decide_eq_true_eq,
      safeName, hexText] at h
    obtain ⟨⟨⟨⟨hrole, hnonneg⟩, hmax⟩, hhex, -⟩, ⟨⟨⟨-, hname⟩, -⟩, -⟩, -, rfl⟩ := h
    have hshort : ∀ role : String, role = "zip" ∨ role = "manifest" ∨ role = "seal" → role.toList.length ≤ 8 := by
      rintro _ (rfl | rfl | rfl) <;> decide
    simp only [List.contains_iff_mem, List.mem_cons, List.not_mem_nil, or_false] at hrole
    exact ⟨show Int.toNat _ ≤ _ by omega, hshort _ hrole, hhex, hname⟩
  · cases h

theorem json_length {d : Descriptor} (h : Taken host d) : (json host d.value).length ≤ defaultChunk := by
  obtain ⟨hmax, hrole, hsha, hid⟩ := taken_facts h
  have hcap : (d.size : Int) ≤ maxSafeInteger := by have := host.bounded.2; omega
  have hsize : (intText (d.size : Int)).length ≤ 16 := natText_short hcap
  have hchars : (dump host.floats true d.value).length ≤ 5000 := by
    have h1 := dumpString_length_le true d.artifactId
    have h2 := dumpString_length_le true d.role
    have h3 := dumpString_length_le true d.sha256
    have k1 : (dumpString true "artifact_id").length = 13 := by decide +kernel
    have k2 : (dumpString true "role").length = 6 := by decide +kernel
    have k3 : (dumpString true "sha256").length = 8 := by decide +kernel
    have k4 : (dumpString true "size").length = 6 := by decide +kernel
    simp only [Descriptor.value, dump, dumpFields, List.length_cons, List.length_append, List.length_nil]
    omega
  have hbytes := encodeText_length_le (dump host.floats true d.value)
  have hchunk : defaultChunk = 65536 := rfl
  rw [json]
  omega

/-- The descriptor's own binding file is read back. -/
theorem decode_descriptor {d : Descriptor} (h : Taken host d) :
    ∃ fields, d.value = .obj fields ∧ decodeJson host (json host d.value) = .ok fields := by
  obtain ⟨hmax, -⟩ := taken_facts h
  have hcap : (d.size : Int) ≤ maxSafeInteger := by have := host.bounded.2; omega
  have hshort := natText_short hcap
  refine ⟨_, rfl, decodeJson_json ?_ ?_⟩
  · simp only [Value.WF, fieldsWF, and_true]
    refine (List.pairwise_map (f := Prod.fst) (R := (· < ·))).mp ?_
    simp only [List.map_cons, List.map_nil]
    decide +kernel
  · simp only [Value.intsOk, fieldsIntsOk, Int.natAbs_natCast, Bool.and_true, Bool.true_and, decide_eq_true_eq]
    exact hshort.trans (by decide)

theorem value_same [DecidableEq F] {d e : Descriptor} : Value.same host.intOf (d.value : Value F) e.value = true ↔ d = e := by
  obtain ⟨i, r, n, s⟩ := d
  obtain ⟨i', r', n', s'⟩ := e
  simp only [Value.same, Descriptor.value, Value.numeric, numericFields, decide_eq_true_eq, Value.obj.injEq, List.cons.injEq,
    Prod.mk.injEq, Value.str.injEq, Value.int.injEq, Int.natCast_inj, Descriptor.mk.injEq, true_and, and_true]
  constructor
  · rintro ⟨rfl, rfl, rfl, rfl⟩
    exact ⟨rfl, rfl, rfl, rfl⟩
  · rintro ⟨rfl, rfl, rfl, rfl⟩
    exact ⟨rfl, rfl, rfl, rfl⟩

end LocalHand.EvidenceWriter
