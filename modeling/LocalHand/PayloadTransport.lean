/-
The transports of a bootstrap's plan give back what went in, whether or not it was
compressed, and a plan has one transport only: every text that is accepted is
what its own value prints to.
-/
import LocalHand.QuotaPayload

namespace LocalHand.QuotaPayload

open PyJson ResultReader QuotaContract
open Framing (Bytes)

variable {F : Type} {host : Host F} {v : Value F} {encoded mark : List Char}

/-! ## Printing -/

theorem printed_ok {read : Bytes} (h : printed host v = .ok read) : v.intsOk = true ∧ read = wire host.floats v := by
  unfold printed dumps at h
  split at h
  · cases h
  · next text htext =>
    cases h
    split at htext
    · next hi =>
      cases htext
      exact ⟨hi, rfl⟩
    · cases htext

theorem printed_wire (hi : v.intsOk = true) : printed host v = .ok (wire host.floats v) := by
  simp [printed, dumps, hi, wire]

theorem raw_ok {read : Bytes} (h : raw host v = .ok read) :
    v.intsOk = true ∧ read = wire host.floats v ∧ read.length ≤ maxDecodedBytes := by
  unfold raw at h
  split at h
  · cases h
  · next read' hread =>
    simp only [bind_ok, require_ok, exists_unit, pure, Except.pure, Except.ok.injEq, decide_eq_true_eq] at h
    obtain ⟨hlen, rfl⟩ := h
    obtain ⟨hi, heq⟩ := printed_ok hread
    exact ⟨hi, heq, hlen⟩

/-- Every byte of a printed value is ASCII. -/
theorem wire_ascii (fl : FloatText F) (v : Value F) : (wire fl v).all (· < 128) = true := by
  rw [List.all_eq_true]
  intro b hb
  obtain ⟨c, hc, hbc⟩ := List.mem_flatMap.mp hb
  have hlow := dump_ascii fl v c hc
  have hval : c.toNat ≤ 127 := by omega
  have hencode : String.utf8EncodeChar c = [UInt8.ofNat c.toNat] := by
    rw [String.utf8EncodeChar]
    simp [hval]
  rw [hencode, List.mem_singleton] at hbc
  subst hbc
  have h128 : (128 : UInt8).toNat = 128 := rfl
  rw [decide_eq_true_eq, UInt8.lt_iff_toNat_lt, UInt8.toNat_ofNat']
  omega

theorem decodeAscii_wire (fl : FloatText F) (v : Value F) : decodeAscii (wire fl v) = some (dump fl true v) := by
  rw [decodeAscii, if_pos (wire_ascii fl v), wire, decode_encode]

/-! ## The compressed transport -/

theorem pack_ok (h : pack host v mark = .ok encoded) :
    raw host v = .ok (wire host.floats v) ∧ encoded = mark ++ Base64.encode (host.zlib.compress (wire host.floats v)) ∧
      encoded.length ≤ maxExtendedText := by
  simp only [pack, bind_ok, require_ok, exists_unit, pure, Except.pure, Except.ok.injEq, decide_eq_true_eq] at h
  obtain ⟨read, hread, hlen, rfl⟩ := h
  obtain ⟨-, rfl, -⟩ := raw_ok hread
  exact ⟨hread, rfl, hlen⟩

/-- **`_unpack` inverts `_pack`.** -/
theorem unpack_pack (hw : v.WF) (h : pack host v mark = .ok encoded) : unpack host encoded mark = .ok v := by
  obtain ⟨hraw, hencoded, hlen⟩ := pack_ok h
  obtain ⟨hi, -, hmax⟩ := raw_ok hraw
  have hloads : loads host.floats (dump host.floats true v) = some v := loads_dumps host.floats true hw (by simp [dumps, hi])
  have hinflate := host.zlib.inflate (wire host.floats v) (maxDecodedBytes + 1) (by omega)
  have hread : inflated host encoded mark = some (wire host.floats v, v) := by
    rw [inflated, hencoded, List.drop_left, Base64.decode_encode]
    simp only [Option.bind_eq_bind, Option.bind_some, hinflate, hmax, decodeAscii_wire, hloads, and_self, if_true]
    rfl
  have hmark : mark.isPrefixOf encoded = true := by
    rw [List.isPrefixOf_iff_prefix, hencoded]
    exact List.prefix_append _ _
  simp only [unpack, bind_ok, require_ok, exists_unit, Bool.and_eq_true, decide_eq_true_eq, hread, hraw, h,
    Except.ok.injEq]
  exact ⟨⟨hmark, hlen⟩, _, rfl, rfl, _, rfl, rfl, rfl⟩

theorem unpack_ok (h : unpack host encoded mark = .ok v) : pack host v mark = .ok encoded := by
  simp only [unpack, bind_ok, require_ok, exists_unit] at h
  obtain ⟨-, h⟩ := h
  split at h
  · cases h
  · simp only [bind_ok, require_ok, exists_unit, pure, Except.pure, Except.ok.injEq, decide_eq_true_eq] at h
    obtain ⟨again, -, -, packed, hpacked, rfl, rfl⟩ := h
    exact hpacked

/-! ## The legacy transport -/

theorem encodePayload_ok (h : encodePayload host v = .ok encoded) :
    checkData host 0 v = .ok () ∧ v.intsOk = true ∧ encoded = Base64.encode (wire host.floats v) ∧
      (wire host.floats v).length ≤ maxPayloadBytes := by
  simp only [encodePayload, bind_ok, require_ok, exists_unit, pure, Except.pure, Except.ok.injEq, decide_eq_true_eq] at h
  obtain ⟨hcheck, read, hread, hlen, rfl⟩ := h
  obtain ⟨hi, rfl⟩ := printed_ok hread
  exact ⟨hcheck, hi, rfl, hlen⟩

theorem legacy_short (h : encodePayload host v = .ok encoded) : encoded.length ≤ maxPayloadText := by
  obtain ⟨-, -, rfl, hlen⟩ := encodePayload_ok h
  rw [Base64.length_encode, maxPayloadText]
  omega

theorem decodeLegacy_encode (hw : v.WF) (h : encodePayload host v = .ok encoded) : decodeLegacy host encoded = .ok v := by
  obtain ⟨hcheck, hi, heq, hlen⟩ := encodePayload_ok h
  have hshort := legacy_short h
  have hloads : (decodeText (wire host.floats v)).bind (loads host.floats) = some v := loads_wire hw hi
  rw [decodeLegacy, heq, Base64.decode_encode, ← heq]
  simp only [bind_ok, require_ok, exists_unit, decide_eq_true_eq, hloads, hcheck, h, Except.ok.injEq]
  exact ⟨hshort, hlen, trivial, _, rfl, rfl, rfl⟩

theorem decodeLegacy_ok (h : decodeLegacy host encoded = .ok v) : encodePayload host v = .ok encoded := by
  simp only [decodeLegacy, bind_ok, require_ok, exists_unit] at h
  obtain ⟨-, h⟩ := h
  split at h
  · cases h
  · simp only [bind_ok, require_ok, exists_unit] at h
    obtain ⟨-, h⟩ := h
    split at h
    · cases h
    · simp only [bind_ok, require_ok, exists_unit, pure, Except.pure, Except.ok.injEq, decide_eq_true_eq] at h
      obtain ⟨-, again, hagain, rfl, rfl⟩ := h
      exact hagain

theorem dash_not_digit : ∀ n < 64, Base64.digit n ≠ '-' := by decide

/-- A text in base 64 has no dash, and the prefix has one. -/
theorem legacy_unmarked (read : Bytes) : bootstrapPrefix.isPrefixOf (Base64.encode read) = false := by
  rw [Bool.eq_false_iff, Ne, List.isPrefixOf_iff_prefix]
  intro h
  have hdash : '-' ∈ Base64.encode read := h.subset (by decide)
  rcases Base64.encode_chars read '-' hdash with h | ⟨n, hn, h⟩
  · exact absurd h (by decide)
  · exact dash_not_digit n hn h.symm

/-! ## Both -/

variable [DecidableEq F]

theorem encodeBootstrap_ok (h : encodeBootstrap host v = .ok encoded) :
    encodePayload host v = .ok encoded ∨
      ((∃ fields, checked host v = .ok fields) ∧ artifactBudget host v = .ok () ∧ pack host v bootstrapPrefix = .ok encoded) := by
  simp only [encodeBootstrap, bind_ok] at h
  obtain ⟨fields, hchecked, h⟩ := h
  split at h
  · next e he =>
    cases h
    exact .inl he
  · simp only [bind_ok, exists_unit] at h
    exact .inr ⟨⟨fields, hchecked⟩, h⟩
  · cases h

theorem decodeBootstrap_ok (h : decodeBootstrap host encoded = .ok v) :
    encodeBootstrap host v = .ok encoded ∧ pack host v bootstrapPrefix = .ok encoded := by
  simp only [decodeBootstrap, bind_ok, require_ok, exists_unit, pure, Except.pure, Except.ok.injEq, decide_eq_true_eq] at h
  obtain ⟨value, hunpack, -, -, -, again, hagain, rfl, rfl⟩ := h
  exact ⟨hagain, unpack_ok hunpack⟩

omit [DecidableEq F] in
theorem marked (h : pack host v bootstrapPrefix = .ok encoded) : bootstrapPrefix.isPrefixOf encoded = true := by
  rw [List.isPrefixOf_iff_prefix, (pack_ok h).2.1]
  exact List.prefix_append _ _

/-- What `encode_bootstrap` prints is read back. -/
theorem decodePayload_encode (hw : v.WF) (h : encodeBootstrap host v = .ok encoded) : decodePayload host encoded = .ok v := by
  rcases encodeBootstrap_ok h with hlegacy | ⟨⟨fields, hchecked⟩, hbudget, hpack⟩
  · have hmark : bootstrapPrefix.isPrefixOf encoded = false := by
      rw [(encodePayload_ok hlegacy).2.2.1]
      exact legacy_unmarked _
    rw [decodePayload, if_neg (by simp [hmark])]
    exact decodeLegacy_encode hw hlegacy
  · rw [decodePayload, if_pos (marked hpack)]
    simp only [decodeBootstrap, bind_ok, require_ok, exists_unit, decide_eq_true_eq]
    exact ⟨v, unpack_pack hw hpack, fields, hchecked, hbudget, encoded, h, rfl, rfl⟩

/-- What is accepted is what its value prints to. -/
theorem decodePayload_ok (h : decodePayload host encoded = .ok v) :
    if bootstrapPrefix.isPrefixOf encoded then encodeBootstrap host v = .ok encoded else encodePayload host v = .ok encoded := by
  unfold decodePayload at h
  split at h
  · next hmark =>
    rw [if_pos hmark]
    exact (decodeBootstrap_ok h).1
  · next hmark =>
    rw [if_neg hmark]
    exact decodeLegacy_ok h

/-- A value that the legacy transport takes has no other. -/
theorem encodeBootstrap_legacy {encoded' : List Char} (h : encodeBootstrap host v = .ok encoded)
    (hlegacy : encodePayload host v = .ok encoded') : encoded = encoded' := by
  simp only [encodeBootstrap, hlegacy, bind_ok, Except.ok.injEq] at h
  obtain ⟨-, -, rfl⟩ := h
  rfl

theorem transport_unique {encoded' : List Char} (h : decodePayload host encoded = .ok v)
    (h' : decodePayload host encoded' = .ok v) : encoded = encoded' := by
  have hprint := decodePayload_ok h
  have hprint' := decodePayload_ok h'
  split at hprint <;> split at hprint'
  · exact Except.ok.inj (hprint.symm.trans hprint')
  · exact encodeBootstrap_legacy hprint hprint'
  · exact (encodeBootstrap_legacy hprint' hprint).symm
  · exact Except.ok.inj (hprint.symm.trans hprint')

/-! ## Arguments -/

theorem pieces_flatten : ∀ (count : Nat) (text : List Char), text.length ≤ count * argumentChunk →
    (pieces count text).flatten = text
  | 0, text, h => by
    rw [pieces, List.flatten_nil, eq_comm, ← List.length_eq_zero_iff]
    omega
  | count + 1, text, h => by
    rw [pieces, List.flatten_cons, pieces_flatten count _ ?_, List.take_append_drop]
    rw [List.length_drop]
    rw [Nat.succ_mul] at h
    omega

theorem pieces_length : ∀ (count : Nat) (text : List Char), (pieces count text).length = count
  | 0, _ => rfl
  | count + 1, text => by rw [pieces, List.length_cons, pieces_length]

/-- No piece is empty while there are characters for it. -/
theorem pieces_ne_nil : ∀ (count : Nat) (text : List Char), count * argumentChunk < text.length →
    ∀ part ∈ pieces (count + 1) text, part ≠ [] := by
  intro count
  induction count with
  | zero =>
    intro text hlen part h
    rw [pieces, pieces, List.mem_singleton] at h
    rintro rfl
    have hzero := congrArg List.length h
    rw [List.length_nil, List.length_take, argumentChunk] at hzero
    omega
  | succ count ih =>
    intro text hlen part h
    rw [pieces, List.mem_cons] at h
    rw [Nat.succ_mul] at hlen
    rcases h with h | h
    · rintro rfl
      have hzero := congrArg List.length h
      rw [List.length_nil, List.length_take, argumentChunk] at hzero
      omega
    · refine ih (text.drop argumentChunk) ?_ part h
      rw [List.length_drop]
      omega

/-- The arguments of a transport, joined again. -/
theorem decodeArguments_pieces (hw : v.WF) (h : encodeBootstrap host v = .ok encoded) :
    ∃ parts, payloadArguments encoded = .ok parts ∧ 1 ≤ parts.length ∧ parts.length ≤ 8 ∧
      decodeArguments host parts = .ok v := by
  have hlen : 0 < encoded.length ∧ encoded.length ≤ maxExtendedText := by
    rcases encodeBootstrap_ok h with hlegacy | ⟨-, -, hpack⟩
    · have hshort := legacy_short hlegacy
      obtain ⟨-, -, heq, -⟩ := encodePayload_ok hlegacy
      have hpos : 0 < (wire host.floats v).length := wire_pos v
      have hsize := Base64.length_encode (wire host.floats v)
      rw [← heq] at hsize
      rw [maxPayloadText, maxPayloadBytes] at hshort
      rw [maxExtendedText]
      omega
    · obtain ⟨-, heq, hmax⟩ := pack_ok hpack
      refine ⟨?_, hmax⟩
      rw [heq, List.length_append]
      exact Nat.add_pos_left (by decide) _
  have hargs : payloadArguments encoded = .ok (pieces ((encoded.length + argumentChunk - 1) / argumentChunk) encoded) := by
    simp only [payloadArguments, bind_ok, require_ok, exists_unit, Bool.and_eq_true, decide_eq_true_eq]
    exact ⟨hlen, rfl⟩
  have hcount : 1 ≤ (encoded.length + argumentChunk - 1) / argumentChunk ∧
      (encoded.length + argumentChunk - 1) / argumentChunk ≤ 8 ∧
      encoded.length ≤ (encoded.length + argumentChunk - 1) / argumentChunk * argumentChunk ∧
      ((encoded.length + argumentChunk - 1) / argumentChunk - 1) * argumentChunk < encoded.length := by
    rw [maxExtendedText] at hlen
    simp only [argumentChunk]
    omega
  obtain ⟨hone, height, hcover, hlast⟩ := hcount
  have hflat := pieces_flatten _ encoded hcover
  refine ⟨_, hargs, ?_, ?_, ?_⟩
  · rw [pieces_length]
    exact hone
  · rw [pieces_length]
    exact height
  · have hsum : ((pieces ((encoded.length + argumentChunk - 1) / argumentChunk) encoded).map List.length).sum = encoded.length := by
      rw [← List.length_flatten, hflat]
    simp only [decodeArguments, bind_ok, require_ok, exists_unit, Bool.and_eq_true, decide_eq_true_eq, pieces_length, hsum, hflat,
      List.all_eq_true]
    refine ⟨⟨⟨⟨hone, height⟩, fun part hpart => ?_⟩, hlen.2⟩, decodePayload_encode hw h⟩
    rw [← Nat.sub_add_cancel hone] at hpart
    exact pieces_ne_nil _ encoded hlast part hpart

/-- What the transports of one host are to each other and to the values. -/
structure Canonical (host : Host F) : Prop where
  roundTrip : ∀ (v : Value F) (encoded : List Char), v.WF → encodeBootstrap host v = .ok encoded →
    ∃ parts, payloadArguments encoded = .ok parts ∧ 1 ≤ parts.length ∧ parts.length ≤ 8 ∧ decodeArguments host parts = .ok v
  extended : ∀ (encoded : List Char) (v : Value F), decodeBootstrap host encoded = .ok v → encodeBootstrap host v = .ok encoded
  payload : ∀ (encoded : List Char) (v : Value F), decodePayload host encoded = .ok v →
    if bootstrapPrefix.isPrefixOf encoded then encodeBootstrap host v = .ok encoded else encodePayload host v = .ok encoded
  reencoded : ∀ (encoded encoded' : List Char) (v : Value F), decodePayload host encoded = .ok v →
    encodeBootstrap host v = .ok encoded' → encoded' = encoded
  unique : ∀ (encoded encoded' : List Char) (v : Value F),
    decodePayload host encoded = .ok v ∨ decodeBootstrap host encoded = .ok v →
    decodePayload host encoded' = .ok v ∨ decodeBootstrap host encoded' = .ok v → encoded = encoded'

theorem decodePayload_of_decodeBootstrap (h : decodeBootstrap host encoded = .ok v) : decodePayload host encoded = .ok v := by
  rw [decodePayload, if_pos (marked (decodeBootstrap_ok h).2)]
  exact h

end LocalHand.QuotaPayload
