/-
The transport is exact and does not see the chunks: whatever the pieces a
stream arrives in, and wherever the observed reader is bound among them, the
reader ends with a result exactly when the stream is a READY frame and a RESULT
frame of this execution, and then with that frame's result.

Two invariants carry the two directions. `Reached` tells which whole frames a
reader that has not failed has taken; `OnTrack` tells where a reader stands on a
stream that is right.
-/
import LocalHand.ResultReader
import LocalHand.Lib.JsonRoundTrip
import Mathlib.Data.List.Induction

namespace LocalHand.ResultReader

open PyJson Framing

variable {F : Type} [DecidableEq F] {site : Site F} {cfg : Config site} {s s' : State F} {observed : Value F}

/-! ## What a stream should be -/

/-- The fields of the frame with the given number, from the given reader. -/
structure Carries (cfg : Config site) (frames : Nat) (reader : Identity) (fields : List (String × Value F)) : Prop where
  keys : keysAre fields (frameKeys frames) = true
  version : lookup fields "version" = some (.int 1)
  type : lookup fields "type" = some (.str (frameType frames))
  execution : lookup fields "execution_id" = some (.str cfg.executionId)
  phase : lookup fields "phase" = some (.str cfg.phase.text)
  helperIs : identityAt true fields "helper_identity" = .ok cfg.helper
  readerIs : identityAt false fields "reader_identity" = .ok reader
  unit : reader.unit = cfg.readerUnit
  boot : reader.bootId = cfg.helper.bootId

/-- `raw` is strict JSON, in its bound, of a frame. -/
structure IsFrame (cfg : Config site) (frames : Nat) (reader : Identity) (raw : Bytes)
    (fields : List (String × Value F)) : Prop where
  pos : 0 < raw.length
  bound : raw.length ≤ frameMaximum frames
  json : strictJson site raw (frameMaximum frames) = .ok (.obj fields)
  carries : Carries cfg frames reader fields

/-- The RESULT frame's result, which `_result` accepts. -/
def HasResult (cfg : Config site) (fields : List (String × Value F)) (value : Value F) : Prop :=
  lookup fields "result" = some value ∧ result site value cfg.executionId cfg.phase.text = .ok value

/-- A READY frame, a RESULT frame and nothing after. -/
def ExactStream (cfg : Config site) (reader : Identity) (bytes : Bytes) (value : Value F) : Prop :=
  ∃ ready readyFields second fields, bytes = frame ready ++ frame second ∧
    IsFrame cfg 0 reader ready readyFields ∧ IsFrame cfg 1 reader second fields ∧ HasResult cfg fields value

/-- What the manager observed is this reader's invocation. -/
def Binds (cfg : Config site) (observed : Value F) (reader : Identity) : Prop :=
  ∃ value, withUnit cfg observed = some value ∧ identity false value = .ok reader ∧
    reader.unit = cfg.readerUnit ∧ reader.bootId = cfg.helper.bootId

omit [DecidableEq F] in
theorem Binds.unique {reader reader' : Identity} (h : Binds cfg observed reader) (h' : Binds cfg observed reader') :
    reader = reader' := by
  obtain ⟨value, hvalue, hid, -⟩ := h
  obtain ⟨value', hvalue', hid', -⟩ := h'
  rw [hvalue] at hvalue'
  cases hvalue'
  rw [hid] at hid'
  exact Except.ok.inj hid'

/-! ## One frame -/

/-- No identity known so far is another one. -/
def Agrees (s : State F) (reader : Identity) : Prop :=
  (s.readerIdentity = none ∨ s.readerIdentity = some reader) ∧
    (s.boundIdentity = none ∨ s.boundIdentity = some reader)

theorem checkFrame_ok {frames : Nat} {value : Value F} {fields : List (String × Value F)} :
    checkFrame cfg frames value = .ok fields ↔ value = .obj fields ∧
      keysAre fields (frameKeys frames) = true ∧ lookup fields "version" = some (.int 1) ∧
      lookup fields "type" = some (.str (frameType frames)) ∧
      lookup fields "execution_id" = some (.str cfg.executionId) ∧
      lookup fields "phase" = some (.str cfg.phase.text) ∧
      identityAt true fields "helper_identity" = .ok cfg.helper := by
  unfold checkFrame
  split
  · next fields' =>
    simp only [bind_ok, require_ok, exists_unit, pure, Except.pure, Except.ok.injEq, Bool.and_eq_true,
      decide_eq_true_eq, Value.obj.injEq]
    constructor
    · rintro ⟨⟨⟨⟨⟨hkeys, hver⟩, htype⟩, hexec⟩, hphase⟩, helper, hhelper, rfl, rfl⟩
      exact ⟨rfl, hkeys, hver, htype, hexec, hphase, hhelper⟩
    · rintro ⟨rfl, hkeys, hver, htype, hexec, hphase, hhelper⟩
      exact ⟨⟨⟨⟨⟨hkeys, hver⟩, htype⟩, hexec⟩, hphase⟩, cfg.helper, hhelper, rfl, rfl⟩
  · next hobj => exact ⟨fun h => (by cases h), fun h => absurd h.1 (hobj fields)⟩

omit [DecidableEq F] in
theorem checkReader_ok {fields : List (String × Value F)} {reader : Identity} :
    checkReader cfg s fields = .ok reader ↔ identityAt false fields "reader_identity" = .ok reader ∧
      reader.unit = cfg.readerUnit ∧ reader.bootId = cfg.helper.bootId ∧ Agrees s reader := by
  simp only [checkReader, bind_ok, require_ok, exists_unit, pure, Except.pure, Except.ok.injEq, Bool.and_eq_true,
    Bool.or_eq_true, decide_eq_true_eq, Agrees]
  constructor
  · rintro ⟨reader', hid, ⟨⟨⟨hunit, hboot⟩, hreader⟩, hbound⟩, rfl⟩
    exact ⟨hid, hunit, hboot, hreader, hbound⟩
  · rintro ⟨hid, hunit, hboot, hreader, hbound⟩
    exact ⟨reader, hid, ⟨⟨⟨hunit, hboot⟩, hreader⟩, hbound⟩, rfl⟩

theorem result_eq {value value' : Value F} {executionId phase : String}
    (h : result site value executionId phase = .ok value') : value' = value := by
  simp only [result, bind_ok, require_ok, exists_unit, pure, Except.pure, Except.ok.injEq] at h
  obtain ⟨-, -, -, -, rfl⟩ := h
  rfl

theorem checkResult_ok {fields : List (String × Value F)} {value : Value F} :
    checkResult cfg fields = .ok value ↔ HasResult cfg fields value := by
  unfold checkResult HasResult
  split
  · next hnone => simp [hnone]
  · next found hfound =>
    rw [hfound]
    constructor
    · intro h
      obtain rfl := result_eq h
      exact ⟨rfl, h⟩
    · rintro ⟨hsome, h⟩
      cases hsome
      exact h

/-- What `takeFrame` has done when it raises nothing. -/
structure Taken (cfg : Config site) (s : State F) (raw : Bytes) (s' : State F) (reader : Identity)
    (fields : List (String × Value F)) : Prop where
  json : strictJson site raw (frameMaximum s.frames) = .ok (.obj fields)
  carries : Carries cfg s.frames reader fields
  agrees : Agrees s reader
  state : if s.frames = 1 then ∃ value, HasResult cfg fields value ∧
      s' = { s with readerIdentity := some reader, candidate := some value, frames := s.frames + 1 }
    else s' = { s with readerIdentity := some reader, frames := s.frames + 1 }

theorem takeFrame_ok {raw : Bytes} :
    takeFrame cfg s raw = (s', none) ↔ ∃ reader fields, Taken cfg s raw s' reader fields := by
  constructor
  · intro h
    unfold takeFrame at h
    split at h
    · cases h
    · next fields hfields =>
      obtain ⟨value, hjson, hcheck⟩ := bind_ok.mp hfields
      obtain ⟨rfl, hkeys, hver, htype, hexec, hphase, hhelper⟩ := checkFrame_ok.mp hcheck
      split at h
      · cases h
      · next reader hreader =>
        obtain ⟨hid, hunit, hboot, hagrees⟩ := checkReader_ok.mp hreader
        refine ⟨reader, fields, hjson, ⟨hkeys, hver, htype, hexec, hphase, hhelper, hid, hunit, hboot⟩, hagrees, ?_⟩
        by_cases hone : s.frames = 1
        · simp only [hone, if_true] at h ⊢
          split at h
          · cases h
          · next value hvalue => exact ⟨value, checkResult_ok.mp hvalue, (Prod.mk.inj h).1.symm⟩
        · simp only [hone, if_false] at h ⊢
          exact (Prod.mk.inj h).1.symm
  · rintro ⟨reader, fields, hjson, hc, hagrees, hstate⟩
    have hcheck : (strictJson site raw (frameMaximum s.frames) >>= checkFrame cfg s.frames) = .ok fields :=
      bind_ok.mpr ⟨_, hjson, checkFrame_ok.mpr ⟨rfl, hc.keys, hc.version, hc.type, hc.execution, hc.phase, hc.helperIs⟩⟩
    have hreader : checkReader cfg s fields = .ok reader := checkReader_ok.mpr ⟨hc.readerIs, hc.unit, hc.boot, hagrees⟩
    simp only [takeFrame, hcheck, hreader]
    by_cases hone : s.frames = 1
    · simp only [hone, if_true] at hstate ⊢
      obtain ⟨value, hvalue, rfl⟩ := hstate
      rw [checkResult_ok.mpr hvalue]
    · simp only [hone, if_false] at hstate ⊢
      rw [hstate]

/-! ## Only exact streams give a result -/

/-- The frames a reader has taken out of the bytes fed so far. -/
inductive Reached (cfg : Config site) (s : State F) (fed : Bytes) : Prop where
  | start (hframes : s.frames = 0) (hfed : fed = s.buffer)
  | ready (reader : Identity) (raw : Bytes) (fields : List (String × Value F)) (hframes : s.frames = 1)
      (hreader : s.readerIdentity = some reader) (hframe : IsFrame cfg 0 reader raw fields)
      (hfed : fed = frame raw ++ s.buffer)
  | result (reader : Identity) (value : Value F) (exact : Bytes) (hframes : s.frames = 2)
      (hreader : s.readerIdentity = some reader) (hvalue : s.candidate = some value)
      (hexact : ExactStream cfg reader exact value) (hfed : fed = exact ++ s.buffer)

/-- More bytes in the buffer are more bytes fed. -/
theorem Reached.extend {fed : Bytes} (h : Reached cfg s fed) (data : Bytes) (total : Nat) :
    Reached cfg { s with total, buffer := s.buffer ++ data } (fed ++ data) := by
  cases h with
  | start hframes hfed => exact .start hframes (by rw [hfed])
  | ready reader raw fields hframes hreader hframe hfed =>
    exact .ready reader raw fields hframes hreader hframe (by rw [hfed, List.append_assoc])
  | result reader value exact hframes hreader hvalue hexact hfed =>
    exact .result reader value exact hframes hreader hvalue hexact (by rw [hfed, List.append_assoc])

/-- Taking the frame at the front of the buffer. -/
theorem Reached.take {fed raw rest : Bytes} (h : Reached cfg s fed) (hbuffer : s.buffer = frame raw ++ rest)
    (hlt : s.frames ≠ 2) (hpos : 0 < raw.length) (hbound : raw.length ≤ frameMaximum s.frames)
    (htake : takeFrame cfg { s with buffer := rest } raw = (s', none)) : Reached cfg s' fed := by
  obtain ⟨reader, fields, htaken⟩ := takeFrame_ok.mp htake
  have hframe : IsFrame cfg s.frames reader raw fields := ⟨hpos, hbound, htaken.json, htaken.carries⟩
  have hstate := htaken.state
  cases h with
  | start hframes hfed =>
    simp only [hframes, Nat.zero_ne_one, if_false] at hstate
    rw [hframes] at hframe
    rw [hstate]
    exact .ready reader raw fields rfl rfl hframe (by rw [hfed, hbuffer])
  | ready reader' raw' fields' hframes hreader hframe' hfed =>
    simp only [hframes, if_true] at hstate
    rw [hframes] at hframe
    obtain ⟨value, hvalue, hs'⟩ := hstate
    rw [hs']
    -- The second frame tells the reader of the first.
    have hsame : reader' = reader := by
      rcases htaken.agrees.1 with hnone | hsome
      · simp [hreader] at hnone
      · simpa [hreader] using hsome
    subst hsame
    exact .result reader' value _ rfl rfl rfl ⟨raw', fields', raw, fields, rfl, hframe', hframe, hvalue⟩
      (by rw [hfed, hbuffer, List.append_assoc])
  | result reader' value exact hframes => exact absurd hframes hlt

theorem takeFrame_kept {raw : Bytes} (h : takeFrame cfg s raw = (s', none)) :
    s'.boundIdentity = s.boundIdentity ∧ s'.finished = s.finished := by
  obtain ⟨reader, fields, htaken⟩ := takeFrame_ok.mp h
  have hstate := htaken.state
  split at hstate
  · obtain ⟨value, -, rfl⟩ := hstate
    exact ⟨rfl, rfl⟩
  · rw [hstate]
    exact ⟨rfl, rfl⟩

/-- One turn of the loop: it stops where it is, or takes the frame in front. -/
theorem takeFrames_turn {n : Nat} (h : takeFrames cfg (n + 1) s = (s', none)) :
    s' = s ∨ ∃ raw rest s₁, s.buffer = frame raw ++ rest ∧ s.frames ≠ 2 ∧ 0 < raw.length ∧
      raw.length ≤ frameMaximum s.frames ∧ takeFrame cfg { s with buffer := rest } raw = (s₁, none) ∧
      takeFrames cfg n s₁ = (s', none) := by
  unfold takeFrames at h
  split at h
  · exact .inl (Prod.mk.inj h).1.symm
  split at h
  · cases h
  next hlt =>
  split at h
  · exact .inl (Prod.mk.inj h).1.symm
  dsimp only at h
  split at h
  · cases h
  next hsize =>
  rw [not_not] at hsize
  split at h
  · exact .inl (Prod.mk.inj h).1.symm
  next hwhole =>
  split at h
  · next s₁ htake =>
    have hbuffer := eq_frame_append (by omega) rfl (Nat.not_lt.mp hwhole)
    have hlen : ((s.buffer.drop 4).take (readSize s.buffer)).length = readSize s.buffer := by
      rw [List.length_take, List.length_drop]
      omega
    exact .inr ⟨_, _, s₁, hbuffer, hlt, hlen.symm ▸ hsize.1, hlen.symm ▸ hsize.2, htake, h⟩
  · cases h

theorem takeFrames_reached {fed : Bytes} {n : Nat} (hr : Reached cfg s fed) (h : takeFrames cfg n s = (s', none)) :
    Reached cfg s' fed := by
  induction n generalizing s with
  | zero => exact (Prod.mk.inj h).1 ▸ hr
  | succ n ih =>
    rcases takeFrames_turn h with rfl | ⟨raw, rest, s₁, hbuffer, hlt, hpos, hbound, htake, hrest⟩
    · exact hr
    · exact ih (hr.take hbuffer hlt hpos hbound htake) hrest

theorem takeFrames_kept {n : Nat} (h : takeFrames cfg n s = (s', none)) :
    s'.boundIdentity = s.boundIdentity ∧ s'.finished = s.finished := by
  induction n generalizing s with
  | zero => exact (Prod.mk.inj h).1 ▸ ⟨rfl, rfl⟩
  | succ n ih =>
    rcases takeFrames_turn h with rfl | ⟨raw, rest, s₁, -, -, -, -, htake, hrest⟩
    · exact ⟨rfl, rfl⟩
    · obtain ⟨hbound, hfin⟩ := takeFrame_kept htake
      exact ⟨(ih hrest).1.trans hbound, (ih hrest).2.trans hfin⟩

/-- A reader that has not failed, after the given calls. -/
structure Sound (cfg : Config site) (observed : Value F) (s : State F) (ops : List Op) : Prop where
  unfinished : s.finished = false
  reached : Reached cfg s (stream ops)
  bound : ∀ {reader}, s.boundIdentity = some reader → Binds cfg observed reader ∧ Op.bind ∈ ops

theorem stream_append (ops ops' : List Op) : stream (ops ++ ops') = stream ops ++ stream ops' := by
  simp [stream]

theorem feed_ok {data : Bytes} (h : (feed cfg s data).1.failed = false) :
    s.failed = false ∧ s.finished = false ∧
      takeFrames cfg 3 { s with total := s.total + data.length, buffer := s.buffer ++ data } =
        ((feed cfg s data).1, none) := by
  unfold feed at h ⊢
  split at h
  · cases h
  next hlive =>
  split at h
  · cases h
  next htotal =>
  rw [if_neg hlive, if_neg htotal]
  split at h
  · next s₁ htake =>
    simp only [not_or, Bool.not_eq_true] at hlive
    exact ⟨hlive.1, hlive.2, by rw [htake]⟩
  · cases h

omit [DecidableEq F] in
theorem bindReader_ok (h : (bindReader cfg s observed).1.failed = false) :
    ∃ reader, Binds cfg observed reader ∧ Agrees s reader ∧ s.failed = false ∧
      bindReader cfg s observed = ({ s with boundIdentity := some reader }, none) := by
  unfold bindReader at h ⊢
  split at h
  · cases h
  next value hvalue =>
  split at h
  · cases h
  next reader hreader =>
  split at h
  · cases h
  next hagrees =>
  split at h
  · cases h
  next hlive =>
  rw [not_or, not_or, not_or, not_not, not_not, not_not, not_not] at hagrees
  simp only [List.mem_cons, List.not_mem_nil, or_false] at hagrees
  obtain ⟨hunit, hboot, hbound, hknown⟩ := hagrees
  refine ⟨reader, ⟨value, hvalue, hreader, hunit, hboot⟩, ⟨hknown, hbound⟩, by simpa using hlive, ?_⟩
  simp [hunit, hboot, hbound, hknown, hlive]

theorem Sound.step {ops : List Op} (h : s.failed = false → Sound cfg observed s ops) (op : Op)
    (hlive : (step cfg observed s op).failed = false) :
    Sound cfg observed (step cfg observed s op) (ops ++ [op]) := by
  cases op with
  | feed data =>
    obtain ⟨hf, -, htake⟩ := feed_ok hlive
    have hs := h hf
    have hreached := takeFrames_reached (hs.reached.extend data (s.total + data.length)) htake
    obtain ⟨hbound, hfin⟩ := takeFrames_kept htake
    refine ⟨hfin.trans hs.unfinished, ?_, fun hb => ?_⟩
    · rw [stream_append]
      simpa [stream, ResultReader.step] using hreached
    · obtain ⟨hbinds, hmem⟩ := hs.bound (hbound.symm.trans hb)
      exact ⟨hbinds, List.mem_append_left _ hmem⟩
  | bind =>
    obtain ⟨reader, hbinds, -, hf, hstate⟩ := bindReader_ok hlive
    have hs := h hf
    simp only [ResultReader.step, hstate]
    refine ⟨hs.unfinished, ?_, fun hb => ?_⟩
    · rw [stream_append]
      have hreached : Reached cfg { s with boundIdentity := some reader } (stream ops) := by
        cases hs.reached with
        | start hframes hfed => exact .start hframes hfed
        | ready r raw fields hframes hreader hframe hfed => exact .ready r raw fields hframes hreader hframe hfed
        | result r value exact hframes hreader hvalue hexact hfed =>
          exact .result r value exact hframes hreader hvalue hexact hfed
      simpa [stream] using hreached
    · cases hb
      exact ⟨hbinds, List.mem_append_right _ (List.mem_singleton.mpr rfl)⟩

theorem Sound.start : Sound cfg observed .start [] :=
  ⟨rfl, .start rfl rfl, fun h => (nomatch h)⟩

theorem sound_run (ops : List Op) (h : (ops.foldl (ResultReader.step cfg observed) .start).failed = false) :
    Sound cfg observed (ops.foldl (ResultReader.step cfg observed) .start) ops := by
  induction ops using List.reverseRecOn with
  | nil => exact Sound.start
  | append_singleton ops op ih =>
    rw [List.foldl_append, List.foldl_cons, List.foldl_nil] at h ⊢
    exact Sound.step ih op h

/-- A reader that ends with a result was fed an exact stream and bound to its reader. -/
theorem exact_of_result {ops : List Op} {value : Value F} (h : (run cfg observed ops).result = some value) :
    Op.bind ∈ ops ∧ ∃ reader, Binds cfg observed reader ∧ ExactStream cfg reader (stream ops) value := by
  unfold run finish at h
  split at h
  · simp [State.reject, State.result] at h
  next hdone =>
  simp only [not_or, not_not, State.complete, Bool.and_eq_true, decide_eq_true_eq, Bool.not_eq_true'] at hdone
  obtain ⟨⟨⟨hframes, hlive⟩, hbuffer⟩, hbound, hsame⟩ := hdone
  obtain ⟨reader, hreader⟩ := Option.ne_none_iff_exists'.mp hbound
  have hs := sound_run ops hlive
  obtain ⟨hbinds, hmem⟩ := hs.bound hreader
  refine ⟨hmem, reader, hbinds, ?_⟩
  cases hs.reached with
  | start hf => rw [hframes] at hf; cases hf
  | ready _ _ _ hf => rw [hframes] at hf; cases hf
  | result reader' value' exact _ hreader' hvalue hexact hfed =>
    rw [← hsame, hreader, Option.some.injEq] at hreader'
    subst hreader'
    rw [hfed, hbuffer, List.append_nil]
    simp only [State.result, hlive, Bool.not_false, Bool.and_self, if_true, hvalue, Option.some.injEq] at h
    exact h ▸ hexact

/-! ## Every exact stream gives its result -/

section Exact

variable {reader : Identity} {first second : Bytes} {firstFields fields : List (String × Value F)} {value : Value F}

omit [DecidableEq F] in
theorem IsFrame.length_lt {frames : Nat} {raw : Bytes} (h : IsFrame cfg frames reader raw fields) :
    raw.length < 2 ^ 32 := by
  have := h.bound
  unfold frameMaximum maxReadyBytes maxFrameBytes maxResultBytes at this
  split at this <;> omega

/-- A frame that is not there yet is waited for. -/
theorem takeFrames_wait {n frames : Nat} {raw : Bytes} (hframe : IsFrame cfg frames reader raw fields)
    (hs : s.frames = frames) (hlt : frames ≠ 2) (hp : s.buffer <+: frame raw) (hlen : s.buffer.length < raw.length + 4) :
    takeFrames cfg (n + 1) s = (s, none) := by
  unfold takeFrames
  split
  · rfl
  rw [if_neg (hs ▸ hlt)]
  split
  · rfl
  next h4 =>
  have hp' : s.buffer <+: frame raw ++ [] := by rwa [List.append_nil]
  have hsize : readSize s.buffer = raw.length := readSize_early hframe.length_lt (Nat.not_lt.mp h4) hp'
  dsimp only
  rw [hsize, hs, if_neg (not_not.mpr ⟨hframe.pos, hframe.bound⟩), if_pos hlen]

/-- A whole frame is taken. -/
theorem takeFrames_take {n frames : Nat} {raw rest : Bytes} (hframe : IsFrame cfg frames reader raw fields)
    (hs : s.frames = frames) (hlt : frames ≠ 2) (hbuffer : s.buffer = frame raw ++ rest)
    (htake : takeFrame cfg { s with buffer := rest } raw = (s', none)) :
    takeFrames cfg (n + 1) s = takeFrames cfg n s' := by
  have hlen : s.buffer.length = raw.length + 4 + rest.length := by rw [hbuffer, List.length_append, length_frame]
  have hsize : readSize s.buffer = raw.length := by rw [hbuffer, readSize_frame hframe.length_lt]
  have hne : s.buffer ≠ [] := by
    intro h
    rw [h, List.length_nil] at hlen
    omega
  rw [takeFrames, if_neg hne, if_neg (hs ▸ hlt), if_neg (by omega)]
  dsimp only
  rw [hsize, if_neg (not_not.mpr ⟨hframe.pos, hs ▸ hframe.bound⟩), if_neg (by omega), hbuffer, drop_frame, take_frame,
    htake]

/-- Where a reader stands that has been fed `fed` of an exact stream. -/
inductive Place (reader : Identity) (first second : Bytes) (value : Value F) (s : State F) (fed : Bytes) : Prop where
  | before (hframes : s.frames = 0) (hreader : s.readerIdentity = none) (hbuffer : s.buffer = fed)
      (hlen : fed.length < first.length + 4)
  | between (hframes : s.frames = 1) (hreader : s.readerIdentity = some reader)
      (hfed : fed = frame first ++ s.buffer) (hlen : s.buffer.length < second.length + 4)
  | after (hframes : s.frames = 2) (hreader : s.readerIdentity = some reader) (hbuffer : s.buffer = [])
      (hvalue : s.candidate = some value) (hfed : fed = frame first ++ frame second)

structure OnTrack (reader : Identity) (first second : Bytes) (value : Value F) (s : State F) (fed : Bytes) : Prop where
  live : s.failed = false
  unfinished : s.finished = false
  total : s.total = fed.length
  bound : s.boundIdentity = none ∨ s.boundIdentity = some reader
  place : Place reader first second value s fed

omit [DecidableEq F] in
theorem OnTrack.start : OnTrack reader first second value (State.start : State F) [] :=
  ⟨rfl, rfl, rfl, .inl rfl, .before rfl rfl rfl (by simp)⟩

/-- From behind the first frame the loop ends on track. -/
theorem takeFrames_second (h : IsFrame cfg 1 reader second fields) (hv : HasResult cfg fields value) {n : Nat} {fed : Bytes}
    (hlive : s.failed = false) (hunfin : s.finished = false) (htotal : s.total = fed.length)
    (hbound : s.boundIdentity = none ∨ s.boundIdentity = some reader) (hframes : s.frames = 1)
    (hreader : s.readerIdentity = some reader) (hfed : fed = frame first ++ s.buffer) (hp : s.buffer <+: frame second) :
    ∃ s', takeFrames cfg (n + 2) s = (s', none) ∧ OnTrack reader first second value s' fed := by
  by_cases hlen : s.buffer.length < second.length + 4
  · exact ⟨s, takeFrames_wait h hframes (by decide) hp hlen, hlive, hunfin, htotal, hbound,
      .between hframes hreader hfed hlen⟩
  · have hbuffer : s.buffer = frame second ++ [] := by
      rw [List.append_nil]
      exact hp.eq_of_length (Nat.le_antisymm hp.length_le (by rw [length_frame]; omega))
    have htake : takeFrame cfg { s with buffer := [] } second =
        ({ s with buffer := [], readerIdentity := some reader, candidate := some value, frames := 2 }, none) := by
      refine takeFrame_ok.mpr ⟨reader, fields, ?_⟩
      refine ⟨hframes ▸ h.json, hframes ▸ h.carries, ⟨.inr hreader, hbound⟩, ?_⟩
      simp only [hframes, if_true]
      exact ⟨value, hv, rfl⟩
    have hwhole : fed = frame first ++ frame second := by rw [hfed, hbuffer, List.append_nil]
    refine ⟨{ s with buffer := [], readerIdentity := some reader, candidate := some value, frames := 2 }, ?_,
      hlive, hunfin, htotal, hbound, .after rfl rfl rfl rfl hwhole⟩
    rw [takeFrames_take h hframes (by decide) hbuffer htake]
    rfl

/-- From the front of the stream the loop ends on track. -/
theorem takeFrames_first (h : IsFrame cfg 0 reader first firstFields) (h' : IsFrame cfg 1 reader second fields)
    (hv : HasResult cfg fields value) {n : Nat} {fed : Bytes} (hlive : s.failed = false) (hunfin : s.finished = false)
    (htotal : s.total = fed.length) (hbound : s.boundIdentity = none ∨ s.boundIdentity = some reader)
    (hframes : s.frames = 0) (hreader : s.readerIdentity = none) (hfed : s.buffer = fed)
    (hp : fed <+: frame first ++ frame second) :
    ∃ s', takeFrames cfg (n + 3) s = (s', none) ∧ OnTrack reader first second value s' fed := by
  by_cases hlen : fed.length < first.length + 4
  · have hfirst : s.buffer <+: frame first :=
      hfed ▸ List.prefix_of_prefix_length_le hp (List.prefix_append _ _) (by rw [length_frame]; omega)
    exact ⟨s, takeFrames_wait h hframes (by decide) hfirst (hfed ▸ hlen), hlive, hunfin, htotal, hbound,
      .before hframes hreader hfed hlen⟩
  · obtain ⟨rest, hrest⟩ : frame first <+: fed :=
      List.prefix_of_prefix_length_le (List.prefix_append _ _) hp (by rw [length_frame]; omega)
    have hsecond : rest <+: frame second := by
      rw [← hrest] at hp
      exact (List.prefix_append_right_inj _).mp hp
    have htake : takeFrame cfg { s with buffer := rest } first =
        ({ s with buffer := rest, readerIdentity := some reader, frames := 1 }, none) := by
      refine takeFrame_ok.mpr ⟨reader, firstFields, hframes ▸ h.json, hframes ▸ h.carries, ⟨.inl hreader, hbound⟩, ?_⟩
      simp only [hframes, Nat.zero_ne_one, if_false]
    obtain ⟨s', hs', htrack⟩ := takeFrames_second (s := { s with buffer := rest, readerIdentity := some reader, frames := 1 })
      (n := n) h' hv hlive hunfin htotal hbound rfl rfl hrest.symm hsecond
    exact ⟨s', by rw [takeFrames_take h hframes (by decide) (hfed.trans hrest.symm) htake]; exact hs', htrack⟩

omit [DecidableEq F] in
theorem exact_length (h : IsFrame cfg 0 reader first firstFields) (h' : IsFrame cfg 1 reader second fields) :
    (frame first ++ frame second).length ≤ maxTransportBytes := by
  have hfirst := h.bound
  have hsecond := h'.bound
  simp only [frameMaximum, if_true, Nat.one_ne_zero, if_false] at hfirst hsecond
  rw [List.length_append, length_frame, length_frame, maxTransportBytes]
  omega

/-- Feeding the next bytes of an exact stream keeps the reader on track. -/
theorem OnTrack.feed {fed data : Bytes} (ht : OnTrack reader first second value s fed)
    (h : IsFrame cfg 0 reader first firstFields) (h' : IsFrame cfg 1 reader second fields)
    (hv : HasResult cfg fields value) (hp : fed ++ data <+: frame first ++ frame second) :
    OnTrack reader first second value (feed cfg s data).1 (fed ++ data) := by
  have htotal : ¬ s.total + data.length > maxTransportBytes := by
    have hlen := hp.length_le
    have hmax := exact_length h h'
    rw [List.length_append] at hlen
    rw [ht.total]
    omega
  have hloop : ∃ s', takeFrames cfg 3 { s with total := s.total + data.length, buffer := s.buffer ++ data } = (s', none) ∧
      OnTrack reader first second value s' (fed ++ data) := by
    have hlen : s.total + data.length = (fed ++ data).length := by rw [ht.total, List.length_append]
    cases ht.place with
    | before hframes hreader hbuffer =>
      exact takeFrames_first (n := 0) h h' hv ht.live ht.unfinished hlen ht.bound hframes hreader (by rw [hbuffer]) hp
    | between hframes hreader hfed =>
      refine takeFrames_second (n := 1) h' hv ht.live ht.unfinished hlen ht.bound hframes hreader ?_ ?_
      · rw [hfed, List.append_assoc]
      · rw [hfed, List.append_assoc] at hp
        exact (List.prefix_append_right_inj _).mp hp
    | after hframes hreader hbuffer hvalue hfed =>
      have hdata : data = [] := by
        rw [hfed] at hp
        have hle := hp.length_le
        rw [List.length_append] at hle
        exact List.eq_nil_of_length_eq_zero (by omega)
      subst hdata
      refine ⟨{ s with total := s.total + 0, buffer := s.buffer ++ [] }, ?_, ht.live, ht.unfinished, hlen, ht.bound,
        .after hframes hreader (by rw [hbuffer]; rfl) hvalue (by rw [List.append_nil, hfed])⟩
      rw [takeFrames, if_pos (by rw [hbuffer]; rfl)]
      rfl
  obtain ⟨s', hs', htrack⟩ := hloop
  rw [ResultReader.feed, if_neg (by simp [ht.live, ht.unfinished]), if_neg htotal, hs']
  exact htrack

omit [DecidableEq F] in
/-- Binding the stream's own reader keeps it on track, and bound. -/
theorem OnTrack.bind {fed : Bytes} (ht : OnTrack reader first second value s fed) (hb : Binds cfg observed reader) :
    OnTrack reader first second value (bindReader cfg s observed).1 fed ∧
      (bindReader cfg s observed).1.boundIdentity = some reader := by
  obtain ⟨v, hv, hid, hunit, hboot⟩ := hb
  have hknown : s.readerIdentity = none ∨ s.readerIdentity = some reader := by
    cases ht.place with
    | before _ hreader => exact .inl hreader
    | between _ hreader => exact .inr hreader
    | after _ hreader => exact .inr hreader
  have hstate : bindReader cfg s observed = ({ s with boundIdentity := some reader }, none) := by
    simp [bindReader, hv, hid, hunit, hboot, ht.bound, hknown, ht.live]
  rw [hstate]
  refine ⟨⟨ht.live, ht.unfinished, ht.total, .inr rfl, ?_⟩, rfl⟩
  cases ht.place with
  | before hframes hreader hbuffer hlen => exact .before hframes hreader hbuffer hlen
  | between hframes hreader hfed hlen => exact .between hframes hreader hfed hlen
  | after hframes hreader hbuffer hvalue hfed => exact .after hframes hreader hbuffer hvalue hfed

theorem feed_bound {data : Bytes} (h : (ResultReader.feed cfg s data).1.failed = false) :
    (ResultReader.feed cfg s data).1.boundIdentity = s.boundIdentity := by
  obtain ⟨-, -, htake⟩ := feed_ok h
  exact (takeFrames_kept htake).1

/-- A reader fed a part of an exact stream is on track, and bound once it was told. -/
theorem onTrack_run (h : IsFrame cfg 0 reader first firstFields) (h' : IsFrame cfg 1 reader second fields)
    (hv : HasResult cfg fields value) (hb : Binds cfg observed reader) (ops : List Op)
    (hp : stream ops <+: frame first ++ frame second) :
    OnTrack reader first second value (ops.foldl (ResultReader.step cfg observed) .start) (stream ops) ∧
      (Op.bind ∈ ops → (ops.foldl (ResultReader.step cfg observed) .start).boundIdentity = some reader) := by
  induction ops using List.reverseRecOn with
  | nil => exact ⟨OnTrack.start, fun hmem => absurd hmem List.not_mem_nil⟩
  | append_singleton ops op ih =>
    rw [stream_append] at hp ⊢
    rw [List.foldl_append, List.foldl_cons, List.foldl_nil]
    obtain ⟨ht, hbound⟩ := ih ((List.prefix_append _ _).trans hp)
    cases op with
    | feed data =>
      have hdata : stream [.feed data] = data := by simp [stream]
      rw [hdata] at hp ⊢
      have ht' := ht.feed h h' hv hp
      refine ⟨ht', fun hmem => ?_⟩
      have hmem' : Op.bind ∈ ops := by simpa using hmem
      exact (feed_bound ht'.live).trans (hbound hmem')
    | bind =>
      have hnil : stream [.bind] = [] := by simp [stream]
      rw [hnil, List.append_nil]
      exact ⟨(ht.bind hb).1, fun _ => (ht.bind hb).2⟩

/-- A reader fed an exact stream, and bound to its reader, ends with its result. -/
theorem result_of_exact {ops : List Op} (hmem : Op.bind ∈ ops) (hb : Binds cfg observed reader)
    (h : ExactStream cfg reader (stream ops) value) : (run cfg observed ops).result = some value := by
  obtain ⟨ready, readyFields, last, lastFields, heq, h₁, h₂, hv⟩ := h
  obtain ⟨ht, hbound⟩ := onTrack_run h₁ h₂ hv hb ops (heq ▸ List.prefix_rfl)
  have hbound := hbound hmem
  cases ht.place with
  | before _ _ _ hlen =>
    rw [heq, List.length_append, length_frame, length_frame] at hlen
    omega
  | between _ _ hfed hlen =>
    rw [heq] at hfed
    have := congrArg List.length (List.append_cancel_left hfed)
    rw [length_frame] at this
    omega
  | after hframes hreader hbuffer hvalue =>
    simp [run, finish, State.complete, State.result, hframes, ht.live, hbuffer, hbound, hreader, hvalue]

end Exact

/-! ## No exact stream is part of another -/

theorem ExactStream.eq_of_part {reader reader' : Identity} {exact exact' : Bytes} {value value' : Value F}
    (h : ExactStream cfg reader exact value) (h' : ExactStream cfg reader' exact' value') (hp : exact <+: exact') :
    exact = exact' := by
  obtain ⟨first, _, second, _, rfl, hf, hs, -⟩ := h
  obtain ⟨first', _, second', _, rfl, hf', hs', -⟩ := h'
  obtain ⟨rest, hrest⟩ := hp
  rw [List.append_assoc] at hrest
  obtain ⟨rfl, hsecond⟩ := frame_append_inj hf.length_lt hf'.length_lt hrest
  rw [← List.append_nil (frame second')] at hsecond
  obtain ⟨rfl, -⟩ := frame_append_inj hs.length_lt hs'.length_lt hsecond
  rfl

omit [DecidableEq F] in
theorem strictJson_eq {raw : Bytes} {maximum maximum' : Nat} {v v' : Value F}
    (h : strictJson site raw maximum = .ok v) (h' : strictJson site raw maximum' = .ok v') : v = v' := by
  simp only [strictJson, bind_ok, require_ok, exists_unit] at h h'
  obtain ⟨-, h⟩ := h
  obtain ⟨-, h'⟩ := h'
  split at h
  · cases h
  · next value hvalue =>
    simp only [hvalue, bind_ok, exists_unit, pure, Except.pure, Except.ok.injEq] at h h'
    rw [← h.2, ← h'.2]

/-- A READY frame is no RESULT frame. -/
theorem not_exact_repeat {reader reader' : Identity} {first rest : Bytes} {fields : List (String × Value F)}
    {value : Value F} (h : IsFrame cfg 0 reader first fields) :
    ¬ ExactStream cfg reader' (frame first ++ (frame first ++ rest)) value := by
  rintro ⟨first', _, second, fields', heq, hf, hs, -⟩
  obtain ⟨rfl, hsecond⟩ := frame_append_inj h.length_lt hf.length_lt heq
  rw [← List.append_nil (frame second)] at hsecond
  obtain ⟨rfl, -⟩ := frame_append_inj h.length_lt hs.length_lt hsecond
  have hfields := strictJson_eq h.json hs.json
  cases hfields
  have htype := h.carries.type.symm.trans hs.carries.type
  simp [frameType] at htype

/-! ## The frames the child prints -/

theorem decode_encode (text : List Char) : decodeText (encodeText text) = some text := by
  have hbytes : (encodeText text).toByteArray = text.utf8Encode := rfl
  rw [decodeText, hbytes, List.utf8Decode?_utf8Encode]
  simp

omit [DecidableEq F] in
/-- A printed value reads back, if `_json_data` lets it through. -/
theorem strictJson_dumpBytes {v : Value F} {raw : Bytes} {maximum : Nat} (hw : v.WF) (hdump : dumpBytes site v = .ok raw)
    (hdata : jsonData v = .ok ()) (hlen : raw.length ≤ maximum) : strictJson site raw maximum = .ok v := by
  unfold dumpBytes at hdump
  split at hdump
  · cases hdump
  · next text htext =>
    cases hdump
    simp only [strictJson, bind_ok, require_ok, exists_unit, decide_eq_true_eq]
    refine ⟨hlen, ?_⟩
    rw [decode_encode, Option.bind_some, loads_dumps site.floats false hw htext]
    simp only [bind_ok, exists_unit]
    exact ⟨hdata, rfl⟩

theorem encodeText_ne_nil {text : List Char} (h : text ≠ []) : encodeText text ≠ [] := by
  obtain ⟨c, rest, rfl⟩ := List.exists_cons_of_ne_nil h
  simp [encodeText, String.utf8EncodeChar_ne_nil]

/-- The bytes of a frame, read back. -/
theorem frameBytes_ok {v : Value F} {bytes : Bytes} (hw : v.WF) (h : frameBytes site v = .ok bytes) :
    ∃ raw maximum, bytes = Framing.frame raw ∧ maximumOf v = .ok maximum ∧ 0 < raw.length ∧ raw.length ≤ maximum ∧
      strictJson site raw maximum = .ok v := by
  simp only [frameBytes, bind_ok, require_ok, exists_unit, pure, Except.pure, Except.ok.injEq,
    decide_eq_true_eq] at h
  obtain ⟨raw, hraw, maximum, hmax, hlen, rfl⟩ := h
  unfold encodeFrame at hraw
  split at hraw
  · cases hraw
  · next hdata =>
    split at hraw
    · cases hraw
    · next raw' hdump =>
      cases hraw
      refine ⟨raw, maximum, rfl, hmax, ?_, hlen, strictJson_dumpBytes hw hdump hdata hlen⟩
      unfold dumpBytes at hdump
      split at hdump
      · cases hdump
      · next text htext =>
        cases hdump
        refine List.length_pos_iff.mpr (encodeText_ne_nil ?_)
        rintro rfl
        have hread := loads_dumps site.floats false hw htext
        simp [loads, skipWs, scanValue] at hread

/-! ### Identities -/

omit [DecidableEq F] in
theorem lookup_cons (k key : String) (v : Value F) (fields : List (String × Value F)) :
    lookup ((k, v) :: fields) key = if k = key then some v else lookup fields key := by
  unfold lookup
  rw [List.find?_cons]
  by_cases h : k = key <;> simp [h]

omit [DecidableEq F] in
theorem lookup_nil (key : String) : lookup ([] : List (String × Value F)) key = none := rfl

omit [DecidableEq F] in
theorem exitCode_ok {fields : List (String × Value F)} {code : Option Int} (h : exitCode fields = .ok code) :
    ∀ c, code = some c → 0 ≤ c ∧ c < 2 ^ 31 := by
  rintro c rfl
  unfold exitCode at h
  split at h
  · cases h
  · next c' _ =>
    simp only [bind_ok, require_ok, exists_unit, pure, Except.pure, Except.ok.injEq, Bool.and_eq_true,
      decide_eq_true_eq] at h
    obtain ⟨hrange, hc⟩ := h
    cases hc
    exact hrange
  · cases h

omit [DecidableEq F] in
/-- What a decoded identity is. -/
theorem identity_ok {helper : Bool} {v : Value F} {i : Identity} (h : identity helper v = .ok i) :
    isIdentity { i with exitCode := none } = true ∧
      (if helper then ∃ code, i.exitCode = some code ∧ ∀ c, code = some c → 0 ≤ c ∧ c < 2 ^ 31
        else i.exitCode = none) := by
  unfold identity at h
  split at h
  · simp only [bind_ok, require_ok, exists_unit] at h
    obtain ⟨-, h⟩ := h
    split at h
    · simp only [bind_ok, require_ok, exists_unit] at h
      obtain ⟨hid, h⟩ := h
      cases helper with
      | true =>
        simp only [if_true, bind_ok, pure, Except.pure, Except.ok.injEq] at h
        obtain ⟨code, hcode, rfl⟩ := h
        exact ⟨hid, by simpa using exitCode_ok hcode⟩
      | false =>
        simp only [Bool.false_eq_true, if_false, pure, Except.pure, Except.ok.injEq] at h
        obtain rfl := h
        exact ⟨hid, by simp⟩
    · cases h
  · cases h

omit [DecidableEq F] in
/-- An identity decodes from its own dict. -/
theorem identity_value {helper : Bool} {v : Value F} {i : Identity} (h : identity helper v = .ok i) :
    identity helper (i.value : Value F) = .ok i := by
  obtain ⟨hid, hcode⟩ := identity_ok h
  obtain ⟨unit, bootId, invocationId, cgroup, code⟩ := i
  cases helper with
  | false =>
    simp only [Bool.false_eq_true, if_false] at hcode
    subst hcode
    simp [identity, Identity.value, keysAre, identityKeys, lookup_cons, lookup_nil, hid, bind, Except.bind, require,
      pure, Except.pure]
  | true =>
    simp only [if_true] at hcode
    obtain ⟨code', rfl, hrange⟩ := hcode
    cases code' with
    | none =>
      simp [identity, Identity.value, keysAre, identityKeys, lookup_cons, lookup_nil, hid, exitCode, bind, Except.bind,
        require, pure, Except.pure]
    | some c =>
      obtain ⟨hlo, hhi⟩ := hrange c rfl
      have hhi : c < 2147483648 := hhi
      simp [identity, Identity.value, keysAre, identityKeys, lookup_cons, lookup_nil, hid, exitCode, bind, Except.bind,
        require, pure, Except.pure, hlo, hhi]

omit [DecidableEq F] in
theorem sorted_of_keys {fields : List (String × Value F)} (keys : List String) (hs : keys.Pairwise (· < ·))
    (hk : fields.map (·.1) = keys) : fields.Pairwise (·.1 < ·.1) := by
  rw [← hk, List.pairwise_map] at hs
  exact hs

omit [DecidableEq F] in
theorem Identity.value_wf (i : Identity) : (i.value : Value F).WF := by
  obtain ⟨unit, bootId, invocationId, cgroup, code⟩ := i
  have hmembers : fieldsWF [("invocation_id", Value.str invocationId), ("unit", (Value.str unit : Value F))] := by
    simp [fieldsWF, Value.WF]
  rcases code with _ | _ | c
  · exact ⟨sorted_of_keys ["boot_id", "cgroup", "invocation_id", "unit"] (by decide +kernel) rfl,
      trivial, trivial, hmembers⟩
  · exact ⟨sorted_of_keys ["boot_id", "cgroup", "exit_code", "invocation_id", "unit"] (by decide +kernel) rfl,
      trivial, trivial, trivial, hmembers⟩
  · exact ⟨sorted_of_keys ["boot_id", "cgroup", "exit_code", "invocation_id", "unit"] (by decide +kernel) rfl,
      trivial, trivial, trivial, hmembers⟩

omit [DecidableEq F] in
theorem readyFrame_wf (reader : Identity) : (readyFrame cfg reader).WF :=
  ⟨sorted_of_keys ["execution_id", "helper_identity", "phase", "reader_identity", "type", "version"]
    (by decide +kernel) rfl, by simp [fieldsWF, Value.WF, Identity.value_wf]⟩

omit [DecidableEq F] in
theorem resultFrame_wf (reader : Identity) {value : Value F} (hw : value.WF) : (resultFrame cfg reader value).WF :=
  ⟨sorted_of_keys ["execution_id", "helper_identity", "phase", "reader_identity", "result", "type", "version"]
    (by decide +kernel) rfl, by simp [fieldsWF, Value.WF, Identity.value_wf, hw]⟩

omit [DecidableEq F] in
theorem Config.helper_value (cfg : Config site) : identity true (cfg.helper.value : Value F) = .ok cfg.helper := by
  obtain ⟨v, hv⟩ := cfg.helper_valid
  exact identity_value hv

/-- The READY frame the child prints is one the reader takes. -/
theorem readyFrame_ok {reader : Identity} {bytes : Bytes} (hb : Binds cfg observed reader)
    (h : frameBytes site (readyFrame cfg reader) = .ok bytes) :
    ∃ raw fields, bytes = frame raw ∧ IsFrame cfg 0 reader raw fields := by
  obtain ⟨v, -, hid, hunit, hboot⟩ := hb
  obtain ⟨raw, maximum, rfl, hmax, hpos, hlen, hjson⟩ := frameBytes_ok (readyFrame_wf reader) h
  have hmaximum : maximum = frameMaximum 0 := by
    simpa [maximumOf, Value.get?, readyFrame, lookup_cons, frameMaximum, eq_comm] using hmax
  subst hmaximum
  refine ⟨raw, _, rfl, hpos, hlen, hjson, ?_⟩
  have hhelper := cfg.helper_value
  have hreader := identity_value hid
  constructor <;>
    simp [lookup_cons, keysAre, frameKeys, frameType, identityAt, hhelper, hreader, hunit, hboot]

/-- The RESULT frame the child prints is one the reader takes. -/
theorem resultFrame_ok {reader : Identity} {bytes : Bytes} {value : Value F} (hb : Binds cfg observed reader)
    (hw : value.WF) (h : frameBytes site (resultFrame cfg reader value) = .ok bytes) :
    ∃ raw fields, bytes = frame raw ∧ IsFrame cfg 1 reader raw fields ∧ lookup fields "result" = some value := by
  obtain ⟨v, -, hid, hunit, hboot⟩ := hb
  obtain ⟨raw, maximum, rfl, hmax, hpos, hlen, hjson⟩ := frameBytes_ok (resultFrame_wf reader hw) h
  have hmaximum : maximum = frameMaximum 1 := by
    simpa [maximumOf, Value.get?, resultFrame, lookup_cons, frameMaximum, eq_comm] using hmax
  subst hmaximum
  refine ⟨raw, _, rfl, ⟨hpos, hlen, hjson, ?_⟩, by simp [lookup_cons]⟩
  have hhelper := cfg.helper_value
  have hreader := identity_value hid
  constructor <;>
    simp [lookup_cons, keysAre, frameKeys, frameType, identityAt, hhelper, hreader, hunit, hboot]

/-- **The transport is exact.** Whatever pieces a stream arrives in, and wherever
the observed reader is bound among them, the reader ends with a result exactly
when it was bound and the stream is a READY and a RESULT frame of this execution
from that reader, and then with the second frame's result. So the pieces do not
matter; the frames the child prints for an accepted result give that result; and
a part of an exact stream, more than one, or one with its READY frame repeated
gives none. -/
theorem transport_exact (cfg : Config site) (observed : Value F) (ops : List Op) :
    (∀ value, (run cfg observed ops).result = some value ↔
      Op.bind ∈ ops ∧ ∃ reader, Binds cfg observed reader ∧ ExactStream cfg reader (stream ops) value) ∧
    (∀ ops', stream ops' = stream ops → (Op.bind ∈ ops' ↔ Op.bind ∈ ops) →
      (run cfg observed ops').result = (run cfg observed ops).result) ∧
    (∀ reader value first second, Binds cfg observed reader → value.WF →
      result site value cfg.executionId cfg.phase.text = .ok value →
      frameBytes site (readyFrame cfg reader) = .ok first →
      frameBytes site (resultFrame cfg reader value) = .ok second →
      stream ops = first ++ second → Op.bind ∈ ops → (run cfg observed ops).result = some value) ∧
    (∀ reader value exact, ExactStream cfg reader exact value → stream ops ≠ exact →
      (stream ops <+: exact ∨ exact <+: stream ops) → (run cfg observed ops).result = none) ∧
    (∀ reader first fields rest, IsFrame cfg 0 reader first fields →
      stream ops = frame first ++ (frame first ++ rest) → (run cfg observed ops).result = none) := by
  have hiff : ∀ ops value, (run cfg observed ops).result = some value ↔
      Op.bind ∈ ops ∧ ∃ reader, Binds cfg observed reader ∧ ExactStream cfg reader (stream ops) value :=
    fun ops value => ⟨exact_of_result, fun ⟨hmem, _, hb, h⟩ => result_of_exact hmem hb h⟩
  have hnone : (∀ reader value, ¬ ExactStream cfg reader (stream ops) value) → (run cfg observed ops).result = none := by
    intro hno
    by_contra hsome
    obtain ⟨value, hvalue⟩ := Option.ne_none_iff_exists'.mp hsome
    obtain ⟨-, reader, -, hexact⟩ := (hiff ops value).mp hvalue
    exact hno reader value hexact
  refine ⟨hiff ops, fun ops' hstream hbind => ?_, ?_, ?_, ?_⟩
  · refine Option.ext fun value => ?_
    rw [hiff, hiff, hstream, hbind]
  · intro reader value first second hb hw hv hfirst hsecond hstream hmem
    obtain ⟨raw, fields, rfl, hready⟩ := readyFrame_ok hb hfirst
    obtain ⟨raw', fields', rfl, hresult, hlook⟩ := resultFrame_ok hb hw hsecond
    exact result_of_exact hmem hb ⟨raw, fields, raw', fields', hstream, hready, hresult, hlook, hv⟩
  · intro reader value exact hexact hne hpart
    refine hnone fun reader' value' hexact' => ?_
    rcases hpart with hp | hp
    · exact hne (hexact'.eq_of_part hexact hp)
    · exact hne (hexact.eq_of_part hexact' hp).symm
  · intro reader first fields rest hframe hstream
    refine hnone fun reader' value' hexact' => ?_
    rw [hstream] at hexact'
    exact not_exact_repeat hframe hexact'

end LocalHand.ResultReader
