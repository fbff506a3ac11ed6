/-
The central directory of a sealed archive, as a download checks it before the archive
is parsed (`_validate_directory` of `evidence_client.py`).

A reader is at a place of bytes that do not change; where it seeks outside of them it
raises. Numbers are little-endian.
-/
import LocalHand.Contract
import LocalHand.Lib.ByteFields

namespace LocalHand.ArchiveDirectory

open Framing (Bytes)
open ByteFields

/-- `EvidenceError(code, message)` -/
inductive Failure where
  | conflict (message : String)
  | limitExceeded (message : String)
  deriving Repr, DecidableEq

def check (ok : Bool) (failure : Failure) : Except Failure Unit := if ok then .ok () else .error failure

@[simp] theorem check_ok {ok : Bool} {failure : Failure} {u : Unit} : check ok failure = .ok u ↔ ok = true := by
  cases ok <;> simp [check]

def endSignature : Bytes := [0x50, 0x4B, 5, 6]
def recordSignature : Bytes := [0x50, 0x4B, 1, 2]
def locatorSignature : Bytes := [0x50, 0x4B, 6, 7]
def zip64Signature : Bytes := [0x50, 0x4B, 6, 6]

/-- `_StableArchiveReader.seek` to a place that is not negative -/
def seek (bytes : Bytes) (target : Nat) : Except Failure Unit :=
  check (target ≤ bytes.length) (.conflict "archive offset exceeds its bytes")

/-- What an end record declares: the members of this volume and of all, the bytes of the
directory and its offset, and where it ends. -/
structure Listing where
  count : Nat
  total : Nat
  size : Nat
  offset : Nat
  stop : Nat
  deriving Repr, DecidableEq

/-- The most bytes an end record takes, with a comment. -/
def tailLength : Nat := 65535 + 22

/-- The end record. -/
def locate (bytes : Bytes) : Except Failure Listing := do
  let tailStart := bytes.length - tailLength
  seek bytes tailStart
  let tail := slice bytes tailStart tailLength
  let found := rfind endSignature tail
  let start := found.getD 0
  let ending := if found.isSome then slice tail start 22 else []
  check (ending.length = 22 && readLE (slice ending 20 2) ≤ tail.length - start - 22 && slice ending 4 4 = [0, 0, 0, 0])
    (.conflict "invalid archive end record")
  return ⟨readLE (slice ending 8 2), readLE (slice ending 10 2), readLE (slice ending 12 4), readLE (slice ending 16 4), tailStart + start⟩

/-- The ZIP64 record a locator before the end record stands for. -/
def zip64 (bytes : Bytes) (stop : Nat) : Except Failure Listing := do
  let locator := slice bytes (stop - 20) 20
  check (slice locator 4 4 = [0, 0, 0, 0] && readLE (slice locator 16 4) = 1) (.conflict "unsupported archive volume layout")
  let relative := readLE (slice locator 8 8)
  let recordEnd := stop - 20
  -- A place before the archive is one no reader seeks to.
  check (56 ≤ recordEnd) (.conflict "archive offset exceeds its bytes")
  let position := recordEnd - 56
  seek bytes position
  let record := slice bytes position 56
  check (record.length = 56 && record.take 4 = zip64Signature && relative ≤ position && readLE (slice record 4 8) = 44 &&
      slice record 16 8 = [0, 0, 0, 0, 0, 0, 0, 0])
    (.conflict "invalid archive ZIP64 end record")
  if relative ≠ position then do
    seek bytes relative
    check (slice bytes relative 4 ≠ zip64Signature) (.conflict "ambiguous archive ZIP64 record position")
  let size := readLE (slice record 40 8)
  let offset := readLE (slice record 48 8)
  check (offset + size = relative) (.conflict "invalid archive ZIP64 directory offset")
  return ⟨readLE (slice record 24 8), readLE (slice record 32 8), size, offset, position⟩

/-- Whether a locator stands before the end record. -/
def located (bytes : Bytes) (stop : Nat) : Bool := 20 ≤ stop && (slice bytes (stop - 20) 20).take 4 = locatorSignature

/-- What the directory is said to be. -/
def listing (bytes : Bytes) : Except Failure Listing := do
  let declared ← locate bytes
  if located bytes declared.stop then zip64 bytes declared.stop else return declared

/-- The bytes of a record after its fixed ones. -/
def extraLength (header : Bytes) : Nat := readLE (slice header 28 2) + readLE (slice header 30 2) + readLE (slice header 32 2)

/-- The loop over the records of the directory. -/
def scan (bytes : Bytes) (maximum position remaining found : Nat) : Except Failure Nat :=
  if remaining = 0 then .ok found
  else do
    check (46 ≤ remaining) (.conflict "truncated archive directory")
    let header := slice bytes position 46
    check (header.length = 46 && header.take 4 = recordSignature) (.conflict "invalid archive directory member")
    check (found + 1 ≤ maximum) (.limitExceeded "archive member count exceeds budget")
    check (extraLength header ≤ remaining - 46) (.conflict "archive directory member exceeds its bytes")
    seek bytes (position + 46 + extraLength header)
    scan bytes maximum (position + 46 + extraLength header) (remaining - 46 - extraLength header) (found + 1)
termination_by remaining

/-- `_validate_directory` -/
def validateDirectory (bytes : Bytes) (expected maximum : Nat) : Except Failure Unit := do
  check (expected ≤ 2 ^ 53 - 1) (.conflict "archive member count is not an integer")
  check (expected ≤ maximum) (.limitExceeded "archive member count exceeds budget")
  let declared ← listing bytes
  check (declared.count = declared.total && declared.size ≤ declared.stop && declared.offset ≤ declared.stop - declared.size)
    (.conflict "archive directory exceeds its bytes")
  check (declared.total ≤ maximum) (.limitExceeded "archive member count exceeds budget")
  seek bytes (declared.stop - declared.size)
  let found ← scan bytes maximum (declared.stop - declared.size) declared.size 0
  check (found = declared.total && found = expected) (.conflict "archive directory member count mismatch")

/-! ## Records -/

/-- A record of the directory: its fixed bytes and as many more as they say. -/
def IsRecord (r : Bytes) : Prop := 46 ≤ r.length ∧ r.take 4 = recordSignature ∧ r.length = 46 + extraLength (r.take 46)

/-- The scan of records, one after another. -/
theorem scan_records {records : List Bytes} (hrecords : ∀ r ∈ records, IsRecord r) (before after : Bytes) {m n : Nat}
    (hmaximum : n + records.length ≤ m) :
    scan (before ++ records.flatten ++ after) m before.length records.flatten.length n = .ok (n + records.length) := by
  induction records generalizing before n with
  | nil => simp [scan]
  | cons r rest ih =>
    obtain ⟨hlen, hsignature, hextra⟩ := hrecords r List.mem_cons_self
    have hbytes : before ++ (r :: rest).flatten ++ after = (before ++ r) ++ rest.flatten ++ after := by simp
    have hsize : ((r :: rest).flatten).length = r.length + rest.flatten.length := by simp
    have hheader : slice (before ++ (r :: rest).flatten ++ after) before.length 46 = r.take 46 := by
      rw [slice, List.append_assoc, List.drop_left, List.flatten_cons, List.append_assoc, List.take_append_of_le_length hlen]
    have hnext := ih (fun r' hr' => hrecords r' (List.mem_cons_of_mem _ hr')) (before ++ r) (n := n + 1)
      (by rw [List.length_cons] at hmaximum; omega)
    rw [← hbytes, List.length_append] at hnext
    have h46 : (r.take 46).length = 46 := by rw [List.length_take]; omega
    have hfour : (r.take 46).take 4 = recordSignature := by rw [List.take_take, ← hsignature]; rfl
    rw [scan, hheader, hsize, if_neg (by omega)]
    have hplace : before.length + 46 + extraLength (r.take 46) = before.length + r.length := by omega
    have hremaining : r.length + rest.flatten.length - 46 - extraLength (r.take 46) = rest.flatten.length := by omega
    have hseek : before.length + r.length ≤ (before ++ (r :: rest).flatten ++ after).length := by
      rw [List.length_append, List.length_append, hsize]
      omega
    have hcount : n + 1 ≤ m := by rw [List.length_cons] at hmaximum; omega
    have htruncated : 46 ≤ r.length + rest.flatten.length := by omega
    have hmember : extraLength (r.take 46) ≤ r.length + rest.flatten.length - 46 := by omega
    simp only [bind_ok_iff, check_ok, seek, decide_eq_true_eq, Bool.and_eq_true]
    rw [hplace, hremaining]
    refine ⟨(), htruncated, (), ⟨h46, hfour⟩, (), hcount, (), hmember, (), hseek, ?_⟩
    rw [hnext, List.length_cons, Nat.add_right_comm, Nat.add_assoc]

/-- A scan that ends has gone over records, one after another. -/
theorem scan_ok {bytes : Bytes} {maximum position remaining found total : Nat} (h : scan bytes maximum position remaining found = .ok total)
    (hinside : position + remaining ≤ bytes.length) :
    ∃ records : List Bytes, slice bytes position remaining = records.flatten ∧ total = found + records.length ∧ ∀ r ∈ records, IsRecord r := by
  induction remaining using Nat.strongRecOn generalizing position found with
  | _ remaining ih =>
    rw [scan] at h
    split at h
    · next hzero =>
      subst hzero
      cases h
      exact ⟨[], by simp [slice], by simp, by simp⟩
    · next hmore =>
      simp only [bind_ok_iff, check_ok, seek, decide_eq_true_eq, Bool.and_eq_true] at h
      obtain ⟨_, htruncated, _, ⟨h46, hsignature⟩, _, -, _, hmember, _, -, hrest⟩ := h
      obtain ⟨records, hsplit, htotal, hrecords⟩ := ih _ (by omega) hrest (by omega)
      let extra := extraLength (slice bytes position 46)
      have hsizes : 46 + extra + (remaining - 46 - extra) = remaining := by omega
      have hlen : (slice bytes position (46 + extra)).length = 46 + extra := length_slice (by omega)
      have hhead : (slice bytes position (46 + extra)).take 46 = slice bytes position 46 := by
        rw [slice, List.take_take, Nat.min_eq_left (Nat.le_add_right _ _)]
        rfl
      refine ⟨slice bytes position (46 + extra) :: records, ?_, ?_, ?_⟩
      · rw [List.flatten_cons, ← hsplit, Nat.add_assoc position 46, ← slice_add]
        exact (congrArg (slice bytes position) hsizes).symm
      · rw [htotal, List.length_cons, Nat.add_right_comm, Nat.add_assoc]
      · intro r hr
        rcases List.mem_cons.mp hr with rfl | hr
        · refine ⟨by omega, ?_, by rw [hhead, hlen]⟩
          rw [← hsignature, ← hhead, List.take_take]
          rfl
        · exact hrecords r hr

/-! ## Archives -/

/-- The end record of an archive without a comment. -/
def endRecord (count size offset : Nat) : Bytes :=
  endSignature ++ [0, 0, 0, 0] ++ le 2 count ++ le 2 count ++ le 4 size ++ le 4 offset ++ [0, 0]

/-- A member's record as `zipfile` writes one that needs no ZIP64: fixed bytes that say
there is a name and nothing else, and the name, which ends at no NUL. -/
structure Member where
  header : Bytes
  name : Bytes
  fixed : header.length = 46
  signed : header.take 4 = recordSignature
  named : slice header 28 2 = le 2 name.length
  bare : slice header 30 4 = [0, 0, 0, 0]
  nonempty : name ≠ []
  short : name.length < 65536
  noNul : (0 : UInt8) ∉ name

def Member.record (m : Member) : Bytes := m.header ++ m.name

/-- `max_artifact_bytes` -/
def maxArtifactBytes : Nat := 272 * 1024 * 1024

/-- The members' local headers and contents, and their records. -/
structure Archive where
  body : Bytes
  members : List Member
  empty : members = [] → body = []
  few : members.length ≤ 65535
  small : body.length + ((members.map Member.record).flatten).length + 22 ≤ maxArtifactBytes

namespace Archive

variable (a : Archive)

def directory : Bytes := (a.members.map Member.record).flatten

def ending : Bytes := endRecord a.members.length a.directory.length a.body.length

def bytes : Bytes := a.body ++ a.directory ++ a.ending

/-- The signature of an end record stands once more in the numbers of this one. -/
def Shadowed : Prop := ∃ j, 0 < j ∧ endSignature <+: a.ending.drop j

/-- The last record looks like the locator of a ZIP64 record. -/
def Mistaken : Prop := located a.bytes (a.body.length + a.directory.length) = true

theorem length_ending : a.ending.length = 22 := by
  simp [ending, endRecord, endSignature]

theorem sizes : a.members.length < 256 ^ 2 ∧ a.directory.length < 256 ^ 4 ∧ a.body.length < 256 ^ 4 := by
  have hfew := a.few
  have hsmall := a.small
  unfold maxArtifactBytes at hsmall
  unfold directory
  omega

end Archive

/-- What a member's record says of its length. -/
theorem Member.isRecord (m : Member) : IsRecord m.record := by
  have htake : m.record.take 46 = m.header := by rw [Member.record, ← m.fixed, List.take_left]
  have hbare : slice m.header 30 2 = [0, 0] ∧ slice m.header 32 2 = [0, 0] := by
    have hsplit : slice m.header 30 4 = slice m.header 30 2 ++ slice m.header 32 2 := slice_add m.header 30 2 2
    rw [m.bare] at hsplit
    have hlen : (slice m.header 30 2).length = 2 := length_slice (by rw [m.fixed]; omega)
    exact (List.append_inj (show [0, 0] ++ [0, 0] = slice m.header 30 2 ++ slice m.header 32 2 from hsplit) (by rw [hlen]; rfl)).imp Eq.symm Eq.symm
  have hextra : extraLength m.header = m.name.length := by
    rw [extraLength, m.named, hbare.1, hbare.2, readLE_le m.short]
    rfl
  refine ⟨by rw [Member.record, List.length_append, m.fixed]; omega, ?_, ?_⟩
  · have hfour : (m.record.take 46).take 4 = recordSignature := by rw [htake, m.signed]
    rw [← hfour, List.take_take]
    rfl
  · rw [htake, hextra, Member.record, List.length_append, m.fixed]

/-! ## What is found -/

theorem le_tailLength : 22 ≤ tailLength := by decide

/-- The tail a reader takes has the end record whole. -/
theorem tail_eq (before ending : Bytes) (hlen : ending.length = 22) :
    slice (before ++ ending) ((before ++ ending).length - tailLength) tailLength = before.drop ((before ++ ending).length - tailLength) ++ ending := by
  have htail := le_tailLength
  generalize tailLength = n at htail
  rw [slice, List.drop_append_of_le_length (by rw [List.length_append]; omega), List.take_of_length_le]
  rw [List.length_append, List.length_drop, List.length_append, hlen]
  omega

theorem locate_end {before ending : Bytes} (hlen : ending.length = 22) (hsignature : endSignature <+: ending)
    (hagain : ∀ j, 0 < j → ¬ endSignature <+: ending.drop j) (hzero : slice ending 4 4 = [0, 0, 0, 0]) (hcomment : slice ending 20 2 = [0, 0]) :
    locate (before ++ ending) = .ok ⟨readLE (slice ending 8 2), readLE (slice ending 10 2), readLE (slice ending 12 4),
      readLE (slice ending 16 4), before.length⟩ := by
  have hsize : (before ++ ending).length = before.length + 22 := by rw [List.length_append, hlen]
  have htail := tail_eq before ending hlen
  have hwindow := le_tailLength
  unfold locate
  generalize tailLength = n at htail hwindow ⊢
  have hfound := rfind_end (before.drop ((before ++ ending).length - n)) (by decide) hsignature hagain
  have hending : slice (before.drop ((before ++ ending).length - n) ++ ending) (before.drop ((before ++ ending).length - n)).length 22 = ending := by
    rw [slice, List.drop_left, List.take_of_length_le (by omega)]
  have hstart : (before ++ ending).length - n + (before.drop ((before ++ ending).length - n)).length = before.length := by
    rw [List.length_drop]
    omega
  simp only [htail, hfound]
  rw [bind_ok_iff]
  refine ⟨(), check_ok.mpr (decide_eq_true (Nat.sub_le _ _)), ?_⟩
  rw [bind_ok_iff]
  refine ⟨(), check_ok.mpr ?_, ?_⟩
  · rw [Option.getD_some, Option.isSome_some, if_pos rfl, hending, hlen, hzero, hcomment]
    simp [readLE]
  · rw [Option.getD_some, Option.isSome_some, if_pos rfl, hending, hstart]
    rfl

theorem locate_shadowed {before ending : Bytes} (hlen : ending.length = 22) {j : Nat} (hj : 0 < j) (hagain : endSignature <+: ending.drop j) :
    ∀ declared, locate (before ++ ending) ≠ .ok declared := by
  intro declared h
  simp only [locate, bind_ok_iff, check_ok, tail_eq before ending hlen, Bool.and_eq_true, decide_eq_true_eq] at h
  obtain ⟨_, -, _, ⟨⟨hfull, -⟩, -⟩, -⟩ := h
  generalize before.drop ((before ++ ending).length - tailLength) = rest at hfull
  have hplace : endSignature <+: (rest ++ ending).drop (rest.length + j) := by
    rw [← List.drop_drop, List.drop_left]
    exact hagain
  obtain ⟨i, hi, hle⟩ := rfind_ge (by decide) hplace
  rw [hi, Option.isSome_some, if_pos rfl, Option.getD_some, slice, List.length_take, List.length_drop, List.length_append, hlen] at hfull
  omega

/-- What is found lies inside the bytes. -/
theorem listing_inside {bytes : Bytes} {declared : Listing} (h : listing bytes = .ok declared) : declared.stop ≤ bytes.length := by
  obtain ⟨first, hfirst, h⟩ := bind_ok_iff.mp h
  have hinside : first.stop ≤ bytes.length := by
    simp only [locate, bind_ok_iff, check_ok, seek, Bool.and_eq_true, decide_eq_true_eq] at hfirst
    obtain ⟨_, hseek, _, ⟨⟨hfull, -⟩, -⟩, hdeclared⟩ := hfirst
    generalize tailLength = n at hseek hfull hdeclared
    cases hdeclared
    split at hfull
    · have hlen : (slice bytes (bytes.length - n) n).length ≤ bytes.length - (bytes.length - n) := by
        rw [slice, List.length_take, List.length_drop]
        omega
      rw [slice, List.length_take, List.length_drop] at hfull
      dsimp only
      omega
    · cases hfull
  split at h
  · simp only [zip64, bind_ok_iff, check_ok, seek, decide_eq_true_eq] at h
    obtain ⟨_, -, _, -, _, hseek, _, -, h⟩ := h
    split at h
    · simp only [bind_ok_iff] at h
      obtain ⟨_, -, _, -, _, -, hdeclared⟩ := h
      cases hdeclared
      exact hseek
    · simp only [bind_ok_iff] at h
      obtain ⟨_, -, hdeclared⟩ := h
      cases hdeclared
      exact hseek
  · cases h
    exact hinside

/-- The directory that is found is that many records, one after another, inside its bounds. -/
def Splits (bytes : Bytes) (expected : Nat) : Prop :=
  ∃ declared records, listing bytes = .ok declared ∧ declared.stop ≤ bytes.length ∧ declared.size ≤ declared.stop ∧
    declared.offset ≤ declared.stop - declared.size ∧ declared.count = expected ∧ declared.total = expected ∧
    slice bytes (declared.stop - declared.size) declared.size = List.flatten records ∧ records.length = expected ∧ ∀ r ∈ records, IsRecord r

theorem accepted_splits {bytes : Bytes} {expected maximum : Nat} (h : validateDirectory bytes expected maximum = .ok ()) :
    Splits bytes expected := by
  simp only [validateDirectory, bind_ok_iff, check_ok, Bool.and_eq_true, decide_eq_true_eq] at h
  obtain ⟨_, -, _, -, declared, hlisting, _, ⟨⟨hcount, hsize⟩, hoffset⟩, _, -, _, -, found, hscan, htotal, hexpected⟩ := h
  have hinside := listing_inside hlisting
  obtain ⟨records, hsplit, hfound, hrecords⟩ := scan_ok hscan (by omega)
  exact ⟨declared, records, hlisting, hinside, hsize, hoffset, by omega, by omega, hsplit, by omega, hrecords⟩

/-! ## Acceptance -/

namespace Archive

variable (a : Archive)

theorem signed : endSignature <+: a.ending := List.take_prefix 4 a.ending

/-- The end record of an archive is the one found, unless its numbers hide it. -/
theorem locate_bytes (h : ¬ a.Shadowed) :
    locate a.bytes = .ok ⟨a.members.length, a.members.length, a.directory.length, a.body.length, (a.body ++ a.directory).length⟩ := by
  obtain ⟨hcount, hsize, hoffset⟩ := a.sizes
  have hagain (j : Nat) (hj : 0 < j) : ¬ endSignature <+: a.ending.drop j := fun hprefix => h ⟨j, hj, hprefix⟩
  have hcountField : slice a.ending 8 2 = le 2 a.members.length := rfl
  have htotalField : slice a.ending 10 2 = le 2 a.members.length := rfl
  have hsizeField : slice a.ending 12 4 = le 4 a.directory.length := rfl
  have hoffsetField : slice a.ending 16 4 = le 4 a.body.length := rfl
  rw [bytes, locate_end a.length_ending a.signed hagain rfl rfl, hcountField, htotalField, hsizeField, hoffsetField,
    readLE_le hcount, readLE_le hsize, readLE_le hoffset]

/-- A locator ends with a NUL, and no record does. -/
theorem zip64_rejects (h : a.Mistaken) : ∀ declared, zip64 a.bytes (a.body.length + a.directory.length) ≠ .ok declared := by
  intro declared hzip
  simp only [zip64, bind_ok_iff, check_ok, Bool.and_eq_true, decide_eq_true_eq] at hzip
  obtain ⟨_, ⟨-, hone⟩, -⟩ := hzip
  rw [Mistaken, located, Bool.and_eq_true, decide_eq_true_eq] at h
  have hroom := h.1
  let front := a.body ++ a.directory
  have hfront : front.length = a.body.length + a.directory.length := List.length_append
  have hlocator : slice a.bytes (a.body.length + a.directory.length - 20) 20 = front.drop (front.length - 20) := by
    rw [bytes, slice, ← hfront, List.drop_append_of_le_length (Nat.sub_le _ _), List.take_append_of_le_length, List.take_of_length_le]
    all_goals rw [List.length_drop]; omega
  have hnumber : slice (front.drop (front.length - 20)) 16 4 = front.drop (front.length - 4) := by
    rw [slice, List.drop_drop, List.take_of_length_le]
    · congr 1
      omega
    · rw [List.length_drop]
      omega
  have hlen : (front.drop (front.length - 4)).length = 4 := by
    rw [List.length_drop]
    omega
  have hbytes : front.drop (front.length - 4) = le 4 1 := by
    rw [hlocator, hnumber] at hone
    rw [← le_readLE (front.drop (front.length - 4)), hone, hlen]
  have hlast : front.getLast? = some 0 := by
    rw [← List.take_append_drop (front.length - 4) front, hbytes]
    simp [le]
  rcases List.eq_nil_or_concat a.members with hnil | ⟨rest, m, hmembers⟩
  · have hbody := a.empty hnil
    rw [hbody, directory, hnil] at hroom
    exact absurd hroom (by decide)
  · have hsplit : front = (a.body ++ (rest.map Member.record).flatten ++ m.header) ++ m.name := by
      simp [front, directory, hmembers, Member.record]
    rw [hsplit, List.getLast?_append, List.getLast?_eq_some_getLast m.nonempty, Option.some_or] at hlast
    exact m.noNul (Option.some.inj hlast ▸ List.getLast_mem m.nonempty)

/-- What a download of a sealed archive is told. -/
theorem accepts_iff (extra : Nat) :
    validateDirectory a.bytes a.members.length (a.members.length + extra) = .ok () ↔ ¬ a.Shadowed ∧ ¬ a.Mistaken := by
  constructor
  · intro h
    simp only [validateDirectory, bind_ok_iff] at h
    obtain ⟨_, -, _, -, declared, hlisting, -⟩ := h
    rw [listing, bind_ok_iff] at hlisting
    obtain ⟨first, hlocate, hlisting⟩ := hlisting
    have hshadowed : ¬ a.Shadowed := fun ⟨j, hj, hagain⟩ => locate_shadowed a.length_ending hj hagain first hlocate
    refine ⟨hshadowed, fun hmistaken => ?_⟩
    rw [a.locate_bytes hshadowed] at hlocate
    cases hlocate
    dsimp only at hlisting
    have hlocated : located a.bytes (a.body.length + a.directory.length) = true := hmistaken
    rw [List.length_append, if_pos hlocated] at hlisting
    exact a.zip64_rejects hmistaken _ hlisting
  · rintro ⟨hshadowed, hmistaken⟩
    have hfew := a.few
    have hlisting : listing a.bytes =
        .ok ⟨a.members.length, a.members.length, a.directory.length, a.body.length, (a.body ++ a.directory).length⟩ := by
      rw [listing, a.locate_bytes hshadowed, List.length_append]
      exact if_neg hmistaken
    have hrecords : ∀ r ∈ a.members.map Member.record, IsRecord r := by
      intro r hr
      obtain ⟨m, -, rfl⟩ := List.mem_map.mp hr
      exact m.isRecord
    have hscan := scan_records hrecords a.body a.ending (m := a.members.length + extra) (n := 0) (by rw [List.length_map]; omega)
    rw [List.length_map, Nat.zero_add] at hscan
    have hstart : (a.body ++ a.directory).length - a.directory.length = a.body.length := by rw [List.length_append]; omega
    have hinside : a.body.length ≤ a.bytes.length := by
      rw [bytes, List.length_append, List.length_append]
      omega
    have hsize : a.directory.length ≤ (a.body ++ a.directory).length := by rw [List.length_append]; omega
    simp only [validateDirectory, bind_ok_iff, check_ok, seek, Bool.and_eq_true, decide_eq_true_eq]
    refine ⟨(), by omega, (), Nat.le_add_right _ _, _, hlisting, (), ⟨⟨rfl, hsize⟩, Nat.le_of_eq hstart.symm⟩, (), Nat.le_add_right _ _, (), ?_⟩
    rw [hstart]
    exact ⟨hinside, _, hscan, rfl, rfl⟩

end Archive

/-- A sealed archive that fits its budget is accepted unless a signature stands where the
reader mistakes it for another one; what is accepted splits into that many records. -/
theorem directory_checked (a : Archive) (extra : Nat) :
    (validateDirectory a.bytes a.members.length (a.members.length + extra) = .ok () ↔ ¬ a.Shadowed ∧ ¬ a.Mistaken) ∧
    ∀ (bytes : Bytes) (expected maximum : Nat), validateDirectory bytes expected maximum = .ok () → Splits bytes expected :=
  ⟨a.accepts_iff extra, fun _ _ _ => accepted_splits⟩

/-! ## A directory that starts at a signature -/

/-- The record of a stored `MANIFEST.json`, a regular file of mode 0600. -/
def manifest : Member where
  header := recordSignature ++ [20, 3, 20, 0, 0, 0, 0, 0, 0, 0, 0x21, 0, 0, 0, 0, 0, 2, 0, 0, 0, 2, 0, 0, 0, 13, 0, 0, 0, 0, 0, 0, 0, 0, 0,
    0, 0, 0x80, 0x81, 0, 0, 0, 0]
  name := [0x4D, 0x41, 0x4E, 0x49, 0x46, 0x45, 0x53, 0x54, 0x2E, 0x6A, 0x73, 0x6F, 0x6E]
  fixed := rfl
  signed := rfl
  named := rfl
  bare := rfl
  nonempty := by decide
  short := by decide
  noNul := by decide

/-- An archive of one member. -/
def manifestOnly (body : Bytes) (small : body.length + 81 ≤ maxArtifactBytes) : Archive where
  body := body
  members := [manifest]
  empty := by simp
  few := by decide
  small := small

/-- The offset of the directory reads as the signature of an end record. -/
theorem manifestOnly_shadowed {body : Bytes} {small : body.length + 81 ≤ maxArtifactBytes} (h : le 4 body.length = endSignature) :
    (manifestOnly body small).Shadowed := by
  have hdrop : (manifestOnly body small).ending.drop 16 = le 4 body.length ++ [0, 0] := rfl
  refine ⟨16, by decide, ?_⟩
  rw [hdrop, h]
  exact List.prefix_append _ _

theorem sealed_archive_refused :
    ¬ ∀ (a : Archive) (extra : Nat), validateDirectory a.bytes a.members.length (a.members.length + extra) = .ok () := by
  intro h
  have hlen (n : Nat) : (List.replicate n (0 : UInt8)).length = n := List.length_replicate
  have hbody := hlen 0x06054B50
  generalize List.replicate 0x06054B50 (0 : UInt8) = body at hbody
  have hsmall : body.length + 81 ≤ maxArtifactBytes := by
    rw [hbody]
    decide
  have hsignature : le 4 body.length = endSignature := by
    rw [hbody]
    decide
  have haccepted := h (manifestOnly body hsmall) 0
  exact ((manifestOnly body hsmall).accepts_iff 0 |>.mp haccepted).1 (manifestOnly_shadowed hsignature)

end LocalHand.ArchiveDirectory
