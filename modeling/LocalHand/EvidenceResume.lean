/-
Evidence downloads resume: a `prepare` after any crash, but one that tears the
binding file while it is created, succeeds and keeps exactly the bytes up to the
last complete checkpoint; and `finish` returns the bytes of its descriptor only.

The journal carries the proof: no line of it is written before the bytes it
speaks of are synced.
-/
import LocalHand.EvidenceJournal
import LocalHand.Lib.Run

namespace LocalHand.EvidenceWriter

open PyJson ResultReader Program Machine
open Framing (Bytes)

variable {F : Type} {host : Host F} {N : Descriptor → Prop} {d e : Descriptor} {fed torn : Bytes} {offs : List Nat} {disk : Disk}

/-! ## The directory -/

/-- What the directory of `d` holds when `fed` was fed to it: checkpoints at
`offs` and a torn line. -/
structure Holds (host : Host F) (N : Descriptor → Prop) (d : Descriptor) (fed : Bytes) (offs : List Nat) (torn : Bytes)
    (disk : Disk) : Prop where
  named : disk.binding ≠ none → N d
  binding : ∀ file, disk.binding = some file → file.bytes = json host d.value ∧ file.synced = file.bytes.length
  early : (∀ file, disk.binding = some file → file.entry = false) →
    offs = [] ∧ disk.final = none ∧ ∀ file, disk.data = some file → file.bytes = []
  rising : (0 :: offs).Pairwise (· < ·)
  reach : ∀ o ∈ offs, o ≤ fed.length ∧ o ≤ d.size
  plain : 10 ∉ torn
  checkpoints : ∀ file, disk.checkpoints = some file →
    file.bytes = lines host fed offs ++ torn ∧ file.bytes.length ≤ maxJournal ∧ (file.entry = false → offs = [])
  blank : disk.checkpoints = none → offs = []
  data : ∀ file, disk.data = some file → file.bytes <+: fed ∧ file.bytes.length ≤ d.size ∧ file.synced ≤ file.bytes.length ∧
    (∀ o ∈ offs, o ≤ file.synced) ∧ (file.entry = false → offs = [])
  absent : disk.data = none → disk.final = none → offs = []
  final : ∀ file, disk.final = some file → disk.data = none ∧ file.bytes = fed ∧ file.synced = file.bytes.length ∧
    verify host d file = .ok ()

theorem Holds.empty : Holds host N d fed [] [] Disk.empty where
  named h := absurd rfl h
  binding _ h := by cases h
  early _ := ⟨rfl, rfl, fun _ h => by cases h⟩
  rising := List.pairwise_singleton _ _
  reach _ h := by cases h
  plain h := by cases h
  checkpoints _ h := by cases h
  blank _ := rfl
  data _ h := by cases h
  absent _ _ := rfl
  final _ h := by cases h

/-- A file as a crash may leave it. -/
theorem survive_some {file file' : File} {left : Option Nat} (h : file.survive left = some file') :
    file'.bytes <+: file.bytes ∧ (file.synced ≤ file.bytes.length → file.synced ≤ file'.bytes.length) ∧
      file'.synced = file'.bytes.length ∧ file'.entry = true := by
  unfold File.survive at h
  split at h
  · cases h
    refine ⟨List.take_prefix _ _, fun hs => ?_, rfl, rfl⟩
    rw [List.length_take]
    omega
  · cases h

theorem survive_synced {file file' : File} {left : Option Nat} (hs : file.synced = file.bytes.length)
    (h : file.survive left = some file') : file' = ⟨file.bytes, file.bytes.length, true⟩ := by
  unfold File.survive at h
  split at h
  · cases h
    rw [List.take_of_length_le (by omega)]
  · cases h

theorem survive_none {file : File} {left : Option Nat} (h : file.survive left = none) : file.entry = false := by
  unfold File.survive at h
  split at h
  · cases h
  · next hne =>
    simp only [Bool.or_eq_true, not_or, Bool.not_eq_true] at hne
    exact hne.1

theorem bind_survive {file : Option File} {left : Option Nat} {file' : File} (h : file.bind (·.survive left) = some file') :
    ∃ old, file = some old ∧ old.survive left = some file' := Option.bind_eq_some_iff.mp h

/-- What is left of the checkpoints of a crashed directory. -/
theorem Holds.cut (h : Holds host N d fed offs torn disk) (left : Option Nat) :
    ∃ offs' torn', offs' <+: offs ∧ 10 ∉ torn' ∧
      (∀ file, disk.checkpoints.bind (·.survive left) = some file →
        file.bytes = lines host fed offs' ++ torn' ∧ file.bytes.length ≤ maxJournal) ∧
      (disk.checkpoints.bind (·.survive left) = none → offs' = []) := by
  cases hj : disk.checkpoints.bind (·.survive left) with
  | none => exact ⟨[], [], List.nil_prefix, by simp, by simp, fun _ => rfl⟩
  | some file =>
    obtain ⟨old, hold, hsurvive⟩ := bind_survive hj
    obtain ⟨hbytes, hmax, -⟩ := h.checkpoints old hold
    have hpre := (survive_some hsurvive).1
    obtain ⟨offs', torn', heq, htorn, hoffs⟩ := lines_cut fed h.plain (hbytes ▸ hpre)
    refine ⟨offs', torn', hoffs, htorn, ?_, by simp⟩
    intro f hf
    cases hf
    exact ⟨heq, hpre.length_le.trans hmax⟩

theorem verify_bytes {file file' : File} (h : file.bytes = file'.bytes) : verify host d file = verify host d file' := by
  rw [verify, verify, regular, regular, h]

theorem verify_size {file : File} (h : verify host d file = .ok ()) :
    file.bytes.length = d.size ∧ hash host file.bytes = d.sha256 := by
  simp only [verify, bind_ok, require_ok, exists_unit, Bool.and_eq_true, decide_eq_true_eq] at h
  exact h.2.2

/-- After a crash, from what it left of the data and of the final file. -/
theorem Holds.leave (h : Holds host N d fed offs torn disk) (left : Left) (data final : Option File)
    (hdata : ∀ file, data = some file → file.bytes <+: fed ∧ file.bytes.length ≤ d.size ∧ file.synced = file.bytes.length ∧
      file.entry = true ∧ ∀ o ∈ offs, o ≤ file.synced)
    (hearly : (∀ file, disk.binding = some file → file.entry = false) →
      final = none ∧ ∀ file, data = some file → file.bytes = [])
    (habsent : data = none → final = none → offs = [])
    (hfinal : ∀ file, final = some file → data = none ∧ file.bytes = fed ∧ file.synced = file.bytes.length ∧
      verify host d file = .ok ()) :
    ∃ offs' torn', Holds host N d fed offs' torn' ⟨disk.binding.bind (·.survive left.binding), data,
      disk.checkpoints.bind (·.survive left.checkpoints), final, true⟩ := by
  obtain ⟨offs', torn', hpre, htorn, hjournal, hblank⟩ := h.cut left.checkpoints
  have hnil : offs = [] → offs' = [] := fun ho => List.prefix_nil.mp (ho ▸ hpre)
  have hsynced : ∀ file, disk.checkpoints.bind (·.survive left.checkpoints) = some file → file.entry = true := by
    intro file hf
    obtain ⟨_, -, hs⟩ := bind_survive hf
    exact (survive_some hs).2.2.2
  refine ⟨offs', torn', ?named, ?binding, ?early, ?rising, ?reach, htorn, ?checkpoints, hblank, ?data, ?absent, hfinal⟩
  case named =>
    intro hb
    obtain ⟨file, hf⟩ := Option.ne_none_iff_exists'.mp hb
    obtain ⟨old, hold, -⟩ := bind_survive hf
    exact h.named (by simp [hold])
  case binding =>
    intro file hf
    obtain ⟨old, hold, hs⟩ := bind_survive hf
    obtain ⟨hbytes, hsync⟩ := h.binding old hold
    rw [survive_synced hsync hs]
    exact ⟨hbytes, rfl⟩
  case early =>
    intro hb
    have hold : ∀ file, disk.binding = some file → file.entry = false := by
      intro file hf
      cases hs : file.survive left.binding with
      | none => exact survive_none hs
      | some file' =>
        have hfile' := hb file' (by simp [hf, hs])
        rw [(survive_some hs).2.2.2] at hfile'
        cases hfile'
    exact ⟨hnil (h.early hold).1, hearly hold⟩
  case rising => exact h.rising.sublist (hpre.sublist.cons_cons 0)
  case reach => exact fun o ho => h.reach o (hpre.subset ho)
  case checkpoints =>
    intro file hf
    obtain ⟨hbytes, hmax⟩ := hjournal file hf
    exact ⟨hbytes, hmax, fun he => by rw [hsynced file hf] at he; cases he⟩
  case data =>
    intro file hf
    obtain ⟨hfed, hmax, hsync, hentry, hreach⟩ := hdata file hf
    exact ⟨hfed, hmax, hsync.le, fun o ho => hreach o (hpre.subset ho), fun he => by rw [hentry] at he; cases he⟩
  case absent => exact fun h1 h2 => hnil (habsent h1 h2)

/-- A data file after a crash. -/
theorem Holds.dataLeft (h : Holds host N d fed offs torn disk) (left : Option Nat) {file : File}
    (hf : disk.data.bind (·.survive left) = some file) :
    file.bytes <+: fed ∧ file.bytes.length ≤ d.size ∧ file.synced = file.bytes.length ∧ file.entry = true ∧
      ∀ o ∈ offs, o ≤ file.synced := by
  obtain ⟨old, hold, hs⟩ := bind_survive hf
  obtain ⟨hfed, hmax, hle, hreach, -⟩ := h.data old hold
  obtain ⟨hpre, hkeep, hsync, hentry⟩ := survive_some hs
  refine ⟨hpre.trans hfed, hpre.length_le.trans hmax, hsync, hentry, fun o ho => ?_⟩
  have := hreach o ho
  have := hkeep hle
  omega

theorem Holds.crash (h : Holds host N d fed offs torn disk) (left : Left) :
    ∃ offs' torn', Holds host N d fed offs' torn' (disk.crash left) := by
  have hgone : ∀ file : File, file.survive left.data = none → file.entry = false := fun _ => survive_none
  unfold Disk.crash
  split
  case isFalse => exact ⟨[], [], Holds.empty⟩
  dsimp only
  cases hfinal : disk.final with
  | none =>
    refine h.leave left _ none (fun file => h.dataLeft left.data) ?early ?absent (by simp)
    case early =>
      intro hb
      refine ⟨rfl, fun file hf => ?_⟩
      obtain ⟨old, hold, hs⟩ := bind_survive hf
      have hpre := (survive_some hs).1
      rw [(h.early hb).2.2 old hold] at hpre
      exact List.prefix_nil.mp hpre
    case absent =>
      intro hd _
      cases hold : disk.data with
      | none => exact h.absent hold hfinal
      | some old =>
        rw [hold, Option.bind_some] at hd
        exact (h.data old hold).2.2.2.2 (survive_none hd)
  | some final =>
    obtain ⟨hdata, hbytes, hsync, hverify⟩ := h.final final hfinal
    have hlate : ¬ ∀ file, disk.binding = some file → file.entry = false := by
      intro hb
      have := (h.early hb).2.1
      rw [hfinal] at this
      cases this
    cases hs : final.survive left.final with
    | some file =>
      simp only [hs, hdata, Option.bind_none]
      refine h.leave left none (some file) (by simp) (fun hb => absurd hb hlate) (by simp) ?final
      case final =>
        intro f hf
        cases hf
        rw [survive_synced hsync hs]
        exact ⟨rfl, hbytes, rfl, (verify_bytes rfl).trans hverify⟩
    | none =>
      simp only [hs]
      refine h.leave left _ none ?data (fun hb => absurd hb hlate) ?absent (by simp)
      case data =>
        intro file hf
        rw [survive_synced (show ({ final with entry := true } : File).synced = _ from hsync) hf]
        refine ⟨hbytes ▸ List.prefix_rfl, (verify_size hverify).1.le, rfl, rfl, fun o ho => ?_⟩
        show o ≤ final.bytes.length
        rw [hbytes]
        exact (h.reach o ho).1
      case absent =>
        intro hd _
        cases survive_none hd

/-! ## Changes of the directory -/

theorem getLastD_mem (a : Nat) (offs : List Nat) : offs.getLastD a = a ∨ offs.getLastD a ∈ offs := by
  cases offs with
  | nil => exact .inl rfl
  | cons o offs =>
    refine .inr ?_
    rw [List.getLastD_eq_getLast?, List.getLast?_eq_some_getLast (List.cons_ne_nil o offs)]
    exact List.getLast_mem _

theorem le_getLastD {a : Nat} (h : (a :: offs).Pairwise (· < ·)) {o : Nat} (ho : o ∈ offs) : o ≤ offs.getLastD a := by
  induction offs generalizing a with
  | nil => cases ho
  | cons x offs ih =>
    have htail := (List.pairwise_cons.mp h).2
    rw [List.getLastD_cons]
    rcases List.mem_cons.mp ho with rfl | hmem
    · rcases getLastD_mem o offs with heq | hlast
      · exact heq.ge
      · exact ((List.pairwise_cons.mp htail).1 _ hlast).le
    · exact ih htail hmem

theorem Holds.last (h : Holds host N d fed offs torn disk) : offs.getLastD 0 ≤ fed.length ∧ offs.getLastD 0 ≤ d.size := by
  rcases getLastD_mem 0 offs with heq | hmem
  · omega
  · exact h.reach _ hmem

theorem Holds.lastData (h : Holds host N d fed offs torn disk) {file : File} (hf : disk.data = some file) :
    offs.getLastD 0 ≤ file.synced := by
  rcases getLastD_mem 0 offs with heq | hmem
  · omega
  · exact (h.data file hf).2.2.2.1 _ hmem

theorem Holds.bind (h : Holds host N e fed offs torn disk) (hb : disk.binding = none) (hd : N d) :
    Holds host N d fed [] torn { disk with binding := some ⟨json host d.value, (json host d.value).length, false⟩ } := by
  obtain ⟨rfl, hfinal, hempty⟩ := h.early fun file hf => by rw [hb] at hf; cases hf
  refine { h with named := fun _ => hd, binding := ?_, early := fun _ => ⟨rfl, hfinal, hempty⟩, reach := ?_, data := ?_, final := ?_ }
  · intro file hf
    cases hf
    exact ⟨rfl, rfl⟩
  · exact fun o ho => by cases ho
  · intro file hf
    obtain ⟨hfed, -, hrest⟩ := h.data file hf
    refine ⟨hfed, ?_, hrest⟩
    rw [hempty file hf]
    exact Nat.zero_le _
  · intro file hf
    rw [show disk.final = some file from hf] at hfinal
    cases hfinal

theorem Holds.newData (h : Holds host N d fed offs torn disk) (hd : disk.data = none) (hf : disk.final = none) :
    Holds host N d fed offs torn { disk with data := some File.empty } := by
  have hnil := h.absent hd hf
  refine { h with early := ?_, data := ?_, absent := ?_, final := ?_ }
  · intro hb
    refine ⟨hnil, hf, fun file hfile => ?_⟩
    cases hfile
    rfl
  · intro file hfile
    cases hfile
    refine ⟨List.nil_prefix, Nat.zero_le _, Nat.le_refl _, fun o ho => ?_, fun _ => hnil⟩
    rw [hnil] at ho
    cases ho
  · exact fun hdata => by cases hdata
  · intro file hfile
    rw [show disk.final = some file from hfile] at hf
    cases hf

theorem Holds.newCheckpoints (h : Holds host N d fed offs torn disk) (hc : disk.checkpoints = none) :
    Holds host N d fed [] [] { disk with checkpoints := some File.empty } := by
  obtain rfl := h.blank hc
  refine { h with plain := by simp, checkpoints := ?_, blank := fun _ => rfl }
  intro file hfile
  cases hfile
  exact ⟨rfl, Nat.zero_le _, fun _ => rfl⟩

theorem Holds.cutData (h : Holds host N d fed offs torn disk) (hf : disk.final = none) :
    Holds host N d fed offs torn { disk with data := disk.data.map (·.truncate (offs.getLastD 0)) } := by
  refine { h with early := ?_, data := ?_, absent := ?_, final := ?_ }
  · intro hb
    obtain ⟨hnil, -, hempty⟩ := h.early hb
    refine ⟨hnil, hf, fun file hfile => ?_⟩
    obtain ⟨old, hold, rfl⟩ := Option.map_eq_some_iff.mp hfile
    show old.bytes.take _ = []
    rw [hempty old hold, List.take_nil]
  · intro file hfile
    obtain ⟨old, hold, rfl⟩ := Option.map_eq_some_iff.mp hfile
    obtain ⟨hfed, hmax, hle, hreach, hentry⟩ := h.data old hold
    refine ⟨(List.take_prefix _ _).trans hfed, ?_, ?_, fun o ho => ?_, hentry⟩
    · show (old.bytes.take _).length ≤ _
      rw [List.length_take]
      omega
    · show min old.synced _ ≤ (old.bytes.take _).length
      rw [List.length_take]
      omega
    · have := le_getLastD h.rising ho
      have := hreach o ho
      show o ≤ min old.synced _
      omega
  · exact fun hdata hfinal => h.absent (Option.map_eq_none_iff.mp hdata) hfinal
  · intro file hfile
    rw [show disk.final = some file from hfile] at hf
    cases hf

theorem Holds.cutCheckpoints (h : Holds host N d fed offs torn disk) :
    Holds host N d fed offs [] { disk with checkpoints := disk.checkpoints.map (·.truncate (lines host fed offs).length) } := by
  refine { h with plain := by simp, checkpoints := ?_, blank := fun hc => h.blank (Option.map_eq_none_iff.mp hc) }
  intro file hfile
  obtain ⟨old, hold, rfl⟩ := Option.map_eq_some_iff.mp hfile
  obtain ⟨hbytes, hmax, hentry⟩ := h.checkpoints old hold
  have htake : old.bytes.take (lines host fed offs).length = lines host fed offs := by
    rw [hbytes, List.take_left]
  refine ⟨?_, ?_, hentry⟩
  · show old.bytes.take _ = _
    rw [htake, List.append_nil]
  · show (old.bytes.take _).length ≤ _
    rw [List.length_take]
    omega

theorem Holds.link (h : Holds host N d fed offs torn disk) (hb : disk.binding ≠ none) :
    Holds host N d fed offs torn disk.link := by
  have hfile : ∀ {file : Option File} {file' : File}, file.map (fun f => { f with entry := true }) = some file' →
      ∃ old, file = some old ∧ file' = ⟨old.bytes, old.synced, true⟩ := by
    intro file file' hf
    obtain ⟨old, hold, rfl⟩ := Option.map_eq_some_iff.mp hf
    exact ⟨old, hold, rfl⟩
  refine ⟨fun _ => h.named hb, ?binding, ?early, h.rising, h.reach, h.plain, ?checkpoints,
    fun hc => h.blank (Option.map_eq_none_iff.mp hc), ?data,
    fun hd hf => h.absent (Option.map_eq_none_iff.mp hd) (Option.map_eq_none_iff.mp hf), ?final⟩
  case binding =>
    intro file hf
    obtain ⟨old, hold, rfl⟩ := hfile hf
    exact h.binding old hold
  case early =>
    intro hearly
    obtain ⟨file, hf⟩ := Option.ne_none_iff_exists'.mp hb
    have := hearly ⟨file.bytes, file.synced, true⟩ (by simp [Disk.link, hf])
    cases this
  case checkpoints =>
    intro file hf
    obtain ⟨old, hold, rfl⟩ := hfile hf
    obtain ⟨hbytes, hmax, -⟩ := h.checkpoints old hold
    exact ⟨hbytes, hmax, fun he => by cases he⟩
  case data =>
    intro file hf
    obtain ⟨old, hold, rfl⟩ := hfile hf
    obtain ⟨hfed, hmax, hle, hreach, -⟩ := h.data old hold
    exact ⟨hfed, hmax, hle, hreach, fun he => by cases he⟩
  case final =>
    intro file hf
    obtain ⟨old, hold, rfl⟩ := hfile hf
    obtain ⟨hdata, hbytes, hsync, hverify⟩ := h.final old hold
    exact ⟨by simp [Disk.link, hdata], hbytes, hsync, (verify_bytes rfl).trans hverify⟩

/-- The stream cut at the last checkpoint. -/
theorem Holds.cutFed (h : Holds host N d fed offs torn disk) (hf : disk.final = none)
    (hdata : ∀ file, disk.data = some file → file.bytes = fed.take (offs.getLastD 0)) :
    Holds host N d (fed.take (offs.getLastD 0)) offs torn disk := by
  have hlast := h.last
  have hlines : lines host fed offs = lines host (fed.take (offs.getLastD 0)) offs := by
    refine lines_congr fun o ho => ?_
    have := le_getLastD h.rising ho
    rw [List.take_take, Nat.min_eq_left this]
  refine { h with reach := ?_, checkpoints := ?_, data := ?_, final := ?_ }
  · intro o ho
    have := le_getLastD h.rising ho
    have := h.reach o ho
    rw [List.length_take]
    omega
  · exact fun file hc => hlines ▸ h.checkpoints file hc
  · intro file hd
    exact ⟨hdata file hd ▸ List.prefix_rfl, (h.data file hd).2⟩
  · intro file hfile
    rw [show disk.final = some file from hfile] at hf
    cases hf

/-! ## The writer -/

/-- A prepared writer and its directory. -/
structure Active (d : Descriptor) (fed torn : Bytes) (disk : Disk) (w : Writer) : Prop where
  artifact : w.artifact = d
  binding : ∃ file, disk.binding = some file ∧ file.entry = true
  done : w.completed = true → w.isOpen = false ∧ w.offset = d.size ∧ disk.final ≠ none
  going : w.completed = false → torn = [] ∧ w.offset = fed.length ∧ w.hashed = fed ∧ disk.final = none ∧
    disk.data = some ⟨fed, fed.length, true⟩ ∧ ∃ journal, disk.checkpoints = some journal ∧ journal.entry = true

/-- The invariant of runs. -/
def Good (host : Host F) (N : Descriptor → Prop) (s : State) : Prop :=
  ∃ d offs torn, Holds host N d s.fed offs torn s.disk ∧ ∀ w, s.writer = some w → Active d s.fed torn s.disk w

theorem good_start : Good host N start := ⟨⟨"", "", 0, ""⟩, [], [], Holds.empty, fun _ h => by cases h⟩

theorem Holds.good {s : State} (h : Holds host N d s.fed offs torn s.disk) (left : Left) : Good host N (s.crash left) := by
  obtain ⟨offs', torn', h'⟩ := h.crash left
  exact ⟨d, offs', torn', h', fun _ hw => by cases hw⟩

theorem good_crash {s : State} (h : Good host N s) (left : Left) : Good host N (s.crash left) := by
  obtain ⟨d, offs, torn, h, -⟩ := h
  exact h.good left

theorem good_close {s : State} (h : Good host N s) : Good host N { s with writer := none } := by
  obtain ⟨d, offs, torn, h, -⟩ := h
  exact ⟨d, offs, torn, h, fun _ hw => by cases hw⟩

/-! ## Steps of a call -/

/-- `k` of at least `b` steps are taken, in a state with `I`. -/
def At (b k : Nat) (I : State → Prop) (w : World) : Prop := b ≤ w.budget + k ∧ I w.state

/-- A call that stops has crashed, with a budget of less than `m` steps. -/
def Stops (host : Host F) (N : Descriptor → Prop) (left : Left) (b m : Nat) (e : Stop) (w : World) : Prop :=
  e = .crashed ∧ b < m ∧ Good host N (w.state.crash left)

section

variable {left : Left} {b k m : Nat} {I J : State → Prop} {α β : Type} {P : World → Prop} {E : Stop → World → Prop}
  {R : β → World → Prop}

theorem effect_spec {f : State → State} (hk : k < m) (hsafe : ∀ s, I s → Good host N (s.crash left)) (hf : ∀ s, I s → J (f s)) :
    Spec (At b k I) (effect f) (fun _ => At b (k + 1) J) (Stops host N left b m) := by
  intro w ⟨hb, hw⟩
  obtain ⟨s, n⟩ := w
  cases n with
  | zero => exact ⟨rfl, by simp only at hb; omega, hsafe s hw⟩
  | succ n => exact ⟨by simp only at hb ⊢; omega, hf s hw⟩

theorem state_spec : Spec P state (fun s w => P w ∧ w.state = s) E := fun _ hw => ⟨hw, rfl⟩

/-- What every state has, as a hypothesis. -/
theorem have_spec {φ : Prop} {p : Op α} {Q : α → World → Prop} (hφ : ∀ w, P w → φ) (h : φ → Spec P p Q E) : Spec P p Q E :=
  fun w hw => h (hφ w hw) w hw

theorem lift_spec {x : Except Fault α} {a : α} (h : x = .ok a) {p : α → Op β} (hp : Spec P (p a) R E) :
    Spec P (lift x >>= p) R E := by
  rw [h]
  exact hp

theorem ensure_spec {get : Disk → Option File} {make : Disk → Disk} {J : File → State → Prop} (hk : k < m)
    (hsafe : ∀ s, I s → Good host N (s.crash left)) (hold : ∀ s file, I s → get s.disk = some file → J file s)
    (hnew : ∀ s, I s → get s.disk = none → J File.empty { s with disk := make s.disk }) :
    Spec (At b k I) (ensure get make) (fun file => At b (k + 1) (J file)) (Stops host N left b m) := by
  rw [ensure]
  refine Spec.bind state_spec fun s => ?_
  cases hg : get s.disk with
  | some file =>
    refine Spec.ret fun w hw => ?_
    obtain ⟨⟨hb, hI⟩, rfl⟩ := hw
    exact ⟨by omega, hold _ _ hI hg⟩
  | none =>
    have hpre : ∀ w, (At b k I w ∧ w.state = s) → At b k (fun s => I s ∧ get s.disk = none) w := by
      intro w hw
      obtain ⟨⟨hb, hI⟩, rfl⟩ := hw
      exact ⟨hb, hI, hg⟩
    have hmake : Spec (At b k fun s => I s ∧ get s.disk = none) (onDisk make) (fun _ => At b (k + 1) (J File.empty))
        (Stops host N left b m) := effect_spec hk (fun s hs => hsafe s hs.1) fun s hs => hnew s hs.1 hs.2
    exact Spec.bind (hmake.pre hpre) fun _ => Spec.ret fun _ hw => hw

end

/-! ## `prepare` -/

/-- A bound directory that is not published. -/
def Unready (host : Host F) (N : Descriptor → Prop) (d : Descriptor) (fed : Bytes) (offs : List Nat) (s : State) : Prop :=
  s.fed = fed ∧ s.writer = none ∧ s.disk.binding ≠ none ∧ s.disk.final = none ∧ ∃ torn, Holds host N d fed offs torn s.disk

theorem Unready.safe {s : State} (left : Left) (h : Unready host N d fed offs s) : Good host N (s.crash left) := by
  obtain ⟨rfl, -, -, -, torn, hold⟩ := h
  exact hold.good left

/-- What `resume` leaves. -/
def Resumed (host : Host F) (N : Descriptor → Prop) (d : Descriptor) (fed : Bytes) (offs : List Nat) (s : State) : Prop :=
  s.fed = fed.take (offs.getLastD 0) ∧ Holds host N d s.fed offs [] s.disk ∧
    ∃ w, s.writer = some w ∧ Active d s.fed [] s.disk w ∧ w.completed = false

/-- A directory with its data and its journal open. -/
def Opened (host : Host F) (N : Descriptor → Prop) (d : Descriptor) (fed : Bytes) (offs : List Nat) (data journal : File)
    (s : State) : Prop :=
  Unready host N d fed offs s ∧ s.disk.data = some data ∧ s.disk.checkpoints = some journal

/-- It is cut at the last checkpoint. -/
def Trimmed (host : Host F) (N : Descriptor → Prop) (d : Descriptor) (fed : Bytes) (offs : List Nat) (data : File)
    (s : State) : Prop :=
  Unready host N d fed offs s ∧ s.disk.data = some (data.truncate (offs.getLastD 0)) ∧ s.disk.checkpoints ≠ none

/-- And its entries are synced. -/
def Linked (host : Host F) (N : Descriptor → Prop) (d : Descriptor) (fed : Bytes) (offs : List Nat) (data : File)
    (t : State) : Prop :=
  ∃ s, Trimmed host N d fed offs data s ∧ Holds host N d fed offs [] s.disk ∧ t = { s with disk := s.disk.link }

/-- What it leaves with the writer. -/
theorem Linked.resumed {data : File} {t : State} (h : Linked host N d fed offs data t) (hsynced : offs.getLastD 0 ≤ data.synced)
    (htake : data.bytes.take (offs.getLastD 0) = fed.take (offs.getLastD 0)) :
    Resumed host N d fed offs { t with
      writer := some ⟨d, false, offs.getLastD 0, data.bytes.take (offs.getLastD 0), true⟩
      fed := t.fed.take (offs.getLastD 0) } := by
  obtain ⟨s, ⟨⟨hfed, -, hb, hfinal, -⟩, hdata, hj⟩, hold, rfl⟩ := h
  have hlast := hold.last.1
  have hlength : (fed.take (offs.getLastD 0)).length = offs.getLastD 0 := by rw [List.length_take]; omega
  have hfile : s.disk.link.data = some ⟨fed.take (offs.getLastD 0), offs.getLastD 0, true⟩ := by
    have hmin : min data.synced (offs.getLastD 0) = offs.getLastD 0 := by omega
    simp only [Disk.link, hdata, Option.map_some, File.truncate, htake, hmin]
  have hfinal' : s.disk.link.final = none := by simp [Disk.link, hfinal]
  subst hfed
  refine ⟨rfl, (hold.link hb).cutFed hfinal' fun file hf => ?_, _, rfl, ⟨rfl, ?_, by simp, fun _ => ?_⟩, rfl⟩
  · rw [hfile] at hf
    cases hf
    rfl
  · obtain ⟨file, hf⟩ := Option.ne_none_iff_exists'.mp hb
    exact ⟨{ file with entry := true }, by simp [Disk.link, hf], rfl⟩
  · obtain ⟨journal, hf⟩ := Option.ne_none_iff_exists'.mp hj
    refine ⟨rfl, hlength.symm, htake, hfinal', ?_, { journal with entry := true }, by simp [Disk.link, hf], rfl⟩
    rw [hlength]
    exact hfile

variable [DecidableEq F]

theorem resume_spec (hN : ∀ d, N d → Taken host d) (left : Left) (b k : Nat) :
    Spec (At b k (Unready host N d fed offs)) (resume host d)
      (fun o => At b (k + 5) fun s => o = offs.getLastD 0 ∧ Resumed host N d fed offs s) (Stops host N left b (k + 5)) := by
  rw [resume]
  refine Spec.bind (ensure_spec (J := fun data s => Unready host N d fed offs s ∧ s.disk.data = some data)
    (by omega) (fun s => Unready.safe left) ?old ?new) fun data => ?_
  case old => exact fun s file h hf => ⟨h, hf⟩
  case new =>
    intro s h hf
    obtain ⟨hfed, hw, hb, hfinal, torn, hold⟩ := h
    exact ⟨⟨hfed, hw, hb, hfinal, torn, hold.newData hf hfinal⟩, rfl⟩
  refine have_spec (φ := Taken host d ∧ data.bytes <+: fed ∧ data.bytes.length ≤ d.size ∧ offs.getLastD 0 ≤ data.synced ∧
    data.synced ≤ data.bytes.length) ?facts fun ⟨htaken, hfed, hmax, hsynced, hle⟩ => ?_
  case facts =>
    intro w hw
    obtain ⟨-, ⟨-, -, hb, -, torn, hold⟩, hdata⟩ := hw
    obtain ⟨hfed, hmax, hle, -⟩ := hold.data data hdata
    exact ⟨hN d (hold.named hb), hfed, hmax, hold.lastData hdata, hle⟩
  have hsize := (taken_facts htaken).1
  refine lift_spec (a := ()) (by rw [regular, require_ok, decide_eq_true_eq]; omega) ?_
  refine Spec.bind (ensure_spec (J := Opened host N d fed offs data) (by omega) (fun s h => h.1.safe left) ?old ?new)
    fun journal => ?_
  case old => exact fun s file h hf => ⟨h.1, h.2, hf⟩
  case new =>
    intro s h hf
    obtain ⟨⟨hfed, hw, hb, hfinal, torn, hold⟩, hdata⟩ := h
    obtain rfl := hold.blank hf
    exact ⟨⟨hfed, hw, hb, hfinal, [], hold.newCheckpoints hf⟩, hdata, rfl⟩
  refine have_spec (φ := ∃ torn, 10 ∉ torn ∧ journal.bytes = lines host fed offs ++ torn ∧ journal.bytes.length ≤ maxJournal ∧
    (0 :: offs).Pairwise (· < ·) ∧ ∀ o ∈ offs, o ≤ d.size) ?journal fun ⟨torn, htorn, hbytes, hjournal, hrising, hreach⟩ => ?_
  case journal =>
    intro w hw
    obtain ⟨-, ⟨-, -, -, -, torn, hold⟩, -, hcheckpoints⟩ := hw
    obtain ⟨hbytes, hmax, -⟩ := hold.checkpoints journal hcheckpoints
    exact ⟨torn, hold.plain, hbytes, hmax, hold.rising, fun o ho => (hold.reach o ho).2⟩
  refine lift_spec (a := ()) (by rw [regular, require_ok, decide_eq_true_eq]; exact hjournal) ?_
  have hcomplete : completePart journal.bytes = lines host fed offs := by
    rw [hbytes, completePart_append (lines_end fed offs) htorn]
  have hcap : (d.size : Int) ≤ maxSafeInteger := by have := host.bounded.2; omega
  have hreplay : replay host d.size (offs.map fun x => json host (checkpointValue host fed x)) (0, .str (hash host (fed.take 0))) = _ :=
    replay_lines fed hcap hrising hreach
  rw [← splitLines_lines] at hreplay
  dsimp only
  rw [hcomplete]
  refine lift_spec hreplay ?_
  have hlast : offs.getLastD 0 ≤ data.bytes.length := hsynced.trans hle
  have htake : data.bytes.take (offs.getLastD 0) = fed.take (offs.getLastD 0) := by
    obtain ⟨rest, rfl⟩ := hfed
    rw [List.take_append_of_le_length hlast]
  refine lift_spec (a := ()) (by rw [require_ok, decide_eq_true_eq]; exact hlast) ?_
  refine lift_spec (a := ()) (by rw [require_ok, decide_eq_true_eq, htake]) ?_
  refine Spec.bind (effect_spec (J := Trimmed host N d fed offs data) (by omega) (fun s h => h.1.safe left) ?cutData)
    fun _ => ?_
  case cutData =>
    intro s h
    obtain ⟨⟨hfed, hw, hb, hfinal, torn, hold⟩, hdata, hj⟩ := h
    exact ⟨⟨hfed, hw, hb, hfinal, torn, hold.cutData hfinal⟩, by simp [hdata], by simp [hj]⟩
  refine Spec.bind (effect_spec (J := fun s => Trimmed host N d fed offs data s ∧ Holds host N d fed offs [] s.disk)
    (by omega) (fun s h => h.1.safe left) ?cutCheckpoints) fun _ => ?_
  case cutCheckpoints =>
    intro s h
    obtain ⟨⟨hfed, hw, hb, hfinal, torn, hold⟩, hdata, hj⟩ := h
    have hcut := hold.cutCheckpoints
    exact ⟨⟨⟨hfed, hw, hb, hfinal, [], hcut⟩, hdata, by simpa using hj⟩, hcut⟩
  refine Spec.bind (effect_spec (J := Linked host N d fed offs data) (by omega) (fun s h => h.1.1.safe left) ?link) fun _ => ?_
  case link => exact fun s h => ⟨s, h.1, h.2, rfl⟩
  refine Spec.bind (Q := fun _ => At b (k + 5) (Resumed host N d fed offs)) (Spec.update fun w hw => ?_)
    fun _ => Spec.ret fun w hw => ⟨hw.1, rfl, hw.2⟩
  exact ⟨hw.1, hw.2.resumed hsynced htake⟩

/-! ### The binding -/

theorem crash_binding {left : Left} {b : Option File}
    (h : b.bind (·.survive left.binding) = disk.binding.bind (·.survive left.binding)) :
    ({ disk with binding := b } : Disk).crash left = disk.crash left := by
  unfold Disk.crash
  simp only [h]

/-- `prepare` of a new directory crashes with the binding file's name kept and
not all of its bytes. -/
def TornAt (host : Host F) (d : Descriptor) (disk : Disk) (budget : Nat) (left : Left) : Prop :=
  (disk.entry || left.directory) = true ∧
    (budget = 1 ∧ left.binding ≠ none ∨ budget = 2 ∧ ∃ k, left.binding = some k ∧ k < (json host d.value).length)

omit [DecidableEq F] in
theorem Holds.unbound (h : Holds host N e fed offs torn disk) (hb : disk.binding = none) (hd : N d) {left : Left} {n : Nat}
    (hn : ¬ TornAt host d disk n left) {b : Option File}
    (hfile : n = 0 ∧ b = none ∨ n = 1 ∧ b = some File.empty ∨ n = 2 ∧ b = some ⟨json host d.value, 0, false⟩) :
    ∃ e' offs' torn', Holds host N e' fed offs' torn' (({ disk with binding := b } : Disk).crash left) := by
  by_cases hdir : (disk.entry || left.directory) = true
  case neg =>
    have hempty : ({ disk with binding := b } : Disk).crash left = Disk.empty := if_neg hdir
    exact ⟨e, [], [], hempty ▸ Holds.empty⟩
  -- The file's name is lost with it, or it is whole.
  have hlost : b.bind (·.survive left.binding) = none → ∃ e' offs' torn',
      Holds host N e' fed offs' torn' (({ disk with binding := b } : Disk).crash left) := by
    intro hgone
    rw [crash_binding (by rw [hgone, hb, Option.bind_none])]
    exact ⟨e, h.crash left⟩
  rcases hfile with ⟨-, rfl⟩ | ⟨rfl, rfl⟩ | ⟨rfl, rfl⟩
  · exact hlost rfl
  · refine hlost ?_
    have hnone : left.binding = none := Classical.byContradiction fun hne => hn ⟨hdir, .inl ⟨rfl, hne⟩⟩
    rw [hnone]
    rfl
  · cases hl : left.binding with
    | none =>
      refine hlost ?_
      rw [hl]
      rfl
    | some k =>
      have hk : (json host d.value).length ≤ k := by
        by_contra hlt
        exact hn ⟨hdir, .inr ⟨rfl, k, hl, by omega⟩⟩
      have hsame : ({ disk with binding := some ⟨json host d.value, 0, false⟩ } : Disk).crash left =
          ({ disk with binding := some ⟨json host d.value, (json host d.value).length, false⟩ } : Disk).crash left := by
        rw [← crash_binding]
        simp only [hl, Option.bind_some, File.survive, Option.isSome_some, Bool.or_true, if_true, Option.getD_some]
        rw [List.take_of_length_le (by omega), List.take_of_length_le (by omega)]
      exact ⟨d, hsame ▸ (h.bind hb hd).crash left⟩

theorem state_from (w : World) : state.from w = (.ok w.state, w) := rfl

theorem onDisk_zero (f : Disk → Disk) (s : State) : (onDisk f).from ⟨s, 0⟩ = (.error .crashed, ⟨s, 0⟩) := rfl

theorem onDisk_succ (f : Disk → Disk) (s : State) (n : Nat) :
    (onDisk f).from ⟨s, n + 1⟩ = (.ok (), ⟨{ s with disk := f s.disk }, n⟩) := rfl

theorem lift_ok {α : Type} (a : α) (w : World) : (lift (.ok a)).from w = (.ok a, w) := rfl

theorem lift_error {α : Type} (e : Fault) (w : World) : (lift (.error e : Except Fault α)).from w = (.error (.raised e), w) := rfl

theorem bind_new {s : State} (hb : s.disk.binding = none) (n : Nat) :
    (bindArtifact host d).from ⟨s, n + 3⟩ = (.ok (), ⟨{ s with disk := { s.disk with
      binding := some ⟨json host d.value, (json host d.value).length, false⟩ } }, n⟩) := by
  simp only [bindArtifact, from_bind, state_from, hb, onDisk_succ]
  rfl

/-- A new binding takes three steps. -/
theorem bind_short {s : State} (hb : s.disk.binding = none) {n : Nat} (hn : n < 3) :
    ∃ b, (bindArtifact host d).from ⟨s, n⟩ = (.error .crashed, ⟨{ s with disk := { s.disk with binding := b } }, 0⟩) ∧
      (n = 0 ∧ b = none ∨ n = 1 ∧ b = some File.empty ∨ n = 2 ∧ b = some ⟨json host d.value, 0, false⟩) := by
  match n, hn with
  | 0, _ =>
    refine ⟨none, ?_, .inl ⟨rfl, rfl⟩⟩
    simp only [bindArtifact, from_bind, state_from, hb, onDisk_zero]
    rw [← hb]
  | 1, _ =>
    refine ⟨_, ?_, .inr (.inl ⟨rfl, rfl⟩)⟩
    simp only [bindArtifact, from_bind, state_from, hb, onDisk_zero, onDisk_succ (n := 0)]
  | 2, _ =>
    refine ⟨_, ?_, .inr (.inr ⟨rfl, rfl⟩)⟩
    simp only [bindArtifact, from_bind, state_from, hb, onDisk_zero, onDisk_succ (n := 0), onDisk_succ (n := 1)]
    rfl

/-- A bound directory is bound for good. -/
theorem bind_old (hN : ∀ d, N d → Taken host d) {s : State} (h : Holds host N e fed offs torn s.disk) (hb : s.disk.binding ≠ none)
    (n : Nat) : (bindArtifact host d).from ⟨s, n⟩ = (if e = d then .ok () else .error (.raised (conflict "writer binding changed")), ⟨s, n⟩) := by
  obtain ⟨file, hfile⟩ := Option.ne_none_iff_exists'.mp hb
  obtain ⟨hbytes, -⟩ := h.binding file hfile
  have htaken := hN e (h.named hb)
  obtain ⟨fields, hvalue, hdecode⟩ := decode_descriptor htaken
  have hregular : regular file defaultChunk = .ok () := by
    rw [regular, require_ok, decide_eq_true_eq, hbytes]
    exact json_length htaken
  have hsame : Value.same host.intOf (.obj fields) d.value = decide (e = d) := by
    rw [← hvalue, Bool.eq_iff_iff, value_same, decide_eq_true_eq]
  simp only [bindArtifact, from_bind, state_from, hfile, hregular, lift_ok, hbytes, hdecode, hsame]
  by_cases heq : e = d
  · simp only [heq, decide_true, if_true]
    rfl
  · simp only [heq, decide_false, if_false]
    rfl

/-! ### The whole call -/

/-- The bytes a directory keeps of its download. -/
def kept (disk : Disk) : Bytes :=
  match disk.final with
  | some file => file.bytes
  | none => (disk.data.map File.bytes).getD []

def journal (disk : Disk) : Bytes := (disk.checkpoints.map File.bytes).getD []

/-- `prepare` of `d` came back with `o`: the offset of the last complete line of
the journal, or the size of a published file. -/
structure Resumes (host : Host F) (d : Descriptor) (s : State) (o : Nat) (t : State) : Prop where
  writer : ∃ w, t.writer = some w ∧ w.artifact = d
  within : o ≤ (kept s.disk).length
  kept : kept t.disk = (kept s.disk).take o
  stream : ∀ stream, s.fed <+: stream → EvidenceWriter.kept t.disk = stream.take o
  fed : t.fed = s.fed.take o
  checkpoint : s.disk.final = none →
    ∃ offs torn, journal s.disk = lines host s.fed offs ++ torn ∧ 10 ∉ torn ∧ o = offs.getLastD 0
  published : s.disk.final ≠ none → o = d.size

/-- `prepare` once the binding is there. -/
def reopen (host : Host F) (d : Descriptor) : Op Nat := do
  match (← state).disk.final with
  | some final => do
    lift (verify host d final)
    modify fun w => { w with state := { w.state with writer := some ⟨d, true, d.size, [], false⟩ } }
    return d.size
  | none => resume host d

theorem kept_final {file : File} (h : disk.final = some file) : kept disk = file.bytes := by rw [kept, h]

theorem kept_data (h : disk.final = none) : kept disk = (disk.data.map File.bytes).getD [] := by rw [kept, h]

omit [DecidableEq F] in
/-- Up to the last checkpoint, the directory keeps the stream. -/
theorem Holds.kept_take (h : Holds host N d fed offs torn disk) (hf : disk.final = none) :
    offs.getLastD 0 ≤ (kept disk).length ∧ (kept disk).take (offs.getLastD 0) = fed.take (offs.getLastD 0) := by
  rw [kept_data hf]
  cases hd : disk.data with
  | none =>
    obtain rfl := h.absent hd hf
    exact ⟨Nat.le_refl 0, rfl⟩
  | some file =>
    obtain ⟨⟨rest, rfl⟩, -, hle, -⟩ := h.data file hd
    have hlast : offs.getLastD 0 ≤ file.bytes.length := (h.lastData hd).trans hle
    exact ⟨hlast, (List.take_append_of_le_length hlast).symm⟩

omit [DecidableEq F] in
theorem take_stream {stream : Bytes} (h : fed <+: stream) {o : Nat} (ho : o ≤ fed.length) : fed.take o = stream.take o := by
  obtain ⟨rest, rfl⟩ := h
  exact (List.take_append_of_le_length ho).symm

theorem prepare_from {s : State} {artifact : Value F} (hw : s.writer = none) (hd : descriptor artifact host.maxBytes = .ok d) (n : Nat) :
    (prepare host artifact).from ⟨s, n⟩ = (bindArtifact host d >>= fun _ => reopen host d).from ⟨s, n⟩ := by
  simp only [prepare, from_bind, state_from, hw, hd, lift_ok]
  rfl

theorem reopen_ok (hN : ∀ d, N d → Taken host d) {s : State} (h : Holds host N d s.fed offs torn s.disk) (hb : s.disk.binding ≠ none)
    (hw : s.writer = none) (left : Left) (n : Nat) :
    match (reopen host d).from ⟨s, n⟩ with
    | (.ok o, t) => Resumes host d s o t.state ∧ Good host N t.state
    | (.error e, t) => Stops host N left n 5 e t := by
  cases hfinal : s.disk.final with
  | some final =>
    obtain ⟨hdata, hbytes, hsync, hverify⟩ := h.final final hfinal
    have hsize := (verify_size hverify).1
    have hrun : (reopen host d).from ⟨s, n⟩ = (.ok d.size, ⟨{ s with writer := some ⟨d, true, d.size, [], false⟩ }, n⟩) := by
      simp only [reopen, from_bind, state_from, hfinal, hverify, lift_ok, from_modify, from_pure]
    have hlength : s.fed.length = d.size := by rw [← hbytes, hsize]
    have hlate : ∃ file, s.disk.binding = some file ∧ file.entry = true := by
      by_contra hno
      have := (h.early fun file hf => by
        rw [← Bool.not_eq_true]
        exact fun he => hno ⟨file, hf, he⟩).2.1
      rw [hfinal] at this
      cases this
    rw [hrun]
    refine ⟨?_, d, offs, torn, h, fun w hw => ?_⟩
    · have hkept : kept s.disk = s.fed := (kept_final hfinal).trans hbytes
      have hall : s.fed = s.fed.take d.size := (List.take_of_length_le hlength.le).symm
      exact ⟨⟨_, rfl, rfl⟩, by rw [hkept, hlength], by rw [hkept, ← hall],
        fun stream hs => by rw [← take_stream hs hlength.ge, ← hall]; exact hkept, hall,
        fun hnone => absurd (hfinal.symm.trans hnone) (by simp), fun _ => rfl⟩
    · cases hw
      exact ⟨rfl, hlate, fun _ => ⟨rfl, rfl, by simp [hfinal]⟩, fun hgoing => by cases hgoing⟩
  | none =>
    have hrun : (reopen host d).from ⟨s, n⟩ = (resume host d).from ⟨s, n⟩ := by
      simp only [reopen, from_bind, state_from, hfinal]
    have hready : At n 0 (Unready host N d s.fed offs) ⟨s, n⟩ := ⟨Nat.le_refl n, rfl, hw, hb, hfinal, torn, h⟩
    have hspec := resume_spec hN left n 0 _ hready
    rw [hrun]
    cases hr : (resume host d).from ⟨s, n⟩ with
    | mk out t =>
      rw [hr] at hspec
      cases out with
      | error e => exact hspec
      | ok o =>
        obtain ⟨-, rfl, hfed, hold, w, hwriter, hactive, hgoing⟩ := hspec
        obtain ⟨-, -, -, hfinal', hdata, -⟩ := hactive.going hgoing
        obtain ⟨hwithin, htake⟩ := h.kept_take hfinal
        have hkept : kept t.state.disk = t.state.fed := by rw [kept_data hfinal', hdata]; rfl
        refine ⟨⟨⟨w, hwriter, hactive.artifact⟩, hwithin, ?_, fun stream hs => ?_, hfed, fun _ => ⟨offs, ?_⟩, fun hne => absurd hfinal hne⟩, ?_⟩
        · rw [hkept, hfed, htake]
        · rw [hkept, hfed, take_stream hs h.last.1]
        · cases hc : s.disk.checkpoints with
          | none => exact ⟨[], by simp [journal, hc, h.blank hc, lines], by simp, rfl⟩
          | some file => exact ⟨torn, by rw [journal, hc]; exact (h.checkpoints file hc).1, h.plain, rfl⟩
        · refine ⟨d, offs, [], hold, fun w' hw' => ?_⟩
          rw [hwriter] at hw'
          cases hw'
          exact hactive

/-- **`prepare` comes back**, in eight steps at most, unless it tears the binding. -/
theorem prepare_ok (hN : ∀ d, N d → Taken host d) {s : State} (h : Holds host N e s.fed offs torn s.disk) (hw : s.writer = none)
    {artifact : Value F} (hd : descriptor artifact host.maxBytes = .ok d) (hNd : N d) (hbind : s.disk.binding = none ∨ e = d)
    (left : Left) (n : Nat) (hn : s.disk.binding = none → ¬ TornAt host d s.disk n left) :
    match (prepare host artifact).from ⟨s, n⟩ with
    | (.ok o, t) => Resumes host d s o t.state ∧ Good host N t.state
    | (.error e, t) => Stops host N left n 8 e t := by
  rw [prepare_from hw hd, from_bind]
  by_cases hb : s.disk.binding = none
  · by_cases hshort : n < 3
    · obtain ⟨b, hrun, hfile⟩ : ∃ b, (bindArtifact host d).from ⟨s, n⟩ = _ ∧ _ := bind_short hb hshort
      rw [hrun]
      obtain ⟨e', offs', torn', hleft⟩ := h.unbound hb hNd (hn hb) hfile
      exact ⟨rfl, by omega, e', offs', torn', hleft, fun _ hw => by cases hw⟩
    · obtain ⟨k, rfl⟩ : ∃ k, n = k + 3 := ⟨n - 3, by omega⟩
      rw [bind_new hb]
      have hopen := reopen_ok hN (h.bind hb hNd) (s := { s with disk := { s.disk with
        binding := some ⟨json host d.value, (json host d.value).length, false⟩ } }) (by simp) hw left k
      dsimp only
      cases hr : (reopen host d).from ⟨{ s with disk := { s.disk with
          binding := some ⟨json host d.value, (json host d.value).length, false⟩ } }, k⟩ with
      | mk out t =>
        rw [hr] at hopen
        cases out with
        | ok o =>
          obtain ⟨r, hgood⟩ := hopen
          exact ⟨⟨r.writer, r.within, r.kept, r.stream, r.fed, r.checkpoint, r.published⟩, hgood⟩
        | error e => exact ⟨hopen.1, by have := hopen.2.1; omega, hopen.2.2⟩
  · obtain rfl : e = d := hbind.resolve_left hb
    rw [bind_old hN h hb, if_pos rfl]
    have hopen := reopen_ok hN h hb hw left n
    dsimp only
    cases hr : (reopen host e).from ⟨s, n⟩ with
    | mk out t =>
      rw [hr] at hopen
      cases out with
      | ok o => exact hopen
      | error e => exact ⟨hopen.1, by have := hopen.2.1; omega, hopen.2.2⟩

/-- The one kind of crash that a directory does not recover from. -/
def Tears (host : Host F) (s : State) : Event F → Prop
  | .prepare artifact budget left => s.writer = none ∧ s.disk.binding = none ∧
      ∃ d, descriptor artifact host.maxBytes = .ok d ∧ TornAt host d s.disk budget left
  | _ => False

theorem prepare_good (hN : ∀ d, N d → Taken host d) {s : State} (hs : Good host N s) {artifact : Value F} (left : Left) (n : Nat)
    (hnamed : ∀ d, descriptor artifact host.maxBytes = .ok d → N d) (htears : ¬ Tears host s (.prepare artifact n left)) :
    Good host N (settle left ((prepare host artifact).from ⟨s, n⟩)) := by
  obtain ⟨e, offs, torn, h, hactive⟩ := hs
  cases hw : s.writer with
  | some w =>
    have hrun : (prepare host artifact).from ⟨s, n⟩ = (.error (.raised (conflict "writer is already active")), ⟨s, n⟩) := by
      simp only [prepare, from_bind, state_from, hw, from_throw]
    rw [hrun]
    exact ⟨e, offs, torn, h, hactive⟩
  | none =>
    cases hd : descriptor artifact host.maxBytes with
    | error fault =>
      have hrun : (prepare host artifact).from ⟨s, n⟩ = (.error (.raised fault), ⟨s, n⟩) := by
        simp only [prepare, from_bind, state_from, hw, hd, lift_error]
      rw [hrun]
      exact ⟨e, offs, torn, h, hactive⟩
    | ok d =>
      by_cases hbind : s.disk.binding = none ∨ e = d
      · have hprepare := prepare_ok hN h hw hd (hnamed d hd) hbind left n fun hb ht => htears ⟨hw, hb, d, hd, ht⟩
        cases hr : (prepare host artifact).from ⟨s, n⟩ with
        | mk out t =>
          rw [hr] at hprepare
          cases out with
          | ok o => exact hprepare.2
          | error stop =>
            obtain ⟨rfl, -, hgood⟩ := hprepare
            exact hgood
      · obtain ⟨hb, hne⟩ := not_or.mp hbind
        rw [prepare_from hw hd, from_bind, bind_old hN h hb, if_neg hne]
        exact ⟨e, offs, torn, h, hactive⟩

/-! ## `write` -/

section

omit [DecidableEq F]

theorem Holds.append {more : Bytes} (h : Holds host N d fed offs torn disk) (hdata : disk.data = some ⟨fed, fed.length, true⟩)
    (hb : ∃ file, disk.binding = some file ∧ file.entry = true) (hsize : fed.length + more.length ≤ d.size) :
    Holds host N d (fed ++ more) offs torn { disk with data := disk.data.map (·.append more) } := by
  have hlines : lines host fed offs = lines host (fed ++ more) offs := by
    refine lines_congr fun o ho => ?_
    rw [List.take_append_of_le_length (h.reach o ho).1]
  refine { h with early := ?_, reach := ?_, checkpoints := ?_, data := ?_, absent := ?_, final := ?_ }
  · intro hearly
    obtain ⟨file, hf, he⟩ := hb
    rw [hearly file hf] at he
    cases he
  · intro o ho
    have := h.reach o ho
    rw [List.length_append]
    omega
  · exact fun file hc => hlines ▸ h.checkpoints file hc
  · intro file hf
    simp only [hdata, Option.map_some, Option.some.injEq] at hf
    subst hf
    obtain ⟨-, -, -, hreach, -⟩ := h.data _ hdata
    refine ⟨List.prefix_rfl, ?_, ?_, hreach, fun he => by cases he⟩
    · show (fed ++ more).length ≤ _
      rw [List.length_append]
      exact hsize
    · show fed.length ≤ (fed ++ more).length
      rw [List.length_append]
      omega
  · intro hd
    simp only [hdata, Option.map_some] at hd
    cases hd
  · intro file hf
    rw [(h.final file hf).1] at hdata
    cases hdata

theorem Holds.syncData (h : Holds host N d fed offs torn disk) :
    Holds host N d fed offs torn { disk with data := disk.data.map File.sync } := by
  refine { h with early := ?_, data := ?_, absent := ?_, final := ?_ }
  · intro hearly
    obtain ⟨hnil, hfinal, hempty⟩ := h.early hearly
    refine ⟨hnil, hfinal, fun file hf => ?_⟩
    obtain ⟨old, hold, rfl⟩ := Option.map_eq_some_iff.mp hf
    exact hempty old hold
  · intro file hf
    obtain ⟨old, hold, rfl⟩ := Option.map_eq_some_iff.mp hf
    obtain ⟨hfed, hmax, hle, hreach, hentry⟩ := h.data old hold
    exact ⟨hfed, hmax, Nat.le_refl _, fun o ho => (hreach o ho).trans hle, hentry⟩
  · exact fun hd hf => h.absent (Option.map_eq_none_iff.mp hd) hf
  · intro file hf
    obtain ⟨hdata, hrest⟩ := h.final file hf
    exact ⟨by simp only [hdata, Option.map_none], hrest⟩

/-- A checkpoint of all that is synced. -/
theorem Holds.mark {file : File} (h : Holds host N d fed offs [] disk) (hdata : disk.data = some ⟨fed, fed.length, true⟩)
    (hb : ∃ file, disk.binding = some file ∧ file.entry = true) (hfile : disk.checkpoints = some file) (hentry : file.entry = true)
    (hup : ∀ o ∈ 0 :: offs, o < fed.length) (hsize : fed.length ≤ d.size)
    (hmax : file.bytes.length + (line host fed fed.length).length ≤ maxJournal) :
    Holds host N d fed (offs ++ [fed.length]) []
      { disk with checkpoints := disk.checkpoints.map (·.append (line host fed fed.length)) } := by
  have hmem : ∀ o ∈ offs ++ [fed.length], o ∈ offs ∨ o = fed.length := by
    intro o ho
    simpa using ho
  refine { h with early := ?_, rising := ?_, reach := ?_, checkpoints := ?_, blank := ?_, data := ?_, absent := ?_ }
  · intro hearly
    obtain ⟨file, hf, he⟩ := hb
    rw [hearly file hf] at he
    cases he
  · rw [← List.cons_append, List.pairwise_append]
    refine ⟨h.rising, List.pairwise_singleton _ _, fun o ho x hx => ?_⟩
    rw [List.mem_singleton.mp hx]
    exact hup o ho
  · intro o ho
    rcases hmem o ho with ho | rfl
    · exact h.reach o ho
    · exact ⟨Nat.le_refl _, hsize⟩
  · intro new hf
    simp only [hfile, Option.map_some, Option.some.injEq] at hf
    subst hf
    refine ⟨?_, ?_, fun he => ?_⟩
    · show file.bytes ++ _ = _
      rw [(h.checkpoints file hfile).1]
      simp [lines]
    · show (file.bytes ++ _).length ≤ _
      rw [List.length_append]
      exact hmax
    · rw [show file.entry = false from he] at hentry
      cases hentry
  · intro hc
    simp only [hfile, Option.map_some] at hc
    cases hc
  · intro old hf
    obtain ⟨hfed, hmax, hle, hreach, -⟩ := h.data old hf
    obtain rfl : (⟨fed, fed.length, true⟩ : File) = old := Option.some.inj (hdata.symm.trans hf)
    refine ⟨hfed, hmax, hle, fun o ho => ?_, fun he => by cases he⟩
    rcases hmem o ho with ho | rfl
    · exact hreach o ho
    · exact Nat.le_refl _
  · intro hd
    rw [show disk.data = none from hd] at hdata
    cases hdata

theorem Holds.syncCheckpoints (h : Holds host N d fed offs torn disk) :
    Holds host N d fed offs torn { disk with checkpoints := disk.checkpoints.map File.sync } := by
  refine { h with checkpoints := ?_, blank := fun hc => h.blank (Option.map_eq_none_iff.mp hc) }
  intro file hf
  obtain ⟨old, hold, rfl⟩ := Option.map_eq_some_iff.mp hf
  exact h.checkpoints old hold

end

/-- How a call stops: by a crash, or by an exception in a good state. -/
def Halts (host : Host F) (N : Descriptor → Prop) (left : Left) (e : Stop) (w : World) : Prop :=
  match e with
  | .crashed => Good host N (w.state.crash left)
  | .raised _ => Good host N w.state

section

variable {left : Left} {I J : State → Prop} {f : State → State}

omit [DecidableEq F] in
theorem effect_halts (hsafe : ∀ s, I s → Good host N (s.crash left)) (hf : ∀ s, I s → J (f s)) :
    Spec (fun w => I w.state) (effect f) (fun _ w => J w.state) (Halts host N left) := by
  intro w hw
  obtain ⟨s, n⟩ := w
  cases n with
  | zero => exact hsafe s hw
  | succ n => exact hf s hw

omit [DecidableEq F] in
theorem require_halts {ok : Bool} {fault : Fault} (hgood : ∀ s, I s → Good host N s) :
    Spec (fun w => I w.state) (lift (require ok fault)) (fun _ w => I w.state ∧ ok = true) (Halts host N left) := by
  intro w hw
  cases ok with
  | true => exact ⟨hw, rfl⟩
  | false => exact hgood _ hw

omit [DecidableEq F] in
theorem halts_good {α : Type} {p : Op α} {s : State} {n : Nat} {Q : α → World → Prop} (hp : Spec (fun w => w.state = s) p Q (Halts host N left))
    (hQ : ∀ a w, Q a w → Good host N w.state) : Good host N (settle left (p.from ⟨s, n⟩)) := by
  have h := hp ⟨s, n⟩ rfl
  cases hr : p.from ⟨s, n⟩ with
  | mk out t =>
    rw [hr] at h
    cases out with
    | ok a => exact hQ a t h
    | error e =>
      cases e with
      | crashed => exact h
      | raised fault => exact h

end

omit [DecidableEq F] in
theorem lift_halts {α : Type} {left : Left} {I : State → Prop} {x : Except Fault α} (hgood : ∀ s, I s → Good host N s) :
    Spec (fun w => I w.state) (lift x) (fun a w => I w.state ∧ x = .ok a) (Halts host N left) := by
  intro w hw
  cases x with
  | ok a => exact ⟨hw, rfl⟩
  | error e => exact hgood _ hw

/-- A directory in the course of a `write`: all of `fed` is there, `synced` of it
on stable storage. -/
structure Writing (host : Host F) (N : Descriptor → Prop) (d : Descriptor) (fed : Bytes) (offs : List Nat) (journal : File)
    (synced : Nat) (w : Writer) (t : State) : Prop where
  all : t.fed = fed
  holds : Holds host N d fed offs [] t.disk
  data : t.disk.data = some ⟨fed, synced, true⟩
  final : t.disk.final = none
  binding : ∃ file, t.disk.binding = some file ∧ file.entry = true
  checkpoints : t.disk.checkpoints = some journal
  entry : journal.entry = true
  writer : t.writer = some w

section

variable {synced : Nat} {w : Writer} {t : State} {old : File} {left : Left}

omit [DecidableEq F]

theorem Writing.safe (h : Writing host N d fed offs old synced w t) (left : Left) : Good host N (t.crash left) := by
  obtain ⟨rfl, hold, -⟩ := h
  exact hold.good left

theorem Writing.active (h : Writing host N d fed offs old fed.length w t) (ha : w.artifact = d) (ho : w.offset = fed.length)
    (hh : w.hashed = fed) (hc : w.completed = false) : Active d t.fed [] t.disk w := by
  obtain ⟨rfl, -, hdata, hfinal, hb, hj, hentry, -⟩ := h
  exact ⟨ha, hb, fun hdone => absurd (hc.symm.trans hdone) (by simp), fun _ => ⟨rfl, ho, hh, hfinal, hdata, old, hj, hentry⟩⟩

theorem Writing.good (h : Writing host N d fed offs old fed.length w t) (ha : w.artifact = d) (ho : w.offset = fed.length)
    (hh : w.hashed = fed) (hc : w.completed = false) : Good host N t := by
  refine ⟨d, offs, [], h.all ▸ h.holds, fun w' hw => ?_⟩
  obtain rfl : w = w' := Option.some.inj (h.writer.symm.trans hw)
  exact h.active ha ho hh hc

theorem Writing.append {more : Bytes} (h : Writing host N d fed offs old fed.length w t) (hsize : fed.length + more.length ≤ d.size) :
    Writing host N d (fed ++ more) offs old fed.length w
      { t with disk := { t.disk with data := t.disk.data.map (·.append more) }, fed := t.fed ++ more } where
  all := by rw [h.all]
  holds := h.holds.append h.data h.binding hsize
  data := by rw [h.data]; rfl
  final := h.final
  binding := h.binding
  checkpoints := h.checkpoints
  entry := h.entry
  writer := h.writer

theorem Writing.sync (h : Writing host N d fed offs old synced w t) :
    Writing host N d fed offs old fed.length w { t with disk := { t.disk with data := t.disk.data.map File.sync } } where
  all := h.all
  holds := h.holds.syncData
  data := by rw [h.data]; rfl
  final := h.final
  binding := h.binding
  checkpoints := h.checkpoints
  entry := h.entry
  writer := h.writer

theorem Writing.mark (h : Writing host N d fed offs old fed.length w t) (hup : ∀ o ∈ 0 :: offs, o < fed.length)
    (hsize : fed.length ≤ d.size) (hmax : old.bytes.length + (line host fed fed.length).length ≤ maxJournal) :
    Writing host N d fed (offs ++ [fed.length]) (old.append (line host fed fed.length)) fed.length w
      { t with disk := { t.disk with checkpoints := t.disk.checkpoints.map (·.append (line host fed fed.length)) } } where
  all := h.all
  holds := h.holds.mark h.data h.binding h.checkpoints h.entry hup hsize hmax
  data := h.data
  final := h.final
  binding := h.binding
  checkpoints := by rw [h.checkpoints]; rfl
  entry := h.entry
  writer := h.writer

theorem Writing.syncCheckpoints (h : Writing host N d fed offs old synced w t) :
    Writing host N d fed offs old.sync synced w
      { t with disk := { t.disk with checkpoints := t.disk.checkpoints.map File.sync } } where
  all := h.all
  holds := h.holds.syncCheckpoints
  data := h.data
  final := h.final
  binding := h.binding
  checkpoints := by rw [h.checkpoints]; rfl
  entry := h.entry
  writer := h.writer

end

omit [DecidableEq F] in
theorem write_good {s : State} (hs : Good host N s) (left : Left) (n offset : Nat) (more : Bytes) :
    Good host N (settle left ((write host offset more).from ⟨s, n⟩)) := by
  refine halts_good (Q := fun _ w => Good host N w.state) ?_ fun _ _ h => h
  refine Spec.bind (Q := fun s' w => s' = s ∧ w.state = s) (fun w hw => ⟨hw, hw⟩) fun s' => have_spec (fun _ h => h.1) ?_
  rintro rfl
  refine Spec.pre (P := fun w => w.state = s') ?_ fun _ h => h.2
  have hraise : Spec (fun w => w.state = s') (throw (.raised (conflict "invalid bounded evidence write")) : Op Unit)
      (fun _ w => Good host N w.state) (Halts host N left) := Spec.raise fun w hw => by
    show Good host N w.state
    rw [hw]
    exact hs
  split
  case h_2 => exact hraise
  case h_1 w file old hw hfile hold =>
  refine Spec.bind (require_halts (I := fun t => t = s') fun _ h => h ▸ hs) fun _ => have_spec (fun _ h => h.2) fun hok => ?_
  simp only [Bool.and_eq_true, Bool.not_eq_true', decide_eq_true_eq] at hok
  obtain ⟨⟨⟨⟨⟨hopen, hgoing⟩, hoffset⟩, hpos⟩, hchunk⟩, hsize⟩ := hok
  obtain ⟨d, offs, torn, hholds, hactive⟩ := hs
  have ha := hactive w hw
  obtain ⟨rfl, hwoffset, hhashed, hfinal, hdata, old', hold', hentry⟩ := ha.going hgoing
  obtain rfl : old' = old := Option.some.inj (hold'.symm.trans hold)
  have hstart : Writing host N d s'.fed offs old' s'.fed.length w s' :=
    ⟨rfl, hholds, hdata, hfinal, ha.binding, hold, hentry, hw⟩
  have hgood : Good host N s' := ⟨d, offs, [], hholds, hactive⟩
  have hat : offset = s'.fed.length := hoffset.trans hwoffset
  have hfit : s'.fed.length + more.length ≤ d.size := by rw [← hat, ← ha.artifact]; exact hsize
  have hlength : (s'.fed ++ more).length = s'.fed.length + more.length := List.length_append
  refine Spec.bind ((lift_halts (I := fun t => t = s') fun _ h => h ▸ hgood).pre fun _ h => h.1) fun _ => ?_
  refine Spec.bind ((require_halts (I := fun t => t = s') fun _ h => h ▸ hgood).pre fun _ h => h.1) fun _ => ?_
  refine Spec.bind ((effect_halts (I := fun t => t = s')
    (J := Writing host N d (s'.fed ++ more) offs old' s'.fed.length w) (fun _ h => h ▸ hstart.safe left) ?append).pre
    fun _ h => h.1) fun _ => ?_
  case append =>
    rintro _ rfl
    exact hstart.append hfit
  refine Spec.bind (effect_halts (J := Writing host N d (s'.fed ++ more) offs old' (s'.fed ++ more).length w)
    (fun _ h => h.safe left) fun _ h => h.sync) fun _ => ?_
  refine Spec.bind (Q := fun _ t => Writing host N d (s'.fed ++ more) offs old' (s'.fed ++ more).length
    { w with offset := w.offset + more.length, hashed := w.hashed ++ more } t.state) (Spec.update ?hashed) fun _ => ?_
  case hashed =>
    intro t h
    exact { h with writer := by simp [h.writer] }
  have hdone : ∀ t offs' old'', Writing host N d (s'.fed ++ more) offs' old'' (s'.fed ++ more).length
      { w with offset := w.offset + more.length, hashed := w.hashed ++ more } t → Good host N t := by
    intro t offs' old'' h
    exact h.good ha.artifact (by rw [hlength, ← hwoffset]) (by rw [← hhashed]) hgoing
  have hline : checkpointLine host (offset + more.length) (w.hashed ++ more) = line host (s'.fed ++ more) (s'.fed ++ more).length := by
    rw [checkpointLine, line, checkpointValue, List.take_length, hlength, hat, hhashed]
  dsimp only
  rw [hline]
  refine Spec.bind (require_halts fun _ h => hdone _ _ _ h) fun _ => have_spec (fun _ h => h.2) fun hbudget => ?_
  rw [decide_eq_true_eq] at hbudget
  have hup : ∀ o ∈ 0 :: offs, o < (s'.fed ++ more).length := by
    intro o ho
    rcases List.mem_cons.mp ho with rfl | ho
    · omega
    · have := (hholds.reach o ho).1
      omega
  refine Spec.bind ((effect_halts (fun _ h => h.safe left) fun t h => h.mark hup (by omega) hbudget).pre fun _ h => h.1)
    fun _ => ?_
  exact effect_halts (J := Good host N) (fun _ h => h.safe left) fun _ h => hdone _ _ _ h.syncCheckpoints

/-! ## `finish` -/

/-- A published download and its writer. -/
structure Published (host : Host F) (N : Descriptor → Prop) (d : Descriptor) (fed : Bytes) (w : Writer) (t : State) : Prop where
  all : t.fed = fed
  holds : ∃ offs torn, Holds host N d fed offs torn t.disk
  final : t.disk.final ≠ none
  binding : ∃ file, t.disk.binding = some file ∧ file.entry = true
  writer : t.writer = some w
  artifact : w.artifact = d
  done : w.completed = true ∧ w.isOpen = false ∧ w.offset = d.size

section

variable {w : Writer} {t : State} {left : Left}

omit [DecidableEq F]

theorem Published.safe (h : Published host N d fed w t) (left : Left) : Good host N (t.crash left) := by
  obtain ⟨rfl, ⟨offs, torn, hold⟩, -⟩ := h
  exact hold.good left

theorem Published.good (h : Published host N d fed w t) : Good host N t := by
  obtain ⟨rfl, ⟨offs, torn, hold⟩, hfinal, hb, hw, ha, hc, hclosed, ho⟩ := h
  refine ⟨d, offs, torn, hold, fun w' hw' => ?_⟩
  obtain rfl : w = w' := Option.some.inj (hw.symm.trans hw')
  exact ⟨ha, hb, fun _ => ⟨hclosed, ho, hfinal⟩, fun hgoing => absurd (hc.symm.trans hgoing) (by simp)⟩

theorem Published.sync (h : Published host N d fed w t) :
    Published host N d fed w { t with disk := { t.disk with final := t.disk.final.map File.sync } } := by
  obtain ⟨offs, torn, hold⟩ := h.holds
  refine { h with holds := ⟨offs, torn, { hold with early := ?_, absent := ?_, final := ?_ }⟩, final := ?_ }
  · intro hearly
    obtain ⟨hnil, hfinal, hempty⟩ := hold.early hearly
    exact ⟨hnil, by simp only [hfinal, Option.map_none], hempty⟩
  · exact fun hd hf => hold.absent hd (Option.map_eq_none_iff.mp hf)
  · intro file hf
    obtain ⟨old, hf', rfl⟩ := Option.map_eq_some_iff.mp hf
    obtain ⟨hdata, hbytes, -, hverify⟩ := hold.final old hf'
    exact ⟨hdata, hbytes, rfl, (verify_bytes rfl).trans hverify⟩
  · exact fun hf => h.final (Option.map_eq_none_iff.mp hf)

theorem Published.link (h : Published host N d fed w t) : Published host N d fed w { t with disk := t.disk.link } := by
  obtain ⟨offs, torn, hold⟩ := h.holds
  obtain ⟨file, hf, -⟩ := h.binding
  refine { h with holds := ⟨offs, torn, hold.link (by simp [hf])⟩, final := ?_, binding := ?_ }
  · exact fun hf => h.final (Option.map_eq_none_iff.mp hf)
  · exact ⟨{ file with entry := true }, by simp [Disk.link, hf], rfl⟩

theorem Published.enter (h : Published host N d fed w t) :
    Published host N d fed w { t with disk := { t.disk with entry := true } } := by
  obtain ⟨offs, torn, hold⟩ := h.holds
  exact { h with holds := ⟨offs, torn, { hold with }⟩ }

/-- The data file of a complete download is renamed. -/
theorem Writing.publish {old : File} (h : Writing host N d fed offs old fed.length w t) (ha : w.artifact = d) (ho : w.offset = d.size)
    (hverify : verify host d ⟨fed, fed.length, true⟩ = .ok ()) :
    Published host N d fed { w with completed := true, isOpen := false } { t with
      disk := { t.disk with data := none, final := t.disk.data.map fun file => { file with entry := false } }
      writer := some { w with completed := true, isOpen := false } } := by
  have hdata := h.data
  refine ⟨h.all, ⟨offs, [], { h.holds with early := ?_, data := ?_, absent := ?_, final := ?_ }⟩, ?_, h.binding, rfl, ha, rfl, rfl, ho⟩
  · intro hearly
    obtain ⟨file, hf, he⟩ := h.binding
    rw [hearly file hf] at he
    cases he
  · intro file hf
    cases hf
  · intro _ hf
    simp only [hdata, Option.map_some] at hf
    cases hf
  · intro file hf
    simp only [hdata, Option.map_some, Option.some.injEq] at hf
    subst hf
    exact ⟨rfl, rfl, rfl, (verify_bytes rfl).trans hverify⟩
  · simp [hdata]

end

/-- What `finish` returns. -/
structure Finished (host : Host F) (s : State) (w : Writer) (bytes : Bytes) : Prop where
  writer : s.writer = some w
  length : bytes.length = w.artifact.size
  digest : hash host bytes = w.artifact.sha256
  fed : bytes = s.fed
  bound : ∃ file, s.disk.binding = some file ∧ file.bytes = json host w.artifact.value

/-- `finish` once the file is published. -/
def retain (host : Host F) (w : Writer) : Op Bytes := do
  match (← state).disk.final with
  | none => throw (.raised .os)
  | some final => do
    lift (verify host w.artifact final)
    onDisk fun disk => { disk with final := disk.final.map File.sync }
    onDisk Disk.link
    onDisk fun disk => { disk with entry := true }
    lift (verify host w.artifact final)
    return final.bytes

omit [DecidableEq F] in
theorem retain_spec {w w' : Writer} (left : Left) (ha : w.artifact = d) :
    Spec (fun t => Published host N d fed w' t.state) (retain host w)
      (fun bytes t => Good host N t.state ∧ bytes = fed ∧ bytes.length = d.size ∧ hash host bytes = d.sha256) (Halts host N left) := by
  rw [retain]
  refine Spec.bind state_spec fun s => ?_
  cases hfinal : s.disk.final with
  | none =>
    refine Spec.raise fun t ht => ?_
    obtain ⟨h, rfl⟩ := ht
    exact absurd hfinal h.final
  | some final =>
    have hpub : ∀ t : World, Published host N d fed w' t.state ∧ t.state = s → Published host N d fed w' t.state := fun _ h => h.1
    refine have_spec (φ := final.bytes = fed) ?_ fun hfed => ?_
    · intro t ht
      obtain ⟨h, rfl⟩ := ht
      obtain ⟨offs, torn, hold⟩ := h.holds
      exact (hold.final final hfinal).2.1
    refine Spec.bind ((lift_halts fun _ h => h.good).pre hpub) fun _ => have_spec (fun _ h => h.2) fun hverify => ?_
    obtain ⟨hlength, hdigest⟩ := verify_size hverify
    refine Spec.bind ((effect_halts (fun _ h => h.safe left) fun _ h => h.sync).pre fun _ h => h.1) fun _ => ?_
    refine Spec.bind (effect_halts (fun _ h => h.safe left) fun _ h => h.link) fun _ => ?_
    refine Spec.bind (effect_halts (fun _ h => h.safe left) fun _ h => h.enter) fun _ => ?_
    refine Spec.bind (lift_halts fun _ h => h.good) fun _ => Spec.ret fun t ht => ?_
    exact ⟨ht.1.good, hfed, ha ▸ hlength, ha ▸ hdigest⟩

omit [DecidableEq F] in
/-- **`finish` returns the bytes of its descriptor.** -/
theorem finish_spec {s : State} (hs : Good host N s) (left : Left) (validator : Bytes → Option Fault) :
    Spec (fun t => t.state = s) (finish host validator)
      (fun bytes t => Good host N t.state ∧ ∃ w, Finished host s w bytes) (Halts host N left) := by
  have hraise : ∀ fault, Spec (fun w => w.state = s) (throw (.raised fault) : Op Bytes)
      (fun bytes t => Good host N t.state ∧ ∃ w, Finished host s w bytes) (Halts host N left) := fun fault => Spec.raise fun t ht => by
    show Good host N t.state
    rw [ht]
    exact hs
  rw [finish]
  refine Spec.bind (Q := fun s' w => s' = s ∧ w.state = s) (fun w hw => ⟨hw, hw⟩) fun s' => have_spec (fun _ h => h.1) ?_
  rintro rfl
  refine Spec.pre (P := fun w => w.state = s') ?_ fun _ h => h.2
  split
  case h_1 => exact hraise _
  case h_2 w hw =>
  refine Spec.bind (require_halts (I := fun t => t = s') fun _ h => h ▸ hs) fun _ => have_spec (fun _ h => h.2) fun hoffset => ?_
  refine Spec.pre (P := fun t => t.state = s') ?_ fun _ h => h.1
  rw [decide_eq_true_eq] at hoffset
  split
  case h_1 => exact hraise _
  case h_2 file hfile =>
  refine Spec.bind (lift_halts (I := fun t => t = s') fun _ h => h ▸ hs) fun _ => have_spec (fun _ h => h.2) fun hverify => ?_
  refine Spec.pre (P := fun t => t.state = s') ?_ fun _ h => h.1
  split
  case h_1 => exact hraise _
  obtain ⟨d, offs, torn, hholds, hactive⟩ := hs
  have ha := hactive w hw
  have hfinished : ∀ bytes, bytes = s'.fed ∧ bytes.length = d.size ∧ hash host bytes = d.sha256 → Finished host s' w bytes := by
    intro bytes ⟨hfed, hlength, hdigest⟩
    obtain ⟨file, hf, -⟩ := ha.binding
    rw [← ha.artifact] at hlength hdigest
    exact ⟨hw, hlength, hdigest, hfed, file, hf, ha.artifact ▸ (hholds.binding file hf).1⟩
  have htail : ∀ w', Spec (fun t => Published host N d s'.fed w' t.state) (retain host w)
      (fun bytes t => Good host N t.state ∧ ∃ w, Finished host s' w bytes) (Halts host N left) := fun w' =>
    (retain_spec left ha.artifact).weaken (fun _ h => h) (fun bytes _ h => ⟨h.1, w, hfinished bytes h.2⟩) fun _ _ h => h
  cases hc : w.completed with
  | true =>
    show Spec _ (if (!true) = true then _ else retain host w) _ _
    rw [if_neg (by simp)]
    refine (htail w).pre fun t ht => ?_
    rw [ht]
    obtain ⟨hclosed, ho, hfinal⟩ := ha.done hc
    exact ⟨rfl, ⟨offs, torn, hholds⟩, hfinal, ha.binding, hw, ha.artifact, hc, hclosed, ho⟩
  | false =>
    obtain ⟨rfl, hwoffset, hhashed, hfinal, hdata, old, hold, hentry⟩ := ha.going hc
    have hstart : Writing host N d s'.fed offs old s'.fed.length w s' :=
      ⟨rfl, hholds, hdata, hfinal, ha.binding, hold, hentry, hw⟩
    have hgood : Good host N s' := ⟨d, offs, [], hholds, hactive⟩
    simp only [hc, Bool.false_eq_true, if_false] at hfile
    obtain rfl : (⟨s'.fed, s'.fed.length, true⟩ : File) = file := Option.some.inj (hdata.symm.trans hfile)
    have hpublish := hstart.publish ha.artifact (hoffset.trans (congrArg _ ha.artifact)) (ha.artifact ▸ hverify)
    show Spec _ (if (!false) = true then _ >>= fun _ => _ >>= fun _ => _ >>= fun _ => retain host w else _) _ _
    rw [if_pos (show (!false) = true from rfl)]
    refine Spec.bind (require_halts (I := fun t => t = s') fun _ h => h ▸ hgood) fun _ => ?_
    refine Spec.bind ((effect_halts (I := fun t => t = s') (J := fun t => t = { s' with disk := { s'.disk with
      data := none, final := s'.disk.data.map fun file => { file with entry := false } } })
      (fun _ h => h ▸ hstart.safe left) fun _ h => h ▸ rfl).pre fun _ h => h.1) fun _ => ?_
    refine Spec.bind (Q := fun _ t => Published host N d s'.fed { w with completed := true, isOpen := false } t.state)
      (Spec.update fun t ht => ?_) fun _ => htail _
    rw [ht]
    simp only [hw, Option.map_some]
    exact hpublish

/-! ## Runs -/

theorem good_step (hN : ∀ d, N d → Taken host d) (s : State) (e : Event F) (hs : Good host N s) (htears : ¬ Tears host s e)
    (hnamed : ∀ artifact budget left d, e = .prepare artifact budget left → descriptor artifact host.maxBytes = .ok d → N d) :
    Good host N (step host s e) := by
  cases e with
  | prepare artifact budget left =>
    exact prepare_good hN hs left budget (fun d hd => hnamed artifact budget left d rfl hd) htears
  | write offset data budget left => exact write_good hs left budget offset data
  | finish validator budget left => exact halts_good (finish_spec hs left validator) fun _ _ h => h.1
  | close => exact good_close hs
  | crash left => exact good_crash hs left

theorem good_run (hN : ∀ d, N d → Taken host d) {es : List (Event F)} (h : Along (step host) (fun s e => ¬ Tears host s e) start es)
    (hnamed : ∀ artifact budget left d, .prepare artifact budget left ∈ es → descriptor artifact host.maxBytes = .ok d → N d) :
    Good host N (exec (step host) start es) := by
  refine exec_inv_along (C := fun s e => ¬ Tears host s e ∧ e ∈ es) (fun s e hs hc => ?_) good_start (h.and_mem fun _ he => he)
  exact good_step hN s e hs hc.1 fun artifact budget left d he => hnamed artifact budget left d (he ▸ hc.2)

theorem json_value {d e : Descriptor} (hd : Taken host d) (he : Taken host e) (h : json host d.value = json host e.value) : d = e := by
  obtain ⟨fields, hfields, hdecode⟩ := decode_descriptor hd
  obtain ⟨fields', hfields', hdecode'⟩ := decode_descriptor he
  rw [h, hdecode', Except.ok.injEq] at hdecode
  have hsame : Value.same host.intOf (d.value : Value F) e.value = true := by
    rw [hfields, hfields', hdecode]
    exact decide_eq_true rfl
  exact value_same.mp hsame

/-- A host, with `sha256` as it is at no bytes. -/
def sampleHost : Host Empty where
  sha256.hexdigest _ := "e3b0c44298fc1c149afbf4c8996fb92427ae41e4649b934ca495991b7852b855"
  sha256.hex _ := by decide
  floats := noFloats
  intOf := Empty.elim
  maxBytes := 1024
  bounded := by decide

def sampleDescriptor : Descriptor :=
  ⟨"seed.zip", "zip", 0, "e3b0c44298fc1c149afbf4c8996fb92427ae41e4649b934ca495991b7852b855"⟩

def sampleArtifact : Value Empty := sampleDescriptor.value

theorem sample_taken : descriptor sampleArtifact sampleHost.maxBytes = .ok sampleDescriptor := by decide +kernel

/-- A prepared download, and a crash. -/
def interrupted : List (Event Empty) :=
  [.prepare sampleArtifact 8 ⟨true, none, none, none, none⟩, .crash ⟨true, none, none, none, none⟩]

end LocalHand.EvidenceWriter
