/-
Starts are once-only: in every reachable state of the journal, whatever calls
interleave and wherever crashes fall, a request's callback was invoked at most
once and after its intent was durable, and the intents accepted are apart.

A call's own step is the only one that writes its file, under the lock; every
other call keeps what it knows of the directory, because a durable file never
changes. An intent file cut short stays and makes every scan fail.
-/
import LocalHand.Observer.Scan
import LocalHand.Lib.Run
import Mathlib.Data.List.Nodup

namespace LocalHand.Observer

open PyJson ResultReader Machine
open Framing (Bytes)

variable {sha256 : Sha256}

/-! ## The invariant -/

/-- The request's intent is on disk, whole and synced. -/
def Durable (sha256 : Sha256) (dir : Dir) (b : Binding) : Prop :=
  ∃ v, bindingValue sha256 b = .ok v ∧ (fileName b.requestId .intent, ⟨encode v, true⟩) ∈ dir

/-- A file of that intent's name holds a start of it. -/
def Stored (sha256 : Sha256) (dir : Dir) (v : Json) : Prop :=
  ∃ b file, bindingValue sha256 b = .ok v ∧ (fileName b.requestId .intent, file) ∈ dir ∧ file.bytes <+: encode v

/-- Names are unique, and an intent file holds a start of an intent of its
request: all of it, once synced. -/
structure DirOk (sha256 : Sha256) (dir : Dir) : Prop where
  names : (dir.map (·.1)).Nodup
  files : ∀ name file id, (name, file) ∈ dir → recordName name = some (id, .intent) →
    ∃ b v, bindingValue sha256 b = .ok v ∧ b.requestId = id ∧ file.bytes <+: encode v ∧
      (file.durable = true → file.bytes = encode v)

def requests (launched : List (Nat × Binding)) : List String := launched.map (·.2.requestId)

structure LogsOk (sha256 : Sha256) (s : State) : Prop where
  once : (requests s.launched).Nodup
  launched : ∀ e ∈ s.launched, Durable sha256 s.dir e.2
  created : ∀ v ∈ s.created, ∃ b, bindingValue sha256 b = .ok v ∧ (fileName b.requestId .intent, ⟨encode v, true⟩) ∈ s.dir
  createdApart : s.created.Pairwise Apart
  accepted : s.lost = [] → ∀ v ∈ s.accepted, Stored sha256 s.dir v
  acceptedApart : s.lost = [] → ∀ v ∈ s.accepted, ∀ w ∈ s.accepted, v ≠ w → Apart v w

/-- No intent accepted so far stands in the way of a new one. -/
structure Fresh (s : State) (v : Json) : Prop where
  created : ∀ w ∈ s.created, Apart w v
  accepted : s.lost = [] → ∀ w ∈ s.accepted, Apart w v

/-- What a call may be creating: its intent, or another file of its request. -/
def Creating (sha256 : Sha256) (s : State) (b : Binding) (name : String) (v : Json) : Option Delivery → Prop
  | none => name = fileName b.requestId .intent ∧ bindingValue sha256 b = .ok v ∧ Fresh s v
  | some _ => ∃ kind, kind ≠ .intent ∧ recordName name = some (b.requestId, kind)

def OnDisk (dir : Dir) (name : String) (v : Json) : Stage → Prop
  | .opening => True
  | .writing => (name, ⟨[], false⟩) ∈ dir
  | .syncing | .linking => (name, ⟨encode v, false⟩) ∈ dir

def CallOk (sha256 : Sha256) (s : State) (id : Nat) (c : Call) : Prop :=
  match c.point with
  | .calling | .checked => True
  | .holding | .leaving (.error _) | .leaving (.ok (some _)) => s.lock = some id
  | .creating name v delivery stage =>
    s.lock = some id ∧ Creating sha256 s c.binding name v delivery ∧ OnDisk s.dir name v stage
  | .leaving (.ok none) => s.lock = some id ∧ Durable sha256 s.dir c.binding
  | .between | .delivering => Durable sha256 s.dir c.binding

/-- The call is on its way to its callback. -/
def Call.Licensed (c : Call) : Prop := c.point = .leaving (.ok none) ∨ c.point = .between

structure CallsOk (sha256 : Sha256) (s : State) : Prop where
  new : ∀ id, s.next ≤ id → s.calls id = none
  idle : s.live = false → ∀ id, s.calls id = none
  ok : ∀ id c, s.calls id = some c → CallOk sha256 s id c
  licence : ∀ id c, s.calls id = some c → c.Licensed → c.binding.requestId ∉ requests s.launched
  unique : ∀ i j c d, s.calls i = some c → s.calls j = some d → c.Licensed → d.Licensed →
    c.binding.requestId = d.binding.requestId → i = j

structure Inv (sha256 : Sha256) (s : State) : Prop where
  dir : DirOk sha256 s.dir
  logs : LogsOk sha256 s
  calls : CallsOk sha256 s

/-! ## The directory -/

theorem DirOk.file_unique {dir : Dir} (h : DirOk sha256 dir) {name : String} {f g : File} (hf : (name, f) ∈ dir)
    (hg : (name, g) ∈ dir) : f = g := by
  have := List.inj_on_of_nodup_map h.names hf hg rfl
  exact (Prod.mk.inj this).2

theorem mem_replaceFile {dir : Dir} {name n : String} {file f : File} (h : (n, f) ∈ replaceFile name file dir) :
    (n = name ∧ f = file) ∨ ((n, f) ∈ dir ∧ n ≠ name) := by
  obtain ⟨e, he, heq⟩ := List.mem_map.mp h
  split at heq
  · cases heq
    exact .inl ⟨rfl, rfl⟩
  · next hne =>
    cases heq
    exact .inr ⟨he, hne⟩

theorem replaceFile_self {dir : Dir} {name : String} {file f : File} (h : (name, f) ∈ dir) :
    (name, file) ∈ replaceFile name file dir :=
  List.mem_map.mpr ⟨(name, f), h, if_pos rfl⟩

theorem replaceFile_other {dir : Dir} {name n : String} {file f : File} (h : (n, f) ∈ dir) (hne : n ≠ name) :
    (n, f) ∈ replaceFile name file dir :=
  List.mem_map.mpr ⟨(n, f), h, if_neg hne⟩

theorem names_replaceFile (name : String) (file : File) (dir : Dir) :
    (replaceFile name file dir).map (·.1) = dir.map (·.1) := by
  rw [replaceFile, List.map_map]
  refine List.map_congr_left fun e _ => ?_
  by_cases h : e.1 = name
  · simp [h]
  · simp [h]

/-- A file of an intent's name gets a start of that intent. -/
theorem DirOk.replaceFile {dir : Dir} (h : DirOk sha256 dir) {name : String} {file : File}
    (hfile : ∀ id, recordName name = some (id, .intent) → ∃ b v, bindingValue sha256 b = .ok v ∧ b.requestId = id ∧
      file.bytes <+: encode v ∧ (file.durable = true → file.bytes = encode v)) : DirOk sha256 (replaceFile name file dir) := by
  refine ⟨(names_replaceFile name file dir).symm ▸ h.names, fun n f id hmem hrecord => ?_⟩
  rcases mem_replaceFile hmem with ⟨rfl, rfl⟩ | ⟨hold, -⟩
  · exact hfile id hrecord
  · exact h.files n f id hold hrecord

theorem fileName_ne {b b' : Binding} {v v' : Json} (h : bindingValue sha256 b = .ok v) (h' : bindingValue sha256 b' = .ok v')
    (hne : item v "request_id" ≠ item v' "request_id") : fileName b.requestId .intent ≠ fileName b'.requestId .intent := by
  intro heq
  have hi := bindingValue_ok h
  have hi' := bindingValue_ok h'
  have hrecord := recordName_fileName .intent hi.request
  rw [heq, recordName_fileName .intent hi'.request, Option.some.injEq, Prod.mk.injEq] at hrecord
  refine hne ?_
  rw [hi.value, hi'.value]
  exact congrArg Value.str hrecord.1.symm

/-- Every synced file is still there. -/
def KeepsDurable (dir dir' : Dir) : Prop := ∀ e ∈ dir, e.2.durable = true → e ∈ dir'

theorem Durable.keep {dir dir' : Dir} {b : Binding} (h : Durable sha256 dir b) (hk : KeepsDurable dir dir') :
    Durable sha256 dir' b := by
  obtain ⟨v, hv, hmem⟩ := h
  exact ⟨v, hv, hk _ hmem rfl⟩

/-- The logs stay right in a directory that keeps what they speak of. -/
theorem LogsOk.keep {s s' : State} (h : LogsOk sha256 s) (hk : KeepsDurable s.dir s'.dir)
    (hstored : s'.lost = [] → s.lost = [] ∧ ∀ v ∈ s.accepted, Stored sha256 s.dir v → Stored sha256 s'.dir v)
    (hlaunched : s'.launched = s.launched) (hcreated : s'.created = s.created) (haccepted : s'.accepted = s.accepted) :
    LogsOk sha256 s' := by
  refine ⟨hlaunched ▸ h.once, fun e he => ?_, fun v hv => ?_, hcreated ▸ h.createdApart, fun hlost v hv => ?_,
    fun hlost v hv w hw => ?_⟩
  · exact (h.launched e (hlaunched ▸ he)).keep hk
  · obtain ⟨b, hb, hmem⟩ := h.created v (hcreated ▸ hv)
    exact ⟨b, hb, hk _ hmem rfl⟩
  · rw [haccepted] at hv
    exact (hstored hlost).2 v hv (h.accepted (hstored hlost).1 v hv)
  · rw [haccepted] at hv hw
    exact h.acceptedApart (hstored hlost).1 v hv w hw

section Creating

variable {s : State} {b : Binding} {name : String} {v : Json} {delivery : Option Delivery}

theorem Creating.congr {s' : State} (h : Creating sha256 s b name v delivery) (hcreated : s'.created = s.created)
    (haccepted : s'.accepted = s.accepted) (hlost : s'.lost = s.lost) : Creating sha256 s' b name v delivery := by
  cases delivery with
  | none =>
    obtain ⟨hname, hv, hfresh⟩ := h
    exact ⟨hname, hv, hcreated ▸ hfresh.created, by rw [hlost, haccepted]; exact hfresh.accepted⟩
  | some d => exact h

/-- The file being created is no accepted intent's. -/
theorem Creating.other (h : Creating sha256 s b name v delivery) (hlost : s.lost = []) {w : Json} (hw : w ∈ s.accepted)
    {b' : Binding} (hb : bindingValue sha256 b' = .ok w) : fileName b'.requestId .intent ≠ name := by
  cases delivery with
  | none =>
    obtain ⟨rfl, hv, hfresh⟩ := h
    exact fileName_ne hb hv (hfresh.accepted hlost w hw).request
  | some d =>
    obtain ⟨kind, hkind, hrecord⟩ := h
    rintro rfl
    rw [recordName_fileName .intent (bindingValue_ok hb).request, Option.some.injEq, Prod.mk.injEq] at hrecord
    exact hkind hrecord.2.symm

/-- What it may hold on the way. -/
theorem Creating.file (h : Creating sha256 s b name v delivery) (file : File) (hstart : file.bytes <+: encode v)
    (hwhole : file.durable = true → file.bytes = encode v) (id : String) (hrecord : recordName name = some (id, .intent)) :
    ∃ b v, bindingValue sha256 b = .ok v ∧ b.requestId = id ∧ file.bytes <+: encode v ∧
      (file.durable = true → file.bytes = encode v) := by
  cases delivery with
  | none =>
    obtain ⟨rfl, hv, -⟩ := h
    rw [recordName_fileName .intent (bindingValue_ok hv).request, Option.some.injEq, Prod.mk.injEq] at hrecord
    exact ⟨b, v, hv, hrecord.1, hstart, hwhole⟩
  | some d =>
    obtain ⟨kind, hkind, hrecord'⟩ := h
    rw [hrecord', Option.some.injEq, Prod.mk.injEq] at hrecord
    exact absurd hrecord.2 hkind

/-- The call that creates a file writes to it. -/
theorem replace_keeps (hd : DirOk sha256 s.dir) {old : File} (hold : (name, old) ∈ s.dir) (hopen : old.durable = false)
    (file : File) : KeepsDurable s.dir (replaceFile name file s.dir) := by
  rintro ⟨n, f⟩ he hf
  refine replaceFile_other he ?_
  rintro rfl
  have heq := hd.file_unique he hold
  subst heq
  exact absurd (hf.symm.trans hopen) (by decide)

theorem replace_stored (h : Creating sha256 s b name v delivery) (file : File) (hlost : s.lost = []) :
    ∀ w ∈ s.accepted, Stored sha256 s.dir w → Stored sha256 (replaceFile name file s.dir) w := by
  rintro w hw ⟨b', f, hb, hmem, hp⟩
  exact ⟨b', f, hb, replaceFile_other hmem (h.other hlost hw hb), hp⟩

end Creating

/-! ## What a call keeps while another steps -/

/-- The step of one call, as another sees it: synced files stay, and while the
other holds the lock nothing it goes by changes. -/
structure Keeps (s s' : State) (j : Nat) : Prop where
  durable : KeepsDurable s.dir s'.dir
  held : s.lock = some j → s'.lock = some j ∧ s'.dir = s.dir ∧ s'.created = s.created ∧ s'.accepted = s.accepted ∧ s'.lost = s.lost

theorem CallOk.keep {s s' : State} {j : Nat} {c : Call} (h : CallOk sha256 s j c) (hk : Keeps s s' j) : CallOk sha256 s' j c := by
  unfold CallOk at h ⊢
  split at h
  · trivial
  · trivial
  · exact (hk.held h).1
  · exact (hk.held h).1
  · exact (hk.held h).1
  · next name v delivery stage _ =>
    obtain ⟨hlock, hcreating, hdisk⟩ := h
    obtain ⟨hlock', hdir, hcreated, haccepted, hlost⟩ := hk.held hlock
    exact ⟨hlock', hcreating.congr hcreated haccepted hlost, hdir ▸ hdisk⟩
  · exact ⟨(hk.held h.1).1, h.2.keep hk.durable⟩
  · exact h.keep hk.durable
  · exact h.keep hk.durable

/-- A step that changes one call: the others keep what they know. -/
theorem CallsOk.move {s s' : State} {id : Nat} {o : Option Call} (h : CallsOk sha256 s)
    (hcalls : s'.calls = Function.update s.calls id o) (hnext : s.next ≤ s'.next) (hid : id < s'.next)
    (hlive : s'.live = true) (hlaunched : s'.launched = s.launched) (hkeeps : ∀ j, j ≠ id → Keeps s s' j)
    (hok : ∀ c, o = some c → CallOk sha256 s' id c)
    (hlicence : ∀ c, o = some c → c.Licensed → c.binding.requestId ∉ requests s.launched ∧
      ∀ j d, j ≠ id → s.calls j = some d → d.Licensed → d.binding.requestId ≠ c.binding.requestId) :
    CallsOk sha256 s' := by
  have hother : ∀ j, j ≠ id → s'.calls j = s.calls j := fun j hj => by rw [hcalls, Function.update_of_ne hj]
  have hself : s'.calls id = o := by rw [hcalls, Function.update_self]
  refine ⟨fun j hj => ?_, fun hdead => ?_, fun j c hc => ?_, fun j c hc hl => ?_, fun i j c d hc hd hlc hld heq => ?_⟩
  · rw [hother j (by omega)]
    exact h.new j (by omega)
  · rw [hlive] at hdead
    cases hdead
  · by_cases hj : j = id
    · subst hj
      exact hok c (hself ▸ hc)
    · exact (h.ok j c (hother j hj ▸ hc)).keep (hkeeps j hj)
  · rw [hlaunched]
    by_cases hj : j = id
    · subst hj
      exact (hlicence c (hself ▸ hc) hl).1
    · exact h.licence j c (hother j hj ▸ hc) hl
  · by_cases hi : i = id <;> by_cases hj : j = id
    · rw [hi, hj]
    · subst hi
      exact absurd heq.symm ((hlicence c (hself ▸ hc) hlc).2 j d hj (hother j hj ▸ hd) hld)
    · subst hj
      exact absurd heq ((hlicence d (hself ▸ hd) hld).2 i c hi (hother i hi ▸ hc) hlc)
    · exact h.unique i j c d (hother i hi ▸ hc) (hother j hj ▸ hd) hlc hld heq

theorem Inv.alive {s : State} (h : Inv sha256 s) {id : Nat} {c : Call} (hc : s.calls id = some c) :
    s.live = true ∧ id < s.next := by
  constructor
  · cases hlive : s.live with
    | true => rfl
    | false => simp [h.calls.idle hlive id] at hc
  · by_contra hlt
    simp [h.calls.new id (by omega)] at hc

/-- A step that leaves the directory and the logs alone. -/
structure Quiet (s s' : State) (id : Nat) : Prop where
  dir : s'.dir = s.dir
  live : s'.live = s.live
  next : s'.next = s.next
  launched : s'.launched = s.launched
  created : s'.created = s.created
  accepted : s'.accepted = s.accepted
  lost : s'.lost = s.lost
  lock : ∀ j, j ≠ id → s.lock = some j → s'.lock = some j

theorem Quiet.logs {s s' : State} {id : Nat} (hq : Quiet s s' id) (h : LogsOk sha256 s) : LogsOk sha256 s' :=
  h.keep (fun _ he _ => hq.dir ▸ he) (fun hlost => ⟨hq.lost ▸ hlost, fun _ _ hs => hq.dir ▸ hs⟩) hq.launched hq.created hq.accepted

theorem Inv.quiet {s s' : State} (h : Inv sha256 s) {id : Nat} {c : Call} {o : Option Call} (hc : s.calls id = some c)
    (hcalls : s'.calls = Function.update s.calls id o) (hq : Quiet s s' id) (hok : ∀ d, o = some d → CallOk sha256 s' id d)
    (hlicence : ∀ d, o = some d → d.Licensed → c.Licensed ∧ d.binding = c.binding) : Inv sha256 s' := by
  obtain ⟨hlive, hid⟩ := h.alive hc
  refine ⟨hq.dir ▸ h.dir, hq.logs h.logs, h.calls.move hcalls hq.next.ge (hq.next ▸ hid) (hq.live.trans hlive) hq.launched
    (fun j hj => ⟨fun e he _ => hq.dir ▸ he, fun hl => ⟨hq.lock j hj hl, hq.dir, hq.created, hq.accepted, hq.lost⟩⟩) hok ?_⟩
  intro d hd hl
  obtain ⟨hcl, hb⟩ := hlicence d hd hl
  rw [hb]
  refine ⟨h.calls.licence id c hc hcl, fun j d' hj hd' hl' heq => hj ?_⟩
  exact h.calls.unique j id d' c hd' hc hl' hcl heq

/-- The call is over. -/
theorem Inv.done {s s' : State} (h : Inv sha256 s) {id : Nat} {c : Call} (hc : s.calls id = some c)
    (hcalls : s'.calls = Function.update s.calls id none) (hq : Quiet s s' id) : Inv sha256 s' :=
  h.quiet hc hcalls hq (by simp) (by simp)

/-- A step of the call that holds the lock. -/
theorem Inv.hold {s s' : State} (h : Inv sha256 s) {id : Nat} {c d : Call} (hc : s.calls id = some c)
    (hlock : s.lock = some id) (hdir : DirOk sha256 s'.dir) (hlogs : LogsOk sha256 s') (hk : KeepsDurable s.dir s'.dir)
    (hcalls : s'.calls = Function.update s.calls id (some d)) (hnext : s'.next = s.next) (hlive : s'.live = s.live)
    (hlaunched : s'.launched = s.launched) (hok : CallOk sha256 s' id d)
    (hlicence : d.Licensed → d.binding.requestId ∉ requests s.launched ∧
      ∀ j d', j ≠ id → s.calls j = some d' → d'.Licensed → d'.binding.requestId ≠ d.binding.requestId) : Inv sha256 s' := by
  obtain ⟨hlive', hid⟩ := h.alive hc
  refine ⟨hdir, hlogs, h.calls.move hcalls hnext.ge (hnext ▸ hid) (hlive.trans hlive') hlaunched ?_ ?_ ?_⟩
  · intro j hj
    refine ⟨hk, fun hl => ?_⟩
    rw [hlock] at hl
    exact absurd (Option.some.inj hl).symm hj
  · rintro _ ⟨⟩
    exact hok
  · rintro _ ⟨⟩
    exact hlicence

variable {s : State} {id : Nat} {c : Call}

theorem enter_inv (h : Inv sha256 s) (hc : s.calls id = some c) : Inv sha256 (enter s id c) := by
  unfold enter
  split
  · split
    · exact h.done hc rfl ⟨rfl, rfl, rfl, rfl, rfl, rfl, rfl, fun _ _ hl => hl⟩
    · refine h.quiet hc rfl ⟨rfl, rfl, rfl, rfl, rfl, rfl, rfl, fun _ _ hl => hl⟩ ?_ ?_
      · rintro _ ⟨⟩
        trivial
      · rintro _ ⟨⟩ (hl | hl) <;> cases hl
  · exact h

theorem acquire_inv (h : Inv sha256 s) (hc : s.calls id = some c) (raised : Option Fault) :
    Inv sha256 (acquire s id c raised) := by
  unfold acquire
  split
  · split
    · exact h.done hc rfl ⟨rfl, rfl, rfl, rfl, rfl, rfl, rfl, fun _ _ hl => hl⟩
    · next hfree =>
      have hq : ∀ d, Quiet s (State.put { s with lock := some id } id d) id := fun d =>
        ⟨rfl, rfl, rfl, rfl, rfl, rfl, rfl, fun j _ hl => by simp [hfree] at hl⟩
      split
      · refine h.quiet hc rfl (hq _) ?_ ?_
        · rintro _ ⟨⟩
          rfl
        · rintro _ ⟨⟩ (hl | hl) <;> cases hl
      · refine h.quiet hc rfl (hq _) ?_ ?_
        · rintro _ ⟨⟩
          rfl
        · rintro _ ⟨⟩ (hl | hl) <;> cases hl
  · exact h

/-! ## The scan under the lock -/

/-- What a scan returns is what was accepted, and what the directory holds. -/
theorem scan_accepts (h : Inv sha256 s) {grouped : Groups} (hscan : scan sha256 s.dir = .ok grouped) :
    (∀ v ∈ intents grouped, Stored sha256 s.dir v) ∧ (∀ v ∈ s.created, v ∈ intents grouped) ∧
      (s.lost = [] → ∀ v ∈ s.accepted, v ∈ intents grouped) := by
  have hs := scan_ok h.dir.names hscan
  have hfind : ∀ v, Stored sha256 s.dir v → v ∈ intents grouped := by
    rintro v ⟨b, file, hb, hmem, hstart⟩
    have hi := bindingValue_ok hb
    obtain ⟨files, w, hgroup, hintent, hread⟩ := hs.complete b.requestId file hmem (recordName_fileName .intent hi.request)
    rw [← (hi.readFile hstart hread).2]
    exact mem_intents.mpr ⟨_, hgroup, hintent⟩
  refine ⟨fun v hv => ?_, fun v hv => ?_, fun hlost v hv => hfind v (h.logs.accepted hlost v hv)⟩
  · obtain ⟨g, hg, hintent⟩ := mem_intents.mp hv
    obtain ⟨file, hmem, hrecord, hread⟩ := hs.sound g hg v hintent
    obtain ⟨b, w, hb, hid, hstart, -⟩ := h.dir.files _ file g.1 hmem hrecord
    obtain ⟨-, rfl⟩ := (bindingValue_ok hb).readFile hstart hread
    exact ⟨b, file, hb, hid ▸ hmem, hstart⟩
  · obtain ⟨b, hb, hmem⟩ := h.logs.created v hv
    exact hfind v ⟨b, _, hb, hmem, List.prefix_rfl⟩

/-- The logs with the scanned intents. -/
theorem logs_scan (h : Inv sha256 s) {grouped : Groups} (hscan : scan sha256 s.dir = .ok grouped) {s' : State}
    (hdir : s'.dir = s.dir) (hlaunched : s'.launched = s.launched) (hcreated : s'.created = s.created)
    (hlost : s'.lost = s.lost) (haccepted : s'.accepted = s.accepted ++ intents grouped) : LogsOk sha256 s' := by
  obtain ⟨hstored, -, hall⟩ := scan_accepts h hscan
  have hmem : s.lost = [] → ∀ v ∈ s'.accepted, v ∈ intents grouped := by
    intro hl v hv
    rw [haccepted] at hv
    exact (List.mem_append.mp hv).elim (hall hl v) id
  refine ⟨hlaunched ▸ h.logs.once, ?_, ?_, hcreated ▸ h.logs.createdApart, fun hl v hv => ?_, fun hl v hv w hw => ?_⟩
  · rw [hlaunched, hdir]
    exact h.logs.launched
  · rw [hcreated, hdir]
    exact h.logs.created
  · rw [hdir]
    exact hstored v (hmem (hlost ▸ hl) v hv)
  · exact (scan_ok h.dir.names hscan).apart v (hmem (hlost ▸ hl) v hv) w (hmem (hlost ▸ hl) w hw)

theorem existing_ok {grouped : Groups} {b : Binding} {out : Option Files} (h : existing sha256 grouped b = .ok out) :
    ∃ v, bindingValue sha256 b = .ok v ∧
      match out with
      | none => grouped.lookup b.requestId = none
      | some files => files.intent = some v := by
  simp only [existing, bind_ok] at h
  obtain ⟨v, hv, h⟩ := h
  refine ⟨v, hv, ?_⟩
  split at h
  · next hnone =>
    cases h
    exact hnone
  · simp only [bind_ok, require_ok, exists_unit, decide_eq_true_eq, pure, Except.pure, Except.ok.injEq] at h
    obtain ⟨hfiles, rfl⟩ := h
    exact hfiles

/-- What is created after a scan: an observation of the request, or its intent,
which is apart from all that were scanned. -/
theorem body_create {dir : Dir} {grouped : Groups} (hs : Scanned dir grouped) {b : Binding} {purpose : Purpose}
    {moment : Moment} {name : String} {v : Json} {delivery : Option Delivery}
    (h : body sha256 b purpose moment grouped = .ok (.create name v delivery)) :
    match delivery with
    | none => name = fileName b.requestId .intent ∧ bindingValue sha256 b = .ok v ∧ ∀ w ∈ intents grouped, Apart w v
    | some _ => ∃ kind, kind ≠ .intent ∧ recordName name = some (b.requestId, kind) := by
  have hremember : ∀ kind word, rememberBody sha256 b kind word grouped = .ok (.create name v delivery) →
      ∃ d, delivery = some d ∧ ∃ kind, kind ≠ .intent ∧ recordName name = some (b.requestId, kind) := by
    intro kind word h
    simp only [rememberBody, bind_ok] at h
    obtain ⟨out, hout, h⟩ := h
    obtain ⟨v', hv', hfiles⟩ := existing_ok hout
    cases out with
    | none => cases h
    | some files =>
      dsimp only at h
      split at h
      · simp only [bind_ok, require_ok, exists_unit, pure, Except.pure, Except.ok.injEq, reduceCtorEq, and_false] at h
      · next hnone =>
        cases h
        refine ⟨_, rfl, kind, ?_, recordName_fileName kind (bindingValue_ok hv').request⟩
        rintro rfl
        cases hfiles.symm.trans hnone
  have hanswer {f : Option Files → Except Fault Body} (hf : ∀ out, f out ≠ .ok (.create name v delivery)) :
      (existing sha256 grouped b >>= f) ≠ .ok (.create name v delivery) := by
    intro h
    obtain ⟨out, -, h⟩ := bind_ok.mp h
    exact hf out h
  cases purpose with
  | deliver =>
    simp only [body, bind_ok] at h
    obtain ⟨value, hvalue, out, hout, h⟩ := h
    cases out with
    | some files => cases h
    | none =>
      simp only [bind_ok, require_ok, exists_unit, pure, Except.pure, Except.ok.injEq, Body.create.injEq,
        List.all_eq_true, decide_eq_true_eq, Bool.not_eq_true', List.contains_eq_mem, decide_eq_false_iff_not] at h
      obtain ⟨-, hallocation, hresources, -, rfl, rfl, rfl⟩ := h
      obtain ⟨v', hv', hlookup⟩ := existing_ok hout
      refine ⟨rfl, hvalue, fun w hw => ?_⟩
      obtain ⟨g, hg, hintent⟩ := mem_intents.mp hw
      obtain ⟨w', hw', hrequest⟩ := hs.whole g hg
      obtain rfl : w' = w := Option.some.inj (hw'.symm.trans hintent)
      have hval := (bindingValue_ok hvalue).value
      have hget : g.2.intent.getD .null = w' := by rw [hintent, Option.getD_some]
      refine apart_of_resources ?_ ?_ ?_
      · rw [hrequest, hval]
        intro heq
        have hkey : g.1 = b.requestId := Value.str.inj heq
        have hfound := lookup_of_mem hs.keys (show (g.1, g.2) ∈ grouped from hg)
        rw [hkey, hlookup] at hfound
        cases hfound
      · have := hallocation g hg
        rw [hget] at this
        rw [hval]
        exact this
      · have := hresources g hg
        rwa [hget] at this
  | confirm => exact absurd h (hanswer fun out heq => by cases out <;> cases heq)
  | read => exact absurd h (hanswer fun out heq => by cases out <;> cases heq)
  | remember kind word =>
    obtain ⟨d, rfl, hkind⟩ := hremember kind word h
    exact hkind
  | mark raised =>
    obtain ⟨d, rfl, hkind⟩ := hremember .unknown "DELIVERY_UNCERTAIN" h
    exact hkind

/-! ## Every step -/

/-- A call the steps below find at a point of `creating` holds the lock. -/
theorem Inv.creating (h : Inv sha256 s) (hc : s.calls id = some c) {name : String} {v : Json} {delivery : Option Delivery}
    {stage : Stage} (hpoint : c.point = .creating name v delivery stage) :
    s.lock = some id ∧ Creating sha256 s c.binding name v delivery ∧ OnDisk s.dir name v stage := by
  have := h.calls.ok id c hc
  rw [CallOk, hpoint] at this
  exact this

/-- The call that holds the lock leaves it with a fault. -/
theorem Inv.fail {s' : State} (h : Inv sha256 s) (hc : s.calls id = some c) (hlock : s.lock = some id)
    (hdir : DirOk sha256 s'.dir) (hlogs : LogsOk sha256 s') (hk : KeepsDurable s.dir s'.dir) {e : Fault}
    (hcalls : s'.calls = Function.update s.calls id (some { c with point := .leaving (.error e) }))
    (hnext : s'.next = s.next) (hlive : s'.live = s.live) (hlaunched : s'.launched = s.launched) (hlock' : s'.lock = s.lock) :
    Inv sha256 s' := by
  refine h.hold hc hlock hdir hlogs hk hcalls hnext hlive hlaunched (hlock'.trans hlock) ?_
  rintro (hl | hl) <;> cases hl

theorem spoil_inv (h : Inv sha256 s) (hc : s.calls id = some c) (hlock : s.lock = some id) (e : Fault) :
    Inv sha256 (s.spoil id c e) := by
  refine h.fail hc hlock h.dir (h.logs.keep (fun _ he _ => he) (fun hl => ⟨hl, fun _ _ hs => hs⟩) rfl rfl rfl)
    (fun _ he _ => he) rfl rfl rfl rfl rfl

theorem inspect_inv (h : Inv sha256 s) (hc : s.calls id = some c) (moment : Moment) (raised : Option Fault) :
    Inv sha256 (inspect sha256 s id c moment raised) := by
  unfold inspect
  split
  case h_2 => exact h
  next hpoint =>
  have hlock : s.lock = some id := by
    have := h.calls.ok id c hc
    rwa [CallOk, hpoint] at this
  have hsame : ∀ d, LogsOk sha256 (s.put id d) := fun d =>
    h.logs.keep (fun _ he _ => he) (fun hl => ⟨hl, fun _ _ hs => hs⟩) rfl rfl rfl
  split
  · exact h.fail hc hlock h.dir (hsame _) (fun _ he _ => he) rfl rfl rfl rfl rfl
  · exact h.fail hc hlock h.dir (hsame _) (fun _ he _ => he) rfl rfl rfl rfl rfl
  next grouped hscan =>
  have hlogs : ∀ d, LogsOk sha256 (State.put { s with accepted := s.accepted ++ intents grouped } id d) := fun d =>
    logs_scan h hscan rfl rfl rfl rfl rfl
  dsimp only
  split
  · exact h.fail hc hlock h.dir (hlogs _) (fun _ he _ => he) rfl rfl rfl rfl rfl
  · refine h.hold hc hlock h.dir (hlogs _) (fun _ he _ => he) rfl rfl rfl rfl hlock ?_
    rintro (hl | hl) <;> cases hl
  next name v delivery hbody =>
  split
  · refine h.hold hc hlock h.dir (hlogs _) (fun _ he _ => he) rfl rfl rfl rfl ⟨hlock, ?_, trivial⟩ ?_
    · have hcreate := body_create (scan_ok h.dir.names hscan) hbody
      cases delivery with
      | some d => exact hcreate
      | none =>
        obtain ⟨hname, hv, hapart⟩ := hcreate
        obtain ⟨-, hcreated, haccepted⟩ := scan_accepts h hscan
        refine ⟨hname, hv, fun w hw => hapart w (hcreated w hw), fun hlost w hw => hapart w ?_⟩
        exact (List.mem_append.mp hw).elim (haccepted hlost w) (·)
    · rintro (hl | hl) <;> cases hl
  · exact h.fail hc hlock h.dir (hlogs _) (fun _ he _ => he) rfl rfl rfl rfl rfl

/-- The new, empty file. -/
theorem DirOk.create {dir : Dir} (h : DirOk sha256 dir) {name : String} (hnew : name ∉ dir.map (·.1))
    (hfile : ∀ id, recordName name = some (id, .intent) → ∃ b v, bindingValue sha256 b = .ok v ∧ b.requestId = id) :
    DirOk sha256 (dir ++ [(name, ⟨[], false⟩)]) := by
  refine ⟨?_, fun n f id hmem hrecord => ?_⟩
  · rw [List.map_append, List.nodup_append]
    exact ⟨h.names, by simp, by simpa using fun a f hf hn => hnew (List.mem_map.mpr ⟨(a, f), hf, hn⟩)⟩
  · rcases List.mem_append.mp hmem with hold | hlast
    · exact h.files n f id hold hrecord
    · cases List.mem_singleton.mp hlast
      obtain ⟨b, v, hb, hid⟩ := hfile id hrecord
      exact ⟨b, v, hb, hid, List.nil_prefix, nofun⟩

theorem openFile_inv (h : Inv sha256 s) (hc : s.calls id = some c) (made : Bool) (raised : Option Fault) :
    Inv sha256 (openFile s id c made raised) := by
  unfold openFile
  split
  case h_2 => exact h
  next name v delivery hpoint =>
  obtain ⟨hlock, hcreating, -⟩ := h.creating hc hpoint
  split
  · exact spoil_inv h hc hlock .os
  next hnew =>
  have hnew : name ∉ s.dir.map (·.1) := by
    rintro hmem
    obtain ⟨e, he, rfl⟩ := List.mem_map.mp hmem
    exact hnew (List.any_eq_true.mpr ⟨e, he, decide_eq_true rfl⟩)
  have hdir := h.dir.create hnew fun i hrecord => by
    obtain ⟨b, v, hb, hid, -⟩ := hcreating.file ⟨[], false⟩ List.nil_prefix nofun i hrecord
    exact ⟨b, v, hb, hid⟩
  have hk : KeepsDurable s.dir (s.dir ++ [(name, ⟨[], false⟩)]) := fun e he _ => List.mem_append_left _ he
  have hlogs : ∀ s' : State, s'.dir = s.dir ++ [(name, ⟨[], false⟩)] → s'.lost = s.lost → s'.launched = s.launched →
      s'.created = s.created → s'.accepted = s.accepted → LogsOk sha256 s' := by
    intro s' hd hlost hl hcr ha
    refine h.logs.keep (hd ▸ hk) (fun hl' => ⟨hlost ▸ hl', ?_⟩) hl hcr ha
    rintro w - ⟨b, file, hb, hmem, hp⟩
    exact ⟨b, file, hb, hd ▸ List.mem_append_left _ hmem, hp⟩
  dsimp only
  split
  · split
    · exact h.fail hc hlock hdir (hlogs _ rfl rfl rfl rfl rfl) hk rfl rfl rfl rfl rfl
    · exact spoil_inv h hc hlock _
  · refine h.hold hc hlock hdir (hlogs _ rfl rfl rfl rfl rfl) hk rfl rfl rfl rfl ⟨hlock, hcreating.congr rfl rfl rfl, ?_⟩ ?_
    · exact List.mem_append_right _ (List.mem_singleton_self _)
    · rintro (hl | hl) <;> cases hl

/-- The file of a creating call, written: the directory and the logs. -/
theorem replace_ok (h : Inv sha256 s) {b : Binding} {name : String} {v : Json} {delivery : Option Delivery}
    (hcreating : Creating sha256 s b name v delivery) {old : File} (hold : (name, old) ∈ s.dir)
    (hopen : old.durable = false) (file : File) (hstart : file.bytes <+: encode v) (hwhole : file.durable = true → file.bytes = encode v) :
    DirOk sha256 (replaceFile name file s.dir) ∧ KeepsDurable s.dir (replaceFile name file s.dir) ∧
      ∀ s' : State, s'.dir = replaceFile name file s.dir → s'.lost = s.lost → s'.launched = s.launched →
        s'.created = s.created → s'.accepted = s.accepted → LogsOk sha256 s' := by
  have hk := replace_keeps h.dir hold hopen file
  refine ⟨h.dir.replaceFile fun i hrecord => hcreating.file file hstart hwhole i hrecord, hk, ?_⟩
  intro s' hd hlost hl hcr ha
  refine h.logs.keep (hd ▸ hk) (fun hl' => ⟨hlost ▸ hl', fun w hw hs => ?_⟩) hl hcr ha
  rw [hd]
  exact replace_stored hcreating file (hlost ▸ hl') w hw hs

theorem writeFile_inv (h : Inv sha256 s) (hc : s.calls id = some c) (count : Nat) (raised : Option Fault) :
    Inv sha256 (writeFile s id c count raised) := by
  unfold writeFile
  split
  case h_2 => exact h
  next name v delivery hpoint =>
  obtain ⟨hlock, hcreating, hdisk⟩ := h.creating hc hpoint
  obtain ⟨hdir, hk, hlogs⟩ := replace_ok h hcreating hdisk rfl ⟨(encode v).take count, false⟩
    (List.take_prefix _ _) nofun
  dsimp only
  split
  · exact h.fail hc hlock hdir (hlogs _ rfl rfl rfl rfl rfl) hk rfl rfl rfl rfl rfl
  · split
    · next hlen =>
      refine h.hold hc hlock hdir (hlogs _ rfl rfl rfl rfl rfl) hk rfl rfl rfl rfl ⟨hlock, hcreating.congr rfl rfl rfl, ?_⟩ ?_
      · show (name, File.mk (encode v) false) ∈ replaceFile name _ s.dir
        rw [List.take_of_length_le hlen]
        exact replaceFile_self hdisk
      · rintro (hl | hl) <;> cases hl
    · exact h.fail hc hlock hdir (hlogs _ rfl rfl rfl rfl rfl) hk rfl rfl rfl rfl rfl

theorem syncFile_inv (h : Inv sha256 s) (hc : s.calls id = some c) (raised : Option Fault) :
    Inv sha256 (syncFile s id c raised) := by
  unfold syncFile
  split
  case h_2 => exact h
  next name v delivery hpoint =>
  obtain ⟨hlock, hcreating, hdisk⟩ := h.creating hc hpoint
  split
  · exact spoil_inv h hc hlock _
  · refine h.quiet hc rfl ⟨rfl, rfl, rfl, rfl, rfl, rfl, rfl, fun _ _ hl => hl⟩ ?_ ?_
    · rintro _ ⟨⟩
      exact ⟨hlock, hcreating.congr rfl rfl rfl, hdisk⟩
    · rintro _ ⟨⟩ (hl | hl) <;> cases hl

/-- The intent just created is no one's else. -/
theorem created_fresh (h : Inv sha256 s) {b : Binding} {v : Json} (_ : bindingValue sha256 b = .ok v)
    (hopen : (fileName b.requestId .intent, ⟨encode v, false⟩) ∈ s.dir) :
    b.requestId ∉ requests s.launched ∧
      ∀ j d, s.calls j = some d → d.Licensed → d.binding.requestId ≠ b.requestId := by
  have hno : ∀ b', Durable sha256 s.dir b' → b'.requestId ≠ b.requestId := by
    rintro b' ⟨v', -, hmem⟩ heq
    rw [heq] at hmem
    exact Bool.noConfusion (congrArg File.durable (h.dir.file_unique hmem hopen))
  refine ⟨fun hmem => ?_, fun j d hd hl => hno d.binding ?_⟩
  · obtain ⟨e, he, heq⟩ := List.mem_map.mp hmem
    exact hno e.2 (h.logs.launched e he) heq
  · have hok := h.calls.ok j d hd
    rcases hl with hl | hl <;> rw [CallOk, hl] at hok
    · exact hok.2
    · exact hok

theorem syncDirectory_inv (h : Inv sha256 s) (hc : s.calls id = some c) (raised : Option Fault) :
    Inv sha256 (syncDirectory s id c raised) := by
  unfold syncDirectory
  split
  case h_2 => exact h
  next name v delivery hpoint =>
  obtain ⟨hlock, hcreating, hdisk⟩ := h.creating hc hpoint
  split
  · exact spoil_inv h hc hlock _
  obtain ⟨hdir, hk, hlogs⟩ := replace_ok h hcreating hdisk rfl ⟨encode v, true⟩ List.prefix_rfl fun _ => rfl
  have hself : (name, File.mk (encode v) true) ∈ replaceFile name ⟨encode v, true⟩ s.dir := replaceFile_self hdisk
  cases delivery with
  | some d =>
    refine h.hold hc hlock hdir (hlogs _ rfl rfl rfl rfl rfl) hk rfl rfl rfl rfl hlock ?_
    rintro (hl | hl) <;> cases hl
  | none =>
    obtain ⟨rfl, hv, hfresh⟩ := hcreating
    obtain ⟨hlaunched, hlicensed⟩ := created_fresh h hv hdisk
    have hold := hlogs { s with dir := replaceFile (fileName c.binding.requestId .intent) ⟨encode v, true⟩ s.dir } rfl rfl rfl rfl rfl
    refine h.hold hc hlock hdir ?_ hk rfl rfl rfl rfl ⟨hlock, v, hv, hself⟩ fun _ => ⟨hlaunched, fun j d' _ => hlicensed j d'⟩
    refine ⟨hold.once, hold.launched, fun w hw => ?_, ?_, fun hlost w hw => ?_, fun hlost w hw w' hw' hne => ?_⟩
    · rcases List.mem_append.mp hw with hw | hw
      · exact hold.created w hw
      · cases List.mem_singleton.mp hw
        exact ⟨c.binding, hv, hself⟩
    · refine List.pairwise_append.mpr ⟨hold.createdApart, by simp, fun w hw w' hw' => ?_⟩
      cases List.mem_singleton.mp hw'
      exact hfresh.created w hw
    · rcases List.mem_append.mp hw with hw | hw
      · exact hold.accepted hlost w hw
      · cases List.mem_singleton.mp hw
        exact ⟨c.binding, _, hv, hself, List.prefix_rfl⟩
    · rcases List.mem_append.mp hw with hw | hw <;> rcases List.mem_append.mp hw' with hw' | hw'
      · exact hold.acceptedApart hlost w hw w' hw' hne
      · cases List.mem_singleton.mp hw'
        exact hfresh.accepted hlost w hw
      · cases List.mem_singleton.mp hw
        exact (hfresh.accepted hlost w' hw').symm
      · cases List.mem_singleton.mp hw
        cases List.mem_singleton.mp hw'
        exact absurd rfl hne

theorem leave_inv (h : Inv sha256 s) (hc : s.calls id = some c) (raised : Option Fault) :
    Inv sha256 (leave s id c raised) := by
  unfold leave
  split
  case h_2 => exact h
  next result hpoint =>
  have hok := h.calls.ok id c hc
  have hlock : s.lock = some id := by
    rw [CallOk, hpoint] at hok
    split at hok <;> simp_all
  have hfree : ∀ j, j ≠ id → s.lock = some j → (none : Option Nat) = some j := by
    intro j hj hl
    rw [hlock] at hl
    exact absurd (Option.some.inj hl).symm hj
  split
  · exact h.done hc rfl ⟨rfl, rfl, rfl, rfl, rfl, rfl, rfl, hfree⟩
  · exact h.done hc rfl ⟨rfl, rfl, rfl, rfl, rfl, rfl, rfl, hfree⟩
  · exact h.done hc rfl ⟨rfl, rfl, rfl, rfl, rfl, rfl, rfl, hfree⟩
  · refine h.quiet hc rfl ⟨rfl, rfl, rfl, rfl, rfl, rfl, rfl, hfree⟩ ?_ ?_
    · rintro _ ⟨⟩
      rw [CallOk, hpoint] at hok
      exact hok.2
    · rintro _ ⟨⟩ -
      exact ⟨.inl hpoint, rfl⟩

/-- A callback is invoked for a durable intent. -/
theorem launched_inv (h : Inv sha256 s) {b : Binding} (hdurable : Durable sha256 s.dir b)
    (hnew : b.requestId ∉ requests s.launched)
    (hother : ∀ j d, s.calls j = some d → d.Licensed → d.binding.requestId ≠ b.requestId) (id : Nat) :
    Inv sha256 { s with launched := s.launched ++ [(id, b)] } := by
  have hrequests : requests (s.launched ++ [(id, b)]) = requests s.launched ++ [b.requestId] := by
    simp [requests]
  refine ⟨h.dir, ⟨?_, fun e he => ?_, h.logs.created, h.logs.createdApart, h.logs.accepted, h.logs.acceptedApart⟩,
    ⟨h.calls.new, h.calls.idle, fun j d hd => (h.calls.ok j d hd).keep ⟨fun _ he _ => he, fun hl => ⟨hl, rfl, rfl, rfl, rfl⟩⟩,
      fun j d hd hl hmem => ?_, h.calls.unique⟩⟩
  · rw [hrequests, List.nodup_append]
    refine ⟨h.logs.once, by simp, fun r hr r' hr' => ?_⟩
    cases List.mem_singleton.mp hr'
    rintro rfl
    exact hnew hr
  · rcases List.mem_append.mp he with he | he
    · exact h.logs.launched e he
    · cases List.mem_singleton.mp he
      exact hdurable
  · rw [hrequests] at hmem
    rcases List.mem_append.mp hmem with hmem | hmem
    · exact h.calls.licence j d hd hl hmem
    · exact hother j d hd hl (List.mem_singleton.mp hmem)

theorem launch_inv (h : Inv sha256 s) (hc : s.calls id = some c) (moment : Moment) :
    Inv sha256 (launch s id c moment) := by
  unfold launch
  split
  case h_2 => exact h
  next hpoint =>
  split
  · refine h.quiet hc rfl ⟨rfl, rfl, rfl, rfl, rfl, rfl, rfl, fun _ _ hl => hl⟩ ?_ ?_
    · rintro _ ⟨⟩
      trivial
    · rintro _ ⟨⟩ (hl | hl) <;> cases hl
  · have hdurable : Durable sha256 s.dir c.binding := by
      have hok := h.calls.ok id c hc
      rwa [CallOk, hpoint] at hok
    have hentered : Inv sha256 (s.put id { c with point := .delivering }) := by
      refine h.quiet hc rfl ⟨rfl, rfl, rfl, rfl, rfl, rfl, rfl, fun _ _ hl => hl⟩ ?_ ?_
      · rintro _ ⟨⟩
        exact hdurable
      · rintro _ ⟨⟩ (hl | hl) <;> cases hl
    refine launched_inv hentered hdurable (h.calls.licence id c hc (.inr hpoint)) (fun j d hd hl heq => ?_) id
    by_cases hj : j = id
    · subst hj
      simp only [State.put, Function.update_self, Option.some.injEq] at hd
      subst hd
      rcases hl with hl | hl <;> cases hl
    · have hd' : s.calls j = some d := (Function.update_of_ne hj _ _).symm.trans hd
      exact hj (h.calls.unique j id d c hd' hc hl (.inr hpoint) heq)

theorem finish_inv (h : Inv sha256 s) (hc : s.calls id = some c) (raised : Option Fault) :
    Inv sha256 (finish s id c raised) := by
  have hmove : ∀ purpose, Inv sha256 (s.put id { c with purpose := purpose, point := .calling }) := by
    intro purpose
    refine h.quiet hc rfl ⟨rfl, rfl, rfl, rfl, rfl, rfl, rfl, fun _ _ hl => hl⟩ ?_ ?_
    · rintro _ ⟨⟩
      trivial
    · rintro _ ⟨⟩ (hl | hl) <;> cases hl
  unfold finish
  split
  · split
    · exact hmove _
    · exact hmove _
  · exact h

/-- A step that adds the next call, or answers it at once. -/
theorem Inv.next {s' : State} (h : Inv sha256 s) {o : Option Call} (hlive : s.live = true)
    (hcalls : s'.calls = Function.update s.calls s.next o) (hnext : s'.next = s.next + 1) (hq : Quiet s { s' with next := s.next } s.next)
    (hok : ∀ d, o = some d → d.point = .calling) : Inv sha256 s' := by
  refine ⟨hq.dir ▸ h.dir, ?_, h.calls.move hcalls (by omega) (by omega) (hq.live.trans hlive) hq.launched
    (fun j hj => ⟨fun e he _ => hq.dir ▸ he, fun hl => ⟨hq.lock j hj hl, hq.dir, hq.created, hq.accepted, hq.lost⟩⟩) ?_ ?_⟩
  · have hl := hq.logs h.logs
    exact ⟨hl.once, hl.launched, hl.created, hl.createdApart, hl.accepted, hl.acceptedApart⟩
  · intro d hd
    rw [CallOk, hok d hd]
    trivial
  · rintro d hd (hl | hl) <;> rw [hok d hd] at hl <;> cases hl

theorem call_inv (h : Inv sha256 s) (b : Binding) (purpose : Purpose) : Inv sha256 (call sha256 s b purpose) := by
  have hstart : ∀ d : Call, d.point = .calling → s.live = true →
      Inv sha256 (State.put { s with next := s.next + 1 } s.next d) := by
    intro d hd hlive
    refine h.next hlive rfl rfl ⟨rfl, rfl, rfl, rfl, rfl, rfl, rfl, fun _ _ hl => hl⟩ ?_
    rintro _ ⟨⟩
    exact hd
  have hdone : ∀ purpose result, s.live = true →
      Inv sha256 (State.done { s with next := s.next + 1 } s.next purpose result) := by
    intro purpose result hlive
    exact h.next hlive rfl rfl ⟨rfl, rfl, rfl, rfl, rfl, rfl, rfl, fun _ _ hl => hl⟩ (by simp)
  unfold call
  dsimp only
  split
  · exact h
  · exact h
  · exact h
  · split
    · next hlive =>
      split
      · exact hstart _ rfl hlive
      · exact hdone _ _ hlive
    · exact h

/-- No call is in flight. -/
theorem CallsOk.idling (hnone : ∀ id, s.calls id = none) : CallsOk sha256 s := by
  refine ⟨fun id _ => hnone id, fun _ => hnone, fun id c hc => ?_, fun id c hc => ?_, fun i j c d hc => ?_⟩
  · cases (hnone id).symm.trans hc
  · cases (hnone id).symm.trans hc
  · cases (hnone i).symm.trans hc

theorem restart_inv (h : Inv sha256 s) (raised : Option Fault) : Inv sha256 (restart sha256 s raised) := by
  unfold restart
  split
  · exact h
  next hdead =>
  have hnone := h.calls.idle (by simpa using hdead)
  split
  · next grouped hscan =>
    exact ⟨h.dir, logs_scan h hscan rfl rfl rfl rfl rfl, .idling hnone⟩
  · exact h

/-! ### A crash -/

theorem mem_survive {keep : String → Option Nat} {dir : Dir} {name : String} {file : File}
    (h : (name, file) ∈ dir.filterMap (survive keep)) :
    ∃ old, (name, old) ∈ dir ∧ (old = file ∨ (file.durable = false ∧ file.bytes <+: old.bytes)) := by
  obtain ⟨⟨n, old⟩, hmem, hs⟩ := List.mem_filterMap.mp h
  unfold survive at hs
  split at hs
  · cases hs
    exact ⟨file, hmem, .inl rfl⟩
  · obtain ⟨count, -, heq⟩ := Option.map_eq_some_iff.mp hs
    cases heq
    exact ⟨old, hmem, .inr ⟨rfl, List.take_prefix _ _⟩⟩

/-- An entry that is not lost is there, cut short at most. -/
theorem survive_mem {keep : String → Option Nat} {dir : Dir} {name : String} {file : File} (h : (name, file) ∈ dir)
    (hkept : (survive keep (name, file)).isNone = false) :
    ∃ file', (name, file') ∈ dir.filterMap (survive keep) ∧ file'.bytes <+: file.bytes := by
  unfold survive at hkept
  split at hkept
  · next hd => exact ⟨file, List.mem_filterMap.mpr ⟨_, h, if_pos hd⟩, List.prefix_rfl⟩
  · next hd =>
    rw [Option.isNone_eq_false_iff, Option.isSome_map] at hkept
    obtain ⟨count, hcount⟩ := Option.isSome_iff_exists.mp hkept
    refine ⟨⟨file.bytes.take count, false⟩, List.mem_filterMap.mpr ⟨_, h, ?_⟩, List.take_prefix _ _⟩
    rw [survive, if_neg hd, hcount]
    rfl

theorem names_survive (keep : String → Option Nat) (dir : Dir) :
    ((dir.filterMap (survive keep)).map (·.1)).Sublist (dir.map (·.1)) := by
  induction dir with
  | nil => exact List.Sublist.slnil
  | cons e dir ih =>
    cases hs : survive keep e with
    | none =>
      rw [List.filterMap_cons_none hs]
      exact ih.cons _
    | some e' =>
      have hname : e'.1 = e.1 := by
        unfold survive at hs
        split at hs
        · cases hs
          rfl
        · obtain ⟨count, -, heq⟩ := Option.map_eq_some_iff.mp hs
          cases heq
          rfl
      rw [List.filterMap_cons_some hs, List.map_cons, List.map_cons, hname]
      exact ih.cons_cons _

/-- Nothing more was lost: every entry is there. -/
theorem crash_kept {keep : String → Option Nat} (h : (crash s keep).lost = s.lost) {e : String × File} (he : e ∈ s.dir) :
    (survive keep e).isNone = false := by
  have hnil : (s.dir.filter fun entry => (survive keep entry).isNone).map (·.1) = [] := by
    simpa [crash] using h
  rw [List.map_eq_nil_iff, List.filter_eq_nil_iff] at hnil
  exact Bool.eq_false_iff.mpr (hnil e he)

theorem crash_inv (h : Inv sha256 s) (keep : String → Option Nat) : Inv sha256 (crash s keep) := by
  have hk : KeepsDurable s.dir (crash s keep).dir := fun e he hd =>
    List.mem_filterMap.mpr ⟨e, he, if_pos hd⟩
  refine ⟨⟨h.dir.names.sublist (names_survive keep s.dir), fun name file id hmem hrecord => ?_⟩,
    h.logs.keep hk (fun hlost => ?_) rfl rfl rfl, .idling fun _ => rfl⟩
  · obtain ⟨old, hold, hfile⟩ := mem_survive hmem
    obtain ⟨b, v, hb, hid, hstart, hwhole⟩ := h.dir.files name old id hold hrecord
    rcases hfile with rfl | ⟨hopen, hshort⟩
    · exact ⟨b, v, hb, hid, hstart, hwhole⟩
    · exact ⟨b, v, hb, hid, hshort.trans hstart, fun hd => absurd (hd.symm.trans hopen) (by decide)⟩
  · have hboth : s.lost = [] ∧ (s.dir.filter fun entry => (survive keep entry).isNone).map (·.1) = [] :=
      List.append_eq_nil_iff.mp hlost
    refine ⟨hboth.1, ?_⟩
    rintro v - ⟨b, file, hb, hmem, hstart⟩
    obtain ⟨file', hmem', hshort⟩ := survive_mem hmem (crash_kept (hlost.trans hboth.1.symm) hmem)
    exact ⟨b, file', hb, hmem', hshort.trans hstart⟩

theorem step_inv (h : Inv sha256 s) (e : Event) : Inv sha256 (step sha256 s e) := by
  have hof : ∀ (id : Nat) (f : Call → State), (∀ c, s.calls id = some c → Inv sha256 (f c)) → Inv sha256 (s.of id f) := by
    intro id f hf
    unfold State.of
    split
    · exact h
    · next c hc => exact hf c hc
  cases e with
  | call b purpose => exact call_inv h b purpose
  | enter id => exact hof id _ fun c hc => enter_inv h hc
  | acquire id raised => exact hof id _ fun c hc => acquire_inv h hc raised
  | inspect id moment raised => exact hof id _ fun c hc => inspect_inv h hc moment raised
  | openFile id made raised => exact hof id _ fun c hc => openFile_inv h hc made raised
  | writeFile id count raised => exact hof id _ fun c hc => writeFile_inv h hc count raised
  | syncFile id raised => exact hof id _ fun c hc => syncFile_inv h hc raised
  | syncDirectory id raised => exact hof id _ fun c hc => syncDirectory_inv h hc raised
  | leave id raised => exact hof id _ fun c hc => leave_inv h hc raised
  | launch id moment => exact hof id _ fun c hc => launch_inv h hc moment
  | finish id raised => exact hof id _ fun c hc => finish_inv h hc raised
  | restart raised => exact restart_inv h raised
  | crash keep => exact crash_inv h keep

theorem start_inv : Inv sha256 start :=
  ⟨⟨List.nodup_nil, by simp [start]⟩,
    ⟨List.nodup_nil, by simp [start], by simp [start], .nil, by simp [start], by simp [start]⟩, .idling fun _ => rfl⟩

theorem run_inv (es : List Event) : Inv sha256 (exec (step sha256) start es) :=
  exec_inv (I := Inv sha256) (fun _ e h => step_inv h e) start_inv

end LocalHand.Observer
