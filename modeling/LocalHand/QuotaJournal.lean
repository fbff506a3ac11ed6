/-
The append-only cells of the quota observer (`q2_journal.py`): a cell a grant, with the
records of its one request in their order.

A cell is kept as the records its file has, how many of them a sync has made durable, and
whether a part of a record follows them. What the validators of peers, invocations,
receipts and fences admit is a parameter.
-/
import LocalHand.QuotaGrant
import LocalHand.Lib.Program

namespace LocalHand.QuotaJournal

open PyJson QuotaContract QuotaGrant Program
open Framing (Bytes)

variable {F : Type}

structure Intent (F : Type) where
  requestDigest : String
  peer : Value F
  reservedNs : Int

inductive Record (F : Type) where
  | intent (i : Intent F)
  | invocation (value : Value F)
  | result (receipt : Value F) (receivedNs : Int)
  | closed (fence : Value F)

inductive Status where
  | ready | intent | invocation | result | closed
  deriving DecidableEq, Repr

/-- A cell as `scan` reads it. -/
structure State (F : Type) where
  status : Status
  intent : Option (Intent F)
  invocation : Option (Value F)
  result : Option (Value F × Int)
  closed : Option (Value F)

def State.ready : State F := ⟨.ready, none, none, none, none⟩

structure Cell (F : Type) where
  records : List (Record F)
  torn : Bool
  synced : Nat

/-- The registered grants and the capacity, the same for every journal object, and the
checks of values. -/
structure Registry (F : Type) where
  capacity : Capacity
  grants : List Grant
  distinct : (grants.map Grant.id).Nodup
  fl : FloatText F
  requestDigest : Request → String
  peerBinding : Value F → Grant → Except Fault Unit
  invocation : Value F → Grant → Except Fault Unit
  receipt : Value F → Grant → Int → Except Fault Unit
  closedFence : Value F → Grant → Value F → Value F → Except Fault Unit

def receiptStatus (receipt : Value F) : String :=
  match receipt.get? "status" with
  | some (.str s) => s
  | _ => ""

def number (value : Value F) (name : String) : Except Fault Int :=
  match value.get? name with
  | some (.int n) => .ok n
  | _ => .error (quotaError "INTEGER")

structure Receipt (F : Type) where
  facts : Value F
  wire : Bytes

variable (reg : Registry F)

/-- `decode_receipt` -/
def decodeReceipt (raw : Bytes) (grant : Grant) (now : Int) : Except Fault (Receipt F) := do
  let value ← load reg.fl raw responseLimit 6
  reg.receipt value grant now
  let wire ← canonical reg.fl value responseLimit
  return ⟨value, wire⟩

/-- A recorded receipt is decoded anew. -/
def decodeRecorded (receipt : Value F) (grant : Grant) (now : Int) : Except Fault (Receipt F) := do
  let raw ← canonical reg.fl receipt responseLimit
  decodeReceipt reg raw grant now

variable [DecidableEq F]

/-- Whether a query is the one that was recorded. -/
def bindsQuery (receipt : Value F) (recorded : Option (Value F)) : Bool :=
  match receipt.get? "query", recorded with
  | some (.obj fields), some recorded => fields.all fun entry => recorded.get? entry.1 = some entry.2
  | some (.obj _), none => false
  | _, _ => true

def hasQuery (receipt : Value F) : Bool :=
  match receipt.get? "query" with
  | some (.obj _) => true
  | _ => false

/-- What a record makes of a cell's state. -/
def State.next (grant : Grant) (s : State F) : Record F → Except Fault (State F)
  | .intent i => do
    require (s.status = .ready) (quotaError "JOURNAL_ORDER")
    require (i.requestDigest = reg.requestDigest grant.request) (quotaError "JOURNAL_BINDING")
    require (grant.management.issuedNs ≤ i.reservedNs && i.reservedNs ≤ grant.request.deadlineNs - 1) (quotaError "INTEGER")
    reg.peerBinding i.peer grant
    return { s with status := .intent, intent := some i }
  | .invocation value => do
    require (s.status = .intent) (quotaError "JOURNAL_ORDER")
    reg.invocation value grant
    return { s with status := .invocation, invocation := some value }
  | .result receipt received => do
    require (s.status = .intent || s.status = .invocation) (quotaError "JOURNAL_ORDER")
    require (s.intent.any fun i => i.reservedNs ≤ received) (quotaError "INTEGER")
    let decoded ← decodeRecorded reg receipt grant received
    require (bindsQuery decoded.facts s.invocation) (quotaError "QUERY_BINDING")
    require (receiptStatus decoded.facts ≠ "OBSERVED" || hasQuery decoded.facts) (quotaError "QUERY_BINDING")
    return { s with status := .result, result := some (receipt, received) }
  | .closed fence =>
    match s.result, s.intent with
    | some (receipt, received), some i => do
      require (s.status = .result && receiptStatus receipt = "OBSERVED") (quotaError "JOURNAL_ORDER")
      let decoded ← decodeRecorded reg receipt grant received
      reg.closedFence fence grant decoded.facts i.peer
      return { s with status := .closed, closed := some fence }
    | _, _ => .error (quotaError "JOURNAL_ORDER")

/-- The records of a cell, one after another. -/
def readRecords (grant : Grant) : State F → List (Record F) → Except Fault (State F)
  | s, [] => .ok s
  | s, r :: rest => do
    let s ← s.next reg grant r
    readRecords grant s rest

def readCell (grant : Grant) (cell : Cell F) : Except Fault (State F) := do
  require (!cell.torn) (quotaError "JOURNAL_PARTIAL")
  readRecords reg grant .ready cell.records

/-- Every registered grant with its cell's state. -/
def readEach (cells : String → Cell F) : List Grant → Except Fault (List (Grant × State F))
  | [] => .ok []
  | g :: rest => do
    let state ← readCell reg g (cells g.id)
    let others ← readEach cells rest
    return (g, state) :: others

/-- `scan` -/
def scanCells (cells : String → Cell F) : Except Fault (List (Grant × State F)) := do
  let states ← readEach reg cells reg.grants
  checkCapacity reg.capacity ((states.filter fun entry => entry.2.status ≠ .ready).map Prod.fst)
  return states

/-! ## What is read -/

variable {reg} {grant : Grant} {s t : State F} {r : Record F} {rs : List (Record F)} {cell : Cell F}

/-- What a state is after records. -/
structure State.Reads (s : State F) (rs : List (Record F)) : Prop where
  ready : s.status = .ready ↔ rs = []
  head : ∀ r, rs.head? = some r → ∃ i, r = .intent i
  intent : ∀ i, .intent i ∈ rs → s.intent = some i
  result : ∀ v n, s.result = some (v, n) ↔ .result v n ∈ rs
  closed : s.status = .closed → ∃ fence, s.closed = some fence ∧ rs.getLast? = some (.closed fence)
  unresolved : s.status = .ready ∨ s.status = .intent ∨ s.status = .invocation → s.result = none

omit [DecidableEq F] in
theorem State.ready_reads : (State.ready : State F).Reads [] where
  ready := by simp [State.ready]
  head := by simp
  intent := by simp
  result := by simp [State.ready]
  closed h := nomatch h
  unresolved _ := rfl

theorem State.Reads.next (h : s.Reads rs) (ht : s.next reg grant r = .ok t) : t.Reads (rs ++ [r]) := by
  have hhead (hne : s.status ≠ .ready) : ∀ r', (rs ++ [r]).head? = some r' → ∃ i, r' = .intent i := by
    intro r' hr'
    rw [List.head?_append_of_ne_nil rs fun he => hne (h.ready.mpr he)] at hr'
    exact h.head r' hr'
  cases r with
  | intent i =>
    simp only [State.next, bind_ok, require_ok, exists_unit, decide_eq_true_eq] at ht
    obtain ⟨hready, -, -, -, ht⟩ := ht
    cases ht
    have hnil := h.ready.mp hready
    subst hnil
    have hresult := h.unresolved (.inl hready)
    exact ⟨by simp, fun r' hr' => ⟨i, by simpa using hr'.symm⟩, fun i' hi => by simpa [eq_comm] using hi, fun v n => by simp [hresult],
      fun hc => (by cases hc), fun _ => hresult⟩
  | invocation value =>
    simp only [State.next, bind_ok, require_ok, exists_unit, decide_eq_true_eq] at ht
    obtain ⟨hintent, -, ht⟩ := ht
    cases ht
    have hne : s.status ≠ .ready := by simp [hintent]
    exact ⟨by simp, hhead hne, fun i hi => h.intent i (by simpa using hi), fun v n => by simpa using h.result v n,
      fun hc => (by cases hc), fun _ => h.unresolved (.inr (.inl hintent))⟩
  | result receipt received =>
    simp only [State.next, bind_ok, require_ok, exists_unit] at ht
    obtain ⟨hstatus, -, _, -, -, -, ht⟩ := ht
    cases ht
    have hstatus' : s.status = .intent ∨ s.status = .invocation := by simpa using hstatus
    have hne : s.status ≠ .ready := by rcases hstatus' with hs | hs <;> simp [hs]
    have hnone := h.unresolved (.inr hstatus')
    refine ⟨by simp, hhead hne, fun i hi => h.intent i (by simpa using hi), fun v n => ?_, fun hc => (by cases hc), fun hc => ?_⟩
    · have hold : .result v n ∉ rs := fun hin => by rw [(h.result v n).mpr hin] at hnone; cases hnone
      simp [hold, eq_comm]
    · rcases hc with hc | hc | hc <;> cases hc
  | closed fence =>
    simp only [State.next] at ht
    split at ht
    · next receipt received i hresult hintent =>
      simp only [bind_ok, require_ok, exists_unit] at ht
      obtain ⟨hstatus, _, -, -, ht⟩ := ht
      cases ht
      rw [Bool.and_eq_true, decide_eq_true_eq] at hstatus
      have hne : s.status ≠ .ready := by simp [hstatus.1]
      exact ⟨by simp, hhead hne, fun i hi => h.intent i (by simpa using hi), fun v n => by simpa using h.result v n,
        fun _ => ⟨fence, rfl, by simp⟩, fun hc => by rcases hc with hc | hc | hc <;> cases hc⟩
    · cases ht

theorem readRecords_reads {done : List (Record F)} (h : s.Reads done) (ht : readRecords reg grant s rs = .ok t) : t.Reads (done ++ rs) := by
  induction rs generalizing s done with
  | nil =>
    cases ht
    simpa using h
  | cons r rest ih =>
    simp only [readRecords, bind_ok] at ht
    obtain ⟨s', hs', ht⟩ := ht
    simpa using ih (h.next hs') ht

theorem readCell_reads (h : readCell reg grant cell = .ok t) : cell.torn = false ∧ t.Reads cell.records := by
  simp only [readCell, bind_ok, require_ok, exists_unit] at h
  exact ⟨by simpa using h.1, by simpa using readRecords_reads State.ready_reads h.2⟩

/-- What `scan` has of the cells. -/
structure Scanned (reg : Registry F) (cells : String → Cell F) (states : List (Grant × State F)) : Prop where
  grants : states.map Prod.fst = reg.grants
  reads : ∀ g s, (g, s) ∈ states → (cells g.id).torn = false ∧ s.Reads (cells g.id).records

theorem readEach_reads {cells : String → Cell F} {grants : List Grant} {states : List (Grant × State F)}
    (h : readEach reg cells grants = .ok states) :
    states.map Prod.fst = grants ∧ ∀ g s, (g, s) ∈ states → (cells g.id).torn = false ∧ s.Reads (cells g.id).records := by
  induction grants generalizing states with
  | nil =>
    cases h
    simp
  | cons g rest ih =>
    simp only [readEach, bind_ok] at h
    obtain ⟨state, hstate, others, hothers, h⟩ := h
    cases h
    obtain ⟨hgrants, hreads⟩ := ih hothers
    refine ⟨by simp [hgrants], fun g' s' hin => ?_⟩
    rcases List.mem_cons.mp hin with he | hin
    · cases he
      exact readCell_reads hstate
    · exact hreads g' s' hin

theorem scanCells_reads {cells : String → Cell F} {states : List (Grant × State F)} (h : scanCells reg cells = .ok states) :
    Scanned reg cells states := by
  simp only [scanCells, bind_ok] at h
  obtain ⟨states', hread, _, -, h⟩ := h
  cases h
  exact ⟨(readEach_reads hread).1, (readEach_reads hread).2⟩

end LocalHand.QuotaJournal
