/-
The ceilings a stage is launched under (`runner.py`): its run time in
microseconds and its CPU quota as a printed percentage, both cut from the
phase's grant. Every division rounds down; the theorem at the end puts the
four levels together.
-/
import LocalHand.BudgetEnvelope
import LocalHand.Lib.Json
import Mathlib.Data.List.TakeWhile
import Mathlib.Tactic.Linarith
import Mathlib.Tactic.NormNum

namespace LocalHand.Budget

section

variable (sha256 : Limits → String)

/-- `_runtime_microseconds`: the stop grace is kept inside the phase envelope. -/
def runtimeMicroseconds (grant : Grant) (now : Except Fault Clock) : Except Fault Int := do
  let remaining ← phaseRemainingNs sha256 grant now
  let runtime := min (grant.limits.wallSeconds * nanoseconds) remaining
  let runtime := runtime - grant.limits.terminateGraceSeconds * nanoseconds
  let runtime := runtime / 1000
  require (0 < runtime)
    (.job "LIMIT_EXCEEDED" "No helper runtime remains after its required stop grace")
  return runtime

/-- `_deadline_remaining` -/
def deadlineRemaining (grant : Grant) (phaseDeadline : Int) (now : Except Fault Clock) :
    Except Fault Int := do
  let clock ← now
  let remaining ← remainingNs sha256 grant (.ok clock)
  let remaining := min remaining (phaseDeadline - clock.boottimeNs)
  require (0 < remaining) (.job "LIMIT_EXCEEDED" "Helper runtime deadline is exhausted")
  return remaining

/-- The `RuntimeMaxSec` that `deliver` computes, from two clock readings. The
second is the last thing before the launch. -/
def deliverMicroseconds (grant : Grant) (first second : Except Fault Clock) : Except Fault Int := do
  let phaseDeadline ← phaseDeadlineNs sha256 grant
  let phaseDeadline := phaseDeadline - grant.limits.terminateGraceSeconds * nanoseconds
  let runtime ← runtimeMicroseconds sha256 grant first
  let remaining ← deadlineRemaining sha256 grant phaseDeadline second
  let final := min runtime (remaining / 1000)
  require (0 < final) (.job "LIMIT_EXCEEDED" "No bounded launch runtime remains")
  return final

end

/-! ## The CPU quota -/

/-- `text.rstrip(c)` -/
def rstrip (c : Char) (text : List Char) : List Char := (text.reverse.dropWhile (· = c)).reverse

/-- `f"{n:02d}"` for a number below a hundred. -/
def twoDigits (n : Nat) : List Char := [Nat.digitChar (n / 10), Nat.digitChar (n % 10)]

/-- The percentage `_cpu_quota` prints for a rate in hundredths of a percent. -/
def quotaText (permyriad : Nat) : List Char :=
  let whole := permyriad / 100
  let fraction := permyriad % 100
  (if fraction = 0 then PyJson.natText whole
    else rstrip '.' (rstrip '0' (PyJson.natText whole ++ '.' :: twoDigits fraction))) ++ ['%']

/-- The rate `_cpu_quota` floors to, in hundredths of a percent. -/
def Limits.permyriad (limits : Limits) : Int :=
  min 10000 (limits.cpuSeconds * 10000 / limits.wallSeconds)

/-- `_cpu_quota` -/
def cpuQuota (limits : Limits) : Except Fault (List Char) := do
  require (10 ≤ limits.permyriad)
    (.runner "UNSUPPORTED" "CPU quota cannot be represented within its admitted envelope")
  return quotaText limits.permyriad.toNat

/-- What a percentage with at most two decimals denotes, in hundredths of a percent. -/
def quotaDenotes (text : List Char) : Option Nat :=
  let whole := text.takeWhile Char.isDigit
  let value := Nat.ofDigitChars 10 whole 0 * 100
  if whole = [] then none
  else match text.dropWhile Char.isDigit with
  | ['%'] => some value
  | ['.', a, '%'] => if a.isDigit then some (value + Nat.ofDigitChars 10 [a] 0 * 10) else none
  | ['.', a, b, '%'] =>
    if a.isDigit && b.isDigit then some (value + Nat.ofDigitChars 10 [a, b] 0) else none
  | _ => none

/-- The printed fraction after both strips: one digit where the second is zero. -/
def fractionDigits (n : Nat) : List Char :=
  if n % 10 = 0 then [Nat.digitChar (n / 10)] else twoDigits n

theorem fraction_reverse : ∀ n < 100, n ≠ 0 → ((twoDigits n).reverse.dropWhile (· = '0')) =
    (fractionDigits n).reverse ∧ (fractionDigits n).getLast? ≠ some '.' ∧ fractionDigits n ≠ [] := by
  decide

theorem rstrip_fraction {n : Nat} (hn : n < 100) (h0 : n ≠ 0) (whole : List Char) :
    rstrip '.' (rstrip '0' (whole ++ '.' :: twoDigits n)) = whole ++ '.' :: fractionDigits n := by
  obtain ⟨hstrip, hlast, hne⟩ := fraction_reverse n hn h0
  have hzero : rstrip '0' (whole ++ '.' :: twoDigits n) = whole ++ '.' :: fractionDigits n := by
    simp only [rstrip, List.reverse_append, List.reverse_cons, List.append_assoc]
    rw [List.dropWhile_append, hstrip]
    simp [hne]
  rw [hzero]
  obtain ⟨c, cs, hr⟩ : ∃ c cs, (fractionDigits n).reverse = c :: cs :=
    List.exists_cons_of_ne_nil (by simpa using hne)
  have hc : c ≠ '.' := by
    rintro rfl
    exact hlast (by rw [List.getLast?_eq_head?_reverse, hr]; rfl)
  have hd : fractionDigits n = (c :: cs).reverse := by rw [← hr, List.reverse_reverse]
  simp [rstrip, hd, hc]

theorem quotaDenotes_whole (n : Nat) : quotaDenotes (PyJson.natText n ++ ['%']) = some (n * 100) := by
  have hdigits : ∀ c ∈ PyJson.natText n, c.isDigit = true := fun c hc =>
    Nat.isDigit_of_mem_toDigits (by omega) (by omega) hc
  have hne : PyJson.natText n ≠ [] := Nat.toDigits_ne_nil
  have htake : (PyJson.natText n ++ ['%']).takeWhile Char.isDigit = PyJson.natText n := by
    rw [List.takeWhile_append_of_pos hdigits]
    simp
  have hdrop : (PyJson.natText n ++ ['%']).dropWhile Char.isDigit = ['%'] := by
    rw [List.dropWhile_append_of_pos hdigits]
    simp
  simp only [quotaDenotes, htake, hdrop, hne, if_false]
  rw [PyJson.natText, Nat.ofDigitChars_ten_toDigits]

theorem fractionDigits_cases : ∀ n < 100, n ≠ 0 →
    (∃ a, fractionDigits n = [a] ∧ a.isDigit = true ∧ Nat.ofDigitChars 10 [a] 0 * 10 = n) ∨
    (∃ a b, fractionDigits n = [a, b] ∧ a.isDigit = true ∧ b.isDigit = true ∧
      Nat.ofDigitChars 10 [a, b] 0 = n) := by
  have h : ∀ n < 100, n ≠ 0 →
      (fractionDigits n = [Nat.digitChar (n / 10)] ∧ (Nat.digitChar (n / 10)).isDigit = true ∧
        Nat.ofDigitChars 10 [Nat.digitChar (n / 10)] 0 * 10 = n) ∨
      (fractionDigits n = twoDigits n ∧ (Nat.digitChar (n / 10)).isDigit = true ∧
        (Nat.digitChar (n % 10)).isDigit = true ∧ Nat.ofDigitChars 10 (twoDigits n) 0 = n) := by
    decide
  intro n hn h0
  rcases h n hn h0 with ⟨h1, h2, h3⟩ | ⟨h1, h2, h3, h4⟩
  · exact .inl ⟨_, h1, h2, h3⟩
  · exact .inr ⟨_, _, h1, h2, h3, h4⟩

/-- The printed quota denotes the rate it was printed from. -/
theorem quotaDenotes_quotaText (permyriad : Nat) :
    quotaDenotes (quotaText permyriad) = some permyriad := by
  have hsplit : permyriad / 100 * 100 + permyriad % 100 = permyriad := by omega
  by_cases h0 : permyriad % 100 = 0
  · simp only [quotaText, h0, if_true, quotaDenotes_whole]
    congr 1
    omega
  · have hlt : permyriad % 100 < 100 := Nat.mod_lt _ (by omega)
    simp only [quotaText, h0, if_false, rstrip_fraction hlt h0]
    have hdigits : ∀ c ∈ PyJson.natText (permyriad / 100), c.isDigit = true := fun c hc =>
      Nat.isDigit_of_mem_toDigits (by omega) (by omega) hc
    have hne : PyJson.natText (permyriad / 100) ≠ [] := Nat.toDigits_ne_nil
    have hvalue : Nat.ofDigitChars 10 (PyJson.natText (permyriad / 100)) 0 = permyriad / 100 :=
      Nat.ofDigitChars_ten_toDigits
    rcases fractionDigits_cases _ hlt h0 with ⟨a, hf, ha, hv⟩ | ⟨a, b, hf, ha, hb, hv⟩
    · simp only [quotaDenotes, hf, List.append_assoc, List.takeWhile_append_of_pos hdigits,
        List.dropWhile_append_of_pos hdigits, List.cons_append, List.nil_append]
      simp [hne, hvalue, ha, hv, hsplit]
    · simp only [quotaDenotes, hf, List.append_assoc, List.takeWhile_append_of_pos hdigits,
        List.dropWhile_append_of_pos hdigits, List.cons_append, List.nil_append]
      simp [hne, hvalue, ha, hb, hv, hsplit]

variable {sha256 : Limits → String}

/-! ## One stage -/

theorem phaseRemainingNs_ok {grant : Grant} {now : Clock} {remaining : Int}
    (h : phaseRemainingNs sha256 grant (.ok now) = .ok remaining) :
    remaining = grant.phaseDeadline - now.boottimeNs := by
  simp only [phaseRemainingNs, phaseDeadlineNs, bind_ok, require_ok, exists_const, pure, Except.pure,
    Except.ok.injEq] at h
  obtain ⟨_, rfl, _, -, _, ⟨_, -, rfl⟩, -, rfl⟩ := h
  rfl

theorem runtimeMicroseconds_le {grant : Grant} {now : Clock} {runtime : Int}
    (h : runtimeMicroseconds sha256 grant (.ok now) = .ok runtime) :
    runtime * 1000 ≤ (grant.limits.wallSeconds - grant.limits.terminateGraceSeconds) * nanoseconds := by
  simp only [runtimeMicroseconds, bind_ok, require_ok, exists_const, pure, Except.pure,
    Except.ok.injEq] at h
  obtain ⟨remaining, -, -, rfl⟩ := h
  have hfloor := Int.ediv_mul_le (min (grant.limits.wallSeconds * nanoseconds) remaining -
    grant.limits.terminateGraceSeconds * nanoseconds) (b := 1000) (by decide)
  simp only [nanoseconds] at hfloor ⊢
  omega

theorem deadlineRemaining_le {grant : Grant} {deadline remaining : Int} {now : Clock}
    (h : deadlineRemaining sha256 grant deadline (.ok now) = .ok remaining) :
    remaining ≤ deadline - now.boottimeNs := by
  simp only [deadlineRemaining, bind_ok, require_ok, exists_const, pure, Except.pure,
    Except.ok.injEq] at h
  obtain ⟨_, rfl, _, -, -, rfl⟩ := h
  exact min_le_right _ _

theorem deliverMicroseconds_ok {grant : Grant} {first second : Clock} {runtime : Int}
    (h : deliverMicroseconds sha256 grant (.ok first) (.ok second) = .ok runtime) :
    runtime * 1000 ≤ (grant.limits.wallSeconds - grant.limits.terminateGraceSeconds) * nanoseconds ∧
      runtime * 1000 ≤ grant.phaseDeadline - grant.limits.terminateGraceSeconds * nanoseconds -
        second.boottimeNs ∧ 0 < runtime := by
  simp only [deliverMicroseconds, phaseDeadlineNs, bind_ok, require_ok, exists_const, pure,
    Except.pure, Except.ok.injEq, decide_eq_true_eq] at h
  obtain ⟨_, ⟨_, -, rfl⟩, r, hr, remaining, hrem, hpos, rfl⟩ := h
  have h1 := runtimeMicroseconds_le hr
  have h2 := deadlineRemaining_le hrem
  have hfloor := Int.ediv_mul_le remaining (b := 1000) (by decide)
  have hmin1 := min_le_left r (remaining / 1000)
  have hmin2 := min_le_right r (remaining / 1000)
  exact ⟨by omega, by omega, hpos⟩

theorem substageLimits_ok {grant : Grant} {stage : Stage} {version : Int} {limits : Limits}
    (h : substageLimits sha256 grant stage version = .ok limits) :
    validateGrant sha256 grant = .ok () ∧ (version = 2 ∨ version = 3) ∧
      1 ≤ grant.limits.cpuSeconds / ((stages version).length : Int) ∧
      limits.wallSeconds = grant.limits.wallSeconds ∧
      limits.terminateGraceSeconds = grant.limits.terminateGraceSeconds ∧
      limits.cpuSeconds = if stage = .helper then grant.limits.cpuSeconds -
          grant.limits.cpuSeconds / ((stages version).length : Int) * ((stages version).length - 1)
        else grant.limits.cpuSeconds / ((stages version).length : Int) := by
  simp only [substageLimits, bind_ok, require_ok, exists_unit, pure, Except.pure,
    Except.ok.injEq, decide_eq_true_eq, Bool.or_eq_true] at h
  obtain ⟨hvalid, hversion, -, hprep, rfl⟩ := h
  exact ⟨hvalid, hversion, hprep, rfl, rfl, rfl⟩

/-- The quota over the whole of a stage, its stop grace included, stays within
the CPU seconds it was cut from. -/
theorem quota_over_envelope {limits : Limits} (hlimits : 1 ≤ limits.wallSeconds) {runtime : Int}
    (hquota : 10 ≤ limits.permyriad)
    (hruntime : runtime * 1000 ≤ (limits.wallSeconds - limits.terminateGraceSeconds) * nanoseconds) :
    limits.permyriad * (runtime + limits.terminateGraceSeconds * 1000000) ≤
      limits.cpuSeconds * 10000 * 1000000 := by
  have hnonneg : 0 ≤ limits.permyriad := by omega
  have henvelope : runtime + limits.terminateGraceSeconds * 1000000 ≤ limits.wallSeconds * 1000000 := by
    simp only [nanoseconds] at hruntime
    omega
  have hfloor : limits.permyriad * limits.wallSeconds ≤ limits.cpuSeconds * 10000 := by
    calc limits.permyriad * limits.wallSeconds
        ≤ limits.cpuSeconds * 10000 / limits.wallSeconds * limits.wallSeconds :=
          Int.mul_le_mul_of_nonneg_right (min_le_right _ _) (by omega)
      _ ≤ limits.cpuSeconds * 10000 := Int.ediv_mul_le _ (by omega)
  calc limits.permyriad * (runtime + limits.terminateGraceSeconds * 1000000)
      ≤ limits.permyriad * (limits.wallSeconds * 1000000) :=
        Int.mul_le_mul_of_nonneg_left henvelope hnonneg
    _ = limits.permyriad * limits.wallSeconds * 1000000 := by rw [mul_assoc]
    _ ≤ limits.cpuSeconds * 10000 * 1000000 := Int.mul_le_mul_of_nonneg_right hfloor (by decide)

/-! ## The stages of a phase, the phases of an operation -/

theorem stages_cpu {grant : Grant} {version : Int} (hversion : version = 2 ∨ version = 3)
    {shares : Stage → Limits}
    (h : ∀ stage ∈ stages version, substageLimits sha256 grant stage version = .ok (shares stage)) :
    ((stages version).map fun stage => (shares stage).cpuSeconds).sum = grant.limits.cpuSeconds := by
  have hcpu : ∀ stage ∈ stages version, (shares stage).cpuSeconds = if stage = .helper then
      grant.limits.cpuSeconds - grant.limits.cpuSeconds / ((stages version).length : Int) *
        ((stages version).length - 1)
      else grant.limits.cpuSeconds / ((stages version).length : Int) := by
    intro stage hstage
    exact (substageLimits_ok (h stage hstage)).2.2.2.2.2
  rw [List.map_congr_left hcpu]
  rcases hversion with rfl | rfl
  · simp [stages]
  · simp [stages]
    omega

/-- The CPU ceilings of every stage of every phase of an operation, under any
supervision version of each, stay within the admitted CPU seconds. -/
theorem operation_cpu {row : Row} {state : State} (hvalid : validateState sha256 row state = .ok ())
    {version : Phase → Int} (hversion : ∀ phase, version phase = 2 ∨ version phase = 3)
    {shares : Phase → Stage → Limits}
    (h : ∀ phase grant, state.grants.lookup phase = some grant → ∀ stage ∈ stages (version phase),
      substageLimits sha256 grant stage (version phase) = .ok (shares phase stage)) :
    (state.grants.entries.map fun e =>
      ((stages (version e.1)).map fun stage => (shares e.1 stage).cpuSeconds).sum).sum ≤
        row.budgets.cpuSeconds := by
  have hphase : ∀ e ∈ state.grants.entries,
      ((stages (version e.1)).map fun stage => (shares e.1 stage).cpuSeconds).sum =
        e.2.limits.cpuSeconds := fun e he =>
    stages_cpu (hversion e.1) (h e.1 e.2 (AList.mem_lookup_iff.mpr he))
  rw [List.map_congr_left hphase]
  have hfits := (validateState_iff.mp hvalid).fits
  simp only [fits, Bool.and_eq_true, decide_eq_true_eq] at hfits
  exact hfits.1.2

/-- **The ceilings compose.** Under a validated grant and either supervision
version, a stage launched with the printed quota and the computed run time ends,
stop grace included, by the phase deadline fixed at reservation, and its quota
over that whole time stays within its CPU seconds; the quota prints the floored
rate; the stages share out the phase's CPU seconds exactly, and the phases of an
operation stay within the admitted ones. -/
theorem ceilings_compose (sha256 : Limits → String) (grant : Grant) (version : Int)
    (hgrant : validateGrant sha256 grant = .ok ()) (hversion : version = 2 ∨ version = 3) :
    (∀ stage limits text first second runtime, substageLimits sha256 grant stage version = .ok limits →
      cpuQuota limits = .ok text →
      deliverMicroseconds sha256 grant (.ok first) (.ok second) = .ok runtime →
      second.boottimeNs + runtime * 1000 + limits.terminateGraceSeconds * nanoseconds ≤
        grant.phaseDeadline ∧
      ∃ permyriad : Nat, quotaDenotes text = some permyriad ∧
        (permyriad : Int) = min 10000 (limits.cpuSeconds * 10000 / limits.wallSeconds) ∧
        permyriad * (runtime + limits.terminateGraceSeconds * 1000000) ≤
          limits.cpuSeconds * 10000 * 1000000) ∧
    (∀ shares : Stage → Limits,
      (∀ stage ∈ stages version, substageLimits sha256 grant stage version = .ok (shares stage)) →
      ((stages version).map fun stage => (shares stage).cpuSeconds).sum = grant.limits.cpuSeconds) ∧
    (∀ (row : Row) (state : State) (versions : Phase → Int) (shares : Phase → Stage → Limits),
      validateState sha256 row state = .ok () → (∀ phase, versions phase = 2 ∨ versions phase = 3) →
      (∀ phase reserved, state.grants.lookup phase = some reserved →
        ∀ stage ∈ stages (versions phase),
          substageLimits sha256 reserved stage (versions phase) = .ok (shares phase stage)) →
      (state.grants.entries.map fun e =>
        ((stages (versions e.1)).map fun stage => (shares e.1 stage).cpuSeconds).sum).sum ≤
          row.budgets.cpuSeconds) := by
  refine ⟨?_, fun shares h => stages_cpu hversion h,
    fun row state versions shares hvalid hversions h => operation_cpu hvalid hversions h⟩
  intro stage limits text first second runtime hlimits hquota hrun
  obtain ⟨-, -, -, hwall, hgrace, -⟩ := substageLimits_ok hlimits
  obtain ⟨henvelope, hdeadline, -⟩ := deliverMicroseconds_ok hrun
  have hpos := validLimits_pos (validGrantShape_facts (validateGrant_shape hgrant)).2.2.2.1
  simp only [cpuQuota, bind_ok, require_ok, exists_unit, decide_eq_true_eq, pure, Except.pure,
    Except.ok.injEq] at hquota
  obtain ⟨hten, rfl⟩ := hquota
  have hrate : ((limits.permyriad.toNat : Nat) : Int) = limits.permyriad :=
    Int.toNat_of_nonneg (by omega)
  rw [← hwall, ← hgrace] at henvelope
  refine ⟨by rw [hgrace]; omega, limits.permyriad.toNat, quotaDenotes_quotaText _, hrate, ?_⟩
  rw [hrate]
  exact quota_over_envelope (by rw [hwall]; exact hpos.1) hten henvelope

/-- A business phase of 90 seconds wall and 7 seconds CPU, reserved 10 seconds
into an operation. -/
def sampleGrant : Grant where
  version := 1
  ns := .job
  recordId := "op"
  operationId := "op"
  executionId := ⟨.job, "op", .business⟩
  phase := .business
  budgetDigest := "aaaaaaaaaaaaaaaaaaaaaaaaaaaaaaaaaaaaaaaaaaaaaaaaaaaaaaaaaaaaaaaa"
  bootId := "01234567-89ab-cdef-0123-456789abcdef"
  startedBoottimeNs := 0
  reservedBoottimeNs := 10000000000
  deadlineBoottimeNs := 270000000000
  limits := ⟨90, 5, 7, 1, 1, 1, 0, 1, 1⟩

theorem ceilings_compose_sample :
    let second : Clock := ⟨"01234567-89ab-cdef-0123-456789abcdef", 12000000001⟩
    deliverMicroseconds (fun _ => "") sampleGrant (.ok second) (.ok second) = .ok 82999999 ∧
      cpuQuota { sampleGrant.limits with cpuSeconds := 3 } = .ok ['3', '.', '3', '3', '%'] ∧
      second.boottimeNs + 82999999 * 1000 + 5 * nanoseconds ≤ sampleGrant.phaseDeadline := by
  have h := (ceilings_compose (fun _ => "") sampleGrant 3 (by decide +kernel) (.inr rfl)).1 .helper
    { sampleGrant.limits with cpuSeconds := 3 } ['3', '.', '3', '3', '%']
    ⟨"01234567-89ab-cdef-0123-456789abcdef", 12000000001⟩
    ⟨"01234567-89ab-cdef-0123-456789abcdef", 12000000001⟩ 82999999 (by decide +kernel)
    (by decide +kernel) (by decide +kernel)
  exact ⟨by decide +kernel, by decide +kernel, h.1⟩

end LocalHand.Budget
