/-
# QStack.Clock -- the timestamp the main loop feeds to the timers

`qstack_main_loop` reads the clock in microseconds into a `uint32_t`, and divides by 1000
afterwards.  So its `cur_ts` is no 32-bit millisecond counter: it starts again from 0 every
2^32 microseconds (about 71 minutes), and the comparisons of the timers, which are made for a
counter modulo 2^32, are off by 4294967 from then on.

`clock_law` says exactly when two readings of the loop tell the time that has passed between them.
-/
import QStack.TimerLists

namespace QStack

set_option autoImplicit false

namespace Clock

/-! ## From the clock to the lists -/

/-- `get_time_us`, `ns` nanoseconds after `init_system_ts`: `timeval_ns` is a `uint64_t`. -/
def getTimeUs (ns : Nat) : Nat := ns % 2 ^ 64 / 1000

/-- The assignment to `cur_ts_us`, a `systs_t`. -/
def curTsUs (ns : Nat) : U32 := BitVec.ofNat 32 (getTimeUs ns)

/-- `cur_ts` of a round of the main loop -/
def curTs (ns : Nat) : U32 := curTsUs ns / 1000

/-- The real time in milliseconds. -/
def realMs (ns : Nat) : Nat := ns / 1000000

/-- The test of `rto_list_check`. -/
def rtoExpired (curTs tsRto : U32) : Bool := !(curTs - tsRto).slt 0

/-- The test of `timewait_list_check`. -/
def timewaitExpired (curTs tsTwExpire : U32) : Bool := !(curTs - tsTwExpire).slt 0

/-- The test of `timeout_list_check`. -/
def timeoutExpired (curTs lastActiveTs : U32) : Bool := !(curTs - lastActiveTs).slt Timers.tcpTimeout

/-! ## The law -/

/-- Two readings tell the time between them, and the timers set at the first are found expired at
the second exactly when that much time has passed. -/
structure Tells (ns₁ ns₂ : Nat) : Prop where
  elapsed : (curTs ns₂ - curTs ns₁).toInt = (realMs ns₂ : Int) - realMs ns₁
  rto : ∀ rto : U32, rto.toNat ≤ 2 ^ 31 →
    (rtoExpired (curTs ns₂) (curTs ns₁ + rto) = true ↔ realMs ns₁ + rto.toNat ≤ realMs ns₂)
  timewait : timewaitExpired (curTs ns₂) (curTs ns₁ + tcpTimewait) = true ↔
    realMs ns₁ + tcpTimewait.toNat ≤ realMs ns₂
  timeout : timeoutExpired (curTs ns₂) (curTs ns₁) = true ↔
    realMs ns₁ + Timers.tcpTimeout.toNat ≤ realMs ns₂

/-- How often the nanoseconds have passed 2^64. -/
def nsWraps (ns : Nat) : Nat := ns / 2 ^ 64

/-- How often the microseconds have passed 2^32 since. -/
def usWraps (ns : Nat) : Nat := getTimeUs ns / 2 ^ 32

/-- 2^32 microseconds are no whole number of milliseconds, nor are 2^64 nanoseconds: where the
milliseconds of the wrapped counter begin, in nanoseconds before the real ones. -/
def phase (ns : Nat) : Nat := nsWraps ns * 551616 + usWraps ns * 296000

/-- The nanoseconds since the counter last reached a millisecond. -/
def sinceMs (ns : Nat) : Nat := getTimeUs ns % 2 ^ 32 % 1000 * 1000 + ns % 2 ^ 64 % 1000

/-- No counter has wrapped between the two readings, and the milliseconds of the counter and the
real ones turn at the same side of both. -/
structure InStep (ns₁ ns₂ : Nat) : Prop where
  nsWraps : nsWraps ns₁ = nsWraps ns₂
  usWraps : usWraps ns₁ = usWraps ns₂
  phase : (phase ns₁ + sinceMs ns₁) / 1000000 = (phase ns₂ + sinceMs ns₂) / 1000000

/-! ## What the counter loses -/

theorem curTs_toNat (ns : Nat) : (curTs ns).toNat = getTimeUs ns % 2 ^ 32 / 1000 := by
  rw [curTs, curTsUs, BitVec.toNat_udiv, BitVec.toNat_ofNat]
  rfl

/-- The milliseconds by which the counter is behind. -/
def lag (ns : Nat) : Nat :=
  nsWraps ns * 18446744073709 + usWraps ns * 4294967 + (phase ns + sinceMs ns) / 1000000

theorem realMs_eq (ns : Nat) : realMs ns = (curTs ns).toNat + lag ns := by
  rw [curTs_toNat, lag, phase, sinceMs, usWraps, nsWraps, getTimeUs, realMs]
  omega

theorem curTs_small (ns : Nat) : (curTs ns).toNat ≤ 4294967 := by
  rw [curTs_toNat]
  omega

theorem usWraps_small (ns : Nat) : usWraps ns ≤ 4294967 := by
  rw [usWraps, getTimeUs]
  omega

theorem sinceMs_small (ns : Nat) : sinceMs ns < 1000000 := by
  rw [sinceMs]
  omega

/-- A wrap of either counter shows. -/
theorem lag_eq_iff (ns₁ ns₂ : Nat) : lag ns₁ = lag ns₂ ↔ InStep ns₁ ns₂ := by
  have small₁ := usWraps_small ns₁
  have small₂ := usWraps_small ns₂
  have since₁ := sinceMs_small ns₁
  have since₂ := sinceMs_small ns₂
  constructor
  · intro same
    unfold lag phase at same
    have ns : nsWraps ns₁ = nsWraps ns₂ := by omega
    have us : usWraps ns₁ = usWraps ns₂ := by omega
    refine ⟨ns, us, ?_⟩
    unfold phase
    omega
  · rintro ⟨ns, us, carry⟩
    rw [lag, lag, ns, us, carry]

/-! ## The law -/

section Law

variable {ns₁ ns₂ : Nat}

theorem elapsed_toInt (ns₁ ns₂ : Nat) :
    (curTs ns₂ - curTs ns₁).toInt = ((curTs ns₂).toNat : Int) - (curTs ns₁).toNat := by
  have small₁ := curTs_small ns₁
  have small₂ := curTs_small ns₂
  rw [BitVec.toInt_eq_toNat_cond, BitVec.toNat_sub]
  split <;> omega

theorem elapsed_iff (ns₁ ns₂ : Nat) :
    (curTs ns₂ - curTs ns₁).toInt = (realMs ns₂ : Int) - realMs ns₁ ↔ InStep ns₁ ns₂ := by
  have real₁ := realMs_eq ns₁
  have real₂ := realMs_eq ns₂
  rw [elapsed_toInt, ← lag_eq_iff]
  omega

theorem not_slt_iff (x y : U32) : (!x.slt y) = true ↔ y.toInt ≤ x.toInt := by
  rw [BitVec.slt_eq_decide, Bool.not_eq_true', decide_eq_false_iff_not, not_lt]

/-- A deadline set `wait` after the first reading has passed at the second, by the test of the
lists, exactly when that much time has. -/
theorem deadline_iff {wait : U32} (small : wait.toNat ≤ 2 ^ 31) (later : realMs ns₁ ≤ realMs ns₂)
    (elapsed : (curTs ns₂ - curTs ns₁).toInt = (realMs ns₂ : Int) - realMs ns₁) :
    (!(curTs ns₂ - (curTs ns₁ + wait)).slt 0) = true ↔
      realMs ns₁ + wait.toNat ≤ realMs ns₂ := by
  have regroup : curTs ns₂ - (curTs ns₁ + wait) = (curTs ns₂ - curTs ns₁) - wait := by bv_omega
  rw [not_slt_iff, regroup]
  generalize curTs ns₂ - curTs ns₁ = passed at elapsed ⊢
  rw [BitVec.toInt_eq_toNat_cond] at elapsed
  have zero : (0 : U32).toInt = 0 := by decide
  rw [zero, BitVec.toInt_eq_toNat_cond, BitVec.toNat_sub]
  have bound := passed.isLt
  split at elapsed <;> split <;> omega

theorem timeout_iff (elapsed : (curTs ns₂ - curTs ns₁).toInt = (realMs ns₂ : Int) - realMs ns₁) :
    timeoutExpired (curTs ns₂) (curTs ns₁) = true ↔
      realMs ns₁ + Timers.tcpTimeout.toNat ≤ realMs ns₂ := by
  have limit : Timers.tcpTimeout.toInt = Timers.tcpTimeout.toNat := by decide
  rw [timeoutExpired, not_slt_iff, elapsed, limit]
  omega

/-- **The timer clock.**  Two rounds of the main loop tell the time between them, and with it the
expiry of every timer, exactly when no counter on the way from the clock has wrapped between them
and its milliseconds keep step with the real ones. -/
theorem clock_law (ns₁ ns₂ : Nat) (later : ns₁ ≤ ns₂) : Tells ns₁ ns₂ ↔ InStep ns₁ ns₂ := by
  have ordered : realMs ns₁ ≤ realMs ns₂ := Nat.div_le_div_right later
  rw [← elapsed_iff]
  constructor
  · exact Tells.elapsed
  · intro elapsed
    exact ⟨elapsed, fun rto small => deadline_iff small ordered elapsed,
      deadline_iff (by decide) ordered elapsed, timeout_iff elapsed⟩

end Law

/-- In the first hour the counter is exact. -/
theorem clock_law_firstHour : 0 ≤ 3600000000000 ∧ Tells 0 3600000000000 :=
  ⟨by decide, (clock_law 0 3600000000000 (by decide)).mpr ⟨rfl, rfl, rfl⟩⟩

/-- Two readings one millisecond apart, on both sides of 2^32 microseconds of uptime: the counter
goes back to 0. -/
theorem counter_restarts :
    realMs 4294968000000 - realMs 4294967000000 = 1 ∧ curTs 4294967000000 = 4294967 ∧
      curTs 4294968000000 = 0 ∧ ¬ Tells 4294967000000 4294968000000 := by
  refine ⟨by decide, by decide, by decide, ?_⟩
  intro tells
  exact absurd tells.elapsed (by decide)

end Clock

end QStack
