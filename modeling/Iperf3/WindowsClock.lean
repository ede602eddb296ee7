import Iperf3.IperfTime
import Iperf3.ReceiveTimeout
import Mathlib.Tactic

/-!
# The clocks on Windows

`clockGettime` follows the `clock_gettime` that stands in for the missing one,
and `iperfTimeNow` reads it.  The frequency of the performance counter is kept
in a static variable, which is zero at first, and what is passed for the
result is never a null pointer.  A signed overflow or a division by zero gives
no result.
-/

namespace Iperf3

open MachineInt

namespace WindowsClock

inductive ClockId where
  | realtime
  | monotonic
  deriving DecidableEq, Repr

structure Timespec where
  tvSec : ℤ
  tvNsec : ℤ
  deriving DecidableEq, Repr

/-- What the system answers when it is asked for a time. -/
structure Readings where
  counter : ℤ
  -- Steps of 100 nanoseconds since the year 1601.
  systemTime : ℕ

def gettimeofday (systemTime : ℕ) : Timeval :=
  let quadPart := uint64 (systemTime - 116444736000000000)
  ⟨int32 (quadPart / 10000000 : ℕ), int32 (quadPart % 10000000 / 10 : ℕ)⟩

section Clock

variable (performanceFrequency : ℤ)

/-- The frequency that is kept, and the time. -/
def clockGettime (clkId : ClockId) (r : Readings) (frequency : ℤ) : ℤ × Option Timespec :=
  match clkId with
  | .monotonic =>
      let frequency := if frequency = 0 then performanceFrequency else frequency
      (frequency, do
        let seconds ← quotient64 r.counter frequency
        let rest ← remainder64 r.counter frequency
        let product ← checked64 (rest * 1000000000)
        let nanoseconds ← quotient64 product frequency
        some ⟨int64 seconds, int32 nanoseconds⟩)
  | .realtime =>
      let tv := gettimeofday r.systemTime
      (frequency, do
        let tvNsec ← checked32 (tv.tvUsec * 1000)
        some ⟨tv.tvSec, tvNsec⟩)

def clockGettimeHelper (clkId : ClockId) (r : Readings) (frequency : ℤ) :
    ℤ × Option IperfTime :=
  let (frequency, ts) := clockGettime performanceFrequency clkId r frequency
  (frequency, ts.map fun ts =>
    IperfTime.ofCounters ts.tvSec (uint32 ts.tvNsec / 1000 : ℕ))

def iperfTimeNow (r : Readings) (frequency : ℤ) : ℤ × Option IperfTime :=
  clockGettimeHelper performanceFrequency .monotonic r frequency

def iperfTimeNowWallclock (r : Readings) (frequency : ℤ) : ℤ × Option IperfTime :=
  clockGettimeHelper performanceFrequency .realtime r frequency

/-- The frequency that is kept after these calls. -/
def frequencyAfter (frequency : ℤ) (calls : List (ClockId × Readings)) : ℤ :=
  calls.foldl (fun frequency call =>
    (clockGettimeHelper performanceFrequency call.1 call.2 frequency).1) frequency

end Clock

/-! ## The frequency -/

/-- The variable holds nothing yet, or the frequency of the counter. -/
def Kept (f frequency : ℤ) : Prop :=
  frequency = 0 ∨ frequency = f

variable {f frequency : ℤ}

theorem Kept.step (h : Kept f frequency) (clkId : ClockId) (r : Readings) :
    Kept f (clockGettimeHelper f clkId r frequency).1 := by
  cases clkId with
  | realtime => exact h
  | monotonic =>
      change Kept f (if frequency = 0 then f else frequency)
      split_ifs with hzero
      · exact Or.inr rfl
      · exact h

theorem Kept.run (h : Kept f frequency) (calls : List (ClockId × Readings)) :
    Kept f (frequencyAfter f frequency calls) := by
  induction calls generalizing frequency with
  | nil => exact h
  | cons call calls ih => exact ih (h.step call.1 call.2)

/-! ## The monotonic clock -/

/-- The whole seconds of the counter, and the nanoseconds of what is left. -/
def exactTimespec (f counter : ℤ) : Timespec :=
  ⟨counter / f, counter % f * 1000000000 / f⟩

theorem nanoseconds_bounds (hpos : 0 < f) (counter : ℤ) :
    0 ≤ counter % f * 1000000000 / f ∧ counter % f * 1000000000 / f < 1000000000 := by
  have hrest := Int.emod_nonneg counter hpos.ne'
  have hless := Int.emod_lt_of_pos counter hpos
  refine ⟨Int.ediv_nonneg (by omega) hpos.le, ?_⟩
  rw [Int.ediv_lt_iff_lt_mul hpos]
  omega

/-- With at most `9 * 10^9` steps in a second the product fits into 64 bits. -/
theorem clockGettime_monotonic
    (hpos : 0 < f) (hmax : f ≤ 9000000000) (hkept : Kept f frequency)
    {r : Readings} (hnonneg : 0 ≤ r.counter) (hsecs : r.counter / f < 4294967296) :
    (clockGettime f .monotonic r frequency).2 = some (exactTimespec f r.counter) := by
  have hused : (if frequency = 0 then f else frequency) = f := by
    rcases hkept with rfl | rfl
    · exact if_pos rfl
    · exact if_neg hpos.ne'
  have hrest := Int.emod_nonneg r.counter hpos.ne'
  have hless := Int.emod_lt_of_pos r.counter hpos
  have hlow := Int.ediv_nonneg hnonneg hpos.le
  obtain ⟨hnanosLow, hnanosHigh⟩ := nanoseconds_bounds hpos r.counter
  have hseconds : quotient64 r.counter f = some (r.counter / f) :=
    quotient64_of_nonneg hnonneg hpos (by omega)
  have hremainder : remainder64 r.counter f = some (r.counter % f) :=
    remainder64_of_nonneg hnonneg hpos (by omega)
  have hproduct : checked64 (r.counter % f * 1000000000) = some (r.counter % f * 1000000000) :=
    checked64_of_mem (by omega) (by omega)
  have hnanoseconds : quotient64 (r.counter % f * 1000000000) f =
      some (r.counter % f * 1000000000 / f) :=
    quotient64_of_nonneg (by omega) hpos (by omega)
  unfold clockGettime exactTimespec
  simp only [hused]
  rw [hseconds, Option.bind_eq_bind, Option.bind_some, hremainder, Option.bind_some, hproduct,
    Option.bind_some, hnanoseconds, Option.bind_some]
  rw [int64_of_mem (by omega) (by omega), int32_of_mem (by omega) (by omega)]

/-- Two floors after each other are the exact one. -/
theorem exact_microseconds (hpos : 0 < f) (counter : ℤ) :
    counter / f * 1000000 + counter % f * 1000000000 / f / 1000 = counter * 1000000 / f := by
  have hfloors : counter % f * 1000000000 / f / 1000 = counter % f * 1000000 / f := by
    calc
      counter % f * 1000000000 / f / 1000 = counter % f * 1000000000 / (f * 1000) :=
        Int.ediv_ediv_of_nonneg hpos.le
      _ = counter % f * 1000000 * 1000 / (f * 1000) := by ring_nf
      _ = counter % f * 1000000 / f := Int.mul_ediv_mul_of_pos_left _ _ (by omega)
  have hsplit : counter * 1000000 = counter % f * 1000000 + counter / f * 1000000 * f := by
    have hcounter := Int.emod_add_mul_ediv counter f
    calc
      counter * 1000000 = (counter % f + f * (counter / f)) * 1000000 := by rw [hcounter]
      _ = counter % f * 1000000 + counter / f * 1000000 * f := by ring
  rw [hfloors, hsplit, Int.add_mul_ediv_right _ _ hpos.ne', add_comm]

/-- The time that the counter stands for, in whole microseconds. -/
structure Exact (f counter : ℤ) (time : IperfTime) : Prop where
  normal : time.Normal
  inUsecs : (time.inUsecs : ℤ) = counter * 1000000 / f

theorem iperfTimeNow_exact
    (hpos : 0 < f) (hmax : f ≤ 9000000000) (hkept : Kept f frequency)
    {r : Readings} (hnonneg : 0 ≤ r.counter) (hsecs : r.counter / f < 4294967296) :
    ∃ time, (iperfTimeNow f r frequency).2 = some time ∧ Exact f r.counter time := by
  have hlow := Int.ediv_nonneg hnonneg hpos.le
  obtain ⟨hnanosLow, hnanosHigh⟩ := nanoseconds_bounds hpos r.counter
  have hexact := exact_microseconds hpos r.counter
  have hts := clockGettime_monotonic hpos hmax hkept hnonneg hsecs
  let time := IperfTime.ofCounters (r.counter / f)
    (uint32 (r.counter % f * 1000000000 / f) / 1000 : ℕ)
  have husecs : (time.usecs : ℤ) = r.counter % f * 1000000000 / f / 1000 := by
    change (uint32 ((uint32 (r.counter % f * 1000000000 / f) / 1000 : ℕ) : ℤ) : ℤ) = _
    rw [uint32_eq, uint32_eq]
    omega
  have hseconds : (time.secs : ℤ) = r.counter / f := by
    change (uint32 (r.counter / f) : ℤ) = _
    rw [uint32_eq]
    omega
  refine ⟨time, ?_, ?_, ?_⟩
  · unfold iperfTimeNow clockGettimeHelper
    simp only [hts, Option.map_some]
    rfl
  · unfold IperfTime.Normal
    omega
  · unfold IperfTime.inUsecs
    push_cast
    rw [hseconds, husecs, hexact]

/-- The floor of a larger counter is not smaller. -/
theorem Exact.past
    {counter1 counter2 : ℤ} {time1 time2 : IperfTime} (h1 : Exact f counter1 time1)
    (h2 : Exact f counter2 time2) (hpos : 0 < f) (hle : counter1 ≤ counter2) :
    time1.past time2 = true := by
  rw [IperfTime.past_iff h1.normal h2.normal]
  have hfloors : counter1 * 1000000 / f ≤ counter2 * 1000000 / f :=
    Int.ediv_le_ediv hpos (by omega)
  rw [← h1.inUsecs, ← h2.inUsecs] at hfloors
  exact_mod_cast hfloors

/-- Whatever else is asked of the clocks before and between, the times of two
counters are exact, and in their order. -/
theorem monotonic_clock_exact
    (hpos : 0 < f) (hmax : f ≤ 9000000000) (before between : List (ClockId × Readings))
    {first second : Readings} (hnonneg : 0 ≤ first.counter)
    (hle : first.counter ≤ second.counter) (hsecs : second.counter / f < 4294967296) :
    let reading1 := iperfTimeNow f first (frequencyAfter f 0 before)
    let reading2 := iperfTimeNow f second (frequencyAfter f reading1.1 between)
    ∃ time1 time2, reading1.2 = some time1 ∧ reading2.2 = some time2 ∧
      Exact f first.counter time1 ∧ Exact f second.counter time2 ∧
      time1.compare time2 ≠ .gt := by
  intro reading1 reading2
  have hkept1 : Kept f (frequencyAfter f 0 before) := Kept.run (Or.inl rfl) before
  have hkept2 : Kept f (frequencyAfter f reading1.1 between) :=
    (hkept1.step .monotonic first).run between
  have hsecs1 : first.counter / f < 4294967296 :=
    lt_of_le_of_lt (Int.ediv_le_ediv hpos hle) hsecs
  obtain ⟨time1, hreading1, hexact1⟩ := iperfTimeNow_exact hpos hmax hkept1 hnonneg hsecs1
  obtain ⟨time2, hreading2, hexact2⟩ :=
    iperfTimeNow_exact hpos hmax hkept2 (hnonneg.trans hle) hsecs
  have hpast := hexact1.past hexact2 hpos hle
  exact ⟨time1, time2, hreading1, hreading2, hexact1, hexact2, of_decide_eq_true hpast⟩

/-- The greatest frequency, and the last two counters of 64 bits. -/
theorem monotonic_clock_exact_last_counters :
    let reading1 := iperfTimeNow 9000000000 ⟨9223372036854775806, 0⟩
      (frequencyAfter 9000000000 0 [(.realtime, ⟨0, 0⟩)])
    let reading2 := iperfTimeNow 9000000000 ⟨9223372036854775807, 0⟩
      (frequencyAfter 9000000000 reading1.1 [])
    ∃ time1 time2, reading1.2 = some time1 ∧ reading2.2 = some time2 ∧
      Exact 9000000000 9223372036854775806 time1 ∧
      Exact 9000000000 9223372036854775807 time2 ∧
      time1.compare time2 ≠ .gt :=
  monotonic_clock_exact (by decide) (by decide) [(.realtime, ⟨0, 0⟩)] [] (by decide) (by decide)
    (by decide)

/-! ## The wall clock -/

theorem gettimeofday_usecs (systemTime : ℕ) :
    ∃ usecs : ℕ, usecs < 1000000 ∧ (gettimeofday systemTime).tvUsec = usecs := by
  refine ⟨uint64 (systemTime - 116444736000000000) % 10000000 / 10, by omega, ?_⟩
  exact int32_of_mem (by omega) (by omega)

theorem microseconds_of_nanoseconds {usecs : ℕ} (hless : usecs < 1000000) :
    uint32 ((usecs : ℤ) * 1000) / 1000 = usecs := by
  have hnanoseconds : uint32 ((usecs : ℤ) * 1000) = usecs * 1000 := by
    rw [uint32_eq]
    omega
  rw [hnanoseconds]
  exact Nat.mul_div_cancel usecs (by decide)

/-- The wall clock is normal too, whatever the system time. -/
theorem wallclock_normal (r : Readings) :
    ∃ time, (iperfTimeNowWallclock f r frequency).2 = some time ∧ time.Normal := by
  obtain ⟨usecs, hless, husecs⟩ := gettimeofday_usecs r.systemTime
  have hproduct : checked32 ((usecs : ℤ) * 1000) = some ((usecs : ℤ) * 1000) :=
    checked32_of_mem (by omega) (by omega)
  refine ⟨IperfTime.ofCounters (gettimeofday r.systemTime).tvSec
    (uint32 ((usecs : ℤ) * 1000) / 1000 : ℕ), ?_, ?_⟩
  · unfold iperfTimeNowWallclock clockGettimeHelper clockGettime
    simp only [husecs, hproduct]
    rfl
  · have hback := microseconds_of_nanoseconds hless
    exact IperfTime.ofCounters_normal _ (hback.trans_lt hless)

end WindowsClock

end Iperf3
