import Iperf3.Binary64
import Iperf3.MachineInt
import Mathlib.Tactic

/-!
# Clock values

A clock value is a pair of 32-bit counters of seconds and microseconds.  The
clock itself never reports a full million of microseconds; a value read from
a datagram may.
-/

namespace Iperf3

open MachineInt

structure IperfTime where
  secs : ℕ
  usecs : ℕ
  secs_lt : secs < 4294967296
  usecs_lt : usecs < 4294967296
  deriving DecidableEq, Repr

namespace IperfTime

/-- The value with both counters stored in 32 bits. -/
def ofCounters (secs usecs : ℤ) : IperfTime where
  secs := uint32 secs
  usecs := uint32 usecs
  secs_lt := by
    rw [uint32_eq]
    omega
  usecs_lt := by
    rw [uint32_eq]
    omega

/-- The seconds wrap at 32 bits, and the microsecond sum at 64. -/
def addUsecs (time : IperfTime) (usecs : ℕ) : IperfTime :=
  let total := uint64 (time.usecs + usecs)
  ofCounters (time.secs + total / 1000000 : ℕ) (total % 1000000 : ℕ)

def inUsecs (time : IperfTime) : ℕ :=
  time.secs * 1000000 + time.usecs

/-- `inUsecs` as it is computed, with a product and a sum of type `long long`. -/
def inUsecsLong (time : IperfTime) : Option ℕ := do
  let product ← checked64 (time.secs * 1000000)
  let sum ← checked64 (product + time.usecs)
  some (uint64 sum)

def inSecs (time : IperfTime) : ℚ :=
  Binary64.roundDouble
    (time.secs + Binary64.roundDouble (time.usecs / 1000000))

def compare (time1 time2 : IperfTime) : Ordering :=
  (Ord.compare time1.secs time2.secs).then (Ord.compare time1.usecs time2.usecs)

/-- The order of `compare`. -/
def key (time : IperfTime) : ℕ ×ₗ ℕ :=
  toLex (time.secs, time.usecs)

theorem compare_eq_lt_iff (time1 time2 : IperfTime) :
    time1.compare time2 = .lt ↔ time1.key < time2.key := by
  simp [compare, key, Prod.Lex.toLex_lt_toLex, Ordering.then_eq_lt, Nat.compare_eq_lt]

theorem compare_eq_gt_iff (time1 time2 : IperfTime) :
    time1.compare time2 = .gt ↔ time2.key < time1.key := by
  rw [← compare_eq_lt_iff]
  unfold compare
  rw [Ordering.then_eq_gt, Ordering.then_eq_lt, Nat.compare_eq_gt, Nat.compare_eq_gt,
    Nat.compare_eq_lt, Nat.compare_eq_lt, Nat.compare_eq_eq, Nat.compare_eq_eq, eq_comm]

/-- The later value minus the earlier one, with a borrow of one second. -/
def laterMinus (later earlier : IperfTime) : IperfTime :=
  if later.usecs < earlier.usecs then
    ofCounters (later.secs - earlier.secs - 1)
      (uint32 (later.usecs + 1000000) - earlier.usecs)
  else
    ofCounters (later.secs - earlier.secs) (later.usecs - earlier.usecs)

/-- Distance of two values, whichever is the later one. -/
def diff (time1 time2 : IperfTime) : IperfTime :=
  match time1.compare time2 with
  | .eq => ofCounters 0 0
  | .gt => laterMinus time1 time2
  | .lt => laterMinus time2 time1

/-- What `iperf_time_diff` returns: the first value is not the later one. -/
def past (time1 time2 : IperfTime) : Bool :=
  time1.compare time2 ≠ .gt

/-- Values as the clock reports them, and as every addition leaves them. -/
def Normal (time : IperfTime) : Prop :=
  time.usecs < 1000000

instance (time : IperfTime) : Decidable time.Normal := by
  unfold Normal
  infer_instance

theorem ofCounters_normal (secs : ℤ) {usecs : ℕ} (h : usecs < 1000000) :
    (ofCounters secs usecs).Normal := by
  unfold ofCounters Normal
  simp only [uint32_eq]
  omega

section Normal

variable {time1 time2 : IperfTime}

theorem key_lt_iff (h1 : time1.Normal) (h2 : time2.Normal) :
    time1.key < time2.key ↔ time1.inUsecs < time2.inUsecs := by
  unfold Normal at h1 h2
  unfold key inUsecs
  rw [Prod.Lex.toLex_lt_toLex]
  simp only
  omega

theorem past_iff (h1 : time1.Normal) (h2 : time2.Normal) :
    time1.past time2 = true ↔ time1.inUsecs ≤ time2.inUsecs := by
  unfold past
  rw [decide_eq_true_iff, Ne, compare_eq_gt_iff, key_lt_iff h2 h1, not_lt]

theorem compare_eq_compare_inUsecs (h1 : time1.Normal) (h2 : time2.Normal) :
    time1.compare time2 = Ord.compare time1.inUsecs time2.inUsecs := by
  cases hcompare : time1.compare time2 with
  | lt =>
      rw [compare_eq_lt_iff, key_lt_iff h1 h2] at hcompare
      exact (Nat.compare_eq_lt.mpr hcompare).symm
  | gt =>
      rw [compare_eq_gt_iff, key_lt_iff h2 h1] at hcompare
      exact (Nat.compare_eq_gt.mpr hcompare).symm
  | eq =>
      have hge : ¬ time1.inUsecs < time2.inUsecs := by
        rw [← key_lt_iff h1 h2, ← compare_eq_lt_iff, hcompare]
        decide
      have hle : ¬ time2.inUsecs < time1.inUsecs := by
        rw [← key_lt_iff h2 h1, ← compare_eq_gt_iff, hcompare]
        decide
      exact (Nat.compare_eq_eq.mpr (by omega)).symm

theorem laterMinus_normal (h1 : time1.Normal) (h2 : time2.Normal) :
    (time1.laterMinus time2).Normal := by
  unfold Normal at h1 h2 ⊢
  unfold laterMinus ofCounters
  split_ifs
  · have hcarry : uint32 ((time1.usecs : ℤ) + 1000000) = time1.usecs + 1000000 := by
      rw [uint32_eq]
      omega
    simp only [hcarry, uint32_eq]
    omega
  · simp only [uint32_eq]
    omega

theorem diff_normal (h1 : time1.Normal) (h2 : time2.Normal) : (time1.diff time2).Normal := by
  unfold diff
  split
  · decide
  · exact laterMinus_normal h1 h2
  · exact laterMinus_normal h2 h1

theorem inUsecs_laterMinus (h1 : time1.Normal) (h2 : time2.Normal)
    (h : time2.inUsecs < time1.inUsecs) :
    (time1.laterMinus time2).inUsecs = time1.inUsecs - time2.inUsecs := by
  have hsecs1 := time1.secs_lt
  have hsecs2 := time2.secs_lt
  unfold Normal at h1 h2
  unfold inUsecs at h ⊢
  unfold laterMinus
  split_ifs
  · have hcarry : uint32 ((time1.usecs : ℤ) + 1000000) = time1.usecs + 1000000 := by
      rw [uint32_eq]
      omega
    unfold ofCounters
    simp only [hcarry, uint32_eq]
    omega
  · unfold ofCounters
    simp only [uint32_eq]
    omega

/-- The distance of normal values is exact. -/
theorem inUsecs_diff (h1 : time1.Normal) (h2 : time2.Normal) :
    ((time1.diff time2).inUsecs : ℤ) = |(time1.inUsecs : ℤ) - time2.inUsecs| := by
  unfold diff
  rw [compare_eq_compare_inUsecs h1 h2]
  split
  · rename_i heq
    rw [Nat.compare_eq_eq.mp heq, sub_self, abs_zero]
    rfl
  · rename_i hgt
    have hlater := Nat.compare_eq_gt.mp hgt
    rw [inUsecs_laterMinus h1 h2 hlater, abs_of_nonneg (by omega)]
    omega
  · rename_i hlt
    have hlater := Nat.compare_eq_lt.mp hlt
    rw [inUsecs_laterMinus h2 h1 hlater, abs_of_neg (by omega)]
    omega

end Normal

theorem addUsecs_normal (time : IperfTime) (usecs : ℕ) : (time.addUsecs usecs).Normal :=
  ofCounters_normal _ (Nat.mod_lt _ (by decide))

/-- A move that keeps the seconds in their counter is exact in both counters. -/
theorem addUsecs_eq
    (time : IperfTime) {usecs : ℕ}
    (hroom : time.secs + (time.usecs + usecs) / 1000000 < 4294967296) :
    (time.addUsecs usecs).secs = time.secs + (time.usecs + usecs) / 1000000 ∧
      (time.addUsecs usecs).usecs = (time.usecs + usecs) % 1000000 := by
  have htotal : uint64 ((time.usecs : ℤ) + usecs) = time.usecs + usecs := by
    rw [uint64_eq]
    omega
  unfold addUsecs ofCounters
  simp only [htotal, uint32_eq]
  omega

theorem inUsecs_addUsecs
    (time : IperfTime) {usecs : ℕ}
    (hroom : time.secs + (time.usecs + usecs) / 1000000 < 4294967296) :
    (time.addUsecs usecs).inUsecs = time.inUsecs + usecs := by
  obtain ⟨hsecs, husecs⟩ := time.addUsecs_eq hroom
  unfold inUsecs
  rw [hsecs, husecs]
  omega

theorem inUsecsLong_eq (time : IperfTime) : time.inUsecsLong = some time.inUsecs := by
  have hsecs := time.secs_lt
  have husecs := time.usecs_lt
  have hproduct : checked64 ((time.secs : ℤ) * 1000000) = some ((time.secs : ℤ) * 1000000) :=
    checked64_of_mem (by omega) (by omega)
  have hsum : checked64 ((time.secs : ℤ) * 1000000 + time.usecs) =
      some ((time.secs : ℤ) * 1000000 + time.usecs) :=
    checked64_of_mem (by omega) (by omega)
  have hvalue : uint64 ((time.secs : ℤ) * 1000000 + time.usecs) = time.inUsecs := by
    rw [uint64_eq, inUsecs]
    omega
  unfold inUsecsLong
  rw [hproduct, Option.bind_eq_bind, Option.bind_some, hsum, Option.bind_some, hvalue]

/-- Without a wrap of the microsecond sum, a moved value is at most as late as
the exact sum. -/
theorem inUsecs_addUsecs_le
    (time : IperfTime) {usecs : ℕ}
    (hsum : time.usecs + usecs < 18446744073709551616) :
    (time.addUsecs usecs).inUsecs ≤ time.inUsecs + usecs := by
  have htotal : uint64 ((time.usecs : ℤ) + usecs) = time.usecs + usecs := by
    rw [uint64_eq]
    omega
  have hsecs : uint32 ((time.secs + (time.usecs + usecs) / 1000000 : ℕ) : ℤ) ≤
      time.secs + (time.usecs + usecs) / 1000000 := by
    rw [uint32_eq]
    omega
  have husecs : uint32 (((time.usecs + usecs) % 1000000 : ℕ) : ℤ) ≤
      (time.usecs + usecs) % 1000000 := by
    rw [uint32_eq]
    omega
  unfold inUsecs addUsecs ofCounters
  simp only [htotal]
  omega

/-- Arithmetic on clock values is arithmetic on their microseconds. -/
theorem microseconds_exact
    {time1 time2 : IperfTime} (h1 : time1.Normal) (h2 : time2.Normal) :
    time1.compare time2 = Ord.compare time1.inUsecs time2.inUsecs ∧
      (time1.diff time2).Normal ∧
      ((time1.diff time2).inUsecs : ℤ) = |(time1.inUsecs : ℤ) - time2.inUsecs| ∧
      (time1.past time2 = true ↔ time1.inUsecs ≤ time2.inUsecs) ∧
      (∀ usecs, time1.secs + (time1.usecs + usecs) / 1000000 < 4294967296 →
        (time1.addUsecs usecs).Normal ∧
          (time1.addUsecs usecs).inUsecs = time1.inUsecs + usecs ∧
          ((time1.addUsecs usecs).diff time1).inUsecs = usecs) ∧
      ∀ time : IperfTime, time.inUsecsLong = some time.inUsecs := by
  refine ⟨compare_eq_compare_inUsecs h1 h2, diff_normal h1 h2, inUsecs_diff h1 h2,
    past_iff h1 h2, fun usecs hroom => ?_, inUsecsLong_eq⟩
  have hnormal := time1.addUsecs_normal usecs
  have hmoved := time1.inUsecs_addUsecs hroom
  have hback := inUsecs_diff hnormal h1
  rw [hmoved, abs_of_nonneg (by omega)] at hback
  exact ⟨hnormal, hmoved, by omega⟩

/-- A carry when the time is moved, and a borrow on the way back. -/
theorem microseconds_exact_carry :
    ((ofCounters 4294967294 999999).addUsecs 1000000).inUsecs =
        (ofCounters 4294967294 999999).inUsecs + 1000000 ∧
      (((ofCounters 4294967294 999999).addUsecs 1000000).diff
        (ofCounters 4294967294 999999)).inUsecs = 1000000 := by
  have h1 : (ofCounters 4294967294 999999).Normal := by decide
  obtain ⟨-, -, -, -, hmoves, -⟩ := microseconds_exact h1 h1
  exact (hmoves 1000000 (by decide)).2

end IperfTime

end Iperf3
