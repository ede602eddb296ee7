import Iperf3.CyclicBuffer
import Iperf3.RateWindow
import Mathlib.Tactic

/-!
# The average that the rate limit is compared with

Every call of `iperf_check_total_rate` stores the bytes of one period in a
cyclic array and, after a warm-up, compares the average over the whole array
with the limit.  The conversions to `double` are a parameter here, and the
comparison with a sliding window is made in rational arithmetic.
-/

namespace Iperf3

open MachineInt Binary64 CyclicBuffer

/-! ## The call with its conversions as a parameter -/

def Test.averagingPeriodIn (round : ℚ → ℚ) (t : Test) : ℚ :=
  round (t.statsInterval * t.settings.bitrateLimitStatsPerInterval)

def Test.windowBitsPerSecondIn (round : ℚ → ℚ) (t : Test) : ℕ :=
  ⌊round (round (uint64 (t.windowBytes * 8)) / t.averagingPeriodIn round)⌋₊

def Test.iperfCheckTotalRateIn (round : ℚ → ℚ) (t : Test) (done : Bool)
    (lastIntervalBytesTransferred : ℕ) : Test :=
  if done ∨ t.settings.bitrateLimit = 0 then t
  else
    let t' := t.storeInterval lastIntervalBytesTransferred
    if t'.bitrateLimitStatsCount <
        uint64 t'.settings.bitrateLimitStatsPerInterval then t'
    else if t'.settings.bitrateLimit < t'.windowBitsPerSecondIn round then
      { t' with bitrateLimitExceeded := true }
    else t'

theorem iperfCheckTotalRate_fst (t : Test) (done : Bool) (bytes : ℕ) :
    (t.iperfCheckTotalRate done bytes).1 = t.iperfCheckTotalRateIn roundDouble done bytes := by
  have hrate : ∀ u : Test, u.windowBitsPerSecondIn roundDouble = u.windowBitsPerSecond :=
    fun _ => rfl
  unfold Test.iperfCheckTotalRate Test.iperfCheckTotalRateIn
  simp only [hrate]
  split_ifs <;> rfl

/-- A call, made when the test is done already or not, with the bytes of its
period. -/
abbrev RateCall : Type := Bool × ℕ

def Test.checkRates (round : ℚ → ℚ) (t : Test) (calls : List RateCall) : Test :=
  calls.foldl (fun t call => t.iperfCheckTotalRateIn round call.1 call.2) t

def checkedBytes (calls : List RateCall) : List ℕ :=
  (calls.filter fun call => !call.1).map Prod.snd

/-! ## The window of the array -/

/-- A test at its start: the counter, the index and the flag are cleared. -/
structure FreshWindow (t : Test) : Prop where
  count : t.bitrateLimitStatsCount = 0
  index : t.bitrateLimitLastIntervalIndex = 0
  exceeded : t.bitrateLimitExceeded = false
  length : t.bitrateLimitIntervalsTrafficBytes.length = maxInterval

theorem iperfResetTest_fresh (b : Build) (t : Test) : FreshWindow (t.iperfResetTest b) :=
  ⟨rfl, rfl, rfl, List.length_replicate⟩

theorem serverStart_fresh (b : Build) (a : ServerArgs) : FreshWindow (serverStart b a) := by
  unfold serverStart applyStatsPerInterval
  split_ifs <;> exact ⟨rfl, rfl, rfl, List.length_replicate⟩

def Test.periods (t : Test) : ℕ :=
  t.settings.bitrateLimitStatsPerInterval.toNat

def Test.slots (t : Test) : List ℕ :=
  t.bitrateLimitIntervalsTrafficBytes.take t.periods

/-- The window after the periods `stored`, in front of which the array held
`old`, oldest first. -/
structure WindowHolds (u : Test) (old stored : List ℕ) (t : Test) : Prop where
  same : SameWindow t u
  count : t.bitrateLimitStatsCount = uint64 stored.length
  index : t.bitrateLimitLastIntervalIndex < t.periods
  length : t.bitrateLimitIntervalsTrafficBytes.length = maxInterval
  window :
    window t.bitrateLimitLastIntervalIndex t.slots = (old ++ stored).drop stored.length

theorem FittingWindow.periods_pos {u : Test} (hu : FittingWindow u) : 0 < u.periods := by
  have hone := hu.one_le
  unfold Test.periods
  omega

theorem FittingWindow.periods_le {u : Test} (hu : FittingWindow u) : u.periods ≤ maxInterval := by
  have hle := hu.le_maxInterval
  unfold Test.periods
  omega

theorem FittingWindow.uint64_periods {u : Test} (hu : FittingWindow u) :
    uint64 u.settings.bitrateLimitStatsPerInterval = u.periods := by
  have hone := hu.one_le
  have hle := hu.le_maxInterval
  unfold maxInterval at hle
  unfold Test.periods
  rw [uint64_eq]
  omega

theorem SameWindow.periods_eq {t u : Test} (h : SameWindow t u) : t.periods = u.periods := by
  unfold Test.periods
  rw [h.statsPerInterval]

theorem FreshWindow.holds {t : Test} (h : FreshWindow t) (hfit : FittingWindow t) :
    WindowHolds t (window 0 t.slots) [] t where
  same := ⟨rfl, rfl, rfl⟩
  count := h.count
  index := by
    rw [h.index]
    exact hfit.periods_pos
  length := h.length
  window := by
    rw [h.index, List.append_nil]
    rfl

/-! ## One call -/

theorem iperfCheckTotalRateIn_eq
    {round : ℚ → ℚ} {t : Test} (hlimit : t.settings.bitrateLimit ≠ 0) (bytes : ℕ) :
    t.iperfCheckTotalRateIn round false bytes =
      { t.storeInterval bytes with
        bitrateLimitExceeded := t.bitrateLimitExceeded ||
          (decide (uint64 t.settings.bitrateLimitStatsPerInterval ≤
              uint64 (t.bitrateLimitStatsCount + 1)) &&
            decide (t.settings.bitrateLimit <
              (t.storeInterval bytes).windowBitsPerSecondIn round)) } := by
  have hcount : (t.storeInterval bytes).bitrateLimitStatsCount =
      uint64 (t.bitrateLimitStatsCount + 1) := rfl
  have hsettings : (t.storeInterval bytes).settings = t.settings := rfl
  unfold Test.iperfCheckTotalRateIn
  simp only [Bool.false_eq_true, hlimit, or_self, if_false, hcount, hsettings]
  by_cases hwarm : uint64 (t.bitrateLimitStatsCount + 1) <
      uint64 t.settings.bitrateLimitStatsPerInterval
  · rw [if_pos hwarm, decide_eq_false (not_le.mpr hwarm), Bool.false_and, Bool.or_false]
    rfl
  · rw [if_neg hwarm, decide_eq_true (not_lt.mp hwarm), Bool.true_and]
    by_cases hrate : t.settings.bitrateLimit < (t.storeInterval bytes).windowBitsPerSecondIn round
    · rw [if_pos hrate, decide_eq_true hrate, Bool.or_true]
    · rw [if_neg hrate, decide_eq_false hrate, Bool.or_false]
      rfl

theorem WindowHolds.store
    {u t : Test} {old stored : List ℕ} (h : WindowHolds u old stored t) (hu : FittingWindow u)
    (hold : old.length = u.periods) (bytes : ℕ) (exceeded : Bool) :
    WindowHolds u old (stored ++ [bytes])
      { t.storeInterval bytes with bitrateLimitExceeded := exceeded } := by
  have hperiods := h.same.periods_eq
  have hexact := (h.same.fittingWindow hu).uint64_periods
  have hindex := h.index
  have hsmall := hu.periods_le
  have hnext : t.nextIntervalIndex = advance t.periods t.bitrateLimitLastIntervalIndex := by
    have hstep : uint64 ((t.bitrateLimitLastIntervalIndex : ℤ) + 1) =
        t.bitrateLimitLastIntervalIndex + 1 := by
      unfold maxInterval at hsmall
      rw [uint64_eq]
      omega
    unfold Test.nextIntervalIndex advance
    simp only [hstep, hexact]
  have hslots : t.slots.length = t.periods := by
    unfold Test.slots
    rw [List.length_take, h.length, hperiods]
    omega
  constructor
  · exact ⟨h.same.statsInterval, h.same.bitrateLimit, h.same.statsPerInterval⟩
  · change uint64 ((t.bitrateLimitStatsCount : ℤ) + 1) = _
    rw [h.count, uint64_add_left, List.length_append, List.length_singleton]
    norm_cast
  · change t.nextIntervalIndex < t.periods
    rw [hnext]
    exact advance_lt hindex
  · change (t.bitrateLimitIntervalsTrafficBytes.set t.nextIntervalIndex bytes).length = _
    rw [List.length_set, h.length]
  · have hne : old ≠ [] := by
      rw [← List.length_pos_iff, hold]
      exact hu.periods_pos
    have hset : (t.storeInterval bytes).slots = t.slots.set t.nextIntervalIndex bytes :=
      List.take_set
    change CyclicBuffer.window t.nextIntervalIndex (t.storeInterval bytes).slots = _
    rw [hset, hnext, window_store hslots hindex, h.window, drop_append_singleton hne]

theorem foldl_range_getD (n : ℕ) (l : List ℕ) :
    (List.range n).foldl (fun total i => uint64 (total + l.getD i 0)) 0 =
      uint64 (l.take n).sum := by
  induction n with
  | zero => rfl
  | succ n ih =>
      have hsum : (l.take (n + 1)).sum = (l.take n).sum + l.getD n 0 := by
        rw [List.take_add_one, List.sum_append]
        cases hget : l[n]? <;> simp [List.getD, hget]
      rw [List.range_succ, List.foldl_append, ih, hsum]
      simp only [List.foldl_cons, List.foldl_nil]
      rw [uint64_add_left]
      norm_cast

/-- What the limit is compared with after the first `m` periods. -/
def Test.WindowExceeds (t : Test) (stored : List ℕ) (m : ℕ) : Prop :=
  t.settings.bitrateLimit <
    ⌊(8 * (lastBefore t.periods m stored).sum : ℚ) / (t.periods * t.statsInterval)⌋₊

theorem WindowHolds.rate
    {u t : Test} {old stored : List ℕ} (h : WindowHolds u old stored t) (hu : FittingWindow u)
    (hold : old.length = u.periods) (hfull : u.periods ≤ stored.length)
    (hsmall : (lastBefore u.periods stored.length stored).sum < 2 ^ 61) :
    t.settings.bitrateLimit < t.windowBitsPerSecondIn id ↔
      u.WindowExceeds stored stored.length := by
  have hperiods := h.same.periods_eq
  have hsum : t.slots.sum = (lastBefore u.periods stored.length stored).sum := by
    rw [← hold, ← drop_append_of_full (hold ▸ hfull), ← h.window]
    exact (window_perm _ _).sum_eq.symm
  have hbytes : t.windowBytes = (lastBefore u.periods stored.length stored).sum := by
    have hfold : t.windowBytes = uint64 t.slots.sum := foldl_range_getD _ _
    rw [hfold, hsum, uint64_eq]
    omega
  have hbits : uint64 (((lastBefore u.periods stored.length stored).sum : ℤ) * 8) =
      8 * (lastBefore u.periods stored.length stored).sum := by
    rw [uint64_eq]
    omega
  have hcount : ((t.settings.bitrateLimitStatsPerInterval : ℤ) : ℚ) = u.periods := by
    have hone := (h.same.fittingWindow hu).one_le
    rw [← hperiods]
    unfold Test.periods
    exact_mod_cast (Int.toNat_of_nonneg (by omega)).symm
  unfold Test.windowBitsPerSecondIn Test.averagingPeriodIn Test.WindowExceeds
  rw [hbytes, hbits, hcount, h.same.bitrateLimit, h.same.statsInterval]
  simp only [id]
  rw [mul_comm u.statsInterval]
  push_cast
  rfl

/-! ## All calls of a test -/

/-- The sums over the window stay in the range of the code. -/
def Test.SmallWindows (t : Test) (stored : List ℕ) : Prop :=
  ∀ m ≤ stored.length, t.periods ≤ m → (lastBefore t.periods m stored).sum < 2 ^ 61

/-- The flag is set exactly if a window was above the limit at a call whose
number, in 64 bits, is past the warm-up. -/
def Test.FlagFollows (u t : Test) (stored : List ℕ) : Prop :=
  t.bitrateLimitExceeded = true ↔
    ∃ m ≤ stored.length, u.periods ≤ uint64 m ∧ u.WindowExceeds stored m

theorem uint64_le (m : ℕ) : uint64 m ≤ m := by
  rw [uint64_eq]
  omega

theorem WindowExceeds_append
    {u : Test} {m : ℕ} {stored : List ℕ} (hm : m ≤ stored.length) (later : List ℕ) :
    u.WindowExceeds (stored ++ later) m ↔ u.WindowExceeds stored m := by
  unfold Test.WindowExceeds
  rw [lastBefore_append hm]

theorem WindowHolds.check
    {u t : Test} {old stored : List ℕ} (h : WindowHolds u old stored t) (hu : FittingWindow u)
    (hlimit : u.settings.bitrateLimit ≠ 0) (hold : old.length = u.periods)
    (hflag : u.FlagFollows t stored) (bytes : ℕ) (hsmall : u.SmallWindows (stored ++ [bytes])) :
    WindowHolds u old (stored ++ [bytes]) (t.iperfCheckTotalRateIn id false bytes) ∧
      u.FlagFollows (t.iperfCheckTotalRateIn id false bytes) (stored ++ [bytes]) := by
  have hlimited : t.settings.bitrateLimit ≠ 0 := h.same.bitrateLimit.symm ▸ hlimit
  have hcall : t.iperfCheckTotalRateIn id false bytes = _ :=
    iperfCheckTotalRateIn_eq hlimited bytes
  have hperiods : uint64 t.settings.bitrateLimitStatsPerInterval = u.periods := by
    rw [(h.same.fittingWindow hu).uint64_periods, h.same.periods_eq]
  have hcount : uint64 ((t.bitrateLimitStatsCount : ℤ) + 1) = uint64 (stored.length + 1 : ℕ) := by
    rw [h.count, uint64_add_left]
    norm_cast
  have hlength : (stored ++ [bytes]).length = stored.length + 1 := by simp
  have hstored := h.store hu hold bytes t.bitrateLimitExceeded
  -- the average of the call, once the array is full
  have hrate : u.periods ≤ uint64 (stored.length + 1 : ℕ) →
      (t.settings.bitrateLimit < (t.storeInterval bytes).windowBitsPerSecondIn id ↔
        u.WindowExceeds (stored ++ [bytes]) (stored.length + 1)) := by
    intro hwarm
    have hfull : u.periods ≤ (stored ++ [bytes]).length := by
      rw [hlength]
      exact hwarm.trans (uint64_le _)
    have hnow := hstored.rate hu hold hfull (hsmall _ le_rfl hfull)
    rw [hlength] at hnow
    exact hnow
  refine ⟨hcall ▸ h.store hu hold bytes _, ?_⟩
  unfold Test.FlagFollows at hflag ⊢
  rw [hcall, hperiods, hcount, hlength]
  simp only [Bool.or_eq_true, Bool.and_eq_true, decide_eq_true_eq]
  rw [hflag]
  constructor
  · rintro (⟨m, hm, hwarm, hexceeds⟩ | ⟨hwarm, hexceeds⟩)
    · exact ⟨m, hm.trans (Nat.le_succ _), hwarm, (WindowExceeds_append hm _).mpr hexceeds⟩
    · exact ⟨stored.length + 1, le_rfl, hwarm, (hrate hwarm).mp hexceeds⟩
  · rintro ⟨m, hm, hwarm, hexceeds⟩
    rcases Nat.lt_or_ge stored.length m with hlast | hearlier
    · obtain rfl : m = stored.length + 1 := by omega
      exact Or.inr ⟨hwarm, (hrate hwarm).mpr hexceeds⟩
    · exact Or.inl ⟨m, hearlier, hwarm, (WindowExceeds_append hearlier _).mp hexceeds⟩

theorem Test.SmallWindows.of_append
    {u : Test} {stored later : List ℕ} (h : u.SmallWindows (stored ++ later)) :
    u.SmallWindows stored := by
  intro m hm hfull
  rw [← lastBefore_append hm later]
  exact h m (by rw [List.length_append]; omega) hfull

theorem WindowHolds.checkRates
    {u : Test} (hu : FittingWindow u) (hlimit : u.settings.bitrateLimit ≠ 0) {old : List ℕ}
    (hold : old.length = u.periods) (calls : List RateCall) {t : Test} {stored : List ℕ}
    (h : WindowHolds u old stored t) (hflag : u.FlagFollows t stored)
    (hsmall : u.SmallWindows (stored ++ checkedBytes calls)) :
    u.FlagFollows (t.checkRates id calls) (stored ++ checkedBytes calls) := by
  induction calls generalizing t stored with
  | nil =>
      rw [checkedBytes, List.filter_nil, List.map_nil, List.append_nil]
      exact hflag
  | cons call calls ih =>
      obtain ⟨done, bytes⟩ := call
      cases done with
      | true =>
          have hsame : t.iperfCheckTotalRateIn id true bytes = t := if_pos (Or.inl rfl)
          have hchecked : checkedBytes ((true, bytes) :: calls) = checkedBytes calls := rfl
          rw [hchecked] at hsmall ⊢
          rw [Test.checkRates, List.foldl_cons, hsame]
          exact ih h hflag hsmall
      | false =>
          have hchecked : checkedBytes ((false, bytes) :: calls) = bytes :: checkedBytes calls :=
            rfl
          rw [hchecked, List.append_cons] at hsmall ⊢
          obtain ⟨hnext, hnextFlag⟩ := h.check hu hlimit hold hflag bytes hsmall.of_append
          exact ih hnext hnextFlag hsmall

theorem FreshWindow.checkRates
    {t : Test} (h : FreshWindow t) (hfit : FittingWindow t)
    (hlimit : t.settings.bitrateLimit ≠ 0) (calls : List RateCall)
    (hsmall : t.SmallWindows (checkedBytes calls)) :
    t.FlagFollows (t.checkRates id calls) (checkedBytes calls) := by
  have hold : (window 0 t.slots).length = t.periods := by
    rw [length_window, Test.slots, List.length_take, h.length]
    exact min_eq_left hfit.periods_le
  have hflag : t.FlagFollows t [] := by
    unfold Test.FlagFollows
    rw [h.exceeded]
    constructor
    · intro hset
      cases hset
    · rintro ⟨m, hm, hwarm, -⟩
      have hpos := hfit.periods_pos
      have hzero := uint64_le m
      rw [List.length_nil] at hm
      omega
  have hrun := (h.holds hfit).checkRates hfit hlimit hold calls hflag (by simpa using hsmall)
  simpa using hrun

/-- From this state on the flag follows the sliding window, for all calls of a
test. -/
def Test.ChecksWindow (t : Test) : Prop :=
  ∀ calls, t.SmallWindows (checkedBytes calls) →
    t.FlagFollows (t.checkRates id calls) (checkedBytes calls)

/-- The first test and every test after a reset are checked by a sliding
window, whatever the array held before the reset. -/
theorem total_rate_window
    {t : Test} (hfit : FittingWindow t) (hlimit : t.settings.bitrateLimit ≠ 0) :
    (FreshWindow t → t.ChecksWindow) ∧ ∀ b, (t.iperfResetTest b).ChecksWindow := by
  constructor
  · intro hfresh calls hsmall
    exact hfresh.checkRates hfit hlimit calls hsmall
  · intro b calls hsmall
    have hsame := iperfResetTest_sameWindow (t := t) b ⟨rfl, rfl, rfl⟩
    exact (iperfResetTest_fresh b t).checkRates (hsame.fittingWindow hfit)
      (hsame.bitrateLimit.symm ▸ hlimit) calls hsmall

def secondsTest (periods : ℤ) : Test :=
  { iperfNewTest with
    statsInterval := 1
    settings := { iperfNewTest.settings with
      bitrateLimit := 1
      bitrateLimitStatsPerInterval := periods } }

theorem secondsTest_fresh (periods : ℤ) : FreshWindow (secondsTest periods) :=
  ⟨rfl, rfl, rfl, List.length_replicate⟩

theorem secondsTest_fits {periods : ℤ} (hlow : 1 ≤ periods) (hhigh : periods ≤ 60) :
    FittingWindow (secondsTest periods) :=
  ⟨one_pos, hlow, hhigh⟩

theorem total_rate_window_two :
    (secondsTest 2).ChecksWindow ∧ ((secondsTest 2).iperfResetTest Build.linux).ChecksWindow :=
  have hfit : FittingWindow (secondsTest 2) := secondsTest_fits (by decide) (by decide)
  have hwindow := total_rate_window hfit (by decide)
  ⟨hwindow.1 (secondsTest_fresh 2), hwindow.2 Build.linux⟩

/-! ### The counter of the warm-up wraps -/

def idleThenByte (idle : ℕ) : List RateCall :=
  List.replicate idle (false, 0) ++ [(false, 1)]

theorem checkedBytes_idleThenByte (idle : ℕ) :
    checkedBytes (idleThenByte idle) = List.replicate idle 0 ++ [1] := by
  simp [checkedBytes, idleThenByte]

theorem lastBefore_idle {idle m : ℕ} (hm : m ≤ idle) :
    (lastBefore 1 m (List.replicate idle 0 ++ [1])).sum = 0 := by
  rw [lastBefore_append (by simpa using hm), lastBefore, List.take_replicate, List.drop_replicate,
    List.sum_replicate, smul_zero]

theorem lastBefore_byte (idle : ℕ) :
    (lastBefore 1 (idle + 1) (List.replicate idle 0 ++ [1])).sum = 1 := by
  rw [lastBefore, List.take_of_length_le (by simp), Nat.add_sub_cancel, List.drop_left' (by simp),
    List.sum_singleton]

theorem idle_smallWindows (idle : ℕ) :
    (secondsTest 1).SmallWindows (checkedBytes (idleThenByte idle)) := by
  rw [checkedBytes_idleThenByte]
  intro m hm _
  have hperiods : (secondsTest 1).periods = 1 := rfl
  rw [hperiods]
  rcases Nat.lt_or_ge idle m with hlast | hidle
  · obtain rfl : m = idle + 1 := by
      rw [List.length_append, List.length_replicate, List.length_singleton] at hm
      omega
    rw [lastBefore_byte]
    norm_num
  · rw [lastBefore_idle hidle]
    norm_num

theorem idle_exceeds_iff {idle m : ℕ} (hm : m ≤ idle + 1) :
    (secondsTest 1).WindowExceeds (List.replicate idle 0 ++ [1]) m ↔ m = idle + 1 := by
  have hperiods : (secondsTest 1).periods = 1 := rfl
  have hlimit : (secondsTest 1).settings.bitrateLimit = 1 := rfl
  have hinterval : (secondsTest 1).statsInterval = 1 := rfl
  unfold Test.WindowExceeds
  rw [hperiods, hlimit, hinterval]
  rcases Nat.lt_or_ge idle m with hlast | hidle
  · obtain rfl : m = idle + 1 := by omega
    rw [lastBefore_byte]
    norm_num
  · rw [lastBefore_idle hidle]
    norm_num
    omega

/-- The byte of the last of `2 ^ 64` calls is not checked, because the counter
of the warm-up starts again. -/
theorem total_rate_counter_wraps :
    FittingWindow (secondsTest 1) ∧ FreshWindow (secondsTest 1) ∧
      (secondsTest 1).SmallWindows (checkedBytes (idleThenByte 18446744073709551615)) ∧
      ¬ (((secondsTest 1).checkRates id
            (idleThenByte 18446744073709551615)).bitrateLimitExceeded = true ↔
          ∃ m ≤ (checkedBytes (idleThenByte 18446744073709551615)).length,
            (secondsTest 1).periods ≤ m ∧
              (secondsTest 1).WindowExceeds
                (checkedBytes (idleThenByte 18446744073709551615)) m) := by
  have hfit : FittingWindow (secondsTest 1) := secondsTest_fits (by decide) (by decide)
  have hsmall := idle_smallWindows 18446744073709551615
  refine ⟨hfit, secondsTest_fresh 1, hsmall, fun hclaim => ?_⟩
  have hflag := (secondsTest_fresh 1).checkRates hfit (by decide) _ hsmall
  unfold Test.FlagFollows at hflag
  rw [hclaim] at hflag
  have hperiods : (secondsTest 1).periods = 1 := rfl
  have hlength : (checkedBytes (idleThenByte 18446744073709551615)).length =
      18446744073709551615 + 1 := by
    rw [checkedBytes_idleThenByte, List.length_append, List.length_replicate,
      List.length_singleton]
  rw [hlength, hperiods, checkedBytes_idleThenByte] at hflag
  obtain ⟨m, hm, hwarm, hexceeds⟩ := hflag.mp
    ⟨_, le_rfl, by norm_num, (idle_exceeds_iff le_rfl).mpr rfl⟩
  rw [idle_exceeds_iff hm] at hexceeds
  rw [hexceeds, uint64_eq] at hwarm
  omega

end Iperf3
