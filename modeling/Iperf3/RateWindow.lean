import Iperf3.Isolation
import Mathlib.Tactic

/-!
# The averaging window of the server's rate limit

After each statistics period the server stores the bytes of that period in a
cyclic array and, once enough periods have passed, compares the average rate
with the limit.  The array has `maxInterval` elements; the number of periods
in the window comes from two options of the command line.  The model records
every index that a call uses and the period it divides by, so that a use
outside the array is visible: such a write has no effect here, and such a
read gives zero.
-/

namespace Iperf3

open MachineInt Binary64

/-- Array indices used by one call, and the period that it divides by. -/
structure WindowUse where
  indices : List ℕ
  period : Option ℚ

def WindowUse.Safe (use : WindowUse) : Prop :=
  (∀ i ∈ use.indices, i < iperfNewTest.bitrateLimitIntervalsTrafficBytes.length) ∧
    ∀ period ∈ use.period, period ≠ 0

/-- The slot that the next period is stored in. -/
def Test.nextIntervalIndex (t : Test) : ℕ :=
  let index := uint64 (t.bitrateLimitLastIntervalIndex + 1)
  if uint64 t.settings.bitrateLimitStatsPerInterval ≤ index then 0 else index

def Test.averagingPeriod (t : Test) : ℚ :=
  roundDouble (t.statsInterval * t.settings.bitrateLimitStatsPerInterval)

def Test.storeInterval (t : Test) (bytes : ℕ) : Test :=
  { t with
    bitrateLimitLastIntervalIndex := t.nextIntervalIndex
    bitrateLimitIntervalsTrafficBytes :=
      t.bitrateLimitIntervalsTrafficBytes.set t.nextIntervalIndex bytes
    bitrateLimitStatsCount := uint64 (t.bitrateLimitStatsCount + 1) }

/-- Sum over the window, in 64 bits. -/
def Test.windowBytes (t : Test) : ℕ :=
  (List.range t.settings.bitrateLimitStatsPerInterval.toNat).foldl
    (fun total i =>
      uint64 (total + t.bitrateLimitIntervalsTrafficBytes.getD i 0)) 0

/-- A period of zero seconds is not covered: its quotient, infinite or no number
at all, is converted to an integer in the code and zero here. -/
def Test.windowBitsPerSecond (t : Test) : ℕ :=
  ⌊roundDouble (roundDouble (uint64 (t.windowBytes * 8)) / t.averagingPeriod)⌋₊

def Test.iperfCheckTotalRate (t : Test) (done : Bool)
    (lastIntervalBytesTransferred : ℕ) : Test × WindowUse :=
  if done ∨ t.settings.bitrateLimit = 0 then (t, ⟨[], none⟩)
  else
    let t' := t.storeInterval lastIntervalBytesTransferred
    if t'.bitrateLimitStatsCount <
        uint64 t'.settings.bitrateLimitStatsPerInterval then
      (t', ⟨[t'.bitrateLimitLastIntervalIndex], none⟩)
    else
      (if t'.settings.bitrateLimit < t'.windowBitsPerSecond then
          { t' with bitrateLimitExceeded := true }
        else t',
        ⟨t'.bitrateLimitLastIntervalIndex ::
            List.range t'.settings.bitrateLimitStatsPerInterval.toNat,
          some t'.averagingPeriod⟩)

/-! ## Runs -/

/-- What happens to the window in the life of a server. -/
inductive WindowStep where
  | parameters (message : Option Json)
  | check (done : Bool) (bytes : ℕ)
  | reset

def WindowStep.apply (b : Build) (t : Test) : WindowStep → Test × List WindowUse
  | .parameters message => ((getParameters b message t).1, [])
  | .check done bytes =>
      let (t', use) := t.iperfCheckTotalRate done bytes
      (t', [use])
  | .reset => (t.iperfResetTest b, [])

def afterWindowSteps (b : Build) (t : Test) : List WindowStep → Test
  | [] => t
  | step :: steps => afterWindowSteps b (step.apply b t).1 steps

def windowUses (b : Build) (t : Test) : List WindowStep → List WindowUse
  | [] => []
  | step :: steps =>
      (step.apply b t).2 ++ windowUses b (step.apply b t).1 steps

/-! ## The members that decide -/

/-- The members that the window is laid out by are those of the start. -/
structure SameWindow (t u : Test) : Prop where
  statsInterval : t.statsInterval = u.statsInterval
  bitrateLimit : t.settings.bitrateLimit = u.settings.bitrateLimit
  statsPerInterval :
    t.settings.bitrateLimitStatsPerInterval =
      u.settings.bitrateLimitStatsPerInterval

/-- A call that is not suppressed stores the period, and may raise the
exceeded flag. -/
theorem iperfCheckTotalRate_eq
    (t : Test) (bytes : ℕ) (hlimit : t.settings.bitrateLimit ≠ 0) :
    ∃ exceeded, t.iperfCheckTotalRate false bytes =
      ({ t.storeInterval bytes with bitrateLimitExceeded := exceeded },
        if uint64 (t.bitrateLimitStatsCount + 1) <
            uint64 t.settings.bitrateLimitStatsPerInterval then
          ⟨[t.nextIntervalIndex], none⟩
        else
          ⟨t.nextIntervalIndex ::
              List.range t.settings.bitrateLimitStatsPerInterval.toNat,
            some t.averagingPeriod⟩) := by
  unfold Test.iperfCheckTotalRate
  simp only [Bool.false_eq_true, hlimit, or_self, if_false]
  by_cases hearly : uint64 (t.bitrateLimitStatsCount + 1) <
      uint64 t.settings.bitrateLimitStatsPerInterval
  · refine ⟨t.bitrateLimitExceeded, ?_⟩
    rw [if_pos hearly]
    exact if_pos hearly
  · by_cases hexceeded : t.settings.bitrateLimit <
        (t.storeInterval bytes).windowBitsPerSecond
    · refine ⟨true, ?_⟩
      rw [if_neg hearly]
      refine (if_neg hearly).trans ?_
      rw [if_pos (show (t.storeInterval bytes).settings.bitrateLimit <
        (t.storeInterval bytes).windowBitsPerSecond from hexceeded)]
      rfl
    · refine ⟨t.bitrateLimitExceeded, ?_⟩
      rw [if_neg hearly]
      refine (if_neg hearly).trans ?_
      rw [if_neg (show ¬ (t.storeInterval bytes).settings.bitrateLimit <
        (t.storeInterval bytes).windowBitsPerSecond from hexceeded)]
      rfl

theorem iperfCheckTotalRate_suppressed
    {t : Test} {done : Bool} (bytes : ℕ)
    (h : done = true ∨ t.settings.bitrateLimit = 0) :
    t.iperfCheckTotalRate done bytes = (t, ⟨[], none⟩) := by
  unfold Test.iperfCheckTotalRate
  rw [if_pos h]

theorem iperfCheckTotalRate_sameWindow
    {t u : Test} (done : Bool) (bytes : ℕ) (h : SameWindow t u) :
    SameWindow (t.iperfCheckTotalRate done bytes).1 u := by
  by_cases hsuppressed : done = true ∨ t.settings.bitrateLimit = 0
  · rw [iperfCheckTotalRate_suppressed bytes hsuppressed]
    exact h
  · rw [not_or, Bool.not_eq_true] at hsuppressed
    obtain ⟨exceeded, hcall⟩ := iperfCheckTotalRate_eq t bytes hsuppressed.2
    rw [hsuppressed.1, hcall]
    exact ⟨h.statsInterval, h.bitrateLimit, h.statsPerInterval⟩

theorem getParameters_sameWindow
    {t u : Test} (b : Build) (message : Option Json) (h : SameWindow t u) :
    SameWindow (getParameters b message t).1 u := by
  cases message with
  | none => exact ⟨h.statsInterval, h.bitrateLimit, h.statsPerInterval⟩
  | some j =>
      obtain ⟨r, code, hread⟩ := getParameters_eq b j t
      rw [hread]
      exact ⟨h.statsInterval, h.bitrateLimit, h.statsPerInterval⟩

theorem iperfResetTest_sameWindow
    {t u : Test} (b : Build) (h : SameWindow t u) :
    SameWindow (t.iperfResetTest b) u := by
  unfold Test.iperfResetTest Test.setProtocol Build.supports
    Test.checkSenderHasRetransmits
  simp only [if_true]
  split_ifs
  all_goals exact ⟨h.statsInterval, h.bitrateLimit, h.statsPerInterval⟩

theorem WindowStep.apply_sameWindow
    {t u : Test} (b : Build) (step : WindowStep) (h : SameWindow t u) :
    SameWindow (step.apply b t).1 u := by
  cases step with
  | parameters message => exact getParameters_sameWindow b message h
  | check done bytes => exact iperfCheckTotalRate_sameWindow done bytes h
  | reset => exact iperfResetTest_sameWindow b h

/-! ## Safe windows -/

/-- A window that fits the array and spans some time. -/
structure FittingWindow (t : Test) : Prop where
  statsInterval_pos : 0 < t.statsInterval
  one_le : 1 ≤ t.settings.bitrateLimitStatsPerInterval
  le_maxInterval : t.settings.bitrateLimitStatsPerInterval ≤ maxInterval

theorem SameWindow.fittingWindow
    {t u : Test} (h : SameWindow t u) (hu : FittingWindow u) : FittingWindow t where
  statsInterval_pos := h.statsInterval ▸ hu.statsInterval_pos
  one_le := h.statsPerInterval ▸ hu.one_le
  le_maxInterval := h.statsPerInterval ▸ hu.le_maxInterval

theorem FittingWindow.nextIntervalIndex_lt
    {t : Test} (h : FittingWindow t) : t.nextIntervalIndex < maxInterval := by
  have hone := h.one_le
  have hle := h.le_maxInterval
  have hexact : (uint64 t.settings.bitrateLimitStatsPerInterval : ℤ) =
      t.settings.bitrateLimitStatsPerInterval := by
    unfold maxInterval at hle
    exact uint64_of_mem (by omega) (by omega)
  unfold Test.nextIntervalIndex
  simp only
  split_ifs with hwrap
  · decide
  · omega

theorem FittingWindow.averagingPeriod_ne_zero
    {t : Test} (h : FittingWindow t) : t.averagingPeriod ≠ 0 := by
  have hcount : (0 : ℚ) < t.settings.bitrateLimitStatsPerInterval := by
    have hone := h.one_le
    exact_mod_cast (by omega : 0 < t.settings.bitrateLimitStatsPerInterval)
  exact (roundDouble_pos (mul_pos h.statsInterval_pos hcount)).ne'

theorem FittingWindow.safe
    {t : Test} (h : FittingWindow t) (done : Bool) (bytes : ℕ) :
    (t.iperfCheckTotalRate done bytes).2.Safe := by
  by_cases hsuppressed : done = true ∨ t.settings.bitrateLimit = 0
  · rw [iperfCheckTotalRate_suppressed bytes hsuppressed]
    exact ⟨by simp, by simp⟩
  · rw [not_or, Bool.not_eq_true] at hsuppressed
    obtain ⟨exceeded, hcall⟩ := iperfCheckTotalRate_eq t bytes hsuppressed.2
    have hlength : iperfNewTest.bitrateLimitIntervalsTrafficBytes.length =
        maxInterval := by decide
    have hindex := h.nextIntervalIndex_lt
    have hle := h.le_maxInterval
    rw [hsuppressed.1, hcall]
    simp only
    split_ifs
    · refine ⟨?_, by simp⟩
      intro i hi
      rw [List.mem_singleton] at hi
      rw [hlength, hi]
      exact hindex
    · refine ⟨?_, ?_⟩
      · intro i hi
        rw [List.mem_cons, List.mem_range] at hi
        rw [hlength]
        rcases hi with rfl | hi
        · exact hindex
        · omega
      · intro period hperiod
        rw [Option.mem_some_iff] at hperiod
        rw [← hperiod]
        exact h.averagingPeriod_ne_zero

theorem FittingWindow.safe_of_run
    {b : Build} {u : Test} (hu : FittingWindow u)
    (steps : List WindowStep) {t : Test} (hsame : SameWindow t u) :
    ∀ use ∈ windowUses b t steps, use.Safe := by
  induction steps generalizing t with
  | nil =>
      intro use huse
      cases huse
  | cons step steps ih =>
      intro use huse
      rw [windowUses, List.mem_append] at huse
      rcases huse with hhere | hlater
      · cases step with
        | parameters message => cases hhere
        | reset => cases hhere
        | check done bytes =>
            rw [List.mem_singleton.mp hhere]
            exact (hsame.fittingWindow hu).safe done bytes
      · exact ih (step.apply_sameWindow b hsame) use hlater

/-! ## Windows that leave the array -/

theorem nextIntervalIndex_of_room
    {t : Test} (hroom : t.bitrateLimitLastIntervalIndex + 1 <
      uint64 t.settings.bitrateLimitStatsPerInterval) :
    t.nextIntervalIndex = t.bitrateLimitLastIntervalIndex + 1 := by
  have hbound := uint64_lt t.settings.bitrateLimitStatsPerInterval
  have hexact : uint64 ((t.bitrateLimitLastIntervalIndex : ℤ) + 1) =
      t.bitrateLimitLastIntervalIndex + 1 := by
    rw [uint64_eq]
    omega
  unfold Test.nextIntervalIndex
  simp only [hexact]
  rw [if_neg (by omega)]

theorem iperfCheckTotalRate_uses_nextIntervalIndex
    {t : Test} (bytes : ℕ) (hlimit : t.settings.bitrateLimit ≠ 0) :
    t.nextIntervalIndex ∈ (t.iperfCheckTotalRate false bytes).2.indices ∧
      (t.iperfCheckTotalRate false bytes).1.bitrateLimitLastIntervalIndex =
        t.nextIntervalIndex := by
  obtain ⟨exceeded, hcall⟩ := iperfCheckTotalRate_eq t bytes hlimit
  rw [hcall]
  refine ⟨?_, rfl⟩
  simp only
  split_ifs
  · exact List.mem_singleton.mpr rfl
  · exact List.mem_cons_self

/-- While the window is not full, every call moves to the next slot. -/
theorem mem_indices_of_checks
    {b : Build} {u : Test} (hlimit : u.settings.bitrateLimit ≠ 0)
    (n : ℕ) {t : Test} (hsame : SameWindow t u)
    (hroom : t.bitrateLimitLastIntervalIndex + (n + 1) <
      uint64 u.settings.bitrateLimitStatsPerInterval) :
    ∃ use ∈ windowUses b t (List.replicate (n + 1) (.check false 0)),
      t.bitrateLimitLastIntervalIndex + (n + 1) ∈ use.indices := by
  induction n generalizing t with
  | zero =>
      rw [← hsame.statsPerInterval] at hroom
      obtain ⟨hmem, -⟩ := iperfCheckTotalRate_uses_nextIntervalIndex (t := t) 0
        (hsame.bitrateLimit.symm ▸ hlimit)
      refine ⟨_, List.mem_append_left _ (List.mem_singleton.mpr rfl), ?_⟩
      rw [nextIntervalIndex_of_room hroom] at hmem
      exact hmem
  | succ n ih =>
      have hnext : t.nextIntervalIndex = t.bitrateLimitLastIntervalIndex + 1 := by
        apply nextIntervalIndex_of_room
        rw [hsame.statsPerInterval]
        omega
      obtain ⟨-, hstored⟩ := iperfCheckTotalRate_uses_nextIntervalIndex (t := t) 0
        (hsame.bitrateLimit.symm ▸ hlimit)
      rw [hnext] at hstored
      obtain ⟨use, huse, hmem⟩ :=
        ih (iperfCheckTotalRate_sameWindow false 0 hsame) (by omega)
      refine ⟨use, List.mem_append_right _ huse, ?_⟩
      rw [hstored] at hmem
      have hshift : t.bitrateLimitLastIntervalIndex + 1 + (n + 1) =
          t.bitrateLimitLastIntervalIndex + (n + 1 + 1) := by omega
      rwa [hshift] at hmem

/-- A window of no length divides by zero as soon as it is evaluated. -/
theorem zero_period_of_check
    {t : Test} (bytes : ℕ) (hlimit : t.settings.bitrateLimit ≠ 0)
    (hcount : ¬ uint64 (t.bitrateLimitStatsCount + 1) <
      uint64 t.settings.bitrateLimitStatsPerInterval)
    (hzero : t.statsInterval * t.settings.bitrateLimitStatsPerInterval = 0) :
    ¬ (t.iperfCheckTotalRate false bytes).2.Safe := by
  intro hsafe
  obtain ⟨exceeded, hcall⟩ := iperfCheckTotalRate_eq t bytes hlimit
  rw [hcall] at hsafe
  simp only [if_neg hcount] at hsafe
  have hperiod : t.averagingPeriod = 0 := by
    unfold Test.averagingPeriod
    rw [hzero]
    exact_mod_cast roundDouble_intCast (n := 0) (by norm_num)
  exact hsafe.2 _ (Option.mem_some_iff.mpr rfl) hperiod

/-! ## The command line -/

theorem accepted_interval
    {secs : ℚ} (h : outsideIntervalRange secs = false) :
    secs = 0 ∨ minIntervalSecs ≤ secs ∧ secs ≤ maxIntervalSecs := by
  simp only [outsideIntervalRange, Bool.and_eq_false_iff, Bool.or_eq_false_iff,
    decide_eq_false_iff_not, not_lt, ne_eq, not_not] at h
  tauto

/-- Accepted options give between one and `1024` periods. -/
theorem statsPerInterval_bounds
    {t : Test} (hstats : outsideIntervalRange t.statsInterval = false)
    (hinterval : outsideIntervalRange t.settings.bitrateLimitInterval = false) :
    1 ≤ t.statsPerInterval ∧ t.statsPerInterval ≤ 1024 := by
  unfold Test.statsPerInterval
  simp only
  split_ifs with hone
  · decide
  rw [not_or, not_le] at hone
  have hmin : (0 : ℚ) < minIntervalSecs := by norm_num [minIntervalSecs]
  rcases accepted_interval hstats with h | ⟨hlow, -⟩
  · exact absurd h hone.2
  have hpos : 0 < t.statsInterval := lt_of_lt_of_le hmin hlow
  have hhigh : t.settings.bitrateLimitInterval ≤ maxIntervalSecs := by
    rcases accepted_interval hinterval with h | h
    · rw [h]
      norm_num [maxIntervalSecs]
    · exact h.2
  have hratio : 1 ≤ t.settings.bitrateLimitInterval / t.statsInterval := by
    rw [one_le_div hpos]
    exact hone.1.le
  have hratioLe : t.settings.bitrateLimitInterval / t.statsInterval ≤
      2 ^ (10 : ℤ) := by
    rw [div_le_iff₀ hpos]
    calc
      t.settings.bitrateLimitInterval ≤ maxIntervalSecs := hhigh
      _ ≤ 2 ^ (10 : ℤ) * minIntervalSecs := by
        norm_num [maxIntervalSecs, minIntervalSecs]
      _ ≤ 2 ^ (10 : ℤ) * t.statsInterval := by gcongr
  have hlowRound := one_le_roundDouble hratio
  have hhighRound : roundDouble (t.settings.bitrateLimitInterval / t.statsInterval) ≤
      1024 := by
    have h := roundDouble_le_two_zpow (by linarith) hratioLe
    norm_num at h
    exact h
  unfold roundHalfAway
  rw [if_pos (by linarith)]
  constructor
  · apply Int.le_floor.mpr
    push_cast
    linarith
  · have h : ⌊roundDouble (t.settings.bitrateLimitInterval / t.statsInterval) +
        1 / 2⌋ < 1025 := by
      apply Int.floor_lt.mpr
      push_cast
      linarith
    omega

theorem serverStart_window (b : Build) (a : ServerArgs) :
    (serverStart b a).statsInterval = a.statsInterval ∧
      (serverStart b a).settings.bitrateLimitInterval = a.bitrateLimitInterval ∧
      (serverStart b a).bitrateLimitLastIntervalIndex = 0 ∧
      (serverStart b a).bitrateLimitStatsCount = 0 ∧
      (serverStart b a).settings.bitrateLimitStatsPerInterval =
        if a.bitrateLimitInterval ≠ 0 then (serverStart b a).statsPerInterval
        else 0 := by
  unfold serverStart applyStatsPerInterval
  by_cases hinterval : a.bitrateLimitInterval ≠ 0
  · have h : (serverOptions b .server a).settings.bitrateLimitInterval ≠ 0 := hinterval
    rw [if_pos h, if_pos hinterval]
    exact ⟨rfl, rfl, rfl, rfl, rfl⟩
  · have h : ¬ (serverOptions b .server a).settings.bitrateLimitInterval ≠ 0 :=
      hinterval
    rw [if_neg h, if_neg hinterval]
    exact ⟨rfl, rfl, rfl, rfl, rfl⟩

/-- The options that lay out a window inside the array. -/
def WindowOptionsFit (t : Test) : Prop :=
  t.settings.bitrateLimitInterval ≠ 0 ∧ t.statsInterval ≠ 0 ∧
    t.statsPerInterval ≤ 60

theorem fittingWindow_of_options
    {b : Build} {a : ServerArgs} (ha : a.Accepted b)
    (hfit : WindowOptionsFit (serverStart b a)) : FittingWindow (serverStart b a) := by
  obtain ⟨hinterval, hstats, hle⟩ := hfit
  obtain ⟨hstatsEq, hintervalEq, -, -, hperiods⟩ := serverStart_window b a
  obtain ⟨hone, -⟩ := statsPerInterval_bounds (t := serverStart b a)
    (hstatsEq ▸ ha.statsInterval) (hintervalEq ▸ ha.bitrateLimitInterval)
  rw [if_pos (hintervalEq ▸ hinterval)] at hperiods
  refine ⟨?_, by rw [hperiods]; exact hone, by rw [hperiods]; exact hle⟩
  rw [hstatsEq] at hstats ⊢
  rcases accepted_interval ha.statsInterval with h | ⟨hlow, -⟩
  · exact absurd h hstats
  · exact lt_of_lt_of_le (by norm_num [minIntervalSecs]) hlow

/-- Sixty calls in a row leave the array when the window has more periods. -/
theorem unsafe_of_long_window
    {b : Build} {a : ServerArgs} (ha : a.Accepted b)
    (hlimit : (serverStart b a).settings.bitrateLimit ≠ 0)
    (hinterval : a.bitrateLimitInterval ≠ 0)
    (hlong : 60 < (serverStart b a).statsPerInterval) :
    ∃ use ∈ windowUses b (serverStart b a) (List.replicate 60 (.check false 0)),
      ¬ use.Safe := by
  obtain ⟨hstatsEq, hintervalEq, hindex, -, hperiods⟩ := serverStart_window b a
  obtain ⟨-, hle⟩ := statsPerInterval_bounds (t := serverStart b a)
    (hstatsEq ▸ ha.statsInterval) (hintervalEq ▸ ha.bitrateLimitInterval)
  rw [if_pos hinterval] at hperiods
  have hsame : SameWindow (serverStart b a) (serverStart b a) := ⟨rfl, rfl, rfl⟩
  have hexact : (uint64 (serverStart b a).statsPerInterval : ℤ) =
      (serverStart b a).statsPerInterval := uint64_of_mem (by omega) (by omega)
  obtain ⟨use, huse, hmem⟩ := mem_indices_of_checks (b := b) hlimit 59 hsame (by
    rw [hperiods, hindex]
    omega)
  refine ⟨use, huse, fun hsafe => ?_⟩
  have hlt := hsafe.1 _ hmem
  have hlength : iperfNewTest.bitrateLimitIntervalsTrafficBytes.length = 60 := by
    decide
  omega

/-- One call divides by zero when either interval option is zero. -/
theorem unsafe_of_zero_interval
    {b : Build} {a : ServerArgs}
    (hlimit : (serverStart b a).settings.bitrateLimit ≠ 0)
    (hzero : a.bitrateLimitInterval = 0 ∨ a.statsInterval = 0) :
    ¬ ((serverStart b a).iperfCheckTotalRate false 0).2.Safe := by
  obtain ⟨hstatsEq, -, -, hcount, hperiods⟩ := serverStart_window b a
  by_cases hinterval : a.bitrateLimitInterval = 0
  · rw [if_neg (not_not.mpr hinterval)] at hperiods
    apply zero_period_of_check 0 hlimit
    · rw [hperiods]
      exact Nat.not_lt_zero _
    · rw [hperiods]
      simp
  · have hstats : a.statsInterval = 0 := hzero.resolve_left hinterval
    have hone : (serverStart b a).statsPerInterval = 1 := by
      unfold Test.statsPerInterval
      simp only
      rw [if_pos (Or.inr (hstatsEq.trans hstats))]
    rw [if_pos hinterval, hone] at hperiods
    apply zero_period_of_check 0 hlimit
    · rw [hperiods, hcount]
      decide
    · rw [hstatsEq, hstats]
      simp

theorem parseArguments_limited
    (b : Build) {rate : ℕ} {interval secs : ℚ}
    (hinterval : outsideIntervalRange interval = false)
    (hsecs : outsideIntervalRange secs = false) :
    parseArguments b none
        [.server, .serverBitrateLimit rate (some interval), .interval secs]
        (iperfStart b) =
      .ok (serverStart b { ServerArgs.default with
        bitrateLimit := uint64 rate
        bitrateLimitInterval := interval
        statsInterval := secs }) := by
  have hlimit : ∀ p, parseOption b p (.serverBitrateLimit rate (some interval)) =
      .ok (p.serverOnly { p.test with settings := { p.test.settings with
          bitrateLimitInterval := interval
          bitrateLimit := uint64 rate } }) := by
    intro p
    simp [parseOption, hinterval]
  have hstats : ∀ p, parseOption b p (.interval secs) =
      .ok { p with test := { p.test with statsInterval := secs } } := by
    intro p
    simp [parseOption, hsecs]
  unfold parseArguments
  simp only [List.foldlM_cons, hlimit, hstats]
  rfl

/-- The statistics timer is the only caller while a test is not done, and it
exists only with a nonzero statistics interval. -/
def TimerDriven (t : Test) (steps : List WindowStep) : Prop :=
  ∀ bytes, .check false bytes ∈ steps → t.statsInterval ≠ 0

theorem safe_of_all_done
    {b : Build} {t : Test} (steps : List WindowStep)
    (hdone : ∀ bytes, .check false bytes ∉ steps) :
    ∀ use ∈ windowUses b t steps, use.Safe := by
  induction steps generalizing t with
  | nil =>
      intro use huse
      cases huse
  | cons step steps ih =>
      intro use huse
      rw [windowUses, List.mem_append] at huse
      rcases huse with hhere | hlater
      · cases step with
        | parameters message => cases hhere
        | reset => cases hhere
        | check done bytes =>
            cases done with
            | false => exact absurd List.mem_cons_self (hdone bytes)
            | true =>
                rw [List.mem_singleton.mp hhere]
                exact ⟨by simp, by simp⟩
      · exact ih (fun bytes hmem => hdone bytes (List.mem_cons_of_mem _ hmem)) use
          hlater

/-- Without a statistics timer the window is never evaluated, so for the calls
of the server itself a zero statistics interval is harmless. -/
theorem window_safe_of_timer_iff
    {b : Build} {fileSize : Option ℕ} {opts : List Opt} {s : Test}
    (hstart : parseArguments b fileSize opts (iperfStart b) = .ok s)
    (hrole : s.role = .server) (hlimit : s.settings.bitrateLimit ≠ 0) :
    (∀ steps, TimerDriven s steps → ∀ use ∈ windowUses b s steps, use.Safe) ↔
      s.statsInterval = 0 ∨ WindowOptionsFit s := by
  obtain ⟨a, ha, rfl⟩ := parseArguments_serverStart hstart hrole
  obtain ⟨hstatsEq, hintervalEq, -, -, -⟩ := serverStart_window b a
  by_cases hstats : (serverStart b a).statsInterval = 0
  · constructor
    · intro _
      exact Or.inl hstats
    · intro _ steps hdriven
      exact safe_of_all_done steps fun bytes hmem => hdriven bytes hmem hstats
  · constructor
    · intro hsafe
      right
      have hdriven : ∀ steps, TimerDriven (serverStart b a) steps :=
        fun _ _ _ => hstats
      have hinterval : a.bitrateLimitInterval ≠ 0 := by
        intro hzero
        exact unsafe_of_zero_interval hlimit (Or.inl hzero)
          (hsafe [.check false 0] (hdriven _) _ (List.mem_singleton.mpr rfl))
      refine ⟨hintervalEq.symm ▸ hinterval, hstats, ?_⟩
      by_contra hlong
      obtain ⟨use, huse, hunsafe⟩ :=
        unsafe_of_long_window ha hlimit hinterval (not_le.mp hlong)
      exact hunsafe (hsafe _ (hdriven _) use huse)
    · rintro (h | hfit) steps -
      · exact absurd h hstats
      · exact (fittingWindow_of_options ha hfit).safe_of_run steps ⟨rfl, rfl, rfl⟩

end Iperf3
