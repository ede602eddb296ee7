import Iperf3.Binary64
import Mathlib.Tactic

/-!
# Doubles with their smallest exponent

`roundFinite` rounds to 53 significant bits, and to fewer where the last place
would be below `2 ^ (-1074)`.  The numbers it rounds to form a grid, and it
takes the nearest point of that grid.  What else is needed of rounding follows
from this: it is monotone, it keeps grid points, and it recovers a grid point
from anything that is close enough.
-/

namespace Binary64

/-- The exponent of the last place that a double of this size has. -/
def lastPlace (q : ℚ) : ℤ :=
  max (unitExponent q) (-1074)

def roundFinite (q : ℚ) : ℚ :=
  roundHalfEven (q / 2 ^ lastPlace q) * 2 ^ lastPlace q

/-- A significand of 53 bits at a place that doubles have.  The exponent has
no upper limit here. -/
def OnGrid (q : ℚ) : Prop :=
  ∃ m e : ℤ, |m| < 2 ^ 53 ∧ -1074 ≤ e ∧ q = m * 2 ^ e

/-! ## The nearest integer -/

theorem abs_sub_roundHalfEven_le (q : ℚ) (n : ℤ) : |roundHalfEven q - q| ≤ |n - q| := by
  have hfloor := Int.floor_le q
  have hceil := Int.lt_floor_add_one q
  have hn : (n : ℚ) ≤ ⌊q⌋ ∨ (⌊q⌋ : ℚ) + 1 ≤ n := by
    rcases le_or_gt n ⌊q⌋ with h | h
    · exact Or.inl (by exact_mod_cast h)
    · exact Or.inr (by exact_mod_cast h)
  have hbelow : (n : ℚ) ≤ ⌊q⌋ → q - ⌊q⌋ ≤ |n - q| := by
    intro h
    rw [abs_sub_comm]
    exact le_trans (by linarith) (le_abs_self _)
  have habove : (⌊q⌋ : ℚ) + 1 ≤ n → ⌊q⌋ + 1 - q ≤ |n - q| := by
    intro h
    exact le_trans (by linarith) (le_abs_self _)
  have hdown : |((⌊q⌋ : ℤ) : ℚ) - q| = q - ⌊q⌋ := by
    rw [abs_sub_comm, abs_of_nonneg (by linarith)]
  have hup : |((⌊q⌋ + 1 : ℤ) : ℚ) - q| = ⌊q⌋ + 1 - q := by
    push_cast
    exact abs_of_nonneg (by linarith)
  unfold roundHalfEven
  split_ifs
  · rw [hdown]
    rcases hn with h | h
    · exact hbelow h
    · exact le_trans (by linarith) (habove h)
  · rw [hup]
    rcases hn with h | h
    · exact le_trans (by linarith) (hbelow h)
    · exact habove h
  · rw [hdown]
    rcases hn with h | h
    · exact hbelow h
    · exact le_trans (by linarith) (habove h)
  · rw [hup]
    rcases hn with h | h
    · exact le_trans (by linarith) (hbelow h)
    · exact habove h

theorem abs_sub_roundHalfEven_le_half (q : ℚ) : |roundHalfEven q - q| ≤ 1 / 2 := by
  have hfloor := Int.floor_le q
  have hceil := Int.lt_floor_add_one q
  rcases le_total (q - ⌊q⌋) (1 / 2) with h | h
  · refine (abs_sub_roundHalfEven_le q ⌊q⌋).trans ?_
    rw [abs_sub_comm, abs_of_nonneg (by linarith)]
    exact h
  · refine (abs_sub_roundHalfEven_le q (⌊q⌋ + 1)).trans ?_
    push_cast
    rw [abs_of_nonneg (by linarith)]
    linarith

/-! ## The grid -/

theorem two_zpow_pos (e : ℤ) : (0 : ℚ) < 2 ^ e := by
  positivity

/-- A point of the grid is a multiple of any finer place. -/
theorem multiple_of_le {m e k : ℤ} (h : k ≤ e) :
    ∃ n : ℤ, (m : ℚ) * 2 ^ e = n * 2 ^ k := by
  refine ⟨m * 2 ^ (e - k).toNat, ?_⟩
  have hsplit : (2 : ℚ) ^ e = 2 ^ (e - k).toNat * 2 ^ k := by
    rw [← zpow_natCast, ← zpow_add₀ (by norm_num)]
    congr 1
    omega
  push_cast
  rw [hsplit]
  ring

theorem abs_lt_two_zpow {m e : ℤ} (hm : |m| < 2 ^ 53) :
    |(m : ℚ) * 2 ^ e| < 2 ^ (e + 53) := by
  have hcast : |(m : ℚ)| < 2 ^ (53 : ℤ) := by
    have h : ((|m| : ℤ) : ℚ) < ((2 ^ 53 : ℤ) : ℚ) := by exact_mod_cast hm
    rw [Int.cast_abs] at h
    norm_num at h ⊢
    exact h
  rw [abs_mul, abs_of_pos (two_zpow_pos e), add_comm, zpow_add₀ (by norm_num)]
  exact mul_lt_mul_of_pos_right hcast (two_zpow_pos e)

/-- A multiple of a place that is not too large for it is on the grid. -/
theorem onGrid_of_multiple {n k : ℤ} (hk : -1074 ≤ k)
    (hn : |(n : ℚ) * 2 ^ k| ≤ 2 ^ (k + 53)) : OnGrid (n * 2 ^ k) := by
  have hsmall : |n| ≤ 2 ^ 53 := by
    rw [abs_mul, abs_of_pos (two_zpow_pos k), add_comm, zpow_add₀ (by norm_num)] at hn
    have h := le_of_mul_le_mul_right hn (two_zpow_pos k)
    exact_mod_cast h
  rcases hsmall.lt_or_eq with hlt | heq
  · exact ⟨n, k, hlt, hk, rfl⟩
  -- The power of two itself belongs to the next place.
  rcases abs_eq (by norm_num : (0 : ℤ) ≤ 2 ^ 53) |>.mp heq with hpos | hneg
  · refine ⟨2 ^ 52, k + 1, by norm_num, by omega, ?_⟩
    rw [hpos, zpow_add_one₀ (by norm_num)]
    push_cast
    ring
  · refine ⟨-2 ^ 52, k + 1, by norm_num, by omega, ?_⟩
    rw [hneg, zpow_add_one₀ (by norm_num)]
    push_cast
    ring

theorem abs_le_two_zpow_lastPlace (q : ℚ) : |q| < 2 ^ (lastPlace q + 53) := by
  have hlog := Int.lt_zpow_succ_log_self (b := 2) one_lt_two |q|
  have hle : Int.log 2 |q| + 1 ≤ lastPlace q + 53 := by
    unfold lastPlace unitExponent
    omega
  calc
    |q| < 2 ^ (Int.log 2 |q| + 1) := by simpa using hlog
    _ ≤ 2 ^ (lastPlace q + 53) := zpow_le_zpow_right₀ (by norm_num) hle

/-- Rounding is to the nearest multiple of the last place. -/
theorem abs_roundFinite_sub_le (q : ℚ) (n : ℤ) :
    |roundFinite q - q| ≤ |n * 2 ^ lastPlace q - q| := by
  have hunit := two_zpow_pos (lastPlace q)
  have hscale : ∀ k : ℤ, |(k : ℚ) * 2 ^ lastPlace q - q| =
      |k - q / 2 ^ lastPlace q| * 2 ^ lastPlace q := by
    intro k
    rw [← abs_of_pos hunit, ← abs_mul, abs_of_pos hunit]
    congr 1
    field_simp
  unfold roundFinite
  rw [hscale, hscale]
  exact mul_le_mul_of_nonneg_right (abs_sub_roundHalfEven_le _ n) hunit.le

theorem roundFinite_onGrid (q : ℚ) : OnGrid (roundFinite q) := by
  have hunit := two_zpow_pos (lastPlace q)
  apply onGrid_of_multiple (le_max_right _ _)
  have hq : |q / 2 ^ lastPlace q| < 2 ^ 53 := by
    rw [abs_div, abs_of_pos hunit, div_lt_iff₀ hunit]
    have h := abs_le_two_zpow_lastPlace q
    rw [add_comm, zpow_add₀ (by norm_num)] at h
    exact_mod_cast h
  have hround : |roundHalfEven (q / 2 ^ lastPlace q)| ≤ 2 ^ 53 := by
    have hhalf := abs_sub_roundHalfEven_le_half (q / 2 ^ lastPlace q)
    have hlt : |(roundHalfEven (q / 2 ^ lastPlace q) : ℚ)| < 2 ^ 53 + 1 := by
      calc
        |(roundHalfEven (q / 2 ^ lastPlace q) : ℚ)| =
            |(roundHalfEven (q / 2 ^ lastPlace q) - q / 2 ^ lastPlace q) +
              q / 2 ^ lastPlace q| := by rw [sub_add_cancel]
        _ ≤ |roundHalfEven (q / 2 ^ lastPlace q) - q / 2 ^ lastPlace q| +
              |q / 2 ^ lastPlace q| := abs_add_le _ _
        _ < 2 ^ 53 + 1 := by linarith
    have hint : ((|roundHalfEven (q / 2 ^ lastPlace q)| : ℤ) : ℚ) <
        ((2 ^ 53 + 1 : ℤ) : ℚ) := by
      rw [Int.cast_abs]
      exact_mod_cast hlt
    have := Int.cast_lt.mp hint
    omega
  change |(roundHalfEven (q / 2 ^ lastPlace q) : ℚ) * 2 ^ lastPlace q| ≤ 2 ^ (lastPlace q + 53)
  rw [abs_mul, abs_of_pos hunit, add_comm (lastPlace q), zpow_add₀ (by norm_num)]
  apply mul_le_mul_of_nonneg_right _ hunit.le
  have hcast : ((|roundHalfEven (q / 2 ^ lastPlace q)| : ℤ) : ℚ) ≤ ((2 ^ 53 : ℤ) : ℚ) := by
    exact_mod_cast hround
  rw [Int.cast_abs] at hcast
  exact_mod_cast hcast

/-- Rounding takes the nearest point of the grid. -/
theorem roundFinite_nearest {x : ℚ} (hx : OnGrid x) (q : ℚ) :
    |roundFinite q - q| ≤ |x - q| := by
  obtain ⟨m, e, hm, he, rfl⟩ := hx
  rcases le_or_gt (lastPlace q) e with hplace | hplace
  · obtain ⟨n, hn⟩ := multiple_of_le (m := m) hplace
    rw [hn]
    exact abs_roundFinite_sub_le q n
  rcases eq_or_ne q 0 with rfl | hzero
  · have hround : roundFinite 0 = 0 := by
      unfold roundFinite
      rw [zero_div]
      exact_mod_cast mul_eq_zero_of_left (congrArg Int.cast (roundHalfEven_intCast 0)) _
    rw [hround, sub_zero, abs_zero]
    exact abs_nonneg _
  -- A finer place only has points below the binade of `q`, and the first
  -- point of that binade lies between.
  have hunit : lastPlace q = unitExponent q := by
    unfold lastPlace at hplace ⊢
    omega
  have hlog : unitExponent q = Int.log 2 |q| - 52 := rfl
  have hlow : (2 : ℚ) ^ Int.log 2 |q| ≤ |q| := by
    simpa using Int.zpow_log_le_self (b := 2) one_lt_two (abs_pos.mpr hzero)
  have hbelow : |(m : ℚ) * 2 ^ e| < 2 ^ Int.log 2 |q| := by
    refine (abs_lt_two_zpow hm).trans_le (zpow_le_zpow_right₀ (by norm_num) (by omega))
  have hpower : ((2 ^ 52 : ℤ) : ℚ) * 2 ^ lastPlace q = 2 ^ Int.log 2 |q| := by
    rw [hunit, two_zpow_log]
    push_cast
    rfl
  obtain ⟨hleft, hright⟩ := abs_lt.mp hbelow
  rcases abs_cases q with ⟨habs, hsign⟩ | ⟨habs, hsign⟩
  · have hq : (2 : ℚ) ^ Int.log 2 |q| ≤ q := hlow.trans habs.le
    refine (abs_roundFinite_sub_le q (2 ^ 52)).trans ?_
    rw [hpower, abs_sub_comm, abs_of_nonneg (by linarith), abs_sub_comm]
    exact le_trans (by linarith) (le_abs_self _)
  · have hq : (2 : ℚ) ^ Int.log 2 |q| ≤ -q := by
      rw [← habs]
      exact hlow
    refine (abs_roundFinite_sub_le q (-2 ^ 52)).trans ?_
    have hneg : (((-2 ^ 52 : ℤ) : ℚ)) * 2 ^ lastPlace q = -2 ^ Int.log 2 |q| := by
      rw [← hpower]
      push_cast
      ring
    rw [hneg, abs_of_nonneg (by linarith)]
    exact le_trans (by linarith) (le_abs_self _)

/-! ## What follows from nearness -/

theorem roundFinite_of_onGrid {x : ℚ} (hx : OnGrid x) : roundFinite x = x := by
  have h := roundFinite_nearest hx x
  rw [sub_self, abs_zero, abs_nonpos_iff, sub_eq_zero] at h
  exact h

@[simp]
theorem onGrid_zero : OnGrid 0 :=
  ⟨0, 0, by norm_num, by norm_num, by norm_num⟩

theorem OnGrid.neg {x : ℚ} (hx : OnGrid x) : OnGrid (-x) := by
  obtain ⟨m, e, hm, he, rfl⟩ := hx
  exact ⟨-m, e, by rwa [abs_neg], he, by push_cast; ring⟩

theorem onGrid_intCast {n : ℤ} (hn : |n| ≤ 2 ^ 53) : OnGrid n := by
  have h := onGrid_of_multiple (n := n) (k := 0) (by norm_num) ?_
  · simpa using h
  · rw [zpow_zero, mul_one, zero_add]
    exact_mod_cast hn

theorem onGrid_natCast_mul {m : ℕ} (hm : m < 2 ^ 53) (e : ℕ) : OnGrid ((m : ℚ) * 2 ^ e) := by
  refine ⟨m, e, ?_, by omega, by rw [Int.cast_natCast, zpow_natCast]⟩
  rw [Nat.abs_cast]
  exact_mod_cast hm

theorem roundFinite_mono {p q : ℚ} (h : p ≤ q) : roundFinite p ≤ roundFinite q := by
  by_contra hlt
  rw [not_le] at hlt
  have hp := roundFinite_nearest (roundFinite_onGrid q) p
  have hq := roundFinite_nearest (roundFinite_onGrid p) q
  -- Both must lie at the middle between the two results, so they are equal.
  have heq : p = q := by
    apply le_antisymm h
    rcases abs_cases (roundFinite p - p) with ⟨h1, _⟩ | ⟨h1, _⟩ <;>
      rcases abs_cases (roundFinite q - p) with ⟨h2, _⟩ | ⟨h2, _⟩ <;>
      rcases abs_cases (roundFinite q - q) with ⟨h3, _⟩ | ⟨h3, _⟩ <;>
      rcases abs_cases (roundFinite p - q) with ⟨h4, _⟩ | ⟨h4, _⟩ <;>
      rw [h1, h2] at hp <;> rw [h3, h4] at hq <;> linarith
  rw [heq] at hlt
  exact lt_irrefl _ hlt

theorem abs_roundFinite_le {q m : ℚ} (hm : OnGrid m) (hq : |q| ≤ m) : |roundFinite q| ≤ m := by
  obtain ⟨hlow, hhigh⟩ := abs_le.mp hq
  rw [abs_le]
  constructor
  · have h := roundFinite_mono hlow
    rwa [roundFinite_of_onGrid hm.neg] at h
  · have h := roundFinite_mono hhigh
    rwa [roundFinite_of_onGrid hm] at h

theorem gap_of_multiples {m n k : ℤ} (hne : (m : ℚ) * 2 ^ k ≠ n * 2 ^ k)
    (hsize : |(n : ℚ) * 2 ^ k| ≤ 2 ^ 53 * 2 ^ k) :
    |(n : ℚ) * 2 ^ k| ≤ 2 ^ 53 * |(m : ℚ) * 2 ^ k - n * 2 ^ k| := by
  have hdiff : (1 : ℚ) ≤ |((m - n : ℤ) : ℚ)| := by
    have hint : m - n ≠ 0 := by
      intro h
      apply hne
      rw [sub_eq_zero.mp h]
    exact_mod_cast Int.one_le_abs hint
  have hfactor : (m : ℚ) * 2 ^ k - n * 2 ^ k = ((m - n : ℤ) : ℚ) * 2 ^ k := by
    push_cast
    ring
  rw [hfactor, abs_mul ((m - n : ℤ) : ℚ), abs_of_pos (two_zpow_pos k)]
  refine hsize.trans (mul_le_mul_of_nonneg_left ?_ (by norm_num))
  exact le_mul_of_one_le_left (two_zpow_pos k).le hdiff

/-- Different points of the grid are apart by at least the last of 53 bits. -/
theorem OnGrid.gap {x d : ℚ} (hx : OnGrid x) (hd : OnGrid d) (hne : x ≠ d) :
    |d| ≤ 2 ^ 53 * |x - d| := by
  obtain ⟨m, e, hm, he, rfl⟩ := hx
  obtain ⟨n, k, hn, hk, rfl⟩ := hd
  have hbinade : ∀ j : ℤ, (2 : ℚ) ^ (j + 53) = 2 ^ 53 * 2 ^ j := by
    intro j
    rw [add_comm, zpow_add₀ (by norm_num)]
    norm_cast
  rcases le_or_gt k e with hle | hlt
  · obtain ⟨m', hm'⟩ := multiple_of_le (m := m) hle
    rw [hm'] at hne ⊢
    exact gap_of_multiples hne ((abs_lt_two_zpow hn).le.trans (hbinade k).le)
  rcases le_or_gt |(n : ℚ) * 2 ^ k| (2 ^ 53 * 2 ^ e) with hsmall | hlarge
  · obtain ⟨n', hn'⟩ := multiple_of_le (m := n) hlt.le
    rw [hn'] at hne hsmall ⊢
    exact gap_of_multiples hne hsmall
  -- Here `d` is above everything that the place of `x` reaches.
  have hreach : |(m : ℚ) * 2 ^ e| ≤ (2 ^ 53 - 1) * 2 ^ e := by
    rw [abs_mul, abs_of_pos (two_zpow_pos e)]
    apply mul_le_mul_of_nonneg_right _ (two_zpow_pos e).le
    have hint : |m| ≤ 2 ^ 53 - 1 := by omega
    have hcast : ((|m| : ℤ) : ℚ) ≤ ((2 ^ 53 - 1 : ℤ) : ℚ) := by exact_mod_cast hint
    rw [Int.cast_abs] at hcast
    exact_mod_cast hcast
  have hapart : |(n : ℚ) * 2 ^ k| - |(m : ℚ) * 2 ^ e| ≤ |(m : ℚ) * 2 ^ e - n * 2 ^ k| := by
    rw [abs_sub_comm ((m : ℚ) * 2 ^ e)]
    exact abs_sub_abs_le_abs_sub _ _
  linarith

/-- A number that is closer to a grid point than a quarter of its last place
is rounded to it. -/
theorem roundFinite_of_close {q d : ℚ} (hd : OnGrid d) (hclose : 2 ^ 54 * |q - d| < |d|) :
    roundFinite q = d := by
  by_contra hne
  have hgap := (roundFinite_onGrid q).gap hd hne
  have hnear := roundFinite_nearest hd q
  have htriangle : |roundFinite q - d| ≤ |roundFinite q - q| + |q - d| := by
    have h := abs_add_le (roundFinite q - q) (q - d)
    rwa [sub_add_sub_cancel] at h
  rw [abs_sub_comm d q] at hnear
  linarith

/-- The difference of two grid points within a factor of two of each other is
exact. -/
theorem OnGrid.sub {a b : ℚ} (ha : OnGrid a) (hb : OnGrid b)
    (hleft : |a - b| ≤ |a|) (hright : |a - b| ≤ |b|) : OnGrid (a - b) := by
  obtain ⟨m, e, hm, he, rfl⟩ := ha
  obtain ⟨n, k, hn, hk, rfl⟩ := hb
  rcases le_total e k with hle | hle
  · obtain ⟨n', hn'⟩ := multiple_of_le (m := n) hle
    have hfactor : (m : ℚ) * 2 ^ e - n * 2 ^ k = ((m - n' : ℤ) : ℚ) * 2 ^ e := by
      rw [hn']
      push_cast
      ring
    rw [hfactor] at hleft ⊢
    exact onGrid_of_multiple he (hleft.trans (abs_lt_two_zpow hm).le)
  · obtain ⟨m', hm'⟩ := multiple_of_le (m := m) hle
    have hfactor : (m : ℚ) * 2 ^ e - n * 2 ^ k = ((m' - n : ℤ) : ℚ) * 2 ^ k := by
      rw [hm']
      push_cast
      ring
    rw [hfactor] at hright ⊢
    exact onGrid_of_multiple hk (hright.trans (abs_lt_two_zpow hn).le)

/-- The error is at most half of the last place. -/
theorem abs_roundFinite_sub_le_half (q : ℚ) :
    |roundFinite q - q| ≤ 2 ^ lastPlace q / 2 := by
  have hunit := two_zpow_pos (lastPlace q)
  have hscale : |roundFinite q - q| =
      |roundHalfEven (q / 2 ^ lastPlace q) - q / 2 ^ lastPlace q| * 2 ^ lastPlace q := by
    unfold roundFinite
    rw [← abs_of_pos hunit, ← abs_mul, abs_of_pos hunit, sub_mul, div_mul_cancel₀ _ hunit.ne']
  have hhalf := abs_sub_roundHalfEven_le_half (q / 2 ^ lastPlace q)
  rw [hscale]
  linarith [mul_le_mul_of_nonneg_right hhalf hunit.le]

theorem onGrid_two_zpow {k : ℤ} (hk : -1074 ≤ k) : OnGrid (2 ^ k) :=
  ⟨1, k, by norm_num, hk, by norm_num⟩

/-- Rounding does not lose more than half of a number that is not too small. -/
theorem half_le_abs_roundFinite {q : ℚ} (hq : 2 ^ (-1074 : ℤ) ≤ |q|) :
    |q| / 2 ≤ |roundFinite q| := by
  have hzero : q ≠ 0 := by
    intro h
    rw [h, abs_zero] at hq
    exact absurd (two_zpow_pos (-1074)) (not_lt.mpr hq)
  have hlow : (2 : ℚ) ^ Int.log 2 |q| ≤ |q| := by
    simpa using Int.zpow_log_le_self (b := 2) one_lt_two (abs_pos.mpr hzero)
  have hhigh : |q| < 2 * 2 ^ Int.log 2 |q| := by
    have h := Int.lt_zpow_succ_log_self (b := 2) one_lt_two |q|
    rw [← zpow_one_add₀ (by norm_num), add_comm]
    simpa using h
  have hlog : -1074 ≤ Int.log 2 |q| := by
    by_contra hlt
    have hpow : (2 : ℚ) * 2 ^ Int.log 2 |q| ≤ 2 ^ (-1074 : ℤ) := by
      rw [← zpow_one_add₀ (by norm_num)]
      exact zpow_le_zpow_right₀ (by norm_num) (by omega)
    linarith
  have hgrid := onGrid_two_zpow hlog
  have hround : |q| - |roundFinite q| ≤ |roundFinite q - q| := by
    rw [abs_sub_comm]
    exact abs_sub_abs_le_abs_sub _ _
  rcases abs_cases q with ⟨habs, _⟩ | ⟨habs, _⟩
  · have h := roundFinite_nearest hgrid q
    rw [abs_of_nonpos (by linarith : 2 ^ Int.log 2 |q| - q ≤ 0)] at h
    linarith
  · have h := roundFinite_nearest hgrid.neg q
    rw [abs_of_nonneg (by linarith : 0 ≤ -2 ^ Int.log 2 |q| - q)] at h
    linarith

theorem OnGrid.exists_multiple {x : ℚ} (hx : OnGrid x) :
    ∃ n : ℤ, x = n * 2 ^ (-1074 : ℤ) := by
  obtain ⟨m, e, -, he, rfl⟩ := hx
  exact multiple_of_le he

/-- The difference of two small grid points is exact. -/
theorem OnGrid.sub_small {a b : ℚ} (ha : OnGrid a) (hb : OnGrid b)
    (hle : |a - b| ≤ 2 ^ (-1021 : ℤ)) : OnGrid (a - b) := by
  obtain ⟨m, rfl⟩ := ha.exists_multiple
  obtain ⟨n, rfl⟩ := hb.exists_multiple
  have hfactor : (m : ℚ) * 2 ^ (-1074 : ℤ) - n * 2 ^ (-1074 : ℤ) =
      ((m - n : ℤ) : ℚ) * 2 ^ (-1074 : ℤ) := by
    rw [Int.cast_sub, sub_mul]
  rw [hfactor] at hle ⊢
  exact onGrid_of_multiple le_rfl (hle.trans (zpow_le_zpow_right₀ one_le_two (by omega)))

theorem OnGrid.max_abs {a b : ℚ} (ha : OnGrid a) (hb : OnGrid b) : OnGrid (max |a| |b|) := by
  have habs : ∀ {x : ℚ}, OnGrid x → OnGrid |x| := by
    intro x hx
    rcases abs_choice x with h | h
    · rwa [h]
    · rw [h]
      exact hx.neg
  rcases max_choice |a| |b| with h | h
  · rw [h]
    exact habs ha
  · rw [h]
    exact habs hb

/-- Scaling by `2 ^ (-52)` is exact but for the last place that there is. -/
theorem roundFinite_scaled_le {x : ℚ} (hx : OnGrid x) :
    roundFinite (x / 2 ^ 52) ≤ x / 2 ^ 52 + 2 ^ (-1075 : ℤ) := by
  obtain ⟨m, e, hm, he, rfl⟩ := hx
  have hshift : (m : ℚ) * 2 ^ e / 2 ^ 52 = m * 2 ^ (e - 52) := by
    rw [zpow_sub₀ (by norm_num), mul_div_assoc]
    norm_cast
  have hpos := two_zpow_pos (-1075)
  rcases le_or_gt (-1074) (e - 52) with hplace | hplace
  · have hgrid : OnGrid (m * 2 ^ (e - 52)) := ⟨m, e - 52, hm, hplace, rfl⟩
    rw [hshift, roundFinite_of_onGrid hgrid]
    linarith
  · have hsmall : |(m : ℚ) * 2 ^ (e - 52)| < 2 ^ (-1021 : ℤ) :=
      (abs_lt_two_zpow hm).trans_le (zpow_le_zpow_right₀ (by norm_num) (by omega))
    rcases eq_or_ne ((m : ℚ) * 2 ^ (e - 52)) 0 with hzero | hzero
    · rw [hshift, hzero, roundFinite_of_onGrid onGrid_zero]
      linarith
    have hlast : lastPlace ((m : ℚ) * 2 ^ (e - 52)) = -1074 := by
      have := unitExponent_le_of_abs_lt hzero hsmall
      unfold lastPlace
      omega
    have herror := abs_roundFinite_sub_le_half ((m : ℚ) * 2 ^ (e - 52))
    have hhalf : (2 : ℚ) ^ (-1074 : ℤ) / 2 = 2 ^ (-1075 : ℤ) := by
      rw [show (-1074 : ℤ) = -1075 + 1 by norm_num, zpow_add_one₀ (by norm_num)]
      ring
    rw [hlast, hhalf] at herror
    rw [hshift]
    linarith [abs_le.mp herror]

end Binary64
