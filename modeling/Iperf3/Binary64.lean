import Mathlib.Data.Int.Log
import Mathlib.Data.Rat.Floor
import Mathlib.Tactic

/-!
# Rounding to double precision

Double-precision values are kept as rationals, and every operation that the
hardware rounds is followed by `roundDouble`, round to nearest with ties to
even at 53 significant bits.  The exponent range is not bounded, which is
harmless for values between `2 ^ (-1022)` and `2 ^ 1023`.
-/

namespace Binary64

/-- Nearest integer, ties going to the even neighbour. -/
def roundHalfEven (q : ℚ) : ℤ :=
  if q - ⌊q⌋ < 1 / 2 then ⌊q⌋
  else if 1 / 2 < q - ⌊q⌋ then ⌊q⌋ + 1
  else if ⌊q⌋ % 2 = 0 then ⌊q⌋
  else ⌊q⌋ + 1

/-- The exponent of the last of 53 significant bits. -/
def unitExponent (q : ℚ) : ℤ :=
  Int.log 2 |q| - 52

def roundDouble (q : ℚ) : ℚ :=
  roundHalfEven (q / 2 ^ unitExponent q) * 2 ^ unitExponent q

/-- The nearest integer, ties going away from zero, as C's `round`. -/
def roundHalfAway (q : ℚ) : ℤ :=
  if 0 ≤ q then ⌊q + 1 / 2⌋ else -⌊-q + 1 / 2⌋

@[simp]
theorem roundHalfEven_intCast (n : ℤ) : roundHalfEven n = n := by
  simp [roundHalfEven]

@[simp]
theorem roundHalfAway_intCast (n : ℤ) : roundHalfAway n = n := by
  have hhalf : ∀ m : ℤ, ⌊(m : ℚ) + 1 / 2⌋ = m := by
    intro m
    rw [Int.floor_intCast_add]
    norm_num
  unfold roundHalfAway
  split_ifs
  · exact hhalf n
  · have h := hhalf (-n)
    push_cast at h
    rw [h]
    ring

theorem floor_le_roundHalfEven (q : ℚ) : ⌊q⌋ ≤ roundHalfEven q := by
  unfold roundHalfEven
  split_ifs <;> omega

/-- A number that is a multiple of its own last place is a double. -/
theorem roundDouble_of_multiple {q : ℚ} {m : ℤ}
    (hm : q / 2 ^ unitExponent q = m) : roundDouble q = q := by
  unfold roundDouble
  rw [hm, roundHalfEven_intCast, ← hm]
  field_simp

theorem unitExponent_le_of_abs_lt
    {q : ℚ} {k : ℤ} (hq : q ≠ 0) (hlt : |q| < 2 ^ k) :
    unitExponent q ≤ k - 53 := by
  have hpos : 0 < |q| := abs_pos.mpr hq
  have hlow := Int.zpow_log_le_self (b := 2) one_lt_two hpos
  have hpow : (2 : ℚ) ^ Int.log 2 |q| < 2 ^ k :=
    lt_of_le_of_lt (by simpa using hlow) hlt
  have hlog := (zpow_lt_zpow_iff_right₀ (by norm_num : (1 : ℚ) < 2)).mp hpow
  unfold unitExponent
  omega

theorem roundDouble_intCast_of_lt
    {n : ℤ} (hn : |n| < 2 ^ 53) : roundDouble n = n := by
  by_cases hzero : n = 0
  · subst n
    simp [roundDouble, roundHalfEven]
  have hq : (n : ℚ) ≠ 0 := by exact_mod_cast hzero
  have habs : |(n : ℚ)| < 2 ^ (53 : ℤ) := by
    have hcast : ((|n| : ℤ) : ℚ) < ((2 ^ 53 : ℤ) : ℚ) := by exact_mod_cast hn
    rw [Int.cast_abs] at hcast
    norm_num at hcast ⊢
    exact hcast
  have hexp := unitExponent_le_of_abs_lt hq habs
  obtain ⟨k, hk⟩ : ∃ k : ℕ, unitExponent (n : ℚ) = -(k : ℤ) :=
    ⟨(-unitExponent (n : ℚ)).toNat, by omega⟩
  apply roundDouble_of_multiple (m := n * 2 ^ k)
  rw [hk]
  push_cast
  rw [zpow_neg, div_inv_eq_mul, zpow_natCast]

/-- Integers of magnitude at most `2 ^ 53` are doubles. -/
theorem roundDouble_intCast
    {n : ℤ} (hn : |n| ≤ 2 ^ 53) : roundDouble n = n := by
  rcases hn.lt_or_eq with hlt | heq
  · exact roundDouble_intCast_of_lt hlt
  have hq : (n : ℚ) ≠ 0 := by
    intro h
    have : n = 0 := by exact_mod_cast h
    subst n
    norm_num at heq
  have habs : |(n : ℚ)| = 2 ^ (53 : ℤ) := by
    have hcast : ((|n| : ℤ) : ℚ) = ((2 ^ 53 : ℤ) : ℚ) := by exact_mod_cast heq
    rw [Int.cast_abs] at hcast
    norm_num at hcast ⊢
    exact hcast
  have hexp : unitExponent (n : ℚ) = 1 := by
    unfold unitExponent
    rw [habs]
    have hlog : Int.log 2 ((2 : ℚ) ^ (53 : ℤ)) = 53 := by
      exact_mod_cast Int.log_zpow (R := ℚ) (b := 2) one_lt_two 53
    rw [hlog]
    norm_num
  -- The only such integers are the two powers of two, which are even.
  rcases abs_eq (by norm_num : (0 : ℤ) ≤ 2 ^ 53) |>.mp heq with hpos | hneg
  · apply roundDouble_of_multiple (m := 2 ^ 52)
    rw [hexp, hpos]
    norm_num
  · apply roundDouble_of_multiple (m := -2 ^ 52)
    rw [hexp, hneg]
    norm_num

theorem two_zpow_log (q : ℚ) :
    (2 : ℚ) ^ Int.log 2 |q| = 2 ^ 52 * 2 ^ unitExponent q := by
  unfold unitExponent
  rw [← zpow_natCast, ← zpow_add₀ (by norm_num)]
  congr 1
  push_cast
  ring

/-- The significand of a positive number keeps its 53 bits when it is rounded. -/
theorem two_pow_le_roundHalfEven {q : ℚ} (hq : 0 < q) :
    (2 : ℚ) ^ 52 ≤ roundHalfEven (q / 2 ^ unitExponent q) := by
  have hlow : (2 : ℚ) ^ Int.log 2 |q| ≤ q := by
    have h := Int.zpow_log_le_self (b := 2) one_lt_two (abs_pos.mpr hq.ne')
    simpa [abs_of_pos hq] using h
  have hunit : (0 : ℚ) < 2 ^ unitExponent q := by positivity
  have hscaled : (2 : ℚ) ^ 52 ≤ q / 2 ^ unitExponent q := by
    rw [le_div_iff₀ hunit, ← two_zpow_log]
    exact hlow
  have hfloor : (2 ^ 52 : ℤ) ≤ ⌊q / 2 ^ unitExponent q⌋ := by
    apply Int.le_floor.mpr
    push_cast
    exact hscaled
  exact_mod_cast hfloor.trans (floor_le_roundHalfEven _)

theorem roundDouble_pos {q : ℚ} (hq : 0 < q) : 0 < roundDouble q := by
  have hsignificand := two_pow_le_roundHalfEven hq
  unfold roundDouble
  apply mul_pos
  · linarith [pow_pos (two_pos (α := ℚ)) 52]
  · positivity

/-- Rounding never takes a number from above one to below it. -/
theorem one_le_roundDouble {q : ℚ} (hq : 1 ≤ q) : 1 ≤ roundDouble q := by
  have hpos : 0 < q := by linarith
  have hlog : 0 ≤ Int.log 2 |q| := by
    rw [abs_of_pos hpos, Int.log_of_one_le_right 2 hq]
    positivity
  have hunit : (0 : ℚ) < 2 ^ unitExponent q := by positivity
  calc
    (1 : ℚ) ≤ 2 ^ Int.log 2 |q| := one_le_zpow₀ (by norm_num) hlog
    _ = 2 ^ 52 * 2 ^ unitExponent q := two_zpow_log q
    _ ≤ roundDouble q := by
      unfold roundDouble
      exact mul_le_mul_of_nonneg_right (two_pow_le_roundHalfEven hpos) hunit.le

theorem roundHalfEven_le_of_le_intCast {q : ℚ} {n : ℤ} (hq : q ≤ n) :
    roundHalfEven q ≤ n := by
  rcases hq.lt_or_eq with hlt | rfl
  · have hfloor : ⌊q⌋ < n := Int.floor_lt.mpr hlt
    unfold roundHalfEven
    split_ifs <;> omega
  · rw [roundHalfEven_intCast]

/-- Rounding never passes a power of two. -/
theorem roundDouble_le_two_zpow {q : ℚ} {k : ℤ} (hq : 0 < q) (hle : q ≤ 2 ^ k) :
    roundDouble q ≤ 2 ^ k := by
  have hexp : unitExponent q ≤ k := by
    have hlt : |q| < 2 ^ (k + 1) := by
      rw [abs_of_pos hq, zpow_add_one₀ (by norm_num)]
      have hpow : (0 : ℚ) < 2 ^ k := by positivity
      linarith
    have h := unitExponent_le_of_abs_lt hq.ne' hlt
    omega
  obtain ⟨n, hn⟩ : ∃ n : ℕ, k - unitExponent q = n :=
    ⟨(k - unitExponent q).toNat, by omega⟩
  have hunit : (0 : ℚ) < 2 ^ unitExponent q := by positivity
  have hsplit : (2 : ℚ) ^ k = 2 ^ n * 2 ^ unitExponent q := by
    rw [← zpow_natCast, ← hn, ← zpow_add₀ (by norm_num)]
    congr 1
    ring
  have hscaled : q / 2 ^ unitExponent q ≤ ((2 ^ n : ℤ) : ℚ) := by
    rw [div_le_iff₀ hunit]
    push_cast
    rw [← hsplit]
    exact hle
  have hround : (roundHalfEven (q / 2 ^ unitExponent q) : ℚ) ≤ 2 ^ n := by
    exact_mod_cast roundHalfEven_le_of_le_intCast hscaled
  rw [hsplit]
  unfold roundDouble
  exact mul_le_mul_of_nonneg_right hround hunit.le

end Binary64
