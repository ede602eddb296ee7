import Iperf3.CJson
import Iperf3.DecimalPrinting
import Iperf3.JsonItem
import Mathlib.Tactic

/-!
# Numbers in a JSON text

A whole number is printed as an integer.  Any other is printed with 15
significant digits if reading these gives a number that passes for it, and
with 17 otherwise.
-/

namespace Iperf3

namespace JsonNumber

open FloatScan DecimalPrinting Binary64

/-- Equality of doubles up to `DBL_EPSILON`, computed in doubles. -/
def compareDouble (a b : Double) : Bool :=
  match a.value, b.value with
  | .finite x, .finite y => |roundFinite (x - y)| ≤ roundFinite (max |x| |y| / 2 ^ 52)
  | .infinite s, .infinite t => s ≠ t
  | .infinite _, .finite _ => true
  | .finite _, .infinite _ => true
  | _, _ => false

/-- The value that the conversion `%lg` of `sscanf` stores. -/
def storedDouble : FloatValue → Double
  | .finite q => toDouble q
  | .infinite negative => ⟨.infinite negative, infinite_not_finite negative⟩
  | .nan => ⟨.nan, nan_not_finite⟩

def scanLg (s : CString) : Option Double :=
  (scanDouble s).map fun (value, _) => storedDouble value

/-- A number that is not whole: 15 digits if they are enough, or else 17. -/
def fractionalText (d : Double) (q : ℚ) : CString :=
  match scanLg (formatG 15 q) with
  | none => formatG 17 q
  | some test => if compareDouble test d then formatG 15 q else formatG 17 q

def nullText : CString :=
  CString.ofString "null"

def numberText (d : Double) : CString :=
  match d.value with
  | .finite q =>
      if q = roundFinite (CJson.saturate q) then formatInt (CJson.saturate q)
      else fractionalText d q
  | _ => nullText

/-- The text of a number, unless it is longer than the buffer for it. -/
def printNumber (d : Double) : Option CString :=
  if (numberText d).length ≤ 25 then some (numberText d) else none

/-- What `strtod` makes of the text of a number. -/
def reread (d : Double) : Option Double :=
  (strtod (numberText d)).map Prod.fst

/-! ## Whole numbers -/

theorem formatInt_numeral (n : ℤ) : ∃ m : Numeral, m.text = formatInt n ∧ m.value = n := by
  have hminus : isNegative [ScanFormat.minus] = true := by decide
  have hnone : isNegative [] = false := by decide
  have hdigits := ScanFormat.printNat_digits n.natAbs
  have hne := ScanFormat.printNat_ne_nil n.natAbs
  have hvalue := ScanFormat.digitsValue_printNat n.natAbs
  unfold formatInt
  split_ifs with hn
  · obtain ⟨m, htext, hm⟩ := exists_numeral none isSign_minus hdigits
      (allDigits_zeros 0) hne
    refine ⟨m, ?_, ?_⟩
    · rw [htext]
      simp [pointAnd]
    · rw [hm, hminus, List.replicate_zero, List.append_nil, hvalue]
      simp only [signed, if_true, List.length_nil, pow_zero, div_one, Option.elim_none, zpow_zero,
        mul_one]
      rw [Nat.cast_natAbs, abs_of_neg hn]
      push_cast
      ring
  · obtain ⟨m, htext, hm⟩ := exists_numeral none (Or.inl rfl) hdigits
      (allDigits_zeros 0) hne
    refine ⟨m, ?_, ?_⟩
    · rw [htext]
      simp [pointAnd]
    · rw [hm, hnone, List.replicate_zero, List.append_nil, hvalue]
      simp only [signed, List.length_nil, pow_zero, div_one, Option.elim_none, zpow_zero, mul_one]
      rw [if_neg (by decide), Nat.cast_natAbs, abs_of_nonneg (not_lt.mp hn)]

/-! ## Numbers that pass for each other -/

theorem compareDouble_bound
    {a b : Double} {x y : ℚ} (ha : a.value = .finite x) (hb : b.value = .finite y)
    (h : compareDouble a b = true) :
    |x - y| ≤ max |x| |y| / 2 ^ 52 + 2 ^ (-1075 : ℤ) := by
  have hx := (a.isDouble x ha).1
  have hy := (b.isDouble y hb).1
  have hle : |roundFinite (x - y)| ≤ roundFinite (max |x| |y| / 2 ^ 52) := by
    unfold compareDouble at h
    rw [ha, hb] at h
    simpa using h
  have hscaled := roundFinite_scaled_le (hx.max_abs hy)
  have hxle := le_max_left |x| |y|
  have hyle := le_max_right |x| |y|
  -- The difference is computed without an error.
  have hexact : OnGrid (x - y) := by
    by_cases hnear : |x - y| ≤ |x| ∧ |x - y| ≤ |y|
    · exact hx.sub hy hnear.1 hnear.2
    apply hx.sub_small hy
    by_contra hlarge
    rw [not_le] at hlarge
    have hhalf : |x - y| / 2 ≤ |roundFinite (x - y)| := by
      apply half_le_abs_roundFinite
      exact le_trans (zpow_le_zpow_right₀ one_le_two (by norm_num)) hlarge.le
    have hfar : max |x| |y| < 2 * |x - y| := by
      have hleft : |y| ≤ |x| + |x - y| := by
        have := abs_sub_abs_le_abs_sub y x
        rw [abs_sub_comm y x] at this
        linarith
      have hright : |x| ≤ |y| + |x - y| := by
        have := abs_sub_abs_le_abs_sub x y
        linarith
      rw [not_and_or, not_le, not_le] at hnear
      rcases hnear with hnear | hnear
      · exact max_lt (by linarith [abs_nonneg x]) (by linarith)
      · exact max_lt (by linarith) (by linarith [abs_nonneg y])
    have hpos := two_zpow_pos (-1075)
    have htiny : (2 : ℚ) ^ (-1075 : ℤ) ≤ |x - y| / 4 := by
      have hpow : (2 : ℚ) ^ (-1021 : ℤ) = 2 ^ 54 * 2 ^ (-1075 : ℤ) := by
        rw [← zpow_natCast, ← zpow_add₀ (by norm_num)]
        norm_num
      rw [hpow] at hlarge
      linarith
    linarith
  rw [roundFinite_of_onGrid hexact] at hle
  exact hle.trans hscaled

/-! ## Reading a number back -/

theorem stops_nil : Stops [] := by
  intro c hc
  cases hc

theorem strtod_text (n : Numeral) : strtod n.text = some (toDouble n.value, []) := by
  have h := strtod_numeral n stops_nil
  rwa [List.append_nil] at h

theorem scanLg_text (n : Numeral) : scanLg n.text = some (toDouble n.value) := by
  have h := scanDouble_numeral n stops_nil
  rw [List.append_nil] at h
  unfold scanLg
  rw [h]
  rfl

/-- Seventeen digits determine a double. -/
theorem toDouble_seventeen {q x : ℚ} (hq : IsDouble q) (hx : 2 * 10 ^ 16 * |x - q| ≤ |q|) :
    (toDouble x).value = .finite q := by
  have hround : roundFinite x = q := by
    rcases eq_or_ne q 0 with rfl | hzero
    · rw [abs_zero] at hx
      have hxzero : |x - 0| ≤ 0 := by linarith
      rw [abs_nonpos_iff, sub_zero] at hxzero
      rw [hxzero, roundFinite_of_onGrid onGrid_zero]
    · apply roundFinite_of_close hq.1
      have hpos := abs_pos.mpr hzero
      linarith [abs_nonneg (x - q)]
  rw [toDouble_of_lt, hround]
  rw [hround]
  exact hq.2

/-- The largest number with 15 digits that is a finite double. -/
def largestShort : ℚ :=
  (179769313486231 : ℕ) * 10 ^ (294 : ℕ)

theorem scaled_cast_lt {m n a b : ℕ} (h : m * 10 ^ a < n * 2 ^ b) :
    (m : ℚ) * 10 ^ a < n * 2 ^ b := by
  exact_mod_cast h

theorem largestShort_lt : largestShort < ((2 ^ 53 - 1 : ℕ) : ℚ) * 2 ^ (971 : ℕ) :=
  scaled_cast_lt (m := 179769313486231) (by decide +kernel)

/-- Rounding to 15 digits does not pass the largest such number. -/
theorem decimalValue_le_largestShort {q : ℚ} (hq : |q| ≤ largestShort) :
    decimalValue 15 (decimalOf 15 q).1 (decimalOf 15 q).2 ≤ largestShort := by
  rcases eq_or_ne q 0 with rfl | hzero
  · simp [decimalOf, decimalValue, largestShort]
  obtain ⟨hlow, hhigh⟩ := ten_zpow_log hzero
  obtain ⟨hcast, -, hle⟩ := scaled_bounds (p := 15) (by norm_num) hzero
  rw [decimalOf_value (by norm_num) hzero]
  have hunit : (0 : ℚ) < 10 ^ (Int.log 10 |q| - (15 - 1 : ℕ)) := by positivity
  rcases lt_or_ge (Int.log 10 |q|) 308 with hlog | hlog
  · -- In a lower decade even the next power of ten is below.
    have hscaled : (scaled 15 q : ℚ) ≤ 10 ^ (15 : ℤ) := by
      have h : ((scaled 15 q : ℕ) : ℚ) ≤ ((10 ^ 15 : ℕ) : ℚ) := by exact_mod_cast hle
      exact_mod_cast h
    calc
      (scaled 15 q : ℚ) * 10 ^ (Int.log 10 |q| - (15 - 1 : ℕ)) ≤
          10 ^ (15 : ℤ) * 10 ^ (Int.log 10 |q| - (15 - 1 : ℕ)) :=
        mul_le_mul_of_nonneg_right hscaled hunit.le
      _ = 10 ^ (Int.log 10 |q| + 1) := by
        rw [← zpow_add₀ (by norm_num)]
        congr 1
        push_cast
        ring
      _ ≤ 10 ^ (308 : ℤ) := zpow_le_zpow_right₀ (by norm_num) (by omega)
      _ = 10 ^ 14 * 10 ^ 294 := by
        rw [← pow_add, ← zpow_natCast]
        rfl
      _ ≤ largestShort := mul_le_mul_of_nonneg_right (by norm_num) (by positivity)
  · -- In the last decade the limit is a whole number of last digits.
    have hlog' : Int.log 10 |q| = 308 := by
      have hpow : (10 : ℚ) ^ Int.log 10 |q| < 10 ^ (309 : ℤ) := by
        refine (hlow.trans hq).trans_lt ?_
        calc
          largestShort < 10 ^ 15 * 10 ^ 294 :=
            mul_lt_mul_of_pos_right (by norm_num) (by positivity)
          _ = 10 ^ (309 : ℤ) := by
            rw [← pow_add, ← zpow_natCast]
            rfl
      have := (zpow_lt_zpow_iff_right₀ (by norm_num : (1 : ℚ) < 10)).mp hpow
      omega
    rw [hlog'] at hcast ⊢
    have hround : (scaled 15 q : ℤ) ≤ 179769313486231 := by
      rw [hcast]
      apply roundHalfEven_le_of_le_intCast
      rw [div_le_iff₀ (by positivity)]
      refine hq.trans (le_of_eq ?_)
      unfold largestShort
      norm_num
    have hscaled : (scaled 15 q : ℚ) ≤ 179769313486231 := by exact_mod_cast hround
    unfold largestShort
    have hexp : (10 : ℚ) ^ ((308 : ℤ) - (15 - 1 : ℕ)) = 10 ^ (294 : ℕ) := by
      rw [← zpow_natCast]
      norm_num
    rw [hexp]
    exact mul_le_mul_of_nonneg_right hscaled (by positivity)

theorem abs_signed (negative : Bool) (q : ℚ) : |signed negative q| = |q| := by
  cases negative
  · rfl
  · exact abs_neg q

theorem toDouble_short {q : ℚ} (hq : |q| ≤ largestShort) :
    ∃ y, (toDouble (signed (q < 0) (decimalValue 15 (decimalOf 15 q).1 (decimalOf 15 q).2))).value =
      .finite y := by
  have hgrid : OnGrid (((2 ^ 53 - 1 : ℕ) : ℚ) * 2 ^ (971 : ℕ)) :=
    onGrid_natCast_mul (by norm_num) 971
  have hnonneg : 0 ≤ decimalValue 15 (decimalOf 15 q).1 (decimalOf 15 q).2 := by
    unfold decimalValue
    positivity
  have hround := abs_roundFinite_le hgrid (q := signed (q < 0)
    (decimalValue 15 (decimalOf 15 q).1 (decimalOf 15 q).2)) (by
      rw [abs_signed, abs_of_nonneg hnonneg]
      exact (decimalValue_le_largestShort hq).trans largestShort_lt.le)
  have hrange : ((2 ^ 53 - 1 : ℕ) : ℚ) * 2 ^ (971 : ℕ) < 2 ^ 1024 := by
    have hsplit : (2 : ℚ) ^ 1024 = ((2 ^ 53 : ℕ) : ℚ) * 2 ^ (971 : ℕ) := by
      rw [Nat.cast_pow, Nat.cast_ofNat, ← pow_add]
    rw [hsplit]
    exact mul_lt_mul_of_pos_right (by norm_num) (by positivity)
  exact ⟨_, toDouble_of_lt (hround.trans_lt hrange)⟩

/-- What the text of a finite number is read back as.  Whole numbers come back
as they were, and others come back closer than the comparison notices. -/
structure Reread (q : ℚ) (x : Double) : Prop where
  whole : q = roundFinite (CJson.saturate q) → x.value = .finite q
  close : |q| ≤ largestShort → ∃ y, x.value = .finite y ∧
    |y - q| ≤ max |y| |q| / 2 ^ 52 + 2 ^ (-1075 : ℤ)

theorem Reread.of_exact {q : ℚ} {x : Double} (h : x.value = .finite q) : Reread q x where
  whole _ := h
  close _ := by
    refine ⟨q, h, ?_⟩
    rw [sub_self, abs_zero]
    positivity

theorem fractionalText_numeral {d : Double} {q : ℚ} (hd : d.value = .finite q)
    (hfractional : q ≠ roundFinite (CJson.saturate q)) :
    ∃ n : Numeral, n.text = fractionalText d q ∧ Reread q (toDouble n.value) := by
  obtain ⟨short, hshort, hshortValue⟩ := formatG_numeral (p := 15) (by norm_num) q
  obtain ⟨long, hlong, hlongValue⟩ := formatG_numeral (p := 17) (by norm_num) q
  have hscan : scanLg (formatG 15 q) = some (toDouble short.value) := by
    rw [← hshort, scanLg_text]
  unfold fractionalText
  rw [hscan]
  dsimp only
  split_ifs with hcompare
  · refine ⟨short, hshort, fun hwhole => absurd hwhole hfractional, fun hq => ?_⟩
    obtain ⟨y, hy⟩ := toDouble_short hq
    rw [← hshortValue] at hy
    exact ⟨y, hy, compareDouble_bound hy hd hcompare⟩
  · refine ⟨long, hlong, Reread.of_exact (toDouble_seventeen (d.isDouble q hd) ?_)⟩
    rw [hlongValue]
    exact abs_formatted_sub_le (p := 17) (by norm_num) q

theorem numberText_numeral {d : Double} {q : ℚ} (hd : d.value = .finite q) :
    ∃ n : Numeral, n.text = numberText d ∧ Reread q (toDouble n.value) := by
  unfold numberText
  rw [hd]
  dsimp only
  split_ifs with hwhole
  · obtain ⟨n, htext, hvalue⟩ := formatInt_numeral (CJson.saturate q)
    refine ⟨n, htext, Reread.of_exact ?_⟩
    have hrange := (d.isDouble q hd).2
    rw [hvalue, toDouble_of_lt, ← hwhole]
    rwa [← hwhole]
  · exact fractionalText_numeral hd hwhole

theorem strtod_numberText {d : Double} {q : ℚ} (hd : d.value = .finite q) :
    ∃ x, strtod (numberText d) = some (x, []) ∧ Reread q x := by
  obtain ⟨n, htext, hreread⟩ := numberText_numeral hd
  exact ⟨toDouble n.value, by rw [← htext, strtod_text], hreread⟩

/-- A finite number that 15 digits do not take out of the range comes back
within the difference that the comparison of doubles overlooks, and a whole
number of 64 bits comes back as it was. -/
theorem reread_number {d : Double} {q : ℚ} (hd : d.value = .finite q)
    (hq : |q| ≤ largestShort) :
    ∃ x y, reread d = some x ∧ x.value = .finite y ∧
      |y - q| ≤ max |y| |q| / 2 ^ 52 + 2 ^ (-1075 : ℤ) ∧
      (q = roundFinite (CJson.saturate q) → y = q) := by
  obtain ⟨x, hstrtod, hx⟩ := strtod_numberText hd
  obtain ⟨y, hy, hclose⟩ := hx.close hq
  refine ⟨x, y, by rw [reread, hstrtod, Option.map_some], hy, hclose, fun hwhole => ?_⟩
  have hexact := hx.whole hwhole
  rw [hy] at hexact
  cases hexact
  rfl

theorem isDouble_half : IsDouble (1 / 2) := by
  refine ⟨⟨1, -1, by norm_num, by norm_num, by norm_num⟩, ?_⟩
  rw [abs_of_pos (by norm_num)]
  exact lt_of_lt_of_le (by norm_num) (one_le_pow₀ one_le_two)

theorem reread_number_half :
    ∃ x y, reread (.finite (1 / 2) isDouble_half) = some x ∧ x.value = .finite y ∧
      |y - 1 / 2| ≤ max |y| |1 / 2| / 2 ^ 52 + 2 ^ (-1075 : ℤ) ∧
      ((1 / 2 : ℚ) = roundFinite (CJson.saturate (1 / 2)) → y = 1 / 2) := by
  apply reread_number rfl
  have hpow : (1 : ℚ) ≤ 10 ^ 294 := one_le_pow₀ (by norm_num)
  unfold largestShort
  generalize (10 : ℚ) ^ 294 = p at hpow ⊢
  rw [abs_of_pos (by norm_num), Nat.cast_ofNat]
  linarith

/-! ## The text of a number as bytes -/

theorem isDigit_byte {c : CChar} (h : isDigit 10 c = true) : JsonByte.isDigit c.byte = true := by
  rw [digitValue_ten] at h
  have hall : ∀ n < 256, '0' ≤ Char.ofNat n ∧ Char.ofNat n ≤ '9' → 48 ≤ n ∧ n ≤ 57 := by
    decide +kernel
  obtain ⟨hlow, hhigh⟩ := hall c.val.toNat c.val.toNat_lt h
  unfold JsonByte.isDigit
  rw [decide_eq_true_eq, UInt8.le_iff_toNat_le, UInt8.le_iff_toNat_le]
  exact ⟨hlow, hhigh⟩

theorem isNumber_byte {c : CChar}
    (h : isDigit 10 c = true ∨ c = point ∨ c = mark ∨ c = ScanFormat.minus ∨ c = plus) :
    JsonByte.isNumber c.byte = true := by
  rcases h with h | rfl | rfl | rfl | rfl
  · unfold JsonByte.isNumber
    simp [isDigit_byte h]
  · decide
  · decide
  · decide
  · decide

theorem numberText_isNumberText {d : Double} {q : ℚ} (hd : d.value = .finite q) :
    IsNumberText (numberText d) := by
  have hfractional : IsNumberText (fractionalText d q) := by
    unfold fractionalText
    split
    · exact formatG_isNumberText (by norm_num) q
    · split_ifs
      · exact formatG_isNumberText (by norm_num) q
      · exact formatG_isNumberText (by norm_num) q
  unfold numberText
  rw [hd]
  dsimp only
  split_ifs
  · exact formatInt_isNumberText _
  · exact hfractional

theorem saturate_bounds (q : ℚ) :
    -9223372036854775808 ≤ CJson.saturate q ∧ CJson.saturate q ≤ 9223372036854775807 := by
  unfold CJson.saturate
  split_ifs with hhigh hlow
  · norm_num
  · norm_num
  · have hden : (0 : ℚ) < q.den := by exact_mod_cast q.den_pos
    have hq : |(q.num : ℚ)| < 9223372036854775808 * q.den := by
      rw [not_le] at hhigh hlow
      rw [← div_lt_iff₀ hden, ← abs_of_pos hden, ← abs_div, Rat.num_div_den]
      exact abs_lt.mpr ⟨hlow, hhigh⟩
    have hnum : q.num.natAbs < 9223372036854775808 * q.den := by
      have hint : |q.num| < 9223372036854775808 * (q.den : ℤ) := by exact_mod_cast hq
      rw [Int.abs_eq_natAbs] at hint
      exact_mod_cast hint
    have hquotient : (q.num.tdiv q.den).natAbs < 9223372036854775808 := by
      rw [Int.natAbs_tdiv, Int.natAbs_natCast]
      exact Nat.div_lt_of_lt_mul (by rwa [mul_comm])
    omega

theorem length_formatInt {n : ℤ} (hn : n.natAbs < 10 ^ 19) : (formatInt n).length ≤ 20 := by
  have h := length_printNat_le (p := 19) (by norm_num) hn
  unfold formatInt
  split_ifs
  · rw [List.length_cons]
    omega
  · omega

/-- Every number fits into the buffer for it. -/
theorem length_numberText (d : Double) : (numberText d).length ≤ 25 := by
  cases hd : d.value with
  | finite q =>
      have hq := d.isDouble q hd
      unfold numberText
      rw [hd]
      dsimp only
      split_ifs
      · have h := saturate_bounds q
        exact (length_formatInt (by omega)).trans (by norm_num)
      · have hshort := length_formatG (p := 15) (by norm_num) hq
        have hlong := length_formatG (p := 17) (by norm_num) hq
        unfold fractionalText
        split
        · omega
        · split_ifs <;> omega
  | infinite negative =>
      unfold numberText
      rw [hd]
      exact (by decide : nullText.length ≤ 25)
  | nan =>
      unfold numberText
      rw [hd]
      exact (by decide : nullText.length ≤ 25)

theorem printNumber_eq (d : Double) : printNumber d = some (numberText d) :=
  if_pos (length_numberText d)

end JsonNumber

end Iperf3
