import Iperf3.DecimalNumeral
import Iperf3.DoubleRange
import Mathlib.Tactic

/-!
# Reading a double

`strtod` on a text of digits, signs, points and exponent marks.  Unlike the
conversion of `sscanf` it leaves a mark without digits where it is.
-/

namespace Iperf3

namespace FloatScan

open Binary64

/-- A finite double. -/
def IsDouble (q : ℚ) : Prop :=
  OnGrid q ∧ |q| < 2 ^ 1024

/-- A value of the type `double`. -/
structure Double where
  value : FloatValue
  isDouble : ∀ q, value = .finite q → IsDouble q

def Double.finite (q : ℚ) (hq : IsDouble q) : Double :=
  ⟨.finite q, fun _ h => by cases h; exact hq⟩

theorem infinite_not_finite (negative : Bool) (q : ℚ)
    (h : FloatValue.infinite negative = .finite q) : IsDouble q := by
  cases h

theorem nan_not_finite (q : ℚ) (h : FloatValue.nan = .finite q) : IsDouble q := by
  cases h

theorem roundFinite_isDouble {q : ℚ} (h : ¬ 2 ^ 1024 ≤ |roundFinite q|) :
    IsDouble (roundFinite q) :=
  ⟨roundFinite_onGrid q, not_le.mp h⟩

/-- The double nearest to a number, or an infinity beyond the range. -/
def toDouble (q : ℚ) : Double :=
  if h : 2 ^ 1024 ≤ |roundFinite q| then ⟨.infinite (q < 0), infinite_not_finite _⟩
  else .finite (roundFinite q) (roundFinite_isDouble h)

/-- The exponent at the beginning, or nothing of it. -/
def exponentOf (s : CString) : ℤ × CString :=
  (scanExponent 'e' s).getD (0, s)

/-- The number at the beginning of the text and what is behind it, if there is
a conversion. -/
def strtod (s : CString) : Option (Double × CString) :=
  let (negative, rest) := scanSign s
  let digits := rest.takeWhile (isDigit 10)
  let (fraction, rest) := scanFraction 10 (rest.dropWhile (isDigit 10))
  if digits ++ fraction = [] then none
  else
    let (exponent, rest) := exponentOf rest
    some (toDouble (signed negative
      ((digitsValue 10 (digits ++ fraction) : ℚ) / 10 ^ fraction.length * 10 ^ exponent)), rest)

theorem toDouble_of_lt {q : ℚ} (hq : |roundFinite q| < 2 ^ 1024) :
    (toDouble q).value = .finite (roundFinite q) := by
  unfold toDouble
  rw [dif_neg (not_le.mpr hq), Double.finite]

theorem toDouble_of_isDouble {q : ℚ} (hq : IsDouble q) : (toDouble q).value = .finite q := by
  rw [toDouble_of_lt, roundFinite_of_onGrid hq.1]
  rw [roundFinite_of_onGrid hq.1]
  exact hq.2

theorem isDouble_intCast {n : ℤ} (hn : |n| ≤ 2 ^ 53) : IsDouble n := by
  refine ⟨onGrid_intCast hn, ?_⟩
  have hcast : |(n : ℚ)| ≤ 2 ^ 53 := by exact_mod_cast hn
  exact hcast.trans_lt (pow_lt_pow_right₀ (by norm_num) (by norm_num))

/-- Where the conversion of `sscanf` reads an unsigned number, so does
`strtod`. -/
theorem strtod_of_scanUnsigned
    {s rest rest' : CString} {negative : Bool} {q : ℚ} (hsign : scanSign s = (negative, rest))
    (h : scanUnsigned 10 'e' 10 rest = some (q, rest')) :
    strtod s = some (toDouble (signed negative q), rest') := by
  unfold scanUnsigned at h
  simp only at h
  split_ifs at h with hne
  obtain ⟨⟨e, behind⟩, hexponent, heq⟩ := Option.map_eq_some_iff.mp h
  cases heq
  unfold strtod
  simp only [hsign, if_neg hne]
  unfold exponentOf
  rw [hexponent]
  rfl

theorem strtod_numeral (n : Numeral) {rest : CString} (hstops : Stops rest) :
    strtod (n.text ++ rest) = some (toDouble n.value, rest) :=
  strtod_of_scanUnsigned (scanSign_text n rest) (scanUnsigned_numeral n hstops)

end FloatScan

end Iperf3
