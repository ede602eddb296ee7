import Iperf3.ScanFormat
import Iperf3.Strtod
import Mathlib.Data.List.DropRight
import Mathlib.Tactic

/-!
# The conversion `%g` of `printf`

A number is rounded to `p` significant digits.  It is written in plain
notation if its exponent is from `-4` to `p - 1` and with an exponent
otherwise; zeros at the end of the fraction are dropped, and the point with
the last of them.
-/

namespace Iperf3

namespace DecimalPrinting

open FloatScan ScanFormat Binary64

theorem point_ne_nul : UInt8.ofNat '.'.toNat ≠ 0 := by
  decide

theorem plus_ne_nul : UInt8.ofNat '+'.toNat ≠ 0 := by
  decide

theorem mark_ne_nul : UInt8.ofNat 'e'.toNat ≠ 0 := by
  decide

def point : CChar :=
  CChar.ofChar '.' point_ne_nul

def plus : CChar :=
  CChar.ofChar '+' plus_ne_nul

def mark : CChar :=
  CChar.ofChar 'e' mark_ne_nul

/-- The significant digits of a number as one integer. -/
def scaled (p : ℕ) (q : ℚ) : ℕ :=
  (roundHalfEven (|q| / 10 ^ (Int.log 10 |q| - (p - 1 : ℕ)))).toNat

/-- The significant digits and the exponent of the first one.  Rounding up may
need one digit more. -/
def decimalOf (p : ℕ) (q : ℚ) : ℕ × ℤ :=
  if q = 0 then (0, 0)
  else if scaled p q = 10 ^ p then (10 ^ (p - 1), Int.log 10 |q| + 1)
  else (scaled p q, Int.log 10 |q|)

/-- An integer with zeros in front, up to `p` digits. -/
def padDigits (p m : ℕ) : CString :=
  List.replicate (p - (printNat m).length) (digit 0) ++ printNat m

def dropZeros (fraction : CString) : CString :=
  fraction.rdropWhile fun c => c = digit 0

def pointAnd (fraction : CString) : CString :=
  if fraction = [] then [] else point :: fraction

/-- An exponent has a sign and at least two digits. -/
def exponentText (x : ℤ) : CString :=
  mark :: (if x < 0 then minus else plus) :: padDigits 2 x.natAbs

def formatMagnitude (p : ℕ) (m : ℕ) (x : ℤ) : CString :=
  if -4 ≤ x ∧ x < p then
    if 0 ≤ x then
      (padDigits p m).take (x.toNat + 1) ++
        pointAnd (dropZeros ((padDigits p m).drop (x.toNat + 1)))
    else
      digit 0 :: pointAnd (dropZeros
        (List.replicate (-x - 1).toNat (digit 0) ++ padDigits p m))
  else
    (padDigits p m).take 1 ++ pointAnd (dropZeros ((padDigits p m).drop 1)) ++ exponentText x

def formatG (p : ℕ) (q : ℚ) : CString :=
  (if q < 0 then [minus] else []) ++ formatMagnitude p (decimalOf p q).1 (decimalOf p q).2

/-- An integer with its sign, as `%lld` writes it. -/
def formatInt (n : ℤ) : CString :=
  if n < 0 then minus :: printNat n.natAbs else printNat n.natAbs

/-! ## Digits -/

def AllDigits (s : CString) : Prop :=
  ∀ c ∈ s, isDigit 10 c = true

theorem AllDigits.append {s t : CString} (hs : AllDigits s) (ht : AllDigits t) :
    AllDigits (s ++ t) := by
  intro c hc
  rcases List.mem_append.mp hc with h | h
  · exact hs c h
  · exact ht c h

theorem AllDigits.of_subset {s t : CString} (ht : AllDigits t) (h : ∀ c ∈ s, c ∈ t) :
    AllDigits s :=
  fun c hc => ht c (h c hc)

theorem allDigits_zeros (n : ℕ) : AllDigits (List.replicate n (digit 0)) := by
  intro c hc
  rw [List.eq_of_mem_replicate hc]
  exact (digit_spec (by norm_num)).1

theorem allDigits_padDigits (p m : ℕ) : AllDigits (padDigits p m) :=
  (allDigits_zeros _).append (printNat_digits m)

theorem digitsValue_append (s : CString) {t : CString} (ht : AllDigits t) :
    digitsValue 10 (s ++ t) = digitsValue 10 s * 10 ^ t.length + digitsValue 10 t := by
  have hlength : (t.filterMap (digitValue 10)).length = t.length := by
    apply List.filterMap_length_eq_length.mpr
    exact ht
  unfold digitsValue
  rw [List.filterMap_append, List.reverse_append, Nat.ofDigits_append, List.length_reverse,
    hlength]
  ring

theorem digitsValue_zeros (n : ℕ) : digitsValue 10 (List.replicate n (digit 0)) = 0 := by
  induction n with
  | zero => rfl
  | succ n ih =>
      rw [List.replicate_add, digitsValue_append _ (allDigits_zeros 1), ih]
      decide

theorem digitsValue_padDigits (p m : ℕ) : digitsValue 10 (padDigits p m) = m := by
  unfold padDigits
  rw [digitsValue_append _ (printNat_digits m), digitsValue_zeros, zero_mul, zero_add,
    digitsValue_printNat]

theorem length_printNat_le {p m : ℕ} (hp : 1 ≤ p) (hm : m < 10 ^ p) :
    (printNat m).length ≤ p := by
  unfold printNat
  split_ifs
  · exact hp
  · rw [List.length_map, List.length_reverse]
    exact (Nat.digits_length_le_iff (by norm_num) m).mpr hm

theorem length_padDigits {p m : ℕ} (hp : 1 ≤ p) (hm : m < 10 ^ p) :
    (padDigits p m).length = p := by
  have h := length_printNat_le hp hm
  unfold padDigits
  rw [List.length_append, List.length_replicate]
  omega

/-- The zeros that are dropped do not count. -/
theorem digitsValue_dropZeros (front fraction : CString) :
    (digitsValue 10 (front ++ dropZeros fraction) : ℚ) / 10 ^ (dropZeros fraction).length =
      digitsValue 10 (front ++ fraction) / 10 ^ fraction.length := by
  obtain ⟨k, hk⟩ : ∃ k, fraction = dropZeros fraction ++ List.replicate k (digit 0) := by
    refine ⟨(fraction.rtakeWhile fun c => c = digit 0).length, ?_⟩
    have hzeros : fraction.rtakeWhile (fun c => c = digit 0) =
        List.replicate (fraction.rtakeWhile fun c => c = digit 0).length (digit 0) := by
      apply List.eq_replicate_of_mem
      intro c hc
      simpa using List.mem_rtakeWhile_imp hc
    unfold dropZeros
    rw [← hzeros, List.rdropWhile_append_rtakeWhile]
  have hvalue : digitsValue 10 (front ++ fraction) =
      digitsValue 10 (front ++ dropZeros fraction) * 10 ^ k := by
    conv_lhs => rw [hk]
    rw [← List.append_assoc, digitsValue_append _ (allDigits_zeros k), digitsValue_zeros,
      List.length_replicate, add_zero]
  have hlength : fraction.length = (dropZeros fraction).length + k := by
    conv_lhs => rw [hk]
    rw [List.length_append, List.length_replicate]
  rw [hvalue, hlength, pow_add]
  push_cast
  field_simp

theorem allDigits_dropZeros {fraction : CString} (h : AllDigits fraction) :
    AllDigits (dropZeros fraction) :=
  h.of_subset fun _ hc =>
    have hshorter := List.rdropWhile_prefix _ _
    hshorter.subset hc

/-! ## Rounding to significant digits -/

/-- The number that the significant digits and the exponent stand for. -/
def decimalValue (p : ℕ) (m : ℕ) (x : ℤ) : ℚ :=
  m / 10 ^ (p - 1 : ℕ) * 10 ^ x

theorem ten_zpow_log {q : ℚ} (hq : q ≠ 0) :
    (10 : ℚ) ^ Int.log 10 |q| ≤ |q| ∧ |q| < 10 ^ (Int.log 10 |q| + 1) := by
  constructor
  · simpa using Int.zpow_log_le_self (b := 10) (by norm_num) (abs_pos.mpr hq)
  · simpa using Int.lt_zpow_succ_log_self (b := 10) (by norm_num) |q|

/-- The scaled number has `p` digits before the point. -/
theorem scaled_quotient {p : ℕ} (hp : 1 ≤ p) {q : ℚ} (hq : q ≠ 0) :
    (10 : ℚ) ^ (p - 1) ≤ |q| / 10 ^ (Int.log 10 |q| - (p - 1 : ℕ)) ∧
      |q| / 10 ^ (Int.log 10 |q| - (p - 1 : ℕ)) < 10 ^ p := by
  obtain ⟨hlow, hhigh⟩ := ten_zpow_log hq
  have hunit : (0 : ℚ) < 10 ^ (Int.log 10 |q| - (p - 1 : ℕ)) := by positivity
  constructor
  · rw [le_div_iff₀ hunit, ← zpow_natCast, ← zpow_add₀ (by norm_num)]
    exact le_trans (le_of_eq (by congr 1; omega)) hlow
  · rw [div_lt_iff₀ hunit, ← zpow_natCast, ← zpow_add₀ (by norm_num)]
    exact hhigh.trans_le (le_of_eq (by congr 1; omega))

theorem scaled_bounds {p : ℕ} (hp : 1 ≤ p) {q : ℚ} (hq : q ≠ 0) :
    (scaled p q : ℤ) = roundHalfEven (|q| / 10 ^ (Int.log 10 |q| - (p - 1 : ℕ))) ∧
      10 ^ (p - 1) ≤ scaled p q ∧ scaled p q ≤ 10 ^ p := by
  obtain ⟨hlow, hhigh⟩ := scaled_quotient hp hq
  have hfloor : ((10 ^ (p - 1) : ℕ) : ℤ) ≤
      roundHalfEven (|q| / 10 ^ (Int.log 10 |q| - (p - 1 : ℕ))) := by
    refine le_trans (Int.le_floor.mpr ?_) (floor_le_roundHalfEven _)
    push_cast
    exact hlow
  have hceil : roundHalfEven (|q| / 10 ^ (Int.log 10 |q| - (p - 1 : ℕ))) ≤
      ((10 ^ p : ℕ) : ℤ) := by
    apply roundHalfEven_le_of_le_intCast
    push_cast
    exact hhigh.le
  have hcast : (scaled p q : ℤ) =
      roundHalfEven (|q| / 10 ^ (Int.log 10 |q| - (p - 1 : ℕ))) :=
    Int.toNat_of_nonneg (le_trans (by positivity) hfloor)
  rw [← hcast] at hfloor hceil
  exact ⟨hcast, by exact_mod_cast hfloor, by exact_mod_cast hceil⟩

theorem decimalOf_value {p : ℕ} (hp : 1 ≤ p) {q : ℚ} (hq : q ≠ 0) :
    decimalValue p (decimalOf p q).1 (decimalOf p q).2 =
      scaled p q * 10 ^ (Int.log 10 |q| - (p - 1 : ℕ)) := by
  have hplace : ∀ x : ℤ, (10 : ℚ) ^ (x - (p - 1 : ℕ)) = 10 ^ x / 10 ^ (p - 1) := by
    intro x
    rw [zpow_sub₀ (by norm_num), zpow_natCast]
  unfold decimalOf decimalValue
  rw [if_neg hq]
  split_ifs with hcarry
  · have hpower : (10 : ℚ) ^ p = 10 * 10 ^ (p - 1) := by
      rw [← pow_succ']
      congr 1
      omega
    rw [hcarry, hplace, zpow_add_one₀ (by norm_num)]
    push_cast
    rw [hpower]
    field_simp
  · rw [hplace]
    ring

theorem decimalOf_lt {p : ℕ} (hp : 1 ≤ p) (q : ℚ) : (decimalOf p q).1 < 10 ^ p := by
  unfold decimalOf
  split_ifs with hzero hcarry
  · positivity
  · exact Nat.pow_lt_pow_right (by norm_num) (by omega)
  · exact lt_of_le_of_ne (scaled_bounds hp hzero).2.2 hcarry

/-- The error is at most half of the last digit, which is small beside the
number. -/
theorem abs_decimalValue_sub_le {p : ℕ} (hp : 1 ≤ p) (q : ℚ) :
    2 * 10 ^ (p - 1) * |decimalValue p (decimalOf p q).1 (decimalOf p q).2 - abs q| ≤ |q| := by
  rcases eq_or_ne q 0 with rfl | hq
  · simp [decimalOf, decimalValue]
  have hunit : (0 : ℚ) < 10 ^ (Int.log 10 |q| - (p - 1 : ℕ)) := by positivity
  have hhalf := abs_sub_roundHalfEven_le_half (|q| / 10 ^ (Int.log 10 |q| - (p - 1 : ℕ)))
  have hcast : ((scaled p q : ℕ) : ℚ) =
      (roundHalfEven (|q| / 10 ^ (Int.log 10 |q| - (p - 1 : ℕ))) : ℚ) := by
    exact_mod_cast congrArg (Int.cast (R := ℚ)) (scaled_bounds hp hq).1
  have herror : |decimalValue p (decimalOf p q).1 (decimalOf p q).2 - abs q| =
      |(roundHalfEven (|q| / 10 ^ (Int.log 10 |q| - (p - 1 : ℕ))) : ℚ) -
        |q| / 10 ^ (Int.log 10 |q| - (p - 1 : ℕ))| * 10 ^ (Int.log 10 |q| - (p - 1 : ℕ)) := by
    rw [decimalOf_value hp hq, hcast, ← abs_of_pos hunit, ← abs_mul, abs_of_pos hunit, sub_mul,
      div_mul_cancel₀ _ hunit.ne']
  have hsmall : (10 : ℚ) ^ (p - 1) * 10 ^ (Int.log 10 |q| - (p - 1 : ℕ)) ≤ |q| := by
    rw [← zpow_natCast, ← zpow_add₀ (by norm_num), add_sub_cancel]
    exact (ten_zpow_log hq).1
  have hunits : (0 : ℚ) ≤ 10 ^ (p - 1) * 10 ^ (Int.log 10 |q| - (p - 1 : ℕ)) := by positivity
  have hdouble := mul_le_mul_of_nonneg_right hhalf hunits
  rw [herror]
  linarith

/-! ## The text is a numeral -/

theorem exists_numeral
    {sign digits fraction : CString} (exponent : Option Exponent) (hsign : IsSign sign)
    (hdigits : AllDigits digits) (hfraction : AllDigits fraction) (hne : digits ≠ []) :
    ∃ n : Numeral,
      n.text = sign ++ (digits ++ pointAnd fraction ++ exponent.elim [] Exponent.text) ∧
      n.value = signed (isNegative sign) ((digitsValue 10 (digits ++ fraction) : ℚ) /
        10 ^ fraction.length * 10 ^ (exponent.elim 0 Exponent.value)) := by
  have hall : digits ++ fraction ≠ [] := by simp [hne]
  by_cases hnil : fraction = []
  · refine ⟨⟨sign, digits, none, fraction, exponent, hsign, hdigits, by simp, hfraction,
      fun _ => hnil, hall⟩, ?_, rfl⟩
    simp [Numeral.text, Numeral.unsignedText, pointAnd, hnil]
  · refine ⟨⟨sign, digits, some point, fraction, exponent, hsign, hdigits, ?_, hfraction,
      ?_, hall⟩, ?_, rfl⟩
    · intro c hc
      cases hc
      decide
    · intro hnone
      cases hnone
    · simp [Numeral.text, Numeral.unsignedText, pointAnd, hnil]

theorem isSign_minus : IsSign [minus] :=
  Or.inr ⟨minus, rfl, Or.inl (by decide)⟩

theorem isSign_plus : IsSign [plus] :=
  Or.inr ⟨plus, rfl, Or.inr (by decide)⟩

/-- The exponent as it is printed. -/
theorem exists_exponent (x : ℤ) :
    ∃ e : Exponent, e.text = exponentText x ∧ e.value = x := by
  have hdigits := allDigits_padDigits 2 x.natAbs
  have hne : padDigits 2 x.natAbs ≠ [] := by
    simp [padDigits, printNat_ne_nil]
  have hminus : isNegative [minus] = true := by decide
  have hplus : isNegative [plus] = false := by decide
  rcases lt_or_ge x 0 with hx | hx
  · refine ⟨⟨mark, [minus], padDigits 2 x.natAbs, by decide, isSign_minus, hne, hdigits⟩,
      ?_, ?_⟩
    · simp [Exponent.text, exponentText, hx]
    · simp only [Exponent.value, hminus, digitsValue_padDigits, applySign, if_true]
      omega
  · refine ⟨⟨mark, [plus], padDigits 2 x.natAbs, by decide, isSign_plus, hne, hdigits⟩,
      ?_, ?_⟩
    · simp [Exponent.text, exponentText, hx]
    · simp only [Exponent.value, hplus, digitsValue_padDigits, applySign]
      exact Int.natAbs_of_nonneg hx

/-- The digits, split at the point, denote the number of all of them. -/
theorem digitsValue_split (k : ℕ) (s : CString) :
    (digitsValue 10 (s.take k ++ dropZeros (s.drop k)) : ℚ) / 10 ^ (dropZeros (s.drop k)).length =
      digitsValue 10 s / 10 ^ (s.length - k) := by
  rw [digitsValue_dropZeros, List.take_append_drop, List.length_drop]

theorem formatMagnitude_numeral
    {p m : ℕ} (hp : 1 ≤ p) (hm : m < 10 ^ p) (x : ℤ) {sign : CString} (hsign : IsSign sign) :
    ∃ n : Numeral, n.text = sign ++ formatMagnitude p m x ∧
      n.value = signed (isNegative sign) (decimalValue p m x) := by
  have hdigits := allDigits_padDigits p m
  have hlength := length_padDigits hp hm
  have htake : ∀ k, padDigits p m ≠ [] → (padDigits p m).take (k + 1) ≠ [] := by
    intro k h
    simpa using h
  have hne : padDigits p m ≠ [] := by
    rw [← List.length_pos_iff]
    omega
  have hfront : ∀ k, AllDigits ((padDigits p m).take k) :=
    fun k => hdigits.of_subset fun _ hc => List.mem_of_mem_take hc
  have hback : ∀ k, AllDigits (dropZeros ((padDigits p m).drop k)) :=
    fun k => allDigits_dropZeros (hdigits.of_subset fun _ hc => List.mem_of_mem_drop hc)
  unfold formatMagnitude decimalValue
  split_ifs with hplain hnonneg
  · -- Plain notation with digits before the point.
    obtain ⟨n, htext, hvalue⟩ := exists_numeral none hsign (hfront (x.toNat + 1))
      (hback (x.toNat + 1)) (htake _ hne)
    refine ⟨n, ?_, ?_⟩
    · rw [htext, Option.elim_none, List.append_nil]
    · rw [hvalue, digitsValue_split, digitsValue_padDigits, hlength, Option.elim_none, zpow_zero,
        mul_one]
      congr 1
      rw [div_mul_eq_mul_div, div_eq_div_iff (by positivity) (by positivity), mul_assoc,
        ← zpow_natCast, ← zpow_natCast, ← zpow_add₀ (by norm_num)]
      congr 2
      omega
  · -- Plain notation with zeros behind the point.
    have hzeros : AllDigits (List.replicate (-x - 1).toNat (digit 0) ++ padDigits p m) :=
      (allDigits_zeros _).append hdigits
    obtain ⟨n, htext, hvalue⟩ := exists_numeral none hsign (allDigits_zeros 1)
      (allDigits_dropZeros hzeros) (by simp)
    refine ⟨n, ?_, ?_⟩
    · rw [htext, Option.elim_none, List.append_nil]
      rfl
    · rw [hvalue, digitsValue_dropZeros, ← List.append_assoc, List.replicate_append_replicate,
        digitsValue_append _ hdigits, digitsValue_zeros, zero_mul, zero_add,
        digitsValue_padDigits, List.length_append, List.length_replicate, hlength,
        Option.elim_none, zpow_zero, mul_one]
      congr 1
      rw [div_mul_eq_mul_div, div_eq_div_iff (by positivity) (by positivity), mul_assoc,
        ← zpow_natCast, ← zpow_natCast, ← zpow_add₀ (by norm_num)]
      congr 2
      omega
  · -- Notation with an exponent.
    obtain ⟨e, hetext, hevalue⟩ := exists_exponent x
    obtain ⟨n, htext, hvalue⟩ := exists_numeral (some e) hsign (hfront 1) (hback 1) (htake _ hne)
    refine ⟨n, ?_, ?_⟩
    · rw [htext, Option.elim_some, hetext]
    · rw [hvalue, digitsValue_split, digitsValue_padDigits, hlength, Option.elim_some, hevalue]

/-- What is printed denotes the rounded number. -/
theorem formatG_numeral {p : ℕ} (hp : 1 ≤ p) (q : ℚ) :
    ∃ n : Numeral, n.text = formatG p q ∧
      n.value = signed (q < 0) (decimalValue p (decimalOf p q).1 (decimalOf p q).2) := by
  have hminus : isNegative [minus] = true := by decide
  have hnone : isNegative [] = false := by decide
  unfold formatG
  by_cases hq : q < 0
  · have h := formatMagnitude_numeral hp (decimalOf_lt hp q) (decimalOf p q).2 isSign_minus
    rw [if_pos hq, decide_eq_true hq]
    rwa [hminus] at h
  · have h := formatMagnitude_numeral hp (decimalOf_lt hp q) (decimalOf p q).2 (Or.inl rfl)
    rw [if_neg hq, decide_eq_false hq]
    rwa [hnone] at h

/-- The number that is printed is as close as its last digit allows. -/
theorem abs_formatted_sub_le {p : ℕ} (hp : 1 ≤ p) (q : ℚ) :
    2 * 10 ^ (p - 1) *
      |signed (q < 0) (decimalValue p (decimalOf p q).1 (decimalOf p q).2) - q| ≤ |q| := by
  have h := abs_decimalValue_sub_le hp q
  by_cases hq : q < 0
  · rw [abs_of_neg hq] at h ⊢
    rw [decide_eq_true hq]
    change 2 * 10 ^ (p - 1) * |-decimalValue p (decimalOf p q).1 (decimalOf p q).2 - q| ≤ -q
    rwa [abs_sub_comm, ← neg_add', add_comm, neg_add'] at h
  · rw [abs_of_nonneg (not_lt.mp hq)] at h ⊢
    rw [decide_eq_false hq]
    exact h

/-! ## How long the text is -/

theorem length_pointAnd (fraction : CString) :
    (pointAnd fraction).length ≤ fraction.length + 1 := by
  unfold pointAnd
  split_ifs <;> simp

theorem length_dropZeros (fraction : CString) : (dropZeros fraction).length ≤ fraction.length :=
  have hshorter := List.rdropWhile_prefix _ _
  hshorter.length_le

theorem length_exponentText {x : ℤ} (hx : x.natAbs < 1000) : (exponentText x).length ≤ 5 := by
  have hprint := length_printNat_le (p := 3) (by norm_num) hx
  unfold exponentText padDigits
  simp only [List.length_cons, List.length_append, List.length_replicate]
  omega

theorem length_formatMagnitude
    {p m : ℕ} (hp : 1 ≤ p) (hm : m < 10 ^ p) {x : ℤ} (hx : x.natAbs < 1000) :
    (formatMagnitude p m x).length ≤ p + 6 := by
  have hdigits := length_padDigits hp hm
  have htail : ∀ s : CString, (pointAnd (dropZeros s)).length ≤ s.length + 1 := by
    intro s
    have h := length_dropZeros s
    exact (length_pointAnd _).trans (by omega)
  unfold formatMagnitude
  split_ifs with hplain hnonneg
  · have h := htail ((padDigits p m).drop (x.toNat + 1))
    rw [List.length_drop] at h
    rw [List.length_append, List.length_take]
    omega
  · have h := htail (List.replicate (-x - 1).toNat (digit 0) ++ padDigits p m)
    rw [List.length_append, List.length_replicate] at h
    rw [List.length_cons]
    omega
  · have h := htail ((padDigits p m).drop 1)
    have hexponent := length_exponentText hx
    rw [List.length_drop] at h
    rw [List.length_append, List.length_append, List.length_take]
    omega

/-- The exponents of doubles have at most three digits. -/
theorem natAbs_decimalOf_lt {q : ℚ} (hq : IsDouble q) (p : ℕ) :
    (decimalOf p q).2.natAbs < 1000 := by
  rcases eq_or_ne q 0 with rfl | hzero
  · simp [decimalOf]
  obtain ⟨hlow, hhigh⟩ := ten_zpow_log hzero
  have hbelow : Int.log 10 |q| < 512 := by
    have h : (10 : ℚ) ^ Int.log 10 |q| < 10 ^ (512 : ℤ) := by
      calc
        (10 : ℚ) ^ Int.log 10 |q| < 2 ^ (2 * 512) := hlow.trans_lt hq.2
        _ = (2 ^ 2) ^ 512 := pow_mul _ _ _
        _ ≤ 10 ^ 512 := pow_le_pow_left₀ (by norm_num) (by norm_num) _
        _ = 10 ^ (512 : ℤ) := (zpow_natCast _ _).symm
    exact (zpow_lt_zpow_iff_right₀ (by norm_num : (1 : ℚ) < 10)).mp h
  have habove : -540 < Int.log 10 |q| + 1 := by
    obtain ⟨n, hn⟩ := hq.1.exists_multiple
    have hint : n ≠ 0 := by
      rintro rfl
      rw [Int.cast_zero, zero_mul] at hn
      exact hzero hn
    have hsmall : (2 : ℚ) ^ (-1074 : ℤ) ≤ |q| := by
      rw [hn, abs_mul, abs_of_pos (two_zpow_pos _)]
      apply le_mul_of_one_le_left (two_zpow_pos _).le
      exact_mod_cast Int.one_le_abs hint
    have h : (10 : ℚ) ^ (-540 : ℤ) < 10 ^ (Int.log 10 |q| + 1) := by
      calc
        (10 : ℚ) ^ (-540 : ℤ) = ((10 : ℚ) ^ (540 : ℕ))⁻¹ := by
          rw [zpow_neg, ← zpow_natCast]
          rfl
        _ ≤ ((2 : ℚ) ^ (1074 : ℕ))⁻¹ := by
          apply inv_anti₀ (by positivity)
          calc
            (2 : ℚ) ^ 1074 ≤ 2 ^ (2 * 540) := pow_le_pow_right₀ (by norm_num) (by norm_num)
            _ = (2 ^ 2) ^ 540 := pow_mul _ _ _
            _ ≤ 10 ^ 540 := pow_le_pow_left₀ (by norm_num) (by norm_num) _
        _ = 2 ^ (-1074 : ℤ) := by
          rw [zpow_neg, ← zpow_natCast]
          rfl
        _ ≤ |q| := hsmall
        _ < 10 ^ (Int.log 10 |q| + 1) := hhigh
    exact (zpow_lt_zpow_iff_right₀ (by norm_num : (1 : ℚ) < 10)).mp h
  unfold decimalOf
  rw [if_neg hzero]
  split_ifs <;> simp only <;> omega

theorem length_formatG {p : ℕ} (hp : 1 ≤ p) {q : ℚ} (hq : IsDouble q) :
    (formatG p q).length ≤ p + 7 := by
  have h := length_formatMagnitude hp (decimalOf_lt hp q) (natAbs_decimalOf_lt hq p)
  unfold formatG
  rw [List.length_append]
  split_ifs
  · rw [List.length_singleton]
    omega
  · rw [List.length_nil]
    omega

/-! ## The characters of the text -/

theorem mem_formatMagnitude {p m : ℕ} {x : ℤ} {c : CChar} (hc : c ∈ formatMagnitude p m x) :
    isDigit 10 c = true ∨ c = point ∨ c = mark ∨ c = minus ∨ c = plus := by
  have hdigits := allDigits_padDigits p m
  have hpoint : ∀ s : CString, AllDigits s → c ∈ pointAnd (dropZeros s) →
      isDigit 10 c = true ∨ c = point := by
    intro s hs h
    unfold pointAnd at h
    split_ifs at h
    · cases h
    · rcases List.mem_cons.mp h with rfl | h
      · exact Or.inr rfl
      · exact Or.inl (allDigits_dropZeros hs c h)
  unfold formatMagnitude at hc
  split_ifs at hc
  · rcases List.mem_append.mp hc with h | h
    · exact Or.inl (hdigits c (List.mem_of_mem_take h))
    · have := hpoint _ (hdigits.of_subset fun _ hd => List.mem_of_mem_drop hd) h
      tauto
  · rcases List.mem_cons.mp hc with rfl | h
    · exact Or.inl (digit_spec (by norm_num)).1
    · have := hpoint _ ((allDigits_zeros _).append hdigits) h
      tauto
  · rcases List.mem_append.mp hc with h | h
    · rcases List.mem_append.mp h with h | h
      · exact Or.inl (hdigits c (List.mem_of_mem_take h))
      · have := hpoint _ (hdigits.of_subset fun _ hd => List.mem_of_mem_drop hd) h
        tauto
    · unfold exponentText at h
      rcases List.mem_cons.mp h with rfl | h
      · tauto
      · rcases List.mem_cons.mp h with rfl | h
        · split_ifs <;> tauto
        · exact Or.inl (allDigits_padDigits 2 _ c h)

theorem head_formatMagnitude {p m : ℕ} (hp : 1 ≤ p) (hm : m < 10 ^ p) (x : ℤ) :
    ∃ c rest, formatMagnitude p m x = c :: rest ∧ isDigit 10 c = true := by
  have hfront : ∀ k, ∃ c rest, (padDigits p m).take (k + 1) = c :: rest ∧
      isDigit 10 c = true := by
    intro k
    cases hpad : padDigits p m with
    | nil =>
        have hlength := length_padDigits hp hm
        rw [hpad, List.length_nil] at hlength
        omega
    | cons c rest =>
        have hc : c ∈ padDigits p m := hpad ▸ List.mem_cons_self
        exact ⟨c, rest.take k, rfl, allDigits_padDigits p m c hc⟩
  unfold formatMagnitude
  split_ifs
  · obtain ⟨c, rest, heq, hc⟩ := hfront x.toNat
    rw [heq]
    exact ⟨c, _, rfl, hc⟩
  · exact ⟨digit 0, _, rfl, (digit_spec (by norm_num)).1⟩
  · obtain ⟨c, rest, heq, hc⟩ := hfront 0
    rw [heq]
    exact ⟨c, _, rfl, hc⟩

/-- A text of at least one character that can stand in a number. -/
structure IsNumberText (s : CString) : Prop where
  mem : ∀ c ∈ s, isDigit 10 c = true ∨ c = point ∨ c = mark ∨ c = minus ∨ c = plus
  head : ∃ c rest, s = c :: rest ∧ (isDigit 10 c = true ∨ c = minus)

theorem formatG_isNumberText {p : ℕ} (hp : 1 ≤ p) (q : ℚ) : IsNumberText (formatG p q) := by
  unfold formatG
  split_ifs
  · constructor
    · intro c hc
      rcases List.mem_cons.mp hc with rfl | hc
      · tauto
      · exact mem_formatMagnitude hc
    · exact ⟨minus, _, rfl, Or.inr rfl⟩
  · obtain ⟨c, rest, heq, hdigit⟩ := head_formatMagnitude hp (decimalOf_lt hp q) (decimalOf p q).2
    exact ⟨fun d hd => mem_formatMagnitude hd, c, rest, heq, Or.inl hdigit⟩

theorem formatInt_isNumberText (n : ℤ) : IsNumberText (formatInt n) := by
  have hdigits := printNat_digits n.natAbs
  unfold formatInt
  split_ifs
  · constructor
    · intro c hc
      rcases List.mem_cons.mp hc with rfl | hc
      · tauto
      · exact Or.inl (hdigits c hc)
    · exact ⟨minus, _, rfl, Or.inr rfl⟩
  · constructor
    · exact fun c hc => Or.inl (hdigits c hc)
    · obtain ⟨c, rest, heq⟩ := List.exists_cons_of_ne_nil (printNat_ne_nil n.natAbs)
      exact ⟨c, rest, heq, Or.inl (hdigits c (heq ▸ List.mem_cons_self))⟩

end DecimalPrinting

end Iperf3
