import Iperf3.FloatScan
import Mathlib.Tactic

/-!
# Decimal numerals

A numeral is made of its parts and denotes a rational.  `%lf` takes a numeral
up to its end if what follows could not continue it, and whatever it takes
without blanks in the decimal spelling is a numeral.
-/

namespace Iperf3

namespace FloatScan

open CChar CString

def IsSign (s : CString) : Prop :=
  s = [] ∨ ∃ c : CChar, s = [c] ∧ (c.char = '-' ∨ c.char = '+')

/-- The mark of an exponent, its sign and its digits. -/
structure Exponent where
  mark : CChar
  sign : CString
  digits : CString
  mark_lower : mark.lower = 'e'
  sign_isSign : IsSign sign
  digits_ne_nil : digits ≠ []
  digits_isDigit : ∀ c ∈ digits, isDigit 10 c = true

structure Numeral where
  sign : CString
  digits : CString
  point : Option CChar
  fraction : CString
  exponent : Option Exponent
  sign_isSign : IsSign sign
  digits_isDigit : ∀ c ∈ digits, isDigit 10 c = true
  point_char : ∀ c ∈ point, c.char = '.'
  fraction_isDigit : ∀ c ∈ fraction, isDigit 10 c = true
  fraction_eq_nil : point = none → fraction = []
  digits_ne_nil : digits ++ fraction ≠ []

def isNegative (sign : CString) : Bool :=
  (sign.head?.map char) = some '-'

def Exponent.text (exponent : Exponent) : CString :=
  exponent.mark :: (exponent.sign ++ exponent.digits)

def Exponent.value (exponent : Exponent) : ℤ :=
  applySign (isNegative exponent.sign) (digitsValue 10 exponent.digits)

namespace Numeral

variable (n : Numeral)

def unsignedText : CString :=
  n.digits ++ (n.point.toList ++ n.fraction) ++ (n.exponent.elim [] Exponent.text)

def text : CString :=
  n.sign ++ n.unsignedText

def magnitude : ℚ :=
  (digitsValue 10 (n.digits ++ n.fraction) : ℚ) / ((10 : ℕ) : ℚ) ^ n.fraction.length *
    10 ^ (n.exponent.elim 0 Exponent.value)

def value : ℚ :=
  signed (isNegative n.sign) n.magnitude

end Numeral

/-- What cannot continue a numeral. -/
def Stops (rest : CString) : Prop :=
  ∀ c ∈ rest.head?, isDigit 10 c = false ∧ c.char ≠ '.' ∧ c.lower ≠ 'e' ∧ c.lower ≠ 'x'

/-! ## Characters -/

theorem digitValue_ten (c : CChar) :
    isDigit 10 c = true ↔ '0' ≤ c.char ∧ c.char ≤ '9' := by
  revert c
  apply forall_char (P := fun d => (if (if '0' ≤ d ∧ d ≤ '9' then d.toNat - 48
      else if 'a' ≤ d.toLower ∧ d.toLower ≤ 'z' then d.toLower.toNat - 87 else 10) < 10
    then some (if '0' ≤ d ∧ d ≤ '9' then d.toNat - 48
      else if 'a' ≤ d.toLower ∧ d.toLower ≤ 'z' then d.toLower.toNat - 87 else 10)
    else none).isSome = true ↔ '0' ≤ d ∧ d ≤ '9')
  decide +kernel

/-- A digit is no sign, point, blank, mark or letter of another spelling. -/
structure PlainDigit (c : CChar) : Prop where
  minus : c.char ≠ '-'
  plus : c.char ≠ '+'
  point : c.char ≠ '.'
  blank : isBlank c = false
  x : c.lower ≠ 'x'
  i : c.lower ≠ 'i'
  n : c.lower ≠ 'n'

theorem plainDigit {c : CChar} (h : isDigit 10 c = true) : PlainDigit c := by
  rw [digitValue_ten] at h
  revert c
  have hall : ∀ c : CChar, '0' ≤ c.char ∧ c.char ≤ '9' →
      c.char ≠ '-' ∧ c.char ≠ '+' ∧ c.char ≠ '.' ∧ isBlank c = false ∧ c.lower ≠ 'x' ∧
        c.lower ≠ 'i' ∧ c.lower ≠ 'n' := by
    apply forall_char (P := fun d => '0' ≤ d ∧ d ≤ '9' → d ≠ '-' ∧ d ≠ '+' ∧ d ≠ '.' ∧
      decide (d = ' ' ∨ '\t' ≤ d ∧ d ≤ '\r') = false ∧ d.toLower ≠ 'x' ∧ d.toLower ≠ 'i' ∧
        d.toLower ≠ 'n')
    decide +kernel
  intro c h
  obtain ⟨hminus, hplus, hpoint, hblank, hx, hi, hn⟩ := hall c h
  exact ⟨hminus, hplus, hpoint, hblank, hx, hi, hn⟩

theorem not_digit_of_char {c : CChar} {d : Char} (h : c.char = d) (hd : ¬ ('0' ≤ d ∧ d ≤ '9')) :
    isDigit 10 c = false := by
  rw [← Bool.not_eq_true, digitValue_ten, h]
  exact hd

theorem mark_not_digit {c : CChar} (h : c.lower = 'e') : isDigit 10 c = false ∧ c.char ≠ '.' := by
  have hall : ∀ c : CChar, c.lower = 'e' → ¬ ('0' ≤ c.char ∧ c.char ≤ '9') ∧ c.char ≠ '.' := by
    apply forall_char (P := fun d => d.toLower = 'e' → ¬ ('0' ≤ d ∧ d ≤ '9') ∧ d ≠ '.')
    decide +kernel
  rw [← Bool.not_eq_true, digitValue_ten]
  exact hall c h

/-! ## Taking a part -/

theorem span_append {p : CChar → Bool} {front rest : CString} (hfront : ∀ c ∈ front, p c = true)
    (hrest : ∀ c ∈ rest.head?, p c = false) :
    (front ++ rest).takeWhile p = front ∧ (front ++ rest).dropWhile p = rest := by
  induction front with
  | nil =>
      cases rest with
      | nil => exact ⟨rfl, rfl⟩
      | cons c rest =>
          have hc := hrest c rfl
          simp [hc]
  | cons c front ih =>
      have hc := hfront c List.mem_cons_self
      obtain ⟨htake, hdrop⟩ := ih fun d hd => hfront d (List.mem_cons_of_mem _ hd)
      simp [hc, htake, hdrop]

theorem scanSign_append {sign rest : CString} (hsign : IsSign sign)
    (hrest : ∀ c ∈ rest.head?, c.char ≠ '-' ∧ c.char ≠ '+') :
    scanSign (sign ++ rest) = (isNegative sign, rest) := by
  rcases hsign with rfl | ⟨c, rfl, hminus | hplus⟩
  · cases rest with
    | nil => rfl
    | cons c rest =>
        obtain ⟨hminus, hplus⟩ := hrest c rfl
        simp [scanSign, hminus, hplus, isNegative]
  · simp [scanSign, hminus, isNegative]
  · simp [scanSign, hplus, isNegative]

theorem head_digits {digits rest : CString} (hdigits : ∀ c ∈ digits, isDigit 10 c = true)
    (hne : digits ≠ []) : ∀ c ∈ (digits ++ rest).head?, isDigit 10 c = true := by
  obtain ⟨d, more, rfl⟩ := List.exists_cons_of_ne_nil hne
  intro c hc
  cases hc
  exact hdigits _ List.mem_cons_self

theorem scanExponent_append (exponent : Option Exponent) {rest : CString} (hstops : Stops rest) :
    scanExponent 'e' (exponent.elim [] Exponent.text ++ rest) =
      some (exponent.elim 0 Exponent.value, rest) := by
  cases exponent with
  | none =>
      cases rest with
      | nil => rfl
      | cons c rest =>
          obtain ⟨-, -, he, -⟩ := hstops c rfl
          simp [scanExponent, he]
  | some exponent =>
      have hdigits := exponent.digits_isDigit
      have hsign : scanSign (exponent.sign ++ (exponent.digits ++ rest)) =
          (isNegative exponent.sign, exponent.digits ++ rest) := by
        apply scanSign_append exponent.sign_isSign
        intro c hc
        have hplain := plainDigit (head_digits hdigits exponent.digits_ne_nil c hc)
        exact ⟨hplain.minus, hplain.plus⟩
      obtain ⟨htake, hdrop⟩ := span_append hdigits fun c hc => (hstops c hc).1
      simp only [Option.elim_some, Exponent.text, List.cons_append, List.append_assoc]
      unfold scanExponent
      simp only [exponent.mark_lower, if_true, hsign, htake, hdrop]
      rw [if_neg exponent.digits_ne_nil]
      rfl

/-- Neither an exponent nor what follows begins with a digit or a point. -/
theorem head_exponent (exponent : Option Exponent) {rest : CString} (hstops : Stops rest) :
    ∀ c ∈ (exponent.elim [] Exponent.text ++ rest).head?,
      isDigit 10 c = false ∧ c.char ≠ '.' := by
  intro c hc
  cases exponent with
  | none =>
      obtain ⟨hdigit, hpoint, -⟩ := hstops c hc
      exact ⟨hdigit, hpoint⟩
  | some exponent =>
      cases hc
      exact mark_not_digit exponent.mark_lower

theorem scanFraction_append (n : Numeral) {rest : CString} (hstops : Stops rest) :
    scanFraction 10 (n.point.toList ++ n.fraction ++ (n.exponent.elim [] Exponent.text ++ rest)) =
      (n.fraction, n.exponent.elim [] Exponent.text ++ rest) := by
  have hhead := head_exponent n.exponent hstops
  cases hpoint : n.point with
  | none =>
      rw [n.fraction_eq_nil hpoint]
      cases hbehind : n.exponent.elim [] Exponent.text ++ rest with
      | nil => rfl
      | cons c more =>
          rw [hbehind] at hhead
          have hc := (hhead c rfl).2
          simp [scanFraction, hc]
  | some point =>
      have hchar := n.point_char point hpoint
      obtain ⟨htake, hdrop⟩ := span_append n.fraction_isDigit fun c hc => (hhead c hc).1
      simp [scanFraction, hchar, htake, hdrop]

theorem unsignedText_append (n : Numeral) (rest : CString) :
    n.unsignedText ++ rest = n.digits ++ (n.point.toList ++ n.fraction ++
      (n.exponent.elim [] Exponent.text ++ rest)) := by
  simp [Numeral.unsignedText]

theorem scanUnsigned_numeral (n : Numeral) {rest : CString} (hstops : Stops rest) :
    scanUnsigned 10 'e' 10 (n.unsignedText ++ rest) = some (n.magnitude, rest) := by
  have hhead := head_exponent n.exponent hstops
  have hbehind : ∀ c ∈ (n.point.toList ++ n.fraction ++
      (n.exponent.elim [] Exponent.text ++ rest)).head?, isDigit 10 c = false := by
    intro c hc
    cases hpoint : n.point with
    | none =>
        rw [hpoint, n.fraction_eq_nil hpoint] at hc
        exact (hhead c hc).1
    | some point =>
        rw [hpoint] at hc
        cases hc
        exact not_digit_of_char (n.point_char _ hpoint) (by decide)
  obtain ⟨htake, hdrop⟩ := span_append n.digits_isDigit hbehind
  unfold scanUnsigned
  rw [unsignedText_append]
  simp only [htake, hdrop, scanFraction_append n hstops, if_neg n.digits_ne_nil,
    scanExponent_append n.exponent hstops, Option.map_some]
  rfl

/-- A numeral without a digit in front begins with its point. -/
theorem Numeral.exists_point (n : Numeral) (h : n.digits = []) :
    ∃ point, n.point = some point := by
  cases hpoint : n.point with
  | none =>
      have hne := n.digits_ne_nil
      rw [h, n.fraction_eq_nil hpoint] at hne
      exact absurd rfl hne
  | some point => exact ⟨point, rfl⟩

/-- The first character of the unsigned part. -/
theorem head_unsigned (n : Numeral) (rest : CString) :
    ∃ c more, n.unsignedText ++ rest = c :: more ∧ (isDigit 10 c = true ∨ c.char = '.') := by
  unfold Numeral.unsignedText
  cases hdigits : n.digits with
  | cons c more =>
      refine ⟨c, _, rfl, Or.inl ?_⟩
      exact n.digits_isDigit c (by rw [hdigits]; exact List.mem_cons_self)
  | nil =>
      obtain ⟨point, hpoint⟩ := n.exists_point hdigits
      rw [hpoint]
      exact ⟨point, _, rfl, Or.inr (n.point_char point hpoint)⟩

theorem lower_ne_x_of_mark {c : CChar} (h : c.lower = 'e') : c.lower ≠ 'x' := by
  rw [h]
  decide

theorem lower_ne_x_of_point {c : CChar} (h : c.char = '.') : c.lower ≠ 'x' := by
  unfold CChar.lower
  rw [h]
  decide

theorem behind_digits_ne_x (n : Numeral) {rest : CString} (hstops : Stops rest) :
    ∀ d ∈ (n.point.toList ++ n.fraction ++
      (n.exponent.elim [] Exponent.text ++ rest)).head?, d.lower ≠ 'x' := by
  intro d hd
  cases hpoint : n.point with
  | some point =>
      rw [hpoint] at hd
      cases hd
      exact lower_ne_x_of_point (n.point_char _ hpoint)
  | none =>
      rw [hpoint, n.fraction_eq_nil hpoint] at hd
      cases hexp : n.exponent with
      | none =>
          rw [hexp] at hd
          exact (hstops d hd).2.2.2
      | some exponent =>
          rw [hexp] at hd
          cases hd
          exact lower_ne_x_of_mark exponent.mark_lower

/-- Nothing in a numeral behind its first digit is an `x`. -/
theorem second_ne_x (n : Numeral) {rest : CString} (hstops : Stops rest) {c : CChar}
    {more : CString} (h : n.unsignedText ++ rest = c :: more) (hc : c.char = '0') :
    ∀ d ∈ more.head?, d.lower ≠ 'x' := by
  rw [unsignedText_append] at h
  intro d hd
  match hdigits : n.digits with
  | [] =>
      -- the first character would be the point
      obtain ⟨point, hpoint⟩ := n.exists_point hdigits
      rw [hdigits, hpoint] at h
      cases h
      exact absurd (hc.symm.trans (n.point_char _ hpoint)) (by decide)
  | [e] =>
      rw [hdigits] at h
      cases h
      exact behind_digits_ne_x n hstops d hd
  | e :: f :: digits =>
      have hf : isDigit 10 f = true := n.digits_isDigit f (by rw [hdigits]; simp)
      rw [hdigits] at h
      cases h
      cases hd
      exact (plainDigit hf).x

theorem kindOf_numeral (n : Numeral) {rest : CString} (hstops : Stops rest) :
    kindOf (n.unsignedText ++ rest) = .decimal := by
  obtain ⟨c, more, htext, hc⟩ := head_unsigned n rest
  have hi : c.lower ≠ 'i' ∧ c.lower ≠ 'n' := by
    rcases hc with hdigit | hpoint
    · exact ⟨(plainDigit hdigit).i, (plainDigit hdigit).n⟩
    · unfold CChar.lower
      rw [hpoint]
      decide
  rw [htext]
  simp only [kindOf]
  have hx : ¬ (c.char = '0' ∧ more.head?.map lower = some 'x') := by
    rintro ⟨hzero, hx⟩
    obtain ⟨d, hd, hdx⟩ := Option.map_eq_some_iff.mp hx
    exact second_ne_x n hstops htext hzero d hd hdx
  rw [if_neg hx, if_neg hi.1, if_neg hi.2]

theorem head_not_blank (n : Numeral) (rest : CString) :
    ∀ c ∈ (n.text ++ rest).head?, isBlank c = false := by
  obtain ⟨d, more, htext, hd⟩ := head_unsigned n rest
  intro c hc
  unfold Numeral.text at hc
  rw [List.append_assoc, htext] at hc
  rcases n.sign_isSign with hsign | ⟨e, hsign, he⟩
  · rw [hsign] at hc
    cases hc
    rcases hd with hdigit | hpoint
    · exact (plainDigit hdigit).blank
    · unfold isBlank
      rw [hpoint]
      decide
  · rw [hsign] at hc
    cases hc
    unfold isBlank
    rcases he with he | he
    · rw [he]
      decide
    · rw [he]
      decide

theorem scanSign_text (n : Numeral) (rest : CString) :
    scanSign (n.text ++ rest) = (isNegative n.sign, n.unsignedText ++ rest) := by
  unfold Numeral.text
  rw [List.append_assoc]
  apply scanSign_append n.sign_isSign
  obtain ⟨d, more, htext, hd⟩ := head_unsigned n rest
  rw [htext]
  intro c hc
  cases hc
  rcases hd with hdigit | hpoint
  · exact ⟨(plainDigit hdigit).minus, (plainDigit hdigit).plus⟩
  · rw [hpoint]
    decide

/-- A numeral is read up to its end. -/
theorem scanDouble_numeral (n : Numeral) {rest : CString} (hstops : Stops rest) :
    scanDouble (n.text ++ rest) = some (.finite n.value, rest) := by
  have hblank : (n.text ++ rest).dropWhile isBlank = n.text ++ rest := by
    have hspan := (span_append (fun c hc => absurd hc List.not_mem_nil)
      (head_not_blank n rest)).2
    exact hspan
  unfold scanDouble
  rw [hblank, scanSign_text]
  simp only [kindOf_numeral n hstops, scanUnsigned_numeral n hstops, Option.map_some]
  rfl

/-! ## What is taken is a numeral -/

theorem scanSign_split (s : CString) :
    ∃ sign, IsSign sign ∧ s = sign ++ (scanSign s).2 ∧ (scanSign s).1 = isNegative sign := by
  cases s with
  | nil => exact ⟨[], Or.inl rfl, rfl, rfl⟩
  | cons c more =>
      unfold scanSign
      dsimp only
      split_ifs with hminus hplus
      · exact ⟨[c], Or.inr ⟨c, rfl, Or.inl hminus⟩, rfl, by simp [isNegative, hminus]⟩
      · exact ⟨[c], Or.inr ⟨c, rfl, Or.inr hplus⟩, rfl, by simp [isNegative, hplus]⟩
      · exact ⟨[], Or.inl rfl, rfl, rfl⟩

theorem takeWhile_digits (s : CString) : ∀ c ∈ s.takeWhile (isDigit 10), isDigit 10 c = true :=
  List.all_eq_true.mp List.all_takeWhile

theorem scanExponent_split {s rest : CString} {e : ℤ} (h : scanExponent 'e' s = some (e, rest)) :
    ∃ exponent : Option Exponent,
      s = exponent.elim [] Exponent.text ++ rest ∧ e = exponent.elim 0 Exponent.value := by
  unfold scanExponent at h
  split at h
  · cases h
    exact ⟨none, rfl, rfl⟩
  · rename_i c more
    split_ifs at h with hmark
    · obtain ⟨sign, hsign, hmore, hnegative⟩ := scanSign_split more
      simp only at h
      split_ifs at h with hdigits
      cases h
      refine ⟨some ⟨c, sign, _, hmark, hsign, hdigits, takeWhile_digits _⟩, ?_, ?_⟩
      · simp only [Option.elim_some, Exponent.text, List.cons_append, List.append_assoc,
          List.takeWhile_append_dropWhile]
        rw [← hmore]
      · simp only [Option.elim_some, Exponent.value, hnegative]
    · cases h
      exact ⟨none, rfl, rfl⟩

theorem scanFraction_split (s : CString) :
    ∃ point : Option CChar, s = point.toList ++ (scanFraction 10 s).1 ++ (scanFraction 10 s).2 ∧
      (∀ c ∈ point, c.char = '.') ∧ (∀ c ∈ (scanFraction 10 s).1, isDigit 10 c = true) ∧
      (point = none → (scanFraction 10 s).1 = []) := by
  cases s with
  | nil => exact ⟨none, rfl, by simp, by simp [scanFraction], fun _ => rfl⟩
  | cons c more =>
      unfold scanFraction
      dsimp only
      split_ifs with hpoint
      · refine ⟨some c, ?_, by simpa using hpoint, takeWhile_digits more, fun hnone => ?_⟩
        · simp [List.takeWhile_append_dropWhile]
        · cases hnone
      · exact ⟨none, rfl, by simp, by simp, fun _ => rfl⟩

/-- In the decimal spelling and without blanks in front, what is taken is a
numeral. -/
theorem scanDouble_split {s rest : CString} {value : FloatValue}
    (h : scanDouble s = some (value, rest)) (hblank : ∀ c ∈ s.head?, isBlank c = false)
    (hkind : kindOf (scanSign s).2 = .decimal) :
    ∃ n : Numeral, s = n.text ++ rest ∧ value = .finite n.value := by
  have hskip : s.dropWhile isBlank = s :=
    (span_append (fun c hc => absurd hc List.not_mem_nil) hblank).2
  obtain ⟨sign, hsign, hs, hnegative⟩ := scanSign_split s
  unfold scanDouble at h
  rw [hskip] at h
  simp only [hkind] at h
  obtain ⟨⟨q, rest'⟩, hunsigned, heq⟩ := Option.map_eq_some_iff.mp h
  cases heq
  unfold scanUnsigned at hunsigned
  obtain ⟨point, hfraction, hpoint, hdigits, hnone⟩ := scanFraction_split
    ((scanSign s).2.dropWhile (isDigit 10))
  simp only at hunsigned
  split_ifs at hunsigned with hne
  obtain ⟨⟨e, rest''⟩, hexponent, heq⟩ := Option.map_eq_some_iff.mp hunsigned
  cases heq
  obtain ⟨exponent, htail, hvalue⟩ := scanExponent_split hexponent
  refine ⟨⟨sign, _, point, _, exponent, hsign, takeWhile_digits _, hpoint, hdigits, hnone, hne⟩,
    ?_, ?_⟩
  · unfold Numeral.text Numeral.unsignedText
    simp only [List.append_assoc]
    rw [List.append_assoc] at hfraction
    rw [← htail, ← hfraction, List.takeWhile_append_dropWhile, ← hs]
  · unfold Numeral.value Numeral.magnitude
    simp only [hnegative, hvalue]

end FloatScan

end Iperf3
