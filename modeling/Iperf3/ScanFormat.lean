import Iperf3.DecimalNumeral

/-!
# One format for `printf` and `sscanf`

A format is read by both functions.  For `printf` a character of it stands for
itself; for `sscanf` a blank stands for any number of blanks, a conversion
first skips blanks, and `%s` stops at the next one.
-/

namespace Iperf3

open FloatScan CChar

inductive FormatItem where
  | text (c : CChar)
  | string
  | int64
  deriving DecidableEq

inductive FormatArg where
  | string (s : CString)
  | int64 (z : Int64)
  deriving DecidableEq

namespace ScanFormat

/-! ## Decimal numbers -/

def digit (d : ℕ) : CChar :=
  ⟨UInt8.ofNat (48 + d % 10), by
    intro h
    have hvalue := congrArg UInt8.toNat h
    rw [UInt8.toNat_ofNat_of_lt' (by change 48 + d % 10 < 256; omega)] at hvalue
    change 48 + d % 10 = 0 at hvalue
    omega⟩

theorem minus_ne_nul : UInt8.ofNat '-'.toNat ≠ 0 := by
  decide

def minus : CChar :=
  CChar.ofChar '-' minus_ne_nul

def printNat (n : ℕ) : CString :=
  if n = 0 then [digit 0] else (Nat.digits 10 n).reverse.map digit

/-- The conversion `%ld` of `printf`. -/
def printInt64 (z : Int64) : CString :=
  if z.toInt < 0 then minus :: printNat z.toInt.natAbs else printNat z.toInt.natAbs

/-- What is too large or too small becomes the last number of its side. -/
def clampInt64 (z : ℤ) : Int64 :=
  Int64.ofInt (max (-2 ^ 63) (min (2 ^ 63 - 1) z))

/-- The conversion `%ld` of `sscanf` behind the blanks. -/
def scanInt64 (s : CString) : Option (Int64 × CString) :=
  let (negative, rest) := scanSign s
  let digits := rest.takeWhile (isDigit 10)
  if digits = [] then none
  else some (clampInt64 (applySign negative (digitsValue 10 digits)),
    rest.dropWhile (isDigit 10))

/-! ## Both functions -/

/-- What `printf` writes. -/
def print : List FormatItem → List FormatArg → CString
  | [], _ => []
  | .text c :: items, args => c :: print items args
  | .string :: items, .string s :: args => s ++ print items args
  | .int64 :: items, .int64 z :: args => printInt64 z ++ print items args
  | _ :: _, _ => []

def skipBlanks (s : CString) : CString :=
  s.dropWhile isBlank

/-- What `sscanf` assigns, up to the first item that does not match. -/
def scan : List FormatItem → CString → List FormatArg
  | [], _ => []
  | .text c :: items, s =>
      if isBlank c then scan items (skipBlanks s)
      else
        match s with
        | [] => []
        | d :: rest => if d = c then scan items rest else []
  | .string :: items, s =>
      let word := (skipBlanks s).takeWhile fun c => !isBlank c
      if word = [] then []
      else .string word :: scan items ((skipBlanks s).dropWhile fun c => !isBlank c)
  | .int64 :: items, s =>
      match scanInt64 (skipBlanks s) with
      | none => []
      | some (z, rest) => .int64 z :: scan items rest

/-- A text that `%s` can read back. -/
def IsWord (s : CString) : Prop :=
  s ≠ [] ∧ ∀ c ∈ s, isBlank c = false

instance (s : CString) : Decidable (IsWord s) :=
  inferInstanceAs (Decidable (_ ∧ _))

/-- The arguments are those of the format, each text is one word, and behind
a conversion the format goes on with a blank or ends. -/
inductive Readable : List FormatItem → List FormatArg → Prop where
  | done : Readable [] []
  | text (c : CChar) {items args} (h : Readable items args) : Readable (.text c :: items) args
  | string {s items args} (hword : IsWord s) (hnext : ∀ item ∈ items.head?,
      ∃ c, item = .text c ∧ isBlank c = true) (h : Readable items args) :
      Readable (.string :: items) (.string s :: args)
  | int64 (z : Int64) {items args} (hnext : ∀ item ∈ items.head?,
      ∃ c, item = .text c ∧ isBlank c = true) (h : Readable items args) :
      Readable (.int64 :: items) (.int64 z :: args)

/-- Every text that `%s` has read is one word. -/
theorem isWord_of_mem_scan
    {items : List FormatItem} {text s : CString} (h : .string s ∈ scan items text) :
    IsWord s := by
  induction items generalizing text with
  | nil => cases h
  | cons item items ih =>
      cases item with
      | text c =>
          unfold scan at h
          split_ifs at h with hblank
          · exact ih h
          · cases text with
            | nil => cases h
            | cons d rest =>
                dsimp only at h
                split_ifs at h
                · exact ih h
                · cases h
      | string =>
          simp only [scan] at h
          split_ifs at h with hempty
          · cases h
          · rcases List.mem_cons.mp h with hhere | hlater
            · obtain rfl := FormatArg.string.inj hhere
              refine ⟨hempty, fun c hc => ?_⟩
              simpa using List.all_eq_true.mp List.all_takeWhile c hc
            · exact ih hlater
      | int64 =>
          simp only [scan] at h
          cases hnumber : scanInt64 (skipBlanks text) with
          | none =>
              rw [hnumber] at h
              cases h
          | some found =>
              rw [hnumber] at h
              rcases List.mem_cons.mp h with hhere | hlater
              · cases hhere
              · exact ih hlater

/-! ## Numbers are read back -/

theorem digit_spec {d : ℕ} (hd : d < 10) :
    isDigit 10 (digit d) = true ∧ digitValue 10 (digit d) = some d := by
  have hall : ∀ d < 10, isDigit 10 (digit d) = true ∧ digitValue 10 (digit d) = some d := by
    decide
  exact hall d hd

theorem printNat_digits (n : ℕ) : ∀ c ∈ printNat n, isDigit 10 c = true := by
  intro c hc
  unfold printNat at hc
  split_ifs at hc
  · obtain rfl := List.mem_singleton.mp hc
    exact (digit_spec (by omega)).1
  · obtain ⟨d, hd, rfl⟩ := List.mem_map.mp hc
    exact (digit_spec (Nat.digits_lt_base (by omega) (List.mem_reverse.mp hd))).1

theorem printNat_ne_nil (n : ℕ) : printNat n ≠ [] := by
  unfold printNat
  split_ifs with hn
  · simp
  · simpa [Nat.digits_eq_nil_iff_eq_zero] using hn

theorem digitsValue_printNat (n : ℕ) : digitsValue 10 (printNat n) = n := by
  unfold printNat digitsValue
  split_ifs with hn
  · subst hn
    decide
  · have hvalues : ((Nat.digits 10 n).reverse.map digit).filterMap (digitValue 10) =
        (Nat.digits 10 n).reverse := by
      rw [List.filterMap_map]
      have hsome : ∀ d ∈ (Nat.digits 10 n).reverse, (digitValue 10 ∘ digit) d = some d := by
        intro d hd
        exact (digit_spec (Nat.digits_lt_base (by omega) (List.mem_reverse.mp hd))).2
      rw [List.filterMap_congr hsome, List.filterMap_some]
    rw [hvalues, List.reverse_reverse, Nat.ofDigits_digits]

theorem clampInt64_toInt (z : Int64) : clampInt64 z.toInt = z := by
  have hlow := z.le_toInt
  have hhigh := z.toInt_lt
  have hsame : max (-2 ^ 63) (min (2 ^ 63 - 1) z.toInt) = z.toInt := by omega
  unfold clampInt64
  rw [hsame, Int64.ofInt_toInt]

theorem scanInt64_print
    (z : Int64) {rest : CString} (hrest : ∀ c ∈ rest.head?, isDigit 10 c = false) :
    scanInt64 (printInt64 z ++ rest) = some (z, rest) := by
  obtain ⟨htake, hdrop⟩ := span_append (printNat_digits z.toInt.natAbs) hrest
  have hne := printNat_ne_nil z.toInt.natAbs
  have hfirst : ∀ c ∈ (printNat z.toInt.natAbs ++ rest).head?, c.char ≠ '-' ∧ c.char ≠ '+' := by
    intro c hc
    have hplain := plainDigit (head_digits (printNat_digits _) hne c hc)
    exact ⟨hplain.minus, hplain.plus⟩
  have hminus : isNegative [minus] = true := by decide
  unfold printInt64
  split_ifs with hneg
  · have hsign : scanSign ([minus] ++ _) = (isNegative [minus], _) :=
      scanSign_append (Or.inr ⟨minus, rfl, Or.inl (by decide)⟩) hfirst
    rw [List.singleton_append] at hsign
    unfold scanInt64
    rw [List.cons_append, hsign]
    dsimp only
    rw [htake, hdrop, if_neg hne, digitsValue_printNat, hminus]
    have hvalue : applySign true z.toInt.natAbs = z.toInt := by
      unfold applySign
      rw [if_pos rfl]
      omega
    rw [hvalue, clampInt64_toInt]
  · have hsign : scanSign ([] ++ _) = (isNegative [], _) :=
      scanSign_append (Or.inl rfl) hfirst
    rw [List.nil_append] at hsign
    unfold scanInt64
    rw [hsign]
    dsimp only
    rw [htake, hdrop, if_neg hne, digitsValue_printNat]
    have hvalue : applySign (isNegative []) z.toInt.natAbs = z.toInt := by
      unfold applySign
      rw [if_neg (by decide)]
      omega
    rw [hvalue, clampInt64_toInt]

/-! ## The round trip -/

theorem skipBlanks_of_head {s : CString} (h : ∀ c ∈ s.head?, isBlank c = false) :
    skipBlanks s = s := by
  cases s with
  | nil => rfl
  | cons c rest =>
      have hc := h c rfl
      simp [skipBlanks, hc]

theorem skipBlanks_idem (s : CString) : skipBlanks (skipBlanks s) = skipBlanks s := by
  refine skipBlanks_of_head fun c hc => ?_
  have hhead := List.head?_dropWhile_not isBlank s
  rw [show s.dropWhile isBlank = skipBlanks s from rfl] at hhead
  cases hs : skipBlanks s with
  | nil =>
      rw [hs] at hc
      cases hc
  | cons d rest =>
      rw [hs] at hc hhead
      cases hc
      simpa using hhead

theorem head_print_next
    {items : List FormatItem} (hnext : ∀ item ∈ items.head?,
      ∃ c, item = .text c ∧ isBlank c = true) (args : List FormatArg) :
    ∀ c ∈ (print items args).head?, isBlank c = true := by
  intro c hc
  cases items with
  | nil => cases hc
  | cons item items =>
      obtain ⟨d, rfl, hd⟩ := hnext item rfl
      cases hc
      exact hd

theorem head_printInt64 (z : Int64) (rest : CString) :
    ∀ c ∈ (printInt64 z ++ rest).head?, isBlank c = false := by
  intro c hc
  unfold printInt64 at hc
  split_ifs at hc
  · cases hc
    decide
  · exact (plainDigit (head_digits (printNat_digits _) (printNat_ne_nil _) c hc)).blank

theorem blank_not_digit {c : CChar} (h : isBlank c = true) : isDigit 10 c = false := by
  by_contra hdigit
  rw [Bool.not_eq_false] at hdigit
  rw [(plainDigit hdigit).blank] at h
  exact Bool.false_ne_true h

/-- A text is read back, also when blanks at its front are gone. -/
theorem scan_print_both {items : List FormatItem} {args : List FormatArg}
    (h : Readable items args) :
    scan items (print items args) = args ∧
      scan items (skipBlanks (print items args)) = args := by
  induction h with
  | done => exact ⟨rfl, rfl⟩
  | @text c items args h ih =>
      have hprint : print (.text c :: items) args = c :: print items args := rfl
      rw [hprint]
      cases hblank : isBlank c with
      | true =>
          have hskip : skipBlanks (c :: print items args) = skipBlanks (print items args) := by
            simp [skipBlanks, hblank]
          simp only [scan, hblank, if_true, hskip, skipBlanks_idem]
          exact ⟨ih.2, ih.2⟩
      | false =>
          have hskip : skipBlanks (c :: print items args) = c :: print items args :=
            skipBlanks_of_head fun d hd => by
              cases hd
              exact hblank
          rw [hskip]
          simp only [scan, hblank, Bool.false_eq_true, if_false, if_true]
          exact ⟨ih.1, ih.1⟩
  | @string s items args hword hnext h ih =>
      have hprint : print (.string :: items) (.string s :: args) = s ++ print items args := rfl
      obtain ⟨c, more, rfl⟩ := List.exists_cons_of_ne_nil hword.1
      have hskip : skipBlanks ((c :: more) ++ print items args) =
          (c :: more) ++ print items args :=
        skipBlanks_of_head fun d hd => by
          cases hd
          exact hword.2 c List.mem_cons_self
      have hspan := span_append (p := fun c => !isBlank c)
        (fun d (hd : d ∈ c :: more) => by simp [hword.2 d hd])
        (fun d (hd : d ∈ (print items args).head?) => by simp [head_print_next hnext args d hd])
      rw [hprint, hskip]
      simp only [scan, hskip, hspan.1, hspan.2, if_neg hword.1, ih.1, and_self]
  | @int64 z items args hnext h ih =>
      have hprint : print (.int64 :: items) (.int64 z :: args) =
        printInt64 z ++ print items args := rfl
      have hskip := skipBlanks_of_head (head_printInt64 z (print items args))
      have hscan := scanInt64_print z
        fun c hc => blank_not_digit (head_print_next hnext args c hc)
      rw [hprint, hskip]
      simp only [scan, hskip, hscan, ih.1, and_self]

theorem scan_print {items : List FormatItem} {args : List FormatArg} (h : Readable items args) :
    scan items (print items args) = args :=
  (scan_print_both h).1

@[simp]
theorem print_nil (args : List FormatArg) : print [] args = [] := rfl

@[simp]
theorem print_string (items : List FormatItem) (s : CString) (args : List FormatArg) :
    print (.string :: items) (.string s :: args) = s ++ print items args := rfl

@[simp]
theorem print_int64 (items : List FormatItem) (z : Int64) (args : List FormatArg) :
    print (.int64 :: items) (.int64 z :: args) = printInt64 z ++ print items args := rfl

theorem print_texts (text : CString) (items : List FormatItem) (args : List FormatArg) :
    print (text.map .text ++ items) args = text ++ print items args := by
  induction text with
  | nil => rfl
  | cons c text ih => exact congrArg (c :: ·) ih

theorem Readable.texts (text : CString) {items : List FormatItem} {args : List FormatArg}
    (h : Readable items args) : Readable (text.map .text ++ items) args := by
  induction text with
  | nil => exact h
  | cons c text ih => exact .text c ih

end ScanFormat

end Iperf3
