import Iperf3.CString
import Mathlib.Tactic

/-!
# The conversion `%lf` of `sscanf`

Blanks are skipped, and then the longest beginning of a floating-point number
is taken; the conversion fails if that is not yet a number.  A number is read
as the rational that it denotes.
-/

namespace Iperf3

namespace FloatScan

open CChar CString

inductive FloatValue where
  | finite (q : ℚ)
  | infinite (negative : Bool)
  | nan

/-- A space, or a control character from tab to carriage return. -/
def isBlank (c : CChar) : Bool :=
  c.char = ' ' ∨ '\t' ≤ c.char ∧ c.char ≤ '\r'

def digitValue (base : ℕ) (c : CChar) : Option ℕ :=
  let value :=
    if '0' ≤ c.char ∧ c.char ≤ '9' then c.char.toNat - 48
    else if 'a' ≤ c.lower ∧ c.lower ≤ 'z' then c.lower.toNat - 87
    else base
  if value < base then some value else none

def isDigit (base : ℕ) (c : CChar) : Bool :=
  (digitValue base c).isSome

def digitsValue (base : ℕ) (digits : CString) : ℕ :=
  Nat.ofDigits base (digits.filterMap (digitValue base)).reverse

/-- An optional sign; whether it is a minus, and the rest. -/
def scanSign (s : CString) : Bool × CString :=
  match s with
  | [] => (false, [])
  | c :: rest =>
      if c.char = '-' then (true, rest)
      else if c.char = '+' then (false, rest)
      else (false, s)

def applySign (negative : Bool) (n : ℕ) : ℤ :=
  if negative then -n else n

/-- An exponent after its mark, or zero; a mark without digits fails. -/
def scanExponent (mark : Char) (s : CString) : Option (ℤ × CString) :=
  match s with
  | [] => some (0, [])
  | c :: rest =>
      if c.lower = mark then
        let (negative, rest) := scanSign rest
        let digits := rest.takeWhile (isDigit 10)
        if digits = [] then none
        else some (applySign negative (digitsValue 10 digits), rest.dropWhile (isDigit 10))
      else some (0, s)

/-- The digits after a point, if there is one. -/
def scanFraction (base : ℕ) (s : CString) : CString × CString :=
  match s with
  | [] => ([], [])
  | c :: rest =>
      if c.char = '.' then (rest.takeWhile (isDigit base), rest.dropWhile (isDigit base))
      else ([], s)

def scanUnsigned (base : ℕ) (mark : Char) (power : ℚ) (s : CString) : Option (ℚ × CString) :=
  let digits := s.takeWhile (isDigit base)
  let (fraction, rest) := scanFraction base (s.dropWhile (isDigit base))
  if digits ++ fraction = [] then none
  else (scanExponent mark rest).map fun (exponent, rest) =>
    ((digitsValue base (digits ++ fraction) : ℚ) / (base : ℚ) ^ fraction.length *
      power ^ exponent, rest)

/-- How many letters of the word are there, and what is behind them. -/
def scanWord : List Char → CString → ℕ × CString
  | [], s => (0, s)
  | _ :: _, [] => (0, [])
  | d :: word, c :: rest =>
      if c.lower = d then
        let (n, rest) := scanWord word rest
        (n + 1, rest)
      else (0, c :: rest)

def scanInfinity (s : CString) : Option CString :=
  let (n, rest) := scanWord "infinity".toList s
  if n = 3 ∨ n = 8 then some rest else none

def isWordCharacter (c : CChar) : Bool :=
  c.char.isAlphanum ∨ c.char = '_'

/-- `nan`, or `nan` with a word in parentheses. -/
def scanNan (s : CString) : Option CString :=
  let (n, rest) := scanWord "nan".toList s
  if n = 3 then
    match rest with
    | [] => some []
    | c :: more =>
        if c.char = '(' then
          match more.dropWhile isWordCharacter with
          | [] => none
          | d :: behind => if d.char = ')' then some behind else none
        else some rest
  else none

inductive Kind where
  | decimal
  | hexadecimal
  | infinity
  | nan
  deriving DecidableEq, Repr

def kindOf (s : CString) : Kind :=
  match s with
  | [] => .decimal
  | c :: rest =>
      if c.char = '0' ∧ rest.head?.map lower = some 'x' then .hexadecimal
      else if c.lower = 'i' then .infinity
      else if c.lower = 'n' then .nan
      else .decimal

def signed (negative : Bool) (q : ℚ) : ℚ :=
  if negative then -q else q

/-- The number at the beginning of the string, and the rest.  The forms are those
of the C standard; some libraries also take an exponent mark that has no digits
behind it. -/
def scanDouble (s : CString) : Option (FloatValue × CString) :=
  let (negative, s) := scanSign (s.dropWhile isBlank)
  match kindOf s with
  | .decimal => (scanUnsigned 10 'e' 10 s).map fun (q, rest) => (.finite (signed negative q), rest)
  | .hexadecimal =>
      (scanUnsigned 16 'p' 2 (s.drop 2)).map fun (q, rest) => (.finite (signed negative q), rest)
  | .infinity => (scanInfinity s).map fun rest => (.infinite negative, rest)
  | .nan => (scanNan s).map fun rest => (.nan, rest)

end FloatScan

end Iperf3
