import Iperf3.CString
import Mathlib.Tactic

/-!
# The `getopt_long` of the Windows build

Between the calls the parser keeps `optind` and a pointer into the cluster of
short options that it has begun.  The words of `argv` may be missing, and the
flag variables of long options are a memory that is written.
-/

namespace Iperf3

namespace Getopt

open CChar CString

inductive HasArg where
  | noArgument
  | requiredArgument
  | optionalArgument
  deriving DecidableEq, Repr

structure LongOption (ι : Type*) where
  name : CString
  hasArg : HasArg
  flag : Option ι
  val : ℤ

/-- The variables of the parser and of its caller. -/
structure State (ι : Type*) where
  optarg : Option CString
  optind : ℕ
  optopt : ℤ
  nextShort : Option CString
  flags : ι → ℤ

/-- A call returns a value and may write the index of a long option. -/
structure Outcome (ι : Type*) where
  value : ℤ
  longindex : Option ℕ
  state : State ι

def dash : CChar := ofChar '-' (by decide)

def colon : CChar := ofChar ':' (by decide)

theorem equals_ne_nul : UInt8.ofNat '='.toNat ≠ 0 := by
  decide

def equalsSign : CChar := ofChar '=' equals_ne_nul

def questionMark : CChar := ofChar '?' (by decide)

/-- An entry of `argv`; one at `argc` or behind it is never used. -/
def word (argv : List (Option CString)) (i : ℕ) : Option CString :=
  argv[i]?.join

/-- Whether the option takes an argument, and whether it may go without. -/
def optRequiresArg (optstring : CString) (opt : CChar) : Bool × Bool :=
  match strchr optstring opt with
  | none => (false, false)
  | some p =>
      if p[1]? = some colon then (true, p[2]? = some colon) else (false, false)

section Calls

variable {ι : Type*} [DecidableEq ι]

/-- The flag variables after a long option has been returned. -/
def LongOption.store (option : LongOption ι) (flags : ι → ℤ) : ι → ℤ :=
  match option.flag with
  | none => flags
  | some flag => Function.update flags flag option.val

def storeFlag (option : LongOption ι) (s : State ι) : State ι :=
  { s with flags := option.store s.flags }

def returnedValue (option : LongOption ι) : ℤ :=
  if option.flag.isSome then 0 else option.val

def longNameLength (name : CString) : ℕ :=
  match strchr name equalsSign with
  | some value => name.length - value.length
  | none => name.length

def matchesName (name : CString) (option : LongOption ι) : Bool :=
  option.name.length = longNameLength name ∧
    option.name.take (longNameLength name) = name.take (longNameLength name)

/-- The first long option of this name, with its index. -/
def findLong (name : CString) (longopts : List (LongOption ι)) : Option (LongOption ι × ℕ) :=
  longopts.zipIdx.find? fun (option, _) => matchesName name option

def handleLong
    (argv : List (Option CString)) (arg : CString) (longopts : List (LongOption ι))
    (s : State ι) : Outcome ι :=
  let name := arg.drop 2
  let value := strchr name equalsSign
  match findLong name longopts with
  | none => ⟨questionMark.code, none, { s with optind := s.optind + 1 }⟩
  | some (option, i) =>
      match option.hasArg, value with
      | .requiredArgument, none =>
          if s.optind + 1 < argv.length then
            ⟨returnedValue option, some i, storeFlag option
              { s with optarg := word argv (s.optind + 1), optind := s.optind + 2 }⟩
          else ⟨questionMark.code, some i, { s with optopt := option.val }⟩
      | .requiredArgument, some value | .optionalArgument, some value =>
          ⟨returnedValue option, some i, storeFlag option
            { s with optarg := some (value.drop 1), optind := s.optind + 1 }⟩
      | .optionalArgument, none | .noArgument, _ =>
          ⟨returnedValue option, some i, storeFlag option
            { s with optarg := none, optind := s.optind + 1 }⟩

/-- The next character of a cluster. -/
def shortOption
    (argv : List (Option CString)) (optstring : CString) (opt : CChar) (rest : CString)
    (s : State ι) : Outcome ι :=
  let s := { s with nextShort := some rest }
  let (needsArg, optionalArg) := optRequiresArg optstring opt
  if strchr optstring opt = none then
    ⟨questionMark.code, none,
      { s with
        optopt := opt.code
        optind := if rest = [] then s.optind + 1 else s.optind }⟩
  else if needsArg then
    if rest ≠ [] then
      ⟨opt.code, none,
        { s with optarg := some rest, optind := s.optind + 1, nextShort := none }⟩
    else if ¬ optionalArg ∧ s.optind + 1 < argv.length then
      ⟨opt.code, none,
        { s with
          optarg := word argv (s.optind + 1)
          optind := s.optind + 2
          nextShort := none }⟩
    else if ¬ optionalArg then
      ⟨questionMark.code, none,
        { s with optopt := opt.code, optind := s.optind + 1, nextShort := none }⟩
    else
      ⟨opt.code, none, { s with optarg := none, optind := s.optind + 1, nextShort := none }⟩
  else if rest = [] then
    ⟨opt.code, none, { s with optind := s.optind + 1, nextShort := none }⟩
  else ⟨opt.code, none, s⟩

/-- An `optind` of zero starts the scan anew. -/
def rewind (s : State ι) : State ι :=
  if s.optind = 0 then { s with optind := 1, nextShort := none } else s

/-- A call at the beginning of a word. -/
def nextWord
    (argv : List (Option CString)) (optstring : CString) (longopts : List (LongOption ι))
    (s : State ι) : Outcome ι :=
  match word argv s.optind with
  | some (c :: d :: rest) =>
      if c ≠ dash then ⟨-1, none, s⟩
      else if d = dash ∧ rest = [] then ⟨-1, none, { s with optind := s.optind + 1 }⟩
      else if d = dash then handleLong argv (c :: d :: rest) longopts s
      else shortOption argv optstring d rest s
  | _ => ⟨-1, none, s⟩

def getoptLong
    (argv : List (Option CString)) (optstring : CString) (longopts : List (LongOption ι))
    (s : State ι) : Outcome ι :=
  let s := rewind { s with optarg := none }
  match s.nextShort with
  | some (opt :: rest) => shortOption argv optstring opt rest s
  | _ => nextWord argv optstring longopts s

/-- No cluster has been begun. -/
def Boundary (s : State ι) : Prop :=
  s.nextShort = none ∨ s.nextShort = some []

/-- The characters of a cluster that are still to be read. -/
def Ahead (argv : List (Option CString)) (s : State ι) (letters : CString) : Prop :=
  s.nextShort = some letters ∨ Boundary s ∧ word argv s.optind = some (dash :: letters)

section OneCall

variable {argv : List (Option CString)} {optstring : CString} {longopts : List (LongOption ι)}
  {s : State ι}

theorem getoptLong_of_boundary (hboundary : Boundary s) (hpos : s.optind ≠ 0) :
    getoptLong argv optstring longopts s =
      nextWord argv optstring longopts { s with optarg := none } := by
  have hentered : rewind { s with optarg := none } = { s with optarg := none } := if_neg hpos
  obtain ⟨optarg, optind, optopt, nextShort, flags⟩ := s
  unfold getoptLong
  rw [hentered]
  rcases hboundary with rfl | rfl <;> rfl

theorem getoptLong_of_short {opt : CChar} {rest : CString}
    (hnext : s.nextShort = some (opt :: rest)) (hpos : s.optind ≠ 0) :
    getoptLong argv optstring longopts s =
      shortOption argv optstring opt rest { s with optarg := none } := by
  have hentered : rewind { s with optarg := none } = { s with optarg := none } := if_neg hpos
  obtain ⟨optarg, optind, optopt, nextShort, flags⟩ := s
  unfold getoptLong
  rw [hentered]
  cases hnext
  rfl

theorem getoptLong_of_ahead {opt : CChar} {rest : CString}
    (hahead : Ahead argv s (opt :: rest)) (hopt : opt ≠ dash) (hpos : s.optind ≠ 0) :
    getoptLong argv optstring longopts s =
      shortOption argv optstring opt rest { s with optarg := none } := by
  rcases hahead with hnext | ⟨hboundary, hword⟩
  · exact getoptLong_of_short hnext hpos
  · rw [getoptLong_of_boundary hboundary hpos]
    unfold nextWord
    simp [hword, hopt]

end OneCall

/-- The state before the call with this number, and what it returns, when the
calls are repeated whatever they return. -/
def stateAt
    (argv : List (Option CString)) (optstring : CString) (longopts : List (LongOption ι))
    (start : State ι) : ℕ → State ι
  | 0 => start
  | n + 1 => (getoptLong argv optstring longopts (stateAt argv optstring longopts start n)).state

def outcomeAt
    (argv : List (Option CString)) (optstring : CString) (longopts : List (LongOption ι))
    (start : State ι) (n : ℕ) : Outcome ι :=
  getoptLong argv optstring longopts (stateAt argv optstring longopts start n)

section Shift

variable {argv : List (Option CString)} {optstring : CString} {longopts : List (LongOption ι)}
  {start : State ι}

theorem stateAt_shift (n : ℕ) :
    stateAt argv optstring longopts start (n + 1) =
      stateAt argv optstring longopts (getoptLong argv optstring longopts start).state n := by
  induction n with
  | zero => rfl
  | succ n ih =>
      change (getoptLong argv optstring longopts
        (stateAt argv optstring longopts start (n + 1))).state = _
      rw [ih]
      rfl

theorem outcomeAt_shift (n : ℕ) :
    outcomeAt argv optstring longopts start (n + 1) =
      outcomeAt argv optstring longopts (getoptLong argv optstring longopts start).state n := by
  unfold outcomeAt
  rw [stateAt_shift]

end Shift

end Calls

end Getopt

end Iperf3
