import Iperf3.Getopt
import Mathlib.Tactic

/-!
# Calls of `getopt_long` advance

A call takes at least one character of `argv`: it goes on in its cluster or
passes the word.  The exception is a last word that names a long option with
a required argument, which is reported and left where it is.
-/

namespace Iperf3

namespace Getopt

open CChar CString

variable {ι : Type*} {argv : List (Option CString)} {s : State ι}

/-! ## Positions -/

/-- The pointer into a cluster is behind the dash of the word at `optind`. -/
def Scanning (argv : List (Option CString)) (s : State ι) : Prop :=
  s.optind ≠ 0 → ∀ opt rest, s.nextShort = some (opt :: rest) →
    ∃ front, front ≠ [] ∧ word argv s.optind = some (front ++ opt :: rest)

def Start (s : State ι) : Prop :=
  s.optind = 0 ∨ s.optind = 1 ∧ Boundary s

def offset (argv : List (Option CString)) (s : State ι) : ℕ :=
  match s.nextShort with
  | some (_ :: rest) => ((word argv s.optind).getD []).length - (rest.length + 1)
  | _ => 0

def position (argv : List (Option CString)) (s : State ι) : ℕ ×ₗ ℕ :=
  toLex (s.optind, offset argv s)

/-- The characters of the words from this index on. -/
def charactersFrom (argv : List (Option CString)) (i : ℕ) : ℕ :=
  ((argv.drop i).map fun w => (w.getD []).length).sum

def characters (argv : List (Option CString)) : ℕ :=
  charactersFrom argv 0

/-- The characters that have not been taken. -/
def remaining (argv : List (Option CString)) (s : State ι) : ℕ :=
  match s.nextShort with
  | some (_ :: rest) => rest.length + 1 + charactersFrom argv (s.optind + 1)
  | _ => charactersFrom argv s.optind

theorem Boundary.offset_eq (h : Boundary s) : offset argv s = 0 := by
  unfold offset
  rcases h with h | h <;> rw [h]

theorem Boundary.remaining_eq (h : Boundary s) :
    remaining argv s = charactersFrom argv s.optind := by
  unfold remaining
  rcases h with h | h <;> rw [h]

theorem word_eq_some {i : ℕ} {w : CString} (h : word argv i = some w) :
    i < argv.length ∧ argv.drop i = some w :: argv.drop (i + 1) := by
  unfold word at h
  rw [Option.join_eq_some_iff] at h
  obtain ⟨hlt, hget⟩ := List.getElem?_eq_some_iff.mp h
  exact ⟨hlt, by rw [List.drop_eq_getElem_cons hlt, hget]⟩

theorem charactersFrom_word {i : ℕ} {w : CString} (h : word argv i = some w) :
    charactersFrom argv i = w.length + charactersFrom argv (i + 1) := by
  unfold charactersFrom
  rw [(word_eq_some h).2]
  simp

theorem charactersFrom_antitone {i j : ℕ} (h : i ≤ j) :
    charactersFrom argv j ≤ charactersFrom argv i := by
  obtain ⟨k, rfl⟩ := Nat.exists_eq_add_of_le h
  unfold charactersFrom
  rw [← List.drop_drop]
  exact ((List.drop_sublist k (argv.drop i)).map _).sum_le_sum (fun _ _ => Nat.zero_le _)

/-! ## What a call does -/

variable [DecidableEq ι] {optstring : CString} {longopts : List (LongOption ι)}

/-- The word at `optind` is the last one and names a long option that requires
an argument. -/
def MissingArgument (argv : List (Option CString)) (longopts : List (LongOption ι))
    (s : State ι) : Prop :=
  s.optind ≠ 0 ∧ Boundary s ∧ argv.length ≤ s.optind + 1 ∧
    ∃ name, word argv s.optind = some (dash :: dash :: name) ∧ name ≠ [] ∧
      equalsSign ∉ name ∧
      ∃ option i, findLong name longopts = some (option, i) ∧ option.hasArg = .requiredArgument

omit [DecidableEq ι] in
theorem missingArgument_congr {s s' : State ι} (hoptind : s'.optind = s.optind)
    (hnext : s'.nextShort = s.nextShort) :
    MissingArgument argv longopts s' ↔ MissingArgument argv longopts s := by
  unfold MissingArgument Boundary
  rw [hoptind, hnext]

/-- What a call can do with the position. -/
inductive Move (argv : List (Option CString)) (longopts : List (LongOption ι)) (s : State ι) :
    Outcome ι → Prop where
  | ends (o : Outcome ι) (hboundary : Boundary s) (hvalue : o.value = -1)
      (hnext : o.state.nextShort = s.nextShort)
      (hoptind : o.state.optind = s.optind ∨
        o.state.optind = s.optind + 1 ∧ s.optind < argv.length) : Move argv longopts s o
  | within (o : Outcome ι) (opt : CChar) (rest : CString) (hahead : Ahead argv s (opt :: rest))
      (hrest : rest ≠ []) (hnext : o.state.nextShort = some rest)
      (hoptind : o.state.optind = s.optind) : Move argv longopts s o
  | past (o : Outcome ι) (w : CString) (hword : word argv s.optind = some w)
      (hlength : 2 ≤ w.length) (hboundary : Boundary o.state)
      (hlt : s.optind < o.state.optind) (hle : o.state.optind ≤ argv.length) :
      Move argv longopts s o
  | stays (o : Outcome ι) (hmissing : MissingArgument argv longopts s) (hvalue : o.value ≠ -1)
      (hnext : o.state.nextShort = s.nextShort) (hoptind : o.state.optind = s.optind) :
      Move argv longopts s o

omit [DecidableEq ι] in
theorem Ahead.word_eq {opt : CChar} {rest : CString} (h : Ahead argv s (opt :: rest))
    (hscan : Scanning argv s) (hpos : s.optind ≠ 0) :
    ∃ front, front ≠ [] ∧ word argv s.optind = some (front ++ opt :: rest) := by
  rcases h with hnext | ⟨-, hword⟩
  · exact hscan hpos opt rest hnext
  · exact ⟨[dash], List.cons_ne_nil _ _, hword⟩

omit [DecidableEq ι] in
theorem shortOption_move {opt : CChar} {rest : CString} (hahead : Ahead argv s (opt :: rest))
    (hscan : Scanning argv s) (hpos : s.optind ≠ 0) :
    Move argv longopts s (shortOption argv optstring opt rest s) := by
  obtain ⟨front, hfront, hword⟩ := hahead.word_eq hscan hpos
  have hlt := (word_eq_some hword).1
  have hlength : 2 ≤ (front ++ opt :: rest).length := by
    have hpos := List.length_pos_of_ne_nil hfront
    simp only [List.length_append, List.length_cons]
    omega
  unfold shortOption
  dsimp only
  split_ifs with hunknown hlast hneeds hattached hseparate hmandatory hlast
  · exact Move.past _ _ hword hlength (Or.inr (by simp [hlast])) (by simp) (by simp; omega)
  · exact Move.within _ opt rest hahead hlast rfl rfl
  · exact Move.past _ _ hword hlength (Or.inl rfl) (by simp) (by simp; omega)
  · exact Move.past _ _ hword hlength (Or.inl rfl) (by simp) (by simp; omega)
  · exact Move.past _ _ hword hlength (Or.inl rfl) (by simp) (by simp; omega)
  · exact Move.past _ _ hword hlength (Or.inl rfl) (by simp) (by simp; omega)
  · exact Move.past _ _ hword hlength (Or.inl rfl) (by simp) (by simp; omega)
  · exact Move.within _ opt rest hahead hlast rfl rfl

theorem handleLong_move {name : CString} (hname : name ≠ []) (hboundary : Boundary s)
    (hword : word argv s.optind = some (dash :: dash :: name)) (hpos : s.optind ≠ 0) :
    Move argv longopts s (handleLong argv (dash :: dash :: name) longopts s) := by
  have hlt := (word_eq_some hword).1
  have hlength : 2 ≤ (dash :: dash :: name).length := by simp
  have hpast : ∀ (value : ℤ) (i : ℕ) (option : LongOption ι) (optarg : Option CString) (k : ℕ),
      0 < k → s.optind + k ≤ argv.length →
        Move argv longopts s
          ⟨value, some i,
            storeFlag option { s with optarg := optarg, optind := s.optind + k }⟩ := by
    intro value i option optarg k hk hle
    refine Move.past _ _ hword hlength ?_ ?_ ?_
    · exact hboundary
    · exact Nat.lt_add_of_pos_right hk
    · exact hle
  unfold handleLong
  simp only [List.drop_succ_cons, List.drop_zero]
  cases hfind : findLong name longopts with
  | none => exact Move.past _ _ hword hlength hboundary (by simp) (by simp; omega)
  | some found =>
      obtain ⟨option, i⟩ := found
      dsimp only
      cases hkind : option.hasArg with
      | noArgument => exact hpast _ _ _ _ 1 Nat.one_pos hlt
      | optionalArgument =>
          cases strchr name equalsSign with
          | none => exact hpast _ _ _ _ 1 Nat.one_pos hlt
          | some value => exact hpast _ _ _ _ 1 Nat.one_pos hlt
      | requiredArgument =>
          cases hvalue : strchr name equalsSign with
          | some value => exact hpast _ _ _ _ 1 Nat.one_pos hlt
          | none =>
              simp only
              split_ifs with hseparate
              · exact hpast _ _ _ _ 2 Nat.two_pos hseparate
              · refine Move.stays _ ?_ (by simp) rfl rfl
                exact ⟨hpos, hboundary, by omega, name, hword, hname,
                  strchr_eq_none_iff.mp hvalue, option, i, hfind, hkind⟩

theorem nextWord_move (hboundary : Boundary s) (hpos : s.optind ≠ 0) :
    Move argv longopts s (nextWord argv optstring longopts s) := by
  unfold nextWord
  split
  · rename_i c d rest hword
    split_ifs with hdash hend hlong
    · exact Move.ends _ hboundary rfl rfl (Or.inl rfl)
    · exact Move.ends _ hboundary rfl rfl (Or.inr ⟨rfl, (word_eq_some hword).1⟩)
    · rw [ne_eq, not_not] at hdash
      subst hdash hlong
      exact handleLong_move (fun hnil => hend ⟨rfl, hnil⟩) hboundary hword hpos
    · rw [ne_eq, not_not] at hdash
      subst hdash
      apply shortOption_move (Or.inr ⟨hboundary, hword⟩) _ hpos
      intro _ opt rest' hnext
      rcases hboundary with h | h <;> rw [h] at hnext <;> cases hnext
  · exact Move.ends _ hboundary rfl rfl (Or.inl rfl)

/-- The state that a call works on. -/
def entered (s : State ι) : State ι :=
  rewind { s with optarg := none }

omit [DecidableEq ι] in
theorem entered_optind_ne_zero (s : State ι) : (entered s).optind ≠ 0 := by
  unfold entered rewind
  split_ifs with h
  · exact Nat.one_ne_zero
  · exact h

omit [DecidableEq ι] in
theorem entered_of_ne_zero (h : s.optind ≠ 0) :
    (entered s).optind = s.optind ∧ (entered s).nextShort = s.nextShort := by
  unfold entered rewind
  rw [if_neg h]
  exact ⟨rfl, rfl⟩

omit [DecidableEq ι] in
theorem entered_of_zero (h : s.optind = 0) :
    (entered s).optind = 1 ∧ (entered s).nextShort = none := by
  unfold entered rewind
  rw [if_pos h]
  exact ⟨rfl, rfl⟩

omit [DecidableEq ι] in
theorem Scanning.entered (h : Scanning argv s) : Scanning argv (entered s) := by
  intro _ opt rest hnext
  by_cases hzero : s.optind = 0
  · rw [(entered_of_zero hzero).2] at hnext
    cases hnext
  · obtain ⟨hoptind, hshort⟩ := entered_of_ne_zero hzero
    rw [hoptind]
    exact h hzero opt rest (hshort ▸ hnext)

theorem getoptLong_move (hscan : Scanning argv s) :
    Move argv longopts (entered s) (getoptLong argv optstring longopts s) := by
  have hpos := entered_optind_ne_zero s
  change Move argv longopts (entered s)
    (match (entered s).nextShort with
      | some (opt :: rest) => shortOption argv optstring opt rest (entered s)
      | _ => nextWord argv optstring longopts (entered s))
  split
  · rename_i opt rest hnext
    exact shortOption_move (Or.inl hnext) hscan.entered hpos
  · rename_i hnone
    apply nextWord_move _ hpos
    unfold Boundary
    rcases hnext : (entered s).nextShort with _ | _ | ⟨opt, rest⟩
    · exact Or.inl rfl
    · exact Or.inr rfl
    · exact absurd hnext (hnone opt rest)

/-! ## One call -/

section Move

variable {o : Outcome ι}

omit [DecidableEq ι] in
theorem Move.scanning (h : Move argv longopts s o) (hscan : Scanning argv s)
    (hpos : s.optind ≠ 0) : Scanning argv o.state := by
  intro _ opt rest hnext
  cases h with
  | ends hboundary hvalue hsame hoptind =>
      rw [hsame] at hnext
      rcases hboundary with h | h <;> rw [h] at hnext <;> cases hnext
  | within opt' rest' hahead hrest hsame hoptind =>
      rw [hsame] at hnext
      cases hnext
      obtain ⟨front, hfront, hword⟩ := hahead.word_eq hscan hpos
      rw [hoptind, hword]
      exact ⟨front ++ [opt'], by simp, by simp⟩
  | past w hword hlength hboundary hlt hle =>
      rcases hboundary with h | h <;> rw [h] at hnext <;> cases hnext
  | stays hmissing hvalue hsame hoptind =>
      rw [hsame] at hnext
      rcases hmissing.2.1 with h | h <;> rw [h] at hnext <;> cases hnext

omit [DecidableEq ι] in
theorem Move.remaining_lt
    (h : Move argv longopts s o) (hvalue : o.value ≠ -1)
    (hmissing : ¬ MissingArgument argv longopts s) :
    remaining argv o.state < remaining argv s ∧
      (Boundary s → remaining argv o.state + 2 ≤ remaining argv s) := by
  cases h with
  | ends hboundary hend hsame hoptind => exact absurd hend hvalue
  | within opt rest hahead hrest hsame hoptind =>
      obtain ⟨c, rest', rfl⟩ := List.exists_cons_of_ne_nil hrest
      have hafter : remaining argv o.state =
          rest'.length + 1 + charactersFrom argv (s.optind + 1) := by
        unfold remaining
        rw [hsame, hoptind]
      rcases hahead with hnext | ⟨hboundary, hword⟩
      · have hbefore : remaining argv s =
            (c :: rest').length + 1 + charactersFrom argv (s.optind + 1) := by
          unfold remaining
          rw [hnext]
        rw [hafter, hbefore, List.length_cons]
        refine ⟨by omega, fun hboundary => ?_⟩
        rcases hboundary with h | h <;> rw [h] at hnext <;> cases hnext
      · rw [hafter, hboundary.remaining_eq, charactersFrom_word hword]
        simp only [List.length_cons]
        omega
  | past w hword hlength hboundary hlt hle =>
      have hlater : charactersFrom argv o.state.optind ≤ charactersFrom argv (s.optind + 1) :=
        charactersFrom_antitone hlt
      rw [hboundary.remaining_eq]
      have hstart : ∀ hs : Boundary s, remaining argv s =
          w.length + charactersFrom argv (s.optind + 1) := by
        intro hs
        rw [hs.remaining_eq, charactersFrom_word hword]
      constructor
      · rcases hnext : s.nextShort with _ | _ | ⟨opt, rest⟩
        · rw [hstart (Or.inl hnext)]
          omega
        · rw [hstart (Or.inr hnext)]
          omega
        · unfold remaining
          rw [hnext]
          dsimp only
          omega
      · intro hs
        rw [hstart hs]
        omega
  | stays hstuck hstay hsame hoptind => exact absurd hstuck hmissing

/-- The call takes the position forward, and not behind the end. -/
structure Advances (argv : List (Option CString)) (s : State ι) (o : Outcome ι) : Prop where
  position : position argv s < position argv o.state
  optind : o.state.optind ≤ argv.length

omit [DecidableEq ι] in
theorem position_lt_of_optind {s' : State ι} (h : s.optind < s'.optind) :
    position argv s < position argv s' :=
  Prod.Lex.toLex_lt_toLex.mpr (Or.inl h)

omit [DecidableEq ι] in
theorem Move.advances (h : Move argv longopts s o) (hscan : Scanning argv s)
    (hpos : s.optind ≠ 0) (hvalue : o.value ≠ -1) (hmissing : ¬ MissingArgument argv longopts s) :
    Advances argv s o := by
  cases h with
  | ends hboundary hend hsame hoptind => exact absurd hend hvalue
  | within opt rest hahead hrest hsame hoptind =>
      obtain ⟨front, hfront, hword⟩ := hahead.word_eq hscan hpos
      obtain ⟨c, rest', rfl⟩ := List.exists_cons_of_ne_nil hrest
      have hfrontPos := List.length_pos_of_ne_nil hfront
      have hafter : offset argv o.state = front.length + 1 := by
        unfold offset
        rw [hsame, hoptind, hword]
        simp only [Option.getD_some, List.length_append, List.length_cons]
        omega
      have hbefore : offset argv s ≤ front.length := by
        rcases hahead with hnext | ⟨hboundary, -⟩
        · unfold offset
          rw [hnext, hword]
          simp
        · rw [hboundary.offset_eq]
          exact Nat.zero_le _
      refine ⟨Prod.Lex.toLex_lt_toLex.mpr (Or.inr ⟨hoptind.symm, ?_⟩), ?_⟩
      · simp only
        omega
      · rw [hoptind]
        exact (word_eq_some hword).1.le
  | past w hword hlength hboundary hlt hle => exact ⟨position_lt_of_optind hlt, hle⟩
  | stays hstuck hstay hsame hoptind => exact absurd hstuck hmissing

end Move

theorem getoptLong_of_missing (optstring : CString) (h : MissingArgument argv longopts s) :
    (getoptLong argv optstring longopts s).value = questionMark.code ∧
      (getoptLong argv optstring longopts s).state.optind = s.optind ∧
      (getoptLong argv optstring longopts s).state.nextShort = s.nextShort := by
  obtain ⟨hpos, hboundary, hlast, name, hword, hname, hequals, option, i, hfind, hkind⟩ := h
  have hvalue : strchr name equalsSign = none := strchr_eq_none_iff.mpr hequals
  have hcall : getoptLong argv optstring longopts s =
      ⟨questionMark.code, some i, { s with optarg := none, optopt := option.val }⟩ := by
    rw [getoptLong_of_boundary hboundary hpos]
    unfold nextWord handleLong
    simp [hword, hname, hfind, hkind, hvalue, Nat.not_lt.mpr hlast]
  rw [hcall]
  exact ⟨rfl, rfl, rfl⟩

theorem advances_iff (hscan : Scanning argv s)
    (hvalue : (getoptLong argv optstring longopts s).value ≠ -1) :
    Advances argv s (getoptLong argv optstring longopts s) ↔ ¬ MissingArgument argv longopts s := by
  constructor
  · intro hadvances hmissing
    obtain ⟨-, hoptind, hnext⟩ := getoptLong_of_missing optstring hmissing
    have hlt := hadvances.position
    unfold position offset at hlt
    rw [hoptind, hnext] at hlt
    exact lt_irrefl _ hlt
  · intro hmissing
    have hmove : Move argv longopts (entered s) (getoptLong argv optstring longopts s) :=
      getoptLong_move hscan
    have hpos := entered_optind_ne_zero s
    by_cases hzero : s.optind = 0
    · -- the scan begins: any call takes `optind` forward from zero
      obtain ⟨hone, hnone⟩ := entered_of_zero hzero
      cases hmove with
      | ends hboundary hend hsame hoptind => exact absurd hend hvalue
      | within opt rest hahead hrest hsame hoptind =>
          obtain ⟨front, -, hword⟩ := hahead.word_eq hscan.entered hpos
          exact ⟨position_lt_of_optind (by omega), hoptind ▸ (word_eq_some hword).1.le⟩
      | past w hword hlength hboundary hlt hle =>
          exact ⟨position_lt_of_optind (by omega), hle⟩
      | stays hstuck hstay hsame hoptind =>
          obtain ⟨name, hword, -⟩ := hstuck.2.2.2
          exact ⟨position_lt_of_optind (by omega), hoptind ▸ (word_eq_some hword).1.le⟩
    · obtain ⟨hoptind, hnext⟩ := entered_of_ne_zero hzero
      have hsame : position argv (entered s) = position argv s := by
        unfold position offset
        rw [hoptind, hnext]
      have hstill : ¬ MissingArgument argv longopts (entered s) :=
        (not_congr (missingArgument_congr hoptind hnext)).mpr hmissing
      have hadvances := hmove.advances hscan.entered hpos hvalue hstill
      exact ⟨hsame ▸ hadvances.position, hadvances.optind⟩

/-! ## Repeated calls -/

section Runs

variable (argv optstring longopts) (start : State ι)

/-- No call before this one has returned `-1`. -/
def Running (n : ℕ) : Prop :=
  ∀ k < n, (outcomeAt argv optstring longopts start k).value ≠ -1

/-- Every call up to the first `-1` advances, and that one is reached with no
more calls than `argv` has characters. -/
structure Progresses : Prop where
  advances : ∀ n, Running argv optstring longopts start n →
    (outcomeAt argv optstring longopts start n).value ≠ -1 →
      Advances argv (stateAt argv optstring longopts start n)
        (outcomeAt argv optstring longopts start n)
  ends : ∃ n, n + 1 ≤ max 1 (characters argv) ∧ Running argv optstring longopts start n ∧
    (outcomeAt argv optstring longopts start n).value = -1

variable {argv optstring longopts} {start}

theorem running_shift (hfirst : (getoptLong argv optstring longopts start).value ≠ -1) {n : ℕ}
    (h : Running argv optstring longopts (getoptLong argv optstring longopts start).state n) :
    Running argv optstring longopts start (n + 1) := by
  intro k hk
  cases k with
  | zero => exact hfirst
  | succ k =>
      rw [outcomeAt_shift]
      exact h k (Nat.lt_of_succ_lt_succ hk)

/-- From a state in which a word or a cluster has been begun. -/
theorem ends_within (hscan : Scanning argv s) (hpos : s.optind ≠ 0)
    (hmissing : ∀ n, Running argv optstring longopts s n →
      ¬ MissingArgument argv longopts (stateAt argv optstring longopts s n)) :
    ∃ n, n ≤ remaining argv s ∧ (Boundary s → n + 1 ≤ max 1 (remaining argv s)) ∧
      Running argv optstring longopts s n ∧
      (outcomeAt argv optstring longopts s n).value = -1 := by
  induction hbound : remaining argv s using Nat.strong_induction_on generalizing s with
  | _ bound ih =>
  subst hbound
  obtain ⟨hoptind, hnext⟩ := entered_of_ne_zero hpos
  by_cases hfirst : (getoptLong argv optstring longopts s).value = -1
  · exact ⟨0, Nat.zero_le _, fun _ => le_max_left _ _, fun k hk => absurd hk (Nat.not_lt_zero k),
      hfirst⟩
  · have hmove : Move argv longopts (entered s) (getoptLong argv optstring longopts s) :=
      getoptLong_move hscan
    have hnow := hmissing 0 (fun k hk => absurd hk (Nat.not_lt_zero k))
    have hstill : ¬ MissingArgument argv longopts (entered s) :=
      (not_congr (missingArgument_congr hoptind hnext)).mpr hnow
    obtain ⟨hless, hword⟩ := hmove.remaining_lt hfirst hstill
    have hsame : remaining argv (entered s) = remaining argv s := by
      unfold remaining
      rw [hoptind, hnext]
    have hboundary : Boundary (entered s) ↔ Boundary s := by
      unfold Boundary
      rw [hnext]
    rw [hsame] at hless hword
    rw [hboundary] at hword
    have hpos' : (getoptLong argv optstring longopts s).state.optind ≠ 0 := by
      have hadvances := (advances_iff hscan hfirst).mpr hnow
      have hlt := Prod.Lex.toLex_lt_toLex.mp hadvances.position
      simp only at hlt
      omega
    have hscan' := hmove.scanning hscan.entered (entered_optind_ne_zero s)
    obtain ⟨n, hn, -, hrunning, hend⟩ := ih _ hless hscan' hpos'
      (fun n hrunning => by
        rw [← stateAt_shift]
        exact hmissing (n + 1) (running_shift hfirst hrunning)) rfl
    refine ⟨n + 1, by omega, ?_, running_shift hfirst hrunning, ?_⟩
    · intro hs
      have hmore := hword hs
      omega
    · rw [outcomeAt_shift]
      exact hend

theorem Start.scanning (h : Start start) (n : ℕ) :
    Scanning argv (stateAt argv optstring longopts start n) := by
  induction n with
  | zero =>
      intro hpos opt rest hnext
      change start.nextShort = some (opt :: rest) at hnext
      rcases h with hzero | ⟨-, hboundary⟩
      · exact absurd hzero hpos
      · rcases hboundary with h | h <;> rw [h] at hnext <;> cases hnext
  | succ n ih =>
      have hmove : Move argv longopts (entered (stateAt argv optstring longopts start n))
          (getoptLong argv optstring longopts (stateAt argv optstring longopts start n)) :=
        getoptLong_move ih
      exact hmove.scanning ih.entered (entered_optind_ne_zero _)

theorem getoptLong_entered (s : State ι) :
    getoptLong argv optstring longopts (entered s) = getoptLong argv optstring longopts s := by
  have htwice : entered (entered s) = entered s := by
    unfold entered rewind
    split_ifs <;> simp_all
  change (match (entered (entered s)).nextShort with
      | some (opt :: rest) => shortOption argv optstring opt rest (entered (entered s))
      | _ => nextWord argv optstring longopts (entered (entered s))) = _
  rw [htwice]
  rfl

theorem outcomeAt_entered (n : ℕ) :
    outcomeAt argv optstring longopts (entered start) n =
      outcomeAt argv optstring longopts start n := by
  cases n with
  | zero => exact getoptLong_entered start
  | succ n => rw [outcomeAt_shift, outcomeAt_shift, getoptLong_entered]

omit [DecidableEq ι] in
theorem entered_of_start (h : Start start) :
    (entered start).optind = 1 ∧ Boundary (entered start) := by
  rcases h with hzero | ⟨hone, hboundary⟩
  · obtain ⟨hone, hnone⟩ := entered_of_zero hzero
    exact ⟨hone, Or.inl hnone⟩
  · obtain ⟨hoptind, hnext⟩ := entered_of_ne_zero (by omega : start.optind ≠ 0)
    unfold Boundary
    rw [hoptind, hnext]
    exact ⟨hone, hboundary⟩

theorem running_entered (n : ℕ) :
    Running argv optstring longopts (entered start) n ↔
      Running argv optstring longopts start n := by
  unfold Running
  simp only [outcomeAt_entered]

theorem not_missing_entered
    (hmissing : ∀ n, Running argv optstring longopts start n →
      ¬ MissingArgument argv longopts (stateAt argv optstring longopts start n)) {n : ℕ}
    (hn : Running argv optstring longopts (entered start) n) :
    ¬ MissingArgument argv longopts (stateAt argv optstring longopts (entered start) n) := by
  intro hstuck
  cases n with
  | zero =>
      -- the first call would leave the next one where it is
      change MissingArgument argv longopts (entered start) at hstuck
      obtain ⟨hvalue, hoptind, hnext⟩ := getoptLong_of_missing optstring hstuck
      rw [getoptLong_entered] at hvalue hoptind hnext
      refine hmissing 1 (fun k hk => ?_) ((missingArgument_congr hoptind hnext).mpr hstuck)
      obtain rfl : k = 0 := by omega
      change (getoptLong argv optstring longopts start).value ≠ -1
      rw [hvalue]
      decide
  | succ n =>
      rw [stateAt_shift, getoptLong_entered, ← stateAt_shift] at hstuck
      exact hmissing (n + 1) ((running_entered (n + 1)).mp hn) hstuck

theorem Start.ends (h : Start start)
    (hmissing : ∀ n, Running argv optstring longopts start n →
      ¬ MissingArgument argv longopts (stateAt argv optstring longopts start n)) :
    ∃ n, n + 1 ≤ max 1 (characters argv) ∧ Running argv optstring longopts start n ∧
      (outcomeAt argv optstring longopts start n).value = -1 := by
  obtain ⟨hone, hboundary⟩ := entered_of_start h
  have hscan : Scanning argv (stateAt argv optstring longopts start 0) := h.scanning 0
  obtain ⟨n, -, hn, hrun, hend⟩ := ends_within (s := entered start)
    (Scanning.entered hscan) (by omega) fun n => not_missing_entered hmissing
  have hchars : remaining argv (entered start) ≤ characters argv := by
    rw [hboundary.remaining_eq]
    exact charactersFrom_antitone (Nat.zero_le _)
  have hcalls := hn hboundary
  rw [outcomeAt_entered] at hend
  exact ⟨n, by omega, (running_entered n).mp hrun, hend⟩

/-- Every call advances, and `-1` is reached, exactly if the scan never comes
to a last word that names a long option and lacks its required argument. -/
theorem getopt_progresses_iff (hstart : Start start) :
    Progresses argv optstring longopts start ↔
      ∀ n, Running argv optstring longopts start n →
        ¬ MissingArgument argv longopts (stateAt argv optstring longopts start n) := by
  constructor
  · intro h n hrunning hmissing
    have hvalue : (outcomeAt argv optstring longopts start n).value ≠ -1 := by
      unfold outcomeAt
      rw [(getoptLong_of_missing optstring hmissing).1]
      decide
    exact (advances_iff (hstart.scanning n) hvalue).mp (h.advances n hrunning hvalue) hmissing
  · intro h
    refine ⟨fun n hrunning hvalue => ?_, hstart.ends h⟩
    exact (advances_iff (hstart.scanning n) hvalue).mpr (h n hrunning)

end Runs

def portOption : LongOption Unit :=
  ⟨ofString "port", .requiredArgument, none, 112⟩

def initialState : State Unit :=
  ⟨none, 1, 0, none, fun _ => 0⟩

theorem getopt_progresses_iff_port :
    Progresses [some (ofString "iperf3"), some (ofString "--port=5201")] (ofString "p:")
      [portOption] initialState := by
  apply (getopt_progresses_iff (Or.inr ⟨rfl, Or.inl rfl⟩)).mpr
  rintro n hrunning ⟨-, -, hlast, name, hword, -, hequals, -⟩
  -- The second call returns `-1`.
  have hn : n < 2 := by
    by_contra hn
    exact hrunning 1 (by omega) (by decide)
  have hcases : n = 0 ∨ n = 1 := by omega
  rcases hcases with rfl | rfl
  · obtain rfl : ofString "port=5201" = name := by
      have hwords := Option.some.inj hword
      exact (List.cons.inj (List.cons.inj hwords).2).2
    exact hequals (by decide)
  · cases hword

/-- `--port` without an argument is answered with a question mark, and `optind`
stays at the word. -/
theorem getopt_port_without_argument :
    ¬ Progresses [some (ofString "iperf3"), some (ofString "--port")] (ofString "p:")
      [portOption] initialState := by
  intro h
  have hvalue : (outcomeAt [some (ofString "iperf3"), some (ofString "--port")] (ofString "p:")
      [portOption] initialState 0).value ≠ -1 := by
    decide
  have hadvances := h.advances 0 (fun k hk => absurd hk (Nat.not_lt_zero k)) hvalue
  exact absurd hadvances.position (by decide)

end Getopt

end Iperf3
