import Iperf3.Getopt
import Mathlib.Tactic

/-!
# `getopt_long` reads what was written

Options with their arguments can be written as words in many ways: short ones
in clusters, arguments attached or as the next word.  Whatever way is taken,
the calls return the options again, one by one, and stop behind them.
-/

namespace Iperf3

namespace Getopt

open CChar CString

/-- The options of a program, as its author states them. -/
structure OptionTable (ι : Type*) where
  shorts : List (CChar × HasArg)
  longs : List (LongOption ι)
  shorts_nodup : (shorts.map Prod.fst).Nodup
  shorts_plain : ∀ short ∈ shorts, short.1 ≠ colon ∧ short.1 ≠ dash ∧ short.1 ≠ questionMark
  longs_nodup : (longs.map LongOption.name).Nodup
  longs_plain : ∀ option ∈ longs, equalsSign ∉ option.name

def HasArg.colons : HasArg → CString
  | .noArgument => []
  | .requiredArgument => [colon]
  | .optionalArgument => [colon, colon]

def renderShorts (shorts : List (CChar × HasArg)) : CString :=
  shorts.flatMap fun short => short.1 :: short.2.colons

def OptionTable.optstring {ι : Type*} (table : OptionTable ι) : CString :=
  renderShorts table.shorts

/-! ## Looking options up -/

theorem head_renderShorts {shorts : List (CChar × HasArg)}
    (hplain : ∀ short ∈ shorts, short.1 ≠ colon) : (renderShorts shorts).head? ≠ some colon := by
  cases shorts with
  | nil =>
      intro h
      cases h
  | cons short shorts =>
      intro h
      exact hplain short List.mem_cons_self (Option.some.inj h)

theorem strchr_renderShorts
    {shorts : List (CChar × HasArg)} (hnodup : (shorts.map Prod.fst).Nodup)
    (hplain : ∀ short ∈ shorts, short.1 ≠ colon) {c : CChar} {kind : HasArg}
    (h : (c, kind) ∈ shorts) :
    ∃ rest, strchr (renderShorts shorts) c = some (c :: kind.colons ++ rest) ∧
      rest.head? ≠ some colon := by
  induction shorts with
  | nil => cases h
  | cons short shorts ih =>
      obtain ⟨d, kind'⟩ := short
      rw [List.map_cons, List.nodup_cons] at hnodup
      have hplain' : ∀ short ∈ shorts, short.1 ≠ colon :=
        fun short hshort => hplain short (List.mem_cons_of_mem _ hshort)
      rcases List.mem_cons.mp h with heq | hmem
      · cases heq
        exact ⟨renderShorts shorts, if_pos rfl, head_renderShorts hplain'⟩
      · have hdc : d ≠ c := by
          rintro rfl
          exact hnodup.1 (List.mem_map.mpr ⟨(d, kind), hmem, rfl⟩)
        have hc : c ≠ colon := hplain (c, kind) h
        have hfront : c ∉ d :: kind'.colons := by
          cases kind' <;> simp [HasArg.colons, hc, hdc.symm]
        obtain ⟨rest, hrest, hhead⟩ := ih hnodup.2 hplain' hmem
        refine ⟨rest, ?_, hhead⟩
        have hskip : ∀ (front : CString), c ∉ front →
            strchr (front ++ renderShorts shorts) c = strchr (renderShorts shorts) c := by
          intro front hfront
          induction front with
          | nil => rfl
          | cons e front ihFront =>
              rw [List.mem_cons, not_or] at hfront
              exact (if_neg (Ne.symm hfront.1)).trans (ihFront hfront.2)
        exact (hskip _ hfront).trans hrest

section Table

variable {ι : Type*} {table : OptionTable ι}

theorem OptionTable.strchr_optstring {c : CChar} {kind : HasArg} (h : (c, kind) ∈ table.shorts) :
    strchr table.optstring c ≠ none ∧
      optRequiresArg table.optstring c =
        (decide (kind ≠ .noArgument), decide (kind = .optionalArgument)) := by
  obtain ⟨rest, hrest, hhead⟩ := strchr_renderShorts table.shorts_nodup
    (fun short hshort => (table.shorts_plain short hshort).1) h
  have hstr : strchr table.optstring c = some (c :: kind.colons ++ rest) := hrest
  refine ⟨by simp [hstr], ?_⟩
  unfold optRequiresArg
  rw [hstr]
  have hfirst : rest[0]? ≠ some colon := by
    rwa [← List.head?_eq_getElem?]
  cases kind <;> simp [HasArg.colons, hfirst]

/-- The part of the word that follows the name. -/
def Behind (value : CString) : Prop :=
  value = [] ∨ ∃ v, value = equalsSign :: v

theorem matchesName_iff {name value : CString} (hname : equalsSign ∉ name) (hvalue : Behind value)
    (option : LongOption ι) : matchesName (name ++ value) option = true ↔ option.name = name := by
  have hlength : longNameLength (name ++ value) = name.length := by
    unfold longNameLength
    rcases hvalue with rfl | ⟨v, rfl⟩
    · rw [List.append_nil, strchr_eq_none_iff.mpr hname]
    · rw [strchr_append hname]
      simp
  unfold matchesName
  rw [hlength, decide_eq_true_iff, List.take_left']
  · constructor
    · rintro ⟨hsame, htake⟩
      rwa [← hsame, List.take_length] at htake
    · rintro rfl
      exact ⟨rfl, List.take_length⟩
  · rfl

theorem OptionTable.findLong_eq (i : Fin table.longs.length) {value : CString}
    (hvalue : Behind value) :
    findLong (table.longs[i].name ++ value) table.longs = some (table.longs[i], i.val) := by
  have hname : equalsSign ∉ table.longs[i].name := table.longs_plain _ (List.getElem_mem _)
  unfold findLong
  rw [List.find?_eq_some_iff_getElem]
  refine ⟨(matchesName_iff hname hvalue _).mpr rfl, i.val, by simp, by simp, ?_⟩
  intro j hj
  have hjlt : j < table.longs.length := hj.trans i.isLt
  have hother : ¬ matchesName (table.longs[i].name ++ value) table.longs[j] = true := by
    rw [matchesName_iff hname hvalue]
    intro heq
    have hinj := List.nodup_iff_injective_getElem.mp table.longs_nodup
    have hij : (⟨j, by simpa using hjlt⟩ :
        Fin (table.longs.map LongOption.name).length) = ⟨i.val, by simp⟩ := by
      apply hinj
      simpa using heq
    exact absurd (Fin.mk.inj_iff.mp hij) (Nat.ne_of_lt hj)
  simpa using hother

theorem OptionTable.findLong_name (i : Fin table.longs.length) :
    findLong table.longs[i].name table.longs = some (table.longs[i], i.val) ∧
      strchr table.longs[i].name equalsSign = none := by
  have hfind := table.findLong_eq i (Or.inl rfl : Behind [])
  rw [List.append_nil] at hfind
  exact ⟨hfind, strchr_eq_none_iff.mpr (table.longs_plain _ (List.getElem_mem _))⟩

end Table

/-! ## Written options -/

/-- An option as it is meant, with its argument. -/
inductive Item {ι : Type*} (table : OptionTable ι) where
  | short (c : CChar) (arg : Option CString)
  | long (i : Fin table.longs.length) (arg : Option CString)

section Items

variable {ι : Type*} [DecidableEq ι] {table : OptionTable ι}

def Item.value : Item table → ℤ
  | .short c _ => c.code
  | .long i _ => returnedValue table.longs[i]

def Item.longindex : Item table → Option ℕ
  | .short _ _ => none
  | .long i _ => some i.val

def Item.arg : Item table → Option CString
  | .short _ arg => arg
  | .long _ arg => arg

/-- The flag variables after the option. -/
def Item.store (flags : ι → ℤ) : Item table → ι → ℤ
  | .short _ _ => flags
  | .long i _ => table.longs[i].store flags

omit [DecidableEq ι] in
/-- The last option of a cluster: its letters, and the words behind them. -/
inductive LastShort (table : OptionTable ι) : Item table → CString → List CString → Prop where
  | plain (c : CChar) (hc : (c, HasArg.noArgument) ∈ table.shorts) :
      LastShort table (.short c none) [c] []
  | bare (c : CChar) (hc : (c, HasArg.optionalArgument) ∈ table.shorts) :
      LastShort table (.short c none) [c] []
  | attached (c : CChar) (kind : HasArg) (hc : (c, kind) ∈ table.shorts)
      (hkind : kind ≠ .noArgument) (arg : CString) (harg : arg ≠ []) :
      LastShort table (.short c (some arg)) (c :: arg) []
  | separate (c : CChar) (hc : (c, HasArg.requiredArgument) ∈ table.shorts) (arg : CString) :
      LastShort table (.short c (some arg)) [c] [arg]

/-- The words of a long option. -/
inductive LongWords (table : OptionTable ι) : Item table → List CString → Prop where
  | bare (i : Fin table.longs.length) (hkind : table.longs[i].hasArg ≠ .requiredArgument) :
      LongWords table (.long i none) [dash :: dash :: table.longs[i].name]
  | equals (i : Fin table.longs.length) (hkind : table.longs[i].hasArg ≠ .noArgument)
      (arg : CString) :
      LongWords table (.long i (some arg))
        [dash :: dash :: (table.longs[i].name ++ equalsSign :: arg)]
  | separate (i : Fin table.longs.length) (hkind : table.longs[i].hasArg = .requiredArgument)
      (arg : CString) :
      LongWords table (.long i (some arg)) [dash :: dash :: table.longs[i].name, arg]

/-- The ways of writing a list of options as words. -/
inductive Rendering (table : OptionTable ι) : List (Item table) → List CString → Prop where
  | nil : Rendering table [] []
  | cluster (flags : List CChar) (hflags : ∀ c ∈ flags, (c, HasArg.noArgument) ∈ table.shorts)
      (last : Item table) (letters : CString) (more : List CString)
      (hlast : LastShort table last letters more) (items : List (Item table))
      (words : List CString) (hrest : Rendering table items words) :
      Rendering table (flags.map (fun c => .short c none) ++ last :: items)
        ((dash :: (flags ++ letters)) :: (more ++ words))
  | long (item : Item table) (own : List CString) (hown : LongWords table item own)
      (items : List (Item table)) (words : List CString) (hrest : Rendering table items words) :
      Rendering table (item :: items) (own ++ words)

/-- What may follow the options, and how many of its words are passed. -/
inductive Follows : List (Option CString) → ℕ → Prop where
  | nothing : Follows [] 0
  | dashes (rest : List (Option CString)) : Follows (some [dash, dash] :: rest) 1
  | operand (w : CString) (hw : w.head? ≠ some dash ∨ w = [dash])
      (rest : List (Option CString)) : Follows (some w :: rest) 0

/-! ## Reading them -/

/-- The call returns this option. -/
structure Returns (item : Item table) (s : State ι) (o : Outcome ι) : Prop where
  value : o.value = item.value
  longindex : o.longindex = item.longindex
  optarg : o.state.optarg = item.arg
  flags : o.state.flags = item.store s.flags

variable (argv : List (Option CString))

/-- Successive calls return these options. -/
inductive Reads (table : OptionTable ι) (argv : List (Option CString)) :
    State ι → List (Item table) → State ι → Prop where
  | nil (s : State ι) : Reads table argv s [] s
  | cons (s s' : State ι) (item : Item table) (items : List (Item table))
      (hcall : Returns item s (getoptLong argv table.optstring table.longs s))
      (hrest : Reads table argv (getoptLong argv table.optstring table.longs s).state items s') :
      Reads table argv s (item :: items) s'

variable {argv} {s s' s'' : State ι}

theorem Reads.append {items items' : List (Item table)} (h : Reads table argv s items s')
    (h' : Reads table argv s' items' s'') : Reads table argv s (items ++ items') s'' := by
  induction h with
  | nil => exact h'
  | cons s s' item items hcall _ ih => exact Reads.cons s s'' item _ hcall (ih h')

/-- At the beginning of a word, with these words to come. -/
structure AtWords (argv : List (Option CString)) (s : State ι) (ahead : List (Option CString)) :
    Prop where
  pos : s.optind ≠ 0
  boundary : Boundary s
  ahead : argv.drop s.optind = ahead

omit [DecidableEq ι] in
theorem word_of_drop {i : ℕ} {entry : Option CString} {l : List (Option CString)}
    (h : argv.drop i = entry :: l) :
    i < argv.length ∧ word argv i = entry ∧ argv.drop (i + 1) = l := by
  have hlt : i < argv.length := by
    by_contra hge
    rw [List.drop_eq_nil_of_le (not_lt.mp hge)] at h
    cases h
  rw [List.drop_eq_getElem_cons hlt, List.cons.injEq] at h
  refine ⟨hlt, ?_, h.2⟩
  unfold word
  rw [List.getElem?_eq_getElem hlt, h.1]
  rfl

theorem Reads.flags {items : List (Item table)} (h : Reads table argv s items s') :
    s'.flags = items.foldl Item.store s.flags := by
  induction h with
  | nil => rfl
  | cons s s' item items hcall _ ih => rw [ih, hcall.flags, List.foldl_cons]

theorem getoptLong_short
    {c : CChar} {kind : HasArg} (hc : (c, kind) ∈ table.shorts) {rest : CString}
    (hahead : Ahead argv s (c :: rest)) (hpos : s.optind ≠ 0) :
    getoptLong argv table.optstring table.longs s =
      shortOption argv table.optstring c rest { s with optarg := none } :=
  getoptLong_of_ahead hahead (table.shorts_plain _ hc).2.1 hpos

theorem call_flag {c : CChar} (hc : (c, HasArg.noArgument) ∈ table.shorts) {rest : CString}
    (hahead : Ahead argv s (c :: rest)) (hpos : s.optind ≠ 0) (hrest : rest ≠ []) :
    getoptLong argv table.optstring table.longs s =
      ⟨c.code, none, { s with optarg := none, nextShort := some rest }⟩ := by
  obtain ⟨hfound, hneeds⟩ := table.strchr_optstring hc
  rw [getoptLong_short hc hahead hpos]
  unfold shortOption
  simp [hfound, hneeds, hrest]

theorem reads_flags
    {flags : List CChar} (hflags : ∀ c ∈ flags, (c, HasArg.noArgument) ∈ table.shorts)
    {letters : CString} (hletters : letters ≠ []) (hahead : Ahead argv s (flags ++ letters))
    (hpos : s.optind ≠ 0) :
    ∃ s', Reads table argv s (flags.map fun c => .short c none) s' ∧
      Ahead argv s' letters ∧ s'.optind = s.optind := by
  induction flags generalizing s with
  | nil => exact ⟨s, Reads.nil s, hahead, rfl⟩
  | cons c flags ih =>
      have hrest : flags ++ letters ≠ [] := List.append_ne_nil_of_right_ne_nil _ hletters
      have hcall := call_flag (hflags c List.mem_cons_self) hahead hpos hrest
      obtain ⟨s', hreads, hahead', hoptind⟩ :=
        ih (s := { s with optarg := none, nextShort := some (flags ++ letters) })
          (fun d hd => hflags d (List.mem_cons_of_mem _ hd)) (Or.inl rfl) hpos
      refine ⟨s', ?_, hahead', hoptind⟩
      rw [List.map_cons]
      apply Reads.cons
      · rw [hcall]
        exact ⟨rfl, rfl, rfl, rfl⟩
      · rw [hcall]
        exact hreads

/-- What is done with the last option of a cluster once its argument is known. -/
theorem returns_short
    (c : CChar) (arg : Option CString) {k : ℕ} {tail : List (Option CString)}
    (hnext : argv.drop (s.optind + (k + 1)) = tail) :
    let o : Outcome ι := ⟨c.code, none,
      { s with optarg := arg, optind := s.optind + (k + 1), nextShort := none }⟩
    Returns (.short c arg : Item table) s o ∧ AtWords argv o.state tail ∧
      o.state.optind = s.optind + (k + 1) :=
  ⟨⟨rfl, rfl, rfl, rfl⟩, ⟨Nat.succ_ne_zero _, Or.inl rfl, hnext⟩, rfl⟩

theorem call_last
    {last : Item table} {letters : CString} {more : List CString}
    (hlast : LastShort table last letters more) {tail : List (Option CString)}
    (hahead : Ahead argv s letters) (hpos : s.optind ≠ 0)
    (hmore : argv.drop (s.optind + 1) = more.map some ++ tail) :
    let o := getoptLong argv table.optstring table.longs s
    Returns last s o ∧ AtWords argv o.state tail ∧
      o.state.optind = s.optind + (more.length + 1) := by
  have hnext : argv.drop (s.optind + (more.length + 1)) = tail := by
    rw [Nat.add_comm more.length, ← Nat.add_assoc, ← List.drop_drop, hmore]
    simp
  cases hlast with
  | plain c hc =>
      obtain ⟨hfound, hneeds⟩ := table.strchr_optstring hc
      rw [getoptLong_short hc hahead hpos]
      unfold shortOption
      simp only [hfound, hneeds]
      exact returns_short c none hnext
  | bare c hc =>
      obtain ⟨hfound, hneeds⟩ := table.strchr_optstring hc
      rw [getoptLong_short hc hahead hpos]
      unfold shortOption
      simp only [hfound, hneeds]
      exact returns_short c none hnext
  | attached c kind hc hkind arg harg =>
      obtain ⟨hfound, hneeds⟩ := table.strchr_optstring hc
      rw [getoptLong_short hc hahead hpos]
      unfold shortOption
      simp only [hfound, hneeds, ne_eq, hkind, harg, not_false_eq_true, decide_true, if_true]
      exact returns_short c (some arg) hnext
  | separate c hc arg =>
      obtain ⟨hfound, hneeds⟩ := table.strchr_optstring hc
      obtain ⟨hlt, hword, -⟩ := word_of_drop (hmore : _ = some arg :: tail)
      rw [getoptLong_short hc hahead hpos]
      unfold shortOption
      simp only [hfound, hneeds, hlt, hword]
      exact returns_short c (some arg) hnext

/-- What is done with a long option once its argument is known. -/
theorem returns_long
    (i : Fin table.longs.length) (arg : Option CString) (k : ℕ) (hboundary : Boundary s)
    {tail : List (Option CString)} (hnext : argv.drop (s.optind + k) = tail) (hk : 0 < k) :
    let o : Outcome ι := ⟨returnedValue table.longs[i], some i.val, storeFlag table.longs[i]
      { s with optarg := arg, optind := s.optind + k }⟩
    Returns (.long i arg) s o ∧ AtWords argv o.state tail ∧ o.state.optind = s.optind + k := by
  refine ⟨⟨rfl, rfl, rfl, rfl⟩, ⟨?_, hboundary, hnext⟩, rfl⟩
  exact Nat.ne_of_gt (Nat.lt_of_lt_of_le hk (Nat.le_add_left _ _))

theorem getoptLong_long {rest : CString} (hrest : rest ≠ []) (hboundary : Boundary s)
    (hpos : s.optind ≠ 0) (hword : word argv s.optind = some (dash :: dash :: rest)) :
    getoptLong argv table.optstring table.longs s =
      handleLong argv (dash :: dash :: rest) table.longs { s with optarg := none } := by
  rw [getoptLong_of_boundary hboundary hpos]
  unfold nextWord
  simp [hword, hrest]

theorem call_long
    (hnames : ∀ option ∈ table.longs, option.name ≠ [])
    {item : Item table} {own : List CString} (hown : LongWords table item own)
    {tail : List (Option CString)} (hwords : AtWords argv s (own.map some ++ tail)) :
    let o := getoptLong argv table.optstring table.longs s
    Returns item s o ∧ AtWords argv o.state tail ∧ o.state.optind = s.optind + own.length := by
  have hnext : argv.drop (s.optind + own.length) = tail := by
    rw [← List.drop_drop, hwords.ahead]
    simp
  cases hown with
  | bare i hkind =>
      have hname : table.longs[i].name ≠ [] := hnames _ (List.getElem_mem _)
      obtain ⟨-, hword, -⟩ := word_of_drop hwords.ahead
      obtain ⟨hfind, hequals⟩ := table.findLong_name i
      have hcall := returns_long i none 1 hwords.boundary hnext Nat.one_pos
      rw [getoptLong_long hname hwords.boundary hwords.pos hword]
      unfold handleLong
      simp only [List.drop_succ_cons, List.drop_zero, hfind, hequals]
      cases hhas : table.longs[i].hasArg with
      | noArgument => exact hcall
      | optionalArgument => exact hcall
      | requiredArgument => exact absurd hhas hkind
  | equals i hkind arg =>
      obtain ⟨-, hword, -⟩ := word_of_drop hwords.ahead
      have hfind := table.findLong_eq i (Or.inr ⟨arg, rfl⟩ : Behind (equalsSign :: arg))
      have hequals : strchr (table.longs[i].name ++ equalsSign :: arg) equalsSign =
          some (equalsSign :: arg) :=
        strchr_append (table.longs_plain _ (List.getElem_mem _)) arg
      have hcall := returns_long i (some arg) 1 hwords.boundary hnext Nat.one_pos
      rw [getoptLong_long (by simp) hwords.boundary hwords.pos hword]
      unfold handleLong
      simp only [List.drop_succ_cons, List.drop_zero, hfind, hequals]
      cases hhas : table.longs[i].hasArg with
      | noArgument => exact absurd hhas hkind
      | optionalArgument => exact hcall
      | requiredArgument => exact hcall
  | separate i hkind arg =>
      have hname : table.longs[i].name ≠ [] := hnames _ (List.getElem_mem _)
      obtain ⟨-, hword, hbehind⟩ := word_of_drop hwords.ahead
      obtain ⟨hlt, harg, -⟩ := word_of_drop hbehind
      obtain ⟨hfind, hequals⟩ := table.findLong_name i
      have hcall := returns_long i (some arg) 2 hwords.boundary hnext Nat.two_pos
      rw [getoptLong_long hname hwords.boundary hwords.pos hword]
      unfold handleLong
      simp only [List.drop_succ_cons, List.drop_zero, hfind, hequals, hkind, hlt, if_true, harg]
      exact hcall

theorem reads_rendering
    (hnames : ∀ option ∈ table.longs, option.name ≠ [])
    {items : List (Item table)} {words : List CString} (h : Rendering table items words)
    {tail : List (Option CString)} (hwords : AtWords argv s (words.map some ++ tail)) :
    ∃ s', Reads table argv s items s' ∧ AtWords argv s' tail ∧
      s'.optind = s.optind + words.length := by
  induction h generalizing s with
  | nil => exact ⟨s, Reads.nil s, hwords, rfl⟩
  | cluster flags hflags last letters more hlast items words hrest ih =>
      have hletters : letters ≠ [] := by
        cases hlast <;> exact List.cons_ne_nil _ _
      have hahead := hwords.ahead
      rw [List.map_cons, List.cons_append] at hahead
      obtain ⟨-, hword, hbehind⟩ := word_of_drop hahead
      rw [List.map_append, List.append_assoc] at hbehind
      obtain ⟨s₁, hreads₁, hahead₁, hoptind₁⟩ :=
        reads_flags hflags hletters (Or.inr ⟨hwords.boundary, hword⟩) hwords.pos
      rw [← hoptind₁] at hbehind
      obtain ⟨hreturns, hwords₂, hoptind₂⟩ :=
        call_last hlast hahead₁ (hoptind₁ ▸ hwords.pos) hbehind
      obtain ⟨s₃, hreads₃, hwords₃, hoptind₃⟩ := ih hwords₂
      refine ⟨s₃, hreads₁.append (Reads.cons s₁ s₃ last items hreturns hreads₃), hwords₃, ?_⟩
      simp only [List.length_cons, List.length_append]
      omega
  | long item own hown items words hrest ih =>
      have hahead := hwords.ahead
      rw [List.map_append, List.append_assoc] at hahead
      obtain ⟨hreturns, hwords₁, hoptind₁⟩ :=
        call_long hnames hown ⟨hwords.pos, hwords.boundary, hahead⟩
      obtain ⟨s₂, hreads₂, hwords₂, hoptind₂⟩ := ih hwords₁
      refine ⟨s₂, Reads.cons s s₂ item items hreturns hreads₂, hwords₂, ?_⟩
      rw [List.length_append]
      omega

/-- Behind the options the scan ends. -/
theorem ends_at_tail
    (table : OptionTable ι) {tail : List (Option CString)} {passed : ℕ}
    (htail : Follows tail passed) (hwords : AtWords argv s tail) :
    (getoptLong argv table.optstring table.longs s).value = -1 ∧
      (getoptLong argv table.optstring table.longs s).state.optind = s.optind + passed := by
  rw [getoptLong_of_boundary hwords.boundary hwords.pos]
  unfold nextWord
  cases htail with
  | nothing =>
      have hnone : word argv s.optind = none := by
        unfold word
        rw [List.getElem?_eq_none (List.drop_eq_nil_iff.mp hwords.ahead)]
        rfl
      simp [hnone]
  | dashes rest =>
      obtain ⟨-, hword, -⟩ := word_of_drop hwords.ahead
      simp [hword]
  | operand w hw rest =>
      obtain ⟨-, hword, -⟩ := word_of_drop hwords.ahead
      simp only [hword]
      match w, hw with
      | [], _ => exact ⟨rfl, rfl⟩
      | [c], _ => exact ⟨rfl, rfl⟩
      | c :: d :: more, hw =>
          have hc : c ≠ dash := by
            rcases hw with hhead | hlone
            · exact fun heq => hhead (congrArg some heq)
            · cases hlone
          simp [hc]

theorem Reads.outcomeAt {items : List (Item table)} (h : Reads table argv s items s') :
    (∀ k (hk : k < items.length),
      Returns items[k] (stateAt argv table.optstring table.longs s k)
        (outcomeAt argv table.optstring table.longs s k)) ∧
      stateAt argv table.optstring table.longs s items.length = s' := by
  induction h with
  | nil s => exact ⟨fun k hk => absurd hk (Nat.not_lt_zero k), rfl⟩
  | cons s s' item items hcall hrest ih =>
      obtain ⟨hall, hlast⟩ := ih
      constructor
      · intro k hk
        cases k with
        | zero => exact hcall
        | succ k =>
            rw [outcomeAt_shift, stateAt_shift]
            exact hall k (Nat.lt_of_succ_lt_succ hk)
      · rw [List.length_cons, stateAt_shift]
        exact hlast

/-- If no long name is empty, the calls return the written options with their
arguments, one by one, and then `-1` with `optind` behind them. -/
theorem getopt_undoes_rendering
    (hnames : ∀ option ∈ table.longs, option.name ≠ [])
    {items : List (Item table)} {words : List CString} (h : Rendering table items words)
    {tail : List (Option CString)} {passed : ℕ} (htail : Follows tail passed)
    (program optarg : Option CString) (optopt : ℤ) (flags : ι → ℤ) :
    let argv := program :: (words.map some ++ tail)
    let start : State ι := ⟨optarg, 1, optopt, none, flags⟩
    let outcome := outcomeAt argv table.optstring table.longs start
    (∀ k (hk : k < items.length), (outcome k).value = items[k].value ∧
      (outcome k).longindex = items[k].longindex ∧ (outcome k).state.optarg = items[k].arg) ∧
      (stateAt argv table.optstring table.longs start items.length).flags =
        items.foldl Item.store flags ∧
      (outcome items.length).value = -1 ∧
      (outcome items.length).state.optind = 1 + words.length + passed := by
  intro argv start outcome
  have hwords : AtWords argv start (words.map some ++ tail) :=
    ⟨Nat.one_ne_zero, Or.inl rfl, rfl⟩
  obtain ⟨s', hreads, hend, hoptind⟩ := reads_rendering hnames h hwords
  obtain ⟨hall, hlast⟩ := hreads.outcomeAt
  obtain ⟨hvalue, hbehind⟩ := ends_at_tail table htail hend
  have houtcome : outcome items.length = getoptLong argv table.optstring table.longs s' :=
    congrArg (getoptLong argv table.optstring table.longs) hlast
  refine ⟨fun k hk => ?_, ?_, ?_, ?_⟩
  · obtain ⟨hvalue, hindex, harg, -⟩ := hall k hk
    exact ⟨hvalue, hindex, harg⟩
  · rw [hlast]
    exact hreads.flags
  · rw [houtcome]
    exact hvalue
  · rw [houtcome, hbehind, hoptind]

end Items

def portTable : OptionTable Unit where
  shorts := [(ofChar 'p' (by decide), .requiredArgument), (ofChar 'J' (by decide), .noArgument)]
  longs := [⟨ofString "port", .requiredArgument, none, 112⟩]
  shorts_nodup := by decide
  shorts_plain := by decide
  longs_nodup := by decide
  longs_plain := by decide

/-- `-Jp5 --port 7 -- x`. -/
theorem getopt_reads_ports :
    let argv := some (ofString "iperf3") ::
      ([ofString "-Jp5", ofString "--port", ofString "7"].map some ++
        [some (ofString "--"), some (ofString "x")])
    let start : State Unit := ⟨none, 1, 0, none, fun _ => 0⟩
    let items : List (Item portTable) :=
      [.short (ofChar 'J' (by decide)) none, .short (ofChar 'p' (by decide)) (some (ofString "5")),
        .long ⟨0, by decide⟩ (some (ofString "7"))]
    let outcome := outcomeAt argv portTable.optstring portTable.longs start
    (∀ k (hk : k < items.length), (outcome k).value = items[k].value ∧
      (outcome k).longindex = items[k].longindex ∧ (outcome k).state.optarg = items[k].arg) ∧
      (stateAt argv portTable.optstring portTable.longs start items.length).flags =
        items.foldl Item.store (fun _ => 0) ∧
      (outcome items.length).value = -1 ∧
      (outcome items.length).state.optind = 1 + 3 + 1 := by
  intro argv start items
  have hrendering : Rendering portTable items
      [ofString "-Jp5", ofString "--port", ofString "7"] :=
    Rendering.cluster [ofChar 'J' (by decide)] (by decide)
      (.short (ofChar 'p' (by decide)) (some (ofString "5")))
      (ofString "p5") []
      (LastShort.attached _ .requiredArgument (by decide) (by decide) (ofString "5") (by decide))
      _ _
      (Rendering.long _ [ofString "--port", ofString "7"]
        (LongWords.separate ⟨0, by decide⟩ rfl (ofString "7")) [] [] Rendering.nil)
  exact getopt_undoes_rendering (by decide) hrendering
    (Follows.dashes [some (ofString "x")]) _ _ _ _

def emptyNameTable : OptionTable Unit where
  shorts := []
  longs := [⟨[], .noArgument, none, 112⟩]
  shorts_nodup := by decide
  shorts_plain := by decide
  longs_nodup := by decide
  longs_plain := by decide

/-- A long option with the empty name is written as `--`, which ends the
options. -/
theorem getopt_empty_long_name :
    Rendering emptyNameTable [.long ⟨0, by decide⟩ none] [[dash, dash]] ∧
      (outcomeAt [some (ofString "iperf3"), some [dash, dash]] emptyNameTable.optstring
        emptyNameTable.longs ⟨none, 1, 0, none, fun _ => 0⟩ 0).value = -1 ∧
      Item.value (.long ⟨0, by decide⟩ none : Item emptyNameTable) = 112 := by
  refine ⟨?_, by decide, by decide⟩
  exact Rendering.long _ [[dash, dash]] (LongWords.bare ⟨0, by decide⟩ (by decide)) [] []
    Rendering.nil

end Getopt

end Iperf3
