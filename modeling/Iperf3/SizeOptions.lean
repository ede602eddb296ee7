import Iperf3.Arguments
import Iperf3.DecimalNumeral
import Mathlib.Tactic

/-!
# Sizes on the command line

`unit_atoi` takes a number and one suffix letter and looks at nothing behind
them.  The counts of `-n` and `-k` are stored as they come; the block size of
`-l` is stored in an `int` first, and its range is checked at the end of the
command line, when the protocol is known.
-/

namespace Iperf3

open FloatScan CChar CString MachineInt

def FloatScan.FloatValue.scale (factor : ℕ) : FloatValue → FloatValue
  | .finite q => .finite (q * factor)
  | .infinite negative => .infinite negative
  | .nan => .nan

/-- The conversion of a `double` to `iperf_size_t`.  It cuts the fraction off;
for values that do not fit then, the result is not defined. -/
structure SizeConversion where
  toSize : FloatValue → ℕ
  toSize_lt : ∀ value, toSize value < 18446744073709551616
  toSize_finite : ∀ q : ℚ, -1 < q → q < 18446744073709551616 → toSize (.finite q) = ⌊q⌋₊

def kiloUnit : ℕ := 1024
def megaUnit : ℕ := 1024 * 1024
def gigaUnit : ℕ := 1024 * 1024 * 1024
def teraUnit : ℕ := 1024 * 1024 * 1024 * 1024

/-- The factor of what `%c` has read; there is none for other letters. -/
def suffixUnit : Option CChar → Option ℕ
  | none => some 1
  | some suffix =>
      match suffix.char with
      | 't' | 'T' => some teraUnit
      | 'g' | 'G' => some gigaUnit
      | 'm' | 'M' => some megaUnit
      | 'k' | 'K' => some kiloUnit
      | _ => none

/-- A failure leaves the text in `errarg`. -/
def unitAtoi (conversion : SizeConversion) (s : CString) : Except (IErrno × CString) ℕ :=
  match scanDouble s with
  | none => .error (.ieUnits, s)
  | some (n, rest) =>
      match suffixUnit rest.head? with
      | none => .error (.ieUnits, s)
      | some unit => .ok (conversion.toSize (n.scale unit))

inductive SizeOption where
  | bytes
  | blockcount
  | length
  deriving DecidableEq, Repr

def SizeOption.opt (name : SizeOption) (count : ℕ) : Opt :=
  match name with
  | .bytes => .bytes count
  | .blockcount => .blockcount count
  | .length => .length count

/-- The cases of `-n`, `-k` and `-l` with their arguments as texts. -/
def parseSizeOption (conversion : SizeConversion) (b : Build) (p : ParseState) (name : SizeOption)
    (optarg : CString) : Except ArgError ParseState :=
  match unitAtoi conversion optarg with
  | .error (code, _) => refuse code
  | .ok count => parseOption b p (name.opt count)

/-- The rest of the command line behind `-l`, up to the block size. -/
def parseLength (conversion : SizeConversion) (b : Build) (p : ParseState) (optarg : CString)
    (later : List Opt) : Except ArgError Test := do
  let p ← parseSizeOption conversion b p .length optarg
  let p ← later.foldlM (parseOption b) p
  let p ← checkScopes p
  let p ← checkBlksize p
  return applyBlksize p

/-! ## What is written -/

inductive SuffixText : CString → ℕ → Prop where
  | none : SuffixText [] 1
  | kilo (c : CChar) (hc : c.char = 'k' ∨ c.char = 'K') : SuffixText [c] 1024
  | mega (c : CChar) (hc : c.char = 'm' ∨ c.char = 'M') : SuffixText [c] (1024 ^ 2)
  | giga (c : CChar) (hc : c.char = 'g' ∨ c.char = 'G') : SuffixText [c] (1024 ^ 3)
  | tera (c : CChar) (hc : c.char = 't' ∨ c.char = 'T') : SuffixText [c] (1024 ^ 4)

/-- The text is a number that is not negative, with at most one suffix, and
this is the integer part of its value. -/
def Written (text : CString) (size : ℕ) : Prop :=
  ∃ (n : Numeral) (suffix : CString) (unit : ℕ), text = n.text ++ suffix ∧
    SuffixText suffix unit ∧ 0 ≤ n.value ∧ size = ⌊n.value * unit⌋₊

/-- A number with a suffix is taken from the front of the text. -/
def Taken (text : CString) (n : FloatValue) (unit : ℕ) (rest : CString) : Prop :=
  scanDouble text = some (n, rest) ∧ suffixUnit rest.head? = some unit

def Negative : FloatValue → Prop
  | .finite q => q < 0
  | .infinite _ => False
  | .nan => False

/-- There is a blank in front, another spelling than the decimal one, a
negative number, or something behind the suffix. -/
def Loose (text : CString) (n : FloatValue) (rest : CString) : Prop :=
  (∃ c ∈ text.head?, isBlank c = true) ∨ kindOf (scanSign text).2 ≠ .decimal ∨ Negative n ∨
    2 ≤ rest.length

/-! ## The option loop and the block size -/

def ParseState.withBlksize (k : ℤ) (p : ParseState) : ParseState :=
  { p with blksize := k }

/-- No option but `-l` looks at the block size or changes it. -/
theorem parseOption_withBlksize
    (b : Build) (p : ParseState) (k : ℤ) {o : Opt} (ho : ∀ count, o ≠ .length count) :
    parseOption b (p.withBlksize k) o = (parseOption b p o).map (ParseState.withBlksize k) := by
  obtain ⟨test, blksize, serverFlag, clientFlag, rateFlag, durationFlag, gsroFlag⟩ := p
  cases o with
  | length count => exact absurd rfl (ho count)
  | other scope => cases scope <;> rfl
  | server =>
      by_cases h : test.role = .client <;> simp [parseOption, ParseState.withBlksize, h] <;> rfl
  | client =>
      by_cases h : test.role = .server <;> simp [parseOption, ParseState.withBlksize, h] <;> rfl
  | reverse =>
      by_cases h : test.bidirectional = 0 <;> simp [parseOption, ParseState.withBlksize, h] <;> rfl
  | bidir =>
      by_cases h : test.reverse = 0 <;> simp [parseOption, ParseState.withBlksize, h] <;> rfl
  | affinity server =>
      cases server <;> simp only [parseOption, refuse, ParseState.withBlksize] <;> split_ifs <;> rfl
  | _ =>
    first
      | rfl
      | (simp only [parseOption, parseBitrate, refuse, ParseState.withBlksize]
         split_ifs <;> rfl)

theorem foldlM_withBlksize
    (b : Build) (p : ParseState) (k : ℤ) {later : List Opt}
    (hlater : ∀ o ∈ later, ∀ count, o ≠ .length count) :
    later.foldlM (parseOption b) (p.withBlksize k) =
      (later.foldlM (parseOption b) p).map (ParseState.withBlksize k) := by
  induction later generalizing p with
  | nil => rfl
  | cons o later ih =>
      have ho := hlater o List.mem_cons_self
      have hrest := fun o' ho' => hlater o' (List.mem_cons_of_mem _ ho')
      rw [List.foldlM_cons, List.foldlM_cons, parseOption_withBlksize b p k ho]
      cases parseOption b p o with
      | error e => rfl
      | ok p' => exact ih p' hrest

theorem checkScopes_withBlksize (p : ParseState) (k : ℤ) :
    checkScopes (p.withBlksize k) = (checkScopes p).map (ParseState.withBlksize k) := by
  unfold checkScopes refuse
  simp only [apply_ite (Except.map (ParseState.withBlksize k))]
  rfl

/-- The block sizes that the check lets pass, before a default is put in. -/
def BlksizePasses (protocol : ProtocolId) (blksize : ℤ) : Prop :=
  if protocol = .udp then blksize ≤ 0 ∨ minUdpBlocksize ≤ blksize ∧ blksize ≤ maxUdpBlocksize
  else 0 ≤ blksize ∧ blksize ≤ maxBlocksize

instance (protocol : ProtocolId) (blksize : ℤ) : Decidable (BlksizePasses protocol blksize) := by
  unfold BlksizePasses
  infer_instance

theorem checkBlksize_ok_iff (p p' : ParseState) :
    checkBlksize p = .ok p' ↔ p' = p ∧ BlksizePasses p.test.protocol p.blksize := by
  have hbounds : minUdpBlocksize = 16 ∧ maxUdpBlocksize = 65507 ∧ maxBlocksize = 1048576 ∧
      defaultSctpBlksize = 65536 ∧ defaultTcpBlksize = 131072 := by
    decide
  obtain ⟨hmin, hmax, hblock, hsctp, htcp⟩ := hbounds
  -- a zero gives way to a default that passes
  have heffective : (p.test.protocol = .udp ∧ p.effectiveBlksize = p.blksize) ∨
      (p.test.protocol ≠ .udp ∧ p.blksize = 0 ∧ 0 < p.effectiveBlksize ∧
        p.effectiveBlksize ≤ 1048576) ∨
      (p.test.protocol ≠ .udp ∧ p.blksize ≠ 0 ∧ p.effectiveBlksize = p.blksize) := by
    unfold ParseState.effectiveBlksize
    cases hprotocol : p.test.protocol <;> by_cases hzero : p.blksize = 0 <;>
      simp [hzero, hsctp, htcp]
  unfold checkBlksize BlksizePasses
  simp only [refuse]
  rw [hmin, hmax, hblock]
  rcases heffective with ⟨hudp, heq⟩ | ⟨hudp, hzero, hpos, hle⟩ | ⟨hudp, hne, heq⟩
  · rw [heq, if_pos hudp]
    simp only [hudp, ne_eq, not_true_eq_false, false_and, false_or, true_and]
    split_ifs with hbig hrange
    · exact iff_of_false (fun h => nomatch h) (fun h => absurd h.2 (by omega))
    · exact iff_of_false (fun h => nomatch h) (fun h => absurd h.2 (by omega))
    · exact ⟨fun h => ⟨(Except.ok.inj h).symm, by omega⟩, fun h => congrArg Except.ok h.1.symm⟩
  · rw [if_neg hudp, if_neg (by omega), if_neg (fun h => hudp h.1)]
    exact ⟨fun h => ⟨(Except.ok.inj h).symm, by omega⟩, fun h => congrArg Except.ok h.1.symm⟩
  · rw [heq, if_neg hudp]
    simp only [hudp, ne_eq, not_false_eq_true, true_and, false_and, if_false]
    split_ifs with hbig
    · exact iff_of_false (fun h => nomatch h) (fun h => absurd h.2 (by omega))
    · exact ⟨fun h => ⟨(Except.ok.inj h).symm, by omega⟩, fun h => congrArg Except.ok h.1.symm⟩

/-! ## Texts that are taken -/

section Texts

variable {text : CString}

theorem suffixUnit_char {c : CChar} {unit : ℕ} (h : suffixUnit (some c) = some unit) :
    SuffixText [c] unit := by
  unfold suffixUnit at h
  simp only at h
  split at h <;> cases h
  · exact SuffixText.tera c (Or.inl ‹_›)
  · exact SuffixText.tera c (Or.inr ‹_›)
  · exact SuffixText.giga c (Or.inl ‹_›)
  · exact SuffixText.giga c (Or.inr ‹_›)
  · exact SuffixText.mega c (Or.inl ‹_›)
  · exact SuffixText.mega c (Or.inr ‹_›)
  · exact SuffixText.kilo c (Or.inl ‹_›)
  · exact SuffixText.kilo c (Or.inr ‹_›)

theorem SuffixText.unit_eq {suffix : CString} {unit : ℕ} (h : SuffixText suffix unit) :
    suffixUnit suffix.head? = some unit ∧ suffix.length ≤ 1 := by
  cases h with
  | none => exact ⟨rfl, Nat.zero_le _⟩
  | kilo c hc => rcases hc with hc | hc <;> exact ⟨by simp [suffixUnit, hc, kiloUnit], le_rfl⟩
  | mega c hc => rcases hc with hc | hc <;> exact ⟨by simp [suffixUnit, hc, megaUnit], le_rfl⟩
  | giga c hc => rcases hc with hc | hc <;> exact ⟨by simp [suffixUnit, hc, gigaUnit], le_rfl⟩
  | tera c hc => rcases hc with hc | hc <;> exact ⟨by simp [suffixUnit, hc, teraUnit], le_rfl⟩

/-- No suffix letter continues a numeral. -/
theorem SuffixText.stops {suffix : CString} {unit : ℕ} (h : SuffixText suffix unit) :
    Stops suffix := by
  have hletter : ∀ (c : CChar) (d : Char), c.char = d →
      ¬ ('0' ≤ d ∧ d ≤ '9') → d ≠ '.' → d.toLower ≠ 'e' → d.toLower ≠ 'x' → Stops [c] := by
    intro c d hc hdigit hpoint he hx e he'
    cases he'
    refine ⟨not_digit_of_char hc hdigit, ?_, ?_, ?_⟩
    · rwa [hc]
    · unfold CChar.lower
      rwa [hc]
    · unfold CChar.lower
      rwa [hc]
  cases h with
  | none => exact fun c hc => by cases hc
  | kilo c hc =>
      rcases hc with hc | hc <;>
        exact hletter c _ hc (by decide) (by decide) (by decide) (by decide)
  | mega c hc =>
      rcases hc with hc | hc <;>
        exact hletter c _ hc (by decide) (by decide) (by decide) (by decide)
  | giga c hc =>
      rcases hc with hc | hc <;>
        exact hletter c _ hc (by decide) (by decide) (by decide) (by decide)
  | tera c hc =>
      rcases hc with hc | hc <;>
        exact hletter c _ hc (by decide) (by decide) (by decide) (by decide)

/-- The number that a numeral is read as is in the decimal spelling. -/
theorem kindOf_text (n : Numeral) {rest : CString} (hstops : Stops rest) :
    kindOf (scanSign (n.text ++ rest)).2 = .decimal := by
  have hsign : scanSign (n.text ++ rest) = (isNegative n.sign, n.unsignedText ++ rest) :=
    scanSign_text n rest
  rw [hsign]
  exact kindOf_numeral n hstops

theorem Written.taken {size : ℕ} (h : Written text size) :
    ∃ q unit rest, Taken text (.finite q) unit rest ∧ 0 ≤ q ∧ size = ⌊q * unit⌋₊ ∧
      ¬ Loose text (.finite q) rest := by
  obtain ⟨n, suffix, unit, rfl, hsuffix, hnonneg, rfl⟩ := h
  obtain ⟨hunit, hlength⟩ := hsuffix.unit_eq
  refine ⟨n.value, unit, suffix, ⟨scanDouble_numeral n hsuffix.stops, hunit⟩, hnonneg, rfl, ?_⟩
  rintro (⟨c, hc, hblank⟩ | hkind | hnegative | hlong)
  · rw [head_not_blank n suffix c hc] at hblank
    cases hblank
  · exact hkind (kindOf_text n hsuffix.stops)
  · exact not_lt.mpr hnonneg hnegative
  · omega

theorem Taken.written {n : FloatValue} {unit : ℕ} {rest : CString} (h : Taken text n unit rest)
    (hstrict : ¬ Loose text n rest) :
    ∃ q, n = .finite q ∧ 0 ≤ q ∧ Written text ⌊q * unit⌋₊ := by
  unfold Loose at hstrict
  push Not at hstrict
  obtain ⟨hblank, hkind, hnegative, hlength⟩ := hstrict
  obtain ⟨hscan, hunit⟩ := h
  have hfront : ∀ c ∈ text.head?, isBlank c = false := by
    intro c hc
    exact Bool.eq_false_iff.mpr (hblank c hc)
  obtain ⟨numeral, htext, rfl⟩ := scanDouble_split hscan hfront hkind
  have hnonneg : 0 ≤ numeral.value := not_lt.mp hnegative
  refine ⟨numeral.value, rfl, hnonneg, numeral, rest, unit, htext, ?_, hnonneg, rfl⟩
  match rest, hunit, hlength with
  | [], hunit, _ =>
      cases hunit
      exact SuffixText.none
  | [c], hunit, _ => exact suffixUnit_char hunit

theorem Taken.unique {n n' : FloatValue} {unit unit' : ℕ} {rest rest' : CString}
    (h : Taken text n unit rest) (h' : Taken text n' unit' rest') :
    n = n' ∧ unit = unit' ∧ rest = rest' := by
  obtain ⟨hscan, hunit⟩ := h
  obtain ⟨hscan', hunit'⟩ := h'
  rw [hscan] at hscan'
  cases hscan'
  rw [hunit] at hunit'
  cases hunit'
  exact ⟨rfl, rfl, rfl⟩

theorem unitAtoi_ok_iff (conversion : SizeConversion) (count : ℕ) :
    unitAtoi conversion text = .ok count ↔
      ∃ n unit rest, Taken text n unit rest ∧ count = conversion.toSize (n.scale unit) := by
  unfold unitAtoi Taken
  cases hscan : scanDouble text with
  | none => simp
  | some found =>
      obtain ⟨n, rest⟩ := found
      cases hunit : suffixUnit rest.head? with
      | none =>
          simp only [hunit]
          constructor
          · intro h
            cases h
          · rintro ⟨n', unit, rest', ⟨hfound, hunit'⟩, -⟩
            cases hfound
            rw [hunit] at hunit'
            cases hunit'
      | some unit =>
          simp only [hunit]
          constructor
          · intro h
            exact ⟨n, unit, rest, ⟨rfl, hunit⟩, (Except.ok.inj h).symm⟩
          · rintro ⟨n', unit', rest', ⟨hfound, hunit'⟩, rfl⟩
            cases hfound
            rw [hunit] at hunit'
            cases hunit'
            rfl

/-! ## What the options mean -/

variable (conversion : SizeConversion) (b : Build) (p : ParseState)

/-- The text is taken exactly if a size is written there, and that size is
stored. -/
def CountMeant (name : SizeOption) (stored : Settings → ℕ) (text : CString) : Prop :=
  ∀ b p size,
    (∃ p', parseSizeOption conversion b p name text = .ok p' ∧
        stored p'.test.settings = size) ↔ Written text size

/-- The block size that stands in the settings. -/
def chosenBlksize (protocol : ProtocolId) (blksize : ℤ) : ℤ :=
  if blksize = 0 then
    match protocol with
    | .udp => 0
    | .sctp => defaultSctpBlksize
    | .tcp => defaultTcpBlksize
  else blksize

def BlksizeInRange (protocol : ProtocolId) (size : ℕ) : Prop :=
  if protocol = .udp then
    size = 0 ∨ minUdpBlocksize ≤ (size : ℤ) ∧ (size : ℤ) ≤ maxUdpBlocksize
  else (size : ℤ) ≤ maxBlocksize

instance (protocol : ProtocolId) (size : ℕ) : Decidable (BlksizeInRange protocol size) := by
  unfold BlksizeInRange
  infer_instance

/-- The text is taken exactly if a size in the range of the protocol is
written there, and that size or the default is stored. -/
def LengthMeant (later : List Opt) (protocol : ProtocolId) (text : CString) : Prop :=
  ∀ blksize,
    (∃ t, parseLength conversion b p text later = .ok t ∧ t.settings.blksize = blksize) ↔
      ∃ size, Written text size ∧ BlksizeInRange protocol size ∧
        blksize = chosenBlksize protocol size

variable {conversion b p}

theorem parseSizeOption_ok_iff (name : SizeOption) (p' : ParseState) :
    parseSizeOption conversion b p name text = .ok p' ↔
      ∃ count, unitAtoi conversion text = .ok count ∧
        parseOption b p (name.opt count) = .ok p' := by
  unfold parseSizeOption
  cases unitAtoi conversion text with
  | error failure =>
      obtain ⟨code, errarg⟩ := failure
      simp [refuse]
  | ok count => simp

theorem applyBlksize_withBlksize (p : ParseState) (k : ℤ) :
    (applyBlksize (p.withBlksize k)).settings.blksize = chosenBlksize p.test.protocol k := rfl

theorem checkBlksize_withBlksize (q q' : ParseState) (k : ℤ) :
    checkBlksize (q.withBlksize k) = .ok q' ↔
      q' = q.withBlksize k ∧ BlksizePasses q.test.protocol k :=
  checkBlksize_ok_iff _ _

/-- What is left of the parsing when the size has been taken. -/
theorem parseLength_eq
    {later : List Opt} (hlater : ∀ o ∈ later, ∀ count, o ≠ .length count) {q : ParseState}
    (hloop : later.foldlM (parseOption b) (p.clientOnly p.test) = .ok q)
    (hscopes : checkScopes q = .ok q) {count : ℕ} (hunit : unitAtoi conversion text = .ok count) :
    parseLength conversion b p text later =
      (checkBlksize (q.withBlksize (int32 count))).map applyBlksize := by
  have hfold := foldlM_withBlksize b (p.clientOnly p.test) (int32 count) hlater
  have hcheck := checkScopes_withBlksize q (int32 count)
  rw [hloop] at hfold
  rw [hscopes] at hcheck
  unfold parseLength parseSizeOption
  rw [hunit]
  change ((later.foldlM (parseOption b)
    ((p.clientOnly p.test).withBlksize (int32 count))) >>= _) = _
  rw [hfold]
  change (checkScopes (q.withBlksize (int32 count)) >>= _) = _
  rw [hcheck]
  change (checkBlksize (q.withBlksize (int32 count)) >>= _) = _
  cases checkBlksize (q.withBlksize (int32 count)) <;> rfl

theorem parseLength_ok_iff
    {later : List Opt} (hlater : ∀ o ∈ later, ∀ count, o ≠ .length count) {q : ParseState}
    (hloop : later.foldlM (parseOption b) (p.clientOnly p.test) = .ok q)
    (hscopes : checkScopes q = .ok q) (blksize : ℤ) :
    (∃ t, parseLength conversion b p text later = .ok t ∧ t.settings.blksize = blksize) ↔
      ∃ count, unitAtoi conversion text = .ok count ∧
        BlksizePasses q.test.protocol (int32 count) ∧
        blksize = chosenBlksize q.test.protocol (int32 count) := by
  cases hunit : unitAtoi conversion text with
  | error failure =>
      obtain ⟨code, errarg⟩ := failure
      have hfails : parseLength conversion b p text later = .error (.errno code) := by
        unfold parseLength parseSizeOption
        rw [hunit]
        rfl
      rw [hfails]
      simp
  | ok count =>
      rw [parseLength_eq hlater hloop hscopes hunit]
      have hchosen : (applyBlksize (q.withBlksize (int32 count))).settings.blksize =
          chosenBlksize q.test.protocol (int32 count) :=
        applyBlksize_withBlksize q (int32 count)
      constructor
      · rintro ⟨t, ht, rfl⟩
        cases hok : checkBlksize (q.withBlksize (int32 count)) with
        | error e =>
            rw [hok] at ht
            cases ht
        | ok q' =>
            obtain ⟨rfl, hpasses⟩ := (checkBlksize_withBlksize _ _ _).mp hok
            rw [hok] at ht
            obtain rfl := Except.ok.inj ht
            exact ⟨count, rfl, hpasses, hchosen⟩
      · rintro ⟨count', hcount, hpasses, hblksize⟩
        obtain rfl := Except.ok.inj hcount
        have hok : checkBlksize (q.withBlksize (int32 count)) = .ok (q.withBlksize (int32 count)) :=
          (checkBlksize_withBlksize _ _ _).mpr ⟨rfl, hpasses⟩
        rw [hok]
        exact ⟨applyBlksize (q.withBlksize (int32 count)), rfl, hchosen.trans hblksize.symm⟩

/-- Sizes below `2^53` are converted exactly. -/
theorem toSize_eq (conversion : SizeConversion) {q : ℚ} {unit : ℕ} (hq : 0 ≤ q)
    (hsmall : ⌊q * unit⌋₊ < 9007199254740992) :
    conversion.toSize ((FloatValue.finite q).scale unit) = ⌊q * unit⌋₊ := by
  have hnonneg : 0 ≤ q * unit := mul_nonneg hq (Nat.cast_nonneg unit)
  have hlt : q * unit < 9007199254740992 := by
    have hfloor := (Nat.floor_lt hnonneg).mp hsmall
    exact_mod_cast hfloor
  apply conversion.toSize_finite
  · linarith
  · linarith

theorem Written.unique {size size' : ℕ} (h : Written text size) (h' : Written text size') :
    size = size' := by
  obtain ⟨q, unit, rest, htaken, -, rfl, -⟩ := h.taken
  obtain ⟨q', unit', rest', htaken', -, rfl, -⟩ := h'.taken
  obtain ⟨hq, rfl, -⟩ := htaken.unique htaken'
  cases hq
  rfl

theorem Written.unitAtoi {size : ℕ} (h : Written text size) (hsmall : size < 9007199254740992)
    (conversion : SizeConversion) :
    ∃ q unit rest, Taken text (.finite q) unit rest ∧ ¬ Loose text (.finite q) rest ∧
      conversion.toSize ((FloatValue.finite q).scale unit) = size := by
  obtain ⟨q, unit, rest, htaken, hnonneg, rfl, hstrict⟩ := h.taken
  exact ⟨q, unit, rest, htaken, hstrict, toSize_eq conversion hnonneg hsmall⟩

/-- What is stored is the count of the text. -/
theorem countMeant_iff
    (hsmall : ∀ size, Written text size → size < 9007199254740992) {name : SizeOption}
    {stored : Settings → ℕ}
    (hstores : ∀ b p count, ∃ p', parseOption b p (name.opt count) = .ok p' ∧
      stored p'.test.settings = uint64 count) (conversion : SizeConversion) (b : Build)
    (p : ParseState) :
    CountMeant conversion name stored text ↔
      ∀ n unit rest, Taken text n unit rest → ¬ Loose text n rest := by
  constructor
  · intro hmeant n unit rest htaken hloose
    obtain ⟨p', hparse, -⟩ := hstores b p (conversion.toSize (n.scale unit))
    have hok : parseSizeOption conversion b p name text = .ok p' :=
      (parseSizeOption_ok_iff name p').mpr
        ⟨_, (unitAtoi_ok_iff conversion _).mpr ⟨n, unit, rest, htaken, rfl⟩, hparse⟩
    obtain ⟨q, unit', rest', htaken', -, -, hstrict⟩ :=
      ((hmeant b p _).mp ⟨p', hok, rfl⟩).taken
    obtain ⟨rfl, -, rfl⟩ := htaken.unique htaken'
    exact hstrict hloose
  · intro hstrict b p size
    constructor
    · rintro ⟨p', hok, rfl⟩
      obtain ⟨count, hcount, hparse⟩ := (parseSizeOption_ok_iff name p').mp hok
      obtain ⟨n, unit, rest, htaken, rfl⟩ := (unitAtoi_ok_iff conversion count).mp hcount
      obtain ⟨q, rfl, hnonneg, hwritten⟩ := htaken.written (hstrict n unit rest htaken)
      obtain ⟨p'', hparse', hstored⟩ :=
        hstores b p (conversion.toSize ((FloatValue.finite q).scale unit))
      rw [hparse] at hparse'
      obtain rfl := Except.ok.inj hparse'
      have hlt := hsmall _ hwritten
      rw [hstored, toSize_eq conversion hnonneg hlt, uint64_eq]
      have hsame : ((⌊q * unit⌋₊ : ℤ) % 18446744073709551616).toNat = ⌊q * unit⌋₊ := by
        omega
      rwa [hsame]
    · intro hwritten
      have hlt := hsmall size hwritten
      obtain ⟨q, unit, rest, htaken, -, hsize⟩ := hwritten.unitAtoi hlt conversion
      obtain ⟨p', hparse, hstored⟩ := hstores b p size
      refine ⟨p', (parseSizeOption_ok_iff name p').mpr ⟨size, ?_, hparse⟩, ?_⟩
      · exact (unitAtoi_ok_iff conversion size).mpr ⟨_, unit, rest, htaken, hsize.symm⟩
      · rw [hstored, uint64_eq]
        omega

theorem blksizePasses_iff {protocol : ProtocolId} {size : ℕ} (hlt : size < 2147483648) :
    BlksizePasses protocol (int32 size) ↔ BlksizeInRange protocol size := by
  have hbounds : minUdpBlocksize = 16 := by decide
  have hint : int32 (size : ℤ) = size := int32_of_mem (by omega) (by omega)
  unfold BlksizePasses BlksizeInRange
  rw [hint, hbounds]
  split_ifs <;> omega

theorem BlksizeInRange.lt {protocol : ProtocolId} {size : ℕ} (h : BlksizeInRange protocol size) :
    size < 2147483648 := by
  have hbounds : maxUdpBlocksize = 65507 ∧ maxBlocksize = 1048576 := by decide
  unfold BlksizeInRange at h
  rw [hbounds.1, hbounds.2] at h
  split_ifs at h <;> omega

/-- Whenever the block size, cut to an `int`, passes the range check, the text
is strict and nothing was cut. -/
def LengthStrict (conversion : SizeConversion) (protocol : ProtocolId) (text : CString) : Prop :=
  ∀ n unit rest, Taken text n unit rest →
    BlksizePasses protocol (int32 (conversion.toSize (n.scale unit))) →
      ¬ Loose text n rest ∧ conversion.toSize (n.scale unit) < 2147483648

theorem lengthMeant_iff
    (hsmall : ∀ size, Written text size → size < 9007199254740992)
    {later : List Opt} (hlater : ∀ o ∈ later, ∀ count, o ≠ .length count) {q : ParseState}
    (hloop : later.foldlM (parseOption b) (p.clientOnly p.test) = .ok q)
    (hscopes : checkScopes q = .ok q) :
    LengthMeant conversion b p later q.test.protocol text ↔
      LengthStrict conversion q.test.protocol text := by
  have hparse := @parseLength_ok_iff text conversion b p later hlater q hloop hscopes
  unfold LengthMeant
  constructor
  · intro hmeant n unit rest htaken hpasses
    have hcount := (unitAtoi_ok_iff conversion _).mpr ⟨n, unit, rest, htaken, rfl⟩
    obtain ⟨size, hwritten, hrange, -⟩ :=
      (hmeant _).mp ((hparse _).mpr ⟨_, hcount, hpasses, rfl⟩)
    obtain ⟨q', unit', rest', htaken', hstrict, hsize⟩ :=
      hwritten.unitAtoi (hsmall size hwritten) conversion
    obtain ⟨rfl, rfl, rfl⟩ := htaken.unique htaken'
    rw [hsize]
    exact ⟨hstrict, hrange.lt⟩
  · intro hstrict blksize
    rw [hparse]
    constructor
    · rintro ⟨count, hcount, hpasses, hblksize⟩
      obtain ⟨n, unit, rest, htaken, rfl⟩ := (unitAtoi_ok_iff conversion count).mp hcount
      obtain ⟨hloose, hlt⟩ := hstrict n unit rest htaken hpasses
      obtain ⟨q', rfl, hnonneg, hwritten⟩ := htaken.written hloose
      have hsize := toSize_eq conversion hnonneg (hsmall _ hwritten)
      rw [hsize] at hlt hpasses hblksize
      have hint : int32 (⌊q' * unit⌋₊ : ℤ) = ⌊q' * unit⌋₊ := int32_of_mem (by omega) (by omega)
      rw [hint] at hblksize
      exact ⟨_, hwritten, (blksizePasses_iff hlt).mp hpasses, hblksize⟩
    · rintro ⟨size, hwritten, hrange, hblksize⟩
      obtain ⟨q', unit, rest, htaken, -, hsize⟩ :=
        hwritten.unitAtoi (hsmall size hwritten) conversion
      have hint : int32 (size : ℤ) = size := int32_of_mem (by omega) (by have := hrange.lt; omega)
      refine ⟨size, ?_, (blksizePasses_iff hrange.lt).mpr hrange, ?_⟩
      · exact (unitAtoi_ok_iff conversion size).mpr ⟨_, unit, rest, htaken, hsize.symm⟩
      · rw [hint]
        exact hblksize

/-- `-n` and `-k` mean what is written exactly if no number is taken from a
text that is not strict; `-l` does if moreover nothing is cut from a block size
that passes the range check. -/
theorem size_options_iff
    (conversion : SizeConversion) (b : Build) (p : ParseState) (text : CString)
    (hsmall : ∀ size, Written text size → size < 9007199254740992) :
    (CountMeant conversion .bytes Settings.bytes text ↔
        ∀ n unit rest, Taken text n unit rest → ¬ Loose text n rest) ∧
      (CountMeant conversion .blockcount Settings.blocks text ↔
        ∀ n unit rest, Taken text n unit rest → ¬ Loose text n rest) ∧
      ∀ (later : List Opt) (q : ParseState), (∀ o ∈ later, ∀ count, o ≠ .length count) →
        later.foldlM (parseOption b) (p.clientOnly p.test) = .ok q → checkScopes q = .ok q →
          (LengthMeant conversion b p later q.test.protocol text ↔
            LengthStrict conversion q.test.protocol text) := by
  refine ⟨?_, ?_, fun later q hlater hloop hscopes => lengthMeant_iff hsmall hlater hloop hscopes⟩
  · exact countMeant_iff hsmall (fun b p count => ⟨_, rfl, rfl⟩) conversion b p
  · exact countMeant_iff hsmall (fun b p count => ⟨_, rfl, rfl⟩) conversion b p

end Texts

/-- Values that do not fit wrap. -/
def wrappingConversion : SizeConversion where
  toSize
    | .finite q => uint64 (if 0 ≤ q then ⌊q⌋ else ⌈q⌉)
    | .infinite _ => 0
    | .nan => 0
  toSize_lt := by
    intro value
    cases value with
    | finite q => exact uint64_lt _
    | infinite negative => norm_num
    | nan => norm_num
  toSize_finite := by
    intro q hlow hhigh
    simp only [uint64_eq]
    split_ifs with hq
    · have hfloor : ⌊q⌋ < 18446744073709551616 := Int.floor_lt.mpr (by exact_mod_cast hhigh)
      have hpos : 0 ≤ ⌊q⌋ := Int.floor_nonneg.mpr hq
      rw [Int.emod_eq_of_lt hpos hfloor, Int.floor_toNat]
    · have hzero : ⌈q⌉ = 0 := Int.ceil_eq_zero_iff.mpr ⟨hlow, le_of_not_ge hq⟩
      rw [hzero, Nat.floor_of_nonpos (le_of_not_ge hq)]
      rfl

/-- A numeral of digits only. -/
def plainNumeral (digits : CString) (hdigits : ∀ c ∈ digits, isDigit 10 c = true)
    (hne : digits ≠ []) : Numeral :=
  ⟨[], digits, none, [], none, Or.inl rfl, hdigits, by simp, by simp, fun _ => rfl, by simpa⟩

theorem plainNumeral_value
    (digits : CString) (hdigits : ∀ c ∈ digits, isDigit 10 c = true) (hne : digits ≠ []) :
    (plainNumeral digits hdigits hne).value = digitsValue 10 digits := by
  simp [plainNumeral, Numeral.value, Numeral.magnitude, isNegative, FloatScan.signed]

def twoDigits : Numeral :=
  plainNumeral (ofString "2") (by decide) (by decide)

def bigDigits : Numeral :=
  plainNumeral (ofString "4097") (by decide) (by decide)

theorem twoDigits_value : twoDigits.value = 2 := by
  have hdigits : digitsValue 10 (ofString "2") = 2 := by decide
  unfold twoDigits
  rw [plainNumeral_value, hdigits]
  norm_num

theorem bigDigits_value : bigDigits.value = 4097 := by
  have hdigits : digitsValue 10 (ofString "4097") = 4097 := by decide +kernel
  unfold bigDigits
  rw [plainNumeral_value, hdigits]
  norm_num

theorem written_two : Written (ofString "2M") 2097152 := by
  refine ⟨twoDigits, ofString "M", 1024 ^ 2, rfl, ?_, ?_, ?_⟩
  · exact SuffixText.mega _ (Or.inr rfl)
  · rw [twoDigits_value]
    norm_num
  · rw [twoDigits_value]
    norm_num

theorem written_big : Written (ofString "4097M") 4296015872 := by
  refine ⟨bigDigits, ofString "M", 1024 ^ 2, rfl, ?_, ?_, ?_⟩
  · exact SuffixText.mega _ (Or.inr rfl)
  · rw [bigDigits_value]
    norm_num
  · rw [bigDigits_value]
    norm_num

/-- `-n 2M` and its like, on the command line of a client. -/
theorem size_options_two_mega :
    CountMeant wrappingConversion .bytes Settings.bytes (ofString "2M") ∧
      CountMeant wrappingConversion .blockcount Settings.blocks (ofString "2M") ∧
      LengthMeant wrappingConversion .msvc (ParseState.initial (iperfStart .msvc)) [] .tcp
        (ofString "2M") := by
  have hsmall : ∀ size, Written (ofString "2M") size → size < 9007199254740992 := by
    intro size hsize
    rw [hsize.unique written_two]
    norm_num
  obtain ⟨q, unit, rest, htaken, hq, hsize, hstrict⟩ := written_two.taken
  have hvalue : wrappingConversion.toSize ((FloatValue.finite q).scale unit) = 2097152 := by
    rw [hsize]
    exact toSize_eq wrappingConversion hq (by rw [← hsize]; norm_num)
  have hcounts : ∀ n unit rest, Taken (ofString "2M") n unit rest →
      ¬ Loose (ofString "2M") n rest := by
    intro n unit' rest' htaken'
    obtain ⟨rfl, rfl, rfl⟩ := htaken.unique htaken'
    exact hstrict
  have hlength : LengthStrict wrappingConversion .tcp (ofString "2M") := by
    intro n unit' rest' htaken' _
    obtain ⟨rfl, rfl, rfl⟩ := htaken.unique htaken'
    exact ⟨hstrict, by rw [hvalue]; norm_num⟩
  obtain ⟨hbytes, hblocks, hlater⟩ :=
    size_options_iff wrappingConversion .msvc (ParseState.initial (iperfStart .msvc))
      (ofString "2M") hsmall
  refine ⟨hbytes.mpr hcounts, hblocks.mpr hcounts, ?_⟩
  exact (hlater [] _ (fun _ ho => absurd ho List.not_mem_nil) rfl rfl).mpr hlength

/-- `-n 2Mx` is taken as `2M`, and `-l 4097M`, more than four gigabytes, as
one megabyte. -/
theorem size_options_misread :
    ((∃ p', parseSizeOption wrappingConversion .msvc (ParseState.initial (iperfStart .msvc)) .bytes
        (ofString "2Mx") = .ok p' ∧ p'.test.settings.bytes = 2097152) ∧
      ¬ ∃ size, Written (ofString "2Mx") size) ∧
    (∃ t, parseLength wrappingConversion .msvc (ParseState.initial (iperfStart .msvc))
        (ofString "4097M") [] = .ok t ∧ t.settings.blksize = 1048576) ∧
      Written (ofString "4097M") 4296015872 ∧ ¬ BlksizeInRange .tcp 4296015872 := by
  have htaken : Taken (ofString "2Mx") (.finite 2) 1048576 (ofString "Mx") := by
    have hstops : Stops (ofString "Mx") := by
      intro c hc
      cases hc
      decide
    have hscan := scanDouble_numeral twoDigits hstops
    rw [twoDigits_value] at hscan
    exact ⟨hscan, rfl⟩
  have hcount : ∀ (q : ℚ) (unit size : ℕ), 0 ≤ q → q * unit = size →
      size < 9007199254740992 →
        wrappingConversion.toSize ((FloatValue.finite q).scale unit) = size := by
    intro q unit size hq heq hlt
    have hfloor : ⌊q * unit⌋₊ = size := by
      rw [heq]
      exact Nat.floor_natCast size
    rw [← hfloor] at hlt ⊢
    exact toSize_eq wrappingConversion hq hlt
  refine ⟨⟨?_, ?_⟩, ?_, written_big, ?_⟩
  · refine ⟨_, (parseSizeOption_ok_iff .bytes _).mpr ⟨2097152, ?_, rfl⟩, rfl⟩
    refine (unitAtoi_ok_iff wrappingConversion 2097152).mpr ⟨_, _, _, htaken, ?_⟩
    exact (hcount 2 1048576 2097152 (by norm_num) (by norm_num) (by norm_num)).symm
  · rintro ⟨size, hwritten⟩
    obtain ⟨q, unit, rest, htaken', -, -, hstrict⟩ := hwritten.taken
    obtain ⟨-, -, rfl⟩ := htaken.unique htaken'
    exact hstrict (Or.inr (Or.inr (Or.inr (by decide))))
  · obtain ⟨q, unit, rest, hbig, -, hsize⟩ :=
      written_big.unitAtoi (by norm_num) wrappingConversion
    refine (parseLength_ok_iff (fun o ho => absurd ho List.not_mem_nil) rfl (by rfl) _).mpr ?_
    refine ⟨4296015872, ?_, by decide, by decide⟩
    exact (unitAtoi_ok_iff wrappingConversion _).mpr ⟨_, unit, rest, hbig, hsize.symm⟩
  · decide

end Iperf3
