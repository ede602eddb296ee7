import Iperf3.CString
import Mathlib.Tactic

/-!
# The file of authorized users

`checkAuthentication` follows `check_authentication`.  The digest is a
parameter, and the clock, the time in the token and the threshold are exact
numbers.  A comparison with a missing field is `none`.
-/

namespace Iperf3

/-! ## Reading and splitting -/

/-- `fgets` into a buffer of this size: up to a newline and with it, as far
as there is room. -/
def fgets (size : ℕ) (file : List UInt8) : Option (List UInt8 × List UInt8) :=
  if file = [] then none
  else
    let line := file.takeWhile (· ≠ 10)
    let buf := (line ++ (file.drop line.length).take 1).take (size - 1)
    some (buf, file.drop buf.length)

/-- What the calls of `fgets` give until the file ends. -/
def readBuffers (size : ℕ) : ℕ → List UInt8 → List (List UInt8)
  | 0, _ => []
  | fuel + 1, file =>
      match fgets size file with
      | none => []
      | some (buf, rest) => buf :: readBuffers size fuel rest

/-- One call of `strtok`: the token, and where the next call goes on. -/
def strtok (delims : CString) (s : CString) : Option (CString × CString) :=
  let s := s.dropWhile (· ∈ delims)
  if s = [] then none
  else some (s.takeWhile (· ∉ delims), (s.dropWhile (· ∉ delims)).tail)

def comma : CChar :=
  CChar.ofChar ',' (by decide)

/-- The part before the first line feed or carriage return. -/
def stripLine (s : CString) : CString :=
  s.takeWhile fun c => c.char ≠ '\n' && c.char ≠ '\r'

/-! ## The check -/

abbrev Digest : Type :=
  List UInt8 → Fin 32 → UInt8

def hexDigit (n : ℕ) : CChar :=
  (CString.ofString "0123456789abcdef").getD n comma

/-- The digest in hexadecimal, two characters for each of its 32 bytes. -/
def sha256 (digest : Digest) (s : CString) : CString :=
  (List.finRange 32).flatMap fun i =>
    [hexDigit ((digest s.bytes i).toNat / 16), hexDigit ((digest s.bytes i).toNat % 16)]

/-- The name in braces, and the password. -/
def salted (username password : CString) : CString :=
  CString.ofString "\x7b" ++ username ++ CString.ofString "\x7d" ++ password

/-- Whether a line names the user with the hash; `none` is a comparison with
a field that is not there. -/
def checkLine (username passwordHash : CString) (buf : CString) : Option Bool :=
  if buf = [] ∨ buf.strchr comma = none ∨ buf.head?.any (fun c => c.char = '#') then some false
  else
    match strtok [comma] buf with
    | none => none
    | some (sUsername, rest) =>
        if username = sUsername then
          match strtok [comma] rest with
          | none => none
          | some (sPassword, _) => some (passwordHash = sPassword)
        else some false

def checkLines (username passwordHash : CString) : List CString → Option ℤ
  | [] => some 3
  | buf :: bufs =>
      match checkLine username passwordHash buf with
      | none => none
      | some true => some 0
      | some false => checkLines username passwordHash bufs

/-- `file` is `none` when it cannot be opened. -/
def checkAuthentication (digest : Digest) (utcSeconds : ℤ) (username password : CString)
    (ts : ℤ) (file : Option (List UInt8)) (skewThreshold : ℤ) : Option ℤ :=
  if skewThreshold < utcSeconds - ts ∨ utcSeconds - ts < -skewThreshold then some 1
  else
    match file with
    | none => some 2
    | some content =>
        checkLines username (sha256 digest (salted username password))
          ((readBuffers 1024 content.length content).map fun buf =>
            stripLine (CString.ofBytes buf))

/-! ## What the file says -/

/-- The text of each line of a file. -/
def lineTexts (content : List UInt8) : List CString :=
  (content.splitOn 10).map fun line => stripLine (CString.ofBytes line)

/-- The fields between commas that are not empty. -/
def fields (text : CString) : List CString :=
  (text.splitOn comma).filter (· ≠ [])

def IsComment (text : CString) : Prop :=
  ∃ c ∈ text.head?, c.char = '#'

/-- The line names this user with this hash. -/
def Names (username passwordHash text : CString) : Prop :=
  ¬ IsComment text ∧ (fields text)[0]? = some username ∧ (fields text)[1]? = some passwordHash

/-- A line with a comma and no field, or with the name as its only field. -/
def LacksField (username text : CString) : Prop :=
  ¬ IsComment text ∧ comma ∈ text ∧ (fields text = [] ∨ fields text = [username])

/-! ## Fields and tokens -/

theorem fields_comma (s : CString) : fields (comma :: s) = fields s := by
  unfold fields
  rw [List.splitOn_eq_splitOnP, List.splitOn_eq_splitOnP]
  have hsplit : ([] ++ comma :: s).splitOnP (· == comma) = _ :=
    List.splitOnP_append_cons [] s (by simp)
  rw [List.nil_append] at hsplit
  rw [hsplit, List.splitOnP_nil]
  simp

theorem fields_of_not_mem {s : CString} (h : comma ∉ s) :
    fields s = if s = [] then [] else [s] := by
  have hsingle : s.splitOn comma = [s] := by
    rw [List.splitOn_eq_splitOnP]
    refine List.splitOnP_eq_singleton fun c hc => ?_
    simpa using ne_of_mem_of_not_mem hc h
  unfold fields
  rw [hsingle]
  by_cases hs : s = [] <;> simp [hs]

theorem fields_append {token : CString} (htoken : token ≠ []) (h : comma ∉ token)
    (rest : CString) : fields (token ++ comma :: rest) = token :: fields rest := by
  have hsplit : (token ++ comma :: rest).splitOn comma = [token] ++ rest.splitOn comma := by
    rw [List.splitOn_eq_splitOnP, List.splitOn_eq_splitOnP,
      List.splitOnP_append_cons token rest (by simp)]
    congr 1
    refine List.splitOnP_eq_singleton fun c hc => ?_
    simpa using ne_of_mem_of_not_mem hc h
  unfold fields
  rw [hsplit, List.filter_append]
  simp [htoken]

theorem fields_dropWhile (s : CString) : fields (s.dropWhile (· ∈ [comma])) = fields s := by
  induction s with
  | nil => rfl
  | cons c s ih =>
      by_cases hc : c = comma
      · subst hc
        rw [fields_comma]
        simpa using ih
      · simp [hc]

/-- `strtok` gives the first field, and behind it are the others. -/
theorem strtok_fields (s : CString) :
    (strtok [comma] s = none ∧ fields s = []) ∨
      ∃ token rest, strtok [comma] s = some (token, rest) ∧ fields s = token :: fields rest := by
  rw [← fields_dropWhile s]
  unfold strtok
  dsimp only
  cases hdrop : s.dropWhile (· ∈ [comma]) with
  | nil => exact Or.inl ⟨rfl, rfl⟩
  | cons c more =>
      have hc : c ≠ comma := by
        have hhead := List.head?_dropWhile_not (fun c => decide (c ∈ [comma])) s
        rw [hdrop] at hhead
        simpa using hhead
      rw [if_neg (List.cons_ne_nil c more)]
      refine Or.inr ⟨_, _, rfl, ?_⟩
      let front := (c :: more).takeWhile (· ∉ [comma])
      have hfront : front ≠ [] := by simp [front, hc]
      have hnone : comma ∉ front := by
        intro hmem
        have hall := List.all_eq_true.mp List.all_takeWhile comma hmem
        simp at hall
      have hwhole : front ++ (c :: more).dropWhile (· ∉ [comma]) = c :: more :=
        List.takeWhile_append_dropWhile
      change fields (c :: more) = front :: fields ((c :: more).dropWhile (· ∉ [comma])).tail
      cases hrest : (c :: more).dropWhile (· ∉ [comma]) with
      | nil =>
          rw [hrest, List.append_nil] at hwhole
          rw [← hwhole, fields_of_not_mem hnone, if_neg hfront]
          rfl
      | cons d rest =>
          have hd : d = comma := by
            have hhead := List.head?_dropWhile_not (fun c => decide (c ∉ [comma])) (c :: more)
            rw [hrest] at hhead
            simpa using hhead
          rw [hrest, hd] at hwhole
          rw [← hwhole, fields_append hfront hnone]
          rfl

/-! ## One line -/

theorem not_comment_iff (text : CString) :
    ¬ IsComment text ↔ text.head?.any (fun c => c.char = '#') = false := by
  cases text <;> simp [IsComment]

/-- What a line gives: nothing where a field is missing that is compared, and
otherwise whether it names the user with the hash. -/
theorem checkLine_spec (username passwordHash text : CString) :
    (checkLine username passwordHash text = none ↔ LacksField username text) ∧
      (checkLine username passwordHash text = some true ↔
        Names username passwordHash text) := by
  unfold checkLine LacksField Names
  rw [not_comment_iff]
  have hstrchr := CString.strchr_eq_none_iff (s := text) (c := comma)
  by_cases hcomma : comma ∈ text
  · have hsome : text ≠ [] := List.ne_nil_of_mem hcomma
    cases hcomment : text.head?.any fun c => c.char = '#' with
    | true => simp
    | false =>
        rw [if_neg (by simp [hsome, hstrchr, hcomma])]
        rcases strtok_fields text with ⟨htoken, hfields⟩ | ⟨token, rest, htoken, hfields⟩
        · rw [htoken, hfields]
          simp [hcomma]
        · rw [htoken, hfields]
          dsimp only
          by_cases hname : username = token
          · rw [if_pos hname]
            rcases strtok_fields rest with ⟨hsecond, hempty⟩ | ⟨second, more, hsecond, hmore⟩
            · rw [hsecond, hempty]
              simp [hcomma, hname]
            · rw [hsecond, hmore]
              simp [hcomma, hname, eq_comm]
          · rw [if_neg hname]
            have hne : token ≠ username := fun h => hname h.symm
            simp [hne]
  · have hfew : ∀ field : CString, (fields text)[1]? ≠ some field := by
      intro field
      rw [fields_of_not_mem hcomma]
      split_ifs <;> simp
    rw [if_pos (Or.inr (Or.inl (hstrchr.mpr hcomma)))]
    simp [hcomma, hfew]

/-! ## All lines -/

/-- A line that lacks a field stands only behind one that names the user. -/
def FieldsPresent (username passwordHash : CString) (texts : List CString) : Prop :=
  ∀ earlier text later, texts = earlier ++ text :: later → LacksField username text →
    ∃ t ∈ earlier, Names username passwordHash t

theorem fieldsPresent_cons
    {username passwordHash text : CString} {texts : List CString} :
    FieldsPresent username passwordHash (text :: texts) ↔
      ¬ LacksField username text ∧
        (Names username passwordHash text ∨ FieldsPresent username passwordHash texts) := by
  constructor
  · intro h
    refine ⟨fun hlacks => ?_, ?_⟩
    · obtain ⟨t, ht, -⟩ := h [] text texts rfl hlacks
      cases ht
    · by_cases hnames : Names username passwordHash text
      · exact Or.inl hnames
      · refine Or.inr fun earlier later rest hsplit hlacks => ?_
        obtain ⟨t, ht, hn⟩ := h (text :: earlier) later rest (by rw [hsplit]; rfl) hlacks
        rcases List.mem_cons.mp ht with rfl | ht
        · exact absurd hn hnames
        · exact ⟨t, ht, hn⟩
  · rintro ⟨hpresent, hrest⟩ earlier line later hsplit hlacks
    cases earlier with
    | nil =>
        obtain ⟨rfl, rfl⟩ := List.cons.inj hsplit
        exact absurd hlacks hpresent
    | cons first earlier =>
        obtain ⟨rfl, htail⟩ := List.cons.inj hsplit
        rcases hrest with hnames | hrest
        · exact ⟨text, List.mem_cons_self, hnames⟩
        · obtain ⟨t, ht, hn⟩ := hrest earlier line later htail hlacks
          exact ⟨t, List.mem_cons_of_mem _ ht, hn⟩

theorem checkLines_spec (username passwordHash : CString) (texts : List CString) :
    (checkLines username passwordHash texts ≠ none ↔
        FieldsPresent username passwordHash texts) ∧
      (checkLines username passwordHash texts ≠ none →
        (checkLines username passwordHash texts = some 0 ↔
          ∃ text ∈ texts, Names username passwordHash text)) := by
  induction texts with
  | nil =>
      refine ⟨iff_of_true (by simp [checkLines]) ?_, fun _ => by simp [checkLines]⟩
      intro earlier text later hsplit
      simp at hsplit
  | cons text texts ih =>
      obtain ⟨hlacks, hnames⟩ := checkLine_spec username passwordHash text
      rw [fieldsPresent_cons, ← hlacks, ← hnames]
      unfold checkLines
      simp only [List.mem_cons, exists_eq_or_imp, ← hnames]
      cases hline : checkLine username passwordHash text with
      | none => simp
      | some found =>
          cases found with
          | true => simp
          | false => simpa using ih

/-! ## The lines of a file -/

theorem stripLine_newline (line : List UInt8) :
    stripLine (CString.ofBytes (line ++ [10])) = stripLine (CString.ofBytes line) := by
  induction line with
  | nil => decide
  | cons byte line ih =>
      rw [List.cons_append]
      by_cases hbyte : byte = 0
      · subst hbyte
        rfl
      · obtain ⟨c, hc⟩ := CString.ofBytes_cons hbyte
        unfold stripLine at ih ⊢
        rw [hc, hc, List.takeWhile_cons, List.takeWhile_cons, ih]

theorem lines_cases (content : List UInt8) :
    (10 ∉ content ∧ content.splitOn 10 = [content]) ∨
      ∃ line rest, 10 ∉ line ∧ content = line ++ 10 :: rest ∧
        content.splitOn 10 = line :: rest.splitOn 10 := by
  by_cases hlast : 10 ∈ content
  · obtain ⟨line, rest, rfl, hline⟩ := List.eq_append_cons_of_mem hlast
    refine Or.inr ⟨line, rest, hline, rfl, ?_⟩
    rw [List.splitOn_eq_splitOnP, List.splitOn_eq_splitOnP,
      List.splitOnP_append_cons line rest (by simp)]
    refine congrArg (· ++ _) (List.splitOnP_eq_singleton fun byte hbyte => ?_)
    simpa using ne_of_mem_of_not_mem hbyte hline
  · refine Or.inl ⟨hlast, ?_⟩
    rw [List.splitOn_eq_splitOnP]
    refine List.splitOnP_eq_singleton fun byte hbyte => ?_
    simpa using ne_of_mem_of_not_mem hbyte hlast

theorem takeWhile_line {line : List UInt8} (rest : List UInt8) (hline : 10 ∉ line) :
    (line ++ rest).takeWhile (· ≠ 10) = line ++ rest.takeWhile (· ≠ 10) := by
  refine List.takeWhile_append_of_pos fun byte hbyte => ?_
  simpa using ne_of_mem_of_not_mem hbyte hline

theorem fgets_last
    {size : ℕ} {line : List UInt8} (hne : line ≠ []) (hline : 10 ∉ line)
    (hsize : line.length < size) : fgets size line = some (line, []) := by
  have hwhole : line.takeWhile (· ≠ 10) = line := by
    simpa using takeWhile_line [] hline
  simp only [fgets, if_neg hne, hwhole, List.drop_length, List.take_nil, List.append_nil]
  rw [List.take_of_length_le (by omega), List.drop_length]

theorem fgets_newline
    {size : ℕ} {line : List UInt8} (rest : List UInt8) (hline : 10 ∉ line)
    (hsize : line.length + 1 < size) :
    fgets size (line ++ 10 :: rest) = some (line ++ [10], rest) := by
  have hfirst : (line ++ 10 :: rest).takeWhile (· ≠ 10) = line := by
    rw [takeWhile_line (10 :: rest) hline]
    simp
  have hbuf : (line ++ [(10 : UInt8)]).take (size - 1) = line ++ [10] :=
    List.take_of_length_le (by simp; omega)
  simp only [fgets, if_neg (List.append_ne_nil_of_right_ne_nil line (List.cons_ne_nil 10 rest)),
    hfirst, List.drop_left, List.take_one, List.head?_cons, Option.toList_some, hbuf]
  have hdrop : (line ++ [10] ++ rest).drop (line ++ [10]).length = rest := List.drop_left
  rw [← List.append_cons] at hdrop
  rw [hdrop]

theorem checkLines_readBuffers
    (username passwordHash : CString) {fuel : ℕ} {content : List UInt8}
    (hfuel : content.length ≤ fuel)
    (hshort : ∀ line ∈ content.splitOn 10, line.length ≤ 1022) :
    checkLines username passwordHash ((readBuffers 1024 fuel content).map fun buf =>
        stripLine (CString.ofBytes buf)) =
      checkLines username passwordHash (lineTexts content) := by
  induction fuel generalizing content with
  | zero =>
      obtain rfl := List.length_eq_zero_iff.mp (Nat.le_zero.mp hfuel)
      rfl
  | succ fuel ih =>
      unfold lineTexts
      rcases lines_cases content with ⟨hline, hsplit⟩ | ⟨line, rest, hline, rfl, hsplit⟩
      · rw [hsplit] at hshort ⊢
        have hlength := hshort content (List.mem_singleton_self content)
        by_cases hempty : content = []
        · subst hempty
          rfl
        · have hend : readBuffers 1024 fuel [] = [] := by
            cases fuel <;> rfl
          simp only [readBuffers, fgets_last hempty hline (by omega : content.length < 1024), hend]
      · rw [hsplit] at hshort ⊢
        have hlength := hshort line List.mem_cons_self
        simp only [readBuffers, fgets_newline rest hline (by omega : line.length + 1 < 1024),
          List.map_cons, stripLine_newline]
        simp only [List.length_append, List.length_cons] at hfuel
        have hrest := @ih rest (by omega)
          fun l hl => hshort l (List.mem_cons_of_mem _ hl)
        unfold checkLines
        rw [hrest]
        rfl

/-! ## The check is exact -/

def fileTexts : Option (List UInt8) → List CString
  | none => []
  | some content => lineTexts content

def InTime (utcSeconds ts skewThreshold : ℤ) : Prop :=
  utcSeconds - ts ≤ skewThreshold ∧ -skewThreshold ≤ utcSeconds - ts

/-- No missing field is compared, and a user is let in exactly in time and
with a line that names the user with the hash of the password. -/
structure ExactCheck (inTime : Prop) (username passwordHash : CString) (texts : List CString)
    (result : Option ℤ) : Prop where
  compares : result ≠ none
  exact : result = some 0 ↔ inTime ∧ ∃ text ∈ texts, Names username passwordHash text

/-- The check is exact unless it comes in time to a line that lacks a field
before one that names the user. -/
theorem check_authentication_exact_iff
    (digest : Digest) (utcSeconds : ℤ) (username password : CString) (ts : ℤ)
    {file : Option (List UInt8)} (skewThreshold : ℤ)
    (hshort : ∀ content ∈ file, ∀ line ∈ content.splitOn 10, line.length ≤ 1022) :
    ExactCheck (InTime utcSeconds ts skewThreshold) username
        (sha256 digest (salted username password)) (fileTexts file)
        (checkAuthentication digest utcSeconds username password ts file skewThreshold) ↔
      (InTime utcSeconds ts skewThreshold →
        FieldsPresent username (sha256 digest (salted username password)) (fileTexts file)) := by
  by_cases htime : InTime utcSeconds ts skewThreshold
  · have hopen : ¬ (skewThreshold < utcSeconds - ts ∨ utcSeconds - ts < -skewThreshold) := by
      unfold InTime at htime
      omega
    unfold checkAuthentication
    rw [if_neg hopen]
    cases file with
    | none =>
        refine iff_of_true ⟨by simp, by simp [fileTexts]⟩ fun _ earlier text later hsplit => ?_
        simp [fileTexts] at hsplit
    | some content =>
        dsimp only
        rw [checkLines_readBuffers _ _ le_rfl (hshort content rfl)]
        obtain ⟨hpresent, hnames⟩ := checkLines_spec username
          (sha256 digest (salted username password)) (lineTexts content)
        constructor
        · intro h _
          exact hpresent.mp h.compares
        · intro h
          have hcompares := hpresent.mpr (h htime)
          exact ⟨hcompares, (hnames hcompares).trans (and_iff_right htime).symm⟩
  · have hlate : skewThreshold < utcSeconds - ts ∨ utcSeconds - ts < -skewThreshold := by
      unfold InTime at htime
      omega
    unfold checkAuthentication
    rw [if_pos hlate]
    exact iff_of_true ⟨by simp, by simp [htime]⟩ fun h => absurd h htime

/-- A comment, a malformed line, and a user with the hash that the digest of
`exampleDigest` is. -/
def exampleUsers : List UInt8 :=
  (CString.ofString ("# username,sha256\nmario\r\nmario," ++
    String.ofList (List.replicate 64 'a') ++ "\r\n")).bytes

def exampleDigest : Digest :=
  fun _ _ => 0xaa

theorem check_authentication_mario :
    ExactCheck (InTime 1700000005 1700000000 10) (.ofString "mario")
        (sha256 exampleDigest (salted (.ofString "mario") (.ofString "rossi")))
        (fileTexts (some exampleUsers))
        (checkAuthentication exampleDigest 1700000005 (.ofString "mario") (.ofString "rossi")
          1700000000 (some exampleUsers) 10) ∧
      checkAuthentication exampleDigest 1700000005 (.ofString "mario") (.ofString "rossi")
        1700000000 (some exampleUsers) 10 = some 0 := by
  have hpresent := (checkLines_spec (.ofString "mario")
    (sha256 exampleDigest (salted (.ofString "mario") (.ofString "rossi")))
    (fileTexts (some exampleUsers))).1.mp (by decide +kernel)
  refine ⟨(check_authentication_exact_iff _ _ _ _ _ _ ?_).mpr fun _ => hpresent, ?_⟩
  · intro content hcontent
    obtain rfl := Option.mem_some_iff.mp hcontent
    decide +kernel
  · decide +kernel

/-- A user whose line ends behind the comma, and a line that is only a comma:
the comparison is with no field at all. -/
theorem check_authentication_missing_field :
    checkAuthentication exampleDigest 1700000005 (.ofString "mario") (.ofString "rossi")
        1700000000 (some (CString.ofString "mario,\n").bytes) 10 = none ∧
      checkAuthentication exampleDigest 1700000005 (.ofString "mario") (.ofString "rossi")
        1700000000 (some (CString.ofString ",\n").bytes) 10 = none ∧
      (∀ line ∈ (CString.ofString "mario,\n").bytes.splitOn 10, line.length ≤ 1022) ∧
      ¬ ExactCheck (InTime 1700000005 1700000000 10) (.ofString "mario")
          (sha256 exampleDigest (salted (.ofString "mario") (.ofString "rossi")))
          (fileTexts (some (CString.ofString "mario,\n").bytes))
          (checkAuthentication exampleDigest 1700000005 (.ofString "mario") (.ofString "rossi")
            1700000000 (some (CString.ofString "mario,\n").bytes) 10) := by
  have hnone : checkAuthentication exampleDigest 1700000005 (.ofString "mario")
      (.ofString "rossi") 1700000000 (some (CString.ofString "mario,\n").bytes) 10 = none := by
    decide +kernel
  refine ⟨hnone, by decide +kernel, by decide +kernel, ?_⟩
  rw [hnone]
  exact fun h => h.compares rfl

end Iperf3
