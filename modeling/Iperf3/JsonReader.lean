import Iperf3.JsonItem

/-!
# Reading JSON from a text

The same language without a buffer: a reader takes the text that is left and
returns the item and the text behind it.  The parser refines these functions,
and what is accepted is proved about them.
-/

namespace Iperf3

open FloatScan JsonByte

abbrev Reader (α : Type) : Type :=
  List UInt8 → Option (α × List UInt8)

namespace JsonReader

def skipSpaces (s : List UInt8) : List UInt8 :=
  s.dropWhile fun c => c ≤ space

/-! ## Numbers -/

def numberPrefix (s : List UInt8) : List UInt8 :=
  (s.take 63).takeWhile isNumber

def readNumber : Reader JsonItem := fun s =>
  let text := CString.ofBytes (numberPrefix s)
  (strtod text).map fun (number, rest) =>
    (.number number, s.drop (text.length - rest.length))

/-! ## Strings -/

/-- What stands before the closing quote and what stands behind it. -/
def splitString : List UInt8 → Option (List UInt8 × List UInt8)
  | [] => none
  | c :: s =>
      if c = quote then some ([], s)
      else if c = backslash then
        match s with
        | [] => none
        | d :: s => (splitString s).map fun (inner, rest) => (c :: d :: inner, rest)
      else (splitString s).map fun (inner, rest) => (c :: inner, rest)

/-- The number that hexadecimal digits make, or zero. -/
def hexFrom : ℕ → List UInt8 → ℕ
  | h, [] => h
  | h, c :: s =>
      match hexDigit c with
      | none => 0
      | some digit => hexFrom (h * 16 + digit) s

def hex4 (s : List UInt8) : ℕ :=
  hexFrom 0 (s.take 4)

/-- The bytes for what stands behind `\u`, and the rest. -/
def readUtf16 (s : List UInt8) : Option (List UInt8 × List UInt8) :=
  if s.length < 4 then none
  else if 0xDC00 ≤ hex4 s ∧ hex4 s ≤ 0xDFFF then none
  else if 0xD800 ≤ hex4 s ∧ hex4 s ≤ 0xDBFF then
    if s.length < 10 then none
    else if s[4]? ≠ some backslash ∨ s[5]? ≠ some letterU then none
    else if hex4 (s.drop 6) < 0xDC00 ∨ 0xDFFF < hex4 (s.drop 6) then none
    else
      (encodeUtf8 (0x10000 +
        (((hex4 s &&& 0x3FF) <<< 10) ||| (hex4 (s.drop 6) &&& 0x3FF)))).map fun bytes =>
          (bytes, s.drop 10)
  else (encodeUtf8 (hex4 s)).map fun bytes => (bytes, s.drop 4)

theorem readUtf16_length {s bytes rest : List UInt8} (h : readUtf16 s = some (bytes, rest)) :
    rest.length ≤ s.length := by
  unfold readUtf16 at h
  split_ifs at h
  · obtain ⟨_, _, heq⟩ := Option.map_eq_some_iff.mp h
    cases heq
    rw [List.length_drop]
    omega
  · obtain ⟨_, _, heq⟩ := Option.map_eq_some_iff.mp h
    cases heq
    rw [List.length_drop]
    omega

/-- The characters of a literal.  After the digits of `\u` a single backslash
can be left before the closing quote, which it then stands for. -/
def decode (s : List UInt8) : Option (List UInt8) :=
  match s with
  | [] => some []
  | c :: rest =>
      if c ≠ backslash then (decode rest).map (c :: ·)
      else
        match rest with
        | [] => some [quote]
        | letter :: rest =>
            match unescaped letter with
            | some d => (decode rest).map (d :: ·)
            | none =>
                if letter = letterU then
                  match _h : readUtf16 rest with
                  | none => none
                  | some (bytes, behind) => (decode behind).map (bytes ++ ·)
                else none
termination_by s.length
decreasing_by
  · simp
  · simp
  · have := readUtf16_length _h
    simp only [List.length_cons]
    omega

theorem decode_nil : decode [] = some [] := by
  rw [decode.eq_def]

theorem decode_cons {c : UInt8} (hc : c ≠ backslash) (s : List UInt8) :
    decode (c :: s) = (decode s).map (c :: ·) := by
  rw [decode.eq_def]
  exact if_pos hc

theorem decode_backslash : decode [backslash] = some [quote] := by
  rw [decode.eq_def]
  dsimp only
  rw [if_neg (by decide)]

theorem decode_escape {letter d : UInt8} (h : unescaped letter = some d) (s : List UInt8) :
    decode (backslash :: letter :: s) = (decode s).map (d :: ·) := by
  rw [decode.eq_def]
  dsimp only
  rw [if_neg (by decide)]
  simp only [h]

theorem decode_utf16 (s : List UInt8) :
    decode (backslash :: letterU :: s) =
      match readUtf16 s with
      | none => none
      | some (bytes, behind) => (decode behind).map (bytes ++ ·) := by
  have hnone : unescaped letterU = none := by decide
  rw [decode.eq_def]
  dsimp only
  rw [if_neg (by decide)]
  simp only [hnone, if_pos]
  split <;> rename_i heq <;> simp only [heq]

theorem decode_bad {letter : UInt8} (h : unescaped letter = none) (hu : letter ≠ letterU)
    (s : List UInt8) : decode (backslash :: letter :: s) = none := by
  rw [decode.eq_def]
  dsimp only
  rw [if_neg (by decide)]
  simp only [h, if_neg hu]

def readCString : Reader CString
  | c :: s =>
      if c = quote then do
        let (inner, rest) ← splitString s
        let output ← decode inner
        some (CString.ofBytes output, rest)
      else none
  | [] => none

def readString : Reader JsonItem := fun s =>
  (readCString s).map fun (string, rest) => (.string string, rest)

/-! ## Arrays and objects -/

def startsWith (word s : List UInt8) : Bool :=
  s.take word.length = word

/-- The text behind the byte `c`, if that comes first. -/
def behind (c : UInt8) (s : List UInt8) : Option (List UInt8) :=
  match s with
  | [] => none
  | d :: rest => if d = c then some rest else none

theorem behind_eq_some {c : UInt8} {s rest : List UInt8} :
    behind c s = some rest ↔ s = c :: rest := by
  cases s with
  | nil => simp [behind]
  | cons d s =>
      unfold behind
      by_cases hd : d = c
      · simp [hd]
      · simp [hd]

theorem behind_eq_none {c : UInt8} {s : List UInt8} : behind c s = none ↔ s.head? ≠ some c := by
  cases s with
  | nil => simp [behind]
  | cons d s =>
      unfold behind
      by_cases hd : d = c
      · simp [hd]
      · simp [hd]

/-- Elements with commas between them. -/
def readElements {α : Type} (element : Reader α) : ℕ → Reader (List α)
  | 0, _ => none
  | fuel + 1, s => do
      let (item, rest) ← element (skipSpaces s)
      match behind comma (skipSpaces rest) with
      | none => some ([item], skipSpaces rest)
      | some rest =>
          (readElements element fuel rest).map fun (items, rest) => (item :: items, rest)

/-- The elements from behind the opening bracket to the closing one. -/
def readContainer {α : Type} (close : UInt8) (element : Reader α) : Reader (List α) := fun s =>
  match behind close (skipSpaces s) with
  | some rest => some ([], rest)
  | none => do
      let (items, rest) ← readElements element (s.length + 1) (skipSpaces s)
      (behind close rest).map fun rest => (items, rest)

def readMember (value : Reader JsonItem) : Reader (CString × JsonItem) := fun s => do
  let (name, rest) ← readCString s
  let rest ← behind colon (skipSpaces rest)
  (value (skipSpaces rest)).map fun (item, rest) => ((name, item), rest)

/-! ## Values -/

def startsNumber (s : List UInt8) : Bool :=
  s.head?.any fun c => c = minus || isDigit c

/-- An array or an object of values. -/
def readNested (value : Reader JsonItem) : Reader JsonItem := fun s =>
  if s.head? = some openBracket then
    (readContainer closeBracket value s.tail).map fun (items, rest) => (.array items, rest)
  else if s.head? = some openBrace then
    (readContainer closeBrace (readMember value) s.tail).map fun (members, rest) =>
      (.object members, rest)
  else none

/-- A value, for which `nested` reads the arrays and objects. -/
def readWith (nested : Reader JsonItem) : Reader JsonItem := fun s =>
  if startsWith nullWord s then some (.null, s.drop 4)
  else if startsWith falseWord s then some (.bool false, s.drop 5)
  else if startsWith trueWord s then some (.bool true, s.drop 4)
  else if s.head? = some quote then readString s
  else if startsNumber s then readNumber s
  else nested s

/-- A value in which at most `levels` arrays and objects are open at once. -/
def readValue : ℕ → Reader JsonItem
  | 0 => readWith fun _ => none
  | levels + 1 => readWith (readNested (readValue levels))

def bom : List UInt8 :=
  [0xEF, 0xBB, 0xBF]

def skipBom (s : List UInt8) : List UInt8 :=
  if 4 ≤ s.length ∧ startsWith bom s then s.drop 3 else s

/-- The item at the beginning of a text.  What is behind it is not looked at. -/
def readText (s : List UInt8) : Option JsonItem :=
  (readValue JsonItem.nestingLimit (skipSpaces (skipBom s))).map Prod.fst

end JsonReader

end Iperf3
