import Iperf3.JsonItem

/-!
# The JSON parser

The buffer is the memory that the text stands in, its length, and an offset.
Every function returns the item, or nothing when it fails, and the buffer
behind it.  Touching memory outside of the text or of the copy of a string
gives no result at all.
-/

namespace Iperf3

open FloatScan JsonByte

structure ParseBuffer where
  content : List UInt8
  length : ℕ
  offset : ℕ
  depth : ℕ

namespace ParseBuffer

variable (b : ParseBuffer)

def canRead (size : ℕ) : Bool :=
  b.offset + size ≤ b.length

def canAccessAtIndex (index : ℕ) : Bool :=
  b.offset + index < b.length

/-- The byte at an index from the offset. -/
def at? (index : ℕ) : Option UInt8 :=
  b.content[b.offset + index]?

def advance (n : ℕ) : ParseBuffer :=
  { b with offset := b.offset + n }

def stepBack : ParseBuffer :=
  { b with offset := b.offset - 1 }

def enter : ParseBuffer :=
  { b with depth := b.depth + 1 }

def leave : ParseBuffer :=
  { b with depth := b.depth - 1 }

/-- Whether there is a byte at the offset and it is `c`. -/
def standsAt (c : UInt8) : Option Bool :=
  if b.canAccessAtIndex 0 then (b.at? 0).map fun d => d = c else some false

/-- `strncmp` with a word of the given length. -/
def startsWith : List UInt8 → ℕ → Option Bool
  | [], _ => some true
  | c :: word, index =>
      match b.at? index with
      | none => none
      | some d => if d = c then startsWith word (index + 1) else some false

def skipSpaces : ℕ → ParseBuffer → Option ParseBuffer
  | 0, b => some b
  | fuel + 1, b =>
      if b.canAccessAtIndex 0 then
        match b.at? 0 with
        | none => none
        | some c => if c ≤ space then skipSpaces fuel (b.advance 1) else some b
      else some b

/-- Behind the end of the buffer the offset goes back by one. -/
def skipWhitespace : Option ParseBuffer :=
  if b.canAccessAtIndex 0 then
    (skipSpaces (b.length - b.offset) b).map fun b =>
      if b.offset = b.length then b.stepBack else b
  else some b

def bom : List UInt8 :=
  [0xEF, 0xBB, 0xBF]

def skipUtf8Bom : Option ParseBuffer :=
  if b.canAccessAtIndex 4 then
    (b.startsWith bom 0).map fun found => if found then b.advance 3 else b
  else some b

end ParseBuffer

/-- A parse function: the item or nothing, and the buffer behind it. -/
abbrev Parser (α : Type) : Type :=
  ParseBuffer → Option (Option α × ParseBuffer)

namespace JsonParser

open ParseBuffer

/-! ## Numbers -/

/-- The characters from an index on that can stand in a number, at most
`room` of them. -/
def numberCharacters (b : ParseBuffer) : ℕ → ℕ → Option (List UInt8)
  | 0, _ => some []
  | room + 1, index =>
      if b.canAccessAtIndex index then
        match b.at? index with
        | none => none
        | some c =>
            if isNumber c then (numberCharacters b room (index + 1)).map (c :: ·)
            else some []
      else some []

def parseNumber : Parser JsonItem := fun b => do
  let characters ← numberCharacters b 63 0
  let numberCString := CString.ofBytes characters
  match strtod numberCString with
  | none => some (none, b)
  | some (number, rest) =>
      some (some (.number number), b.advance (numberCString.length - rest.length))

/-! ## Strings -/

/-- The closing quote of a string, and how many backslashes were passed with
the character behind them. -/
def scanString (content : List UInt8) (length : ℕ) : ℕ → ℕ → ℕ → Option (Option (ℕ × ℕ))
  | 0, _, _ => none
  | fuel + 1, inputEnd, skipped =>
      if length ≤ inputEnd then some none
      else
        match content[inputEnd]? with
        | none => none
        | some c =>
            if c = quote then some (some (inputEnd, skipped))
            else if c = backslash then
              if length ≤ inputEnd + 1 then some none
              else scanString content length fuel (inputEnd + 2) (skipped + 1)
            else scanString content length fuel (inputEnd + 1) skipped

/-- Four hexadecimal digits; anything else among them makes the number zero. -/
def parseHex4 (content : List UInt8) : ℕ → ℕ → ℕ → Option ℕ
  | 0, _, h => some h
  | left + 1, pointer, h =>
      match content[pointer]? with
      | none => none
      | some c =>
          match hexDigit c with
          | none => some 0
          | some digit => parseHex4 content left (pointer + 1) (h * 16 + digit)

/-- The bytes for `\u` and its digits, and how much of the input they are. -/
def utf16LiteralToUtf8 (content : List UInt8) (pointer inputEnd : ℕ) :
    Option (Option (List UInt8 × ℕ)) :=
  if inputEnd < pointer + 6 then some none
  else do
    let first ← parseHex4 content 4 (pointer + 2) 0
    if 0xDC00 ≤ first ∧ first ≤ 0xDFFF then some none
    else if 0xD800 ≤ first ∧ first ≤ 0xDBFF then
      if inputEnd < pointer + 12 then some none
      else do
        let mark ← content[pointer + 6]?
        let letter ← content[pointer + 7]?
        if mark ≠ backslash ∨ letter ≠ letterU then some none
        else do
          let second ← parseHex4 content 4 (pointer + 8) 0
          if second < 0xDC00 ∨ 0xDFFF < second then some none
          else
            let codepoint := 0x10000 + (((first &&& 0x3FF) <<< 10) ||| (second &&& 0x3FF))
            some ((encodeUtf8 codepoint).map fun bytes => (bytes, 12))
    else some ((encodeUtf8 first).map fun bytes => (bytes, 6))

/-- Writing behind the output, which has room for `capacity` bytes. -/
def store (capacity : ℕ) (output bytes : List UInt8) : Option (List UInt8) :=
  if output.length + bytes.length ≤ capacity then some (output ++ bytes) else none

/-- The characters of a string literal, or the place of a bad escape. -/
def unescape (content : List UInt8) (inputEnd capacity : ℕ) :
    ℕ → ℕ → List UInt8 → Option (Except ℕ (List UInt8))
  | 0, _, _ => none
  | fuel + 1, pointer, output =>
      if inputEnd ≤ pointer then some (.ok output)
      else do
        let c ← content[pointer]?
        if c ≠ backslash then
          unescape content inputEnd capacity fuel (pointer + 1) (← store capacity output [c])
        else do
          let letter ← content[pointer + 1]?
          match unescaped letter with
          | some d =>
              unescape content inputEnd capacity fuel (pointer + 2) (← store capacity output [d])
          | none =>
              if letter = letterU then
                match ← utf16LiteralToUtf8 content pointer inputEnd with
                | none => some (.error pointer)
                | some (bytes, sequenceLength) =>
                    unescape content inputEnd capacity fuel (pointer + sequenceLength)
                      (← store capacity output bytes)
              else some (.error pointer)

def parseStringBytes : Parser (List UInt8) := fun b => do
  let first ← b.at? 0
  if first ≠ quote then some (none, b.advance 1)
  else
    match ← scanString b.content b.length (b.length + 1) (b.offset + 1) 0 with
    | none => some (none, b.advance 1)
    | some (inputEnd, skippedBytes) =>
        let capacity := inputEnd - b.offset - skippedBytes + 1
        match ← unescape b.content inputEnd capacity (b.length + 1) (b.offset + 1) [] with
        | .error pointer => some (none, { b with offset := pointer })
        | .ok output => do
            let output ← store capacity output [0]
            some (some output, { b with offset := inputEnd + 1 })

/-- The output ends at its first zero for everyone who reads it. -/
def parseCString : Parser CString := fun b =>
  (parseStringBytes b).map fun (output, b) => (output.map CString.ofBytes, b)

def parseString : Parser JsonItem := fun b =>
  (parseCString b).map fun (string, b) => (string.map .string, b)

/-! ## Arrays and objects -/

/-- The elements up to the first that no comma follows. -/
def parseElements {α : Type} (element : Parser α) : ℕ → Parser (List α)
  | 0, _ => none
  | fuel + 1, b => do
      let b ← (b.advance 1).skipWhitespace
      match ← element b with
      | (none, b) => some (none, b)
      | (some item, b) =>
          let b ← b.skipWhitespace
          if ← b.standsAt comma then
            (parseElements element fuel b).map fun (items, b) => (items.map (item :: ·), b)
          else some (some [item], b)

/-- What an array and an object have in common, from behind the check of the
opening bracket on. -/
def parseContainer {α : Type} (close : UInt8) (element : Parser α) (b : ParseBuffer) :
    Option (Option (List α) × ParseBuffer) := do
  let b ← (b.advance 1).skipWhitespace
  if ← b.standsAt close then some (some [], b.leave.advance 1)
  else if ¬ b.canAccessAtIndex 0 then some (none, b.stepBack)
  else do
    match ← parseElements element (b.length + 1) b.stepBack with
    | (none, b) => some (none, b)
    | (some items, b) =>
        if ← b.standsAt close then some (some items, b.leave.advance 1)
        else some (none, b)

def parseArray (value : Parser JsonItem) : Parser JsonItem := fun b =>
  if JsonItem.nestingLimit ≤ b.depth then some (none, b)
  else do
    let b := b.enter
    let first ← b.at? 0
    if first ≠ openBracket then some (none, b)
    else
      (parseContainer closeBracket value b).map fun (items, b) => (items.map .array, b)

/-- A name, a colon and a value. -/
def parseMember (value : Parser JsonItem) : Parser (CString × JsonItem) := fun b => do
  match ← parseCString b with
  | (none, b) => some (none, b)
  | (some name, b) =>
      let b ← b.skipWhitespace
      if ← b.standsAt colon then do
        let b ← (b.advance 1).skipWhitespace
        (value b).map fun (item, b) => (item.map fun item => (name, item), b)
      else some (none, b)

def parseObject (value : Parser JsonItem) : Parser JsonItem := fun b =>
  if JsonItem.nestingLimit ≤ b.depth then some (none, b)
  else do
    let b := b.enter
    if ← b.standsAt openBrace then
      (parseContainer closeBrace (parseMember value) b).map fun (members, b) =>
        (members.map .object, b)
    else some (none, b)

/-! ## Values -/

/-- A word at the offset, when the buffer is long enough for it. -/
def standsAtWord (b : ParseBuffer) (word : List UInt8) : Option Bool :=
  if b.canRead word.length then b.startsWith word 0 else some false

/-- Whether a number begins at the offset. -/
def standsAtNumber (b : ParseBuffer) : Option Bool :=
  if b.canAccessAtIndex 0 then (b.at? 0).map fun c => c = minus || isDigit c
  else some false

/-- The first argument bounds the calls within each other. -/
def parseValue : ℕ → Parser JsonItem
  | 0, _ => none
  | calls + 1, b => do
      if ← standsAtWord b nullWord then some (some .null, b.advance 4)
      else if ← standsAtWord b falseWord then some (some (.bool false), b.advance 5)
      else if ← standsAtWord b trueWord then some (some (.bool true), b.advance 4)
      else if ← b.standsAt quote then parseString b
      else if ← standsAtNumber b then parseNumber b
      else if ← b.standsAt openBracket then parseArray (parseValue calls) b
      else if ← b.standsAt openBrace then parseObject (parseValue calls) b
      else some (none, b)

/-- The position that is reported for an error. -/
def errorPosition (b : ParseBuffer) : ℕ :=
  if b.offset < b.length then b.offset else b.length - 1

def parseWithLength (content : List UInt8) (length : ℕ) : Option (Except ℕ JsonItem) := do
  let b ← (ParseBuffer.mk content length 0 0).skipUtf8Bom
  let b ← b.skipWhitespace
  match ← parseValue (JsonItem.nestingLimit + 1) b with
  | (none, b) => some (.error (errorPosition b))
  | (some item, _) => some (.ok item)

/-- `cJSON_Parse` on a C string, of which the zero at its end is a part. -/
def parse (value : CString) : Option (Except ℕ JsonItem) :=
  parseWithLength (value.bytes ++ [0]) (value.length + 1)

end JsonParser

end Iperf3
