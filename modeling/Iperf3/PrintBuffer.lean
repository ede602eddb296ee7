import Iperf3.JsonText

/-!
# The JSON printer

The printer writes into memory that it makes larger as it goes.  A cell of
fresh memory holds nothing until something is written to it.  Touching memory
outside of the buffer, or reading a cell that holds nothing, is an outcome of
its own, apart from the refusal for which the printer returns no text.
-/

namespace Iperf3

open JsonByte

inductive PrintFailure where
  | outside
  | refused
  deriving DecidableEq, Repr

structure PrintBuffer where
  buffer : List (Option UInt8)
  length : ℕ
  offset : ℕ
  depth : ℕ
  noalloc : Bool
  format : Bool

abbrev Printing : Type :=
  Except PrintFailure PrintBuffer

namespace PrintBuffer

/-- The largest `size_t`. -/
def sizeMax : ℕ := 18446744073709551615

/-- What is in the memory after `realloc`. -/
def resize (cells : List (Option UInt8)) (size : ℕ) : List (Option UInt8) :=
  cells.take size ++ List.replicate (size - cells.length) none

/-- Room for `needed` more bytes.  `reallocate` says for which sizes there is
memory. -/
def ensure (reallocate : ℕ → Bool) (p : PrintBuffer) (needed : ℕ) : Printing :=
  if 0 < p.length ∧ p.length ≤ p.offset then .error .refused
  else
    let needed := (needed + p.offset + 1) % (sizeMax + 1)
    if needed ≤ p.length then .ok p
    else if p.noalloc then .error .refused
    else
      let newsize := if sizeMax / 2 < needed then sizeMax else needed * 2
      if reallocate newsize then
        .ok { p with buffer := resize p.buffer newsize, length := newsize }
      else .error .refused

/-- Bytes into the memory from an index on. -/
def write (p : PrintBuffer) : ℕ → List UInt8 → Printing
  | _, [] => .ok p
  | index, c :: bytes =>
      if index < p.buffer.length then
        write { p with buffer := p.buffer.set index (some c) } (index + 1) bytes
      else .error .outside

def strlen : List (Option UInt8) → Except PrintFailure ℕ
  | [] => .error .outside
  | none :: _ => .error .outside
  | some c :: cells => if c = 0 then .ok 0 else (strlen cells).map (· + 1)

/-- To the end of what was written without moving the offset. -/
def updateOffset (p : PrintBuffer) : Printing :=
  (strlen (p.buffer.drop p.offset)).map fun length => { p with offset := p.offset + length }

def advance (p : PrintBuffer) (length : ℕ) : PrintBuffer :=
  { p with offset := p.offset + length }

def enter (p : PrintBuffer) : PrintBuffer :=
  { p with depth := p.depth + 1 }

def leave (p : PrintBuffer) : PrintBuffer :=
  { p with depth := p.depth - 1 }

end PrintBuffer

namespace JsonPrinter

open PrintBuffer JsonText

variable (reallocate : ℕ → Bool)

def printWord (p : PrintBuffer) (needed : ℕ) (word : List UInt8) : Printing := do
  let p ← ensure reallocate p needed
  p.write p.offset (word ++ [0])

/-- A number is the only value behind which the offset is moved at once. -/
def printNumber (p : PrintBuffer) (d : FloatScan.Double) : Printing :=
  match JsonNumber.printNumber d with
  | none => .error .refused
  | some numberBuffer => do
      let p ← ensure reallocate p (numberBuffer.length + 1)
      let p ← p.write p.offset (numberBuffer.bytes ++ [0])
      return p.advance numberBuffer.length

/-- How much longer a character becomes. -/
def escapeCharacters (c : UInt8) : ℕ :=
  if (escapeLetter c).isSome then 1
  else if c < 32 then 5
  else 0

/-- The characters with their escapes.  `sprintf` ends its five characters
with a zero, which the next character overwrites. -/
def escapeInto (p : PrintBuffer) : ℕ → List UInt8 → Printing
  | _, [] => .ok p
  | outputPointer, c :: input =>
      if 31 < c ∧ c ≠ quote ∧ c ≠ backslash then do
        let p ← p.write outputPointer [c]
        escapeInto p (outputPointer + 1) input
      else do
        let p ← p.write outputPointer [backslash]
        match escapeLetter c with
        | some letter => do
            let p ← p.write (outputPointer + 1) [letter]
            escapeInto p (outputPointer + 2) input
        | none => do
            let p ← p.write (outputPointer + 1)
              [letterU, 48, 48, hexLetter (c.toNat / 16), hexLetter (c.toNat % 16), 0]
            escapeInto p (outputPointer + 6) input

def printStringPtr (p : PrintBuffer) (input : CString) : Printing :=
  let escaped := (input.bytes.map escapeCharacters).sum
  let outputLength := input.length + escaped
  do
    let p ← ensure reallocate p (outputLength + 3)
    if escaped = 0 then p.write p.offset (quote :: input.bytes ++ [quote, 0])
    else do
      let p ← p.write p.offset [quote]
      let p ← escapeInto p (p.offset + 1) input.bytes
      p.write (p.offset + outputLength + 1) [quote, 0]

/-- The tabs in front of a name. -/
def printTabs (p : PrintBuffer) : Printing :=
  if p.format then do
    let p ← ensure reallocate p p.depth
    let p ← p.write p.offset (List.replicate p.depth tab)
    return p.advance p.depth
  else .ok p

mutual

def printValue (p : PrintBuffer) : JsonItem → Printing
  | .null => printWord reallocate p 5 nullWord
  | .bool false => printWord reallocate p 6 falseWord
  | .bool true => printWord reallocate p 5 trueWord
  | .number d => printNumber reallocate p d
  | .string s => printStringPtr reallocate p s
  | .array child => do
      let p ← ensure reallocate p 1
      let p ← p.write p.offset [openBracket]
      let p ← printElements (p.advance 1).enter child
      let p ← ensure reallocate p 2
      let p ← p.write p.offset [closeBracket, 0]
      return p.leave
  | .object child => do
      let length := if p.format then 2 else 1
      let p ← ensure reallocate p (length + 1)
      let p ← p.write p.offset (openBrace :: formatted p.format newline)
      let p ← printMembers (p.advance length).enter child
      let p ← ensure reallocate p (if p.format then p.depth + 1 else 2)
      let p ← p.write p.offset (tabs p.format (p.depth - 1) ++ [closeBrace, 0])
      return p.leave

def printElements (p : PrintBuffer) : List JsonItem → Printing
  | [] => .ok p
  | item :: items => do
      let p ← printValue p item
      let p ← p.updateOffset
      if items.isEmpty then printElements p items
      else do
        let length := if p.format then 2 else 1
        let p ← ensure reallocate p (length + 1)
        let p ← p.write p.offset (comma :: formatted p.format space ++ [0])
        printElements (p.advance length) items

def printMembers (p : PrintBuffer) : List (CString × JsonItem) → Printing
  | [] => .ok p
  | (name, item) :: members => do
      let p ← printTabs reallocate p
      let p ← printStringPtr reallocate p name
      let p ← p.updateOffset
      let length := if p.format then 2 else 1
      let p ← ensure reallocate p length
      let p ← p.write p.offset (colon :: formatted p.format tab)
      let p ← printValue (p.advance length) item
      let p ← p.updateOffset
      let length := (if p.format then 1 else 0) + (if members.isEmpty then 0 else 1)
      let p ← ensure reallocate p (length + 1)
      let p ← p.write p.offset
        ((if members.isEmpty then [] else [comma]) ++ formatted p.format newline ++ [0])
      printMembers (p.advance length) members

end

def defaultBufferSize : ℕ := 256

/-- The memory that `print` returns. -/
def print (allocate : ℕ → Bool) (format : Bool) (item : JsonItem) :
    Except PrintFailure (List (Option UInt8)) :=
  if allocate defaultBufferSize then do
    let p ← printValue reallocate
      ⟨List.replicate defaultBufferSize none, defaultBufferSize, 0, 0, false, format⟩ item
    let p ← p.updateOffset
    if reallocate (p.offset + 1) then return resize p.buffer (p.offset + 1)
    else .error .refused
  else .error .refused

end JsonPrinter

end Iperf3
