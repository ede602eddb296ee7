import Iperf3.Strtod
import Mathlib.Tactic

/-!
# Items of the JSON library

An item as the vendored parser builds it and its printer walks it.  Names and
strings are C strings, and the children of an array or object are the list
that the `next` pointers make.  The integer of a number item is the saturated
double in every constructor of the library, so the double alone is kept.
-/

namespace Iperf3

open FloatScan

inductive JsonItem where
  | null
  | bool (value : Bool)
  | number (valuedouble : Double)
  | string (valuestring : CString)
  | array (child : List JsonItem)
  | object (child : List (CString × JsonItem))

namespace JsonItem

/-- `CJSON_NESTING_LIMIT`. -/
def nestingLimit : ℕ := 1000

mutual

/-- How many arrays and objects are open at the deepest place. -/
def nesting : JsonItem → ℕ
  | .null => 0
  | .bool _ => 0
  | .number _ => 0
  | .string _ => 0
  | .array child => itemsNesting child + 1
  | .object child => membersNesting child + 1

def itemsNesting : List JsonItem → ℕ
  | [] => 0
  | item :: items => max (nesting item) (itemsNesting items)

def membersNesting : List (CString × JsonItem) → ℕ
  | [] => 0
  | (_, item) :: members => max (nesting item) (membersNesting members)

end

/-- What holds of an array or object whenever it holds of everything in it holds
of every item. -/
@[elab_as_elim]
theorem induction {P : JsonItem → Prop} (null : P .null) (bool : ∀ value, P (.bool value))
    (number : ∀ d, P (.number d)) (string : ∀ s, P (.string s))
    (array : ∀ child : List JsonItem, (∀ item ∈ child, P item) → P (.array child))
    (object : ∀ child : List (CString × JsonItem), (∀ member ∈ child, P member.2) →
      P (.object child))
    (item : JsonItem) : P item :=
  match item with
  | .null => null
  | .bool value => bool value
  | .number d => number d
  | .string s => string s
  | .array child => array child fun item hitem =>
      have : sizeOf item < sizeOf child := List.sizeOf_lt_of_mem hitem
      induction null bool number string array object item
  | .object child => object child fun member hmember =>
      have : sizeOf member < sizeOf child := List.sizeOf_lt_of_mem hmember
      induction null bool number string array object member.2
termination_by sizeOf item
decreasing_by
  · simp only [JsonItem.array.sizeOf_spec]
    omega
  · obtain ⟨name, item⟩ := member
    simp only [JsonItem.object.sizeOf_spec, Prod.mk.sizeOf_spec] at *
    omega

theorem nesting_le_items {item : JsonItem} {items : List JsonItem} (h : item ∈ items) :
    nesting item ≤ itemsNesting items := by
  induction items with
  | nil => cases h
  | cons first items ih =>
      rw [itemsNesting]
      rcases List.mem_cons.mp h with rfl | h
      · exact le_max_left _ _
      · exact (ih h).trans (le_max_right _ _)

theorem nesting_le_members {member : CString × JsonItem} {members : List (CString × JsonItem)}
    (h : member ∈ members) : nesting member.2 ≤ membersNesting members := by
  induction members with
  | nil => cases h
  | cons first members ih =>
      obtain ⟨name, item⟩ := first
      rw [membersNesting]
      rcases List.mem_cons.mp h with rfl | h
      · exact le_max_left _ _
      · exact (ih h).trans (le_max_right _ _)

end JsonItem

/-! ## Bytes of a text -/

namespace JsonByte

def tab : UInt8 := 9
def newline : UInt8 := 10
def space : UInt8 := 32
def quote : UInt8 := 34
def comma : UInt8 := 44
def minus : UInt8 := 45
def colon : UInt8 := 58
def openBracket : UInt8 := 91
def backslash : UInt8 := 92
def closeBracket : UInt8 := 93
def letterU : UInt8 := 117
def openBrace : UInt8 := 123
def closeBrace : UInt8 := 125

/-- The words `null`, `true` and `false`. -/
def nullWord : List UInt8 := [110, 117, 108, 108]
def trueWord : List UInt8 := [116, 114, 117, 101]
def falseWord : List UInt8 := [102, 97, 108, 115, 101]

def isDigit (c : UInt8) : Bool :=
  48 ≤ c ∧ c ≤ 57

/-- The characters that are copied for `strtod`. -/
def isNumber (c : UInt8) : Bool :=
  isDigit c ∨ c = 43 ∨ c = 45 ∨ c = 46 ∨ c = 69 ∨ c = 101

/-- The character that a backslash and this letter stand for. -/
def unescaped (c : UInt8) : Option UInt8 :=
  if c = 98 then some 8
  else if c = 102 then some 12
  else if c = 110 then some 10
  else if c = 114 then some 13
  else if c = 116 then some 9
  else if c = quote ∨ c = backslash ∨ c = 47 then some c
  else none

def hexDigit (c : UInt8) : Option ℕ :=
  if 48 ≤ c ∧ c ≤ 57 then some (c.toNat - 48)
  else if 65 ≤ c ∧ c ≤ 70 then some (10 + c.toNat - 65)
  else if 97 ≤ c ∧ c ≤ 102 then some (10 + c.toNat - 97)
  else none

/-- The low six bits, marked as a later byte of a sequence. -/
def continuation (codepoint : ℕ) : UInt8 :=
  UInt8.ofNat ((codepoint ||| 0x80) &&& 0xBF)

/-- The bytes of a sequence, of which `n` are still to be written in front of
`later`, and then the first one with its mark. -/
def utf8Sequence (mark : ℕ) : ℕ → ℕ → List UInt8 → List UInt8
  | 0, codepoint, later => UInt8.ofNat ((codepoint ||| mark) &&& 0xFF) :: later
  | n + 1, codepoint, later =>
      utf8Sequence mark n (codepoint >>> 6) (continuation codepoint :: later)

/-- A codepoint in UTF-8, if it is one. -/
def encodeUtf8 (codepoint : ℕ) : Option (List UInt8) :=
  if codepoint < 0x80 then some [UInt8.ofNat (codepoint &&& 0x7F)]
  else if codepoint < 0x800 then some (utf8Sequence 0xC0 1 codepoint [])
  else if codepoint < 0x10000 then some (utf8Sequence 0xE0 2 codepoint [])
  else if codepoint ≤ 0x10FFFF then some (utf8Sequence 0xF0 3 codepoint [])
  else none

end JsonByte

end Iperf3
