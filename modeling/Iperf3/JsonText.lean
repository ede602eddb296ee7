import Iperf3.JsonNumber
import Iperf3.JsonReader
import Mathlib.Tactic

/-!
# The text of an item

What the printer writes, as a function of the item alone: on one line, or with
a line for each member of an object.  Reading the text of an item gives the
item back with its numbers reread, whatever stands behind the text.
-/

namespace Iperf3

open JsonByte

namespace JsonText

def hexLetter (n : ℕ) : UInt8 :=
  if n < 10 then UInt8.ofNat (48 + n) else UInt8.ofNat (87 + n)

/-- The letter that stands for a character behind a backslash. -/
def escapeLetter (c : UInt8) : Option UInt8 :=
  if c = backslash then some backslash
  else if c = quote then some quote
  else if c = 8 then some 98
  else if c = 12 then some 102
  else if c = 10 then some 110
  else if c = 13 then some 114
  else if c = 9 then some 116
  else none

/-- A character of a string, escaped if it has to be. -/
def escape (c : UInt8) : List UInt8 :=
  if 31 < c ∧ c ≠ quote ∧ c ≠ backslash then [c]
  else
    match escapeLetter c with
    | some letter => [backslash, letter]
    | none => [backslash, letterU, 48, 48, hexLetter (c.toNat / 16), hexLetter (c.toNat % 16)]

def stringText (s : CString) : List UInt8 :=
  quote :: s.bytes.flatMap escape ++ [quote]

def tabs (format : Bool) (depth : ℕ) : List UInt8 :=
  if format then List.replicate depth tab else []

/-- One byte more in a formatted text. -/
def formatted (format : Bool) (c : UInt8) : List UInt8 :=
  if format then [c] else []

mutual

def valueText (format : Bool) : ℕ → JsonItem → List UInt8
  | _, .null => nullWord
  | _, .bool false => falseWord
  | _, .bool true => trueWord
  | _, .number d => (JsonNumber.numberText d).bytes
  | _, .string s => stringText s
  | depth, .array child => openBracket :: itemsText format depth child ++ [closeBracket]
  | depth, .object child =>
      openBrace :: formatted format newline ++ membersText format (depth + 1) child ++
        tabs format depth ++ [closeBrace]

def itemsText (format : Bool) : ℕ → List JsonItem → List UInt8
  | _, [] => []
  | depth, item :: items =>
      valueText format (depth + 1) item ++
        (if items.isEmpty then [] else comma :: formatted format space) ++
        itemsText format depth items

def membersText (format : Bool) : ℕ → List (CString × JsonItem) → List UInt8
  | _, [] => []
  | depth, (name, item) :: members =>
      tabs format depth ++ stringText name ++ colon :: formatted format tab ++
        valueText format depth item ++ (if members.isEmpty then [] else [comma]) ++
        formatted format newline ++ membersText format depth members

end

end JsonText

namespace JsonItem

mutual

/-- The item that comes back from its text: every number is reread, and one
that is not finite has become `null`. -/
def reread : JsonItem → JsonItem
  | .null => .null
  | .bool value => .bool value
  | .number d =>
      match JsonNumber.reread d with
      | some x => .number x
      | none => .null
  | .string s => .string s
  | .array child => .array (rereadItems child)
  | .object child => .object (rereadMembers child)

def rereadItems : List JsonItem → List JsonItem
  | [] => []
  | item :: items => reread item :: rereadItems items

def rereadMembers : List (CString × JsonItem) → List (CString × JsonItem)
  | [] => []
  | (name, item) :: members => (name, reread item) :: rereadMembers members

end

theorem length_rereadItems (items : List JsonItem) : (rereadItems items).length = items.length := by
  induction items with
  | nil => rfl
  | cons item items ih => rw [rereadItems, List.length_cons, List.length_cons, ih]

theorem length_rereadMembers (members : List (CString × JsonItem)) :
    (rereadMembers members).length = members.length := by
  induction members with
  | nil => rfl
  | cons member members ih => rw [rereadMembers, List.length_cons, List.length_cons, ih]

end JsonItem

namespace JsonText

open JsonReader

/-! ## Strings -/

theorem escape_cases (c : UInt8) :
    (c ≠ quote ∧ c ≠ backslash ∧ escape c = [c]) ∨
    (∃ letter, unescaped letter = some c ∧ escape c = [backslash, letter]) ∨
    (c < 32 ∧ escape c =
      [backslash, letterU, 48, 48, hexLetter (c.toNat / 16), hexLetter (c.toNat % 16)]) := by
  unfold escape
  split_ifs with hplain
  · exact Or.inl ⟨hplain.2.1, hplain.2.2, rfl⟩
  · right
    by_cases hletter : escapeLetter c = none
    · right
      rw [hletter]
      refine ⟨?_, rfl⟩
      unfold escapeLetter at hletter
      split_ifs at hletter with hbackslash hquote
      simp only [hbackslash, hquote, ne_eq, not_false_eq_true, and_true] at hplain
      rw [UInt8.lt_iff_toNat_lt] at hplain ⊢
      exact Nat.lt_succ_of_le (not_lt.mp hplain)
    · left
      obtain ⟨letter, hsome⟩ := Option.ne_none_iff_exists'.mp hletter
      refine ⟨letter, ?_, by rw [hsome]⟩
      unfold escapeLetter at hsome
      split_ifs at hsome with h1 h2 h3 h4 h5 h6 h7
      all_goals
        obtain rfl := Option.some.inj hsome
        subst c
        decide

theorem hexFrom_control : ∀ n < 32,
    hexFrom 0 [48, 48, hexLetter (n / 16), hexLetter (n % 16)] = n := by
  decide

/-- A control character comes back from its digits. -/
theorem readUtf16_control {c : UInt8} (hc : c < 32) (rest : List UInt8) :
    readUtf16 ([48, 48, hexLetter (c.toNat / 16), hexLetter (c.toNat % 16)] ++ rest) =
      some ([c], rest) := by
  have hlt : c.toNat < 32 := UInt8.lt_iff_toNat_lt.mp hc
  have hhex : hex4 ([48, 48, hexLetter (c.toNat / 16), hexLetter (c.toNat % 16)] ++ rest) =
      c.toNat := hexFrom_control c.toNat hlt
  have hbytes : encodeUtf8 c.toNat = some [c] := by
    unfold encodeUtf8
    rw [if_pos (by omega)]
    have hand : c.toNat &&& 0x7F = c.toNat := by
      rw [show (0x7F : ℕ) = 2 ^ 7 - 1 by norm_num, Nat.and_two_pow_sub_one_eq_mod]
      exact Nat.mod_eq_of_lt (by omega)
    rw [hand, UInt8.ofNat_toNat]
  unfold readUtf16
  rw [hhex, hbytes, if_neg (by simp), if_neg (by omega), if_neg (by omega)]
  rfl

theorem decode_escape_append (c : UInt8) (rest : List UInt8) :
    decode (escape c ++ rest) = (decode rest).map (c :: ·) := by
  rcases escape_cases c with ⟨-, hbackslash, heq⟩ | ⟨letter, hletter, heq⟩ | ⟨hc, heq⟩
  · rw [heq]
    exact decode_cons hbackslash rest
  · rw [heq]
    exact decode_escape hletter rest
  · rw [heq]
    refine (decode_utf16 _).trans ?_
    rw [show [48, 48, hexLetter (c.toNat / 16), hexLetter (c.toNat % 16)].append rest =
      [48, 48, hexLetter (c.toNat / 16), hexLetter (c.toNat % 16)] ++ rest from rfl,
      readUtf16_control hc rest]
    rfl

theorem decode_escaped (s : List UInt8) : decode (s.flatMap escape) = some s := by
  induction s with
  | nil => exact decode_nil
  | cons c s ih =>
      rw [List.flatMap_cons, decode_escape_append, ih]
      rfl

theorem hexLetter_ne (n : ℕ) (hn : n < 16) :
    hexLetter n ≠ quote ∧ hexLetter n ≠ backslash := by
  have hall : ∀ n < 16, hexLetter n ≠ quote ∧ hexLetter n ≠ backslash := by
    decide
  exact hall n hn

theorem splitString_plain {c : UInt8} (hquote : c ≠ quote) (hbackslash : c ≠ backslash)
    (s : List UInt8) :
    splitString (c :: s) = (splitString s).map fun (inner, rest) => (c :: inner, rest) := by
  rw [splitString.eq_def]
  dsimp only
  rw [if_neg hquote, if_neg hbackslash]

theorem splitString_escape (letter : UInt8) (s : List UInt8) :
    splitString (backslash :: letter :: s) =
      (splitString s).map fun (inner, rest) => (backslash :: letter :: inner, rest) := by
  rw [splitString.eq_def]
  dsimp only
  rw [if_neg (by decide), if_pos rfl]

theorem splitString_quote (s : List UInt8) : splitString (quote :: s) = some ([], s) := by
  rw [splitString.eq_def]
  exact if_pos rfl

theorem splitString_escape_append (c : UInt8) (s : List UInt8) :
    splitString (escape c ++ s) =
      (splitString s).map fun (inner, rest) => (escape c ++ inner, rest) := by
  rcases escape_cases c with ⟨hquote, hbackslash, heq⟩ | ⟨letter, hletter, heq⟩ | ⟨hc, heq⟩
  · rw [heq]
    exact splitString_plain hquote hbackslash s
  · rw [heq]
    exact splitString_escape letter s
  · have hlt : c.toNat < 32 := UInt8.lt_iff_toNat_lt.mp hc
    have hhigh := hexLetter_ne (c.toNat / 16) (by omega)
    have hlow := hexLetter_ne (c.toNat % 16) (by omega)
    rw [heq]
    refine (splitString_escape letterU _).trans ?_
    have hzero : (48 : UInt8) ≠ quote ∧ (48 : UInt8) ≠ backslash := by decide
    change ((splitString
        (48 :: 48 :: hexLetter (c.toNat / 16) :: hexLetter (c.toNat % 16) :: s)).map
      _) = _
    rw [splitString_plain hzero.1 hzero.2, splitString_plain hzero.1 hzero.2,
      splitString_plain hhigh.1 hhigh.2, splitString_plain hlow.1 hlow.2]
    simp only [Option.map_map]
    rfl

theorem splitString_escaped (s rest : List UInt8) :
    splitString (s.flatMap escape ++ quote :: rest) = some (s.flatMap escape, rest) := by
  induction s with
  | nil => exact splitString_quote rest
  | cons c s ih =>
      rw [List.flatMap_cons, List.append_assoc, splitString_escape_append, ih]
      rfl

/-- A string comes back from its text. -/
theorem readCString_text (s : CString) (rest : List UInt8) :
    readCString (stringText s ++ rest) = some (s, rest) := by
  have htext : stringText s ++ rest = quote :: (s.bytes.flatMap escape ++ quote :: rest) := by
    simp [stringText]
  rw [htext]
  unfold readCString
  dsimp only
  rw [if_pos rfl, splitString_escaped]
  simp only [Option.bind_eq_bind, Option.bind_some, decode_escaped, CString.ofBytes_bytes]

/-! ## No zero in a text -/

theorem zero_notMem_bytes (s : CString) : (0 : UInt8) ∉ s.bytes := by
  intro h
  obtain ⟨c, -, hc⟩ := List.mem_map.mp h
  exact c.property hc

theorem zero_notMem_escape {c : UInt8} (hc : c ≠ 0) : (0 : UInt8) ∉ escape c := by
  have hbackslash : (0 : UInt8) ≠ backslash := by decide
  have hletterU : (0 : UInt8) ≠ letterU := by decide
  have hhex : ∀ n < 16, (0 : UInt8) ≠ hexLetter n := by decide
  rcases escape_cases c with ⟨-, -, heq⟩ | ⟨letter, hletter, heq⟩ | ⟨hlt, heq⟩
  · rw [heq, List.mem_singleton]
    exact hc.symm
  · have hne : (0 : UInt8) ≠ letter := by
      rintro rfl
      revert hletter
      exact fun h => absurd h (by simp [unescaped, quote, backslash])
    rw [heq]
    simp [hbackslash, hne]
  · have htoNat : c.toNat < 32 := UInt8.lt_iff_toNat_lt.mp hlt
    have hhigh := hhex (c.toNat / 16) (by omega)
    have hlow := hhex (c.toNat % 16) (by omega)
    rw [heq]
    simp [hbackslash, hletterU, hhigh, hlow]

theorem zero_notMem_stringText (s : CString) : (0 : UInt8) ∉ stringText s := by
  have hquote : (0 : UInt8) ≠ quote := by decide
  unfold stringText
  rw [List.mem_append, List.mem_cons, List.mem_flatMap, List.mem_singleton]
  rintro ((h | ⟨c, hc, h⟩) | h)
  · exact hquote h
  · refine zero_notMem_escape ?_ h
    rintro rfl
    exact zero_notMem_bytes s hc
  · exact hquote h

theorem zero_notMem_formatted (format : Bool) {c : UInt8} (hc : (0 : UInt8) ≠ c) :
    (0 : UInt8) ∉ formatted format c := by
  unfold formatted
  split_ifs
  · rwa [List.mem_singleton]
  · exact List.not_mem_nil

theorem zero_notMem_tabs (format : Bool) (depth : ℕ) : (0 : UInt8) ∉ tabs format depth := by
  unfold tabs
  split_ifs
  · intro h
    exact absurd (List.eq_of_mem_replicate h) (by decide)
  · exact List.not_mem_nil

theorem zero_notMem_itemsText {format : Bool} {items : List JsonItem} (depth : ℕ)
    (h : ∀ item ∈ items, ∀ depth, (0 : UInt8) ∉ valueText format depth item) :
    (0 : UInt8) ∉ itemsText format depth items := by
  have hcomma : (0 : UInt8) ≠ comma := by decide
  have hspace := zero_notMem_formatted format (c := space) (by decide)
  induction items with
  | nil =>
      rw [itemsText]
      exact List.not_mem_nil
  | cons item items ih =>
      have hitem := h item List.mem_cons_self (depth + 1)
      have hitems := ih fun item hitem => h item (List.mem_cons_of_mem _ hitem)
      rw [itemsText, List.mem_append, List.mem_append]
      rintro ((hmem | hmem) | hmem)
      · exact hitem hmem
      · split_ifs at hmem
        · cases hmem
        · rcases List.mem_cons.mp hmem with hmem | hmem
          · exact hcomma hmem
          · exact hspace hmem
      · exact hitems hmem

theorem zero_notMem_membersText {format : Bool} {members : List (CString × JsonItem)} (depth : ℕ)
    (h : ∀ member ∈ members, ∀ depth, (0 : UInt8) ∉ valueText format depth member.2) :
    (0 : UInt8) ∉ membersText format depth members := by
  have hcomma : (0 : UInt8) ∉ [comma] := by decide
  have hcolon : (0 : UInt8) ≠ colon := by decide
  have htab := zero_notMem_formatted format (c := tab) (by decide)
  have hnewline := zero_notMem_formatted format (c := newline) (by decide)
  have htabs := zero_notMem_tabs format depth
  induction members with
  | nil =>
      rw [membersText]
      exact List.not_mem_nil
  | cons member members ih =>
      obtain ⟨name, item⟩ := member
      have hname := zero_notMem_stringText name
      have hitem := h (name, item) List.mem_cons_self depth
      have hmembers := ih fun member hmember => h member (List.mem_cons_of_mem _ hmember)
      have hsep : (0 : UInt8) ∉ (if members.isEmpty then [] else [comma]) := by
        split_ifs
        · exact List.not_mem_nil
        · exact hcomma
      rw [membersText]
      simp only [List.mem_append, List.mem_cons, not_or]
      exact ⟨⟨⟨⟨⟨⟨htabs, hname⟩, hcolon, htab⟩, hitem⟩, hsep⟩, hnewline⟩, hmembers⟩

theorem zero_notMem_valueText (format : Bool) (item : JsonItem) :
    ∀ depth, (0 : UInt8) ∉ valueText format depth item := by
  induction item using JsonItem.induction with
  | null =>
      intro depth
      rw [valueText]
      decide
  | bool value =>
      intro depth
      cases value
      · rw [valueText]
        decide
      · rw [valueText]
        decide
  | number d =>
      intro depth
      rw [valueText]
      exact zero_notMem_bytes _
  | string s =>
      intro depth
      rw [valueText]
      exact zero_notMem_stringText s
  | array child ih =>
      intro depth
      have hopen : (0 : UInt8) ≠ openBracket := by decide
      have hclose : (0 : UInt8) ∉ [closeBracket] := by decide
      rw [valueText]
      simp only [List.mem_append, List.mem_cons, not_or]
      exact ⟨⟨hopen, zero_notMem_itemsText depth ih⟩, by simpa using hclose⟩
  | object child ih =>
      intro depth
      have hopen : (0 : UInt8) ≠ openBrace := by decide
      have hclose : (0 : UInt8) ∉ [closeBrace] := by decide
      have hnewline := zero_notMem_formatted format (c := newline) (by decide)
      rw [valueText]
      simp only [List.mem_append, List.mem_cons, not_or]
      exact ⟨⟨⟨⟨hopen, hnewline⟩, zero_notMem_membersText (depth + 1) ih⟩,
        zero_notMem_tabs format depth⟩, by simpa using hclose⟩

/-- The text of an item as a C string. -/
def text (format : Bool) (item : JsonItem) : CString :=
  CString.ofBytes (valueText format 0 item)

theorem bytes_ofBytes {bytes : List UInt8} (h : (0 : UInt8) ∉ bytes) :
    (CString.ofBytes bytes).bytes = bytes := by
  induction bytes with
  | nil => rfl
  | cons c bytes ih =>
      rw [List.mem_cons, not_or] at h
      have hc : c ≠ 0 := fun heq => h.1 heq.symm
      unfold CString.ofBytes
      rw [dif_pos hc]
      exact congrArg (c :: ·) (ih h.2)

theorem text_bytes (format : Bool) (item : JsonItem) :
    (text format item).bytes = valueText format 0 item :=
  bytes_ofBytes (zero_notMem_valueText format item 0)

end JsonText

end Iperf3
