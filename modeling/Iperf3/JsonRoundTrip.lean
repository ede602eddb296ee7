import Iperf3.JsonParserSafety
import Iperf3.JsonText
import Mathlib.Tactic

/-!
# What is printed can be read

The text of an item is read back from any position, as long as nothing behind
it could continue a number, and as long as the item does not nest deeper than
the parser follows.
-/

namespace Iperf3

open JsonByte JsonReader JsonText FloatScan

/-! ## First characters -/

theorem startsWith_ne {w c : UInt8} (word : List UInt8) (h : c ≠ w) (s : List UInt8) :
    startsWith (w :: word) (c :: s) = false := by
  unfold startsWith
  rw [List.length_cons, List.take_succ_cons, decide_eq_false]
  intro heq
  exact h (List.cons.inj heq).1

/-- A character that no word begins with. -/
structure NoWord (c : UInt8) : Prop where
  null : c ≠ 110
  false : c ≠ 102
  true : c ≠ 116

theorem readWith_noWord {nested : Reader JsonItem} {c : UInt8} (hc : NoWord c) (s : List UInt8) :
    readWith nested (c :: s) =
      if c = quote then readString (c :: s)
      else if (c = minus || JsonByte.isDigit c) = true then readNumber (c :: s)
      else nested (c :: s) := by
  unfold readWith
  rw [nullWord, falseWord, trueWord, startsWith_ne _ hc.null, startsWith_ne _ hc.false,
    startsWith_ne _ hc.true]
  simp only [Bool.false_eq_true, if_false, List.head?_cons, Option.some.injEq, startsNumber,
    Option.any_some]
  rfl

theorem readWith_quote {nested : Reader JsonItem} (s : List UInt8) :
    readWith nested (quote :: s) = readString (quote :: s) := by
  rw [readWith_noWord ⟨by decide, by decide, by decide⟩, if_pos rfl]

theorem readWith_nested {nested : Reader JsonItem} {c : UInt8}
    (hc : c = openBracket ∨ c = openBrace) (s : List UInt8) :
    readWith nested (c :: s) = nested (c :: s) := by
  rcases hc with rfl | rfl
  · rw [readWith_noWord ⟨by decide, by decide, by decide⟩, if_neg (by decide),
      if_neg (by decide)]
  · rw [readWith_noWord ⟨by decide, by decide, by decide⟩, if_neg (by decide),
      if_neg (by decide)]

theorem readValue_eq (levels : ℕ) : ∃ nested, readValue levels = readWith nested := by
  cases levels with
  | zero => exact ⟨_, rfl⟩
  | succ levels => exact ⟨_, rfl⟩

theorem readWith_null {nested : Reader JsonItem} (rest : List UInt8) :
    readWith nested (nullWord ++ rest) = some (.null, rest) := rfl

theorem readWith_false {nested : Reader JsonItem} (rest : List UInt8) :
    readWith nested (falseWord ++ rest) = some (.bool false, rest) := rfl

theorem readWith_true {nested : Reader JsonItem} (rest : List UInt8) :
    readWith nested (trueWord ++ rest) = some (.bool true, rest) := rfl

/-! ## Numbers -/

/-- Nothing that could continue a number. -/
def NumberEnds (rest : List UInt8) : Prop :=
  ∀ c ∈ rest.head?, isNumber c = false

theorem numberPrefix_append {text rest : List UInt8} (hlength : text.length < 63)
    (htext : ∀ c ∈ text, isNumber c = true) (hrest : NumberEnds rest) :
    numberPrefix (text ++ rest) = text := by
  unfold numberPrefix
  rw [List.take_append, List.take_of_length_le hlength.le, List.takeWhile_append_of_pos htext]
  obtain ⟨k, hk⟩ : ∃ k, 63 - text.length = k + 1 := ⟨63 - text.length - 1, by omega⟩
  rw [hk]
  cases rest with
  | nil => simp
  | cons c rest => simp [hrest c rfl]

theorem mem_bytes {s : CString} {P : UInt8 → Prop} (h : ∀ c ∈ s, P c.byte) :
    ∀ c ∈ s.bytes, P c := by
  intro c hc
  obtain ⟨d, hd, rfl⟩ := List.mem_map.mp hc
  exact h d hd

theorem readNumber_text {d : Double} {q : ℚ} (hd : d.value = .finite q) {rest : List UInt8}
    (hrest : NumberEnds rest) :
    readNumber ((JsonNumber.numberText d).bytes ++ rest) =
      some ((JsonItem.number d).reread, rest) := by
  obtain ⟨x, hx, -⟩ := JsonNumber.strtod_numberText hd
  have htext := JsonNumber.numberText_isNumberText hd
  have hlength := JsonNumber.length_numberText d
  have hnumber := numberPrefix_append (by rw [bytes_length]; omega)
    (mem_bytes fun c hc => JsonNumber.isNumber_byte (htext.mem c hc)) hrest
  have hreread : JsonNumber.reread d = some x := by
    unfold JsonNumber.reread
    rw [hx]
    rfl
  unfold readNumber JsonItem.reread
  simp only [hnumber, CString.ofBytes_bytes, hx, hreread, Option.map_some, List.length_nil,
    Nat.sub_zero]
  rw [← bytes_length, List.drop_left]

theorem digit_range {c : UInt8} (h : JsonByte.isDigit c = true) : 48 ≤ c.toNat ∧ c.toNat ≤ 57 := by
  unfold JsonByte.isDigit at h
  rw [decide_eq_true_eq, UInt8.le_iff_toNat_le, UInt8.le_iff_toNat_le] at h
  exact h

theorem noWord_digit {c : UInt8} (h : JsonByte.isDigit c = true) : NoWord c ∧ c ≠ quote := by
  obtain ⟨hlow, hhigh⟩ := digit_range h
  refine ⟨⟨?_, ?_, ?_⟩, ?_⟩
  all_goals
    rintro rfl
    revert hlow hhigh
    decide

theorem readWith_number {nested : Reader JsonItem} (d : Double) {rest : List UInt8}
    (hrest : NumberEnds rest) :
    readWith nested ((JsonNumber.numberText d).bytes ++ rest) =
      some ((JsonItem.number d).reread, rest) := by
  have hinfinite : JsonNumber.numberText d = JsonNumber.nullText →
      readWith nested ((JsonNumber.numberText d).bytes ++ rest) =
        some ((JsonItem.number d).reread, rest) := by
    intro htext
    have hbytes : JsonNumber.nullText.bytes = nullWord := by decide
    have hnone : strtod JsonNumber.nullText = none := rfl
    unfold JsonItem.reread JsonNumber.reread
    rw [htext, hbytes, hnone]
    exact readWith_null rest
  cases hd : d.value with
  | infinite negative => exact hinfinite (by unfold JsonNumber.numberText; rw [hd])
  | nan => exact hinfinite (by unfold JsonNumber.numberText; rw [hd])
  | finite q =>
      rw [← readNumber_text hd hrest]
      obtain ⟨c, s, hs, hc⟩ := (JsonNumber.numberText_isNumberText hd).head
      rw [hs]
      change readWith nested (c.byte :: (CString.bytes s ++ rest)) =
        readNumber (c.byte :: (CString.bytes s ++ rest))
      rcases hc with hdigit | rfl
      · have hbyte := JsonNumber.isDigit_byte hdigit
        obtain ⟨hword, hquote⟩ := noWord_digit hbyte
        rw [readWith_noWord hword, if_neg hquote, if_pos (by rw [hbyte, Bool.or_true])]
      · rw [readWith_noWord ⟨by decide, by decide, by decide⟩, if_neg (by decide),
          if_pos (by decide)]

/-! ## Elements -/

/-- The text `s` consists of the elements, with commas between them, and what
no comma begins. -/
inductive Elements {α : Type} (element : Reader α) :
    List UInt8 → List α → List UInt8 → Prop where
  | last {s rest : List UInt8} {item : α} (hitem : element (skipSpaces s) = some (item, rest))
      (hcomma : behind comma (skipSpaces rest) = none) :
      Elements element s [item] (skipSpaces rest)
  | more {s rest later behindAll : List UInt8} {item : α} {items : List α}
      (hitem : element (skipSpaces s) = some (item, rest))
      (hcomma : behind comma (skipSpaces rest) = some later)
      (hlater : Elements element later items behindAll) :
      Elements element s (item :: items) behindAll

theorem Elements.readElements_eq
    {α : Type} {element : Reader α} {s rest : List UInt8} {items : List α}
    (h : Elements element s items rest) {fuel : ℕ} (hfuel : items.length ≤ fuel) :
    readElements element fuel s = some (items, rest) := by
  induction h generalizing fuel with
  | last hitem hcomma =>
      rw [List.length_singleton] at hfuel
      obtain ⟨fuel, rfl⟩ : ∃ n, fuel = n + 1 := ⟨fuel - 1, by omega⟩
      unfold readElements
      simp only [hitem, Option.bind_eq_bind, Option.bind_some, hcomma]
  | more hitem hcomma _ ih =>
      rw [List.length_cons] at hfuel
      obtain ⟨fuel, rfl⟩ : ∃ n, fuel = n + 1 := ⟨fuel - 1, by omega⟩
      unfold readElements
      simp only [hitem, Option.bind_eq_bind, Option.bind_some, hcomma]
      rw [ih (by omega), Option.map_some]

theorem skipSpaces_idem (s : List UInt8) : skipSpaces (skipSpaces s) = skipSpaces s :=
  List.dropWhile_idempotent _ s

theorem Elements.of_skip
    {α : Type} {element : Reader α} {s t rest : List UInt8} {items : List α}
    (h : Elements element s items rest) (hskip : skipSpaces t = skipSpaces s) :
    Elements element t items rest := by
  cases h with
  | last hitem hcomma => exact .last (by rwa [hskip]) hcomma
  | more hitem hcomma hlater => exact .more (by rwa [hskip]) hcomma hlater

theorem readContainer_elements
    {α : Type} {element : Reader α} {close : UInt8} {s rest : List UInt8} {items : List α}
    (h : Elements element s items (close :: rest))
    (hfirst : (skipSpaces s).head? ≠ some close) (hlength : items.length ≤ s.length + 1) :
    readContainer close element s = some (items, rest) := by
  have hskipped := h.of_skip (skipSpaces_idem s)
  unfold readContainer
  rw [behind_eq_none.mpr hfirst, hskipped.readElements_eq hlength]
  simp only [Option.bind_eq_bind, Option.bind_some]
  rw [behind_eq_some.mpr rfl, Option.map_some]

theorem readContainer_empty {α : Type} {element : Reader α} {close : UInt8} {s rest : List UInt8}
    (h : skipSpaces s = close :: rest) : readContainer close element s = some ([], rest) := by
  unfold readContainer
  rw [behind_eq_some.mpr h]

/-! ## Blanks -/

/-- A text that begins with a character of its own. -/
def Solid (s : List UInt8) : Prop :=
  ∃ c rest, s = c :: rest ∧ ¬ c ≤ space

theorem skipSpaces_solid {s : List UInt8} (h : Solid s) : skipSpaces s = s := by
  obtain ⟨c, rest, rfl, hc⟩ := h
  simp [skipSpaces, hc]

theorem skipSpaces_blank {blanks : List UInt8} (h : ∀ c ∈ blanks, c ≤ space) (s : List UInt8) :
    skipSpaces (blanks ++ s) = skipSpaces s := by
  unfold skipSpaces
  rw [List.dropWhile_append_of_pos (by simpa using h)]

theorem tabs_blank (format : Bool) (depth : ℕ) : ∀ c ∈ tabs format depth, c ≤ space := by
  intro c hc
  unfold tabs at hc
  split_ifs at hc
  · rw [List.eq_of_mem_replicate hc]
    decide
  · cases hc

theorem formatted_blank (format : Bool) {c : UInt8} (hc : c ≤ space) :
    ∀ d ∈ formatted format c, d ≤ space := by
  intro d hd
  unfold formatted at hd
  split_ifs at hd
  · rw [List.mem_singleton.mp hd]
    exact hc
  · cases hd

theorem solid_cons {c : UInt8} (hc : ¬ c ≤ space) (s : List UInt8) : Solid (c :: s) :=
  ⟨c, s, rfl, hc⟩

/-- A character that can begin a value. -/
structure BeginsValue (c : UInt8) : Prop where
  space : ¬ c ≤ space
  close : c ≠ closeBracket
  bom : c ≠ 0xEF

theorem valueText_begins (format : Bool) (depth : ℕ) (item : JsonItem) :
    ∃ c rest, valueText format depth item = c :: rest ∧ BeginsValue c := by
  cases item with
  | null => exact ⟨_, _, by rw [valueText]; rfl, ⟨by decide, by decide, by decide⟩⟩
  | bool value =>
      cases value
      · exact ⟨_, _, by rw [valueText]; rfl, ⟨by decide, by decide, by decide⟩⟩
      · exact ⟨_, _, by rw [valueText]; rfl, ⟨by decide, by decide, by decide⟩⟩
  | string s => exact ⟨_, _, by rw [valueText]; rfl, ⟨by decide, by decide, by decide⟩⟩
  | array child => exact ⟨_, _, by rw [valueText]; rfl, ⟨by decide, by decide, by decide⟩⟩
  | object child => exact ⟨_, _, by rw [valueText]; rfl, ⟨by decide, by decide, by decide⟩⟩
  | number d =>
      rw [valueText]
      have hinfinite : JsonNumber.numberText d = JsonNumber.nullText →
          ∃ c rest, (JsonNumber.numberText d).bytes = c :: rest ∧ BeginsValue c := by
        intro htext
        have hbytes : JsonNumber.nullText.bytes = nullWord := by decide
        rw [htext, hbytes]
        exact ⟨_, _, rfl, ⟨by decide, by decide, by decide⟩⟩
      cases hd : d.value with
      | infinite negative => exact hinfinite (by unfold JsonNumber.numberText; rw [hd])
      | nan => exact hinfinite (by unfold JsonNumber.numberText; rw [hd])
      | finite q =>
          obtain ⟨c, s, hs, hc⟩ := (JsonNumber.numberText_isNumberText hd).head
          rw [hs]
          refine ⟨c.byte, CString.bytes s, rfl, ?_⟩
          rcases hc with hdigit | rfl
          · have hbyte := JsonNumber.isDigit_byte hdigit
            obtain ⟨hlow, hhigh⟩ := digit_range hbyte
            refine ⟨fun hle => ?_, fun heq => ?_, fun heq => ?_⟩
            · have hspace : c.byte.toNat ≤ 32 := UInt8.le_iff_toNat_le.mp hle
              omega
            · rw [heq] at hhigh
              exact absurd hhigh (by decide)
            · rw [heq] at hhigh
              exact absurd hhigh (by decide)
          · exact ⟨by decide, by decide, by decide⟩

/-! ## Arrays and objects -/

theorem numberEnds_cons {c : UInt8} (hc : isNumber c = false) (s : List UInt8) :
    NumberEnds (c :: s) := by
  intro d hd
  cases hd
  exact hc

theorem numberEnds_formatted (format : Bool) {s : List UInt8} (hs : NumberEnds s) :
    NumberEnds (formatted format newline ++ s) := by
  unfold formatted
  cases format
  · exact hs
  · exact numberEnds_cons (by decide) s

theorem numberEnds_tabs (format : Bool) (depth : ℕ) {s : List UInt8} (hs : NumberEnds s) :
    NumberEnds (tabs format depth ++ s) := by
  unfold tabs
  cases format
  · exact hs
  · cases depth with
    | zero => exact hs
    | succ depth => exact numberEnds_cons (by decide) _

theorem itemsText_length (format : Bool) (depth : ℕ) (items : List JsonItem) :
    items.length ≤ (itemsText format depth items).length := by
  induction items with
  | nil => exact Nat.zero_le _
  | cons item items ih =>
      obtain ⟨c, s, hs, -⟩ := valueText_begins format (depth + 1) item
      rw [itemsText, hs]
      simp only [List.length_append, List.length_cons]
      omega

theorem membersText_length (format : Bool) (depth : ℕ) (members : List (CString × JsonItem)) :
    members.length ≤ (membersText format depth members).length := by
  induction members with
  | nil => exact Nat.zero_le _
  | cons member members ih =>
      obtain ⟨name, item⟩ := member
      rw [membersText]
      simp only [List.length_append, List.length_cons]
      omega

theorem readNested_array {value : Reader JsonItem} {s rest : List UInt8} {items : List JsonItem}
    (h : readContainer closeBracket value s = some (items, rest)) :
    readNested value (openBracket :: s) = some (.array items, rest) := by
  unfold readNested
  rw [List.head?_cons, if_pos rfl, List.tail_cons, h]
  rfl

theorem readNested_object {value : Reader JsonItem} {s rest : List UInt8}
    {members : List (CString × JsonItem)}
    (h : readContainer closeBrace (readMember value) s = some (members, rest)) :
    readNested value (openBrace :: s) = some (.object members, rest) := by
  unfold readNested
  rw [List.head?_cons, if_neg (by decide), if_pos rfl, List.tail_cons, h]
  rfl

/-- A member comes back from its text when its value does. -/
theorem readMember_text {value : Reader JsonItem} {format : Bool} {depth : ℕ} (name : CString)
    {item item' : JsonItem} {rest : List UInt8}
    (hvalue : value (valueText format depth item ++ rest) = some (item', rest)) :
    readMember value (stringText name ++ colon :: formatted format tab ++
      valueText format depth item ++ rest) = some ((name, item'), rest) := by
  have hsolid : Solid (valueText format depth item ++ rest) := by
    obtain ⟨c, s, hs, hc⟩ := valueText_begins format depth item
    rw [hs]
    exact solid_cons hc.space (s ++ rest)
  have htext : stringText name ++ colon :: formatted format tab ++ valueText format depth item ++
      rest = stringText name ++ colon :: (formatted format tab ++
        (valueText format depth item ++ rest)) := by
    simp
  unfold readMember
  rw [htext]
  simp only [readCString_text, Option.bind_eq_bind, Option.bind_some]
  rw [skipSpaces_solid (solid_cons (by decide) _), behind_eq_some.mpr rfl, Option.bind_some,
    skipSpaces_blank (formatted_blank format (by decide)), skipSpaces_solid hsolid, hvalue]
  rfl

/-- The item comes back from its text with the levels that it needs. -/
def ReadsBack (format : Bool) (item : JsonItem) : Prop :=
  ∀ levels depth rest, item.nesting ≤ levels → NumberEnds rest →
    readValue levels (valueText format depth item ++ rest) = some (item.reread, rest)

theorem skipSpaces_valueText (format : Bool) (depth : ℕ) (item : JsonItem) (s : List UInt8) :
    skipSpaces (valueText format depth item ++ s) = valueText format depth item ++ s := by
  obtain ⟨c, t, ht, hc⟩ := valueText_begins format depth item
  rw [ht]
  exact skipSpaces_solid (solid_cons hc.space (t ++ s))

theorem itemsText_elements {format : Bool} (levels : ℕ) (first : JsonItem)
    (items : List JsonItem) (depth : ℕ) (rest : List UInt8)
    (hback : ∀ item ∈ first :: items, ReadsBack format item ∧ item.nesting ≤ levels) :
    Elements (readValue levels) (itemsText format depth (first :: items) ++ closeBracket :: rest)
      (JsonItem.rereadItems (first :: items)) (closeBracket :: rest) := by
  obtain ⟨hfirst, hnesting⟩ := hback first List.mem_cons_self
  have hclose : skipSpaces (closeBracket :: rest) = closeBracket :: rest :=
    skipSpaces_solid (solid_cons (by decide) rest)
  induction items generalizing first with
  | nil =>
      have htext : itemsText format depth [first] ++ closeBracket :: rest =
          valueText format (depth + 1) first ++ closeBracket :: rest := by
        simp [itemsText]
      have hitem := hfirst levels (depth + 1) (closeBracket :: rest) hnesting
        (numberEnds_cons (by decide) rest)
      have hlast : Elements (readValue levels)
          (valueText format (depth + 1) first ++ closeBracket :: rest) _ _ :=
        Elements.last (by rw [skipSpaces_valueText, hitem]) (by rw [hclose]; rfl)
      rw [htext, JsonItem.rereadItems, JsonItem.rereadItems]
      rwa [hclose] at hlast
  | cons second items ih =>
      have htext : itemsText format depth (first :: second :: items) ++ closeBracket :: rest =
          valueText format (depth + 1) first ++ comma :: (formatted format space ++
            (itemsText format depth (second :: items) ++ closeBracket :: rest)) := by
        rw [itemsText]
        simp
      have hitem := hfirst levels (depth + 1) (comma :: (formatted format space ++
          (itemsText format depth (second :: items) ++ closeBracket :: rest))) hnesting
        (numberEnds_cons (by decide) _)
      have hsecond := hback second (List.mem_cons_of_mem _ List.mem_cons_self)
      have hlater := ih second (fun item h => hback item (List.mem_cons_of_mem _ h)) hsecond.1
        hsecond.2
      have hblank : ∀ c ∈ formatted format space, c ≤ space :=
        formatted_blank format (by decide)
      rw [htext, JsonItem.rereadItems]
      refine Elements.more (by rw [skipSpaces_valueText, hitem]) ?_
        (hlater.of_skip (skipSpaces_blank hblank _))
      rw [skipSpaces_solid (solid_cons (by decide) _), behind_eq_some]

theorem skipSpaces_member (format : Bool) (depth : ℕ) (name : CString) (s : List UInt8) :
    skipSpaces (tabs format depth ++ (stringText name ++ s)) = stringText name ++ s := by
  rw [skipSpaces_blank (tabs_blank format depth)]
  exact skipSpaces_solid (solid_cons (by decide) _)

/-- The first member with what is behind it. -/
theorem membersText_cons (format : Bool) (depth : ℕ) (name : CString) (item : JsonItem)
    (members : List (CString × JsonItem)) (behind : List UInt8) :
    membersText format depth ((name, item) :: members) ++ behind =
      tabs format depth ++ (stringText name ++ (colon :: formatted format tab ++
        (valueText format depth item ++ ((if members.isEmpty then [] else [comma]) ++
          (formatted format newline ++ (membersText format depth members ++ behind)))))) := by
  rw [membersText]
  simp

theorem membersText_elements {format : Bool} (levels : ℕ) (first : CString × JsonItem)
    (members : List (CString × JsonItem)) (depth outer : ℕ) (rest : List UInt8)
    (hback : ∀ member ∈ first :: members,
      ReadsBack format member.2 ∧ member.2.nesting ≤ levels) :
    Elements (readMember (readValue levels))
      (membersText format depth (first :: members) ++ (tabs format outer ++ closeBrace :: rest))
      (JsonItem.rereadMembers (first :: members)) (closeBrace :: rest) := by
  obtain ⟨hfirst, hnesting⟩ := hback first List.mem_cons_self
  have hmember : ∀ behind, NumberEnds behind → readMember (readValue levels)
      (skipSpaces (tabs format depth ++ (stringText first.1 ++ (colon :: formatted format tab ++
        (valueText format depth first.2 ++ behind))))) =
      some ((first.1, first.2.reread), behind) := by
    intro behind hbehind
    have h := readMember_text first.1 (hfirst levels depth behind hnesting hbehind)
    simp only [List.append_assoc] at h
    rw [skipSpaces_member]
    exact h
  have hnewline : ∀ c ∈ formatted format newline, c ≤ space :=
    formatted_blank format (by decide)
  induction members generalizing first with
  | nil =>
      have hend : skipSpaces (formatted format newline ++
          (tabs format outer ++ closeBrace :: rest)) = closeBrace :: rest := by
        rw [skipSpaces_blank hnewline, skipSpaces_blank (tabs_blank format outer)]
        exact skipSpaces_solid (solid_cons (by decide) rest)
      have hitem := hmember (formatted format newline ++
        (tabs format outer ++ closeBrace :: rest)) (numberEnds_formatted format
          (numberEnds_tabs format outer (numberEnds_cons (by decide) rest)))
      have hlast := Elements.last hitem (by rw [hend]; rfl)
      obtain ⟨name, item⟩ := first
      rw [membersText_cons, JsonItem.rereadMembers, JsonItem.rereadMembers, membersText]
      rwa [hend] at hlast
  | cons second members ih =>
      have hsecond := hback second (List.mem_cons_of_mem _ List.mem_cons_self)
      have hlater := ih second (fun member h => hback member (List.mem_cons_of_mem _ h))
        hsecond.1 hsecond.2 (by
          intro behind hbehind
          have h := readMember_text second.1
            (hsecond.1 levels depth behind hsecond.2 hbehind)
          simp only [List.append_assoc] at h
          rw [skipSpaces_member]
          exact h)
      have hitem := hmember (comma :: (formatted format newline ++
        (membersText format depth (second :: members) ++
          (tabs format outer ++ closeBrace :: rest)))) (numberEnds_cons (by decide) _)
      obtain ⟨name, item⟩ := first
      dsimp only at hitem
      rw [membersText_cons, JsonItem.rereadMembers]
      refine Elements.more hitem ?_
        (hlater.of_skip (skipSpaces_blank hnewline _))
      rw [skipSpaces_solid (solid_cons (by decide) _), behind_eq_some]

theorem readsBack_array {format : Bool} {child : List JsonItem}
    (hchild : ∀ item ∈ child, ReadsBack format item) : ReadsBack format (.array child) := by
  intro levels depth rest hnesting hrest
  rw [JsonItem.nesting] at hnesting
  obtain ⟨levels, rfl⟩ : ∃ n, levels = n + 1 := ⟨levels - 1, by omega⟩
  have htext : valueText format depth (.array child) ++ rest =
      openBracket :: (itemsText format depth child ++ closeBracket :: rest) := by
    rw [valueText]
    simp
  rw [htext, readValue, readWith_nested (Or.inl rfl), JsonItem.reread]
  apply readNested_array
  cases child with
  | nil =>
      rw [itemsText, JsonItem.rereadItems]
      exact readContainer_empty (skipSpaces_solid (solid_cons (by decide) rest))
  | cons first items =>
      have helements := itemsText_elements levels first items depth rest
        fun item h => ⟨hchild item h, by have := JsonItem.nesting_le_items h; omega⟩
      have hlength := itemsText_length format depth (first :: items)
      apply readContainer_elements helements
      · obtain ⟨c, s, hs, hc⟩ := valueText_begins format (depth + 1) first
        rw [itemsText, hs]
        simp only [List.cons_append]
        rw [skipSpaces_solid (solid_cons hc.space _), List.head?_cons]
        exact fun heq => hc.close (Option.some.inj heq)
      · rw [JsonItem.length_rereadItems, List.length_append]
        omega

theorem readsBack_object {format : Bool} {child : List (CString × JsonItem)}
    (hchild : ∀ member ∈ child, ReadsBack format member.2) : ReadsBack format (.object child) := by
  intro levels depth rest hnesting hrest
  rw [JsonItem.nesting] at hnesting
  obtain ⟨levels, rfl⟩ : ∃ n, levels = n + 1 := ⟨levels - 1, by omega⟩
  have htext : valueText format depth (.object child) ++ rest =
      openBrace :: (formatted format newline ++ (membersText format (depth + 1) child ++
        (tabs format depth ++ closeBrace :: rest))) := by
    rw [valueText]
    simp
  have hnewline : ∀ c ∈ formatted format newline, c ≤ space :=
    formatted_blank format (by decide)
  rw [htext, readValue, readWith_nested (Or.inr rfl), JsonItem.reread]
  apply readNested_object
  cases child with
  | nil =>
      rw [membersText, JsonItem.rereadMembers]
      apply readContainer_empty
      rw [List.nil_append, skipSpaces_blank hnewline, skipSpaces_blank (tabs_blank format depth)]
      exact skipSpaces_solid (solid_cons (by decide) rest)
  | cons first members =>
      have helements := membersText_elements levels first members (depth + 1) depth
        rest fun member h => ⟨hchild member h, by have := JsonItem.nesting_le_members h; omega⟩
      have hlength := membersText_length format (depth + 1) (first :: members)
      have hskip := skipSpaces_blank hnewline
        (membersText format (depth + 1) (first :: members) ++
          (tabs format depth ++ closeBrace :: rest))
      apply readContainer_elements (helements.of_skip hskip)
      · obtain ⟨name, item⟩ := first
        rw [hskip, membersText_cons, skipSpaces_member]
        exact fun heq => absurd (Option.some.inj heq) (by decide)
      · rw [JsonItem.length_rereadMembers, List.length_append, List.length_append]
        omega

/-- Every item comes back from its text, with anything behind it that does not
continue a number. -/
theorem readsBack (format : Bool) (item : JsonItem) : ReadsBack format item := by
  induction item using JsonItem.induction with
  | null =>
      intro levels depth rest _ _
      obtain ⟨nested, hnested⟩ := readValue_eq levels
      rw [valueText, hnested, JsonItem.reread]
      exact readWith_null rest
  | bool value =>
      intro levels depth rest _ _
      obtain ⟨nested, hnested⟩ := readValue_eq levels
      cases value
      · rw [valueText, hnested, JsonItem.reread]
        exact readWith_false rest
      · rw [valueText, hnested, JsonItem.reread]
        exact readWith_true rest
  | number d =>
      intro levels depth rest _ hrest
      obtain ⟨nested, hnested⟩ := readValue_eq levels
      rw [valueText, hnested]
      exact readWith_number d hrest
  | string s =>
      intro levels depth rest _ _
      obtain ⟨nested, hnested⟩ := readValue_eq levels
      have hread := readCString_text s rest
      have hquote : stringText s ++ rest =
          quote :: ((s.bytes.flatMap escape ++ [quote]) ++ rest) := rfl
      rw [valueText, hnested, JsonItem.reread]
      rw [hquote] at hread ⊢
      rw [readWith_quote]
      unfold readString
      rw [hread]
      rfl
  | array child hchild => exact readsBack_array hchild
  | object child hchild => exact readsBack_object hchild

theorem skipBom_valueText (format : Bool) (item : JsonItem) :
    skipBom (valueText format 0 item) = valueText format 0 item := by
  obtain ⟨c, s, hs, hc⟩ := valueText_begins format 0 item
  unfold skipBom
  rw [hs, bom, startsWith_ne _ hc.bom, if_neg (by simp)]

/-- The text of an item that does not nest too deeply is read as the item. -/
theorem readText_valueText (format : Bool) {item : JsonItem}
    (hnesting : item.nesting ≤ JsonItem.nestingLimit) :
    readText (valueText format 0 item) = some item.reread := by
  have hread := readsBack format item JsonItem.nestingLimit 0 [] hnesting (by rintro c ⟨⟩)
  rw [List.append_nil] at hread
  have hskip := skipSpaces_valueText format 0 item []
  rw [List.append_nil] at hskip
  unfold readText
  rw [skipBom_valueText, hskip, hread]
  rfl

/-! ## How deep what is read can nest -/

/-- Everything that is read satisfies `P`. -/
def ReadsOnly {α : Type} (P : α → Prop) (reader : Reader α) : Prop :=
  ∀ s item rest, reader s = some (item, rest) → P item

theorem readElements_forall {α : Type} {P : α → Prop} {element : Reader α}
    (h : ReadsOnly P element) (fuel : ℕ) :
    ReadsOnly (fun items => ∀ item ∈ items, P item) (readElements element fuel) := by
  induction fuel with
  | zero =>
      intro s items rest hread
      cases hread
  | succ fuel ih =>
      intro s items rest hread
      unfold readElements at hread
      obtain ⟨⟨first, rest₁⟩, hfirst, hread⟩ := Option.bind_eq_some_iff.mp hread
      have hP := h _ _ _ hfirst
      dsimp only at hread
      split at hread
      · cases hread
        simpa using hP
      · obtain ⟨⟨items', rest₂⟩, hlater, heq⟩ := Option.map_eq_some_iff.mp hread
        cases heq
        have hlater := ih _ _ _ hlater
        intro item hitem
        rcases List.mem_cons.mp hitem with rfl | hitem
        · exact hP
        · exact hlater item hitem

theorem readContainer_forall {α : Type} {P : α → Prop} {element : Reader α}
    (h : ReadsOnly P element) (close : UInt8) :
    ReadsOnly (fun items => ∀ item ∈ items, P item) (readContainer close element) := by
  intro s items rest hread
  unfold readContainer at hread
  split at hread
  · cases hread
    simp
  · obtain ⟨⟨items', rest'⟩, helements, hread⟩ := Option.bind_eq_some_iff.mp hread
    obtain ⟨_, _, heq⟩ := Option.map_eq_some_iff.mp hread
    cases heq
    exact readElements_forall h _ _ _ _ helements

theorem readMember_only {P : JsonItem → Prop} {value : Reader JsonItem} (h : ReadsOnly P value) :
    ReadsOnly (fun member => P member.2) (readMember value) := by
  intro s member rest hread
  unfold readMember at hread
  obtain ⟨⟨name, rest₁⟩, -, hread⟩ := Option.bind_eq_some_iff.mp hread
  obtain ⟨rest₂, -, hread⟩ := Option.bind_eq_some_iff.mp hread
  obtain ⟨⟨item, rest₃⟩, hitem, heq⟩ := Option.map_eq_some_iff.mp hread
  cases heq
  exact h _ _ _ hitem

theorem itemsNesting_le {items : List JsonItem} {n : ℕ} (h : ∀ item ∈ items, item.nesting ≤ n) :
    JsonItem.itemsNesting items ≤ n := by
  induction items with
  | nil => exact Nat.zero_le _
  | cons item items ih =>
      rw [JsonItem.itemsNesting]
      exact max_le (h item List.mem_cons_self) (ih fun i hi => h i (List.mem_cons_of_mem _ hi))

theorem membersNesting_le {members : List (CString × JsonItem)} {n : ℕ}
    (h : ∀ member ∈ members, member.2.nesting ≤ n) : JsonItem.membersNesting members ≤ n := by
  induction members with
  | nil => exact Nat.zero_le _
  | cons member members ih =>
      obtain ⟨name, item⟩ := member
      rw [JsonItem.membersNesting]
      exact max_le (h (name, item) List.mem_cons_self)
        (ih fun m hm => h m (List.mem_cons_of_mem _ hm))

theorem readWith_only {P : JsonItem → Prop} {nested : Reader JsonItem}
    (hscalar : ∀ item : JsonItem, item.nesting = 0 → P item) (hnested : ReadsOnly P nested) :
    ReadsOnly P (readWith nested) := by
  intro s item rest hread
  unfold readWith at hread
  split_ifs at hread
  · cases hread
    exact hscalar _ (by rw [JsonItem.nesting])
  · cases hread
    exact hscalar _ (by rw [JsonItem.nesting])
  · cases hread
    exact hscalar _ (by rw [JsonItem.nesting])
  · obtain ⟨_, _, heq⟩ := Option.map_eq_some_iff.mp hread
    cases heq
    exact hscalar _ (by rw [JsonItem.nesting])
  · obtain ⟨_, _, heq⟩ := Option.map_eq_some_iff.mp hread
    cases heq
    exact hscalar _ (by rw [JsonItem.nesting])
  · exact hnested s item rest hread

/-- What is read with some levels does not nest deeper. -/
theorem readValue_nesting (levels : ℕ) :
    ReadsOnly (fun item => item.nesting ≤ levels) (readValue levels) := by
  induction levels with
  | zero =>
      apply readWith_only
      · exact fun item hitem => hitem.le
      · intro s item rest hread
        cases hread
  | succ levels ih =>
      apply readWith_only
      · intro item hitem
        omega
      intro s item rest hread
      unfold readNested at hread
      split_ifs at hread
      · obtain ⟨⟨items, rest'⟩, hcontainer, heq⟩ := Option.map_eq_some_iff.mp hread
        cases heq
        rw [JsonItem.nesting]
        exact Nat.succ_le_succ (itemsNesting_le (readContainer_forall ih _ _ _ _ hcontainer))
      · obtain ⟨⟨members, rest'⟩, hcontainer, heq⟩ := Option.map_eq_some_iff.mp hread
        cases heq
        rw [JsonItem.nesting]
        exact Nat.succ_le_succ
          (membersNesting_le (readContainer_forall (readMember_only ih) _ _ _ _ hcontainer))

/-! ## More levels -/

/-- Whatever `reader` reads, `reader'` reads too. -/
def ReadsMore {α : Type} (reader reader' : Reader α) : Prop :=
  ∀ s result, reader s = some result → reader' s = some result

theorem readElements_more {α : Type} {element element' : Reader α}
    (h : ReadsMore element element') (fuel : ℕ) :
    ReadsMore (readElements element fuel) (readElements element' fuel) := by
  induction fuel with
  | zero =>
      intro s result hread
      cases hread
  | succ fuel ih =>
      intro s result hread
      unfold readElements at hread ⊢
      obtain ⟨⟨first, rest₁⟩, hfirst, hread⟩ := Option.bind_eq_some_iff.mp hread
      simp only [Option.bind_eq_bind, h _ _ hfirst, Option.bind_some]
      dsimp only at hread
      split at hread
      · exact hread
      · obtain ⟨result', hlater, heq⟩ := Option.map_eq_some_iff.mp hread
        rw [ih _ _ hlater, Option.map_some, heq]

theorem readContainer_more {α : Type} {element element' : Reader α}
    (h : ReadsMore element element') (close : UInt8) :
    ReadsMore (readContainer close element) (readContainer close element') := by
  intro s result hread
  unfold readContainer at hread ⊢
  split at hread
  · exact hread
  · obtain ⟨elements, helements, hread⟩ := Option.bind_eq_some_iff.mp hread
    simp only [Option.bind_eq_bind, readElements_more h _ _ _ helements, Option.bind_some]
    exact hread

theorem readMember_more {value value' : Reader JsonItem} (h : ReadsMore value value') :
    ReadsMore (readMember value) (readMember value') := by
  intro s result hread
  unfold readMember at hread ⊢
  obtain ⟨⟨name, rest₁⟩, hname, hread⟩ := Option.bind_eq_some_iff.mp hread
  obtain ⟨rest₂, hcolon, hread⟩ := Option.bind_eq_some_iff.mp hread
  obtain ⟨item, hitem, heq⟩ := Option.map_eq_some_iff.mp hread
  simp only [Option.bind_eq_bind, hname, Option.bind_some, hcolon, h _ _ hitem, Option.map_some]
  exact congrArg some heq

theorem readNested_more {value value' : Reader JsonItem} (h : ReadsMore value value') :
    ReadsMore (readNested value) (readNested value') := by
  intro s result hread
  unfold readNested at hread ⊢
  split_ifs at hread ⊢
  · obtain ⟨items, hitems, heq⟩ := Option.map_eq_some_iff.mp hread
    rw [readContainer_more h _ _ _ hitems, Option.map_some, heq]
  · obtain ⟨members, hmembers, heq⟩ := Option.map_eq_some_iff.mp hread
    rw [readContainer_more (readMember_more h) _ _ _ hmembers, Option.map_some, heq]

theorem readWith_more {nested nested' : Reader JsonItem} (h : ReadsMore nested nested') :
    ReadsMore (readWith nested) (readWith nested') := by
  intro s result hread
  unfold readWith at hread ⊢
  split_ifs at hread ⊢
  · exact hread
  · exact hread
  · exact hread
  · exact hread
  · exact hread
  · exact h _ _ hread

theorem readValue_more (levels : ℕ) : ReadsMore (readValue levels) (readValue (levels + 1)) := by
  induction levels with
  | zero =>
      apply readWith_more
      intro s result hread
      cases hread
  | succ levels ih => exact readWith_more (readNested_more ih)

theorem readValue_mono {levels levels' : ℕ} (h : levels ≤ levels') :
    ReadsMore (readValue levels) (readValue levels') := by
  induction h with
  | refl => exact fun s result hread => hread
  | step _ ih => exact fun s result hread => readValue_more _ s result (ih s result hread)

/-! ## Parsing what was printed -/

theorem nesting_reread (item : JsonItem) : item.reread.nesting = item.nesting := by
  induction item using JsonItem.induction with
  | null => rfl
  | bool value => rfl
  | string s => rfl
  | number d =>
      rw [JsonItem.reread]
      cases JsonNumber.reread d <;> rfl
  | array child ih =>
      have hitems : ∀ items : List JsonItem, (∀ item ∈ items, item ∈ child) →
          JsonItem.itemsNesting (JsonItem.rereadItems items) = JsonItem.itemsNesting items := by
        intro items
        induction items with
        | nil => exact fun _ => rfl
        | cons item items ihItems =>
            intro h
            rw [JsonItem.rereadItems, JsonItem.itemsNesting, JsonItem.itemsNesting,
              ih item (h item List.mem_cons_self),
              ihItems fun i hi => h i (List.mem_cons_of_mem _ hi)]
      rw [JsonItem.reread, JsonItem.nesting, JsonItem.nesting, hitems child fun _ h => h]
  | object child ih =>
      have hmembers : ∀ members : List (CString × JsonItem),
          (∀ member ∈ members, member ∈ child) →
          JsonItem.membersNesting (JsonItem.rereadMembers members) =
            JsonItem.membersNesting members := by
        intro members
        induction members with
        | nil => exact fun _ => rfl
        | cons member members ihMembers =>
            intro h
            have hmember := ih member (h member List.mem_cons_self)
            obtain ⟨name, item⟩ := member
            rw [JsonItem.rereadMembers, JsonItem.membersNesting, JsonItem.membersNesting, hmember,
              ihMembers fun m hm => h m (List.mem_cons_of_mem _ hm)]
      rw [JsonItem.reread, JsonItem.nesting, JsonItem.nesting, hmembers child fun _ h => h]

/-- What an item is read back as, if it nests no deeper than the limit. -/
def rereadWithin (item : JsonItem) : Option JsonItem :=
  if item.nesting ≤ JsonItem.nestingLimit then some item.reread else none

/-- An item that nests too deeply is printed, but its text is refused. -/
theorem readText_valueText_eq (format : Bool) (item : JsonItem) :
    readText (valueText format 0 item) = rereadWithin item := by
  unfold rereadWithin
  split_ifs with hnesting
  · exact readText_valueText format hnesting
  · have hskip := skipSpaces_valueText format 0 item []
    have hback := readsBack format item item.nesting 0 [] le_rfl (by rintro c ⟨⟩)
    rw [List.append_nil] at hskip hback
    unfold readText
    rw [skipBom_valueText, hskip, Option.map_eq_none_iff]
    by_contra hsome
    obtain ⟨⟨item', rest⟩, hread⟩ := Option.ne_none_iff_exists'.mp hsome
    have hmore := readValue_mono (not_le.mp hnesting).le _ _ hread
    have hdeep := readValue_nesting _ _ _ _ hread
    rw [hback] at hmore
    cases hmore
    rw [nesting_reread] at hdeep
    exact hnesting hdeep

/-- Whatever text it is given, the parser comes to an end without touching
memory outside of it.  A reported error is in the text or at its end, and an
accepted item nests no deeper than the limit. -/
theorem parse_total (value : CString) :
    ∃ outcome, JsonParser.parse value = some outcome ∧
      (∀ position, outcome = .error position → position ≤ value.length) ∧
      ∀ item, outcome = .ok item → item.nesting ≤ JsonItem.nestingLimit := by
  rcases parse_eq value with ⟨item, hread, hparse⟩ | ⟨-, position, hposition, hparse⟩
  · refine ⟨_, hparse, by rintro position ⟨⟩, ?_⟩
    rintro item' ⟨⟩
    obtain ⟨⟨item'', rest⟩, hvalue, heq⟩ := Option.map_eq_some_iff.mp hread
    cases heq
    exact readValue_nesting _ _ _ _ hvalue
  · refine ⟨_, hparse, ?_, by rintro item ⟨⟩⟩
    rintro position' ⟨⟩
    exact hposition

end Iperf3
