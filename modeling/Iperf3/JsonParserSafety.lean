import Iperf3.JsonParser
import Iperf3.JsonReader
import Mathlib.Tactic

/-!
# The parser stays inside its buffer

A buffer stands before a text when that text and its terminating zero are what
is left of the content.  On such a buffer every parse function gives what the
reader gives on the text: it terminates, it reads nothing outside of the
content, and the copy of a string has room for everything written to it.
-/

namespace Iperf3

open JsonByte

/-- What is left of the content is the text `s` and its zero. -/
structure Stands (b : ParseBuffer) (s : List UInt8) : Prop where
  length_eq : b.length = b.content.length
  drop_eq : b.content.drop b.offset = s ++ [0]

namespace Stands

variable {b : ParseBuffer} {s : List UInt8}

theorem content_length (h : Stands b s) : b.length = b.offset + s.length + 1 := by
  have hlength := congrArg List.length h.drop_eq
  rw [List.length_drop, List.length_append, List.length_singleton] at hlength
  have := h.length_eq
  omega

theorem at_eq (h : Stands b s) (i : ℕ) : b.at? i = (s ++ [0])[i]? := by
  unfold ParseBuffer.at?
  rw [← h.drop_eq, List.getElem?_drop]

theorem canAccess (h : Stands b s) (i : ℕ) : b.canAccessAtIndex i = decide (i ≤ s.length) := by
  have hlength := h.content_length
  unfold ParseBuffer.canAccessAtIndex
  rw [hlength, decide_eq_decide]
  omega

theorem advance (h : Stands b s) {n : ℕ} (hn : n ≤ s.length) :
    Stands (b.advance n) (s.drop n) where
  length_eq := h.length_eq
  drop_eq := by
    change b.content.drop (b.offset + n) = s.drop n ++ [0]
    rw [← List.drop_drop, h.drop_eq, List.drop_append_of_le_length hn]

theorem advance_suffix (h : Stands b s) {t : List UInt8} (ht : t <:+ s) :
    Stands (b.advance (s.length - t.length)) t := by
  have hadvance := h.advance (n := s.length - t.length) (by omega)
  rwa [← List.suffix_iff_eq_drop.mp ht] at hadvance

theorem standsAt_eq (h : Stands b s) {c : UInt8} (hc : c ≠ 0) :
    b.standsAt c = some (decide (s.head? = some c)) := by
  unfold ParseBuffer.standsAt
  rw [h.canAccess, h.at_eq]
  cases s with
  | nil =>
      have hne : ¬ 0 = c := fun heq => hc heq.symm
      simp [hne]
  | cons d rest => simp

end Stands

/-! ## Skipping -/

theorem skipSpaces_suffix (s : List UInt8) : JsonReader.skipSpaces s <:+ s :=
  List.dropWhile_suffix _

theorem skipSpaces_eq {b : ParseBuffer} {s : List UInt8} (h : Stands b s) :
    b.skipSpaces (s.length + 1) = some (b.advance
      (if JsonReader.skipSpaces s = [] then s.length + 1
        else s.length - (JsonReader.skipSpaces s).length)) := by
  induction s generalizing b with
  | nil =>
      have hbyte : b.at? 0 = some 0 := h.at_eq 0
      have hend : ParseBuffer.skipSpaces 0 (b.advance 1) = some (b.advance 1) := rfl
      unfold ParseBuffer.skipSpaces
      rw [h.canAccess, hbyte]
      simp [JsonReader.skipSpaces, hend, space]
  | cons c s ih =>
      have hbyte : b.at? 0 = some c := h.at_eq 0
      have hnext : Stands (b.advance 1) s := h.advance (by simp)
      unfold ParseBuffer.skipSpaces
      rw [h.canAccess, hbyte]
      by_cases hc : c ≤ space
      · have hskip : JsonReader.skipSpaces (c :: s) = JsonReader.skipSpaces s := by
          simp [JsonReader.skipSpaces, hc]
        have hle := (skipSpaces_suffix s).length_le
        simp only [Nat.zero_le, decide_true, if_true, hc, ih hnext, hskip, List.length_cons]
        congr 1
        unfold ParseBuffer.advance
        simp only
        split_ifs
        · congr 1
          omega
        · congr 1
          omega
      · have hskip : JsonReader.skipSpaces (c :: s) = c :: s := by
          simp [JsonReader.skipSpaces, hc]
        simp [hskip, hc, ParseBuffer.advance]

theorem skipWhitespace_eq {b : ParseBuffer} {s : List UInt8} (h : Stands b s) :
    b.skipWhitespace =
      some (b.advance (s.length - (JsonReader.skipSpaces s).length)) := by
  have hlength := h.content_length
  have hfuel : b.length - b.offset = s.length + 1 := by omega
  unfold ParseBuffer.skipWhitespace
  rw [h.canAccess, hfuel, skipSpaces_eq h]
  simp only [Nat.zero_le, decide_true, if_true, Option.map_some]
  congr 1
  split_ifs with hnil hend hend
  · rw [hnil, List.length_nil, Nat.sub_zero]
    rfl
  · exact absurd hlength.symm hend
  · have hpos := List.length_pos_iff.mpr hnil
    have hle := (skipSpaces_suffix s).length_le
    have hoffset : b.offset + (s.length - (JsonReader.skipSpaces s).length) = b.length := hend
    omega
  · rfl

/-- Skipping blanks does not touch anything behind the text. -/
theorem Stands.skipWhitespace {b : ParseBuffer} {s : List UInt8} (h : Stands b s) :
    ∃ n, b.skipWhitespace = some (b.advance n) ∧
      Stands (b.advance n) (JsonReader.skipSpaces s) :=
  ⟨_, skipWhitespace_eq h, h.advance_suffix (skipSpaces_suffix s)⟩

/-! ## Parsers and readers -/

/-- The buffer `b'` of a call that was made on `b`, which is the same memory at
the same depth. -/
structure SameBuffer (b b' : ParseBuffer) : Prop where
  content_eq : b'.content = b.content
  length_eq : b'.length = b.length
  depth_eq : b'.depth = b.depth

/-- The outcome of a parse function on a buffer before `s` is that of a reader
on `s`.  A failure leaves the offset at most at the end of the buffer. -/
def Simulates {α : Type} (b : ParseBuffer) (s : List UInt8)
    (outcome : Option (Option α × ParseBuffer)) : Option (α × List UInt8) → Prop
  | some (item, rest) =>
      rest <:+ s ∧ ∃ b', outcome = some (some item, b') ∧ Stands b' rest ∧ SameBuffer b b'
  | none => ∃ b', outcome = some (none, b') ∧ b'.content = b.content ∧ b'.length = b.length ∧
      b'.offset ≤ b.length

/-- At the given depth the parser refines the reader. -/
def Refines {α : Type} (depth : ℕ) (parser : Parser α) (reader : Reader α) : Prop :=
  ∀ b s, Stands b s → b.depth = depth → Simulates b s (parser b) (reader s)

theorem SameBuffer.advance (b : ParseBuffer) (n : ℕ) : SameBuffer b (b.advance n) :=
  ⟨rfl, rfl, rfl⟩

theorem SameBuffer.trans {b b' b'' : ParseBuffer} (h : SameBuffer b b') (h' : SameBuffer b' b'') :
    SameBuffer b b'' where
  content_eq := h'.content_eq.trans h.content_eq
  length_eq := h'.length_eq.trans h.length_eq
  depth_eq := h'.depth_eq.trans h.depth_eq

theorem Stands.offset_lt {b : ParseBuffer} {s : List UInt8} (h : Stands b s) :
    b.offset < b.length := by
  have := h.content_length
  omega

theorem Simulates.fail {α : Type} {b b' : ParseBuffer} {s : List UInt8} (h : SameBuffer b b')
    (hoffset : b'.offset ≤ b.length) :
    Simulates (α := α) b s (some (none, b')) none :=
  ⟨b', rfl, h.content_eq, h.length_eq, hoffset⟩

theorem Simulates.succeed {α : Type} {b : ParseBuffer} {s : List UInt8} (h : Stands b s)
    (item : α) {n : ℕ} (hn : n ≤ s.length) :
    Simulates b s (some (some item, b.advance n)) (some (item, s.drop n)) :=
  ⟨List.drop_suffix n s, _, rfl, h.advance hn, SameBuffer.advance b n⟩

/-- Mapping the item on both sides. -/
theorem Simulates.map {α β : Type} {b : ParseBuffer} {s : List UInt8}
    {outcome : Option (Option α × ParseBuffer)} {expected : Option (α × List UInt8)}
    (h : Simulates b s outcome expected) (f : α → β) :
    Simulates b s (outcome.map fun (item, b) => (item.map f, b))
      (expected.map fun (item, rest) => (f item, rest)) := by
  cases expected with
  | none =>
      obtain ⟨b', rfl, hsame⟩ := h
      exact ⟨b', rfl, hsame⟩
  | some result =>
      obtain ⟨hsuffix, b', rfl, hstands⟩ := h
      exact ⟨hsuffix, b', rfl, hstands⟩

/-- An outcome on a later part of the text is one on the whole of it. -/
theorem Simulates.later {α : Type} {b b' : ParseBuffer} {s t : List UInt8}
    {outcome : Option (Option α × ParseBuffer)} {expected : Option (α × List UInt8)}
    (h : Simulates b' t outcome expected) (hsame : SameBuffer b b') (ht : t <:+ s) :
    Simulates b s outcome expected := by
  cases expected with
  | none =>
      obtain ⟨b'', hout, hcontent, hlength, hoffset⟩ := h
      exact ⟨b'', hout, hcontent.trans hsame.content_eq, hlength.trans hsame.length_eq,
        hsame.length_eq ▸ hoffset⟩
  | some result =>
      obtain ⟨hsuffix, b'', hout, hstands, hsame'⟩ := h
      exact ⟨hsuffix.trans ht, b'', hout, hstands, hsame.trans hsame'⟩

/-! ## Words -/

theorem startsWith_eq {b : ParseBuffer} {s : List UInt8} (h : Stands b s) (word : List UInt8)
    (index : ℕ) (hlength : index + word.length ≤ s.length + 1) :
    b.startsWith word index =
      some (decide (((s ++ [0]).drop index).take word.length = word)) := by
  induction word generalizing index with
  | nil => simp [ParseBuffer.startsWith]
  | cons c word ih =>
      rw [List.length_cons] at hlength
      have hindex : index < (s ++ [0]).length := by
        rw [List.length_append, List.length_singleton]
        omega
      unfold ParseBuffer.startsWith
      rw [h.at_eq, List.getElem?_eq_getElem hindex]
      dsimp only
      rw [List.drop_eq_getElem_cons hindex, List.length_cons, List.take_succ_cons]
      by_cases hc : (s ++ [0])[index] = c
      · rw [if_pos hc, ih (index + 1) (by omega), hc]
        simp
      · rw [if_neg hc]
        simp [hc]

theorem standsAtWord_eq {b : ParseBuffer} {s : List UInt8} (h : Stands b s) (word : List UInt8)
    (hword : (0 : UInt8) ∉ word) :
    JsonParser.standsAtWord b word = some (JsonReader.startsWith word s) := by
  have hcan : b.canRead word.length = decide (word.length ≤ s.length + 1) := by
    have hlength := h.content_length
    unfold ParseBuffer.canRead
    rw [hlength, decide_eq_decide]
    omega
  unfold JsonParser.standsAtWord JsonReader.startsWith
  rw [hcan]
  by_cases hlength : word.length ≤ s.length
  · rw [decide_eq_true (by omega), if_pos rfl, startsWith_eq h word 0 (by omega), List.drop_zero,
      List.take_append_of_le_length hlength]
  · -- The word would have to contain the zero that ends the text.
    have hshort : ¬ s.take word.length = word := by
      intro heq
      have := congrArg List.length heq
      rw [List.length_take] at this
      omega
    rw [decide_eq_false hshort]
    split_ifs with hcanRead
    · have hlong : word.length = s.length + 1 := by
        have := of_decide_eq_true hcanRead
        omega
      rw [startsWith_eq h word 0 (by omega), List.drop_zero, hlong,
        List.take_of_length_le (by simp)]
      have hne : ¬ s ++ [0] = word := by
        rintro rfl
        simp at hword
      rw [decide_eq_false hne]
    · rfl

/-! ## Numbers -/

theorem numberCharacters_eq {b : ParseBuffer} {s : List UInt8} (h : Stands b s) (room index : ℕ)
    (hindex : index ≤ s.length) :
    JsonParser.numberCharacters b room index =
      some (((s.drop index).take room).takeWhile isNumber) := by
  induction room generalizing index with
  | zero => simp [JsonParser.numberCharacters]
  | succ room ih =>
      unfold JsonParser.numberCharacters
      rw [h.canAccess, decide_eq_true hindex, if_pos rfl, h.at_eq]
      rcases hindex.lt_or_eq with hlt | rfl
      · rw [List.getElem?_append_left hlt, List.getElem?_eq_getElem hlt,
          List.drop_eq_getElem_cons hlt, List.take_succ_cons, List.takeWhile_cons]
        dsimp only
        rw [ih (index + 1) hlt]
        split_ifs <;> rfl
      · have hzero : isNumber 0 = false := by decide
        simp [hzero]

theorem ofBytes_length_le (bytes : List UInt8) : (CString.ofBytes bytes).length ≤ bytes.length := by
  induction bytes with
  | nil => exact le_rfl
  | cons c bytes ih =>
      unfold CString.ofBytes
      split_ifs
      · exact Nat.succ_le_succ ih
      · exact Nat.zero_le _

theorem parseNumber_refines (depth : ℕ) :
    Refines depth JsonParser.parseNumber JsonReader.readNumber := by
  intro b s h _
  unfold JsonParser.parseNumber JsonReader.readNumber JsonReader.numberPrefix
  rw [numberCharacters_eq h 63 0 (Nat.zero_le _), List.drop_zero, Option.bind_eq_bind,
    Option.bind_some]
  have hlength :
      (CString.ofBytes ((s.take 63).takeWhile isNumber)).length ≤ s.length := by
    refine (ofBytes_length_le _).trans ?_
    have hshorter := List.takeWhile_prefix (l := s.take 63) isNumber
    exact hshorter.length_le.trans (List.length_take_le' 63 s)
  dsimp only
  cases hstrtod : FloatScan.strtod (CString.ofBytes ((s.take 63).takeWhile isNumber)) with
  | none => exact Simulates.fail ⟨rfl, rfl, rfl⟩ h.offset_lt.le
  | some result => exact Simulates.succeed h _ (by omega)

/-! ## The backslashes of a string -/

/-- How many backslashes a scan passes together with the character behind. -/
def pairs : List UInt8 → ℕ
  | [] => 0
  | c :: s =>
      if c = backslash then
        match s with
        | [] => 1
        | _ :: s => pairs s + 1
      else pairs s

theorem pairs_of_ne {c : UInt8} (hc : c ≠ backslash) (s : List UInt8) :
    pairs (c :: s) = pairs s := by
  rw [pairs.eq_def]
  exact if_neg hc

theorem pairs_backslash (d : UInt8) (s : List UInt8) :
    pairs (backslash :: d :: s) = pairs s + 1 := by
  rw [pairs.eq_def]
  exact if_pos rfl

theorem pairs_backslash_nil : pairs [backslash] = 1 := by
  rw [pairs.eq_def]
  exact if_pos rfl

/-- Starting one character later changes the count by at most one. -/
theorem pairs_cons (n : ℕ) :
    ∀ s : List UInt8, s.length ≤ n → ∀ c,
      pairs s ≤ pairs (c :: s) ∧ pairs (c :: s) ≤ pairs s + 1 := by
  induction n with
  | zero =>
      intro s hs c
      obtain rfl := List.length_eq_zero_iff.mp (Nat.le_zero.mp hs)
      by_cases hc : c = backslash
      · rw [hc, pairs_backslash_nil]
        exact ⟨Nat.zero_le _, Nat.le_add_left _ _⟩
      · rw [pairs_of_ne hc]
        omega
  | succ n ih =>
      intro s hs c
      by_cases hc : c = backslash
      · cases s with
        | nil =>
            rw [hc, pairs_backslash_nil]
            exact ⟨Nat.zero_le _, Nat.le_add_left _ _⟩
        | cons d s =>
            have hd := ih s (Nat.le_of_succ_le_succ hs) d
            rw [hc, pairs_backslash]
            omega
      · rw [pairs_of_ne hc]
        omega

theorem pairs_drop_two (s : List UInt8) : pairs s ≤ pairs (s.drop 2) + 1 := by
  cases s with
  | nil => exact Nat.zero_le _
  | cons c s =>
      cases s with
      | nil => exact (pairs_cons 0 [] le_rfl c).2
      | cons d s =>
          rw [List.drop_succ_cons, List.drop_succ_cons, List.drop_zero]
          by_cases hc : c = backslash
          · rw [hc, pairs_backslash]
          · rw [pairs_of_ne hc]
            exact (pairs_cons s.length s le_rfl d).2

theorem pairs_drop (k : ℕ) (s : List UInt8) : pairs s ≤ pairs (s.drop (2 * k)) + k := by
  induction k generalizing s with
  | zero => exact le_rfl
  | succ k ih =>
      have htwo := pairs_drop_two s
      have hrest := ih (s.drop 2)
      rw [List.drop_drop, show 2 + 2 * k = 2 * (k + 1) by ring] at hrest
      omega

/-! ## The closing quote -/

theorem splitString_append {s inner rest : List UInt8}
    (h : JsonReader.splitString s = some (inner, rest)) : s = inner ++ quote :: rest := by
  induction s using JsonReader.splitString.induct generalizing inner with
  | case1 => cases h
  | case2 s =>
      unfold JsonReader.splitString at h
      rw [if_pos rfl] at h
      cases h
      rfl
  | case3 hne =>
      unfold JsonReader.splitString at h
      rw [if_neg hne, if_pos rfl] at h
      cases h
  | case4 d s hne ih =>
      unfold JsonReader.splitString at h
      rw [if_neg hne, if_pos rfl] at h
      obtain ⟨⟨inner', rest'⟩, hsplit, heq⟩ := Option.map_eq_some_iff.mp h
      cases heq
      rw [ih hsplit]
      rfl
  | case5 c s hquote hbackslash ih =>
      unfold JsonReader.splitString at h
      rw [if_neg hquote, if_neg hbackslash] at h
      obtain ⟨⟨inner', rest'⟩, hsplit, heq⟩ := Option.map_eq_some_iff.mp h
      cases heq
      rw [ih hsplit]
      rfl

theorem length_of_drop {content s : List UInt8} {pos : ℕ} (h : content.drop pos = s ++ [0]) :
    content.length = pos + s.length + 1 := by
  have hlength := congrArg List.length h
  rw [List.length_drop, List.length_append, List.length_singleton] at hlength
  omega

theorem of_drop_cons {content s : List UInt8} {c : UInt8} {pos : ℕ}
    (h : content.drop pos = c :: s) :
    content[pos]? = some c ∧ content.drop (pos + 1) = s := by
  have hget : (content.drop pos)[0]? = content[pos + 0]? := List.getElem?_drop
  rw [h] at hget
  rw [← List.drop_drop, h]
  exact ⟨hget.symm, rfl⟩

/-- The scan for the closing quote splits the text, and passes the zero at its
end without finding one. -/
theorem scanString_eq {content : List UInt8} (s : List UInt8) {fuel pos skipped : ℕ}
    (hfuel : s.length + 1 < fuel) (hdrop : content.drop pos = s ++ [0]) :
    JsonParser.scanString content content.length fuel pos skipped =
      some ((JsonReader.splitString s).map fun (inner, _) =>
        (pos + inner.length, skipped + pairs inner)) := by
  have hend : ∀ {fuel q skipped : ℕ}, content.length ≤ q →
      JsonParser.scanString content content.length (fuel + 1) q skipped = some none := by
    intro fuel q skipped hq
    unfold JsonParser.scanString
    rw [if_pos hq]
  induction s using JsonReader.splitString.induct generalizing fuel pos skipped with
  | case1 =>
      rw [List.length_nil] at hfuel
      obtain ⟨fuel, rfl⟩ : ∃ n, fuel = n + 2 := ⟨fuel - 2, by omega⟩
      have hlen := length_of_drop hdrop
      obtain ⟨hget, -⟩ := of_drop_cons hdrop
      unfold JsonParser.scanString
      rw [if_neg (by omega), hget]
      dsimp only
      rw [if_neg (by decide), if_neg (by decide), hend (by rw [hlen]; rfl)]
      rfl
  | case2 s =>
      obtain ⟨fuel, rfl⟩ : ∃ n, fuel = n + 1 := ⟨fuel - 1, by omega⟩
      have hlen := length_of_drop hdrop
      obtain ⟨hget, -⟩ := of_drop_cons hdrop
      unfold JsonParser.scanString JsonReader.splitString
      rw [if_neg (by omega), hget, if_pos rfl]
      simp [pairs]
  | case3 hne =>
      rw [List.length_singleton] at hfuel
      obtain ⟨fuel, rfl⟩ : ∃ n, fuel = n + 2 := ⟨fuel - 2, by omega⟩
      have hlen := length_of_drop hdrop
      obtain ⟨hget, -⟩ := of_drop_cons hdrop
      rw [List.length_singleton] at hlen
      unfold JsonParser.scanString JsonReader.splitString
      rw [if_neg (by omega), hget]
      dsimp only
      rw [if_neg hne, if_pos rfl, if_neg (by omega), hend (by omega), if_neg hne, if_pos rfl]
      rfl
  | case4 d s hne ih =>
      obtain ⟨fuel, rfl⟩ : ∃ n, fuel = n + 1 := ⟨fuel - 1, by omega⟩
      have hlen := length_of_drop hdrop
      obtain ⟨hget, hdrop'⟩ := of_drop_cons hdrop
      obtain ⟨-, hdrop''⟩ := of_drop_cons hdrop'
      simp only [List.length_cons] at hlen hfuel
      unfold JsonParser.scanString JsonReader.splitString
      rw [if_neg (by omega), hget]
      dsimp only
      rw [if_neg hne, if_pos rfl, if_neg (by omega), ih (by omega) hdrop'', if_neg hne, if_pos rfl]
      cases JsonReader.splitString s with
      | none => rfl
      | some result =>
          simp only [Option.map_some, pairs_backslash, List.length_cons]
          congr 3
          · omega
          · omega
  | case5 c s hquote hbackslash ih =>
      obtain ⟨fuel, rfl⟩ : ∃ n, fuel = n + 1 := ⟨fuel - 1, by omega⟩
      have hlen := length_of_drop hdrop
      obtain ⟨hget, hdrop'⟩ := of_drop_cons hdrop
      simp only [List.length_cons] at hlen hfuel
      unfold JsonParser.scanString JsonReader.splitString
      rw [if_neg (by omega), hget]
      dsimp only
      rw [if_neg hquote, if_neg hbackslash, ih (by omega) hdrop', if_neg hquote, if_neg hbackslash]
      cases JsonReader.splitString s with
      | none => rfl
      | some result =>
          simp only [Option.map_some, pairs_of_ne hbackslash, List.length_cons]
          congr 3
          omega

/-! ## Escapes -/

theorem parseHex4_eq {content s : List UInt8} (left : ℕ) {pos h : ℕ} {front behind : List UInt8}
    (hfront : s = front ++ behind) (hleft : front.length = left)
    (hdrop : content.drop pos = s) :
    JsonParser.parseHex4 content left pos h = some (JsonReader.hexFrom h front) := by
  induction left generalizing pos h s front with
  | zero =>
      obtain rfl := List.length_eq_zero_iff.mp hleft
      rfl
  | succ left ih =>
      obtain ⟨c, front, rfl⟩ := List.exists_cons_of_length_eq_add_one hleft
      rw [hfront, List.cons_append] at hdrop
      obtain ⟨hget, hrest⟩ := of_drop_cons hdrop
      unfold JsonParser.parseHex4 JsonReader.hexFrom
      rw [hget]
      dsimp only
      cases hexDigit c with
      | none => rfl
      | some digit => exact ih rfl (Nat.succ.inj hleft) hrest

theorem parseHex4_take {content r behind : List UInt8} {pos : ℕ}
    (hdrop : content.drop pos = r ++ behind) (hlength : 4 ≤ r.length) :
    JsonParser.parseHex4 content 4 pos 0 = some (JsonReader.hex4 r) := by
  have hsplit : r ++ behind = r.take 4 ++ (r.drop 4 ++ behind) := by
    rw [← List.append_assoc, List.take_append_drop]
  have hfour : (r.take 4).length = 4 := by
    rw [List.length_take]
    omega
  exact parseHex4_eq 4 hsplit hfour hdrop

theorem hexDigit_lt {c : UInt8} {d : ℕ} (h : hexDigit c = some d) : d < 16 := by
  unfold hexDigit at h
  simp only [UInt8.le_iff_toNat_le] at h
  split_ifs at h
  all_goals
    cases h
    simp only [UInt8.toNat_ofNat] at *
    omega

theorem hexFrom_lt (s : List UInt8) (h : ℕ) :
    JsonReader.hexFrom h s < (h + 1) * 16 ^ s.length := by
  induction s generalizing h with
  | nil => simp [JsonReader.hexFrom]
  | cons c s ih =>
      unfold JsonReader.hexFrom
      cases hc : hexDigit c with
      | none => positivity
      | some d =>
          have hd := hexDigit_lt hc
          refine (ih _).trans_le ?_
          rw [List.length_cons, pow_succ', ← mul_assoc]
          exact Nat.mul_le_mul_right _ (by omega)

theorem hex4_lt (s : List UInt8) : JsonReader.hex4 s < 0x10000 := by
  have hlt := hexFrom_lt (s.take 4) 0
  have hlength := List.length_take_le 4 s
  have hpow := Nat.pow_le_pow_right (by norm_num : 0 < 16) hlength
  unfold JsonReader.hex4
  omega

theorem length_utf8Sequence (mark n codepoint : ℕ) (later : List UInt8) :
    (utf8Sequence mark n codepoint later).length = n + 1 + later.length := by
  induction n generalizing codepoint later with
  | zero =>
      unfold utf8Sequence
      rw [List.length_cons]
      omega
  | succ n ih =>
      unfold utf8Sequence
      rw [ih, List.length_cons]
      omega

theorem length_encodeUtf8 {codepoint : ℕ} {bytes : List UInt8}
    (h : encodeUtf8 codepoint = some bytes) :
    bytes.length ≤ 4 ∧ (codepoint < 0x10000 → bytes.length ≤ 3) := by
  unfold encodeUtf8 at h
  split_ifs at h <;> cases h <;> simp only [length_utf8Sequence, List.length_singleton,
    List.length_nil] <;> omega

/-- What the digits of `\u` give: at most three bytes for four digits, or four
for two groups of them. -/
theorem readUtf16_rest {r bytes behind : List UInt8}
    (h : JsonReader.readUtf16 r = some (bytes, behind)) :
    ∃ k, 2 * k ≤ r.length ∧ behind = r.drop (2 * k) ∧ bytes.length ≤ k + 1 := by
  unfold JsonReader.readUtf16 at h
  split_ifs at h with hshort hlow hhigh hlong hmark hsecond
  · obtain ⟨bytes', hencode, heq⟩ := Option.map_eq_some_iff.mp h
    cases heq
    have hbytes := (length_encodeUtf8 hencode).1
    exact ⟨5, by omega, rfl, by omega⟩
  · obtain ⟨bytes', hencode, heq⟩ := Option.map_eq_some_iff.mp h
    cases heq
    exact ⟨2, by omega, rfl, (length_encodeUtf8 hencode).2 (hex4_lt r)⟩

/-- The conversion on the buffer is the one on the characters behind `\u`. -/
theorem utf16LiteralToUtf8_eq {content r behind : List UInt8} {pointer inputEnd : ℕ}
    (hdrop : content.drop (pointer + 2) = r ++ behind)
    (hend : inputEnd = pointer + 2 + r.length) :
    JsonParser.utf16LiteralToUtf8 content pointer inputEnd =
      some ((JsonReader.readUtf16 r).map fun (bytes, rest) =>
        (bytes, 2 + (r.length - rest.length))) := by
  unfold JsonParser.utf16LiteralToUtf8 JsonReader.readUtf16
  by_cases hshort : r.length < 4
  · rw [if_pos (by omega), if_pos hshort]
    rfl
  rw [if_neg (by omega), if_neg hshort, parseHex4_take hdrop (by omega)]
  simp only [Option.bind_eq_bind, Option.bind_some]
  by_cases hlow : 0xDC00 ≤ JsonReader.hex4 r ∧ JsonReader.hex4 r ≤ 0xDFFF
  · rw [if_pos hlow, if_pos hlow]
    rfl
  rw [if_neg hlow, if_neg hlow]
  by_cases hhigh : 0xD800 ≤ JsonReader.hex4 r ∧ JsonReader.hex4 r ≤ 0xDBFF
  · rw [if_pos hhigh, if_pos hhigh]
    by_cases hlong : r.length < 10
    · rw [if_pos (by omega), if_pos hlong]
      rfl
    rw [if_neg (by omega), if_neg hlong]
    have hat : ∀ i, i < r.length → content[pointer + (2 + i)]? = r[i]? := by
      intro i hi
      have hleft : (r ++ behind)[i]? = r[i]? := List.getElem?_append_left hi
      rw [← hleft, ← hdrop, List.getElem?_drop, add_assoc]
    have hdrop' : content.drop (pointer + 8) = r.drop 6 ++ behind := by
      rw [← List.drop_append_of_le_length (by omega), ← hdrop, List.drop_drop]
    have hmark := hat 4 (by omega)
    have hletter := hat 5 (by omega)
    rw [hmark, hletter, parseHex4_take hdrop' (by rw [List.length_drop]; omega),
      List.getElem?_eq_getElem (by omega : 4 < r.length),
      List.getElem?_eq_getElem (by omega : 5 < r.length)]
    simp only [Option.bind_some, ne_eq, Option.some.injEq]
    split_ifs
    · rfl
    · rfl
    · have hrest : 2 + (r.length - (r.drop 10).length) = 12 := by
        rw [List.length_drop]
        omega
      rw [Option.map_map]
      simp only [Function.comp_def, hrest]
  · rw [if_neg hhigh, if_neg hhigh]
    have hrest : 2 + (r.length - (r.drop 4).length) = 6 := by
      rw [List.length_drop]
      omega
    rw [Option.map_map]
    simp only [Function.comp_def, hrest]

/-! ## The characters of a literal -/

theorem pairs_le_length (s : List UInt8) : pairs s ≤ s.length := by
  induction s with
  | nil => exact le_rfl
  | cons c s ih =>
      have := (pairs_cons s.length s le_rfl c).2
      rw [List.length_cons]
      omega

theorem store_eq {capacity : ℕ} {output bytes : List UInt8}
    (h : output.length + bytes.length ≤ capacity) :
    JsonParser.store capacity output bytes = some (output ++ bytes) :=
  if_pos h

/-- The outcome of `unescape`, when `expected` is what remains to be decoded. -/
def Unescapes (inputEnd capacity : ℕ) (output : List UInt8)
    (outcome : Option (Except ℕ (List UInt8))) : Option (List UInt8) → Prop
  | some decoded => outcome = some (.ok (output ++ decoded)) ∧
      (output ++ decoded).length + 1 ≤ capacity
  | none => ∃ pointer, outcome = some (.error pointer) ∧ pointer ≤ inputEnd

theorem Unescapes.map {inputEnd capacity : ℕ} {output : List UInt8} (front : List UInt8)
    {outcome : Option (Except ℕ (List UInt8))} {expected : Option (List UInt8)}
    (h : Unescapes inputEnd capacity (output ++ front) outcome expected) :
    Unescapes inputEnd capacity output outcome (expected.map (front ++ ·)) := by
  cases expected with
  | none => exact h
  | some decoded =>
      obtain ⟨houtcome, hlength⟩ := h
      rw [List.append_assoc] at houtcome hlength
      exact ⟨houtcome, hlength⟩

theorem unescape_done {content output : List UInt8} {inputEnd capacity fuel pointer : ℕ}
    (h : inputEnd ≤ pointer) :
    JsonParser.unescape content inputEnd capacity (fuel + 1) pointer output =
      some (.ok output) := by
  unfold JsonParser.unescape
  exact if_pos h

/-- The room that the scan for the closing quote has left suffices for every
sequence of escapes, also for one that the scan has split differently. -/
theorem unescape_eq {content behind : List UInt8} {inputEnd capacity : ℕ} (n : ℕ) :
    ∀ {x output : List UInt8} {fuel pointer : ℕ}, x.length ≤ n → x.length < fuel →
      content.drop pointer = x ++ quote :: behind → inputEnd = pointer + x.length →
      output.length + x.length + 2 ≤ capacity + pairs x →
      Unescapes inputEnd capacity output
        (JsonParser.unescape content inputEnd capacity fuel pointer output)
        (JsonReader.decode x) := by
  induction n with
  | zero =>
      intro x output fuel pointer hn hfuel hdrop hend hroom
      obtain rfl := List.length_eq_zero_iff.mp (Nat.le_zero.mp hn)
      obtain ⟨fuel, rfl⟩ : ∃ k, fuel = k + 1 := ⟨fuel - 1, by omega⟩
      rw [List.length_nil] at hend hroom
      have hnone : pairs [] = 0 := rfl
      rw [JsonReader.decode_nil, unescape_done (by omega)]
      constructor
      · rw [List.append_nil]
      · rw [List.append_nil]
        omega
  | succ n ih =>
      intro x output fuel pointer hn hfuel hdrop hend hroom
      cases x with
      | nil => exact ih (Nat.zero_le n) hfuel hdrop hend hroom
      | cons c x =>
      obtain ⟨fuel, rfl⟩ : ∃ k, fuel = k + 1 := ⟨fuel - 1, by omega⟩
      rw [List.length_cons] at hn hfuel hend hroom
      obtain ⟨hget, hnext⟩ := of_drop_cons hdrop
      unfold JsonParser.unescape
      rw [if_neg (by omega), hget]
      simp only [Option.bind_eq_bind, Option.bind_some]
      by_cases hc : c = backslash
      swap
      · -- An ordinary character.
        have hpairs := pairs_le_length x
        rw [pairs_of_ne hc] at hroom
        rw [if_pos hc, store_eq (by rw [List.length_singleton]; omega), JsonReader.decode_cons hc]
        apply Unescapes.map [c]
        apply ih (by omega) (by omega) hnext (by omega)
        rw [List.length_append, List.length_singleton]
        omega
      rw [if_neg (not_not_intro hc)]
      subst hc
      cases x with
      | nil =>
          -- The closing quote is taken for the escaped character.
          obtain ⟨hletter, -⟩ := of_drop_cons (s := behind) (c := quote) hnext
          obtain ⟨fuel, rfl⟩ : ∃ k, fuel = k + 1 := ⟨fuel - 1, by omega⟩
          have hquote : unescaped quote = some quote := by decide
          rw [pairs_backslash_nil, List.length_nil] at hroom
          rw [hletter, Option.bind_some, hquote]
          dsimp only
          rw [store_eq (by rw [List.length_singleton]; omega), Option.bind_some,
            JsonReader.decode_backslash]
          rw [List.length_nil] at hend
          refine ⟨unescape_done (by omega), ?_⟩
          rw [List.length_append, List.length_singleton]
          omega
      | cons letter r =>
      obtain ⟨hletter, hnext'⟩ := of_drop_cons hnext
      rw [List.length_cons] at hn hfuel hend hroom
      rw [pairs_backslash] at hroom
      rw [hletter, Option.bind_some]
      cases hunescaped : unescaped letter with
      | some d =>
          have hpairs := pairs_le_length r
          dsimp only
          rw [store_eq (by rw [List.length_singleton]; omega), Option.bind_some,
            JsonReader.decode_escape hunescaped]
          apply Unescapes.map [d]
          apply ih (by omega) (by omega) hnext' (by omega)
          rw [List.length_append, List.length_singleton]
          omega
      | none =>
      dsimp only
      by_cases hu : letter = letterU
      swap
      · rw [if_neg hu, JsonReader.decode_bad hunescaped hu]
        exact ⟨pointer, rfl, by omega⟩
      subst hu
      rw [if_pos rfl, utf16LiteralToUtf8_eq hnext' (by omega), JsonReader.decode_utf16]
      cases hread : JsonReader.readUtf16 r with
      | none => exact ⟨pointer, rfl, by omega⟩
      | some result =>
          obtain ⟨bytes, rest⟩ := result
          simp only [Option.map_some, Option.bind_some]
          obtain ⟨k, hlength, rfl, hbytes⟩ := readUtf16_rest hread
          have hlater : content.drop (pointer + 2 + 2 * k) =
              r.drop (2 * k) ++ quote :: behind := by
            rw [← List.drop_drop, ← List.drop_append_of_le_length hlength]
            exact congrArg (List.drop (2 * k)) hnext'
          have hpairs := pairs_drop k r
          have hpairs' := pairs_le_length (r.drop (2 * k))
          rw [List.length_drop] at hpairs' ⊢
          rw [store_eq (by omega), Option.bind_some]
          apply Unescapes.map bytes
          apply ih (by rw [List.length_drop]; omega) (by rw [List.length_drop]; omega)
            (by rw [← hlater]; congr 1; omega) (by rw [List.length_drop]; omega)
          rw [List.length_append, List.length_drop]
          omega

theorem ofBytes_append_zero (bytes : List UInt8) :
    CString.ofBytes (bytes ++ [0]) = CString.ofBytes bytes := by
  induction bytes with
  | nil => rfl
  | cons c bytes ih =>
      rw [List.cons_append]
      unfold CString.ofBytes
      rw [ih]

theorem parseCString_refines (depth : ℕ) :
    Refines depth JsonParser.parseCString JsonReader.readCString := by
  intro b s h _
  have hlength := h.content_length
  have hfail : ∀ offset ≤ b.length, Simulates (α := CString) b s
      (some (none, { b with offset := offset })) none :=
    fun offset hoffset => Simulates.fail ⟨rfl, rfl, rfl⟩ hoffset
  unfold JsonParser.parseCString JsonParser.parseStringBytes
  rw [h.at_eq]
  cases s with
  | nil => exact hfail (b.offset + 1) (by omega)
  | cons c s =>
  rw [List.length_cons] at hlength
  have hget : (c :: s ++ [0])[0]? = some c := rfl
  unfold JsonReader.readCString
  rw [hget]
  simp only [Option.bind_eq_bind, Option.bind_some]
  by_cases hquote : c = quote
  swap
  · rw [if_pos hquote, if_neg hquote]
    exact hfail (b.offset + 1) (by omega)
  subst hquote
  obtain ⟨-, hdrop⟩ := of_drop_cons (s := s ++ [0]) (c := quote) h.drop_eq
  have hscan : JsonParser.scanString b.content _ (b.length + 1) (b.offset + 1) 0 = _ :=
    scanString_eq s (by omega) hdrop
  rw [← h.length_eq] at hscan
  rw [if_neg (not_not_intro rfl), if_pos rfl, hscan]
  simp only [Option.bind_some]
  cases hsplit : JsonReader.splitString s with
  | none => exact hfail (b.offset + 1) (by omega)
  | some result =>
  obtain ⟨inner, rest⟩ := result
  obtain rfl := splitString_append hsplit
  rw [List.length_append, List.length_cons] at hlength
  simp only [Option.map_some, Option.bind_some]
  have hpairs := pairs_le_length inner
  have hinner : b.content.drop (b.offset + 1) = inner ++ quote :: (rest ++ [0]) := by
    rw [hdrop, List.append_assoc, List.cons_append]
  have hunescape : Unescapes (b.offset + 1 + inner.length)
      (b.offset + 1 + inner.length - b.offset - (0 + pairs inner) + 1) []
      (JsonParser.unescape b.content _ _ (b.length + 1) (b.offset + 1) [])
      (JsonReader.decode inner) :=
    unescape_eq inner.length le_rfl (by omega) hinner rfl (by rw [List.length_nil]; omega)
  cases hdecode : JsonReader.decode inner with
  | none =>
      rw [hdecode] at hunescape
      obtain ⟨pointer, hout, hpointer⟩ := hunescape
      rw [hout]
      exact hfail pointer (by omega)
  | some decoded =>
      rw [hdecode] at hunescape
      obtain ⟨hout, hroom⟩ := hunescape
      rw [List.nil_append] at hout hroom
      rw [hout]
      simp only [Option.bind_some]
      rw [store_eq (by rw [List.length_singleton]; exact hroom)]
      simp only [Option.bind_some, Option.map_some, ofBytes_append_zero]
      have hsucceed := Simulates.succeed h (CString.ofBytes decoded) (n := inner.length + 2)
        (by rw [List.length_cons, List.length_append, List.length_cons]; omega)
      have hrest : (quote :: (inner ++ quote :: rest)).drop (inner.length + 2) = rest := by
        rw [List.drop_succ_cons, List.drop_append, List.drop_of_length_le (by omega)]
        simp
      have hbuffer : ({ b with offset := b.offset + 1 + inner.length + 1 } : ParseBuffer) =
          b.advance (inner.length + 2) := by
        unfold ParseBuffer.advance
        congr 1
        omega
      rw [hrest] at hsucceed
      rw [hbuffer]
      exact hsucceed

theorem parseString_refines (depth : ℕ) :
    Refines depth JsonParser.parseString JsonReader.readString := by
  intro b s h hdepth
  exact (parseCString_refines depth b s h hdepth).map JsonItem.string

/-! ## Arrays and objects -/

theorem skipWhitespace_moves {b : ParseBuffer} {s : List UInt8} (h : Stands b s) :
    ∃ b', b.skipWhitespace = some b' ∧ Stands b' (JsonReader.skipSpaces s) ∧ SameBuffer b b' := by
  obtain ⟨n, hskip, hstands⟩ := h.skipWhitespace
  exact ⟨_, hskip, hstands, SameBuffer.advance b n⟩

/-- Each turn of the loop is one of the reader, and both stop at the first
element that no comma follows. -/
theorem parseElements_refines
    {α : Type} {depth : ℕ} {element : Parser α} {reader : Reader α}
    (helement : Refines depth element reader) (n : ℕ) :
    ∀ {m : ℕ} {b : ParseBuffer} {s : List UInt8}, Stands (b.advance 1) s → b.depth = depth →
      s.length < n → s.length < m →
      Simulates (b.advance 1) s (JsonParser.parseElements element n b)
        (JsonReader.readElements reader m s) := by
  induction n with
  | zero =>
      intro m b s _ _ hn
      exact absurd hn (Nat.not_lt_zero _)
  | succ n ih =>
      intro m b s hstands hdepth hn hm
      obtain ⟨m, rfl⟩ : ∃ k, m = k + 1 := ⟨m - 1, by omega⟩
      obtain ⟨b₁, hskip₁, hstands₁, hsame₁⟩ := skipWhitespace_moves hstands
      have hsuffix₁ := skipSpaces_suffix s
      have hitem := helement b₁ _ hstands₁ (hsame₁.depth_eq.trans hdepth)
      unfold JsonParser.parseElements JsonReader.readElements
      rw [hskip₁]
      simp only [Option.bind_eq_bind, Option.bind_some]
      cases hread : reader (JsonReader.skipSpaces s) with
      | none =>
          rw [hread] at hitem
          obtain ⟨b₂, hout, hcontent, hlength, hoffset⟩ := hitem
          rw [hout]
          exact ⟨b₂, rfl, hcontent.trans hsame₁.content_eq, hlength.trans hsame₁.length_eq,
            hsame₁.length_eq ▸ hoffset⟩
      | some result =>
      obtain ⟨item, rest⟩ := result
      rw [hread] at hitem
      obtain ⟨hsuffix₂, b₂, hout, hstands₂, hsame₂⟩ := hitem
      obtain ⟨b₃, hskip₃, hstands₃, hsame₃⟩ := skipWhitespace_moves hstands₂
      have hsuffix₃ := skipSpaces_suffix rest
      have hsame := (hsame₁.trans hsame₂).trans hsame₃
      have hsuffix := (hsuffix₃.trans hsuffix₂).trans hsuffix₁
      rw [hout]
      simp only [Option.bind_some, hskip₃, hstands₃.standsAt_eq (c := comma) (by decide)]
      cases hbehind : JsonReader.behind comma (JsonReader.skipSpaces rest) with
      | none =>
          rw [JsonReader.behind_eq_none] at hbehind
          rw [decide_eq_false hbehind]
          exact ⟨hsuffix, b₃, rfl, hstands₃, hsame⟩
      | some rest' =>
          rw [JsonReader.behind_eq_some] at hbehind
          rw [hbehind] at hstands₃ hsuffix ⊢
          have hlength := hsuffix.length_le
          rw [List.length_cons] at hlength
          have hnext : Stands (b₃.advance 1) rest' := hstands₃.advance (by simp)
          have hloop := ih (m := m) hnext (hsame.depth_eq.trans hdepth) (by omega) (by omega)
          rw [List.head?_cons, decide_eq_true rfl, if_pos rfl]
          exact (hloop.map (item :: ·)).later (hsame.trans (SameBuffer.advance b₃ 1))
            ((List.suffix_cons comma rest').trans hsuffix)

theorem Stands.of_same_place {b b' : ParseBuffer} {s : List UInt8} (h : Stands b s)
    (hcontent : b'.content = b.content) (hlength : b'.length = b.length)
    (hoffset : b'.offset = b.offset) : Stands b' s where
  length_eq := by rw [hlength, hcontent, h.length_eq]
  drop_eq := by rw [hcontent, hoffset, h.drop_eq]

/-- Leaving a container that was entered on `b` ends the outcome on `b`. -/
theorem Simulates.leave {α : Type} {b b' : ParseBuffer} {s rest : List UInt8} {close : UInt8}
    (hstands : Stands b' (close :: rest)) (hsame : SameBuffer b.enter b')
    (hsuffix : close :: rest <:+ s) (items : α) :
    Simulates b s (some (some items, b'.leave.advance 1)) (some (items, rest)) := by
  refine ⟨(List.suffix_cons close rest).trans hsuffix, _, rfl, ?_, ?_⟩
  · exact (hstands.advance (n := 1) (by simp)).of_same_place rfl rfl rfl
  · refine ⟨hsame.content_eq, hsame.length_eq, ?_⟩
    change b'.depth - 1 = b.depth
    rw [hsame.depth_eq]
    rfl

theorem parseContainer_refines
    {α : Type} {depth : ℕ} {element : Parser α} {reader : Reader α} {close : UInt8}
    (hclose : close ≠ 0) (helement : Refines (depth + 1) element reader)
    {b : ParseBuffer} {c : UInt8} {s : List UInt8} (h : Stands b (c :: s))
    (hdepth : b.depth = depth) :
    Simulates b (c :: s) (JsonParser.parseContainer close element b.enter)
      (JsonReader.readContainer close reader s) := by
  have hlength := h.content_length
  have henter : Stands (b.enter.advance 1) s :=
    (h.advance (n := 1) (by simp)).of_same_place rfl rfl rfl
  obtain ⟨k, hskip, hstands⟩ := henter.skipWhitespace
  have hsame : SameBuffer b.enter ((b.enter.advance 1).advance k) := ⟨rfl, rfl, rfl⟩
  have hsuffix : JsonReader.skipSpaces s <:+ c :: s :=
    (skipSpaces_suffix s).trans (List.suffix_cons c s)
  unfold JsonParser.parseContainer JsonReader.readContainer
  rw [hskip]
  simp only [Option.bind_eq_bind, Option.bind_some, hstands.standsAt_eq hclose]
  cases hbehind : JsonReader.behind close (JsonReader.skipSpaces s) with
  | some rest =>
      rw [JsonReader.behind_eq_some] at hbehind
      rw [hbehind] at hstands hsuffix ⊢
      rw [List.head?_cons, decide_eq_true rfl, if_pos rfl]
      exact Simulates.leave hstands hsame hsuffix []
  | none =>
  rw [JsonReader.behind_eq_none] at hbehind
  have hstart : Stands (((b.enter.advance 1).advance k).stepBack.advance 1)
      (JsonReader.skipSpaces s) := by
    refine hstands.of_same_place (by rfl) (by rfl) ?_
    change b.offset + 1 + k - 1 + 1 = b.offset + 1 + k
    omega
  have hshort := (skipSpaces_suffix s).length_le
  rw [List.length_cons] at hlength
  have hfuel : (JsonReader.skipSpaces s).length < ((b.enter.advance 1).advance k).length + 1 := by
    change _ < b.length + 1
    omega
  have hloop := parseElements_refines helement _ hstart (congrArg (· + 1) hdepth) hfuel
    (show (JsonReader.skipSpaces s).length < s.length + 1 by omega)
  rw [decide_eq_false hbehind, hstands.canAccess, decide_eq_true (Nat.zero_le _)]
  simp only [Bool.false_eq_true, if_false, not_true_eq_false]
  cases hread : JsonReader.readElements reader (s.length + 1) (JsonReader.skipSpaces s) with
  | none =>
      rw [hread] at hloop
      obtain ⟨b', hout, hcontent, hlength', hoffset⟩ := hloop
      rw [hout]
      exact ⟨b', rfl, hcontent, hlength', hoffset⟩
  | some result =>
  obtain ⟨items, rest⟩ := result
  rw [hread] at hloop
  obtain ⟨hsuffix', b', hout, hstands', hsame'⟩ := hloop
  have hsame'' : SameBuffer b.enter b' :=
    ⟨hsame'.content_eq, hsame'.length_eq, hsame'.depth_eq⟩
  rw [hout]
  simp only [Option.bind_some, hstands'.standsAt_eq hclose]
  cases hend : JsonReader.behind close rest with
  | some rest' =>
      rw [JsonReader.behind_eq_some] at hend
      subst hend
      rw [List.head?_cons, decide_eq_true rfl, if_pos rfl]
      exact Simulates.leave hstands' hsame'' (hsuffix'.trans hsuffix) items
  | none =>
      rw [JsonReader.behind_eq_none] at hend
      rw [decide_eq_false hend]
      have hoffset := hstands'.offset_lt
      rw [hsame''.length_eq] at hoffset
      exact ⟨b', rfl, hsame''.content_eq, hsame''.length_eq, hoffset.le⟩

theorem parseMember_refines {depth : ℕ} {value : Parser JsonItem} {reader : Reader JsonItem}
    (hvalue : Refines depth value reader) :
    Refines depth (JsonParser.parseMember value) (JsonReader.readMember reader) := by
  intro b s h hdepth
  have hname := parseCString_refines depth b s h hdepth
  unfold JsonParser.parseMember JsonReader.readMember
  cases hread : JsonReader.readCString s with
  | none =>
      rw [hread] at hname
      obtain ⟨b', hout, hfail⟩ := hname
      simp only [hout, Option.bind_eq_bind, Option.bind_some]
      exact ⟨b', rfl, hfail⟩
  | some result =>
  obtain ⟨name, rest⟩ := result
  rw [hread] at hname
  obtain ⟨hsuffix₁, b₁, hout, hstands₁, hsame₁⟩ := hname
  obtain ⟨b₂, hskip₂, hstands₂, hsame₂⟩ := skipWhitespace_moves hstands₁
  have hsame := hsame₁.trans hsame₂
  have hsuffix := (skipSpaces_suffix rest).trans hsuffix₁
  simp only [hout, Option.bind_eq_bind, Option.bind_some, hskip₂,
    hstands₂.standsAt_eq (c := colon) (by decide)]
  cases hbehind : JsonReader.behind colon (JsonReader.skipSpaces rest) with
  | none =>
      rw [JsonReader.behind_eq_none] at hbehind
      rw [decide_eq_false hbehind]
      have hoffset := hstands₂.offset_lt
      rw [hsame.length_eq] at hoffset
      exact ⟨b₂, rfl, hsame.content_eq, hsame.length_eq, hoffset.le⟩
  | some rest' =>
      rw [JsonReader.behind_eq_some] at hbehind
      rw [hbehind] at hstands₂ hsuffix ⊢
      have hnext : Stands (b₂.advance 1) rest' := hstands₂.advance (by simp)
      obtain ⟨b₃, hskip₃, hstands₃, hsame₃⟩ := skipWhitespace_moves hnext
      have hsame' := (hsame.trans (SameBuffer.advance b₂ 1)).trans hsame₃
      have hitem := hvalue b₃ _ hstands₃ (hsame'.depth_eq.trans hdepth)
      rw [List.head?_cons, decide_eq_true rfl, if_pos rfl, hskip₃]
      simp only [Option.bind_some]
      exact (hitem.map fun item => (name, item)).later hsame'
        ((skipSpaces_suffix rest').trans ((List.suffix_cons colon rest').trans hsuffix))

/-! ## Values -/

theorem standsAtNumber_eq {b : ParseBuffer} {s : List UInt8} (h : Stands b s) :
    JsonParser.standsAtNumber b = some (JsonReader.startsNumber s) := by
  unfold JsonParser.standsAtNumber
  rw [h.canAccess, h.at_eq]
  cases s with
  | nil =>
      have hzero : (decide ((0 : UInt8) = minus) || isDigit 0) = false := by decide
      simp [JsonReader.startsNumber, hzero]
  | cons c s => simp [JsonReader.startsNumber]

theorem eq_cons_of_head {s : List UInt8} {c : UInt8} (h : s.head? = some c) :
    s = c :: s.tail :=
  (List.cons_head?_tail h).symm

theorem parseArray_refines {depth : ℕ} {value : Parser JsonItem} {reader : Reader JsonItem}
    (hlimit : depth < JsonItem.nestingLimit) (hvalue : Refines (depth + 1) value reader)
    {b : ParseBuffer} {s : List UInt8} (h : Stands b (openBracket :: s))
    (hdepth : b.depth = depth) :
    Simulates b (openBracket :: s) (JsonParser.parseArray value b)
      ((JsonReader.readContainer closeBracket reader s).map fun (items, rest) =>
        (.array items, rest)) := by
  have hbyte : b.enter.at? 0 = some openBracket := h.at_eq 0
  unfold JsonParser.parseArray
  rw [if_neg (by omega)]
  simp only [Option.bind_eq_bind, hbyte, Option.bind_some, ne_eq, not_true_eq_false, if_false]
  exact (parseContainer_refines (by decide) hvalue h hdepth).map JsonItem.array

theorem parseObject_refines {depth : ℕ} {value : Parser JsonItem} {reader : Reader JsonItem}
    (hlimit : depth < JsonItem.nestingLimit) (hvalue : Refines (depth + 1) value reader)
    {b : ParseBuffer} {s : List UInt8} (h : Stands b (openBrace :: s)) (hdepth : b.depth = depth) :
    Simulates b (openBrace :: s) (JsonParser.parseObject value b)
      ((JsonReader.readContainer closeBrace (JsonReader.readMember reader) s).map
        fun (members, rest) => (.object members, rest)) := by
  have hbyte : b.enter.standsAt openBrace = some true := by
    have hstands : Stands b.enter (openBrace :: s) := h.of_same_place rfl rfl rfl
    rw [hstands.standsAt_eq (by decide)]
    simp
  unfold JsonParser.parseObject
  rw [if_neg (by omega)]
  simp only [Option.bind_eq_bind, hbyte, Option.bind_some, if_true]
  exact (parseContainer_refines (by decide) (parseMember_refines hvalue) h hdepth).map
    JsonItem.object

theorem startsWith_length {word s : List UInt8} (h : JsonReader.startsWith word s = true) :
    word.length ≤ s.length := by
  unfold JsonReader.startsWith at h
  have hlength := congrArg List.length (of_decide_eq_true h)
  rw [List.length_take] at hlength
  omega

/-- The dispatch on the first characters, given what the arrays and objects are
read by. -/
theorem parseValue_refines_readWith
    {depth calls : ℕ} {nested : Reader JsonItem}
    (hnested : ∀ b s, Stands b s → b.depth = depth →
      Simulates b s (if s.head? = some openBracket then
          JsonParser.parseArray (JsonParser.parseValue calls) b
        else if s.head? = some openBrace then
          JsonParser.parseObject (JsonParser.parseValue calls) b
        else some (none, b)) (nested s)) :
    Refines depth (JsonParser.parseValue (calls + 1)) (JsonReader.readWith nested) := by
  intro b s h hdepth
  unfold JsonParser.parseValue JsonReader.readWith
  simp only [Option.bind_eq_bind, standsAtWord_eq h nullWord (by decide),
    standsAtWord_eq h falseWord (by decide),
    standsAtWord_eq h trueWord (by decide), h.standsAt_eq (c := quote) (by decide),
    h.standsAt_eq (c := openBracket) (by decide), h.standsAt_eq (c := openBrace) (by decide),
    standsAtNumber_eq h, Option.bind_some, decide_eq_true_eq]
  split_ifs with hnull hfalse htrue hquote hnumber hbracket hbrace
  · exact Simulates.succeed h JsonItem.null (startsWith_length hnull)
  · exact Simulates.succeed h (JsonItem.bool false) (startsWith_length hfalse)
  · exact Simulates.succeed h (JsonItem.bool true) (startsWith_length htrue)
  · exact parseString_refines depth b s h hdepth
  · exact parseNumber_refines depth b s h hdepth
  · simpa only [if_pos hbracket] using hnested b s h hdepth
  · simpa only [if_neg hbracket, if_pos hbrace] using hnested b s h hdepth
  · simpa only [if_neg hbracket, if_neg hbrace] using hnested b s h hdepth

/-- At every depth the parser does what the reader does with the levels that
are left. -/
theorem parseValue_refines (levels : ℕ) :
    ∀ {depth : ℕ}, depth + levels = JsonItem.nestingLimit →
      Refines depth (JsonParser.parseValue (levels + 1)) (JsonReader.readValue levels) := by
  induction levels with
  | zero =>
      intro depth hlimit
      apply parseValue_refines_readWith
      intro b s h hdepth
      have hfail : Simulates (α := JsonItem) b s (some (none, b)) none :=
        Simulates.fail ⟨rfl, rfl, rfl⟩ h.offset_lt.le
      have hdeep : JsonItem.nestingLimit ≤ b.depth := by omega
      unfold JsonParser.parseArray JsonParser.parseObject
      rw [if_pos hdeep, if_pos hdeep, ite_self, ite_self]
      exact hfail
  | succ levels ih =>
      intro depth hlimit
      have hvalue : Refines (depth + 1) _ _ := ih (by omega)
      apply parseValue_refines_readWith
      intro b s h hdepth
      unfold JsonReader.readNested
      split_ifs with hbracket hbrace
      · have hs := eq_cons_of_head hbracket
        rw [hs] at h ⊢
        exact parseArray_refines (by omega) hvalue h hdepth
      · have hs := eq_cons_of_head hbrace
        rw [hs] at h ⊢
        exact parseObject_refines (by omega) hvalue h hdepth
      · exact Simulates.fail ⟨rfl, rfl, rfl⟩ h.offset_lt.le

/-! ## The whole text -/

theorem skipUtf8Bom_moves {b : ParseBuffer} {s : List UInt8} (h : Stands b s) :
    ∃ b', b.skipUtf8Bom = some b' ∧ Stands b' (JsonReader.skipBom s) ∧ SameBuffer b b' := by
  unfold ParseBuffer.skipUtf8Bom JsonReader.skipBom
  rw [h.canAccess]
  by_cases hlength : 4 ≤ s.length
  · have hword : b.startsWith ParseBuffer.bom 0 =
        some (JsonReader.startsWith JsonReader.bom s) := by
      have hfits : ParseBuffer.bom.length ≤ s.length := by
        change 3 ≤ s.length
        omega
      rw [startsWith_eq h ParseBuffer.bom 0 (by omega), List.drop_zero,
        List.take_append_of_le_length hfits]
      rfl
    rw [decide_eq_true hlength, if_pos rfl, hword]
    by_cases hbom : JsonReader.startsWith JsonReader.bom s = true
    · rw [hbom, if_pos ⟨hlength, rfl⟩]
      exact ⟨b.advance 3, rfl, h.advance (by omega), SameBuffer.advance b 3⟩
    · rw [Bool.not_eq_true] at hbom
      rw [hbom, if_neg (by simp)]
      exact ⟨b, rfl, h, rfl, rfl, rfl⟩
  · rw [decide_eq_false hlength, if_neg (by simp), if_neg (by simp [hlength])]
    exact ⟨b, rfl, h, rfl, rfl, rfl⟩

theorem bytes_length (s : CString) : s.bytes.length = s.length :=
  List.length_map _

/-- On every C string the parser returns, and it returns what the reader makes
of the text.  A reported position is inside the text or at its end. -/
theorem parse_eq (value : CString) :
    (∃ item, JsonReader.readText value.bytes = some item ∧
      JsonParser.parse value = some (.ok item)) ∨
    (JsonReader.readText value.bytes = none ∧
      ∃ position ≤ value.length, JsonParser.parse value = some (.error position)) := by
  have hstart : Stands (ParseBuffer.mk (value.bytes ++ [0]) (value.length + 1) 0 0)
      value.bytes := by
    refine ⟨?_, rfl⟩
    rw [List.length_append, bytes_length, List.length_singleton]
  obtain ⟨b₁, hbom, hstands₁, hsame₁⟩ := skipUtf8Bom_moves hstart
  obtain ⟨b₂, hskip, hstands₂, hsame₂⟩ := skipWhitespace_moves hstands₁
  have hsame := hsame₁.trans hsame₂
  have hvalue := parseValue_refines JsonItem.nestingLimit (Nat.zero_add _) b₂ _ hstands₂
    hsame.depth_eq
  unfold JsonParser.parse JsonParser.parseWithLength JsonReader.readText
  simp only [Option.bind_eq_bind, hbom, Option.bind_some, hskip]
  cases hread : JsonReader.readValue JsonItem.nestingLimit
      (JsonReader.skipSpaces (JsonReader.skipBom value.bytes)) with
  | some result =>
      rw [hread] at hvalue
      obtain ⟨-, b', hout, -⟩ := hvalue
      rw [hout]
      exact Or.inl ⟨result.1, rfl, rfl⟩
  | none =>
      rw [hread] at hvalue
      obtain ⟨b', hout, -, hlength, hoffset⟩ := hvalue
      have htotal : b'.length = value.length + 1 := hlength.trans hsame.length_eq
      rw [hout]
      refine Or.inr ⟨rfl, JsonParser.errorPosition b', ?_, rfl⟩
      unfold JsonParser.errorPosition
      split_ifs <;> omega

end Iperf3
